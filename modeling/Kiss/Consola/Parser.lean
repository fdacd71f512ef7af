/-
# The parser of the console

`consola/src/parser.c`: a line becomes instructions, `NO_OP n` as many as it says.
`string_split` of the commons is a parameter. A token that is not there is a `NULL` that
`strcmp`, `strdup` or `atoi` dereferences, and there is no answer then; an unknown instruction
is answered with an error.

Key definitions: `parseInstructions`, `parseProgram`.
Key theorems: `parseProgram_valida`.
-/
import Kiss.Structs

namespace Kiss
namespace Consola

/-- The bytes of a string literal. -/
def literal (s : String) : Cadena := s.toList.map fun c => c.toNat.toUInt8

/-- `parse_instructions`, with the tokens of the line: what it adds to the list, nothing when
it returns `EXIT_FAILURE`; `none` where it uses a token that is not there. -/
def parseInstructions (parsed : List Cadena) : Option (Option (List Instruction)) := do
  let codigo ← parsed[0]?
  if codigo = literal "NO_OP" then
    let n ← parsed[1]?
    some (some (List.replicate (atoi n).toNat ⟨.noOp, []⟩))
  else if codigo = literal "I/O" then
    let p ← parsed[1]?
    some (some [⟨.io, [p]⟩])
  else if codigo = literal "WRITE" then
    let p ← parsed[1]?
    let q ← parsed[2]?
    some (some [⟨.write, [p, q]⟩])
  else if codigo = literal "COPY" then
    let p ← parsed[1]?
    let q ← parsed[2]?
    some (some [⟨.copy, [p, q]⟩])
  else if codigo = literal "READ" then
    let p ← parsed[1]?
    some (some [⟨.read, [p]⟩])
  else if codigo = literal "EXIT" then some (some [⟨.exit, []⟩])
  else some none

/-- The loop over the lines: it ends at the first error, and the program is destroyed. -/
def parseLines (stringSplit : Cadena → List Cadena) : List Cadena → Option (Option (List Instruction))
  | [] => some (some [])
  | line :: lines => do
    match ← parseInstructions (stringSplit line) with
    | none => some none
    | some l => (parseLines stringSplit lines).map fun r => r.map fun is => l ++ is

theorem parseLines_cons {stringSplit : Cadena → List Cadena} {line : Cadena} {lines : List Cadena}
    {l : List Instruction} (h : parseInstructions (stringSplit line) = some (some l)) :
    parseLines stringSplit (line :: lines) =
      (parseLines stringSplit lines).map fun r => r.map fun is => l ++ is := by
  rw [parseLines, h]
  rfl

/-- `parse_program`, with the lines of the file: a program or `NULL`. -/
def parseProgram (stringSplit : Cadena → List Cadena) (lines : List Cadena) (programSize : ℤ) :
    Option (Option Program) :=
  (parseLines stringSplit lines).map fun r => r.map fun l => ⟨programSize, l⟩

/-- The instructions have the parameters they read. -/
theorem parseInstructions_valida {parsed : List Cadena} {l : List Instruction}
    (h : parseInstructions parsed = some (some l)) : ∀ i ∈ l, i.Valida := by
  unfold parseInstructions at h
  obtain ⟨codigo, -, h⟩ := Option.bind_eq_some_iff.mp h
  split_ifs at h
  · obtain ⟨n, -, h⟩ := Option.bind_eq_some_iff.mp h
    cases h
    intro i hi
    rw [List.eq_of_mem_replicate hi]
    trivial
  · obtain ⟨p, -, h⟩ := Option.bind_eq_some_iff.mp h
    cases h
    simp [Instruction.Valida]
  · obtain ⟨p, -, h⟩ := Option.bind_eq_some_iff.mp h
    obtain ⟨q, -, h⟩ := Option.bind_eq_some_iff.mp h
    cases h
    simp [Instruction.Valida]
  · obtain ⟨p, -, h⟩ := Option.bind_eq_some_iff.mp h
    obtain ⟨q, -, h⟩ := Option.bind_eq_some_iff.mp h
    cases h
    simp [Instruction.Valida]
  · obtain ⟨p, -, h⟩ := Option.bind_eq_some_iff.mp h
    cases h
    simp [Instruction.Valida]
  · cases h
    simp [Instruction.Valida]
  · cases h

theorem parseLines_valida {stringSplit : Cadena → List Cadena} : ∀ {lines : List Cadena}
    {l : List Instruction}, parseLines stringSplit lines = some (some l) → ∀ i ∈ l, i.Valida
  | [], l, h => by
    cases h
    simp
  | line :: lines, l, h => by
    obtain ⟨r, h1, h⟩ := Option.bind_eq_some_iff.mp h
    rcases r with _ | is
    · cases h
    · obtain ⟨r, h2, h⟩ := Option.map_eq_some_iff.mp h
      obtain ⟨js, rfl, rfl⟩ := Option.map_eq_some_iff.mp h
      intro i hi
      rcases List.mem_append.mp hi with hi | hi
      · exact parseInstructions_valida h1 i hi
      · exact parseLines_valida h2 i hi

theorem parseProgram_valida {stringSplit : Cadena → List Cadena} {lines : List Cadena} {programSize : ℤ}
    {prog : Program} (h : parseProgram stringSplit lines programSize = some (some prog)) :
    ∀ i ∈ prog.instructions, i.Valida := by
  obtain ⟨r, hr, h⟩ := Option.map_eq_some_iff.mp h
  obtain ⟨l, rfl, rfl⟩ := Option.map_eq_some_iff.mp h
  exact parseLines_valida hr

end Consola
end Kiss
