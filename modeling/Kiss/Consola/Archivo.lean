/-
# A file of pseudocode

`consola/src/parser.c` on the bytes of a file: `getline` keeps the newline of each line, the
tokens are what is between spaces, so the newline is part of the last token or is a token by
itself, and nobody counts the tokens before using them. A line that is not well formed is
refused only when its first token is no instruction: with a token less than it uses the
program reads a `NULL`, and with a space before the newline it takes the newline for the
operand that is missing (`rechaza_iff`).

Key definitions: `getlines`, `tokens`, `Archivo.parseProgram`, `Mala`, `SeRechaza`.
Key theorems: `parseLines_none_iff`, `rechaza_iff`, `not_rechazaTexto`.
-/
import Kiss.Consola.Parser

namespace Kiss
namespace Consola

/-! ### Lines and tokens -/

/-- `getline` to the end of the file: the lines, each with its newline. -/
def getlines : Cadena → List Cadena
  | [] => []
  | b :: s =>
    if b = 10 then [b] :: getlines s
    else match getlines s with
      | [] => [[b]]
      | l :: ls => (b :: l) :: ls

/-- What there is between spaces. -/
def tokens (s : Cadena) : List Cadena := (s.splitOn 32).filter (· ≠ [])

/-- `parse_program` on the text of the file. -/
def Archivo.parseProgram (stringSplit : Cadena → List Cadena) (text : Cadena) (programSize : ℤ) :
    Option (Option Program) := Consola.parseProgram stringSplit (getlines text) programSize

variable {stringSplit : Cadena → List Cadena} {text line : Cadena} {lines ts ps : List Cadena} {m : Cadena}

/-! ### What a line needs -/

/-- The operands of an instruction; `none` for what is none. -/
def operandosDe (c : Cadena) : Option ℕ :=
  if c = literal "NO_OP" ∨ c = literal "I/O" ∨ c = literal "READ" then some 1
  else if c = literal "WRITE" ∨ c = literal "COPY" then some 2
  else if c = literal "EXIT" then some 0
  else none

/-- A line without its newline. -/
def sinFin (line : Cadena) : Cadena := if line.getLast? = some 10 then line.dropLast else line

/-- An instruction and as many tokens as it uses. -/
def Completa : List Cadena → Prop
  | [] => False
  | m :: ps => ∃ k ∈ operandosDe m, k ≤ ps.length

/-- The first token is no instruction. -/
def Desconocida : List Cadena → Prop
  | [] => False
  | m :: _ => operandosDe m = none

instance : DecidablePred Completa
  | [] => .isFalse id
  | m :: ps => inferInstanceAs (Decidable (∃ k ∈ operandosDe m, k ≤ ps.length))

instance : DecidablePred Desconocida
  | [] => .isFalse id
  | m :: _ => inferInstanceAs (Decidable (operandosDe m = none))

/-- The line has no instruction, one that is unknown, or fewer operands than it needs. -/
def Mala (line : Cadena) : Prop := ¬ Completa (tokens (sinFin line))

/-- The first line without all its tokens, the newline counted, has a first token that is
no instruction. -/
def SeRechaza (text : Cadena) : Prop :=
  ∃ pre line post, getlines text = pre ++ line :: post ∧ (∀ l ∈ pre, Completa (tokens l)) ∧
    Desconocida (tokens line)

/-- The parser answers `NULL`, and uses no token that is not there, when a line is bad. -/
def Rechaza (text : Cadena) (r : Option (Option Program)) : Prop :=
  (∃ line ∈ getlines text, Mala line) → r = some none

/-- A line that names an instruction gives instructions when it has its tokens, and else
uses one that is not there. -/
theorem parseInstructions_conocida (ps : List Cadena) {k : ℕ} (h : operandosDe m = some k) :
    (k ≤ ps.length → ∃ l, parseInstructions (m :: ps) = some (some l)) ∧
      (ps.length < k → parseInstructions (m :: ps) = none) := by
  unfold operandosDe at h
  split_ifs at h with h1 h2 h3
  · obtain rfl := Option.some.inj h
    rcases ps with _ | ⟨p, ps⟩
    · refine ⟨fun h => absurd h (Nat.not_succ_le_zero 0), fun _ => ?_⟩
      rcases h1 with rfl | rfl | rfl <;> rfl
    · refine ⟨fun _ => ?_, fun h => absurd h (by simp)⟩
      rcases h1 with rfl | rfl | rfl <;> exact ⟨_, rfl⟩
  · obtain rfl := Option.some.inj h
    rcases ps with _ | ⟨p, _ | ⟨q, ps⟩⟩
    · refine ⟨fun h => absurd h (by simp), fun _ => ?_⟩
      rcases h2 with rfl | rfl <;> rfl
    · refine ⟨fun h => absurd h (by simp), fun _ => ?_⟩
      rcases h2 with rfl | rfl <;> rfl
    · refine ⟨fun _ => ?_, fun h => absurd h (by simp)⟩
      rcases h2 with rfl | rfl <;> exact ⟨_, rfl⟩
  · obtain rfl := Option.some.inj h
    subst h3
    exact ⟨fun _ => ⟨_, rfl⟩, fun h => absurd h (Nat.not_lt_zero _)⟩

theorem parseInstructions_desconocida (h : operandosDe m = none) :
    parseInstructions (m :: ps) = some none := by
  unfold operandosDe at h
  split_ifs at h with h1 h2 h3
  simp only [not_or] at h1 h2
  simp [parseInstructions, h1, h2, h3]

/-- The lines that are taken. -/
theorem parseInstructions_some_iff :
    (∃ l, parseInstructions ts = some (some l)) ↔ Completa ts := by
  rcases ts with _ | ⟨m, ps⟩
  · exact ⟨fun ⟨l, hl⟩ => (by cases hl), False.elim⟩
  · constructor
    · rintro ⟨l, hl⟩
      rcases hm : operandosDe m with _ | k
      · rw [parseInstructions_desconocida hm] at hl
        cases hl
      · refine ⟨k, hm, not_lt.mp fun hk => ?_⟩
        rw [(parseInstructions_conocida ps hm).2 hk] at hl
        cases hl
    · rintro ⟨k, hm, hk⟩
      exact (parseInstructions_conocida ps hm).1 hk

/-- The lines that are refused. -/
theorem parseInstructions_none_iff :
    parseInstructions ts = some none ↔ Desconocida ts := by
  rcases ts with _ | ⟨m, ps⟩
  · exact ⟨fun h => (by cases h), False.elim⟩
  · constructor
    · intro h
      rcases hm : operandosDe m with _ | k
      · exact hm
      · obtain ⟨h1, h2⟩ := parseInstructions_conocida ps hm
        rcases Nat.lt_or_ge ps.length k with hk | hk
        · rw [h2 hk] at h
          cases h
        · obtain ⟨l, hl⟩ := h1 hk
          rw [hl] at h
          cases h
    · exact fun hm => parseInstructions_desconocida hm

/-! ### The file -/

/-- The loop answers an error at the first line that is not taken. -/
theorem parseLines_none_iff : ∀ lines : List Cadena, parseLines stringSplit lines = some none ↔
    ∃ pre line post, lines = pre ++ line :: post ∧ (∀ l ∈ pre, Completa (stringSplit l)) ∧
      Desconocida (stringSplit line)
  | [] => by
    constructor
    · intro h
      cases h
    · rintro ⟨pre, line, post, h, -⟩
      cases pre <;> cases h
  | line :: lines => by
    have ih := parseLines_none_iff lines
    have hself : ∀ pre l post, line :: lines = pre ++ l :: post → pre = [] ∧ l = line ∨
        ∃ pre', pre = line :: pre' ∧ lines = pre' ++ l :: post := fun pre l post h => by
      cases pre with
      | nil => exact Or.inl ⟨rfl, (List.cons.inj h).1.symm⟩
      | cons a pre =>
        obtain ⟨h1, h2⟩ := List.cons.inj h
        exact Or.inr ⟨pre, by rw [h1], h2⟩
    rcases hp : parseInstructions (stringSplit line) with _ | _ | is
    · -- a token that is not there is used
      rw [parseLines, hp]
      refine ⟨fun h => (by cases h), ?_⟩
      rintro ⟨pre, l, post, h, hc, hd⟩
      rcases hself pre l post h with ⟨-, rfl⟩ | ⟨pre', rfl, -⟩
      · rw [parseInstructions_none_iff.mpr hd] at hp
        cases hp
      · obtain ⟨is, his⟩ := parseInstructions_some_iff.mpr (hc line List.mem_cons_self)
        rw [his] at hp
        cases hp
    · rw [parseLines, hp]
      refine ⟨fun _ => ⟨[], line, lines, rfl, fun l hl => absurd hl List.not_mem_nil, ?_⟩, fun _ => rfl⟩
      exact parseInstructions_none_iff.mp hp
    · have h1 : parseLines stringSplit (line :: lines) = some none ↔ parseLines stringSplit lines = some none := by
        rw [parseLines_cons hp]
        rcases parseLines stringSplit lines with _ | _ | js <;> simp
      rw [h1, ih]
      constructor
      · rintro ⟨pre, l, post, rfl, hc, hd⟩
        refine ⟨line :: pre, l, post, rfl, fun k hk => ?_, hd⟩
        rcases List.mem_cons.mp hk with rfl | hk
        · exact parseInstructions_some_iff.mp ⟨is, hp⟩
        · exact hc k hk
      · rintro ⟨pre, l, post, h, hc, hd⟩
        rcases hself pre l post h with ⟨-, rfl⟩ | ⟨pre', rfl, hl⟩
        · rw [parseInstructions_none_iff.mpr hd] at hp
          cases hp
        · exact ⟨pre', l, post, hl, fun k hk => hc k (List.mem_cons_of_mem _ hk), hd⟩

/-- **What the parser refuses.** For every file with a bad line, it answers `NULL` exactly when
the first line without all its tokens has a first token that is no instruction. -/
theorem rechaza_iff (hs : ∀ line, stringSplit line = tokens line) (programSize : ℤ) :
    Rechaza text (Archivo.parseProgram stringSplit text programSize) ↔
      ((∃ line ∈ getlines text, Mala line) → SeRechaza text) := by
  have h1 : Archivo.parseProgram stringSplit text programSize = some none ↔ SeRechaza text := by
    have h2 : parseLines stringSplit (getlines text) = some none ↔ _ := parseLines_none_iff (getlines text)
    simp only [hs] at h2
    rw [SeRechaza, ← h2, Archivo.parseProgram, parseProgram]
    rcases parseLines stringSplit (getlines text) with _ | _ | l <;> simp
  rw [Rechaza, h1]

theorem rechaza_iff_sinOperando :
    Rechaza (literal "NO_OP 1\nEXIT 1\nREAD\n") (Archivo.parseProgram tokens (literal "NO_OP 1\nEXIT 1\nREAD\n") 8) :=
  (rechaza_iff (fun _ => rfl) 8).mpr fun _ => ⟨[literal "NO_OP 1\n", literal "EXIT 1\n"], literal "READ\n", [],
    by decide +kernel, by decide +kernel, by decide +kernel⟩

/-- An operand that is missing at the end of the file is used; one that is missing before a
space and the newline is the newline. -/
theorem not_rechazaTexto : ¬ (∀ (text : Cadena) (programSize : ℤ), 0 ∉ text →
      Rechaza text (Archivo.parseProgram tokens text programSize)) ∧
    Archivo.parseProgram tokens (literal "READ") 0 = none ∧
    Archivo.parseProgram tokens (literal "READ \n") 0 = some (some ⟨0, [⟨.read, [literal "\n"]⟩]⟩) := by
  have h1 : Archivo.parseProgram tokens (literal "READ") 0 = none := by decide +kernel
  refine ⟨fun h => ?_, h1, by decide +kernel⟩
  have h2 := h (literal "READ") 0 (by decide +kernel)
    ⟨literal "READ", by decide +kernel, by unfold Mala; decide +kernel⟩
  rw [h1] at h2
  cases h2

end Consola
end Kiss
