/-
# The KISS language

What a program means, apart from who executes it: a machine with a counter, a memory of
bytes of its own, and one instruction after the other until `EXIT`. It has no pages, no
frames and no other process. A machine that has ended does no more, so where a program
ends is one place of its run (`corre_exit`); the language has no jumps, so a valid program
gets there (`corre_termina`).

Key definitions: `Maquina`, `efecto`, `paso`, `corre`.
Key theorems: `corre_exit`, `paso_isSome`, `corre_termina`.
-/
import Kiss.Cpu.Despacho
import Kiss.Memoria.Copia

namespace Kiss
namespace Lenguaje

open Cpu (parametro parametro_some)

/-! ### The machine -/

/-- The bytes of a process. -/
abbrev Memoria := ℕ → UInt8

/-- The word at an address. -/
def leer (m : Memoria) (dir : ℕ) : ℕ := Copia.valor (Copia.leer m dir 4)

/-- The memory with a word written at an address. -/
def escribir (m : Memoria) (dir valor : ℕ) : Memoria := Copia.copiar m dir 4 (Copia.palabra valor)

theorem leer_lt (m : Memoria) (dir : ℕ) : leer m dir < 2 ^ 32 := by
  have h1 := Bytes.value_lt ((List.range 4).map (Copia.leer m dir 4))
  rw [List.length_map, List.length_range] at h1
  exact h1

/-- How an instruction ends: the next one follows, the process waits for an I/O, or it
ends. -/
inductive Fin
  | sigue
  | io (rafaga : ℤ)
  | exit
  deriving DecidableEq, Repr

/-- A machine, before its next instruction; `fin` is how the last one ended. -/
structure Maquina where
  contador : ℤ := 0
  memoria : Memoria := fun _ => 0
  fin : Fin := .sigue

/-- What an instruction does to the memory, and how it ends; `none` without an operand. -/
def efecto (i : Instruction) (m : Memoria) : Option (Memoria × Fin) :=
  match i.codigo with
  | .noOp => some (m, .sigue)
  | .io => (parametro i 0).map fun n => (m, .io n)
  | .write => (parametro i 0).bind fun dir => (parametro i 1).map fun n =>
      (escribir m (toU32 dir) (toU32 n), .sigue)
  | .copy => (parametro i 0).bind fun destino => (parametro i 1).map fun origen =>
      (escribir m (toU32 destino) (leer m (toU32 origen)), .sigue)
  | .read => (parametro i 0).map fun _ => (m, .sigue)
  | .exit => some (m, .exit)
  | .otro _ _ => some (m, .sigue)

/-- One instruction of a program. -/
def paso (l : List Instruction) (x : Maquina) : Option Maquina :=
  if x.fin = .exit then none
  else (listGet l x.contador).bind fun i => (efecto i x.memoria).map fun r =>
    { contador := x.contador + 1, memoria := r.1, fin := r.2 }

/-- The machine after `n` instructions, from the start of the program. -/
def corre (l : List Instruction) : ℕ → Option Maquina
  | 0 => some {}
  | n + 1 => (corre l n).bind (paso l)

variable {l : List Instruction} {x y : Maquina} {n k : ℕ}

/-! ### Runs -/

theorem paso_some (h : paso l x = some y) : x.fin ≠ .exit ∧ ∃ i r, listGet l x.contador = some i ∧
    efecto i x.memoria = some r ∧ y = { contador := x.contador + 1, memoria := r.1, fin := r.2 } := by
  unfold paso at h
  split_ifs at h with hf
  obtain ⟨i, hi, h⟩ := Option.bind_eq_some_iff.mp h
  obtain ⟨r, hr, rfl⟩ := Option.map_eq_some_iff.mp h
  exact ⟨hf, i, r, hi, hr, rfl⟩

/-- What has run, has run up to every place before. -/
theorem corre_le (h : corre l n = some x) (hk : k ≤ n) : ∃ y, corre l k = some y := by
  induction n generalizing x with
  | zero => exact ⟨x, by rw [Nat.le_zero.mp hk]; exact h⟩
  | succ n ih =>
    rcases Nat.lt_or_ge n k with hn | hn
    · rw [show k = n + 1 by omega]
      exact ⟨x, h⟩
    · obtain ⟨y, hy, -⟩ := Option.bind_eq_some_iff.mp h
      exact ih hy hn

/-- Before its last instruction a machine had not ended. -/
theorem corre_lt (h : corre l n = some x) (hk : k < n) (hy : corre l k = some y) : y.fin ≠ .exit := by
  obtain ⟨z, hz⟩ := corre_le h (Nat.succ_le_of_lt hk)
  rw [corre, hy, Option.bind_some] at hz
  exact (paso_some hz).1

/-- **A program ends in one place.** -/
theorem corre_exit (hx : corre l n = some x) (hn : x.fin = .exit) (hy : corre l k = some y)
    (hk : y.fin = .exit) : x = y := by
  rcases Nat.lt_trichotomy n k with h | h | h
  · exact absurd hn (corre_lt hy h hx)
  · rw [h, hy] at hx
    exact (Option.some.inj hx).symm
  · exact absurd hk (corre_lt hx h hy)

/-! ### Valid programs -/

theorem efecto_isSome {i : Instruction} (h : i.Valida) (m : Memoria) : ∃ r, efecto i m = some r := by
  unfold Instruction.Valida at h
  unfold efecto
  split at h
  case h_1 hi | h_2 hi => exact ⟨_, by rw [hi]⟩
  case h_3 hi | h_4 hi =>
    obtain ⟨v, hv⟩ := parametro_some (n := 0) (i := i) h
    rw [hi, show (0 : ℤ) = ((0 : ℕ) : ℤ) from rfl, hv]
    exact ⟨_, rfl⟩
  case h_5 hi | h_6 hi =>
    obtain ⟨v, hv⟩ := parametro_some (n := 0) (i := i) (by omega)
    obtain ⟨w, hw⟩ := parametro_some (n := 1) (i := i) (by omega)
    rw [hi, show (0 : ℤ) = ((0 : ℕ) : ℤ) from rfl, hv, show (1 : ℤ) = ((1 : ℕ) : ℤ) from rfl, hw]
    exact ⟨_, rfl⟩
  case h_7 => exact h.elim

theorem efecto_exit {i : Instruction} {m : Memoria} {r : Memoria × Fin} (h : efecto i m = some r) :
    r.2 = .exit ↔ i.codigo = .exit := by
  unfold efecto at h
  cases hi : i.codigo
  all_goals simp only [hi] at h
  case write | copy =>
    obtain ⟨v, -, h⟩ := Option.bind_eq_some_iff.mp h
    obtain ⟨w, -, rfl⟩ := Option.map_eq_some_iff.mp h
    simp
  case io | read =>
    obtain ⟨v, -, rfl⟩ := Option.map_eq_some_iff.mp h
    simp
  case noOp | exit | otro =>
    rw [← Option.some.inj h]
    simp

theorem corre_contador (h : corre l n = some x) : x.contador = n := by
  induction n generalizing x with
  | zero =>
    rw [← Option.some.inj h]
    rfl
  | succ n ih =>
    obtain ⟨y, hy, h⟩ := Option.bind_eq_some_iff.mp h
    obtain ⟨-, i, r, -, -, rfl⟩ := paso_some h
    rw [ih hy]
    push_cast
    rfl

/-- A run is not longer than its program. -/
theorem corre_le_length (h : corre l n = some x) : n ≤ l.length := by
  cases n with
  | zero => exact Nat.zero_le _
  | succ n =>
    obtain ⟨y, hy, h⟩ := Option.bind_eq_some_iff.mp h
    obtain ⟨-, i, r, hi, -, rfl⟩ := paso_some h
    have h1 := (Cpu.listGet_some hi).2.1
    rw [corre_contador hy] at h1
    omega

/-- A valid program has an instruction left until it ends. -/
theorem corre_lt_length (hl : ProgramaValido l) (h : corre l n = some x) (hf : x.fin ≠ .exit) :
    n < l.length := by
  obtain ⟨u, hu, hexit⟩ := hl.exit
  have hpos : 0 < l.length := List.length_pos_iff.mpr fun h0 => by
    rw [h0] at hu
    cases hu
  cases n with
  | zero => exact hpos
  | succ n =>
    obtain ⟨y, hy, h⟩ := Option.bind_eq_some_iff.mp h
    obtain ⟨-, i, r, hi, hr, rfl⟩ := paso_some h
    obtain ⟨-, h1, h2⟩ := Cpu.listGet_some hi
    rw [corre_contador hy] at h1 h2
    by_contra hlt
    -- the last instruction is `EXIT`
    rw [Option.mem_def, List.getLast?_eq_getElem?, show l.length - 1 = n by omega] at hu
    rw [Int.toNat_natCast, hu] at h2
    exact hf ((efecto_exit hr).mpr (Option.some.inj h2 ▸ hexit))

theorem paso_isSome (hl : ProgramaValido l) (h : corre l n = some x) (hf : x.fin ≠ .exit) :
    ∃ y, paso l x = some y := by
  have h1 := corre_lt_length hl h hf
  obtain ⟨r, hr⟩ := efecto_isSome (hl.valida _ (List.getElem_mem h1)) x.memoria
  refine ⟨{ contador := x.contador + 1, memoria := r.1, fin := r.2 }, ?_⟩
  rw [paso, if_neg hf, corre_contador h, listGet, if_pos (Int.natCast_nonneg n), Int.toNat_natCast,
    List.getElem?_eq_getElem h1, Option.bind_some, hr, Option.map_some]

/-- **A valid program ends**: it has no jumps. -/
theorem corre_termina (hl : ProgramaValido l) : ∃ n x, corre l n = some x ∧ x.fin = .exit := by
  by_contra hno
  have h1 : ∀ n, ∃ x, corre l n = some x := fun n => by
    induction n with
    | zero => exact ⟨_, rfl⟩
    | succ n ih =>
      obtain ⟨x, hx⟩ := ih
      obtain ⟨y, hy⟩ := paso_isSome hl hx fun hf => hno ⟨n, x, hx, hf⟩
      exact ⟨y, by rw [corre, hx, Option.bind_some, hy]⟩
  obtain ⟨x, hx⟩ := h1 (l.length + 1)
  exact absurd (corre_le_length hx) (by omega)

end Lenguaje
end Kiss
