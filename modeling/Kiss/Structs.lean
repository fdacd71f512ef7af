/-
# The structures the modules share

`shared/include/kiss.structs.h` and the codes of `kiss.serialization.h`: the
instructions of a program, why the CPU gives a process back, the states of a
process, the signals and message codes, and C's 32-bit integers.
-/
import Mathlib.Algebra.Group.Int.Defs
import Mathlib.Algebra.Group.Nat.Defs
import Mathlib.Data.Int.Basic
import Mathlib.Data.Nat.Basic

namespace Kiss

/-! ### Integers -/

/-- A number stored in a `uint32_t`. -/
def toU32 (n : ℤ) : ℕ := (n % 2 ^ 32).toNat

/-- A number stored in an `int`. -/
def toInt (n : ℤ) : ℤ := Int.bmod n (2 ^ 32)

/-- `(uint32_t) -1`. -/
def u32Max : ℕ := 2 ^ 32 - 1

theorem toInt_of_lt {n : ℕ} (h : n < 2 ^ 31) : toInt n = n := by
  unfold toInt
  rw [Int.bmod_eq_of_le_mul_two] <;> omega

theorem toInt_of_nonneg {n : ℤ} (h0 : 0 ≤ n) (h : n < 2 ^ 31) : toInt n = n := by
  unfold toInt
  rw [Int.bmod_eq_of_le_mul_two] <;> omega

theorem toU32_lt (n : ℤ) : toU32 n < 2 ^ 32 := by
  unfold toU32
  omega

/-- The bytes of an `int` are those of the `uint32_t`. -/
theorem toInt_toU32 (n : ℤ) : toInt (toU32 n) = toInt n := by
  unfold toInt toU32
  rw [Int.toNat_of_nonneg (Int.emod_nonneg _ (by decide))]
  exact Int.emod_bmod ..

theorem toU32_toInt (n : ℤ) : toU32 (toInt n) = toU32 n := by
  unfold toInt toU32
  rw [show (2 ^ 32 : ℤ) = ((2 ^ 32 : ℕ) : ℤ) from rfl, Int.bmod_emod]

theorem toU32_of_lt {n : ℕ} (h : n < 2 ^ 32) : toU32 n = n := by
  unfold toU32
  omega

/-! ### Lists -/

/-- `list_get`: `NULL` outside the list. -/
def listGet {α : Type*} (l : List α) (i : ℤ) : Option α := if 0 ≤ i then l[i.toNat]? else none

/-! ### Strings -/

/-- A C string: its bytes up to the final NUL. -/
abbrev Cadena := List UInt8

/-- `isspace`. -/
def isSpace (b : UInt8) : Bool := b = 32 || (9 ≤ b && b ≤ 13)

/-- The digits at the start of a string, read in base 10 on top of `acc`. -/
def readDigits : ℕ → Cadena → ℕ
  | acc, [] => acc
  | acc, b :: s => if 48 ≤ b && b ≤ 57 then readDigits (acc * 10 + (b.toNat - 48)) s else acc

/-- `atoi`: blanks, a sign, digits; `strtol` saturates and the result is cut to
an `int`. -/
def atoi (s : Cadena) : ℤ :=
  match s.dropWhile isSpace with
  | 45 :: ds => toInt (-(min (readDigits 0 ds) (2 ^ 63) : ℕ))
  | 43 :: ds => toInt (min (readDigits 0 ds) (2 ^ 63 - 1) : ℕ)
  | ds => toInt (min (readDigits 0 ds) (2 ^ 63 - 1) : ℕ)

/-! ### Programs -/

/-- `t_codigo_instruccion`; `otro` is a number that is none of its codes. -/
inductive CodigoInstruccion
  | noOp | io | write | copy | read | exit
  | otro (n : ℕ) (h : 6 ≤ n ∧ n < 2 ^ 32)
  deriving DecidableEq, Repr

/-- `t_instruction`. -/
structure Instruction where
  codigo : CodigoInstruccion
  parametros : List Cadena
  deriving DecidableEq, Repr

/-- `t_program`. -/
structure Program where
  size : ℤ
  instructions : List Instruction
  deriving DecidableEq, Repr

/-- An instruction with one of the codes and the parameters it reads. -/
def Instruction.Valida (i : Instruction) : Prop :=
  match i.codigo with
  | .noOp | .exit => True
  | .io | .read => 1 ≤ i.parametros.length
  | .write | .copy => 2 ≤ i.parametros.length
  | .otro _ _ => False

instance : DecidablePred Instruction.Valida := fun i => by
  unfold Instruction.Valida
  split <;> infer_instance

/-- Valid instructions, the last one `EXIT`. -/
structure ProgramaValido (l : List Instruction) : Prop where
  valida : ∀ i ∈ l, i.Valida
  exit : ∃ i ∈ l.getLast?, i.codigo = .exit

instance (l : List Instruction) : Decidable (ProgramaValido l) :=
  decidable_of_iff ((∀ i ∈ l, i.Valida) ∧ ∃ i ∈ l.getLast?, i.codigo = .exit)
    ⟨fun h => ⟨h.1, h.2⟩, fun h => ⟨h.1, h.2⟩⟩

/-- `t_dispatch_cond`: why the CPU gave a process back. -/
inductive DispatchCond
  | nullCondition | exitProgram | interruptedByKernel | ioSyscall
  deriving DecidableEq, Repr

/-- `t_process_status`. -/
inductive ProcessStatus
  | new | ready | blocked | exec | exit | suspendedReady | suspendedBlocked
  deriving DecidableEq, Repr

/-- The signals of `t_signal` that the modelled code sends. -/
inductive Signal
  | codeNotExpected | errorPackage | operationSuccess | operationFailure | cpuInterrupt
  deriving DecidableEq, Repr

/-- The message codes of `t_message_code` that the modelled code sends. -/
inductive MessageCode
  | emptyPackage | errorPackage | signal | pcb | escribirMarco | leerMarco
  | buscarTablaDePaginas | buscarMarco | nuevoProceso | suspenderProceso | finalizarProceso
  deriving DecidableEq, Repr

end Kiss
