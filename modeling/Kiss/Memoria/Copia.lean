/-
# Copies between memories

A memory gives a byte for every address. `leer` takes `n` bytes out of it as a buffer
of their own, `copiar` puts `n` bytes of a buffer into it. What was copied is read
back, other places are left alone, and a copy inside a block is the same copy inside
the buffer of the block. A word is four bytes, the lowest first.

Key definitions: `leer`, `copiar`, `palabra`, `valor`.
-/
import Kiss.Serializacion.Bytes

namespace Kiss
namespace Copia

/-- The `n` bytes at `a`, as a buffer: 0 outside. -/
def leer (m : ℕ → UInt8) (a n : ℕ) : ℕ → UInt8 := fun j => if j < n then m (a + j) else 0

/-- `memcpy`: the first `n` bytes of a buffer at `a`. -/
def copiar (m : ℕ → UInt8) (a n : ℕ) (dato : ℕ → UInt8) : ℕ → UInt8 :=
  fun x => if a ≤ x ∧ x < a + n then dato (x - a) else m x

/-- The bytes of a `uint32_t`. -/
def palabra (w : ℕ) : ℕ → UInt8 := fun j => (Bytes.ofNat 4 w).getD j 0

/-- The `uint32_t` at the start of a buffer. -/
def valor (b : ℕ → UInt8) : ℕ := Bytes.value ((List.range 4).map b)

variable {m : ℕ → UInt8} {a b n k : ℕ} {dato : ℕ → UInt8}

/-- What was copied is read. -/
theorem leer_copiar (m : ℕ → UInt8) (a n : ℕ) (dato : ℕ → UInt8) :
    leer (copiar m a n dato) a n = leer dato 0 n := by
  funext j
  unfold leer copiar
  split_ifs with h1 h2
  · rw [Nat.zero_add, Nat.add_sub_cancel_left]
  · omega
  · rfl

/-- A buffer read out of a memory is read again as it is. -/
theorem leer_leer (m : ℕ → UInt8) (a n : ℕ) : leer (leer m a n) 0 n = leer m a n := by
  funext j
  by_cases hj : j < n
  · simp [leer, hj]
  · simp [leer, hj]

/-- A copy elsewhere is not read. -/
theorem leer_copiar_of_disjoint (h : a + n ≤ b ∨ b + k ≤ a) :
    leer (copiar m b k dato) a n = leer m a n := by
  funext j
  unfold leer copiar
  split_ifs
  · omega
  · rfl
  · rfl

/-- A copy inside a block is a copy inside its buffer. -/
theorem leer_copiar_of_le {d : ℕ} (h : d + k ≤ n) :
    leer (copiar m (a + d) k dato) a n = copiar (leer m a n) d k dato := by
  funext j
  unfold leer copiar
  by_cases hj : j < n
  · rw [if_pos hj]
    by_cases hd : d ≤ j ∧ j < d + k
    · rw [if_pos hd, if_pos (by omega), show a + j - (a + d) = j - d by omega]
    · rw [if_neg hd, if_neg (by omega)]
      exact (if_pos hj).symm
  · rw [if_neg hj, if_neg (by omega)]
    exact (if_neg hj).symm

/-- A part of a block is that part of its buffer. -/
theorem leer_of_le {d : ℕ} (h : d + k ≤ n) : leer m (a + d) k = leer (leer m a n) d k := by
  funext j
  unfold leer
  split_ifs
  · rw [Nat.add_assoc]
  · omega
  · rfl

end Copia
end Kiss
