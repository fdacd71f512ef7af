/-
# Numbers and bytes in memory

A number is written in a fixed count of bytes, the lowest first. A decoder reads
from a list of bytes at an offset it keeps by hand, and every read names how many
bytes it takes: outside the list it has none to give (`slice`). Where a decoder
stands is `Rest`: the bytes from its offset on. What was written is read again
(`slice_append`, `word_append`), and what was read had been written there
(`slice_some`, `word_some`), so a decoder is followed field by field in both
directions.

Key definitions: `ofNat`, `value`, `slice`, `word`, `Rest`.
Key theorems: `value_ofNat`, `ofNat_value`, `slice_append`, `slice_some`.
-/
import Mathlib.Data.List.Basic
import Mathlib.Tactic.Ring

namespace Kiss
namespace Bytes

/-! ### Numbers -/

/-- The lowest `k` bytes of a number, the lowest first. -/
def ofNat : ℕ → ℕ → List UInt8
  | 0, _ => []
  | k + 1, n => UInt8.ofNat n :: ofNat k (n / 256)

/-- The number some bytes hold, the lowest first. -/
def value : List UInt8 → ℕ
  | [] => 0
  | b :: l => b.toNat + 256 * value l

@[simp] theorem length_ofNat : ∀ k n : ℕ, (ofNat k n).length = k
  | 0, _ => rfl
  | k + 1, n => by rw [ofNat, List.length_cons, length_ofNat k]

theorem value_ofNat : ∀ k n : ℕ, value (ofNat k n) = n % 256 ^ k
  | 0, n => by rw [ofNat, value, Nat.pow_zero, Nat.mod_one]
  | k + 1, n => by
    rw [ofNat, value, value_ofNat k, UInt8.toNat_ofNat', show 256 ^ (k + 1) = 256 * 256 ^ k from
      Nat.pow_succ', Nat.mod_mul]

theorem value_lt : ∀ l : List UInt8, value l < 256 ^ l.length
  | [] => Nat.one_pos
  | b :: l => by
    have h1 := value_lt l
    have h2 := b.toNat_lt
    rw [value, List.length_cons, Nat.pow_succ']
    omega

theorem ofNat_value : ∀ l : List UInt8, ofNat l.length (value l) = l
  | [] => rfl
  | b :: l => by
    have h1 : (b.toNat + 256 * value l) / 256 = value l := by
      have := b.toNat_lt
      omega
    have h2 : UInt8.ofNat (b.toNat + 256 * value l) = b := by
      apply UInt8.toNat_inj.mp
      have := b.toNat_lt
      rw [UInt8.toNat_ofNat']
      omega
    rw [value, List.length_cons, ofNat, h1, h2, ofNat_value l]

/-- The first bytes of a number hold its remainder. -/
theorem value_take_ofNat : ∀ j k n : ℕ, j ≤ k → value ((ofNat k n).take j) = n % 256 ^ j
  | 0, _, n, _ => by rw [List.take_zero, value, Nat.pow_zero, Nat.mod_one]
  | j + 1, k + 1, n, h => by
    rw [ofNat, List.take_succ_cons, value, value_take_ofNat j k _ (by omega), UInt8.toNat_ofNat',
      show 256 ^ (j + 1) = 256 * 256 ^ j from Nat.pow_succ', Nat.mod_mul]

/-! ### Reading at an offset -/

/-- The `n` bytes at offset `i`. -/
def slice (l : List UInt8) (i n : ℤ) : Option (List UInt8) :=
  if 0 ≤ i ∧ 0 ≤ n ∧ i + n ≤ l.length then some ((l.drop i.toNat).take n.toNat) else none

/-- The number in the four bytes at offset `i`. -/
def word (l : List UInt8) (i : ℤ) : Option ℕ := (slice l i 4).map value

/-- From offset `i` on the list is `r`. -/
def Rest (l : List UInt8) (i : ℤ) (r : List UInt8) : Prop :=
  ∃ p : List UInt8, l = p ++ r ∧ (p.length : ℤ) = i

theorem rest_start {l r : List UInt8} (h : l = r) : Rest l 0 r := ⟨[], h, rfl⟩

section Rest

variable {l r b : List UInt8} {i n : ℤ}

theorem Rest.length (h : Rest l i r) : i + r.length = l.length := by
  obtain ⟨p, rfl, rfl⟩ := h
  simp

theorem Rest.nonneg (h : Rest l i r) : 0 ≤ i := by
  obtain ⟨p, -, rfl⟩ := h
  omega

theorem Rest.drop (h : Rest l i r) : l.drop i.toNat = r := by
  obtain ⟨p, rfl, rfl⟩ := h
  simp

theorem Rest.append (h : Rest l i (b ++ r)) : Rest l (i + b.length) r := by
  obtain ⟨p, rfl, rfl⟩ := h
  exact ⟨p ++ b, by rw [List.append_assoc], by simp⟩

theorem Rest.word {m : ℕ} (h : Rest l i (ofNat 4 m ++ r)) : Rest l (i + 4) r := by
  simpa using h.append

theorem slice_append (h : Rest l i (b ++ r)) (hn : n = b.length) : slice l i n = some b := by
  have h1 := h.length
  have h2 := h.nonneg
  rw [List.length_append] at h1
  push_cast at h1
  rw [slice, if_pos ⟨h2, by omega, by omega⟩, h.drop, hn, Int.toNat_natCast, List.take_left]

theorem slice_some (h : Rest l i r) (hs : slice l i n = some b) :
    (b.length : ℤ) = n ∧ ∃ r', r = b ++ r' := by
  unfold slice at hs
  split at hs
  · rename_i hin
    have h1 := h.length
    rw [h.drop, Option.some.injEq] at hs
    subst hs
    refine ⟨?_, r.drop n.toNat, (List.take_append_drop _ _).symm⟩
    rw [List.length_take, min_eq_left (by omega)]
    omega
  · cases hs

/-- What was read at an offset is there. -/
theorem rest_of_slice (h : slice l i n = some b) : (b.length : ℤ) = n ∧ ∃ r, Rest l i (b ++ r) := by
  unfold slice at h
  split at h
  · rename_i hin
    have h1 : Rest l i (l.drop i.toNat) := ⟨l.take i.toNat, (List.take_append_drop _ _).symm, by
      rw [List.length_take]
      omega⟩
    obtain ⟨h2, r, h3⟩ := slice_some (b := b) (n := n) h1 (by rw [slice, if_pos hin, h])
    exact ⟨h2, r, h3 ▸ h1⟩
  · cases h

/-- There is a number wherever there are four bytes. -/
theorem word_of_le (h0 : 0 ≤ i) (h : i + 4 ≤ l.length) : ∃ m, word l i = some m := by
  rw [word, slice, if_pos ⟨h0, by decide, h⟩]
  exact ⟨_, rfl⟩

theorem word_append {m : ℕ} (h : Rest l i (ofNat 4 m ++ r)) (hm : m < 2 ^ 32) :
    word l i = some m := by
  rw [word, slice_append h (by simp), Option.map_some, value_ofNat,
    show 256 ^ 4 = 2 ^ 32 from rfl, Nat.mod_eq_of_lt hm]

theorem word_some {m : ℕ} (h : Rest l i r) (hw : word l i = some m) :
    m < 2 ^ 32 ∧ ∃ r', r = ofNat 4 m ++ r' := by
  obtain ⟨b, hb, rfl⟩ := Option.map_eq_some_iff.mp hw
  obtain ⟨h1, r', h2⟩ := slice_some h hb
  have h3 : b.length = 4 := by omega
  have h4 := value_lt b
  rw [h3] at h4
  refine ⟨h4, r', ?_⟩
  have h5 := ofNat_value b
  rw [h3] at h5
  rw [h5, h2]

end Rest

end Bytes
end Kiss
