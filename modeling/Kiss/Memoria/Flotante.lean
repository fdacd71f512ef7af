/-
# Quotients in floating point

The quotient of two integers rounded up, when it is computed with mantissas of `p`
bits. The rounding is exact on the integers below `2 ^ p` and moves a number by less
than one part in `2 ^ p`, which never carries a quotient of such integers to or over
an integer: there the quotient rounded up is the exact one (`ceilDiv_eq`). Above
`2 ^ p` it need not be, but it is never far above the dividend (`ceilDiv_le`).

Key definitions: `redondear`, `ceilDiv`.
-/
import Mathlib.Data.Int.Log
import Mathlib.Data.Rat.Floor
import Mathlib.Algebra.Order.Floor.Ring
import Mathlib.Tactic.FieldSimp
import Mathlib.Tactic.Linarith
import Mathlib.Tactic.Positivity

namespace Kiss
namespace Flotante

/-- The nearest number with a mantissa of `p` bits; a tie goes to the even one. -/
def redondear (p : ℕ) (q : ℚ) : ℚ :=
  let ulp : ℚ := 2 ^ (Int.log 2 q + 1 - p)
  let x := q / ulp
  (if Int.fract x < 1 / 2 ∨ (Int.fract x = 1 / 2 ∧ ⌊x⌋ % 2 = 0) then (⌊x⌋ : ℚ) else ⌊x⌋ + 1) * ulp

/-- `ceil` of the quotient of `a` and `b`, both converted first. -/
def ceilDiv (p a b : ℕ) : ℕ := ⌈redondear p (redondear p a / redondear p b)⌉₊

/-- A rounding is off by half a unit at most. -/
theorem abs_redondear_sub (p : ℕ) (q : ℚ) :
    |redondear p q - q| ≤ 2 ^ (Int.log 2 q + 1 - p) / 2 := by
  unfold redondear
  set u : ℚ := 2 ^ (Int.log 2 q + 1 - p) with hu
  have hpos : 0 < u := zpow_pos (by norm_num) _
  have hq : q = (q / u) * u := by field_simp
  have hx := Int.floor_add_fract (q / u)
  have h0 := Int.fract_nonneg (q / u)
  have h1 := Int.fract_lt_one (q / u)
  simp only
  generalize q / u = x at *
  generalize (⌊x⌋ : ℚ) = f at *
  generalize Int.fract x = r at *
  obtain rfl : f + r = x := hx
  rw [hq]
  split_ifs with h
  · have hr : r ≤ 1 / 2 := by
      rcases h with h | h
      · exact h.le
      · exact h.1.le
    rw [show f * u - (f + r) * u = -(r * u) by ring, abs_neg, abs_of_nonneg (by positivity)]
    nlinarith
  · have hr : 1 / 2 ≤ r := by
      by_contra hr
      exact h (Or.inl (lt_of_not_ge hr))
    rw [show (f + 1) * u - (f + r) * u = (1 - r) * u by ring,
      abs_of_nonneg (mul_nonneg (by linarith) hpos.le)]
    nlinarith

/-- It moves a positive number by one part in `2 ^ p` at most. -/
theorem abs_redondear_sub_le (p : ℕ) {q : ℚ} (hq : 0 < q) : |redondear p q - q| ≤ q / 2 ^ p := by
  refine (abs_redondear_sub p q).trans ?_
  have h1 : (2 : ℚ) ^ Int.log 2 q ≤ q := Int.zpow_log_le_self (by norm_num) hq
  calc (2 : ℚ) ^ (Int.log 2 q + 1 - p) / 2 = 2 ^ Int.log 2 q / 2 ^ p := by
        rw [zpow_sub₀ (by norm_num), zpow_add₀ (by norm_num), zpow_natCast]
        ring
    _ ≤ q / 2 ^ p := by gcongr

/-- The integers below `2 ^ p` are exact. -/
theorem redondear_natCast {p n : ℕ} (h : n < 2 ^ p) : redondear p n = n := by
  rcases Nat.eq_zero_or_pos n with rfl | hn
  · simp [redondear]
  have h1 := Nat.log_lt_of_lt_pow hn.ne' h
  have hk : Int.log 2 (n : ℚ) + 1 - p = -((p - 1 - Nat.log 2 n : ℕ) : ℤ) := by
    rw [Int.log_natCast]
    omega
  have hx : (n : ℚ) / 2 ^ (-((p - 1 - Nat.log 2 n : ℕ) : ℤ)) =
      ((n * 2 ^ (p - 1 - Nat.log 2 n) : ℕ) : ℚ) := by
    push_cast
    rw [zpow_neg, zpow_natCast, div_inv_eq_mul]
  unfold redondear
  simp only [hk]
  rw [hx, Int.fract_natCast, Int.floor_natCast, if_pos (Or.inl (by norm_num)), Int.cast_natCast, ← hx,
    div_mul_cancel₀ _ (zpow_ne_zero _ (by norm_num))]

/-- A number closer to `a / b` than `1 / b` is the same rounded up, unless `b` divides `a`. -/
theorem ceil_of_close {a b : ℕ} {x : ℚ} (hb : 0 < b) (hd : ¬ b ∣ a) (h : |x - a / b| < 1 / b) :
    ⌈x⌉₊ = (a + b - 1) / b := by
  have hq : (0 : ℚ) < b := by exact_mod_cast hb
  set k := a / b with hk
  have hr : a % b ≠ 0 := fun h => hd (Nat.dvd_of_mod_eq_zero h)
  have hlt := Nat.mod_lt a hb
  have hdiv := Nat.div_add_mod a b
  rw [← hk] at hdiv
  have hn : (a + b - 1) / b = k + 1 := by
    rw [← hdiv, show b * k + a % b + b - 1 = a % b - 1 + b * (k + 1) by
      rw [Nat.mul_succ]; omega, Nat.add_mul_div_left _ _ hb, Nat.div_eq_of_lt (by omega), Nat.zero_add]
  obtain ⟨h1, h2⟩ := abs_lt.mp h
  have h3 : (k : ℚ) + 1 / b ≤ a / b := by
    rw [le_div_iff₀ hq, add_mul, div_mul_cancel₀ _ hq.ne']
    have : k * b + 1 ≤ a := by
      rw [Nat.mul_comm]
      omega
    exact_mod_cast this
  have h4 : (a / b : ℚ) + 1 / b ≤ k + 1 := by
    rw [← add_div, div_le_iff₀ hq]
    have : a + 1 ≤ (k + 1) * b := by
      rw [Nat.succ_mul, Nat.mul_comm]
      omega
    exact_mod_cast this
  rw [hn, Nat.ceil_eq_iff (Nat.succ_ne_zero k)]
  push_cast
  constructor <;> linarith

/-- **Below `2 ^ p` the quotient rounded up is exact.** -/
theorem ceilDiv_eq {p a b : ℕ} (ha : a < 2 ^ p) (hb : b < 2 ^ p) (hb0 : 0 < b) :
    ceilDiv p a b = (a + b - 1) / b := by
  rw [ceilDiv, redondear_natCast ha, redondear_natCast hb]
  by_cases hd : b ∣ a
  · obtain ⟨k, rfl⟩ := hd
    have hk : k < 2 ^ p := lt_of_le_of_lt (Nat.le_mul_of_pos_left k hb0) ha
    have hq : (b : ℚ) ≠ 0 := by exact_mod_cast hb0.ne'
    have h1 : ((b * k : ℕ) : ℚ) / b = k := by
      push_cast
      rw [mul_div_cancel_left₀ _ hq]
    rw [h1, redondear_natCast hk, Nat.ceil_natCast, show b * k + b - 1 = b - 1 + b * k by omega,
      Nat.add_mul_div_left _ _ hb0, Nat.div_eq_of_lt (by omega), Nat.zero_add]
  · apply ceil_of_close hb0 hd
    have ha0 : 0 < a := Nat.pos_of_ne_zero fun h => hd (h ▸ dvd_zero b)
    have hqa : (0 : ℚ) < a := by exact_mod_cast ha0
    have hqb : (0 : ℚ) < b := by exact_mod_cast hb0
    have hap : (a : ℚ) < 2 ^ p := by exact_mod_cast ha
    calc |redondear p (a / b) - a / b| ≤ a / b / 2 ^ p := abs_redondear_sub_le p (by positivity)
      _ = a / 2 ^ p / b := by ring
      _ < 1 / b := by
        gcongr
        rw [div_lt_one (by positivity)]
        exact hap

/-- A quotient rounded up is never far above its dividend. -/
theorem ceilDiv_le {p a b : ℕ} (hp : 5 ≤ p) (hb : 0 < b) : 8 * ceilDiv p a b ≤ 9 * a + 8 := by
  rcases Nat.eq_zero_or_pos a with rfl | ha
  · simp [ceilDiv, redondear]
  have hqa : (0 : ℚ) < a := by exact_mod_cast ha
  have hqb : (1 : ℚ) ≤ b := by exact_mod_cast hb
  have hpow : (2 : ℚ) ^ 5 ≤ 2 ^ p := pow_le_pow_right₀ (by norm_num) hp
  have hcerca : ∀ {q : ℚ}, 0 < q → 31 / 32 * q ≤ redondear p q ∧ redondear p q ≤ 33 / 32 * q := fun {q} hq => by
    have h1 : q / 2 ^ p ≤ q / 32 := by
      gcongr
      linarith
    obtain ⟨h2, h3⟩ := abs_le.mp ((abs_redondear_sub_le p hq).trans h1)
    constructor <;> linarith
  obtain ⟨-, h1⟩ := hcerca hqa
  obtain ⟨h2, -⟩ := hcerca (by linarith : (0 : ℚ) < b)
  have hpos : (0 : ℚ) < redondear p b := by linarith
  have h0 : (0 : ℚ) < redondear p a := by linarith [(hcerca hqa).1]
  have h3 : redondear p a / redondear p b ≤ 33 / 31 * a := by
    rw [div_le_iff₀ hpos]
    nlinarith
  have h4 : redondear p (redondear p a / redondear p b) ≤ 9 / 8 * a := by
    linarith [(hcerca (div_pos h0 hpos)).2]
  have h5 : (ceilDiv p a b : ℚ) < 9 / 8 * a + 1 := by
    refine (Nat.ceil_lt_add_one ?_).trans_le (by linarith)
    linarith [(hcerca (div_pos h0 hpos)).1, div_pos h0 hpos]
  have h6 : ((8 * ceilDiv p a b : ℕ) : ℚ) < ((9 * a + 8 : ℕ) : ℚ) := by
    push_cast
    linarith
  exact (by exact_mod_cast h6 : 8 * ceilDiv p a b < 9 * a + 8).le

end Flotante
end Kiss
