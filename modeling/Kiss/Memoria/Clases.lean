/-
# The page that CLOCK-M takes

The two searches of CLOCK-M, taken together: the page is the first one of the best class,
from the hand on, in the order (not in use, not modified), (not in use, modified), (in
use, not modified), (in use, modified), and the bits of use that are cleared depend on
the class alone (`clockM_eq`).

Key definitions: `pos`, `limpiarHasta`, `clase`.
Key theorems: `vuelta_encuentra`, `vuelta_no`, `clockM_eq`.
-/
import Mathlib.Data.Nat.Find
import Mathlib.Data.Nat.ModEq
import Mathlib.Data.Finset.Max
import Mathlib.Data.Finset.Range
import Kiss.Memoria.Reloj

namespace Kiss
namespace Reloj

variable {σ : Type*} {P : Paginas σ} {m : ℕ} {s s' : σ} {i : ℕ}

/-- The `l`-th position from `i` on. -/
def pos (m i l : ℕ) : ℕ := (i + l) % m

theorem pos_zero (hi : i < m) : pos m i 0 = i := Nat.mod_eq_of_lt hi

theorem pos_succ (hi : i < m) (l : ℕ) : pos m i (l + 1) = pos m (avanzar m i) l := by
  rw [pos, pos, avanzar_eq hi, Nat.mod_add_mod]
  congr 1
  omega

theorem pos_lt (hi : i < m) (l : ℕ) : pos m i l < m := Nat.mod_lt _ (by omega)

/-- Different positions, in one turn. -/
theorem pos_inj {l k : ℕ} (hl : l < m) (hk : k < m) (h : pos m i l = pos m i k) : l = k := by
  unfold pos at h
  have h1 : l ≡ k [MOD m] := Nat.ModEq.add_left_cancel' i h
  rwa [Nat.ModEq, Nat.mod_eq_of_lt hl, Nat.mod_eq_of_lt hk] at h1

/-- The bits of use of the first `n` pages from `i` on are cleared. -/
def limpiarHasta (P : Paginas σ) (m : ℕ) : ℕ → σ → ℕ → σ
  | 0, s, _ => s
  | n + 1, s, i => limpiarHasta P m n (P.limpiar s i) (avanzar m i)

theorem leer_limpiarHasta (hP : P.Legal) : ∀ (n : ℕ) {s : σ} {i : ℕ} (_ : i < m) (j : ℕ),
    P.leer (limpiarHasta P m n s i) j =
      if ∃ l < n, j = pos m i l then (P.leer s j).map (fun x => (false, x.2)) else P.leer s j
  | 0, s, i, _, j => by
    rw [if_neg]
    · rfl
    · rintro ⟨l, hl, -⟩
      exact Nat.not_lt_zero l hl
  | n + 1, s, i, hi, j => by
    rw [limpiarHasta, leer_limpiarHasta hP n (avanzar_lt hi), hP]
    have h1 : (∃ l < n + 1, j = pos m i l) ↔ j = i ∨ ∃ l < n, j = pos m (avanzar m i) l := by
      constructor
      · rintro ⟨l, hl, rfl⟩
        cases l with
        | zero => exact Or.inl (pos_zero hi)
        | succ l => exact Or.inr ⟨l, by omega, pos_succ hi l⟩
      · rintro (rfl | ⟨l, hl, rfl⟩)
        · exact ⟨0, by omega, (pos_zero hi).symm⟩
        · exact ⟨l + 1, by omega, (pos_succ hi l).symm⟩
    simp only [h1]
    by_cases h2 : j = i
    · by_cases h3 : ∃ l < n, j = pos m (avanzar m i) l
      · rw [if_pos h3, if_pos h2, if_pos (Or.inl h2), Option.map_map]
        rfl
      · rw [if_neg h3, if_pos h2, if_pos (Or.inl h2)]
    · by_cases h3 : ∃ l < n, j = pos m (avanzar m i) l
      · rw [if_pos h3, if_neg h2, if_pos (Or.inr h3)]
      · rw [if_neg h3, if_neg h2, if_neg (by simp [h2, h3])]

/-- Clearing a page does not touch those ahead in the same turn. -/
theorem leer_limpiar_pos (hP : P.Legal) (hi : i < m) {l : ℕ} (hl : l + 1 < m) :
    P.leer (P.limpiar s i) (pos m (avanzar m i) l) = P.leer s (pos m i (l + 1)) := by
  rw [← pos_succ hi, hP, if_neg]
  intro h
  have h1 := pos_inj (k := 0) hl (by omega) (h.trans (pos_zero hi).symm)
  omega

/-- A search stops at the first page that it looks for. -/
theorem vuelta_encuentra (hP : P.Legal) (b : Bool) : ∀ {n l : ℕ} {s : σ} {i : ℕ}, P.Lleno m s → i < m →
    l < n → l < m → P.leer s (pos m i l) = some (false, b) →
    (∀ k < l, P.leer s (pos m i k) ≠ some (false, b)) →
    vuelta P m b n s i = some (true, if b then limpiarHasta P m l s i else s, pos m i l)
  | n + 1, 0, s, i, _, hi, _, _, h, _ => by
    rw [pos_zero hi] at h
    rw [vuelta_primera (by omega) h, pos_zero hi]
    cases b <;> rfl
  | n + 1, l + 1, s, i, hs, hi, hl, hlm, h, hne => by
    unfold vuelta
    obtain ⟨⟨uso, modificado⟩, hr⟩ := Option.isSome_iff_exists.mp (hs i hi)
    have h0 := hne 0 (by omega)
    rw [pos_zero hi, hr] at h0
    have hb : ¬ (uso = false ∧ modificado = b) := fun hb => h0 (by rw [hb.1, hb.2])
    simp only [hr, if_neg hb]
    cases b
    · rw [if_neg Bool.false_ne_true, if_neg Bool.false_ne_true, pos_succ hi]
      refine vuelta_encuentra hP false hs (avanzar_lt hi) (by omega) (by omega) ?_ fun k hk => ?_
      · rw [← pos_succ hi, h]
      · rw [← pos_succ hi]
        exact hne (k + 1) (by omega)
    · rw [if_pos rfl, if_pos rfl, pos_succ hi, limpiarHasta]
      refine vuelta_encuentra hP true (lleno_limpiar hP hs i) (avanzar_lt hi) (by omega) (by omega) ?_
        fun k hk => ?_
      · rw [leer_limpiar_pos hP hi hlm, h]
      · rw [leer_limpiar_pos hP hi (by omega)]
        exact hne (k + 1) (by omega)

/-- A search that finds nothing goes over all of them. -/
theorem vuelta_no (hP : P.Legal) (b : Bool) : ∀ {n : ℕ} {s : σ} {i : ℕ}, P.Lleno m s → i < m → n ≤ m →
    (∀ k < n, P.leer s (pos m i k) ≠ some (false, b)) →
    vuelta P m b n s i = some (false, if b then limpiarHasta P m n s i else s, pos m i n)
  | 0, s, i, _, hi, _, _ => by
    rw [pos_zero hi]
    cases b <;> rfl
  | n + 1, s, i, hs, hi, hn, hne => by
    unfold vuelta
    obtain ⟨⟨uso, modificado⟩, hr⟩ := Option.isSome_iff_exists.mp (hs i hi)
    have h0 := hne 0 (by omega)
    rw [pos_zero hi, hr] at h0
    have hb : ¬ (uso = false ∧ modificado = b) := fun hb => h0 (by rw [hb.1, hb.2])
    simp only [hr, if_neg hb]
    cases b
    · rw [if_neg Bool.false_ne_true, if_neg Bool.false_ne_true, pos_succ hi]
      refine vuelta_no hP false hs (avanzar_lt hi) (by omega) fun k hk => ?_
      rw [← pos_succ hi]
      exact hne (k + 1) (by omega)
    · rw [if_pos rfl, if_pos rfl, pos_succ hi, limpiarHasta]
      refine vuelta_no hP true (lleno_limpiar hP hs i) (avanzar_lt hi) (by omega) fun k hk => ?_
      rw [leer_limpiar_pos hP hi (by omega)]
      exact hne (k + 1) (by omega)

/-! ### Classes -/

/-- The class of a page by its bits of use and of modification; the first is the best. -/
def clase (x : Bool × Bool) : ℕ := 2 * x.1.toNat + x.2.toNat

/-- The class of the page at a position. -/
def claseEn (P : Paginas σ) (s : σ) (j : ℕ) : ℕ := ((P.leer s j).map clase).getD 4

/-- `k` is the first of the places where `f` is least. -/
structure Primero (m : ℕ) (f : ℕ → ℕ) (k : ℕ) : Prop where
  lt : k < m
  menor : ∀ l < m, f k ≤ f l
  primero : ∀ l < k, f k < f l

theorem exists_primero (hm : 0 < m) (f : ℕ → ℕ) : ∃ k, Primero m f k := by
  have h1 : ∃ k, k < m ∧ ∀ l < m, f k ≤ f l := by
    obtain ⟨k, hk, h⟩ := Finset.exists_min_image (Finset.range m) f ⟨0, Finset.mem_range.mpr hm⟩
    exact ⟨k, Finset.mem_range.mp hk, fun l hl => h l (Finset.mem_range.mpr hl)⟩
  classical
  refine ⟨Nat.find h1, (Nat.find_spec h1).1, (Nat.find_spec h1).2, fun l hl => ?_⟩
  have h2 := (Nat.find_spec h1).1
  have h3 := Nat.find_min h1 hl
  by_contra hle
  exact h3 ⟨hl.trans h2, fun l' hl' => (not_lt.mp hle).trans ((Nat.find_spec h1).2 l' hl')⟩

theorem claseEn_of_leer {j : ℕ} {x : Bool × Bool} (h : P.leer s j = some x) : claseEn P s j = clase x := by
  rw [claseEn, h]
  rfl

theorem pos_vuelta (hi : i < m) : pos m i m = i := by
  rw [pos, Nat.add_mod_right, Nat.mod_eq_of_lt hi]

/-- Every page is one of those of a turn. -/
theorem exists_pos (hi : i < m) {j : ℕ} (hj : j < m) : ∃ l < m, j = pos m i l := by
  by_cases h : i ≤ j
  · refine ⟨j - i, by omega, ?_⟩
    rw [pos, Nat.add_sub_cancel' h, Nat.mod_eq_of_lt hj]
  · refine ⟨j + m - i, by omega, ?_⟩
    rw [pos, show i + (j + m - i) = j + m by omega, Nat.add_mod_right, Nat.mod_eq_of_lt hj]

theorem lleno_limpiarHasta (hP : P.Legal) (hs : P.Lleno m s) (hi : i < m) (n : ℕ) :
    P.Lleno m (limpiarHasta P m n s i) := by
  intro j hj
  rw [leer_limpiarHasta hP n hi]
  split_ifs
  · rw [Option.isSome_map]
    exact hs j hj
  · exact hs j hj

/-- After a turn that clears, a page has the bit of modification that it had. -/
theorem leer_limpiada (hP : P.Legal) (hi : i < m) {j : ℕ} (hj : j < m) {uso b : Bool}
    (h : P.leer s j = some (uso, b)) : P.leer (limpiarHasta P m m s i) j = some (false, b) := by
  rw [leer_limpiarHasta hP m hi, if_pos (exists_pos hi hj), h]
  rfl

/-- The pages that CLOCK-M clears, by the class of the one it takes. -/
def limpias (m k : ℕ) : ℕ → ℕ
  | 0 => 0
  | 1 => k
  | _ => m

/-- **The page that CLOCK-M takes** is the first of the best class from the hand on. -/
theorem clockM_eq (hP : P.Legal) (hs : P.Lleno m s) (hi : i < m) {k : ℕ}
    (hk : Primero m (fun l => claseEn P s (pos m i l)) k) :
    clockM P m 2 s i =
      some (limpiarHasta P m (limpias m k (claseEn P s (pos m i k))) s i, pos m i k) := by
  obtain ⟨hkm, hmin, hpri⟩ := hk
  have hsome : ∀ l, (P.leer s (pos m i l)).isSome := fun l => hs _ (pos_lt hi l)
  -- a page of a class is found by its class
  have hne : ∀ {l x}, clase x ≠ claseEn P s (pos m i l) → P.leer s (pos m i l) ≠ some x := fun {l x} h h1 =>
    h (claseEn_of_leer h1).symm
  obtain ⟨⟨uso, mod⟩, hx⟩ := Option.isSome_iff_exists.mp (hsome k)
  have hc := claseEn_of_leer hx
  rw [hc] at hmin hpri ⊢
  have hfalta : ∀ x, clase x < clase (uso, mod) → ∀ l < m, P.leer s (pos m i l) ≠ some x :=
    fun x hx l hl => hne (hx.trans_le (hmin l hl)).ne
  have hantes : ∀ l < k, P.leer s (pos m i l) ≠ some (uso, mod) := fun l hl => hne (hpri l hl).ne
  unfold clockM
  cases uso
  · cases mod
    · rw [vuelta_encuentra hP false hs hi hkm hkm hx hantes]
      rfl
    · rw [vuelta_no hP false hs hi le_rfl (hfalta _ (by decide))]
      simp only [pos_vuelta hi, Bool.false_eq_true, if_false]
      rw [vuelta_encuentra hP true hs hi hkm hkm hx hantes]
      rfl
  · -- every page is in use: the first turn that clears finds none
    rw [vuelta_no hP false hs hi le_rfl (hfalta _ (by cases mod <;> decide))]
    simp only [pos_vuelta hi, Bool.false_eq_true, if_false]
    rw [vuelta_no hP true hs hi le_rfl (hfalta _ (by cases mod <;> decide))]
    simp only [pos_vuelta hi, if_true]
    have hs2 := lleno_limpiarHasta hP hs hi m
    have hlimpia : ∀ l < m, ∀ b, P.leer s (pos m i l) = some (true, b) →
        P.leer (limpiarHasta P m m s i) (pos m i l) = some (false, b) := fun l _ b h =>
      leer_limpiada hP hi (pos_lt hi l) h
    have huso : ∀ l < m, ∃ b, P.leer s (pos m i l) = some (true, b) := fun l hl => by
      obtain ⟨⟨u, b⟩, hb⟩ := Option.isSome_iff_exists.mp (hsome l)
      refine ⟨b, ?_⟩
      cases u
      · exact absurd hb (hfalta _ (by cases b <;> cases mod <;> decide) l hl)
      · exact hb
    unfold clockM
    cases mod
    · rw [vuelta_encuentra hP false hs2 hi hkm hkm (hlimpia k hkm _ hx) fun l hl => ?_]
      · rfl
      · obtain ⟨b, hb⟩ := huso l (hl.trans hkm)
        rw [hlimpia l (hl.trans hkm) b hb]
        rintro h
        have hb0 : b = false := (Prod.mk.inj (Option.some.inj h)).2
        exact hantes l hl (hb0 ▸ hb)
    · -- no page is clean: the first one from the hand
      have hsucia : ∀ l < m, P.leer s (pos m i l) = some (true, true) := fun l hl => by
        obtain ⟨b, hb⟩ := huso l hl
        cases b
        · exact absurd hb (hfalta _ (by decide) l hl)
        · exact hb
      have hk0 : k = 0 := by
        by_contra h
        exact hantes 0 (Nat.pos_of_ne_zero h) (hsucia 0 (by omega))
      rw [vuelta_no hP false hs2 hi le_rfl fun l hl => by
        rw [hlimpia l hl _ (hsucia l hl)]
        intro h
        cases h]
      simp only [pos_vuelta hi, Bool.false_eq_true, if_false]
      rw [vuelta_encuentra hP true hs2 hi hkm hkm (hlimpia k hkm _ hx) fun l hl => by omega, hk0]
      rfl

end Reloj
end Kiss
