/-
# The clock algorithms

A hand goes round the `m` pages of a process and stops at the one to replace. The
pages are in a store that only gives their two bits and clears the bit of use, so
the algorithms run alike over a list of pages and over tables that are reached
through pointers: they keep any relation between two stores that reading and
clearing keep (`clock_rel`, `clockM_rel`). With a page at every position they stop
(`clock_isSome`, `clockM_isSome`), at a page that is not in use (`clock_leer`,
`clockM_leer`), and more fuel changes nothing (`clock_mono`, `clockM_mono`).

Key definitions: `Paginas`, `avanzar`, `clock`, `vuelta`, `clockM`.
-/
import Mathlib.Data.Option.Basic
import Mathlib.Logic.Function.Iterate
import Mathlib.Tactic.Common

namespace Kiss
namespace Reloj

/-- What a store of type `σ` gives of the page at a position: the bits of use and of
modification, and the store with the bit of use cleared. -/
structure Paginas (σ : Type*) where
  leer : σ → ℕ → Option (Bool × Bool)
  limpiar : σ → ℕ → σ

/-- The position after `i`. -/
def avanzar (m i : ℕ) : ℕ := if i + 1 = m then 0 else i + 1

section Algoritmos

variable {σ : Type*} (P : Paginas σ) (m : ℕ)

/-- The first page that is not in use; the bits of use before it are cleared. -/
def clock : ℕ → σ → ℕ → Option (σ × ℕ)
  | 0, _, _ => none
  | n + 1, s, i =>
    match P.leer s i with
    | none => none
    | some (uso, _) => if uso then clock n (P.limpiar s i) (avanzar m i) else some (s, i)

/-- One of the two searches of CLOCK-M over `n` positions: the first page that is not in
use and whose bit of modification is `b`, and whether there is one. The search for a
modified page clears the bits of use. -/
def vuelta (b : Bool) : ℕ → σ → ℕ → Option (Bool × σ × ℕ)
  | 0, s, i => some (false, s, i)
  | n + 1, s, i =>
    match P.leer s i with
    | none => none
    | some (uso, modificado) =>
      if uso = false ∧ modificado = b then some (true, s, i)
      else vuelta b n (if b then P.limpiar s i else s) (avanzar m i)

/-- The two searches in turn. -/
def clockM : ℕ → σ → ℕ → Option (σ × ℕ)
  | 0, _, _ => none
  | n + 1, s, i =>
    match vuelta P m false m s i with
    | none => none
    | some (true, r) => some r
    | some (false, s1, j) =>
      match vuelta P m true m s1 j with
      | none => none
      | some (true, r) => some r
      | some (false, s2, k) => clockM n s2 k

end Algoritmos

/-! ### Positions -/

theorem avanzar_lt {m i : ℕ} (h : i < m) : avanzar m i < m := by
  unfold avanzar
  split_ifs <;> omega

theorem avanzar_eq {m i : ℕ} (h : i < m) : avanzar m i = (i + 1) % m := by
  unfold avanzar
  by_cases h1 : i + 1 = m
  · rw [if_pos h1, h1, Nat.mod_self]
  · rw [if_neg h1, Nat.mod_eq_of_lt (by omega)]

theorem avanzar_iterate {m i : ℕ} (h : i < m) : ∀ k, (avanzar m)^[k] i = (i + k) % m
  | 0 => (Nat.mod_eq_of_lt h).symm
  | k + 1 => by
    rw [Function.iterate_succ_apply', avanzar_iterate h k, avanzar_eq (Nat.mod_lt _ (by omega)),
      Nat.mod_add_mod, Nat.add_assoc]

/-- After `m` positions the hand is where it was. -/
theorem avanzar_vuelta {m i : ℕ} (h : i < m) : (avanzar m)^[m] i = i := by
  rw [avanzar_iterate h, Nat.add_mod_right, Nat.mod_eq_of_lt h]

/-! ### Two stores -/

section Rel

variable {σ τ : Type*} {P : Paginas σ} {Q : Paginas τ} {R : σ → τ → Prop}

/-- `R` relates stores with the same bits, and clearing one keeps it. -/
structure Concuerdan (P : Paginas σ) (Q : Paginas τ) (R : σ → τ → Prop) : Prop where
  leer : ∀ {s a}, R s a → ∀ i, P.leer s i = Q.leer a i
  limpiar : ∀ {s a}, R s a → ∀ i, (Q.leer a i).isSome → R (P.limpiar s i) (Q.limpiar a i)

theorem clock_rel (h : Concuerdan P Q R) (m : ℕ) : ∀ (n : ℕ) {s : σ} {a : τ} (i : ℕ), R s a →
    Option.Rel (fun x y => R x.1 y.1 ∧ x.2 = y.2) (clock P m n s i) (clock Q m n a i)
  | 0, _, _, _, _ => Option.Rel.none
  | n + 1, s, a, i, hr => by
    unfold clock
    rw [h.leer hr]
    rcases hl : Q.leer a i with _ | ⟨uso, modificado⟩
    · exact Option.Rel.none
    · cases uso
      · exact Option.Rel.some ⟨hr, rfl⟩
      · exact clock_rel h m n _ (h.limpiar hr i (by rw [hl]; rfl))

theorem vuelta_rel (h : Concuerdan P Q R) (m : ℕ) (b : Bool) : ∀ (n : ℕ) {s : σ} {a : τ} (i : ℕ),
    R s a → Option.Rel (fun x y => x.1 = y.1 ∧ R x.2.1 y.2.1 ∧ x.2.2 = y.2.2)
      (vuelta P m b n s i) (vuelta Q m b n a i)
  | 0, _, _, _, hr => Option.Rel.some ⟨rfl, hr, rfl⟩
  | n + 1, s, a, i, hr => by
    unfold vuelta
    rw [h.leer hr]
    rcases hl : Q.leer a i with _ | ⟨uso, modificado⟩
    · exact Option.Rel.none
    · by_cases hb : uso = false ∧ modificado = b
      · simp only [if_pos hb]
        exact Option.Rel.some ⟨rfl, hr, rfl⟩
      · simp only [if_neg hb]
        apply vuelta_rel h m b n
        cases b
        · exact hr
        · exact h.limpiar hr i (by rw [hl]; rfl)

theorem clockM_rel (h : Concuerdan P Q R) (m : ℕ) : ∀ (n : ℕ) {s : σ} {a : τ} (i : ℕ), R s a →
    Option.Rel (fun x y => R x.1 y.1 ∧ x.2 = y.2) (clockM P m n s i) (clockM Q m n a i)
  | 0, _, _, _, _ => Option.Rel.none
  | n + 1, s, a, i, hr => by
    unfold clockM
    have h1 := vuelta_rel h m false m i hr
    revert h1
    generalize vuelta P m false m s i = x
    generalize vuelta Q m false m a i = y
    rintro (⟨h1, h2⟩ | _)
    · rename_i x y
      obtain ⟨b, s1, j⟩ := x
      obtain ⟨b', a1, j'⟩ := y
      obtain ⟨rfl, rfl⟩ : b = b' ∧ j = j' := ⟨h1, h2.2⟩
      cases b
      · have h3 := vuelta_rel h m true m j h2.1
        dsimp only at h3 ⊢
        revert h3
        generalize vuelta P m true m s1 j = x
        generalize vuelta Q m true m a1 j = y
        rintro (⟨h3, h4⟩ | _)
        · rename_i x y
          obtain ⟨b, s2, k⟩ := x
          obtain ⟨b', a2, k'⟩ := y
          obtain ⟨rfl, rfl⟩ : b = b' ∧ k = k' := ⟨h3, h4.2⟩
          cases b
          · exact clockM_rel h m n k h4.1
          · exact Option.Rel.some h4
        · exact Option.Rel.none
      · exact Option.Rel.some h2
    · exact Option.Rel.none

/-- What clearing keeps, the algorithms keep. -/
theorem clock_inv {I : σ → Prop} (h : ∀ {s}, I s → ∀ i, I (P.limpiar s i)) {m n : ℕ} {s s' : σ} {i j : ℕ}
    (hs : I s) (hc : clock P m n s i = some (s', j)) : I s' := by
  have h1 : Concuerdan P P fun s a => s = a ∧ I s :=
    ⟨fun hr _ => by rw [hr.1], fun hr i _ => ⟨by rw [hr.1], h hr.2 i⟩⟩
  have h2 := clock_rel h1 m n i ⟨rfl, hs⟩
  rw [hc] at h2
  cases h2 with
  | some h2 => exact h2.1.2

theorem clockM_inv {I : σ → Prop} (h : ∀ {s}, I s → ∀ i, I (P.limpiar s i)) {m n : ℕ} {s s' : σ} {i j : ℕ}
    (hs : I s) (hc : clockM P m n s i = some (s', j)) : I s' := by
  have h1 : Concuerdan P P fun s a => s = a ∧ I s :=
    ⟨fun hr _ => by rw [hr.1], fun hr i _ => ⟨by rw [hr.1], h hr.2 i⟩⟩
  have h2 := clockM_rel h1 m n i ⟨rfl, hs⟩
  rw [hc] at h2
  cases h2 with
  | some h2 => exact h2.1.2

end Rel

/-! ### The page they stop at -/

section Parada

variable {σ : Type*} {P : Paginas σ} {m : ℕ}

theorem clock_leer : ∀ {n : ℕ} {s s' : σ} {i j : ℕ}, clock P m n s i = some (s', j) →
    ∃ b, P.leer s' j = some (false, b)
  | n + 1, s, s', i, j, h => by
    unfold clock at h
    rcases hl : P.leer s i with _ | ⟨uso, modificado⟩
    · simp [hl] at h
    · cases uso
      · simp only [hl, Bool.false_eq_true, if_false, Option.some.injEq, Prod.mk.injEq] at h
        obtain ⟨rfl, rfl⟩ := h
        exact ⟨_, hl⟩
      · simp only [hl, if_true] at h
        exact clock_leer h

theorem clock_lt : ∀ {n : ℕ} {s s' : σ} {i j : ℕ}, i < m → clock P m n s i = some (s', j) → j < m
  | n + 1, s, s', i, j, hi, h => by
    unfold clock at h
    rcases hl : P.leer s i with _ | ⟨uso, modificado⟩
    · simp [hl] at h
    · cases uso
      · simp only [hl, Bool.false_eq_true, if_false, Option.some.injEq, Prod.mk.injEq] at h
        exact h.2 ▸ hi
      · simp only [hl, if_true] at h
        exact clock_lt (avanzar_lt hi) h

theorem clock_mono : ∀ {n n' : ℕ} {s : σ} {i : ℕ} {r : σ × ℕ}, clock P m n s i = some r → n ≤ n' →
    clock P m n' s i = some r
  | n + 1, n' + 1, s, i, r, h, hn => by
    unfold clock at h ⊢
    rcases hl : P.leer s i with _ | ⟨uso, modificado⟩
    · simp [hl] at h
    · cases uso
      · simpa [hl] using h
      · simp only [hl, if_true] at h ⊢
        exact clock_mono h (by omega)

theorem vuelta_leer {b : Bool} : ∀ {n : ℕ} {s s' : σ} {i j : ℕ},
    vuelta P m b n s i = some (true, s', j) → P.leer s' j = some (false, b)
  | n + 1, s, s', i, j, h => by
    unfold vuelta at h
    rcases hl : P.leer s i with _ | ⟨uso, modificado⟩
    · simp [hl] at h
    · by_cases hb : uso = false ∧ modificado = b
      · simp only [hl, if_pos hb, Option.some.injEq, Prod.mk.injEq, true_and] at h
        obtain ⟨rfl, rfl⟩ := h
        rw [hl, hb.1, hb.2]
      · simp only [hl, if_neg hb] at h
        exact vuelta_leer h

theorem vuelta_lt {b : Bool} : ∀ {n : ℕ} {s s' : σ} {i j : ℕ} {r : Bool}, i < m →
    vuelta P m b n s i = some (r, s', j) → j < m
  | 0, s, s', i, j, r, hi, h => by
    simp only [vuelta, Option.some.injEq, Prod.mk.injEq] at h
    exact h.2.2 ▸ hi
  | n + 1, s, s', i, j, r, hi, h => by
    unfold vuelta at h
    rcases hl : P.leer s i with _ | ⟨uso, modificado⟩
    · simp [hl] at h
    · by_cases hb : uso = false ∧ modificado = b
      · simp only [hl, if_pos hb, Option.some.injEq, Prod.mk.injEq] at h
        exact h.2.2 ▸ hi
      · simp only [hl, if_neg hb] at h
        exact vuelta_lt (avanzar_lt hi) h

theorem clockM_leer : ∀ {n : ℕ} {s s' : σ} {i j : ℕ}, clockM P m n s i = some (s', j) →
    ∃ b, P.leer s' j = some (false, b)
  | n + 1, s, s', i, j, h => by
    unfold clockM at h
    rcases h1 : vuelta P m false m s i with _ | ⟨b, s1, k⟩
    · simp [h1] at h
    · cases b
      · simp only [h1] at h
        rcases h2 : vuelta P m true m s1 k with _ | ⟨b, s2, l⟩
        · simp [h2] at h
        · cases b
          · simp only [h2] at h
            exact clockM_leer h
          · simp only [h2, Option.some.injEq, Prod.mk.injEq] at h
            obtain ⟨rfl, rfl⟩ := h
            exact ⟨_, vuelta_leer h2⟩
      · simp only [h1, Option.some.injEq, Prod.mk.injEq] at h
        obtain ⟨rfl, rfl⟩ := h
        exact ⟨_, vuelta_leer h1⟩

theorem clockM_lt : ∀ {n : ℕ} {s s' : σ} {i j : ℕ}, i < m → clockM P m n s i = some (s', j) → j < m
  | n + 1, s, s', i, j, hi, h => by
    unfold clockM at h
    rcases h1 : vuelta P m false m s i with _ | ⟨b, s1, k⟩
    · simp [h1] at h
    · have hk := vuelta_lt hi h1
      cases b
      · simp only [h1] at h
        rcases h2 : vuelta P m true m s1 k with _ | ⟨b, s2, l⟩
        · simp [h2] at h
        · have hl := vuelta_lt hk h2
          cases b
          · simp only [h2] at h
            exact clockM_lt hl h
          · simp only [h2, Option.some.injEq, Prod.mk.injEq] at h
            exact h.2 ▸ hl
      · simp only [h1, Option.some.injEq, Prod.mk.injEq] at h
        exact h.2 ▸ hk

theorem clockM_mono : ∀ {n n' : ℕ} {s : σ} {i : ℕ} {r : σ × ℕ}, clockM P m n s i = some r → n ≤ n' →
    clockM P m n' s i = some r
  | n + 1, n' + 1, s, i, r, h, hn => by
    unfold clockM at h ⊢
    rcases h1 : vuelta P m false m s i with _ | ⟨b, s1, k⟩
    · simp [h1] at h
    · cases b
      · simp only [h1] at h ⊢
        rcases h2 : vuelta P m true m s1 k with _ | ⟨b, s2, l⟩
        · simp [h2] at h
        · cases b
          · simp only [h2] at h ⊢
            exact clockM_mono h (by omega)
          · simpa [h2] using h
      · simpa [h1] using h

end Parada

/-! ### They stop -/

section Termina

variable {σ : Type*} {P : Paginas σ} {m : ℕ} {s : σ} {i : ℕ}

/-- Clearing changes the bit of use of that page only. -/
def Paginas.Legal (P : Paginas σ) : Prop :=
  ∀ s i j, P.leer (P.limpiar s i) j =
    if j = i then (P.leer s j).map (fun x => (false, x.2)) else P.leer s j

/-- There is a page at every position. -/
def Paginas.Lleno (P : Paginas σ) (m : ℕ) (s : σ) : Prop := ∀ i < m, (P.leer s i).isSome

theorem lleno_limpiar (hP : P.Legal) (h : P.Lleno m s) (i : ℕ) : P.Lleno m (P.limpiar s i) := by
  intro j hj
  rw [hP]
  split_ifs
  · rw [Option.isSome_map]
    exact h j hj
  · exact h j hj

/-- A page that is not in use stays so. -/
theorem leer_limpiar_false (hP : P.Legal) {j : ℕ} {b : Bool} (h : P.leer s j = some (false, b)) (i : ℕ) :
    P.leer (P.limpiar s i) j = some (false, b) := by
  rw [hP, h]
  split_ifs <;> rfl

/-- The hand reaches a page that is not in use `l` positions ahead. -/
theorem clock_alcanza (hP : P.Legal) : ∀ {n l : ℕ} {s : σ} {i : ℕ} {b : Bool}, P.Lleno m s → i < m →
    l < n → P.leer s ((avanzar m)^[l] i) = some (false, b) → (clock P m n s i).isSome
  | n + 1, l, s, i, b, hs, hi, hl, hb => by
    unfold clock
    obtain ⟨⟨uso, modificado⟩, h⟩ := Option.isSome_iff_exists.mp (hs i hi)
    cases uso
    · simp [h]
    · simp only [h, if_true]
      cases l with
      | zero =>
        rw [Function.iterate_zero_apply, h] at hb
        cases hb
      | succ l =>
        rw [Function.iterate_succ_apply] at hb
        exact clock_alcanza hP (lleno_limpiar hP hs i) (avanzar_lt hi) (by omega)
          (leer_limpiar_false hP hb i)

/-- After a turn that finds none, the first page is not in use any more. -/
theorem clock_isSome (hP : P.Legal) (hs : P.Lleno m s) (hi : i < m) : (clock P m (m + 1) s i).isSome := by
  obtain ⟨⟨uso, modificado⟩, h⟩ := Option.isSome_iff_exists.mp (hs i hi)
  cases uso
  · simp [clock, h]
  · simp only [clock, h, if_true]
    obtain ⟨k, rfl⟩ : ∃ k, m = k + 1 := ⟨m - 1, by omega⟩
    refine clock_alcanza hP (l := k) (b := modificado) (lleno_limpiar hP hs i) (avanzar_lt hi)
      (by omega) ?_
    rw [← Function.iterate_succ_apply, avanzar_vuelta hi, hP, if_pos rfl, h]
    rfl

/-- A search for a page that is not modified leaves the store as it was. -/
theorem vuelta_false : ∀ {n : ℕ} {s s' : σ} {i j : ℕ} {r : Bool},
    vuelta P m false n s i = some (r, s', j) → s' = s ∧ (r = false → j = (avanzar m)^[n] i)
  | 0, s, s', i, j, r, h => by
    simp only [vuelta, Option.some.injEq, Prod.mk.injEq] at h
    exact ⟨h.2.1.symm, fun _ => h.2.2.symm⟩
  | n + 1, s, s', i, j, r, h => by
    unfold vuelta at h
    rcases hl : P.leer s i with _ | ⟨uso, modificado⟩
    · simp [hl] at h
    · by_cases hb : uso = false ∧ modificado = false
      · simp only [hl, if_pos hb, Option.some.injEq, Prod.mk.injEq] at h
        exact ⟨h.2.1.symm, fun hr => by simp [hr] at h⟩
      · simp only [hl, if_neg hb, Bool.false_eq_true, if_false] at h
        rw [Function.iterate_succ_apply]
        exact vuelta_false h

/-- A search for a modified page that finds none clears the pages it goes over. -/
theorem vuelta_true (hP : P.Legal) : ∀ {n : ℕ} {s s' : σ} {i j : ℕ}, P.Lleno m s → i < m →
    vuelta P m true n s i = some (false, s', j) →
    P.Lleno m s' ∧ j = (avanzar m)^[n] i ∧
      (∀ k b, P.leer s k = some (false, b) → P.leer s' k = some (false, b)) ∧
      ∀ l < n, ∃ b, P.leer s' ((avanzar m)^[l] i) = some (false, b)
  | 0, s, s', i, j, hs, _, h => by
    simp only [vuelta, Option.some.injEq, Prod.mk.injEq, true_and] at h
    obtain ⟨rfl, rfl⟩ := h
    exact ⟨hs, rfl, fun _ _ h => h, fun _ hl => absurd hl (Nat.not_lt_zero _)⟩
  | n + 1, s, s', i, j, hs, hi, h => by
    unfold vuelta at h
    obtain ⟨⟨uso, modificado⟩, hl⟩ := Option.isSome_iff_exists.mp (hs i hi)
    by_cases hb : uso = false ∧ modificado = true
    · simp [hl, hb] at h
    · simp only [hl, if_neg hb, if_true] at h
      obtain ⟨h1, h2, h3, h4⟩ := vuelta_true hP (lleno_limpiar hP hs i) (avanzar_lt hi) h
      refine ⟨h1, by rw [h2, Function.iterate_succ_apply],
        fun k b hk => h3 k b (leer_limpiar_false hP hk i), fun l hln => ?_⟩
      cases l with
      | zero =>
        refine ⟨modificado, h3 i _ ?_⟩
        rw [hP, if_pos rfl, hl]
        rfl
      | succ l =>
        rw [Function.iterate_succ_apply]
        exact h4 l (by omega)

theorem vuelta_isSome (hP : P.Legal) (b : Bool) : ∀ {n : ℕ} {s : σ} {i : ℕ}, P.Lleno m s → i < m →
    (vuelta P m b n s i).isSome
  | 0, _, _, _, _ => rfl
  | n + 1, s, i, hs, hi => by
    unfold vuelta
    obtain ⟨⟨uso, modificado⟩, hl⟩ := Option.isSome_iff_exists.mp (hs i hi)
    by_cases hb : uso = false ∧ modificado = b
    · simp only [hl, if_pos hb, Option.isSome_some]
    · simp only [hl, if_neg hb]
      cases b
      · exact vuelta_isSome hP false hs (avanzar_lt hi)
      · exact vuelta_isSome hP true (lleno_limpiar hP hs i) (avanzar_lt hi)

/-- A search stops at the first page when it is one that it looks for. -/
theorem vuelta_primera {b : Bool} {n : ℕ} (hn : 0 < n) (h : P.leer s i = some (false, b)) :
    vuelta P m b n s i = some (true, s, i) := by
  obtain ⟨k, rfl⟩ : ∃ k, n = k + 1 := ⟨n - 1, by omega⟩
  simp [vuelta, h]

/-- When no page is in use, the two searches find one. -/
theorem clockM_sinUso (hP : P.Legal) {n : ℕ} (hs : P.Lleno m s) (hi : i < m) {b : Bool}
    (h : P.leer s i = some (false, b)) : (clockM P m (n + 1) s i).isSome := by
  unfold clockM
  cases b
  · rw [vuelta_primera (by omega) h]
    rfl
  · obtain ⟨⟨r, s1, j⟩, h1⟩ := Option.isSome_iff_exists.mp (vuelta_isSome hP false (n := m) hs hi)
    obtain ⟨rfl, h2⟩ := vuelta_false h1
    rw [h1]
    cases r
    · obtain rfl : j = i := by rw [h2 rfl, avanzar_vuelta hi]
      simp only [vuelta_primera (n := m) (by omega) h, Option.isSome_some]
    · rfl

/-- The second search clears every page, so the third or the fourth finds one. -/
theorem clockM_isSome (hP : P.Legal) (hs : P.Lleno m s) (hi : i < m) : (clockM P m 2 s i).isSome := by
  obtain ⟨⟨r, s1, j⟩, h1⟩ := Option.isSome_iff_exists.mp (vuelta_isSome hP false (n := m) hs hi)
  obtain ⟨rfl, h2⟩ := vuelta_false h1
  unfold clockM
  rw [h1]
  cases r
  · obtain rfl : j = i := by rw [h2 rfl, avanzar_vuelta hi]
    obtain ⟨⟨r, s2, k⟩, h3⟩ := Option.isSome_iff_exists.mp (vuelta_isSome hP true (n := m) hs hi)
    simp only [h3]
    cases r
    · obtain ⟨h4, h5, -, h6⟩ := vuelta_true hP hs hi h3
      obtain rfl : k = j := by rw [h5, avanzar_vuelta hi]
      obtain ⟨b, hb⟩ := h6 0 (by omega)
      exact clockM_sinUso hP h4 hi hb
    · rfl
  · rfl

end Termina

end Reloj
end Kiss
