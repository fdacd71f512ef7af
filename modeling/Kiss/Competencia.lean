/-
# What another choice would miss

A store with room for `n` pages is asked for one after the other, brings each page that it
does not have, and may be emptied. It is conservative when it misses no page twice while at
most `n` different ones are asked for. Cut the requests where the pages since the last cut
would be more than `n`: from one cut to the next it misses `n` at most, and whoever chooses
otherwise which pages to keep in `h ≤ n` places, even knowing what comes, misses `n - h + 1`
(`fallos_le`).

Key definitions: `Conservador`, `Politica`, `Fases`.
Key theorems: `Conservador.fallos_le_card`, `Politica.fases`, `fallos_le`.
-/
import Mathlib.Data.Finset.Card
import Mathlib.Data.List.Dedup
import Mathlib.Tactic.Ring

namespace Kiss
namespace Competencia

variable {α : Type*}

/-! ### Requests -/

/-- What is seen of a request: the page and whether it was missed; `none` is the store
emptied. -/
abbrev Suceso (α : Type*) := Option (α × Bool)

/-- The page, where it was missed. -/
def Suceso.fallado : Suceso α → Option α
  | some (x, true) => some x
  | _ => none

/-- The pages that were missed, in order. -/
def fallados (tr : List (Suceso α)) : List α := tr.filterMap Suceso.fallado

def fallos (tr : List (Suceso α)) : ℕ := (fallados tr).length

def vaciados (tr : List (Suceso α)) : ℕ := tr.countP Option.isNone

/-- What was asked for. -/
def pedidos (tr : List (Suceso α)) : List (Option α) := tr.map (Option.map Prod.fst)

@[simp] theorem fallados_append (a b : List (Suceso α)) : fallados (a ++ b) = fallados a ++ fallados b :=
  List.filterMap_append

@[simp] theorem fallos_append (a b : List (Suceso α)) : fallos (a ++ b) = fallos a + fallos b := by
  rw [fallos, fallados_append, List.length_append]
  rfl

@[simp] theorem vaciados_append (a b : List (Suceso α)) : vaciados (a ++ b) = vaciados a + vaciados b :=
  List.countP_append

theorem vaciados_eq_zero {b : List (Suceso α)} (h : none ∉ b) : vaciados b = 0 := by
  apply List.countP_eq_zero.mpr
  intro e he hn
  rw [Option.isNone_iff_eq_none] at hn
  exact h (hn ▸ he)

theorem mem_fallados {x : α} {tr : List (Suceso α)} : x ∈ fallados tr ↔ some (x, true) ∈ tr := by
  rw [fallados, List.mem_filterMap]
  constructor
  · rintro ⟨e, he, hx⟩
    rcases e with _ | ⟨y, _ | _⟩
    · cases hx
    · cases hx
    · rw [← Option.some.inj hx]
      exact he
  · exact fun h => ⟨_, h, rfl⟩

variable [DecidableEq α]

/-- The different pages that were asked for. -/
def paginas (tr : List (Suceso α)) : Finset α := (tr.filterMap (Option.map Prod.fst)).toFinset

@[simp] theorem mem_paginas {x : α} {tr : List (Suceso α)} : x ∈ paginas tr ↔ ∃ f, some (x, f) ∈ tr := by
  rw [paginas, List.mem_toFinset, List.mem_filterMap]
  constructor
  · rintro ⟨e, he, hx⟩
    obtain ⟨y, rfl, rfl⟩ := Option.map_eq_some_iff.mp hx
    exact ⟨y.2, he⟩
  · rintro ⟨f, hf⟩
    exact ⟨_, hf, rfl⟩

theorem paginas_concat (b : List (Suceso α)) (x : α) (f : Bool) :
    paginas (b ++ [some (x, f)]) = insert x (paginas b) := by
  ext y
  simp only [mem_paginas, List.mem_append, List.mem_singleton, Finset.mem_insert, Option.some.injEq,
    Prod.mk.injEq]
  constructor
  · rintro ⟨g, h | ⟨rfl, -⟩⟩
    · exact Or.inr ⟨g, h⟩
    · exact Or.inl rfl
  · rintro (rfl | ⟨g, h⟩)
    · exact ⟨f, Or.inr ⟨rfl, rfl⟩⟩
    · exact ⟨g, Or.inl h⟩

/-! ### A conservative store -/

/-- No page is missed twice while at most `n` different ones are asked for. -/
def Conservador (n : ℕ) (tr : List (Suceso α)) : Prop :=
  ∀ a b c x, tr = a ++ b ++ some (x, true) :: c → none ∉ b → (insert x (paginas b)).card ≤ n →
    some (x, true) ∉ b

variable {n h f : ℕ} {tr a b c : List (Suceso α)} {C : Finset α} {x : α}

theorem Conservador.nil : Conservador n ([] : List (Suceso α)) := fun a b c x he => by
  simp at he

theorem Conservador.prefijo (hc : Conservador n (a ++ b)) : Conservador n a := fun u v w x he => by
  apply hc u v (w ++ b) x
  rw [he, List.append_assoc, List.cons_append]

/-- One more request: all that is new to be seen is its miss. -/
theorem Conservador.concat (hc : Conservador n tr) (e : Suceso α)
    (he : ∀ a b x, tr = a ++ b → e = some (x, true) → none ∉ b → (insert x (paginas b)).card ≤ n →
      some (x, true) ∉ b) : Conservador n (tr ++ [e]) := by
  intro a b c x h
  rcases List.eq_nil_or_concat c with rfl | ⟨c, e', rfl⟩
  · obtain ⟨h1, h2⟩ := List.append_inj' h rfl
    exact he a b x h1 (List.head_eq_of_cons_eq h2)
  · apply hc a b c x
    have h1 : tr ++ [e] = a ++ b ++ some (x, true) :: c ++ [e'] := by
      rw [h, List.concat_eq_append, List.append_assoc _ (some (x, true) :: c), List.cons_append]
    exact (List.append_inj' h1 rfl).1

/-- So it misses at most as many as there are. -/
theorem Conservador.fallos_le_card (hc : Conservador n tr) : ∀ {b a c : List (Suceso α)},
    tr = a ++ b ++ c → none ∉ b → (paginas b).card ≤ n → fallos b ≤ (paginas b).card := by
  -- no page twice, by induction on the requests so far
  have hnodup : ∀ {b a c : List (Suceso α)}, tr = a ++ b ++ c → none ∉ b → (paginas b).card ≤ n →
      (fallados b).Nodup := by
    intro b
    induction b using List.reverseRecOn with
    | nil => exact fun _ _ _ => List.nodup_nil
    | append_singleton b e ih =>
      intro a c htr hb hcard
      rw [List.mem_append, not_or] at hb
      rcases e with _ | ⟨x, f⟩
      · exact absurd (List.mem_singleton_self _) hb.2
      rw [paginas_concat] at hcard
      have htr' : tr = a ++ b ++ some (x, f) :: c := by
        rw [htr, ← List.append_assoc, List.append_assoc, List.singleton_append]
      have h1 := ih htr' hb.1 ((Finset.card_le_card (Finset.subset_insert _ _)).trans hcard)
      cases f with
      | false =>
        rw [fallados_append]
        exact (List.append_nil (fallados b)).symm ▸ h1
      | true =>
        rw [fallados_append]
        apply List.nodup_append.mpr
        refine ⟨h1, List.nodup_singleton x, fun y hy z hz he => ?_⟩
        obtain rfl : z = x := List.mem_singleton.mp hz
        exact hc a b c z htr' hb.1 hcard (mem_fallados.mp (he ▸ hy))
  intro b a c htr hb hcard
  calc fallos b = (fallados b).toFinset.card := (List.toFinset_card_of_nodup (hnodup htr hb hcard)).symm
    _ ≤ (paginas b).card := by
      apply Finset.card_le_card
      intro y hy
      exact mem_paginas.mpr ⟨true, mem_fallados.mp (List.mem_toFinset.mp hy)⟩

/-! ### Any other choice -/

/-- Someone else serves the same requests in `h` places: what he keeps afterwards, and how
many pages he missed. Each page is brought, and any others may be thrown away for it. -/
inductive Politica (h : ℕ) : List (Option α) → Finset α → ℕ → Prop
  | inicio : Politica h [] ∅ 0
  | acceso {l C f} (x : α) (C' : Finset α) (hp : Politica h l C f) (hx : x ∈ C') (hC : C' ⊆ insert x C)
      (hh : C'.card ≤ h) : Politica h (l ++ [some x]) C' (f + if x ∈ C then 0 else 1)
  | vaciado {l C f} (hp : Politica h l C f) : Politica h (l ++ [none]) ∅ f

/-- The requests cut where the pages since the last cut would be more than `n`, with `k` such
cuts so far: `b` is asked for since the last one, and `C₀` is what the other one had then. -/
structure Fases (n h : ℕ) (tr : List (Suceso α)) (C : Finset α) (f : ℕ) (a b : List (Suceso α)) (k : ℕ)
    (C₀ : Finset α) : Prop where
  corte : tr = a ++ b
  sinVaciar : none ∉ b
  pocas : (paginas b).card ≤ n
  fallos : fallos a ≤ n * (k + vaciados a)
  guarda : C ⊆ C₀ ∪ paginas b
  lugar : C₀.card ≤ h
  fallosDelOtro : k * (n - h + 1) + (paginas b \ C₀).card ≤ f

namespace Fases

variable {k : ℕ} {C₀ C' : Finset α}

/-- What is missed up to now. -/
theorem fallos_le (hc : Conservador n tr) (hF : Fases n h tr C f a b k C₀) :
    Competencia.fallos tr ≤ n * (k + 1 + vaciados tr) := by
  have h1 : Competencia.fallos b ≤ n := by
    refine (hc.fallos_le_card (a := a) (c := []) ?_ hF.sinVaciar hF.pocas).trans hF.pocas
    rw [List.append_nil, hF.corte]
  calc Competencia.fallos tr = Competencia.fallos a + Competencia.fallos b := by
        rw [hF.corte, fallos_append]
    _ ≤ n * (k + vaciados a) + n := Nat.add_le_add hF.fallos h1
    _ = n * (k + 1 + vaciados tr) := by
      rw [hF.corte, vaciados_append, vaciados_eq_zero hF.sinVaciar]
      ring

/-- One more page of those since the last cut, or one there is room for. -/
theorem sigue (hF : Fases n h tr C f a b k C₀) (g : Bool) (hcard : (insert x (paginas b)).card ≤ n)
    (hC : C' ⊆ insert x C) : Fases n h (tr ++ [some (x, g)]) C' (f + if x ∈ C then 0 else 1) a
      (b ++ [some (x, g)]) k C₀ := by
  refine ⟨by rw [hF.corte, List.append_assoc], ?_, by rwa [paginas_concat], hF.fallos, ?_, hF.lugar, ?_⟩
  · simpa using hF.sinVaciar
  · rw [paginas_concat, Finset.union_insert]
    exact hC.trans (Finset.insert_subset_insert _ hF.guarda)
  · have h1 := hF.fallosDelOtro
    rw [paginas_concat]
    by_cases hx : x ∈ C₀
    · rw [Finset.insert_sdiff_of_mem _ hx]
      omega
    · rw [Finset.insert_sdiff_of_notMem _ hx]
      by_cases hb : x ∈ paginas b
      · rw [Finset.insert_eq_of_mem (Finset.mem_sdiff.mpr ⟨hb, hx⟩)]
        omega
      · -- he does not have it either
        have h2 : x ∉ C := fun h => by
          rcases Finset.mem_union.mp (hF.guarda h) with h | h
          · exact hx h
          · exact hb h
        have h3 := Finset.card_insert_le x (paginas b \ C₀)
        rw [if_neg h2]
        omega

/-- A page more than there is room for: a cut. -/
theorem corta (hc : Conservador n tr) (hh : 1 ≤ h) (hn : h ≤ n) (hF : Fases n h tr C f a b k C₀) (g : Bool)
    (hcard : ¬ (insert x (paginas b)).card ≤ n) (hx : x ∈ C') (hC' : C'.card ≤ h) :
    Fases n h (tr ++ [some (x, g)]) C' (f + if x ∈ C then 0 else 1) tr [some (x, g)] (k + 1) C' := by
  have hb : x ∉ paginas b := fun h => by
    rw [Finset.insert_eq_of_mem h] at hcard
    exact hcard hF.pocas
  have hfull : (paginas b).card = n := by
    rw [Finset.card_insert_of_notMem hb] at hcard
    have := hF.pocas
    omega
  have hone : paginas [some (x, g)] = {x} := by
    have h1 := paginas_concat [] x g
    rwa [List.nil_append] at h1
  refine ⟨rfl, by simp, ?_, hF.fallos_le hc, Finset.subset_union_left, hC', ?_⟩
  · rw [hone, Finset.card_singleton]
    omega
  rw [hone, Finset.sdiff_eq_empty_iff_subset.mpr (Finset.singleton_subset_iff.mpr hx), Finset.card_empty]
  -- he has missed each of the pages that he did not have at the last cut
  have h1 := hF.fallosDelOtro
  have h2 := Finset.card_sdiff_add_card_inter (paginas b) C₀
  have h3 : (k + 1) * (n - h + 1) = k * (n - h + 1) + (n - h + 1) := Nat.succ_mul _ _
  by_cases hx₀ : x ∈ C₀
  · have h4 : (paginas b ∩ C₀).card + 1 ≤ C₀.card := by
      rw [← Finset.card_insert_of_notMem fun h => hb (Finset.mem_inter.mp h).1]
      exact Finset.card_le_card (Finset.insert_subset hx₀ Finset.inter_subset_right)
    have h5 := hF.lugar
    omega
  · have h4 : x ∉ C := fun h => by
      rcases Finset.mem_union.mp (hF.guarda h) with h | h
      · exact hx₀ h
      · exact hb h
    have h5 : (paginas b ∩ C₀).card ≤ h := (Finset.card_le_card Finset.inter_subset_right).trans hF.lugar
    rw [if_neg h4]
    omega

end Fases

/-- The requests, cut. -/
theorem Politica.fases (hh : 1 ≤ h) (hn : h ≤ n) {l : List (Option α)} (hp : Politica h l C f) :
    ∀ {tr : List (Suceso α)}, pedidos tr = l → Conservador n tr →
      ∃ a b k C₀, Fases n h tr C f a b k C₀ := by
  induction hp with
  | inicio =>
    intro tr he hc
    obtain rfl := List.map_eq_nil_iff.mp he
    exact ⟨[], [], 0, ∅, rfl, List.not_mem_nil, Nat.zero_le _, Nat.zero_le _, Finset.empty_subset _,
      Nat.zero_le _, by simp [paginas]⟩
  | @acceso l C f x C' _ hx hC hC' ih =>
    intro tr he hc
    obtain ⟨tr', e', rfl, h1, h2⟩ := List.map_eq_append_iff.mp he
    obtain ⟨e, rfl, h3⟩ := List.map_eq_singleton_iff.mp h2
    obtain ⟨⟨y, g⟩, rfl, rfl⟩ := Option.map_eq_some_iff.mp h3
    obtain ⟨a, b, k, C₀, hF⟩ := ih h1 hc.prefijo
    by_cases hcard : (insert y (paginas b)).card ≤ n
    · exact ⟨a, _, k, C₀, hF.sigue g hcard hC⟩
    · exact ⟨tr', _, k + 1, C', hF.corta hc.prefijo hh hn g hcard hx hC'⟩
  | @vaciado l C f _ ih =>
    intro tr he hc
    obtain ⟨tr', e', rfl, h1, h2⟩ := List.map_eq_append_iff.mp he
    obtain ⟨e, rfl, h3⟩ := List.map_eq_singleton_iff.mp h2
    obtain rfl := Option.map_eq_none_iff.mp h3
    obtain ⟨a, b, k, C₀, hF⟩ := ih h1 hc.prefijo
    refine ⟨tr' ++ [none], [], k, ∅, (List.append_nil _).symm, List.not_mem_nil, Nat.zero_le _, ?_,
      Finset.empty_subset _, Nat.zero_le _, ?_⟩
    · have h4 := hF.fallos_le hc.prefijo
      calc fallos (tr' ++ [none]) = fallos tr' := by
            rw [fallos_append]
            rfl
        _ ≤ n * (k + 1 + vaciados tr') := h4
        _ = n * (k + vaciados (tr' ++ [none])) := by
          rw [vaciados_append, show vaciados [(none : Suceso α)] = 1 from rfl]
          ring
    · have h5 := hF.fallosDelOtro
      simp only [paginas, List.filterMap_nil, List.toFinset_nil, Finset.empty_sdiff, Finset.card_empty]
      omega

/-- **A conservative store is competitive**: with `n` places it misses `n / (n - h + 1)` times
what anyone else with `h` of them does, and `n` more for each time that it starts empty. -/
theorem fallos_le (hh : 1 ≤ h) (hn : h ≤ n) (hc : Conservador n tr) (hp : Politica h (pedidos tr) C f) :
    (n - h + 1) * fallos tr ≤ n * f + n * (n - h + 1) * (vaciados tr + 1) := by
  obtain ⟨a, b, k, C₀, hF⟩ := hp.fases hh hn rfl hc
  have h1 : k * (n - h + 1) ≤ f := (Nat.le_add_right _ _).trans hF.fallosDelOtro
  calc (n - h + 1) * fallos tr ≤ (n - h + 1) * (n * (k + 1 + vaciados tr)) :=
        Nat.mul_le_mul_left _ (hF.fallos_le hc)
    _ = n * (k * (n - h + 1)) + n * (n - h + 1) * (vaciados tr + 1) := by ring
    _ ≤ n * f + n * (n - h + 1) * (vaciados tr + 1) := Nat.add_le_add_right (Nat.mul_le_mul_left _ h1) _

end Competencia
end Kiss
