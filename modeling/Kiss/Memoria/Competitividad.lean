/-
# CLOCK against any other choice

A page that second-chance FIFO brings enters at the tail with its bit set. Before it can leave,
the head has to come to it twice, and by then every other page in the queue was asked for since
it was brought: its bit was set when the head found it, or it took the place of one whose bit
was not. With the page that makes it leave they are more than there is room for. So the queue
is a conservative store, and so are the frames of a process under CLOCK
(`historia_competitiva`).

Key definitions: `Protegida`, `EnSegmento`.
Key theorems: `Protegida.echar`, `EnSegmento.paso`, `historia_competitiva`.
-/
import Kiss.Competencia
import Kiss.Memoria.Colas

namespace Kiss
namespace SegundaOportunidad

open Competencia

variable {α : Type*} {m : ℕ} {q q' : List (α × Bool)} {S : Finset α} {x p y : α}

/-! ### A page that stays -/

/-- The bits that are set are of pages of `S`. -/
def Usadas (S : Finset α) (q : List (α × Bool)) : Prop := ∀ y ∈ q, y.2 = true → y.1 ∈ S

/-- Page `p` is in the queue, and until it leaves the head will find only pages of `S`: behind
it the bits that are set are of such pages, and where its own is not, all the pages behind it
are and those ahead of it with their bit set. -/
def Protegida (S : Finset α) (q : List (α × Bool)) (p : α) : Prop :=
  ∃ u uso v, q = u ++ (p, uso) :: v ∧ p ∈ S ∧ Usadas S v ∧
    (uso = true ∨ Usadas S u ∧ ∀ y ∈ v, y.1 ∈ S)

namespace Protegida

theorem mem (h : Protegida S q p) : p ∈ q.map (·.1) := by
  obtain ⟨u, uso, v, rfl, -⟩ := h
  simp

/-- The page that enters. -/
theorem nueva (q : List (α × Bool)) (hx : x ∈ S) : Protegida S (q ++ [(x, true)]) x :=
  ⟨q, true, [], rfl, hx, fun _ hy => absurd hy List.not_mem_nil, Or.inl rfl⟩

/-- Another page enters. -/
theorem entra (h : Protegida S q p) (hx : x ∈ S) : Protegida S (q ++ [(x, true)]) p := by
  obtain ⟨u, uso, v, rfl, hp, hv, hu⟩ := h
  have hmem : ∀ {P : α × Bool → Prop}, (∀ y ∈ v, P y) → P (x, true) → ∀ y ∈ v ++ [(x, true)], P y := by
    intro P h1 h2 y hy
    rcases List.mem_append.mp hy with hy | hy
    · exact h1 y hy
    · rw [List.mem_singleton.mp hy]
      exact h2
  exact ⟨u, uso, v ++ [(x, true)], by simp, hp, hmem hv fun _ => hx, hu.imp_right fun h1 => ⟨h1.1, hmem h1.2 hx⟩⟩

theorem mono {S' : Finset α} (h : Protegida S q p) (hS : S ⊆ S') : Protegida S' q p := by
  obtain ⟨u, uso, v, hq, hp, hv, hu⟩ := h
  exact ⟨u, uso, v, hq, hS hp, fun y hy hb => hS (hv y hy hb),
    hu.imp_right fun h1 => ⟨fun y hy hb => hS (h1.1 y hy hb), fun y hy => hS (h1.2 y hy)⟩⟩

/-- The head is sent to the tail. -/
theorem gira (h : Protegida S ((y, true) :: q) p) : Protegida S (q ++ [(y, false)]) p := by
  obtain ⟨u, uso, v, he, hp, hv, hu⟩ := h
  rcases u with _ | ⟨z, u⟩
  · -- the page itself
    obtain ⟨h1, rfl⟩ := List.cons_eq_cons.mp he
    obtain ⟨rfl, -⟩ := Prod.mk.inj h1
    exact ⟨q, false, [], rfl, hp, fun _ hy => absurd hy List.not_mem_nil,
      Or.inr ⟨hv, fun _ hy => absurd hy List.not_mem_nil⟩⟩
  · obtain ⟨rfl, rfl⟩ := List.cons_eq_cons.mp he
    refine ⟨u, uso, v ++ [(y, false)], by simp, hp, fun w hw hb => ?_, hu.imp_right fun h1 => ⟨fun w hw =>
      h1.1 w (List.mem_cons_of_mem _ hw), fun w hw => ?_⟩⟩
    · rcases List.mem_append.mp hw with hw | hw
      · exact hv w hw hb
      · rw [List.mem_singleton.mp hw] at hb
        cases hb
    · rcases List.mem_append.mp hw with hw | hw
      · exact h1.2 w hw
      · rw [List.mem_singleton.mp hw]
        exact h1.1 (y, true) List.mem_cons_self rfl

variable [DecidableEq α]

theorem usadas_marcar (h : Usadas S q) (hx : x ∈ S) : Usadas S (marcar x q) := by
  intro y hy hb
  obtain ⟨z, hz, rfl⟩ := List.mem_map.mp hy
  split_ifs at hb ⊢ with he
  · exact hx
  · exact h z hz hb

/-- A page of the queue is asked for. -/
theorem marcar (h : Protegida S q p) (hx : x ∈ S) : Protegida S (marcar x q) p := by
  obtain ⟨u, uso, v, rfl, hp, hv, hu⟩ := h
  have h1 : SegundaOportunidad.marcar x (u ++ (p, uso) :: v) = SegundaOportunidad.marcar x u ++
      (p, decide (p = x) || uso) :: SegundaOportunidad.marcar x v := by
    unfold SegundaOportunidad.marcar
    rw [List.map_append, List.map_cons]
    by_cases he : p = x <;> simp [he]
  refine ⟨_, _, _, h1, hp, usadas_marcar hv hx, ?_⟩
  rcases hu with rfl | ⟨hu, hall⟩
  · exact Or.inl (Bool.or_true _)
  · refine Or.inr ⟨usadas_marcar hu hx, fun y hy => ?_⟩
    obtain ⟨z, hz, rfl⟩ := List.mem_map.mp hy
    split_ifs
    · exact hx
    · exact hall z hz

/-- **It does not leave** while `S` and the page that enters are not more than there is room
for. -/
theorem sale (h : Protegida S ((y, false) :: q) p) (hnd : (((y, false) :: q).map (·.1)).Nodup)
    (hm : m ≤ ((y, false) :: q).length) (hx : x ∉ ((y, false) :: q).map (·.1))
    (hcard : (insert x S).card ≤ m) : Protegida S q p := by
  obtain ⟨u, uso, v, he, hp, hv, hu⟩ := h
  rcases u with _ | ⟨z, u⟩
  · -- all the pages of the queue would be of `S`
    exfalso
    obtain ⟨h1, rfl⟩ := List.cons_eq_cons.mp he
    obtain ⟨rfl, rfl⟩ := Prod.mk.inj h1
    obtain ⟨-, hall⟩ := hu.resolve_left (by simp)
    have h2 : insert x (((y, false) :: q).map (·.1)).toFinset ⊆ insert x S := by
      apply Finset.insert_subset_insert
      intro w hw
      rw [List.mem_toFinset, List.map_cons, List.mem_cons] at hw
      rcases hw with rfl | hw
      · exact hp
      · obtain ⟨w', hw', rfl⟩ := List.mem_map.mp hw
        exact hall w' hw'
    have h3 := Finset.card_le_card h2
    rw [Finset.card_insert_of_notMem (by rwa [List.mem_toFinset]), List.toFinset_card_of_nodup hnd,
      List.length_map] at h3
    omega
  · obtain ⟨rfl, rfl⟩ := List.cons_eq_cons.mp he
    exact ⟨u, uso, v, rfl, hp, hv, hu.imp_right fun h1 => ⟨fun w hw => h1.1 w (List.mem_cons_of_mem _ hw), h1.2⟩⟩

/-- The search for the page that leaves passes it. -/
theorem echar : ∀ {n : ℕ} {q : List (α × Bool)}, Protegida S q p → (q.map (·.1)).Nodup → m ≤ q.length →
    x ∉ q.map (·.1) → (insert x S).card ≤ m → SegundaOportunidad.echar n q = some (y, q') → Protegida S q' p
  | 0, _, _, _, _, _, _, he => by cases he
  | n + 1, [], _, _, _, _, _, he => by cases he
  | n + 1, (z, true) :: q, h, hnd, hm, hx, hcard, he => by
    have hperm : (q ++ [(z, false)]).Perm ((z, false) :: q) := List.perm_append_singleton _ _
    have hmap : ((q ++ [(z, false)]).map (·.1)).Perm (((z, true) :: q).map (·.1)) := hperm.map _
    refine echar (q := q ++ [(z, false)]) h.gira ?_ ?_ ?_ hcard he
    · exact hmap.nodup_iff.mpr hnd
    · rw [hperm.length_eq]
      exact hm
    · rw [hmap.mem_iff]
      exact hx
  | n + 1, (z, false) :: q, h, hnd, hm, hx, hcard, he => by
    obtain ⟨rfl, rfl⟩ := Prod.mk.inj (Option.some.inj he)
    exact h.sale hnd hm hx hcard

end Protegida

/-! ### The requests so far -/

/-- The pages of the queue, with the one that leaves. -/
theorem perm_echar : ∀ {n : ℕ} {q : List (α × Bool)}, echar n q = some (y, q') →
    (y :: q'.map (·.1)).Perm (q.map (·.1))
  | 0, _, he => by cases he
  | n + 1, [], he => by cases he
  | n + 1, (z, true) :: q, he =>
    (perm_echar (q := q ++ [(z, false)]) he).trans ((List.perm_append_singleton (z, false) q).map _)
  | n + 1, (z, false) :: q, he => by
    obtain ⟨rfl, rfl⟩ := Prod.mk.inj (Option.some.inj he)
    exact List.Perm.refl _

variable [DecidableEq α] {tr : List (Competencia.Suceso α)} {f : Bool} {w : Option α}

theorem map_marcar (x : α) (q : List (α × Bool)) : (marcar x q).map (·.1) = q.map (·.1) := by
  unfold marcar
  rw [List.map_map]
  apply List.map_congr_left
  intro y _
  simp only [Function.comp_apply]
  split_ifs with h
  · exact h.symm
  · rfl

/-- Of the last requests, as long as they are of `m` pages at most, every page that was missed
stays. -/
structure EnSegmento (m : ℕ) (q : List (α × Bool)) (tr : List (Competencia.Suceso α)) : Prop where
  unicas : (q.map (·.1)).Nodup
  tope : q.length ≤ m
  conservador : Conservador m tr
  protegidas : ∀ a b, tr = a ++ b → none ∉ b → (paginas b).card ≤ m → ∀ p ∈ fallados b,
    Protegida (paginas b) q p

namespace EnSegmento

theorem inicio (m : ℕ) : EnSegmento m ([] : List (α × Bool)) [] where
  unicas := List.nodup_nil
  tope := Nat.zero_le m
  conservador := .nil
  protegidas a b h _ _ p hp := by
    obtain ⟨-, rfl⟩ := List.append_eq_nil_iff.mp h.symm
    cases hp

/-- The queue is emptied. -/
theorem vaciado (h : EnSegmento m q tr) : EnSegmento m [] (tr ++ [none]) where
  unicas := List.nodup_nil
  tope := Nat.zero_le m
  conservador := h.conservador.concat none fun _ _ _ _ he => by cases he
  protegidas a b he hb _ p hp := by
    exfalso
    rcases List.eq_nil_or_concat b with rfl | ⟨b, e, rfl⟩
    · cases hp
    · rw [List.concat_eq_append] at he hb
      rw [← List.append_assoc] at he
      obtain rfl := List.singleton_inj.mp (List.append_inj' he rfl).2
      exact hb (by simp)

/-- A request: what has to be seen is that the pages that were missed stay. -/
theorem concat (h : EnSegmento m q tr) (hnd : (q'.map (·.1)).Nodup) (htope : q'.length ≤ m)
    (hf : f = true → x ∉ q.map (·.1)) (hx : f = true → ∀ S : Finset α, x ∈ S → Protegida S q' x)
    (hq : ∀ S p, Protegida S q p → (insert x S).card ≤ m → Protegida (insert x S) q' p) :
    EnSegmento m q' (tr ++ [some (x, f)]) := by
  refine ⟨hnd, htope, h.conservador.concat _ fun a b y htr he hb hcard hmem => ?_, fun a b he hb hcard p hp => ?_⟩
  · obtain ⟨rfl, rfl⟩ := Prod.mk.inj (Option.some.inj he)
    have h1 := h.protegidas a b htr hb ((Finset.card_le_card (Finset.subset_insert _ _)).trans hcard) x
      (mem_fallados.mpr hmem)
    exact hf rfl h1.mem
  · rcases List.eq_nil_or_concat b with rfl | ⟨b, e, rfl⟩
    · cases hp
    rw [List.concat_eq_append] at he hb hcard hp ⊢
    rw [← List.append_assoc] at he
    obtain ⟨htr, h1⟩ := List.append_inj' he rfl
    obtain rfl := List.singleton_inj.mp h1
    rw [paginas_concat] at hcard ⊢
    rw [fallados_append, List.mem_append] at hp
    rcases hp with hp | hp
    · have hb' : none ∉ b := fun h => hb (List.mem_append_left _ h)
      exact hq _ p (h.protegidas a b htr hb' ((Finset.card_le_card (Finset.subset_insert _ _)).trans hcard) p hp)
        hcard
    · have h2 := mem_fallados.mp hp
      simp only [List.mem_singleton, Option.some.injEq, Prod.mk.injEq] at h2
      obtain ⟨rfl, rfl⟩ := h2
      exact hx rfl _ (Finset.mem_insert_self _ _)

theorem acceso (h : EnSegmento m q tr) (ha : acceder m q x = some (f, w, q')) :
    EnSegmento m q' (tr ++ [some (x, f)]) := by
  unfold acceder at ha
  split_ifs at ha with hmem hlen
  · -- it is in the queue
    obtain ⟨rfl, -, rfl⟩ : false = f ∧ none = w ∧ marcar x q = q' := by simpa using ha
    refine h.concat ?_ ?_ (fun hf => by cases hf) (fun hf => by cases hf) fun S p hp _ => ?_
    · rw [map_marcar]
      exact h.unicas
    · unfold marcar
      rw [List.length_map]
      exact h.tope
    · exact (hp.mono (Finset.subset_insert _ _)).marcar (Finset.mem_insert_self _ _)
  · -- there is room
    obtain ⟨rfl, -, rfl⟩ : true = f ∧ none = w ∧ q ++ [(x, true)] = q' := by simpa using ha
    refine h.concat ?_ ?_ (fun _ => hmem) (fun _ S hx => .nueva q hx) fun S p hp _ => ?_
    · rw [List.map_append, List.map_singleton, List.nodup_append]
      refine ⟨h.unicas, List.nodup_singleton x, fun y hy z hz he => ?_⟩
      obtain rfl := List.mem_singleton.mp hz
      exact hmem (he ▸ hy)
    · rw [List.length_append, List.length_singleton]
      exact hlen
    · exact (hp.mono (Finset.subset_insert _ _)).entra (Finset.mem_insert_self _ _)
  · -- another one leaves
    obtain ⟨⟨y, q1⟩, he, h1⟩ := Option.map_eq_some_iff.mp ha
    obtain ⟨rfl, -, rfl⟩ : true = f ∧ some y = w ∧ q1 ++ [(x, true)] = q' := by simpa using h1
    have hperm := perm_echar he
    have hnd : (y :: q1.map (·.1)).Nodup := hperm.nodup_iff.mpr h.unicas
    refine h.concat ?_ ?_ (fun _ => hmem) (fun _ S hx => .nueva q1 hx) fun S p hp hcard => ?_
    · rw [List.map_append, List.map_singleton, List.nodup_append]
      refine ⟨(List.nodup_cons.mp hnd).2, List.nodup_singleton x, fun z hz z' hz' he => ?_⟩
      obtain rfl := List.mem_singleton.mp hz'
      exact hmem (hperm.subset (List.mem_cons_of_mem _ (he ▸ hz)))
    · have h2 := hperm.length_eq
      have h3 := h.tope
      simp only [List.length_cons, List.length_map] at h2
      rw [List.length_append, List.length_singleton]
      omega
    · have h2 := hp.echar h.unicas (not_lt.mp hlen) hmem hcard he
      exact (h2.mono (Finset.subset_insert _ _)).entra (Finset.mem_insert_self _ _)

end EnSegmento

/-- What is seen of a step. -/
def Suceso.visto (e : Suceso α) : Competencia.Suceso α :=
  match e.accion with
  | .acceso x => some (x, e.fallo)
  | .suspension => none

/-- **The queue is a conservative store**, along a whole run. -/
theorem EnSegmento.reproducir : ∀ {as : List (Accion α)} {es : List (Suceso α)} {q q' : List (α × Bool)}
    {tr : List (Competencia.Suceso α)}, EnSegmento m q tr →
      SegundaOportunidad.reproducir m q as = some (es, q') → EnSegmento m q' (tr ++ es.map Suceso.visto)
  | [], es, q, q', tr, h, hr => by
    obtain ⟨rfl, rfl⟩ := Prod.mk.inj (Option.some.inj hr)
    rwa [List.map_nil, List.append_nil]
  | a :: as, es, q, q', tr, h, hr => by
    obtain ⟨⟨e, q1⟩, hp, hr⟩ := Option.bind_eq_some_iff.mp hr
    obtain ⟨⟨es1, q2⟩, hr1, hr⟩ := Option.bind_eq_some_iff.mp hr
    obtain ⟨rfl, rfl⟩ := Prod.mk.inj (Option.some.inj hr)
    have h1 : EnSegmento m q1 (tr ++ [e.visto]) := by
      cases a with
      | acceso x =>
        obtain ⟨⟨f, w, q3⟩, ha, he⟩ := Option.map_eq_some_iff.mp hp
        obtain ⟨rfl, rfl⟩ := Prod.mk.inj he
        exact h.acceso ha
      | suspension =>
        obtain ⟨rfl, rfl⟩ := Prod.mk.inj (Option.some.inj hp)
        exact h.vaciado
    have h2 := EnSegmento.reproducir h1 hr1
    rwa [List.append_assoc] at h2

end SegundaOportunidad

namespace Memoria

open Competencia SegundaOportunidad

/-- **CLOCK against any other choice.** With `m` frames a process that reads, writes and is
suspended has at most `m / (m - h + 1)` times the page faults that it would have with `h ≤ m` of
them, whoever chooses the pages that leave and even if he knows what comes; and `m` more for the
start and for each suspension. -/
theorem historia_competitiva {c : ConfigMemoria} {s : MemoriaGlobal} {t h f : ℕ} {fin : List ℕ}
    {l : List (SegundaOportunidad.Suceso ℕ)} {C : Finset ℕ} (hc : c.algoritmoReemplazo = .clock)
    (hl : Historia c t s fin l) (hh : 1 ≤ h) (hm : h ≤ c.marcosPorProceso)
    (hp : Politica h (Competencia.pedidos (l.map Suceso.visto)) C f) :
    (c.marcosPorProceso - h + 1) * fallos (l.map Suceso.visto) ≤ c.marcosPorProceso * f +
      c.marcosPorProceso * (c.marcosPorProceso - h + 1) * (vaciados (l.map Suceso.visto) + 1) := by
  obtain ⟨-, -, tt, -, hcola⟩ := historia_cola hc (hh.trans hm) hl
  have h1 := (EnSegmento.inicio c.marcosPorProceso).reproducir hcola
  exact fallos_le hh hm h1.conservador hp

/-- Pages 0, 1, 0, 2, 1 with two frames and, after a suspension, page 1; the other one has a
frame alone. -/
theorem historia_competitiva_dosMarcos : ∃ s fin l, ∃ C : Finset ℕ, Historia (chica 2 2) 0 s fin l ∧
    l.map Suceso.visto = [some (0, true), some (1, true), some (0, false), some (2, true), some (1, false),
      none, some (1, true)] ∧ Politica 1 (Competencia.pedidos (l.map Suceso.visto)) C 6 ∧
    (2 - 1 + 1) * fallos (l.map Suceso.visto) ≤ 2 * 6 + 2 * (2 - 1 + 1) * (vaciados (l.map Suceso.visto) + 1) := by
  obtain ⟨⟨s, fin, l⟩, hx, h1⟩ := Option.map_eq_some_iff.mp (show (historiaDe (chica 2 2) 12
    [.leer 0 0 0, .leer 0 1 0, .leer 0 0 0, .leer 0 2 0, .leer 0 1 0, .suspender 0, .leer 0 1 0]).map
      (fun y => y.2.2.map Suceso.visto) = some [some (0, true), some (1, true), some (0, false),
        some (2, true), some (1, false), none, some (1, true)] by decide +kernel)
  dsimp only at h1
  have hp : Politica 1 (Competencia.pedidos (l.map Suceso.visto)) {1} 6 := by
    rw [h1]
    have h2 := Politica.inicio (α := ℕ) (h := 1)
    have h3 := h2.acceso 0 {0} (by decide) (by decide) (by decide)
    have h4 := h3.acceso 1 {1} (by decide) (by decide) (by decide)
    have h5 := h4.acceso 0 {0} (by decide) (by decide) (by decide)
    have h6 := h5.acceso 2 {2} (by decide) (by decide) (by decide)
    have h7 := h6.acceso 1 {1} (by decide) (by decide) (by decide)
    exact h7.vaciado.acceso 1 {1} (by decide) (by decide) (by decide)
  have h2 := historiaDe_historia hx
  exact ⟨s, fin, l, {1}, h2, h1, hp, historia_competitiva rfl h2 le_rfl (by decide +kernel) hp⟩

end Memoria
end Kiss
