/-
# Enough frames

A process has frames from an access of it to the suspension or the end that comes after it,
`marcos_por_proceso` of them at most. Where the frames of the user space are enough for the
processes that have some (`usuarios`) and for the one that asks, its request finds a frame:
the module answers it, and a read with the bytes of the array that the process is.

Key definitions: `Pedido.usa`, `usuarios`, `marcosDe`.
Key theorems: `solo_residentes`, `sinMarcos_subset`, `not_agotado`, `recorrido_alcanza`.
-/
import Kiss.Memoria.Lecturas

namespace Kiss
namespace Memoria

variable {c : ConfigMemoria} {s : MemoriaGlobal} {t pid p : ℕ} {fin : List ℕ} {es : List Evento}

/-! ### The processes that have frames -/

/-- The request needs a page in memory. -/
def Pedido.usa : Pedido → Bool
  | .escribir .. | .leer .. | .buscarMarco _ => true
  | .iniciar _ | .suspender | .finalizar => false

/-- The processes whose last request is an access. -/
def usuarios (es : List Evento) : Finset ℕ :=
  (es.map (·.pid)).toFinset.filter fun pid => (pedidos pid es).getLast?.any Pedido.usa

theorem mem_usuarios (h : (pedidos pid es).getLast?.any Pedido.usa = true) : pid ∈ usuarios es := by
  obtain ⟨e, he, -⟩ := (Option.any_eq_true _ _).mp h
  obtain ⟨x, hx, -⟩ := List.mem_map.mp (List.mem_of_getLast? he)
  obtain ⟨h1, h2⟩ := List.mem_filter.mp hx
  refine Finset.mem_filter.mpr ⟨List.mem_toFinset.mpr (List.mem_map.mpr ⟨x, h1, ?_⟩), h⟩
  exact of_decide_eq_true h2

/-- A process has nothing in memory but after an access. -/
theorem solo_residentes {l : List Pedido} {v : Proceso} {n : List ℕ} (h : solo c l = some (some v, n))
    (hl : l.getLast?.any Pedido.usa = false) : v.residentes = [] := by
  rcases List.eq_nil_or_concat l with rfl | ⟨l, e, rfl⟩
  · cases h
  rw [List.concat_eq_append] at h hl
  rw [List.getLast?_append] at hl
  rw [solo_concat] at h
  obtain ⟨⟨x, m⟩, -, h⟩ := Option.bind_eq_some_iff.mp h
  cases e with
  | iniciar tam =>
    unfold Pedido.paso at h
    split_ifs at h
    obtain ⟨w, hw, h⟩ := Option.map_eq_some_iff.mp h
    obtain rfl := Option.some.inj (Prod.mk.inj h).1
    obtain ⟨_, -, hw⟩ := Option.bind_eq_some_iff.mp hw
    obtain ⟨_, -, hw⟩ := Option.bind_eq_some_iff.mp hw
    obtain ⟨_, -, hw⟩ := Option.bind_eq_some_iff.mp hw
    rw [← Option.some.inj hw]
  | suspender =>
    obtain ⟨w, -, h⟩ := Option.bind_eq_some_iff.mp h
    obtain ⟨⟨k, w'⟩, hw, h⟩ := Option.bind_eq_some_iff.mp h
    obtain rfl := Option.some.inj (Prod.mk.inj (Option.some.inj h)).1
    obtain ⟨w'', hs, h⟩ := Option.map_eq_some_iff.mp hw
    obtain rfl := (Prod.mk.inj h).2
    exact (suspender_vacio hs).1
  | finalizar => cases h
  | escribir p d dato | leer p d | buscarMarco p => cases hl

/-- The pages that the process of a table has in memory. -/
def asignadas (s : MemoriaGlobal) (t : ℕ) : List RegistroAsignado :=
  ((s.tabla t).map (·.paginasAsignadas)).getD []

theorem asignadas_of_tabla {tt : TablaPrimerNivel} (h : s.tabla t = some tt) :
    asignadas s t = tt.paginasAsignadas := by rw [asignadas, h, Option.map_some, Option.getD_some]

/-- Who has pages in memory is a process in use. -/
theorem usuarios_of_asignadas (h : Traza c es s fin) (he : ∀ pid, ∀ e ∈ es, e.EnPagina c pid)
    (ht : asignadas s t ≠ []) : ∃ pid ∈ usuarios es, EsDe s fin t pid := by
  have hI := corrida_invariante (traza_corrida h)
  obtain ⟨tt, htt⟩ : ∃ tt, s.tabla t = some tt := by
    rcases htt : s.tabla t with _ | tt
    · rw [asignadas, htt] at ht
      exact absurd rfl ht
    · exact ⟨tt, rfl⟩
  rw [asignadas_of_tabla htt] at ht
  have hfin : t ∉ fin := fun hf => by
    obtain ⟨tu, htu, hnil, -⟩ := hI.vacia hf
    obtain rfl := Option.some.inj (htt.symm.trans htu)
    exact ht hnil
  have hde : EsDe s fin t tt.pcbId := ⟨hfin, by rw [htt, Option.map_some]⟩
  refine ⟨tt.pcbId, mem_usuarios ?_, hde⟩
  by_contra hno
  obtain ⟨x, hx, hsig⟩ := traza_solo h (he tt.pcbId)
  rcases hv : x with _ | v
  · exact hsig.falta hv t hde
  obtain ⟨u, hu, hvu⟩ := hsig.vive hv
  obtain rfl := (traza_distintos h (he tt.pcbId)).eq hde hu
  have h1 : v.residentes = [] := solo_residentes (hv ▸ hx) (by simpa using hno)
  obtain ⟨h2, -⟩ := acotado_de (⟨hI.marcos, hvu, Ajenas.refl c t s⟩ : Ve c fin t s s v) htt
  rw [h1] at h2
  exact ht (List.eq_nil_of_length_eq_zero h2.symm)

/-! ### The frames -/

/-- The frames of the process of a table. -/
def marcosDe (s : MemoriaGlobal) (t : ℕ) : Finset ℕ :=
  ((asignadas s t).filterMap fun r => (s.pagina r.paginaAsignada).map (·.numeroMarco)).toFinset

theorem card_marcosDe (s : MemoriaGlobal) (t : ℕ) : (marcosDe s t).card ≤ (asignadas s t).length :=
  (List.toFinset_card_le _).trans (List.length_filterMap_le _ _)

/-- With no free frame, all of them are of the processes that have some. -/
theorem sinMarcos_subset (h : Marcos c s fin) (hs : SinMarcos c s) : Finset.range c.cantidad ⊆
    ((Finset.range s.listaTablasDeTablas.length).filter fun t => asignadas s t ≠ []).biUnion (marcosDe s) := by
  intro f hf
  rw [Finset.mem_range] at hf
  obtain ⟨t, tt, r, w, htt, hr, hw, rfl⟩ := h.ocupado f hf (hs f hf)
  have h1 := asignadas_of_tabla htt
  refine Finset.mem_biUnion.mpr ⟨t, Finset.mem_filter.mpr ⟨?_, ?_⟩, ?_⟩
  · exact Finset.mem_range.mpr (List.getElem?_eq_some_iff.mp htt).1
  · rw [h1]
    exact List.ne_nil_of_mem hr
  · refine List.mem_toFinset.mpr (List.mem_filterMap.mpr ⟨r, h1 ▸ hr, ?_⟩)
    rw [hw, Option.map_some]

/-- Where the frames are enough for the processes in use and one more, that one finds a frame. -/
theorem not_agotado (h : Traza c es s fin) (he : ∀ pid, ∀ e ∈ es, e.EnPagina c pid) (ht : EsDe s fin t pid)
    (hcap : (insert pid (usuarios es)).card * c.marcosPorProceso ≤ c.cantidad) : ¬ Agotado c s t p := by
  rintro ⟨hs, tt, htt, hlt, -⟩
  have hD := corrida_duenos (traza_corrida h)
  have hdist := traza_distintos h (he pid)
  -- the tables with pages in memory, and the one that asks
  set T := (Finset.range s.listaTablasDeTablas.length).filter fun u => asignadas s u ≠ [] with hT
  have hde : ∀ u ∈ insert t T, ∃ q ∈ insert pid (usuarios es), EsDe s fin u q := by
    intro u hu
    rcases Finset.mem_insert.mp hu with rfl | hu
    · exact ⟨pid, Finset.mem_insert_self _ _, ht⟩
    · obtain ⟨q, hq, h1⟩ := usuarios_of_asignadas h he (Finset.mem_filter.mp hu).2
      exact ⟨q, Finset.mem_insert_of_mem hq, h1⟩
  choose! f hf using hde
  have hcard : (insert t T).card ≤ (insert pid (usuarios es)).card := by
    refine Finset.card_le_card_of_injOn f (fun u hu => (hf u hu).1) fun u hu v hv huv => ?_
    exact hdist.eq (hf u hu).2 (huv ▸ (hf v hv).2)
  have htope : ∀ u, (marcosDe s u).card ≤ c.marcosPorProceso := fun u => by
    refine (card_marcosDe s u).trans ?_
    rcases hu : s.tabla u with _ | tu
    · rw [asignadas, hu]
      exact Nat.zero_le _
    · rw [asignadas_of_tabla hu]
      exact hD.tope hu
  have hmenos : (marcosDe s t).card < c.marcosPorProceso :=
    (card_marcosDe s t).trans_lt (asignadas_of_tabla htt ▸ hlt)
  have hlleno : c.cantidad < c.cantidad := calc
    c.cantidad = (Finset.range c.cantidad).card := (Finset.card_range _).symm
    _ ≤ ((insert t T).biUnion (marcosDe s)).card :=
      Finset.card_le_card ((sinMarcos_subset (corrida_invariante (traza_corrida h)).marcos hs).trans
        (Finset.biUnion_subset_biUnion_of_subset_left _ (Finset.subset_insert t T)))
    _ ≤ ∑ u ∈ insert t T, (marcosDe s u).card := Finset.card_biUnion_le
    _ < ∑ _u ∈ insert t T, c.marcosPorProceso :=
      Finset.sum_lt_sum (fun u _ => htope u) ⟨t, Finset.mem_insert_self t T, hmenos⟩
    _ = (insert t T).card * c.marcosPorProceso := Finset.sum_const_nat fun _ _ => rfl
    _ ≤ (insert pid (usuarios es)).card * c.marcosPorProceso := Nat.mul_le_mul_right _ hcard
    _ ≤ c.cantidad := hcap
  exact absurd hlleno (lt_irrefl _)

/-- **Enough frames.** In every run whose requests meet `EnSuLugar`, where the frames are enough
for the processes in use and the one that asks, its accesses are answered, the reads with the
bytes of its array. -/
theorem recorrido_alcanza {e : Pedido} (hm : 1 ≤ c.marcosPorProceso) (ha : c.algoritmoReemplazo ≠ .otro)
    (h : Recorrido c (EnSuLugar c) es s fin) (ht : EsDe s fin t pid) (he : e.usa = true)
    (hd : e.Dentro c (plano c (pedidos pid es))) (hP : EnSuLugar c s (e.operacion t pid))
    (hcap : (insert pid (usuarios es)).card * c.marcosPorProceso ≤ c.cantidad) :
    ∃ n s', ejecutar c s (e.operacion t pid) = some (n, s') ∧
      ∀ p d, e = .leer p d → n = (plano c (pedidos pid es)).leer c p d := by
  refine responde_guarda hm ha h ht ?_ ?_ hd hP fun ⟨u, p, hacc, hag⟩ => ?_
  · rintro tam rfl
    cases he
  · rintro rfl
    cases he
  · have hu : u = t := by
      cases e <;> cases hacc <;> rfl
    subst hu
    exact not_agotado h.traza h.enPagina ht hcap hag

/-- Two processes with one frame each: the one that has none reads. -/
theorem recorrido_alcanza_dosProcesos : ∃ z, recorrer (chica 2 1) (EnSuLugar (chica 2 1))
    [(0, .iniciar 8), (1, .iniciar 8), (0, .escribir 1 0 7)] ([], sinProcesos, []) = some z ∧
      ∃ n s', ejecutar (chica 2 1) z.2.1 (.leer 1 0 0) = some (n, s') ∧
        n = (plano (chica 2 1) (pedidos 1 z.1)).leer (chica 2 1) 0 0 := by
  obtain ⟨z, hz, h1⟩ := (Option.any_eq_true _ _).mp (show (recorrer (chica 2 1) (EnSuLugar (chica 2 1))
    [(0, .iniciar 8), (1, .iniciar 8), (0, .escribir 1 0 7)] ([], sinProcesos, [])).any (fun z =>
      decide (EsDe z.2.1 z.2.2 1 1 ∧
        (Pedido.leer 0 0).Dentro (chica 2 1) (plano (chica 2 1) (pedidos 1 z.1)) ∧
        EnSuLugar (chica 2 1) z.2.1 (.leer 1 0 0) ∧
        (insert 1 (usuarios z.1)).card * (chica 2 1).marcosPorProceso ≤ (chica 2 1).cantidad)) = true by
    decide +kernel)
  obtain ⟨h2, h3, h4, h5⟩ := of_decide_eq_true h1
  obtain ⟨n, s', h6, h7⟩ := recorrido_alcanza (e := .leer 0 0) (by decide +kernel) (by decide +kernel)
    (recorrer_recorrido _ (.inicio ⟨rfl, rfl, fun _ _ => rfl⟩) hz) h2 rfl h3 h4 h5
  exact ⟨z, hz, n, s', h6, h7 0 0 rfl⟩

end Memoria
end Kiss
