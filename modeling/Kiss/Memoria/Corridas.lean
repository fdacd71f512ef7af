/-
# Frames over whole runs

The requests on the tables in any order and number, on processes that have not been
finished. Every process has at most `marcos_por_proceso` pages in memory and its hand is
one of their places (`Acotado`), and with the agreement of `Marcos` this gives who has
each frame (`Duenos`): an entry of the one process that the registry names, for the page
that it names.

Key definitions: `Operacion`, `ejecutar`, `Corrida`, `Duenos`.
Key theorems: `corrida_invariante`, `corrida_duenos`.
-/
import Kiss.Memoria.Simulacion
import Kiss.Memoria.Creacion

namespace Kiss
namespace Memoria

open Reloj (avanzar avanzar_lt)

/-! ### Runs -/

/-- The requests that the module serves. -/
inductive Operacion
  | iniciar (tamProceso idProceso : ℕ)
  | escribir (t p d dato : ℕ)
  | leer (t p d : ℕ)
  | buscarMarco (t p : ℕ)
  | suspender (t : ℕ)
  | finalizar (t : ℕ)
  deriving DecidableEq, Repr

/-- The table a request names. -/
def Operacion.tabla : Operacion → Option ℕ
  | .iniciar _ _ => none
  | .escribir t _ _ _ | .leer t _ _ | .buscarMarco t _ | .suspender t | .finalizar t => some t

/-- The tables whose process it ends. -/
def Operacion.finaliza : Operacion → List ℕ
  | .finalizar t => [t]
  | _ => []

/-- What the module answers, and its state afterwards. -/
def ejecutar (c : ConfigMemoria) (s : MemoriaGlobal) : Operacion → Option (ℕ × MemoriaGlobal)
  | .iniciar tam pid => iniciarNuevoProceso c s tam pid
  | .escribir t p d dato => escribirEnPagina c s t p d dato
  | .leer t p d => leerEnPagina c s t p d
  | .buscarMarco t p => buscarMarcoDePagina c s t p
  | .suspender t => (suspenderProceso c s t).map fun x => (x.1.toNat, x.2)
  | .finalizar t => (finalizarProceso c s t).map fun x => (x.1.toNat, x.2)

/-- The request is about a process that there is and that has not been finished. -/
def Viva (s : MemoriaGlobal) (fin : List ℕ) (o : Operacion) : Prop :=
  ∀ t, o.tabla = some t → t < s.listaTablasDeTablas.length ∧ t ∉ fin

/-- The states of the module, with the tables of the finished processes. -/
inductive Corrida (c : ConfigMemoria) : MemoriaGlobal → List ℕ → Prop
  | inicio {s} (h : Inicial c s) : Corrida c s []
  | paso {s fin s'} (o : Operacion) (n : ℕ) (h : Corrida c s fin) (ho : Viva s fin o)
      (hs : ejecutar c s o = some (n, s')) (hn : Numerable s') : Corrida c s' (o.finaliza ++ fin)

variable {c : ConfigMemoria} {s s' s0 : MemoriaGlobal} {t p n : ℕ} {fin : List ℕ}
  {v v' : Proceso} {tt : TablaPrimerNivel}

/-! ### Pages and hand of one process -/

/-- `n` pages in memory and the hand at `i`. -/
structure Acotado (c : ConfigMemoria) (n i : ℕ) : Prop where
  tope : n ≤ c.marcosPorProceso
  mano : 0 < c.marcosPorProceso → i < c.marcosPorProceso
  lugar : n < c.marcosPorProceso → i = n

theorem acotado_cero (c : ConfigMemoria) : Acotado c 0 0 := ⟨Nat.zero_le _, id, fun _ => rfl⟩

theorem victima_acotada {l : List Residente} {i : ℕ} (h : v.victima c = some (l, i))
    (hp : v.puntero < c.marcosPorProceso) : l.length = v.residentes.length ∧ i < c.marcosPorProceso := by
  have hl : ∀ {k : List Residente}, k.length = v.residentes.length →
      ∀ i, (bitsDe.limpiar k i).length = v.residentes.length := fun hk i => by
    rw [bitsDe, List.length_modify, hk]
  unfold Proceso.victima at h
  split at h
  · exact ⟨Reloj.clock_inv (I := fun k => k.length = v.residentes.length) hl rfl h, Reloj.clock_lt hp h⟩
  · exact ⟨Reloj.clockM_inv (I := fun k => k.length = v.residentes.length) hl rfl h, Reloj.clockM_lt hp h⟩
  · cases h

theorem length_guardar {r : Residente} (h : v.guardar c r = some v') :
    v'.residentes = v.residentes ∧ v'.puntero = v.puntero := by
  unfold Proceso.guardar Proceso.escribirSwap at h
  split_ifs at h
  · obtain ⟨a, -, rfl⟩ := Option.map_eq_some_iff.mp h
    exact ⟨rfl, rfl⟩
  · rw [← Option.some.inj h]
    exact ⟨rfl, rfl⟩

theorem cargar_acotado (hv : Acotado c v.residentes.length v.puntero) (h : v.cargar c p = some v') :
    Acotado c v'.residentes.length v'.puntero := by
  unfold Proceso.cargar at h
  split_ifs at h with hl
  · obtain ⟨dato, -, h⟩ := Option.bind_eq_some_iff.mp h
    rw [← Option.some.inj h]
    have h1 := hv.lugar hl
    simp only [List.length_append, List.length_singleton]
    refine ⟨hl, fun h0 => avanzar_lt (hv.mano h0), fun h2 => ?_⟩
    unfold avanzar
    rw [h1, if_neg (by omega)]
  · obtain ⟨⟨l, i⟩, hvic, h⟩ := Option.bind_eq_some_iff.mp h
    obtain ⟨r, hr, h⟩ := Option.bind_eq_some_iff.mp h
    obtain ⟨v1, hv1, h⟩ := Option.bind_eq_some_iff.mp h
    obtain ⟨dato, -, h⟩ := Option.bind_eq_some_iff.mp h
    obtain ⟨h1, -⟩ := length_guardar hv1
    have hlen : v.residentes.length = c.marcosPorProceso := le_antisymm hv.tope (not_lt.mp hl)
    -- with no place there is no victim
    have hm : 0 < c.marcosPorProceso := by
      refine Nat.pos_of_ne_zero fun h0 => ?_
      have h3 : v.residentes = [] := List.eq_nil_of_length_eq_zero (by omega)
      unfold Proceso.victima at hvic
      rw [h3, h0] at hvic
      split at hvic
      · simp [Reloj.clock, bitsDe] at hvic
      · simp [Reloj.clockM, Reloj.vuelta] at hvic
      · cases hvic
    obtain ⟨h2, h3⟩ := victima_acotada hvic (hv.mano hm)
    rw [← Option.some.inj h]
    simp only [h1, List.length_set, h2]
    exact ⟨hv.tope, fun _ => avanzar_lt h3, fun h4 => absurd h4 hl⟩

theorem traer_acotado (hv : Acotado c v.residentes.length v.puntero) (h : v.traer c p = some v') :
    Acotado c v'.residentes.length v'.puntero := by
  unfold Proceso.traer at h
  split_ifs at h
  · exact Option.some.inj h ▸ hv
  · exact cargar_acotado hv h

theorem leer_acotado {d : ℕ} (hv : Acotado c v.residentes.length v.puntero)
    (h : v.leer c p d = some (n, v')) : Acotado c v'.residentes.length v'.puntero := by
  obtain ⟨b, -, h⟩ := Option.bind_eq_some_iff.mp h
  split_ifs at h
  · cases h
    exact hv
  · obtain ⟨v1, h1, h⟩ := Option.bind_eq_some_iff.mp h
    obtain ⟨r, -, h⟩ := Option.bind_eq_some_iff.mp h
    cases h
    simpa [Proceso.conResidente] using traer_acotado hv h1

theorem suspenderPaginas_vacio : ∀ {l : List Residente} {v v' : Proceso}, v.residentes = l →
    Proceso.suspenderPaginas c l v = some v' → v'.residentes = [] ∧ v'.puntero = v.puntero
  | [], v, v', hl, h => by
    rw [← Option.some.inj h]
    exact ⟨hl, rfl⟩
  | r :: l, v, v', _, h => by
    obtain ⟨v1, h1, h⟩ := Option.bind_eq_some_iff.mp h
    obtain ⟨a, -, rfl⟩ := Option.map_eq_some_iff.mp h1
    exact suspenderPaginas_vacio (v := { v.conResidentes l with archivo := some _ }) rfl h

theorem suspender_vacio (h : v.suspender c = some v') : v'.residentes = [] ∧ v'.puntero = 0 :=
  suspenderPaginas_vacio (v := { v with puntero := 0 }) rfl h

/-! ### The invariant -/

/-- What holds in every run. -/
structure Invariante (c : ConfigMemoria) (s : MemoriaGlobal) (fin : List ℕ) : Prop where
  marcos : Marcos c s fin
  acotada : ∀ {t tt}, t ∉ fin → s.tabla t = some tt →
    Acotado c tt.paginasAsignadas.length tt.punteroMarcos
  vacia : ∀ {t}, t ∈ fin → ∃ tt, s.tabla t = some tt ∧ tt.paginasAsignadas = [] ∧
    (0 < c.marcosPorProceso → tt.punteroMarcos < c.marcosPorProceso)

/-- The process of a table that there is. -/
theorem ve_de (h : Marcos c s fin) (ht : t < s.listaTablasDeTablas.length) :
    ∃ v, Ve c fin t s s v := by
  refine ⟨vistaDe c s s.listaTablasDeTablas[t], h, ?_, Ajenas.refl c t s⟩
  rw [vista, MemoriaGlobal.tabla, List.getElem?_eq_getElem ht, Option.map_some]

theorem acotado_de (h : Ve c fin t s0 s v) (ht : s.tabla t = some tt) :
    v.residentes.length = tt.paginasAsignadas.length ∧ v.puntero = tt.punteroMarcos := by
  rw [h.vista_eq ht]
  exact ⟨List.length_map _, rfl⟩

/-- A step that only changes one process. -/
theorem Invariante.propio (h : Invariante c s fin) (hm : Marcos c s' fin) (hfin : t ∉ fin)
    (htab : ∀ u, u ≠ t → s'.tabla u = s.tabla u)
    (ha : ∀ tt, s'.tabla t = some tt → Acotado c tt.paginasAsignadas.length tt.punteroMarcos) :
    Invariante c s' fin where
  marcos := hm
  acotada {u tu} hu hs := by
    by_cases hut : u = t
    · exact ha tu (hut ▸ hs)
    · exact h.acotada hu (htab u hut ▸ hs)
  vacia {u} hu := htab u (fun he => hfin (he ▸ hu)) ▸ h.vacia hu

theorem Invariante.de_ve (h : Invariante c s fin) (hfin : t ∉ fin) (hV : Ve c fin t s s' v)
    (ha : Acotado c v.residentes.length v.puntero) : Invariante c s' fin := by
  refine h.propio hV.marcos hfin hV.ajenas.tabla fun tt ht => ?_
  obtain ⟨h1, h2⟩ := acotado_de hV ht
  rw [← h1, ← h2]
  exact ha

/-- `s'` is `s` with a word written for page `p`, wherever in the user space it is. -/
structure Escrita (c : ConfigMemoria) (fin : List ℕ) (t p : ℕ) (s s' : MemoriaGlobal) : Prop where
  marcos : Marcos c s' fin
  tabla : s'.tabla = s.tabla
  largo : s'.largo = s.largo
  pagina : ∃ q w, dir c s t p = some q ∧ s.pagina q = some w ∧
    s'.pagina = Function.update s.pagina q (some { w with uso := true, modificado := true })

theorem escribirMarco_escrita (h : Ve c fin t s0 s v) {i : ℕ} {q : ℕ × ℕ} {w : Pagina} {d dato : ℕ}
    (hq : dir c s t p = some q) (he : Esta c s tt v p i q w) {a : Bool → Bool} (ha : a w.uso = true)
    {s1 : MemoriaGlobal} (hs : escribirMarco c s w.numeroMarco d dato = some s1) :
    Escrita c fin t p s (s1.conPagina q fun p => { p with uso := a p.uso, modificado := true }) := by
  unfold escribirMarco at hs
  dsimp only at hs
  split_ifs at hs
  rw [← Option.some.inj hs]
  have h1 : Marcos c (s.conEspacio (Copia.copiar s.espacioUsuario (inicioMarco c w.numeroMarco + d) 4
      (Copia.palabra dato))) fin := h.marcos.congr rfl rfl rfl rfl
  have h2 : ((s.conEspacio (Copia.copiar s.espacioUsuario (inicioMarco c w.numeroMarco + d) 4
      (Copia.palabra dato))).conPagina q fun p => { p with uso := a p.uso, modificado := true }).pagina =
        Function.update s.pagina q (some { w with uso := true, modificado := true }) := by
    rw [pagina_conPagina, pagina_conEspacio, he.pagina, Option.map_some, ha]
  exact ⟨h1.bits { w with uso := true, modificado := true } he.pagina he.presencia he.presencia rfl rfl
    (largo_conPagina ..) h2 rfl, rfl, largo_conPagina .., q, w, hq, he.pagina, h2⟩

/-- A write, wherever in the page it writes: the page is brought, and then written. -/
theorem escribir_tablas (h : Ve c fin t s0 s v) (hfin : t ∉ fin) {d dato : ℕ}
    (hs : escribirEnPagina c s t p d dato = some (n, s')) : c.tamPagina ≤ d ∧ s' = s ∨
      d < c.tamPagina ∧ ∃ s1 v1, v.traer c p = some v1 ∧ Ve c fin t s0 s1 v1 ∧ Escrita c fin t p s1 s' := by
  have hv := h.vista
  obtain ⟨tt, ht, -⟩ := Option.map_eq_some_iff.mp hv
  unfold escribirEnPagina at hs
  obtain ⟨o, hbus, hs⟩ := Option.bind_eq_some_iff.mp hs
  by_cases hlt : d < c.tamPagina
  · rw [if_pos hlt] at hs
    refine Or.inr ⟨hlt, ?_⟩
    obtain ⟨q, rfl, hs⟩ := Option.bind_eq_some_iff.mp hs
    have hq : dir c s t p = some q := by rw [← join_buscarPaginaEnTablas, hbus]; rfl
    rcases traer_simula h hfin ht hq with ⟨i, w, he, htr⟩ | ⟨⟨w, hw, hp⟩, hnot, htr⟩
    · simp only [he.pagina, he.presencia, if_true, Option.bind_eq_bind, Option.bind_some] at hs
      obtain ⟨s2, h2, hs⟩ := Option.bind_eq_some_iff.mp hs
      cases hs
      exact ⟨s, v, htr, h, escribirMarco_escrita h hq he (a := fun _ => true) rfl h2⟩
    · simp only [hw, hp, Option.bind_eq_bind, Option.bind_some, Bool.false_eq_true, if_false] at hs
      rcases cargar_cases h hfin ht hq hnot with
        ⟨-, h2⟩ | ⟨h2, -⟩ | ⟨s1, v1, tt1, i, w1, h1, h2, h3, ht1, he, hu⟩
      · rw [h2] at hs
        cases hs
      · rw [h2] at hs
        cases hs
      · simp only [h1, Option.bind_some, he.pagina] at hs
        obtain ⟨s2, h4, hs⟩ := Option.bind_eq_some_iff.mp hs
        cases hs
        have hq1 : dir c s1 t p = some q :=
          (h3.marcos.asignada ht1 (List.mem_of_getElem? he.lugar)).1
        exact ⟨s1, v1, htr.trans h2, h3, escribirMarco_escrita h3 hq1 he (a := id) hu h4⟩
  · rw [if_neg hlt] at hs
    exact Or.inl ⟨not_lt.mp hlt, (Prod.mk.inj (Option.some.inj hs)).2.symm⟩

theorem Invariante.iniciar {tam pid : ℕ} (h : Invariante c s fin)
    (hs : iniciarNuevoProceso c s tam pid = some (n, s')) (hn : Numerable s') : Invariante c s' fin := by
  obtain ⟨-, v, hv, hnace⟩ := iniciar_nace hs hn
  obtain ⟨tt, hc, -⟩ := hnace.crea
  refine ⟨h.marcos.crear hc, fun {u tu} hu ht => ?_, fun {u} hu => ?_⟩
  · by_cases hut : u = s.listaTablasDeTablas.length
    · have h1 := hnace.vista
      rw [hut, hc.tabla_nueva] at ht
      cases ht
      rw [vista, hc.tabla_nueva, Option.map_some, Option.some.injEq] at h1
      have h2 : tt.punteroMarcos = v.puntero := by rw [← h1]; rfl
      have h3 : v.puntero = 0 := by
        obtain ⟨_, -, hv⟩ := Option.bind_eq_some_iff.mp hv
        obtain ⟨_, -, hv⟩ := Option.bind_eq_some_iff.mp hv
        obtain ⟨_, -, hv⟩ := Option.bind_eq_some_iff.mp hv
        rw [← Option.some.inj hv]
      rw [hc.asignadas, h2, h3]
      exact acotado_cero c
    · exact h.acotada hu (hc.tabla_vieja hut ▸ ht)
  · obtain ⟨tu, ht, h1⟩ := h.vacia hu
    refine ⟨tu, ?_, h1⟩
    rw [hc.tabla_vieja _, ht]
    rintro rfl
    rw [tabla_of_le (le_refl _)] at ht
    cases ht

theorem Invariante.paso {o : Operacion} (h : Invariante c s fin) (ho : Viva s fin o)
    (hs : ejecutar c s o = some (n, s')) (hn : Numerable s') : Invariante c s' (o.finaliza ++ fin) := by
  cases o with
  | iniciar tam pid => exact h.iniciar hs hn
  | escribir t p d dato =>
    obtain ⟨ht, hfin⟩ := ho t rfl
    obtain ⟨v, hV⟩ := ve_de h.marcos ht
    rcases escribir_tablas hV hfin hs with ⟨-, rfl⟩ | ⟨-, s1, v1, htr, h1, h2⟩
    · exact h
    · refine h.propio h2.marcos hfin (fun u hu => by rw [h2.tabla, h1.ajenas.tabla u hu]) fun tt htt => ?_
      rw [h2.tabla] at htt
      have hA := h.acotada hfin (List.getElem?_eq_getElem ht)
      obtain ⟨h2, h3⟩ := acotado_de hV (List.getElem?_eq_getElem ht)
      obtain ⟨h4, h5⟩ := acotado_de h1 htt
      rw [← h4, ← h5]
      exact traer_acotado (h2 ▸ h3 ▸ hA) htr
  | leer t p d =>
    obtain ⟨ht, hfin⟩ := ho t rfl
    obtain ⟨v, hV⟩ := ve_de h.marcos ht
    obtain ⟨n', v', hl, h1⟩ := leer_estado hV hfin hs
    obtain ⟨h2, h3⟩ := acotado_de hV (List.getElem?_eq_getElem ht)
    exact h.de_ve hfin h1
      (leer_acotado (h2 ▸ h3 ▸ h.acotada hfin (List.getElem?_eq_getElem ht)) hl)
  | buscarMarco t p =>
    obtain ⟨ht, hfin⟩ := ho t rfl
    obtain ⟨v, hV⟩ := ve_de h.marcos ht
    obtain ⟨h2, h3⟩ := acotado_de hV (List.getElem?_eq_getElem ht)
    have hs' : buscarMarcoDePagina c s t p = some (n, s') := hs
    rcases buscarMarco_simula (p := p) hV hfin with ⟨-, h1⟩ | h1
    · rw [h1] at hs'
      cases hs'
    · rw [hs'] at h1
      rcases hb : v.buscarMarco c p with _ | v'
      · rw [hb] at h1
        cases h1
      · rw [hb] at h1
        have h4 : Ve c fin t s s' v' := by cases h1 with | some h1 => exact h1.1
        obtain ⟨b, -, hb⟩ := Option.bind_eq_some_iff.mp hb
        split_ifs at hb
        exact h.de_ve hfin h4
          (traer_acotado (h2 ▸ h3 ▸ h.acotada hfin (List.getElem?_eq_getElem ht)) hb)
  | suspender t =>
    obtain ⟨ht, hfin⟩ := ho t rfl
    obtain ⟨v, hV⟩ := ve_de h.marcos ht
    obtain ⟨⟨b, s1⟩, hs1, he⟩ := Option.map_eq_some_iff.mp hs
    obtain rfl : s1 = s' := (Prod.mk.inj he).2
    have h1 := suspender_simula hV
    rw [hs1] at h1
    rcases hb : v.suspender c with _ | v'
    · rw [hb] at h1
      cases h1
    · rw [hb] at h1
      have h4 : Ve c fin t s s1 v' := by cases h1 with | some h1 => exact h1.2
      obtain ⟨h5, h6⟩ := suspender_vacio hb
      refine h.de_ve hfin h4 ?_
      rw [h5, h6]
      exact acotado_cero c
  | finalizar t =>
    obtain ⟨ht, hfin⟩ := ho t rfl
    obtain ⟨⟨b, s1⟩, hs1, he⟩ := Option.map_eq_some_iff.mp hs
    obtain rfl : s1 = s' := (Prod.mk.inj he).2
    have htt : s.tabla t = some s.listaTablasDeTablas[t] := List.getElem?_eq_getElem ht
    have hmano := (h.acotada hfin htt).mano
    obtain ⟨s2, tt', h1, h2, h3, h4, h5, h6⟩ := finalizarPaginas_simula _ (h.marcos.finalizada t)
      List.mem_cons_self htt rfl
    simp only [finalizarProceso, htt, h1, Option.bind_eq_bind, Option.bind_some, Option.some.injEq,
      Prod.mk.injEq] at hs1
    obtain ⟨-, rfl⟩ := hs1
    refine ⟨h2, fun {u tu} hu htu => ?_, fun {u} hu => ?_⟩
    · have hne : u ≠ t := fun he => hu (List.mem_cons.mpr (Or.inl he))
      exact h.acotada (fun h => hu (List.mem_cons_of_mem t h)) (h3.tabla u hne ▸ htu)
    · by_cases hut : u = t
      · exact ⟨tt', hut ▸ h4, h5, h6 ▸ hmano⟩
      · rw [h3.tabla u hut]
        exact h.vacia ((List.mem_cons.mp hu).resolve_left hut)

/-- **Every run.** -/
theorem corrida_invariante (h : Corrida c s fin) : Invariante c s fin := by
  induction h with
  | @inicio s h =>
    refine ⟨Marcos.inicial h, fun {t tt} _ ht => ?_, fun ht => absurd ht List.not_mem_nil⟩
    rw [MemoriaGlobal.tabla, h.tablas] at ht
    cases ht
  | @paso s fin s' o n h ho hs hn ih => exact ih.paso ho hs hn

/-! ### Runs of a list of requests -/

instance (s : MemoriaGlobal) (fin : List ℕ) (o : Operacion) : Decidable (Viva s fin o) :=
  match h : o.tabla with
  | none => .isTrue fun t ht => by rw [h] at ht; cases ht
  | some t => decidable_of_iff (t < s.listaTablasDeTablas.length ∧ t ∉ fin) <| by
      unfold Viva
      rw [h]
      exact ⟨fun h1 u hu => Option.some.inj hu ▸ h1, fun h1 => h1 t rfl⟩

instance (s : MemoriaGlobal) : Decidable (Numerable s) :=
  decidable_of_iff (s.listaTablasDeTablas.length < 2 ^ 32 ∧ s.listaTablasDePaginas.length ≤ 2 ^ 32)
    ⟨fun h => ⟨h.1, h.2⟩, fun h => ⟨h.tablas, h.paginas⟩⟩

/-- The requests of a list, while they are on live processes and are answered. -/
def correr (c : ConfigMemoria) : List Operacion → MemoriaGlobal × List ℕ → Option (MemoriaGlobal × List ℕ)
  | [], x => some x
  | o :: os, (s, fin) =>
    if Viva s fin o then do
      let (_, s') ← ejecutar c s o
      if Numerable s' then correr c os (s', o.finaliza ++ fin) else none
    else none

theorem correr_corrida : ∀ (os : List Operacion) {x y : MemoriaGlobal × List ℕ},
    Corrida c x.1 x.2 → correr c os x = some y → Corrida c y.1 y.2
  | [], x, y, hx, h => by
    rw [← Option.some.inj h]
    exact hx
  | o :: os, (s, fin), y, hx, h => by
    unfold correr at h
    split_ifs at h with ho
    obtain ⟨⟨n, s'⟩, hs, h⟩ := Option.bind_eq_some_iff.mp h
    dsimp only at h
    split_ifs at h with hn
    exact correr_corrida os (.paso o n hx ho hs hn) h

instance neZero_u32 : NeZero (2 ^ 32 : ℕ) := ⟨by norm_num⟩

/-- 16 frames of 4 bytes. -/
def chica (entradas marcos : Fin (2 ^ 32)) : ConfigMemoria where
  tamMemoria := 64
  tamPagina := 4
  entradasPorTabla := entradas
  marcosPorProceso := marcos
  algoritmoReemplazo := .clock
  tamMemoria_lt := by norm_num
  tamPagina_lt := by norm_num
  entradasPorTabla_lt := entradas.isLt
  marcosPorProceso_lt := marcos.isLt
  tamPagina_pos := by norm_num

def sinProcesos : MemoriaGlobal := ⟨[], [], fun _ => {}, fun _ => 0, fun _ => none⟩

/-- A list of requests from the start. -/
def desdeInicio (c : ConfigMemoria) (os : List Operacion) : Option (MemoriaGlobal × List ℕ) :=
  correr c os (sinProcesos, [])

theorem desdeInicio_corrida {os : List Operacion} {x : MemoriaGlobal × List ℕ}
    (h : desdeInicio c os = some x) : Corrida c x.1 x.2 :=
  correr_corrida os (.inicio ⟨rfl, rfl, fun _ _ => rfl⟩) h

/-! ### Who has each frame -/

/-- Entry `i` of the pages assigned to the process of table `t` is `r`, and the page it
points to is `w`. -/
def Entrada (s : MemoriaGlobal) (t i : ℕ) (r : RegistroAsignado) (w : Pagina) : Prop :=
  ∃ tt, s.tabla t = some tt ∧ tt.paginasAsignadas[i]? = some r ∧ s.pagina r.paginaAsignada = some w

/-- Page `p` of the process of table `t` is `w`, at `q`. -/
def EsPagina (c : ConfigMemoria) (s : MemoriaGlobal) (t p : ℕ) (q : ℕ × ℕ) (w : Pagina) : Prop :=
  buscarPaginaEnTablas c s t p = some (some q) ∧ s.pagina q = some w

/-- The four structures agree; the processes of the tables in `fin` are finished. -/
structure Duenos (c : ConfigMemoria) (s : MemoriaGlobal) (fin : List ℕ) : Prop where
  unico : ∀ {t t' i i' r r' w w'}, Entrada s t i r w → Entrada s t' i' r' w' →
    w.numeroMarco = w'.numeroMarco → t = t' ∧ i = i'
  marco : ∀ {t i r w}, Entrada s t i r w → w.numeroMarco < c.cantidad
  asignado : ∀ f < c.cantidad, (s.registroEspacioUsuario f).asignado = true ↔
    ∃ t i r w, Entrada s t i r w ∧ w.numeroMarco = f
  presencia : ∀ {t p q w}, t ∉ fin → EsPagina c s t p q w →
    (w.presencia = true ↔ ∃! i, ∃ r, Entrada s t i r w ∧ r.paginaAsignada = q)
  numero : ∀ {t p q w i r}, EsPagina c s t p q w → Entrada s t i r w → r.paginaAsignada = q →
    r.numeroPagina = p
  registro : ∀ {t p q w}, t ∉ fin → EsPagina c s t p q w → w.presencia = true →
    s.registroEspacioUsuario w.numeroMarco = ⟨true, t, p⟩
  registrado : ∀ {f t p}, f < c.cantidad → s.registroEspacioUsuario f = ⟨true, t, p⟩ →
    ∃ q w, EsPagina c s t p q w ∧ w.presencia = true ∧ w.numeroMarco = f
  bits : ∀ {t p q w}, EsPagina c s t p q w → w.presencia = false → w.uso = false ∧ w.modificado = false
  tope : ∀ {t tt}, s.tabla t = some tt → tt.paginasAsignadas.length ≤ c.marcosPorProceso
  mano : ∀ {t tt}, s.tabla t = some tt → 0 < c.marcosPorProceso → tt.punteroMarcos < c.marcosPorProceso
  lugar : ∀ {t tt}, t ∉ fin → s.tabla t = some tt → tt.paginasAsignadas.length < c.marcosPorProceso →
    tt.punteroMarcos = tt.paginasAsignadas.length

theorem esPagina_dir {q : ℕ × ℕ} {w : Pagina} (h : EsPagina c s t p q w) : dir c s t p = some q := by
  rw [← join_buscarPaginaEnTablas, h.1]
  rfl

theorem esPagina_of_dir {q : ℕ × ℕ} {w : Pagina} (h : dir c s t p = some q) (hw : s.pagina q = some w) :
    EsPagina c s t p q w := by
  rw [← join_buscarPaginaEnTablas] at h
  exact ⟨Option.join_eq_some_iff.mp h, hw⟩

theorem Invariante.duenos (h : Invariante c s fin) : Duenos c s fin where
  unico {t t' i i' r r' w w'} h1 h2 hf := by
    obtain ⟨tt, ht, hr, hw⟩ := h1
    obtain ⟨tt', ht', hr', hw'⟩ := h2
    obtain ⟨rfl, rfl⟩ := h.marcos.exclusivo ht (List.mem_of_getElem? hr) hw ht'
      (List.mem_of_getElem? hr') hw' hf
    rw [ht] at ht'
    cases ht'
    refine ⟨rfl, ?_⟩
    have hnd := (h.marcos.nodup ht).of_map
    have hi := List.getElem?_eq_some_iff.mp hr
    obtain ⟨hi, -⟩ := hi
    exact (List.getElem?_inj hi hnd).mp (hr.trans hr'.symm)
  marco {t i r w} h1 := by
    obtain ⟨tt, ht, hr, hw⟩ := h1
    obtain ⟨-, w', hw', -, hf, -⟩ := h.marcos.asignada ht (List.mem_of_getElem? hr)
    rw [hw] at hw'
    cases hw'
    exact hf
  asignado f hf := by
    constructor
    · intro hg
      obtain ⟨t, tt, r, w, ht, hr, hw, hm⟩ := h.marcos.ocupado f hf hg
      obtain ⟨i, hi⟩ := List.getElem?_of_mem hr
      exact ⟨t, i, r, w, ⟨tt, ht, hi, hw⟩, hm⟩
    · rintro ⟨t, i, r, w, ⟨tt, ht, hr, hw⟩, rfl⟩
      obtain ⟨-, w', hw', -, -, hg⟩ := h.marcos.asignada ht (List.mem_of_getElem? hr)
      rw [hw] at hw'
      cases hw'
      rw [hg]
  presencia {t p q w} hfin h1 := by
    have hd := esPagina_dir h1
    obtain ⟨tt, ht, -⟩ := Option.bind_eq_some_iff.mp hd
    constructor
    · intro hp
      obtain ⟨i, hi⟩ := List.getElem?_of_mem (h.marcos.presente hfin ht hd h1.2 hp)
      refine ⟨i, ⟨⟨p, q⟩, ⟨tt, ht, hi, h1.2⟩, rfl⟩, ?_⟩
      rintro j ⟨r, ⟨tt', ht', hj, hw⟩, hq⟩
      rw [ht] at ht'
      cases ht'
      obtain ⟨-, he⟩ := h.marcos.mismo ht (List.mem_of_getElem? hj) ht (List.mem_of_getElem? hi) hq
      obtain ⟨hjl, -⟩ := List.getElem?_eq_some_iff.mp hj
      exact (List.getElem?_inj hjl (h.marcos.nodup ht).of_map).mp (by rw [hj, he, hi])
    · rintro ⟨i, ⟨r, ⟨tt', ht', hr, hw⟩, hq⟩, -⟩
      obtain ⟨-, w', hw', hp, -⟩ := h.marcos.asignada ht' (List.mem_of_getElem? hr)
      rw [hw] at hw'
      cases hw'
      exact hp
  numero {t p q w i r} h1 h2 hq := by
    obtain ⟨tt, ht, hr, -⟩ := h2
    obtain ⟨hd, -⟩ := h.marcos.asignada ht (List.mem_of_getElem? hr)
    exact (h.marcos.distintas hd (hq ▸ esPagina_dir h1)).2
  registro {t p q w} hfin h1 hp := by
    have hd := esPagina_dir h1
    obtain ⟨tt, ht, -⟩ := Option.bind_eq_some_iff.mp hd
    obtain ⟨-, w', hw', -, -, hg⟩ := h.marcos.asignada ht (h.marcos.presente hfin ht hd h1.2 hp)
    rw [h1.2] at hw'
    cases hw'
    exact hg
  registrado {f t p} hf hg := by
    obtain ⟨t', tt, r, w, ht, hr, hw, rfl⟩ := h.marcos.ocupado f hf (by rw [hg])
    obtain ⟨hd, w', hw', hp, -, hg'⟩ := h.marcos.asignada ht hr
    rw [hw] at hw'
    cases hw'
    rw [hg] at hg'
    obtain ⟨rfl, rfl⟩ : t = t' ∧ p = r.numeroPagina := by simpa using hg'
    exact ⟨r.paginaAsignada, w, esPagina_of_dir hd hw, hp, rfl⟩
  bits {t p q w} h1 hp := h.marcos.ausente (esPagina_dir h1) h1.2 hp
  tope {t tt} ht := by
    by_cases hfin : t ∈ fin
    · obtain ⟨tt', ht', h1, -⟩ := h.vacia hfin
      rw [ht] at ht'
      cases ht'
      simp [h1]
    · exact (h.acotada hfin ht).tope
  mano {t tt} ht := by
    by_cases hfin : t ∈ fin
    · obtain ⟨tt', ht', -, h1⟩ := h.vacia hfin
      rw [ht] at ht'
      cases ht'
      exact h1
    · exact (h.acotada hfin ht).mano
  lugar {t tt} hfin ht hl := (h.acotada hfin ht).lugar hl

/-- **Who has each frame**, in every run. -/
theorem corrida_duenos (h : Corrida c s fin) : Duenos c s fin := (corrida_invariante h).duenos

theorem corrida_duenos_dosPaginas : ∃ x, desdeInicio (chica 2 2)
    [.iniciar 12 0, .escribir 0 1 0 7, .leer 0 0 0, .leer 0 2 0, .suspender 0, .leer 0 1 0] = some x ∧
      Duenos (chica 2 2) x.1 x.2 := by
  obtain ⟨x, hx⟩ := Option.isSome_iff_exists.mp (show (desdeInicio (chica 2 2)
    [.iniciar 12 0, .escribir 0 1 0 7, .leer 0 0 0, .leer 0 2 0, .suspender 0, .leer 0 1 0]).isSome
    by decide +kernel)
  exact ⟨x, hx, corrida_duenos (desdeInicio_corrida hx)⟩

/-- The finished processes that a run has, with what is left of them. -/
def quedan (x : MemoriaGlobal × List ℕ) : List ℕ × Option (ℕ × ℕ) :=
  (x.2, (x.1.tabla 0).map fun tt => (tt.paginasAsignadas.length, tt.punteroMarcos))

/-- A process that ends keeps its hand where it was, and with no frames for a process the
hand has no place. -/
theorem not_mano :
    (¬ ∀ (c : ConfigMemoria) (s : MemoriaGlobal) (fin : List ℕ), Corrida c s fin →
      0 < c.marcosPorProceso → ∀ t tt, s.tabla t = some tt →
        tt.paginasAsignadas.length < c.marcosPorProceso → tt.punteroMarcos = tt.paginasAsignadas.length) ∧
    ¬ ∀ (c : ConfigMemoria) (s : MemoriaGlobal) (fin : List ℕ), Corrida c s fin →
      ∀ t tt, t ∉ fin → s.tabla t = some tt → tt.punteroMarcos < c.marcosPorProceso := by
  constructor
  · intro h
    obtain ⟨x, hx, h1⟩ := Option.map_eq_some_iff.mp (show (desdeInicio (chica 2 2)
      [.iniciar 4 0, .leer 0 0 0, .finalizar 0]).map quedan = some ([0], some (0, 1)) by decide +kernel)
    obtain ⟨tt, ht, h2⟩ := Option.map_eq_some_iff.mp (Prod.mk.inj h1).2
    obtain ⟨h3, h4⟩ := Prod.mk.inj h2
    have h5 := h _ _ _ (desdeInicio_corrida hx) (by decide +kernel) 0 tt ht (by rw [h3]; decide +kernel)
    rw [h3, h4] at h5
    cases h5
  · intro h
    obtain ⟨x, hx, h1⟩ := Option.map_eq_some_iff.mp (show (desdeInicio (chica 2 0)
      [.iniciar 4 0]).map quedan = some ([], some (0, 0)) by decide +kernel)
    obtain ⟨hfin, h1⟩ := Prod.mk.inj h1
    obtain ⟨tt, ht, -⟩ := Option.map_eq_some_iff.mp h1
    exact absurd (h _ _ _ (desdeInicio_corrida hx) 0 tt (by rw [hfin]; exact List.not_mem_nil) ht)
      (Nat.not_lt_zero _)

end Memoria
end Kiss
