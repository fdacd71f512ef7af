/-
# CLOCK is second-chance FIFO

The pages of a process from its hand on are the queue of second-chance FIFO: whoever asks
for what, the page faults of the process, their victims and the pages that it has in memory
are those of the queue, run by its accesses and suspensions alone.

Key definitions: `presente`, `victimaDe`, `Historia`, `colaDe`.
Key theorems: `acceder_traer`, `historia_cola`, `historia_segundaOportunidad`.
-/
import Kiss.Memoria.SegundaOportunidad
import Kiss.Memoria.Victimas
import Kiss.Memoria.Vistas

namespace Kiss
namespace Memoria

open Reloj (avanzar)
open SegundaOportunidad

/-! ### What is seen of a process -/

/-- The page is in memory. -/
def presente (c : ConfigMemoria) (s : MemoriaGlobal) (t p : ℕ) : Bool :=
  ((dir c s t p).bind s.pagina).any (·.presencia)

/-- The page whose frame is taken for page `p`, if it is not in memory and the process has
all its frames. -/
def victimaDe (c : ConfigMemoria) (s : MemoriaGlobal) (t p : ℕ) : Option ℕ := do
  let tt ← s.tabla t
  if presente c s t p || decide (tt.paginasAsignadas.length < c.marcosPorProceso) then none
  else
    let s ← seleccionarPaginaVictima c s t
    let tt ← s.tabla t
    let victima ← tt.paginasAsignadas[tt.punteroMarcos]?
    some victima.numeroPagina

/-- The reads, the writes and the suspensions. -/
def Operacion.accede : Operacion → Bool
  | .leer _ _ _ | .escribir _ _ _ _ | .suspender _ => true
  | _ => false

/-- What is seen of a request on table `t` that went from `s` to `s'`; nothing, when the
displacement is refused. -/
def Operacion.sucesos (c : ConfigMemoria) (s s' : MemoriaGlobal) (t : ℕ) : Operacion → List (Suceso ℕ)
  | .leer _ p d | .escribir _ p d _ =>
    if d < c.tamPagina then [⟨.acceso p, !presente c s t p, victimaDe c s t p, presente c s' t⟩] else []
  | .suspender _ => [⟨.suspension, false, none, presente c s' t⟩]
  | _ => []

/-- A process from its creation on: its reads, writes and suspensions, and whatever the
others do. -/
inductive Historia (c : ConfigMemoria) (t : ℕ) : MemoriaGlobal → List ℕ → List (Suceso ℕ) → Prop
  | crear {s fin s'} (tam pid : ℕ) (h : Corrida c s fin)
      (hs : ejecutar c s (.iniciar tam pid) = some (t, s')) (hn : Numerable s') : Historia c t s' fin []
  | propio {s fin s' l} (o : Operacion) (n : ℕ) (h : Historia c t s fin l) (ho : o.tabla = some t)
      (ha : o.accede = true) (hs : ejecutar c s o = some (n, s')) (hn : Numerable s') :
      Historia c t s' fin (l ++ o.sucesos c s s' t)
  | ajeno {s fin s' l} (o : Operacion) (n : ℕ) (h : Historia c t s fin l) (ho : Viva s fin o)
      (ht : o.tabla ≠ some t) (hs : ejecutar c s o = some (n, s')) (hn : Numerable s') :
      Historia c t s' (o.finaliza ++ fin) l

/-! ### The queue of a process -/

variable {c : ConfigMemoria} {s s' s0 : MemoriaGlobal} {t u p n : ℕ} {fin : List ℕ} {v v' : Proceso}
  {tt tu : TablaPrimerNivel} {o : Operacion}

/-- What the queue has of a page. -/
def numeroYUso (r : Residente) : ℕ × Bool := (r.numeroPagina, r.uso)

namespace Proceso

/-- The pages from the hand on. -/
def cola (v : Proceso) : List (ℕ × Bool) := (v.residentes.map numeroYUso).rotate v.puntero

/-- Who leaves for page `p`. -/
def victimaDe (c : ConfigMemoria) (v : Proceso) (p : ℕ) : Option ℕ :=
  if (v.residente p).isSome ∨ v.residentes.length < c.marcosPorProceso then none
  else (v.victima c).bind fun x => x.1[x.2]?.map (·.numeroPagina)

end Proceso

theorem mem_cola : p ∈ v.cola.map (·.1) ↔ (v.residente p).isSome := by
  rw [Proceso.cola, List.map_rotate, List.mem_rotate, Proceso.residente, List.find?_isSome, List.map_map]
  simp only [List.mem_map, Function.comp_apply, numeroYUso, decide_eq_true_eq]

theorem cola_conResidente (f : Residente → Residente) (hf : ∀ r, numeroYUso (f r) = (r.numeroPagina, true)) :
    (v.conResidente p f).cola = marcar p v.cola := by
  unfold Proceso.cola Proceso.conResidente marcar
  dsimp only
  rw [List.map_rotate, List.map_map, List.map_map]
  congr 1
  apply List.map_congr_left
  intro r _
  simp only [Function.comp_apply]
  by_cases hp : r.numeroPagina = p
  · rw [if_pos hp, hf, if_pos (show (numeroYUso r).1 = p from hp), hp]
  · rw [if_neg hp, if_neg (show ¬ (numeroYUso r).1 = p from hp)]

/-- Loading a page is a fault of the queue. -/
theorem acceder_cargar (hc : c.algoritmoReemplazo = .clock) (hm : 1 ≤ c.marcosPorProceso)
    (hA : Acotado c v.residentes.length v.puntero) (hp : v.residente p = none)
    (h : v.cargar c p = some v') :
    acceder c.marcosPorProceso v.cola p = some (true, v.victimaDe c p, v'.cola) := by
  have hnot : p ∉ v.cola.map (·.1) := by
    rw [mem_cola, hp]
    exact Bool.false_ne_true
  have hlen : v.cola.length = v.residentes.length := by
    rw [Proceso.cola, List.length_rotate, List.length_map]
  unfold acceder Proceso.victimaDe
  rw [if_neg hnot, hlen, hp]
  unfold Proceso.cargar at h
  by_cases hl : v.residentes.length < c.marcosPorProceso
  · rw [if_pos hl] at h
    rw [if_pos hl, if_pos (Or.inr hl)]
    obtain ⟨dato, -, h⟩ := Option.bind_eq_some_iff.mp h
    rw [← Option.some.inj h]
    have h1 : v.cola = v.residentes.map numeroYUso := by
      rw [Proceso.cola, hA.lugar hl,
        ← (List.length_map numeroYUso : (v.residentes.map numeroYUso).length = _), List.rotate_length]
    -- with the new page the hand is at the end, or back at the start
    have h2 : ∀ r : Residente, ((v.residentes ++ [r]).map numeroYUso).rotate
        (avanzar c.marcosPorProceso v.puntero) = (v.residentes ++ [r]).map numeroYUso := by
      intro r
      unfold avanzar
      by_cases he : v.puntero + 1 = c.marcosPorProceso
      · rw [if_pos he, List.rotate_zero]
      · have h3 : v.puntero + 1 = ((v.residentes ++ [r]).map numeroYUso).length := by
          rw [List.length_map, List.length_append, List.length_singleton, hA.lugar hl]
        rw [if_neg he, h3, List.rotate_length]
    rw [h1, Proceso.cola, h2, List.map_append]
    rfl
  · rw [if_neg hl] at h
    rw [if_neg hl, if_neg (by rintro (h1 | h1); exact absurd h1 Bool.false_ne_true; exact hl h1)]
    obtain ⟨⟨l, i⟩, hvic, h⟩ := Option.bind_eq_some_iff.mp h
    obtain ⟨r, hr, h⟩ := Option.bind_eq_some_iff.mp h
    obtain ⟨v1, hv1, h⟩ := Option.bind_eq_some_iff.mp h
    obtain ⟨dato, -, h⟩ := Option.bind_eq_some_iff.mp h
    obtain ⟨h1, -⟩ := length_guardar hv1
    rw [← Option.some.inj h]
    have hfull : v.residentes.length = c.marcosPorProceso := le_antisymm hA.tope (not_lt.mp hl)
    have hclock : Reloj.clock (enLista (fun r => (r.uso, r.modificado)) fun r => { r with uso := false })
        c.marcosPorProceso (c.marcosPorProceso + 1) v.residentes v.puntero = some (l, i) := by
      unfold Proceso.victima at hvic
      rw [hc] at hvic
      exact hvic
    obtain ⟨x, h2, h3, h4, h5⟩ := clock_echar (f := numeroYUso) (fun _ => rfl) (fun _ => rfl) hfull
      (hA.mano hm) hclock
    have h6 : (l.set i ⟨p, true, false, dato⟩).rotate (avanzar c.marcosPorProceso i) =
        (l.drop (i + 1) ++ l.take i) ++ [⟨p, true, false, dato⟩] :=
      h3 ▸ rotate_avanzar_set (h3.symm ▸ h4) _
    rw [show v.cola = (v.residentes.map numeroYUso).rotate v.puntero from rfl, h5, Option.map_some, hvic,
      Option.bind_some, h2, Option.map_some]
    simp only [Proceso.cola, h1, ← List.map_rotate, h6, List.map_append, List.map_singleton]
    rfl

/-- **Bringing a page** and using it is an access to the queue. -/
theorem acceder_traer (hc : c.algoritmoReemplazo = .clock) (hm : 1 ≤ c.marcosPorProceso)
    (hA : Acotado c v.residentes.length v.puntero) (hn : (v'.residentes.map (·.numeroPagina)).Nodup)
    (h : v.traer c p = some v') : acceder c.marcosPorProceso v.cola p =
      some (!(v.residente p).isSome, v.victimaDe c p, marcar p v'.cola) := by
  unfold Proceso.traer at h
  rcases hp : v.residente p with _ | r
  · rw [hp] at h
    rw [if_neg (by rw [Option.isSome_none]; exact Bool.false_ne_true)] at h
    rw [acceder_cargar hc hm hA hp h]
    have h1 : marcar p v'.cola = v'.cola := by
      obtain ⟨i, dato, hi⟩ := cargada h
      unfold marcar Proceso.cola
      rw [List.map_rotate, List.map_map]
      congr 1
      apply List.map_congr_left
      intro y hy
      simp only [Function.comp_apply]
      by_cases hyp : y.numeroPagina = p
      · obtain ⟨j, hj⟩ := List.mem_iff_getElem?.mp hy
        have h2 := residente_eq hn hj hyp
        rw [residente_eq hn hi rfl] at h2
        rw [if_pos (show (numeroYUso y).1 = p from hyp), ← Option.some.inj h2]
        rfl
      · exact if_neg hyp
    rw [h1]
    rfl
  · rw [hp, if_pos Option.isSome_some] at h
    rw [← Option.some.inj h]
    have h1 : p ∈ v.cola.map (·.1) := mem_cola.mpr (by rw [hp]; rfl)
    unfold acceder Proceso.victimaDe
    rw [if_pos h1, hp, if_pos (Or.inl Option.isSome_some)]
    rfl

/-! ### The queue in the tables -/

/-- The pages assigned to a process from its hand on. -/
def colaDe (s : MemoriaGlobal) (tt : TablaPrimerNivel) : List (ℕ × Bool) :=
  (tt.paginasAsignadas.map fun r => (r.numeroPagina, (s.pagina r.paginaAsignada).any (·.uso))).rotate
    tt.punteroMarcos

theorem colaDe_eq (h : Ve c fin t s0 s v) (ht : s.tabla t = some tt) : colaDe s tt = v.cola := by
  rw [h.vista_eq ht]
  unfold colaDe Proceso.cola vistaDe
  rw [List.map_map]
  congr 1
  apply List.map_congr_left
  intro r _
  simp only [Function.comp_apply, residente, numeroYUso]
  rcases s.pagina r.paginaAsignada with _ | w <;> rfl

theorem colaDe_congr (h : ∀ r ∈ tt.paginasAsignadas, s'.pagina r.paginaAsignada = s.pagina r.paginaAsignada) :
    colaDe s' tt = colaDe s tt := by
  unfold colaDe
  congr 1
  apply List.map_congr_left
  intro r hr
  rw [h r hr]

theorem presente_eq (h : Ve c fin t s0 s v) (hfin : t ∉ fin) (ht : s.tabla t = some tt) (p : ℕ) :
    presente c s t p = (v.residente p).isSome := by
  obtain ⟨h1, -⟩ := nodup_residentes h ht
  have h2 : (v.residente p).isSome ↔ p ∈ tt.paginasAsignadas.map (·.numeroPagina) := by
    rw [← h1, Proceso.residente, List.find?_isSome]
    simp only [List.mem_map, decide_eq_true_eq]
  apply Bool.eq_iff_iff.mpr
  rw [h2]
  constructor
  · intro hp
    obtain ⟨w, hw, hp⟩ := (Option.any_eq_true _ _).mp hp
    obtain ⟨q, hq, hw⟩ := Option.bind_eq_some_iff.mp hw
    exact List.mem_map.mpr ⟨⟨p, q⟩, h.marcos.presente hfin ht hq hw hp, rfl⟩
  · intro hp
    obtain ⟨r, hr, rfl⟩ := List.mem_map.mp hp
    obtain ⟨hd, w, hw, hpres, -⟩ := h.marcos.asignada ht hr
    rw [presente, hd, Option.bind_some, hw]
    exact hpres

theorem residentes_colaDe (h : Ve c fin t s0 s v) (hfin : t ∉ fin) (ht : s.tabla t = some tt) :
    residentes (colaDe s tt) = presente c s t := by
  funext p
  rw [presente_eq h hfin ht, colaDe_eq h ht]
  apply Bool.eq_iff_iff.mpr
  rw [residentes, decide_eq_true_eq, mem_cola]

theorem victimaDe_eq (h : Ve c fin t s0 s v) (hfin : t ∉ fin) (ht : s.tabla t = some tt) (p : ℕ) :
    victimaDe c s t p = v.victimaDe c p := by
  obtain ⟨hlen, -⟩ := acotado_de h ht
  unfold victimaDe Proceso.victimaDe
  simp only [ht, Option.bind_eq_bind, Option.bind_some, presente_eq h hfin ht p, hlen, Bool.or_eq_true,
    decide_eq_true_eq]
  by_cases hc : (v.residente p).isSome ∨ tt.paginasAsignadas.length < c.marcosPorProceso
  · rw [if_pos hc, if_pos hc]
  rw [if_neg hc, if_neg hc]
  have h1 := seleccionar_simula h ht
  revert h1
  generalize seleccionarPaginaVictima c s t = x
  generalize v.victima c = y
  intro h1
  cases h1 with
  | none => rfl
  | @some s1 y h1 =>
    obtain ⟨h1, h2⟩ := h1
    obtain ⟨h3, -⟩ := nodup_residentes h1 h2
    have h4 := congrArg (·[y.2]?) h3
    simp only [List.getElem?_map] at h4
    rw [Option.bind_some, Option.bind_some, h2, Option.bind_some, h4]
    rcases tt.paginasAsignadas[y.2]? with _ | r <;> rfl

/-! ### Requests on the queue -/

/-- A word written for page `p` sets its bit. -/
theorem colaDe_escrita (hm : Marcos c s fin) (ht : s.tabla t = some tt) (h : Escrita c fin t p s s') :
    colaDe s' tt = marcar p (colaDe s tt) := by
  obtain ⟨q, w, hq, hw, hpag⟩ := h.pagina
  unfold colaDe marcar
  rw [List.map_rotate, List.map_map]
  congr 1
  apply List.map_congr_left
  intro r hr
  obtain ⟨hd, -⟩ := hm.asignada ht hr
  simp only [Function.comp_apply, hpag]
  by_cases hp : r.numeroPagina = p
  · rw [hp, hq, Option.some.injEq] at hd
    rw [if_pos hp, ← hd, Function.update_self, hp]
    rfl
  · rw [if_neg hp, Function.update_of_ne]
    intro he
    rw [he] at hd
    exact hp (hm.distintas hd hq).2

/-- What an access leaves, and what was seen of it. -/
def Accede (c : ConfigMemoria) (s s' : MemoriaGlobal) (t : ℕ) (tt : TablaPrimerNivel) (p : ℕ) : Prop :=
  ∃ tt', s'.tabla t = some tt' ∧ acceder c.marcosPorProceso (colaDe s tt) p =
    some (!presente c s t p, victimaDe c s t p, colaDe s' tt')

theorem leer_accede {d : ℕ} (hi : Invariante c s fin) (hc : c.algoritmoReemplazo = .clock)
    (hm : 1 ≤ c.marcosPorProceso) (hfin : t ∉ fin) (ht : s.tabla t = some tt) (hd : d < c.tamPagina)
    (hs : leerEnPagina c s t p d = some (n, s')) : Accede c s s' t tt p := by
  obtain ⟨hlt, -⟩ := List.getElem?_eq_some_iff.mp ht
  obtain ⟨v, hV⟩ := ve_de hi.marcos hlt
  have hA := hi.acotada hfin ht
  obtain ⟨h1, h2⟩ := acotado_de hV ht
  rw [← h1, ← h2] at hA
  obtain ⟨n', v', hl, hV'⟩ := leer_estado hV hfin hs
  obtain ⟨tt', ht', -⟩ := Option.map_eq_some_iff.mp hV'.vista
  obtain ⟨b, -, hl⟩ := Option.bind_eq_some_iff.mp hl
  rw [if_neg (not_le.mpr hd)] at hl
  split_ifs at hl
  obtain ⟨v1, htr, hl⟩ := Option.bind_eq_some_iff.mp hl
  obtain ⟨r, -, hl⟩ := Option.bind_eq_some_iff.mp hl
  obtain ⟨-, rfl⟩ := Prod.mk.inj (Option.some.inj hl)
  have hnum : (v1.conResidente p fun r => { r with uso := true }).residentes.map (·.numeroPagina) =
      v1.residentes.map (·.numeroPagina) := by
    unfold Proceso.conResidente
    rw [List.map_map]
    apply List.map_congr_left
    intro r _
    simp only [Function.comp_apply]
    split_ifs <;> rfl
  obtain ⟨-, hn⟩ := nodup_residentes hV' ht'
  rw [hnum] at hn
  refine ⟨tt', ht', ?_⟩
  rw [colaDe_eq hV ht, colaDe_eq hV' ht', presente_eq hV hfin ht, victimaDe_eq hV hfin ht,
    acceder_traer hc hm hA hn htr, cola_conResidente _ fun _ => rfl]

theorem escribir_accede {d dato : ℕ} (hi : Invariante c s fin) (hc : c.algoritmoReemplazo = .clock)
    (hm : 1 ≤ c.marcosPorProceso) (hfin : t ∉ fin) (ht : s.tabla t = some tt) (hd : d < c.tamPagina)
    (hs : escribirEnPagina c s t p d dato = some (n, s')) : Accede c s s' t tt p := by
  obtain ⟨hlt, -⟩ := List.getElem?_eq_some_iff.mp ht
  obtain ⟨v, hV⟩ := ve_de hi.marcos hlt
  have hA := hi.acotada hfin ht
  obtain ⟨h1, h2⟩ := acotado_de hV ht
  rw [← h1, ← h2] at hA
  rcases escribir_tablas hV hfin hs with ⟨h3, -⟩ | ⟨-, s1, v1, htr, hV1, hE⟩
  · exact absurd hd (not_lt.mpr h3)
  obtain ⟨tt', ht', -⟩ := Option.map_eq_some_iff.mp hV1.vista
  obtain ⟨-, hn⟩ := nodup_residentes hV1 ht'
  refine ⟨tt', by rw [hE.tabla, ht'], ?_⟩
  rw [colaDe_escrita hV1.marcos ht' hE, colaDe_eq hV ht, colaDe_eq hV1 ht', presente_eq hV hfin ht,
    victimaDe_eq hV hfin ht, acceder_traer hc hm hA hn htr]

theorem suspender_cola {b : Bool} (hi : Invariante c s fin) (ht : s.tabla t = some tt)
    (hs : suspenderProceso c s t = some (b, s')) : ∃ tt', s'.tabla t = some tt' ∧ colaDe s' tt' = [] := by
  obtain ⟨hlt, -⟩ := List.getElem?_eq_some_iff.mp ht
  obtain ⟨v, hV⟩ := ve_de hi.marcos hlt
  have h1 := suspender_simula hV
  rw [hs] at h1
  rcases hv : v.suspender c with _ | v'
  · rw [hv] at h1
    cases h1
  · rw [hv] at h1
    have hV' : Ve c fin t s s' v' := by cases h1 with | some h1 => exact h1.2
    obtain ⟨tt', ht', -⟩ := Option.map_eq_some_iff.mp hV'.vista
    obtain ⟨h2, -⟩ := suspender_vacio hv
    refine ⟨tt', ht', ?_⟩
    rw [colaDe_eq hV' ht', Proceso.cola, h2]
    rfl

/-- The others leave the tables of a process as they are, wherever in the user space they write. -/
theorem ejecutar_paginas (hi : Invariante c s fin) (ho : Viva s fin o) (hne : o.tabla ≠ some t)
    (ht : s.tabla t = some tt) (hs : ejecutar c s o = some (n, s')) (hn : Numerable s') :
    s'.tabla t = some tt ∧ ∀ p q, dir c s t p = some q → s'.pagina q = s.pagina q := by
  obtain ⟨hlt, -⟩ := List.getElem?_eq_some_iff.mp ht
  have hajena : ∀ {u}, u ≠ t → Ajenas c u s s' →
      s'.tabla t = some tt ∧ ∀ p q, dir c s t p = some q → s'.pagina q = s.pagina q := by
    intro u hu h
    exact ⟨by rw [h.tabla t (Ne.symm hu), ht], fun p q hq => h.pagina t p q (Ne.symm hu) hq⟩
  cases o with
  | iniciar tam pid =>
    obtain ⟨-, v, -, hnace⟩ := iniciar_nace hs hn
    obtain ⟨tn, hcr, -⟩ := hnace.crea
    refine ⟨by rw [hcr.tabla_vieja hlt.ne, ht], fun p q hq => ?_⟩
    exact hcr.pagina_vieja (hi.marcos.creadas ht (dir_mem ht hq))
  | escribir u p d dato =>
    obtain ⟨hu, hfu⟩ := ho u rfl
    have hut : u ≠ t := fun he => hne (by rw [he]; rfl)
    obtain ⟨v, hV⟩ := ve_de hi.marcos hu
    rcases escribir_tablas hV hfu hs with ⟨-, rfl⟩ | ⟨-, s1, v1, -, hV1, hE⟩
    · exact ⟨ht, fun _ _ _ => rfl⟩
    · have h1 := hV1.ajenas
      refine ⟨by rw [hE.tabla, h1.tabla t (Ne.symm hut), ht], fun p' q hq => ?_⟩
      obtain ⟨q', w, hq', -, hpag⟩ := hE.pagina
      rw [hpag, Function.update_of_ne, h1.pagina t p' q (Ne.symm hut) hq]
      rintro rfl
      rw [h1.dir] at hq'
      exact hut (hi.marcos.distintas hq' hq).1
  | leer u p d => exact hajena (fun he => hne (by rw [he]; rfl)) (ejecutar_ajenas hi.marcos ho rfl trivial hs)
  | buscarMarco u p =>
    exact hajena (fun he => hne (by rw [he]; rfl)) (ejecutar_ajenas hi.marcos ho rfl trivial hs)
  | suspender u => exact hajena (fun he => hne (by rw [he]; rfl)) (ejecutar_ajenas hi.marcos ho rfl trivial hs)
  | finalizar u => exact hajena (fun he => hne (by rw [he]; rfl)) (ejecutar_ajenas hi.marcos ho rfl trivial hs)

/-! ### Runs -/

/-- What a process has done so far is a run of the queue, and the queue is that of its tables. -/
structure EnCola (c : ConfigMemoria) (s : MemoriaGlobal) (fin : List ℕ) (t : ℕ) (l : List (Suceso ℕ)) :
    Prop where
  corrida : Corrida c s fin
  viva : t ∉ fin
  cola : ∃ tt, s.tabla t = some tt ∧
    reproducir c.marcosPorProceso [] (l.map (·.accion)) = some (l, colaDe s tt)

theorem EnCola.propio {l : List (Suceso ℕ)} (hc : c.algoritmoReemplazo = .clock)
    (hm : 1 ≤ c.marcosPorProceso) (h : EnCola c s fin t l) (ho : o.tabla = some t) (ha : o.accede = true)
    (hs : ejecutar c s o = some (n, s')) (hn : Numerable s') :
    EnCola c s' fin t (l ++ o.sucesos c s s' t) := by
  obtain ⟨hr, hfin, tt, ht, hcola⟩ := h
  have hi := corrida_invariante hr
  obtain ⟨hlt, -⟩ := List.getElem?_eq_some_iff.mp ht
  have hviva : Viva s fin o := by
    intro u hu
    rw [ho] at hu
    cases hu
    exact ⟨hlt, hfin⟩
  have hr' : Corrida c s' fin := by
    have h1 := hr.paso o n hviva hs hn
    cases o with
    | finalizar u => cases ha
    | _ => exact h1
  have hV' : ∀ {tt'}, s'.tabla t = some tt' → residentes (colaDe s' tt') = presente c s' t := by
    intro tt' ht'
    obtain ⟨hlt', -⟩ := List.getElem?_eq_some_iff.mp ht'
    obtain ⟨v', hV'⟩ := ve_de (corrida_invariante hr').marcos hlt'
    exact residentes_colaDe hV' hfin ht'
  -- an access that is not refused, and one that is
  have hacceso : ∀ {p}, Accede c s s' t tt p → EnCola c s' fin t
      (l ++ [⟨.acceso p, !presente c s t p, victimaDe c s t p, presente c s' t⟩]) := by
    rintro p ⟨tt', ht', hacc⟩
    refine ⟨hr', hfin, tt', ht', ?_⟩
    rw [List.map_append]
    apply reproducir_append hcola
    rw [← hV' ht']
    show (acceder _ _ _).map _ = _
    rw [hacc]
    rfl
  have hrechazo : s' = s → EnCola c s' fin t (l ++ []) := by
    intro he
    rw [he, List.append_nil]
    exact ⟨hr, hfin, tt, ht, hcola⟩
  cases o with
  | leer u p d =>
    obtain rfl := Option.some.inj ho
    simp only [Operacion.sucesos]
    by_cases hd : d < c.tamPagina
    · rw [if_pos hd]
      exact hacceso (leer_accede hi hc hm hfin ht hd hs)
    · rw [if_neg hd]
      apply hrechazo
      obtain ⟨o, -, h1⟩ := Option.bind_eq_some_iff.mp hs
      rw [if_pos (not_lt.mp hd)] at h1
      exact (Prod.mk.inj (Option.some.inj h1)).2.symm
  | escribir u p d dato =>
    obtain rfl := Option.some.inj ho
    simp only [Operacion.sucesos]
    by_cases hd : d < c.tamPagina
    · rw [if_pos hd]
      exact hacceso (escribir_accede hi hc hm hfin ht hd hs)
    · rw [if_neg hd]
      apply hrechazo
      obtain ⟨o, -, h1⟩ := Option.bind_eq_some_iff.mp hs
      rw [if_neg hd] at h1
      exact (Prod.mk.inj (Option.some.inj h1)).2.symm
  | suspender u =>
    obtain rfl := Option.some.inj ho
    obtain ⟨⟨b, s1⟩, hs1, he⟩ := Option.map_eq_some_iff.mp hs
    obtain rfl : s1 = s' := (Prod.mk.inj he).2
    obtain ⟨tt', ht', hnil⟩ := suspender_cola hi ht hs1
    refine ⟨hr', hfin, tt', ht', ?_⟩
    unfold Operacion.sucesos
    rw [List.map_append]
    apply reproducir_append hcola
    rw [← hV' ht', hnil]
    rfl
  | iniciar tam pid => cases ho
  | buscarMarco u p => cases ha
  | finalizar u => cases ha

theorem EnCola.ajeno {l : List (Suceso ℕ)} (h : EnCola c s fin t l) (ho : Viva s fin o)
    (hne : o.tabla ≠ some t) (hs : ejecutar c s o = some (n, s')) (hn : Numerable s') :
    EnCola c s' (o.finaliza ++ fin) t l := by
  obtain ⟨hr, hfin, tt, ht, hcola⟩ := h
  have hi := corrida_invariante hr
  obtain ⟨ht', hpag⟩ := ejecutar_paginas hi ho hne ht hs hn
  refine ⟨hr.paso o n ho hs hn, fun hmem => ?_, tt, ht', ?_⟩
  · rcases List.mem_append.mp hmem with h1 | h1
    · cases o with
      | finalizar u => exact hne (by rw [List.mem_singleton.mp h1]; rfl)
      | _ => cases h1
    · exact hfin h1
  · rw [hcola, colaDe_congr fun r hr => hpag _ _ (hi.marcos.asignada ht hr).1]

/-- **The queue**, along a whole history. -/
theorem historia_cola {l : List (Suceso ℕ)} (hc : c.algoritmoReemplazo = .clock)
    (hm : 1 ≤ c.marcosPorProceso) (h : Historia c t s fin l) : EnCola c s fin t l := by
  induction h with
  | @crear s fin s' tam pid h hs hn =>
    obtain ⟨rfl, v, -, hnace⟩ := iniciar_nace hs hn
    obtain ⟨tn, hcr, -⟩ := hnace.crea
    refine ⟨Corrida.paso (.iniciar tam pid) _ h (fun u hu => by cases hu) hs hn, fun hmem => ?_, tn,
      hcr.tabla_nueva, ?_⟩
    · obtain ⟨tu, htu, -⟩ := (corrida_invariante h).vacia hmem
      rw [tabla_of_le le_rfl] at htu
      cases htu
    · have h1 : colaDe s' tn = [] := by
        unfold colaDe
        rw [hcr.asignadas]
        rfl
      rw [h1]
      rfl
  | propio o n _ ho ha hs hn ih => exact ih.propio hc hm ho ha hs hn
  | ajeno o n _ ho hne hs hn ih => exact ih.ajeno ho hne hs hn

/-- **CLOCK is second-chance FIFO.** The faults of a process, their victims and the pages it
has in memory after each request are those of the queue, and a search ends within one turn
and one more inspection. -/
theorem historia_segundaOportunidad {l : List (Suceso ℕ)} (hc : c.algoritmoReemplazo = .clock)
    (hm : 1 ≤ c.marcosPorProceso) (h : Historia c t s fin l) :
    (reproducir c.marcosPorProceso [] (l.map (·.accion))).map (·.1) = some l ∧
      ∀ tt, s.tabla t = some tt → tt.paginasAsignadas.length = c.marcosPorProceso →
        (Reloj.clock (paginasDe tt.paginasAsignadas) c.marcosPorProceso (c.marcosPorProceso + 1)
          s.listaTablasDePaginas tt.punteroMarcos).isSome := by
  obtain ⟨hr, hfin, tt, ht, hcola⟩ := historia_cola hc hm h
  have hi := corrida_invariante hr
  refine ⟨by rw [hcola]; rfl, fun tu htu hlen => ?_⟩
  have hnd : (tu.paginasAsignadas.map (·.paginaAsignada)).Nodup := by
    apply (hi.marcos.nodup htu).of_map.map_on
    intro r hr r' hr' he
    exact (hi.marcos.mismo htu hr htu hr' he).2
  apply Reloj.clock_isSome (paginasDe_legal hnd)
  · intro i hlt
    rw [← hlen] at hlt
    obtain ⟨-, w, hw, -⟩ := hi.marcos.asignada htu (List.getElem_mem hlt)
    have hw' : paginaEn s.listaTablasDePaginas tu.paginasAsignadas[i].paginaAsignada = some w := hw
    simp only [paginasDe, List.getElem?_eq_getElem hlt, Option.bind_some, hw']
    rfl
  · exact (hi.acotada hfin htu).mano hm

/-- The requests of a list, on the process of table `t` and on others. -/
def seguirHistoria (c : ConfigMemoria) (t : ℕ) : List Operacion → MemoriaGlobal × List ℕ × List (Suceso ℕ) →
    Option (MemoriaGlobal × List ℕ × List (Suceso ℕ))
  | [], x => some x
  | o :: os, (s, fin, l) => do
    let (_, s') ← ejecutar c s o
    if Numerable s' then
      if o.tabla = some t ∧ o.accede = true then seguirHistoria c t os (s', fin, l ++ o.sucesos c s s' t)
      else if Viva s fin o ∧ o.tabla ≠ some t then seguirHistoria c t os (s', o.finaliza ++ fin, l)
      else none
    else none

theorem seguirHistoria_historia : ∀ (os : List Operacion) {x y : MemoriaGlobal × List ℕ × List (Suceso ℕ)},
    Historia c t x.1 x.2.1 x.2.2 → seguirHistoria c t os x = some y → Historia c t y.1 y.2.1 y.2.2
  | [], x, y, hx, h => by
    rw [← Option.some.inj h]
    exact hx
  | o :: os, (s, fin, l), y, hx, h => by
    obtain ⟨⟨n, s'⟩, hs, h⟩ := Option.bind_eq_some_iff.mp h
    dsimp only at h
    split_ifs at h with hn ho ho
    · exact seguirHistoria_historia os (.propio o n hx ho.1 ho.2 hs hn) h
    · exact seguirHistoria_historia os (.ajeno o n hx ho.1 ho.2 hs hn) h

/-- The history of the first process of the module. -/
def historiaDe (c : ConfigMemoria) (tam : ℕ) (os : List Operacion) :
    Option (MemoriaGlobal × List ℕ × List (Suceso ℕ)) := do
  let (t, s) ← ejecutar c sinProcesos (.iniciar tam 0)
  if t = 0 ∧ Numerable s then seguirHistoria c 0 os (s, [], []) else none

theorem historiaDe_historia {tam : ℕ} {os : List Operacion} {y : MemoriaGlobal × List ℕ × List (Suceso ℕ)}
    (h : historiaDe c tam os = some y) : Historia c 0 y.1 y.2.1 y.2.2 := by
  obtain ⟨⟨t, s⟩, hs, h⟩ := Option.bind_eq_some_iff.mp h
  dsimp only at h
  split_ifs at h with ht
  obtain ⟨rfl, hn⟩ := ht
  have hi : Corrida c sinProcesos [] := .inicio ⟨rfl, rfl, fun _ _ => rfl⟩
  exact seguirHistoria_historia os (.crear tam 0 hi hs hn) h

/-- Pages 0, 1, 2, 0, 2 of a process with two frames, a word of another process that ends in
the next frame, and a suspension. -/
theorem historia_segundaOportunidad_dosMarcos : ∃ s fin l, Historia (chica 2 2) 0 s fin l ∧
    l.map (fun e => (e.fallo, e.victima)) = [(true, none), (true, none), (true, some 0), (true, some 1),
      (false, none), (false, none)] ∧
    (reproducir 2 [] (l.map (·.accion))).map (·.1) = some l := by
  obtain ⟨⟨s, fin, l⟩, hx, h1⟩ := Option.map_eq_some_iff.mp (show (historiaDe (chica 2 2) 12
    [.escribir 0 0 0 7, .iniciar 4 1, .leer 0 1 3, .escribir 1 0 3 512, .leer 0 2 0, .leer 0 0 0,
      .escribir 0 2 0 5, .suspender 0]).map (fun y => y.2.2.map fun e => (e.fallo, e.victima)) =
        some [(true, none), (true, none), (true, some 0), (true, some 1), (false, none), (false, none)]
    by decide +kernel)
  have h2 := historiaDe_historia hx
  exact ⟨s, fin, l, h2, h1, (historia_segundaOportunidad rfl (by decide +kernel) h2).1⟩

end Memoria
end Kiss
