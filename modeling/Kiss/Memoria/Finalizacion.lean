/-
# The end of a process

`finalizar_proceso` does everything in its loop over the pages in memory: it frees their
frames, and removes the swap file once for each of them. So a process with no page in
memory keeps its file, and the entries of the pages that were there are still marked
present (`finalizar_libera_iff`). What the loop does, it does to its own process
(`finalizar_marcos`). `suspender_proceso` uses the table before it tests that there is
one, and a table stays in its list when its process ends, so both take a finished process
for a live one (`atiende_iff`).

Key definitions: `Libera`, `SuspendeBien`, `FinalizaBien`.
Key theorems: `finalizar_libera_iff`, `finalizar_marcos`, `atiende_iff`.
-/
import Kiss.Memoria.Corridas

namespace Kiss
namespace Memoria

variable {c : ConfigMemoria} {s s' : MemoriaGlobal} {t p : ℕ} {fin : List ℕ} {tt : TablaPrimerNivel}
  {v v' : Proceso}

/-! ### What the end of a process has to leave -/

/-- Everything of the process is released, and nothing of the others changed. -/
structure Libera (c : ConfigMemoria) (s : MemoriaGlobal) (t : ℕ) (tt : TablaPrimerNivel)
    (s' : MemoriaGlobal) : Prop where
  archivo : s'.swap tt.pcbId = none
  marcos : ∀ i r w, Entrada s t i r w → (s'.registroEspacioUsuario w.numeroMarco).asignado = false
  presencia : ∀ p q w, EsPagina c s' t p q w → w.presencia = false
  asignadas : ∀ tt', s'.tabla t = some tt' → tt'.paginasAsignadas = []
  tablas : ∀ u, u ≠ t → s'.tabla u = s.tabla u
  paginas : ∀ u p q, u ≠ t → dir c s u p = some q → s'.pagina q = s.pagina q
  ajenos : ∀ u i r w, u ≠ t → Entrada s u i r w →
    s'.registroEspacioUsuario w.numeroMarco = s.registroEspacioUsuario w.numeroMarco ∧
      Copia.leer s'.espacioUsuario (inicioMarco c w.numeroMarco) c.tamPagina =
        Copia.leer s.espacioUsuario (inicioMarco c w.numeroMarco) c.tamPagina
  archivos : ∀ u tu, u ≠ t → s.tabla u = some tu → s'.swap tu.pcbId = s.swap tu.pcbId

/-- The loop only touches the list of the process, the registry and the files. -/
theorem finalizarPaginas_paginas : ∀ (l : List RegistroAsignado) {s s' : MemoriaGlobal},
    finalizarPaginas c t l s = some s' → s'.listaTablasDePaginas = s.listaTablasDePaginas ∧
      s'.espacioUsuario = s.espacioUsuario
  | [], s, s', h => by
    rw [← Option.some.inj h]
    exact ⟨rfl, rfl⟩
  | r :: l, s, s', h => by
    unfold finalizarPaginas at h
    obtain ⟨w, -, h⟩ := Option.bind_eq_some_iff.mp h
    obtain ⟨s1, h1, h⟩ := Option.bind_eq_some_iff.mp h
    obtain ⟨s2, h2, h⟩ := Option.bind_eq_some_iff.mp h
    obtain ⟨h3, h4⟩ := finalizarPaginas_paginas l h
    unfold escribirRegistro at h1
    split_ifs at h1
    obtain ⟨tt, -, h2⟩ := Option.bind_eq_some_iff.mp h2
    rw [h3, h4, ← Option.some.inj h2, ← Option.some.inj h1]
    exact ⟨rfl, rfl⟩

/-- A process that there is always ends. -/
theorem finalizar_some (h : Marcos c s fin) (ht : s.tabla t = some tt) :
    ∃ s', finalizarProceso c s t = some (true, s') ∧
      finalizarPaginas c t tt.paginasAsignadas s = some s' ∧ Marcos c s' (t :: fin) ∧ Ajenas c t s s' ∧
      ∃ tt', s'.tabla t = some tt' ∧ tt'.paginasAsignadas = [] := by
  obtain ⟨s', tt', h1, h2, h3, h4, h5, -⟩ := finalizarPaginas_simula _ (h.finalizada t) List.mem_cons_self
    ht rfl
  refine ⟨s', ?_, h1, h2, h3, tt', h4, h5⟩
  simp only [finalizarProceso, ht, h1, Option.bind_eq_bind, Option.bind_some]

/-- **What the end of a process does**: its frames are free, and the others are as they were. -/
theorem finalizar_marcos (h : Marcos c s fin) (ht : s.tabla t = some tt) {b : Bool}
    (hs : finalizarProceso c s t = some (b, s')) :
    (∀ i r w, Entrada s t i r w → (s'.registroEspacioUsuario w.numeroMarco).asignado = false) ∧
      (∀ tt', s'.tabla t = some tt' → tt'.paginasAsignadas = []) ∧ Ajenas c t s s' := by
  obtain ⟨s1, h1, h2, h3, h4, tt', h5, h6⟩ := finalizar_some h ht
  rw [h1, Option.some.injEq, Prod.mk.injEq] at hs
  obtain ⟨-, rfl⟩ := hs
  have hpag : s1.pagina = s.pagina := by
    funext q
    rw [MemoriaGlobal.pagina, MemoriaGlobal.pagina, (finalizarPaginas_paginas _ h2).1]
  refine ⟨fun i r w hr => ?_, fun tt'' ht'' => ?_, h4⟩
  · obtain ⟨tt1, ht1, hi, hw⟩ := hr
    obtain ⟨-, w', hw', -, hf, -⟩ := h.asignada ht1 (List.mem_of_getElem? hi)
    rw [hw] at hw'
    cases hw'
    -- a frame that is still held is held by an entry of another process, as before
    by_contra hg
    obtain ⟨u, tu, r', w', hu, hr', hw', hm⟩ := h3.ocupado _ hf (by simpa using hg)
    by_cases hut : u = t
    · rw [hut, h5] at hu
      cases hu
      rw [h6] at hr'
      cases hr'
    · rw [h4.tabla u hut] at hu
      rw [hpag] at hw'
      exact hut (h.exclusivo hu hr' hw' ht1 (List.mem_of_getElem? hi) hw hm).1
  · rw [h5] at ht''
    cases ht''
    exact h6

/-- **The end of a process releases everything** exactly when there is nothing to release. -/
theorem finalizar_libera_iff (h : Corrida c s fin) (ht : s.tabla t = some tt) (hfin : t ∉ fin) :
    (∃ s', finalizarProceso c s t = some (true, s') ∧ Libera c s t tt s') ↔
      tt.paginasAsignadas = [] ∧ s.swap tt.pcbId = none := by
  have hm := (corrida_invariante h).marcos
  obtain ⟨s1, h1, h2, -, h4, -⟩ := finalizar_some hm ht
  constructor
  · rintro ⟨s', hs, hL⟩
    rw [h1, Option.some.injEq, Prod.mk.injEq] at hs
    obtain ⟨-, rfl⟩ := hs
    rcases hl : tt.paginasAsignadas with _ | ⟨r, l⟩
    · refine ⟨rfl, ?_⟩
      rw [hl] at h2
      rw [← hL.archivo, ← Option.some.inj h2]
    · -- the entry of a page that was there is as it was
      have hr : r ∈ tt.paginasAsignadas := by rw [hl]; exact List.mem_cons_self
      obtain ⟨hd, w, hw, hp, -⟩ := hm.asignada ht hr
      have hw' : s1.pagina r.paginaAsignada = some w := by
        rw [← hw, MemoriaGlobal.pagina, MemoriaGlobal.pagina, (finalizarPaginas_paginas _ h2).1]
      have h5 := hL.presencia _ _ _ (esPagina_of_dir (h4.dir ▸ hd) hw')
      rw [hp] at h5
      cases h5
  · rintro ⟨hl, hswap⟩
    rw [hl] at h2
    obtain rfl := Option.some.inj h2
    refine ⟨s, h1, hswap, fun i r w hr => ?_, fun p q w hq => ?_, fun tt' ht' => ?_, fun _ _ => rfl,
      fun _ _ _ _ _ => rfl, fun _ _ _ _ _ _ => ⟨rfl, rfl⟩, fun _ _ _ _ => rfl⟩
    · obtain ⟨tt', ht', hi, -⟩ := hr
      rw [ht] at ht'
      cases ht'
      rw [hl] at hi
      cases hi
    · by_contra hp
      have h5 := hm.presente hfin ht (esPagina_dir hq) hq.2 (by simpa using hp)
      rw [hl] at h5
      cases h5
    · rw [ht] at ht'
      cases ht'
      exact hl

/-- A process with one page in memory: neither side holds. -/
theorem finalizar_libera_unaPagina : ∃ x, desdeInicio (chica 2 1) [.iniciar 4 0, .leer 0 0 0] = some x ∧
    ∃ tt, x.1.tabla 0 = some tt ∧
      ((∃ s', finalizarProceso (chica 2 1) x.1 0 = some (true, s') ∧ Libera (chica 2 1) x.1 0 tt s') ↔
        tt.paginasAsignadas = [] ∧ x.1.swap tt.pcbId = none) := by
  obtain ⟨x, hx, h1⟩ := (Option.any_eq_true _ _).mp (show (desdeInicio (chica 2 1)
    [.iniciar 4 0, .leer 0 0 0]).any (fun x => decide ((x.1.tabla 0).isSome = true ∧ x.2 = [])) = true by
      decide +kernel)
  obtain ⟨h1, h2⟩ := of_decide_eq_true h1
  obtain ⟨tt, ht⟩ := Option.isSome_iff_exists.mp h1
  exact ⟨x, hx, tt, ht, finalizar_libera_iff (desdeInicio_corrida hx) ht (by rw [h2]; exact List.not_mem_nil)⟩

/-- A process that was created and never touched memory keeps its file; one that read a page
keeps it marked present. -/
theorem not_libera : (¬ ∀ (c : ConfigMemoria) (s : MemoriaGlobal) (fin : List ℕ) (t : ℕ)
      (tt : TablaPrimerNivel) (s' : MemoriaGlobal), Corrida c s fin → s.tabla t = some tt → t ∉ fin →
        finalizarProceso c s t = some (true, s') → s'.swap tt.pcbId = none) ∧
    ¬ ∀ (c : ConfigMemoria) (s : MemoriaGlobal) (fin : List ℕ) (t : ℕ) (s' : MemoriaGlobal),
      Corrida c s fin → t < s.listaTablasDeTablas.length → t ∉ fin →
        finalizarProceso c s t = some (true, s') → ∀ p q w, EsPagina c s' t p q w → w.presencia = false := by
  constructor
  · intro h
    obtain ⟨x, hx, h1⟩ := (Option.any_eq_true _ _).mp (show (desdeInicio (chica 2 1) [.iniciar 4 0]).any
      (fun x => decide (x.2 = [] ∧ x.1.tabla 0 = some { tablasSegundoNivel := [0], pcbId := 0 } ∧
        ((finalizarProceso (chica 2 1) x.1 0).bind fun y => y.2.swap 0).isSome = true)) = true by
          decide +kernel)
    obtain ⟨h1, h2, h3⟩ := of_decide_eq_true h1
    obtain ⟨a, ha⟩ := Option.isSome_iff_exists.mp h3
    obtain ⟨⟨b, s'⟩, hs, ha⟩ := Option.bind_eq_some_iff.mp ha
    obtain ⟨s1, hs1, -⟩ := finalizar_some (corrida_invariante (desdeInicio_corrida hx)).marcos h2
    rw [hs1, Option.some.injEq, Prod.mk.injEq] at hs
    obtain ⟨-, rfl⟩ := hs
    have h4 := h _ _ _ 0 _ _ (desdeInicio_corrida hx) h2 (by rw [h1]; exact List.not_mem_nil) hs1
    rw [h4] at ha
    cases ha
  · intro h
    obtain ⟨x, hx, h1⟩ := (Option.any_eq_true _ _).mp (show (desdeInicio (chica 2 1)
      [.iniciar 4 0, .leer 0 0 0]).any (fun x => decide (x.2 = [] ∧ 0 < x.1.listaTablasDeTablas.length ∧
        (finalizarProceso (chica 2 1) x.1 0).any (fun y => decide (y.1 = true ∧
          buscarPaginaEnTablas (chica 2 1) y.2 0 0 = some (some (0, 0)) ∧
          y.2.pagina (0, 0) = some ⟨0, false, true, true⟩)) = true)) = true by decide +kernel)
    obtain ⟨h1, h2, h3⟩ := of_decide_eq_true h1
    obtain ⟨⟨b, s'⟩, hs, h3⟩ := (Option.any_eq_true _ _).mp h3
    obtain ⟨h4, h5, h6⟩ := of_decide_eq_true h3
    obtain rfl : b = true := h4
    have h7 := h _ _ _ 0 s' (desdeInicio_corrida hx) h2 (by rw [h1]; exact List.not_mem_nil) hs 0 _ _ ⟨h5, h6⟩
    cases h7

/-! ### Who is taken for a live process -/

/-- `suspender_proceso` answers whether the process of the table is live, and refuses
without a change when it is not. -/
def SuspendeBien (c : ConfigMemoria) (s : MemoriaGlobal) (fin : List ℕ) (t : ℕ) : Prop :=
  if t < s.listaTablasDeTablas.length ∧ t ∉ fin then ∃ s', suspenderProceso c s t = some (true, s')
  else suspenderProceso c s t = some (false, s)

/-- The same for `finalizar_proceso`. -/
def FinalizaBien (c : ConfigMemoria) (s : MemoriaGlobal) (fin : List ℕ) (t : ℕ) : Prop :=
  if t < s.listaTablasDeTablas.length ∧ t ∉ fin then ∃ s', finalizarProceso c s t = some (true, s')
  else finalizarProceso c s t = some (false, s)

theorem isSome_suspenderPaginas : ∀ (l : List Residente) (v : Proceso),
    (Proceso.suspenderPaginas c l v).isSome = true ↔ l = [] ∨ v.archivo.isSome = true
  | [], v => by simp [Proceso.suspenderPaginas]
  | r :: l, v => by
    rcases h : v.archivo with _ | a
    · simp [Proceso.suspenderPaginas, Proceso.escribirSwap, Proceso.conResidentes, h]
    · simp [Proceso.suspenderPaginas, Proceso.escribirSwap, Proceso.conResidentes, h,
        isSome_suspenderPaginas l]

theorem isSome_of_rel {α β : Type*} {R : α → β → Prop} {x : Option α} {y : Option β} (h : Option.Rel R x y) :
    x.isSome = y.isSome := by
  cases h <;> rfl

/-- A live process is suspended when it has nothing in memory, or a file to put it in. -/
theorem isSome_suspender (h : Marcos c s fin) (ht : s.tabla t = some tt) :
    (suspenderProceso c s t).isSome = true ↔ tt.paginasAsignadas = [] ∨ (s.swap tt.pcbId).isSome = true := by
  obtain ⟨v, hV⟩ := ve_de h (List.getElem?_eq_some_iff.mp ht).1
  have h1 : v.residentes = tt.paginasAsignadas.map (residente c s) ∧ v.archivo = s.swap tt.pcbId := by
    rw [hV.vista_eq ht]
    exact ⟨rfl, rfl⟩
  rw [isSome_of_rel (suspender_simula hV), Proceso.suspender, isSome_suspenderPaginas, h1.1, h1.2,
    List.map_eq_nil_iff]

theorem suspender_true {x : Bool × MemoriaGlobal} (h : suspenderProceso c s t = some x) : x.1 = true := by
  unfold suspenderProceso at h
  obtain ⟨tt, -, h⟩ := Option.bind_eq_some_iff.mp h
  obtain ⟨s', -, h⟩ := Option.bind_eq_some_iff.mp h
  rw [← Option.some.inj h]

/-- **Who is refused.** A suspension is answered as it should exactly when the process is
live and has a file to go to, an end exactly when the process was not finished before. -/
theorem atiende_iff (h : Corrida c s fin) (t : ℕ) :
    (SuspendeBien c s fin t ↔ t ∉ fin ∧ ∃ tt, s.tabla t = some tt ∧
      (tt.paginasAsignadas = [] ∨ (s.swap tt.pcbId).isSome = true)) ∧
    (FinalizaBien c s fin t ↔ t ∉ fin) := by
  have hm := (corrida_invariante h).marcos
  unfold SuspendeBien FinalizaBien
  by_cases hlt : t < s.listaTablasDeTablas.length
  · have ht : s.tabla t = some s.listaTablasDeTablas[t] := List.getElem?_eq_getElem hlt
    by_cases hfin : t ∈ fin
    · -- its table is still there
      simp only [hfin, not_true_eq_false, and_false, if_false, false_and, iff_false]
      refine ⟨fun hs => ?_, fun hs => ?_⟩
      · cases suspender_true hs
      · obtain ⟨s', hs', -⟩ := finalizar_some hm ht
        rw [hs'] at hs
        cases hs
    · simp only [hlt, hfin, not_false_eq_true, and_self, if_true, true_and, iff_true]
      refine ⟨?_, ?_⟩
      · simp only [ht, Option.some.injEq, exists_eq_left']
        rw [← isSome_suspender hm ht, Option.isSome_iff_exists]
        constructor
        · rintro ⟨s', hs⟩
          exact ⟨_, hs⟩
        · rintro ⟨⟨b, s'⟩, hs⟩
          obtain rfl : b = true := suspender_true hs
          exact ⟨s', hs⟩
      · obtain ⟨s', hs', -⟩ := finalizar_some hm ht
        exact ⟨s', hs'⟩
  · have ht : s.tabla t = none := tabla_of_le (not_lt.mp hlt)
    have hfin : t ∉ fin := fun hf => by
      obtain ⟨tt, htt, -⟩ := (corrida_invariante h).vacia hf
      rw [ht] at htt
      cases htt
    simp only [hlt, false_and, if_false, hfin, not_false_eq_true, true_and, iff_true]
    refine ⟨?_, ?_⟩
    · simp [ht, suspenderProceso]
    · simp only [finalizarProceso, ht]

theorem atiende_iff_viva : ∃ x, desdeInicio (chica 2 1) [.iniciar 4 0, .leer 0 0 0] = some x ∧
    SuspendeBien (chica 2 1) x.1 x.2 0 ∧ FinalizaBien (chica 2 1) x.1 x.2 7 := by
  obtain ⟨x, hx, h1⟩ := (Option.any_eq_true _ _).mp (show (desdeInicio (chica 2 1)
    [.iniciar 4 0, .leer 0 0 0]).any (fun x => decide (x.2 = [] ∧
      ((x.1.tabla 0).any fun tt => (x.1.swap tt.pcbId).isSome) = true)) = true by decide +kernel)
  obtain ⟨h1, h2⟩ := of_decide_eq_true h1
  obtain ⟨tt, ht, h3⟩ := (Option.any_eq_true _ _).mp h2
  have hnot : ∀ t, t ∉ x.2 := fun t => by
    rw [h1]
    exact List.not_mem_nil
  exact ⟨x, hx, (atiende_iff (desdeInicio_corrida hx) 0).1.mpr ⟨hnot 0, tt, ht, Or.inr h3⟩,
    (atiende_iff (desdeInicio_corrida hx) 7).2.mpr (hnot 7)⟩

/-- There is no table 0 before a process is created, and a finished process ends again. -/
theorem not_atiende :
    (¬ ∀ (c : ConfigMemoria) (s : MemoriaGlobal) (fin : List ℕ) (t : ℕ), Corrida c s fin →
      SuspendeBien c s fin t) ∧
    ¬ ∀ (c : ConfigMemoria) (s : MemoriaGlobal) (fin : List ℕ) (t : ℕ), Corrida c s fin →
      FinalizaBien c s fin t := by
  constructor
  · intro h
    have h1 := h (chica 2 1) sinProcesos [] 0 (.inicio ⟨rfl, rfl, fun _ _ => rfl⟩)
    unfold SuspendeBien at h1
    rw [if_neg (by decide +kernel), suspenderProceso, tabla_of_le (by decide +kernel)] at h1
    cases h1
  · intro h
    obtain ⟨x, hx, h1⟩ := (Option.any_eq_true _ _).mp (show (desdeInicio (chica 2 1)
      [.iniciar 4 0, .finalizar 0]).any (fun x => decide (x.2 = [0] ∧ (x.1.tabla 0).isSome = true)) = true by
        decide +kernel)
    obtain ⟨h1, h2⟩ := of_decide_eq_true h1
    obtain ⟨tt, ht⟩ := Option.isSome_iff_exists.mp h2
    obtain ⟨s', hs, -⟩ := finalizar_some (corrida_invariante (desdeInicio_corrida hx)).marcos ht
    have h3 := h _ _ _ 0 (desdeInicio_corrida hx)
    unfold FinalizaBien at h3
    rw [if_neg (by rw [h1]; simp), hs] at h3
    cases h3

end Memoria
end Kiss
