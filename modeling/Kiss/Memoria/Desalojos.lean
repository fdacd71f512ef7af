/-
# The page that leaves a frame

A frame changes hands in one way only while its process is neither suspended nor
finished: its page is the victim of a page of the same process that was not in memory
(`desalojada`). So a request leaves every frame but that one to the page it has
(`registro_ejecutar`), and the frame that `buscar_marco_de_pagina` answers is the one the
registry has for the page (`registro_buscarMarco`).

Key definitions: `desalojada`, `EnMarco`.
Key theorems: `cargar_registro`, `registro_ejecutar`, `registro_buscarMarco`, `enMarco`.
-/
import Kiss.Memoria.Servidor
import Kiss.Memoria.Vistas

namespace Kiss
namespace Memoria

variable {c : ConfigMemoria} {s s' s1 : MemoriaGlobal} {t u p w n f : ℕ} {fin : List ℕ} {q : ℕ × ℕ}
  {tt : TablaPrimerNivel} {r : RegistroAsignado} {o : Operacion}

/-- The page that a request of page `p` of table `t` takes out of memory: the victim,
where `p` is not in memory and the process has all its frames. -/
def desalojada (c : ConfigMemoria) (s : MemoriaGlobal) (t p : ℕ) : Option ℕ := do
  let q ← (← buscarPaginaEnTablas c s t p)
  let pagina ← s.pagina q
  let tablaTablas ← s.tabla t
  if pagina.presencia ∨ tablaTablas.paginasAsignadas.length < c.marcosPorProceso then none
  else do
    let s ← seleccionarPaginaVictima c s t
    let tablaTablas ← s.tabla t
    let victima ← tablaTablas.paginasAsignadas[tablaTablas.punteroMarcos]?
    some victima.numeroPagina

/-- The memory module has page `p` of table `t` in frame `f`, and takes the messages on
that frame for requests of that page. -/
structure EnMarco (c : ConfigMemoria) (s : MemoriaGlobal) (t p f : ℕ) : Prop where
  pagina : ∃ q pagina, EsPagina c s t p q pagina ∧ pagina.presencia = true ∧ pagina.numeroMarco = f
  leer : ∀ d, (Mensaje.leerMarco f d).operacion c s = some (.leer t p d)
  escribir : ∀ d dato, (Mensaje.escribirMarco f d dato).operacion c s = some (.escribir t p d dato)

/-- What the registry says of a frame. -/
theorem enMarco (h : Invariante c s fin) (hf : f < c.cantidad)
    (hg : s.registroEspacioUsuario f = ⟨true, t, p⟩) : EnMarco c s t p f where
  pagina := h.duenos.registrado hf hg
  leer d := by rw [Mensaje.operacion, if_pos hf, hg]
  escribir d dato := by rw [Mensaje.operacion, if_pos hf, hg]

/-- Two frames do not have the same page. -/
theorem registro_unico (h : Invariante c s fin) (hf : f < c.cantidad)
    (hg : s.registroEspacioUsuario f = ⟨true, t, p⟩) (hn : n < c.cantidad)
    (hgn : s.registroEspacioUsuario n = ⟨true, t, p⟩) : n = f := by
  obtain ⟨q, w, hq, -, rfl⟩ := h.duenos.registrado hf hg
  obtain ⟨q', w', hq', -, rfl⟩ := h.duenos.registrado hn hgn
  obtain rfl : q = q' := by simpa [hq.1] using hq'.1
  have h1 := hq'.2
  rw [hq.2] at h1
  rw [Option.some.inj h1]

/-! ### The registry -/

theorem registro_seleccionar (h : seleccionarPaginaVictima c s t = some s') :
    s'.registroEspacioUsuario = s.registroEspacioUsuario := by
  unfold seleccionarPaginaVictima at h
  split at h
  · obtain ⟨tt, -, h⟩ := Option.bind_eq_some_iff.mp h
    obtain ⟨⟨l, i⟩, -, h⟩ := Option.bind_eq_some_iff.mp h
    rw [← Option.some.inj h]
    rfl
  · obtain ⟨tt, -, h⟩ := Option.bind_eq_some_iff.mp h
    obtain ⟨⟨l, i⟩, -, h⟩ := Option.bind_eq_some_iff.mp h
    rw [← Option.some.inj h]
    rfl
  · cases h

theorem registro_guardar {pagina : Pagina} (h : guardarVictima c s t r pagina = some s') :
    s'.registroEspacioUsuario = s.registroEspacioUsuario := by
  unfold guardarVictima at h
  split at h
  · obtain ⟨dato, -, h⟩ := Option.bind_eq_some_iff.mp h
    obtain ⟨s1, h1, h⟩ := Option.bind_eq_some_iff.mp h
    obtain ⟨tt, -, h1⟩ := Option.bind_eq_some_iff.mp h1
    obtain ⟨a, -, h1⟩ := Option.bind_eq_some_iff.mp h1
    rw [← Option.some.inj h, ← Option.some.inj h1]
    rfl
  · rw [← Option.some.inj h]

theorem registro_escribirMarcoCompleto {dato : ℕ → UInt8} (h : escribirMarcoCompleto c s f dato = some s') :
    s'.registroEspacioUsuario = s.registroEspacioUsuario := by
  unfold escribirMarcoCompleto at h
  split at h
  · rw [← Option.some.inj h]
    rfl
  · cases h

theorem registro_escribirMarco {d dato : ℕ} (h : escribirMarco c s f d dato = some s') :
    s'.registroEspacioUsuario = s.registroEspacioUsuario := by
  unfold escribirMarco at h
  dsimp only at h
  split at h
  · rw [← Option.some.inj h]
    rfl
  · cases h

/-- A page put in a free frame. -/
theorem registro_asignar (h : asignarMarcoYCargarPaginaDeSwap c s t p = some s') :
    ∃ g < c.cantidad, (s.registroEspacioUsuario g).asignado = false ∧
      s'.registroEspacioUsuario = Function.update s.registroEspacioUsuario g ⟨true, t, p⟩ := by
  by_cases hs : SinMarcos c s
  · rw [asignar_of_sinMarcos hs] at h
    cases h
  obtain ⟨g, hg, hl, hb⟩ := buscarMarcoLibre_of_libre hs
  unfold asignarMarcoYCargarPaginaDeSwap at h
  rw [hb] at h
  obtain ⟨x, -, h⟩ := Option.bind_eq_some_iff.mp h
  obtain ⟨q, -, h⟩ := Option.bind_eq_some_iff.mp h
  obtain ⟨s2, h2, h⟩ := Option.bind_eq_some_iff.mp h
  obtain ⟨dato, -, h⟩ := Option.bind_eq_some_iff.mp h
  rw [escribirRegistro, if_pos hg] at h2
  refine ⟨g, hg, hl, ?_⟩
  rw [registro_escribirMarcoCompleto h, ← Option.some.inj h2]
  simp [MemoriaGlobal.conRegistro, MemoriaGlobal.conTabla, MemoriaGlobal.conPagina]

/-- A page put in the frame of the victim. -/
theorem registro_reemplazar (h : reemplazarPaginaDeSwapAMemoria c s t p = some s') :
    ∃ s1 tt r pagina, seleccionarPaginaVictima c s t = some s1 ∧ s1.tabla t = some tt ∧
      tt.paginasAsignadas[tt.punteroMarcos]? = some r ∧ s1.pagina r.paginaAsignada = some pagina ∧
      s'.registroEspacioUsuario = Function.update s.registroEspacioUsuario pagina.numeroMarco
        { s.registroEspacioUsuario pagina.numeroMarco with pagina := p, tablaTablas := t } := by
  unfold reemplazarPaginaDeSwapAMemoria at h
  obtain ⟨s1, h1, h⟩ := Option.bind_eq_some_iff.mp h
  obtain ⟨tt, ht, h⟩ := Option.bind_eq_some_iff.mp h
  obtain ⟨r, hr, h⟩ := Option.bind_eq_some_iff.mp h
  obtain ⟨pagina, hp, h⟩ := Option.bind_eq_some_iff.mp h
  obtain ⟨s2, h2, h⟩ := Option.bind_eq_some_iff.mp h
  obtain ⟨dato, -, h⟩ := Option.bind_eq_some_iff.mp h
  obtain ⟨s3, h3, h⟩ := Option.bind_eq_some_iff.mp h
  obtain ⟨x, -, h⟩ := Option.bind_eq_some_iff.mp h
  obtain ⟨q, -, h⟩ := Option.bind_eq_some_iff.mp h
  refine ⟨s1, tt, r, pagina, h1, ht, hr, hp, ?_⟩
  have h4 : s3.registroEspacioUsuario = s.registroEspacioUsuario := by
    rw [registro_escribirMarcoCompleto h3]
    exact (registro_guardar h2).trans (registro_seleccionar h1)
  dsimp only at h
  unfold escribirRegistro at h
  split at h
  · rw [← Option.some.inj h, ← h4]
    rfl
  · cases h

/-- **A page that is brought** goes to a free frame or to that of the victim. -/
theorem cargar_registro {pagina : Pagina} (h : Invariante c s fin)
    (hq : EsPagina c s t p q pagina) (hp : pagina.presencia = false)
    (hs : cargarPaginaDeSwapAMemoria c s t p = some s') : ∃ g < c.cantidad,
      s'.registroEspacioUsuario = Function.update s.registroEspacioUsuario g ⟨true, t, p⟩ ∧
        (desalojada c s t p = none ∧ (s.registroEspacioUsuario g).asignado = false ∨
          ∃ w, desalojada c s t p = some w ∧ s.registroEspacioUsuario g = ⟨true, t, w⟩) := by
  obtain ⟨tt, ht, hs⟩ := Option.bind_eq_some_iff.mp hs
  by_cases hl : tt.paginasAsignadas.length < c.marcosPorProceso
  · rw [if_pos hl] at hs
    obtain ⟨g, hg, hlibre, hr⟩ := registro_asignar hs
    refine ⟨g, hg, hr, Or.inl ⟨?_, hlibre⟩⟩
    unfold desalojada
    simp [hq.1, ht, hl]
  · rw [if_neg hl] at hs
    obtain ⟨s1, tt1, r, w, h1, ht1, hr, hw, hreg⟩ := registro_reemplazar hs
    -- the victim is a page of the process, and the registry knows it
    obtain ⟨v, hV⟩ := ve_de h.marcos (List.getElem?_eq_some_iff.mp ht).1
    have h2 := seleccionar_simula hV ht
    rw [h1] at h2
    rcases hv : v.victima c with _ | x
    · rw [hv] at h2
      cases h2
    rw [hv] at h2
    have hm : Marcos c s1 fin := by
      cases h2 with
      | some h2 => exact h2.1.marcos
    obtain ⟨-, w', hw', -, hlt, hreg1⟩ := hm.asignada ht1 (List.mem_of_getElem? hr)
    rw [hw] at hw'
    obtain rfl := Option.some.inj hw'
    rw [registro_seleccionar h1] at hreg1
    refine ⟨w.numeroMarco, hlt, ?_, Or.inr ⟨r.numeroPagina, ?_, hreg1⟩⟩
    · rw [hreg, hreg1]
    · unfold desalojada
      simp [hq.1, hq.2, ht, hp, hl, h1, ht1, hr]

/-! ### Requests -/

/-- What `buscar_marco_de_pagina` does. -/
theorem buscarMarco_some (hs : buscarMarcoDePagina c s t p = some (n, s')) :
    ∃ q pagina s1 pagina', buscarPaginaEnTablas c s t p = some (some q) ∧ s.pagina q = some pagina ∧
      (if pagina.presencia then some s else cargarPaginaDeSwapAMemoria c s t p) = some s1 ∧
      s1.pagina q = some pagina' ∧ pagina'.numeroMarco = n ∧ s1 = s' := by
  unfold buscarMarcoDePagina at hs
  obtain ⟨x, hx, h1⟩ := Option.bind_eq_some_iff.mp hs
  obtain ⟨q, hq, h2⟩ := Option.bind_eq_some_iff.mp h1
  obtain ⟨pagina, hp, h3⟩ := Option.bind_eq_some_iff.mp h2
  rw [hq] at hx
  by_cases hpre : pagina.presencia = true
  · simp only [if_pos hpre] at h3
    obtain ⟨s1, hs1, h4⟩ := Option.bind_eq_some_iff.mp h3
    obtain ⟨pagina', hp', h5⟩ := Option.bind_eq_some_iff.mp h4
    obtain ⟨h6, h7⟩ := Prod.mk.inj (Option.some.inj h5)
    exact ⟨q, pagina, s1, pagina', hx, hp, (if_pos hpre).trans hs1, hp', h6, h7⟩
  · simp only [if_neg hpre] at h3
    obtain ⟨s1, hs1, h4⟩ := Option.bind_eq_some_iff.mp h3
    obtain ⟨pagina', hp', h5⟩ := Option.bind_eq_some_iff.mp h4
    obtain ⟨h6, h7⟩ := Prod.mk.inj (Option.some.inj h5)
    exact ⟨q, pagina, s1, pagina', hx, hp, (if_neg hpre).trans hs1, hp', h6, h7⟩

/-- A request that needs a page in memory brings it or not. -/
theorem ejecutar_trae (ho : o.acceso = some (t, p)) (hs : ejecutar c s o = some (n, s')) :
    s'.registroEspacioUsuario = s.registroEspacioUsuario ∨
      ∃ q pagina s1, EsPagina c s t p q pagina ∧ pagina.presencia = false ∧
        cargarPaginaDeSwapAMemoria c s t p = some s1 ∧
        s'.registroEspacioUsuario = s1.registroEspacioUsuario := by
  cases o with
  | escribir u k d dato =>
    obtain ⟨rfl, rfl⟩ := Prod.mk.inj (Option.some.inj ho)
    obtain ⟨x, hx, h1⟩ := Option.bind_eq_some_iff.mp hs
    by_cases hd : d < c.tamPagina
    · rw [if_pos hd] at h1
      obtain ⟨q, hq, h2⟩ := Option.bind_eq_some_iff.mp h1
      obtain ⟨pagina, hp, h3⟩ := Option.bind_eq_some_iff.mp h2
      by_cases hpre : pagina.presencia = true
      · rw [if_pos hpre] at h3
        obtain ⟨s1, hs1, h4⟩ := Option.bind_eq_some_iff.mp h3
        have hr := registro_escribirMarco hs1
        rw [← (Prod.mk.inj (Option.some.inj h4)).2]
        exact Or.inl hr
      · rw [if_neg hpre] at h3
        obtain ⟨s1, hs1, h4⟩ := Option.bind_eq_some_iff.mp h3
        obtain ⟨pagina', -, h5⟩ := Option.bind_eq_some_iff.mp h4
        obtain ⟨s2, hs2, h6⟩ := Option.bind_eq_some_iff.mp h5
        have hr := registro_escribirMarco hs2
        rw [← (Prod.mk.inj (Option.some.inj h6)).2]
        exact Or.inr ⟨q, pagina, s1, ⟨hq ▸ hx, hp⟩, by simpa using hpre, hs1, hr⟩
    · rw [if_neg hd] at h1
      exact Or.inl (by rw [(Prod.mk.inj (Option.some.inj h1)).2])
  | leer u k d =>
    obtain ⟨rfl, rfl⟩ := Prod.mk.inj (Option.some.inj ho)
    obtain ⟨x, hx, h1⟩ := Option.bind_eq_some_iff.mp hs
    by_cases hd : c.tamPagina ≤ d
    · rw [if_pos hd] at h1
      exact Or.inl (by rw [(Prod.mk.inj (Option.some.inj h1)).2])
    · rw [if_neg hd] at h1
      obtain ⟨q, hq, h2⟩ := Option.bind_eq_some_iff.mp h1
      obtain ⟨pagina, hp, h3⟩ := Option.bind_eq_some_iff.mp h2
      by_cases hpre : pagina.presencia = true
      · rw [if_pos hpre] at h3
        obtain ⟨dato, -, h4⟩ := Option.bind_eq_some_iff.mp h3
        rw [← (Prod.mk.inj (Option.some.inj h4)).2]
        exact Or.inl rfl
      · rw [if_neg hpre] at h3
        obtain ⟨s1, hs1, h4⟩ := Option.bind_eq_some_iff.mp h3
        obtain ⟨pagina', -, h5⟩ := Option.bind_eq_some_iff.mp h4
        obtain ⟨dato, -, h6⟩ := Option.bind_eq_some_iff.mp h5
        rw [← (Prod.mk.inj (Option.some.inj h6)).2]
        exact Or.inr ⟨q, pagina, s1, ⟨hq ▸ hx, hp⟩, by simpa using hpre, hs1, rfl⟩
  | buscarMarco u k =>
    obtain ⟨rfl, rfl⟩ := Prod.mk.inj (Option.some.inj ho)
    obtain ⟨q, pagina, s1, pagina', hq, hp, h1, hp', rfl, rfl⟩ := buscarMarco_some hs
    by_cases hpre : pagina.presencia = true
    · rw [if_pos hpre] at h1
      exact Or.inl (by rw [Option.some.inj h1])
    · rw [if_neg hpre] at h1
      exact Or.inr ⟨q, pagina, s1, ⟨hq, hp⟩, by simpa using hpre, h1, rfl⟩
  | iniciar tam pid => cases ho
  | suspender u => cases ho
  | finalizar u => cases ho

/-- **A frame keeps its page** while its process is neither suspended nor finished and
the page is not the one that leaves. -/
theorem registro_ejecutar (h : Invariante c s fin) (ho : Viva s fin o)
    (hs : ejecutar c s o = some (n, s')) (hn : Numerable s') (hf : f < c.cantidad)
    (hg : s.registroEspacioUsuario f = ⟨true, t, w⟩) (hsus : o ≠ .suspender t) (hter : o ≠ .finalizar t)
    (hd : ∀ p, o.acceso = some (t, p) → desalojada c s t p ≠ some w) :
    s'.registroEspacioUsuario f = ⟨true, t, w⟩ := by
  have hacc : ∀ u p, o.acceso = some (u, p) → s'.registroEspacioUsuario f = ⟨true, t, w⟩ := by
    intro u p ha
    have hu : o.tabla = some u := by
      cases o with
      | iniciar tam pid => cases ha
      | suspender k => cases ha
      | finalizar k => cases ha
      | escribir k i d dato => exact congrArg some (Prod.mk.inj (Option.some.inj ha)).1
      | leer k i d => exact congrArg some (Prod.mk.inj (Option.some.inj ha)).1
      | buscarMarco k i => exact congrArg some (Prod.mk.inj (Option.some.inj ha)).1
    rcases ejecutar_trae ha hs with h1 | ⟨q, pagina, s1, hq, hp, h1, h2⟩
    · rw [h1, hg]
    · obtain ⟨g, -, hreg, hg'⟩ := cargar_registro h hq hp h1
      rw [h2, hreg, Function.update_of_ne, hg]
      rintro rfl
      rcases hg' with ⟨-, hg'⟩ | ⟨w', hw', hg'⟩
      · rw [hg] at hg'
        cases hg'
      · rw [hg] at hg'
        obtain ⟨rfl, rfl⟩ : t = u ∧ w = w' := by simpa using hg'
        exact hd p ha hw'
  have hajena : ∀ u, o.tabla = some u → u ≠ t → o.EscribeEnPagina c →
      s'.registroEspacioUsuario f = ⟨true, t, w⟩ := fun u hu hne he =>
    ((ejecutar_ajenas h.marcos ho hu he hs).registro f t w hf (Ne.symm hne) hg).1
  cases o with
  | iniciar tam pid =>
    obtain ⟨-, v, -, hnace⟩ := iniciar_nace hs hn
    obtain ⟨tt, hc, -⟩ := hnace.crea
    rw [hc.registro, hg]
  | suspender u => exact hajena u rfl (fun he => hsus (he ▸ rfl)) trivial
  | finalizar u => exact hajena u rfl (fun he => hter (he ▸ rfl)) trivial
  | escribir u k d dato => exact hacc u k rfl
  | leer u k d => exact hacc u k rfl
  | buscarMarco u k => exact hacc u k rfl

/-- The frame that is answered for a page is the one that has it. -/
theorem registro_buscarMarco (h : Invariante c s fin) (ht : t < s.listaTablasDeTablas.length)
    (hfin : t ∉ fin) (hs : buscarMarcoDePagina c s t p = some (n, s')) :
    n < c.cantidad ∧ s'.registroEspacioUsuario n = ⟨true, t, p⟩ ∧ Ajenas c t s s' := by
  obtain ⟨v, hV⟩ := ve_de h.marcos ht
  rcases buscarMarco_simula (p := p) hV hfin with ⟨-, h1⟩ | h1
  · rw [h1] at hs
    cases hs
  rw [hs] at h1
  rcases hv : v.buscarMarco c p with _ | v'
  · rw [hv] at h1
    cases h1
  rw [hv] at h1
  obtain ⟨hV', tt, i, q, w, htt, he, rfl⟩ : Ve c fin t s s' v' ∧ ∃ tt i q w, s'.tabla t = some tt ∧
      Esta c s' tt v' p i q w ∧ w.numeroMarco = n := by
    cases h1 with
    | some h1 => exact h1
  obtain ⟨-, w', hw', -, -, hg⟩ := hV'.marcos.asignada htt (List.mem_of_getElem? he.lugar)
  rw [he.pagina] at hw'
  obtain rfl := Option.some.inj hw'
  exact ⟨he.marco, hg, hV'.ajenas⟩

/-- A page that was not in memory is answered with the frame that it takes. -/
theorem buscarMarco_desaloja (h : Invariante c s fin) (ht : t < s.listaTablasDeTablas.length)
    (hfin : t ∉ fin) (hs : buscarMarcoDePagina c s t p = some (n, s')) (hf : f < c.cantidad)
    (hg : s.registroEspacioUsuario f = ⟨true, t, w⟩) (hd : desalojada c s t p = some w) : n = f := by
  obtain ⟨hn, hgn, -⟩ := registro_buscarMarco h ht hfin hs
  obtain ⟨q, pagina, s1, -, hq, hp, h1, -, -, rfl⟩ := buscarMarco_some hs
  by_cases hpre : pagina.presencia = true
  · unfold desalojada at hd
    simp [hq, hp, hpre] at hd
  rw [if_neg hpre] at h1
  obtain ⟨g, hg', hreg, hlibre | ⟨w', hw', hgw⟩⟩ :=
    cargar_registro h ⟨hq, hp⟩ (by simpa using hpre) h1
  · rw [hd] at hlibre
    cases hlibre.1
  -- the registry only changes in the frame of the victim
  obtain rfl : w = w' := by
    rw [hd] at hw'
    exact Option.some.inj hw'
  have hng : n = g := by
    by_contra hne
    rw [hreg, Function.update_of_ne hne] at hgn
    obtain ⟨q', pagina', hq', hpre', -⟩ := h.duenos.registrado hn hgn
    obtain rfl : q = q' := by simpa [hq] using hq'.1
    have h2 := hq'.2
    rw [hp] at h2
    exact hpre (Option.some.inj h2 ▸ hpre')
  rw [hng]
  exact registro_unico h hf hg hg' hgw

end Memoria
end Kiss
