/-
# The module does to a process what the process does

Every operation of `tablas.c` on one table against the operation of its `Proceso`: first
the changes one at a time (`Ve.bits`, `Ve.palabra`, `Ve.archivo`, `Ve.mano`, `Ve.cambiar`,
`Ve.asignar`, `Ve.quitar`), then the functions.

Key definitions: `SinMarcos`.
Key theorems: `cargar_simula`, `escribir_simula`, `leer_simula`, `buscarMarco_simula`,
`suspender_simula`.
-/
import Kiss.Memoria.Proceso

namespace Kiss
namespace Memoria

open Reloj (avanzar)

variable {c : ConfigMemoria} {s s' s0 : MemoriaGlobal} {t u p i : ℕ} {q : ℕ × ℕ} {fin : List ℕ}
  {tt tt' : TablaPrimerNivel} {v : Proceso} {r r' : RegistroAsignado} {w w' : Pagina}

/-- A list changed in one place. -/
theorem map_modify {α β : Type*} {l : List α} {f f' : α → β} {g : β → β} {i : ℕ} {a : α}
    (hi : l[i]? = some a) (h : f' a = g (f a))
    (hne : ∀ j b, i ≠ j → l[j]? = some b → f' b = f b) : l.map f' = (l.map f).modify i g := by
  apply List.ext_getElem?
  intro j
  rw [List.getElem?_modify, List.getElem?_map, List.getElem?_map]
  by_cases hij : i = j
  · subst hij
    rw [hi]
    simp [h]
  · rcases hj : l[j]? with _ | b
    · rfl
    · simp [hij, hne j b hij hj]

/-- A list with another value in one place. -/
theorem map_set_congr {α β : Type*} {l : List α} {f f' : α → β} {i : ℕ} {a : α}
    (hne : ∀ j b, i ≠ j → l[j]? = some b → f' b = f b) : (l.set i a).map f' = (l.map f).set i (f' a) := by
  rw [List.map_set]
  apply List.ext_getElem?
  intro j
  rw [List.getElem?_set, List.getElem?_set, List.length_map, List.length_map]
  by_cases hij : i = j
  · simp [hij]
  · rw [if_neg hij, if_neg hij, List.getElem?_map, List.getElem?_map]
    rcases hj : l[j]? with _ | b
    · rfl
    · rw [Option.map_some, Option.map_some, hne j b hij hj]

/-! ### One change -/

namespace Ve

theorem vista_eq (h : Ve c fin t s0 s v) (ht : s.tabla t = some tt) : v = vistaDe c s tt := by
  have h1 := h.vista
  rw [Memoria.vista, ht, Option.map_some, Option.some.injEq] at h1
  exact h1.symm

/-- Entries of a process at different places are different. -/
theorem ptr_ne (hm : Marcos c s fin) (ht : s.tabla t = some tt) {j : ℕ}
    (hi : tt.paginasAsignadas[i]? = some r) (hj : tt.paginasAsignadas[j]? = some r') (hij : i ≠ j) :
    r'.paginaAsignada ≠ r.paginaAsignada := by
  intro hq
  obtain ⟨-, he⟩ := hm.mismo ht (List.mem_of_getElem? hj) ht (List.mem_of_getElem? hi) hq
  obtain ⟨hl, -⟩ := List.getElem?_eq_some_iff.mp hi
  apply hij
  apply (List.getElem?_inj (by rwa [List.length_map]) (hm.nodup ht)).mp
  rw [List.getElem?_map, List.getElem?_map, hi, hj, he]

/-- The bits of a page in memory. -/
theorem bits (h : Ve c fin t s0 s v) (ht : s.tabla t = some tt)
    (hi : tt.paginasAsignadas[i]? = some r) (a b : Bool → Bool) :
    Ve c fin t s0 (s.conPagina r.paginaAsignada fun w =>
        { w with uso := a w.uso, modificado := b w.modificado })
      (v.conResidentes (v.residentes.modify i fun x =>
        { x with uso := a x.uso, modificado := b x.modificado })) := by
  have hr := List.mem_of_getElem? hi
  obtain ⟨hd, w, hw, hp, hf, hg⟩ := h.marcos.asignada ht hr
  have h3 : ∀ q, q ≠ r.paginaAsignada → (s.conPagina r.paginaAsignada fun w =>
      { w with uso := a w.uso, modificado := b w.modificado }).pagina q = s.pagina q := fun q hq => by
    rw [pagina_conPagina, Function.update_of_ne hq]
  refine ⟨h.marcos.bits { w with uso := a w.uso, modificado := b w.modificado } hw hp hp rfl rfl
    (largo_conPagina ..) (by rw [pagina_conPagina, hw, Option.map_some]) rfl, ?_, h.ajenas.trans ?_⟩
  · have hl : tt.paginasAsignadas.map (residente c (s.conPagina r.paginaAsignada fun w =>
          { w with uso := a w.uso, modificado := b w.modificado })) =
        (tt.paginasAsignadas.map (residente c s)).modify i fun x =>
          { x with uso := a x.uso, modificado := b x.modificado } :=
      map_modify hi (by simp [residente, hw]) fun j r' hij hj =>
        residente_congr (h3 _ (ptr_ne h.marcos ht hi hj hij)) fun _ _ => rfl
    rw [Memoria.vista, tabla_conPagina, ht, Option.map_some, h.vista_eq ht]
    simp only [vistaDe, Proceso.conResidentes, hl, largo_conPagina, swap_conPagina]
  · refine ⟨rfl, fun _ _ => rfl, largo_conPagina .., fun u p q hu hq => h3 q ?_,
      fun f u p _ _ hg => ⟨hg, rfl⟩, fun _ _ _ _ => rfl⟩
    rintro rfl
    exact hu (h.marcos.distintas hq hd).1

/-- Bytes of a page in memory. -/
theorem palabra (h : Ve c fin t s0 s v) (ht : s.tabla t = some tt)
    (hi : tt.paginasAsignadas[i]? = some r) (hw : s.pagina r.paginaAsignada = some w) {d k : ℕ}
    (hdk : d + k ≤ c.tamPagina) (x : ℕ → UInt8) :
    Ve c fin t s0 (s.conEspacio (Copia.copiar s.espacioUsuario (inicioMarco c w.numeroMarco + d) k x))
      (v.conResidentes (v.residentes.modify i fun y => { y with bytes := Copia.copiar y.bytes d k x })) := by
  have hr := List.mem_of_getElem? hi
  obtain ⟨hd, w', hw', hp, hf, hg⟩ := h.marcos.asignada ht hr
  rw [hw] at hw'
  cases hw'
  -- a frame other than that of the page is not written
  have hotro : ∀ g < c.cantidad, g ≠ w.numeroMarco →
      Copia.leer (Copia.copiar s.espacioUsuario (inicioMarco c w.numeroMarco + d) k x)
        (inicioMarco c g) c.tamPagina = Copia.leer s.espacioUsuario (inicioMarco c g) c.tamPagina :=
    fun g hgc hne => by
      apply Copia.leer_copiar_of_disjoint
      rcases marcos_disjuntos hgc hf hne with h1 | h1 <;> omega
  refine ⟨h.marcos.congr rfl rfl rfl rfl, ?_, h.ajenas.trans ?_⟩
  · have hl : tt.paginasAsignadas.map (residente c (s.conEspacio
          (Copia.copiar s.espacioUsuario (inicioMarco c w.numeroMarco + d) k x))) =
        (tt.paginasAsignadas.map (residente c s)).modify i fun y =>
          { y with bytes := Copia.copiar y.bytes d k x } := by
      refine map_modify hi (by simp [residente, hw, Copia.leer_copiar_of_le hdk]) fun j r' hij hj =>
        residente_congr rfl fun w1 hw1 => ?_
      have hr' := List.mem_of_getElem? hj
      obtain ⟨-, w2, hw2, -, hf2, -⟩ := h.marcos.asignada ht hr'
      rw [hw1] at hw2
      cases hw2
      refine hotro _ hf2 fun he => ptr_ne h.marcos ht hi hj hij ?_
      rw [(h.marcos.exclusivo ht hr' hw1 ht hr hw he).2]
    rw [Memoria.vista, tabla_conEspacio, ht, Option.map_some, h.vista_eq ht]
    simp only [vistaDe, Proceso.conResidentes, hl, largo_conEspacio, swap_conEspacio]
  · refine ⟨rfl, fun _ _ => rfl, rfl, fun _ _ _ _ _ => rfl, fun f u p hfc hu hg' => ⟨hg', hotro f hfc ?_⟩,
      fun _ _ _ _ => rfl⟩
    rintro rfl
    rw [hg] at hg'
    have h1 : t = u ∧ r.numeroPagina = p := by simpa using hg'
    exact hu h1.1.symm

/-- The swap file. -/
theorem archivo (h : Ve c fin t s0 s v) (ht : s.tabla t = some tt) (a : Option Archivo) :
    Ve c fin t s0 (s.conSwap tt.pcbId a) { v with archivo := a } := by
  refine ⟨h.marcos.congr rfl rfl rfl rfl, ?_, h.ajenas.trans ?_⟩
  · rw [Memoria.vista, tabla_conSwap, ht, Option.map_some, h.vista_eq ht]
    have hl : residente c (s.conSwap tt.pcbId a) = residente c s :=
      funext fun r => residente_congr rfl fun _ _ => rfl
    simp only [vistaDe, hl, largo_conSwap, swap_conSwap, Function.update_self]
  · refine ⟨rfl, fun _ _ => rfl, rfl, fun _ _ _ _ _ => rfl, fun _ _ _ _ _ hg => ⟨hg, rfl⟩,
      fun tt' pid ht' hp => ?_⟩
    rw [ht] at ht'
    cases ht'
    rw [swap_conSwap, Function.update_of_ne hp]

/-- The hand. -/
theorem mano (h : Ve c fin t s0 s v) (ht : s.tabla t = some tt) (x : ℕ) :
    Ve c fin t s0 (s.conTabla t fun tt => { tt with punteroMarcos := x }) { v with puntero := x } := by
  have h1 : (s.conTabla t fun tt => { tt with punteroMarcos := x }).tabla =
      Function.update s.tabla t (some { tt with punteroMarcos := x }) := by
    rw [tabla_conTabla, ht, Option.map_some]
  refine ⟨h.marcos.mano { tt with punteroMarcos := x } ht h1 rfl rfl rfl rfl rfl, ?_, h.ajenas.trans ?_⟩
  · rw [Memoria.vista, h1, Function.update_self, Option.map_some, h.vista_eq ht]
    have hl : residente c (s.conTabla t fun tt => { tt with punteroMarcos := x }) = residente c s :=
      funext fun r => residente_congr rfl fun _ _ => rfl
    simp only [vistaDe, hl, largo_conTabla, swap_conTabla]
  · refine ⟨by rw [h1, Function.update_self, ht]; rfl, fun u hu => by rw [h1, Function.update_of_ne hu],
      rfl, fun _ _ _ _ _ => rfl, fun _ _ _ _ _ hg => ⟨hg, rfl⟩, fun _ _ _ _ => rfl⟩

/-- A page that is not present is not assigned. -/
theorem no_asignada (hm : Marcos c s fin) (ht : s.tabla t = some tt) (hq : dir c s t p = some q)
    (hw : s.pagina q = some w) (hp : w.presencia = false) :
    p ∉ tt.paginasAsignadas.map (·.numeroPagina) := by
  intro hmem
  obtain ⟨r, hr, rfl⟩ := List.mem_map.mp hmem
  obtain ⟨hd, w', hw', hp', -⟩ := hm.asignada ht hr
  rw [hq, Option.some.injEq] at hd
  rw [← hd, hw] at hw'
  cases hw'
  rw [hp] at hp'
  cases hp'

/-- A copy to a frame is not seen in another one. -/
theorem leer_otro {f g : ℕ} (hf : f < c.cantidad) (hg : g < c.cantidad) (h : g ≠ f)
    (m dato : ℕ → UInt8) :
    Copia.leer (Copia.copiar m (inicioMarco c f) c.tamPagina dato) (inicioMarco c g) c.tamPagina =
      Copia.leer m (inicioMarco c g) c.tamPagina :=
  Copia.leer_copiar_of_disjoint (marcos_disjuntos hg hf h)

/-- A page in the place of another one, that was not modified. -/
theorem cambiar (h : Ve c fin t s0 s v) (ht : s.tabla t = some tt)
    (hi : tt.paginasAsignadas[i]? = some r) (hw : s.pagina r.paginaAsignada = some w)
    (huso : w.uso = false) (hmod : w.modificado = false) (hq : dir c s t p = some q)
    (hw' : s.pagina q = some w') (hp : w'.presencia = false) (x : ℕ) {dato : ℕ → UInt8}
    (hdato : Copia.leer dato 0 c.tamPagina = dato)
    (h1 : s'.tabla = Function.update s.tabla t (some { tt with
      paginasAsignadas := tt.paginasAsignadas.set i ⟨p, q⟩
      punteroMarcos := x })) (h2 : s'.largo = s.largo)
    (h3 : s'.pagina = Function.update (Function.update s.pagina r.paginaAsignada
      (some { w with presencia := false })) q
      (some { w' with presencia := true, uso := true, numeroMarco := w.numeroMarco }))
    (h4 : s'.registroEspacioUsuario =
      Function.update s.registroEspacioUsuario w.numeroMarco ⟨true, t, p⟩)
    (h5 : s'.espacioUsuario =
      Copia.copiar s.espacioUsuario (inicioMarco c w.numeroMarco) c.tamPagina dato)
    (h6 : s'.swap = s.swap) :
    Ve c fin t s0 s' { v with
      residentes := v.residentes.set i ⟨p, true, false, dato⟩
      puntero := x } := by
  have hm := h.marcos
  have hr := List.mem_of_getElem? hi
  obtain ⟨hd, w1, hw1, -, hf, hg⟩ := hm.asignada ht hr
  rw [hw] at hw1
  cases hw1
  have hnot := no_asignada hm ht hq hw' hp
  have hpag : ∀ q', q' ≠ q → q' ≠ r.paginaAsignada → s'.pagina q' = s.pagina q' := fun q' h7 h8 => by
    rw [h3, Function.update_of_ne h7, Function.update_of_ne h8]
  have hotro : ∀ g < c.cantidad, g ≠ w.numeroMarco →
      Copia.leer s'.espacioUsuario (inicioMarco c g) c.tamPagina =
        Copia.leer s.espacioUsuario (inicioMarco c g) c.tamPagina := fun g hgc hne => by
    rw [h5, leer_otro hf hgc hne]
  refine ⟨?_, ?_, h.ajenas.trans ?_⟩
  · exact hm.cambiar ht hi hw huso hmod hq hw' hp hnot x h1 h2 h3 h4
  · have h7 : residente c s' ⟨p, q⟩ = ⟨p, true, false, dato⟩ := by
      have h8 := (hm.ausente hq hw' hp).2
      simp [residente, h3, h5, h8, Copia.leer_copiar, hdato]
    have hl : (tt.paginasAsignadas.set i ⟨p, q⟩).map (residente c s') =
        (tt.paginasAsignadas.map (residente c s)).set i ⟨p, true, false, dato⟩ := by
      rw [← h7]
      refine map_set_congr fun j r' hij hj => ?_
      have hr' := List.mem_of_getElem? hj
      have h8 : r'.paginaAsignada ≠ q := by
        rintro rfl
        exact hnot (List.mem_map.mpr ⟨r', hr', (hm.distintas (hm.asignada ht hr').1 hq).2⟩)
      have h9 := ptr_ne hm ht hi hj hij
      rw [residente_congr (hpag _ h8 h9) fun w1 hw1 => ?_]
      obtain ⟨-, w2, hw2, -, hf2, -⟩ := hm.asignada ht hr'
      rw [hw1] at hw2
      cases hw2
      refine hotro _ hf2 fun he => h9 ?_
      rw [(hm.exclusivo ht hr' hw1 ht hr hw he).2]
    rw [Memoria.vista, h1, Function.update_self, Option.map_some, h.vista_eq ht]
    simp only [vistaDe, hl, h2, h6]
  · refine ⟨by rw [h1, Function.update_self, ht]; rfl, fun u hu => by rw [h1, Function.update_of_ne hu], h2,
      fun u p' q' hu hq' => hpag q' ?_ ?_, fun f u p' hfc hu hg' => ?_, fun _ _ _ _ => by rw [h6]⟩
    · rintro rfl
      exact hu (hm.distintas hq' hq).1
    · rintro rfl
      exact hu (hm.distintas hq' hd).1
    · have hne : f ≠ w.numeroMarco := by
        rintro rfl
        rw [hg] at hg'
        have h7 : t = u ∧ r.numeroPagina = p' := by simpa using hg'
        exact hu h7.1.symm
      exact ⟨by rw [h4, Function.update_of_ne hne, hg'], hotro f hfc hne⟩

/-- A page in a free frame. -/
theorem asignar (h : Ve c fin t s0 s v) (ht : s.tabla t = some tt)
    (hq : dir c s t p = some q) (hw : s.pagina q = some w) (hp : w.presencia = false) {f : ℕ}
    (hf : f < c.cantidad) (hlibre : (s.registroEspacioUsuario f).asignado = false) (x : ℕ)
    {dato : ℕ → UInt8} (hdato : Copia.leer dato 0 c.tamPagina = dato)
    (h1 : s'.tabla = Function.update s.tabla t (some { tt with
      paginasAsignadas := tt.paginasAsignadas ++ [⟨p, q⟩]
      punteroMarcos := x })) (h2 : s'.largo = s.largo)
    (h3 : s'.pagina = Function.update s.pagina q
      (some { w with presencia := true, uso := true, numeroMarco := f }))
    (h4 : s'.registroEspacioUsuario = Function.update s.registroEspacioUsuario f ⟨true, t, p⟩)
    (h5 : s'.espacioUsuario = Copia.copiar s.espacioUsuario (inicioMarco c f) c.tamPagina dato)
    (h6 : s'.swap = s.swap) :
    Ve c fin t s0 s' { v with
      residentes := v.residentes ++ [⟨p, true, false, dato⟩]
      puntero := x } := by
  have hm := h.marcos
  have hnot := no_asignada hm ht hq hw hp
  have hpag : ∀ q', q' ≠ q → s'.pagina q' = s.pagina q' := fun q' h7 => by
    rw [h3, Function.update_of_ne h7]
  have hreg : ∀ g < c.cantidad, ∀ u p', s.registroEspacioUsuario g = ⟨true, u, p'⟩ → g ≠ f ∧
      Copia.leer s'.espacioUsuario (inicioMarco c g) c.tamPagina =
        Copia.leer s.espacioUsuario (inicioMarco c g) c.tamPagina := fun g hgc u p' hg => by
    have hne : g ≠ f := by
      rintro rfl
      rw [hg] at hlibre
      cases hlibre
    exact ⟨hne, by rw [h5, leer_otro hf hgc hne]⟩
  refine ⟨?_, ?_, h.ajenas.trans ?_⟩
  · refine hm.asignar _ _ ht hq hw hp hf hlibre (by rfl) (by rfl) ?_ ?_ (by rfl) h1 h2 h3 h4
    · intro r'
      simp
    · rw [List.map_append, List.map_singleton]
      exact List.nodup_append.mpr ⟨hm.nodup ht, List.nodup_singleton _, fun a ha b hb hab =>
        hnot (by rwa [hab, List.mem_singleton.mp hb] at ha)⟩
  · have h7 : residente c s' ⟨p, q⟩ = ⟨p, true, false, dato⟩ := by
      have h8 := (hm.ausente hq hw hp).2
      simp [residente, h3, h5, h8, Copia.leer_copiar, hdato]
    have hl : tt.paginasAsignadas.map (residente c s') = tt.paginasAsignadas.map (residente c s) := by
      refine List.map_congr_left fun r hr => ?_
      obtain ⟨hd, w1, hw1, -, hf1, hg1⟩ := hm.asignada ht hr
      have h8 : r.paginaAsignada ≠ q := by
        rintro rfl
        exact hnot (List.mem_map.mpr ⟨r, hr, (hm.distintas hd hq).2⟩)
      rw [residente_congr (hpag _ h8) fun w2 hw2 => ?_]
      rw [hw1] at hw2
      cases hw2
      exact (hreg _ hf1 _ _ hg1).2
    rw [Memoria.vista, h1, Function.update_self, Option.map_some, h.vista_eq ht]
    simp only [vistaDe, List.map_append, List.map_cons, List.map_nil, h7, hl, h2, h6]
  · refine ⟨by rw [h1, Function.update_self, ht]; rfl, fun u hu => by rw [h1, Function.update_of_ne hu], h2,
      fun u p' q' hu hq' => hpag q' ?_, fun g u p' hgc hu hg => ?_, fun _ _ _ _ => by rw [h6]⟩
    · rintro rfl
      exact hu (hm.distintas hq' hq).1
    · obtain ⟨hne, h7⟩ := hreg g hgc u p' hg
      exact ⟨by rw [h4, Function.update_of_ne hne, hg], h7⟩

/-- The first page is taken out. -/
theorem quitar (h : Ve c fin t s0 s v) (s' : MemoriaGlobal) {l : List RegistroAsignado}
    (ht : s.tabla t = some tt)
    (hl : tt.paginasAsignadas = r :: l) (hw : s.pagina r.paginaAsignada = some w)
    (h1 : s'.tabla = Function.update s.tabla t (some { tt with paginasAsignadas := l }))
    (h2 : s'.largo = s.largo)
    (h3 : s'.pagina = Function.update s.pagina r.paginaAsignada
      (some { w with presencia := false, uso := false, modificado := false }))
    (h4 : s'.registroEspacioUsuario = Function.update s.registroEspacioUsuario w.numeroMarco
      { s.registroEspacioUsuario w.numeroMarco with asignado := false })
    (h5 : s'.espacioUsuario = s.espacioUsuario) (h6 : s'.swap = s.swap) :
    Ve c fin t s0 s' (v.conResidentes v.residentes.tail) := by
  have hm := h.marcos
  have hr : r ∈ tt.paginasAsignadas := by rw [hl]; exact List.mem_cons_self
  obtain ⟨hd, w1, hw1, hp1, hf, hg⟩ := hm.asignada ht hr
  rw [hw] at hw1
  cases hw1
  have hnd := hm.nodup ht
  rw [hl, List.map_cons, List.nodup_cons] at hnd
  have hpag : ∀ q', q' ≠ r.paginaAsignada → s'.pagina q' = s.pagina q' := fun q' h7 => by
    rw [h3, Function.update_of_ne h7]
  refine ⟨?_, ?_, h.ajenas.trans ?_⟩
  · refine hm.quitar { tt with paginasAsignadas := l } _ ht hr hw (Or.inr ⟨rfl, rfl, rfl⟩) (fun r' => ?_)
      hnd.2 (by rfl) h1 h2 h3 (by rfl) h4
    rw [hl, List.mem_cons]
    constructor
    · intro h7
      refine ⟨Or.inr h7, ?_⟩
      rintro rfl
      exact hnd.1 (List.mem_map_of_mem h7)
    · rintro ⟨rfl | h7, h8⟩
      · exact absurd rfl h8
      · exact h7
  · have h7 : l.map (residente c s') = l.map (residente c s) := by
      refine List.map_congr_left fun r' hr' => residente_congr (hpag _ ?_) fun _ _ => by rw [h5]
      intro hq
      have hmem : r' ∈ tt.paginasAsignadas := by rw [hl]; exact List.mem_cons_of_mem _ hr'
      rw [(hm.mismo ht hmem ht hr hq).2] at hr'
      exact hnd.1 (List.mem_map_of_mem hr')
    rw [Memoria.vista, h1, Function.update_self, Option.map_some, h.vista_eq ht]
    simp only [vistaDe, Proceso.conResidentes, hl, List.map_cons, List.tail_cons, h7, h2, h6]
  · refine ⟨by rw [h1, Function.update_self, ht]; rfl, fun u hu => by rw [h1, Function.update_of_ne hu], h2,
      fun u p' q' hu hq' => hpag q' ?_, fun f u p' _ hu hg' => ?_, fun _ _ _ _ => by rw [h6]⟩
    · rintro rfl
      exact hu (hm.distintas hq' hd).1
    · have hne : f ≠ w.numeroMarco := by
        rintro rfl
        rw [hg] at hg'
        have h7 : t = u ∧ r.numeroPagina = p' := by simpa using hg'
        exact hu h7.1.symm
      exact ⟨by rw [h4, Function.update_of_ne hne, hg'], by rw [h5]⟩

end Ve

/-! ### Loading a page -/

/-- There is no free frame. -/
def SinMarcos (c : ConfigMemoria) (s : MemoriaGlobal) : Prop :=
  ∀ f < c.cantidad, (s.registroEspacioUsuario f).asignado = true

theorem buscarMarcoLibre_of_sinMarcos (h : SinMarcos c s) : buscarMarcoLibre c s = (u32Max, s) := by
  have h1 : (List.range c.cantidad).find? (fun i => !(s.registroEspacioUsuario i).asignado) = none := by
    rw [List.find?_eq_none]
    intro f hf
    simp [h f (List.mem_range.mp hf)]
  rw [buscarMarcoLibre, h1]

theorem buscarMarcoLibre_of_libre (h : ¬ SinMarcos c s) :
    ∃ f < c.cantidad, (s.registroEspacioUsuario f).asignado = false ∧
      buscarMarcoLibre c s = (f, s.conRegistro f fun r => { r with asignado := true }) := by
  rcases h1 : (List.range c.cantidad).find? (fun i => !(s.registroEspacioUsuario i).asignado) with _ | f
  · refine absurd (fun f hf => ?_) h
    simpa using List.find?_eq_none.mp h1 f (List.mem_range.mpr hf)
  · refine ⟨f, List.mem_range.mp (List.mem_of_find?_eq_some h1), by simpa using List.find?_some h1, ?_⟩
    rw [buscarMarcoLibre, h1]

theorem buscar_of_dir (h : dir c s t p = some q) : buscarPaginaEnTablas c s t p = some (some q) := by
  rw [← join_buscarPaginaEnTablas] at h
  exact Option.join_eq_some_iff.mp h

theorem not_u32Max_lt (c : ConfigMemoria) : ¬ u32Max < c.cantidad := by
  have h1 : c.cantidad ≤ c.tamMemoria := Nat.div_le_self _ _
  have h2 := c.tamMemoria_lt
  unfold u32Max
  omega

/-- With no free frame the assignment writes outside the registry. -/
theorem asignar_of_sinMarcos (h : SinMarcos c s) : asignarMarcoYCargarPaginaDeSwap c s t p = none := by
  unfold asignarMarcoYCargarPaginaDeSwap
  rw [buscarMarcoLibre_of_sinMarcos h]
  simp only [escribirRegistro, if_neg (not_u32Max_lt c)]
  rcases buscarPaginaEnTablas c s t p with _ | _ | q <;> rfl

theorem leer_leerArchivo {a : Archivo} {pos : ℕ} {dato : ℕ → UInt8} (h : leerArchivo c a pos = some dato) :
    Copia.leer dato 0 c.tamPagina = dato := by
  unfold leerArchivo at h
  split_ifs at h
  rw [← Option.some.inj h, Copia.leer_leer]

/-- The file that a process reads is its own. -/
theorem leerPaginaSwap_eq (h : Ve c fin t s0 s v) (tt' : TablaPrimerNivel) (ht' : s'.tabla t = some tt')
    (ht : s.tabla t = some tt) (hp : tt'.pcbId = tt.pcbId) (hs : s'.swap = s.swap) :
    leerPaginaSwap c s' t (numeroDeTabla c p) (numeroDePagina c p) = v.leerSwap c p := by
  rw [h.vista_eq ht]
  simp only [leerPaginaSwap, ht', Option.bind_eq_bind, Option.bind_some, hp, hs, Proceso.leerSwap, vistaDe]

/-- An entry is in a table. -/
theorem pagina_of_dir (h : dir c s t p = some q) : ∃ w, s.pagina q = some w := by
  obtain ⟨tt, -, h⟩ := Option.bind_eq_some_iff.mp h
  obtain ⟨n, -, h⟩ := Option.bind_eq_some_iff.mp h
  obtain ⟨k, hk, h⟩ := Option.bind_eq_some_iff.mp h
  split_ifs at h with hlt
  obtain ⟨l, hl, rfl⟩ := Option.map_eq_some_iff.mp hk
  refine ⟨l[numeroDePagina c p], ?_⟩
  rw [← Option.some.inj h, MemoriaGlobal.pagina, paginaEn, hl, Option.bind_some,
    List.getElem?_eq_getElem hlt]

/-- A page that is not assigned is not present. -/
theorem ausente_of_dir (hm : Marcos c s fin) (hfin : t ∉ fin) (ht : s.tabla t = some tt)
    (hq : dir c s t p = some q) (hnot : p ∉ tt.paginasAsignadas.map (·.numeroPagina)) :
    ∃ w, s.pagina q = some w ∧ w.presencia = false := by
  obtain ⟨w, hw⟩ := pagina_of_dir hq
  refine ⟨w, hw, ?_⟩
  by_contra hp
  exact hnot (List.mem_map_of_mem (f := (·.numeroPagina))
    (hm.presente hfin ht hq hw (by simpa using hp)))

theorem asignar_simula (h : Ve c fin t s0 s v) (hfin : t ∉ fin) (hlibre : ¬ SinMarcos c s)
    (ht : s.tabla t = some tt) (hq : dir c s t p = some q)
    (hnot : p ∉ tt.paginasAsignadas.map (·.numeroPagina)) :
    Option.Rel (Ve c fin t s0) (asignarMarcoYCargarPaginaDeSwap c s t p) (v.asignar c p) := by
  obtain ⟨f, hf, hfree, hb⟩ := buscarMarcoLibre_of_libre hlibre
  obtain ⟨w, hw, hp⟩ := ausente_of_dir h.marcos hfin ht hq hnot
  have hbus : buscarPaginaEnTablas c (s.conRegistro f fun r => { r with asignado := true }) t p =
      some (some q) := buscar_of_dir ((congrFun (dir_congr rfl rfl) p).trans hq)
  unfold asignarMarcoYCargarPaginaDeSwap Proceso.asignar
  simp only [hb, hbus, Option.bind_eq_bind, Option.bind_some, escribirRegistro, if_pos hf]
  rw [leerPaginaSwap_eq h { tt with
      paginasAsignadas := tt.paginasAsignadas ++ [⟨p, q⟩]
      punteroMarcos := avanzar c.marcosPorProceso tt.punteroMarcos } (by simp [ht]) ht rfl (by simp)]
  rcases hl : v.leerSwap c p with _ | dato
  · exact Option.Rel.none
  · have hd : Copia.leer dato 0 c.tamPagina = dato := by
      obtain ⟨a, -, ha⟩ := Option.bind_eq_some_iff.mp hl
      exact leer_leerArchivo ha
    simp only [Option.bind_some, escribirMarcoCompleto, if_pos (marco_le hf)]
    refine Option.Rel.some ?_
    have hp1 : v.puntero = tt.punteroMarcos := by rw [h.vista_eq ht]; rfl
    refine h.asignar ht hq hw hp hf hfree (avanzar c.marcosPorProceso v.puntero) hd ?_ ?_ ?_ ?_ ?_ ?_
    · simp [ht, hp1]
    · simp
    · simp [hw]
    · simp
    · simp
    · simp

/-- The algorithms see the same bits in the tables and in the process. -/
theorem concuerdan (c : ConfigMemoria) (fin : List ℕ) (s0 : MemoriaGlobal) (v : Proceso)
    (ht : s.tabla t = some tt) :
    Reloj.Concuerdan (paginasDe tt.paginasAsignadas) bitsDe
      (fun l rs => Ve c fin t s0 (s.conPaginas l) (v.conResidentes rs)) where
  leer {l rs} h i := by
    have h1 : rs = tt.paginasAsignadas.map (residente c (s.conPaginas l)) :=
      congrArg Proceso.residentes (h.vista_eq (s := s.conPaginas l) ht)
    simp only [paginasDe, bitsDe, h1, List.getElem?_map]
    rcases hi : tt.paginasAsignadas[i]? with _ | r
    · rfl
    · obtain ⟨-, w, hw, -⟩ := h.marcos.asignada (s := s.conPaginas l) ht (List.mem_of_getElem? hi)
      have hw' : paginaEn l r.paginaAsignada = some w := hw
      simp [residente, hw, hw']
  limpiar {l rs} h i hs := by
    have h1 : rs = tt.paginasAsignadas.map (residente c (s.conPaginas l)) :=
      congrArg Proceso.residentes (h.vista_eq (s := s.conPaginas l) ht)
    simp only [paginasDe, bitsDe]
    rcases hi : tt.paginasAsignadas[i]? with _ | r
    · rw [h1] at hs
      simp [bitsDe, hi] at hs
    · exact h.bits (s := s.conPaginas l) ht hi (fun _ => false) id

/-- The victim, and its bit of use. -/
theorem seleccionar_simula (h : Ve c fin t s0 s v) (ht : s.tabla t = some tt) :
    Option.Rel (fun s1 x => Ve c fin t s0 s1 { v with residentes := x.1, puntero := x.2 } ∧
        s1.tabla t = some { tt with punteroMarcos := x.2 })
      (seleccionarPaginaVictima c s t) (v.victima c) := by
  have hp : v.puntero = tt.punteroMarcos := by rw [h.vista_eq ht]; rfl
  have hfin : ∀ {l rs j}, Ve c fin t s0 (s.conPaginas l) (v.conResidentes rs) →
      Ve c fin t s0 ((s.conPaginas l).conTabla t fun tt => { tt with punteroMarcos := j })
        { v with residentes := rs, puntero := j } ∧
      ((s.conPaginas l).conTabla t fun tt => { tt with punteroMarcos := j }).tabla t =
        some { tt with punteroMarcos := j } := fun {l rs j} h1 => by
    have ht' : (s.conPaginas l).tabla t = some tt := ht
    exact ⟨h1.mano ht' j, by simp [ht']⟩
  unfold seleccionarPaginaVictima Proceso.victima
  rcases c.algoritmoReemplazo
  · have h1 := Reloj.clock_rel (concuerdan c fin s0 v ht)
      c.marcosPorProceso (c.marcosPorProceso + 1) v.puntero (s := s.listaTablasDePaginas)
      (a := v.residentes) h
    simp only [seleccionarPaginaVictimaClock, ht, Option.bind_eq_bind, Option.bind_some, ← hp]
    revert h1
    generalize Reloj.clock (paginasDe tt.paginasAsignadas) _ _ _ _ = x
    generalize Reloj.clock bitsDe _ _ _ _ = y
    rintro (⟨h1, h2⟩ | _)
    · exact Option.Rel.some (h2 ▸ hfin h1)
    · exact Option.Rel.none
  · have h1 := Reloj.clockM_rel (concuerdan c fin s0 v ht)
      c.marcosPorProceso 2 v.puntero (s := s.listaTablasDePaginas) (a := v.residentes) h
    simp only [seleccionarPaginaVictimaClockM, ht, Option.bind_eq_bind, Option.bind_some, ← hp]
    revert h1
    generalize Reloj.clockM (paginasDe tt.paginasAsignadas) _ _ _ _ = x
    generalize Reloj.clockM bitsDe _ _ _ _ = y
    rintro (⟨h1, h2⟩ | _)
    · exact Option.Rel.some (h2 ▸ hfin h1)
    · exact Option.Rel.none
  · exact Option.Rel.none

theorem victima_leer {x : List Residente × ℕ} (h : v.victima c = some x) :
    ∃ b, bitsDe.leer x.1 x.2 = some (false, b) := by
  unfold Proceso.victima at h
  split at h
  · exact Reloj.clock_leer h
  · exact Reloj.clockM_leer h
  · cases h

theorem set_modify {α : Type*} (l : List α) (i : ℕ) (f : α → α) (a : α) :
    (l.modify i f).set i a = l.set i a := by
  apply List.ext_getElem?
  intro j
  by_cases hij : i = j
  · subst hij
    simp [List.getElem?_set]
  · simp [hij]

/-- The page of a place in the list. -/
theorem residente_de (h : Ve c fin t s0 s v) (ht : s.tabla t = some tt) {x : Residente}
    (hx : v.residentes[i]? = some x) : ∃ r w, tt.paginasAsignadas[i]? = some r ∧
      s.pagina r.paginaAsignada = some w ∧ w.numeroMarco < c.cantidad ∧
      x = ⟨r.numeroPagina, w.uso, w.modificado,
        Copia.leer s.espacioUsuario (inicioMarco c w.numeroMarco) c.tamPagina⟩ := by
  rw [h.vista_eq ht] at hx
  simp only [vistaDe, List.getElem?_map] at hx
  obtain ⟨r, hr, rfl⟩ := Option.map_eq_some_iff.mp hx
  obtain ⟨-, w, hw, -, hf, -⟩ := h.marcos.asignada ht (List.mem_of_getElem? hr)
  exact ⟨r, w, hr, hw, hf, by simp [residente, hw]⟩

/-- A page of the process that goes to its place in the file. -/
theorem escribirSwap_simula (h : Ve c fin t s0 s v) (s' : MemoriaGlobal) (tt' : TablaPrimerNivel)
    (ht' : s'.tabla t = some tt')
    (ht : s.tabla t = some tt) (hp : tt'.pcbId = tt.pcbId) (hs : s'.swap = s.swap) (x : Residente) :
    Option.Rel (fun s2 v2 => ∃ a, s2 = s'.conSwap tt.pcbId (some a) ∧ v2 = { v with archivo := some a })
      (escribirPaginaSwap c s' t (numeroDeTabla c x.numeroPagina) x.numeroPagina x.bytes)
      (v.escribirSwap c x) := by
  have ha : v.archivo = s.swap tt.pcbId := by rw [h.vista_eq ht]; rfl
  simp only [escribirPaginaSwap, ht', Option.bind_eq_bind, Option.bind_some, hp, hs, Proceso.escribirSwap,
    ha]
  rcases s.swap tt.pcbId with _ | a
  · exact Option.Rel.none
  · exact Option.Rel.some ⟨_, rfl, rfl⟩

/-- The victim on its way out: its page is not modified any more. -/
theorem guardar_simula (h : Ve c fin t s0 s v) (ht : s.tabla t = some tt)
    (hi : tt.paginasAsignadas[i]? = some r) (hw : s.pagina r.paginaAsignada = some w)
    (hf : w.numeroMarco < c.cantidad) {x : Residente} (hx : x = ⟨r.numeroPagina, w.uso, w.modificado,
      Copia.leer s.espacioUsuario (inicioMarco c w.numeroMarco) c.tamPagina⟩) :
    Option.Rel (fun s2 v2 => (∃ l, (∀ y, l.set i y = v2.residentes.set i y) ∧
        Ve c fin t s0 s2 (v2.conResidentes l)) ∧ v2.puntero = v.puntero ∧ s2.tabla t = some tt ∧
        s2.pagina r.paginaAsignada = some { w with modificado := false })
      (guardarVictima c s t r w) (v.guardar c x) := by
  obtain ⟨num, m, uso, pres⟩ := w
  subst hx
  unfold guardarVictima Proceso.guardar
  cases m
  · exact Option.Rel.some ⟨⟨v.residentes, fun _ => rfl, h⟩, rfl, ht, hw⟩
  · have h1 := escribirSwap_simula h s tt ht ht rfl rfl ⟨r.numeroPagina, uso, true,
      Copia.leer s.espacioUsuario (inicioMarco c num) c.tamPagina⟩
    simp only [if_true, leerMarcoCompleto, if_pos (marco_le hf), Option.bind_eq_bind, Option.bind_some]
    revert h1
    generalize escribirPaginaSwap c s t _ _ _ = y
    generalize v.escribirSwap c _ = z
    rintro (⟨a, rfl, rfl⟩ | _)
    · have h2 := (h.archivo ht (some a)).bits (s := s.conSwap tt.pcbId (some a)) ht hi id fun _ => false
      exact Option.Rel.some ⟨⟨_, fun y => set_modify .., h2⟩, rfl, ht, by simp [hw]⟩
    · exact Option.Rel.none

theorem reemplazar_simula (h : Ve c fin t s0 s v) (hfin : t ∉ fin) (ht : s.tabla t = some tt)
    (hq : dir c s t p = some q) (hnot : p ∉ tt.paginasAsignadas.map (·.numeroPagina)) :
    Option.Rel (Ve c fin t s0) (reemplazarPaginaDeSwapAMemoria c s t p) (v.reemplazar c p) := by
  have h1 := seleccionar_simula h ht
  unfold reemplazarPaginaDeSwapAMemoria Proceso.reemplazar
  rcases hv : v.victima c with _ | ⟨l, i⟩
  · rw [hv] at h1
    rcases hs : seleccionarPaginaVictima c s t with _ | s1
    · exact Option.Rel.none
    · rw [hs] at h1
      cases h1
  rw [hv] at h1
  rcases hs : seleccionarPaginaVictima c s t with _ | s1
  · rw [hs] at h1
    cases h1
  rw [hs] at h1
  obtain ⟨h2, ht1⟩ : Ve c fin t s0 s1 { v with residentes := l, puntero := i } ∧
      s1.tabla t = some { tt with punteroMarcos := i } := by
    cases h1 with
    | some h1 => exact h1
  -- the victim is a page of the process that is not in use
  obtain ⟨b, hb⟩ := victima_leer hv
  obtain ⟨x, hx, hbits⟩ := Option.map_eq_some_iff.mp hb
  obtain ⟨r, w, hi, hw, hf, hxe⟩ := residente_de h2 ht1 hx
  have huso : w.uso = false := by
    rw [hxe] at hbits
    exact congrArg Prod.fst hbits
  have h3 := guardar_simula h2 ht1 hi hw hf hxe
  have hx' : l[i]? = some x := hx
  have hi' : tt.paginasAsignadas[i]? = some r := hi
  simp only [Option.bind_eq_bind, Option.bind_some, ht1, hi', hw, hx']
  revert h3
  generalize guardarVictima c s1 t r w = y
  generalize Proceso.guardar c { v with residentes := l, puntero := i } x = z
  rintro (⟨⟨⟨l', hset, h4⟩, hp2, ht2, hw2⟩⟩ | _)
  · rename_i s2 v2
    simp only [Option.bind_some]
    have hdir : dir c s2 t p = some q := by rw [h4.ajenas.dir, ← h.ajenas.dir, hq]
    obtain ⟨w', hw', hp'⟩ := ausente_of_dir h4.marcos hfin ht2 hdir hnot
    rw [leerPaginaSwap_eq h4 { tt with punteroMarcos := i } (by simp [ht2]) ht2 rfl (by simp)]
    have hsw : (v2.conResidentes l').leerSwap c p = v2.leerSwap c p := rfl
    rw [hsw]
    rcases hl : v2.leerSwap c p with _ | dato
    · exact Option.Rel.none
    · have hd : Copia.leer dato 0 c.tamPagina = dato := by
        obtain ⟨a, -, ha⟩ := Option.bind_eq_some_iff.mp hl
        exact leer_leerArchivo ha
      have hbus : ∀ m, buscarPaginaEnTablas c ((s2.conPagina r.paginaAsignada fun v =>
          { v with presencia := false }).conEspacio m) t p = some (some q) := fun m => by
        apply buscar_of_dir
        rw [← hdir]
        refine congrFun (dir_congr ?_ ?_) p
        · rfl
        · exact largo_conPagina s2 _
      simp only [Option.bind_some, escribirMarcoCompleto, if_pos (marco_le hf), hbus, escribirRegistro,
        if_pos hf]
      refine Option.Rel.some ?_
      rw [← hset]
      obtain ⟨-, w2, hw3, hp3, -, hg2⟩ := h4.marcos.asignada ht2 (List.mem_of_getElem? hi)
      rw [hw2] at hw3
      cases hw3
      refine h4.cambiar ht2 hi hw2 huso rfl hdir hw' hp' (avanzar c.marcosPorProceso i) hd
        ?_ ?_ ?_ ?_ ?_ ?_
      · simp [ht2]
      · simp
      · have hqr : q ≠ r.paginaAsignada := by
          rintro rfl
          rw [hw2] at hw'
          cases hw'
          rw [hp3] at hp'
          cases hp'
        simp [hw2, hw', Function.update_of_ne hqr]
      · have hg3 : s2.registroEspacioUsuario w.numeroMarco = ⟨true, t, r.numeroPagina⟩ := hg2
        simp [hg3]
      · simp
      · simp
  · exact Option.Rel.none

/-- There is no frame for page `p`, which is not in memory, and the process may have more. -/
def Agotado (c : ConfigMemoria) (s : MemoriaGlobal) (t p : ℕ) : Prop :=
  SinMarcos c s ∧ ∃ tt, s.tabla t = some tt ∧ tt.paginasAsignadas.length < c.marcosPorProceso ∧
    p ∉ tt.paginasAsignadas.map (·.numeroPagina)

theorem cargar_simula (h : Ve c fin t s0 s v) (hfin : t ∉ fin) (ht : s.tabla t = some tt)
    (hq : dir c s t p = some q) (hnot : p ∉ tt.paginasAsignadas.map (·.numeroPagina)) :
    Agotado c s t p ∧ cargarPaginaDeSwapAMemoria c s t p = none ∨
      Option.Rel (Ve c fin t s0) (cargarPaginaDeSwapAMemoria c s t p) (v.cargar c p) := by
  have hlen : v.residentes.length = tt.paginasAsignadas.length := by
    rw [h.vista_eq ht]
    exact List.length_map _
  unfold cargarPaginaDeSwapAMemoria Proceso.cargar
  simp only [ht, Option.bind_eq_bind, Option.bind_some, hlen]
  by_cases hl : tt.paginasAsignadas.length < c.marcosPorProceso
  · rw [if_pos hl, if_pos hl]
    by_cases hs : SinMarcos c s
    · exact Or.inl ⟨⟨hs, tt, ht, hl, hnot⟩, asignar_of_sinMarcos hs⟩
    · exact Or.inr (asignar_simula h hfin hs ht hq hnot)
  · rw [if_neg hl, if_neg hl]
    exact Or.inr (reemplazar_simula h hfin ht hq hnot)

/-! ### Pages of the process by number -/

theorem residente_mem {x : Residente} (h : v.residente p = some x) :
    (∃ i : ℕ, v.residentes[i]? = some x) ∧ x.numeroPagina = p :=
  ⟨List.mem_iff_getElem?.mp (List.mem_of_find?_eq_some h), by simpa using List.find?_some h⟩

theorem nodup_residentes (h : Ve c fin t s0 s v) (ht : s.tabla t = some tt) :
    v.residentes.map (·.numeroPagina) = tt.paginasAsignadas.map (·.numeroPagina) ∧
      (v.residentes.map (·.numeroPagina)).Nodup := by
  have h1 : v.residentes.map (·.numeroPagina) = tt.paginasAsignadas.map (·.numeroPagina) := by
    rw [h.vista_eq ht]
    simp only [vistaDe, List.map_map]
    refine List.map_congr_left fun r _ => ?_
    simp only [Function.comp_apply, residente]
    rcases s.pagina r.paginaAsignada with _ | w <;> rfl
  exact ⟨h1, h1 ▸ h.marcos.nodup ht⟩

/-- A page by its number and by its place. -/
theorem conResidente_eq (hn : (v.residentes.map (·.numeroPagina)).Nodup) {x : Residente}
    (hx : v.residentes[i]? = some x) (hp : x.numeroPagina = p) (f : Residente → Residente) :
    v.conResidente p f = v.conResidentes (v.residentes.modify i f) := by
  unfold Proceso.conResidente Proceso.conResidentes
  have h1 : v.residentes.map (fun r => if r.numeroPagina = p then f r else r) =
      (v.residentes.map id).modify i f := by
    refine map_modify hx (if_pos hp) fun j y hij hy => if_neg fun hp' => hij ?_
    obtain ⟨hl, -⟩ := List.getElem?_eq_some_iff.mp hx
    apply (List.getElem?_inj (by rwa [List.length_map]) hn).mp
    rw [List.getElem?_map, List.getElem?_map, hx, hy, Option.map_some, Option.map_some, hp, hp']
  rw [h1, List.map_id]

theorem residente_eq (hn : (v.residentes.map (·.numeroPagina)).Nodup) {x : Residente}
    (hx : v.residentes[i]? = some x) (hp : x.numeroPagina = p) : v.residente p = some x := by
  have h1 : (v.residente p).isSome := by
    rw [Proceso.residente, List.find?_isSome]
    exact ⟨x, List.mem_of_getElem? hx, by simpa using hp⟩
  obtain ⟨y, hy⟩ := Option.isSome_iff_exists.mp h1
  obtain ⟨⟨j, hj⟩, hp'⟩ := residente_mem hy
  obtain ⟨hl, -⟩ := List.getElem?_eq_some_iff.mp hx
  have hij : i = j := by
    apply (List.getElem?_inj (by rwa [List.length_map]) hn).mp
    rw [List.getElem?_map, List.getElem?_map, hx, hj, Option.map_some, Option.map_some, hp, hp']
  rw [hij, hj, Option.some.injEq] at hx
  rw [hy, hx]

theorem modify_congr {α : Type*} {l : List α} {a : α} {f g : α → α} (hi : l[i]? = some a)
    (h : f a = g a) : l.modify i f = l.modify i g := by
  apply List.ext_getElem?
  intro j
  by_cases hij : i = j
  · subst hij
    simp [hi, h]
  · simp [hij]

/-- After a load the page is in memory, in use and not modified. -/
theorem cargada {v' : Proceso} (h : v.cargar c p = some v') :
    ∃ (i : ℕ) (dato : ℕ → UInt8), v'.residentes[i]? = some ⟨p, true, false, dato⟩ := by
  unfold Proceso.cargar at h
  split_ifs at h
  · obtain ⟨dato, -, h⟩ := Option.bind_eq_some_iff.mp h
    rw [← Option.some.inj h]
    exact ⟨v.residentes.length, dato, by simp⟩
  · obtain ⟨⟨l, i⟩, hv, h⟩ := Option.bind_eq_some_iff.mp h
    obtain ⟨r, hr, h⟩ := Option.bind_eq_some_iff.mp h
    obtain ⟨v1, hv1, h⟩ := Option.bind_eq_some_iff.mp h
    obtain ⟨dato, -, h⟩ := Option.bind_eq_some_iff.mp h
    have h1 : v1.residentes = l := by
      unfold Proceso.guardar Proceso.escribirSwap at hv1
      split_ifs at hv1
      · obtain ⟨a, -, rfl⟩ := Option.map_eq_some_iff.mp hv1
        rfl
      · rw [← Option.some.inj hv1]
    obtain ⟨hl, -⟩ := List.getElem?_eq_some_iff.mp hr
    rw [← Option.some.inj h]
    refine ⟨i, dato, ?_⟩
    rw [h1, List.getElem?_set_self hl]

theorem buscar_simula (h : Ve c fin t s0 s v) (ht : s.tabla t = some tt) :
    (buscarPaginaEnTablas c s t p).map Option.isSome = v.buscar c p := by
  rw [h.vista_eq ht]
  simp only [buscarPaginaEnTablas, Proceso.buscar, vistaDe, ht, Option.bind_eq_bind, Option.bind_some,
    List.getElem?_map]
  rcases tt.tablasSegundoNivel[numeroDeTabla c p]? with _ | n
  · rfl
  · simp only [Option.bind_some, Option.map_some, Option.join_some, MemoriaGlobal.largo]
    rcases s.listaTablasDePaginas[n]? with _ | l
    · rfl
    · by_cases hl : numeroDePagina c p < l.length
      · simp [hl]
      · simp [hl]

/-! ### The operations -/

/-- A page of the process that is in memory, in the state. -/
structure Esta (c : ConfigMemoria) (s : MemoriaGlobal) (tt : TablaPrimerNivel) (v : Proceso) (p i : ℕ)
    (q : ℕ × ℕ) (w : Pagina) : Prop where
  lugar : tt.paginasAsignadas[i]? = some ⟨p, q⟩
  pagina : s.pagina q = some w
  presencia : w.presencia = true
  marco : w.numeroMarco < c.cantidad
  residente : v.residentes[i]? = some ⟨p, w.uso, w.modificado,
    Copia.leer s.espacioUsuario (inicioMarco c w.numeroMarco) c.tamPagina⟩

theorem esta_of_residente (h : Ve c fin t s0 s v) (ht : s.tabla t = some tt) (hq : dir c s t p = some q)
    {x : Residente} (hx : v.residentes[i]? = some x) (hp : x.numeroPagina = p) :
    ∃ w, Esta c s tt v p i q w := by
  obtain ⟨⟨n, q'⟩, w, hr, hw, hf, rfl⟩ := residente_de h ht hx
  obtain rfl : n = p := hp
  obtain ⟨hd, w', hw', hp', -⟩ := h.marcos.asignada ht (List.mem_of_getElem? hr)
  obtain rfl : q = q' := by simpa [hq] using hd
  rw [hw] at hw'
  cases hw'
  exact ⟨w, hr, hw, hp', hf, hx⟩

/-- The page is there or is brought. -/
theorem traer_simula (h : Ve c fin t s0 s v) (hfin : t ∉ fin) (ht : s.tabla t = some tt)
    (hq : dir c s t p = some q) :
    (∃ i w, Esta c s tt v p i q w ∧ v.traer c p = some v) ∨
      (∃ w, s.pagina q = some w ∧ w.presencia = false) ∧
        p ∉ tt.paginasAsignadas.map (·.numeroPagina) ∧ v.traer c p = v.cargar c p := by
  obtain ⟨h1, h2⟩ := nodup_residentes h ht
  unfold Proceso.traer
  rcases hr : v.residente p with _ | x
  · have hnot : p ∉ tt.paginasAsignadas.map (·.numeroPagina) := by
      rw [← h1]
      intro hmem
      obtain ⟨y, hy, hp⟩ := List.mem_map.mp hmem
      have := List.find?_eq_none.mp hr y hy
      simp [hp] at this
    exact Or.inr ⟨ausente_of_dir h.marcos hfin ht hq hnot, hnot, rfl⟩
  · obtain ⟨⟨i, hi⟩, hp⟩ := residente_mem hr
    obtain ⟨w, hw⟩ := esta_of_residente h ht hq hi hp
    exact Or.inl ⟨i, w, hw, rfl⟩

/-- The three ends of a load. -/
theorem cargar_cases (h : Ve c fin t s0 s v) (hfin : t ∉ fin) (ht : s.tabla t = some tt)
    (hq : dir c s t p = some q) (hnot : p ∉ tt.paginasAsignadas.map (·.numeroPagina)) :
    Agotado c s t p ∧ cargarPaginaDeSwapAMemoria c s t p = none ∨
      cargarPaginaDeSwapAMemoria c s t p = none ∧ v.cargar c p = none ∨
      ∃ s1 v1 tt1 i w, cargarPaginaDeSwapAMemoria c s t p = some s1 ∧ v.cargar c p = some v1 ∧
        Ve c fin t s0 s1 v1 ∧ s1.tabla t = some tt1 ∧ Esta c s1 tt1 v1 p i q w ∧ w.uso = true := by
  rcases cargar_simula h hfin ht hq hnot with h1 | h1
  · exact Or.inl h1
  right
  revert h1
  generalize hs : cargarPaginaDeSwapAMemoria c s t p = x
  generalize hc : v.cargar c p = y
  rintro (⟨h2⟩ | _)
  · rename_i s1 v1
    obtain ⟨i, dato, hi⟩ := cargada hc
    have hd : dir c s1 t p = some q := by rw [h2.ajenas.dir, ← h.ajenas.dir, hq]
    obtain ⟨tt1, ht1, -⟩ := Option.bind_eq_some_iff.mp hd
    obtain ⟨w, hw⟩ := esta_of_residente h2 ht1 hd hi rfl
    refine Or.inr ⟨s1, v1, tt1, i, w, rfl, rfl, h2, ht1, hw, ?_⟩
    have h3 := hw.residente
    rw [hi] at h3
    exact (congrArg Residente.uso (Option.some.inj h3)).symm
  · exact Or.inl ⟨rfl, rfl⟩

/-- The pairs that an operation of the module and the one of the process give. -/
def Par {α : Type*} (c : ConfigMemoria) (fin : List ℕ) (t : ℕ) (s0 : MemoriaGlobal)
    (x : α × MemoriaGlobal) (y : α × Proceso) : Prop :=
  x.1 = y.1 ∧ Ve c fin t s0 x.2 y.2

/-- A word written to a page in memory. -/
theorem escribirMarco_simula (h : Ve c fin t s0 s v) (ht : s.tabla t = some tt)
    (he : Esta c s tt v p i q w) {d : ℕ} (hd : d + 4 ≤ c.tamPagina) (n : ℕ) (a : Bool → Bool)
    (ha : a w.uso = true) : ∃ s1, escribirMarco c s w.numeroMarco d n = some s1 ∧
      Ve c fin t s0 (s1.conPagina q fun p => { p with uso := a p.uso, modificado := true })
        (v.conResidente p fun r =>
          { r with uso := true, modificado := true, bytes := Copia.copiar r.bytes d 4 (Copia.palabra n) }) := by
  have hm := marco_le he.marco
  refine ⟨_, if_pos (by omega), ?_⟩
  have h1 := h.palabra ht he.lugar he.pagina hd (Copia.palabra n)
  have h2 := h1.bits (s := s.conEspacio _) ht he.lugar a fun _ => true
  rw [conResidente_eq (nodup_residentes h ht).2 he.residente rfl]
  have h3 : (v.residentes.modify i fun y => { y with bytes := Copia.copiar y.bytes d 4 (Copia.palabra n) }).modify
      i (fun x => { x with uso := a x.uso, modificado := true }) = v.residentes.modify i fun r =>
        { r with uso := true, modificado := true, bytes := Copia.copiar r.bytes d 4 (Copia.palabra n) } := by
    rw [List.modify_modify_eq]
    exact modify_congr he.residente (by simp [ha])
  rw [← h3]
  exact h2

theorem escribir_simula (h : Ve c fin t s0 s v) (hfin : t ∉ fin) {d : ℕ}
    (hd : d + 4 ≤ c.tamPagina ∨ c.tamPagina ≤ d) (n : ℕ) :
    Agotado c s t p ∧ escribirEnPagina c s t p d n = none ∨
      Option.Rel (Par c fin t s0) (escribirEnPagina c s t p d n) (v.escribir c p d n) := by
  have hv := h.vista
  obtain ⟨tt, ht, -⟩ := Option.map_eq_some_iff.mp hv
  have hb := buscar_simula (p := p) h ht
  unfold escribirEnPagina Proceso.escribir
  rcases hbus : buscarPaginaEnTablas c s t p with _ | o
  · rw [hbus] at hb
    rw [← hb]
    exact Or.inr Option.Rel.none
  rw [hbus] at hb
  rw [← hb]
  simp only [Option.bind_eq_bind, Option.bind_some, Option.map_some]
  by_cases hlt : d < c.tamPagina
  · rw [if_pos hlt, if_pos hlt]
    have hd4 : d + 4 ≤ c.tamPagina := hd.resolve_right (by omega)
    rcases o with _ | q
    · exact Or.inr Option.Rel.none
    have hq : dir c s t p = some q := by rw [← join_buscarPaginaEnTablas, hbus]; rfl
    simp only [Option.isSome_some, Option.bind_some, if_true]
    rcases traer_simula h hfin ht hq with ⟨i, w, he, htr⟩ | ⟨⟨w, hw, hp⟩, hnot, htr⟩
    · obtain ⟨s1, hs1, h1⟩ := escribirMarco_simula h ht he hd4 n (fun _ => true) rfl
      simp only [htr, he.pagina, he.presencia, if_true, hs1, Option.bind_some]
      exact Or.inr (Option.Rel.some ⟨rfl, h1⟩)
    · simp only [htr, hw, hp, Option.bind_some, Bool.false_eq_true, if_false]
      rcases cargar_cases h hfin ht hq hnot with
        ⟨h1, h2⟩ | ⟨h1, h2⟩ | ⟨s1, v1, tt1, i, w1, h1, h2, h3, ht1, he, hu⟩
      · rw [h2]
        exact Or.inl ⟨h1, rfl⟩
      · rw [h1, h2]
        exact Or.inr Option.Rel.none
      · obtain ⟨s2, hs2, h4⟩ := escribirMarco_simula h3 ht1 he hd4 n id hu
        simp only [h1, h2, Option.bind_some, he.pagina, hs2]
        exact Or.inr (Option.Rel.some ⟨rfl, h4⟩)
  · rw [if_neg hlt, if_neg hlt]
    exact Or.inr (Option.Rel.some ⟨rfl, h⟩)

/-- The word in a page in memory. -/
theorem leerMarco_simula (he : Esta c s tt v p i q w) {d : ℕ} (hd : d + 4 ≤ c.tamPagina) :
    leerMarco c s w.numeroMarco d = some (Copia.valor (Copia.leer
      (Copia.leer s.espacioUsuario (inicioMarco c w.numeroMarco) c.tamPagina) d 4)) := by
  have hm := marco_le he.marco
  unfold leerMarco
  rw [if_pos (by omega), Copia.leer_of_le hd]

/-- The bit of use of a page in memory. -/
theorem usar_simula (h : Ve c fin t s0 s v) (ht : s.tabla t = some tt) (he : Esta c s tt v p i q w) :
    Ve c fin t s0 (s.conPagina q fun p => { p with uso := true })
      (v.conResidente p fun r => { r with uso := true }) := by
  rw [conResidente_eq (nodup_residentes h ht).2 he.residente rfl]
  exact h.bits ht he.lugar (fun _ => true) id

/-- A page that is in use already. -/
theorem enUso_simula (h : Ve c fin t s0 s v) (ht : s.tabla t = some tt) (he : Esta c s tt v p i q w)
    (hu : w.uso = true) : v.conResidente p (fun r => { r with uso := true }) = v := by
  rw [conResidente_eq (nodup_residentes h ht).2 he.residente rfl]
  have h1 : v.residentes.modify i (fun r => { r with uso := true }) = v.residentes.modify i id :=
    modify_congr he.residente (by simp [hu])
  rw [h1, List.modify_id]
  rfl

theorem leer_simula (h : Ve c fin t s0 s v) (hfin : t ∉ fin) {d : ℕ}
    (hd : d + 4 ≤ c.tamPagina ∨ c.tamPagina ≤ d) :
    Agotado c s t p ∧ leerEnPagina c s t p d = none ∨
      Option.Rel (Par c fin t s0) (leerEnPagina c s t p d) (v.leer c p d) := by
  have hv := h.vista
  obtain ⟨tt, ht, -⟩ := Option.map_eq_some_iff.mp hv
  have hb := buscar_simula (p := p) h ht
  unfold leerEnPagina Proceso.leer
  rcases hbus : buscarPaginaEnTablas c s t p with _ | o
  · rw [hbus] at hb
    rw [← hb]
    exact Or.inr Option.Rel.none
  rw [hbus] at hb
  rw [← hb]
  simp only [Option.bind_eq_bind, Option.bind_some, Option.map_some]
  by_cases hle : c.tamPagina ≤ d
  · rw [if_pos hle, if_pos hle]
    exact Or.inr (Option.Rel.some ⟨rfl, h⟩)
  rw [if_neg hle, if_neg hle]
  have hd4 : d + 4 ≤ c.tamPagina := hd.resolve_right hle
  rcases o with _ | q
  · exact Or.inr Option.Rel.none
  have hq : dir c s t p = some q := by rw [← join_buscarPaginaEnTablas, hbus]; rfl
  simp only [Option.isSome_some, Option.bind_some, if_true]
  rcases traer_simula h hfin ht hq with ⟨i, w, he, htr⟩ | ⟨⟨w, hw, hp⟩, hnot, htr⟩
  · have hr := residente_eq (nodup_residentes h ht).2 he.residente rfl
    simp only [htr, he.pagina, he.presencia, if_true, leerMarco_simula he hd4, Option.bind_some, hr]
    exact Or.inr (Option.Rel.some ⟨rfl, usar_simula h ht he⟩)
  · simp only [htr, hw, hp, Option.bind_some, Bool.false_eq_true, if_false]
    rcases cargar_cases h hfin ht hq hnot with
      ⟨h1, h2⟩ | ⟨h1, h2⟩ | ⟨s1, v1, tt1, i, w1, h1, h2, h3, ht1, he, hu⟩
    · rw [h2]
      exact Or.inl ⟨h1, rfl⟩
    · rw [h1, h2]
      exact Or.inr Option.Rel.none
    · have hr := residente_eq (nodup_residentes h3 ht1).2 he.residente rfl
      simp only [h1, h2, Option.bind_some, he.pagina, leerMarco_simula he hd4, hr,
        enUso_simula h3 ht1 he hu]
      exact Or.inr (Option.Rel.some ⟨rfl, h3⟩)

/-- What a read leaves, wherever in the page it reads. -/
theorem leer_estado (h : Ve c fin t s0 s v) (hfin : t ∉ fin) {d n : ℕ}
    (hs : leerEnPagina c s t p d = some (n, s')) : ∃ n' v', v.leer c p d = some (n', v') ∧
      Ve c fin t s0 s' v' := by
  have hv := h.vista
  obtain ⟨tt, ht, -⟩ := Option.map_eq_some_iff.mp hv
  have hb := buscar_simula (p := p) h ht
  unfold leerEnPagina at hs
  unfold Proceso.leer
  rcases hbus : buscarPaginaEnTablas c s t p with _ | o
  · rw [hbus] at hs
    cases hs
  rw [hbus] at hs hb
  rw [← hb]
  simp only [Option.bind_eq_bind, Option.bind_some, Option.map_some] at hs ⊢
  by_cases hle : c.tamPagina ≤ d
  · rw [if_pos hle] at hs ⊢
    cases hs
    exact ⟨_, _, rfl, h⟩
  rw [if_neg hle] at hs ⊢
  rcases o with _ | q
  · cases hs
  have hq : dir c s t p = some q := by rw [← join_buscarPaginaEnTablas, hbus]; rfl
  simp only [Option.isSome_some, Option.bind_some, if_true] at hs ⊢
  rcases traer_simula h hfin ht hq with ⟨i, w, he, htr⟩ | ⟨⟨w, hw, hp⟩, hnot, htr⟩
  · have hr := residente_eq (nodup_residentes h ht).2 he.residente rfl
    simp only [he.pagina, he.presencia, if_true, Option.bind_some] at hs
    obtain ⟨m, -, hs⟩ := Option.bind_eq_some_iff.mp hs
    cases hs
    simp only [htr, Option.bind_some, hr]
    exact ⟨_, _, rfl, usar_simula h ht he⟩
  · simp only [hw, hp, Option.bind_some, Bool.false_eq_true, if_false] at hs
    rcases cargar_cases h hfin ht hq hnot with
      ⟨-, h2⟩ | ⟨h1, -⟩ | ⟨s1, v1, tt1, i, w1, h1, h2, h3, ht1, he, hu⟩
    · rw [h2] at hs
      cases hs
    · rw [h1] at hs
      cases hs
    · have hr := residente_eq (nodup_residentes h3 ht1).2 he.residente rfl
      simp only [h1, Option.bind_some, he.pagina] at hs
      obtain ⟨m, -, hs⟩ := Option.bind_eq_some_iff.mp hs
      cases hs
      simp only [htr, h2, Option.bind_some, hr, enUso_simula h3 ht1 he hu]
      exact ⟨_, _, rfl, h3⟩

theorem buscarMarco_simula (h : Ve c fin t s0 s v) (hfin : t ∉ fin) :
    Agotado c s t p ∧ buscarMarcoDePagina c s t p = none ∨
      Option.Rel (fun x y => Ve c fin t s0 x.2 y ∧ ∃ tt i q w, x.2.tabla t = some tt ∧
        Esta c x.2 tt y p i q w ∧ w.numeroMarco = x.1)
        (buscarMarcoDePagina c s t p) (v.buscarMarco c p) := by
  have hv := h.vista
  obtain ⟨tt, ht, -⟩ := Option.map_eq_some_iff.mp hv
  have hb := buscar_simula (p := p) h ht
  unfold buscarMarcoDePagina Proceso.buscarMarco
  rcases hbus : buscarPaginaEnTablas c s t p with _ | o
  · rw [hbus] at hb
    rw [← hb]
    exact Or.inr Option.Rel.none
  rw [hbus] at hb
  rw [← hb]
  simp only [Option.bind_eq_bind, Option.bind_some, Option.map_some]
  rcases o with _ | q
  · exact Or.inr Option.Rel.none
  have hq : dir c s t p = some q := by rw [← join_buscarPaginaEnTablas, hbus]; rfl
  simp only [Option.isSome_some, Option.bind_some, if_true]
  rcases traer_simula h hfin ht hq with ⟨i, w, he, htr⟩ | ⟨⟨w, hw, hp⟩, hnot, htr⟩
  · simp only [htr, he.pagina, he.presencia, if_true, Option.bind_some]
    exact Or.inr (Option.Rel.some ⟨h, tt, i, q, w, ht, he, rfl⟩)
  · simp only [htr, hw, hp, Option.bind_some, Bool.false_eq_true, if_false]
    rcases cargar_cases h hfin ht hq hnot with
      ⟨h1, h2⟩ | ⟨h1, h2⟩ | ⟨s1, v1, tt1, i, w1, h1, h2, h3, ht1, he, hu⟩
    · rw [h2]
      exact Or.inl ⟨h1, rfl⟩
    · rw [h1, h2]
      exact Or.inr Option.Rel.none
    · simp only [h1, h2, Option.bind_some, he.pagina]
      exact Or.inr (Option.Rel.some ⟨h3, tt1, i, q, w1, ht1, he, rfl⟩)

theorem suspenderPaginas_simula : ∀ (l : List RegistroAsignado) (tt : TablaPrimerNivel)
    {s : MemoriaGlobal} {v : Proceso}, Ve c fin t s0 s v → s.tabla t = some tt → tt.paginasAsignadas = l →
    Option.Rel (Ve c fin t s0) (suspenderPaginas c t l s) (Proceso.suspenderPaginas c v.residentes v)
  | [], tt, s, v, h, ht, hl => by
    have hr : v.residentes = [] := by
      rw [h.vista_eq ht]
      simp [vistaDe, hl]
    rw [hr]
    exact Option.Rel.some h
  | r :: l, tt, s, v, h, ht, hl => by
    have hmem : r ∈ tt.paginasAsignadas := by rw [hl]; exact List.mem_cons_self
    obtain ⟨-, w, hw, -, hf, -⟩ := h.marcos.asignada ht hmem
    obtain ⟨x, rs, hrs, hx⟩ : ∃ x rs, v.residentes = x :: rs ∧ x = ⟨r.numeroPagina, w.uso, w.modificado,
        Copia.leer s.espacioUsuario (inicioMarco c w.numeroMarco) c.tamPagina⟩ := by
      refine ⟨_, l.map (residente c s), ?_, rfl⟩
      rw [h.vista_eq ht]
      simp [vistaDe, hl, residente, hw]
    have h1 := escribirSwap_simula h (s.conTabla t fun tt => { tt with paginasAsignadas := l })
      { tt with paginasAsignadas := l } (by simp [ht]) ht rfl rfl x
    have h2 : (v.conResidentes rs).escribirSwap c x =
        (v.escribirSwap c x).map fun v => v.conResidentes rs := by
      unfold Proceso.escribirSwap Proceso.conResidentes
      rcases v.archivo with _ | a <;> rfl
    rw [hrs]
    unfold suspenderPaginas Proceso.suspenderPaginas
    rw [hx] at h1
    simp only [pagina_conTabla, hw, Option.bind_eq_bind, Option.bind_some, leerMarcoCompleto,
      if_pos (marco_le hf), espacio_conTabla, escribirRegistro, if_pos hf, h2]
    rw [hx]
    revert h1
    generalize escribirPaginaSwap c _ t _ _ _ = y
    generalize v.escribirSwap c _ = z
    rintro (⟨a, rfl, rfl⟩ | _)
    · simp only [Option.map_some, Option.bind_some]
      have h3 := (h.archivo ht (some a)).quitar ((((s.conTabla t fun tt =>
          { tt with paginasAsignadas := l }).conSwap tt.pcbId (some a)).conPagina r.paginaAsignada fun p =>
          { p with presencia := false, uso := false, modificado := false }).conRegistro w.numeroMarco
          fun r => { r with asignado := false }) (l := l) ht hl hw
        (by simp [ht]) (by simp) (by simp [hw]) (by simp) (by simp) (by simp)
      have hrs' : v.residentes.tail = rs := by rw [hrs]; rfl
      have h4 := suspenderPaginas_simula l { tt with paginasAsignadas := l }
        (v := { v with archivo := some a }.conResidentes rs) (hrs' ▸ h3) (by simp [ht]) rfl
      exact h4
    · exact Option.Rel.none

theorem suspender_simula (h : Ve c fin t s0 s v) :
    Option.Rel (fun x y => x.1 = true ∧ Ve c fin t s0 x.2 y) (suspenderProceso c s t) (v.suspender c) := by
  have hv := h.vista
  obtain ⟨tt, ht, -⟩ := Option.map_eq_some_iff.mp hv
  have h1 := suspenderPaginas_simula tt.paginasAsignadas { tt with punteroMarcos := 0 }
    (h.mano ht 0) (by simp [ht]) rfl
  unfold suspenderProceso Proceso.suspender
  simp only [ht, Option.bind_eq_bind, Option.bind_some]
  revert h1
  generalize suspenderPaginas c t tt.paginasAsignadas _ = x
  dsimp only
  generalize Proceso.suspenderPaginas c v.residentes _ = y
  rintro (⟨h1⟩ | _)
  · exact Option.Rel.some ⟨rfl, h1⟩
  · exact Option.Rel.none

/-- The end of a process: its frames are free, and nothing of the others changes. -/
theorem finalizarPaginas_simula : ∀ (l : List RegistroAsignado) {s : MemoriaGlobal}
    {tt : TablaPrimerNivel}, Marcos c s fin → t ∈ fin → s.tabla t = some tt → tt.paginasAsignadas = l →
    ∃ s' tt', finalizarPaginas c t l s = some s' ∧ Marcos c s' fin ∧ Ajenas c t s s' ∧
      s'.tabla t = some tt' ∧ tt'.paginasAsignadas = [] ∧ tt'.punteroMarcos = tt.punteroMarcos
  | [], s, tt, h, _, ht, hl => ⟨s, tt, rfl, h, Ajenas.refl c t s, ht, hl, rfl⟩
  | r :: l, s, tt, h, hfin, ht, hl => by
    have hmem : r ∈ tt.paginasAsignadas := by rw [hl]; exact List.mem_cons_self
    obtain ⟨hd, w, hw, hp, hf, hg⟩ := h.asignada ht hmem
    have hnd := h.nodup ht
    rw [hl, List.map_cons, List.nodup_cons] at hnd
    set s1 := ((s.conTabla t fun tt => { tt with paginasAsignadas := l }).conRegistro w.numeroMarco
      fun r => { r with asignado := false }).conSwap tt.pcbId none with hs1
    have ht1 : s1.tabla = Function.update s.tabla t (some { tt with paginasAsignadas := l }) := by
      simp [hs1, ht]
    have h1 : Marcos c s1 fin := by
      refine h.quitar { tt with paginasAsignadas := l } w ht hmem hw (Or.inl ⟨hfin, rfl⟩) (fun r' => ?_) hnd.2
        (by rfl) ht1 (by rfl) ?_ (g := { s.registroEspacioUsuario w.numeroMarco with asignado := false })
        (by rfl) (by rfl)
      · rw [hl, List.mem_cons]
        constructor
        · intro h7
          refine ⟨Or.inr h7, ?_⟩
          rintro rfl
          exact hnd.1 (List.mem_map_of_mem h7)
        · rintro ⟨rfl | h7, h8⟩
          · exact absurd rfl h8
          · exact h7
      · rw [← hw, Function.update_eq_self]
        rfl
    have h2 : Ajenas c t s s1 := by
      refine ⟨by rw [ht1, Function.update_self, ht]; rfl, fun u hu => by rw [ht1, Function.update_of_ne hu],
        rfl, fun _ _ _ _ _ => rfl, fun f u p _ hu hg' => ?_, fun tt' pid ht' hp => ?_⟩
      · have hne : f ≠ w.numeroMarco := by
          rintro rfl
          rw [hg] at hg'
          have h7 : t = u ∧ r.numeroPagina = p := by simpa using hg'
          exact hu h7.1.symm
        exact ⟨by simp [hs1, Function.update_of_ne hne, hg'], rfl⟩
      · rw [ht] at ht'
        cases ht'
        simp [hs1, Function.update_of_ne hp]
    have ht1' : s1.tabla t = some { tt with paginasAsignadas := l } := by
      rw [ht1, Function.update_self]
    obtain ⟨s', tt', hs', h3, h4, h5⟩ := finalizarPaginas_simula l h1 hfin ht1' rfl
    refine ⟨s', tt', ?_, h3, h2.trans h4, h5⟩
    unfold finalizarPaginas
    simp only [pagina_conTabla, hw, Option.bind_eq_bind, Option.bind_some, escribirRegistro, if_pos hf,
      eliminarArchivoSwap, tabla_conRegistro, tabla_conTabla, ht, Option.map_some, Function.update_self]
    exact hs'

end Memoria
end Kiss
