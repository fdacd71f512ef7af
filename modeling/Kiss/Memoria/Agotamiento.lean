/-
# Without free frames

A page fault of a process with room for one more page takes a free frame. When there is
none, `buscar_marco_libre` answers `-1`, which nobody tests: the page is put in that
frame and the registry is written there, outside of it. No state that a run reaches has
a page in a frame that does not exist, because the request does not come back.

Key definitions: `FaltaMarco`, `Rechaza`.
Key theorems: `ejecutar_faltaMarco`, `faltaMarco_iff`.
-/
import Kiss.Memoria.Corridas

namespace Kiss
namespace Memoria

variable {c : ConfigMemoria} {s s' : MemoriaGlobal} {t p : ℕ} {fin : List ℕ} {o : Operacion}

/-- The page has to be brought, its process has room for it, and no frame is free. -/
structure NoEntra (c : ConfigMemoria) (s : MemoriaGlobal) (t p : ℕ) : Prop where
  ausente : ∃ q w, EsPagina c s t p q w ∧ w.presencia = false
  hueco : ∃ tt, s.tabla t = some tt ∧ tt.paginasAsignadas.length < c.marcosPorProceso
  sinMarcos : SinMarcos c s

/-- The request is a page fault that finds no frame. -/
def FaltaMarco (c : ConfigMemoria) (s : MemoriaGlobal) : Operacion → Prop
  | .escribir t p d _ | .leer t p d => d < c.tamPagina ∧ NoEntra c s t p
  | .buscarMarco t p => NoEntra c s t p
  | _ => False

/-- The answer is a failure: `EXIT_FAILURE` of a write, `-1` of the others. -/
def Operacion.Fracaso : Operacion → ℕ → Prop
  | .escribir _ _ _ _, n => n = 1
  | _, n => n = u32Max

/-- The request is answered with a failure, and what the module knows stays. -/
def Rechaza (c : ConfigMemoria) (s : MemoriaGlobal) (o : Operacion) : Prop :=
  ∃ n s', ejecutar c s o = some (n, s') ∧ o.Fracaso n ∧
    s'.listaTablasDePaginas = s.listaTablasDePaginas ∧ s'.listaTablasDeTablas = s.listaTablasDeTablas ∧
    s'.registroEspacioUsuario = s.registroEspacioUsuario ∧ s'.espacioUsuario = s.espacioUsuario

theorem cargar_noEntra (h : NoEntra c s t p) : cargarPaginaDeSwapAMemoria c s t p = none := by
  obtain ⟨tt, ht, hl⟩ := h.hueco
  unfold cargarPaginaDeSwapAMemoria
  rw [ht, Option.bind_eq_bind, Option.bind_some, if_pos hl]
  exact asignar_of_sinMarcos h.sinMarcos

/-- The request does not come back. -/
theorem ejecutar_faltaMarco (h : FaltaMarco c s o) : ejecutar c s o = none := by
  cases o with
  | escribir t p d dato =>
    obtain ⟨hd, hn⟩ := h
    obtain ⟨q, w, ⟨hq, hw⟩, hp⟩ := hn.ausente
    simp [ejecutar, escribirEnPagina, hq, hd, hw, hp, cargar_noEntra hn]
  | leer t p d =>
    obtain ⟨hd, hn⟩ := h
    obtain ⟨q, w, ⟨hq, hw⟩, hp⟩ := hn.ausente
    simp [ejecutar, leerEnPagina, hq, not_le.mpr hd, hw, hp, cargar_noEntra hn]
  | buscarMarco t p =>
    obtain ⟨q, w, ⟨hq, hw⟩, hp⟩ := h.ausente
    simp [ejecutar, buscarMarcoDePagina, hq, hw, hp, cargar_noEntra h]
  | iniciar tam pid => exact h.elim
  | suspender t => exact h.elim
  | finalizar t => exact h.elim

/-- **Without free frames.** Every page in memory is in a frame, in every state that a run
reaches; and a request does what it should when no frame is free exactly when it does not
need one. -/
theorem faltaMarco_iff (h : Corrida c s fin) :
    (∀ q w, s.pagina q = some w → w.presencia = true → w.numeroMarco < c.tamMemoria / c.tamPagina) ∧
      ∀ o, Viva s fin o → ((FaltaMarco c s o → Rechaza c s o) ↔ ¬ FaltaMarco c s o) := by
  refine ⟨fun q w hw hp => (corrida_invariante h).marcos.rango hw hp, fun o _ => ⟨fun hr hf => ?_, fun hn hf =>
    absurd hf hn⟩⟩
  obtain ⟨n, s', hs, -⟩ := hr hf
  rw [ejecutar_faltaMarco hf] at hs
  cases hs

/-- A user space of one frame, and two processes that may have one each. -/
def unMarco : ConfigMemoria := { chica 2 1 with tamMemoria := 4, tamMemoria_lt := (chica 2 1).tamPagina_lt }

/-- The first process has the frame. -/
def ocupado : List Operacion := [.iniciar 4 0, .iniciar 4 1, .leer 0 0 0]

theorem ocupado_falta : ∃ x, desdeInicio unMarco ocupado = some x ∧ Viva x.1 x.2 (.leer 1 0 0) ∧
    FaltaMarco unMarco x.1 (.leer 1 0 0) := by
  obtain ⟨x, hx, h1⟩ := (Option.any_eq_true _ _).mp (show (desdeInicio unMarco ocupado).any (fun x =>
    decide (Viva x.1 x.2 (.leer 1 0 0) ∧ buscarPaginaEnTablas unMarco x.1 1 0 = some (some (1, 0)) ∧
      x.1.pagina (1, 0) = some {} ∧ (x.1.tabla 1).map (·.paginasAsignadas.length) = some 0 ∧
      (x.1.registroEspacioUsuario 0).asignado = true)) = true by decide +kernel)
  obtain ⟨h1, h2, h3, h4, h5⟩ := of_decide_eq_true h1
  obtain ⟨tt, ht, hl⟩ := Option.map_eq_some_iff.mp h4
  refine ⟨x, hx, h1, by decide +kernel, ⟨(1, 0), {}, ⟨h2, h3⟩, rfl⟩, ⟨tt, ht, ?_⟩, fun f hf => ?_⟩
  · rw [hl]
    decide +kernel
  · have hf0 : f = 0 := Nat.lt_one_iff.mp hf
    rw [hf0, h5]

theorem faltaMarco_iff_ocupado : ∃ x, desdeInicio unMarco ocupado = some x ∧
    ((FaltaMarco unMarco x.1 (.leer 1 0 0) → Rechaza unMarco x.1 (.leer 1 0 0)) ↔
      ¬ FaltaMarco unMarco x.1 (.leer 1 0 0)) := by
  obtain ⟨x, hx, hv, -⟩ := ocupado_falta
  exact ⟨x, hx, (faltaMarco_iff (desdeInicio_corrida hx)).2 _ hv⟩

/-- The read of the second process needs the frame of the first. -/
theorem not_rechaza : ¬ ∀ (c : ConfigMemoria) (s : MemoriaGlobal) (fin : List ℕ) (o : Operacion),
    Corrida c s fin → Viva s fin o → FaltaMarco c s o → Rechaza c s o := by
  intro h
  obtain ⟨x, hx, hv, hf⟩ := ocupado_falta
  obtain ⟨n, s', hs, -⟩ := h _ _ _ _ (desdeInicio_corrida hx) hv hf
  rw [ejecutar_faltaMarco hf] at hs
  cases hs

end Memoria
end Kiss
