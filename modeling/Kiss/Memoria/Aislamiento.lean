/-
# Processes do not see each other

Two runs of the module in which a process makes the same requests, whatever the others
ask in between: its reads get the same answers, and its next request is answered in one
exactly when it is in the other. Everything the module does for a process is a run of
that process by itself (`traza_solo`), as long as every write stays in its page. The
module checks only where a word starts, and a word that starts in the last three bytes
of a page ends in the next frame (`not_lecturas_aisladas`). No run brings in a page past the
end of the file of its process (`leerArchivo`), where the module reads what others may have
left in the memory it gets from `malloc`.

Key definitions: `Pedido`, `Traza`, `pedidos`, `lecturas`.
Key theorems: `traza_solo`, `lecturas_aisladas`.
-/
import Kiss.Memoria.Vistas
import Kiss.Memoria.Servidor

namespace Kiss
namespace Memoria

/-! ### Runs with who asks -/

/-- A request, as its process makes it: it knows its pages, not the number of its table. -/
inductive Pedido
  | iniciar (tamProceso : ℕ)
  | escribir (p d dato : ℕ)
  | leer (p d : ℕ)
  | buscarMarco (p : ℕ)
  | suspender
  | finalizar
  deriving DecidableEq, Repr

namespace Pedido

/-- The request of process `pid`, with table `t`. -/
def operacion (t pid : ℕ) : Pedido → Operacion
  | .iniciar tam => .iniciar tam pid
  | .escribir p d dato => .escribir t p d dato
  | .leer p d => .leer t p d
  | .buscarMarco p => .buscarMarco t p
  | .suspender => .suspender t
  | .finalizar => .finalizar t

def esLectura : Pedido → Bool
  | .leer _ _ => true
  | _ => false

/-- The four bytes are in the page, or the request is refused. -/
def EnPagina (c : ConfigMemoria) : Pedido → Prop
  | .escribir _ d _ | .leer _ d => d + 4 ≤ c.tamPagina ∨ c.tamPagina ≤ d
  | _ => True

/-- Who can make it: `iniciar` a process that is not there, the others one that is. -/
def De (s : MemoriaGlobal) (fin : List ℕ) (t pid : ℕ) : Pedido → Prop
  | .iniciar _ => ∀ u < s.listaTablasDeTablas.length, ¬ EsDe s fin u pid
  | _ => EsDe s fin t pid

end Pedido

/-- A request of process `pid` that the module answered. -/
structure Evento where
  pid : ℕ
  pedido : Pedido
  respuesta : ℕ
  deriving DecidableEq, Repr

/-- The operation that the module does for it. -/
def Evento.operacion (e : Evento) (t : ℕ) : Operacion := e.pedido.operacion t e.pid

/-- The runs of the module, with their requests in order. They bring in no page past the end of
its file. -/
inductive Traza (c : ConfigMemoria) : List Evento → MemoriaGlobal → List ℕ → Prop
  | inicio {s} (h : Inicial c s) : Traza c [] s []
  | paso {es s fin s'} (e : Evento) (t : ℕ) (h : Traza c es s fin) (ho : e.pedido.De s fin t e.pid)
      (hs : ejecutar c s (e.operacion t) = some (e.respuesta, s')) (hn : Numerable s') :
      Traza c (es ++ [e]) s' ((e.operacion t).finaliza ++ fin)

/-- What a process asked. -/
def pedidos (pid : ℕ) (es : List Evento) : List Pedido :=
  (es.filter fun e => e.pid = pid).map (·.pedido)

/-- What its reads were answered. -/
def lecturas (pid : ℕ) (es : List Evento) : List ℕ :=
  (es.filter fun e => e.pid = pid && e.pedido.esLectura).map (·.respuesta)

/-- Nothing is written outside its page, and `pid` reads inside its pages. -/
def Evento.EnPagina (c : ConfigMemoria) (pid : ℕ) (e : Evento) : Prop :=
  (e.pedido.esLectura = true → e.pid = pid) → e.pedido.EnPagina c

variable {c : ConfigMemoria} {s s' : MemoriaGlobal} {t t' u pid n : ℕ} {fin fin' : List ℕ}
  {es es' : List Evento} {e : Evento} {v : Proceso} {x : Option Proceso}

theorem viva_of_de (h : e.pedido.De s fin t e.pid) : Viva s fin (e.operacion t) := by
  obtain ⟨pid, pedido, respuesta⟩ := e
  intro u hu
  cases pedido with
  | iniciar tam => cases hu
  | _ =>
    rw [← Option.some.inj hu]
    exact ⟨EsDe.lt h, h.1⟩

theorem traza_corrida (h : Traza c es s fin) : Corrida c s fin := by
  induction h with
  | inicio h => exact .inicio h
  | paso e t h ho hs hn ih => exact .paso _ _ ih (viva_of_de ho) hs hn

/-- A message of the CPU or of the kernel is a step of a run. -/
theorem Traza.atender (h : Traza c es s fin) {m : Mensaje} (hm : m.operacion c s = some (e.operacion t))
    (ho : e.pedido.De s fin t e.pid) (hs : Memoria.atender c s m = some (e.respuesta, s'))
    (hn : Numerable s') : Traza c (es ++ [e]) s' ((e.operacion t).finaliza ++ fin) := by
  exact h.paso e t ho (atender_operacion hm ▸ hs) hn

/-! ### A process by itself -/

/-- A request on the process, if there is one, and the answer when it is a read. -/
def Pedido.paso (c : ConfigMemoria) (x : Option Proceso × List ℕ) :
    Pedido → Option (Option Proceso × List ℕ)
  | .iniciar tam => if x.1.isSome then none else (Proceso.nuevo c tam).map fun v => (some v, x.2)
  | .finalizar => some (none, x.2)
  | e => do
    let v ← x.1
    let (n, v) ← v.ejecutar c (e.operacion 0 0)
    some (some v, if e.esLectura then x.2 ++ [n] else x.2)

/-- All the requests of a process, from before it is created. -/
def solo (c : ConfigMemoria) (es : List Pedido) : Option (Option Proceso × List ℕ) :=
  es.foldlM (Pedido.paso c) (none, [])

/-- The process that `pid` is, if it is one. -/
structure Sigue (c : ConfigMemoria) (s : MemoriaGlobal) (fin : List ℕ) (pid : ℕ) (x : Option Proceso) :
    Prop where
  vive : ∀ {v}, x = some v → ∃ t, EsDe s fin t pid ∧ vista c s t = some v
  falta : x = none → ∀ t, ¬ EsDe s fin t pid

theorem ejecutar_operacion (v : Proceso) (e : Pedido) (t pid : ℕ) :
    v.ejecutar c (e.operacion t pid) = v.ejecutar c (e.operacion 0 0) := by
  cases e <;> rfl

theorem solo_concat (es : List Pedido) (e : Pedido) :
    solo c (es ++ [e]) = (solo c es).bind fun x => e.paso c x := by
  rw [solo, List.foldlM_append]
  simp [solo]

theorem EsDe.of_ajenas {u : ℕ} (h : Ajenas c t s s') {l : List ℕ} (hu : EsDe s' (l ++ fin) u pid) :
    EsDe s fin u pid :=
  ⟨fun hf => hu.1 (List.mem_append_right l hf), h.pcbId u ▸ hu.2⟩

/-- A request of another process that there is. -/
theorem Sigue.otro (h : Sigue c s fin pid x) (hm : Marcos c s fin) (hdist : Distintos s fin)
    (hv : Viva s fin (e.operacion t)) (ht : (e.operacion t).tabla = some t)
    (hf : (e.operacion t).finaliza ⊆ [t]) (hde : EsDe s fin t e.pid)
    (hne : e.pid ≠ pid) (hd : (e.operacion t).EscribeEnPagina c)
    (hs : ejecutar c s (e.operacion t) = some (n, s')) :
    Sigue c s' ((e.operacion t).finaliza ++ fin) pid x := by
  have hA := ejecutar_ajenas hm hv ht hd hs
  refine ⟨fun {v} hx => ?_, fun hx u hu => h.falta hx u (hu.of_ajenas hA)⟩
  obtain ⟨u, hu, hvu⟩ := h.vive hx
  have hut : u ≠ t := by
    rintro rfl
    have h1 := hde.2
    rw [hu.2] at h1
    exact hne (Option.some.inj h1).symm
  refine ⟨u, ⟨fun hmem => ?_, hA.pcbId u ▸ hu.2⟩, (vista_ajena hm hdist hv ht hd hs hut hu.1).trans hvu⟩
  rcases List.mem_append.mp hmem with hmem | hmem
  · exact hut (List.mem_singleton.mp (hf hmem))
  · exact hu.1 hmem

/-- The creation of another process. -/
theorem Sigue.crear_otro (h : Sigue c s fin pid x) (hm : Marcos c s fin) {pid' : ℕ}
    (hn : Nace c s s' pid' v) (hne : pid' ≠ pid) :
    Sigue c s' fin pid x := by
  obtain ⟨tt, hc, hpid⟩ := hn.crea
  refine ⟨fun {w} hx => ?_, fun hx u hu => ?_⟩
  · obtain ⟨u, hu, hvu⟩ := h.vive hx
    have hut : u ≠ s.listaTablasDeTablas.length := hu.lt.ne
    refine ⟨u, ⟨hu.1, hc.tabla_vieja hut ▸ hu.2⟩, (hn.vista_vieja hm hut fun tu htu he => ?_).trans hvu⟩
    have h1 := hu.2
    rw [htu, Option.map_some, he, Option.some.injEq] at h1
    exact hne h1
  · by_cases hut : u = s.listaTablasDeTablas.length
    · have h1 := hu.2
      rw [hut, hc.tabla_nueva, Option.map_some, hpid, Option.some.injEq] at h1
      exact hne h1
    · exact h.falta hx u ⟨hu.1, hc.tabla_vieja hut ▸ hu.2⟩

theorem Evento.EnPagina.escribe (h : e.EnPagina c pid) (t : ℕ) : (e.operacion t).EscribeEnPagina c := by
  obtain ⟨pid', pedido, respuesta⟩ := e
  cases pedido with
  | escribir p d dato => exact h fun hl => by cases hl
  | _ => trivial

/-- A read of `pid` is inside its page. -/
theorem Evento.EnPagina.propio (h : e.EnPagina c e.pid) (t : ℕ) : (e.operacion t).EnPagina c := by
  obtain ⟨pid', pedido, respuesta⟩ := e
  cases pedido with
  | escribir p d dato => exact h fun _ => rfl
  | leer p d => exact h fun _ => rfl
  | _ => trivial

theorem traza_distintos (h : Traza c es s fin) (he : ∀ e ∈ es, e.EnPagina c pid) : Distintos s fin := by
  induction h with
  | inicio h =>
    intro t u tt tu _ _ ht
    rw [MemoriaGlobal.tabla, h.tablas] at ht
    cases ht
  | @paso es s fin s' e t h ho hs hn ih =>
    have hdist := ih fun e' he' => he e' (List.mem_append_left _ he')
    have hm := (corrida_invariante (traza_corrida h)).marcos
    have hd := (he e (List.mem_append_right _ List.mem_cons_self)).escribe t
    obtain ⟨pid', pedido, respuesta⟩ := e
    cases pedido with
    | iniciar tam =>
      obtain ⟨-, v, -, hnace⟩ := iniciar_nace hs hn
      exact hdist.crear hnace fun u hu => ho u hu.lt hu
    | _ => exact hdist.congr (ejecutar_ajenas hm (viva_of_de ho) rfl hd hs).pcbId

theorem fin_lt (h : Traza c es s fin) : ∀ t ∈ fin, t < s.listaTablasDeTablas.length := fun t ht => by
  obtain ⟨tt, htt, -⟩ := (corrida_invariante (traza_corrida h)).vacia ht
  exact (List.getElem?_eq_some_iff.mp htt).1

/-- A request of the process: it is a request on the process by itself. -/
theorem Sigue.propio {l : List ℕ} (h : Sigue c s fin e.pid x) (hm : Marcos c s fin) (hdist : Distintos s fin)
    (hnf : ∀ t ∈ fin, t < s.listaTablasDeTablas.length)
    (ho : e.pedido.De s fin t e.pid) (hd : e.EnPagina c e.pid)
    (hs : ejecutar c s (e.operacion t) = some (e.respuesta, s')) (hn : Numerable s') :
    ∃ x', e.pedido.paso c (x, l) = some (x', l ++ if e.pedido.esLectura then [e.respuesta] else []) ∧
      Sigue c s' ((e.operacion t).finaliza ++ fin) e.pid x' := by
  obtain ⟨pid, pedido, respuesta⟩ := e
  have hnone : ∀ {e : Pedido}, e.esLectura = false → (if e.esLectura then [respuesta] else []) = [] :=
    fun he => by rw [he]; rfl
  -- a request on the process there is
  have hop : ∀ (hde : EsDe s fin t pid) (hf : (pedido.operacion t pid).finaliza = [])
      (ht : (pedido.operacion t pid).tabla = some t) (hl : (pedido.operacion t pid).daMarco = true →
        pedido.esLectura = false), ∃ v m v', x = some v ∧ v.ejecutar c (pedido.operacion 0 0) = some (m, v') ∧
        (pedido.esLectura = true → m = respuesta) ∧ Sigue c s' fin pid (some v') := by
    intro hde hf ht hl
    rcases hx : x with _ | v
    · exact absurd hde (h.falta hx t)
    obtain ⟨u, hu, hv⟩ := h.vive hx
    obtain rfl := hdist.eq hde hu
    have hve : Ve c fin t s s v := ⟨hm, hv, Ajenas.refl c t s⟩
    obtain ⟨m, v', h1, h2, hV⟩ := ejecutar_estado hve hde.1 ht hf (hd.escribe t) hs
    rw [ejecutar_operacion] at h1
    refine ⟨v, m, v', rfl, h1, fun hlec => (h2 (hd.propio t) ?_).symm, fun {w} hw => ?_, fun hx => by cases hx⟩
    · by_contra hm
      have h3 := hl (by simpa using hm)
      rw [hlec] at h3
      cases h3
    · rw [← Option.some.inj hw]
      exact ⟨t, ⟨hde.1, hV.ajenas.pcbId t ▸ hde.2⟩, hV.vista⟩
  cases pedido with
  | iniciar tam =>
    obtain ⟨-, v, hv, hnace⟩ := iniciar_nace hs hn
    have hx : x = none := by
      rcases hx : x with _ | w
      · rfl
      · obtain ⟨u, hu, -⟩ := h.vive hx
        exact absurd hu (ho u hu.lt)
    obtain ⟨tt, hc, hpid⟩ := hnace.crea
    refine ⟨some v, ?_, fun {w} hw => ?_, fun hx => by cases hx⟩
    · simp [Pedido.paso, hx, hv, Pedido.esLectura]
    · rw [← Option.some.inj hw]
      refine ⟨s.listaTablasDeTablas.length, ⟨fun hf => (hnf _ hf).ne rfl, ?_⟩, hnace.vista⟩
      rw [hc.tabla_nueva, Option.map_some, hpid]
  | finalizar =>
    have hA := ejecutar_ajenas (t := t) hm (viva_of_de ho) rfl (hd.escribe t) hs
    refine ⟨none, by simp [Pedido.paso, Pedido.esLectura], ⟨fun {v} hx => (by cases hx), fun _ u hu => ?_⟩⟩
    obtain rfl := hdist.eq (hu.of_ajenas hA) ho
    exact hu.1 (List.mem_append_left _ (List.mem_singleton.mpr rfl))
  | escribir p d dato =>
    obtain ⟨v, m, v', rfl, h1, -, h3⟩ := hop ho rfl rfl fun _ => rfl
    exact ⟨some v', by simp [Pedido.paso, h1, Pedido.esLectura], h3⟩
  | leer p d =>
    obtain ⟨v, m, v', rfl, h1, h2, h3⟩ := hop ho rfl rfl fun h => by cases h
    exact ⟨some v', by simp [Pedido.paso, h1, Pedido.esLectura, h2 rfl], h3⟩
  | buscarMarco p =>
    obtain ⟨v, m, v', rfl, h1, -, h3⟩ := hop ho rfl rfl fun _ => rfl
    exact ⟨some v', by simp [Pedido.paso, h1, Pedido.esLectura], h3⟩
  | suspender =>
    obtain ⟨v, m, v', rfl, h1, -, h3⟩ := hop ho rfl rfl fun _ => rfl
    exact ⟨some v', by simp [Pedido.paso, h1, Pedido.esLectura], h3⟩

/-- **A run, seen from a process**, is a run of that process by itself. -/
theorem traza_solo (h : Traza c es s fin) (he : ∀ e ∈ es, e.EnPagina c pid) :
    ∃ x, solo c (pedidos pid es) = some (x, lecturas pid es) ∧ Sigue c s fin pid x := by
  induction h with
  | inicio h =>
    refine ⟨none, rfl, ⟨fun {v} hx => (by cases hx), fun _ t ht => ?_⟩⟩
    have h1 := ht.lt
    rw [h.tablas] at h1
    exact absurd h1 (Nat.not_lt_zero t)
  | @paso es s fin s' e t h ho hs hn ih =>
    have he' := fun e' he' => he e' (List.mem_append_left [e] he')
    obtain ⟨x, hx, hsig⟩ := ih he'
    have hm := (corrida_invariante (traza_corrida h)).marcos
    have hdist := traza_distintos h he'
    have hd := he e (List.mem_append_right _ List.mem_cons_self)
    by_cases hp : e.pid = pid
    · subst hp
      obtain ⟨x', h1, h2⟩ := hsig.propio (l := lecturas e.pid es) hm hdist (fin_lt h) ho hd hs hn
      refine ⟨x', ?_, h2⟩
      have h3 : pedidos e.pid (es ++ [e]) = pedidos e.pid es ++ [e.pedido] := by
        simp [pedidos, List.filter_append]
      have h4 : lecturas e.pid (es ++ [e]) =
          lecturas e.pid es ++ if e.pedido.esLectura then [e.respuesta] else [] := by
        by_cases hl : e.pedido.esLectura
        · simp [lecturas, List.filter_append, hl]
        · simp [lecturas, List.filter_append, hl]
      rw [h3, h4, solo_concat, hx, Option.bind_some, h1]
    · have h3 : pedidos pid (es ++ [e]) = pedidos pid es := by simp [pedidos, List.filter_append, hp]
      have h4 : lecturas pid (es ++ [e]) = lecturas pid es := by simp [lecturas, List.filter_append, hp]
      rw [h3, h4]
      refine ⟨x, hx, ?_⟩
      obtain ⟨pid', pedido, respuesta⟩ := e
      cases pedido with
      | iniciar tam =>
        obtain ⟨-, v, -, hnace⟩ := iniciar_nace hs hn
        exact hsig.crear_otro hm hnace hp
      | _ => exact hsig.otro hm hdist (viva_of_de ho) rfl (by simp [Evento.operacion, Pedido.operacion,
          Operacion.finaliza]) ho hp (hd.escribe t) hs

/-! ### Runs of a list of requests -/

instance (s : MemoriaGlobal) (fin : List ℕ) (t pid : ℕ) (e : Pedido) : Decidable (e.De s fin t pid) :=
  match e with
  | .iniciar _ => inferInstanceAs (Decidable (∀ u < s.listaTablasDeTablas.length, ¬ EsDe s fin u pid))
  | .escribir .. | .leer .. | .buscarMarco _ | .suspender | .finalizar =>
    inferInstanceAs (Decidable (EsDe s fin t pid))

instance (c : ConfigMemoria) (pid : ℕ) (e : Evento) : Decidable (e.EnPagina c pid) :=
  match h : e.pedido with
  | .escribir _ d _ | .leer _ d =>
    decidable_of_iff ((e.pedido.esLectura = true → e.pid = pid) → d + 4 ≤ c.tamPagina ∨ c.tamPagina ≤ d)
      (by rw [Evento.EnPagina, h]; rfl)
  | .iniciar _ | .buscarMarco _ | .suspender | .finalizar =>
    .isTrue (by rw [Evento.EnPagina, h]; exact fun _ => trivial)

/-- The requests of a list of processes, each to the table of its process. -/
def seguir (c : ConfigMemoria) : List (ℕ × Pedido) → List Evento × MemoriaGlobal × List ℕ →
    Option (List Evento × MemoriaGlobal × List ℕ)
  | [], y => some y
  | (pid, e) :: l, (es, s, fin) =>
    let t := ((List.range s.listaTablasDeTablas.length).find? fun t => EsDe s fin t pid).getD 0
    if e.De s fin t pid then do
      let (n, s') ← ejecutar c s (e.operacion t pid)
      if Numerable s' then seguir c l (es ++ [⟨pid, e, n⟩], s', (e.operacion t pid).finaliza ++ fin)
      else none
    else none

theorem seguir_traza : ∀ (l : List (ℕ × Pedido)) {y z : List Evento × MemoriaGlobal × List ℕ},
    Traza c y.1 y.2.1 y.2.2 → seguir c l y = some z → Traza c z.1 z.2.1 z.2.2
  | [], y, z, hy, h => by
    rw [← Option.some.inj h]
    exact hy
  | (pid, e) :: l, (es, s, fin), z, hy, h => by
    unfold seguir at h
    dsimp only at h
    split_ifs at h with ho
    obtain ⟨⟨n, s'⟩, hs, h⟩ := Option.bind_eq_some_iff.mp h
    dsimp only at h
    split_ifs at h with hn
    exact seguir_traza l (Traza.paso ⟨pid, e, n⟩ _ hy ho hs hn) h

/-- A list of requests from the start. -/
def trazaDe (c : ConfigMemoria) (l : List (ℕ × Pedido)) : Option (List Evento × MemoriaGlobal × List ℕ) :=
  seguir c l ([], sinProcesos, [])

theorem trazaDe_traza {l : List (ℕ × Pedido)} {z : List Evento × MemoriaGlobal × List ℕ}
    (h : trazaDe c l = some z) : Traza c z.1 z.2.1 z.2.2 :=
  seguir_traza l (.inicio ⟨rfl, rfl, fun _ _ => rfl⟩) h

/-! ### Two runs -/

/-- What the process sees of a request: whether it is answered, and the answer of a read. -/
def respuesta (c : ConfigMemoria) (s : MemoriaGlobal) (t pid : ℕ) (e : Pedido) : Option (Option ℕ) :=
  (ejecutar c s (e.operacion t pid)).map fun x => if e.esLectura then some x.1 else none

/-- The next request of the process, by the process itself. -/
theorem respuesta_eq {e : Pedido} (h : Sigue c s fin pid x) (hm : Marcos c s fin) (hdist : Distintos s fin)
    (ht : EsDe s fin t pid) (htab : (e.operacion t pid).tabla = some t)
    (hf : (e.operacion t pid).finaliza = []) (hd : (e.operacion t pid).EnPagina c)
    (hl : ¬ SinLugar c s (e.operacion t pid)) : respuesta c s t pid e =
      x.bind fun v => (v.ejecutar c (e.operacion 0 0)).map fun y => if e.esLectura then some y.1 else none := by
  rcases hx : x with _ | v
  · exact absurd ht (h.falta hx t)
  obtain ⟨u, hu, hv⟩ := h.vive hx
  obtain rfl := hdist.eq ht hu
  have hve : Ve c fin t s s v := ⟨hm, hv, Ajenas.refl c t s⟩
  rcases ejecutar_simula hve ht.1 htab hf hd with ⟨h1, -⟩ | h1
  · exact absurd h1 hl
  rw [ejecutar_operacion] at h1
  rw [respuesta, Option.bind_some]
  revert h1
  generalize ejecutar c s (e.operacion t pid) = y
  generalize v.ejecutar c (e.operacion 0 0) = z
  rintro (⟨h1⟩ | _)
  · rw [Option.map_some, Option.map_some]
    by_cases hlec : e.esLectura = true
    · rw [if_pos hlec, if_pos hlec, h1.1]
      cases e with
      | leer p d => rfl
      | _ => cases hlec
    · rw [if_neg hlec, if_neg hlec]
  · rfl

/-- **A process does not see the others.** In two runs in which it asks the same, whatever
else is asked, its reads are answered the same, and so is its next request, where no word
crosses the end of its page and no page past the end of a file is brought in. -/
theorem lecturas_aisladas (h : Traza c es s fin) (h' : Traza c es' s' fin')
    (he : ∀ e ∈ es, e.EnPagina c pid) (he' : ∀ e ∈ es', e.EnPagina c pid)
    (hpid : pedidos pid es = pedidos pid es') :
    lecturas pid es = lecturas pid es' ∧
      ∀ e t t', EsDe s fin t pid → EsDe s' fin' t' pid → (∀ tam, e ≠ .iniciar tam) → e ≠ .finalizar →
        e.EnPagina c → ¬ SinLugar c s (e.operacion t pid) → ¬ SinLugar c s' (e.operacion t' pid) →
          respuesta c s t pid e = respuesta c s' t' pid e := by
  obtain ⟨x, hx, hs⟩ := traza_solo h he
  obtain ⟨x', hx', hs'⟩ := traza_solo h' he'
  rw [hpid, hx', Option.some.injEq, Prod.mk.injEq] at hx
  obtain ⟨rfl, hl⟩ := hx
  refine ⟨hl.symm, fun e t t' ht ht' hini hfin hd hlug hlug' => ?_⟩
  have h1 : ∀ t, (e.operacion t pid).tabla = some t ∧ (e.operacion t pid).finaliza = [] ∧
      (e.operacion t pid).EnPagina c := fun t => by
    cases e with
    | iniciar tam => exact absurd rfl (hini tam)
    | finalizar => exact absurd rfl hfin
    | escribir p d dato => exact ⟨rfl, rfl, hd⟩
    | leer p d => exact ⟨rfl, rfl, hd⟩
    | buscarMarco p => exact ⟨rfl, rfl, trivial⟩
    | suspender => exact ⟨rfl, rfl, trivial⟩
  obtain ⟨h2, h3, h4⟩ := h1 t
  obtain ⟨h5, h6, h7⟩ := h1 t'
  rw [respuesta_eq hs (corrida_invariante (traza_corrida h)).marcos (traza_distintos h he) ht h2 h3 h4 hlug,
    respuesta_eq hs' (corrida_invariante (traza_corrida h')).marcos (traza_distintos h' he') ht' h5 h6 h7
      hlug']

theorem lecturas_aisladas_dosProcesos : ∃ x y,
    trazaDe (chica 2 1) [(0, .iniciar 8), (1, .iniciar 8), (1, .escribir 1 0 7), (1, .leer 1 0)] = some x ∧
    trazaDe (chica 2 1) [(0, .iniciar 8), (1, .iniciar 8), (0, .escribir 0 0 5), (1, .escribir 1 0 7),
      (0, .leer 1 2), (1, .leer 1 0)] = some y ∧ lecturas 1 x.1 = lecturas 1 y.1 := by
  obtain ⟨x, hx, h1⟩ := Option.map_eq_some_iff.mp (show (trazaDe (chica 2 1) [(0, .iniciar 8),
    (1, .iniciar 8), (1, .escribir 1 0 7), (1, .leer 1 0)]).map (fun x =>
      (decide (∀ e ∈ x.1, e.EnPagina (chica 2 1) 1), pedidos 1 x.1)) =
        some (true, [.iniciar 8, .escribir 1 0 7, .leer 1 0]) by decide +kernel)
  obtain ⟨y, hy, h2⟩ := Option.map_eq_some_iff.mp (show (trazaDe (chica 2 1) [(0, .iniciar 8),
    (1, .iniciar 8), (0, .escribir 0 0 5), (1, .escribir 1 0 7), (0, .leer 1 2), (1, .leer 1 0)]).map
      (fun x => (decide (∀ e ∈ x.1, e.EnPagina (chica 2 1) 1), pedidos 1 x.1)) =
        some (true, [.iniciar 8, .escribir 1 0 7, .leer 1 0]) by decide +kernel)
  obtain ⟨h3, h4⟩ := Prod.mk.inj h1
  obtain ⟨h5, h6⟩ := Prod.mk.inj h2
  exact ⟨x, y, hx, hy, (lecturas_aisladas (trazaDe_traza hx) (trazaDe_traza hy) (of_decide_eq_true h3)
    (of_decide_eq_true h5) (h4.trans h6.symm)).1⟩

/-- A word that starts in the last bytes of a page: with one frame each, the write of
process 0 reaches the page of process 1. -/
theorem not_lecturas_aisladas : ¬ ∀ (c : ConfigMemoria) (es es' : List Evento) (s s' : MemoriaGlobal)
    (fin fin' : List ℕ) (a b : ℕ), a ≠ b → Traza c es s fin → Traza c es' s' fin' →
      (∃ xs ys e, es.map (fun e => (e.pid, e.pedido)) = xs ++ ys ∧
        es'.map (fun e => (e.pid, e.pedido)) = xs ++ (a, e) :: ys) → lecturas b es = lecturas b es' := by
  intro h
  obtain ⟨x, hx, h1⟩ := Option.map_eq_some_iff.mp (show (trazaDe (chica 2 1) [(0, .iniciar 4),
    (1, .iniciar 4), (0, .leer 0 0), (1, .escribir 0 0 7), (1, .leer 0 0)]).map (fun x =>
      (x.1.map fun e => (e.pid, e.pedido), lecturas 1 x.1)) = some ([(0, .iniciar 4), (1, .iniciar 4),
        (0, .leer 0 0), (1, .escribir 0 0 7)] ++ [(1, .leer 0 0)], [7]) by decide +kernel)
  obtain ⟨y, hy, h2⟩ := Option.map_eq_some_iff.mp (show (trazaDe (chica 2 1) [(0, .iniciar 4),
    (1, .iniciar 4), (0, .leer 0 0), (1, .escribir 0 0 7), (0, .escribir 0 3 512), (1, .leer 0 0)]).map
      (fun x => (x.1.map fun e => (e.pid, e.pedido), lecturas 1 x.1)) = some ([(0, .iniciar 4),
        (1, .iniciar 4), (0, .leer 0 0), (1, .escribir 0 0 7)] ++ (0, .escribir 0 3 512) :: [(1, .leer 0 0)],
          [2]) by decide +kernel)
  obtain ⟨h3, h4⟩ := Prod.mk.inj h1
  obtain ⟨h5, h6⟩ := Prod.mk.inj h2
  have h7 := h (chica 2 1) x.1 y.1 _ _ _ _ 0 1 (by norm_num) (trazaDe_traza hx) (trazaDe_traza hy)
    ⟨_, _, _, h3, h5⟩
  rw [h4, h6] at h7
  cases h7

end Memoria
end Kiss
