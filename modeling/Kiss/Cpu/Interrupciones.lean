/-
# Interrupts and the PCB they are for

The dispatch handler clears `hay_interrupcion` when it has received a PCB, and the
two sockets are not ordered: an interrupt sent for the PCB and received before
that is lost (`not_atendida`). In the runs where it is received later, the PCB
executes one more instruction at most and goes back in eight steps of the handler,
none of which waits (`reach_atendida`).

Key definitions: `rango`, `Atendida`, `Recibida`, `Cuenta`.
Key theorems: `reach_atendida`, `not_atendida`.
-/
import Kiss.Cpu.Condicion

namespace Kiss
namespace Cpu

open Threads

variable {σ : Type*} {srv : Servidor σ}

/-- How many steps of the handler send the PCB back once the flag is set. -/
def rango : Action → ℕ
  | .borrarInterrupcion _ => 9
  | .ejecutarPcb _ => 8
  | .fetch _ => 7
  | .faseOperands _ _ => 6
  | .execute _ _ _ => 5
  | .testInterrupcion _ => 4
  | .checkInterrupt _ => 3
  | .finEjecucion _ => 2
  | .enviarPcb _ => 1
  | _ => 0

/-- The interrupt sent for the outstanding PCB is attended: since the CPU has
received both, one instruction at most was executed in at most eight steps of the
handler, which is not stopped and does not wait before it has sent the PCB back. -/
structure Atendida (srv : Servidor σ) (c : Config (CpuGlobal σ) Action) : Prop where
  ejecutadas : c.state.ejecutadas ≤ 1
  pasos : c.state.pasos ≤ 8
  sigue : ∀ a, [a] ∈ c.threads → 1 ≤ rango a → ∀ o, ∃ e, act srv a o c.state = some e ∧
    e.stop = false ∧ ∀ b, e.next = [b] → c.state.pedida = true → rango b < rango a
  /-- The PCB is at the CPU until the kernel receives it. -/
  vuelve : c.state.pendiente = true → c.state.dispatch ≠ [] ∨ c.state.respuestas ≠ [] ∨
    ∃ a, [a] ∈ c.threads ∧ 1 ≤ rango a

/-- The dispatched PCBs have a valid program and something to execute. -/
def Despachables (c : Config (CpuGlobal σ) Action) (x : ℕ × Outcome) : Prop :=
  ∀ p, c.threads[x.1]? = some [.cpuDispatchPcb] → x.2 = .pcb p → p.Valido

/-- No interrupt sent for the PCB was received before the flag is cleared for it. -/
structure Recibida (c : Config (CpuGlobal σ) Action) (x : ℕ × Outcome) : Prop where
  despachables : Despachables c x
  borrada : ∀ p, c.threads[x.1]? = some [.borrarInterrupcion p] → c.state.pedida = false

/-- What the counters say of the state. -/
structure Cuenta (s : CpuGlobal σ) : Prop where
  sinPedir : s.pedida = false → s.pasos = 0 ∧ s.ejecutadas = 0
  sinRecibir : s.dispatch ≠ [] → s.pasos = 0 ∧ s.ejecutadas = 0
  pasos : s.pasos ≤ 8
  ejecutadas : s.ejecutadas ≤ 1
  dispatch : ∀ p ∈ s.dispatch, p.Valido

/-- The program of the PCB is valid and goes on. -/
def Cursa : Action → CpuGlobal σ → Prop
  | .borrarInterrupcion p, _ | .ejecutarPcb p, _ | .fetch p, _ => p.Valido
  | .faseOperands p i, _ | .execute p i _, _ => p.EnCurso i
  | .testInterrupcion p, s | .checkInterrupt p, s => ∃ i, p.EnCurso i ∧ (s.enviarPcbOExit = false → i.codigo ≠ .exit)
  | _, _ => True

/-- What the counters say at a step of the handler. -/
structure Contada (a : Action) (s : CpuGlobal σ) : Prop where
  pedida : s.pedida = true → rango a ≤ 8 → s.pasos + rango a ≤ 8 ∧
    (5 ≤ rango a → s.ejecutadas = 0) ∧ (3 ≤ rango a → s.hayInterrupcion = true)
  sinEmpezar : rango a = 9 → s.pasos = 0 ∧ s.ejecutadas = 0
  cursa : Cursa a s

theorem rango_tras (i : Instruction) (p : Pcb) : rango (tras i p) ≤ 4 ∧ 1 ≤ rango (tras i p) := by
  unfold tras
  split <;> simp [rango]

theorem pesoPcb_of_rango {a : Action} (h : 1 ≤ rango a) : pesoPcb a = 1 := by
  cases a <;> simp_all [rango, pesoPcb]

section Reach

variable {ok : Config (CpuGlobal σ) Action → ℕ × Outcome → Prop} {m : Mmu} {t : σ}
  {c : Config (CpuGlobal σ) Action} {x : ℕ × Outcome} {a b : Action} {s : CpuGlobal σ}
  {e : Effect (CpuGlobal σ) Action}

/-- The handler does not stop and does not wait while it has a PCB. -/
theorem cursa_act (h : Cursa a s) (ha : 1 ≤ rango a) (o : Outcome) :
    ∃ e, act srv a o s = some e ∧ e.stop = false := by
  cases a
  case fetch p =>
    obtain ⟨i, hi⟩ := Pcb.Valido.fetch h
    simp only [act, hi]
    exact ⟨_, rfl, rfl⟩
  case faseOperands p i =>
    obtain ⟨⟨v, m, t⟩, hr⟩ : ∃ r, faseOperands srv s.mmu s.memoria p i = some r :=
      faseOperands_some s.mmu s.memoria p (Pcb.EnCurso.valida h)
    cases v <;> simp only [act, hr] <;> exact ⟨_, rfl, rfl⟩
  case execute p i v =>
    obtain ⟨q, enviar, m, t, hr⟩ : ∃ q enviar m t,
        execute srv s.mmu s.memoria p i v = some (q, enviar, m, t) :=
      execute_some s.mmu s.memoria p (Pcb.EnCurso.valida h) v
    simp only [act, hr]
    exact ⟨_, rfl, rfl⟩
  case checkInterrupt p =>
    simp only [act]
    split <;> exact ⟨_, rfl, rfl⟩
  all_goals first
    | exact ⟨_, rfl, rfl⟩
    | simp [rango] at ha

theorem cursa_rama (hd : ∀ p ∈ s.dispatch, p.Valido) (hF : 1 ≤ rango a → Cursa a s) {o : Outcome}
    (h : Rama srv a o s e) (hs : e.stop = false) (hb : e.next = [b]) : Cursa b e.state := by
  cases h <;> cases hs <;> cases hb
  case recibirDispatch pcb l h => exact hd pcb (h ▸ List.mem_cons_self)
  case borrarInterrupcion | ejecutarPcb => exact hF (by simp [rango])
  case fetch pcb i h => exact Pcb.Valido.enCurso (hF (by simp [rango])) h
  case faseOperands => exact hF (by simp [rango])
  case execute pcb i valor pcb' enviar m t h =>
    have h1 : pcb.EnCurso i := hF (by simp [rango])
    obtain ⟨h2, h3, -⟩ := execute_pcb h
    have h4 : (s.enviarPcbOExit || enviar) = false → i.codigo ≠ .exit := fun he =>
      condicion_exit ((execute_condicion h).2 (by simp_all))
    unfold tras
    split <;> exact ⟨i, h1.congr h2 h3, h4⟩
  case interrumpida pcb h =>
    obtain ⟨i, h1, h2⟩ : ∃ i, _ := hF (by simp [rango])
    exact ⟨i, h1.congr rfl rfl, h2⟩
  case noInterrumpida pcb h => exact hF (by simp [rango])
  case sigue pcb h =>
    obtain ⟨i, h1, h2⟩ : ∃ i, _ := hF (by simp [rango])
    exact h1.valido (h2 h.1)
  all_goals trivial

/-- A step of the handler is one of those left, and leaves the flag until the end. -/
theorem rango_rama {o : Outcome} (h : Rama srv a o s e) (ha : 1 ≤ rango a) (hs : e.stop = false)
    (hb : e.next = [b]) : (rango b < rango a ∨ rango b = 7 ∧ s.hayInterrupcion = false ∧ rango a = 3) ∧
      (rango a ≤ 8 → 3 ≤ rango b → e.state.hayInterrupcion = s.hayInterrupcion) := by
  cases h <;> cases hs <;> cases hb
  case execute pcb i valor pcb' enviar m t h =>
    refine ⟨Or.inl ?_, fun _ _ => rfl⟩
    show rango (tras i pcb') < 5
    exact Nat.lt_succ_of_le (rango_tras i pcb').1
  case sigue pcb h => exact ⟨Or.inr ⟨rfl, h.2, rfl⟩, fun _ _ => rfl⟩
  all_goals first
    | (simp [rango] at ha; done)
    | exact ⟨Or.inl (by simp [rango]), fun _ _ => rfl⟩
    | exact ⟨Or.inl (by simp [rango]), fun h1 h2 => by simp [rango] at h1 h2⟩

/-- A step of the handler with the PCB, and what it counts. -/
structure Paso (a : Action) (s s' : CpuGlobal σ) : Prop where
  rango : 1 ≤ rango a ∧ rango a ≤ 8
  dispatch : s.dispatch = [] ∧ s'.dispatch = []
  pedida : s'.pedida = s.pedida
  pasos : s'.pasos = s.paso.pasos
  ejecutadas : s'.ejecutadas = s.ejecutadas ∨ Cpu.rango a = 5 ∧ s'.ejecutadas ≤ s.ejecutadas + 1 ∧
    (s.pedida = false → s'.ejecutadas = s.ejecutadas)

variable {s' : CpuGlobal σ}

theorem Cuenta.paso (h : Cuenta s) (hc : Contada a s) (hp : Paso a s s') : Cuenta s' := by
  obtain ⟨⟨h1, h2⟩, ⟨h3, h4⟩, h5, h6, h7⟩ := hp
  simp only [CpuGlobal.paso] at h6
  cases hs : s.pedida
  · obtain ⟨h8, h9⟩ := h.sinPedir hs
    have h10 : s'.ejecutadas = 0 := by
      rcases h7 with h7 | ⟨-, -, h7⟩
      · omega
      · have := h7 hs
        omega
    rw [hs, if_neg (by simp), h8] at h6
    exact ⟨fun _ => ⟨h6, h10⟩, fun _ => ⟨h6, h10⟩, by omega, by omega, by simp [h4]⟩
  · obtain ⟨h8, h9, -⟩ := hc.pedida hs h2
    rw [hs, if_pos rfl] at h6
    have h10 := h.ejecutadas
    refine ⟨fun h => ?_, fun h => absurd h4 h, by omega, ?_, by simp [h4]⟩
    · rw [h5, hs] at h
      cases h
    rcases h7 with h7 | ⟨h7, h11, -⟩
    · omega
    · have := h9 (by omega)
      omega

theorem Contada.paso (hc : Contada a s) (hp : Paso a s s')
    (hb : rango b < rango a ∨ rango b = 7 ∧ s.hayInterrupcion = false ∧ Cpu.rango a = 3)
    (hs : 3 ≤ rango b → s'.hayInterrupcion = s.hayInterrupcion) (h : Cursa b s') : Contada b s' := by
  obtain ⟨⟨h1, h2⟩, -, h5, h6, h7⟩ := hp
  simp only [CpuGlobal.paso] at h6
  refine ⟨fun hpe _ => ?_, fun h9 => by omega, h⟩
  rw [h5] at hpe
  obtain ⟨h8, h9, h10⟩ := hc.pedida hpe h2
  rw [if_pos hpe] at h6
  rcases hb with hb | ⟨-, hb, h3⟩
  · refine ⟨by omega, fun h5 => ?_, fun h3 => ?_⟩
    · have := h9 (by omega)
      omega
    · rw [hs h3]
      exact h10 (by omega)
  · rw [h10 (by omega)] at hb
    cases hb

/-- The steps after the flag is cleared. -/
theorem paso_rama (hr : Reach (act srv) ok (start m t) c) (hk : c.threads[x.1]? = some [a])
    (ha : 1 ≤ rango a) (ha8 : rango a ≤ 8) {o : Outcome} (h : Rama srv a o c.state e) :
    Paso a c.state e.state := by
  have hd := (sockets_vacios hr (List.mem_of_getElem? hk) (pesoPcb_of_rango ha)).1
  cases h
  case execute pcb i valor pcb' enviar m t h =>
    refine ⟨⟨ha, ha8⟩, ⟨hd, hd⟩, rfl, rfl, Or.inr ⟨rfl, ?_, fun hp => ?_⟩⟩
    · show (if c.state.pedida then c.state.ejecutadas + 1 else c.state.ejecutadas) ≤ _
      split <;> omega
    · show (if c.state.pedida then c.state.ejecutadas + 1 else c.state.ejecutadas) = _
      rw [hp]
      rfl
  case borrarInterrupcion => simp [rango] at ha8
  all_goals first
    | exact ⟨⟨ha, ha8⟩, ⟨hd, hd⟩, rfl, rfl, Or.inl rfl⟩
    | simp [rango] at ha

theorem Cursa.congr (h : Cursa b s) (he : s'.enviarPcbOExit = s.enviarPcbOExit) : Cursa b s' := by
  cases b
  case testInterrupcion | checkInterrupt =>
    obtain ⟨i, h1, h2⟩ : ∃ i, _ := h
    exact ⟨i, h1, fun h => h2 (he ▸ h)⟩
  all_goals exact h

/-- An interrupt starts the count. -/
theorem contada_interrupt {o : Outcome} (h : Rama srv a o s e)
    (ha : a = .recibirInterrupt ∨ a = .cpuInterrupt) (hG : Cuenta s) (hF : Contada b s) :
    Contada b e.state := by
  cases h
  case recibirInterrupt n l h ho =>
    refine ⟨fun _ h8 => ?_, hF.sinEmpezar, hF.cursa.congr rfl⟩
    cases hp : s.pedida
    · obtain ⟨h1, h2⟩ := hG.sinPedir hp
      exact ⟨by show s.pasos + _ ≤ _; omega, fun _ => h2, fun _ => rfl⟩
    · obtain ⟨h1, h2, -⟩ := hF.pedida hp h8
      exact ⟨h1, h2, fun _ => rfl⟩
  all_goals first
    | exact ⟨hF.pedida, hF.sinEmpezar, hF.cursa.congr rfl⟩
    | simp at ha

theorem reach_contada (hok : ∀ c x, ok c x → Recibida c x) (h : Reach (act srv) ok (start m t) c) :
    Cuenta c.state ∧ ∀ b, [b] ∈ c.threads → pesoPcb b = 1 → Contada b c.state := by
  refine reach_fases (G := Cuenta) (F := Contada) ?_ ?_ ?_ h
  · refine ⟨⟨?_, ?_, ?_, ?_, ?_⟩, ?_, ?_, trivial⟩ <;> simp [start, rango]
  · intro c x a e hr hx hk hG hF he
    have hb := act_rama he
    have hcur := fun b => cursa_rama (b := b) hG.dispatch
      (fun ha => (hF (pesoPcb_of_rango ha)).cursa) hb
    by_cases ha : 1 ≤ rango a ∧ rango a ≤ 8
    · have hc := hF (pesoPcb_of_rango ha.1)
      have hp := paso_rama hr hk ha.1 ha.2 hb
      refine ⟨hG.paso hc hp, fun b hs hn _ => ?_⟩
      obtain ⟨h1, h2⟩ := rango_rama hb ha.1 hs hn
      exact hc.paso hp h1 (h2 ha.2) (hcur b hs hn)
    · have hd : ∀ p, c.threads[x.1]? = some [.cpuDispatchPcb] → x.2 = .pcb p → p.Valido :=
        (hok c x hx).despachables
      have hbo := (hok c x hx).borrada
      generalize x.2 = o at hb hd
      cases hb
      case recibirDispatch pcb l h =>
        obtain ⟨h1, h2⟩ := hG.sinRecibir (by simp [h])
        refine ⟨⟨hG.sinPedir, fun _ => ⟨h1, h2⟩, hG.pasos, hG.ejecutadas,
          fun p hp => hG.dispatch p (h ▸ List.mem_cons_of_mem _ hp)⟩, fun b hs hn _ => ?_⟩
        refine ⟨?_, fun _ => ⟨h1, h2⟩, hcur b hs hn⟩
        cases hn
        simp [rango]
      case borrarInterrupcion pcb =>
        have h1 := hbo pcb hk
        obtain ⟨h2, h3⟩ := hG.sinPedir h1
        have h4 : Cuenta { c.state.paso with hayInterrupcion := false } := by
          have h5 : c.state.paso.pasos = 0 := by simp [CpuGlobal.paso, h1, h2]
          exact ⟨fun _ => ⟨h5, h3⟩, fun _ => ⟨h5, h3⟩, h5.trans_le (by omega), hG.ejecutadas, hG.dispatch⟩
        refine ⟨h4, fun b hs hn _ => ⟨fun hp => ?_, ?_, hcur b hs hn⟩⟩
        · rw [show c.state.paso.pedida = c.state.pedida from rfl, h1] at hp
          cases hp
        · cases hn
          simp [rango]
      case cpuDispatchPcb p =>
        refine ⟨⟨by simp, by simp, by simp, by simp, fun q hq => ?_⟩, fun b _ hn hp => ?_⟩
        · rcases List.mem_append.mp hq with hq | hq
          · exact hG.dispatch q hq
          · exact List.mem_singleton.mp hq ▸ hd p hk rfl
        · cases hn
          cases hp
      case recibirPcb p l h =>
        refine ⟨⟨hG.sinPedir, hG.sinRecibir, hG.pasos, hG.ejecutadas, hG.dispatch⟩,
          fun b _ hn hp => ?_⟩
        cases hn
        exact ⟨fun _ _ => ⟨hG.pasos, by simp [rango], by simp [rango]⟩, by simp [rango], trivial⟩
      case recibirInterrupt n l h ho =>
        refine ⟨⟨fun hp => hG.sinPedir ?_, hG.sinRecibir, hG.pasos, hG.ejecutadas, hG.dispatch⟩,
          fun b _ hn hp => ?_⟩
        · exact (Bool.or_eq_false_iff.mp hp).1
        · cases hn
          cases hp
      all_goals first
        | (simp [rango] at ha; done)
        | (refine ⟨⟨hG.sinPedir, hG.sinRecibir, hG.pasos, hG.ejecutadas, hG.dispatch⟩,
            fun b hs hn hp => ?_⟩
           cases hs <;> cases hn <;> cases hp)
  · intro c x a e b _ hx hk ha hb he hG hF
    exact contada_interrupt (act_rama he) ha hG hF

/-- The PCB stays at the CPU until the kernel receives it. -/
theorem reach_vuelve (hok : ∀ c x, ok c x → Recibida c x) (h : Reach (act srv) ok (start m t) c) :
    c.state.pendiente = true → c.state.dispatch ≠ [] ∨ c.state.respuestas ≠ [] ∨
      ∃ a, [a] ∈ c.threads ∧ 1 ≤ rango a := by
  refine h.inv (I := fun c => c.state.pendiente = true → c.state.dispatch ≠ [] ∨
    c.state.respuestas ≠ [] ∨ ∃ a, [a] ∈ c.threads ∧ 1 ≤ rango a) (by simp [start]) ?_
  intro c c' x hr ih hx' hx hp
  obtain ⟨a, e, hk, he, rfl⟩ := step_solo hr hx
  have hF := (reach_contada hok hr).2 a (List.mem_of_getElem? hk)
  have hself : ∀ {k}, k ∈ c.threads.set x.1 k := fun {k} => by
    have h1 : k ∈ c.threads.set x.1 k ++ [] := mem_threads_self hk
    simpa using h1
  -- a thread that has a PCB, other than the one that ran
  have hother : rango a = 0 → (∃ b, [b] ∈ c.threads ∧ 1 ≤ rango b) →
      ∃ b, [b] ∈ c.threads.set x.1 (e.rest []) ∧ 1 ≤ rango b := by
    rintro ha ⟨b, hb, hb1⟩
    obtain ⟨j, hj⟩ := List.mem_iff_getElem?.mp hb
    have hji : j ≠ x.1 := by
      rintro rfl
      rw [hk] at hj
      cases hj
      omega
    have h1 : [b] ∈ c.threads.set x.1 (e.rest []) ++ [] := mem_threads_of_ne hj hji
    exact ⟨b, by simpa using h1, hb1⟩
  by_cases ha : 1 ≤ rango a
  · obtain ⟨e', he', hs⟩ : ∃ e, act srv a x.2 c.state = some e ∧ e.stop = false :=
      cursa_act (hF (pesoPcb_of_rango ha)).cursa ha x.2
    rw [he] at he'
    cases he'
    have hb := act_rama he
    clear he hx
    generalize x.2 = o at hb
    cases hb
    case enviarPcb => exact Or.inr (Or.inl (by simp))
    case execute pcb i valor pcb' enviar m t h => exact Or.inr (Or.inr ⟨_, hself, (rango_tras i pcb').2⟩)
    all_goals first
      | (simp [rango] at ha; done)
      | (cases hs; done)
      | exact Or.inr (Or.inr ⟨_, hself, by simp [rango]⟩)
  · have hb := act_rama he
    clear he hx
    generalize x.2 = o at hb
    cases hb
    case recibirDispatch => exact Or.inr (Or.inr ⟨_, hself, by simp [rango]⟩)
    case cpuDispatchPcb => exact Or.inl (by simp)
    case recibirPcb => cases hp
    all_goals first
      | (simp [rango] at ha; done)
      | (rcases ih hp with h1 | h1 | h1
         · exact Or.inl h1
         · exact Or.inr (Or.inl h1)
         · exact Or.inr (Or.inr (hother rfl h1)))

theorem reach_atendida (hok : ∀ c x, ok c x → Recibida c x) (h : Reach (act srv) ok (start m t) c) :
    Atendida srv c := by
  obtain ⟨h1, h2⟩ := reach_contada hok h
  refine ⟨h1.ejecutadas, h1.pasos, fun a ha hr o => ?_, reach_vuelve hok h⟩
  have h3 := h2 a ha (pesoPcb_of_rango hr)
  obtain ⟨e, he, hs⟩ : ∃ e, act srv a o c.state = some e ∧ e.stop = false :=
    cursa_act h3.cursa hr o
  refine ⟨e, he, hs, fun b hb hp => ?_⟩
  rcases (rango_rama (act_rama he) hr hs hb).1 with h4 | ⟨-, h4, h5⟩
  · exact h4
  · rw [(h3.pedida hp (by omega)).2.2 (by omega)] at h4
    cases h4

end Reach

/-! ### Runs -/

/-- `Despachables`, evaluated. -/
def checkDespachables (c : Config (CpuGlobal σ) Action) (x : ℕ × Outcome) : Bool :=
  match c.threads[x.1]?, x.2 with
  | some [.cpuDispatchPcb], .pcb p => decide p.Valido
  | _, _ => true

theorem despachables_of_check (c : Config (CpuGlobal σ) Action) (x : ℕ × Outcome)
    (h : checkDespachables c x = true) : Despachables c x := by
  intro p hk hx
  simpa [checkDespachables, hk, hx] using h

/-- `Recibida`, evaluated. -/
def checkRecibida (c : Config (CpuGlobal σ) Action) (x : ℕ × Outcome) : Bool :=
  checkDespachables c x && match c.threads[x.1]? with
    | some [.borrarInterrupcion _] => !c.state.pedida
    | _ => true

theorem recibida_of_check (c : Config (CpuGlobal σ) Action) (x : ℕ × Outcome)
    (h : checkRecibida c x = true) : Recibida c x := by
  obtain ⟨h1, h2⟩ := (Bool.and_eq_true ..).mp h
  refine ⟨despachables_of_check c x h1, fun p hk => ?_⟩
  simpa [hk] using h2

/-- Process 1 is to execute `NO_OP` three times and `EXIT`. -/
def largoPcb : Pcb := { ejemploPcb with instructions := List.replicate 3 ⟨.noOp, []⟩ ++ [⟨.exit, []⟩] }

/-- The interrupt for the dispatched PCB arrives after `n` steps of the dispatch handler,
which goes on for `k` steps. -/
def pedidaRun (n k : ℕ) : List (ℕ × Outcome) :=
  (2, .pcb largoPcb) :: oks n 0 ++ [(3, .ok), (1, .ok)] ++ oks k 0

/-- The interrupt arrives when the flag was cleared. -/
theorem reach_atendida_pedidaRun : ∃ c, Reach (act sinMemoria) Recibida (start ejemploMmu ()) c ∧
    (c.state.pedida, c.state.ejecutadas, c.state.respuestas.length) = (true, 1, 1) ∧
    Atendida sinMemoria c := by
  have h1 : (run (act sinMemoria) checkRecibida (start ejemploMmu ()) (pedidaRun 2 8)).map
      (fun c => (c.state.pedida, c.state.ejecutadas, c.state.respuestas.length)) =
      some (true, 1, 1) := by
    decide +kernel
  obtain ⟨c, hc, h2⟩ := Option.map_eq_some_iff.mp h1
  have hr := reach_of_run recibida_of_check Reach.start hc
  exact ⟨c, hr, h2, reach_atendida (fun _ _ h => h) hr⟩

/-- The interrupt arrives when the PCB was received and the flag is not cleared yet. -/
theorem not_atendida : ¬ ∀ (σ : Type) (srv : Servidor σ) m t c,
    Reach (act srv) Despachables (start m t) c → Atendida srv c := by
  intro h
  have h1 : (run (act sinMemoria) checkDespachables (start ejemploMmu ()) (pedidaRun 1 12)).map
      (fun c => c.state.ejecutadas) = some 2 := by
    decide +kernel
  obtain ⟨c, hc, h2⟩ := Option.map_eq_some_iff.mp h1
  have h3 := (h _ _ _ _ c (reach_of_run despachables_of_check Reach.start hc)).ejecutadas
  rw [h2] at h3
  exact absurd h3 (by decide)

end Cpu
end Kiss
