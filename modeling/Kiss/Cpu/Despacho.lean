/-
# The dispatched PCB

The kernel dispatches one PCB at a time, so at most one PCB is at the CPU: on the
dispatch socket, held by the dispatch handler, or sent back and not received
(`reach_unPcb`). What the handler knows of its PCB is then nobody else's to
change, except the flag, and a property of the cycle is given step by step
(`reach_fases`).

Key definitions: `Rama`, `pesoPcb`, `Instruction.Valida`, `Pcb.Valido`, `Pcb.EnCurso`.
Key theorems: `act_rama`, `reach_solo`, `reach_unPcb`, `reach_fases`.
-/
import Kiss.Cpu.CicloInstruccion

namespace Kiss
namespace Cpu

open Threads

variable {σ : Type*} {srv : Servidor σ}

/-! ### The branches of the actions -/

/-- The step after `execute`: only a code that is none returns before the test. -/
def tras (i : Instruction) (pcb : Pcb) : Action :=
  match i.codigo with
  | .otro _ _ => .checkInterrupt pcb
  | _ => .testInterrupcion pcb

/-- The branches of `act`. -/
inductive Rama (srv : Servidor σ) : Action → Outcome → CpuGlobal σ →
    Effect (CpuGlobal σ) Action → Prop
  | desconectado (s) : Rama srv .recibirDispatch .lost s { state := s, stop := true }
  | errorDispatch (s) : Rama srv .recibirDispatch .fail s { state := s, next := [.recibirDispatch] }
  | recibirDispatch (pcb l o s) (h : s.dispatch = pcb :: l) : Rama srv .recibirDispatch o s
      { state := { s with dispatch := l }, next := [.borrarInterrupcion pcb] }
  | borrarInterrupcion (pcb o s) : Rama srv (.borrarInterrupcion pcb) o s
      { state := { s.paso with hayInterrupcion := false }, next := [.ejecutarPcb pcb] }
  | ejecutarPcb (pcb o s) : Rama srv (.ejecutarPcb pcb) o s
      { state := { s.paso with
          mmu := { s.mmu with tlb := limpiarTlb s.mmu.tlb }
          enviarPcbOExit := false }, next := [.fetch pcb] }
  | fetch (pcb i o s) (h : listGet pcb.instructions pcb.programCounter = some i) :
    Rama srv (.fetch pcb) o s
      { state := s.paso, next := [.faseOperands { pcb with programCounter := pcb.programCounter + 1 } i] }
  | fetchNull (pcb o s) (h : listGet pcb.instructions pcb.programCounter = none) :
    Rama srv (.fetch pcb) o s { state := s.paso, stop := true }
  | faseOperands (pcb i valor m t o s)
      (h : Cpu.faseOperands srv s.mmu s.memoria pcb i = some (some valor, m, t)) :
    Rama srv (.faseOperands pcb i) o s
      { state := { s.paso with mmu := m, memoria := t }, next := [.execute pcb i valor] }
  | sinOperando (pcb i m t o s)
      (h : Cpu.faseOperands srv s.mmu s.memoria pcb i = some (none, m, t)) :
    Rama srv (.faseOperands pcb i) o s
      { state := { s.paso with mmu := m, memoria := t }, next := [.finEjecucion pcb] }
  | faseOperandsNull (pcb i o s) (h : Cpu.faseOperands srv s.mmu s.memoria pcb i = none) :
    Rama srv (.faseOperands pcb i) o s { state := s.paso, stop := true }
  | execute (pcb i valor pcb' enviar m t o s)
      (h : Cpu.execute srv s.mmu s.memoria pcb i valor = some (pcb', enviar, m, t)) :
    Rama srv (.execute pcb i valor) o s
      { state := { s.paso with
          mmu := m
          memoria := t
          enviarPcbOExit := s.enviarPcbOExit || enviar
          ejecutadas := if s.pedida then s.ejecutadas + 1 else s.ejecutadas },
        next := [tras i pcb'] }
  | executeNull (pcb i valor o s) (h : Cpu.execute srv s.mmu s.memoria pcb i valor = none) :
    Rama srv (.execute pcb i valor) o s { state := s.paso, stop := true }
  | interrumpida (pcb o s) (h : s.hayInterrupcion = true ∧ s.enviarPcbOExit = false) :
    Rama srv (.testInterrupcion pcb) o s
      { state := s.paso,
        next := [.checkInterrupt { pcb with cpuDispatchCond := .interruptedByKernel }] }
  | noInterrumpida (pcb o s) (h : s.hayInterrupcion = false ∨ s.enviarPcbOExit = true) :
    Rama srv (.testInterrupcion pcb) o s { state := s.paso, next := [.checkInterrupt pcb] }
  | termina (pcb o s) (h : s.enviarPcbOExit = true ∨ s.hayInterrupcion = true) :
    Rama srv (.checkInterrupt pcb) o s
      { state := { s.paso with enviarPcbOExit := true }, next := [.finEjecucion pcb] }
  | sigue (pcb o s) (h : s.enviarPcbOExit = false ∧ s.hayInterrupcion = false) :
    Rama srv (.checkInterrupt pcb) o s { state := s.paso, next := [.fetch pcb] }
  | finEjecucion (pcb o s) : Rama srv (.finEjecucion pcb) o s
      { state := { s.paso with hayInterrupcion := false },
        next := [.enviarPcb { pcb with cpuExecutedBurst := o.total }] }
  | enviarPcb (pcb o s) : Rama srv (.enviarPcb pcb) o s
      { state := { s.paso with respuestas := s.respuestas ++ [pcb] }, next := [.recibirDispatch] }
  | interruptLost (s) : Rama srv .recibirInterrupt .lost s { state := s, stop := true }
  | errorInterrupt (s) : Rama srv .recibirInterrupt .fail s
      { state := s, next := [.recibirInterrupt] }
  | recibirInterrupt (n l o s) (h : s.interrupt = (.cpuInterrupt, n) :: l)
      (ho : o ≠ .lost ∧ o ≠ .fail) : Rama srv .recibirInterrupt o s
      { state := { s with
          interrupt := l
          hayInterrupcion := true
          pedida := s.pedida || (s.pendiente && n = s.despachos) }, next := [.recibirInterrupt] }
  | otraSignal (g n l o s) (h : s.interrupt = (g, n) :: l) (hg : g ≠ .cpuInterrupt) :
    Rama srv .recibirInterrupt o s
      { state := { s with interrupt := l }, next := [.recibirInterrupt] }
  | cpuDispatchPcb (p s) : Rama srv .cpuDispatchPcb (.pcb p) s
      { state := { s with
          dispatch := s.dispatch ++ [p]
          despachos := s.despachos + 1
          pendiente := true
          pedida := false
          ejecutadas := 0
          pasos := 0 }, next := [.recibirPcb] }
  | recibirPcb (p l o s) (h : s.respuestas = p :: l) : Rama srv .recibirPcb o s
      { state := { s with respuestas := l, pendiente := false }, next := [.cpuDispatchPcb] }
  | cpuInterrupt (o s) : Rama srv .cpuInterrupt o s
      { state := { s with
          interrupt := s.interrupt ++ [(.cpuInterrupt, if s.pendiente then s.despachos else 0)] },
        next := [.cpuInterrupt] }

/-- Every step takes a branch. -/
theorem act_rama {a : Action} {o : Outcome} {s : CpuGlobal σ} {e : Effect (CpuGlobal σ) Action}
    (h : act srv a o s = some e) : Rama srv a o s e := by
  cases a
  case testInterrupcion pcb =>
    simp only [act, andThen, Option.some.injEq] at h
    subst h
    by_cases hc : s.hayInterrupcion = true ∧ s.enviarPcbOExit = false
    · have hb : Rama srv (.testInterrupcion pcb) o s _ := Rama.interrumpida pcb o s hc
      simpa [hc] using hb
    · have hn : s.hayInterrupcion = false ∨ s.enviarPcbOExit = true := by
        cases h1 : s.hayInterrupcion <;> cases h2 : s.enviarPcbOExit <;> simp_all
      have : (s.hayInterrupcion && !s.enviarPcbOExit) = false := by
        rcases hn with hn | hn <;> simp [hn]
      have hb : Rama srv (.testInterrupcion pcb) o s _ := Rama.noInterrumpida pcb o s hn
      simpa [this] using hb
  case execute pcb i valor =>
    cases hx : execute srv s.mmu s.memoria pcb i valor with
    | none =>
      simp only [act, hx, stop, Option.some.injEq] at h
      exact h ▸ .executeNull pcb i valor o s hx
    | some r =>
      simp only [act, hx, andThen, Option.some.injEq] at h
      have hb : Rama srv (.execute pcb i valor) o s _ := Rama.execute pcb i valor _ _ _ _ o s hx
      cases hi : i.codigo <;> simp only [hi, tras] at h hb <;> exact h ▸ hb
  case checkInterrupt pcb =>
    simp only [act, andThen] at h
    split at h <;> rename_i hc <;> cases h
    · exact .termina pcb o s (by simpa using hc)
    · exact .sigue pcb o s (by simpa using hc)
  case cpuInterrupt =>
    simp only [act, andThen, Option.some.injEq] at h
    exact h ▸ .cpuInterrupt o s
  all_goals
    dsimp only [act, andThen, stop] at h
    (repeat' split at h) <;> cases h
  all_goals first
    | (constructor; done)
    | (constructor <;> first | assumption | simp_all)

/-! ### One PCB at a time -/

/-- The PCB the dispatch handler has, and the turn of the kernel to dispatch. -/
def pesoPcb : Action → ℤ
  | .recibirDispatch | .recibirInterrupt | .recibirPcb | .cpuInterrupt => 0
  | .borrarInterrupcion _ | .ejecutarPcb _ | .fetch _ | .faseOperands _ _ | .execute _ _ _
  | .testInterrupcion _ | .checkInterrupt _ | .finEjecucion _ | .enviarPcb _ | .cpuDispatchPcb => 1

theorem pesoPcb_nonneg (a : Action) : 0 ≤ pesoPcb a := by
  cases a <;> simp [pesoPcb]

@[simp] theorem pesoPcb_tras (i : Instruction) (pcb : Pcb) : pesoPcb (tras i pcb) = 1 := by
  unfold tras
  split <;> rfl

theorem pesoPcb_pos {a : Action} (h : 1 ≤ pesoPcb a) : pesoPcb a = 1 := by
  cases a <;> simp_all [pesoPcb]

section Reach

variable {ok : Config (CpuGlobal σ) Action → ℕ × Outcome → Prop} {m : Mmu} {t : σ}
  {c c' : Config (CpuGlobal σ) Action} {x : ℕ × Outcome}

/-- A step puts one action at most in the place of the one done. -/
theorem rama_solo {a : Action} {o : Outcome} {s : CpuGlobal σ} {e : Effect (CpuGlobal σ) Action}
    (h : Rama srv a o s e) : e.spawn = [] ∧ (e.rest [] = [] ∨ ∃ b, e.next = [b] ∧ e.rest [] = [b]) := by
  cases h
  all_goals exact ⟨rfl, by simp [Effect.rest]⟩

/-- Every thread has one action to do, or has ended. -/
theorem reach_solo (h : Reach (act srv) ok (start m t) c) :
    ∀ k ∈ c.threads, ∀ a l, k = a :: l → l = [] := by
  refine h.inv (I := fun c => ∀ k ∈ c.threads, ∀ a l, k = a :: l → l = []) ?_ ?_
  · intro k hk a l hl
    simp only [start, List.mem_cons, List.not_mem_nil, or_false] at hk
    rcases hk with rfl | rfl | rfl | rfl <;> cases hl <;> rfl
  · intro c c' x _ ih _ hx
    refine threads_step hx ih fun a k e hk he => ?_
    obtain rfl := hk a k rfl
    obtain ⟨h1, h2⟩ := rama_solo (act_rama he)
    refine ⟨fun b l hb => ?_, by simp [h1]⟩
    rcases h2 with h2 | ⟨b', -, h2⟩ <;> rw [h2] at hb <;> cases hb
    rfl

theorem step_solo (hr : Reach (act srv) ok (start m t) c) (h : step (act srv) c x = some c') :
    ∃ a e, c.threads[x.1]? = some [a] ∧ act srv a x.2 c.state = some e ∧
      c' = ⟨e.state, c.threads.set x.1 (e.rest [])⟩ := by
  obtain ⟨a, k, e, hk, he, rfl⟩ := step_some h
  obtain rfl := reach_solo hr _ (List.mem_of_getElem? hk) a k rfl
  refine ⟨a, e, hk, he, ?_⟩
  rw [(rama_solo (act_rama he)).1, List.append_nil]

/-- At most one PCB is at the CPU. -/
theorem reach_unPcb (h : Reach (act srv) ok (start m t) c) :
    (c.state.dispatch.length + c.state.respuestas.length : ℤ) + total pesoPcb c.threads ≤ 1 := by
  refine h.inv (I := fun c => (c.state.dispatch.length + c.state.respuestas.length : ℤ) +
    total pesoPcb c.threads ≤ 1) (by simp [start, pesoPcb]) ?_
  intro c c' x _ ih _ hx
  have h1 := balance_step (m := fun s => (s.dispatch.length + s.respuestas.length : ℤ))
    (w := pesoPcb) (d := 0) hx (fun k _ => grounded_of_nonneg pesoPcb_nonneg k) fun a k e _ he => by
      have hb := act_rama he
      generalize x.2 = o at hb
      cases hb
      case execute =>
        simp [CpuGlobal.paso, show ∀ p i v, pesoPcb (.execute p i v) = 1 from fun _ _ _ => rfl]
      all_goals simp [CpuGlobal.paso, pesoPcb, *] <;> omega
  omega

/-- While the handler has a PCB, no other is on the sockets. -/
theorem sockets_vacios (h : Reach (act srv) ok (start m t) c) {a : Action} (hk : [a] ∈ c.threads)
    (ha : pesoPcb a = 1) : c.state.dispatch = [] ∧ c.state.respuestas = [] := by
  have h1 := reach_unPcb h
  have h2 := le_total (fun k _ => (grounded_of_nonneg pesoPcb_nonneg k).nonneg) hk
  rw [load_cons, load_nil, ha] at h2
  exact ⟨List.length_eq_zero_iff.mp (by omega), List.length_eq_zero_iff.mp (by omega)⟩

/-- A step of the thread that has the PCB leads from what holds of its action to what
holds of the next one, and the threads of the interrupts do not break it. -/
theorem fases_step {G : CpuGlobal σ → Prop} {F : Action → CpuGlobal σ → Prop}
    (hr : Reach (act srv) ok (start m t) c) (hx : step (act srv) c x = some c')
    (hF : ∀ b, [b] ∈ c.threads → pesoPcb b = 1 → F b c.state)
    (hrun : ∀ a e, c.threads[x.1]? = some [a] → (pesoPcb a = 1 → F a c.state) →
      act srv a x.2 c.state = some e →
      G e.state ∧ ∀ b, e.stop = false → e.next = [b] → pesoPcb b = 1 → F b e.state)
    (hidle : ∀ a e b, c.threads[x.1]? = some [a] → a = .recibirInterrupt ∨ a = .cpuInterrupt →
      [b] ∈ c.threads → act srv a x.2 c.state = some e → F b c.state → F b e.state) :
    G c'.state ∧ ∀ b, [b] ∈ c'.threads → pesoPcb b = 1 → F b c'.state := by
  have hn : ∀ k ∈ c.threads, 0 ≤ load pesoPcb k :=
    fun k _ => (grounded_of_nonneg pesoPcb_nonneg k).nonneg
  have h2 := reach_unPcb hr
  have ih : ∀ k ∈ c.threads, 1 ≤ load pesoPcb k → ∀ b, k = [b] → F b c.state := by
    rintro k hk hw b rfl
    exact hF b hk (pesoPcb_pos (by simpa using hw))
  have hstep : ∀ a k e, c.threads[x.1]? = some (a :: k) → act srv a x.2 c.state = some e →
      G e.state ∧ ∀ b, e.stop = false → e.next = [b] → pesoPcb b = 1 → F b e.state := by
    intro a k e hk he
    obtain rfl := reach_solo hr _ (List.mem_of_getElem? hk) a k rfl
    exact hrun a e hk (hF a (List.mem_of_getElem? hk)) he
  have h1 : G c'.state ∧ ∀ k ∈ c'.threads, 1 ≤ load pesoPcb k → ∀ b, k = [b] → F b c'.state := by
    refine ⟨?_, hold_step (F := fun s k => ∀ b, k = [b] → F b s) hx hn (by omega) ih ?_ ?_⟩
    · obtain ⟨a, k, e, hk, he, rfl⟩ := step_some hx
      exact (hstep a k e hk he).1
    · intro a k e hk he
      obtain rfl := reach_solo hr _ (List.mem_of_getElem? hk) a k rfl
      obtain ⟨h3, h4⟩ := rama_solo (act_rama he)
      refine ⟨fun hw b hb => ?_, by simp [h3]⟩
      rw [hb, load_cons, load_nil, add_zero] at hw
      refine (hstep a [] e hk he).2 b ?_ ?_ (pesoPcb_pos hw)
      · cases hs : e.stop
        · rfl
        · rw [Effect.rest, if_pos hs] at hb
          cases hb
      · rcases h4 with h4 | ⟨b', h4, h5⟩
        · rw [h4] at hb
          cases hb
        · rw [h4, ← h5, hb]
    · intro a k e hk he hw k' hk' hw' hF b hb
      obtain rfl := reach_solo hr _ (List.mem_of_getElem? hk) a k rfl
      subst hb
      obtain ⟨h3, h4⟩ := sockets_vacios hr hk' (pesoPcb_pos (by simpa using hw'))
      have hb := act_rama he
      rw [load_cons, load_nil, add_zero] at hw
      by_cases ha : a = .recibirInterrupt ∨ a = .cpuInterrupt
      · exact hidle a e b hk ha hk' he (hF b rfl)
      · generalize x.2 = o at hb
        cases hb
        case recibirDispatch h => rw [h3] at h; cases h
        case recibirPcb h => rw [h4] at h; cases h
        case desconectado | errorDispatch => exact hF b rfl
        all_goals simp [pesoPcb] at hw ha
  exact ⟨h1.1, fun b hb hp => h1.2 _ hb (by simp [hp]) b rfl⟩

/-- **Phases.** A property `G` of the state and, while a thread has the PCB, a
property `F` of its step, which every step of that thread keeps and the threads of
the interrupts do not break, hold in every run. -/
theorem reach_fases {G : CpuGlobal σ → Prop} {F : Action → CpuGlobal σ → Prop}
    (h0 : G (start m t).state ∧ F .cpuDispatchPcb (start m t).state)
    (hrun : ∀ c x a e, Reach (act srv) ok (start m t) c → ok c x → c.threads[x.1]? = some [a] →
      G c.state → (pesoPcb a = 1 → F a c.state) → act srv a x.2 c.state = some e →
      G e.state ∧ ∀ b, e.stop = false → e.next = [b] → pesoPcb b = 1 → F b e.state)
    (hidle : ∀ c x a e b, Reach (act srv) ok (start m t) c → ok c x → c.threads[x.1]? = some [a] →
      a = .recibirInterrupt ∨ a = .cpuInterrupt → [b] ∈ c.threads → act srv a x.2 c.state = some e →
      G c.state → F b c.state → F b e.state)
    (h : Reach (act srv) ok (start m t) c) :
    G c.state ∧ ∀ b, [b] ∈ c.threads → pesoPcb b = 1 → F b c.state := by
  refine h.inv (I := fun c => G c.state ∧ ∀ b, [b] ∈ c.threads → pesoPcb b = 1 → F b c.state) ?_ ?_
  · refine ⟨h0.1, fun b hb hw => ?_⟩
    simp only [start, List.mem_cons, List.cons.injEq, and_true, List.not_mem_nil, or_false] at hb
    rcases hb with rfl | rfl | rfl | rfl <;> first
      | exact h0.2
      | simp [pesoPcb] at hw
  · intro c c' x hr ⟨ih1, ih2⟩ hok hx
    exact fases_step hr hx ih2 (fun a e hk ha he => hrun c x a e hr hok hk ih1 ha he)
      fun a e b hk ha hb he hF => hidle c x a e b hr hok hk ha hb he ih1 hF

end Reach

/-! ### Valid programs -/

/-- A PCB of a valid program with an instruction to execute. -/
structure Pcb.Valido (p : Pcb) : Prop where
  programa : ProgramaValido p.instructions
  nonneg : 0 ≤ p.programCounter
  lt : p.programCounter < p.instructions.length

instance (p : Pcb) : Decidable p.Valido :=
  decidable_of_iff (ProgramaValido p.instructions ∧ 0 ≤ p.programCounter ∧
      p.programCounter < p.instructions.length)
    ⟨fun h => ⟨h.1, h.2.1, h.2.2⟩, fun h => ⟨h.1, h.2, h.3⟩⟩

/-- Instruction `i` was fetched for the PCB. -/
structure Pcb.EnCurso (p : Pcb) (i : Instruction) : Prop where
  programa : ProgramaValido p.instructions
  pos : 1 ≤ p.programCounter
  fetched : listGet p.instructions (p.programCounter - 1) = some i

theorem listGet_some {l : List Instruction} {n : ℤ} {i : Instruction} (h : listGet l n = some i) :
    0 ≤ n ∧ n < l.length ∧ l[n.toNat]? = some i := by
  unfold listGet at h
  split at h
  · obtain ⟨h1, -⟩ := List.getElem?_eq_some_iff.mp h
    exact ⟨‹_›, by omega, h⟩
  · cases h

/-- A valid PCB has its next instruction. -/
theorem Pcb.Valido.fetch {p : Pcb} (h : p.Valido) : ∃ i, listGet p.instructions p.programCounter = some i := by
  have h1 : p.programCounter.toNat < p.instructions.length := by
    have := h.lt
    have := h.nonneg
    omega
  exact ⟨_, by rw [listGet, if_pos h.nonneg, List.getElem?_eq_getElem h1]⟩

theorem Pcb.Valido.enCurso {p : Pcb} (h : p.Valido) {i : Instruction}
    (hi : listGet p.instructions p.programCounter = some i) :
    Pcb.EnCurso { p with programCounter := p.programCounter + 1 } i :=
  ⟨h.programa, by have := h.nonneg; show 1 ≤ p.programCounter + 1; omega, by
    show listGet p.instructions (p.programCounter + 1 - 1) = some i
    rw [add_sub_cancel_right, hi]⟩

theorem Pcb.EnCurso.valida {p : Pcb} {i : Instruction} (h : p.EnCurso i) : i.Valida :=
  h.programa.valida i (List.mem_of_getElem? (listGet_some h.fetched).2.2)

/-- After an instruction other than `EXIT` there is a next one. -/
theorem Pcb.EnCurso.valido {p : Pcb} {i : Instruction} (h : p.EnCurso i) (hi : i.codigo ≠ .exit) :
    p.Valido := by
  obtain ⟨h1, h2, h3⟩ := listGet_some h.fetched
  refine ⟨h.programa, by omega, ?_⟩
  by_contra hlt
  obtain ⟨u, hu, hexit⟩ := h.programa.exit
  rw [Option.mem_def, List.getLast?_eq_getElem?, show p.instructions.length - 1 = (p.programCounter - 1).toNat by omega,
    h3, Option.some.injEq] at hu
  exact hi (hu ▸ hexit)

/-- What a step changes of the PCB but its program and its counter. -/
theorem Pcb.EnCurso.congr {p q : Pcb} {i : Instruction} (h : p.EnCurso i)
    (h1 : q.instructions = p.instructions) (h2 : q.programCounter = p.programCounter) :
    q.EnCurso i :=
  ⟨h1 ▸ h.programa, h2 ▸ h.pos, by rw [h1, h2]; exact h.fetched⟩

theorem parametro_some {i : Instruction} {n : ℕ} (h : n < i.parametros.length) :
    ∃ v, parametro i n = some v := by
  rw [parametro, listGet, if_pos (Int.natCast_nonneg n), Int.toNat_natCast,
    List.getElem?_eq_getElem h]
  exact ⟨_, rfl⟩

theorem faseOperands_some (m : Mmu) (s : σ) (p : Pcb) {i : Instruction} (h : i.Valida) :
    ∃ r, faseOperands srv m s p i = some r := by
  unfold faseOperands
  split
  · rename_i hi
    have h1 : 2 ≤ i.parametros.length := by simpa [Instruction.Valida, hi] using h
    obtain ⟨v, hv⟩ := parametro_some (n := 1) (by omega : 1 < i.parametros.length)
    rw [show ((1 : ℤ)) = ((1 : ℕ) : ℤ) from rfl, hv]
    exact ⟨_, rfl⟩
  · exact ⟨_, rfl⟩

/-- A valid instruction is executed, and leaves the program and its counter. -/
theorem execute_some (m : Mmu) (s : σ) (p : Pcb) {i : Instruction} (h : i.Valida) (v : ℤ) :
    ∃ q enviar m' s', execute srv m s p i v = some (q, enviar, m', s') := by
  unfold Instruction.Valida at h
  unfold execute
  cases hi : i.codigo <;> simp only [hi] at h
  case noOp | exit => exact ⟨_, _, _, _, rfl⟩
  case io | read =>
    obtain ⟨v0, h0⟩ := parametro_some (n := 0) (by omega : 0 < i.parametros.length)
    rw [show (0 : ℤ) = ((0 : ℕ) : ℤ) from rfl, h0]
    exact ⟨_, _, _, _, rfl⟩
  case copy =>
    obtain ⟨v0, h0⟩ := parametro_some (n := 0) (by omega : 0 < i.parametros.length)
    rw [show (0 : ℤ) = ((0 : ℕ) : ℤ) from rfl, h0]
    exact ⟨_, _, _, _, rfl⟩
  case write =>
    obtain ⟨v0, h0⟩ := parametro_some (n := 0) (by omega : 0 < i.parametros.length)
    obtain ⟨v1, h1⟩ := parametro_some (n := 1) (by omega : 1 < i.parametros.length)
    rw [show (0 : ℤ) = ((0 : ℕ) : ℤ) from rfl, h0, show (1 : ℤ) = ((1 : ℕ) : ℤ) from rfl, h1]
    exact ⟨_, _, _, _, rfl⟩

theorem execute_pcb {m m' : Mmu} {s s' : σ} {p q : Pcb} {i : Instruction} {v : ℤ} {enviar : Bool}
    (h : execute srv m s p i v = some (q, enviar, m', s')) :
    q.instructions = p.instructions ∧ q.programCounter = p.programCounter ∧ q.id = p.id := by
  unfold execute at h
  split at h
  case h_4 =>
    obtain ⟨d, -, h⟩ := Option.bind_eq_some_iff.mp h
    obtain ⟨n, -, h⟩ := Option.map_eq_some_iff.mp h
    cases h
    exact ⟨rfl, rfl, rfl⟩
  case h_1 | h_6 | h_7 =>
    cases h
    exact ⟨rfl, rfl, rfl⟩
  all_goals
    obtain ⟨n, -, h⟩ := Option.map_eq_some_iff.mp h
    cases h
    exact ⟨rfl, rfl, rfl⟩

/-- An instruction that does not end the cycle leaves the PCB as it is. -/
theorem execute_sigue {m m' : Mmu} {s s' : σ} {p q : Pcb} {i : Instruction} {v : ℤ}
    (h : execute srv m s p i v = some (q, false, m', s')) : q = p := by
  unfold execute at h
  split at h
  case h_4 =>
    obtain ⟨d, -, h⟩ := Option.bind_eq_some_iff.mp h
    obtain ⟨n, -, h⟩ := Option.map_eq_some_iff.mp h
    cases h
    rfl
  case h_1 | h_6 | h_7 => cases h <;> rfl
  all_goals
    obtain ⟨n, -, h⟩ := Option.map_eq_some_iff.mp h
    cases h <;> rfl

end Cpu
end Kiss
