/-
# The CPU's occupancy and the permit to preempt

`kernel->cpu->busy` says that a process is at the CPU, and `stp_sem_interrupt`
lets one thread at a time preempt it: the permit is taken before the interrupt
is sent and posted when the process comes back, which
`kernel->cpu->interrupted` remembers. Both are kept where every PCB and every
interrupt is sent and every answer received intact (`reach_conserved`). The
branches for what fails restore neither (`not_conserved`).

Key definitions: `Quiescent`, `Conserved`, `Succeeds`, `interruptWeight`, `returnWeight`.
Key theorems: `reach_kept`, `reach_conserved`, `not_conserved`.
-/
import Kiss.Kernel.Replies

namespace Kiss
namespace Kernel

open Kernel.Action Threads

/-! ### What is promised -/

/-- The steps of a dispatch, an answer or an insertion that is half done. -/
@[simp] def Action.half : Action → Bool
  | sendPcb _ | setBusy _ | takeExec _ | takeExecError | sendInterrupt | setInterrupted
  | semPost .stpSemInterrupt => true
  | _ => false

/-- No dispatch, answer or insertion is half done. -/
def Quiescent (c : Config Planner Action) : Prop := ∀ k ∈ c.threads, ∀ a ∈ k, a.half = false

/-- A thread that has taken the permit to preempt, and has neither marked the CPU
as interrupted nor posted, weighs 1. -/
def interruptWeight : Action → ℤ
  | semWait .stpSemInterrupt => -1
  | sendInterrupt | setInterrupted | semPost .stpSemInterrupt => 1
  | _ => 0

/-- What is to pass `ifInterrupted`, with what `stp_sem_plan` has announced: an
insertion that does not wait for the permit, the controller between the wait and
the pop, and a dispatch up to `ifInterrupted`. -/
def returnWeight : Action → ℤ
  | semWait .stpSemPlan | semWait .stpSemInterrupt | interruptIfBusy _ => -1
  | semPost .stpSemPlan | popReady | recieveMessageAsync | recieveMessage | pushData _ | cpuRecievePcbAsync
  | ifInterrupted => 1
  | _ => 0

/-- A process is at the CPU, or will be sent to it, and is to come back. -/
def ComesBack (c : Config Planner Action) : Prop :=
  1 ≤ (c.state.sems .stpSemPlan : ℤ) + total returnWeight c.threads

/-- The CPU's occupancy and the permit are kept. -/
structure Conserved (c : Config Planner Action) : Prop where
  busy : Quiescent c → (c.state.busy = true ↔ c.state.exec ≠ none)
  permit : Quiescent c → c.state.sems .stpSemInterrupt + c.state.interrupted.toNat = 1
  /-- A thread waits for the permit only while another is about to hand it on, or
  while the CPU is marked as interrupted and a process is to come back. -/
  waits : ∀ k ∈ c.threads, k.head? = some (semWait .stpSemInterrupt) →
    c.state.sems .stpSemInterrupt = 0 →
    (∃ l ∈ c.threads, 1 ≤ load interruptWeight l) ∨ c.state.interrupted = true ∧ ComesBack c

/-- No connection is lost, the receiver starts, and every PCB and interrupt is
sent and every answer received intact. -/
structure Succeeds (c : Config Planner Action) (x : ℕ × Outcome) : Prop where
  notLost : x.2 ≠ .lost
  listens : ∀ k, c.threads[x.1]? = some (recieveMessageAsync :: k) → x.2 = .ok
  sends : ∀ a k, c.threads[x.1]? = some (a :: k) → a = sendInterrupt ∨ (∃ p, a = sendPcb p) → x.2 = .ok
  recieves : ∀ k, c.threads[x.1]? = some (recieveMessage :: k) → ∃ r, x.2 = .reply r

/-! ### The dispatch cycle where nothing fails -/

/-- The cycle in the runs where nothing fails. -/
def occupancyPhases : Phases where
  idle v := v.exec = none ∧ v.busy = false ∧ v.data = []
  sending _ v := v.exec ≠ none ∧ v.busy = false ∧ v.data = []
  sent v := v.exec ≠ none ∧ v.data = []
  awaiting v := v.exec ≠ none ∧ v.busy = true ∧ v.data = []
  received pk v := v.exec ≠ none ∧ v.busy = true ∧ v.data = [] ∧ v.dispatchError = .none ∧
    ∃ r, pk = ⟨.pcb, some r⟩
  queued v := v.exec ≠ none ∧ v.busy = true ∧ v.dispatchError = .none ∧
    ∃ r, v.data = [⟨.pcb, some r⟩]
  replied _ v := v.exec ≠ none ∧ v.data = []
  taking _ v := v.exec ≠ none ∧ v.busy = false ∧ v.data = []
  erring _ := False

theorem occupancyPhases_rules {ok : Config Planner Action → ℕ × Outcome → Prop}
    (hok : ∀ c x, ok c x → Succeeds c x) : occupancyPhases.Rules ok where
  sets p v h := ⟨by simp, h.2⟩
  sends c x p k _ _ h _ := ⟨h.1, h.2.2⟩
  notSends c x p k hx hk _ herr := by
    rw [(hok c x hx).sends _ k hk (Or.inr ⟨p, rfl⟩)] at herr
    exact absurd rfl herr
  marks v h := ⟨h.1, rfl, h.2⟩
  recieves c x hx hk h e pk l hres := by
    obtain ⟨r, hr⟩ := (hok c x hx).recieves [] hk
    rw [hr] at hres
    unfold recieveMessageResult at hres
    dsimp only at hres
    split at hres <;> cases hres
    exact ⟨h.1, h.2.1, h.2.2, rfl, r, rfl⟩
  pushes pk v h := by
    obtain ⟨h1, h2, h3, h4, r, rfl⟩ := h
    exact ⟨h1, h2, h4, r, by simp [h3]⟩
  replies r l v h herr hd := by
    obtain ⟨h1, h2, h3, r', h4⟩ := h
    rw [hd] at h4
    cases h4
    exact ⟨h1, rfl⟩
  others pk l v h herr hd hne := by
    obtain ⟨-, -, -, r, h1⟩ := h
    rw [hd] at h1
    cases h1
    exact hne r rfl
  errs v h herr := by
    obtain ⟨-, -, h1, r, h2⟩ := h
    rcases herr with herr | herr
    · exact herr h1
    · rw [h2] at herr
      cases herr
  frees r v h := ⟨h.1, rfl, h.2⟩
  takes r v h := ⟨rfl, h.2⟩
  fails v h := h.elim

/-! ### The counts -/

section Counts

variable {cfg : KernelConfig} {a : Action} {k l : List Action} {ts : List (List Action)}
  {o : Outcome} {s : Planner} {e : Effect Planner Action}

attribute [local simp] interruptWeight in
theorem interrupt_flow (h : Flow cfg a l ts) : Suffixes (fun l => 0 ≤ load interruptWeight l ∨
    interruptWeight a ≤ load interruptWeight l) l ∧ ∀ t ∈ ts, Grounded interruptWeight t := by
  rcases hc : cfg.algoritmoPlanificacion <;> cases h
  case fifo.loop f | srt.loop f => cases f <;> simp [Suffixes, body, interruptWeight]
  case fifo.callback t | srt.callback t =>
    rcases t with ⟨t, _ | _, q⟩ <;> simp [Suffixes, Timer.call, interruptWeight]
  all_goals
    simp [Grounded, Suffixes, interruptWeight, movePcbToReady, applyReply, dispatchTail, hc]

attribute [local simp] returnWeight in
theorem return_flow (h : Flow cfg a l ts) : Suffixes (fun l => 0 ≤ load returnWeight l ∨
    returnWeight a ≤ load returnWeight l) l ∧ ∀ t ∈ ts, Grounded returnWeight t := by
  rcases hc : cfg.algoritmoPlanificacion <;> cases h
  case fifo.loop f | srt.loop f => cases f <;> simp [Suffixes, body, returnWeight]
  case fifo.callback t | srt.callback t =>
    rcases t with ⟨t, _ | _, q⟩ <;> simp [Suffixes, Timer.call, returnWeight]
  all_goals
    simp [Grounded, Suffixes, returnWeight, movePcbToReady, applyReply, dispatchTail, hc]

/-- Where the planner is not halted, the short-term controller finds a PCB and an
answer finds its process, only threads that weigh nothing end early. -/
theorem stop_idle (hs : Shape cfg (a :: k)) (h : act cfg a o s = some e) (he : e.stop = true)
    (hh : s.halt = false) (hr : a = popReady → s.queues .ready ≠ [])
    (hx : ∀ r, a = takeExec r → s.exec ≠ none) (hne : a ≠ takeExecError) :
    (k = [] ∨ ∃ f, k = [loop f]) ∧ dispatchWeight a = 0 ∧ interruptWeight a = 0 ∧
      returnWeight a = 0 ∧ e.state.sems = s.sems ∧ e.state.interrupted = s.interrupted ∧
      e.next = [] ∧ e.spawn = [] := by
  cases act_branch h
  all_goals first
    | (cases he; done)
    | simp_all [Shape, dispatchWeight, interruptWeight, returnWeight]

/-- Nothing else changes the permit of the dispatch. -/
theorem dispatch_exact (h : act cfg a o s = some e) (he : e.stop = false)
    (hl : a = recieveMessageAsync → o = .ok) :
    (e.state.sems .stpSemDispatch : ℤ) + load dispatchWeight e.next + total dispatchWeight e.spawn =
      s.sems .stpSemDispatch + dispatchWeight a := by
  cases act_branch h
  case loop f => cases f <;> simp [body, dispatchWeight]
  case semWait m hm =>
    cases m <;> simp [dispatchWeight]
    omega
  case semPost m => cases m <;> simp [dispatchWeight]
  case noReceiver ho => exact absurd (hl rfl) ho
  case popReadyNull | takeExecNull | noExec | recieveHalt => cases he
  all_goals simp [dispatchWeight, load_ready, load_tail, load_reply, load_timerCall]

/-- Nothing else changes the permit to preempt, with the flag. -/
theorem interrupt_exact (h : act cfg a o s = some e) (he : e.stop = false)
    (hs : a = sendInterrupt → o = .ok) (hi : a = setInterrupted → s.interrupted = false) :
    (e.state.sems .stpSemInterrupt : ℤ) + e.state.interrupted.toNat +
      load interruptWeight e.next + total interruptWeight e.spawn =
    s.sems .stpSemInterrupt + s.interrupted.toNat + interruptWeight a := by
  cases act_branch h
  case loop f => cases f <;> simp [body, interruptWeight]
  case semWait m hm =>
    cases m <;> simp [interruptWeight]
    omega
  case semPost m =>
    cases m <;> simp [interruptWeight]
    ring
  case interruptLost ho | interruptFails ho => rw [hs rfl] at ho; cases ho
  case setInterrupted => simp [interruptWeight, hi rfl]
  case interrupted hf | notInterrupted hf => simp [interruptWeight, hf]
  all_goals simp [interruptWeight, load_ready, load_tail, load_reply, load_timerCall]

/-- Nothing but `ifInterrupted` takes away what is to come back. -/
theorem return_act (hc : cfg.algoritmoPlanificacion = .srt) (h : act cfg a o s = some e)
    (he : e.stop = false) (hl : a = recieveMessageAsync → o = .ok) (hi : a ≠ ifInterrupted)
    (hr : a = cpuRecievePcbAsync → s.dispatchError = .none ∧ ∃ r, s.data = [⟨.pcb, some r⟩]) :
    (s.sems .stpSemPlan : ℤ) + returnWeight a ≤
      e.state.sems .stpSemPlan + load returnWeight e.next + total returnWeight e.spawn := by
  cases act_branch h
  case loop f => cases f <;> simp [body, returnWeight]
  case semWait m hm =>
    cases m <;> simp [returnWeight]
    omega
  case semPost m => cases m <;> simp [returnWeight]
  case noReceiver ho => exact absurd (hl rfl) ho
  case popReadyNull | recieveHalt => cases he
  case interrupted | notInterrupted => exact absurd rfl hi
  case recieveError herr =>
    obtain ⟨h1, r, h2⟩ := hr rfl
    simp [h1, h2] at herr
  case recievedOther hne herr =>
    obtain ⟨-, r, h2⟩ := hr rfl
    rw [h2] at herr
    cases herr.2.2
    exact absurd rfl (hne r)
  all_goals simp [returnWeight, load_ready, load_tail, load_reply, load_timerCall, hc]

/-- `kernel->error` is called only when a connection is lost. -/
theorem halt_act (h : act cfg a o s = some e) (ho : o ≠ .lost)
    (h1 : s.halt = false ∧ s.interruptError ≠ .lost) :
    e.state.halt = false ∧ e.state.interruptError ≠ .lost := by
  cases act_branch h
  case interruptLost hl =>
    unfold sendError at hl
    split at hl
    · cases hl
    · exact absurd rfl ho
    · cases hl
  all_goals simp_all

/-- The flag is set by `setInterrupted` alone, and `ifInterrupted` clears it. -/
theorem interrupted_act (h : act cfg a o s = some e) (hi : e.state.interrupted = true) :
    a = setInterrupted ∨ a ≠ ifInterrupted ∧ s.interrupted = true := by
  cases act_branch h <;> simp_all

end Counts

/-! ### Conservation -/

/-- What every step keeps. -/
structure Kept (c : Config Planner Action) : Prop where
  runs : c.state.halt = false ∧ c.state.interruptError ≠ .lost
  dispatch : (c.state.sems .stpSemDispatch : ℤ) + total dispatchWeight c.threads = 1
  permit : (c.state.sems .stpSemInterrupt : ℤ) + c.state.interrupted.toNat +
    total interruptWeight c.threads = 1
  returns : c.state.interrupted = true → ComesBack c
  interruptGrounded : ∀ k ∈ c.threads, Grounded interruptWeight k
  returnGrounded : ∀ k ∈ c.threads, Grounded returnWeight k

section Reach

variable {cfg : KernelConfig} {ok : Config Planner Action → ℕ × Outcome → Prop}
  {c c' : Config Planner Action} {x : ℕ × Outcome}

theorem kept_start (cfg : KernelConfig) : Kept (start cfg) where
  runs := by simp [start]
  dispatch := by simp [start, dispatchWeight]
  permit := by simp [start, interruptWeight]
  returns := by simp [start]
  interruptGrounded := by simp [start, Grounded, Suffixes, interruptWeight]
  returnGrounded := by simp [start, Grounded, Suffixes, returnWeight]

/-- A thread that marks the CPU as interrupted still has to announce the PCB it
put in the ready queue. -/
theorem setInterrupted_returns {k : List Action} (hk : setInterrupted :: k ∈ c.threads)
    (hs : Shape cfg (setInterrupted :: k)) (hg : ∀ k ∈ c.threads, Grounded returnWeight k) :
    ComesBack c := by
  obtain ⟨k', rfl⟩ := hs
  have h1 := le_total (fun t ht => (hg t ht).nonneg) hk
  have h2 := (hg _ hk).tail.tail.self
  simp only [load_cons, returnWeight] at h1
  unfold ComesBack
  omega

theorem kept_step (hc : cfg.algoritmoPlanificacion = .srt) (hok : ∀ c x, ok c x → Succeeds c x)
    (hr : Reach (act cfg) ok (start cfg) c) (hi : Kept c) (hx : ok c x)
    (h : step (act cfg) c x = some c') : Kept c' := by
  obtain ⟨a, k, e, hk, he, hc'⟩ := step_some h
  have hm := List.mem_of_getElem? hk
  have hsu := hok c x hx
  have hs := (reach_shape hr _ hm).self
  have hat := (reach_phases (occupancyPhases_rules hok) ⟨rfl, rfl, rfl⟩ hr).2 _ hm
  -- the branches that are not taken
  have hready : a = popReady → c.state.queues .ready ≠ [] := by
    rintro rfl
    simp only [Shape] at hs
    exact ready_ne_nil hr (hs ▸ hm)
  have hexec : ∀ r, a = takeExec r → c.state.exec ≠ none := by
    rintro r rfl
    have h1 := cycle_permit hs (Or.inr (Or.inr ⟨r, rfl⟩))
    exact ((hat h1.ge).1 r List.mem_cons_self).1
  have herr : a ≠ takeExecError := by
    rintro rfl
    have h1 := cycle_permit hs (Or.inl rfl)
    exact (hat h1.ge).elim
  have hqueued : a = cpuRecievePcbAsync →
      c.state.dispatchError = .none ∧ ∃ r, c.state.data = [⟨.pcb, some r⟩] := by
    rintro rfl
    have h1 := cycle_permit hs (Or.inl rfl)
    exact (hat h1.ge).2.2
  have hlisten : a = recieveMessageAsync → x.2 = .ok := by
    rintro rfl
    exact hsu.listens k hk
  have hsend : a = sendInterrupt → x.2 = .ok := by
    rintro rfl
    exact hsu.sends _ k hk (Or.inl rfl)
  have hflag : a = setInterrupted → c.state.interrupted = false := by
    rintro rfl
    have h1 := hi.permit
    have h2 := le_total (fun t ht => (hi.interruptGrounded t ht).nonneg) hm
    have h3 := (hi.interruptGrounded _ hm).tail.self
    simp only [load_cons, interruptWeight] at h2
    rcases hf : c.state.interrupted with _ | _
    · rfl
    · rw [hf, Bool.toNat_true] at h1
      push_cast at h1
      omega
  have htotal : ∀ w, total w c'.threads =
      total w c.threads - w a - load w k + load w (e.rest k) + total w e.spawn := by
    intro w
    rw [hc', total_append, total_set w _ _ _ _ hk, load_cons]
    ring
  have hback : e.state.interrupted = true → ComesBack c ∧ a ≠ ifInterrupted := by
    intro hint
    rcases interrupted_act he hint with rfl | ⟨h1, h2⟩
    · exact ⟨setInterrupted_returns hm hs hi.returnGrounded, by simp⟩
    · exact ⟨hi.returns h2, h1⟩
  have hd := hi.dispatch
  have hp := hi.permit
  suffices h3 : (c'.state.sems .stpSemDispatch : ℤ) + total dispatchWeight c'.threads = 1 ∧
      (c'.state.sems .stpSemInterrupt : ℤ) + c'.state.interrupted.toNat +
        total interruptWeight c'.threads = 1 ∧ (c'.state.interrupted = true → ComesBack c') by
    refine ⟨?_, h3.1, h3.2.1, h3.2.2, flow_grounded h hi.interruptGrounded fun _ _ _ => interrupt_flow,
      flow_grounded h hi.returnGrounded fun _ _ _ => return_flow⟩
    rw [hc']
    exact halt_act he hsu.notLost hi.runs
  unfold ComesBack
  rw [htotal, htotal, htotal, show c'.state = e.state by rw [hc']]
  unfold Effect.rest
  rcases hst : e.stop with _ | _
  · have h1 := dispatch_exact he hst hlisten
    have h2 := interrupt_exact he hst hsend hflag
    rw [if_neg (by simp)]
    simp only [load_append]
    refine ⟨by omega, by omega, fun hint => ?_⟩
    have h3 := return_act hc he hst hlisten (hback hint).2 hqueued
    have h4 := (hback hint).1
    unfold ComesBack at h4
    omega
  · -- a thread that ends here weighs nothing
    obtain ⟨h1, h2, h3, h4, h5, h6, -, h8⟩ := stop_idle hs he hst hi.runs.1 hready hexec herr
    rw [if_pos rfl, h2, h3, h4, h5, h6, h8]
    simp only [load_nil, total_nil]
    rcases h1 with rfl | ⟨f, rfl⟩
    all_goals
      simp only [load_cons, load_nil, dispatchWeight, interruptWeight, returnWeight]
      refine ⟨by omega, by omega, fun hint => ?_⟩
      have h7 := (hback (h6 ▸ hint)).1
      unfold ComesBack at h7
      omega

theorem reach_kept (hc : cfg.algoritmoPlanificacion = .srt) (hok : ∀ c x, ok c x → Succeeds c x)
    (h : Reach (act cfg) ok (start cfg) c) : Kept c :=
  h.inv (kept_start cfg) fun _ _ _ hr hi hx hst => kept_step hc hok hr hi hx hst

/-- A quiescent thread has no part of the permit to preempt. -/
theorem quiescent_interrupt {k : List Action} (hs : Suffixes (Shape cfg) k)
    (hq : ∀ a ∈ k, a.half = false) : load interruptWeight k = 0 := by
  induction k with
  | nil => rfl
  | cons a k ih =>
    rw [load_cons, ih hs.tail fun b hb => hq b (List.mem_cons_of_mem _ hb)]
    have h1 := hq a List.mem_cons_self
    have h2 := hs.self
    cases a
    case semWait m =>
      cases m
      case stpSemInterrupt =>
        obtain ⟨k', rfl⟩ := h2
        exact absurd (hq sendInterrupt (by simp)) (by simp)
      all_goals rfl
    case semPost m =>
      cases m
      case stpSemInterrupt => exact absurd h1 (by simp)
      all_goals rfl
    case sendInterrupt | setInterrupted => exact absurd h1 (by simp)
    all_goals rfl

/-- At every quiescent point of the cycle the CPU is busy when a process runs. -/
theorem quiescent_busy {v : View} {k : List Action} (hs : Suffixes (Shape cfg) k)
    (hq : ∀ a ∈ k, a.half = false) (hat : occupancyPhases.At v k) :
    v.busy = true ↔ v.exec ≠ none := by
  have hbetween : ∀ r, takeExec r ∉ k := fun r hr => absurd (hq _ hr) (by simp)
  have hidle : occupancyPhases.Between v k → (v.busy = true ↔ v.exec ≠ none) := by
    rintro ⟨-, h⟩
    obtain ⟨h1, h2, -⟩ := h hbetween
    simp [h1, h2]
  rcases k with _ | ⟨a, k⟩
  · exact hidle hat
  have h1 := hq a List.mem_cons_self
  by_cases hcy : a.cycle = true
  · cases a <;> first
      | (simp at hcy; done)
      | (simp at h1; done)
      | (obtain ⟨h2, h3, -⟩ := hat; simp [h2, h3])
  · exact hidle ((Phases.at_iff (by rintro b ⟨⟩; simpa using hcy)).mp hat)

end Reach

/-! ### Runs -/

/-- `Succeeds`, evaluated. -/
def checkSucceeds (c : Config Planner Action) (x : ℕ × Outcome) : Bool :=
  match c.threads[x.1]?, x.2 with
  | some (recieveMessage :: _), .reply _ => true
  | some (recieveMessage :: _), _ => false
  | some (recieveMessageAsync :: _), o | some (sendInterrupt :: _), o | some (sendPcb _ :: _), o => o = .ok
  | _, o => o ≠ .lost

theorem succeeds_of_check (c : Config Planner Action) (x : ℕ × Outcome)
    (h : checkSucceeds c x = true) : Succeeds c x := by
  unfold checkSucceeds at h
  constructor
  · split at h <;> simp_all
  · intro k hk
    simpa [hk] using h
  · rintro a k hk (rfl | ⟨p, rfl⟩) <;> simpa [hk] using h
  · intro k hk
    rw [hk] at h
    split at h <;> simp_all

/-- Process 1 runs (thread 6) when process 2 is admitted and preempts it. -/
def preemptRun : List (ℕ × Outcome) :=
  admitRun ioProgram 5 ++ oks 2 0 ++ oks 11 3 ++ admitRun ioProgram 7 ++ oks 5 0

/-- The answer of process 1 is lost on its way, and `stp_dispatch_error` ends the
process. -/
def lostAnswerRun : List (ℕ × Outcome) :=
  admitRun ioProgram 5 ++ oks 2 0 ++ oks 11 3 ++ (6, .failConsumed) :: oks 10 6

end Kernel
end Kiss
