/-
# The dispatch cycle

The permit of `stp_sem_dispatch` goes round with the dispatch of a PCB: the
controller takes it, sends the PCB and starts the receiver, which takes the
answer, puts the PCB in a queue and posts. What the cycle reads and writes
(`View`) is the holder's alone, so a property of it is given point by point
(`Phases`); where every step of the cycle leads from each to the next
(`Phases.Rules`), it holds in every run (`reach_phases`).

Key definitions: `View`, `Phases`, `Phases.At`, `Phases.Rules`.
Key theorems: `view_act`, `reach_phases`.
-/
import Kiss.Kernel.Permits

namespace Kiss
namespace Kernel

open Kernel.Action Threads

/-- What the dispatch cycle reads and writes. -/
structure View where
  exec : Option ℕ
  data : List Package
  atCpu : List ℕ
  answered : ℕ → Bool
  dispatchError : SocketError
  busy : Bool

def Planner.view (s : Planner) : View :=
  ⟨s.exec, s.data, s.atCpu, s.answered, s.dispatchError, s.busy⟩

/-- The steps of the cycle. -/
@[simp] def Action.cycle : Action → Bool
  | sendPcb _ | setBusy _ | recieveMessageAsync | recieveMessage | pushData _ | cpuRecievePcbAsync
  | takeExecError => true
  | _ => false

/-- What holds of the view at each point of the cycle. -/
structure Phases where
  /-- No process is dispatched. -/
  idle : View → Prop
  /-- The PCB is `planner->exec` and is about to be sent. -/
  sending : ℕ → View → Prop
  sent : View → Prop
  /-- The receiver is about to be started, or waits. -/
  awaiting : View → Prop
  received : Package → View → Prop
  /-- The package is in the handler's queue. -/
  queued : View → Prop
  /-- The answer was taken out of the queue. -/
  replied : Reply → View → Prop
  /-- The CPU is marked free. -/
  taking : Reply → View → Prop
  /-- `stp_dispatch_error` is about to run. -/
  erring : View → Prop

/-- What holds where the thread that has the permit is not in one of the calls. -/
def Phases.Between (P : Phases) (v : View) (k : List Action) : Prop :=
  (∀ r, takeExec r ∈ k → P.taking r v) ∧ ((∀ r, takeExec r ∉ k) → P.idle v)

/-- What holds for a thread that has the permit and still has to do `k`. -/
def Phases.At (P : Phases) (v : View) : List Action → Prop
  | sendPcb p :: _ => P.sending p v
  | setBusy true :: _ => P.sent v
  | recieveMessageAsync :: _ | recieveMessage :: _ => P.awaiting v
  | pushData pk :: _ => P.received pk v
  | cpuRecievePcbAsync :: _ => P.queued v
  | setBusy false :: k => ∀ r, takeExec r ∈ k → P.replied r v
  | takeExecError :: _ => P.erring v
  | k => P.Between v k

/-- Each step of the cycle leads from what holds before it to what holds after it. -/
structure Phases.Rules (P : Phases) (ok : Config Planner Action → ℕ × Outcome → Prop) : Prop where
  sets : ∀ p v, P.idle v → P.sending p { v with exec := some p }
  sends : ∀ c x p k, ok c x → c.threads[x.1]? = some (sendPcb p :: k) →
    P.sending p c.state.view → sendError x.2 = .none → P.sent { c.state.view with
      dispatchError := .none
      atCpu := c.state.atCpu ++ [p]
      answered := Function.update c.state.answered p false }
  notSends : ∀ c x p k, ok c x → c.threads[x.1]? = some (sendPcb p :: k) →
    P.sending p c.state.view → sendError x.2 ≠ .none → P.awaiting { c.state.view with
      dispatchError := sendError x.2
      answered := Function.update c.state.answered p false }
  marks : ∀ v, P.sent v → P.awaiting { v with busy := true }
  recieves : ∀ c x, ok c x → c.threads[x.1]? = some [recieveMessage] →
    P.awaiting c.state.view → ∀ e pk l, recieveMessageResult c.state x.2 = some (e, pk, l) →
    P.received pk { c.state.view with
      dispatchError := e
      atCpu := l
      answered := c.state.answeredAfter pk }
  pushes : ∀ pk v, P.received pk v → P.queued { v with data := v.data ++ [pk] }
  replies : ∀ r l v, P.queued v → v.dispatchError = .none → v.data = ⟨.pcb, some r⟩ :: l →
    P.replied r { v with data := l }
  others : ∀ pk l v, P.queued v → v.dispatchError = .none → v.data = pk :: l →
    (∀ r, pk ≠ ⟨.pcb, some r⟩) → P.erring { v with data := l }
  errs : ∀ v, P.queued v → v.dispatchError ≠ .none ∨ v.data = [] → P.erring v
  frees : ∀ r v, P.replied r v → P.taking r { v with busy := false }
  takes : ∀ r v, P.taking r v → P.idle { v with exec := none }
  fails : ∀ v, P.erring v → P.idle { v with exec := none }

section Step

variable {cfg : KernelConfig} {ok : Config Planner Action → ℕ × Outcome → Prop}
  {c c' : Config Planner Action} {x : ℕ × Outcome} {a : Action} {k l : List Action}
  {o : Outcome} {s : Planner} {e : Effect Planner Action} {P : Phases}

theorem Phases.at_iff {v : View} (h : ∀ a ∈ k.head?, a.cycle = false) :
    P.At v k ↔ P.Between v k := by
  rcases k with _ | ⟨a, k⟩
  · rfl
  · cases a <;> simp_all [Phases.At]

/-- Nothing else touches what the cycle reads and writes. -/
theorem view_act (h : act cfg a o s = some e) (h1 : a.cycle = false) (h2 : ∀ p, a ≠ setExec p)
    (h3 : ∀ r, a ≠ takeExec r) : e.state.view = s.view := by
  cases act_branch h
  case setExec p => exact absurd rfl (h2 p)
  case takeExec r _ _ | takeExecNull r _ => exact absurd rfl (h3 r)
  all_goals first
    | rfl
    | simp at h1

/-- The steps that touch it have the permit. -/
theorem cycle_permit (hs : Shape cfg (a :: k))
    (ha : a.cycle = true ∨ (∃ p, a = setExec p) ∨ ∃ r, a = takeExec r) :
    load dispatchWeight (a :: k) = 1 := by
  have htail : load dispatchWeight (dispatchTail cfg) = 1 := by
    unfold dispatchTail
    split <;> rfl
  cases a
  case setBusy b =>
    cases b
    · obtain ⟨r, rfl⟩ := hs
      simp [dispatchWeight, htail]
    · simp only [Shape] at hs
      simp [hs, dispatchWeight]
  all_goals first
    | (simp at ha; done)
    | (simp only [Shape] at hs
       simp [hs, dispatchWeight, htail])

/-- What follows a step that is not of the cycle is not in the middle of it. -/
theorem cycle_rest {ts : List (List Action)} (hs : Shape cfg (a :: k)) (h : Flow cfg a l ts)
    (h1 : a.cycle = false) (h2 : ∀ p, a ≠ setExec p) : ∀ b ∈ (l ++ k).head?, b.cycle = false := by
  by_cases hl : l = []
  · subst hl
    intro b hb
    rw [List.nil_append] at hb
    by_cases hp : Plain k
    · have := hp b hb
      cases b <;> simp_all
    · rcases inner_tail hs hp with ⟨q, rfl | rfl | rfl⟩ | rfl
      · simp only [Shape] at hs
        subst hs
        cases hb
        rfl
      · exact absurd rfl (h2 q)
      · simp at h1
      · simp at h1
  · rcases hc : cfg.algoritmoPlanificacion <;> cases h
    case fifo.loop f | srt.loop f => cases f <;> simp [body]
    case fifo.callback v | srt.callback v =>
      rcases v with ⟨v, _ | _, q⟩ <;> simp [Timer.call]
    all_goals first
      | (simp at h1; done)
      | (simp at hl; done)
      | simp [movePcbToReady, applyReply, hc]

/-- Only the reception of an answer leads to its use. -/
theorem takeExec_flow {ts : List (List Action)} {r : Reply} (h : Flow cfg a l ts)
    (ha : a ≠ cpuRecievePcbAsync) : takeExec r ∉ l ∧ ∀ t ∈ ts, takeExec r ∉ t := by
  rcases hc : cfg.algoritmoPlanificacion <;> cases h
  case fifo.loop f | srt.loop f => cases f <;> simp [body]
  case fifo.callback v | srt.callback v => rcases v with ⟨v, _ | _, q⟩ <;> simp [Timer.call]
  all_goals simp_all [movePcbToReady, applyReply]

/-- Only a post raises the permit's value, and only a wait lowers it. -/
theorem sem_act (h : act cfg a o s = some e) :
    (a ≠ semPost .stpSemDispatch → e.state.sems .stpSemDispatch ≤ s.sems .stpSemDispatch) ∧
    (a ≠ semWait .stpSemDispatch → s.sems .stpSemDispatch ≤ e.state.sems .stpSemDispatch) := by
  cases act_branch h
  case semPost m => cases m <;> simp
  case semWait m _ => cases m <;> simp
  all_goals simp

theorem spawn_permit {ts : List (List Action)} (h : Flow cfg a l ts) (ha : a.cycle = false) :
    ∀ t ∈ ts, load dispatchWeight t = 0 := by
  cases h <;> simp_all [dispatchWeight]

theorem not_takeExec_dispatchTail (r : Reply) : takeExec r ∉ dispatchTail cfg := by
  unfold dispatchTail
  split <;> simp

theorem not_takeExec_applyReply (r r' : Reply) (p : ℕ) : takeExec r ∉ applyReply cfg r' p := by
  unfold applyReply
  split <;> simp

/-- A step of the cycle leads from one point to the next. -/
theorem cycle_step (hP : P.Rules ok) (hok : ok c x) (hk : c.threads[x.1]? = some (a :: k))
    (hs : Shape cfg (a :: k)) (he : act cfg a x.2 c.state = some e)
    (ha : a.cycle = true ∨ (∃ p, a = setExec p) ∨ ∃ r, a = takeExec r)
    (hat : P.At c.state.view (a :: k)) :
    (1 ≤ load dispatchWeight (e.rest k) → P.At e.state.view (e.rest k)) ∧
      ∀ t ∈ e.spawn, P.At e.state.view t := by
  generalize ho : x.2 = o at he
  cases act_branch he
  case setExec p =>
    simp only [Shape] at hs
    subst hs
    exact ⟨fun _ => hP.sets p _ (hat.2 (by simp)), by simp⟩
  case sendPcb p herr =>
    simp only [Shape] at hs
    subst hs
    exact ⟨fun _ => hP.sends c x p _ hok hk hat (ho ▸ herr), by simp⟩
  case sendPcbFails p herr =>
    simp only [Shape] at hs
    subst hs
    exact ⟨fun _ => ho ▸ hP.notSends c x p _ hok hk hat (ho ▸ herr), by simp⟩
  case setBusy b =>
    cases b
    · obtain ⟨r, rfl⟩ := hs
      refine ⟨fun _ => ⟨fun r' hr' => hP.frees _ _ (hat r' (by simpa [Effect.rest] using hr')),
        fun h => absurd (h r) (by simp)⟩, by simp⟩
    · simp only [Shape] at hs
      subst hs
      exact ⟨fun _ => hP.marks _ hat, by simp⟩
  case recieveMessageAsync =>
    simp only [Shape] at hs
    subst hs
    refine ⟨fun h => ?_, fun t ht => ?_⟩
    · simp [Effect.rest, dispatchWeight] at h
    · simp only [List.mem_singleton] at ht
      subst ht
      exact hat
  case noReceiver =>
    simp only [Shape] at hs
    subst hs
    refine ⟨fun h => ?_, by simp⟩
    simp [Effect.rest, dispatchWeight] at h
  case recieveMessage err pk l hres =>
    simp only [Shape] at hs
    subst hs
    exact ⟨fun _ => hP.recieves c x hok hk hat err pk l (ho ▸ hres), by simp⟩
  case pushData pk => exact ⟨fun _ => hP.pushes pk _ hat, by simp⟩
  case recieveHalt =>
    refine ⟨fun h => ?_, by simp⟩
    simp [Effect.rest] at h
  case recieveError herr =>
    simp only [Shape] at hs
    subst hs
    exact ⟨fun _ => hP.errs _ hat herr, by simp⟩
  case recieved r l h =>
    simp only [Shape] at hs
    subst hs
    refine ⟨fun _ r' hr' => ?_, by simp⟩
    have : r' = r := by simpa [not_takeExec_dispatchTail] using hr'
    subst this
    exact hP.replies r' l _ hat h.2.1 h.2.2
  case recievedOther pk l hne h =>
    simp only [Shape] at hs
    subst hs
    exact ⟨fun _ => hP.others pk l _ hat h.2.1 h.2.2 hne, by simp⟩
  case takeExec r p hp =>
    simp only [Shape] at hs
    subst hs
    refine ⟨fun _ => ?_, by simp⟩
    refine (Phases.at_iff ?_).mpr ⟨fun r' hr' => ?_, fun _ => hP.takes r _ (hat.1 r List.mem_cons_self)⟩
    · unfold Effect.rest applyReply
      split <;> simp
    · simp [Effect.rest, not_takeExec_dispatchTail, not_takeExec_applyReply] at hr'
  case takeExecNull =>
    refine ⟨fun h => ?_, by simp⟩
    simp [Effect.rest] at h
  case takeExecError => exact ⟨fun _ => by
    simp only [Shape] at hs
    subst hs
    exact ⟨by simp, fun _ => hP.fails _ hat⟩, by simp⟩
  case noExec =>
    refine ⟨fun h => ?_, by simp⟩
    simp [Effect.rest] at h
  all_goals simp at ha

theorem sem_flow {ts : List (List Action)} {m : Sem} (h : Flow cfg a l ts)
    (ha : a = semWait m ∨ a = semPost m) : l = [] := by
  rcases ha with rfl | rfl <;> cases h <;> rfl

/-- A step outside the calls changes nothing of the cycle. -/
theorem between_step (hs : Shape cfg (a :: k)) (he : act cfg a o s = some e) (h1 : a.cycle = false)
    (h2 : ∀ p, a ≠ setExec p) (h3 : ∀ r, a ≠ takeExec r)
    (hat : 1 ≤ load dispatchWeight (a :: k) → P.At s.view (a :: k))
    (hidle : 0 < s.sems .stpSemDispatch → P.idle s.view) (hw : 1 ≤ load dispatchWeight (e.rest k)) :
    P.At s.view (e.rest k) := by
  have hf := act_flow he
  unfold Effect.rest at hw ⊢
  split at hw
  · simp at hw
  rename_i hstop
  rw [if_neg hstop]
  refine (Phases.at_iff (cycle_rest hs hf h1 h2)).mpr ?_
  by_cases hwait : a = semWait .stpSemDispatch
  · -- the controller takes the permit
    subst hwait
    have h4 : 0 < s.sems .stpSemDispatch := by
      cases act_branch he
      omega
    simp only [Shape] at hs
    subst hs
    rw [sem_flow hf (Or.inl rfl)]
    exact ⟨by simp, fun _ => hidle h4⟩
  · have hpost : a ≠ semPost .stpSemDispatch := by
      rintro rfl
      simp only [Shape] at hs
      subst hs
      simp [sem_flow hf (Or.inr rfl)] at hw
    have h4 := (sem_act he).1 hpost
    have h5 := (sem_act he).2 hwait
    have h6 := dispatch_act he
    have h7 := total_nonneg fun t ht => (spawn_permit hf h1 t ht).ge
    rw [load_append] at hw
    rw [if_neg hstop] at h6
    have hhead : ∀ b ∈ (a :: k).head?, b.cycle = false := by
      rintro b ⟨⟩
      exact h1
    have h8 := (Phases.at_iff hhead).mp (hat (by rw [load_cons]; omega))
    have h9 := fun r => (takeExec_flow (r := r) hf (by rintro rfl; simp at h1)).1
    refine ⟨fun r hr => h8.1 r ?_, fun hr => h8.2 fun r hr' => ?_⟩
    · rcases List.mem_append.mp hr with hr | hr
      · exact absurd hr (h9 r)
      · exact List.mem_cons_of_mem _ hr
    · rcases List.mem_cons.mp hr' with rfl | hr'
      · exact h3 r rfl
      · exact hr r (List.mem_append_right _ hr')

/-- **The cycle.** What the rules lead to holds at every point of every run. -/
theorem reach_phases (hP : P.Rules ok) (h0 : P.idle (start cfg).state.view)
    (h : Reach (act cfg) ok (start cfg) c) :
    (0 < c.state.sems .stpSemDispatch → P.idle c.state.view) ∧
      ∀ k ∈ c.threads, 1 ≤ load dispatchWeight k → P.At c.state.view k := by
  induction h with
  | start => exact ⟨fun _ => h0, by simp [start, dispatchWeight]⟩
  | @step c c' x hr hok hx ih =>
    obtain ⟨ih1, ih2⟩ := ih
    have hone := reach_dispatch hr
    have hn : ∀ k ∈ c.threads, 0 ≤ load dispatchWeight k := fun k hk => (hone.2 k hk).nonneg
    obtain ⟨a, k, e, hk, he, hc'⟩ := step_some hx
    have hm := List.mem_of_getElem? hk
    have hs := (reach_shape hr _ hm).self
    have hle := le_total hn hm
    -- either the step is the holder's, or it touches nothing of the cycle
    have hview : load dispatchWeight (a :: k) ≤ 0 → e.state.view = c.state.view := fun h0 => by
      refine view_act he ?_ ?_ ?_
      · by_contra hcy
        have := cycle_permit hs (Or.inl (by simpa using hcy))
        omega
      · rintro p rfl
        have := cycle_permit hs (Or.inr (Or.inl ⟨p, rfl⟩))
        omega
      · rintro r rfl
        have := cycle_permit hs (Or.inr (Or.inr ⟨r, rfl⟩))
        omega
    constructor
    · intro hpos
      rw [hc'] at hpos ⊢
      by_cases hpost : a = semPost .stpSemDispatch
      · subst hpost
        have h1 := ih2 _ hm (by simp only [Shape] at hs; simp [hs, dispatchWeight])
        rw [show e.state.view = c.state.view from view_act he rfl (by simp) (by simp)]
        refine (Phases.at_iff (by simp)).mp h1 |>.2 fun r => ?_
        simp only [Shape] at hs
        simp [hs]
      · have h1 := (sem_act he).1 hpost
        have h2 : 0 < c.state.sems .stpSemDispatch := lt_of_lt_of_le hpos h1
        rw [hview (by omega)]
        exact ih1 h2
    · refine hold_step (F := fun s k => P.At s.view k) hx hn (by omega) ih2 ?_ ?_
      · intro b l e' hl he'
        rw [hk] at hl
        cases hl
        rw [he] at he'
        cases he'
        by_cases hcy : a.cycle = true ∨ (∃ p, a = setExec p) ∨ ∃ r, a = takeExec r
        · have h1 := cycle_permit hs hcy
          obtain ⟨h2, h3⟩ := cycle_step hP hok hk hs he hcy (ih2 _ hm (by omega))
          exact ⟨h2, fun t ht _ => h3 t ht⟩
        · have h1 : a.cycle = false := by
            by_contra h
            exact hcy (Or.inl (by simpa using h))
          have h2 : ∀ p, a ≠ setExec p := fun p h => hcy (Or.inr (Or.inl ⟨p, h⟩))
          have h3 : ∀ r, a ≠ takeExec r := fun r h => hcy (Or.inr (Or.inr ⟨r, h⟩))
          have hf := act_flow he
          refine ⟨fun hw => ?_, fun t ht hw => ?_⟩
          · rw [view_act he h1 h2 h3]
            exact between_step hs he h1 h2 h3 (fun h => ih2 _ hm h) ih1 hw
          · have := spawn_permit hf h1 t ht
            omega
      · intro b l e' hl he' hw t _ _ ht
        rw [hk] at hl
        cases hl
        rw [he] at he'
        cases he'
        show P.At e.state.view t
        rw [hview hw]
        exact ht

end Step

end Kernel
end Kiss
