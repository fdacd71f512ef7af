/-
# The control flow of the planner

`Flow cfg a l ts`: doing `a` can put the steps `l` in its place and start the
threads `ts`, whatever the state and the environment. What holds of a thread's
steps because of the program text alone is proved over `Flow`: no thread owes
a permit, and what follows each call that takes one (`Shape`). The thread that takes memory
again goes on like any other.

Key definitions: `Flow`, `Shape`.
Key theorems: `act_flow`, `flow_threads`, `flow_grounded`, `reuse_threads`, `reach_shape`.
-/
import Kiss.Kernel.Reuse

namespace Kiss
namespace Kernel

open Kernel.Action Threads

/-- The steps that can take the place of an action and the threads it can start. -/
inductive Flow (cfg : KernelConfig) : Action → List Action → List (List Action) → Prop
  | done (a) : Flow cfg a [] []
  | loop (f) : Flow cfg (loop f) (body f) []
  | exitMultiprogramming (p) :
    Flow cfg (exitMultiprogramming p) [semPost .ltpSemMultiprogrammingLevel] []
  | interruptIfBusy (p) :
    Flow cfg (interruptIfBusy p) [semWait .stpSemInterrupt, sendInterrupt] []
  | sendInterrupt : Flow cfg sendInterrupt [setInterrupted] []
  | popReady (p) : Flow cfg popReady (movePcbToExec p ++ [sendPcb p, recieveMessageAsync]) []
  | sendPcb (p) : Flow cfg (sendPcb p) [setBusy true] []
  | recieveMessageAsync : Flow cfg recieveMessageAsync [] [[recieveMessage]]
  | recieveMessage (pk) : Flow cfg recieveMessage [pushData pk] []
  | pushData (pk) : Flow cfg (pushData pk) [cpuRecievePcbAsync] []
  | recieved (r) : Flow cfg cpuRecievePcbAsync (setBusy false :: incommingDispatch cfg r) []
  | notRecieved : Flow cfg cpuRecievePcbAsync stpDispatchError []
  | takeExec (r p) : Flow cfg (takeExec r) (applyReply cfg r p) []
  | switchExit (p) : Flow cfg (dispatchSwitch p) (movePcbToExit p) []
  | switchReady (p) : Flow cfg (dispatchSwitch p) (movePcbToReady cfg p) []
  | switchBlocked (p) : Flow cfg (dispatchSwitch p) (movePcbToBlocked p) []
  | switchError (p) : Flow cfg (dispatchSwitch p) (exitWithError p) []
  | ifInterrupted : Flow cfg ifInterrupted [semPost .stpSemInterrupt] []
  | takeExecError (p) : Flow cfg takeExecError (exitWithError p) []
  | setSuspendTimer (t p) : Flow cfg (setSuspendTimer p) [startSuspendTimer t p] []
  | startSuspendTimer (t p) :
    Flow cfg (startSuspendTimer t p) [] [[timerSleep ⟨t, .mtpSuspendPcb, p⟩]]
  | popBlocked (p) : Flow cfg popBlocked [assign p .ioBurst, createBlockedTimer p] []
  | createBlockedTimer (t p) : Flow cfg (createBlockedTimer p) [startBlockedTimer t p] []
  | startBlockedTimer (t p) :
    Flow cfg (startBlockedTimer t p) [] [[timerSleep ⟨t, .mtpUnblockPcb, p⟩]]
  | noBlockedTimer (t p) : Flow cfg (startBlockedTimer t p)
      (assign p .timerBlocked :: movePcbToExit p ++ [semPost .mtpSemIo]) []
  | timerSleep (t) : Flow cfg (timerSleep t) [timerTest t] []
  | canceled (t) : Flow cfg (timerTest t) [timerDestroy t] []
  | callback (t) : Flow cfg (timerTest t) (t.call ++ [timerDestroy t]) []
  | unblockReady (p) : Flow cfg (unblockSwitch p) (movePcbToReady cfg p) []
  | unblockSuspended (p) : Flow cfg (unblockSwitch p) (movePcbToSuspendedReady p) []
  | unblockError (p) : Flow cfg (unblockSwitch p) (exitWithError p) []
  | suspendIfBlocked (p) : Flow cfg (suspendIfBlocked p) [swappProcess p] []
  | swapped (p) : Flow cfg (swappProcess p) (movePcbToSuspendedBlocked p) []
  | notSwapped (p) : Flow cfg (swappProcess p) (exitWithError p) []
  | newIfNew : Flow cfg newIfSuspendedReady [newIfNew] []
  | isSuspendedReady : Flow cfg newIfSuspendedReady [popSuspendedReady] []
  | isNew : Flow cfg newIfNew [popNew] []
  | popSuspendedReady (p) : Flow cfg popSuspendedReady (movePcbToReady cfg p) []
  | popNew (p) : Flow cfg popNew [getEntryPageTable p] []
  | getEntryPageTable (n p) :
    Flow cfg (getEntryPageTable p) [assign p (.tablaPaginas n), checkPageTable p] []
  | noPageTable (p) : Flow cfg (checkPageTable p)
      (exitWithError p ++ [semPost .ltpSemMultiprogrammingLevel]) []
  | pageTable (p) : Flow cfg (checkPageTable p) (movePcbToReady cfg p) []
  | isExit : Flow cfg exitIfAny [popExit] []
  | popExit (p) : Flow cfg popExit [freeAllocatedMemory p, consoleTerminate p, pcbDestroy p] []
  | accept (prog) : Flow cfg accept [] [[ltpNewProcess prog]]
  | ltpNewProcess (prog p) : Flow cfg (ltpNewProcess prog) (movePcbToNew p) []

theorem act_flow {cfg : KernelConfig} {a : Action} {o : Outcome} {s : Planner}
    {e : Effect Planner Action} (h : act cfg a o s = some e) : Flow cfg a e.next e.spawn := by
  cases act_branch h <;> first
    | exact .done _
    | constructor

theorem reuse_flow {cfg : KernelConfig} {q : ℕ} {a : Action} {o : Outcome} {s : Planner}
    {e : Effect Planner Action} (h : actReuse cfg q a o s = some e) : Flow cfg a e.next e.spawn := by
  obtain ⟨-, prog, rfl, rfl⟩ := actReuse_some h
  exact .ltpNewProcess prog q

section Threads

variable {cfg : KernelConfig} {c c' : Config Planner Action} {x : ℕ × Outcome} {q : ℕ}
  {A : Action → Outcome → Planner → Option (Effect Planner Action)} {T : List Action → Prop} {w : Action → ℤ}

/-- A property of threads that the flow keeps, in a system whose actions follow it. -/
theorem threads_of_flow (hA : ∀ a o s e, A a o s = some e → Flow cfg a e.next e.spawn)
    (h : step A c x = some c') (hT : ∀ k ∈ c.threads, T k) (h0 : T [])
    (hf : ∀ a k l ts, T (a :: k) → Flow cfg a l ts → T (l ++ k) ∧ ∀ t ∈ ts, T t) :
    ∀ k ∈ c'.threads, T k := by
  refine threads_step h hT fun a k e hk he => ?_
  obtain ⟨h1, h2⟩ := hf a k _ _ hk (hA _ _ _ _ he)
  refine ⟨?_, h2⟩
  unfold Effect.rest
  split
  · exact h0
  · exact h1

theorem flow_threads (h : step (act cfg) c x = some c') (hT : ∀ k ∈ c.threads, T k) (h0 : T [])
    (hf : ∀ a k l ts, T (a :: k) → Flow cfg a l ts → T (l ++ k) ∧ ∀ t ∈ ts, T t) :
    ∀ k ∈ c'.threads, T k := threads_of_flow (fun _ _ _ _ => act_flow) h hT h0 hf

theorem reuse_threads (h : step (actReuse cfg q) c x = some c') (hT : ∀ k ∈ c.threads, T k) (h0 : T [])
    (hf : ∀ a k l ts, T (a :: k) → Flow cfg a l ts → T (l ++ k) ∧ ∀ t ∈ ts, T t) :
    ∀ k ∈ c'.threads, T k := threads_of_flow (fun _ _ _ _ => reuse_flow) h hT h0 hf

/-- No thread owes what `w` counts, when nothing in the text does. -/
theorem flow_grounded (h : step (act cfg) c x = some c') (hg : ∀ k ∈ c.threads, Grounded w k)
    (hf : ∀ a l ts, Flow cfg a l ts →
      Suffixes (fun l => 0 ≤ load w l ∨ w a ≤ load w l) l ∧ ∀ t ∈ ts, Grounded w t) :
    ∀ k ∈ c'.threads, Grounded w k :=
  grounded_step h hg fun a _ _ _ he => hf a _ _ (act_flow he)

theorem reuse_grounded (h : step (actReuse cfg q) c x = some c') (hg : ∀ k ∈ c.threads, Grounded w k)
    (hf : ∀ a l ts, Flow cfg a l ts →
      Suffixes (fun l => 0 ≤ load w l ∨ w a ≤ load w l) l ∧ ∀ t ∈ ts, Grounded w t) :
    ∀ k ∈ c'.threads, Grounded w k :=
  grounded_step h hg fun a _ _ _ he => hf a _ _ (reuse_flow he)

end Threads

/-! ### What follows each call -/

/-- What is left of the dispatch receiver after it has put the PCB in a queue. -/
def afterSwitch (cfg : KernelConfig) (p : ℕ) : List Action :=
  assign p .nullCondition :: dispatchTail cfg

/-- The steps in the middle of a call, which only the step before them leads to:
those of `mtp_set_suspend_timer`, of a timer before its callback, and of the
dispatch of a PCB and the reception of the answer. -/
@[simp] def Action.inner : Action → Bool
  | setSuspendTimer _ | startSuspendTimer _ _ | timerSleep _ | timerTest _ | sendPcb _
  | setBusy _ | recieveMessageAsync | recieveMessage | pushData _ | cpuRecievePcbAsync | takeExecError => true
  | _ => false

/-- The steps do not start in the middle of a call. -/
def Plain (k : List Action) : Prop := ∀ a ∈ k.head?, a.inner = false

@[simp] theorem plain_nil : Plain [] := by simp [Plain]

@[simp] theorem plain_cons (a : Action) (k : List Action) :
    Plain (a :: k) ↔ a.inner = false := by simp [Plain]

/-- What follows the first of the steps `k`, by the program text. -/
def Shape (cfg : KernelConfig) : List Action → Prop
  | loop _ :: k => k = []
  | haltBreak :: k => Plain k ∧ ∀ t, timerDestroy t ∉ k
  | semWait .stpSemDispatch :: k => k = [haltBreak, popReady, loop .stp]
  | semPost .stpSemDispatch :: k => k = []
  | semWait .mtpSemIo :: k => k = [haltBreak, popBlocked, loop .mtpBlocked]
  | semPost .mtpSemIo :: k => k = [loop .mtpBlocked] ∨ ∃ p k', k = cancelSuspendTimer p :: k'
  | interruptIfBusy _ :: k | sendInterrupt :: k | setInterrupted :: k =>
    ∃ k', k = semPost .stpSemPlan :: k'
  | semWait .stpSemInterrupt :: k => ∃ k', k = sendInterrupt :: semPost .stpSemPlan :: k'
  | popReady :: k => k = [loop .stp]
  | assign p (.status .exec) :: k => k = [setExec p, sendPcb p, recieveMessageAsync, loop .stp]
  | setExec p :: k => k = [sendPcb p, recieveMessageAsync, loop .stp]
  | sendPcb _ :: k | setBusy true :: k => k = [recieveMessageAsync, loop .stp]
  | recieveMessageAsync :: k => k = [loop .stp]
  | recieveMessage :: k | pushData _ :: k | cpuRecievePcbAsync :: k => k = []
  | setBusy false :: k => ∃ r, k = incommingDispatch cfg r
  | takeExec _ :: k => k = dispatchTail cfg
  | takeExecError :: k | ifInterrupted :: k => k = [semPost .stpSemDispatch]
  | dispatchSwitch p :: k => k = afterSwitch cfg p
  | assign p (.status .blocked) :: k =>
    k = push .blocked p :: setSuspendTimer p :: semPost .mtpSemPlanner :: afterSwitch cfg p
  | push .blocked p :: k => k = setSuspendTimer p :: semPost .mtpSemPlanner :: afterSwitch cfg p
  | setSuspendTimer p :: k | startSuspendTimer _ p :: k =>
    k = semPost .mtpSemPlanner :: afterSwitch cfg p
  | timerSleep _ :: k | timerTest _ :: k | timerDestroy _ :: k => k = []
  | mutexLock :: k => ∃ t : Timer, k = t.call.tail ++ [timerDestroy t]
  | assign p .timerSuspendedBlocked :: k =>
    ∃ t, k = [suspendIfBlocked p, mutexUnlock, timerDestroy ⟨t, .mtpSuspendPcb, p⟩]
  | suspendIfBlocked p :: k | swappProcess p :: k =>
    ∃ t, k = [mutexUnlock, timerDestroy ⟨t, .mtpSuspendPcb, p⟩]
  | assign p (.status .suspendedBlocked) :: k => ∃ t,
      k = [semPost .ltpSemMultiprogrammingLevel, mutexUnlock, timerDestroy ⟨t, .mtpSuspendPcb, p⟩]
  | cancelSuspendTimer p :: k => ∃ t, k = [assign p .timerBlocked, unblockSwitch p, mutexUnlock,
      timerDestroy ⟨t, .mtpUnblockPcb, p⟩]
  | unblockSwitch p :: k => ∃ t, k = [mutexUnlock, timerDestroy ⟨t, .mtpUnblockPcb, p⟩]
  | mutexUnlock :: k => ∃ t, k = [timerDestroy t]
  | assign p (.status .new) :: k => ∃ k', k = push .new p :: k'
  | assign p (.status .suspendedReady) :: k => ∃ k', k = push .suspendedReady p :: k'
  | assign p (.status .exit) :: k => ∃ k', k = push .exit p :: k'
  | popBlocked :: k | createBlockedTimer _ :: k | startBlockedTimer _ _ :: k =>
    k = [loop .mtpBlocked]
  | newIfSuspendedReady :: k | newIfNew :: k | popSuspendedReady :: k | popNew :: k
  | getEntryPageTable _ :: k | checkPageTable _ :: k => k = [loop .ltpNew]
  | exitIfAny :: k | popExit :: k => k = [loop .ltpExit]
  | pcbDestroy _ :: k => k = [loop .ltpExit]
  | consoleTerminate p :: k => k = [pcbDestroy p, loop .ltpExit]
  | _ :: k => Plain k
  | [] => True

attribute [local simp] Shape body in
theorem shape_body (cfg : KernelConfig) (f : Controller) : Suffixes (Shape cfg) (body f) := by
  cases f <;> simp [body, Suffixes, Shape]

@[simp] theorem plain_dispatchTail (cfg : KernelConfig) : Plain (dispatchTail cfg) := by
  unfold dispatchTail
  split <;> simp

@[simp] theorem shape_dispatchTail (cfg : KernelConfig) :
    Suffixes (Shape cfg) (dispatchTail cfg) := by
  unfold dispatchTail
  split <;> simp [Suffixes, Shape]

@[simp] theorem not_destroy_dispatchTail (cfg : KernelConfig) (t : Timer) :
    timerDestroy t ∉ dispatchTail cfg := by
  unfold dispatchTail
  split <;> simp

@[simp] theorem plain_afterSwitch (cfg : KernelConfig) (p : ℕ) : Plain (afterSwitch cfg p) := by
  simp [afterSwitch]

@[simp] theorem shape_afterSwitch (cfg : KernelConfig) (p : ℕ) :
    Suffixes (Shape cfg) (afterSwitch cfg p) := by
  simp [afterSwitch, Suffixes, Shape]

@[simp] theorem not_exit_movePcbToReady (cfg : KernelConfig) (p q : ℕ) :
    assign p (.status .exit) ∉ movePcbToReady cfg q := by
  unfold movePcbToReady
  split <;> simp

theorem shape_movePcbToReady {cfg : KernelConfig} {p : ℕ} {k : List Action} (h1 : Plain k)
    (h2 : Suffixes (Shape cfg) k) : Suffixes (Shape cfg) (movePcbToReady cfg p ++ k) := by
  unfold movePcbToReady
  split <;> simp [Suffixes, Shape, h1, h2]

theorem shape_call (cfg : KernelConfig) : ∀ t : Timer,
    Suffixes (Shape cfg) (t.call ++ [timerDestroy t])
  | ⟨t, .mtpUnblockPcb, p⟩ => by
    refine ⟨⟨⟨t, .mtpUnblockPcb, p⟩, rfl⟩, ?_⟩
    simp [Suffixes, Shape]
  | ⟨t, .mtpSuspendPcb, p⟩ => by
    refine ⟨⟨⟨t, .mtpSuspendPcb, p⟩, rfl⟩, ?_⟩
    simp [Suffixes, Shape]

theorem shape_flow {cfg : KernelConfig} {a : Action} {k l : List Action} {ts : List (List Action)}
    (hk : Suffixes (Shape cfg) (a :: k)) (h : Flow cfg a l ts) :
    Suffixes (Shape cfg) (l ++ k) ∧ ∀ t ∈ ts, Suffixes (Shape cfg) t := by
  obtain ⟨h1, h2⟩ := hk
  cases h
  case done => exact ⟨h2, by simp⟩
  all_goals simp only [Shape] at h1
  case switchReady p => exact ⟨shape_movePcbToReady (h1 ▸ plain_afterSwitch cfg p) h2, by simp⟩
  case popSuspendedReady p | pageTable p =>
    exact ⟨shape_movePcbToReady (by simp [h1]) h2, by simp⟩
  case unblockReady p =>
    obtain ⟨t, rfl⟩ := h1
    exact ⟨shape_movePcbToReady (by simp) h2, by simp⟩
  case unblockSuspended p | unblockError p | swapped p | notSwapped p =>
    obtain ⟨t, rfl⟩ := h1
    simp [Suffixes, Shape]
  case takeExec r p =>
    subst h1
    unfold applyReply
    split <;> simp [Suffixes, Shape, afterSwitch]
  case callback t =>
    subst h1
    simpa using shape_call cfg t
  case loop f =>
    subst h1
    simpa using shape_body cfg f
  all_goals
    simp [Suffixes, Shape, *]

/-- No callback stops half way. -/
theorem stop_shape {cfg : KernelConfig} {a : Action} {k : List Action} {o : Outcome} {s : Planner}
    {e : Effect Planner Action} (hs : Shape cfg (a :: k)) (h : act cfg a o s = some e)
    (he : e.stop = true) (t : Timer) : timerDestroy t ∉ k := by
  cases act_branch h
  case haltBreak => exact hs.2 t
  all_goals first
    | (cases he; done)
    | (simp only [Shape] at hs; simp [hs])

/-- Every thread has the shape of the program text. -/
theorem reach_shape {cfg : KernelConfig} {ok : Config Planner Action → ℕ × Outcome → Prop}
    {c₀ c : Config Planner Action} [Starts cfg ok c₀] (h : Reach (act cfg) ok c₀ c) :
    ∀ k ∈ c.threads, Suffixes (Shape cfg) k := by
  refine Starts.inv (I := fun c => ∀ k ∈ c.threads, Suffixes (Shape cfg) k) h ?_ ?_ ?_
  · simp [start, Suffixes, Shape]
  · intro _ c c' x _ _ hc _ hx
    exact flow_threads hx hc trivial fun a k l ts hk hf => shape_flow hk hf
  · intro _ c c' x q _ _ hc hx
    exact reuse_threads hx hc trivial fun a k l ts hk hf => shape_flow hk hf

end Kernel
end Kiss
