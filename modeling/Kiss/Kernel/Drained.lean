/-
# The kernel stops only when its work is done

Under FIFO, where `grado_multiprogramacion` is at least 1, the threads run to their end, no swap
fails and each call of a `move_pcb_to_*` is one step, the planner never deadlocks: if no thread
but the console's can do a step, whatever the environment answers, then every process that was
accepted has been told its result and destroyed, and the queues and `planner->exec` are empty
(`moveReach_drained`). It holds whatever else fails: the page tables, the dispatches and the
answers. A swap that fails has a PCB freed that the blocked queue or a timer has.

A thread of the planner waits at a semaphore of its controller, since the mutex is never
held by one that waits. The permits that are conserved say that it is the semaphore of its
queue, and `Wakeups` that the queue is empty then. Under SRT a thread may also wait for
`stp_sem_interrupt`, a permit that a failed dispatch does not return.

Key definitions: `Idle`, `Drained`, `RunsAndSwaps`, `WaitText`, `untold`, `remembered`, `standingAt`.
Key theorems: `reach_remembered`, `reach_standingAt`, `idle_waits`, `moveReach_drained`.
-/
import Kiss.Kernel.Lasting
import Kiss.Kernel.Multiprogramming
import Kiss.Kernel.IoDevice
import Kiss.Kernel.Occupancy
import Kiss.Kernel.Ownership

namespace Kiss
namespace Kernel

open Kernel.Action Place Threads

/-! ### What is promised -/

/-- No thread but the console's can do a step. -/
def Idle (cfg : KernelConfig) (c : Config Planner Action) : Prop :=
  ∀ i k, c.threads[i]? = some k → loop .console ∉ k → Waits (act cfg) c i

/-- Every process accepted is over. -/
structure Drained (c : Config Planner Action) : Prop where
  queues : ∀ q, c.state.queues q = []
  exec : c.state.exec = none
  told : ∀ p, 1 ≤ p → p ≤ c.state.pcbId → ∃ g, (p, g) ∈ c.state.told
  destroyed : ∀ p, 1 ≤ p → p ≤ c.state.pcbId → p ∈ c.state.destroyed

/-! ### Where a process is -/

/-- Up to the result told to the console. -/
def untold : Place → ℤ
  | exits | destroying | destroyed => 0
  | _ => 1

/-- Up to the destruction. -/
def remembered : Place → ℤ
  | exits | told => 0
  | _ => 1

/-- With a status that counts for the degree of multiprogramming, or on the way to one or
from one. -/
def standingAt : Place → ℤ
  | entering .ready | queued .ready | popped | dispatched | exec | returned | blocking
  | entering .blocked | arming | queued .blocked | io | unblocking | leaving => 1
  | _ => 0

theorem untold_nonneg (l : Place) : 0 ≤ untold l := by unfold untold; split <;> omega
theorem remembered_nonneg (l : Place) : 0 ≤ remembered l := by unfold remembered; split <;> omega
theorem standingAt_nonneg (l : Place) : 0 ≤ standingAt l := by unfold standingAt; split <;> omega

section Keeps

variable {p : ℕ} {s : Planner} {o : Outcome} {a : Action}

theorem untold_keeps (h : Settles s a) : Keeps untold p s o a := by
  cases a
  case push q r => cases q <;> simp [Keeps, untold]
  case assign r f =>
    cases f
    case status st => cases st <;> simp [Keeps, untold]
    all_goals trivial
  case setExec r => exact ⟨h, by simp [untold]⟩
  case timerTest t => exact h
  all_goals simp [Keeps, untold]

theorem remembered_keeps (h : Settles s a) : Keeps remembered p s o a := by
  cases a
  case push q r => cases q <;> simp [Keeps, remembered]
  case assign r f =>
    cases f
    case status st => cases st <;> simp [Keeps, remembered]
    all_goals trivial
  case setExec r => exact ⟨h, by simp [remembered]⟩
  case timerTest t => exact h
  all_goals simp [Keeps, remembered]

theorem standingAt_keeps (h : Settles s a) (ha : a ≠ assign p (.status .exit))
    (hs : (s.pcbs p).status ≠ .suspendedBlocked) : Keeps standingAt p s o a := by
  cases a
  case push q r =>
    cases q <;> simp [Keeps, standingAt]
  case assign r f =>
    cases f
    case status st =>
      cases st <;> simp [Keeps, standingAt]
      rintro rfl
      exact ha rfl
    all_goals trivial
  case setExec r => exact ⟨h, by simp [standingAt]⟩
  case timerTest t => exact h
  case unblockSwitch r =>
    rintro rfl
    exact ⟨by simp [standingAt], fun h1 => absurd h1 hs, by simp [standingAt]⟩
  all_goals simp [Keeps, standingAt]

end Keeps

section Places

variable {cfg : KernelConfig} {ok : Config Planner Action → ℕ × Outcome → Prop}
  {c c' : Config Planner Action} {x : ℕ × Outcome} {a : Action} {k : List Action} {p : ℕ} {g : Place → ℤ}

/-- Every process accepted is somewhere, its result not told, or told. -/
theorem reach_untold (hp : 1 ≤ p) (h : Reach (act cfg) (Allows ThreadsRun) (start cfg) c)
    (hh : c.state.halt = false) : 1 ≤ held untold p c :=
  reach_held_pos untold_nonneg rfl (fun _ _ _ => untold_keeps) hp h hh

theorem reach_remembered (hp : 1 ≤ p) (h : Reach (act cfg) (Allows ThreadsRun) (start cfg) c)
    (hh : c.state.halt = false) : 1 ≤ held remembered p c :=
  reach_held_pos remembered_nonneg rfl (fun _ _ _ => remembered_keeps) hp h hh

/-- A PCB whose status counts is where such PCBs are. -/
theorem reach_standingAt (hc : cfg.algoritmoPlanificacion = .fifo)
    (h : Reach (act cfg) (Allows ThreadsRun) (start cfg) c) (hh : c.state.halt = false)
    (hp : c.state.counted p = true) : 1 ≤ held standingAt p c := by
  induction h with
  | start => cases hp
  | @step c c' x hr ho hx ih =>
    have hr' := hr.step x ho hx
    obtain ⟨a, k, e, hk, he, hc'⟩ := step_some hx
    have hm := List.mem_of_getElem? hk
    have hstate : c'.state = e.state := by rw [hc']
    have hmem : e.rest k ∈ c'.threads := by
      rw [hc']
      exact mem_threads_self hk
    rw [hstate, Planner.counted] at hp
    rcases act_status p he with h1 | ⟨st, rfl, h1⟩ | ⟨prog, -, -, h1⟩
    · rw [h1] at hp
      have h2 := ih (act_halt he (hstate ▸ hh)) hp
      refine h2.trans (held_keep (p := p) standingAt_nonneg hr ho ho (fun b l hl => ?_) hx hh)
      rw [hk] at hl
      cases hl
      refine standingAt_keeps (settles hr hm) ?_ ?_
      · rintro rfl
        rw [← h1] at hp
        cases act_branch he
        simp [Pcb.assign, counts] at hp
      · intro h3
        rw [h3] at hp
        cases hp
    · -- the thread goes on to put the PCB where the status says
      have h2 := load_le_held (p := p) standingAt_nonneg (by simp [standingAt]) hr' hmem
      rw [h1] at hp
      have hs := (reach_shape hr _ hm).self
      have hf := (reach_fifo hc hr _ hm).self
      have hg := reach_grounded (p := p) (g := standingAt) standingAt_nonneg (by simp [standingAt]) hr _ hm
      cases act_branch he
      rw [Effect.rest, if_neg Bool.false_ne_true, List.nil_append] at h2
      cases st
      case ready =>
        obtain ⟨k', rfl⟩ := List.head?_eq_some_iff.mp (hf.1.2 p rfl)
        have h3 := hg.tail.tail.self
        simp only [load_cons, weight, at', standingAt, if_true] at h2
        omega
      case exec =>
        simp only [Shape] at hs
        subst hs
        simp only [load_cons, weight, at', standingAt, if_true, load_nil] at h2
        omega
      case blocked =>
        simp only [Shape] at hs
        subst hs
        have h3 := hg.tail.tail.tail.tail.self
        simp only [load_cons, weight, at', standingAt, if_true] at h2
        omega
      all_goals cases hp
    · rw [h1] at hp
      cases hp

end Places

/-! ### Where a thread can wait -/

/-- What follows a wait of a controller, under FIFO. -/
def afterWait : Sem → List Action
  | .ltpSemPlan => [semWait .ltpSemMultiprogrammingLevel, haltBreak, newIfSuspendedReady, loop .ltpNew]
  | .ltpSemMultiprogrammingLevel => [haltBreak, newIfSuspendedReady, loop .ltpNew]
  | .ltpSemExit => [haltBreak, exitIfAny, loop .ltpExit]
  | .mtpSemPlanner => [semWait .mtpSemIo, haltBreak, popBlocked, loop .mtpBlocked]
  | .mtpSemIo => [haltBreak, popBlocked, loop .mtpBlocked]
  | .stpSemPlan => [semWait .stpSemDispatch, haltBreak, popReady, loop .stp]
  | .stpSemDispatch => [haltBreak, popReady, loop .stp]
  | .stpSemInterrupt => []

/-- Under FIFO a thread waits at a semaphore in the loop of a controller, and only the console's
accepts. -/
def WaitText : List Action → Prop
  | a :: k => (∀ m, a = semWait m → m ≠ .stpSemInterrupt ∧ k = afterWait m) ∧
      (a = accept → k = [loop .console]) ∧ (loop .console ∈ k → a = accept) ∧ ∀ p, a ≠ interruptIfBusy p
  | [] => True

section Text

variable {cfg : KernelConfig} {ok : Config Planner Action → ℕ × Outcome → Prop}
  {c : Config Planner Action} {a : Action} {k l : List Action} {ts : List (List Action)}

theorem wait_flow (hc : cfg.algoritmoPlanificacion = .fifo) (hs : Shape cfg (a :: k))
    (hk : Suffixes WaitText (a :: k)) (h : Flow cfg a l ts) :
    Suffixes WaitText (l ++ k) ∧ ∀ t ∈ ts, Suffixes WaitText t := by
  obtain ⟨⟨h1, h2, h3, h5⟩, h4⟩ := hk
  cases h
  case done => exact ⟨h4, by simp⟩
  case loop f => cases f <;> simp_all [Suffixes, WaitText, Shape, body, afterWait]
  case callback t => rcases t with ⟨t, _ | _, q⟩ <;> simp_all [Suffixes, WaitText, Timer.call]
  all_goals
    simp_all [Suffixes, WaitText, movePcbToReady, applyReply, dispatchTail]

theorem reach_wait (hc : cfg.algoritmoPlanificacion = .fifo) (h : Reach (act cfg) ok (start cfg) c) :
    ∀ k ∈ c.threads, Suffixes WaitText k := by
  have h1 : ∀ k ∈ c.threads, Suffixes (Shape cfg) k ∧ Suffixes WaitText k := by
    refine h.inv (I := fun c => ∀ k ∈ c.threads, Suffixes (Shape cfg) k ∧ Suffixes WaitText k) ?_ ?_
    · simp [start, Suffixes, Shape, WaitText]
    · intro c c' x _ hk _ hx
      refine flow_threads hx hk ⟨trivial, trivial⟩ fun a k l ts hk hf => ?_
      obtain ⟨h1, h2⟩ := shape_flow hk.1 hf
      obtain ⟨h3, h4⟩ := wait_flow hc hk.1.self hk.2 hf
      exact ⟨⟨h1, h3⟩, fun t ht => ⟨h2 t ht, h4 t ht⟩⟩
  exact fun k hk => (h1 k hk).2

end Text

/-! ### The permits that no thread drops -/

section Permits

variable {cfg : KernelConfig} {ok : Config Planner Action → ℕ × Outcome → Prop}
  {c c' : Config Planner Action} {x : ℕ × Outcome} {a : Action} {k l : List Action} {o : Outcome}
  {s : Planner} {e : Effect Planner Action} {f : Controller}

attribute [local simp] mutexWeight body in
theorem mutex_keep (h : act cfg a o s = some e) (he : e.stop = false)
    (hu : a = mutexUnlock → s.mtpMutexBlockingProcess = true) :
    -(s.mtpMutexBlockingProcess.toNat : ℤ) + mutexWeight a ≤
      -(e.state.mtpMutexBlockingProcess.toNat : ℤ) + load mutexWeight e.next + total mutexWeight e.spawn := by
  cases act_branch h
  case loop f => cases f <;> simp [body, mutexWeight]
  case mutexUnlock => simp [hu rfl, mutexWeight]
  all_goals simp [mutexWeight, load_ready, load_tail, load_reply, load_timerCall, *]

attribute [local simp] ioWeight in
theorem io_keep (h : act cfg a o s = some e) (he : e.stop = false) (hs : Settles s a) :
    (s.sems .mtpSemIo : ℤ) + ioWeight a ≤
      e.state.sems .mtpSemIo + load ioWeight e.next + total ioWeight e.spawn := by
  cases act_branch h
  case loop f => cases f <;> simp [body]
  case semWait m hm =>
    cases m <;> simp
    omega
  case semPost m => cases m <;> simp
  case timerCanceled t hc =>
    have hu : t.callback ≠ .mtpUnblockPcb := fun hu => by
      rw [hs hu] at hc
      cases hc
    simp [hu]
  case timerCall t _ => rcases t with ⟨t, _ | _, p⟩ <;> simp [Timer.call]
  case popBlockedNull | timerSleepFails => cases he
  all_goals simp [load_ready, load_tail, load_reply]

attribute [local simp] loopWeight in
theorem loop_keep (h : act cfg a o s = some e) :
    loopWeight f a ≤ load (loopWeight f) e.next + total (loopWeight f) e.spawn := by
  cases act_branch h
  case loop g => cases g <;> cases f <;> simp [body]
  all_goals simp [load_ready, load_tail, load_reply, load_timerCall]

/-- The mutex is locked by a thread that is still to unlock it. -/
theorem reach_mutexHeld (h : Reach (act cfg) (Allows ThreadsRun) (start cfg) c)
    (hh : c.state.halt = false) (hl : c.state.mtpMutexBlockingProcess = true) :
    ∃ k ∈ c.threads, 1 ≤ load mutexWeight k := by
  refine exists_load_pos ?_
  have h1 := reach_keep (m := fun s => -(s.mtpMutexBlockingProcess.toNat : ℤ)) (w := mutexWeight)
    (fun hr hm he _ hst => mutex_keep he hst fun ha => ?_) h hh
  · have h2 : -((start cfg).state.mtpMutexBlockingProcess.toNat : ℤ) +
        total mutexWeight (start cfg).threads = 0 := rfl
    rw [h2, hl] at h1
    simpa using h1
  · -- a thread that unlocks has locked
    subst ha
    have h3 := reach_balance (m := fun s => -(s.mtpMutexBlockingProcess.toNat : ℤ))
      (fun _ _ _ _ => mutex_act) (by simp [Planner.recreate, mutexWeight]) (fun _ _ _ => mutex_flow)
      (by simp [start, Grounded, Suffixes, mutexWeight]) hr
    have h4 := le_total (fun t ht => (h3.2 t ht).nonneg) hm
    have h5 := (h3.2 _ hm).tail.self
    have h6 := h3.1
    simp only [start, Bool.toNat_false, total_cons, load_cons, mutexWeight] at h4 h6
    by_contra hn
    rw [Bool.not_eq_true] at hn
    simp [hn] at h6
    omega

/-- The permit of the dispatch is posted or held. -/
theorem reach_dispatchPermit (h : Reach (act cfg) (Allows ThreadsRun) (start cfg) c)
    (hh : c.state.halt = false) : 1 ≤ (c.state.sems .stpSemDispatch : ℤ) + total dispatchWeight c.threads :=
  reach_keep (m := fun s => (s.sems .stpSemDispatch : ℤ))
    (fun _ _ he ho hst => (dispatch_exact he hst ho.2.1).ge) h hh

/-- The permit of the I/O device is posted or held. -/
theorem reach_ioPermit (h : Reach (act cfg) (Allows ThreadsRun) (start cfg) c)
    (hh : c.state.halt = false) : 1 ≤ (c.state.sems .mtpSemIo : ℤ) + total ioWeight c.threads :=
  reach_keep (m := fun s => (s.sems .mtpSemIo : ℤ))
    (fun hr hm he _ hst => io_keep he hst (settles hr hm)) h hh

/-- Every controller goes on. -/
theorem reach_controller (f : Controller) (h : Reach (act cfg) (Allows ThreadsRun) (start cfg) c)
    (hh : c.state.halt = false) : ∃ k ∈ c.threads, loop f ∈ k := by
  have h1 := reach_keep (m := fun _ => 0) (w := loopWeight f)
    (fun _ _ he _ _ => by simpa using loop_keep he) h hh
  have h2 : total (loopWeight f) (start cfg).threads = 1 := by
    cases f <;> simp [start, loopWeight]
  have h5 : 1 ≤ total (loopWeight f) c.threads := by omega
  obtain ⟨k, hk, h3⟩ := exists_load_pos h5
  refine ⟨k, hk, ?_⟩
  by_contra hn
  have h4 := load_eq_zero (w := loopWeight f) (k := k) fun a ha => by
    rw [loopWeight, if_neg]
    rintro rfl
    exact hn ha
  omega

end Permits

/-! ### The threads of an idle planner -/

section Idle

variable {cfg : KernelConfig} {ok : Config Planner Action → ℕ × Outcome → Prop}
  {c : Config Planner Action} {a : Action} {k l : List Action} {s : Planner} {m : Sem} {p : ℕ}

/-- Only a wait can wait. -/
theorem waits_head (hcr : s.crashed = false) (h : ∀ o, act cfg a o s = none) :
    (∃ m, a = semWait m ∧ s.sems m = 0) ∨ a = mutexLock ∧ s.mtpMutexBlockingProcess = true := by
  have h1 := h .ok
  have h2 := h .fail
  unfold act at h1 h2
  rw [if_neg (by simp [hcr])] at h1 h2
  cases a
  case semWait m => exact Or.inl ⟨m, rfl, by_contra fun hm => by simp [hm, only] at h1⟩
  case mutexLock => exact Or.inr ⟨rfl, by_contra fun hm => by simp [hm, only] at h1⟩
  all_goals
    exfalso
    dsimp only [only, andThen, crash, pop, recieveMessageResult] at h1 h2
  case cpuRecievePcbAsync =>
    split_ifs at h1
    split at h1 <;> cases h1
  all_goals first
    | (cases h1; done)
    | cases h2
    | split_ifs at h1
    | (split at h1 <;> cases h1)

/-- Under FIFO a thread that has the mutex does not wait. -/
theorem mutex_goesOn (hc : cfg.algoritmoPlanificacion = .fifo) (hr : Reach (act cfg) ok (start cfg) c)
    (hm : a :: k ∈ c.threads) (hl : 1 ≤ load mutexWeight (a :: k)) :
    (∀ m, a ≠ semWait m) ∧ a ≠ mutexLock := by
  have hs := (reach_shape hr _ hm).self
  have hw := (reach_wait hc hr _ hm).self
  constructor
  · rintro m rfl
    obtain ⟨h1, rfl⟩ := hw.1 m rfl
    cases m <;> simp [afterWait, mutexWeight] at hl
  · rintro rfl
    obtain ⟨t, rfl⟩ := hs
    rcases t with ⟨t, _ | _, q⟩ <;> simp [Timer.call, mutexWeight] at hl

/-- An idle planner's threads are over, or wait at a semaphore of a controller, or are the
console's. -/
theorem idle_waits (hc : cfg.algoritmoPlanificacion = .fifo)
    (hr : Reach (act cfg) (Allows ThreadsRun) (start cfg) c) (hh : c.state.halt = false)
    (hi : Idle cfg c) (hk : k ∈ c.threads) : k = [] ∨ k = [loop .console] ∨ k = [accept, loop .console] ∨
      ∃ m ≠ .stpSemInterrupt, k = semWait m :: afterWait m ∧ c.state.sems m = 0 := by
  have hcr := reach_notCrashed hr
  have hhead : ∀ {b l}, b :: l ∈ c.threads → loop .console ∉ b :: l →
      (∃ m, b = semWait m ∧ c.state.sems m = 0) ∨ b = mutexLock ∧ c.state.mtpMutexBlockingProcess = true := by
    intro b l hm hn
    obtain ⟨i, hi'⟩ := List.mem_iff_getElem?.mp hm
    exact waits_head hcr ((hi i _ hi' hn).act hi')
  rcases k with _ | ⟨a, k⟩
  · exact Or.inl rfl
  have hw := (reach_wait hc hr _ hk).self
  have hs := (reach_shape hr _ hk).self
  by_cases hcon : loop .console ∈ a :: k
  · rcases List.mem_cons.mp hcon with rfl | h1
    · simp only [Shape] at hs
      exact Or.inr (Or.inl (by rw [hs]))
    · obtain rfl := hw.2.2.1 h1
      exact Or.inr (Or.inr (Or.inl (by rw [hw.2.1 rfl])))
  rcases hhead hk hcon with ⟨m, rfl, h1⟩ | ⟨rfl, h1⟩
  · obtain ⟨h2, h3⟩ := hw.1 m rfl
    exact Or.inr (Or.inr (Or.inr ⟨m, h2, by rw [h3], h1⟩))
  · -- the thread that has the mutex would be able to go on
    exfalso
    obtain ⟨l, hl, h2⟩ := reach_mutexHeld hr hh h1
    rcases l with _ | ⟨b, l⟩
    · simp at h2
    obtain ⟨h3, h4⟩ := mutex_goesOn hc hr hl h2
    by_cases hcon' : loop .console ∈ b :: l
    · rcases List.mem_cons.mp hcon' with rfl | h5
      · have h6 := (reach_shape hr _ hl).self
        simp only [Shape] at h6
        simp [h6, mutexWeight] at h2
      · have h6 := (reach_wait hc hr _ hl).self
        obtain rfl := h6.2.2.1 h5
        rw [h6.2.1 rfl] at h2
        simp [mutexWeight] at h2
    · rcases hhead hl hcon' with ⟨m, rfl, -⟩ | ⟨rfl, -⟩
      · exact h3 m rfl
      · exact h4 rfl

/-- The thread waits at a semaphore whose controller has taken no PCB yet. -/
def Fresh (k : List Action) : Prop := k = [] ∨ k = [loop .console] ∨ k = [accept, loop .console] ∨
  ∃ m ∈ [Sem.ltpSemPlan, .ltpSemMultiprogrammingLevel, .ltpSemExit, .mtpSemPlanner, .stpSemPlan],
    k = semWait m :: afterWait m

theorem Fresh.weight (h : Fresh k) (g : Place → ℤ) : load (weight g p) k = 0 := by
  rcases h with rfl | rfl | rfl | ⟨m, hm, rfl⟩
  case inr.inr.inr =>
    simp only [List.mem_cons, List.not_mem_nil, or_false] at hm
    rcases hm with rfl | rfl | rfl | rfl | rfl <;> simp [afterWait, Kernel.weight]
  all_goals simp [Kernel.weight]

theorem Fresh.post (h : Fresh k) (m : Sem) : load (postWeight m) k = 0 := by
  rcases h with rfl | rfl | rfl | ⟨m', hm, rfl⟩
  case inr.inr.inr =>
    simp only [List.mem_cons, List.not_mem_nil, or_false] at hm
    rcases hm with rfl | rfl | rfl | rfl | rfl <;> simp [afterWait, postWeight]
  all_goals simp [postWeight]

/-- An idle planner's queues that the short-term, the blocked and the exit controller serve. -/
theorem idle_fresh (hc : cfg.algoritmoPlanificacion = .fifo)
    (hr : Reach (act cfg) (Allows ThreadsRun) (start cfg) c) (hh : c.state.halt = false)
    (hi : Idle cfg c) (hk : k ∈ c.threads) : Fresh k ∧ ∀ m, k.head? = some (semWait m) → c.state.sems m = 0 := by
  have hform := fun {l} (hl : l ∈ c.threads) => idle_waits hc hr hh hi hl
  have hdis : total dispatchWeight c.threads = 0 := by
    refine total_eq_zero fun l hl => ?_
    rcases hform hl with rfl | rfl | rfl | ⟨m, -, rfl, -⟩ <;> try simp [dispatchWeight]
    cases m <;> simp [afterWait, dispatchWeight]
  have hio : total ioWeight c.threads = 0 := by
    refine total_eq_zero fun l hl => ?_
    rcases hform hl with rfl | rfl | rfl | ⟨m, -, rfl, -⟩ <;> try simp [ioWeight]
    cases m <;> simp [afterWait, ioWeight]
  have h1 := reach_dispatchPermit hr hh
  have h2 := reach_ioPermit hr hh
  rcases hform hk with rfl | rfl | rfl | ⟨m, hm, rfl, h0⟩
  · exact ⟨Or.inl rfl, by simp⟩
  · exact ⟨Or.inr (Or.inl rfl), by simp⟩
  · exact ⟨Or.inr (Or.inr (Or.inl rfl)), by simp⟩
  · refine ⟨Or.inr (Or.inr (Or.inr ⟨m, ?_, rfl⟩)), by rintro m' ⟨⟩; exact h0⟩
    cases m
    case mtpSemIo => omega
    case stpSemDispatch => omega
    case stpSemInterrupt => exact absurd rfl hm
    all_goals simp

/-- A queue whose controller waits for it is empty. -/
theorem idle_queue (hr : Reach (act cfg) ok (start cfg) c) (hh : c.state.halt = false)
    (hf : ∀ k ∈ c.threads, Fresh k ∧ ∀ m, k.head? = some (semWait m) → c.state.sems m = 0) {q : Queue}
    (hq : ∃ k ∈ c.threads, k.head? = some (semWait q.sem))
    (ht : q.sem = .ltpSemPlan → ∀ k ∈ c.threads, k.head? ≠ some (semWait .ltpSemMultiprogrammingLevel)) :
    c.state.queues q = [] := by
  obtain ⟨k, hk, hhead⟩ := hq
  have h0 := (hf k hk).2 _ hhead
  have h1 := reach_exact (m := q.sem) ⟨q, rfl⟩ hr hh
  have h2 : total (postWeight q.sem) c.threads = 0 := total_eq_zero fun l hl => (hf l hl).1.post _
  have h3 : total (takenWeight q.sem) c.threads = 0 := by
    refine total_eq_zero fun l hl => ?_
    rcases (hf l hl).1 with rfl | rfl | rfl | ⟨m, hm, rfl⟩
    case inr.inr.inr =>
      have h4 := fun h => ht h _ hl
      simp only [List.mem_cons, List.not_mem_nil, or_false] at hm
      rcases hm with rfl | rfl | rfl | rfl | rfl <;> cases q <;>
        simp_all [afterWait, takenWeight, Action.takes, Queue.sem]
    all_goals simp [takenWeight, Action.takes]
  rw [h0, h2, h3] at h1
  have h4 : (c.state.queues q).length = 0 := by
    cases q <;> simp only [Queue.sem, Sem.queued] at h1 <;> omega
  exact List.length_eq_zero_iff.mp h4

/-- Threads run to their end and no swap fails. -/
def RunsAndSwaps (a : Action) (o : Outcome) : Prop := ThreadsRun a o ∧ SwapsSucceed a o

/-- The runs in which, besides, each call of a `move_pcb_to_*` is one step. -/
abbrev MoveRuns (cfg : KernelConfig) : Config Planner Action → Prop :=
  CallReach (act cfg) RunsAndSwaps IsMove (start cfg)

/-- A controller that is idle waits at its semaphore. -/
theorem idle_controller (hf : ∀ k ∈ c.threads, Fresh k ∧ ∀ m, k.head? = some (semWait m) → c.state.sems m = 0)
    {f : Controller} (hl : ∃ k ∈ c.threads, loop f ∈ k) (hne : f ≠ .console) : ∃ k ∈ c.threads, ∃ m,
      k.head? = some (semWait m) ∧ (match f with
        | .ltpNew => m = .ltpSemPlan ∨ m = .ltpSemMultiprogrammingLevel
        | .ltpExit => m = .ltpSemExit
        | .mtpBlocked => m = .mtpSemPlanner
        | .stp => m = .stpSemPlan
        | .console => False) := by
  obtain ⟨k, hk, hl⟩ := hl
  refine ⟨k, hk, ?_⟩
  rcases (hf k hk).1 with rfl | rfl | rfl | ⟨m, hm, rfl⟩
  case inr.inr.inr =>
    refine ⟨m, rfl, ?_⟩
    simp only [List.mem_cons, List.not_mem_nil, or_false] at hm
    rcases hm with rfl | rfl | rfl | rfl | rfl <;> cases f <;> simp [afterWait] at hl hne ⊢
  all_goals cases f <;> simp at hl hne

/-- **No deadlock.** An idle planner has done all its work. -/
theorem moveReach_drained (hc : cfg.algoritmoPlanificacion = .fifo) (hg : 1 ≤ cfg.gradoMultiprogramacion)
    (h : MoveRuns cfg c) (hh : c.state.halt = false) (hi : Idle cfg c) : Drained c := by
  have h' := h.mono fun _ _ ho => ho.1
  have hr := h'.reach
  have hf := fun k hk => idle_fresh (k := k) hc hr hh hi hk
  have hctl := fun f hne => idle_controller hf (reach_controller f hr hh) hne
  -- the queues of the controllers that have no second semaphore left to wait at
  have hexit : c.state.queues .exit = [] := by
    obtain ⟨k, hk, m, hm, rfl⟩ := hctl .ltpExit (by simp)
    exact idle_queue (q := .exit) hr hh hf ⟨k, hk, hm⟩ (by simp [Queue.sem])
  have hblocked : c.state.queues .blocked = [] := by
    obtain ⟨k, hk, m, hm, rfl⟩ := hctl .mtpBlocked (by simp)
    exact idle_queue (q := .blocked) hr hh hf ⟨k, hk, hm⟩ (by simp [Queue.sem])
  have hready : c.state.queues .ready = [] := by
    obtain ⟨k, hk, m, hm, rfl⟩ := hctl .stp (by simp)
    exact idle_queue (q := .ready) hr hh hf ⟨k, hk, hm⟩ (by simp [Queue.sem])
  have hexec : c.state.exec = none := by
    refine (reach_out hr).1 ?_
    have h1 := reach_dispatchPermit hr hh
    have h2 : total dispatchWeight c.threads = 0 := total_eq_zero fun l hl => by
      rcases (hf l hl).1 with rfl | rfl | rfl | ⟨m, hm, rfl⟩
      case inr.inr.inr =>
        simp only [List.mem_cons, List.not_mem_nil, or_false] at hm
        rcases hm with rfl | rfl | rfl | rfl | rfl <;> simp [afterWait, dispatchWeight]
      all_goals simp [dispatchWeight]
    omega
  have hheld : ∀ (g : Place → ℤ) p, held g p c = value g p c.state := fun g p => by
    rw [held, total_eq_zero fun l hl => (hf l hl).1.weight g, add_zero]
  -- the degree of multiprogramming lets the long-term controller on
  have hlevel : ∀ k ∈ c.threads, k.head? ≠ some (semWait .ltpSemMultiprogrammingLevel) := by
    intro k hk hm
    have h0 := (hf k hk).2 _ hm
    have h1 := level_run hc atCall_start (fun _ => rfl) (h'.mono fun _ _ ho => ho.1) hh
    have h2 : c.threads.countP HasPermit = 0 := List.countP_eq_zero.mpr fun l hl => by
      rcases (hf l hl).1 with rfl | rfl | rfl | ⟨m, hm', rfl⟩
      case inr.inr.inr =>
        simp only [List.mem_cons, List.not_mem_nil, or_false] at hm'
        rcases hm' with rfl | rfl | rfl | rfl | rfl <;> decide
      all_goals decide
    have h3 : multiprogrammed c.state = 0 := by
      refine Finset.card_eq_zero.mpr (Finset.filter_eq_empty_iff.mpr fun p _ hp => ?_)
      have h4 := reach_standingAt hc hr hh hp
      rw [hheld, value_eq, hready, hblocked, hexit, hexec] at h4
      simp [sumAt_eq, standingAt, unbornAt] at h4
    rw [Level, h2, h3] at h1
    omega
  have hltp : ∃ k ∈ c.threads, k.head? = some (semWait .ltpSemPlan) := by
    obtain ⟨k, hk, m, hm, rfl | rfl⟩ := hctl .ltpNew (by simp)
    · exact ⟨k, hk, hm⟩
    · exact absurd hm (hlevel k hk)
  have hnew : c.state.queues .new = [] := idle_queue (q := .new) hr hh hf hltp fun _ => hlevel
  have hsusp : c.state.queues .suspendedReady = [] :=
    idle_queue (q := .suspendedReady) hr hh hf hltp fun _ => hlevel
  refine ⟨fun q => by cases q <;> assumption, hexec, fun p h1 h2 => ?_, fun p h1 h2 => ?_⟩
  · have h3 := reach_untold h1 hr hh
    rw [hheld, value_eq, hnew, hready, hblocked, hsusp, hexit, hexec] at h3
    simp only [sumAt_eq, untold, unbornAt, if_neg (Nat.not_lt.mpr h2), execAt_none, List.count_nil] at h3
    have h4 : 0 < (c.state.told.map (·.1)).count p := by
      by_contra hn
      simp [Nat.eq_zero_of_not_pos hn] at h3
    obtain ⟨x, hx, rfl⟩ := List.mem_map.mp (List.count_pos_iff.mp h4)
    exact ⟨x.2, hx⟩
  · have h3 := reach_remembered h1 hr hh
    rw [hheld, value_eq, hnew, hready, hblocked, hsusp, hexit, hexec] at h3
    simp only [sumAt_eq, remembered, unbornAt, if_neg (Nat.not_lt.mpr h2), execAt_none, List.count_nil] at h3
    have h4 : 0 < c.state.destroyed.count p := by
      by_contra hn
      simp [Nat.eq_zero_of_not_pos hn] at h3
    exact List.count_pos_iff.mp h4

end Idle

/-! ### A run -/

/-- `RunsAndSwaps`, evaluated. -/
def checkRunsAndSwaps : Action → Outcome → Bool
  | recieveMessageAsync, o | timerSleep _, o | swappProcess _, o => o = .ok
  | a, o => checkTimerStarts a o

theorem runsAndSwaps_of_check (a : Action) (o : Outcome) (h : checkRunsAndSwaps a o = true) :
    RunsAndSwaps a o := by
  refine ⟨⟨timerStarts_of_check a o ?_, ?_, ?_⟩, ?_⟩
  · unfold checkRunsAndSwaps at h
    split at h
    case h_4 => exact h
    all_goals rfl
  · rintro rfl
    simpa [checkRunsAndSwaps] using h
  · rintro t rfl
    simpa [checkRunsAndSwaps] using h
  · rintro p rfl
    simpa [checkRunsAndSwaps] using h

/-- `Idle`, evaluated. -/
def checkIdle (c : Config Planner Action) : Bool := c.threads.all fun k =>
  k.contains (loop .console) || match k with
    | [] => true
    | semWait m :: _ => c.state.sems m = 0
    | _ => false

theorem idle_of_check {cfg : KernelConfig} {c : Config Planner Action} (h : checkIdle c = true) : Idle cfg c := by
  intro i k hk hn o
  have h1 := List.all_eq_true.mp h k (List.mem_of_getElem? hk)
  rcases k with _ | ⟨a, k⟩
  · unfold Threads.step
    rw [hk]
  · simp only [Bool.or_eq_true, List.contains_eq_mem, decide_eq_true_eq, hn, false_or] at h1
    split at h1
    · contradiction
    · rename_i m k' heq
      cases heq
      unfold Threads.step
      rw [hk]
      simp only [act, of_decide_eq_true h1, if_true]
      split_ifs <;> rfl
    · cases h1

/-- Process 1 does an I/O (thread 6 receives the answer), is suspended by thread 7 and
unblocked by thread 8, is admitted again and exits (thread 9). -/
def drainedRun : List (ℕ × Outcome) :=
  [(4, .ok), (4, .program ioProgram), (4, .ok)] ++ oks 2 5 ++ oks 7 0 ++ [(0, .table 1)] ++ oks 4 0 ++
  oks 12 3 ++ [(6, .reply ioReply)] ++ oks 10 6 ++ oks 9 2 ++ oks 9 7 ++ oks 10 8 ++ oks 7 0 ++ oks 10 3 ++
  [(9, .reply { ioReply with cpuDispatchCond := .exitProgram })] ++ oks 10 9 ++ oks 9 1

theorem moveReach_drained_drainedRun : ∃ c, MoveRuns (exampleConfig .fifo) c ∧ c.state.pcbId = 1 ∧
    c.state.told = [(1, .operationSuccess)] ∧ Drained c := by
  have h1 : (runCalls (act (exampleConfig .fifo)) checkRunsAndSwaps splitCall (start (exampleConfig .fifo))
      drainedRun).map (fun c => (c.state.halt, checkIdle c, c.state.pcbId, c.state.told)) =
        some (false, true, 1, [(1, .operationSuccess)]) := by
    decide +kernel
  obtain ⟨c, hc, h2⟩ := Option.map_eq_some_iff.mp h1
  simp only [Prod.mk.injEq] at h2
  obtain ⟨h3, h4, h5, h6⟩ := h2
  have hr : MoveRuns (exampleConfig .fifo) c :=
    callReach_of_run runsAndSwaps_of_check (fun _ _ _ => splitCall_some) (fun _ _ _ => splitCall_none)
      .start hc
  exact ⟨c, hr, h5, h6, moveReach_drained rfl (by decide) hr h3 (idle_of_check h4)⟩

end Kernel
end Kiss
