/-
# Who may do what

Counts of the planner. The mutex of the blocked processes is held by one thread
at most; the permit of `stp_sem_dispatch` goes from the short-term controller to
the receiver of the answer and back, and its holder alone touches
`planner->exec` and the dispatch socket; and a semaphore that announces a queue
is never ahead of what the queue holds, with what its controller has taken and
what is not announced yet, so a controller finds what it pops, and the PCB whose
suspension timer is being set, the last of the blocked queue, is still there.

Key definitions: `mutexWeight`, `dispatchWeight`, `takenWeight`, `postWeight`.
Key theorems: `balance_reuse`, `mutex_unique`, `dispatch_unique`, `reach_queued`, `last_blocked`.
-/
import Kiss.Kernel.Flow

namespace Kiss
namespace Kernel

open Kernel.Action Threads

section Balance

variable {cfg : KernelConfig} {ok : Config Planner Action → ℕ × Outcome → Prop}
  {c₀ c c' : Config Planner Action} {x : ℕ × Outcome} {q : ℕ}

/-- What a count becomes where memory is taken again. -/
theorem balance_reuse {m : Planner → ℤ} {w : Action → ℤ}
    (hu : ∀ s prog, m (Planner.recreate s cfg prog q) + load w (movePcbToNew q) ≤ m s + w (ltpNewProcess prog))
    (hx : step (actReuse cfg q) c x = some c') (hg : ∀ k ∈ c.threads, Grounded w k) :
    m c'.state + total w c'.threads ≤ m c.state + total w c.threads := by
  have h1 := balance_step (d := 0) hx hg fun a k e _ he => by
    obtain ⟨-, prog, rfl, rfl⟩ := actReuse_some he
    simpa using hu c.state prog
  omega

/-- A count that no action raises and no text owes. -/
theorem reach_balance [Starts cfg ok c₀] {m : Planner → ℤ} {w : Action → ℤ}
    (ha : ∀ a o s e, act cfg a o s = some e →
      m e.state + (if e.stop then 0 else load w e.next) + total w e.spawn ≤ m s + w a)
    (hu : ∀ q s prog, m (Planner.recreate s cfg prog q) + load w (movePcbToNew q) ≤ m s + w (ltpNewProcess prog))
    (hf : ∀ a l ts, Flow cfg a l ts →
      Suffixes (fun l => 0 ≤ load w l ∨ w a ≤ load w l) l ∧ ∀ t ∈ ts, Grounded w t)
    (hw : ∀ k ∈ (start cfg).threads, Grounded w k) (h : Reach (act cfg) ok c₀ c) :
    m c.state + total w c.threads ≤ m (start cfg).state + total w (start cfg).threads ∧
      ∀ k ∈ c.threads, Grounded w k := by
  refine Starts.inv (I := fun c => m c.state + total w c.threads ≤
    m (start cfg).state + total w (start cfg).threads ∧ ∀ k ∈ c.threads, Grounded w k) h
    ⟨le_refl _, hw⟩ ?_ ?_
  · rintro _ c c' x - - ⟨h1, h2⟩ - hx
    have h3 := balance_step (d := 0) hx h2 fun a k e _ he => by simpa using ha a _ _ e he
    exact ⟨by omega, flow_grounded hx h2 hf⟩
  · rintro _ c c' x q - - ⟨h1, h2⟩ hx
    exact ⟨(balance_reuse (hu q) hx h2).trans h1, reuse_grounded hx h2 hf⟩

end Balance

/-! ### The mutex of the blocked processes -/

/-- A thread between `pthread_mutex_lock` and `pthread_mutex_unlock` weighs 1. -/
def mutexWeight : Action → ℤ
  | mutexLock => -1
  | mutexUnlock => 1
  | _ => 0

attribute [local simp] mutexWeight body in
theorem mutex_act {cfg : KernelConfig} {a : Action} {o : Outcome} {s : Planner}
    {e : Effect Planner Action} (h : act cfg a o s = some e) :
    -(e.state.mtpMutexBlockingProcess.toNat : ℤ) +
      (if e.stop then 0 else load mutexWeight e.next) + total mutexWeight e.spawn ≤
    -(s.mtpMutexBlockingProcess.toNat : ℤ) + mutexWeight a := by
  cases act_branch h
  case loop f => cases f <;> simp [body, mutexWeight]
  case mutexUnlock => simpa [mutexWeight] using Bool.toNat_le s.mtpMutexBlockingProcess
  all_goals simp [mutexWeight, load_ready, load_tail, load_reply, load_timerCall, *]

theorem mutex_flow {cfg : KernelConfig} {a : Action} {l : List Action} {ts : List (List Action)}
    (h : Flow cfg a l ts) : Suffixes (fun l => 0 ≤ load mutexWeight l ∨
      mutexWeight a ≤ load mutexWeight l) l ∧ ∀ t ∈ ts, Grounded mutexWeight t := by
  rcases hc : cfg.algoritmoPlanificacion <;> cases h
  case fifo.loop f | srt.loop f => cases f <;> simp [Suffixes, body, mutexWeight]
  case fifo.callback t | srt.callback t =>
    rcases t with ⟨t, _ | _, q⟩ <;> simp [Suffixes, Timer.call, mutexWeight]
  all_goals
    simp [Grounded, Suffixes, mutexWeight, movePcbToReady, applyReply, dispatchTail, hc]

/-- A thread that holds the mutex holds it until it unlocks. -/
theorem mutex_rest {cfg : KernelConfig} {a : Action} {k l : List Action} {ts : List (List Action)}
    (h : Flow cfg a l ts) (ha : a ≠ mutexUnlock) (h1 : 1 ≤ load mutexWeight (a :: k)) :
    1 ≤ load mutexWeight (l ++ k) := by
  have h2 : mutexWeight a ≤ 0 := by
    cases a <;> first
      | exact absurd rfl ha
      | simp [mutexWeight]
  have h3 := (mutex_flow h).1.self
  rw [load_cons] at h1
  rw [load_append]
  omega

/-! ### The permit of the dispatch -/

/-- The thread that waits for `stp_sem_dispatch`, dispatches, receives the answer
and posts weighs 1 from the wait to the post; `recieveMessageAsync` passes the permit to the
thread it starts. -/
def dispatchWeight : Action → ℤ
  | semWait .stpSemDispatch => -1
  | popReady | recieveMessageAsync | recieveMessage | pushData _ | cpuRecievePcbAsync
  | semPost .stpSemDispatch => 1
  | _ => 0

attribute [local simp] dispatchWeight in
theorem dispatch_act {cfg : KernelConfig} {a : Action} {o : Outcome} {s : Planner}
    {e : Effect Planner Action} (h : act cfg a o s = some e) :
    (e.state.sems .stpSemDispatch : ℤ) + (if e.stop then 0 else load dispatchWeight e.next) +
      total dispatchWeight e.spawn ≤ s.sems .stpSemDispatch + dispatchWeight a := by
  cases act_branch h
  case loop f => cases f <;> simp [body, dispatchWeight]
  case semWait m hm =>
    cases m <;> simp [dispatchWeight]
    omega
  case semPost m => cases m <;> simp [dispatchWeight]
  all_goals simp [dispatchWeight, load_ready, load_tail, load_reply, load_timerCall, *]

theorem dispatch_flow {cfg : KernelConfig} {a : Action} {l : List Action} {ts : List (List Action)}
    (h : Flow cfg a l ts) : Suffixes (fun l => 0 ≤ load dispatchWeight l ∨
      dispatchWeight a ≤ load dispatchWeight l) l ∧ ∀ t ∈ ts, Grounded dispatchWeight t := by
  rcases hc : cfg.algoritmoPlanificacion <;> cases h
  case fifo.loop f | srt.loop f => cases f <;> simp [Suffixes, body, dispatchWeight]
  case fifo.callback t | srt.callback t =>
    rcases t with ⟨t, _ | _, q⟩ <;> simp [Suffixes, Timer.call, dispatchWeight]
  all_goals
    simp [Grounded, Suffixes, dispatchWeight, movePcbToReady, applyReply, dispatchTail, hc]

/-! ### What announces the queues -/

/-- The semaphore that announces the PCBs of a queue. -/
def Queue.sem : Queue → Sem
  | .new | .suspendedReady => .ltpSemPlan
  | .exit => .ltpSemExit
  | .blocked => .mtpSemPlanner
  | .ready => .stpSemPlan

/-- How many PCBs are in the queues a semaphore announces. -/
def Sem.queued (m : Sem) (f : Queue → List ℕ) : ℕ :=
  match m with
  | .ltpSemPlan => (f .new).length + (f .suspendedReady).length
  | .ltpSemExit => (f .exit).length
  | .mtpSemPlanner => (f .blocked).length
  | .stpSemPlan => (f .ready).length
  | _ => 0

/-- The semaphore whose controller does the step between its wait and the pop. -/
def Action.takes : Action → Option Sem
  | newIfSuspendedReady | newIfNew | popSuspendedReady | popNew => some .ltpSemPlan
  | exitIfAny | popExit => some .ltpSemExit
  | popBlocked => some .mtpSemPlanner
  | popReady => some .stpSemPlan
  | _ => none

/-- A controller that has passed its wait on `m` and is to pop weighs 1. -/
def takenWeight (m : Sem) (a : Action) : ℤ :=
  (if a.takes = some m then 1 else 0) - (if a = semWait m then 1 else 0)

/-- A PCB that was put in a queue and is not announced on `m` yet weighs 1. -/
def postWeight (m : Sem) : Action → ℤ
  | push q _ => if q.sem = m then -1 else 0
  | insertInOrder _ => if Queue.ready.sem = m then -1 else 0
  | semPost m' => if m' = m then 1 else 0
  | _ => 0

@[simp] theorem length_squeueInsertInOrder (before : ℕ → Bool) (p : ℕ) : ∀ l : List ℕ,
    (squeueInsertInOrder before p l).length = l.length + 1
  | [] => rfl
  | q :: l => by
    unfold squeueInsertInOrder
    split
    · simp
    · simp [length_squeueInsertInOrder before p l]

/-- A queue gains or loses PCBs for its semaphore alone. -/
theorem queued_update (m : Sem) (f : Queue → List ℕ) (q : Queue) (l : List ℕ) :
    (m.queued (Function.update f q l) : ℤ) =
      m.queued f + if q.sem = m then (l.length : ℤ) - (f q).length else 0 := by
  cases m <;> cases q <;> simp [Sem.queued, Queue.sem]
  ring

/-- The semaphores that announce a queue. -/
def Sem.Announces (m : Sem) : Prop := ∃ q : Queue, q.sem = m

theorem Sem.Announces.ne {m : Sem} (h : m.Announces) : Sem.ltpSemMultiprogrammingLevel ≠ m ∧
    Sem.mtpSemIo ≠ m ∧ Sem.stpSemInterrupt ≠ m ∧ Sem.stpSemDispatch ≠ m := by
  obtain ⟨q, rfl⟩ := h
  cases q <;> simp [Queue.sem]

attribute [local simp] Action.takes takenWeight postWeight in
theorem queued_act {cfg : KernelConfig} {a : Action} {o : Outcome} {s : Planner}
    {e : Effect Planner Action} {m : Sem} (hm : m.Announces) (h : act cfg a o s = some e) :
    (e.state.sems m : ℤ) - m.queued e.state.queues +
      (if e.stop then 0 else load (fun a => takenWeight m a + postWeight m a) e.next) +
      total (fun a => takenWeight m a + postWeight m a) e.spawn ≤
    s.sems m - m.queued s.queues + (takenWeight m a + postWeight m a) := by
  obtain ⟨h1, h2, h3, h4⟩ := hm.ne
  cases act_branch h
  case loop f =>
    cases f <;> simp [body, h2, h4]
    split_ifs <;> simp
  case semWait m' hm | semPost m' =>
    by_cases h : m' = m
    · subst h
      simp
      omega
    · simp [h, Function.update_of_ne (Ne.symm h)]
  case push q _ => simp [queued_update]; split_ifs <;> omega
  case insertInOrder => simp [queued_update]; split_ifs <;> omega
  case popReady hq | popBlocked hq | popNew hq | popExit hq =>
    simp [hq, queued_update, Queue.sem]
    grind
  case popSuspendedReady hq =>
    simp [hq, queued_update, load_ready, Queue.sem]
    grind
  all_goals
    simp [load_ready, load_tail, load_reply, load_timerCall, Queue.sem, *]
  all_goals grind

attribute [local simp] Action.takes takenWeight in
theorem taken_flow {cfg : KernelConfig} {a : Action} {l : List Action} {ts : List (List Action)}
    {m : Sem} (hm : m.Announces) (h : Flow cfg a l ts) :
    Suffixes (fun l => 0 ≤ load (takenWeight m) l ∨ takenWeight m a ≤ load (takenWeight m) l) l ∧
      ∀ t ∈ ts, Grounded (takenWeight m) t := by
  obtain ⟨h1, h2, h3, h4⟩ := hm.ne
  rcases hc : cfg.algoritmoPlanificacion <;> cases h
  case fifo.loop f | srt.loop f => cases f <;> simp [Suffixes, body] <;> grind
  case fifo.callback t | srt.callback t => rcases t with ⟨t, _ | _, q⟩ <;> simp [Suffixes, Timer.call]
  all_goals
    simp [Grounded, Suffixes, movePcbToReady, applyReply, dispatchTail, hc, h3]

attribute [local simp] postWeight in
theorem post_flow {cfg : KernelConfig} {a : Action} {l : List Action} {ts : List (List Action)}
    (m : Sem) (h : Flow cfg a l ts) :
    Suffixes (fun l => 0 ≤ load (postWeight m) l ∨ postWeight m a ≤ load (postWeight m) l) l ∧
      ∀ t ∈ ts, Grounded (postWeight m) t := by
  rcases hc : cfg.algoritmoPlanificacion <;> cases h
  case fifo.loop f | srt.loop f => cases f <;> simp [Suffixes, body]
  case fifo.callback t | srt.callback t =>
    rcases t with ⟨t, _ | _, q⟩ <;> simp [Suffixes, Timer.call]
    split_ifs <;> simp
  all_goals
    simp [Grounded, Suffixes, movePcbToReady, applyReply, dispatchTail, Queue.sem, hc]
  all_goals grind

section Reach

variable {cfg : KernelConfig} {ok : Config Planner Action → ℕ × Outcome → Prop}
  {c₀ c c' : Config Planner Action} {x : ℕ × Outcome} {m : Sem} [Starts cfg ok c₀]

/-- Two different threads do not both weigh 1 where all weigh 1 at most. -/
theorem permit_unique {w : Action → ℤ} (h1 : total w c.threads ≤ 1)
    (hg : ∀ k ∈ c.threads, Grounded w k) {i j : ℕ} {k l : List Action} (hi : c.threads[i]? = some k)
    (hj : c.threads[j]? = some l) (hk : 1 ≤ load w k) (hl : 1 ≤ load w l) : i = j := by
  by_contra hij
  have := add_le_total (fun t ht => (hg t ht).nonneg) hi hj hij
  omega

theorem reach_mutex (h : Reach (act cfg) ok c₀ c) :
    total mutexWeight c.threads ≤ 1 ∧ ∀ k ∈ c.threads, Grounded mutexWeight k := by
  have h1 := reach_balance (m := fun s => -(s.mtpMutexBlockingProcess.toNat : ℤ))
    (fun _ _ _ _ => mutex_act) (by simp [Planner.recreate, mutexWeight]) (fun _ _ _ => mutex_flow)
    (by simp [start, Grounded, Suffixes, mutexWeight]) h
  refine ⟨?_, h1.2⟩
  have h2 : total mutexWeight (start cfg).threads = 0 := rfl
  have h3 := h1.1
  rw [h2] at h3
  have h4 := Bool.toNat_le c.state.mtpMutexBlockingProcess
  simp only [start, Bool.toNat_false] at h3
  omega

theorem reach_dispatch (h : Reach (act cfg) ok c₀ c) :
    (c.state.sems .stpSemDispatch : ℤ) + total dispatchWeight c.threads ≤ 1 ∧
      ∀ k ∈ c.threads, Grounded dispatchWeight k :=
  reach_balance (m := fun s => (s.sems .stpSemDispatch : ℤ)) (fun _ _ _ _ => dispatch_act)
    (by simp [Planner.recreate, dispatchWeight]) (fun _ _ _ => dispatch_flow)
    (by simp [start, Grounded, Suffixes, dispatchWeight]) h

/-- A semaphore is never ahead of what its queues hold, with what its controller
has taken and what is not announced yet. -/
theorem reach_queued (hm : m.Announces) (h : Reach (act cfg) ok c₀ c) :
    (c.state.sems m : ℤ) + total (takenWeight m) c.threads + total (postWeight m) c.threads ≤
      m.queued c.state.queues ∧
    ∀ k ∈ c.threads, Grounded (takenWeight m) k ∧ Grounded (postWeight m) k := by
  refine Starts.inv (I := fun c => (c.state.sems m : ℤ) + total (takenWeight m) c.threads +
      total (postWeight m) c.threads ≤ m.queued c.state.queues ∧
    ∀ k ∈ c.threads, Grounded (takenWeight m) k ∧ Grounded (postWeight m) k) h ?_ ?_ ?_
  · obtain ⟨q, rfl⟩ := hm
    refine ⟨?_, ?_⟩
    · cases q <;> simp [start, Queue.sem, Sem.queued, takenWeight, postWeight, Action.takes]
    · simp [start, Grounded, Suffixes, takenWeight, postWeight, Action.takes]
  · rintro _ c c' x - - ⟨h1, h2⟩ - hx
    have h3 := balance_step (m := fun s => (s.sems m : ℤ) - m.queued s.queues) (d := 0) hx
      (fun k hk => grounded_add (h2 k hk).1 (h2 k hk).2) fun a k e _ he => by
        simpa using queued_act hm he
    have h4 := flow_grounded hx (fun k hk => (h2 k hk).1) fun _ _ _ => taken_flow hm
    have h5 := flow_grounded hx (fun k hk => (h2 k hk).2) fun _ _ _ => post_flow m
    refine ⟨?_, fun k hk => ⟨h4 k hk, h5 k hk⟩⟩
    rw [total_add, total_add] at h3
    omega
  · -- the process goes to the queue of new ones like any other
    rintro _ c c' x q - - ⟨h1, h2⟩ hx
    have h3 := balance_reuse (m := fun s => (s.sems m : ℤ) - m.queued s.queues)
      (w := fun a => takenWeight m a + postWeight m a) (fun s prog => by
        cases m <;> simp [Planner.recreate, takenWeight, postWeight, Action.takes, Queue.sem]) hx
      fun k hk => grounded_add (h2 k hk).1 (h2 k hk).2
    have h4 := reuse_grounded hx (fun k hk => (h2 k hk).1) fun _ _ _ => taken_flow hm
    have h5 := reuse_grounded hx (fun k hk => (h2 k hk).2) fun _ _ _ => post_flow m
    refine ⟨?_, fun k hk => ⟨h4 k hk, h5 k hk⟩⟩
    rw [total_add, total_add] at h3
    omega

/-- What a controller is about to take is there. -/
theorem queued_pos (hm : m.Announces) (h : Reach (act cfg) ok c₀ c) {a : Action}
    {k : List Action} (hk : a :: k ∈ c.threads) (ha : a.takes = some m) :
    0 < m.queued c.state.queues := by
  obtain ⟨h1, h2⟩ := reach_queued hm h
  have h3 := le_total (fun t ht => (h2 t ht).1.nonneg) hk
  have h4 := (h2 _ hk).1.tail.self
  have h5 := total_nonneg fun t ht => (h2 t ht).2.nonneg
  have h6 : takenWeight m a = 1 := by
    unfold takenWeight
    rw [if_pos ha, if_neg (by rintro rfl; cases ha)]
    rfl
  rw [load_cons, h6] at h3
  omega

/-- The short-term controller never pops an empty queue. -/
theorem ready_ne_nil (h : Reach (act cfg) ok c₀ c)
    (hk : [popReady, loop .stp] ∈ c.threads) : c.state.queues .ready ≠ [] := by
  have := queued_pos (m := .stpSemPlan) ⟨.ready, rfl⟩ h hk rfl
  exact List.length_pos_iff.mp this

/-- Two different threads do not both hold the mutex. -/
theorem mutex_unique (h : Reach (act cfg) ok c₀ c) {i j : ℕ} {k l : List Action}
    (hi : c.threads[i]? = some k) (hj : c.threads[j]? = some l) (hk : 1 ≤ load mutexWeight k)
    (hl : 1 ≤ load mutexWeight l) : i = j :=
  permit_unique (reach_mutex h).1 (reach_mutex h).2 hi hj hk hl

/-- Two different threads do not both hold the permit of the dispatch. -/
theorem dispatch_unique (h : Reach (act cfg) ok c₀ c) {i j : ℕ} {k l : List Action}
    (hi : c.threads[i]? = some k) (hj : c.threads[j]? = some l) (hk : 1 ≤ load dispatchWeight k)
    (hl : 1 ≤ load dispatchWeight l) : i = j := by
  have h1 := reach_dispatch h
  exact permit_unique (by omega) h1.2 hi hj hk hl

/-- The thread is setting the suspension timer of `p`. -/
def Arming (p : ℕ) (k : List Action) : Prop :=
  k.head? = some (setSuspendTimer p) ∨ ∃ t, k.head? = some (startSuspendTimer t p)

theorem afterSwitch_dispatch (p : ℕ) : load dispatchWeight (afterSwitch cfg p) = 1 := by
  unfold afterSwitch dispatchTail
  split <;> rfl

theorem afterSwitch_post (p : ℕ) : load (postWeight .mtpSemPlanner) (afterSwitch cfg p) = 0 := by
  unfold afterSwitch dispatchTail
  split <;> rfl

/-- What a thread that is setting a suspension timer does next. -/
theorem Arming.shape {p : ℕ} {k : List Action} (ha : Arming p k) (hk : Suffixes (Shape cfg) k) :
    ∃ a, k = a :: semPost .mtpSemPlanner :: afterSwitch cfg p ∧ a.inner = true ∧
      load dispatchWeight k = 1 ∧ load (postWeight .mtpSemPlanner) k = 1 := by
  rcases k with _ | ⟨a, k⟩
  · simp [Arming] at ha
  have h1 := hk.self
  simp only [Arming, List.head?_cons, Option.some.injEq] at ha
  rcases ha with rfl | ⟨t, rfl⟩ <;>
  · simp only [Shape] at h1
    subst h1
    simp [dispatchWeight, postWeight, afterSwitch_dispatch, afterSwitch_post]

/-- The blocked queue changes by a push at the end and a pop at the front. -/
theorem act_blocked {a : Action} {o : Outcome} {s : Planner} {e : Effect Planner Action}
    (h : act cfg a o s = some e) :
    (∃ q, a = push .blocked q ∧ e.state.queues .blocked = s.queues .blocked ++ [q]) ∨
    (a = popBlocked ∧ e.state.queues .blocked = (s.queues .blocked).tail) ∨
    (∀ q, a ≠ push .blocked q) ∧ e.state.queues .blocked = s.queues .blocked := by
  cases act_branch h
  case push q r => cases q <;> simp
  all_goals simp [*]

/-- What goes before a step in the middle of a call. -/
theorem inner_tail {a : Action} {k : List Action} (hk : Shape cfg (a :: k)) (hn : ¬ Plain k) :
    (∃ p, a = push .blocked p ∨ a = setExec p ∨ a = sendPcb p) ∨ a = setBusy true := by
  have he : ∀ l, Plain l → k ≠ l := by
    rintro l hl rfl
    exact hn hl
  cases a
  case push q r =>
    cases q
    case blocked => exact Or.inl ⟨r, Or.inl rfl⟩
    all_goals exact absurd hk hn
  case setExec r | sendPcb r => simp
  case assign r f =>
    cases f
    case status st =>
      cases st <;> simp only [Shape] at hk <;> first
        | exact absurd hk hn
        | (obtain ⟨t, hk⟩ := hk; exact absurd hk (he _ (by simp)))
        | exact absurd hk (he _ (by simp))
    case timerSuspendedBlocked =>
      obtain ⟨t, hk⟩ := hk
      exact absurd hk (he _ (by simp))
    all_goals exact absurd hk hn
  case semWait m | semPost m =>
    cases m <;> first
      | exact absurd hk hn
      | exact absurd hk (he _ (by simp))
      | (rcases hk with hk | ⟨q, k', hk⟩ <;> exact absurd hk (he _ (by simp)))
      | (obtain ⟨t, hk⟩ := hk; exact absurd hk (he _ (by simp)))
  case haltBreak => exact absurd hk.1 hn
  case mutexLock =>
    obtain ⟨⟨t, _ | _, q⟩, hk⟩ := hk <;> exact absurd hk (he _ (by simp [Timer.call]))
  case setBusy b =>
    cases b
    · obtain ⟨r, hk⟩ := hk
      exact absurd hk (he _ (by simp))
    · exact Or.inr rfl
  all_goals first
    | exact absurd hk hn
    | exact absurd hk (he _ (by simp))
    | (obtain ⟨t, hk⟩ := hk; exact absurd hk (he _ (by simp)))

/-- Only the push on the blocked queue goes before setting the timer. -/
theorem arming_tail {p : ℕ} {a : Action} {k : List Action} (hk : Shape cfg (a :: k))
    (ha : Arming p k) : a = push .blocked p := by
  rcases inner_tail hk fun hn => by
    rcases ha with ha | ⟨t, ha⟩ <;> simpa using hn _ ha with ⟨q, rfl | rfl | rfl⟩ | rfl <;>
  · simp only [Shape] at hk
    subst hk
    simp_all [Arming]

/-- Only `setSuspendTimer` expands to steps that set a timer. -/
theorem arming_flow {p : ℕ} {a : Action} {k l : List Action} {ts : List (List Action)}
    (h : Flow cfg a l ts) (hl : l ≠ []) (ha : Arming p (l ++ k)) : a = setSuspendTimer p := by
  rcases hc : cfg.algoritmoPlanificacion <;> cases h
  case fifo.loop f | srt.loop f => cases f <;> simp [Arming, body] at ha
  case fifo.callback t | srt.callback t =>
    rcases t with ⟨t, _ | _, q⟩ <;> simp [Arming, Timer.call] at ha
  all_goals simp_all [Arming, movePcbToReady, applyReply]

/-- The PCB whose suspension timer is being set is the last of the blocked queue. -/
theorem last_blocked (h : Reach (act cfg) ok (start cfg) c) :
    ∀ k ∈ c.threads, ∀ p, Arming p k → (c.state.queues .blocked).getLast? = some p := by
  induction h with
  | start => simp [start, Arming]
  | @step c c' x hr _ hx ih =>
    have hs := reach_shape hr
    obtain ⟨a, k, e, hk, he, rfl⟩ := step_some hx
    have hm := List.mem_of_getElem? hk
    have hak := hs _ hm
    intro k' hk' p hp
    rcases mem_threads hk' with ⟨j, hj, hkj⟩ | rfl | h
    · -- another thread's PCB is last: nobody else pushes, and a pop leaves it
      have hlast := ih k' (List.mem_of_getElem? hkj) p hp
      obtain ⟨b, rfl, -, hd, hb⟩ := hp.shape (hs _ (List.mem_of_getElem? hkj))
      rcases act_blocked he with ⟨q, rfl, -⟩ | ⟨rfl, hq⟩ | hq
      · have h1 := hak.self
        simp only [Shape] at h1
        subst h1
        have := dispatch_unique hr hk hkj
          (by simp [dispatchWeight, afterSwitch_dispatch]) (by omega)
        exact absurd this.symm hj
      · have h1 := hak.self
        simp only [Shape] at h1
        subst h1
        obtain ⟨htot, hg⟩ := reach_queued (m := .mtpSemPlanner) ⟨.blocked, rfl⟩ hr
        have htaken := le_total (fun t ht => (hg t ht).1.nonneg) hm
        have hpost := le_total (fun t ht => (hg t ht).2.nonneg) (List.mem_of_getElem? hkj)
        rw [hb] at hpost
        simp only [load_cons, load_nil, takenWeight, Action.takes, Sem.queued] at htaken htot
        simp only [hq]
        rcases hl : c.state.queues .blocked with _ | ⟨q, _ | ⟨q', l⟩⟩
        · simp [hl] at hlast
        · rw [hl] at htot
          simp at htaken htot
          omega
        · simpa [hl] using hlast
      · simp only [hq.2]
        exact hlast
    · unfold Effect.rest at hp
      split at hp
      · simp [Arming] at hp
      · by_cases hn : e.next = []
        · rw [hn, List.nil_append] at hp
          obtain rfl := arming_tail hak.self hp
          rcases act_blocked he with ⟨q, hq, h1⟩ | ⟨hq, -⟩ | hq
          · cases hq
            simp [h1]
          · cases hq
          · exact absurd rfl (hq.1 p)
        · obtain rfl := arming_flow (act_flow he) hn hp
          have hlast := ih _ hm p (Or.inl rfl)
          rcases act_blocked he with ⟨q, hq, h1⟩ | ⟨hq, -⟩ | hq
          · cases hq
          · cases hq
          · simp only [hq.2]
            exact hlast
    · have hf := act_flow he
      generalize e.spawn = ts at h hf
      generalize e.next = l at hf
      cases hf <;> simp_all [Arming]

end Reach

end Kernel
end Kiss
