/-
# No semaphore runs ahead of its queue

Each controller waits on a semaphore that is posted once for each PCB put in its
queue, after the PCB is there (`ltp_sem_plan` announces two queues). So in every
run the semaphore and a controller that has passed its wait count no more PCBs
than there are (`reach_announced`): `squeue_pop` never returns `NULL`, and the
branches for an empty queue are not taken.

The long-term controller looks at `suspended_ready` first. While it is about to
look at `new` or to pop, nobody else takes a PCB out of either.

Key definitions: `Taken`, `Announced`, `loopWeight`, `Found`.
Key theorems: `reach_found`, `reach_announced`.
-/
import Kiss.Kernel.Cancellation

namespace Kiss
namespace Kernel

open Kernel.Action Threads

/-! ### What is promised -/

/-- The thread has passed its wait on `m` and has not popped yet. -/
def Taken (m : Sem) (k : List Action) : Bool :=
  k.any (fun a => a.takes = some m) && !k.contains (semWait m)

/-- The call of `squeue_pop` on a queue. -/
def Queue.pop : Queue → Action
  | .new => popNew
  | .ready => popReady
  | .blocked => popBlocked
  | .suspendedReady => popSuspendedReady
  | .exit => popExit

/-- The semaphores are not ahead of the queues. -/
structure Announced (c : Config Planner Action) : Prop where
  ltpPlan : c.state.sems .ltpSemPlan + c.threads.countP (Taken .ltpSemPlan) ≤
    (c.state.queues .new).length + (c.state.queues .suspendedReady).length
  ltpExit : c.state.sems .ltpSemExit + c.threads.countP (Taken .ltpSemExit) ≤
    (c.state.queues .exit).length
  mtpPlanner : c.state.sems .mtpSemPlanner + c.threads.countP (Taken .mtpSemPlanner) ≤
    (c.state.queues .blocked).length
  stpPlan : c.state.sems .stpSemPlan + c.threads.countP (Taken .stpSemPlan) ≤
    (c.state.queues .ready).length
  /-- `squeue_pop` does not return `NULL`. -/
  pops : ∀ q, ∀ k ∈ c.threads, k.head? = some q.pop → c.state.queues q ≠ []
  /-- The long-term controller does not take its branch for empty queues. -/
  new : ∀ k ∈ c.threads, k.head? = some newIfNew → c.state.queues .new ≠ []
  /-- Nor does the exit controller. -/
  exit : ∀ k ∈ c.threads, k.head? = some exitIfAny → c.state.queues .exit ≠ []

/-! ### One controller of each kind -/

/-- The controller `f`, up to the end of its loop's body, weighs 1. -/
def loopWeight (f : Controller) (a : Action) : ℤ := if a = loop f then 1 else 0

theorem loopWeight_nonneg (f : Controller) (a : Action) : 0 ≤ loopWeight f a := by
  unfold loopWeight
  split_ifs <;> omega

attribute [local simp] loopWeight in
theorem loop_flow {cfg : KernelConfig} {f : Controller} {a : Action} {l : List Action}
    {ts : List (List Action)} (h : Flow cfg a l ts) :
    load (loopWeight f) l + total (loopWeight f) ts ≤ loopWeight f a := by
  cases h
  case done => simpa using loopWeight_nonneg f a
  case loop g => cases g <;> cases f <;> simp [body]
  all_goals simp [load_ready, load_tail, load_reply, load_timerCall]

/-- Only the start of its loop leads to a controller's loop. -/
theorem loop_mem_flow {cfg : KernelConfig} {a : Action} {l : List Action} {ts : List (List Action)}
    {f : Controller} (h : Flow cfg a l ts) : (loop f ∈ l → a = loop f) ∧ ∀ t ∈ ts, loop f ∉ t := by
  rcases hc : cfg.algoritmoPlanificacion <;> cases h
  case fifo.loop g | srt.loop g => cases g <;> cases f <;> simp [body]
  case fifo.callback t | srt.callback t => rcases t with ⟨t, _ | _, q⟩ <;> simp [Timer.call]
  all_goals simp [movePcbToReady, applyReply, dispatchTail, hc]

section Reach

variable {cfg : KernelConfig} {ok : Config Planner Action → ℕ × Outcome → Prop}
  {c₀ c : Config Planner Action} {m : Sem} {k l : List Action} [Starts cfg ok c₀]

theorem reach_loop (f : Controller) (h : Reach (act cfg) ok c₀ c) :
    total (loopWeight f) c.threads ≤ 1 := by
  have hg := fun k (_ : k ∈ (start cfg).threads) => grounded_of_nonneg (loopWeight_nonneg f) k
  have h1 := (reach_balance (m := fun _ => 0) (fun a o s e he => ?_) (by simp [loopWeight])
    (fun a l _ _ => ⟨(grounded_of_nonneg (loopWeight_nonneg f) l).imp fun _ => Or.inl,
      fun k _ => grounded_of_nonneg (loopWeight_nonneg f) k⟩) hg h).1
  · have h2 : total (loopWeight f) (start cfg).threads = 1 := by
      cases f <;> simp [start, loopWeight]
    omega
  · have h3 := loop_flow (f := f) (act_flow he)
    have h4 := (grounded_of_nonneg (loopWeight_nonneg f) e.next).nonneg
    have h5 := total_nonneg fun k (_ : k ∈ e.spawn) =>
      (grounded_of_nonneg (loopWeight_nonneg f) k).nonneg
    split_ifs <;> omega

theorem loop_load {f : Controller} (h : loop f ∈ k) : 1 ≤ load (loopWeight f) k := by
  have h1 : loopWeight f (loop f) = 1 := by simp [loopWeight]
  rw [← h1]
  exact List.single_le_sum (by simp [loopWeight_nonneg]) _ (List.mem_map_of_mem h)

/-- There is one controller of each kind. -/
theorem loop_unique (h : Reach (act cfg) ok c₀ c) {f : Controller} {i j : ℕ}
    (hi : c.threads[i]? = some k) (hj : c.threads[j]? = some l) (hk : loop f ∈ k)
    (hl : loop f ∈ l) : i = j :=
  permit_unique (reach_loop f h) (fun k _ => grounded_of_nonneg (loopWeight_nonneg f) k) hi hj
    (loop_load hk) (loop_load hl)

/-! ### What the long-term controller has found -/

/-- The queue the long-term controller has seen is not empty. -/
def Found (s : Planner) : List Action → Prop
  | newIfNew :: _ | popNew :: _ => s.queues .new ≠ []
  | popSuspendedReady :: _ => s.queues .suspendedReady ≠ []
  | _ => True

/-- Only the long-term controller takes PCBs out of its queues. -/
theorem long_act {a : Action} {o : Outcome} {s : Planner} {e : Effect Planner Action}
    (h : act cfg a o s = some e) : a = popNew ∨ a = popSuspendedReady ∨
      (s.queues .new ≠ [] → e.state.queues .new ≠ []) ∧
      (s.queues .suspendedReady ≠ [] → e.state.queues .suspendedReady ≠ []) := by
  cases act_branch h
  case push q r => cases q <;> simp
  all_goals simp

/-- The steps that follow a look at the queues. -/
@[simp] def Action.looked : Action → Bool
  | newIfNew | popNew | popSuspendedReady => true
  | _ => false

theorem found_of_head {s : Planner} {k : List Action} (h : ∀ b ∈ k.head?, b.looked = false) :
    Found s k := by
  rcases k with _ | ⟨b, k⟩
  · trivial
  · have h1 := h b rfl
    cases b <;> trivial

/-- Only a look leads to them. -/
theorem looked_flow {a : Action} {l : List Action} {ts : List (List Action)} (h : Flow cfg a l ts) :
    (∀ b ∈ l.tail, b.looked = false) ∧ (∀ t ∈ ts, ∀ b ∈ t, b.looked = false) ∧
    (a ≠ newIfSuspendedReady → a ≠ newIfNew → ∀ b ∈ l, b.looked = false) := by
  rcases hc : cfg.algoritmoPlanificacion <;> cases h
  case fifo.loop f | srt.loop f => cases f <;> simp [body]
  case fifo.callback t | srt.callback t => rcases t with ⟨t, _ | _, q⟩ <;> simp [Timer.call]
  all_goals simp [movePcbToReady, applyReply, dispatchTail, hc]

theorem reach_looked (h : Reach (act cfg) ok c₀ c) :
    ∀ k ∈ c.threads, ∀ b ∈ k.tail, b.looked = false := by
  have hf : ∀ a k l ts, (∀ b ∈ (a :: k).tail, b.looked = false) → Flow cfg a l ts →
      (∀ b ∈ (l ++ k).tail, b.looked = false) ∧ ∀ t ∈ ts, ∀ b ∈ t.tail, b.looked = false := by
    intro a k l ts hk hf
    obtain ⟨h1, h2, -⟩ := looked_flow hf
    refine ⟨fun b hb => ?_, fun t ht b hb => h2 t ht b (List.mem_of_mem_tail hb)⟩
    rcases l with _ | ⟨a', l⟩
    · exact hk b (List.mem_of_mem_tail hb)
    · rcases List.mem_append.mp hb with hb | hb
      · exact h1 b hb
      · exact hk b hb
  refine Starts.inv (I := fun c => ∀ k ∈ c.threads, ∀ b ∈ k.tail, b.looked = false) h ?_ ?_ ?_
  · simp [start]
  · exact fun _ _ _ _ _ _ hc _ hx => flow_threads hx hc (by simp) hf
  · exact fun _ _ _ _ _ _ _ hc hx => reuse_threads hx hc (by simp) hf

theorem reach_found (h : Reach (act cfg) ok c₀ c) :
    ∀ k ∈ c.threads, 1 ≤ load (loopWeight .ltpNew) k → Found c.state k := by
  refine Starts.inv (I := fun c => ∀ k ∈ c.threads, 1 ≤ load (loopWeight .ltpNew) k → Found c.state k) h ?_ ?_ ?_
  · simp [start, Found]
  · intro c₁ c c' x _ hr ih _ hx
    have hg := fun k (_ : k ∈ c.threads) =>
      (grounded_of_nonneg (loopWeight_nonneg .ltpNew) k).nonneg
    refine hold_step hx hg (reach_loop .ltpNew hr) ih (fun a k e hk he => ?_)
      fun a k e hk he hw t _ _ ht => ?_
    · have hm := List.mem_of_getElem? hk
      have hs := (reach_shape hr _ hm).self
      have hl := reach_looked hr _ hm
      obtain ⟨-, h2, h3⟩ := looked_flow (act_flow he)
      refine ⟨fun hw => ?_, fun t ht _ => found_of_head fun b hb => h2 t ht b (List.mem_of_head? hb)⟩
      clear hw
      by_cases ha : a = newIfSuspendedReady ∨ a = newIfNew
      · have hq := queued_pos (m := .ltpSemPlan) ⟨.new, rfl⟩ hr hm (by rcases ha with rfl | rfl <;> rfl)
        rcases ha with rfl | rfl <;> cases act_branch he
        case newIfSuspendedReady hsr =>
          simp only [Sem.queued, hsr, List.length_nil, Nat.add_zero] at hq
          exact List.length_pos_iff.mp hq
        case isSuspendedReady hsr => exact hsr
        case isNew hn => exact hn
        case noneNew =>
          simp only [Shape] at hs
          simp [Effect.rest, hs, Found]
      · obtain ⟨h4, h5⟩ := not_or.mp ha
        refine found_of_head fun b hb => ?_
        unfold Effect.rest at hb
        split at hb
        · cases hb
        · rcases List.mem_append.mp (List.mem_of_head? hb) with hb | hb
          · exact h3 h4 h5 b hb
          · exact hl b hb
    · -- another thread takes nothing out of the two queues
      rcases long_act he with rfl | rfl | ⟨h1, h2⟩
      · have hs := (reach_shape hr _ (List.mem_of_getElem? hk)).self
        simp only [Shape] at hs
        simp [hs, loopWeight] at hw
      · have hs := (reach_shape hr _ (List.mem_of_getElem? hk)).self
        simp only [Shape] at hs
        simp [hs, loopWeight] at hw
      · unfold Found at ht ⊢
        split <;> simp_all
  · -- nor does the thread that creates a process
    intro c₁ c c' x q _ hr ih hx
    obtain ⟨a, k, e, hk, he, rfl⟩ := step_some hx
    obtain ⟨-, prog, rfl, rfl⟩ := actReuse_some he
    intro k' hk' hw
    rcases mem_threads hk' with ⟨j, -, hj⟩ | rfl | hk'
    · exact ih k' (List.mem_of_getElem? hj) hw
    · exact found_of_head (by simp [Effect.rest])
    · cases hk'

/-! ### The promise -/

/-- A controller that has passed its wait weighs 1. -/
theorem taken_load : ∀ {k : List Action}, semWait m ∉ k →
    0 ≤ load (takenWeight m) k ∧ (k.any (fun a => a.takes = some m) = true →
      1 ≤ load (takenWeight m) k)
  | [], _ => by simp
  | a :: k, h => by
    obtain ⟨h1, h2⟩ := not_or.mp (mt List.mem_cons.mpr h)
    obtain ⟨h3, h4⟩ := taken_load h2
    have h5 : takenWeight m a = if a.takes = some m then 1 else 0 := by
      simp [takenWeight, Ne.symm h1]
    rw [load_cons, h5, List.any_cons, Bool.or_eq_true, decide_eq_true_eq]
    refine ⟨by split_ifs <;> omega, fun h6 => ?_⟩
    split_ifs with h7
    · omega
    · have := h4 (h6.resolve_left h7)
      omega

theorem taken_le (hm : m.Announces) (h : Reach (act cfg) ok c₀ c) :
    c.state.sems m + c.threads.countP (Taken m) ≤ m.queued c.state.queues := by
  obtain ⟨h1, h2⟩ := reach_queued hm h
  have h3 := total_nonneg fun t ht => (h2 t ht).2.nonneg
  have h4 := countP_le_total (Taken m) (takenWeight m) fun k hk =>
    ⟨(h2 k hk).1.nonneg, fun ht => by
      obtain ⟨h5, h6⟩ := Bool.and_eq_true_iff.mp ht
      exact (taken_load (by simpa using h6)).2 h5⟩
  omega

/-- No interleaving lets a semaphore run ahead of its queue, from the start of the kernel or from
where it has given the memory of a PCB to another process. -/
theorem reach_announced (h : Reach (act cfg) ok c₀ c) : Announced c where
  ltpPlan := taken_le (m := .ltpSemPlan) ⟨.new, rfl⟩ h
  ltpExit := taken_le (m := .ltpSemExit) ⟨.exit, rfl⟩ h
  mtpPlanner := taken_le (m := .mtpSemPlanner) ⟨.blocked, rfl⟩ h
  stpPlan := taken_le (m := .stpSemPlan) ⟨.ready, rfl⟩ h
  pops q k hk hh := by
    obtain ⟨l, rfl⟩ : ∃ l, k = q.pop :: l := List.head?_eq_some_iff.mp hh
    have hs := (reach_shape h _ hk).self
    have hf := reach_found h _ hk
    have hq := queued_pos (m := q.sem) ⟨q, rfl⟩ h hk (by cases q <;> rfl)
    cases q
    case new | suspendedReady =>
      simp only [Queue.pop, Shape] at hs
      exact hf (by simp [hs, Queue.pop, loopWeight])
    all_goals exact List.length_pos_iff.mp hq
  new k hk hh := by
    obtain ⟨l, rfl⟩ := List.head?_eq_some_iff.mp hh
    have hs := (reach_shape h _ hk).self
    simp only [Shape] at hs
    exact reach_found h _ hk (by simp [hs, loopWeight])
  exit k hk hh := by
    obtain ⟨l, rfl⟩ := List.head?_eq_some_iff.mp hh
    exact List.length_pos_iff.mp (queued_pos (m := .ltpSemExit) ⟨.exit, rfl⟩ h hk rfl)

end Reach

/-- The run in which process 1 is suspended while it is blocked. -/
theorem reach_announced_suspendRun : ∃ c, Reach (act (exampleConfig .fifo)) (fun _ _ => True)
    (start (exampleConfig .fifo)) c ∧ c.state.queues .suspendedReady = [1] ∧ Announced c := by
  have h1 : (run (act (exampleConfig .fifo)) (fun _ _ => true) (start (exampleConfig .fifo))
      suspendRun).map (fun c => c.state.queues .suspendedReady) = some [1] := by
    decide +kernel
  obtain ⟨c, hc, h2⟩ := Option.map_eq_some_iff.mp h1
  have hr := reach_of_run (fun _ _ _ => trivial) Reach.start hc
  exact ⟨c, hr, h2, reach_announced hr⟩

end Kernel
end Kiss
