/-
# No wake-up is lost

The planner dereferences no `NULL` (`reach_notCrashed`): the controllers find what they
pop, and `planner->exec` is set for as long as a PCB is out. So until it halts no
controller stops, and what `Announced` bounds is exact (`reach_exact`): a PCB in a queue
is announced on its semaphore, or its controller has passed the wait for it, or the
thread that put it there is about to post. No PCB waits in a queue unannounced.

Key definitions: `outPhases`, `Awake`.
Key theorems: `reach_notCrashed`, `reach_exact`, `reach_awake`.
-/
import Kiss.Progress
import Kiss.Kernel.Announced
import Kiss.Kernel.Cycle

namespace Kiss
namespace Kernel

open Kernel.Action Threads

/-! ### No `NULL` -/

/-- `planner->exec` is set while a PCB is out, and only then. -/
def outPhases : Phases where
  idle v := v.exec = none
  sending _ v := v.exec ≠ none
  sent v := v.exec ≠ none
  awaiting v := v.exec ≠ none
  received _ v := v.exec ≠ none
  queued v := v.exec ≠ none
  replied _ v := v.exec ≠ none
  taking _ v := v.exec ≠ none
  erring v := v.exec ≠ none

theorem outPhases_rules (ok : Config Planner Action → ℕ × Outcome → Prop) : outPhases.Rules ok where
  sets _ _ _ := Option.some_ne_none _
  sends _ _ _ _ _ _ h _ := h
  notSends _ _ _ _ _ _ h _ := h
  marks _ h := h
  recieves _ _ _ _ h _ _ _ _ := h
  pushes _ _ h := h
  replies _ _ _ h _ _ := h
  others _ _ _ h _ _ _ := h
  errs _ h _ := h
  frees _ _ h := h
  takes _ _ _ := rfl
  fails _ _ := rfl

section Reach

variable {cfg : KernelConfig} {ok : Config Planner Action → ℕ × Outcome → Prop}
  {c c' : Config Planner Action} {x : ℕ × Outcome} {m : Sem} {a : Action} {o : Outcome} {s : Planner}
  {e : Effect Planner Action}

theorem reach_out (h : Reach (act cfg) ok (start cfg) c) :
    (0 < c.state.sems .stpSemDispatch → c.state.exec = none) ∧
      ∀ k ∈ c.threads, 1 ≤ load dispatchWeight k → outPhases.At c.state.view k :=
  reach_phases (outPhases_rules ok) rfl h

/-- A `NULL` that an action would dereference. -/
theorem act_crashed (h : act cfg a o s = some e) (hs : s.crashed = false) (he : e.state.crashed = true) :
    (∃ q : Queue, a = q.pop ∧ s.queues q = []) ∨
      s.exec = none ∧ (a = takeExecError ∨ ∃ r, a = takeExec r) := by
  cases act_branch h
  case popReadyNull hq => exact Or.inl ⟨.ready, rfl, hq⟩
  case popBlockedNull hq => exact Or.inl ⟨.blocked, rfl, hq⟩
  case popSuspendedReadyNull hq => exact Or.inl ⟨.suspendedReady, rfl, hq⟩
  case popNewNull hq => exact Or.inl ⟨.new, rfl, hq⟩
  case popExitNull hq => exact Or.inl ⟨.exit, rfl, hq⟩
  case takeExecNull r hx => exact Or.inr ⟨hx, Or.inr ⟨r, rfl⟩⟩
  case noExec hx => exact Or.inr ⟨hx, Or.inl rfl⟩
  all_goals
    rw [← Bool.not_eq_true] at hs
    exact absurd he hs

/-- **No `NULL`.** Whatever fails and in whatever order, the planner pops no empty queue and
takes no PCB out of an empty `planner->exec`. -/
theorem reach_notCrashed (h : Reach (act cfg) ok (start cfg) c) : c.state.crashed = false := by
  induction h with
  | start => rfl
  | @step c c' x hr _ hx ih =>
    obtain ⟨a, k, e, hk, he, rfl⟩ := step_some hx
    have hm := List.mem_of_getElem? hk
    have hs := (reach_shape hr _ hm).self
    by_contra hc
    rcases act_crashed he ih (by simpa using hc) with ⟨q, rfl, hq⟩ | ⟨hx, ha⟩
    · exact (reach_announced hr).pops q _ hm rfl hq
    · -- the thread has the permit of the dispatch
      have h1 : load dispatchWeight (a :: k) = 1 := by
        refine cycle_permit hs ?_
        rcases ha with rfl | ⟨r, rfl⟩
        · exact Or.inl rfl
        · exact Or.inr (Or.inr ⟨r, rfl⟩)
      have h2 := (reach_out hr).2 _ hm h1.ge
      rcases ha with rfl | ⟨r, rfl⟩
      · exact h2 hx
      · exact h2.1 r List.mem_cons_self hx

/-! ### Nothing announced is forgotten -/

/-- Threads end early when the planner halts or a `usleep` fails, and for nothing else. -/
theorem act_stop (h : act cfg a o s = some e) (he : e.stop = true) (hh : e.state.halt = false)
    (hc : e.state.crashed = false) : (∃ t, a = timerSleep t ∧ o ≠ .ok) ∧ e.state = s ∧ e.next = [] ∧ e.spawn = [] := by
  cases act_branch h
  case timerSleepFails t ho => exact ⟨⟨t, rfl, ho⟩, rfl, rfl, rfl⟩
  all_goals first
    | (cases he; done)
    | (exact absurd (hh.symm.trans he) Bool.false_ne_true)
    | (rename_i hx; exact absurd (hh.symm.trans hx) Bool.false_ne_true)
    | cases hc

attribute [local simp] Action.takes takenWeight postWeight in
/-- Every action but a look at an empty queue keeps what a semaphore and the threads count. -/
theorem queued_keep (hm : m.Announces) (h : act cfg a o s = some e) (he : e.stop = false)
    (hn : a = newIfNew → s.queues .new ≠ []) (hx : a = exitIfAny → s.queues .exit ≠ []) :
    (s.sems m : ℤ) - m.queued s.queues + (takenWeight m a + postWeight m a) ≤
    (e.state.sems m : ℤ) - m.queued e.state.queues +
      load (fun a => takenWeight m a + postWeight m a) e.next +
      total (fun a => takenWeight m a + postWeight m a) e.spawn := by
  obtain ⟨h1, h2, h3, h4⟩ := hm.ne
  cases act_branch h
  case loop f =>
    cases f <;> simp [body, h1, h2, h4]
  case semWait m' hm | semPost m' =>
    by_cases h : m' = m
    · subst h
      simp only [takenWeight, Action.takes, postWeight, Planner.setSem, Function.update_self, load_nil, total_nil,
        reduceCtorEq, if_true, if_false]
      omega
    · simp [h, Function.update_of_ne (Ne.symm h)]
  case push q _ => simp [queued_update]; split_ifs <;> omega
  case insertInOrder => simp [queued_update]; split_ifs <;> omega
  case popReady hq | popBlocked hq | popNew hq | popExit hq =>
    simp [hq, queued_update, Queue.sem]
    grind
  case popSuspendedReady hq =>
    simp [hq, queued_update, load_ready, Queue.sem]
    grind
  case noneNew hq => exact absurd hq (hn rfl)
  case noneExit hq => exact absurd hq (hx rfl)
  case popReadyNull | popBlockedNull | popSuspendedReadyNull | popNewNull | popExitNull => cases he
  case takeExecNull | noExec | recieveHalt | timerSleepFails => cases he
  all_goals
    simp [load_ready, load_tail, load_reply, load_timerCall, Queue.sem, *]
  all_goals grind

/-- **No wake-up is lost.** Until the planner halts, the PCBs in the queues of a semaphore are
those its value counts, the one its controller has taken and those about to be announced. -/
theorem reach_exact (hm : m.Announces) (h : Reach (act cfg) ok (start cfg) c) (hh : c.state.halt = false) :
    (c.state.sems m : ℤ) + total (takenWeight m) c.threads + total (postWeight m) c.threads =
      m.queued c.state.queues := by
  refine le_antisymm (reach_queued hm h).1 ?_
  induction h with
  | start =>
    obtain ⟨q, rfl⟩ := hm
    cases q <;> simp [start, Queue.sem, Sem.queued, takenWeight, postWeight, Action.takes]
  | @step c c' x hr _ hx ih =>
    have hc' := reach_notCrashed (hr.step x ‹_› hx)
    have h1 := keep_step (m := fun s => (s.sems m : ℤ) - m.queued s.queues)
      (w := fun a => takenWeight m a + postWeight m a) hx fun a k e hk he => ?_
    · have h2 : c.state.halt = false := by
        obtain ⟨a, k, e, -, he, rfl⟩ := step_some hx
        exact act_halt he hh
      have h3 := ih h2
      rw [total_add, total_add] at h1
      omega
    · have hm' := List.mem_of_getElem? hk
      have hstate : c'.state = e.state := by
        obtain ⟨b, k', e', hk', he', rfl⟩ := step_some hx
        rw [hk] at hk'
        cases hk'
        rw [he] at he'
        cases he'
        rfl
      rcases hst : e.stop
      · have h2 := queued_keep hm he hst (fun ha => ?_) fun ha => ?_
        · rw [Effect.rest, hst, if_neg Bool.false_ne_true, load_append]
          omega
        · subst ha
          exact (reach_announced hr).new _ hm' rfl
        · subst ha
          exact (reach_announced hr).exit _ hm' rfl
      · -- a timer that does not sleep owes nothing
        obtain ⟨⟨t, rfl, -⟩, h2, h3, h4⟩ := act_stop he hst (hstate ▸ hh) (hstate ▸ hc')
        have h5 := (reach_shape hr _ hm').self
        simp only [Shape] at h5
        subst h5
        rw [Effect.rest, hst, if_pos rfl, h2, h4]
        simp [takenWeight, postWeight, Action.takes]

/-! ### What is promised -/

/-- Every PCB in a queue is seen to. -/
structure Awake (c : Config Planner Action) : Prop where
  notCrashed : c.state.crashed = false
  /-- The semaphore, the controller past its wait and the posts to come count the PCBs. -/
  counted : c.state.halt = false → ∀ q : Queue, (c.state.sems q.sem : ℤ) +
    total (takenWeight q.sem) c.threads + total (postWeight q.sem) c.threads = q.sem.queued c.state.queues
  /-- A PCB in a queue has its semaphore posted, its controller on the way, or a thread that is
  about to post. -/
  awake : c.state.halt = false → ∀ q, c.state.queues q ≠ [] → 0 < c.state.sems q.sem ∨
    ∃ k ∈ c.threads, (∃ a ∈ k, a.takes = some q.sem ∧ 1 ≤ load (takenWeight q.sem) k) ∨ semPost q.sem ∈ k

theorem mem_of_taken {k : List Action} (h : 1 ≤ load (takenWeight m) k) :
    ∃ a ∈ k, a.takes = some m := by
  by_contra hn
  have h1 := load_nonpos (w := takenWeight m) (k := k) fun a ha => by
    have h2 : a.takes ≠ some m := fun h3 => hn ⟨a, ha, h3⟩
    rw [takenWeight, if_neg h2]
    split_ifs <;> omega
  omega

theorem mem_of_post {k : List Action} (h : 1 ≤ load (postWeight m) k) : semPost m ∈ k := by
  by_contra hn
  have h1 := load_nonpos (w := postWeight m) (k := k) fun a ha => by
    have h2 : a ≠ semPost m := fun h3 => hn (h3 ▸ ha)
    unfold postWeight
    split
    · split_ifs <;> omega
    · split_ifs <;> omega
    · rw [if_neg fun h3 => h2 (congrArg semPost h3)]
    · exact le_refl _
  omega

theorem reach_awake (h : Reach (act cfg) ok (start cfg) c) : Awake c where
  notCrashed := reach_notCrashed h
  counted hh q := reach_exact ⟨q, rfl⟩ h hh
  awake hh q hq := by
    have h1 := reach_exact (m := q.sem) ⟨q, rfl⟩ h hh
    have h2 : 0 < q.sem.queued c.state.queues := by
      have := List.length_pos_iff.mpr hq
      cases q <;> simp only [Queue.sem, Sem.queued] <;> omega
    by_cases h3 : 0 < c.state.sems q.sem
    · exact Or.inl h3
    refine Or.inr ?_
    by_cases h4 : 1 ≤ total (takenWeight q.sem) c.threads
    · obtain ⟨k, hk, h5⟩ := exists_load_pos h4
      obtain ⟨a, ha, h6⟩ := mem_of_taken h5
      exact ⟨k, hk, Or.inl ⟨a, ha, h6, h5⟩⟩
    · have h7 : 1 ≤ total (postWeight q.sem) c.threads := by omega
      obtain ⟨k, hk, h5⟩ := exists_load_pos h7
      exact ⟨k, hk, Or.inr (mem_of_post h5)⟩

end Reach

/-- The run in which process 1 is suspended and waits to be admitted again. -/
theorem reach_awake_suspendRun : ∃ c, Reach (act (exampleConfig .fifo)) (fun _ _ => True)
    (start (exampleConfig .fifo)) c ∧ c.state.queues .suspendedReady = [1] ∧ Awake c := by
  have h1 : (run (act (exampleConfig .fifo)) (fun _ _ => true) (start (exampleConfig .fifo))
      suspendRun).map (fun c => c.state.queues .suspendedReady) = some [1] := by
    decide +kernel
  obtain ⟨c, hc, h2⟩ := Option.map_eq_some_iff.mp h1
  have hr := reach_of_run (fun _ _ _ => trivial) Reach.start hc
  exact ⟨c, hr, h2, reach_awake hr⟩

end Kernel
end Kiss
