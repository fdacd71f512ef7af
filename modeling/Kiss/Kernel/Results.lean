/-
# What a console is told

A process leaves through `move_pcb_to_exit`. Every caller marks the PCB with an error first,
but two: the dispatch receiver, for an answer with `CPU_EXIT_PROGRAM`, and
`mtp_blocked_controller`, where the timer of the I/O does not start. So in every run in which
no swap fails, whatever else does and in whatever order, a console is told
`SG_OPERATION_SUCCESS` only after the CPU gave its process back because it exited, or after
that failure, which the source takes for a success (`trace_success`). Where a swap fails, the
timer of the I/O may push a PCB on exit whose memory is another process's by then.

The history is the trace of the run. A PCB on its way out is `unexcused` until something
excuses it, and an error once written is not taken back, since no PCB is created twice
(`reach_created`).

Key definitions: `Created`, `unexcused`, `RepliedExit`, `TimerFailed`, `Excused`, `Accounted`.
Key theorems: `reach_created`, `trace_accounted`, `trace_success`.
-/
import Kiss.Kernel.Lasting
import Kiss.Kernel.Failures
import Kiss.Kernel.Ownership

namespace Kiss
namespace Kernel

open Kernel.Action Threads

/-! ### The PCBs that were created -/

/-- The PCB an action uses, now or when its timer calls back. -/
@[simp] def Action.about : Action → Option ℕ
  | assign p _ | push _ p | insertInOrder p | exitMultiprogramming p | interruptIfBusy p
  | setExec p | sendPcb p | dispatchSwitch p | setSuspendTimer p | startSuspendTimer _ p
  | createBlockedTimer p | startBlockedTimer _ p | cancelSuspendTimer p | unblockSwitch p
  | suspendIfBlocked p | swappProcess p | getEntryPageTable p | checkPageTable p
  | freeAllocatedMemory p | consoleTerminate p | pcbDestroy p => some p
  | timerSleep t | timerTest t | timerDestroy t => some t.data
  | _ => none

/-- The PCBs in use have an id that was given. -/
structure Created (c : Config Planner Action) : Prop where
  threads : ∀ k ∈ c.threads, ∀ a ∈ k, ∀ p, a.about = some p → 1 ≤ p ∧ p ≤ c.state.pcbId
  queues : ∀ q, ∀ p ∈ c.state.queues q, 1 ≤ p ∧ p ≤ c.state.pcbId
  exec : ∀ p, c.state.exec = some p → 1 ≤ p ∧ p ≤ c.state.pcbId

section Created

variable {cfg : KernelConfig} {ok : Config Planner Action → ℕ × Outcome → Prop}
  {c c' : Config Planner Action} {x : ℕ × Outcome} {a b : Action} {o : Outcome} {s : Planner}
  {e : Effect Planner Action} {k l : List Action} {p : ℕ}

/-- Where the PCB of an action comes from. -/
theorem act_about (h : act cfg a o s = some e) (hb : b ∈ e.next ∨ ∃ k ∈ e.spawn, b ∈ k)
    (hp : b.about = some p) : a.about = some p ∨ (∃ q, p ∈ s.queues q) ∨ s.exec = some p ∨
      p = s.pcbId + 1 ∧ ∃ prog, a = ltpNewProcess prog := by
  cases act_branch h
  case loop f => cases f <;> simp [body] at hb <;> rcases hb with rfl | rfl | rfl | rfl | rfl | rfl <;> cases hp
  case timerCall u _ =>
    rcases u with ⟨u, _ | _, q⟩ <;> simp [Timer.call] at hb <;>
      rcases hb with rfl | rfl | rfl | rfl | rfl | rfl | rfl <;> first
        | (cases hp; done)
        | exact Or.inl hp
  case unblockReady | switchReady | pageTable =>
    unfold movePcbToReady at hb
    split at hb <;> simp at hb <;> rcases hb with rfl | rfl | rfl | rfl | rfl <;> first
      | (cases hp; done)
      | exact Or.inl hp
  case popSuspendedReady q l hq =>
    have hm : q ∈ s.queues .suspendedReady := by simp [hq]
    unfold movePcbToReady at hb
    split at hb <;> simp at hb <;> rcases hb with rfl | rfl | rfl | rfl | rfl <;> first
      | (cases hp; done)
      | (cases hp; exact Or.inr (Or.inl ⟨_, hm⟩))
  case takeExec r q hx =>
    unfold applyReply at hb
    split at hb <;> simp at hb <;> rcases hb with rfl | rfl | rfl | rfl <;> cases hp <;>
      exact Or.inr (Or.inr (Or.inl hx))
  case recieved =>
    unfold incommingDispatch dispatchTail at hb
    split at hb <;> simp at hb <;> rcases hb with rfl | rfl | rfl | rfl | rfl <;> cases hp
  case popReady q l hq =>
    have hm : q ∈ s.queues .ready := by simp [hq]
    simp at hb
    rcases hb with rfl | rfl | rfl | rfl <;> first
      | (cases hp; done)
      | (cases hp; exact Or.inr (Or.inl ⟨_, hm⟩))
  case popBlocked q l hq =>
    have hm : q ∈ s.queues .blocked := by simp [hq]
    simp at hb
    rcases hb with rfl | rfl <;> cases hp <;> exact Or.inr (Or.inl ⟨_, hm⟩)
  case popNew q l hq =>
    have hm : q ∈ s.queues .new := by simp [hq]
    simp at hb
    subst hb
    cases hp
    exact Or.inr (Or.inl ⟨_, hm⟩)
  case popExit q l hq =>
    have hm : q ∈ s.queues .exit := by simp [hq]
    simp at hb
    rcases hb with rfl | rfl | rfl <;> cases hp <;> exact Or.inr (Or.inl ⟨_, hm⟩)
  case takeExecError q hx =>
    simp at hb
    rcases hb with rfl | rfl | rfl | rfl | rfl <;> first
      | (cases hp; done)
      | (cases hp; exact Or.inr (Or.inr (Or.inl hx)))
  case ltpNewProcess prog =>
    simp at hb
    rcases hb with rfl | rfl | rfl <;> first
      | (cases hp; done)
      | (cases hp; exact Or.inr (Or.inr (Or.inr ⟨rfl, prog, rfl⟩)))
  all_goals simp at hb
  all_goals grind [Action.about]

/-- Where a PCB in a queue or in `planner->exec` was before. -/
theorem act_places (h : act cfg a o s = some e) : (∀ q, ∀ p ∈ e.state.queues q, p ∈ s.queues q ∨ a.about = some p) ∧
    (∀ p, e.state.exec = some p → s.exec = some p ∨ a.about = some p) ∧
    (e.state.pcbId = s.pcbId ∨ e.state.pcbId = s.pcbId + 1) ∧
    (∀ prog, a = ltpNewProcess prog → e.state.pcbId = s.pcbId + 1) := by
  cases act_branch h
  case push q r | insertInOrder r =>
    refine ⟨fun q' p hp => ?_, fun p hp => Or.inl hp, Or.inl rfl, by simp⟩
    simp only [Planner.push, Planner.setQueue, Function.update_apply] at hp
    split_ifs at hp <;> simp_all [eq_comm, or_comm]
  case popReady q l hq | popBlocked q l hq | popNew q l hq | popExit q l hq | popSuspendedReady q l hq =>
    refine ⟨fun q' p hp => Or.inl ?_, fun p hp => Or.inl hp, Or.inl rfl, by simp⟩
    simp only [Planner.setQueue, Function.update_apply] at hp
    split_ifs at hp with h1
    · rw [h1, hq]
      exact List.mem_cons_of_mem _ hp
    · exact hp
  all_goals simp_all

theorem reach_created (h : Reach (act cfg) ok (start cfg) c) : Created c := by
  induction h with
  | start => exact ⟨by simp [start], by simp [start], by simp [start]⟩
  | @step c c' x hr _ hx ih =>
    obtain ⟨a, k, e, hk, he, hc'⟩ := step_some hx
    have hm := List.mem_of_getElem? hk
    have hstate : c'.state = e.state := by rw [hc']
    obtain ⟨h1, h2, h3, h4⟩ := act_places he
    have hle : c.state.pcbId ≤ e.state.pcbId := by omega
    have ha : ∀ p, a.about = some p → 1 ≤ p ∧ p ≤ c.state.pcbId := ih.threads _ hm a List.mem_cons_self
    refine ⟨fun l hl b hb p hp => ?_, fun q p hp => ?_, fun p hp => ?_⟩
    · rw [hstate]
      rcases mem_step_action hk hc' hl hb with ⟨l', hl', hb'⟩ | hnew
      · exact (ih.threads l' hl' b hb' p hp).imp_right hle.trans'
      · rcases act_about he hnew hp with h5 | ⟨q, h5⟩ | h5 | ⟨rfl, prog, h5⟩
        · exact (ha p h5).imp_right hle.trans'
        · exact (ih.queues q p h5).imp_right hle.trans'
        · exact (ih.exec p h5).imp_right hle.trans'
        · exact ⟨by omega, (h4 prog h5).ge⟩
    · rw [hstate] at hp ⊢
      rcases h1 q p hp with h5 | h5
      · exact (ih.queues q p h5).imp_right hle.trans'
      · exact (ha p h5).imp_right hle.trans'
    · rw [hstate] at hp ⊢
      rcases h2 p hp with h5 | h5
      · exact (ih.exec p h5).imp_right hle.trans'
      · exact (ha p h5).imp_right hle.trans'

end Created

/-! ### The way out -/

/-- The PCB that an action takes out. -/
@[simp] def Action.leaves : Action → Option ℕ
  | exitMultiprogramming p | assign p (.status .exit) | push .exit p | consoleTerminate p => some p
  | _ => none

/-- The PCBs that a thread takes out without writing the error first. -/
def unexcused : List Action → List ℕ
  | [] => []
  | assign p .error :: k => (unexcused k).filter (· ≠ p)
  | a :: k => a.leaves.toList ++ unexcused k

theorem unexcused_cons {a : Action} {k : List Action} (h : ∀ p, a ≠ assign p .error) :
    unexcused (a :: k) = a.leaves.toList ++ unexcused k := by
  rw [unexcused]
  exact fun p hp => h p hp

theorem mem_unexcused_append {p : ℕ} : ∀ {l k : List Action}, p ∈ unexcused (l ++ k) →
    p ∈ unexcused l ∨ p ∈ unexcused k
  | [], k, h => Or.inr h
  | a :: l, k, h => by
    by_cases ha : ∃ q, a = assign q .error
    · obtain ⟨q, rfl⟩ := ha
      simp only [List.cons_append, unexcused, List.mem_filter] at h ⊢
      exact (mem_unexcused_append h.1).imp_left fun h1 => ⟨h1, h.2⟩
    · have ha' : ∀ q, a ≠ assign q .error := fun q hq => ha ⟨q, hq⟩
      rw [List.cons_append, unexcused_cons ha', List.mem_append] at h
      rw [unexcused_cons ha', List.mem_append]
      rcases h with h | h
      · exact Or.inl (Or.inl h)
      · exact (mem_unexcused_append h).imp_left Or.inr

/-- A PCB that is taken out after an action is, unless the action writes its error. -/
theorem mem_unexcused_cons {p : ℕ} {a : Action} {k : List Action} (h : p ∈ unexcused k) :
    p ∈ unexcused (a :: k) ∨ a = assign p .error := by
  by_cases ha : ∃ q, a = assign q .error
  · obtain ⟨q, rfl⟩ := ha
    by_cases hq : p = q
    · exact Or.inr (by rw [hq])
    · exact Or.inl (by simp [unexcused, h, hq])
  · exact Or.inl (by
      rw [unexcused_cons fun q hq => ha ⟨q, hq⟩, List.mem_append]
      exact Or.inr h)

/-! ### What excuses it -/

/-- The CPU gave the process back because it exited. -/
def RepliedExit (p : ℕ) (e : Event Action Outcome) : Prop :=
  ∃ r k, e.thread = assign p (.reply r) :: k ∧ r.cpuDispatchCond = .exitProgram

/-- The timer of its I/O did not start. -/
def TimerFailed (p : ℕ) (e : Event Action Outcome) : Prop :=
  ∃ t k, e.thread = startBlockedTimer t p :: k ∧ e.outcome ≠ .ok

/-- The process exited, or its I/O timer failed. -/
def Ended (p : ℕ) (tr : List (Event Action Outcome)) : Prop :=
  ∃ e ∈ tr, RepliedExit p e ∨ TimerFailed p e

def Excused (p : ℕ) (s : Planner) (tr : List (Event Action Outcome)) : Prop :=
  (s.pcbs p).error = true ∨ Ended p tr

/-- What the history says of the PCBs on their way out. -/
structure Accounted (c : Config Planner Action) (tr : List (Event Action Outcome)) : Prop where
  replied : ∀ p, (c.state.pcbs p).cpuDispatchCond = .exitProgram → ∃ e ∈ tr, RepliedExit p e
  leaving : ∀ k ∈ c.threads, ∀ p ∈ unexcused k, Excused p c.state tr
  queued : ∀ p ∈ c.state.queues .exit, Excused p c.state tr
  told : ∀ p, (p, .operationSuccess) ∈ c.state.told → Ended p tr

section Trace

variable {cfg : KernelConfig} {ok : Config Planner Action → ℕ × Outcome → Prop}
  {c c' : Config Planner Action} {x : ℕ × Outcome} {a : Action} {o : Outcome} {s : Planner}
  {e : Effect Planner Action} {k : List Action} {p : ℕ} {tr tr' : List (Event Action Outcome)}

theorem Ended.mono (h : Ended p tr) : Ended p (tr ++ tr') := by
  obtain ⟨e, he, h1⟩ := h
  exact ⟨e, List.mem_append_left _ he, h1⟩

/-- What leads a PCB out without writing its error. -/
theorem act_leaves (h : act cfg a o s = some e)
    (hp : p ∈ unexcused e.next ∨ ∃ k ∈ e.spawn, p ∈ unexcused k) :
    p ∈ s.queues .exit ∨ (s.pcbs p).cpuDispatchCond = .exitProgram ∨
      ∃ t, a = startBlockedTimer t p ∧ o ≠ .ok := by
  cases act_branch h
  case loop f => cases f <;> simp [body, unexcused] at hp
  case timerCall u _ => rcases u with ⟨u, _ | _, q⟩ <;> simp [Timer.call, unexcused] at hp
  case unblockReady | switchReady | pageTable | popSuspendedReady =>
    unfold movePcbToReady at hp
    split at hp <;> simp [unexcused] at hp
  case takeExec r q hx =>
    unfold applyReply at hp
    split at hp <;> simp [unexcused] at hp
  case recieved =>
    unfold incommingDispatch dispatchTail at hp
    split at hp <;> simp [unexcused] at hp
  case switchExit q hc =>
    simp [unexcused] at hp
    exact Or.inr (Or.inl (hp ▸ hc))
  case noBlockedTimer t q ho =>
    simp [unexcused] at hp
    exact Or.inr (Or.inr ⟨t, by rw [hp], ho⟩)
  case popExit q l hq =>
    simp [unexcused] at hp
    exact Or.inl (by simp [hq, hp])
  all_goals simp [unexcused] at hp

/-- A condition comes with an answer. -/
theorem act_replied (h : act cfg a o s = some e) (hc : (e.state.pcbs p).cpuDispatchCond = .exitProgram) :
    (s.pcbs p).cpuDispatchCond = .exitProgram ∨
      ∃ r, a = assign p (.reply r) ∧ r.cpuDispatchCond = .exitProgram := by
  by_cases ha : ∃ r, a = assign p (.reply r)
  · obtain ⟨r, rfl⟩ := ha
    cases act_branch h
    exact Or.inr ⟨r, rfl, by simpa [Pcb.assign] using hc⟩
  · refine Or.inl ?_
    cases act_branch h
    case assign q f =>
      by_cases hq : p = q
      · subst hq
        cases f <;> simp_all [Pcb.assign]
      · simpa [hq] using hc
    case setSuspendTimer q | createBlockedTimer q | noSuspendTimer t q ho =>
      by_cases hq : p = q
      · subst hq
        simpa using hc
      · simpa [hq] using hc
    case ltpNewProcess prog =>
      by_cases hq : p = s.pcbId + 1
      · subst hq
        simp at hc
      · simpa [hq] using hc
    all_goals exact hc

/-- A PCB in the exit queue was there or was on its way. -/
theorem act_exit (h : act cfg a o s = some e) (hp : p ∈ e.state.queues .exit) :
    p ∈ s.queues .exit ∨ p ∈ unexcused (a :: k) := by
  cases act_branch h
  case push q r =>
    cases q <;> simp [unexcused] at hp ⊢ <;> tauto
  case popExit q l hq =>
    simp only [Planner.setQueue, Function.update_self] at hp
    exact Or.inl (by simp [hq, hp])
  all_goals exact Or.inl (by simpa using hp)

/-- The result is told as the error says. -/
theorem act_told (h : act cfg a o s = some e) (hp : (p, .operationSuccess) ∈ e.state.told) :
    (p, .operationSuccess) ∈ s.told ∨ a = consoleTerminate p ∧ (s.pcbs p).error = false := by
  cases act_branch h
  case consoleTerminate q =>
    rcases List.mem_cons.mp hp with h1 | h1
    · obtain ⟨rfl, h2⟩ := Prod.mk.inj h1
      refine Or.inr ⟨rfl, ?_⟩
      by_contra hn
      rw [Bool.not_eq_false] at hn
      rw [hn, if_pos rfl] at h2
      cases h2
    · exact Or.inl h1
  all_goals exact Or.inl hp

theorem Excused.step (h : Excused p c.state tr) (hp : p ≤ c.state.pcbId)
    (he : act cfg a o c.state = some e) : Excused p e.state (tr ++ tr') := by
  rcases h with h | h
  · exact Or.inl (act_error he hp h).2.1
  · exact Or.inr h.mono

theorem about_of_unexcused : ∀ {k : List Action}, p ∈ unexcused k → ∃ a ∈ k, a.about = some p
  | [], h => by cases h
  | a :: k, h => by
    by_cases ha : ∃ q, a = assign q .error
    · obtain ⟨q, rfl⟩ := ha
      obtain ⟨b, hb, h1⟩ := about_of_unexcused (List.mem_filter.mp h).1
      exact ⟨b, List.mem_cons_of_mem _ hb, h1⟩
    · rw [unexcused_cons fun q hq => ha ⟨q, hq⟩, List.mem_append] at h
      rcases h with h | h
      · refine ⟨a, List.mem_cons_self, ?_⟩
        have h1 : a.leaves = some p := by simpa using h
        unfold Action.leaves at h1
        split at h1 <;> first
          | (cases h1; done)
          | (cases h1; rfl)
      · obtain ⟨b, hb, h1⟩ := about_of_unexcused h
        exact ⟨b, List.mem_cons_of_mem _ hb, h1⟩

/-- What the history says holds in every run. -/
theorem trace_accounted (h : Trace (act cfg) ok (start cfg) c tr) : Accounted c tr := by
  induction h with
  | start => exact ⟨by simp [start], by simp [start, unexcused], by simp [start], by simp [start]⟩
  | @step c c' tr x k' htr hok hk' hx ih =>
    have hr := htr.reach
    have hC := reach_created hr
    obtain ⟨a, k, e, hk, he, hc'⟩ := step_some hx
    rw [hk] at hk'
    cases hk'
    have hm := List.mem_of_getElem? hk
    have hstate : c'.state = e.state := by rw [hc']
    -- the PCBs the thread takes out are excused after the step
    have hold : ∀ l ∈ c.threads, ∀ p ∈ unexcused l, Excused p e.state (tr ++ [⟨a :: k, x.2⟩]) := by
      intro l hl p hp
      obtain ⟨b, hb, h1⟩ := about_of_unexcused hp
      exact (ih.leaving l hl p hp).step (hC.threads l hl b hb p h1).2 he
    have hnew : ∀ p, (p ∈ unexcused e.next ∨ ∃ k ∈ e.spawn, p ∈ unexcused k) →
        Excused p e.state (tr ++ [⟨a :: k, x.2⟩]) := by
      intro p hp
      rcases act_leaves he hp with h1 | h1 | ⟨t, rfl, h1⟩
      · exact (ih.queued p h1).step (hC.queues .exit p h1).2 he
      · obtain ⟨ev, hev, h2⟩ := ih.replied p h1
        exact Or.inr ⟨ev, List.mem_append_left _ hev, Or.inl h2⟩
      · exact Or.inr ⟨_, List.mem_append_right _ List.mem_cons_self, Or.inr ⟨t, k, rfl, h1⟩⟩
    refine ⟨fun p hp => ?_, fun l hl p hp => ?_, fun p hp => ?_, fun p hp => ?_⟩
    · rw [hstate] at hp
      rcases act_replied he hp with h1 | ⟨r, rfl, h1⟩
      · obtain ⟨ev, hev, h2⟩ := ih.replied p h1
        exact ⟨ev, List.mem_append_left _ hev, h2⟩
      · exact ⟨_, List.mem_append_right _ List.mem_cons_self, r, k, rfl, h1⟩
    · rw [hstate]
      rw [hc'] at hl
      rcases mem_threads hl with ⟨j, -, hj⟩ | rfl | h1
      · exact hold l (List.mem_of_getElem? hj) p hp
      · unfold Effect.rest at hp
        split at hp
        · cases hp
        · rcases mem_unexcused_append hp with h1 | h1
          · exact hnew p (Or.inl h1)
          · rcases mem_unexcused_cons (a := a) h1 with h2 | rfl
            · exact hold _ hm p h2
            · refine Or.inl ?_
              cases act_branch he
              simp [Pcb.assign]
      · exact hnew p (Or.inr ⟨l, h1, hp⟩)
    · rw [hstate] at hp ⊢
      rcases act_exit (k := k) he hp with h1 | h1
      · exact (ih.queued p h1).step (hC.queues .exit p h1).2 he
      · exact hold _ hm p h1
    · rw [hstate] at hp
      rcases act_told he hp with h1 | ⟨rfl, h1⟩
      · exact (ih.told p h1).mono
      · rcases ih.leaving _ hm p (by simp [unexcused]) with h2 | h2
        · rw [h1] at h2
          cases h2
        · exact h2.mono

end Trace

/-! ### A run -/

/-- Process 1 runs and exits. -/
def exitRun : List (ℕ × Outcome) :=
  admitRun ioProgram 5 ++ oks 11 3 ++ (6, .reply { ioReply with cpuDispatchCond := .exitProgram }) ::
    oks 14 6 ++ oks 8 1

end Kernel
end Kiss
