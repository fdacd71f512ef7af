/-
# Answers and the processes they belong to

The dispatch handler queues every package it receives, and
`cpu_recieve_pcb_async` takes the oldest one; when the reception failed it takes
none, and what the failure queued stays. In the runs where an answer is only
received intact while the queue is empty, it is applied to the process it
belongs to (`reach_repliesMatch`). After a failed reception every later answer
is one place behind (`not_repliesMatch`).

Key definitions: `RepliesMatch`, `Settled`, `replyPhases`.
Key theorems: `reach_repliesMatch`, `not_repliesMatch`.
-/
import Kiss.Kernel.Cycle
import Kiss.Kernel.Cancellation

namespace Kiss
namespace Kernel

open Kernel.Action Threads

/-- The answers are applied to the processes they belong to. -/
structure RepliesMatch (cfg : KernelConfig) (c : Config Planner Action) : Prop where
  /-- `planner->incomming_dispatch` is called, and takes `planner->exec`, with the
  answer of the running process. -/
  applied : ∀ k ∈ c.threads, ∀ r, k = incommingDispatch cfg r ∨ k.head? = some (takeExec r) →
    c.state.exec = some r.id
  /-- `stp_dispatch_error` finishes no process whose answer was received. -/
  finished : ∀ k ∈ c.threads, k.head? = some takeExecError →
    ∀ p, c.state.exec = some p → c.state.answered p = false

/-- An answer is received intact only while the handler's queue is empty. -/
def Settled (c : Config Planner Action) (x : ℕ × Outcome) : Prop :=
  ∀ k r, c.threads[x.1]? = some (recieveMessage :: k) → x.2 = .reply r → c.state.data = []

/-- What failed receptions left is no answer, and where they left nothing the CPU
has no PCB but `l`. -/
def Clean (l : List ℕ → Prop) (v : View) : Prop :=
  (∀ pk ∈ v.data, pk.payload = none) ∧ (v.data = [] → l v.atCpu)

/-- The cycle in the settled runs. -/
def replyPhases : Phases where
  idle v := v.exec = none ∧ Clean (· = []) v
  sending p v := v.exec = some p ∧ Clean (· = []) v
  sent v := ∃ p, v.exec = some p ∧ v.answered p = false ∧ Clean (· = [p]) v
  awaiting v := ∃ p, v.exec = some p ∧ v.answered p = false ∧ Clean (fun l => l = [] ∨ l = [p]) v
  received pk v := ∃ p, v.exec = some p ∧
    ((∃ r, pk = ⟨.pcb, some r⟩ ∧ r.id = p ∧ v.data = [] ∧ v.dispatchError = .none ∧ v.atCpu = []) ∨
      (pk.payload = none ∧ v.answered p = false ∧
        Clean (fun l => l = [] ∨ v.dispatchError ≠ .none) v))
  queued v := ∃ p, v.exec = some p ∧
    ((∃ r, v.data = [⟨.pcb, some r⟩] ∧ r.id = p ∧ v.dispatchError = .none ∧ v.atCpu = []) ∨
      (v.answered p = false ∧ v.data ≠ [] ∧ (∀ pk ∈ v.data, pk.payload = none) ∧
        (v.data.length = 1 → v.atCpu = [] ∨ v.dispatchError ≠ .none)))
  replied r v := v.exec = some r.id ∧ Clean (· = []) v
  taking r v := v.exec = some r.id ∧ Clean (· = []) v
  erring v := (∀ p, v.exec = some p → v.answered p = false) ∧ Clean (· = []) v

theorem replyPhases_rules {ok : Config Planner Action → ℕ × Outcome → Prop}
    (hok : ∀ c x, ok c x → Settled c x) : replyPhases.Rules ok where
  sets p v h := ⟨rfl, h.2⟩
  sends c x p k _ _ h _ := by
    refine ⟨p, h.1, Function.update_self .., h.2.1, fun hd => ?_⟩
    have h1 : c.state.atCpu = [] := h.2.2 hd
    show c.state.atCpu ++ [p] = [p]
    rw [h1]
    rfl
  notSends c x p k _ _ h _ :=
    ⟨p, h.1, Function.update_self .., h.2.1, fun hd => Or.inl (h.2.2 hd)⟩
  marks v h := by
    obtain ⟨p, h1, h2, h3, h4⟩ := h
    exact ⟨p, h1, h2, h3, fun hd => Or.inr (h4 hd)⟩
  recieves c x hx hk h e pk l hres := by
    obtain ⟨p, h1, h2, h3, h4⟩ := h
    refine ⟨p, h1, ?_⟩
    unfold recieveMessageResult at hres
    split at hres
    · rename_i r hr
      split at hres
      · rename_i hhead
        cases hres
        have hd : c.state.data = [] := hok c x hx [] r hk hr
        refine Or.inl ⟨r, rfl, ?_⟩
        rcases h4 hd with hl | hl
        · change c.state.atCpu = [] at hl
          simp [hl] at hhead
        · change c.state.atCpu = [p] at hl
          rw [hl] at hhead
          refine ⟨(Option.some.inj hhead).symm, hd, rfl, ?_⟩
          show c.state.atCpu.tail = []
          rw [hl]
          rfl
      · cases hres
    · split at hres
      · cases hres
      · cases hres
        refine Or.inr ⟨rfl, h2, h3, fun hd => Or.inl ?_⟩
        show c.state.atCpu.tail = []
        rcases h4 hd with hl | hl <;>
        · change c.state.atCpu = _ at hl
          rw [hl]
          rfl
    · cases hres
      exact Or.inr ⟨rfl, h2, h3, fun _ => Or.inr (by simp)⟩
    · cases hres
      exact Or.inr ⟨rfl, h2, h3, fun _ => Or.inr (by simp)⟩
    · cases hres
      exact Or.inr ⟨rfl, h2, h3, fun _ => Or.inr (by simp)⟩
    · cases hres
  pushes pk v h := by
    obtain ⟨p, h1, ⟨r, rfl, h2, h3, h4, h5⟩ | ⟨h2, h3, h4, h5⟩⟩ := h
    · exact ⟨p, h1, Or.inl ⟨r, by simp [h3], h2, h4, h5⟩⟩
    · refine ⟨p, h1, Or.inr ⟨h3, by simp, fun q hq => ?_, fun hl => h5 ?_⟩⟩
      · rcases List.mem_append.mp hq with hq | hq
        · exact h4 q hq
        · rw [List.mem_singleton.mp hq, h2]
      · simpa using hl
  replies r l v h herr hd := by
    obtain ⟨p, h1, ⟨r', h2, rfl, h3, h4⟩ | ⟨-, -, h2, -⟩⟩ := h
    · rw [hd] at h2
      cases h2
      exact ⟨h1, by simp, fun _ => h4⟩
    · have := h2 _ (by rw [hd]; exact List.mem_cons_self)
      cases this
  others pk l v h herr hd hne := by
    obtain ⟨p, h1, ⟨r', h2, -⟩ | ⟨h2, -, h3, h4⟩⟩ := h
    · rw [hd] at h2
      cases h2
      exact absurd rfl (hne r')
    · refine ⟨fun q hq => ?_, fun q hq => h3 q (by rw [hd]; exact List.mem_cons_of_mem _ hq),
        fun hl => ?_⟩
      · change v.exec = some q at hq
        rw [h1] at hq
        cases hq
        exact h2
      · change l = [] at hl
        rcases h4 (by simp [hd, hl]) with h5 | h5
        · exact h5
        · exact absurd herr h5
  errs v h herr := by
    obtain ⟨p, h1, ⟨r, h2, -, h3, -⟩ | ⟨h2, h3, h4, -⟩⟩ := h
    · rcases herr with herr | herr
      · exact absurd h3 herr
      · rw [h2] at herr
        cases herr
    · refine ⟨fun q hq => ?_, h4, fun hd => absurd hd h3⟩
      rw [h1] at hq
      cases hq
      exact h2
  frees r v h := h
  takes r v h := ⟨rfl, h.2⟩
  fails v h := ⟨rfl, h.2⟩

section Reach

variable {cfg : KernelConfig} {ok : Config Planner Action → ℕ × Outcome → Prop}
  {c : Config Planner Action}

theorem reach_repliesMatch (hok : ∀ c x, ok c x → Settled c x) (h : Reach (act cfg) ok (start cfg) c) :
    RepliesMatch cfg c := by
  have hP := (reach_phases (replyPhases_rules hok) ⟨rfl, by simp [Clean, start, Planner.view]⟩ h).2
  have htail : load dispatchWeight (dispatchTail cfg) = 1 := by
    unfold dispatchTail
    split <;> rfl
  refine ⟨fun k hk r hr => ?_, fun k hk he p hp => ?_⟩
  · rcases hr with rfl | hr
    · exact ((hP _ hk (by simp [dispatchWeight, htail])).1 r (by simp)).1
    · rcases k with _ | ⟨a, k⟩
      · cases hr
      · cases hr
        have h1 := cycle_permit (reach_shape h _ hk).self (Or.inr (Or.inr ⟨r, rfl⟩))
        exact ((hP _ hk h1.ge).1 r List.mem_cons_self).1
  · rcases k with _ | ⟨a, k⟩
    · cases he
    · cases he
      have h1 := cycle_permit (reach_shape h _ hk).self (Or.inl rfl)
      exact (hP _ hk h1.ge).1 p hp

end Reach

/-! ### Runs -/

/-- The connections are not lost. -/
def NotLost (_ : Config Planner Action) (x : ℕ × Outcome) : Prop := x.2 ≠ .lost

/-- `Settled`, evaluated. -/
def checkSettled (c : Config Planner Action) (x : ℕ × Outcome) : Bool :=
  match c.threads[x.1]?, x.2 with
  | some (recieveMessage :: _), .reply _ => c.state.data.isEmpty
  | _, _ => true

theorem settled_of_check (c : Config Planner Action) (x : ℕ × Outcome)
    (h : checkSettled c x = true) : Settled c x := by
  intro k r hk hr
  unfold checkSettled at h
  rw [hk, hr] at h
  simpa using h

/-- The answer of process 1 is on its way to `planner->incomming_dispatch`. -/
def answerRun : List (ℕ × Outcome) := admitRun ioProgram 5 ++ oks 11 3 ++ (6, .reply ioReply) :: oks 4 6

theorem reach_repliesMatch_answerRun : ∃ c, Reach (act (exampleConfig .fifo)) Settled
    (start (exampleConfig .fifo)) c ∧ c.threads[6]? = some (takeExec ioReply :: dispatchTail (exampleConfig .fifo)) ∧
    RepliesMatch (exampleConfig .fifo) c := by
  have h1 : (run (act (exampleConfig .fifo)) checkSettled (start (exampleConfig .fifo)) answerRun).map
      (fun c => c.threads[6]?) = some (some (takeExec ioReply :: dispatchTail (exampleConfig .fifo))) := by
    decide +kernel
  obtain ⟨c, hc, h2⟩ := Option.map_eq_some_iff.mp h1
  have hr := reach_of_run settled_of_check Reach.start hc
  exact ⟨c, hr, h2, reach_repliesMatch (fun _ _ h => h) hr⟩

/-- Processes 1 and 2 are admitted (threads 5 and 6). The reception of the answer
of process 1 fails after taking it (thread 7), and leaves its package in the
queue; the answer of process 2 arrives intact behind it (thread 8). -/
def failedReceptionRun : List (ℕ × Outcome) :=
  admitRun ioProgram 5 ++ admitRun ioProgram 6 ++ oks 11 3 ++ (7, .failConsumed) :: oks 10 7 ++
    oks 11 3 ++ (8, .reply { ioReply with id := 2 }) :: oks 2 8

theorem not_repliesMatch :
    ¬ ∀ cfg c, Reach (act cfg) NotLost (start cfg) c → RepliesMatch cfg c := by
  intro h
  have h1 : (run (act (exampleConfig .fifo)) (fun _ x => decide (x.2 ≠ .lost))
      (start (exampleConfig .fifo)) failedReceptionRun).map
      (fun c => (c.threads[8]?, c.state.exec, c.state.answered 2)) =
      some (some stpDispatchError, some 2, true) := by
    decide +kernel
  obtain ⟨c, hc, h2⟩ := Option.map_eq_some_iff.mp h1
  simp only [Prod.mk.injEq] at h2
  obtain ⟨h3, h4, h5⟩ := h2
  have hr : Reach _ NotLost _ c := reach_of_run (fun _ _ hx => by simpa [NotLost] using hx) Reach.start hc
  have := (h _ c hr).finished _ (List.mem_of_getElem? h3) rfl 2 h4
  rw [h5] at this
  cases this

end Kernel
end Kiss
