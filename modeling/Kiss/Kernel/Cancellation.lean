/-
# A suspension timer and the episode that armed it

`mtp_unblock_pcb` ends a blocking episode by setting the flag of the timer that
the episode armed. In the runs where no timer has read its flag by then and is
still waiting for the mutex, a suspension timer only acts on its own episode
(`reach_ownEpisode`). In the other runs it may suspend the process in a later
one (`not_ownEpisode`).

Key definitions: `Action.pcb`, `OwnEpisode`.
Key theorems: `reach_ownEpisode`, `not_ownEpisode`.
-/
import Kiss.Kernel.Suspension

namespace Kiss
namespace Kernel

open Kernel.Action Place Threads

/-- The PCB an action uses. -/
def Action.pcb : Action → Option ℕ
  | assign p _ | push _ p | insertInOrder p | exitMultiprogramming p | interruptIfBusy p
  | setExec p | sendPcb p | dispatchSwitch p | setSuspendTimer p | startSuspendTimer _ p
  | createBlockedTimer p | startBlockedTimer _ p | cancelSuspendTimer p | unblockSwitch p
  | suspendIfBlocked p | swappProcess p | getEntryPageTable p | checkPageTable p
  | freeAllocatedMemory p | consoleTerminate p | pcbDestroy p => some p
  | _ => none

/-- The suspension timers act on the episode that armed them. -/
structure OwnEpisode (c : Config Planner Action) : Prop where
  /-- They suspend and take out the process in that episode alone. -/
  moves : ∀ k ∈ c.threads, ∀ t p, Calls t p k →
    (k.head? = some (assign p (.status .suspendedBlocked)) ∨
      k.head? = some (assign p (.status .exit)) ∨ k.head? = some (push .exit p)) →
    c.state.armedIn t = c.state.episode p
  /-- They do not clear the pointer of a later one. -/
  clears : ∀ k ∈ c.threads, ∀ t p, Calls t p k → k.head? = some (assign p .timerSuspendedBlocked) →
    ∀ u, (c.state.pcbs p).timerSuspendedBlocked = some u → c.state.armedIn u ≤ c.state.armedIn t
  /-- They do not run on a PCB that was destroyed. -/
  alive : ∀ k ∈ c.threads, ∀ t p, Calls t p k → (∃ a ∈ k, a.pcb = some p) → p ∉ c.state.destroyed

section Reach

variable {cfg : KernelConfig} {ok : Config Planner Action → ℕ × Outcome → Prop}
  {c : Config Planner Action} {t p : ℕ} {k : List Action}

/-- A callback that still uses the PCB is in one of three phases. -/
theorem callback_uses (hk : AtPoint k) (hc : Calls t p k) (hu : ∃ a ∈ k, a.pcb = some p) :
    Waiting t p k ∨ Deciding t p k ∨ Exiting t p k := by
  obtain ⟨pre, hpre, rfl⟩ := hk t p hc
  simp only [suspendPoints, List.mem_cons, List.not_mem_nil, or_false] at hpre
  rcases hpre with rfl | rfl | rfl | rfl | rfl | rfl | rfl | rfl | rfl | rfl | rfl | rfl | rfl | rfl <;>
    simp_all [Waiting, Deciding, Exiting, Action.pcb]

/-- The callback that takes the PCB out holds it. -/
theorem exiting_load (hk : AtPoint k) (he : Exiting t p k) : load (weight away p) k = 1 := by
  obtain ⟨pre, hpre, rfl⟩ := hk t p he.1
  simp only [suspendPoints, List.mem_cons, List.not_mem_nil, or_false] at hpre
  rcases hpre with rfl | rfl | rfl | rfl | rfl | rfl | rfl | rfl | rfl | rfl | rfl | rfl | rfl | rfl <;>
    simp_all [Exiting, weight, at', away]

theorem not_destroyed (h : value away p c.state ≤ 0) : p ∉ c.state.destroyed := by
  intro hp
  have h1 := (le_value (p := p) away_nonneg c.state).2.2.2.2.1
  rw [sumAt_eq] at h1
  have h2 := List.count_pos_iff.mpr hp
  simp only [away] at h1
  omega

/-- A callback that still uses the PCB runs before it is destroyed. -/
theorem callback_alive (hok : ∀ c x, ok c x → Undisturbed c x) (h : Reach (act cfg) ok (start cfg) c)
    (hk : k ∈ c.threads) (hc : Calls t p k) (hu : ∃ a ∈ k, a.pcb = some p) :
    p ∉ c.state.destroyed := by
  have hE := reach_episodes (p := p) hok h
  have h1 := value_le_held (p := p) away_nonneg (by simp [away]) h
  rcases callback_uses (reach_callback h k hk) hc hu with hw | hd | he
  · have := (hE.armed k hk t (Or.inr (Or.inr hw))).blocked
    exact not_destroyed (by omega)
  · have := (hE.deciding k hk t hd).blocked
    exact not_destroyed (by omega)
  · -- the callback itself holds the PCB
    have h2 := (hE.exiting k hk t he).2
    have h3 := exiting_load (reach_callback h k hk) he
    have h4 := le_total (fun l hl =>
      (reach_grounded (p := p) away_nonneg (by simp [away]) h l hl).nonneg) hk
    unfold held at h2
    exact not_destroyed (by omega)

theorem reach_ownEpisode (hok : ∀ c x, ok c x → Undisturbed c x)
    (h : Reach (act cfg) ok (start cfg) c) : OwnEpisode c where
  moves k hk t p hc hm := by
    have hE := reach_episodes (p := p) hok h
    rcases callback_uses (reach_callback h k hk) hc
      (by rcases hm with hm | hm | hm <;> exact ⟨_, List.mem_of_head? hm, rfl⟩) with hw | hd | he
    · exact (hE.armed k hk t (Or.inr (Or.inr hw))).episode
    · exact (hE.deciding k hk t hd).episode
    · exact (hE.exiting k hk t he).1
  clears k hk t p hc hm u hu := by
    have hI := (reach_episodes hok h).armed k hk t (Or.inr (Or.inr ⟨hc, List.mem_of_head? hm⟩))
    rw [hI.pointer] at hu
    cases hu
    exact le_refl _
  alive k hk t p hc hu := callback_alive hok h hk hc hu

end Reach

/-! ### Schedules -/

/-- Thread `i` does `n` steps, every call succeeding. -/
def oks (n i : ℕ) : List (ℕ × Outcome) := List.replicate n (i, .ok)

/-- The console of `prog` connects: thread `i` is created, and admits process
`p` with page table 1. -/
def admitRun (prog : Program) (i : ℕ) : List (ℕ × Outcome) :=
  [(4, .ok), (4, .program prog)] ++ oks 4 i ++ oks 6 0 ++ [(0, .ok), (0, .table 1)] ++ oks 5 0

/-- Thread `i` receives `r`, up to the switch on its condition. -/
def replyRun (i : ℕ) (r : Reply) : List (ℕ × Outcome) := (i, .reply r) :: oks 7 i

/-- A configuration of `kernel.config`. -/
def exampleConfig (a : AlgoritmoPlanificacion) : KernelConfig where
  algoritmoPlanificacion := a
  estimacionInicial := 10
  gradoMultiprogramacion := 4
  nextEstimatedBurst := fun e _ => e

/-- A program of one I/O. -/
def ioProgram : Program := ⟨8, [⟨.io, []⟩, ⟨.exit, []⟩]⟩

/-- The CPU gives process 1 back for an I/O. -/
def ioReply : Reply := ⟨1, .ioSyscall, 1, 10, 5, 1⟩

/-- Process 1 runs and blocks: thread 6 receives the answer and thread 7 is the
suspension timer. -/
def blockRun : List (ℕ × Outcome) := admitRun ioProgram 5 ++ oks 11 3 ++ replyRun 6 ioReply ++ oks 7 6

/-- The timer has tested its flag when the I/O ends (thread 8), and takes the
mutex after the process has blocked again. -/
def staleRun : List (ℕ × Outcome) :=
  blockRun ++ oks 2 7 ++ oks 8 2 ++ oks 7 8 ++ oks 4 8 ++ oks 12 3 ++ replyRun 9 ioReply ++ oks 7 9 ++
    oks 4 7

/-- Enough for `Undisturbed`: no thread waits for the mutex when a timer is
cancelled, and every I/O timer starts. -/
def checkUndisturbed (c : Config Planner Action) (x : ℕ × Outcome) : Bool :=
  match c.threads[x.1]?, x.2 with
  | some (cancelSuspendTimer _ :: _), _ => c.threads.all fun l => !l.contains mutexLock
  | some (startBlockedTimer _ _ :: _), .ok => true
  | some (startBlockedTimer _ _ :: _), _ => false
  | _, _ => true

theorem undisturbed_of_check (c : Config Planner Action) (x : ℕ × Outcome)
    (h : checkUndisturbed c x = true) : Undisturbed c x := by
  unfold checkUndisturbed at h
  constructor
  · intro p k hk l hl t _ hm
    rw [hk] at h
    have := List.all_eq_true.mp h l hl
    simp [hm] at this
  · intro t p k hk ho
    rw [hk] at h
    split at h <;> simp_all

/-- The timer suspends process 1, and its I/O ends then. -/
def suspendRun : List (ℕ × Outcome) := blockRun ++ oks 9 7 ++ oks 8 2 ++ oks 11 8

theorem reach_ownEpisode_suspendRun : ∃ c, Reach (act (exampleConfig .fifo)) Undisturbed
    (start (exampleConfig .fifo)) c ∧ (c.state.pcbs 1).status = .suspendedReady ∧ OwnEpisode c := by
  have h1 : (run (act (exampleConfig .fifo)) checkUndisturbed (start (exampleConfig .fifo))
      suspendRun).map (fun c => (c.state.pcbs 1).status) = some .suspendedReady := by
    decide +kernel
  obtain ⟨c, hc, h2⟩ := Option.map_eq_some_iff.mp h1
  have hr := reach_of_run undisturbed_of_check Reach.start hc
  exact ⟨c, hr, h2, reach_ownEpisode (fun _ _ h => h) hr⟩

theorem not_ownEpisode : ¬ ∀ cfg c, Reach (act cfg) (fun _ _ => True) (start cfg) c → OwnEpisode c := by
  intro h
  have h1 : (run (act (exampleConfig .fifo)) (fun _ _ => true) (start (exampleConfig .fifo)) staleRun).map
      (fun c => (c.threads[7]?, c.state.armedIn 1, c.state.episode 1)) =
      some (some [assign 1 (.status .suspendedBlocked), semPost .ltpSemMultiprogrammingLevel,
        mutexUnlock, timerDestroy ⟨1, .mtpSuspendPcb, 1⟩], 0, 1) := by
    decide +kernel
  obtain ⟨c, hc, h2⟩ := Option.map_eq_some_iff.mp h1
  have hr := reach_of_run (fun _ _ _ => trivial) Reach.start hc
  simp only [Prod.mk.injEq] at h2
  obtain ⟨h3, h4, h5⟩ := h2
  have := (h _ c hr).moves _ (List.mem_of_getElem? h3) 1 1 (by simp [Calls]) (Or.inl rfl)
  omega

end Kernel
end Kiss
