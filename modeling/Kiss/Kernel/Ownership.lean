/-
# Every process is in one place and ends once

What the planner promises about where a PCB is: in one queue, the exec slot or
one I/O operation at most, pushed on the exit queue once, its console told once,
and nothing that can still run holds it once it is destroyed (`OnePlace`).

It holds of the orderly runs (`reach_onePlace`): no swap fails, no suspension
timer is cancelled after it has read its flag or left behind by an I/O timer
that cannot start, and the short-term controller pops no PCB that the I/O timer
which inserted it still uses. A failed swap is enough to break it:
`mtp_suspend_pcb` moves the PCB to exit and leaves it blocked
(`not_onePlace`).

Key definitions: `InIo`, `places`, `TimerUses`, `OnePlace`, `Orderly`.
Key theorems: `reach_onePlace`, `not_onePlace`.
-/
import Kiss.Kernel.Cancellation
import Mathlib.Tactic.FinCases

namespace Kiss
namespace Kernel

open Kernel.Action Place Threads

/-! ### What is promised -/

/-- The thread holds `p` for its I/O. -/
def InIo (p : ℕ) (k : List Action) : Bool := k.any fun
  | createBlockedTimer q | startBlockedTimer _ q | cancelSuspendTimer q => q = p
  | timerSleep t | timerTest t => t.callback = .mtpUnblockPcb && t.data = p
  | _ => false

/-- In how many places `p` is, each counted as often as it is there: the queues,
`planner->exec` and the I/O operations. -/
def places (p : ℕ) (c : Config Planner Action) : ℕ :=
  (c.state.queues .new).count p + (c.state.queues .suspendedReady).count p +
  (c.state.queues .ready).count p + (if c.state.exec = some p then 1 else 0) +
  ((c.state.queues .blocked).count p + c.threads.countP (InIo p)) + (c.state.queues .exit).count p

/-- The thread of a timer of `p` can still use it: the timer has not fired and
is not cancelled, or its callback has not used the PCB for the last time. -/
def TimerUses (p : ℕ) (s : Planner) (k : List Action) : Prop :=
  ∃ t : Timer, t.data = p ∧
    (((k.head? = some (timerSleep t) ∨ k.head? = some (timerTest t)) ∧ s.canceled t.id = false) ∨
      (timerDestroy t ∈ k ∧ ∃ a ∈ k, a.pcb = some p))

/-- `p` is in one place at most and ends once. -/
structure OnePlace (p : ℕ) (c : Config Planner Action) : Prop where
  places : places p c ≤ 1
  exits : c.state.exits.count p ≤ 1
  told : (c.state.told.map (·.1)).count p ≤ 1
  destroyed : p ∈ c.state.destroyed → (∀ q, p ∉ c.state.queues q) ∧ c.state.exec ≠ some p ∧
    ∀ k ∈ c.threads, ¬ TimerUses p c.state k

/-- The callback of an I/O timer has put the PCB in the ready queue and still uses it:
it has not written the status yet, or not tested it to interrupt the CPU. -/
def Late (p : ℕ) (k : List Action) : Prop :=
  (∃ t, timerDestroy t ∈ k) ∧ interruptIfBusy p ∈ k ∧ insertInOrder p ∉ k

/-- The step is no swap that fails. -/
def Swaps (c : Config Planner Action) (x : ℕ × Outcome) : Prop :=
  ∀ p k, c.threads[x.1]? = some (swappProcess p :: k) → ¬ Fails c.state x.2 (swappProcess p)

/-- No swap fails, and no PCB is popped while the callback that inserts it still
uses it. -/
structure Orderly (c : Config Planner Action) (x : ℕ × Outcome) : Prop extends Undisturbed c x where
  swapped : Swaps c x
  inserted : ∀ k, c.threads[x.1]? = some (popReady :: k) →
    ∀ p, (c.state.queues .ready).head? = some p → ∀ l ∈ c.threads, ¬ Late p l

/-! ### The counts -/

/-- Not pushed on the exit queue yet, or pushed. -/
def exiting : Place → ℤ
  | leaving | entering .exit | exits => 1
  | l => living l

/-- Its console not told yet, or told. -/
def telling : Place → ℤ
  | leaving | entering .exit | queued .exit | ending | told => 1
  | l => living l

/-- In I/O. -/
def inIo : Place → ℤ
  | io => 1
  | _ => 0

theorem exiting_nonneg (l : Place) : 0 ≤ exiting l := by
  unfold exiting
  split <;> first | omega | exact living_nonneg l
theorem telling_nonneg (l : Place) : 0 ≤ telling l := by
  unfold telling
  split <;> first | omega | exact living_nonneg l
theorem inIo_nonneg (l : Place) : 0 ≤ inIo l := by unfold inIo; split <;> omega

section Follows

variable {p : ℕ} {s : Planner} {o : Outcome} {a : Action}

theorem exiting_follows (hs : a = swappProcess p → ¬ Fails s o a) : Follows exiting p 0 s o a := by
  cases a
  case push q r => cases q <;> simp [Follows, exiting, living]
  case assign r f =>
    cases f
    case status st => cases st <;> simp [Follows, exiting, living]
    all_goals trivial
  case swappProcess r =>
    rintro rfl hf
    exact absurd hf (hs rfl)
  all_goals simp [Follows, exiting, living]

theorem telling_follows (hs : a = swappProcess p → ¬ Fails s o a) : Follows telling p 0 s o a := by
  cases a
  case push q r => cases q <;> simp [Follows, telling, living]
  case assign r f =>
    cases f
    case status st => cases st <;> simp [Follows, telling, living]
    all_goals trivial
  case swappProcess r =>
    rintro rfl hf
    exact absurd hf (hs rfl)
  all_goals simp [Follows, telling, living]

end Follows

section Reach

variable {cfg : KernelConfig} {ok : Config Planner Action → ℕ × Outcome → Prop}
  {c c' : Config Planner Action} {x : ℕ × Outcome} {p : ℕ} {a : Action} {k l : List Action}

/-- Where no swap fails, a count that no other move raises stays 1 at most. -/
theorem held_le_one {g : Place → ℤ} (h0 : ∀ l, 0 ≤ g l) (hb : g (queued .blocked) ≤ g arming)
    (hu : g unborn ≤ 1)
    (hf : ∀ s o a, (a = swappProcess p → ¬ Fails s o a) → Follows g p 0 s o a)
    (hok : ∀ c x, ok c x → Swaps c x) (h : Reach (act cfg) ok (start cfg) c) : held g p c ≤ 1 := by
  induction h with
  | start =>
    rw [start_held]
    split_ifs <;> omega
  | @step c c' x hr hx h ih =>
    have := held_step (g := g) (p := p) (d := 0) h0 hb (le_refl _) hr (fun a k hk =>
      hf _ _ _ fun ha => by
        subst ha
        exact hok c x hx p k hk) h
    omega

/-- An action of a thread that is in I/O holds the PCB, and no other one. -/
theorem weight_inIo (a : Action) : weight inIo p a = if InIo p [a] then 1 else 0 := by
  cases a
  case push q r => cases q <;> simp [weight, at', inIo, InIo]
  case assign r f =>
    cases f
    case status st => cases st <;> simp [weight, at', inIo, InIo]
    all_goals rfl
  case timerSleep t | timerTest t =>
    by_cases h : t.callback = .mtpUnblockPcb <;> simp [weight, at', inIo, InIo, h]
  all_goals simp [weight, at', inIo, InIo]

/-- A thread that is in I/O holds the PCB. -/
theorem inIo_le (h : InIo p k = true) : 1 ≤ load (weight inIo p) k := by
  obtain ⟨a, ha, hp⟩ := List.any_eq_true.mp h
  have h0 : ∀ x ∈ k.map (weight inIo p), 0 ≤ x := by
    simp only [List.mem_map, weight_inIo]
    rintro x ⟨b, -, rfl⟩
    split <;> simp
  have h1 : InIo p [a] = true := List.any_eq_true.mpr ⟨a, List.mem_singleton_self a, hp⟩
  calc 1 = weight inIo p a := by rw [weight_inIo, if_pos h1]
    _ ≤ load (weight inIo p) k := List.single_le_sum h0 _ (List.mem_map_of_mem ha)

/-- What the planner and the threads hold of a PCB, place by place. -/
theorem places_le (hr : Reach (act cfg) ok (start cfg) c) :
    (places p c + c.state.destroyed.count p : ℤ) ≤ held own p c := by
  have h1 : total (weight inIo p) c.threads ≤ total (weight own p) c.threads := by
    have h2 := total_add (weight inIo p) (weight (fun l => own l - inIo l) p) c.threads
    have h3 : (fun a => weight inIo p a + weight (fun l => own l - inIo l) p a) = weight own p := by
      funext a
      rw [← weight_add]
      congr 1
      funext l
      omega
    have h4 := total_nonneg fun k hk => (reach_grounded (p := p) (g := fun l => own l - inIo l)
      (fun l => by
        cases l
        case entering q | queued q => cases q <;> simp [own, living, finished, inIo]
        all_goals simp [own, living, finished, inIo]) (by simp [own, living, finished, inIo]) hr k hk).nonneg
    rw [h3] at h2
    omega
  have h2 := countP_le_total (InIo p) (weight inIo p) fun k hk =>
    ⟨(reach_grounded (p := p) inIo_nonneg (by simp [inIo]) hr k hk).nonneg, inIo_le⟩
  have h3 : (0 : ℤ) ≤ if c.state.pcbId < p then own unborn else 0 := by
    split_ifs <;> simp [own, living, finished]
  have h4 : (if c.state.exec = some p then own exec else 0) =
      ((if c.state.exec = some p then 1 else 0 : ℕ) : ℤ) := by
    split_ifs <;> simp [own, living, finished]
  unfold held value places
  simp only [sumAt_eq, h4]
  simp only [own, living, finished]
  push_cast
  omega

/-! ### The callback of the I/O timer -/

/-- What is left of `mtp_unblock_pcb` at each of its points. -/
def unblockPoints (p : ℕ) : List (List Action) :=
  [mtpUnblockPcb p, (mtpUnblockPcb p).drop 1, (mtpUnblockPcb p).drop 2, (mtpUnblockPcb p).drop 3,
    [unblockSwitch p, mutexUnlock],
    movePcbToReadyFifo p ++ [mutexUnlock], [push .ready p, semPost .stpSemPlan, mutexUnlock],
    movePcbToReadySrt p ++ [mutexUnlock], (movePcbToReadySrt p).drop 1 ++ [mutexUnlock],
    (movePcbToReadySrt p).drop 2 ++ [mutexUnlock], (movePcbToReadySrt p).drop 3 ++ [mutexUnlock],
    [semWait .stpSemInterrupt, sendInterrupt, semPost .stpSemPlan, mutexUnlock],
    [sendInterrupt, semPost .stpSemPlan, mutexUnlock],
    [setInterrupted, semPost .stpSemPlan, mutexUnlock], [semPost .stpSemPlan, mutexUnlock],
    movePcbToSuspendedReady p ++ [mutexUnlock],
    [push .suspendedReady p, semPost .ltpSemPlan, mutexUnlock], [semPost .ltpSemPlan, mutexUnlock],
    exitWithError p ++ [mutexUnlock], movePcbToExit p ++ [mutexUnlock],
    [semPost .ltpSemMultiprogrammingLevel, assign p (.status .exit), push .exit p,
      semPost .ltpSemExit, mutexUnlock],
    [assign p (.status .exit), push .exit p, semPost .ltpSemExit, mutexUnlock],
    [push .exit p, semPost .ltpSemExit, mutexUnlock], [semPost .ltpSemExit, mutexUnlock],
    [mutexUnlock], []]

/-- A thread that runs the callback of an I/O timer is at one of its points. -/
def AtUnblockPoint (k : List Action) : Prop := ∀ t p, timerDestroy ⟨t, .mtpUnblockPcb, p⟩ ∈ k →
  ∃ l ∈ unblockPoints p, k = l ++ [timerDestroy ⟨t, .mtpUnblockPcb, p⟩]

theorem unblock_flow {ts : List (List Action)} (hs : Suffixes (Shape cfg) (a :: k))
    (hk : AtUnblockPoint (a :: k)) (h : Flow cfg a l ts) : AtUnblockPoint (l ++ k) := by
  intro t p hu
  rcases destroy_flow h hu with hu' | rfl
  · obtain ⟨pre, hpre, heq⟩ := hk t p (List.mem_cons_of_mem _ hu')
    unfold unblockPoints at hpre
    fin_cases hpre <;> cases heq
    all_goals cases h
    case unblockReady =>
      unfold movePcbToReady unblockPoints
      split <;> repeat first
        | exact List.exists_mem_cons_of _ rfl
        | apply List.exists_mem_cons_of_exists
    all_goals first
      | (cases hu'; done)
      | (unfold unblockPoints
         repeat first
           | exact List.exists_mem_cons_of _ rfl
           | apply List.exists_mem_cons_of_exists)
  · have h1 := hs.self
    simp only [Shape] at h1
    subst h1
    cases h
    case done => simp at hu
    case canceled => exact ⟨[], by simp [unblockPoints], rfl⟩
    case callback => exact ⟨mtpUnblockPcb p, by simp [unblockPoints], rfl⟩

theorem reach_unblockPoint (h : Reach (act cfg) ok (start cfg) c) :
    ∀ k ∈ c.threads, AtUnblockPoint k := by
  have h1 : ∀ k ∈ c.threads, Suffixes (Shape cfg) k ∧ AtUnblockPoint k := by
    refine h.inv (I := fun c => ∀ k ∈ c.threads, Suffixes (Shape cfg) k ∧ AtUnblockPoint k) ?_ ?_
    · simp [start, Suffixes, Shape, AtUnblockPoint]
    · intro c c' x _ hc _ hx
      refine flow_threads hx hc ⟨trivial, by simp [AtUnblockPoint]⟩ fun a k l ts hk hf => ?_
      obtain ⟨h1, h2⟩ := shape_flow hk.1 hf
      refine ⟨⟨h1, unblock_flow hk.1 hk.2 hf⟩, fun t ht => ⟨h2 t ht, ?_⟩⟩
      cases hf <;> simp_all [AtUnblockPoint]
  exact fun k hk => (h1 k hk).2

/-- The callback of the I/O timer holds the PCB until it has put it in a queue. -/
theorem unblock_uses {t : ℕ} (hk : AtUnblockPoint k) (ht : timerDestroy ⟨t, .mtpUnblockPcb, p⟩ ∈ k)
    (hu : ∃ a ∈ k, a.pcb = some p) : 1 ≤ load (weight own p) k ∨ Late p k := by
  obtain ⟨pre, hpre, rfl⟩ := hk t p ht
  unfold unblockPoints at hpre
  fin_cases hpre <;> simp_all [Late, weight, at', own, living, finished, Action.pcb]

/-- What an action does to the ready queue. -/
theorem act_ready {o : Outcome} {s : Planner} {e : Effect Planner Action}
    (h : act cfg a o s = some e) (hp : p ∈ s.queues .ready) :
    p ∈ e.state.queues .ready ∨ a = popReady ∧ (s.queues .ready).head? = some p := by
  cases act_branch h
  case push q r => cases q <;> simp [hp]
  case popReady q l hq =>
    rw [hq] at hp ⊢
    rcases List.mem_cons.mp hp with rfl | hp
    · simp
    · simp [hp]
  all_goals simp [hp]

/-- The check for an interrupt comes with the insertion. -/
theorem insert_flow {ts : List (List Action)} (h : Flow cfg a l ts) :
    (interruptIfBusy p ∈ l → insertInOrder p ∈ l) ∧ ∀ k ∈ ts, interruptIfBusy p ∉ k := by
  rcases hc : cfg.algoritmoPlanificacion <;> cases h
  case fifo.loop f | srt.loop f => cases f <;> simp [body]
  case fifo.callback t | srt.callback t => rcases t with ⟨t, _ | _, q⟩ <;> simp [Timer.call]
  all_goals simp [movePcbToReady, applyReply, dispatchTail, hc]

/-- A PCB whose status a late callback has still to write is in the ready queue. -/
theorem late_ready (hok : ∀ c x, ok c x → Orderly c x) (h : Reach (act cfg) ok (start cfg) c) :
    ∀ k ∈ c.threads, Late p k → p ∈ c.state.queues .ready := by
  induction h with
  | start => simp [start, Late]
  | @step c c' x hr hx h ih =>
    obtain ⟨a, k, e, hk, he, rfl⟩ := step_some h
    have hm := List.mem_of_getElem? hk
    have hkeep : (∃ l ∈ c.threads, Late p l) → p ∈ e.state.queues .ready := by
      intro hlate
      obtain ⟨l, hl, hlate⟩ := hlate
      rcases act_ready he (ih l hl hlate) with h1 | ⟨rfl, h1⟩
      · exact h1
      · exact absurd hlate ((hok c x hx).inserted k hk p h1 l hl)
    intro k' hk' hlate
    rcases mem_threads hk' with ⟨j, -, hj⟩ | rfl | hk'
    · exact hkeep ⟨k', List.mem_of_getElem? hj, hlate⟩
    · unfold Effect.rest at hlate
      split at hlate
      · simp [Late] at hlate
      obtain ⟨⟨t, ht⟩, hi, hn⟩ := hlate
      rw [List.mem_append] at hi hn
      have hik : interruptIfBusy p ∈ k := hi.resolve_left fun h1 =>
        hn (Or.inl ((insert_flow (act_flow he)).1 h1))
      by_cases ha : a = insertInOrder p
      · subst ha
        cases act_branch he
        simp
      · rcases destroy_flow (act_flow he) ht with ht | rfl
        · exact hkeep ⟨_, hm, ⟨t, List.mem_cons_of_mem _ ht⟩, List.mem_cons_of_mem _ hik,
            by simp [Ne.symm ha]; tauto⟩
        · have h1 := (reach_shape hr _ hm).self
          simp only [Shape] at h1
          simp [h1] at hik
    · exact absurd hlate.2.1 ((insert_flow (act_flow he)).2 k' hk')

theorem not_destroyed_of_own (hle : held own p c ≤ 1) (hr : Reach (act cfg) ok (start cfg) c)
    (h : (∃ q, p ∈ c.state.queues q) ∨ c.state.exec = some p ∨
      ∃ k ∈ c.threads, 1 ≤ load (weight own p) k) : p ∉ c.state.destroyed := by
  intro hd
  have hpos := List.count_pos_iff.mpr hd
  rcases h with ⟨q, hq⟩ | he | ⟨k, hk, hw⟩
  · have h1 := places_le (p := p) hr
    have h2 := List.count_pos_iff.mpr hq
    unfold places at h1
    push_cast at h1
    cases q <;> omega
  · have h1 := places_le (p := p) hr
    unfold places at h1
    rw [if_pos he] at h1
    push_cast at h1
    omega
  · have h1 := le_total (fun l hl =>
      (reach_grounded (p := p) own_nonneg (by simp [own, living, finished]) hr l hl).nonneg) hk
    have h2 := (le_value (p := p) own_nonneg c.state).2.2.2.2.1
    rw [sumAt_eq] at h2
    simp only [own, living, finished] at h2
    unfold held at hle
    omega

theorem reach_onePlace (hok : ∀ c x, ok c x → Orderly c x) (h : Reach (act cfg) ok (start cfg) c)
    (p : ℕ) : OnePlace p c := by
  have hu : ∀ c x, ok c x → Undisturbed c x := fun c x hx => (hok c x hx).toUndisturbed
  have hs : ∀ c x, ok c x → Swaps c x := fun c x hx => (hok c x hx).swapped
  have hown := held_le_one (p := p) own_nonneg (by simp [own, living, finished])
    (by simp [own, living, finished]) (fun _ _ _ => own_follows) hs h
  have hexit := held_le_one (p := p) exiting_nonneg (by simp [exiting, living]) (by simp [exiting, living])
    (fun _ _ _ => exiting_follows) hs h
  have htell := held_le_one (p := p) telling_nonneg (by simp [telling, living]) (by simp [telling, living])
    (fun _ _ _ => telling_follows) hs h
  have hnd := not_destroyed_of_own hown h
  refine ⟨?_, ?_, ?_, fun hd => ⟨fun q hq => hnd (Or.inl ⟨q, hq⟩) hd,
    fun he => hnd (Or.inr (Or.inl he)) hd, ?_⟩⟩
  · have := places_le (p := p) h
    omega
  · have h1 := (le_value (p := p) exiting_nonneg c.state).2.2.1
    have h2 := value_le_held (p := p) exiting_nonneg (by simp [exiting, living]) h
    rw [sumAt_eq] at h1
    simp only [exiting] at h1
    omega
  · have h1 := (le_value (p := p) telling_nonneg c.state).2.2.2.1
    have h2 := value_le_held (p := p) telling_nonneg (by simp [telling, living]) h
    rw [sumAt_eq] at h1
    simp only [telling] at h1
    omega
  · rintro k hk ⟨⟨t, b, q⟩, rfl, hu'⟩
    revert hd
    cases b
    · -- an I/O timer holds the PCB, or has just put it in the ready queue
      rcases hu' with ⟨hs, -⟩ | ⟨ht, huse⟩
      · refine hnd (Or.inr (Or.inr ⟨k, hk, ?_⟩))
        have := reach_grounded (p := q) own_nonneg (by simp [own, living, finished]) h k hk
        rcases k with _ | ⟨a, k⟩
        · simp at hs
        · have h1 := this.tail.self
          rw [load_cons]
          rcases hs with hs | hs <;>
          · cases hs
            simp only [weight, at', own, living, finished, if_true]
            omega
      · rcases unblock_uses (reach_unblockPoint h k hk) ht huse with h1 | h1
        · exact hnd (Or.inr (Or.inr ⟨k, hk, h1⟩))
        · exact hnd (Or.inl ⟨.ready, late_ready hok h k hk h1⟩)
    · rcases hu' with hs | ⟨ht, huse⟩
      · have h1 := ((reach_episodes hu h).armed k hk t (Or.inr (Or.inl hs))).blocked
        have h2 := value_le_held (p := q) away_nonneg (by simp [away]) h
        exact not_destroyed (p := q) (by omega)
      · exact callback_alive hu h hk ht huse

end Reach

/-! ### Runs -/

/-- `Swaps`, evaluated. -/
def checkSwaps (c : Config Planner Action) (x : ℕ × Outcome) : Bool :=
  match c.threads[x.1]?, x.2 with
  | some (swappProcess _ :: _), .ok => !c.state.halt
  | some (swappProcess _ :: _), _ => false
  | _, _ => true

theorem swaps_of_check (c : Config Planner Action) (x : ℕ × Outcome)
    (h : checkSwaps c x = true) : Swaps c x := by
  intro p k hk
  unfold checkSwaps at h
  rw [hk] at h
  split at h <;> simp_all [Fails]

/-- Enough for `Orderly`. -/
def checkOrderly (c : Config Planner Action) (x : ℕ × Outcome) : Bool :=
  checkUndisturbed c x && checkSwaps c x &&
    match c.threads[x.1]? with
    | some (popReady :: _) => c.threads.all fun l => !l.any fun a => a.timer.isSome
    | _ => true

theorem orderly_of_check (c : Config Planner Action) (x : ℕ × Outcome)
    (h : checkOrderly c x = true) : Orderly c x := by
  obtain ⟨h12, h3⟩ := Bool.and_eq_true_iff.mp h
  obtain ⟨h1, h2⟩ := Bool.and_eq_true_iff.mp h12
  refine { undisturbed_of_check c x h1 with
    swapped := swaps_of_check c x h2, inserted := fun k hk p _ l hl => ?_ }
  rw [hk] at h3
  have := List.all_eq_true.mp h3 l hl
  rintro ⟨⟨t, ht⟩, -⟩
  simp only [Bool.not_eq_true', List.any_eq_false] at this
  simpa [Action.timer] using this _ ht

/-- Process 1 is suspended and comes back, runs its last instruction and ends. -/
def lifeRun : List (ℕ × Outcome) :=
  suspendRun ++ oks 1 7 ++ oks 1 8 ++ oks 9 0 ++ oks 11 3 ++ replyRun 9 { ioReply with cpuDispatchCond := .exitProgram } ++
    oks 7 9 ++ oks 8 1

theorem reach_onePlace_lifeRun : ∃ c, Reach (act (exampleConfig .fifo)) Orderly
    (start (exampleConfig .fifo)) c ∧ c.state.destroyed = [1] ∧ OnePlace 1 c := by
  have h1 : (run (act (exampleConfig .fifo)) checkOrderly (start (exampleConfig .fifo)) lifeRun).map
      (fun c => c.state.destroyed) = some [1] := by
    decide +kernel
  obtain ⟨c, hc, h2⟩ := Option.map_eq_some_iff.mp h1
  have hr := reach_of_run orderly_of_check Reach.start hc
  exact ⟨c, hr, h2, reach_onePlace (fun _ _ h => h) hr 1⟩

/-- The swap of process 1 fails: `mtp_suspend_pcb` pushes it on the exit queue,
and it is still in the blocked queue. -/
def failedSwapRun : List (ℕ × Outcome) := blockRun ++ oks 5 7 ++ [(7, .fail)] ++ oks 5 7

theorem not_onePlace : ¬ ∀ cfg c p, Reach (act cfg) (fun _ _ => True) (start cfg) c → OnePlace p c := by
  intro h
  have h1 : (run (act (exampleConfig .fifo)) (fun _ _ => true) (start (exampleConfig .fifo))
      failedSwapRun).map (places 1) = some 2 := by
    decide +kernel
  obtain ⟨c, hc, h2⟩ := Option.map_eq_some_iff.mp h1
  have := (h _ c 1 (reach_of_run (fun _ _ _ => trivial) Reach.start hc)).places
  omega

end Kernel
end Kiss
