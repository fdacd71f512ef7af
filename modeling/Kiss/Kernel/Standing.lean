/-
# Who writes the status of a PCB

Under FIFO a PCB gets its status and then goes to the queue, and the threads of the I/O
timers start. A failed swap leaves a PCB in two places, yet at most one thread is about to
write its status (`Standing.unstuck_le`): `mtp_suspend_pcb` writes it with the mutex, while
the PCB is in the blocked queue or in I/O, and only `mtp_unblock_pcb`, which needs the
mutex, takes it out of there. So whether a status counts for the degree of
multiprogramming follows from where the PCB is. It does where memory is taken again of PCBs that
nobody has, too (`Standing.reuse`).

Key definitions: `Planner.counted`, `Discards`, `Standing`, `Recreates`.
Key theorems: `Standing.reuse`, `reach_standing`.
-/
import Kiss.Calls
import Kiss.Kernel.Status
import Mathlib.Order.Interval.Finset.Nat

namespace Kiss
namespace Kernel

open Kernel.Action Place Threads

/-- The statuses that count for the degree of multiprogramming. -/
def counts : ProcessStatus → Bool
  | .ready | .exec | .blocked => true
  | _ => false

/-- The PCB counts for the degree of multiprogramming. -/
def Planner.counted (s : Planner) (p : ℕ) : Bool := counts (s.pcbs p).status

/-- `timer_start` does not fail. -/
def TimerStarts (a : Action) (o : Outcome) : Prop :=
  (∀ t p, a = startSuspendTimer t p → o = .ok) ∧ ∀ t p, a = startBlockedTimer t p → o = .ok

/-! ### The text under FIFO -/

/-- What comes before the assignment of `PCB_EXIT`. -/
def Action.prelude : Action → Bool
  | assign _ .error | assign _ .timerBlocked | exitMultiprogramming _
  | semPost .ltpSemMultiprogrammingLevel => true
  | _ => false

/-- A thread starts with the assignment of a status and the push that follows it, but for
what comes before `PCB_EXIT`. -/
def FifoText : List Action → Prop
  | a :: k => ((∀ q, a ≠ insertInOrder q) ∧ ∀ q, a = assign q (.status .ready) → k.head? = some (push .ready q)) ∧
      (∀ q, push .ready q ∈ k → a = assign q (.status .ready)) ∧
      ∀ q st, assign q (.status st) ∈ k → st = .exit ∧ a.prelude = true
  | [] => True

section Text

variable {cfg : KernelConfig} {a : Action} {k l : List Action} {ts : List (List Action)} {p : ℕ}

theorem fifo_flow (hc : cfg.algoritmoPlanificacion = .fifo) (hk : Suffixes FifoText (a :: k))
    (h : Flow cfg a l ts) : Suffixes FifoText (l ++ k) ∧ ∀ t ∈ ts, Suffixes FifoText t := by
  obtain ⟨⟨-, h1, h2⟩, h3⟩ := hk
  cases h
  case done => exact ⟨h3, by simp⟩
  case loop f => cases f <;> simp_all [Suffixes, FifoText, body, Action.prelude]
  case callback t =>
    rcases t with ⟨t, _ | _, q⟩ <;> simp_all [Suffixes, FifoText, Timer.call, Action.prelude]
  case exitMultiprogramming q =>
    exact ⟨⟨⟨⟨by simp, by simp⟩, by simpa using h1, fun q st hq => ⟨(h2 q st hq).1, rfl⟩⟩, h3⟩, by simp⟩
  all_goals
    simp_all [Suffixes, FifoText, movePcbToReady, applyReply, dispatchTail, Action.prelude]

theorem reach_fifo (hc : cfg.algoritmoPlanificacion = .fifo)
    {ok : Config Planner Action → ℕ × Outcome → Prop} {c₀ c : Config Planner Action} [Starts cfg ok c₀]
    (h : Reach (act cfg) ok c₀ c) : ∀ k ∈ c.threads, Suffixes FifoText k := by
  refine Starts.inv (I := fun c => ∀ k ∈ c.threads, Suffixes FifoText k) h ?_ ?_ ?_
  · simp [start, Suffixes, FifoText]
  · exact fun _ _ _ _ _ _ hk _ hx => flow_threads hx hk trivial fun a k l ts => fifo_flow hc
  · exact fun _ _ _ _ _ _ _ hk hx => reuse_threads hx hk trivial fun a k l ts => fifo_flow hc

end Text

/-! ### The places -/

/-- Not in the blocked queue nor in I/O, and not past the assignment of `PCB_EXIT`. -/
def unstuck (l : Place) : ℤ := free l + atPlace leaving l

/-- Not past the assignment of `PCB_EXIT`. -/
def present (l : Place) : ℤ := living l + atPlace leaving l

/-- With a status that counts for the degree of multiprogramming. -/
def countedAt : Place → ℤ
  | queued .ready | popped | dispatched | exec | returned | blocking => 1
  | _ => 0

/-- With one that does not. -/
def uncountedAt : Place → ℤ
  | unborn | entering .new | queued .new | admission | entering .suspendedReady
  | queued .suspendedReady => 1
  | _ => 0

theorem unstuck_nonneg (l : Place) : 0 ≤ unstuck l :=
  add_nonneg (free_nonneg l) (atPlace_nonneg leaving l)
theorem present_nonneg (l : Place) : 0 ≤ present l :=
  add_nonneg (living_nonneg l) (atPlace_nonneg leaving l)
theorem countedAt_nonneg (l : Place) : 0 ≤ countedAt l := by unfold countedAt; split <;> omega
theorem uncountedAt_nonneg (l : Place) : 0 ≤ uncountedAt l := by unfold uncountedAt; split <;> omega

section Follows

variable {p : ℕ} {s : Planner} {o : Outcome} {a : Action}

theorem unstuck_follows (hc : a ≠ cancelSuspendTimer p) (hs : a = swappProcess p → ¬ Fails s o a)
    (hb : TimerStarts a o) : Follows unstuck p 0 s o a := by
  cases a
  case push q r => cases q <;> simp [Follows, unstuck, free, atPlace, living, stuck]
  case assign r f =>
    cases f
    case status st => cases st <;> simp [Follows, unstuck, free, atPlace, living, stuck]
    all_goals trivial
  case cancelSuspendTimer r =>
    rintro rfl
    exact absurd rfl hc
  case swappProcess r =>
    rintro rfl hf
    exact absurd hf (hs rfl)
  case startBlockedTimer t r =>
    rintro rfl hf
    exact absurd (hb.2 t r rfl) hf
  all_goals simp [Follows, unstuck, free, atPlace, living, stuck]

theorem present_follows (hs : a = swappProcess p → ¬ Fails s o a) : Follows present p 0 s o a := by
  cases a
  case push q r => cases q <;> simp [Follows, present, atPlace, living]
  case assign r f =>
    cases f
    case status st => cases st <;> simp [Follows, present, atPlace, living]
    all_goals trivial
  case swappProcess r =>
    rintro rfl hf
    exact absurd hf (hs rfl)
  all_goals simp [Follows, present, atPlace, living]

theorem countedAt_follows (h1 : a ≠ push .ready p) (h2 : a ≠ insertInOrder p) :
    Follows countedAt p 0 s o a := by
  cases a
  case push q r =>
    cases q
    case ready => rintro rfl; exact absurd rfl h1
    all_goals simp [Follows, countedAt]
  case insertInOrder r => rintro rfl; exact absurd rfl h2
  case assign r f =>
    cases f
    case status st => cases st <;> simp [Follows, countedAt]
    all_goals trivial
  all_goals simp [Follows, countedAt]

theorem uncountedAt_follows (h : a = unblockSwitch p → (s.pcbs p).status ≠ .suspendedBlocked) :
    Follows uncountedAt p 0 s o a := by
  cases a
  case push q r => cases q <;> simp [Follows, uncountedAt]
  case assign r f =>
    cases f
    case status st => cases st <;> simp [Follows, uncountedAt]
    all_goals trivial
  case unblockSwitch r =>
    rintro rfl
    exact ⟨fun _ => by simp [uncountedAt], fun hs => absurd hs (h rfl), by simp [uncountedAt]⟩
  all_goals simp [Follows, uncountedAt]

end Follows

section Reach

variable {cfg : KernelConfig} {ok : Config Planner Action → ℕ × Outcome → Prop}
  {c₀ c c' : Config Planner Action} {x : ℕ × Outcome} {p t : ℕ} {a : Action} {k l : List Action}
  {st : ProcessStatus} {g : Place → ℤ} [Frees cfg ok c₀]

/-- Where the PCB is whose status a thread writes. -/
def fifoWriter : ProcessStatus → Place
  | .ready => entering .ready
  | st => writer st

theorem writer_load (hc : cfg.algoritmoPlanificacion = .fifo) (h0 : ∀ l, 0 ≤ g l)
    (hb : g (queued .blocked) ≤ g arming) (hr : Reach (act cfg) ok c₀ c)
    (hm : assign p (.status st) :: k ∈ c.threads) (hst : st ≠ .suspendedBlocked) :
    g (fifoWriter st) ≤ load (weight g p) (assign p (.status st) :: k) := by
  have hs := (reach_shape hr _ hm).self
  have hf := (reach_fifo hc hr _ hm).self
  have hg := reach_grounded (p := p) h0 hb hr _ hm
  cases st
  case suspendedBlocked => exact absurd rfl hst
  case ready =>
    obtain ⟨k', rfl⟩ := List.head?_eq_some_iff.mp (hf.1.2 p rfl)
    have h1 := hg.tail.tail.self
    simp only [load_cons, weight, at', fifoWriter, if_true] at h1 ⊢
    omega
  case new | suspendedReady =>
    obtain ⟨k', rfl⟩ := hs
    have h1 := hg.tail.tail.self
    simp only [load_cons, weight, at', fifoWriter, writer, if_true] at h1 ⊢
    omega
  case exit =>
    obtain ⟨k', rfl⟩ := hs
    have h1 := hg.tail.tail.self
    simp only [load_cons, weight, at', fifoWriter, writer, if_true] at h1 ⊢
    omega
  case exec =>
    simp only [Shape] at hs
    subst hs
    have h1 := hg.tail.tail.self
    simp only [load_cons, weight, at', fifoWriter, writer, if_true] at h1 ⊢
    omega
  case blocked =>
    simp only [Shape] at hs
    subst hs
    have h1 := hg.tail.tail.tail.self
    simp only [load_cons, weight, at', fifoWriter, writer, if_true] at h1 ⊢
    omega

/-! ### The invariant -/

/-- The swap has failed, and the callback has still to write `PCB_EXIT`. -/
def Discards (p : ℕ) (k : List Action) : Prop := (∃ t, Calls t p k) ∧ assign p (.status .exit) ∈ k

/-- What holds of the status of `p` and of who is to write it. -/
structure Standing (p : ℕ) (c : Config Planner Action) : Prop where
  suspends : ∀ k ∈ c.threads, ∀ t, Suspending t p k →
    (c.state.pcbs p).status = .blocked ∧ held unstuck p c ≤ 0
  places : held present p c ≤ 1 ∨ ∃ k ∈ c.threads, Discards p k
  discards : ∀ k ∈ c.threads, Discards p k → held unstuck p c ≤ 1
  blocks : (c.state.pcbs p).status = .blocked →
    held unstuck p c ≤ 0 ∨ ∃ k ∈ c.threads, Unblocking p k ∨ Discards p k
  inside : 1 ≤ held countedAt p c → c.state.counted p = true
  outside : 1 ≤ held uncountedAt p c → c.state.counted p = false
  /-- `move_pcb_to_ready__fifo` is called by the long-term controller with a PCB that does
  not count, and by `mtp_unblock_pcb` with one that does. -/
  readies : ∀ k ∈ c.threads, k.head? = some (assign p (.status .ready)) →
    (c.state.counted p = true ↔ loop .ltpNew ∉ k)
  pushes : ∀ k ∈ c.threads, k.head? = some (push .ready p) → c.state.counted p = true

theorem unstuck_le_present (hr : Reach (act cfg) ok c₀ c) :
    held unstuck p c ≤ held present p c := by
  refine held_mono hr (fun l => ?_) (by simp [unstuck, present, free, living, stuck, atPlace])
  have := stuck_nonneg l
  simp only [unstuck, present, free]
  omega

/-- One thread at most is about to write the status. -/
theorem Standing.unstuck_le (hr : Reach (act cfg) ok c₀ c) (hS : Standing p c) :
    held unstuck p c ≤ 1 := by
  rcases hS.places with h | ⟨k, hk, hd⟩
  · exact (unstuck_le_present hr).trans h
  · exact hS.discards k hk hd

/-! ### Who writes -/

/-- A status changes by an assignment, or when the PCB is created. -/
theorem act_status {o : Outcome} {s : Planner} {e : Effect Planner Action} (p : ℕ)
    (he : act cfg a o s = some e) : (e.state.pcbs p).status = (s.pcbs p).status ∨
    (∃ st, a = assign p (.status st) ∧ (e.state.pcbs p).status = st) ∨
    ∃ prog, a = ltpNewProcess prog ∧ p = s.pcbId + 1 ∧ (e.state.pcbs p).status = .new := by
  rcases act_pcb p he with h | ⟨f, rfl, h⟩ | ⟨-, h⟩ | ⟨u, -, -, h⟩ | ⟨-, h⟩ | ⟨prog, ha, hp, h, -⟩
  · exact Or.inl (by rw [h])
  · rw [h, assign_status]
    cases f
    case status st => exact Or.inr (Or.inl ⟨st, rfl, rfl⟩)
    all_goals exact Or.inl rfl
  · exact Or.inl (by rw [h])
  · exact Or.inl (by rw [h])
  · exact Or.inl (by rw [h])
  · exact Or.inr (Or.inr ⟨prog, ha, hp, h⟩)

/-- A PCB that is to be created is nowhere yet. -/
theorem unborn_held (hr : Reach (act cfg) ok c₀ c) (hp : c.state.pcbId < p) :
    1 ≤ held (atPlace unborn) p c := by
  have h1 := (le_value (p := p) (atPlace_nonneg unborn) c.state).2.2.2.2.2
  have h2 := value_le_held (p := p) (atPlace_nonneg unborn) (by simp [atPlace]) hr
  rw [if_pos hp] at h1
  have h3 : atPlace unborn unborn = 1 := rfl
  omega

/-- Two counts of different places under `unstuck` are not both 1. -/
theorem Standing.disjoint {f : Place → ℤ} (hr : Reach (act cfg) ok c₀ c) (hS : Standing p c)
    (hle : ∀ l, g l + f l ≤ unstuck l) (hb : g arming + f arming = g (queued .blocked) + f (queued .blocked))
    (h1 : 1 ≤ held g p c) (h2 : 1 ≤ held f p c) : False := by
  have h3 := held_add g f p c
  have h4 := held_mono (p := p) hr hle (by simp [unstuck, free, living, stuck, atPlace, hb])
  have h5 := hS.unstuck_le hr
  omega

/-- The callback that writes `PCB_SUSPENDED_BLOCKED` has found the PCB blocked. -/
theorem suspending_of_assign (hr : Reach (act cfg) ok c₀ c)
    (hm : assign p (.status .suspendedBlocked) :: k ∈ c.threads) :
    ∃ t, Suspending t p (assign p (.status .suspendedBlocked) :: k) := by
  obtain ⟨t, rfl⟩ := (reach_shape hr _ hm).self
  exact ⟨t, by simp [Suspending, Deciding, Calls]⟩

/-- A PCB in a place under `unstuck` keeps its status, unless the thread that has it there
writes it. -/
theorem Standing.kept (hc : cfg.algoritmoPlanificacion = .fifo) (hr : Reach (act cfg) ok c₀ c)
    (hS : Standing p c) (hk : c.threads[x.1]? = some (a :: k)) {e : Effect Planner Action}
    (he : act cfg a x.2 c.state = some e) (h0 : ∀ l, 0 ≤ g l) (hle : ∀ l, g l ≤ unstuck l)
    (h1 : 1 ≤ held g p c) : (e.state.pcbs p).status = (c.state.pcbs p).status ∨
    (∃ st, a = assign p (.status st) ∧ (e.state.pcbs p).status = st ∧ 1 ≤ g (fifoWriter st)) ∨
    ((e.state.pcbs p).status = .new ∧ 1 ≤ g unborn) := by
  have hm := List.mem_of_getElem? hk
  have hu : ∀ l, unstuck l = 0 → g l = 0 := fun l hl => by
    have := h0 l
    have := hle l
    omega
  have hbg : g arming = g (queued .blocked) := by
    rw [hu arming (by simp [unstuck, free, living, stuck, atPlace]),
      hu (queued .blocked) (by simp [unstuck, free, living, stuck, atPlace])]
  -- `p` is not in another place
  have hother : ∀ w, w ≠ queued .blocked → w ≠ arming → unstuck w = 1 → 1 ≤ held (atPlace w) p c →
      1 ≤ g w := fun w hw1 hw2 hw hh => by
    by_contra hgw
    refine hS.disjoint hr (g := g) (f := atPlace w) (fun l => ?_) ?_ h1 hh
    · by_cases hl : l = w
      · subst hl
        have := h0 l
        simp only [atPlace, if_true]
        omega
      · have := hle l
        simp only [atPlace, if_neg hl]
        omega
    · simp [atPlace, hbg, Ne.symm hw1, Ne.symm hw2]
  rcases act_status p he with h | ⟨st, rfl, h⟩ | ⟨prog, rfl, hp, h⟩
  · exact Or.inl h
  · refine Or.inr (Or.inl ⟨st, rfl, h, ?_⟩)
    by_cases hst : st = .suspendedBlocked
    · subst hst
      exfalso
      obtain ⟨t, ht⟩ := suspending_of_assign hr hm
      have h2 := (hS.suspends _ hm t ht).2
      have h3 := held_mono (p := p) hr hle (by simp [unstuck, free, living, stuck, atPlace, hbg])
      omega
    · have hw : fifoWriter st ≠ queued .blocked ∧ fifoWriter st ≠ arming := by
        cases st <;> simp [fifoWriter, writer]
      refine hother _ hw.1 hw.2 ?_ ?_
      · cases st <;> simp [fifoWriter, writer, unstuck, free, living, stuck, atPlace]
      · have h2 := writer_load (p := p) (g := atPlace (fifoWriter st)) hc (atPlace_nonneg _)
          (by simp [atPlace, Ne.symm hw.1]; split_ifs <;> omega) hr hm hst
        have h3 := load_le_held (p := p) (g := atPlace (fifoWriter st)) (atPlace_nonneg _)
          (by simp [atPlace, Ne.symm hw.1]; split_ifs <;> omega) hr hm
        have h4 : atPlace (fifoWriter st) (fifoWriter st) = 1 := if_pos rfl
        omega
  · exact Or.inr (Or.inr ⟨h, hother unborn (by simp) (by simp) rfl (unborn_held hr (by omega))⟩)

/-- A thread that is about to call `move_pcb_to_ready__fifo` or to push holds the PCB. -/
theorem readying_load (hc : cfg.algoritmoPlanificacion = .fifo) (hr : Reach (act cfg) ok c₀ c)
    (hm : k ∈ c.threads)
    (hk : k.head? = some (assign p (.status .ready)) ∨ k.head? = some (push .ready p)) :
    1 ≤ load (weight unstuck p) k := by
  have hb : unstuck (queued .blocked) ≤ unstuck arming := by
    simp [unstuck, free, living, stuck, atPlace]
  rcases hk with hk | hk
  · obtain ⟨k', rfl⟩ := List.head?_eq_some_iff.mp hk
    exact writer_load hc unstuck_nonneg hb hr hm (by simp)
  · obtain ⟨k', rfl⟩ := List.head?_eq_some_iff.mp hk
    have h1 := (reach_grounded (p := p) unstuck_nonneg hb hr _ hm).tail.self
    have h2 : weight unstuck p (push .ready p) = 1 := by
      simp [weight, at', unstuck, free, living, stuck, atPlace]
    rw [load_cons]
    omega

/-- While another thread puts the PCB in the ready queue, no thread writes its status. -/
theorem Standing.ready_kept (hc : cfg.algoritmoPlanificacion = .fifo)
    (hr : Reach (act cfg) ok c₀ c) (hS : Standing p c) (hk : c.threads[x.1]? = some (a :: k))
    {e : Effect Planner Action} (he : act cfg a x.2 c.state = some e) {j : ℕ}
    (hj : c.threads[j]? = some l) (hne : j ≠ x.1)
    (hl : l.head? = some (assign p (.status .ready)) ∨ l.head? = some (push .ready p)) :
    (e.state.pcbs p).status = (c.state.pcbs p).status := by
  have hm := List.mem_of_getElem? hk
  have hb : unstuck (queued .blocked) ≤ unstuck arming := by
    simp [unstuck, free, living, stuck, atPlace]
  have h1 := readying_load hc hr (List.mem_of_getElem? hj) hl
  have h2 := load_le_held (p := p) unstuck_nonneg hb hr (List.mem_of_getElem? hj)
  have hg := fun t ht => (reach_grounded (p := p) unstuck_nonneg hb hr t ht).nonneg
  rcases act_status p he with h | ⟨st, rfl, h⟩ | ⟨prog, rfl, hp, h⟩
  · exact h
  · exfalso
    by_cases hst : st = .suspendedBlocked
    · subst hst
      obtain ⟨t, ht⟩ := suspending_of_assign hr hm
      have := (hS.suspends _ hm t ht).2
      omega
    · have h3 := writer_load (p := p) (g := unstuck) hc unstuck_nonneg hb hr hm hst
      have h4 : unstuck (fifoWriter st) = 1 := by
        cases st <;> first
          | exact absurd rfl hst
          | simp [fifoWriter, writer, unstuck, free, living, stuck, atPlace]
      have h5 := add_le_total hg hj hk hne
      have h6 := value_nonneg (p := p) unstuck_nonneg c.state
      have h7 := hS.unstuck_le hr
      unfold held at h7
      omega
  · exfalso
    have h3 := le_total hg (List.mem_of_getElem? hj)
    have h4 := (le_value (p := p) unstuck_nonneg c.state).2.2.2.2.2
    rw [if_pos (by omega)] at h4
    have h5 : unstuck unborn = 1 := rfl
    have h6 := hS.unstuck_le hr
    unfold held at h6
    omega

/-! ### The steps -/

theorem unstuck_step (hr : Reach (act cfg) ok c₀ c) (hx : Threads.step (act cfg) c x = some c')
    (hk : c.threads[x.1]? = some (a :: k)) (ht : TimerStarts a x.2) (h1 : a ≠ cancelSuspendTimer p)
    (h2 : a = swappProcess p → ¬ Fails c.state x.2 a) : held unstuck p c' ≤ held unstuck p c := by
  have := held_step (g := unstuck) (p := p) (d := 0) unstuck_nonneg
    (by simp [unstuck, free, living, stuck, atPlace]) (le_refl _) hr (fun b l hl => by
      rw [hk] at hl
      cases hl
      exact unstuck_follows h1 h2 ht) hx
  omega

/-- The callback that takes the PCB out holds the mutex. -/
theorem discards_holds (hk : AtPoint k) (h : Discards p k) : load mutexWeight k = 1 := by
  obtain ⟨⟨t, ht⟩, hm⟩ := h
  obtain ⟨pre, hpre, rfl⟩ := hk t p ht
  simp only [suspendPoints, List.mem_cons, List.not_mem_nil, or_false] at hpre
  rcases hpre with rfl | rfl | rfl | rfl | rfl | rfl | rfl | rfl | rfl | rfl | rfl | rfl | rfl | rfl <;>
    simp_all [mutexWeight]

/-- Only the thread that holds the mutex takes a blocked PCB out of where it is. -/
theorem unstuck_keep (hr : Reach (act cfg) ok c₀ c)
    (hx : Threads.step (act cfg) c x = some c') (hk : c.threads[x.1]? = some (a :: k))
    (ht : TimerStarts a x.2) {j : ℕ} (hj : c.threads[j]? = some l) (hne : j ≠ x.1)
    (hl : load mutexWeight l = 1) : held unstuck p c' ≤ held unstuck p c := by
  have hs := (reach_shape hr _ (List.mem_of_getElem? hk)).self
  have hmut : a ≠ cancelSuspendTimer p ∧ a ≠ swappProcess p := by
    constructor <;> rintro rfl
    · have h1 := locked_shape hs (Or.inr (Or.inl rfl))
      exact hne (mutex_unique hr hj hk (by omega) (by omega))
    · have h1 := locked_shape hs (Or.inr (Or.inr (Or.inl rfl)))
      exact hne (mutex_unique hr hj hk (by omega) (by omega))
  exact unstuck_step hr hx hk ht hmut.1 fun h => absurd h hmut.2

/-- While the PCB is stuck, only the suspension writes its status. -/
theorem status_stuck (hc : cfg.algoritmoPlanificacion = .fifo) (hr : Reach (act cfg) ok c₀ c)
    (hk : c.threads[x.1]? = some (a :: k)) {e : Effect Planner Action}
    (he : act cfg a x.2 c.state = some e) (h : held unstuck p c ≤ 0)
    (ha : a ≠ assign p (.status .suspendedBlocked)) :
    (e.state.pcbs p).status = (c.state.pcbs p).status := by
  have hm := List.mem_of_getElem? hk
  have hb : unstuck (queued .blocked) ≤ unstuck arming := by
    simp [unstuck, free, living, stuck, atPlace]
  rcases act_status p he with h1 | ⟨st, rfl, -⟩ | ⟨prog, -, hp, -⟩
  · exact h1
  · exfalso
    have hst : st ≠ .suspendedBlocked := by
      rintro rfl
      exact ha rfl
    have h2 := writer_load (p := p) (g := unstuck) hc unstuck_nonneg hb hr hm hst
    have h3 := load_le_held (p := p) unstuck_nonneg hb hr hm
    have h4 : unstuck (fifoWriter st) = 1 := by
      cases st <;> first
        | exact absurd rfl hst
        | simp [fifoWriter, writer, unstuck, free, living, stuck, atPlace]
    omega
  · exfalso
    have h2 := unborn_held (p := p) hr (by omega)
    have h3 := held_mono (p := p) (g := atPlace unborn) (f := unstuck) hr (fun l => by
      by_cases hl : l = unborn
      · subst hl
        exact le_of_eq rfl
      · simpa [atPlace, hl] using unstuck_nonneg l) (by simp [unstuck, free, living, stuck, atPlace])
    omega

theorem Standing.suspends_step (hc : cfg.algoritmoPlanificacion = .fifo)
    (hr : Reach (act cfg) ok c₀ c) (hS : Standing p c) (hto : Allows TimerStarts c x)
    (hx : Threads.step (act cfg) c x = some c') : ∀ k ∈ c'.threads, ∀ t, Suspending t p k →
      (c'.state.pcbs p).status = .blocked ∧ held unstuck p c' ≤ 0 := by
  obtain ⟨a, k, e, hk, he, hc'⟩ := step_some hx
  have hm := List.mem_of_getElem? hk
  have hs := reach_shape hr _ hm
  have ht := hto a k hk
  have hstate : c'.state = e.state := by rw [hc']
  intro k' hk' t hsus
  rw [hc'] at hk'
  rcases mem_threads hk' with ⟨j, hj, hkj⟩ | rfl | hk'
  · have hlm := List.mem_of_getElem? hkj
    obtain ⟨h1, h2⟩ := hS.suspends k' hlm t hsus
    have h3 := callback_holds (reach_callback hr k' hlm) (Or.inl hsus.1)
    have h4 := unstuck_keep (p := p) hr hx hk ht hkj hj h3
    refine ⟨?_, by omega⟩
    rw [hstate, status_stuck hc hr hk he h2 ?_, h1]
    rintro rfl
    obtain ⟨u, hu⟩ := suspending_of_assign hr hm
    have h5 := callback_holds (reach_callback hr _ hm) (Or.inl hu.1)
    exact hj (mutex_unique hr hkj hk (by omega) (by omega))
  · unfold Effect.rest at hsus
    split at hsus
    · simp [Suspending, Deciding, Calls] at hsus
    rcases deciding_flow hs (reach_callback hr _ hm) (act_flow he) hsus.1 with ⟨rfl, hw⟩ | ⟨hd, ha⟩
    · obtain ⟨u, rfl⟩ := hs.self
      simp [Suspending] at hsus
    · have h1 : (c.state.pcbs p).status = .blocked ∧ held unstuck p c ≤ 0 := by
        rcases ha with rfl | ⟨rfl, -⟩
        · -- the PCB was found blocked, and no other thread is in the mutex
          have hst : (c.state.pcbs p).status = .blocked := by
            by_contra hn
            cases act_branch he
            case suspends => exact hn ‹_›
            case notSuspends =>
              obtain ⟨u, rfl⟩ := hs.self
              simp [Suspending, Deciding] at hsus
          refine ⟨hst, (hS.blocks hst).resolve_right ?_⟩
          rintro ⟨l, hl, hun⟩
          obtain ⟨j, hj⟩ := List.mem_iff_getElem?.mp hl
          have h2 := callback_holds (reach_callback hr _ hm) (Or.inl hd)
          have h3 : 1 ≤ load mutexWeight l := by
            rcases hun with hun | hun
            · exact hun.1
            · exact (discards_holds (reach_callback hr _ hl) hun).ge
          have hij := mutex_unique hr hj hk h3 (by omega)
          subst hij
          rw [hk] at hj
          cases hj
          obtain ⟨u, rfl⟩ := hs.self
          rcases hun with ⟨-, -, hun⟩ | ⟨-, hun⟩ <;> simp at hun
        · obtain ⟨u, rfl⟩ := hs.self
          exact hS.suspends _ hm u (by simp [Suspending, Deciding, Calls])
      have h2 := unstuck_step (p := p) hr hx hk ht (by rintro rfl; simp at ha) fun hsw hf => by
        subst hsw
        rcases ha with ha | ⟨-, ha⟩
        · cases ha
        · generalize x.2 = o at he hf
          cases act_branch he
          case swapped hh _ =>
            rcases hf with hf | hf
            · rw [hh] at hf
              cases hf
            · exact hf rfl
          all_goals exact ha rfl
      refine ⟨?_, by omega⟩
      rw [hstate, status_stuck hc hr hk he h1.2 (by rintro rfl; simp at ha), h1.1]
  · exact absurd hsus.1.1 (spawned_flow (t := t) (p := p) (s := c.state) (act_flow he) hk').2.1

/-- Where a thread that discards the PCB was before. -/
theorem discards_flow {ts : List (List Action)} (hs : Suffixes (Shape cfg) (a :: k)) (hk : AtPoint (a :: k))
    (h : Flow cfg a l ts) (hd : Discards p (l ++ k)) :
    a = swappProcess p ∨ Discards p (a :: k) ∧ a ≠ cancelSuspendTimer p := by
  obtain ⟨⟨t, ht⟩, hm⟩ := hd
  rcases callback_flow hs hk h ht with ⟨rfl, rfl⟩ | ⟨pre, hpre, heq⟩
  · cases h <;> simp_all [Timer.call]
  · simp only [suspendPoints, List.mem_cons, List.not_mem_nil, or_false] at hpre
    rcases hpre with rfl | rfl | rfl | rfl | rfl | rfl | rfl | rfl | rfl | rfl | rfl | rfl | rfl | rfl <;>
      cases heq <;> cases h <;> simp_all [Discards, Calls]

/-- The callback discards the PCB until it has written `PCB_EXIT`. -/
theorem discards_rest {o : Outcome} {s : Planner} {e : Effect Planner Action} (hs : Shape cfg (a :: k))
    (he : act cfg a o s = some e) (ha : a ≠ assign p (.status .exit)) (hd : Discards p (a :: k)) :
    Discards p (e.rest k) := by
  obtain ⟨⟨t, ht⟩, hm⟩ := hd
  have hmk := (List.mem_cons.mp hm).resolve_left (Ne.symm ha)
  have htk : timerDestroy ⟨t, .mtpSuspendPcb, p⟩ ∈ k := by
    refine (List.mem_cons.mp ht).resolve_left ?_
    rintro rfl
    simp only [Shape] at hs
    simp [hs] at hmk
  have hstop : ¬ e.stop = true := fun hstop => stop_shape hs he hstop _ htk
  rw [Effect.rest, if_neg hstop]
  exact ⟨⟨t, List.mem_append_right _ htk⟩, List.mem_append_right _ hmk⟩

/-- A failed swap. -/
theorem discards_of_fails {o : Outcome} {s : Planner} {e : Effect Planner Action}
    (hs : Shape cfg (swappProcess p :: k)) (he : act cfg (swappProcess p) o s = some e)
    (hf : Fails s o (swappProcess p)) : Discards p (e.rest k) := by
  obtain ⟨t, rfl⟩ := hs
  cases act_branch he
  case swapped hh =>
    rcases hf with hf | hf
    · rw [hh] at hf
      cases hf
    · exact absurd rfl hf
  all_goals exact ⟨⟨t, by simp [Effect.rest, Calls]⟩, by simp [Effect.rest]⟩

/-- Other threads discard what they did. -/
theorem discards_other {e : Effect Planner Action} {j : ℕ} (hj : c.threads[j]? = some l) (hne : j ≠ x.1)
    (hd : Discards p l) : ∃ k' ∈ c.threads.set x.1 (e.rest k) ++ e.spawn, Discards p k' :=
  ⟨l, mem_threads_of_ne hj hne, hd⟩

/-- The assignment of `PCB_EXIT` leaves one thread less that is about to make it. -/
theorem leaving_step (hx : Threads.step (act cfg) c x = some c')
    (hk : c.threads[x.1]? = some (assign p (.status .exit) :: k)) :
    held (atPlace leaving) p c' + 1 = held (atPlace leaving) p c := by
  obtain ⟨b, k', e, hk', he, hs, ht⟩ := total_step (weight (atPlace leaving) p) hx
  rw [hk] at hk'
  cases hk'
  have hw : weight (atPlace leaving) p (assign p (.status .exit)) = 1 := by
    simp [weight, at', atPlace]
  generalize x.2 = o at he
  cases act_branch he
  have hv : value (atPlace leaving) p (c.state.setPcb p ((c.state.pcbs p).assign (.status .exit))) =
      value (atPlace leaving) p c.state := rfl
  unfold held
  rw [ht, hs, hv, hw]
  simp only [Effect.rest, Bool.false_eq_true, if_false, List.nil_append, total_nil]
  omega

theorem Standing.places_step (hr : Reach (act cfg) ok c₀ c)
    (hr' : Reach (act cfg) ok c₀ c') (hS : Standing p c)
    (hx : Threads.step (act cfg) c x = some c') :
    held present p c' ≤ 1 ∨ ∃ k ∈ c'.threads, Discards p k := by
  obtain ⟨a, k, e, hk, he, hc'⟩ := step_some hx
  have hs := (reach_shape hr _ (List.mem_of_getElem? hk)).self
  have hmem : e.rest k ∈ c'.threads := by
    rw [hc']
    exact mem_threads_self hk
  by_cases hf : a = swappProcess p ∧ Fails c.state x.2 a
  · obtain ⟨rfl, hf⟩ := hf
    exact Or.inr ⟨_, hmem, discards_of_fails hs he hf⟩
  rcases hS.places with h | ⟨l, hl, hd⟩
  · have := held_step (g := present) (p := p) (d := 0) present_nonneg
      (by simp [present, living, atPlace]) (le_refl _) hr (fun b l hl => by
        rw [hk] at hl
        cases hl
        exact present_follows fun h1 h2 => hf ⟨h1, h2⟩) hx
    exact Or.inl (by omega)
  · obtain ⟨j, hj⟩ := List.mem_iff_getElem?.mp hl
    by_cases hjx : j = x.1
    · subst hjx
      rw [hk] at hj
      cases hj
      by_cases ha : a = assign p (.status .exit)
      · -- the PCB stays where the failed swap left it
        subst ha
        have h1 := leaving_step hx hk
        have h2 := held_add living (atPlace leaving) p c'
        have h3 := living_le_one (p := p) hr'
        have h4 := hS.discards _ hl hd
        have h5 := held_add free (atPlace leaving) p c
        have h6 := held_nonneg (p := p) free_nonneg (by simp [free, living, stuck]) hr
        have h7 : held present p c' = held living p c' + held (atPlace leaving) p c' := h2
        have h8 : held unstuck p c = held free p c + held (atPlace leaving) p c := h5
        exact Or.inl (by omega)
      · exact Or.inr ⟨_, hmem, discards_rest hs he ha hd⟩
    · rw [hc']
      exact Or.inr (discards_other hj hjx hd)

theorem Standing.discards_step (hr : Reach (act cfg) ok c₀ c) (hS : Standing p c)
    (hto : Allows TimerStarts c x) (hx : Threads.step (act cfg) c x = some c') :
    ∀ k ∈ c'.threads, Discards p k → held unstuck p c' ≤ 1 := by
  obtain ⟨a, k, e, hk, he, hc'⟩ := step_some hx
  have hm := List.mem_of_getElem? hk
  have hs := reach_shape hr _ hm
  intro k' hk' hd
  rw [hc'] at hk'
  rcases mem_threads hk' with ⟨j, hj, hkj⟩ | rfl | hk'
  · have hl := List.mem_of_getElem? hkj
    have h1 := hS.discards k' hl hd
    have h2 := unstuck_keep (p := p) hr hx hk (hto a k hk) hkj hj (discards_holds (reach_callback hr k' hl) hd)
    omega
  · unfold Effect.rest at hd
    split at hd
    · simp [Discards] at hd
    rcases discards_flow hs (reach_callback hr _ hm) (act_flow he) hd with rfl | ⟨hd', ha⟩
    · -- the swap fails: the PCB was stuck
      obtain ⟨t, rfl⟩ := hs.self
      have h1 := (hS.suspends _ hm t (by simp [Suspending, Deciding, Calls])).2
      have h2 := held_step (g := unstuck) (p := p) (d := 1) unstuck_nonneg
        (by simp [unstuck, free, living, stuck, atPlace]) (by omega) hr (fun b l hl => by
          rw [hk] at hl
          cases hl
          rintro - -
          simp [unstuck, free, living, stuck, atPlace]) hx
      omega
    · have h1 := hS.discards _ hm hd'
      have h2 := unstuck_step (p := p) hr hx hk (hto a k hk) ha fun hsw => by
        subst hsw
        obtain ⟨t, rfl⟩ := hs.self
        simp [Discards] at hd'
      omega
  · exact absurd hd.1.choose_spec (spawned_flow (p := p) (s := c.state) (act_flow he) hk').2.1

theorem Standing.blocks_step (hr : Reach (act cfg) ok c₀ c)
    (hr' : Reach (act cfg) ok c₀ c') (hS : Standing p c) (hto : Allows TimerStarts c x)
    (hx : Threads.step (act cfg) c x = some c') (h : (c'.state.pcbs p).status = .blocked) :
    held unstuck p c' ≤ 0 ∨ ∃ k ∈ c'.threads, Unblocking p k ∨ Discards p k := by
  obtain ⟨a, k, e, hk, he, hc'⟩ := step_some hx
  have hs := (reach_shape hr _ (List.mem_of_getElem? hk)).self
  have hmem : e.rest k ∈ c'.threads := by
    rw [hc']
    exact mem_threads_self hk
  have hdis : ∀ l ∈ c.threads, Discards p l → ∃ k ∈ c'.threads, Unblocking p k ∨ Discards p k := by
    intro l hl hd
    obtain ⟨j, hj⟩ := List.mem_iff_getElem?.mp hl
    by_cases hjx : j = x.1
    · subst hjx
      rw [hk] at hj
      cases hj
      refine ⟨_, hmem, Or.inr (discards_rest hs he ?_ hd)⟩
      rintro rfl
      cases act_branch he
      rw [hc'] at h
      simp [Pcb.assign] at h
    · obtain ⟨k', hk', hd'⟩ := discards_other (e := e) (k := k) hj hjx hd
      exact ⟨k', by rw [hc']; exact hk', Or.inr hd'⟩
  rcases blocked_act he (by rw [hc'] at h; exact h) with hst | rfl
  · rcases hS.blocks hst with h1 | ⟨l, hl, hu | hd⟩
    · by_cases ha : a = cancelSuspendTimer p
      · subst ha
        obtain ⟨u, rfl⟩ := hs
        cases act_branch he <;>
          exact Or.inr ⟨_, hmem, Or.inl (by simp [Effect.rest, Unblocking, mutexWeight])⟩
      · by_cases hf : a = swappProcess p ∧ Fails c.state x.2 a
        · obtain ⟨rfl, hf⟩ := hf
          exact Or.inr ⟨_, hmem, Or.inr (discards_of_fails hs he hf)⟩
        · have := unstuck_step (p := p) hr hx hk (hto a k hk) ha fun h1 h2 => hf ⟨h1, h2⟩
          exact Or.inl (by omega)
    · obtain ⟨k', hk', hu'⟩ := hu.step hr hx hst h hl
      exact Or.inr ⟨k', hk', Or.inl hu'⟩
    · exact Or.inr (hdis l hl hd)
  · rcases hS.places with h1 | ⟨l, hl, hd⟩
    · -- the PCB is in its one place, the blocked queue
      left
      have h2 := held_step (g := present) (p := p) (d := 0) present_nonneg
        (by simp [present, living, atPlace]) (le_refl _) hr (fun b l hl => by
          rw [hk] at hl
          cases hl
          exact present_follows (by simp)) hx
      simp only [Shape] at hs
      subst hs
      cases act_branch he
      have h3 := load_le_held (p := p) stuck_nonneg (by simp [stuck]) hr' hmem
      have h4 : load (weight stuck p) (push .blocked p :: setSuspendTimer p :: semPost .mtpSemPlanner ::
          afterSwitch cfg p) = 1 := by
        simp [weight, at', stuck, afterSwitch]
      rw [Effect.rest, if_neg Bool.false_ne_true, List.nil_append, h4] at h3
      have h5 := held_add stuck unstuck p c'
      have h6 : (fun l => stuck l + unstuck l) = present := by
        funext l
        simp only [unstuck, present, free]
        ring
      rw [h6] at h5
      omega
    · exact Or.inr (hdis l hl hd)

theorem counts_of_countedAt (h : 1 ≤ countedAt (fifoWriter st)) : counts st = true := by
  cases st <;> simp [fifoWriter, writer, countedAt] at h <;> rfl

theorem not_counts_of_uncountedAt (h : 1 ≤ uncountedAt (fifoWriter st)) : counts st = false := by
  cases st <;> simp [fifoWriter, writer, uncountedAt] at h <;> rfl

theorem Standing.inside_step (hc : cfg.algoritmoPlanificacion = .fifo)
    (hr : Reach (act cfg) ok c₀ c) (hS : Standing p c)
    (hx : Threads.step (act cfg) c x = some c') (h : 1 ≤ held countedAt p c') :
    c'.state.counted p = true := by
  obtain ⟨a, k, e, hk, he, hc'⟩ := step_some hx
  have hm := List.mem_of_getElem? hk
  have hf := (reach_fifo hc hr _ hm).self
  have hstate : c'.state = e.state := by rw [hc']
  rw [hstate, Planner.counted]
  by_cases ha : a = push .ready p
  · -- `move_pcb_to_ready__fifo` has written the status
    subst ha
    have h1 := hS.pushes _ hm rfl
    cases act_branch he
    exact h1
  · have h1 := held_step (g := countedAt) (p := p) (d := 0) countedAt_nonneg (by simp [countedAt])
      (le_refl _) hr (fun b l hl => by
        rw [hk] at hl
        cases hl
        exact countedAt_follows ha (hf.1.1 p)) hx
    have h2 : 1 ≤ held countedAt p c := by omega
    have hle : ∀ l, countedAt l ≤ unstuck l := fun l => by
      cases l
      case entering q | queued q => cases q <;> simp [countedAt, unstuck, free, living, stuck, atPlace]
      all_goals simp [countedAt, unstuck, free, living, stuck, atPlace]
    rcases hS.kept hc hr hk he countedAt_nonneg hle h2 with h3 | ⟨st, -, h3, h4⟩ | ⟨-, h3⟩
    · rw [h3]
      exact hS.inside h2
    · rw [h3]
      exact counts_of_countedAt h4
    · simp [countedAt] at h3

theorem Standing.outside_step (hc : cfg.algoritmoPlanificacion = .fifo)
    (hr : Reach (act cfg) ok c₀ c) (hS : Standing p c)
    (hx : Threads.step (act cfg) c x = some c') (h : 1 ≤ held uncountedAt p c') :
    c'.state.counted p = false := by
  obtain ⟨a, k, e, hk, he, hc'⟩ := step_some hx
  have hm := List.mem_of_getElem? hk
  have hstate : c'.state = e.state := by rw [hc']
  rw [hstate, Planner.counted]
  by_cases ha : a = unblockSwitch p ∧ (c.state.pcbs p).status = .suspendedBlocked
  · -- `mtp_unblock_pcb` has found the PCB suspended
    obtain ⟨rfl, hst⟩ := ha
    cases act_branch he <;> simp_all [counts]
  · have h1 := held_step (g := uncountedAt) (p := p) (d := 0) uncountedAt_nonneg (by simp [uncountedAt])
      (le_refl _) hr (fun b l hl => by
        rw [hk] at hl
        cases hl
        exact uncountedAt_follows fun h1 h2 => ha ⟨h1, h2⟩) hx
    have h2 : 1 ≤ held uncountedAt p c := by omega
    have hle : ∀ l, uncountedAt l ≤ unstuck l := fun l => by
      cases l
      case entering q | queued q => cases q <;> simp [uncountedAt, unstuck, free, living, stuck, atPlace]
      all_goals simp [uncountedAt, unstuck, free, living, stuck, atPlace]
    rcases hS.kept hc hr hk he uncountedAt_nonneg hle h2 with h3 | ⟨st, -, h3, h4⟩ | ⟨h3, -⟩
    · rw [h3]
      exact hS.outside h2
    · rw [h3]
      exact not_counts_of_uncountedAt h4
    · rw [h3]
      rfl

/-- No function starts with a push, and only three steps lead to `move_pcb_to_ready__fifo`. -/
theorem ready_head (hc : cfg.algoritmoPlanificacion = .fifo) {o : Outcome} {s : Planner}
    {e : Effect Planner Action} (he : act cfg a o s = some e) :
    e.next.head? ≠ some (push .ready p) ∧ (∀ t ∈ e.spawn, t.head? ≠ some (push .ready p) ∧
      t.head? ≠ some (assign p (.status .ready))) ∧
    (e.next.head? = some (assign p (.status .ready)) → e.state.pcbs = s.pcbs ∧
      ((a = popSuspendedReady ∧ p ∈ s.queues .suspendedReady) ∨ a = checkPageTable p ∨
        a = unblockSwitch p ∧ (s.pcbs p).status = .blocked)) := by
  cases act_branch he
  case loop f => cases f <;> simp [body]
  case timerCall t _ => rcases t with ⟨t, _ | _, q⟩ <;> simp [Timer.call]
  case unblockReady q hs => simpa [movePcbToReady, hc] using fun h => ⟨h, h ▸ hs⟩
  all_goals simp_all [movePcbToReady, applyReply]

/-- What is left of a thread starts with what the action leads to, or with what follows it. -/
theorem rest_head {e : Effect Planner Action} {b : Action} (h : (e.rest k).head? = some b) :
    e.next.head? = some b ∨ k.head? = some b := by
  unfold Effect.rest at h
  split at h
  · cases h
  · rcases hn : e.next with _ | ⟨d, n⟩ <;> rw [hn] at h
    · exact Or.inr h
    · exact Or.inl h

theorem Standing.pushes_step (hc : cfg.algoritmoPlanificacion = .fifo)
    (hr : Reach (act cfg) ok c₀ c) (hS : Standing p c)
    (hx : Threads.step (act cfg) c x = some c') :
    ∀ k ∈ c'.threads, k.head? = some (push .ready p) → c'.state.counted p = true := by
  obtain ⟨a, k, e, hk, he, hc'⟩ := step_some hx
  have hf := (reach_fifo hc hr _ (List.mem_of_getElem? hk)).self
  have hstate : c'.state = e.state := by rw [hc']
  obtain ⟨h1, h2, -⟩ := ready_head (p := p) hc he
  intro k' hk' hh
  rw [hc'] at hk'
  rw [hstate, Planner.counted]
  rcases mem_threads hk' with ⟨j, hj, hkj⟩ | rfl | hk'
  · rw [hS.ready_kept hc hr hk he hkj hj (Or.inr hh)]
    exact hS.pushes k' (List.mem_of_getElem? hkj) hh
  · rcases rest_head hh with hh | hh
    · exact absurd hh h1
    · obtain rfl := hf.2.1 p (List.mem_of_head? hh)
      cases act_branch he
      simp [Pcb.assign, counts]
  · exact absurd hh (h2 k' hk').1

theorem Standing.readies_step (hc : cfg.algoritmoPlanificacion = .fifo)
    (hr : Reach (act cfg) ok c₀ c) (hS : Standing p c)
    (hx : Threads.step (act cfg) c x = some c') :
    ∀ k ∈ c'.threads, k.head? = some (assign p (.status .ready)) →
      (c'.state.counted p = true ↔ loop .ltpNew ∉ k) := by
  obtain ⟨a, k, e, hk, he, hc'⟩ := step_some hx
  have hm := List.mem_of_getElem? hk
  have hf := (reach_fifo hc hr _ hm).self
  have hs := (reach_shape hr _ hm).self
  have hstate : c'.state = e.state := by rw [hc']
  obtain ⟨-, h2, h3⟩ := ready_head (p := p) hc he
  intro k' hk' hh
  rw [hc'] at hk'
  rw [hstate, Planner.counted]
  rcases mem_threads hk' with ⟨j, hj, hkj⟩ | rfl | hk'
  · rw [hS.ready_kept hc hr hk he hkj hj (Or.inl hh)]
    exact hS.readies k' (List.mem_of_getElem? hkj) hh
  · rcases rest_head hh with hh | hh
    · obtain ⟨h4, h5⟩ := h3 hh
      rw [h4]
      rcases h5 with ⟨rfl, hq⟩ | rfl | ⟨rfl, hst⟩
      · have h6 := (le_value (p := p) uncountedAt_nonneg c.state).1 .suspendedReady
        have h7 := value_le_held (p := p) uncountedAt_nonneg (by simp [uncountedAt]) hr
        have h8 := List.count_pos_iff.mpr hq
        rw [sumAt_eq] at h6
        simp only [uncountedAt] at h6
        have h9 : counts (c.state.pcbs p).status = false := hS.outside (by omega)
        simp only [Shape] at hs
        rw [h9, hs]
        cases act_branch he <;> simp_all [Effect.rest]
      · have h6 := head_le_held (p := p) uncountedAt_nonneg (by simp [uncountedAt]) hr hk
        have h7 : weight uncountedAt p (checkPageTable p) = 1 := by simp [weight, at', uncountedAt]
        have h9 : counts (c.state.pcbs p).status = false := hS.outside (by omega)
        simp only [Shape] at hs
        rw [h9, hs]
        cases act_branch he <;> simp [Effect.rest]
      · obtain ⟨t, rfl⟩ := hs
        rw [hst]
        cases act_branch he <;> simp_all [Effect.rest, counts, movePcbToReady]
    · exact absurd (hf.2.2 p _ (List.mem_of_head? hh)).1 (by simp)
  · exact absurd hh (h2 k' hk').2

/-- What holds of a PCB that nobody has. -/
theorem held_released {q : ℕ} (hr : Reach (act cfg) ok c₀ c) (hq : Released q c) (hle : ∀ l, g l ≤ present l)
    (hb : g arming ≤ g (queued .blocked)) : held g q c ≤ 0 :=
  calc held g q c ≤ held present q c := held_mono hr hle (by simp [present, living, atPlace]; omega)
    _ = held living q c + held (atPlace leaving) q c := held_add living (atPlace leaving) q c
    _ ≤ 0 := hq.gone

/-- A thread that creates a process runs no callback. -/
theorem not_calls_creating (hr : Reach (act cfg) ok c₀ c) (hk : a :: k ∈ c.threads)
    (ha : (∃ prog, a = ltpNewProcess prog) ∨ ∃ q, a = assign q (.status .new)) : ¬ Calls t p (a :: k) := by
  intro h
  obtain ⟨pre, hpre, heq⟩ := reach_callback hr _ hk t p h
  simp only [suspendPoints, List.mem_cons, List.not_mem_nil, or_false] at hpre
  rcases hpre with rfl | rfl | rfl | rfl | rfl | rfl | rfl | rfl | rfl | rfl | rfl | rfl | rfl | rfl <;>
    cases heq <;> simp at ha

/-- Where thread `l` takes the memory of PCB `q` again and goes on as `l'`. -/
structure Recreates (q : ℕ) (l l' : List Action) (c c' : Config Planner Action) : Prop where
  before : l ∈ c.threads
  after : l' ∈ c'.threads
  threads : ∀ m ∈ c'.threads, m ∈ c.threads ∨ m = l'
  kept : ∀ m ∈ c.threads, m ∈ c'.threads ∨ m = l
  status : ∀ r, (c'.state.pcbs r).status = if r = q then .new else (c.state.pcbs r).status

theorem recreates {q : ℕ} (hx : Threads.step (actReuse cfg q) c x = some c') :
    ∃ prog k, Recreates q (ltpNewProcess prog :: k) (movePcbToNew q ++ k) c c' := by
  obtain ⟨a, k, e, hk, he, hc'⟩ := step_some hx
  obtain ⟨-, prog, rfl, rfl⟩ := actReuse_some he
  refine ⟨prog, k, List.mem_of_getElem? hk, ?_, fun m hm => ?_, fun m hm => ?_, fun r => ?_⟩
  · rw [hc']
    exact mem_threads_self hk
  · rw [hc'] at hm
    rcases mem_threads hm with ⟨j, -, hj⟩ | rfl | hm
    · exact Or.inl (List.mem_of_getElem? hj)
    · exact Or.inr rfl
    · cases hm
  · obtain ⟨j, hj⟩ := List.mem_iff_getElem?.mp hm
    by_cases hjx : j = x.1
    · subst hjx
      exact Or.inr (Option.some.inj (hj.symm.trans hk))
    · rw [hc']
      exact Or.inl (mem_threads_of_ne hj hjx)
  · rw [hc']
    by_cases h : r = q
    · subst h
      simp [Planner.recreate, newPcb]
    · simp [Planner.recreate, h]

namespace Recreates

variable {q : ℕ} {prog : Program}

/-- The callbacks are those of before. -/
theorem of_calls [Frees cfg ok c'] (h : Recreates q (ltpNewProcess prog :: k) (movePcbToNew q ++ k) c c')
    (hr : Reach (act cfg) ok c' c') (hl : l ∈ c'.threads) (ht : Calls t p l) : l ∈ c.threads := by
  rcases h.threads l hl with hl' | rfl
  · exact hl'
  · exact absurd ht (not_calls_creating hr hl (Or.inr ⟨q, rfl⟩))

/-- So is every thread that is not about to write `PCB_NEW`. -/
theorem of_head (h : Recreates q (ltpNewProcess prog :: k) (movePcbToNew q ++ k) c c') (hl : l ∈ c'.threads)
    (hb : l.head? = some a) (hne : a ≠ assign q (.status .new)) : l ∈ c.threads := by
  rcases h.threads l hl with hl' | rfl
  · exact hl'
  · exact absurd (Option.some.inj hb).symm hne

theorem discards (h : Recreates q (ltpNewProcess prog :: k) (movePcbToNew q ++ k) c c')
    (hr : Reach (act cfg) ok c₀ c) (hl : l ∈ c.threads) (hd : Discards p l) : l ∈ c'.threads := by
  rcases h.kept l hl with hl' | rfl
  · exact hl'
  · obtain ⟨⟨t, ht⟩, -⟩ := hd
    exact absurd ht (not_calls_creating hr hl (Or.inl ⟨prog, rfl⟩))

/-- The thread that creates the process still unblocks what it was to unblock. -/
theorem unblocking (h : Recreates q (ltpNewProcess prog :: k) (movePcbToNew q ++ k) c c') (hl : l ∈ c.threads)
    (hu : Unblocking p l) : ∃ m ∈ c'.threads, Unblocking p m := by
  rcases h.kept l hl with hl' | rfl
  · exact ⟨l, hl', hu⟩
  · obtain ⟨hmut, ⟨u, hu⟩, hun⟩ := hu
    refine ⟨_, h.after, ?_, ⟨u, ?_⟩, ?_⟩
    · simpa [mutexWeight] using hmut
    · simpa using hu
    · simp only [List.mem_append]
      simp only [List.mem_cons, reduceCtorEq, false_or] at hun
      exact hun.imp Or.inr Or.inr

end Recreates

/-- The process that gets memory that nobody has. -/
theorem Standing.reuse_self [Frees cfg ok c'] (hc : cfg.algoritmoPlanificacion = .fifo)
    (hr : Reach (act cfg) ok c₀ c) (hS : Standing p c) (hq : Released p c)
    (hx : Threads.step (actReuse cfg p) c x = some c') : Standing p c' := by
  obtain ⟨prog, k, hR⟩ := recreates hx
  have hst : (c'.state.pcbs p).status = .new := by rw [hR.status, if_pos rfl]
  have h1 : held present p c ≤ 0 := held_released hr hq (fun _ => le_refl _) (by simp [present, living, atPlace])
  have h2 := held_reuse_le (g := present) (present_nonneg _) hx
  have h3 := held_reuse_le (g := unstuck) (unstuck_nonneg _) hx
  have h4 := held_reuse_le (g := countedAt) (countedAt_nonneg _) hx
  have h5 := unstuck_le_present (p := p) hr
  have h6 : held countedAt p c ≤ 0 := held_released hr hq (fun l => by
    cases l
    case entering q | queued q => cases q <;> simp [countedAt, present, living, atPlace]
    all_goals simp [countedAt, present, living, atPlace]) (by simp [countedAt])
  have h7 : present (entering .new) = 1 ∧ unstuck (entering .new) = 1 ∧ countedAt (entering .new) = 0 := by
    simp [present, unstuck, free, stuck, living, atPlace, countedAt]
  have hno : ∀ l ∈ c.threads, l.head? = some (assign p (.status .ready)) ∨ l.head? = some (push .ready p) →
      False := fun l hl hh => by
    have h8 := readying_load hc hr hl hh
    have h9 := load_le_held (p := p) unstuck_nonneg (by simp [unstuck, free, living, stuck, atPlace]) hr hl
    omega
  refine ⟨fun l hl t hs => ?_, Or.inl (by omega), fun _ _ _ => by omega, fun hb => ?_, fun h => ?_, fun _ => ?_,
    fun l hl hh => ?_, fun l hl hh => ?_⟩
  · have h8 := (hS.suspends l (hR.of_calls (.start : Reach (act cfg) ok c' c') hl hs.1.1) t hs).1
    rw [hq.status] at h8
    cases h8
  · rw [hst] at hb
    cases hb
  · omega
  · rw [Planner.counted, hst]
    rfl
  · exact (hno l (hR.of_head hl hh (by simp)) (Or.inl hh)).elim
  · exact (hno l (hR.of_head hl hh (by simp)) (Or.inr hh)).elim

/-- The other processes and their threads are as they were. -/
theorem Standing.reuse_other {q : ℕ} [Frees cfg ok c'] (hp : p ≠ q) (hr : Reach (act cfg) ok c₀ c)
    (hS : Standing p c) (hx : Threads.step (actReuse cfg q) c x = some c') : Standing p c' := by
  obtain ⟨prog, k, hR⟩ := recreates hx
  have hst : (c'.state.pcbs p).status = (c.state.pcbs p).status := by rw [hR.status, if_neg hp]
  have hcount : c'.state.counted p = c.state.counted p := by rw [Planner.counted, hst, Planner.counted]
  have heq : ∀ g, held g p c' = held g p c := fun g => held_reuse_of_ne hx hp
  have h0 : Reach (act cfg) ok c' c' := .start
  refine ⟨fun l hl t hs => ?_, ?_, fun l hl hd => ?_, fun hb => ?_, fun h => ?_, fun h => ?_, fun l hl hh => ?_,
    fun l hl hh => ?_⟩
  · rw [hst, heq]
    exact hS.suspends l (hR.of_calls h0 hl hs.1.1) t hs
  · rw [heq]
    exact hS.places.imp_right fun ⟨l, hl, hd⟩ => ⟨l, hR.discards hr hl hd, hd⟩
  · rw [heq]
    obtain ⟨t, ht⟩ := hd.1
    exact hS.discards l (hR.of_calls h0 hl ht) hd
  · rw [heq]
    rcases hS.blocks (hst ▸ hb) with h | ⟨l, hl, hu | hd⟩
    · exact Or.inl h
    · obtain ⟨m, hm, hu'⟩ := hR.unblocking hl hu
      exact Or.inr ⟨m, hm, Or.inl hu'⟩
    · exact Or.inr ⟨l, hR.discards hr hl hd, Or.inr hd⟩
  · rw [hcount]
    exact hS.inside (by rw [← heq]; exact h)
  · rw [hcount]
    exact hS.outside (by rw [← heq]; exact h)
  · rw [hcount]
    exact hS.readies l (hR.of_head hl hh (by simp)) hh
  · rw [hcount]
    exact hS.pushes l (hR.of_head hl hh (by simp)) hh

/-- Another process where a PCB was that nobody has. -/
theorem Standing.reuse {q : ℕ} [Frees cfg ok c'] (hc : cfg.algoritmoPlanificacion = .fifo)
    (hr : Reach (act cfg) ok c₀ c) (hS : Standing p c) (hq : Released q c)
    (hx : Threads.step (actReuse cfg q) c x = some c') : Standing p c' := by
  by_cases hp : p = q
  · subst hp
    exact hS.reuse_self hc hr hq hx
  · exact hS.reuse_other hp hr hx

/-- In every run under FIFO whose timer threads start. -/
theorem reach_standing [Frees cfg (Allows TimerStarts) c₀] (hc : cfg.algoritmoPlanificacion = .fifo)
    (h : Reach (act cfg) (Allows TimerStarts) c₀ c) : Standing p c := by
  refine Frees.inv (I := fun c => Standing p c) h ?_ ?_ ?_
  · have h1 : held present p (start cfg) ≤ 1 := by
      rw [start_held]
      split_ifs <;> simp [present, living, atPlace]
    have h2 : held countedAt p (start cfg) = 0 := by
      rw [start_held]
      simp [countedAt]
    refine ⟨?_, Or.inl h1, ?_, ?_, by omega, fun _ => rfl, ?_, ?_⟩ <;>
      simp [start, Suspending, Deciding, Discards, Calls]
  · intro c₁ c c' x _ hr ih hto hx
    have hr' := Reach.step x hr hto hx
    exact ⟨ih.suspends_step hc hr hto hx, ih.places_step hr hr' hx, ih.discards_step hr hto hx,
      ih.blocks_step hr hr' hto hx, ih.inside_step hc hr hx, ih.outside_step hc hr hx,
      ih.readies_step hc hr hx, ih.pushes_step hc hr hx⟩
  · exact fun _ _ _ _ _ _ _ hr ih hq hx => ih.reuse hc hr hq hx

/-! ### What follows -/

/-- Whether a PCB counts when a call is about to write its status. -/
theorem Standing.writes (hc : cfg.algoritmoPlanificacion = .fifo) (hr : Reach (act cfg) ok c₀ c)
    (hS : Standing p c) (hm : assign p (.status st) :: k ∈ c.threads) (hst : st ≠ .suspendedBlocked) :
    (1 ≤ countedAt (fifoWriter st) → c.state.counted p = true) ∧
    (1 ≤ uncountedAt (fifoWriter st) → c.state.counted p = false) := by
  constructor <;> intro h
  · have h1 := writer_load (p := p) hc countedAt_nonneg (by simp [countedAt]) hr hm hst
    have h2 := load_le_held (p := p) countedAt_nonneg (by simp [countedAt]) hr hm
    exact hS.inside (by omega)
  · have h1 := writer_load (p := p) hc uncountedAt_nonneg (by simp [uncountedAt]) hr hm hst
    have h2 := load_le_held (p := p) uncountedAt_nonneg (by simp [uncountedAt]) hr hm
    exact hS.outside (by omega)

/-- The first PCB is 1: 0 is nowhere. -/
theorem living_zero (hr : Reach (act cfg) ok c₀ c) : held living 0 c ≤ 0 := by
  refine Frees.inv (I := fun c => held living 0 c ≤ 0) hr ?_ ?_ ?_
  · rw [start_held, if_neg (by omega)]
  · intro _ c c' x _ hr ih _ hx
    have := held_step (p := 0) (d := 0) living_nonneg (by simp [living]) (le_refl _) hr
      (fun a _ _ => living_follows 0 _ _ a) hx
    omega
  · exact fun _ _ _ _ _ _ _ _ ih hq hx => (held_reuse_of_ne hx hq.created.symm).le.trans ih

/-- Nor does anybody write its status. -/
theorem status_zero [Frees cfg (Allows TimerStarts) c₀] (hc : cfg.algoritmoPlanificacion = .fifo)
    (hr : Reach (act cfg) (Allows TimerStarts) c₀ c) :
    (c.state.pcbs 0).status = .new ∧ held unstuck 0 c ≤ 0 := by
  refine Frees.inv (I := fun c => (c.state.pcbs 0).status = .new ∧ held unstuck 0 c ≤ 0) hr ?_ ?_ ?_
  · exact ⟨rfl, by rw [start_held, if_neg (by omega)]⟩
  · intro c₁ c c' x _ hr ih hto hx
    obtain ⟨a, k, e, hk, he, rfl⟩ := step_some hx
    have hm := List.mem_of_getElem? hk
    have hS := reach_standing (p := 0) hc hr
    have hblocked : ∀ t, ¬ Suspending t 0 (a :: k) := fun t ht => by
      have h1 := (hS.suspends _ hm t ht).1
      rw [ih.1] at h1
      cases h1
    refine ⟨?_, ?_⟩
    · rw [← ih.1]
      refine status_stuck hc hr hk he ih.2 ?_
      rintro rfl
      obtain ⟨t, ht⟩ := suspending_of_assign hr hm
      exact hblocked t ht
    · refine (unstuck_step hr hx hk (hto a k hk) ?_ ?_).trans ih.2
      · rintro rfl
        obtain ⟨t, rfl⟩ := (reach_shape hr _ hm).self
        have h1 := load_le_held (p := 0) living_nonneg (by simp [living]) hr hm
        have h2 := living_zero hr
        simp [weight, at', living] at h1
        omega
      · rintro rfl
        obtain ⟨t, rfl⟩ := (reach_shape hr _ hm).self
        exact absurd (by simp [Suspending, Deciding, Calls]) (hblocked t)
  · intro _ c c' x q _ _ _ ih hq hx
    obtain ⟨a, k, e, hk, he, hc'⟩ := step_some hx
    obtain ⟨-, prog, rfl, rfl⟩ := actReuse_some he
    refine ⟨?_, (held_reuse_of_ne hx hq.created.symm).le.trans ih.2⟩
    rw [← ih.1, hc']
    simp [Planner.recreate, hq.created.symm]

/-- A PCB that counts was created. -/
theorem created_of_counted [Frees cfg (Allows TimerStarts) c₀] (hc : cfg.algoritmoPlanificacion = .fifo)
    (hr : Reach (act cfg) (Allows TimerStarts) c₀ c) (h : c.state.counted p = true) :
    p ∈ Finset.Icc 1 c.state.pcbId := by
  refine Finset.mem_Icc.mpr ⟨Nat.one_le_iff_ne_zero.mpr ?_, ?_⟩
  · rintro rfl
    rw [Planner.counted, (status_zero hc hr).1] at h
    cases h
  · by_contra hp
    have h1 := unborn_held (p := p) hr (by omega)
    have h2 := held_mono (p := p) (g := atPlace unborn) (f := uncountedAt) hr (fun l => by
      by_cases hl : l = unborn
      · subst hl
        exact le_of_eq rfl
      · simpa [atPlace, hl] using uncountedAt_nonneg l) (by simp [uncountedAt, atPlace])
    have h3 := (reach_standing (p := p) hc hr).outside (by omega)
    rw [h] at h3
    cases h3

/-- A PCB that goes to the ready queue was created. -/
theorem created_of_ready [Frees cfg (Allows TimerStarts) c₀] (hc : cfg.algoritmoPlanificacion = .fifo)
    (hr : Reach (act cfg) (Allows TimerStarts) c₀ c)
    (hm : assign p (.status .ready) :: k ∈ c.threads) : p ∈ Finset.Icc 1 c.state.pcbId := by
  refine Finset.mem_Icc.mpr ⟨Nat.one_le_iff_ne_zero.mpr ?_, ?_⟩
  · rintro rfl
    have h1 := writer_load (p := 0) hc living_nonneg (by simp [living]) hr hm (by simp)
    have h2 := load_le_held (p := 0) living_nonneg (by simp [living]) hr hm
    have h3 := living_zero hr
    have h4 : living (fifoWriter .ready) = 1 := rfl
    omega
  · by_contra hp
    have h1 := unborn_held (p := p) hr (by omega)
    have h2 := writer_load (p := p) hc (atPlace_nonneg (entering .ready)) (by simp [atPlace]) hr hm
      (by simp)
    have h3 := load_le_held (p := p) (atPlace_nonneg (entering .ready)) (by simp [atPlace]) hr hm
    have h4 : atPlace (entering .ready) (fifoWriter .ready) = 1 := rfl
    refine (reach_standing (p := p) hc hr).disjoint hr (g := atPlace unborn) (f := atPlace (entering .ready))
      (fun l => ?_) (by simp [atPlace]) h1 (by omega)
    cases l
    case entering q | queued q => cases q <;> simp [unstuck, free, living, stuck, atPlace]
    all_goals simp [unstuck, free, living, stuck, atPlace]

end Reach

end Kernel
end Kiss
