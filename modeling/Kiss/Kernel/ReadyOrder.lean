/-
# The ready queue under SRT

`move_pcb_to_ready__srt` compares the PCB that arrives with those of the queue by their
estimates and, when these are equal, by where they come from: the one that arrives says it
in its status, those of the queue in their previous status. The queue it gives is always in
the order of `Before`, whatever mixture of PCBs arrives and leaves.

Key definitions: `Atomically`, `Arrival`, `Before`, `ReadyRun`.
Key theorems: `atomically_ready`, `before_of_compare`, `readyRun_order`.
-/
import Kiss.Insertion
import Kiss.Kernel.Branches

namespace Kiss
namespace Kernel

open Kernel.Action
open Insertion (insertBefore insertBefore_perm map_insertBefore pairwise_insertBefore)

/-! ### Calls -/

/-- A call with no other thread in between. -/
inductive Atomically (cfg : KernelConfig) : List Action → Planner → Planner → Prop
  | nil (s : Planner) : Atomically cfg [] s s
  | cons {a : Action} {o : Outcome} {s s' : Planner} {e : Threads.Effect Planner Action} {k : List Action}
      (h : act cfg a o s = some e) (hk : Atomically cfg (e.next ++ k) e.state s') : Atomically cfg (a :: k) s s'

/-- The steps that touch no queue and no PCB. -/
def Action.quiet : Action → Bool
  | interruptIfBusy _ | semWait _ | semPost _ | sendInterrupt | setInterrupted => true
  | _ => false

variable {cfg : KernelConfig} {s s' : Planner} {a : Action} {o : Outcome} {k : List Action} {p n : ℕ}

theorem act_quiet {e : Threads.Effect Planner Action} (ha : a.quiet = true) (h : act cfg a o s = some e) :
    e.state.pcbs = s.pcbs ∧ e.state.queues = s.queues ∧ ∀ b ∈ e.next, b.quiet = true := by
  cases act_branch h <;> first
    | cases ha; done
    | exact ⟨rfl, rfl, by simp [Action.quiet]⟩

theorem atomically_quiet (h : Atomically cfg k s s') : (∀ b ∈ k, b.quiet = true) →
    s'.pcbs = s.pcbs ∧ s'.queues = s.queues := by
  induction h with
  | nil s => exact fun _ => ⟨rfl, rfl⟩
  | @cons a o s s' e k h _ ih =>
    intro hq
    obtain ⟨h1, h2, h3⟩ := act_quiet (hq a List.mem_cons_self) h
    obtain ⟨h4, h5⟩ := ih fun b hb => (List.mem_append.mp hb).elim (h3 b) fun hb =>
      hq b (List.mem_cons_of_mem a hb)
    exact ⟨h4.trans h1, h5.trans h2⟩

/-- **`move_pcb_to_ready__srt`**: the PCB goes to its place in the queue and its status
becomes the previous one. -/
theorem atomically_ready (h : Atomically cfg (movePcbToReadySrt p) s s') :
    s'.queues .ready = squeueInsertInOrder (fun q => compareReadyPcbStr (s.pcbs p) (s.pcbs q)) p
      (s.queues .ready) ∧
    s'.pcbs = Function.update s.pcbs p
      { s.pcbs p with status := .ready, prevStatus := (s.pcbs p).status } := by
  obtain _ | ⟨h1, h⟩ := h
  cases act_branch h1
  obtain _ | ⟨h2, h⟩ := h
  cases act_branch h2
  obtain _ | ⟨h3, h⟩ := h
  cases act_branch h3
  obtain ⟨h4, h5⟩ := atomically_quiet h (by simp [Action.quiet])
  rw [h4, h5]
  constructor
  · simp [Planner.setQueue, Planner.setPcb]
  · simp [Planner.setPcb, Pcb.assign]

/-! ### The order -/

/-- A PCB that went to the queue: its estimate, where it came from and when. -/
structure Arrival where
  pcb : ℕ
  burst : ℤ
  origin : ProcessStatus
  turn : ℕ
  deriving DecidableEq, Repr

/-- With equal estimates, EXEC goes first, then BLOCKED, then the others. -/
def rank : ProcessStatus → ℕ
  | .exec => 0
  | .blocked => 1
  | _ => 2

/-- The order of the queue. Of those that come from EXEC the last one to arrive goes
first. -/
def Before (a b : Arrival) : Prop :=
  a.burst < b.burst ∨ a.burst = b.burst ∧ (rank a.origin < rank b.origin ∨
    rank a.origin = rank b.origin ∧ if rank a.origin = 0 then b.turn < a.turn else a.turn < b.turn)

theorem Before.trans {a b d : Arrival} (h : Before a b) (h' : Before b d) : Before a d := by
  unfold Before at *
  split_ifs at * <;> omega

/-- The fields of the PCB in the queue say what its arrival was. -/
structure Arrival.Of (s : Planner) (a : Arrival) : Prop where
  status : (s.pcbs a.pcb).status = .ready
  origin : (s.pcbs a.pcb).prevStatus = a.origin
  burst : (s.pcbs a.pcb).cpuEstimatedBurst = a.burst

/-- The PCB that would arrive now. -/
def arrival (s : Planner) (p n : ℕ) : Arrival := ⟨p, (s.pcbs p).cpuEstimatedBurst, (s.pcbs p).status, n⟩

/-- Where a PCB may come from. -/
def FromStatus (st : ProcessStatus) : Prop := st = .exec ∨ st = .blocked ∨ st = .new ∨ st = .suspendedReady

/-- When the comparison puts the one that arrives before, it is before. -/
theorem before_of_compare {a : Arrival} (ha : a.Of s) (ht : a.turn < n)
    (h : compareReadyPcbStr (s.pcbs p) (s.pcbs a.pcb) = true) : Before (arrival s p n) a := by
  unfold compareReadyPcbStr at h
  rw [ha.burst, ha.origin] at h
  unfold Before arrival
  dsimp only
  by_cases hlt : (s.pcbs p).cpuEstimatedBurst < a.burst
  · exact Or.inl hlt
  rw [if_neg hlt] at h
  by_cases heq : (s.pcbs p).cpuEstimatedBurst = a.burst
  · right
    rw [if_pos heq] at h
    refine ⟨heq, ?_⟩
    by_cases he : (s.pcbs p).status = .exec
    · rw [he]
      rcases ho : a.origin <;> simp [rank, ht]
    · rw [if_neg he] at h
      by_cases hb : (s.pcbs p).status = .blocked
      · rw [if_pos hb] at h
        rw [hb]
        rcases ho : a.origin <;> simp [ho, rank] at h ⊢
      · rw [if_neg hb] at h
        cases h
  · rw [if_neg heq] at h
    cases h

/-- And when it does not, it is after. -/
theorem before_of_not_compare {a : Arrival} (ha : a.Of s) (ht : a.turn < n)
    (h : compareReadyPcbStr (s.pcbs p) (s.pcbs a.pcb) = false) : Before a (arrival s p n) := by
  unfold compareReadyPcbStr at h
  rw [ha.burst, ha.origin] at h
  unfold Before arrival
  dsimp only
  by_cases hlt : (s.pcbs p).cpuEstimatedBurst < a.burst
  · rw [if_pos hlt] at h
    cases h
  rw [if_neg hlt] at h
  by_cases heq : (s.pcbs p).cpuEstimatedBurst = a.burst
  · right
    rw [if_pos heq] at h
    refine ⟨heq.symm, ?_⟩
    by_cases he : (s.pcbs p).status = .exec
    · rw [if_pos he] at h
      cases h
    · rw [if_neg he] at h
      by_cases hb : (s.pcbs p).status = .blocked
      · rw [if_pos hb] at h
        rw [hb]
        rcases ho : a.origin <;> simp [ho, rank, ht] at h ⊢
      · have h2 : rank (s.pcbs p).status = 2 := by
          rcases hs : (s.pcbs p).status <;> simp_all [rank]
        rw [h2]
        rcases ho : a.origin <;> simp [rank, ht]
  · left
    omega

/-! ### Runs -/

/-- The states of the queue, with the PCBs that went to it and have not been taken out, in
the order of arrival, and how many arrived: calls of `move_pcb_to_ready__srt`, pops, and
whatever leaves the queue and its PCBs as they are. -/
inductive ReadyRun (cfg : KernelConfig) : Planner → List Arrival → ℕ → Prop
  | start {s : Planner} (h : s.queues .ready = []) : ReadyRun cfg s [] 0
  | insert {s s' : Planner} {l : List Arrival} {n : ℕ} (p : ℕ) (h : ReadyRun cfg s l n)
      (hp : FromStatus (s.pcbs p).status) (hs : Atomically cfg (movePcbToReadySrt p) s s') :
      ReadyRun cfg s' (l ++ [arrival s p n]) (n + 1)
  | pop {s : Planner} {l : List Arrival} {n p : ℕ} {k : List ℕ} (h : ReadyRun cfg s l n)
      (hq : s.queues .ready = p :: k) : ReadyRun cfg (s.setQueue .ready k) (l.filter (·.pcb ≠ p)) n
  | other {s s' : Planner} {l : List Arrival} {n : ℕ} (h : ReadyRun cfg s l n)
      (hq : s'.queues .ready = s.queues .ready) (hp : ∀ p ∈ s.queues .ready, s'.pcbs p = s.pcbs p) :
      ReadyRun cfg s' l n

/-- The queue holds the PCBs of `l` in order, and whoever is taken out goes before the rest. -/
structure ReadyOrder (s : Planner) (l : List Arrival) : Prop where
  order : ∃ k : List Arrival, k.Perm l ∧ k.Pairwise Before ∧ s.queues .ready = k.map (·.pcb)
  nodup : (s.queues .ready).Nodup
  burst : ∀ a ∈ l, (s.pcbs a.pcb).cpuEstimatedBurst = a.burst
  first : ∀ p k, s.queues .ready = p :: k → ∃ a ∈ l, a.pcb = p ∧ ∀ b ∈ l, b ≠ a → Before a b

/-- The arrivals in the order of the queue. -/
structure Ordered (s : Planner) (n : ℕ) (k : List Arrival) : Prop where
  queue : s.queues .ready = k.map (·.pcb)
  sorted : k.Pairwise Before
  nodup : (k.map (·.pcb)).Nodup
  fields : ∀ a ∈ k, a.Of s
  turn : ∀ a ∈ k, a.turn < n

theorem Ordered.insert {k : List Arrival} (h : Ordered s n k) (hp : FromStatus (s.pcbs p).status)
    (hs : Atomically cfg (movePcbToReadySrt p) s s') : Ordered s' (n + 1)
      (insertBefore (fun a => compareReadyPcbStr (s.pcbs p) (s.pcbs a.pcb)) (arrival s p n) k) := by
  obtain ⟨hq, hpcbs⟩ := atomically_ready hs
  have hperm := insertBefore_perm (fun a => compareReadyPcbStr (s.pcbs p) (s.pcbs a.pcb)) (arrival s p n) k
  -- who is in the queue is READY, so it does not arrive again
  have hnew : ∀ a ∈ k, a.pcb ≠ p := by
    intro a ha he
    have h1 := (h.fields a ha).status
    rw [he] at h1
    rw [h1] at hp
    rcases hp with hp | hp | hp | hp <;> cases hp
  have hins : ∀ (before : ℕ → Bool) (l : List ℕ), squeueInsertInOrder before p l = insertBefore before p l := by
    intro before l
    induction l with
    | nil => rfl
    | cons q l ih => rw [squeueInsertInOrder, insertBefore, ih]
  refine ⟨?_, ?_, ?_, fun a ha => ?_, fun a ha => ?_⟩
  · rw [hq, h.queue, hins]
    exact (map_insertBefore Arrival.pcb (x := arrival s p n) fun _ _ => rfl).symm
  · have hyes : ∀ a ∈ k, compareReadyPcbStr (s.pcbs p) (s.pcbs a.pcb) = true → Before (arrival s p n) a :=
      fun a ha => before_of_compare (h.fields a ha) (h.turn a ha)
    have hno : ∀ a ∈ k, compareReadyPcbStr (s.pcbs p) (s.pcbs a.pcb) = false → Before a (arrival s p n) :=
      fun a ha => before_of_not_compare (h.fields a ha) (h.turn a ha)
    exact pairwise_insertBefore (R := Before) (fun _ _ _ => Before.trans) hyes hno h.sorted
  · rw [(hperm.map (·.pcb)).nodup_iff, List.map_cons, List.nodup_cons]
    refine ⟨fun hmem => ?_, h.nodup⟩
    obtain ⟨a, ha, he⟩ := List.mem_map.mp hmem
    exact hnew a ha he
  · rcases List.mem_cons.mp (hperm.mem_iff.mp ha) with rfl | ha
    · refine ⟨?_, ?_, ?_⟩ <;> rw [hpcbs] <;> simp [arrival]
    · obtain ⟨h1, h2, h3⟩ := h.fields a ha
      have he : s'.pcbs a.pcb = s.pcbs a.pcb := by rw [hpcbs, Function.update_of_ne (hnew a ha)]
      exact ⟨he ▸ h1, he ▸ h2, he ▸ h3⟩
  · rcases List.mem_cons.mp (hperm.mem_iff.mp ha) with rfl | ha
    · exact Nat.lt_succ_self n
    · exact Nat.lt_succ_of_lt (h.turn a ha)

theorem readyRun_ordered {l : List Arrival} (h : ReadyRun cfg s l n) :
    ∃ k : List Arrival, k.Perm l ∧ Ordered s n k := by
  induction h with
  | start h => exact ⟨[], List.Perm.refl _, h, List.Pairwise.nil, List.nodup_nil, by simp, by simp⟩
  | @insert s s' l n p _ hp hs ih =>
    obtain ⟨k, hk, h⟩ := ih
    refine ⟨_, ?_, h.insert hp hs⟩
    apply (insertBefore_perm _ _ k).trans
    apply (hk.cons _).trans
    exact (List.perm_append_singleton _ _).symm
  | @pop s l n p q _ hq ih =>
    obtain ⟨k, hk, h⟩ := ih
    have h1 := h.queue
    rw [hq] at h1
    obtain ⟨a, k, rfl, hap, hkq⟩ := List.map_eq_cons_iff.mp h1.symm
    have hnd := h.nodup
    rw [List.map_cons, List.nodup_cons] at hnd
    have hfil : (a :: k).filter (·.pcb ≠ p) = k := by
      rw [List.filter_cons_of_neg (by simp [hap]), List.filter_eq_self]
      intro b hb
      simp only [ne_eq, decide_eq_true_eq]
      intro hbp
      exact hnd.1 (List.mem_map.mpr ⟨b, hb, hbp.trans hap.symm⟩)
    refine ⟨k, ?_, ?_⟩
    · have h2 := hk.filter (·.pcb ≠ p)
      rwa [hfil] at h2
    · refine ⟨by simp [Planner.setQueue, hkq], h.sorted.of_cons, hnd.2, fun b hb => ?_, fun b hb => ?_⟩
      · obtain ⟨h2, h3, h4⟩ := h.fields b (List.mem_cons_of_mem a hb)
        exact ⟨h2, h3, h4⟩
      · exact h.turn b (List.mem_cons_of_mem a hb)
  | @other s s' l n _ hq hp ih =>
    obtain ⟨k, hk, h⟩ := ih
    refine ⟨k, hk, by rw [hq, h.queue], h.sorted, h.nodup, fun a ha => ?_, h.turn⟩
    obtain ⟨h1, h2, h3⟩ := h.fields a ha
    have he := hp a.pcb (h.queue ▸ List.mem_map.mpr ⟨a, ha, rfl⟩)
    exact ⟨he ▸ h1, he ▸ h2, he ▸ h3⟩

/-- **The ready queue under SRT** is in order, after any calls and pops. -/
theorem readyRun_order {l : List Arrival} (h : ReadyRun cfg s l n) : ReadyOrder s l := by
  obtain ⟨k, hk, h⟩ := readyRun_ordered h
  refine ⟨⟨k, hk, h.sorted, h.queue⟩, h.queue ▸ h.nodup,
    fun a ha => (h.fields a (hk.mem_iff.mpr ha)).burst, fun p q hq => ?_⟩
  have h1 := h.queue
  rw [hq] at h1
  obtain ⟨a, k, rfl, hap, -⟩ := List.map_eq_cons_iff.mp h1.symm
  refine ⟨a, hk.mem_iff.mp List.mem_cons_self, hap, fun b hb hne => ?_⟩
  rcases List.mem_cons.mp (hk.mem_iff.mpr hb) with rfl | hb
  · exact absurd rfl hne
  · exact (List.pairwise_cons.mp h.sorted).1 b hb

/-- A call on its own, when every socket answers. -/
def callAtomically (cfg : KernelConfig) : ℕ → List Action → Planner → Option Planner
  | _, [], s => some s
  | 0, _ :: _, _ => none
  | n + 1, a :: k, s => (act cfg a .ok s).bind fun e => callAtomically cfg n (e.next ++ k) e.state

theorem atomically_of_call {k : List Action} (h : callAtomically cfg n k s = some s') :
    Atomically cfg k s s' := by
  induction n generalizing k s with
  | zero =>
    cases k with
    | nil =>
      rw [callAtomically, Option.some.injEq] at h
      exact h ▸ .nil s
    | cons a k => cases h
  | succ n ih =>
    cases k with
    | nil =>
      rw [callAtomically, Option.some.injEq] at h
      exact h ▸ .nil s
    | cons a k =>
      rw [callAtomically] at h
      obtain ⟨e, he, h⟩ := Option.bind_eq_some_iff.mp h
      exact .cons he (ih h)

instance (st : ProcessStatus) : Decidable (FromStatus st) := inferInstanceAs (Decidable (_ ∨ _))

/-- The PCBs of a list arrive, one after the other. -/
def arriveAll (cfg : KernelConfig) : List ℕ → Planner × List Arrival × ℕ → Option (Planner × List Arrival × ℕ)
  | [], x => some x
  | p :: ps, (s, l, n) =>
    if FromStatus (s.pcbs p).status then
      (callAtomically cfg 8 (movePcbToReadySrt p) s).bind fun s' =>
        arriveAll cfg ps (s', l ++ [arrival s p n], n + 1)
    else none

theorem readyRun_of_arriveAll : ∀ (ps : List ℕ) {x y : Planner × List Arrival × ℕ},
    ReadyRun cfg x.1 x.2.1 x.2.2 → arriveAll cfg ps x = some y → ReadyRun cfg y.1 y.2.1 y.2.2
  | [], x, y, hx, h => by
    rw [← Option.some.inj h]
    exact hx
  | p :: ps, (s, l, n), y, hx, h => by
    unfold arriveAll at h
    split_ifs at h with hp
    obtain ⟨s', hs, h⟩ := Option.bind_eq_some_iff.mp h
    exact readyRun_of_arriveAll ps (.insert p hx hp (atomically_of_call hs)) h

/-- PCB 1 comes from NEW, 2 from BLOCKED and 3 from EXEC, with equal estimates. -/
def threeArrive : Planner := { (start ⟨.srt, 5, 4, fun _ e => e⟩).state with
  pcbs := fun p => if p = 2 then { status := .blocked } else if p = 3 then { status := .exec } else {} }

theorem readyRun_order_threeArrive : ∃ s l, ReadyRun ⟨.srt, 5, 4, fun _ e => e⟩ s l 3 ∧
    s.queues .ready = [3, 2, 1] ∧ ReadyOrder s l := by
  obtain ⟨⟨s, l, n⟩, hx, h1⟩ := Option.map_eq_some_iff.mp (show (arriveAll ⟨.srt, 5, 4, fun _ e => e⟩ [1, 2, 3]
    (threeArrive, [], 0)).map (fun y => (y.1.queues .ready, y.2.2)) = some ([3, 2, 1], 3) by decide +kernel)
  obtain ⟨h2, h3⟩ := Prod.mk.inj h1
  have h4 := readyRun_of_arriveAll [1, 2, 3] (.start rfl) hx
  obtain rfl : n = 3 := h3
  exact ⟨s, l, h4, h2, readyRun_order h4⟩

end Kernel
end Kiss
