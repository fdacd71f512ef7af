/-
# The I/O device is exclusive and first come, first served

The blocked controller takes the permit of `mtp_sem_io`, pops a process and
starts the timer of its I/O, whose callback posts; where the timer does not
start it posts itself. So at most one operation is in progress, and operations
start in the order in which the processes were pushed on the blocked queue, in
every run, whether or not the processes are suspended meanwhile
(`trace_firstCome`). An operation whose `usleep` fails stays in progress.

Key definitions: `pushed`, `attempted`, `started`, `ended`, `HoldsIo`, `FirstCome`.
Key theorems: `reach_io`, `trace_device`, `trace_firstCome`.
-/
import Kiss.Kernel.Announced

namespace Kiss
namespace Kernel

open Kernel.Action Threads

/-! ### What is promised -/

/-- The process a step pushes on the blocked queue. -/
def pushed (e : Event Action Outcome) : Option ℕ :=
  match e.thread with
  | push .blocked p :: _ => some p
  | _ => none

/-- The process whose I/O timer a step starts or fails to start. -/
def attempted (e : Event Action Outcome) : Option ℕ :=
  match e.thread with
  | startBlockedTimer _ p :: _ => some p
  | _ => none

/-- The process whose I/O a step starts. -/
def started (e : Event Action Outcome) : Option ℕ := if e.outcome = .ok then attempted e else none

/-- The process whose I/O a step ends, with the post of `mtp_unblock_pcb`. -/
def ended (e : Event Action Outcome) : Option ℕ :=
  match e.thread with
  | semPost .mtpSemIo :: cancelSuspendTimer p :: _ => some p
  | _ => none

/-- How many operations started and did not end. -/
def inProgress (tr : List (Event Action Outcome)) : ℕ :=
  (tr.filterMap started).length - (tr.filterMap ended).length

/-- The blocked controller has the permit of the device. -/
def HoldsIo (k : List Action) : Bool :=
  k.contains (loop .mtpBlocked) && !k.contains (semWait .mtpSemIo) && k ≠ [loop .mtpBlocked]

/-- The device is exclusive and serves in order. -/
structure FirstCome (c : Config Planner Action) (tr : List (Event Action Outcome)) : Prop where
  exclusive : c.state.halt = false →
    c.state.sems .mtpSemIo + inProgress tr + c.threads.countP HoldsIo = 1
  /-- Operations end in the order in which they start, at most one in progress. -/
  ends : tr.filterMap ended <+: tr.filterMap started
  single : inProgress tr ≤ 1
  /-- The controller takes each push once, in the order of the pushes. -/
  takes : tr.filterMap attempted <+: tr.filterMap pushed
  starts : (tr.filterMap started).Sublist (tr.filterMap attempted)

/-! ### The permit of the device -/

/-- The permit, from the wait of the controller to the post of the callback. -/
def ioWeight : Action → ℤ
  | semWait .mtpSemIo => -1
  | popBlocked | createBlockedTimer _ | startBlockedTimer _ _ | semPost .mtpSemIo => 1
  | timerSleep t | timerTest t => if t.callback = .mtpUnblockPcb then 1 else 0
  | _ => 0

attribute [local simp] ioWeight in
theorem io_act {cfg : KernelConfig} {a : Action} {o : Outcome} {s : Planner}
    {e : Effect Planner Action} (h : act cfg a o s = some e) :
    (e.state.sems .mtpSemIo : ℤ) + (if e.stop then 0 else load ioWeight e.next) +
      total ioWeight e.spawn ≤ s.sems .mtpSemIo + ioWeight a := by
  cases act_branch h
  case loop f => cases f <;> simp [body]
  case semWait m hm =>
    cases m <;> simp
    omega
  case semPost m => cases m <;> simp
  case timerSleepFails t _ | timerCanceled t _ => simp only [ioWeight]; split_ifs <;> simp
  case timerCall t _ => rcases t with ⟨t, _ | _, p⟩ <;> simp [Timer.call]
  all_goals simp [load_ready, load_tail, load_reply]

attribute [local simp] ioWeight in
theorem io_flow {cfg : KernelConfig} {a : Action} {l : List Action} {ts : List (List Action)}
    (h : Flow cfg a l ts) : Suffixes (fun l => 0 ≤ load ioWeight l ∨
      ioWeight a ≤ load ioWeight l) l ∧ ∀ t ∈ ts, Grounded ioWeight t := by
  rcases hc : cfg.algoritmoPlanificacion <;> cases h
  case fifo.loop f | srt.loop f => cases f <;> simp [Suffixes, body]
  case fifo.callback t | srt.callback t =>
    rcases t with ⟨t, _ | _, q⟩ <;> simp [Suffixes, Timer.call]
  case fifo.timerSleep t | srt.timerSleep t => rcases t with ⟨t, _ | _, q⟩ <;> simp [Suffixes]
  all_goals
    simp [Grounded, Suffixes, movePcbToReady, applyReply, dispatchTail, hc]

/-- What is left of the blocked controller's loop at each of its points. -/
inductive BlockedPoint : List Action → Prop
  | loop : BlockedPoint [loop .mtpBlocked]
  | waits : BlockedPoint (body .mtpBlocked)
  | waitsIo : BlockedPoint [semWait .mtpSemIo, haltBreak, popBlocked, Action.loop .mtpBlocked]
  | holds : BlockedPoint [haltBreak, popBlocked, Action.loop .mtpBlocked]
  | pops : BlockedPoint [popBlocked, Action.loop .mtpBlocked]
  | popped (p) :
    BlockedPoint [assign p .ioBurst, createBlockedTimer p, Action.loop .mtpBlocked]
  | creates (p) : BlockedPoint [createBlockedTimer p, Action.loop .mtpBlocked]
  | starts (t p) : BlockedPoint [startBlockedTimer t p, Action.loop .mtpBlocked]
  | fails (p) : BlockedPoint
      (assign p .timerBlocked :: movePcbToExit p ++ [semPost .mtpSemIo, Action.loop .mtpBlocked])
  | exits (p) : BlockedPoint (movePcbToExit p ++ [semPost .mtpSemIo, Action.loop .mtpBlocked])
  | postsLevel (p) : BlockedPoint (semPost .ltpSemMultiprogrammingLevel ::
      (movePcbToExit p).tail ++ [semPost .mtpSemIo, Action.loop .mtpBlocked])
  | leaves (p) :
    BlockedPoint ((movePcbToExit p).tail ++ [semPost .mtpSemIo, Action.loop .mtpBlocked])
  | pushes (p) : BlockedPoint
      [push .exit p, semPost .ltpSemExit, semPost .mtpSemIo, Action.loop .mtpBlocked]
  | announces : BlockedPoint [semPost .ltpSemExit, semPost .mtpSemIo, Action.loop .mtpBlocked]
  | posts : BlockedPoint [semPost .mtpSemIo, Action.loop .mtpBlocked]

/-- The blocked controller is at one of its points. -/
def AtBlocked (k : List Action) : Prop := loop .mtpBlocked ∈ k → BlockedPoint k

theorem atBlocked_flow {cfg : KernelConfig} {a : Action} {k l : List Action} {ts : List (List Action)}
    (hk : AtBlocked (a :: k)) (h : Flow cfg a l ts) : AtBlocked (l ++ k) ∧ ∀ t ∈ ts, AtBlocked t := by
  obtain ⟨h1, h2⟩ := loop_mem_flow (f := .mtpBlocked) h
  refine ⟨fun hl => ?_, fun t ht hl => absurd hl (h2 t ht)⟩
  have hp : BlockedPoint (a :: k) := hk <| by
    rcases List.mem_append.mp hl with hl | hl
    · simp [h1 hl]
    · exact List.mem_cons_of_mem _ hl
  cases hp <;> cases h <;> first
    | constructor
    | simp at hl

/-- A thread that still has to cancel a suspension timer is at one of the first
points of `mtp_unblock_pcb`. -/
def AtUnblock (k : List Action) : Prop := ∀ p, cancelSuspendTimer p ∈ k → ∃ t, ∃ n ≤ 2,
  k = (mtpUnblockPcb p ++ [timerDestroy ⟨t, .mtpUnblockPcb, p⟩]).drop n

/-- Only the test of a timer leads to a cancellation. -/
theorem cancel_flow {cfg : KernelConfig} {a : Action} {l : List Action} {ts : List (List Action)}
    {p : ℕ} (h : Flow cfg a l ts) : (cancelSuspendTimer p ∈ l → ∃ t : Timer, a = timerTest t ∧
      t.callback = .mtpUnblockPcb ∧ t.data = p ∧ l = t.call ++ [timerDestroy t]) ∧
    ∀ t ∈ ts, cancelSuspendTimer p ∉ t := by
  rcases hc : cfg.algoritmoPlanificacion <;> cases h
  case fifo.loop f | srt.loop f => cases f <;> simp [body]
  case fifo.callback t | srt.callback t =>
    rcases t with ⟨t, _ | _, q⟩ <;> simp [Timer.call, eq_comm]
  all_goals simp [movePcbToReady, applyReply, dispatchTail, hc]

theorem atUnblock_flow {cfg : KernelConfig} {a : Action} {k l : List Action} {ts : List (List Action)}
    (hs : Shape cfg (a :: k)) (hk : AtUnblock (a :: k)) (h : Flow cfg a l ts) :
    AtUnblock (l ++ k) ∧ ∀ t ∈ ts, AtUnblock t := by
  refine ⟨fun p hp => ?_, fun t ht p hp => absurd hp ((cancel_flow h).2 t ht)⟩
  rcases List.mem_append.mp hp with hp | hp
  · obtain ⟨⟨t, f, q⟩, rfl, h1, h2, rfl⟩ := (cancel_flow h).1 hp
    simp only [Shape] at hs
    obtain rfl : f = .mtpUnblockPcb := h1
    obtain rfl : q = p := h2
    exact ⟨t, 0, by omega, by simp [hs, Timer.call]⟩
  · obtain ⟨t, n, hn, he⟩ := hk p (List.mem_cons_of_mem _ hp)
    obtain rfl | rfl | rfl : n = 0 ∨ n = 1 ∨ n = 2 := by omega
    all_goals
      obtain ⟨rfl, rfl⟩ := List.cons_eq_cons.mp he
      cases h
    · exact ⟨t, 1, by omega, rfl⟩
    · exact ⟨t, 2, by omega, rfl⟩
    · simp at hp

/-! ### The controller and the operations -/

/-- The process the controller has popped. -/
def heldBy (k : List Action) : List ℕ := k.filterMap fun
  | createBlockedTimer p | startBlockedTimer _ p => some p
  | _ => none

/-- The thread is the I/O of `p`, up to the post of the callback. -/
def IoOf (p : ℕ) (k : List Action) : Prop :=
  (∃ t : Timer, t.callback = .mtpUnblockPcb ∧ t.data = p ∧
    (k.head? = some (timerSleep t) ∨ k.head? = some (timerTest t))) ∨
  semPost .mtpSemIo ∈ k ∧ cancelSuspendTimer p ∈ k

/-- What holds of the controller, the operations and the history. -/
structure Device (c : Config Planner Action) (tr : List (Event Action Outcome)) : Prop where
  holder : ∀ k ∈ c.threads, loop .mtpBlocked ∈ k →
    c.state.sems .mtpSemIo + (tr.filterMap started).length + (if HoldsIo k then 1 else 0) =
      (tr.filterMap ended).length + 1
  ends : tr.filterMap ended <+: tr.filterMap started
  single : (tr.filterMap started).length ≤ (tr.filterMap ended).length + 1
  last : ∀ k ∈ c.threads, ∀ p, IoOf p k → tr.filterMap started = tr.filterMap ended ++ [p]
  queue : ∃ l, tr.filterMap pushed = tr.filterMap attempted ++ l ++ c.state.queues .blocked ∧
    ∀ k ∈ c.threads, loop .mtpBlocked ∈ k → heldBy k = l

section Reach

variable {cfg : KernelConfig} {ok : Config Planner Action → ℕ × Outcome → Prop}
  {c c' : Config Planner Action} {tr : List (Event Action Outcome)} {x : ℕ × Outcome}
  {a : Action} {k l : List Action} {ts : List (List Action)} {o : Outcome} {s : Planner}
  {e : Effect Planner Action} {p : ℕ}

theorem reach_io (h : Reach (act cfg) ok (start cfg) c) :
    (c.state.sems .mtpSemIo : ℤ) + total ioWeight c.threads ≤ 1 ∧
      ∀ k ∈ c.threads, Grounded ioWeight k :=
  reach_balance (m := fun s => (s.sems .mtpSemIo : ℤ)) (fun _ _ _ _ => io_act)
    (by simp [Planner.recreate, ioWeight]) (fun _ _ _ => io_flow) (by simp [start, Grounded, Suffixes, ioWeight]) h

theorem reach_atBlocked (h : Reach (act cfg) ok (start cfg) c) : ∀ k ∈ c.threads, AtBlocked k := by
  refine h.inv (I := fun c => ∀ k ∈ c.threads, AtBlocked k) ?_ ?_
  · simp only [start, List.mem_cons, List.not_mem_nil, or_false]
    rintro k (rfl | rfl | rfl | rfl | rfl) hl
    case inr.inr.inl => exact .loop
    all_goals simp at hl
  · intro c c' x _ hc _ hx
    exact flow_threads hx hc (by simp [AtBlocked]) fun a k l ts hk hf => atBlocked_flow hk hf

theorem reach_atUnblock (h : Reach (act cfg) ok (start cfg) c) :
    ∀ k ∈ c.threads, AtUnblock k := by
  refine h.inv (I := fun c => ∀ k ∈ c.threads, AtUnblock k) ?_ ?_
  · simp [start, AtUnblock]
  · intro c c' x hr hc _ hx
    obtain ⟨a, k, e, hk, he, rfl⟩ := step_some hx
    have hm := List.mem_of_getElem? hk
    obtain ⟨h1, h2⟩ := atUnblock_flow (reach_shape hr _ hm).self (hc _ hm) (act_flow he)
    intro k' hk'
    rcases mem_threads hk' with ⟨j, -, hj⟩ | rfl | ht
    · exact hc _ (List.mem_of_getElem? hj)
    · unfold Effect.rest
      split
      · simp [AtUnblock]
      · exact h1
    · exact h2 _ ht

/-- Only the start of an I/O starts its thread. -/
theorem flow_spawn_ioOf {a : Action} {l k : List Action} {ts : List (List Action)} {p : ℕ}
    (h : Flow cfg a l ts) (ha : ∀ t q, a ≠ startBlockedTimer t q) (hk : k ∈ ts) : ¬ IoOf p k := by
  intro hp
  cases h
  case startBlockedTimer t q => exact absurd rfl (ha t q)
  all_goals
    simp at hk
  all_goals
    subst hk
    simp [IoOf] at hp

/-- A thread of an operation has the permit. -/
theorem ioOf_load (hu : AtUnblock k) (hg : Grounded ioWeight k) (h : IoOf p k) :
    1 ≤ load ioWeight k := by
  rcases h with ⟨t, ht, -, hh⟩ | ⟨h1, h2⟩
  · obtain ⟨a, k, rfl⟩ : ∃ a l, k = a :: l := by
      rcases hh with hh | hh <;> exact ⟨_, List.head?_eq_some_iff.mp hh⟩
    have h3 := hg.tail.self
    rw [load_cons]
    rcases hh with hh | hh <;>
    · cases hh
      simp only [ioWeight, ht, if_true]
      omega
  · obtain ⟨t, n, hn, rfl⟩ := hu p h2
    obtain rfl | rfl | rfl : n = 0 ∨ n = 1 ∨ n = 2 := by omega
    · simp [ioWeight]
    · simp [ioWeight]
    · simp at h1

/-- Only the device's own steps change its permit. -/
theorem semIo_act (h : act cfg a o s = some e) (h1 : a ≠ semWait .mtpSemIo)
    (h2 : a ≠ semPost .mtpSemIo) : e.state.sems .mtpSemIo = s.sems .mtpSemIo := by
  cases act_branch h
  case semWait m _ | semPost m => cases m <;> simp_all
  all_goals simp

/-- The step before in an operation. -/
theorem ioOf_flow (hs : Suffixes (Shape cfg) (a :: k)) (hu : AtUnblock (a :: k))
    (h : Flow cfg a l ts) (ha : a ≠ semPost .mtpSemIo) (hp : IoOf p (l ++ k)) : IoOf p (a :: k) := by
  rcases hp with ⟨t, h1, h2, hh⟩ | ⟨h1, h2⟩
  · by_cases hl : l = []
    · subst hl
      rcases inner_tail hs.self fun hn => by
        rcases hh with hh | hh <;> simpa using hn _ hh with ⟨q, rfl | rfl | rfl⟩ | rfl <;>
      · have h3 := hs.self
        simp only [Shape] at h3
        simp [h3] at hh
    · rcases hc : cfg.algoritmoPlanificacion <;> cases h
      case fifo.loop f | srt.loop f => cases f <;> simp [body] at hh
      case fifo.callback u | srt.callback u => rcases u with ⟨u, _ | _, q⟩ <;> simp [Timer.call] at hh
      case fifo.timerSleep u | srt.timerSleep u =>
        obtain rfl : u = t := by simpa using hh
        exact Or.inl ⟨u, h1, h2, Or.inl rfl⟩
      all_goals first
        | (simp at hl; done)
        | simp [movePcbToReady, applyReply, hc] at hh
  · rcases List.mem_append.mp h2 with h2 | h2
    · obtain ⟨t, rfl, h3, h4, -⟩ := (cancel_flow h).1 h2
      exact Or.inl ⟨t, h3, h4, Or.inr rfl⟩
    · obtain ⟨t, n, hn, he⟩ := hu p (List.mem_cons_of_mem _ h2)
      obtain rfl | rfl | rfl : n = 0 ∨ n = 1 ∨ n = 2 := by omega
      all_goals obtain ⟨rfl, rfl⟩ := List.cons_eq_cons.mp he
      · exact Or.inr (by simp)
      · exact absurd rfl ha
      · simp at h2

theorem filterMap_snoc {α β : Type*} (f : α → Option β) (l : List α) (b : α) :
    (l ++ [b]).filterMap f = l.filterMap f ++ (f b).toList := by
  rw [List.filterMap_append, List.filterMap_cons, List.filterMap_nil]
  cases f b <;> rfl

/-- The steps of the device: what the others do changes nothing of it. -/
theorem device_act (hs : Shape cfg (a :: k)) (h : act cfg a o s = some e)
    (hl : loop .mtpBlocked ∉ a :: k) : started ⟨a :: k, o⟩ = none ∧ attempted ⟨a :: k, o⟩ = none ∧
      (e.state.sems .mtpSemIo = s.sems .mtpSemIo ∧ ended ⟨a :: k, o⟩ = none ∨
        (∃ p k', a = semPost .mtpSemIo ∧ k = cancelSuspendTimer p :: k') ∧
          e.state.sems .mtpSemIo = s.sems .mtpSemIo + 1 ∧ (ended ⟨a :: k, o⟩).isSome) := by
  have hatt : attempted ⟨a :: k, o⟩ = none := by
    unfold attempted
    split
    · rename_i heq
      cases heq
      simp only [Shape] at hs
      simp [hs] at hl
    · rfl
  refine ⟨by simp [started, hatt], hatt, ?_⟩
  by_cases h1 : a = semPost .mtpSemIo
  · subst h1
    rcases hs with rfl | ⟨p, k', rfl⟩
    · simp at hl
    · cases act_branch h
      exact Or.inr ⟨⟨p, k', rfl, rfl⟩, by simp, rfl⟩
  · refine Or.inl ⟨semIo_act h ?_ h1, ?_⟩
    · rintro rfl
      simp only [Shape] at hs
      simp [hs] at hl
    · unfold ended
      split
      · rename_i heq
        cases heq
        exact absurd rfl h1
      · rfl

theorem holder_step (hr : Reach (act cfg) ok (start cfg) c) (hD : Device c tr)
    (hk : c.threads[x.1]? = some (a :: k)) (he : act cfg a x.2 c.state = some e) :
    ∀ k' ∈ c.threads.set x.1 (e.rest k) ++ e.spawn, loop .mtpBlocked ∈ k' →
      e.state.sems .mtpSemIo + ((tr ++ [⟨a :: k, x.2⟩] : List _).filterMap started).length +
        (if HoldsIo k' then 1 else 0) =
      ((tr ++ [⟨a :: k, x.2⟩] : List _).filterMap ended).length + 1 := by
  have hm := List.mem_of_getElem? hk
  have hs := reach_shape hr _ hm
  intro k' hk' hl
  rw [filterMap_snoc, filterMap_snoc, List.length_append, List.length_append]
  rcases mem_threads hk' with ⟨j, hj, hkj⟩ | rfl | hsp
  · -- only the callback of an operation touches the device besides the controller
    have h0 := hD.holder k' (List.mem_of_getElem? hkj) hl
    have hnl : loop .mtpBlocked ∉ a :: k := fun h => hj (loop_unique hr hkj hk hl h)
    obtain ⟨h1, -, ⟨h2, h3⟩ | ⟨-, h2, h3⟩⟩ := device_act hs.self he hnl
    · rw [h1, h2, h3]
      exact h0
    · obtain ⟨q, hq⟩ := Option.isSome_iff_exists.mp h3
      rw [h1, h2, hq]
      simp only [Option.toList, List.length_nil, List.length_cons]
      omega
  · have hla : loop .mtpBlocked ∈ a :: k := by
      unfold Effect.rest at hl
      split at hl
      · cases hl
      · rcases List.mem_append.mp hl with hl | hl
        · rw [(loop_mem_flow (act_flow he)).1 hl]
          exact List.mem_cons_self
        · exact List.mem_cons_of_mem _ hl
    have h0 := hD.holder _ hm hla
    have hp := reach_atBlocked hr _ hm hla
    generalize x.2 = o at he
    cases hp <;> cases act_branch he
    all_goals
      simp [Effect.rest, HoldsIo, started, attempted, ended, body] at h0 hl ⊢
    all_goals first
      | omega
      | simp_all
  · exact absurd hl ((loop_mem_flow (act_flow he)).2 _ hsp)

/-- Where the controller has the permit no operation is in progress. -/
theorem idle_of_holds (hD : Device c tr) (hk : k ∈ c.threads) (hl : loop .mtpBlocked ∈ k)
    (hh : HoldsIo k = true) : tr.filterMap started = tr.filterMap ended := by
  have h1 := hD.holder k hk hl
  rw [if_pos hh] at h1
  have h2 := hD.ends.length_le
  exact (hD.ends.eq_of_length (by omega)).symm

theorem started_none (h : ∀ t q, a ≠ startBlockedTimer t q) : started ⟨a :: k, o⟩ = none := by
  unfold started attempted
  split
  · split
    · rename_i heq
      cases heq
      exact absurd rfl (h _ _)
    · rfl
  · rfl

theorem single_step (hr : Reach (act cfg) ok (start cfg) c) (hD : Device c tr)
    (hk : c.threads[x.1]? = some (a :: k)) :
    ((tr ++ [⟨a :: k, x.2⟩] : List _).filterMap started).length ≤
      ((tr ++ [⟨a :: k, x.2⟩] : List _).filterMap ended).length + 1 := by
  have hm := List.mem_of_getElem? hk
  rw [filterMap_snoc, filterMap_snoc, List.length_append, List.length_append]
  by_cases hst : ∃ t q, a = startBlockedTimer t q
  · obtain ⟨t, q, rfl⟩ := hst
    have hs := (reach_shape hr _ hm).self
    simp only [Shape] at hs
    subst hs
    have h1 := idle_of_holds hD hm (by simp) (by simp [HoldsIo])
    have h2 := Option.length_toList_le (o := started ⟨[startBlockedTimer t q, loop .mtpBlocked], x.2⟩)
    rw [h1]
    omega
  · have h1 := started_none (k := k) (o := x.2) fun t q h => hst ⟨t, q, h⟩
    have h2 := hD.single
    rw [h1, Option.toList, List.length_nil]
    omega

/-- An operation starts when none is in progress, and the last one ends. -/
theorem last_step (hr : Reach (act cfg) ok (start cfg) c) (hD : Device c tr)
    (hk : c.threads[x.1]? = some (a :: k)) (he : act cfg a x.2 c.state = some e) :
    (tr ++ [⟨a :: k, x.2⟩] : List _).filterMap ended <+:
        (tr ++ [⟨a :: k, x.2⟩] : List _).filterMap started ∧
      ∀ k' ∈ c.threads.set x.1 (e.rest k) ++ e.spawn, ∀ p, IoOf p k' →
        (tr ++ [⟨a :: k, x.2⟩] : List _).filterMap started =
          (tr ++ [⟨a :: k, x.2⟩] : List _).filterMap ended ++ [p] := by
  have hm := List.mem_of_getElem? hk
  have hs := reach_shape hr _ hm
  obtain ⟨hone, hg⟩ := reach_io hr
  have hu := reach_atUnblock hr
  have hload : ∀ j l q, j ≠ x.1 → c.threads[j]? = some l → IoOf q l → ioWeight a < 1 := by
    intro j l q hj hl hq
    have hlm := List.mem_of_getElem? hl
    have h1 := add_le_total (fun t ht => (hg t ht).nonneg) hl hk hj
    have h2 := ioOf_load (hu l hlm) (hg l hlm) hq
    have h3 := (hg _ hm).tail.self
    rw [load_cons] at h1
    omega
  rw [filterMap_snoc, filterMap_snoc]
  by_cases hst : ∃ t q, a = startBlockedTimer t q
  · obtain ⟨t, q, rfl⟩ := hst
    have hk' := hs.self
    simp only [Shape] at hk'
    subst hk'
    have hidle := idle_of_holds hD hm (by simp) (by simp [HoldsIo])
    have hend : ended ⟨[startBlockedTimer t q, loop .mtpBlocked], x.2⟩ = none := rfl
    rw [hend, hidle]
    refine ⟨by simp, fun k' hk' p hp => ?_⟩
    generalize x.2 = o at he
    rcases mem_threads hk' with ⟨j, hj, hkj⟩ | rfl | hsp
    · have := hload j k' p hj hkj hp
      simp [ioWeight] at this
    · cases act_branch he <;> simp [IoOf, Effect.rest] at hp
    · cases act_branch he
      case startBlockedTimer =>
        simp only [List.mem_singleton] at hsp
        subst hsp
        obtain rfl : q = p := by simpa [IoOf] using hp
        simp [started, attempted]
      case noBlockedTimer => simp at hsp
  have hstart := started_none (k := k) (o := x.2) fun t q h => hst ⟨t, q, h⟩
  rw [hstart]
  by_cases hpost : a = semPost .mtpSemIo
  · subst hpost
    have hother : ∀ k' ∈ c.threads.set x.1 (e.rest k) ++ e.spawn, ∀ p, ¬ IoOf p k' := by
      intro k' hk' p hp
      rcases mem_threads hk' with ⟨j, hj, hkj⟩ | rfl | hsp
      · have := hload j k' p hj hkj hp
        simp [ioWeight] at this
      · cases act_branch he
        rcases hs.self with rfl | ⟨q, k', rfl⟩
        · simp [IoOf, Effect.rest] at hp
        · obtain ⟨t, n, hn, heq⟩ := hu _ hm q (by simp)
          obtain rfl | rfl | rfl : n = 0 ∨ n = 1 ∨ n = 2 := by omega
          all_goals obtain ⟨h1, h2⟩ := List.cons_eq_cons.mp heq
          · simp at h1
          · simp [IoOf, Effect.rest, h2] at hp
          · simp at h1
      · cases act_branch he
        simp at hsp
    refine ⟨?_, fun k' hk' p hp => absurd hp (hother k' hk' p)⟩
    rcases hs.self with rfl | ⟨q, k', rfl⟩
    · simpa [ended] using hD.ends
    · have h1 := hD.last _ hm q (Or.inr (by simp))
      simp [ended, h1]
  · have hend : ended ⟨a :: k, x.2⟩ = none := by
      unfold ended
      split
      · rename_i heq
        cases heq
        exact absurd rfl hpost
      · rfl
    rw [hend]
    simp only [Option.toList, List.append_nil]
    refine ⟨hD.ends, fun k' hk' p hp => ?_⟩
    rcases mem_threads hk' with ⟨j, hj, hkj⟩ | rfl | hsp
    · exact hD.last k' (List.mem_of_getElem? hkj) p hp
    · unfold Effect.rest at hp
      split at hp
      · simp [IoOf] at hp
      · exact hD.last _ hm p (ioOf_flow hs (hu _ hm) (act_flow he) hpost hp)
    · exact absurd hp (flow_spawn_ioOf (act_flow he) (fun t q h => hst ⟨t, q, h⟩) hsp)

/-- What is pushed is what was taken, what the controller holds and what waits. -/
theorem queue_step (hr : Reach (act cfg) ok (start cfg) c) (hD : Device c tr)
    (hk : c.threads[x.1]? = some (a :: k)) (he : act cfg a x.2 c.state = some e) :
    ∃ l, (tr ++ [⟨a :: k, x.2⟩] : List _).filterMap pushed =
        (tr ++ [⟨a :: k, x.2⟩] : List _).filterMap attempted ++ l ++ e.state.queues .blocked ∧
      ∀ k' ∈ c.threads.set x.1 (e.rest k) ++ e.spawn, loop .mtpBlocked ∈ k' → heldBy k' = l := by
  have hm := List.mem_of_getElem? hk
  obtain ⟨l, hl, hheld⟩ := hD.queue
  have hspawn := (loop_mem_flow (f := .mtpBlocked) (act_flow he)).2
  rw [filterMap_snoc, filterMap_snoc]
  by_cases hla : loop .mtpBlocked ∈ a :: k
  · -- the controller's own step
    have hown : ∀ l', (loop .mtpBlocked ∈ e.rest k → heldBy (e.rest k) = l') →
        ∀ k' ∈ c.threads.set x.1 (e.rest k) ++ e.spawn, loop .mtpBlocked ∈ k' →
          heldBy k' = l' := by
      intro l' h1 k' hk' hk1
      rcases mem_threads hk' with ⟨j, hj, hkj⟩ | rfl | hsp
      · exact absurd (loop_unique hr hkj hk hk1 hla) hj
      · exact h1 hk1
      · exact absurd hk1 (hspawn _ hsp)
    have h0 := hheld _ hm hla
    have hne := (reach_announced hr).pops .blocked _ hm
    have hp := reach_atBlocked hr _ hm hla
    generalize x.2 = o at he
    cases hp
    case pops =>
      have h1 := hne rfl
      cases act_branch he
      case popBlocked q l' hq =>
        refine ⟨[q], ?_, hown _ fun _ => by simp [Effect.rest, heldBy]⟩
        simp only [heldBy, List.filterMap_cons, List.filterMap_nil] at h0
        simp [pushed, attempted, hl, ← h0, hq]
      case popBlockedNull h2 => exact absurd h2 h1
    case starts t q =>
      refine ⟨[], ?_, hown _ fun _ => ?_⟩
      · simp only [heldBy, List.filterMap_cons, List.filterMap_nil] at h0
        have h1 : e.state.queues .blocked = c.state.queues .blocked := by
          cases act_branch he <;> rfl
        simp [pushed, attempted, hl, ← h0, h1]
      · cases act_branch he <;> simp [Effect.rest, heldBy]
    all_goals
      refine ⟨l, ?_, hown _ fun h => ?_⟩
      · cases act_branch he <;> simp [pushed, attempted, hl]
      · cases act_branch he <;> simp [Effect.rest, heldBy, body] at h0 h ⊢ <;> simp_all
  · -- another thread pushes at most
    obtain ⟨-, h1, -⟩ := device_act (reach_shape hr _ hm).self he hla
    refine ⟨l, ?_, fun k' hk' hk1 => ?_⟩
    · rw [h1]
      rcases act_blocked he with ⟨q, rfl, h2⟩ | ⟨rfl, -⟩ | ⟨h2, h3⟩
      · simp [pushed, hl, h2]
      · have h2 := (reach_shape hr _ hm).self
        simp only [Shape] at h2
        simp [h2] at hla
      · have h4 : pushed ⟨a :: k, x.2⟩ = none := by
          unfold pushed
          split
          · rename_i heq
            cases heq
            exact absurd rfl (h2 _)
          · rfl
        rw [h4, h3]
        simpa using hl
    · rcases mem_threads hk' with ⟨j, hj, hkj⟩ | rfl | hsp
      · exact hheld _ (List.mem_of_getElem? hkj) hk1
      · refine absurd hk1 fun h2 => hla ?_
        unfold Effect.rest at h2
        split at h2
        · cases h2
        · rcases List.mem_append.mp h2 with h2 | h2
          · rw [(loop_mem_flow (act_flow he)).1 h2]
            exact List.mem_cons_self
          · exact List.mem_cons_of_mem _ h2
      · exact absurd hk1 (hspawn _ hsp)

theorem trace_device (h : Trace (act cfg) ok (start cfg) c tr) : Device c tr := by
  induction h with
  | start =>
    refine ⟨fun k hk hl => ?_, by simp, by simp, ?_, [], by simp [start], fun k hk hl => ?_⟩
    · simp only [start, List.mem_cons, List.not_mem_nil, or_false] at hk
      rcases hk with rfl | rfl | rfl | rfl | rfl <;> simp [start, HoldsIo] at hl ⊢
    · simp [start, IoOf]
    · simp only [start, List.mem_cons, List.not_mem_nil, or_false] at hk
      rcases hk with rfl | rfl | rfl | rfl | rfl <;> simp [heldBy]
  | @step c c' tr x k htr _ hk hx ih =>
    obtain ⟨a, k', e, hk', he, rfl⟩ := step_some hx
    rw [hk] at hk'
    cases hk'
    have hr := htr.reach
    obtain ⟨h1, h2⟩ := last_step hr ih hk he
    exact ⟨holder_step hr ih hk he, h1, single_step hr ih hk, h2, queue_step hr ih hk he⟩

/-- The controller ends only where the planner is halted. -/
theorem reach_alive (h : Reach (act cfg) ok (start cfg) c) (hh : c.state.halt = false) :
    ∃ k ∈ c.threads, loop .mtpBlocked ∈ k := by
  induction h with
  | start => exact ⟨[loop .mtpBlocked], by simp [start]⟩
  | @step c c' x hr _ hx ih =>
    obtain ⟨a, k, e, hk, he, rfl⟩ := step_some hx
    have hm := List.mem_of_getElem? hk
    have hc : c.state.halt = false := act_halt he hh
    obtain ⟨l, hl, hloop⟩ := ih hc
    obtain ⟨j, hj⟩ := List.mem_iff_getElem?.mp hl
    by_cases hjx : j = x.1
    · subst hjx
      rw [hk] at hj
      cases hj
      refine ⟨e.rest k, mem_threads_self hk, ?_⟩
      have hne := (reach_announced hr).pops .blocked _ hm
      have hp := reach_atBlocked hr _ hm hloop
      generalize x.2 = o at he
      cases hp <;> cases act_branch he <;> simp [Effect.rest, body]
      case holds.haltBreak => exact hc
      case pops.popBlockedNull h1 => exact absurd h1 (hne rfl)
    · exact ⟨l, mem_threads_of_ne hj hjx, hloop⟩

theorem sublist_attempted : ∀ tr : List (Event Action Outcome),
    (tr.filterMap started).Sublist (tr.filterMap attempted)
  | [] => List.Sublist.refl _
  | e :: tr => by
    have ih := sublist_attempted tr
    rw [List.filterMap_cons, List.filterMap_cons]
    unfold started
    split_ifs
    · cases attempted e with
      | none => exact ih
      | some p => exact ih.cons_cons p
    · cases attempted e with
      | none => exact ih
      | some p => exact ih.cons p

/-- The device is exclusive and first come, first served in every interleaving. -/
theorem trace_firstCome (h : Trace (act cfg) ok (start cfg) c tr) : FirstCome c tr := by
  have hD := trace_device h
  have hr := h.reach
  have hlen := hD.ends.length_le
  refine ⟨fun hh => ?_, hD.ends, ?_, ?_, sublist_attempted tr⟩
  · obtain ⟨k, hk, hl⟩ := reach_alive hr hh
    have h1 := hD.holder k hk hl
    obtain ⟨i, hi⟩ := List.mem_iff_getElem?.mp hk
    have h2 := countP_unique (f := HoldsIo) hi fun j l hj hf => by
      refine loop_unique hr hj hi ?_ hl
      simp only [HoldsIo, Bool.and_eq_true] at hf
      simpa using hf.1.1
    unfold inProgress
    omega
  · have := hD.single
    unfold inProgress
    omega
  · obtain ⟨l, hl, -⟩ := hD.queue
    exact ⟨l ++ c.state.queues .blocked, by rw [hl, List.append_assoc]⟩

end Reach

/-! ### Runs -/

/-- Process 1 is suspended while it is in I/O (thread 7 is its timer), and its
I/O ends (thread 8). -/
theorem trace_firstCome_suspendRun : ∃ c tr, Trace (act (exampleConfig .fifo)) (fun _ _ => True)
    (start (exampleConfig .fifo)) c tr ∧ tr.filterMap started = [1] ∧ tr.filterMap ended = [1] ∧
    FirstCome c tr := by
  have h1 : (run (act (exampleConfig .fifo)) (fun _ _ => true) (start (exampleConfig .fifo))
      suspendRun).isSome = true := by
    decide +kernel
  have h2 : (events (act (exampleConfig .fifo)) (start (exampleConfig .fifo)) suspendRun).filterMap
      started = [1] := by
    decide +kernel
  have h3 : (events (act (exampleConfig .fifo)) (start (exampleConfig .fifo)) suspendRun).filterMap
      ended = [1] := by
    decide +kernel
  obtain ⟨c, hc⟩ := Option.isSome_iff_exists.mp h1
  have ht := trace_of_run (fun _ _ _ => trivial) Trace.start hc
  rw [List.nil_append] at ht
  exact ⟨c, _, ht, h2, h3, trace_firstCome ht⟩

end Kernel
end Kiss
