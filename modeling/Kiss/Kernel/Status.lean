/-
# The status of a PCB and where it is

`move_pcb_to_ready__srt` puts a PCB in the ready queue and writes its status
afterwards. In the runs where the short-term controller writes the status of no
PCB whose insertion has still to write it, and no swap fails, the status matches
the place (`reach_statusMatches`): a running process is `PCB_EXEC`, and one in
the blocked queue or in I/O is blocked or suspended, so `mtp_unblock_pcb` never
takes its default branch. In the others it need not (`not_statusMatches`).

Key definitions: `StatusMatches`, `Timely`, `Statuses`.
Key theorems: `reach_statuses`, `reach_statusMatches`, `not_statusMatches`.
-/
import Kiss.Kernel.Ownership

namespace Kiss
namespace Kernel

open Kernel.Action Place Threads

/-- The status of `p` matches where it is. -/
structure StatusMatches (p : ℕ) (c : Config Planner Action) : Prop where
  exec : c.state.exec = some p → (c.state.pcbs p).status = .exec
  blocked : p ∈ c.state.queues .blocked ∨ (∃ k ∈ c.threads, InIo p k = true) →
    (c.state.pcbs p).status = .blocked ∨ (c.state.pcbs p).status = .suspendedBlocked
  /-- `mtp_unblock_pcb` does not take its default branch. -/
  unblock : ∀ k ∈ c.threads, k.head? = some (unblockSwitch p) →
    (c.state.pcbs p).status = .blocked ∨ (c.state.pcbs p).status = .suspendedBlocked

/-- No swap fails, and when the short-term controller writes the status of a PCB
no thread has still to write that it is ready. -/
structure Timely (c : Config Planner Action) (x : ℕ × Outcome) : Prop where
  swapped : Swaps c x
  written : ∀ p k, c.threads[x.1]? = some (assign p (.status .exec) :: k) →
    ∀ l ∈ c.threads, assign p (.status .ready) ∉ l

/-! ### The places -/

/-- About to be inserted, in the ready queue or just popped. -/
def readying : Place → ℤ
  | entering .ready | queued .ready | popped => 1
  | _ => 0

/-- Alive and not there. -/
def unready (l : Place) : ℤ := living l - readying l

/-- With the status `PCB_EXEC`, up to the answer. -/
def running : Place → ℤ
  | dispatched | exec => 1
  | _ => 0

/-- From the blocking to the switch of `mtp_unblock_pcb`. -/
def blockedAt : Place → ℤ
  | entering .blocked | arming | queued .blocked | io | unblocking => 1
  | _ => 0

/-- Blocked, up to `mtp_unblock_pcb`. -/
def stuck : Place → ℤ
  | entering .blocked | arming | queued .blocked | io => 1
  | _ => 0

/-- Alive and not blocked. -/
def free (l : Place) : ℤ := living l - stuck l

theorem readying_nonneg (l : Place) : 0 ≤ readying l := by unfold readying; split <;> omega
theorem unready_nonneg (l : Place) : 0 ≤ unready l := by
  cases l
  case entering q | queued q => cases q <;> simp [unready, living, readying]
  all_goals simp [unready, living, readying]
theorem running_nonneg (l : Place) : 0 ≤ running l := by unfold running; split <;> omega
theorem blockedAt_nonneg (l : Place) : 0 ≤ blockedAt l := by unfold blockedAt; split <;> omega
theorem stuck_nonneg (l : Place) : 0 ≤ stuck l := by unfold stuck; split <;> omega
theorem free_nonneg (l : Place) : 0 ≤ free l := by
  cases l
  case entering q | queued q => cases q <;> simp [free, living, stuck]
  all_goals simp [free, living, stuck]

section Follows

variable {p : ℕ} {s : Planner} {o : Outcome} {a : Action}

theorem unready_follows (h : a ≠ assign p (.status .exec)) : Follows unready p 0 s o a := by
  cases a
  case push q r => cases q <;> simp [Follows, unready, readying, living]
  case assign r f =>
    cases f
    case status st =>
      cases st
      case exec => rintro rfl; exact absurd rfl h
      all_goals simp [Follows, unready, readying, living]
    all_goals trivial
  all_goals simp [Follows, unready, readying, living]

theorem running_follows (h : a ≠ assign p (.status .exec)) : Follows running p 0 s o a := by
  cases a
  case push q r => cases q <;> simp [Follows, running]
  case assign r f =>
    cases f
    case status st =>
      cases st
      case exec => rintro rfl; exact absurd rfl h
      all_goals simp [Follows, running]
    all_goals trivial
  all_goals simp [Follows, running]

theorem blockedAt_follows (h : a ≠ assign p (.status .blocked)) : Follows blockedAt p 0 s o a := by
  cases a
  case push q r => cases q <;> simp [Follows, blockedAt]
  case assign r f =>
    cases f
    case status st =>
      cases st
      case blocked => rintro rfl; exact absurd rfl h
      all_goals simp [Follows, blockedAt]
    all_goals trivial
  all_goals simp [Follows, blockedAt]

theorem free_follows (h : a ≠ cancelSuspendTimer p) : Follows free p 0 s o a := by
  cases a
  case push q r => cases q <;> simp [Follows, free, living, stuck]
  case assign r f =>
    cases f
    case status st => cases st <;> simp [Follows, free, living, stuck]
    all_goals trivial
  case cancelSuspendTimer r => rintro rfl; exact absurd rfl h
  all_goals simp [Follows, free, living, stuck]

end Follows

section Reach

variable {cfg : KernelConfig} {ok : Config Planner Action → ℕ × Outcome → Prop}
  {c₀ c c' : Config Planner Action} {x : ℕ × Outcome} {p t : ℕ} {a : Action} {k l : List Action}

/-! ### Who writes a status -/

/-- Where the PCB is whose status a thread writes. -/
def writer : ProcessStatus → Place
  | .new => entering .new
  | .exec => popped
  | .blocked => blocking
  | .exit => leaving
  | _ => entering .suspendedReady

theorem writer_holds [Starts cfg ok c₀] {st : ProcessStatus} (hr : Reach (act cfg) ok c₀ c)
    (hm : assign p (.status st) :: k ∈ c.threads) (h1 : st ≠ .ready) (h2 : st ≠ .suspendedBlocked) :
    1 ≤ held (atPlace (writer st)) p c := by
  have hb : atPlace (writer st) (queued .blocked) ≤ atPlace (writer st) arming := by
    cases st <;> simp [atPlace, writer]
  have h3 := load_le_held (p := p) (atPlace_nonneg (writer st)) hb hr hm
  have hg := reach_grounded (p := p) (atPlace_nonneg (writer st)) hb hr _ hm
  have hs := (reach_shape hr _ hm).self
  cases st
  case ready => exact absurd rfl h1
  case suspendedBlocked => exact absurd rfl h2
  case new | suspendedReady =>
    obtain ⟨k', rfl⟩ := hs
    have h4 := hg.tail.tail.self
    simp only [load_cons, weight, at', atPlace, writer, if_true] at h3 h4 ⊢
    omega
  case exec | blocked | exit =>
    have h4 := hg.tail.self
    simp only [load_cons, weight, at', atPlace, writer, if_true, reduceCtorEq, if_false] at h3 h4 ⊢
    omega

/-- Two counts of different places are not both 1. -/
theorem disjoint [Starts cfg ok c₀] {g f : Place → ℤ} (hr : Reach (act cfg) ok c₀ c) (hown : held own p c ≤ 1)
    (h : ∀ l, g l + f l ≤ own l) (hb : g arming + f arming ≤ g (queued .blocked) + f (queued .blocked))
    (hg : 1 ≤ held g p c) (hg' : 1 ≤ held f p c) : False := by
  have h1 := held_add g f p c
  have h2 := held_mono (p := p) hr h (by simp only [own, living, finished]; omega)
  omega

/-! ### The invariant -/

/-- The suspension callback has found the PCB blocked. -/
def Suspending (t p : ℕ) (k : List Action) : Prop := Deciding t p k ∧ suspendIfBlocked p ∉ k

/-- A thread in `mtp_unblock_pcb` has still to change the status. -/
def Unblocking (p : ℕ) (k : List Action) : Prop :=
  1 ≤ load mutexWeight k ∧ (∃ t, timerDestroy t ∈ k) ∧
    (unblockSwitch p ∈ k ∨ assign p (.status .ready) ∈ k)

/-- What holds of the status of `p` in the timely runs. -/
structure Statuses (p : ℕ) (c : Config Planner Action) : Prop where
  late : ∀ k ∈ c.threads, assign p (.status .ready) ∈ k → held unready p c ≤ 0
  runs : 1 ≤ held running p c → (c.state.pcbs p).status = .exec
  blocks : 1 ≤ held blockedAt p c →
    (c.state.pcbs p).status = .blocked ∨ (c.state.pcbs p).status = .suspendedBlocked
  suspends : ∀ k ∈ c.threads, ∀ t, Suspending t p k → held free p c ≤ 0
  frees : (c.state.pcbs p).status = .blocked → held free p c ≤ 0 ∨ ∃ k ∈ c.threads, Unblocking p k

theorem ready_flow {ts : List (List Action)} (h : Flow cfg a l ts) :
    (assign p (.status .ready) ∈ l → load (weight readying p) l = 1) ∧
      ∀ k ∈ ts, assign p (.status .ready) ∉ k := by
  rcases hc : cfg.algoritmoPlanificacion <;> cases h
  case fifo.loop f | srt.loop f => cases f <;> simp [body]
  case fifo.callback t | srt.callback t => rcases t with ⟨t, _ | _, q⟩ <;> simp [Timer.call]
  all_goals simp [movePcbToReady, applyReply, dispatchTail, weight, at', readying, hc]
  all_goals exact Eq.symm

theorem Statuses.late_step (hr : Reach (act cfg) ok (start cfg) c)
    (hr' : Reach (act cfg) ok (start cfg) c') (hS : Statuses p c) (ht : Timely c x)
    (hx : Threads.step (act cfg) c x = some c') :
    ∀ k ∈ c'.threads, assign p (.status .ready) ∈ k → held unready p c' ≤ 0 := by
  obtain ⟨a, k, e, hk, he, hc'⟩ := step_some hx
  have hm := List.mem_of_getElem? hk
  have hkeep : (∃ l ∈ c.threads, assign p (.status .ready) ∈ l) → held unready p c' ≤ 0 :=
    fun ⟨l, hl, hready⟩ => by
      have h1 := hS.late l hl hready
      have h2 := held_step (g := unready) (p := p) (d := 0) unready_nonneg
        (by simp [unready, living, readying]) (le_refl _) hr (fun b k' hb => by
          refine unready_follows ?_
          rintro rfl
          exact ht.written p k' hb l hl hready) hx
      omega
  intro k' hk' hready
  have hk'' := hk'
  rw [hc'] at hk'
  rcases mem_threads hk' with ⟨j, -, hj⟩ | rfl | hs
  · exact hkeep ⟨k', List.mem_of_getElem? hj, hready⟩
  · unfold Effect.rest at hready hk''
    split at hready
    · cases hready
    rename_i hstop
    rw [if_neg hstop] at hk''
    rcases List.mem_append.mp hready with h1 | h1
    · have h2 := (ready_flow (act_flow he)).1 h1
      have h3 := load_le_held (p := p) readying_nonneg (by simp [readying]) hr' hk''
      have h4 := (reach_grounded (p := p) readying_nonneg (by simp [readying]) hr _ hm).tail.self
      have h5 := held_add readying unready p c'
      have h6 := living_le_one (p := p) hr'
      have h7 : (fun l => readying l + unready l) = living := by
        funext l
        simp only [unready]
        omega
      rw [h7] at h5
      rw [load_append] at h3
      omega
    · exact hkeep ⟨_, hm, List.mem_cons_of_mem _ h1⟩
  · exact absurd hready ((ready_flow (act_flow he)).2 k' hs)

/-- Where a PCB that is not on its way to the ready queue gets another status. -/
theorem Statuses.written (hr : Reach (act cfg) ok (start cfg) c) (hown : held own p c ≤ 1)
    (hS : Statuses p c) (hk : c.threads[x.1]? = some (a :: k)) {e : Effect Planner Action}
    (he : act cfg a x.2 c.state = some e) {g : Place → ℤ} (hg : ∀ l, g l ≤ unready l)
    (hb : g arming = g (queued .blocked)) (hu : g unborn = 0) (h1 : 1 ≤ held g p c) :
    (e.state.pcbs p).status = (c.state.pcbs p).status ∨
    ∃ st, a = assign p (.status st) ∧ (e.state.pcbs p).status = st ∧ st ≠ .ready ∧
      (st ≠ .suspendedBlocked → 1 ≤ held (atPlace (writer st)) p c) := by
  have hm := List.mem_of_getElem? hk
  rcases act_pcb p he with h | ⟨f, rfl, h⟩ | ⟨-, h⟩ | ⟨u, -, -, h⟩ | ⟨-, h⟩ | ⟨-, -, hp, -⟩
  · exact Or.inl (by rw [h])
  · rcases f with st | _ | _ | _ | _ | _ | _ | _ | _ | _
    case status =>
      have hready : st ≠ .ready := by
        rintro rfl
        have h2 := hS.late _ hm List.mem_cons_self
        have h3 := held_mono (p := p) hr hg (by simp [unready, living, readying, hb])
        omega
      refine Or.inr ⟨st, rfl, by rw [h]; rfl, hready, fun h2 => writer_holds hr hm hready h2⟩
    all_goals exact Or.inl (by rw [h]; rfl)
  · exact Or.inl (by rw [h])
  · exact Or.inl (by rw [h])
  · exact Or.inl (by rw [h])
  · exfalso
    refine disjoint (g := g) (f := atPlace unborn) hr hown (fun l => ?_) ?_ h1 ?_
    · have h2 := hg l
      by_cases hl : l = unborn
      · subst hl
        simp [hu, atPlace, own, living, finished]
      · have h3 : own l = living l + finished l := rfl
        have h4 := finished_nonneg l
        have h5 := readying_nonneg l
        simp only [unready] at h2
        simp only [atPlace, if_neg hl]
        omega
    · simp [atPlace, hb]
    · have h2 := (le_value (g := atPlace unborn) (p := p) (atPlace_nonneg _) c.state).2.2.2.2.2
      have h3 := value_le_held (g := atPlace unborn) (p := p) (atPlace_nonneg _) (by simp [atPlace]) hr
      rw [if_pos (by omega)] at h2
      have h4 : atPlace unborn unborn = 1 := rfl
      omega

theorem Statuses.runs_step (hr : Reach (act cfg) ok (start cfg) c) (hown : held own p c ≤ 1)
    (hS : Statuses p c) (hx : Threads.step (act cfg) c x = some c') (h : 1 ≤ held running p c') :
    (c'.state.pcbs p).status = .exec := by
  obtain ⟨a, k, e, hk, he, rfl⟩ := step_some hx
  have hm := List.mem_of_getElem? hk
  show (e.state.pcbs p).status = .exec
  by_cases ha : a = assign p (.status .exec)
  · subst ha
    cases act_branch he
    simp [Pcb.assign]
  have h1 : 1 ≤ held running p c := by
    have := held_step (g := running) (p := p) (d := 0) running_nonneg (by simp [running]) (le_refl _) hr
      (fun b k' hb => by
        rw [hk] at hb
        cases hb
        exact running_follows ha) hx
    omega
  have hle : ∀ l, running l ≤ unready l := fun l => by
    cases l
    case entering q | queued q => cases q <;> simp [running, unready, living, readying]
    all_goals simp [running, unready, living, readying]
  rcases hS.written hr hown hk he hle rfl rfl h1 with h2 | ⟨st, rfl, h2, h3, h4⟩
  · rw [h2]
    exact hS.runs h1
  · cases st
    case exec => exact h2
    case ready => exact absurd rfl h3
    case suspendedBlocked =>
      obtain ⟨t, rfl⟩ := (reach_shape hr _ hm).self
      have h5 := hS.suspends _ hm t (by simp [Suspending, Deciding, Calls])
      have h6 : held running p c ≤ held free p c := held_mono hr (fun l => by
        cases l
        case entering q | queued q => cases q <;> simp [running, free, living, stuck]
        all_goals simp [running, free, living, stuck]) (by simp [running, free, living, stuck])
      omega
    all_goals
      refine absurd (h4 (by simp)) fun h5 => disjoint hr hown (fun l => ?_) (by simp [running, atPlace, writer]) h1 h5
      cases l
      case entering q | queued q => cases q <;> simp [running, atPlace, writer, own, living, finished]
      all_goals simp [running, atPlace, writer, own, living, finished]

theorem Statuses.blocks_step (hr : Reach (act cfg) ok (start cfg) c) (hown : held own p c ≤ 1)
    (hS : Statuses p c) (hx : Threads.step (act cfg) c x = some c') (h : 1 ≤ held blockedAt p c') :
    (c'.state.pcbs p).status = .blocked ∨ (c'.state.pcbs p).status = .suspendedBlocked := by
  obtain ⟨a, k, e, hk, he, rfl⟩ := step_some hx
  show (e.state.pcbs p).status = _ ∨ (e.state.pcbs p).status = _
  by_cases ha : a = assign p (.status .blocked)
  · subst ha
    cases act_branch he
    simp [Pcb.assign]
  have h1 : 1 ≤ held blockedAt p c := by
    have := held_step (g := blockedAt) (p := p) (d := 0) blockedAt_nonneg (by simp [blockedAt])
      (le_refl _) hr (fun b k' hb => by
        rw [hk] at hb
        cases hb
        exact blockedAt_follows ha) hx
    omega
  have hle : ∀ l, blockedAt l ≤ unready l := fun l => by
    cases l
    case entering q | queued q => cases q <;> simp [blockedAt, unready, living, readying]
    all_goals simp [blockedAt, unready, living, readying]
  rcases hS.written hr hown hk he hle rfl rfl h1 with h2 | ⟨st, rfl, h2, h3, h4⟩
  · rw [h2]
    exact hS.blocks h1
  · cases st
    case blocked => exact Or.inl h2
    case suspendedBlocked => exact Or.inr h2
    case ready => exact absurd rfl h3
    all_goals
      refine absurd (h4 (by simp)) fun h5 => disjoint hr hown (fun l => ?_) (by simp [blockedAt, atPlace, writer]) h1 h5
      cases l
      case entering q | queued q => cases q <;> simp [blockedAt, atPlace, writer, own, living, finished]
      all_goals simp [blockedAt, atPlace, writer, own, living, finished]

/-- Only `mtp_unblock_pcb` frees a blocked PCB. -/
theorem free_step (hr : Reach (act cfg) ok (start cfg) c) (hx : Threads.step (act cfg) c x = some c')
    (hk : c.threads[x.1]? = some (a :: k)) (ha : a ≠ cancelSuspendTimer p) :
    held free p c' ≤ held free p c := by
  have := held_step (g := free) (p := p) (d := 0) free_nonneg (by simp [free, living, stuck]) (le_refl _) hr
    (fun b k' hb => by
      rw [hk] at hb
      cases hb
      exact free_follows ha) hx
  omega

theorem Statuses.suspends_step (hr : Reach (act cfg) ok (start cfg) c) (hS : Statuses p c)
    (hx : Threads.step (act cfg) c x = some c') :
    ∀ k ∈ c'.threads, ∀ t, Suspending t p k → held free p c' ≤ 0 := by
  obtain ⟨a, k, e, hk, he, hc'⟩ := step_some hx
  have hm := List.mem_of_getElem? hk
  have hs := reach_shape hr _ hm
  intro k' hk' t hsus
  rw [hc'] at hk'
  rcases mem_threads hk' with ⟨j, hj, hkj⟩ | rfl | hk'
  · have hlm := List.mem_of_getElem? hkj
    have h1 := hS.suspends k' hlm t hsus
    have h2 := free_step (p := p) hr hx hk fun ha => by
      have h3 := locked_shape hs.self (Or.inr (Or.inl ha))
      have h4 := callback_holds (reach_callback hr k' hlm) (Or.inl hsus.1)
      exact hj (mutex_unique hr hkj hk (by omega) (by omega))
    omega
  · unfold Effect.rest at hsus
    split at hsus
    · simp [Suspending, Deciding, Calls] at hsus
    rcases deciding_flow hs (reach_callback hr _ hm) (act_flow he) hsus.1 with ⟨rfl, hw⟩ | ⟨hd, ha⟩
    · obtain ⟨u, rfl⟩ := hs.self
      simp [Suspending] at hsus
    · have h1 : held free p c ≤ 0 := by
        rcases ha with rfl | ⟨rfl, -⟩
        · -- the PCB was found blocked, and no other thread is in the mutex
          have hst : (c.state.pcbs p).status = .blocked := by
            by_contra hn
            cases act_branch he
            case suspends => exact hn ‹_›
            case notSuspends =>
              obtain ⟨u, rfl⟩ := hs.self
              simp [Suspending, Deciding] at hsus
          rcases hS.frees hst with h1 | ⟨l, hl, hmut, -, hun⟩
          · exact h1
          · exfalso
            obtain ⟨j, hj⟩ := List.mem_iff_getElem?.mp hl
            have h2 := callback_holds (reach_callback hr _ hm) (Or.inl hd)
            have hij := mutex_unique hr hj hk hmut (by omega)
            subst hij
            rw [hk] at hj
            cases hj
            obtain ⟨u, rfl⟩ := hs.self
            simp at hun
        · obtain ⟨u, rfl⟩ := hs.self
          exact hS.suspends _ hm u (by simp [Suspending, Deciding, Calls])
      have h2 := free_step (p := p) hr hx hk (by rintro rfl; simp at ha)
      omega
  · exact absurd hsus.1.1 (spawned_flow (t := t) (p := p) (s := c.state) (act_flow he) hk').2.1

/-- A PCB is stuck or free. -/
theorem not_free_of_stuck (hr : Reach (act cfg) ok (start cfg) c) (h : 1 ≤ held stuck p c) :
    held free p c ≤ 0 := by
  have h1 := held_add stuck free p c
  have h2 : (fun l => stuck l + free l) = living := by
    funext l
    simp only [free]
    omega
  have h3 := living_le_one (p := p) hr
  rw [h2] at h1
  omega

/-- While the PCB is blocked, `mtp_unblock_pcb` has still to change its status. -/
theorem Unblocking.step [Starts cfg ok c₀] (hr : Reach (act cfg) ok c₀ c)
    (hx : Threads.step (act cfg) c x = some c') (hst : (c.state.pcbs p).status = .blocked)
    (h : (c'.state.pcbs p).status = .blocked) (hl : l ∈ c.threads) (hu : Unblocking p l) :
    ∃ k ∈ c'.threads, Unblocking p k := by
  obtain ⟨a, k, e, hk, he, hc'⟩ := step_some hx
  have hs := (reach_shape hr _ (List.mem_of_getElem? hk)).self
  obtain ⟨hmut, hcall, hun⟩ := hu
  obtain ⟨j, hj⟩ := List.mem_iff_getElem?.mp hl
  by_cases hjx : j = x.1
  · subst hjx
    rw [hk] at hj
    cases hj
    refine ⟨e.rest k, by rw [hc']; exact mem_threads_self hk, ?_⟩
    obtain ⟨u, hu⟩ := hcall
    have huk : timerDestroy u ∈ k := by
      refine (List.mem_cons.mp hu).resolve_left ?_
      rintro rfl
      simp only [Shape] at hs
      simp [hs, mutexWeight] at hmut
    have hun' : a ≠ mutexUnlock := by
      rintro rfl
      obtain ⟨v, rfl⟩ := hs
      simp at hun
    have hstop : ¬ e.stop = true := fun hstop => stop_shape hs he hstop u huk
    rw [Effect.rest, if_neg hstop]
    refine ⟨mutex_rest (act_flow he) hun' hmut, ⟨u, List.mem_append_right _ huk⟩, ?_⟩
    simp only [List.mem_append]
    rcases hun with hun | hun
    · rcases List.mem_cons.mp hun with rfl | hun
      · cases act_branch he
        case unblockReady =>
          refine Or.inr (Or.inl ?_)
          unfold movePcbToReady
          split <;> simp
        case unblockSuspended h1 => simp_all
        case unblockError h1 => simp_all
      · exact Or.inl (Or.inr hun)
    · rcases List.mem_cons.mp hun with rfl | hun
      · cases act_branch he
        rw [hc'] at h
        simp [Pcb.assign] at h
      · exact Or.inr (Or.inr hun)
  · rw [hc']
    exact ⟨l, mem_threads_of_ne hj hjx, hmut, hcall, hun⟩

/-- A PCB that is blocked was, or becomes so by the assignment. -/
theorem blocked_act {o : Outcome} {s : Planner} {e : Effect Planner Action} (he : act cfg a o s = some e)
    (h : (e.state.pcbs p).status = .blocked) :
    (s.pcbs p).status = .blocked ∨ a = assign p (.status .blocked) := by
  rcases act_pcb p he with h1 | ⟨f, rfl, h1⟩ | ⟨-, h1⟩ | ⟨u, -, -, h1⟩ | ⟨-, h1⟩ | ⟨-, -, -, h1, -⟩
  all_goals simp only [h1, reduceCtorEq] at h
  · exact Or.inl h
  · rw [assign_status] at h
    split at h
    · exact Or.inr (by rw [h])
    · exact Or.inl h
  · exact Or.inl h
  · exact Or.inl h
  · exact Or.inl h

theorem Statuses.frees_step (hr : Reach (act cfg) ok (start cfg) c)
    (hr' : Reach (act cfg) ok (start cfg) c') (hS : Statuses p c)
    (hx : Threads.step (act cfg) c x = some c') (h : (c'.state.pcbs p).status = .blocked) :
    held free p c' ≤ 0 ∨ ∃ k ∈ c'.threads, Unblocking p k := by
  obtain ⟨a, k, e, hk, he, hc'⟩ := step_some hx
  have hs := (reach_shape hr _ (List.mem_of_getElem? hk)).self
  have hmem : e.rest k ∈ c'.threads := by
    rw [hc']
    exact mem_threads_self hk
  rcases blocked_act he (by rw [hc'] at h; exact h) with hst | rfl
  · rcases hS.frees hst with h1 | ⟨l, hl, hu⟩
    · by_cases ha : a = cancelSuspendTimer p
      · subst ha
        obtain ⟨u, rfl⟩ := hs
        cases act_branch he <;>
          exact Or.inr ⟨_, hmem, by simp [Effect.rest, Unblocking, mutexWeight]⟩
      · have := free_step (p := p) hr hx hk ha
        exact Or.inl (by omega)
    · exact Or.inr (hu.step hr hx hst h hl)
  · refine Or.inl (not_free_of_stuck hr' ?_)
    simp only [Shape] at hs
    subst hs
    cases act_branch he
    have h1 := load_le_held (p := p) stuck_nonneg (by simp [stuck]) hr' hmem
    simpa [Effect.rest, weight, at', stuck, afterSwitch] using h1

theorem reach_statuses (hok : ∀ c x, ok c x → Timely c x) (h : Reach (act cfg) ok (start cfg) c) :
    Statuses p c := by
  induction h with
  | start =>
    have h1 : held running p (start cfg) = 0 := by
      rw [start_held]
      simp [running]
    have h2 : held blockedAt p (start cfg) = 0 := by
      rw [start_held]
      simp [blockedAt]
    refine ⟨?_, by omega, by omega, ?_, ?_⟩ <;>
      simp [start, Suspending, Deciding, Calls]
  | @step c c' x hr hx h ih =>
    have hr' := Reach.step x hr hx h
    have hown := held_le_one (p := p) own_nonneg (by simp [own, living, finished])
      (by simp [own, living, finished]) (fun _ _ _ => own_follows)
      (fun c x hx => (hok c x hx).swapped) hr
    exact ⟨ih.late_step hr hr' (hok c x hx) h, ih.runs_step hr hown h, ih.blocks_step hr hown h,
      ih.suspends_step hr h, ih.frees_step hr hr' h⟩

end Reach

/-! ### Runs -/

/-- Enough for `Timely`: no swap fails, and no thread has still to write that a
PCB is ready when the short-term controller writes a status. -/
def checkTimely (c : Config Planner Action) (x : ℕ × Outcome) : Bool :=
  checkSwaps c x &&
    match c.threads[x.1]? with
    | some (assign p (.status .exec) :: _) =>
      c.threads.all fun l => !l.contains (assign p (.status .ready))
    | _ => true

theorem timely_of_check (c : Config Planner Action) (x : ℕ × Outcome)
    (h : checkTimely c x = true) : Timely c x := by
  obtain ⟨h1, h2⟩ := Bool.and_eq_true_iff.mp h
  refine ⟨swaps_of_check c x h1, fun p k hk l hl => ?_⟩
  rw [hk] at h2
  have := List.all_eq_true.mp h2 l hl
  simpa using this

/-- Process 1 runs and blocks under SRT: thread 6 receives the answer and
thread 7 is the suspension timer. -/
def srtBlockRun : List (ℕ × Outcome) :=
  admitRun ioProgram 5 ++ oks 2 0 ++ oks 11 3 ++ replyRun 6 ioReply ++ oks 9 6

/-- Its I/O ends (thread 8) while the mutex is free, and it runs again. -/
def srtReturnRun : List (ℕ × Outcome) := srtBlockRun ++ oks 8 2 ++ oks 13 8 ++ oks 12 3

/-- While process 1 is in I/O, process 2 is admitted (thread 8). The I/O ends
(thread 9): process 1 goes before process 2 in the ready queue, the controller
pops it with the permit of process 2, and only then is its status written. -/
def lateRun : List (ℕ × Outcome) :=
  srtBlockRun ++ admitRun ioProgram 8 ++ oks 2 0 ++ oks 8 2 ++ oks 8 9 ++ oks 8 3 ++ oks 2 9

end Kernel
end Kiss
