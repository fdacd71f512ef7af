/-
# Suspension timers

A suspension timer reads its flag `canceled` outside the mutex that guards the
PCB. `Episodes` is the invariant of the runs in which nobody cancels between
that reading and the lock (`Undisturbed`): a timer that can still suspend the
PCB was armed in the current blocking episode, the PCB points to it until the
callback clears the pointer, and the PCB is in the blocked queue or in I/O.

A failed swap puts the PCB on exit and leaves it blocked, so the invariant also
says how such a PCB ends: nothing but `mtp_unblock_pcb` moves it any more, and
that finds it neither blocked nor suspended.

Key definitions: `CanSuspend`, `Undisturbed`, `InEpisode`, `Episodes`.
Key theorems: `reach_episodes`.
-/
import Kiss.Kernel.Counts
import Kiss.Kernel.Timers

namespace Kiss
namespace Kernel

open Kernel.Action Place Threads

/-! ### Where a suspension timer is -/

/-- The callback has not cleared the pointer yet. -/
def Waiting (t p : ℕ) (k : List Action) : Prop :=
  Calls t p k ∧ assign p .timerSuspendedBlocked ∈ k

/-- The callback has cleared the pointer and can still suspend the PCB. -/
def Deciding (t p : ℕ) (k : List Action) : Prop :=
  Calls t p k ∧ assign p .timerSuspendedBlocked ∉ k ∧
    (suspendIfBlocked p ∈ k ∨ swappProcess p ∈ k ∨ assign p (.status .suspendedBlocked) ∈ k)

/-- The callback is moving the PCB to exit. -/
def Exiting (t p : ℕ) (k : List Action) : Prop := Calls t p k ∧ push .exit p ∈ k

/-- The timer is being started, sleeps or is about to test a flag nobody has
set, or waits in its callback. -/
def Armed (t p : ℕ) (s : Planner) (k : List Action) : Prop :=
  k.head? = some (startSuspendTimer t p) ∨
  ((k.head? = some (timerSleep ⟨t, .mtpSuspendPcb, p⟩) ∨
    k.head? = some (timerTest ⟨t, .mtpSuspendPcb, p⟩)) ∧ s.canceled t = false) ∨ Waiting t p k

/-- The thread of timer `t` can still use the PCB. -/
def CanSuspend (t p : ℕ) (s : Planner) (k : List Action) : Prop :=
  Armed t p s k ∨ Deciding t p k ∨ Exiting t p k

/-- When a suspension timer is cancelled, none of the PCB has tested its flag and
waits for the mutex; and when the I/O timer cannot be started, none can still
use the PCB. -/
structure Undisturbed (c : Config Planner Action) (x : ℕ × Outcome) : Prop where
  canceled : ∀ p k, c.threads[x.1]? = some (cancelSuspendTimer p :: k) →
    ∀ l ∈ c.threads, ∀ t, Calls t p l → mutexLock ∉ l
  started : ∀ t p k, c.threads[x.1]? = some (startBlockedTimer t p :: k) → x.2 ≠ .ok →
    ∀ l ∈ c.threads, ∀ u, ¬ CanSuspend u p c.state l

/-! ### The callback in its thread -/

section Thread

variable {cfg : KernelConfig} {t p : ℕ} {a : Action} {k l : List Action} {ts : List (List Action)}

/-- From the lock to the last use of the PCB the callback holds the mutex. -/
theorem callback_holds (hk : AtPoint k) (h : Deciding t p k ∨ Exiting t p k) :
    load mutexWeight k = 1 := by
  have hc : Calls t p k := h.elim (·.1) (·.1)
  obtain ⟨pre, hpre, rfl⟩ := hk t p hc
  simp only [suspendPoints, List.mem_cons, List.not_mem_nil, or_false] at hpre
  rcases hpre with rfl | rfl | rfl | rfl | rfl | rfl | rfl | rfl | rfl | rfl | rfl | rfl | rfl | rfl <;>
    simp_all [Deciding, Exiting, mutexWeight]

/-- Before the lock it does not. -/
theorem waiting_holds (hk : AtPoint k) (h : Waiting t p k) :
    mutexLock ∈ k ∨ load mutexWeight k = 1 := by
  obtain ⟨pre, hpre, rfl⟩ := hk t p h.1
  simp only [suspendPoints, List.mem_cons, List.not_mem_nil, or_false] at hpre
  rcases hpre with rfl | rfl | rfl | rfl | rfl | rfl | rfl | rfl | rfl | rfl | rfl | rfl | rfl | rfl <;>
    simp_all [Waiting, mutexWeight]

/-- Where a thread that runs the callback after an action was before it. -/
theorem callback_flow (hs : Suffixes (Shape cfg) (a :: k)) (hk : AtPoint (a :: k))
    (h : Flow cfg a l ts) (hc : Calls t p (l ++ k)) :
    a = timerTest ⟨t, .mtpSuspendPcb, p⟩ ∧ k = [] ∨
    ∃ pre ∈ suspendPoints p, a :: k = pre ++ [timerDestroy ⟨t, .mtpSuspendPcb, p⟩] := by
  rcases destroy_flow h hc with hc' | rfl
  · exact Or.inr (hk t p (List.mem_cons_of_mem _ hc'))
  · exact Or.inl ⟨rfl, hs.self⟩

theorem waiting_flow (hs : Suffixes (Shape cfg) (a :: k)) (hk : AtPoint (a :: k))
    (h : Flow cfg a l ts) (hw : Waiting t p (l ++ k)) :
    a = timerTest ⟨t, .mtpSuspendPcb, p⟩ ∨ a = mutexLock ∧ Waiting t p (a :: k) := by
  rcases callback_flow hs hk h hw.1 with ⟨rfl, -⟩ | ⟨pre, hpre, heq⟩
  · exact Or.inl rfl
  · simp only [suspendPoints, List.mem_cons, List.not_mem_nil, or_false] at hpre
    rcases hpre with rfl | rfl | rfl | rfl | rfl | rfl | rfl | rfl | rfl | rfl | rfl | rfl | rfl | rfl <;>
      cases heq <;> cases h <;> simp_all [Waiting, Calls]

theorem deciding_flow (hs : Suffixes (Shape cfg) (a :: k)) (hk : AtPoint (a :: k))
    (h : Flow cfg a l ts) (hd : Deciding t p (l ++ k)) :
    a = assign p .timerSuspendedBlocked ∧ Waiting t p (a :: k) ∨
    Deciding t p (a :: k) ∧ (a = suspendIfBlocked p ∨ a = swappProcess p ∧ l ≠ exitWithError p) := by
  rcases callback_flow hs hk h hd.1 with ⟨rfl, rfl⟩ | ⟨pre, hpre, heq⟩
  · cases h <;> simp_all [Deciding, Calls, Timer.call]
  · simp only [suspendPoints, List.mem_cons, List.not_mem_nil, or_false] at hpre
    rcases hpre with rfl | rfl | rfl | rfl | rfl | rfl | rfl | rfl | rfl | rfl | rfl | rfl | rfl | rfl <;>
      cases heq <;> cases h <;> simp_all [Deciding, Waiting, Calls]

theorem exiting_flow (hs : Suffixes (Shape cfg) (a :: k)) (hk : AtPoint (a :: k))
    (h : Flow cfg a l ts) (he : Exiting t p (l ++ k)) :
    a = swappProcess p ∧ Deciding t p (a :: k) ∨
    Exiting t p (a :: k) ∧ (a = assign p .error ∨ a = exitMultiprogramming p ∨
      a = semPost .ltpSemMultiprogrammingLevel ∨ a = assign p (.status .exit)) := by
  rcases callback_flow hs hk h he.1 with ⟨rfl, rfl⟩ | ⟨pre, hpre, heq⟩
  · cases h <;> simp_all [Exiting, Calls, Timer.call]
  · simp only [suspendPoints, List.mem_cons, List.not_mem_nil, or_false] at hpre
    rcases hpre with rfl | rfl | rfl | rfl | rfl | rfl | rfl | rfl | rfl | rfl | rfl | rfl | rfl | rfl <;>
      cases heq <;> cases h <;> simp_all [Exiting, Deciding, Calls]

/-- Where a timer that sleeps or tests its flag was before. -/
theorem sleeping_flow {u : Timer} (hs : Suffixes (Shape cfg) (a :: k)) (h : Flow cfg a l ts)
    (hu : (l ++ k).head? = some (timerSleep u) ∨ (l ++ k).head? = some (timerTest u)) :
    a = timerSleep u := by
  by_cases hl : l = []
  · rw [hl, List.nil_append] at hu
    rcases inner_tail hs.self fun hn => by
      rcases hu with hu | hu <;> simpa using hn _ hu with ⟨q, rfl | rfl | rfl⟩ | rfl <;>
    · have h1 := hs.self
      simp only [Shape] at h1
      subst h1
      simp at hu
  · rcases hc : cfg.algoritmoPlanificacion <;> cases h
    case fifo.loop f | srt.loop f => cases f <;> simp [body] at hu
    case fifo.callback v | srt.callback v =>
      rcases v with ⟨v, _ | _, q⟩ <;> simp [Timer.call] at hu
    all_goals simp_all [movePcbToReady, applyReply]

/-- Where an armed timer was before an action of its thread. -/
theorem armed_flow {s : Planner} (hs : Suffixes (Shape cfg) (a :: k)) (hk : AtPoint (a :: k))
    (h : Flow cfg a l ts) (ha : Armed t p s (l ++ k)) :
    (a = setSuspendTimer p ∧ l = [startSuspendTimer t p]) ∨
    (a = timerSleep ⟨t, .mtpSuspendPcb, p⟩ ∧ s.canceled t = false) ∨
    a = timerTest ⟨t, .mtpSuspendPcb, p⟩ ∨ a = mutexLock ∧ Waiting t p (a :: k) := by
  rcases ha with ha | ⟨ha, hc⟩ | ha
  · refine Or.inl ?_
    by_cases hl : l = []
    · rw [hl, List.nil_append] at ha
      obtain rfl := arming_tail hs.self (Or.inr ⟨t, ha⟩)
      have h1 := hs.self
      simp only [Shape] at h1
      subst h1
      simp at ha
    · obtain rfl := arming_flow h hl (Or.inr ⟨t, ha⟩)
      cases h
      · exact absurd rfl hl
      · simp_all
  · exact Or.inr (Or.inl ⟨sleeping_flow hs h ha, hc⟩)
  · exact Or.inr (Or.inr (waiting_flow hs hk h ha))

/-- A new thread runs no callback yet, and is armed by the step that starts it. -/
theorem spawned_flow {s : Planner} {k' : List Action} (h : Flow cfg a l ts) (hk' : k' ∈ ts) :
    (Armed t p s k' → a = startSuspendTimer t p) ∧ ¬ Calls t p k' ∧ ∀ q f, assign q f ∉ k' := by
  cases h <;> simp_all [Armed, Waiting, Calls]

end Thread

/-! ### The episode of a timer -/

/-- The PCB is blocked in the episode that armed timer `t`, and points to `x`. -/
structure InEpisode (x : Option ℕ) (t p : ℕ) (c : Config Planner Action) : Prop where
  pointer : (c.state.pcbs p).timerSuspendedBlocked = x
  episode : c.state.armedIn t = c.state.episode p
  blocked : held away p c ≤ 0

/-- The actions that end an episode, or that `InEpisode` must not meet. -/
def Disturbs (p : ℕ) (o : Outcome) (s : Planner) (a : Action) : Prop :=
  a = assign p .timerSuspendedBlocked ∨ a = cancelSuspendTimer p ∨
  (∃ t, a = startSuspendTimer t p ∧ o ≠ .ok) ∨ (∃ t, a = startBlockedTimer t p ∧ o ≠ .ok) ∨
  (a = swappProcess p ∧ Fails s o a)

section Reach

variable {cfg : KernelConfig} {ok : Config Planner Action → ℕ × Outcome → Prop}
  {c c' : Config Planner Action} {x : ℕ × Outcome} {p t : ℕ} {a : Action} {k l : List Action}

theorem pcb_assign_timer {s : Pcb} {f : Assign} (hf : f ≠ .timerSuspendedBlocked) :
    (s.assign f).timerSuspendedBlocked = s.timerSuspendedBlocked := by
  cases f <;> first | rfl | exact absurd rfl hf

/-- A PCB blocked with its timers is not created, nor about to arm one. -/
theorem InEpisode.not_active {x : Option ℕ} {i : ℕ} (hr : Reach (act cfg) ok (start cfg) c)
    (hI : InEpisode x t p c) (hk : c.threads[i]? = some (a :: k)) :
    a ≠ setSuspendTimer p ∧ p ≤ c.state.pcbId := by
  constructor
  · rintro rfl
    have h1 := head_le_held (p := p) away_nonneg (by simp [away]) hr hk
    have h2 : weight away p (setSuspendTimer p) = 1 := by simp [weight, at', away]
    have := hI.blocked
    omega
  · by_contra hp
    have h1 := value_le_held (p := p) away_nonneg (by simp [away]) hr
    have h2 := (le_value (p := p) away_nonneg c.state).2.2.2.2.2
    rw [if_pos (by omega)] at h2
    have h3 : away unborn = 1 := rfl
    have := hI.blocked
    omega

/-- Where nothing takes the PCB out of the blocked queue and I/O. -/
theorem away_step (hr : Reach (act cfg) ok (start cfg) c)
    (hx : Threads.step (act cfg) c x = some c') (hk : c.threads[x.1]? = some (a :: k))
    (h1 : a ≠ cancelSuspendTimer p) (h2 : a = swappProcess p → ¬ Fails c.state x.2 a)
    (h3 : ∀ t, a = startBlockedTimer t p → ¬ Fails c.state x.2 a) :
    held away p c' ≤ held away p c := by
  have := held_step (g := away) (p := p) (d := 0) away_nonneg (by simp [away]) (le_refl _) hr
    (fun b l hl => by
      rw [hk] at hl
      cases hl
      exact away_follows h1 h2 h3) hx
  omega

/-- What does not disturb an episode leaves it as it is. -/
theorem InEpisode.step {y : Option ℕ} (hr : Reach (act cfg) ok (start cfg) c)
    (hx : Threads.step (act cfg) c x = some c') (hk : c.threads[x.1]? = some (a :: k))
    (hd : ¬ Disturbs p x.2 c.state a) (ht : t ≤ c.state.lastTimer) (hI : InEpisode y t p c) :
    InEpisode y t p c' := by
  obtain ⟨hset, hid⟩ := hI.not_active hr hk
  have hheld := away_step hr hx hk (fun hc => hd (Or.inr (Or.inl hc)))
    (fun hs hf => hd (Or.inr (Or.inr (Or.inr (Or.inr ⟨hs, hf⟩)))))
    fun u hb hf => hd (Or.inr (Or.inr (Or.inr (Or.inl ⟨u, hb, by subst hb; exact hf⟩))))
  have hb := hI.blocked
  obtain ⟨b, l, e, hl, he, rfl⟩ := step_some hx
  rw [hk] at hl
  cases hl
  obtain ⟨-, harm, -, hep, -⟩ := act_timers p he
  refine ⟨?_, ?_, by omega⟩
  · rw [← hI.pointer]
    rcases act_pcb p he with h | ⟨f, rfl, h⟩ | ⟨rfl, -⟩ | ⟨u, rfl, ho, -⟩ | ⟨-, h⟩ | ⟨-, -, h, -⟩
    · rw [h]
    · show (e.state.pcbs p).timerSuspendedBlocked = _
      rw [h]
      exact pcb_assign_timer fun hf => hd (Or.inl (by rw [hf]))
    · exact absurd rfl hset
    · exact absurd (Or.inr (Or.inr (Or.inl ⟨u, rfl, ho⟩))) hd
    · show (e.state.pcbs p).timerSuspendedBlocked = _
      rw [h]
    · omega
  · show e.state.armedIn t = e.state.episode p
    rw [harm t ht, hep fun h => hd (Or.inr (Or.inl h))]
    exact hI.episode

/-- The invariant of the undisturbed runs, for PCB `p`. -/
structure Episodes (p : ℕ) (c : Config Planner Action) : Prop where
  armed : ∀ k ∈ c.threads, ∀ t, Armed t p c.state k → InEpisode (some t) t p c
  deciding : ∀ k ∈ c.threads, ∀ t, Deciding t p k → InEpisode none t p c
  exiting : ∀ k ∈ c.threads, ∀ t, Exiting t p k →
    c.state.armedIn t = c.state.episode p ∧ held away p c ≤ 1
  /-- A PCB on the way out can only wait for its I/O. -/
  out : 1 ≤ held finished p c → held active p c ≤ 0
  leaves : ∀ k ∈ c.threads, assign p (.status .exit) ∈ k →
    1 ≤ load mutexWeight k ∨ held living p c ≤ 0
  status : 1 ≤ held marked p c →
    (c.state.pcbs p).status ≠ .blocked ∧ (c.state.pcbs p).status ≠ .suspendedBlocked

/-! ### What the other threads cannot do meanwhile -/

theorem armed_timer {s : Planner} (h : Armed t p s k) : ∃ a ∈ k, a.timer = some t := by
  rcases h with h | ⟨h | h, -⟩ | h
  · exact ⟨_, List.mem_of_head? h, rfl⟩
  · exact ⟨_, List.mem_of_head? h, rfl⟩
  · exact ⟨_, List.mem_of_head? h, rfl⟩
  · exact ⟨_, h.1, rfl⟩

/-- The steps of the two callbacks that need the mutex. -/
theorem locked_shape (hs : Shape cfg (a :: k)) (ha : a = assign p .timerSuspendedBlocked ∨
    a = cancelSuspendTimer p ∨ a = swappProcess p ∨ a = unblockSwitch p) :
    load mutexWeight (a :: k) = 1 := by
  rcases ha with rfl | rfl | rfl | rfl
  all_goals
    obtain ⟨u, rfl⟩ := hs
    simp [mutexWeight]

theorem waiting_of_shape (hs : Shape cfg (assign p .timerSuspendedBlocked :: k)) :
    ∃ t, Waiting t p (assign p .timerSuspendedBlocked :: k) := by
  obtain ⟨u, rfl⟩ := hs
  exact ⟨u, by simp [Waiting, Calls]⟩

theorem deciding_of_shape (hs : Shape cfg (swappProcess p :: k)) :
    ∃ t, Deciding t p (swappProcess p :: k) := by
  obtain ⟨u, rfl⟩ := hs
  exact ⟨u, by simp [Deciding, Calls]⟩

section Quiet

variable {e : Effect Planner Action} {j : ℕ}

/-- The thread whose suspension timer is being set is not the one that cancels it. -/
theorem arming_not_cancel (hr : Reach (act cfg) ok (start cfg) c)
    (hk : c.threads[x.1]? = some (cancelSuspendTimer p :: k)) (hl : l ∈ c.threads)
    (ha : Arming p l) : False := by
  have hm := List.mem_of_getElem? hk
  obtain ⟨u, rfl⟩ := (reach_shape hr _ hm).self
  have h1 := (le_value (p := p) living_nonneg c.state).1 .blocked
  rw [sumAt_eq] at h1
  have h2 := List.count_pos_iff.mpr (List.mem_of_getLast? (last_blocked hr l hl p ha))
  have h3 := le_total (fun t ht =>
    (reach_grounded (p := p) living_nonneg (by simp [living]) hr t ht).nonneg) hm
  have h4 := living_le_one (p := p) hr
  unfold held at h4
  simp only [load_cons, load_nil, weight, at', living, if_true] at h1 h3
  omega

/-- While a timer is armed, no other thread disturbs its episode. -/
theorem Episodes.armed_quiet (hr : Reach (act cfg) ok (start cfg) c) (hE : Episodes p c)
    (hu : Undisturbed c x) (hk : c.threads[x.1]? = some (a :: k)) (he : act cfg a x.2 c.state = some e)
    (hl : c.threads[j]? = some l) (hj : j ≠ x.1) (ha : Armed t p c.state l)
    (ha' : Armed t p e.state l) : ¬ Disturbs p x.2 c.state a := by
  have hm := List.mem_of_getElem? hk
  have hlm := List.mem_of_getElem? hl
  have hs := (reach_shape hr _ hm).self
  have hI := hE.armed l hlm t ha
  have huniq : ∀ u, Armed u p c.state (a :: k) → False := fun u hu' => by
    have h1 := (hE.armed _ hm u hu').pointer
    rw [hI.pointer] at h1
    cases h1
    obtain ⟨b, hb, hbt⟩ := armed_timer ha
    obtain ⟨d, hd, hdt⟩ := armed_timer hu'
    exact hj (timer_unique hr hl hk hb hd hbt hdt)
  rintro (rfl | rfl | ⟨u, rfl, ho⟩ | ⟨u, rfl, ho⟩ | ⟨rfl, -⟩)
  · obtain ⟨u, hw⟩ := waiting_of_shape hs
    exact huniq u (Or.inr (Or.inr hw))
  · rcases ha' with ha' | ⟨-, hc⟩ | hw
    · exact arming_not_cancel hr hk hlm (Or.inr ⟨t, ha'⟩)
    · rw [(act_timers p he).2.2.2.2 rfl t hI.pointer] at hc
      cases hc
    · rcases waiting_holds (reach_callback hr l hlm) hw with h | h
      · exact hu.canceled p k hk l hlm t hw.1 h
      · have h1 := locked_shape hs (Or.inr (Or.inl rfl))
        exact hj (mutex_unique hr hl hk (by omega) (by omega))
  · exact huniq u (Or.inl rfl)
  · exact hu.started u p k hk ho l hlm t (Or.inl ha)
  · obtain ⟨u, hw⟩ := deciding_of_shape hs
    have h1 := (hE.deciding _ hm u hw).pointer
    rw [hI.pointer] at h1
    cases h1

/-- Nor while the callback holds the mutex. -/
theorem locked_quiet (hr : Reach (act cfg) ok (start cfg) c) (hu : Undisturbed c x)
    (hk : c.threads[x.1]? = some (a :: k))
    (hl : c.threads[j]? = some l) (hj : j ≠ x.1) (hd : Deciding t p l ∨ Exiting t p l) :
    a ≠ assign p .timerSuspendedBlocked ∧ a ≠ cancelSuspendTimer p ∧ a ≠ swappProcess p ∧
      ∀ u, a = startBlockedTimer u p → x.2 = .ok := by
  have hm := List.mem_of_getElem? hk
  have hlm := List.mem_of_getElem? hl
  have h1 := callback_holds (reach_callback hr l hlm) hd
  have h2 : ¬ (a = assign p .timerSuspendedBlocked ∨ a = cancelSuspendTimer p ∨
      a = swappProcess p ∨ a = unblockSwitch p) := fun h => by
    have := locked_shape (reach_shape hr _ hm).self h
    exact hj (mutex_unique hr hl hk (by omega) (by omega))
  refine ⟨fun h => h2 (by tauto), fun h => h2 (by tauto), fun h => h2 (by tauto), ?_⟩
  rintro u rfl
  by_contra ho
  exact hu.started u p k hk ho l hlm t (Or.inr hd)

end Quiet

/-! ### One step -/

/-- A PCB whose suspension timer is set is nowhere but in the blocked queue. -/
theorem InEpisode.set (hr : Reach (act cfg) ok (start cfg) c) (hE : Episodes p c)
    (hx : Threads.step (act cfg) c x = some c') (hk : c.threads[x.1]? = some (setSuspendTimer p :: k)) :
    InEpisode (some (c.state.lastTimer + 1)) (c.state.lastTimer + 1) p c' := by
  have h1 : held away p c' ≤ held away p c + -1 :=
    balance_step hx (reach_grounded away_nonneg (by simp [away]) hr) fun b l e hl he => by
      rw [hk] at hl
      cases hl
      cases act_branch he
      show value away p c.state + _ + _ ≤ _
      simp [weight, at', away]
  have h2 := head_le_held (p := p) active_nonneg (by simp [active, living]) hr hk
  have h3 : weight active p (setSuspendTimer p) = 1 := by simp [weight, at', active, living]
  have h4 := (loose_le_living (p := p) hr).trans (living_le_one hr)
  have h5 := held_add loose finished p c
  have h6 := hE.out
  rw [← away_eq] at h5
  refine ⟨?_, ?_, by omega⟩
  all_goals
    obtain ⟨b, l, e, hl, he, rfl⟩ := step_some hx
    rw [hk] at hl
    cases hl
    cases act_branch he
    simp

/-- What a test of the flag that goes on to the callback found. -/
theorem timerTest_act {u : Timer} {o : Outcome} {s : Planner} {e : Effect Planner Action}
    (h : act cfg (timerTest u) o s = some e) (hn : e.next ≠ [timerDestroy u]) :
    s.canceled u.id = false := by
  cases act_branch h
  case timerCanceled => exact absurd rfl hn
  case timerCall hc => exact hc

theorem Episodes.armed_step (hr : Reach (act cfg) ok (start cfg) c) (hE : Episodes p c)
    (hu : Undisturbed c x) (hx : Threads.step (act cfg) c x = some c') :
    ∀ k ∈ c'.threads, ∀ t, Armed t p c'.state k → InEpisode (some t) t p c' := by
  obtain ⟨a, k, e, hk, he, rfl⟩ := step_some hx
  have hm := List.mem_of_getElem? hk
  have hs := reach_shape hr _ hm
  have hp := reach_callback hr _ hm
  have hf := act_flow he
  intro k' hk' t ha
  -- a timer that was armed before, in a thread that nothing disturbs
  have hkeep : ∀ {l : List Action}, l ∈ c.threads → Armed t p c.state l → ¬ Disturbs p x.2 c.state a →
      InEpisode (some t) t p ⟨e.state, c.threads.set x.1 (e.rest k) ++ e.spawn⟩ := fun hl ha hd => by
    obtain ⟨b, hb, hbt⟩ := armed_timer ha
    exact (hE.armed _ hl t ha).step hr hx hk hd (timer_le hr hl hb hbt)
  rcases mem_threads hk' with ⟨j, hj, hkj⟩ | rfl | hk'
  · have hlm := List.mem_of_getElem? hkj
    have ha0 : Armed t p c.state k' := by
      obtain ⟨b, hb, hbt⟩ := armed_timer ha
      refine ha.imp_right (Or.imp_left fun h => ⟨h.1, ?_⟩)
      exact (act_timers p he).2.2.1 t (timer_le hr hlm hb hbt) h.2
    exact hkeep hlm ha0 (hE.armed_quiet hr hu hk he hkj hj ha0 ha)
  · unfold Effect.rest at ha
    split at ha
    · simp [Armed, Waiting, Calls] at ha
    rcases armed_flow hs hp hf ha with ⟨rfl, hl⟩ | ⟨rfl, hc⟩ | rfl | ⟨rfl, hw⟩
    · have h1 := InEpisode.set hr hE hx hk
      cases act_branch he
      cases hl
      exact h1
    · have hc0 := (act_timers p he).2.2.1 t (timer_le hr hm List.mem_cons_self rfl) hc
      exact hkeep hm (Or.inr (Or.inl ⟨Or.inl rfl, hc0⟩)) (by simp [Disturbs])
    · refine hkeep hm (Or.inr (Or.inl ⟨Or.inr rfl, timerTest_act he ?_⟩)) (by simp [Disturbs])
      intro hn
      have h1 := hs.self
      simp only [Shape] at h1
      subst h1
      simp [hn, Armed, Waiting, Calls] at ha
    · exact hkeep hm (Or.inr (Or.inr hw)) (by simp [Disturbs])
  · obtain rfl := (spawned_flow hf hk').1 ha
    refine hkeep hm (Or.inl rfl) ?_
    rintro (h | h | ⟨u, h, ho⟩ | ⟨u, h, -⟩ | ⟨h, -⟩) <;> cases h
    generalize hx2 : x.2 = o at he
    cases act_branch he
    case startSuspendTimer => exact ho hx2
    case noSuspendTimer => cases hk'

/-- What a failed swap does next. -/
theorem swapp_act {o : Outcome} {s : Planner} {e : Effect Planner Action}
    (h : act cfg (swappProcess p) o s = some e) (hf : Fails s o (swappProcess p)) :
    e.next = exitWithError p := by
  cases act_branch h
  case swapped hh => simp [Fails, hh] at hf
  case notSwapped | swapLost => rfl

theorem Episodes.deciding_step (hr : Reach (act cfg) ok (start cfg) c) (hE : Episodes p c)
    (hu : Undisturbed c x) (hx : Threads.step (act cfg) c x = some c') :
    ∀ k ∈ c'.threads, ∀ t, Deciding t p k → InEpisode none t p c' := by
  obtain ⟨a, k, e, hk, he, rfl⟩ := step_some hx
  have hm := List.mem_of_getElem? hk
  have hs := reach_shape hr _ hm
  have hf := act_flow he
  intro k' hk' t hd
  rcases mem_threads hk' with ⟨j, hj, hkj⟩ | rfl | hk'
  · have hlm := List.mem_of_getElem? hkj
    have hI := hE.deciding k' hlm t hd
    obtain ⟨h1, h2, h3, h4⟩ := locked_quiet hr hu hk hkj hj (Or.inl hd)
    refine hI.step hr hx hk ?_ (timer_le hr hlm hd.1 rfl)
    rintro (h | h | ⟨u, rfl, -⟩ | ⟨u, h, ho⟩ | ⟨h, -⟩)
    · exact h1 h
    · exact h2 h
    · have h5 := (hE.armed _ hm u (Or.inl rfl)).pointer
      rw [hI.pointer] at h5
      cases h5
    · exact ho (h4 u h)
    · exact h3 h
  · unfold Effect.rest at hd
    split at hd
    · simp [Deciding, Calls] at hd
    rcases deciding_flow hs (reach_callback hr _ hm) hf hd with ⟨rfl, hw⟩ | ⟨hd', h | ⟨rfl, hl⟩⟩
    · have hI := hE.armed _ hm t (Or.inr (Or.inr hw))
      have h1 := away_step (p := p) hr hx hk (by simp) (by simp) (by simp)
      have h2 := hI.blocked
      have h3 := hI.episode
      cases act_branch he
      exact ⟨by simp [Pcb.assign], h3, by omega⟩
    · refine (hE.deciding _ hm t hd').step hr hx hk ?_ (timer_le hr hm hd'.1 rfl)
      subst h
      simp [Disturbs]
    · refine (hE.deciding _ hm t hd').step hr hx hk ?_ (timer_le hr hm hd'.1 rfl)
      simp only [Disturbs, reduceCtorEq, false_and, exists_false, false_or, true_and]
      exact fun hfail => hl (swapp_act he hfail)
  · exact absurd hd.1 (spawned_flow (t := t) (p := p) (s := c.state) hf hk').2.1

theorem Episodes.exiting_step (hr : Reach (act cfg) ok (start cfg) c) (hE : Episodes p c)
    (hu : Undisturbed c x) (hx : Threads.step (act cfg) c x = some c') :
    ∀ k ∈ c'.threads, ∀ t, Exiting t p k →
      c'.state.armedIn t = c'.state.episode p ∧ held away p c' ≤ 1 := by
  obtain ⟨a, k, e, hk, he, hc'⟩ := step_some hx
  have hm := List.mem_of_getElem? hk
  have hs := reach_shape hr _ hm
  have hf := act_flow he
  obtain ⟨-, harm, -, hep, -⟩ := act_timers p he
  intro k' hk' t hd
  have hepisode : t ≤ c.state.lastTimer → c.state.armedIn t = c.state.episode p →
      a ≠ cancelSuspendTimer p → c'.state.armedIn t = c'.state.episode p := fun ht h1 h2 => by
    rw [hc']
    show e.state.armedIn t = e.state.episode p
    rw [harm t ht, hep h2, h1]
  rw [hc'] at hk'
  rcases mem_threads hk' with ⟨j, hj, hkj⟩ | rfl | hk'
  · have hlm := List.mem_of_getElem? hkj
    obtain ⟨h1, h2⟩ := hE.exiting k' hlm t hd
    obtain ⟨-, h3, h4, h5⟩ := locked_quiet hr hu hk hkj hj (Or.inr hd)
    have h6 := away_step hr hx hk h3 (fun h => absurd h h4) fun u h => by
      subst h
      simp [Fails, h5 u rfl]
    exact ⟨hepisode (timer_le hr hlm hd.1 rfl) h1 h3, by omega⟩
  · unfold Effect.rest at hd
    split at hd
    · simp [Exiting, Calls] at hd
    rcases exiting_flow hs (reach_callback hr _ hm) hf hd with ⟨rfl, hd'⟩ | ⟨hd', ha⟩
    · have hI := hE.deciding _ hm t hd'
      have h1 := held_step (g := away) (p := p) (d := 1) away_nonneg (by simp [away]) (by omega) hr
        (fun b l hl => by
          rw [hk] at hl
          cases hl
          exact fun _ _ => by simp [away]) hx
      have h2 := hI.blocked
      exact ⟨hepisode (timer_le hr hm hd'.1 rfl) hI.episode (by simp), by omega⟩
    · obtain ⟨h1, h2⟩ := hE.exiting _ hm t hd'
      have h3 := away_step (p := p) hr hx hk (by rintro rfl; simp at ha) (by rintro rfl; simp at ha)
        (by rintro u rfl; simp at ha)
      exact ⟨hepisode (timer_le hr hm hd'.1 rfl) h1 (by rintro rfl; simp at ha), by omega⟩
  · exact absurd hd.1 (spawned_flow (t := t) (p := p) (s := c.state) hf hk').2.1

/-! ### The way out -/

/-- Only a thread that is about to write the status holds a PCB that is leaving. -/
theorem exists_leaving {g : Place → ℤ} (hg : ∀ l, l ≠ leaving → g l = 0) (h : 1 ≤ held g p c) :
    ∃ k ∈ c.threads, assign p (.status .exit) ∈ k := by
  by_contra hn
  have h1 : value g p c.state = 0 := by
    simp [value, sumAt_eq, hg]
  have h2 : total (weight g p) c.threads ≤ 0 := total_nonpos fun k hk => by
    have h3 : ∀ a ∈ k, weight g p a ≤ 0 := fun a ha => by
      cases a
      case push q r => cases q <;> simp [weight, at', hg]
      case assign r f =>
        cases f
        case status st =>
          cases st
          case exit =>
            have hr : r ≠ p := by
              rintro rfl
              exact hn ⟨k, hk, ha⟩
            simp [weight, at', hr]
          all_goals simp [weight, at', hg]
        all_goals simp [weight]
      all_goals simp [weight, at', hg]
    exact load_nonpos h3
  unfold held at h
  omega

/-- Who starts to take a PCB out. -/
theorem leave_flow {l : List Action} {ts : List (List Action)} (h : Flow cfg a l ts)
    (hl : assign p (.status .exit) ∈ l) : a = dispatchSwitch p ∨ a = takeExecError ∨
      (∃ t, a = startBlockedTimer t p) ∨ a = unblockSwitch p ∨ a = swappProcess p ∨
      a = checkPageTable p := by
  rcases hc : cfg.algoritmoPlanificacion <;> cases h
  case fifo.loop f | srt.loop f => cases f <;> simp [body] at hl
  case fifo.callback t | srt.callback t => rcases t with ⟨t, _ | _, q⟩ <;> simp [Timer.call] at hl
  all_goals simp_all [movePcbToReady, applyReply, dispatchTail]

/-- A PCB that is being taken out without the mutex is nowhere else. -/
theorem leave_act {o : Outcome} {s : Planner} {e : Effect Planner Action}
    (h : act cfg a o s = some e) (hl : assign p (.status .exit) ∈ e.next) (ha : a ≠ swappProcess p) :
    value living p e.state + (if e.stop then 0 else load (weight living p) e.next) +
      total (weight living p) e.spawn ≤ value living p s + weight living p a + -1 := by
  rcases leave_flow (act_flow h) hl with rfl | rfl | ⟨t, rfl⟩ | rfl | rfl | rfl
  case inr.inr.inr.inr.inl => exact absurd rfl ha
  case inr.inl =>
    cases act_branch h
    case noExec => cases hl
    case takeExecError q hx =>
      -- the PCB was in `planner->exec`
      obtain rfl : p = q := by simpa using hl
      have h1 : value living p { s with exec := none } = value living p s + -1 := by
        rw [value_eq, value_eq, hx, execAt_none, execAt_some, at', if_pos rfl]
        show _ = _ + 1 + _ + _ + _ + _ + -1
        ring
      have h2 : load (weight living p) (exitWithError p) = 0 := by simp [weight, at', living]
      have h3 : weight living p takeExecError = 0 := rfl
      simp only [total_nil, h1, h2, h3]
      simp
  all_goals
    cases act_branch h <;> simp_all [value, weight, at', living]

theorem Episodes.out_step (hr : Reach (act cfg) ok (start cfg) c)
    (hr' : Reach (act cfg) ok (start cfg) c') (hE : Episodes p c)
    (hx : Threads.step (act cfg) c x = some c') (h : 1 ≤ held finished p c') :
    held active p c' ≤ 0 := by
  obtain ⟨a, k, e, hk, he, -⟩ := step_some hx
  have hm := List.mem_of_getElem? hk
  have hs := (reach_shape hr _ hm).self
  -- what is not `mtp_unblock_pcb` puts nothing back
  have hact : (a = unblockSwitch p → (c.state.pcbs p).status ≠ .blocked ∧
      (c.state.pcbs p).status ≠ .suspendedBlocked) → held active p c ≤ 0 → held active p c' ≤ 0 :=
    fun ha h0 => by
      have := held_step (g := active) (p := p) (d := 0) active_nonneg (by simp [active, living])
        (le_refl _) hr (fun b l hl => by
          rw [hk] at hl
          cases hl
          exact active_follows ha) hx
      omega
  by_cases hf : 1 ≤ held finished p c
  · refine hact ?_ (hE.out hf)
    rintro rfl
    by_contra hst
    have hmarked : held marked p c ≤ 0 := by
      by_contra hn
      exact hst (hE.status (by omega))
    obtain ⟨l, hl, hex⟩ := exists_leaving (g := fun l => finished l - marked l) (p := p) (c := c)
      (fun l hl => by
        cases l
        case leaving => exact absurd rfl hl
        case entering q | queued q => cases q <;> rfl
        all_goals rfl) (by
        have h1 := held_add marked (fun l => finished l - marked l) p c
        have h2 : (fun l => marked l + (finished l - marked l)) = finished := by
          funext l
          omega
        rw [h2] at h1
        omega)
    have h1 := locked_shape hs (Or.inr (Or.inr (Or.inr rfl)))
    rcases hE.leaves l hl hex with h2 | h2
    · obtain ⟨j, hj⟩ := List.mem_iff_getElem?.mp hl
      have hij := mutex_unique hr hj hk h2 (by omega)
      subst hij
      rw [hk] at hj
      cases hj
      obtain ⟨t, rfl⟩ := hs
      simp at hex
    · have h3 := head_le_held (p := p) living_nonneg (by simp [living]) hr hk
      simp only [weight, at', living, if_true] at h3
      omega
  · by_cases hfail : a = swappProcess p ∧ Fails c.state x.2 a
    · obtain ⟨rfl, -⟩ := hfail
      obtain ⟨t, hd⟩ := deciding_of_shape hs
      have h1 := (hE.deciding _ hm t hd).blocked
      have h2 : held active p c ≤ held away p c := held_mono hr (fun l => by
        cases l
        case entering q | queued q => cases q <;> simp [active, away, living]
        all_goals simp [active, away, living]) (by simp [active, away, living])
      exact hact (by simp) (by omega)
    · have h1 := held_step (g := own) (p := p) (d := 0) own_nonneg (by simp [own, living, finished])
        (le_refl _) hr (fun b l hl => by
          rw [hk] at hl
          cases hl
          exact own_follows fun h1 h2 => hfail ⟨h1, h2⟩) hx
      have h2 := held_add living finished p c
      have h3 := held_add living finished p c'
      have h4 := living_le_one (p := p) hr
      have h5 := active_le_loose (p := p) hr'
      have h6 := loose_le_living (p := p) hr'
      change held own p c = _ at h2
      change held own p c' = _ at h3
      omega

theorem living_step (hr : Reach (act cfg) ok (start cfg) c)
    (hx : Threads.step (act cfg) c x = some c') : held living p c' ≤ held living p c := by
  have := held_step (g := living) (p := p) (d := 0) living_nonneg (by simp [living]) (le_refl _) hr
    (fun a _ _ => living_follows p _ _ a) hx
  omega

theorem Episodes.leaves_step (hr : Reach (act cfg) ok (start cfg) c) (hE : Episodes p c)
    (hx : Threads.step (act cfg) c x = some c') :
    ∀ k ∈ c'.threads, assign p (.status .exit) ∈ k →
      1 ≤ load mutexWeight k ∨ held living p c' ≤ 0 := by
  have hliv := living_step (p := p) hr hx
  obtain ⟨a, k, e, hk, he, hc'⟩ := step_some hx
  have hm := List.mem_of_getElem? hk
  have hs := (reach_shape hr _ hm).self
  have hf := act_flow he
  intro k' hk' hex
  rw [hc'] at hk'
  rcases mem_threads hk' with ⟨j, -, hkj⟩ | rfl | hk'
  · exact (hE.leaves k' (List.mem_of_getElem? hkj) hex).imp_right hliv.trans
  · unfold Effect.rest at hex ⊢
    split at hex
    · cases hex
    rename_i hstop
    rw [if_neg hstop]
    rcases List.mem_append.mp hex with hex | hex
    · by_cases hl : a = unblockSwitch p ∨ a = swappProcess p
      · exact Or.inl (mutex_rest hf (by rintro rfl; simp at hl) (locked_shape hs (by tauto)).ge)
      · refine Or.inr ?_
        have h1 := balance_step (d := -1) hx
          (reach_grounded (p := p) living_nonneg (by simp [living]) hr) fun b l e' hl' he' => by
            rw [hk] at hl'
            cases hl'
            rw [he] at he'
            cases he'
            exact leave_act he hex fun h => hl (Or.inr h)
        have h2 := living_le_one (p := p) hr
        unfold held at h2 ⊢
        omega
    · refine (hE.leaves _ hm (List.mem_cons_of_mem _ hex)).imp (mutex_rest hf ?_) hliv.trans
      rintro rfl
      obtain ⟨t, rfl⟩ := hs
      simp at hex
  · exact absurd hex ((spawned_flow (t := 0) (p := p) (s := c.state) hf hk').2.2 _ _)

theorem assign_status (s : Pcb) (f : Assign) : (s.assign f).status = match f with
    | .status st => st
    | _ => s.status := by
  cases f <;> rfl

/-- What a thread that is about to block the PCB holds. -/
theorem blocking_le_active (hr : Reach (act cfg) ok (start cfg) c)
    (hm : assign p (.status .blocked) :: k ∈ c.threads) : 1 ≤ held active p c := by
  have h1 := load_le_held (p := p) active_nonneg (by simp [active, living]) hr hm
  have h2 := (reach_shape hr _ hm).self
  simp only [Shape] at h2
  subst h2
  simpa [weight, at', active, living, afterSwitch] using h1

theorem Episodes.status_step (hr : Reach (act cfg) ok (start cfg) c) (hE : Episodes p c)
    (hx : Threads.step (act cfg) c x = some c') (h : 1 ≤ held marked p c') :
    (c'.state.pcbs p).status ≠ .blocked ∧ (c'.state.pcbs p).status ≠ .suspendedBlocked := by
  obtain ⟨a, k, e, hk, he, rfl⟩ := step_some hx
  have hm := List.mem_of_getElem? hk
  have hs := (reach_shape hr _ hm).self
  have hpcb := act_pcb p he
  show (e.state.pcbs p).status ≠ _ ∧ (e.state.pcbs p).status ≠ _
  by_cases ha : a = assign p (.status .exit)
  · subst ha
    cases act_branch he
    simp [Pcb.assign]
  have hmarked : 1 ≤ held marked p c := by
    have := held_step (g := marked) (p := p) (d := 0) marked_nonneg (by simp [marked]) (le_refl _) hr
      (fun b l hl => by
        rw [hk] at hl
        cases hl
        exact marked_follows ha) hx
    omega
  have hst := hE.status hmarked
  rcases hpcb with h | ⟨f, rfl, h⟩ | ⟨-, h⟩ | ⟨u, -, -, h⟩ | ⟨-, h⟩ | ⟨-, -, -, h, -⟩
  · rwa [h]
  · rw [h, assign_status]
    split
    · rename_i st
      constructor
      · rintro rfl
        have h1 := blocking_le_active hr hm
        have h2 : held marked p c ≤ held finished p c := held_mono hr (fun l => by
          cases l
          case entering q | queued q => cases q <;> simp [marked, finished]
          all_goals simp [marked, finished]) (by simp [marked, finished])
        have := hE.out (by omega)
        omega
      · rintro rfl
        obtain ⟨t, rfl⟩ := hs
        have h1 := (hE.deciding _ hm t (by simp [Deciding, Calls])).blocked
        have h2 : held marked p c ≤ held away p c := held_mono hr (fun l => by
          cases l
          case entering q | queued q => cases q <;> simp [marked, away]
          all_goals simp [marked, away]) (by simp [marked, away])
        omega
    · exact hst
  · rwa [h]
  · rwa [h]
  · rwa [h]
  · rw [h]
    simp

/-- **Episodes.** Where nobody cancels a timer that has tested its flag, the
timers that can still suspend a PCB belong to its current episode. -/
theorem reach_episodes (hok : ∀ c x, ok c x → Undisturbed c x)
    (h : Reach (act cfg) ok (start cfg) c) : Episodes p c := by
  induction h with
  | start =>
    have h1 : held finished p (start cfg) = 0 := by
      rw [start_held]
      simp [finished]
    have h2 : held marked p (start cfg) = 0 := by
      rw [start_held]
      simp [marked]
    refine ⟨?_, ?_, ?_, by omega, ?_, by omega⟩ <;>
      simp [start, Armed, Deciding, Exiting, Waiting, Calls]
  | @step c c' x hr hx h ih =>
    have hu := hok c x hx
    exact ⟨ih.armed_step hr hu h, ih.deciding_step hr hu h, ih.exiting_step hr hu h,
      ih.out_step hr (.step x hr hx h) h, ih.leaves_step hr h, ih.status_step hr h⟩

end Reach

end Kernel
end Kiss
