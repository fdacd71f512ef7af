/-
# Timer threads

A timer runs in at most one thread (`timer_unique`), and a thread that runs the
callback of a suspension timer is at one of finitely many points of
`mtp_suspend_pcb` (`reach_callback`). The second half says what an action can
change of what the timers and `mtp_unblock_pcb` share: the PCB, the flag
`canceled`, and the history of the episodes.

Key definitions: `timerWeight`, `suspendPoints`, `Calls`.
Key theorems: `timer_unique`, `reach_callback`, `act_pcb`, `act_timers`.
-/
import Kiss.Kernel.Permits

namespace Kiss
namespace Kernel

open Kernel.Action Threads

/-! ### One thread per timer -/

/-- The timer an action is about. -/
def Action.timer : Action → Option ℕ
  | timerSleep t | timerTest t | timerDestroy t => some t.id
  | startSuspendTimer t _ | startBlockedTimer t _ => some t
  | _ => none

/-- The thread of timer `t`, or the one that is starting it, weighs 1. -/
def timerWeight (t : ℕ) (a : Action) : ℤ := if a.timer = some t then 1 else 0

/-- The timer was not created yet. -/
def uncreated (t n : ℕ) : ℤ := if n < t then 1 else 0

theorem timer_act {cfg : KernelConfig} {a : Action} {o : Outcome} {s : Planner}
    {e : Effect Planner Action} {t : ℕ} (h : act cfg a o s = some e) :
    uncreated t e.state.lastTimer +
      (if e.stop then 0 else load (timerWeight t) e.next) + total (timerWeight t) e.spawn ≤
    uncreated t s.lastTimer + timerWeight t a := by
  cases act_branch h
  case loop f => cases f <;> simp [body, timerWeight, Action.timer]
  case timerCall u _ =>
    rcases u with ⟨u, _ | _, q⟩ <;> simp [Timer.call, timerWeight, Action.timer]
  case setSuspendTimer | createBlockedTimer =>
    simp [timerWeight, Action.timer, uncreated]
    split_ifs <;> omega
  all_goals simp [timerWeight, Action.timer, load_ready, load_tail, load_reply]
  all_goals (split_ifs <;> omega)

theorem timerWeight_nonneg (t : ℕ) (a : Action) : 0 ≤ timerWeight t a := by
  unfold timerWeight
  split_ifs <;> omega

/-! ### The points of the callback -/

/-- The thread runs the callback of suspension timer `t` on `p`. -/
def Calls (t p : ℕ) (k : List Action) : Prop := timerDestroy ⟨t, .mtpSuspendPcb, p⟩ ∈ k

/-- What is left of `mtp_suspend_pcb` at each of its points. -/
def suspendPoints (p : ℕ) : List (List Action) :=
  [mtpSuspendPcb p, [assign p .timerSuspendedBlocked, suspendIfBlocked p, mutexUnlock],
    [suspendIfBlocked p, mutexUnlock], [swappProcess p, mutexUnlock],
    movePcbToSuspendedBlocked p ++ [mutexUnlock],
    exitWithError p ++ [mutexUnlock], movePcbToExit p ++ [mutexUnlock],
    [semPost .ltpSemMultiprogrammingLevel, assign p (.status .exit), push .exit p,
      semPost .ltpSemExit, mutexUnlock],
    [assign p (.status .exit), push .exit p, semPost .ltpSemExit, mutexUnlock],
    [push .exit p, semPost .ltpSemExit, mutexUnlock], [semPost .ltpSemExit, mutexUnlock],
    [semPost .ltpSemMultiprogrammingLevel, mutexUnlock], [mutexUnlock], []]

/-- A thread that runs the callback is at one of its points. -/
def AtPoint (k : List Action) : Prop :=
  ∀ t p, Calls t p k → ∃ l ∈ suspendPoints p, k = l ++ [timerDestroy ⟨t, .mtpSuspendPcb, p⟩]

/-- A thread runs the callback of `u` from the test of its flag on. -/
theorem destroy_flow {cfg : KernelConfig} {a : Action} {k l : List Action} {ts : List (List Action)}
    {u : Timer} (h : Flow cfg a l ts) (hc : timerDestroy u ∈ l ++ k) :
    timerDestroy u ∈ k ∨ a = timerTest u := by
  rcases List.mem_append.mp hc with h1 | h1
  · clear hc
    refine Or.inr ?_
    rcases ha : cfg.algoritmoPlanificacion <;> cases h
    case fifo.loop f | srt.loop f => cases f <;> simp [body] at h1
    case fifo.callback v | srt.callback v =>
      rcases v with ⟨v, _ | _, q⟩ <;> simp [Timer.call] at h1
      all_goals simp [h1]
    all_goals simp_all [movePcbToReady, applyReply, dispatchTail]
  · exact Or.inl h1

theorem point_flow {cfg : KernelConfig} {a : Action} {k l : List Action} {ts : List (List Action)}
    (hs : Suffixes (Shape cfg) (a :: k)) (hk : AtPoint (a :: k)) (h : Flow cfg a l ts) :
    AtPoint (l ++ k) ∧ ∀ t ∈ ts, AtPoint t := by
  constructor
  · intro t p hc
    rcases destroy_flow h hc with hc' | rfl
    · obtain ⟨pre, hpre, heq⟩ := hk t p (List.mem_cons_of_mem _ hc')
      simp only [suspendPoints, List.mem_cons, List.not_mem_nil, or_false] at hpre
      rcases hpre with rfl | rfl | rfl | rfl | rfl | rfl | rfl | rfl | rfl | rfl | rfl | rfl | rfl | rfl <;>
        cases heq
      all_goals first
        | (simp at hc'; done)
        | (cases h <;> simp [suspendPoints])
    · have h1 := hs.self
      simp only [Shape] at h1
      subst h1
      cases h
      case done => simp [Calls] at hc
      case canceled => exact ⟨[], by simp [suspendPoints], rfl⟩
      case callback => exact ⟨mtpSuspendPcb p, by simp [suspendPoints], rfl⟩
  · cases h <;> simp [AtPoint, Calls]

section Reach

variable {cfg : KernelConfig} {ok : Config Planner Action → ℕ × Outcome → Prop}
  {c₀ c : Config Planner Action}

theorem reach_callback [Starts cfg ok c₀] (h : Reach (act cfg) ok c₀ c) : ∀ k ∈ c.threads, AtPoint k := by
  have h0 : Suffixes (Shape cfg) [] ∧ AtPoint [] := ⟨trivial, by simp [AtPoint, Calls]⟩
  have hf : ∀ a k l ts, Suffixes (Shape cfg) (a :: k) ∧ AtPoint (a :: k) → Flow cfg a l ts →
      (Suffixes (Shape cfg) (l ++ k) ∧ AtPoint (l ++ k)) ∧ ∀ t ∈ ts, Suffixes (Shape cfg) t ∧ AtPoint t := by
    intro a k l ts hk hf
    obtain ⟨h1, h2⟩ := shape_flow hk.1 hf
    obtain ⟨h3, h4⟩ := point_flow hk.1 hk.2 hf
    exact ⟨⟨h1, h3⟩, fun t ht => ⟨h2 t ht, h4 t ht⟩⟩
  have h1 : ∀ k ∈ c.threads, Suffixes (Shape cfg) k ∧ AtPoint k := by
    refine Starts.inv (I := fun c => ∀ k ∈ c.threads, Suffixes (Shape cfg) k ∧ AtPoint k) h ?_ ?_ ?_
    · simp [start, Suffixes, Shape, AtPoint, Calls]
    · exact fun _ _ _ _ _ _ hc _ hx => flow_threads hx hc h0 hf
    · exact fun _ _ _ _ _ _ _ hc hx => reuse_threads hx hc h0 hf
  exact fun k hk => (h1 k hk).2

theorem timer_count (h : Reach (act cfg) ok (start cfg) c) (t : ℕ) :
    (if c.state.lastTimer < t then 1 else 0) + total (timerWeight t) c.threads ≤ 1 := by
  have h1 := (reach_balance (m := fun s => uncreated t s.lastTimer)
    (w := timerWeight t) (fun _ _ _ _ => timer_act)
    (by simp [Planner.recreate, timerWeight, Action.timer])
    (fun a l ts _ => ⟨(grounded_of_nonneg (timerWeight_nonneg t) l).imp fun _ => Or.inl,
      fun k _ => grounded_of_nonneg (timerWeight_nonneg t) k⟩)
    (fun k _ => grounded_of_nonneg (timerWeight_nonneg t) k) h).1
  have h2 : total (timerWeight t) (start cfg).threads = 0 := rfl
  rw [h2] at h1
  simp only [uncreated] at h1
  split_ifs at h1 ⊢ <;> omega

theorem one_le_timer {t : ℕ} {k : List Action} {a : Action} (ha : a ∈ k) (hat : a.timer = some t) :
    1 ≤ load (timerWeight t) k := by
  have h : timerWeight t a = 1 := by simp [timerWeight, hat]
  rw [← h]
  exact List.single_le_sum (by simp [timerWeight_nonneg]) _ (List.mem_map_of_mem ha)

/-- Two different threads are not about the same timer. -/
theorem timer_unique (h : Reach (act cfg) ok (start cfg) c) {t i j : ℕ} {k l : List Action}
    {a b : Action} (hi : c.threads[i]? = some k) (hj : c.threads[j]? = some l) (ha : a ∈ k) (hb : b ∈ l)
    (hat : a.timer = some t) (hbt : b.timer = some t) : i = j := by
  refine permit_unique ?_ (fun k _ => grounded_of_nonneg (timerWeight_nonneg t) k) hi hj
    (one_le_timer ha hat) (one_le_timer hb hbt)
  have := timer_count h t
  split_ifs at this <;> omega

/-- A timer that a thread is about was created. -/
theorem timer_le (h : Reach (act cfg) ok (start cfg) c) {t : ℕ} {k : List Action} {a : Action}
    (hk : k ∈ c.threads) (ha : a ∈ k) (hat : a.timer = some t) : t ≤ c.state.lastTimer := by
  have h1 := timer_count h t
  have h2 := one_le_timer ha hat
  have h3 := le_total (fun l _ => (grounded_of_nonneg (timerWeight_nonneg t) l).nonneg) hk
  split_ifs at h1 <;> omega

end Reach

/-! ### What an action changes -/

section Act

variable {cfg : KernelConfig} {a : Action} {o : Outcome} {s : Planner} {e : Effect Planner Action}

/-- A PCB changes by an assignment, by a new timer, or when it is created. -/
theorem act_pcb (p : ℕ) (h : act cfg a o s = some e) : e.state.pcbs p = s.pcbs p ∨
    (∃ f, a = assign p f ∧ e.state.pcbs p = (s.pcbs p).assign f) ∨
    (a = setSuspendTimer p ∧
      e.state.pcbs p = { s.pcbs p with timerSuspendedBlocked := some (s.lastTimer + 1) }) ∨
    (∃ t, a = startSuspendTimer t p ∧ o ≠ .ok ∧
      e.state.pcbs p = { s.pcbs p with timerSuspendedBlocked := none }) ∨
    (a = createBlockedTimer p ∧
      e.state.pcbs p = { s.pcbs p with timerBlocked := some (s.lastTimer + 1) }) ∨
    ∃ prog, a = ltpNewProcess prog ∧ p = s.pcbId + 1 ∧ (e.state.pcbs p).status = .new ∧
      (e.state.pcbs p).timerSuspendedBlocked = none := by
  cases act_branch h
  case assign q f | setSuspendTimer q | createBlockedTimer q =>
    rcases eq_or_ne p q with rfl | hq
    · simp
    · simp [hq]
  case noSuspendTimer t q ho =>
    rcases eq_or_ne p q with rfl | hq
    · exact Or.inr (Or.inr (Or.inr (Or.inl ⟨t, rfl, ho, by simp⟩)))
    · simp [hq]
  case ltpNewProcess prog =>
    rcases eq_or_ne p (s.pcbId + 1) with rfl | hq
    · simp
    · simp [hq]
  all_goals simp

/-- What the flags and the history of the timers become. -/
theorem act_timers (p : ℕ) (h : act cfg a o s = some e) : s.lastTimer ≤ e.state.lastTimer ∧
    (∀ t ≤ s.lastTimer, e.state.armedIn t = s.armedIn t) ∧
    (∀ t ≤ s.lastTimer, e.state.canceled t = false → s.canceled t = false) ∧
    (a ≠ cancelSuspendTimer p → e.state.episode p = s.episode p) ∧
    (a = cancelSuspendTimer p →
      ∀ t, (s.pcbs p).timerSuspendedBlocked = some t → e.state.canceled t = true) := by
  cases act_branch h
  case cancelSuspendTimer u q hq =>
    refine ⟨le_refl _, fun t _ => rfl, fun t _ ht => ?_, fun hne => ?_, ?_⟩
    · simp only [Function.update_apply] at ht
      split_ifs at ht
      exact ht
    · refine Function.update_of_ne ?_ _ _
      rintro rfl
      exact hne rfl
    · rintro ha t ht
      cases ha
      rw [hq] at ht
      cases ht
      simp
  case noSuspendTimerSet q hq =>
    refine ⟨le_refl _, fun t _ => rfl, fun t _ ht => ht, fun hne => ?_, ?_⟩
    · refine Function.update_of_ne ?_ _ _
      rintro rfl
      exact hne rfl
    · rintro ha t ht
      cases ha
      rw [hq] at ht
      cases ht
  case setSuspendTimer q | createBlockedTimer q =>
    have hne : ∀ t ≤ s.lastTimer, t ≠ s.lastTimer + 1 := fun t ht => by omega
    refine ⟨by simp, fun t ht => ?_, fun t ht => ?_, fun _ => rfl, fun h => by cases h⟩
    · simp [hne t ht]
    · simp [hne t ht]
  all_goals simp

end Act

end Kernel
end Kiss
