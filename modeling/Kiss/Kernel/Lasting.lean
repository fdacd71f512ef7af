/-
# No process is lost

`held_step` bounds from above what the planner holds of a PCB. Here is the bound from
below: `Keeps g p s o a` lists the moves of `a` again, and where none of them lowers `g`
no step does (`held_keep`), as long as no thread ends half way: the receivers start, no
`usleep` fails and the planner does not halt. The callback of an I/O timer always runs,
since nobody cancels it (`reach_unblockTimers`): only suspension timers are cancelled, and
no timer is of both kinds.

Key definitions: `ThreadsRun`, `UnblockTimers`, `Keeps`, `Settles`.
Key theorems: `reach_unblockTimers`, `value_keep`, `held_keep`, `reach_keep`, `reach_held_pos`.
-/
import Kiss.Kernel.Wakeups
import Kiss.Kernel.Counts
import Kiss.Kernel.Timers
import Kiss.Kernel.Standing

namespace Kiss
namespace Kernel

open Kernel.Action Place Threads

/-- Timers and receivers start, and no `usleep` fails. -/
def ThreadsRun (a : Action) (o : Outcome) : Prop :=
  TimerStarts a o ∧ (a = recieveMessageAsync → o = .ok) ∧ ∀ t, a = timerSleep t → o = .ok

/-! ### The timers of I/O are not cancelled -/

/-- The I/O timer that an action starts or runs. -/
@[simp] def Action.unblockTimer : Action → Option ℕ
  | startBlockedTimer t _ => some t
  | timerSleep t | timerTest t => if t.callback = .mtpUnblockPcb then some t.id else none
  | _ => none

theorem Action.timer_of_unblockTimer {a : Action} {t : ℕ} (h : a.unblockTimer = some t) : a.timer = some t := by
  unfold Action.unblockTimer at h
  split at h
  · exact h
  · split_ifs at h
    exact h
  · split_ifs at h
    exact h
  · cases h

/-- No I/O timer is cancelled, and no PCB has one for its suspension. -/
structure UnblockTimers (c : Config Planner Action) : Prop where
  runs : ∀ k ∈ c.threads, ∀ a ∈ k, ∀ t, a.unblockTimer = some t → c.state.canceled t = false
  apart : ∀ p t, (c.state.pcbs p).timerSuspendedBlocked = some t → t ≤ c.state.lastTimer ∧
    ∀ k ∈ c.threads, ∀ a ∈ k, a.unblockTimer ≠ some t

section Timers

variable {cfg : KernelConfig} {ok : Config Planner Action → ℕ × Outcome → Prop}
  {c c' : Config Planner Action} {x : ℕ × Outcome} {a b : Action} {o : Outcome} {s : Planner}
  {e : Effect Planner Action} {k l : List Action} {t : ℕ}

/-- An I/O timer is the one the action was about, or a new one. -/
theorem act_unblockTimer (h : act cfg a o s = some e) (hb : b ∈ e.next ∨ ∃ k ∈ e.spawn, b ∈ k)
    (ht : b.unblockTimer = some t) : a.unblockTimer = some t ∨
      (∃ p, a = createBlockedTimer p) ∧ t = s.lastTimer + 1 := by
  cases act_branch h
  case loop f => cases f <;> simp [body] at hb <;> rcases hb with rfl | rfl | rfl | rfl | rfl | rfl <;> cases ht
  case timerCall u _ =>
    rcases u with ⟨u, _ | _, q⟩ <;> simp [Timer.call] at hb <;>
      rcases hb with rfl | rfl | rfl | rfl | rfl | rfl | rfl <;> cases ht
  case unblockReady | switchReady | popSuspendedReady | pageTable =>
    unfold movePcbToReady at hb
    split at hb <;> simp at hb <;> rcases hb with rfl | rfl | rfl | rfl | rfl <;> cases ht
  case takeExec =>
    unfold applyReply at hb
    split at hb <;> simp at hb <;> rcases hb with rfl | rfl | rfl | rfl <;> cases ht
  case recieved =>
    unfold incommingDispatch dispatchTail at hb
    split at hb <;> simp at hb <;> rcases hb with rfl | rfl | rfl | rfl | rfl <;> cases ht
  all_goals simp at hb
  all_goals grind [Action.unblockTimer]

/-- What an action does to the flags and to the suspension timer of a PCB. -/
theorem act_suspendTimer (p : ℕ) (h : act cfg a o s = some e)
    (ht : (e.state.pcbs p).timerSuspendedBlocked = some t) :
    (s.pcbs p).timerSuspendedBlocked = some t ∨ a = setSuspendTimer p ∧ t = s.lastTimer + 1 := by
  rcases act_pcb p h with h1 | ⟨f, rfl, h1⟩ | ⟨rfl, h1⟩ | ⟨u, rfl, -, h1⟩ | ⟨rfl, h1⟩ | ⟨prog, -, -, -, h1⟩
  · exact Or.inl (h1 ▸ ht)
  · rw [h1] at ht
    cases f <;> simp [Pcb.assign] at ht <;> exact Or.inl ht
  · rw [h1] at ht
    exact Or.inr ⟨rfl, (Option.some.inj ht).symm⟩
  · rw [h1] at ht
    cases ht
  · rw [h1] at ht
    exact Or.inl ht
  · rw [h1] at ht
    cases ht

/-- A flag is set for the suspension timer of a PCB. -/
theorem act_canceled (h : act cfg a o s = some e) (hf : s.canceled t = false) :
    e.state.canceled t = false ∨ ∃ p, (s.pcbs p).timerSuspendedBlocked = some t := by
  cases act_branch h
  case cancelSuspendTimer u q hq =>
    by_cases hu : t = u
    · exact Or.inr ⟨q, hu ▸ hq⟩
    · exact Or.inl ((Function.update_of_ne hu _ _).trans hf)
  case setSuspendTimer | createBlockedTimer =>
    refine Or.inl ?_
    by_cases hu : t = s.lastTimer + 1
    · rw [hu]
      exact Function.update_self _ _ _
    · exact (Function.update_of_ne hu _ _).trans hf
  all_goals exact Or.inl hf

/-- Where an action of a thread comes from. -/
theorem mem_step_action (hk : c.threads[x.1]? = some (a :: k))
    (hc' : c' = ⟨e.state, c.threads.set x.1 (e.rest k) ++ e.spawn⟩) (hl : l ∈ c'.threads) (hb : b ∈ l) :
    (∃ l' ∈ c.threads, b ∈ l') ∨ b ∈ e.next ∨ ∃ k ∈ e.spawn, b ∈ k := by
  subst hc'
  rcases mem_threads hl with ⟨j, -, hj⟩ | rfl | h
  · exact Or.inl ⟨l, List.mem_of_getElem? hj, hb⟩
  · unfold Effect.rest at hb
    split at hb
    · cases hb
    · rcases List.mem_append.mp hb with hb | hb
      · exact Or.inr (Or.inl hb)
      · exact Or.inl ⟨_, List.mem_of_getElem? hk, List.mem_cons_of_mem a hb⟩
  · exact Or.inr (Or.inr ⟨l, h, hb⟩)

theorem reach_unblockTimers (h : Reach (act cfg) ok (start cfg) c) : UnblockTimers c := by
  induction h with
  | start => exact ⟨by simp [start], by simp [start]⟩
  | @step c c' x hr _ hx ih =>
    obtain ⟨a, k, e, hk, he, hc'⟩ := step_some hx
    have hm := List.mem_of_getElem? hk
    have hstate : c'.state = e.state := by rw [hc']
    obtain ⟨hle, -, -, -⟩ := act_timers 0 he
    -- an I/O timer after the step is an old one, or has the number created now
    have hold : ∀ l ∈ c'.threads, ∀ b ∈ l, ∀ t, b.unblockTimer = some t →
        (∃ l' ∈ c.threads, ∃ b' ∈ l', b'.unblockTimer = some t) ∨
          (∃ p, a = createBlockedTimer p) ∧ t = c.state.lastTimer + 1 := by
      intro l hl b hb t ht
      rcases mem_step_action hk hc' hl hb with ⟨l', hl', hb'⟩ | hnew
      · exact Or.inl ⟨l', hl', b, hb', ht⟩
      · rcases act_unblockTimer he hnew ht with h1 | h1
        · exact Or.inl ⟨_, hm, a, List.mem_cons_self, h1⟩
        · exact Or.inr h1
    constructor
    · intro l hl b hb t ht
      rw [hstate]
      rcases hold l hl b hb t ht with ⟨l', hl', b', hb', ht'⟩ | ⟨⟨p, rfl⟩, rfl⟩
      · rcases act_canceled he (ih.runs l' hl' b' hb' t ht') with h1 | ⟨p, h1⟩
        · exact h1
        · exact absurd ht' ((ih.apart p t h1).2 l' hl' b' hb')
      · cases act_branch he
        exact Function.update_self _ _ _
    · intro p t ht
      rw [hstate] at ht ⊢
      rcases act_suspendTimer p he ht with h1 | ⟨rfl, rfl⟩
      · obtain ⟨h2, h3⟩ := ih.apart p t h1
        refine ⟨h2.trans hle, fun l hl b hb hbt => ?_⟩
        rcases hold l hl b hb t hbt with ⟨l', hl', b', hb', ht'⟩ | ⟨-, rfl⟩
        · exact h3 l' hl' b' hb' ht'
        · omega
      · refine ⟨?_, fun l hl b hb hbt => ?_⟩
        · cases act_branch he
          exact le_refl _
        · rcases hold l hl b hb _ hbt with ⟨l', hl', b', hb', ht'⟩ | ⟨⟨q, hq⟩, -⟩
          · have := timer_le hr hl' hb' (Action.timer_of_unblockTimer ht')
            omega
          · cases hq

end Timers

/-! ### The moves -/

/-- The moves `a` can make with PCB `p` do not lower `g`. -/
def Keeps (g : Place → ℤ) (p : ℕ) (s : Planner) (o : Outcome) : Action → Prop
  | ltpNewProcess _ => g unborn ≤ g (entering .new)
  | push .blocked r => r = p → g (entering .blocked) ≤ g arming
  | push .exit r => r = p → g (entering .exit) ≤ g (queued .exit) + g exits
  | push q r => r = p → g (entering q) ≤ g (queued q)
  | insertInOrder r => r = p → g (entering .ready) ≤ g (queued .ready)
  | setSuspendTimer r => r = p → g arming ≤ g (queued .blocked)
  | popReady => g (queued .ready) ≤ g popped
  | assign r (.status .exec) => r = p → g popped ≤ g dispatched
  | assign r (.status .blocked) => r = p → g blocking ≤ g (entering .blocked)
  | assign r (.status .exit) => r = p → g leaving ≤ g (entering .exit)
  | setExec r => s.exec = none ∧ (r = p → g dispatched ≤ g exec)
  | takeExec _ => g exec ≤ g returned
  | dispatchSwitch r => r = p → g returned ≤ g leaving ∧ g returned ≤ g (entering .ready) ∧
      g returned ≤ g blocking
  | takeExecError => g exec ≤ g leaving
  | popBlocked => g (queued .blocked) ≤ g io
  | startBlockedTimer t r => r = p → Fails s o (startBlockedTimer t r) → g io ≤ g leaving
  | timerTest t => t.callback = .mtpUnblockPcb → s.canceled t.id = false
  | cancelSuspendTimer r => r = p → g io ≤ g unblocking
  | unblockSwitch r => r = p →
      ((s.pcbs r).status = .blocked → g unblocking ≤ g (entering .ready)) ∧
      ((s.pcbs r).status = .suspendedBlocked → g unblocking ≤ g (entering .suspendedReady)) ∧
      g unblocking ≤ g leaving
  | popSuspendedReady => g (queued .suspendedReady) ≤ g (entering .ready)
  | popNew => g (queued .new) ≤ g admission
  | checkPageTable r => r = p → g admission ≤ g leaving ∧ g admission ≤ g (entering .ready)
  | popExit => g (queued .exit) ≤ g ending
  | consoleTerminate r => r = p → g ending ≤ g destroying + g told
  | pcbDestroy r => r = p → g destroying ≤ g destroyed
  | _ => True

section Keep

variable {g : Place → ℤ} {p : ℕ} {cfg : KernelConfig} {a : Action} {o : Outcome} {s : Planner}
  {e : Effect Planner Action}

/-- An action moves one PCB along the life cycle, and drops none. -/
theorem value_keep (h0 : ∀ l, 0 ≤ g l) (hf : Keeps g p s o a) (h : act cfg a o s = some e) (he : e.stop = false)
    (hn : a = newIfNew → s.queues .new ≠ []) (hx : a = exitIfAny → s.queues .exit ≠ []) :
    value g p s + weight g p a ≤
      value g p e.state + load (weight g p) e.next + total (weight g p) e.spawn := by
  cases act_branch h
  case push q r =>
    cases q <;> simp only [Keeps] at hf <;> simp [value_eq, weight] <;>
      simp only [at'] <;> split_ifs <;> omega
  case assign r f =>
    have hw : weight g p (assign r f) ≤ 0 := by
      rcases f with st | _ | _ | _ | _ | _ | _ | _ | _ | _
      case status =>
        cases st <;> simp only [Keeps] at hf <;> simp only [weight, at'] <;>
          (try split_ifs) <;> omega
      all_goals simp [weight]
    have hv : value g p (s.setPcb r ((s.pcbs r).assign f)) = value g p s := rfl
    simp only [load_nil, total_nil, hv]
    omega
  case setExec r =>
    simp only [Keeps] at hf
    simp only [value_eq, hf.1, execAt_none, execAt_some, weight, load_nil, total_nil, at']
    split_ifs with hr
    · have := hf.2 hr
      omega
    · omega
  case noBlockedTimer t r ho =>
    have hl : at' g p io r ≤ at' g p leaving r := by
      unfold at'
      split_ifs with hr
      · exact hf hr ho
      · exact le_refl _
    simpa [weight, add_assoc, value] using hl
  case notSwapped r _ | swapLost r _ =>
    have hl : 0 ≤ at' g p leaving r := by
      unfold at'
      split_ifs
      · exact h0 _
      · exact le_refl _
    simpa [weight, value] using hl
  case unblockReady r hs | unblockSuspended r hs | unblockError r hs =>
    have hl : ((s.pcbs r).status = .blocked → at' g p unblocking r ≤ at' g p (entering .ready) r) ∧
        ((s.pcbs r).status = .suspendedBlocked →
          at' g p unblocking r ≤ at' g p (entering .suspendedReady) r) ∧
        at' g p unblocking r ≤ at' g p leaving r := by
      unfold at'
      split_ifs with hr
      · exact hf hr
      · simp
    first
      | simpa [weight, add_assoc] using hl.1 hs
      | simpa [weight, add_assoc] using hl.2.1 hs
      | simpa [weight, add_assoc] using hl.2.2
  case timerCanceled t hc =>
    have hu : t.callback ≠ .mtpUnblockPcb := fun hu => by
      rw [hf hu] at hc
      cases hc
    simp [weight, hu]
  case noneNew hq => exact absurd hq (hn rfl)
  case noneExit hq => exact absurd hq (hx rfl)
  case popReadyNull | popBlockedNull | popSuspendedReadyNull | popNewNull | popExitNull => cases he
  case takeExecNull | noExec | recieveHalt | timerSleepFails => cases he
  all_goals
    simp only [Keeps] at hf
    simp [value_eq, weight, *]
  all_goals first
    | omega
    | (simp only [at', unbornAt]; split_ifs <;> omega)

end Keep

section Reach

variable {cfg : KernelConfig} {ok : Config Planner Action → ℕ × Outcome → Prop}
  {c c' : Config Planner Action} {x : ℕ × Outcome} {a : Action} {o : Outcome} {s : Planner}
  {e : Effect Planner Action} {k l : List Action} {g : Place → ℤ} {p : ℕ}

/-- Where threads run to their end, none ends half way until the planner halts. -/
theorem act_goesOn (hr : Reach (act cfg) ok (start cfg) c) (ho : ThreadsRun a x.2)
    (hk : c.threads[x.1]? = some (a :: k)) (he : act cfg a x.2 c.state = some e) (hok : ok c x)
    (hh : e.state.halt = false) : e.stop = false := by
  by_contra hst
  have hx : Threads.step (act cfg) c x = some ⟨e.state, c.threads.set x.1 (e.rest k) ++ e.spawn⟩ := by
    unfold Threads.step
    rw [hk]
    dsimp only
    rw [he]
    rfl
  have hc := reach_notCrashed (hr.step x hok hx)
  obtain ⟨⟨t, rfl, h1⟩, -⟩ := act_stop he (by simpa using hst) hh hc
  exact h1 (ho.2.2 t rfl)

/-- An action that keeps a measure and what its thread weighs, where threads run. -/
theorem keep_of_act {m : Planner → ℤ} {w : Action → ℤ} (hr : Reach (act cfg) ok (start cfg) c)
    (hto : Allows ThreadsRun c x) (hok : ok c x) (hx : Threads.step (act cfg) c x = some c')
    (hh : c'.state.halt = false) (ha : ∀ a k e, c.threads[x.1]? = some (a :: k) →
      act cfg a x.2 c.state = some e → e.stop = false →
      m c.state + w a ≤ m e.state + load w e.next + total w e.spawn) :
    m c.state + total w c.threads ≤ m c'.state + total w c'.threads := by
  refine keep_step hx fun a k e hk he => ?_
  have hstate : c'.state = e.state := by
    obtain ⟨b, k', e', hk', he', rfl⟩ := step_some hx
    rw [hk] at hk'
    cases hk'
    rw [he] at he'
    cases he'
    rfl
  have hst := act_goesOn hr (hto a k hk) hk he hok (hstate ▸ hh)
  have h1 := ha a k e hk he hst
  rw [Effect.rest, hst, if_neg Bool.false_ne_true, load_append]
  omega

/-- What every action keeps does not fall, in the runs whose threads go on to their end. -/
theorem reach_keep {m : Planner → ℤ} {w : Action → ℤ}
    (ha : ∀ {c : Config Planner Action} {a : Action} {k : List Action} {o : Outcome}
      {e : Effect Planner Action}, Reach (act cfg) (Allows ThreadsRun) (start cfg) c → a :: k ∈ c.threads →
      act cfg a o c.state = some e → ThreadsRun a o → e.stop = false →
      m c.state + w a ≤ m e.state + load w e.next + total w e.spawn)
    (h : Reach (act cfg) (Allows ThreadsRun) (start cfg) c) (hh : c.state.halt = false) :
    m (start cfg).state + total w (start cfg).threads ≤ m c.state + total w c.threads := by
  induction h with
  | start => exact le_refl _
  | @step c c' x hr ho hx ih =>
    have h1 : c.state.halt = false := by
      obtain ⟨a, k, e, -, he, rfl⟩ := step_some hx
      exact act_halt he hh
    refine (ih h1).trans (keep_of_act hr ho ho hx hh fun a k e hk he hst => ?_)
    exact ha hr (List.mem_of_getElem? hk) he (ho a k hk) hst

/-- The controller that dispatches finds no process in `planner->exec`. -/
theorem exec_none_of_setExec (hr : Reach (act cfg) ok (start cfg) c) {r : ℕ}
    (hm : setExec r :: k ∈ c.threads) : c.state.exec = none := by
  have hs := (reach_shape hr _ hm).self
  have h1 := (reach_out hr).2 _ hm (cycle_permit hs (Or.inr (Or.inl ⟨r, rfl⟩))).ge
  simp only [Shape] at hs
  subst hs
  exact h1.2 (by simp)

theorem canceled_of_timerTest (hr : Reach (act cfg) ok (start cfg) c) {t : Timer}
    (hm : timerTest t :: k ∈ c.threads) (ht : t.callback = .mtpUnblockPcb) :
    c.state.canceled t.id = false :=
  (reach_unblockTimers hr).runs _ hm _ List.mem_cons_self _ (by simp [ht])

/-- What the moves need of the state. -/
def Settles (s : Planner) : Action → Prop
  | setExec _ => s.exec = none
  | timerTest t => t.callback = .mtpUnblockPcb → s.canceled t.id = false
  | _ => True

theorem settles (hr : Reach (act cfg) ok (start cfg) c) (hm : a :: k ∈ c.threads) : Settles c.state a := by
  cases a
  case setExec r => exact exec_none_of_setExec hr hm
  case timerTest t => exact canceled_of_timerTest hr hm
  all_goals trivial

/-- Where the moves of its action do not lower `g`, neither does a step lower what is
held of `p`. -/
theorem held_act (h0 : ∀ l, 0 ≤ g l) (hr : Reach (act cfg) ok (start cfg) c) (hm : a :: k ∈ c.threads)
    (hf : Keeps g p c.state o a) (he : act cfg a o c.state = some e) (hst : e.stop = false) :
    value g p c.state + weight g p a ≤
      value g p e.state + load (weight g p) e.next + total (weight g p) e.spawn := by
  refine value_keep h0 hf he hst (fun ha => ?_) fun ha => ?_
  · subst ha
    exact (reach_announced hr).new _ hm rfl
  · subst ha
    exact (reach_announced hr).exit _ hm rfl

/-- **No process is lost.** No step lowers what is held of `p`. -/
theorem held_keep (h0 : ∀ l, 0 ≤ g l) (hr : Reach (act cfg) ok (start cfg) c)
    (hto : Allows ThreadsRun c x) (hok : ok c x)
    (hf : ∀ a k, c.threads[x.1]? = some (a :: k) → Keeps g p c.state x.2 a)
    (hx : Threads.step (act cfg) c x = some c') (hh : c'.state.halt = false) :
    held g p c ≤ held g p c' :=
  keep_of_act hr hto hok hx hh fun a k _ hk he hst =>
    held_act h0 hr (List.mem_of_getElem? hk) (hf a k hk) he hst

/-- A count that starts at 1 and that no move lowers. -/
theorem reach_held_pos (h0 : ∀ l, 0 ≤ g l) (h1 : g unborn = 1)
    (hk : ∀ (s : Planner) o a, Settles s a → Keeps g p s o a) (hp : 1 ≤ p)
    (h : Reach (act cfg) (Allows ThreadsRun) (start cfg) c) (hh : c.state.halt = false) :
    1 ≤ held g p c := by
  have h2 := reach_keep (m := value g p) (w := weight g p)
    (fun hr hm he _ hst => held_act h0 hr hm (hk _ _ _ (settles hr hm)) he hst) h hh
  have h3 : held g p (start cfg) = if 0 < p then g unborn else 0 := start_held
  rw [if_pos (by omega), h1] at h3
  unfold held at h3 ⊢
  omega

end Reach

end Kernel
end Kiss
