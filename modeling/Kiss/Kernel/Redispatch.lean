/-
# What is dispatched again

The program of a PCB is the one it was created with, and its counter is 0 until the
CPU's first answer and then the one of the last answer (`act_counter`). A process
whose PCB came back after `EXIT`, or with a condition without a case, is not
dispatched any more (`finished_not_sent`).

Key definitions: `execPhases`, `Redispatches`.
Key theorems: `act_counter`, `reach_sendPcb_exec`, `redispatches`.
-/
import Kiss.Kernel.Cycle
import Kiss.Kernel.Failures

namespace Kiss
namespace Kernel

open Kernel.Action Threads

section Reach

variable {cfg : KernelConfig} {ok : Config Planner Action → ℕ × Outcome → Prop}
  {c c' : Config Planner Action} {x : ℕ × Outcome} {a : Action} {k : List Action} {o : Outcome}
  {s : Planner} {e : Effect Planner Action} {p : ℕ}

/-- What changes the program of a PCB and its counter. -/
theorem act_counter (h : act cfg a o s = some e) :
    ((e.state.pcbs p).instructions = (s.pcbs p).instructions ∧
      ((e.state.pcbs p).programCounter = (s.pcbs p).programCounter ∨
        ∃ r, a = assign p (.reply r) ∧ (e.state.pcbs p).programCounter = r.programCounter)) ∨
    ∃ prog, a = ltpNewProcess prog ∧ p = s.pcbId + 1 ∧
      (e.state.pcbs p).instructions = prog.instructions ∧ (e.state.pcbs p).programCounter = 0 := by
  cases act_branch h
  case assign q f =>
    rcases eq_or_ne p q with rfl | hq
    · cases f <;> simp [Pcb.assign]
    · simp [hq]
  case setSuspendTimer q | createBlockedTimer q | noSuspendTimer t q ho =>
    rcases eq_or_ne p q with rfl | hq
    · simp
    · simp [hq]
  case ltpNewProcess prog =>
    rcases eq_or_ne p (s.pcbId + 1) with rfl | hq
    · exact Or.inr ⟨prog, by simp⟩
    · simp [hq]
  all_goals exact Or.inl ⟨rfl, Or.inl rfl⟩

/-- The PCB that is about to be sent is `planner->exec`. -/
def execPhases : Phases where
  idle _ := True
  sending p v := v.exec = some p
  sent _ := True
  awaiting _ := True
  received _ _ := True
  queued _ := True
  replied _ _ := True
  taking _ _ := True
  erring _ := True

theorem execPhases_rules : execPhases.Rules ok := by
  constructor <;> intros <;> trivial

theorem reach_sendPcb_exec (h : Reach (act cfg) ok (start cfg) c)
    (hk : sendPcb p :: k ∈ c.threads) : c.state.exec = some p := by
  have hs : k = [recieveMessageAsync, loop .stp] := (reach_shape h _ hk).self
  exact (reach_phases execPhases_rules trivial h).2 _ hk (by simp [hs, dispatchWeight])

/-- A process that ends is nowhere else. -/
theorem leaving_held (h : Reach (act cfg) ok (start cfg) c) {i : ℕ}
    (hk : c.threads[i]? = some (dispatchSwitch p :: k)) {l : List Action}
    (hl : load (weight living p) l = 0) :
    held living p ⟨c.state, c.threads.set i (l ++ k)⟩ ≤ 0 := by
  have h1 := living_le_one (p := p) h
  have h2 := total_set (weight living p) c.threads i _ (l ++ k) hk
  have h3 : weight living p (dispatchSwitch p) = 1 := by simp [weight, at', living]
  rw [load_append, load_cons, hl, h3] at h2
  unfold held at h1 ⊢
  simp only
  omega

/-- A process that has ended is not sent. -/
theorem ended_not_sent (h0 : Reach (act cfg) ok (start cfg) c) (hw : held living p c ≤ 0)
    (h : Reach (act cfg) ok c c') : sendPcb p :: k ∉ c'.threads := by
  have h1 : Reach (act cfg) ok (start cfg) c' ∧ held living p c' ≤ 0 := by
    induction h with
    | start => exact ⟨h0, hw⟩
    | @step c₁ c₂ x _ hok hx ih =>
      have := held_step (d := 0) living_nonneg (by simp [living]) (le_refl _) ih.1
        (fun a _ _ => living_follows p _ _ a) hx
      exact ⟨.step x ih.1 hok hx, by omega⟩
  intro hk
  have h2 := reach_sendPcb_exec h1.1 hk
  have h3 := (le_value (p := p) living_nonneg c'.state).2.1
  have h4 := value_le_held (p := p) living_nonneg (by simp [living]) h1.1
  have h5 : living .exec = 1 := rfl
  rw [if_pos h2] at h3
  omega

end Reach

/-- A PCB is dispatched with the program it was created with and the counter of the last
answer, 0 before the first; and after a PCB comes back with `CPU_EXIT_PROGRAM`, or with a
condition without a case, it is not dispatched again. -/
def Redispatches (cfg : KernelConfig) : Prop :=
  (∀ a o s e p, act cfg a o s = some e →
    ((e.state.pcbs p).instructions = (s.pcbs p).instructions ∧
      ((e.state.pcbs p).programCounter = (s.pcbs p).programCounter ∨
        ∃ r, a = assign p (.reply r) ∧ (e.state.pcbs p).programCounter = r.programCounter)) ∨
    ∃ prog, a = ltpNewProcess prog ∧ p = s.pcbId + 1 ∧
      (e.state.pcbs p).instructions = prog.instructions ∧ (e.state.pcbs p).programCounter = 0) ∧
  ∀ (c c' c₁ : Config Planner Action) (x : ℕ × Outcome) p k l,
    Reach (act cfg) (fun _ _ => True) (start cfg) c → c.threads[x.1]? = some (dispatchSwitch p :: k) →
    ((c.state.pcbs p).cpuDispatchCond = .exitProgram ∨ Erroneous cfg (c.state.pcbs p).cpuDispatchCond) →
    step (act cfg) c x = some c' → Reach (act cfg) (fun _ _ => True) c' c₁ → sendPcb p :: l ∉ c₁.threads

theorem redispatches (cfg : KernelConfig) : Redispatches cfg := by
  refine ⟨fun a o s e p h => act_counter h, fun c c' c₁ x p k l hr hk hd hx h1 => ?_⟩
  obtain ⟨a, k', e, hk', he, rfl⟩ := step_some hx
  rw [hk] at hk'
  cases hk'
  have hr' := Reach.step x hr trivial hx
  have hm : ∃ l, e = { state := c.state, next := l } ∧ load (weight living p) l = 0 := by
    cases act_branch he
    case switchExit | switchError => exact ⟨_, rfl, by simp [weight, at', living]⟩
    case switchReady hc h =>
      rcases hd with hd | hd
      · rw [hd] at h
        cases h
      · exact absurd h (hd.2.2 hc)
    case switchBlocked h =>
      rcases hd with hd | hd
      · rw [hd] at h
        cases h
      · exact absurd h hd.2.1
  obtain ⟨l', rfl, hl⟩ := hm
  refine ended_not_sent hr' ?_ h1
  simpa [Effect.rest] using leaving_held hr hk hl

end Kernel
end Kiss
