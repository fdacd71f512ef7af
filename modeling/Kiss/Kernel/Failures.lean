/-
# How a process ends with error

A PCB is dispatched with no condition (`reach_unconditioned`): the receiver of the
last answer writes `CPU_NULL_CONDITION` before it posts the permit of the dispatch.
A PCB that comes back with a condition its algorithm has no case for goes the way
of the errors (`dispatchSwitch_erroneous`), and from the assignment of its error on
its console is told nothing but the failure (`erroneous_finishes`).

Key definitions: `Erroneous`, `Receiver`, `Reports`, `FinishesWithError`,
`SendsUnconditioned`, `FinishesErrors`.
Key theorems: `reach_unconditioned`, `dispatchSwitch_erroneous`, `receiver_run`, `erroneous_finishes`.
-/
import Kiss.Kernel.Counts

namespace Kiss
namespace Kernel

open Kernel.Action Threads

/-- The condition has no case in `stp_incomming_dispatch_fifo` or
`stp_incomming_dispatch_str`. -/
def Erroneous (cfg : KernelConfig) (d : DispatchCond) : Prop :=
  d ≠ .exitProgram ∧ d ≠ .ioSyscall ∧ (cfg.algoritmoPlanificacion = .srt → d ≠ .interruptedByKernel)

theorem erroneous_null (cfg : KernelConfig) : Erroneous cfg .nullCondition :=
  ⟨by simp, by simp, by simp⟩

/-- A PCB with such a condition is finished with error. -/
theorem dispatchSwitch_erroneous {cfg : KernelConfig} {s : Planner} {p : ℕ} {o : Outcome}
    (hs : s.crashed = false) (h : Erroneous cfg (s.pcbs p).cpuDispatchCond) :
    act cfg (dispatchSwitch p) o s = andThen s (exitWithError p) := by
  obtain ⟨h1, h2, h3⟩ := h
  simp only [act, hs, Bool.false_eq_true, ite_false]
  split
  · exact absurd ‹_› h1
  · exact absurd ‹_› (h3 ‹_›)
  · exact absurd ‹_› h2
  · rfl

section Reach

variable {cfg : KernelConfig} {ok : Config Planner Action → ℕ × Outcome → Prop}
  {c c' : Config Planner Action} {x : ℕ × Outcome} {a : Action} {k : List Action} {o : Outcome}
  {s : Planner} {e : Effect Planner Action} {p : ℕ}

/-! ### No condition -/

/-- Only the answer of the CPU gives a PCB a condition. -/
theorem act_cond (h : act cfg a o s = some e) (ha : ∀ r, a ≠ assign p (.reply r)) :
    (e.state.pcbs p).cpuDispatchCond = (s.pcbs p).cpuDispatchCond ∨
      (e.state.pcbs p).cpuDispatchCond = .nullCondition := by
  cases act_branch h
  case assign q f =>
    rcases eq_or_ne p q with rfl | hq
    · cases f
      case reply r => exact absurd rfl (ha r)
      all_goals simp [Pcb.assign]
    · simp [hq]
  case setSuspendTimer q | createBlockedTimer q | noSuspendTimer t q ho =>
    rcases eq_or_ne p q with rfl | hq
    · simp
    · simp [hq]
  case ltpNewProcess prog =>
    rcases eq_or_ne p (s.pcbId + 1) with rfl | hq
    · simp
    · simp [hq]
  all_goals exact Or.inl rfl

/-- `CPU_NULL_CONDITION` is written after the answer, and then the dispatch ends; a
thread that may end before has not received the answer. -/
def Unconditions (cfg : KernelConfig) (p : ℕ) (k : List Action) : Prop :=
  (∀ k', k = assign p .nullCondition :: k' → k' = dispatchTail cfg) ∧
  (∀ r k', k = assign p (.reply r) :: k' → assign p .nullCondition ∈ k') ∧
  ∀ k', k = haltBreak :: k' → assign p .nullCondition ∉ k'

/-- None of the actions that `Unconditions` is about. -/
def NoAnswer (p : ℕ) (l : List Action) : Prop :=
  ∀ b ∈ l, b ≠ haltBreak ∧ b ≠ assign p .nullCondition ∧ ∀ r, b ≠ assign p (.reply r)

theorem noAnswer_movePcbToReady {q : ℕ} : NoAnswer p (movePcbToReady cfg q) := by
  unfold movePcbToReady
  split <;> simp [NoAnswer]

theorem NoAnswer.unconditions {l : List Action} (hl : NoAnswer p l) (hk : Unconditions cfg p k) :
    Suffixes (fun l => Unconditions cfg p (l ++ k)) l := by
  induction l with
  | nil => exact hk
  | cons b l ih =>
    obtain ⟨h1, h2, h3⟩ := hl b List.mem_cons_self
    refine ⟨⟨fun k' he => ?_, fun r k' he => ?_, fun k' he => ?_⟩, ih fun d hd => hl d (List.mem_cons_of_mem _ hd)⟩
    · exact absurd (List.cons.inj he).1 h2
    · exact absurd (List.cons.inj he).1 (h3 r)
    · exact absurd (List.cons.inj he).1 h1

theorem unconditions_flow {l : List Action} {ts : List (List Action)}
    (hs : Shape cfg (a :: k)) (hk : Suffixes (Unconditions cfg p) (a :: k)) (h : Flow cfg a l ts) :
    Suffixes (Unconditions cfg p) (l ++ k) ∧ ∀ t ∈ ts, Suffixes (Unconditions cfg p) t := by
  have h1 : Suffixes (fun l => Unconditions cfg p (l ++ k)) l → Suffixes (Unconditions cfg p) (l ++ k) :=
    fun hl => hl.append hk.tail
  have h2 : NoAnswer p l → Suffixes (Unconditions cfg p) (l ++ k) :=
    fun hl => h1 (hl.unconditions hk.tail.self)
  cases h
  case takeExec r q =>
    simp only [Shape] at hs
    subst hs
    refine ⟨h1 ?_, by simp⟩
    rcases hc : cfg.algoritmoPlanificacion <;>
      simp +contextual [Suffixes, Unconditions, applyReply, hc, dispatchTail]
  case loop f =>
    simp only [Shape] at hs
    subst hs
    refine ⟨h1 ?_, by simp⟩
    cases f <;> simp [Suffixes, body, Unconditions]
  case recieved r =>
    simp only [Shape] at hs
    subst hs
    refine ⟨h1 ?_, by simp⟩
    rcases hc : cfg.algoritmoPlanificacion <;> simp [Suffixes, Unconditions, dispatchTail, hc]
  case callback t =>
    refine ⟨h2 ?_, by simp⟩
    rcases t with ⟨t, _ | _, q⟩ <;> simp [NoAnswer, Timer.call]
  case switchReady | unblockReady | popSuspendedReady | pageTable => exact ⟨h2 noAnswer_movePcbToReady, by simp⟩
  all_goals exact ⟨h2 (by simp [NoAnswer]), by simp [Suffixes, Unconditions]⟩

theorem reach_unconditions (h : Reach (act cfg) ok (start cfg) c) :
    ∀ k ∈ c.threads, Suffixes (Unconditions cfg p) k := by
  have h1 : ∀ k ∈ c.threads, Suffixes (Shape cfg) k ∧ Suffixes (Unconditions cfg p) k := by
    refine h.inv (I := fun c => ∀ k ∈ c.threads,
      Suffixes (Shape cfg) k ∧ Suffixes (Unconditions cfg p) k) ?_ ?_
    · simp [start, Suffixes, Shape, Unconditions]
    · intro c c' x _ ih _ hx
      refine flow_threads hx ih ⟨trivial, by simp [Suffixes, Unconditions]⟩ fun a k l ts hk hf => ?_
      obtain ⟨h1, h2⟩ := shape_flow hk.1 hf
      obtain ⟨h3, h4⟩ := unconditions_flow hk.1.self hk.2 hf
      exact ⟨⟨h1, h3⟩, fun t ht => ⟨h2 t ht, h4 t ht⟩⟩
  exact fun k hk => (h1 k hk).2

/-- No thread ends between the two. -/
theorem stop_conditioned (hs : Shape cfg (a :: k)) (hk : Unconditions cfg p (a :: k))
    (h : act cfg a o s = some e) (he : e.stop = true) : assign p .nullCondition ∉ k := by
  cases act_branch h
  case haltBreak => exact hk.2.2 k rfl
  case takeExecNull r hr =>
    simp only [Shape] at hs
    subst hs
    unfold dispatchTail
    split <;> simp
  all_goals first
    | (cases he; done)
    | (simp only [Shape] at hs; simp [hs])

/-- The thread that has still to write it has the permit of the dispatch. -/
theorem unconditions_load : ∀ {k : List Action}, Suffixes (Shape cfg) k →
    Suffixes (Unconditions cfg p) k → assign p .nullCondition ∈ k → 1 ≤ load dispatchWeight k
  | [], _, _, h => by simp at h
  | a :: k, hs, hk, h => by
    rcases List.mem_cons.mp h with rfl | h
    · rw [hk.self.1 k rfl, load_cons, load_tail]
      split <;> simp [dispatchWeight]
    · have h1 := unconditions_load hs.tail hk.tail h
      have h2 : 0 ≤ dispatchWeight a := by
        by_cases ha : a = semWait .stpSemDispatch
        · subst ha
          have h3 : k = [haltBreak, popReady, loop .stp] := hs.self
          simp [h3] at h
        · unfold dispatchWeight
          split <;> first
            | exact absurd rfl ha
            | omega
      rw [load_cons]
      omega

/-- A condition is there until the thread that wrote it takes it away. -/
theorem reach_conditioned (h : Reach (act cfg) ok (start cfg) c) :
    (c.state.pcbs p).cpuDispatchCond = .nullCondition ∨ ∃ k ∈ c.threads, assign p .nullCondition ∈ k := by
  induction h with
  | start => exact Or.inl rfl
  | @step c c' x hr _ hx ih =>
    obtain ⟨a, k, e, hk, he, rfl⟩ := step_some hx
    have hm := List.mem_of_getElem? hk
    by_cases ha : ∃ r, a = assign p (.reply r)
    · obtain ⟨r, rfl⟩ := ha
      have h1 := (reach_unconditions (p := p) hr _ hm).self.2.1 r k rfl
      refine Or.inr ⟨e.rest k, mem_threads_self hk, ?_⟩
      cases act_branch he
      simpa [Effect.rest] using h1
    · have h1 := act_cond (p := p) he fun r hr => ha ⟨r, hr⟩
      rcases h1 with h1 | h1
      · rcases ih with ih | ⟨k', hk', hn⟩
        · exact Or.inl (h1.trans ih)
        · obtain ⟨j, hj⟩ := List.mem_iff_getElem?.mp hk'
          by_cases hji : j = x.1
          · subst hji
            obtain rfl : a :: k = k' := by
              rw [hk] at hj
              exact Option.some.inj hj
            rcases List.mem_cons.mp hn with rfl | hn
            · cases act_branch he
              exact Or.inl (by simp [Pcb.assign])
            · refine Or.inr ⟨e.rest k, mem_threads_self hk, ?_⟩
              have h2 := stop_conditioned (reach_shape hr _ hm).self
                (reach_unconditions (p := p) hr _ hm).self he
              unfold Effect.rest
              split
              · exact absurd hn (h2 ‹_›)
              · exact List.mem_append_right _ hn
          · exact Or.inr ⟨k', mem_threads_of_ne hj hji, hn⟩
      · exact Or.inl h1

/-- **No condition.** A PCB that is about to be sent has no condition. -/
theorem reach_unconditioned (h : Reach (act cfg) ok (start cfg) c)
    (hk : c.threads[x.1]? = some (sendPcb p :: k)) :
    (c.state.pcbs p).cpuDispatchCond = .nullCondition := by
  have hm := List.mem_of_getElem? hk
  have hs : k = [recieveMessageAsync, loop .stp] := (reach_shape h _ hm).self
  rcases reach_conditioned (p := p) h with h1 | ⟨k', hk', hn⟩
  · exact h1
  · obtain ⟨j, hj⟩ := List.mem_iff_getElem?.mp hk'
    have h2 := unconditions_load (reach_shape h _ hk') (reach_unconditions h _ hk') hn
    have h3 : 1 ≤ load dispatchWeight (sendPcb p :: k) := by simp [hs, dispatchWeight]
    obtain rfl := dispatch_unique h hj hk h2 h3
    rw [hk] at hj
    cases hj
    simp [hs] at hn

/-! ### The condition of an answer -/

/-- The steps of the receiver of an answer once it has the PCB. -/
def Action.settles (p : ℕ) : Action → Bool
  | semPost _ | semWait _ | push _ _ | insertInOrder _ | exitMultiprogramming _ | interruptIfBusy _
  | sendInterrupt | setInterrupted | setSuspendTimer _ | startSuspendTimer _ _ | ifInterrupted => true
  | assign _ (.reply _) => false
  | assign _ _ => true
  | dispatchSwitch q => q = p
  | _ => false

theorem settles_flow {l : List Action} {ts : List (List Action)} (h : Flow cfg a l ts)
    (ha : a.settles p = true) : (∀ b ∈ l, b.settles p = true) ∧ dispatchSwitch p ∉ l := by
  rcases hc : cfg.algoritmoPlanificacion <;> cases h
  all_goals first
    | (cases ha; done)
    | simp [Action.settles, movePcbToReady, hc]

/-- Nothing else changes a condition. -/
theorem act_cond_eq (h : act cfg a o s = some e) (ha : ∀ r, a ≠ assign p (.reply r))
    (hn : a ≠ assign p .nullCondition) (hp : p ≤ s.pcbId) :
    (e.state.pcbs p).cpuDispatchCond = (s.pcbs p).cpuDispatchCond := by
  cases act_branch h
  case assign q f =>
    rcases eq_or_ne p q with rfl | hq
    · cases f
      case reply r => exact absurd rfl (ha r)
      case nullCondition => exact absurd rfl hn
      all_goals simp [Pcb.assign]
    · simp [hq]
  case setSuspendTimer q | createBlockedTimer q | noSuspendTimer t q ho =>
    rcases eq_or_ne p q with rfl | hq
    · simp
    · simp [hq]
  case ltpNewProcess prog => simp [show p ≠ s.pcbId + 1 by omega]
  all_goals rfl

/-- Where the receiver of answer `r` to PCB `p` is: it has not written the answer; the
PCB has its condition; or the condition was taken away. -/
inductive Receiver (cfg : KernelConfig) (r : Reply) (p : ℕ) (d : DispatchCond) (k : List Action) : Prop
  | fresh (h : k = applyReply cfg r p ++ dispatchTail cfg)
  | replied (h : ∀ b ∈ k, b.settles p = true) (hn : assign p .nullCondition ∈ k)
      (hd : d = r.cpuDispatchCond)
  | done (h : ∀ b ∈ k, b.settles p = true) (hs : dispatchSwitch p ∉ k)

theorem settles_rest {b : Action} (he : act cfg a o s = some e)
    (h : ∀ b ∈ a :: k, b.settles p = true) (hb : b ∈ e.rest k) : b.settles p = true := by
  unfold Effect.rest at hb
  split at hb
  · simp at hb
  · rcases List.mem_append.mp hb with hb | hb
    · exact (settles_flow (act_flow he) (h a List.mem_cons_self)).1 b hb
    · exact h b (List.mem_cons_of_mem _ hb)

/-- A step of the receiver. -/
theorem Receiver.own {r : Reply} (hr : Reach (act cfg) ok (start cfg) c)
    (hk : c.threads[x.1]? = some (a :: k)) (he : act cfg a x.2 c.state = some e) (hp : p ≤ c.state.pcbId)
    (h : Receiver cfg r p (c.state.pcbs p).cpuDispatchCond (a :: k)) :
    Receiver cfg r p (e.state.pcbs p).cpuDispatchCond (e.rest k) := by
  have hm := List.mem_of_getElem? hk
  rcases h with h | ⟨h, hn, hd⟩ | ⟨h, hs⟩
  · unfold applyReply dispatchTail at h
    split at h
    all_goals
      cases h
      cases act_branch he
      refine .replied ?_ ?_ ?_
      · simp [Effect.rest, Action.settles]
      · simp [Effect.rest]
      · simp [Pcb.assign]
  · by_cases ha : a = assign p .nullCondition
    · subst ha
      have h1 := (reach_unconditions (p := p) hr _ hm).self.1 k rfl
      cases act_branch he
      refine .done (fun b hb => h b (List.mem_cons_of_mem _ (by simpa [Effect.rest] using hb))) ?_
      show dispatchSwitch p ∉ k
      rw [h1, dispatchTail]
      split <;> simp
    · have hn' : assign p .nullCondition ∈ k := (List.mem_cons.mp hn).resolve_left (Ne.symm ha)
      have h1 := stop_conditioned (reach_shape hr _ hm).self (reach_unconditions (p := p) hr _ hm).self he
      refine .replied (fun b => settles_rest he h) ?_ ?_
      · unfold Effect.rest
        split
        · exact absurd hn' (h1 ‹_›)
        · exact List.mem_append_right _ hn'
      · rw [act_cond_eq he (fun r hr => ?_) ha hp, hd]
        have := h a List.mem_cons_self
        simp [hr, Action.settles] at this
  · refine .done (fun b => settles_rest he h) fun hb => ?_
    unfold Effect.rest at hb
    split at hb
    · simp at hb
    · rcases List.mem_append.mp hb with hb | hb
      · exact (settles_flow (act_flow he) (h a List.mem_cons_self)).2 hb
      · exact hs (List.mem_cons_of_mem _ hb)

/-- A step of another thread. -/
theorem Receiver.other {r : Reply} {i : ℕ} {l : List Action} (hr : Reach (act cfg) ok (start cfg) c)
    (hk : c.threads[x.1]? = some (a :: k)) (he : act cfg a x.2 c.state = some e) (hp : p ≤ c.state.pcbId)
    (hi : c.threads[i]? = some l) (hne : x.1 ≠ i)
    (h : Receiver cfg r p (c.state.pcbs p).cpuDispatchCond l) :
    Receiver cfg r p (e.state.pcbs p).cpuDispatchCond l := by
  have hm := List.mem_of_getElem? hk
  have hl := List.mem_of_getElem? hi
  rcases h with h | ⟨h, hn, hd⟩ | ⟨h, hs⟩
  · exact .fresh h
  · have h1 : assign p .nullCondition ∉ a :: k := fun h2 => by
      have h3 := unconditions_load (reach_shape hr _ hm) (reach_unconditions hr _ hm) h2
      have h4 := unconditions_load (reach_shape hr _ hl) (reach_unconditions hr _ hl) hn
      exact hne (dispatch_unique hr hk hi h3 h4)
    refine .replied h hn ?_
    rw [act_cond_eq he ?_ ?_ hp, hd]
    · rintro r rfl
      exact h1 (List.mem_cons_of_mem _ ((reach_unconditions (p := p) hr _ hm).self.2.1 r k rfl))
    · rintro rfl
      exact h1 List.mem_cons_self
  · exact .done h hs

theorem act_pcbId (h : act cfg a o s = some e) : s.pcbId ≤ e.state.pcbId := by
  cases act_branch h <;> first
    | exact le_refl _
    | exact Nat.le_succ _

/-- The receiver that has taken the answer goes on, whatever the others do. -/
theorem receiver_run {r : Reply} {i : ℕ} {l : List Action} (h0 : Reach (act cfg) ok (start cfg) c)
    (hp : p ≤ c.state.pcbId) (hi : c.threads[i]? = some l)
    (hl : Receiver cfg r p (c.state.pcbs p).cpuDispatchCond l) (h : Reach (act cfg) ok c c') :
    Reach (act cfg) ok (start cfg) c' ∧ p ≤ c'.state.pcbId ∧
      ∃ l', c'.threads[i]? = some l' ∧ Receiver cfg r p (c'.state.pcbs p).cpuDispatchCond l' := by
  induction h with
  | start => exact ⟨h0, hp, l, hi, hl⟩
  | @step c₁ c₂ x _ hok hx ih =>
    obtain ⟨h1, h2, l', h3, h4⟩ := ih
    obtain ⟨a, k, e, hk, he, hc⟩ := step_some hx
    refine ⟨.step x h1 hok hx, ?_, ?_⟩
    · rw [hc]
      exact h2.trans (act_pcbId he)
    · obtain ⟨hlt, -⟩ := List.getElem?_eq_some_iff.mp h3
      have hset : ∀ k', (c₁.threads.set x.1 k' ++ e.spawn)[i]? = (c₁.threads.set x.1 k')[i]? := fun k' =>
        List.getElem?_append_left (by simpa using hlt)
      rw [hc]
      by_cases hxi : x.1 = i
      · subst hxi
        rw [hk] at h3
        cases h3
        exact ⟨e.rest k, by rw [hset, List.getElem?_set_self hlt], h4.own h1 hk he h2⟩
      · exact ⟨l', by rw [hset, List.getElem?_set_ne hxi, h3], h4.other h1 hk he h2 h3 hxi⟩

/-! ### The result -/

/-- What the console of `p` was told since `s` is the failure. -/
def Reports (p : ℕ) (s s' : Planner) : Prop :=
  ∃ l, s'.told = l ++ s.told ∧ ∀ g, (p, g) ∈ l → g = .operationFailure

/-- The error of a PCB that was created is not taken back. -/
theorem act_error (h : act cfg a o s = some e) (hp : p ≤ s.pcbId) (hs : (s.pcbs p).error = true) :
    p ≤ e.state.pcbId ∧ (e.state.pcbs p).error = true ∧ Reports p s e.state := by
  have h0 : Reports p s s := ⟨[], rfl, by simp⟩
  cases act_branch h
  case assign q f =>
    refine ⟨hp, ?_, h0⟩
    rcases eq_or_ne p q with rfl | hq
    · cases f <;> simp [Pcb.assign, hs]
    · simpa [hq] using hs
  case setSuspendTimer q | createBlockedTimer q | noSuspendTimer t q ho =>
    refine ⟨hp, ?_, h0⟩
    rcases eq_or_ne p q with rfl | hq
    · simpa using hs
    · simpa [hq] using hs
  case ltpNewProcess prog =>
    refine ⟨Nat.le_succ_of_le hp, ?_, h0⟩
    simpa [show p ≠ s.pcbId + 1 by omega] using hs
  case consoleTerminate q =>
    refine ⟨hp, hs, [_], rfl, fun g hg => ?_⟩
    obtain ⟨rfl, rfl⟩ := Prod.mk.inj (List.mem_singleton.mp hg)
    simp [hs]
  all_goals exact ⟨hp, hs, h0⟩

theorem run_error (h : Reach (act cfg) ok c c') (hp : p ≤ c.state.pcbId)
    (hs : (c.state.pcbs p).error = true) :
    p ≤ c'.state.pcbId ∧ (c'.state.pcbs p).error = true ∧ Reports p c.state c'.state := by
  induction h with
  | start => exact ⟨hp, hs, [], rfl, by simp⟩
  | @step c₁ c₂ x _ _ hx ih =>
    obtain ⟨h1, h2, l, h3, h4⟩ := ih
    obtain ⟨a, k, e, hk, he, rfl⟩ := step_some hx
    obtain ⟨h5, h6, l', h7, h8⟩ := act_error he h1 h2
    refine ⟨h5, h6, l' ++ l, ?_, fun g hg => ?_⟩
    · calc e.state.told = l' ++ c₁.state.told := h7
        _ = l' ++ (l ++ c.state.told) := by rw [h3]
        _ = l' ++ l ++ c.state.told := (List.append_assoc ..).symm
    · rcases List.mem_append.mp hg with hg | hg
      · exact h8 g hg
      · exact h4 g hg

theorem run_pcbId (h : Reach (act cfg) ok c c') : c.state.pcbId ≤ c'.state.pcbId := by
  induction h with
  | start => exact le_refl _
  | step x _ _ hx ih =>
    obtain ⟨a, k, e, hk, he, rfl⟩ := step_some hx
    exact ih.trans (act_pcbId he)

/-- A PCB that a thread has was created. -/
theorem created_of_load (h : Reach (act cfg) ok (start cfg) c) (hk : k ∈ c.threads)
    (hw : 1 ≤ load (weight living p) k) : p ≤ c.state.pcbId := by
  by_contra hp
  have h1 := living_le_one (p := p) h
  have h2 := le_total
    (fun t ht => (reach_grounded (p := p) living_nonneg (by simp [living]) h t ht).nonneg) hk
  have h3 := (le_value (p := p) living_nonneg c.state).2.2.2.2.2
  have h4 : living .unborn = 1 := rfl
  rw [if_pos (by omega)] at h3
  unfold held at h1
  omega

/-- What the kernel does with the answer to a PCB, taken out of `planner->exec` by the
step from `c` to `c₁`, whatever the other threads do meanwhile: the switch on the
condition finishes the process with error, and once the error is written nothing else is
told to its console. -/
def FinishesWithError (cfg : KernelConfig) (p i : ℕ) (c₁ : Config Planner Action) : Prop :=
  ∀ c₂ k o c₃, Reach (act cfg) (fun _ _ => True) c₁ c₂ → c₂.threads[i]? = some (dispatchSwitch p :: k) →
    step (act cfg) c₂ (i, o) = some c₃ →
    c₃.threads[i]? = some (exitWithError p ++ k) ∧
    ∀ c₄ o' c₅, Reach (act cfg) (fun _ _ => True) c₃ c₄ →
      c₄.threads[i]? = some (exitWithError p ++ k) → step (act cfg) c₄ (i, o') = some c₅ →
      ∀ c₆, Reach (act cfg) (fun _ _ => True) c₅ c₆ → Reports p c₅.state c₆.state

/-- In every run PCBs are sent with no condition. -/
def SendsUnconditioned (cfg : KernelConfig) : Prop :=
  ∀ (c : Config Planner Action) (i p : ℕ) k, Reach (act cfg) (fun _ _ => True) (start cfg) c →
    c.threads[i]? = some (sendPcb p :: k) → (c.state.pcbs p).cpuDispatchCond = .nullCondition

/-- In every run an answer with a condition without a case finishes the process with
error. -/
def FinishesErrors (cfg : KernelConfig) : Prop :=
  ∀ (c c' : Config Planner Action) (x : ℕ × Outcome) r p k,
    Reach (act cfg) (fun _ _ => True) (start cfg) c → c.threads[x.1]? = some (takeExec r :: k) →
    c.state.exec = some p → Erroneous cfg r.cpuDispatchCond → step (act cfg) c x = some c' →
    FinishesWithError cfg p x.1 c'

/-- **Errors.** -/
theorem erroneous_finishes {r : Reply} (h : Reach (act cfg) (fun _ _ => True) (start cfg) c)
    (hk : c.threads[x.1]? = some (takeExec r :: k)) (hp : c.state.exec = some p)
    (hd : Erroneous cfg r.cpuDispatchCond) (hx : step (act cfg) c x = some c') :
    FinishesWithError cfg p x.1 c' := by
  have hs : k = dispatchTail cfg := (reach_shape h _ (List.mem_of_getElem? hk)).self
  obtain ⟨hi, -⟩ := List.getElem?_eq_some_iff.mp hk
  have hk' : c'.threads[x.1]? = some (applyReply cfg r p ++ dispatchTail cfg) := by
    obtain ⟨a, l, e, hl, he, rfl⟩ := step_some hx
    rw [hk] at hl
    cases hl
    cases act_branch he
    case takeExec q hq =>
      rw [hp] at hq
      cases hq
      simp [Effect.rest, hs, hi]
    case takeExecNull hq =>
      rw [hp] at hq
      cases hq
  have hr : Reach (act cfg) (fun _ _ => True) (start cfg) c' := .step x h trivial hx
  have hc := created_of_load (p := p) hr (List.mem_of_getElem? hk') (by simp [at', living])
  intro c₂ l o c₃ h2 hl hx3
  obtain ⟨hr2, hp2, l', hl', hrec⟩ := receiver_run hr hc hk' (.fresh rfl) h2
  rw [hl] at hl'
  cases hl'
  have hcond : (c₂.state.pcbs p).cpuDispatchCond = r.cpuDispatchCond := by
    rcases hrec with h | ⟨-, -, hd⟩ | ⟨-, h⟩
    · unfold applyReply at h
      split at h <;> cases h
    · exact hd
    · exact absurd List.mem_cons_self h
  obtain ⟨a, l₁, e, hl₁, he, rfl⟩ := step_some hx3
  rw [hl] at hl₁
  cases hl₁
  have hcr : c₂.state.crashed = false := by
    by_contra hcr
    rw [Bool.not_eq_false] at hcr
    simp [act, hcr] at he
  rw [dispatchSwitch_erroneous hcr (hcond ▸ hd)] at he
  cases he
  obtain ⟨hi2, -⟩ := List.getElem?_eq_some_iff.mp hl
  refine ⟨by simp [Effect.rest, hi2], fun c₄ o' c₅ h4 hk4 hx5 c₆ h6 => ?_⟩
  have h7 := run_pcbId h4
  obtain ⟨b, l₂, e, hl₂, he, rfl⟩ := step_some hx5
  rw [hk4] at hl₂
  cases hl₂
  cases act_branch he
  exact (run_error h6 (hp2.trans h7) (by simp [Pcb.assign])).2.2

end Reach

theorem sendsUnconditioned (cfg : KernelConfig) : SendsUnconditioned cfg :=
  fun _ i _ _ h hk => reach_unconditioned (x := (i, .ok)) h hk

theorem finishesErrors (cfg : KernelConfig) : FinishesErrors cfg :=
  fun _ _ _ _ _ _ h hk hp hd hx => erroneous_finishes h hk hp hd hx

end Kernel
end Kiss
