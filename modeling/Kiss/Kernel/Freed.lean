/-
# The degree of multiprogramming and the memory of the PCBs

What becomes of `ltp_sem_multiprogramming_level` in a kernel whose `pcb_create` may get the
memory of any PCB that was destroyed. Where `swapp_process` fails, `mtp_suspend_pcb` puts on
exit a PCB that the blocked queue or its I/O timer has, and the exit controller frees it; the
process that gets its memory is then moved twice, by its own threads and by `mtp_unblock_pcb`,
and a permit is made (`callReach_not_conserved`). Where no swap fails, nobody but a suspension
timer has a PCB that was destroyed (`begins_released`), and none is made or lost
(`callReach_conserved`).

Key definitions: `Unfailing`, `SwapRun`, `reuseRun`.
Key theorems: `own_le`, `marked_status`, `begins_released`, `callReach_conserved`,
`callReach_not_conserved`.
-/
import Kiss.Progress
import Kiss.Kernel.Multiprogramming

namespace Kiss
namespace Kernel

open Kernel.Action Place Threads

/-- Neither `timer_start` nor `swapp_process` fails. -/
def Unfailing (a : Action) (o : Outcome) : Prop := TimerStarts a o ∧ SwapsSucceed a o

/-- The runs from `c₀` in which, besides, no swap fails. -/
abbrev SwapRun (cfg : KernelConfig) : Config Planner Action → Config Planner Action → Prop :=
  CallReach (act cfg) Unfailing IsMove

theorem allows_timers {c : Config Planner Action} {x : ℕ × Outcome} (h : Allows Unfailing c x) :
    Allows TimerStarts c x := fun a k hk => (h a k hk).1

instance (cfg : KernelConfig) (c₀ : Config Planner Action) [h : Frees cfg (Allows Unfailing) c₀] :
    Frees cfg (Allows TimerStarts) c₀ :=
  ⟨h.begins.mono (fun _ _ hr => hr.mono fun _ _ => allows_timers) fun _ _ hq => hq⟩

/-! ### Where a PCB is that was destroyed -/

section Reach

variable {cfg : KernelConfig} {ok : Config Planner Action → ℕ × Outcome → Prop}
  {c₀ c : Config Planner Action} {p q : ℕ}

/-- The planner does not go on once it has halted. -/
theorem reach_halt (h : Reach (act cfg) ok c₀ c) (hh : c.state.halt = false) : c₀.state.halt = false := by
  induction h with
  | start => exact hh
  | step x _ _ hx ih =>
    obtain ⟨a, k, e, -, he, rfl⟩ := step_some hx
    exact ih (act_halt he hh)

theorem reuse_halt {c' : Config Planner Action} {x : ℕ × Outcome}
    (hx : Threads.step (actReuse cfg q) c x = some c') : c'.state.halt = c.state.halt := by
  obtain ⟨a, k, e, -, he, rfl⟩ := step_some hx
  obtain ⟨-, prog, rfl, rfl⟩ := actReuse_some he
  rfl

/-- The PCB whose memory is taken again was destroyed. -/
theorem reuse_destroyed {c' : Config Planner Action} {x : ℕ × Outcome}
    (hx : Threads.step (actReuse cfg q) c x = some c') : 1 ≤ c.state.destroyed.count q := by
  obtain ⟨a, k, e, -, he, -⟩ := step_some hx
  exact List.count_pos_iff.mpr (actReuse_some he).1

section Own

variable [Frees cfg (Allows Unfailing) c₀]

/-- What a step does with the places of a PCB, where no swap fails. -/
theorem own_step {c' : Config Planner Action} {x : ℕ × Outcome} (hr : Reach (act cfg) (Allows Unfailing) c₀ c)
    (hh : c.state.halt = false) (ho : Allows Unfailing c x) (hx : Threads.step (act cfg) c x = some c') :
    held own p c' ≤ held own p c := by
  have h1 := held_step (g := own) (p := p) (d := 0) own_nonneg (by simp [own, living, finished]) (le_refl _) hr
    (fun a k hk => own_follows fun hs hf => by
      subst hs
      rcases hf with hf | hf
      · rw [hh] at hf
        cases hf
      · exact hf ((ho _ _ hk).2 p rfl)) hx
  omega

omit [Frees cfg (Allows Unfailing) c₀] in
/-- Nor does it get another one where its memory is taken again: the one where it was destroyed
is gone. -/
theorem own_reuse {c' : Config Planner Action} {x : ℕ × Outcome}
    (hx : Threads.step (actReuse cfg q) c x = some c') : held own p c' ≤ held own p c := by
  by_cases hp : p = q
  · subst hp
    have h1 := held_reuse (g := own) (p := p) hx
    have h2 := reuse_destroyed hx
    have h3 : own destroyed = 1 ∧ own (entering .new) = 1 := by simp [own, living, finished]
    rw [if_pos rfl, at', if_pos rfl, h3.1, h3.2, one_mul] at h1
    omega
  · exact (held_reuse_of_ne hx hp).le

/-- **One place.** Where no swap fails, a process is in one place at most, also on its way out, and
0 is in none. -/
theorem own_le (h : Reach (act cfg) (Allows Unfailing) c₀ c) (hh : c.state.halt = false) :
    held own p c ≤ if 0 < p then 1 else 0 := by
  have h1 : held own p c ≤ held own p (start cfg) := by
    refine Frees.inv (I := fun c => c.state.halt = false → held own p c ≤ held own p (start cfg)) h
      (fun _ => le_refl _) ?_ ?_ hh
    · intro _ c c' x _ hr ih ho hx hh
      have hh' := reach_halt (.step x .start ho hx : Reach (act cfg) (Allows Unfailing) c c') hh
      calc held own p c' ≤ held own p c := own_step hr hh' ho hx
        _ ≤ held own p (start cfg) := ih hh'
    · intro _ c c' x q _ _ _ ih _ hx hh
      calc held own p c' ≤ held own p c := own_reuse hx
        _ ≤ held own p (start cfg) := ih (reuse_halt hx ▸ hh)
  rwa [start_held] at h1

theorem own_le_one (h : Reach (act cfg) (Allows Unfailing) c₀ c) (hh : c.state.halt = false) :
    held own p c ≤ 1 := by
  have h1 := own_le (p := p) h hh
  split_ifs at h1 <;> omega

/-- A PCB that was destroyed is where a count takes it for destroyed. -/
theorem held_destroyed {g : Place → ℤ} (h0 : ∀ l, 0 ≤ g l) (hb : g (queued .blocked) ≤ g arming)
    (hd : g destroyed = 1) (h : Reach (act cfg) (Allows Unfailing) c₀ c)
    (hq : 1 ≤ c.state.destroyed.count q) : 1 ≤ held g q c :=
  calc (1 : ℤ) ≤ (c.state.destroyed.count q : ℤ) := Int.ofNat_le.mpr hq
    _ = sumAt g q destroyed c.state.destroyed := by rw [sumAt_eq, hd, one_mul]
    _ ≤ value g q c.state := (le_value h0 c.state).2.2.2.2.1
    _ ≤ held g q c := value_le_held h0 hb h

theorem marked_le_own (l : Place) : marked l ≤ own l := by
  cases l
  case entering q | queued q => cases q <;> simp [marked, own, living, finished]
  all_goals simp [marked, own, living, finished]

/-- A PCB that has got its last status is in no other place. -/
theorem marked_alone (hr : Reach (act cfg) (Allows Unfailing) c₀ c) (hh : c.state.halt = false)
    (hm : 1 ≤ held marked p c) {w : Place} (h1 : w ≠ queued .blocked) (h2 : w ≠ arming) (h3 : marked w = 0)
    (h4 : own w = 1) : held (atPlace w) p c ≤ 0 := by
  by_contra hw
  refine disjoint hr (own_le_one hr hh) (g := marked) (f := atPlace w) (fun l => ?_) ?_ hm (by omega)
  · by_cases hl : l = w
    · subst hl
      simp [atPlace, h3, h4]
    · simpa [atPlace, hl] using marked_le_own l
  · simp [marked, atPlace, h1.symm, h2.symm]

/-- Nor is anybody about to give it another one. -/
theorem marked_act {x : ℕ × Outcome} {a : Action} {k : List Action} {e : Effect Planner Action}
    (hc : cfg.algoritmoPlanificacion = .fifo) (hr : Reach (act cfg) (Allows Unfailing) c₀ c)
    (hh : c.state.halt = false) (hk : c.threads[x.1]? = some (a :: k)) (he : act cfg a x.2 c.state = some e)
    (hm : 1 ≤ held marked p c) (hst : (c.state.pcbs p).status = .exit) :
    (e.state.pcbs p).status = .exit := by
  have hmem := List.mem_of_getElem? hk
  rcases act_status p he with h | ⟨st, rfl, h⟩ | ⟨prog, -, hp, -⟩
  · rw [h, hst]
  · by_cases hex : st = .exit
    · rw [h, hex]
    exfalso
    by_cases hsb : st = .suspendedBlocked
    · -- `mtp_suspend_pcb` has found the PCB blocked
      subst hsb
      obtain ⟨t, ht⟩ := suspending_of_assign hr hmem
      have h1 := ((reach_standing (p := p) hc (hr.mono fun _ _ => allows_timers)).suspends _ hmem t ht).1
      rw [hst] at h1
      cases h1
    · have hw : fifoWriter st ≠ queued .blocked ∧ fifoWriter st ≠ arming ∧ marked (fifoWriter st) = 0 ∧
          own (fifoWriter st) = 1 := by
        cases st <;> simp [fifoWriter, writer, marked, own, living, finished]
      obtain ⟨h1, h2, h3, h4⟩ := hw
      have hb : atPlace (fifoWriter st) (queued .blocked) ≤ atPlace (fifoWriter st) arming := by
        simp [atPlace, h1.symm, h2.symm]
      have h5 := writer_load (p := p) hc (atPlace_nonneg (fifoWriter st)) hb hr hmem hsb
      have h6 := load_le_held (p := p) (atPlace_nonneg (fifoWriter st)) hb hr hmem
      have h7 := marked_alone hr hh hm h1 h2 h3 h4
      have h8 : atPlace (fifoWriter st) (fifoWriter st) = 1 := if_pos rfl
      omega
  · exfalso
    have h1 := unborn_held (p := p) hr (by omega)
    have h2 := marked_alone hr hh hm (w := unborn) (by simp) (by simp) rfl rfl
    omega

/-- A PCB on its way out keeps `PCB_EXIT` until its memory is another process's. -/
theorem marked_status (hc : cfg.algoritmoPlanificacion = .fifo) (h : Reach (act cfg) (Allows Unfailing) c₀ c)
    (hh : c.state.halt = false) (hm : 1 ≤ held marked p c) : (c.state.pcbs p).status = .exit := by
  refine Frees.inv (I := fun c => c.state.halt = false → 1 ≤ held marked p c → (c.state.pcbs p).status = .exit) h
    (fun _ h1 => ?_) ?_ ?_ hh hm
  · rw [start_held] at h1
    simp [marked] at h1
  · intro c₁ c c' x _ hr ih ho hx hh hm
    have hh' := reach_halt (.step x .start ho hx : Reach (act cfg) (Allows Unfailing) c c') hh
    obtain ⟨a, k, e, hk, he, hc'⟩ := step_some hx
    rw [hc']
    by_cases ha : a = assign p (.status .exit)
    · subst ha
      cases act_branch he
      simp [Pcb.assign]
    · have h1 := held_step (g := marked) (p := p) (d := 0) marked_nonneg (by simp [marked]) (le_refl _) hr
        (fun b l hl => by
          rw [hk] at hl
          cases hl
          exact marked_follows ha) hx
      have hm' : 1 ≤ held marked p c := by omega
      exact marked_act hc hr hh' hk he hm' (ih hh' hm')
  · intro c₁ c c' x q _ _ hr ih hq hx hh hm
    have hh' : c.state.halt = false := reuse_halt hx ▸ hh
    by_cases hp : p = q
    · -- it was destroyed once, and was nowhere else
      subst hp
      exfalso
      have h1 := held_reuse (g := marked) (p := p) hx
      have h2 := reuse_destroyed hx
      have h3 := held_mono (p := p) hr marked_le_own (by simp [marked, own, living, finished])
      have h4 := own_le_one (p := p) hr hh'
      have h5 : marked destroyed = 1 ∧ marked (entering .new) = 0 := ⟨rfl, rfl⟩
      rw [if_pos rfl, at', if_pos rfl, h5.1, h5.2, one_mul] at h1
      omega
    · have h1 := ih hh' ((held_reuse_of_ne hx hp).le.trans' hm)
      obtain ⟨a, k, e, -, he, rfl⟩ := step_some hx
      obtain ⟨-, prog, rfl, rfl⟩ := actReuse_some he
      simpa [Planner.recreate, hp] using h1

/-- **Where no swap fails nobody has a PCB that was destroyed**, but for a suspension timer. -/
theorem released_of_destroyed (hc : cfg.algoritmoPlanificacion = .fifo)
    (h : Reach (act cfg) (Allows Unfailing) c₀ c) (hh : c.state.halt = false)
    (hq : 1 ≤ c.state.destroyed.count q) : Released q c := by
  have hown : own (queued .blocked) ≤ own arming ∧ own destroyed = 1 := by simp [own, living, finished]
  refine ⟨?_, marked_status hc h hh (held_destroyed marked_nonneg (by simp [marked]) rfl h hq), ?_⟩
  · rintro rfl
    have h1 := held_destroyed own_nonneg hown.1 hown.2 h hq
    have h2 := own_le (p := 0) h hh
    rw [if_neg (by omega)] at h2
    omega
  · have h1 := held_destroyed (atPlace_nonneg destroyed) (by simp [atPlace]) rfl h hq
    have h2 := own_le_one (p := q) h hh
    have h3 := held_add living (atPlace leaving) q c
    have h4 := held_add (fun l => living l + atPlace leaving l) (atPlace destroyed) q c
    have h5 := held_mono (p := q) h (g := fun l => living l + atPlace leaving l + atPlace destroyed l) (f := own)
      (fun l => by
        cases l
        case entering q | queued q => cases q <;> simp [atPlace, own, living, finished]
        all_goals simp [atPlace, own, living, finished]) (by simp [atPlace, own, living, finished])
    omega

end Own

/-- Where no swap fails memory is taken again only of PCBs that nobody has. -/
theorem begins_released (hc : cfg.algoritmoPlanificacion = .fifo)
    (hb : Begins cfg (SwapRun cfg) (fun _ _ => True) c₀) (hh : c₀.state.halt = false) :
    Begins cfg (SwapRun cfg) Released c₀ := by
  induction hb with
  | start => exact .start
  | @reuse c₀ c c' x q hb hr _ hx ih =>
    have hh' : c.state.halt = false := reuse_halt hx ▸ hh
    have h1 := ih (reach_halt hr.reach hh')
    have hf : Frees cfg (Allows Unfailing) c₀ := ⟨h1.mono (fun _ _ h => h.reach) fun _ _ hq => hq⟩
    exact .reuse h1 hr (released_of_destroyed hc hr.reach hh' (reuse_destroyed hx)) hx

/-- **The degree of multiprogramming.** Where no swap fails, no interleaving of the calls loses or
makes a permit, whatever memory `pcb_create` gets. -/
theorem callReach_conserved (hc : cfg.algoritmoPlanificacion = .fifo)
    (hb : Begins cfg (SwapRun cfg) (fun _ _ => True) c₀) (h : SwapRun cfg c₀ c) (hh : c.state.halt = false) :
    c.state.sems .ltpSemMultiprogrammingLevel + multiprogrammed c.state +
        (if ∃ k ∈ c.threads, HasPermit k = true then 1 else 0) = cfg.gradoMultiprogramacion ∧
      multiprogrammed c.state ≤ cfg.gradoMultiprogramacion := by
  have h1 := begins_released hc hb (reach_halt h.reach hh)
  exact moveRun_conserved hc (h1.mono (fun _ _ hr => hr.mono fun _ _ ho => ho.1) fun _ _ hq => hq)
    (h.mono fun _ _ ho => ho.1) hh

end Reach

/-! ### Runs -/

/-- A run, a process in the memory of PCB 1, and a run from there. -/
def reuseRun (check : Action → Outcome → Bool) (xs : List (ℕ × Outcome)) (x : ℕ × Outcome)
    (ys : List (ℕ × Outcome)) : Option (Config Planner Action) :=
  (runCalls (act (exampleConfig .fifo)) check splitCall (start (exampleConfig .fifo)) xs).bind fun c =>
    (Threads.step (actReuse (exampleConfig .fifo) 1) c x).bind fun c =>
      runCalls (act (exampleConfig .fifo)) check splitCall c ys

theorem begins_of_reuseRun {ok : Action → Outcome → Prop} {check : Action → Outcome → Bool}
    (hok : ∀ a o, check a o = true → ok a o) {xs ys : List (ℕ × Outcome)} {x : ℕ × Outcome}
    {c : Config Planner Action} (h : reuseRun check xs x ys = some c) :
    ∃ c₀, Begins (exampleConfig .fifo) (CallReach (act (exampleConfig .fifo)) ok IsMove) (fun _ _ => True) c₀ ∧
      CallReach (act (exampleConfig .fifo)) ok IsMove c₀ c := by
  obtain ⟨c₁, h1, h2⟩ := Option.bind_eq_some_iff.mp h
  obtain ⟨c₀, h3, h4⟩ := Option.bind_eq_some_iff.mp h2
  have hrun : ∀ {c₀ c c' : Config Planner Action} {zs},
      CallReach (act (exampleConfig .fifo)) ok IsMove c₀ c →
      runCalls (act (exampleConfig .fifo)) check splitCall c zs = some c' →
      CallReach (act (exampleConfig .fifo)) ok IsMove c₀ c' := fun hr hz =>
    callReach_of_run hok (fun _ _ _ => splitCall_some) (fun _ _ _ => splitCall_none) hr hz
  exact ⟨c₀, .reuse .start (hrun .start h1) trivial h3, hrun .start h4⟩

/-- `Unfailing`, evaluated. -/
def checkUnfailing : Action → Outcome → Bool
  | swappProcess _, o => o = .ok
  | a, o => checkTimerStarts a o

theorem unfailing_of_check (a : Action) (o : Outcome) (h : checkUnfailing a o = true) :
    Unfailing a o := by
  refine ⟨timerStarts_of_check a o ?_, ?_⟩
  · unfold checkUnfailing at h
    split at h
    · rfl
    · exact h
  · rintro p rfl
    simpa [checkUnfailing] using h

/-- Process 1 is admitted and dispatched. -/
def dispatchRun : List (ℕ × Outcome) :=
  [(4, .ok), (4, .program ioProgram)] ++ oks 2 5 ++ oks 6 0 ++ [(0, .ok), (0, .table 1)] ++ oks 3 0 ++ oks 10 3

/-- It ends and is freed. Another console connects. -/
def freeRun : List (ℕ × Outcome) :=
  dispatchRun ++ replyRun 6 { ioReply with cpuDispatchCond := .exitProgram } ++ oks 3 6 ++ oks 8 1 ++
    [(4, .ok), (4, .program ioProgram)]

/-- The process of thread 7 is admitted. -/
def admitAgainRun : List (ℕ × Outcome) := oks 1 7 ++ oks 6 0 ++ [(0, .ok), (0, .table 1)] ++ oks 3 0

theorem callReach_conserved_freeRun : ∃ c₀ c,
    Begins (exampleConfig .fifo) (SwapRun (exampleConfig .fifo)) (fun _ _ => True) c₀ ∧
    SwapRun (exampleConfig .fifo) c₀ c ∧ c.state.pcbId = 1 ∧ c.state.told = [(1, .operationSuccess)] ∧
    multiprogrammed c.state = 1 ∧
    c.state.sems .ltpSemMultiprogrammingLevel + multiprogrammed c.state +
      (if ∃ k ∈ c.threads, HasPermit k = true then 1 else 0) = 4 := by
  have h1 : (reuseRun checkUnfailing freeRun (7, .ok) admitAgainRun).map (fun c =>
      (c.state.halt, c.state.pcbId, c.state.told, multiprogrammed c.state)) =
        some (false, 1, [(1, .operationSuccess)], 1) := by
    decide +kernel
  obtain ⟨c, hc, h2⟩ := Option.map_eq_some_iff.mp h1
  simp only [Prod.mk.injEq] at h2
  obtain ⟨h3, h4, h5, h6⟩ := h2
  obtain ⟨c₀, hb, hr⟩ := begins_of_reuseRun unfailing_of_check hc
  exact ⟨c₀, c, hb, hr, h4, h5, h6, (callReach_conserved rfl hb hr h3).1⟩

/-- Process 1 blocks, its swap fails when the suspension timer, thread 7, fires, and the exit
controller frees it. It is still in the blocked queue when another console connects. -/
def staleBlockedRun : List (ℕ × Outcome) :=
  dispatchRun ++ replyRun 6 ioReply ++ oks 3 6 ++ oks 5 7 ++ [(7, .fail)] ++ oks 4 7 ++ oks 8 1 ++
    [(4, .ok), (4, .program ioProgram)]

/-- The process that gets its memory is admitted. The I/O timer of process 1, thread 9, finds it
READY and puts it on exit, and it is dispatched from the ready queue. -/
def staleUnblockRun : List (ℕ × Outcome) :=
  oks 1 8 ++ oks 7 0 ++ [(0, .table 1)] ++ oks 3 0 ++ oks 8 2 ++ oks 9 9 ++ oks 7 3

theorem callReach_not_conserved : ¬ ∀ cfg c₀ c, cfg.algoritmoPlanificacion = .fifo →
    Begins cfg (MoveRun cfg) (fun _ _ => True) c₀ → MoveRun cfg c₀ c → c.state.halt = false →
    c.state.sems .ltpSemMultiprogrammingLevel + multiprogrammed c.state +
      (if ∃ k ∈ c.threads, HasPermit k = true then 1 else 0) = cfg.gradoMultiprogramacion := by
  intro h
  have h1 : (reuseRun checkTimerStarts staleBlockedRun (8, .ok) staleUnblockRun).map (fun c =>
      (c.state.halt, c.state.sems .ltpSemMultiprogrammingLevel, multiprogrammed c.state)) =
        some (false, 4, 1) := by
    decide +kernel
  obtain ⟨c, hc, h2⟩ := Option.map_eq_some_iff.mp h1
  simp only [Prod.mk.injEq] at h2
  obtain ⟨h3, h4, h5⟩ := h2
  obtain ⟨c₀, hb, hr⟩ := begins_of_reuseRun timerStarts_of_check hc
  have h6 := h (exampleConfig .fifo) c₀ c rfl hb hr h3
  rw [h4, h5] at h6
  change 4 + 1 + _ = 4 at h6
  omega

end Kernel
end Kiss
