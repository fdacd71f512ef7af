/-
# The degree of multiprogramming

`ltp_sem_multiprogramming_level` starts at `grado_multiprogramacion`. A permit is taken by the
long-term controller, goes with the PCB that it moves to the ready queue, and is posted
again by `move_pcb_to_exit`, `move_pcb_to_suspended_blocked` or, when the page table is not
assigned, by the controller itself. Where each call of a `move_pcb_to_*` is one step, the
permits, the PCBs whose status counts and the one the controller has always add up to the
degree (`moveRun_conserved`): under FIFO, until the planner halts, whatever else fails, as long as
memory is taken again only of PCBs that nobody has. `Freed` says when that is so.

Key definitions: `IsMove`, `multiprogrammed`, `HasPermit`, `LongTermPoint`, `Moved`, `Level`.
Key theorems: `moved_of_alone`, `level_run`, `level_reuse`, `moveRun_conserved`.
-/
import Kiss.Kernel.Announced
import Kiss.Kernel.Standing

namespace Kiss
namespace Kernel

open Kernel.Action Place Threads

/-! ### What is conserved -/

/-- The calls of the `move_pcb_to_*` functions with PCB `p`, under FIFO. -/
def moves (p : ℕ) : List (List Action) :=
  [movePcbToNew p, movePcbToReadyFifo p, movePcbToExec p, movePcbToExit p, movePcbToBlocked p,
    movePcbToSuspendedBlocked p, movePcbToSuspendedReady p]

def IsMove (m : List Action) : Prop := ∃ p, m ∈ moves p

/-- The call that starts with an action. -/
@[simp] def Action.call : Action → Option (List Action)
  | assign p (.status .new) => some (movePcbToNew p)
  | assign p (.status .ready) => some (movePcbToReadyFifo p)
  | assign p (.status .exec) => some (movePcbToExec p)
  | exitMultiprogramming p => some (movePcbToExit p)
  | assign p (.status .blocked) => some (movePcbToBlocked p)
  | assign p (.status .suspendedBlocked) => some (movePcbToSuspendedBlocked p)
  | assign p (.status .suspendedReady) => some (movePcbToSuspendedReady p)
  | _ => none

theorem isMove_iff {m : List Action} : IsMove m ↔ ∃ a ∈ m.head?, a.call = some m := by
  constructor
  · rintro ⟨p, hm⟩
    simp only [moves, List.mem_cons, List.not_mem_nil, or_false] at hm
    rcases hm with rfl | rfl | rfl | rfl | rfl | rfl | rfl <;> exact ⟨_, rfl, rfl⟩
  · rintro ⟨a, -, ha⟩
    unfold Action.call at ha
    split at ha
    case h_8 => cases ha
    all_goals
      rename_i p
      cases ha
      exact ⟨p, by simp [moves]⟩

/-- The runs from `c₀` in which each call of a `move_pcb_to_*` is one step and the timer
threads start. -/
abbrev MoveRun (cfg : KernelConfig) : Config Planner Action → Config Planner Action → Prop :=
  CallReach (act cfg) TimerStarts IsMove

/-- How many processes are READY, EXEC or BLOCKED. -/
def multiprogrammed (s : Planner) : ℕ :=
  ((Finset.Icc 1 s.pcbId).filter fun p => s.counted p = true).card

/-- The long-term controller has waited for `ltp_sem_multiprogramming_level`, and has neither
moved a PCB to the ready queue nor posted since then. -/
def HasPermit (k : List Action) : Bool :=
  decide (loop .ltpNew ∈ k ∧ k ≠ [loop .ltpNew] ∧ semWait .ltpSemMultiprogrammingLevel ∉ k)

/-! ### The text of the calls -/

/-- The first action of a call is followed by the rest of it, and only the suspension and the
long-term controller post `ltp_sem_multiprogramming_level` later than where they start. -/
def MoveText : List Action → Prop
  | a :: k => (∀ m, a.call = some m → m <+: a :: k) ∧
    (k.head? = some (semPost .ltpSemMultiprogrammingLevel) →
      (∃ p, a = assign p (.status .suspendedBlocked)) ∨ loop .ltpNew ∈ k) ∧
    (k.head? = some (semWait .ltpSemMultiprogrammingLevel) → loop .ltpNew ∈ k) ∧
    ∀ p, k.head? = some (assign p (.status .exit)) →
      (∃ q, a = exitMultiprogramming q) ∨ a = semPost .ltpSemMultiprogrammingLevel
  | [] => True

section Text

variable {cfg : KernelConfig} {a : Action} {k l : List Action} {ts : List (List Action)} {p : ℕ}

theorem move_flow (hc : cfg.algoritmoPlanificacion = .fifo) (hs : Shape cfg (a :: k))
    (hk : Suffixes MoveText (a :: k)) (h : Flow cfg a l ts) :
    Suffixes MoveText (l ++ k) ∧ ∀ t ∈ ts, Suffixes MoveText t := by
  obtain ⟨⟨-, h1, h2, h3⟩, h4⟩ := hk
  cases h
  case done => exact ⟨h4, by simp⟩
  case loop f => cases f <;> simp_all [Suffixes, MoveText, body]
  case callback t =>
    rcases t with ⟨t, _ | _, q⟩ <;> simp_all [Suffixes, MoveText, Timer.call]
  case noPageTable q =>
    simp only [Shape] at hs
    subst hs
    simp [Suffixes, MoveText]
  all_goals
    simp_all [Suffixes, MoveText, movePcbToReady, applyReply, dispatchTail]

theorem reach_moveText (hc : cfg.algoritmoPlanificacion = .fifo)
    {ok : Config Planner Action → ℕ × Outcome → Prop} {c₀ c : Config Planner Action} [Starts cfg ok c₀]
    (h : Reach (act cfg) ok c₀ c) : ∀ k ∈ c.threads, Suffixes MoveText k := by
  have hf : ∀ a k l ts, Suffixes (Shape cfg) (a :: k) ∧ Suffixes MoveText (a :: k) → Flow cfg a l ts →
      (Suffixes (Shape cfg) (l ++ k) ∧ Suffixes MoveText (l ++ k)) ∧
        ∀ t ∈ ts, Suffixes (Shape cfg) t ∧ Suffixes MoveText t := by
    intro a k l ts hk hf
    obtain ⟨h1, h2⟩ := shape_flow hk.1 hf
    obtain ⟨h3, h4⟩ := move_flow hc hk.1.self hk.2 hf
    exact ⟨⟨h1, h3⟩, fun t ht => ⟨h2 t ht, h4 t ht⟩⟩
  have h1 : ∀ k ∈ c.threads, Suffixes (Shape cfg) k ∧ Suffixes MoveText k := by
    refine Starts.inv (I := fun c => ∀ k ∈ c.threads, Suffixes (Shape cfg) k ∧ Suffixes MoveText k) h ?_ ?_ ?_
    · simp [start, Suffixes, Shape, MoveText]
    · exact fun _ _ _ _ _ _ hk _ hx => flow_threads hx hk ⟨trivial, trivial⟩ hf
    · exact fun _ _ _ _ _ _ _ hk hx => reuse_threads hx hk ⟨trivial, trivial⟩ hf
  exact fun k hk => (h1 k hk).2

/-- A thread that starts with what the first action of a call is to start with. -/
theorem isMove_of_prefix {m : List Action} (ha : a.call = some m) (hp : m <+: a :: k) : IsMove m := by
  refine isMove_iff.mpr ⟨a, ?_, ha⟩
  rcases m with _ | ⟨b, m⟩
  · unfold Action.call at ha
    split at ha <;> cases ha
  · rw [(List.cons_prefix_cons.mp hp).1]
    rfl

/-- A thread that starts with the first action of a call starts with the call. -/
theorem isMove_of_text {m : List Action} (h : MoveText (a :: k)) (ha : a.call = some m) :
    ∃ k', IsMove m ∧ a :: k = m ++ k' := by
  obtain ⟨k', hk'⟩ := h.1 m ha
  exact ⟨k', isMove_of_prefix ha (h.1 m ha), hk'.symm⟩

/-- A thread that is about to write a status other than `PCB_EXIT` starts with a call. -/
theorem not_status_of_text (h : MoveText (a :: k)) (hn : ∀ m k', IsMove m → a :: k ≠ m ++ k')
    {st : ProcessStatus} (hst : st ≠ .exit) : a ≠ assign p (.status st) := by
  rintro rfl
  obtain ⟨m, hm⟩ : ∃ m, (assign p (.status st)).call = some m := by
    cases st <;> first
      | exact ⟨_, rfl⟩
      | exact absurd rfl hst
  obtain ⟨k', hm', heq⟩ := isMove_of_text h hm
  exact hn m k' hm' heq

theorem not_exit_of_text (h : MoveText (a :: k)) (hn : ∀ m k', IsMove m → a :: k ≠ m ++ k') :
    a ≠ exitMultiprogramming p := by
  rintro rfl
  obtain ⟨k', hm', heq⟩ := isMove_of_text h rfl
  exact hn _ k' hm' heq

end Text

/-! ### What a call does -/

/-- The call with PCB `p` gives it the status `st` and posts `n` permits. -/
structure Moved (p : ℕ) (st : ProcessStatus) (n : ℕ) (s s' : Planner) : Prop where
  level : s'.sems .ltpSemMultiprogrammingLevel = s.sems .ltpSemMultiprogrammingLevel + n
  status : (s'.pcbs p).status = st
  others : ∀ q ≠ p, (s'.pcbs q).status = (s.pcbs q).status
  pcbId : s'.pcbId = s.pcbId
  halt : s'.halt = s.halt

/-- The steps of a call after its status is written. -/
def Action.trailing : Action → Bool
  | push _ _ | setExec _ | setSuspendTimer _ | startSuspendTimer _ _ => true
  | semPost m => m ≠ .ltpSemMultiprogrammingLevel
  | _ => false

section Alone

variable {cfg : KernelConfig} {a : Action} {o : Outcome} {k m : List Action} {ts : List (List Action)}
  {p q n : ℕ} {st : ProcessStatus} {s s' : Planner} {e : Effect Planner Action}

theorem act_trailing (ha : a.trailing = true) (h : act cfg a o s = some e) :
    e.state.sems .ltpSemMultiprogrammingLevel = s.sems .ltpSemMultiprogrammingLevel ∧
    (∀ q, (e.state.pcbs q).status = (s.pcbs q).status) ∧ e.state.pcbId = s.pcbId ∧
    e.state.halt = s.halt ∧ (∀ b ∈ e.next, b.trailing = true) ∧ ∀ t ∈ e.spawn, ∃ u, t = [timerSleep u] := by
  cases act_branch h
  case semPost m =>
    have hm : Sem.ltpSemMultiprogrammingLevel ≠ m := by
      rintro rfl
      cases ha
    simp [Function.update_of_ne hm]
  case setSuspendTimer r =>
    refine ⟨rfl, fun q => ?_, rfl, rfl, by simp [Action.trailing], by simp⟩
    by_cases hq : q = r
    · subst hq
      simp
    · simp [hq]
  case noSuspendTimer u r ho =>
    refine ⟨rfl, fun q => ?_, rfl, rfl, by simp, by simp⟩
    by_cases hq : q = r
    · subst hq
      simp
    · simp [hq]
  all_goals first
    | (cases ha; done)
    | simp

/-- The threads are those of timers that sleep. -/
def Sleeping (ts : List (List Action)) : Prop := ∀ t ∈ ts, ∃ u, t = [timerSleep u]

theorem alone_trailing (h : Alone (act cfg) TimerStarts k s s' ts) : (∀ b ∈ k, b.trailing = true) →
    s'.sems .ltpSemMultiprogrammingLevel = s.sems .ltpSemMultiprogrammingLevel ∧
    (∀ q, (s'.pcbs q).status = (s.pcbs q).status) ∧ s'.pcbId = s.pcbId ∧ s'.halt = s.halt ∧
    Sleeping ts := by
  induction h with
  | nil s => exact fun _ => ⟨rfl, fun _ => rfl, rfl, rfl, by simp [Sleeping]⟩
  | @cons a o s s' e k ts _ h _ _ ih =>
    intro hk
    obtain ⟨h1, h2, h3, h4, h5, h6⟩ := act_trailing (hk a List.mem_cons_self) h
    obtain ⟨h7, h8, h9, h10, h11⟩ := ih fun b hb => (List.mem_append.mp hb).elim (h5 b) fun hb =>
      hk b (List.mem_cons_of_mem a hb)
    exact ⟨h7.trans h1, fun q => (h8 q).trans (h2 q), h9.trans h3, h10.trans h4,
      fun t ht => (List.mem_append.mp ht).elim (h6 t) (h11 t)⟩

/-- A call that writes the status first. -/
theorem alone_assign (h : Alone (act cfg) TimerStarts (assign p (.status st) :: k) s s' ts)
    (hk : ∀ b ∈ k, b.trailing = true) : Moved p st 0 s s' ∧ Sleeping ts := by
  obtain _ | ⟨-, h1, -, h2⟩ := h
  cases act_branch h1
  obtain ⟨h3, h4, h5, h6, h7⟩ := alone_trailing h2 hk
  refine ⟨⟨h3, ?_, fun q hq => ?_, h5, h6⟩, by simpa [Sleeping] using h7⟩
  · rw [h4]
    simp [Pcb.assign]
  · rw [h4]
    simp [hq]

/-- `move_pcb_to_suspended_blocked`. -/
theorem alone_suspendedBlocked (h : Alone (act cfg) TimerStarts (movePcbToSuspendedBlocked p) s s' ts) :
    Moved p .suspendedBlocked 1 s s' ∧ Sleeping ts := by
  obtain _ | ⟨-, h1, -, h2⟩ := h
  cases act_branch h1
  obtain _ | ⟨-, h3, -, h4⟩ := h2
  cases act_branch h3
  obtain _ | h5 := h4
  refine ⟨⟨by simp, by simp [Pcb.assign], fun q hq => by simp [hq], rfl, rfl⟩, by simp [Sleeping]⟩

theorem counted_iff : s.counted p = true ↔
    (s.pcbs p).status = .exec ∨ (s.pcbs p).status = .ready ∨ (s.pcbs p).status = .blocked := by
  unfold Planner.counted
  cases (s.pcbs p).status <;> simp [counts]

/-- `move_pcb_to_exit` posts a permit for a PCB that counts. -/
theorem alone_exit (h : Alone (act cfg) TimerStarts (movePcbToExit p) s s' ts) :
    Moved p .exit (s.counted p).toNat s s' ∧ Sleeping ts := by
  have hk : ∀ b ∈ [push .exit p, semPost .ltpSemExit], b.trailing = true := by simp [Action.trailing]
  obtain _ | ⟨-, h1, -, h2⟩ := h
  cases act_branch h1
  case cons.freesLevel hc =>
    rw [← counted_iff] at hc
    obtain _ | ⟨-, h3, -, h4⟩ := h2
    cases act_branch h3
    obtain ⟨⟨h5, h6, h7, h8, h9⟩, h10⟩ := alone_assign h4 hk
    refine ⟨⟨?_, h6, fun q hq => h7 q hq, h8, h9⟩, by simpa [Sleeping] using h10⟩
    rw [h5, hc]
    simp
  case cons.keepsLevel hc =>
    rw [← counted_iff] at hc
    obtain ⟨⟨h5, h6, h7, h8, h9⟩, h10⟩ := alone_assign h2 hk
    refine ⟨⟨?_, h6, fun q hq => h7 q hq, h8, h9⟩, by simpa [Sleeping] using h10⟩
    rw [h5, Bool.eq_false_iff.mpr hc]
    simp

end Alone

/-! ### How many processes count -/

theorem card_filter_update {r : Finset ℕ} {f g : ℕ → Bool} {p : ℕ} (hp : p ∈ r)
    (h : ∀ q ≠ p, f q = g q) : (r.filter fun q => f q = true).card + (g p).toNat =
      (r.filter fun q => g q = true).card + (f p).toNat := by
  have h1 : (r.filter fun q => f q = true).erase p = (r.filter fun q => g q = true).erase p := by
    ext q
    simp only [Finset.mem_erase, Finset.mem_filter]
    constructor <;> rintro ⟨hq, h2, h3⟩ <;> simp_all
  have h2 : ∀ u : ℕ → Bool, (r.filter fun q => u q = true).card =
      ((r.filter fun q => u q = true).erase p).card + (u p).toNat := fun u => by
    rcases hu : u p
    · rw [Finset.erase_eq_of_notMem (by simp [hu])]
      rfl
    · rw [← Finset.card_erase_add_one (a := p) (by simp [hp, hu])]
      rfl
  rw [h2 f, h2 g, h1]
  omega

section Count

variable {cfg : KernelConfig} {a : Action} {o : Outcome} {p n : ℕ} {st : ProcessStatus} {s s' : Planner}
  {e : Effect Planner Action}

theorem multiprogrammed_congr (hid : s'.pcbId = s.pcbId) (h : ∀ q, s'.counted q = s.counted q) :
    multiprogrammed s' = multiprogrammed s := by
  unfold multiprogrammed
  rw [hid]
  exact congrArg _ (Finset.filter_congr fun q _ => by rw [h q])

/-- A process that is created does not count. -/
theorem multiprogrammed_new (hid : s'.pcbId = s.pcbId + 1) (hnew : s'.counted (s.pcbId + 1) = false)
    (h : ∀ q ≠ s.pcbId + 1, (s'.pcbs q).status = (s.pcbs q).status) :
    multiprogrammed s' = multiprogrammed s := by
  have h1 : Finset.Icc 1 (s.pcbId + 1) = insert (s.pcbId + 1) (Finset.Icc 1 s.pcbId) := by
    ext q
    simp only [Finset.mem_Icc, Finset.mem_insert]
    omega
  unfold multiprogrammed
  rw [hid, h1, Finset.filter_insert, if_neg (by simp [hnew])]
  refine congrArg _ (Finset.filter_congr fun q hq => ?_)
  have hq' : q ≠ s.pcbId + 1 := by
    have := (Finset.mem_Icc.mp hq).2
    omega
  rw [Planner.counted, h q hq', Planner.counted]

/-- A call changes the count by its PCB alone. -/
theorem Moved.multiprogrammed (h : Moved p st n s s') (hp : p ∈ Finset.Icc 1 s.pcbId ∨ s.counted p = counts st) :
    multiprogrammed s' + (s.counted p).toNat = multiprogrammed s + (counts st).toNat := by
  have h1 : s'.counted p = counts st := by rw [Planner.counted, h.status]
  have h2 : ∀ q ≠ p, s'.counted q = s.counted q := fun q hq => by
    rw [Planner.counted, h.others q hq, Planner.counted]
  rcases hp with hp | hp
  · have h3 := card_filter_update hp h2
    rw [h1] at h3
    unfold Kernel.multiprogrammed
    rw [h.pcbId]
    exact h3
  · rw [hp, multiprogrammed_congr h.pcbId fun q => ?_]
    by_cases hq : q = p
    · rw [hq, h1, hp]
    · exact h2 q hq

/-- A call that posts what its PCB gives up, and only that. -/
theorem Moved.conserved (h : Moved p st n s s') (hp : p ∈ Finset.Icc 1 s.pcbId ∨ s.counted p = counts st)
    (hn : n + (counts st).toNat = (s.counted p).toNat) :
    s'.sems .ltpSemMultiprogrammingLevel + Kernel.multiprogrammed s' =
      s.sems .ltpSemMultiprogrammingLevel + Kernel.multiprogrammed s := by
  have h1 := h.multiprogrammed hp
  rw [h.level]
  omega

/-- What is no call changes neither the permits nor the count, but for the semaphore itself. -/
theorem act_level (h : act cfg a o s = some e) (h1 : a ≠ semWait .ltpSemMultiprogrammingLevel)
    (h2 : a ≠ semPost .ltpSemMultiprogrammingLevel) (h3 : ∀ p st, a ≠ assign p (.status st)) :
    e.state.sems .ltpSemMultiprogrammingLevel = s.sems .ltpSemMultiprogrammingLevel ∧
      multiprogrammed e.state = multiprogrammed s := by
  constructor
  · cases act_branch h
    case semWait m hm | semPost m =>
      refine Function.update_of_ne ?_ _ _
      rintro rfl
      contradiction
    all_goals simp
  · by_cases hn : ∃ prog, a = ltpNewProcess prog
    · obtain ⟨prog, rfl⟩ := hn
      cases act_branch h
      exact multiprogrammed_new rfl (by simp [Planner.counted, counts]) fun q hq => by simp [hq]
    · refine multiprogrammed_congr ?_ fun q => ?_
      · cases act_branch h
        case ltpNewProcess prog => exact absurd ⟨prog, rfl⟩ hn
        all_goals rfl
      · rcases act_status q h with h4 | ⟨st, h4, -⟩ | ⟨prog, h4, -⟩
        · rw [Planner.counted, h4, Planner.counted]
        · exact absurd h4 (h3 q st)
        · exact absurd ⟨prog, h4⟩ hn

end Count

/-! ### The threads between the calls -/

/-- What is left of the long-term controller's loop where no call is half done. -/
inductive LongTermPoint : List Action → Prop
  | loop : LongTermPoint [loop .ltpNew]
  | waits : LongTermPoint (body .ltpNew)
  | waitsLevel : LongTermPoint
      [semWait .ltpSemMultiprogrammingLevel, haltBreak, newIfSuspendedReady, Action.loop .ltpNew]
  | holds : LongTermPoint [haltBreak, newIfSuspendedReady, Action.loop .ltpNew]
  | looks : LongTermPoint [newIfSuspendedReady, Action.loop .ltpNew]
  | looksNew : LongTermPoint [newIfNew, Action.loop .ltpNew]
  | popsSuspended : LongTermPoint [popSuspendedReady, Action.loop .ltpNew]
  | pops : LongTermPoint [popNew, Action.loop .ltpNew]
  | asks (p) : LongTermPoint [getEntryPageTable p, Action.loop .ltpNew]
  | assigns (p n) : LongTermPoint [assign p (.tablaPaginas n), checkPageTable p, Action.loop .ltpNew]
  | checks (p) : LongTermPoint [checkPageTable p, Action.loop .ltpNew]
  | readies (p) : LongTermPoint (movePcbToReadyFifo p ++ [Action.loop .ltpNew])
  | discards (p) : LongTermPoint
      (exitWithError p ++ [semPost .ltpSemMultiprogrammingLevel, Action.loop .ltpNew])
  | exits (p) : LongTermPoint
      (movePcbToExit p ++ [semPost .ltpSemMultiprogrammingLevel, Action.loop .ltpNew])
  | posts : LongTermPoint [semPost .ltpSemMultiprogrammingLevel, Action.loop .ltpNew]

/-- The steps that no other thread does between the calls. -/
def Action.levels : Action → Bool
  | semPost .ltpSemMultiprogrammingLevel | semWait .ltpSemMultiprogrammingLevel
  | assign _ (.status .exit) => true
  | _ => false

/-- No call is half done in the thread. -/
structure AtCall (k : List Action) : Prop where
  longTerm : loop .ltpNew ∈ k → LongTermPoint k
  others : loop .ltpNew ∉ k → ∀ b ∈ k.head?, b.levels = false

theorem atCall_of_head {k : List Action} (h1 : loop .ltpNew ∉ k) (h2 : ∀ b ∈ k.head?, b.levels = false) :
    AtCall k := ⟨fun h => absurd h h1, fun _ => h2⟩

section Points

variable {cfg : KernelConfig} {a : Action} {o : Outcome} {k m : List Action} {s : Planner} {p : ℕ}
  {e : Effect Planner Action}

/-- Only `move_pcb_to_exit` leads to a step on the level. -/
theorem levels_head {l : List Action} {ts : List (List Action)} (h : Flow cfg a l ts)
    (ha : ∀ p, a ≠ exitMultiprogramming p) :
    (∀ b ∈ l.head?, b.levels = false) ∧ ∀ t ∈ ts, ∀ b ∈ t.head?, b.levels = false := by
  cases h
  case loop f => cases f <;> simp [body, Action.levels]
  case callback t => rcases t with ⟨t, _ | _, q⟩ <;> simp [Timer.call, Action.levels]
  case exitMultiprogramming q => exact absurd rfl (ha q)
  case takeExec r q => unfold applyReply; split <;> simp [Action.levels]
  case switchReady | unblockReady | popSuspendedReady | pageTable =>
    unfold movePcbToReady
    split <;> simp [Action.levels]
  all_goals simp [Action.levels]

/-- A step that is no call starts and ends between calls. -/
theorem atCall_act (hc : cfg.algoritmoPlanificacion = .fifo) (hk : AtCall (a :: k))
    (ht : MoveText (a :: k)) (hn : ∀ m k', IsMove m → a :: k ≠ m ++ k') (h : act cfg a o s = some e) :
    AtCall (e.rest k) ∧ ∀ t ∈ e.spawn, AtCall t := by
  have hex : ∀ p, a ≠ exitMultiprogramming p := fun p => not_exit_of_text ht hn
  have hst : ∀ p st, st ≠ .exit → a ≠ assign p (.status st) := fun p st => not_status_of_text ht hn
  obtain ⟨h1, h2⟩ := loop_mem_flow (f := .ltpNew) (act_flow h)
  obtain ⟨h3, h4⟩ := levels_head (act_flow h) hex
  refine ⟨?_, fun t ht => atCall_of_head (h2 t ht) (h4 t ht)⟩
  by_cases hstop : e.stop = true
  · rw [Effect.rest, if_pos hstop]
    exact atCall_of_head (by simp) (by simp)
  rw [Effect.rest, if_neg hstop]
  have hloop : loop .ltpNew ∈ e.next ++ k → loop .ltpNew ∈ a :: k := fun hl => by
    rcases List.mem_append.mp hl with hl | hl
    · simp [h1 hl]
    · exact List.mem_cons_of_mem _ hl
  refine ⟨fun hl => ?_, fun hl b hb => ?_⟩
  · have hp := hk.longTerm (hloop hl)
    cases hp
    case readies q => exact absurd rfl (hn (movePcbToReadyFifo q) [loop .ltpNew] ⟨q, by simp [moves]⟩)
    case exits q => exact absurd rfl (hn (movePcbToExit q) _ ⟨q, by simp [moves]⟩)
    all_goals
      cases act_branch h
      all_goals first
        | exact absurd rfl hstop
        | (simp only [movePcbToReady, hc]; constructor)
  · rcases hne : e.next with _ | ⟨d, n⟩ <;> rw [hne] at hl hb
    · -- what follows `a` is no second half of a call
      have hb' : k.head? = some b := hb
      by_contra hlev
      rw [Bool.not_eq_false] at hlev
      unfold Action.levels at hlev
      split at hlev
      · rcases ht.2.1 hb' with ⟨q, hq⟩ | h5
        · exact hst q _ (by simp) hq
        · exact hl h5
      · exact hl (ht.2.2.1 hb')
      · rename_i q
        rcases ht.2.2.2 q hb' with ⟨r, hr⟩ | hr
        · exact hex r hr
        · subst hr
          have h5 := hk.others (by simpa using hl) _ rfl
          cases h5
      · cases hlev
    · exact h3 b (by rw [hne]; exact hb)

/-- A call ends between calls. -/
theorem atCall_move (hs : Suffixes (Shape cfg) (m ++ k)) (ht : Suffixes MoveText (m ++ k))
    (hm : m ∈ moves p) (hk : AtCall (m ++ k)) : AtCall k := by
  refine ⟨fun hl => ?_, fun hl b hb => ?_⟩
  · have hp := hk.longTerm (List.mem_append_right m hl)
    simp only [moves, List.mem_cons, List.not_mem_nil, or_false] at hm
    rcases hm with rfl | rfl | rfl | rfl | rfl | rfl | rfl <;> cases hp
    · exact .loop
    · exact .posts
  · have hb' : k.head? = some b := hb
    by_contra hlev
    rw [Bool.not_eq_false] at hlev
    simp only [moves, List.mem_cons, List.not_mem_nil, or_false] at hm
    unfold Action.levels at hlev
    rcases hm with rfl | rfl | rfl | rfl | rfl | rfl | rfl
    all_goals
      simp only [movePcbToNew, movePcbToReadyFifo, movePcbToExec, movePcbToExit, movePcbToBlocked,
        mtpPlanPcb, movePcbToSuspendedBlocked, movePcbToSuspendedReady, List.cons_append,
        List.nil_append, Suffixes, MoveText, Shape] at ht hs
      split at hlev
    any_goals (simp_all; done)
    -- the suspension unlocks the mutex after its post
    obtain ⟨⟨t, heq⟩, -⟩ := hs
    cases heq
    cases hb'

end Points

section Reach

variable {cfg : KernelConfig} {c₀ c c' : Config Planner Action} {k l m : List Action}
  {ts : List (List Action)} {p : ℕ} {s' : Planner} [Frees cfg (Allows TimerStarts) c₀]

theorem moved_of_alone (hm : m ∈ moves p) {s : Planner} (h : Alone (act cfg) TimerStarts m s s' ts) :
    ∃ st n, Moved p st n s s' ∧ Sleeping ts := by
  simp only [moves, List.mem_cons, List.not_mem_nil, or_false] at hm
  rcases hm with rfl | rfl | rfl | rfl | rfl | rfl | rfl
  case inr.inr.inr.inl => exact ⟨_, _, alone_exit h⟩
  case inr.inr.inr.inr.inr.inl => exact ⟨_, _, alone_suspendedBlocked h⟩
  all_goals exact ⟨_, _, alone_assign h (by simp [Action.trailing])⟩

theorem atCall_start : ∀ k ∈ (start cfg).threads, AtCall k := by
  intro k hk
  simp only [start, List.mem_cons, List.not_mem_nil, or_false] at hk
  rcases hk with rfl | rfl | rfl | rfl | rfl
  · exact ⟨fun _ => .loop, by simp⟩
  all_goals exact atCall_of_head (by simp) (by simp [Action.levels])

theorem moveRun_atCall (hc : cfg.algoritmoPlanificacion = .fifo) (h0 : ∀ k ∈ c₀.threads, AtCall k)
    (h : MoveRun cfg c₀ c) : ∀ k ∈ c.threads, AtCall k := by
  induction h with
  | start => exact h0
  | @step c c' x hr hn ho hx ih =>
    obtain ⟨a, k, e, hk, he, rfl⟩ := step_some hx
    have hm := List.mem_of_getElem? hk
    have ht := (reach_moveText hc hr.reach _ hm).self
    obtain ⟨h1, h2⟩ := atCall_act hc (ih _ hm) ht (fun m k' hm heq => hn m k' hm (by rw [hk, heq])) he
    intro k' hk'
    rcases mem_threads hk' with ⟨j, -, hj⟩ | rfl | hs
    · exact ih _ (List.mem_of_getElem? hj)
    · exact h1
    · exact h2 _ hs
  | @call c s i m k ts hr hm hi ha ih =>
    obtain ⟨p, hp⟩ := hm
    have hmem := List.mem_of_getElem? hi
    have h1 := atCall_move (reach_shape hr.reach _ hmem) (reach_moveText hc hr.reach _ hmem) hp (ih _ hmem)
    intro k' hk'
    rcases List.mem_append.mp hk' with hk' | hk'
    · rcases List.mem_or_eq_of_mem_set hk' with hk' | rfl
      · exact ih k' hk'
      · exact h1
    · obtain ⟨-, -, -, hsl⟩ := moved_of_alone hp ha
      obtain ⟨u, rfl⟩ := hsl k' hk'
      exact atCall_of_head (by simp) (by simp [Action.levels])

/-! ### The conservation -/

theorem hasPermit_of_not_loop (h : loop .ltpNew ∉ k) : HasPermit k = false := by
  simp [HasPermit, h]

/-- A step that is no call. -/
theorem conserved_act (hc : cfg.algoritmoPlanificacion = .fifo) (h0 : ∀ k ∈ c₀.threads, AtCall k)
    (hr : MoveRun cfg c₀ c) {i : ℕ} {a : Action} {o : Outcome} {e : Effect Planner Action} (hk : c.threads[i]? = some (a :: k))
    (hn : ∀ m k', IsMove m → a :: k ≠ m ++ k') (he : act cfg a o c.state = some e)
    (hh : e.state.halt = false) :
    e.state.sems .ltpSemMultiprogrammingLevel + multiprogrammed e.state + (HasPermit (e.rest k)).toNat =
      c.state.sems .ltpSemMultiprogrammingLevel + multiprogrammed c.state + (HasPermit (a :: k)).toNat := by
  have hm := List.mem_of_getElem? hk
  have hat := moveRun_atCall hc h0 hr _ hm
  have hs := act_halt he hh
  -- the controller finds what it looks for
  have hpop := (reach_announced hr.reach).pops .suspendedReady _ hm
  have hpop' := (reach_announced hr.reach).pops .new _ hm
  have hnew := (reach_announced hr.reach).new _ hm
  by_cases hl : loop .ltpNew ∈ a :: k
  · have hp := hat.longTerm hl
    cases hp
    case readies q => exact absurd rfl (hn (movePcbToReadyFifo q) [loop .ltpNew] ⟨q, by simp [moves]⟩)
    case exits q => exact absurd rfl (hn (movePcbToExit q) _ ⟨q, by simp [moves]⟩)
    case waitsLevel =>
      have hpos : c.state.sems .ltpSemMultiprogrammingLevel ≠ 0 := by
        cases act_branch he
        assumption
      cases act_branch he
      have h1 : multiprogrammed (c.state.setSem .ltpSemMultiprogrammingLevel
        (c.state.sems .ltpSemMultiprogrammingLevel - 1)) = multiprogrammed c.state := rfl
      rw [h1]
      simp only [Effect.rest, HasPermit, Planner.setSem, Function.update_self]
      simp
      omega
    case posts =>
      cases act_branch he
      have h1 : multiprogrammed (c.state.setSem .ltpSemMultiprogrammingLevel
        (c.state.sems .ltpSemMultiprogrammingLevel + 1)) = multiprogrammed c.state := rfl
      rw [h1]
      simp [Effect.rest, HasPermit]
      omega
    all_goals
      obtain ⟨h1, h2⟩ := act_level he (by simp) (by simp) (by simp)
      rw [h1, h2]
      congr 2
      cases act_branch he
      all_goals first
        | (simp [Effect.rest, HasPermit, body, movePcbToReady, hc]; done)
        | simp_all [Effect.rest, HasPermit, Queue.pop]
  · have hothers := hat.others hl a rfl
    have hst : ∀ p st, a ≠ assign p (.status st) := fun p st => by
      by_cases h : st = .exit
      · rintro rfl
        subst h
        cases hothers
      · exact not_status_of_text (reach_moveText hc hr.reach _ hm).self hn h
    obtain ⟨h1, h2⟩ := act_level he (by rintro rfl; cases hothers) (by rintro rfl; cases hothers) hst
    have h3 : loop .ltpNew ∉ e.rest k := by
      unfold Effect.rest
      split
      · simp
      · intro h4
        rcases List.mem_append.mp h4 with h4 | h4
        · exact hl (by simp [(loop_mem_flow (act_flow he)).1 h4])
        · exact hl (List.mem_cons_of_mem _ h4)
    rw [h1, h2, hasPermit_of_not_loop hl, hasPermit_of_not_loop h3]

/-- A call. -/
theorem conserved_move (hc : cfg.algoritmoPlanificacion = .fifo) (h0 : ∀ k ∈ c₀.threads, AtCall k)
    (hr : MoveRun cfg c₀ c) {i : ℕ} (hm : m ∈ moves p) (hi : c.threads[i]? = some (m ++ k))
    (ha : Alone (act cfg) TimerStarts m c.state s' ts) :
    s'.sems .ltpSemMultiprogrammingLevel + multiprogrammed s' + (HasPermit k).toNat =
      c.state.sems .ltpSemMultiprogrammingLevel + multiprogrammed c.state + (HasPermit (m ++ k)).toNat := by
  have hmem := List.mem_of_getElem? hi
  have hat := moveRun_atCall hc h0 hr _ hmem
  have hS := reach_standing (p := p) hc hr.reach
  -- the long-term controller only calls the two functions that take a PCB from it
  have hperm : m ≠ movePcbToReadyFifo p → m ≠ movePcbToExit p →
      HasPermit k = false ∧ HasPermit (m ++ k) = false := fun h1 h2 => by
    have h3 : loop .ltpNew ∉ m ++ k := fun hl => by
      have hp := hat.longTerm hl
      simp only [moves, List.mem_cons, List.not_mem_nil, or_false] at hm
      rcases hm with rfl | rfl | rfl | rfl | rfl | rfl | rfl <;> cases hp <;> simp at h1 h2
    exact ⟨hasPermit_of_not_loop fun h4 => h3 (List.mem_append_right _ h4), hasPermit_of_not_loop h3⟩
  simp only [moves, List.mem_cons, List.not_mem_nil, or_false] at hm
  rcases hm with rfl | rfl | rfl | rfl | rfl | rfl | rfl
  case inl =>
    have hw := (hS.writes hc hr.reach (show assign p (.status .new) :: _ ∈ c.threads from hmem)
      (by simp)).2 (le_refl 1)
    obtain ⟨h1, h2⟩ := hperm (by simp) (by simp)
    rw [h1, h2, (alone_assign ha (by simp [Action.trailing])).1.conserved (Or.inr hw) (by rw [hw]; rfl)]
  case inr.inl =>
    have h := (alone_assign ha (by simp [Action.trailing])).1
    have h1 := hS.readies _ hmem rfl
    by_cases hl : loop .ltpNew ∈ movePcbToReadyFifo p ++ k
    · -- the permit goes with the PCB
      obtain rfl : k = [loop .ltpNew] := by
        have hp := hat.longTerm hl
        cases hp
        rfl
      have h2 := h.multiprogrammed (Or.inl (created_of_ready hc hr.reach hmem))
      rw [Bool.eq_false_iff.mpr (mt h1.mp (not_not.mpr hl))] at h2
      simp only [counts, Bool.toNat_true, Bool.toNat_false] at h2
      rw [h.level]
      simp [HasPermit]
      omega
    · have hw := h1.mpr hl
      rw [hasPermit_of_not_loop hl, hasPermit_of_not_loop fun h3 => hl (List.mem_append_right _ h3),
        h.conserved (Or.inr hw) (by rw [hw]; rfl)]
  case inr.inr.inl =>
    have hw := (hS.writes hc hr.reach (show assign p (.status .exec) :: _ ∈ c.threads from hmem)
      (by simp)).1 (le_refl 1)
    obtain ⟨h1, h2⟩ := hperm (by simp) (by simp)
    rw [h1, h2, (alone_assign ha (by simp [Action.trailing])).1.conserved (Or.inr hw) (by rw [hw]; rfl)]
  case inr.inr.inr.inl =>
    have h := (alone_exit ha).1
    have h1 : HasPermit (movePcbToExit p ++ k) = HasPermit k := by
      by_cases hl : loop .ltpNew ∈ movePcbToExit p ++ k
      · -- the permit is still to be posted
        have hp := hat.longTerm hl
        cases hp
        simp [HasPermit]
      · rw [hasPermit_of_not_loop hl, hasPermit_of_not_loop fun h3 => hl (List.mem_append_right _ h3)]
    rw [h1]
    rcases hw : c.state.counted p
    · rw [h.conserved (Or.inr hw) rfl]
    · rw [h.conserved (Or.inl (created_of_counted hc hr.reach hw)) rfl]
  case inr.inr.inr.inr.inl =>
    have hw := (hS.writes hc hr.reach (show assign p (.status .blocked) :: _ ∈ c.threads from hmem)
      (by simp)).1 (le_refl 1)
    obtain ⟨h1, h2⟩ := hperm (by simp) (by simp)
    rw [h1, h2, (alone_assign ha (by simp [Action.trailing])).1.conserved (Or.inr hw) (by rw [hw]; rfl)]
  case inr.inr.inr.inr.inr.inl =>
    obtain ⟨t, ht⟩ := suspending_of_assign hr.reach hmem
    have hw : c.state.counted p = true := by
      rw [Planner.counted, (hS.suspends _ hmem t ht).1]
      rfl
    obtain ⟨h1, h2⟩ := hperm (by simp) (by simp)
    rw [h1, h2,
      (alone_suspendedBlocked ha).1.conserved (Or.inl (created_of_counted hc hr.reach hw)) (by rw [hw]; rfl)]
  case inr.inr.inr.inr.inr.inr =>
    have hw := (hS.writes hc hr.reach (show assign p (.status .suspendedReady) :: _ ∈ c.threads from hmem)
      (by simp)).2 (le_refl 1)
    obtain ⟨h1, h2⟩ := hperm (by simp) (by simp)
    rw [h1, h2, (alone_assign ha (by simp [Action.trailing])).1.conserved (Or.inr hw) (by rw [hw]; rfl)]

/-- One thread at most has a permit. -/
theorem countP_hasPermit (hr : MoveRun cfg c₀ c) :
    c.threads.countP HasPermit = if ∃ k ∈ c.threads, HasPermit k = true then 1 else 0 := by
  by_cases hex : ∃ k ∈ c.threads, HasPermit k = true
  · obtain ⟨k, hk, hp⟩ := hex
    obtain ⟨i, hi⟩ := List.mem_iff_getElem?.mp hk
    rw [if_pos ⟨k, hk, hp⟩, countP_unique hi fun j l hj hl => ?_, if_pos hp]
    have h1 : ∀ {m}, HasPermit m = true → loop .ltpNew ∈ m := fun h => (of_decide_eq_true h).1
    exact loop_unique hr.reach hj hi (h1 hl) (h1 hp)
  · rw [if_neg hex, List.countP_eq_zero.mpr fun k hk hp => hex ⟨k, hk, hp⟩]

/-- The permits, the PCBs whose status counts and the permit of the controller are the degree. -/
def Level (cfg : KernelConfig) (c : Config Planner Action) : Prop :=
  c.state.sems .ltpSemMultiprogrammingLevel + multiprogrammed c.state + c.threads.countP HasPermit =
    cfg.gradoMultiprogramacion

theorem level_run (hc : cfg.algoritmoPlanificacion = .fifo) (h0 : ∀ k ∈ c₀.threads, AtCall k)
    (hl : c₀.state.halt = false → Level cfg c₀) (h : MoveRun cfg c₀ c) (hh : c.state.halt = false) :
    Level cfg c := by
  induction h with
  | start => exact hl hh
  | @step c c' x hr hn ho hx ih =>
    obtain ⟨a, k, e, hk, he, rfl⟩ := step_some hx
    have h1 := conserved_act hc h0 hr hk (fun m k' hm heq => hn m k' hm (by rw [hk, heq])) he hh
    have h2 := countP_set HasPermit (e.rest k) hk
    have h3 : e.spawn.countP HasPermit = 0 := List.countP_eq_zero.mpr fun t ht hp => by
      rw [hasPermit_of_not_loop ((loop_mem_flow (act_flow he)).2 t ht)] at hp
      cases hp
    have h4 := ih (act_halt he hh)
    unfold Level at h4 ⊢
    show e.state.sems _ + _ + (c.threads.set x.1 (e.rest k) ++ e.spawn).countP HasPermit = _
    rw [List.countP_append, h3]
    show e.state.sems _ + multiprogrammed e.state + _ = _
    omega
  | @call c s i m k ts hr hm hi ha ih =>
    obtain ⟨p, hp⟩ := hm
    obtain ⟨st, n, hmv, hsl⟩ := moved_of_alone hp ha
    have h1 := conserved_move hc h0 hr hp hi ha
    have h2 := countP_set HasPermit k hi
    have h3 : ts.countP HasPermit = 0 := List.countP_eq_zero.mpr fun t ht hpt => by
      obtain ⟨u, rfl⟩ := hsl t ht
      rw [hasPermit_of_not_loop (by simp)] at hpt
      cases hpt
    have h4 := ih (by rw [← hmv.halt]; exact hh)
    unfold Level at h4 ⊢
    show s.sems _ + multiprogrammed s + (c.threads.set i k ++ ts).countP HasPermit = _
    rw [List.countP_append, h3]
    omega

/-- A process in memory that nobody has. -/
theorem level_reuse {x : ℕ × Outcome} {q : ℕ} (hat : ∀ k ∈ c.threads, AtCall k) (hq : Released q c)
    (hx : Threads.step (actReuse cfg q) c x = some c') :
    (∀ k ∈ c'.threads, AtCall k) ∧ (Level cfg c → Level cfg c') := by
  obtain ⟨a, k, e, hk, he, rfl⟩ := step_some hx
  obtain ⟨-, prog, rfl, rfl⟩ := actReuse_some he
  have h1 : loop .ltpNew ∉ ltpNewProcess prog :: k := fun hl => by
    have h2 := (hat _ (List.mem_of_getElem? hk)).longTerm hl
    cases h2
  have h2 : loop .ltpNew ∉ movePcbToNew q ++ k := fun hl => h1 (by simpa using hl)
  refine ⟨fun k' hk' => ?_, fun hl => ?_⟩
  · rcases mem_threads hk' with ⟨j, -, hj⟩ | rfl | hk'
    · exact hat _ (List.mem_of_getElem? hj)
    · exact atCall_of_head h2 (by simp [Effect.rest, Action.levels])
    · cases hk'
  · have h3 := countP_set HasPermit (movePcbToNew q ++ k) hk
    rw [hasPermit_of_not_loop h1, hasPermit_of_not_loop h2] at h3
    have h4 : multiprogrammed (c.state.recreate cfg prog q) = multiprogrammed c.state :=
      multiprogrammed_congr rfl fun r => by
        by_cases hr : r = q
        · subst hr
          simp [Planner.counted, Planner.recreate, newPcb, hq.status, counts]
        · simp [Planner.counted, Planner.recreate, hr]
    have h5 : (c.state.recreate cfg prog q).sems = c.state.sems := rfl
    unfold Level at hl ⊢
    simp only [Effect.rest, Bool.false_eq_true, if_false, List.append_nil]
    rw [h4, h5, ← hl]
    omega

omit [Frees cfg (Allows TimerStarts) c₀] in
/-- Where a part of a run begins, no call is half done and no permit was lost. -/
theorem begins_level (hc : cfg.algoritmoPlanificacion = .fifo) (hb : Begins cfg (MoveRun cfg) Released c₀) :
    Frees cfg (Allows TimerStarts) c₀ ∧ (∀ k ∈ c₀.threads, AtCall k) ∧ (c₀.state.halt = false → Level cfg c₀) := by
  induction hb with
  | start => exact ⟨inferInstance, atCall_start, fun _ => rfl⟩
  | @reuse c₀ c c' x q hb hr hq hx ih =>
    obtain ⟨hf, hat, hl⟩ := ih
    obtain ⟨h1, h2⟩ := level_reuse (moveRun_atCall hc hat hr) hq hx
    refine ⟨⟨.reuse hf.begins hr.reach hq hx⟩, h1, fun hh => h2 (level_run hc hat hl hr ?_)⟩
    obtain ⟨a, k, e, hk, he, rfl⟩ := step_some hx
    obtain ⟨-, prog, rfl, rfl⟩ := actReuse_some he
    exact hh

omit [Frees cfg (Allows TimerStarts) c₀] in
/-- No interleaving of the calls loses or makes a permit, where memory is taken again only of PCBs
that nobody has. -/
theorem moveRun_conserved (hc : cfg.algoritmoPlanificacion = .fifo) (hb : Begins cfg (MoveRun cfg) Released c₀)
    (h : MoveRun cfg c₀ c) (hh : c.state.halt = false) :
    c.state.sems .ltpSemMultiprogrammingLevel + multiprogrammed c.state +
        (if ∃ k ∈ c.threads, HasPermit k = true then 1 else 0) = cfg.gradoMultiprogramacion ∧
      multiprogrammed c.state ≤ cfg.gradoMultiprogramacion := by
  obtain ⟨hf, hat, hl⟩ := begins_level hc hb
  have h1 := level_run hc hat hl h hh
  unfold Level at h1
  rw [countP_hasPermit h] at h1
  exact ⟨h1, by omega⟩

end Reach

/-! ### Runs, evaluated -/

/-- `TimerStarts`, evaluated. -/
def checkTimerStarts : Action → Outcome → Bool
  | startSuspendTimer _ _, o | startBlockedTimer _ _, o => o = .ok
  | _, _ => true

theorem timerStarts_of_check (a : Action) (o : Outcome) (h : checkTimerStarts a o = true) :
    TimerStarts a o := by
  constructor <;>
  · rintro t p rfl
    simpa [checkTimerStarts] using h

/-- The call a thread starts with, and what follows it. -/
def splitCall : List Action → Option (List Action × List Action)
  | [] => none
  | a :: k => a.call.bind fun m => if m <+: a :: k then some (m, (a :: k).drop m.length) else none

theorem splitCall_some {t m k : List Action} (h : splitCall t = some (m, k)) : IsMove m ∧ t = m ++ k := by
  rcases t with _ | ⟨a, t⟩
  · cases h
  obtain ⟨m', hm, h1⟩ := Option.bind_eq_some_iff.mp h
  split at h1
  · rename_i hp
    have h2 := isMove_of_prefix hm hp
    obtain ⟨k', hk'⟩ := hp
    rw [← hk', List.drop_left] at h1
    cases h1
    exact ⟨h2, hk'.symm⟩
  · cases h1

theorem splitCall_none {t m k : List Action} (h : splitCall t = none) (hm : IsMove m) : t ≠ m ++ k := by
  rintro rfl
  obtain ⟨a, ha, hc⟩ := isMove_iff.mp hm
  obtain ⟨m', rfl⟩ := List.head?_eq_some_iff.mp ha
  have hp : a :: m' <+: a :: (m' ++ k) := List.prefix_append (a :: m') k
  rw [List.cons_append, splitCall, hc, Option.bind_some, if_pos hp] at h
  cases h

end Kernel
end Kiss
