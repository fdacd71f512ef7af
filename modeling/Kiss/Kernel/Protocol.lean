/-
# What the kernel asks the CPU and the memory module

The calls that the kernel makes about each process, in every order of its threads: the
memory module is asked for the tables of a process once and before anything else, one PCB at
a time is at the CPU, no process is suspended or finished while its PCB is there, and once
the memory of a process is freed there is no further call about it (`trace_session`). It is
what the CPU and the memory module rely on.

It holds of the runs in which no swap fails, no suspension timer is cancelled after it has read
its flag, no I/O timer fails to start while a suspension timer can still use the PCB, and the
answer of the CPU is not lost: where the reception fails the kernel finishes a process that
the CPU still executes (`not_session`).

Key definitions: `Call`, `Session`, `Session.next`, `Recieves`, `Linked`.
Key theorems: `reach_oneAtCpu`, `trace_linked`, `trace_session`.
-/
import Kiss.Kernel.InOrder
import Kiss.Kernel.Ownership
import Kiss.Kernel.Results
import Kiss.Kernel.Status

namespace Kiss
namespace Kernel

open Kernel.Action Place Threads

/-! ### The calls -/

/-- A call to another module. -/
inductive Call
  | getEntryPageTable (p : ℕ)
  | dispatchPcb (p : ℕ)
  /-- The CPU's answer. -/
  | recieve
  | swappProcess (p : ℕ)
  | freeAllocatedMemory (p : ℕ)
  deriving DecidableEq, Repr

/-- The call of a step. -/
def callOf : Action → Outcome → Option Call
  | getEntryPageTable p, _ => some (.getEntryPageTable p)
  | sendPcb p, o => if sendError o = .none then some (.dispatchPcb p) else none
  | recieveMessage, .fail | recieveMessage, .lost => none
  | recieveMessage, _ => some .recieve
  | swappProcess p, _ => some (.swappProcess p)
  | freeAllocatedMemory p, _ => some (.freeAllocatedMemory p)
  | _, _ => none

/-- The calls of a history. -/
def calls (tr : List (Event Action Outcome)) : List Call :=
  tr.filterMap fun e => e.thread.head?.bind fun a => callOf a e.outcome

/-- What the memory module has been asked of a process. -/
inductive Memory
  | unknown | asked | freed
  deriving DecidableEq, Repr

/-- What the other modules know: whose PCB is at the CPU, and who has memory. -/
structure Session where
  atCpu : Option ℕ := none
  memory : ℕ → Memory := fun _ => .unknown

/-- The calls that can come next. -/
def Session.next (s : Session) : Call → Option Session
  | .getEntryPageTable p =>
    if s.memory p = .unknown then some { s with memory := Function.update s.memory p .asked } else none
  | .dispatchPcb p =>
    if s.memory p = .asked ∧ s.atCpu = none then some { s with atCpu := some p } else none
  | .recieve => some { s with atCpu := none }
  | .swappProcess p => if s.memory p = .asked ∧ s.atCpu ≠ some p then some s else none
  | .freeAllocatedMemory p =>
    if s.memory p = .asked ∧ s.atCpu ≠ some p then
      some { s with memory := Function.update s.memory p .freed }
    else none

/-- A step that may be no call. -/
def Session.advance (s : Session) : Option Call → Option Session
  | some x => s.next x
  | none => some s

/-- A session, from its start. -/
def session (l : List Call) : Option Session := l.foldlM Session.next {}

theorem session_concat (l : List Call) : ∀ x : Option Call,
    session (l ++ x.toList) = (session l).bind fun s => s.advance x
  | some x => by
    rw [session, List.foldlM_append]
    simp [session, Session.advance]
  | none => by simp [Session.advance]

theorem calls_concat (tr : List (Event Action Outcome)) (a : Action) (k : List Action) (o : Outcome) :
    calls (tr ++ [⟨a :: k, o⟩]) = calls tr ++ (callOf a o).toList := by
  rw [calls, List.filterMap_append]
  cases h : callOf a o <;> simp [calls, h]

/-- No swap fails, no suspension timer is disturbed, and the answer of the CPU is received or
consumed. -/
structure Recieves (c : Config Planner Action) (x : ℕ × Outcome) : Prop extends Undisturbed c x where
  swapped : Swaps c x
  recieved : ∀ k, c.threads[x.1]? = some (recieveMessage :: k) → c.state.atCpu ≠ [] →
    x.2 ≠ .fail ∧ x.2 ≠ .lost

/-! ### The PCB at the CPU -/

/-- A PCB is at the CPU from its dispatch to the reception of the answer. -/
def cpuPhases : Phases where
  idle v := v.atCpu = []
  sending p v := v.exec = some p ∧ v.atCpu = []
  sent v := ∃ p, v.exec = some p ∧ v.atCpu = [p]
  awaiting v := ∃ p, v.exec = some p ∧ (v.atCpu = [] ∨ v.atCpu = [p])
  received _ v := v.atCpu = []
  queued v := v.atCpu = []
  replied _ v := v.atCpu = []
  taking _ v := v.atCpu = []
  erring v := v.atCpu = []

section Reach

variable {cfg : KernelConfig} {ok : Config Planner Action → ℕ × Outcome → Prop}
  {c c' : Config Planner Action} {x : ℕ × Outcome} {a : Action} {k l : List Action} {o : Outcome}
  {s : Planner} {e : Effect Planner Action} {p : ℕ} {g : Place → ℤ}

/-- The reception takes the one PCB there is. -/
theorem recieve_atCpu {err : SocketError} {pk : Package} {l : List ℕ}
    (h : recieveMessageResult s o = some (err, pk, l)) (hle : s.atCpu.length ≤ 1)
    (ho : s.atCpu ≠ [] → o ≠ .fail ∧ o ≠ .lost) : l = [] := by
  have htail : s.atCpu.tail = [] := by
    apply List.eq_nil_of_length_eq_zero
    rw [List.length_tail]
    omega
  have hkept : o = .fail ∨ o = .lost → s.atCpu = [] := fun hf => by
    by_contra hne
    rcases hf with hf | hf
    · exact (ho hne).1 hf
    · exact (ho hne).2 hf
  unfold recieveMessageResult at h
  split at h
  · split at h <;> cases h
    exact htail
  · split at h <;> cases h
    exact htail
  · cases h
    exact hkept (Or.inl rfl)
  · cases h
    exact htail
  · cases h
    exact hkept (Or.inr rfl)
  · cases h

theorem cpuPhases_rules (hok : ∀ c x, ok c x → Recieves c x) : cpuPhases.Rules ok where
  sets p v h := ⟨rfl, h⟩
  sends c x p k _ _ h _ := by
    refine ⟨p, h.1, ?_⟩
    have h1 : c.state.atCpu = [] := h.2
    show c.state.atCpu ++ [p] = [p]
    rw [h1, List.nil_append]
  notSends c x p k _ _ h _ := ⟨p, h.1, Or.inl h.2⟩
  marks v h := by
    obtain ⟨p, h1, h2⟩ := h
    exact ⟨p, h1, Or.inr h2⟩
  recieves c x hx hk h e pk l hres := by
    obtain ⟨p, -, h1⟩ := h
    refine recieve_atCpu hres ?_ ((hok c x hx).recieved [] hk)
    rcases h1 with h1 | h1 <;>
    · change c.state.atCpu = _ at h1
      rw [h1]
      simp
  pushes _ _ h := h
  replies _ _ _ h _ _ := h
  others _ _ _ h _ _ _ := h
  errs _ h _ := h
  frees _ _ h := h
  takes _ _ h := h
  fails _ h := h

/-- **One PCB at the CPU**, and it is `planner->exec`. -/
theorem reach_oneAtCpu (hok : ∀ c x, ok c x → Recieves c x) (h : Reach (act cfg) ok (start cfg) c) :
    c.state.atCpu = [] ∨ ∃ p, c.state.exec = some p ∧ c.state.atCpu = [p] := by
  induction h with
  | start => exact Or.inl rfl
  | @step c c' x hr hx hst ih =>
    obtain ⟨a, k, e, hk, he, rfl⟩ := step_some hst
    have hm := List.mem_of_getElem? hk
    have hat := fun ha => (reach_phases (cpuPhases_rules hok) rfl hr).2 _ hm
      (cycle_permit (reach_shape hr _ hm).self ha).ge
    generalize ho : x.2 = o at he
    cases act_branch he
    case setExec p => exact Or.inl ((hat (Or.inr (Or.inl ⟨p, rfl⟩))).2 fun r hr => by
      have hs := (reach_shape ‹_› _ hm).self
      simp only [Shape] at hs
      simp [hs] at hr)
    case sendPcb p _ =>
      obtain ⟨h1, h2⟩ := hat (Or.inl rfl)
      change c.state.atCpu = [] at h2
      exact Or.inr ⟨p, h1, by rw [h2, List.nil_append]⟩
    case sendPcbFails p _ => exact Or.inl (hat (Or.inl rfl)).2
    case recieveMessage err pk l hres =>
      refine Or.inl (recieve_atCpu hres ?_ fun hne => ?_)
      · rcases ih with h1 | ⟨p, -, h1⟩ <;> rw [h1] <;> simp
      · exact ho ▸ (hok c x hx).recieved k hk hne
    case takeExec r p _ => exact Or.inl ((hat (Or.inr (Or.inr ⟨r, rfl⟩))).1 r List.mem_cons_self)
    case takeExecError p _ => exact Or.inl (hat (Or.inl rfl))
    all_goals exact ih

/-! ### Before the memory module is asked -/

/-- Nobody has asked for the tables of `p`. -/
def Unasked (p : ℕ) (c : Config Planner Action) : Prop :=
  c.state.pcbId < p ∨ (∃ k, assign p (.status .new) :: push .new p :: k ∈ c.threads) ∨
    (∃ k, push .new p :: k ∈ c.threads) ∨ p ∈ c.state.queues .new ∨
      ∃ k, getEntryPageTable p :: k ∈ c.threads

/-- Up to the request for the tables. -/
def asking : Place → ℤ
  | unborn | entering .new | queued .new => 1
  | _ => 0

theorem asking_nonneg (l : Place) : 0 ≤ asking l := by unfold asking; split <;> omega

theorem asking_follows : Follows asking p 0 s o a := by
  cases a
  case push q r => cases q <;> simp [Follows, asking]
  case assign r f =>
    cases f
    case status st => cases st <;> simp [Follows, asking]
    all_goals trivial
  all_goals simp [Follows, asking]

/-- The weight of the first step of a thread is held. -/
theorem weight_le_held (h0 : ∀ l, 0 ≤ g l) (hb : g (queued .blocked) ≤ g arming)
    (hr : Reach (act cfg) ok (start cfg) c) (hm : a :: k ∈ c.threads) : weight g p a ≤ held g p c := by
  obtain ⟨i, hi⟩ := List.mem_iff_getElem?.mp hm
  exact head_le_held h0 hb hr hi

theorem Unasked.le_held (h0 : ∀ l, 0 ≤ g l) (hb : g (queued .blocked) ≤ g arming)
    (hg : g unborn = 1 ∧ g (entering .new) = 1 ∧ g (queued .new) = 1 ∧ g admission = 1)
    (hr : Reach (act cfg) ok (start cfg) c) (h : Unasked p c) : 1 ≤ held g p c := by
  obtain ⟨h1, h2, h3, h4⟩ := hg
  have hval := value_le_held (p := p) h0 hb hr
  have hle := le_value (p := p) h0 c.state
  rcases h with h | ⟨k, hk⟩ | ⟨k, hk⟩ | h | ⟨k, hk⟩
  · have h5 := hle.2.2.2.2.2
    rw [if_pos h] at h5
    omega
  · have h5 := load_le_held (p := p) h0 hb hr hk
    have h6 := (reach_grounded (p := p) h0 hb hr _ hk).tail.tail.self
    simp only [load_cons, weight, at', if_true] at h5
    omega
  · have h5 := weight_le_held (p := p) h0 hb hr hk
    simp only [weight, at', if_true] at h5
    omega
  · have h5 := hle.1 .new
    have h6 := List.count_pos_iff.mpr h
    rw [sumAt_eq] at h5
    rw [h3] at h5
    omega
  · have h5 := weight_le_held (p := p) h0 hb hr hk
    simp only [weight, at', if_true] at h5
    omega

/-- The long-term controller takes a PCB out of the queue to ask for its tables. -/
theorem new_act (h : act cfg a o s = some e) (hp : p ∈ s.queues .new) :
    p ∈ e.state.queues .new ∨ a = popNew ∧ e.stop = false ∧ e.next = [getEntryPageTable p] := by
  cases act_branch h
  case push q r => cases q <;> simp [hp]
  case popNew q l hq =>
    rw [hq] at hp
    rcases List.mem_cons.mp hp with rfl | hp
    · exact Or.inr ⟨rfl, rfl, rfl⟩
    · exact Or.inl (by simpa using hp)
  all_goals exact Or.inl (by simpa using hp)

/-- A process is created by `ltp_new_process`. -/
theorem pcbId_act (h : act cfg a o s = some e) : e.state.pcbId = s.pcbId ∨
    e.state.pcbId = s.pcbId + 1 ∧ e.stop = false ∧ e.next = movePcbToNew (s.pcbId + 1) := by
  cases act_branch h
  case ltpNewProcess => exact Or.inr ⟨rfl, rfl, rfl⟩
  all_goals exact Or.inl rfl

/-- A thread that does not do the step stays. -/
theorem stays {t : List Action} {ts : List (List Action)} (hk : c.threads[x.1]? = some (a :: k))
    (hl : l ∈ c.threads) : l ∈ c.threads.set x.1 t ++ ts ∨ l = a :: k := by
  obtain ⟨j, hj⟩ := List.mem_iff_getElem?.mp hl
  by_cases hjx : j = x.1
  · subst hjx
    exact Or.inr (Option.some.inj (hj.symm.trans hk))
  · exact Or.inl (mem_threads_of_ne hj hjx)

/-- A process whose tables are not asked for waits for it. -/
theorem Unasked.step (hx : Threads.step (act cfg) c x = some c')
    (h : Unasked p c) (hn : ∀ k, c.threads[x.1]? ≠ some (getEntryPageTable p :: k)) : Unasked p c' := by
  obtain ⟨a, k, e, hk, he, rfl⟩ := step_some hx
  have hself : e.rest k ∈ c.threads.set x.1 (e.rest k) ++ e.spawn := mem_threads_self hk
  rcases h with h | ⟨l, hl⟩ | ⟨l, hl⟩ | h | ⟨l, hl⟩
  · rcases pcbId_act he with h1 | ⟨h1, h2, h3⟩
    · exact Or.inl (h1 ▸ h)
    · by_cases hp : p = c.state.pcbId + 1
      · refine Or.inr (Or.inl ⟨semPost .ltpSemPlan :: k, ?_⟩)
        have hrest : e.rest k = movePcbToNew p ++ k := by
          rw [Effect.rest, h2, h3, if_neg Bool.false_ne_true, hp]
        rw [hrest] at hself ⊢
        exact hself
      · exact Or.inl (by show e.state.pcbId < p; omega)
  · rcases stays hk hl with h1 | h1
    · exact Or.inr (Or.inl ⟨l, h1⟩)
    · cases h1
      cases act_branch he
      exact Or.inr (Or.inr (Or.inl ⟨l, hself⟩))
  · rcases stays hk hl with h1 | h1
    · exact Or.inr (Or.inr (Or.inl ⟨l, h1⟩))
    · cases h1
      cases act_branch he
      exact Or.inr (Or.inr (Or.inr (Or.inl (by simp))))
  · rcases new_act he h with h1 | ⟨rfl, h1, h2⟩
    · exact Or.inr (Or.inr (Or.inr (Or.inl h1)))
    · have hrest : e.rest k = getEntryPageTable p :: k := by
        rw [Effect.rest, h1, h2, if_neg Bool.false_ne_true]
        rfl
      refine Or.inr (Or.inr (Or.inr (Or.inr ⟨k, ?_⟩)))
      rw [hrest] at hself ⊢
      exact hself
  · rcases stays hk hl with h1 | h1
    · exact Or.inr (Or.inr (Or.inr (Or.inr ⟨l, h1⟩)))
    · cases h1
      exact absurd hk (hn k)

/-- Up to the answer to the request. -/
def applying : Place → ℤ
  | admission => 1
  | l => asking l

/-- From the request to free the memory on. -/
def released : Place → ℤ
  | ending | destroying | destroyed => 1
  | _ => 0

theorem applying_nonneg (l : Place) : 0 ≤ applying l := by
  unfold applying
  split <;> first | omega | exact asking_nonneg l

theorem released_nonneg (l : Place) : 0 ≤ released l := by unfold released; split <;> omega

theorem applying_own (l : Place) : applying l + released l ≤ own l ∧
    applying l + atPlace exec l ≤ own l ∧ released l + atPlace exec l ≤ own l ∧
    asking l + atPlace admission l ≤ own l := by
  cases l
  case entering q | queued q =>
    cases q <;> simp [applying, asking, released, atPlace, own, living, finished]
  all_goals simp [applying, asking, released, atPlace, own, living, finished]

/-- What a running process holds. -/
theorem exec_held (hr : Reach (act cfg) ok (start cfg) c) (h : c.state.exec = some p)
    (h0 : ∀ l, 0 ≤ g l) (hb : g (queued .blocked) ≤ g arming) : g exec ≤ held g p c := by
  calc g exec = if c.state.exec = some p then g exec else 0 := (if_pos h).symm
    _ ≤ value g p c.state := (le_value h0 c.state).2.1
    _ ≤ held g p c := value_le_held h0 hb hr

/-- A process whose tables are not asked for does not run. -/
theorem Unasked.not_exec (hr : Reach (act cfg) ok (start cfg) c) (hown : held own p c ≤ 1)
    (h : Unasked p c) : c.state.exec ≠ some p := fun he =>
  disjoint hr hown (fun l => (applying_own l).2.1) (by simp [applying, asking, atPlace])
    (h.le_held applying_nonneg (by simp [applying, asking]) (by simp [applying, asking]) hr)
    (exec_held hr he (atPlace_nonneg exec) (by simp [atPlace]))

/-! ### Once the memory module is asked -/

/-- The tables of `p` are not asked for any more. -/
structure Asked (p : ℕ) (c : Config Planner Action) : Prop where
  held_le : held asking p c ≤ 0
  threads : ∀ k ∈ c.threads, getEntryPageTable p ∉ k

/-- Who asks for the tables. -/
theorem asking_act (h : act cfg a o s = some e) : (∀ t ∈ e.spawn, getEntryPageTable p ∉ t) ∧
    (getEntryPageTable p ∈ e.next → p ∈ s.queues .new) := by
  cases act_branch h
  case loop f => cases f <;> simp [body]
  case timerCall t _ => rcases t with ⟨t, _ | _, q⟩ <;> simp [Timer.call]
  case unblockReady | switchReady | pageTable | popSuspendedReady =>
    unfold movePcbToReady
    split <;> simp
  case takeExec =>
    unfold applyReply
    split <;> simp
  case recieved =>
    unfold incommingDispatch dispatchTail
    split <;> simp
  case popNew q l hq =>
    refine ⟨by simp, fun hp => ?_⟩
    rw [List.mem_singleton.mp hp |> Action.getEntryPageTable.inj, hq]
    exact List.mem_cons_self
  all_goals simp

theorem asking_step (hr : Reach (act cfg) ok (start cfg) c) (hx : Threads.step (act cfg) c x = some c') :
    held asking p c' ≤ held asking p c := by
  have := held_step (g := asking) (p := p) (d := 0) asking_nonneg (by simp [asking]) (le_refl _) hr
    (fun _ _ _ => asking_follows) hx
  omega

theorem Asked.step (hr : Reach (act cfg) ok (start cfg) c) (hx : Threads.step (act cfg) c x = some c')
    (h : Asked p c) : Asked p c' := by
  refine ⟨(asking_step hr hx).trans h.held_le, fun l hl hp => ?_⟩
  obtain ⟨a, k, e, hk, he, hc'⟩ := step_some hx
  have hact := asking_act (p := p) he
  rcases mem_step_action hk hc' hl hp with ⟨l', hl', hp'⟩ | hp' | ⟨t, ht, hp'⟩
  · exact h.threads l' hl' hp'
  · -- what is taken out of the queue was not asked for
    have h1 := (le_value (p := p) asking_nonneg c.state).1 .new
    have h2 := value_le_held (p := p) asking_nonneg (by simp [asking]) hr
    have h3 := List.count_pos_iff.mpr (hact.2 hp')
    rw [sumAt_eq, show asking (queued .new) = 1 from rfl] at h1
    have h4 := h.held_le
    omega
  · exact hact.1 t ht hp'

/-- What a step that is still to be done weighs, where nothing weighs less than 0. -/
theorem weight_le_load {w : Action → ℤ} (h0 : ∀ b, 0 ≤ w b) (hm : a ∈ k) : w a ≤ load w k :=
  List.single_le_sum (by simpa using fun b _ => h0 b) _ (List.mem_map_of_mem hm)

theorem admission_nonneg (b : Action) : 0 ≤ weight (atPlace admission) p b := by
  cases b
  case push q r => cases q <;> simp [weight, at', atPlace]
  case assign r f =>
    cases f
    case status st => cases st <;> simp [weight, at', atPlace]
    all_goals simp [weight]
  case getEntryPageTable r | checkPageTable r =>
    simp only [weight, at', atPlace]
    split_ifs <;> omega
  all_goals simp [weight, at', atPlace]

/-- They are asked for once. -/
theorem Asked.of_step (hr : Reach (act cfg) ok (start cfg) c) (hown : held own p c ≤ 1)
    (hx : Threads.step (act cfg) c x = some c') (hk : c.threads[x.1]? = some (getEntryPageTable p :: k)) :
    Asked p c' := by
  have hw : weight (atPlace admission) p (getEntryPageTable p) = 1 := by simp [weight, at', atPlace]
  have hasks : ∀ {l}, getEntryPageTable p ∈ l → 1 ≤ load (weight (atPlace admission) p) l :=
    fun hp => hw ▸ weight_le_load admission_nonneg hp
  have hg : ∀ l ∈ c.threads, Grounded (weight (atPlace admission) p) l := fun l _ =>
    grounded_of_nonneg admission_nonneg l
  have hone : held asking p c + held (atPlace admission) p c ≤ 1 := by
    rw [← held_add]
    exact (held_mono hr (fun l => (applying_own l).2.2.2)
      (by simp [own, living, finished, asking, atPlace])).trans hown
  have hvalue := value_nonneg (p := p) (atPlace_nonneg admission) c.state
  have hasking := held_nonneg (p := p) asking_nonneg (by simp [asking]) hr
  have htotal : load _ _ ≤ total _ c.threads :=
    le_total (fun l hl => (hg l hl).nonneg) (List.mem_of_getElem? hk)
  have hself := hasks (l := getEntryPageTable p :: k) List.mem_cons_self
  change _ + (value _ p c.state + total _ c.threads) ≤ 1 at hone
  have h0 : held asking p c ≤ 0 := by omega
  refine ⟨(asking_step hr hx).trans h0, fun l hl hp => ?_⟩
  obtain ⟨b, k', e, hk', he, rfl⟩ := step_some hx
  rw [hk] at hk'
  cases hk'
  rcases mem_threads hl with ⟨j, hj, hkj⟩ | rfl | hl
  · -- two threads that ask for them would hold it twice
    exact hj (permit_unique (by omega) hg hkj hk (hasks hp) hself)
  · have hs : k = [loop .ltpNew] := (reach_shape hr _ (List.mem_of_getElem? hk)).self
    have hf := act_flow he
    unfold Effect.rest at hp
    split at hp
    · cases hp
    · generalize e.next = l at hf hp
      generalize e.spawn = ts at hf
      subst hs
      cases hf <;> simp at hp
  · exact (asking_act he).1 l hl hp

/-! ### Once its memory is freed -/

/-- The memory of `p` is freed. -/
def Gone (p : ℕ) (c : Config Planner Action) : Prop :=
  (∃ k, consoleTerminate p :: k ∈ c.threads) ∨ (∃ k, pcbDestroy p :: k ∈ c.threads) ∨
    p ∈ c.state.destroyed

theorem Gone.le_held (h0 : ∀ l, 0 ≤ g l) (hb : g (queued .blocked) ≤ g arming)
    (hg : g ending = 1 ∧ g destroying = 1 ∧ g destroyed = 1) (hr : Reach (act cfg) ok (start cfg) c)
    (h : Gone p c) : 1 ≤ held g p c := by
  obtain ⟨h1, h2, h3⟩ := hg
  rcases h with ⟨k, hk⟩ | ⟨k, hk⟩ | h
  · have h4 := load_le_held (p := p) h0 hb hr hk
    obtain rfl : k = [pcbDestroy p, loop .ltpExit] := (reach_shape hr _ hk).self
    simp only [load_cons, load_nil, weight, at', if_true] at h4
    omega
  · have h4 := weight_le_held (p := p) h0 hb hr hk
    simp only [weight, at', if_true] at h4
    omega
  · have h4 := (le_value (p := p) h0 c.state).2.2.2.2.1
    have h5 := value_le_held (p := p) h0 hb hr
    have h6 := List.count_pos_iff.mpr h
    rw [sumAt_eq, h3] at h4
    omega

theorem destroyed_act (h : act cfg a o s = some e) (hp : p ∈ s.destroyed) : p ∈ e.state.destroyed := by
  cases act_branch h
  case pcbDestroy => exact List.mem_cons_of_mem _ hp
  all_goals exact hp

/-- What comes after freeing the memory comes in its order. -/
theorem Gone.step (hr : Reach (act cfg) ok (start cfg) c) (hx : Threads.step (act cfg) c x = some c')
    (h : Gone p c) : Gone p c' := by
  obtain ⟨a, k, e, hk, he, rfl⟩ := step_some hx
  have hself : e.rest k ∈ c.threads.set x.1 (e.rest k) ++ e.spawn := mem_threads_self hk
  rcases h with ⟨l, hl⟩ | ⟨l, hl⟩ | h
  · rcases stays hk hl with h1 | h1
    · exact Or.inl ⟨l, h1⟩
    · cases h1
      obtain rfl : k = [pcbDestroy p, loop .ltpExit] := (reach_shape hr _ hl).self
      cases act_branch he
      exact Or.inr (Or.inl ⟨[loop .ltpExit], hself⟩)
  · rcases stays hk hl with h1 | h1
    · exact Or.inr (Or.inl ⟨l, h1⟩)
    · cases h1
      cases act_branch he
      exact Or.inr (Or.inr List.mem_cons_self)
  · exact Or.inr (Or.inr (destroyed_act he h))

theorem Gone.not_exec (hr : Reach (act cfg) ok (start cfg) c) (hown : held own p c ≤ 1)
    (h : Gone p c) : c.state.exec ≠ some p := fun he =>
  disjoint hr hown (fun l => (applying_own l).2.2.1) (by simp [released, atPlace])
    (h.le_held released_nonneg (by simp [released]) (by simp [released]) hr)
    (exec_held hr he (atPlace_nonneg exec) (by simp [atPlace]))

/-- Where the memory of `p` is being freed. -/
def FreesFirst (k : List Action) : Prop := ∀ p, freeAllocatedMemory p ∈ k →
  k = [freeAllocatedMemory p, consoleTerminate p, pcbDestroy p, loop .ltpExit]

theorem frees_flow {ts : List (List Action)} (h : Flow cfg a l ts) :
    (∀ t ∈ ts, freeAllocatedMemory p ∉ t) ∧ (freeAllocatedMemory p ∈ l →
      a = popExit ∧ l = [freeAllocatedMemory p, consoleTerminate p, pcbDestroy p]) := by
  rcases hc : cfg.algoritmoPlanificacion <;> cases h
  case fifo.loop f | srt.loop f => cases f <;> simp [body]
  case fifo.callback t | srt.callback t => rcases t with ⟨t, _ | _, q⟩ <;> simp [Timer.call]
  all_goals simp_all [movePcbToReady, applyReply, dispatchTail]

theorem reach_freesFirst (h : Reach (act cfg) ok (start cfg) c) : ∀ k ∈ c.threads, FreesFirst k := by
  have h1 : ∀ k ∈ c.threads, Suffixes (Shape cfg) k ∧ FreesFirst k := by
    apply h.inv (I := fun c => ∀ k ∈ c.threads, Suffixes (Shape cfg) k ∧ FreesFirst k)
    · simp [start, Suffixes, Shape, FreesFirst]
    · intro c c' x _ hc _ hx
      refine flow_threads hx hc ⟨trivial, by simp [FreesFirst]⟩ fun a k l ts hk hf => ?_
      obtain ⟨h2, h3⟩ := shape_flow hk.1 hf
      refine ⟨⟨h2, fun p hp => ?_⟩, fun t ht => ⟨h3 t ht, fun p hp => ?_⟩⟩
      · rcases List.mem_append.mp hp with hp | hp
        · obtain ⟨rfl, rfl⟩ := (frees_flow hf).2 hp
          obtain rfl : k = [loop .ltpExit] := hk.1.self
          rfl
        · have h4 := hk.2 p (List.mem_cons_of_mem _ hp)
          obtain ⟨-, h5⟩ := List.cons.inj h4
          simp [h5] at hp
      · exact absurd hp ((frees_flow hf).1 t ht)
  exact fun k hk => (h1 k hk).2

/-- The memory is freed once, of a process that was asked for and is nowhere else. -/
theorem frees_held (hr : Reach (act cfg) ok (start cfg) c)
    (hk : c.threads[x.1]? = some (freeAllocatedMemory p :: k))
    (h0 : ∀ l, 0 ≤ g l) (hb : g (queued .blocked) ≤ g arming) (hg : g ending = 1) :
    load (weight g p) (freeAllocatedMemory p :: k) = 1 ∧ 1 ≤ held g p c := by
  have hm := List.mem_of_getElem? hk
  have h1 := load_le_held (p := p) h0 hb hr hm
  have h2 := reach_freesFirst hr _ hm p List.mem_cons_self
  have h3 : load (weight g p) (freeAllocatedMemory p :: k) = 1 := by
    rw [h2]
    simp [weight, at', hg]
  omega

theorem frees_not_gone (hr : Reach (act cfg) ok (start cfg) c) (hown : held own p c ≤ 1)
    (hk : c.threads[x.1]? = some (freeAllocatedMemory p :: k)) : ¬ Gone p c := by
  have h0 := own_nonneg
  have hb : own (queued .blocked) ≤ own arming := by simp [own, living, finished]
  have hg : ∀ l ∈ c.threads, Grounded (weight own p) l := reach_grounded h0 hb hr
  have hw := (frees_held hr hk h0 hb (by simp [own, living, finished])).1
  have hv := value_nonneg (p := p) h0 c.state
  unfold held at hown
  -- another thread that holds it would hold it twice
  have hother : ∀ l ∈ c.threads, 1 ≤ load (weight own p) l → l = freeAllocatedMemory p :: k := by
    intro l hl h1
    obtain ⟨j, hj⟩ := List.mem_iff_getElem?.mp hl
    obtain rfl := permit_unique (by omega) hg hj hk h1 hw.ge
    exact Option.some.inj (hj.symm.trans hk)
  rintro (⟨l, hl⟩ | ⟨l, hl⟩ | h)
  · obtain rfl : l = [pcbDestroy p, loop .ltpExit] := (reach_shape hr _ hl).self
    cases hother _ hl (by simp [weight, at', own, living, finished])
  · obtain rfl : l = [loop .ltpExit] := (reach_shape hr _ hl).self
    cases hother _ hl (by simp [weight, at', own, living, finished])
  · have h1 := (le_value (p := p) h0 c.state).2.2.2.2.1
    have h2 := le_total (fun l hl => (hg l hl).nonneg) (List.mem_of_getElem? hk)
    have h3 := List.count_pos_iff.mpr h
    rw [sumAt_eq, show own destroyed = 1 from rfl] at h1
    omega

/-! ### The calls of every run -/

/-- The session says where each process is. -/
structure Linked (σ : Session) (c : Config Planner Action) : Prop where
  atCpu : c.state.atCpu = σ.atCpu.toList
  unknown : ∀ p, 1 ≤ p → σ.memory p = .unknown → Unasked p c
  asked : ∀ p, σ.memory p ≠ .unknown → Asked p c
  freed : ∀ p, σ.memory p = .freed → Gone p c

theorem Linked.start (cfg : KernelConfig) : Linked {} (start cfg) where
  atCpu := rfl
  unknown p hp _ := Or.inl hp
  asked p h := absurd rfl h
  freed p h := by cases h

variable {σ σ' : Session}

/-- What a step leaves of what the session says. -/
theorem Linked.keep (hr : Reach (act cfg) ok (Kernel.start cfg) c) (hx : Threads.step (act cfg) c x = some c')
    (hL : Linked σ c) (hat : c'.state.atCpu = σ'.atCpu.toList)
    (hunknown : ∀ p, σ'.memory p = .unknown → σ.memory p = .unknown ∧
      ∀ k, c.threads[x.1]? ≠ some (getEntryPageTable p :: k))
    (hasked : ∀ p, σ'.memory p ≠ .unknown → σ.memory p ≠ .unknown ∨ Asked p c')
    (hfreed : ∀ p, σ'.memory p = .freed → σ.memory p = .freed ∨ Gone p c') : Linked σ' c' where
  atCpu := hat
  unknown p hp h := (hL.unknown p hp (hunknown p h).1).step hx (hunknown p h).2
  asked p h := (hasked p h).elim (fun h1 => (hL.asked p h1).step hr hx) id
  freed p h := (hfreed p h).elim (fun h1 => (hL.freed p h1).step hr hx) id

/-- Where the session stays as it is. -/
theorem Linked.same (hr : Reach (act cfg) ok (Kernel.start cfg) c) (hx : Threads.step (act cfg) c x = some c')
    (hk : c.threads[x.1]? = some (a :: k)) (hL : Linked σ c) (hm : σ'.memory = σ.memory)
    (hat : c'.state.atCpu = σ'.atCpu.toList) (ha : ∀ p, a ≠ getEntryPageTable p) : Linked σ' c' := by
  refine hL.keep hr hx hat (fun p h => ⟨hm ▸ h, fun l hl => ?_⟩) (fun p h => Or.inl (hm ▸ h))
    fun p h => Or.inl (hm ▸ h)
  rw [hk] at hl
  exact ha p (List.cons.inj (Option.some.inj hl)).1

/-- Where the memory module is asked about `p`. -/
theorem Linked.update {m : Memory} (hr : Reach (act cfg) ok (Kernel.start cfg) c)
    (hx : Threads.step (act cfg) c x = some c') (hk : c.threads[x.1]? = some (a :: k)) (hL : Linked σ c)
    (hat : c'.state.atCpu = σ.atCpu.toList) (hm : m ≠ .unknown)
    (ha : ∀ q, a = getEntryPageTable q → q = p) (hasked : Asked p c') (hgone : m = .freed → Gone p c') :
    Linked { σ with memory := Function.update σ.memory p m } c' := by
  refine hL.keep hr hx hat (fun q hq => ?_) (fun q hq => ?_) fun q hq => ?_
  · have hne : q ≠ p := by
      rintro rfl
      simp [hm] at hq
    refine ⟨by simpa [hne] using hq, fun l hl => ?_⟩
    rw [hk] at hl
    exact hne (ha q (List.cons.inj (Option.some.inj hl)).1)
  · by_cases hne : q = p
    · exact Or.inr (hne ▸ hasked)
    · exact Or.inl (by simpa [hne] using hq)
  · by_cases hne : q = p
    · subst hne
      exact Or.inr (hgone (by simpa using hq))
    · exact Or.inl (by simpa [hne] using hq)

/-- A process that is neither new nor gone. -/
theorem Linked.asked_of (hL : Linked σ c) (hp : 1 ≤ p) (h1 : ¬ Unasked p c) (h2 : ¬ Gone p c) :
    σ.memory p = .asked := by
  cases h : σ.memory p
  case unknown => exact absurd (hL.unknown p hp h) h1
  case asked => rfl
  case freed => exact absurd (hL.freed p h) h2

theorem Linked.exec_of (hok : ∀ c x, ok c x → Recieves c x) (hr : Reach (act cfg) ok (Kernel.start cfg) c)
    (hL : Linked σ c) (h : σ.atCpu = some p) : c.state.exec = some p := by
  have h1 := hL.atCpu
  rw [h] at h1
  rcases reach_oneAtCpu hok hr with h2 | ⟨q, h2, h3⟩
  · rw [h2] at h1
    cases h1
  · rw [h3] at h1
    cases h1
    exact h2

theorem reach_own (hok : ∀ c x, ok c x → Recieves c x) (hr : Reach (act cfg) ok (Kernel.start cfg) c) :
    held own p c ≤ 1 :=
  held_le_one own_nonneg (by simp [own, living, finished]) (by simp [own, living, finished])
    (fun _ _ _ => own_follows) (fun c x h => (hok c x h).swapped) hr

/-- The tables are asked for once. -/
theorem Linked.asks (hL : Linked σ c) (hk : c.threads[x.1]? = some (getEntryPageTable p :: k)) :
    σ.memory p = .unknown := by
  by_contra h
  exact (hL.asked p h).threads _ (List.mem_of_getElem? hk) List.mem_cons_self

/-- A PCB is dispatched where the CPU has none. -/
theorem Linked.dispatches (hok : ∀ c x, ok c x → Recieves c x)
    (hr : Reach (act cfg) ok (Kernel.start cfg) c) (hL : Linked σ c)
    (hk : c.threads[x.1]? = some (sendPcb p :: k)) :
    σ.memory p = .asked ∧ σ.atCpu = none := by
  have hm := List.mem_of_getElem? hk
  have hown := reach_own (p := p) hok hr
  obtain ⟨h1, h2⟩ : c.state.exec = some p ∧ c.state.atCpu = [] :=
    (reach_phases (cpuPhases_rules hok) rfl hr).2 _ hm (cycle_permit (reach_shape hr _ hm).self (Or.inl rfl)).ge
  refine ⟨hL.asked_of ((reach_created hr).exec p h1).1 (fun h => h.not_exec hr hown h1)
    fun h => h.not_exec hr hown h1, ?_⟩
  rw [hL.atCpu] at h2
  exact Option.toList_eq_nil_iff.mp h2

/-- A process is suspended while it is blocked. -/
theorem Linked.swaps (hok : ∀ c x, ok c x → Recieves c x) (hr : Reach (act cfg) ok (Kernel.start cfg) c)
    (hL : Linked σ c) (hk : c.threads[x.1]? = some (swappProcess p :: k)) :
    σ.memory p = .asked ∧ σ.atCpu ≠ some p := by
  have hm := List.mem_of_getElem? hk
  obtain ⟨t, ht⟩ := deciding_of_shape (reach_shape hr _ hm).self
  have hE := reach_episodes (p := p) (fun c x h => (hok c x h).toUndisturbed) hr
  have haway := (hE.deciding _ hm t ht).blocked
  have hp := ((reach_created hr).threads _ hm _ List.mem_cons_self p rfl).1
  refine ⟨hL.asked_of hp (fun h => ?_) (fun h => ?_), fun h => ?_⟩
  · have := h.le_held away_nonneg (by simp [away]) (by simp [away]) hr
    omega
  · have := h.le_held away_nonneg (by simp [away]) (by simp [away]) hr
    omega
  · have := exec_held hr (hL.exec_of hok hr h) away_nonneg (by simp [away])
    simp only [away] at this
    omega

/-- The memory of a process is freed when it is nowhere else. -/
theorem Linked.frees (hok : ∀ c x, ok c x → Recieves c x)
    (hr : Reach (act cfg) ok (Kernel.start cfg) c) (hL : Linked σ c)
    (hk : c.threads[x.1]? = some (freeAllocatedMemory p :: k)) :
    σ.memory p = .asked ∧ σ.atCpu ≠ some p := by
  have hm := List.mem_of_getElem? hk
  have hown := reach_own (p := p) hok hr
  have hp := ((reach_created hr).threads _ hm _ List.mem_cons_self p rfl).1
  have hreleased := (frees_held hr hk released_nonneg (by simp [released]) rfl).2
  refine ⟨hL.asked_of hp (fun h => ?_) (frees_not_gone hr hown hk), fun h => ?_⟩
  · exact disjoint hr hown (fun l => (applying_own l).1) (by simp [applying, asking, released])
      (h.le_held applying_nonneg (by simp [applying, asking]) (by simp [applying, asking]) hr) hreleased
  · exact disjoint hr hown (fun l => (applying_own l).2.2.1) (by simp [released, atPlace]) hreleased
      (exec_held hr (hL.exec_of hok hr h) (atPlace_nonneg exec) (by simp [atPlace]))

/-- **One step.** Its call is one that can come next. -/
theorem Linked.step (hok : ∀ c x, ok c x → Recieves c x) (hr : Reach (act cfg) ok (Kernel.start cfg) c)
    (hokx : ok c x) (hk : c.threads[x.1]? = some (a :: k)) (hx : Threads.step (act cfg) c x = some c')
    (hL : Linked σ c) : ∃ σ', σ.advance (callOf a x.2) = some σ' ∧ Linked σ' c' := by
  obtain ⟨b, k', e, hk', he, hc'⟩ := step_some hx
  rw [hk] at hk'
  cases hk'
  have hstate : c'.state = e.state := by rw [hc']
  have hat : (∀ p, a ≠ sendPcb p) → a ≠ recieveMessage → c'.state.atCpu = σ.atCpu.toList := by
    intro h1 h2
    rw [hstate, atCpu_act he h1 h2]
    exact hL.atCpu
  cases a
  case getEntryPageTable p =>
    have h1 := hL.asks hk
    exact ⟨{ σ with memory := Function.update σ.memory p .asked },
      by simp [callOf, Session.advance, Session.next, h1],
      hL.update hr hx hk (hat (by simp) (by simp)) (by simp) (by simp)
        (Asked.of_step hr (reach_own hok hr) hx hk) (by simp)⟩
  case sendPcb p =>
    obtain ⟨h1, h2⟩ := hL.dispatches hok hr hk
    have hempty := hL.atCpu
    rw [h2] at hempty
    generalize x.2 = o at he
    cases act_branch he
    case sendPcb ho =>
      refine ⟨{ σ with atCpu := some p }, by simp [callOf, ho, Session.advance, Session.next, h1, h2],
        hL.same hr hx hk rfl ?_ (by simp)⟩
      rw [hstate]
      show c.state.atCpu ++ [p] = [p]
      rw [hempty]
      rfl
    case sendPcbFails ho =>
      refine ⟨σ, by simp [callOf, ho, Session.advance], hL.same hr hx hk rfl ?_ (by simp)⟩
      rw [hstate]
      exact hL.atCpu
  case recieveMessage =>
    have hle : c.state.atCpu.length ≤ 1 := by
      rcases reach_oneAtCpu hok hr with h1 | ⟨p, -, h1⟩ <;> rw [h1] <;> simp
    have hans := (hok c x hokx).recieved k hk
    generalize x.2 = o at he hans
    cases act_branch he
    case recieveMessage err pk l hres =>
      have hl := recieve_atCpu hres hle hans
      by_cases ho : o = .fail ∨ o = .lost
      · have hnone : callOf recieveMessage o = none := by rcases ho with rfl | rfl <;> rfl
        refine ⟨σ, by rw [hnone]; rfl, hL.same hr hx hk rfl ?_ (by simp)⟩
        have hempty : c.state.atCpu = [] := by
          by_contra hne
          rcases ho with ho | ho
          · exact (hans hne).1 ho
          · exact (hans hne).2 ho
        rw [hstate, ← hL.atCpu, hempty]
        exact hl
      · have hsome : callOf recieveMessage o = some .recieve := by
          cases o <;> simp_all [callOf]
        refine ⟨{ σ with atCpu := none }, by rw [hsome]; rfl, hL.same hr hx hk rfl ?_ (by simp)⟩
        rw [hstate]
        exact hl
  case swappProcess p =>
    obtain ⟨h1, h2⟩ := hL.swaps hok hr hk
    exact ⟨σ, by simp [callOf, Session.advance, Session.next, h1, h2],
      hL.same hr hx hk rfl (hat (by simp) (by simp)) (by simp)⟩
  case freeAllocatedMemory p =>
    obtain ⟨h1, h2⟩ := hL.frees hok hr hk
    have hgone : Gone p c' := by
      have hs := reach_freesFirst hr _ (List.mem_of_getElem? hk) p List.mem_cons_self
      cases hs
      refine Or.inl ⟨[pcbDestroy p, loop .ltpExit], ?_⟩
      rw [hc']
      generalize x.2 = o at he
      cases act_branch he <;> exact mem_threads_self hk
    exact ⟨{ σ with memory := Function.update σ.memory p .freed },
      by simp [callOf, Session.advance, Session.next, h1, h2],
      hL.update hr hx hk (hat (by simp) (by simp)) (by simp) (by simp)
        ((hL.asked p (by simp [h1])).step hr hx) fun _ => hgone⟩
  all_goals exact ⟨σ, rfl, hL.same hr hx hk rfl (hat (by simp) (by simp)) (by simp)⟩

theorem trace_linked {tr : List (Event Action Outcome)} (hok : ∀ c x, ok c x → Recieves c x)
    (h : Trace (act cfg) ok (Kernel.start cfg) c tr) : ∃ σ, session (calls tr) = some σ ∧ Linked σ c := by
  induction h with
  | start => exact ⟨{}, rfl, Linked.start cfg⟩
  | @step c c' tr x k htr hokx hk hx ih =>
    obtain ⟨σ, h1, h2⟩ := ih
    obtain ⟨a, k', e, hk', -⟩ := step_some hx
    rw [hk] at hk'
    cases hk'
    obtain ⟨σ', h3, h4⟩ := h2.step hok htr.reach hokx hk hx
    refine ⟨σ', ?_, h4⟩
    rw [calls_concat, session_concat, h1]
    exact h3

/-- **The session.** Where no swap fails, the suspension timers are `Undisturbed` and the answer
of the CPU is not lost, every call of every run is one that can come next, and the session ends
with the PCB that is at the CPU. -/
theorem trace_session {tr : List (Event Action Outcome)} (hok : ∀ c x, ok c x → Recieves c x)
    (h : Trace (act cfg) ok (Kernel.start cfg) c tr) :
    ∃ σ, session (calls tr) = some σ ∧ c.state.atCpu = σ.atCpu.toList := by
  obtain ⟨σ, h1, h2⟩ := trace_linked hok h
  exact ⟨σ, h1, h2.atCpu⟩

end Reach

/-! ### Runs -/

/-- Enough for `Recieves`. -/
def checkRecieves (c : Config Planner Action) (x : ℕ × Outcome) : Bool :=
  checkUndisturbed c x && checkSwaps c x &&
    match c.threads[x.1]? with
    | some (recieveMessage :: _) => x.2 != .fail && x.2 != .lost
    | _ => true

theorem recieves_of_check (c : Config Planner Action) (x : ℕ × Outcome)
    (h : checkRecieves c x = true) : Recieves c x := by
  obtain ⟨h12, h3⟩ := Bool.and_eq_true_iff.mp h
  obtain ⟨h1, h2⟩ := Bool.and_eq_true_iff.mp h12
  refine { undisturbed_of_check c x h1 with
    swapped := swaps_of_check c x h2, recieved := fun k hk _ => ?_ }
  rw [hk] at h3
  simpa using h3

/-- Process 1 is suspended and comes back, runs its last instruction and ends. -/
theorem trace_session_lifeRun : ∃ c tr, Trace (act (exampleConfig .fifo)) Recieves
    (start (exampleConfig .fifo)) c tr ∧ calls tr = [.getEntryPageTable 1, .dispatchPcb 1, .recieve,
      .swappProcess 1, .dispatchPcb 1, .recieve, .freeAllocatedMemory 1] ∧
    ∃ σ, session (calls tr) = some σ ∧ c.state.atCpu = σ.atCpu.toList := by
  have h1 : (run (act (exampleConfig .fifo)) checkRecieves (start (exampleConfig .fifo)) lifeRun).isSome := by
    decide +kernel
  have h2 : calls (events (act (exampleConfig .fifo)) (start (exampleConfig .fifo)) lifeRun) =
      [.getEntryPageTable 1, .dispatchPcb 1, .recieve, .swappProcess 1, .dispatchPcb 1, .recieve,
        .freeAllocatedMemory 1] := by
    decide +kernel
  obtain ⟨c, hc⟩ := Option.isSome_iff_exists.mp h1
  have htr := trace_of_run recieves_of_check Trace.start hc
  exact ⟨c, _, htr, h2, trace_session (fun _ _ h => h) htr⟩

/-- The reception of the answer fails, and the kernel finishes process 1. -/
def lostReplyRun : List (ℕ × Outcome) :=
  admitRun ioProgram 5 ++ oks 11 3 ++ (6, .fail) :: oks 9 6 ++ oks 6 1

/-- Its memory is freed while the CPU has it. -/
theorem not_session : ¬ ∀ cfg c tr, Trace (act cfg) (fun _ _ => True) (start cfg) c tr →
    (session (calls tr)).isSome := by
  intro h
  have h1 : (run (act (exampleConfig .fifo)) (fun _ _ => true) (start (exampleConfig .fifo))
      lostReplyRun).isSome := by
    decide +kernel
  have h2 : calls (events (act (exampleConfig .fifo)) (start (exampleConfig .fifo)) lostReplyRun) =
      [.getEntryPageTable 1, .dispatchPcb 1, .freeAllocatedMemory 1] := by
    decide +kernel
  obtain ⟨c, hc⟩ := Option.isSome_iff_exists.mp h1
  have h3 := h _ c _ (trace_of_run (fun _ _ _ => trivial) Trace.start hc)
  rw [List.nil_append, h2] at h3
  revert h3
  decide

end Kernel
end Kiss
