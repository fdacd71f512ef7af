/-
# The life cycle of a process

Where a PCB can be, and how the planner's actions move it. A place is a queue,
the exec slot, or the local variable of a thread that has taken the PCB out of
one and not yet put it in another; the history of exits and of results told to
consoles counts as places too. `held g p c` adds up `g` over the places where
`c` has PCB `p`. `Follows g p d s o a` lists the moves of `a`: where none of them
raises `g` by more than `d`, a step does not raise `held g p` by more than `d`
(`held_step`). Every count of PCBs is an instance, with `g` the indicator of
some places.

A thread that still has to do the second half of a move holds the difference:
`mtp_unblock_pcb` before the cancellation holds what I/O weighs, split between
the cancellation and the switch on the status. Where the memory of a PCB is taken again it goes
from `destroyed` to the new processes, and who had it has it still (`held_reuse`).

Key definitions: `Place`, `Follows`, `weight`, `value`, `held`.
Key theorems: `value_act`, `grounded_act`, `held_step`, `held_reuse`.
-/
import Kiss.Kernel.Flow

namespace Kiss
namespace Kernel

open Kernel.Action Threads

/-- Where a PCB can be. -/
inductive Place
  /-- Not created yet. -/
  | unborn
  /-- Held by a thread that is about to put it in the queue. -/
  | entering (q : Queue)
  | queued (q : Queue)
  /-- In the blocked queue, its suspension timer not set yet. -/
  | arming
  /-- Held by the long-term controller. -/
  | admission
  /-- Held by the short-term controller, its status not changed yet. -/
  | popped
  /-- Held by the short-term controller, about to be `planner->exec`. -/
  | dispatched
  | exec
  /-- Held by the dispatch receiver. -/
  | returned
  /-- Held by the blocked controller or by its I/O timer. -/
  | io
  /-- Held by `mtp_unblock_pcb`, its suspension timer cancelled. -/
  | unblocking
  /-- Held by `move_pcb_to_blocked`, its status not changed yet. -/
  | blocking
  /-- Held by `move_pcb_to_exit`, its status not changed yet. -/
  | leaving
  /-- Pushed on the exit queue once. -/
  | exits
  /-- Held by the exit controller, its console not told yet. -/
  | ending
  /-- Its result told to the console once. -/
  | told
  /-- Held by the exit controller, its console told. -/
  | destroying
  | destroyed
  deriving DecidableEq, Repr

open Place

/-! ### The moves -/

/-- The call fails: no swap, or no thread for the I/O timer. -/
def Fails (s : Planner) (o : Outcome) : Action → Prop
  | swappProcess _ => s.halt = true ∨ o ≠ .ok
  | startBlockedTimer _ _ => o ≠ .ok
  | _ => False

/-- The moves `a` can make with PCB `p` do not raise `g` by more than `d`. -/
def Follows (g : Place → ℤ) (p : ℕ) (d : ℤ) (s : Planner) (o : Outcome) : Action → Prop
  | ltpNewProcess _ => g (entering .new) ≤ g unborn + d
  | push .blocked r => r = p → g arming ≤ g (entering .blocked) + d
  | push .exit r => r = p → g (queued .exit) + g exits ≤ g (entering .exit) + d
  | push q r => r = p → g (queued q) ≤ g (entering q) + d
  | insertInOrder r => r = p → g (queued .ready) ≤ g (entering .ready) + d
  | setSuspendTimer r => r = p → g (queued .blocked) ≤ g arming + d
  | popReady => g popped ≤ g (queued .ready) + d
  | assign r (.status .exec) => r = p → g dispatched ≤ g popped + d
  | assign r (.status .blocked) => r = p → g (entering .blocked) ≤ g blocking + d
  | assign r (.status .exit) => r = p → g (entering .exit) ≤ g leaving + d
  | setExec r => r = p → g exec ≤ g dispatched + d
  | takeExec _ => g returned ≤ g exec + d
  | dispatchSwitch r => r = p → g leaving ≤ g returned + d ∧ g (entering .ready) ≤ g returned + d ∧
      g blocking ≤ g returned + d
  | takeExecError => g leaving ≤ g exec + d
  | popBlocked => g io ≤ g (queued .blocked) + d
  | startBlockedTimer t r => r = p → Fails s o (startBlockedTimer t r) → g leaving ≤ g io + d
  | cancelSuspendTimer r => r = p → g unblocking ≤ g io + d
  | unblockSwitch r => r = p →
      ((s.pcbs r).status = .blocked → g (entering .ready) ≤ g unblocking + d) ∧
      ((s.pcbs r).status = .suspendedBlocked → g (entering .suspendedReady) ≤ g unblocking + d) ∧
      g leaving ≤ g unblocking + d
  -- the failed swap puts on exit a PCB that stays blocked
  | swappProcess r => r = p → Fails s o (swappProcess r) → g leaving ≤ d
  | popSuspendedReady => g (entering .ready) ≤ g (queued .suspendedReady) + d
  | popNew => g admission ≤ g (queued .new) + d
  | checkPageTable r => r = p → g leaving ≤ g admission + d ∧ g (entering .ready) ≤ g admission + d
  | popExit => g ending ≤ g (queued .exit) + d
  | consoleTerminate r => r = p → g destroying + g told ≤ g ending + d
  | pcbDestroy r => r = p → g destroyed ≤ g destroying + d
  | _ => True

variable (g : Place → ℤ) (p : ℕ)

/-- What PCB `r` in place `l` counts for `p`. -/
def at' (l : Place) (r : ℕ) : ℤ := if r = p then g l else 0

/-- What a thread holds by an action it has still to do. -/
def weight : Action → ℤ
  | push .blocked r => at' g p (entering .blocked) r - at' g p arming r + at' g p (queued .blocked) r
  | push q r => at' g p (entering q) r
  | setSuspendTimer r => at' g p arming r - at' g p (queued .blocked) r
  | insertInOrder r => at' g p (entering .ready) r
  | assign r (.status .exec) => at' g p popped r - at' g p dispatched r
  | assign r (.status .blocked) => at' g p blocking r - at' g p (entering .blocked) r
  | assign r (.status .exit) => at' g p leaving r - at' g p (entering .exit) r
  | setExec r => at' g p dispatched r
  | dispatchSwitch r => at' g p returned r
  | createBlockedTimer r | startBlockedTimer _ r => at' g p io r
  | timerSleep t | timerTest t => if t.callback = .mtpUnblockPcb then at' g p io t.data else 0
  | cancelSuspendTimer r => at' g p io r - at' g p unblocking r
  | unblockSwitch r => at' g p unblocking r
  | getEntryPageTable r | checkPageTable r => at' g p admission r
  | consoleTerminate r => at' g p ending r - at' g p destroying r
  | pcbDestroy r => at' g p destroying r
  | _ => 0

/-- What a list of PCBs in place `l` counts. -/
def sumAt (l : Place) (rs : List ℕ) : ℤ := (rs.map (at' g p l)).sum

/-- What the planner itself holds. -/
def value (s : Planner) : ℤ :=
  sumAt g p (queued .new) (s.queues .new) + sumAt g p (queued .ready) (s.queues .ready) +
  sumAt g p (queued .blocked) (s.queues .blocked) +
  sumAt g p (queued .suspendedReady) (s.queues .suspendedReady) +
  sumAt g p (queued .exit) (s.queues .exit) + (if s.exec = some p then g exec else 0) +
  sumAt g p exits s.exits + sumAt g p told (s.told.map (·.1)) +
  sumAt g p destroyed s.destroyed + (if s.pcbId < p then g unborn else 0)

/-- What `c` holds of PCB `p`. -/
def held (c : Config Planner Action) : ℤ := value g p c.state + total (weight g p) c.threads

@[simp] theorem sumAt_nil (l : Place) : sumAt g p l [] = 0 := rfl

@[simp] theorem sumAt_cons (l : Place) (r : ℕ) (rs : List ℕ) :
    sumAt g p l (r :: rs) = at' g p l r + sumAt g p l rs := by simp [sumAt]

@[simp] theorem sumAt_append (l : Place) (rs qs : List ℕ) :
    sumAt g p l (rs ++ qs) = sumAt g p l rs + sumAt g p l qs := by simp [sumAt]

@[simp] theorem sumAt_squeueInsertInOrder (l : Place) (f : ℕ → Bool) (r : ℕ) : ∀ rs : List ℕ,
    sumAt g p l (squeueInsertInOrder f r rs) = at' g p l r + sumAt g p l rs
  | [] => by simp [squeueInsertInOrder]
  | q :: rs => by
    have ih := sumAt_squeueInsertInOrder l f r rs
    unfold squeueInsertInOrder
    split
    · simp
    · simp only [sumAt_cons, ih]
      ring

theorem sumAt_eq (l : Place) : ∀ rs : List ℕ, sumAt g p l rs = g l * rs.count p
  | [] => by simp
  | r :: rs => by
    rw [sumAt_cons, sumAt_eq l rs, List.count_cons, at']
    by_cases h : r = p
    · simp [h]
      ring
    · simp [h]

/-! ### What the functions hold -/

attribute [local simp] weight in
@[simp] theorem load_body (f : Controller) : load (weight g p) (body f) = 0 := by
  cases f <;> simp [body, weight]

@[simp] theorem load_movePcbToReady (cfg : KernelConfig) (r : ℕ) :
    load (weight g p) (movePcbToReady cfg r) = at' g p (entering .ready) r := by
  unfold movePcbToReady
  split <;> simp [weight]

@[simp] theorem load_dispatchTail (cfg : KernelConfig) : load (weight g p) (dispatchTail cfg) = 0 := by
  unfold dispatchTail
  split <;> simp [weight]

@[simp] theorem load_applyReply (cfg : KernelConfig) (r : Reply) (q : ℕ) :
    load (weight g p) (applyReply cfg r q) = at' g p returned q := by
  unfold applyReply
  split <;> simp [weight]

@[simp] theorem load_call (t : Timer) :
    load (weight g p) t.call = if t.callback = .mtpUnblockPcb then at' g p io t.data else 0 := by
  unfold Timer.call
  split <;> simp_all [weight]

variable {g p}

/-- What `planner->exec` holds. -/
def execAt (g : Place → ℤ) (p : ℕ) : Option ℕ → ℤ
  | none => 0
  | some q => at' g p exec q

@[simp] theorem execAt_none : execAt g p none = 0 := rfl

@[simp] theorem execAt_some (q : ℕ) : execAt g p (some q) = at' g p exec q := rfl

theorem execAt_nonneg (h0 : ∀ l, 0 ≤ g l) : ∀ x, 0 ≤ execAt g p x
  | none => le_refl _
  | some q => by
    rw [execAt_some, at']
    split_ifs
    · exact h0 exec
    · exact le_refl _

/-- What a PCB that does not exist yet weighs. -/
def unbornAt (g : Place → ℤ) (p n : ℕ) : ℤ := if n < p then g unborn else 0

theorem value_eq (s : Planner) : value g p s =
    sumAt g p (queued .new) (s.queues .new) + sumAt g p (queued .ready) (s.queues .ready) +
    sumAt g p (queued .blocked) (s.queues .blocked) +
    sumAt g p (queued .suspendedReady) (s.queues .suspendedReady) +
    sumAt g p (queued .exit) (s.queues .exit) + execAt g p s.exec +
    sumAt g p exits s.exits + sumAt g p told (s.told.map (·.1)) +
    sumAt g p destroyed s.destroyed + unbornAt g p s.pcbId := by
  unfold value unbornAt
  rcases s.exec with _ | q <;> simp [at']

/-- An action moves one PCB along the life cycle at most, or drops it. -/
theorem value_act {cfg : KernelConfig} {a : Action} {o : Outcome} {s : Planner}
    {e : Effect Planner Action} {d : ℤ} (h0 : ∀ l, 0 ≤ g l) (hd : 0 ≤ d) (hf : Follows g p d s o a)
    (h : act cfg a o s = some e) :
    value g p e.state + (if e.stop then 0 else load (weight g p) e.next) +
      total (weight g p) e.spawn ≤ value g p s + weight g p a + d := by
  have hio := h0 io
  have hex := execAt_nonneg (p := p) h0 s.exec
  cases act_branch h
  case push q r =>
    cases q <;> simp only [Follows] at hf <;> simp [value_eq, weight] <;>
      simp only [at'] <;> split_ifs <;> omega
  case assign r f =>
    have hw : 0 ≤ weight g p (assign r f) + d := by
      rcases f with st | _ | _ | _ | _ | _ | _ | _ | _ | _
      case status =>
        cases st <;> simp only [Follows] at hf <;> simp only [weight, at'] <;>
          omega
      all_goals simpa [weight] using hd
    have hv : value g p (s.setPcb r ((s.pcbs r).assign f)) = value g p s := rfl
    simp only [Bool.false_eq_true, if_false, load_nil, total_nil, hv]
    omega
  case noBlockedTimer t r ho =>
    have hl : at' g p leaving r ≤ at' g p io r + d := by
      unfold at'
      split_ifs with hr
      · exact hf hr ho
      · simpa using hd
    simpa [weight, add_assoc, value] using hl
  case notSwapped r ho =>
    have hl : at' g p leaving r ≤ d := by
      unfold at'
      split_ifs with hr
      · refine hf hr ?_
        rcases ho with ho | ho
        · exact Or.inl ho
        · exact Or.inr ho.1
      · exact hd
    simpa [weight, value] using hl
  case swapLost r ho =>
    have hl : at' g p leaving r ≤ d := by
      unfold at'
      split_ifs with hr
      · exact hf hr (Or.inr (by simp))
      · exact hd
    simpa [weight, value] using hl
  case unblockReady r hs | unblockSuspended r hs | unblockError r hs =>
    have hl : ((s.pcbs r).status = .blocked → at' g p (entering .ready) r ≤ at' g p unblocking r + d) ∧
        ((s.pcbs r).status = .suspendedBlocked →
          at' g p (entering .suspendedReady) r ≤ at' g p unblocking r + d) ∧
        at' g p leaving r ≤ at' g p unblocking r + d := by
      unfold at'
      split_ifs with hr
      · exact hf hr
      · simp [hd]
    first
      | simpa [weight, add_assoc] using hl.1 hs
      | simpa [weight, add_assoc] using hl.2.1 hs
      | simpa [weight, add_assoc] using hl.2.2
  all_goals
    simp only [Follows] at hf
    simp [value_eq, weight, *]
  all_goals first
    | omega
    | (simp only [at', unbornAt]; split_ifs <;> omega)

/-- No text owes a PCB. -/
theorem flow_weight {cfg : KernelConfig} {a : Action} {l : List Action} {ts : List (List Action)}
    (h0 : ∀ l, 0 ≤ g l) (hb : g (queued .blocked) ≤ g arming) (h : Flow cfg a l ts) :
    Grounded (weight g p) l ∧ ∀ t ∈ ts, Grounded (weight g p) t := by
  have hat : ∀ l r, 0 ≤ at' g p l r := fun l r => by
    have := h0 l
    unfold at'
    split_ifs <;> omega
  have har : ∀ r, at' g p (queued .blocked) r ≤ at' g p arming r := fun r => by
    unfold at'
    split_ifs <;> omega
  cases h
  case loop f => cases f <;> simp [Grounded, Suffixes, body, weight]
  case switchReady r | unblockReady r | popSuspendedReady r | pageTable r =>
    unfold movePcbToReady
    split <;> simp [Grounded, Suffixes, weight, hat]
  case takeExec r q =>
    unfold applyReply
    split <;> simp [Grounded, Suffixes, weight, hat]
  case recieved r =>
    unfold incommingDispatch dispatchTail
    split <;> simp [Grounded, Suffixes, weight]
  case timerSleep t | callback t =>
    rcases t with ⟨t, _ | _, q⟩ <;>
      simp [Grounded, Suffixes, weight, Timer.call, hat]
  all_goals
    simp [Grounded, Suffixes, weight, hat, har]

section Step

variable {cfg : KernelConfig} {ok : Config Planner Action → ℕ × Outcome → Prop}
  {c₀ c c' : Config Planner Action} {x : ℕ × Outcome} [Starts cfg ok c₀]

/-- No thread ever owes a PCB. -/
theorem reach_grounded (h0 : ∀ l, 0 ≤ g l) (hb : g (queued .blocked) ≤ g arming)
    (h : Reach (act cfg) ok c₀ c) : ∀ k ∈ c.threads, Grounded (weight g p) k := by
  have hf : ∀ a l ts, Flow cfg a l ts → Suffixes (fun l => 0 ≤ load (weight g p) l ∨
      weight g p a ≤ load (weight g p) l) l ∧ ∀ t ∈ ts, Grounded (weight g p) t := fun a l ts hf => by
    obtain ⟨h1, h2⟩ := flow_weight h0 hb hf
    exact ⟨h1.imp fun _ => Or.inl, h2⟩
  refine Starts.inv (I := fun c => ∀ k ∈ c.threads, Grounded (weight g p) k) h ?_ ?_ ?_
  · simp [start, Grounded, Suffixes, weight]
  · exact fun _ _ _ _ _ _ hc _ hx => flow_grounded hx hc hf
  · exact fun _ _ _ _ _ _ _ hc hx => reuse_grounded hx hc hf

theorem start_held : held g p (start cfg) = if 0 < p then g unborn else 0 := by
  simp [held, start, value, weight]
  rfl

/-- Where memory is taken again its PCB enters as a new one. -/
theorem held_reuse {q : ℕ} (h : step (actReuse cfg q) c x = some c') :
    held g p c' + g destroyed * (if q = p then c.state.destroyed.count p else 0 : ℕ) =
      held g p c + at' g p (entering .new) q := by
  obtain ⟨a, k, e, hk, he, hs, ht⟩ := total_step (weight g p) h
  obtain ⟨-, prog, rfl, rfl⟩ := actReuse_some he
  have h1 : sumAt g p destroyed (c.state.destroyed.filter (· ≠ q)) +
      g destroyed * (if q = p then c.state.destroyed.count p else 0 : ℕ) =
        sumAt g p destroyed c.state.destroyed := by
    rw [sumAt_eq, sumAt_eq]
    split_ifs with hq
    · subst hq
      rw [List.count_eq_zero.mpr fun hm => by simpa using List.of_mem_filter hm]
      simp
    · rw [List.count_filter (by simpa using Ne.symm hq)]
      simp
  have h2 : load (weight g p) (movePcbToNew q) = at' g p (entering .new) q := by simp [weight]
  unfold held
  rw [ht, hs, Effect.rest, if_neg Bool.false_ne_true, load_append, h2]
  simp only [value_eq, Planner.recreate, Planner.setPcb, weight, total_nil]
  rw [← h1]
  ring

/-- **The life cycle.** Where the moves of its action do not raise `g` by more
than `d`, neither does a step raise what is held of `p`. -/
theorem held_step {d : ℤ} (h0 : ∀ l, 0 ≤ g l) (hb : g (queued .blocked) ≤ g arming) (hd : 0 ≤ d)
    (hr : Reach (act cfg) ok c₀ c)
    (hf : ∀ a k, c.threads[x.1]? = some (a :: k) → Follows g p d c.state x.2 a)
    (h : step (act cfg) c x = some c') : held g p c' ≤ held g p c + d :=
  balance_step h (reach_grounded h0 hb hr) fun a k _ hk he => value_act h0 hd (hf a k hk) he

end Step

end Kernel
end Kiss
