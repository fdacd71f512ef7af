/-
# Threads that interleave over a shared state

A thread is the list of actions it has still to do, and a system is what one
action does: from the shared state and what the environment answers, the new
state, what the thread does next in place of the action, and the threads it
starts; `none` when the action has to wait. A run takes any thread at each
step, so what is proved of `Reach` holds of every interleaving.

Most invariants of such systems count: a semaphore's value and the posts still
to come, the places that hold an object. `total w` adds up a weight over all
the actions still to be done, and a step changes it by what the one action
done and the actions that take its place weigh (`total_step`). A weight may be
negative (a wait weighs what the matching post gives back), so `Grounded` says
that no thread is ever in debt.

Key definitions: `step`, `run`, `Reach`, `Trace`, `load`, `total`, `Suffixes`, `Grounded`.
Key theorems: `step_some`, `Reach.inv`, `reach_of_run`, `trace_of_run`, `threads_step`,
`total_step`, `le_total`.
-/
import Mathlib.Algebra.BigOperators.Group.List.Basic
import Mathlib.Algebra.Order.BigOperators.Group.List
import Mathlib.Data.Int.Basic
import Mathlib.Tactic.Ring

namespace Kiss
namespace Threads

/-- What an action does: the state after it, the actions that take its place,
the threads it starts, and whether its thread ends there. -/
structure Effect (σ α : Type*) where
  state : σ
  next : List α := []
  spawn : List (List α) := []
  stop : Bool := false

/-- The shared state and the threads, each the actions it has still to do. -/
structure Config (σ α : Type*) where
  state : σ
  threads : List (List α)

variable {σ α ρ : Type*}

/-- What is left of a thread whose head action had effect `e` and whose other
actions are `k`. -/
def Effect.rest (e : Effect σ α) (k : List α) : List α := if e.stop then [] else e.next ++ k

/-- One step: thread `x.1` does its first action, the environment answers `x.2`. -/
def step (act : α → ρ → σ → Option (Effect σ α)) (c : Config σ α) (x : ℕ × ρ) :
    Option (Config σ α) :=
  match c.threads[x.1]? with
  | some (a :: k) => (act a x.2 c.state).map fun e =>
      ⟨e.state, c.threads.set x.1 (e.rest k) ++ e.spawn⟩
  | _ => none

/-- The steps `xs`, one after the other, as long as each passes `check`. -/
def run (act : α → ρ → σ → Option (Effect σ α)) (check : Config σ α → ℕ × ρ → Bool) :
    Config σ α → List (ℕ × ρ) → Option (Config σ α)
  | c, [] => some c
  | c, x :: xs => if check c x then (step act c x).bind fun c' => run act check c' xs else none

/-- The configurations reached from `c₀` by runs whose every step satisfies `ok`. -/
inductive Reach (act : α → ρ → σ → Option (Effect σ α)) (ok : Config σ α → ℕ × ρ → Prop)
    (c₀ : Config σ α) : Config σ α → Prop
  | start : Reach act ok c₀ c₀
  | step {c c' : Config σ α} (x : ℕ × ρ) : Reach act ok c₀ c → ok c x → step act c x = some c' →
      Reach act ok c₀ c'

section Steps

variable {act : α → ρ → σ → Option (Effect σ α)} {ok : Config σ α → ℕ × ρ → Prop}
  {c c' c₀ : Config σ α} {x : ℕ × ρ}

/-- A step is one action of one thread. -/
theorem step_some (h : step act c x = some c') : ∃ a k e, c.threads[x.1]? = some (a :: k) ∧
    act a x.2 c.state = some e ∧ c' = ⟨e.state, c.threads.set x.1 (e.rest k) ++ e.spawn⟩ := by
  unfold step at h
  split at h
  · rename_i a k hk
    obtain ⟨e, he, rfl⟩ := Option.map_eq_some_iff.mp h
    exact ⟨a, k, e, hk, he, rfl⟩
  · cases h

/-- A property that holds at the start and that every step keeps holds in
every run. -/
theorem Reach.inv {I : Config σ α → Prop} (h0 : I c₀)
    (hs : ∀ c c' x, Reach act ok c₀ c → I c → ok c x → Threads.step act c x = some c' → I c')
    (h : Reach act ok c₀ c) : I c := by
  induction h with
  | start => exact h0
  | step x hr hok hx ih => exact hs _ _ x hr ih hok hx

/-- A stronger condition on the steps reaches less. -/
theorem Reach.mono {ok' : Config σ α → ℕ × ρ → Prop} (hm : ∀ c x, ok c x → ok' c x)
    (h : Reach act ok c₀ c) : Reach act ok' c₀ c := by
  induction h with
  | start => exact .start
  | step x _ hok hx ih => exact .step x ih (hm _ _ hok) hx

/-- What `run` computes is reached. -/
theorem reach_of_run {check : Config σ α → ℕ × ρ → Bool} (hc : ∀ c x, check c x = true → ok c x) :
    ∀ {xs : List (ℕ × ρ)} {c c' : Config σ α}, Reach act ok c₀ c → run act check c xs = some c' →
      Reach act ok c₀ c'
  | [], c, c', h, hr => by
    simp only [run, Option.some.injEq] at hr
    exact hr ▸ h
  | x :: xs, c, c', h, hr => by
    unfold run at hr
    split at hr
    · obtain ⟨c1, h1, h2⟩ := Option.bind_eq_some_iff.mp hr
      exact reach_of_run hc (.step x h (hc _ _ ‹_›) h1) h2
    · cases hr

/-! ### Traces -/

/-- What a step did: its thread, from the action done on, and what the environment
answered. -/
structure Event (α ρ : Type*) where
  thread : List α
  outcome : ρ

/-- The runs with the events of their steps, oldest first. -/
inductive Trace (act : α → ρ → σ → Option (Effect σ α)) (ok : Config σ α → ℕ × ρ → Prop)
    (c₀ : Config σ α) : Config σ α → List (Event α ρ) → Prop
  | start : Trace act ok c₀ c₀ []
  | step {c c' : Config σ α} {tr : List (Event α ρ)} (x : ℕ × ρ) (k : List α) :
      Trace act ok c₀ c tr → ok c x → c.threads[x.1]? = some k → Threads.step act c x = some c' →
      Trace act ok c₀ c' (tr ++ [⟨k, x.2⟩])

theorem Trace.reach {tr : List (Event α ρ)} (h : Trace act ok c₀ c tr) : Reach act ok c₀ c := by
  induction h with
  | start => exact .start
  | step x k _ hok _ hx ih => exact .step x ih hok hx

/-- The events of the steps `xs`. -/
def events (act : α → ρ → σ → Option (Effect σ α)) :
    Config σ α → List (ℕ × ρ) → List (Event α ρ)
  | _, [] => []
  | c, x :: xs => match c.threads[x.1]?, Threads.step act c x with
    | some k, some c' => ⟨k, x.2⟩ :: events act c' xs
    | _, _ => []

theorem trace_of_run {check : Config σ α → ℕ × ρ → Bool} (hc : ∀ c x, check c x = true → ok c x) :
    ∀ {xs : List (ℕ × ρ)} {c c' : Config σ α} {tr : List (Event α ρ)}, Trace act ok c₀ c tr →
      run act check c xs = some c' → Trace act ok c₀ c' (tr ++ events act c xs)
  | [], c, c', tr, h, hr => by
    simp only [run, Option.some.injEq] at hr
    rw [events, List.append_nil]
    exact hr ▸ h
  | x :: xs, c, c', tr, h, hr => by
    unfold run at hr
    split at hr
    · obtain ⟨c1, h1, h2⟩ := Option.bind_eq_some_iff.mp hr
      obtain ⟨a, k, e, hk, -⟩ := step_some h1
      have h3 := trace_of_run hc (.step x _ h (hc _ _ ‹_›) hk h1) h2
      rw [events, hk, h1]
      rwa [List.append_assoc, List.singleton_append] at h3
    · cases hr

/-! ### The threads after a step -/

/-- A thread after a step: another one that was there, what is left of the one
that ran, or a new one. -/
theorem mem_threads {e : Effect σ α} {ts : List (List α)} {i : ℕ} {k k' : List α}
    (h : k' ∈ ts.set i (e.rest k) ++ e.spawn) :
    (∃ j, j ≠ i ∧ ts[j]? = some k') ∨ k' = e.rest k ∨ k' ∈ e.spawn := by
  rcases List.mem_append.mp h with h | h
  · obtain ⟨j, hj, hk⟩ := List.mem_iff_getElem.mp h
    rw [List.getElem_set] at hk
    split at hk
    · exact Or.inr (Or.inl hk.symm)
    · rename_i hij
      rw [List.length_set] at hj
      exact Or.inl ⟨j, Ne.symm hij, by rw [List.getElem?_eq_getElem hj, hk]⟩
  · exact Or.inr (Or.inr h)

theorem mem_threads_of_ne {ts us : List (List α)} {i j : ℕ} {k l : List α} (hl : ts[j]? = some l)
    (hj : j ≠ i) : l ∈ ts.set i k ++ us := by
  refine List.mem_append_left _ (List.mem_of_getElem? (i := j) ?_)
  rw [List.getElem?_set_ne (Ne.symm hj), hl]

theorem mem_threads_self {ts us : List (List α)} {i : ℕ} {k l : List α} (hl : ts[i]? = some l) :
    k ∈ ts.set i k ++ us := by
  obtain ⟨hi, -⟩ := List.getElem?_eq_some_iff.mp hl
  exact List.mem_append_left _ (List.mem_of_getElem? (List.getElem?_set_self hi))

/-- A property of threads that every action keeps. -/
theorem threads_step {T : List α → Prop} (h : step act c x = some c') (hT : ∀ k ∈ c.threads, T k)
    (ha : ∀ a k e, T (a :: k) → act a x.2 c.state = some e →
      T (e.rest k) ∧ ∀ t ∈ e.spawn, T t) : ∀ k ∈ c'.threads, T k := by
  obtain ⟨a, k, e, hk, he, rfl⟩ := step_some h
  obtain ⟨h1, h2⟩ := ha a k e (hT _ (List.mem_of_getElem? hk)) he
  intro k' hk'
  rcases mem_threads hk' with ⟨j, -, hj⟩ | rfl | h
  · exact hT _ (List.mem_of_getElem? hj)
  · exact h1
  · exact h2 _ h

end Steps

/-! ### Properties of every suffix of a thread -/

/-- `Q` of a thread and of every thread it can become by dropping actions. -/
def Suffixes (Q : List α → Prop) : List α → Prop
  | [] => Q []
  | a :: k => Q (a :: k) ∧ Suffixes Q k

theorem Suffixes.self {Q : List α → Prop} : ∀ {k : List α}, Suffixes Q k → Q k
  | [], h => h
  | _ :: _, h => h.1

theorem Suffixes.tail {Q : List α → Prop} {a : α} {k : List α} (h : Suffixes Q (a :: k)) :
    Suffixes Q k := h.2

theorem Suffixes.append {Q : List α → Prop} : ∀ {l k : List α}, Suffixes (fun l => Q (l ++ k)) l →
    Suffixes Q k → Suffixes Q (l ++ k)
  | [], _, _, hk => hk
  | _ :: _, _, hl, hk => ⟨hl.1, Suffixes.append hl.2 hk⟩

theorem Suffixes.imp {Q Q' : List α → Prop} (h : ∀ k, Q k → Q' k) : ∀ {k : List α}, Suffixes Q k →
    Suffixes Q' k
  | [], hk => h _ hk
  | _ :: _, hk => ⟨h _ hk.1, Suffixes.imp h hk.2⟩

/-! ### Weights -/

/-- The weight of the actions of a thread. -/
def load (w : α → ℤ) (k : List α) : ℤ := (k.map w).sum

/-- The weight of all the actions still to be done. -/
def total (w : α → ℤ) (ts : List (List α)) : ℤ := (ts.map (load w)).sum

@[simp] theorem load_nil (w : α → ℤ) : load w [] = 0 := rfl

@[simp] theorem load_cons (w : α → ℤ) (a : α) (k : List α) : load w (a :: k) = w a + load w k := by
  simp [load]

@[simp] theorem load_append (w : α → ℤ) (k l : List α) :
    load w (k ++ l) = load w k + load w l := by
  simp [load]

@[simp] theorem total_nil (w : α → ℤ) : total w [] = 0 := rfl

@[simp] theorem total_cons (w : α → ℤ) (k : List α) (ts : List (List α)) :
    total w (k :: ts) = load w k + total w ts := by
  simp [total]

@[simp] theorem total_append (w : α → ℤ) (ts us : List (List α)) :
    total w (ts ++ us) = total w ts + total w us := by
  simp [total]

theorem total_set (w : α → ℤ) : ∀ (ts : List (List α)) (i : ℕ) (k k' : List α),
    ts[i]? = some k → total w (ts.set i k') = total w ts - load w k + load w k'
  | [], i, k, k', h => by simp at h
  | t :: ts, 0, k, k', h => by
    simp only [List.getElem?_cons_zero, Option.some.injEq] at h
    subst h
    simp only [List.set_cons_zero, total_cons]
    ring
  | t :: ts, i + 1, k, k', h => by
    simp only [List.getElem?_cons_succ] at h
    simp only [List.set_cons_succ, total_cons, total_set w ts i k k' h]
    ring

/-- No thread is in debt, now or after any of its actions. -/
def Grounded (w : α → ℤ) : List α → Prop := Suffixes fun k => 0 ≤ load w k

theorem Grounded.nonneg {w : α → ℤ} {k : List α} (h : Grounded w k) : 0 ≤ load w k :=
  Suffixes.self h

/-- A weight that is never negative grounds every thread. -/
theorem grounded_of_nonneg {w : α → ℤ} (hw : ∀ a, 0 ≤ w a) : ∀ k : List α, Grounded w k
  | [] => le_refl _
  | a :: k => by
    refine ⟨?_, grounded_of_nonneg hw k⟩
    have h1 := hw a
    have h2 := (grounded_of_nonneg hw k).nonneg
    simp only [load_cons]
    omega

theorem total_nonneg {w : α → ℤ} : ∀ {ts : List (List α)}, (∀ k ∈ ts, 0 ≤ load w k) → 0 ≤ total w ts
  | [], _ => le_refl _
  | k :: ts, h => by
    have h1 := h k List.mem_cons_self
    have h2 := total_nonneg fun t ht => h t (List.mem_cons_of_mem _ ht)
    rw [total_cons]
    omega

/-- One thread weighs at most what all do. -/
theorem le_total {w : α → ℤ} : ∀ {ts : List (List α)} {k : List α}, (∀ t ∈ ts, 0 ≤ load w t) → k ∈ ts →
    load w k ≤ total w ts
  | t :: ts, k, h, hk => by
    have h1 := h t List.mem_cons_self
    have h2 := total_nonneg fun u hu => h u (List.mem_cons_of_mem t hu)
    rw [total_cons]
    rcases List.mem_cons.mp hk with rfl | hk
    · omega
    · have := le_total (fun u hu => h u (List.mem_cons_of_mem t hu)) hk
      omega

/-- Two different threads weigh at most what all do. -/
theorem add_le_total {w : α → ℤ} {ts : List (List α)} {i j : ℕ} {k l : List α}
    (h : ∀ t ∈ ts, 0 ≤ load w t) (hi : ts[i]? = some k) (hj : ts[j]? = some l) (hij : i ≠ j) :
    load w k + load w l ≤ total w ts := by
  have h1 := total_set w ts i k [] hi
  have h2 : l ∈ ts.set i [] := by
    refine List.mem_of_getElem? (i := j) ?_
    rw [List.getElem?_set_ne hij]
    exact hj
  have h3 : ∀ t ∈ ts.set i [], 0 ≤ load w t := by
    intro t ht
    rcases List.mem_or_eq_of_mem_set ht with ht | rfl
    · exact h t ht
    · exact le_refl _
  have h4 := le_total h3 h2
  rw [load_nil] at h1
  omega

theorem load_nonpos {w : α → ℤ} : ∀ {k : List α}, (∀ a ∈ k, w a ≤ 0) → load w k ≤ 0
  | [], _ => le_refl _
  | a :: k, h => by
    have h1 := h a List.mem_cons_self
    have h2 := load_nonpos fun b hb => h b (List.mem_cons_of_mem _ hb)
    rw [load_cons]
    omega

theorem total_nonpos {w : α → ℤ} {ts : List (List α)} (h : ∀ k ∈ ts, load w k ≤ 0) :
    total w ts ≤ 0 := load_nonpos h

/-- Where no other thread weighs anything, all weigh at most what one does. -/
theorem total_le {w : α → ℤ} {ts : List (List α)} {i : ℕ} {k : List α} (hi : ts[i]? = some k)
    (h : ∀ j l, j ≠ i → ts[j]? = some l → load w l ≤ 0) : total w ts ≤ load w k := by
  have h1 := total_set w ts i k [] hi
  have h2 : total w (ts.set i []) ≤ 0 := by
    refine total_nonpos fun l hl => ?_
    obtain ⟨j, hj, rfl⟩ := List.mem_iff_getElem.mp hl
    rw [List.getElem_set]
    split
    · exact le_refl _
    · rename_i hij
      rw [List.length_set] at hj
      exact h j _ (Ne.symm hij) (List.getElem?_eq_getElem hj)
  rw [load_nil] at h1
  omega

/-- How many threads satisfy `f`, where each of them weighs something. -/
theorem countP_le_total (f : List α → Bool) (w : α → ℤ) : ∀ {ts : List (List α)},
    (∀ k ∈ ts, 0 ≤ load w k ∧ (f k = true → 1 ≤ load w k)) → (ts.countP f : ℤ) ≤ total w ts
  | [], _ => by simp
  | k :: ts, h => by
    have h1 := h k List.mem_cons_self
    have h2 := countP_le_total f w fun l hl => h l (List.mem_cons_of_mem _ hl)
    rw [List.countP_cons, total_cons]
    split_ifs with hf
    · have := h1.2 hf
      push_cast
      omega
    · push_cast
      omega

/-- How many threads satisfy `f`, where only thread `i` can. -/
theorem countP_unique {f : List α → Bool} : ∀ {ts : List (List α)} {i : ℕ} {k : List α},
    ts[i]? = some k → (∀ j l, ts[j]? = some l → f l = true → j = i) →
    ts.countP f = if f k = true then 1 else 0
  | [], i, k, hi, _ => by simp at hi
  | t :: ts, 0, k, hi, h => by
    obtain rfl : t = k := by simpa using hi
    have h0 : ts.countP f = 0 := by
      refine List.countP_eq_zero.mpr fun l hl hf => ?_
      obtain ⟨j, hj⟩ := List.mem_iff_getElem?.mp hl
      have := h (j + 1) l (by simpa using hj) hf
      omega
    rw [List.countP_cons, h0, Nat.zero_add]
  | t :: ts, i + 1, k, hi, h => by
    have ht : ¬ f t = true := fun hf => by
      have := h 0 t rfl hf
      omega
    have ih : ts.countP f = if f k = true then 1 else 0 :=
      countP_unique (i := i) (by simpa using hi) fun j l hl hf => by
        have := h (j + 1) l (by simpa using hl) hf
        omega
    rw [List.countP_cons, if_neg ht, ih, Nat.add_zero]

/-- How many threads satisfy `f` after one of them changes. -/
theorem countP_set (f : List α → Bool) : ∀ {ts : List (List α)} {i : ℕ} {k : List α} (k' : List α),
    ts[i]? = some k → (ts.set i k').countP f + (f k).toNat = ts.countP f + (f k').toNat
  | [], i, k, _, hi => by simp at hi
  | t :: ts, 0, k, k', hi => by
    obtain rfl : t = k := by simpa using hi
    rw [List.set_cons_zero, List.countP_cons, List.countP_cons]
    cases f t <;> cases f k' <;> simp
  | t :: ts, i + 1, k, k', hi => by
    have ih := countP_set f k' (show ts[i]? = some k by simpa using hi)
    rw [List.set_cons_succ, List.countP_cons, List.countP_cons]
    omega

theorem load_add (v w : α → ℤ) : ∀ k : List α, load (fun a => v a + w a) k = load v k + load w k
  | [] => rfl
  | a :: k => by
    rw [load_cons, load_cons, load_cons, load_add v w k]
    ring

theorem total_add (v w : α → ℤ) : ∀ ts : List (List α),
    total (fun a => v a + w a) ts = total v ts + total w ts
  | [] => rfl
  | k :: ts => by
    rw [total_cons, total_cons, total_cons, total_add v w ts, load_add]
    ring

/-- What two weights do not owe, they do not owe together. -/
theorem grounded_add {v w : α → ℤ} : ∀ {k : List α}, Grounded v k → Grounded w k →
    Grounded (fun a => v a + w a) k
  | [], _, _ => le_refl _
  | _ :: _, hv, hw => by
    refine ⟨?_, grounded_add hv.tail hw.tail⟩
    show 0 ≤ load (fun a => v a + w a) (_ :: _)
    rw [load_add]
    exact add_nonneg hv.self hw.self

section Balance

variable {act : α → ρ → σ → Option (Effect σ α)} {c c' : Config σ α} {x : ℕ × ρ}

/-- A step changes the total by what the action done and what takes its place
weigh. -/
theorem total_step (w : α → ℤ) (h : step act c x = some c') : ∃ a k e,
    c.threads[x.1]? = some (a :: k) ∧ act a x.2 c.state = some e ∧ c'.state = e.state ∧
    total w c'.threads = total w c.threads - w a - load w k + load w (e.rest k) + total w e.spawn := by
  obtain ⟨a, k, e, hk, he, rfl⟩ := step_some h
  refine ⟨a, k, e, hk, he, rfl, ?_⟩
  simp only [total_append, total_set w c.threads x.1 _ _ hk, load_cons]
  ring

/-- **Balance.** If no action raises the measure `m` of the state and the weight
of what is still to be done together by more than `d`, neither does a step: no
thread is in debt, so what ends with it was not owed. -/
theorem balance_step {m : σ → ℤ} {w : α → ℤ} {d : ℤ} (h : step act c x = some c')
    (hg : ∀ k ∈ c.threads, Grounded w k)
    (ha : ∀ a k e, c.threads[x.1]? = some (a :: k) → act a x.2 c.state = some e →
      m e.state + (if e.stop then 0 else load w e.next) + total w e.spawn ≤ m c.state + w a + d) :
    m c'.state + total w c'.threads ≤ m c.state + total w c.threads + d := by
  obtain ⟨a, k, e, hk, he, hs, ht⟩ := total_step w h
  have h1 := ha a k e hk he
  have h2 : 0 ≤ load w k := (hg _ (List.mem_of_getElem? hk)).tail.self
  rw [ht, hs, Effect.rest]
  split_ifs at h1 ⊢
  · rw [load_nil]; omega
  · rw [load_append]; omega

/-- Groundedness is kept when what takes the place of an action is grounded, or
owes no more than the action did. -/
theorem grounded_step {w : α → ℤ} (h : step act c x = some c') (hg : ∀ k ∈ c.threads, Grounded w k)
    (ha : ∀ a k e, a :: k ∈ c.threads → act a x.2 c.state = some e →
      Suffixes (fun l => 0 ≤ load w l ∨ w a ≤ load w l) e.next ∧ ∀ t ∈ e.spawn, Grounded w t) :
    ∀ k ∈ c'.threads, Grounded w k := by
  obtain ⟨a, k, e, hk, he, rfl⟩ := step_some h
  obtain ⟨h1, h2⟩ := ha a k e (List.mem_of_getElem? hk) he
  have hak := hg _ (List.mem_of_getElem? hk)
  have h3 : 0 ≤ load w k := hak.tail.self
  have h4 : 0 ≤ w a + load w k := by simpa using hak.self
  intro k' hk'
  rcases mem_threads hk' with ⟨j, -, hj⟩ | rfl | h
  · exact hg _ (List.mem_of_getElem? hj)
  · unfold Effect.rest
    split
    · exact le_refl _
    · refine Suffixes.append (h1.imp fun l hl => ?_) hak.tail
      rw [load_append]
      omega
  · exact h2 _ h

/-- **Permit.** At most one thread holds the permit `w` counts, so what `F` says
of the state is the holder's alone to change. -/
theorem hold_step {w : α → ℤ} {F : σ → List α → Prop} (h : step act c x = some c')
    (hn : ∀ k ∈ c.threads, 0 ≤ load w k) (h1 : total w c.threads ≤ 1)
    (hF : ∀ k ∈ c.threads, 1 ≤ load w k → F c.state k)
    (hrun : ∀ a k e, c.threads[x.1]? = some (a :: k) → act a x.2 c.state = some e →
      (1 ≤ load w (e.rest k) → F e.state (e.rest k)) ∧ ∀ t ∈ e.spawn, 1 ≤ load w t → F e.state t)
    (hidle : ∀ a k e, c.threads[x.1]? = some (a :: k) → act a x.2 c.state = some e →
      load w (a :: k) ≤ 0 → ∀ t ∈ c.threads, 1 ≤ load w t → F c.state t → F e.state t) :
    ∀ k ∈ c'.threads, 1 ≤ load w k → F c'.state k := by
  obtain ⟨a, k, e, hk, he, rfl⟩ := step_some h
  obtain ⟨h2, h3⟩ := hrun a k e hk he
  intro k' hk' hw
  rcases mem_threads hk' with ⟨j, hj, hk'⟩ | rfl | h
  · have h4 := add_le_total hn hk' hk hj
    exact hidle a k e hk he (by omega) k' (List.mem_of_getElem? hk') hw
      (hF _ (List.mem_of_getElem? hk') hw)
  · exact h2 hw
  · exact h3 _ h hw

end Balance

end Threads
end Kiss
