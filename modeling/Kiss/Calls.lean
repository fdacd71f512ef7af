/-
# Calls as one step

A coarser view of a system of threads: some lists of actions are calls, which a
thread does from the first action to the last with no other thread in between,
and every other action is a step of its own. What such a run reaches the threads
reach step by step (`CallReach.reach`), so what holds of `Reach` holds of it.

Key definitions: `Allows`, `Alone`, `CallReach`, `runCalls`.
Key theorems: `reach_alone`, `CallReach.reach`, `callReach_of_run`.
-/
import Kiss.Threads

namespace Kiss
namespace Threads

variable {σ α ρ : Type*}

/-- The action done and what the environment answers satisfy `ok`. -/
def Allows (ok : α → ρ → Prop) (c : Config σ α) (x : ℕ × ρ) : Prop :=
  ∀ a k, c.threads[x.1]? = some (a :: k) → ok a x.2

/-- The actions of a list, one after the other, take the state from `s` to `s'`
and start the threads `ts`. -/
inductive Alone (act : α → ρ → σ → Option (Effect σ α)) (ok : α → ρ → Prop) :
    List α → σ → σ → List (List α) → Prop
  | nil (s : σ) : Alone act ok [] s s []
  | cons {a : α} {o : ρ} {s s' : σ} {e : Effect σ α} {k : List α} {ts : List (List α)} (ho : ok a o)
      (h : act a o s = some e) (hs : e.stop = false) (hk : Alone act ok (e.next ++ k) e.state s' ts) :
      Alone act ok (a :: k) s s' (e.spawn ++ ts)

/-- The configurations reached when every list in `calls` is one step. -/
inductive CallReach (act : α → ρ → σ → Option (Effect σ α)) (ok : α → ρ → Prop)
    (calls : List α → Prop) (c₀ : Config σ α) : Config σ α → Prop
  | start : CallReach act ok calls c₀ c₀
  | step {c c' : Config σ α} (x : ℕ × ρ) (hr : CallReach act ok calls c₀ c)
      (hn : ∀ m k, calls m → c.threads[x.1]? ≠ some (m ++ k)) (ho : Allows ok c x)
      (hx : Threads.step act c x = some c') : CallReach act ok calls c₀ c'
  | call {c : Config σ α} {s : σ} (i : ℕ) (m k : List α) (ts : List (List α))
      (hr : CallReach act ok calls c₀ c) (hm : calls m) (hi : c.threads[i]? = some (m ++ k))
      (ha : Alone act ok m c.state s ts) : CallReach act ok calls c₀ ⟨s, c.threads.set i k ++ ts⟩

variable {act : α → ρ → σ → Option (Effect σ α)} {ok : α → ρ → Prop} {calls : List α → Prop}
  {c₀ c : Config σ α}

/-- A thread that runs alone is a run. -/
theorem reach_alone {l : List α} {s s' : σ} {ts : List (List α)} (h : Alone act ok l s s' ts) :
    ∀ {c : Config σ α} {i : ℕ} {k : List α}, c.state = s → c.threads[i]? = some (l ++ k) →
      Reach act (Allows ok) c₀ c → Reach act (Allows ok) c₀ ⟨s', c.threads.set i k ++ ts⟩ := by
  induction h with
  | nil s =>
    intro c i k hs hi hr
    obtain ⟨hlt, hget⟩ := List.getElem?_eq_some_iff.mp hi
    have h1 : c.threads.set i k = c.threads := by
      rw [← show c.threads[i] = k from hget]
      exact List.set_getElem_self hlt
    rw [h1, List.append_nil, ← hs]
    exact hr
  | @cons a o s s' e l ts ho h hst _ ih =>
    intro c i k hs hi hr
    obtain ⟨hlt, -⟩ := List.getElem?_eq_some_iff.mp hi
    have hstep : Threads.step act c (i, o) =
        some ⟨e.state, c.threads.set i (e.rest (l ++ k)) ++ e.spawn⟩ := by
      unfold Threads.step
      rw [hi]
      simp only [List.cons_append]
      rw [hs, h]
      rfl
    have hok : Allows ok c (i, o) := by
      intro b k' hb
      rw [hi] at hb
      cases hb
      exact ho
    have hrest : e.rest (l ++ k) = e.next ++ l ++ k := by
      rw [Effect.rest, hst, if_neg Bool.false_ne_true, List.append_assoc]
    rw [hrest] at hstep
    have h1 := ih (c := ⟨e.state, c.threads.set i (e.next ++ l ++ k) ++ e.spawn⟩) (i := i) (k := k) rfl
      (by rw [List.getElem?_append_left (by simpa using hlt), List.getElem?_set_self hlt])
      (.step (i, o) hr hok hstep)
    rw [List.set_append_left _ _ (by simpa using hlt), List.set_set, List.append_assoc] at h1
    exact h1

/-- What the calls reach is reached step by step. -/
theorem CallReach.reach (h : CallReach act ok calls c₀ c) : Reach act (Allows ok) c₀ c := by
  induction h with
  | start => exact .start
  | step x _ _ ho hx ih => exact .step x ih ho hx
  | call i m k ts _ _ hi ha ih => exact reach_alone ha rfl hi ih

/-! ### Runs -/

/-- `Alone`, evaluated: `n` actions at most, all answered `o`. -/
def runAlone (act : α → ρ → σ → Option (Effect σ α)) (check : α → ρ → Bool) (o : ρ) :
    ℕ → List α → σ → Option (σ × List (List α))
  | _, [], s => some (s, [])
  | 0, _ :: _, _ => none
  | n + 1, a :: k, s => if check a o then (act a o s).bind fun e =>
      if e.stop then none
      else (runAlone act check o n (e.next ++ k) e.state).map fun r => (r.1, e.spawn ++ r.2)
    else none

theorem alone_of_run {check : α → ρ → Bool} (hc : ∀ a o, check a o = true → ok a o) {o : ρ} :
    ∀ {n : ℕ} {k : List α} {s s' : σ} {ts : List (List α)},
      runAlone act check o n k s = some (s', ts) → Alone act ok k s s' ts
  | n, [], s, s', ts, h => by
    rw [runAlone] at h
    cases h
    exact .nil s
  | 0, _ :: _, s, s', ts, h => by cases h
  | n + 1, a :: k, s, s', ts, h => by
    rw [runAlone] at h
    split at h
    · rename_i hok
      obtain ⟨e, he, h1⟩ := Option.bind_eq_some_iff.mp h
      split at h1
      · cases h1
      · rename_i hst
        obtain ⟨⟨s1, us⟩, h2, h3⟩ := Option.map_eq_some_iff.mp h1
        cases h3
        exact .cons (hc a o hok) he (by simpa using hst) (alone_of_run hc h2)
    · cases h

/-- `CallReach`, evaluated: `split` finds the call a thread starts with. -/
def runCalls (act : α → ρ → σ → Option (Effect σ α)) (check : α → ρ → Bool)
    (split : List α → Option (List α × List α)) : Config σ α → List (ℕ × ρ) → Option (Config σ α)
  | c, [] => some c
  | c, x :: xs => match c.threads[x.1]? with
    | some (a :: t) => match split (a :: t) with
      | some (m, k) => (runAlone act check x.2 10 m c.state).bind fun r =>
          runCalls act check split ⟨r.1, c.threads.set x.1 k ++ r.2⟩ xs
      | none => if check a x.2 then (Threads.step act c x).bind fun c' => runCalls act check split c' xs
        else none
    | _ => none

/-- What `runCalls` computes is reached. -/
theorem callReach_of_run {check : α → ρ → Bool} {split : List α → Option (List α × List α)}
    (hc : ∀ a o, check a o = true → ok a o)
    (hsome : ∀ t m k, split t = some (m, k) → calls m ∧ t = m ++ k)
    (hnone : ∀ t m k, split t = none → calls m → t ≠ m ++ k) :
    ∀ {xs : List (ℕ × ρ)} {c c' : Config σ α}, CallReach act ok calls c₀ c →
      runCalls act check split c xs = some c' → CallReach act ok calls c₀ c'
  | [], c, c', h, hr => by
    rw [runCalls] at hr
    cases hr
    exact h
  | x :: xs, c, c', h, hr => by
    rw [runCalls] at hr
    split at hr
    · rename_i a t ht
      split at hr
      · rename_i m k hs
        obtain ⟨⟨s, ts⟩, h1, h2⟩ := Option.bind_eq_some_iff.mp hr
        obtain ⟨hm, heq⟩ := hsome _ _ _ hs
        exact callReach_of_run hc hsome hnone
          (.call x.1 m k ts h hm (by rw [ht, heq]) (alone_of_run hc h1)) h2
      · rename_i hs
        split at hr
        · rename_i hok
          obtain ⟨c1, h1, h2⟩ := Option.bind_eq_some_iff.mp hr
          refine callReach_of_run hc hsome hnone (.step x h (fun m k hm heq => ?_) (fun b k' hb => ?_) h1) h2
          · rw [ht] at heq
            exact hnone _ m k hs hm (Option.some.inj heq)
          · rw [ht] at hb
            cases hb
            exact hc _ _ hok
        · cases hr
    · cases hr

end Threads
end Kiss
