/-
# What is not lost, and threads that wait

`Threads.balance_step` bounds a count from above. Here is the other half: where no
action loses what it weighs (`keep_step`), the count does not fall, so a permit or an
object is still somewhere. A thread waits when no answer of the environment lets it
do its action (`Waits`).

Key definitions: `Waits`.
Key theorems: `keep_step`, `load_eq_zero`, `total_eq_zero`, `CallReach.mono`.
-/
import Kiss.Calls

namespace Kiss
namespace Threads

variable {σ α ρ : Type*}

section Keep

variable {act : α → ρ → σ → Option (Effect σ α)} {c c' : Config σ α} {x : ℕ × ρ}

/-- **Keep.** If no action lowers the measure of the state and the weight of what its
thread has still to do together, neither does a step. -/
theorem keep_step {m : σ → ℤ} {w : α → ℤ} (h : step act c x = some c')
    (ha : ∀ a k e, c.threads[x.1]? = some (a :: k) → act a x.2 c.state = some e →
      m c.state + w a + load w k ≤ m e.state + load w (e.rest k) + total w e.spawn) :
    m c.state + total w c.threads ≤ m c'.state + total w c'.threads := by
  obtain ⟨a, k, e, hk, he, hs, ht⟩ := total_step w h
  have h1 := ha a k e hk he
  rw [ht, hs]
  omega

theorem load_eq_zero {w : α → ℤ} {k : List α} (h : ∀ a ∈ k, w a = 0) : load w k = 0 := by
  induction k with
  | nil => rfl
  | cons a k ih =>
    rw [load_cons, h a List.mem_cons_self, ih fun b hb => h b (List.mem_cons_of_mem a hb), add_zero]

theorem total_eq_zero {w : α → ℤ} {ts : List (List α)} (h : ∀ k ∈ ts, load w k = 0) :
    total w ts = 0 := load_eq_zero h

/-- What all threads weigh is what one of them does, where the others weigh nothing. -/
theorem exists_load_pos {w : α → ℤ} {ts : List (List α)} (h : 1 ≤ total w ts) :
    ∃ k ∈ ts, 1 ≤ load w k := by
  by_contra hn
  have h1 : total w ts ≤ 0 := total_nonpos fun k hk => by
    have h2 : ¬ 1 ≤ load w k := fun h3 => hn ⟨k, hk, h3⟩
    omega
  omega

end Keep

/-! ### Threads that wait -/

/-- Whatever the environment answers, thread `i` cannot do its action. -/
def Waits (act : α → ρ → σ → Option (Effect σ α)) (c : Config σ α) (i : ℕ) : Prop :=
  ∀ o, step act c (i, o) = none

theorem Waits.act {act : α → ρ → σ → Option (Effect σ α)} {c : Config σ α} {i : ℕ} {a : α} {k : List α}
    (h : Waits act c i) (hk : c.threads[i]? = some (a :: k)) (o : ρ) : act a o c.state = none := by
  have h1 := h o
  unfold step at h1
  rw [hk] at h1
  exact Option.map_eq_none_iff.mp h1

/-! ### Conditions on the steps of calls -/

variable {act : α → ρ → σ → Option (Effect σ α)} {ok ok' : α → ρ → Prop} {calls : List α → Prop}
  {c₀ c : Config σ α}

theorem Alone.mono (hm : ∀ a o, ok a o → ok' a o) {l : List α} {s s' : σ} {ts : List (List α)}
    (h : Alone act ok l s s' ts) : Alone act ok' l s s' ts := by
  induction h with
  | nil s => exact .nil s
  | cons ho h hs _ ih => exact .cons (hm _ _ ho) h hs ih

/-- A stronger condition on the steps reaches less. -/
theorem CallReach.mono (hm : ∀ a o, ok a o → ok' a o) (h : CallReach act ok calls c₀ c) :
    CallReach act ok' calls c₀ c := by
  induction h with
  | start => exact .start
  | step x _ hn ho hx ih => exact .step x ih hn (fun a k hk => hm _ _ (ho a k hk)) hx
  | call i m k ts _ hm' hi ha ih => exact .call i m k ts ih hm' hi (ha.mono hm)

end Threads
end Kiss
