/-
# Counting the places of a process

The counts of `Places` that the results use. `living` counts the places of a
PCB that has not started to leave, `finished` those from `move_pcb_to_exit` on;
`active` leaves out of `living` the blocked processes whose timers are set, and
`loose` counts besides `active` a process that `mtp_unblock_pcb` holds. A PCB is `Released` when
it is in none of the places where somebody does something with it, and where memory is taken
again only of such PCBs (`Frees`) no process is in two places.

Key definitions: `living`, `finished`, `marked`, `active`, `loose`, `Released`, `Frees`.
Key theorems: `Frees.inv`, `living_le_one`, `loose_le_living`, `active_le_loose`.
-/
import Kiss.Kernel.Places
import Kiss.Kernel.Permits

namespace Kiss
namespace Kernel

open Kernel.Action Place Threads

/-! ### Sums of counts -/

section Sum

variable (g f : Place → ℤ) (p : ℕ)

theorem at'_add (l : Place) (r : ℕ) :
    at' (fun l => g l + f l) p l r = at' g p l r + at' f p l r := by
  unfold at'
  split_ifs <;> rfl

theorem sumAt_add (l : Place) : ∀ rs : List ℕ,
    sumAt (fun l => g l + f l) p l rs = sumAt g p l rs + sumAt f p l rs
  | [] => rfl
  | r :: rs => by
    rw [sumAt_cons, sumAt_cons, sumAt_cons, sumAt_add l rs, at'_add]
    ring

theorem weight_add (a : Action) :
    weight (fun l => g l + f l) p a = weight g p a + weight f p a := by
  cases a
  case push q r =>
    cases q <;> simp only [weight, at'_add]
    ring
  case assign r f =>
    cases f
    case status st => cases st <;> simp only [weight, at'_add] <;> ring
    all_goals rfl
  all_goals
    simp only [weight, at'_add]
    try split_ifs
  all_goals ring

theorem value_add (s : Planner) : value (fun l => g l + f l) p s = value g p s + value f p s := by
  simp only [value, sumAt_add]
  split_ifs <;> ring

theorem held_add (c : Config Planner Action) :
    held (fun l => g l + f l) p c = held g p c + held f p c := by
  unfold held
  rw [value_add, funext (weight_add g f p), total_add]
  ring

end Sum

section Bounds

variable {g : Place → ℤ} {p : ℕ}

theorem sumAt_nonneg (h0 : ∀ l, 0 ≤ g l) (l : Place) (rs : List ℕ) : 0 ≤ sumAt g p l rs := by
  rw [sumAt_eq]
  exact Int.mul_nonneg (h0 l) (Int.natCast_nonneg _)

/-- What the planner holds of a PCB in each place. -/
theorem le_value (h0 : ∀ l, 0 ≤ g l) (s : Planner) :
    (∀ q, sumAt g p (queued q) (s.queues q) ≤ value g p s) ∧
    (if s.exec = some p then g exec else 0) ≤ value g p s ∧
    sumAt g p exits s.exits ≤ value g p s ∧ sumAt g p told (s.told.map (·.1)) ≤ value g p s ∧
    sumAt g p destroyed s.destroyed ≤ value g p s ∧
    (if s.pcbId < p then g unborn else 0) ≤ value g p s := by
  have h1 := fun l rs => sumAt_nonneg (p := p) h0 l rs
  have h2 : 0 ≤ if s.exec = some p then g exec else 0 := by split_ifs <;> simp [h0]
  have h3 : 0 ≤ if s.pcbId < p then g unborn else 0 := by split_ifs <;> simp [h0]
  have h4 := h1 exits s.exits
  have h5 := h1 told (s.told.map (·.1))
  have h6 := h1 destroyed s.destroyed
  have h7 := fun q => h1 (queued q) (s.queues q)
  have h8 := h7 .new
  have h9 := h7 .ready
  have h10 := h7 .blocked
  have h11 := h7 .suspendedReady
  have h12 := h7 .exit
  unfold value
  refine ⟨fun q => by cases q <;> omega, ?_⟩
  omega

theorem value_nonneg (h0 : ∀ l, 0 ≤ g l) (s : Planner) : 0 ≤ value g p s :=
  (sumAt_nonneg h0 _ _).trans ((le_value h0 s).1 .new)

variable {cfg : KernelConfig} {ok : Config Planner Action → ℕ × Outcome → Prop}
  {c₀ c c' : Config Planner Action} [Starts cfg ok c₀]

/-- What one thread holds. -/
theorem load_le_held (h0 : ∀ l, 0 ≤ g l) (hb : g (queued .blocked) ≤ g arming)
    (hr : Reach (act cfg) ok c₀ c) {k : List Action} (hk : k ∈ c.threads) :
    load (weight g p) k ≤ held g p c := by
  have h1 := le_total (fun t ht => (reach_grounded (p := p) h0 hb hr t ht).nonneg) hk
  have h2 := value_nonneg (p := p) h0 c.state
  unfold held
  omega

/-- What the planner holds. -/
theorem value_le_held (h0 : ∀ l, 0 ≤ g l) (hb : g (queued .blocked) ≤ g arming)
    (hr : Reach (act cfg) ok c₀ c) : value g p c.state ≤ held g p c := by
  have := total_nonneg fun t ht => (reach_grounded (p := p) h0 hb hr t ht).nonneg
  unfold held
  omega

/-- What one thread weighs by its first action. -/
theorem head_le_held (h0 : ∀ l, 0 ≤ g l) (hb : g (queued .blocked) ≤ g arming)
    (hr : Reach (act cfg) ok c₀ c) {i : ℕ} {a : Action} {k : List Action}
    (hk : c.threads[i]? = some (a :: k)) : weight g p a ≤ held g p c := by
  have hm := List.mem_of_getElem? hk
  have h1 := load_le_held (p := p) h0 hb hr hm
  have h2 := (reach_grounded (p := p) h0 hb hr _ hm).tail.self
  rw [load_cons] at h1
  omega

theorem held_nonneg (h0 : ∀ l, 0 ≤ g l) (hb : g (queued .blocked) ≤ g arming)
    (hr : Reach (act cfg) ok c₀ c) : 0 ≤ held g p c :=
  (value_nonneg h0 _).trans (value_le_held h0 hb hr)

theorem held_mono {f : Place → ℤ} (hr : Reach (act cfg) ok c₀ c) (h : ∀ l, g l ≤ f l)
    (hb : f (queued .blocked) + g arming ≤ f arming + g (queued .blocked)) :
    held g p c ≤ held f p c := by
  have h1 := held_add g (fun l => f l - g l) p c
  have h2 : (fun l => g l + (f l - g l)) = f := by
    funext l
    omega
  have h3 := held_nonneg (p := p) (g := fun l => f l - g l)
    (fun l => by have := h l; omega) (by show f _ - g _ ≤ f _ - g _; omega) hr
  rw [h2] at h1
  omega

end Bounds

/-! ### The counts -/

/-- Not on the way out. -/
def living : Place → ℤ
  | leaving | entering .exit | queued .exit | exits | ending | told | destroying | destroyed => 0
  | _ => 1

/-- On the way out. -/
def finished : Place → ℤ
  | leaving | entering .exit | queued .exit | ending | destroying | destroyed => 1
  | _ => 0

/-- On the way out with its status changed. -/
def marked : Place → ℤ
  | entering .exit | queued .exit | ending | destroying | destroyed => 1
  | _ => 0

/-- Alive and not blocked with its timers set. -/
def active : Place → ℤ
  | queued .blocked | io | unblocking => 0
  | l => living l

/-- Alive and not blocked with a suspension timer. -/
def loose : Place → ℤ
  | queued .blocked | io => 0
  | l => living l

/-- Blocked, before its suspension timer is cancelled. -/
def resting : Place → ℤ
  | arming | queued .blocked | io => 1
  | _ => 0

/-- Held by a thread that is setting its suspension timer. -/
def beingArmed : Place → ℤ
  | arming => 1
  | _ => 0

/-- In place `l'`. -/
def atPlace (l' l : Place) : ℤ := if l = l' then 1 else 0

theorem atPlace_nonneg (l' l : Place) : 0 ≤ atPlace l' l := by unfold atPlace; split_ifs <;> omega
theorem living_nonneg (l : Place) : 0 ≤ living l := by unfold living; split <;> omega
theorem finished_nonneg (l : Place) : 0 ≤ finished l := by unfold finished; split <;> omega
theorem marked_nonneg (l : Place) : 0 ≤ marked l := by unfold marked; split <;> omega
theorem active_nonneg (l : Place) : 0 ≤ active l := by
  unfold active
  split <;> first | omega | exact living_nonneg l
theorem resting_nonneg (l : Place) : 0 ≤ resting l := by unfold resting; split <;> omega
/-- Anywhere but blocked with its timers, or in the history. -/
def away : Place → ℤ
  | queued .blocked | io | exits | told => 0
  | _ => 1

/-- Alive or on the way out. -/
def own (l : Place) : ℤ := living l + finished l

theorem away_nonneg (l : Place) : 0 ≤ away l := by unfold away; split <;> omega
theorem own_nonneg (l : Place) : 0 ≤ own l := by
  have := living_nonneg l
  have := finished_nonneg l
  unfold own
  omega

theorem away_eq : away = fun l => loose l + finished l := by
  funext l
  cases l
  case entering q | queued q => cases q <;> rfl
  all_goals rfl

/-! ### Which moves raise them -/

section Follows

variable (p : ℕ) (s : Planner) (o : Outcome) (a : Action)

/-- A process that lives is in one place: no move makes another of it. -/
theorem living_follows : Follows living p 0 s o a := by
  cases a
  case push q r => cases q <;> simp [Follows, living]
  case assign r f =>
    cases f
    case status st => cases st <;> simp [Follows, living]
    all_goals trivial
  all_goals simp [Follows, living]

variable {p s o a}

/-- Only the failed swap leaves the process where it was. -/
theorem own_follows (hs : a = swappProcess p → ¬ Fails s o a) : Follows own p 0 s o a := by
  cases a
  case push q r => cases q <;> simp [Follows, own, living, finished]
  case assign r f =>
    cases f
    case status st => cases st <;> simp [Follows, own, living, finished]
    all_goals trivial
  case swappProcess r =>
    rintro rfl hf
    exact absurd hf (hs rfl)
  all_goals simp [Follows, own, living, finished]

theorem marked_follows (hs : a ≠ assign p (.status .exit)) : Follows marked p 0 s o a := by
  cases a
  case push q r => cases q <;> simp [Follows, marked]
  case assign r f =>
    cases f
    case status st =>
      cases st
      case exit => rintro rfl; exact absurd rfl hs
      all_goals simp [Follows, marked]
    all_goals trivial
  all_goals simp [Follows, marked]

theorem active_follows
    (hs : a = unblockSwitch p → (s.pcbs p).status ≠ .blocked ∧ (s.pcbs p).status ≠ .suspendedBlocked) :
    Follows active p 0 s o a := by
  cases a
  case push q r => cases q <;> simp [Follows, active, living]
  case assign r f =>
    cases f
    case status st => cases st <;> simp [Follows, active, living]
    all_goals trivial
  case unblockSwitch r =>
    rintro rfl
    obtain ⟨h1, h2⟩ := hs rfl
    exact ⟨fun h => absurd h h1, fun h => absurd h h2, by simp [active, living]⟩
  all_goals simp [Follows, active, living]

theorem away_follows (hc : a ≠ cancelSuspendTimer p) (hs : a = swappProcess p → ¬ Fails s o a)
    (hb : ∀ t, a = startBlockedTimer t p → ¬ Fails s o a) : Follows away p 0 s o a := by
  cases a
  case push q r => cases q <;> simp [Follows, away]
  case assign r f =>
    cases f
    case status st => cases st <;> simp [Follows, away]
    all_goals trivial
  case cancelSuspendTimer r =>
    rintro rfl
    exact absurd rfl hc
  case swappProcess r =>
    rintro rfl hf
    exact absurd hf (hs rfl)
  case startBlockedTimer t r =>
    rintro rfl hf
    exact absurd hf (hb t rfl)
  all_goals simp [Follows, away]

end Follows

/-! ### Memory that nobody has -/

/-- PCB `q` was created, its status is `PCB_EXIT`, and no queue and no thread has it to do
anything with it, a suspension timer or the exit controller apart. -/
structure Released (q : ℕ) (c : Config Planner Action) : Prop where
  created : q ≠ 0
  status : (c.state.pcbs q).status = .exit
  gone : held living q c + held (atPlace leaving) q c ≤ 0

/-- A run may begin at `c₀` whose steps satisfy `ok` and that takes memory again only of PCBs
that nobody has. -/
class Frees (cfg : KernelConfig) (ok : Config Planner Action → ℕ × Outcome → Prop)
    (c₀ : Config Planner Action) : Prop where
  begins : Begins cfg (Reach (act cfg) ok) Released c₀

instance (cfg : KernelConfig) (ok : Config Planner Action → ℕ × Outcome → Prop) :
    Frees cfg ok (start cfg) := ⟨.start⟩

instance (cfg : KernelConfig) (ok : Config Planner Action → ℕ × Outcome → Prop)
    (c₀ : Config Planner Action) [h : Frees cfg ok c₀] : Starts cfg ok c₀ :=
  ⟨h.begins.mono (fun _ _ hr => hr) fun _ _ _ => trivial⟩

section Reach

variable {cfg : KernelConfig} {ok : Config Planner Action → ℕ × Outcome → Prop}
  {c₀ c c' : Config Planner Action} {x : ℕ × Outcome} {p q : ℕ} {g : Place → ℤ}

/-- The invariants of where the PCBs are. -/
theorem Frees.inv {I : Config Planner Action → Prop} [hb : Frees cfg ok c₀]
    (h : Reach (act cfg) ok c₀ c) (h0 : I (Kernel.start cfg))
    (hs : ∀ c₁ c c' x, Frees cfg ok c₁ → Reach (act cfg) ok c₁ c → I c → ok c x →
      Threads.step (act cfg) c x = some c' → I c')
    (hu : ∀ c₁ c c' x q, Frees cfg ok c₁ → Frees cfg ok c' → Reach (act cfg) ok c₁ c → I c → Released q c →
      Threads.step (actReuse cfg q) c x = some c' → I c') : I c :=
  hb.begins.inv h h0 (fun c₁ c c' x h1 => hs c₁ c c' x ⟨h1⟩)
    fun c₁ c c' x q h1 hr hI hq hx => hu c₁ c c' x q ⟨h1⟩ ⟨.reuse h1 hr hq hx⟩ hr hI hq hx

/-- The other PCBs stay where they are. -/
theorem held_reuse_of_ne (hx : Threads.step (actReuse cfg q) c x = some c') (hp : p ≠ q) :
    held g p c' = held g p c := by
  have h1 := held_reuse (g := g) (p := p) hx
  rw [if_neg (Ne.symm hp), at', if_neg (Ne.symm hp)] at h1
  simpa using h1

/-- A PCB that is in no place is in the first one. -/
theorem held_reuse_le (h0 : 0 ≤ g destroyed) (hx : Threads.step (actReuse cfg q) c x = some c') :
    held g q c' ≤ held g q c + g (entering .new) := by
  have h1 := held_reuse (g := g) (p := q) hx
  rw [if_pos rfl, at', if_pos rfl] at h1
  have h2 := Int.mul_nonneg h0 (Int.natCast_nonneg (c.state.destroyed.count q))
  omega

/-- **One place.** A process that has not started to leave is in one place at most. -/
theorem living_le_one [Frees cfg ok c₀] (h : Reach (act cfg) ok c₀ c) : held living p c ≤ 1 := by
  refine Frees.inv (I := fun c => held living p c ≤ 1) h ?_ ?_ ?_
  · rw [start_held]
    split_ifs <;> simp [living]
  · intro _ c c' x _ hr hc _ hx
    have := held_step (p := p) (d := 0) living_nonneg (by simp [living]) (le_refl _) hr
      (fun a _ _ => living_follows p _ _ a) hx
    omega
  · intro _ c c' x q _ _ hr hc hq hx
    by_cases hp : p = q
    · subst hp
      have h1 := held_reuse_le (g := living) (living_nonneg _) hx
      have h2 := held_nonneg (p := p) (atPlace_nonneg leaving) (by simp [atPlace]) hr
      have h3 := hq.gone
      have h4 : living (entering .new) = 1 := rfl
      omega
    · exact (held_reuse_of_ne hx hp).le.trans hc

/-- Only a thread that is setting the timer of `p` weighs as one. -/
theorem load_beingArmed : ∀ {k : List Action}, Suffixes (Shape cfg) k →
    load (weight beingArmed p) k ≤ if k.head? = some (setSuspendTimer p) then 1 else 0
  | [], _ => by simp
  | a :: k, hk => by
    have ih := load_beingArmed hk.tail
    rw [load_cons, List.head?_cons]
    by_cases hh : k.head? = some (setSuspendTimer p)
    · -- the push before it weighs -1
      obtain rfl := arming_tail hk.self (Or.inl hh)
      rw [if_pos hh] at ih
      simp only [weight, at', beingArmed, if_true]
      split_ifs <;> omega
    · rw [if_neg hh] at ih
      have ha : weight beingArmed p a ≤ if some a = some (setSuspendTimer p) then 1 else 0 := by
        cases a
        case push q r =>
          cases q <;> simp [weight, at', beingArmed]
          split_ifs <;> omega
        case assign r f =>
          cases f
          case status st => cases st <;> simp [weight, at', beingArmed]
          all_goals simp [weight]
        all_goals simp [weight, at', beingArmed]
      split_ifs at ha ⊢ <;> omega

/-- Where a suspension timer is being set, its PCB is in the blocked queue. -/
theorem beingArmed_le (h : Reach (act cfg) ok (start cfg) c) :
    held beingArmed p c ≤ held resting p c := by
  have h0 : value beingArmed p c.state = 0 := by
    simp only [value, sumAt_eq, beingArmed]
    simp
  have hres := held_nonneg (p := p) resting_nonneg (by simp [resting]) h
  unfold held at hres ⊢
  rw [h0]
  by_cases hex : ∃ k ∈ c.threads, k.head? = some (setSuspendTimer p)
  · obtain ⟨k, hk, hh⟩ := hex
    obtain ⟨i, hi, rfl⟩ := List.mem_iff_getElem.mp hk
    have hi' := List.getElem?_eq_getElem hi
    have ha : Arming p c.threads[i] := Or.inl hh
    obtain ⟨_, _, _, hd, -⟩ := ha.shape (reach_shape h _ hk)
    have h1 := total_le hi' fun j l hj hl => by
      have h2 := load_beingArmed (p := p) (reach_shape h l (List.mem_of_getElem? hl))
      split_ifs at h2 with h3
      · obtain ⟨_, _, _, hd', -⟩ :=
          Arming.shape (Or.inl h3) (reach_shape h l (List.mem_of_getElem? hl))
        exact absurd (dispatch_unique h hl hi' (by omega) (by omega)) hj
      · exact h2
    have h2 := load_beingArmed (p := p) (reach_shape h _ hk)
    rw [if_pos hh] at h2
    -- the PCB is the last of the blocked queue
    have h3 := last_blocked h _ hk p ha
    have h4 : 1 ≤ value resting p c.state := by
      have h5 := (le_value (p := p) resting_nonneg c.state).1 .blocked
      rw [sumAt_eq] at h5
      have h6 := List.count_pos_iff.mpr (List.mem_of_getLast? h3)
      simp only [resting] at h5
      omega
    have h7 := total_nonneg fun t ht =>
      (reach_grounded (p := p) (g := resting) resting_nonneg (by simp [resting]) h t ht).nonneg
    omega
  · have h1 : total (weight beingArmed p) c.threads ≤ 0 := total_nonpos fun k hk => by
      have h2 := load_beingArmed (p := p) (reach_shape h k hk)
      rwa [if_neg fun hh => hex ⟨k, hk, hh⟩] at h2
    omega

theorem loose_le_living (h : Reach (act cfg) ok (start cfg) c) :
    held loose p c ≤ held living p c := by
  have h1 := held_add living beingArmed p c
  have h2 := held_add loose resting p c
  have h3 : (fun l => living l + beingArmed l) = fun l => loose l + resting l := by
    funext l
    cases l
    case entering q | queued q => cases q <;> rfl
    all_goals rfl
  have h4 := beingArmed_le (p := p) h
  rw [h3, h2] at h1
  omega

theorem active_le_loose (h : Reach (act cfg) ok (start cfg) c) :
    held active p c ≤ held loose p c := by
  refine held_mono h (fun l => ?_) (by simp [active, loose])
  cases l
  case unblocking => simp [active, loose, living]
  case queued q => cases q <;> simp [active, loose]
  all_goals simp [active, loose]

end Reach

end Kernel
end Kiss
