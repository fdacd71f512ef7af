/-
# Doubly linked chains in a heap

A heap gives the cell at each address, a cell its value and a link each way, `none` where
there is nothing. `Chain h p xs n` says that the cells of `xs` are at their addresses in the
heap, one linked to the next in both ways, the first one back to `p` and the last one on to
`n`. A chain of two parts is the two chains (`chain_append`), and a write outside a chain
leaves it alone (`Chain.update`), so an operation is to be looked at only where it writes.

Key definitions: `Cell`, `Heap`, `Chain`, `follow`.
Key theorems: `chain_append`, `Chain.congr`, `follow_next`, `follow_prev`.
-/
import Mathlib.Data.List.Induction
import Mathlib.Logic.Function.Basic

namespace Kiss
namespace Chains

variable {A δ : Type*}

/-- A cell: what is before it, its value, and what is after it. -/
structure Cell (A δ : Type*) where
  prev : Option A
  data : δ
  next : Option A
deriving DecidableEq

/-- The cells that are allocated. -/
abbrev Heap (A δ : Type*) := A → Option (Cell A δ)

/-- The address that `xs` begins at, `n` when it is empty. -/
def firstOr (n : Option A) : List (A × δ) → Option A
  | [] => n
  | x :: _ => some x.1

/-- The address that `xs` ends at, `p` when it is empty. -/
def lastOr (p : Option A) : List (A × δ) → Option A
  | [] => p
  | x :: xs => lastOr (some x.1) xs

/-- The cells of `xs`, linked both ways, from `p` to `n`. -/
def Chain (h : Heap A δ) : Option A → List (A × δ) → Option A → Prop
  | _, [], _ => True
  | p, x :: xs, n => h x.1 = some ⟨p, x.2, firstOr n xs⟩ ∧ Chain h (some x.1) xs n

variable {h h' : Heap A δ} {p n : Option A} {xs ys : List (A × δ)} {x : A × δ} {a : A}

@[simp] theorem firstOr_nil : firstOr n ([] : List (A × δ)) = n := rfl

@[simp] theorem firstOr_cons : firstOr n (x :: xs) = some x.1 := rfl

@[simp] theorem lastOr_nil : lastOr p ([] : List (A × δ)) = p := rfl

@[simp] theorem lastOr_cons : lastOr p (x :: xs) = lastOr (some x.1) xs := rfl

@[simp] theorem chain_nil : Chain h p [] n := trivial

@[simp] theorem chain_cons :
    Chain h p (x :: xs) n ↔ h x.1 = some ⟨p, x.2, firstOr n xs⟩ ∧ Chain h (some x.1) xs n := Iff.rfl

@[simp] theorem firstOr_append : firstOr n (xs ++ ys) = firstOr (firstOr n ys) xs := by
  cases xs <;> rfl

@[simp] theorem lastOr_append : ∀ {p : Option A} {xs : List (A × δ)},
    lastOr p (xs ++ ys) = lastOr (lastOr p xs) ys
  | _, [] => rfl
  | _, x :: xs => by rw [List.cons_append, lastOr_cons, lastOr_cons, lastOr_append]

/-- A chain of two parts. -/
theorem chain_append : ∀ {p : Option A} {xs : List (A × δ)},
    Chain h p (xs ++ ys) n ↔ Chain h p xs (firstOr n ys) ∧ Chain h (lastOr p xs) ys n
  | _, [] => ⟨fun hc => ⟨trivial, hc⟩, And.right⟩
  | p, x :: xs => by
    rw [List.cons_append, chain_cons, chain_cons, chain_append, firstOr_append, and_assoc, lastOr_cons]

/-! ### Writes -/

/-- A chain depends on the heap at its cells only. -/
theorem Chain.congr : ∀ {p : Option A} {xs : List (A × δ)}, (∀ a ∈ xs.map Prod.fst, h' a = h a) →
    Chain h p xs n → Chain h' p xs n
  | _, [], _, _ => trivial
  | _, x :: xs, hag, hc => by
    obtain ⟨h1, h2⟩ := hc
    refine ⟨?_, h2.congr fun a ha => hag a (List.mem_cons_of_mem _ ha)⟩
    rw [hag x.1 List.mem_cons_self, h1]

theorem Chain.update [DecidableEq A] {c : Option (Cell A δ)} (ha : a ∉ xs.map Prod.fst)
    (hc : Chain h p xs n) : Chain (Function.update h a c) p xs n := by
  refine hc.congr fun b hb => Function.update_of_ne ?_ _ _
  rintro rfl
  exact ha hb

/-- What is at a cell of a chain. -/
theorem Chain.cell (hc : Chain h p (xs ++ x :: ys) n) : h x.1 = some ⟨lastOr p xs, x.2, firstOr n ys⟩ :=
  (chain_append.mp hc).2.1

/-- An address with nothing in it is of no cell. -/
theorem Chain.not_mem (hc : Chain h p xs n) (ha : h a = none) : a ∉ xs.map Prod.fst := by
  intro hm
  obtain ⟨x, hx, rfl⟩ := List.mem_map.mp hm
  obtain ⟨s, t, rfl⟩ := List.append_of_mem hx
  rw [hc.cell] at ha
  cases ha

/-- The values of a chain are those in the heap. -/
theorem Chain.data : ∀ {p : Option A} {xs : List (A × δ)}, Chain h p xs n →
    (xs.map Prod.fst).map (fun a => (h a).map Cell.data) = xs.map fun x => some x.2
  | _, [], _ => rfl
  | _, x :: xs, hc => by
    obtain ⟨h1, h2⟩ := hc
    rw [List.map_cons, List.map_cons, List.map_cons, h1, h2.data]
    rfl

/-! ### Walks -/

/-- The addresses one meets from `p` on, in the direction `dir`; `none` for a link to nothing
allocated, and when there are more than `fuel`. -/
def follow (h : Heap A δ) (dir : Cell A δ → Option A) : ℕ → Option A → Option (List A)
  | _, none => some []
  | 0, some _ => none
  | fuel + 1, some a => (h a).bind fun c => (follow h dir fuel (dir c)).map (a :: ·)

theorem follow_none (dir : Cell A δ → Option A) : ∀ fuel, follow h dir fuel none = some []
  | 0 => rfl
  | _ + 1 => rfl

/-- Forwards one meets the cells in order. -/
theorem follow_next : ∀ {p : Option A} {xs : List (A × δ)} {fuel : ℕ}, Chain h p xs none → xs.length ≤ fuel →
    follow h Cell.next fuel (firstOr none xs) = some (xs.map Prod.fst)
  | _, [], fuel, _, _ => follow_none _ fuel
  | _, x :: xs, fuel + 1, hc, hl => by
    obtain ⟨h1, h2⟩ := hc
    rw [firstOr_cons, follow, h1, Option.bind_some, follow_next h2 (Nat.le_of_succ_le_succ hl)]
    rfl

/-- Backwards one meets them in reverse. -/
theorem follow_prev {fuel : ℕ} (hc : Chain h none xs n) (hl : xs.length ≤ fuel) :
    follow h Cell.prev fuel (lastOr none xs) = some (xs.map Prod.fst).reverse := by
  induction xs using List.reverseRecOn generalizing n fuel with
  | nil => exact follow_none _ fuel
  | append_singleton xs x ih =>
    rw [List.length_append, List.length_singleton] at hl
    obtain ⟨fuel, rfl⟩ : ∃ k, fuel = k + 1 := ⟨fuel - 1, by omega⟩
    obtain ⟨h1, h2, -⟩ := chain_append.mp hc
    rw [lastOr_append, lastOr_cons, lastOr_nil, follow, h2, Option.bind_some, ih h1 (by omega)]
    rw [List.map_append, List.reverse_append]
    rfl

end Chains
end Kiss
