/-
# Insertion by a comparison

An element goes before the first one of the list that the comparison puts after it. When
the list is ordered and the comparison answers yes only before what must come after, and no
only after what must come before, the list stays ordered.

Key definitions: `insertBefore`.
Key theorems: `insertBefore_perm`, `pairwise_insertBefore`.
-/
import Mathlib.Data.List.Perm.Basic

namespace Kiss
namespace Insertion

variable {α β : Type*}

/-- Before the first element that `before` accepts, or at the end. -/
def insertBefore (before : α → Bool) (x : α) : List α → List α
  | [] => [x]
  | y :: l => if before y then x :: y :: l else y :: insertBefore before x l

theorem insertBefore_perm (before : α → Bool) (x : α) : ∀ l : List α,
    (insertBefore before x l).Perm (x :: l)
  | [] => List.Perm.refl _
  | y :: l => by
    unfold insertBefore
    split_ifs
    · exact List.Perm.refl _
    · exact ((insertBefore_perm before x l).cons y).trans (List.Perm.swap x y l)

theorem map_insertBefore (f : α → β) {before : α → Bool} {after : β → Bool} {x : α} : ∀ {l : List α},
    (∀ y ∈ l, after (f y) = before y) →
      (insertBefore before x l).map f = insertBefore after (f x) (l.map f)
  | [], _ => rfl
  | y :: l, h => by
    have hy := h y List.mem_cons_self
    have ih := map_insertBefore f (x := x) fun z hz => h z (List.mem_cons_of_mem y hz)
    rw [List.map_cons, insertBefore, insertBefore, hy]
    split_ifs
    · rfl
    · rw [List.map_cons, ih]

/-- **The list stays ordered.** -/
theorem pairwise_insertBefore {R : α → α → Prop} (ht : ∀ a b c, R a b → R b c → R a c)
    {before : α → Bool} {x : α} : ∀ {l : List α}, (∀ y ∈ l, before y = true → R x y) →
      (∀ y ∈ l, before y = false → R y x) → l.Pairwise R → (insertBefore before x l).Pairwise R
  | [], _, _, _ => List.pairwise_singleton R x
  | y :: l, hyes, hno, hl => by
    obtain ⟨hy, hl'⟩ := List.pairwise_cons.mp hl
    unfold insertBefore
    by_cases hb : before y = true
    · rw [if_pos hb]
      have hxy := hyes y List.mem_cons_self hb
      apply List.pairwise_cons.mpr
      refine ⟨fun z hz => ?_, hl⟩
      rcases List.mem_cons.mp hz with rfl | hz
      · exact hxy
      · exact ht x y z hxy (hy z hz)
    · rw [if_neg hb]
      have hyx := hno y List.mem_cons_self (Bool.eq_false_iff.mpr hb)
      have ih := pairwise_insertBefore ht (fun z hz => hyes z (List.mem_cons_of_mem y hz))
        (fun z hz => hno z (List.mem_cons_of_mem y hz)) hl'
      apply List.pairwise_cons.mpr
      refine ⟨fun z hz => ?_, ih⟩
      rcases List.mem_cons.mp ((insertBefore_perm before x l).mem_iff.mp hz) with rfl | hz
      · exact hyx
      · exact hy z hz

end Insertion
end Kiss
