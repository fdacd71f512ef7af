/-
# The last elements of a history

The last `n` elements of a list that grows at its end, and the last `n` different ones,
in the order in which they were last seen (`List.dedup` keeps the last occurrence).

Key theorems: `rtake_append`, `dedup_concat`, `rtake_dedup_concat`, `mem_rtake_dedup`.
-/
import Mathlib.Data.List.DropRight
import Mathlib.Data.List.Dedup
import Mathlib.Data.Finset.Card

namespace Kiss
namespace Recientes

variable {α : Type*} {n : ℕ} {a : α} {l : List α}

/-! ### The last ones -/

/-- `rtake` cuts a list in two. -/
theorem take_append_rtake (n : ℕ) (l : List α) : l.take (l.length - n) ++ l.rtake n = l :=
  List.take_append_drop _ _

theorem length_rtake (n : ℕ) (l : List α) : (l.rtake n).length = min n l.length := by
  rw [List.rtake, List.length_drop]
  omega

/-- Short enough, and full when something is left out. -/
theorem rtake_append {l₁ l₂ : List α} (h : l₂.length ≤ n) (hf : l₁ ≠ [] → l₂.length = n) :
    (l₁ ++ l₂).rtake n = l₂ := by
  rw [List.rtake, List.length_append]
  by_cases h1 : l₁ = []
  · rw [h1, List.length_nil, List.nil_append, Nat.zero_add, Nat.sub_eq_zero_of_le h, List.drop_zero]
  · rw [hf h1, Nat.add_sub_cancel, List.drop_left]

/-- While there is room nothing is left out. -/
theorem rtake_of_lt (h : (l.rtake n).length < n) : l.rtake n = l := by
  rw [length_rtake] at h
  rw [List.rtake, Nat.sub_eq_zero_of_le (by omega), List.drop_zero]

theorem take_of_lt (h : (l.rtake n).length < n) : l.take (l.length - n) = [] := by
  rw [length_rtake] at h
  rw [Nat.sub_eq_zero_of_le (by omega), List.take_zero]

/-- One more, while there is room. -/
theorem rtake_concat_of_lt (h : (l.rtake n).length < n) (a : α) :
    (l ++ [a]).rtake n = l.rtake n ++ [a] := by
  have h0 := rtake_of_lt h
  rw [h0] at h ⊢
  have h1 : ([] ++ (l ++ [a])).rtake n = l ++ [a] := by
    apply rtake_append
    · rw [List.length_append, List.length_singleton]
      exact h
    · exact fun h => absurd rfl h
  exact h1

/-- One more, for the oldest. -/
theorem rtake_concat_of_le (hn : 0 < n) (h : n ≤ (l.rtake n).length) (a : α) :
    (l ++ [a]).rtake n = (l.rtake n).tail ++ [a] := by
  have hl : n ≤ l.length := by
    rw [length_rtake] at h
    omega
  obtain ⟨k, rfl⟩ := Nat.exists_eq_succ_of_ne_zero hn.ne'
  rw [List.rtake_concat_succ, List.rtake, List.rtake, List.tail_drop]
  congr 2
  omega

/-! ### The last different ones -/

variable [DecidableEq α]

/-- An element seen again goes to the end. -/
theorem dedup_concat (a : α) : ∀ l : List α, (l ++ [a]).dedup = l.dedup.filter (· ≠ a) ++ [a]
  | [] => by simp
  | b :: l => by
    have ih := dedup_concat a l
    rw [List.cons_append]
    by_cases hb : b ∈ l
    · rw [List.dedup_cons_of_mem hb, List.dedup_cons_of_mem (List.mem_append_left _ hb), ih]
    · rw [List.dedup_cons_of_notMem hb]
      by_cases hba : b = a
      · rw [List.dedup_cons_of_mem (by rw [hba]; simp), ih, hba, List.filter_cons_of_neg (by simp)]
      · rw [List.dedup_cons_of_notMem (by simp [hb, hba]), ih, List.filter_cons_of_pos (by simpa using hba),
          List.cons_append]

/-- An element that is still there is moved to the end. -/
theorem rtake_dedup_concat_of_mem (h : a ∈ l.dedup.rtake n) :
    (l ++ [a]).dedup.rtake n = (l.dedup.rtake n).erase a ++ [a] := by
  have hd := l.nodup_dedup
  have hcut := take_append_rtake n l.dedup
  have hnd : (l.dedup.take (l.dedup.length - n) ++ l.dedup.rtake n).Nodup := by rwa [hcut]
  obtain ⟨-, hr, hdis⟩ := List.nodup_append.mp hnd
  rw [dedup_concat]
  have h1 : (l.dedup.take (l.dedup.length - n)).filter (· ≠ a) = l.dedup.take (l.dedup.length - n) := by
    rw [List.filter_eq_self]
    intro b hb
    simpa using hdis b hb a h
  have h2 : l.dedup.filter (· ≠ a) =
      l.dedup.take (l.dedup.length - n) ++ (l.dedup.rtake n).erase a := by
    conv_lhs => rw [← hcut]
    rw [List.filter_append, h1, hr.erase_eq_filter]
    congr 1
    apply List.filter_congr
    intro b _
    by_cases hb : b = a <;> simp [hb]
  have hlen : ((l.dedup.rtake n).erase a ++ [a]).length = (l.dedup.rtake n).length := by
    rw [List.length_append, List.length_erase_of_mem h, List.length_singleton]
    have := List.length_pos_of_mem h
    omega
  rw [h2, List.append_assoc]
  have hle := length_rtake n l.dedup
  apply rtake_append
  · rw [hlen, hle]
    exact min_le_left _ _
  · intro hne
    rw [hlen]
    by_contra hlt
    apply hne
    exact take_of_lt (by omega)

/-- An element that is not there takes the room that there is. -/
theorem rtake_dedup_concat_of_lt (h : a ∉ l.dedup.rtake n) (hlt : (l.dedup.rtake n).length < n) :
    (l ++ [a]).dedup.rtake n = l.dedup.rtake n ++ [a] := by
  have h1 : l.dedup.filter (· ≠ a) = l.dedup := by
    rw [rtake_of_lt hlt] at h
    rw [List.filter_eq_self]
    intro b hb
    simp only [ne_eq, decide_eq_true_eq]
    rintro rfl
    exact h hb
  rw [dedup_concat, h1, rtake_concat_of_lt hlt]

/-- An element that is not there takes the place of the one seen the longest ago. -/
theorem rtake_dedup_concat_of_le (hn : 0 < n) (h : a ∉ l.dedup.rtake n)
    (hle : n ≤ (l.dedup.rtake n).length) :
    (l ++ [a]).dedup.rtake n = (l.dedup.rtake n).tail ++ [a] := by
  have h1 : (l.dedup.rtake n).filter (· ≠ a) = l.dedup.rtake n := by
    rw [List.filter_eq_self]
    intro b hb
    simp only [ne_eq, decide_eq_true_eq]
    rintro rfl
    exact h hb
  have hlen : (l.dedup.rtake n).length = n := by
    have := length_rtake n l.dedup
    omega
  have h2 : l.dedup.filter (· ≠ a) =
      (l.dedup.take (l.dedup.length - n)).filter (· ≠ a) ++ l.dedup.rtake n := by
    conv_lhs => rw [← take_append_rtake n l.dedup]
    rw [List.filter_append, h1]
  have h3 : (l.dedup.filter (· ≠ a)).rtake n = l.dedup.rtake n := by
    rw [h2]
    exact rtake_append hlen.le fun _ => hlen
  rw [dedup_concat, rtake_concat_of_le hn (by rw [h3, hlen]), h3]

/-- **Who is still there**: what was seen last, and fewer than `n` others since. -/
theorem mem_rtake_dedup : a ∈ l.dedup.rtake n ↔
    ∃ l₁ l₂, l = l₁ ++ a :: l₂ ∧ a ∉ l₂ ∧ l₂.toFinset.card < n := by
  -- where the last occurrence is, in the list without repetitions
  have hlast : ∀ {l₁ l₂ : List α}, l = l₁ ++ a :: l₂ → a ∉ l₂ →
      (a ∈ l.dedup.rtake n ↔ l₂.toFinset.card < n) := by
    intro l₁ l₂ hl ha
    obtain ⟨m, hm⟩ : a :: l₂.dedup <:+ l.dedup := by
      rw [hl, List.dedup_append, List.dedup_cons_of_notMem ha]
      exact List.suffix_union_right _ _
    have hcard : l₂.toFinset.card = l₂.dedup.length := rfl
    have hnd : (m ++ a :: l₂.dedup).Nodup := by
      rw [hm]
      exact l.nodup_dedup
    rw [hcard, ← hm, List.rtake, List.length_append, List.length_cons]
    constructor
    · intro h
      by_contra hge
      have h1 : m.length + (l₂.dedup.length + 1) - n = m.length + 1 + (l₂.dedup.length - n) := by omega
      rw [h1, ← List.drop_drop, ← List.singleton_append, ← List.append_assoc,
        List.drop_left' (by rw [List.length_append, List.length_singleton])] at h
      exact ha (List.mem_dedup.mp (List.mem_of_mem_drop h))
    · intro h
      rw [List.drop_append_of_le_length (by omega)]
      exact List.mem_append_right _ List.mem_cons_self
  constructor
  · intro h
    have hmem : a ∈ l := List.mem_dedup.mp (List.mem_of_mem_drop h)
    obtain ⟨l₁, l₂, he, ha⟩ := List.eq_append_cons_of_mem (List.mem_reverse.mpr hmem)
    have hl : l = l₂.reverse ++ a :: l₁.reverse := by
      rw [← List.reverse_reverse l, he, List.reverse_append, List.reverse_cons, List.append_assoc,
        List.singleton_append]
    have ha' : a ∉ l₁.reverse := fun h => ha (List.mem_reverse.mp h)
    exact ⟨_, _, hl, ha', (hlast hl ha').mp h⟩
  · rintro ⟨l₁, l₂, hl, ha, hc⟩
    exact (hlast hl ha).mpr hc

end Recientes
end Kiss
