/-
# The doubly linked list is a sequence

`Rep h list ns` says that the header and the heap hold the nodes `ns`, addresses and data,
in order and linked both ways. Each operation keeps it, for the sequence with the insertion
or the deletion made, and writes at no address but the list's own and the new one
(`Yields`). So along any run, in which whatever else happens in the heap leaves the nodes
alone, the list does what is asked of the sequence of its values (`reach_refines`).

Key definitions: `Rep`, `Yields`, `Op.spec`, `Reach`, `Linked`, `Refines`.
Key theorems: `Rep.insert`, `Rep.remove`, `exec_spec`, `reach_refines`.
-/
import Kiss.Shared.LinkedList
import Mathlib.Data.Fintype.Card

namespace Kiss
namespace Lists

open Chains

variable {α : Type} {h h' : Nodes α} {list : LinkedList} {ns xs ys : List (Addr × Option α)}
  {a b q : Addr} {c : Cell Addr (Option α)} {x d e : Option α} {v p : Ptr}

/-! ### Loads and stores -/

theorem setNext_some (hc : h a = some c) :
    setNext h (some a) v = some (Function.update h a (some { c with next := v })) := by
  rw [setNext, Option.bind_some, hc, Option.map_some]

theorem setPrev_some (hc : h a = some c) :
    setPrev h (some a) v = some (Function.update h a (some { c with prev := v })) := by
  rw [setPrev, Option.bind_some, hc, Option.map_some]

theorem free_some (hc : h a = some c) : free h (some a) = some (Function.update h a none) := by
  rw [free, Option.bind_some, hc, Option.map_some]

theorem load_some : load h (some a) = h a := rfl

/-! ### The nodes of a list -/

/-- The addresses of the nodes. -/
abbrev addrs (ns : List (Addr × Option α)) : List Addr := ns.map Prod.fst

/-- The header and the heap hold the nodes `ns`. -/
structure Rep (h : Nodes α) (list : LinkedList) (ns : List (Addr × Option α)) : Prop where
  chain : Chain h none ns none
  nodup : (addrs ns).Nodup
  first : list.first = firstOr none ns
  last : list.last = lastOr none ns
  size : list.size = ns.length

/-- There are fewer nodes than numbers in an `unsigned long`. -/
theorem length_lt (hn : (addrs ns).Nodup) : ns.length < 2 ^ 64 := by
  have h1 := hn.length_le_card
  rw [List.length_map, Fintype.card_fin] at h1
  omega

/-- An operation returns `r` and leaves the nodes `ns`, and only wrote at `own`. -/
def Yields {ρ : Type} (h : Nodes α) (own : List Addr) (out : Option (ρ × Nodes α × LinkedList)) (r : ρ)
    (ns : List (Addr × Option α)) : Prop :=
  ∃ h' list', out = some (r, h', list') ∧ Rep h' list' ns ∧ ∀ a ∉ own, h' a = h a

/-- A node is none of the nodes before it and after it. -/
theorem nodup_parts (hn : (addrs (xs ++ (a, d) :: ys)).Nodup) : a ∉ addrs xs ∧ a ∉ addrs ys := by
  rw [addrs, List.map_append, List.map_cons, List.nodup_middle, List.nodup_cons, List.mem_append, not_or] at hn
  exact hn.1

/-- A node is not the one after it. -/
theorem nodup_pair (hn : (addrs (xs ++ (b, e) :: (a, d) :: ys)).Nodup) :
    b ∉ addrs xs ∧ a ∉ addrs xs ∧ b ≠ a ∧ b ∉ addrs ys ∧ a ∉ addrs ys := by
  obtain ⟨h1, h2⟩ := nodup_parts hn
  obtain ⟨h3, h4⟩ := not_or.mp (mt List.mem_cons.mpr h2)
  rw [List.append_cons] at hn
  obtain ⟨h5, h6⟩ := nodup_parts hn
  rw [addrs, List.map_append, List.mem_append, not_or] at h5
  exact ⟨h1, h5.1, h3, h4, h6⟩

namespace Rep

theorem isempty (hr : Rep h list ns) : list.isemptylist = decide (ns = []) := by
  rw [LinkedList.isemptylist, hr.size]
  exact decide_eq_decide.mpr List.length_eq_zero_iff

theorem grow_size (hr : Rep h list ns) {ms : List (Addr × Option α)} (hn : (addrs ms).Nodup)
    (hl : ms.length = ns.length + 1) : list.grow.size = ms.length := by
  have h1 : ((list.size : ℤ) + 1) = (ms.length : ℕ) := by
    rw [hr.size, hl]
    rfl
  rw [LinkedList.grow, h1, ulong_of_lt (length_lt hn)]

theorem shrink_size (hr : Rep h list ns) {ms : List (Addr × Option α)} (hl : ns.length = ms.length + 1) :
    list.shrink.size = ms.length := by
  have h1 : ((list.size : ℤ) - 1) = (ms.length : ℕ) := by
    rw [hr.size, hl]
    omega
  have h2 := length_lt hr.nodup
  rw [LinkedList.shrink, h1, ulong_of_lt (by omega)]

/-- What is written in the middle of a list to put a node in. -/
theorem insert (hr : Rep h list (xs ++ (b, e) :: (a, d) :: ys)) (hq : h q = none)
    (h1 : h' q = some ⟨some b, x, some a⟩) (h2 : h' b = some ⟨lastOr none xs, e, some q⟩)
    (h3 : h' a = some ⟨some q, d, firstOr none ys⟩) (h4 : ∀ z, z ≠ q → z ≠ a → z ≠ b → h' z = h z) :
    Rep h' list.grow (xs ++ (b, e) :: (q, x) :: (a, d) :: ys) := by
  have hqm := hr.chain.not_mem hq
  obtain ⟨hbx, hax, -, hby, hay⟩ := nodup_pair hr.nodup
  have hperm : (xs ++ (b, e) :: (q, x) :: (a, d) :: ys).Perm ((q, x) :: (xs ++ (b, e) :: (a, d) :: ys)) :=
    ((List.Perm.swap _ _ _).append_left xs).trans List.perm_middle
  have hn : (addrs (xs ++ (b, e) :: (q, x) :: (a, d) :: ys)).Nodup :=
    (hperm.map Prod.fst).nodup_iff.mpr (List.nodup_cons.mpr ⟨hqm, hr.nodup⟩)
  simp only [List.map_append, List.map_cons, List.mem_append, List.mem_cons, not_or] at hqm
  obtain ⟨hqx, -, -, hqy⟩ := hqm
  have hout : ∀ zs : List (Addr × Option α), q ∉ addrs zs → a ∉ addrs zs → b ∉ addrs zs →
      ∀ z ∈ addrs zs, h' z = h z := fun zs hq ha hb z hz =>
    h4 z (fun hz' => hq (hz' ▸ hz)) (fun hz' => ha (hz' ▸ hz)) (fun hz' => hb (hz' ▸ hz))
  obtain ⟨hcx, -, -, hcy⟩ := chain_append.mp hr.chain
  refine ⟨chain_append.mpr ⟨hcx.congr (hout xs hqx hax hbx), h2, h1, h3, hcy.congr (hout ys hqy hay hby)⟩, hn,
    ?_, ?_, hr.grow_size hn hperm.length_eq⟩
  · rw [LinkedList.grow_first, hr.first, firstOr_append, firstOr_append, firstOr_cons, firstOr_cons]
  · simp only [LinkedList.grow_last, hr.last, lastOr_append, lastOr_cons]

/-- What is written in the middle of a list to take a node out. -/
theorem remove {f : Option α} {b' : Addr} (hr : Rep h list (xs ++ (b, e) :: (a, d) :: (b', f) :: ys))
    (h1 : h' b = some ⟨lastOr none xs, e, some b'⟩) (h2 : h' b' = some ⟨some b, f, firstOr none ys⟩)
    (h3 : ∀ z, z ≠ a → z ≠ b → z ≠ b' → h' z = h z) :
    Rep h' list.shrink (xs ++ (b, e) :: (b', f) :: ys) := by
  obtain ⟨hbx, hax, -, hby, hay⟩ := nodup_pair hr.nodup
  have hn' := hr.nodup
  rw [List.append_cons] at hn'
  obtain ⟨hax', hbx', -, hay', hby'⟩ := nodup_pair hn'
  rw [addrs, List.map_append, List.mem_append, not_or] at hbx'
  have hperm : (xs ++ (b, e) :: (a, d) :: (b', f) :: ys).Perm ((a, d) :: (xs ++ (b, e) :: (b', f) :: ys)) :=
    ((List.Perm.swap _ _ _).append_left xs).trans List.perm_middle
  have hn : (addrs (xs ++ (b, e) :: (b', f) :: ys)).Nodup :=
    ((hperm.map Prod.fst).nodup_iff.mp hr.nodup).of_cons
  have hout : ∀ zs : List (Addr × Option α), a ∉ addrs zs → b ∉ addrs zs → b' ∉ addrs zs →
      ∀ z ∈ addrs zs, h' z = h z := fun zs ha hb hb' z hz =>
    h3 z (fun hz' => ha (hz' ▸ hz)) (fun hz' => hb (hz' ▸ hz)) (fun hz' => hb' (hz' ▸ hz))
  obtain ⟨hcx, -, -, -, hcy⟩ := chain_append.mp hr.chain
  have hbys : b ∉ addrs ys := fun hm => hby (List.mem_cons_of_mem _ hm)
  refine ⟨chain_append.mpr ⟨hcx.congr (hout xs hax hbx hbx'.1), h1, h2, hcy.congr (hout ys hay' hbys hby')⟩, hn,
    ?_, ?_, hr.shrink_size hperm.length_eq⟩
  · rw [LinkedList.shrink_first, hr.first, firstOr_append, firstOr_append, firstOr_cons, firstOr_cons]
  · simp only [LinkedList.shrink_last, hr.last, lastOr_append, lastOr_cons]

end Rep

/-! ### Pushes -/

theorem pushfrontlist_spec (hr : Rep h list ns) (hq : h q = none) :
    Yields h (q :: addrs ns) (pushfrontlist h list x (some q)) 1 ((q, x) :: ns) := by
  have hqm := hr.chain.not_mem hq
  have hn : (addrs ((q, x) :: ns)).Nodup := List.nodup_cons.mpr ⟨hqm, hr.nodup⟩
  unfold pushfrontlist createnode
  cases ns with
  | nil =>
    have h1 : list.isemptylist = true := hr.isempty
    simp only [reduceCtorEq, if_false, h1, if_true]
    refine ⟨_, _, rfl, ⟨?_, hn, rfl, rfl, ?_⟩, fun z hz => ?_⟩
    · exact ⟨Function.update_self _ _ _, trivial⟩
    · exact hr.grow_size hn rfl
    · exact Function.update_of_ne (not_or.mp (mt List.mem_cons.mpr hz)).1 _ _
  | cons y ns =>
    obtain ⟨a, d⟩ := y
    obtain ⟨hqa, hqns⟩ := not_or.mp (mt List.mem_cons.mpr hqm)
    obtain ⟨hans, -⟩ := List.nodup_cons.mp hr.nodup
    obtain ⟨hca, hcns⟩ := hr.chain
    have h1 : list.isemptylist = false := hr.isempty
    have hf : list.first = some a := hr.first
    simp only [reduceCtorEq, if_false, h1, Bool.false_eq_true, hf]
    rw [setNext_some (Function.update_self _ _ _), Option.bind_eq_bind, Option.bind_some, Function.update_idem,
      setPrev_some (by rw [Function.update_of_ne (Ne.symm hqa), hca]), Option.bind_some]
    refine ⟨_, _, rfl, ⟨⟨?_, ?_, ?_⟩, hn, rfl, ?_, ?_⟩, fun z hz => ?_⟩
    · rw [Function.update_of_ne hqa, Function.update_self]
      rfl
    · exact Function.update_self _ _ _
    · exact (hcns.update hqns).update hans
    · exact hr.last
    · exact hr.grow_size hn rfl
    · obtain ⟨hzq, hz⟩ := not_or.mp (mt List.mem_cons.mpr hz)
      obtain ⟨hza, -⟩ := not_or.mp (mt List.mem_cons.mpr hz)
      rw [Function.update_of_ne hza, Function.update_of_ne hzq]

theorem pushbacklist_spec (hr : Rep h list ns) (hq : h q = none) :
    Yields h (q :: addrs ns) (pushbacklist h list x (some q)) 1 (ns ++ [(q, x)]) := by
  have hqm := hr.chain.not_mem hq
  have hperm : (ns ++ [(q, x)]).Perm ((q, x) :: ns) := List.perm_append_singleton _ _
  have hn : (addrs (ns ++ [(q, x)])).Nodup :=
    (hperm.map Prod.fst).nodup_iff.mpr (List.nodup_cons.mpr ⟨hqm, hr.nodup⟩)
  unfold pushbacklist createnode
  rcases List.eq_nil_or_concat' ns with rfl | ⟨xs, ⟨b, e⟩, rfl⟩
  · have h1 : list.isemptylist = true := hr.isempty
    simp only [reduceCtorEq, if_false, h1, if_true]
    refine ⟨_, _, rfl, ⟨?_, hn, rfl, rfl, ?_⟩, fun z hz => ?_⟩
    · exact ⟨Function.update_self _ _ _, trivial⟩
    · exact hr.grow_size hn rfl
    · exact Function.update_of_ne (not_or.mp (mt List.mem_cons.mpr hz)).1 _ _
  · obtain ⟨hbx, -⟩ := nodup_parts hr.nodup
    have hb := hr.chain.cell
    have h1 : list.isemptylist = false := by simp [hr.isempty]
    have hl : list.last = some b := by rw [hr.last, lastOr_append, lastOr_cons, lastOr_nil]
    have hqb : q ≠ b := by
      rintro rfl
      exact hqm (List.mem_map_of_mem (List.mem_append_right _ List.mem_cons_self))
    have hqx : q ∉ addrs xs := fun hm => hqm (List.map_append ▸ List.mem_append_left _ hm)
    simp only [reduceCtorEq, if_false, h1, Bool.false_eq_true, hl]
    rw [setPrev_some (Function.update_self _ _ _), Option.bind_eq_bind, Option.bind_some, Function.update_idem,
      setNext_some (by rw [Function.update_of_ne (Ne.symm hqb), hb]), Option.bind_some]
    refine ⟨_, _, rfl, ⟨?_, hn, ?_, ?_, ?_⟩, fun z hz => ?_⟩
    · rw [List.append_assoc, List.singleton_append]
      refine chain_append.mpr ⟨((chain_append.mp hr.chain).1.update hqx).update hbx, ?_, ?_, trivial⟩
      · exact Function.update_self _ _ _
      · rw [Function.update_of_ne hqb, Function.update_self]
        rfl
    · rw [LinkedList.grow_first, hr.first, firstOr_append, firstOr_append, firstOr_append]
      rfl
    · rw [LinkedList.grow_last, lastOr_append, lastOr_cons, lastOr_nil]
    · exact hr.grow_size hn hperm.length_eq
    · obtain ⟨hzq, hz⟩ := not_or.mp (mt List.mem_cons.mpr hz)
      rw [addrs, List.map_append, List.mem_append, not_or] at hz
      obtain ⟨hzb, -⟩ := not_or.mp (mt List.mem_cons.mpr hz.2)
      rw [Function.update_of_ne hzb, Function.update_of_ne hzq]

/-- The three cells that are written to put a node between two others. -/
theorem insert_yields (hr : Rep h list (xs ++ (b, e) :: (a, d) :: ys)) (hq : h q = none) (hqa : a ≠ q)
    (hqb : b ≠ q) (hba : b ≠ a) :
    Yields h (q :: addrs (xs ++ (b, e) :: (a, d) :: ys))
      (some (1, Function.update (Function.update (Function.update h q (some ⟨some b, x, some a⟩)) b
        (some ⟨lastOr none xs, e, some q⟩)) a (some ⟨some q, d, firstOr none ys⟩), list.grow)) 1
      (xs ++ (b, e) :: (q, x) :: (a, d) :: ys) := by
  refine ⟨_, _, rfl, hr.insert hq ?_ ?_ ?_ ?_, ?_⟩
  · rw [Function.update_of_ne (Ne.symm hqa), Function.update_of_ne (Ne.symm hqb), Function.update_self]
  · rw [Function.update_of_ne hba, Function.update_self]
  · rw [Function.update_self]
  · intro z hzq hza hzb
    rw [Function.update_of_ne hza, Function.update_of_ne hzb, Function.update_of_ne hzq]
  · intro z hz
    simp only [List.map_append, List.map_cons, List.mem_cons, List.mem_append, not_or] at hz
    obtain ⟨hzq, -, hzb, hza, -⟩ := hz
    rw [Function.update_of_ne hza, Function.update_of_ne hzb, Function.update_of_ne hzq]

/-- A node that is put between two others. -/
theorem insertBefore_spec (hr : Rep h list (xs ++ (b, e) :: (a, d) :: ys)) (hq : h q = none) :
    Yields h (q :: addrs (xs ++ (b, e) :: (a, d) :: ys))
      (insertBefore (Function.update h q (some ⟨none, x, none⟩)) list (some q) (some a)) 1
      (xs ++ (b, e) :: (q, x) :: (a, d) :: ys) := by
  obtain ⟨-, -, hba, -⟩ := nodup_pair hr.nodup
  obtain ⟨hb, ha, -⟩ := (chain_append.mp hr.chain).2
  have hqa : a ≠ q := fun he => by simp [← he, ha] at hq
  have hqb : b ≠ q := fun he => by simp [← he, hb] at hq
  simp only [insertBefore, Option.bind_eq_bind]
  rw [setNext_some (Function.update_self _ _ _), Option.bind_some, Function.update_idem,
    load_some, Function.update_of_ne hqa, ha, Option.bind_some, setPrev_some (Function.update_self _ _ _),
    Option.bind_some, Function.update_idem, load_some, Function.update_of_ne hqa, ha, Option.bind_some,
    setNext_some (by rw [Function.update_of_ne hqb, hb]), Option.bind_some,
    setPrev_some (by rw [Function.update_of_ne (Ne.symm hba), Function.update_of_ne hqa, ha]), Option.bind_some]
  exact insert_yields hr hq hqa hqb hba

/-- The loop that counts finds the node at the index. -/
theorem nodeAt_chain : ∀ {p : Ptr} {ns : List (Addr × Option α)} (i : ℕ), Chain h p ns none →
    nodeAt h i (firstOr none ns) = some (ns[i]?.map Prod.fst)
  | _, [], i, _ => by cases i <;> rfl
  | _, x :: ns, 0, _ => rfl
  | _, x :: ns, i + 1, hc => by
    obtain ⟨h1, h2⟩ := hc
    rw [firstOr_cons, nodeAt, h1, Option.bind_some, nodeAt_chain i h2]
    rfl

/-- The loop that looks for a node finds it. -/
theorem nodeOf_chain : ∀ {p : Ptr} {xs : List (Addr × Option α)} {turns : ℕ},
    Chain h p (xs ++ (a, d) :: ys) none → a ∉ addrs xs → xs.length < turns →
    nodeOf h (some a) turns (firstOr none (xs ++ (a, d) :: ys)) = some (some a)
  | _, [], turns + 1, _, _, _ => if_pos rfl
  | _, x :: xs, turns + 1, hc, ha, hl => by
    obtain ⟨h1, h2⟩ := hc
    obtain ⟨h3, h4⟩ := not_or.mp (mt List.mem_cons.mpr ha)
    have h5 : ¬ some x.1 = some a := fun he => h3 (Option.some.inj he).symm
    rw [List.cons_append, firstOr_cons, nodeOf, if_neg h5, h1, Option.bind_some]
    exact nodeOf_chain h2 h4 (Nat.lt_of_succ_lt_succ hl)

/-- A list cut at an index. -/
theorem exists_cut {β : Type} {l : List β} {i : ℕ} (hi : i < l.length) :
    ∃ xs y ys, l = xs ++ y :: ys ∧ xs.length = i :=
  ⟨l.take i, l[i], l.drop (i + 1), by rw [List.getElem_cons_drop, List.take_append_drop],
    List.length_take_of_le (Nat.le_of_lt hi)⟩

/-- A list cut at an index that is not the first one. -/
theorem exists_cut_pair {β : Type} {l : List β} {i : ℕ} (hi : i < l.length) (h0 : i ≠ 0) :
    ∃ xs z y ys, l = xs ++ z :: y :: ys ∧ xs.length + 1 = i := by
  obtain ⟨xs, y, ys, rfl, hx⟩ := exists_cut hi
  rcases List.eq_nil_or_concat' xs with rfl | ⟨xs, z, rfl⟩
  · exact absurd hx.symm h0
  · rw [List.length_append] at hx
    exact ⟨xs, z, y, ys, by rw [List.append_assoc, List.singleton_append], hx⟩

theorem insertIdx_append {β : Type} {y : β} : ∀ {l l' : List β}, (l ++ l').insertIdx l.length y = l ++ y :: l'
  | [], _ => List.insertIdx_zero
  | z :: l, l' => by rw [List.cons_append, List.length_cons, List.insertIdx_succ_cons, insertIdx_append, List.cons_append]

theorem Yields.unchanged {ρ : Type} {own : List Addr} {r : ρ} (hr : Rep h list ns) :
    Yields h own (some (r, h, list)) r ns := ⟨h, list, rfl, hr, fun _ _ => rfl⟩

/-- An index that is out of range. -/
theorem pushatlist_outOfRange (hr : Rep h list ns) {i : ℕ} (hi : ns.length < i) :
    pushatlist h list i x p = some (0, h, list) := by
  have hs : list.sizelist = ns.length := hr.size
  unfold pushatlist
  rw [hs, if_neg (by omega), if_neg (by omega), if_neg (by omega)]

theorem pushatlist_spec (hr : Rep h list ns) (hq : h q = none) {i : ℕ} (hi : i ≤ ns.length) :
    Yields h (q :: addrs ns) (pushatlist h list i x (some q)) 1 (ns.insertIdx i (q, x)) := by
  have hs : list.sizelist = ns.length := hr.size
  unfold pushatlist
  rw [hs]
  by_cases h0 : i = 0
  · subst h0
    rw [if_pos rfl, List.insertIdx_zero]
    exact pushfrontlist_spec hr hq
  rw [if_neg h0]
  by_cases h1 : i = ns.length
  · subst h1
    rw [if_pos rfl, List.insertIdx_length_self]
    exact pushbacklist_spec hr hq
  rw [if_neg h1, if_pos (by omega)]
  obtain ⟨xs, ⟨b, e⟩, ⟨a, d⟩, ys, rfl, rfl⟩ := exists_cut_pair (lt_of_le_of_ne hi h1) h0
  -- the loop runs on the heap that has the new node already
  have h2 := nodeAt_chain (xs.length + 1) (hr.chain.update (c := some ⟨none, x, none⟩) (hr.chain.not_mem hq))
  have h3 : (xs ++ (b, e) :: (a, d) :: ys)[xs.length + 1]? = some (a, d) := by simp
  rw [h3, ← hr.first] at h2
  have h4 : (xs ++ (b, e) :: (a, d) :: ys).insertIdx (xs.length + 1) (q, x) =
      xs ++ (b, e) :: (q, x) :: (a, d) :: ys := by
    have h5 : ((xs ++ [(b, e)]) ++ (a, d) :: ys).insertIdx (xs ++ [(b, e)]).length (q, x) =
        (xs ++ [(b, e)]) ++ (q, x) :: (a, d) :: ys := insertIdx_append
    rwa [List.length_append, List.append_assoc, List.append_assoc] at h5
  rw [h4]
  simp only [createnode, reduceCtorEq, if_false, h2, Option.map_some, Option.bind_eq_bind, Option.bind_some]
  exact insertBefore_spec hr hq

/-- The first node is not one that is after another. -/
theorem first_ne (hr : Rep h list (xs ++ (a, d) :: ys)) (hx : xs ≠ []) : ¬ some a = list.first := by
  obtain ⟨y, xs, rfl⟩ := List.exists_cons_of_ne_nil hx
  intro he
  obtain ⟨h1, -⟩ := nodup_parts hr.nodup
  rw [hr.first, List.cons_append, firstOr_cons] at he
  exact h1 (Option.some.inj he ▸ List.mem_cons_self)

/-- The last node is not one that is before another. -/
theorem last_ne (hr : Rep h list (xs ++ (a, d) :: ys)) (hy : ys ≠ []) : ¬ some a = list.last := by
  intro he
  obtain ⟨-, h1⟩ := nodup_parts hr.nodup
  rcases List.eq_nil_or_concat' ys with rfl | ⟨ys, z, rfl⟩
  · exact hy rfl
  · rw [hr.last, lastOr_append, lastOr_cons, lastOr_append, lastOr_cons, lastOr_nil] at he
    exact h1 (Option.some.inj he ▸ List.mem_map_of_mem (List.mem_append_right _ List.mem_cons_self))

/-- The loop of `pushiterlist`, which begins at the second node. -/
theorem nodeOf_next (hr : Rep h list (xs ++ (a, d) :: ys)) (hc : Chain h' none (xs ++ (a, d) :: ys) none)
    (hx : xs ≠ []) :
    ((load h' list.first).bind fun c => nodeOf h' (some a) (2 ^ 64) c.next) = some (some a) := by
  obtain ⟨y, zs, rfl⟩ := List.exists_cons_of_ne_nil hx
  obtain ⟨h1, h2⟩ := hc
  obtain ⟨h3, -⟩ := nodup_parts hr.nodup
  have h4 := length_lt hr.nodup
  rw [hr.first, List.cons_append, firstOr_cons, load_some, h1, Option.bind_some]
  refine nodeOf_chain h2 (fun hm => h3 (List.mem_cons_of_mem _ hm)) ?_
  simp only [List.length_append, List.length_cons] at h4
  omega

theorem pushiterlist_spec (hr : Rep h list (xs ++ (a, d) :: ys)) (hq : h q = none) :
    Yields h (q :: addrs (xs ++ (a, d) :: ys)) (pushiterlist h list (some a) x (some q)) 1
      (xs ++ (q, x) :: (a, d) :: ys) := by
  unfold pushiterlist
  rw [if_neg (by simp)]
  rcases List.eq_nil_or_concat' xs with rfl | ⟨xs, ⟨b, e⟩, rfl⟩
  · have hf : some a = list.first := hr.first.symm
    rw [if_pos hf]
    exact pushfrontlist_spec hr hq
  have hnf := first_ne hr (List.append_ne_nil_of_right_ne_nil xs (List.cons_ne_nil (b, e) []))
  have hnext := nodeOf_next hr (hr.chain.update (c := some ⟨none, x, none⟩) (hr.chain.not_mem hq))
    (List.append_ne_nil_of_right_ne_nil xs (List.cons_ne_nil (b, e) []))
  rw [if_neg hnf]
  simp only [createnode, reduceCtorEq, if_false, Option.bind_eq_bind]
  by_cases hy : ys = []
  · subst hy
    have hl : list.last = some a := by rw [hr.last, lastOr_append, lastOr_cons, lastOr_nil]
    rw [if_pos hl.symm, hl]
    rw [List.append_assoc, List.singleton_append] at hr ⊢
    obtain ⟨-, -, hba, -⟩ := nodup_pair hr.nodup
    obtain ⟨hb, ha, -⟩ := (chain_append.mp hr.chain).2
    have hqa : a ≠ q := fun he => by simp [← he, ha] at hq
    have hqb : b ≠ q := fun he => by simp [← he, hb] at hq
    rw [load_some, Function.update_of_ne hqa, ha, Option.bind_some, setPrev_some (Function.update_self _ _ _),
      Option.bind_some, Function.update_idem, setNext_some (Function.update_self _ _ _), Option.bind_some,
      Function.update_idem, load_some, Function.update_of_ne hqa, ha, Option.bind_some,
      setNext_some (by rw [Function.update_of_ne hqb, hb]), Option.bind_some,
      setPrev_some (by rw [Function.update_of_ne (Ne.symm hba), Function.update_of_ne hqa, ha]), Option.bind_some]
    simp only [List.append_assoc, List.singleton_append]
    exact insert_yields hr hq hqa hqb hba
  · rw [if_neg (last_ne hr hy), ← Option.bind_assoc, hnext, Option.bind_some]
    simp only [List.append_assoc, List.singleton_append] at hr ⊢
    exact insertBefore_spec hr hq

/-! ### Pops -/

theorem popfrontlist_spec (hr : Rep h list ((a, d) :: ns)) :
    Yields h (addrs ((a, d) :: ns)) (popfrontlist h list) d ns := by
  have h1 : list.isemptylist = false := hr.isempty
  have hs : list.sizelist = ns.length + 1 := hr.size
  have hf : list.first = some a := hr.first
  obtain ⟨hans, hn⟩ := List.nodup_cons.mp hr.nodup
  obtain ⟨ha, hc⟩ := hr.chain
  simp only [popfrontlist, h1, Bool.false_eq_true, if_false, hs, hf, Option.bind_eq_bind]
  cases ns with
  | nil =>
    rw [List.length_nil, if_pos rfl, Option.bind_some]
    simp only [load_some]
    rw [ha, Option.bind_some, free_some ha, Option.bind_some]
    refine ⟨_, _, rfl, ⟨trivial, hn, rfl, rfl, hr.shrink_size rfl⟩, fun z hz => ?_⟩
    exact Function.update_of_ne (not_or.mp (mt List.mem_cons.mpr hz)).1 _ _
  | cons y ns =>
    obtain ⟨b, e⟩ := y
    obtain ⟨hb, hc⟩ := hc
    obtain ⟨hab, hans⟩ := not_or.mp (mt List.mem_cons.mpr hans)
    obtain ⟨hbns, -⟩ := List.nodup_cons.mp hn
    rw [List.length_cons, if_neg (by omega), load_some, ha, Option.bind_some, firstOr_cons, setPrev_some hb,
      Option.bind_some, Option.bind_some]
    simp only [load_some]
    rw [Function.update_of_ne hab, ha, Option.bind_some, free_some (by rw [Function.update_of_ne hab, ha]),
      Option.bind_some]
    refine ⟨_, _, rfl, ⟨⟨?_, ?_⟩, hn, rfl, ?_, hr.shrink_size rfl⟩, fun z hz => ?_⟩
    · rw [Function.update_of_ne (Ne.symm hab), Function.update_self]
    · exact (hc.update hbns).update hans
    · exact hr.last
    · obtain ⟨hza, hz⟩ := not_or.mp (mt List.mem_cons.mpr hz)
      obtain ⟨hzb, -⟩ := not_or.mp (mt List.mem_cons.mpr hz)
      rw [Function.update_of_ne hza, Function.update_of_ne hzb]

theorem popbacklist_spec (hr : Rep h list (ns ++ [(a, d)])) :
    Yields h (addrs (ns ++ [(a, d)])) (popbacklist h list) d ns := by
  have h1 : list.isemptylist = false := by simp [hr.isempty]
  have hs : list.sizelist = ns.length + 1 := by rw [LinkedList.sizelist, hr.size, List.length_append]; rfl
  have hl : list.last = some a := by rw [hr.last, lastOr_append, lastOr_cons, lastOr_nil]
  have ha := hr.chain.cell
  have hsize : list.shrink.size = ns.length := hr.shrink_size (by rw [List.length_append]; rfl)
  simp only [popbacklist, h1, Bool.false_eq_true, if_false, hs, hl, Option.bind_eq_bind]
  rcases List.eq_nil_or_concat' ns with rfl | ⟨xs, ⟨b, e⟩, rfl⟩
  · rw [List.length_nil, if_pos rfl, Option.bind_some]
    simp only [load_some]
    rw [ha, Option.bind_some, free_some ha, Option.bind_some]
    refine ⟨_, _, rfl, ⟨trivial, List.nodup_nil, rfl, rfl, hsize⟩, fun z hz => ?_⟩
    exact Function.update_of_ne (not_or.mp (mt List.mem_cons.mpr hz)).1 _ _
  · rw [List.append_assoc, List.singleton_append] at hr
    obtain ⟨hbx, hax, hba, -, -⟩ := nodup_pair hr.nodup
    have hb := hr.chain.cell
    have hlast : lastOr none (xs ++ [(b, e)]) = some b := by rw [lastOr_append, lastOr_cons, lastOr_nil]
    rw [List.length_append, if_neg (by simp), load_some, ha, Option.bind_some, hlast, setNext_some hb,
      Option.bind_some, Option.bind_some]
    simp only [load_some]
    rw [Function.update_of_ne (Ne.symm hba), ha, Option.bind_some,
      free_some (by rw [Function.update_of_ne (Ne.symm hba), ha]), Option.bind_some]
    refine ⟨_, _, rfl, ⟨chain_append.mpr ⟨?_, ?_, trivial⟩, ?_, ?_, ?_, hsize⟩, fun z hz => ?_⟩
    · exact ((chain_append.mp hr.chain).1.update hbx).update hax
    · rw [Function.update_of_ne hba, Function.update_self]
      rfl
    · have hn := hr.nodup
      rw [List.append_cons, addrs, List.map_append] at hn
      exact (List.nodup_append.mp hn).1
    · rw [LinkedList.shrink_first, hr.first, firstOr_append, firstOr_append]
      rfl
    · rw [LinkedList.shrink_last, hlast]
    · simp only [List.map_append, List.map_cons, List.map_nil, List.mem_cons, List.mem_append, not_or] at hz
      rw [Function.update_of_ne hz.2.1, Function.update_of_ne hz.1.2.1]

/-- A node that is between two others is taken out. -/
theorem unlink_spec {f : Option α} {b' : Addr} (hr : Rep h list (xs ++ (b, e) :: (a, d) :: (b', f) :: ys)) :
    Yields h (addrs (xs ++ (b, e) :: (a, d) :: (b', f) :: ys)) (unlink h list (some a)) d
      (xs ++ (b, e) :: (b', f) :: ys) := by
  obtain ⟨-, -, hba, hbb', -⟩ := nodup_pair hr.nodup
  have hn := hr.nodup
  rw [List.append_cons] at hn
  obtain ⟨-, -, hab', -⟩ := nodup_pair hn
  obtain ⟨hb, ha, hb', -⟩ := (chain_append.mp hr.chain).2
  have hbb' := (not_or.mp (mt List.mem_cons.mpr hbb')).1
  simp only [unlink, Option.bind_eq_bind]
  rw [load_some, ha, Option.bind_some, firstOr_cons, setPrev_some hb', Option.bind_some, load_some,
    Function.update_of_ne hab', ha, Option.bind_some, firstOr_cons,
    setNext_some (by rw [Function.update_of_ne hbb', hb]), Option.bind_some, load_some,
    Function.update_of_ne (Ne.symm hba), Function.update_of_ne hab', ha, Option.bind_some,
    free_some (by rw [Function.update_of_ne (Ne.symm hba), Function.update_of_ne hab', ha]), Option.bind_some]
  refine ⟨_, _, rfl, hr.remove ?_ ?_ ?_, ?_⟩
  · rw [Function.update_of_ne hba, Function.update_self]
  · rw [Function.update_of_ne (Ne.symm hab'), Function.update_of_ne (Ne.symm hbb'), Function.update_self]
  · intro z hza hzb hzb'
    rw [Function.update_of_ne hza, Function.update_of_ne hzb, Function.update_of_ne hzb']
  · intro z hz
    simp only [List.map_append, List.map_cons, List.mem_cons, List.mem_append, not_or] at hz
    obtain ⟨-, hzb, hza, hzb', -⟩ := hz
    rw [Function.update_of_ne hza, Function.update_of_ne hzb, Function.update_of_ne hzb']

theorem popatlist_outOfRange (hr : Rep h list ns) {i : ℕ} (hi : ns.length ≤ i) :
    popatlist h list i = some (none, h, list) := by
  have hs : list.sizelist = ns.length := hr.size
  exact if_neg fun h1 => absurd (hs ▸ h1.2) (Nat.not_lt.mpr hi)

/-- A node with nodes before it and after it, which `unlink` takes out. -/
theorem unlink_middle (hr : Rep h list (xs ++ (a, d) :: ys)) (hx : xs ≠ []) (hy : ys ≠ []) :
    Yields h (addrs (xs ++ (a, d) :: ys)) (unlink h list (some a)) d (xs ++ ys) := by
  obtain ⟨⟨b', f⟩, ys, rfl⟩ := List.exists_cons_of_ne_nil hy
  rcases List.eq_nil_or_concat' xs with rfl | ⟨xs, ⟨b, e⟩, rfl⟩
  · exact absurd rfl hx
  · simp only [List.append_assoc, List.singleton_append] at hr ⊢
    exact unlink_spec hr

theorem popatlist_spec (hr : Rep h list (xs ++ (a, d) :: ys)) :
    Yields h (addrs (xs ++ (a, d) :: ys)) (popatlist h list xs.length) d (xs ++ ys) := by
  have hs : list.sizelist = xs.length + (ys.length + 1) := by
    rw [LinkedList.sizelist, hr.size, List.length_append, List.length_cons]
  have he : list.isemptylist = false := by simp [hr.isempty]
  unfold popatlist
  rw [if_pos ⟨he, by omega⟩, hs]
  by_cases hx : xs = []
  · subst hx
    rw [if_pos List.length_nil]
    exact popfrontlist_spec hr
  rw [if_neg (mt List.length_eq_zero_iff.mp hx)]
  by_cases hy : ys = []
  · subst hy
    rw [if_pos (by rw [List.length_nil]; omega), List.append_nil]
    exact popbacklist_spec hr
  have hne := mt List.length_eq_zero_iff.mp hy
  have h2 := nodeAt_chain xs.length hr.chain
  have h3 : (xs ++ (a, d) :: ys)[xs.length]? = some (a, d) := by simp
  rw [h3, ← hr.first] at h2
  rw [if_neg (by omega), h2, Option.bind_eq_bind, Option.map_some, Option.bind_some]
  exact unlink_middle hr hx hy

theorem popiterlist_spec (hr : Rep h list (xs ++ (a, d) :: ys)) :
    Yields h (addrs (xs ++ (a, d) :: ys)) (popiterlist h list (some a)) d (xs ++ ys) := by
  have he : list.isemptylist = false := by simp [hr.isempty]
  unfold popiterlist
  rw [if_pos ⟨he, Option.some_ne_none a⟩]
  by_cases hx : xs = []
  · subst hx
    have hf : some a = list.first := hr.first.symm
    rw [if_pos hf]
    exact popfrontlist_spec hr
  rw [if_neg (first_ne hr hx)]
  by_cases hy : ys = []
  · subst hy
    have hl : some a = list.last := by rw [hr.last, lastOr_append, lastOr_cons, lastOr_nil]
    rw [if_pos hl, List.append_nil]
    exact popbacklist_spec hr
  have h1 := length_lt hr.nodup
  rw [List.length_append, List.length_cons] at h1
  have h2 : nodeOf h (some a) (2 ^ 64) (firstOr none (xs ++ (a, d) :: ys)) = some (some a) :=
    nodeOf_chain hr.chain (nodup_parts hr.nodup).1 (by omega)
  rw [if_neg (last_ne hr hy), hr.first, h2, Option.bind_eq_bind, Option.bind_some]
  exact unlink_middle hr hx hy

/-! ### Lookups -/

theorem frontlist_spec (hr : Rep h list ns) : frontlist h list = some (ns.map Prod.snd)[0]?.join := by
  unfold frontlist
  rw [hr.isempty]
  cases ns with
  | nil => rfl
  | cons y ns =>
    have h1 : h y.1 = _ := hr.chain.1
    rw [hr.first, firstOr_cons, load_some, h1]
    rfl

theorem backlist_spec (hr : Rep h list ns) :
    backlist h list = some (ns.map Prod.snd)[ns.length - 1]?.join := by
  unfold backlist
  rw [hr.isempty]
  rcases List.eq_nil_or_concat' ns with rfl | ⟨xs, y, rfl⟩
  · rfl
  · have h1 := hr.chain.cell
    rw [hr.last, lastOr_append, lastOr_cons, lastOr_nil, load_some, h1]
    simp

theorem atlist_spec (hr : Rep h list ns) (i : ℕ) : atlist h list i = some (ns.map Prod.snd)[i]?.join := by
  have hs : list.sizelist = ns.length := hr.size
  unfold atlist
  rw [hs]
  by_cases hi : i < ns.length
  · have he : list.isemptylist = false := by
      rw [hr.isempty]
      exact decide_eq_false (List.ne_nil_of_length_pos (by omega))
    rw [if_pos ⟨he, hi⟩]
    by_cases h0 : i = 0
    · subst h0
      rw [if_pos rfl]
      exact frontlist_spec hr
    rw [if_neg h0]
    by_cases h1 : i = ns.length - 1
    · subst h1
      rw [if_pos rfl]
      exact backlist_spec hr
    rw [if_neg h1]
    obtain ⟨xs, y, ys, rfl, rfl⟩ := exists_cut hi
    have h2 := nodeAt_chain xs.length hr.chain
    have h3 : (xs ++ y :: ys)[xs.length]? = some y := by simp
    rw [h3, ← hr.first] at h2
    have h4 := hr.chain.cell
    rw [h2, Option.bind_eq_bind, Option.map_some, Option.bind_some, List.getElem?_map, h3]
    show (load h (some y.1)).map Cell.data = _
    rw [load_some, h4]
    rfl
  · rw [if_neg fun h1 => hi h1.2, List.getElem?_map, List.getElem?_eq_none (by omega)]
    rfl

/-! ### The sequence -/

variable {vs : List (Option α)}

/-- A value inserted at an index, which may be the end. -/
def insertAt (vs : List (Option α)) (i : ℕ) (x : Option α) : Result α × List (Option α) :=
  if i ≤ vs.length then (.int 1, vs.insertIdx i x) else (.int 0, vs)

/-- The value at an index deleted; past the end there is none. -/
def deleteAt (vs : List (Option α)) (i : ℕ) : Result α × List (Option α) :=
  (.pointer vs[i]?.join, vs.eraseIdx i)

/-- The place of an iterator. -/
def place (nodes : List Addr) (iter : Ptr) : Option ℕ := iter.bind fun a => nodes.idxOf? a

/-- What an operation does to the sequence of values. -/
def Op.spec (nodes : List Addr) (vs : List (Option α)) : Op α → Result α × List (Option α)
  | .pushfrontlist x => insertAt vs 0 x
  | .pushbacklist x => insertAt vs vs.length x
  | .pushatlist i x => insertAt vs i x
  | .pushiterlist iter x => (place nodes iter).elim (.int 0, vs) fun i => insertAt vs i x
  | .popfrontlist => deleteAt vs 0
  | .popbacklist => deleteAt vs (vs.length - 1)
  | .popatlist i => deleteAt vs i
  | .popiterlist iter => (place nodes iter).elim (.pointer none, vs) fun i => deleteAt vs i

/-- The operation finds no place in the sequence. -/
def Op.OutOfRange (vs : List (Option α)) : Op α → Prop
  | .pushatlist i _ => vs.length < i
  | .popatlist i => vs.length ≤ i
  | .pushiterlist iter _ | .popiterlist iter => iter = none
  | .popfrontlist | .popbacklist => vs = []
  | .pushfrontlist _ | .pushbacklist _ => False

/-- The nodes one meets from the first one on. -/
def nodes (h : Nodes α) (list : LinkedList) : List Addr := (follow h Cell.next (2 ^ 64) list.first).getD []

/-- An iterator is one of the list's. -/
def Op.Valid (h : Nodes α) (list : LinkedList) : Op α → Prop
  | .pushiterlist iter _ | .popiterlist iter => ∀ a ∈ iter, a ∈ nodes h list
  | _ => True

/-- Both ways one meets the same nodes, as many as the size says, and they hold `vs`. -/
structure Linked (h : Nodes α) (list : LinkedList) (vs : List (Option α)) : Prop where
  next : follow h Cell.next (2 ^ 64) list.first = some (nodes h list)
  different : (nodes h list).Nodup
  size : list.size = (nodes h list).length
  last : list.last = (nodes h list).getLast?
  prev : follow h Cell.prev (2 ^ 64) list.last = some (nodes h list).reverse
  firstPrev : ∀ a, list.first = some a → (h a).map Cell.prev = some none
  lastNext : ∀ a, list.last = some a → (h a).map Cell.next = some none
  values : (nodes h list).map (fun a => (h a).map Cell.data) = vs.map some

/-- The list does what is asked of the sequence `vs`, and touches no other node. -/
structure Refines (h : Nodes α) (list : LinkedList) (vs : List (Option α)) : Prop where
  linked : Linked h list vs
  frontlist : frontlist h list = some vs[0]?.join
  backlist : backlist h list = some vs[vs.length - 1]?.join
  atlist : ∀ i, atlist h list i = some vs[i]?.join
  exec : ∀ (op : Op α) q, op.Valid h list → h q = none → ∃ h' list',
    exec h list (some q) op = some ((op.spec (nodes h list) vs).1, h', list') ∧
      Linked h' list' (op.spec (nodes h list) vs).2 ∧ ∀ a, a ≠ q → a ∉ nodes h list → h' a = h a
  outOfRange : ∀ (op : Op α) p, op.OutOfRange vs →
    Lists.exec h list p op = some ((op.spec (nodes h list) vs).1, h, list)

/-- The runs of a list, `malloc` answering any address that is free, while the rest of the
program does anything to the heap but at the nodes of the list. -/
inductive Reach : Nodes α → LinkedList → List (Option α) → Prop
  | init (h : Nodes α) : Reach h initlist []
  | op {h h' : Nodes α} {list list' : LinkedList} {vs : List (Option α)} {r : Result α} (op : Op α) (q : Addr) :
    Reach h list vs → op.Valid h list → h q = none → exec h list (some q) op = some (r, h', list') →
    Reach h' list' (op.spec (nodes h list) vs).2
  | other {h : Nodes α} {list : LinkedList} {vs : List (Option α)} (h' : Nodes α) :
    Reach h list vs → (∀ a ∈ nodes h list, h' a = h a) → Reach h' list vs

theorem Rep.nodes (hr : Rep h list ns) : nodes h list = addrs ns := by
  unfold Lists.nodes
  rw [hr.first, follow_next hr.chain (Nat.le_of_lt (length_lt hr.nodup)), Option.getD_some]

theorem lastOr_getLast? : ∀ {p : Ptr} {ns : List (Addr × Option α)}, ns ≠ [] →
    lastOr p ns = (addrs ns).getLast?
  | _, [_], _ => rfl
  | _, x :: y :: ns, _ => by
    rw [lastOr_cons, lastOr_getLast? (List.cons_ne_nil y ns)]
    rfl

theorem Rep.linked (hr : Rep h list ns) : Linked h list (ns.map Prod.snd) := by
  have hl := Nat.le_of_lt (length_lt hr.nodup)
  have hlast : list.last = (addrs ns).getLast? := by
    rw [hr.last]
    cases ns with
    | nil => rfl
    | cons x ns => exact lastOr_getLast? (List.cons_ne_nil x ns)
  constructor
  · rw [hr.nodes, hr.first, follow_next hr.chain hl]
  · rw [hr.nodes]
    exact hr.nodup
  · rw [hr.nodes, hr.size, List.length_map]
  · rw [hr.nodes, hlast]
  · rw [hr.nodes, hr.last, follow_prev hr.chain hl]
  · intro a ha
    cases ns with
    | nil => rw [hr.first] at ha; cases ha
    | cons x ns =>
      rw [hr.first, firstOr_cons] at ha
      obtain rfl := Option.some.inj ha
      rw [hr.chain.1]
      rfl
  · intro a ha
    rcases List.eq_nil_or_concat' ns with rfl | ⟨xs, x, rfl⟩
    · rw [hr.last] at ha
      cases ha
    · rw [hr.last, lastOr_append, lastOr_cons, lastOr_nil] at ha
      obtain rfl := Option.some.inj ha
      rw [hr.chain.cell]
      rfl
  · rw [hr.nodes, hr.chain.data, List.map_map]
    rfl

/-! ### Each operation -/

theorem Yields.map {ρ ρ' : Type} {own : List Addr} {out : Option (ρ × Nodes α × LinkedList)} {r : ρ} (f : ρ → ρ')
    (hy : Yields h own out r ns) : Yields h own (out.map (Prod.map f id)) (f r) ns := by
  obtain ⟨h', list', rfl, hr, hf⟩ := hy
  exact ⟨h', list', rfl, hr, hf⟩

theorem Yields.mono {ρ : Type} {own own' : List Addr} {out : Option (ρ × Nodes α × LinkedList)} {r : ρ}
    (hs : own ⊆ own') (hy : Yields h own out r ns) : Yields h own' out r ns := by
  obtain ⟨h', list', rfl, hr, hf⟩ := hy
  exact ⟨h', list', rfl, hr, fun a ha => hf a fun hm => ha (hs hm)⟩

theorem idxOf?_append : ∀ {l l' : List Addr}, a ∉ l → (l ++ a :: l').idxOf? a = some l.length
  | [], _, _ => by rw [List.nil_append, List.idxOf?_cons, if_pos (beq_self_eq_true a)]; rfl
  | y :: l, l', ha => by
    obtain ⟨h1, h2⟩ := not_or.mp (mt List.mem_cons.mpr ha)
    rw [List.cons_append, List.idxOf?_cons, if_neg (by simpa using Ne.symm h1), idxOf?_append h2]
    rfl

/-- An iterator of the list cuts it. -/
theorem place_cut (hn : (addrs ns).Nodup) (ha : a ∈ addrs ns) :
    ∃ xs d ys, ns = xs ++ (a, d) :: ys ∧ place (addrs ns) (some a) = some xs.length := by
  obtain ⟨⟨a, d⟩, hm, rfl⟩ := List.mem_map.mp ha
  obtain ⟨xs, ys, rfl⟩ := List.append_of_mem hm
  refine ⟨xs, d, ys, rfl, ?_⟩
  have h1 : (addrs xs ++ a :: addrs ys).idxOf? a = some (addrs xs).length := idxOf?_append (nodup_parts hn).1
  rw [List.length_map] at h1
  rw [place, Option.bind_some, addrs, List.map_append]
  exact h1

theorem insertAt_map (ns : List (Addr × Option α)) (q : Addr) (x : Option α) {i : ℕ} (hi : i ≤ ns.length) :
    insertAt (ns.map Prod.snd) i x = (.int 1, (ns.insertIdx i (q, x)).map Prod.snd) := by
  rw [insertAt, if_pos (by rwa [List.length_map]), List.map_insertIdx]

theorem deleteAt_map : deleteAt ((xs ++ (a, d) :: ys).map Prod.snd) xs.length =
    (.pointer d, (xs ++ ys).map Prod.snd) := by
  have h1 : (xs.map Prod.snd).length ≤ xs.length := Nat.le_of_eq (List.length_map _)
  rw [deleteAt, List.map_append, List.map_append, List.map_cons, List.eraseIdx_append_of_length_le h1,
    List.getElem?_append_right h1, List.length_map, Nat.sub_self]
  rfl

theorem deleteAt_length {vs : List (Option α)} {i : ℕ} (hi : vs.length ≤ i) : deleteAt vs i = (.pointer none, vs) := by
  rw [deleteAt, List.getElem?_eq_none hi, List.eraseIdx_of_length_le hi]
  rfl

/-- Where there is no place, nothing is done. -/
theorem exec_outOfRange (hr : Rep h list ns) {op : Op α} (ho : op.OutOfRange (ns.map Prod.snd)) :
    exec h list p op = some ((op.spec (addrs ns) (ns.map Prod.snd)).1, h, list) ∧
      (op.spec (addrs ns) (ns.map Prod.snd)).2 = ns.map Prod.snd := by
  have hnil : ns.map Prod.snd = [] → list.isemptylist = true := fun hn => by
    rw [hr.isempty, List.map_eq_nil_iff.mp hn]
    rfl
  cases op with
  | pushfrontlist x | pushbacklist x => exact ho.elim
  | pushatlist i x =>
    have hi : ns.length < i := by rwa [Op.OutOfRange, List.length_map] at ho
    have h1 : insertAt (ns.map Prod.snd) i x = (.int 0, ns.map Prod.snd) :=
      if_neg (by rw [List.length_map]; omega)
    rw [exec, pushatlist_outOfRange hr hi, Op.spec, h1]
    exact ⟨rfl, rfl⟩
  | pushiterlist iter x =>
    obtain rfl : iter = none := ho
    exact ⟨rfl, rfl⟩
  | popfrontlist =>
    rw [exec, popfrontlist, if_pos (hnil ho), Op.spec, deleteAt_length (by rw [show ns.map Prod.snd = [] from ho]; rfl)]
    exact ⟨rfl, rfl⟩
  | popbacklist =>
    rw [exec, popbacklist, if_pos (hnil ho), Op.spec, deleteAt_length (by rw [show ns.map Prod.snd = [] from ho]; rfl)]
    exact ⟨rfl, rfl⟩
  | popatlist i =>
    have hi : ns.length ≤ i := by rwa [Op.OutOfRange, List.length_map] at ho
    rw [exec, popatlist_outOfRange hr hi, Op.spec, deleteAt_length (by rwa [List.length_map])]
    exact ⟨rfl, rfl⟩
  | popiterlist iter =>
    obtain rfl : iter = none := ho
    rw [exec, popiterlist, if_neg fun h1 => h1.2 rfl]
    exact ⟨rfl, rfl⟩

/-- **Every operation** keeps the nodes linked, and does to their values what is asked. -/
theorem exec_spec (hr : Rep h list ns) {op : Op α} (hv : op.Valid h list) (hq : h q = none) : ∃ ns',
    Yields h (q :: addrs ns) (exec h list (some q) op) (op.spec (addrs ns) (ns.map Prod.snd)).1 ns' ∧
      ns'.map Prod.snd = (op.spec (addrs ns) (ns.map Prod.snd)).2 := by
  have hsub : addrs ns ⊆ q :: addrs ns := List.subset_cons_self q _
  by_cases ho : op.OutOfRange (ns.map Prod.snd)
  · obtain ⟨h1, h2⟩ := exec_outOfRange (p := some q) hr ho
    exact ⟨ns, h1 ▸ Yields.unchanged hr, h2.symm⟩
  cases op with
  | pushfrontlist x =>
    have h1 := insertAt_map ns q x (Nat.zero_le ns.length)
    refine ⟨(q, x) :: ns, ?_, ?_⟩
    · rw [Op.spec, h1]
      exact (pushfrontlist_spec hr hq).map Result.int
    · rw [Op.spec, h1, List.insertIdx_zero]
  | pushbacklist x =>
    have h1 := insertAt_map ns q x (Nat.le_refl ns.length)
    refine ⟨ns ++ [(q, x)], ?_, ?_⟩
    · rw [Op.spec, List.length_map, h1]
      exact (pushbacklist_spec hr hq).map Result.int
    · rw [Op.spec, List.length_map, h1, List.insertIdx_length_self]
  | pushatlist i x =>
    have hi : i ≤ ns.length := not_lt.mp fun hi => ho (by rwa [Op.OutOfRange, List.length_map])
    have h1 := insertAt_map ns q x hi
    refine ⟨ns.insertIdx i (q, x), ?_, ?_⟩
    · rw [Op.spec, h1]
      exact (pushatlist_spec hr hq hi).map Result.int
    · rw [Op.spec, h1]
  | pushiterlist iter x =>
    obtain ⟨a, rfl⟩ := Option.ne_none_iff_exists'.mp ho
    obtain ⟨xs, d, ys, rfl, hp⟩ := place_cut hr.nodup (hr.nodes ▸ hv a rfl)
    have hi : xs.length ≤ (xs ++ (a, d) :: ys).length := by simp
    have h1 := insertAt_map (xs ++ (a, d) :: ys) q x hi
    refine ⟨xs ++ (q, x) :: (a, d) :: ys, ?_, ?_⟩
    · rw [Op.spec, hp, Option.elim_some, h1]
      exact (pushiterlist_spec hr hq).map Result.int
    · rw [Op.spec, hp, Option.elim_some, h1, insertIdx_append]
  | popfrontlist =>
    obtain ⟨⟨a, d⟩, ys, rfl⟩ := List.exists_cons_of_ne_nil (mt (fun hn : ns = [] => hn ▸ rfl) ho)
    have h1 : deleteAt (((a, d) :: ys).map Prod.snd) 0 = (.pointer d, ys.map Prod.snd) := rfl
    refine ⟨ys, ?_, ?_⟩
    · rw [Op.spec, h1]
      exact ((popfrontlist_spec hr).map Result.pointer).mono hsub
    · rw [Op.spec, h1]
  | popbacklist =>
    rcases List.eq_nil_or_concat' ns with rfl | ⟨xs, ⟨a, d⟩, rfl⟩
    · exact absurd rfl ho
    have h1 : deleteAt ((xs ++ [(a, d)]).map Prod.snd) xs.length = (.pointer d, (xs ++ []).map Prod.snd) :=
      deleteAt_map
    have h2 : ((xs ++ [(a, d)]).map Prod.snd).length - 1 = xs.length := by simp
    rw [List.append_nil] at h1
    refine ⟨xs, ?_, ?_⟩
    · rw [Op.spec, h2, h1]
      exact ((popbacklist_spec hr).map Result.pointer).mono hsub
    · rw [Op.spec, h2, h1]
  | popatlist i =>
    have hi : i < ns.length := not_le.mp fun hi => ho (by rwa [Op.OutOfRange, List.length_map])
    obtain ⟨xs, ⟨a, d⟩, ys, rfl, rfl⟩ := exists_cut hi
    refine ⟨xs ++ ys, ?_, ?_⟩
    · rw [Op.spec, deleteAt_map]
      exact ((popatlist_spec hr).map Result.pointer).mono hsub
    · rw [Op.spec, deleteAt_map]
  | popiterlist iter =>
    obtain ⟨a, rfl⟩ := Option.ne_none_iff_exists'.mp ho
    obtain ⟨xs, d, ys, rfl, hp⟩ := place_cut hr.nodup (hr.nodes ▸ hv a rfl)
    refine ⟨xs ++ ys, ?_, ?_⟩
    · rw [Op.spec, hp, Option.elim_some, deleteAt_map]
      exact ((popiterlist_spec hr).map Result.pointer).mono hsub
    · rw [Op.spec, hp, Option.elim_some, deleteAt_map]

/-! ### Runs -/

theorem Rep.init : Rep h initlist ([] : List (Addr × Option α)) :=
  ⟨trivial, List.nodup_nil, rfl, rfl, rfl⟩

/-- The nodes of a list that was reached. -/
theorem reach_rep (hreach : Reach h list vs) : ∃ ns, Rep h list ns ∧ ns.map Prod.snd = vs := by
  induction hreach with
  | init h => exact ⟨[], Rep.init, rfl⟩
  | op op q _ hv hq he ih =>
    obtain ⟨ns, hr, rfl⟩ := ih
    obtain ⟨ns', ⟨h', list', ho, hr', -⟩, hs⟩ := exec_spec hr hv hq
    obtain ⟨-, he⟩ := Prod.ext_iff.mp (Option.some.inj (he.symm.trans ho))
    obtain ⟨rfl, rfl⟩ := Prod.ext_iff.mp he
    exact ⟨ns', hr', hr.nodes ▸ hs⟩
  | other h' _ hag ih =>
    obtain ⟨ns, hr, rfl⟩ := ih
    rw [hr.nodes] at hag
    exact ⟨ns, ⟨hr.chain.congr hag, hr.nodup, hr.first, hr.last, hr.size⟩, rfl⟩

/-- **The list is the sequence** of the values that were put in and not taken out. -/
theorem reach_refines (hreach : Reach h list vs) : Refines h list vs := by
  obtain ⟨ns, hr, rfl⟩ := reach_rep hreach
  refine ⟨hr.linked, frontlist_spec hr, ?_, atlist_spec hr, fun op q hv hq => ?_, fun op p ho => ?_⟩
  · rw [List.length_map]
    exact backlist_spec hr
  · obtain ⟨ns', ⟨h', list', ho, hr', hf⟩, hs⟩ := exec_spec hr hv hq
    rw [hr.nodes]
    refine ⟨h', list', ho, hs ▸ hr'.linked, fun a haq ha => hf a fun hm => ?_⟩
    rcases List.mem_cons.mp hm with rfl | hm
    · exact haq rfl
    · exact ha hm
  · rw [hr.nodes]
    exact (exec_outOfRange hr ho).1

/-- A list with two values. -/
theorem reach_refines_twoPushes : ∃ (h : Nodes ℕ) (list : LinkedList), Refines h list [some 7, some 5] := by
  have r0 : Reach (fun _ => none) initlist ([] : List (Option ℕ)) := .init _
  obtain ⟨h1, list1, he1, -, hf1⟩ := (reach_refines r0).exec (.pushbacklist (some 5)) ⟨0, by omega⟩ trivial rfl
  have r1 : Reach h1 list1 [some 5] := .op (.pushbacklist (some 5)) ⟨0, by omega⟩ r0 trivial rfl he1
  have hfree : h1 ⟨1, by omega⟩ = none := by
    refine (hf1 _ (by simp) ?_).trans rfl
    rw [Lists.nodes, initlist, follow_none]
    exact List.not_mem_nil
  obtain ⟨h2, list2, he2, -⟩ := (reach_refines r1).exec (.pushfrontlist (some 7)) ⟨1, by omega⟩ trivial hfree
  have r2 : Reach h2 list2 [some 7, some 5] := .op (.pushfrontlist (some 7)) ⟨1, by omega⟩ r1 trivial hfree he2
  exact ⟨h2, list2, reach_refines r2⟩

end Lists
end Kiss
