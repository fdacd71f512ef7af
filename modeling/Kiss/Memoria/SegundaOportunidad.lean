/-
# Second-chance FIFO

A queue of pages with a bit each. An access to a page of the queue sets its bit; any
other page enters at the tail, and when the queue is full the head leaves, unless its bit
is set, which sends it to the tail with the bit cleared. The hand of CLOCK over a list is
this queue: the list rotated to the hand (`clock_echar`).

Key definitions: `echar`, `acceder`, `reproducir`.
Key theorems: `clock_echar`, `reproducir_append`.
-/
import Mathlib.Data.List.Rotate
import Kiss.Memoria.Reloj

namespace Kiss
namespace SegundaOportunidad

variable {α β : Type*}

/-! ### The queue -/

/-- The page that leaves and the queue without it, in at most `n` inspections. -/
def echar : ℕ → List (α × Bool) → Option (α × List (α × Bool))
  | 0, _ | _ + 1, [] => none
  | n + 1, (x, uso) :: q => if uso then echar n (q ++ [(x, false)]) else some (x, q)

/-! ### The hand of a clock -/

open Reloj (avanzar clock)

section Mano

variable {bits : β → Bool × Bool} {borrar : β → β} {f : β → α × Bool} {m : ℕ}

/-- The pages of a list, by their place. -/
def enLista (bits : β → Bool × Bool) (borrar : β → β) : Reloj.Paginas (List β) where
  leer l i := l[i]?.map bits
  limpiar l i := l.modify i borrar

/-- A list seen from one of its places. -/
theorem rotate_place {l : List β} {i : ℕ} (hi : i < l.length) :
    l.rotate i = l[i] :: (l.drop (i + 1) ++ l.take i) := by
  rw [List.rotate_eq_drop_append_take hi.le, List.drop_eq_getElem_cons hi, List.cons_append]

/-- Seen from the next place on, what was ahead is at the end. -/
theorem rotate_avanzar {l : List β} {i : ℕ} (hi : i < l.length) :
    l.rotate (avanzar l.length i) = (l.drop (i + 1) ++ l.take i) ++ [l[i]] := by
  rw [Reloj.avanzar_eq hi, List.rotate_mod, ← List.rotate_rotate, rotate_place hi, List.rotate_cons_succ,
    List.rotate_zero]

/-- Another value in the place that is left behind. -/
theorem rotate_avanzar_set {l : List β} {i : ℕ} (hi : i < l.length) (y : β) :
    (l.set i y).rotate (avanzar l.length i) = (l.drop (i + 1) ++ l.take i) ++ [y] := by
  have h1 : i < (l.set i y).length := by rwa [List.length_set]
  have h2 := rotate_avanzar h1
  rw [List.length_set] at h2
  rw [h2, List.getElem_set_self, List.drop_set_of_lt (Nat.lt_succ_self i), List.take_set_of_le le_rfl]

/-- **The hand is the head of the queue**: the search of CLOCK takes who leaves, and the
list seen from there is the queue. -/
theorem clock_echar (hf : ∀ b, (f b).2 = (bits b).1) (hb : ∀ b, f (borrar b) = ((f b).1, false)) :
    ∀ {n : ℕ} {l l' : List β} {i j : ℕ}, l.length = m → i < m →
      clock (enLista bits borrar) m n l i = some (l', j) → ∃ x, l'[j]? = some x ∧ l'.length = m ∧ j < m ∧
        echar n ((l.map f).rotate i) = some ((f x).1, (l'.drop (j + 1) ++ l'.take j).map f)
  | 0, l, l', i, j, _, _, h => by cases h
  | n + 1, l, l', i, j, hl, hi, h => by
    have hil : i < l.length := hl ▸ hi
    have hg : l[i]? = some l[i] := List.getElem?_eq_getElem hil
    have hrot : (l.map f).rotate i = f l[i] :: (l.drop (i + 1) ++ l.take i).map f := by
      rw [← List.map_rotate, rotate_place hil, List.map_cons]
    unfold clock at h
    simp only [enLista, hg, Option.map_some] at h
    have hfx : f l[i] = ((f l[i]).1, (bits l[i]).1) := by rw [← hf]
    rw [hrot, hfx, echar]
    by_cases hu : (bits l[i]).1 = true
    · rw [if_pos hu] at h
      rw [if_pos hu]
      have hset : l.modify i borrar = l.set i (borrar l[i]) := by
        rw [List.modify_eq_set_getElem? borrar i l, hg]
        rfl
      have hlen : (l.modify i borrar).length = m := by rw [List.length_modify, hl]
      obtain ⟨x, h2, h3, h4, h5⟩ := clock_echar hf hb hlen (Reloj.avanzar_lt hi) h
      refine ⟨x, h2, h3, h4, ?_⟩
      -- the page goes to the tail without its bit
      have h6 := rotate_avanzar_set hil (borrar l[i])
      rw [hl] at h6
      rw [← h5, ← List.map_rotate, hset, h6]
      simp only [List.map_append, List.map_singleton, hb]
    · rw [if_neg hu] at h
      rw [if_neg hu]
      obtain ⟨rfl, rfl⟩ := Prod.mk.inj (Option.some.inj h)
      exact ⟨l[i], hg, hl, hi, rfl⟩

end Mano

/-! ### Runs -/

variable [DecidableEq α]

/-- The bit of a page is set. -/
def marcar (x : α) (q : List (α × Bool)) : List (α × Bool) :=
  q.map fun y => if y.1 = x then (x, true) else y

/-- An access: whether it is a fault, who leaves, and the queue. -/
def acceder (m : ℕ) (q : List (α × Bool)) (x : α) : Option (Bool × Option α × List (α × Bool)) :=
  if x ∈ q.map (·.1) then some (false, none, marcar x q)
  else if q.length < m then some (true, none, q ++ [(x, true)])
  else (echar (m + 1) q).map fun r => (true, some r.1, r.2 ++ [(x, true)])

/-- What a process does. -/
inductive Accion (α : Type*)
  | acceso (x : α)
  | suspension

/-- What is seen of it: the fault, the victim, and who is in memory afterwards. -/
structure Suceso (α : Type*) where
  accion : Accion α
  fallo : Bool
  victima : Option α
  residentes : α → Bool

/-- Who is in the queue. -/
def residentes (q : List (α × Bool)) : α → Bool := fun x => decide (x ∈ q.map (·.1))

def paso (m : ℕ) (q : List (α × Bool)) : Accion α → Option (Suceso α × List (α × Bool))
  | .acceso x => (acceder m q x).map fun r => (⟨.acceso x, r.1, r.2.1, residentes r.2.2⟩, r.2.2)
  | .suspension => some (⟨.suspension, false, none, residentes []⟩, [])

/-- A run of the queue, with what is seen at each step. -/
def reproducir (m : ℕ) : List (α × Bool) → List (Accion α) → Option (List (Suceso α) × List (α × Bool))
  | q, [] => some ([], q)
  | q, a :: as => do
    let (e, q) ← paso m q a
    let (es, q) ← reproducir m q as
    some (e :: es, q)

theorem reproducir_append {m : ℕ} {a : Accion α} {e : Suceso α} : ∀ {as : List (Accion α)}
    {es : List (Suceso α)} {q q' q'' : List (α × Bool)}, reproducir m q as = some (es, q') →
      paso m q' a = some (e, q'') → reproducir m q (as ++ [a]) = some (es ++ [e], q'')
  | [], es, q, q', q'', h, h1 => by
    cases h
    simp [reproducir, h1]
  | b :: as, es, q, q', q'', h, h1 => by
    obtain ⟨⟨e1, q1⟩, h2, h⟩ := Option.bind_eq_some_iff.mp h
    obtain ⟨⟨es1, q2⟩, h3, h⟩ := Option.bind_eq_some_iff.mp h
    cases h
    have ih := reproducir_append h3 h1
    rw [List.cons_append, reproducir, h2]
    simp only [Option.bind_eq_bind, Option.bind_some, ih, List.cons_append]

end SegundaOportunidad
end Kiss
