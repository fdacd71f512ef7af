/-
# The doubly linked list

`list.c` as it is written: the nodes are cells of a heap with a pointer each way, the
header has the first one, the last one and the size, and each operation reads and writes
them one by one. What `malloc` answers is an argument. An operation is `none` where it
follows a `NULL` or a pointer to nothing allocated, or where a loop does not end.

Key definitions: `LinkedList`, `pushfrontlist`, `pushbacklist`, `pushatlist`, `pushiterlist`,
`popfrontlist`, `popbacklist`, `popatlist`, `popiterlist`, `atlist`, `Op`, `exec`.
-/
import Kiss.Chain
import Mathlib.Algebra.Group.Int.Defs
import Mathlib.Algebra.Group.Nat.Defs

namespace Kiss
namespace Lists

open Chains

/-- The addresses that are not `NULL`. -/
abbrev Addr := Fin (2 ^ 64 - 1)

/-- A pointer to a `ListNode`; `none` is `NULL`. -/
abbrev Ptr := Option Addr

variable {α : Type}

/-- The heap of `ListNode`s; the data of a node is a `void*`. -/
abbrev Nodes (α : Type) := Heap Addr (Option α)

/-- `List`. -/
structure LinkedList where
  first : Ptr
  last : Ptr
  size : ℕ
deriving DecidableEq

/-! ### The heap -/

def load (h : Nodes α) (p : Ptr) : Option (Cell Addr (Option α)) := p.bind h

def setNext (h : Nodes α) (p v : Ptr) : Option (Nodes α) :=
  p.bind fun a => (h a).map fun c => Function.update h a (some { c with next := v })

def setPrev (h : Nodes α) (p v : Ptr) : Option (Nodes α) :=
  p.bind fun a => (h a).map fun c => Function.update h a (some { c with prev := v })

def free (h : Nodes α) (p : Ptr) : Option (Nodes α) :=
  p.bind fun a => (h a).map fun _ => Function.update h a none

/-! ### The functions -/

/-- `createnode`, where `malloc` answers `addr`. -/
def createnode (h : Nodes α) (addr : Ptr) (data : Option α) : Nodes α × Ptr :=
  match addr with
  | some a => (Function.update h a (some ⟨none, data, none⟩), some a)
  | none => (h, none)

def initlist : LinkedList := ⟨none, none, 0⟩

/-- A number as an `unsigned long` has it. -/
@[irreducible] def ulong (n : ℤ) : ℕ := (n % (2 ^ 64 : ℤ)).toNat

theorem ulong_of_lt {n : ℕ} (hn : n < 2 ^ 64) : ulong n = n := by
  unfold ulong
  omega

namespace LinkedList

def isemptylist (list : LinkedList) : Bool := list.size = 0

def sizelist (list : LinkedList) : ℕ := list.size

/-- `list->size += 1`. -/
def grow (list : LinkedList) : LinkedList := { list with size := ulong (list.size + 1) }

/-- `list->size -= 1`. -/
def shrink (list : LinkedList) : LinkedList := { list with size := ulong (list.size - 1) }

variable {list : LinkedList}

@[simp] theorem grow_first : list.grow.first = list.first := rfl

@[simp] theorem grow_last : list.grow.last = list.last := rfl

@[simp] theorem shrink_first : list.shrink.first = list.first := rfl

@[simp] theorem shrink_last : list.shrink.last = list.last := rfl

end LinkedList

def pushfrontlist (h : Nodes α) (list : LinkedList) (data : Option α) (addr : Ptr) :
    Option (ℕ × Nodes α × LinkedList) :=
  let (h, node) := createnode h addr data
  if node = none then some (0, h, list)
  else if list.isemptylist then some (1, h, { list with first := node, last := node }.grow)
  else do
    let h ← setNext h node list.first
    let h ← setPrev h list.first node
    some (1, h, { list with first := node }.grow)

def pushbacklist (h : Nodes α) (list : LinkedList) (data : Option α) (addr : Ptr) :
    Option (ℕ × Nodes α × LinkedList) :=
  let (h, node) := createnode h addr data
  if node = none then some (0, h, list)
  else if list.isemptylist then some (1, h, { list with first := node, last := node }.grow)
  else do
    let h ← setPrev h node list.last
    let h ← setNext h list.last node
    some (1, h, { list with last := node }.grow)

/-- The loop that counts up to `index`: the node at it, `NULL` past the end. -/
def nodeAt (h : Nodes α) : ℕ → Ptr → Option Ptr
  | _, none => some none
  | 0, some a => some (some a)
  | i + 1, some a => (h a).bind fun c => nodeAt h i c.next

/-- The loop that looks for a node: `NULL` past the end. A loop that makes more turns than
there are addresses makes them for ever. -/
def nodeOf (h : Nodes α) (iter : Ptr) : ℕ → Ptr → Option Ptr
  | _, none => some none
  | 0, some _ => none
  | turns + 1, some a =>
    if some a = iter then some (some a) else (h a).bind fun c => nodeOf h iter turns c.next

/-- The writes that put `node` before `aux`. -/
def insertBefore (h : Nodes α) (list : LinkedList) (node aux : Ptr) : Option (ℕ × Nodes α × LinkedList) := do
  let h ← setNext h node aux
  let h ← setPrev h node (← load h aux).prev
  let h ← setNext h (← load h aux).prev node
  let h ← setPrev h aux node
  some (1, h, list.grow)

def pushatlist (h : Nodes α) (list : LinkedList) (index : ℕ) (data : Option α) (addr : Ptr) :
    Option (ℕ × Nodes α × LinkedList) :=
  if index = 0 then pushfrontlist h list data addr
  else if index = list.sizelist then pushbacklist h list data addr
  else if index < list.sizelist then
    let (h, node) := createnode h addr data
    if node = none then some (0, h, list)
    else do
      match ← nodeAt h index list.first with
      | none => some (0, h, list)
      | some a => insertBefore h list node (some a)
  else some (0, h, list)

def pushiterlist (h : Nodes α) (list : LinkedList) (iter : Ptr) (data : Option α) (addr : Ptr) :
    Option (ℕ × Nodes α × LinkedList) :=
  if iter = none then some (0, h, list)
  else if iter = list.first then pushfrontlist h list data addr
  else
    let (h, node) := createnode h addr data
    if node = none then some (0, h, list)
    else if iter = list.last then do
      let h ← setPrev h node (← load h list.last).prev
      let h ← setNext h node list.last
      let h ← setNext h (← load h list.last).prev node
      let h ← setPrev h list.last node
      some (1, h, list.grow)
    else do
      match ← nodeOf h iter (2 ^ 64) (← load h list.first).next with
      | none => some (0, h, list)
      | some a => insertBefore h list node (some a)

def popfrontlist (h : Nodes α) (list : LinkedList) : Option (Option α × Nodes α × LinkedList) :=
  if list.isemptylist then some (none, h, list)
  else do
    let node := list.first
    let (h, list) ←
      if list.sizelist = 1 then some (h, { list with first := none, last := none })
      else do
        let first := (← load h list.first).next
        let h ← setPrev h first none
        some (h, { list with first := first })
    let data := (← load h node).data
    let h ← free h node
    some (data, h, list.shrink)

def popbacklist (h : Nodes α) (list : LinkedList) : Option (Option α × Nodes α × LinkedList) :=
  if list.isemptylist then some (none, h, list)
  else do
    let node := list.last
    let (h, list) ←
      if list.sizelist = 1 then some (h, { list with last := none, first := none })
      else do
        let last := (← load h list.last).prev
        let h ← setNext h last none
        some (h, { list with last := last })
    let data := (← load h node).data
    let h ← free h node
    some (data, h, list.shrink)

/-- The writes that take `node` out. -/
def unlink (h : Nodes α) (list : LinkedList) (node : Ptr) : Option (Option α × Nodes α × LinkedList) := do
  let c ← load h node
  let h ← setPrev h c.next c.prev
  let c ← load h node
  let h ← setNext h c.prev c.next
  let data := (← load h node).data
  let h ← free h node
  some (data, h, list.shrink)

def popatlist (h : Nodes α) (list : LinkedList) (index : ℕ) : Option (Option α × Nodes α × LinkedList) :=
  if list.isemptylist = false ∧ index < list.sizelist then
    if index = 0 then popfrontlist h list
    else if index = list.sizelist - 1 then popbacklist h list
    else do
      match ← nodeAt h index list.first with
      | none => some (none, h, list)
      | some a => unlink h list (some a)
  else some (none, h, list)

def popiterlist (h : Nodes α) (list : LinkedList) (iter : Ptr) : Option (Option α × Nodes α × LinkedList) :=
  if list.isemptylist = false ∧ iter ≠ none then
    if iter = list.first then popfrontlist h list
    else if iter = list.last then popbacklist h list
    else do
      match ← nodeOf h iter (2 ^ 64) list.first with
      | none => some (none, h, list)
      | some a => unlink h list (some a)
  else some (none, h, list)

def frontlist (h : Nodes α) (list : LinkedList) : Option (Option α) :=
  if list.isemptylist then some none else (load h list.first).map Cell.data

def backlist (h : Nodes α) (list : LinkedList) : Option (Option α) :=
  if list.isemptylist then some none else (load h list.last).map Cell.data

def atlist (h : Nodes α) (list : LinkedList) (index : ℕ) : Option (Option α) :=
  if list.isemptylist = false ∧ index < list.sizelist then
    if index = 0 then frontlist h list
    else if index = list.sizelist - 1 then backlist h list
    else do
      match ← nodeAt h index list.first with
      | none => some none
      | some a => (load h (some a)).map Cell.data
  else some none

/-! ### The operations -/

/-- The operations that change a list. -/
inductive Op (α : Type)
  | pushfrontlist (data : Option α)
  | pushbacklist (data : Option α)
  | pushatlist (index : ℕ) (data : Option α)
  | pushiterlist (iter : Ptr) (data : Option α)
  | popfrontlist
  | popbacklist
  | popatlist (index : ℕ)
  | popiterlist (iter : Ptr)

/-- What they return. -/
inductive Result (α : Type)
  | int (n : ℕ)
  | pointer (p : Option α)
deriving DecidableEq

/-- An operation, with the address that `malloc` answers if it is called. -/
def exec (h : Nodes α) (list : LinkedList) (addr : Ptr) : Op α → Option (Result α × Nodes α × LinkedList)
  | .pushfrontlist data => (pushfrontlist h list data addr).map (Prod.map .int id)
  | .pushbacklist data => (pushbacklist h list data addr).map (Prod.map .int id)
  | .pushatlist index data => (pushatlist h list index data addr).map (Prod.map .int id)
  | .pushiterlist iter data => (pushiterlist h list iter data addr).map (Prod.map .int id)
  | .popfrontlist => (popfrontlist h list).map (Prod.map .pointer id)
  | .popbacklist => (popbacklist h list).map (Prod.map .pointer id)
  | .popatlist index => (popatlist h list index).map (Prod.map .pointer id)
  | .popiterlist iter => (popiterlist h list iter).map (Prod.map .pointer id)

end Lists
end Kiss
