/-
# Calls over streams to a server with a semaphore

Some clients, each with its connection, and a server with a thread for each of them. A
client has one call at a time: it writes a message and waits for a whole answer. What was
written arrives in pieces of any size. The thread of a connection answers whom it does not
know yet without the semaphore; otherwise it takes it, reads the state, writes the state and
the answer, and leaves it.

Every run is as if each call were one step, at a place of one order that is between the
moment in which the call is made and the one in which it returns (`Reach.linear`). Without
new calls it comes to an end (`Reach.ends`), and there nobody waits for an answer, unless the
server stopped (`Reach.answered`). `log` and `calls` are history: no step reads them.

Key definitions: `Framing`, `Protocol`, `Net`, `step`, `Reach`, `Replays`, `Told`, `Phase`, `Linear`.
Key theorems: `Inv.step`, `Reach.linear`, `Reach.ends`, `Reach.answered`.
-/
import Mathlib.Algebra.BigOperators.Group.Finset.Basic
import Mathlib.Data.Fintype.Basic
import Mathlib.Data.List.Basic
import Mathlib.Data.Prod.Lex
import Mathlib.Order.Nat
import Mathlib.Logic.Function.Basic
import Mathlib.Tactic.Common

namespace Kiss
namespace Rpc

/-! ### Messages in a stream -/

/-- What is written for a message, and what is read of a stream: nothing until a message has
arrived whole. -/
structure Framing (β Q P : Type*) where
  write : Q → List β
  read : List β → Option (P × List β)
  package : Q → P
  read_nil : read [] = none
  read_write (q : Q) (l : List β) : read (write q ++ l) = some (package q, l)
  read_part (q : Q) (l : List β) : l <+: write q → l ≠ write q → read l = none

/-- What has arrived and nobody has read, and what is on its way. -/
structure Stream (β : Type*) where
  arrived : List β := []
  coming : List β := []

namespace Stream

variable {β : Type*} (s : Stream β)

def bytes : List β := s.arrived ++ s.coming

def send (l : List β) : Stream β := { s with coming := s.coming ++ l }

def deliver (k : ℕ) : Stream β := ⟨s.arrived ++ s.coming.take k, s.coming.drop k⟩

@[simp] theorem bytes_send (l : List β) : (s.send l).bytes = s.bytes ++ l := by
  simp [bytes, send]

@[simp] theorem bytes_deliver (k : ℕ) : (s.deliver k).bytes = s.bytes := by
  simp [bytes, deliver]

end Stream

section Framing

variable {β Q P : Type*} (f : Framing β Q P) {s : Stream β} {q : Q} {p : P} {l : List β}

theorem Framing.read_empty (h : s.bytes = []) : f.read s.arrived = none := by
  have h1 : s.arrived = [] := (List.append_eq_nil_iff.mp h).1
  rw [h1]
  exact f.read_nil

/-- What is read of a message is all of it. -/
theorem Framing.read_some (h : s.bytes = f.write q) (hr : f.read s.arrived = some (p, l)) :
    p = f.package q ∧ l = [] ∧ s.coming = [] := by
  have hpre : s.arrived <+: f.write q := ⟨s.coming, h⟩
  have hall : s.arrived = f.write q := by
    by_contra hne
    rw [f.read_part q _ hpre hne] at hr
    cases hr
  have hcom : s.coming = [] := by
    have h1 : s.arrived ++ s.coming = s.arrived ++ [] := by
      rw [List.append_nil, hall]
      exact hall ▸ h
    exact List.append_cancel_left h1
  have h2 := f.read_write q []
  rw [List.append_nil, ← hall, hr] at h2
  obtain ⟨rfl, rfl⟩ := Prod.mk.inj (Option.some.inj h2)
  exact ⟨rfl, rfl, hcom⟩

/-- Once it has arrived it can be read. -/
theorem Framing.read_arrived (h : s.bytes = f.write q) (hc : s.coming = []) :
    f.read s.arrived = some (f.package q, []) := by
  have h1 : s.arrived = f.write q ++ [] := by
    rw [← h, Stream.bytes, hc]
    simp
  rw [h1]
  exact f.read_write q []

/-- Messages that are written as those of `f`. -/
def Framing.comap {M : Type*} (g : M → Q) : Framing β M P where
  write m := f.write (g m)
  read := f.read
  package m := f.package (g m)
  read_nil := f.read_nil
  read_write m := f.read_write (g m)
  read_part m := f.read_part (g m)

end Framing

/-! ### The net -/

/-- The messages of both ways, what a thread answers to whom it does not know, with what it
knows then, and what it answers with the semaphore. -/
structure Protocol (β Q P A R κ σ : Type*) where
  up : Framing β Q P
  down : Framing β A R
  greet : κ → P → Option (A × κ)
  serve : κ → P → σ → Option (A × σ)

/-- Where the thread of a connection is. -/
inductive Handler (P σ : Type*)
  /-- In `recv`. -/
  | waits
  | asks (p : P)
  /-- It has the semaphore, and has read the state. -/
  | works (p : P) (s : σ)
  | leaves

/-- It has not read a request that it has to answer. -/
def Handler.Rests {P σ : Type*} : Handler P σ → Prop
  | waits | leaves => True
  | _ => False

def Handler.Has {P σ : Type*} (p : P) : Handler P σ → Prop
  | asks p' | works p' _ => p' = p
  | _ => False

/-- It has the semaphore. -/
def Handler.Holds {P σ : Type*} : Handler P σ → Prop
  | works _ _ | leaves => True
  | _ => False

/-- A call that returned: how long the log was when it was made and when it returned. -/
structure Call (Q R : Type*) where
  request : Q
  answer : R
  since : ℕ
  upto : ℕ

/-- A connection; `pending` is the call that waits, with how long the log was when it was
made. -/
structure Conn (β Q P R κ σ : Type*) where
  up : Stream β := {}
  down : Stream β := {}
  pending : Option (Q × ℕ) := none
  handler : Handler P σ := .waits
  session : κ
  calls : List (Call Q R) := []

def Handler.rank {P σ : Type*} : Handler P σ → ℕ
  | waits => 0
  | leaves => 1
  | works _ _ => 2
  | asks _ => 3

/-- How far a call is from its end. -/
def Conn.rank {β Q P R κ σ : Type*} (c : Conn β Q P R κ σ) : ℕ :=
  (if c.up.bytes.length = 0 then 0 else 4) + c.handler.rank + if c.pending.isSome then 1 else 0

/-- The bytes that are on their way. -/
def Conn.moving {β Q P R κ σ : Type*} (c : Conn β Q P R κ σ) : ℕ :=
  c.up.coming.length + c.down.coming.length

/-- A request that was answered, and of which call it was. -/
structure Entry (ι Q P A : Type*) where
  conn : ι
  call : Option Q
  request : P
  answer : A

/-- `sem` is whether the semaphore is free. -/
structure Net (ι β Q P A R κ σ : Type*) where
  conns : ι → Conn β Q P R κ σ
  sem : Bool := true
  state : σ
  log : List (Entry ι Q P A) := []

/-- What a client or a thread of the server does, or the net. -/
inductive Action (Q : Type*)
  | call (q : Q)
  | deliver (k : ℕ)
  | deliverBack (k : ℕ)
  | receive
  | greet
  | take
  | finish
  | release
  | collect

variable {ι β Q P A R κ σ : Type*} [DecidableEq ι]

/-- A call is one that `ok` allows. -/
def Action.allowed (ok : Q → Bool) : Action Q → Bool
  | .call q => ok q
  | _ => true

def Net.set (n : Net ι β Q P A R κ σ) (i : ι) (c : Conn β Q P R κ σ) : Net ι β Q P A R κ σ :=
  { n with conns := Function.update n.conns i c }

section Step

variable (pr : Protocol β Q P A R κ σ)

/-- What is done at connection `i`; `none` where it has to wait. -/
def step (n : Net ι β Q P A R κ σ) (i : ι) : Action Q → Option (Net ι β Q P A R κ σ)
  | .call q =>
    if (n.conns i).pending.isSome then none
    else some (n.set i { n.conns i with
      pending := some (q, n.log.length)
      up := (n.conns i).up.send (pr.up.write q) })
  | .deliver k =>
    if 0 < k ∧ k ≤ (n.conns i).up.coming.length then
      some (n.set i { n.conns i with up := (n.conns i).up.deliver k })
    else none
  | .deliverBack k =>
    if 0 < k ∧ k ≤ (n.conns i).down.coming.length then
      some (n.set i { n.conns i with down := (n.conns i).down.deliver k })
    else none
  | .receive => match (n.conns i).handler with
    | .waits => (pr.up.read (n.conns i).up.arrived).map fun x =>
      n.set i { n.conns i with handler := .asks x.1, up := ⟨x.2, (n.conns i).up.coming⟩ }
    | _ => none
  | .greet => match (n.conns i).handler with
    | .asks p => (pr.greet (n.conns i).session p).map fun x =>
      { n.set i { n.conns i with
          handler := .waits
          session := x.2
          down := (n.conns i).down.send (pr.down.write x.1) } with
        log := n.log ++ [⟨i, (n.conns i).pending.map (·.1), p, x.1⟩] }
    | _ => none
  | .take => match (n.conns i).handler with
    | .asks p =>
      if n.sem = true ∧ pr.greet (n.conns i).session p = none then
        some { n.set i { n.conns i with handler := .works p n.state } with sem := false }
      else none
    | _ => none
  | .finish => match (n.conns i).handler with
    | .works p s => (pr.serve (n.conns i).session p s).map fun x =>
      { n.set i { n.conns i with
          handler := .leaves
          down := (n.conns i).down.send (pr.down.write x.1) } with
        state := x.2
        log := n.log ++ [⟨i, (n.conns i).pending.map (·.1), p, x.1⟩] }
    | _ => none
  | .release => match (n.conns i).handler with
    | .leaves => some { n.set i { n.conns i with handler := .waits } with sem := true }
    | _ => none
  | .collect => match (n.conns i).pending with
    | some (q, since) => (pr.down.read (n.conns i).down.arrived).map fun x =>
      n.set i { n.conns i with
        pending := none
        down := ⟨x.2, (n.conns i).down.coming⟩
        calls := (n.conns i).calls ++ [⟨q, x.1, since, n.log.length⟩] }
    | none => none

/-- A step that is not a call. -/
def Later (n' n : Net ι β Q P A R κ σ) : Prop := ∃ i a, (∀ q, a ≠ .call q) ∧ step pr n i a = some n'

/-- The runs in which call number `k` of connection `i` is one that `ok` allows. -/
inductive Reach (ok : ι → ℕ → Q → Prop) (n₀ : Net ι β Q P A R κ σ) : Net ι β Q P A R κ σ → Prop
  | start : Reach ok n₀ n₀
  | step {n n' : Net ι β Q P A R κ σ} (i : ι) (a : Action Q) : Reach ok n₀ n →
      (∀ q, a = .call q → ok i (n.conns i).calls.length q) → Rpc.step pr n i a = some n' → Reach ok n₀ n'

/-- A run, while the calls are among those that `check` allows. -/
def run (check : ι → ℕ → Q → Bool) : List (ι × Action Q) → Net ι β Q P A R κ σ →
    Option (Net ι β Q P A R κ σ)
  | [], n => some n
  | x :: xs, n =>
    if x.2.allowed (check x.1 (n.conns x.1).calls.length) then (step pr n x.1 x.2).bind (run check xs)
    else none

theorem reach_of_run {pr : Protocol β Q P A R κ σ} {ok : ι → ℕ → Q → Prop} {check : ι → ℕ → Q → Bool}
    (hc : ∀ i k q, check i k q = true → ok i k q) {n₀ : Net ι β Q P A R κ σ} :
    ∀ {xs : List (ι × Action Q)} {n n' : Net ι β Q P A R κ σ}, Reach pr ok n₀ n →
      run pr check xs n = some n' → Reach pr ok n₀ n'
  | [], n, n', h, hr => Option.some.inj hr ▸ h
  | x :: xs, n, n', h, hr => by
    unfold run at hr
    split at hr
    · rename_i hx
      obtain ⟨n1, h1, h2⟩ := Option.bind_eq_some_iff.mp hr
      refine reach_of_run hc (.step x.1 x.2 h (fun q hq => hc _ _ _ ?_) h1) h2
      rw [hq] at hx
      exact hx
    · cases hr

/-- What the server answers to one request, and what it knows afterwards. -/
def respond (k : κ) (p : P) (s : σ) : Option (A × κ × σ) :=
  match pr.greet k p with
  | some x => some (x.1, x.2, s)
  | none => (pr.serve k p s).map fun x => (x.1, k, x.2)

/-- The requests of the log, one after the other. -/
inductive Replays (k₀ : κ) (s₀ : σ) : List (Entry ι Q P A) → (ι → κ) → σ → Prop
  | nil : Replays k₀ s₀ [] (fun _ => k₀) s₀
  | snoc {log : List (Entry ι Q P A)} {ks : ι → κ} {s s' : σ} {k : κ} (e : Entry ι Q P A) :
      Replays k₀ s₀ log ks s → respond pr (ks e.conn) e.request s = some (e.answer, k, s') →
      Replays k₀ s₀ (log ++ [e]) (Function.update ks e.conn k) s'

/-- No connection has made a call. -/
def initial (k₀ : κ) (s₀ : σ) : Net ι β Q P A R κ σ := { conns := fun _ => { session := k₀ }, state := s₀ }

/-! ### The calls and the log -/

/-- Call number `k` of `cs` is answered by entry number `k` of its connection, which came
while the call waited; and the connection has no other entries. -/
structure Told (log : List (Entry ι Q P A)) (i : ι) (cs : List (Call Q R)) : Prop where
  each : ∀ k c, cs[k]? = some c → ∃ t a, c.since ≤ t ∧ t < c.upto ∧
    log[t]? = some ⟨i, some c.request, pr.up.package c.request, a⟩ ∧ c.answer = pr.down.package a ∧
    (log.take t).countP (·.conn = i) = k
  all : log.countP (·.conn = i) = cs.length

/-- Each entry of the log is of a call that `ok` allows there. -/
def Listed (ok : ι → ℕ → Q → Prop) (log : List (Entry ι Q P A)) : Prop :=
  ∀ t e, log[t]? = some e → ∃ q, e.call = some q ∧ e.request = pr.up.package q ∧
    ok e.conn ((log.take t).countP (·.conn = e.conn)) q

/-- Where the call of a connection is: at the client, on its way, at the server, or answered. -/
inductive Phase (log : List (Entry ι Q P A)) (i : ι) (c : Conn β Q P R κ σ) : Prop
  | idle (hp : c.pending = none) (hu : c.up.bytes = []) (hd : c.down.bytes = []) (hh : c.handler.Rests)
      (ht : Told pr log i c.calls)
  | sent (q : Q) (k : ℕ) (hp : c.pending = some (q, k)) (hu : c.up.bytes = pr.up.write q)
      (hd : c.down.bytes = []) (hh : c.handler.Rests) (hk : k ≤ log.length) (ht : Told pr log i c.calls)
  | inside (q : Q) (k : ℕ) (hp : c.pending = some (q, k)) (hu : c.up.bytes = []) (hd : c.down.bytes = [])
      (hh : c.handler.Has (pr.up.package q)) (hk : k ≤ log.length) (ht : Told pr log i c.calls)
  | answered (q : Q) (k : ℕ) (a : A) (hp : c.pending = some (q, k)) (hu : c.up.bytes = [])
      (hd : c.down.bytes = pr.down.write a) (hh : c.handler.Rests)
      (ht : Told pr log i (c.calls ++ [⟨q, pr.down.package a, k, log.length⟩]))

/-- **The calls are one after the other** in the log. -/
structure Linear (ok : ι → ℕ → Q → Prop) (k₀ : κ) (s₀ : σ) (n : Net ι β Q P A R κ σ) : Prop where
  listed : Listed pr ok n.log
  replays : Replays pr k₀ s₀ n.log (fun i => (n.conns i).session) n.state
  /-- The calls that returned, or those and the one that is answered and has not returned. -/
  told : ∀ i, ∃ cs, Told pr n.log i cs ∧ (cs = (n.conns i).calls ∨ ∃ q k a,
    (n.conns i).pending = some (q, k) ∧ cs = (n.conns i).calls ++ [⟨q, pr.down.package a, k, n.log.length⟩])

end Step

section Told

variable {pr : Protocol β Q P A R κ σ} {log : List (Entry ι Q P A)} {i : ι} {cs : List (Call Q R)}
  {e : Entry ι Q P A} {q : Q} {a : A} {k u u' : ℕ} {r : R}

theorem told_nil : Told pr ([] : List (Entry ι Q P A)) i [] where
  each k c h := by simp at h
  all := rfl

/-- The places of the log stay. -/
theorem each_append {t : ℕ} {x : Entry ι Q P A} (h : log[t]? = some x)
    (hc : (log.take t).countP (fun e => decide (e.conn = i)) = k) :
    (log ++ [e])[t]? = some x ∧ ((log ++ [e]).take t).countP (fun e => decide (e.conn = i)) = k := by
  obtain ⟨hlt, -⟩ := List.getElem?_eq_some_iff.mp h
  rw [List.getElem?_append_left hlt, List.take_append_of_le_length hlt.le]
  exact ⟨h, hc⟩

namespace Told

theorem other (h : Told pr log i cs) (he : e.conn ≠ i) : Told pr (log ++ [e]) i cs where
  each k c hc := by
    obtain ⟨t, a, h1, h2, h3, h4, h5⟩ := h.each k c hc
    obtain ⟨h6, h7⟩ := each_append (e := e) h3 h5
    exact ⟨t, a, h1, h2, h6, h4, h7⟩
  all := by
    rw [List.countP_append, h.all]
    simp [he]

/-- The last call has not returned yet. -/
theorem later (h : Told pr log i (cs ++ [⟨q, r, k, u⟩])) (hu : u ≤ u') :
    Told pr log i (cs ++ [⟨q, r, k, u'⟩]) where
  each j c hc := by
    rcases Nat.lt_or_ge j cs.length with hj | hj
    · rw [List.getElem?_append_left hj] at hc
      exact h.each j c (by rwa [List.getElem?_append_left hj])
    · rw [List.getElem?_append_right hj] at hc
      obtain ⟨hj1, rfl⟩ := List.getElem?_eq_some_iff.mp hc
      have hj2 : j - cs.length = 0 := by simpa using hj1
      obtain ⟨t, a, h1, h2, h3⟩ := h.each j ⟨q, r, k, u⟩ (by
        rw [List.getElem?_append_right hj, hj2]
        rfl)
      simp only [hj2, List.getElem_cons_zero]
      exact ⟨t, a, h1, h2.trans_le hu, h3⟩
  all := by
    rw [h.all]
    simp

/-- A call is answered. -/
theorem snoc (h : Told pr log i cs) (hk : k ≤ log.length) :
    Told pr (log ++ [⟨i, some q, pr.up.package q, a⟩]) i
      (cs ++ [⟨q, pr.down.package a, k, (log ++ [(⟨i, some q, pr.up.package q, a⟩ : Entry ι Q P A)]).length⟩]) where
  each j c hc := by
    rcases Nat.lt_or_ge j cs.length with hj | hj
    · rw [List.getElem?_append_left hj] at hc
      obtain ⟨t, a', h1, h2, h3, h4, h5⟩ := h.each j c hc
      obtain ⟨h6, h7⟩ := each_append (e := ⟨i, some q, pr.up.package q, a⟩) h3 h5
      exact ⟨t, a', h1, h2, h6, h4, h7⟩
    · rw [List.getElem?_append_right hj] at hc
      obtain ⟨hj1, rfl⟩ := List.getElem?_eq_some_iff.mp hc
      have hj2 : j - cs.length = 0 := by simpa using hj1
      simp only [hj2, List.getElem_cons_zero]
      refine ⟨log.length, a, hk, by simp, ?_, rfl, ?_⟩
      · rw [List.getElem?_append_right le_rfl, Nat.sub_self]
        rfl
      · rw [List.take_left, h.all]
        omega
  all := by
    rw [List.countP_append, h.all]
    simp

end Told

theorem Listed.snoc {ok : ι → ℕ → Q → Prop} {p : P} (h : Listed pr ok log) (hp : p = pr.up.package q)
    (hok : ok i (log.countP (·.conn = i)) q) : Listed pr ok (log ++ [⟨i, some q, p, a⟩]) := by
  intro t x hx
  rcases Nat.lt_or_ge t log.length with ht | ht
  · rw [List.getElem?_append_left ht] at hx
    rw [List.take_append_of_le_length ht.le]
    exact h t x hx
  · rw [List.getElem?_append_right ht] at hx
    obtain ⟨h1, rfl⟩ := List.getElem?_eq_some_iff.mp hx
    have h2 : t = log.length := by
      have : t - log.length < 1 := h1
      omega
    subst h2
    simp only [Nat.sub_self, List.getElem_cons_zero]
    rw [List.take_left]
    exact ⟨q, rfl, hp, hok⟩

theorem Listed.of_snoc {ok : ι → ℕ → Q → Prop} (h : Listed pr ok (log ++ [e])) : Listed pr ok log ∧
    ∃ q, e.call = some q ∧ e.request = pr.up.package q ∧ ok e.conn (log.countP (·.conn = e.conn)) q := by
  refine ⟨fun t x hx => ?_, ?_⟩
  · obtain ⟨ht, -⟩ := List.getElem?_eq_some_iff.mp hx
    have h1 := h t x (by rwa [List.getElem?_append_left ht])
    rwa [List.take_append_of_le_length ht.le] at h1
  · have h1 := h log.length e (by rw [List.getElem?_append_right le_rfl, Nat.sub_self]; rfl)
    rwa [List.take_left] at h1

/-- Another connection is answered. -/
theorem Phase.other {c : Conn β Q P R κ σ} (h : Phase pr log i c) (he : e.conn ≠ i) :
    Phase pr (log ++ [e]) i c := by
  have hlen : log.length ≤ (log ++ [e]).length := by simp
  cases h with
  | idle hp hu hd hh ht => exact .idle hp hu hd hh (ht.other he)
  | sent q k hp hu hd hh hk ht => exact .sent q k hp hu hd hh (hk.trans hlen) (ht.other he)
  | inside q k hp hu hd hh hk ht => exact .inside q k hp hu hd hh (hk.trans hlen) (ht.other he)
  | answered q k a hp hu hd hh ht => exact .answered q k a hp hu hd hh ((ht.other he).later hlen)

end Told

section Enabled

variable {pr : Protocol β Q P A R κ σ} {n : Net ι β Q P A R κ σ} {i : ι} {p : P} {s : σ}

theorem deliver_isSome (h : (n.conns i).up.coming ≠ []) :
    (step pr n i (.deliver (n.conns i).up.coming.length)).isSome := by
  have h1 := List.length_pos_iff.mpr h
  simp only [step, h1, le_refl, and_self, if_true, Option.isSome_some]

theorem deliverBack_isSome (h : (n.conns i).down.coming ≠ []) :
    (step pr n i (.deliverBack (n.conns i).down.coming.length)).isSome := by
  have h1 := List.length_pos_iff.mpr h
  simp only [step, h1, le_refl, and_self, if_true, Option.isSome_some]

theorem receive_isSome {x : P × List β} (h : (n.conns i).handler = .waits)
    (hr : pr.up.read (n.conns i).up.arrived = some x) : (step pr n i .receive).isSome := by
  simp only [step, h, hr, Option.map_some, Option.isSome_some]

theorem greet_isSome (h : (n.conns i).handler = .asks p) (hg : pr.greet (n.conns i).session p ≠ none) :
    (step pr n i .greet).isSome := by
  simpa only [step, h, Option.isSome_map, Option.isSome_iff_ne_none] using hg

theorem take_isSome (h : (n.conns i).handler = .asks p) (hs : n.sem = true)
    (hg : pr.greet (n.conns i).session p = none) : (step pr n i .take).isSome := by
  simp only [step, h, hs, hg, and_self, if_true, Option.isSome_some]

theorem finish_isSome (h : (n.conns i).handler = .works p s) (hg : pr.serve (n.conns i).session p s ≠ none) :
    (step pr n i .finish).isSome := by
  simpa only [step, h, Option.isSome_map, Option.isSome_iff_ne_none] using hg

theorem release_isSome (h : (n.conns i).handler = .leaves) : (step pr n i .release).isSome := by
  simp only [step, h, Option.isSome_some]

theorem collect_isSome {x : Q × ℕ} {y : R × List β} (h : (n.conns i).pending = some x)
    (hr : pr.down.read (n.conns i).down.arrived = some y) : (step pr n i .collect).isSome := by
  simp only [step, h, hr, Option.map_some, Option.isSome_some]

end Enabled

section Inv

variable (pr : Protocol β Q P A R κ σ) (ok : ι → ℕ → Q → Prop) (k₀ : κ) (s₀ : σ)

/-- The calls of a connection are those that `ok` allows. -/
def Allowed (i : ι) (c : Conn β Q P R κ σ) : Prop :=
  (∀ k x, c.calls[k]? = some x → ok i k x.request) ∧ ∀ q k, c.pending = some (q, k) → ok i c.calls.length q

/-- The invariant: where each call is, who has the semaphore, and that the state he read is
the one there is. -/
structure Inv (n : Net ι β Q P A R κ σ) : Prop where
  phase : ∀ i, Phase pr n.log i (n.conns i)
  holder : ∃ o : Option ι, (n.sem = true ↔ o = none) ∧ ∀ i, (n.conns i).handler.Holds ↔ o = some i
  works : ∀ i p s, (n.conns i).handler = .works p s → s = n.state ∧ pr.greet (n.conns i).session p = none
  listed : Listed pr ok n.log
  replays : Replays pr k₀ s₀ n.log (fun i => (n.conns i).session) n.state
  allowed : ∀ i, Allowed ok i (n.conns i)

end Inv

section Steps

variable {pr : Protocol β Q P A R κ σ} {ok : ι → ℕ → Q → Prop} {k₀ : κ} {s₀ : σ}
  {n n' : Net ι β Q P A R κ σ} {c c' : Conn β Q P R κ σ} {log : List (Entry ι Q P A)} {i : ι} {q : Q} {k : ℕ}
  {p : P}

/-! ### One connection -/

omit [DecidableEq ι] in
theorem Allowed.congr (h : Allowed ok i c) (hp : c'.pending = c.pending) (hc : c'.calls = c.calls) :
    Allowed ok i c' := by
  unfold Allowed
  rw [hp, hc]
  exact h

namespace Phase

/-- The bytes move. -/
theorem congr (h : Phase pr log i c) (hp : c'.pending = c.pending) (hu : c'.up.bytes = c.up.bytes)
    (hd : c'.down.bytes = c.down.bytes) (hh : c'.handler.Rests ↔ c.handler.Rests)
    (hb : ∀ p, c.handler.Has p → c'.handler.Has p) (hc : c'.calls = c.calls) : Phase pr log i c' := by
  cases h with
  | idle h1 h2 h3 h4 h5 => exact .idle (hp.trans h1) (hu.trans h2) (hd.trans h3) (hh.mpr h4) (hc ▸ h5)
  | sent q k h1 h2 h3 h4 h5 h6 =>
    exact .sent q k (hp.trans h1) (hu.trans h2) (hd.trans h3) (hh.mpr h4) h5 (hc ▸ h6)
  | inside q k h1 h2 h3 h4 h5 h6 =>
    exact .inside q k (hp.trans h1) (hu.trans h2) (hd.trans h3) (hb _ h4) h5 (hc ▸ h6)
  | answered q k a h1 h2 h3 h4 h5 =>
    exact .answered q k a (hp.trans h1) (hu.trans h2) (hd.trans h3) (hh.mpr h4) (hc ▸ h5)

theorem call (h : Phase pr log i c) (hn : c.pending = none) :
    Phase pr log i { c with pending := some (q, log.length), up := c.up.send (pr.up.write q) } := by
  cases h with
  | idle _ hu hd hh ht =>
    refine .sent q log.length rfl ?_ hd hh le_rfl ht
    rw [Stream.bytes_send, hu, List.nil_append]
  | sent _ _ hp | inside _ _ hp | answered _ _ _ hp =>
    rw [hn] at hp
    cases hp

theorem receive {l : List β} (h : Phase pr log i c) (hw : c.handler = .waits)
    (hr : pr.up.read c.up.arrived = some (p, l)) :
    Phase pr log i { c with handler := .asks p, up := ⟨l, c.up.coming⟩ } := by
  cases h with
  | idle _ hu | answered _ _ _ _ hu =>
    rw [pr.up.read_empty hu] at hr
    cases hr
  | sent q k hp hu hd _ hk ht =>
    obtain ⟨rfl, rfl, hc⟩ := pr.up.read_some hu hr
    exact .inside q k hp (by rw [Stream.bytes, hc]; rfl) hd rfl hk ht
  | inside _ _ _ _ _ hh =>
    rw [hw] at hh
    cases hh

/-- A request at the server. -/
theorem asked (h : Phase pr log i c) (hr : ¬ c.handler.Rests) : ∃ q k, c.pending = some (q, k) ∧
    c.up.bytes = [] ∧ c.down.bytes = [] ∧ c.handler.Has (pr.up.package q) ∧ k ≤ log.length ∧
      Told pr log i c.calls := by
  cases h with
  | idle _ _ _ hh | sent _ _ _ _ _ hh | answered _ _ _ _ _ _ hh => exact absurd hh hr
  | inside q k hp hu hd hh hk ht => exact ⟨q, k, hp, hu, hd, hh, hk, ht⟩

/-- The answer leaves. -/
theorem answer {a : A} {b : Handler P σ} {j : κ} (h : Phase pr log i c) (hr : ¬ c.handler.Rests)
    (hh : ∀ p', c.handler.Has p' → p' = p) (hb : b.Rests) :
    Phase pr (log ++ [⟨i, c.pending.map (·.1), p, a⟩]) i
      { c with handler := b, session := j, down := c.down.send (pr.down.write a) } := by
  obtain ⟨q, k, hp, hu, hd, hhas, hk, ht⟩ := h.asked hr
  obtain rfl := hh _ hhas
  refine .answered q k a hp hu ?_ hb ?_
  · rw [Stream.bytes_send, hd, List.nil_append]
  · rw [hp]
    exact ht.snoc hk

theorem collect {r : R} {l : List β} (h : Phase pr log i c) (hp : c.pending = some (q, k))
    (hr : pr.down.read c.down.arrived = some (r, l)) : Phase pr log i { c with
      pending := none
      down := ⟨l, c.down.coming⟩
      calls := c.calls ++ [⟨q, r, k, log.length⟩] } := by
  cases h with
  | idle _ _ hd | sent _ _ _ _ hd | inside _ _ _ _ hd =>
    rw [pr.down.read_empty hd] at hr
    cases hr
  | answered q' k' a hp' hu hd hh ht =>
    rw [hp] at hp'
    obtain ⟨rfl, rfl⟩ := Prod.mk.inj (Option.some.inj hp')
    obtain ⟨rfl, rfl, hc⟩ := pr.down.read_some hd hr
    exact .idle rfl hu (by rw [Stream.bytes, hc]; rfl) hh ht

end Phase

/-! ### A step -/

theorem sum_update [Fintype ι] {γ : Type*} (f : γ → ℕ) (g : ι → γ) (i : ι) (c : γ) :
    ∑ j, f (Function.update g i c j) + f (g i) = ∑ j, f (g j) + f c := by
  have h1 := Finset.add_sum_erase Finset.univ (fun j => f (Function.update g i c j)) (Finset.mem_univ i)
  have h2 := Finset.add_sum_erase Finset.univ (fun j => f (g j)) (Finset.mem_univ i)
  have h3 : ∑ j ∈ Finset.univ.erase i, f (Function.update g i c j) = ∑ j ∈ Finset.univ.erase i, f (g j) :=
    Finset.sum_congr rfl fun j hj => by
      rw [Function.update_of_ne (Finset.ne_of_mem_erase hj)]
  rw [Function.update_self] at h1
  omega

theorem sessions_set (n : Net ι β Q P A R κ σ) (i : ι) (c : Conn β Q P R κ σ) :
    (fun j => ((n.set i c).conns j).session) =
      Function.update (fun j => (n.conns j).session) i c.session :=
  Function.comp_update Conn.session n.conns i c

namespace Inv

/-- What a connection does without the server. -/
theorem own (h : Inv pr ok k₀ s₀ n) (hs : c.session = (n.conns i).session)
    (hh : c.handler.Holds ↔ (n.conns i).handler.Holds)
    (hw : ∀ p s, c.handler = .works p s → (n.conns i).handler = .works p s)
    (hp : Phase pr n.log i c) (ha : Allowed ok i c) : Inv pr ok k₀ s₀ (n.set i c) where
  phase := (Function.forall_update_iff n.conns _).mpr ⟨hp, fun j _ => h.phase j⟩
  holder := by
    obtain ⟨o, ho, hall⟩ := h.holder
    exact ⟨o, ho, (Function.forall_update_iff n.conns fun j c => c.handler.Holds ↔ o = some j).mpr
      ⟨hh.trans (hall i), fun j _ => hall j⟩⟩
  works := (Function.forall_update_iff n.conns fun j c => ∀ p s, c.handler = .works p s →
      s = n.state ∧ pr.greet c.session p = none).mpr
    ⟨fun p s he => hs ▸ h.works i p s (hw p s he), fun j _ => h.works j⟩
  listed := h.listed
  replays := by
    rw [sessions_set, hs, Function.update_eq_self]
    exact h.replays
  allowed := (Function.forall_update_iff n.conns _).mpr ⟨ha, fun j _ => h.allowed j⟩

/-- A request is answered. -/
theorem answer {a : A} {b : Handler P σ} {j : κ} {s' : σ} (h : Inv pr ok k₀ s₀ n)
    (hr : ¬ (n.conns i).handler.Rests) (hh : ∀ p', (n.conns i).handler.Has p' → p' = p) (hb : b.Rests)
    (hh' : b.Holds ↔ (n.conns i).handler.Holds)
    (hres : respond pr (n.conns i).session p n.state = some (a, j, s'))
    (hs : s' = n.state ∨ (n.conns i).handler.Holds) : Inv pr ok k₀ s₀ { n.set i { n.conns i with
      handler := b
      session := j
      down := (n.conns i).down.send (pr.down.write a) } with
        state := s'
        log := n.log ++ [⟨i, (n.conns i).pending.map (·.1), p, a⟩] } where
  phase := (Function.forall_update_iff n.conns _).mpr
    ⟨(h.phase i).answer hr hh hb, fun j hj => (h.phase j).other (Ne.symm hj)⟩
  holder := by
    obtain ⟨o, ho, hall⟩ := h.holder
    exact ⟨o, ho, (Function.forall_update_iff n.conns fun j c => c.handler.Holds ↔ o = some j).mpr
      ⟨hh'.trans (hall i), fun j _ => hall j⟩⟩
  works := by
    refine (Function.forall_update_iff n.conns fun j c => ∀ p s, c.handler = .works p s →
      s = s' ∧ pr.greet c.session p = none).mpr ⟨fun p s he => ?_, fun j hj p s he => ?_⟩
    · dsimp only at he
      rw [he] at hb
      cases hb
    · obtain ⟨h1, h2⟩ := h.works j p s he
      refine ⟨?_, h2⟩
      rcases hs with rfl | hold
      · exact h1
      · -- nobody else has the semaphore
        obtain ⟨o, -, hall⟩ := h.holder
        have h3 : (n.conns j).handler.Holds := by
          rw [he]
          trivial
        have h4 := ((hall i).mp hold).symm.trans ((hall j).mp h3)
        exact absurd (Option.some.inj h4).symm hj
  listed := by
    obtain ⟨q, k, hp, -, -, hhas, -, ht⟩ := (h.phase i).asked hr
    rw [hp]
    refine h.listed.snoc (hh _ hhas).symm ?_
    rw [ht.all]
    exact (h.allowed i).2 q k hp
  replays := by
    have h1 := h.replays.snoc ⟨i, (n.conns i).pending.map (·.1), p, a⟩ hres
    have h2 := sessions_set n i { n.conns i with
      handler := b
      session := j
      down := (n.conns i).down.send (pr.down.write a) }
    rw [← h2] at h1
    exact h1
  allowed := (Function.forall_update_iff n.conns _).mpr
    ⟨(h.allowed i).congr rfl rfl, fun j _ => h.allowed j⟩

/-- The semaphore is taken or left. -/
theorem semaphore {b : Handler P σ} {f : Bool} {o : Option ι} (h : Inv pr ok k₀ s₀ n)
    (hr : b.Rests ↔ (n.conns i).handler.Rests) (hb : ∀ p, (n.conns i).handler.Has p → b.Has p)
    (ho : f = true ↔ o = none) (hi : b.Holds ↔ o = some i)
    (hall : ∀ j, j ≠ i → ((n.conns j).handler.Holds ↔ o = some j))
    (hw : ∀ p s, b = .works p s → s = n.state ∧ pr.greet (n.conns i).session p = none) :
    Inv pr ok k₀ s₀ { n.set i { n.conns i with handler := b } with sem := f } where
  phase := (Function.forall_update_iff n.conns _).mpr
    ⟨(h.phase i).congr rfl rfl rfl hr hb rfl, fun j _ => h.phase j⟩
  holder := ⟨o, ho, (Function.forall_update_iff n.conns fun j c => c.handler.Holds ↔ o = some j).mpr ⟨hi, hall⟩⟩
  works := (Function.forall_update_iff n.conns fun j c => ∀ p s, c.handler = .works p s →
    s = n.state ∧ pr.greet c.session p = none).mpr ⟨hw, fun j _ => h.works j⟩
  listed := h.listed
  replays := by
    have h1 := h.replays
    have h2 := sessions_set n i { n.conns i with handler := b }
    rw [Function.update_eq_self] at h2
    rw [← h2] at h1
    exact h1
  allowed := (Function.forall_update_iff n.conns _).mpr
    ⟨(h.allowed i).congr rfl rfl, fun j _ => h.allowed j⟩

theorem initial : Inv pr ok k₀ s₀ (initial k₀ s₀ : Net ι β Q P A R κ σ) where
  phase _ := .idle rfl rfl rfl trivial told_nil
  holder := ⟨none, by simp [Rpc.initial], fun i => by simp [Rpc.initial, Handler.Holds]⟩
  works i p s h := by cases h
  listed t e h := by simp [Rpc.initial] at h
  replays := .nil
  allowed _ := ⟨fun k x h => by simp [Rpc.initial] at h, fun q k h => by cases h⟩

/-- **Each step keeps the invariant.** -/
theorem step {a : Action Q} (h : Inv pr ok k₀ s₀ n)
    (hok : ∀ q, a = .call q → ok i (n.conns i).calls.length q) (hs : step pr n i a = some n') :
    Inv pr ok k₀ s₀ n' := by
  unfold Rpc.step at hs
  cases a with
  | call q =>
    dsimp only at hs
    split_ifs at hs with hp
    cases hs
    have hnone : (n.conns i).pending = none := by simpa using hp
    refine h.own rfl Iff.rfl (fun _ _ he => he) ((h.phase i).call hnone) ⟨(h.allowed i).1, fun q' k he => ?_⟩
    obtain ⟨rfl, rfl⟩ := Prod.mk.inj (Option.some.inj he)
    exact hok _ rfl
  | deliver k =>
    dsimp only at hs
    split_ifs at hs
    cases hs
    exact h.own rfl Iff.rfl (fun _ _ he => he)
      ((h.phase i).congr rfl (Stream.bytes_deliver ..) rfl Iff.rfl (fun _ he => he) rfl)
      ((h.allowed i).congr rfl rfl)
  | deliverBack k =>
    dsimp only at hs
    split_ifs at hs
    cases hs
    exact h.own rfl Iff.rfl (fun _ _ he => he)
      ((h.phase i).congr rfl rfl (Stream.bytes_deliver ..) Iff.rfl (fun _ he => he) rfl)
      ((h.allowed i).congr rfl rfl)
  | receive =>
    dsimp only at hs
    split at hs
    · rename_i hw
      obtain ⟨⟨p, l⟩, hr, rfl⟩ := Option.map_eq_some_iff.mp hs
      refine h.own rfl ?_ (fun _ _ he => by cases he) ((h.phase i).receive hw hr) ((h.allowed i).congr rfl rfl)
      rw [hw]
      exact Iff.rfl
    · cases hs
  | greet =>
    dsimp only at hs
    split at hs
    · rename_i p hw
      obtain ⟨⟨a, j⟩, hg, rfl⟩ := Option.map_eq_some_iff.mp hs
      refine h.answer (by rw [hw]; exact id) ?_ trivial ?_ ?_ (Or.inl rfl)
      · rw [hw]
        exact fun _ he => he.symm
      · rw [hw]
        exact Iff.rfl
      · rw [respond, hg]
        rfl
    · cases hs
  | take =>
    dsimp only at hs
    split at hs
    · rename_i p hw
      split_ifs at hs with hc
      cases hs
      obtain ⟨o, ho, hall⟩ := h.holder
      obtain rfl : o = none := ho.mp hc.1
      refine h.semaphore (o := some i) ?_ (fun p' he => ?_) ?_ ?_ (fun j hj => ?_) fun p' s he => ?_
      · rw [hw]
        exact Iff.rfl
      · rw [hw] at he
        exact he
      · exact ⟨fun he => (by cases he), fun he => (by cases he)⟩
      · exact ⟨fun _ => rfl, fun _ => trivial⟩
      · exact ⟨fun he => (by cases (hall j).mp he), fun he => absurd (Option.some.inj he).symm hj⟩
      · obtain ⟨rfl, rfl⟩ := Handler.works.inj he
        exact ⟨rfl, hc.2⟩
    · cases hs
  | finish =>
    dsimp only at hs
    split at hs
    · rename_i p s hw
      obtain ⟨⟨a, s'⟩, hg, rfl⟩ := Option.map_eq_some_iff.mp hs
      obtain ⟨rfl, hno⟩ := h.works i p s hw
      have hold : (n.conns i).handler.Holds := by
        rw [hw]
        trivial
      have hres : respond pr (n.conns i).session p n.state = some (a, (n.conns i).session, s') := by
        rw [respond, hno, hg]
        rfl
      have h1 := h.answer (b := .leaves) (by rw [hw]; exact id) (by rw [hw]; exact fun _ he => he.symm)
        trivial ⟨fun _ => hold, fun _ => trivial⟩ hres (Or.inr hold)
      exact h1
    · cases hs
  | release =>
    dsimp only at hs
    split at hs
    · rename_i hw
      cases hs
      obtain ⟨o, ho, hall⟩ := h.holder
      have hoi : o = some i := (hall i).mp (by rw [hw]; trivial)
      refine h.semaphore (o := none) ?_ (fun p' he => ?_) ?_ ?_ (fun j hj => ?_) fun p' s he => (by cases he)
      · rw [hw]
        exact Iff.rfl
      · rw [hw] at he
        cases he
      · exact ⟨fun _ => rfl, fun _ => rfl⟩
      · exact ⟨fun he => (by cases he), fun he => (by cases he)⟩
      · refine ⟨fun he => ?_, fun he => (by cases he)⟩
        rw [hall j, hoi] at he
        exact absurd (Option.some.inj he).symm hj
    · cases hs
  | collect =>
    dsimp only at hs
    split at hs
    · rename_i q since hp
      obtain ⟨⟨r, l⟩, hr, rfl⟩ := Option.map_eq_some_iff.mp hs
      refine h.own rfl Iff.rfl (fun _ _ he => he) ((h.phase i).collect hp hr) ⟨fun k x hx => ?_, fun _ _ he => by cases he⟩
      rcases Nat.lt_or_ge k (n.conns i).calls.length with hk | hk
      · exact (h.allowed i).1 k x (by rwa [List.getElem?_append_left hk] at hx)
      · rw [List.getElem?_append_right hk] at hx
        obtain ⟨hk1, rfl⟩ := List.getElem?_eq_some_iff.mp hx
        have hk2 : k = (n.conns i).calls.length := by
          have : k - (n.conns i).calls.length < 1 := hk1
          omega
        subst hk2
        simpa using (h.allowed i).2 q since hp
    · cases hs

/-- Who waits for an answer waits for a step of another, or for the server, which stopped. -/
theorem answered (h : Inv pr ok k₀ s₀ n)
    (hno : ∀ i a, (∀ q, a ≠ .call q) → Rpc.step pr n i a = none) (i : ι) :
    (n.conns i).pending = none ∨ ∃ j p, (n.conns j).handler = .works p n.state ∧
      pr.serve (n.conns j).session p n.state = none := by
  have hstop : ∀ {i a}, (∀ q, a ≠ .call q) → (Rpc.step pr n i a).isSome → False := fun {i a} ha hs => by
    rw [hno i a ha] at hs
    cases hs
  -- nothing is on its way, no thread has an answer to send, and none leaves the semaphore
  have hup : ∀ i, (n.conns i).up.coming = [] := fun i => by
    by_contra hne
    exact hstop (fun q he => by cases he) (deliver_isSome hne)
  have hdown : ∀ i, (n.conns i).down.coming = [] := fun i => by
    by_contra hne
    exact hstop (fun q he => by cases he) (deliverBack_isSome hne)
  have hleaves : ∀ i, (n.conns i).handler ≠ .leaves := fun i he =>
    hstop (fun q hq => by cases hq) (release_isSome he)
  have hworks : ∀ i p s, (n.conns i).handler = .works p s → (n.conns i).handler = .works p n.state ∧
      pr.serve (n.conns i).session p n.state = none := fun i p s he => by
    obtain ⟨rfl, -⟩ := h.works i p s he
    refine ⟨he, ?_⟩
    by_contra hne
    exact hstop (fun q hq => by cases hq) (finish_isSome he hne)
  have hrests : ∀ i, (n.conns i).handler.Rests → (n.conns i).handler = .waits := fun i hr => by
    cases he : (n.conns i).handler with
    | waits => rfl
    | leaves => exact absurd he (hleaves i)
    | asks p | works p s =>
      rw [he] at hr
      cases hr
  cases h.phase i with
  | idle hp => exact Or.inl hp
  | sent q k _ hu _ hh =>
    exact (hstop (fun q hq => by cases hq) (receive_isSome (hrests i hh) (pr.up.read_arrived hu (hup i)))).elim
  | inside q k _ _ _ hh =>
    refine Or.inr ?_
    cases he : (n.conns i).handler with
    | waits | leaves =>
      rw [he] at hh
      cases hh
    | works p s => exact ⟨i, p, hworks i p s he⟩
    | asks p =>
      have hg : pr.greet (n.conns i).session p = none := by
        by_contra hne
        exact hstop (fun q hq => by cases hq) (greet_isSome he hne)
      have hsem : n.sem ≠ true := fun hs => hstop (fun q hq => by cases hq) (take_isSome he hs hg)
      -- another thread has the semaphore
      obtain ⟨o, ho, hall⟩ := h.holder
      obtain ⟨j, rfl⟩ := Option.ne_none_iff_exists'.mp fun hn => hsem (ho.mpr hn)
      have hold := (hall j).mpr rfl
      cases hej : (n.conns j).handler with
      | waits | asks p =>
        rw [hej] at hold
        cases hold
      | leaves => exact absurd hej (hleaves j)
      | works p' s => exact ⟨j, p', hworks j p' s hej⟩
  | answered q k a hp _ hd =>
    exact (hstop (fun q hq => by cases hq) (collect_isSome hp (pr.down.read_arrived hd (hdown i)))).elim

/-- **The log is an order of the calls.** -/
theorem linear (h : Inv pr ok k₀ s₀ n) : Linear pr ok k₀ s₀ n where
  listed := h.listed
  replays := h.replays
  told i := by
    cases h.phase i with
    | idle _ _ _ _ ht | sent _ _ _ _ _ _ _ ht | inside _ _ _ _ _ _ _ ht => exact ⟨_, ht, Or.inl rfl⟩
    | answered q k a hp _ _ _ ht => exact ⟨_, ht, Or.inr ⟨q, k, a, hp, rfl⟩⟩

/-- A step that is no call takes a call nearer to its end, or bytes nearer to theirs. -/
theorem nearer {a : Action Q} (h : Inv pr ok k₀ s₀ n) (ha : ∀ q, a ≠ .call q)
    (hs : Rpc.step pr n i a = some n') : ∃ c, n'.conns = Function.update n.conns i c ∧
      (c.rank < (n.conns i).rank ∨ c.rank = (n.conns i).rank ∧ c.moving < (n.conns i).moving) := by
  unfold Rpc.step at hs
  cases a with
  | call q => exact absurd rfl (ha q)
  | deliver k =>
    dsimp only at hs
    split_ifs at hs with hk
    cases hs
    refine ⟨_, rfl, Or.inr ⟨?_, ?_⟩⟩
    · simp only [Conn.rank, Stream.bytes_deliver]
    · simp only [Conn.moving, Stream.deliver, List.length_drop]
      omega
  | deliverBack k =>
    dsimp only at hs
    split_ifs at hs with hk
    cases hs
    refine ⟨_, rfl, Or.inr ⟨rfl, ?_⟩⟩
    simp only [Conn.moving, Stream.deliver, List.length_drop]
    omega
  | receive =>
    dsimp only at hs
    split at hs
    · rename_i hw
      obtain ⟨⟨p, l⟩, hr, rfl⟩ := Option.map_eq_some_iff.mp hs
      refine ⟨_, rfl, Or.inl ?_⟩
      -- a whole message was read
      have h1 : (n.conns i).up.bytes.length ≠ 0 := fun he => by
        rw [pr.up.read_empty (List.length_eq_zero_iff.mp he)] at hr
        cases hr
      have h2 : (⟨l, (n.conns i).up.coming⟩ : Stream β).bytes.length = 0 := by
        rw [List.length_eq_zero_iff]
        cases (h.phase i).receive hw hr with
        | inside _ _ _ hu => exact hu
        | idle _ _ _ hh | sent _ _ _ _ _ hh | answered _ _ _ _ _ _ hh => cases hh
      simp only [Conn.rank, h1, h2, hw, if_true, if_false, Handler.rank]
      omega
    · cases hs
  | greet =>
    dsimp only at hs
    split at hs
    · rename_i p hw
      obtain ⟨⟨a, j⟩, hg, rfl⟩ := Option.map_eq_some_iff.mp hs
      refine ⟨_, rfl, Or.inl ?_⟩
      simp only [Conn.rank, hw, Handler.rank]
      omega
    · cases hs
  | take =>
    dsimp only at hs
    split at hs
    · rename_i p hw
      split_ifs at hs
      cases hs
      refine ⟨_, rfl, Or.inl ?_⟩
      simp only [Conn.rank, hw, Handler.rank]
      omega
    · cases hs
  | finish =>
    dsimp only at hs
    split at hs
    · rename_i p s hw
      obtain ⟨⟨a, s'⟩, hg, rfl⟩ := Option.map_eq_some_iff.mp hs
      refine ⟨_, rfl, Or.inl ?_⟩
      simp only [Conn.rank, hw, Handler.rank]
      omega
    · cases hs
  | release =>
    dsimp only at hs
    split at hs
    · rename_i hw
      cases hs
      refine ⟨_, rfl, Or.inl ?_⟩
      simp only [Conn.rank, hw, Handler.rank]
      omega
    · cases hs
  | collect =>
    dsimp only at hs
    split at hs
    · rename_i q since hp
      obtain ⟨⟨r, l⟩, hr, rfl⟩ := Option.map_eq_some_iff.mp hs
      refine ⟨_, rfl, Or.inl ?_⟩
      simp [Conn.rank, hp]
    · cases hs

/-- **Without new calls it comes to an end.** -/
theorem ends [Fintype ι] (h : Inv pr ok k₀ s₀ n) : Acc (Later pr) n := by
  suffices H : ∀ m : ℕ ×ₗ ℕ, ∀ n : Net ι β Q P A R κ σ,
      toLex (∑ i, (n.conns i).rank, ∑ i, (n.conns i).moving) = m → Inv pr ok k₀ s₀ n → Acc (Later pr) n from
    H _ n rfl h
  intro m
  induction m using WellFoundedLT.induction with
  | ind m ih =>
    rintro n rfl h
    refine Acc.intro n fun n' hn' => ?_
    obtain ⟨i, a, ha, hs⟩ := hn'
    have h' : Inv pr ok k₀ s₀ n' := h.step (fun q hq => absurd hq (ha q)) hs
    refine ih _ ?_ n' rfl h'
    obtain ⟨c, hc, hlt⟩ := h.nearer ha hs
    have h1 := sum_update Conn.rank n.conns i c
    have h2 := sum_update Conn.moving n.conns i c
    rw [hc, Prod.Lex.toLex_lt_toLex]
    dsimp only
    omega

end Inv

namespace Reach

theorem inv (h : Reach pr ok (initial k₀ s₀) n) : Inv pr ok k₀ s₀ n := by
  induction h with
  | start => exact Inv.initial
  | step i a _ hok hs ih => exact ih.step hok hs

theorem linear (h : Reach pr ok (initial k₀ s₀) n) : Linear pr ok k₀ s₀ n := h.inv.linear

theorem ends [Fintype ι] (h : Reach pr ok (initial k₀ s₀) n) : Acc (Later pr) n := h.inv.ends

theorem answered (h : Reach pr ok (initial k₀ s₀) n)
    (hno : ∀ i a, (∀ q, a ≠ .call q) → Rpc.step pr n i a = none) (i : ι) :
    (n.conns i).pending = none ∨ ∃ j p, (n.conns j).handler = .works p n.state ∧
      pr.serve (n.conns j).session p n.state = none :=
  h.inv.answered hno i

end Reach

end Steps

end Rpc
end Kiss
