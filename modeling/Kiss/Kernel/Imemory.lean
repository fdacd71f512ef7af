/-
# The kernel's requests to memory

`get_entry_page_table`, `swapp_process` and `free_allocated_memory` of
`kernel/src/imemory.c`: each takes `mutex_access`, sends its request and reads one
message back, against `handle_kernel` of `memoriaswap/src/memoriaswap.c`, which
answers the requests one after the other. Neither a request nor an answer says
whose it is, so each octet here carries the call it is from, which the code never
looks at. While the mutex is free nothing is in the streams, unless the kernel has
halted (`Quiet`), and then the answer that a call reads is its own
(`matched_lossless`). A reception that fails and leaves the connection open leaves
its answer in the stream, and the next call reads it (`not_matched`).

Key definitions: `Request`, `Octet`, `MemoryModule`, `act`, `Quiet`, `Held`, `Lossless`, `Matched`.
Key theorems: `act_handleKernel`, `inv_step`, `matched_lossless`.
-/
import Kiss.Threads
import Kiss.Kernel.Planner
import Kiss.Serializacion.Mensajes

namespace Kiss
namespace Imemory

open Bytes Serializacion Threads

/-! ### Requests and answers -/

/-- `MC_SIGNAL`, `MC_NUEVO_PROCESO`, `MC_SUSPENDER_PROCESO`, `MC_FINALIZAR_PROCESO`. -/
def mcSignal : ℕ := 901
def mcNuevoProceso : ℕ := 910
def mcSuspenderProceso : ℕ := 911
def mcFinalizarProceso : ℕ := 912

/-- `SG_CODE_NOT_EXPECTED`, `SG_OPERATION_SUCCESS`, `SG_OPERATION_FAILURE`. -/
def sgCodeNotExpected : ℕ := 100
def sgOperationSuccess : ℕ := 102
def sgOperationFailure : ℕ := 103

/-- The calls of `imemory.c`, with what each takes from its PCB. -/
inductive Request
  | getEntryPageTable (pcbId processSize : ℕ)
  | swappProcess (tablaPaginas : ℕ)
  | freeAllocatedMemory (tablaPaginas : ℕ)
  deriving DecidableEq, Repr

/-- The header sent, which is the one expected back. -/
def Request.header : Request → ℕ
  | getEntryPageTable .. => mcNuevoProceso
  | swappProcess _ => mcSuspenderProceso
  | freeAllocatedMemory _ => mcFinalizarProceso

/-- `serializar_page_entry_request`, or the number `send_signal` sends. -/
def Request.payload : Request → List UInt8
  | getEntryPageTable pcbId processSize => ofNat 4 pcbId ++ ofNat 4 processSize
  | swappProcess tablaPaginas | freeAllocatedMemory tablaPaginas => ofNat 4 tablaPaginas

/-- What the call returns where its answer has the header it expects. -/
def Request.result (payload : List UInt8) : Request → ℤ
  | getEntryPageTable .. => toInt (value (payload.take 4))
  | swappProcess _ | freeAllocatedMemory _ =>
    if value (payload.take 4) = sgOperationSuccess then 0 else 1

def Request.mensaje (r : Request) : Mensaje where
  header := r.header
  payload := r.payload
  header_lt := by cases r <;> simp [header, mcNuevoProceso, mcSuspenderProceso, mcFinalizarProceso]
  payload_lt := by cases r <;> simp [payload]

/-- `send_signal`. -/
def signal (header v : ℕ) (h : header < 2 ^ 32) : Mensaje := ⟨header, ofNat 4 v, h, by simp⟩

/-- What `handle_kernel` sends back, where the operation gave `v`: the number of the
tables, or whether it could be done. -/
def answer (header v : ℕ) : Mensaje :=
  if header = mcNuevoProceso then signal mcNuevoProceso v (by decide)
  else if header = mcSuspenderProceso then
    signal mcSuspenderProceso (if v ≠ 0 then sgOperationSuccess else sgOperationFailure) (by decide)
  else if header = mcFinalizarProceso then
    signal mcFinalizarProceso (if v ≠ 0 then sgOperationSuccess else sgOperationFailure) (by decide)
  else signal mcSignal sgCodeNotExpected (by decide)

/-! ### The streams -/

/-- An octet of a stream: of the request of `call`, or of the answer to it. -/
structure Octet where
  call : Option ℕ
  byte : UInt8
  deriving DecidableEq, Repr

def octets (call : Option ℕ) (l : List UInt8) : List Octet := l.map fun b => ⟨call, b⟩

def content (l : List Octet) : List UInt8 := l.map Octet.byte

/-- The call all the octets of a message are from, if they are from one. -/
def callOf : List Octet → Option ℕ
  | [] => none
  | b :: l => if l.all (fun b' => b'.call = b.call) then b.call else none

/-- An answer that a call took for its own, and what it returned. -/
structure Interpretation where
  call : ℕ
  request : Request
  octets : List Octet
  result : ℤ
  deriving DecidableEq, Repr

/-- `t_memory_module` and the socket, with the calls made so far and what they took
their answers from. -/
structure MemoryModule where
  mutexAccess : Bool := false
  halt : Bool := false
  requests : List Octet := []
  replies : List Octet := []
  calls : ℕ := 0
  interpreted : List Interpretation := []

/-! ### The steps -/

inductive Action
  /-- The threads of the kernel call, and the kernel may halt. -/
  | requesters
  | handleKernel
  | mutexLock
  | mutexUnlock
  | ifHalt (n : ℕ) (r : Request)
  | sendMessage (n : ℕ) (r : Request)
  | recvHeader (n : ℕ) (r : Request)
  | recvSize (n : ℕ) (r : Request) (header : List Octet)
  | recvPayload (n : ℕ) (r : Request) (header size : List Octet)
  | interpret (n : ℕ) (r : Request) (header size payload : List Octet)
  | kernelError
  deriving DecidableEq

/-- What the environment answers: `send` and `recv` do all they were asked for, a part
of it, nothing (`fail`), or find the connection closed. -/
inductive Outcome
  | call (r : Request)
  | halt
  | answer (v : ℕ)
  | ok
  | short (k : ℕ)
  | fail
  | lost
  deriving DecidableEq, Repr

open Kiss.Imemory.Action

/-- The three calls: `get_entry_page_table`, `swapp_process`, `free_allocated_memory`. -/
def memoryCall (n : ℕ) (r : Request) : List Action := [mutexLock, ifHalt n r]

/-- The state and the actions that come next. -/
def andThen (s : MemoryModule) (l : List Action) : Option (Effect MemoryModule Action) :=
  some { state := s, next := l }

/-- `recv` with `MSG_WAITALL`: the error, what it read and what it left; `none` while it
waits. -/
def recv (l : List Octet) (n : ℕ) : Outcome → Option (Kernel.SocketError × List Octet × List Octet)
  | .ok => if l.length < n then none else some (.none, l.take n, l.drop n)
  | .short k => if 0 < k ∧ k < n ∧ k ≤ l.length then some (.none, l.take k, l.drop k) else none
  | .fail => some (.other, [], l)
  | .lost => some (.lost, [], l)
  | _ => none

/-- A `recv` of `recieve_message`, and what its caller does with its error. -/
def recieve (s : MemoryModule) (n : ℕ) (o : Outcome) (next : List Octet → List Action) :
    Option (Effect MemoryModule Action) :=
  match recv s.replies n o with
  | none => none
  | some (.none, b, replies) => andThen { s with replies } (next b)
  | some (.lost, _, _) => andThen s [kernelError, mutexUnlock]
  | some (.other, _, _) => andThen s [mutexUnlock]

/-- `send_message`: the octets that leave, and what its caller does with its error. -/
def send (s : MemoryModule) (l : List Octet) (o : Outcome) (next : List Action) :
    Option (Effect MemoryModule Action) :=
  match o with
  | .ok => andThen { s with requests := s.requests ++ l } next
  | .short k =>
    if k < l.length then andThen { s with requests := s.requests ++ l.take k } [mutexUnlock]
    else none
  | .fail => andThen s [mutexUnlock]
  | .lost => andThen s [kernelError, mutexUnlock]
  | _ => none

/-- One turn of `handle_kernel`, once a message has arrived whole. -/
def serve (s : MemoryModule) (v : ℕ) : Option MemoryModule :=
  let n := 8 + value (content ((s.requests.drop 4).take 4))
  if s.requests.length < 8 ∨ s.requests.length < n then none
  else some { s with
    requests := s.requests.drop n
    replies := s.replies ++ octets (callOf (s.requests.take n))
      (answer (value (content (s.requests.take 4))) v).bytes }

def act (a : Action) (o : Outcome) (s : MemoryModule) : Option (Effect MemoryModule Action) :=
  match a with
  | requesters =>
    match o with
    | .call r => some
        { state := { s with calls := s.calls + 1 }, next := [requesters],
          spawn := [memoryCall s.calls r] }
    | .halt => andThen { s with halt := true } [requesters]
    | _ => none
  | handleKernel =>
    match o with
    | .answer v => (serve s v).bind fun s => andThen s [handleKernel]
    | _ => none
  | mutexLock => if s.mutexAccess then none else andThen { s with mutexAccess := true } []
  | mutexUnlock => andThen { s with mutexAccess := false } []
  | ifHalt n r => andThen s (if s.halt then [mutexUnlock] else [sendMessage n r])
  | sendMessage n r => send s (octets (some n) r.mensaje.bytes) o [recvHeader n r]
  | recvHeader n r => recieve s 4 o fun header => [recvSize n r header]
  | recvSize n r header => recieve s 4 o fun size =>
      if 0 < value (content size) then [recvPayload n r header size]
      else [interpret n r header size []]
  | recvPayload n r header size => recieve s (value (content size)) o fun payload =>
      -- `SKT_DATA_TRANF_INCOMPLETE`
      if value (content size) ≠ payload.length then [mutexUnlock]
      else [interpret n r header size payload]
  | interpret n r header size payload =>
    if value (content header) ≠ r.header then andThen s [mutexUnlock]
    else andThen { s with
      interpreted := s.interpreted ++
        [⟨n, r, header ++ size ++ payload, r.result (content payload)⟩] } [mutexUnlock]
  | kernelError => andThen { s with halt := true } []

/-- The kernel and the memory, with no call made. -/
def init : Config MemoryModule Action := ⟨{}, [[requesters], [handleKernel]]⟩

/-! ### What is promised -/

/-- The call took its result from the answer to its own request. -/
def Interpretation.Own (i : Interpretation) : Prop :=
  ∃ v, i.octets = Imemory.octets (some i.call) (answer i.request.header v).bytes

/-- Every answer that a call interpreted is its own. -/
def Matched (s : MemoryModule) : Prop := ∀ i ∈ s.interpreted, i.Own

/-- The action does not end with a part of a message in a stream, nor with an answer
nobody reads, while the connection is open. -/
def Whole (a : Action) (o : Outcome) : Prop :=
  match a with
  | sendMessage .. => ∀ k, o ≠ .short k
  | recvHeader .. | recvSize .. | recvPayload .. => o ≠ .fail ∧ ∀ k, o ≠ .short k
  | _ => True

def Lossless (c : Config MemoryModule Action) (x : ℕ × Outcome) : Prop :=
  ∀ a k, c.threads[x.1]? = some (a :: k) → Whole a x.2

/-! ### Messages in a stream -/

@[simp] theorem content_octets (c : Option ℕ) (l : List UInt8) : content (octets c l) = l := by
  rw [content, octets, List.map_map]
  exact List.map_id l

@[simp] theorem length_octets (c : Option ℕ) (l : List UInt8) : (octets c l).length = l.length :=
  List.length_map _

theorem octets_append (c : Option ℕ) (l l' : List UInt8) :
    octets c (l ++ l') = octets c l ++ octets c l' := List.map_append

theorem callOf_octets {c : Option ℕ} : ∀ {l : List UInt8}, l ≠ [] → callOf (octets c l) = c
  | [], h => absurd rfl h
  | b :: l, _ => by
    rw [octets, List.map_cons, callOf, if_pos]
    simp

/-- The octets of a message: its header, its length and its payload. -/
theorem octets_mensaje (c : Option ℕ) (m : Mensaje) : octets c m.bytes =
    octets c (ofNat 4 m.header) ++ (octets c (ofNat 4 m.payload.length) ++ octets c m.payload) := by
  rw [m.bytes_eq, octets_append, octets_append]

theorem value_header (m : Mensaje) : value (ofNat 4 m.header) = m.header := by
  rw [value_ofNat]
  exact Nat.mod_eq_of_lt m.header_lt

theorem value_length (m : Mensaje) : value (ofNat 4 m.payload.length) = m.payload.length := by
  rw [value_ofNat]
  exact Nat.mod_eq_of_lt (lt_trans m.payload_lt (by decide))

/-- Memory answers the one request it has with the one answer. -/
theorem serve_request {s s' : MemoryModule} {c : Option ℕ} {m : Mensaje} {v : ℕ}
    (hr : s.requests = octets c m.bytes) (h : serve s v = some s') :
    s' = { s with requests := [], replies := s.replies ++ octets c (answer m.header v).bytes } := by
  have h4 : (octets c (ofNat 4 m.header)).length = 4 := by simp
  have h8 : (octets c (ofNat 4 m.payload.length)).length = 4 := by simp
  have hh : content (s.requests.take 4) = ofNat 4 m.header := by
    rw [hr, octets_mensaje, List.take_left' h4, content_octets]
  have hs : content ((s.requests.drop 4).take 4) = ofNat 4 m.payload.length := by
    rw [hr, octets_mensaje, List.drop_left' h4, List.take_left' h8, content_octets]
  have hl : s.requests.length = 8 + m.payload.length := by
    rw [hr, length_octets, m.length_bytes]
  have hc : callOf s.requests = c := by
    rw [hr]
    refine callOf_octets fun hb => ?_
    have := m.length_bytes
    rw [hb, List.length_nil] at this
    omega
  simp only [serve, hh, hs, value_header, value_length, ← hl, lt_irrefl, or_false] at h
  rw [if_neg (by omega), List.drop_length, List.take_length, hc] at h
  exact (Option.some.inj h).symm

/-- Where nothing was sent, memory waits. -/
theorem serve_nil {s : MemoryModule} {v : ℕ} (hr : s.requests = []) : serve s v = none := by
  simp [serve, hr]

/-- Memory touches nothing but the streams. -/
theorem serve_frame {s s' : MemoryModule} {v : ℕ} (h : serve s v = some s') :
    s'.mutexAccess = s.mutexAccess ∧ s'.halt = s.halt ∧ s'.interpreted = s.interpreted := by
  simp only [serve] at h
  split at h
  · cases h
  · rw [← Option.some.inj h]
    exact ⟨rfl, rfl, rfl⟩

/-- A `recv` that reads all it was asked for. -/
theorem recieve_ok {s : MemoryModule} {o : Outcome} {b l : List Octet} {next : List Octet → List Action}
    {e : Effect MemoryModule Action} (hl : s.replies = b ++ l) (ho : o ≠ .fail ∧ ∀ k, o ≠ .short k)
    (h : recieve s b.length o next = some e) :
    e = { state := s, next := [kernelError, mutexUnlock] } ∨
      e = { state := { s with replies := l }, next := next b } := by
  cases o with
  | ok =>
    have h1 : recv s.replies b.length .ok = some (.none, b, l) := by
      rw [recv, hl, if_neg (by simp), List.take_left, List.drop_left]
    rw [recieve, h1] at h
    exact Or.inr (Option.some.inj h).symm
  | lost => exact Or.inl (Option.some.inj h).symm
  | fail => exact absurd rfl ho.1
  | short k => exact absurd rfl (ho.2 k)
  | call r => cases h
  | halt => cases h
  | answer v => cases h

/-- A `recv` that finds nothing waits. -/
theorem recieve_nil {s : MemoryModule} {o : Outcome} {n : ℕ} {next : List Octet → List Action}
    {e : Effect MemoryModule Action} (hl : s.replies = []) (hn : 0 < n)
    (ho : o ≠ .fail ∧ ∀ k, o ≠ .short k) (h : recieve s n o next = some e) :
    e = { state := s, next := [kernelError, mutexUnlock] } := by
  cases o with
  | ok =>
    have h1 : recv s.replies n .ok = none := by
      rw [recv, hl, if_pos (by simpa using hn)]
    rw [recieve, h1] at h
    cases h
  | lost => exact (Option.some.inj h).symm
  | fail => exact absurd rfl ho.1
  | short k => exact absurd rfl (ho.2 k)
  | call r => cases h
  | halt => cases h
  | answer v => cases h

/-! ### One call at a time -/

/-- What is left of a thread at each of its points. -/
inductive Point : List Action → Prop
  | requesters : Point [requesters]
  | handleKernel : Point [handleKernel]
  | waits (n r) : Point [mutexLock, ifHalt n r]
  | tests (n r) : Point [ifHalt n r]
  | sends (n r) : Point [sendMessage n r]
  | header (n r) : Point [recvHeader n r]
  | size (n r h) : Point [recvSize n r h]
  | payload (n r h t) : Point [recvPayload n r h t]
  | interprets (n r h t p) : Point [interpret n r h t p]
  | fails : Point [kernelError, mutexUnlock]
  | unlocks : Point [mutexUnlock]
  | ended : Point []

/-- The mutex: 1 while a thread has it. -/
def mutexWeight : Action → ℤ
  | mutexLock => -1
  | requesters | handleKernel | kernelError => 0
  | _ => 1

/-- Nothing is in the streams, or nobody is going to read it. -/
def Quiet (s : MemoryModule) : Prop := s.halt = true ∨ (s.requests = [] ∧ s.replies = [])

/-- What the thread that has the mutex finds: its request or its answer, and nothing
else, up to where it is. -/
def Held (s : MemoryModule) : List Action → Prop
  | [ifHalt _ _] | [mutexUnlock] => Quiet s
  | [sendMessage _ _] => s.requests = [] ∧ s.replies = []
  | [recvHeader n r] =>
    (s.requests = octets (some n) r.mensaje.bytes ∧ s.replies = []) ∨
      (s.requests = [] ∧ ∃ v, s.replies = octets (some n) (answer r.header v).bytes)
  | [recvSize n r h] => s.requests = [] ∧ ∃ v,
      h = octets (some n) (ofNat 4 (answer r.header v).header) ∧
      s.replies = octets (some n) (ofNat 4 (answer r.header v).payload.length) ++
        octets (some n) (answer r.header v).payload
  | [recvPayload n r h t] => s.requests = [] ∧ ∃ v,
      h = octets (some n) (ofNat 4 (answer r.header v).header) ∧
      t = octets (some n) (ofNat 4 (answer r.header v).payload.length) ∧
      s.replies = octets (some n) (answer r.header v).payload
  | [interpret n r h t p] => (s.requests = [] ∧ s.replies = []) ∧ ∃ v,
      h ++ t ++ p = octets (some n) (answer r.header v).bytes
  | _ => True

section Steps

variable {s : MemoryModule} {a : Action} {k : List Action} {o : Outcome} {e : Effect MemoryModule Action}

/-- What a `recv` leads to. -/
theorem recieve_some {n : ℕ} {next : List Octet → List Action} (h : recieve s n o next = some e) :
    (∃ b replies, e = { state := { s with replies }, next := next b }) ∨
      e = { state := s, next := [kernelError, mutexUnlock] } ∨
      e = { state := s, next := [mutexUnlock] } := by
  unfold recieve at h
  split at h
  · cases h
  · exact Or.inl ⟨_, _, (Option.some.inj h).symm⟩
  · exact Or.inr (Or.inl (Option.some.inj h).symm)
  · exact Or.inr (Or.inr (Option.some.inj h).symm)

/-- What a `send` leads to. -/
theorem send_some {l : List Octet} {next : List Action} (h : send s l o next = some e) :
    (o = .ok ∧ e = { state := { s with requests := s.requests ++ l }, next := next }) ∨
      (∃ k requests, o = .short k ∧
        e = { state := { s with requests }, next := [mutexUnlock] }) ∨
      e = { state := s, next := [kernelError, mutexUnlock] } ∨
      e = { state := s, next := [mutexUnlock] } := by
  unfold send at h
  split at h
  · exact Or.inl ⟨rfl, (Option.some.inj h).symm⟩
  · split at h
    · exact Or.inr (Or.inl ⟨_, _, rfl, (Option.some.inj h).symm⟩)
    · cases h
  · exact Or.inr (Or.inr (Or.inr (Option.some.inj h).symm))
  · exact Or.inr (Or.inr (Or.inl (Option.some.inj h).symm))
  · cases h

/-- A thread goes from point to point, and takes the mutex or gives it back. -/
theorem act_point (hp : Point (a :: k)) (h : act a o s = some e) :
    e.stop = false ∧ Point (e.next ++ k) ∧ (∀ t ∈ e.spawn, Point t ∧ load mutexWeight t = 0) ∧
      ((1 ≤ load mutexWeight (a :: k) → s.mutexAccess = true) →
        (if e.state.mutexAccess then 0 else 1) + load mutexWeight (e.next ++ k) =
          (if s.mutexAccess then 0 else 1) + load mutexWeight (a :: k)) := by
  cases hp with
  | requesters =>
    cases o with
    | call r =>
      obtain rfl := Option.some.inj h
      refine ⟨rfl, .requesters, fun t ht => ?_, fun _ => rfl⟩
      obtain rfl := List.mem_singleton.mp ht
      exact ⟨.waits _ _, rfl⟩
    | halt =>
      obtain rfl := Option.some.inj h
      exact ⟨rfl, .requesters, by simp, fun _ => rfl⟩
    | answer v => cases h
    | ok => cases h
    | short n => cases h
    | fail => cases h
    | lost => cases h
  | handleKernel =>
    cases o with
    | answer v =>
      obtain ⟨s', hs, h⟩ := Option.bind_eq_some_iff.mp h
      obtain rfl := Option.some.inj h
      refine ⟨rfl, .handleKernel, by simp, fun _ => ?_⟩
      simp [mutexWeight, (serve_frame hs).1]
    | call r => cases h
    | halt => cases h
    | ok => cases h
    | short n => cases h
    | fail => cases h
    | lost => cases h
  | waits n r =>
    simp only [act] at h
    split at h
    · cases h
    · obtain rfl := Option.some.inj h
      refine ⟨rfl, .tests n r, by simp, fun _ => ?_⟩
      simp_all [mutexWeight]
  | tests n r =>
    obtain rfl := Option.some.inj h
    refine ⟨rfl, ?_, by simp, fun _ => ?_⟩
    · split
      · exact .unlocks
      · exact .sends n r
    · split <;> rfl
  | sends n r =>
    rcases send_some h with ⟨-, rfl⟩ | ⟨_, _, -, rfl⟩ | rfl | rfl
    · exact ⟨rfl, .header n r, by simp, fun _ => rfl⟩
    · exact ⟨rfl, .unlocks, by simp, fun _ => rfl⟩
    · exact ⟨rfl, .fails, by simp, fun _ => rfl⟩
    · exact ⟨rfl, .unlocks, by simp, fun _ => rfl⟩
  | header n r =>
    rcases recieve_some h with ⟨_, _, rfl⟩ | rfl | rfl
    · exact ⟨rfl, .size n r _, by simp, fun _ => rfl⟩
    · exact ⟨rfl, .fails, by simp, fun _ => rfl⟩
    · exact ⟨rfl, .unlocks, by simp, fun _ => rfl⟩
  | size n r hd =>
    rcases recieve_some h with ⟨b, _, he⟩ | rfl | rfl
    · split at he <;> subst he
      · exact ⟨rfl, .payload n r hd b, by simp, fun _ => rfl⟩
      · exact ⟨rfl, .interprets n r hd b [], by simp, fun _ => rfl⟩
    · exact ⟨rfl, .fails, by simp, fun _ => rfl⟩
    · exact ⟨rfl, .unlocks, by simp, fun _ => rfl⟩
  | payload n r hd t =>
    rcases recieve_some h with ⟨b, _, he⟩ | rfl | rfl
    · split at he <;> subst he
      · exact ⟨rfl, .unlocks, by simp, fun _ => rfl⟩
      · exact ⟨rfl, .interprets n r hd t b, by simp, fun _ => rfl⟩
    · exact ⟨rfl, .fails, by simp, fun _ => rfl⟩
    · exact ⟨rfl, .unlocks, by simp, fun _ => rfl⟩
  | interprets n r hd t b =>
    simp only [act] at h
    split at h <;> obtain rfl := Option.some.inj h
    · exact ⟨rfl, .unlocks, by simp, fun _ => rfl⟩
    · exact ⟨rfl, .unlocks, by simp, fun _ => rfl⟩
  | fails =>
    obtain rfl := Option.some.inj h
    exact ⟨rfl, .unlocks, by simp, fun _ => rfl⟩
  | unlocks =>
    obtain rfl := Option.some.inj h
    refine ⟨rfl, .ended, by simp, fun hm => ?_⟩
    rw [hm (by simp [mutexWeight])]
    rfl

/-- What the thread that has the mutex does leaves what it is to find next, and a call
that interprets an answer interprets its own. -/
theorem act_held (hp : Point (a :: k)) (h : act a o s = some e) (ho : Whole a o)
    (hw : 1 ≤ load mutexWeight (a :: k)) (hs : Held s (a :: k)) (hM : Matched s) :
    Held e.state (e.next ++ k) ∧ (load mutexWeight (e.next ++ k) ≤ 0 → Quiet e.state) ∧ Matched e.state := by
  cases hp with
  | requesters => simp [mutexWeight] at hw
  | handleKernel => simp [mutexWeight] at hw
  | waits n r => simp [mutexWeight] at hw
  | tests n r =>
    obtain rfl := Option.some.inj h
    by_cases hh : s.halt = true
    · rw [if_pos hh]
      exact ⟨hs, by simp [mutexWeight], hM⟩
    · rw [if_neg hh]
      exact ⟨hs.resolve_left hh, by simp [mutexWeight], hM⟩
  | sends n r =>
    obtain ⟨hq, hr⟩ := hs
    rcases send_some h with ⟨-, rfl⟩ | ⟨j, _, hj, rfl⟩ | rfl | rfl
    · refine ⟨Or.inl ⟨?_, hr⟩, by simp [mutexWeight], hM⟩
      rw [hq, List.nil_append]
    · exact absurd hj (ho j)
    · exact ⟨trivial, by simp [mutexWeight], hM⟩
    · exact ⟨Or.inr ⟨hq, hr⟩, by simp [mutexWeight], hM⟩
  | header n r =>
    rcases hs with ⟨-, hr⟩ | ⟨hq, v, hr⟩
    · obtain rfl := recieve_nil hr (by decide) ho h
      exact ⟨trivial, by simp [mutexWeight], hM⟩
    · rw [octets_mensaje] at hr
      have h4 : 4 = (octets (some n) (ofNat 4 (answer r.header v).header)).length := by simp
      simp only [act] at h
      rw [h4] at h
      rcases recieve_ok hr ho h with rfl | rfl
      · exact ⟨trivial, by simp [mutexWeight], hM⟩
      · exact ⟨⟨hq, v, rfl, rfl⟩, by simp [mutexWeight], hM⟩
  | size n r hd =>
    obtain ⟨hq, v, rfl, hr⟩ := hs
    have h4 : 4 = (octets (some n) (ofNat 4 (answer r.header v).payload.length)).length := by simp
    simp only [act] at h
    rw [h4] at h
    rcases recieve_ok hr ho h with rfl | he
    · exact ⟨trivial, by simp [mutexWeight], hM⟩
    · rw [content_octets, value_length] at he
      split at he <;> subst he
      · exact ⟨⟨hq, v, rfl, rfl, rfl⟩, by simp [mutexWeight], hM⟩
      · have h0 : (answer r.header v).payload = [] := List.eq_nil_of_length_eq_zero (by omega)
        refine ⟨⟨⟨hq, ?_⟩, v, ?_⟩, by simp [mutexWeight], hM⟩
        · rw [h0]
          rfl
        · rw [octets_mensaje, h0, List.append_assoc]
          rfl
  | payload n r hd t =>
    obtain ⟨hq, v, rfl, rfl, hr⟩ := hs
    have hl : value (content (octets (some n) (ofNat 4 (answer r.header v).payload.length))) =
        (octets (some n) (answer r.header v).payload).length := by
      rw [content_octets, value_length, length_octets]
    simp only [act] at h
    rw [hl] at h
    rcases recieve_ok (hr.trans (List.append_nil _).symm) ho h with rfl | he
    · exact ⟨trivial, by simp [mutexWeight], hM⟩
    · rw [if_neg (by simp)] at he
      subst he
      refine ⟨⟨⟨hq, rfl⟩, v, ?_⟩, by simp [mutexWeight], hM⟩
      rw [octets_mensaje, List.append_assoc]
  | interprets n r hd t b =>
    obtain ⟨hq, hv⟩ := hs
    simp only [act] at h
    split at h <;> obtain rfl := Option.some.inj h
    · exact ⟨Or.inr hq, by simp [mutexWeight], hM⟩
    · refine ⟨Or.inr hq, by simp [mutexWeight], fun i hi => ?_⟩
      rcases List.mem_append.mp hi with hi | hi
      · exact hM i hi
      · obtain rfl := List.mem_singleton.mp hi
        exact hv
  | fails =>
    obtain rfl := Option.some.inj h
    exact ⟨Or.inl rfl, by simp [mutexWeight], hM⟩
  | unlocks =>
    obtain rfl := Option.some.inj h
    exact ⟨trivial, fun _ => hs, hM⟩

/-- What a thread without the mutex does: it takes it, or nothing to the streams, or one
turn of the server. -/
theorem act_idle (hp : Point (a :: k)) (h : act a o s = some e)
    (hw : load mutexWeight (a :: k) ≤ 0) :
    (s.mutexAccess = false ∧ ∃ n r, k = [ifHalt n r] ∧
      e = { state := { s with mutexAccess := true } }) ∨
    (load mutexWeight (e.next ++ k) = 0 ∧
      ((e.state.requests = s.requests ∧ e.state.replies = s.replies ∧
        (s.halt = true → e.state.halt = true) ∧ e.state.interpreted = s.interpreted) ∨
      ∃ v, serve s v = some e.state)) := by
  cases hp with
  | requesters =>
    cases o with
    | call r =>
      obtain rfl := Option.some.inj h
      exact Or.inr ⟨rfl, Or.inl ⟨rfl, rfl, id, rfl⟩⟩
    | halt =>
      obtain rfl := Option.some.inj h
      exact Or.inr ⟨rfl, Or.inl ⟨rfl, rfl, fun _ => rfl, rfl⟩⟩
    | answer v => cases h
    | ok => cases h
    | short n => cases h
    | fail => cases h
    | lost => cases h
  | handleKernel =>
    cases o with
    | answer v =>
      obtain ⟨s', hs, h⟩ := Option.bind_eq_some_iff.mp h
      obtain rfl := Option.some.inj h
      exact Or.inr ⟨rfl, Or.inr ⟨v, hs⟩⟩
    | call r => cases h
    | halt => cases h
    | ok => cases h
    | short n => cases h
    | fail => cases h
    | lost => cases h
  | waits n r =>
    simp only [act] at h
    split at h
    · cases h
    · rename_i hm
      obtain rfl := Option.some.inj h
      exact Or.inl ⟨by simpa using hm, n, r, rfl, rfl⟩
  | tests n r => simp [mutexWeight] at hw
  | sends n r => simp [mutexWeight] at hw
  | header n r => simp [mutexWeight] at hw
  | size n r hd => simp [mutexWeight] at hw
  | payload n r hd t => simp [mutexWeight] at hw
  | interprets n r hd t b => simp [mutexWeight] at hw
  | fails => simp [mutexWeight] at hw
  | unlocks => simp [mutexWeight] at hw

/-- Where nothing was sent, the streams stay as they are. -/
theorem act_streams (hp : Point (a :: k)) (h : act a o s = some e)
    (hw : load mutexWeight (a :: k) ≤ 0) (hq : s.requests = []) :
    e.state.requests = [] ∧ e.state.replies = s.replies := by
  rcases act_idle hp h hw with ⟨-, n, r, -, rfl⟩ | ⟨-, ⟨hq', hr, -⟩ | ⟨v, hv⟩⟩
  · exact ⟨hq, rfl⟩
  · exact ⟨hq'.trans hq, hr⟩
  · rw [serve_nil hq] at hv
    cases hv

/-- Neither does it leave anything in them while nobody has the mutex. -/
theorem act_quiet (hp : Point (a :: k)) (h : act a o s = some e)
    (hw : load mutexWeight (a :: k) ≤ 0) (hs : Quiet s) : Quiet e.state := by
  rcases hs with hs | ⟨hq, hr⟩
  · rcases act_idle hp h hw with ⟨-, n, r, -, rfl⟩ | ⟨-, ⟨-, -, hh, -⟩ | ⟨v, hv⟩⟩
    · exact Or.inl hs
    · exact Or.inl (hh hs)
    · exact Or.inl ((serve_frame hv).2.1.trans hs)
  · obtain ⟨hq', hr'⟩ := act_streams hp h hw hq
    exact Or.inr ⟨hq', hr'.trans hr⟩

/-- What the one with the mutex finds stays, but for a request that becomes an answer. -/
theorem act_others (hp : Point (a :: k)) (h : act a o s = some e)
    (hw : load mutexWeight (a :: k) ≤ 0) {t : List Action} (ht : Point t) (hs : Held s t) :
    Held e.state t := by
  have hQ := act_quiet hp h hw
  have hn := act_streams hp h hw
  cases ht with
  | requesters => trivial
  | handleKernel => trivial
  | waits n r => trivial
  | tests n r => exact hQ hs
  | sends n r => exact ⟨(hn hs.1).1, (hn hs.1).2.trans hs.2⟩
  | header n r =>
    rcases hs with ⟨hq, hr⟩ | ⟨hq, v, hr⟩
    · rcases act_idle hp h hw with ⟨-, m, r', -, rfl⟩ | ⟨-, ⟨hq', hr', -⟩ | ⟨v, hv⟩⟩
      · exact Or.inl ⟨hq, hr⟩
      · exact Or.inl ⟨hq'.trans hq, hr'.trans hr⟩
      · rw [serve_request hq hv, hr]
        exact Or.inr ⟨rfl, v, rfl⟩
    · exact Or.inr ⟨(hn hq).1, v, (hn hq).2.trans hr⟩
  | size n r hd =>
    obtain ⟨hq, v, hd, hr⟩ := hs
    exact ⟨(hn hq).1, v, hd, (hn hq).2.trans hr⟩
  | payload n r hd t =>
    obtain ⟨hq, v, hd, ht, hr⟩ := hs
    exact ⟨(hn hq).1, v, hd, ht, (hn hq).2.trans hr⟩
  | interprets n r hd t b =>
    obtain ⟨⟨hq, hr⟩, hv⟩ := hs
    exact ⟨⟨(hn hq).1, (hn hq).2.trans hr⟩, hv⟩
  | fails => trivial
  | unlocks => exact hQ hs
  | ended => trivial

/-- The thread that takes the mutex finds the streams as they were. -/
theorem act_enters (hp : Point (a :: k)) (h : act a o s = some e)
    (hw : load mutexWeight (a :: k) ≤ 0) (hw' : 1 ≤ load mutexWeight (e.next ++ k))
    (hs : s.mutexAccess = false → Quiet s) : Held e.state (e.next ++ k) := by
  rcases act_idle hp h hw with ⟨hm, n, r, rfl, rfl⟩ | ⟨h0, -⟩
  · exact hs hm
  · omega

end Steps

/-! ### Every interleaving -/

/-- One thread at most has the mutex, and what it finds is what it sent. -/
structure Inv (c : Config MemoryModule Action) : Prop where
  points : ∀ k ∈ c.threads, Point k
  permit : (if c.state.mutexAccess then 0 else 1) + total mutexWeight c.threads = 1
  holder : ∀ k ∈ c.threads, 1 ≤ load mutexWeight k → Held c.state k
  quiet : c.state.mutexAccess = false → Quiet c.state
  matched : Matched c.state

theorem Point.nonneg {k : List Action} (h : Point k) : 0 ≤ load mutexWeight k := by
  cases h <;> simp [mutexWeight]

theorem inv_init : Inv init where
  points := by
    intro k hk
    rcases List.mem_cons.mp hk with rfl | hk
    · exact .requesters
    · obtain rfl := List.mem_singleton.mp hk
      exact .handleKernel
  permit := rfl
  holder := by
    intro k hk hw
    rcases List.mem_cons.mp hk with rfl | hk
    · trivial
    · obtain rfl := List.mem_singleton.mp hk
      trivial
  quiet := fun _ => Or.inr ⟨rfl, rfl⟩
  matched := fun _ hi => absurd hi List.not_mem_nil

section Run

variable {c c' : Config MemoryModule Action} {x : ℕ × Outcome}

/-- Who has the mutex, has it locked. -/
theorem Inv.locked (hI : Inv c) {k : List Action} (hk : k ∈ c.threads)
    (hw : 1 ≤ load mutexWeight k) : c.state.mutexAccess = true := by
  have h1 := le_total (fun t ht => (hI.points t ht).nonneg) hk
  have h2 := hI.permit
  by_contra h
  rw [if_neg h] at h2
  omega

theorem inv_step (hI : Inv c) (hx : Lossless c x) (h : step act c x = some c') : Inv c' := by
  have hn : ∀ k ∈ c.threads, 0 ≤ load mutexWeight k := fun k hk => (hI.points k hk).nonneg
  have hrest : ∀ a k e, Point (a :: k) → act a x.2 c.state = some e → e.rest k = e.next ++ k := by
    intro a k e hp he
    rw [Effect.rest, (act_point hp he).1]
    rfl
  have hpoints : ∀ k ∈ c'.threads, Point k := by
    refine threads_step h hI.points fun a k e hp he => ?_
    obtain ⟨-, h1, h2, -⟩ := act_point hp he
    exact ⟨hrest a k e hp he ▸ h1, fun t ht => (h2 t ht).1⟩
  obtain ⟨a, k, e, hk, he, hs, ht⟩ := total_step mutexWeight h
  have hk' := List.mem_of_getElem? hk
  have hp := hI.points _ hk'
  obtain ⟨-, -, hspawn, hbal⟩ := act_point hp he
  have hbal := hbal (hI.locked hk')
  have hsp : total mutexWeight e.spawn = 0 := by
    refine List.sum_eq_zero fun n hn => ?_
    obtain ⟨t, ht, rfl⟩ := List.mem_map.mp hn
    exact (hspawn t ht).2
  have hpermit : (if c'.state.mutexAccess then 0 else 1) + total mutexWeight c'.threads = 1 := by
    have h1 := hI.permit
    rw [load_cons] at hbal
    rw [hs, ht, hrest a k e hp he, hsp]
    omega
  have htotal : total mutexWeight c.threads ≤ 1 := by
    have h1 := hI.permit
    split at h1 <;> omega
  -- the thread that ran had the mutex, or it had not
  have hmoved : 1 ≤ load mutexWeight (a :: k) →
      Held e.state (e.next ++ k) ∧ (load mutexWeight (e.next ++ k) ≤ 0 → Quiet e.state) ∧ Matched e.state :=
    fun hw => act_held hp he (hx a k hk) hw (hI.holder _ hk' hw) hI.matched
  refine ⟨hpoints, hpermit, ?_, fun hm => ?_, ?_⟩
  · refine hold_step h hn htotal hI.holder ?_ ?_
    · intro b l f hb hf
      obtain ⟨rfl, rfl⟩ : b = a ∧ l = k := by simpa using hb.symm.trans hk
      obtain rfl : f = e := Option.some.inj (hf.symm.trans he)
      rw [hrest b l f hp hf]
      refine ⟨fun hw' => ?_, fun t ht hw' => ?_⟩
      · rcases Int.lt_or_le 0 (load mutexWeight (b :: l)) with hw | hw
        · exact (hmoved hw).1
        · exact act_enters hp hf hw hw' hI.quiet
      · have := (hspawn t ht).2
        omega
    · intro b l f hb hf hw t ht _ hF
      exact act_others (hI.points _ (List.mem_of_getElem? hb)) hf hw (hI.points t ht) hF
  · rw [hs] at hm ⊢
    rw [hm] at hbal
    have hle : (if c.state.mutexAccess then 0 else 1 : ℤ) ≤ 1 := by split <;> decide
    have hnext := (act_point hp he).2.1.nonneg
    rcases Int.lt_or_le 0 (load mutexWeight (a :: k)) with hw | hw
    · refine (hmoved hw).2.1 ?_
      have h1 := hI.locked hk' hw
      have h2 := le_total hn hk'
      rw [h1] at hbal
      simp only [if_true, Bool.false_eq_true, if_false] at hbal
      omega
    · refine act_quiet hp he hw (hI.quiet ?_)
      by_contra hm'
      rw [Bool.not_eq_false] at hm'
      simp only [hm', if_true, Bool.false_eq_true, if_false] at hbal
      omega
  · rcases Int.lt_or_le 0 (load mutexWeight (a :: k)) with hw | hw
    · exact hs ▸ (hmoved hw).2.2
    · have hi : e.state.interpreted = c.state.interpreted := by
        rcases act_idle hp he hw with ⟨-, n, r, -, rfl⟩ | ⟨-, ⟨-, -, -, hi⟩ | ⟨v, hv⟩⟩
        · rfl
        · exact hi
        · exact (serve_frame hv).2.2
      rw [hs, Matched, hi]
      exact hI.matched

/-- **Each request gets its own answer.** In every run in which no operation on the
socket ends with a part of a message, or an answer nobody read, in a stream that stays
open, every answer a call interprets is the answer to its own request. -/
theorem matched_lossless (h : Reach act Lossless init c) : Matched c.state :=
  (Reach.inv (I := Inv) inv_init (fun _ _ _ _ hI hx h => inv_step hI hx h) h).matched

end Run

/-- The steps that end with no part of a message and no answer unread. -/
def sinPerdidas (_ : Config MemoryModule Action) (x : ℕ × Outcome) : Bool :=
  match x.2 with
  | .short _ | .fail => false
  | _ => true

theorem lossless_of_sinPerdidas (c : Config MemoryModule Action) (x : ℕ × Outcome)
    (h : sinPerdidas c x = true) : Lossless c x := by
  have hf : x.2 ≠ .fail := by
    intro hx
    rw [sinPerdidas, hx] at h
    cases h
  have hs : ∀ n, x.2 ≠ .short n := by
    intro n hx
    rw [sinPerdidas, hx] at h
    cases h
  intro a k _
  cases a with
  | sendMessage n r => exact hs
  | recvHeader n r => exact ⟨hf, hs⟩
  | recvSize n r hd => exact ⟨hf, hs⟩
  | recvPayload n r hd t => exact ⟨hf, hs⟩
  | _ => trivial

/-- A suspension asks while a process is being created. -/
def ordenado : List (ℕ × Outcome) :=
  [(0, .call (.getEntryPageTable 1 64)), (0, .call (.swappProcess 5)), (2, .ok), (2, .ok), (2, .ok),
    (1, .answer 7), (2, .ok), (2, .ok), (2, .ok), (2, .ok), (2, .ok), (3, .ok), (3, .ok), (3, .ok),
    (1, .answer 1), (3, .ok), (3, .ok), (3, .ok), (3, .ok)]

theorem matched_ordenado : ∃ c : Config MemoryModule Action,
    c.state.interpreted.map Interpretation.result = [7, 0] ∧ Matched c.state := by
  have h : (run act sinPerdidas init ordenado).map
      (fun c => c.state.interpreted.map Interpretation.result) = some [7, 0] := by decide +kernel
  obtain ⟨c, hc, hr⟩ := Option.map_eq_some_iff.mp h
  exact ⟨c, hr, matched_lossless (reach_of_run lossless_of_sinPerdidas .start hc)⟩

/-! ### An answer left in the stream -/

/-- The octets an own answer is read from are all the call's. -/
theorem Interpretation.Own.call {i : Interpretation} (h : i.Own) :
    ∀ b ∈ i.octets, b.call = some i.call := by
  obtain ⟨v, hv⟩ := h
  intro b hb
  rw [hv] at hb
  obtain ⟨_, -, rfl⟩ := List.mem_map.mp hb
  rfl

/-- The `recv` of the first creation fails, and the second one reads its answer. -/
def atrasado : List (ℕ × Outcome) :=
  [(0, .call (.getEntryPageTable 1 64)), (2, .ok), (2, .ok), (2, .ok), (1, .answer 7), (2, .fail),
    (2, .ok), (0, .call (.getEntryPageTable 2 32)), (3, .ok), (3, .ok), (3, .ok), (3, .ok), (3, .ok),
    (3, .ok), (3, .ok)]

theorem not_matched : ∃ c : Config MemoryModule Action, Reach act (fun _ _ => True) init c ∧
    ¬ Matched c.state := by
  have h : (run act (fun _ _ => true) init atrasado).map (fun c => c.state.interpreted.map
      fun i => (i.call, i.octets.map Octet.call)) = some [(1, List.replicate 12 (some 0))] := by
    decide +kernel
  obtain ⟨c, hc, hr⟩ := Option.map_eq_some_iff.mp h
  refine ⟨c, reach_of_run (fun _ _ _ => trivial) .start hc, fun hm => ?_⟩
  obtain ⟨i, hi, hic⟩ : ∃ i ∈ c.state.interpreted,
      (i.call, i.octets.map Octet.call) = (1, List.replicate 12 (some 0)) := by
    refine List.mem_map.mp ?_
    rw [hr]
    exact List.mem_singleton_self _
  obtain ⟨h1, h2⟩ := Prod.mk.inj hic
  -- its first octet is of the answer to the first request
  have h3 : some 0 ∈ i.octets.map Octet.call := by
    rw [h2]
    exact List.mem_replicate.mpr ⟨by decide, rfl⟩
  obtain ⟨b, hb, hb0⟩ := List.mem_map.mp h3
  have h4 := (hm i hi).call b hb
  rw [hb0, h1] at h4
  cases h4

end Imemory
end Kiss
