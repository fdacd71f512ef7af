/-
# Messages on a stream

`send_message` and `recieve_message` of `shared/src/socket_handler.c`. The peer
writes messages one after the other and may close the connection at any byte; a
reception takes the header, the length and the payload, each with one `recv` that
returns less than it was asked for only at the end. Only the payload is compared
with what was asked for: a connection that closes inside the length leaves the
bytes that did not arrive at 0, and where the others are 0 too the message is
received with no payload (`recieve_corte`). At every other point the messages
received are those that arrived (`enmarcado_iff`).

Key definitions: `recv`, `recieveMessage`, `recibir`, `Mensaje`, `partir`, `Enmarcado`,
`CorteEnCeros`.
Key theorems: `recieve_entero`, `recieve_corte`, `enmarcado_iff`, `not_enmarcado`.
-/
import Kiss.Serializacion.IdaYVuelta

namespace Kiss
namespace Serializacion

open Bytes

/-! ### `recieve_message` -/

/-- `EMPTY_PACKAGE`, `ERROR_PACKAGE`. -/
def emptyPackage : ℕ := 0
def errorPackage : ℕ := 1

/-- `SKT_CONNECTION_LOST`, `SKT_DATA_TRANF_INCOMPLETE`. -/
def sktConnectionLost : ℕ := 10200
def sktDataTranfIncomplete : ℕ := 10201

/-- `t_socket_handler`: the bytes that arrive until the peer closes the connection,
and what the last operation left. -/
structure SocketHandler where
  socket : List UInt8
  error : ℕ
  lastReturn : ℤ
  deriving DecidableEq, Repr

/-- `recv` with `MSG_WAITALL`: the bytes asked for, or those that are left. -/
def recv (socket : List UInt8) (n : ℕ) : List UInt8 × List UInt8 := (socket.take n, socket.drop n)

/-- The last part of `recieve_message`: the payload. -/
def recievePayload (errno header size : ℕ) (socket : List UInt8) : Package × SocketHandler :=
  match recv socket size with
  | (stream, socket) =>
    let lastReturn := toInt stream.length
    if lastReturn = 0 then
      (⟨errorPackage, ⟨size, stream⟩⟩, ⟨socket, sktConnectionLost, lastReturn⟩)
    else if lastReturn < 0 then
      (⟨errorPackage, ⟨size, stream⟩⟩, ⟨socket, errno, lastReturn⟩)
    else if size ≠ toU32 lastReturn then
      (⟨errorPackage, ⟨size, stream⟩⟩, ⟨socket, sktDataTranfIncomplete, lastReturn⟩)
    else (⟨header, ⟨size, stream⟩⟩, ⟨socket, 0, lastReturn⟩)

/-- The middle part: the length. A field that arrives in part keeps its other bytes at 0. -/
def recieveSize (errno header : ℕ) (socket : List UInt8) : Package × SocketHandler :=
  match recv socket 4 with
  | (size, socket) =>
    let lastReturn := toInt size.length
    if lastReturn = 0 then
      (⟨errorPackage, ⟨0, []⟩⟩, ⟨socket, sktConnectionLost, lastReturn⟩)
    else if lastReturn < 0 then (⟨errorPackage, ⟨0, []⟩⟩, ⟨socket, errno, lastReturn⟩)
    else if 0 < value size then recievePayload errno header (value size) socket
    else (⟨header, ⟨0, []⟩⟩, ⟨socket, 0, lastReturn⟩)

/-- `recieve_message`. -/
def recieveMessage (errno : ℕ) (socket : List UInt8) : Package × SocketHandler :=
  match recv socket 4 with
  | (header, socket) =>
    let lastReturn := toInt header.length
    if lastReturn = 0 then
      (⟨emptyPackage, ⟨0, []⟩⟩, ⟨socket, sktConnectionLost, lastReturn⟩)
    else if lastReturn < 0 then (⟨emptyPackage, ⟨0, []⟩⟩, ⟨socket, errno, lastReturn⟩)
    else recieveSize errno (value header) socket

/-- The first `n` receptions: what each returns and the error it leaves. -/
def recibir (errno : ℕ) : ℕ → List UInt8 → List (Package × ℕ)
  | 0, _ => []
  | n + 1, socket =>
    ((recieveMessage errno socket).1, (recieveMessage errno socket).2.error) ::
      recibir errno n (recieveMessage errno socket).2.socket

/-! ### The messages sent -/

/-- A header and a payload that `send_message` can send. -/
structure Mensaje where
  header : ℕ
  payload : List UInt8
  header_lt : header < 2 ^ 32
  payload_lt : payload.length < 2 ^ 31 - 8

def Mensaje.package (m : Mensaje) : Package := ⟨m.header, ⟨m.payload.length, m.payload⟩⟩

/-- What `send_message` writes. -/
def Mensaje.bytes (m : Mensaje) : List UInt8 := (serializarPaquete m.package).stream

/-- The messages wholly contained in the first `k` bytes, and the one the end cuts with
how many of its bytes there are. -/
def partir : List Mensaje → ℕ → List Mensaje × Option (Mensaje × ℕ)
  | [], _ => ([], none)
  | m :: ms, k =>
    if m.bytes.length ≤ k then
      (m :: (partir ms (k - m.bytes.length)).1, (partir ms (k - m.bytes.length)).2)
    else ([], some (m, k))

/-- The connection closes after `k` bytes: the messages that arrived are received with no
error, and the next reception reports one. -/
def Enmarcado (errno : ℕ) (ms : List Mensaje) (k : ℕ) : Prop :=
  ∃ package error, error ≠ 0 ∧
    recibir errno ((partir ms k).1.length + 1) ((ms.flatMap Mensaje.bytes).take k) =
      (partir ms k).1.map (fun m => (m.package, 0)) ++ [(package, error)]

/-- The connection closes inside the length of a message, after bytes of it that are 0. -/
def CorteEnCeros (ms : List Mensaje) (k : ℕ) : Prop :=
  ∃ m r, (partir ms k).2 = some (m, r) ∧ 4 < r ∧ r < 8 ∧ m.payload.length % 256 ^ (r - 4) = 0

theorem Mensaje.bytes_eq (m : Mensaje) :
    m.bytes = ofNat 4 m.header ++ (ofNat 4 m.payload.length ++ m.payload) := by
  rw [bytes, serializarPaquete, package, copiar_eq rfl, List.append_assoc]

theorem Mensaje.length_bytes (m : Mensaje) : m.bytes.length = 8 + m.payload.length := by
  rw [m.bytes_eq, List.length_append, List.length_append, length_ofNat, length_ofNat]
  omega

/-! ### Receptions -/

theorem recv_append {b s : List UInt8} {n : ℕ} (h : b.length = n) : recv (b ++ s) n = (b, s) := by
  subst h
  rw [recv, List.take_left, List.drop_left]

/-- What is left is less than what is asked for. -/
theorem recv_all {s : List UInt8} {n : ℕ} (h : s.length ≤ n) : recv s n = (s, []) := by
  rw [recv, List.take_of_length_le h, List.drop_eq_nil_of_le h]

/-- What a reception of `n` bytes returns, where there are some. -/
theorem lastReturn_pos {b : List UInt8} (h : 0 < b.length) (hb : b.length < 2 ^ 31) :
    toInt b.length = b.length ∧ toInt b.length ≠ 0 ∧ ¬ toInt b.length < 0 := by
  have h1 := toInt_of_lt hb
  omega

section Recieve

variable {errno header n : ℕ} {b s : List UInt8}

theorem recieveMessage_append (h : b.length = 4) :
    recieveMessage errno (b ++ s) = recieveSize errno (value b) s := by
  obtain ⟨-, h1, h2⟩ := lastReturn_pos (b := b) (by omega) (by omega)
  simp only [recieveMessage, recv_append h, if_neg h1, if_neg h2]

theorem recieveSize_append (h : b.length = 4) (hv : 0 < value b) :
    recieveSize errno header (b ++ s) = recievePayload errno header (value b) s := by
  obtain ⟨-, h1, h2⟩ := lastReturn_pos (b := b) (by omega) (by omega)
  simp only [recieveSize, recv_append h, if_neg h1, if_neg h2, if_pos hv]

/-- A message that arrived whole is received. -/
theorem recieve_entero (m : Mensaje) : (recieveMessage errno (m.bytes ++ s)).1 = m.package ∧
    (recieveMessage errno (m.bytes ++ s)).2.error = 0 ∧
    (recieveMessage errno (m.bytes ++ s)).2.socket = s := by
  have hv : value (ofNat 4 m.payload.length) = m.payload.length := by
    rw [value_ofNat]
    exact Nat.mod_eq_of_lt (lt_trans m.payload_lt (by decide))
  have hh : value (ofNat 4 m.header) = m.header := by
    rw [value_ofNat]
    exact Nat.mod_eq_of_lt m.header_lt
  rw [m.bytes_eq, List.append_assoc, recieveMessage_append (length_ofNat ..), hh,
    List.append_assoc]
  rcases Nat.eq_zero_or_pos m.payload.length with h0 | h0
  · have h1 : m.payload = [] := List.eq_nil_of_length_eq_zero h0
    have h2 : recieveSize errno m.header (ofNat 4 m.payload.length ++ (m.payload ++ s)) =
        (⟨m.header, ⟨0, []⟩⟩, ⟨s, 0, 4⟩) := by
      rw [h1, recieveSize, recv_append (length_ofNat ..)]
      rfl
    rw [h2]
    refine ⟨?_, rfl, rfl⟩
    rw [Mensaje.package, h1]
    rfl
  · obtain ⟨h1, h2, h3⟩ := lastReturn_pos h0 (by have := m.payload_lt; omega)
    have h4 : m.payload.length = toU32 (toInt m.payload.length) := by
      rw [h1]
      exact (toU32_of_lt (lt_trans m.payload_lt (by decide))).symm
    rw [recieveSize_append (length_ofNat ..) (by rw [hv]; exact h0), hv, recievePayload,
      recv_append rfl]
    refine ⟨?_, ?_, ?_⟩ <;> simp only [if_neg h2, if_neg h3, if_neg (not_not.mpr h4)]
    rfl

/-- Nothing more arrives inside the header. -/
theorem recieve_sinHeader (h : s.length ≤ 4) : (recieveMessage errno s).2.error ≠ 0 := by
  rcases Nat.eq_zero_or_pos s.length with h0 | h0
  · rw [List.eq_nil_of_length_eq_zero h0]
    simp [recieveMessage, recv, toInt, sktConnectionLost]
  · obtain ⟨-, h1, h2⟩ := lastReturn_pos h0 (by omega)
    simp only [recieveMessage, recv_all h, if_neg h1, if_neg h2]
    simp [recieveSize, recv, toInt, sktConnectionLost]

/-- Nothing more arrives inside the length. -/
theorem recieve_sinSize (h : b.length = 4) (h0 : 0 < s.length) (hs : s.length ≤ 4) :
    (recieveMessage errno (b ++ s)).2.error = 0 ↔ value s = 0 := by
  obtain ⟨-, h1, h2⟩ := lastReturn_pos h0 (by omega)
  rw [recieveMessage_append h]
  simp only [recieveSize, recv_all hs, if_neg h1, if_neg h2]
  split
  · have hv : value s ≠ 0 := by omega
    simp [recievePayload, recv, toInt, sktConnectionLost, hv]
  · have hv : value s = 0 := by omega
    simp [hv]

/-- Nothing more arrives inside the payload. -/
theorem recieve_sinPayload (h : s.length < n) (hn : n < 2 ^ 31) :
    (recievePayload errno header n s).2.error ≠ 0 := by
  rcases Nat.eq_zero_or_pos s.length with h0 | h0
  · rw [List.eq_nil_of_length_eq_zero h0]
    simp [recievePayload, recv, toInt, sktConnectionLost]
  · obtain ⟨h1, h2, h3⟩ := lastReturn_pos h0 (by omega)
    have h4 : n ≠ toU32 (toInt s.length) := by
      rw [h1, toU32_of_lt (by omega)]
      omega
    simp only [recievePayload, recv_all (le_of_lt h), if_neg h2, if_neg h3, if_pos h4]
    decide

/-- A message that is cut is received only where the cut is inside its length, after bytes
that are 0. -/
theorem recieve_corte (m : Mensaje) {r : ℕ} (hr : r < m.bytes.length) :
    (recieveMessage errno (m.bytes.take r)).2.error = 0 ↔
      4 < r ∧ r < 8 ∧ m.payload.length % 256 ^ (r - 4) = 0 := by
  rw [m.length_bytes] at hr
  have hlen : (m.bytes.take r).length = r := by
    rw [List.length_take, m.length_bytes]
    omega
  by_cases h4 : r ≤ 4
  · have h1 : (recieveMessage errno (m.bytes.take r)).2.error ≠ 0 := recieve_sinHeader (by omega)
    exact ⟨fun h => absurd h h1, fun h => by omega⟩
  have hs : m.bytes.take r = ofNat 4 m.header ++ (ofNat 4 m.payload.length ++ m.payload).take (r - 4) := by
    rw [m.bytes_eq, List.take_append, length_ofNat, List.take_of_length_le (by rw [length_ofNat]; omega)]
  by_cases h8 : r < 8
  · have h1 : (ofNat 4 m.payload.length ++ m.payload).take (r - 4) =
        (ofNat 4 m.payload.length).take (r - 4) :=
      List.take_append_of_le_length (by rw [length_ofNat]; omega)
    have h2 : ((ofNat 4 m.payload.length).take (r - 4)).length = r - 4 := by
      rw [List.length_take, length_ofNat]
      omega
    rw [hs, h1, recieve_sinSize (length_ofNat ..) (by omega) (by omega),
      value_take_ofNat _ _ _ (by omega)]
    exact ⟨fun h => ⟨by omega, h8, h⟩, fun h => h.2.2⟩
  · have h1 : (ofNat 4 m.payload.length ++ m.payload).take (r - 4) =
        ofNat 4 m.payload.length ++ m.payload.take (r - 8) := by
      rw [List.take_append, length_ofNat, List.take_of_length_le (by rw [length_ofNat]; omega)]
      congr 2
    have hv : value (ofNat 4 m.payload.length) = m.payload.length := by
      rw [value_ofNat]
      exact Nat.mod_eq_of_lt (lt_trans m.payload_lt (by decide))
    have h2 := m.payload_lt
    rw [hs, h1, recieveMessage_append (length_ofNat ..), recieveSize_append (length_ofNat ..)
      (by rw [hv]; omega), hv]
    have h3 : (recievePayload errno (value (ofNat 4 m.header)) m.payload.length
        (m.payload.take (r - 8))).2.error ≠ 0 :=
      recieve_sinPayload (by rw [List.length_take]; omega) (by omega)
    exact ⟨fun h => absurd h h3, fun h => by omega⟩

end Recieve

/-! ### Sequences of messages -/

section Secuencia

variable {errno : ℕ} {m : Mensaje} {ms : List Mensaje} {k : ℕ}

theorem enmarcado_cons (h : m.bytes.length ≤ k) :
    Enmarcado errno (m :: ms) k ↔ Enmarcado errno ms (k - m.bytes.length) := by
  obtain ⟨h1, h2, h3⟩ := @recieve_entero errno ((ms.flatMap Mensaje.bytes).take
    (k - m.bytes.length)) m
  have ht : ((m :: ms).flatMap Mensaje.bytes).take k =
      m.bytes ++ (ms.flatMap Mensaje.bytes).take (k - m.bytes.length) := by
    rw [List.flatMap_cons, List.take_append, List.take_of_length_le h]
  have hp : (partir (m :: ms) k).1 = m :: (partir ms (k - m.bytes.length)).1 := by
    rw [partir, if_pos h]
  unfold Enmarcado
  rw [ht, hp, List.length_cons]
  simp only [recibir, h1, h2, h3, List.map_cons, List.cons_append, List.cons.injEq, true_and]

theorem enmarcado_corte (h : ¬ m.bytes.length ≤ k) :
    Enmarcado errno (m :: ms) k ↔ (recieveMessage errno (m.bytes.take k)).2.error ≠ 0 := by
  have ht : ((m :: ms).flatMap Mensaje.bytes).take k = m.bytes.take k := by
    rw [List.flatMap_cons, List.take_append_of_le_length (by omega)]
  have hp : (partir (m :: ms) k).1 = [] := by
    rw [partir, if_neg h]
  unfold Enmarcado
  rw [ht, hp]
  simp only [List.length_nil, List.map_nil, List.nil_append, recibir, List.cons.injEq, and_true,
    Prod.mk.injEq]
  constructor
  · rintro ⟨p, e, he, -, rfl⟩
    exact he
  · exact fun he => ⟨_, _, he, rfl, rfl⟩

/-- **Framing.** The messages that arrived whole are received, and an error after them,
exactly where the stream does not end inside a length after bytes of it that are 0. -/
theorem enmarcado_iff (errno : ℕ) : ∀ (ms : List Mensaje) (k : ℕ),
    Enmarcado errno ms k ↔ ¬ CorteEnCeros ms k
  | [], k => by
    have h1 : Enmarcado errno [] k := by
      refine ⟨⟨emptyPackage, ⟨0, []⟩⟩, sktConnectionLost, by decide, ?_⟩
      simp [recibir, recieveMessage, recv, toInt, partir]
    have h2 : ¬ CorteEnCeros [] k := by
      rintro ⟨m, r, h, -⟩
      cases h
    exact ⟨fun _ => h2, fun _ => h1⟩
  | m :: ms, k => by
    by_cases h : m.bytes.length ≤ k
    · rw [enmarcado_cons h, enmarcado_iff errno ms]
      have hp : (partir (m :: ms) k).2 = (partir ms (k - m.bytes.length)).2 := by
        rw [partir, if_pos h]
      unfold CorteEnCeros
      rw [hp]
    · have hp : (partir (m :: ms) k).2 = some (m, k) := by
        rw [partir, if_neg h]
      have hc : CorteEnCeros (m :: ms) k ↔
          4 < k ∧ k < 8 ∧ m.payload.length % 256 ^ (k - 4) = 0 := by
        unfold CorteEnCeros
        rw [hp]
        constructor
        · rintro ⟨m', r, h1, h2⟩
          cases h1
          exact h2
        · exact fun h2 => ⟨m, k, rfl, h2⟩
      rw [enmarcado_corte h, hc, ← recieve_corte m (by omega)]

end Secuencia

/-- A message with 256 bytes, of which the first five arrive. -/
def mensajeLargo : Mensaje := ⟨902, List.replicate 256 1, by decide, by
  rw [List.length_replicate]
  decide⟩

theorem not_enmarcado : ¬ ∀ errno ms k, Enmarcado errno ms k := by
  intro h
  obtain ⟨package, error, he, h1⟩ := h 0 [mensajeLargo] 5
  have h2 : recibir 0 1 (([mensajeLargo].flatMap Mensaje.bytes).take 5) = [(⟨902, ⟨0, []⟩⟩, 0)] := by
    decide +kernel
  have h3 : (partir [mensajeLargo] 5).1 = [] := by decide +kernel
  rw [h3] at h1
  simp only [List.length_nil, Nat.zero_add, List.map_nil, List.nil_append] at h1
  rw [h2] at h1
  cases h1
  exact he rfl

end Serializacion
end Kiss
