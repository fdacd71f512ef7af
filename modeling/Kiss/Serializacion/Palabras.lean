/-
# Messages that are a few numbers

The requests to the memory module, its answers and the codes of a handshake are some
`uint32_t` one after the other: `serialize_uint32t` of `shared/src/serialization.c` and the
records of `kiss.serialization.c`. The order of the numbers in the message is not that of
the fields.

Key definitions: `serializarPalabras`, `deserializarPalabras`, `Caben`.
Key theorems: `palabras_idaYVuelta`.
-/
import Kiss.Serializacion.IdaYVuelta

namespace Kiss

/-- `t_process_code`. -/
inductive ProcessCode
  | console | kernel | cpu | memory
  deriving DecidableEq, Repr

/-- The numbers of `t_process_code`. -/
def ProcessCode.code : ProcessCode → ℕ
  | console => 1
  | kernel => 2
  | cpu => 3
  | memory => 4

namespace Serializacion

open Bytes

/-! ### Numbers one after the other -/

/-- They are `uint32_t`. -/
def Caben (l : List ℕ) : Prop := ∀ x ∈ l, x < 2 ^ 32

instance : DecidablePred Caben := fun l => inferInstanceAs (Decidable (∀ x ∈ l, x < 2 ^ 32))

/-- A record of numbers, with its size. -/
def serializarPalabras (l : List ℕ) : Buffer := ⟨4 * l.length, l.flatMap (ofNat 4)⟩

def leerPalabras (stream : List UInt8) : ℕ → ℤ → Option (List ℕ)
  | 0, _ => some []
  | n + 1, offset => do
    let x ← word stream offset
    let l ← leerPalabras stream n (offset + 4)
    some (x :: l)

/-- The numbers of a record of `n` of them. -/
def deserializarPalabras (n : ℕ) (buffer : Buffer) : Option (List ℕ) := leerPalabras buffer.stream n 0

theorem leerPalabras_append {l r : List UInt8} : ∀ {xs : List ℕ} {i : ℤ}, Caben xs →
    Rest l i (xs.flatMap (ofNat 4) ++ r) → leerPalabras l xs.length i = some xs
  | [], _, _, _ => rfl
  | x :: xs, i, hx, h => by
    rw [List.flatMap_cons, List.append_assoc] at h
    have hxs : Caben xs := fun y hy => hx y (List.mem_cons_of_mem x hy)
    rw [List.length_cons, leerPalabras, word_append h (hx x List.mem_cons_self), Option.bind_eq_bind,
      Option.bind_some, leerPalabras_append hxs h.word]
    rfl

/-- **What was written is read again.** -/
theorem palabras_idaYVuelta {l : List ℕ} {b : Buffer} (hb : b.stream = (serializarPalabras l).stream)
    (h : Caben l) : deserializarPalabras l.length b = some l := by
  rw [deserializarPalabras, hb]
  exact leerPalabras_append h (rest_start (List.append_nil _).symm)

theorem length_serializarPalabras (l : List ℕ) : (serializarPalabras l).stream.length = 4 * l.length := by
  unfold serializarPalabras
  induction l with
  | nil => rfl
  | cons x l ih =>
    simp only [List.flatMap_cons, List.length_append, length_ofNat, List.length_cons] at ih ⊢
    omega

/-! ### The records -/

/-- `serialize_uint32t`, and `serialize_signal` and `serialize_process_code` with it. -/
def serializeUint32t (code : ℕ) : Buffer := serializarPalabras [code]

/-- `deserialize_uint32t`, `deserialize_signal`, `deserialize_process_code`. -/
def deserializeUint32t (buffer : Buffer) : Option ℕ := (deserializarPalabras 1 buffer).bind List.head?

/-- `serializar_setup_memoria`. -/
def serializarSetupMemoria (entradasPorTabla tamPagina : ℕ) : Buffer :=
  serializarPalabras [entradasPorTabla, tamPagina]

/-- `deserializar_setup_memoria`: the entries of a table and the size of a page. -/
def deserializarSetupMemoria (buffer : Buffer) : Option (ℕ × ℕ) :=
  match deserializarPalabras 2 buffer with
  | some [entradasPorTabla, tamPagina] => some (entradasPorTabla, tamPagina)
  | _ => none

def palabrasOperacion (operacion : Cpu.OperacionEU) : List ℕ :=
  [operacion.pid, operacion.dato, operacion.desplazamiento, operacion.numeroMarco]

/-- `serializar_operacion_eu`. -/
def serializarOperacionEu (operacion : Cpu.OperacionEU) : Buffer :=
  serializarPalabras (palabrasOperacion operacion)

/-- `deserializar_operacion_EU`. -/
def deserializarOperacionEU (buffer : Buffer) : Option Cpu.OperacionEU :=
  match deserializarPalabras 4 buffer with
  | some [pid, dato, desplazamiento, numeroMarco] => some ⟨pid, numeroMarco, desplazamiento, dato⟩
  | _ => none

def palabrasDireccion (direccion : Cpu.Direccion) : List ℕ :=
  [direccion.pid, direccion.pagina, direccion.tablaPrimerNivel, direccion.tablaSegundoNivel]

/-- `serializar_direccion`. -/
def serializarDireccion (direccion : Cpu.Direccion) : Buffer :=
  serializarPalabras (palabrasDireccion direccion)

/-- `deserializar_direccion`. -/
def deserializarDireccion (buffer : Buffer) : Option Cpu.Direccion :=
  match deserializarPalabras 4 buffer with
  | some [pid, pagina, tablaPrimerNivel, tablaSegundoNivel] =>
    some ⟨pid, tablaPrimerNivel, tablaSegundoNivel, pagina⟩
  | _ => none

/-- `serializar_page_entry_request`. -/
def serializarPageEntryRequest (pcbId processSize : ℕ) : Buffer := serializarPalabras [pcbId, processSize]

/-- `deserializar_page_entry_request`: the process and its size. -/
def deserializarPageEntryRequest (buffer : Buffer) : Option (ℕ × ℕ) :=
  match deserializarPalabras 2 buffer with
  | some [pcbId, processSize] => some (pcbId, processSize)
  | _ => none

section Records

variable {n m : ℕ} {o : Cpu.OperacionEU} {d : Cpu.Direccion} {b : Buffer}

theorem deserializeUint32t_serialize (hb : b.stream = (serializeUint32t n).stream) (h : Caben [n]) :
    deserializeUint32t b = some n := by
  have h1 : deserializarPalabras 1 b = some [n] := palabras_idaYVuelta hb h
  rw [deserializeUint32t, h1]
  rfl

theorem deserializarSetupMemoria_serializar (hb : b.stream = (serializarSetupMemoria n m).stream)
    (h : Caben [n, m]) : deserializarSetupMemoria b = some (n, m) := by
  have h1 : deserializarPalabras 2 b = some [n, m] := palabras_idaYVuelta hb h
  rw [deserializarSetupMemoria, h1]

theorem deserializarOperacionEU_serializar (hb : b.stream = (serializarOperacionEu o).stream)
    (h : Caben (palabrasOperacion o)) : deserializarOperacionEU b = some o := by
  have h1 : deserializarPalabras 4 b = some (palabrasOperacion o) := palabras_idaYVuelta hb h
  rw [deserializarOperacionEU, h1]
  rfl

theorem deserializarDireccion_serializar (hb : b.stream = (serializarDireccion d).stream)
    (h : Caben (palabrasDireccion d)) : deserializarDireccion b = some d := by
  have h1 : deserializarPalabras 4 b = some (palabrasDireccion d) := palabras_idaYVuelta hb h
  rw [deserializarDireccion, h1]
  rfl

theorem deserializarPageEntryRequest_serializar
    (hb : b.stream = (serializarPageEntryRequest n m).stream) (h : Caben [n, m]) :
    deserializarPageEntryRequest b = some (n, m) := by
  have h1 : deserializarPalabras 2 b = some [n, m] := palabras_idaYVuelta hb h
  rw [deserializarPageEntryRequest, h1]

end Records

end Serializacion
end Kiss
