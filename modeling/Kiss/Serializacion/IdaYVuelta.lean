/-
# Round trips

What the encoders write is what the decoders read (`wire_idaYVuelta`), alone and
inside a package. A decoder that reads something also determines the bytes it has
read (`leerInstrucciones_some`), so both are followed through the one description
of the bytes of a received list, `bytesInstrucciones`.

Key definitions: `longitud`, `bytesInstrucciones`, `Fiel`.
Key theorems: `leerInstrucciones_append`, `leerInstrucciones_some`, `wire_idaYVuelta`.
-/
import Mathlib.Data.List.TakeWhile
import Kiss.Serializacion.Formato

namespace Kiss
namespace Serializacion

open Bytes

/-! ### Received lists -/

def bytesParametro (b : List UInt8) : List UInt8 := ofNat 4 b.length ++ b

def bytesInstruccion (i : InstruccionLeida) : List UInt8 :=
  ofNat 4 i.codigo.code ++ ofNat 4 i.parametros.length ++ i.parametros.flatMap bytesParametro

/-- The bytes of a received list. -/
def bytesInstrucciones (l : List InstruccionLeida) : List UInt8 :=
  ofNat 4 l.length ++ l.flatMap bytesInstruccion

theorem code_lt (c : CodigoInstruccion) : c.code < 2 ^ 32 := by
  cases c
  case otro n h => exact h.2
  all_goals decide

@[simp] theorem ofCode_code (c : CodigoInstruccion) : CodigoInstruccion.ofCode c.code = c := by
  cases c
  case otro n h =>
    have h1 : n % 2 ^ 32 = n := Nat.mod_eq_of_lt h.2
    have h2 : 6 ≤ (CodigoInstruccion.otro n h).code % 2 ^ 32 := h1.symm ▸ h.1
    unfold CodigoInstruccion.ofCode
    rw [dif_pos h2]
    congr
  all_goals rfl

theorem code_ofCode {n : ℕ} (h : n < 2 ^ 32) : (CodigoInstruccion.ofCode n).code = n := by
  have h1 : n % 2 ^ 32 = n := Nat.mod_eq_of_lt h
  unfold CodigoInstruccion.ofCode
  split
  · exact h1
  · rename_i h2
    obtain rfl | rfl | rfl | rfl | rfl | rfl :
      n = 0 ∨ n = 1 ∨ n = 2 ∨ n = 3 ∨ n = 4 ∨ n = 5 := by omega
    all_goals rfl

section Leer

variable {l r : List UInt8} {i j : ℤ}

theorem length_flatMap_bytesParametro : ∀ bs : List (List UInt8),
    bs.length ≤ (bs.flatMap bytesParametro).length
  | [] => le_refl _
  | b :: bs => by
    have := length_flatMap_bytesParametro bs
    simp only [List.flatMap_cons, bytesParametro, List.length_append, List.length_cons, length_ofNat]
    omega

theorem length_flatMap_bytesInstruccion : ∀ is : List InstruccionLeida,
    is.length ≤ (is.flatMap bytesInstruccion).length
  | [] => le_refl _
  | i :: is => by
    have := length_flatMap_bytesInstruccion is
    simp only [List.flatMap_cons, bytesInstruccion, List.length_append, List.length_cons,
      length_ofNat]
    omega

/-- An offset inside a list that is not too long is stored. -/
theorem rest_toInt (h : Rest l i r) (hl : l.length < 2 ^ 31) : toInt i = i := by
  have h1 := h.length
  have h2 := h.nonneg
  exact toInt_of_nonneg h2 (by omega)

theorem leerParametros_append (hl : l.length < 2 ^ 31) : ∀ {bs : List (List UInt8)} {i : ℤ},
    Rest l i (bs.flatMap bytesParametro ++ r) →
    leerParametros l bs.length i = some (bs, i + (bs.flatMap bytesParametro).length)
  | [], i, _ => by simp [leerParametros]
  | b :: bs, i, h => by
    rw [List.flatMap_cons, bytesParametro, List.append_assoc, List.append_assoc] at h
    have h1 := h.word
    have h2 := h1.append
    have hb := h1.length
    have hi := h.nonneg
    rw [List.length_append] at hb
    push_cast at hb
    have ih := leerParametros_append hl h2
    rw [List.length_cons, leerParametros, word_append h (by omega)]
    simp only [Option.bind_eq_bind, Option.bind_some, rest_toInt h1 hl,
      toInt_of_nonneg (Int.natCast_nonneg b.length) (by omega), slice_append h1 rfl,
      rest_toInt h2 hl, ih]
    congr 2
    simp only [List.flatMap_cons, bytesParametro, List.length_append, length_ofNat]
    push_cast
    ring

theorem leerParametros_some (hl : l.length < 2 ^ 31) : ∀ {n : ℕ} {i j : ℤ} {r : List UInt8}
    {bs : List (List UInt8)}, Rest l i r → leerParametros l n i = some (bs, j) →
    bs.length = n ∧ ∃ r', r = bs.flatMap bytesParametro ++ r' ∧ Rest l j r'
  | 0, i, j, r, bs, h, hs => by
    cases hs
    exact ⟨rfl, r, rfl, h⟩
  | n + 1, i, j, r, bs, h, hs => by
    simp only [leerParametros, Option.bind_eq_bind, Option.bind_eq_some_iff] at hs
    obtain ⟨size, h1, b, h2, ⟨bs', j'⟩, h3, h4⟩ := hs
    cases h4
    obtain ⟨hsz, r1, rfl⟩ := word_some h h1
    have hr1 := h.word
    rw [rest_toInt hr1 hl] at h2 h3
    obtain ⟨hb, r2, rfl⟩ := slice_some hr1 h2
    have hr2 := hr1.append
    rw [← hb, rest_toInt hr2 hl] at h3
    obtain ⟨h5, r3, rfl, h6⟩ := leerParametros_some hl hr2 h3
    have hsz' : b.length = size := by
      have h7 := hr1.length
      rw [List.length_append] at h7
      push_cast at h7
      have := h.nonneg
      rw [← toU32_of_lt hsz, ← toU32_toInt, ← hb, toU32_of_lt (by omega)]
    refine ⟨by rw [List.length_cons, h5], r3, ?_, h6⟩
    rw [List.flatMap_cons, bytesParametro, hsz', List.append_assoc, List.append_assoc]

theorem leerInstrucciones_append (hl : l.length < 2 ^ 31) : ∀ {is : List InstruccionLeida} {i : ℤ},
    Rest l i (is.flatMap bytesInstruccion ++ r) →
    leerInstrucciones l is.length i = some (is, i + (is.flatMap bytesInstruccion).length)
  | [], i, _ => by simp [leerInstrucciones]
  | x :: is, i, h => by
    rw [List.flatMap_cons, bytesInstruccion, List.append_assoc, List.append_assoc,
      List.append_assoc] at h
    have h1 := h.word
    have h2 := h1.word
    have h3 := h2.append
    have hx : x.parametros.length < 2 ^ 32 := by
      have h4 := h2.length
      have h5 := length_flatMap_bytesParametro x.parametros
      have := h.nonneg
      rw [List.length_append] at h4
      push_cast at h4
      omega
    have ih := leerInstrucciones_append hl h3
    rw [List.length_cons, leerInstrucciones, word_append h (code_lt _)]
    simp only [Option.bind_eq_bind, Option.bind_some, rest_toInt h1 hl, word_append h1 hx,
      rest_toInt h2 hl, leerParametros_append hl h2, ih, ofCode_code]
    congr 2
    simp only [List.flatMap_cons, bytesInstruccion, List.length_append, length_ofNat]
    push_cast
    ring

theorem leerInstrucciones_some (hl : l.length < 2 ^ 31) : ∀ {n : ℕ} {i j : ℤ} {r : List UInt8}
    {is : List InstruccionLeida}, Rest l i r → leerInstrucciones l n i = some (is, j) →
    is.length = n ∧ ∃ r', r = is.flatMap bytesInstruccion ++ r' ∧ Rest l j r'
  | 0, i, j, r, is, h, hs => by
    cases hs
    exact ⟨rfl, r, rfl, h⟩
  | n + 1, i, j, r, is, h, hs => by
    simp only [leerInstrucciones, Option.bind_eq_bind, Option.bind_eq_some_iff] at hs
    obtain ⟨codigo, h1, pCount, h2, ⟨bs, j1⟩, h3, ⟨is', j2⟩, h4, h5⟩ := hs
    cases h5
    obtain ⟨hc, r1, rfl⟩ := word_some h h1
    have hr1 := h.word
    rw [rest_toInt hr1 hl] at h2 h3
    obtain ⟨-, r2, rfl⟩ := word_some hr1 h2
    have hr2 := hr1.word
    rw [rest_toInt hr2 hl] at h3
    obtain ⟨rfl, r3, rfl, hr3⟩ := leerParametros_some hl hr2 h3
    obtain ⟨rfl, r4, rfl, hr4⟩ := leerInstrucciones_some hl hr3 h4
    refine ⟨rfl, r4, ?_, hr4⟩
    simp only [List.flatMap_cons, bytesInstruccion, code_ofCode hc, List.append_assoc]

/-- The bytes of a received list give the list. -/
theorem deserializarLista_append {is : List InstruccionLeida} {n : ℕ} (hl : l.length < 2 ^ 31)
    (hr : l = bytesInstrucciones is ++ r) :
    deserializarListaInstrucciones ⟨n, l⟩ = some is := by
  rw [bytesInstrucciones, List.append_assoc] at hr
  have h := rest_start hr
  have h1 := h.word
  have hn : is.length < 2 ^ 32 := by
    have h2 := h1.length
    have h3 := length_flatMap_bytesInstruccion is
    rw [List.length_append] at h2
    push_cast at h2
    omega
  simp only [deserializarListaInstrucciones, word_append h hn, Option.bind_eq_bind,
    Option.bind_some]
  rw [← zero_add (4 : ℤ), leerInstrucciones_append hl h1]
  rfl

theorem deserializarLista_some {is : List InstruccionLeida} {n : ℕ} (hl : l.length < 2 ^ 31)
    (hs : deserializarListaInstrucciones ⟨n, l⟩ = some is) : ∃ r, l = bytesInstrucciones is ++ r := by
  simp only [deserializarListaInstrucciones, Option.bind_eq_bind, Option.bind_eq_some_iff] at hs
  obtain ⟨iCount, h1, ⟨is', j⟩, h2, h3⟩ := hs
  cases h3
  obtain ⟨-, r1, hr1⟩ := word_some (rest_start rfl) h1
  have h := (rest_start hr1).word
  rw [zero_add] at h
  obtain ⟨rfl, r2, rfl, -⟩ := leerInstrucciones_some hl h h2
  exact ⟨r2, by rw [hr1, bytesInstrucciones, List.append_assoc]⟩

end Leer

/-! ### Lists of instructions -/

/-- The parameters are strings. -/
def SinNul (l : List Instruction) : Prop := ∀ i ∈ l, ∀ p ∈ i.parametros, ∀ b ∈ p, b ≠ 0

def longitudParametro (p : Cadena) : ℕ := 4 + p.length + 1

def longitudInstruccion (i : Instruction) : ℕ := 8 + (i.parametros.map longitudParametro).sum

/-- How many bytes a list of instructions takes. -/
def longitud (l : List Instruction) : ℕ := 4 + (l.map longitudInstruccion).sum

theorem length_le_longitud : ∀ l : List Instruction, l.length ≤ longitud l
  | [] => Nat.zero_le _
  | i :: l => by
    have ih := length_le_longitud l
    simp only [longitud, List.map_cons, List.sum_cons, List.length_cons, longitudInstruccion] at ih ⊢
    omega

/-- What is received of an instruction. -/
def leida (i : Instruction) : InstruccionLeida := ⟨i.codigo, i.parametros.map (· ++ [0])⟩

theorem cadena_of_sinNul {p : Cadena} (h : ∀ b ∈ p, b ≠ 0) : cadena p = p :=
  List.takeWhile_eq_self_iff.mpr (by simpa using h)

theorem cadena_append {p : Cadena} (h : ∀ b ∈ p, b ≠ 0) : cadena (p ++ [0]) = p := by
  unfold cadena
  rw [List.takeWhile_append_of_pos (by simpa using h)]
  simp

theorem escribirParametro_eq {p : Cadena} (h : ∀ b ∈ p, b ≠ 0) (hp : p.length + 1 < 2 ^ 32) :
    escribirParametro p = bytesParametro (p ++ [0]) := by
  have h1 : toU32 (strlen p + 1) = p.length + 1 := by
    rw [strlen, cadena_of_sinNul h]
    exact_mod_cast toU32_of_lt hp
  have h2 : (p ++ [0]).length = p.length + 1 := by simp
  simp only [escribirParametro, bytesParametro, h1, cadena_of_sinNul h, h2]
  rw [List.take_of_length_le (by omega)]

theorem instruction_leida {i : Instruction} (h : ∀ p ∈ i.parametros, ∀ b ∈ p, b ≠ 0) :
    (leida i).instruction = i := by
  have h1 : (i.parametros.map (· ++ [0])).map cadena = i.parametros.map id := by
    rw [List.map_map]
    exact List.map_congr_left fun p hp => cadena_append (h p hp)
  rw [List.map_id] at h1
  rw [leida, InstruccionLeida.instruction, h1]

theorem map_instruction_leida {l : List Instruction} (h : SinNul l) :
    (l.map leida).map InstruccionLeida.instruction = l := by
  have h1 : (l.map leida).map InstruccionLeida.instruction = l.map id := by
    rw [List.map_map]
    exact List.map_congr_left fun i hi => instruction_leida (h i hi)
  rwa [List.map_id] at h1

/-- The two passes over the parameters. -/
theorem parametros_eq : ∀ {l : List Cadena} {n : ℤ}, (∀ p ∈ l, ∀ b ∈ p, b ≠ 0) → 0 ≤ n →
    n + (l.map longitudParametro).sum < 2 ^ 31 →
    l.foldl (fun n p => toInt (n + (4 + strlen p + 1))) n = n + (l.map longitudParametro).sum ∧
    l.flatMap escribirParametro = (l.map (· ++ [0])).flatMap bytesParametro ∧
    (l.flatMap escribirParametro).length = (l.map longitudParametro).sum ∧
    l.length ≤ (l.map longitudParametro).sum
  | [], n, _, _, _ => by simp
  | p :: l, n, h, h0, hn => by
    have hp := h p List.mem_cons_self
    simp only [List.map_cons, List.sum_cons, longitudParametro] at hn
    simp only [Nat.cast_add, Nat.cast_ofNat] at hn
    have h1 : toInt (n + (4 + strlen p + 1)) = n + (4 + p.length + 1) := by
      rw [strlen, cadena_of_sinNul hp]
      exact toInt_of_nonneg (by omega) (by omega)
    obtain ⟨ih1, ih2, ih3, ih4⟩ := parametros_eq (l := l) (n := n + (4 + p.length + 1))
      (fun q hq => h q (List.mem_cons_of_mem _ hq)) (by omega) (by omega)
    have h2 := escribirParametro_eq hp (by omega)
    refine ⟨?_, ?_, ?_, ?_⟩
    · rw [List.foldl_cons, h1, ih1, List.map_cons, List.sum_cons, longitudParametro]
      simp only [Nat.cast_add, Nat.cast_ofNat, Nat.cast_one]
      ring
    · rw [List.flatMap_cons, h2, ih2, List.map_cons, List.flatMap_cons]
    · rw [List.flatMap_cons, List.length_append, ih3, h2, List.map_cons, List.sum_cons]
      simp only [bytesParametro, List.length_append, length_ofNat, longitudParametro]
      rfl
    · simp only [List.length_cons, List.map_cons, List.sum_cons, longitudParametro]
      omega

/-- The two passes over the instructions. -/
theorem instrucciones_eq : ∀ {l : List Instruction} {n : ℤ}, SinNul l → 0 ≤ n →
    n + (l.map longitudInstruccion).sum < 2 ^ 31 →
    l.foldl (fun n i => i.parametros.foldl (fun n p => toInt (n + (4 + strlen p + 1)))
      (toInt (n + 4 * 2))) n = n + (l.map longitudInstruccion).sum ∧
    l.flatMap escribirInstruccion = (l.map leida).flatMap bytesInstruccion ∧
    (l.flatMap escribirInstruccion).length = (l.map longitudInstruccion).sum ∧
    l.length ≤ (l.map longitudInstruccion).sum
  | [], n, _, _, _ => by simp
  | i :: l, n, h, h0, hn => by
    simp only [List.map_cons, List.sum_cons, longitudInstruccion] at hn
    simp only [Nat.cast_add, Nat.cast_ofNat] at hn
    have h1 : toInt (n + 4 * 2) = n + 8 := toInt_of_nonneg (by omega) (by omega)
    obtain ⟨hp1, hp2, hp3, hp4⟩ := parametros_eq (l := i.parametros) (n := n + 8)
      (h i List.mem_cons_self) (by omega) (by omega)
    obtain ⟨ih1, ih2, ih3, ih4⟩ := instrucciones_eq (l := l) (n := n + longitudInstruccion i)
      (fun q hq => h q (List.mem_cons_of_mem _ hq)) (by omega)
      (by simp only [longitudInstruccion]; omega)
    have h2 : toU32 i.parametros.length = i.parametros.length := toU32_of_lt (by omega)
    have h3 : escribirInstruccion i = bytesInstruccion (leida i) := by
      rw [escribirInstruccion, bytesInstruccion, h2, hp2]
      simp only [leida, List.length_map]
    refine ⟨?_, ?_, ?_, ?_⟩
    · rw [List.foldl_cons, h1, hp1, List.map_cons, List.sum_cons]
      rw [show n + 8 + ((i.parametros.map longitudParametro).sum : ℤ) = n + longitudInstruccion i by
        simp only [longitudInstruccion]; simp only [Nat.cast_add, Nat.cast_ofNat]; ring, ih1]
      simp only [Nat.cast_add]
      ring
    · rw [List.flatMap_cons, h3, ih2, List.map_cons, List.flatMap_cons]
    · rw [List.flatMap_cons, List.length_append, ih3, List.map_cons, List.sum_cons]
      simp only [escribirInstruccion, List.length_append, length_ofNat, hp3, longitudInstruccion]
    · simp only [List.length_cons, List.map_cons, List.sum_cons, longitudInstruccion]
      omega

/-- What is written of a list of instructions. -/
theorem serializarLista_eq {l : List Instruction} (h : SinNul l) (hl : longitud l < 2 ^ 31) :
    serializarListaInstrucciones l = ⟨longitud l, bytesInstrucciones (l.map leida)⟩ ∧
      (bytesInstrucciones (l.map leida)).length = longitud l := by
  unfold longitud at hl
  obtain ⟨h1, h2, h3, h4⟩ := instrucciones_eq h (le_refl 0) (by omega)
  have h5 : toU32 (streamSize l + 4) = longitud l := by
    rw [streamSize, h1, zero_add, longitud, add_comm 4]
    exact_mod_cast toU32_of_lt (by omega)
  have h6 : toU32 l.length = l.length := toU32_of_lt (by omega)
  refine ⟨?_, ?_⟩
  · rw [serializarListaInstrucciones, h5, h6, h2, bytesInstrucciones, List.length_map]
  · rw [bytesInstrucciones, ← h2, List.length_append, length_ofNat, h3, longitud]

/-! ### Round trips -/

/-- What is decoded of `x` is `y`: the encoder writes as many bytes as it announces, the
decoder gives `y` back, from the bytes and from a package with them, and the bytes of
what is decoded are the same. -/
structure Fiel {α β : Type} (ser : α → Buffer) (des : Buffer → Option β) (dato : β → Option α)
    (x y : α) : Prop where
  tamano : (ser x).stream.length = (ser x).size
  vuelta : ∃ z, des (ser x) = some z ∧ dato z = some y
  paquete : ∀ header < 2 ^ 32, (serializarPaquete ⟨header, ser x⟩).stream.length =
      (serializarPaquete ⟨header, ser x⟩).size ∧
    ∃ package z, deserializarPaquete (serializarPaquete ⟨header, ser x⟩).stream = some package ∧
      package.header = header ∧ des package.payload = some z ∧ dato z = some y
  recodifica : ∀ z w, des (ser x) = some z → dato z = some w → ser w = ser x

/-- The values of the fields as signed 32-bit numbers. -/
def enInt (x : Cpu.Pcb) : Cpu.Pcb := { x with
  id := toInt x.id
  programCounter := toInt x.programCounter
  tablaPaginas := toInt x.tablaPaginas
  cpuExecutedBurst := toInt x.cpuExecutedBurst
  cpuEstimatedBurst := toInt x.cpuEstimatedBurst
  ioBurst := toInt x.ioBurst }

theorem copiar_eq {n : ℕ} {s : List UInt8} (h : s.length = n) : copiar ⟨n, s⟩ = s := by
  unfold copiar
  split
  · exact List.take_of_length_le (le_of_eq h)
  · exact (List.eq_nil_of_length_eq_zero (by simp_all)).symm

/-- A package gives its payload back. -/
theorem paquete_idaYVuelta {header : ℕ} {b : Buffer} (hh : header < 2 ^ 32)
    (hb : b.stream.length = b.size) (hs : b.size < 2 ^ 31) :
    (serializarPaquete ⟨header, b⟩).stream.length = (serializarPaquete ⟨header, b⟩).size ∧
      deserializarPaquete (serializarPaquete ⟨header, b⟩).stream = some ⟨header, b⟩ := by
  obtain ⟨size, stream⟩ := b
  have h1 : (serializarPaquete ⟨header, ⟨size, stream⟩⟩).stream =
      ofNat 4 header ++ (ofNat 4 size ++ (stream ++ [])) := by
    simp only [serializarPaquete, copiar_eq hb, List.append_assoc, List.append_nil]
  have h2 := rest_start h1
  have h3 := h2.word
  have h4 : Rest _ 8 _ := h3.word
  have h5 : toU32 (4 * 2 + size) = 4 * 2 + size := toU32_of_lt (n := 4 * 2 + size) (by
    change size < 2 ^ 31 at hs
    omega)
  constructor
  · rw [h1]
    simp only [List.length_append, length_ofNat, List.length_nil, serializarPaquete, h5]
    change stream.length = size at hb
    omega
  · rw [deserializarPaquete, word_append h2 hh]
    rw [zero_add] at h3
    have hb' : stream.length = size := hb
    simp only [Option.bind_eq_bind, Option.bind_some, word_append h3 (lt_trans hs (by decide)),
      slice_append h4 (n := size) (by rw [hb'])]

/-- It is enough that the decoder gives the value back. -/
theorem fiel_of {α β : Type} {ser : α → Buffer} {des : Buffer → Option β} {dato : β → Option α}
    {x y : α} (ht : (ser x).stream.length = (ser x).size) (hs : (ser x).size < 2 ^ 31)
    (hv : ∃ z, des (ser x) = some z ∧ dato z = some y) (hy : ser y = ser x) :
    Fiel ser des dato x y := by
  obtain ⟨z, hz, hd⟩ := hv
  refine ⟨ht, ⟨z, hz, hd⟩, fun header hh => ?_, fun z' w hz' hw => ?_⟩
  · obtain ⟨h1, h2⟩ := paquete_idaYVuelta hh ht hs
    exact ⟨h1, _, z, h2, rfl, hz, hd⟩
  · rw [hz] at hz'
    cases hz'
    rw [hd] at hw
    cases hw
    exact hy

theorem fiel_lista {l : List Instruction} (h : SinNul l) (hl : longitud l < 2 ^ 31) :
    Fiel serializarListaInstrucciones deserializarListaInstrucciones
      (fun is => some (is.map InstruccionLeida.instruction)) l l := by
  obtain ⟨h1, h2⟩ := serializarLista_eq h hl
  refine fiel_of (by rw [h1]; exact h2) (by rw [h1]; exact hl) ⟨l.map leida, ?_, ?_⟩ rfl
  · rw [h1]
    exact deserializarLista_append (r := []) (by omega) (by rw [List.append_nil])
  · rw [map_instruction_leida h]

theorem fiel_program {p : Program} (h : SinNul p.instructions)
    (hl : 8 + longitud p.instructions < 2 ^ 31) :
    Fiel serializeProgram deserializeProgram (fun q => some q.program) p
      { p with size := toInt p.size } := by
  obtain ⟨h1, h2⟩ := serializarLista_eq h (by omega)
  have h3 : toU32 (2 * 4 + longitud p.instructions) = 8 + longitud p.instructions :=
    toU32_of_lt (n := 8 + longitud p.instructions) (by omega)
  have h4 : serializeProgram p = ⟨8 + longitud p.instructions, ofNat 4 (toU32 p.size) ++
      (ofNat 4 (longitud p.instructions) ++ (bytesInstrucciones (p.instructions.map leida) ++ []))⟩ := by
    simp only [serializeProgram, h1, h3, copiar_eq h2, List.append_assoc, List.append_nil]
  have r1 := rest_start (l := (serializeProgram p).stream) (by rw [h4])
  have r2 : Rest _ 4 _ := r1.word
  have r3 : Rest _ 8 _ := r2.word
  have hd : deserializarListaInstrucciones ⟨longitud p.instructions,
      bytesInstrucciones (p.instructions.map leida)⟩ = some (p.instructions.map leida) :=
    deserializarLista_append (r := []) (by omega) (List.append_nil _).symm
  refine fiel_of ?_ (by rw [h4]; exact hl) ⟨⟨toInt p.size, p.instructions.map leida⟩, ?_, ?_⟩ ?_
  · rw [h4]
    simp only [List.length_append, length_ofNat, h2, List.length_nil]
    omega
  · simp only [deserializeProgram, word_append r1 (toU32_lt _), word_append r2 (by omega),
      slice_append (n := longitud p.instructions) r3 (by rw [h2]), Option.bind_eq_bind,
      Option.bind_some, toInt_toU32, hd]
  · rw [ProgramLeido.program, map_instruction_leida h]
  · simp only [serializeProgram, toU32_toInt]

theorem fiel_pcb {x : Cpu.Pcb} (h : SinNul x.instructions) (hl : 32 + longitud x.instructions < 2 ^ 31) :
    Fiel serializarPcb deserializarPcb PcbLeido.pcb x (enInt x) := by
  obtain ⟨h1, h2⟩ := serializarLista_eq h (by omega)
  have h3 : toU32 (8 * 4 + longitud x.instructions) = 32 + longitud x.instructions :=
    toU32_of_lt (n := 32 + longitud x.instructions) (by omega)
  have h4 : serializarPcb x = ⟨32 + longitud x.instructions, ofNat 4 (toU32 x.id) ++
      (ofNat 4 (toU32 x.programCounter) ++ (ofNat 4 (toU32 x.tablaPaginas) ++
      (ofNat 4 x.cpuDispatchCond.code ++ (ofNat 4 (toU32 x.cpuExecutedBurst) ++
      (ofNat 4 (toU32 x.cpuEstimatedBurst) ++ (ofNat 4 (toU32 x.ioBurst) ++
      (ofNat 4 (longitud x.instructions) ++
      (bytesInstrucciones (x.instructions.map leida) ++ []))))))))⟩ := by
    simp only [serializarPcb, h1, h3, copiar_eq h2, List.append_assoc, List.append_nil]
  have r1 := rest_start (l := (serializarPcb x).stream) (by rw [h4])
  have r2 : Rest _ 4 _ := r1.word
  have r3 : Rest _ 8 _ := r2.word
  have r4 : Rest _ 12 _ := r3.word
  have r5 : Rest _ 16 _ := r4.word
  have r6 : Rest _ 20 _ := r5.word
  have r7 : Rest _ 24 _ := r6.word
  have r8 : Rest _ 28 _ := r7.word
  have r9 : Rest _ 32 _ := r8.word
  have hd : deserializarListaInstrucciones ⟨longitud x.instructions,
      bytesInstrucciones (x.instructions.map leida)⟩ = some (x.instructions.map leida) :=
    deserializarLista_append (r := []) (by omega) (List.append_nil _).symm
  have hc : x.cpuDispatchCond.code < 2 ^ 32 := by cases x.cpuDispatchCond <;> decide
  refine fiel_of ?_ (by rw [h4]; exact hl) ⟨⟨toInt x.id, toInt x.programCounter, toInt x.tablaPaginas,
    x.cpuDispatchCond.code, toInt x.cpuExecutedBurst, toInt x.cpuEstimatedBurst, toInt x.ioBurst,
    x.instructions.map leida⟩, ?_, ?_⟩ ?_
  · rw [h4]
    simp only [List.length_append, length_ofNat, h2, List.length_nil]
    omega
  · simp only [deserializarPcb, word_append r1 (toU32_lt _), word_append r2 (toU32_lt _),
      word_append r3 (toU32_lt _), word_append r4 hc, word_append r5 (toU32_lt _),
      word_append r6 (toU32_lt _), word_append r7 (toU32_lt _), word_append r8 (by omega),
      slice_append (n := longitud x.instructions) r9 (by rw [h2]), Option.bind_eq_bind,
      Option.bind_some, toInt_toU32, hd]
  · have h5 : DispatchCond.ofCode x.cpuDispatchCond.code = some x.cpuDispatchCond := by
      cases x.cpuDispatchCond <;> rfl
    rw [PcbLeido.pcb, h5, map_instruction_leida h]
    rfl
  · simp only [serializarPcb, enInt, toU32_toInt]

/-- **Round trip.** Lists of instructions, programs and PCBs are decoded as they were
encoded, alone and in a package. -/
theorem wire_idaYVuelta :
    (∀ l : List Instruction, SinNul l → longitud l < 2 ^ 31 →
      Fiel serializarListaInstrucciones deserializarListaInstrucciones
        (fun is => some (is.map InstruccionLeida.instruction)) l l) ∧
    (∀ p : Program, SinNul p.instructions → 8 + longitud p.instructions < 2 ^ 31 →
      Fiel serializeProgram deserializeProgram (fun q => some q.program) p
        { p with size := toInt p.size }) ∧
    ∀ x : Cpu.Pcb, SinNul x.instructions → 32 + longitud x.instructions < 2 ^ 31 →
      Fiel serializarPcb deserializarPcb PcbLeido.pcb x (enInt x) :=
  ⟨fun _ h hl => fiel_lista h hl, fun _ h hl => fiel_program h hl, fun _ h hl => fiel_pcb h hl⟩

/-- A PCB with the program `COPY 0 64`, `EXIT`. -/
def copyPcb : Cpu.Pcb := ⟨1, 0, 3, .nullCondition, 0, 5000, -1,
  [⟨.copy, [[48], [54, 52]]⟩, ⟨.exit, []⟩]⟩

theorem wire_idaYVuelta_copy : Fiel serializarPcb deserializarPcb PcbLeido.pcb copyPcb copyPcb :=
  wire_idaYVuelta.2.2 copyPcb (by unfold SinNul; decide +kernel)
    (lt_trans (show 32 + longitud copyPcb.instructions < 100 by decide +kernel) (by omega))

end Serializacion
end Kiss
