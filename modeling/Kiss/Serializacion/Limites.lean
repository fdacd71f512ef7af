/-
# What the decoders read

The decoders take counts and lengths from the payload and compare none with its
size. Where the payload is a complete encoding they stay inside it and every
parameter has its NUL (`decodificadores_iff`); they read outside it exactly where a
count or a length goes beyond (`dentro_program_iff`, `dentro_pcb_iff`), and every
other payload becomes a program or a PCB.

Key definitions: `Estructura`, `Completa`, `Segura`.
Key theorems: `recieve_payload`, `dentro_program_iff`, `dentro_pcb_iff`,
`decodificadores_iff`, `not_segura`.
-/
import Kiss.Serializacion.Mensajes

namespace Kiss
namespace Serializacion

open Bytes

/-- `MC_PCB`, `MC_PROGRAM`. -/
def mcPcb : ℕ := 902
def mcProgram : ℕ := 904

/-- The payload begins with `n` numbers, the length of a buffer and the buffer, which
begins with a list of instructions. -/
def Estructura (n : ℕ) (b : List UInt8) : Prop :=
  ∃ campos s is resto resto', campos.length = 4 * n ∧ b = campos ++ (ofNat 4 s.length ++ (s ++ resto)) ∧
    s = bytesInstrucciones is ++ resto'

/-- The parameters of a received list are strings. -/
def Terminadas (is : List InstruccionLeida) : Prop := ∀ i ∈ is, ∀ p ∈ i.parametros, 0 ∈ p

/-- The payload is `n` numbers, the length of a list of instructions and the list, whose
parameters end in their NUL. -/
def Completa (n : ℕ) (b : List UInt8) : Prop :=
  ∃ campos is, campos.length = 4 * n ∧ Terminadas is ∧
    b = campos ++ (ofNat 4 (bytesInstrucciones is).length ++ bytesInstrucciones is)

/-- A decoder reads inside the payload, every parameter it returns is a string, and it
returns something only for a complete encoding. -/
structure Segura {β : Type} (des : Buffer → Option β) (instructions : β → List InstruccionLeida)
    (completa : List UInt8 → Prop) (payload : Buffer) : Prop where
  dentro : ∃ z, des payload = some z
  terminadas : ∀ z, des payload = some z → Terminadas (instructions z)
  rechaza : ∀ z, des payload = some z → completa payload.stream

/-! ### What is received -/

theorem value_lt_word {b : List UInt8} (h : b.length ≤ 4) : value b < 2 ^ 32 :=
  lt_of_lt_of_le (value_lt b) (Nat.pow_le_pow_right (by decide) h)

theorem recievePayload_payload {errno header n : ℕ} {s : List UInt8} (hn : n < 2 ^ 32)
    (h : (recievePayload errno header n s).1.header ≠ errorPackage) :
    (recievePayload errno header n s).1.payload.stream.length =
      (recievePayload errno header n s).1.payload.size ∧
    (recievePayload errno header n s).1.payload.size < 2 ^ 31 := by
  have hb : (recv s n).1.length ≤ n := by
    simp only [recv, List.length_take]
    omega
  by_cases h1 : toInt (recv s n).1.length = 0
  · simp only [recievePayload, if_pos h1] at h
    exact absurd rfl h
  by_cases h2 : toInt (recv s n).1.length < 0
  · simp only [recievePayload, if_neg h1, if_pos h2] at h
    exact absurd rfl h
  by_cases h3 : n ≠ toU32 (toInt (recv s n).1.length)
  · simp only [recievePayload, if_neg h1, if_neg h2, if_pos h3] at h
    exact absurd rfl h
  · have h4 : (recv s n).1.length = n := by
      have := not_not.mp h3
      rw [toU32_toInt, toU32_of_lt (by omega)] at this
      exact this.symm
    have h5 : n < 2 ^ 31 := by
      unfold toInt at h2
      rw [h4] at h2
      by_contra hge
      apply h2
      rw [Int.bmod_eq_emod]
      split_ifs <;> omega
    simp only [recievePayload, if_neg h1, if_neg h2, if_neg h3]
    exact ⟨h4, h5⟩

theorem recieveSize_payload {errno header : ℕ} {s : List UInt8}
    (h : (recieveSize errno header s).1.header ≠ errorPackage) :
    (recieveSize errno header s).1.payload.stream.length =
      (recieveSize errno header s).1.payload.size ∧
    (recieveSize errno header s).1.payload.size < 2 ^ 31 := by
  have hv : value (recv s 4).1 < 2 ^ 32 := value_lt_word (by simp [recv])
  by_cases h1 : toInt (recv s 4).1.length = 0
  · simp only [recieveSize, if_pos h1] at h
    exact absurd rfl h
  by_cases h2 : toInt (recv s 4).1.length < 0
  · simp only [recieveSize, if_neg h1, if_pos h2] at h
    exact absurd rfl h
  by_cases h3 : 0 < value (recv s 4).1
  · simp only [recieveSize, if_neg h1, if_neg h2, if_pos h3] at h ⊢
    exact recievePayload_payload hv h
  · simp only [recieveSize, if_neg h1, if_neg h2, if_neg h3]
    decide

/-- The payload of a message that is not an error has the size it says, which is below
2^31. -/
theorem recieve_payload {errno : ℕ} {s : List UInt8}
    (h0 : (recieveMessage errno s).1.header ≠ emptyPackage)
    (h : (recieveMessage errno s).1.header ≠ errorPackage) :
    (recieveMessage errno s).1.payload.stream.length = (recieveMessage errno s).1.payload.size ∧
      (recieveMessage errno s).1.payload.size < 2 ^ 31 := by
  by_cases h1 : toInt (recv s 4).1.length = 0
  · simp only [recieveMessage, if_pos h1] at h0
    exact absurd rfl h0
  by_cases h2 : toInt (recv s 4).1.length < 0
  · simp only [recieveMessage, if_neg h1, if_pos h2] at h0
    exact absurd rfl h0
  simp only [recieveMessage, if_neg h1, if_neg h2] at h ⊢
  exact recieveSize_payload h

/-! ### The decoders -/

section Decodificadores

variable {b : List UInt8} {n : ℕ}

/-- The two reads that both decoders end with: the length after `k` numbers and the buffer. -/
theorem estructura_of_slice {k size : ℕ} {s : List UInt8} {is : List InstruccionLeida}
    (hb : b.length < 2 ^ 31) (h1 : word b (4 * k : ℕ) = some size)
    (h2 : slice b (4 * (k + 1) : ℕ) size = some s)
    (h3 : deserializarListaInstrucciones ⟨size, s⟩ = some is) : Estructura k b := by
  obtain ⟨b1, hb1, rfl⟩ := Option.map_eq_some_iff.mp h1
  obtain ⟨h4, r, h5⟩ := rest_of_slice hb1
  obtain ⟨h6, r', h7⟩ := slice_some (r := r) (by
    have := h5.append
    rwa [h4] at this) (by
    have h8 : ((4 * k : ℕ) : ℤ) + 4 = (4 * (k + 1) : ℕ) := by
      push_cast
      ring
    rwa [← h8] at h2)
  have hs : s.length < 2 ^ 31 := by
    have := h5.length
    rw [h7] at this
    simp only [List.length_append] at this
    push_cast at this
    omega
  obtain ⟨resto', h8⟩ := deserializarLista_some hs h3
  obtain ⟨campos, h9, h10⟩ := h5
  have h11 : ofNat 4 s.length = b1 := by
    have h12 := ofNat_value b1
    have h13 : b1.length = 4 := by omega
    have h14 : s.length = value b1 := by omega
    rw [h13] at h12
    rw [h14, h12]
  exact ⟨campos, s, is, r', resto', by omega, by rw [h11, h9, h7], h8⟩

/-- Where the payload has the structure, they succeed and give the list. -/
theorem slice_of_estructura {k : ℕ} {campos s resto resto' : List UInt8}
    {is : List InstruccionLeida} (hc : campos.length = 4 * k) (hl : b.length < 2 ^ 31)
    (hb : b = campos ++ (ofNat 4 s.length ++ (s ++ resto)))
    (hs : s = bytesInstrucciones is ++ resto') :
    word b (4 * k : ℕ) = some s.length ∧ slice b (4 * (k + 1) : ℕ) s.length = some s ∧
      deserializarListaInstrucciones ⟨s.length, s⟩ = some is := by
  have h1 : Rest b (4 * k : ℕ) (ofNat 4 s.length ++ (s ++ resto)) := ⟨campos, hb, by rw [hc]⟩
  have h2 := h1.word
  have h3 : ((4 * k : ℕ) : ℤ) + 4 = (4 * (k + 1) : ℕ) := by
    push_cast
    ring
  have h4 : s.length < 2 ^ 31 := by
    rw [hb] at hl
    simp only [List.length_append] at hl
    omega
  exact ⟨word_append h1 (by omega), slice_append (h3 ▸ h2) rfl, deserializarLista_append h4 hs⟩

theorem length_of_estructura {k : ℕ} {campos s resto : List UInt8} (hc : campos.length = 4 * k)
    (hb : b = campos ++ (ofNat 4 s.length ++ (s ++ resto))) : 4 * k + 4 ≤ b.length := by
  rw [hb]
  simp only [List.length_append, length_ofNat]
  omega

/-- `deserialize_program` gives the list of the structure. -/
theorem deserializeProgram_of_estructura {campos s resto resto' : List UInt8}
    {is : List InstruccionLeida} (hc : campos.length = 4 * 1) (hl : b.length < 2 ^ 31)
    (hb : b = campos ++ (ofNat 4 s.length ++ (s ++ resto)))
    (hs : s = bytesInstrucciones is ++ resto') :
    ∃ z, deserializeProgram ⟨n, b⟩ = some z ∧ z.instructions = is := by
  obtain ⟨h1, h2, h3⟩ := slice_of_estructura hc hl hb hs
  have h4 := length_of_estructura hc hb
  obtain ⟨m, h5⟩ := word_of_le (l := b) (i := 0) (le_refl 0) (by omega)
  refine ⟨⟨toInt m, is⟩, ?_, rfl⟩
  have h6 : word b 4 = some s.length := h1
  have h7 : slice b 8 s.length = some s := h2
  simp only [deserializeProgram, h5, h6, h7, h3, Option.bind_eq_bind, Option.bind_some]

theorem deserializarPcb_of_estructura {campos s resto resto' : List UInt8}
    {is : List InstruccionLeida} (hc : campos.length = 4 * 7) (hl : b.length < 2 ^ 31)
    (hb : b = campos ++ (ofNat 4 s.length ++ (s ++ resto)))
    (hs : s = bytesInstrucciones is ++ resto') :
    ∃ z, deserializarPcb ⟨n, b⟩ = some z ∧ z.instructions = is := by
  obtain ⟨h1, h2, h3⟩ := slice_of_estructura hc hl hb hs
  have h4 := length_of_estructura hc hb
  have hw : ∀ i : ℤ, 0 ≤ i → i ≤ 24 → ∃ m, word b i = some m := fun i h0 hi =>
    word_of_le h0 (by omega)
  obtain ⟨m1, w1⟩ := hw 0 (by decide) (by decide)
  obtain ⟨m2, w2⟩ := hw 4 (by decide) (by decide)
  obtain ⟨m3, w3⟩ := hw 8 (by decide) (by decide)
  obtain ⟨m4, w4⟩ := hw 12 (by decide) (by decide)
  obtain ⟨m5, w5⟩ := hw 16 (by decide) (by decide)
  obtain ⟨m6, w6⟩ := hw 20 (by decide) (by decide)
  obtain ⟨m7, w7⟩ := hw 24 (by decide) (by decide)
  refine ⟨⟨toInt m1, toInt m2, toInt m3, m4, toInt m5, toInt m6, toInt m7, is⟩, ?_, rfl⟩
  have h6 : word b 28 = some s.length := h1
  have h7 : slice b 32 s.length = some s := h2
  simp only [deserializarPcb, w1, w2, w3, w4, w5, w6, w7, h6, h7, h3, Option.bind_eq_bind,
    Option.bind_some]

/-- `deserialize_program` reads inside the payload exactly where it has the structure. -/
theorem dentro_program_iff (hl : b.length < 2 ^ 31) :
    (∃ z, deserializeProgram ⟨n, b⟩ = some z) ↔ Estructura 1 b := by
  constructor
  · rintro ⟨z, h⟩
    simp only [deserializeProgram, Option.bind_eq_bind, Option.bind_eq_some_iff] at h
    obtain ⟨-, -, size, h2, s, h3, is, h4, -⟩ := h
    exact estructura_of_slice hl h2 h3 h4
  · rintro ⟨campos, s, is, resto, resto', hc, hb, hs⟩
    obtain ⟨z, hz, -⟩ := deserializeProgram_of_estructura (n := n) hc hl hb hs
    exact ⟨z, hz⟩

theorem dentro_pcb_iff (hl : b.length < 2 ^ 31) :
    (∃ z, deserializarPcb ⟨n, b⟩ = some z) ↔ Estructura 7 b := by
  constructor
  · rintro ⟨z, h⟩
    simp only [deserializarPcb, Option.bind_eq_bind, Option.bind_eq_some_iff] at h
    obtain ⟨-, -, -, -, -, -, -, -, -, -, -, -, -, -, size, h2, s, h3, is, h4, -⟩ := h
    exact estructura_of_slice hl h2 h3 h4
  · rintro ⟨campos, s, is, resto, resto', hc, hb, hs⟩
    obtain ⟨z, hz, -⟩ := deserializarPcb_of_estructura (n := n) hc hl hb hs
    exact ⟨z, hz⟩

/-- A decoder that gives the list of every structure is safe exactly on the complete
encodings: it gives something for every other one as well. -/
theorem segura_iff {β : Type} {des : Buffer → Option β} {instructions : β → List InstruccionLeida}
    {k : ℕ} (hd : ∀ {campos s resto resto' : List UInt8} {is : List InstruccionLeida},
      campos.length = 4 * k → b = campos ++ (ofNat 4 s.length ++ (s ++ resto)) →
      s = bytesInstrucciones is ++ resto' → ∃ z, des ⟨n, b⟩ = some z ∧ instructions z = is) :
    Segura des instructions (Completa k) ⟨n, b⟩ ↔ Completa k b := by
  constructor
  · intro h
    obtain ⟨z, hz⟩ := h.dentro
    exact h.rechaza z hz
  · intro h
    have hcomp := h
    obtain ⟨campos, is, hc, ht, hb⟩ := h
    obtain ⟨z, hz, hi⟩ := @hd _ _ [] [] _ hc (by rw [List.append_nil]; exact hb)
      (List.append_nil _).symm
    refine ⟨⟨z, hz⟩, fun z' hz' => ?_, fun _ _ => hcomp⟩
    rw [hz] at hz'
    cases hz'
    rw [hi]
    exact ht

end Decodificadores

/-- `deserializar_lista_instrucciones` on the buffer that the other decoders give it. -/
def CompletaLista (b : List UInt8) : Prop := ∃ is, Terminadas is ∧ b = bytesInstrucciones is

/-- **Decoders.** On a payload received under their header, and on the buffer inside it,
the decoders are safe exactly where it is a complete encoding. -/
theorem decodificadores_iff (errno : ℕ) (socket : List UInt8) :
    ((recieveMessage errno socket).1.header = mcProgram →
      (Segura deserializeProgram ProgramLeido.instructions (Completa 1)
        (recieveMessage errno socket).1.payload ↔
        Completa 1 (recieveMessage errno socket).1.payload.stream)) ∧
    ((recieveMessage errno socket).1.header = mcPcb →
      (Segura deserializarPcb PcbLeido.instructions (Completa 7)
        (recieveMessage errno socket).1.payload ↔
        Completa 7 (recieveMessage errno socket).1.payload.stream)) ∧
    ∀ b : List UInt8, b.length < 2 ^ 31 →
      (Segura deserializarListaInstrucciones id CompletaLista ⟨b.length, b⟩ ↔ CompletaLista b) := by
  refine ⟨fun h => ?_, fun h => ?_, fun b hb => ?_⟩
  · obtain ⟨h1, h2⟩ := recieve_payload (by rw [h]; decide) (by rw [h]; decide)
    generalize (recieveMessage errno socket).1.payload = p at h1 h2 ⊢
    obtain ⟨n, b⟩ := p
    have hl : b.length < 2 ^ 31 := lt_of_eq_of_lt h1 h2
    exact segura_iff fun hc hb hs => deserializeProgram_of_estructura hc hl hb hs
  · obtain ⟨h1, h2⟩ := recieve_payload (by rw [h]; decide) (by rw [h]; decide)
    generalize (recieveMessage errno socket).1.payload = p at h1 h2 ⊢
    obtain ⟨n, b⟩ := p
    have hl : b.length < 2 ^ 31 := lt_of_eq_of_lt h1 h2
    exact segura_iff fun hc hb hs => deserializarPcb_of_estructura hc hl hb hs
  · constructor
    · intro h
      obtain ⟨z, hz⟩ := h.dentro
      exact h.rechaza z hz
    · rintro ⟨is, ht, hs⟩
      have hz : deserializarListaInstrucciones ⟨b.length, b⟩ = some is :=
        deserializarLista_append (r := []) hb (by rw [List.append_nil, hs])
      refine ⟨⟨is, hz⟩, fun z h => ?_, fun _ _ => ⟨is, ht, hs⟩⟩
      rw [hz] at h
      cases h
      exact ht

/-- A program with one instruction less than it says. -/
theorem not_segura : ¬ ∀ errno socket, (recieveMessage errno socket).1.header = mcProgram →
    Segura deserializeProgram ProgramLeido.instructions (Completa 1)
      (recieveMessage errno socket).1.payload := by
  intro h
  have h1 : (recieveMessage 0 (ofNat 4 904 ++ ofNat 4 12 ++ ofNat 4 64 ++ ofNat 4 4 ++ ofNat 4 1)).1 =
      ⟨904, ⟨12, ofNat 4 64 ++ ofNat 4 4 ++ ofNat 4 1⟩⟩ := by
    decide +kernel
  have h2 := (h 0 _ (by rw [h1]; rfl)).dentro
  rw [h1] at h2
  have h3 : deserializeProgram ⟨12, ofNat 4 64 ++ ofNat 4 4 ++ ofNat 4 1⟩ = none := by
    decide +kernel
  rw [h3] at h2
  obtain ⟨z, hz⟩ := h2
  cases hz

end Serializacion
end Kiss
