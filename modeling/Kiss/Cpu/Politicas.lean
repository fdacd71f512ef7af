/-
# What the TLB holds

After any translations since it was emptied, the TLB holds what its policy says: under LRU
the last pages translated, in order of last use, under FIFO the last entries inserted, in
order of insertion; each page once, with the frame it was inserted with.

Key definitions: `traducir`, `inserciones`, `Contenido`.
Key theorems: `EnOrden.traducir`, `traducciones_contenido`.
-/
import Kiss.Cpu.Mmu
import Kiss.Cpu.Recientes

namespace Kiss
namespace Cpu

/-- A translation: the search and, after a miss, the entry with the frame that the memory
module gave. -/
def traducir (t : Tlb) (x : ℤ × ℕ) : Tlb :=
  match buscarMarco t x.1 with
  | (marco, t') => if 0 ≤ marco then t' else reemplazarEntrada t' ⟨x.1, x.2⟩

def traducciones (t : Tlb) (l : List (ℤ × ℕ)) : Tlb := l.foldl traducir t

/-- The entry that a translation inserts. -/
def insercion (t : Tlb) (x : ℤ × ℕ) : List EntryTlb :=
  if 0 ≤ (buscarMarco t x.1).1 then [] else [⟨x.1, x.2⟩]

/-- The entries that the translations insert. -/
def inserciones : Tlb → List (ℤ × ℕ) → List EntryTlb
  | _, [] => []
  | t, x :: l => insercion t x ++ inserciones (traducir t x) l

/-- What a TLB with room for `n` entries holds after translating `paginas` and inserting
`entradas`. -/
structure Contenido (n : ℕ) (alg : AlgReemplazo) (t : Tlb) (paginas : List ℤ)
    (entradas : List EntryTlb) : Prop where
  tope : t.listaTlb.length ≤ n
  unicas : (t.listaTlb.map (·.pagina)).Nodup
  marco : ∀ e ∈ t.listaTlb, (entradas.filter (·.pagina = e.pagina)).getLast? = some e
  lru : alg = .lru → t.listaTlb.map (·.pagina) = paginas.dedup.rtake n
  fifo : alg = .fifo → t.listaTlb = entradas.rtake n
  acierto : alg = .lru → ∀ p, 0 ≤ (buscarMarco t p).1 ↔
    ∃ l₁ l₂, paginas = l₁ ++ p :: l₂ ∧ p ∉ l₂ ∧ l₂.toFinset.card < n

variable {n : ℕ} {alg : AlgReemplazo} {t : Tlb} {paginas : List ℤ} {entradas : List EntryTlb} {p : ℤ}

/-! ### A search -/

theorem buscarMarco_of_notMem (hp : p ∉ t.listaTlb.map (·.pagina)) : buscarMarco t p = (-1, t) := by
  have h1 : t.listaTlb.find? (·.pagina = p) = none := by
    rw [List.find?_eq_none]
    intro e he hpe
    exact hp (List.mem_map.mpr ⟨e, he, by simpa using hpe⟩)
  unfold buscarMarco
  rw [h1]

/-- The entry that is found; under LRU it goes to the end. -/
theorem buscarMarco_of_mem (hpos : ∀ e ∈ t.listaTlb, 0 ≤ e.marco) (hp : p ∈ t.listaTlb.map (·.pagina)) :
    ∃ e ∈ t.listaTlb, e.pagina = p ∧ buscarMarco t p = (e.marco, if t.protocolo = .lru then
      { t with listaTlb := t.listaTlb.eraseP (·.pagina = p) ++ [e] } else t) := by
  obtain ⟨e0, he0, hpe0⟩ := List.mem_map.mp hp
  have hsome : (t.listaTlb.find? (·.pagina = p)).isSome :=
    List.find?_isSome.mpr ⟨e0, he0, by simpa using hpe0⟩
  obtain ⟨e, he⟩ := Option.isSome_iff_exists.mp hsome
  have hmem := List.mem_of_find?_eq_some he
  have hne : e.marco ≠ -1 := by
    have := hpos e hmem
    omega
  refine ⟨e, hmem, by simpa using List.find?_some he, ?_⟩
  unfold buscarMarco
  rw [he]
  by_cases hl : t.protocolo = .lru
  · simp only [hl, hne, ne_eq, not_false_eq_true, and_self, if_true]
  · simp only [hl, and_false, if_false]

theorem map_eraseP (l : List EntryTlb) (p : ℤ) :
    (l.eraseP (·.pagina = p)).map (·.pagina) = (l.map (·.pagina)).erase p := by
  rw [List.erase_eq_eraseP, List.eraseP_map]
  congr 2
  funext e
  by_cases he : e.pagina = p
  · simp [he]
  · simp [he, Ne.symm he]

theorem listaTlb_reemplazarEntrada (e : EntryTlb) : (reemplazarEntrada t e).listaTlb =
    (if t.listaTlb.length < t.cantEntradas then t.listaTlb else t.listaTlb.tail) ++ [e] := by
  unfold reemplazarEntrada
  split_ifs
  · rfl
  · cases t.protocolo <;> rfl

theorem reemplazarEntrada_config (e : EntryTlb) : (reemplazarEntrada t e).cantEntradas = t.cantEntradas ∧
    (reemplazarEntrada t e).protocolo = t.protocolo := by
  unfold reemplazarEntrada
  split_ifs
  · exact ⟨rfl, rfl⟩
  · split <;> exact ⟨rfl, rfl⟩

/-! ### One translation -/

/-- The list of the TLB against what has been translated and inserted so far. -/
structure EnOrden (n : ℕ) (alg : AlgReemplazo) (t : Tlb) (paginas : List ℤ) (entradas : List EntryTlb) :
    Prop where
  cant : t.cantEntradas = n
  protocolo : t.protocolo = alg
  positiva : ∀ e ∈ t.listaTlb, 0 ≤ e.marco
  tope : t.listaTlb.length ≤ n
  unicas : (t.listaTlb.map (·.pagina)).Nodup
  marco : ∀ e ∈ t.listaTlb, (entradas.filter (·.pagina = e.pagina)).getLast? = some e
  lru : alg = .lru → t.listaTlb.map (·.pagina) = paginas.dedup.rtake n
  fifo : alg = .fifo → t.listaTlb = entradas.rtake n

theorem EnOrden.vacia (t : Tlb) : EnOrden t.cantEntradas.toNat t.protocolo (limpiarTlb t) [] [] where
  cant := (Int.toNat_of_nonneg t.pos.le).symm
  protocolo := rfl
  positiva e he := absurd he (mem_limpiarTlb t e)
  tope := Nat.zero_le _
  unicas := List.nodup_nil
  marco e he := absurd he (mem_limpiarTlb t e)
  lru _ := by rw [List.dedup_nil, List.rtake_nil]; rfl
  fifo _ := by rw [List.rtake_nil]; rfl

/-- A hit: under LRU its page becomes the last one. -/
theorem EnOrden.acierto (h : EnOrden n alg t paginas entradas) {x : ℤ × ℕ}
    (hx : x.1 ∈ t.listaTlb.map (·.pagina)) :
    insercion t x = [] ∧ EnOrden n alg (Cpu.traducir t x) (paginas ++ [x.1]) entradas := by
  obtain ⟨e, he, hpe, hb⟩ := buscarMarco_of_mem h.positiva hx
  have h1 : Cpu.traducir t x = if t.protocolo = .lru then
      { t with listaTlb := t.listaTlb.eraseP (·.pagina = x.1) ++ [e] } else t := by
    unfold Cpu.traducir
    rw [hb]
    exact if_pos (h.positiva e he)
  refine ⟨by rw [insercion, hb]; exact if_pos (h.positiva e he), ?_⟩
  rw [h1]
  by_cases hl : t.protocolo = .lru
  · rw [if_pos hl]
    have hl' : alg = .lru := h.protocolo ▸ hl
    have hmem : ∀ {e'}, e' ∈ t.listaTlb.eraseP (·.pagina = x.1) ++ [e] → e' ∈ t.listaTlb := by
      intro e' he'
      rcases List.mem_append.mp he' with h2 | h2
      · exact List.mem_of_mem_eraseP h2
      · rw [List.mem_singleton.mp h2]
        exact he
    have hpag : (t.listaTlb.eraseP (·.pagina = x.1) ++ [e]).map (·.pagina) =
        (t.listaTlb.map (·.pagina)).erase x.1 ++ [x.1] := by
      rw [List.map_append, map_eraseP, List.map_singleton, hpe]
    refine ⟨h.cant, h.protocolo, fun e' he' => h.positiva e' (hmem he'), ?_, ?_,
      fun e' he' => h.marco e' (hmem he'), fun _ => ?_, fun hf => ?_⟩
    · have h2 : (t.listaTlb.eraseP (·.pagina = x.1) ++ [e]).length = t.listaTlb.length := by
        rw [← List.length_map (f := (·.pagina)), hpag, List.length_append, List.length_erase_of_mem hx,
          List.length_map, List.length_singleton]
        have h3 := List.length_pos_of_mem he
        omega
      exact h2 ▸ h.tope
    · rw [hpag, List.nodup_append]
      refine ⟨h.unicas.erase _, List.nodup_singleton _, fun a ha b hb' => ?_⟩
      rw [List.mem_singleton.mp hb']
      exact ((h.unicas.mem_erase_iff).mp ha).1
    · rw [hpag, h.lru hl']
      rw [h.lru hl'] at hx
      exact (Recientes.rtake_dedup_concat_of_mem hx).symm
    · rw [hl'] at hf
      cases hf
  · rw [if_neg hl]
    exact ⟨h.cant, h.protocolo, h.positiva, h.tope, h.unicas, h.marco,
      fun hl' => absurd (h.protocolo.trans hl') hl, h.fifo⟩

/-- A miss: the page takes the room that there is, or the place of the first one. -/
theorem EnOrden.fallo (h : EnOrden n alg t paginas entradas) (hn : 0 < n) {x : ℤ × ℕ}
    (hx : x.1 ∉ t.listaTlb.map (·.pagina)) : insercion t x = [⟨x.1, x.2⟩] ∧
      EnOrden n alg (Cpu.traducir t x) (paginas ++ [x.1]) (entradas ++ [⟨x.1, x.2⟩]) := by
  have hb := buscarMarco_of_notMem hx
  have h1 : Cpu.traducir t x = reemplazarEntrada t ⟨x.1, x.2⟩ := by
    unfold Cpu.traducir
    rw [hb]
    rfl
  refine ⟨by rw [insercion, hb]; rfl, ?_⟩
  rw [h1]
  obtain ⟨hcant, hprot⟩ := reemplazarEntrada_config (t := t) ⟨x.1, x.2⟩
  have hlista := listaTlb_reemplazarEntrada (t := t) ⟨x.1, x.2⟩
  simp only [h.cant, Int.ofNat_lt] at hlista
  have hmem : ∀ {e}, e ∈ (reemplazarEntrada t ⟨x.1, x.2⟩).listaTlb → e ∈ t.listaTlb ∨ e = ⟨x.1, x.2⟩ :=
    mem_reemplazarEntrada
  have hviejas : ∀ e ∈ t.listaTlb, e.pagina ≠ x.1 := fun e he hpe => hx (List.mem_map.mpr ⟨e, he, hpe⟩)
  refine ⟨hcant.trans h.cant, hprot.trans h.protocolo, fun e he => ?_, ?_, ?_, fun e he => ?_, fun hl => ?_,
    fun hf => ?_⟩
  · rcases hmem he with h2 | rfl
    · exact h.positiva e h2
    · exact Int.natCast_nonneg _
  · have h2 := h.tope
    rw [hlista, List.length_append, List.length_singleton]
    split_ifs with hlt
    · exact hlt
    · rw [List.length_tail]
      omega
  · have h2 : ((if t.listaTlb.length < n then t.listaTlb else t.listaTlb.tail).map (·.pagina)).Nodup ∧
        ∀ e ∈ (if t.listaTlb.length < n then t.listaTlb else t.listaTlb.tail), e ∈ t.listaTlb := by
      split_ifs
      · exact ⟨h.unicas, fun _ => id⟩
      · rw [List.map_tail]
        exact ⟨h.unicas.tail, fun _ => List.mem_of_mem_tail⟩
    rw [hlista, List.map_append, List.map_singleton, List.nodup_append]
    refine ⟨h2.1, List.nodup_singleton _, fun a ha b hb' => ?_⟩
    obtain ⟨e, he, rfl⟩ := List.mem_map.mp ha
    rw [List.mem_singleton.mp hb']
    exact hviejas e (h2.2 e he)
  · rw [List.filter_append]
    rcases hmem he with h2 | rfl
    · rw [List.filter_cons_of_neg (by simpa using Ne.symm (hviejas e h2)), List.filter_nil, List.append_nil]
      exact h.marco e h2
    · rw [List.filter_cons_of_pos (by simp), List.filter_nil, List.getLast?_concat]
  · have h2 := h.lru hl
    rw [h2] at hx
    have hlen : t.listaTlb.length = (paginas.dedup.rtake n).length := by
      rw [← h2, List.length_map]
    rw [hlista, List.map_append, List.map_singleton]
    split_ifs with hlt
    · rw [h2, Recientes.rtake_dedup_concat_of_lt hx (hlen ▸ hlt)]
    · rw [List.map_tail, h2, Recientes.rtake_dedup_concat_of_le hn hx (hlen ▸ not_lt.mp hlt)]
  · have h2 := h.fifo hf
    rw [hlista]
    split_ifs with hlt
    · rw [h2] at hlt ⊢
      exact (Recientes.rtake_concat_of_lt hlt _).symm
    · rw [h2] at hlt ⊢
      exact (Recientes.rtake_concat_of_le hn (not_lt.mp hlt) _).symm

theorem EnOrden.traducir (h : EnOrden n alg t paginas entradas) (hn : 0 < n) (x : ℤ × ℕ) :
    EnOrden n alg (Cpu.traducir t x) (paginas ++ [x.1]) (entradas ++ insercion t x) := by
  by_cases hx : x.1 ∈ t.listaTlb.map (·.pagina)
  · obtain ⟨h1, h2⟩ := h.acierto hx
    rw [h1, List.append_nil]
    exact h2
  · obtain ⟨h1, h2⟩ := h.fallo hn hx
    rw [h1]
    exact h2

/-! ### All of them -/

theorem EnOrden.traducciones (hn : 0 < n) : ∀ (l : List (ℤ × ℕ)) {t : Tlb} {paginas : List ℤ}
    {entradas : List EntryTlb}, EnOrden n alg t paginas entradas →
      EnOrden n alg (Cpu.traducciones t l) (paginas ++ l.map (·.1)) (entradas ++ inserciones t l)
  | [], t, paginas, entradas, h => by
    rw [List.map_nil, List.append_nil, inserciones, List.append_nil]
    exact h
  | x :: l, t, paginas, entradas, h => by
    have h1 := EnOrden.traducciones hn l (h.traducir hn x)
    rw [List.append_assoc, List.append_assoc] at h1
    exact h1

/-- A hit is a page that the list has. -/
theorem EnOrden.acierto_iff (h : EnOrden n alg t paginas entradas) (p : ℤ) :
    0 ≤ (buscarMarco t p).1 ↔ p ∈ t.listaTlb.map (·.pagina) := by
  by_cases hp : p ∈ t.listaTlb.map (·.pagina)
  · obtain ⟨e, he, -, hb⟩ := buscarMarco_of_mem h.positiva hp
    rw [hb]
    exact ⟨fun _ => hp, fun _ => h.positiva e he⟩
  · rw [buscarMarco_of_notMem hp]
    exact ⟨fun h => absurd h (Int.not_le.mpr (Int.neg_neg_of_pos Int.one_pos)), fun h => absurd h hp⟩

/-- **What the TLB holds** after any translations since it was emptied. -/
theorem traducciones_contenido (t : Tlb) (l : List (ℤ × ℕ)) :
    Contenido t.cantEntradas.toNat t.protocolo (traducciones (limpiarTlb t) l) (l.map (·.1))
      (inserciones (limpiarTlb t) l) := by
  have hn : 0 < t.cantEntradas.toNat := by
    have := t.pos
    omega
  have h := (EnOrden.vacia t).traducciones hn l
  rw [List.nil_append, List.nil_append] at h
  refine ⟨h.tope, h.unicas, h.marco, h.lru, h.fifo, fun hl p => ?_⟩
  rw [h.acierto_iff, h.lru hl, Recientes.mem_rtake_dedup]

/-! ### The translations of the MMU -/

/-- A translation that the MMU completes is a `traducir` with its frame. -/
theorem direccionFisica_traducir {σ : Type*} (srv : Servidor σ) (m : Mmu) (s : σ) (pcb : Pcb) (dirLogica : ℤ)
    (h : (direccionFisica srv m s pcb dirLogica).1.acierto = true) : ∃ marco : ℕ,
      (direccionFisica srv m s pcb dirLogica).1.marco = marco ∧
      (direccionFisica srv m s pcb dirLogica).2.1.tlb =
        traducir m.tlb (numPag m.configMemoria dirLogica, marco) := by
  have h1 := direccionFisica_traduce srv m s pcb dirLogica
  revert h h1
  generalize direccionFisica srv m s pcb dirLogica = x
  intro h h1
  unfold traducir
  cases h1 with
  | tlb hb =>
    refine ⟨_, (Int.toNat_of_nonneg hb).symm, ?_⟩
    dsimp only
    rw [if_pos hb]
  | error marco s' hb => cases h
  | memoria segundo marco s₁ s₂ hb _ _ _ hm =>
    refine ⟨_, (Int.toNat_of_nonneg hm).symm, ?_⟩
    dsimp only
    rw [if_neg (Int.not_le.mpr hb), Int.toNat_of_nonneg hm]

end Cpu
end Kiss
