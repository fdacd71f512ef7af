/-
# The TLB against any other choice

Each time the TLB does not have the page, the MMU asks the memory module twice. Under FIFO as
under LRU it asks twice for no page while the addresses translated name no more pages than it
has entries, so it is a conservative store: no other way to choose the entry that is replaced,
with as many entries or fewer, saves more than the factor of `traducciones_competitivas`,
whatever the memory module answers and however its state changes in between.

Key definitions: `Traducciones`, `Reciente`.
Key theorems: `Traducciones.conservador`, `traducciones_competitivas`.
-/
import Kiss.Competencia
import Kiss.Cpu.Condicion
import Kiss.Cpu.Politicas

namespace Kiss
namespace Cpu

open Competencia

/-- The dispatches and the translations that the MMU completes, with what is seen of each: the
page, and whether the TLB had it. -/
inductive Traducciones (σ : Type*) (m₀ : Mmu) : List (Suceso ℤ) → Mmu → Prop
  | inicio (h : m₀.tlb.listaTlb = []) : Traducciones σ m₀ [] m₀
  | despacho {tr m} (h : Traducciones σ m₀ tr m) :
      Traducciones σ m₀ (tr ++ [none]) { m with tlb := limpiarTlb m.tlb }
  | traduccion {tr m dir m' s'} (srv : Servidor σ) (s : σ) (pcb : Pcb) (dirLogica : ℤ)
      (h : Traducciones σ m₀ tr m) (ht : direccionFisica srv m s pcb dirLogica = (dir, m', s'))
      (ha : dir.acierto = true) :
      Traducciones σ m₀ (tr ++ [some (dir.numPag, decide ((buscarMarco m.tlb dir.numPag).1 < 0))]) m'

variable {n : ℕ} {alg : AlgReemplazo} {t : Tlb} {tr a b : List (Suceso ℤ)} {x : ℤ}

/-! ### The end of a list -/

/-- What is at the end of a list is among its last elements. -/
theorem mem_rtake_of_suffix {α : Type*} {y : α} {l l' : List α} (h : l' <:+ l) (hn : l'.length ≤ n)
    (hy : y ∈ l') : y ∈ l.rtake n := by
  obtain ⟨u, rfl⟩ := h
  rw [List.rtake, List.length_append, List.drop_append_of_le_length (by omega)]
  exact List.mem_append_right _ hy

/-- A part without `none` at the end of a list is at the end of what comes after the last
`none`. -/
theorem suffix_of_sinVaciar {u v : List (Suceso ℤ)} (h : u ++ v = a ++ b) (hb : none ∉ b)
    (hu : u = [] ∨ ∃ w, u = w ++ [none]) : b <:+ v := by
  rcases List.append_eq_append_iff.mp h with ⟨w, rfl, rfl⟩ | ⟨w, rfl, rfl⟩
  · exact List.suffix_append _ _
  · rcases List.eq_nil_or_concat w with rfl | ⟨w, e, rfl⟩
    · exact List.suffix_rfl
    · exfalso
      rw [List.concat_eq_append] at hu hb
      rcases hu with hu | ⟨w', hu⟩
      · simp at hu
      · rw [← List.append_assoc] at hu
        obtain rfl := List.singleton_inj.mp (List.append_inj' hu rfl).2
        exact hb (by simp)

/-! ### What the TLB has -/

/-- The pages translated since the TLB was emptied are those of `v`, and the entries inserted
are those of the pages that it missed. -/
structure Reciente (n : ℕ) (alg : AlgReemplazo) (t : Tlb) (tr v : List (Suceso ℤ)) : Prop where
  final : ∃ u, tr = u ++ v ∧ (u = [] ∨ ∃ w, u = w ++ [none])
  sinVaciar : none ∉ v
  orden : ∃ entradas, EnOrden n alg t (v.filterMap (Option.map Prod.fst)) entradas ∧
    entradas.map (·.pagina) = fallados v

namespace Reciente

variable {v : List (Suceso ℤ)}

theorem vacia (tr : List (Suceso ℤ)) (h : EnOrden n alg t [] []) (ht : tr = [] ∨ ∃ w, tr = w ++ [none]) :
    Reciente n alg t tr [] :=
  ⟨⟨tr, (List.append_nil _).symm, ht⟩, List.not_mem_nil, [], h, rfl⟩

theorem traducir (h : Reciente n alg t tr v) (hn : 0 < n) (p : ℤ) (marco : ℕ) :
    Reciente n alg (Cpu.traducir t (p, marco)) (tr ++ [some (p, decide ((buscarMarco t p).1 < 0))])
      (v ++ [some (p, decide ((buscarMarco t p).1 < 0))]) := by
  obtain ⟨⟨u, hu, hu'⟩, hv, entradas, h1, h2⟩ := h
  refine ⟨⟨u, by rw [hu, List.append_assoc], hu'⟩, by simpa using hv, entradas ++ insercion t (p, marco),
    ?_, ?_⟩
  · rw [List.filterMap_append]
    exact h1.traducir hn (p, marco)
  · rw [List.map_append, fallados_append, h2, insercion]
    by_cases hb : 0 ≤ (buscarMarco t p).1
    · rw [if_pos hb, decide_eq_false (Int.not_lt.mpr hb)]
      rfl
    · rw [if_neg hb, decide_eq_true (Int.not_le.mp hb)]
      rfl

/-- **The page is still there**, where it was missed and few others were translated since. -/
theorem presente (h : Reciente n alg t tr v) (hc : Conservador n tr) (htr : tr = a ++ b) (hb : none ∉ b)
    (hcard : (paginas b).card ≤ n) (hx : x ∈ fallados b) : 0 ≤ (buscarMarco t x).1 := by
  obtain ⟨⟨u, hu, hu'⟩, -, entradas, hE, hent⟩ := h
  have hsuf : b <:+ v := suffix_of_sinVaciar (hu ▸ htr) hb hu'
  rw [hE.acierto_iff]
  rcases ha : alg with _ | _
  · -- FIFO: the entries inserted since then are few
    have h1 : fallados b <:+ entradas.map (·.pagina) := hent ▸ hsuf.filterMap _
    have h2 : (fallados b).length ≤ n := by
      refine (hc.fallos_le_card (a := a) (c := []) ?_ hb hcard).trans hcard
      rw [List.append_nil, htr]
    rw [hE.fifo ha, List.rtake, List.map_drop]
    have h3 := mem_rtake_of_suffix h1 h2 hx
    rwa [List.rtake, List.length_map] at h3
  · -- LRU: the pages translated since then are few
    obtain ⟨w, hw⟩ := hsuf
    have h1 : (b.filterMap (Option.map Prod.fst)).dedup <:+ (v.filterMap (Option.map Prod.fst)).dedup := by
      rw [← hw, List.filterMap_append, List.dedup_append]
      exact List.suffix_union_right _ _
    rw [hE.lru ha]
    apply mem_rtake_of_suffix h1 hcard
    rw [List.mem_dedup, List.mem_filterMap]
    exact ⟨_, mem_fallados.mp hx, rfl⟩

end Reciente

/-! ### The translations -/

section Corrida

variable {σ : Type*} {m₀ m : Mmu}

theorem numPag_direccionFisica (srv : Servidor σ) (m : Mmu) (s : σ) (pcb : Pcb) (dirLogica : ℤ) :
    (direccionFisica srv m s pcb dirLogica).1.numPag = numPag m.configMemoria dirLogica := by
  have h := direccionFisica_traduce srv m s pcb dirLogica
  revert h
  generalize direccionFisica srv m s pcb dirLogica = x
  intro h
  cases h with
  | _ => dsimp only

theorem tlb_traduccion {srv : Servidor σ} {s s' : σ} {m' : Mmu} {pcb : Pcb} {dirLogica : ℤ} {dir : DirFisica}
    (h : direccionFisica srv m s pcb dirLogica = (dir, m', s')) (ha : dir.acierto = true) :
    ∃ marco : ℕ, m'.tlb = Cpu.traducir m.tlb (dir.numPag, marco) := by
  obtain ⟨marco, -, h1⟩ := direccionFisica_traducir srv m s pcb dirLogica (by rw [h]; exact ha)
  have h2 := numPag_direccionFisica srv m s pcb dirLogica
  rw [h] at h1 h2
  dsimp only at h1 h2
  exact ⟨marco, by rw [h1, h2]⟩

/-- **The TLB is a conservative store**, between dispatches and across them. -/
theorem Traducciones.conservador (h : Traducciones σ m₀ tr m) : Conservador m₀.tlb.cantEntradas.toNat tr ∧
    ∃ v, Reciente m₀.tlb.cantEntradas.toNat m₀.tlb.protocolo m.tlb tr v := by
  have hn : 0 < m₀.tlb.cantEntradas.toNat := by
    have := m₀.tlb.pos
    omega
  induction h with
  | inicio hl =>
    have h1 : limpiarTlb m₀.tlb = m₀.tlb := by
      unfold limpiarTlb
      rw [← hl]
    exact ⟨.nil, [], .vacia [] (h1 ▸ EnOrden.vacia m₀.tlb) (Or.inl rfl)⟩
  | @despacho tr m _ ih =>
    obtain ⟨hc, v, hR⟩ := ih
    obtain ⟨-, -, entradas, hE, -⟩ := id hR
    refine ⟨hc.concat none fun _ _ _ _ he => (by cases he), [], .vacia _ ?_ (Or.inr ⟨tr, rfl⟩)⟩
    have h1 := EnOrden.vacia m.tlb
    rw [hE.cant, Int.toNat_natCast, hE.protocolo] at h1
    exact h1
  | @traduccion tr m dir m' s' srv s pcb dirLogica _ ht ha ih =>
    obtain ⟨hc, v, hR⟩ := ih
    obtain ⟨marco, htlb⟩ := tlb_traduccion ht ha
    refine ⟨hc.concat _ fun a b x htr he hb hcard hmem => ?_, _, htlb ▸ hR.traducir hn dir.numPag marco⟩
    obtain ⟨rfl, hf⟩ := Prod.mk.inj (Option.some.inj he)
    have h1 := hR.presente hc htr hb ((Finset.card_le_card (Finset.subset_insert _ _)).trans hcard)
      (mem_fallados.mpr hmem)
    exact absurd (of_decide_eq_true hf) (Int.not_lt.mpr h1)

/-- **The TLB against any other choice.** With `n` entries, FIFO or LRU, it misses at most
`n / (n - h + 1)` times what a TLB of `h ≤ n` entries misses for the same pages, whoever chooses
the entries of that one and even if he knows what comes; and `n` more for the start and for
each dispatch. -/
theorem traducciones_competitivas {h f : ℕ} {C : Finset ℤ} (ht : Traducciones σ m₀ tr m) (hh : 1 ≤ h)
    (hn : h ≤ m₀.tlb.cantEntradas.toNat) (hp : Politica h (pedidos tr) C f) :
    (m₀.tlb.cantEntradas.toNat - h + 1) * fallos tr ≤ m₀.tlb.cantEntradas.toNat * f +
      m₀.tlb.cantEntradas.toNat * (m₀.tlb.cantEntradas.toNat - h + 1) * (vaciados tr + 1) :=
  fallos_le hh hn ht.conservador.1 hp

/-! ### A run -/

/-- Addresses, and dispatches in between, while the translations are completed. -/
def seguirTraducciones (srv : Servidor σ) (s : σ) (pcb : Pcb) :
    List (Option ℤ) → List (Suceso ℤ) × Mmu → Option (List (Suceso ℤ) × Mmu)
  | [], x => some x
  | none :: l, (tr, m) => seguirTraducciones srv s pcb l (tr ++ [none], { m with tlb := limpiarTlb m.tlb })
  | some dirLogica :: l, (tr, m) =>
    match direccionFisica srv m s pcb dirLogica with
    | (dir, m', _) =>
      if dir.acierto = true then seguirTraducciones srv s pcb l
        (tr ++ [some (dir.numPag, decide ((buscarMarco m.tlb dir.numPag).1 < 0))], m')
      else none

theorem traducciones_de {srv : Servidor σ} {s : σ} {pcb : Pcb} : ∀ {l : List (Option ℤ)}
    {x y : List (Suceso ℤ) × Mmu}, Traducciones σ m₀ x.1 x.2 → seguirTraducciones srv s pcb l x = some y →
      Traducciones σ m₀ y.1 y.2
  | [], x, y, hx, h => by
    rw [← Option.some.inj h]
    exact hx
  | none :: l, (tr, m), y, hx, h => traducciones_de (l := l) hx.despacho h
  | some dirLogica :: l, (tr, m), y, hx, h => by
    unfold seguirTraducciones at h
    rcases ht : direccionFisica srv m s pcb dirLogica with ⟨dir, m', s'⟩
    rw [ht] at h
    dsimp only at h
    split_ifs at h with ha
    exact traducciones_de (hx.traduccion srv s pcb dirLogica ht ha) h

end Corrida

/-- A memory module that has every page in frame 7. -/
def marcoSiete : Servidor Unit := fun m s => (some (match m with
  | .buscarTablaDePaginas _ => .numero .buscarTablaDePaginas 0
  | .buscarMarco _ => .numero .buscarMarco 7
  | .leerMarco _ => .numero .leerMarco 0
  | .escribirMarco _ => .signal .operationSuccess), s)

/-- Two entries for the pages 0, 1, 0, 2, 1 and, after a dispatch, 1; the other one has a place
alone. -/
theorem traducciones_competitivas_dosEntradas : ∃ tr m, ∃ C : Finset ℤ,
    Traducciones Unit ⟨⟨[], 2, .lru, Int.natCast_pos.mpr (Nat.succ_pos 1)⟩, ⟨2, 4, Nat.succ_pos 3⟩⟩ tr m ∧
      tr = [some (0, true), some (1, true), some (0, false), some (2, true), some (1, true), none,
        some (1, true)] ∧ Politica 1 (pedidos tr) C 6 ∧
      (2 - 1 + 1) * fallos tr ≤ 2 * 6 + 2 * (2 - 1 + 1) * (vaciados tr + 1) := by
  obtain ⟨⟨tr, m⟩, hx, h1⟩ := Option.map_eq_some_iff.mp (show
    (seguirTraducciones marcoSiete () ejemploPcb [some 0, some 5, some 2, some 8, some 4, none, some 4]
      ([], ⟨⟨[], 2, .lru, Int.natCast_pos.mpr (Nat.succ_pos 1)⟩, ⟨2, 4, Nat.succ_pos 3⟩⟩)).map (·.1) =
        some [some (0, true), some (1, true), some (0, false), some (2, true), some (1, true), none,
          some (1, true)] by decide +kernel)
  have ht := traducciones_de (.inicio rfl) hx
  dsimp only at h1
  have hp : Politica 1 (pedidos tr) {1} 6 := by
    rw [h1]
    have h2 := Politica.inicio (α := ℤ) (h := 1)
    have h3 := h2.acceso 0 {0} (by decide) (by decide) (by decide)
    have h4 := h3.acceso 1 {1} (by decide) (by decide) (by decide)
    have h5 := h4.acceso 0 {0} (by decide) (by decide) (by decide)
    have h6 := h5.acceso 2 {2} (by decide) (by decide) (by decide)
    have h7 := h6.acceso 1 {1} (by decide) (by decide) (by decide)
    exact h7.vaciado.acceso 1 {1} (by decide) (by decide) (by decide)
  exact ⟨tr, m, {1}, ht, h1, hp, traducciones_competitivas ht le_rfl (by decide) hp⟩

end Cpu
end Kiss
