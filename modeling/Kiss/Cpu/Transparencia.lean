/-
# The TLB and the frames of the memory module

The CPU keeps the frame of a page in the TLB until the entry is replaced or another PCB
is dispatched; the memory module takes the frame away when the page is the victim of
another one, and tells nobody. Between two dispatches nothing else takes it away, so the
TLB agrees with the page tables as long as no page that leaves memory stays in it
(`recorrido_transparente`). With more entries than the process has frames some page that
leaves does stay (`not_transparente`).

Key definitions: `memoriaSwap`, `Enlace`, `Paso`, `Queda`, `Estable`, `Transparente`.
Key theorems: `coherente_paso`, `transparente`, `recorrido_transparente`.
-/
import Kiss.Cpu.Mmu
import Kiss.Memoria.Desalojos
import Kiss.Memoria.Cobertura

namespace Kiss
namespace Transparencia

open Cpu
open Memoria (ConfigMemoria MemoriaGlobal Operacion Corrida Viva Numerable EnMarco desalojada)

/-! ### The memory module as the CPU sees it -/

/-- What the module reads of a request. -/
def pedidoDe : Mensaje → Memoria.Mensaje
  | .buscarTablaDePaginas d => .buscarTablaDePaginas d.pagina
  | .buscarMarco d => .buscarMarco d.tablaPrimerNivel d.pagina
  | .leerMarco o => .leerMarco o.numeroMarco o.desplazamiento
  | .escribirMarco o => .escribirMarco o.numeroMarco o.desplazamiento o.dato

/-- How it answers. -/
def respuestaDe (n : ℕ) : Mensaje → Respuesta
  | .buscarTablaDePaginas _ => .numero .buscarTablaDePaginas n
  | .buscarMarco _ => .numero .buscarMarco n
  | .leerMarco _ => .numero .leerMarco n
  | .escribirMarco _ => .signal (if n = 0 then .operationSuccess else .operationFailure)

/-- `handle_cpu`; the state is `none` once the module has ended. -/
def memoriaSwap (c : ConfigMemoria) : Servidor (Option MemoriaGlobal) := fun m s =>
  match s.bind fun s => Memoria.atender c s (pedidoDe m) with
  | some (n, s') => (some (respuestaDe n m), some s')
  | none => (none, none)

/-- The module behind a socket that may fail, before the request arrives or after it has
been served. -/
def Enlace (c : ConfigMemoria) (srv : Servidor (Option MemoriaGlobal)) : Prop :=
  ∀ m s, srv m s = memoriaSwap c m s ∨
    (srv m s).1 = none ∧ ((srv m s).2 = s ∨ (srv m s).2 = (memoriaSwap c m s).2)

/-! ### Runs -/

/-- The MMU and the memory module while `pcb` is on the CPU. -/
structure Estado where
  mmu : Mmu
  memoria : MemoriaGlobal
  finalizados : List ℕ
  pcb : Pcb

/-- The table that the CPU asks for. -/
def Estado.tabla (e : Estado) : ℕ := toU32 e.pcb.tablaPaginas

/-- The page that a logical address names. -/
def Estado.pagina (e : Estado) (dirLogica : ℤ) : ℕ := toU32 (numPag e.mmu.configMemoria dirLogica)

/-- The table is of a process that there is. -/
def Estado.Presente (e : Estado) : Prop :=
  e.tabla < e.memoria.listaTablasDeTablas.length ∧ e.tabla ∉ e.finalizados

inductive Evento
  | despacho (pcb : Pcb)
  | traduccion (srv : Servidor (Option MemoriaGlobal)) (dirLogica : ℤ)
  /-- Any other request to the memory module. -/
  | pedido (o : Operacion)

/-- A dispatch, a translation that the memory module survives, or another request; the
kernel neither suspends nor finishes the process that is on the CPU. -/
inductive Paso (c : ConfigMemoria) : Estado → Evento → Estado → Prop
  | despacho {e : Estado} (pcb : Pcb) (hp : Estado.Presente { e with pcb := pcb }) :
      Paso c e (.despacho pcb)
        { e with mmu := { e.mmu with tlb := limpiarTlb e.mmu.tlb }, pcb := pcb }
  | traduccion {e : Estado} {srv : Servidor (Option MemoriaGlobal)} {dirLogica : ℤ} {d : DirFisica}
      {m : Mmu} {s : MemoriaGlobal} (hsrv : Enlace c srv)
      (h : direccionFisica srv e.mmu (some e.memoria) e.pcb dirLogica = (d, m, some s)) :
      Paso c e (.traduccion srv dirLogica) { e with mmu := m, memoria := s }
  | pedido {e : Estado} {o : Operacion} {n : ℕ} {s : MemoriaGlobal}
      (ho : Viva e.memoria e.finalizados o) (hs : Memoria.ejecutar c e.memoria o = some (n, s))
      (hn : Numerable s) (hsus : o ≠ .suspender e.tabla) (hter : o ≠ .finalizar e.tabla) :
      Paso c e (.pedido o) { e with memoria := s, finalizados := o.finaliza ++ e.finalizados }

/-- The runs from a dispatch, after anything the memory module did before. -/
inductive Recorrido (c : ConfigMemoria) (ok : Estado → Evento → Prop) : Estado → Prop
  | inicio {e : Estado} (h : Corrida c e.memoria e.finalizados) (hp : e.Presente)
      (hl : e.mmu.tlb.listaTlb = []) : Recorrido c ok e
  | paso {e e' : Estado} {ev : Evento} (h : Recorrido c ok e) (hok : ok e ev) (hs : Paso c e ev e') :
      Recorrido c ok e'

/-! ### What is promised -/

/-- Every translation gives the frame in which the memory module has the page that the
address names, whether from the TLB or not. -/
def Transparente (c : ConfigMemoria) (e : Estado) : Prop :=
  ∀ srv dirLogica d m s, Enlace c srv →
    direccionFisica srv e.mmu (some e.memoria) e.pcb dirLogica = (d, m, some s) → d.acierto = true →
    0 ≤ d.marco ∧ EnMarco c s e.tabla (e.pagina dirLogica) d.marco.toNat

/-- An entry of page `w` stays in the TLB after a replacement. -/
def Queda (t : Tlb) (w : ℕ) : Prop :=
  ∃ x ∈ if (t.listaTlb.length : ℤ) < t.cantEntradas then t.listaTlb else t.listaTlb.tail, toU32 x.pagina = w

/-- The page that the step takes out of memory, if there is one, does not stay in the TLB:
it is not there, or it is in the entry that the translation replaces. -/
def Estable (c : ConfigMemoria) (e : Estado) : Evento → Prop
  | .despacho _ => True
  | .traduccion srv dirLogica => (buscarMarco e.mmu.tlb (numPag e.mmu.configMemoria dirLogica)).1 < 0 →
      ∀ w, desalojada c e.memoria e.tabla (e.pagina dirLogica) = some w →
        (∀ x ∈ e.mmu.tlb.listaTlb, toU32 x.pagina ≠ w) ∨
          srv = memoriaSwap c ∧ ¬ Queda e.mmu.tlb w
  | .pedido o => ∀ p w, o.acceso = some (e.tabla, p) → desalojada c e.memoria e.tabla p = some w →
      ∀ x ∈ e.mmu.tlb.listaTlb, toU32 x.pagina ≠ w

/-- The entries of the TLB are frames that the registry has for their pages. -/
structure Coherente (c : ConfigMemoria) (e : Estado) : Prop where
  corrida : Corrida c e.memoria e.finalizados
  presente : e.Presente
  entradas : ∀ x ∈ e.mmu.tlb.listaTlb, 0 ≤ x.marco ∧ x.marco < 2 ^ 31 ∧ x.marco.toNat < c.cantidad ∧
    e.memoria.registroEspacioUsuario x.marco.toNat = ⟨true, e.tabla, toU32 x.pagina⟩

section Modulo

variable {c : ConfigMemoria} {srv : Servidor (Option MemoriaGlobal)} {s s' : MemoriaGlobal}
  {d : Direccion} {marco : ℤ}

/-! ### The two requests of a miss -/

theorem getSegundoNivel_snd (d : Direccion) (s : Option MemoriaGlobal) : (getSegundoNivel srv d s).2 =
    (srv (.buscarTablaDePaginas { d with tablaSegundoNivel := u32Max }) s).2 := by
  unfold getSegundoNivel
  split
  · rename_i h
    rw [h]
  · rename_i h
    rw [h]

/-- The number of a second-level table is computed without the state. -/
theorem getSegundoNivel_memoria (h : Enlace c srv) (d : Direccion) (s : MemoriaGlobal) :
    (getSegundoNivel srv d (some s)).2 = some s := by
  rw [getSegundoNivel_snd]
  rcases h (.buscarTablaDePaginas { d with tablaSegundoNivel := u32Max }) (some s) with h1 | ⟨-, h1 | h1⟩
  · rw [h1]
    rfl
  · exact h1
  · rw [h1]
    rfl

/-- The frame of a page, or an error of the socket. -/
theorem getFrame_memoria (h : Enlace c srv) (hs : getFrame srv d (some s) = (marco, some s')) :
    (∃ n, Memoria.buscarMarcoDePagina c s d.tablaPrimerNivel d.pagina = some (n, s') ∧
      (marco = toInt n ∨ marco = -1 ∧ srv ≠ memoriaSwap c)) ∨ marco = -1 ∧ s' = s := by
  -- what the module answers, and the state it goes to
  have hmod : ∀ {x}, memoriaSwap c (.buscarMarco d) (some s) = (x, some s') →
      ∃ n, Memoria.buscarMarcoDePagina c s d.tablaPrimerNivel d.pagina = some (n, s') ∧
        x = some (.numero .buscarMarco n) := by
    intro x hx
    have h1 : Memoria.atender c s (pedidoDe (.buscarMarco d)) =
        Memoria.buscarMarcoDePagina c s d.tablaPrimerNivel d.pagina := rfl
    rw [memoriaSwap, Option.bind_some, h1] at hx
    rcases hb : Memoria.buscarMarcoDePagina c s d.tablaPrimerNivel d.pagina with _ | ⟨n, s1⟩
    · rw [hb] at hx
      cases hx
    · rw [hb] at hx
      obtain ⟨h2, h3⟩ := Prod.mk.inj hx
      exact ⟨n, by rw [Option.some.inj h3], h2.symm⟩
  have hsnd : (srv (.buscarMarco d) (some s)).2 = some s' := by
    rw [getFrame] at hs
    split at hs
    · rename_i h1
      rw [h1]
      exact (Prod.mk.inj hs).2
    · rename_i h1
      rw [h1]
      exact (Prod.mk.inj hs).2
  rcases h (.buscarMarco d) (some s) with h1 | ⟨h1, h2⟩
  · rw [h1] at hsnd
    obtain ⟨n, hn, hx⟩ := hmod (Prod.ext rfl hsnd)
    refine Or.inl ⟨n, hn, Or.inl ?_⟩
    have h2 : srv (.buscarMarco d) (some s) = (some (.numero .buscarMarco n), some s') := by
      rw [h1]
      exact Prod.ext hx hsnd
    rw [getFrame, h2] at hs
    exact (Prod.mk.inj hs).1.symm
  · have hm : marco = -1 := by
      have h3 : srv (.buscarMarco d) (some s) = (none, some s') := Prod.ext h1 hsnd
      rw [getFrame, h3] at hs
      exact (Prod.mk.inj hs).1.symm
    rcases h2 with h2 | h2
    · exact Or.inr ⟨hm, Option.some.inj (hsnd.symm.trans h2)⟩
    · have h3 : (memoriaSwap c (.buscarMarco d) (some s)).2 = some s' := h2.symm.trans hsnd
      obtain ⟨n, hn, hx⟩ := hmod (Prod.ext rfl h3)
      refine Or.inl ⟨n, hn, Or.inr ⟨hm, ?_⟩⟩
      rintro rfl
      cases hx.symm.trans h1

end Modulo

section Traduccion

variable {c : ConfigMemoria} {e e' : Estado} {ev : Evento} {srv : Servidor (Option MemoriaGlobal)}
  {dirLogica : ℤ} {d : DirFisica} {m : Mmu} {s : MemoriaGlobal}

/-- The ends of a translation: a hit, a failure, which may come after the page was brought,
and the frame of the memory module. -/
theorem traduccion_casos (hsrv : Enlace c srv)
    (h : direccionFisica srv e.mmu (some e.memoria) e.pcb dirLogica = (d, m, some s)) :
    (0 ≤ (buscarMarco e.mmu.tlb (numPag e.mmu.configMemoria dirLogica)).1 ∧
      d.marco = (buscarMarco e.mmu.tlb (numPag e.mmu.configMemoria dirLogica)).1 ∧
      m.tlb = (buscarMarco e.mmu.tlb (numPag e.mmu.configMemoria dirLogica)).2 ∧ s = e.memoria) ∨
    (buscarMarco e.mmu.tlb (numPag e.mmu.configMemoria dirLogica)).1 < 0 ∧
      ((d.acierto = false ∧ m.tlb = (buscarMarco e.mmu.tlb (numPag e.mmu.configMemoria dirLogica)).2 ∧
        (s = e.memoria ∨ ∃ n,
          Memoria.buscarMarcoDePagina c e.memoria e.tabla (e.pagina dirLogica) = some (n, s) ∧
            (toInt n < 0 ∨ srv ≠ memoriaSwap c))) ∨
      ∃ n, Memoria.buscarMarcoDePagina c e.memoria e.tabla (e.pagina dirLogica) = some (n, s) ∧
        0 ≤ toInt n ∧ d.marco = toInt n ∧
        m.tlb = reemplazarEntrada (buscarMarco e.mmu.tlb (numPag e.mmu.configMemoria dirLogica)).2
          ⟨numPag e.mmu.configMemoria dirLogica, toInt n⟩) := by
  by_cases hm : 0 ≤ (buscarMarco e.mmu.tlb (numPag e.mmu.configMemoria dirLogica)).1
  · rw [direccionFisica_hit srv e.mmu (some e.memoria) e.pcb dirLogica hm] at h
    simp only [Prod.mk.injEq, Option.some.injEq] at h
    obtain ⟨rfl, rfl, rfl⟩ := h
    exact Or.inl ⟨hm, rfl, rfl, rfl⟩
  refine Or.inr ⟨Int.not_le.mp hm, ?_⟩
  rw [direccionFisica_miss srv e.mmu (some e.memoria) e.pcb dirLogica hm] at h
  dsimp only at h
  rw [getSegundoNivel_memoria hsrv] at h
  generalize hf : getFrame srv _ (some e.memoria) = f at h
  obtain ⟨marco, x⟩ := f
  have hmem : x = some s → (∃ n,
      Memoria.buscarMarcoDePagina c e.memoria e.tabla (e.pagina dirLogica) = some (n, s) ∧
        (marco = toInt n ∨ marco = -1 ∧ srv ≠ memoriaSwap c)) ∨ marco = -1 ∧ s = e.memoria := by
    rintro rfl
    have h1 := getFrame_memoria hsrv hf
    dsimp only [direccionDe] at h1
    exact h1
  split_ifs at h with h1 h2
  · simp only [Prod.mk.injEq, Option.some.injEq] at h
    obtain ⟨rfl, rfl, rfl⟩ := h
    exact Or.inl ⟨rfl, rfl, Or.inl rfl⟩
  · simp only [Prod.mk.injEq] at h
    obtain ⟨rfl, rfl, rfl⟩ := h
    have h2 : 0 ≤ marco := h2
    rcases hmem rfl with ⟨n, hn, h3 | ⟨h3, -⟩⟩ | ⟨h3, -⟩
    · refine Or.inr ⟨n, hn, h3 ▸ h2, h3, ?_⟩
      rw [h3]
    · omega
    · omega
  · simp only [Prod.mk.injEq] at h
    obtain ⟨rfl, rfl, rfl⟩ := h
    have h2 : ¬ 0 ≤ marco := h2
    refine Or.inl ⟨rfl, rfl, ?_⟩
    rcases hmem rfl with ⟨n, hn, h3 | ⟨-, h3⟩⟩ | ⟨-, h3⟩
    · exact Or.inr ⟨n, hn, Or.inl (h3 ▸ Int.not_le.mp h2)⟩
    · exact Or.inr ⟨n, hn, Or.inr h3⟩
    · exact Or.inl h3

/-- A request that touches one process creates no table. -/
theorem numerable_of_ajenas {t : ℕ} {s s' : MemoriaGlobal} (h : Memoria.Ajenas c t s s')
    (hn : Numerable s) : Numerable s' := by
  have h1 : s'.listaTablasDeTablas.length ≤ s.listaTablasDeTablas.length := by
    by_contra hlt
    have h2 := congrArg Option.isSome (h.pcbId s.listaTablasDeTablas.length)
    rw [Memoria.tabla_of_le (le_refl _), Option.map_none, Option.isSome_map, MemoriaGlobal.tabla,
      List.getElem?_eq_getElem (not_le.mp hlt)] at h2
    cases h2
  have h2 : s'.listaTablasDePaginas.length ≤ s.listaTablasDePaginas.length := by
    by_contra hlt
    have h3 := Memoria.isSome_largo.mpr (not_le.mp hlt)
    rw [h.largo, Memoria.isSome_largo] at h3
    exact absurd h3 (lt_irrefl _)
  exact ⟨h1.trans_lt hn.tablas, h2.trans hn.paginas⟩

/-- The process that is on the CPU is there after a request that does not finish it. -/
theorem presente_ejecutar {o : Operacion} {n : ℕ} (h : Corrida c e.memoria e.finalizados)
    (hp : e.Presente) (ho : Viva e.memoria e.finalizados o)
    (hs : Memoria.ejecutar c e.memoria o = some (n, s)) (hn : Numerable s)
    (hter : o ≠ .finalizar e.tabla) :
    e.tabla < s.listaTablasDeTablas.length ∧ e.tabla ∉ o.finaliza ++ e.finalizados := by
  constructor
  · have h1 : (e.memoria.tabla e.tabla).isSome := by
      rw [MemoriaGlobal.tabla, List.getElem?_eq_getElem hp.1]
      rfl
    obtain ⟨tt, ht⟩ := Option.isSome_iff_exists.mp
      (Memoria.ejecutar_length (Memoria.corrida_invariante h) ho hs hn h1)
    exact (List.getElem?_eq_some_iff.mp ht).1
  · intro hmem
    rcases List.mem_append.mp hmem with hmem | hmem
    · cases o with
      | finalizar t =>
        obtain rfl := List.mem_singleton.mp hmem
        exact hter rfl
      | _ => exact absurd hmem List.not_mem_nil
    · exact hp.2 hmem

/-- The frame that is answered, and the entries of the TLB whose page does not leave. -/
theorem Coherente.buscar {n p : ℕ} (h : Coherente c e)
    (hs : Memoria.buscarMarcoDePagina c e.memoria e.tabla p = some (n, s)) :
    Corrida c s e.finalizados ∧ Estado.Presente { e with memoria := s } ∧ n < c.cantidad ∧
      s.registroEspacioUsuario n = ⟨true, e.tabla, p⟩ ∧
      ∀ x ∈ e.mmu.tlb.listaTlb, desalojada c e.memoria e.tabla p ≠ some (toU32 x.pagina) →
        s.registroEspacioUsuario x.marco.toNat = ⟨true, e.tabla, toU32 x.pagina⟩ := by
  have hinv := Memoria.corrida_invariante h.corrida
  have hviva : Viva e.memoria e.finalizados (.buscarMarco e.tabla p) := by
    intro t ht
    obtain rfl := Option.some.inj ht
    exact h.presente
  obtain ⟨hn, hg, haj⟩ := Memoria.registro_buscarMarco hinv h.presente.1 h.presente.2 hs
  have hnum := numerable_of_ajenas haj (Memoria.corrida_numerable h.corrida)
  refine ⟨h.corrida.paso (.buscarMarco e.tabla p) n hviva hs hnum,
    presente_ejecutar h.corrida h.presente hviva hs hnum (by simp), hn, hg, fun x hx hd => ?_⟩
  obtain ⟨-, -, hlt, hreg⟩ := h.entradas x hx
  refine Memoria.registro_ejecutar hinv hviva hs hnum hlt hreg (by simp) (by simp) ?_
  intro p' hp'
  obtain ⟨-, rfl⟩ := Prod.mk.inj (Option.some.inj hp')
  exact hd

/-- An entry that a replacement leaves was there and stays, or is the new one. -/
theorem mem_reemplazarEntrada_queda {t : Tlb} {entrada x : EntryTlb}
    (h : x ∈ (reemplazarEntrada t entrada).listaTlb) :
    x = entrada ∨ x ∈ t.listaTlb ∧ Queda t (toU32 x.pagina) := by
  unfold reemplazarEntrada at h
  by_cases hl : (t.listaTlb.length : ℤ) < t.cantEntradas
  · rw [if_pos hl] at h
    rcases List.mem_append.mp h with h | h
    · refine Or.inr ⟨h, x, ?_, rfl⟩
      rwa [if_pos hl]
    · exact Or.inl (List.mem_singleton.mp h)
  · rw [if_neg hl] at h
    have h1 : x ∈ t.listaTlb.tail ++ [entrada] := by
      split at h
      · exact h
      · exact h
    rcases List.mem_append.mp h1 with h1 | h1
    · refine Or.inr ⟨List.mem_of_mem_tail h1, x, ?_, rfl⟩
      rwa [if_neg hl]
    · exact Or.inl (List.mem_singleton.mp h1)

/-- The number of a frame that the CPU does not take for an error. -/
theorem marco_nonneg {n : ℕ} (hn : n < c.cantidad) (h0 : 0 ≤ toInt n) : n < 2 ^ 31 ∧ toInt n = n := by
  have h1 : c.cantidad ≤ c.tamMemoria := Nat.div_le_self _ _
  have h2 := c.tamMemoria_lt
  have h3 : n < 2 ^ 31 := by
    unfold toInt at h0
    rw [Int.bmod_def] at h0
    split_ifs at h0 <;> omega
  exact ⟨h3, toInt_of_lt h3⟩

/-- A miss leaves the TLB as it was. -/
theorem buscarMarco_miss {t : Tlb} {pagina : ℤ} (h : (buscarMarco t pagina).1 < 0)
    (hpos : ∀ x ∈ t.listaTlb, 0 ≤ x.marco) : (buscarMarco t pagina).2 = t := by
  unfold buscarMarco at h ⊢
  split
  · rfl
  · rename_i x hx
    have h1 := hpos x (List.mem_of_find?_eq_some hx)
    rw [hx] at h
    simp only at h
    split_ifs at h <;> omega

/-- **A step** whose victim does not stay in the TLB. -/
theorem coherente_paso (h : Coherente c e) (hok : Estable c e ev) (hs : Paso c e ev e') :
    Coherente c e' := by
  cases hs with
  | despacho pcb hp => exact ⟨h.corrida, hp, fun x hx => absurd hx (mem_limpiarTlb _ x)⟩
  | @traduccion srv dirLogica d m s hsrv ht =>
    have hpos : ∀ x ∈ e.mmu.tlb.listaTlb, 0 ≤ x.marco := fun x hx => (h.entradas x hx).1
    rcases traduccion_casos hsrv ht with ⟨-, -, hm, rfl⟩ | ⟨hmiss, ⟨-, hm, hmem⟩ | ⟨n, hn, h0, -, hm⟩⟩
    · refine ⟨h.corrida, h.presente, fun x hx => h.entradas x ?_⟩
      rw [hm] at hx
      exact mem_buscarMarco hx
    · rw [buscarMarco_miss hmiss hpos] at hm
      rcases hmem with rfl | ⟨n, hn, hcausa⟩
      · exact ⟨h.corrida, h.presente, fun x hx => h.entradas x (hm ▸ hx)⟩
      obtain ⟨hc, hp, -, -, hqueda⟩ := h.buscar hn
      refine ⟨hc, hp, fun x hx => ?_⟩
      replace hx : x ∈ e.mmu.tlb.listaTlb := hm ▸ hx
      obtain ⟨h0, hlt, hf, hg⟩ := h.entradas x hx
      refine ⟨h0, hlt, hf, hqueda x hx fun hd => ?_⟩
      rcases hok hmiss _ hd with h1 | ⟨hsrv, -⟩
      · exact h1 x hx rfl
      · -- the frame of an entry of the TLB is an answer that does not fail
        have h1 := Memoria.buscarMarco_desaloja (Memoria.corrida_invariante h.corrida) h.presente.1
          h.presente.2 hn hf hg hd
        rcases hcausa with h2 | h2
        · rw [h1, Int.toNat_of_nonneg h0, toInt_of_nonneg h0 hlt] at h2
          omega
        · exact h2 hsrv
    · rw [buscarMarco_miss hmiss hpos] at hm
      obtain ⟨hc, hp, hn', hg, hqueda⟩ := h.buscar hn
      refine ⟨hc, hp, fun x hx => ?_⟩
      replace hx : x ∈ (reemplazarEntrada e.mmu.tlb
        ⟨numPag e.mmu.configMemoria dirLogica, toInt n⟩).listaTlb := hm ▸ hx
      rcases mem_reemplazarEntrada_queda hx with rfl | ⟨hx, hq⟩
      · obtain ⟨h1, h2⟩ := marco_nonneg hn' h0
        rw [h2]
        dsimp only
        rw [Int.toNat_natCast]
        exact ⟨Int.natCast_nonneg n, by omega, hn', hg⟩
      · obtain ⟨h0, hlt, hf, hg⟩ := h.entradas x hx
        refine ⟨h0, hlt, hf, hqueda x hx fun hd => ?_⟩
        rcases hok hmiss _ hd with h1 | ⟨-, h1⟩
        · exact h1 x hx rfl
        · exact h1 hq
  | @pedido o n s ho hs hn hsus hter =>
    refine ⟨h.corrida.paso o n ho hs hn, presente_ejecutar h.corrida h.presente ho hs hn hter,
      fun x hx => ?_⟩
    obtain ⟨h0, hlt, hf, hg⟩ := h.entradas x hx
    refine ⟨h0, hlt, hf, Memoria.registro_ejecutar (Memoria.corrida_invariante h.corrida) ho hs hn hf hg
      hsus hter fun p hp hd => hok p _ hp hd x hx rfl⟩

/-- **A translation** gives the frame of the page, from the TLB or not. -/
theorem transparente (h : Coherente c e) : Transparente c e := by
  intro srv dirLogica d m s hsrv ht hacierto
  rcases traduccion_casos hsrv ht with ⟨h0, hd, -, rfl⟩ | ⟨-, ⟨hf, -⟩ | ⟨n, hn, h0, hd, -⟩⟩
  · have hmem := mem_of_buscarMarco hd.symm (by omega)
    obtain ⟨h1, -, hf, hg⟩ := h.entradas _ hmem
    have h2 := Memoria.enMarco (Memoria.corrida_invariante h.corrida) hf hg
    dsimp only at h1 h2
    rw [Estado.pagina]
    exact ⟨h1, h2⟩
  · rw [hacierto] at hf
    cases hf
  · obtain ⟨hc, -, hn', hg, -⟩ := h.buscar hn
    obtain ⟨-, h2⟩ := marco_nonneg hn' h0
    have h3 := Memoria.enMarco (Memoria.corrida_invariante hc) hn' hg
    rw [hd, h2, Int.toNat_natCast]
    exact ⟨Int.natCast_nonneg n, h3⟩

/-- **The TLB is transparent** in every run in which no page that leaves memory stays in
it. -/
theorem recorrido_transparente (h : Recorrido c (Estable c) e) : Transparente c e := by
  apply transparente
  induction h with
  | inicio h hp hl => exact ⟨h, hp, fun x hx => absurd (hl ▸ hx) List.not_mem_nil⟩
  | paso h hok hs ih => exact coherente_paso ih hok hs

end Traduccion

/-! ### A page that stays -/

instance (t : Tlb) (w : ℕ) : Decidable (Queda t w) :=
  inferInstanceAs (Decidable (∃ x ∈ if (t.listaTlb.length : ℤ) < t.cantEntradas then t.listaTlb
    else t.listaTlb.tail, toU32 x.pagina = w))

/-- The translations of a list of addresses, as long as each passes `ok`. -/
def traducirTodas (c : ConfigMemoria) (ok : Estado → ℤ → Bool) : List ℤ → Estado → Option Estado
  | [], e => some e
  | dirLogica :: l, e =>
    if ok e dirLogica then
      match direccionFisica (memoriaSwap c) e.mmu (some e.memoria) e.pcb dirLogica with
      | (_, m, some s) => traducirTodas c ok l { e with mmu := m, memoria := s }
      | _ => none
    else none

theorem traducirTodas_recorrido {c : ConfigMemoria} {ok : Estado → ℤ → Bool} {P : Estado → Evento → Prop}
    (hok : ∀ e dirLogica, ok e dirLogica = true → P e (.traduccion (memoriaSwap c) dirLogica)) :
    ∀ (l : List ℤ) {e e' : Estado}, Recorrido c P e → traducirTodas c ok l e = some e' → Recorrido c P e'
  | [], e, e', h, hs => Option.some.inj hs ▸ h
  | dirLogica :: l, e, e', h, hs => by
    unfold traducirTodas at hs
    split at hs
    · rename_i ho
      split at hs
      · rename_i d m s hd
        exact traducirTodas_recorrido hok l
          (h.paso (hok e dirLogica ho) (.traduccion (fun _ _ => Or.inl rfl) hd)) hs
      · cases hs
    · cases hs

/-- A process of two pages on the CPU, with `marcos` frames and `entradas` entries. -/
def dosPaginas (marcos : Fin (2 ^ 32)) (entradas : ℕ) (h : 0 < (entradas : ℤ)) : Option Estado :=
  (Memoria.desdeInicio (Memoria.chica 2 marcos) [.iniciar 8 0]).map fun x =>
    ⟨⟨⟨[], entradas, .fifo, h⟩, ⟨2, 4, by decide⟩⟩, x.1, x.2, ⟨0, 0, 0, .nullCondition, 0, 0, 0, []⟩⟩

theorem dosPaginas_recorrido {marcos : Fin (2 ^ 32)} {entradas : ℕ} {h : 0 < (entradas : ℤ)} {e : Estado}
    {P : Estado → Evento → Prop} (he : dosPaginas marcos entradas h = some e) (hp : e.Presente) :
    Recorrido (Memoria.chica 2 marcos) P e := by
  obtain ⟨x, hx, rfl⟩ := Option.map_eq_some_iff.mp he
  exact .inicio (Memoria.desdeInicio_corrida hx) hp rfl

instance (e : Estado) : Decidable e.Presente := inferInstanceAs (Decidable (_ ∧ _))

/-- The page that leaves does not stay in the TLB. -/
def sale (c : ConfigMemoria) (e : Estado) (dirLogica : ℤ) : Bool :=
  match desalojada c e.memoria e.tabla (e.pagina dirLogica) with
  | some w => !decide (Queda e.mmu.tlb w)
  | none => true

theorem sale_estable {c : ConfigMemoria} (e : Estado) (dirLogica : ℤ) (h : sale c e dirLogica = true) :
    Estable c e (.traduccion (memoriaSwap c) dirLogica) := by
  intro _ w hw
  rw [sale, hw] at h
  exact Or.inr ⟨rfl, by simpa using h⟩

/-- With one entry, the page that leaves the one frame leaves the TLB with it. -/
theorem recorrido_transparente_unaEntrada : ∃ e : Estado,
    ((dosPaginas 1 1 (by decide)).bind fun e => if e.Presente then
      traducirTodas (Memoria.chica 2 1) (sale (Memoria.chica 2 1)) [0, 4, 0] e else none) = some e ∧
      Transparente (Memoria.chica 2 1) e := by
  obtain ⟨e, he⟩ := Option.isSome_iff_exists.mp (show ((dosPaginas 1 1 (by decide)).bind fun e =>
    if e.Presente then traducirTodas (Memoria.chica 2 1) (sale (Memoria.chica 2 1)) [0, 4, 0] e
    else none).isSome by decide +kernel)
  refine ⟨e, he, ?_⟩
  obtain ⟨e0, h0, h1⟩ := Option.bind_eq_some_iff.mp he
  split at h1
  · exact recorrido_transparente
      (traducirTodas_recorrido sale_estable [0, 4, 0] (dosPaginas_recorrido h0 ‹_›) h1)
  · cases h1

/-- With two, page 0 is still in the TLB when page 1 has its frame. -/
theorem not_transparente : ¬ ∀ (c : ConfigMemoria) (e : Estado),
    Recorrido c (fun _ _ => True) e → Transparente c e := by
  intro h
  obtain ⟨e, he, h1⟩ := Option.map_eq_some_iff.mp (show
    ((dosPaginas 1 2 (by decide)).bind fun e => if e.Presente then
      traducirTodas (Memoria.chica 2 1) (fun _ _ => true) [0, 4] e else none).map
      (fun e => ((buscarMarco e.mmu.tlb (numPag e.mmu.configMemoria 0)).1, e.tabla, e.pagina 0,
        (Memoria.Mensaje.leerMarco 0 0).operacion (Memoria.chica 2 1) e.memoria)) =
      some (0, 0, 0, some (.leer 0 1 0)) by decide +kernel)
  obtain ⟨e0, h0, h2⟩ := Option.bind_eq_some_iff.mp he
  have hr : Recorrido (Memoria.chica 2 1) (fun _ _ => True) e := by
    split at h2
    · exact traducirTodas_recorrido (fun _ _ _ => trivial) [0, 4] (dosPaginas_recorrido h0 ‹_›) h2
    · cases h2
  simp only [Prod.mk.injEq] at h1
  obtain ⟨hm, ht, hp, hop⟩ := h1
  have hhit := direccionFisica_hit (memoriaSwap (Memoria.chica 2 1)) e.mmu (some e.memoria) e.pcb 0
    (by rw [hm])
  obtain ⟨-, h3⟩ := h _ e hr _ 0 _ _ _ (fun _ _ => Or.inl rfl) hhit rfl
  have h4 := h3.leer 0
  dsimp only at h4
  rw [hm, ht, hp] at h4
  have h5 : (Memoria.Mensaje.leerMarco 0 0).operacion (Memoria.chica 2 1) e.memoria =
      some (.leer 0 0 0) := h4
  rw [hop] at h5
  cases h5

end Transparencia
end Kiss
