/-
# An access of the CPU is to the array of its process

`ci_read`, `ci_write` and the operand of `COPY` translate a logical address and send the
frame to the memory module. What they read and write is the word that the address names in
the array of the process on the CPU, as long as it is inside a page of the process, there
is a frame for the page, and nothing is written to the place of another page of the file or
left stale in the TLB (`Accede`).

Key definitions: `Memoriza`, `EnCpu`, `Accede`.
Key theorems: `Memoriza.sirve`, `EnCpu.traduce`, `EnCpu.lectura`, `EnCpu.escritura`.
-/
import Kiss.Cpu.Transparencia
import Kiss.Memoria.Lecturas
import Kiss.Lenguaje

namespace Kiss
namespace Accesos

open Cpu Transparencia
open Memoria (ConfigMemoria MemoriaGlobal Plano plano pedidos Pedido EsDe SinLugar Agotado EnMarco
  Numerable ejecutar corrida_invariante)

variable {c : ConfigMemoria} {A : ℕ → Plano} {s s' : MemoriaGlobal} {fin : List ℕ} {t pid p d n : ℕ}

/-! ### The memory module as arrays -/

/-- The module serves the array of every process. -/
def Memoriza (c : ConfigMemoria) (A : ℕ → Plano) (s : MemoriaGlobal) (fin : List ℕ) : Prop :=
  ∃ es, Memoria.Recorrido c (Memoria.EnSuLugar c) es s fin ∧ ∀ pid, plano c (pedidos pid es) = A pid

namespace Memoriza

theorem inicio (h : Memoria.Inicial c s) : Memoriza c (fun _ => ⟨0, fun _ => 0⟩) s [] :=
  ⟨[], .inicio h, fun _ => rfl⟩

theorem corrida (h : Memoriza c A s fin) : Memoria.Corrida c s fin := by
  obtain ⟨es, hes, -⟩ := h
  exact Memoria.traza_corrida hes.traza

/-- Two tables are not of one process. -/
theorem distintos (h : Memoriza c A s fin) : Memoria.Distintos s fin := by
  obtain ⟨es, hes, -⟩ := h
  exact Memoria.traza_distintos hes.traza (hes.enPagina 0)

/-- A request that is answered changes the array of its process. -/
theorem paso {e : Pedido} (h : Memoriza c A s fin) (ho : e.De s fin t pid) (hd : e.Dentro c (A pid))
    (hP : Memoria.EnSuLugar c s (e.operacion t pid)) (hs : ejecutar c s (e.operacion t pid) = some (n, s'))
    (hn : Numerable s') : Memoriza c (Function.update A pid ((A pid).paso c e)) s'
      ((e.operacion t pid).finaliza ++ fin) := by
  obtain ⟨es, hes, hA⟩ := h
  rw [← hA] at hd
  refine ⟨es ++ [⟨pid, e, n⟩], Memoria.Recorrido.paso ⟨pid, e, n⟩ t hes ho hd hP hs hn, fun q => ?_⟩
  rw [Memoria.pedidos_concat]
  by_cases hq : pid = q
  · subst hq
    rw [if_pos rfl, Memoria.plano_concat, Function.update_self, hA]
  · rw [if_neg hq, Function.update_of_ne (Ne.symm hq), hA]

/-- An access or a suspension is answered, a read with the word of the array. -/
theorem sirve {e : Pedido} (hm : 1 ≤ c.marcosPorProceso) (ha : c.algoritmoReemplazo ≠ .otro)
    (h : Memoriza c A s fin) (ht : EsDe s fin t pid) (hi : ∀ tam, e ≠ .iniciar tam) (hf : e ≠ .finalizar)
    (hd : e.Dentro c (A pid)) (hP : Memoria.EnSuLugar c s (e.operacion t pid))
    (hl : ¬ SinLugar c s (e.operacion t pid)) : ∃ n s', ejecutar c s (e.operacion t pid) = some (n, s') ∧
      (∀ p d, e = .leer p d → n = (A pid).leer c p d) ∧ Memoria.Ajenas c t s s' ∧
      Memoriza c (Function.update A pid ((A pid).paso c e)) s' fin := by
  have hM := (corrida_invariante h.corrida).marcos
  have hpag : e.EnPagina c := hd.enPagina
  obtain ⟨es, hes, hA⟩ := id h
  obtain ⟨n, s', hs, hn⟩ := Memoria.responde_guarda hm ha hes ht hi hf (hA pid ▸ hd) hP hl
  -- the request is about the table, which stays
  have hop : (e.operacion t pid).tabla = some t ∧ (e.operacion t pid).finaliza = [] ∧
      (e.operacion t pid).EscribeEnPagina c ∧ e.De s fin t pid := by
    cases e with
    | iniciar tam => exact absurd rfl (hi tam)
    | finalizar => exact absurd rfl hf
    | escribir p d dato => exact ⟨rfl, rfl, hpag, ht⟩
    | _ => exact ⟨rfl, rfl, trivial, ht⟩
  obtain ⟨h1, h2, h3, h4⟩ := hop
  have hA' : Memoria.Ajenas c t s s' := Memoria.ejecutar_ajenas hM
    (fun u hu => Option.some.inj (h1 ▸ hu) ▸ ⟨ht.lt, ht.1⟩) h1 h3 hs
  refine ⟨n, s', hs, fun p d he => hA pid ▸ hn p d he, hA', ?_⟩
  have h5 := h.paso h4 hd hP hs (numerable_of_ajenas hA' (Memoria.corrida_numerable h.corrida))
  rwa [h2] at h5

/-- Who is in each table, after a request of another process. -/
theorem esDe_otro {e : Pedido} {u q : ℕ} (h : Memoriza c A s fin) (ho : e.De s fin t pid)
    (hd : e.Dentro c (A pid)) (hs : ejecutar c s (e.operacion t pid) = some (n, s')) (hn : Numerable s')
    (hq : q ≠ pid) : EsDe s' ((e.operacion t pid).finaliza ++ fin) u q ↔ EsDe s fin u q := by
  have hM := (corrida_invariante h.corrida).marcos
  have hviva : Memoria.Viva s fin (e.operacion t pid) := Memoria.viva_of_de (e := ⟨pid, e, n⟩) ho
  cases e with
  | iniciar tam =>
    obtain ⟨-, v, -, hnace⟩ := Memoria.iniciar_nace hs hn
    obtain ⟨tt, hc, hpid⟩ := hnace.crea
    by_cases hu : u = s.listaTablasDeTablas.length
    · refine ⟨fun h1 => ?_, fun h1 => absurd hu h1.lt.ne⟩
      have h2 := h1.2
      rw [hu, hc.tabla_nueva, Option.map_some, hpid, Option.some.injEq] at h2
      exact absurd h2.symm hq
    · unfold EsDe
      rw [hc.tabla_vieja hu]
      rfl
  | finalizar =>
    have hA := Memoria.ejecutar_ajenas (t := t) hM hviva rfl trivial hs
    unfold EsDe
    rw [hA.pcbId u]
    refine and_congr_left fun h1 => ⟨fun h2 h3 => h2 (List.mem_append_right _ h3), fun h2 h3 => ?_⟩
    rcases List.mem_append.mp h3 with h3 | h3
    · rw [List.mem_singleton.mp h3, ho.2, Option.some.injEq] at h1
      exact hq h1.symm
    · exact h2 h3
  | escribir p d dato | leer p d | buscarMarco p | suspender =>
    have hA := Memoria.ejecutar_ajenas (t := t) hM hviva rfl (by first | exact Or.inl hd.2 | trivial) hs
    unfold EsDe
    rw [hA.pcbId u]
    rfl

/-- The table of a new process is its answer. -/
theorem esDe_iniciar {tam : ℕ} (h : Memoriza c A s fin) (hs : ejecutar c s (.iniciar tam pid) = some (n, s'))
    (hn : Numerable s') : EsDe s' fin n pid ∧ n < 2 ^ 32 := by
  obtain ⟨rfl, v, -, hnace⟩ := Memoria.iniciar_nace hs hn
  obtain ⟨tt, hc, hpid⟩ := hnace.crea
  obtain ⟨es, hes, -⟩ := id h
  refine ⟨⟨fun hf => (Memoria.fin_lt hes.traza _ hf).ne rfl, ?_⟩, (Memoria.corrida_numerable h.corrida).tablas⟩
  rw [hc.tabla_nueva, Option.map_some, hpid]

theorem esDe_suspender (h : Memoriza c A s fin) (ht : EsDe s fin t pid)
    (hs : ejecutar c s (.suspender t) = some (n, s')) : EsDe s' fin t pid ∧ Numerable s' := by
  have hA := Memoria.ejecutar_ajenas (corrida_invariante h.corrida).marcos
    (Memoria.viva_of_de (e := ⟨pid, .suspender, n⟩) (t := t) ht) rfl trivial hs
  exact ⟨⟨ht.1, hA.pcbId t ▸ ht.2⟩, numerable_of_ajenas hA (Memoria.corrida_numerable h.corrida)⟩

theorem esDe_finalizar (h : Memoriza c A s fin) (ht : EsDe s fin t pid)
    (hs : ejecutar c s (.finalizar t) = some (n, s')) : (∀ u, ¬ EsDe s' (t :: fin) u pid) ∧ Numerable s' := by
  have hA := Memoria.ejecutar_ajenas (corrida_invariante h.corrida).marcos
    (Memoria.viva_of_de (e := ⟨pid, .finalizar, n⟩) (t := t) ht) rfl trivial hs
  refine ⟨fun u hu => ?_, numerable_of_ajenas hA (Memoria.corrida_numerable h.corrida)⟩
  have h1 : EsDe s fin u pid := EsDe.of_ajenas hA (l := [t]) hu
  obtain rfl := h.distintos.eq h1 ht
  exact hu.1 List.mem_cons_self

/-- The addresses of a process are positive as `int`. -/
theorem limite (hm : 1 ≤ c.marcosPorProceso) (ha : c.algoritmoReemplazo ≠ .otro) (h : Memoriza c A s fin)
    (ht : EsDe s fin t pid) : (A pid).paginas c * c.tamPagina < 2 ^ 31 := by
  obtain ⟨es, hes, hA⟩ := h
  obtain ⟨y, hsig, hg⟩ := Memoria.recorrido_guarda hm ha hes pid
  rcases hy : y with _ | v
  · exact absurd ht (hsig.falta hy t)
  · exact hA pid ▸ (hg v hy).limite

end Memoriza

/-! ### The page and the place of an address -/

theorem leer_direccion (x : Plano) (dir : ℕ) :
    x.leer c (dir / c.tamPagina) (dir % c.tamPagina) = Lenguaje.leer x.bytes dir := by
  rw [Plano.leer, Nat.div_add_mod']
  rfl

theorem escribir_direccion (x : Plano) (dir dato : ℕ) :
    x.paso c (.escribir (dir / c.tamPagina) (dir % c.tamPagina) dato) =
      { x with bytes := Lenguaje.escribir x.bytes dir dato } := by
  rw [Plano.paso, Nat.div_add_mod']
  rfl

theorem toInt_toU32_sub (n k : ℤ) : toInt (toU32 n - k) = toInt (n - k) := by
  unfold toInt toU32
  rw [Int.toNat_of_nonneg (Int.emod_nonneg _ (by decide))]
  exact Int.emod_sub_bmod ..

/-- What the CPU computes of an address that is positive as an `int`. -/
theorem direccion_partes {m : SetupMemoria} {dirLogica : ℤ} (h : toU32 dirLogica < 2 ^ 31) :
    numPag m dirLogica = (toU32 dirLogica / m.tamPagina : ℕ) ∧
      desplazamiento m dirLogica = (toU32 dirLogica % m.tamPagina : ℕ) := by
  have h1 : toU32 dirLogica / m.tamPagina ≤ toU32 dirLogica := Nat.div_le_self _ _
  have h2 : toU32 dirLogica % m.tamPagina ≤ toU32 dirLogica := Nat.mod_le _ _
  have h3 : numPag m dirLogica = (toU32 dirLogica / m.tamPagina : ℕ) := toInt_of_lt (by omega)
  refine ⟨h3, ?_⟩
  have h4 : ((toU32 dirLogica % m.tamPagina : ℕ) : ℤ) =
      toU32 dirLogica - (toU32 dirLogica / m.tamPagina : ℕ) * m.tamPagina := by
    have := Nat.div_add_mod' (toU32 dirLogica) m.tamPagina
    push_cast
    rw [eq_sub_iff_add_eq]
    exact_mod_cast (Nat.add_comm _ _).trans this
  calc desplazamiento m dirLogica
      = toInt (dirLogica - (toU32 dirLogica / m.tamPagina : ℕ) * m.tamPagina) := by rw [desplazamiento, h3]
    _ = toInt (toU32 dirLogica - (toU32 dirLogica / m.tamPagina : ℕ) * m.tamPagina) := (toInt_toU32_sub _ _).symm
    _ = (toU32 dirLogica % m.tamPagina : ℕ) := by
        rw [← h4]
        exact toInt_of_lt (by omega)

/-! ### The process on the CPU -/

/-- The MMU and the memory module, with the arrays of all and the process on the CPU. -/
structure EnCpu (c : ConfigMemoria) (A : ℕ → Plano) (pid : ℕ) (e : Estado) : Prop where
  memoriza : Memoriza c A e.memoria e.finalizados
  coherente : Coherente c e
  dueno : EsDe e.memoria e.finalizados e.tabla pid
  tamPagina : e.mmu.configMemoria.tamPagina = c.tamPagina

/-- The word that a logical address names is in a page of the process, whose size is `tam`,
and the page can be brought: there is a frame for it, its victim goes to its own place of
the file, and does not stay in the TLB. -/
structure Accede (c : ConfigMemoria) (tam : ℕ) (e : Estado) (dirLogica : ℤ) : Prop where
  pagina : toU32 dirLogica / c.tamPagina < Memoria.paginasDeTamano c tam
  palabra : toU32 dirLogica % c.tamPagina + 4 ≤ c.tamPagina
  lugar : ¬ Agotado c e.memoria e.tabla (toU32 dirLogica / c.tamPagina)
  swap : Memoria.EnSuLugar c e.memoria (.buscarMarco e.tabla (toU32 dirLogica / c.tamPagina))
  tlb : Estable c e (.traduccion (memoriaSwap c) dirLogica)

section EnCpu

variable {e : Estado} {dirLogica : ℤ} {dir : DirFisica}

/-- A page that is in memory takes no other out. -/
theorem desalojada_presente {q : ℕ × ℕ} {w : Memoria.Pagina} (h : Memoria.EsPagina c s t p q w)
    (hw : w.presencia = true) : Memoria.desalojada c s t p = none := by
  unfold Memoria.desalojada
  rw [h.1, Option.bind_eq_bind, Option.bind_some, Option.bind_eq_bind, Option.bind_some, h.2,
    Option.bind_eq_bind, Option.bind_some]
  rcases s.tabla t with _ | tt
  · rfl
  · rw [Option.bind_eq_bind, Option.bind_some, if_pos (Or.inl hw)]

theorem numeroDeTabla_lt (h : p < 2 ^ 31) : Memoria.numeroDeTabla c p < 2 ^ 31 :=
  (Nat.div_le_self _ _).trans_lt h

/-- With words in the pages, the number of a frame is positive as an `int`. -/
theorem cantidad_lt (h : 4 ≤ c.tamPagina) : c.cantidad < 2 ^ 31 := by
  have h1 : c.cantidad ≤ c.tamMemoria / 4 := Nat.div_le_div_left h (by norm_num)
  have h2 := c.tamMemoria_lt
  omega

/-! ### The messages -/

theorem direccionDe_pagina : (direccionDe e.mmu e.pcb dirLogica).pagina = e.pagina dirLogica := by
  rw [direccionDe, Estado.pagina]

theorem direccionDe_tabla : (direccionDe e.mmu e.pcb dirLogica).tablaPrimerNivel = e.tabla := by
  rw [direccionDe, Estado.tabla]

theorem getSegundoNivel_memoriaSwap (x : Direccion) : getSegundoNivel (memoriaSwap c) x (some s) =
    (toInt (Memoria.numeroDeTabla c x.pagina), some s) := rfl

theorem getFrame_memoriaSwap {x : Direccion}
    (h : Memoria.buscarMarcoDePagina c s x.tablaPrimerNivel x.pagina = some (n, s')) :
    getFrame (memoriaSwap c) x (some s) = (toInt n, some s') := by
  have h1 : memoriaSwap c (.buscarMarco x) (some s) = (some (.numero .buscarMarco n), some s') := by
    have h2 : Memoria.atender c s (pedidoDe (.buscarMarco x)) = some (n, s') := h
    rw [memoriaSwap, Option.bind_some, h2]
    rfl
  rw [getFrame, h1]

/-- A read of a frame is a read of the page that it has. -/
theorem getValorMemoria_enMarco {pcb : Pcb} (hf : EnMarco c s t p (toU32 dir.marco))
    (hs : ejecutar c s (.leer t p (toU32 dir.desplazamiento)) = some (n, s')) :
    getValorMemoria (memoriaSwap c) (some s) pcb dir = (some (toInt n), some s') := by
  have h1 : memoriaSwap c (.leerMarco ⟨toU32 pcb.id, toU32 dir.marco, toU32 dir.desplazamiento, 0⟩) (some s) =
      (some (.numero .leerMarco n), some s') := by
    have h2 : Memoria.atender c s (.leerMarco (toU32 dir.marco) (toU32 dir.desplazamiento)) = some (n, s') :=
      (Memoria.atender_operacion (hf.leer _)).trans hs
    rw [memoriaSwap, Option.bind_some, pedidoDe, h2]
    rfl
  rw [getValorMemoria, h1]

theorem setValorMemoria_enMarco {pcb : Pcb} {valor : ℤ} (hf : EnMarco c s t p (toU32 dir.marco))
    (hs : ejecutar c s (.escribir t p (toU32 dir.desplazamiento) (toU32 valor)) = some (n, s')) :
    (setValorMemoria (memoriaSwap c) (some s) pcb dir valor).2 = some s' := by
  have h1 : memoriaSwap c (.escribirMarco ⟨toU32 pcb.id, toU32 dir.marco, toU32 dir.desplazamiento, toU32 valor⟩)
      (some s) = (some (.signal (if n = 0 then .operationSuccess else .operationFailure)), some s') := by
    have h2 : Memoria.atender c s (.escribirMarco (toU32 dir.marco) (toU32 dir.desplazamiento) (toU32 valor)) =
        some (n, s') := (Memoria.atender_operacion (hf.escribir _ _)).trans hs
    rw [memoriaSwap, Option.bind_some, pedidoDe, h2]
    rfl
  rw [setValorMemoria, h1]

/-! ### An access -/

theorem Accede.limite {x : Plano} (h : Accede c x.tamano e dirLogica)
    (hl : x.paginas c * c.tamPagina < 2 ^ 31) : toU32 dirLogica < 2 ^ 31 :=
  calc toU32 dirLogica < x.paginas c * c.tamPagina := (Nat.div_lt_iff_lt_mul c.tamPagina_pos).mp h.pagina
    _ < 2 ^ 31 := hl

namespace EnCpu

/-- **A translation** gives the frame that has the page, and changes no array. -/
theorem traduce (hm : 1 ≤ c.marcosPorProceso) (ha : c.algoritmoReemplazo ≠ .otro) (h : EnCpu c A pid e)
    (hx : Accede c (A pid).tamano e dirLogica) : ∃ dir m s,
    direccionFisica (memoriaSwap c) e.mmu (some e.memoria) e.pcb dirLogica = (dir, m, some s) ∧
      dir.acierto = true ∧ toU32 dir.desplazamiento = toU32 dirLogica % c.tamPagina ∧
      EnMarco c s e.tabla (toU32 dirLogica / c.tamPagina) (toU32 dir.marco) ∧
      Memoria.Ajenas c e.tabla e.memoria s ∧ EnCpu c A pid { e with mmu := m, memoria := s } := by
  have hlim := hx.limite (h.memoriza.limite hm ha h.dueno)
  obtain ⟨hnum, hdes⟩ := direccion_partes (m := e.mmu.configMemoria) hlim
  rw [h.tamPagina] at hnum hdes
  have hdiv : toU32 dirLogica / c.tamPagina < 2 ^ 31 := (Nat.div_le_self _ _).trans_lt hlim
  have hpag : e.pagina dirLogica = toU32 dirLogica / c.tamPagina := by
    rw [Estado.pagina, hnum, toU32_of_lt (by omega)]
  have htam : 4 ≤ c.tamPagina := by
    have := hx.palabra
    omega
  -- what the memory module is asked, if it is
  obtain ⟨n, s', hs, -, hA, hmem⟩ := h.memoriza.sirve (e := .buscarMarco (toU32 dirLogica / c.tamPagina)) hm ha
    h.dueno (fun _ he => by cases he) (fun he => by cases he) hx.pagina hx.swap (by
      rintro ⟨t, p, hacc, hag⟩
      obtain ⟨rfl, rfl⟩ := Prod.mk.inj (Option.some.inj hacc)
      exact hx.lugar hag)
  have hs : Memoria.buscarMarcoDePagina c e.memoria e.tabla (toU32 dirLogica / c.tamPagina) = some (n, s') := hs
  replace hmem : Memoriza c A s' e.finalizados := by
    rwa [show (A pid).paso c (.buscarMarco (toU32 dirLogica / c.tamPagina)) = A pid from rfl,
      Function.update_eq_self] at hmem
  have key : ∃ dir m s, direccionFisica (memoriaSwap c) e.mmu (some e.memoria) e.pcb dirLogica = (dir, m, some s) ∧
      dir.acierto = true ∧ dir.desplazamiento = desplazamiento e.mmu.configMemoria dirLogica ∧
      m.configMemoria = e.mmu.configMemoria ∧ Memoriza c A s e.finalizados ∧
      Memoria.Ajenas c e.tabla e.memoria s := by
    by_cases hhit : 0 ≤ (buscarMarco e.mmu.tlb (numPag e.mmu.configMemoria dirLogica)).1
    · exact ⟨_, _, _, direccionFisica_hit _ _ _ _ _ hhit, rfl, rfl, rfl, h.memoriza, Memoria.Ajenas.refl ..⟩
    · obtain ⟨hn, -, -⟩ := Memoria.registro_buscarMarco (corrida_invariante h.memoriza.corrida)
        h.coherente.presente.1 h.coherente.presente.2 hs
      have hn' : toInt n = n := toInt_of_lt (hn.trans (cantidad_lt htam))
      have htab : toInt (Memoria.numeroDeTabla c (e.pagina dirLogica)) =
          Memoria.numeroDeTabla c (e.pagina dirLogica) := by
        rw [hpag]
        exact toInt_of_lt (numeroDeTabla_lt hdiv)
      have hseg : getSegundoNivel (memoriaSwap c) (direccionDe e.mmu e.pcb dirLogica) (some e.memoria) =
          ((Memoria.numeroDeTabla c (e.pagina dirLogica) : ℤ), some e.memoria) := by
        rw [getSegundoNivel_memoriaSwap, direccionDe_pagina, htab]
      have hfr : ∀ k, getFrame (memoriaSwap c) { direccionDe e.mmu e.pcb dirLogica with tablaSegundoNivel := k }
          (some e.memoria) = ((n : ℤ), some s') := fun k => by
        rw [← hn']
        refine getFrame_memoriaSwap ?_
        dsimp only
        rw [direccionDe_pagina, hpag, direccionDe_tabla]
        exact hs
      have h1 := direccionFisica_miss (memoriaSwap c) e.mmu (some e.memoria) e.pcb dirLogica hhit
      have hpos : ¬ (Memoria.numeroDeTabla c (e.pagina dirLogica) : ℤ) < 0 := not_lt.mpr (Int.natCast_nonneg _)
      dsimp only at h1
      rw [hseg] at h1
      dsimp only at h1
      rw [if_neg hpos, hfr, if_pos (Int.natCast_nonneg n)] at h1
      exact ⟨_, _, _, h1, rfl, rfl, rfl, hmem, hA⟩
  obtain ⟨dir, m, s, hd, hac, hoff, hconf, hmem, hA⟩ := key
  have hcoh := coherente_paso h.coherente hx.tlb (.traduccion (fun _ _ => Or.inl rfl) hd)
  obtain ⟨h0, hen⟩ := transparente h.coherente _ _ _ _ _ (fun _ _ => Or.inl rfl) hd hac
  rw [hpag] at hen
  have hlt : dir.marco.toNat < c.cantidad := by
    by_contra hlt
    have h1 := hen.leer 0
    rw [Memoria.Mensaje.operacion, if_neg hlt] at h1
    cases h1
  have hmar : toU32 dir.marco = dir.marco.toNat := by
    have h1 := cantidad_lt htam
    have h2 := toU32_of_lt (n := dir.marco.toNat) (by omega)
    rwa [Int.toNat_of_nonneg h0] at h2
  refine ⟨dir, m, s, hd, hac, ?_, hmar ▸ hen, hA, hmem, hcoh,
    ⟨h.dueno.1, hA.pcbId e.tabla ▸ h.dueno.2⟩, hconf ▸ h.tamPagina⟩
  rw [hoff, hdes, toU32_of_lt]
  exact ((Nat.mod_le _ _).trans_lt hlim).trans (by norm_num)

/-- A request of a page that is in memory is answered, and takes no other out. -/
theorem pedido {x : Pedido} {f : ℕ} (hm : 1 ≤ c.marcosPorProceso) (ha : c.algoritmoReemplazo ≠ .otro)
    (h : EnCpu c A pid e) (hf : EnMarco c e.memoria e.tabla p f)
    (hx : (∃ d, x = .leer p d) ∨ ∃ d dato, x = .escribir p d dato) (hd : x.Dentro c (A pid)) :
    ∃ n s, ejecutar c e.memoria (x.operacion e.tabla pid) = some (n, s) ∧
      (∀ p d, x = .leer p d → n = (A pid).leer c p d) ∧ Memoria.Ajenas c e.tabla e.memoria s ∧
      EnCpu c (Function.update A pid ((A pid).paso c x)) pid { e with memoria := s } := by
  obtain ⟨q, w, hq, hw, -⟩ := hf.pagina
  have hno := desalojada_presente hq hw
  have hM := (corrida_invariante h.memoriza.corrida).marcos
  -- the page is one of those of its process
  have hlug : ¬ Agotado c e.memoria e.tabla p := by
    rintro ⟨-, tt, ht, -, hnot⟩
    exact hnot (List.mem_map_of_mem (hM.presente h.dueno.1 ht (Memoria.esPagina_dir hq) hq.2 hw))
  have hacc : (x.operacion e.tabla pid).acceso = some (e.tabla, p) ∧ (x.operacion e.tabla pid).finaliza = [] ∧
      (∀ tam, x ≠ .iniciar tam) ∧ x ≠ .finalizar ∧ Memoria.EnSuLugar c e.memoria (x.operacion e.tabla pid) ∧
      Memoria.Viva e.memoria e.finalizados (x.operacion e.tabla pid) ∧
      x.operacion e.tabla pid ≠ .suspender e.tabla ∧ x.operacion e.tabla pid ≠ .finalizar e.tabla := by
    rcases hx with ⟨d, rfl⟩ | ⟨d, dato, rfl⟩ <;>
    · refine ⟨rfl, rfl, fun _ he => (by cases he), fun he => (by cases he), fun w hw => ?_, fun u hu => ?_,
        fun he => (by cases he), fun he => (by cases he)⟩
      · simp only [Pedido.operacion, Memoria.vuelca, hno, Option.toList_none, List.filter_nil] at hw
        cases hw
      · exact Option.some.inj hu ▸ ⟨h.dueno.lt, h.dueno.1⟩
  obtain ⟨h1, h2, h3, h4, h5, h6, h7, h8⟩ := hacc
  have hlug' : ¬ ∃ t p, (x.operacion e.tabla pid).acceso = some (t, p) ∧ Agotado c e.memoria t p := by
    rintro ⟨t, k, hk, hag⟩
    rw [h1] at hk
    obtain ⟨rfl, rfl⟩ := Prod.mk.inj (Option.some.inj hk)
    exact hlug hag
  obtain ⟨n, s, hs, hn, hA, hmem⟩ := h.memoriza.sirve hm ha h.dueno h3 h4 hd h5 hlug'
  have hst : Estable c e (.pedido (x.operacion e.tabla pid)) := fun k w hk hw => by
    rw [h1] at hk
    obtain rfl := (Prod.mk.inj (Option.some.inj hk)).2
    rw [hno] at hw
    cases hw
  have hcoh := coherente_paso h.coherente hst
    (.pedido h6 hs (Memoria.corrida_numerable hmem.corrida) h7 h8)
  rw [h2] at hcoh
  exact ⟨n, s, hs, hn, hA, hmem, hcoh, ⟨h.dueno.1, hA.pcbId e.tabla ▸ h.dueno.2⟩, h.tamPagina⟩

/-- **A read** gives the word of the array. -/
theorem lectura (hm : 1 ≤ c.marcosPorProceso) (ha : c.algoritmoReemplazo ≠ .otro) (h : EnCpu c A pid e)
    (hx : Accede c (A pid).tamano e dirLogica) : ∃ dir m s1 s2,
    direccionFisica (memoriaSwap c) e.mmu (some e.memoria) e.pcb dirLogica = (dir, m, some s1) ∧
      dir.acierto = true ∧ getValorMemoria (memoriaSwap c) (some s1) e.pcb dir =
        (some (toInt (Lenguaje.leer (A pid).bytes (toU32 dirLogica))), some s2) ∧
      Memoria.Ajenas c e.tabla e.memoria s2 ∧ EnCpu c A pid { e with mmu := m, memoria := s2 } := by
  obtain ⟨dir, m, s1, hd, hac, hdes, hf, hA, he⟩ := h.traduce hm ha hx
  obtain ⟨n, s2, hs, hn, hA2, he2⟩ := he.pedido (x := .leer (toU32 dirLogica / c.tamPagina)
    (toU32 dirLogica % c.tamPagina)) hm ha hf (Or.inl ⟨_, rfl⟩) ⟨hx.pagina, hx.palabra⟩
  refine ⟨dir, m, s1, s2, hd, hac, ?_, hA.trans hA2, ?_⟩
  · rw [← leer_direccion, ← hn _ _ rfl]
    refine getValorMemoria_enMarco hf ?_
    rw [hdes]
    exact hs
  · rwa [show (A pid).paso c (.leer (toU32 dirLogica / c.tamPagina) (toU32 dirLogica % c.tamPagina)) = A pid
      from rfl, Function.update_eq_self] at he2

/-- **A write** changes the word of the array. -/
theorem escritura (hm : 1 ≤ c.marcosPorProceso) (ha : c.algoritmoReemplazo ≠ .otro) (h : EnCpu c A pid e)
    (hx : Accede c (A pid).tamano e dirLogica) (valor : ℤ) : ∃ m s,
    (ciWrite (memoriaSwap c) e.mmu (some e.memoria) e.pcb dirLogica valor).2 = (m, some s) ∧
      Memoria.Ajenas c e.tabla e.memoria s ∧ EnCpu c (Function.update A pid { A pid with
        bytes := Lenguaje.escribir (A pid).bytes (toU32 dirLogica) (toU32 valor) }) pid
          { e with mmu := m, memoria := s } := by
  obtain ⟨dir, m, s1, hd, -, hdes, hf, hA, he⟩ := h.traduce hm ha hx
  obtain ⟨n, s2, hs, -, hA2, he2⟩ := he.pedido (x := .escribir (toU32 dirLogica / c.tamPagina)
    (toU32 dirLogica % c.tamPagina) (toU32 valor)) hm ha hf (Or.inr ⟨_, _, rfl⟩) ⟨hx.pagina, hx.palabra⟩
  refine ⟨m, s2, ?_, hA.trans hA2, ?_⟩
  · have h1 : (setValorMemoria (memoriaSwap c) (some s1) e.pcb dir valor).2 = some s2 := by
      refine setValorMemoria_enMarco (n := n) hf ?_
      rw [hdes]
      exact hs
    rw [ciWrite, hd]
    dsimp only
    rw [← h1]
  · rwa [escribir_direccion] at he2

/-- **A request of the kernel** for another process. -/
theorem otro {x : Pedido} {q : ℕ} (h : EnCpu c A pid e) (ho : x.De e.memoria e.finalizados t q)
    (hq : q ≠ pid) (hx : (∃ tam, x = .iniciar tam) ∨ x = .suspender ∨ x = .finalizar)
    (hP : Memoria.EnSuLugar c e.memoria (x.operacion t q))
    (hs : ejecutar c e.memoria (x.operacion t q) = some (n, s')) (hn : Numerable s') :
    EnCpu c (Function.update A q ((A q).paso c x)) pid
      { e with memoria := s', finalizados := (x.operacion t q).finaliza ++ e.finalizados } := by
  have hd : x.Dentro c (A q) := by
    rcases hx with ⟨tam, rfl⟩ | rfl | rfl <;> trivial
  -- the process on the CPU is in another table
  have hne : ∀ u, (x.operacion t q).tabla = some u → u ≠ e.tabla := by
    rintro u hu rfl
    have h1 : EsDe e.memoria e.finalizados e.tabla q := by
      rcases hx with ⟨tam, rfl⟩ | rfl | rfl
      · cases hu
      · exact Option.some.inj hu ▸ ho
      · exact Option.some.inj hu ▸ ho
    have h2 := h1.2
    rw [h.dueno.2, Option.some.injEq] at h2
    exact hq h2.symm
  have hviva : Memoria.Viva e.memoria e.finalizados (x.operacion t q) :=
    Memoria.viva_of_de (e := ⟨q, x, n⟩) ho
  have hst : Estable c e (.pedido (x.operacion t q)) := fun k w hk => by
    rcases hx with ⟨tam, rfl⟩ | rfl | rfl <;> cases hk
  have hcoh := coherente_paso h.coherente hst (.pedido hviva hs hn
    (fun he => hne e.tabla (he ▸ rfl) rfl) fun he => hne e.tabla (he ▸ rfl) rfl)
  exact ⟨h.memoriza.paso ho hd hP hs hn, hcoh, (h.memoriza.esDe_otro ho hd hs hn (Ne.symm hq)).mpr h.dueno,
    h.tamPagina⟩

/-- The table is all that the memory module knows of the PCB. -/
theorem congr {pcb : Pcb} (h : EnCpu c A pid e) (hp : pcb.tablaPaginas = e.pcb.tablaPaginas) :
    EnCpu c A pid { e with pcb := pcb } := by
  have h1 : Estado.tabla { e with pcb := pcb } = e.tabla := by rw [Estado.tabla, hp, Estado.tabla]
  refine ⟨h.memoriza, ⟨h.coherente.corrida, ?_, ?_⟩, ?_, h.tamPagina⟩
  · rw [Estado.Presente, h1]
    exact h.coherente.presente
  · rw [h1]
    exact h.coherente.entradas
  · rw [h1]
    exact h.dueno

/-! ### An instruction -/

/-- The operand of `COPY` is the word at its address. -/
theorem operando {i : Instruction} (hm : 1 ≤ c.marcosPorProceso) (ha : c.algoritmoReemplazo ≠ .otro)
    (h : EnCpu c A pid e) (hi : i.Valida) (hx : i.codigo = .copy → ∀ dir, parametro i 1 = some dir →
      Accede c (A pid).tamano e dir) : ∃ v m s,
    faseOperands (memoriaSwap c) e.mmu (some e.memoria) e.pcb i = some (some v, m, some s) ∧
      (i.codigo = .copy → ∀ dir, parametro i 1 = some dir →
        v = toInt (Lenguaje.leer (A pid).bytes (toU32 dir))) ∧
      Memoria.Ajenas c e.tabla e.memoria s ∧ EnCpu c A pid { e with mmu := m, memoria := s } := by
  unfold faseOperands
  by_cases hc : i.codigo = .copy
  · have hlen : 2 ≤ i.parametros.length := by simpa [Instruction.Valida, hc] using hi
    obtain ⟨n, hn⟩ := parametro_some (n := 1) (i := i) (by omega)
    rw [show ((1 : ℕ) : ℤ) = 1 from rfl] at hn
    obtain ⟨dir, m, s1, s2, hd, hac, hv, hA, he⟩ := h.lectura hm ha (hx hc n hn)
    refine ⟨toInt (Lenguaje.leer (A pid).bytes (toU32 n)), m, s2, ?_, fun _ dir' hd' => ?_, hA, he⟩
    · rw [if_pos hc, hn, Option.map_some, hd]
      dsimp only
      rw [if_pos hac, hv]
    · rw [hn] at hd'
      rw [Option.some.inj hd']
  · exact ⟨0, e.mmu, e.memoria, by rw [if_neg hc], fun h1 => absurd h1 hc, Memoria.Ajenas.refl .., h⟩

/-- The PCB that an instruction leaves, which ends as `fin` says. -/
structure Deja (p q : Pcb) (fin : Lenguaje.Fin) : Prop where
  id : q.id = p.id
  tablaPaginas : q.tablaPaginas = p.tablaPaginas
  instructions : q.instructions = p.instructions
  programCounter : q.programCounter = p.programCounter
  sigue : fin = .sigue → q.cpuDispatchCond = p.cpuDispatchCond
  io : ∀ n, fin = .io n → q.cpuDispatchCond = .ioSyscall ∧ q.ioBurst = n
  exit : fin = .exit → q.cpuDispatchCond = .exitProgram

/-- **An instruction** does to the array of its process what it means, and nothing to the
others. -/
theorem instruccion {i : Instruction} {v : ℤ} (hm : 1 ≤ c.marcosPorProceso) (ha : c.algoritmoReemplazo ≠ .otro)
    (h : EnCpu c A pid e) (hi : i.Valida) (hx : i.codigo = .read ∨ i.codigo = .write ∨ i.codigo = .copy →
      ∀ dir, parametro i 0 = some dir → Accede c (A pid).tamano e dir)
    (hv : i.codigo = .copy → ∀ dir, parametro i 1 = some dir →
      v = toInt (Lenguaje.leer (A pid).bytes (toU32 dir))) :
    ∃ r q enviar m s, Lenguaje.efecto i (A pid).bytes = some r ∧
      execute (memoriaSwap c) e.mmu (some e.memoria) e.pcb i v = some (q, enviar, m, some s) ∧
      (enviar = true ↔ r.2 ≠ .sigue) ∧ Deja e.pcb q r.2 ∧ Memoria.Ajenas c e.tabla e.memoria s ∧
      EnCpu c (Function.update A pid { A pid with bytes := r.1 }) pid { e with mmu := m, memoria := s } := by
  have hquieto : EnCpu c (Function.update A pid { A pid with bytes := (A pid).bytes }) pid e := by
    rwa [show ({ A pid with bytes := (A pid).bytes } : Plano) = A pid from rfl, Function.update_eq_self]
  have hdeja : ∀ fin, fin = .sigue → Deja e.pcb e.pcb fin := by
    rintro fin rfl
    exact ⟨rfl, rfl, rfl, rfl, fun _ => rfl, fun _ he => (by cases he), fun he => (by cases he)⟩
  have hmismo := Memoria.Ajenas.refl c e.tabla e.memoria
  have hpar : ∀ {k : ℕ}, k < i.parametros.length → ∃ n, parametro i k = some n := fun hk => parametro_some hk
  unfold Instruction.Valida at hi
  unfold Lenguaje.efecto execute
  cases hc : i.codigo with
  | noOp => exact ⟨_, _, _, _, _, rfl, rfl, by simp, hdeja _ rfl, hmismo, hquieto⟩
  | otro n hn =>
    rw [hc] at hi
    exact hi.elim
  | exit =>
    refine ⟨_, _, _, _, _, rfl, rfl, by simp, ⟨rfl, rfl, rfl, rfl, fun he => (by cases he),
      fun _ he => (by cases he), fun _ => rfl⟩, hmismo, hquieto⟩
  | io =>
    rw [hc] at hi
    obtain ⟨n, hn⟩ := hpar (k := 0) hi
    rw [show ((0 : ℕ) : ℤ) = 0 from rfl] at hn
    dsimp only
    rw [hn]
    refine ⟨_, _, _, _, _, rfl, rfl, by simp, ⟨rfl, rfl, rfl, rfl, fun he => (by cases he),
      fun k he => ⟨rfl, ?_⟩, fun he => (by cases he)⟩, hmismo, hquieto⟩
    exact Lenguaje.Fin.io.inj he
  | read =>
    rw [hc] at hi
    obtain ⟨n, hn⟩ := hpar (k := 0) hi
    rw [show ((0 : ℕ) : ℤ) = 0 from rfl] at hn
    obtain ⟨dir, m, s1, s2, hd, -, hval, hA, he⟩ := h.lectura hm ha (hx (Or.inl hc) n hn)
    have hread : (ciRead (memoriaSwap c) e.mmu (some e.memoria) e.pcb n).2 = (m, some s2) := by
      rw [ciRead, hd]
      dsimp only
      rw [hval]
    dsimp only
    rw [hn, Option.map_some, Option.map_some, hread]
    refine ⟨_, _, _, _, _, rfl, rfl, by simp, hdeja _ rfl, hA, ?_⟩
    rwa [show ({ A pid with bytes := (A pid).bytes } : Plano) = A pid from rfl, Function.update_eq_self]
  | write =>
    rw [hc] at hi
    obtain ⟨n, hn⟩ := hpar (k := 0) (Nat.lt_of_succ_lt hi)
    obtain ⟨w, hw⟩ := hpar (k := 1) hi
    rw [show ((0 : ℕ) : ℤ) = 0 from rfl] at hn
    rw [show ((1 : ℕ) : ℤ) = 1 from rfl] at hw
    obtain ⟨m, s, hwrite, hA, he⟩ := h.escritura hm ha (hx (Or.inr (Or.inl hc)) n hn) w
    dsimp only
    rw [hn, hw, Option.bind_some, Option.map_some, Option.bind_some, Option.map_some, hwrite]
    exact ⟨_, _, _, _, _, rfl, rfl, by simp, hdeja _ rfl, hA, he⟩
  | copy =>
    rw [hc] at hi
    obtain ⟨n, hn⟩ := hpar (k := 0) (Nat.lt_of_succ_lt hi)
    obtain ⟨w, hw⟩ := hpar (k := 1) hi
    rw [show ((0 : ℕ) : ℤ) = 0 from rfl] at hn
    rw [show ((1 : ℕ) : ℤ) = 1 from rfl] at hw
    obtain ⟨m, s, hwrite, hA, he⟩ := h.escritura hm ha (hx (Or.inr (Or.inr hc)) n hn) v
    -- the word that was read is the one that is written
    rw [hv hc w hw, toU32_toInt, toU32_of_lt (Lenguaje.leer_lt _ _)] at he
    dsimp only
    rw [hn, hw, Option.bind_some, Option.map_some, Option.map_some, hwrite]
    exact ⟨_, _, _, _, _, rfl, rfl, by simp, hdeja _ rfl, hA, he⟩

end EnCpu

end EnCpu

end Accesos
end Kiss
