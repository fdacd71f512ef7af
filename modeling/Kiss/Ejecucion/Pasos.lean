/-
# Every process is a machine of its own

Whatever the order of the steps, the memory of each process is that of a KISS machine that
runs its program alone, its PCB has the counter of the machine and tells how its last
instruction ended. The PCB is in one place (`Turno`), and while the dispatch handler has it,
`Fase` says what is known at each of its steps; the machine makes a step when the CPU
executes an instruction, and no other step moves it.

Key definitions: `Informa`, `Fase`, `Turno`, `Corresponde`, `Representa`.
Key theorems: `Fase.paso`, `representa_paso`, `reach_representa`.
-/
import Kiss.Ejecucion.Modelo

namespace Kiss
namespace Ejecucion

open Cpu Transparencia Accesos Threads
open Lenguaje (Maquina)
open Memoria (ConfigMemoria MemoriaGlobal Plano Pedido EsDe Numerable ejecutar)

/-! ### The machines -/

/-- The condition that a PCB tells is how the last instruction of the machine ended. -/
def Informa (q : Pcb) (m : Maquina) : Prop :=
  match m.fin with
  | .sigue => q.cpuDispatchCond = .nullCondition ∨ q.cpuDispatchCond = .interruptedByKernel
  | .io n => q.cpuDispatchCond = .ioSyscall ∧ q.ioBurst = n
  | .exit => q.cpuDispatchCond = .exitProgram

/-- The PCB of a process, on its way to the CPU, there or back. -/
structure EsPcb (q : Pcb) (x : Proceso) : Prop where
  id : q.id = x.pcb.id
  tablaPaginas : q.tablaPaginas = x.pcb.tablaPaginas
  instructions : q.instructions = x.pcb.instructions

/-- The machine can go on where the PCB says. -/
structure Listo (q : Pcb) (m : Maquina) : Prop where
  contador : q.programCounter = m.contador
  fin : m.fin ≠ .exit
  condicion : q.cpuDispatchCond = .nullCondition ∨ q.cpuDispatchCond = .interruptedByKernel

variable (c : ConfigMemoria) (A : ℕ → Plano) (g : MemoriaGlobal) (M : ℕ → Maquina)

/-- The steps of the dispatch handler with the PCB of process `pid`, whose machine is `m`. -/
inductive Fase (s : Global) (pid : ℕ) (x : Proceso) (m : Maquina) : Cpu.Action → Prop
  | borrar (q) (hq : EsPcb q x) (hl : Listo q m) : Fase s pid x m (.borrarInterrupcion q)
  | ejecutar (q) (hq : EsPcb q x) (hl : Listo q m) : Fase s pid x m (.ejecutarPcb q)
  | fetch (q) (hq : EsPcb q x) (hl : Listo q m) (he : EnCpu c A pid ⟨s.cpu.mmu, g, s.finalizados, q⟩)
      (hp : s.cpu.enviarPcbOExit = false) : Fase s pid x m (.fetch q)
  | operands (q i) (hq : EsPcb q x) (hl : Listo { q with programCounter := q.programCounter - 1 } m)
      (he : EnCpu c A pid ⟨s.cpu.mmu, g, s.finalizados, q⟩) (hp : s.cpu.enviarPcbOExit = false)
      (hi : listGet q.instructions m.contador = some i) : Fase s pid x m (.faseOperands q i)
  | execute (q i v) (hq : EsPcb q x) (hl : Listo { q with programCounter := q.programCounter - 1 } m)
      (he : EnCpu c A pid ⟨s.cpu.mmu, g, s.finalizados, q⟩) (hp : s.cpu.enviarPcbOExit = false)
      (hi : listGet q.instructions m.contador = some i)
      (hv : i.codigo = .copy → ∀ dir, parametro i 1 = some dir →
        v = toInt (Lenguaje.leer m.memoria (toU32 dir))) : Fase s pid x m (.execute q i v)
  | test (q) (hq : EsPcb q x) (hc : q.programCounter = m.contador) (hinf : Informa q m)
      (he : EnCpu c A pid ⟨s.cpu.mmu, g, s.finalizados, q⟩)
      (hp : s.cpu.enviarPcbOExit = true ↔ m.fin ≠ .sigue) : Fase s pid x m (.testInterrupcion q)
  | check (q) (hq : EsPcb q x) (hc : q.programCounter = m.contador) (hinf : Informa q m)
      (he : EnCpu c A pid ⟨s.cpu.mmu, g, s.finalizados, q⟩)
      (hp : s.cpu.enviarPcbOExit = true ↔ m.fin ≠ .sigue) : Fase s pid x m (.checkInterrupt q)
  | fin (q) (hq : EsPcb q x) (hc : q.programCounter = m.contador) (hinf : Informa q m) :
      Fase s pid x m (.finEjecucion q)
  | enviar (q) (hq : EsPcb q x) (hc : q.programCounter = m.contador) (hinf : Informa q m) :
      Fase s pid x m (.enviarPcb q)

/-- The handler waits for a PCB, or has ended. -/
def Espera (d : List Action) : Prop := d = [] ∨ d = [.cpu .recibirDispatch]

/-- Whose turn it is: the kernel's, or where the PCB that it dispatched is. -/
inductive Turno (s : Global) : List Action → List Action → Prop
  | libre {d} (hd : Espera d) (h : s.enCpu = none) (h1 : s.cpu.dispatch = []) (h2 : s.cpu.respuestas = []) :
      Turno s d [.cpu .cpuDispatchPcb]
  | enviado {d pid x q} (hd : Espera d) (h : s.enCpu = some pid) (hx : s.procesos pid = some x)
      (h1 : s.cpu.dispatch = [q]) (h2 : s.cpu.respuestas = []) (hq : EsPcb q x) (hl : Listo q (M pid)) :
      Turno s d [.cpu .recibirPcb]
  | atendido {b pid x} (h : s.enCpu = some pid) (hx : s.procesos pid = some x)
      (h1 : s.cpu.dispatch = []) (h2 : s.cpu.respuestas = []) (hb : Fase c A g s pid x (M pid) b) :
      Turno s [.cpu b] [.cpu .recibirPcb]
  | respondido {d pid x q} (hd : Espera d) (h : s.enCpu = some pid) (hx : s.procesos pid = some x)
      (h1 : s.cpu.dispatch = []) (h2 : s.cpu.respuestas = [q]) (hq : EsPcb q x)
      (hc : q.programCounter = (M pid).contador) (hinf : Informa q (M pid)) : Turno s d [.cpu .recibirPcb]

/-- A process is its machine: it has run its program from the start, its memory is the array
that the memory module serves, and while the CPU does not have it, its PCB tells where it is. -/
structure Corresponde (s : Global) (pid : ℕ) (x : Proceso) (m : Maquina) : Prop where
  id : x.pcb.id = pid
  chico : pid < 2 ^ 32
  dueno : EsDe g s.finalizados x.tabla pid
  tamano : (A pid).tamano = x.tamano
  memoria : (A pid).bytes = m.memoria
  valido : ProgramaValido x.pcb.instructions
  corre : ∃ n, Lenguaje.corre x.pcb.instructions n = some m
  quieto : s.enCpu ≠ some pid → x.pcb.programCounter = m.contador ∧ Informa x.pcb m

/-- The memory module serves the arrays of the machines, and every process is its machine. -/
structure Representa (s : Global) : Prop where
  memoria : s.cpu.memoria = some g
  memoriza : Memoriza c A g s.finalizados
  tamPagina : s.cpu.mmu.configMemoria.tamPagina = c.tamPagina
  procesos : ∀ pid x, s.procesos pid = some x → Corresponde A g s pid x (M pid)
  ausente : ∀ pid, s.procesos pid = none → ∀ t, ¬ EsDe g s.finalizados t pid

/-- The threads: the dispatch handler, the interrupt handler, and those of the kernel. -/
def Hilos (e : Config Global Action) : Prop := ∃ d i k,
  e.threads = [d, i, k, [.cpu .cpuInterrupt], [.pedir]] ∧ (i = [] ∨ i = [.cpu .recibirInterrupt]) ∧
    Turno c A g M e.state d k

variable {c A g M} {s : Global} {e : Effect Global Action} {a : Cpu.Action} {o : Outcome} {k : List Action}

/-! ### The dispatch handler -/

theorem act_cpu (h1 : a ≠ .cpuDispatchPcb) (h2 : a ≠ .recibirPcb) (h : act c (.cpu a) o s = some e) :
    ∃ o' r, o = .cpu o' ∧ Cpu.act (memoriaSwap c) a o' s.cpu = some r ∧ e = lift s r := by
  cases o with
  | cpu o' =>
    have h3 : act c (.cpu a) (.cpu o') s = (Cpu.act (memoriaSwap c) a o' s.cpu).map (lift s) := by
      cases a with
      | cpuDispatchPcb => exact absurd rfl h1
      | recibirPcb => exact absurd rfl h2
      | _ => rfl
    obtain ⟨r, hr, rfl⟩ := Option.map_eq_some_iff.mp (h3 ▸ h)
    exact ⟨o', r, rfl, hr, rfl⟩
  | despachar pid estimado =>
    cases a with
    | cpuDispatchPcb => exact absurd rfl h1
    | _ => cases h
  | _ => cases a <;> cases h

theorem EsPcb.tabla {q : Pcb} {x : Proceso} (h : EsPcb q x) : toU32 q.tablaPaginas = x.tabla := by
  rw [h.tablaPaginas, Proceso.tabla]

theorem EsPcb.congr {q q' : Pcb} {x : Proceso} (h : EsPcb q x) (h1 : q'.id = q.id)
    (h2 : q'.tablaPaginas = q.tablaPaginas) (h3 : q'.instructions = q.instructions) : EsPcb q' x :=
  ⟨h1.trans h.id, h2.trans h.tablaPaginas, h3.trans h.instructions⟩

/-- The CPU changes the memory of the process it executes. -/
theorem Representa.propio {A' : ℕ → Plano} {g' : MemoriaGlobal} {M' : ℕ → Maquina} {pid : ℕ} {x : Proceso}
    {cpu' : CpuGlobal (Option MemoriaGlobal)} (h : Representa c A g M s) (hpid : s.enCpu = some pid)
    (hx : s.procesos pid = some x) (hmem : cpu'.memoria = some g') (hmz : Memoriza c A' g' s.finalizados)
    (htam : cpu'.mmu.configMemoria.tamPagina = c.tamPagina) {t : ℕ} (hde : Memoria.Ajenas c t g g')
    (hA : ∀ q, q ≠ pid → A' q = A q) (hM : ∀ q, q ≠ pid → M' q = M q) (ht : (A' pid).tamano = x.tamano)
    (hb : (A' pid).bytes = (M' pid).memoria)
    (hc : ∃ n, Lenguaje.corre x.pcb.instructions n = some (M' pid)) :
    Representa c A' g' M' { s with cpu := cpu' } where
  memoria := hmem
  memoriza := hmz
  tamPagina := htam
  procesos q y hy := by
    have h1 := h.procesos q y hy
    have h2 : EsDe g' s.finalizados y.tabla q := ⟨h1.dueno.1, hde.pcbId y.tabla ▸ h1.dueno.2⟩
    by_cases hq : q = pid
    · subst hq
      obtain rfl : x = y := Option.some.inj (hx.symm.trans hy)
      exact ⟨h1.id, h1.chico, h2, ht, hb, h1.valido, hc, fun hn => absurd hpid hn⟩
    · rw [hM q hq]
      exact ⟨h1.id, h1.chico, h2, hA q hq ▸ h1.tamano, hA q hq ▸ h1.memoria, h1.valido, h1.corre, h1.quieto⟩
  ausente q hq t' ht' := h.ausente q hq t' ⟨ht'.1, hde.pcbId t' ▸ ht'.2⟩

/-- The CPU does not change the memory module. -/
theorem Representa.cpu {cpu' : CpuGlobal (Option MemoriaGlobal)} (h : Representa c A g M s)
    (hmem : cpu'.memoria = s.cpu.memoria) (htam : cpu'.mmu.configMemoria = s.cpu.mmu.configMemoria) :
    Representa c A g M { s with cpu := cpu' } where
  memoria := hmem ▸ h.memoria
  memoriza := h.memoriza
  tamPagina := htam ▸ h.tamPagina
  procesos q y hy := by
    obtain ⟨h1, h2, h3, h4, h5, h6, h7, h8⟩ := h.procesos q y hy
    exact ⟨h1, h2, h3, h4, h5, h6, h7, h8⟩
  ausente := h.ausente

/-- The TLB is empty when a process gets the CPU. -/
theorem enCpu_limpia {pid : ℕ} {x : Proceso} {m : Maquina} {q : Pcb} (h : Representa c A g M s)
    (hc : Corresponde A g s pid x m) (hq : EsPcb q x) :
    EnCpu c A pid ⟨{ s.cpu.mmu with tlb := limpiarTlb s.cpu.mmu.tlb }, g, s.finalizados, q⟩ := by
  have h1 : EsDe g s.finalizados (toU32 q.tablaPaginas) pid := hq.tabla ▸ hc.dueno
  exact ⟨h.memoriza, ⟨h.memoriza.corrida, ⟨h1.lt, h1.1⟩, fun y hy => absurd hy (mem_limpiarTlb _ y)⟩, h1,
    h.tamPagina⟩

theorem Accesible.de {pid : ℕ} {x : Proceso} {m : Maquina} {q : Pcb} {dir : ℤ} (h : Accesible c s q dir)
    (hmem : s.cpu.memoria = some g) (hx : s.procesos pid = some x) (hc : Corresponde A g s pid x m)
    (hq : EsPcb q x) : Accede c (A pid).tamano ⟨s.cpu.mmu, g, s.finalizados, q⟩ dir := by
  have h1 : toU32 q.id = pid := by rw [hq.id, hc.id, toU32_of_lt hc.chico]
  rw [hc.tamano]
  exact h g x hmem (h1.symm ▸ hx)

/-- The instruction that is fetched. -/
theorem Listo.fetch {q : Pcb} {x : Proceso} {m : Maquina} {pid : ℕ} (hl : Listo q m) (hq : EsPcb q x)
    (hc : Corresponde A g s pid x m) : ∃ i, listGet q.instructions q.programCounter = some i ∧
      listGet q.instructions m.contador = some i := by
  obtain ⟨n, hn⟩ := hc.corre
  obtain ⟨y, hy⟩ := Lenguaje.paso_isSome hc.valido hn hl.fin
  obtain ⟨-, i, r, hi, -⟩ := Lenguaje.paso_some hy
  rw [hq.instructions, hl.contador]
  exact ⟨i, hi, hi⟩

/-- The machine after the instruction that was fetched. -/
theorem corre_paso {q : Pcb} {x : Proceso} {m : Maquina} {pid : ℕ} {i : Instruction}
    {r : Lenguaje.Memoria × Lenguaje.Fin} (hq : EsPcb q x) (hc : Corresponde A g s pid x m) (hf : m.fin ≠ .exit)
    (hi : listGet q.instructions m.contador = some i) (hr : Lenguaje.efecto i (A pid).bytes = some r) :
    ∃ n, Lenguaje.corre x.pcb.instructions n =
      some { contador := m.contador + 1, memoria := r.1, fin := r.2 } := by
  obtain ⟨n, hn⟩ := hc.corre
  rw [hc.memoria] at hr
  refine ⟨n + 1, ?_⟩
  rw [Lenguaje.corre, hn, Option.bind_some, Lenguaje.paso, if_neg hf, ← hq.instructions, hi,
    Option.bind_some, hr, Option.map_some]

theorem tras_cases (i : Instruction) (q : Pcb) : tras i q = .checkInterrupt q ∨ tras i q = .testInterrupcion q := by
  unfold tras
  split
  · exact Or.inl rfl
  · exact Or.inr rfl

/-- What a step of the dispatch handler leaves: the threads and the machines. -/
structure Sigue (c : ConfigMemoria) (s : Global) (r : Effect (CpuGlobal (Option MemoriaGlobal)) Cpu.Action)
    (k : List Action) (A : ℕ → Plano) (g : MemoriaGlobal) (M : ℕ → Maquina) : Prop where
  representa : Representa c A g M { s with cpu := r.state }
  turno : Turno c A g M { s with cpu := r.state } (if r.stop then [] else r.next.map .cpu) k
  spawn : r.spawn = []

/-- **A step with a PCB.** The machine of its process makes a step when the instruction is
executed. -/
theorem Fase.paso {pid : ℕ} {x : Proceso} {o' : Cpu.Outcome}
    {r : Effect (CpuGlobal (Option MemoriaGlobal)) Cpu.Action} (hm : 1 ≤ c.marcosPorProceso)
    (ha : c.algoritmoReemplazo ≠ .otro) (hR : Representa c A g M s) (hpid : s.enCpu = some pid)
    (hx : s.procesos pid = some x) (h1 : s.cpu.dispatch = []) (h2 : s.cpu.respuestas = [])
    (hb : Fase c A g s pid x (M pid) a) (hP : Permite c s (.cpu a) o)
    (hr : Cpu.act (memoriaSwap c) a o' s.cpu = some r) :
    ∃ A' g' M', Sigue c s r [.cpu .recibirPcb] A' g' M' := by
  have hc := hR.procesos pid x hx
  have hrama := act_rama hr
  cases hb with
  | borrar q hq hl =>
    cases hrama
    exact ⟨A, g, M, hR.cpu rfl rfl, .atendido hpid hx h1 h2 (.ejecutar q hq hl), rfl⟩
  | ejecutar q hq hl =>
    cases hrama
    exact ⟨A, g, M, hR.cpu rfl rfl, .atendido hpid hx h1 h2 (.fetch q hq hl (enCpu_limpia hR hc hq) rfl), rfl⟩
  | fetch q hq hl he hp =>
    obtain ⟨i, hi, hi'⟩ := hl.fetch hq hc
    cases hrama with
    | fetch _ i' _ _ h =>
      obtain rfl : i = i' := Option.some.inj (hi.symm.trans h)
      have hl' : Listo { q with programCounter := q.programCounter + 1 - 1 } (M pid) :=
        ⟨(add_sub_cancel_right q.programCounter 1).trans hl.contador, hl.fin, hl.condicion⟩
      exact ⟨A, g, M, hR.cpu rfl rfl, .atendido hpid hx h1 h2
        (.operands _ i (hq.congr rfl rfl rfl) hl' (he.congr rfl) hp hi'), rfl⟩
    | fetchNull _ _ _ h =>
      rw [hi] at h
      cases h
  | operands q i hq hl he hp hi =>
    have hval : i.Valida := hc.valido.valida i (hq.instructions ▸ List.mem_of_getElem? (listGet_some hi).2.2)
    obtain ⟨v, m, g', hfase, hv, hA, he'⟩ := he.operando hm ha hval fun hcod dir hdir =>
      (hP hcod dir hdir).de hR.memoria hx hc hq
    rw [← hR.memoria] at hfase
    cases hrama with
    | faseOperands _ _ v' m' t _ _ h =>
      obtain ⟨rfl, rfl, rfl⟩ : v = v' ∧ m = m' ∧ some g' = t := by
        have h3 := hfase.symm.trans h
        simpa only [Option.some.injEq, Prod.mk.injEq] using h3
      exact ⟨A, g', M, hR.propio hpid hx rfl he'.memoriza he'.tamPagina hA (fun _ _ => rfl) (fun _ _ => rfl)
        hc.tamano hc.memoria hc.corre, .atendido hpid hx h1 h2
          (.execute q i v hq hl he' hp hi (hc.memoria ▸ hv)), rfl⟩
    | sinOperando _ _ m' t _ _ h =>
      have h3 := hfase.symm.trans h
      simp only [Option.some.injEq, Prod.mk.injEq] at h3
      cases h3.1
    | faseOperandsNull _ _ _ _ h =>
      rw [hfase] at h
      cases h
  | execute q i v hq hl he hp hi hv =>
    have hval : i.Valida := hc.valido.valida i (hq.instructions ▸ List.mem_of_getElem? (listGet_some hi).2.2)
    obtain ⟨w, q', enviar, m, g', hef, hex, henv, hdeja, hA, he'⟩ := he.instruccion (v := v) hm ha hval
      (fun hcod dir hdir => (hP hcod dir hdir).de hR.memoria hx hc hq) (hc.memoria ▸ hv)
    rw [← hR.memoria] at hex
    have hcorre := corre_paso hq hc hl.fin hi hef
    cases hrama with
    | execute _ _ _ q'' enviar' m' t _ _ h =>
      obtain ⟨rfl, rfl, rfl, rfl⟩ : q' = q'' ∧ enviar = enviar' ∧ m = m' ∧ some g' = t := by
        have h3 := hex.symm.trans h
        simpa only [Option.some.injEq, Prod.mk.injEq] using h3
      refine ⟨Function.update A pid { A pid with bytes := w.1 }, g',
        Function.update M pid { contador := (M pid).contador + 1, memoria := w.1, fin := w.2 }, ?_, ?_, rfl⟩
      · exact hR.propio hpid hx rfl he'.memoriza he'.tamPagina hA (fun p hp => Function.update_of_ne hp ..)
          (fun p hp => Function.update_of_ne hp ..) (by rw [Function.update_self]; exact hc.tamano)
          (by rw [Function.update_self, Function.update_self])
          (by rw [Function.update_self]; exact hcorre)
      · -- the PCB tells how the instruction ended
        have hq' : EsPcb q' x := hq.congr hdeja.id hdeja.tablaPaginas hdeja.instructions
        have hcont : q'.programCounter = (M pid).contador + 1 := by
          rw [hdeja.programCounter, ← hl.contador]
          exact (sub_add_cancel q.programCounter 1).symm
        have hinf : Informa q' { contador := (M pid).contador + 1, memoria := w.1, fin := w.2 } := by
          unfold Informa
          rcases hw : w.2 with _ | n | _
          · rw [hdeja.sigue hw]
            exact hl.condicion
          · exact hdeja.io n hw
          · exact hdeja.exit hw
        have hpe : (s.cpu.enviarPcbOExit || enviar) = true ↔ w.2 ≠ .sigue := by
          rw [hp, Bool.false_or]
          exact henv
        refine .atendido (x := x) hpid hx h1 h2 ?_
        rw [Function.update_self]
        rcases tras_cases i q' with ht | ht <;> rw [ht]
        · exact .check q' hq' hcont hinf (he'.congr hdeja.tablaPaginas) hpe
        · exact .test q' hq' hcont hinf (he'.congr hdeja.tablaPaginas) hpe
    | executeNull _ _ _ _ _ h =>
      rw [hex] at h
      cases h
  | test q hq hcon hinf he hp =>
    cases hrama with
    | interrumpida _ _ _ h =>
      have hfin : (M pid).fin = .sigue := by
        by_contra hf
        rw [hp.mpr hf] at h
        cases h.2
      refine ⟨A, g, M, hR.cpu rfl rfl, .atendido hpid hx h1 h2 (.check _ (hq.congr rfl rfl rfl) hcon ?_
        (he.congr rfl) hp), rfl⟩
      unfold Informa
      rw [hfin]
      exact Or.inr rfl
    | noInterrumpida _ _ _ h =>
      exact ⟨A, g, M, hR.cpu rfl rfl, .atendido hpid hx h1 h2 (.check q hq hcon hinf he hp), rfl⟩
  | check q hq hcon hinf he hp =>
    cases hrama with
    | termina _ _ _ h => exact ⟨A, g, M, hR.cpu rfl rfl, .atendido hpid hx h1 h2 (.fin q hq hcon hinf), rfl⟩
    | sigue _ _ _ h =>
      have hfin : (M pid).fin = .sigue := by
        by_contra hf
        rw [hp.mpr hf] at h
        cases h.1
      have hcond := hinf
      unfold Informa at hcond
      rw [hfin] at hcond
      exact ⟨A, g, M, hR.cpu rfl rfl, .atendido hpid hx h1 h2 (.fetch q hq
        ⟨hcon, by rw [hfin]; exact fun hn => (by cases hn), hcond⟩ he h.1), rfl⟩
  | fin q hq hcon hinf =>
    cases hrama
    exact ⟨A, g, M, hR.cpu rfl rfl, .atendido hpid hx h1 h2 (.enviar _ (hq.congr rfl rfl rfl) hcon hinf), rfl⟩
  | enviar q hq hcon hinf =>
    cases hrama
    refine ⟨A, g, M, hR.cpu rfl rfl, .respondido (Or.inr rfl) hpid hx h1 ?_ hq hcon hinf, rfl⟩
    show s.cpu.respuestas ++ [q] = [q]
    rw [h2, List.nil_append]

/-! ### The other threads -/

theorem Fase.imp {A' : ℕ → Plano} {g' : MemoriaGlobal} {s' : Global} {pid : ℕ} {x : Proceso} {m : Maquina}
    (h : Fase c A g s pid x m a) (hp : s'.cpu.enviarPcbOExit = s.cpu.enviarPcbOExit)
    (hE : ∀ q, EsPcb q x → EnCpu c A pid ⟨s.cpu.mmu, g, s.finalizados, q⟩ →
      EnCpu c A' pid ⟨s'.cpu.mmu, g', s'.finalizados, q⟩) : Fase c A' g' s' pid x m a := by
  cases h with
  | borrar q hq hl => exact .borrar q hq hl
  | ejecutar q hq hl => exact .ejecutar q hq hl
  | fetch q hq hl he h1 => exact .fetch q hq hl (hE q hq he) (hp.trans h1)
  | operands q i hq hl he h1 hi => exact .operands q i hq hl (hE q hq he) (hp.trans h1) hi
  | execute q i v hq hl he h1 hi hv => exact .execute q i v hq hl (hE q hq he) (hp.trans h1) hi hv
  | test q hq hc hinf he h1 => exact .test q hq hc hinf (hE q hq he) (hp.symm ▸ h1)
  | check q hq hc hinf he h1 => exact .check q hq hc hinf (hE q hq he) (hp.symm ▸ h1)
  | fin q hq hc hinf => exact .fin q hq hc hinf
  | enviar q hq hc hinf => exact .enviar q hq hc hinf

/-- What leaves the PCB on the CPU alone. -/
theorem Turno.imp {A' : ℕ → Plano} {g' : MemoriaGlobal} {M' : ℕ → Maquina} {s' : Global} {d : List Action}
    (h : Turno c A g M s d k) (h0 : s'.enCpu = s.enCpu)
    (hproc : ∀ pid, s.enCpu = some pid → s'.procesos pid = s.procesos pid ∧ M' pid = M pid)
    (hdis : s'.cpu.dispatch = s.cpu.dispatch) (hres : s'.cpu.respuestas = s.cpu.respuestas)
    (hp : s'.cpu.enviarPcbOExit = s.cpu.enviarPcbOExit)
    (hE : ∀ pid q x, s.enCpu = some pid → s.procesos pid = some x → EsPcb q x →
      EnCpu c A pid ⟨s.cpu.mmu, g, s.finalizados, q⟩ →
      EnCpu c A' pid ⟨s'.cpu.mmu, g', s'.finalizados, q⟩) : Turno c A' g' M' s' d k := by
  cases h with
  | libre hd h h1 h2 => exact .libre hd (h0.trans h) (hdis.trans h1) (hres.trans h2)
  | @enviado _ pid x q hd h hx h1 h2 hq hl =>
    obtain ⟨h3, h4⟩ := hproc pid h
    exact .enviado hd (h0.trans h) (h3.trans hx) (hdis.trans h1) (hres.trans h2) hq (h4.symm ▸ hl)
  | @atendido b pid x h hx h1 h2 hb =>
    obtain ⟨h3, h4⟩ := hproc pid h
    exact .atendido (h0.trans h) (h3.trans hx) (hdis.trans h1) (hres.trans h2)
      (h4.symm ▸ hb.imp hp fun q => hE pid q x h hx)
  | @respondido _ pid x q hd h hx h1 h2 hq hc hinf =>
    obtain ⟨h3, h4⟩ := hproc pid h
    exact .respondido hd (h0.trans h) (h3.trans hx) (hdis.trans h1) (hres.trans h2) hq (h4.symm ▸ hc)
      (h4.symm ▸ hinf)

/-- The threads of the interrupts change the flag and their socket. -/
theorem Turno.interrupcion {cpu' : CpuGlobal (Option MemoriaGlobal)} {d : List Action}
    (h : Turno c A g M s d k) (hdis : cpu'.dispatch = s.cpu.dispatch)
    (hres : cpu'.respuestas = s.cpu.respuestas) (hp : cpu'.enviarPcbOExit = s.cpu.enviarPcbOExit)
    (hmmu : cpu'.mmu = s.cpu.mmu) : Turno c A g M { s with cpu := cpu' } d k :=
  h.imp rfl (fun _ _ => ⟨rfl, rfl⟩) hdis hres hp fun pid q x _ _ _ he => by
    show EnCpu c A pid ⟨cpu'.mmu, g, s.finalizados, q⟩
    exact hmmu.symm ▸ he

/-- The handler receives the PCB, or waits again, or ends. -/
theorem recibirDispatch_cases {o' : Cpu.Outcome} {r : Effect (CpuGlobal (Option MemoriaGlobal)) Cpu.Action}
    (hr : Cpu.act (memoriaSwap c) .recibirDispatch o' s.cpu = some r) : r.spawn = [] ∧
      (r.state = s.cpu ∧ Espera ((lift s r).rest []) ∨ ∃ q l, s.cpu.dispatch = q :: l ∧
        r.state = { s.cpu with dispatch := l } ∧ (lift s r).rest [] = [.cpu (.borrarInterrupcion q)]) := by
  cases act_rama hr with
  | desconectado => exact ⟨rfl, Or.inl ⟨rfl, Or.inl rfl⟩⟩
  | errorDispatch => exact ⟨rfl, Or.inl ⟨rfl, Or.inr rfl⟩⟩
  | recibirDispatch q l _ _ h => exact ⟨rfl, Or.inr ⟨q, l, h, rfl, rfl⟩⟩

/-- **The dispatch handler.** -/
theorem despacho_paso {d : List Action} {b : Action} (hm : 1 ≤ c.marcosPorProceso)
    (ha : c.algoritmoReemplazo ≠ .otro) (hR : Representa c A g M s) (hT : Turno c A g M s (b :: d) k)
    (hP : Permite c s b o) (he : act c b o s = some e) : d = [] ∧ e.spawn = [] ∧
      ∃ A' g' M', Representa c A' g' M' e.state ∧ Turno c A' g' M' e.state (e.rest []) k := by
  have hespera : Espera (b :: d) → d = [] ∧ ∃ o' r, Cpu.act (memoriaSwap c) .recibirDispatch o' s.cpu = some r ∧
      e = lift s r := by
    rintro (h | h)
    · cases h
    · cases h
      obtain ⟨o', r, -, hr, rfl⟩ := act_cpu (by simp) (by simp) he
      exact ⟨rfl, o', r, hr, rfl⟩
  cases hT with
  | libre hd h h1 h2 =>
    obtain ⟨rfl, o', r, hr, rfl⟩ := hespera hd
    obtain ⟨hsp, ⟨hst, hd'⟩ | ⟨q, l, hdis, -⟩⟩ := recibirDispatch_cases hr
    · refine ⟨rfl, by rw [lift, hsp]; rfl, A, g, M, ?_, ?_⟩
      · rw [lift, hst]
        exact hR
      · refine .libre hd' h ?_ ?_ <;> rw [lift, hst]
        exacts [h1, h2]
    · rw [h1] at hdis
      cases hdis
  | @enviado _ pid x q hd h hx h1 h2 hq hl =>
    obtain ⟨rfl, o', r, hr, rfl⟩ := hespera hd
    obtain ⟨hsp, ⟨hst, hd'⟩ | ⟨q', l, hdis, hst, hd'⟩⟩ := recibirDispatch_cases hr
    · refine ⟨rfl, by rw [lift, hsp]; rfl, A, g, M, ?_, ?_⟩
      · rw [lift, hst]
        exact hR
      · refine .enviado hd' h hx ?_ ?_ hq hl <;> rw [lift, hst]
        exacts [h1, h2]
    · rw [h1] at hdis
      obtain ⟨rfl, rfl⟩ : q = q' ∧ [] = l := by simpa using hdis
      refine ⟨rfl, by rw [lift, hsp]; rfl, A, g, M, ?_, ?_⟩
      · rw [lift, hst]
        exact hR.cpu rfl rfl
      · rw [hd']
        refine .atendido h hx ?_ ?_ (.borrar q hq hl) <;> rw [lift, hst]
        exact h2
  | @atendido b' pid x h hx h1 h2 hb =>
    have hno : b' ≠ .cpuDispatchPcb ∧ b' ≠ .recibirPcb := by
      constructor <;> rintro rfl <;> cases hb
    obtain ⟨o', r, -, hr, rfl⟩ := act_cpu hno.1 hno.2 he
    obtain ⟨A', g', M', hR', hT', hsp⟩ := hb.paso hm ha hR h hx h1 h2 hP hr
    refine ⟨rfl, by rw [lift, hsp]; rfl, A', g', M', hR', ?_⟩
    rw [Effect.rest, List.append_nil]
    exact hT'
  | @respondido _ pid x q hd h hx h1 h2 hq hc hinf =>
    obtain ⟨rfl, o', r, hr, rfl⟩ := hespera hd
    obtain ⟨hsp, ⟨hst, hd'⟩ | ⟨q', l, hdis, -⟩⟩ := recibirDispatch_cases hr
    · refine ⟨rfl, by rw [lift, hsp]; rfl, A, g, M, ?_, ?_⟩
      · rw [lift, hst]
        exact hR
      · refine .respondido hd' h hx ?_ ?_ hq hc hinf <;> rw [lift, hst]
        exacts [h1, h2]
    · rw [h1] at hdis
      cases hdis

/-- **The interrupt handler.** -/
theorem interrupcion_paso {d : List Action} (hR : Representa c A g M s) (hT : Turno c A g M s d k)
    (h : a = .recibirInterrupt ∨ a = .cpuInterrupt) (he : act c (.cpu a) o s = some e) : e.spawn = [] ∧
      (e.rest [] = [] ∨ e.rest [] = [.cpu a]) ∧ (a = .cpuInterrupt → e.rest [] = [.cpu a]) ∧
      Representa c A g M e.state ∧ Turno c A g M e.state d k := by
  obtain ⟨o', r, -, hr, rfl⟩ := act_cpu (by rintro rfl; simp at h) (by rintro rfl; simp at h) he
  rcases h with rfl | rfl
  · cases act_rama hr with
    | interruptLost => exact ⟨rfl, Or.inl rfl, fun h => (by cases h), hR, hT⟩
    | errorInterrupt => exact ⟨rfl, Or.inr rfl, fun h => (by cases h), hR, hT⟩
    | recibirInterrupt => exact ⟨rfl, Or.inr rfl, fun h => (by cases h), hR.cpu rfl rfl, hT.interrupcion rfl rfl rfl rfl⟩
    | otraSignal => exact ⟨rfl, Or.inr rfl, fun h => (by cases h), hR.cpu rfl rfl, hT.interrupcion rfl rfl rfl rfl⟩
  · cases act_rama hr
    exact ⟨rfl, Or.inr rfl, fun _ => rfl, hR.cpu rfl rfl, hT.interrupcion rfl rfl rfl rfl⟩

theorem Informa.congr {q q' : Pcb} {m : Maquina} (h : Informa q m) (h1 : q'.cpuDispatchCond = q.cpuDispatchCond)
    (h2 : q'.ioBurst = q.ioBurst) : Informa q' m := by
  unfold Informa at h ⊢
  rw [h1, h2]
  exact h

/-- **The kernel's dispatch.** -/
theorem kernel_paso {d : List Action} (hR : Representa c A g M s) (hT : Turno c A g M s d (.cpu a :: k))
    (he : act c (.cpu a) o s = some e) : k = [] ∧ e.spawn = [] ∧
      Representa c A g M e.state ∧ Turno c A g M e.state d (e.rest []) := by
  cases hT with
  | libre hd h h1 h2 =>
    cases o with
    | despachar pid estimado =>
      obtain ⟨x, hx, he⟩ := Option.bind_eq_some_iff.mp he
      split_ifs at he with hexit
      obtain ⟨r, hr, rfl⟩ := Option.map_eq_some_iff.mp he
      have hc := hR.procesos pid x hx
      obtain ⟨hcon, hinf⟩ := hc.quieto (by rw [h]; exact fun hn => (by cases hn))
      cases act_rama hr
      refine ⟨rfl, rfl, ?_, ?_⟩
      · refine ⟨hR.memoria, hR.memoriza, hR.tamPagina, fun p y hy => ?_, hR.ausente⟩
        obtain ⟨h3, h4, h5, h6, h7, h8, h9, h10⟩ := hR.procesos p y hy
        exact ⟨h3, h4, h5, h6, h7, h8, h9, fun _ => h10 (by rw [h]; exact fun hn => (by cases hn))⟩
      · have hfin : (M pid).fin ≠ .exit := fun hf => by
          unfold Informa at hinf
          rw [hf] at hinf
          exact hexit hinf
        refine .enviado (q := x.enviado estimado) hd rfl hx ?_ h2 ⟨rfl, rfl, rfl⟩ ⟨hcon, hfin, Or.inl rfl⟩
        show s.cpu.dispatch ++ [x.enviado estimado] = [x.enviado estimado]
        rw [h1, List.nil_append]
    | _ => cases he
  | @enviado _ pid x q hd h hx h1 h2 =>
    cases o with
    | cpu o' =>
      obtain ⟨p, -, he⟩ := Option.bind_eq_some_iff.mp he
      rw [h2] at he
      cases he
    | _ => cases he
  | @atendido b pid x h hx h1 h2 =>
    cases o with
    | cpu o' =>
      obtain ⟨p, -, he⟩ := Option.bind_eq_some_iff.mp he
      rw [h2] at he
      cases he
    | _ => cases he
  | @respondido _ pid x q hd h hx h1 h2 hq hcon hinf =>
    cases o with
    | cpu o' =>
      obtain ⟨p, hp, he⟩ := Option.bind_eq_some_iff.mp he
      obtain rfl : pid = p := Option.some.inj (h.symm.trans hp)
      rw [h2, List.head?_cons, Option.bind_some] at he
      obtain ⟨r, hr, rfl⟩ := Option.map_eq_some_iff.mp he
      cases act_rama hr with
      | recibirPcb q' l _ _ h3 =>
        rw [h2] at h3
        obtain ⟨rfl, rfl⟩ : q = q' ∧ [] = l := by simpa using h3
        refine ⟨rfl, rfl, ⟨hR.memoria, hR.memoriza, hR.tamPagina, fun p y hy => ?_, fun p hp t => ?_⟩,
          .libre hd rfl h1 rfl⟩
        · replace hy : Function.update s.procesos pid ((s.procesos pid).map (·.recibir q)) p = some y := hy
          by_cases hpp : p = pid
          · subst hpp
            rw [Function.update_self, hx] at hy
            obtain rfl := Option.some.inj hy
            obtain ⟨h3, h4, h5, h6, h7, h8, h9, -⟩ := hR.procesos p x hx
            exact ⟨h3, h4, h5, h6, h7, h8, h9, fun _ => ⟨hcon, hinf.congr rfl rfl⟩⟩
          · rw [Function.update_of_ne hpp] at hy
            obtain ⟨h3, h4, h5, h6, h7, h8, h9, h10⟩ := hR.procesos p y hy
            exact ⟨h3, h4, h5, h6, h7, h8, h9, fun _ => h10 (by rw [h]; exact fun hn => hpp (Option.some.inj hn).symm)⟩
        · replace hp : Function.update s.procesos pid ((s.procesos pid).map (·.recibir q)) p = none := hp
          by_cases hpp : p = pid
          · rw [hpp, Function.update_self, hx] at hp
            cases hp
          · rw [Function.update_of_ne hpp] at hp
            exact hR.ausente p hp t
    | _ => cases he

/-! ### The requests of the kernel -/

theorem pedir_some {pid t : ℕ} {x : Pedido} {f : ℕ → Option Proceso} (h : pedir c s pid t x f = some e)
    (hmem : s.cpu.memoria = some g) : ∃ n g', ejecutar c g (x.operacion t pid) = some (n, g') ∧ e = {
      state := { s with
        cpu := { s.cpu with memoria := some g' }
        procesos := Function.update s.procesos pid (f n)
        finalizados := (x.operacion t pid).finaliza ++ s.finalizados }
      next := [.pedir] } := by
  obtain ⟨g0, hg, h⟩ := Option.bind_eq_some_iff.mp h
  obtain rfl : g = g0 := Option.some.inj (hmem.symm.trans hg)
  obtain ⟨⟨n, g'⟩, hs, h⟩ := Option.bind_eq_some_iff.mp h
  exact ⟨n, g', hs, (Option.some.inj h).symm⟩

/-- A request for a process that the CPU does not have: what is left to say is its own. -/
theorem pedido_paso {pid t n : ℕ} {x : Pedido} {f : Option Proceso} {g' : MemoriaGlobal} {d : List Action}
    {m : Maquina} (hR : Representa c A g M s) (hT : Turno c A g M s d k) (hpid : s.enCpu ≠ some pid)
    (ho : x.De g s.finalizados t pid) (hx : (∃ tam, x = .iniciar tam) ∨ x = .suspender ∨ x = .finalizar)
    (hP : Memoria.EnSuLugar c g (x.operacion t pid)) (hs : ejecutar c g (x.operacion t pid) = some (n, g'))
    (hn : Numerable g') {s' : Global} (hs' : s' = { s with
      cpu := { s.cpu with memoria := some g' }
      procesos := Function.update s.procesos pid f
      finalizados := (x.operacion t pid).finaliza ++ s.finalizados })
    (hf : ∀ y, f = some y → Corresponde (Function.update A pid ((A pid).paso c x)) g' s' pid y m)
    (hno : f = none → ∀ u, ¬ EsDe g' s'.finalizados u pid) :
    Representa c (Function.update A pid ((A pid).paso c x)) g' (Function.update M pid m) s' ∧
      Turno c (Function.update A pid ((A pid).paso c x)) g' (Function.update M pid m) s' d k := by
  have hd : x.Dentro c (A pid) := by
    rcases hx with ⟨tam, rfl⟩ | rfl | rfl <;> trivial
  have hotro : ∀ {u q}, q ≠ pid → (EsDe g' s'.finalizados u q ↔ EsDe g s.finalizados u q) := fun {u q} hq => by
    rw [hs']
    exact hR.memoriza.esDe_otro ho hd hs hn hq
  have hproc : ∀ {q}, q ≠ pid → s'.procesos q = s.procesos q := fun {q} hq => by
    rw [hs']
    exact Function.update_of_ne hq ..
  have hself : s'.procesos pid = f := by
    rw [hs']
    exact Function.update_self ..
  refine ⟨⟨by rw [hs'], by rw [hs']; exact hR.memoriza.paso ho hd hP hs hn, by rw [hs']; exact hR.tamPagina,
    fun q y hy => ?_, fun q hq u hu => ?_⟩, ?_⟩
  · by_cases hq : q = pid
    · subst hq
      rw [Function.update_self]
      exact hf y (hself.symm.trans hy)
    · rw [Function.update_of_ne hq]
      obtain ⟨h1, h2, h3, h4, h5, h6, h7, h8⟩ := hR.procesos q y (hproc hq ▸ hy)
      refine ⟨h1, h2, (hotro hq).mpr h3, ?_, ?_, h6, h7, fun h => h8 ?_⟩
      · rw [Function.update_of_ne hq]
        exact h4
      · rw [Function.update_of_ne hq]
        exact h5
      · rw [hs'] at h
        exact h
  · by_cases hqp : q = pid
    · subst hqp
      exact hno (hself.symm.trans hq) u hu
    · exact hR.ausente q (hproc hqp ▸ hq) u ((hotro hqp).mp hu)
  · have hne : ∀ q, s.enCpu = some q → q ≠ pid := fun q h1 h2 => hpid (h2 ▸ h1)
    refine hT.imp (by rw [hs']) (fun q h1 => ⟨hproc (hne q h1), Function.update_of_ne (hne q h1) ..⟩)
      (by rw [hs']) (by rw [hs']) (by rw [hs']) fun q p y h1 _ _ he => ?_
    rw [hs']
    exact he.otro ho (Ne.symm (hne q h1)) hx hP hs hn

/-- The CPU asks for the table that the memory module answered. -/
theorem nuevo_tabla {pid n : ℕ} {p : Program} (h : n < 2 ^ 32) : (nuevo pid p n).tabla = n := by
  rw [Proceso.tabla, nuevo, toU32_toInt, toU32_of_lt h]

/-- **The kernel's requests to the memory module.** -/
theorem memoria_paso {d : List Action} (hR : Representa c A g M s) (hT : Turno c A g M s d k)
    (hP : Permite c s .pedir o) (he : act c .pedir o s = some e) : e.spawn = [] ∧ e.rest [] = [.pedir] ∧
      ∃ A' g' M', Representa c A' g' M' e.state ∧ Turno c A' g' M' e.state d k := by
  cases o with
  | iniciar pid p =>
    obtain ⟨hval, hcubre, hchico, hnum⟩ := hP
    replace he : (if (s.procesos pid).isSome then none
      else pedir c s pid 0 (.iniciar (toU32 p.size)) fun n => some (nuevo pid p n)) = some e := he
    split_ifs at he with hsome
    have hnone : s.procesos pid = none := by simpa using hsome
    obtain ⟨n, g', hs, rfl⟩ := pedir_some he hR.memoria
    have hn := hnum g n g' hR.memoria hs
    obtain ⟨hde, hlt⟩ := hR.memoriza.esDe_iniciar hs hn
    have hfree : s.enCpu ≠ some pid := by
      intro hpid
      cases hT with
      | libre _ h => rw [hpid] at h; cases h
      | enviado _ h hx | respondido _ h hx | atendido h hx =>
        obtain rfl := Option.some.inj (hpid.symm.trans h)
        rw [hnone] at hx
        cases hx
    obtain ⟨h1, h2⟩ := pedido_paso (t := 0) (x := .iniciar (toU32 p.size)) (f := some (nuevo pid p n)) (m := {})
      hR hT hfree (fun u _ => hR.ausente pid hnone u) (Or.inl ⟨_, rfl⟩) hcubre hs hn rfl
      (fun y hy => by
        obtain rfl := Option.some.inj hy
        refine ⟨rfl, hchico, ?_, ?_, ?_, hval, ⟨0, rfl⟩, fun _ => ⟨rfl, Or.inl rfl⟩⟩
        · rw [nuevo_tabla hlt]
          exact hde
        · rw [Function.update_self]
          rfl
        · rw [Function.update_self]
          rfl) fun h => by cases h
    exact ⟨rfl, rfl, _, _, _, h1, h2⟩
  | suspender pid =>
    obtain ⟨hfree, hP⟩ := hP
    obtain ⟨x, hx, he⟩ := Option.bind_eq_some_iff.mp he
    obtain ⟨n, g', hs, rfl⟩ := pedir_some he hR.memoria
    have hc := hR.procesos pid x hx
    obtain ⟨hde, hn⟩ := hR.memoriza.esDe_suspender hc.dueno hs
    obtain ⟨h1, h2⟩ := pedido_paso (x := .suspender) (f := some x) (m := M pid) hR hT hfree hc.dueno
      (Or.inr (Or.inl rfl)) (hP g x hR.memoria hx) hs hn rfl
      (fun y hy => by
        obtain rfl := Option.some.inj hy
        refine ⟨hc.id, hc.chico, hde, ?_, ?_, hc.valido, hc.corre, hc.quieto⟩
        · rw [Function.update_self]
          exact hc.tamano
        · rw [Function.update_self]
          exact hc.memoria) fun h => by cases h
    exact ⟨rfl, rfl, _, _, _, h1, h2⟩
  | finalizar pid =>
    obtain ⟨x, hx, he⟩ := Option.bind_eq_some_iff.mp he
    obtain ⟨n, g', hs, rfl⟩ := pedir_some he hR.memoria
    have hc := hR.procesos pid x hx
    obtain ⟨hde, hn⟩ := hR.memoriza.esDe_finalizar hc.dueno hs
    obtain ⟨h1, h2⟩ := pedido_paso (x := .finalizar) (f := none) (m := {}) hR hT hP hc.dueno
      (Or.inr (Or.inr rfl)) (fun w hw => absurd hw List.not_mem_nil) hs hn rfl
      (fun y hy => by cases hy) fun _ => hde
    exact ⟨rfl, rfl, _, _, _, h1, h2⟩
  | _ => cases he

/-! ### Every run -/

/-- **A step** of any of the threads. -/
theorem representa_paso {e e' : Config Global Action} {x : ℕ × Outcome} (hm : 1 ≤ c.marcosPorProceso)
    (ha : c.algoritmoReemplazo ≠ .otro) (hR : Representa c A g M e.state) (hH : Hilos c A g M e)
    (hok : Cumple c e x) (hs : Threads.step (act c) e x = some e') :
    ∃ A' g' M', Representa c A' g' M' e'.state ∧ Hilos c A' g' M' e' := by
  obtain ⟨d, i, k, hth, hi, hT⟩ := hH
  obtain ⟨b, l, r, hk, hr, rfl⟩ := step_some hs
  have hP := hok b l hk
  obtain ⟨n, o⟩ := x
  dsimp only at hk hr hP ⊢
  rw [hth] at hk
  rcases n with _ | _ | _ | _ | _ | n
  · obtain rfl : d = b :: l := by simpa using hk
    obtain ⟨rfl, hsp, A', g', M', hR', hT'⟩ := despacho_paso hm ha hR hT hP hr
    exact ⟨A', g', M', hR', _, i, k, by rw [hth, hsp]; rfl, hi, hT'⟩
  · obtain rfl : i = b :: l := by simpa using hk
    obtain ⟨rfl, rfl⟩ : b = .cpu .recibirInterrupt ∧ l = [] := by simpa using hi
    obtain ⟨hsp, hi', -, hR', hT'⟩ := interrupcion_paso hR hT (Or.inl rfl) hr
    exact ⟨A, g, M, hR', d, _, k, by rw [hth, hsp]; rfl, hi', hT'⟩
  · obtain rfl : k = b :: l := by simpa using hk
    obtain ⟨a, rfl⟩ : ∃ a, b = .cpu a := by
      cases hT <;> exact ⟨_, rfl⟩
    obtain ⟨rfl, hsp, hR', hT'⟩ := kernel_paso hR hT hr
    exact ⟨A, g, M, hR', d, i, _, by rw [hth, hsp]; rfl, hi, hT'⟩
  · obtain ⟨rfl, rfl⟩ : Action.cpu .cpuInterrupt = b ∧ [] = l := by simpa using hk
    obtain ⟨hsp, -, hi', hR', hT'⟩ := interrupcion_paso hR hT (Or.inr rfl) hr
    exact ⟨A, g, M, hR', d, i, k, by rw [hth, hsp, hi' rfl]; rfl, hi, hT'⟩
  · obtain ⟨rfl, rfl⟩ : Action.pedir = b ∧ [] = l := by simpa using hk
    obtain ⟨hsp, hrest, A', g', M', hR', hT'⟩ := memoria_paso hR hT hP hr
    exact ⟨A', g', M', hR', d, i, k, by rw [hth, hsp, hrest]; rfl, hi, hT'⟩
  · simp at hk

/-- The module and the CPU when they start: no process, and one size of page. -/
structure Arranca (c : ConfigMemoria) (m : Mmu) (g : MemoriaGlobal) : Prop where
  inicial : Memoria.Inicial c g
  tamPagina : m.configMemoria.tamPagina = c.tamPagina
  marcos : 1 ≤ c.marcosPorProceso
  algoritmo : c.algoritmoReemplazo ≠ .otro

/-- **Every process runs as if it were alone**, in every run. -/
theorem reach_representa {m : Mmu} {g0 : MemoriaGlobal} {e : Config Global Action} (h0 : Arranca c m g0)
    (h : Reach (act c) (Cumple c) (start m g0) e) :
    ∃ A g M, Representa c A g M e.state ∧ Hilos c A g M e := by
  induction h with
  | start =>
    refine ⟨_, g0, fun _ => {}, ⟨rfl, .inicio h0.inicial, h0.tamPagina, fun _ _ hx => (by cases hx),
      fun _ _ t ht => ?_⟩, [.cpu .recibirDispatch], [.cpu .recibirInterrupt], [.cpu .cpuDispatchPcb], rfl,
      Or.inr rfl, .libre (Or.inr rfl) rfl rfl rfl⟩
    have h1 := ht.lt
    rw [h0.inicial.tablas] at h1
    exact absurd h1 (Nat.not_lt_zero t)
  | step x _ hok hx ih =>
    obtain ⟨A, g, M, hR, hH⟩ := ih
    exact representa_paso h0.marcos h0.algoritmo hR hH hok hx

end Ejecucion
end Kiss
