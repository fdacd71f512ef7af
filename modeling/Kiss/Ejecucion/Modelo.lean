/-
# The kernel, the CPU and the memory module together

The kernel creates, suspends and finishes processes, dispatches one PCB at a time and
interrupts it; the CPU executes it through the MMU and the TLB; the memory module keeps the
pages of all in a few frames and in their files. The steps of the CPU and of the dispatch
are those of `Cpu.act`, over the memory module that `memoriaSwap` is, and the kernel's
requests to the module may come between any two of them.

Key definitions: `Global`, `act`, `start`, `Permite`, `Cumple`.
-/
import Kiss.Accesos

namespace Kiss
namespace Ejecucion

open Cpu Transparencia Accesos Threads
open Lenguaje (Maquina)
open Memoria (ConfigMemoria MemoriaGlobal Plano Pedido EsDe Numerable ejecutar)

/-! ### The system -/

/-- What the kernel keeps of a process: its PCB, with what it received of it last, and the
size of its program. -/
structure Proceso where
  pcb : Pcb
  tamano : ℕ

/-- The table of a process. -/
def Proceso.tabla (x : Proceso) : ℕ := toU32 x.pcb.tablaPaginas

/-- The CPU with the memory module, and the kernel. -/
structure Global where
  cpu : CpuGlobal (Option MemoriaGlobal)
  procesos : ℕ → Option Proceso := fun _ => none
  /-- The process whose PCB the kernel waits for. -/
  enCpu : Option ℕ := none
  finalizados : List ℕ := []

/-- The steps of the CPU and of the kernel's dispatch, and a request of the kernel to the
memory module. -/
inductive Action
  | cpu (a : Cpu.Action)
  | pedir
  deriving DecidableEq

/-- What the environment answers: what the CPU is answered, or what the kernel decides. -/
inductive Outcome
  | cpu (o : Cpu.Outcome)
  | despachar (pid : ℕ) (estimado : ℤ)
  | iniciar (pid : ℕ) (programa : Program)
  | suspender (pid : ℕ)
  | finalizar (pid : ℕ)

/-- The PCB that is sent: the kernel clears the condition of the last dispatch. -/
def Proceso.enviado (x : Proceso) (estimado : ℤ) : Pcb :=
  { x.pcb with cpuDispatchCond := .nullCondition, cpuEstimatedBurst := estimado }

/-- What the kernel copies of a PCB it receives. -/
def Proceso.recibir (x : Proceso) (q : Pcb) : Proceso :=
  { x with pcb := { x.pcb with
      programCounter := q.programCounter
      cpuDispatchCond := q.cpuDispatchCond
      cpuExecutedBurst := q.cpuExecutedBurst
      ioBurst := q.ioBurst } }

/-- A step of the CPU model in the system. -/
def lift (s : Global) (e : Effect (CpuGlobal (Option MemoriaGlobal)) Cpu.Action) : Effect Global Action where
  state := { s with cpu := e.state }
  next := e.next.map .cpu
  spawn := e.spawn.map (·.map .cpu)
  stop := e.stop

/-- A request of process `pid`, whose table is `t`: what the memory module answers, and the
kernel's processes afterwards. -/
def pedir (c : ConfigMemoria) (s : Global) (pid t : ℕ) (e : Pedido) (f : ℕ → Option Proceso) :
    Option (Effect Global Action) := do
  let g ← s.cpu.memoria
  let (n, g') ← ejecutar c g (e.operacion t pid)
  some {
    state := { s with
      cpu := { s.cpu with memoria := some g' }
      procesos := Function.update s.procesos pid (f n)
      finalizados := (e.operacion t pid).finaliza ++ s.finalizados }
    next := [.pedir] }

/-- The process of a program, with the table that the memory module answers. -/
def nuevo (pid : ℕ) (p : Program) (n : ℕ) : Proceso where
  pcb := ⟨pid, 0, toInt n, .nullCondition, 0, 0, 0, p.instructions⟩
  tamano := toU32 p.size

/-- What an action does. -/
def act (c : ConfigMemoria) (a : Action) (o : Outcome) (s : Global) : Option (Effect Global Action) :=
  match a, o with
  | .cpu .cpuDispatchPcb, .despachar pid estimado => (s.procesos pid).bind fun x =>
    -- a process that exited is not dispatched
    if x.pcb.cpuDispatchCond = .exitProgram then none
    else (Cpu.act (memoriaSwap c) .cpuDispatchPcb (.pcb (x.enviado estimado)) s.cpu).map
      (lift { s with enCpu := some pid })
  | .cpu .recibirPcb, .cpu o => s.enCpu.bind fun pid => s.cpu.respuestas.head?.bind fun q =>
    (Cpu.act (memoriaSwap c) .recibirPcb o s.cpu).map (lift { s with
      enCpu := none
      procesos := Function.update s.procesos pid ((s.procesos pid).map (·.recibir q)) })
  | .cpu .cpuDispatchPcb, _ => none
  | .cpu a, .cpu o => (Cpu.act (memoriaSwap c) a o s.cpu).map (lift s)
  | .pedir, .iniciar pid p =>
    if (s.procesos pid).isSome then none
    else pedir c s pid 0 (.iniciar (toU32 p.size)) fun n => some (nuevo pid p n)
  | .pedir, .suspender pid => (s.procesos pid).bind fun x =>
    pedir c s pid x.tabla .suspender fun _ => some x
  | .pedir, .finalizar pid => (s.procesos pid).bind fun x =>
    pedir c s pid x.tabla .finalizar fun _ => none
  | _, _ => none

/-- The four threads of the CPU and of the dispatch, and the one of the requests. -/
def start (m : Mmu) (g : MemoriaGlobal) : Config Global Action where
  state := { cpu := { mmu := m, memoria := some g } }
  threads := [[.cpu .recibirDispatch], [.cpu .recibirInterrupt], [.cpu .cpuDispatchPcb],
    [.cpu .cpuInterrupt], [.pedir]]

/-! ### The runs -/

/-- An access of the PCB on the CPU meets `Accede`. -/
def Accesible (c : ConfigMemoria) (s : Global) (pcb : Pcb) (dirLogica : ℤ) : Prop :=
  ∀ g x, s.cpu.memoria = some g → s.procesos (toU32 pcb.id) = some x →
    Accede c x.tamano ⟨s.cpu.mmu, g, s.finalizados, pcb⟩ dirLogica

/-- What a step needs: an access that can be answered, a valid program with tables and a file that
cover its pages, and that no process is suspended or finished while it is at the CPU. -/
def Permite (c : ConfigMemoria) (s : Global) : Action → Outcome → Prop
  | .cpu (.faseOperands pcb i), _ =>
    i.codigo = .copy → ∀ dir, parametro i 1 = some dir → Accesible c s pcb dir
  | .cpu (.execute pcb i _), _ =>
    i.codigo = .read ∨ i.codigo = .write ∨ i.codigo = .copy → ∀ dir, parametro i 0 = some dir →
      Accesible c s pcb dir
  | .pedir, .iniciar pid p => ProgramaValido p.instructions ∧ Memoria.Cubre c (toU32 p.size) ∧ pid < 2 ^ 32 ∧
      ∀ g n g', s.cpu.memoria = some g → ejecutar c g (.iniciar (toU32 p.size) pid) = some (n, g') → Numerable g'
  | .pedir, .suspender pid => s.enCpu ≠ some pid ∧ ∀ g x, s.cpu.memoria = some g → s.procesos pid = some x →
      Memoria.EnSuLugar c g (.suspender x.tabla)
  | .pedir, .finalizar pid => s.enCpu ≠ some pid
  | _, _ => True

/-- The steps that meet it. -/
def Cumple (c : ConfigMemoria) (e : Config Global Action) (x : ℕ × Outcome) : Prop :=
  ∀ a k, e.threads[x.1]? = some (a :: k) → Permite c e.state a x.2

/-- What is enough for an access. -/
def checkAccede (c : ConfigMemoria) (s : Global) (pcb : Pcb) (dir : ℤ) : Bool :=
  match s.cpu.memoria, s.procesos (toU32 pcb.id) with
  | some g, some x =>
    decide (toU32 dir / c.tamPagina < Memoria.paginasDeTamano c x.tamano) &&
    decide (toU32 dir % c.tamPagina + 4 ≤ c.tamPagina) &&
    (List.range c.cantidad).any (fun f => !(g.registroEspacioUsuario f).asignado) &&
    decide (Memoria.EnSuLugar c g (.buscarMarco (toU32 pcb.tablaPaginas) (toU32 dir / c.tamPagina))) &&
    sale c ⟨s.cpu.mmu, g, s.finalizados, pcb⟩ dir
  | _, _ => false

theorem accesible_of_check {c : ConfigMemoria} {s : Global} {pcb : Pcb} {dir : ℤ}
    (h : checkAccede c s pcb dir = true) : Accesible c s pcb dir := by
  intro g x hg hx
  unfold checkAccede at h
  rw [hg, hx] at h
  simp only [Bool.and_eq_true, decide_eq_true_eq] at h
  obtain ⟨⟨⟨⟨h1, h2⟩, h3⟩, h4⟩, h5⟩ := h
  refine ⟨h1, h2, fun hag => ?_, h4, sale_estable _ _ h5⟩
  obtain ⟨f, hf, hl⟩ := List.any_eq_true.mp h3
  rw [hag.1 f (List.mem_range.mp hf)] at hl
  cases hl

/-- `Permite`, evaluated. -/
def checkPermite (c : ConfigMemoria) (s : Global) : Action → Outcome → Bool
  | .cpu (.faseOperands pcb i), _ =>
    i.codigo ≠ .copy || ((parametro i 1).all fun dir => checkAccede c s pcb dir)
  | .cpu (.execute pcb i _), _ =>
    !(i.codigo = .read || i.codigo = .write || i.codigo = .copy) ||
      (parametro i 0).all fun dir => checkAccede c s pcb dir
  | .pedir, .iniciar pid p => decide (ProgramaValido p.instructions) && decide (Memoria.Cubre c (toU32 p.size)) &&
      decide (pid < 2 ^ 32) && s.cpu.memoria.all fun g =>
        (ejecutar c g (.iniciar (toU32 p.size) pid)).all fun r => decide (Numerable r.2)
  | .pedir, .suspender pid => decide (s.enCpu ≠ some pid) && s.cpu.memoria.all fun g =>
      (s.procesos pid).all fun x => decide (Memoria.EnSuLugar c g (.suspender x.tabla))
  | .pedir, .finalizar pid => decide (s.enCpu ≠ some pid)
  | _, _ => true

theorem permite_of_check {c : ConfigMemoria} {s : Global} (a : Action) (o : Outcome)
    (h : checkPermite c s a o = true) : Permite c s a o := by
  unfold checkPermite at h
  unfold Permite
  split at h
  · intro hcod dir hdir
    simp only [hcod, hdir, ne_eq, not_true_eq_false, decide_false, Bool.false_or, Option.all_some] at h
    exact accesible_of_check h
  · intro hcod dir hdir
    simp only [hdir, Option.all_some, Bool.or_eq_true, Bool.not_eq_true', Bool.or_eq_false_iff,
      decide_eq_false_iff_not] at h
    exact accesible_of_check (h.resolve_left fun hn => by
      rcases hcod with hc | hc | hc
      · exact hn.1.1 hc
      · exact hn.1.2 hc
      · exact hn.2 hc)
  · simp only [Bool.and_eq_true, decide_eq_true_eq, Option.all_eq_true] at h
    exact ⟨h.1.1.1, h.1.1.2, h.1.2, fun g n g' hg hs => h.2 g hg _ hs⟩
  · simp only [Bool.and_eq_true, decide_eq_true_eq, Option.all_eq_true] at h
    exact ⟨h.1, fun g x hg hx => h.2 g hg x hx⟩
  · exact of_decide_eq_true h
  · trivial

def checkCumple (c : ConfigMemoria) (e : Config Global Action) (x : ℕ × Outcome) : Bool :=
  match e.threads[x.1]? with
  | some (a :: _) => checkPermite c e.state a x.2
  | _ => true

theorem cumple_of_check {c : ConfigMemoria} (e : Config Global Action) (x : ℕ × Outcome)
    (h : checkCumple c e x = true) : Cumple c e x := by
  intro a k hk
  rw [checkCumple, hk] at h
  exact permite_of_check a x.2 h

end Ejecucion
end Kiss
