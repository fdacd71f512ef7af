/-
# The instruction cycle and its threads

`cpu/src/cicloInstruccion.c` with the handlers of `cpu.c`. The dispatch handler
receives a PCB, runs it with `ejecutar_pcb` and sends it back; the interrupt
handler sets `hay_interrupcion`, which the dispatch handler tests twice for each
instruction. What one of them does between two accesses to the flag is one
`Action`. The kernel dispatches a PCB, waits until it comes back, and may send an
interrupt at any time; the two sockets are queues.

`despachos`, `pendiente`, `pedida`, `ejecutadas` and `pasos` are history.

Key definitions: `faseOperands`, `execute`, `CpuGlobal`, `Action`, `act`, `start`.
-/
import Kiss.Cpu.Mmu
import Kiss.Threads

namespace Kiss
namespace Cpu

/-! ### An instruction -/

section Ejecucion

variable {σ : Type*} (srv : Servidor σ)

/-- `get_valor_memoria`: `none` when there is no value. -/
def getValorMemoria (s : σ) (pcb : Pcb) (dir : DirFisica) : Option ℤ × σ :=
  match srv (.leerMarco ⟨toU32 pcb.id, toU32 dir.marco, toU32 dir.desplazamiento, 0⟩) s with
  | (some (.numero .leerMarco n), s') => (some (toInt n), s')
  | (_, s') => (none, s')

/-- `set_valor_memoria`. -/
def setValorMemoria (s : σ) (pcb : Pcb) (dir : DirFisica) (valor : ℤ) : Bool × σ :=
  match srv (.escribirMarco
    ⟨toU32 pcb.id, toU32 dir.marco, toU32 dir.desplazamiento, toU32 valor⟩) s with
  | (some (.signal g), s') => (g = .operationSuccess, s')
  | (_, s') => (false, s')

/-- `ci_read`. -/
def ciRead (m : Mmu) (s : σ) (pcb : Pcb) (dirLogica : ℤ) : Option ℤ × Mmu × σ :=
  match direccionFisica srv m s pcb dirLogica with
  | (dir, m', s1) => match getValorMemoria srv s1 pcb dir with
    | (valor, s2) => (valor, m', s2)

/-- `ci_write`. -/
def ciWrite (m : Mmu) (s : σ) (pcb : Pcb) (dirLogica operando : ℤ) : Bool × Mmu × σ :=
  match direccionFisica srv m s pcb dirLogica with
  | (dir, m', s1) => match setValorMemoria srv s1 pcb dir operando with
    | (escrito, s2) => (escrito, m', s2)

/-- A parameter as a number, `atoi(list_get(parametros, i))`: `none` where the
list has no such parameter, whose `NULL` is dereferenced. -/
def parametro (i : Instruction) (n : ℤ) : Option ℤ := (listGet i.parametros n).map atoi

/-- `decode`, and `faseOperands` for `COPY`. The value is 0 for the others, which
do not use it, and `none` when the memory module does not give it. -/
def faseOperands (m : Mmu) (s : σ) (pcb : Pcb) (i : Instruction) :
    Option (Option ℤ × Mmu × σ) :=
  if i.codigo = .copy then
    (parametro i 1).map fun dirLogica =>
      match direccionFisica srv m s pcb dirLogica with
      | (dir, m', s1) =>
        if dir.acierto then match getValorMemoria srv s1 pcb dir with
          | (valor, s2) => (valor, m', s2)
        else (none, m', s1)
  else some (some 0, m, s)

/-- `execute` up to the test of `hay_interrupcion`: the PCB, whether
`enviar_pcb_o_exit` is set, and the memory. What `ci_read` and `ci_write` return
is not used. -/
def execute (m : Mmu) (s : σ) (pcb : Pcb) (i : Instruction) (valor : ℤ) :
    Option (Pcb × Bool × Mmu × σ) :=
  match i.codigo with
  | .noOp => some (pcb, false, m, s)
  | .io => (parametro i 0).map fun n =>
    ({ pcb with cpuDispatchCond := .ioSyscall, ioBurst := n }, true, m, s)
  | .read => (parametro i 0).map fun dir => (pcb, false, (ciRead srv m s pcb dir).2)
  | .write => (parametro i 0).bind fun dir => (parametro i 1).map fun n =>
    (pcb, false, (ciWrite srv m s pcb dir n).2)
  | .copy => (parametro i 0).map fun dir => (pcb, false, (ciWrite srv m s pcb dir valor).2)
  | .exit => some ({ pcb with cpuDispatchCond := .exitProgram }, true, m, s)
  | .otro _ _ => some (pcb, false, m, s)

end Ejecucion

/-! ### The threads -/

/-- The CPU with its sockets, and the history. -/
structure CpuGlobal (σ : Type*) where
  mmu : Mmu
  memoria : σ
  hayInterrupcion : Bool := false
  enviarPcbOExit : Bool := false
  /-- The PCBs sent and not received, and the answers. -/
  dispatch : List Pcb := []
  respuestas : List Pcb := []
  /-- The signals sent and not received, each with the number of the dispatch
  whose PCB was outstanding then, or 0. -/
  interrupt : List (Signal × ℕ) := []
  /-- How many PCBs were dispatched. -/
  despachos : ℕ := 0
  /-- The kernel waits for the last one. -/
  pendiente : Bool := false
  /-- An interrupt sent since the last dispatch was received. -/
  pedida : Bool := false
  /-- The instructions the dispatched PCB has executed since then, and the steps
  of the dispatch handler. -/
  ejecutadas : ℕ := 0
  pasos : ℕ := 0

/-- One step of a thread. -/
inductive Action
  | recibirDispatch
  | borrarInterrupcion (pcb : Pcb)
  | ejecutarPcb (pcb : Pcb)
  | fetch (pcb : Pcb)
  | faseOperands (pcb : Pcb) (i : Instruction)
  | execute (pcb : Pcb) (i : Instruction) (valor : ℤ)
  | testInterrupcion (pcb : Pcb)
  | checkInterrupt (pcb : Pcb)
  | finEjecucion (pcb : Pcb)
  | enviarPcb (pcb : Pcb)
  | recibirInterrupt
  | cpuDispatchPcb
  | recibirPcb
  | cpuInterrupt
  deriving DecidableEq

/-- What the environment answers to an action. -/
inductive Outcome
  | ok
  /-- A reception fails. -/
  | fail
  /-- `SKT_CONNECTION_LOST`. -/
  | lost
  /-- The PCB the kernel dispatches. -/
  | pcb (p : Pcb)
  /-- How long the PCB has run. -/
  | tiempo (n : ℤ)
  deriving DecidableEq

/-- The time that has passed. -/
def Outcome.total : Outcome → ℤ
  | tiempo n => n
  | _ => 0

section Act

variable {σ : Type*} (srv : Servidor σ)

/-- The steps `l` come next. -/
def andThen (s : CpuGlobal σ) (l : List Action) : Option (Threads.Effect (CpuGlobal σ) Action) :=
  some { state := s, next := l }

/-- The thread ends. -/
def stop (s : CpuGlobal σ) : Option (Threads.Effect (CpuGlobal σ) Action) := some { state := s, stop := true }

/-- A step of the dispatch handler is counted. -/
def CpuGlobal.paso (s : CpuGlobal σ) : CpuGlobal σ := { s with pasos := if s.pedida then s.pasos + 1 else s.pasos }

/-- What an action does; `none` where it waits. A thread that dereferences `NULL`
ends. -/
def act (a : Action) (o : Outcome) (s : CpuGlobal σ) : Option (Threads.Effect (CpuGlobal σ) Action) :=
  match a with
  -- `handle_dispatch`
  | .recibirDispatch =>
    match o with
    | .lost => stop s
    | .fail => andThen s [.recibirDispatch]
    | _ => match s.dispatch with
      | [] => none
      | pcb :: l => andThen { s with dispatch := l } [.borrarInterrupcion pcb]
  | .borrarInterrupcion pcb =>
    andThen { s.paso with hayInterrupcion := false } [.ejecutarPcb pcb]
  | .ejecutarPcb pcb => andThen { s.paso with
      mmu := { s.mmu with tlb := limpiarTlb s.mmu.tlb }
      enviarPcbOExit := false } [.fetch pcb]
  | .fetch pcb =>
    match listGet pcb.instructions pcb.programCounter with
    | none => stop s.paso
    | some i => andThen s.paso
        [.faseOperands { pcb with programCounter := pcb.programCounter + 1 } i]
  | .faseOperands pcb i =>
    match faseOperands srv s.mmu s.memoria pcb i with
    | none => stop s.paso
    | some (some valor, m, t) => andThen { s.paso with mmu := m, memoria := t } [.execute pcb i valor]
    | some (none, m, t) => andThen { s.paso with mmu := m, memoria := t } [.finEjecucion pcb]
  | .execute pcb i valor =>
    match execute srv s.mmu s.memoria pcb i valor with
    | none => stop s.paso
    | some (pcb', enviar, m, t) => andThen { s.paso with
        mmu := m
        memoria := t
        enviarPcbOExit := s.enviarPcbOExit || enviar
        ejecutadas := if s.pedida then s.ejecutadas + 1 else s.ejecutadas }
      (match i.codigo with
        | .otro _ _ => [.checkInterrupt pcb']
        | _ => [.testInterrupcion pcb'])
  | .testInterrupcion pcb => andThen s.paso [.checkInterrupt
      (if s.hayInterrupcion && !s.enviarPcbOExit then
        { pcb with cpuDispatchCond := .interruptedByKernel } else pcb)]
  | .checkInterrupt pcb =>
    if s.enviarPcbOExit || s.hayInterrupcion then
      andThen { s.paso with enviarPcbOExit := true } [.finEjecucion pcb]
    else andThen s.paso [.fetch pcb]
  | .finEjecucion pcb => andThen { s.paso with hayInterrupcion := false }
      [.enviarPcb { pcb with cpuExecutedBurst := o.total }]
  | .enviarPcb pcb =>
    andThen { s.paso with respuestas := s.respuestas ++ [pcb] } [.recibirDispatch]
  -- `handle_interrupt`: what it does with a signal is one step, since the
  -- others see the flag alone
  | .recibirInterrupt =>
    match o with
    | .lost => stop s
    | .fail => andThen s [.recibirInterrupt]
    | _ => match s.interrupt with
      | [] => none
      | (g, n) :: l =>
        if g = .cpuInterrupt then andThen { s with
          interrupt := l
          hayInterrupcion := true
          pedida := s.pedida || (s.pendiente && n = s.despachos) } [.recibirInterrupt]
        else andThen { s with interrupt := l } [.recibirInterrupt]
  -- the kernel
  | .cpuDispatchPcb =>
    match o with
    | .pcb p => andThen { s with
        dispatch := s.dispatch ++ [p]
        despachos := s.despachos + 1
        pendiente := true
        pedida := false
        ejecutadas := 0
        pasos := 0 } [.recibirPcb]
    | _ => none
  | .recibirPcb =>
    match s.respuestas with
    | [] => none
    | _ :: l => andThen { s with respuestas := l, pendiente := false } [.cpuDispatchPcb]
  | .cpuInterrupt => andThen { s with interrupt := s.interrupt ++
      [(.cpuInterrupt, if s.pendiente then s.despachos else 0)] } [.cpuInterrupt]

/-- `cpu_iniciar`, connected to the memory module and the kernel. -/
def start (m : Mmu) (t : σ) : Threads.Config (CpuGlobal σ) Action where
  state := { mmu := m, memoria := t }
  threads := [[.recibirDispatch], [.recibirInterrupt], [.cpuDispatchPcb], [.cpuInterrupt]]

end Act

end Cpu
end Kiss
