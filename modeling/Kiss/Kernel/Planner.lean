/-
# The kernel's planner

`kernel/src/planner.c` with what it calls of `icpu.c`, `imemory.c`,
`iconsole.c`, `timer.c`, `squeue.c` and `socket_handler.c`. Each function is the
list of its steps: a call that other threads can see (a semaphore, a queue
under its own mutex, a field of a PCB) is one `Action`, and a branch is an
action whose effect is the list of steps of the branch taken. `act` says what
an action does. What comes from outside (the sockets, the memory and CPU
modules, `pthread_create`, `usleep`) is the `Outcome` the environment picks.

A PCB is named by its id, and is read as it was after it is freed: here no process gets
the memory of another one (`Reuse` has that). `kernel_terminate` is left out; `halt` is set by
`kernel->error()` alone. The fields `exits`, `told`, `destroyed`,
`answered`, `episode` and `armedIn` are history: the code reads none of them.

Key definitions: `Pcb`, `Planner`, `Action`, `act`, `body`, `start`.
-/
import Kiss.Structs
import Kiss.Threads
import Mathlib.Logic.Function.Basic
import Mathlib.Tactic.Tauto

namespace Kiss
namespace Kernel

/-! ### Data -/

/-- `t_algoritmo_planificacion`. -/
inductive AlgoritmoPlanificacion
  | fifo | srt
  deriving DecidableEq, Repr

/-- The part of `t_kernel_config` the planner reads. `nextEstimatedBurst` is the
`double` formula of `stp_incomming_dispatch_str`, cut to an `int`. -/
structure KernelConfig where
  algoritmoPlanificacion : AlgoritmoPlanificacion
  estimacionInicial : ℤ
  gradoMultiprogramacion : ℕ
  nextEstimatedBurst : ℤ → ℤ → ℤ

/-- What comes back from the CPU in a PCB. -/
structure Reply where
  id : ℕ
  cpuDispatchCond : DispatchCond
  programCounter : ℤ
  cpuEstimatedBurst : ℤ
  cpuExecutedBurst : ℤ
  ioBurst : ℤ
  deriving DecidableEq, Repr

/-- `t_package` as the dispatch handler queues it. -/
structure Package where
  header : MessageCode
  payload : Option Reply
  deriving DecidableEq, Repr

/-- `t_pcb`. -/
structure Pcb where
  status : ProcessStatus := .new
  prevStatus : ProcessStatus := .new
  processSize : ℤ := 0
  programCounter : ℤ := 0
  tablaPaginas : ℤ := 0
  instructions : List Instruction := []
  cpuDispatchCond : DispatchCond := .nullCondition
  cpuEstimatedBurst : ℤ := 0
  cpuExecutedBurst : ℤ := 0
  ioBurst : ℤ := 0
  timerBlocked : Option ℕ := none
  timerSuspendedBlocked : Option ℕ := none
  error : Bool := false
  cpuExecutionCount : ℤ := 0
  totalCpuBurstElapsed : ℤ := 0
  ioExecutionCount : ℤ := 0
  totalIoBurstElapsed : ℤ := 0
  deriving DecidableEq, Repr

/-- The queues of `t_planner`. -/
inductive Queue
  | new | ready | blocked | suspendedReady | exit
  deriving DecidableEq, Repr

/-- The semaphores of `t_planner`. -/
inductive Sem
  | ltpSemPlan | ltpSemExit | ltpSemMultiprogrammingLevel | mtpSemPlanner | mtpSemIo
  | stpSemPlan | stpSemInterrupt | stpSemDispatch
  deriving DecidableEq, Repr

/-- `error` of a socket handler: 0, `SKT_CONNECTION_LOST` or another value. -/
inductive SocketError
  | none | lost | other
  deriving DecidableEq, Repr

/-- The functions timers call back. -/
inductive Callback
  | mtpUnblockPcb | mtpSuspendPcb
  deriving DecidableEq, Repr

/-- `t_timer`: which one, what it calls and on which PCB. -/
structure Timer where
  id : ℕ
  callback : Callback
  data : ℕ
  deriving DecidableEq, Repr

/-- The threads that loop. -/
inductive Controller
  | ltpNew | ltpExit | mtpBlocked | stp | console
  deriving DecidableEq, Repr

/-- What the environment answers to an action. -/
inductive Outcome
  /-- The call succeeds. -/
  | ok
  /-- The call fails and, for a receive, nothing is taken from the socket. -/
  | fail
  /-- A receive that fails after taking the CPU's answer from the socket. -/
  | failConsumed
  /-- `SKT_CONNECTION_LOST`. -/
  | lost
  /-- A console's program. -/
  | program (p : Program)
  /-- The page table the memory module assigns. -/
  | table (n : ℕ)
  /-- The CPU's answer under header `MC_PCB`. -/
  | reply (r : Reply)
  /-- An intact package under another header in place of the CPU's answer. -/
  | package (h : MessageCode)
  deriving DecidableEq

/-- `t_planner` with what the planner shares with the CPU interface, and the
history. -/
structure Planner where
  pcbs : ℕ → Pcb := fun _ => {}
  pcbId : ℕ := 0
  queues : Queue → List ℕ := fun _ => []
  exec : Option ℕ := none
  sems : Sem → ℕ
  mtpMutexBlockingProcess : Bool := false
  canceled : ℕ → Bool := fun _ => false
  lastTimer : ℕ := 0
  busy : Bool := false
  interrupted : Bool := false
  dispatchError : SocketError := .none
  interruptError : SocketError := .none
  data : List Package := []
  halt : Bool := false
  /-- A `NULL` was dereferenced: nothing runs any more. -/
  crashed : Bool := false
  /-- The PCBs sent to the CPU that it has not answered, oldest first. -/
  atCpu : List ℕ := []
  destroyed : List ℕ := []
  /-- Every push on the exit queue. -/
  exits : List ℕ := []
  /-- Every result told to a console. -/
  told : List (ℕ × Signal) := []
  /-- Whether the answer to the PCB's last dispatch was received intact. -/
  answered : ℕ → Bool := fun _ => false
  /-- How many blocking episodes of the PCB `mtp_unblock_pcb` has ended. -/
  episode : ℕ → ℕ := fun _ => 0
  /-- The episode that armed each suspension timer. -/
  armedIn : ℕ → ℕ := fun _ => 0

/-! ### Assignments to a PCB -/

/-- The assignments the planner makes to a PCB it holds. -/
inductive Assign
  | status (st : ProcessStatus)
  | prevStatus
  | error
  | tablaPaginas (n : ℤ)
  | reply (r : Reply)
  | cpuEstimatedBurst (b : ℤ)
  | nullCondition
  | ioBurst
  | timerBlocked
  | timerSuspendedBlocked
  deriving DecidableEq, Repr

/-- What an assignment does. -/
def Pcb.assign (s : Pcb) : Assign → Pcb
  | .status st => { s with status := st }
  | .prevStatus => { s with prevStatus := s.status }
  | .error => { s with error := true }
  | .tablaPaginas n => { s with tablaPaginas := n }
  | .reply r => { s with
      cpuExecutionCount := s.cpuExecutionCount + 1
      cpuDispatchCond := r.cpuDispatchCond
      programCounter := r.programCounter
      cpuExecutedBurst := r.cpuExecutedBurst
      ioBurst := r.ioBurst
      totalCpuBurstElapsed := s.totalCpuBurstElapsed + r.cpuExecutedBurst }
  | .cpuEstimatedBurst b => { s with cpuEstimatedBurst := b }
  | .nullCondition => { s with cpuDispatchCond := .nullCondition }
  | .ioBurst => { s with
      ioExecutionCount := s.ioExecutionCount + 1
      totalIoBurstElapsed := s.totalIoBurstElapsed + s.ioBurst }
  | .timerBlocked => { s with timerBlocked := none }
  | .timerSuspendedBlocked => { s with timerSuspendedBlocked := none }

/-! ### Updates -/

@[simp] def Planner.setPcb (s : Planner) (p : ℕ) (x : Pcb) : Planner :=
  { s with pcbs := Function.update s.pcbs p x }

@[simp] def Planner.setSem (s : Planner) (m : Sem) (n : ℕ) : Planner :=
  { s with sems := Function.update s.sems m n }

@[simp] def Planner.setQueue (s : Planner) (q : Queue) (l : List ℕ) : Planner :=
  { s with queues := Function.update s.queues q l }

/-- `squeue_push`. -/
@[simp] def Planner.push (s : Planner) (q : Queue) (p : ℕ) : Planner :=
  { s.setQueue q (s.queues q ++ [p]) with
    exits := if q = .exit then p :: s.exits else s.exits }

/-- `compare_ready_pcb__str`: whether the new PCB goes before the one in the
list, that is, whether the function returns 1. -/
def compareReadyPcbStr (new list : Pcb) : Bool :=
  if new.cpuEstimatedBurst < list.cpuEstimatedBurst then true
  else if new.cpuEstimatedBurst = list.cpuEstimatedBurst then
    if new.status = .exec then true
    else if new.status = .blocked then
      !(list.prevStatus = .exec || list.prevStatus = .blocked)
    else false
  else false

/-- `squeue_insert_in_order`: before the first element the comparison puts
after the new one, or at the end. -/
def squeueInsertInOrder (before : ℕ → Bool) (p : ℕ) : List ℕ → List ℕ
  | [] => [p]
  | q :: l => if before q then p :: q :: l else q :: squeueInsertInOrder before p l

@[simp] theorem mem_squeueInsertInOrder {before : ℕ → Bool} {p q : ℕ} : ∀ {l : List ℕ},
    q ∈ squeueInsertInOrder before p l ↔ q = p ∨ q ∈ l
  | [] => by simp [squeueInsertInOrder]
  | r :: l => by
    unfold squeueInsertInOrder
    split
    · simp
    · rw [List.mem_cons, mem_squeueInsertInOrder, List.mem_cons]
      tauto

/-! ### Actions -/

/-- One step of a planner function. -/
inductive Action
  | loop (f : Controller)
  | semWait (m : Sem)
  | semPost (m : Sem)
  | mutexLock
  | mutexUnlock
  | haltBreak
  | assign (p : ℕ) (f : Assign)
  | push (q : Queue) (p : ℕ)
  | insertInOrder (p : ℕ)
  | exitMultiprogramming (p : ℕ)
  | interruptIfBusy (p : ℕ)
  | sendInterrupt
  | setInterrupted
  | popReady
  | setExec (p : ℕ)
  | sendPcb (p : ℕ)
  | setBusy (b : Bool)
  | recieveMessageAsync
  | recieveMessage
  | pushData (pk : Package)
  | cpuRecievePcbAsync
  | takeExec (r : Reply)
  | dispatchSwitch (p : ℕ)
  | ifInterrupted
  | takeExecError
  | setSuspendTimer (p : ℕ)
  | startSuspendTimer (t p : ℕ)
  | popBlocked
  | createBlockedTimer (p : ℕ)
  | startBlockedTimer (t p : ℕ)
  | timerSleep (t : Timer)
  | timerTest (t : Timer)
  | timerDestroy (t : Timer)
  | cancelSuspendTimer (p : ℕ)
  | unblockSwitch (p : ℕ)
  | suspendIfBlocked (p : ℕ)
  | swappProcess (p : ℕ)
  | newIfSuspendedReady
  | newIfNew
  | popSuspendedReady
  | popNew
  | getEntryPageTable (p : ℕ)
  | checkPageTable (p : ℕ)
  | exitIfAny
  | popExit
  | freeAllocatedMemory (p : ℕ)
  | consoleTerminate (p : ℕ)
  | pcbDestroy (p : ℕ)
  | accept
  | ltpNewProcess (prog : Program)
  deriving DecidableEq

open Kernel.Action

/-! ### The functions -/

/-- `move_pcb_to_new`. -/
@[simp] def movePcbToNew (p : ℕ) : List Action :=
  [assign p (.status .new), push .new p, semPost .ltpSemPlan]

/-- `move_pcb_to_ready__fifo`. -/
@[simp] def movePcbToReadyFifo (p : ℕ) : List Action :=
  [assign p (.status .ready), push .ready p, semPost .stpSemPlan]

/-- `move_pcb_to_ready__srt`. -/
@[simp] def movePcbToReadySrt (p : ℕ) : List Action :=
  [insertInOrder p, assign p .prevStatus, assign p (.status .ready), interruptIfBusy p,
    semPost .stpSemPlan]

/-- `planner->move_pcb_to_ready`. -/
def movePcbToReady (cfg : KernelConfig) (p : ℕ) : List Action :=
  match cfg.algoritmoPlanificacion with
  | .fifo => movePcbToReadyFifo p
  | .srt => movePcbToReadySrt p

/-- `move_pcb_to_exec`. -/
@[simp] def movePcbToExec (p : ℕ) : List Action := [assign p (.status .exec), setExec p]

/-- `move_pcb_to_exit`. -/
@[simp] def movePcbToExit (p : ℕ) : List Action :=
  [exitMultiprogramming p, assign p (.status .exit), push .exit p, semPost .ltpSemExit]

/-- `mtp_plan_pcb` with `mtp_set_suspend_timer`. -/
@[simp] def mtpPlanPcb (p : ℕ) : List Action := [setSuspendTimer p, semPost .mtpSemPlanner]

/-- `move_pcb_to_blocked`. -/
@[simp] def movePcbToBlocked (p : ℕ) : List Action :=
  [assign p (.status .blocked), push .blocked p] ++ mtpPlanPcb p

/-- `move_pcb_to_suspended_blocked`. -/
@[simp] def movePcbToSuspendedBlocked (p : ℕ) : List Action :=
  [assign p (.status .suspendedBlocked), semPost .ltpSemMultiprogrammingLevel]

/-- `move_pcb_to_suspended_ready`. -/
@[simp] def movePcbToSuspendedReady (p : ℕ) : List Action :=
  [assign p (.status .suspendedReady), push .suspendedReady p, semPost .ltpSemPlan]

/-- The error branches: `pcb->error = true; move_pcb_to_exit(pcb)`. -/
@[simp] def exitWithError (p : ℕ) : List Action := assign p .error :: movePcbToExit p

/-- `mtp_unblock_pcb`. -/
@[simp] def mtpUnblockPcb (p : ℕ) : List Action :=
  [mutexLock, semPost .mtpSemIo, cancelSuspendTimer p, assign p .timerBlocked, unblockSwitch p,
    mutexUnlock]

/-- `mtp_suspend_pcb`. -/
@[simp] def mtpSuspendPcb (p : ℕ) : List Action :=
  [mutexLock, assign p .timerSuspendedBlocked, suspendIfBlocked p, mutexUnlock]

/-- `self->callback(self->data)`. -/
def Timer.call (t : Timer) : List Action :=
  match t.callback with
  | .mtpUnblockPcb => mtpUnblockPcb t.data
  | .mtpSuspendPcb => mtpSuspendPcb t.data

/-- How `stp_incomming_dispatch_fifo` and `stp_incomming_dispatch_str` end. -/
def dispatchTail (cfg : KernelConfig) : List Action :=
  match cfg.algoritmoPlanificacion with
  | .fifo => [semPost .stpSemDispatch]
  | .srt => [ifInterrupted, semPost .stpSemDispatch]

/-- `stp_incomming_dispatch_fifo` and `stp_incomming_dispatch_str`. -/
@[simp] def incommingDispatch (cfg : KernelConfig) (r : Reply) : List Action :=
  [haltBreak, takeExec r] ++ dispatchTail cfg

/-- What they do with the PCB they take out of `planner->exec`. -/
def applyReply (cfg : KernelConfig) (r : Reply) (p : ℕ) : List Action :=
  match cfg.algoritmoPlanificacion with
  | .fifo => [assign p (.reply r), dispatchSwitch p, assign p .nullCondition]
  | .srt => [assign p (.reply r), assign p (.cpuEstimatedBurst
      (cfg.nextEstimatedBurst r.cpuEstimatedBurst r.cpuExecutedBurst)),
    dispatchSwitch p, assign p .nullCondition]

/-- `stp_dispatch_error`. -/
@[simp] def stpDispatchError : List Action := [takeExecError, semPost .stpSemDispatch]

/-- The body of each controller's loop. -/
def body : Controller → List Action
  | .ltpNew => [semWait .ltpSemPlan, semWait .ltpSemMultiprogrammingLevel, haltBreak,
      newIfSuspendedReady, loop .ltpNew]
  | .ltpExit => [semWait .ltpSemExit, haltBreak, exitIfAny, loop .ltpExit]
  | .mtpBlocked => [semWait .mtpSemPlanner, semWait .mtpSemIo, haltBreak, popBlocked,
      loop .mtpBlocked]
  | .stp => [haltBreak, semWait .stpSemPlan, semWait .stpSemDispatch, haltBreak, popReady,
      loop .stp]
  | .console => [accept, loop .console]

/-! ### What the actions do -/

/-- An effect on the state alone. -/
def only (s : Planner) : Option (Threads.Effect Planner Action) := some { state := s }

/-- The steps `l` come next. -/
def andThen (s : Planner) (l : List Action) : Option (Threads.Effect Planner Action) :=
  some { state := s, next := l }

/-- A `NULL` is dereferenced. -/
def crash (s : Planner) : Option (Threads.Effect Planner Action) :=
  some { state := { s with crashed := true }, stop := true }

/-- `squeue_pop`, then `f` with the PCB; of an empty queue it gives `NULL`, which
every caller dereferences. -/
def pop (s : Planner) (q : Queue) (f : ℕ → List Action) : Option (Threads.Effect Planner Action) :=
  match s.queues q with
  | [] => crash s
  | p :: l => andThen (s.setQueue q l) (f p)

/-- `recieve_message` on the dispatch handler: the handler's error, the package
to queue and the PCBs the CPU still has. -/
def recieveMessageResult (s : Planner) : Outcome → Option (SocketError × Package × List ℕ)
  | .reply r =>
    if s.atCpu.head? = some r.id then some (.none, ⟨.pcb, some r⟩, s.atCpu.tail) else none
  | .package h => if h = .pcb then none else some (.none, ⟨h, none⟩, s.atCpu.tail)
  | .fail => some (.other, ⟨.emptyPackage, none⟩, s.atCpu)
  | .failConsumed => some (.other, ⟨.errorPackage, none⟩, s.atCpu.tail)
  | .lost => some (.lost, ⟨.emptyPackage, none⟩, s.atCpu)
  | _ => none

/-- The history after a package is received. -/
def Planner.answeredAfter (s : Planner) (pk : Package) : ℕ → Bool :=
  match pk.payload with
  | some r => Function.update s.answered r.id true
  | none => s.answered

/-- `send_message` on a socket: the handler's error. -/
def sendError : Outcome → SocketError
  | .ok => .none
  | .lost => .lost
  | _ => .other

/-- What an action does; `none` where it waits, or where the outcome is none of
the call's. -/
def act (cfg : KernelConfig) (a : Action) (o : Outcome) (s : Planner) :
    Option (Threads.Effect Planner Action) :=
  if s.crashed then none else
  match a with
  | loop f => andThen s (body f)
  | semWait m => if s.sems m = 0 then none else only (s.setSem m (s.sems m - 1))
  | semPost m => only (s.setSem m (s.sems m + 1))
  | mutexLock =>
    if s.mtpMutexBlockingProcess then none else only { s with mtpMutexBlockingProcess := true }
  | mutexUnlock => only { s with mtpMutexBlockingProcess := false }
  | haltBreak => some { state := s, stop := s.halt }
  | assign p f => only (s.setPcb p ((s.pcbs p).assign f))
  | push q p => only (s.push q p)
  | insertInOrder p => only (s.setQueue .ready
      (squeueInsertInOrder (fun q => compareReadyPcbStr (s.pcbs p) (s.pcbs q)) p (s.queues .ready)))
  | exitMultiprogramming p =>
    if (s.pcbs p).status = .exec ∨ (s.pcbs p).status = .ready ∨ (s.pcbs p).status = .blocked then
      andThen s [semPost .ltpSemMultiprogrammingLevel]
    else only s
  | interruptIfBusy p =>
    if (s.pcbs p).status ≠ .exec ∧ s.busy then andThen s [semWait .stpSemInterrupt, sendInterrupt]
    else only s
  -- `cpu_interrupt`
  | sendInterrupt =>
    match sendError o with
    | .none => andThen { s with interruptError := .none } [setInterrupted]
    | .lost => only { s with interruptError := .lost, halt := true }
    | .other => only { s with interruptError := .other }
  | setInterrupted => only { s with interrupted := true }
  | popReady => pop s .ready fun p => movePcbToExec p ++ [sendPcb p, recieveMessageAsync]
  | setExec p => only { s with exec := some p }
  -- `cpu_dispatch_pcb`: after an error it looks at the other socket's
  | sendPcb p =>
    match sendError o with
    | .none => andThen { s with
        dispatchError := .none
        atCpu := s.atCpu ++ [p]
        answered := Function.update s.answered p false } [setBusy true]
    | e => only { s with
        dispatchError := e
        halt := s.halt || s.interruptError = .lost
        answered := Function.update s.answered p false }
  | setBusy b => only { s with busy := b }
  -- `recieve_message_async`: a thread, unless `pthread_create` fails
  | recieveMessageAsync =>
    match o with
    | .ok => some { state := s, spawn := [[recieveMessage]] }
    | _ => only { s with dispatchError := .other }
  | recieveMessage =>
    match recieveMessageResult s o with
    | none => none
    | some (e, pk, l) => andThen { s with
        dispatchError := e
        atCpu := l
        answered := s.answeredAfter pk } [pushData pk]
  | pushData pk => andThen { s with data := s.data ++ [pk] } [cpuRecievePcbAsync]
  | cpuRecievePcbAsync =>
    if s.halt then some { state := s, stop := true }
    else if s.dispatchError ≠ .none then andThen s stpDispatchError
    else match s.data with
      | [] => andThen s stpDispatchError
      | ⟨.pcb, some r⟩ :: l => andThen { s with data := l } (setBusy false :: incommingDispatch cfg r)
      | _ :: l => andThen { s with data := l } stpDispatchError
  | takeExec r =>
    match s.exec with
    | none => crash s
    | some p => andThen { s with exec := none } (applyReply cfg r p)
  | dispatchSwitch p =>
    match (s.pcbs p).cpuDispatchCond, cfg.algoritmoPlanificacion with
    | .exitProgram, _ => andThen s (movePcbToExit p)
    | .interruptedByKernel, .srt => andThen s (movePcbToReady cfg p)
    | .ioSyscall, _ => andThen s (movePcbToBlocked p)
    | _, _ => andThen s (exitWithError p)
  | ifInterrupted =>
    if s.interrupted then andThen { s with interrupted := false } [semPost .stpSemInterrupt]
    else only s
  -- its log of no PCB dereferences `NULL`
  | takeExecError =>
    match s.exec with
    | none => crash s
    | some p => andThen { s with exec := none } (exitWithError p)
  -- `mtp_set_suspend_timer`: `timer_start` and what its failure undoes are one step
  | setSuspendTimer p =>
    let t := s.lastTimer + 1
    andThen { s.setPcb p { s.pcbs p with timerSuspendedBlocked := some t } with
      lastTimer := t
      canceled := Function.update s.canceled t false
      armedIn := Function.update s.armedIn t (s.episode p) } [startSuspendTimer t p]
  | startSuspendTimer t p =>
    match o with
    | .ok => some { state := s, spawn := [[timerSleep ⟨t, .mtpSuspendPcb, p⟩]] }
    | _ => only (s.setPcb p { s.pcbs p with timerSuspendedBlocked := none })
  -- `mtp_block_pcb`
  | popBlocked => pop s .blocked fun p => [assign p .ioBurst, createBlockedTimer p]
  | createBlockedTimer p =>
    let t := s.lastTimer + 1
    andThen { s.setPcb p { s.pcbs p with timerBlocked := some t } with
      lastTimer := t
      canceled := Function.update s.canceled t false } [startBlockedTimer t p]
  | startBlockedTimer t p =>
    match o with
    | .ok => some { state := s, spawn := [[timerSleep ⟨t, .mtpUnblockPcb, p⟩]] }
    | _ => andThen s (assign p .timerBlocked :: movePcbToExit p ++ [semPost .mtpSemIo])
  -- `timer_sleep`
  | timerSleep t =>
    match o with
    | .ok => andThen s [timerTest t]
    | _ => some { state := s, stop := true }
  | timerTest t => andThen s ((if s.canceled t.id then [] else t.call) ++ [timerDestroy t])
  | timerDestroy _ => only s
  | cancelSuspendTimer p =>
    only { s with
      canceled := match (s.pcbs p).timerSuspendedBlocked with
        | some t => Function.update s.canceled t true
        | none => s.canceled
      episode := Function.update s.episode p (s.episode p + 1) }
  | unblockSwitch p =>
    match (s.pcbs p).status with
    | .blocked => andThen s (movePcbToReady cfg p)
    | .suspendedBlocked => andThen s (movePcbToSuspendedReady p)
    | _ => andThen s (exitWithError p)
  | suspendIfBlocked p =>
    if (s.pcbs p).status = .blocked then andThen s [swappProcess p] else only s
  | swappProcess p =>
    if s.halt then andThen s (exitWithError p)
    else match o with
      | .ok => andThen s (movePcbToSuspendedBlocked p)
      | .lost => andThen { s with halt := true } (exitWithError p)
      | _ => andThen s (exitWithError p)
  | newIfSuspendedReady =>
    andThen s (if s.queues .suspendedReady = [] then [newIfNew] else [popSuspendedReady])
  | newIfNew => andThen s (if s.queues .new = [] then [] else [popNew])
  | popSuspendedReady => pop s .suspendedReady (movePcbToReady cfg)
  | popNew => pop s .new fun p => [getEntryPageTable p]
  | getEntryPageTable p =>
    if s.halt then andThen s [assign p (.tablaPaginas (-1)), checkPageTable p]
    else match o with
      | .table n => andThen s [assign p (.tablaPaginas (toInt n)), checkPageTable p]
      | .lost => andThen { s with halt := true } [assign p (.tablaPaginas (-1)), checkPageTable p]
      | _ => andThen s [assign p (.tablaPaginas (-1)), checkPageTable p]
  | checkPageTable p =>
    if (s.pcbs p).tablaPaginas < 0 then
      andThen s (exitWithError p ++ [semPost .ltpSemMultiprogrammingLevel])
    else andThen s (movePcbToReady cfg p)
  | exitIfAny => andThen s (if s.queues .exit = [] then [] else [popExit])
  | popExit => pop s .exit fun p => [freeAllocatedMemory p, consoleTerminate p, pcbDestroy p]
  | freeAllocatedMemory _ =>
    match o with
    | .lost => only { s with halt := true }
    | _ => only s
  | consoleTerminate p => only { s with
      told := (p, if (s.pcbs p).error then .operationFailure else .operationSuccess) :: s.told }
  -- `free`: the PCB keeps its fields, and its memory is no other process's
  | pcbDestroy p => only { s with destroyed := p :: s.destroyed }
  -- `console_handler` on a thread of its own
  | accept =>
    match o with
    | .program prog =>
      if prog.instructions = [] then only s else some { state := s, spawn := [[ltpNewProcess prog]] }
    | _ => only s
  | ltpNewProcess prog =>
    let p := s.pcbId + 1
    andThen { s.setPcb p
        { cpuEstimatedBurst := cfg.estimacionInicial
          processSize := prog.size
          tablaPaginas := -1
          instructions := prog.instructions } with pcbId := p } (movePcbToNew p)

/-- `planner_create` and `planner_run`. -/
def start (cfg : KernelConfig) : Threads.Config Planner Action where
  state := { sems := fun
    | .ltpSemMultiprogrammingLevel => cfg.gradoMultiprogramacion
    | .mtpSemIo | .stpSemInterrupt | .stpSemDispatch => 1
    | _ => 0 }
  threads := [[loop .ltpNew], [loop .ltpExit], [loop .mtpBlocked], [loop .stp], [loop .console]]

end Kernel
end Kiss
