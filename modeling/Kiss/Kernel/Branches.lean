/-
# The branches of the planner's actions

`Branch cfg a o s e`: `e` is what one of the branches of `act` does with `a`,
under the conditions that lead to it. A property of every step is proved by
cases on the branches, without unfolding `act`.

Key definitions: `Branch`.
Key theorems: `act_branch`.
-/
import Kiss.Kernel.Planner

namespace Kiss
namespace Kernel

open Kernel.Action Threads

/-- The branches of `act`. -/
inductive Branch (cfg : KernelConfig) : Action → Outcome → Planner → Effect Planner Action → Prop
  | loop (f o s) : Branch cfg (loop f) o s { state := s, next := body f }
  | semWait (m o s) (h : s.sems m ≠ 0) :
    Branch cfg (semWait m) o s { state := s.setSem m (s.sems m - 1) }
  | semPost (m o s) : Branch cfg (semPost m) o s { state := s.setSem m (s.sems m + 1) }
  | mutexLock (o s) (h : s.mtpMutexBlockingProcess = false) :
    Branch cfg mutexLock o s { state := { s with mtpMutexBlockingProcess := true } }
  | mutexUnlock (o s) :
    Branch cfg mutexUnlock o s { state := { s with mtpMutexBlockingProcess := false } }
  | haltBreak (o s) : Branch cfg haltBreak o s { state := s, stop := s.halt }
  | assign (p f o s) : Branch cfg (assign p f) o s { state := s.setPcb p ((s.pcbs p).assign f) }
  | push (q p o s) : Branch cfg (push q p) o s { state := s.push q p }
  | insertInOrder (p o s) : Branch cfg (insertInOrder p) o s
      { state := s.setQueue .ready (squeueInsertInOrder
          (fun q => compareReadyPcbStr (s.pcbs p) (s.pcbs q)) p (s.queues .ready)) }
  | freesLevel (p o s) (h : (s.pcbs p).status = .exec ∨ (s.pcbs p).status = .ready ∨
      (s.pcbs p).status = .blocked) : Branch cfg (exitMultiprogramming p) o s
      { state := s, next := [semPost .ltpSemMultiprogrammingLevel] }
  | keepsLevel (p o s) (h : ¬ ((s.pcbs p).status = .exec ∨ (s.pcbs p).status = .ready ∨
      (s.pcbs p).status = .blocked)) : Branch cfg (exitMultiprogramming p) o s { state := s }
  | preempts (p o s) (h : (s.pcbs p).status ≠ .exec ∧ s.busy = true) :
    Branch cfg (interruptIfBusy p) o s
      { state := s, next := [semWait .stpSemInterrupt, sendInterrupt] }
  | notPreempts (p o s) (h : ¬ ((s.pcbs p).status ≠ .exec ∧ s.busy = true)) :
    Branch cfg (interruptIfBusy p) o s { state := s }
  | sendInterrupt (o s) (h : sendError o = .none) : Branch cfg sendInterrupt o s
      { state := { s with interruptError := .none }, next := [setInterrupted] }
  | interruptLost (o s) (h : sendError o = .lost) : Branch cfg sendInterrupt o s
      { state := { s with interruptError := .lost, halt := true } }
  | interruptFails (o s) (h : sendError o = .other) : Branch cfg sendInterrupt o s
      { state := { s with interruptError := .other } }
  | setInterrupted (o s) : Branch cfg setInterrupted o s { state := { s with interrupted := true } }
  | popReady (p l o s) (h : s.queues .ready = p :: l) : Branch cfg popReady o s
      { state := s.setQueue .ready l, next := movePcbToExec p ++ [sendPcb p, recieveMessageAsync] }
  | popReadyNull (o s) (h : s.queues .ready = []) : Branch cfg popReady o s
      { state := { s with crashed := true }, stop := true }
  | setExec (p o s) : Branch cfg (setExec p) o s { state := { s with exec := some p } }
  | sendPcb (p o s) (h : sendError o = .none) : Branch cfg (sendPcb p) o s
      { state := { s with
          dispatchError := .none
          atCpu := s.atCpu ++ [p]
          answered := Function.update s.answered p false }, next := [setBusy true] }
  | sendPcbFails (p o s) (h : sendError o ≠ .none) : Branch cfg (sendPcb p) o s
      { state := { s with
          dispatchError := sendError o
          halt := s.halt || s.interruptError = .lost
          answered := Function.update s.answered p false } }
  | setBusy (b o s) : Branch cfg (setBusy b) o s { state := { s with busy := b } }
  | recieveMessageAsync (s) : Branch cfg recieveMessageAsync .ok s
      { state := s, spawn := [[recieveMessage]] }
  | noReceiver (o s) (h : o ≠ .ok) : Branch cfg recieveMessageAsync o s
      { state := { s with dispatchError := .other } }
  | recieveMessage (e pk l o s) (h : recieveMessageResult s o = some (e, pk, l)) :
    Branch cfg recieveMessage o s
      { state := { s with dispatchError := e, atCpu := l, answered := s.answeredAfter pk },
        next := [pushData pk] }
  | pushData (pk o s) : Branch cfg (pushData pk) o s
      { state := { s with data := s.data ++ [pk] }, next := [cpuRecievePcbAsync] }
  | recieveHalt (o s) (h : s.halt = true) : Branch cfg cpuRecievePcbAsync o s
      { state := s, stop := true }
  | recieveError (o s) (h : s.dispatchError ≠ .none ∨ s.data = []) :
    Branch cfg cpuRecievePcbAsync o s { state := s, next := stpDispatchError }
  | recieved (r l o s) (h : s.halt = false ∧ s.dispatchError = .none ∧
      s.data = ⟨.pcb, some r⟩ :: l) : Branch cfg cpuRecievePcbAsync o s
      { state := { s with data := l }, next := setBusy false :: incommingDispatch cfg r }
  | recievedOther (pk l o s) (h : s.halt = false ∧ s.dispatchError = .none ∧ s.data = pk :: l)
      (hne : ∀ r, pk ≠ ⟨.pcb, some r⟩) : Branch cfg cpuRecievePcbAsync o s
      { state := { s with data := l }, next := stpDispatchError }
  | takeExec (r p o s) (h : s.exec = some p) : Branch cfg (takeExec r) o s
      { state := { s with exec := none }, next := applyReply cfg r p }
  | takeExecNull (r o s) (h : s.exec = none) : Branch cfg (takeExec r) o s
      { state := { s with crashed := true }, stop := true }
  | switchExit (p o s) (h : (s.pcbs p).cpuDispatchCond = .exitProgram) :
    Branch cfg (dispatchSwitch p) o s { state := s, next := movePcbToExit p }
  | switchReady (p o s) (h : (s.pcbs p).cpuDispatchCond = .interruptedByKernel)
      (hc : cfg.algoritmoPlanificacion = .srt) :
    Branch cfg (dispatchSwitch p) o s { state := s, next := movePcbToReady cfg p }
  | switchBlocked (p o s) (h : (s.pcbs p).cpuDispatchCond = .ioSyscall) :
    Branch cfg (dispatchSwitch p) o s { state := s, next := movePcbToBlocked p }
  | switchError (p o s) : Branch cfg (dispatchSwitch p) o s { state := s, next := exitWithError p }
  | interrupted (o s) (h : s.interrupted = true) : Branch cfg ifInterrupted o s
      { state := { s with interrupted := false }, next := [semPost .stpSemInterrupt] }
  | notInterrupted (o s) (h : s.interrupted = false) : Branch cfg ifInterrupted o s { state := s }
  | takeExecError (p o s) (h : s.exec = some p) : Branch cfg takeExecError o s
      { state := { s with exec := none }, next := exitWithError p }
  | noExec (o s) (h : s.exec = none) : Branch cfg takeExecError o s
      { state := { s with crashed := true }, stop := true }
  | setSuspendTimer (p o s) : Branch cfg (setSuspendTimer p) o s
      { state := { s.setPcb p { s.pcbs p with timerSuspendedBlocked := some (s.lastTimer + 1) } with
          lastTimer := s.lastTimer + 1
          canceled := Function.update s.canceled (s.lastTimer + 1) false
          armedIn := Function.update s.armedIn (s.lastTimer + 1) (s.episode p) },
        next := [startSuspendTimer (s.lastTimer + 1) p] }
  | startSuspendTimer (t p s) : Branch cfg (startSuspendTimer t p) .ok s
      { state := s, spawn := [[timerSleep ⟨t, .mtpSuspendPcb, p⟩]] }
  | noSuspendTimer (t p o s) (h : o ≠ .ok) : Branch cfg (startSuspendTimer t p) o s
      { state := s.setPcb p { s.pcbs p with timerSuspendedBlocked := none } }
  | popBlocked (p l o s) (h : s.queues .blocked = p :: l) : Branch cfg popBlocked o s
      { state := s.setQueue .blocked l, next := [assign p .ioBurst, createBlockedTimer p] }
  | popBlockedNull (o s) (h : s.queues .blocked = []) : Branch cfg popBlocked o s
      { state := { s with crashed := true }, stop := true }
  | createBlockedTimer (p o s) : Branch cfg (createBlockedTimer p) o s
      { state := { s.setPcb p { s.pcbs p with timerBlocked := some (s.lastTimer + 1) } with
          lastTimer := s.lastTimer + 1
          canceled := Function.update s.canceled (s.lastTimer + 1) false },
        next := [startBlockedTimer (s.lastTimer + 1) p] }
  | startBlockedTimer (t p s) : Branch cfg (startBlockedTimer t p) .ok s
      { state := s, spawn := [[timerSleep ⟨t, .mtpUnblockPcb, p⟩]] }
  | noBlockedTimer (t p o s) (h : o ≠ .ok) : Branch cfg (startBlockedTimer t p) o s
      { state := s, next := assign p .timerBlocked :: movePcbToExit p ++ [semPost .mtpSemIo] }
  | timerSleep (t s) : Branch cfg (timerSleep t) .ok s { state := s, next := [timerTest t] }
  | timerSleepFails (t o s) (h : o ≠ .ok) : Branch cfg (timerSleep t) o s { state := s, stop := true }
  | timerCanceled (t o s) (h : s.canceled t.id = true) : Branch cfg (timerTest t) o s
      { state := s, next := [timerDestroy t] }
  | timerCall (t o s) (h : s.canceled t.id = false) : Branch cfg (timerTest t) o s
      { state := s, next := t.call ++ [timerDestroy t] }
  | timerDestroy (t o s) : Branch cfg (timerDestroy t) o s { state := s }
  | cancelSuspendTimer (t p o s) (h : (s.pcbs p).timerSuspendedBlocked = some t) :
    Branch cfg (cancelSuspendTimer p) o s
      { state := { s with
          canceled := Function.update s.canceled t true
          episode := Function.update s.episode p (s.episode p + 1) } }
  | noSuspendTimerSet (p o s) (h : (s.pcbs p).timerSuspendedBlocked = none) :
    Branch cfg (cancelSuspendTimer p) o s
      { state := { s with episode := Function.update s.episode p (s.episode p + 1) } }
  | unblockReady (p o s) (h : (s.pcbs p).status = .blocked) : Branch cfg (unblockSwitch p) o s
      { state := s, next := movePcbToReady cfg p }
  | unblockSuspended (p o s) (h : (s.pcbs p).status = .suspendedBlocked) :
    Branch cfg (unblockSwitch p) o s { state := s, next := movePcbToSuspendedReady p }
  | unblockError (p o s)
      (h : (s.pcbs p).status ≠ .blocked ∧ (s.pcbs p).status ≠ .suspendedBlocked) :
    Branch cfg (unblockSwitch p) o s { state := s, next := exitWithError p }
  | suspends (p o s) (h : (s.pcbs p).status = .blocked) : Branch cfg (suspendIfBlocked p) o s
      { state := s, next := [swappProcess p] }
  | notSuspends (p o s) (h : (s.pcbs p).status ≠ .blocked) :
    Branch cfg (suspendIfBlocked p) o s { state := s }
  | swapped (p s) (h : s.halt = false) : Branch cfg (swappProcess p) .ok s
      { state := s, next := movePcbToSuspendedBlocked p }
  | notSwapped (p o s) (h : s.halt = true ∨ o ≠ .ok ∧ o ≠ .lost) : Branch cfg (swappProcess p) o s
      { state := s, next := exitWithError p }
  | swapLost (p s) (h : s.halt = false) : Branch cfg (swappProcess p) .lost s
      { state := { s with halt := true }, next := exitWithError p }
  | newIfSuspendedReady (o s) (h : s.queues .suspendedReady = []) :
    Branch cfg newIfSuspendedReady o s { state := s, next := [newIfNew] }
  | isSuspendedReady (o s) (h : s.queues .suspendedReady ≠ []) :
    Branch cfg newIfSuspendedReady o s { state := s, next := [popSuspendedReady] }
  | noneNew (o s) (h : s.queues .new = []) : Branch cfg newIfNew o s { state := s }
  | isNew (o s) (h : s.queues .new ≠ []) : Branch cfg newIfNew o s { state := s, next := [popNew] }
  | popSuspendedReady (p l o s) (h : s.queues .suspendedReady = p :: l) :
    Branch cfg popSuspendedReady o s
      { state := s.setQueue .suspendedReady l, next := movePcbToReady cfg p }
  | popSuspendedReadyNull (o s) (h : s.queues .suspendedReady = []) :
    Branch cfg popSuspendedReady o s { state := { s with crashed := true }, stop := true }
  | popNew (p l o s) (h : s.queues .new = p :: l) : Branch cfg popNew o s
      { state := s.setQueue .new l, next := [getEntryPageTable p] }
  | popNewNull (o s) (h : s.queues .new = []) : Branch cfg popNew o s
      { state := { s with crashed := true }, stop := true }
  | getEntryPageTable (n p s) (h : s.halt = false) : Branch cfg (getEntryPageTable p) (.table n) s
      { state := s, next := [assign p (.tablaPaginas (toInt n)), checkPageTable p] }
  | noEntryPageTable (p o s) (h : s.halt = true ∨ o ≠ .lost ∧ ∀ n, o ≠ .table n) :
    Branch cfg (getEntryPageTable p) o s
      { state := s, next := [assign p (.tablaPaginas (-1)), checkPageTable p] }
  | entryPageTableLost (p s) (h : s.halt = false) : Branch cfg (getEntryPageTable p) .lost s
      { state := { s with halt := true },
        next := [assign p (.tablaPaginas (-1)), checkPageTable p] }
  | noPageTable (p o s) (h : (s.pcbs p).tablaPaginas < 0) : Branch cfg (checkPageTable p) o s
      { state := s, next := exitWithError p ++ [semPost .ltpSemMultiprogrammingLevel] }
  | pageTable (p o s) (h : ¬ (s.pcbs p).tablaPaginas < 0) : Branch cfg (checkPageTable p) o s
      { state := s, next := movePcbToReady cfg p }
  | noneExit (o s) (h : s.queues .exit = []) : Branch cfg exitIfAny o s { state := s }
  | isExit (o s) (h : s.queues .exit ≠ []) : Branch cfg exitIfAny o s
      { state := s, next := [popExit] }
  | popExit (p l o s) (h : s.queues .exit = p :: l) : Branch cfg popExit o s
      { state := s.setQueue .exit l,
        next := [freeAllocatedMemory p, consoleTerminate p, pcbDestroy p] }
  | popExitNull (o s) (h : s.queues .exit = []) : Branch cfg popExit o s
      { state := { s with crashed := true }, stop := true }
  | memoryLost (p s) : Branch cfg (freeAllocatedMemory p) .lost s
      { state := { s with halt := true } }
  | freeAllocatedMemory (p o s) (h : o ≠ .lost) : Branch cfg (freeAllocatedMemory p) o s
      { state := s }
  | consoleTerminate (p o s) : Branch cfg (consoleTerminate p) o s
      { state := { s with
          told := (p, if (s.pcbs p).error then .operationFailure else .operationSuccess) :: s.told } }
  | pcbDestroy (p o s) : Branch cfg (pcbDestroy p) o s
      { state := { s with destroyed := p :: s.destroyed } }
  | accept (prog s) (h : prog.instructions ≠ []) : Branch cfg accept (.program prog) s
      { state := s, spawn := [[ltpNewProcess prog]] }
  | notAccept (o s) : Branch cfg accept o s { state := s }
  | ltpNewProcess (prog o s) : Branch cfg (ltpNewProcess prog) o s
      { state := { s.setPcb (s.pcbId + 1)
          { cpuEstimatedBurst := cfg.estimacionInicial
            processSize := prog.size
            tablaPaginas := -1
            instructions := prog.instructions } with pcbId := s.pcbId + 1 },
        next := movePcbToNew (s.pcbId + 1) }

/-- Every step takes a branch. -/
theorem act_branch {cfg : KernelConfig} {a : Action} {o : Outcome} {s : Planner}
    {e : Effect Planner Action} (h : act cfg a o s = some e) : Branch cfg a o s e := by
  unfold act at h
  split at h
  · cases h
  cases a
  case consoleTerminate p => cases h; constructor
  case cpuRecievePcbAsync =>
    dsimp only [andThen] at h
    split at h
    · cases h; exact .recieveHalt _ _ ‹_›
    split at h
    · cases h; exact .recieveError _ _ (Or.inl ‹_›)
    rename_i hh he
    have h1 : s.halt = false ∧ s.dispatchError = .none := by simpa using And.intro hh he
    split at h <;> cases h
    · exact .recieveError _ _ (Or.inr ‹_›)
    · exact .recieved _ _ _ _ ⟨h1.1, h1.2, ‹_›⟩
    · exact .recievedOther _ _ _ _ ⟨h1.1, h1.2, ‹_›⟩ ‹_›
  all_goals
    dsimp only [only, andThen, crash, pop] at h
    (repeat' split at h) <;> cases h
  all_goals first
    | (constructor; done)
    | (constructor <;> first | assumption | simp_all)

/-- Nothing undoes a halt. -/
theorem act_halt {cfg : KernelConfig} {a : Action} {o : Outcome} {s : Planner}
    {e : Effect Planner Action} (h : act cfg a o s = some e) (hh : e.state.halt = false) :
    s.halt = false := by
  by_contra h1
  cases act_branch h <;> simp_all

/-! ### Weights of the functions that depend on the algorithm or the callback -/

section Loads

variable (w : Action → ℤ) (cfg : KernelConfig)

theorem load_ready (p : ℕ) : load w (movePcbToReady cfg p) =
    (if cfg.algoritmoPlanificacion = .srt then
      w (insertInOrder p) + w (assign p .prevStatus) + w (interruptIfBusy p) else w (push .ready p)) +
    w (assign p (.status .ready)) + w (semPost .stpSemPlan) := by
  unfold movePcbToReady
  split <;> simp [*] <;> ring

theorem load_tail : load w (dispatchTail cfg) =
    (if cfg.algoritmoPlanificacion = .srt then w ifInterrupted else 0) +
      w (semPost .stpSemDispatch) := by
  unfold dispatchTail
  split <;> simp [*]

theorem load_reply (r : Reply) (p : ℕ) : load w (applyReply cfg r p) =
    (if cfg.algoritmoPlanificacion = .srt then w (assign p (.cpuEstimatedBurst
      (cfg.nextEstimatedBurst r.cpuEstimatedBurst r.cpuExecutedBurst))) else 0) +
    w (assign p (.reply r)) + w (dispatchSwitch p) + w (assign p .nullCondition) := by
  unfold applyReply
  split <;> simp [*] <;> ring

theorem load_timerCall (t : Timer) : load w t.call =
    (if t.callback = .mtpUnblockPcb then
      w (semPost .mtpSemIo) + w (cancelSuspendTimer t.data) + w (assign t.data .timerBlocked) +
        w (unblockSwitch t.data)
    else w (assign t.data .timerSuspendedBlocked) + w (suspendIfBlocked t.data)) +
    w mutexLock + w mutexUnlock := by
  unfold Timer.call
  split <;> simp [*] <;> ring

end Loads

end Kernel
end Kiss
