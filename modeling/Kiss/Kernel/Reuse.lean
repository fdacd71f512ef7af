/-
# Memory that is taken again

`pcb_destroy` frees a PCB and `pcb_create` may get the same memory for another process. A PCB
is named by where it is: whoever still has a PCB that was destroyed, a queue or a timer, has
from then on the one of the process that came after. `act` leaves this out (all its PCBs are in
different places), so a run with it is a run of `act` until a thread creates a process in memory
that was freed, and another one from there.

`Begins cfg reach can` says where such a part of a run begins: where the kernel starts, or where
memory was taken again of a PCB for which `can` holds. What holds where the kernel starts, and is
kept by every step and by taking memory again, holds in every part (`Begins.inv`).

Key definitions: `SwapsSucceed`, `newPcb`, `actReuse`, `Begins`, `Starts`.
Key theorems: `Begins.inv`, `Begins.mono`, `Starts.inv`.
-/
import Kiss.Kernel.Branches

namespace Kiss
namespace Kernel

open Kernel.Action Threads

/-- `swapp_process` does not fail. Where it does, `mtp_suspend_pcb` puts on exit, to be freed, a PCB
that the blocked queue or its I/O timer has. -/
def SwapsSucceed (a : Action) (o : Outcome) : Prop := ∀ p, a = swappProcess p → o = .ok

/-- What `pcb_create` gives, wherever it is. -/
def newPcb (cfg : KernelConfig) (prog : Program) : Pcb :=
  { cpuEstimatedBurst := cfg.estimacionInicial
    processSize := prog.size
    tablaPaginas := -1
    instructions := prog.instructions }

/-- The memory of PCB `q` is another process's. -/
def Planner.recreate (s : Planner) (cfg : KernelConfig) (prog : Program) (q : ℕ) : Planner :=
  { s.setPcb q (newPcb cfg prog) with destroyed := s.destroyed.filter (· ≠ q) }

/-- `ltp_new_process` where `pcb_create` gets the memory of PCB `q`, that was destroyed. -/
def actReuse (cfg : KernelConfig) (q : ℕ) (a : Action) (_ : Outcome) (s : Planner) :
    Option (Effect Planner Action) :=
  match a with
  | ltpNewProcess prog =>
    if s.crashed = false ∧ q ∈ s.destroyed then andThen (s.recreate cfg prog q) (movePcbToNew q) else none
  | _ => none

theorem actReuse_some {cfg : KernelConfig} {q : ℕ} {a : Action} {o : Outcome} {s : Planner}
    {e : Effect Planner Action} (h : actReuse cfg q a o s = some e) : q ∈ s.destroyed ∧
    ∃ prog, a = ltpNewProcess prog ∧ e = { state := s.recreate cfg prog q, next := movePcbToNew q } := by
  unfold actReuse at h
  split at h
  · rename_i prog
    obtain ⟨⟨-, hq⟩, h⟩ := Option.ite_none_right_eq_some.mp h
    exact ⟨hq, prog, rfl, (Option.some.inj h).symm⟩
  · cases h

/-- Where the parts of a run begin whose steps are those of `reach`: memory is taken again only
of PCBs for which `can` holds. -/
inductive Begins (cfg : KernelConfig) (reach : Config Planner Action → Config Planner Action → Prop)
    (can : ℕ → Config Planner Action → Prop) : Config Planner Action → Prop
  | start : Begins cfg reach can (start cfg)
  | reuse {c₀ c c' : Config Planner Action} {x : ℕ × Outcome} {q : ℕ} (hb : Begins cfg reach can c₀)
      (hr : reach c₀ c) (hq : can q c) (hx : Threads.step (actReuse cfg q) c x = some c') :
      Begins cfg reach can c'

section Begins

variable {cfg : KernelConfig} {reach reach' : Config Planner Action → Config Planner Action → Prop}
  {can can' : ℕ → Config Planner Action → Prop} {ok : Config Planner Action → ℕ × Outcome → Prop}
  {c₀ c : Config Planner Action} {I : Config Planner Action → Prop}

theorem Begins.mono (hr : ∀ c₀ c, reach c₀ c → reach' c₀ c) (hc : ∀ q c, can q c → can' q c)
    (h : Begins cfg reach can c₀) : Begins cfg reach' can' c₀ := by
  induction h with
  | start => exact .start
  | reuse _ hr' hq hx ih => exact .reuse ih (hr _ _ hr') (hc _ _ hq) hx

/-- A property of the start that every step and every use of memory again keep. -/
theorem Begins.inv (hb : Begins cfg (Reach (act cfg) ok) can c₀) (h : Reach (act cfg) ok c₀ c)
    (h0 : I (Kernel.start cfg))
    (hs : ∀ c₁ c c' x, Begins cfg (Reach (act cfg) ok) can c₁ → Reach (act cfg) ok c₁ c → I c → ok c x →
      Threads.step (act cfg) c x = some c' → I c')
    (hu : ∀ c₁ c c' x q, Begins cfg (Reach (act cfg) ok) can c₁ → Reach (act cfg) ok c₁ c → I c → can q c →
      Threads.step (actReuse cfg q) c x = some c' → I c') : I c := by
  have hrun : ∀ {c₁ c}, Begins cfg (Reach (act cfg) ok) can c₁ → I c₁ → Reach (act cfg) ok c₁ c → I c := by
    intro c₁ c hb h1 hr
    induction hr with
    | start => exact h1
    | step x hr hok hx ih => exact hs _ _ _ x hb hr ih hok hx
  induction hb generalizing c with
  | start => exact hrun .start h0 h
  | reuse hb hr hq hx ih => exact hrun (.reuse hb hr hq hx) (hu _ _ _ _ _ hb hr (ih hr) hq hx) h

end Begins

/-- A run whose steps satisfy `ok` may begin at `c₀`. -/
class Starts (cfg : KernelConfig) (ok : Config Planner Action → ℕ × Outcome → Prop)
    (c₀ : Config Planner Action) : Prop where
  begins : Begins cfg (Reach (act cfg) ok) (fun _ _ => True) c₀

instance (cfg : KernelConfig) (ok : Config Planner Action → ℕ × Outcome → Prop) :
    Starts cfg ok (start cfg) := ⟨.start⟩

/-- The invariants of the program text and of the semaphores: to them it is the same who has
the PCB that was destroyed. -/
theorem Starts.inv {cfg : KernelConfig} {ok : Config Planner Action → ℕ × Outcome → Prop}
    {c₀ c : Config Planner Action} {I : Config Planner Action → Prop} [hb : Starts cfg ok c₀]
    (h : Reach (act cfg) ok c₀ c) (h0 : I (Kernel.start cfg))
    (hs : ∀ c₁ c c' x, Starts cfg ok c₁ → Reach (act cfg) ok c₁ c → I c → ok c x →
      Threads.step (act cfg) c x = some c' → I c')
    (hu : ∀ c₁ c c' x q, Starts cfg ok c₁ → Reach (act cfg) ok c₁ c → I c →
      Threads.step (actReuse cfg q) c x = some c' → I c') : I c :=
  hb.begins.inv h h0 (fun c₁ c c' x h1 => hs c₁ c c' x ⟨h1⟩)
    fun c₁ c c' x q h1 hr hI _ => hu c₁ c c' x q ⟨h1⟩ hr hI

end Kernel
end Kiss
