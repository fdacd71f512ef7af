/-
# The kernel and the CPU together

A step of the system is one of the kernel's threads, one of the CPU's, or one of both where
a message goes from one module to the other: a PCB the kernel dispatches, the PCB the CPU
gives back, an interrupt. PCBs are transmitted as `serializar_pcb` writes them. No step
fails on these sockets. `historia` is what `execute` has done for each process, over all its
dispatches, and `sinOperando` whether an operand of it was not read.

The server of the CPU stands for the memory module with what else asks it: whatever it
answers, instructions run in order, each once (`enOrden`).

Key definitions: `Estado`, `Evento`, `paso`, `Paso`, `Corre`, `Inv`.
Key theorems: `paso_branch`, `inv_paso`, `enOrden`.
-/
import Kiss.Cpu.Condicion
import Kiss.Kernel.Cancellation
import Kiss.Kernel.InOrder
import Kiss.Serializacion.IdaYVuelta

namespace Kiss
namespace Sistema

open Threads Serializacion

/-! ### The messages -/

/-- What `serializar_pcb` reads of the kernel's PCB. -/
def dispatched (s : Kernel.Planner) (p : ℕ) : Cpu.Pcb where
  id := p
  programCounter := (s.pcbs p).programCounter
  tablaPaginas := (s.pcbs p).tablaPaginas
  cpuDispatchCond := (s.pcbs p).cpuDispatchCond
  cpuExecutedBurst := (s.pcbs p).cpuExecutedBurst
  cpuEstimatedBurst := (s.pcbs p).cpuEstimatedBurst
  ioBurst := (s.pcbs p).ioBurst
  instructions := (s.pcbs p).instructions

/-- What the kernel reads of the PCB the CPU gives back: of which process it is, it knows. -/
def reply (p : ℕ) (q : Cpu.Pcb) : Kernel.Reply where
  id := p
  cpuDispatchCond := q.cpuDispatchCond
  programCounter := q.programCounter
  cpuEstimatedBurst := q.cpuEstimatedBurst
  cpuExecutedBurst := q.cpuExecutedBurst
  ioBurst := q.ioBurst

/-- The parameters are strings and the size of the package is an `int`. -/
def Transmisible (l : List Instruction) : Prop := SinNul l ∧ 32 + longitud l < 2 ^ 31

instance : DecidablePred Transmisible := fun l =>
  decidable_of_iff ((l.all fun i => i.parametros.all fun p => p.all (· ≠ 0)) = true ∧ 32 + longitud l < 2 ^ 31)
    (by simp [Transmisible, SinNul])

/-- A PCB that is sent and received. -/
def transmitido (x : Cpu.Pcb) : Option Cpu.Pcb :=
  if Transmisible x.instructions then (deserializarPcb (serializarPcb x)).bind PcbLeido.pcb else none

/-! ### The system -/

/-- The kernel and the CPU, with the history. -/
structure Estado (σ : Type*) where
  kernel : Config Kernel.Planner Kernel.Action
  cpu : Config (Cpu.CpuGlobal σ) Cpu.Action
  historia : ℕ → List Instruction := fun _ => []
  sinOperando : ℕ → Bool := fun _ => false

/-- Which threads take a step. -/
inductive Evento
  | kernel (x : ℕ × Kernel.Outcome)
  | cpu (x : ℕ × Cpu.Outcome)
  | cpuDispatchPcb (i j : ℕ)
  | cpuRecievePcb (i j : ℕ)
  | cpuInterrupt (i j : ℕ)
  deriving DecidableEq

section Paso

variable {σ : Type*} (cfg : Kernel.KernelConfig) (srv : Cpu.Servidor σ)

/-- The CPU has done `a` for the process whose PCB it has. -/
def Estado.anota (z : Estado σ) (a : Cpu.Action) (c : Config (Cpu.CpuGlobal σ) Cpu.Action) : Estado σ :=
  match z.kernel.state.atCpu with
  | [] => { z with cpu := c }
  | p :: _ => { z with
      cpu := c
      historia := Function.update z.historia p (z.historia p ++ Cpu.ejecutada a)
      sinOperando := Function.update z.sinOperando p
        (z.sinOperando p || Cpu.sinOperando srv z.cpu.state a) }

/-- The step of an event; `none` where one of its threads waits. -/
def paso (z : Estado σ) : Evento → Option (Estado σ)
  | .kernel x => match z.kernel.threads[x.1]? with
    | some (.sendPcb _ :: _) | some (.recieveMessage :: _) | some (.sendInterrupt :: _) => none
    | _ => (step (Kernel.act cfg) z.kernel x).map fun k => { z with kernel := k }
  | .cpu x => match z.cpu.threads[x.1]? with
    | some (.cpuDispatchPcb :: _) | some (.recibirPcb :: _) | some (.cpuInterrupt :: _) => none
    | some (a :: _) => (step (Cpu.act srv) z.cpu x).map (z.anota srv a)
    | _ => none
  | .cpuDispatchPcb i j => match z.kernel.threads[i]?, z.cpu.threads[j]? with
    | some (.sendPcb p :: _), some (.cpuDispatchPcb :: _) =>
      (transmitido (dispatched z.kernel.state p)).bind fun q =>
        (step (Kernel.act cfg) z.kernel (i, .ok)).bind fun k =>
          (step (Cpu.act srv) z.cpu (j, .pcb q)).map fun c => { z with kernel := k, cpu := c }
    | _, _ => none
  | .cpuRecievePcb i j =>
    match z.kernel.threads[i]?, z.cpu.threads[j]?, z.cpu.state.respuestas, z.kernel.state.atCpu with
    | some (.recieveMessage :: _), some (.recibirPcb :: _), x :: _, p :: _ =>
      (transmitido x).bind fun q =>
        (step (Kernel.act cfg) z.kernel (i, .reply (reply p q))).bind fun k =>
          (step (Cpu.act srv) z.cpu (j, .ok)).map fun c => { z with kernel := k, cpu := c }
    | _, _, _, _ => none
  | .cpuInterrupt i j => match z.kernel.threads[i]?, z.cpu.threads[j]? with
    | some (.sendInterrupt :: _), some (.cpuInterrupt :: _) =>
      (step (Kernel.act cfg) z.kernel (i, .ok)).bind fun k =>
        (step (Cpu.act srv) z.cpu (j, .ok)).map fun c => { z with kernel := k, cpu := c }
    | _, _ => none

/-- The branches of `paso`. -/
inductive Paso (z : Estado σ) : Estado σ → Prop
  | kernel (x k) (h1 : ∀ p l, z.kernel.threads[x.1]? ≠ some (.sendPcb p :: l))
      (h2 : ∀ l, z.kernel.threads[x.1]? ≠ some (.recieveMessage :: l))
      (h : step (Kernel.act cfg) z.kernel x = some k) : Paso z { z with kernel := k }
  | cpu (x a l c) (hk : z.cpu.threads[x.1]? = some (a :: l)) (ha : a ≠ .cpuDispatchPcb)
      (h : step (Cpu.act srv) z.cpu x = some c) : Paso z (z.anota srv a c)
  | cpuDispatchPcb (i j p l l' q k c) (hk : z.kernel.threads[i]? = some (.sendPcb p :: l))
      (hc : z.cpu.threads[j]? = some (.cpuDispatchPcb :: l'))
      (hq : transmitido (dispatched z.kernel.state p) = some q)
      (h1 : step (Kernel.act cfg) z.kernel (i, .ok) = some k)
      (h2 : step (Cpu.act srv) z.cpu (j, .pcb q) = some c) : Paso z { z with kernel := k, cpu := c }
  | cpuRecievePcb (i j l l' x xs p ps q k c) (hk : z.kernel.threads[i]? = some (.recieveMessage :: l))
      (hc : z.cpu.threads[j]? = some (.recibirPcb :: l')) (hx : z.cpu.state.respuestas = x :: xs)
      (hp : z.kernel.state.atCpu = p :: ps) (hq : transmitido x = some q)
      (h1 : step (Kernel.act cfg) z.kernel (i, .reply (reply p q)) = some k)
      (h2 : step (Cpu.act srv) z.cpu (j, .ok) = some c) : Paso z { z with kernel := k, cpu := c }
  | cpuInterrupt (i j l l' k c) (hk : z.kernel.threads[i]? = some (.sendInterrupt :: l))
      (hc : z.cpu.threads[j]? = some (.cpuInterrupt :: l'))
      (h1 : step (Kernel.act cfg) z.kernel (i, .ok) = some k)
      (h2 : step (Cpu.act srv) z.cpu (j, .ok) = some c) : Paso z { z with kernel := k, cpu := c }

/-- The runs of the system from `z`. -/
inductive Corre (z : Estado σ) : Estado σ → Prop
  | start : Corre z z
  | step {z₁ z₂ : Estado σ} (ev : Evento) : Corre z z₁ → paso cfg srv z₁ ev = some z₂ → Corre z z₂

/-- The modules are connected. -/
def start (m : Cpu.Mmu) (t : σ) : Estado σ := { kernel := Kernel.start cfg, cpu := Cpu.start m t }

end Paso

section Branches

variable {σ : Type*} {cfg : Kernel.KernelConfig} {srv : Cpu.Servidor σ} {z z' : Estado σ} {ev : Evento}

/-- Every step takes a branch. -/
theorem paso_branch (h : paso cfg srv z ev = some z') : Paso cfg srv z z' := by
  cases ev
  case kernel x =>
    dsimp only [paso] at h
    split at h
    iterate 3 cases h
    obtain ⟨k, hk, rfl⟩ := Option.map_eq_some_iff.mp h
    exact .kernel x k ‹_› ‹_› hk
  case cpu x =>
    dsimp only [paso] at h
    split at h
    iterate 3 cases h
    · rename_i a l h1 _ _ hk
      obtain ⟨c, hc, rfl⟩ := Option.map_eq_some_iff.mp h
      exact .cpu x a l c hk h1 hc
    · cases h
  case cpuDispatchPcb i j =>
    dsimp only [paso] at h
    split at h
    · obtain ⟨q, hq, h⟩ := Option.bind_eq_some_iff.mp h
      obtain ⟨k, hk, h⟩ := Option.bind_eq_some_iff.mp h
      obtain ⟨c, hc, rfl⟩ := Option.map_eq_some_iff.mp h
      exact .cpuDispatchPcb i j _ _ _ q k c ‹_› ‹_› hq hk hc
    · cases h
  case cpuRecievePcb i j =>
    dsimp only [paso] at h
    split at h
    · obtain ⟨q, hq, h⟩ := Option.bind_eq_some_iff.mp h
      obtain ⟨k, hk, h⟩ := Option.bind_eq_some_iff.mp h
      obtain ⟨c, hc, rfl⟩ := Option.map_eq_some_iff.mp h
      exact .cpuRecievePcb i j _ _ _ _ _ _ q k c ‹_› ‹_› ‹_› ‹_› hq hk hc
    · cases h
  case cpuInterrupt i j =>
    dsimp only [paso] at h
    split at h
    · obtain ⟨k, hk, h⟩ := Option.bind_eq_some_iff.mp h
      obtain ⟨c, hc, rfl⟩ := Option.map_eq_some_iff.mp h
      exact .cpuInterrupt i j _ _ k c ‹_› ‹_› hk hc
    · cases h

end Branches

/-! ### What is transmitted -/

theorem transmitido_some {x q : Cpu.Pcb} (h : transmitido x = some q) :
    Transmisible x.instructions ∧ q = enInt x := by
  unfold transmitido at h
  split at h
  · rename_i ht
    obtain ⟨y, h1, h2⟩ := Option.bind_eq_some_iff.mp h
    obtain ⟨y', h3, h4⟩ := (fiel_pcb ht.1 ht.2).vuelta
    rw [h1] at h3
    cases h3
    exact ⟨ht, Option.some.inj (h2.symm.trans h4)⟩
  · cases h

/-- The counter of a process fits in the package of its PCB. -/
theorem toInt_counter {l h : List Instruction} {n : ℤ} (hl : Transmisible l) (hn : Cpu.AlDia l n h) :
    toInt n = n := by
  have h1 : l.length ≤ longitud l := length_le_longitud l
  have h2 := hl.2
  have h3 := hn.le
  exact toInt_of_nonneg hn.nonneg (by omega)

theorem toInt_toInt (n : ℤ) : toInt (toInt n) = toInt n := by
  rw [← toInt_toU32, toU32_toInt, toInt_toU32]

/-- What comes back is sound. -/
theorem regresa_transmitido {n : ℤ} {l h : List Instruction} {f : Bool} {x q : Cpu.Pcb}
    (hx : x.Regresa (toInt n) l h f) (hq : transmitido x = some q) : q.Regresa (toInt n) l h f := by
  obtain ⟨h1, rfl⟩ := transmitido_some hq
  refine ⟨?_, hx.programa, fun hc => ?_⟩
  · show toInt x.id = toInt n
    rw [hx.propio, toInt_toInt]
  obtain ⟨h2, h3⟩ := hx.prosigue hc
  refine ⟨?_, h3⟩
  show Cpu.AlDia l (toInt x.programCounter) h
  rwa [toInt_counter (hx.programa ▸ h1) h2]

/-! ### The order -/

section Orden

variable {σ : Type*} {cfg : Kernel.KernelConfig} {srv : Cpu.Servidor σ} {m : Cpu.Mmu} {t : σ}
  {z z' z₁ z₂ : Estado σ} {ev : Evento}

/-- The instruction list of process `p`. -/
def Estado.programa (z : Estado σ) (p : ℕ) : List Instruction := (z.kernel.state.pcbs p).instructions

/-- No PCB is at the CPU. -/
structure Vacio (c : Config (Cpu.CpuGlobal σ) Cpu.Action) : Prop where
  sockets : c.state.dispatch = [] ∧ c.state.respuestas = []
  hilos : ∀ b, [b] ∈ c.threads → Cpu.pesoPcb b = 1 → b = .cpuDispatchPcb

/-- What is known of the system in every run. -/
structure Inv (cfg : Kernel.KernelConfig) (srv : Cpu.Servidor σ) (m : Cpu.Mmu) (t : σ) (z : Estado σ) : Prop where
  kernel : Reach (Kernel.act cfg) Kernel.NoTransportErrors (Kernel.start cfg) z.kernel
  cpu : Reach (Cpu.act srv) (fun _ _ => True) (Cpu.start m t) z.cpu
  orden : Kernel.InOrder z.historia z.sinOperando z.kernel
  prefijo : ∀ p, z.historia p <+: z.programa p
  exec : ∀ p, z.kernel.state.atCpu.head? = some p → z.kernel.state.exec = some p
  enCpu : ∀ p, z.kernel.state.atCpu.head? = some p → p ≤ z.kernel.state.pcbId ∧
    Cpu.EnCpu (toInt p) (z.programa p) (z.historia p) (z.sinOperando p) z.cpu
  vacio : z.kernel.state.atCpu = [] → Vacio z.cpu

theorem inv_start : Inv cfg srv m t (start cfg m t) where
  kernel := .start
  cpu := .start
  orden := by
    refine ⟨fun k hk hw => ?_, fun p hp => Or.inl ⟨hp, ?_, rfl⟩, fun _ _ => ⟨rfl, rfl⟩⟩
    · simp only [start, Kernel.start, List.mem_cons, List.not_mem_nil, or_false] at hk
      rcases hk with rfl | rfl | rfl | rfl | rfl <;> simp [Kernel.dispatchWeight] at hw
    · exact Cpu.alDia_cero _
  prefijo p := List.nil_prefix
  exec p h := by cases h
  enCpu p h := by cases h
  vacio _ := by
    refine ⟨⟨rfl, rfl⟩, fun b hb hw => ?_⟩
    simp only [start, Cpu.start, List.mem_cons, List.cons.injEq, and_true, List.not_mem_nil, or_false] at hb
    rcases hb with rfl | rfl | rfl | rfl
    case inr.inr.inl => rfl
    all_goals cases hw

/-- Without a PCB at the CPU only the kernel can bring one. -/
theorem vacio_step {c c' : Config (Cpu.CpuGlobal σ) Cpu.Action} {x : ℕ × Cpu.Outcome} {a : Cpu.Action}
    (hr : Reach (Cpu.act srv) (fun _ _ => True) (Cpu.start m t) c) (hx : step (Cpu.act srv) c x = some c')
    (hk : c.threads[x.1]? = some [a]) (ha : a ≠ .cpuDispatchPcb) (hv : Vacio c) : Vacio c' := by
  have hrun : ∀ a' e, c.threads[x.1]? = some [a'] → Cpu.act srv a' x.2 c.state = some e →
      (Cpu.pesoPcb a' = 1 → a' = .cpuDispatchPcb) → (e.state.dispatch = [] ∧ e.state.respuestas = []) ∧
        ∀ b, e.next = [b] → Cpu.pesoPcb b = 1 → b = .cpuDispatchPcb := by
    intro a' e hk' he hw
    obtain rfl : a = a' := by
      rw [hk] at hk'
      cases hk'
      rfl
    obtain ⟨h3, h4⟩ := hv.sockets
    have hb := Cpu.act_rama he
    generalize x.2 = o at hb
    cases hb
    case recibirDispatch h => rw [h3] at h; cases h
    case recibirPcb h => rw [h4] at h; cases h
    case cpuDispatchPcb => exact absurd rfl ha
    case desconectado | errorDispatch | interruptLost | errorInterrupt | recibirInterrupt | otraSignal | cpuInterrupt =>
      refine ⟨⟨h3, h4⟩, fun b hb hw => ?_⟩
      cases hb <;> cases hw
    all_goals exact absurd (hw rfl) (by simp)
  obtain ⟨h1, h2⟩ := Cpu.fases_step (G := fun s => s.dispatch = [] ∧ s.respuestas = [])
    (F := fun b _ => b = .cpuDispatchPcb) hr hx hv.hilos
    (fun a' e hk' hw he => (hrun a' e hk' he hw).imp_right fun h b _ => h b) fun _ _ _ _ _ _ _ h => h
  exact ⟨h1, h2⟩

/-- With the PCB that comes back there is none at the CPU. -/
theorem vacio_recibe {c c' : Config (Cpu.CpuGlobal σ) Cpu.Action} {x : ℕ × Cpu.Outcome} {p : Cpu.Pcb}
    {ps : List Cpu.Pcb} (hr : Reach (Cpu.act srv) (fun _ _ => True) (Cpu.start m t) c)
    (hx : step (Cpu.act srv) c x = some c') (hk : c.threads[x.1]? = some [.recibirPcb])
    (hp : c.state.respuestas = p :: ps) : Vacio c' := by
  obtain ⟨a, e, hk', he, rfl⟩ := Cpu.step_solo hr hx
  obtain rfl : Cpu.Action.recibirPcb = a := by
    rw [hk] at hk'
    cases hk'
    rfl
  have h1 := Cpu.reach_unPcb hr
  have h2 : ∀ k ∈ c.threads, 0 ≤ load Cpu.pesoPcb k :=
    fun k _ => (grounded_of_nonneg Cpu.pesoPcb_nonneg k).nonneg
  have h3 := total_nonneg h2
  rw [hp, List.length_cons] at h1
  push_cast at h1
  have hps : ps = [] := List.length_eq_zero_iff.mp (by omega)
  have hd : c.state.dispatch = [] := List.length_eq_zero_iff.mp (by omega)
  cases Cpu.act_rama he
  case recibirPcb q l hl =>
    rw [hp] at hl
    cases hl
    refine ⟨⟨hd, hps⟩, fun b hb hw => ?_⟩
    rcases List.mem_or_eq_of_mem_set hb with hb | hb
    · have h4 := le_total h2 hb
      rw [load_cons, load_nil, hw] at h4
      omega
    · simpa [Effect.rest] using hb

/-- The program of a process stays. -/
theorem programa_step {k : Config Kernel.Planner Kernel.Action} {x : ℕ × Kernel.Outcome} {p : ℕ}
    (hx : step (Kernel.act cfg) z.kernel x = some k) (hp : p ≤ z.kernel.state.pcbId) :
    (k.state.pcbs p).instructions = z.programa p := by
  obtain ⟨a, l, e, -, he, rfl⟩ := step_some hx
  rcases Kernel.act_counter (p := p) he with ⟨h, -⟩ | ⟨prog, -, h, -⟩
  · exact h
  · omega

/-- What a process has executed is a prefix of its program, also of a new one. -/
theorem prefijo_step {k : Config Kernel.Planner Kernel.Action} {x : ℕ × Kernel.Outcome}
    (hI : Inv cfg srv m t z) (hx : step (Kernel.act cfg) z.kernel x = some k) (p : ℕ) :
    z.historia p <+: (k.state.pcbs p).instructions := by
  by_cases hp : p ≤ z.kernel.state.pcbId
  · rw [programa_step hx hp]
    exact hI.prefijo p
  · rw [(hI.orden.unborn p (by omega)).1]
    exact List.nil_prefix

/-- A step of the kernel. -/
theorem inv_kernel {k : Config Kernel.Planner Kernel.Action} {x : ℕ × Kernel.Outcome}
    (hI : Inv cfg srv m t z) (h1 : ∀ p l, z.kernel.threads[x.1]? ≠ some (.sendPcb p :: l))
    (h2 : ∀ l, z.kernel.threads[x.1]? ≠ some (.recieveMessage :: l))
    (hx : step (Kernel.act cfg) z.kernel x = some k) : Inv cfg srv m t { z with kernel := k } := by
  have hok : Kernel.NoTransportErrors z.kernel x :=
    ⟨fun p l hk => absurd hk (h1 p l), fun l hk => absurd hk (h2 l)⟩
  obtain ⟨a, l, e, hk, he, hk'⟩ := step_some hx
  have h3 : k.state.atCpu = z.kernel.state.atCpu := by
    rw [hk']
    refine Kernel.atCpu_act he (fun p hp => ?_) fun hr => ?_
    · exact h1 p l (hp ▸ hk)
    · exact h2 l (hr ▸ hk)
  refine ⟨.step x hI.kernel hok hx, hI.cpu, ?_, fun p => prefijo_step (z := z) hI hx p, fun p hp => ?_,
    fun p hp => ?_, fun h0 => hI.vacio (h3 ▸ h0)⟩
  · exact Kernel.inOrder_step (fun _ _ h => h) hI.kernel hx hI.orden fun r l hk => absurd hk (h2 l)
  · rw [h3] at hp
    have h4 := Kernel.atCpu_exec (fun _ _ h => h) hI.kernel hk he hp (hI.exec p hp)
    rw [hk']
    exact h4
  · rw [h3] at hp
    obtain ⟨h4, h5⟩ := hI.enCpu p hp
    refine ⟨h4.trans ?_, ?_⟩
    · rw [hk']
      exact Kernel.act_pcbId he
    · show Cpu.EnCpu _ (k.state.pcbs p).instructions _ _ _
      rw [programa_step hx h4]
      exact h5

/-- A step of the CPU. -/
theorem inv_cpu {c : Config (Cpu.CpuGlobal σ) Cpu.Action} {x : ℕ × Cpu.Outcome} {a : Cpu.Action}
    {l : List Cpu.Action} (hI : Inv cfg srv m t z) (hk : z.cpu.threads[x.1]? = some (a :: l))
    (ha : a ≠ .cpuDispatchPcb) (hx : step (Cpu.act srv) z.cpu x = some c) :
    Inv cfg srv m t (z.anota srv a c) := by
  have hc := Reach.step x hI.cpu trivial hx
  obtain rfl := Cpu.reach_solo hI.cpu _ (List.mem_of_getElem? hk) a l rfl
  unfold Estado.anota
  split
  case h_1 h0 =>
    refine ⟨hI.kernel, hc, hI.orden, hI.prefijo, hI.exec, fun p hp => ?_,
      fun _ => vacio_step hI.cpu hx hk ha (hI.vacio h0)⟩
    change z.kernel.state.atCpu.head? = some p at hp
    rw [h0] at hp
    cases hp
  case h_2 p ps h0 =>
    have h1 : z.kernel.state.atCpu.head? = some p := by rw [h0]; rfl
    obtain ⟨h2, h3⟩ := hI.enCpu p h1
    obtain ⟨h4, -⟩ := Cpu.enCpu_ejecuta h3 (List.mem_of_getElem? hk) (hI.prefijo p)
    have h5 := Cpu.enCpu_step hI.cpu hx hk ha h3
    refine ⟨hI.kernel, hc, ?_, fun q => ?_, hI.exec, fun q hq => ?_, fun hn => ?_⟩
    · refine Kernel.inOrder_executes (fun _ _ h => h) hI.kernel hI.orden h1 (hI.exec p h1) h2 fun q hq => ?_
      simp [hq]
    · rcases eq_or_ne q p with rfl | hq
      · simpa [Estado.programa] using h4
      · simpa [Estado.programa, hq] using hI.prefijo q
    · obtain rfl : q = p := Option.some.inj (hq.symm.trans h1)
      refine ⟨h2, ?_⟩
      simpa [Estado.programa] using h5
    · change z.kernel.state.atCpu = [] at hn
      rw [h0] at hn
      cases hn

/-- The PCB that is dispatched is where its process was left. -/
theorem enOrden_dispatched {i p : ℕ} {l : List Kernel.Action} {q : Cpu.Pcb} (hI : Inv cfg srv m t z)
    (hk : z.kernel.threads[i]? = some (.sendPcb p :: l)) (hq : transmitido (dispatched z.kernel.state p) = some q) :
    p ≤ z.kernel.state.pcbId ∧ q.EnOrden (toInt p) (z.programa p) (z.historia p) (z.sinOperando p) ∧
      q.cpuDispatchCond = .nullCondition := by
  have hm := List.mem_of_getElem? hk
  have hs : l = [.recieveMessageAsync, .loop .stp] := (Kernel.reach_shape hI.kernel _ hm).self
  obtain ⟨h1, h2, h3⟩ := (hI.orden.known _ hm (by simp [hs, Kernel.dispatchWeight])).sending p l rfl
  obtain ⟨h4, rfl⟩ := transmitido_some hq
  have h5 : (enInt (dispatched z.kernel.state p)).id = toInt p := by simp only [enInt, dispatched]
  refine ⟨h1, ⟨h5, rfl, ?_, h3⟩, Kernel.reach_unconditioned (x := (i, .ok)) hI.kernel hk⟩
  show Cpu.AlDia (z.programa p) (toInt (z.kernel.state.pcbs p).programCounter) (z.historia p)
  rw [toInt_counter h4 h2]
  exact h2

/-- The dispatch of a PCB. -/
theorem inv_dispatch {i j p : ℕ} {l : List Kernel.Action} {l' : List Cpu.Action} {q : Cpu.Pcb}
    {k : Config Kernel.Planner Kernel.Action} {c : Config (Cpu.CpuGlobal σ) Cpu.Action}
    (hI : Inv cfg srv m t z) (hk : z.kernel.threads[i]? = some (.sendPcb p :: l))
    (hc : z.cpu.threads[j]? = some (.cpuDispatchPcb :: l')) (hq : transmitido (dispatched z.kernel.state p) = some q)
    (h1 : step (Kernel.act cfg) z.kernel (i, .ok) = some k) (h2 : step (Cpu.act srv) z.cpu (j, .pcb q) = some c) :
    Inv cfg srv m t { z with kernel := k, cpu := c } := by
  have hm := List.mem_of_getElem? hk
  have hs : l = [.recieveMessageAsync, .loop .stp] := (Kernel.reach_shape hI.kernel _ hm).self
  obtain rfl := Cpu.reach_solo hI.cpu _ (List.mem_of_getElem? hc) _ l' rfl
  obtain ⟨h3, h4, h5⟩ := enOrden_dispatched hI hk hq
  have hok : Kernel.NoTransportErrors z.kernel (i, .ok) :=
    ⟨fun _ _ _ => rfl, fun l hl => by rw [hk] at hl; cases hl⟩
  have hat : Kernel.inOrderPhases.At z.kernel.state.view (.sendPcb p :: l) :=
    (Kernel.reach_phases (Kernel.inOrderPhases_rules fun _ _ h => h) ⟨rfl, rfl, rfl⟩ hI.kernel).2 _ hm
      (by simp [hs, Kernel.dispatchWeight])
  obtain ⟨h6, -, h7⟩ := hat
  change z.kernel.state.exec = some p at h6
  change z.kernel.state.atCpu = [] at h7
  have h8 : k.state.atCpu = [p] ∧ k.state.exec = some p := by
    obtain ⟨a, l₁, e, hl, he, rfl⟩ := step_some h1
    rw [hk] at hl
    cases hl
    cases Kernel.act_branch he
    case sendPcb => exact ⟨by simp [h7], h6⟩
    case sendPcbFails h => exact absurd rfl h
  have h9 := Cpu.enCpu_dispatch hI.cpu h2 hc rfl h4 h5
  refine ⟨.step _ hI.kernel hok h1, .step _ hI.cpu trivial h2, ?_, fun p => prefijo_step (z := z) hI h1 p,
    fun p' hp' => ?_, fun p' hp' => ?_, fun hn => ?_⟩
  · refine Kernel.inOrder_step (fun _ _ h => h) hI.kernel h1 hI.orden fun r l₁ hl => ?_
    rw [hk] at hl
    cases hl
  · change k.state.atCpu.head? = some p' at hp'
    rw [h8.1] at hp'
    cases hp'
    exact h8.2
  · change k.state.atCpu.head? = some p' at hp'
    rw [h8.1] at hp'
    cases hp'
    refine ⟨?_, ?_⟩
    · obtain ⟨a, l₁, e, -, he, rfl⟩ := step_some h1
      exact h3.trans (Kernel.act_pcbId he)
    · show Cpu.EnCpu _ (k.state.pcbs p).instructions _ _ _
      rw [programa_step h1 h3]
      exact h9
  · change k.state.atCpu = [] at hn
    rw [h8.1] at hn
    cases hn

/-- The reception of a PCB. -/
theorem inv_recieve {i j p : ℕ} {l : List Kernel.Action} {x q : Cpu.Pcb} {xs : List Cpu.Pcb} {ps : List ℕ}
    {k : Config Kernel.Planner Kernel.Action} {c : Config (Cpu.CpuGlobal σ) Cpu.Action}
    {l' : List Cpu.Action} (hI : Inv cfg srv m t z)
    (hk : z.kernel.threads[i]? = some (.recieveMessage :: l)) (hc : z.cpu.threads[j]? = some (.recibirPcb :: l'))
    (hx : z.cpu.state.respuestas = x :: xs) (hp : z.kernel.state.atCpu = p :: ps) (hq : transmitido x = some q)
    (h1 : step (Kernel.act cfg) z.kernel (i, .reply (reply p q)) = some k)
    (h2 : step (Cpu.act srv) z.cpu (j, .ok) = some c) : Inv cfg srv m t { z with kernel := k, cpu := c } := by
  have hm := List.mem_of_getElem? hk
  have hs : l = [] := (Kernel.reach_shape hI.kernel _ hm).self
  obtain rfl := Cpu.reach_solo hI.cpu _ (List.mem_of_getElem? hc) _ l' rfl
  obtain ⟨h3, h4⟩ := hI.enCpu p (by rw [hp]; rfl)
  have h5 := regresa_transmitido (h4.respuestas x (hx ▸ List.mem_cons_self)) hq
  have hok : Kernel.NoTransportErrors z.kernel (i, .reply (reply p q)) :=
    ⟨fun _ l hl => (by rw [hk] at hl; cases hl), fun _ _ => ⟨_, rfl⟩⟩
  have hat : Kernel.inOrderPhases.At z.kernel.state.view (.recieveMessage :: l) :=
    (Kernel.reach_phases (Kernel.inOrderPhases_rules fun _ _ h => h) ⟨rfl, rfl, rfl⟩ hI.kernel).2 _ hm
      (by simp [hs, Kernel.dispatchWeight])
  obtain ⟨p', -, -, h6⟩ := hat
  change z.kernel.state.atCpu = [p'] at h6
  have h7 : k.state.atCpu = [] := by
    obtain ⟨a, l₁, e, hl, he, rfl⟩ := step_some h1
    rw [hk] at hl
    cases hl
    cases Kernel.act_branch he
    case recieveMessage err pk l₂ hres =>
      simp only [Kernel.recieveMessageResult, h6] at hres
      split at hres <;> cases hres
      rfl
  refine ⟨.step _ hI.kernel hok h1, .step _ hI.cpu trivial h2, ?_, fun p => prefijo_step (z := z) hI h1 p,
    fun p' hp' => ?_, fun p' hp' => ?_, fun _ => vacio_recibe hI.cpu h2 hc hx⟩
  · refine Kernel.inOrder_step (fun _ _ h => h) hI.kernel h1 hI.orden fun r l₁ _ hr => ?_
    cases hr
    intro hc
    obtain ⟨h8, h9⟩ := h5.prosigue hc
    exact ⟨h3, h8, h9⟩
  · change k.state.atCpu.head? = some p' at hp'
    rw [h7] at hp'
    cases hp'
  · change k.state.atCpu.head? = some p' at hp'
    rw [h7] at hp'
    cases hp'

/-- An interrupt executes nothing. -/
theorem anota_interrupt (c : Config (Cpu.CpuGlobal σ) Cpu.Action) :
    z.anota srv .cpuInterrupt c = { z with cpu := c } := by
  unfold Estado.anota
  split
  · rfl
  · simp [Cpu.ejecutada, Cpu.sinOperando]

/-- **One step.** -/
theorem inv_paso (hI : Inv cfg srv m t z) (h : Paso cfg srv z z') : Inv cfg srv m t z' := by
  cases h with
  | kernel x k h1 h2 h => exact inv_kernel hI h1 h2 h
  | cpu x a l c hk ha h => exact inv_cpu hI hk ha h
  | cpuDispatchPcb i j p l l' q k c hk hc hq h1 h2 => exact inv_dispatch hI hk hc hq h1 h2
  | cpuRecievePcb i j l l' x xs p ps q k c hk hc hx hp hq h1 h2 => exact inv_recieve hI hk hc hx hp hq h1 h2
  | cpuInterrupt i j l l' k c hk hc h1 h2 =>
    have h3 := inv_kernel hI (fun p l hl => by rw [hk] at hl; cases hl) (fun l hl => by rw [hk] at hl; cases hl) h1
    have h4 := inv_cpu h3 hc (by simp) h2
    rwa [anota_interrupt] at h4

theorem inv_corre (hI : Inv cfg srv m t z) (h : Corre cfg srv z z') : Inv cfg srv m t z' := by
  induction h with
  | start => exact hI
  | step ev _ hx ih => exact inv_paso ih (paso_branch hx)

/-- A process whose operand was not read executes nothing more. -/
theorem historia_paso (hI : Inv cfg srv m t z) (h : Paso cfg srv z z') {p : ℕ} (hp : z.sinOperando p = true) :
    z'.sinOperando p = true ∧ z'.historia p = z.historia p := by
  cases h with
  | cpu x a l c hk ha h =>
    unfold Estado.anota
    split
    case h_1 => exact ⟨hp, rfl⟩
    case h_2 q qs h0 =>
      rcases eq_or_ne p q with rfl | hpq
      · obtain rfl := Cpu.reach_solo hI.cpu _ (List.mem_of_getElem? hk) a l rfl
        obtain ⟨-, h1⟩ := hI.enCpu p (by rw [h0]; rfl)
        obtain ⟨-, h2⟩ := Cpu.enCpu_ejecuta h1 (List.mem_of_getElem? hk) (hI.prefijo p)
        have h3 : Cpu.ejecutada a = [] := by
          by_contra hne
          rw [h2 hne] at hp
          cases hp
        simp [h3, hp]
      · simp [hpq, hp]
  | kernel | cpuDispatchPcb | cpuRecievePcb | cpuInterrupt => exact ⟨hp, rfl⟩

/-- The program of a process does not change once it was created. -/
theorem programa_paso (h : Paso cfg srv z z') {p : ℕ} (hp : p ≤ z.kernel.state.pcbId) :
    p ≤ z'.kernel.state.pcbId ∧ z'.programa p = z.programa p := by
  have hk : ∀ {k : Config Kernel.Planner Kernel.Action} {x : ℕ × Kernel.Outcome},
      step (Kernel.act cfg) z.kernel x = some k → p ≤ k.state.pcbId ∧ (k.state.pcbs p).instructions = z.programa p := by
    intro k x hx
    refine ⟨?_, programa_step hx hp⟩
    obtain ⟨a, l, e, -, he, rfl⟩ := step_some hx
    exact hp.trans (Kernel.act_pcbId he)
  cases h with
  | cpu x a l c =>
    unfold Estado.anota
    split <;> exact ⟨hp, rfl⟩
  | kernel x k _ _ h => exact hk h
  | cpuDispatchPcb _ _ _ _ _ _ _ _ _ _ _ h1 => exact hk h1
  | cpuRecievePcb _ _ _ _ _ _ _ _ _ _ _ _ _ _ _ _ h1 => exact hk h1
  | cpuInterrupt _ _ _ _ _ _ _ _ h1 => exact hk h1

/-- In every run what `execute` has done for a process is a prefix of its program, which
stays, and after an operand is not read it does nothing more for it. -/
structure EnOrden (cfg : Kernel.KernelConfig) (srv : Cpu.Servidor σ) (z : Estado σ) : Prop where
  /-- `execute` is called with the PCB of the process it is counted for. -/
  propio : ∀ q i v, [.execute q i v] ∈ z.cpu.threads → ∃ p, z.kernel.state.atCpu.head? = some p ∧
    q.id = toInt p ∧ q.instructions = z.programa p
  prefijo : ∀ p, z.historia p <+: z.programa p
  programa : ∀ z', Corre cfg srv z z' → ∀ p ≤ z.kernel.state.pcbId, z'.programa p = z.programa p
  termina : ∀ z', Corre cfg srv z z' → ∀ p, z.sinOperando p = true → z'.historia p = z.historia p

/-- **Order.** Over all its dispatches, a process executes its instructions in order, each
once. -/
theorem enOrden (h : Corre cfg srv (start cfg m t) z) : EnOrden cfg srv z := by
  have hI : Inv cfg srv m t z := inv_corre inv_start h
  refine ⟨fun q i v hk => ?_, hI.prefijo, fun z' h' p hp => ?_, fun z' h' p hp => ?_⟩
  · cases h0 : z.kernel.state.atCpu with
    | nil =>
      have := (hI.vacio h0).hilos _ hk rfl
      cases this
    | cons p ps =>
      obtain ⟨-, h1⟩ := hI.enCpu p (by rw [h0]; rfl)
      obtain ⟨h2, -⟩ : q.Leyo _ _ _ _ i ∧ _ := h1.fases _ hk rfl
      exact ⟨p, rfl, h2.propio, h2.programa⟩
  · suffices h1 : p ≤ z'.kernel.state.pcbId ∧ z'.programa p = z.programa p from h1.2
    induction h' with
    | start => exact ⟨hp, rfl⟩
    | step ev hr hx ih =>
      obtain ⟨h1, h2⟩ := programa_paso (paso_branch hx) ih.1
      exact ⟨h1, h2.trans ih.2⟩
  · suffices h1 : z'.sinOperando p = true ∧ z'.historia p = z.historia p from h1.2
    induction h' with
    | start => exact ⟨hp, rfl⟩
    | step ev hr hx ih =>
      obtain ⟨h1, h2⟩ := historia_paso (inv_corre hI hr) (paso_branch hx) ih.1
      exact ⟨h1, h2.trans ih.2⟩

/-! ### A run -/

/-- The events, one after the other. -/
def correr (cfg : Kernel.KernelConfig) (srv : Cpu.Servidor σ) : Estado σ → List Evento → Option (Estado σ)
  | z, [] => some z
  | z, ev :: evs => (paso cfg srv z ev).bind fun z' => correr cfg srv z' evs

theorem corre_correr : ∀ {evs : List Evento} {z₁ : Estado σ}, Corre cfg srv z z₁ → correr cfg srv z₁ evs = some z₂ →
    Corre cfg srv z z₂
  | [], z₁, h, hr => Option.some.inj hr ▸ h
  | ev :: evs, z₁, h, hr => by
    obtain ⟨z₃, h1, h2⟩ := Option.bind_eq_some_iff.mp hr
    exact corre_correr (.step ev h h1) h2

end Orden

/-- `n` steps of a thread of the kernel. -/
def pasosKernel (n i : ℕ) : List Evento := List.replicate n (.kernel (i, .ok))

/-- `n` steps of the dispatch handler. -/
def pasosCpu (n : ℕ) : List Evento := List.replicate n (.cpu (0, .ok))

/-- The PCB in front of the ready queue is sent. -/
def despacho : List Evento := pasosKernel 8 3 ++ [.cpuDispatchPcb 3 2] ++ pasosKernel 2 3

/-- An I/O, an instruction and one whose operand a memory module that does not answer does
not give. -/
def copiaProgram : Program := ⟨64, [⟨.io, [[53]]⟩, ⟨.noOp, []⟩, ⟨.copy, [[48], [48]]⟩, ⟨.exit, []⟩]⟩

/-- Process 1 is dispatched twice: thread 6 receives it for the I/O, whose timer is thread
8, and thread 9 for the operand. -/
def copiaRun : List Evento :=
  (Kernel.admitRun copiaProgram 5).map .kernel ++ despacho ++ pasosCpu 10 ++ .cpuRecievePcb 6 2 :: pasosKernel 14 6 ++
    pasosKernel 9 2 ++ pasosKernel 12 8 ++ despacho ++ pasosCpu 12 ++ [.cpuRecievePcb 9 2]

theorem enOrden_copiaRun : ∃ z, Corre (Kernel.exampleConfig .fifo) Cpu.sinMemoria
    (start (Kernel.exampleConfig .fifo) Cpu.ejemploMmu ()) z ∧
    z.historia 1 = copiaProgram.instructions.take 2 ∧ z.sinOperando 1 = true ∧
    EnOrden (Kernel.exampleConfig .fifo) Cpu.sinMemoria z := by
  have h1 : (correr (Kernel.exampleConfig .fifo) Cpu.sinMemoria
      (start (Kernel.exampleConfig .fifo) Cpu.ejemploMmu ()) copiaRun).map
      (fun z => (z.historia 1, z.sinOperando 1)) = some (copiaProgram.instructions.take 2, true) := by
    decide +kernel
  obtain ⟨z, hz, h2⟩ := Option.map_eq_some_iff.mp h1
  obtain ⟨h3, h4⟩ := Prod.mk.inj h2
  have hr := corre_correr .start hz
  exact ⟨z, hr, h3, h4, enOrden hr⟩

end Sistema
end Kiss
