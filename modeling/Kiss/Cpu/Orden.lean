/-
# The order of a process's instructions

The counter of the dispatched PCB and what `execute` has done for its process go together
(`AlDia`) but between the fetch and `execute`, so where the memory module gives no operand
they part: the PCB goes back one instruction ahead, with no condition. With a condition
after which a process goes on (`Prosigue`), they are together again (`faseOrden_rama`).

Key definitions: `AlDia`, `Prosigue`, `ejecutada`, `sinOperando`, `faseOrden`, `EnCpu`.
Key theorems: `faseOrden_rama`, `enCpu_step`, `enCpu_ejecuta`.
-/
import Kiss.Cpu.Despacho

namespace Kiss
namespace Cpu

open Threads

variable {σ : Type*} {srv : Servidor σ}

/-! ### What was executed -/

/-- Of the program `l`, `h` are the instructions before the counter `n`. -/
structure AlDia (l : List Instruction) (n : ℤ) (h : List Instruction) : Prop where
  nonneg : 0 ≤ n
  le : n ≤ l.length
  historia : h = l.take n.toNat

theorem alDia_cero (l : List Instruction) : AlDia l 0 [] := ⟨le_refl _, Int.natCast_nonneg _, rfl⟩

/-- The instruction at the counter comes next. -/
theorem AlDia.succ {l h : List Instruction} {n : ℤ} {i : Instruction} (ha : AlDia l n h)
    (hi : listGet l n = some i) : AlDia l (n + 1) (h ++ [i]) := by
  obtain ⟨h0, h1, h2⟩ := listGet_some hi
  refine ⟨by omega, by omega, ?_⟩
  rw [show (n + 1).toNat = n.toNat + 1 by omega, List.take_add_one, h2, ha.historia]
  rfl

theorem AlDia.prefijo {l h : List Instruction} {n : ℤ} (ha : AlDia l n h) : h <+: l :=
  ha.historia ▸ List.take_prefix ..

/-- The kernel goes on with a process that comes back with the condition. -/
def Prosigue (d : DispatchCond) : Prop := d = .ioSyscall ∨ d = .interruptedByKernel

theorem not_prosigue_null : ¬ Prosigue .nullCondition := by simp [Prosigue]

/-- What an action executes. -/
def ejecutada : Action → List Instruction
  | .execute _ i _ => [i]
  | _ => []

/-- The memory module does not give the operand. -/
def sinOperando (srv : Servidor σ) (s : CpuGlobal σ) : Action → Bool
  | .faseOperands p i => match faseOperands srv s.mmu s.memoria p i with
    | some (none, _) => true
    | _ => false
  | _ => false

/-! ### The dispatched PCB -/

variable {id : ℤ} {l h : List Instruction} {f : Bool}

/-- The PCB of the process `id` with the program `l` that has executed `h`, and for which `f`
says whether an operand was not read. -/
structure Pcb.EnOrden (id : ℤ) (l h : List Instruction) (f : Bool) (p : Pcb) : Prop where
  propio : p.id = id
  programa : p.instructions = l
  alDia : AlDia l p.programCounter h
  operandos : f = false

/-- The same, with instruction `i` fetched and not executed. -/
structure Pcb.Leyo (id : ℤ) (l h : List Instruction) (f : Bool) (i : Instruction) (p : Pcb) : Prop where
  propio : p.id = id
  programa : p.instructions = l
  fetched : listGet l (p.programCounter - 1) = some i
  alDia : AlDia l (p.programCounter - 1) h
  operandos : f = false

/-- The PCB of a process that comes back. -/
structure Pcb.Regresa (id : ℤ) (l h : List Instruction) (f : Bool) (p : Pcb) : Prop where
  propio : p.id = id
  programa : p.instructions = l
  prosigue : Prosigue p.cpuDispatchCond → AlDia l p.programCounter h ∧ f = false

/-- What is known of the PCB at each step of the handler. -/
def faseOrden (id : ℤ) (l h : List Instruction) (f : Bool) : Action → CpuGlobal σ → Prop
  | .borrarInterrupcion p, _ | .ejecutarPcb p, _ | .fetch p, _ =>
    p.EnOrden id l h f ∧ p.cpuDispatchCond = .nullCondition
  | .faseOperands p i, _ | .execute p i _, _ => p.Leyo id l h f i ∧ p.cpuDispatchCond = .nullCondition
  | .testInterrupcion p, s => p.EnOrden id l h f ∧
      (s.enviarPcbOExit = false → p.cpuDispatchCond = .nullCondition)
  | .checkInterrupt p, s => p.EnOrden id l h f ∧
      (s.enviarPcbOExit = false → s.hayInterrupcion = false → p.cpuDispatchCond = .nullCondition)
  | .finEjecucion p, _ | .enviarPcb p, _ => p.Regresa id l h f
  | _, _ => True

/-- What is known of the process whose PCB is at the CPU. -/
structure EnCpu (id : ℤ) (l h : List Instruction) (f : Bool) (c : Config (CpuGlobal σ) Action) : Prop where
  dispatch : ∀ p ∈ c.state.dispatch, p.EnOrden id l h f ∧ p.cpuDispatchCond = .nullCondition
  respuestas : ∀ p ∈ c.state.respuestas, p.Regresa id l h f
  fases : ∀ b, [b] ∈ c.threads → pesoPcb b = 1 → faseOrden id l h f b c.state

theorem Pcb.EnOrden.regresa {p : Pcb} (hp : p.EnOrden id l h f) : p.Regresa id l h f :=
  ⟨hp.propio, hp.programa, fun _ => ⟨hp.alDia, hp.operandos⟩⟩

theorem Pcb.Leyo.ejecuta {p q : Pcb} {i : Instruction} (hp : p.Leyo id l h f i)
    (h1 : q.instructions = p.instructions) (h2 : q.programCounter = p.programCounter) (h0 : q.id = p.id) :
    q.EnOrden id l (h ++ [i]) f := by
  have h3 := hp.alDia.succ hp.fetched
  rw [sub_add_cancel, ← h2] at h3
  exact ⟨h0.trans hp.propio, h1.trans hp.programa, h3, hp.operandos⟩

/-- Where `execute` writes a condition it sets `enviar_pcb_o_exit`. -/
theorem execute_nullCondition {m m' : Mmu} {s s' : σ} {p q : Pcb} {i : Instruction} {v : ℤ} {enviar : Bool}
    (hp : p.cpuDispatchCond = .nullCondition) (he : execute srv m s p i v = some (q, enviar, m', s'))
    (h0 : enviar = false) : q.cpuDispatchCond = .nullCondition := by
  subst h0
  rw [execute_sigue he, hp]

section Step

variable {ok : Config (CpuGlobal σ) Action → ℕ × Outcome → Prop} {m : Mmu} {t : σ}
  {c c' : Config (CpuGlobal σ) Action} {x : ℕ × Outcome} {a b : Action} {o : Outcome} {s : CpuGlobal σ}
  {e : Effect (CpuGlobal σ) Action}

/-- A step of the thread that has the PCB. -/
theorem faseOrden_rama (hd : ∀ p ∈ s.dispatch, p.EnOrden id l h f ∧ p.cpuDispatchCond = .nullCondition)
    (hF : pesoPcb a = 1 → faseOrden id l h f a s) (hr : Rama srv a o s e) (hs : e.stop = false)
    (hb : e.next = [b]) : faseOrden id l (h ++ ejecutada a) (f || sinOperando srv s a) b e.state := by
  cases hr <;> cases hs <;> cases hb
  case recibirDispatch pcb l' hl =>
    simpa [ejecutada, sinOperando, faseOrden] using hd pcb (hl ▸ List.mem_cons_self)
  case borrarInterrupcion pcb =>
    simpa [ejecutada, sinOperando, faseOrden] using hF rfl
  case ejecutarPcb pcb =>
    simpa [ejecutada, sinOperando, faseOrden] using hF rfl
  case fetch pcb i hi =>
    obtain ⟨h1, h2⟩ : pcb.EnOrden id l h f ∧ _ := hF rfl
    refine ⟨⟨h1.propio, h1.programa, ?_, ?_, ?_⟩, h2⟩
    · rw [← h1.programa]
      simpa using hi
    · simpa [ejecutada] using h1.alDia
    · simpa [sinOperando] using h1.operandos
  case faseOperands pcb i valor m t hop =>
    obtain ⟨h1, h2⟩ : pcb.Leyo id l h f i ∧ _ := hF rfl
    refine ⟨⟨h1.propio, h1.programa, h1.fetched, ?_, ?_⟩, h2⟩
    · simpa [ejecutada] using h1.alDia
    · simpa [sinOperando, hop] using h1.operandos
  case sinOperando pcb i m t hop =>
    -- the PCB goes back with no condition
    obtain ⟨h1, h2⟩ : pcb.Leyo id l h f i ∧ pcb.cpuDispatchCond = .nullCondition := hF rfl
    exact ⟨h1.propio, h1.programa, fun hp => absurd (h2 ▸ hp) not_prosigue_null⟩
  case execute pcb i valor pcb' enviar m t hex =>
    obtain ⟨h1, h2⟩ : pcb.Leyo id l h f i ∧ pcb.cpuDispatchCond = .nullCondition := hF rfl
    obtain ⟨h3, h4, h0⟩ := execute_pcb hex
    have h5 : pcb'.EnOrden id l (h ++ ejecutada (.execute pcb i valor))
      (f || sinOperando srv s (.execute pcb i valor)) := by
      simpa [ejecutada, sinOperando] using h1.ejecuta h3 h4 h0
    have h6 : (s.enviarPcbOExit || enviar) = false → pcb'.cpuDispatchCond = .nullCondition := fun he =>
      execute_nullCondition h2 hex (Bool.or_eq_false_iff.mp he).2
    unfold tras
    split
    · exact ⟨h5, fun he _ => h6 he⟩
    · exact ⟨h5, h6⟩
  case interrumpida pcb hi =>
    obtain ⟨h1, -⟩ : pcb.EnOrden id l h f ∧ _ := hF rfl
    refine ⟨⟨h1.propio, h1.programa, ?_, ?_⟩, fun _ hh => ?_⟩
    · simpa [ejecutada] using h1.alDia
    · simpa [sinOperando] using h1.operandos
    · change s.hayInterrupcion = false at hh
      rw [hi.1] at hh
      cases hh
  case noInterrumpida pcb hi =>
    obtain ⟨h1, h2⟩ : pcb.EnOrden id l h f ∧ _ := hF rfl
    refine ⟨?_, fun he _ => h2 he⟩
    simpa [ejecutada, sinOperando] using h1
  case termina pcb hi =>
    obtain ⟨h1, -⟩ : pcb.EnOrden id l h f ∧ _ := hF rfl
    simpa [ejecutada, sinOperando, faseOrden] using h1.regresa
  case sigue pcb hi =>
    obtain ⟨h1, h2⟩ : pcb.EnOrden id l h f ∧ _ := hF rfl
    refine ⟨?_, h2 hi.1 hi.2⟩
    simpa [ejecutada, sinOperando] using h1
  case finEjecucion pcb =>
    obtain ⟨h0, h1, h2⟩ : pcb.Regresa id l h f := hF rfl
    refine ⟨h0, h1, ?_⟩
    simpa [ejecutada, sinOperando] using h2
  all_goals trivial

/-- After a step of the thread that has the PCB no other one has it. -/
theorem fases_own (hr : Reach (act srv) ok (start m t) c) (hk : c.threads[x.1]? = some [a]) (ha : pesoPcb a = 1)
    (hb : [b] ∈ c.threads.set x.1 (e.rest [])) (hw : pesoPcb b = 1) : e.rest [] = [b] := by
  have hn : ∀ k ∈ c.threads, 0 ≤ load pesoPcb k :=
    fun k _ => (grounded_of_nonneg pesoPcb_nonneg k).nonneg
  have h1 := reach_unPcb hr
  have hb' : [b] ∈ c.threads.set x.1 (e.rest []) ++ [] := by rwa [List.append_nil]
  rcases mem_threads (e := { e with spawn := [] }) hb' with ⟨j, hj, hjb⟩ | hb' | hb'
  · have h2 := add_le_total hn hjb hk hj
    simp only [load_cons, load_nil, ha, hw] at h2
    omega
  · exact hb'.symm
  · cases hb'

theorem rest_solo (h1 : e.rest [] = [b]) : e.stop = false ∧ e.next = [b] := by
  unfold Effect.rest at h1
  split at h1
  · cases h1
  · rename_i hs
    rw [List.append_nil] at h1
    exact ⟨by simpa using hs, h1⟩

/-- What is on the sockets after a step. -/
theorem sockets_orden (hE : EnCpu id l h f c) (hk : [a] ∈ c.threads) (hc : ∀ p, o = .pcb p → a ≠ .cpuDispatchPcb)
    (hr : Rama srv a o c.state e) :
    (∀ p ∈ e.state.dispatch, p.EnOrden id l h f ∧ p.cpuDispatchCond = .nullCondition) ∧
      ∀ p ∈ e.state.respuestas, p.Regresa id l h f := by
  obtain ⟨h1, h2, h3⟩ := hE
  cases hr
  case recibirDispatch pcb l' hl => exact ⟨fun p hp => h1 p (hl ▸ List.mem_cons_of_mem _ hp), h2⟩
  case enviarPcb pcb =>
    refine ⟨h1, fun p hp => ?_⟩
    rcases List.mem_append.mp hp with hp | hp
    · exact h2 p hp
    · exact List.mem_singleton.mp hp ▸ h3 _ hk rfl
  case cpuDispatchPcb p => exact absurd rfl (hc p rfl)
  case recibirPcb p l' hl => exact ⟨h1, fun q hq => h2 q (hl ▸ List.mem_cons_of_mem _ hq)⟩
  all_goals exact ⟨h1, h2⟩

/-- The interrupt handler only sets the flag. -/
theorem faseOrden_interrupt (ha : a = .recibirInterrupt ∨ a = .cpuInterrupt) (hr : Rama srv a o s e)
    (hF : faseOrden id l h f b s) : faseOrden id l h f b e.state := by
  have h1 : e.state.enviarPcbOExit = s.enviarPcbOExit ∧
      (e.state.hayInterrupcion = false → s.hayInterrupcion = false) := by
    cases hr <;> simp at ha <;> simp
  cases b
  case checkInterrupt p => exact ⟨hF.1, fun he hh => hF.2 (h1.1 ▸ he) (h1.2 hh)⟩
  case testInterrupcion p => exact ⟨hF.1, fun he => hF.2 (h1.1 ▸ he)⟩
  all_goals exact hF

/-- The steps that execute and read operands leave the sockets. -/
theorem sockets_ejecuta (ha : ¬ (ejecutada a = [] ∧ sinOperando srv s a = false)) (hr : Rama srv a o s e) :
    pesoPcb a = 1 ∧ e.state.dispatch = s.dispatch ∧ e.state.respuestas = s.respuestas := by
  cases hr <;> first
    | exact ⟨rfl, rfl, rfl⟩
    | exact absurd ⟨rfl, rfl⟩ ha

/-- **One step.** The CPU executes the next instruction of the process, or none. -/
theorem enCpu_step (hr : Reach (act srv) ok (start m t) c) (hx : step (act srv) c x = some c')
    (hk : c.threads[x.1]? = some [a]) (ha : a ≠ .cpuDispatchPcb) (hE : EnCpu id l h f c) :
    EnCpu id l (h ++ ejecutada a) (f || sinOperando srv c.state a) c' := by
  obtain ⟨a', e, hk', he, hc'⟩ := step_solo hr hx
  obtain rfl : a = a' := by
    rw [hk] at hk'
    cases hk'
    rfl
  have hb := act_rama he
  have hm := List.mem_of_getElem? hk
  by_cases hn : ejecutada a = [] ∧ sinOperando srv c.state a = false
  · -- nothing is executed
    have hrun : ∀ b, e.stop = false → e.next = [b] → faseOrden id l h f b e.state := fun b hs hb' => by
      have h1 := faseOrden_rama hE.dispatch (hE.fases a hm) hb hs hb'
      rwa [hn.1, hn.2, List.append_nil, Bool.or_false] at h1
    obtain ⟨h1, h2⟩ := fases_step hr hx hE.fases
      (G := fun s => (∀ p ∈ s.dispatch, p.EnOrden id l h f ∧ p.cpuDispatchCond = .nullCondition) ∧
        ∀ p ∈ s.respuestas, p.Regresa id l h f)
      (fun a' e' hk' _ he' => by
        rw [hk] at hk'
        cases hk'
        rw [he] at he'
        cases he'
        exact ⟨sockets_orden hE hm (fun _ _ => ha) hb, fun b hs hb' _ => hrun b hs hb'⟩)
      fun a' e' b _ ha' _ he' hF => faseOrden_interrupt ha' (act_rama he') hF
    rw [hn.1, hn.2, List.append_nil, Bool.or_false]
    exact ⟨h1.1, h1.2, h2⟩
  · obtain ⟨hw, h1, h2⟩ := sockets_ejecuta hn hb
    obtain ⟨h3, h4⟩ := sockets_vacios hr hm hw
    rw [hc']
    refine ⟨?_, ?_, fun b hb' hwb => ?_⟩
    · show ∀ p ∈ e.state.dispatch, _
      rw [h1, h3]
      simp
    · show ∀ p ∈ e.state.respuestas, _
      rw [h2, h4]
      simp
    · have h5 := fases_own hr hk hw hb' hwb
      obtain ⟨hs, h6⟩ := rest_solo h5
      exact faseOrden_rama hE.dispatch (hE.fases a hm) hb hs h6

/-- What a step executes is the next instruction, of a process whose operands were all
read. -/
theorem enCpu_ejecuta (hE : EnCpu id l h f c) (hk : [a] ∈ c.threads) (hl : h <+: l) :
    h ++ ejecutada a <+: l ∧ (ejecutada a ≠ [] → f = false) := by
  cases a
  case execute p i v =>
    obtain ⟨h1, -⟩ : p.Leyo id l h f i ∧ _ := hE.fases _ hk rfl
    exact ⟨(h1.alDia.succ h1.fetched).prefijo, fun _ => h1.operandos⟩
  all_goals exact ⟨by rwa [show ejecutada _ = [] from rfl, List.append_nil], fun hn => absurd rfl hn⟩

/-- The dispatched PCB is the only one at the CPU. -/
theorem enCpu_dispatch {p : Pcb} (hr : Reach (act srv) ok (start m t) c) (hx : step (act srv) c x = some c')
    (hk : c.threads[x.1]? = some [.cpuDispatchPcb]) (ho : x.2 = .pcb p) (hp : p.EnOrden id l h f)
    (hc : p.cpuDispatchCond = .nullCondition) : EnCpu id l h f c' := by
  obtain ⟨a, e, hk', he, rfl⟩ := step_solo hr hx
  rw [hk] at hk'
  cases hk'
  obtain ⟨h1, h2⟩ := sockets_vacios hr (List.mem_of_getElem? hk) rfl
  rw [ho] at he
  cases act_rama he
  refine ⟨fun q hq => ?_, fun q hq => ?_, fun b hb hw => ?_⟩
  · simp only [h1, List.nil_append, List.mem_singleton] at hq
    subst hq
    exact ⟨hp, hc⟩
  · change q ∈ c.state.respuestas at hq
    rw [h2] at hq
    cases hq
  · have h3 := fases_own hr hk rfl hb hw
    simp only [Effect.rest, Bool.false_eq_true, ite_false, List.append_nil, List.cons.injEq, and_true] at h3
    subst h3
    cases hw

end Step

end Cpu
end Kiss
