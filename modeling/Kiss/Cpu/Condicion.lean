/-
# Why a process comes back

`hay_interrupcion` is tested twice for each instruction: at the end of `execute`,
which writes `CPU_INTERRUPTED_BY_KERNEL`, and in `checkInterrupt`, which ends the
loop. Where the interrupt handler sets it between the two, the loop ends and the
condition was not written (`not_veraz`). In the other runs the condition of every
PCB sent back is the one of its last instruction (`reach_veraz`).

Key definitions: `Pcb.Veraz`, `EntreTests`, `Programas`, `Atento`, `fase`.
Key theorems: `reach_veraz`, `not_veraz`.
-/
import Kiss.Cpu.Despacho

namespace Kiss
namespace Cpu

open Threads

variable {σ : Type*} {srv : Servidor σ}

/-- The condition a PCB comes back with after instruction `i`. -/
def condicion (i : Instruction) : DispatchCond :=
  match i.codigo with
  | .exit => .exitProgram
  | .io => .ioSyscall
  | _ => .interruptedByKernel

/-- The condition of the PCB is the one of the last instruction it executed. -/
def Pcb.Veraz (p : Pcb) : Prop :=
  ∃ i, listGet p.instructions (p.programCounter - 1) = some i ∧ p.cpuDispatchCond = condicion i

/-- The last instruction was tested at the end of `execute`, and the process is not
to come back for it. -/
def EntreTests (c : Config (CpuGlobal σ) Action) : Prop :=
  c.state.enviarPcbOExit = false ∧ ∃ p, [.checkInterrupt p] ∈ c.threads

/-- The dispatched PCBs have a valid program and something to execute, and the
memory gives the operands. -/
structure Programas (srv : Servidor σ) (c : Config (CpuGlobal σ) Action) (x : ℕ × Outcome) : Prop where
  valido : ∀ p, c.threads[x.1]? = some [.cpuDispatchPcb] → x.2 = .pcb p → p.Valido
  operando : ∀ p i, c.threads[x.1]? = some [.faseOperands p i] →
    ∃ v m t, faseOperands srv c.state.mmu c.state.memoria p i = some (some v, m, t)

/-- The flag is not set between the two tests. -/
structure Atento (srv : Servidor σ) (c : Config (CpuGlobal σ) Action) (x : ℕ × Outcome) : Prop
    extends Programas srv c x where
  ventana : EntreTests c → ∀ c', step (act srv) c x = some c' → c'.state.hayInterrupcion = true →
    c.state.hayInterrupcion = true

/-- What is known of the PCB at each step of the handler. -/
def fase : Action → CpuGlobal σ → Prop
  | .borrarInterrupcion p, _ | .ejecutarPcb p, _ => p.Valido
  | .fetch p, s => p.Valido ∧ s.enviarPcbOExit = false
  | .faseOperands p i, s | .execute p i _, s => p.EnCurso i ∧ s.enviarPcbOExit = false
  | .testInterrupcion p, s => ∃ i, p.EnCurso i ∧
      (s.enviarPcbOExit = true → p.cpuDispatchCond = condicion i) ∧
      (s.enviarPcbOExit = false → condicion i = .interruptedByKernel)
  | .checkInterrupt p, s => ∃ i, p.EnCurso i ∧
      (s.enviarPcbOExit = true ∨ s.hayInterrupcion = true → p.cpuDispatchCond = condicion i) ∧
      (s.enviarPcbOExit = false → condicion i = .interruptedByKernel)
  | .finEjecucion p, _ | .enviarPcb p, _ => p.Veraz
  | _, _ => True

/-- What is known of the PCBs on the sockets. -/
def Sockets (s : CpuGlobal σ) : Prop := (∀ p ∈ s.dispatch, p.Valido) ∧ ∀ p ∈ s.respuestas, p.Veraz

theorem condicion_exit {i : Instruction} (h : condicion i = .interruptedByKernel) : i.codigo ≠ .exit := by
  intro hi
  simp [condicion, hi] at h

/-- `execute` marks the PCB for return exactly where it writes the condition. -/
theorem execute_condicion {m m' : Mmu} {s s' : σ} {p q : Pcb} {i : Instruction} {v : ℤ} {enviar : Bool}
    (h : execute srv m s p i v = some (q, enviar, m', s')) :
    (enviar = true → q.cpuDispatchCond = condicion i) ∧
      (enviar = false → condicion i = .interruptedByKernel) := by
  unfold execute at h
  split at h <;> rename_i hi
  case h_2 =>
    obtain ⟨n, -, h⟩ := Option.map_eq_some_iff.mp h
    cases h
    simp [condicion, hi]
  case h_6 =>
    cases h
    simp [condicion, hi]
  case h_1 | h_7 =>
    cases h
    simp [condicion, hi]
  case h_4 =>
    obtain ⟨d, -, h⟩ := Option.bind_eq_some_iff.mp h
    obtain ⟨n, -, h⟩ := Option.map_eq_some_iff.mp h
    cases h
    simp [condicion, hi]
  all_goals
    obtain ⟨n, -, h⟩ := Option.map_eq_some_iff.mp h
    cases h
    simp [condicion, hi]

section Reach

variable {ok : Config (CpuGlobal σ) Action → ℕ × Outcome → Prop} {m : Mmu} {t : σ}
  {c : Config (CpuGlobal σ) Action} {x : ℕ × Outcome} {a b : Action}
  {e : Effect (CpuGlobal σ) Action}

theorem sockets_rama (hok : Programas srv c x) (hk : c.threads[x.1]? = some [a])
    (hG : Sockets c.state) (hF : pesoPcb a = 1 → fase a c.state) (h : Rama srv a x.2 c.state e) :
    Sockets e.state := by
  have hval := hok.valido
  generalize x.2 = o at h hval
  cases h
  case recibirDispatch pcb l h =>
    exact ⟨fun p hp => hG.1 p (h ▸ List.mem_cons_of_mem _ hp), hG.2⟩
  case enviarPcb pcb =>
    refine ⟨hG.1, fun p hp => ?_⟩
    rcases List.mem_append.mp hp with hp | hp
    · exact hG.2 p hp
    · exact List.mem_singleton.mp hp ▸ hF rfl
  case cpuDispatchPcb p =>
    refine ⟨fun q hq => ?_, hG.2⟩
    rcases List.mem_append.mp hq with hq | hq
    · exact hG.1 q hq
    · exact List.mem_singleton.mp hq ▸ hval p hk rfl
  case recibirPcb p l h =>
    exact ⟨hG.1, fun q hq => hG.2 q (h ▸ List.mem_cons_of_mem _ hq)⟩
  all_goals exact hG

/-- A step of the thread that has the PCB. -/
theorem fase_rama (hok : Programas srv c x) (hk : c.threads[x.1]? = some [a]) (hG : Sockets c.state)
    (hF : pesoPcb a = 1 → fase a c.state) (h : Rama srv a x.2 c.state e) (hs : e.stop = false)
    (hb : e.next = [b]) : fase b e.state := by
  have hop := hok.operando
  generalize x.2 = o at h
  cases h <;> cases hs <;> cases hb
  case recibirDispatch pcb l h => exact hG.1 pcb (h ▸ List.mem_cons_self)
  case borrarInterrupcion => exact hF rfl
  case ejecutarPcb => exact ⟨hF rfl, rfl⟩
  case fetch pcb i h => exact ⟨(hF rfl).1.enCurso h, (hF rfl).2⟩
  case faseOperands => exact hF rfl
  case sinOperando pcb i m t h =>
    obtain ⟨v, m', t', h'⟩ := hop pcb i hk
    rw [h] at h'
    cases h'
  case execute pcb i valor pcb' enviar m t h =>
    obtain ⟨h1, h2⟩ : pcb.EnCurso i ∧ c.state.enviarPcbOExit = false := hF rfl
    obtain ⟨h3, h4, -⟩ := execute_pcb h
    obtain ⟨h5, h6⟩ := execute_condicion h
    have h7 : (c.state.enviarPcbOExit || enviar) = enviar := by rw [h2, Bool.false_or]
    have hv := h1.valida
    unfold tras
    split
    · rename_i hi
      simp [Instruction.Valida, hi] at hv
    · refine ⟨i, h1.congr h3 h4, fun he => h5 ?_, fun he => h6 ?_⟩ <;>
      · change (c.state.enviarPcbOExit || enviar) = _ at he
        rwa [h7] at he
  case interrumpida pcb h =>
    obtain ⟨i, h1, -, h3⟩ : ∃ i, _ := hF rfl
    exact ⟨i, h1.congr rfl rfl, fun _ => (h3 h.2).symm, h3⟩
  case noInterrumpida pcb h =>
    obtain ⟨i, h1, h2, h3⟩ : ∃ i, _ := hF rfl
    refine ⟨i, h1, fun he => ?_, h3⟩
    rcases h with h | h
    · rcases he with he | he
      · exact h2 he
      · change c.state.hayInterrupcion = true at he
        rw [h] at he
        cases he
    · exact h2 h
  case termina pcb h =>
    obtain ⟨i, h1, h2, -⟩ : ∃ i, _ := hF rfl
    exact ⟨i, h1.fetched, h2 h⟩
  case sigue pcb h =>
    obtain ⟨i, h1, -, h3⟩ : ∃ i, _ := hF rfl
    exact ⟨h1.valido (condicion_exit (h3 h.1)), h.1⟩
  case finEjecucion pcb =>
    obtain ⟨i, h1, h2⟩ : pcb.Veraz := hF rfl
    exact ⟨i, h1, h2⟩
  all_goals trivial

/-- The interrupt handler only sets the flag. -/
theorem fase_interrupt (hok : Atento srv c x) (hk : c.threads[x.1]? = some [a])
    (ha : a = .recibirInterrupt ∨ a = .cpuInterrupt) (hb : [b] ∈ c.threads)
    (he : act srv a x.2 c.state = some e) (h : fase b c.state) :
    fase b e.state := by
  have hx : step (act srv) c x = some ⟨e.state, c.threads.set x.1 (e.rest []) ++ e.spawn⟩ := by
    unfold step
    simp only [hk, he]
    rfl
  have hv := fun hc => hok.ventana hc _ hx
  have h1 : e.state.enviarPcbOExit = c.state.enviarPcbOExit := by
    have hb := act_rama he
    generalize x.2 = o at hb
    cases hb <;> first
      | rfl
      | simp at ha
  cases b
  case checkInterrupt p =>
    obtain ⟨i, h2, h3, h4⟩ : ∃ i, _ := h
    refine ⟨i, h2, fun hf => h3 ?_, fun hf => h4 (h1 ▸ hf)⟩
    rw [h1] at hf
    cases hs : c.state.enviarPcbOExit
    · exact Or.inr (hv ⟨hs, p, hb⟩ (by simpa [hs] using hf))
    · exact Or.inl rfl
  case fetch | faseOperands | execute => exact ⟨h.1, h1.trans h.2⟩
  case testInterrupcion p =>
    obtain ⟨i, h2, h3, h4⟩ : ∃ i, _ := h
    exact ⟨i, h2, fun hf => h3 (h1 ▸ hf), fun hf => h4 (h1 ▸ hf)⟩
  all_goals exact h

theorem reach_veraz (hok : ∀ c x, ok c x → Atento srv c x) (h : Reach (act srv) ok (start m t) c) :
    ∀ p ∈ c.state.respuestas, p.Veraz := by
  refine (reach_fases (G := Sockets) (F := fase) ?_ ?_ ?_ h).1.2
  · exact ⟨⟨by simp [start], by simp [start]⟩, trivial⟩
  · intro c x a e _ hx hk hG hF he
    have hp := (hok c x hx).toProgramas
    exact ⟨sockets_rama hp hk hG hF (act_rama he),
      fun b hs hb _ => fase_rama hp hk hG hF (act_rama he) hs hb⟩
  · exact fun c x a e b _ hx hk ha hb he _ hF => fase_interrupt (hok c x hx) hk ha hb he hF

end Reach

/-! ### Runs -/

/-- `Programas`, evaluated. -/
def checkProgramas (srv : Servidor σ) (c : Config (CpuGlobal σ) Action) (x : ℕ × Outcome) : Bool :=
  match c.threads[x.1]?, x.2 with
  | some [.cpuDispatchPcb], .pcb p => decide p.Valido
  | some [.faseOperands p i], _ => match faseOperands srv c.state.mmu c.state.memoria p i with
    | some (some _, _, _) => true
    | _ => false
  | _, _ => true

theorem programas_of_check (c : Config (CpuGlobal σ) Action) (x : ℕ × Outcome)
    (h : checkProgramas srv c x = true) : Programas srv c x := by
  refine ⟨fun p hk hx => ?_, fun p i hk => ?_⟩
  · simpa [checkProgramas, hk, hx] using h
  · simp only [checkProgramas, hk] at h
    split at h
    · exact ⟨_, _, _, ‹_›⟩
    · cases h

/-- `Atento`, evaluated. -/
def checkAtento (srv : Servidor σ) (c : Config (CpuGlobal σ) Action) (x : ℕ × Outcome) : Bool :=
  checkProgramas srv c x && (c.state.hayInterrupcion || c.state.enviarPcbOExit ||
    c.threads.all (fun k => match k with
      | [.checkInterrupt _] => false
      | _ => true) || match step (act srv) c x with
    | some c' => !c'.state.hayInterrupcion
    | none => true)

theorem atento_of_check (c : Config (CpuGlobal σ) Action) (x : ℕ × Outcome)
    (h : checkAtento srv c x = true) : Atento srv c x := by
  obtain ⟨h1, h2⟩ := (Bool.and_eq_true ..).mp h
  refine ⟨programas_of_check c x h1, fun ⟨he, p, hp⟩ c' hx hs => ?_⟩
  rw [hx, he, Bool.or_false] at h2
  rcases (Bool.or_eq_true ..).mp h2 with h2 | h2
  · rcases (Bool.or_eq_true ..).mp h2 with h2 | h2
    · exact h2
    · cases List.all_eq_true.mp h2 _ hp
  · simp [hs] at h2

/-- A memory module that does not answer. -/
def sinMemoria : Servidor Unit := fun _ s => (none, s)

def ejemploMmu : Mmu := ⟨{ cantEntradas := 1, protocolo := .fifo, pos := by decide }, ⟨4, 64, by decide⟩⟩

/-- Process 1 is to execute `NO_OP` and `EXIT`. -/
def ejemploPcb : Pcb := ⟨1, 0, 0, .nullCondition, 0, 0, 0, [⟨.noOp, []⟩, ⟨.exit, []⟩]⟩

/-- `n` steps of thread `i`. -/
def oks (n i : ℕ) : List (ℕ × Outcome) := List.replicate n (i, .ok)

/-- The interrupt arrives after `n` steps of the dispatch handler, and the process comes
back. -/
def interrumpidoRun (n : ℕ) : List (ℕ × Outcome) :=
  (2, .pcb ejemploPcb) :: oks n 0 ++ [(3, .ok), (1, .ok)] ++ oks (10 - n) 0

/-- The interrupt arrives during `NO_OP`. -/
theorem reach_veraz_interrumpidoRun : ∃ c, Reach (act sinMemoria) (Atento sinMemoria)
    (start ejemploMmu ()) c ∧
    c.state.respuestas.map (·.cpuDispatchCond) = [.interruptedByKernel] ∧
    ∀ p ∈ c.state.respuestas, p.Veraz := by
  have h1 : (run (act sinMemoria) (checkAtento sinMemoria) (start ejemploMmu ())
      (interrumpidoRun 5)).map (fun c => c.state.respuestas.map (·.cpuDispatchCond)) =
      some [.interruptedByKernel] := by
    decide +kernel
  obtain ⟨c, hc, h2⟩ := Option.map_eq_some_iff.mp h1
  have hr := reach_of_run atento_of_check Reach.start hc
  exact ⟨c, hr, h2, reach_veraz (fun _ _ h => h) hr⟩

/-- The interrupt arrives after the test at the end of `execute`. -/
theorem not_veraz : ¬ ∀ (σ : Type) (srv : Servidor σ) m t c,
    Reach (act srv) (Programas srv) (start m t) c → ∀ p ∈ c.state.respuestas, p.Veraz := by
  intro h
  have h1 : (run (act sinMemoria) (checkProgramas sinMemoria) (start ejemploMmu ())
      (interrumpidoRun 7)).map (fun c => c.state.respuestas) =
      some [{ ejemploPcb with programCounter := 1 }] := by
    decide +kernel
  obtain ⟨c, hc, h2⟩ := Option.map_eq_some_iff.mp h1
  have hr := reach_of_run programas_of_check Reach.start hc
  obtain ⟨i, hi, hcond⟩ := h _ _ _ _ c hr { ejemploPcb with programCounter := 1 } (by rw [h2]; simp)
  cases hi
  cases hcond

end Cpu
end Kiss
