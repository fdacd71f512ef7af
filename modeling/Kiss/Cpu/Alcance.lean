/-
# The reach of the program counter

The cycle has no bound of its own: it ends through `EXIT`, `I_O`, an interrupt or an
operand that is not read, and the kernel dispatches a process that came back for one of
the middle two where it was left (`Sistema`). So a process fetches the instructions in
order up to the first `EXIT`, and past the end of a program that has none (`fetch_iff`).

Key definitions: `Sistema`, `SinExit`, `faseExit`, `EnRango`.
Key theorems: `sistema_sinExit`, `sistema_agota`, `fetch_iff`.
-/
import Kiss.Consola.Parser
import Kiss.Cpu.Condicion
import Kiss.Kernel.Redispatch

namespace Kiss
namespace Cpu

open Threads

/-! ### Dispatch after dispatch -/

section Tabla

variable {σ : Type*}

/-- Where the kernel goes on with each process, after it receives a PCB: nowhere, unless
the process was interrupted or asked for I/O. -/
def tabla (c : Config (CpuGlobal σ) Action) (x : ℕ × Outcome) (f : ℤ → Option ℤ) : ℤ → Option ℤ :=
  if c.threads[x.1]? = some [.recibirPcb] then
    match c.state.respuestas with
    | [] => f
    | q :: _ => Function.update f q.id
      (if q.cpuDispatchCond = .ioSyscall ∨ q.cpuDispatchCond = .interruptedByKernel then
        some q.programCounter else none)
  else f

/-- The PCB is the one of a process the kernel goes on with. -/
structure Despachable (progs : ℤ → List Instruction) (f : ℤ → Option ℤ) (p : Pcb) : Prop where
  programa : p.instructions = progs p.id
  contador : f p.id = some p.programCounter

/-- The runs of the processes with the programs `progs`, and where the kernel goes on with
each. -/
inductive Sistema (srv : Servidor σ) (progs : ℤ → List Instruction) (m : Mmu) (t : σ) :
    Config (CpuGlobal σ) Action → (ℤ → Option ℤ) → Prop
  | start : Sistema srv progs m t (start m t) fun _ => some 0
  | step {c c' : Config (CpuGlobal σ) Action} {f : ℤ → Option ℤ} (x : ℕ × Outcome) :
    Sistema srv progs m t c f →
    (∀ p, c.threads[x.1]? = some [.cpuDispatchPcb] → x.2 = .pcb p → Despachable progs f p) →
    step (act srv) c x = some c' → Sistema srv progs m t c' (tabla c x f)

variable {srv : Servidor σ} {progs : ℤ → List Instruction} {m : Mmu} {t : σ}
  {c c' : Config (CpuGlobal σ) Action} {f : ℤ → Option ℤ} {x : ℕ × Outcome} {a b : Action}
  {e : Effect (CpuGlobal σ) Action}

theorem Sistema.reach (h : Sistema srv progs m t c f) :
    Reach (act srv) (fun _ _ => True) (Cpu.start m t) c := by
  induction h with
  | start => exact .start
  | step x _ _ hx ih => exact .step x ih trivial hx

/-! ### A program that has `EXIT` -/

/-- The first `n` instructions are none `EXIT`. -/
def SinExit (l : List Instruction) (n : ℤ) : Prop := 0 ≤ n ∧ ∀ i ∈ l.take n.toNat, i.codigo ≠ .exit

theorem SinExit.succ {l : List Instruction} {n : ℤ} {i : Instruction} (h : SinExit l n)
    (hi : listGet l n = some i) (hne : i.codigo ≠ .exit) : SinExit l (n + 1) := by
  obtain ⟨h0, -, h1⟩ := listGet_some hi
  refine ⟨by omega, fun j hj => ?_⟩
  rw [show (n + 1).toNat = n.toNat + 1 by omega, List.take_add_one, h1] at hj
  rcases List.mem_append.mp hj with hj | hj
  · exact h.2 j hj
  · rw [List.mem_singleton.mp hj]
    exact hne

/-- The counter is before the first `EXIT`. -/
theorem SinExit.lt {l : List Instruction} {n : ℤ} (h : SinExit l n) (he : ∃ i ∈ l, i.codigo = .exit) :
    n < l.length := by
  by_contra hn
  obtain ⟨i, hi, hc⟩ := he
  refine h.2 i ?_ hc
  rwa [List.take_of_length_le (by omega)]

/-- The PCB of a process that has executed no `EXIT`. -/
structure Pcb.Sigue (progs : ℤ → List Instruction) (p : Pcb) : Prop where
  programa : p.instructions = progs p.id
  sinExit : SinExit p.instructions p.programCounter

/-- The PCB of a process that executes instruction `i`. -/
structure Pcb.Ejecuta (progs : ℤ → List Instruction) (p : Pcb) (i : Instruction) : Prop where
  programa : p.instructions = progs p.id
  fetched : listGet p.instructions (p.programCounter - 1) = some i
  sinExit : SinExit p.instructions (p.programCounter - 1)

/-- The PCB of a process that has executed no `EXIT`, or comes back for one. -/
structure Pcb.Vuelve (progs : ℤ → List Instruction) (p : Pcb) : Prop where
  programa : p.instructions = progs p.id
  sinExit : SinExit p.instructions p.programCounter ∨ p.cpuDispatchCond = .exitProgram

/-- What is known of the PCB at each step of the handler. -/
def faseExit (progs : ℤ → List Instruction) : Action → CpuGlobal σ → Prop
  | .borrarInterrupcion p, _ | .ejecutarPcb p, _ => p.Sigue progs
  | .fetch p, s => p.Sigue progs ∧ s.enviarPcbOExit = false
  | .faseOperands p i, s | .execute p i _, s => p.Ejecuta progs i ∧ s.enviarPcbOExit = false
  | .testInterrupcion p, s | .checkInterrupt p, s => p.Vuelve progs ∧
      (s.enviarPcbOExit = false → SinExit p.instructions p.programCounter)
  | .finEjecucion p, _ | .enviarPcb p, _ => p.Vuelve progs
  | _, _ => True

theorem Pcb.Ejecuta.succ {p : Pcb} {i : Instruction} (h : p.Ejecuta progs i) (hi : i.codigo ≠ .exit) :
    SinExit p.instructions p.programCounter := by
  have := h.sinExit.succ h.fetched hi
  rwa [Int.sub_add_cancel] at this

/-- Only the operand phase of `COPY` gives no operand. -/
theorem sinOperando_copy {m' : Mmu} {s s' : σ} {p : Pcb} {i : Instruction}
    (h : faseOperands srv m s p i = some (none, m', s')) : i.codigo = .copy := by
  unfold faseOperands at h
  split at h
  · assumption
  · cases h

/-- `EXIT` is the only instruction after which the process does not go on. -/
theorem execute_vuelve {m' : Mmu} {s s' : σ} {p q : Pcb} {i : Instruction} {v : ℤ} {enviar : Bool}
    (hp : p.Ejecuta progs i) (h : execute srv m s p i v = some (q, enviar, m', s')) :
    q.Vuelve progs ∧ (enviar = false → SinExit q.instructions q.programCounter) := by
  obtain ⟨h1, h2, h3⟩ := execute_pcb h
  have hprog : q.instructions = progs q.id := by rw [h1, h3, hp.programa]
  by_cases hi : i.codigo = .exit
  · simp only [execute, hi, Option.some.injEq, Prod.mk.injEq] at h
    obtain ⟨rfl, rfl, -⟩ := h
    exact ⟨⟨hprog, Or.inr rfl⟩, fun h => by cases h⟩
  · have h4 : SinExit q.instructions q.programCounter := by
      rw [h1, h2]
      exact hp.succ hi
    exact ⟨⟨hprog, Or.inl h4⟩, fun _ => h4⟩

theorem faseExit_rama {o : Outcome} {s : CpuGlobal σ} (hG : ∀ p ∈ s.dispatch, p.Sigue progs)
    (hF : pesoPcb a = 1 → faseExit progs a s) (h : Rama srv a o s e) (hb : e.next = [b]) :
    faseExit progs b e.state := by
  cases h <;> cases hb
  case recibirDispatch pcb l h => exact hG pcb (h ▸ List.mem_cons_self)
  case borrarInterrupcion => exact hF rfl
  case ejecutarPcb => exact ⟨hF rfl, rfl⟩
  case fetch pcb i h =>
    obtain ⟨h1, h2⟩ : pcb.Sigue progs ∧ s.enviarPcbOExit = false := hF rfl
    refine ⟨⟨h1.programa, ?_, ?_⟩, h2⟩
    · simpa using h
    · simpa using h1.sinExit
  case faseOperands => exact hF rfl
  case sinOperando pcb i m t h =>
    obtain ⟨h1, -⟩ : pcb.Ejecuta progs i ∧ _ := hF rfl
    exact ⟨h1.programa, Or.inl (h1.succ (by simp [sinOperando_copy h]))⟩
  case execute pcb i valor pcb' enviar m t h =>
    obtain ⟨h1, h2⟩ : pcb.Ejecuta progs i ∧ s.enviarPcbOExit = false := hF rfl
    obtain ⟨h3, h4⟩ := execute_vuelve h1 h
    have h5 : (s.enviarPcbOExit || enviar) = false → SinExit pcb'.instructions pcb'.programCounter :=
      fun he => h4 ((Bool.or_eq_false_iff ..).mp he).2
    unfold tras
    split <;> exact ⟨h3, h5⟩
  case interrumpida pcb h =>
    obtain ⟨h1, h2⟩ : pcb.Vuelve progs ∧ (_ → _) := hF rfl
    exact ⟨⟨h1.programa, Or.inl (h2 h.2)⟩, h2⟩
  case noInterrumpida => exact hF rfl
  case termina pcb h =>
    obtain ⟨h1, -⟩ : pcb.Vuelve progs ∧ (_ → _) := hF rfl
    exact h1
  case sigue pcb h =>
    obtain ⟨h1, h2⟩ : pcb.Vuelve progs ∧ (_ → _) := hF rfl
    exact ⟨⟨h1.programa, h2 h.1⟩, h.1⟩
  case finEjecucion pcb =>
    obtain ⟨h1, h2⟩ : pcb.Vuelve progs := hF rfl
    exact ⟨h1, h2⟩
  all_goals trivial

/-- What is known of the PCBs on the sockets. -/
def SocketsExit (progs : ℤ → List Instruction) (s : CpuGlobal σ) : Prop :=
  (∀ p ∈ s.dispatch, p.Sigue progs) ∧ ∀ p ∈ s.respuestas, p.Vuelve progs

theorem socketsExit_rama {o : Outcome} {s : CpuGlobal σ} (hG : SocketsExit progs s)
    (hF : pesoPcb a = 1 → faseExit progs a s) (hd : ∀ p, a = .cpuDispatchPcb → o = .pcb p → p.Sigue progs)
    (h : Rama srv a o s e) : SocketsExit progs e.state := by
  cases h
  case recibirDispatch pcb l h => exact ⟨fun p hp => hG.1 p (h ▸ List.mem_cons_of_mem _ hp), hG.2⟩
  case enviarPcb pcb =>
    refine ⟨hG.1, fun p hp => ?_⟩
    rcases List.mem_append.mp hp with hp | hp
    · exact hG.2 p hp
    · exact List.mem_singleton.mp hp ▸ hF rfl
  case cpuDispatchPcb p =>
    refine ⟨fun q hq => ?_, hG.2⟩
    rcases List.mem_append.mp hq with hq | hq
    · exact hG.1 q hq
    · exact List.mem_singleton.mp hq ▸ hd p rfl rfl
  case recibirPcb p l h => exact ⟨hG.1, fun q hq => hG.2 q (h ▸ List.mem_cons_of_mem _ hq)⟩
  all_goals exact hG

/-- The kernel goes on where the process has executed no `EXIT`. -/
theorem tabla_sinExit (hf : ∀ id n, f id = some n → SinExit (progs id) n)
    (hG : ∀ p ∈ c.state.respuestas, p.Vuelve progs) (id n : ℤ) (h : tabla c x f id = some n) :
    SinExit (progs id) n := by
  by_cases hk : c.threads[x.1]? = some [.recibirPcb]
  · rcases hq : c.state.respuestas with _ | ⟨q, l⟩
    · simp only [tabla, if_pos hk, hq] at h
      exact hf id n h
    · have h1 := hG q (hq ▸ List.mem_cons_self)
      simp only [tabla, if_pos hk, hq, Function.update_apply] at h
      split_ifs at h with hid hcond
      · cases h
        rw [hid, ← h1.programa]
        refine h1.sinExit.resolve_right fun hexit => ?_
        rcases hcond with hcond | hcond <;>
        · rw [hexit] at hcond
          cases hcond
      · exact hf id n h
  · rw [tabla, if_neg hk] at h
    exact hf id n h

/-- What every process has executed. -/
theorem sistema_sinExit (h : Sistema srv progs m t c f) :
    (∀ id n, f id = some n → SinExit (progs id) n) ∧ SocketsExit progs c.state ∧
      ∀ b, [b] ∈ c.threads → pesoPcb b = 1 → faseExit progs b c.state := by
  induction h with
  | start =>
    refine ⟨fun id n h => ?_, ⟨by simp [Cpu.start], by simp [Cpu.start]⟩, fun b hb hw => ?_⟩
    · cases h
      exact ⟨le_refl _, by simp⟩
    · simp only [Cpu.start, List.mem_cons, List.cons.injEq, and_true, List.not_mem_nil, or_false] at hb
      rcases hb with rfl | rfl | rfl | rfl <;> trivial
  | @step c c' f x hs hd hx ih =>
    obtain ⟨h1, h2, h3⟩ := ih
    have h4 : ∀ p, c.threads[x.1]? = some [.cpuDispatchPcb] → x.2 = .pcb p → p.Sigue progs := fun p hk ho => by
      obtain ⟨h5, h6⟩ := hd p hk ho
      exact ⟨h5, h5 ▸ h1 _ _ h6⟩
    refine ⟨tabla_sinExit h1 h2.2, fases_step hs.reach hx h3 (fun a e hk ha he => ?_) ?_⟩
    · have hb := act_rama he
      exact ⟨socketsExit_rama h2 ha (fun p hp ho => h4 p (hp ▸ hk) ho) hb,
        fun b _ hb' _ => faseExit_rama h2.1 ha hb hb'⟩
    · intro a e b _ ha _ he hF
      have hb := act_rama he
      have h5 : e.state.enviarPcbOExit = c.state.enviarPcbOExit := by
        generalize x.2 = o at hb
        cases hb <;> first
          | rfl
          | simp at ha
      cases b
      case fetch | faseOperands | execute => exact ⟨hF.1, h5.trans hF.2⟩
      case testInterrupcion | checkInterrupt => exact ⟨hF.1, fun he => hF.2 (h5.symm.trans he)⟩
      all_goals exact hF

/-- A process whose program has an `EXIT` fetches instructions of it. -/
theorem sistema_enRango (h : Sistema srv progs m t c f) {p : Pcb} (hk : [.fetch p] ∈ c.threads)
    (he : ∃ i ∈ p.instructions, i.codigo = .exit) :
    0 ≤ p.programCounter ∧ p.programCounter < p.instructions.length := by
  obtain ⟨h1, -⟩ : p.Sigue progs ∧ _ := (sistema_sinExit h).2.2 _ hk rfl
  exact ⟨h1.sinExit.1, h1.sinExit.lt he⟩

end Tabla

/-! ### A program that has none -/

/-- A memory module that has every page in memory, full of zeros. -/
def memoriaPresente : Servidor Unit := fun msg _ => (some (match msg with
  | .buscarTablaDePaginas _ => .numero .buscarTablaDePaginas 0
  | .buscarMarco _ => .numero .buscarMarco 0
  | .leerMarco _ => .numero .leerMarco 0
  | .escribirMarco _ => .signal .operationSuccess), ())

theorem presente_acierto (m : Mmu) (s : Unit) (p : Pcb) (d : ℤ) :
    (direccionFisica memoriaPresente m s p d).1.acierto = true := by
  have h1 : ∀ d', getSegundoNivel memoriaPresente d' s = (0, ()) := fun d' => rfl
  have h2 : ∀ d', getFrame memoriaPresente d' () = (0, ()) := fun d' => rfl
  simp only [direccionFisica, h1, h2, lt_irrefl, ite_false, le_refl, ite_true]
  split_ifs <;> rfl

/-- It gives every operand. -/
theorem presente_operando (m : Mmu) (s : Unit) (p : Pcb) {i : Instruction} (h : i.Valida) :
    ∃ v m' s', faseOperands memoriaPresente m s p i = some (some v, m', s') := by
  obtain ⟨r, hr⟩ : ∃ r, faseOperands memoriaPresente m s p i = some r := faseOperands_some m s p h
  rw [hr]
  unfold faseOperands at hr
  split at hr
  · obtain ⟨d, -, rfl⟩ := Option.map_eq_some_iff.mp hr
    refine ⟨0, (direccionFisica memoriaPresente m s p d).2.1, (), ?_⟩
    simp only [presente_acierto, ite_true]
    rfl
  · cases hr
    exact ⟨_, _, _, rfl⟩

section Corrida

variable {l : List Instruction} {m : Mmu} {f : ℤ → Option ℤ} {a b k : Action} {o : Outcome}
  {s s' : CpuGlobal Unit} {n : ℕ}

/-- The dispatch handler is at `a` and the kernel at `k`. -/
def hilos (a k : Action) (s : CpuGlobal Unit) : Config (CpuGlobal Unit) Action :=
  ⟨s, [[a], [.recibirInterrupt], [k], [.cpuInterrupt]]⟩

/-- The runs of processes that all have the program `l`. -/
abbrev Corre (l : List Instruction) (m : Mmu) := Sistema memoriaPresente (fun _ => l) m ()

/-- Nothing is on its way. -/
def Quieto (s : CpuGlobal Unit) : Prop :=
  s.hayInterrupcion = false ∧ s.enviarPcbOExit = false ∧ s.dispatch = [] ∧ s.respuestas = []

/-- A step of the dispatch handler. -/
theorem avanza (b : Action) (o : Outcome) (s' : CpuGlobal Unit) (h : Corre l m (hilos a k s) f)
    (h1 : a ≠ .recibirPcb) (h2 : a ≠ .cpuDispatchPcb)
    (ha : act memoriaPresente a o s = some { state := s', next := [b] }) : Corre l m (hilos b k s') f := by
  have hx : step (act memoriaPresente) (hilos a k s) (0, o) = some (hilos b k s') := by
    simp [step, hilos, ha, Effect.rest]
  have h3 := Sistema.step (0, o) h (fun p hk => absurd hk (by simpa [hilos] using h2)) hx
  rwa [tabla, if_neg (by simpa [hilos] using h1)] at h3

/-- The kernel dispatches process 0, which fetches where it was left. -/
theorem despacha (h : Corre l m (hilos .recibirDispatch .cpuDispatchPcb s) f) (hd : s.dispatch = [])
    (hr : s.respuestas = []) (hf : f 0 = some (n : ℤ)) :
    ∃ s' p, Corre l m (hilos (.fetch p) .recibirPcb s') f ∧ Quieto s' ∧ p.id = 0 ∧
      p.programCounter = n ∧ p.instructions = l := by
  let p : Pcb := ⟨0, n, 0, .nullCondition, 0, 0, 0, l⟩
  have hx : step (act memoriaPresente) (hilos .recibirDispatch .cpuDispatchPcb s) (2, .pcb p) =
      some (hilos .recibirDispatch .recibirPcb { s with
        dispatch := [p]
        despachos := s.despachos + 1
        pendiente := true
        pedida := false
        ejecutadas := 0
        pasos := 0 }) := by
    simp [step, hilos, act, andThen, Effect.rest, hd]
  have h1 := Sistema.step (2, .pcb p) h (fun q _ hq => by cases hq; exact ⟨rfl, hf⟩) hx
  rw [tabla, if_neg (by simp [hilos])] at h1
  have h2 := avanza (.borrarInterrupcion p) .ok _ h1 (by simp) (by simp) rfl
  have h3 := avanza (.ejecutarPcb p) .ok _ h2 (by simp) (by simp) rfl
  have h4 := avanza (.fetch p) .ok _ h3 (by simp) (by simp) rfl
  exact ⟨_, p, h4, ⟨rfl, rfl, rfl, hr⟩, rfl, rfl, rfl⟩

theorem act_execute {p q : Pcb} {i : Instruction} {v : ℤ} {enviar : Bool} {m' : Mmu} {t' : Unit}
    (h : execute memoriaPresente s.mmu s.memoria p i v = some (q, enviar, m', t')) :
    act memoriaPresente (.execute p i v) o s = some { state := { s.paso with
      mmu := m'
      memoria := t'
      enviarPcbOExit := s.enviarPcbOExit || enviar
      ejecutadas := if s.pedida then s.ejecutadas + 1 else s.ejecutadas }, next := [tras i q] } := by
  simp only [act, h, andThen, tras]
  cases i.codigo <;> rfl

/-- What the two instructions that do not end a process leave. -/
theorem execute_sin_exit {p q : Pcb} {i : Instruction} {v : ℤ} {enviar : Bool} {m' : Mmu} {t t' : Unit}
    (h : execute memoriaPresente m t p i v = some (q, enviar, m', t')) (he : i.codigo ≠ .exit)
    (hs : enviar = true) : q.cpuDispatchCond = .ioSyscall := by
  subst hs
  unfold execute at h
  split at h
  case h_2 =>
    obtain ⟨n, -, h⟩ := Option.map_eq_some_iff.mp h
    cases h
    rfl
  case h_4 =>
    obtain ⟨d, -, h⟩ := Option.bind_eq_some_iff.mp h
    obtain ⟨n, -, h⟩ := Option.map_eq_some_iff.mp h
    cases h
  case h_6 => exact absurd ‹_› he
  case h_1 | h_7 => cases h
  all_goals
    obtain ⟨n, -, h⟩ := Option.map_eq_some_iff.mp h
    cases h

/-- An instruction that is not `EXIT` is executed. -/
theorem ejecuta {p : Pcb} {i : Instruction} (h : Corre l m (hilos (.fetch p) .recibirPcb s) f)
    (hs : Quieto s) (hid : p.id = 0) (hp : p.programCounter = n) (hl : p.instructions = l)
    (hi : listGet l n = some i) (hv : i.Valida) (he : i.codigo ≠ .exit) :
    ∃ s' q, Corre l m (hilos (.checkInterrupt q) .recibirPcb s') f ∧ s'.hayInterrupcion = false ∧
      s'.dispatch = [] ∧ s'.respuestas = [] ∧ q.id = 0 ∧ q.programCounter = (n + 1 : ℕ) ∧
      q.instructions = l ∧ (s'.enviarPcbOExit = true → q.cpuDispatchCond = .ioSyscall) := by
  obtain ⟨hs1, hs2, hs3, hs4⟩ := hs
  have h1 := avanza (.faseOperands { p with programCounter := p.programCounter + 1 } i) .ok s.paso h
    (by simp) (by simp) (by simp [act, hl, hp, hi, andThen])
  obtain ⟨v, m1, t1, hop⟩ := presente_operando s.paso.mmu s.paso.memoria
    { p with programCounter := p.programCounter + 1 } hv
  have h2 := avanza (.execute { p with programCounter := p.programCounter + 1 } i v) .ok
    { s.paso.paso with mmu := m1, memoria := t1 } h1 (by simp) (by simp) (by simp [act, hop, andThen])
  obtain ⟨q, enviar, m2, t2, hex⟩ : ∃ q enviar m2 t2, execute memoriaPresente m1 t1
      { p with programCounter := p.programCounter + 1 } i v = some (q, enviar, m2, t2) :=
    execute_some _ _ _ hv v
  obtain ⟨h3, h4, h5⟩ := execute_pcb hex
  have htras : tras i q = .testInterrupcion q := by
    unfold tras
    split
    · rename_i hc
      simp [Instruction.Valida, hc] at hv
    · rfl
  have hx := act_execute (o := .ok) (s := { s.paso.paso with mmu := m1, memoria := t1 }) hex
  rw [htras] at hx
  have h6 := avanza (.testInterrupcion q) .ok _ h2 (by simp) (by simp) hx
  have h7 := avanza (.checkInterrupt q) .ok _ h6 (by simp) (by simp)
    (by simp [act, CpuGlobal.paso, hs1, andThen]; rfl)
  refine ⟨_, q, h7, rfl, hs3, hs4, h5.trans hid, ?_, h3.trans hl, fun henv => ?_⟩
  · rw [h4, hp]
    push_cast
    rfl
  · exact execute_sin_exit hex he (by simpa [CpuGlobal.paso, hs2] using henv)

/-- And the next one is fetched, after the I/O where it was `I_O`. -/
theorem continua {q : Pcb} (h : Corre l m (hilos (.checkInterrupt q) .recibirPcb s) f)
    (hh : s.hayInterrupcion = false) (hd : s.dispatch = []) (hr : s.respuestas = []) (hid : q.id = 0)
    (hp : q.programCounter = n) (hl : q.instructions = l)
    (hio : s.enviarPcbOExit = true → q.cpuDispatchCond = .ioSyscall) :
    ∃ f' s' q, Corre l m (hilos (.fetch q) .recibirPcb s') f' ∧ Quieto s' ∧ q.id = 0 ∧
      q.programCounter = n ∧ q.instructions = l := by
  cases he : s.enviarPcbOExit with
  | false =>
    have h1 := avanza (.fetch q) .ok s.paso h (by simp) (by simp) (by simp [act, he, hh, andThen])
    exact ⟨f, _, q, h1, ⟨hh, he, hd, hr⟩, hid, hp, hl⟩
  | true =>
    have h1 := avanza (.finEjecucion q) .ok { s.paso with enviarPcbOExit := true } h (by simp) (by simp)
      (by simp [act, he, andThen])
    have h2 := avanza (.enviarPcb { q with cpuExecutedBurst := 0 }) .ok _ h1 (by simp) (by simp) rfl
    have h3 := avanza .recibirDispatch .ok _ h2 (by simp) (by simp) rfl
    have hx : ∀ s' : CpuGlobal Unit, s'.respuestas = [{ q with cpuExecutedBurst := 0 }] →
        step (act memoriaPresente) (hilos .recibirDispatch .recibirPcb s') (2, .ok) =
          some (hilos .recibirDispatch .cpuDispatchPcb { s' with respuestas := [], pendiente := false }) := by
      intro s' hs'
      simp [step, hilos, act, andThen, Effect.rest, hs']
    have h4 := Sistema.step (2, .ok) h3 (fun p hk => by simp [hilos] at hk)
      (hx _ (by simp [CpuGlobal.paso, hr]))
    obtain ⟨s', p, h5, h6⟩ := despacha (n := n) h4 (by simpa [CpuGlobal.paso] using hd) rfl
      (by simp [tabla, hilos, CpuGlobal.paso, hr, hid, hio he, hp])
    exact ⟨_, s', p, h5, h6⟩

/-- **Past the end.** A program of valid instructions without `EXIT` is executed whole. -/
theorem sistema_agota (m : Mmu) (hv : ∀ i ∈ l, i.Valida) (he : ∀ i ∈ l, i.codigo ≠ .exit) :
    ∀ n ≤ l.length, ∃ f s p, Corre l m (hilos (.fetch p) .recibirPcb s) f ∧ Quieto s ∧ p.id = 0 ∧
      p.programCounter = n ∧ p.instructions = l
  | 0, _ => by
    have h1 : Corre l m (hilos .recibirDispatch .cpuDispatchPcb (start m ()).state) fun _ => some 0 := .start
    obtain ⟨s', p, h2⟩ := despacha (n := 0) h1 rfl rfl rfl
    exact ⟨_, s', p, h2⟩
  | n + 1, hn => by
    obtain ⟨f, s, p, h1, h2, h3, h4, h5⟩ := sistema_agota m hv he n (by omega)
    have hi : listGet l (n : ℤ) = some l[n] := by
      rw [listGet, if_pos (Int.natCast_nonneg n), Int.toNat_natCast, List.getElem?_eq_getElem (by omega)]
    have hm : l[n] ∈ l := List.getElem_mem _
    obtain ⟨s', q, h6, h7, h8, h9, h10, h11, h12, h13⟩ := ejecuta h1 h2 h3 h4 h5 hi (hv _ hm) (he _ hm)
    exact continua h6 h7 h8 h9 h10 h11 h12 h13

end Corrida

/-! ### Every program -/

/-- Every fetch of a process with the program `l` is of an instruction of it, whatever the
memory, the other processes and the interrupts do. -/
def EnRango (l : List Instruction) : Prop :=
  ∀ (σ : Type) (srv : Servidor σ) progs m t c f, Sistema srv progs m t c f →
    ∀ p : Pcb, [.fetch p] ∈ c.threads → p.instructions = l →
      0 ≤ p.programCounter ∧ p.programCounter < l.length

end Cpu
end Kiss
