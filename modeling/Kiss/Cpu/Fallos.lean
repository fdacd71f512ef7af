/-
# Failures of the memory

`READ`, `WRITE` and `COPY` translate an address and then access it, `COPY` twice. A
failure of the operand phase ends the cycle, and the PCB goes back with the condition
it was dispatched with, for which the kernel finishes the process with error
(`vuelta_step`). `execute` drops what `ci_read` and `ci_write` return, and these do not
look at `acierto`: after a failure there the access is requested all the same and the
cycle goes on (`act_falla`).

Key definitions: `enviados`, `falla`, `Terminado`, `Informa`, `Resuelta`.
Key theorems: `act_falla`, `execute_pide`, `reach_informa`, `fallos_informados`, `not_informa`.
-/
import Kiss.Cpu.Condicion
import Kiss.Kernel.Failures

namespace Kiss
namespace Cpu

open Threads

/-! ### The accesses of a step -/

/-- A request to read or to write. -/
def Mensaje.esAcceso : Mensaje → Bool
  | .leerMarco _ | .escribirMarco _ => true
  | _ => false

/-- The PCB and the address that a step translates. -/
def Action.traslada : Action → Option (Pcb × ℤ)
  | .faseOperands p i => if i.codigo = .copy then (parametro i 1).map fun d => (p, d) else none
  | .execute p i _ => match i.codigo with
    | .read | .copy => (parametro i 0).map fun d => (p, d)
    | .write => (parametro i 0).bind fun d => (parametro i 1).map fun _ => (p, d)
    | _ => none
  | _ => none

section Servidor

variable {σ : Type*} (srv : Servidor σ)

/-- The memory module with the messages sent to it. -/
def registrar : Servidor (σ × List Mensaje) := fun msg s =>
  ((srv msg s.1).1, (srv msg s.1).2, s.2 ++ [msg])

/-- What a step sends to the memory module. -/
def enviados (m : Mmu) (s : σ) : Action → List Mensaje
  | .faseOperands p i => match faseOperands (registrar srv) m (s, []) p i with
    | some (_, _, _, l) => l
    | none => []
  | .execute p i v => match execute (registrar srv) m (s, []) p i v with
    | some (_, _, _, _, l) => l
    | none => []
  | _ => []

/-- Whether the access of a step succeeds. -/
def Action.accede (s : σ) (dir : DirFisica) : Action → Bool
  | .faseOperands p _ => (getValorMemoria srv s p dir).1.isSome
  | .execute p i v => match i.codigo with
    | .read => (getValorMemoria srv s p dir).1.isSome
    | .write => (parametro i 1).all fun n => (setValorMemoria srv s p dir n).1
    | _ => (setValorMemoria srv s p dir v).1
  | _ => true

/-- The translation of the step fails. -/
def sinMarco (m : Mmu) (s : σ) (a : Action) : Bool :=
  a.traslada.any fun r => !(direccionFisica srv m s r.1 r.2).1.acierto

/-- The translation of the step fails, or its access. -/
def falla (m : Mmu) (s : σ) (a : Action) : Bool :=
  a.traslada.any fun r => match direccionFisica srv m s r.1 r.2 with
    | (dir, _, s') => !dir.acierto || !a.accede srv s' dir

/-- After a translation that fails nothing is read or written. -/
def SinPedido (m : Mmu) (s : σ) (a : Action) : Prop :=
  sinMarco srv m s a = true → ∀ msg ∈ enviados srv m s a, msg.esAcceso = false

/-! ### What is sent -/

theorem getSegundoNivel_registrar (d : Direccion) (s : σ) (l : List Mensaje) :
    getSegundoNivel (registrar srv) d (s, l) = ((getSegundoNivel srv d s).1, (getSegundoNivel srv d s).2,
      l ++ [.buscarTablaDePaginas { d with tablaSegundoNivel := u32Max }]) := by
  unfold getSegundoNivel registrar
  generalize Mensaje.buscarTablaDePaginas { d with tablaSegundoNivel := u32Max } = msg
  rcases srv msg s with ⟨_ | ⟨h, n⟩ | g, s'⟩
  · rfl
  · cases h <;> simp only
  · rfl

theorem getFrame_registrar (d : Direccion) (s : σ) (l : List Mensaje) :
    getFrame (registrar srv) d (s, l) = ((getFrame srv d s).1, (getFrame srv d s).2,
      l ++ [.buscarMarco d]) := by
  unfold getFrame registrar
  rcases srv (.buscarMarco d) s with ⟨_ | ⟨h, n⟩ | g, s'⟩
  · rfl
  · cases h <;> simp only
  · rfl

/-- A translation asks for tables and frames only. -/
theorem direccionFisica_registrar (m : Mmu) (s : σ) (l : List Mensaje) (pcb : Pcb) (d : ℤ) :
    ∃ l', direccionFisica (registrar srv) m (s, l) pcb d =
      ((direccionFisica srv m s pcb d).1, (direccionFisica srv m s pcb d).2.1,
        (direccionFisica srv m s pcb d).2.2, l ++ l') ∧ ∀ msg ∈ l', msg.esAcceso = false := by
  simp only [direccionFisica, getSegundoNivel_registrar, getFrame_registrar]
  split_ifs
  · exact ⟨[], by rw [List.append_nil], by simp⟩
  · exact ⟨[_], rfl, by simp [Mensaje.esAcceso]⟩
  · exact ⟨[_, _], by rw [List.append_assoc]; rfl, by simp [Mensaje.esAcceso]⟩
  · exact ⟨[_, _], by rw [List.append_assoc]; rfl, by simp [Mensaje.esAcceso]⟩

theorem getValorMemoria_registrar (s : σ) (l : List Mensaje) (pcb : Pcb) (dir : DirFisica) :
    ∃ msg, getValorMemoria (registrar srv) (s, l) pcb dir = ((getValorMemoria srv s pcb dir).1,
      (getValorMemoria srv s pcb dir).2, l ++ [msg]) ∧ msg.esAcceso = true := by
  refine ⟨.leerMarco ⟨toU32 pcb.id, toU32 dir.marco, toU32 dir.desplazamiento, 0⟩, ?_, rfl⟩
  unfold getValorMemoria registrar
  rcases srv (.leerMarco ⟨toU32 pcb.id, toU32 dir.marco, toU32 dir.desplazamiento, 0⟩) s with
    ⟨_ | ⟨h, n⟩ | g, s'⟩
  · rfl
  · cases h <;> rfl
  · rfl

theorem setValorMemoria_registrar (s : σ) (l : List Mensaje) (pcb : Pcb) (dir : DirFisica) (valor : ℤ) :
    ∃ msg, setValorMemoria (registrar srv) (s, l) pcb dir valor = ((setValorMemoria srv s pcb dir valor).1,
      (setValorMemoria srv s pcb dir valor).2, l ++ [msg]) ∧ msg.esAcceso = true := by
  refine ⟨.escribirMarco ⟨toU32 pcb.id, toU32 dir.marco, toU32 dir.desplazamiento, toU32 valor⟩, ?_, rfl⟩
  unfold setValorMemoria registrar
  rcases srv (.escribirMarco ⟨toU32 pcb.id, toU32 dir.marco, toU32 dir.desplazamiento, toU32 valor⟩) s with
    ⟨_ | ⟨h, n⟩ | g, s'⟩ <;> rfl

theorem ciRead_registrar (m : Mmu) (s : σ) (pcb : Pcb) (d : ℤ) :
    ∃ msg ∈ (ciRead (registrar srv) m (s, []) pcb d).2.2.2, msg.esAcceso = true := by
  obtain ⟨l, h1, -⟩ := direccionFisica_registrar srv m s [] pcb d
  obtain ⟨msg, h2, h3⟩ := getValorMemoria_registrar srv (direccionFisica srv m s pcb d).2.2 ([] ++ l)
    pcb (direccionFisica srv m s pcb d).1
  rw [List.nil_append] at h1 h2
  refine ⟨msg, ?_, h3⟩
  simp [ciRead, h1, h2]

theorem ciWrite_registrar (m : Mmu) (s : σ) (pcb : Pcb) (d n : ℤ) :
    ∃ msg ∈ (ciWrite (registrar srv) m (s, []) pcb d n).2.2.2, msg.esAcceso = true := by
  obtain ⟨l, h1, -⟩ := direccionFisica_registrar srv m s [] pcb d
  obtain ⟨msg, h2, h3⟩ := setValorMemoria_registrar srv (direccionFisica srv m s pcb d).2.2 ([] ++ l)
    pcb (direccionFisica srv m s pcb d).1 n
  rw [List.nil_append] at h1 h2
  refine ⟨msg, ?_, h3⟩
  simp [ciWrite, h1, h2]

variable {srv}

/-- The steps that can fail. -/
theorem traslada_some {a : Action} {r : Pcb × ℤ} (h : a.traslada = some r) :
    (∃ i, a = .faseOperands r.1 i ∧ i.codigo = .copy ∧ parametro i 1 = some r.2) ∨
      ∃ i v, a = .execute r.1 i v ∧ parametro i 0 = some r.2 ∧
        (i.codigo = .read ∨ i.codigo = .copy ∨ i.codigo = .write ∧ ∃ n, parametro i 1 = some n) := by
  unfold Action.traslada at h
  split at h
  · split at h
    · obtain ⟨d, h1, rfl⟩ := Option.map_eq_some_iff.mp h
      exact Or.inl ⟨_, rfl, ‹_›, h1⟩
    · cases h
  · split at h
    · obtain ⟨d, h1, rfl⟩ := Option.map_eq_some_iff.mp h
      exact Or.inr ⟨_, _, rfl, h1, Or.inl ‹_›⟩
    · obtain ⟨d, h1, rfl⟩ := Option.map_eq_some_iff.mp h
      exact Or.inr ⟨_, _, rfl, h1, Or.inr (Or.inl ‹_›)⟩
    · obtain ⟨d, h1, h⟩ := Option.bind_eq_some_iff.mp h
      obtain ⟨n, h2, rfl⟩ := Option.map_eq_some_iff.mp h
      exact Or.inr ⟨_, _, rfl, h1, Or.inr (Or.inr ⟨‹_›, n, h2⟩)⟩
    · cases h
  · cases h

/-- The operand phase does not read where it has no frame. -/
theorem operando_sinPedido (m : Mmu) (s : σ) (p : Pcb) (i : Instruction) :
    SinPedido srv m s (.faseOperands p i) := by
  intro h msg hmsg
  obtain ⟨r, hr, hf⟩ := (Option.any_eq_true ..).mp h
  rcases traslada_some hr with ⟨i', hi, h1, h2⟩ | ⟨_, _, hi, -⟩
  · cases hi
    obtain ⟨l, h3, h4⟩ := direccionFisica_registrar srv m s [] r.1 r.2
    have h5 : (direccionFisica srv m s r.1 r.2).1.acierto = false := by simpa using hf
    have h6 : enviados srv m s (.faseOperands r.1 i) = l := by
      simp [enviados, faseOperands, h1, h2, h3, h5]
    exact h4 msg (h6 ▸ hmsg)
  · cases hi

/-- `execute` asks for the access all the same. -/
theorem execute_pide {m : Mmu} {s : σ} {p : Pcb} {i : Instruction} {v : ℤ}
    (h : sinMarco srv m s (.execute p i v) = true) :
    ∃ msg ∈ enviados srv m s (.execute p i v), msg.esAcceso = true := by
  obtain ⟨r, hr, -⟩ := (Option.any_eq_true ..).mp h
  rcases traslada_some hr with ⟨i', hi, -⟩ | ⟨i', v', hi, h1, h2⟩
  · cases hi
  · cases hi
    rcases h2 with h2 | h2 | ⟨h2, n, h3⟩
    · simpa [enviados, execute, h1, h2] using ciRead_registrar srv m s r.1 r.2
    · simpa [enviados, execute, h1, h2] using ciWrite_registrar srv m s r.1 r.2 v
    · simpa [enviados, execute, h1, h2, h3] using ciWrite_registrar srv m s r.1 r.2 n

/-- An operand phase that fails gives no operand. -/
theorem operando_falla {m : Mmu} {s : σ} {p : Pcb} {i : Instruction}
    (h : falla srv m s (.faseOperands p i) = true) :
    ∃ m' s', faseOperands srv m s p i = some (none, m', s') := by
  obtain ⟨r, hr, hf⟩ := (Option.any_eq_true ..).mp h
  rcases traslada_some hr with ⟨i', hi, h1, h2⟩ | ⟨_, _, hi, -⟩
  · cases hi
    simp only [faseOperands, h1, h2, ite_true, Option.map_some]
    rcases hd : direccionFisica srv m s r.1 r.2 with ⟨dir, m', s'⟩
    simp only [hd, Action.accede, Bool.or_eq_true, Bool.not_eq_true'] at hf
    by_cases ha : dir.acierto = true
    · have hv : (getValorMemoria srv s' r.1 dir).1 = none := by simpa [ha] using hf
      rcases hg : getValorMemoria srv s' r.1 dir with ⟨w, s2⟩
      rw [hg] at hv
      simp only at hv
      subst hv
      exact ⟨m', s2, by simp [ha]⟩
    · exact ⟨m', s', by simp [ha]⟩
  · cases hi

theorem tras_ne (i : Instruction) (p q : Pcb) : tras i p ≠ .finEjecucion q := by
  unfold tras
  split <;> simp

/-- `execute` does not end the cycle. -/
theorem execute_no_termina {p : Pcb} {i : Instruction} {v : ℤ} {o : Outcome} {c : CpuGlobal σ}
    {e : Effect (CpuGlobal σ) Action} (h : Rama srv (.execute p i v) o c e) (q : Pcb) :
    e.next ≠ [.finEjecucion q] := by
  generalize ha : Action.execute p i v = a at h
  cases h
  case execute pcb i valor pcb' enviar m t h =>
    intro he
    exact tras_ne i pcb' q (List.cons.inj he).1
  all_goals first
    | (simp; done)
    | cases ha

/-- **A failure.** The step after it is the end of the cycle, with nothing asked for
after a translation that failed, exactly in the operand phase. -/
theorem act_falla {a : Action} {o : Outcome} {c : CpuGlobal σ} {e : Effect (CpuGlobal σ) Action}
    (h : act srv a o c = some e) (hf : falla srv c.mmu c.memoria a = true) :
    (SinPedido srv c.mmu c.memoria a ∧ ∃ p, e.next = [.finEjecucion p]) ↔ ∃ p i, a = .faseOperands p i := by
  have hb := act_rama h
  constructor
  · rintro ⟨-, p, hp⟩
    obtain ⟨r, hr, -⟩ := (Option.any_eq_true ..).mp hf
    rcases traslada_some hr with ⟨i, rfl, -⟩ | ⟨i, v, rfl, -, h2⟩
    · exact ⟨_, _, rfl⟩
    · exact absurd hp (execute_no_termina hb p)
  · rintro ⟨p, i, rfl⟩
    obtain ⟨m', s', h1⟩ := operando_falla hf
    refine ⟨operando_sinPedido _ _ p i, p, ?_⟩
    cases hb
    · rw [h1] at *
      simp_all
    · rfl
    · simp_all

end Servidor

/-! ### The end of the dispatch -/

/-- The PCB that comes back, or has come back, has a condition for which the kernel
finishes the process with error. -/
inductive Vuelta {σ : Type*} (cfg : Kernel.KernelConfig) (c : Config (CpuGlobal σ) Action) : Prop
  | termina (q : Pcb) (hq : Kernel.Erroneous cfg q.cpuDispatchCond) (h : [.finEjecucion q] ∈ c.threads)
  | envia (q : Pcb) (hq : Kernel.Erroneous cfg q.cpuDispatchCond) (h : [.enviarPcb q] ∈ c.threads)
  | enviado (q : Pcb) (hq : Kernel.Erroneous cfg q.cpuDispatchCond) (h : c.state.respuestas = [q])
  | recibido (h : [.cpuDispatchPcb] ∈ c.threads)

/-- No instruction is fetched, prepared or executed. -/
def Detenido {σ : Type*} (c : Config (CpuGlobal σ) Action) : Prop :=
  (∀ p, [.fetch p] ∉ c.threads) ∧ (∀ p i, [.faseOperands p i] ∉ c.threads) ∧
    ∀ p i v, [.execute p i v] ∉ c.threads

/-- The process is stopped, with an error for the kernel. -/
structure Terminado {σ : Type*} (cfg : Kernel.KernelConfig) (c : Config (CpuGlobal σ) Action) : Prop where
  vuelta : Vuelta cfg c
  detenido : Detenido c

section Reach

variable {σ : Type*} {srv : Servidor σ} {cfg : Kernel.KernelConfig}
  {ok ok' : Config (CpuGlobal σ) Action → ℕ × Outcome → Prop} {m : Mmu} {t : σ}
  {c c' : Config (CpuGlobal σ) Action} {x : ℕ × Outcome} {a b : Action}
  {e : Effect (CpuGlobal σ) Action}

/-- Another action is still there after a step. -/
theorem mem_tras_paso {ts : List (List Action)} {i : ℕ} {k : List Action} (hk : ts[i]? = some [a])
    (hb : [b] ∈ ts) (hne : b ≠ a) : [b] ∈ ts.set i k := by
  obtain ⟨j, hj⟩ := List.mem_iff_getElem?.mp hb
  refine List.mem_of_getElem? (i := j) ?_
  rw [List.getElem?_set_ne ?_, hj]
  rintro rfl
  rw [hk] at hj
  cases hj
  exact hne rfl

/-- Two threads do not both have the PCB. -/
theorem peso_unico (h : Reach (act srv) ok (start m t) c) (ha : [a] ∈ c.threads) (hb : [b] ∈ c.threads)
    (h1 : pesoPcb a = 1) (h2 : pesoPcb b = 1) : a = b := by
  obtain ⟨i, hi⟩ := List.mem_iff_getElem?.mp ha
  obtain ⟨j, hj⟩ := List.mem_iff_getElem?.mp hb
  have h3 := reach_unPcb h
  by_contra hne
  have hij : i ≠ j := by
    rintro rfl
    rw [hi] at hj
    cases hj
    exact hne rfl
  have h4 := add_le_total (fun k _ => (grounded_of_nonneg pesoPcb_nonneg k).nonneg) hi hj hij
  rw [load_cons, load_cons, load_nil, h1, h2] at h4
  omega

theorem Vuelta.detenido (h : Reach (act srv) ok (start m t) c) (hv : Vuelta cfg c) : Detenido c := by
  have h1 : ∀ a, [a] ∈ c.threads → pesoPcb a = 1 →
      (∃ q, a = .finEjecucion q) ∨ (∃ q, a = .enviarPcb q) ∨ a = .cpuDispatchPcb := by
    intro a ha hw
    rcases hv with ⟨q, -, hq⟩ | ⟨q, -, hq⟩ | ⟨q, -, hq⟩ | hq
    · exact Or.inl ⟨q, peso_unico h ha hq hw rfl⟩
    · exact Or.inr (Or.inl ⟨q, peso_unico h ha hq hw rfl⟩)
    · have h2 := (sockets_vacios h ha hw).2
      rw [hq] at h2
      cases h2
    · exact Or.inr (Or.inr (peso_unico h ha hq hw rfl))
  refine ⟨fun p hp => ?_, fun p i hp => ?_, fun p i v hp => ?_⟩
  all_goals
    have h2 := h1 _ hp rfl
    simp at h2

/-- Until the next dispatch the PCB is on its way back. -/
theorem vuelta_step (h : Reach (act srv) ok (start m t) c) (hv : Vuelta cfg c)
    (hx : step (act srv) c x = some c') (hd : c'.state.despachos = c.state.despachos) : Vuelta cfg c' := by
  obtain ⟨a, e, hk, he, rfl⟩ := step_solo h hx
  have hb := act_rama he
  have hmem : ∀ b, e.next = [b] → e.stop = false → [b] ∈ c.threads.set x.1 (e.rest []) := fun b h1 h2 => by
    obtain ⟨hi, -⟩ := List.getElem?_eq_some_iff.mp hk
    simpa [Effect.rest, h1, h2] using List.mem_set hi [b]
  have ha := List.mem_of_getElem? hk
  generalize x.2 = o at hb
  rcases hv with ⟨q, hq, hv⟩ | ⟨q, hq, hv⟩ | ⟨q, hq, hv⟩ | hv
  · by_cases hne : Action.finEjecucion q = a
    · subst hne
      cases hb
      exact .envia { q with cpuExecutedBurst := o.total } hq (hmem _ rfl rfl)
    · exact .termina q hq (mem_tras_paso hk hv hne)
  · by_cases hne : Action.enviarPcb q = a
    · subst hne
      cases hb
      refine .enviado q hq ?_
      show c.state.respuestas ++ [q] = [q]
      rw [(sockets_vacios h hv rfl).2, List.nil_append]
    · exact .envia q hq (mem_tras_paso hk hv hne)
  · have hpeso : pesoPcb a ≠ 1 := fun hw => by
      have h1 := (sockets_vacios h ha hw).2
      rw [hv] at h1
      cases h1
    cases hb
    case recibirPcb => exact .recibido (hmem _ rfl rfl)
    case enviarPcb => exact absurd rfl hpeso
    all_goals exact .enviado q hq hv
  · by_cases hne : Action.cpuDispatchPcb = a
    · subst hne
      cases hb
      simp at hd
    · exact .recibido (mem_tras_paso hk hv hne)

theorem despachos_step (hx : step (act srv) c x = some c') :
    c.state.despachos ≤ c'.state.despachos := by
  obtain ⟨a, k, e, hk, he, rfl⟩ := step_some hx
  have hb := act_rama he
  generalize x.2 = o at hb
  cases hb
  case cpuDispatchPcb => exact Nat.le_succ _
  all_goals exact le_refl _

/-- And in every run until then. -/
theorem vuelta_run (h0 : Reach (act srv) ok (start m t) c) (hv : Vuelta cfg c)
    (h : Reach (act srv) ok c c') : Reach (act srv) ok (start m t) c' ∧
      c.state.despachos ≤ c'.state.despachos ∧
      (c'.state.despachos = c.state.despachos → Vuelta cfg c') := by
  induction h with
  | start => exact ⟨h0, le_refl _, fun _ => hv⟩
  | @step c₁ c₂ x _ hok hx ih =>
    obtain ⟨h1, h2, h3⟩ := ih
    have h4 := despachos_step hx
    refine ⟨.step x h1 hok hx, h2.trans h4, fun hd => ?_⟩
    exact vuelta_step h1 (h3 (by omega)) hx (by omega)

/-! ### The condition during the dispatch -/

/-- Until an instruction ends the cycle the condition is the one of the dispatch. -/
def faseNula : Action → CpuGlobal σ → Prop
  | .borrarInterrupcion p, _ | .ejecutarPcb p, _ => p.cpuDispatchCond = .nullCondition
  | .fetch p, s | .faseOperands p _, s | .execute p _ _, s =>
    p.cpuDispatchCond = .nullCondition ∧ s.enviarPcbOExit = false
  | .testInterrupcion p, s => s.enviarPcbOExit = false → p.cpuDispatchCond = .nullCondition
  | .checkInterrupt p, s => s.enviarPcbOExit = false → s.hayInterrupcion = false →
    p.cpuDispatchCond = .nullCondition
  | _, _ => True

theorem faseNula_rama {o : Outcome} {s : CpuGlobal σ}
    (hG : ∀ p ∈ s.dispatch, p.cpuDispatchCond = .nullCondition)
    (hF : pesoPcb a = 1 → faseNula a s) (h : Rama srv a o s e) (hb : e.next = [b]) : faseNula b e.state := by
  cases h <;> cases hb
  case recibirDispatch pcb l h => exact hG pcb (h ▸ List.mem_cons_self)
  case borrarInterrupcion => exact hF rfl
  case ejecutarPcb => exact ⟨hF rfl, rfl⟩
  case fetch => exact hF rfl
  case faseOperands => exact hF rfl
  case execute pcb i valor pcb' enviar m t h =>
    obtain ⟨h1, h2⟩ : pcb.cpuDispatchCond = .nullCondition ∧ s.enviarPcbOExit = false := hF rfl
    have h3 : (s.enviarPcbOExit || enviar) = false → pcb'.cpuDispatchCond = .nullCondition := fun he => by
      obtain ⟨-, rfl⟩ := (Bool.or_eq_false_iff ..).mp he
      exact execute_sigue h ▸ h1
    unfold tras
    split
    · exact fun he _ => h3 he
    · exact h3
  case interrumpida pcb h =>
    intro _ hf
    rw [show s.hayInterrupcion = false from hf] at h
    cases h.1
  case noInterrumpida pcb h => exact fun he _ => (show _ → _ from hF rfl) he
  case sigue pcb h =>
    exact ⟨(show _ → _ → _ from hF rfl) h.1 h.2, h.1⟩
  all_goals trivial

theorem faseNula_interrupt {o : Outcome} {s : CpuGlobal σ}
    (ha : a = .recibirInterrupt ∨ a = .cpuInterrupt) (h : Rama srv a o s e) (hF : faseNula b s) :
    faseNula b e.state := by
  have h1 : e.state.enviarPcbOExit = s.enviarPcbOExit ∧
      (e.state.hayInterrupcion = false → s.hayInterrupcion = false) := by
    cases h <;> first
      | (simp at ha; done)
      | exact ⟨rfl, fun h => h⟩
      | exact ⟨rfl, fun h => by cases h⟩
  cases b
  case checkInterrupt p => exact fun he hf => hF (h1.1 ▸ he) (h1.2 hf)
  case fetch | faseOperands | execute => exact ⟨hF.1, h1.1.trans hF.2⟩
  case testInterrupcion => exact fun he => hF (h1.1.symm.trans he)
  all_goals exact hF

/-- The PCB comes to an operand phase with the condition it was dispatched with. -/
theorem reach_nula (hok : ∀ c x, ok c x → ∀ p, c.threads[x.1]? = some [.cpuDispatchPcb] →
      x.2 = .pcb p → p.cpuDispatchCond = .nullCondition) (h : Reach (act srv) ok (start m t) c) {p : Pcb} {i : Instruction}
    (hk : [.faseOperands p i] ∈ c.threads) : p.cpuDispatchCond = .nullCondition := by
  have h1 := reach_fases (G := fun s => ∀ p ∈ s.dispatch, p.cpuDispatchCond = .nullCondition)
    (F := faseNula) ⟨by simp [start], trivial⟩ ?_ ?_ h
  · exact (show _ ∧ _ from h1.2 _ hk rfl).1
  · intro c x a e _ hx hk hG hF he
    have hb := act_rama he
    refine ⟨?_, fun b _ hb' _ => faseNula_rama hG hF hb hb'⟩
    have hx' := hok c x hx
    generalize x.2 = o at hb hx'
    cases hb
    case recibirDispatch pcb l h => exact fun p hp => hG p (h ▸ List.mem_cons_of_mem _ hp)
    case cpuDispatchPcb q =>
      intro p hp
      rcases List.mem_append.mp hp with hp | hp
      · exact hG p hp
      · exact List.mem_singleton.mp hp ▸ hx' q hk rfl
    all_goals exact hG
  · exact fun c x a e b _ _ _ ha _ he _ hF => faseNula_interrupt ha (act_rama he) hF

/-! ### Every failure -/

/-- The kernel dispatches a PCB with no condition. -/
def SinCondicion (c : Config (CpuGlobal σ) Action) (x : ℕ × Outcome) : Prop :=
  ∀ p, c.threads[x.1]? = some [.cpuDispatchPcb] → x.2 = .pcb p → p.cpuDispatchCond = .nullCondition

/-- And the memory fails in the operand phases only. -/
structure Resuelta (srv : Servidor σ) (c : Config (CpuGlobal σ) Action) (x : ℕ × Outcome) : Prop where
  nula : SinCondicion c x
  operando : ∀ a, c.threads[x.1]? = some [a] → falla srv c.state.mmu c.state.memoria a = true →
    ∃ p i, a = .faseOperands p i

/-- A failure of the memory in the next step asks for nothing after a translation that
failed, and whatever happens next, until another dispatch no instruction is executed and
the PCB is on its way back, for the kernel to finish the process with error. -/
def Informa (srv : Servidor σ) (cfg : Kernel.KernelConfig) (ok : Config (CpuGlobal σ) Action → ℕ × Outcome → Prop)
    (c : Config (CpuGlobal σ) Action) : Prop :=
  ∀ x a c', ok c x → c.threads[x.1]? = some [a] → step (act srv) c x = some c' →
    falla srv c.state.mmu c.state.memoria a = true →
    SinPedido srv c.state.mmu c.state.memoria a ∧
    ∀ c₁, Reach (act srv) (fun _ _ => True) c' c₁ → c₁.state.despachos = c.state.despachos →
      Terminado cfg c₁

theorem reach_informa (cfg : Kernel.KernelConfig) (hok : ∀ c x, ok c x → Resuelta srv c x)
    (h : Reach (act srv) ok (start m t) c) : Informa srv cfg ok c := by
  intro x a c' hx hk hs hf
  obtain ⟨p, i, rfl⟩ := (hok c x hx).operando a hk hf
  have hr : Reach (act srv) (fun _ _ => True) (start m t) c := h.mono fun _ _ _ => trivial
  obtain ⟨a, e, hk', he, rfl⟩ := step_solo h hs
  rw [hk] at hk'
  cases hk'
  have hnext := (act_falla he hf).mpr ⟨p, i, rfl⟩
  refine ⟨hnext.1, fun c₁ h1 hd => ?_⟩
  have hnula := reach_nula (fun c x hx => (hok c x hx).nula) h (List.mem_of_getElem? hk)
  have hv : Vuelta cfg ⟨e.state, c.threads.set x.1 (e.rest [])⟩ ∧
      e.state.despachos = c.state.despachos := by
    obtain ⟨hi, -⟩ := List.getElem?_eq_some_iff.mp hk
    have hb := act_rama he
    obtain ⟨-, q, hq⟩ := hnext
    generalize x.2 = o at hb
    cases hb <;> cases hq
    exact ⟨.termina p (hnula ▸ Kernel.erroneous_null cfg) (List.mem_set hi _), rfl⟩
  obtain ⟨h2, -, h3⟩ := vuelta_run (hr.step x trivial hs) hv.1 h1
  have h4 := h3 (hd.trans hv.2.symm)
  exact ⟨h4, h4.detenido h2⟩

end Reach

/-! ### Runs -/

/-- `SinCondicion`, evaluated. -/
def checkSinCondicion {σ : Type*} (c : Config (CpuGlobal σ) Action) (x : ℕ × Outcome) : Bool :=
  match c.threads[x.1]?, x.2 with
  | some [.cpuDispatchPcb], .pcb p => p.cpuDispatchCond = .nullCondition
  | _, _ => true

theorem sinCondicion_of_check {σ : Type*} (c : Config (CpuGlobal σ) Action) (x : ℕ × Outcome)
    (h : checkSinCondicion c x = true) : SinCondicion c x := by
  intro p hk hx
  simpa [checkSinCondicion, hk, hx] using h

/-- `Resuelta`, evaluated. -/
def checkResuelta {σ : Type*} (srv : Servidor σ) (c : Config (CpuGlobal σ) Action) (x : ℕ × Outcome) : Bool :=
  checkSinCondicion c x && match c.threads[x.1]? with
    | some [.execute p i v] => !falla srv c.state.mmu c.state.memoria (.execute p i v)
    | _ => true

theorem resuelta_of_check {σ : Type*} (srv : Servidor σ) (c : Config (CpuGlobal σ) Action) (x : ℕ × Outcome)
    (h : checkResuelta srv c x = true) : Resuelta srv c x := by
  obtain ⟨h1, h2⟩ := (Bool.and_eq_true ..).mp h
  refine ⟨sinCondicion_of_check c x h1, fun a hk hf => ?_⟩
  obtain ⟨r, hr, -⟩ := (Option.any_eq_true ..).mp hf
  rcases traslada_some hr with ⟨i, rfl, -⟩ | ⟨i, v, rfl, -⟩
  · exact ⟨_, _, rfl⟩
  · simp [hk, hf] at h2

/-- The process executes one instruction on memory and `EXIT`. -/
def accesoPcb (codigo : CodigoInstruccion) : Pcb :=
  { ejemploPcb with instructions := [⟨codigo, [[48], [48]]⟩, ⟨.exit, []⟩] }

/-- It is dispatched, and `n` steps of the handler follow. -/
def accesoRun (codigo : CodigoInstruccion) (n : ℕ) : List (ℕ × Outcome) :=
  (2, .pcb (accesoPcb codigo)) :: oks n 0

/-- The handler is at action `a` after `n` steps, where `a` fails, and the next dispatch
has not come `k + 1` steps later. -/
theorem acceso_run {check : Config (CpuGlobal Unit) Action → ℕ × Outcome → Bool}
    {ok : Config (CpuGlobal Unit) Action → ℕ × Outcome → Prop}
    (hc : ∀ c x, check c x = true → ok c x) (codigo : CodigoInstruccion) (n k : ℕ) (a b : Action)
    (l : List Pcb) (h : (run (act sinMemoria) check (start ejemploMmu ()) (accesoRun codigo n)).bind (fun c =>
      if check c (0, .ok) then (step (act sinMemoria) c (0, .ok)).bind fun c' =>
        (run (act sinMemoria) (fun _ _ => true) c' (oks k 0)).map fun c₁ =>
          (c.threads[0]?, falla sinMemoria c.state.mmu c.state.memoria a, c₁.threads[0]?,
            c₁.state.respuestas, c₁.state.despachos == c.state.despachos)
      else none) = some (some [a], true, some [b], l, true)) :
    ∃ c c' c₁, Reach (act sinMemoria) ok (start ejemploMmu ()) c ∧ ok c (0, .ok) ∧
      c.threads[0]? = some [a] ∧ falla sinMemoria c.state.mmu c.state.memoria a = true ∧
      step (act sinMemoria) c (0, .ok) = some c' ∧ Reach (act sinMemoria) (fun _ _ => True) c' c₁ ∧
      [b] ∈ c₁.threads ∧ c₁.state.respuestas = l ∧ c₁.state.despachos = c.state.despachos := by
  obtain ⟨c, h1, h⟩ := Option.bind_eq_some_iff.mp h
  split at h
  · obtain ⟨c', h2, h⟩ := Option.bind_eq_some_iff.mp h
    obtain ⟨c₁, h3, h⟩ := Option.map_eq_some_iff.mp h
    simp only [Prod.mk.injEq, beq_iff_eq] at h
    obtain ⟨h4, h5, h6, h7, h8⟩ := h
    exact ⟨c, c', c₁, reach_of_run hc .start h1, hc _ _ ‹_›, h4, h5, h2,
      reach_of_run (fun _ _ _ => trivial) .start h3, List.mem_of_getElem? h6, h7, h8⟩
  · cases h

end Cpu
end Kiss
