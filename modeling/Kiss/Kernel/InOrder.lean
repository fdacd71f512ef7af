/-
# The counter a PCB is sent with

Where the sockets do not fail, every package the dispatch handler queues is the answer of
the running process (`inOrderPhases_rules`). `H p` is what process `p` has executed by then
and `F p` whether an operand of it was not read; an answer is `Sound` when, if its
condition lets the process go on, the counter it brings is where `H p` ends. From sound
answers every PCB that is sent continues where its process was left (`inOrder_step`).

Key definitions: `NoTransportErrors`, `inOrderPhases`, `Listo`, `Sound`, `Known`, `InOrder`.
Key theorems: `inOrderPhases_rules`, `inOrder_step`.
-/
import Kiss.Cpu.Orden
import Kiss.Kernel.Redispatch

namespace Kiss
namespace Kernel

open Kernel.Action Threads

/-- What is sent to the CPU arrives, and what is received is its answer. -/
structure NoTransportErrors (c : Config Planner Action) (x : ℕ × Outcome) : Prop where
  sent : ∀ p k, c.threads[x.1]? = some (sendPcb p :: k) → x.2 = .ok
  recieved : ∀ k, c.threads[x.1]? = some (recieveMessage :: k) → ∃ r, x.2 = .reply r

/-- The cycle where the sockets do not fail. -/
def inOrderPhases : Phases where
  idle v := v.exec = none ∧ v.data = [] ∧ v.atCpu = []
  sending p v := v.exec = some p ∧ v.data = [] ∧ v.atCpu = []
  sent v := ∃ p, v.exec = some p ∧ v.data = [] ∧ v.atCpu = [p]
  awaiting v := ∃ p, v.exec = some p ∧ v.data = [] ∧ v.atCpu = [p]
  received pk v := ∃ r, pk = ⟨.pcb, some r⟩ ∧ v.exec = some r.id ∧ v.data = [] ∧ v.atCpu = [] ∧
    v.dispatchError = .none
  queued v := ∃ r, v.data = [⟨.pcb, some r⟩] ∧ v.exec = some r.id ∧ v.atCpu = [] ∧
    v.dispatchError = .none
  replied r v := v.exec = some r.id ∧ v.data = [] ∧ v.atCpu = []
  taking r v := v.exec = some r.id ∧ v.data = [] ∧ v.atCpu = []
  erring _ := False

theorem inOrderPhases_rules {ok : Config Planner Action → ℕ × Outcome → Prop}
    (hok : ∀ c x, ok c x → NoTransportErrors c x) : inOrderPhases.Rules ok where
  sets p v h := ⟨rfl, h.2⟩
  sends c x p k _ _ h _ := by
    obtain ⟨h1, h2, h3⟩ := h
    refine ⟨p, h1, h2, ?_⟩
    change c.state.atCpu = [] at h3
    show c.state.atCpu ++ [p] = [p]
    rw [h3, List.nil_append]
  notSends c x p k hx hk _ hs := by
    rw [(hok c x hx).sent p k hk] at hs
    exact absurd rfl hs
  marks v h := h
  recieves c x hx hk h e pk l hres := by
    obtain ⟨p, h1, h2, h3⟩ := h
    obtain ⟨r, hr⟩ := (hok c x hx).recieved [] hk
    change c.state.atCpu = [p] at h3
    rw [hr, recieveMessageResult, h3] at hres
    split at hres
    · rename_i hid
      cases hres
      cases hid
      exact ⟨r, rfl, h1, h2, rfl, rfl⟩
    · cases hres
  pushes pk v h := by
    obtain ⟨r, rfl, h1, h2, h3, h4⟩ := h
    refine ⟨r, ?_, h1, h3, h4⟩
    show v.data ++ [_] = [_]
    rw [h2, List.nil_append]
  replies r l v h _ hd := by
    obtain ⟨r', h1, h2, h3, -⟩ := h
    rw [h1] at hd
    cases hd
    exact ⟨h2, rfl, h3⟩
  others pk l v h _ hd hne := by
    obtain ⟨r', h1, -⟩ := h
    rw [h1] at hd
    cases hd
    exact hne r' rfl
  errs v h he := by
    obtain ⟨r', h1, -, -, h4⟩ := h
    rcases he with he | he
    · exact he h4
    · rw [h1] at he
      cases he
  frees r v h := h
  takes r v h := ⟨rfl, h.2⟩
  fails v h := h.elim

/-! ### What is known of the answers -/

section Known

variable (H : ℕ → List Instruction) (F : ℕ → Bool)

/-- Process `p` has executed what is before the counter `n`, and its operands were read. -/
structure Listo (s : Planner) (p : ℕ) (n : ℤ) : Prop where
  creado : p ≤ s.pcbId
  alDia : Cpu.AlDia (s.pcbs p).instructions n (H p)
  operandos : F p = false

/-- A process that comes back with condition `d` can go on at `n`. -/
def Sound (s : Planner) (p : ℕ) (d : DispatchCond) (n : ℤ) : Prop := Cpu.Prosigue d → Listo H F s p n

/-- What is known where the permit of the dispatch is held and `k` is still to be done. -/
structure Known (s : Planner) (k : List Action) : Prop where
  sending : ∀ p k', k = sendPcb p :: k' → Listo H F s p (s.pcbs p).programCounter
  answer : ∀ r, pushData ⟨.pcb, some r⟩ ∈ k ∨ takeExec r ∈ k → Sound H F s r.id r.cpuDispatchCond r.programCounter
  queued : cpuRecievePcbAsync ∈ k → ∀ r, ⟨.pcb, some r⟩ ∈ s.data →
    Sound H F s r.id r.cpuDispatchCond r.programCounter
  reply : ∀ p r, assign p (.reply r) ∈ k → dispatchSwitch p ∈ k ∧ Sound H F s p r.cpuDispatchCond r.programCounter
  replied : ∀ p, dispatchSwitch p ∈ k → p ≤ s.pcbId ∧ ((∀ r, assign p (.reply r) ∉ k) →
    Sound H F s p (s.pcbs p).cpuDispatchCond (s.pcbs p).programCounter)

/-- Every process can go on where its counter is, or runs, or its answer is being applied,
or it has ended. -/
def Placed (c : Config Planner Action) : Prop := ∀ p ≤ c.state.pcbId,
  Listo H F c.state p (c.state.pcbs p).programCounter ∨ c.state.exec = some p ∨
    (∃ k ∈ c.threads, dispatchSwitch p ∈ k) ∨ held living p c ≤ 0

/-- What is known of all of them. -/
structure InOrder (c : Config Planner Action) : Prop where
  known : ∀ k ∈ c.threads, 1 ≤ load dispatchWeight k → Known H F c.state k
  placed : Placed H F c
  unborn : ∀ p, c.state.pcbId < p → H p = [] ∧ F p = false

end Known

section Step

variable {H : ℕ → List Instruction} {F : ℕ → Bool} {cfg : KernelConfig}
  {ok : Config Planner Action → ℕ × Outcome → Prop} {c c' : Config Planner Action} {x : ℕ × Outcome}
  {a : Action} {k l : List Action} {o : Outcome} {s s' : Planner} {e : Effect Planner Action} {p : ℕ}
  {n : ℤ} {d : DispatchCond}

/-- The steps `Known` is about. -/
def Action.answering : Action → Bool
  | pushData _ | takeExec _ | cpuRecievePcbAsync | assign _ (.reply _) | dispatchSwitch _ => true
  | _ => false

theorem Listo.act (h : act cfg a o s = some e) (hp : Listo H F s p n) : Listo H F e.state p n := by
  obtain ⟨h1, h2, h3⟩ := hp
  refine ⟨h1.trans (act_pcbId h), ?_, h3⟩
  rcases act_counter (p := p) h with ⟨h4, -⟩ | ⟨prog, -, h4, -⟩
  · rwa [h4]
  · omega

theorem Sound.act (h : act cfg a o s = some e) (hp : Sound H F s p d n) : Sound H F e.state p d n :=
  fun hd => (hp hd).act h

/-- Nothing is known, since nothing is to be done. -/
theorem known_of_answering (h1 : ∀ b ∈ k, b.answering = false) (h2 : ∀ p k', k ≠ sendPcb p :: k') :
    Known H F s k where
  sending p k' hk := absurd hk (h2 p k')
  answer r hr := by
    rcases hr with hr | hr <;> cases h1 _ hr
  queued hr := by cases h1 _ hr
  reply p r hr := by cases h1 _ hr
  replied p hp := by cases h1 _ hp

/-- A step that leaves what is known. -/
theorem Known.mono (hK : Known H F s (a :: k)) (he : act cfg a o s = some e) (ha : a.answering = false)
    (hl : ∀ b ∈ l, b.answering = false) (hs : ∀ p k', l ++ k ≠ sendPcb p :: k') (hd : e.state.data = s.data)
    (hn : ∀ p, dispatchSwitch p ∈ k → a ≠ assign p .nullCondition) : Known H F e.state (l ++ k) := by
  have hmem : ∀ b, b.answering = true → b ∈ l ++ k → b ∈ k := fun b hb hm =>
    (List.mem_append.mp hm).resolve_left fun h => by rw [hl b h] at hb; cases hb
  refine ⟨fun p k' hk => absurd hk (hs p k'), fun r hr => ?_, fun hq r hr => ?_, fun p r hr => ?_,
    fun p hp => ?_⟩
  · refine (hK.answer r ?_).act he
    rcases hr with hr | hr
    · exact Or.inl (List.mem_cons_of_mem _ (hmem _ rfl hr))
    · exact Or.inr (List.mem_cons_of_mem _ (hmem _ rfl hr))
  · exact (hK.queued (List.mem_cons_of_mem _ (hmem _ rfl hq)) r (hd ▸ hr)).act he
  · obtain ⟨h1, h2⟩ := hK.reply p r (List.mem_cons_of_mem _ (hmem _ rfl hr))
    refine ⟨List.mem_append_right _ ((List.mem_cons.mp h1).resolve_left fun h => ?_), h2.act he⟩
    rw [← h] at ha
    cases ha
  · have h1 := hmem _ rfl hp
    obtain ⟨h2, h3⟩ := hK.replied p (List.mem_cons_of_mem _ h1)
    have hne : ∀ r, a ≠ assign p (.reply r) := fun r h => by rw [h] at ha; cases ha
    refine ⟨h2.trans (act_pcbId he), fun hr => ?_⟩
    rw [act_cond_eq he hne (hn p h1) h2]
    have h4 : (e.state.pcbs p).programCounter = (s.pcbs p).programCounter := by
      rcases act_counter (p := p) he with ⟨-, h4 | ⟨r, h4, -⟩⟩ | ⟨prog, -, h4, -⟩
      · exact h4
      · exact absurd h4 (hne r)
      · omega
    rw [h4]
    refine (h3 fun r hr' => ?_).act he
    rcases List.mem_cons.mp hr' with hr' | hr'
    · exact hne r hr'.symm
    · exact hr r (List.mem_append_right _ hr')

/-- The steps that lead to them. -/
theorem answering_flow {ts : List (List Action)} (h : Flow cfg a l ts) (h1 : a ≠ recieveMessage)
    (h2 : ∀ pk, a ≠ pushData pk) (h3 : a ≠ cpuRecievePcbAsync) (h4 : ∀ r, a ≠ takeExec r) :
    ∀ b ∈ l, b.answering = false := by
  rcases hc : cfg.algoritmoPlanificacion <;> cases h
  case fifo.loop f | srt.loop f => cases f <;> simp [body, Action.answering]
  case fifo.callback v | srt.callback v => rcases v with ⟨v, _ | _, q⟩ <;> simp [Timer.call, Action.answering]
  all_goals first
    | exact absurd rfl h1
    | exact absurd rfl (h2 _)
    | exact absurd rfl h3
    | exact absurd rfl (h4 _)
    | simp [movePcbToReady, hc, Action.answering]

theorem answering_dispatchTail : ∀ b ∈ dispatchTail cfg, b.answering = false := by
  unfold dispatchTail
  split <;> simp [Action.answering]

/-- The condition is written after the switch. -/
theorem nullCondition_mem : ∀ {k : List Action}, Suffixes (Shape cfg) k → dispatchSwitch p ∈ k →
    assign p .nullCondition ∈ k
  | [], _, h => by simp at h
  | a :: k, hs, h => by
    rcases List.mem_cons.mp h with rfl | h
    · obtain rfl : k = afterSwitch cfg p := hs.self
      simp [afterSwitch]
    · exact List.mem_cons_of_mem _ (nullCondition_mem hs.tail h)

theorem reply_of_result {r : Reply} {err : SocketError} {l : List ℕ}
    (h : recieveMessageResult s o = some (err, ⟨.pcb, some r⟩, l)) : o = .reply r := by
  unfold recieveMessageResult at h
  split at h
  · split at h <;> cases h
    rfl
  · split at h <;> cases h
  all_goals cases h

/-- `planner->exec` was created. -/
theorem created_of_exec (h : Reach (act cfg) ok (start cfg) c) (hp : c.state.exec = some p) :
    p ≤ c.state.pcbId := by
  by_contra hlt
  have h1 := living_le_one (p := p) h
  have h2 := value_le_held (p := p) living_nonneg (by simp [living]) h
  have h3 := value_eq (g := living) (p := p) c.state
  have h4 : unbornAt living p c.state.pcbId = 1 := by rw [unbornAt, if_pos (by omega)]; rfl
  have h5 : execAt living p c.state.exec = 1 := by rw [hp, execAt_some, at', if_pos rfl]; rfl
  have h6 := fun l rs => sumAt_nonneg (p := p) living_nonneg l rs
  have h7 := fun q => h6 (.queued q) (c.state.queues q)
  have h8 := h6 .exits c.state.exits
  have h9 := h6 .told (c.state.told.map (·.1))
  have h10 := h6 .destroyed c.state.destroyed
  have h11 := h7 .new
  have h12 := h7 .ready
  have h13 := h7 .blocked
  have h14 := h7 .suspendedReady
  have h15 := h7 .exit
  omega

/-- A step outside the calls leaves what is known. -/
theorem known_between (hr : Reach (act cfg) ok (start cfg) c) (hk : c.threads[x.1]? = some (a :: k))
    (he : act cfg a x.2 c.state = some e) (hK : Known H F c.state (a :: k)) (h1 : a.cycle = false)
    (h2 : ∀ p, a ≠ setExec p) (h3 : a.answering = false) : Known H F e.state (e.rest k) := by
  have hm := List.mem_of_getElem? hk
  have hs := (reach_shape hr _ hm).self
  have hf := act_flow he
  unfold Effect.rest
  split
  · exact known_of_answering (by simp) (by simp)
  · refine hK.mono he h3 (answering_flow hf ?_ ?_ ?_ ?_) (fun p k' hc => ?_) ?_ fun p hp hc => ?_
    · rintro rfl
      cases h1
    · rintro pk rfl
      cases h1
    · rintro rfl
      cases h1
    · rintro r rfl
      cases h3
    · have := cycle_rest hs hf h1 h2 (sendPcb p) (by rw [hc]; rfl)
      cases this
    · have h4 : ∀ r, a ≠ takeExec r := by
        rintro r rfl
        cases h3
      exact congrArg View.data (view_act he h1 h2 h4)
    · subst hc
      rw [(reach_unconditions (p := p) hr _ hm).self.1 k rfl] at hp
      cases answering_dispatchTail _ hp

/-- The answer that is taken off the data is the one to apply. -/
theorem known_recieved {r : Reply} (hK : Known H F s [cpuRecievePcbAsync])
    (he : act cfg cpuRecievePcbAsync o s = some e) (hd : ⟨.pcb, some r⟩ ∈ s.data) :
    Known H F e.state (setBusy false :: incommingDispatch cfg r) := by
  have hne : ∀ b, b.answering = true → b ∈ setBusy false :: incommingDispatch cfg r → b = takeExec r := by
    intro b hb hm
    have htail : b ∉ dispatchTail cfg := fun h => by
      rw [answering_dispatchTail b h] at hb
      cases hb
    rcases (by simpa [htail] using hm : b = setBusy false ∨ b = haltBreak ∨ b = takeExec r) with rfl | rfl | h
    · cases hb
    · cases hb
    · exact h
  refine ⟨fun p k' hc => (by cases hc), fun r' hr' => ?_, fun hq => ?_, fun p r' hr' => ?_, fun p hp => ?_⟩
  · rcases hr' with hr' | hr'
    · cases hne _ rfl hr'
    · cases hne _ rfl hr'
      exact (hK.queued List.mem_cons_self r hd).act he
  · cases hne _ rfl hq
  · cases hne _ rfl hr'
  · cases hne _ rfl hp

/-- The answer to the PCB that is taken out of `exec` is still to be applied. -/
theorem known_takeExec {r : Reply} (hK : Known H F s (takeExec r :: k))
    (he : act cfg (takeExec r) o s = some e) (hp : r.id ≤ e.state.pcbId) :
    Known H F e.state (applyReply cfg r r.id ++ dispatchTail cfg) := by
  have hmem : ∀ b, b.answering = true → b ∈ applyReply cfg r r.id ++ dispatchTail cfg →
      b = assign r.id (.reply r) ∨ b = dispatchSwitch r.id := fun b hb hm => by
    rcases List.mem_append.mp hm with hm | hm
    · unfold applyReply at hm
      split at hm <;> simp only [List.mem_cons, List.not_mem_nil, or_false] at hm <;>
        rcases hm with rfl | rfl | rfl | rfl <;> simp_all [Action.answering]
    · rw [answering_dispatchTail b hm] at hb
      cases hb
  have hsw : dispatchSwitch r.id ∈ applyReply cfg r r.id ++ dispatchTail cfg := by
    unfold applyReply
    split <;> simp
  have hre : assign r.id (.reply r) ∈ applyReply cfg r r.id ++ dispatchTail cfg := by
    unfold applyReply
    split <;> simp
  refine ⟨fun p k' hc => ?_, fun r' hr' => ?_, fun hc => ?_, fun p r' hr' => ?_, fun p hp' => ?_⟩
  · unfold applyReply at hc
    split at hc <;> cases hc
  · rcases hr' with hr' | hr' <;> rcases hmem _ rfl hr' with hc | hc <;> cases hc
  · rcases hmem _ rfl hc with hc | hc <;> cases hc
  · rcases hmem _ rfl hr' with hc | hc <;> cases hc
    exact ⟨hsw, (hK.answer r (Or.inr List.mem_cons_self)).act he⟩
  · rcases hmem _ rfl hp' with hc | hc <;> cases hc
    exact ⟨hp, fun hne => absurd hre (hne r)⟩

/-- The answer is in the PCB now. -/
theorem known_reply {q : ℕ} {r : Reply} (hs : Suffixes (Shape cfg) (assign q (.reply r) :: k))
    (hK : Known H F s (assign q (.reply r) :: k)) (he : act cfg (assign q (.reply r)) o s = some e) :
    Known H F e.state (e.rest k) := by
  obtain ⟨h1, h2⟩ := hK.reply q r List.mem_cons_self
  have h1 : dispatchSwitch q ∈ k := (List.mem_cons.mp h1).resolve_left (by simp)
  have hmem : ∀ b, b ∈ k → b ∈ assign q (.reply r) :: k := fun b => List.mem_cons_of_mem _
  cases act_branch he
  refine ⟨fun p k' hc => ?_, fun r' hr' => (hK.answer r' ?_).act he, fun hq r' hr' => ?_,
    fun p r' hr' => ?_, fun p hp => ?_⟩
  · change k = sendPcb p :: k' at hc
    subst hc
    obtain rfl : k' = [recieveMessageAsync, loop .stp] := hs.tail.self
    simp at h1
  · exact hr'.imp (hmem _) (hmem _)
  · exact (hK.queued (hmem _ hq) r' hr').act he
  · obtain ⟨h3, h4⟩ := hK.reply p r' (hmem _ hr')
    exact ⟨(List.mem_cons.mp h3).resolve_left (by simp), h4.act he⟩
  · obtain ⟨h3, h4⟩ := hK.replied p (hmem _ hp)
    refine ⟨h3, fun hne => ?_⟩
    rcases eq_or_ne p q with rfl | hpq
    · simpa [Pcb.assign] using h2.act he
    · have h5 := (h4 fun r' hr' => ?_).act he
      · simpa [hpq] using h5
      · rcases List.mem_cons.mp hr' with hr' | hr'
        · cases hr'
          exact hpq rfl
        · exact hne r' hr'

/-- After the switch on the condition nothing is left of the answer. -/
theorem known_switch {q : ℕ} (hs : Shape cfg (dispatchSwitch q :: k))
    (he : act cfg (dispatchSwitch q) o s = some e) : Known H F s' (e.next ++ k) := by
  have h1 := answering_flow (act_flow he) (by simp) (by simp) (by simp) (by simp)
  refine known_of_answering (fun b hb => ?_) fun p k' hc => ?_
  · rcases List.mem_append.mp hb with hb | hb
    · exact h1 b hb
    · obtain rfl : k = afterSwitch cfg q := hs
      rcases List.mem_cons.mp hb with rfl | hb
      · rfl
      · exact answering_dispatchTail b hb
  · have := cycle_rest hs (act_flow he) rfl (by simp) (sendPcb p) (by rw [hc]; rfl)
    cases this

/-- What is known after a step of the cycle. -/
theorem known_cycle (hr : Reach (act cfg) ok (start cfg) c) (hk : c.threads[x.1]? = some (a :: k))
    (he : act cfg a x.2 c.state = some e) (hK : Known H F c.state (a :: k))
    (hat : inOrderPhases.At c.state.view (a :: k))
    (ha : a.cycle = true ∨ (∃ p, a = setExec p) ∨ a.answering = true)
    (hset : ∀ p, a = setExec p → Listo H F c.state p (c.state.pcbs p).programCounter)
    (hans : ∀ r, a = recieveMessage → x.2 = .reply r →
      Sound H F c.state r.id r.cpuDispatchCond r.programCounter) :
    Known H F e.state (e.rest k) := by
  have hm := List.mem_of_getElem? hk
  have hs := (reach_shape hr _ hm).self
  have hb := act_branch he
  generalize ho : x.2 = o at hb
  cases hb
  case setExec p =>
    obtain rfl : k = [sendPcb p, recieveMessageAsync, loop .stp] := hs
    have h1 := (hset p rfl).act he
    refine ⟨fun q k' hq => ?_, fun r hr' => ?_, fun hq => ?_, fun q r hr' => ?_, fun q hq => ?_⟩
    · obtain ⟨hq, -⟩ := List.cons.inj hq
      cases hq
      exact h1
    · simp [Effect.rest] at hr'
    · simp [Effect.rest] at hq
    · simp [Effect.rest] at hr'
    · simp [Effect.rest] at hq
  case sendPcb p herr | sendPcbFails p herr =>
    obtain rfl : k = [recieveMessageAsync, loop .stp] := hs
    exact known_of_answering (by simp [Effect.rest, Action.answering]) (by simp [Effect.rest])
  case setBusy b =>
    refine hK.mono he rfl (by simp) (fun p k' hc => ?_) rfl (by simp)
    cases b
    · obtain ⟨r, rfl⟩ := hs
      cases hc
    · obtain rfl : k = [recieveMessageAsync, loop .stp] := hs
      cases hc
  case recieveMessageAsync | noReceiver =>
    obtain rfl : k = [loop .stp] := hs
    exact known_of_answering (by simp [Effect.rest, Action.answering]) (by simp [Effect.rest])
  case recieveMessage err pk l hres =>
    obtain rfl : k = [] := hs
    refine ⟨by simp [Effect.rest], fun r hr' => ?_, by simp [Effect.rest], by simp [Effect.rest],
      by simp [Effect.rest]⟩
    obtain rfl : pk = ⟨.pcb, some r⟩ := by simpa [Effect.rest, eq_comm] using hr'
    exact (hans r rfl (ho.trans (reply_of_result hres))).act he
  case pushData pk =>
    obtain rfl : k = [] := hs
    refine ⟨by simp [Effect.rest], by simp [Effect.rest], fun _ r hr' => ?_, by simp [Effect.rest],
      by simp [Effect.rest]⟩
    obtain ⟨r', rfl, -, h1, -⟩ := hat
    change c.state.data = [] at h1
    obtain rfl : r = r' := by simpa [h1] using hr'
    exact (hK.answer r (Or.inl List.mem_cons_self)).act he
  case recieveHalt => exact known_of_answering (by simp [Effect.rest]) (by simp [Effect.rest])
  case recieveError | recievedOther =>
    obtain rfl : k = [] := hs
    exact known_of_answering (by simp [Effect.rest, Action.answering]) (by simp [Effect.rest])
  case recieved r l h =>
    obtain rfl : k = [] := hs
    simpa [Effect.rest] using known_recieved hK he (by rw [h.2.2]; exact List.mem_cons_self)
  case takeExec r q hq =>
    obtain rfl : k = dispatchTail cfg := hs
    obtain ⟨h1, -⟩ := hat.1 r List.mem_cons_self
    change c.state.exec = some r.id at h1
    obtain rfl : q = r.id := Option.some.inj (hq.symm.trans h1)
    exact known_takeExec hK he (created_of_exec hr h1)
  case takeExecNull => exact known_of_answering (by simp [Effect.rest]) (by simp [Effect.rest])
  case takeExecError => exact known_of_answering (by
    obtain rfl : k = [semPost .stpSemDispatch] := hs
    simp [Effect.rest, Action.answering]) (by simp [Effect.rest])
  case noExec => exact known_of_answering (by simp [Effect.rest]) (by simp [Effect.rest])
  case assign q f =>
    cases f
    case reply r => exact known_reply (reach_shape hr _ hm) hK he
    all_goals simp [Action.answering] at ha
  case switchExit | switchReady | switchBlocked | switchError => exact known_switch hs he
  all_goals simp [Action.answering] at ha

/-- A thread holds the permit where it took it, or had it before. -/
theorem permit_rest (he : act cfg a o s = some e)
    (hw : 1 ≤ load dispatchWeight (e.rest k)) : a = semWait .stpSemDispatch ∨ 1 ≤ load dispatchWeight (a :: k) := by
  by_contra hn
  rw [not_or] at hn
  unfold Effect.rest at hw
  split at hw
  · simp at hw
  rename_i hstop
  have h1 := dispatch_act he
  have h3 := (sem_act he).2 hn.1
  have h4 : 0 ≤ total dispatchWeight e.spawn := by
    refine total_nonneg fun t ht => ?_
    have h5 := (dispatch_flow (act_flow he)).2 t ht
    exact h5.nonneg
  rw [if_neg hstop] at h1
  rw [load_append] at hw
  rw [load_cons] at hn
  omega

theorem spawn_known {ts : List (List Action)} (h : Flow cfg a l ts) : ∀ t ∈ ts, Known H F s t := by
  intro t ht
  cases h <;> simp only [List.mem_singleton, List.not_mem_nil] at ht <;> subst ht <;>
    exact known_of_answering (by simp [Action.answering]) (by simp)

/-- The thread that holds the permit alone changes what is known. -/
theorem known_idle {t : List Action} (hr : Reach (act cfg) ok (start cfg) c)
    (hk : c.threads[x.1]? = some (a :: k)) (he : act cfg a x.2 c.state = some e)
    (hw : load dispatchWeight (a :: k) ≤ 0) (hK : Known H F c.state t) :
    Known H F e.state t := by
  have hm := List.mem_of_getElem? hk
  have hs := reach_shape hr _ hm
  have hv : e.state.view = c.state.view := by
    refine view_act he ?_ ?_ ?_
    · by_contra hcy
      have := cycle_permit hs.self (Or.inl (by simpa using hcy))
      omega
    · rintro p rfl
      have := cycle_permit hs.self (Or.inr (Or.inl ⟨p, rfl⟩))
      omega
    · rintro r rfl
      have := cycle_permit hs.self (Or.inr (Or.inr ⟨r, rfl⟩))
      omega
  have hun : ∀ p, assign p .nullCondition ∉ a :: k := fun p h => by
    have := unconditions_load hs (reach_unconditions hr _ hm) h
    omega
  have hne : ∀ p r, a ≠ assign p (.reply r) := by
    rintro p r rfl
    exact hun p (List.mem_cons_of_mem _ ((reach_unconditions (p := p) hr _ hm).self.2.1 r k rfl))
  have hpc : ∀ p ≤ c.state.pcbId, (e.state.pcbs p).programCounter = (c.state.pcbs p).programCounter := by
    intro p hp
    rcases act_counter (p := p) he with ⟨-, h | ⟨r, h, -⟩⟩ | ⟨prog, -, h, -⟩
    · exact h
    · exact absurd h (hne p r)
    · omega
  refine ⟨fun p k' hc => ?_, fun r hr' => (hK.answer r hr').act he, fun hq r hr' => ?_,
    fun p r hr' => ?_, fun p hp => ?_⟩
  · have h1 := hK.sending p k' hc
    rw [hpc p h1.creado]
    exact h1.act he
  · rw [show e.state.data = c.state.data from congrArg View.data hv] at hr'
    exact (hK.queued hq r hr').act he
  · obtain ⟨h1, h2⟩ := hK.reply p r hr'
    exact ⟨h1, h2.act he⟩
  · obtain ⟨h1, h2⟩ := hK.replied p hp
    refine ⟨h1.trans (act_pcbId he), fun hn => ?_⟩
    rw [hpc p h1, act_cond_eq he (hne p) (fun h => hun p (h ▸ List.mem_cons_self)) h1]
    exact (h2 hn).act he

/-- What is known after a step. -/
theorem known_step (hok : ∀ c x, ok c x → NoTransportErrors c x) (hr : Reach (act cfg) ok (start cfg) c)
    (hx : step (act cfg) c x = some c') (hI : ∀ k ∈ c.threads, 1 ≤ load dispatchWeight k → Known H F c.state k)
    (hset : ∀ p k, c.threads[x.1]? = some (setExec p :: k) →
      Listo H F c.state p (c.state.pcbs p).programCounter)
    (hans : ∀ r k, c.threads[x.1]? = some (recieveMessage :: k) → x.2 = .reply r →
      Sound H F c.state r.id r.cpuDispatchCond r.programCounter) :
    ∀ k ∈ c'.threads, 1 ≤ load dispatchWeight k → Known H F c'.state k := by
  have hone := reach_dispatch hr
  have hn : ∀ k ∈ c.threads, 0 ≤ load dispatchWeight k := fun k hk => (hone.2 k hk).nonneg
  refine hold_step hx hn (by omega) hI (fun a k e hk he => ?_) ?_
  · have hm := List.mem_of_getElem? hk
    have hs := (reach_shape hr _ hm).self
    refine ⟨fun hw => ?_, fun t ht _ => spawn_known (act_flow he) t ht⟩
    rcases permit_rest he hw with rfl | hw
    · -- the controller takes the permit
      obtain rfl : k = [haltBreak, popReady, loop .stp] := hs
      cases act_branch he
      exact known_of_answering (by simp [Effect.rest, Action.answering]) (by simp [Effect.rest])
    · have hK := hI _ hm hw
      by_cases ha : a.cycle = true ∨ (∃ p, a = setExec p) ∨ a.answering = true
      · have hat := (reach_phases (inOrderPhases_rules hok) ⟨rfl, rfl, rfl⟩ hr).2 _ hm hw
        exact known_cycle hr hk he hK hat ha (fun p hp => hset p k (hp ▸ hk))
          fun r hrec ho => hans r k (hrec ▸ hk) ho
      · refine known_between hr hk he hK ?_ (fun p hp => ha (Or.inr (Or.inl ⟨p, hp⟩))) ?_
        · by_contra h
          exact ha (Or.inl (by simpa using h))
        · by_contra h
          exact ha (Or.inr (Or.inr (by simpa using h)))
  · exact fun a k e hk he hw t _ _ hK => known_idle hr hk he hw hK

/-- Only a new process is created. -/
theorem new_pcb (he : act cfg a o s = some e) (h : s.pcbId < p) (hp : p ≤ e.state.pcbId) :
    p = e.state.pcbId ∧ (e.state.pcbs p).programCounter = 0 := by
  cases act_branch he
  case ltpNewProcess prog =>
    obtain rfl : p = s.pcbId + 1 := by
      change p ≤ s.pcbId + 1 at hp
      omega
    simp
  all_goals exact absurd hp (not_le.mpr h)

/-- The running process runs until its answer is taken. -/
theorem exec_step (hok : ∀ c x, ok c x → NoTransportErrors c x) (hr : Reach (act cfg) ok (start cfg) c)
    (hk : c.threads[x.1]? = some (a :: k)) (he : act cfg a x.2 c.state = some e) (hp : c.state.exec = some p) :
    e.state.exec = some p ∨ (∃ r, a = takeExec r) ∧ dispatchSwitch p ∈ e.rest k := by
  have hm := List.mem_of_getElem? hk
  have hs := (reach_shape hr _ hm).self
  have hat := (reach_phases (inOrderPhases_rules hok) ⟨rfl, rfl, rfl⟩ hr).2 _ hm
  generalize x.2 = o at he
  cases act_branch he
  case setExec q =>
    obtain ⟨h1, -⟩ := (hat (cycle_permit hs (Or.inr (Or.inl ⟨q, rfl⟩))).ge).2 fun r hr' => by
      obtain rfl : k = [sendPcb q, recieveMessageAsync, loop .stp] := hs
      simp at hr'
    change c.state.exec = none at h1
    rw [h1] at hp
    cases hp
  case takeExec r q hq =>
    obtain rfl : q = p := Option.some.inj (hq.symm.trans hp)
    refine Or.inr ⟨⟨r, rfl⟩, List.mem_append_left _ ?_⟩
    unfold applyReply
    split <;> simp
  case takeExecError q hq => exact (hat (cycle_permit hs (Or.inl rfl)).ge).elim
  case takeExecNull hq | noExec hq =>
    rw [hq] at hp
    cases hp
  all_goals exact Or.inl hp

/-- Where the switch on the condition sends a process. -/
theorem switch_placed (hr : Reach (act cfg) ok (start cfg) c) (hk : c.threads[x.1]? = some (dispatchSwitch p :: k))
    (he : act cfg (dispatchSwitch p) x.2 c.state = some e) (hK : Known H F c.state (dispatchSwitch p :: k)) :
    Listo H F e.state p (e.state.pcbs p).programCounter ∨
      held living p ⟨e.state, c.threads.set x.1 (e.rest k) ++ e.spawn⟩ ≤ 0 := by
  have hs : k = afterSwitch cfg p := (reach_shape hr _ (List.mem_of_getElem? hk)).self
  have h1 : Sound H F c.state p (c.state.pcbs p).cpuDispatchCond (c.state.pcbs p).programCounter := by
    refine (hK.replied p List.mem_cons_self).2 fun r hr' => ?_
    have h2 : assign p (.reply r) ∉ dispatchTail cfg := fun h => by cases answering_dispatchTail _ h
    simp [hs, afterSwitch, h2] at hr'
  have hleave : ∀ l, load (weight living p) l = 0 → held living p ⟨c.state, c.threads.set x.1 (l ++ k) ++ []⟩ ≤ 0 :=
    fun l hl => by
      rw [List.append_nil]
      exact leaving_held hr hk hl
  generalize x.2 = o at he
  cases act_branch he
  case switchExit | switchError => exact Or.inr (hleave _ (by simp [weight, at', living]))
  case switchReady hc hq => exact Or.inl (h1 (Or.inr hq))
  case switchBlocked hq => exact Or.inl (h1 (Or.inl hq))

/-- Every process is placed after a step. -/
theorem placed_step (hok : ∀ c x, ok c x → NoTransportErrors c x) (hr : Reach (act cfg) ok (start cfg) c)
    (hx : step (act cfg) c x = some c') (hI : InOrder H F c) : Placed H F c' := by
  intro p hp
  have hliv := held_step (d := 0) (p := p) living_nonneg (by simp [living]) (le_refl _) hr
    (fun a _ _ => living_follows p _ _ a) hx
  obtain ⟨a, k, e, hk, he, rfl⟩ := step_some hx
  have hm := List.mem_of_getElem? hk
  have hs := reach_shape hr _ hm
  by_cases hnew : c.state.pcbId < p
  · obtain ⟨h1, h2⟩ := new_pcb he hnew hp
    obtain ⟨h3, h4⟩ := hI.unborn p hnew
    refine Or.inl ⟨hp, ?_, h4⟩
    show Cpu.AlDia (e.state.pcbs p).instructions (e.state.pcbs p).programCounter (H p)
    rw [h2, h3]
    exact Cpu.alDia_cero _
  have hhold : ∀ k', dispatchSwitch p ∈ k' → k' ∈ c.threads → 1 ≤ load dispatchWeight k' := fun k' hd hm' =>
    unconditions_load (reach_shape hr _ hm') (reach_unconditions hr _ hm') (nullCondition_mem (reach_shape hr _ hm') hd)
  rcases hI.placed p (by omega) with h1 | h1 | ⟨t, ht, h1⟩ | h1
  · rcases act_counter (p := p) he with ⟨-, h2 | ⟨r, rfl, -⟩⟩ | ⟨prog, -, h2, -⟩
    · refine Or.inl ?_
      show Listo H F e.state p (e.state.pcbs p).programCounter
      rw [h2]
      exact h1.act he
    · -- the answer is applied
      have h3 := (reach_unconditions (p := p) hr _ hm).self.2.1 r k rfl
      have h4 := unconditions_load hs (reach_unconditions hr _ hm) (List.mem_cons_of_mem _ h3)
      obtain ⟨h5, -⟩ := (hI.known _ hm h4).reply p r List.mem_cons_self
      refine Or.inr (Or.inr (Or.inl ⟨e.rest k, mem_threads_self hk, ?_⟩))
      cases act_branch he
      exact (List.mem_cons.mp h5).resolve_left (by simp)
    · omega
  · rcases exec_step hok hr hk he h1 with h2 | ⟨-, h2⟩
    · exact Or.inr (Or.inl h2)
    · exact Or.inr (Or.inr (Or.inl ⟨e.rest k, mem_threads_self hk, h2⟩))
  · obtain ⟨j, hj⟩ := List.mem_iff_getElem?.mp ht
    by_cases hjx : j = x.1
    · subst hjx
      obtain rfl : a :: k = t := Option.some.inj (hk.symm.trans hj)
      rcases List.mem_cons.mp h1 with rfl | h2
      · rcases switch_placed hr hk he (hI.known _ hm (hhold _ h1 hm)) with h3 | h3
        · exact Or.inl h3
        · exact Or.inr (Or.inr (Or.inr h3))
      · have h3 := stop_conditioned hs.self (reach_unconditions (p := p) hr _ hm).self he
        refine Or.inr (Or.inr (Or.inl ⟨e.rest k, mem_threads_self hk, ?_⟩))
        unfold Effect.rest
        split
        · exact absurd (nullCondition_mem hs.tail h2) (h3 ‹_›)
        · exact List.mem_append_right _ h2
    · exact Or.inr (Or.inr (Or.inl ⟨t, mem_threads_of_ne hj hjx, h1⟩))
  · exact Or.inr (Or.inr (Or.inr (by omega)))

/-- A PCB that is about to run can go on where its counter is. -/
theorem setExec_listo (hok : ∀ c x, ok c x → NoTransportErrors c x) (hr : Reach (act cfg) ok (start cfg) c)
    (hI : InOrder H F c) (hk : c.threads[x.1]? = some (setExec p :: k)) :
    Listo H F c.state p (c.state.pcbs p).programCounter := by
  have hm := List.mem_of_getElem? hk
  have hs : k = [sendPcb p, recieveMessageAsync, loop .stp] := (reach_shape hr _ hm).self
  have hw := cycle_permit (reach_shape hr _ hm).self (Or.inr (Or.inl ⟨p, rfl⟩))
  have h1 : held living p c ≥ 1 := by
    have := head_le_held (p := p) living_nonneg (by simp [living]) hr hk
    simpa [weight, at', living] using this
  have hp := created_of_load hr hm (p := p) (by simp [hs, weight, at', living])
  rcases hI.placed p hp with h2 | h2 | ⟨t, ht, h2⟩ | h2
  · exact h2
  · obtain ⟨h3, -⟩ := ((reach_phases (inOrderPhases_rules hok) ⟨rfl, rfl, rfl⟩ hr).2 _ hm hw.ge).2 (by simp [hs])
    change c.state.exec = none at h3
    rw [h3] at h2
    cases h2
  · obtain ⟨j, hj⟩ := List.mem_iff_getElem?.mp ht
    have h3 := unconditions_load (reach_shape hr _ ht) (reach_unconditions hr _ ht)
      (nullCondition_mem (reach_shape hr _ ht) h2)
    obtain rfl := dispatch_unique hr hj hk h3 hw.ge
    obtain rfl := Option.some.inj (hk.symm.trans hj)
    simp [hs] at h2
  · omega

/-- **One step.** Sound answers keep the order. -/
theorem inOrder_step (hok : ∀ c x, ok c x → NoTransportErrors c x) (hr : Reach (act cfg) ok (start cfg) c)
    (hx : step (act cfg) c x = some c') (hI : InOrder H F c)
    (hans : ∀ r k, c.threads[x.1]? = some (recieveMessage :: k) → x.2 = .reply r →
      Sound H F c.state r.id r.cpuDispatchCond r.programCounter) : InOrder H F c' := by
  refine ⟨known_step hok hr hx hI.known (fun p k hk => setExec_listo hok hr hI hk) hans,
    placed_step hok hr hx hI, fun p hp => hI.unborn p ?_⟩
  obtain ⟨a, k, e, hk, he, rfl⟩ := step_some hx
  exact lt_of_le_of_lt (act_pcbId he) hp

/-! ### While the CPU has the PCB -/

/-- Where the CPU has a PCB the holder of the permit waits for it. -/
theorem waiting_answering {v : View} (hs : Suffixes (Shape cfg) k) (hat : inOrderPhases.At v k)
    (hv : v.atCpu ≠ []) : (∀ b ∈ k, b.answering = false) ∧ ∀ p k', k ≠ sendPcb p :: k' := by
  have hbetween : ¬ inOrderPhases.Between v k := fun h => by
    by_cases hr : ∃ r, takeExec r ∈ k
    · obtain ⟨r, hr⟩ := hr
      exact hv (h.1 r hr).2.2
    · exact hv (h.2 fun r hr' => hr ⟨r, hr'⟩).2.2
  rcases k with _ | ⟨a, k⟩
  · exact absurd hat hbetween
  · cases a
    case setBusy b =>
      cases b
      · obtain ⟨r, rfl⟩ := hs.self
        exact absurd (hat r (by simp)).2.2 hv
      · obtain rfl : k = [recieveMessageAsync, loop .stp] := hs.self
        simp [Action.answering]
    case recieveMessageAsync =>
      obtain rfl : k = [loop .stp] := hs.self
      simp [Action.answering]
    case recieveMessage =>
      obtain rfl : k = [] := hs.self
      simp [Action.answering]
    case sendPcb p => exact absurd hat.2.2 hv
    case pushData pk =>
      obtain ⟨r, -, -, -, h, -⟩ := hat
      exact absurd h hv
    case cpuRecievePcbAsync =>
      obtain ⟨r, -, -, h, -⟩ := hat
      exact absurd h hv
    case takeExecError => exact hat.elim
    all_goals exact absurd hat hbetween

/-- What the process at the CPU executes is not asked for before it comes back. -/
theorem inOrder_executes {H' : ℕ → List Instruction} {F' : ℕ → Bool}
    (hok : ∀ c x, ok c x → NoTransportErrors c x) (hr : Reach (act cfg) ok (start cfg) c)
    (hI : InOrder H F c) (h0 : c.state.atCpu.head? = some p) (h1 : c.state.exec = some p)
    (hp : p ≤ c.state.pcbId) (hH : ∀ q, q ≠ p → H' q = H q ∧ F' q = F q) : InOrder H' F' c := by
  have hne : c.state.view.atCpu ≠ [] := fun h => by
    change c.state.atCpu = [] at h
    rw [h] at h0
    cases h0
  refine ⟨fun k hk hw => ?_, fun q hq => ?_, fun q hq => ?_⟩
  · have hat := (reach_phases (inOrderPhases_rules hok) ⟨rfl, rfl, rfl⟩ hr).2 _ hk hw
    obtain ⟨h2, h3⟩ := waiting_answering (reach_shape hr _ hk) hat hne
    exact known_of_answering h2 h3
  · by_cases hqp : q = p
    · exact Or.inr (Or.inl (hqp ▸ h1))
    · obtain ⟨h2, h3⟩ := hH q hqp
      rcases hI.placed q hq with ⟨h4, h5, h6⟩ | h4
      · exact Or.inl ⟨h4, h2.symm ▸ h5, h3.symm ▸ h6⟩
      · exact Or.inr h4
  · obtain ⟨h2, h3⟩ := hH q (by omega)
    rw [h2, h3]
    exact hI.unborn q hq

/-- Only the dispatch and the reception move the PCB at the CPU. -/
theorem atCpu_act (he : act cfg a o s = some e) (h1 : ∀ p, a ≠ sendPcb p) (h2 : a ≠ recieveMessage) :
    e.state.atCpu = s.atCpu := by
  cases act_branch he
  case sendPcb p _ | sendPcbFails p _ => exact absurd rfl (h1 p)
  case recieveMessage => exact absurd rfl h2
  all_goals rfl

/-- The process at the CPU is the one that runs. -/
theorem atCpu_exec (hok : ∀ c x, ok c x → NoTransportErrors c x) (hr : Reach (act cfg) ok (start cfg) c)
    (hk : c.threads[x.1]? = some (a :: k)) (he : act cfg a x.2 c.state = some e)
    (h0 : c.state.atCpu.head? = some p) (h1 : c.state.exec = some p) : e.state.exec = some p := by
  refine (exec_step hok hr hk he h1).resolve_right ?_
  rintro ⟨⟨r, rfl⟩, -⟩
  have hm := List.mem_of_getElem? hk
  have hw := cycle_permit (reach_shape hr _ hm).self (Or.inr (Or.inr ⟨r, rfl⟩))
  have hat := (reach_phases (inOrderPhases_rules hok) ⟨rfl, rfl, rfl⟩ hr).2 _ hm hw.ge
  obtain ⟨-, -, h2⟩ := hat.1 r List.mem_cons_self
  change c.state.atCpu = [] at h2
  rw [h2] at h0
  cases h0

end Step

end Kernel
end Kiss
