/-
# The thread monitor

`thread_monitor.c` counts the threads that subscribe and lists their ids, and
`terminate_and_wait` closes the subscriptions and waits until the count is 0. What a function
does with `mutex_monitor` locked is one action where nobody can see the middle of it;
`thread_remove` is three: the count changes first, then the entry goes and the semaphore is
posted, and then the mutex is unlocked. `terminate_and_wait` tests the count and waits for the
semaphore without the mutex, so it sees both before the thread that leaves is out of
`thread_unsubscribe`. (`thread_add` writes the count last, and what it wrote before nobody reads
without the mutex.)

Two things go wrong. A thread that subscribes once the monitor is terminated is refused, but as
`handle_client` does it unsubscribes all the same and takes one off a count it never was in.
And a thread that is leaving has taken itself off the count and posted while it still uses the
monitor, so `terminate_and_wait` may return with that thread in the middle of `thread_remove`.
Where neither happens the count is right and the wait is for all of them (`reach_waits`); each
of them is enough to break it (`not_waits`, `not_waits_leaving`).

Key definitions: `ThreadMonitor`, `Action`, `act`, `Accepted`, `Outside`, `Waits`.
Key theorems: `inv_step`, `reach_waits`, `not_waits`, `not_waits_leaving`.
-/
import Kiss.Threads

namespace Kiss
namespace Shared

open Threads

/-! ### The monitor -/

/-- A thread: its `tid`, which may be another's once it has ended, and a number that is not. -/
structure Thread where
  number : ℕ
  tid : ℕ
deriving DecidableEq

/-- `mutex_monitor`, with the thread that has it in `thread_remove` and how far it is. -/
inductive Mutex
  | free
  /-- It has taken one off the count, and its entry is in the list. -/
  | counted (t : Thread)
  /-- Its entry is out of the list and the semaphore posted, if it was the last one. -/
  | unlisted (t : Thread)
deriving DecidableEq

/-- `t_thread_monitor`, with who is inside and whether `terminate_and_wait` has returned. -/
structure ThreadMonitor where
  activeThreadCount : ℤ := 0
  terminated : Bool := false
  threads : List ℕ := []
  semTerminated : ℕ := 0
  mutexMonitor : Mutex := .free
  /-- The threads that were added and have not come out of `thread_remove`. -/
  subscribed : List Thread := []
  returned : Bool := false
  lastThread : ℕ := 0
deriving DecidableEq

namespace ThreadMonitor

/-- `thread_add`; that it was refused nobody looks at. -/
def threadAdd (self : ThreadMonitor) (t : Thread) : ThreadMonitor :=
  if self.terminated then self
  else { self with
    threads := self.threads ++ [t.tid]
    activeThreadCount := self.activeThreadCount + 1
    subscribed := self.subscribed ++ [t] }

/-- `thread_remove` up to the search, with the mutex locked. -/
def threadRemove (self : ThreadMonitor) (t : Thread) : ThreadMonitor :=
  { self with mutexMonitor := .counted t, activeThreadCount := self.activeThreadCount - 1 }

/-- `thread_remove` from the search on: the first entry that is equal to `tid` goes, if there is
one, and the semaphore is posted if nobody is left. -/
def listRemove (self : ThreadMonitor) (t : Thread) : ThreadMonitor :=
  { self with
    mutexMonitor := .unlisted t
    threads := self.threads.erase t.tid
    semTerminated :=
      if self.terminated = true ∧ self.activeThreadCount ≤ 0 then self.semTerminated + 1
      else self.semTerminated }

/-- The `pthread_mutex_unlock` after `thread_remove`; a thread that was added is outside now. -/
def unlock (self : ThreadMonitor) (t : Thread) : ThreadMonitor :=
  { self with mutexMonitor := .free, subscribed := self.subscribed.erase t }

end ThreadMonitor

/-- What a thread does next. -/
inductive Action
  /-- Threads appear that use the monitor. -/
  | arrive
  | threadSubscribe (t : Thread)
  /-- `thread_unsubscribe`, and `execute_thread` once its routine returns. -/
  | threadRemove (t : Thread)
  | listRemove (t : Thread)
  | unlock (t : Thread)
  | threadNew
  /-- The routine of a thread that `thread_new` created. -/
  | executeThread (t : Thread)
  | terminateAndWait
  | testCount
  | semWait
deriving DecidableEq

/-- What the environment answers. -/
inductive Outcome
  | ok
  /-- A thread that subscribes arrives; else one that calls `thread_new`. -/
  | subscriber (tid : ℕ)
  /-- `pthread_create` fails. -/
  | createFails
  | created (tid : ℕ)
  /-- `pthread_detach` fails; the thread that was created runs. -/
  | detachFails (tid : ℕ)
  /-- The routine ends in `pthread_exit`. -/
  | exits

open Kiss.Shared.Action ThreadMonitor

/-- `thread_new`, with the mutex locked. -/
def threadNew (o : Outcome) (s : ThreadMonitor) : Effect ThreadMonitor Action :=
  if s.terminated then { state := s }
  else match o with
    | .created tid =>
      let t : Thread := ⟨s.lastThread + 1, tid⟩
      { state := threadAdd { s with lastThread := s.lastThread + 1 } t, spawn := [[executeThread t]] }
    | .detachFails tid =>
      let t : Thread := ⟨s.lastThread + 1, tid⟩
      { state := { s with lastThread := s.lastThread + 1 }, spawn := [[executeThread t]] }
    | _ => { state := s }

/-- A thread that arrives: it subscribes, and whatever the answer it unsubscribes once. -/
def arrival (o : Outcome) (s : ThreadMonitor) : Effect ThreadMonitor Action :=
  match o with
  | .subscriber tid =>
    let t : Thread := ⟨s.lastThread + 1, tid⟩
    { state := { s with lastThread := s.lastThread + 1 }, next := [arrive],
      spawn := [[threadSubscribe t, threadRemove t]] }
  | _ => { state := s, next := [arrive], spawn := [[.threadNew]] }

/-- What an action does; those that lock the mutex wait while a thread has it. -/
def act : Action → Outcome → ThreadMonitor → Option (Effect ThreadMonitor Action)
  | arrive, o, s => some (arrival o s)
  | threadSubscribe t, _, s => if s.mutexMonitor = .free then some { state := s.threadAdd t } else none
  | .threadRemove t, _, s =>
    if s.mutexMonitor = .free then some { state := s.threadRemove t, next := [.listRemove t] } else none
  | .listRemove t, _, s => some { state := s.listRemove t, next := [.unlock t] }
  | .unlock t, _, s => some { state := s.unlock t }
  | .threadNew, o, s => if s.mutexMonitor = .free then some (Shared.threadNew o s) else none
  | executeThread _, .exits, s => some { state := s }
  | executeThread t, _, s => some { state := s, next := [.threadRemove t] }
  | terminateAndWait, _, s =>
    if s.mutexMonitor = .free then some { state := { s with terminated := true }, next := [testCount] }
    else none
  -- neither of the two that follow locks the mutex
  | testCount, _, s =>
    if 0 < s.activeThreadCount then some { state := s, next := [semWait] }
    else some { state := { s with returned := true } }
  | semWait, _, s =>
    if 0 < s.semTerminated then
      some { state := { s with semTerminated := s.semTerminated - 1, returned := true } }
    else none

/-- A monitor that was just created, and the thread that will terminate it. -/
def start : Config ThreadMonitor Action := ⟨{}, [[arrive], [terminateAndWait]]⟩

/-- A thread that is removed was added: its subscription was accepted, or `thread_new` added it. -/
def Accepted (c : Config ThreadMonitor Action) (x : ℕ × Outcome) : Prop :=
  ∀ t k, c.threads[x.1]? = some (.threadRemove t :: k) → t ∈ c.state.subscribed

/-- `terminate_and_wait` finds nobody, or takes the semaphore, only while no thread is in
`thread_remove`. -/
def Outside (c : Config ThreadMonitor Action) (x : ℕ × Outcome) : Prop :=
  ∀ a k, c.threads[x.1]? = some (a :: k) → (a = testCount ∧ c.state.activeThreadCount ≤ 0) ∨ a = semWait →
    c.state.mutexMonitor = .free

/-- The count is the length of the list, and one less while a thread has taken itself off the
count and not off the list; it is never negative; and once `terminate_and_wait` has returned
every thread that was added is out of `thread_remove`. -/
structure Waits (s : ThreadMonitor) : Prop where
  count : (∀ t, s.mutexMonitor ≠ .counted t) → s.activeThreadCount = s.threads.length
  counted : ∀ t, s.mutexMonitor = .counted t → s.activeThreadCount + 1 = s.threads.length
  nonneg : 0 ≤ s.activeThreadCount
  waits : s.returned = true → s.subscribed = []

/-! ### What an action does -/

/-- The actions, with what they do to the monitor, the actions that follow and the threads
that start. -/
inductive Does : Action → ThreadMonitor → ThreadMonitor → List Action → List (List Action) → Prop
  | subscriber {s : ThreadMonitor} (t : Thread) :
    Does arrive s { s with lastThread := s.lastThread + 1 } [arrive] [[threadSubscribe t, .threadRemove t]]
  | creator {s : ThreadMonitor} : Does arrive s s [arrive] [[.threadNew]]
  | added {s : ThreadMonitor} (t : Thread) : s.mutexMonitor = .free →
    Does (threadSubscribe t) s (s.threadAdd t) [] []
  | removed {s : ThreadMonitor} (t : Thread) : s.mutexMonitor = .free →
    Does (.threadRemove t) s (s.threadRemove t) [.listRemove t] []
  | unlisted {s : ThreadMonitor} (t : Thread) : Does (.listRemove t) s (s.listRemove t) [.unlock t] []
  | unlocked {s : ThreadMonitor} (t : Thread) : Does (.unlock t) s (s.unlock t) [] []
  | refused {s : ThreadMonitor} : s.mutexMonitor = .free → Does .threadNew s s [] []
  | created {s : ThreadMonitor} (t : Thread) : s.mutexMonitor = .free →
    Does .threadNew s (threadAdd { s with lastThread := s.lastThread + 1 } t) [] [[executeThread t]]
  | detachFails {s : ThreadMonitor} (t : Thread) : s.mutexMonitor = .free →
    Does .threadNew s { s with lastThread := s.lastThread + 1 } [] [[executeThread t]]
  | exits {s : ThreadMonitor} (t : Thread) : Does (executeThread t) s s [] []
  | returns {s : ThreadMonitor} (t : Thread) : Does (executeThread t) s s [.threadRemove t] []
  | terminates {s : ThreadMonitor} : s.mutexMonitor = .free →
    Does terminateAndWait s { s with terminated := true } [testCount] []
  | busy {s : ThreadMonitor} : 0 < s.activeThreadCount → Does testCount s s [semWait] []
  | idle {s : ThreadMonitor} : s.activeThreadCount ≤ 0 → Does testCount s { s with returned := true } [] []
  | woken {s : ThreadMonitor} : 0 < s.semTerminated →
    Does semWait s { s with semTerminated := s.semTerminated - 1, returned := true } [] []

theorem act_does {a : Action} {o : Outcome} {s : ThreadMonitor} {e : Effect ThreadMonitor Action}
    (h : act a o s = some e) : Does a s e.state e.next e.spawn ∧ e.stop = false := by
  cases a with
  | arrive =>
    obtain rfl := Option.some.inj h
    unfold arrival
    split
    · exact ⟨.subscriber _, rfl⟩
    · exact ⟨.creator, rfl⟩
  | threadSubscribe t =>
    obtain ⟨hm, h⟩ := Option.ite_none_right_eq_some.mp h
    obtain rfl := Option.some.inj h
    exact ⟨.added t hm, rfl⟩
  | threadRemove t =>
    obtain ⟨hm, h⟩ := Option.ite_none_right_eq_some.mp h
    obtain rfl := Option.some.inj h
    exact ⟨.removed t hm, rfl⟩
  | listRemove t =>
    obtain rfl := Option.some.inj h
    exact ⟨.unlisted t, rfl⟩
  | unlock t =>
    obtain rfl := Option.some.inj h
    exact ⟨.unlocked t, rfl⟩
  | threadNew =>
    obtain ⟨hm, h⟩ := Option.ite_none_right_eq_some.mp h
    obtain rfl := Option.some.inj h
    unfold Shared.threadNew
    split
    · exact ⟨.refused hm, rfl⟩
    · split
      · exact ⟨.created _ hm, rfl⟩
      · exact ⟨.detachFails _ hm, rfl⟩
      · exact ⟨.refused hm, rfl⟩
  | executeThread t =>
    cases o with
    | exits =>
      obtain rfl := Option.some.inj h
      exact ⟨.exits t, rfl⟩
    | _ =>
      obtain rfl := Option.some.inj h
      exact ⟨.returns t, rfl⟩
  | terminateAndWait =>
    obtain ⟨hm, h⟩ := Option.ite_none_right_eq_some.mp h
    obtain rfl := Option.some.inj h
    exact ⟨.terminates hm, rfl⟩
  | testCount =>
    by_cases hc : 0 < s.activeThreadCount
    · rw [act, if_pos hc] at h
      obtain rfl := Option.some.inj h
      exact ⟨.busy hc, rfl⟩
    · rw [act, if_neg hc] at h
      obtain rfl := Option.some.inj h
      exact ⟨.idle (not_lt.mp hc), rfl⟩
  | semWait =>
    obtain ⟨hm, h⟩ := Option.ite_none_right_eq_some.mp h
    obtain rfl := Option.some.inj h
    exact ⟨.woken hm, rfl⟩

/-! ### The invariant -/

/-- What the thread that has the mutex does next. -/
def Mutex.action : Mutex → Option Action
  | .free => none
  | .counted t => some (.listRemove t)
  | .unlisted t => some (.unlock t)

/-- The action that goes on from `m` weighs 1. -/
def holding (m : Mutex) (a : Action) : ℤ := if m.action = some a then 1 else 0

/-- The threads that the mutex's thread has taken off the count. -/
def Mutex.leaving : Mutex → List Thread
  | .free => []
  | .counted t | .unlisted t => [t]

/-- The threads inside that have an entry in the list. -/
def ThreadMonitor.listed (s : ThreadMonitor) : List Thread :=
  match s.mutexMonitor with
  | .unlisted t => s.subscribed.erase t
  | _ => s.subscribed

/-- What holds of the monitor when every thread that is removed was added and
`terminate_and_wait` never passes while one is leaving. -/
structure Inv (s : ThreadMonitor) : Prop where
  /-- Who leaves is off the count and still inside. -/
  count : s.activeThreadCount + s.mutexMonitor.leaving.length = s.subscribed.length
  leaving : ∀ t ∈ s.mutexMonitor.leaving, t ∈ s.subscribed
  entries : s.threads.Perm (s.listed.map Thread.tid)
  posted : 0 < s.semTerminated → s.terminated = true ∧ s.activeThreadCount ≤ 0
  returned : s.returned = true → s.terminated = true ∧ s.subscribed = []

/-- The thread that waits has set the flag. -/
def Late (terminated : Bool) (k : List Action) : Prop :=
  ∀ a ∈ k, a = testCount ∨ a = semWait → terminated = true

namespace Inv

variable {s : ThreadMonitor} {t : Thread}

theorem threadAdd (hi : Inv s) (hm : s.mutexMonitor = .free) : Inv (s.threadAdd t) := by
  obtain ⟨hc, hl, he, hp, hr⟩ := hi
  unfold ThreadMonitor.threadAdd
  split
  · exact ⟨hc, hl, he, hp, hr⟩
  · rename_i ht
    rw [ThreadMonitor.listed, hm] at he
    rw [hm] at hc
    refine ⟨?_, ?_, ?_, fun h => absurd (hp h).1 ht, fun h => absurd (hr h).1 ht⟩
    · show s.activeThreadCount + 1 + (s.mutexMonitor.leaving.length : ℤ) = ((s.subscribed ++ [t]).length : ℤ)
      rw [hm, List.length_append, List.length_singleton, Nat.cast_add, ← hc]
      exact add_right_comm _ _ _
    · show ∀ u ∈ s.mutexMonitor.leaving, u ∈ s.subscribed ++ [t]
      exact fun u hu => List.mem_append_left _ (hl u hu)
    · simp only [ThreadMonitor.listed, hm, List.map_append]
      exact he.append_right _

theorem threadRemove (hi : Inv s) (hm : s.mutexMonitor = .free) (ht : t ∈ s.subscribed) :
    Inv (s.threadRemove t) := by
  obtain ⟨hc, hl, he, hp, hr⟩ := hi
  rw [ThreadMonitor.listed, hm] at he
  rw [hm] at hc
  refine ⟨?_, ?_, he, fun h => ⟨(hp h).1, ?_⟩, hr⟩
  · show s.activeThreadCount - 1 + 1 = (s.subscribed.length : ℤ)
    rw [← hc]
    simp [Mutex.leaving]
  · show ∀ u ∈ [t], u ∈ s.subscribed
    exact fun u hu => List.mem_singleton.mp hu ▸ ht
  · show s.activeThreadCount - 1 ≤ 0
    have := (hp h).2
    omega

theorem listRemove (hi : Inv s) (hm : s.mutexMonitor = .counted t) : Inv (s.listRemove t) := by
  obtain ⟨hc, hl, he, hp, hr⟩ := hi
  rw [ThreadMonitor.listed, hm] at he
  rw [hm] at hc hl
  refine ⟨hc, hl, ?_, fun h => ?_, hr⟩
  · -- the entry that goes has the thread's id, if it is not its own
    show (s.threads.erase t.tid).Perm ((s.subscribed.erase t).map Thread.tid)
    have h1 : s.subscribed.Perm (t :: s.subscribed.erase t) := List.perm_cons_erase (hl t List.mem_cons_self)
    calc (s.threads.erase t.tid).Perm ((s.subscribed.map Thread.tid).erase t.tid) := he.erase t.tid
      List.Perm _ (((t :: s.subscribed.erase t).map Thread.tid).erase t.tid) := (h1.map _).erase t.tid
      List.Perm _ ((s.subscribed.erase t).map Thread.tid) := by rw [List.map_cons, List.erase_cons_head]
  · by_cases ht : s.terminated = true ∧ s.activeThreadCount ≤ 0
    · exact ht
    · have h1 : (s.listRemove t).semTerminated = s.semTerminated := if_neg ht
      exact hp (h1 ▸ h)

theorem unlock (hi : Inv s) (hm : s.mutexMonitor = .unlisted t) : Inv (s.unlock t) := by
  obtain ⟨hc, hl, he, hp, hr⟩ := hi
  rw [ThreadMonitor.listed, hm] at he
  rw [hm] at hc hl
  have ht : t ∈ s.subscribed := hl t List.mem_cons_self
  refine ⟨?_, fun u hu => (by cases hu), he, hp, fun h => absurd (hr h).2 (List.ne_nil_of_mem ht)⟩
  show s.activeThreadCount + 0 = ((s.subscribed.erase t).length : ℤ)
  have h1 := List.length_pos_of_mem ht
  have h2 : s.activeThreadCount + 1 = s.subscribed.length := hc
  rw [List.length_erase_of_mem ht]
  omega

/-- With the mutex free, a count of 0 says that nobody is inside. -/
theorem nobody (hi : Inv s) (hm : s.mutexMonitor = .free) (hc : s.activeThreadCount ≤ 0) :
    s.subscribed = [] := by
  have h1 := hi.count
  rw [hm] at h1
  have h2 : s.activeThreadCount + 0 = s.subscribed.length := h1
  exact List.eq_nil_of_length_eq_zero (by omega)

theorem waits (hi : Inv s) : Waits s := by
  have hlen : s.threads.length = s.listed.length := by
    rw [hi.entries.length_eq, List.length_map]
  have hc := hi.count
  have hl := hi.leaving
  unfold ThreadMonitor.listed at hlen
  refine ⟨fun hn => ?_, fun t hm => ?_, ?_, fun h => (hi.returned h).2⟩
  · rcases hm : s.mutexMonitor with _ | t | t
    · rw [hm] at hlen hc
      exact hlen ▸ (add_zero s.activeThreadCount).symm.trans hc
    · exact absurd hm (hn t)
    · rw [hm] at hlen hc hl
      have ht : t ∈ s.subscribed := hl t List.mem_cons_self
      have h1 : s.activeThreadCount + 1 = s.subscribed.length := hc
      have h2 := List.length_pos_of_mem ht
      have h3 : s.threads.length = (s.subscribed.erase t).length := hlen
      rw [List.length_erase_of_mem ht] at h3
      omega
  · rw [hm] at hlen hc
    exact hlen ▸ hc
  · rcases hm : s.mutexMonitor with _ | t | t
    · rw [hm] at hc
      have h1 : s.activeThreadCount + 0 = s.subscribed.length := hc
      omega
    all_goals
      rw [hm] at hc hl
      have h1 : s.activeThreadCount + 1 = s.subscribed.length := hc
      have h2 := List.length_pos_of_mem (hl t List.mem_cons_self)
      omega

/-- A thread that is removed and has no entry in the list is counted off all the same. -/
theorem not_waits_removed (hi : Inv s) (hm : s.mutexMonitor = .free) (ht : t.tid ∉ s.threads) :
    ¬ Waits ((s.threadRemove t).listRemove t) := by
  intro h
  have h1 : s.activeThreadCount - 1 = ((s.threads.erase t.tid).length : ℤ) := h.count fun u hu => by cases hu
  have h2 : s.activeThreadCount = s.threads.length := hi.waits.count fun u hu => by rw [hm] at hu; cases hu
  rw [List.erase_of_not_mem ht] at h1
  omega

/-- `terminate_and_wait` that returns while a thread is in `thread_remove` has not waited for it. -/
theorem not_waits_returned (hi : Inv s) (hm : s.mutexMonitor ≠ .free) (n : ℕ) :
    ¬ Waits { s with semTerminated := n, returned := true } := by
  intro h
  have h1 : s.subscribed = [] := h.waits rfl
  rcases hs : s.mutexMonitor with _ | t | t
  · exact hm hs
  all_goals
    have h2 : t ∈ s.subscribed := hi.leaving t (hs ▸ List.mem_cons_self)
    rw [h1] at h2
    cases h2

end Inv

/-- Every action keeps the invariant when a thread that is removed was added and
`terminate_and_wait` does not pass while one is leaving. -/
theorem inv_does {a : Action} {s s' : ThreadMonitor} {next : List Action} {spawn : List (List Action)}
    (h : Does a s s' next spawn) (hi : Inv s) (hr : ∀ t, a = .threadRemove t → t ∈ s.subscribed)
    (ho : (a = testCount ∧ s.activeThreadCount ≤ 0) ∨ a = semWait → s.mutexMonitor = .free)
    (hm : ∀ m : Mutex, m.action = some a → s.mutexMonitor = m)
    (ht : a = testCount ∨ a = semWait → s.terminated = true) : Inv s' := by
  cases h with
  | subscriber t => exact ⟨hi.count, hi.leaving, hi.entries, hi.posted, hi.returned⟩
  | added t hf => exact hi.threadAdd hf
  | removed t hf => exact hi.threadRemove hf (hr t rfl)
  | unlisted t => exact hi.listRemove (hm (.counted t) rfl)
  | unlocked t => exact hi.unlock (hm (.unlisted t) rfl)
  | created t hf => exact Inv.threadAdd ⟨hi.count, hi.leaving, hi.entries, hi.posted, hi.returned⟩ hf
  | detachFails t hf => exact ⟨hi.count, hi.leaving, hi.entries, hi.posted, hi.returned⟩
  | terminates hf =>
    exact ⟨hi.count, hi.leaving, hi.entries, fun h => ⟨rfl, (hi.posted h).2⟩, fun h => ⟨rfl, (hi.returned h).2⟩⟩
  | idle hc =>
    have h1 := hi.nobody (ho (Or.inl ⟨rfl, hc⟩)) hc
    exact ⟨hi.count, hi.leaving, hi.entries, hi.posted, fun _ => ⟨ht (Or.inl rfl), h1⟩⟩
  | woken hs =>
    obtain ⟨hterm, hc⟩ := hi.posted hs
    have h1 := hi.nobody (ho (Or.inr rfl)) hc
    exact ⟨hi.count, hi.leaving, hi.entries, fun _ => ⟨hterm, hc⟩, fun _ => ⟨hterm, h1⟩⟩
  | creator | refused | exits | returns | busy => exact hi

/-- The action that goes on with the mutex locked, before and after an action. -/
theorem holding_does {a : Action} {s s' : ThreadMonitor} {next : List Action} {spawn : List (List Action)}
    (h : Does a s s' next spawn) (hm : ∀ m : Mutex, m.action = some a → s.mutexMonitor = m)
    {m : Mutex} (hf : m ≠ .free) :
    (if s'.mutexMonitor = m then (1 : ℤ) else 0) + holding m a =
      (if s.mutexMonitor = m then 1 else 0) + load (holding m) next + total (holding m) spawn := by
  have hadd : ∀ (s : ThreadMonitor) t, (s.threadAdd t).mutexMonitor = s.mutexMonitor := fun s t => by
    unfold ThreadMonitor.threadAdd
    split <;> rfl
  -- where the mutex changes hands, only the thread that has it counts
  have heq : ∀ t u : Thread, (if t = u then (1 : ℤ) else 0) = if u = t then 1 else 0 := fun t u =>
    if_congr eq_comm rfl rfl
  cases h with
  | removed u h0 =>
    cases m with
    | free => exact absurd rfl hf
    | counted t => simp [holding, Mutex.action, h0, ThreadMonitor.threadRemove, heq t u]
    | unlisted t => simp [holding, Mutex.action, h0, ThreadMonitor.threadRemove]
  | unlisted u =>
    have h0 := hm (.counted u) rfl
    cases m with
    | free => exact absurd rfl hf
    | counted t => simp [holding, Mutex.action, h0, ThreadMonitor.listRemove, heq t u]
    | unlisted t => simp [holding, Mutex.action, h0, ThreadMonitor.listRemove, heq t u]
  | unlocked u =>
    have h0 := hm (.unlisted u) rfl
    cases m with
    | free => exact absurd rfl hf
    | counted t => simp [holding, Mutex.action, h0, ThreadMonitor.unlock]
    | unlisted t => simp [holding, Mutex.action, h0, ThreadMonitor.unlock, heq t u]
  | added | created => cases m <;> simp [holding, Mutex.action, hadd]
  | _ => cases m <;> simp [holding, Mutex.action]

theorem late_does {a : Action} {s s' : ThreadMonitor} {next : List Action} {spawn : List (List Action)}
    (h : Does a s s' next spawn) (ht : a = testCount ∨ a = semWait → s.terminated = true) :
    (s.terminated = true → s'.terminated = true) ∧ Late s'.terminated next ∧
      ∀ k ∈ spawn, Late s'.terminated k := by
  have hadd : ∀ (s : ThreadMonitor) t, (s.threadAdd t).terminated = s.terminated := fun s t => by
    unfold ThreadMonitor.threadAdd
    split <;> rfl
  cases h with
  | busy => simp [Late, ht (Or.inl rfl)]
  | added | created => simp [Late, hadd]
  | _ => simp [Late, ThreadMonitor.threadRemove, ThreadMonitor.listRemove, ThreadMonitor.unlock]

/-- The invariant of a configuration. -/
structure RunInv (c : Config ThreadMonitor Action) : Prop where
  state : Inv c.state
  holding : ∀ m : Mutex, m ≠ .free → total (holding m) c.threads = if c.state.mutexMonitor = m then 1 else 0
  late : ∀ k ∈ c.threads, Late c.state.terminated k

theorem inv_start : RunInv start := by
  refine ⟨⟨rfl, fun t ht => (by cases ht), List.Perm.refl _, fun h => (by cases h), fun h => (by cases h)⟩, ?_, ?_⟩
  · intro m hm
    cases m <;> first | exact absurd rfl hm | rfl
  · simp [start, Late]

theorem inv_step {c c' : Config ThreadMonitor Action} {x : ℕ × Outcome} (hi : RunInv c) (hok : Accepted c x)
    (hout : Outside c x) (hx : step act c x = some c') : RunInv c' := by
  obtain ⟨a, k, e, hk, he, hs, htot⟩ := total_step (fun _ => 0) hx
  obtain ⟨hd, hstop⟩ := act_does he
  have hrest : e.rest k = e.next ++ k := if_neg (by rw [hstop]; exact Bool.false_ne_true)
  have hnn : ∀ m, ∀ l : List Action, 0 ≤ load (Shared.holding m) l := fun m l =>
    (grounded_of_nonneg (fun a => by unfold Shared.holding; split_ifs <;> decide) l).nonneg
  have hm : ∀ m : Mutex, m.action = some a → c.state.mutexMonitor = m := fun m ha => by
    have hf : m ≠ .free := by
      rintro rfl
      cases ha
    have h1 := le_total (fun k _ => hnn m k) (List.mem_of_getElem? hk)
    have h2 := hnn m k
    rw [hi.holding m hf, load_cons] at h1
    by_contra hne
    rw [if_neg hne, Shared.holding, if_pos ha] at h1
    omega
  have ht : a = testCount ∨ a = semWait → c.state.terminated = true :=
    hi.late _ (List.mem_of_getElem? hk) a List.mem_cons_self
  obtain ⟨hmono, hnext, hspawn⟩ := late_does hd ht
  refine ⟨?_, fun m hf => ?_, ?_⟩
  · rw [hs]
    exact inv_does hd hi.state (fun t ha => hok t k (ha ▸ hk)) (hout a k hk) hm ht
  · obtain ⟨a', k', e', hk', he', hs', htot'⟩ := total_step (Shared.holding m) hx
    obtain ⟨rfl, rfl⟩ := List.cons.inj (Option.some.inj (hk.symm.trans hk'))
    obtain rfl := Option.some.inj (he.symm.trans he')
    have h1 := holding_does hd hm hf
    rw [htot', hi.holding m hf, hs, hrest, load_append]
    omega
  · rw [hs]
    obtain ⟨b, l, f, hb, hf, rfl⟩ := step_some hx
    obtain ⟨rfl, rfl⟩ := List.cons.inj (Option.some.inj (hk.symm.trans hb))
    obtain rfl := Option.some.inj (he.symm.trans hf)
    have hmem : ∀ l ∈ c.threads, Late e.state.terminated l := fun l hl b hb hbt => hmono (hi.late l hl b hb hbt)
    intro l hl
    rcases mem_threads hl with ⟨j, -, hj⟩ | rfl | hl
    · exact hmem l (List.mem_of_getElem? hj)
    · rw [hrest]
      intro b hb
      rcases List.mem_append.mp hb with hb | hb
      · exact hnext b hb
      · exact hmem _ (List.mem_of_getElem? hk) b (List.mem_cons_of_mem _ hb)
    · exact hspawn l hl

/-! ### Runs -/

/-- **The wait.** In every run in which the threads that are removed were added and
`terminate_and_wait` does not pass while one is in `thread_remove`, the count is the length of
the list and `terminate_and_wait` waits for all of them. -/
theorem reach_waits {c : Config ThreadMonitor Action}
    (h : Reach act (fun c x => Accepted c x ∧ Outside c x) start c) : Waits c.state :=
  (h.inv (I := RunInv) inv_start fun _ _ _ _ hi hok hx => inv_step hi hok.1 hok.2 hx).state.waits

/-- `Accepted`, computed. -/
def accepted (c : Config ThreadMonitor Action) (x : ℕ × Outcome) : Bool :=
  match c.threads[x.1]? with
  | some (.threadRemove t :: _) => t ∈ c.state.subscribed
  | _ => true

theorem accepted_of {c : Config ThreadMonitor Action} {x : ℕ × Outcome} (h : accepted c x = true) :
    Accepted c x := by
  intro t k hk
  rw [accepted, hk] at h
  exact of_decide_eq_true h

/-- `Outside`, computed. -/
def outside (c : Config ThreadMonitor Action) (x : ℕ × Outcome) : Bool :=
  match c.threads[x.1]? with
  | some (testCount :: _) => 0 < c.state.activeThreadCount ∨ c.state.mutexMonitor = .free
  | some (semWait :: _) => c.state.mutexMonitor = .free
  | _ => true

theorem outside_of {c : Config ThreadMonitor Action} {x : ℕ × Outcome} (h : outside c x = true) :
    Outside c x := by
  rintro a k hk (⟨rfl, hc⟩ | rfl)
  · rw [outside, hk] at h
    exact (of_decide_eq_true h).resolve_left (not_lt.mpr hc)
  · rw [outside, hk] at h
    exact of_decide_eq_true h

/-- A thread that subscribes and one that `thread_new` creates; the monitor is terminated while
they are inside, and returns after they are gone. -/
def twoThreads : List (ℕ × Outcome) :=
  [(0, .subscriber 7), (2, .ok), (0, .ok), (3, .created 8), (1, .ok), (1, .ok), (4, .ok), (4, .ok), (4, .ok),
    (4, .ok), (2, .ok), (2, .ok), (2, .ok), (1, .ok)]

theorem reach_waits_twoThreads :
    ∃ c, run act (fun c x => accepted c x && outside c x) start twoThreads = some c ∧
      c.state.returned = true ∧ Waits c.state := by
  obtain ⟨c, hc⟩ : ∃ c, run act (fun c x => accepted c x && outside c x) start twoThreads = some c :=
    Option.isSome_iff_exists.mp (by decide +kernel)
  refine ⟨c, hc, ?_, reach_waits (reach_of_run (fun _ _ h => ?_) .start hc)⟩
  · have h1 : (run act (fun c x => accepted c x && outside c x) start twoThreads).map
        (fun c => c.state.returned) = some true := by decide +kernel
    rw [hc] at h1
    exact Option.some.inj h1
  · obtain ⟨ha, ho⟩ := (Bool.and_eq_true _ _).mp h
    exact ⟨accepted_of ha, outside_of ho⟩

/-- A run that ends with `terminate_and_wait` returned and a thread inside breaks the wait. -/
theorem not_waits_of_run {check : Config ThreadMonitor Action → ℕ × Outcome → Bool}
    {ok : Config ThreadMonitor Action → ℕ × Outcome → Prop} (hok : ∀ c x, check c x = true → ok c x)
    (xs : List (ℕ × Outcome)) (t : Thread)
    (h : (run act check start xs).map (fun c => (c.state.returned, c.state.subscribed)) = some (true, [t])) :
    ¬ ∀ c, Reach act ok start c → Waits c.state := by
  intro hall
  obtain ⟨c, hc, h1⟩ := Option.map_eq_some_iff.mp h
  obtain ⟨h2, h3⟩ := Prod.ext_iff.mp h1
  have h4 := (hall c (reach_of_run hok .start hc)).waits h2
  exact List.cons_ne_nil t [] (h3.symm.trans h4)

/-- One thread is inside when `terminate_and_wait` begins to wait; another one subscribes, is
refused, and unsubscribes. -/
def refusedThread : List (ℕ × Outcome) :=
  [(0, .subscriber 7), (2, .ok), (1, .ok), (1, .ok), (0, .subscriber 8), (3, .ok), (3, .ok), (3, .ok), (3, .ok),
    (1, .ok)]

/-- The count is 0 with one thread inside, and `terminate_and_wait` returns. -/
theorem not_waits : ¬ ∀ c, Reach act (fun _ _ => True) start c → Waits c.state :=
  not_waits_of_run (fun c x (_ : (fun _ _ => true) c x = true) => trivial) refusedThread ⟨1, 7⟩
    (by decide +kernel)

/-- `terminate_and_wait` tests the count while the only thread is in the middle of
`thread_remove`. -/
def leavingThread : List (ℕ × Outcome) := [(0, .subscriber 7), (2, .ok), (1, .ok), (2, .ok), (1, .ok)]

/-- That every thread that is removed was added is not enough: the test has no mutex. -/
theorem not_waits_leaving : ¬ ∀ c, Reach act Accepted start c → Waits c.state :=
  not_waits_of_run (fun _ _ => accepted_of) leavingThread ⟨1, 7⟩ (by decide +kernel)

end Shared
end Kiss
