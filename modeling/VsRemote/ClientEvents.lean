import Mathlib.Data.List.Flatten
import Mathlib.Data.List.ReduceOption
import VsRemote.Lib.Lookup
import VsRemote.Lib.Runs

/-! The events of a client on their way to `on_event`: the transport thread puts them on
a queue, the event thread takes them off it, and `start` and `close` come and go. -/

namespace VsRemote

/-- How the event thread has ended: at the `None` of `close`, at an `_event_queue` that is
not set, at the `get` of `None`, or by an exception of `on_event` that is no `Exception`. -/
inductive EventEnding where
  | stopped
  | unset
  | noQueue
  | raised
  deriving DecidableEq

/-- The event thread in `_event_worker`; it holds on to the queue it gets from. -/
inductive EventWorker (E : Type) where
  | looping
  | tested
  | getting (queue : Nat)
  | handling (event : E)
  | ended (how : EventEnding)

/-- A `SimpleQueue` and the event thread that was started for it. The queue is all that
was ever put on it and how much of this was taken. -/
structure EventStage (E : Type) where
  puts : List (Option E) := []
  taken : Nat := 0
  worker : EventWorker E := .looping

/-- The transport thread in `_dispatch_response`; it looks `_event_queue` up a second time
before it puts the event on it. -/
inductive Dispatching (E : Type) where
  | idle
  | decoded (event : E)
  | putting (event : E) (queue : Nat)

def Dispatching.event? {E : Type} : Dispatching E → Option E
  | .idle => none
  | .decoded event => some event
  | .putting event _ => some event

/-- `received` and `handled` record the events put on a queue and given to `on_event`. -/
structure EventPipe (E : Type) where
  closed : Bool := false
  closing : Bool := false
  signalled : Bool := false
  eventQueue : Option Nat := none
  eventThread : Option Nat := none
  stages : List (EventStage E) := []
  dispatching : Dispatching E := .idle
  received : List E := []
  handled : List E := []

inductive EventLabel (E : Type) where
  | start
  | dispatch (event : E)
  | load
  | put
  | test (t : Nat)
  | fetch (t : Nat)
  | take (t : Nat)
  | handle (t : Nat) (raises : Bool)
  | close
  | signal
  | release

/-- The event that a step takes in. -/
def EventLabel.event? {E : Type} : EventLabel E → Option E
  | .dispatch event => some event
  | _ => none

variable {E : Type}

def EventWorker.isOver : EventWorker E → Bool
  | .ended _ => true
  | _ => false

namespace EventStage

variable (stage : EventStage E)

/-- All the events that were put on the queue. -/
def events : List E := stage.puts.reduceOption

/-- The events that were taken off it. -/
def given : List E := (stage.puts.take stage.taken).reduceOption

/-- The events that were put on it before the `None`. -/
def before : List E := (stage.puts.takeWhile Option.isSome).reduceOption

def put (item : Option E) : EventStage E := { stage with puts := stage.puts ++ [item] }

def setWorker (worker : EventWorker E) : EventStage E := { stage with worker := worker }

def take : EventStage E := { stage with taken := stage.taken + 1 }

section

variable {stage : EventStage E} {item : Option E} {event : E}

theorem events_put : (stage.put item).events = stage.events ++ item.toList := by
  unfold events put
  rw [List.reduceOption_append, List.reduceOption_singleton]

theorem given_put (hle : stage.taken ≤ stage.puts.length) : (stage.put item).given = stage.given := by
  unfold given put
  rw [List.take_append_of_le_length hle]

theorem given_take (hnext : stage.puts[stage.taken]? = some item) : stage.take.given = stage.given ++ item.toList := by
  unfold given take
  rw [List.take_add_one, hnext, Option.toList_some, List.reduceOption_append, List.reduceOption_singleton]

theorem given_prefix : stage.given <+: stage.events := (List.take_prefix ..).filterMap id

theorem takeWhile_append_of_mem {items : List (Option E)} (hnone : none ∈ items) :
    (items ++ [item]).takeWhile Option.isSome = items.takeWhile Option.isSome := by
  induction items with
  | nil => cases hnone
  | cons first items ih =>
    cases first with
    | none => rfl
    | some event =>
      have hrest : none ∈ items := by
        rcases List.mem_cons.1 hnone with h | h
        · cases h
        · exact h
      simp only [List.cons_append, List.takeWhile_cons, Option.isSome_some, if_true, ih hrest]

theorem before_put (hnone : none ∈ stage.puts) : (stage.put item).before = stage.before := by
  unfold before put
  rw [takeWhile_append_of_mem hnone]

/-- A thread that comes to the `None` has been given all the events before it. -/
theorem given_of_none (hopen : ∀ item ∈ stage.puts.take stage.taken, item.isSome = true)
    (hnext : stage.puts[stage.taken]? = some none) : stage.given = stage.before := by
  obtain ⟨hlt, hget⟩ := List.getElem?_eq_some_iff.1 hnext
  have hsplit : stage.puts = stage.puts.take stage.taken ++ none :: stage.puts.drop (stage.taken + 1) := by
    conv_lhs => rw [← List.take_append_drop stage.taken stage.puts]
    rw [List.drop_eq_getElem_cons hlt, hget]
  unfold given before
  conv_rhs => rw [hsplit]
  rw [List.takeWhile_append_of_pos hopen]
  simp

end

end EventStage

namespace EventPipe

variable (s : EventPipe E)

def modifyStage (t : Nat) (f : EventStage E → EventStage E) : EventPipe E := { s with stages := s.stages.modify t f }

/-- Whether `_event_thread` is there and alive. -/
def threadAlive : Bool :=
  match s.eventThread with
  | none => false
  | some t => match s.stages[t]? with
    | none => false
    | some stage => ! stage.worker.isOver

/-- `_start_worker_thread`, which `start` calls while the transport thread is not
`_running`, so that no response is being dispatched. -/
def stepStart : Option (EventPipe E) :=
  match s.dispatching with
  | .idle =>
    if s.closing ∨ s.closed then none
    else if s.threadAlive then some s
    else some { s with
      stages := s.stages ++ [{}]
      eventQueue := some s.stages.length
      eventThread := some s.stages.length }
  | _ => none

/-- `_dispatch_response` of an event, up to its decoding. -/
def stepDispatch (event : E) : Option (EventPipe E) :=
  match s.dispatching, s.eventQueue with
  | .idle, none => some s
  | .idle, some _ => some { s with dispatching := .decoded event }
  | _, _ => none

/-- The `self._event_queue` of the `put`, which fails if the queue is gone by now. -/
def stepLoad : Option (EventPipe E) :=
  match s.dispatching, s.eventQueue with
  | .decoded _, none => some { s with dispatching := .idle }
  | .decoded event, some q => some { s with dispatching := .putting event q }
  | _, _ => none

def stepPut : Option (EventPipe E) :=
  match s.dispatching with
  | .putting event q => some { s.modifyStage q (·.put (some event)) with
      dispatching := .idle
      received := s.received ++ [event] }
  | _ => none

def stepTest (t : Nat) : Option (EventPipe E) := do
  let stage ← s.stages[t]?
  match stage.worker, s.eventQueue with
  | .looping, none => some (s.modifyStage t (·.setWorker (.ended .unset)))
  | .looping, some _ => some (s.modifyStage t (·.setWorker .tested))
  | _, _ => none

def stepFetch (t : Nat) : Option (EventPipe E) := do
  let stage ← s.stages[t]?
  match stage.worker, s.eventQueue with
  | .tested, none => some (s.modifyStage t (·.setWorker (.ended .noQueue)))
  | .tested, some q => some (s.modifyStage t (·.setWorker (.getting q)))
  | _, _ => none

/-- `get()` returns, and an event is given to `on_event`. -/
def stepTake (t : Nat) : Option (EventPipe E) := do
  let stage ← s.stages[t]?
  match stage.worker with
  | .getting q => do
    let queue ← s.stages[q]?
    match queue.puts[queue.taken]? with
    | none => none
    | some none => some ((s.modifyStage q (·.take)).modifyStage t (·.setWorker (.ended .stopped)))
    | some (some event) =>
      some { (s.modifyStage q (·.take)).modifyStage t (·.setWorker (.handling event)) with
        handled := s.handled ++ [event] }
  | _ => none

def stepHandle (t : Nat) (raises : Bool) : Option (EventPipe E) := do
  let stage ← s.stages[t]?
  match stage.worker with
  | .handling _ => some (s.modifyStage t (·.setWorker (if raises then .ended .raised else .looping)))
  | _ => none

def stepClose : Option (EventPipe E) :=
  if s.closed then none else some { s with closed := true, closing := true }

/-- `close` puts its `None`. -/
def stepSignal : Option (EventPipe E) :=
  if s.closing ∧ s.signalled = false then
    match s.eventQueue with
    | none => some { s with signalled := true }
    | some q => some { s.modifyStage q (·.put none) with signalled := true }
  else none

/-- `close` has waited for the event thread, or given up waiting. -/
def stepRelease : Option (EventPipe E) :=
  if s.closing ∧ s.signalled then
    some { s with closing := false, eventQueue := none, eventThread := none }
  else none

def step : EventLabel E → EventPipe E → Option (EventPipe E)
  | .start, s => s.stepStart
  | .dispatch event, s => s.stepDispatch event
  | .load, s => s.stepLoad
  | .put, s => s.stepPut
  | .test t, s => s.stepTest t
  | .fetch t, s => s.stepFetch t
  | .take t, s => s.stepTake t
  | .handle t raises, s => s.stepHandle t raises
  | .close, s => s.stepClose
  | .signal, s => s.stepSignal
  | .release, s => s.stepRelease

variable {s s' t : EventPipe E} {l : EventLabel E}

/-- The steps of the event thread that take nothing off its queue. -/
inductive Proceeds (queue : Option Nat) : EventWorker E → EventWorker E → Prop
  | unset (hq : queue = none) : Proceeds queue .looping (.ended .unset)
  | test {q : Nat} (hq : queue = some q) : Proceeds queue .looping .tested
  | noQueue (hq : queue = none) : Proceeds queue .tested (.ended .noQueue)
  | fetch {q : Nat} (hq : queue = some q) : Proceeds queue .tested (.getting q)
  | handled (event : E) : Proceeds queue (.handling event) .looping
  | raised (event : E) : Proceeds queue (.handling event) (.ended .raised)

inductive StepTo (s : EventPipe E) (l : EventLabel E) : EventPipe E → Prop
  | stay : StepTo s l s
  | start (hidle : s.dispatching = .idle) (hopen : s.closed = false) (hdead : s.threadAlive = false) :
      StepTo s l { s with
        stages := s.stages ++ [{}]
        eventQueue := some s.stages.length
        eventThread := some s.stages.length }
  | dispatch {event : E} (hidle : s.dispatching = .idle) (hl : l = .dispatch event) :
      StepTo s l { s with dispatching := .decoded event }
  | load {event : E} {q : Nat} (hd : s.dispatching = .decoded event) (hq : s.eventQueue = some q) :
      StepTo s l { s with dispatching := .putting event q }
  | lost (hq : s.eventQueue = none) : StepTo s l { s with dispatching := .idle }
  | put {event : E} {q : Nat} (hd : s.dispatching = .putting event q) :
      StepTo s l { s.modifyStage q (·.put (some event)) with
        dispatching := .idle
        received := s.received ++ [event] }
  | work {i : Nat} {stage : EventStage E} {worker : EventWorker E} (ht : s.stages[i]? = some stage)
      (hw : Proceeds s.eventQueue stage.worker worker) : StepTo s l (s.modifyStage i (·.setWorker worker))
  | stop {i q : Nat} {stage queue : EventStage E} (ht : s.stages[i]? = some stage) (hw : stage.worker = .getting q)
      (hq : s.stages[q]? = some queue) (hnext : queue.puts[queue.taken]? = some none) :
      StepTo s l ((s.modifyStage q (·.take)).modifyStage i (·.setWorker (.ended .stopped)))
  | take {i q : Nat} {stage queue : EventStage E} {event : E} (ht : s.stages[i]? = some stage)
      (hw : stage.worker = .getting q) (hq : s.stages[q]? = some queue)
      (hnext : queue.puts[queue.taken]? = some (some event)) :
      StepTo s l { (s.modifyStage q (·.take)).modifyStage i (·.setWorker (.handling event)) with
        handled := s.handled ++ [event] }
  | close : StepTo s l { s with closed := true, closing := true }
  | signal {q : Nat} (hc : s.closing = true) (hq : s.eventQueue = some q) :
      StepTo s l { s.modifyStage q (·.put none) with signalled := true }
  | signalNone : StepTo s l { s with signalled := true }
  | release (hc : s.closing = true) :
      StepTo s l { s with closing := false, eventQueue := none, eventThread := none }

theorem step_to (hs : step l s = some s') : StepTo s l s' := by
  cases l with
  | start =>
    simp only [step, stepStart] at hs
    split at hs
    · next hidle =>
      split at hs
      · cases hs
      · next hopen =>
        split at hs
        · exact Option.some.inj hs ▸ .stay
        · next hdead =>
          have hclosed : s.closed = false := Bool.eq_false_iff.2 (fun hc => hopen (.inr hc))
          exact Option.some.inj hs ▸ .start hidle hclosed (Bool.eq_false_iff.2 hdead)
    · cases hs
  | dispatch event =>
    simp only [step, stepDispatch] at hs
    split at hs
    · exact Option.some.inj hs ▸ .stay
    · next hidle _ => exact Option.some.inj hs ▸ .dispatch hidle rfl
    · cases hs
  | load =>
    simp only [step, stepLoad] at hs
    split at hs
    · next hq => exact Option.some.inj hs ▸ .lost hq
    · next hd hq => exact Option.some.inj hs ▸ .load hd hq
    · cases hs
  | put =>
    simp only [step, stepPut] at hs
    split at hs
    · next hd => exact Option.some.inj hs ▸ .put hd
    · cases hs
  | test i =>
    obtain ⟨stage, ht, hs⟩ := Option.bind_eq_some_iff.1 hs
    split at hs
    · next hw hq => exact Option.some.inj hs ▸ .work ht (hw ▸ .unset hq)
    · next hw hq => exact Option.some.inj hs ▸ .work ht (hw ▸ .test hq)
    · cases hs
  | fetch i =>
    obtain ⟨stage, ht, hs⟩ := Option.bind_eq_some_iff.1 hs
    split at hs
    · next hw hq => exact Option.some.inj hs ▸ .work ht (hw ▸ .noQueue hq)
    · next hw hq => exact Option.some.inj hs ▸ .work ht (hw ▸ .fetch hq)
    · cases hs
  | take i =>
    obtain ⟨stage, ht, hs⟩ := Option.bind_eq_some_iff.1 hs
    split at hs
    · next q hw =>
      obtain ⟨queue, hq, hs⟩ := Option.bind_eq_some_iff.1 hs
      split at hs
      · cases hs
      · next hnext => exact Option.some.inj hs ▸ .stop ht hw hq hnext
      · next event hnext => exact Option.some.inj hs ▸ .take ht hw hq hnext
    · cases hs
  | handle i raises =>
    obtain ⟨stage, ht, hs⟩ := Option.bind_eq_some_iff.1 hs
    split at hs
    · next event hw =>
      cases raises with
      | false => exact Option.some.inj hs ▸ .work ht (hw ▸ .handled event)
      | true => exact Option.some.inj hs ▸ .work ht (hw ▸ .raised event)
    · cases hs
  | close =>
    simp only [step, stepClose] at hs
    split at hs
    · cases hs
    · exact Option.some.inj hs ▸ .close
  | signal =>
    simp only [step, stepSignal] at hs
    split at hs
    · next hc =>
      split at hs
      · exact Option.some.inj hs ▸ .signalNone
      · next hq => exact Option.some.inj hs ▸ .signal hc.1 hq
    · cases hs
  | release =>
    simp only [step, stepRelease] at hs
    split at hs
    · next hc => exact Option.some.inj hs ▸ .release hc.1
    · cases hs

/-- One stage, the `i`-th: its thread gets from its own queue only, has not passed the
`None` of the queue, and stops there. -/
structure Sound (i : Nat) (stage : EventStage E) : Prop where
  bound : stage.taken ≤ stage.puts.length
  waits : ∀ q, stage.worker = .getting q → q = i
  passed : stage.worker.isOver = false → ∀ item ∈ stage.puts.take stage.taken, item.isSome = true
  stopped : stage.worker = .ended .stopped → none ∈ stage.puts ∧ stage.given = stage.before

/-- All threads but the last are over, the last queue is the one in use, and the records
are those of the queues one after the other. -/
structure Orderly (s : EventPipe E) : Prop where
  queue : ∀ q, s.eventQueue = some q → q + 1 = s.stages.length
  thread : ∀ i, s.eventThread = some i → i + 1 = s.stages.length
  putting : ∀ event q, s.dispatching = .putting event q → q + 1 = s.stages.length
  unset : s.eventQueue = none ∨ s.eventThread = none → s.closed = true ∨ s.stages = []
  closing : s.closing = true → s.closed = true
  last : ∀ (i : Nat) (stage : EventStage E), s.stages[i]? = some stage → stage.worker.isOver = false →
    i + 1 = s.stages.length
  sound : ∀ (i : Nat) (stage : EventStage E), s.stages[i]? = some stage → Sound i stage
  signalled : ∀ stage ∈ s.stages, none ∈ stage.puts → s.closed = true
  ended : ∀ stage ∈ s.stages, ∀ how, stage.worker = .ended how → how = .raised ∨ s.closed = true
  received : s.received = s.stages.flatMap EventStage.events
  handled : s.handled = s.stages.flatMap EventStage.given

/-- What a change of the last entry makes of a list of lists. -/
theorem flatMap_modify_last {α β : Type} {xs : List α} {i : Nat} {x : α} {f : α → α} {g : α → List β} {more : List β}
    (hx : xs[i]? = some x) (hlast : i + 1 = xs.length) (hg : g (f x) = g x ++ more) :
    (xs.modify i f).flatMap g = xs.flatMap g ++ more := by
  induction xs generalizing i with
  | nil => cases hx
  | cons first xs ih =>
    cases i with
    | zero =>
      obtain rfl := Option.some.inj hx
      have hnil : xs = [] := List.length_eq_zero_iff.1 (Nat.succ.inj hlast).symm
      subst hnil
      simp only [List.modify_zero_cons, List.flatMap_cons, List.flatMap_nil, List.append_nil, hg]
    | succ i =>
      rw [List.modify_succ_cons, List.flatMap_cons, ih hx (Nat.succ.inj hlast), List.flatMap_cons, List.append_assoc]

/-- A change of the last stage. -/
theorem Orderly.modify (f : EventStage E → EventStage E) (received handled : List E) (dispatching : Dispatching E)
    (signalled : Bool) {i : Nat} {stage : EventStage E} (hi : s.Orderly) (ht : s.stages[i]? = some stage)
    (hlast : i + 1 = s.stages.length) (hd : dispatching = .idle ∨ dispatching = s.dispatching) (hsound : Sound i (f stage))
    (hnone : none ∈ (f stage).puts → s.closed = true)
    (hended : ∀ how, (f stage).worker = .ended how → how = .raised ∨ s.closed = true)
    (hevents : (f stage).events = stage.events ++ received) (hgiven : (f stage).given = stage.given ++ handled) :
    Orderly { s.modifyStage i f with
      dispatching := dispatching
      signalled := signalled
      received := s.received ++ received
      handled := s.handled ++ handled } := by
  have hlen : (s.stages.modify i f).length = s.stages.length := List.length_modify ..
  have hentry : ∀ (j : Nat) (stage' : EventStage E), (s.stages.modify i f)[j]? = some stage' →
      (j = i ∧ stage' = f stage) ∨ s.stages[j]? = some stage' := by
    intro j stage' hj
    obtain ⟨stage₀, h₀, ⟨rfl, rfl⟩ | ⟨-, rfl⟩⟩ := Lookup.of_modify hj
    · rw [ht] at h₀
      exact .inl ⟨rfl, congrArg f (Option.some.inj h₀).symm⟩
    · exact .inr h₀
  have hmem : ∀ stage' ∈ s.stages.modify i f, stage' = f stage ∨ stage' ∈ s.stages := by
    intro stage' hmem
    obtain ⟨j, hj⟩ := List.mem_iff_getElem?.1 hmem
    rcases hentry j stage' hj with ⟨-, rfl⟩ | hj
    · exact .inl rfl
    · exact .inr (List.mem_of_getElem? hj)
  refine ⟨fun q hq => hlen ▸ hi.queue q hq, fun j hj => hlen ▸ hi.thread j hj, fun event q hput => ?_, fun hun => ?_,
    hi.closing, ?_, ?_, ?_, ?_, ?_, ?_⟩
  · change dispatching = .putting event q at hput
    subst hput
    rcases hd with hd | hd
    · cases hd
    · exact hlen ▸ hi.putting event q hd.symm
  · refine (hi.unset hun).imp_right (fun hnil => ?_)
    rw [hnil] at ht
    cases ht
  · intro j stage' hj hover
    rcases hentry j stage' hj with ⟨rfl, -⟩ | hj
    · exact hlen ▸ hlast
    · exact hlen ▸ hi.last j stage' hj hover
  · intro j stage' hj
    rcases hentry j stage' hj with ⟨rfl, rfl⟩ | hj
    · exact hsound
    · exact hi.sound j stage' hj
  · intro stage' hmem' hn
    rcases hmem stage' hmem' with rfl | hmem'
    · exact hnone hn
    · exact hi.signalled stage' hmem' hn
  · intro stage' hmem' how hover
    rcases hmem stage' hmem' with rfl | hmem'
    · exact hended how hover
    · exact hi.ended stage' hmem' how hover
  · change s.received ++ received = (s.stages.modify i f).flatMap EventStage.events
    rw [flatMap_modify_last ht hlast hevents, hi.received]
  · change s.handled ++ handled = (s.stages.modify i f).flatMap EventStage.given
    rw [flatMap_modify_last ht hlast hgiven, hi.handled]

theorem orderly_init : Orderly ({} : EventPipe E) := by
  refine ⟨?_, ?_, ?_, ?_, ?_, ?_, ?_, ?_, ?_, rfl, rfl⟩
  · exact fun _ h => by cases h
  · exact fun _ h => by cases h
  · exact fun _ _ h => by cases h
  · exact fun _ => .inr rfl
  · exact fun h => by cases h
  · exact fun _ _ h => by cases h
  · exact fun _ _ h => by cases h
  · exact fun _ h => by cases h
  · exact fun _ h => by cases h

/-- `_event_thread` is dead only if every event thread is. -/
theorem Orderly.dead (hi : s.Orderly) (hopen : s.closed = false) (hdead : s.threadAlive = false) {i : Nat}
    {stage : EventStage E} (ht : s.stages[i]? = some stage) : stage.worker.isOver = true := by
  by_contra hover
  have hover' : stage.worker.isOver = false := Bool.eq_false_iff.2 hover
  have hlast := hi.last i stage ht hover'
  cases hthread : s.eventThread with
  | none =>
    rcases hi.unset (.inr hthread) with hc | hnil
    · rw [hopen] at hc
      cases hc
    · rw [hnil] at ht
      cases ht
  | some j =>
    have hsame : j = i := by
      have hj := hi.thread j hthread
      omega
    subst hsame
    simp [threadAlive, hthread, ht, hover'] at hdead

theorem Orderly.start (hi : s.Orderly) (hidle : s.dispatching = .idle) (hopen : s.closed = false) (hdead : s.threadAlive = false) :
    Orderly { s with
      stages := s.stages ++ [{}]
      eventQueue := some s.stages.length
      eventThread := some s.stages.length } := by
  have hlen : (s.stages ++ [({} : EventStage E)]).length = s.stages.length + 1 := List.length_append
  refine ⟨fun q hq => ?_, fun j hj => ?_, fun event q hput => ?_, fun hun => ?_, hi.closing, ?_, ?_, ?_, ?_, ?_, ?_⟩
  · obtain rfl := Option.some.inj hq
    exact hlen.symm
  · obtain rfl := Option.some.inj hj
    exact hlen.symm
  · cases hidle.symm.trans hput
  · rcases hun with h | h <;> cases h
  · intro j stage hj hover
    rcases Lookup.of_append hj with hj | ⟨rfl, -⟩
    · rw [hi.dead hopen hdead hj] at hover
      cases hover
    · exact hlen.symm
  · intro j stage hj
    rcases Lookup.of_append hj with hj | ⟨-, rfl⟩
    · exact hi.sound j stage hj
    · exact ⟨Nat.le_refl _, (fun _ h => by cases h), (fun _ _ h => by cases h), (fun h => by cases h)⟩
  · intro stage hmem hnone
    rcases List.mem_append.1 hmem with hmem | hmem
    · exact hi.signalled stage hmem hnone
    · rw [List.mem_singleton.1 hmem] at hnone
      cases hnone
  · intro stage hmem how hover
    rcases List.mem_append.1 hmem with hmem | hmem
    · exact hi.ended stage hmem how hover
    · rw [List.mem_singleton.1 hmem] at hover
      cases hover
  · change s.received = (s.stages ++ [({} : EventStage E)]).flatMap EventStage.events
    rw [List.flatMap_append, hi.received]
    exact (List.append_nil _).symm
  · change s.handled = (s.stages ++ [({} : EventStage E)]).flatMap EventStage.given
    rw [List.flatMap_append, hi.handled]
    exact (List.append_nil _).symm

theorem Proceeds.alive {queue : Option Nat} {worker worker' : EventWorker E} (hw : Proceeds queue worker worker') :
    worker.isOver = false := by
  cases hw <;> rfl

/-- The item goes on the last queue, whose thread may be anywhere. -/
theorem Orderly.put (item : Option E) (dispatching : Dispatching E) (signalled : Bool) {q : Nat} (hi : s.Orderly)
    (hlast : q + 1 = s.stages.length) (hd : dispatching = .idle ∨ dispatching = s.dispatching) (hitem : item = none → s.closed = true) :
    Orderly { s.modifyStage q (·.put item) with
      dispatching := dispatching
      signalled := signalled
      received := s.received ++ item.toList } := by
  obtain ⟨stage, ht⟩ : ∃ stage, s.stages[q]? = some stage := ⟨_, List.getElem?_eq_getElem (by omega)⟩
  have hsound := hi.sound q stage ht
  have hkept : stage.taken ≤ stage.puts.length := hsound.bound
  have htake : (stage.put item).puts.take (stage.put item).taken = stage.puts.take stage.taken :=
    List.take_append_of_le_length hkept
  have hput : Sound q (stage.put item) := by
    refine ⟨?_, hsound.waits, fun hover => htake ▸ hsound.passed hover, fun hover => ?_⟩
    · exact Nat.le_trans hkept (List.length_append ▸ Nat.le_add_right ..)
    · obtain ⟨hnone, hgiven⟩ := hsound.stopped hover
      refine ⟨List.mem_append_left _ hnone, ?_⟩
      rw [EventStage.given_put hkept, EventStage.before_put hnone]
      exact hgiven
  have hnone : none ∈ (stage.put item).puts → s.closed = true := by
    intro hmem
    rcases List.mem_append.1 hmem with hmem | hmem
    · exact hi.signalled stage (List.mem_of_getElem? ht) hmem
    · exact hitem (List.mem_singleton.1 hmem).symm
  have hgiven : (stage.put item).given = stage.given ++ [] := by
    rw [EventStage.given_put hkept, List.append_nil]
  have hchanged := hi.modify (·.put item) item.toList [] dispatching signalled ht hlast hd hput hnone
    (hi.ended stage (List.mem_of_getElem? ht)) EventStage.events_put hgiven
  rw [List.append_nil] at hchanged
  exact hchanged

theorem Orderly.work {i : Nat} {stage : EventStage E} {worker : EventWorker E} (hi : s.Orderly)
    (ht : s.stages[i]? = some stage) (hw : Proceeds s.eventQueue stage.worker worker) :
    (s.modifyStage i (·.setWorker worker)).Orderly := by
  have hsound := hi.sound i stage ht
  have hlast := hi.last i stage ht hw.alive
  have hpassed := hsound.passed hw.alive
  have hunset : s.eventQueue = none → s.closed = true := by
    intro hq
    refine (hi.unset (.inl hq)).resolve_right (fun hnil => ?_)
    rw [hnil] at ht
    cases ht
  have hset : Sound i (stage.setWorker worker) := by
    refine ⟨hsound.bound, fun q hget => ?_, fun _ => hpassed, fun hstop => ?_⟩
    · change worker = .getting q at hget
      subst hget
      generalize stage.worker = old at hw
      cases hw with
      | fetch hq =>
        have hlen := hi.queue q hq
        omega
    · change worker = .ended .stopped at hstop
      subst hstop
      generalize stage.worker = old at hw
      cases hw
  have hended : ∀ how, (stage.setWorker worker).worker = .ended how → how = .raised ∨ s.closed = true := by
    intro how hover
    change worker = .ended how at hover
    subst hover
    generalize stage.worker = old at hw
    cases hw with
    | unset hq => exact .inr (hunset hq)
    | noQueue hq => exact .inr (hunset hq)
    | raised => exact .inl rfl
  have hchanged := hi.modify (·.setWorker worker) [] [] s.dispatching s.signalled ht hlast (.inr rfl) hset
    (hi.signalled stage (List.mem_of_getElem? ht)) hended (List.append_nil _).symm (List.append_nil _).symm
  simp only [List.append_nil] at hchanged
  exact hchanged

/-- The thread takes the next item off its own queue. -/
theorem Orderly.taken (worker : EventWorker E) {i : Nat} {stage : EventStage E} {item : Option E} (hi : s.Orderly)
    (ht : s.stages[i]? = some stage) (hover : stage.worker.isOver = false) (hnext : stage.puts[stage.taken]? = some item)
    (hget : ∀ q, worker ≠ .getting q) (hopen : worker.isOver = false → item.isSome = true)
    (hover' : ∀ how, worker = .ended how → how = .stopped ∧ item = none) :
    Orderly { (s.modifyStage i (·.take)).modifyStage i (·.setWorker worker) with
      handled := s.handled ++ item.toList } := by
  have hsound := hi.sound i stage ht
  have hpassed := hsound.passed hover
  have hgiven : (stage.take.setWorker worker).given = stage.given ++ item.toList := EventStage.given_take hnext
  have hset : Sound i (stage.take.setWorker worker) := by
    refine ⟨?_, fun q hq => absurd hq (hget q), fun hover₁ => ?_, fun hstop => ?_⟩
    · exact Lookup.lt_length hnext
    · intro entry hmem
      change entry ∈ stage.puts.take (stage.taken + 1) at hmem
      rw [List.take_add_one, hnext] at hmem
      rcases List.mem_append.1 hmem with hmem | hmem
      · exact hpassed entry hmem
      · rw [List.mem_singleton.1 hmem]
        exact hopen hover₁
    · obtain ⟨-, rfl⟩ := hover' .stopped hstop
      refine ⟨List.mem_of_getElem? hnext, ?_⟩
      rw [hgiven]
      change stage.given ++ [] = stage.before
      rw [List.append_nil]
      exact EventStage.given_of_none hpassed hnext
  have hended : ∀ how, (stage.take.setWorker worker).worker = .ended how → how = .raised ∨ s.closed = true := by
    intro how hhow
    obtain ⟨-, rfl⟩ := hover' how hhow
    exact .inr (hi.signalled stage (List.mem_of_getElem? ht) (List.mem_of_getElem? hnext))
  have hchanged := hi.modify (fun stage => stage.take.setWorker worker) [] item.toList s.dispatching s.signalled ht
    (hi.last i stage ht hover) (.inr rfl) hset (hi.signalled stage (List.mem_of_getElem? ht)) hended (List.append_nil _).symm hgiven
  simp only [List.append_nil] at hchanged
  have hsame : (s.modifyStage i (·.take)).modifyStage i (·.setWorker worker) =
      s.modifyStage i (fun stage => stage.take.setWorker worker) := by
    unfold modifyStage
    simp only [List.modify_modify_eq]
    rfl
  rw [hsame]
  exact hchanged

theorem Orderly.dispatching {dispatching : Dispatching E} (hi : s.Orderly)
    (hd : ∀ event q, dispatching = .putting event q → q + 1 = s.stages.length) :
    Orderly { s with dispatching := dispatching } :=
  ⟨hi.queue, hi.thread, hd, hi.unset, hi.closing, hi.last, hi.sound, hi.signalled, hi.ended, hi.received, hi.handled⟩

theorem Orderly.step (hi : s.Orderly) (hs : EventPipe.step l s = some s') : s'.Orderly := by
  cases step_to hs with
  | stay => exact hi
  | start hidle hopen hdead => exact hi.start hidle hopen hdead
  | dispatch => exact hi.dispatching (fun _ _ hput => by cases hput)
  | load _ hq =>
    refine hi.dispatching (fun event q hput => ?_)
    obtain ⟨-, rfl⟩ := Dispatching.putting.inj hput
    exact hi.queue _ hq
  | lost => exact hi.dispatching (fun _ _ hput => by cases hput)
  | put hd => exact hi.put (some _) .idle s.signalled (hi.putting _ _ hd) (.inl rfl) (fun h => by cases h)
  | work ht hw => exact hi.work ht hw
  | @stop i q stage queue ht hw hq hnext =>
    obtain rfl := (hi.sound i stage ht).waits q hw
    obtain rfl := Option.some.inj (ht.symm.trans hq)
    have hstopped := hi.taken (.ended .stopped) ht (by rw [hw]; rfl) hnext (fun _ h => by cases h)
      (fun h => by cases h) (fun how h => by cases h; exact ⟨rfl, rfl⟩)
    simp only [Option.toList_none, List.append_nil] at hstopped
    exact hstopped
  | @take i q stage queue event ht hw hq hnext =>
    obtain rfl := (hi.sound i stage ht).waits q hw
    obtain rfl := Option.some.inj (ht.symm.trans hq)
    exact hi.taken _ ht (by rw [hw]; rfl) hnext (fun _ h => by cases h) (fun _ => rfl) (fun how h => by cases h)
  | close =>
    exact ⟨hi.queue, hi.thread, hi.putting, fun _ => .inl rfl, fun _ => rfl, hi.last, hi.sound, fun _ _ _ => rfl,
      fun _ _ _ _ => .inr rfl, hi.received, hi.handled⟩
  | signal hc hq =>
    have hput := hi.put none s.dispatching true (hi.queue _ hq) (.inr rfl) (fun _ => hi.closing hc)
    simp only [Option.toList_none, List.append_nil] at hput
    exact hput
  | signalNone =>
    exact ⟨hi.queue, hi.thread, hi.putting, hi.unset, hi.closing, hi.last, hi.sound, hi.signalled, hi.ended, hi.received,
      hi.handled⟩
  | release hc =>
    have hclosed := hi.closing hc
    exact ⟨(fun _ h => by cases h), (fun _ h => by cases h), hi.putting, fun _ => .inl hclosed, fun _ => hclosed, hi.last,
      hi.sound, fun _ _ _ => hclosed, fun _ _ _ _ => .inr hclosed, hi.received, hi.handled⟩

theorem Orderly.run {ls : List (EventLabel E)} (hi : s.Orderly) (hr : Runs.run EventPipe.step ls s = some s') :
    s'.Orderly := Runs.run_inv (fun _ _ _ hi hs => hi.step hs) hi hr

/-- The events that `_dispatch_response` has decoded. -/
def seen (s : EventPipe E) : List E := s.received ++ s.dispatching.event?.toList

theorem step_seen_sublist (hs : step l s = some s') : s'.seen.Sublist (s.seen ++ l.event?.toList) := by
  have hkept : s.seen.Sublist (s.seen ++ l.event?.toList) := List.sublist_append_left _ _
  cases step_to hs with
  | @dispatch event hidle hl =>
    subst hl
    exact (List.sublist_append_left _ _).append (List.Sublist.refl _)
  | load hd =>
    refine List.Sublist.trans ?_ hkept
    unfold seen
    rw [hd]
    exact List.Sublist.refl _
  | lost =>
    have hless : (s.received ++ []).Sublist s.seen := by
      rw [List.append_nil]
      exact List.sublist_append_left _ _
    exact hless.trans hkept
  | @put event q hd =>
    refine List.Sublist.trans ?_ hkept
    unfold seen
    rw [hd]
    change (s.received ++ [event] ++ []).Sublist (s.received ++ [event])
    rw [List.append_nil]
  | _ => exact hkept

theorem step_seen {event : E} (hs : step l s = some s') (hmem : event ∈ s'.seen) : event ∈ s.seen ∨ l = .dispatch event := by
  rcases List.mem_append.1 ((step_seen_sublist hs).subset hmem) with hold | hnew
  · exact .inl hold
  · cases l with
    | dispatch event' =>
      rw [List.mem_singleton.1 hnew]
      exact .inr rfl
    | _ => cases hnew

theorem step_dispatch {event : E} (hs : step (.dispatch event) s = some s') : s.dispatching = .idle ∧
    (s.eventQueue = none ∨ s' = { s with dispatching := .decoded event }) := by
  simp only [step, stepDispatch] at hs
  split at hs
  · next hidle hq => exact ⟨hidle, .inl hq⟩
  · next hidle _ => exact ⟨hidle, .inr (Option.some.inj hs).symm⟩
  · cases hs

theorem open_of_step (hs : step l s = some s') (hopen : s'.closed = false) : s.closed = false := by
  cases step_to hs with
  | close => cases hopen
  | _ => exact hopen

/-- While the transport is open no event is lost. -/
theorem Orderly.step_open (hi : s.Orderly) (hs : EventPipe.step l s = some s') (hq : s.eventQueue ≠ none)
    (hopen : s'.closed = false) : s'.eventQueue ≠ none ∧ s'.seen = s.seen ++ l.event?.toList := by
  cases hevent : l.event? with
  | some event =>
    obtain rfl : l = .dispatch event := by
      cases l with
      | dispatch event' => rw [Option.some.inj hevent]
      | _ => cases hevent
    obtain ⟨hidle, hnone | rfl⟩ := step_dispatch hs
    · exact absurd hnone hq
    · refine ⟨hq, ?_⟩
      unfold seen
      rw [hidle]
      exact congrArg (· ++ [event]) (List.append_nil s.received).symm
  | none =>
    have hsame : s.seen = s.seen ++ (none : Option E).toList := (List.append_nil _).symm
    cases step_to hs with
    | start => exact ⟨(fun h => by cases h), hsame⟩
    | dispatch _ hl =>
      rw [hl] at hevent
      cases hevent
    | load hd =>
      refine ⟨hq, Eq.trans ?_ hsame⟩
      unfold seen
      rw [hd]
      rfl
    | lost hnone => exact absurd hnone hq
    | @put event q hd =>
      refine ⟨hq, Eq.trans ?_ hsame⟩
      unfold seen
      rw [hd]
      exact List.append_nil _
    | close => cases hopen
    | release hc =>
      have hclosed : s.closed = true := hi.closing hc
      rw [show s.closed = false from hopen] at hclosed
      cases hclosed
    | _ => exact ⟨hq, hsame⟩

/-- The transport after its first `start`. -/
def started : EventPipe E := { stages := [{}], eventQueue := some 0, eventThread := some 0 }

theorem orderly_started : Orderly (started : EventPipe E) := by
  have hs : EventPipe.step .start ({} : EventPipe E) = some started := rfl
  exact orderly_init.step hs

theorem Orderly.handled_sublist (hi : s.Orderly) : s.handled.Sublist s.received := by
  rw [hi.handled, hi.received]
  exact List.Sublist.flatMap_right _ (fun _ _ => EventStage.given_prefix.sublist)

/-- The event thread of the `i`-th stage has ended or waits in `get()`. -/
def Waiting (s : EventPipe E) (i : Nat) : Prop :=
  step (.test i) s = none ∧ step (.fetch i) s = none ∧ step (.take i) s = none ∧ step (.handle i false) s = none

/-- A thread waits only in the `get()` of an empty queue. -/
theorem Orderly.given_of_waiting {i : Nat} {stage : EventStage E} (hi : s.Orderly) (ht : s.stages[i]? = some stage)
    (hover : stage.worker.isOver = false) (hw : s.Waiting i) : stage.given = stage.events := by
  obtain ⟨htest, hfetch, htake, hhandle⟩ := hw
  have hsound := hi.sound i stage ht
  cases hworker : stage.worker with
  | looping => cases hq : s.eventQueue <;> simp [EventPipe.step, stepTest, ht, hworker, hq] at htest
  | tested => cases hq : s.eventQueue <;> simp [EventPipe.step, stepFetch, ht, hworker, hq] at hfetch
  | handling event => simp [EventPipe.step, stepHandle, ht, hworker] at hhandle
  | ended how =>
    rw [hworker] at hover
    cases hover
  | getting q =>
    obtain rfl := hsound.waits q hworker
    have hnext : stage.puts[stage.taken]? = none := by
      cases hnext : stage.puts[stage.taken]? with
      | none => rfl
      | some item => cases item <;> simp [EventPipe.step, stepTake, ht, hworker, hnext] at htake
    unfold EventStage.given EventStage.events
    rw [List.take_of_length_le (List.getElem?_eq_none_iff.1 hnext)]

/-- What came, `on_event` has been given when the threads have nothing more to do. -/
theorem Orderly.handled_eq (hi : s.Orderly) (hopen : s.closed = false)
    (hraised : ∀ stage ∈ s.stages, stage.worker ≠ .ended .raised) (hwaiting : ∀ i, s.Waiting i) : s.handled = s.received := by
  have hall : ∀ stage ∈ s.stages, stage.given = stage.events := by
    intro stage hmem
    obtain ⟨i, ht⟩ := List.mem_iff_getElem?.1 hmem
    have hover : stage.worker.isOver = false := by
      cases hworker : stage.worker with
      | ended how =>
        rcases hi.ended stage hmem how hworker with rfl | hclosed
        · exact absurd hworker (hraised stage hmem)
        · rw [hopen] at hclosed
          cases hclosed
      | _ => rfl
    exact hi.given_of_waiting ht hover (hwaiting i)
  rw [hi.handled, hi.received]
  exact List.flatMap_congr hall

/-- `on_event` is given the events in the order in which they came, none of them twice, and
misses none while the transport is open and `on_event` raises no `BaseException`. An event
thread ends only through such a raise or `close`, and if at the `None` of `close`, then
with all the events before it handled. -/
theorem events_in_order {ls : List (EventLabel E)} (hr : Runs.run EventPipe.step ls {} = some s) :
    s.handled.Sublist s.received ∧
      (s.closed = false → (∀ stage ∈ s.stages, stage.worker ≠ .ended .raised) → (∀ i, s.Waiting i) →
        s.handled = s.received) ∧
      ∀ stage ∈ s.stages, stage.given <+: stage.events ∧ (stage.worker = .ended .stopped → stage.given = stage.before) ∧
        ∀ how, stage.worker = .ended how → how = .raised ∨ s.closed = true := by
  have hi := orderly_init.run hr
  refine ⟨hi.handled_sublist, hi.handled_eq, fun stage hmem => ?_⟩
  obtain ⟨i, ht⟩ := List.mem_iff_getElem?.1 hmem
  exact ⟨EventStage.given_prefix, fun hstop => ((hi.sound i stage ht).stopped hstop).2, hi.ended stage hmem⟩

/-- The first event thread dies of event 1 and never handles 2; the second one handles 3,
and 4 comes after the `None`. -/
def raisingEvents : List (EventLabel Nat) :=
  [.start, .dispatch 1, .load, .put, .test 0, .fetch 0, .take 0, .dispatch 2, .load, .put, .handle 0 true,
    .start, .dispatch 3, .load, .put, .test 1, .fetch 1, .dispatch 4, .load, .close, .signal, .put, .take 1,
    .handle 1 false, .test 1, .fetch 1, .take 1, .release]

theorem events_in_order_raising : ∃ s : EventPipe Nat, Runs.run EventPipe.step raisingEvents {} = some s ∧
    s.received = [1, 2, 3, 4] ∧ s.handled = [1, 3] ∧ s.handled.Sublist s.received := by
  refine ⟨_, rfl, rfl, rfl, ?_⟩
  exact (events_in_order (rfl : Runs.run EventPipe.step raisingEvents {} = some _)).1

end EventPipe

end VsRemote
