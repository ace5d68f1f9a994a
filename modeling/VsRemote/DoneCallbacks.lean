import VsRemote.ClientThreads
import VsRemote.Lib.Halting

/-! One thread in the operations of the `RequestTracker`. Settling a future runs
its done-callbacks on the same thread, and they may come back to the tracker. -/

namespace VsRemote

/-- What a thread does with the tracker and with futures. A callback is the list
of what it does; `onDone` is the one `send_request` adds. -/
inductive ThreadAction (α : Type) where
  | allocate (decode : Bytes → Except PyExc α)
  | pop (reqId : Nat)
  | resolve (reqId : Nat) (frames : List Bytes)
  | cancel (reqId : Nat)
  | close (exc : Option PyExc)
  | sendRequest (decode : Bytes → Except PyExc α) (failure : Option PyExc)
  | onDone (future reqId : Nat)
  | settle (future : Nat) (o : RequestOutcome α)
  | addDoneCallback (future : Nat) (callback : List (ThreadAction α))

/-- The callbacks of a future, one after the other. -/
structure CallbackFuture (α : Type) where
  outcome : Option (RequestOutcome α) := none
  callbacks : List (ThreadAction α) := []

/-- What is left to do on the thread; `endClose` is the end of the `with` block of `close`. -/
inductive Frame (α : Type) where
  | run (a : ThreadAction α)
  | endClose

/-- The thread holds `_lock` when `locked`. -/
structure TrackerThread (α : Type) where
  tracker : RequestTracker α := {}
  futures : List (CallbackFuture α) := []
  locked : Bool := false
  stack : List (Frame α) := []

namespace ThreadAction

variable {α : Type}

/-- Whether the action begins with an operation of the tracker. -/
def usesTracker : ThreadAction α → Bool
  | .onDone .. | .settle .. | .addDoneCallback .. => false
  | _ => true

/-- What an action does to the futures, and the callbacks it runs. -/
def onFutures (fs : List (CallbackFuture α)) : ThreadAction α → List (ThreadAction α) × List (CallbackFuture α)
  | .onDone f reqId =>
    match (fs[f]?).bind CallbackFuture.outcome with
    | some .cancelled => ([.cancel reqId], fs)
    | _ => ([], fs)
  | .settle f o =>
    match fs[f]? with
    | some { outcome := none, callbacks } => (callbacks, fs.modify f (fun fut => { fut with outcome := some o }))
    | _ => ([], fs)
  | .addDoneCallback f callback =>
    match fs[f]? with
    | some { outcome := some _, .. } => (callback, fs)
    | some { outcome := none, .. } => ([], fs.modify f (fun fut => { fut with callbacks := fut.callbacks ++ callback }))
    | none => ([], fs)
  | _ => ([], fs)

mutual

/-- Above every action that this one puts before the rest of the thread. -/
def rank : ThreadAction α → Nat
  | .settle .. | .pop _ => 0
  | .allocate _ | .resolve .. | .cancel _ | .close _ => 1
  | .onDone .. => 2
  | .addDoneCallback _ callback => callbackRank callback + 1
  | .sendRequest .. => 4

def callbackRank : List (ThreadAction α) → Nat
  | [] => 0
  | a :: callback => max a.rank (callbackRank callback)

end

theorem rank_le_callbackRank {a : ThreadAction α} {callback : List (ThreadAction α)} (h : a ∈ callback) :
    a.rank ≤ callbackRank callback := by
  induction callback with
  | nil => cases h
  | cons b callback ih =>
    rw [callbackRank]
    rcases List.mem_cons.1 h with rfl | h
    · exact le_max_left ..
    · exact le_trans (ih h) (le_max_right ..)

end ThreadAction

def Frame.rank {α : Type} : Frame α → Nat
  | .run a => a.rank
  | .endClose => 0

/-- The callbacks that have still to run. -/
def CallbackFuture.waiting {α : Type} (fut : CallbackFuture α) : List (ThreadAction α) :=
  match fut.outcome with
  | some _ => []
  | none => fut.callbacks

namespace TrackerThread

variable {α : Type}

def push (s : TrackerThread α) (actions : List (ThreadAction α)) : TrackerThread α :=
  { s with stack := actions.map .run ++ s.stack }

/-- `with self._lock`: a thread that holds the lock waits for itself. -/
def withLock {β : Type} (s : TrackerThread α) (r : Option β) : Option β := if s.locked then none else r

def allocate (s : TrackerThread α) (decode : Bytes → Except PyExc α) : Option (Nat × TrackerThread α) :=
  s.withLock (do
    let (reqId, tracker) ← s.tracker.allocate ⟨s.futures.length, decode⟩
    some (reqId, { s with tracker := tracker, futures := s.futures ++ [{}] }))

def pop (s : TrackerThread α) (reqId : Nat) : TrackerThread α := { s with tracker := (s.tracker.pop reqId).2 }

/-- `PendingEntry.resolve`, `reject` and `cancel` settle the future of the entry. -/
def popThen (s : TrackerThread α) (reqId : Nat) (o : PendingEntry α → RequestOutcome α) : Option (TrackerThread α) :=
  s.withLock (some (match s.tracker.pending.get? reqId with
    | some entry => (s.pop reqId).push [.settle entry.future (o entry)]
    | none => s.pop reqId))

/-- The loop of `close` over the pending entries. -/
def rejections (s : TrackerThread α) (exc : Option PyExc) : List (ThreadAction α) :=
  s.tracker.pending.values.map (fun entry => .settle entry.future (.rejected (exc.getD Transport.transportClosed)))

def perform (m : Msgspec) (s : TrackerThread α) : ThreadAction α → Option (TrackerThread α)
  | .allocate decode => (s.allocate decode).map Prod.snd
  | .pop reqId => s.withLock (some (s.pop reqId))
  | .resolve reqId frames => s.popThen reqId (fun entry => .response (ResponseEnvelope.fromFrames m entry.decode frames))
  | .cancel reqId => s.popThen reqId (fun _ => .cancelled)
  | .close exc => s.withLock (some ({ s with locked := true, stack := .endClose :: s.stack }.push (s.rejections exc)))
  | .sendRequest decode failure => do
    let (reqId, t) ← s.allocate decode
    let f := s.futures.length
    some (t.push (.addDoneCallback f [.onDone f reqId] ::
      failure.toList.flatMap (fun e => [.pop reqId, .settle f (.rejected e)])))
  | a => some ({ s with futures := (a.onFutures s.futures).2 }.push (a.onFutures s.futures).1)

def step (m : Msgspec) (s : TrackerThread α) : Option (TrackerThread α) :=
  match s.stack with
  | [] => none
  | .run a :: rest => perform m { s with stack := rest } a
  | .endClose :: rest => some { s with tracker := { s.tracker with pending := .empty }, locked := false, stack := rest }

/-- What an action of the thread leads to. -/
inductive PerformTo (s : TrackerThread α) : ThreadAction α → TrackerThread α → Prop
  | onFutures {a : ThreadAction α} (ha : a.usesTracker = false) :
    PerformTo s a ({ s with futures := (a.onFutures s.futures).2 }.push (a.onFutures s.futures).1)
  | operation {a : ThreadAction α} {tracker : RequestTracker α} {futures : List (CallbackFuture α)}
    (actions : List (ThreadAction α)) (hfree : s.locked = false) (htracker : s.tracker.OnCycle → tracker.OnCycle)
    (hfutures : futures = s.futures ∨ futures = s.futures ++ [({} : CallbackFuture α)]) (hrank : ∀ b ∈ actions, b.rank < a.rank) :
    PerformTo s a ({ s with tracker := tracker, futures := futures }.push actions)
  | close {exc : Option PyExc} (hfree : s.locked = false) :
    PerformTo s (.close exc) ({ s with locked := true, stack := .endClose :: s.stack }.push (s.rejections exc))

variable {m : Msgspec} {s t : TrackerThread α}

theorem withLock_some {β : Type} {r : Option β} {b : β} (h : s.withLock r = some b) : s.locked = false ∧ r = some b := by
  simp only [withLock] at h
  split at h
  · cases h
  · next hfree => exact ⟨Bool.eq_false_of_not_eq_true hfree, h⟩

theorem allocate_some {decode : Bytes → Except PyExc α} {reqId : Nat} (h : s.allocate decode = some (reqId, t)) :
    s.locked = false ∧ ∃ tracker, s.tracker.allocate ⟨s.futures.length, decode⟩ = some (reqId, tracker) ∧
      t = { s with tracker := tracker, futures := s.futures ++ [{}] } := by
  obtain ⟨hfree, h⟩ := withLock_some h
  obtain ⟨⟨id, tracker⟩, ha, h⟩ := Option.bind_eq_some_iff.1 h
  obtain ⟨rfl, rfl⟩ := Prod.mk.inj (Option.some.inj h)
  exact ⟨hfree, tracker, ha, rfl⟩

theorem popThen_cases {a : ThreadAction α} {reqId : Nat} {o : PendingEntry α → RequestOutcome α}
    (h : s.popThen reqId o = some t) (ha : 0 < a.rank) : PerformTo s a t := by
  obtain ⟨hfree, h⟩ := withLock_some h
  obtain rfl := Option.some.inj h
  split
  · next entry he =>
    refine .operation _ hfree id (.inl rfl) (fun b hb => ?_)
    rw [List.mem_singleton.1 hb]
    exact ha
  · exact .operation [] hfree id (.inl rfl) nofun

theorem perform_cases {a : ThreadAction α} (h : perform m s a = some t) : PerformTo s a t := by
  cases a with
  | allocate decode =>
    obtain ⟨⟨reqId, u⟩, ha, rfl⟩ := Option.map_eq_some_iff.1 h
    obtain ⟨hfree, tracker, hid, rfl⟩ := allocate_some ha
    exact .operation [] hfree (fun hcycle => hcycle.allocate hid) (.inr rfl) nofun
  | pop reqId =>
    obtain ⟨hfree, h⟩ := withLock_some h
    obtain rfl := Option.some.inj h
    exact .operation [] hfree id (.inl rfl) nofun
  | resolve reqId frames => exact popThen_cases h Nat.zero_lt_one
  | cancel reqId => exact popThen_cases h Nat.zero_lt_one
  | close exc =>
    obtain ⟨hfree, h⟩ := withLock_some h
    obtain rfl := Option.some.inj h
    exact .close hfree
  | sendRequest decode failure =>
    obtain ⟨⟨reqId, u⟩, ha, h⟩ := Option.bind_eq_some_iff.1 h
    obtain ⟨hfree, tracker, hid, rfl⟩ := allocate_some ha
    obtain rfl := Option.some.inj h
    refine .operation _ hfree (fun hcycle => hcycle.allocate hid) (.inr rfl) (fun b hb => ?_)
    rcases List.mem_cons.1 hb with rfl | hb
    · exact Nat.lt_succ_self 3
    · obtain ⟨e, -, hb⟩ := List.mem_flatMap.1 hb
      rcases List.mem_pair.1 hb with rfl | rfl <;> exact Nat.zero_lt_succ 3
  | onDone | settle | addDoneCallback =>
    obtain rfl := Option.some.inj h
    exact .onFutures rfl

/-- The ranks of what the thread may still do. -/
def waitingRanks (fs : List (CallbackFuture α)) : List ℕ := fs.flatMap (fun fut => fut.waiting.map ThreadAction.rank)

def ranks (s : TrackerThread α) : Multiset ℕ := ((s.stack.map Frame.rank ++ waitingRanks s.futures : List ℕ) : Multiset ℕ)

/-- The callbacks an action runs were waiting, or have a lower rank. -/
theorem onFutures_ranks (fs : List (CallbackFuture α)) (a : ThreadAction α) :
    ∃ new : List ℕ, (∀ r ∈ new, r < a.rank) ∧ ∀ r, ((a.onFutures fs).1.map ThreadAction.rank).count r +
      (waitingRanks (a.onFutures fs).2).count r = (waitingRanks fs).count r + new.count r := by
  have hnone : ∀ r, (([] : List (ThreadAction α)).map ThreadAction.rank).count r + (waitingRanks fs).count r =
      (waitingRanks fs).count r + ([] : List ℕ).count r := fun r => Nat.add_comm ..
  cases a with
  | onDone f reqId =>
    simp only [ThreadAction.onFutures]
    split
    · exact ⟨[1], fun r hr => by rw [List.mem_singleton.1 hr]; exact Nat.one_lt_two, fun r => Nat.add_comm ..⟩
    · exact ⟨[], nofun, hnone⟩
  | settle f o =>
    simp only [ThreadAction.onFutures]
    split
    · next callbacks hf =>
      have hcount := fun r => Lookup.count_flatMap_modify (f := fun fut => { fut with outcome := some o })
        (g := fun fut : CallbackFuture α => fut.waiting.map ThreadAction.rank) hf r
      refine ⟨[], nofun, fun r => ?_⟩
      rw [Nat.add_comm]
      exact hcount r
    · exact ⟨[], nofun, hnone⟩
  | addDoneCallback f callback =>
    simp only [ThreadAction.onFutures]
    have hlt : ∀ r ∈ callback.map ThreadAction.rank, r < ThreadAction.rank (.addDoneCallback f callback) := by
      intro r hr
      obtain ⟨b, hb, rfl⟩ := List.mem_map.1 hr
      exact Nat.lt_succ_of_le (ThreadAction.rank_le_callbackRank hb)
    split
    · exact ⟨callback.map ThreadAction.rank, hlt, fun r => Nat.add_comm ..⟩
    · next callbacks hf =>
      have hcount := fun r => Lookup.count_flatMap_modify (f := fun fut => { fut with callbacks := fut.callbacks ++ callback })
        (g := fun fut : CallbackFuture α => fut.waiting.map ThreadAction.rank) hf r
      refine ⟨callback.map ThreadAction.rank, hlt, fun r => ?_⟩
      have hr := hcount r
      simp only [CallbackFuture.waiting, List.map_append, List.count_append] at hr
      simp only [waitingRanks, CallbackFuture.waiting, List.map_nil, List.count_nil]
      omega
    · exact ⟨[], nofun, hnone⟩
  | _ => exact ⟨[], nofun, hnone⟩

theorem ranks_cons {frame : Frame α} {rest : List (Frame α)} (h : s.stack = frame :: rest) :
    s.ranks = { s with stack := rest }.ranks + {frame.rank} := by
  rw [add_comm, ranks, ranks, h, Multiset.singleton_add, List.map_cons, List.cons_append, Multiset.cons_coe]

theorem ranks_push (s : TrackerThread α) (actions : List (ThreadAction α)) :
    (s.push actions).ranks = (actions.map ThreadAction.rank : List ℕ) + s.ranks := by
  have hmap : (actions.map Frame.run).map Frame.rank = actions.map ThreadAction.rank := List.map_map ..
  simp only [ranks, push, List.map_append, hmap, List.append_assoc, Multiset.coe_add]

/-- What an action puts before the rest of the thread has a lower rank. -/
theorem PerformTo.ranks {a : ThreadAction α} (h : PerformTo s a t) :
    ∃ new : List ℕ, (∀ r ∈ new, r < a.rank) ∧ t.ranks = s.ranks + (new : Multiset ℕ) := by
  cases h with
  | onFutures ha =>
    obtain ⟨new, hlt, hcount⟩ := onFutures_ranks s.futures a
    refine ⟨new, hlt, Multiset.ext.2 (fun r => ?_)⟩
    have hr := hcount r
    rw [ranks_push]
    simp only [TrackerThread.ranks, Multiset.coe_add, Multiset.coe_count, List.count_append]
    omega
  | operation actions hfree htracker hfutures hrank =>
    refine ⟨actions.map ThreadAction.rank, fun r hr => ?_, ?_⟩
    · obtain ⟨b, hb, rfl⟩ := List.mem_map.1 hr
      exact hrank b hb
    · rw [ranks_push, add_comm]
      rcases hfutures with rfl | rfl
      · rfl
      · simp [TrackerThread.ranks, waitingRanks, CallbackFuture.waiting]
  | @close exc hfree =>
    refine ⟨(s.rejections exc).map ThreadAction.rank ++ [0], fun r hr => ?_, ?_⟩
    · rcases List.mem_append.1 hr with hr | hr
      · obtain ⟨b, hb, rfl⟩ := List.mem_map.1 hr
        obtain ⟨entry, -, rfl⟩ := List.mem_map.1 hb
        exact Nat.zero_lt_one
      · exact List.mem_singleton.1 hr ▸ Nat.zero_lt_one
    · rw [ranks_push, ranks_cons rfl, add_comm, add_assoc, ← Multiset.coe_add, add_comm (Multiset.ofList _)]
      rfl

theorem step_cutExpand (h : step m s = some t) : Relation.CutExpand (· < ·) t.ranks s.ranks := by
  simp only [step] at h
  split at h
  · cases h
  · next a rest hstack =>
    obtain ⟨new, hlt, hranks⟩ := (perform_cases h).ranks
    refine ⟨new, a.rank, hlt, ?_⟩
    rw [hranks, ranks_cons hstack]
    exact add_right_comm ..
  · next rest hstack =>
    obtain rfl := Option.some.inj h
    refine ⟨0, 0, fun r hr => absurd hr (Multiset.notMem_zero r), ?_⟩
    rw [ranks_cons hstack, add_zero]
    rfl

/-- Whatever the callbacks do, the thread comes to an end or waits. -/
theorem thread_halts (m : Msgspec) (s : TrackerThread α) : ∃ t, StateTransition.Reaches (step m) s t ∧ step m t = none :=
  Halting.halts wellFounded_lt (fun _ _ h => step_cutExpand h) s

end TrackerThread

end VsRemote
