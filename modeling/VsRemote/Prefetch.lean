import VsRemote.Lib.OrderedDict
import VsRemote.Lib.Runs
import VsRemote.Lib.Lookup
import VsRemote.Messages

/-! The locked section of `fetch_frame`. A request it issues has one owner at any
moment: the map of requests in flight, the call that waits for it, or nobody once
it was pruned. -/

namespace VsRemote

/-- The arguments of `create_remote_vnode`, and the length of the clip. -/
structure RemoteVnode where
  outputIndex : Int
  compression : Compression
  prefetch : Int
  backlog : Option Int
  numFrames : Int

namespace RemoteVnode

variable (v : RemoteVnode)

def prefetchCount : Nat := (max v.prefetch 0).toNat

def backlogCount : Nat :=
  match v.backlog with
  | none => v.prefetchCount * 3
  | some backlog => if backlog < 0 then v.prefetchCount * 3 else max backlog.toNat v.prefetchCount

def frameRequest (n : Nat) : FrameRequest := ⟨v.outputIndex, n, v.compression⟩

/-- `range(n + 1, min(n + prefetch + 1, num_frames))` -/
def prefetchRange (n : Nat) : List Nat :=
  List.range' (n + 1) (min (n + v.prefetchCount + 1) v.numFrames.toNat - (n + 1))

end RemoteVnode

inductive FrameFutureState
  | pending
  | succeeded
  | failed
  | cancelled
  deriving DecidableEq

/-- The future of a `request_frame` call, how often `cancel()` was called on it
and the keys that were in flight when it was requested. -/
structure FrameFuture where
  request : FrameRequest
  inflightAt : List Nat
  state : FrameFutureState := .pending
  cancels : Nat := 0

def FrameFuture.cancel (fut : FrameFuture) : FrameFuture :=
  { fut with
    state := if fut.state = .pending then .cancelled else fut.state
    cancels := fut.cancels + 1 }

def FrameFuture.settle (state : FrameFutureState) (fut : FrameFuture) : FrameFuture := { fut with state := state }

/-- The requests in flight by frame, as indices of `futures`. -/
structure PrefetchState where
  inflight : OrderedDict Nat Nat := .empty
  futures : List FrameFuture := []

namespace PrefetchState

variable (v : RemoteVnode)

def requestFrame (n : Nat) (s : PrefetchState) : Nat × PrefetchState :=
  (s.futures.length, { s with futures := s.futures ++ [⟨v.frameRequest n, s.inflight.keys, .pending, 0⟩] })

def drop (n : Nat) (s : PrefetchState) : PrefetchState := { s with inflight := s.inflight.erase n }

def store (n fut : Nat) (s : PrefetchState) : PrefetchState := { s with inflight := s.inflight.set n fut }

def cancel (fut : Nat) (s : PrefetchState) : PrefetchState :=
  { s with futures := s.futures.modify fut FrameFuture.cancel }

def settle (fut : Nat) (state : FrameFutureState) (s : PrefetchState) : PrefetchState :=
  { s with futures := s.futures.modify fut (FrameFuture.settle state) }

/-- `inflight.pop(n, None)`, and a request of its own where that finds none. -/
def takeFrame (n : Nat) (s : PrefetchState) : Nat × PrefetchState :=
  match s.inflight.get? n with
  | some fut => (fut, s.drop n)
  | none => s.requestFrame v n

def pruneKey (n key : Nat) (s : PrefetchState) : PrefetchState :=
  if key < n ∨ n + v.backlogCount < key then
    match s.inflight.get? key with
    | some fut => (s.drop key).cancel fut
    | none => s
  else s

/-- The loop over `list(inflight.keys())`. -/
def prune (n : Nat) : List Nat → PrefetchState → PrefetchState
  | [], s => s
  | key :: keys, s => prune n keys (s.pruneKey v n key)

def prefetchKey (key : Nat) (s : PrefetchState) : PrefetchState :=
  if s.inflight.contains key then s
  else
    let r := s.requestFrame v key
    r.2.store key r.1

/-- The loop over the prefetch range. -/
def refill : List Nat → PrefetchState → PrefetchState
  | [], s => s
  | key :: keys, s =>
    if v.backlogCount ≤ s.inflight.size then s else refill keys (s.prefetchKey v key)

/-- What `fetch_frame(n)` does under the lock; it then waits on the future. -/
def fetchLocked (n : Nat) (s : PrefetchState) : Nat × PrefetchState :=
  let r := s.takeFrame v n
  if v.prefetchCount = 0 then r
  else (r.1, (r.2.prune v n r.2.inflight.keys).refill v (v.prefetchRange n))

end PrefetchState

inductive PrefetchLabel
  | fetch (n : Nat)
  | settle (fut : Nat) (state : FrameFutureState)

open PrefetchState in
def RemoteVnode.step (v : RemoteVnode) : PrefetchLabel → PrefetchState → Option PrefetchState
  | .fetch n, s =>
    if (n : Int) < v.numFrames then
      some (s.fetchLocked v n).2
    else none
  | .settle fut state, s =>
    if (s.futures[fut]?).map FrameFuture.state = some .pending then
      some (s.settle fut state)
    else none

/-- The calls of `fetch_frame` in a run, each with the future it waits on. -/
def RemoteVnode.calls (v : RemoteVnode) (calls : List (Nat × Nat)) (s : PrefetchState) : PrefetchLabel → List (Nat × Nat)
  | .fetch n => calls ++ [(n, (s.fetchLocked v n).1)]
  | .settle _ _ => calls

namespace PrefetchState

def requests (s : PrefetchState) : List FrameRequest := s.futures.map FrameFuture.request

def taken (calls : List (Nat × Nat)) : List Nat := calls.map Prod.snd

def cancelsOf (s : PrefetchState) (r : Nat) : Nat := ((s.futures[r]?).map FrameFuture.cancels).getD 0

/-- How often a request is in the map, waited on by a call, or cancelled. -/
def owners (calls : List (Nat × Nat)) (s : PrefetchState) (r : Nat) : Nat :=
  s.inflight.values.count r + (taken calls).count r + s.cancelsOf r

def issued (s : PrefetchState) (r : Nat) : Nat := if r < s.futures.length then 1 else 0

/-- `held` are the futures a running call has in hand. -/
structure Owned (v : RemoteVnode) (calls : List (Nat × Nat)) (held : List Nat) (s : PrefetchState) : Prop where
  once : ∀ r, owners calls s r + held.count r = s.issued r
  asked : ∀ (r : Nat) (fut : FrameFuture), s.futures[r]? = some fut →
    ∃ n, fut.request = v.frameRequest n ∧ n ∉ fut.inflightAt
  keyed : ∀ n r, s.inflight.get? n = some r → s.requests[r]? = some (v.frameRequest n)
  waits : ∀ n r, (n, r) ∈ calls → s.requests[r]? = some (v.frameRequest n)

variable {v : RemoteVnode} {calls : List (Nat × Nat)} {held : List Nat} {s : PrefetchState} {n r : Nat}

theorem frameRequest_injective {m : Nat} (h : v.frameRequest n = v.frameRequest m) : n = m := by
  injection h with _ hn _
  exact Int.ofNat_inj.1 hn

theorem Owned.empty : Owned v [] [] {} where
  once r := rfl
  asked r fut h := by simp at h
  keyed n r h := by cases h
  waits n r h := by cases h

theorem requests_requestFrame : (s.requestFrame v n).2.requests = s.requests ++ [v.frameRequest n] :=
  List.map_append ..

theorem requests_cancel : (s.cancel r).requests = s.requests := Lookup.map_modify_of_eq (fun _ => rfl)

theorem requests_settle {state : FrameFutureState} : (s.settle r state).requests = s.requests :=
  Lookup.map_modify_of_eq (fun _ => rfl)

theorem request_append {q q' : FrameRequest} (h : s.requests[r]? = some q) : (s.requests ++ [q'])[r]? = some q :=
  Lookup.append_left h

theorem cancelsOf_requestFrame : (s.requestFrame v n).2.cancelsOf r = s.cancelsOf r := by
  simp only [requestFrame, cancelsOf]
  by_cases hlt : r < s.futures.length
  · rw [List.getElem?_append_left hlt]
  · rw [List.getElem?_append_right (by omega), List.getElem?_eq_none (by omega : s.futures.length ≤ r)]
    rw [List.getElem?_singleton]
    split <;> rfl

/-- A new request is in the hands of the call. -/
theorem Owned.requestFrame (h : Owned v calls held s) (hn : n ∉ s.inflight.keys) :
    Owned v calls (s.futures.length :: held) (s.requestFrame v n).2 where
  once r := by
    have honce := h.once r
    have hcancels : (s.requestFrame v n).2.cancelsOf r = s.cancelsOf r := cancelsOf_requestFrame
    have howners : owners calls (s.requestFrame v n).2 r = owners calls s r := by
      simp only [owners, hcancels]
      rfl
    have hissued : (s.requestFrame v n).2.issued r = s.issued r + if s.futures.length = r then 1 else 0 := by
      simp only [issued, PrefetchState.requestFrame, List.length_append, List.length_singleton]
      split_ifs <;> omega
    rw [howners, hissued, List.count_cons]
    simp only [beq_iff_eq]
    omega
  asked r fut hr := by
    rcases Lookup.of_append hr with hr | ⟨-, rfl⟩
    · exact h.asked r fut hr
    · exact ⟨n, rfl, hn⟩
  keyed m r hm := requests_requestFrame (s := s) ▸ request_append (h.keyed m r hm)
  waits m r hm := requests_requestFrame (s := s) ▸ request_append (h.waits m r hm)

/-- What leaves the map is in the hands of the call. -/
theorem Owned.drop (h : Owned v calls held s) (hn : s.inflight.get? n = some r) : Owned v calls (r :: held) (s.drop n) where
  once i := by
    have honce := h.once i
    have hcount := OrderedDict.count_values_erase hn i
    have howners : owners calls s i = owners calls (s.drop n) i + if r = i then 1 else 0 := by
      simp only [owners, hcount, PrefetchState.drop, taken, cancelsOf]
      omega
    have hissued : (s.drop n).issued i = s.issued i := rfl
    rw [hissued, List.count_cons]
    simp only [beq_iff_eq]
    omega
  asked := h.asked
  keyed m i hm := h.keyed m i (OrderedDict.get?_of_get?_erase hm).2
  waits := h.waits

theorem Owned.store (h : Owned v calls (r :: held) s) (hn : n ∉ s.inflight.keys)
    (hr : s.requests[r]? = some (v.frameRequest n)) : Owned v calls held (s.store n r) where
  once i := by
    have honce := h.once i
    have howners : owners calls (s.store n r) i = owners calls s i + if r = i then 1 else 0 := by
      simp only [owners, PrefetchState.store, OrderedDict.values_set_of_not_mem r hn, taken, cancelsOf,
        List.count_append, List.count_singleton, beq_iff_eq]
      omega
    have hissued : (s.store n r).issued i = s.issued i := rfl
    rw [List.count_cons] at honce
    simp only [beq_iff_eq] at honce
    omega
  asked := h.asked
  keyed m i hm := by
    simp only [PrefetchState.store, OrderedDict.get?_set] at hm
    by_cases hmn : m = n
    · rw [if_pos hmn] at hm
      rw [hmn, ← Option.some.inj hm]
      exact hr
    · rw [if_neg hmn] at hm
      exact h.keyed m i hm
  waits := h.waits

theorem Owned.lt_length (h : Owned v calls (r :: held) s) : r < s.futures.length := by
  have honce := h.once r
  rw [List.count_cons_self] at honce
  by_contra hge
  have hissued : s.issued r = 0 := if_neg hge
  omega

theorem cancelsOf_cancel {i : Nat} (hr : r < s.futures.length) :
    (s.cancel r).cancelsOf i = s.cancelsOf i + if r = i then 1 else 0 := by
  simp only [PrefetchState.cancel, cancelsOf, List.getElem?_modify]
  by_cases hi : r = i
  · subst hi
    rw [List.getElem?_eq_getElem hr, if_pos rfl]
    simp [FrameFuture.cancel]
  · rw [if_neg hi]
    simp [hi]

theorem Owned.cancel (h : Owned v calls (r :: held) s) : Owned v calls held (s.cancel r) where
  once i := by
    have honce := h.once i
    have hcancels : (s.cancel r).cancelsOf i = s.cancelsOf i + if r = i then 1 else 0 :=
      cancelsOf_cancel h.lt_length
    have howners : owners calls (s.cancel r) i = owners calls s i + if r = i then 1 else 0 := by
      simp only [owners, hcancels]
      simp only [PrefetchState.cancel, taken]
      omega
    have hissued : (s.cancel r).issued i = s.issued i := by
      simp only [issued, PrefetchState.cancel, List.length_modify]
    rw [List.count_cons] at honce
    simp only [beq_iff_eq] at honce
    omega
  asked i fut hi := by
    obtain ⟨f, hf, hcase⟩ := Lookup.of_modify hi
    rcases hcase with ⟨-, rfl⟩ | ⟨-, rfl⟩
    · exact h.asked i f hf
    · exact h.asked i _ hf
  keyed m i hm := requests_cancel (s := s) ▸ h.keyed m i hm
  waits m i hm := requests_cancel (s := s) ▸ h.waits m i hm

theorem Owned.wait (h : Owned v calls (r :: held) s)
    (hr : s.requests[r]? = some (v.frameRequest n)) : Owned v (calls ++ [(n, r)]) held s where
  once i := by
    have honce := h.once i
    have howners : owners (calls ++ [(n, r)]) s i = owners calls s i + if r = i then 1 else 0 := by
      simp only [owners, taken, List.map_append, List.map_cons, List.map_nil, List.count_append, List.count_singleton,
        beq_iff_eq]
      omega
    rw [List.count_cons] at honce
    simp only [beq_iff_eq] at honce
    omega
  asked := h.asked
  keyed := h.keyed
  waits m i hm := by
    rcases List.mem_append.1 hm with hm | hm
    · exact h.waits m i hm
    · obtain ⟨rfl, rfl⟩ := Prod.mk.inj (List.mem_singleton.1 hm)
      exact hr

theorem Owned.settle (h : Owned v calls held s) (state : FrameFutureState) :
    Owned v calls held (s.settle r state) where
  once i := by
    have honce := h.once i
    have hcancels : (s.settle r state).cancelsOf i = s.cancelsOf i := by
      simp only [cancelsOf, PrefetchState.settle, List.getElem?_modify]
      cases s.futures[i]? with
      | none => rfl
      | some fut =>
        by_cases hi : r = i
        · simp [hi, FrameFuture.settle]
        · simp [hi]
    have howners : owners calls (s.settle r state) i = owners calls s i := by
      simp only [owners, hcancels]
      rfl
    have hissued : (s.settle r state).issued i = s.issued i := by
      simp only [issued, PrefetchState.settle, List.length_modify]
    omega
  asked i fut hi := by
    obtain ⟨f, hf, hcase⟩ := Lookup.of_modify hi
    rcases hcase with ⟨-, rfl⟩ | ⟨-, rfl⟩
    · exact h.asked i f hf
    · exact h.asked i _ hf
  keyed m i hm := requests_settle (s := s) ▸ h.keyed m i hm
  waits m i hm := requests_settle (s := s) ▸ h.waits m i hm

theorem Owned.takeFrame (h : Owned v calls [] s) : Owned v calls [(s.takeFrame v n).1] (s.takeFrame v n).2 ∧
    (s.takeFrame v n).2.requests[(s.takeFrame v n).1]? = some (v.frameRequest n) := by
  unfold PrefetchState.takeFrame
  cases hn : s.inflight.get? n with
  | some r => exact ⟨h.drop hn, h.keyed n r hn⟩
  | none =>
    refine ⟨h.requestFrame (OrderedDict.get?_eq_none_iff.1 hn), ?_⟩
    rw [requests_requestFrame]
    have hlength : s.requests.length = s.futures.length := List.length_map ..
    rw [show (s.requestFrame v n).1 = s.requests.length from hlength.symm, List.getElem?_concat_length]

theorem Owned.pruneKey {key : Nat} (h : Owned v calls held s) : Owned v calls held (s.pruneKey v n key) := by
  unfold PrefetchState.pruneKey
  by_cases hstale : key < n ∨ n + v.backlogCount < key
  · rw [if_pos hstale]
    cases hkey : s.inflight.get? key with
    | none => exact h
    | some r => exact (h.drop hkey).cancel
  · rw [if_neg hstale]
    exact h

theorem Owned.prune {keys : List Nat} (h : Owned v calls held s) : Owned v calls held (s.prune v n keys) := by
  induction keys generalizing s with
  | nil => exact h
  | cons key keys ih => exact ih h.pruneKey

theorem Owned.prefetchKey {key : Nat} (h : Owned v calls held s) : Owned v calls held (s.prefetchKey v key) := by
  unfold PrefetchState.prefetchKey
  by_cases hkey : s.inflight.contains key = true
  · rw [if_pos hkey]
    exact h
  · rw [if_neg hkey]
    have hnot : key ∉ s.inflight.keys := fun hmem => hkey (OrderedDict.contains_iff.2 hmem)
    refine (h.requestFrame hnot).store hnot ?_
    have hlength : s.requests.length = s.futures.length := List.length_map ..
    rw [requests_requestFrame, ← hlength, List.getElem?_concat_length]

theorem Owned.refill {keys : List Nat} (h : Owned v calls held s) : Owned v calls held (s.refill v keys) := by
  induction keys generalizing s with
  | nil => exact h
  | cons key keys ih =>
    rw [PrefetchState.refill]
    by_cases hfull : v.backlogCount ≤ s.inflight.size
    · rw [if_pos hfull]
      exact h
    · rw [if_neg hfull]
      exact ih h.prefetchKey

theorem requests_pruneKey {key : Nat} : (s.pruneKey v n key).requests = s.requests := by
  unfold PrefetchState.pruneKey
  split
  · cases s.inflight.get? key with
    | none => rfl
    | some r => exact requests_cancel
  · rfl

theorem requests_prune {keys : List Nat} : (s.prune v n keys).requests = s.requests := by
  induction keys generalizing s with
  | nil => rfl
  | cons key keys ih => exact ih.trans requests_pruneKey

theorem requests_prefetchKey {key : Nat} : (s.prefetchKey v key).requests =
    s.requests ++ if s.inflight.contains key then [] else [v.frameRequest key] := by
  unfold PrefetchState.prefetchKey
  by_cases hkey : s.inflight.contains key = true
  · rw [if_pos hkey, if_pos hkey, List.append_nil]
  · rw [if_neg hkey, if_neg hkey]
    exact requests_requestFrame

theorem requests_refill {keys : List Nat} : s.requests <+: (s.refill v keys).requests := by
  induction keys generalizing s with
  | nil => exact List.prefix_rfl
  | cons key keys ih =>
    rw [PrefetchState.refill]
    split
    · exact List.prefix_rfl
    · refine List.IsPrefix.trans ?_ ih
      rw [requests_prefetchKey]
      exact List.prefix_append ..

theorem Owned.fetchLocked (h : Owned v calls [] s) : Owned v calls [(s.fetchLocked v n).1] (s.fetchLocked v n).2 ∧
    (s.fetchLocked v n).2.requests[(s.fetchLocked v n).1]? = some (v.frameRequest n) := by
  obtain ⟨howned, hasked⟩ := h.takeFrame (n := n)
  unfold PrefetchState.fetchLocked
  by_cases hoff : v.prefetchCount = 0
  · simp only [hoff, if_true]
    exact ⟨howned, hasked⟩
  · simp only [hoff, if_false]
    refine ⟨howned.prune.refill, ?_⟩
    let pruned := (s.takeFrame v n).2.prune v n (s.takeFrame v n).2.inflight.keys
    have hprefix : pruned.requests <+: (pruned.refill v (v.prefetchRange n)).requests := requests_refill
    obtain ⟨more, hmore⟩ := hprefix
    rw [← hmore, requests_prune]
    rw [List.getElem?_append_left (Lookup.lt_length hasked)]
    exact hasked

theorem Owned.step {l : PrefetchLabel} {s' : PrefetchState} (h : Owned v calls [] s) (hs : v.step l s = some s') :
    Owned v (v.calls calls s l) [] s' := by
  cases l with
  | fetch n =>
    simp only [RemoteVnode.step] at hs
    split at hs
    · obtain rfl := Option.some.inj hs
      obtain ⟨howned, hasked⟩ := h.fetchLocked (n := n)
      exact howned.wait hasked
    · cases hs
  | settle fut state =>
    simp only [RemoteVnode.step] at hs
    split at hs
    · obtain rfl := Option.some.inj hs
      exact h.settle state
    · cases hs

/-- The futures calls wait on are of the frames they were asked for and never
cancelled. A request is in the map under its own frame, or taken by one call, or
cancelled, and in one of these only. -/
structure Ownership (v : RemoteVnode) (calls : List (Nat × Nat)) (s : PrefetchState) : Prop where
  waits : ∀ n r, (n, r) ∈ calls →
    ∃ fut, s.futures[r]? = some fut ∧ fut.request = v.frameRequest n ∧ fut.cancels = 0
  issued : ∀ (r : Nat) (fut : FrameFuture), s.futures[r]? = some fut →
    ∃ n, fut.request = v.frameRequest n ∧ n ∉ fut.inflightAt ∧
      s.inflight.values.count r + (taken calls).count r + fut.cancels = 1 ∧
      (r ∈ s.inflight.values → s.inflight.get? n = some r)

theorem Owned.owners_eq_one (h : Owned v calls [] s) {fut : FrameFuture} (hr : s.futures[r]? = some fut) :
    s.inflight.values.count r + (taken calls).count r + fut.cancels = 1 := by
  have honce := h.once r
  have hissued : s.issued r = 1 := if_pos (Lookup.lt_length hr)
  simp only [owners, cancelsOf, hr, Option.map_some, Option.getD_some, List.count_nil] at honce
  omega

theorem requests_of_get? {fut : FrameFuture} (hr : s.futures[r]? = some fut) : s.requests[r]? = some fut.request := by
  rw [requests, List.getElem?_map, hr, Option.map_some]

theorem Owned.ownership (h : Owned v calls [] s) : Ownership v calls s where
  waits n r hn := by
    have hasked := h.waits n r hn
    rw [requests, List.getElem?_map] at hasked
    obtain ⟨fut, hr, hrequest⟩ := Option.map_eq_some_iff.1 hasked
    have hone := h.owners_eq_one hr
    have hcount : 0 < (taken calls).count r := List.count_pos_iff.2 (List.mem_map_of_mem hn)
    exact ⟨fut, hr, hrequest, by omega⟩
  issued r fut hr := by
    obtain ⟨n, hn, hnot⟩ := h.asked r fut hr
    refine ⟨n, hn, hnot, h.owners_eq_one hr, fun hmem => ?_⟩
    obtain ⟨m, hm⟩ := OrderedDict.exists_get?_of_mem_values hmem
    have hkeyed := h.keyed m r hm
    rw [requests_of_get? hr, hn] at hkeyed
    rw [frameRequest_injective (Option.some.inj hkeyed)]
    exact hm

/-- For every remote node and every sequence of calls and settled futures. -/
theorem prefetch_ownership (v : RemoteVnode) (ls : List PrefetchLabel) :
    Runs.Always (Runs.tracked v.step v.calls) (fun x => Ownership v x.1 x.2) ls ([], {}) := by
  have hguard : Runs.Guarded (Runs.tracked v.step v.calls) (fun _ _ => True) ls ([], {}) :=
    Runs.Guarded.of_mem (fun _ _ _ => trivial)
  refine (hguard.always (I := fun x => Owned v x.1 [] x.2) ?_ Owned.empty).mono (fun x h => h.ownership)
  rintro ⟨calls, s⟩ l ⟨calls', s'⟩ h - hs
  obtain ⟨hs, rfl⟩ := Runs.tracked_step hs
  exact h.step hs

def seekBack : RemoteVnode := ⟨0, .zstd, 1, none, 100⟩

/-- A seek back past the window: the request ahead is cancelled and made again. One prefetched
request fails before it is taken. -/
theorem prefetch_ownership_seek : ∃ calls s,
    Runs.run (Runs.tracked seekBack.step seekBack.calls) [.fetch 50, .fetch 10, .settle 3 .failed, .fetch 11] ([], {}) =
        some (calls, s) ∧
      s.futures.map (fun fut => (fut.request.n, fut.cancels)) = [(50, 0), (51, 1), (10, 0), (11, 0), (12, 0)] ∧
      s.inflight.entries = [(12, 4)] ∧ calls = [(50, 0), (10, 2), (11, 3)] ∧ Ownership seekBack calls s := by
  obtain ⟨calls, s, hr, hfutures, hinflight, hcalls⟩ : ∃ calls s,
      Runs.run (Runs.tracked seekBack.step seekBack.calls) [.fetch 50, .fetch 10, .settle 3 .failed, .fetch 11] ([], {}) =
          some (calls, s) ∧
        s.futures.map (fun fut => (fut.request.n, fut.cancels)) = [(50, 0), (51, 1), (10, 0), (11, 0), (12, 0)] ∧
        s.inflight.entries = [(12, 4)] ∧ calls = [(50, 0), (10, 2), (11, 3)] := ⟨_, _, rfl, by decide, by decide, by decide⟩
  have hlast := (prefetch_ownership seekBack [.fetch 50, .fetch 10, .settle 3 .failed, .fetch 11]).last hr
  exact ⟨calls, s, hr, hfutures, hinflight, hcalls, hlast⟩

end PrefetchState

end VsRemote
