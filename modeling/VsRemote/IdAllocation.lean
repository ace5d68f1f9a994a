import Mathlib.Logic.Function.Iterate
import VsRemote.ClientSteps

/-! Which ids a `RequestTracker` gives out, over any sequence of its operations,
beside a ledger of what was allocated and not yet given back. -/

namespace VsRemote

open CyclicAlloc (idAt)

inductive TrackerOp (α : Type) where
  | allocate (decode : Bytes → Except PyExc α)
  | pop (reqId : Nat)
  | resolve (reqId : Nat) (frames : List Bytes)
  | cancel (reqId : Nat)
  | close

structure Allocation (α : Type) where
  id : Nat
  entry : PendingEntry α
  live : Bool := true

/-- `RequestTracker.cancel`. -/
def Requests.cancel {α : Type} (b : Requests α) (reqId : Nat) : Requests α :=
  match b.tracker.pending.get? reqId with
  | none => b
  | some entry => (b.pop reqId).cancelFuture entry.future

def Allocation.endIf {α : Type} (ended : Nat → Bool) (a : Allocation α) : Allocation α :=
  { a with live := a.live && !ended a.id }

def TrackerOp.step {α : Type} (m : Msgspec) : TrackerOp α → Requests α → Option (Requests α)
  | .allocate decode, b => (b.allocate decode).map Prod.snd
  | .pop reqId, b => some (b.pop reqId)
  | .resolve reqId frames, b => some (b.resolve m reqId frames)
  | .cancel reqId, b => some (b.cancel reqId)
  | .close, b => some b.close

/-- The ledger of a run: an allocation is live from when its id was given out until an
operation names that id, or `close`. -/
def ledger {α : Type} (entries : List (Allocation α)) (b : Requests α) : TrackerOp α → List (Allocation α)
  | .allocate decode =>
    entries ++ ((b.allocate decode).map (fun r => { id := r.1, entry := ⟨b.futures.length, decode⟩ })).toList
  | .pop reqId | .resolve reqId _ | .cancel reqId => entries.map (Allocation.endIf (· == reqId))
  | .close => entries.map (Allocation.endIf (fun _ => true))

/-- A tracker beside the ledger of its operations. -/
abbrev LedgeredTracker (α : Type) := List (Allocation α) × Requests α

namespace RequestTracker

variable {α : Type} {tracker : RequestTracker α} {t k : Nat}

/-- `allocate` passes the ids in use and gets to the first one that is not. -/
def AllocatesFirstFree (tracker : RequestTracker α) (entry : PendingEntry α) : Prop :=
  ∃ k ≤ tracker.pending.size, ∃ reqId, reqId = nextReqId^[k] tracker.nextId ∧
    (∀ j < k, nextReqId^[j] tracker.nextId ∈ tracker.pending.keys) ∧ reqId ∉ tracker.pending.keys ∧
    1 ≤ reqId ∧ reqId ≤ idCount ∧
    (∀ fuel, k < fuel → firstFree tracker.pending fuel tracker.nextId = some reqId) ∧
    tracker.allocate entry = some (reqId, ⟨tracker.pending.set reqId entry, nextReqId reqId⟩)

theorem iterate_nextReqId (t k : Nat) : nextReqId^[k] (idAt idCount t) = idAt idCount (t + k) := by
  induction k generalizing t with
  | zero => rfl
  | succ k ih =>
    rw [Function.iterate_succ_apply, nextReqId_idAt, ih]
    congr 1
    omega

theorem idAt_le (t : Nat) : 1 ≤ idAt idCount t ∧ idAt idCount t ≤ idCount := by
  have hlt : t % idCount < idCount := Nat.mod_lt t (by decide)
  unfold idAt
  omega

theorem firstFree_of_skip {pending : OrderedDict Nat (PendingEntry α)} {fuel : Nat}
    (hskip : ∀ u, t ≤ u → u < t + k → idAt idCount u ∈ pending.keys) (hfree : idAt idCount (t + k) ∉ pending.keys)
    (hfuel : k < fuel) : firstFree pending fuel (idAt idCount t) = some (idAt idCount (t + k)) := by
  obtain ⟨fuel, rfl⟩ : ∃ n, fuel = n + 1 := ⟨fuel - 1, by omega⟩
  induction k generalizing t fuel with
  | zero =>
    have hnot : ¬ (pending.contains (idAt idCount t) = true ∨ idAt idCount t = 0) := by
      rintro (h | h)
      · exact hfree (OrderedDict.contains_iff.1 h)
      · exact idAt_pos t h
    rw [firstFree, if_neg hnot, Nat.add_zero]
  | succ k ih =>
    have htaken := hskip t le_rfl (by omega)
    obtain ⟨fuel, rfl⟩ : ∃ n, fuel = n + 1 := ⟨fuel - 1, by omega⟩
    have hshift : t + (k + 1) = t + 1 + k := by omega
    rw [firstFree, if_pos (.inl (OrderedDict.contains_iff.2 htaken)), nextReqId_idAt, hshift]
    refine ih (fun u hu hlt => hskip u (by omega) (by omega)) (hshift ▸ hfree) fuel (by omega)

theorem OnCycle.allocatesFirstFree (h : tracker.OnCycle) (hsize : tracker.pending.size < idCount)
    (entry : PendingEntry α) : tracker.AllocatesFirstFree entry := by
  obtain ⟨t, ht⟩ := h
  obtain ⟨⟨reqId, tracker'⟩, ha⟩ := Option.isSome_iff_exists.1 (allocate_isSome entry ht hsize)
  obtain ⟨id, hfree, heq⟩ := Option.bind_eq_some_iff.1 ha
  obtain ⟨rfl, -⟩ := Prod.mk.inj (Option.some.inj heq)
  rw [ht] at hfree
  obtain ⟨q, hq, hlt, rfl, hnot, hskip⟩ := firstFree_some hfree
  obtain ⟨k, rfl⟩ := Nat.exists_eq_add_of_le hq
  have hloop : ∀ fuel, k < fuel → firstFree tracker.pending fuel tracker.nextId = some (idAt idCount (t + k)) := by
    intro fuel hfuel
    rw [ht]
    exact firstFree_of_skip hskip hnot hfuel
  refine ⟨k, by omega, idAt idCount (t + k), ?_, ?_, hnot, (idAt_le _).1, (idAt_le _).2, hloop, ?_⟩
  · rw [ht, iterate_nextReqId]
  · intro j hj
    rw [ht, iterate_nextReqId]
    exact hskip (t + j) (by omega) (by omega)
  · unfold RequestTracker.allocate
    rw [hloop _ (by omega)]
    rfl

theorem OnCycle.nextId_le (h : tracker.OnCycle) : 1 ≤ tracker.nextId ∧ tracker.nextId ≤ idCount := by
  obtain ⟨t, ht⟩ := h
  rw [ht]
  exact idAt_le t

end RequestTracker

namespace Requests

variable {α : Type} {b : Requests α} {reqId : Nat}

theorem tracker_resolve {m : Msgspec} {frames : List Bytes} :
    (b.resolve m reqId frames).tracker = (b.tracker.pop reqId).2 := by
  unfold resolve
  cases he : b.tracker.pending.get? reqId with
  | some entry => rfl
  | none =>
    have hsame := OrderedDict.erase_of_not_mem (OrderedDict.get?_eq_none_iff.1 he)
    rw [RequestTracker.pop, hsame]

theorem tracker_cancel : (b.cancel reqId).tracker = (b.tracker.pop reqId).2 := by
  unfold cancel
  cases he : b.tracker.pending.get? reqId with
  | some entry =>
    obtain ⟨callbacks, hcancel⟩ := cancelFuture_eq (b.pop reqId) entry.future
    simp only [hcancel]
    rfl
  | none =>
    have hsame := OrderedDict.erase_of_not_mem (OrderedDict.get?_eq_none_iff.1 he)
    rw [RequestTracker.pop, hsame]

end Requests

namespace LedgeredTracker

variable {α : Type} {m : Msgspec} {s : LedgeredTracker α}

def liveIds (entries : List (Allocation α)) : List Nat := (entries.filter Allocation.live).map Allocation.id

/-- The pending map holds the live allocations, each under its own id. -/
structure Balanced (s : LedgeredTracker α) : Prop where
  cycle : s.2.tracker.OnCycle
  held : ∀ id entry, s.2.tracker.pending.get? id = some entry ↔ ⟨id, entry, true⟩ ∈ s.1
  distinct : (liveIds s.1).Nodup

theorem mem_endIf {ended : Nat → Bool} {ledger : List (Allocation α)} {id : Nat} {entry : PendingEntry α} :
    ⟨id, entry, true⟩ ∈ ledger.map (Allocation.endIf ended) ↔ ⟨id, entry, true⟩ ∈ ledger ∧ ended id = false := by
  rw [List.mem_map]
  constructor
  · rintro ⟨⟨id', entry', live⟩, hmem, heq⟩
    obtain ⟨rfl, rfl, hlive⟩ := Allocation.mk.inj heq
    simp only [Bool.and_eq_true, Bool.not_eq_true'] at hlive
    exact ⟨hlive.1 ▸ hmem, hlive.2⟩
  · rintro ⟨hmem, hended⟩
    exact ⟨_, hmem, by simp [Allocation.endIf, hended]⟩

theorem liveIds_endIf {ended : Nat → Bool} (ledger : List (Allocation α)) :
    liveIds (ledger.map (Allocation.endIf ended)) = (liveIds ledger).filter (fun id => !ended id) := by
  induction ledger with
  | nil => rfl
  | cons a ledger ih =>
    simp only [liveIds] at ih ⊢
    rw [List.map_cons, List.filter_cons, List.filter_cons]
    by_cases hlive : a.live = true
    · by_cases hended : ended a.id = true
      · simp [Allocation.endIf, hlive, hended, ih]
      · simp [Allocation.endIf, hlive, hended, ih]
    · simp [Allocation.endIf, hlive, ih]

/-- What takes the entries of some ids out of the map and off the ledger. -/
theorem Balanced.ended {requests : Requests α} {ended : Nat → Bool} (h : Balanced s)
    (hnext : requests.tracker.nextId = s.2.tracker.nextId)
    (hget : ∀ id, requests.tracker.pending.get? id =
      if ended id = true then none else s.2.tracker.pending.get? id) :
    Balanced (s.1.map (Allocation.endIf ended), requests) where
  cycle := by
    obtain ⟨t, ht⟩ := h.cycle
    exact ⟨t, hnext.trans ht⟩
  held id entry := by
    rw [mem_endIf, ← h.held, hget]
    by_cases hended : ended id = true
    · simp [hended]
    · simp [hended]
  distinct := by
    rw [liveIds_endIf]
    exact h.distinct.filter _

theorem Balanced.popped {requests : Requests α} {reqId : Nat} (h : Balanced s)
    (htracker : requests.tracker = (s.2.tracker.pop reqId).2) :
    Balanced (s.1.map (Allocation.endIf (· == reqId)), requests) := by
  refine h.ended (htracker ▸ rfl) (fun id => ?_)
  rw [htracker]
  simp only [RequestTracker.pop, OrderedDict.get?_erase, beq_iff_eq]

theorem Balanced.allocated {decode : Bytes → Except PyExc α} {reqId : Nat} {requests : Requests α}
    (h : Balanced s) (ha : s.2.allocate decode = some (reqId, requests)) :
    Balanced (s.1 ++ [{ id := reqId, entry := ⟨s.2.futures.length, decode⟩ }], requests) := by
  obtain ⟨⟨id, tracker⟩, htracker, heq⟩ := Option.bind_eq_some_iff.1 ha
  obtain ⟨rfl, rfl⟩ := Prod.mk.inj (Option.some.inj heq)
  obtain ⟨free, hfree, hsome⟩ := Option.bind_eq_some_iff.1 htracker
  obtain ⟨rfl, rfl⟩ := Prod.mk.inj (Option.some.inj hsome)
  have hunused := RequestTracker.firstFree_get? hfree
  have hnot : ∀ entry, ⟨free, entry, true⟩ ∉ s.1 := by
    intro entry hmem
    rw [(h.held free entry).2 hmem] at hunused
    cases hunused
  refine ⟨h.cycle.allocate htracker, fun id entry => ?_, ?_⟩
  · rw [List.mem_append, List.mem_singleton, ← h.held, OrderedDict.get?_set]
    by_cases hid : id = free
    · subst hid
      rw [if_pos rfl, hunused]
      simp [eq_comm]
    · rw [if_neg hid]
      simp [hid]
  · have hids : liveIds (s.1 ++ [{ id := free, entry := ⟨s.2.futures.length, decode⟩ }]) =
        liveIds s.1 ++ [free] := by simp [liveIds]
    rw [hids, List.nodup_append]
    refine ⟨h.distinct, List.nodup_singleton _, ?_⟩
    rintro id hid _ hfree' rfl
    obtain rfl := List.mem_singleton.1 hfree'
    obtain ⟨⟨id', entry, live⟩, hmem, rfl⟩ := List.mem_map.1 hid
    obtain ⟨hmem, hlive⟩ := List.mem_filter.1 hmem
    obtain rfl : live = true := hlive
    exact hnot entry hmem

theorem Balanced.step {l : TrackerOp α} {requests : Requests α} (h : Balanced s) (hs : l.step m s.2 = some requests) :
    Balanced (ledger s.1 s.2 l, requests) := by
  cases l with
  | allocate decode =>
    obtain ⟨⟨reqId, requests'⟩, ha, rfl⟩ := Option.map_eq_some_iff.1 hs
    rw [ledger, ha]
    exact h.allocated ha
  | pop reqId =>
    obtain rfl := Option.some.inj hs
    exact h.popped rfl
  | resolve reqId frames =>
    obtain rfl := Option.some.inj hs
    exact h.popped Requests.tracker_resolve
  | cancel reqId =>
    obtain rfl := Option.some.inj hs
    exact h.popped Requests.tracker_cancel
  | close =>
    obtain rfl := Option.some.inj hs
    exact h.ended rfl (fun id => rfl)

/-- What holds of a tracker after any of its operations. -/
structure Allocates (s : LedgeredTracker α) : Prop where
  nextId : 1 ≤ s.2.tracker.nextId ∧ s.2.tracker.nextId ≤ idCount
  held : ∀ id entry, s.2.tracker.pending.get? id = some entry ↔ ⟨id, entry, true⟩ ∈ s.1
  distinct : (liveIds s.1).Nodup
  allocates : s.2.tracker.pending.size < idCount → ∀ entry, s.2.tracker.AllocatesFirstFree entry

/-- For every sequence of operations of a new tracker. -/
theorem id_allocation (m : Msgspec) (ls : List (TrackerOp α)) :
    Runs.Always (Runs.tracked (TrackerOp.step m) ledger) Allocates ls (([], {}) : LedgeredTracker α) := by
  have hguard : Runs.Guarded (Runs.tracked (TrackerOp.step m) ledger) (fun _ _ => True) ls (([], {}) : LedgeredTracker α) :=
    Runs.Guarded.of_mem (fun _ _ _ => trivial)
  have hinit : Balanced (([], {}) : LedgeredTracker α) := by
    refine ⟨⟨0, rfl⟩, fun id entry => ?_, List.nodup_nil⟩
    exact iff_of_false (fun h => by cases h) List.not_mem_nil
  refine (hguard.always (I := Balanced) ?_ hinit).mono ?_
  · rintro s l ⟨entries, requests⟩ h - hs
    obtain ⟨hs, rfl⟩ := Runs.tracked_step hs
    exact h.step hs
  · exact fun s h => ⟨h.cycle.nextId_le, h.held, h.distinct, fun hsize entry => h.cycle.allocatesFirstFree hsize entry⟩

/-- Ids go on in order and are not given out again while the search has not come round. -/
def mixedOps : List (TrackerOp Bytes) :=
  [.allocate .ok, .allocate .ok, .allocate .ok, .pop 2, .resolve 1 [[1], []], .allocate .ok, .cancel 3, .cancel 3,
    .close, .allocate .ok]

theorem id_allocation_mixed : ∃ s : LedgeredTracker Bytes,
    Runs.run (Runs.tracked (TrackerOp.step (.table [] [])) ledger) mixedOps ([], {}) = some s ∧
      s.1.map (fun a => (a.id, a.live)) = [(1, false), (2, false), (3, false), (4, false), (5, true)] ∧
      s.2.tracker.pending.keys = [5] ∧ s.2.tracker.nextId = 6 ∧ Allocates s := by
  have hlast : (Runs.run (Runs.tracked (TrackerOp.step (.table [] [])) ledger) mixedOps ([], {})).map (fun s =>
      (s.1.map (fun a => (a.id, a.live)), s.2.tracker.pending.keys, s.2.tracker.nextId)) =
      some ([(1, false), (2, false), (3, false), (4, false), (5, true)], [5], 6) := by decide +kernel
  obtain ⟨s, hr, hs⟩ := Option.map_eq_some_iff.1 hlast
  simp only [Prod.mk.injEq] at hs
  obtain ⟨hledger, hkeys, hnext⟩ := hs
  exact ⟨s, hr, hledger, hkeys, hnext, (id_allocation _ mixedOps).last hr⟩

end LedgeredTracker

end VsRemote
