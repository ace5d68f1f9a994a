import VsRemote.Lib.CyclicAlloc
import VsRemote.Lib.OrderedDict
import VsRemote.Exceptions

/-! `RequestTracker`: the ids of the requests of a client and who waits for
their replies. -/

namespace VsRemote

open CyclicAlloc (idAt)

def idCount : Nat := 2 ^ 31 - 1

def nextReqId (reqId : Nat) : Nat :=
  if (reqId + 1) &&& 0x7FFFFFFF = 0 then 1 else (reqId + 1) &&& 0x7FFFFFFF

/-- The future of a request, and what its response type decodes payloads with. -/
structure PendingEntry (α : Type) where
  future : Nat
  decode : Bytes → Except PyExc α

structure RequestTracker (α : Type) where
  pending : OrderedDict Nat (PendingEntry α) := .empty
  nextId : Nat := 1

namespace RequestTracker

variable {α : Type}

/-- The `while` loop of `allocate`, for at most `fuel` turns. -/
def firstFree (pending : OrderedDict Nat (PendingEntry α)) : Nat → Nat → Option Nat
  | 0, _ => none
  | fuel + 1, reqId =>
    if pending.contains reqId ∨ reqId = 0 then firstFree pending fuel (nextReqId reqId) else some reqId

/-- `none` when the loop finds no free id and does not end. -/
def allocate (tracker : RequestTracker α) (entry : PendingEntry α) : Option (Nat × RequestTracker α) := do
  let reqId ← firstFree tracker.pending (tracker.pending.size + 1) tracker.nextId
  some (reqId, { pending := tracker.pending.set reqId entry, nextId := nextReqId reqId })

def pop (tracker : RequestTracker α) (reqId : Nat) : Option (PendingEntry α) × RequestTracker α :=
  (tracker.pending.get? reqId, { tracker with pending := tracker.pending.erase reqId })

theorem nextReqId_idAt (t : Nat) : nextReqId (idAt idCount t) = idAt idCount (t + 1) := by
  have hmask : ∀ x : Nat, x &&& 0x7FFFFFFF = x % 2 ^ 31 := fun x => Nat.and_two_pow_sub_one_eq_mod x 31
  have hlt : t % idCount < idCount := Nat.mod_lt t (by decide)
  unfold nextReqId idAt
  rw [hmask]
  unfold idCount at *
  by_cases hlast : t % (2 ^ 31 - 1) = 2 ^ 31 - 2
  · rw [if_pos (by omega)]
    omega
  · rw [if_neg (by omega)]
    omega

theorem idAt_pos (t : Nat) : idAt idCount t ≠ 0 := by
  unfold idAt
  omega

theorem idAt_lt (t : Nat) : idAt idCount t < 4294967296 := by
  have hlt : t % idCount < idCount := Nat.mod_lt t (by decide)
  unfold idAt idCount at *
  omega

variable {pending : OrderedDict Nat (PendingEntry α)}

theorem firstFree_some {fuel t reqId : Nat} (h : firstFree pending fuel (idAt idCount t) = some reqId) :
    ∃ q, t ≤ q ∧ q < t + fuel ∧ reqId = idAt idCount q ∧ reqId ∉ pending.keys ∧
      ∀ u, t ≤ u → u < q → idAt idCount u ∈ pending.keys := by
  induction fuel generalizing t with
  | zero => cases h
  | succ fuel ih =>
    rw [firstFree] at h
    by_cases htaken : pending.contains (idAt idCount t) = true
    · rw [if_pos (.inl htaken), nextReqId_idAt] at h
      obtain ⟨q, hq, hlt, hid, hfree, hskip⟩ := ih h
      refine ⟨q, by omega, by omega, hid, hfree, fun u hu huq => ?_⟩
      by_cases heq : u = t
      · subst heq
        exact OrderedDict.contains_iff.1 htaken
      · exact hskip u (by omega) huq
    · rw [if_neg (by simp [htaken, idAt_pos t])] at h
      obtain rfl := Option.some.inj h
      exact ⟨t, le_rfl, by omega, rfl, fun hmem => htaken (OrderedDict.contains_iff.2 hmem), fun u hu huq => by omega⟩

theorem firstFree_none {fuel t : Nat} (h : firstFree pending fuel (idAt idCount t) = none) :
    ∀ u, t ≤ u → u < t + fuel → idAt idCount u ∈ pending.keys := by
  induction fuel generalizing t with
  | zero => exact fun u hu hlt => by omega
  | succ fuel ih =>
    rw [firstFree] at h
    by_cases htaken : pending.contains (idAt idCount t) = true
    · rw [if_pos (.inl htaken), nextReqId_idAt] at h
      intro u hu hlt
      by_cases heq : u = t
      · subst heq
        exact OrderedDict.contains_iff.1 htaken
      · exact ih h u (by omega) (by omega)
    · rw [if_neg (by simp [htaken, idAt_pos t])] at h
      cases h

theorem firstFree_get? {fuel id reqId : Nat} (h : firstFree pending fuel id = some reqId) :
    pending.get? reqId = none := by
  induction fuel generalizing id with
  | zero => cases h
  | succ fuel ih =>
    rw [firstFree] at h
    split at h
    · exact ih h
    · next hfree =>
      obtain rfl := Option.some.inj h
      refine OrderedDict.get?_eq_none_iff.2 (fun hmem => hfree (.inl (OrderedDict.contains_iff.2 hmem)))

/-- As long as some id is free `allocate` returns. -/
theorem allocate_isSome {tracker : RequestTracker α} {t : Nat} (entry : PendingEntry α)
    (ht : tracker.nextId = idAt idCount t) (hsize : tracker.pending.size < idCount) :
    (tracker.allocate entry).isSome = true := by
  cases hfree : firstFree tracker.pending (tracker.pending.size + 1) tracker.nextId with
  | some reqId => simp [allocate, hfree]
  | none =>
    rw [ht] at hfree
    have hall := firstFree_none hfree
    let window := Finset.Ico t (t + (tracker.pending.size + 1))
    have hinj : Set.InjOn (idAt idCount) (window : Set Nat) := CyclicAlloc.idAt_injOn t (fun u hu => by
      have hin := Finset.mem_Ico.1 hu
      omega)
    have hsub : window.image (idAt idCount) ⊆ tracker.pending.keys.toFinset := by
      intro id hid
      obtain ⟨u, hu, rfl⟩ := Finset.mem_image.1 hid
      have hin := Finset.mem_Ico.1 hu
      exact List.mem_toFinset.2 (hall u hin.1 hin.2)
    have hcard := Finset.card_le_card hsub
    rw [Finset.card_image_of_injOn hinj, Nat.card_Ico, ← OrderedDict.size_eq_card_keys] at hcard
    omega

/-- The next id lies on the cycle of the ids. -/
def OnCycle (tracker : RequestTracker α) : Prop := ∃ t, tracker.nextId = idAt idCount t

theorem OnCycle.allocate {tracker tracker' : RequestTracker α} {entry : PendingEntry α} {reqId : Nat}
    (h : tracker.OnCycle) (ha : tracker.allocate entry = some (reqId, tracker')) : tracker'.OnCycle := by
  obtain ⟨t, ht⟩ := h
  obtain ⟨id, hfree, heq⟩ := Option.bind_eq_some_iff.1 ha
  obtain ⟨rfl, rfl⟩ := Prod.mk.inj (Option.some.inj heq)
  rw [ht] at hfree
  obtain ⟨q, -, -, rfl, -, -⟩ := firstFree_some hfree
  exact ⟨q + 1, nextReqId_idAt q⟩

/-- `allocate` returns exactly if some id is not pending. -/
theorem OnCycle.allocate_isSome_iff {tracker : RequestTracker α} (h : tracker.OnCycle) (entry : PendingEntry α) :
    (tracker.allocate entry).isSome = true ↔ ∃ id, 0 < id ∧ id ≤ idCount ∧ id ∉ tracker.pending.keys := by
  obtain ⟨t, ht⟩ := h
  constructor
  · intro hsome
    obtain ⟨⟨reqId, tracker'⟩, ha⟩ := Option.isSome_iff_exists.1 hsome
    obtain ⟨id, hfree, -⟩ := Option.bind_eq_some_iff.1 ha
    rw [ht] at hfree
    obtain ⟨q, -, -, rfl, hnot, -⟩ := firstFree_some hfree
    have hlt : q % idCount < idCount := Nat.mod_lt q (by decide)
    exact ⟨idAt idCount q, Nat.pos_of_ne_zero (idAt_pos q), by unfold idAt; omega, hnot⟩
  · rintro ⟨id, hpos, hle, hnot⟩
    by_cases hsize : tracker.pending.size < idCount
    · exact allocate_isSome entry ht hsize
    · cases hf : firstFree tracker.pending (tracker.pending.size + 1) (idAt idCount t) with
      | some reqId => simp [RequestTracker.allocate, ht, hf]
      | none =>
        obtain ⟨u, hu, hlt, rfl⟩ := CyclicAlloc.exists_idAt_eq hpos hle t
        exact absurd (firstFree_none hf u hu (by omega)) hnot

end RequestTracker

end VsRemote
