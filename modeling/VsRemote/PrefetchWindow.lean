import Mathlib.Order.Interval.Finset.Nat
import VsRemote.Prefetch

/-! What `fetch_frame(n)` leaves in flight: the frames it prefetches, all of them,
and nothing outside its backlog. -/

namespace VsRemote

namespace PrefetchState

variable {v : RemoteVnode} {calls : List (Nat × Nat)} {s : PrefetchState} {n k r : Nat} {keys : List Nat}

def InWindow (v : RemoteVnode) (n k : Nat) : Prop := n < k ∧ k ≤ n + v.backlogCount

instance : Decidable (InWindow v n k) := inferInstanceAs (Decidable (_ ∧ _))

theorem prefetchCount_le_backlogCount (v : RemoteVnode) : v.prefetchCount ≤ v.backlogCount := by
  unfold RemoteVnode.backlogCount
  cases v.backlog with
  | none =>
    simp only
    omega
  | some backlog =>
    simp only
    split_ifs <;> omega

theorem mem_prefetchRange : k ∈ v.prefetchRange n ↔ n < k ∧ k ≤ n + v.prefetchCount ∧ (k : Int) < v.numFrames := by
  rw [RemoteVnode.prefetchRange, List.mem_range'_1]
  omega

theorem get?_takeFrame : (s.takeFrame v n).2.inflight.get? k = if k = n then none else s.inflight.get? k := by
  unfold takeFrame
  cases hn : s.inflight.get? n with
  | some r => exact OrderedDict.get?_erase ..
  | none =>
    by_cases hk : k = n
    · rw [if_pos hk, hk]
      exact hn
    · rw [if_neg hk]
      rfl

theorem requests_takeFrame : (s.takeFrame v n).2.requests =
    s.requests ++ if n ∈ s.inflight.keys then [] else [v.frameRequest n] := by
  unfold takeFrame
  cases hn : s.inflight.get? n with
  | some r =>
    rw [if_pos (OrderedDict.mem_keys_of_get? hn), List.append_nil]
    rfl
  | none =>
    rw [if_neg (OrderedDict.get?_eq_none_iff.1 hn)]
    exact requests_requestFrame

theorem get?_pruneKey {key : Nat} : (s.pruneKey v n key).inflight.get? k =
    if k = key ∧ (key < n ∨ n + v.backlogCount < key) then none else s.inflight.get? k := by
  unfold pruneKey
  by_cases hstale : key < n ∨ n + v.backlogCount < key
  · rw [if_pos hstale]
    simp only [hstale, and_true]
    cases hkey : s.inflight.get? key with
    | some r => exact OrderedDict.get?_erase ..
    | none =>
      by_cases hk : k = key
      · rw [if_pos hk, hk]
        exact hkey
      · rw [if_neg hk]
  · rw [if_neg hstale, if_neg (fun h => hstale h.2)]

theorem get?_prune : (s.prune v n keys).inflight.get? k =
    if k ∈ keys ∧ (k < n ∨ n + v.backlogCount < k) then none else s.inflight.get? k := by
  induction keys generalizing s with
  | nil => simp [prune]
  | cons key keys ih =>
    rw [prune, ih, get?_pruneKey]
    by_cases hk : k = key
    · subst hk
      by_cases hstale : k < n ∨ n + v.backlogCount < k
      · simp [hstale]
      · simp [hstale]
    · simp [hk]

/-- The loop goes over every key there is. -/
theorem get?_prune_keys : (s.prune v n s.inflight.keys).inflight.get? k =
    if k < n ∨ n + v.backlogCount < k then none else s.inflight.get? k := by
  rw [get?_prune]
  by_cases hk : k ∈ s.inflight.keys
  · simp only [hk, true_and]
  · rw [if_neg (fun h => hk h.1), OrderedDict.get?_eq_none_iff.2 hk]
    split <;> rfl

theorem get?_prefetchKey {key : Nat} (h : s.inflight.get? k = some r) :
    (s.prefetchKey v key).inflight.get? k = some r := by
  unfold prefetchKey
  by_cases hkey : s.inflight.contains key = true
  · rw [if_pos hkey]
    exact h
  · rw [if_neg hkey]
    have hne : k ≠ key := by
      intro heq
      exact hkey (OrderedDict.contains_iff.2 (heq ▸ OrderedDict.mem_keys_of_get? h))
    refine (OrderedDict.get?_set ..).trans ?_
    rw [if_neg hne]
    exact h

theorem mem_keys_prefetchKey {key : Nat} :
    k ∈ (s.prefetchKey v key).inflight.keys ↔ k ∈ s.inflight.keys ∨ k = key := by
  unfold prefetchKey
  by_cases hkey : s.inflight.contains key = true
  · rw [if_pos hkey]
    have hmem := OrderedDict.contains_iff.1 hkey
    exact ⟨.inl, fun h => h.elim id (fun heq => heq ▸ hmem)⟩
  · rw [if_neg hkey, OrderedDict.mem_keys_iff, OrderedDict.mem_keys_iff]
    have hget := OrderedDict.get?_set s.inflight key k s.futures.length
    change ((s.inflight.set key s.futures.length).get? k).isSome = true ↔ _
    rw [hget]
    by_cases hk : k = key <;> simp [hk]

theorem inWindow_prefetchKey {key : Nat} (hwin : ∀ k ∈ s.inflight.keys, InWindow v n k) (hkey : InWindow v n key) :
    ∀ k ∈ (s.prefetchKey v key).inflight.keys, InWindow v n k := by
  intro k hk
  rcases mem_keys_prefetchKey.1 hk with hk | rfl
  · exact hwin k hk
  · exact hkey

theorem get?_refill (h : s.inflight.get? k = some r) : (s.refill v keys).inflight.get? k = some r := by
  induction keys generalizing s with
  | nil => exact h
  | cons key keys ih =>
    rw [refill]
    split
    · exact h
    · exact ih (get?_prefetchKey h)

theorem mem_keys_of_refill (h : k ∈ (s.refill v keys).inflight.keys) : k ∈ s.inflight.keys ∨ k ∈ keys := by
  induction keys generalizing s with
  | nil => exact .inl h
  | cons key keys ih =>
    rw [refill] at h
    split at h
    · exact .inl h
    · rcases ih h with h | h
      · rcases mem_keys_prefetchKey.1 h with hmem | rfl
        · exact .inl hmem
        · exact .inr List.mem_cons_self
      · exact .inr (List.mem_cons_of_mem _ h)

/-- As many keys as the backlog allows are all the frames of the window. -/
theorem mem_keys_of_full (hwin : ∀ k ∈ s.inflight.keys, InWindow v n k) (hfull : v.backlogCount ≤ s.inflight.size)
    (hk : InWindow v n k) : k ∈ s.inflight.keys := by
  refine OrderedDict.mem_keys_of_card_le (A := Finset.Ioc n (n + v.backlogCount)) ?_ ?_ (Finset.mem_Ioc.2 hk)
  · exact fun j hj => Finset.mem_Ioc.2 (hwin j hj)
  · rw [Nat.card_Ioc]
    omega

/-- The refill loop stops early only where there is nothing left to request. -/
theorem requests_refill_eq (hnodup : keys.Nodup) (hkeys : ∀ k ∈ keys, InWindow v n k)
    (hwin : ∀ k ∈ s.inflight.keys, InWindow v n k) :
    (s.refill v keys).requests = s.requests ++ (keys.filter (· ∉ s.inflight.keys)).map v.frameRequest := by
  induction keys generalizing s with
  | nil => exact (List.append_nil _).symm
  | cons key keys ih =>
    obtain ⟨hnot, hnodup⟩ := List.nodup_cons.1 hnodup
    rw [refill]
    by_cases hfull : v.backlogCount ≤ s.inflight.size
    · have hnone : (key :: keys).filter (· ∉ s.inflight.keys) = [] := by
        refine List.filter_eq_nil_iff.2 (fun k hk => ?_)
        have hmem := mem_keys_of_full hwin hfull (hkeys k hk)
        simpa using hmem
      rw [if_pos hfull, hnone, List.map_nil, List.append_nil]
    · have hwin' := inWindow_prefetchKey hwin (hkeys key List.mem_cons_self)
      have hrest : keys.filter (· ∉ (s.prefetchKey v key).inflight.keys) = keys.filter (· ∉ s.inflight.keys) := by
        refine List.filter_congr (fun k hk => ?_)
        have hne : k ≠ key := fun heq => hnot (heq ▸ hk)
        simp [mem_keys_prefetchKey, hne]
      rw [if_neg hfull, ih hnodup (fun k hk => hkeys k (List.mem_cons_of_mem _ hk)) hwin', hrest,
        requests_prefetchKey, List.append_assoc]
      by_cases hkey : key ∈ s.inflight.keys
      · rw [List.filter_cons_of_neg (by simpa using hkey), if_pos (OrderedDict.contains_iff.2 hkey),
          List.nil_append]
      · have hcontains : s.inflight.contains key ≠ true := fun h => hkey (OrderedDict.contains_iff.1 h)
        rw [List.filter_cons_of_pos (by simpa using hkey), if_neg hcontains, List.map_cons, List.singleton_append]

theorem mem_keys_refill (hkeys : ∀ k ∈ keys, InWindow v n k) (hwin : ∀ k ∈ s.inflight.keys, InWindow v n k)
    (hk : k ∈ keys) : k ∈ (s.refill v keys).inflight.keys := by
  induction keys generalizing s with
  | nil => cases hk
  | cons key keys ih =>
    rw [refill]
    by_cases hfull : v.backlogCount ≤ s.inflight.size
    · rw [if_pos hfull]
      exact mem_keys_of_full hwin hfull (hkeys k hk)
    · rw [if_neg hfull]
      have hwin' := inWindow_prefetchKey hwin (hkeys key List.mem_cons_self)
      rcases List.mem_cons.1 hk with rfl | hk
      · obtain ⟨r, hr⟩ := Option.isSome_iff_exists.1 (OrderedDict.mem_keys_iff.1
          (mem_keys_prefetchKey.2 (.inr rfl) : k ∈ (s.prefetchKey v k).inflight.keys))
        exact OrderedDict.mem_keys_of_get? (get?_refill hr)
      · exact ih (fun k hk => hkeys k (List.mem_cons_of_mem _ hk)) hwin' hk

/-- Before the loop over the prefetch range. -/
def pruned (v : RemoteVnode) (n : Nat) (s : PrefetchState) : PrefetchState :=
  (s.takeFrame v n).2.prune v n (s.takeFrame v n).2.inflight.keys

theorem fetchLocked_eq (hP : v.prefetchCount ≠ 0) :
    s.fetchLocked v n = ((s.takeFrame v n).1, (s.pruned v n).refill v (v.prefetchRange n)) := by
  unfold fetchLocked
  simp only [hP, if_false]
  rfl

theorem get?_pruned : (s.pruned v n).inflight.get? k = if InWindow v n k then s.inflight.get? k else none := by
  rw [pruned, get?_prune_keys, get?_takeFrame]
  by_cases hk : InWindow v n k
  · obtain ⟨hlo, hhi⟩ := id hk
    rw [if_neg (by omega), if_neg (by omega), if_pos hk]
  · rw [if_neg hk]
    split_ifs with hstale hn
    · rfl
    · rfl
    · exact absurd ⟨by omega, by omega⟩ hk

theorem mem_keys_pruned : k ∈ (s.pruned v n).inflight.keys ↔ InWindow v n k ∧ k ∈ s.inflight.keys := by
  rw [OrderedDict.mem_keys_iff, OrderedDict.mem_keys_iff, get?_pruned]
  by_cases hk : InWindow v n k <;> simp [hk]

theorem inWindow_of_mem_prefetchRange (hk : k ∈ v.prefetchRange n) : InWindow v n k := by
  have hle := prefetchCount_le_backlogCount v
  obtain ⟨hlo, hhi, -⟩ := mem_prefetchRange.1 hk
  exact ⟨hlo, by omega⟩

/-- What is asked for by a remote node lies in its clip. -/
def InClip (v : RemoteVnode) (s : PrefetchState) : Prop := ∀ k ∈ s.inflight.keys, (k : Int) < v.numFrames

theorem InClip.fetchLocked (h : InClip v s) : InClip v (s.fetchLocked v n).2 := by
  have htake : InClip v (s.takeFrame v n).2 := by
    intro k hk
    rw [OrderedDict.mem_keys_iff, get?_takeFrame] at hk
    split at hk
    · cases hk
    · exact h k (OrderedDict.mem_keys_iff.2 hk)
  by_cases hP : v.prefetchCount = 0
  · unfold PrefetchState.fetchLocked
    rw [if_pos hP]
    exact htake
  · rw [fetchLocked_eq hP]
    intro k hk
    rcases mem_keys_of_refill hk with hk | hk
    · exact h k (mem_keys_pruned.1 hk).2
    · exact (mem_prefetchRange.1 hk).2.2

theorem InClip.step {l : PrefetchLabel} {s' : PrefetchState} (h : InClip v s) (hs : v.step l s = some s') :
    InClip v s' := by
  cases l with
  | fetch n =>
    simp only [RemoteVnode.step] at hs
    split at hs
    · obtain rfl := Option.some.inj hs
      exact h.fetchLocked
    · cases hs
  | settle fut state =>
    simp only [RemoteVnode.step] at hs
    split at hs
    · obtain rfl := Option.some.inj hs
      exact h
    · cases hs

/-- The locked section of `fetch_frame(n)`, from `s` to `s'`. -/
structure Refilled (v : RemoteVnode) (n : Nat) (s s' : PrefetchState) : Prop where
  covered : ∀ k, n < k → k ≤ n + v.prefetchCount → (k : Int) < v.numFrames → k ∈ s'.inflight.keys
  window : ∀ k ∈ s'.inflight.keys, n < k ∧ k ≤ n + v.backlogCount ∧ (k : Int) < v.numFrames
  size : s'.inflight.size ≤ v.backlogCount
  stale : ∀ k r, s.inflight.get? k = some r → (k < n ∨ n + v.backlogCount < k) →
    s.cancelsOf r = 0 ∧ s'.cancelsOf r = 1
  kept : ∀ k r, s.inflight.get? k = some r → n < k → k ≤ n + v.backlogCount →
    s'.inflight.get? k = some r ∧ s'.cancelsOf r = 0
  issued : s'.requests = s.requests ++ (if n ∈ s.inflight.keys then [] else [v.frameRequest n]) ++
    ((v.prefetchRange n).filter (· ∉ s.inflight.keys)).map v.frameRequest

theorem Owned.cancelsOf_eq_zero (h : Owned v calls keys s) (hk : s.inflight.get? k = some r) : s.cancelsOf r = 0 := by
  have honce := h.once r
  have hcount : 0 < s.inflight.values.count r := List.count_pos_iff.2 (OrderedDict.mem_values_of_get? hk)
  have hissued : s.issued r ≤ 1 := by
    unfold PrefetchState.issued
    split <;> omega
  unfold owners at honce
  omega

/-- A future that was in the map and that neither the map nor the call has
afterwards was cancelled, once. -/
theorem Owned.cancelsOf_eq_one {fut : Nat} {s' : PrefetchState} (h : Owned v calls [] s) (h' : Owned v calls [fut] s')
    (hlength : s.futures.length ≤ s'.futures.length)
    (hk : s.inflight.get? k = some r) (hgone : r ∉ s'.inflight.values) (hfut : fut ≠ r) : s'.cancelsOf r = 1 := by
  have honce := h.once r
  have honce' := h'.once r
  have hcount : 0 < s.inflight.values.count r := List.count_pos_iff.2 (OrderedDict.mem_values_of_get? hk)
  have hcount' : s'.inflight.values.count r = 0 := List.count_eq_zero.2 hgone
  have hlt : r < s.futures.length := by
    have hrequest := Lookup.lt_length (h.keyed k r hk)
    rwa [requests, List.length_map] at hrequest
  have hissued : s.issued r = 1 := if_pos hlt
  have hissued' : s'.issued r = 1 := if_pos (by omega)
  rw [List.count_singleton, if_neg (by simpa using hfut)] at honce'
  simp only [owners] at honce honce'
  omega

theorem frame_unique {s' : PrefetchState} {m : Nat} (hmore : s.requests <+: s'.requests)
    (hk : s.requests[r]? = some (v.frameRequest k)) (hm : s'.requests[r]? = some (v.frameRequest m)) : k = m := by
  obtain ⟨more, hmore⟩ := hmore
  rw [← hmore, List.getElem?_append_left (Lookup.lt_length hk), hk] at hm
  exact frameRequest_injective (Option.some.inj hm)

theorem inWindow_fetchLocked (hP : v.prefetchCount ≠ 0) (hk : k ∈ (s.fetchLocked v n).2.inflight.keys) :
    InWindow v n k := by
  rw [fetchLocked_eq hP] at hk
  rcases mem_keys_of_refill hk with hk | hk
  · exact (mem_keys_pruned.1 hk).1
  · exact inWindow_of_mem_prefetchRange hk

theorem requests_fetchLocked (hP : v.prefetchCount ≠ 0) : (s.fetchLocked v n).2.requests =
    s.requests ++ (if n ∈ s.inflight.keys then [] else [v.frameRequest n]) ++
      ((v.prefetchRange n).filter (· ∉ s.inflight.keys)).map v.frameRequest := by
  have hnodup : (v.prefetchRange n).Nodup := List.nodup_range'
  have hmissing : (v.prefetchRange n).filter (· ∉ (s.pruned v n).inflight.keys) =
      (v.prefetchRange n).filter (· ∉ s.inflight.keys) := by
    refine List.filter_congr (fun k hk => ?_)
    have hmem : k ∈ (s.pruned v n).inflight.keys ↔ k ∈ s.inflight.keys := by
      rw [mem_keys_pruned, and_iff_right (inWindow_of_mem_prefetchRange hk)]
    exact decide_eq_decide.2 (not_congr hmem)
  rw [fetchLocked_eq hP, requests_refill_eq hnodup (fun k hk => inWindow_of_mem_prefetchRange hk)
    (fun k hk => (mem_keys_pruned.1 hk).1), hmissing, pruned, requests_prune, requests_takeFrame]

theorem Owned.refilled (h : Owned v calls [] s) (hclip : InClip v s) (hP : v.prefetchCount ≠ 0) :
    Refilled v n s (s.fetchLocked v n).2 := by
  obtain ⟨howned, hasked⟩ := h.fetchLocked (n := n)
  have hissued := requests_fetchLocked (s := s) (n := n) hP
  have hmore : s.requests <+: (s.fetchLocked v n).2.requests := by
    rw [hissued, List.append_assoc]
    exact List.prefix_append ..
  refine ⟨?_, ?_, ?_, ?_, ?_, hissued⟩
  · intro k hlo hhi hin
    rw [fetchLocked_eq hP]
    exact mem_keys_refill (fun k hk => inWindow_of_mem_prefetchRange hk) (fun k hk => (mem_keys_pruned.1 hk).1)
      (mem_prefetchRange.2 ⟨hlo, hhi, hin⟩)
  · intro k hk
    obtain ⟨hlo, hhi⟩ := inWindow_fetchLocked hP hk
    exact ⟨hlo, hhi, hclip.fetchLocked k hk⟩
  · have hcard := OrderedDict.size_le_card (A := Finset.Ioc n (n + v.backlogCount))
      (fun k hk => Finset.mem_Ioc.2 (inWindow_fetchLocked (s := s) hP hk))
    rw [Nat.card_Ioc] at hcard
    omega
  · intro k r hk hstale
    have hlength : s.futures.length ≤ (s.fetchLocked v n).2.futures.length := by
      have hle := hmore.length_le
      rwa [requests, requests, List.length_map, List.length_map] at hle
    refine ⟨h.cancelsOf_eq_zero hk, h.cancelsOf_eq_one howned hlength hk ?_ ?_⟩
    · intro hmem
      obtain ⟨m, hm⟩ := OrderedDict.exists_get?_of_mem_values hmem
      have hkm := frame_unique hmore (h.keyed k r hk) (howned.keyed m r hm)
      obtain ⟨hlo, hhi⟩ := inWindow_fetchLocked hP (OrderedDict.mem_keys_of_get? hm)
      omega
    · rintro rfl
      have hkn := frame_unique hmore (h.keyed k _ hk) hasked
      omega
  · intro k r hk hlo hhi
    have hget : (s.fetchLocked v n).2.inflight.get? k = some r := by
      rw [fetchLocked_eq hP]
      refine get?_refill ?_
      rw [get?_pruned, if_pos ⟨hlo, hhi⟩]
      exact hk
    exact ⟨hget, howned.cancelsOf_eq_zero hget⟩

/-- In every state that calls of `fetch_frame` lead to. -/
theorem window_never_starved {v : RemoteVnode} {ls : List PrefetchLabel} {s : PrefetchState} {n : Nat}
    (hP : 1 ≤ v.prefetch) (hr : Runs.run v.step ls {} = some s) :
    Refilled v n s (s.fetchLocked v n).2 := by
  have hinv : (∃ calls, Owned v calls [] s) ∧ InClip v s := by
    refine Runs.run_inv (I := fun s => (∃ calls, Owned v calls [] s) ∧ InClip v s) ?_ ⟨⟨[], Owned.empty⟩, ?_⟩ hr
    · rintro s l s' ⟨⟨calls, h⟩, hclip⟩ hs
      exact ⟨⟨_, h.step hs⟩, hclip.step hs⟩
    · intro k hk
      cases hk
  obtain ⟨⟨calls, howned⟩, hclip⟩ := hinv
  refine howned.refilled hclip ?_
  unfold RemoteVnode.prefetchCount
  omega

def seekNode : RemoteVnode := ⟨0, .zstd, 2, some 5, 10⟩

/-- Frames 7 and 8 are still in flight from before the seek back to 3. -/
theorem window_never_starved_seek : ∃ s, Runs.run seekNode.step [.fetch 6, .fetch 3] {} = some s ∧
    s.inflight.keys = [7, 8, 4, 5] ∧ Refilled seekNode 4 s (s.fetchLocked seekNode 4).2 := by
  refine ⟨_, rfl, by decide, ?_⟩
  exact window_never_starved (by decide) (show Runs.run seekNode.step [.fetch 6, .fetch 3] {} = some _ from rfl)

end PrefetchState

end VsRemote
