import Mathlib.Data.Finset.Card
import Mathlib.Data.List.Nodup

/-! Dictionaries that remember the order in which their keys were added.
Replacing the value of a key keeps the key's place. -/

structure OrderedDict (κ ν : Type) where
  entries : List (κ × ν)
  nodup : (entries.map Prod.fst).Nodup
  deriving DecidableEq

namespace OrderedDict

variable {κ ν : Type}

def empty : OrderedDict κ ν := ⟨[], List.nodup_nil⟩

def keys (d : OrderedDict κ ν) : List κ := d.entries.map Prod.fst

def values (d : OrderedDict κ ν) : List ν := d.entries.map Prod.snd

def size (d : OrderedDict κ ν) : Nat := d.entries.length

theorem ext_entries {d d' : OrderedDict κ ν} (h : d.entries = d'.entries) : d = d' := by
  cases d
  cases d'
  cases h
  rfl

def mapValues {μ : Type} (f : ν → μ) (d : OrderedDict κ ν) : OrderedDict κ μ :=
  ⟨d.entries.map (fun e => (e.1, f e.2)), by simpa only [List.map_map, Function.comp_def] using d.nodup⟩

theorem keys_mapValues {μ : Type} (f : ν → μ) (d : OrderedDict κ ν) : (d.mapValues f).keys = d.keys := by
  simp only [keys, mapValues, List.map_map, Function.comp_def]

theorem size_mapValues {μ : Type} (f : ν → μ) (d : OrderedDict κ ν) : (d.mapValues f).size = d.size := List.length_map ..

variable [DecidableEq κ]

def get? (d : OrderedDict κ ν) (k : κ) : Option ν := d.entries.lookup k

def contains (d : OrderedDict κ ν) (k : κ) : Bool := (d.get? k).isSome

def replace (k : κ) (v : ν) (e : κ × ν) : κ × ν := if e.1 = k then (k, v) else e

theorem lookup_cons (e : κ × ν) (l : List (κ × ν)) (k : κ) :
    (e :: l).lookup k = if k = e.1 then some e.2 else l.lookup k := by
  rw [List.lookup_cons]
  by_cases h : k = e.1
  · rw [if_pos h, beq_iff_eq.mpr h]
  · rw [if_neg h, beq_eq_false_iff_ne.mpr h]

theorem lookup_isSome_iff {k : κ} {l : List (κ × ν)} :
    (l.lookup k).isSome ↔ k ∈ l.map Prod.fst := by
  induction l with
  | nil => simp
  | cons e l ih =>
    by_cases h : k = e.1
    · simp [lookup_cons, h]
    · simp [lookup_cons, h, ih]

theorem map_fst_replace (k : κ) (v : ν) (l : List (κ × ν)) :
    (l.map (replace k v)).map Prod.fst = l.map Prod.fst := by
  rw [List.map_map]
  apply List.map_congr_left
  intro e _
  by_cases h : e.1 = k <;> simp [replace, h]

def set (d : OrderedDict κ ν) (k : κ) (v : ν) : OrderedDict κ ν :=
  if h : k ∈ d.keys then
    ⟨d.entries.map (replace k v), by rw [map_fst_replace]; exact d.nodup⟩
  else
    ⟨d.entries ++ [(k, v)], by
      rw [List.map_append, List.nodup_append]
      refine ⟨d.nodup, List.nodup_singleton _, ?_⟩
      rintro a ha b hb rfl
      simp only [List.map_cons, List.map_nil, List.mem_singleton] at hb
      exact h (hb ▸ ha)⟩

def erase (d : OrderedDict κ ν) (k : κ) : OrderedDict κ ν :=
  ⟨d.entries.filter (fun e => e.1 ≠ k), d.nodup.sublist (List.filter_sublist.map _)⟩

theorem mem_keys_iff {d : OrderedDict κ ν} {k : κ} : k ∈ d.keys ↔ (d.get? k).isSome :=
  lookup_isSome_iff.symm

theorem mem_keys_of_get? {d : OrderedDict κ ν} {k : κ} {v : ν} (h : d.get? k = some v) :
    k ∈ d.keys := mem_keys_iff.mpr (by simp [h])

theorem get?_eq_none_iff {d : OrderedDict κ ν} {k : κ} : d.get? k = none ↔ k ∉ d.keys := by
  rw [mem_keys_iff, Option.not_isSome_iff_eq_none]

theorem contains_iff {d : OrderedDict κ ν} {k : κ} : d.contains k = true ↔ k ∈ d.keys :=
  mem_keys_iff.symm

theorem mem_values_of_get? {d : OrderedDict κ ν} {k : κ} {v : ν} (h : d.get? k = some v) : v ∈ d.values := by
  have hlookup : ∀ l : List (κ × ν), l.lookup k = some v → v ∈ l.map Prod.snd := by
    intro l hl
    induction l with
    | nil => cases hl
    | cons e l ih =>
      rw [lookup_cons] at hl
      rw [List.map_cons]
      split at hl
      · exact Option.some.inj hl ▸ List.mem_cons_self
      · exact List.mem_cons_of_mem _ (ih hl)
  exact hlookup d.entries h

theorem get?_of_mem_entries {d : OrderedDict κ ν} {k : κ} {v : ν} (h : (k, v) ∈ d.entries) : d.get? k = some v := by
  obtain ⟨entries, hnodup⟩ := d
  simp only [get?] at h ⊢
  induction entries with
  | nil => cases h
  | cons e l ih =>
    rw [List.map_cons, List.nodup_cons] at hnodup
    rcases List.mem_cons.1 h with rfl | hmem
    · rw [lookup_cons, if_pos rfl]
    · have hne : k ≠ e.1 := fun heq => hnodup.1 (heq ▸ List.mem_map_of_mem hmem)
      rw [lookup_cons, if_neg hne]
      exact ih hnodup.2 hmem

theorem exists_get?_of_mem_values {d : OrderedDict κ ν} {v : ν} (h : v ∈ d.values) : ∃ k, d.get? k = some v := by
  obtain ⟨e, he, rfl⟩ := List.mem_map.1 h
  exact ⟨e.1, get?_of_mem_entries he⟩

theorem keys_eq_nil {d : OrderedDict κ ν} (h : ∀ k, d.get? k = none) : d.keys = [] :=
  List.eq_nil_iff_forall_not_mem.2 (fun k => get?_eq_none_iff.1 (h k))

theorem lookup_map_replace (k j : κ) (v : ν) (l : List (κ × ν)) :
    (l.map (replace k v)).lookup j =
      if j = k then (if k ∈ l.map Prod.fst then some v else none) else l.lookup j := by
  induction l with
  | nil => simp
  | cons e l ih =>
    by_cases he : e.1 = k <;> by_cases hj : j = k
    · simp [replace, he, hj, lookup_cons]
    · simp [replace, he, hj, lookup_cons, ih]
    · subst hj
      have hne : j ≠ e.1 := fun h => he h.symm
      have hmem : j ∈ (e :: l).map Prod.fst ↔ j ∈ l.map Prod.fst := by simp [hne]
      simp only [List.map_cons, replace, he, if_false, lookup_cons, hne, ih, if_true]
      simp only [← List.map_cons, hmem]
    · by_cases hje : j = e.1
      · simp [replace, he, hje, lookup_cons]
      · simp [replace, he, hj, hje, lookup_cons, ih]

theorem lookup_append_single (l : List (κ × ν)) (k j : κ) (v : ν) :
    (l ++ [(k, v)]).lookup j =
      (l.lookup j).or (if j = k then some v else none) := by
  induction l with
  | nil => by_cases h : j = k <;> simp [lookup_cons, h]
  | cons e l ih =>
    by_cases h : j = e.1
    · simp [lookup_cons, h]
    · simp [lookup_cons, h, ih]

theorem entries_set (d : OrderedDict κ ν) (k : κ) (v : ν) :
    (d.set k v).entries =
      if k ∈ d.keys then d.entries.map (replace k v) else d.entries ++ [(k, v)] := by
  unfold set
  split_ifs <;> rfl

theorem get?_set (d : OrderedDict κ ν) (k j : κ) (v : ν) :
    (d.set k v).get? j = if j = k then some v else d.get? j := by
  unfold get?
  rw [entries_set]
  by_cases hk : k ∈ d.keys
  · rw [if_pos hk, lookup_map_replace, if_pos (show k ∈ d.entries.map Prod.fst from hk)]
  · have hn : d.entries.lookup k = none := get?_eq_none_iff.mpr hk
    rw [if_neg hk, lookup_append_single]
    by_cases hj : j = k
    · simp [hj, hn]
    · simp [hj]

theorem lookup_filter_ne (l : List (κ × ν)) (k j : κ) :
    (l.filter (fun e => e.1 ≠ k)).lookup j = if j = k then none else l.lookup j := by
  induction l with
  | nil => simp
  | cons e l ih =>
    by_cases he : e.1 = k
    · rw [List.filter_cons_of_neg (by simp [he]), ih]
      by_cases hj : j = k
      · simp [hj]
      · have hje : j ≠ e.1 := fun h => hj (h.trans he)
        simp [lookup_cons, hj, hje]
    · rw [List.filter_cons_of_pos (by simp [he])]
      by_cases hje : j = e.1
      · simp [lookup_cons, hje, he]
      · simp only [lookup_cons, ih]
        simp [hje]

theorem get?_erase (d : OrderedDict κ ν) (k j : κ) :
    (d.erase k).get? j = if j = k then none else d.get? j :=
  lookup_filter_ne d.entries k j

theorem erase_of_not_mem {d : OrderedDict κ ν} {k : κ} (h : k ∉ d.keys) : d.erase k = d := by
  apply ext_entries
  refine List.filter_eq_self.2 (fun e he => ?_)
  have hne : e.1 ≠ k := fun heq => h (heq ▸ List.mem_map_of_mem he)
  simpa using hne

theorem values_set_of_not_mem {d : OrderedDict κ ν} {k : κ} (v : ν) (h : k ∉ d.keys) :
    (d.set k v).values = d.values ++ [v] := by
  unfold values
  rw [entries_set, if_neg h, List.map_append]
  rfl

theorem count_values_erase [DecidableEq ν] {d : OrderedDict κ ν} {k : κ} {v : ν} (h : d.get? k = some v) (w : ν) :
    d.values.count w = (d.erase k).values.count w + if v = w then 1 else 0 := by
  obtain ⟨entries, hnodup⟩ := d
  simp only [get?, values, erase] at h ⊢
  induction entries with
  | nil => cases h
  | cons e l ih =>
    rw [List.map_cons, List.nodup_cons] at hnodup
    rw [lookup_cons] at h
    by_cases he : e.1 = k
    · rw [if_pos he.symm] at h
      have hrest : l.filter (fun e => decide (e.1 ≠ k)) = l := by
        refine List.filter_eq_self.2 (fun x hx => ?_)
        have hne : x.1 ≠ k := fun heq => hnodup.1 (he ▸ heq ▸ List.mem_map_of_mem hx)
        simpa using hne
      rw [List.filter_cons_of_neg (by simp [he]), hrest, List.map_cons, List.count_cons, Option.some.inj h]
      simp only [beq_iff_eq]
    · rw [if_neg (fun hk => he hk.symm)] at h
      have hcount := ih hnodup.2 h
      rw [List.filter_cons_of_pos (by simp [he]), List.map_cons, List.map_cons, List.count_cons, List.count_cons]
      omega

theorem mem_values_erase {d : OrderedDict κ ν} {k : κ} {v : ν} (h : v ∈ (d.erase k).values) : v ∈ d.values :=
  (List.filter_sublist.map _).subset h

theorem mem_values_set {d : OrderedDict κ ν} {k : κ} {v w : ν} (h : v ∈ (d.set k w).values) :
    v ∈ d.values ∨ v = w := by
  unfold values at h
  rw [entries_set] at h
  split at h
  · rw [List.map_map] at h
    obtain ⟨e, he, rfl⟩ := List.mem_map.1 h
    simp only [Function.comp, replace]
    split
    · exact .inr rfl
    · exact .inl (List.mem_map_of_mem he)
  · rw [List.map_append, List.mem_append] at h
    exact h.imp id List.mem_singleton.1

theorem get?_of_get?_erase {d : OrderedDict κ ν} {k j : κ} {v : ν}
    (h : (d.erase k).get? j = some v) : j ≠ k ∧ d.get? j = some v := by
  rw [get?_erase] at h
  split_ifs at h with hj
  exact ⟨hj, h⟩

theorem size_eq_card_keys (d : OrderedDict κ ν) : d.size = d.keys.toFinset.card := by
  have hn : d.keys.Nodup := d.nodup
  rw [List.toFinset_card_of_nodup hn]
  simp [keys, size]

theorem size_le_card {d : OrderedDict κ ν} {A : Finset κ} (hsub : ∀ k ∈ d.keys, k ∈ A) : d.size ≤ A.card := by
  rw [size_eq_card_keys]
  exact Finset.card_le_card (fun k hk => hsub k (List.mem_toFinset.1 hk))

/-- Keys within a set of no more elements than there are keys are the whole set. -/
theorem mem_keys_of_card_le {d : OrderedDict κ ν} {A : Finset κ} {k : κ} (hsub : ∀ k ∈ d.keys, k ∈ A)
    (hcard : A.card ≤ d.size) (hk : k ∈ A) : k ∈ d.keys := by
  have hle : d.keys.toFinset ⊆ A := fun j hj => hsub j (List.mem_toFinset.1 hj)
  have heq := Finset.eq_of_subset_of_card_le hle (size_eq_card_keys d ▸ hcard)
  exact List.mem_toFinset.1 (heq ▸ hk)

theorem size_set_le (d : OrderedDict κ ν) (k : κ) (v : ν) : (d.set k v).size ≤ d.size + 1 := by
  unfold size
  rw [entries_set]
  by_cases hk : k ∈ d.keys
  · rw [if_pos hk, List.length_map]
    omega
  · rw [if_neg hk, List.length_append]
    exact Nat.le_refl _

theorem size_le_of_get? {d d' : OrderedDict κ ν}
    (hsub : ∀ k v, d'.get? k = some v → d.get? k = some v) : d'.size ≤ d.size := by
  rw [size_eq_card_keys, size_eq_card_keys]
  refine Finset.card_le_card (fun k hk => ?_)
  rw [List.mem_toFinset, mem_keys_iff] at hk
  obtain ⟨v, hv⟩ := Option.isSome_iff_exists.1 hk
  exact List.mem_toFinset.2 (mem_keys_of_get? (hsub k v hv))

section

variable {μ : Type} (f : ν → μ)

theorem get?_mapValues (d : OrderedDict κ ν) (k : κ) : (d.mapValues f).get? k = (d.get? k).map f := by
  have hlookup : ∀ l : List (κ × ν), (l.map (fun e => (e.1, f e.2))).lookup k = (l.lookup k).map f := by
    intro l
    induction l with
    | nil => rfl
    | cons e l ih =>
      rw [List.map_cons, lookup_cons, lookup_cons, ih]
      split <;> rfl
  exact hlookup d.entries

theorem mapValues_erase (d : OrderedDict κ ν) (k : κ) : (d.erase k).mapValues f = (d.mapValues f).erase k := by
  apply ext_entries
  simp only [mapValues, erase, List.filter_map, Function.comp_def]

theorem mapValues_set (d : OrderedDict κ ν) (k : κ) (v : ν) :
    (d.set k v).mapValues f = (d.mapValues f).set k (f v) := by
  apply ext_entries
  have hkeys := keys_mapValues f d
  simp only [mapValues, entries_set] at hkeys ⊢
  rw [hkeys]
  by_cases hk : k ∈ d.keys
  · simp only [hk, if_true, List.map_map]
    apply List.map_congr_left
    intro e _
    by_cases he : e.1 = k <;> simp [replace, he]
  · simp only [hk, if_false, List.map_append, List.map_cons, List.map_nil]

theorem mapValues_congr {d : OrderedDict κ ν} {f g : ν → μ} (h : ∀ k v, d.get? k = some v → f v = g v) :
    d.mapValues f = d.mapValues g := by
  have hentries : ∀ e ∈ d.entries, f e.2 = g e.2 := by
    intro e he
    refine h e.1 e.2 ?_
    have hmem : e ∈ d.entries := he
    have hnodup := d.nodup
    revert hnodup hmem
    simp only [get?]
    induction d.entries with
    | nil => simp
    | cons x l ih =>
      intro hmem hnodup
      rw [lookup_cons]
      rw [List.map_cons, List.nodup_cons] at hnodup
      rcases List.mem_cons.1 hmem with rfl | hmem
      · rw [if_pos rfl]
      · have hne : e.1 ≠ x.1 := by
          intro heq
          exact hnodup.1 (heq ▸ List.mem_map_of_mem hmem)
        rw [if_neg hne]
        exact ih hmem hnodup.2
  apply ext_entries
  exact List.map_congr_left (fun e he => by rw [hentries e he])

end

theorem get?_foldl_erase (l : List (κ × ν)) (d : OrderedDict κ ν) (k : κ) :
    (l.foldl (fun d e => d.erase e.1) d).get? k = if k ∈ l.map Prod.fst then none else d.get? k := by
  induction l generalizing d with
  | nil => simp
  | cons e l ih =>
    rw [List.foldl_cons, ih, get?_erase]
    by_cases hk : k = e.1
    · simp [hk]
    · simp only [List.map_cons, List.mem_cons, hk, false_or, if_false]

section

variable {ι : Type}

/-- The dictionary leads from every key to the one index that has it. -/
def Inverts (d : OrderedDict κ ι) (f : ι → Option κ) : Prop := ∀ k i, d.get? k = some i ↔ f i = some k

variable [DecidableEq ι] {d : OrderedDict κ ι} {f : ι → Option κ} {k : κ} {i : ι}

theorem Inverts.set (h : d.Inverts f) (hi : f i = none) (hk : ∀ j, f j ≠ some k) :
    (d.set k i).Inverts (Function.update f i (some k)) := by
  intro k' j
  rw [get?_set]
  by_cases hj : j = i
  · subst hj
    rw [Function.update_self]
    by_cases hkk : k' = k
    · simp [hkk]
    · have hnone : d.get? k' ≠ some j := fun hget => by simp [(h k' j).1 hget] at hi
      simp [hkk, hnone, Ne.symm hkk]
  · rw [Function.update_of_ne hj]
    by_cases hkk : k' = k
    · subst hkk
      simp [hk j, Ne.symm hj]
    · rw [if_neg hkk]
      exact h k' j

theorem Inverts.erase (h : d.Inverts f) (hi : f i = some k) : (d.erase k).Inverts (Function.update f i none) := by
  intro k' j
  rw [get?_erase]
  by_cases hj : j = i
  · subst hj
    rw [Function.update_self]
    by_cases hkk : k' = k
    · simp [hkk]
    · have hnone : d.get? k' ≠ some j := fun hget => hkk (Option.some.inj (((h k' j).1 hget).symm.trans hi))
      simp [hkk, hnone]
  · rw [Function.update_of_ne hj]
    by_cases hkk : k' = k
    · subst hkk
      have hne : f j ≠ some k' := fun hfj => hj (Option.some.inj (((h k' j).2 hfj).symm.trans ((h k' i).2 hi)))
      simp [hne]
    · rw [if_neg hkk]
      exact h k' j

end

end OrderedDict
