import Mathlib.Algebra.GroupWithZero.Nat
import Mathlib.Tactic.Common

/-! What stands at an index of a list after one entry was appended or modified. -/

namespace Lookup

variable {α : Type} {xs : List α} {a b : α} {f : α → α} {i r : Nat}

theorem lt_length (h : xs[i]? = some a) : i < xs.length :=
  (List.getElem?_eq_some_iff.1 h).1

theorem of_append (h : (xs ++ [a])[i]? = some b) : xs[i]? = some b ∨ (i = xs.length ∧ b = a) := by
  by_cases hlt : i < xs.length
  · rw [List.getElem?_append_left hlt] at h
    exact .inl h
  · rw [List.getElem?_append_right (by omega), List.getElem?_singleton] at h
    split at h
    · exact .inr ⟨by omega, (Option.some.inj h).symm⟩
    · cases h

theorem append_left (h : xs[i]? = some a) : (xs ++ [b])[i]? = some a := by
  rw [List.getElem?_append_left (lt_length h)]
  exact h

theorem of_modify (h : (xs.modify r f)[i]? = some b) :
    ∃ a, xs[i]? = some a ∧ ((r = i ∧ b = f a) ∨ (r ≠ i ∧ b = a)) := by
  rw [List.getElem?_modify] at h
  obtain ⟨a, ha, rfl⟩ := Option.map_eq_some_iff.1 h
  refine ⟨a, ha, ?_⟩
  by_cases hri : r = i
  · exact .inl ⟨hri, by rw [if_pos hri]⟩
  · exact .inr ⟨hri, by rw [if_neg hri]⟩

theorem modify_eq_self (h : xs[r]? = some a) (hf : f a = a) : xs.modify r f = xs := by
  refine List.ext_getElem? (fun i => ?_)
  rw [List.getElem?_modify]
  by_cases hri : r = i
  · subst hri
    simp [h, hf]
  · simp [hri]

theorem filterMap_modify {β : Type} {g : α → Option β} (hg : ∀ a, g (f a) = g a) :
    (xs.modify r f).filterMap g = xs.filterMap g := by
  induction xs generalizing r with
  | nil => rw [List.modify_nil]
  | cons x xs ih =>
    cases r with
    | zero => simp only [List.modify_zero_cons, List.filterMap_cons, hg]
    | succ r => simp only [List.modify_succ_cons, List.filterMap_cons, ih]

theorem map_modify_of_eq {β : Type} {g : α → β} (hg : ∀ a, g (f a) = g a) : (xs.modify r f).map g = xs.map g := by
  induction xs generalizing r with
  | nil => rw [List.modify_nil]
  | cons x xs ih =>
    cases r with
    | zero => simp only [List.modify_zero_cons, List.map_cons, hg]
    | succ r => simp only [List.modify_succ_cons, List.map_cons, ih]

theorem map_modify {β : Type} {g : α → β} {f' : β → β} (hg : ∀ a, g (f a) = f' (g a)) :
    (xs.modify r f).map g = (xs.map g).modify r f' := by
  refine List.ext_getElem? (fun i => ?_)
  rw [List.getElem?_map, List.getElem?_modify, List.getElem?_modify, List.getElem?_map]
  cases xs[i]? with
  | none => rfl
  | some a =>
    by_cases hri : r = i
    · simp [hri, hg]
    · simp [hri]

theorem map_modify_eq_set {β : Type} (g : α → β) (h : xs[r]? = some a) :
    (xs.modify r f).map g = (xs.map g).set r (g (f a)) := by
  induction xs generalizing r with
  | nil => cases h
  | cons x xs ih =>
    cases r with
    | zero =>
      obtain rfl := Option.some.inj h
      simp only [List.modify_zero_cons, List.map_cons, List.set_cons_zero]
    | succ r => simp only [List.modify_succ_cons, List.map_cons, List.set_cons_succ, ih h]

theorem count_flatMap_modify {β : Type} [BEq β] {g : α → List β} (h : xs[r]? = some a) (m : β) :
    ((xs.modify r f).flatMap g).count m + (g a).count m = (xs.flatMap g).count m + (g (f a)).count m := by
  induction xs generalizing r with
  | nil => cases h
  | cons x xs ih =>
    cases r with
    | zero =>
      obtain rfl := Option.some.inj h
      simp only [List.modify_zero_cons, List.flatMap_cons, List.count_append]
      omega
    | succ r =>
      have hrest := ih h
      simp only [List.modify_succ_cons, List.flatMap_cons, List.count_append]
      omega

theorem countP_modify_of_eq {p : α → Bool} (hp : ∀ a, p (f a) = p a) : (xs.modify r f).countP p = xs.countP p := by
  induction xs generalizing r with
  | nil => rw [List.modify_nil]
  | cons x xs ih =>
    cases r with
    | zero => simp only [List.modify_zero_cons, List.countP_cons, hp]
    | succ r => simp only [List.modify_succ_cons, List.countP_cons, ih]

/-- What a modification does to a total: the old weight goes, the new one comes. -/
theorem sum_modify (w : α → Nat) (h : xs[r]? = some a) :
    ((xs.modify r f).map w).sum + w a = (xs.map w).sum + w (f a) := by
  induction xs generalizing r with
  | nil => cases h
  | cons x xs ih =>
    cases r with
    | zero =>
      obtain rfl := Option.some.inj h
      simp only [List.modify_zero_cons, List.map_cons, List.sum_cons]
      omega
    | succ r =>
      have hrest := ih h
      simp only [List.modify_succ_cons, List.map_cons, List.sum_cons]
      omega

theorem countP_eq_sum (p : α → Bool) (xs : List α) : xs.countP p = (xs.map (fun x => (p x).toNat)).sum := by
  induction xs with
  | nil => rfl
  | cons x xs ih =>
    rw [List.countP_cons, List.map_cons, List.sum_cons, ih]
    cases p x <;> simp only [Bool.toNat_true, Bool.toNat_false, Bool.false_eq_true, if_true, if_false] <;> omega

theorem countP_modify_add (p : α → Bool) (h : xs[r]? = some a) :
    (xs.modify r f).countP p + (p a).toNat = xs.countP p + (p (f a)).toNat := by
  rw [countP_eq_sum, countP_eq_sum]
  exact sum_modify _ h

theorem countP_modify {p : α → Bool} (h : xs[r]? = some a) (ha : p a = false) (hfa : p (f a) = true) :
    (xs.modify r f).countP p = xs.countP p + 1 := by
  have hadd := countP_modify_add (f := f) p h
  rw [ha, hfa] at hadd
  exact hadd

theorem countP_le_modify {p : α → Bool} (hp : ∀ a, p a = true → p (f a) = true) :
    xs.countP p ≤ (xs.modify r f).countP p := by
  induction xs generalizing r with
  | nil => exact Nat.le_of_eq (by rw [List.modify_nil])
  | cons x xs ih =>
    cases r with
    | zero =>
      simp only [List.modify_zero_cons, List.countP_cons]
      by_cases hx : p x = true
      · exact Nat.le_of_eq (by rw [if_pos hx, if_pos (hp x hx)])
      · rw [if_neg hx]
        omega
    | succ r =>
      have hrest := ih (r := r)
      simp only [List.modify_succ_cons, List.countP_cons]
      omega

/-- What is listed once stands at one index. -/
theorem eq_of_nodup_filterMap {β : Type} {g : α → Option β} {p : β → Bool} {k : β} {j : Nat}
    (hnodup : ((xs.filterMap g).filter p).Nodup) (ha : xs[i]? = some a) (hb : xs[j]? = some b) (hga : g a = some k)
    (hgb : g b = some k) (hp : p k = true) : i = j := by
  rw [List.Nodup, List.pairwise_filter, List.pairwise_filterMap, List.pairwise_iff_getElem] at hnodup
  obtain ⟨hi, rfl⟩ := List.getElem?_eq_some_iff.1 ha
  obtain ⟨hj, rfl⟩ := List.getElem?_eq_some_iff.1 hb
  rcases Nat.lt_trichotomy i j with hlt | heq | hlt
  · exact absurd rfl (hnodup i j hi hj hlt k hga k hgb hp hp)
  · exact heq
  · exact absurd rfl (hnodup j i hj hi hlt k hgb k hga hp hp)

end Lookup
