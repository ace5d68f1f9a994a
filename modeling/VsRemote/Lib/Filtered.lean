import Mathlib.Tactic.Common

/-! Where the entries of a list stand once the list is filtered. -/

namespace Filtered

variable {α : Type} {p : α → Bool} {xs ys : List α} {a : α} {f : α → α} {i : Nat}

/-- The number of entries before the index that the filter keeps. -/
def rank (p : α → Bool) (xs : List α) (i : Nat) : Nat := (xs.take i).countP p

theorem getElem?_rank (h : xs[i]? = some a) (hp : p a = true) : (xs.filter p)[rank p xs i]? = some a := by
  induction xs generalizing i with
  | nil => cases h
  | cons x xs ih =>
    cases i with
    | zero =>
      obtain rfl := Option.some.inj h
      simp [rank, hp]
    | succ i =>
      have hh := ih (i := i) h
      by_cases hx : p x = true
      · simpa [rank, List.filter_cons, hx] using hh
      · simpa [rank, List.filter_cons, hx] using hh

theorem filter_modify (h : xs[i]? = some a) (hp : p a = true) (hf : p (f a) = true) :
    (xs.modify i f).filter p = (xs.filter p).modify (rank p xs i) f := by
  induction xs generalizing i with
  | nil => cases h
  | cons x xs ih =>
    cases i with
    | zero =>
      obtain rfl := Option.some.inj h
      simp [rank, hp, hf]
    | succ i =>
      have hh := ih (i := i) h
      by_cases hx : p x = true
      · simpa [rank, List.filter_cons, hx] using hh
      · simpa [rank, List.filter_cons, hx] using hh

theorem filter_modify_of_not (h : xs[i]? = some a) (hp : p a = false) (hf : p (f a) = false) :
    (xs.modify i f).filter p = xs.filter p := by
  induction xs generalizing i with
  | nil => cases h
  | cons x xs ih =>
    cases i with
    | zero =>
      obtain rfl := Option.some.inj h
      simp [hp, hf]
    | succ i =>
      have hh := ih (i := i) h
      simp only [List.modify_succ_cons, List.filter_cons, hh]

theorem filter_map (hf : ∀ a, p (f a) = p a) : (xs.map f).filter p = (xs.filter p).map f := by
  rw [List.filter_map]
  congr 2
  exact funext hf

theorem rank_append (hi : i ≤ xs.length) : rank p (xs ++ ys) i = rank p xs i := by
  simp only [rank, List.take_append_of_le_length hi]

/-- Where the entry at the index stands, if the filter keeps it. -/
def index? (p : α → Bool) (xs : List α) (i : Nat) : Option Nat :=
  if xs[i]?.any p then some (rank p xs i) else none

theorem index?_of_pos (h : xs[i]? = some a) (hp : p a = true) : index? p xs i = some (rank p xs i) := by
  simp only [index?, h, Option.any_some, hp, if_true]

theorem index?_of_neg (h : xs[i]? = some a) (hp : p a = false) : index? p xs i = none := by
  simp only [index?, h, Option.any_some, hp, Bool.false_eq_true, if_false]

theorem index?_eq_some {j : Nat} (h : index? p xs i = some j) :
    ∃ a, xs[i]? = some a ∧ p a = true ∧ j = rank p xs i := by
  simp only [index?] at h
  split at h
  · next hany =>
    obtain ⟨a, ha, hp⟩ := (Option.any_eq_true _ _).1 hany
    exact ⟨a, ha, hp, (Option.some.inj h).symm⟩
  · cases h

theorem map_modify (hf : ∀ a, p (f a) = p a) : (xs.modify i f).map p = xs.map p := by
  refine List.ext_getElem? (fun j => ?_)
  simp only [List.getElem?_map, List.getElem?_modify]
  cases xs[j]? with
  | none => rfl
  | some a => by_cases hij : i = j <;> simp [hij, hf]

theorem map_map_eq (hf : ∀ a, p (f a) = p a) : (xs.map f).map p = xs.map p := by
  rw [List.map_map]
  exact List.map_congr_left (fun a _ => hf a)

/-- The ranks depend only on which entries are kept. -/
theorem rank_congr (hmap : xs.map p = ys.map p) : rank p xs = rank p ys := by
  have hcount : ∀ (zs : List α) (i : Nat), rank p zs i = ((zs.map p).take i).countP id := by
    intro zs i
    rw [← List.map_take, List.countP_map]
    rfl
  funext i
  rw [hcount, hcount, hmap]

theorem index?_congr (hmap : xs.map p = ys.map p) : index? p xs = index? p ys := by
  have hany : ∀ (zs : List α) (i : Nat), zs[i]?.any p = (zs.map p)[i]?.any id := by
    intro zs i
    rw [List.getElem?_map, Option.any_map]
    rfl
  funext i
  rw [index?, index?, hany, hany, hmap, rank_congr hmap]

end Filtered
