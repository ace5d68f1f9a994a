import Mathlib.Data.List.Basic

/-! Rounds that visit their entries one by one, taking turns in a queue: which
stands first, and how far one is ahead of the other. -/

namespace TurnOrder

variable {α : Type} [DecidableEq α] {q xs ys : List α} {a b x : α}

/-- `a` stands before `b`; who is not in the queue stands behind it. -/
def Precedes (q : List α) (a b : α) : Prop := q.idxOf a < q.idxOf b

instance (q : List α) (a b : α) : Decidable (Precedes q a b) := inferInstanceAs (Decidable (_ < _))

theorem not_precedes_of_notMem (h : a ∉ q) : ¬ Precedes q a b := by
  have ha : q.idxOf a = q.length := List.idxOf_eq_length h
  have hb : q.idxOf b ≤ q.length := List.idxOf_le_length
  simp only [Precedes]
  omega

theorem not_precedes_head : ¬ Precedes (a :: q) b a := by
  simp only [Precedes, List.idxOf_cons_self]
  omega

theorem precedes_head (h : a ≠ b) : Precedes (a :: q) a b := by
  simp only [Precedes, List.idxOf_cons_self, List.idxOf_cons_ne _ h]
  omega

theorem precedes_cons (ha : x ≠ a) (hb : x ≠ b) : Precedes (x :: q) a b ↔ Precedes q a b := by
  simp only [Precedes, List.idxOf_cons_ne _ ha, List.idxOf_cons_ne _ hb]
  omega

theorem idxOf_append_other (h : x ≠ a) : (q ++ [x]).idxOf a = if a ∈ q then q.idxOf a else q.length + 1 := by
  rw [List.idxOf_append]
  by_cases ha : a ∈ q
  · rw [if_pos ha, if_pos ha]
  · rw [if_neg ha, if_neg ha, List.idxOf_cons_ne _ h]
    simp only [List.idxOf_nil]
    omega

theorem precedes_append (ha : x ≠ a) (hb : x ≠ b) : Precedes (q ++ [x]) a b ↔ Precedes q a b := by
  simp only [Precedes, idxOf_append_other ha, idxOf_append_other hb]
  by_cases hqa : a ∈ q
  · by_cases hqb : b ∈ q
    · rw [if_pos hqa, if_pos hqb]
    · have hlt := List.idxOf_lt_length_of_mem hqa
      have hle := List.idxOf_eq_length hqb
      rw [if_pos hqa, if_neg hqb]
      omega
  · have hge := List.idxOf_eq_length hqa
    have hle : q.idxOf b ≤ q.length := List.idxOf_le_length
    rw [if_neg hqa]
    split <;> omega

theorem not_precedes_last (ha : a ∉ q) (hb : b ∈ q) : ¬ Precedes (q ++ [a]) a b := by
  have hlast : (q ++ [a]).idxOf a = q.length := by
    rw [List.idxOf_append, if_neg ha, List.idxOf_cons_self]
    omega
  have hlt := List.idxOf_lt_length_of_mem hb
  simp only [Precedes, hlast, List.idxOf_append_of_mem hb]
  omega

theorem precedes_erase (ha : x ≠ a) (hb : x ≠ b) : Precedes (q.erase x) a b ↔ Precedes q a b := by
  induction q with
  | nil => rfl
  | cons y q ih =>
    by_cases hy : y = x
    · subst hy
      rw [List.erase_cons_head]
      exact (precedes_cons ha hb).symm
    · rw [List.erase_cons_tail (by simpa using hy)]
      by_cases hya : y = a
      · subst hya
        by_cases hyb : y = b
        · subst hyb
          simp only [Precedes, Nat.lt_irrefl]
        · exact iff_of_true (precedes_head hyb) (precedes_head hyb)
      · by_cases hyb : y = b
        · subst hyb
          exact iff_of_false not_precedes_head not_precedes_head
        · exact (precedes_cons hya hyb).trans (ih.trans (precedes_cons hya hyb).symm)

/-- Who is still to be visited by both comes no later in the first list. -/
def Leads (xs ys : List α) : Prop := ∀ c ∈ xs, c ∈ ys → xs.idxOf c ≤ ys.idxOf c

def LeadsStrictly (xs ys : List α) : Prop := ∀ c ∈ xs, c ∈ ys → xs.idxOf c < ys.idxOf c

instance (xs ys : List α) : Decidable (Leads xs ys) :=
  inferInstanceAs (Decidable (∀ c ∈ xs, c ∈ ys → xs.idxOf c ≤ ys.idxOf c))

theorem LeadsStrictly.leads (h : LeadsStrictly xs ys) : Leads xs ys := fun c hx hy => Nat.le_of_lt (h c hx hy)

theorem Leads.visit (h : Leads (a :: xs) ys) (hnd : (a :: xs).Nodup) : LeadsStrictly xs ys := by
  intro c hx hy
  have hne : a ≠ c := fun he => (List.nodup_cons.1 hnd).1 (he ▸ hx)
  have hle := h c (List.mem_cons_of_mem a hx) hy
  rw [List.idxOf_cons_ne _ hne] at hle
  omega

theorem LeadsStrictly.notMem (h : LeadsStrictly xs (b :: ys)) : b ∉ xs := by
  intro hb
  have hlt := h b hb (List.mem_cons_self ..)
  rw [List.idxOf_cons_self] at hlt
  omega

theorem LeadsStrictly.visit (h : LeadsStrictly xs (b :: ys)) : Leads xs ys := by
  intro c hx hy
  have hne : b ≠ c := fun he => h.notMem (he ▸ hx)
  have hlt := h c hx (List.mem_cons_of_mem b hy)
  rw [List.idxOf_cons_ne _ hne] at hlt
  omega

section

variable {β : Type} [DecidableEq β] {us vs : List β} {u v : β} {q' : List α}

theorem leadsStrictly_nil_left : LeadsStrictly [] vs := fun _ h => by cases h

theorem leadsStrictly_nil_right : LeadsStrictly us [] := fun _ _ h => by cases h

/-- `a` is ahead of `b`, which started after it: by more while `b` has the next turn. -/
def Pace (q : List α) (a b : α) (us vs : List β) : Prop :=
  if Precedes q b a then LeadsStrictly us vs else Leads us vs

theorem LeadsStrictly.pace (h : LeadsStrictly us vs) : Pace q a b us vs := by
  simp only [Pace]
  split
  · exact h
  · exact h.leads

theorem Leads.pace (h : Leads us vs) (hq : ¬ Precedes q b a) : Pace q a b us vs := by
  simp only [Pace, if_neg hq]
  exact h

theorem Pace.leads (h : Pace q a b us vs) : Leads us vs := by
  simp only [Pace] at h
  split at h
  · exact h.leads
  · exact h

theorem Pace.congr (h : Pace q a b us vs) (hq : Precedes q' b a ↔ Precedes q b a) : Pace q' a b us vs := by
  simp only [Pace] at h ⊢
  by_cases hb : Precedes q b a
  · rw [if_pos hb] at h
    rw [if_pos (hq.2 hb)]
    exact h
  · rw [if_neg hb] at h
    rw [if_neg (fun hb' => hb (hq.1 hb'))]
    exact h

/-- The turn of the first. -/
theorem Pace.first_visits (h : Pace q a b (u :: us) vs) (hnd : (u :: us).Nodup) : LeadsStrictly us vs :=
  h.leads.visit hnd

/-- The turn of the second. -/
theorem Pace.second_visits (h : Pace (b :: q) a b us (v :: vs)) (hne : b ≠ a) : v ∉ us ∧ Leads us vs := by
  rw [Pace, if_pos (precedes_head hne)] at h
  exact ⟨h.notMem, h.visit⟩

/-- Someone queues up: the second behind the first, the first while the second is away. -/
theorem Pace.enter (h : Pace q a b us vs) (hne : a ≠ b) (hout : x ∉ q) (hbehind : b ∈ q ++ [x] → a ∈ q ++ [x])
    (haway : x = a → b ∉ q) : Pace (q ++ [x]) a b us vs := by
  by_cases hxb : x = b
  · subst hxb
    have hmem : a ∈ q := by
      rcases List.mem_append.1 (hbehind (List.mem_append_right _ (List.mem_singleton.2 rfl))) with hq | hq
      · exact hq
      · exact absurd (List.mem_singleton.1 hq) hne
    exact h.leads.pace (not_precedes_last hout hmem)
  · by_cases hxa : x = a
    · have hnot : b ∉ q ++ [x] := by
        intro hmem
        rcases List.mem_append.1 hmem with hq | hq
        · exact haway hxa hq
        · exact hxb (List.mem_singleton.1 hq).symm
      exact h.leads.pace (not_precedes_of_notMem hnot)
    · exact h.congr (precedes_append hxb hxa)

/-- The first visits and queues up again. -/
theorem Pace.rotate_first (h : Pace (a :: q) a b us vs) (hnd : us.Nodup) : Pace (q ++ [a]) a b us.tail vs := by
  cases us with
  | nil => exact leadsStrictly_nil_left.pace
  | cons u us => exact (h.first_visits hnd).pace

/-- The second visits and queues up again, behind the first. -/
theorem Pace.rotate_second (h : Pace (b :: q) a b us vs) (hne : b ≠ a) (hout : b ∉ q) (ha : a ∈ q) :
    Pace (q ++ [b]) a b us vs.tail := by
  cases vs with
  | nil => exact leadsStrictly_nil_right.pace
  | cons v vs => exact (h.second_visits hne).2.pace (not_precedes_last hout ha)

theorem Pace.rotate_other (h : Pace (x :: q) a b us vs) (hxa : x ≠ a) (hxb : x ≠ b) : Pace (q ++ [x]) a b us vs :=
  h.congr ((precedes_append hxb hxa).trans (precedes_cons hxb hxa).symm)

theorem Pace.leave (h : Pace q a b us vs) (hxa : x ≠ a) (hxb : x ≠ b) : Pace (q.erase x) a b us vs :=
  h.congr (precedes_erase hxb hxa)

end

end TurnOrder
