import Mathlib.Data.List.DropRight
import Mathlib.Order.Lattice

/-! A queue that is pruned from its front while a clock runs, and a queue of
bounded length: what they hold as a function of all that was ever put in. -/

namespace RollingWindow

variable {α T : Type} [LinearOrder T] {time : α → T} {cutoff bound : T} {history q new : List α}

/-- Pruning stops at the first entry to keep; in the order of the clock this drops every older one. -/
theorem dropWhile_eq_filter (h : (q.map time).Pairwise (· ≤ ·)) :
    q.dropWhile (fun a => time a < cutoff) = q.filter (fun a => cutoff ≤ time a) := by
  induction q with
  | nil => rfl
  | cons a q ih =>
    rw [List.map_cons, List.pairwise_cons] at h
    rw [List.dropWhile_cons]
    by_cases ha : time a < cutoff
    · have hdrop : ¬ decide (cutoff ≤ time a) = true := by simpa using ha
      rw [if_pos (decide_eq_true ha), ih h.2, List.filter_cons, if_neg hdrop]
    · have hkeep : cutoff ≤ time a := not_lt.1 ha
      have hall : ∀ b ∈ a :: q, decide (cutoff ≤ time b) = true := by
        intro b hb
        rcases List.mem_cons.1 hb with rfl | hb
        · exact decide_eq_true hkeep
        · exact decide_eq_true (hkeep.trans (h.1 _ (List.mem_map_of_mem hb)))
      rw [if_neg (by simpa using hkeep), List.filter_eq_self.2 hall]

/-- The queue holds the part of the history that some earlier cutoff has left. -/
def Tracks (time : α → T) (history q : List α) (bound : T) : Prop :=
  ∃ cutoff, cutoff ≤ bound ∧ q = history.filter (fun a => cutoff ≤ time a)

theorem tracks_nil : Tracks time [] [] bound := ⟨bound, le_refl _, rfl⟩

theorem Tracks.mono {bound' : T} (h : Tracks time history q bound) (hb : bound ≤ bound') :
    Tracks time history q bound' := by
  obtain ⟨cutoff, hcutoff, hq⟩ := h
  exact ⟨cutoff, hcutoff.trans hb, hq⟩

theorem Tracks.prune (h : Tracks time history q bound) (hc : bound ≤ cutoff)
    (hclock : ((history ++ new).map time).Pairwise (· ≤ ·)) :
    (q ++ new).dropWhile (fun a => time a < cutoff) = (history ++ new).filter (fun a => cutoff ≤ time a) := by
  obtain ⟨old, hold, rfl⟩ := h
  have hsorted : ((history.filter (fun a => old ≤ time a) ++ new).map time).Pairwise (· ≤ ·) := by
    refine hclock.sublist (List.Sublist.map time ?_)
    exact List.Sublist.append_right List.filter_sublist new
  rw [dropWhile_eq_filter hsorted, List.filter_append, List.filter_append, List.filter_filter]
  congr 1
  refine List.filter_congr (fun a _ => ?_)
  have himp : cutoff ≤ time a → old ≤ time a := fun ha => (hold.trans hc).trans ha
  by_cases ha : cutoff ≤ time a
  · simp [ha, himp ha]
  · simp [ha]

theorem Tracks.pruned (h : Tracks time history q bound) (hc : bound ≤ cutoff)
    (hclock : ((history ++ new).map time).Pairwise (· ≤ ·)) :
    Tracks time (history ++ new) ((q ++ new).dropWhile (fun a => time a < cutoff)) cutoff :=
  ⟨cutoff, le_refl _, h.prune hc hclock⟩

/-- A queue that keeps the last `n` entries. -/
theorem rtake_rtake_append (n : Nat) (l : List α) (a : α) : (l.rtake n ++ [a]).rtake n = (l ++ [a]).rtake n := by
  cases n with
  | zero => rw [List.rtake_zero, List.rtake_zero]
  | succ n =>
    rw [List.rtake_concat_succ, List.rtake_concat_succ]
    congr 1
    rw [List.rtake_eq_reverse_take_reverse, List.rtake_eq_reverse_take_reverse, List.rtake_eq_reverse_take_reverse,
      List.reverse_reverse, List.take_take, Nat.min_eq_left (Nat.le_succ n)]

end RollingWindow
