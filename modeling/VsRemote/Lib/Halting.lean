import Mathlib.Computability.StateTransition
import Mathlib.Logic.Hydra

/-! Deterministic machines that halt: every step replaces the rank of what it
takes by ranks below it. -/

namespace Halting

open StateTransition

variable {σ ρ : Type} {f : σ → Option σ} {s t u : σ}

/-- The state after at most `n` steps. -/
def run (f : σ → Option σ) : Nat → σ → σ
  | 0, s => s
  | n + 1, s =>
    match f s with
    | some t => run f n t
    | none => s

theorem reaches_run (n : Nat) : Reaches f s (run f n s) := by
  induction n generalizing s with
  | zero => exact .refl
  | succ n ih =>
    rw [run]
    cases h : f s with
    | none => exact .refl
    | some t => exact .head h ih

theorem halts {lt : ρ → ρ → Prop} {ranks : σ → Multiset ρ} (hwf : WellFounded lt)
    (h : ∀ s t, f s = some t → Relation.CutExpand lt (ranks t) (ranks s)) (s : σ) :
    ∃ t, Reaches f s t ∧ f t = none := by
  induction s using (InvImage.wf ranks hwf.cutExpand).induction with
  | h s ih =>
    cases hs : f s with
    | none => exact ⟨s, .refl, hs⟩
    | some t =>
      obtain ⟨u, hu, hfinal⟩ := ih t (h s t hs)
      exact ⟨u, .head hs hu, hfinal⟩

theorem reaches_inv {I : σ → Prop} (hstep : ∀ u v, Reaches f s u → I u → f u = some v → I v) (h : I s)
    (hr : Reaches f s t) : I t := by
  induction hr with
  | refl => exact h
  | tail hr hs ih => exact hstep _ _ hr ih hs

/-- Whatever is reached still leads to the final state. -/
theorem reaches_final (hu : Reaches f s u) (hfinal : f u = none) (hr : Reaches f s t) : Reaches f t u := by
  have heval := mem_eval.2 ⟨hu, hfinal⟩
  rw [reaches_eval hr] at heval
  exact (mem_eval.1 heval).1

end Halting
