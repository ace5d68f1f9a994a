import Mathlib.Logic.Hydra
import VsRemote.Lib.Coro
import VsRemote.Lib.Runs

/-! Systems that come to rest: the steps of one kind cannot go on for ever. -/

namespace Runs

variable {L St : Type} {step : L → St → Option St} {W : L → Prop}

/-- Such a step leads from `s` to `t`. -/
def Next (step : L → St → Option St) (W : L → Prop) (t s : St) : Prop := ∃ l, W l ∧ step l s = some t

def Stuck (step : L → St → Option St) (W : L → Prop) (s : St) : Prop := ∀ l, W l → step l s = none

theorem wellFounded_next {β : Type} {r : β → β → Prop} (hr : WellFounded r) (m : St → β)
    (hlower : ∀ s l t, W l → step l s = some t → r (m t) (m s)) : WellFounded (Next step W) := by
  refine Subrelation.wf ?_ (InvImage.wf m hr)
  rintro t s ⟨l, hl, hs⟩
  exact hlower s l t hl hs

theorem no_endless_run (hwf : WellFounded (Next step W)) (f : Nat → L) (σ : Nat → St) :
    ¬ ∀ n, W (f n) ∧ step (f n) (σ n) = some (σ (n + 1)) := by
  intro hall
  have hchain : ∀ s n, σ n = s → False := by
    intro s
    induction s using hwf.induction with
    | _ s ih =>
      rintro n rfl
      obtain ⟨hw, hs⟩ := hall n
      exact ih _ ⟨f n, hw, hs⟩ (n + 1) rfl
  exact hchain _ 0 rfl

theorem exists_stuck (hwf : WellFounded (Next step W)) (s : St) :
    ∃ ls t, (∀ l ∈ ls, W l) ∧ run step ls s = some t ∧ Stuck step W t := by
  induction s using hwf.induction with
  | _ s ih =>
    by_cases hstuck : Stuck step W s
    · exact ⟨[], s, fun _ hl => absurd hl List.not_mem_nil, rfl, hstuck⟩
    · simp only [Stuck, not_forall] at hstuck
      obtain ⟨l, hl, hne⟩ := hstuck
      obtain ⟨u, hu⟩ := Option.ne_none_iff_exists'.1 hne
      obtain ⟨ls, t, hall, hr, ht⟩ := ih u ⟨l, hl, hu⟩
      refine ⟨l :: ls, t, List.forall_mem_cons.2 ⟨hl, hall⟩, ?_, ht⟩
      rw [run, hu]
      exact hr

end Runs

namespace Coro

variable {S : Signature} {α : Type}

/-- `q` is what is left of `p` after its next operation, or `p` is given up. -/
inductive Less : Coro S α → Coro S α → Prop
  | resumed {o : S.Op} (k : S.Res o → Coro S α) (r : S.Res o) : Less (k r) (.call o k)
  | ended {o : S.Op} (k : S.Res o → Coro S α) (a : α) : Less (.pure a) (.call o k)

theorem acc_pure (a : α) : Acc Less (Coro.pure a : Coro S α) := by
  constructor
  intro q hq
  cases hq

theorem wellFounded_less : WellFounded (Less : Coro S α → Coro S α → Prop) := by
  constructor
  intro p
  induction p with
  | pure a => exact acc_pure a
  | call o k ih =>
    constructor
    intro q hq
    cases hq with
    | resumed k r => exact ih r
    | ended k a => exact acc_pure a

end Coro

namespace Hydra

variable {α : Type} {r : α → α → Prop} {xs : List α} {f : α → α} {a : α} {i : Nat}

/-- One entry of the list is lowered. -/
theorem cutExpand_modify (h : xs[i]? = some a) (hr : r (f a) a) :
    Relation.CutExpand r (xs.modify i f : Multiset α) (xs : Multiset α) := by
  induction xs generalizing i with
  | nil => cases h
  | cons x xs ih =>
    cases i with
    | zero =>
      obtain rfl := Option.some.inj h
      rw [List.modify_zero_cons, ← Multiset.cons_coe, ← Multiset.cons_coe, ← Multiset.singleton_add, ← Multiset.singleton_add]
      exact Relation.cutExpand_single_add hr _
    | succ i =>
      rw [List.modify_succ_cons, ← Multiset.cons_coe, ← Multiset.cons_coe, ← Multiset.singleton_add, ← Multiset.singleton_add]
      exact (Relation.cutExpand_add_left _).2 (ih h)

end Hydra
