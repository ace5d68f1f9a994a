import Mathlib.Order.Interval.Finset.Nat
import Mathlib.Data.Finset.Card
import Mathlib.Data.Finset.Image
import VsRemote.Lib.Lookup

/-! Identifiers handed out round a cycle of `n`, skipping those in use. A cursor
counts every identifier it has passed; a grant is the position it stopped at,
with the identifiers that were in use at that moment. -/

namespace CyclicAlloc

structure Grant where
  pos : Nat
  busy : List Nat

def idAt (n t : Nat) : Nat := 1 + t % n

/-- `inUse` tells which grant holds an identifier. -/
structure Inv (n : Nat) (inUse : Nat → Option Nat) (grants : List Grant) (cursor : Nat) : Prop where
  passed : ∀ (r : Nat) (g : Grant), grants[r]? = some g → g.pos < cursor
  mono : ∀ (r s : Nat) (g g' : Grant), r < s → grants[r]? = some g → grants[s]? = some g' → g.pos < g'.pos
  holder : ∀ (id s : Nat), inUse id = some s → ∃ g, grants[s]? = some g ∧ id = idAt n g.pos
  free : ∀ (r : Nat) (g : Grant), grants[r]? = some g → idAt n g.pos ∉ g.busy
  busy : ∀ (id s r : Nat) (g : Grant), inUse id = some s → s < r → grants[r]? = some g → id ∈ g.busy
  covered : ∀ (r t : Nat) (g : Grant), grants[r]? = some g → g.pos < t → t < g.pos + n → t < cursor →
    (∃ (s : Nat) (g' : Grant), grants[s]? = some g' ∧ g'.pos = t) ∨ idAt n t ∈ g.busy

variable {n cursor : Nat} {inUse : Nat → Option Nat} {grants : List Grant}

theorem far_of_idAt_eq {t t' : Nat} (hlt : t < t') (hid : idAt n t = idAt n t') : t + n ≤ t' := by
  unfold idAt at hid
  have hmod : t % n = t' % n := by omega
  have hdvd : n ∣ t' - t := Nat.dvd_of_mod_eq_zero (Nat.sub_mod_eq_zero_of_mod_eq hmod.symm)
  have hle := Nat.le_of_dvd (by omega) hdvd
  omega

/-- Within one cycle no identifier comes twice. -/
theorem idAt_injOn (lo : Nat) {window : Finset Nat} (hw : ∀ t ∈ window, lo ≤ t ∧ t < lo + n) :
    Set.InjOn (idAt n) (window : Set Nat) := by
  intro t ht t' ht' heq
  have hin := hw t ht
  have hin' := hw t' ht'
  rcases Nat.lt_trichotomy t t' with hlt | rfl | hlt
  · have hfar := far_of_idAt_eq hlt heq
    omega
  · rfl
  · have hfar := far_of_idAt_eq hlt heq.symm
    omega

/-- In every cycle each identifier comes. -/
theorem exists_idAt_eq {id : Nat} (hpos : 0 < id) (hle : id ≤ n) (lo : Nat) : ∃ t, lo ≤ t ∧ t < lo + n ∧ idAt n t = id := by
  have hlt : lo % n < n := Nat.mod_lt lo (by omega)
  have hdiv := Nat.div_add_mod lo n
  have hid : ∀ k, idAt n (n * k + (id - 1)) = id := by
    intro k
    rw [idAt, Nat.mul_add_mod, Nat.mod_eq_of_lt (by omega)]
    omega
  by_cases hr : lo % n ≤ id - 1
  · exact ⟨n * (lo / n) + (id - 1), by omega, by omega, hid _⟩
  · have hsucc : n * (lo / n + 1) = n * (lo / n) + n := Nat.mul_succ ..
    exact ⟨n * (lo / n + 1) + (id - 1), by omega, by omega, hid _⟩

theorem inv_init : Inv n (fun _ => none) [] 0 := by
  constructor
  · intro r g hg
    cases hg
  · intro r s g g' _ hg
    cases hg
  · intro id s hs
    cases hs
  · intro r g hg
    cases hg
  · intro id s r g hs
    cases hs
  · intro r t g hg
    cases hg

namespace Inv

theorem release {inUse' : Nat → Option Nat} (hi : Inv n inUse grants cursor)
    (hsub : ∀ id s, inUse' id = some s → inUse id = some s) : Inv n inUse' grants cursor := by
  refine ⟨hi.passed, hi.mono, ?_, hi.free, ?_, hi.covered⟩
  · intro id s hs
    exact hi.holder id s (hsub id s hs)
  · intro id s r g hs
    exact hi.busy id s r g (hsub id s hs)

/-- Positions grow with the grants. -/
theorem index_lt {r s : Nat} {g g' : Grant} (hi : Inv n inUse grants cursor) (hg : grants[r]? = some g)
    (hg' : grants[s]? = some g') (hpos : g.pos < g'.pos) : r < s := by
  by_contra hnot
  by_cases heq : s = r
  · subst heq
    rw [hg] at hg'
    obtain rfl := Option.some.inj hg'
    omega
  · have hmono := hi.mono s r g' g (by omega) hg' hg
    omega

/-- The cursor passes identifiers in use and stops at one that is not. -/
theorem grant {q : Nat} (busy : List Nat) (hi : Inv n inUse grants cursor) (hq : cursor ≤ q)
    (hskip : ∀ t, cursor ≤ t → t < q → ∃ s, inUse (idAt n t) = some s)
    (hbusy : ∀ id s, inUse id = some s → id ∈ busy) (hfree : idAt n q ∉ busy) :
    Inv n (fun id => if id = idAt n q then some grants.length else inUse id) (grants ++ [⟨q, busy⟩]) (q + 1) := by
  refine ⟨?_, ?_, ?_, ?_, ?_, ?_⟩
  · intro r g hg
    rcases Lookup.of_append hg with hg | ⟨rfl, rfl⟩
    · have hlt := hi.passed r g hg
      omega
    · exact Nat.lt_succ_self q
  · intro r s g g' hrs hg hg'
    rcases Lookup.of_append hg with hg | ⟨rfl, rfl⟩
    · rcases Lookup.of_append hg' with hg' | ⟨rfl, rfl⟩
      · exact hi.mono r s g g' hrs hg hg'
      · have hlt := hi.passed r g hg
        exact Nat.lt_of_lt_of_le hlt hq
    · rcases Lookup.of_append hg' with hg' | ⟨rfl, rfl⟩
      · have hlt := Lookup.lt_length hg'
        omega
      · omega
  · intro id s hs
    by_cases hid : id = idAt n q
    · rw [if_pos hid] at hs
      obtain rfl := Option.some.inj hs
      exact ⟨⟨q, busy⟩, by simp, hid⟩
    · rw [if_neg hid] at hs
      obtain ⟨g, hg, heq⟩ := hi.holder id s hs
      exact ⟨g, Lookup.append_left hg, heq⟩
  · intro r g hg
    rcases Lookup.of_append hg with hg | ⟨rfl, rfl⟩
    · exact hi.free r g hg
    · exact hfree
  · intro id s r g hs hsr hg
    by_cases hid : id = idAt n q
    · rw [if_pos hid] at hs
      obtain rfl := Option.some.inj hs
      rcases Lookup.of_append hg with hg | ⟨rfl, rfl⟩
      · have hlt := Lookup.lt_length hg
        omega
      · omega
    · rw [if_neg hid] at hs
      rcases Lookup.of_append hg with hg | ⟨rfl, rfl⟩
      · exact hi.busy id s r g hs hsr hg
      · exact hbusy id s hs
  · intro r t g hg hlo hhi ht
    rcases Lookup.of_append hg with hg | ⟨rfl, rfl⟩
    · by_cases hnew : t = q
      · exact .inl ⟨grants.length, ⟨q, busy⟩, by simp, hnew.symm⟩
      by_cases hold : t < cursor
      · rcases hi.covered r t g hg hlo hhi hold with ⟨s, g', hg', hpos⟩ | hmem
        · exact .inl ⟨s, g', Lookup.append_left hg', hpos⟩
        · exact .inr hmem
      obtain ⟨s, hs⟩ := hskip t (by omega) (by omega)
      obtain ⟨g', hg', hid⟩ := hi.holder _ s hs
      have hpos := hi.passed s g' hg'
      have hfar := far_of_idAt_eq (show g'.pos < t by omega) hid.symm
      exact .inr (hi.busy _ s r g hs (hi.index_lt hg' hg (by omega)) hg)
    · simp only at hlo
      omega

/-- An identifier comes back only after the whole cycle was granted, less what
was in use at its first grant. -/
theorem reuse_distance {r r' : Nat} {g g' : Grant} (hi : Inv n inUse grants cursor)
    (hrr : r < r') (hg : grants[r]? = some g) (hg' : grants[r']? = some g')
    (hid : idAt n g.pos = idAt n g'.pos) : n ≤ g.busy.length + (r' - r) := by
  have hfar := far_of_idAt_eq (hi.mono r r' g g' hrr hg hg') hid
  have hpassed := hi.passed r' g' hg'
  let window := Finset.Ioo g.pos (g.pos + n)
  let granted := (Finset.Ioo r r').image (fun s => ((grants[s]?).map Grant.pos).getD 0)
  let skipped := window.filter (fun t => idAt n t ∈ g.busy)
  have hwindow : window ⊆ granted ∪ skipped := by
    intro t ht
    obtain ⟨hlo, hhi⟩ := Finset.mem_Ioo.1 ht
    rcases hi.covered r t g hg hlo hhi (by omega) with ⟨s, gs, hs, hpos⟩ | hmem
    · refine Finset.mem_union_left _ (Finset.mem_image.2 ⟨s, ?_, by rw [hs]; exact hpos⟩)
      have hrs : r < s := hi.index_lt hg hs (by omega)
      have hsr' : s < r' := hi.index_lt hs hg' (by omega)
      exact Finset.mem_Ioo.2 ⟨hrs, hsr'⟩
    · exact Finset.mem_union_right _ (Finset.mem_filter.2 ⟨ht, hmem⟩)
  have hinj : Set.InjOn (idAt n) (skipped : Set Nat) := idAt_injOn g.pos (fun t ht => by
    have hin := Finset.mem_Ioo.1 (Finset.mem_filter.1 ht).1
    omega)
  have hskipped : skipped.card ≤ g.busy.length := by
    rw [← Finset.card_image_of_injOn hinj]
    refine le_trans (Finset.card_le_card ?_) g.busy.toFinset_card_le
    intro id hmem
    obtain ⟨t, ht, rfl⟩ := Finset.mem_image.1 hmem
    exact List.mem_toFinset.2 (Finset.mem_filter.1 ht).2
  have hgranted : granted.card ≤ r' - r - 1 := by
    refine le_trans Finset.card_image_le ?_
    rw [Nat.card_Ioo]
  have hcard := Finset.card_le_card hwindow
  have hunion := Finset.card_union_le granted skipped
  have hsize : window.card = n - 1 := by
    rw [Nat.card_Ioo]
    omega
  omega

/-- Until that many were granted the identifier of a grant is held by that grant
or by none. -/
theorem holder_eq {r s : Nat} {g : Grant} (hi : Inv n inUse grants cursor) (hg : grants[r]? = some g)
    (hnear : grants.length - (r + 1) < n - g.busy.length) (hs : inUse (idAt n g.pos) = some s) : s = r := by
  obtain ⟨g', hg', hid⟩ := hi.holder _ s hs
  have hlt := Lookup.lt_length hg'
  rcases Nat.lt_trichotomy s r with hsr | heq | hrs
  · exact absurd (hi.busy _ s r g hs hsr hg) (hi.free r g hg)
  · exact heq
  · have hdist := hi.reuse_distance hrs hg hg' hid
    omega

end Inv

end CyclicAlloc
