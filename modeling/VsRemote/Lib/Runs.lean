import Mathlib.Tactic.ByContra

/-! Runs of a partial step function. A label carries every choice of the
step, so a run is a list of labels and can be evaluated. -/

namespace Runs

variable {L St : Type} (step : L → St → Option St)

def run : List L → St → Option St
  | [], s => some s
  | l :: ls, s => (step l s).bind (run ls)

/-- Every step of the run meets a condition on the state before it. -/
def Guarded (C : St → L → Prop) : List L → St → Prop
  | [], _ => True
  | l :: ls, s => C s l ∧ ∀ s', step l s = some s' → Guarded C ls s'

/-- Every state the run visits has the property. -/
def Always (P : St → Prop) : List L → St → Prop
  | [], s => P s
  | l :: ls, s => P s ∧ ∀ s', step l s = some s' → Always P ls s'

variable {step} {C : St → L → Prop} {I P : St → Prop} {ls : List L} {s t : St}

theorem run_cons_some {l : L} (h : run step (l :: ls) s = some t) :
    ∃ u, step l s = some u ∧ run step ls u = some t := by
  simpa only [run, Option.bind_eq_some_iff] using h

theorem Always.head (h : Always step P ls s) : P s := by
  cases ls with
  | nil => exact h
  | cons l ls => exact h.1

theorem Always.last (h : Always step P ls s) (hr : run step ls s = some t) : P t := by
  induction ls generalizing s with
  | nil => exact Option.some.inj hr ▸ h
  | cons l ls ih =>
    obtain ⟨u, hs, hr⟩ := run_cons_some hr
    exact ih (h.2 u hs) hr

instance Guarded.decidable [∀ s l, Decidable (C s l)] :
    (ls : List L) → (s : St) → Decidable (Guarded step C ls s)
  | [], _ => isTrue trivial
  | l :: ls, s =>
    match h : step l s with
    | none => decidable_of_iff (C s l) ⟨fun hc => ⟨hc, fun _ hs => by rw [h] at hs; cases hs⟩, And.left⟩
    | some u =>
      have := Guarded.decidable ls u
      decidable_of_iff (C s l ∧ Guarded step C ls u)
        ⟨fun hc => ⟨hc.1, fun _ hs => Option.some.inj (h.symm.trans hs) ▸ hc.2⟩, fun hg => ⟨hg.1, hg.2 u h⟩⟩

instance Always.decidable [∀ s, Decidable (P s)] : (ls : List L) → (s : St) → Decidable (Always step P ls s)
  | [], s => inferInstanceAs (Decidable (P s))
  | l :: ls, s =>
    match h : step l s with
    | none => decidable_of_iff (P s) ⟨fun hp => ⟨hp, fun _ hs => by rw [h] at hs; cases hs⟩, And.left⟩
    | some u =>
      have := Always.decidable ls u
      decidable_of_iff (P s ∧ Always step P ls u)
        ⟨fun hp => ⟨hp.1, fun _ hs => Option.some.inj (h.symm.trans hs) ▸ hp.2⟩, fun ha => ⟨ha.1, ha.2 u h⟩⟩

/-- What holds throughout a run holds after each of its steps. -/
theorem Always.guarded (h : Always step P ls s) : Guarded step (fun s l => ∀ t, step l s = some t → P t) ls s := by
  induction ls generalizing s with
  | nil => trivial
  | cons l ls ih => exact ⟨fun t ht => (h.2 t ht).head, fun u hu => ih (h.2 u hu)⟩

theorem Guarded.of_mem (h : ∀ l ∈ ls, ∀ s, C s l) : Guarded step C ls s := by
  induction ls generalizing s with
  | nil => trivial
  | cons l ls ih =>
    refine ⟨h l (List.mem_cons_self ..) s, fun u _ => ih (fun l' hl' => h l' (List.mem_cons_of_mem _ hl'))⟩

theorem Guarded.of_mem_self (ls : List L) (s : St) : Guarded step (fun _ l => l ∈ ls) ls s :=
  Guarded.of_mem (fun _ hl _ => hl)

/-- The step beside a value that is computed from the steps of the run. -/
def tracked {γ : Type} (step : L → St → Option St) (next : γ → St → L → γ) (l : L) (x : γ × St) : Option (γ × St) :=
  (step l x.2).map (fun t => (next x.1 x.2 l, t))

theorem tracked_step {γ : Type} {next : γ → St → L → γ} {l : L} {x y : γ × St} (h : tracked step next l x = some y) :
    step l x.2 = some y.2 ∧ y.1 = next x.1 x.2 l := by
  obtain ⟨t, ht, rfl⟩ := Option.map_eq_some_iff.1 h
  exact ⟨ht, rfl⟩

/-- What holds of the states of a tracked run holds of those of the run. -/
theorem Always.of_tracked {γ : Type} {next : γ → St → L → γ} {g : γ}
    (h : Always (tracked step next) (fun x => P x.2) ls (g, s)) : Always step P ls s := by
  induction ls generalizing g s with
  | nil => exact h
  | cons l ls ih => exact ⟨h.1, fun u hu => ih (h.2 (next g s l, u) (by rw [tracked, hu]; rfl))⟩

/-- An invariant kept by the guarded steps holds in every state visited. -/
theorem Guarded.always (hstep : ∀ s l t, I s → C s l → step l s = some t → I t)
    (hg : Guarded step C ls s) (h : I s) : Always step I ls s := by
  induction ls generalizing s with
  | nil => exact h
  | cons l ls ih => exact ⟨h, fun u hu => ih (hg.2 u hu) (hstep s l u h hg.1 hu)⟩

theorem Guarded.inv (hstep : ∀ s l t, I s → C s l → step l s = some t → I t)
    (hg : Guarded step C ls s) (h : I s) (hr : run step ls s = some t) : I t :=
  (hg.always hstep h).last hr

theorem Guarded.and {D : St → L → Prop} (hc : Guarded step C ls s) (hd : Guarded step D ls s) :
    Guarded step (fun s l => C s l ∧ D s l) ls s := by
  induction ls generalizing s with
  | nil => trivial
  | cons l ls ih => exact ⟨⟨hc.1, hd.1⟩, fun u hu => ih (hc.2 u hu) (hd.2 u hu)⟩

/-- What an invariant and the condition give of a step holds of every step. -/
theorem Guarded.mono {D : St → L → Prop} (hstep : ∀ s l t, I s → C s l → step l s = some t → I t)
    (hCD : ∀ s l, I s → C s l → D s l) (hg : Guarded step C ls s) (h : I s) : Guarded step D ls s := by
  induction ls generalizing s with
  | nil => trivial
  | cons l ls ih => exact ⟨hCD s l h hg.1, fun u hu => ih (hg.2 u hu) (hstep s l u h hg.1 hu)⟩

theorem run_inv (hstep : ∀ s l t, I s → step l s = some t → I t) (h : I s)
    (hr : run step ls s = some t) : I t := by
  induction ls generalizing s with
  | nil => exact Option.some.inj hr ▸ h
  | cons l ls ih =>
    obtain ⟨u, hs, hr⟩ := run_cons_some hr
    exact ih (hstep s l u h hs) hr

theorem run_append {ls' : List L} (h : run step ls s = some t) : run step (ls ++ ls') s = run step ls' t := by
  induction ls generalizing s with
  | nil => exact Option.some.inj h ▸ rfl
  | cons l ls ih =>
    obtain ⟨u, hs, hr⟩ := run_cons_some h
    rw [List.cons_append, run, hs, Option.bind_some]
    exact ih hr

theorem Guarded.append {ls' : List L} (hg : Guarded step C ls s) (hr : run step ls s = some t)
    (hg' : Guarded step C ls' t) : Guarded step C (ls ++ ls') s := by
  induction ls generalizing s with
  | nil => exact Option.some.inj hr ▸ hg'
  | cons l ls ih =>
    obtain ⟨u, hs, hr⟩ := run_cons_some hr
    refine ⟨hg.1, fun v hv => ?_⟩
    have huv : u = v := Option.some.inj (hs.symm.trans hv)
    exact huv ▸ ih (hg.2 u hs) hr

/-- Where every guarded step lowers a measure, a guarded run is no longer than
the measure it starts from. -/
theorem Guarded.length_le {m : St → Nat} (hstep : ∀ s l t, I s → C s l → step l s = some t → I t)
    (hlower : ∀ s l t, I s → C s l → step l s = some t → m t < m s) (hg : Guarded step C ls s) (h : I s)
    (hr : run step ls s = some t) : m t + ls.length ≤ m s := by
  induction ls generalizing s with
  | nil => exact Option.some.inj hr ▸ Nat.le_refl _
  | cons l ls ih =>
    obtain ⟨u, hs, hr⟩ := run_cons_some hr
    have hlt := hlower s l u h hg.1 hs
    have hle := ih (hg.2 u hs) (hstep s l u h hg.1 hs) hr
    rw [List.length_cons]
    omega

/-- And if a step is possible in every state that is not done, a run can be
continued until it is done. -/
theorem Guarded.exists_done {m : St → Nat} {D : St → Prop} (hstep : ∀ s l t, I s → C s l → step l s = some t → I t)
    (hlower : ∀ s l t, I s → C s l → step l s = some t → m t < m s)
    (hgo : ∀ s, I s → D s ∨ ∃ l t, C s l ∧ step l s = some t) (h : I s) :
    ∃ ls t, Guarded step C ls s ∧ run step ls s = some t ∧ D t := by
  induction hm : m s using Nat.strongRecOn generalizing s with
  | ind n ih =>
    obtain hdone | ⟨l, u, hc, hu⟩ := hgo s h
    · exact ⟨[], s, trivial, rfl, hdone⟩
    · obtain ⟨ls, t, hg, hr, hdone⟩ := ih (m u) (hm ▸ hlower s l u h hc hu) (hstep s l u h hc hu) rfl
      refine ⟨l :: ls, t, ⟨hc, fun v hv => ?_⟩, ?_, hdone⟩
      · exact Option.some.inj (hu.symm.trans hv) ▸ hg
      · rw [run, hu]
        exact hr

theorem Always.and {Q : St → Prop} (h : Always step P ls s) (hq : Always step Q ls s) :
    Always step (fun s => P s ∧ Q s) ls s := by
  induction ls generalizing s with
  | nil => exact ⟨h, hq⟩
  | cons l ls ih => exact ⟨⟨h.1, hq.1⟩, fun u hu => ih (h.2 u hu) (hq.2 u hu)⟩

/-- What only one label can raise, and by one, is bounded by how often a run takes it. -/
theorem always_le_count [DecidableEq L] {m : St → Nat} {a : L} {n : Nat}
    (hstep : ∀ s l t, step l s = some t → m t ≤ m s + if l = a then 1 else 0) (h : m s + ls.count a ≤ n) :
    Always step (fun s => m s ≤ n) ls s := by
  induction ls generalizing s with
  | nil => exact h
  | cons l ls ih =>
    rw [List.count_cons] at h
    refine ⟨by omega, fun u hu => ih ?_⟩
    have hle := hstep s l u hu
    by_cases hl : l = a
    · rw [if_pos hl] at hle
      rw [if_pos (beq_iff_eq.2 hl)] at h
      omega
    · rw [if_neg hl] at hle
      omega

theorem Always.mono (hIP : ∀ s, I s → P s) (h : Always step I ls s) : Always step P ls s := by
  induction ls generalizing s with
  | nil => exact hIP s h
  | cons l ls ih => exact ⟨hIP s h.1, fun u hu => ih (h.2 u hu)⟩

/-- Where a step that breaks the condition breaks the property at once, the
property along a run is exactly the condition along it. -/
theorem always_iff_guarded (hI : ∀ s, I s → P s)
    (hstep : ∀ s l t, I s → C s l → step l s = some t → I t)
    (hbreak : ∀ s l, I s → ¬ C s l → ∃ t, step l s = some t ∧ ¬ P t) (h : I s) :
    Always step P ls s ↔ Guarded step C ls s := by
  constructor
  · intro ha
    induction ls generalizing s with
    | nil => trivial
    | cons l ls ih =>
      have hc : C s l := by
        by_contra hc
        obtain ⟨t, ht, hp⟩ := hbreak s l h hc
        exact hp (ha.2 t ht).head
      exact ⟨hc, fun u hu => ih (hstep s l u h hc hu) (ha.2 u hu)⟩
  · intro hg
    exact (hg.always hstep h).mono hI

/-- Where the first step that breaks the condition leads to states that no step
repairs, the end of a run tells whether it kept the condition. -/
theorem guarded_or_broken {B : St → Prop}
    (hstep : ∀ l ∈ ls, ∀ s t, I s → C s l → step l s = some t → I t)
    (hbreak : ∀ l ∈ ls, ∀ s t, I s → ¬ C s l → step l s = some t → B t)
    (hbroken : ∀ l ∈ ls, ∀ s t, B s → step l s = some t → B t) (h : I s) (hr : run step ls s = some t) :
    (Guarded step C ls s ∧ I t) ∨ (¬ Guarded step C ls s ∧ B t) := by
  induction ls generalizing s with
  | nil => exact .inl ⟨trivial, Option.some.inj hr ▸ h⟩
  | cons l ls ih =>
    obtain ⟨u, hs, hrest⟩ := run_cons_some hr
    have hmem : ∀ l' ∈ ls, l' ∈ l :: ls := fun l' hl' => List.mem_cons_of_mem l hl'
    by_cases hc : C s l
    · have hu : I u := hstep l List.mem_cons_self s u h hc hs
      obtain ⟨hg, ht⟩ | ⟨hg, ht⟩ := ih (fun l' hl' => hstep l' (hmem l' hl')) (fun l' hl' => hbreak l' (hmem l' hl'))
        (fun l' hl' => hbroken l' (hmem l' hl')) hu hrest
      · refine .inl ⟨⟨hc, fun v hv => ?_⟩, ht⟩
        exact Option.some.inj (hs.symm.trans hv) ▸ hg
      · exact .inr ⟨fun hall => hg (hall.2 u hs), ht⟩
    · have hu : B u := hbreak l List.mem_cons_self s u h hc hs
      have hkeep : ∀ s l t, B s → l ∈ ls → step l s = some t → B t := fun s l t hB hl => hbroken l (hmem l hl) s t hB
      refine .inr ⟨fun hall => hc hall.1, ?_⟩
      exact (Guarded.of_mem_self ls u).inv hkeep hu hrest

/-- What a run does not begin with and ends with, some step of it brings about. -/
theorem exists_turn (h : ¬ P s) (hr : run step ls s = some t) (ht : P t) :
    ∃ (before : List L) (l : L) (after : List L) (u v : St), ls = before ++ l :: after ∧ run step before s = some u ∧
      step l u = some v ∧ ¬ P u ∧ P v := by
  induction ls generalizing s with
  | nil => exact absurd (Option.some.inj hr ▸ ht) h
  | cons l ls ih =>
    obtain ⟨u, hs, hr⟩ := run_cons_some hr
    by_cases hu : P u
    · exact ⟨[], l, ls, s, u, rfl, rfl, hs, h, hu⟩
    · obtain ⟨before, l', after, u', v, rfl, hbefore, hrest⟩ := ih hu hr
      refine ⟨l :: before, l', after, u', v, rfl, ?_, hrest⟩
      rw [run, hs]
      exact hbefore

/-- A second run beside the first, which leaves out the steps that `abs` gives
no label: the states are related at every point, and so are the steps both take. -/
def Beside (step : L → St → Option St) (abs : St → L → Option L) (R : St → St → Prop) (Q : St → L → St → L → Prop) :
    List L → St → St → Prop
  | [], s, u => R s u
  | l :: ls, s, u => R s u ∧ ∀ s', step l s = some s' →
    match abs s l with
    | none => Beside step abs R Q ls s' u
    | some l' => Q s l u l' ∧ ∃ u', step l' u = some u' ∧ Beside step abs R Q ls s' u'

/-- The labels of a run that an abstraction keeps, as it renames them. -/
def kept (step : L → St → Option St) (abs : St → L → Option L) : List L → St → List L
  | [], _ => []
  | l :: ls, s => (abs s l).toList ++ (step l s).elim [] (kept step abs ls)

/-- Beside a run that comes to its end, so does the run of the labels that are kept. -/
theorem Beside.last {abs : St → L → Option L} {R : St → St → Prop} {Q : St → L → St → L → Prop} {u : St}
    (hb : Beside step abs R Q ls s u) (hr : run step ls s = some t) : ∃ v, run step (kept step abs ls s) u = some v ∧ R t v := by
  induction ls generalizing s u with
  | nil => exact ⟨u, rfl, Option.some.inj hr ▸ hb⟩
  | cons l ls ih =>
    obtain ⟨s', hs, hr⟩ := run_cons_some hr
    have hrest := hb.2 s' hs
    rw [kept, hs, Option.elim_some]
    cases hl : abs s l with
    | none =>
      rw [hl] at hrest
      exact ih hrest hr
    | some l' =>
      rw [hl] at hrest
      obtain ⟨-, u', hu', hrest⟩ := hrest
      obtain ⟨v, hv, hR⟩ := ih hrest hr
      refine ⟨v, ?_, hR⟩
      rw [Option.toList_some, List.singleton_append, run, hu']
      exact hv

/-- Simulation along a function: along a run whose steps meet the condition, what it maps
the states to takes the steps that are kept and does not see the others. -/
theorem Beside.of_abstraction {abs : St → L → Option L} {R : St → St → Prop} {Q : St → L → St → L → Prop}
    {f : St → St} (hinv : ∀ s l t, I s → step l s = some t → I t)
    (hdrop : ∀ s l t, I s → C s l → step l s = some t → abs s l = none → f t = f s)
    (hkeep : ∀ s l t l', I s → C s l → step l s = some t → abs s l = some l' → step l' (f s) = some (f t))
    (hR : ∀ s, I s → R s (f s))
    (hQ : ∀ s l t l', I s → step l s = some t → abs s l = some l' → Q s l (f s) l')
    (hg : Guarded step C ls s) (h : I s) : Beside step abs R Q ls s (f s) := by
  induction ls generalizing s with
  | nil => exact hR s h
  | cons l ls ih =>
    refine ⟨hR s h, fun t ht => ?_⟩
    have hrest := ih (hg.2 t ht) (hinv s l t h ht)
    cases hl : abs s l with
    | none => exact hdrop s l t h hg.1 ht hl ▸ hrest
    | some l' => exact ⟨hQ s l t l' h ht hl, f t, hkeep s l t l' h hg.1 ht hl, hrest⟩

end Runs
