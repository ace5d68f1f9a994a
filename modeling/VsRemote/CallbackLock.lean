import VsRemote.DoneCallbacks

/-! When a thread waits for the lock it holds itself: `close` settles the pending
futures, and runs their done-callbacks, inside its `with` block. -/

namespace VsRemote

/-- The actions, with the callbacks that they run, use no operation of the tracker. -/
inductive Calm {α : Type} : List (CallbackFuture α) → List (ThreadAction α) → Prop
  | nil {fs : List (CallbackFuture α)} : Calm fs []
  | cons {fs : List (CallbackFuture α)} {a : ThreadAction α} {rest : List (ThreadAction α)} (ha : a.usesTracker = false)
    (h : Calm (a.onFutures fs).2 ((a.onFutures fs).1 ++ rest)) : Calm fs (a :: rest)

/-- Some id is not pending. -/
def RequestTracker.HasFreeId {α : Type} (tracker : RequestTracker α) : Prop :=
  ∃ id, 0 < id ∧ id ≤ idCount ∧ id ∉ tracker.pending.keys

namespace TrackerThread

variable {α : Type} {m : Msgspec} {s t : TrackerThread α}

/-- A thread that comes to the tracker with the lock free. -/
def enter (pending : OrderedDict Nat (PendingEntry α)) (cursor : Nat) (futures : List (CallbackFuture α))
    (actions : List (ThreadAction α)) : TrackerThread α :=
  { tracker := ⟨pending, CyclicAlloc.idAt idCount cursor⟩, futures := futures, stack := actions.map .run }

/-- The thread gets to the end of everything it does, and holds no lock. -/
def Completes (m : Msgspec) (s : TrackerThread α) : Prop :=
  ∃ t, StateTransition.Reaches (step m) s t ∧ t.stack = [] ∧ t.locked = false

/-- A `close` runs callbacks that do not come back to the tracker, and a new
request finds an id. -/
def GoesOn (s : TrackerThread α) : Prop :=
  match s.stack with
  | .run (.close exc) :: _ => Calm s.futures (s.rejections exc)
  | .run (.allocate _) :: _ | .run (.sendRequest ..) :: _ => s.tracker.HasFreeId
  | _ => True

def isUndone (fs : List (CallbackFuture α)) (f : Nat) : Bool := (fs[f]?).any (fun fut => fut.outcome.isNone)

/-- The thread is about to settle a future while it holds the lock. -/
def settlesLocked (s : TrackerThread α) : Bool :=
  match s.stack with
  | .run (.settle f _) :: _ => s.locked && isUndone s.futures f
  | _ => false

/-- A `close` that gets the lock finds no pending future undone. -/
def closesSettled (s : TrackerThread α) : Bool :=
  match s.stack with
  | .run (.close _) :: _ => s.locked || s.tracker.pending.values.all (fun entry => !isUndone s.futures entry.future)
  | _ => true

/-- A property of the futures and of what `close` has left to do goes through each action. -/
def Stable (Q : List (CallbackFuture α) → List (ThreadAction α) → Prop) : Prop :=
  ∀ fs a rest, Q fs (a :: rest) → a.usesTracker = false ∧ Q (a.onFutures fs).2 ((a.onFutures fs).1 ++ rest)

/-- The lock is held inside one `close`, and what is left of it has the property. -/
structure Held (Q : List (CallbackFuture α) → List (ThreadAction α) → Prop) (s : TrackerThread α) : Prop where
  free : s.locked = false → .endClose ∉ s.stack
  held : s.locked = true → ∃ actions rest, s.stack = actions.map .run ++ .endClose :: rest ∧ .endClose ∉ rest ∧
    Q s.futures actions

theorem endClose_notMem_run {actions : List (ThreadAction α)} : .endClose ∉ actions.map Frame.run := by
  intro hmem
  obtain ⟨a, -, ha⟩ := List.mem_map.1 hmem
  cases ha

variable {Q : List (CallbackFuture α) → List (ThreadAction α) → Prop}

theorem held_enter (pending : OrderedDict Nat (PendingEntry α)) (cursor : Nat) (futures : List (CallbackFuture α))
    (actions : List (ThreadAction α)) : (enter pending cursor futures actions).Held Q where
  free _ := endClose_notMem_run
  held h := by cases h

namespace Held

theorem step (hstable : Stable Q) (h : s.Held Q)
    (hclose : ∀ exc rest, s.stack = .run (.close exc) :: rest → s.locked = false → Q s.futures (s.rejections exc))
    (hs : TrackerThread.step m s = some t) : t.Held Q := by
  simp only [TrackerThread.step] at hs
  split at hs
  · cases hs
  · next a rest hstack =>
    have hto := perform_cases hs
    cases hlocked : s.locked with
    | true =>
      obtain ⟨actions, tail, heq, htail, hq⟩ := h.held hlocked
      rw [hstack] at heq
      cases actions with
      | nil => cases heq
      | cons b actions =>
        obtain ⟨hb, rfl⟩ := List.cons.inj heq
        obtain rfl := Frame.run.inj hb
        obtain ⟨ha, hq⟩ := hstable _ _ _ hq
        cases hto with
        | onFutures =>
          refine ⟨fun hfree => absurd (hfree.symm.trans hlocked) Bool.false_ne_true, fun _ => ?_⟩
          exact ⟨(a.onFutures s.futures).1 ++ actions, tail, by simp [push], htail, hq⟩
        | operation _ hfree | close hfree => cases hlocked.symm.trans hfree
    | false =>
      have hrest : .endClose ∉ rest := fun hmem => h.free hlocked (hstack ▸ List.mem_cons_of_mem _ hmem)
      have hpush : ∀ actions : List (ThreadAction α), .endClose ∉ actions.map Frame.run ++ rest := by
        intro actions hmem
        rcases List.mem_append.1 hmem with hmem | hmem
        · exact endClose_notMem_run hmem
        · exact hrest hmem
      cases hto with
      | onFutures => exact ⟨fun _ => hpush _, fun hheld => absurd (hlocked.symm.trans hheld) Bool.false_ne_true⟩
      | operation => exact ⟨fun _ => hpush _, fun hheld => absurd (hlocked.symm.trans hheld) Bool.false_ne_true⟩
      | close => exact ⟨fun hfree => absurd hfree.symm Bool.false_ne_true, fun _ => ⟨_, rest, rfl, hrest, hclose _ rest hstack hlocked⟩⟩
  · next rest hstack =>
    obtain rfl := Option.some.inj hs
    refine ⟨fun _ => ?_, fun hheld => absurd hheld Bool.false_ne_true⟩
    cases hlocked : s.locked with
    | false => exact absurd (hstack ▸ List.mem_cons_self) (h.free hlocked)
    | true =>
      obtain ⟨actions, tail, heq, htail, -⟩ := h.held hlocked
      rw [hstack] at heq
      cases actions with
      | nil =>
        obtain ⟨-, rfl⟩ := List.cons.inj heq
        exact htail
      | cons b actions => cases heq

theorem reaches (hstable : Stable Q) (h : s.Held Q)
    (hclose : ∀ u, StateTransition.Reaches (TrackerThread.step m) s u →
      ∀ exc rest, u.stack = .run (.close exc) :: rest → u.locked = false →
      Q u.futures (u.rejections exc)) (hr : StateTransition.Reaches (TrackerThread.step m) s t) : t.Held Q :=
  Halting.reaches_inv (fun u _ hu hheld hs => hheld.step hstable (hclose u hu) hs) h hr

end Held

theorem calm_stable : Stable (Calm (α := α)) := fun _ _ _ h => by
  cases h with
  | cons ha h => exact ⟨ha, h⟩

theorem onFutures_settle {fs : List (CallbackFuture α)} {f : Nat} {o : RequestOutcome α} (h : isUndone fs f = false) :
    (ThreadAction.settle f o).onFutures fs = ([], fs) := by
  simp only [ThreadAction.onFutures]
  split
  · next hf => simp [isUndone, hf] at h
  · rfl

/-- What `close` has left to do settles no future. -/
def AllSettled (fs : List (CallbackFuture α)) (actions : List (ThreadAction α)) : Prop :=
  ∀ a ∈ actions, ∃ f o, a = .settle f o ∧ isUndone fs f = false

theorem allSettled_stable : Stable (AllSettled (α := α)) := by
  intro fs a rest h
  obtain ⟨f, o, rfl, hf⟩ := h a List.mem_cons_self
  rw [onFutures_settle hf]
  exact ⟨rfl, fun b hb => h b (List.mem_cons_of_mem _ hb)⟩

theorem onCycle_step (h : s.tracker.OnCycle) (hs : step m s = some t) : t.tracker.OnCycle := by
  simp only [step] at hs
  split at hs
  · cases hs
  · cases perform_cases hs with
    | operation _ hfree htracker => exact htracker h
    | _ => exact h
  · obtain rfl := Option.some.inj hs
    exact h

/-- With the lock free, or no use for it, and an id for a new request the thread goes on. -/
theorem step_some {a : ThreadAction α} {rest : List (Frame α)} (hcycle : s.tracker.OnCycle) (hgo : s.GoesOn)
    (hstack : s.stack = .run a :: rest) (hfree : a.usesTracker = true → s.locked = false) : ∃ t, step m s = some t := by
  have hlock : ∀ {β : Type} (r : Option β), a.usesTracker = true → { s with stack := rest }.withLock r = r := by
    intro β r ha
    exact if_neg (by rw [hfree ha]; exact nofun)
  have hid : s.tracker.HasFreeId → a.usesTracker = true → ∀ decode, ∃ reqId t,
      { s with stack := rest }.allocate decode = some (reqId, t) := by
    intro hid ha decode
    obtain ⟨⟨reqId, tracker⟩, hsome⟩ := Option.isSome_iff_exists.1 ((hcycle.allocate_isSome_iff ⟨s.futures.length, decode⟩).2 hid)
    exact ⟨_, _, by rw [TrackerThread.allocate, hlock _ ha, hsome]; rfl⟩
  simp only [GoesOn, hstack] at hgo
  simp only [step, hstack]
  cases a with
  | allocate decode =>
    obtain ⟨reqId, t, ha⟩ := hid hgo rfl decode
    exact ⟨t, by rw [perform, ha]; rfl⟩
  | sendRequest decode failure =>
    obtain ⟨reqId, t, ha⟩ := hid hgo rfl decode
    exact ⟨_, by rw [perform, ha]; rfl⟩
  | pop | resolve | cancel | close => exact ⟨_, hlock _ rfl⟩
  | onDone | settle | addDoneCallback => exact ⟨_, rfl⟩

theorem Completes.after (h : s.Completes m) (hr : StateTransition.Reaches (step m) s t) : t.Completes m := by
  obtain ⟨u, hu, hstack, hfree⟩ := h
  exact ⟨u, Halting.reaches_final hu (by rw [step, hstack]) hr, hstack, hfree⟩

/-- A thread that is not at its end goes on. -/
theorem Completes.step (h : s.Completes m) (hne : s.stack ≠ []) : ∃ t, TrackerThread.step m s = some t ∧ t.Completes m := by
  obtain ⟨u, hu, hstack, hfree⟩ := h
  rcases Relation.ReflTransGen.cases_head hu with rfl | ⟨t, hs, ht⟩
  · exact absurd hstack hne
  · exact ⟨t, hs, u, ht, hstack, hfree⟩

/-- With the lock held the thread cannot go past an operation of the tracker. -/
theorem locked_step {a : ThreadAction α} {rest : List (Frame α)} (hlocked : s.locked = true)
    (hstack : s.stack = .run a :: rest) (hs : TrackerThread.step m s = some t) :
    a.usesTracker = false ∧ t = { s with futures := (a.onFutures s.futures).2, stack := rest }.push (a.onFutures s.futures).1 := by
  simp only [TrackerThread.step, hstack] at hs
  cases perform_cases hs with
  | onFutures ha => exact ⟨ha, rfl⟩
  | operation _ hfree | close hfree => cases hlocked.symm.trans hfree

/-- A thread that gets to the end of its `close` did not come back to the tracker on the way. -/
theorem Completes.calm {actions : List (ThreadAction α)} {rest : List (Frame α)} (h : s.Completes m)
    (hlocked : s.locked = true) (hstack : s.stack = actions.map .run ++ .endClose :: rest) : Calm s.futures actions := by
  obtain ⟨u, hu, hend, hfree⟩ := h
  induction hu using Relation.ReflTransGen.head_induction_on generalizing actions with
  | refl => cases hlocked.symm.trans hfree
  | @head s t hs hr ih =>
    cases actions with
    | nil => exact .nil
    | cons a actions =>
      obtain ⟨ha, rfl⟩ := locked_step hlocked hstack hs
      exact .cons ha (ih hlocked (by simp [push]))

theorem Completes.goesOn (h : s.Completes m) (hcycle : s.tracker.OnCycle) : s.GoesOn := by
  have hnext : ∀ {frame : Frame α} {rest : List (Frame α)}, s.stack = frame :: rest →
      ∃ t, TrackerThread.step m s = some t ∧ t.Completes m := fun hstack => h.step (by rw [hstack]; exact nofun)
  have hid : ∀ {decode : Bytes → Except PyExc α} {rest : List (Frame α)} {reqId : Nat} {t : TrackerThread α},
      { s with stack := rest }.allocate decode = some (reqId, t) → s.tracker.HasFreeId := by
    intro decode rest reqId t ha
    obtain ⟨-, tracker, ha, -⟩ := allocate_some ha
    exact (hcycle.allocate_isSome_iff _).1 (Option.isSome_iff_exists.2 ⟨_, ha⟩)
  simp only [GoesOn]
  split
  · next exc rest hstack =>
    obtain ⟨t, hs, ht⟩ := hnext hstack
    simp only [TrackerThread.step, hstack] at hs
    obtain ⟨hfree, hs⟩ := withLock_some hs
    obtain rfl := Option.some.inj hs
    exact ht.calm rfl rfl
  · next decode rest hstack =>
    obtain ⟨t, hs, -⟩ := hnext hstack
    simp only [TrackerThread.step, hstack] at hs
    obtain ⟨⟨reqId, u⟩, ha, -⟩ := Option.map_eq_some_iff.1 hs
    exact hid ha
  · next decode failure rest hstack =>
    obtain ⟨t, hs, -⟩ := hnext hstack
    simp only [TrackerThread.step, hstack] at hs
    obtain ⟨⟨reqId, u⟩, ha, -⟩ := Option.bind_eq_some_iff.1 hs
    exact hid ha
  · trivial

/-- A thread that does not go on is at its end, or waits for its own lock inside `close`. -/
theorem Held.final (h : s.Held Calm) (hcycle : s.tracker.OnCycle) (hgo : s.GoesOn) (hs : TrackerThread.step m s = none) :
    s.stack = [] ∧ s.locked = false := by
  have hfree : ∀ {a : ThreadAction α} {rest : List (Frame α)}, s.stack = .run a :: rest → a.usesTracker = true →
      s.locked = false := by
    intro a rest hstack ha
    by_contra hlocked
    obtain ⟨actions, tail, heq, -, hcalm⟩ := h.held (Bool.eq_true_of_not_eq_false hlocked)
    rw [hstack] at heq
    cases actions with
    | nil => cases heq
    | cons b actions =>
      obtain ⟨hb, -⟩ := List.cons.inj heq
      obtain rfl := Frame.run.inj hb
      exact absurd ((calm_stable _ _ _ hcalm).1.symm.trans ha) nofun
  cases hstack : s.stack with
  | nil =>
    refine ⟨rfl, ?_⟩
    by_contra hlocked
    obtain ⟨actions, tail, heq, -⟩ := h.held (Bool.eq_true_of_not_eq_false hlocked)
    rw [hstack] at heq
    cases actions <;> cases heq
  | cons frame rest =>
    cases frame with
    | run a =>
      obtain ⟨t, ht⟩ := step_some (m := m) hcycle hgo hstack (hfree hstack)
      cases hs.symm.trans ht
    | endClose => simp [TrackerThread.step, hstack] at hs

theorem completes_iff (hcycle : s.tracker.OnCycle) (hheld : s.Held Calm) :
    s.Completes m ↔ ∀ t, StateTransition.Reaches (step m) s t → t.GoesOn := by
  have hcycles : ∀ t, StateTransition.Reaches (step m) s t → t.tracker.OnCycle := fun t ht =>
    Halting.reaches_inv (I := fun u => u.tracker.OnCycle) (fun _ _ _ h hs => onCycle_step h hs) hcycle ht
  constructor
  · intro h t ht
    exact (h.after ht).goesOn (hcycles t ht)
  · intro hgo
    obtain ⟨t, ht, hfinal⟩ := thread_halts m s
    have hcalm : t.Held Calm := by
      refine hheld.reaches calm_stable (fun u hu exc rest hstack hfree => ?_) ht
      simpa only [GoesOn, hstack] using hgo u hu
    exact ⟨t, ht, hcalm.final (hcycles t ht) (hgo t ht) hfinal⟩

/-- Among what `close` rejects with the lock held the thread comes to a future that is not done. -/
theorem reaches_settlesLocked {entries : List (PendingEntry α)} {o : RequestOutcome α} {rest : List (Frame α)}
    (hlocked : s.locked = true) (hstack : s.stack = (entries.map (fun entry => .settle entry.future o)).map .run ++ rest)
    (hundone : ∃ entry ∈ entries, isUndone s.futures entry.future = true) :
    ∃ t, StateTransition.Reaches (step m) s t ∧ t.settlesLocked = true := by
  induction entries generalizing s with
  | nil =>
    obtain ⟨entry, hmem, -⟩ := hundone
    cases hmem
  | cons entry entries ih =>
    by_cases hf : isUndone s.futures entry.future = true
    · exact ⟨s, .refl, by simp [settlesLocked, hstack, hlocked, hf]⟩
    · have hdone := onFutures_settle (o := o) (Bool.eq_false_of_not_eq_true hf)
      obtain ⟨e, hmem, he⟩ := hundone
      have hin : e ∈ entries := by
        rcases List.mem_cons.1 hmem with rfl | hmem
        · exact absurd he hf
        · exact hmem
      have hs : step m s = some { s with stack := (entries.map (fun entry => .settle entry.future o)).map .run ++ rest } := by
        simp only [step, hstack, List.map_cons, List.cons_append, perform, hdone]
        rfl
      obtain ⟨t, ht, hsettles⟩ :=
        ih (s := { s with stack := (entries.map (fun entry => .settle entry.future o)).map .run ++ rest }) hlocked rfl ⟨e, hin, he⟩
      exact ⟨t, .head hs ht, hsettles⟩

theorem settlesLocked_iff (hheld : s.Held AllSettled) :
    (∀ t, StateTransition.Reaches (step m) s t → t.settlesLocked = false) ↔
      ∀ t, StateTransition.Reaches (step m) s t → t.closesSettled = true := by
  constructor
  · intro h t ht
    by_contra hnot
    simp only [closesSettled] at hnot
    split at hnot
    · next exc rest hstack =>
      simp only [Bool.or_eq_true, List.all_eq_true, Bool.not_eq_true', not_or, not_forall] at hnot
      obtain ⟨hlocked, entry, hmem, hentry⟩ := hnot
      have hs : step m t = some ({ t with locked := true, stack := .endClose :: rest }.push (t.rejections exc)) := by
        simp only [step, hstack, perform, withLock, hlocked]
        rfl
      obtain ⟨u, hu, hsettles⟩ :=
        reaches_settlesLocked (m := m) (s := { t with locked := true, stack := .endClose :: rest }.push (t.rejections exc))
          rfl rfl ⟨entry, hmem, Bool.eq_true_of_not_eq_false hentry⟩
      have hreached : StateTransition.Reaches (step m) s u := (ht.tail hs).trans hu
      exact absurd ((h u hreached).symm.trans hsettles) Bool.false_ne_true
    · exact hnot rfl
  · intro h t ht
    have hsettled : t.Held AllSettled := by
      refine hheld.reaches allSettled_stable (fun u hu exc rest hstack hfree => ?_) ht
      have hu := h u hu
      simp only [closesSettled, hstack, hfree, Bool.false_or, List.all_eq_true, Bool.not_eq_true'] at hu
      intro a ha
      obtain ⟨entry, hmem, rfl⟩ := List.mem_map.1 ha
      exact ⟨_, _, rfl, hu entry hmem⟩
    by_contra hnot
    simp only [settlesLocked] at hnot
    split at hnot
    · next f o rest hstack =>
      simp only [Bool.not_eq_false, Bool.and_eq_true] at hnot
      obtain ⟨actions, tail, heq, -, hall⟩ := hsettled.held hnot.1
      rw [hstack] at heq
      cases actions with
      | nil => cases heq
      | cons b actions =>
        obtain ⟨hb, -⟩ := List.cons.inj heq
        obtain rfl := Frame.run.inj hb
        obtain ⟨g, o', hg, hdone⟩ := hall _ List.mem_cons_self
        obtain ⟨rfl, rfl⟩ := ThreadAction.settle.inj hg
        exact absurd (hdone.symm.trans hnot.2) Bool.false_ne_true
    · exact hnot rfl

end TrackerThread

open TrackerThread

/-- The operations a thread enters with run to completion exactly if no callback
that runs inside a `close` comes back to the tracker and every new request finds
an id; and a `close` settles a future with the lock held unless all that it finds are done. -/
theorem operations_complete {α : Type} {m : Msgspec} (pending : OrderedDict Nat (PendingEntry α)) (cursor : Nat)
    (futures : List (CallbackFuture α)) (actions : List (ThreadAction α)) :
    ((enter pending cursor futures actions).Completes m ↔
      ∀ t, StateTransition.Reaches (step m) (enter pending cursor futures actions) t → t.GoesOn) ∧
    ((∀ t, StateTransition.Reaches (step m) (enter pending cursor futures actions) t → t.settlesLocked = false) ↔
      ∀ t, StateTransition.Reaches (step m) (enter pending cursor futures actions) t → t.closesSettled = true) :=
  ⟨completes_iff ⟨cursor, rfl⟩ (held_enter ..), settlesLocked_iff (held_enter ..)⟩

/-- Two requests are sent, and the callback of the first cancels the second; then the tracker is closed. -/
def cancelsOther : List (ThreadAction Unit) :=
  [.sendRequest (fun _ => .ok ()) none, .sendRequest (fun _ => .ok ()) none, .addDoneCallback 0 [.settle 1 .cancelled], .close none]

theorem callback_meets_lock :
    ∃ t, StateTransition.Reaches (step (.table [] [])) (enter .empty 0 [] cancelsOther) t ∧ t.locked = true ∧
      t.tracker.pending.keys = [1, 2] ∧
      t.stack.length = 3 ∧ step (.table [] []) t = none ∧ ¬ (enter .empty 0 [] cancelsOther).Completes (.table [] []) := by
  have hfinal : step (.table [] []) (Halting.run (step (.table [] [])) 20 (enter .empty 0 [] cancelsOther)) = none :=
    Option.isNone_iff_eq_none.1 (by decide)
  have hreached := Halting.reaches_run (f := step (.table [] [])) (s := enter .empty 0 [] cancelsOther) 20
  refine ⟨_, hreached, by decide, by decide, by decide, hfinal, ?_⟩
  rintro ⟨t, ht, hstack, -⟩
  rcases Relation.ReflTransGen.cases_head (Halting.reaches_final ht (by rw [step, hstack]) hreached) with rfl | ⟨u, hu, -⟩
  · exact absurd hstack (by decide)
  · cases hfinal.symm.trans hu

end VsRemote
