import VsRemote.Redirect
import VsRemote.Lib.Runs

/-! The standard streams under a daemon and the loads on its pool threads. Calls of
`install` and `uninstall` interleave; the loads hold the lock of the runner, so
one captures at a time. -/

namespace VsRemote

/-- How far `start()` and `stop()` are, with the redirectors the daemon holds. -/
inductive DaemonCapture where
  | fresh
  | starting (out : Nat)
  | running (out err : Nat)
  | stopping (err : Nat)
  | stopped

def DaemonCapture.held : DaemonCapture → StdStream → Option Nat
  | starting out, .stdout => some out
  | running out _, .stdout => some out
  | running _ err, .stderr => some err
  | stopping err, .stderr => some err
  | _, _ => none

/-- How far `capture_streams` of the load that holds the lock is. -/
inductive LoadCapture where
  | idle
  | entering (out : Nat)
  | executing (out err : Nat)
  | leaving (out : Nat)

def LoadCapture.held : LoadCapture → StdStream → Option Nat
  | entering out, .stdout => some out
  | executing out _, .stdout => some out
  | leaving out, .stdout => some out
  | executing _ err, .stderr => some err
  | _, _ => none

structure CaptureSystem where
  streams : Streams := {}
  daemon : DaemonCapture := .fresh
  load : LoadCapture := .idle

/-- Requests are received from when both redirectors are installed. -/
def DaemonCapture.listens : DaemonCapture → Bool
  | fresh | starting _ => false
  | _ => true

/-- The stream whose redirector `stop()` uninstalls next. -/
def DaemonCapture.leaves : DaemonCapture → Option StdStream
  | running _ _ => some .stdout
  | stopping _ => some .stderr
  | _ => none

def DaemonCapture.done : DaemonCapture → StdStream → Bool
  | stopping _, .stdout => true
  | stopped, _ => true
  | _, _ => false

/-- Whose next call it is. -/
inductive CaptureLabel where
  | start
  | stop
  | load
  deriving DecidableEq

namespace CaptureSystem

/-- `start` installs and `stop` uninstalls stdout, then stderr. A load goes back in
the opposite order, and may begin as soon as the one before has ended. -/
def step : CaptureLabel → CaptureSystem → Option CaptureSystem
  | .start, ⟨w, .fresh, load⟩ => some ⟨w.enter .stdout, .starting w.redirectors.length, load⟩
  | .start, ⟨w, .starting out, load⟩ => some ⟨w.enter .stderr, .running out w.redirectors.length, load⟩
  | .stop, ⟨w, .running out err, load⟩ => some ⟨w.uninstall out, .stopping err, load⟩
  | .stop, ⟨w, .stopping err, load⟩ => some ⟨w.uninstall err, .stopped, load⟩
  | .load, ⟨w, daemon, .idle⟩ =>
    if daemon.listens then some ⟨w.enter .stdout, daemon, .entering w.redirectors.length⟩ else none
  | .load, ⟨w, daemon, .entering out⟩ => some ⟨w.enter .stderr, daemon, .executing out w.redirectors.length⟩
  | .load, ⟨w, daemon, .executing out err⟩ => some ⟨w.uninstall err, daemon, .leaving out⟩
  | .load, ⟨w, daemon, .leaving out⟩ => some ⟨w.uninstall out, daemon, .idle⟩
  | _, _ => none

/-- `stop()` does not uninstall a redirector while one of a load stands above it. -/
def Ordered (c : CaptureSystem) (l : CaptureLabel) : Prop :=
  ∀ s, l = .stop → c.daemon.leaves = some s → c.load.held s = none

instance (c : CaptureSystem) (l : CaptureLabel) : Decidable (Ordered c l) :=
  decidable_of_iff
    (∀ s ∈ [StdStream.stdout, .stderr], l = .stop → c.daemon.leaves = some s → c.load.held s = none)
    ⟨fun h s => h s (by cases s <;> decide), fun h s _ => h s⟩

/-- The redirectors on a stream: the load's, then the daemon's. -/
def held (c : CaptureSystem) (s : StdStream) : List Nat := (c.load.held s).toList ++ (c.daemon.held s).toList

/-- What a step may do, and on which stream. -/
inductive Moves (l : CaptureLabel) (c t : CaptureSystem) (s : StdStream) : Prop
  | daemonEnters (hl : l ≠ .stop) (hidle : c.load = .idle) (hfree : c.daemon.held s = none)
      (hdone : c.daemon.done s = false) (hstreams : t.streams = c.streams.enter s) (hload : t.load = c.load)
      (hheld : t.daemon.held s = some c.streams.redirectors.length)
  | daemonLeaves (d : Nat) (hl : l = .stop) (hleaves : c.daemon.leaves = some s) (hheld : c.daemon.held s = some d)
      (hstreams : t.streams = c.streams.uninstall d) (hload : t.load = c.load) (hfree : t.daemon.held s = none)
      (hdone : t.daemon.done s = true) (hbefore : c.daemon.done s = false)
  | loadEnters (hl : l ≠ .stop) (hfree : c.load.held s = none) (hstreams : t.streams = c.streams.enter s)
      (hdaemon : t.daemon = c.daemon) (hheld : t.load.held s = some c.streams.redirectors.length)
  | loadLeaves (k : Nat) (hl : l ≠ .stop) (hheld : c.load.held s = some k)
      (hstreams : t.streams = c.streams.uninstall k) (hdaemon : t.daemon = c.daemon) (hfree : t.load.held s = none)

variable {c t : CaptureSystem} {l : CaptureLabel} {s s' : StdStream}

theorem mem_held_of_load {k : Nat} (h : c.load.held s = some k) : k ∈ c.held s := by
  rw [held, h]
  exact List.mem_append_left _ (List.mem_singleton_self k)

theorem step_moves (hearly : c.daemon.listens = false → c.load = .idle) (hs : step l c = some t) :
    (t.daemon.listens = false → t.load = .idle) ∧ ∃ s, Moves l c t s ∧ ∀ s', s' ≠ s →
      t.load.held s' = c.load.held s' ∧ t.daemon.held s' = c.daemon.held s' ∧ t.daemon.done s' = c.daemon.done s' := by
  obtain ⟨w, daemon, load⟩ := c
  have hout : ∀ {P : StdStream → Prop}, P .stderr → ∀ s', s' ≠ StdStream.stdout → P s' := by
    intro P h s' hne
    cases s' with
    | stdout => exact absurd rfl hne
    | stderr => exact h
  have herr : ∀ {P : StdStream → Prop}, P .stdout → ∀ s', s' ≠ StdStream.stderr → P s' := by
    intro P h s' hne
    cases s' with
    | stdout => exact h
    | stderr => exact absurd rfl hne
  cases l with
  | start =>
    have hnot : CaptureLabel.start ≠ .stop := fun h => by cases h
    cases daemon with
    | fresh =>
      cases hs
      exact ⟨fun _ => hearly rfl, .stdout, .daemonEnters hnot (hearly rfl) rfl rfl rfl rfl rfl, hout ⟨rfl, rfl, rfl⟩⟩
    | starting out =>
      cases hs
      exact ⟨fun _ => hearly rfl, .stderr, .daemonEnters hnot (hearly rfl) rfl rfl rfl rfl rfl, herr ⟨rfl, rfl, rfl⟩⟩
    | _ => cases hs
  | stop =>
    cases daemon with
    | running out err =>
      cases hs
      exact ⟨(fun h => by cases h), .stdout, .daemonLeaves out rfl rfl rfl rfl rfl rfl rfl rfl, hout ⟨rfl, rfl, rfl⟩⟩
    | stopping err =>
      cases hs
      exact ⟨(fun h => by cases h), .stderr, .daemonLeaves err rfl rfl rfl rfl rfl rfl rfl rfl, herr ⟨rfl, rfl, rfl⟩⟩
    | _ => cases hs
  | load =>
    have hnot : CaptureLabel.load ≠ .stop := fun h => by cases h
    cases hlistens : daemon.listens with
    | false =>
      cases hearly hlistens
      rw [step, if_neg (by simp [hlistens])] at hs
      cases hs
    | true =>
      have hlate : ∀ load' : LoadCapture, daemon.listens = false → load' = .idle := by
        intro load' hfalse
        rw [hlistens] at hfalse
        cases hfalse
      cases load with
      | idle =>
        rw [step, if_pos hlistens] at hs
        cases hs
        exact ⟨hlate _, .stdout, .loadEnters hnot rfl rfl rfl rfl, hout ⟨rfl, rfl, rfl⟩⟩
      | entering out =>
        cases hs
        exact ⟨hlate _, .stderr, .loadEnters hnot rfl rfl rfl rfl, herr ⟨rfl, rfl, rfl⟩⟩
      | executing out err =>
        cases hs
        exact ⟨hlate _, .stderr, .loadLeaves err hnot rfl rfl rfl rfl, herr ⟨rfl, rfl, rfl⟩⟩
      | leaving out =>
        cases hs
        exact ⟨hlate _, .stdout, .loadLeaves out hnot rfl rfl rfl rfl, hout ⟨rfl, rfl, rfl⟩⟩

/-- What holds of the redirectors in every run. -/
structure Wf (c : CaptureSystem) : Prop where
  early : c.daemon.listens = false → c.load = .idle
  installed : ∀ s, ∀ i ∈ c.held s, c.streams.InstalledOn s i
  nodup : ∀ s, (c.held s).Nodup

/-- The streams lead down through the redirectors to the originals. -/
def Sound (c : CaptureSystem) : Prop := ∀ s, c.streams.Linked s (c.streams.sys s) (c.held s)

/-- Where a stream ends up when the load is done with it. -/
def bottom (c : CaptureSystem) (s : StdStream) : Option StreamRef :=
  match c.load.held s with
  | some k => (c.streams.redirectors[k]?).map Redirector.target
  | none => some (c.streams.sys s)

/-- The stream will be a redirector that nothing uninstalls. -/
structure Stale (c : CaptureSystem) (s : StdStream) : Prop where
  done : c.daemon.done s = true
  bottom : ∃ j, c.bottom s = some (.redirector j)

theorem Moves.changes (h : Moves l c t s) :
    (t.streams = c.streams.enter s ∧ t.held s = c.streams.redirectors.length :: c.held s) ∨
      ∃ i ∈ c.held s, t.streams = c.streams.uninstall i ∧ t.held s = (c.held s).erase i ∧
        (Ordered c l → c.held s = i :: t.held s) := by
  cases h with
  | daemonEnters _ hidle hfree _ hstreams hload hheld =>
    refine .inl ⟨hstreams, ?_⟩
    rw [held, held, hload, hidle, hfree, hheld]
    rfl
  | daemonLeaves d hl hleaves hheld hstreams hload hfree =>
    refine .inr ⟨d, ?_, hstreams, ?_, fun hordered => ?_⟩
    · rw [held, hheld]
      exact List.mem_append_right _ (List.mem_singleton_self d)
    · rw [held, held, hload, hheld, hfree]
      cases c.load.held s with
      | none => simp
      | some k => by_cases hk : k = d <;> simp [hk]
    · rw [held, held, hload, hordered s hl hleaves, hheld, hfree]
      rfl
  | loadEnters _ hfree hstreams hdaemon hheld =>
    refine .inl ⟨hstreams, ?_⟩
    rw [held, held, hdaemon, hfree, hheld]
    rfl
  | loadLeaves k _ hheld hstreams hdaemon hfree =>
    refine .inr ⟨k, mem_held_of_load hheld, hstreams, ?_, fun _ => ?_⟩
    · rw [held, held, hdaemon, hheld, hfree]
      exact (List.erase_cons_head ..).symm
    · rw [held, held, hdaemon, hheld, hfree]
      rfl

/-- A step leaves the other stream and its redirectors alone. -/
theorem Moves.other (h : Moves l c t s) (hwf : Wf c) (hne : s' ≠ s) :
    t.streams.sys s' = c.streams.sys s' ∧
      ∀ k ∈ c.held s', t.streams.redirectors[k]? = c.streams.redirectors[k]? := by
  obtain ⟨hstreams, _⟩ | ⟨i, hi, hstreams, _⟩ := h.changes
  · rw [hstreams]
    refine ⟨Streams.sys_enter_other _ hne, fun k hk => ?_⟩
    exact Streams.getElem?_enter s (hwf.installed s' k hk).lt_length
  · obtain ⟨r, hr, hname, _⟩ := hwf.installed s i hi
    rw [hstreams]
    refine ⟨Streams.sys_uninstall_other hr (hname ▸ hne.symm), fun k hk => ?_⟩
    apply Streams.getElem?_uninstall
    rintro rfl
    obtain ⟨r', hr', hname', _⟩ := hwf.installed s' i hk
    cases hr.symm.trans hr'
    exact hne (hname'.symm.trans hname)

theorem step_wf (hwf : Wf c) (hs : step l c = some t) : Wf t := by
  obtain ⟨hearly, s, hmoves, hothers⟩ := step_moves hwf.early hs
  have hother : ∀ s', s' ≠ s → t.held s' = c.held s' ∧ ∀ k ∈ c.held s', t.streams.InstalledOn s' k := by
    intro s' hne
    obtain ⟨hload, hdaemon, _⟩ := hothers s' hne
    refine ⟨by rw [held, held, hload, hdaemon], fun k hk => ?_⟩
    obtain ⟨r, hr, hname⟩ := hwf.installed s' k hk
    exact ⟨r, ((hmoves.other hwf hne).2 k hk).trans hr, hname⟩
  have hself : (∀ k ∈ t.held s, t.streams.InstalledOn s k) ∧ (t.held s).Nodup := by
    obtain ⟨hstreams, hheld⟩ | ⟨i, _, hstreams, hheld, _⟩ := hmoves.changes
    · have hold : ∀ k ∈ c.held s, k < c.streams.redirectors.length := fun k hk => (hwf.installed s k hk).lt_length
      rw [hheld, hstreams]
      refine ⟨List.forall_mem_cons.2 ⟨⟨_, Streams.getElem?_enter_length s _, rfl, rfl⟩, fun k hk => ?_⟩, ?_⟩
      · obtain ⟨r, hr, hname⟩ := hwf.installed s k hk
        exact ⟨r, (Streams.getElem?_enter s (hold k hk)).trans hr, hname⟩
      · exact List.nodup_cons.2 ⟨fun hmem => Nat.lt_irrefl _ (hold _ hmem), hwf.nodup s⟩
    · rw [hheld, hstreams]
      refine ⟨fun k hk => ?_, (hwf.nodup s).erase i⟩
      obtain ⟨hne, hk⟩ := (hwf.nodup s).mem_erase_iff.1 hk
      obtain ⟨r, hr, hname⟩ := hwf.installed s k hk
      exact ⟨r, (Streams.getElem?_uninstall hne.symm).trans hr, hname⟩
  refine ⟨hearly, fun s' => ?_, fun s' => ?_⟩
  · obtain rfl | hne := eq_or_ne s' s
    · exact hself.1
    · rw [(hother s' hne).1]
      exact (hother s' hne).2
  · obtain rfl | hne := eq_or_ne s' s
    · exact hself.2
    · rw [(hother s' hne).1]
      exact hwf.nodup s'

theorem step_sound (hwf : Wf c) (hsound : Sound c) (hordered : Ordered c l) (hs : step l c = some t) : Sound t := by
  obtain ⟨_, s, hmoves, hothers⟩ := step_moves hwf.early hs
  intro s'
  obtain rfl | hne := eq_or_ne s' s
  · obtain ⟨hstreams, hheld⟩ | ⟨i, _, hstreams, _, htop⟩ := hmoves.changes
    · rw [hheld, hstreams]
      exact (hsound s').enter
    · have hlinked := hsound s'
      rw [htop hordered] at hlinked
      rw [hstreams]
      exact hlinked.uninstall
  · obtain ⟨hload, hdaemon, _⟩ := hothers s' hne
    obtain ⟨hsys, hkept⟩ := hmoves.other hwf hne
    rw [held, hload, hdaemon, hsys]
    exact (hsound s').congr hkept

/-- Where `stop` is not in order the stream of its redirector goes stale. -/
theorem step_breaks (hwf : Wf c) (hsound : Sound c) (hordered : ¬ Ordered c l) (hs : step l c = some t) :
    ∃ s, Stale t s := by
  obtain ⟨s, hl, hleaves, hbusy⟩ : ∃ s, l = .stop ∧ c.daemon.leaves = some s ∧ c.load.held s ≠ none := by
    simpa [Ordered] using hordered
  obtain ⟨k, hk⟩ := Option.ne_none_iff_exists'.1 hbusy
  obtain ⟨_, s', hmoves, _⟩ := step_moves hwf.early hs
  cases hmoves with
  | daemonEnters hnot => exact absurd hl hnot
  | loadEnters hnot => exact absurd hl hnot
  | loadLeaves _ hnot => exact absurd hl hnot
  | daemonLeaves d _ hleaves' hheld hstreams hload hfree hdone =>
    cases hleaves.symm.trans hleaves'
    have hlist : c.held s = [k, d] := by
      rw [held, hk, hheld]
      rfl
    have hne : d ≠ k := by
      have hnodup := hwf.nodup s
      rw [hlist] at hnodup
      rintro rfl
      exact (List.nodup_cons.1 hnodup).1 (List.mem_singleton_self d)
    have hlinked := hsound s
    rw [hlist] at hlinked
    generalize c.streams.sys s = ref at hlinked
    cases hlinked with
    | redirector hr _ _ _ hrest =>
      refine ⟨s, hdone, d, ?_⟩
      rw [bottom, hload, hk, hstreams]
      simp only [Streams.getElem?_uninstall hne, hr, Option.map_some, hrest.eq_redirector]

theorem step_stale (hwf : Wf c) (hstale : Stale c s) (hs : step l c = some t) : Stale t s := by
  obtain ⟨_, s', hmoves, hothers⟩ := step_moves hwf.early hs
  obtain ⟨j, hj⟩ := hstale.bottom
  obtain rfl | hne := eq_or_ne s s'
  · cases hmoves with
    | daemonEnters _ _ _ hdone => cases hstale.done.symm.trans hdone
    | daemonLeaves _ _ _ _ _ _ _ _ hbefore => cases hstale.done.symm.trans hbefore
    | loadEnters _ hfree hstreams hdaemon hheld =>
      refine ⟨hdaemon ▸ hstale.done, j, ?_⟩
      rw [bottom, hfree] at hj
      rw [bottom, hheld, hstreams]
      simp only [Streams.getElem?_enter_length, Option.map_some]
      exact hj
    | loadLeaves k _ hheld hstreams hdaemon hfree =>
      refine ⟨hdaemon ▸ hstale.done, j, ?_⟩
      obtain ⟨r, hr, hname, hinstalled⟩ := hwf.installed s k (mem_held_of_load hheld)
      have hsys := Streams.sys_uninstall_self hr hinstalled
      rw [hname] at hsys
      rw [bottom, hheld] at hj
      simp only [hr, Option.map_some] at hj
      rw [bottom, hfree, hstreams]
      simp only [hsys]
      exact hj
  · obtain ⟨hload, hdaemon, hdone⟩ := hothers s hne
    obtain ⟨hsys, hkept⟩ := hmoves.other hwf hne
    refine ⟨hdone.trans hstale.done, j, ?_⟩
    rw [bottom] at hj
    rw [bottom, hload]
    cases hk : c.load.held s with
    | none =>
      rw [hk] at hj
      simp only [hsys]
      exact hj
    | some k =>
      rw [hk] at hj
      simp only [hkept k (mem_held_of_load hk)]
      exact hj

end CaptureSystem

/-- For every run of the daemon and its loads, of any number and in any order of
their calls, that ends with no redirector installed. -/
theorem streams_restored_iff {ls : List CaptureLabel} {c : CaptureSystem}
    (hr : Runs.run CaptureSystem.step ls {} = some c) (hnone : ∀ r ∈ c.streams.redirectors, r.installed = false) :
    (∀ s, c.streams.sys s = .original s) ↔ Runs.Guarded CaptureSystem.step CaptureSystem.Ordered ls {} := by
  have hstart : CaptureSystem.Wf {} ∧ CaptureSystem.Sound {} := by
    refine ⟨⟨fun _ => rfl, fun s i hi => ?_, fun s => ?_⟩, fun s => ?_⟩
    · cases s <;> cases hi
    · cases s <;> exact List.nodup_nil
    · cases s <;> exact .original
  have hempty : CaptureSystem.Wf c → ∀ s, c.held s = [] := by
    intro hwf s
    rw [List.eq_nil_iff_forall_not_mem]
    intro i hi
    obtain ⟨r, hr, _, hinstalled⟩ := hwf.installed s i hi
    cases (hnone r (List.mem_of_getElem? hr)).symm.trans hinstalled
  obtain ⟨hguarded, hwf, hsound⟩ | ⟨hguarded, hwf, s, hstale⟩ := Runs.guarded_or_broken
    (I := fun c => CaptureSystem.Wf c ∧ CaptureSystem.Sound c)
    (B := fun c => CaptureSystem.Wf c ∧ ∃ s, CaptureSystem.Stale c s)
    (fun _ _ _ _ h hordered hs => ⟨CaptureSystem.step_wf h.1 hs, CaptureSystem.step_sound h.1 h.2 hordered hs⟩)
    (fun _ _ _ _ h hordered hs => ⟨CaptureSystem.step_wf h.1 hs, CaptureSystem.step_breaks h.1 h.2 hordered hs⟩)
    (fun _ _ _ _ h hs => ⟨CaptureSystem.step_wf h.1 hs, h.2.imp fun _ hstale => CaptureSystem.step_stale h.1 hstale hs⟩)
    hstart hr
  · refine iff_of_true (fun s => ?_) hguarded
    have hlinked := hsound s
    rw [hempty hwf s] at hlinked
    exact hlinked.eq_original
  · refine iff_of_false (fun hall => ?_) hguarded
    obtain ⟨j, hj⟩ := hstale.bottom
    have hidle : c.load.held s = none := by
      have hheld := hempty hwf s
      rw [CaptureSystem.held, List.append_eq_nil_iff] at hheld
      simpa using hheld.1
    rw [CaptureSystem.bottom, hidle] at hj
    simp only [hall s] at hj
    cases hj

/-- A load while the daemon runs, and `stop()` after it. -/
def loadThenStop : List CaptureLabel := [.start, .start, .load, .load, .load, .load, .stop, .stop]

/-- `stop()` while a load runs. -/
def stopInLoad : List CaptureLabel := [.start, .start, .load, .load, .stop, .stop, .load, .load]

theorem streams_restored_iff_loadThenStop :
    ∃ c, Runs.run CaptureSystem.step loadThenStop {} = some c ∧ ∀ s, c.streams.sys s = .original s := by
  have hguarded : Runs.Guarded CaptureSystem.step CaptureSystem.Ordered loadThenStop {} := by decide
  exact ⟨_, rfl, (@streams_restored_iff loadThenStop _ rfl (by decide)).2 hguarded⟩

/-- In the end the redirectors of the stopped daemon stand in `sys`. -/
theorem streams_not_restored_stopInLoad :
    ∃ c, Runs.run CaptureSystem.step stopInLoad {} = some c ∧ (∀ r ∈ c.streams.redirectors, r.installed = false) ∧
      c.streams.sys .stdout = .redirector 0 ∧ ¬ ∀ s, c.streams.sys s = .original s := by
  refine ⟨_, rfl, by decide, rfl, fun hall => ?_⟩
  cases hall .stdout

end VsRemote
