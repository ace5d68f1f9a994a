import VsRemote.NotFoundTeardown
import VsRemote.RunnerSteps

/-! Whether the outputs of a successful load last, for any number of load
requests and any order of their jobs. -/

namespace VsRemote

/-- Until the server is closed, a load that succeeded and after which no other
load has run still has its outputs in the runner. -/
def LastLoadKept (s : Sys) : Prop :=
  s.closed = false → ∀ (rec : LoadRecord) (outs : List OutputItem), s.loads.getLast? = some rec →
    rec.result = .ok outs → s.srv.runner.runner.outputItems = outs ∧ s.srv.runner.runner.stores = rec.stores

/-- A clean-up does not run right after a load that succeeded and installed
something. -/
def CleanUpHarmless (s : Sys) (l : Label) : Prop :=
  s.closed = false → ∀ (j : Nat) (w : TeardownWorld) (pj : PoolJob) (rec : LoadRecord)
    (outs : List OutputItem), l = .jobRun j (.teardown w) → s.jobs[j]? = some pj →
    pj.status = .running → pj.job = .teardown → s.loads.getLast? = some rec → rec.result = .ok outs →
    rec.stores = .empty

variable {d : Daemon} {h : Host} {s s' : Sys} {l : Label}

theorem LastLoadKept.step (hi : LastLoadKept s) (hc : CleanUpHarmless s l)
    (hs : Sys.step d h l s = some s') : LastLoadKept s' := by
  intro hopen rec outs hlast hok
  rcases Sys.step_runner hs with hsame | ⟨j, w, pj, outcome, rfl, hj⟩ | ⟨hclosed, -, -⟩
  · rw [hsame.closed] at hopen
    rw [hsame.loads] at hlast
    rw [hsame.runner]
    exact hi hopen rec outs hlast hok
  · rw [hj.closed] at hopen
    have hloads := hj.loads
    rcases Job.run_cases hj.run with ⟨a, lw, ha, rfl, rfl, hrun⟩ | ⟨tw, ha, rfl, rfl, hrun⟩ |
      ⟨frame, compression, ha, hrun⟩
    · rw [ha] at hloads
      rw [hloads] at hlast
      simp only [Sys.record, List.getLast?_concat, Option.some.injEq] at hlast
      obtain rfl := hlast
      refine ⟨LoadAction.run_ok (a := a) (w := lw) (s := s.srv.runner) ?_, rfl⟩
      rw [hrun]
      exact Prod.ext hok rfl
    · rw [ha] at hloads
      simp only [Sys.record, List.append_nil] at hloads
      rw [hloads] at hlast
      obtain ⟨houts, hstores⟩ := hi hopen rec outs hlast hok
      have hempty := hc hopen j tw pj rec outs rfl hj.job hj.running ha hlast hok
      rw [hempty] at hstores
      have hnil : s.srv.runner.runner.outputItems = [] := congrArg Stores.outputItems hstores
      have hnow : s'.srv.runner.runner.stores = .empty := by
        rw [hrun]
        exact ScriptRunner.teardown_stores tw s.srv.runner
      refine ⟨?_, hnow.trans hempty.symm⟩
      rw [← houts, hnil]
      exact congrArg Stores.outputItems hnow
    · rw [ha] at hloads
      simp only [Sys.record, List.append_nil] at hloads
      rw [hloads] at hlast
      rw [hrun]
      exact hi hopen rec outs hlast hok
  · rw [hclosed] at hopen
    cases hopen

theorem not_cleanUpHarmless (hc : ¬ CleanUpHarmless s l) :
    ∃ t, Sys.step d h l s = some t ∧ ¬ LastLoadKept t := by
  simp only [CleanUpHarmless, Classical.not_imp, not_forall] at hc
  obtain ⟨hopen, j, w, pj, rec, outs, rfl, hj, hrun, hjob, hlast, hok, hne⟩ := hc
  obtain ⟨job, owner, status⟩ := pj
  simp only at hrun hjob
  subst hrun hjob
  refine ⟨_, by simp [Sys.step, Sys.stepJobRun, hj, Job.run]; rfl, ?_⟩
  intro hkept
  have hstores := (hkept hopen rec outs (by simpa [Sys.record] using hlast) hok).2
  exact hne (hstores.symm.trans (ScriptRunner.teardown_stores w s.srv.runner))

/-- In a run of the server the outputs of the last load, if it succeeded, are
there in every state exactly when no clean-up runs right after such a load. -/
theorem last_load_kept_iff {runner : RunnerState} {metrics : ServerMetricsCollector} {ls : List Label} :
    Runs.Always (Sys.step d h) LastLoadKept ls (Sys.init runner metrics) ↔
      Runs.Guarded (Sys.step d h) CleanUpHarmless ls (Sys.init runner metrics) := by
  refine Runs.always_iff_guarded (fun _ hi => hi) (fun _ _ _ hi hc hs => hi.step hc hs)
    (fun _ _ _ hc => not_cleanUpHarmless hc) ?_
  intro _ rec outs hlast
  cases hlast

def scriptSys : Sys := Sys.init ⟨{ scriptPath := some "clip.vpy" }, .empty, []⟩ { startTime := 0 }

def LoadWorld.failing : LoadWorld :=
  { LoadWorld.finds .empty with
    isFile := fun _ => true
    script := .error (.ofText .executionError "boom") }

def LoadWorld.oneClip : LoadWorld :=
  { LoadWorld.finds (OrderedDict.empty.set 0 (.video (.gray8 1 2 2))) with
    isFile := fun _ => true }

def reloadMsg (identity : UInt8) : List Bytes := [[identity], [0, 0, 0, 5], [8]]

def reloadLabels (t : Nat) (identity : UInt8) : List Label :=
  [.recv (reloadMsg identity), .sync t .ok, .sync t .ok, .sync t (.time 0), .submit t]

/-- Two clients reload: the first load fails, the second succeeds, then the
clean-up of the first runs. -/
def raceLabels : List Label :=
  reloadLabels 0 1 ++ reloadLabels 1 2 ++
  [.jobStart 0, .jobRun 0 (.load .failing), .jobStart 1, .jobRun 1 (.load .oneClip),
    .resume 0, .sync 0 (.traceback ⟨[], ""⟩), .submit 0, .jobStart 2, .jobRun 2 (.teardown {})]

theorem not_lastLoadKept {n m : Nat} (hne : n ≠ m)
    (h : (s.closed, s.loads.getLast?.bind (fun rec => rec.result.toOption.map List.length),
      s.srv.runner.runner.outputItems.length) = (false, some n, m)) : ¬ LastLoadKept s := by
  intro hkept
  obtain ⟨hopen, hlast, hnow⟩ : s.closed = false ∧ _ ∧ _ := by simpa only [Prod.mk.injEq] using h
  obtain ⟨rec, hrec, hlen⟩ := Option.bind_eq_some_iff.1 hlast
  obtain ⟨outs, hres, rfl⟩ := Option.map_eq_some_iff.1 hlen
  obtain ⟨houts, -⟩ := hkept hopen rec outs hrec (toOption_eq_some hres)
  exact hne (houts ▸ hnow)

/-- The clean-up of a failed reload removes what a later reload installed. -/
theorem clean_up_removes_later_load :
    ∃ s, Runs.run (Sys.step emptyMapDaemon Host.plain) raceLabels scriptSys = some s ∧
      ¬ LastLoadKept s := by
  have hfinal : (Runs.run (Sys.step emptyMapDaemon Host.plain) raceLabels scriptSys).map (fun s =>
      (s.closed, s.loads.getLast?.bind (fun rec => rec.result.toOption.map List.length),
        s.srv.runner.runner.outputItems.length)) = some (false, some 1, 0) := by decide +kernel
  obtain ⟨s, hrun, hs⟩ := Option.map_eq_some_iff.1 hfinal
  exact ⟨s, hrun, not_lastLoadKept (by omega) hs⟩

end VsRemote
