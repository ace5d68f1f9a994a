import VsRemote.Lifecycle
import VsRemote.RunnerSpec

/-! What one step of the server does to the runner and to the records of its
loads and queries. -/

namespace VsRemote

namespace Sys

variable {d : Daemon} {h : Host} {s s' : Sys} {l : Label}

structure SameRunner (s s' : Sys) : Prop where
  runner : s'.srv.runner = s.srv.runner
  loads : s'.loads = s.loads
  closed : s'.closed = s.closed

structure RunsJob (h : Host) (s s' : Sys) (j : Nat) (w : JobWorld) (pj : PoolJob) (outcome : JobOutcome) :
    Prop where
  job : s.jobs[j]? = some pj
  running : pj.status = .running
  run : pj.job.run h w s.srv.runner = some (outcome, s'.srv.runner)
  loads : s'.loads = s.loads ++ record j s.srv.runner.runner pj.job w outcome s'.srv.runner
  done : s'.jobs[j]? = some { pj with status := .done outcome }
  closed : s'.closed = s.closed

theorem dropQueued_loads (j : Nat) : (s.dropQueued j).loads = s.loads ∧
    (s.dropQueued j).closed = s.closed ∧ (s.dropQueued j).answers = s.answers := by
  unfold dropQueued
  split <;> exact ⟨rfl, rfl, rfl⟩

theorem step_jobRun {j : Nat} {w : JobWorld} (hs : step d h (.jobRun j w) s = some s') :
    ∃ pj outcome, RunsJob h s s' j w pj outcome := by
  cases step_to hs with
  | jobRun hj hr ho => exact ⟨_, _, hj, hr, ho, rfl, by simp [setStatus, hj], rfl⟩

theorem stores_of_close {w : TeardownWorld} {isRegistered : Bool} (hs : step d h (.close w isRegistered) s = some s') :
    s'.srv.runner.runner.stores = .empty := by
  cases step_to hs with
  | close => exact ScriptRunner.close_stores _ _ _

theorem step_runner (hs : step d h l s = some s') :
    SameRunner s s' ∨ (∃ j w pj outcome, l = .jobRun j w ∧ RunsJob h s s' j w pj outcome) ∨
      (s'.closed = true ∧ s'.loads = s.loads ∧ s'.srv.runner.runner.stores = .empty) := by
  cases step_to hs with
  | @sync t c task o k r srv ht hp hr =>
    have hside := sameJobs_sideEffect (s := s) o
    exact .inl ⟨(respond_frame hr).2.2, hside.loads, hside.closed⟩
  | @jobCancelled t task job k j =>
    obtain ⟨hl, hc, -⟩ := dropQueued_loads (s := s.modifyTask t Task.clearCancel) j
    exact .inl ⟨congrArg ServerState.runner (dropQueued_srv j), hl, hc⟩
  | jobRun =>
    obtain ⟨pj, outcome, hj⟩ := step_jobRun hs
    exact .inr (.inl ⟨_, _, pj, outcome, rfl, hj⟩)
  | close => exact .inr (.inr ⟨rfl, rfl, ScriptRunner.close_stores _ _ _⟩)
  | _ => exact .inl ⟨rfl, rfl, rfl⟩

/-- The next operation of the task is a query that finds a registered output. -/
def finds (s : Sys) (t : Nat) : Bool :=
  match s.tasks[t]? with
  | some task =>
    match task.prog with
    | .call (.runner q) _ => q.answered s.srv.runner.runner
    | _ => false
  | none => false

/-- Only a query answered from a registered output adds an answer. -/
theorem step_answers (hs : step d h l s = some s') :
    s'.answers = s.answers ∨ ∃ t c, l = .sync t c ∧ s.finds t = true ∧
      s'.answers = s.answers ++ [lastTouched s.loads] := by
  cases step_to hs with
  | @sync t c task o k r srv ht hp hr =>
    change (s.sideEffect o).answers = s.answers ∨ ∃ t' c', Label.sync t c = .sync t' c' ∧ s.finds t' = true ∧
      (s.sideEffect o).answers = _
    unfold sideEffect
    split
    · unfold cancelTask
      split
      · split <;> exact .inl rfl
      · exact .inl rfl
    · exact .inl rfl
    · next q =>
      split
      · next hq => exact .inr ⟨t, c, rfl, by simp only [finds, ht, hp, hq], rfl⟩
      · exact .inl rfl
    · exact .inl rfl
  | @jobCancelled t task job k j =>
    exact .inl (dropQueued_loads (s := s.modifyTask t Task.clearCancel) j).2.2
  | _ => exact .inl rfl

theorem lastTouched_concat (loads : List LoadRecord) (rec : LoadRecord) :
    lastTouched (loads ++ [rec]) = if rec.touched then some rec else lastTouched loads := by
  unfold lastTouched
  rw [List.filter_append]
  by_cases ht : rec.touched = true
  · simp [ht]
  · simp [ht]

/-- A load runs past its preconditions. -/
structure RunsLoad (s s' : Sys) (j : Nat) (w : LoadWorld) (pj : PoolJob) (a : LoadAction) (rec : LoadRecord) :
    Prop where
  job : s.jobs[j]? = some pj
  load : pj.job = .load a
  touches : a.touches w s.srv.runner.runner = true
  exec : (a.run w).exec s.srv.runner = (rec.result, s'.srv.runner)
  done : s'.jobs[j]? = some { pj with status := .done (.load rec.result) }
  ofJob : rec.job = j
  stores : s'.srv.runner.runner.stores = rec.stores
  last : lastTouched s'.loads = some rec

theorem RunsJob.runsLoad {j : Nat} {w : LoadWorld} {pj : PoolJob} {a : LoadAction} {outcome : JobOutcome}
    (hj : RunsJob h s s' j (.load w) pj outcome) (ha : pj.job = .load a) (ht : a.touches w s.srv.runner.runner = true) :
    ∃ rec, RunsLoad s s' j w pj a rec := by
  have hloads := hj.loads
  rcases Job.run_cases hj.run with ⟨a', lw, ha', hw, rfl, hrun⟩ | ⟨tw, ha', -⟩ | ⟨frame, compression, ha', -⟩
  · cases hw
    obtain rfl := Job.load.inj (ha.symm.trans ha')
    rw [ha] at hloads
    simp only [record] at hloads
    have hlast := lastTouched_concat s.loads ⟨j, a.touches w s.srv.runner.runner,
      ((a.run w).exec s.srv.runner).1, s'.srv.runner.runner.stores⟩
    rw [← hloads, ht] at hlast
    exact ⟨_, hj.job, ha, ht, Prod.ext rfl hrun.symm, hj.done, rfl, rfl, hlast⟩
  · rw [ha] at ha'
    cases ha'
  · rw [ha] at ha'
    cases ha'

/-- Outputs change when a load runs that gets past its preconditions; any
other step keeps them or drops them all. -/
theorem step_stores (hs : step d h l s = some s') :
    (lastTouched s'.loads = lastTouched s.loads ∧
      (s'.srv.runner.runner.stores = s.srv.runner.runner.stores ∨
        s'.srv.runner.runner.stores = .empty)) ∨
    (∃ j w pj a rec, l = .jobRun j (.load w) ∧ RunsLoad s s' j w pj a rec) := by
  rcases step_runner hs with hsame | ⟨j, w, pj, outcome, rfl, hj⟩ | ⟨-, hloads, hempty⟩
  · rw [hsame.loads, hsame.runner]
    exact .inl ⟨rfl, .inl rfl⟩
  · have hloads := hj.loads
    rcases Job.run_cases hj.run with ⟨a, lw, ha, rfl, rfl, hrun⟩ | ⟨tw, ha, rfl, rfl, hrun⟩ |
      ⟨frame, compression, ha, hrun⟩
    · cases ht : a.touches lw s.srv.runner.runner with
      | false =>
        rw [ha] at hloads
        simp only [record] at hloads
        have hlast := lastTouched_concat s.loads ⟨j, a.touches lw s.srv.runner.runner,
          ((a.run lw).exec s.srv.runner).1, s'.srv.runner.runner.stores⟩
        obtain ⟨e, he, -⟩ := LoadAction.run_untouched ht
        rw [← hloads, ht] at hlast
        rw [he] at hrun
        rw [hrun]
        exact .inl ⟨hlast, .inl rfl⟩
      | true =>
        obtain ⟨rec, hload⟩ := hj.runsLoad ha ht
        exact .inr ⟨j, lw, pj, a, rec, rfl, hload⟩
    · rw [ha] at hloads
      simp only [record, List.append_nil] at hloads
      rw [hloads, hrun]
      exact .inl ⟨rfl, .inr (ScriptRunner.teardown_stores tw s.srv.runner)⟩
    · rw [ha] at hloads
      simp only [record, List.append_nil] at hloads
      rw [hloads, hrun]
      exact .inl ⟨rfl, .inl rfl⟩
  · rw [hloads]
    exact .inl ⟨rfl, .inr hempty⟩

/-- The load that runs in the step, with the task that asked for it. -/
def loadOf (s : Sys) : Label → Option (LoadAction × LoadWorld × Nat)
  | .jobRun j (.load w) =>
    match s.jobs[j]? with
    | some ⟨.load a, owner, .running⟩ => some (a, w, owner)
    | _ => none
  | _ => none

theorem loadOf_eq_some {a : LoadAction} {w : LoadWorld} {t : Nat} (hl : s.loadOf l = some (a, w, t)) :
    ∃ j, l = .jobRun j (.load w) ∧ s.jobs[j]? = some ⟨.load a, t, .running⟩ := by
  cases l with
  | jobRun j jw =>
    cases jw with
    | load lw =>
      simp only [loadOf] at hl
      split at hl
      · next hj =>
        cases hl
        exact ⟨j, rfl, hj⟩
      · cases hl
    | _ => cases hl
  | _ => cases hl

/-- What a step does to the runner: nothing, or all of a load, a clean-up or the closing. -/
inductive RunnerStep (s s' : Sys) : Label → Prop
  | same {l : Label} (hl : s.loadOf l = none) (hr : s'.srv.runner = s.srv.runner) : RunnerStep s s' l
  | load {j : Nat} {w : LoadWorld} {a : LoadAction} {t : Nat} (hl : s.loadOf (.jobRun j (.load w)) = some (a, w, t))
      (hr : s'.srv.runner = ((a.run w).exec s.srv.runner).2) : RunnerStep s s' (.jobRun j (.load w))
  | teardown {j : Nat} {w : TeardownWorld}
      (hr : s'.srv.runner = ((ScriptRunner.teardownEnvironment w).exec s.srv.runner).2) :
      RunnerStep s s' (.jobRun j (.teardown w))
  | close {w : TeardownWorld} {isRegistered : Bool}
      (hr : s'.srv.runner = ((ScriptRunner.close w isRegistered).exec s.srv.runner).2) :
      RunnerStep s s' (.close w isRegistered)

theorem step_runnerStep (hs : step d h l s = some s') : RunnerStep s s' l := by
  cases step_to hs with
  | @sync t c task o k r srv ht hp hr => exact .same rfl (respond_frame hr).2.2
  | @jobCancelled t task job k j =>
    exact .same rfl (congrArg ServerState.runner (dropQueued_srv (s := s.modifyTask t Task.clearCancel) j))
  | @jobRun j w pj outcome runner hj hr ho =>
    obtain ⟨job, owner, status⟩ := pj
    obtain rfl : status = .running := hr
    rcases Job.run_cases ho with ⟨a, lw, ha, rfl, -, hrun⟩ | ⟨tw, -, rfl, -, hrun⟩ | ⟨frame, compression, he, hrun⟩
    · obtain rfl : job = .load a := ha
      exact .load (t := owner) (by simp only [loadOf, hj]) hrun
    · exact .teardown hrun
    · obtain rfl : job = .extract frame compression := he
      refine .same ?_ hrun
      cases w with
      | load lw => simp only [loadOf, hj]
      | _ => rfl
  | close => exact .close rfl
  | _ => exact .same rfl rfl

/-- A clean-up job leaves no output. -/
theorem teardown_empties {j : Nat} {w : JobWorld} {pj : PoolJob} (hs : step d h (.jobRun j w) s = some s')
    (hj : s.jobs[j]? = some pj) (hjob : pj.job = .teardown) : s'.srv.runner.runner.stores = .empty := by
  obtain ⟨pj₀, outcome, hruns⟩ := step_jobRun hs
  obtain rfl := Option.some.inj (hj.symm.trans hruns.job)
  rcases Job.run_cases hruns.run with ⟨a, lw, ha, -⟩ | ⟨tw, -, rfl, rfl, hrun⟩ | ⟨frame, compression, ha, -⟩
  · rw [hjob] at ha
    cases ha
  · exact hrun ▸ ScriptRunner.teardown_stores tw s.srv.runner
  · rw [hjob] at ha
    cases ha

theorem stores_of_teardown {j : Nat} {w : TeardownWorld} (hs : step d h (.jobRun j (.teardown w)) s = some s') :
    s'.srv.runner.runner.stores = .empty := by
  obtain ⟨pj, outcome, hruns⟩ := step_jobRun hs
  refine teardown_empties hs hruns.job ?_
  have hrun := hruns.run
  cases hjob : pj.job with
  | teardown => rfl
  | _ =>
    rw [hjob] at hrun
    cases hrun

end Sys

theorem RunnerQuery.answered_of_empty {r : ScriptRunner} (q : RunnerQuery) (hr : r.stores = .empty) :
    q.answered r = false := by
  obtain ⟨hclips, hinfos, hitems⟩ : r.clips = .empty ∧ r.clipInfos = .empty ∧ r.outputItems = [] := by
    simpa only [ScriptRunner.stores, Stores.empty, Stores.mk.injEq] using hr
  cases q with
  | listOutputs => simp only [answered, hitems, List.isEmpty_nil, Bool.not_true]
  | clipInfo i =>
    rw [answered, hinfos]
    rfl
  | clip i =>
    rw [answered, hclips]
    rfl
  | _ => rfl

end VsRemote
