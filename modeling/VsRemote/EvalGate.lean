import VsRemote.HandlerKeeps
import VsRemote.PoolJobs
import VsRemote.LoadRace
import VsRemote.RunnerEnvironment

/-! Which code the server runs: its script path, the calls of `load_code` and
what its loads evaluate, for any messages in any order. -/

namespace VsRemote

open Handler

def VsCall.evaluated : VsCall → Option ScriptSource
  | .evaluate source => some source
  | _ => none

/-- What vsengine has executed for the runner so far. -/
def RunnerState.evaluations (s : RunnerState) : List ScriptSource := s.calls.filterMap VsCall.evaluated

/-- `Path.resolve` gives resolved paths and leaves these alone. -/
structure Resolves (Resolved : String → Prop) (w : LoadWorld) : Prop where
  resolved : ∀ path, Resolved (w.resolve path)
  fixed : ∀ path, Resolved path → w.resolve path = path

namespace Sys

/-- What the load of the step is of. -/
def loadSource (s : Sys) (l : Label) : Option ScriptSource :=
  (s.loadOf l).bind (fun load => load.1.source load.2.1 s.srv.runner.runner)

/-- What vsengine has executed since. -/
def evaluatedSince (s s' : Sys) : List ScriptSource :=
  s'.srv.runner.evaluations.drop s.srv.runner.evaluations.length

def callsLoadCode (s : Sys) (l : Label) : Bool :=
  match s.loadOf l with
  | some (.loadCode _, _) => true
  | _ => false

end Sys

/-- The step finds the script path as it was at the start, does not call `load_code`, loads
nothing but the file at that path and has nothing else executed. -/
structure Pinned (d : Daemon) (h : Host) (start : Option String) (s : Sys) (l : Label) : Prop where
  scriptPath : s.srv.runner.runner.scriptPath = start
  noCode : s.callsLoadCode l = false
  loads : ∀ source, s.loadSource l = some source → ∃ path, start = some path ∧ source = .file path
  evaluates : ∀ s', Sys.step d h l s = some s' → ∀ source ∈ s.evaluatedSince s',
    ∃ path, start = some path ∧ source = .file path

/-- The step changes the script path, calls `load_code`, or loads something other than the
file at the script path or has it executed. -/
def ChangesCode (s : Sys) (l : Label) (s' : Sys) : Prop :=
  s'.srv.runner.runner.scriptPath ≠ s.srv.runner.runner.scriptPath ∨ s.callsLoadCode l = true ∨
    (∃ source, s.loadSource l = some source ∧ s.srv.runner.runner.scriptPath.map .file ≠ some source) ∨
    ∃ source ∈ s.evaluatedSince s', s.srv.runner.runner.scriptPath.map .file ≠ some source

/-- A LOAD_CODE or LOAD_SCRIPT message that passed the token check asked for it. -/
def EvalAsked (d : Daemon) (s : Sys) (l : Label) : Prop :=
  ∃ a w t task msg req, s.loadOf l = some (a, w, t) ∧ s.tasks[t]? = some task ∧ task.msg = some msg ∧
    PassesCheck d msg req ∧ req.command = a.command ∧ (req.command = .loadCode ∨ req.command = .loadScript)

/-! ## The script path over one step -/

namespace ScriptRunner

open RunM (Leaves)

abbrev pathOf (s : RunnerState) : Option String := s.runner.scriptPath

theorem leaves_path_execute (w : LoadWorld) (source : ScriptSource) : Leaves pathOf (execute w source) := by
  refine .bind (.outside _ (fun _ => rfl)) (fun _ => ?_)
  refine .bind (.update (fun _ => rfl)) (fun _ => .bind (.ofExcept _) (fun script => ?_))
  refine .bind (.update (fun _ => rfl)) (fun _ => .bind (.modify (fun _ => rfl)) (fun _ => ?_))
  exact .bind (.raiseIf _) (fun _ => leaves_extractOutputs w (fun _ _ _ _ => rfl))

theorem leaves_path_teardown (w : TeardownWorld) : Leaves pathOf (teardownEnvironment w) := by
  intro s
  obtain ⟨r, script, environment, cs, hex, -, -⟩ := exec_teardownEnvironment w s
  rw [hex]
  rfl

theorem leaves_path_close (w : TeardownWorld) (isRegistered : Bool) : Leaves pathOf (close w isRegistered) := by
  refine .bind (leaves_path_teardown w) (fun _ => .bind .get (fun st => ?_))
  dsimp only
  split
  · refine .ite (fun _ => ?_) (fun _ => .pure ())
    have hclear : Leaves pathOf (update (fun r => { r with policy := none, registeredPolicy := false })) :=
      .update (fun _ => rfl)
    exact .ite (fun _ => .bind (.outside _ (fun _ => rfl)) (fun _ => hclear)) (fun _ => hclear)
  · exact .pure ()

/-- A load past its preconditions stores its path unless the teardown raises. -/
theorem loadAfter_path {f : ScriptRunner → ScriptRunner} {path : Option String}
    (hf : ∀ r, (f r).scriptPath = path) (w : LoadWorld) (source : ScriptSource) (s : RunnerState) :
    pathOf ((loadAfter w f source).exec s).2 = pathOf s ∨ pathOf ((loadAfter w f source).exec s).2 = path := by
  have hdown := leaves_path_teardown w.teardown s
  have hrest : Leaves pathOf (do
      let _ ← ensurePolicy w none
      execute w source : RunM (List OutputItem)) :=
    .bind (leaves_ensurePolicy w (fun _ _ _ => rfl) (fun _ _ => rfl)) (fun _ => leaves_path_execute w source)
  rw [loadAfter, RunM.exec_bind]
  rcases hex : (teardownEnvironment w.teardown).exec s with ⟨_ | _, s₁⟩
  · rw [hex] at hdown
    exact .inl hdown
  · refine .inr ?_
    dsimp only
    rw [RunM.exec_bind, exec_update]
    exact (hrest _).trans (hf s₁.runner)

end ScriptRunner

theorem LoadAction.run_path (a : LoadAction) (w : LoadWorld) (s : RunnerState) :
    ((a.run w).exec s).2.runner.scriptPath = s.runner.scriptPath ∨
      ((a.run w).exec s).2.runner.scriptPath = a.newPath w s.runner := by
  cases ht : a.touches w s.runner with
  | false =>
    obtain ⟨e, he, -⟩ := LoadAction.run_untouched ht
    rw [he]
    exact .inl rfl
  | true =>
    obtain ⟨chdir, source, -, hafter⟩ := LoadAction.run_after ht
    rw [hafter]
    refine ScriptRunner.loadAfter_path ?_ w source s
    exact fun _ => rfl

/-! ## The sources executed over one step -/

namespace ScriptRunner

open RunM (Leaves)

theorem evaluations_snoc {c : VsCall} (hc : c.evaluated = none) (s : RunnerState) :
    ({ s with calls := s.calls ++ [c] } : RunnerState).evaluations = s.evaluations := by
  simp only [RunnerState.evaluations, List.filterMap_append, List.filterMap_cons, hc, List.filterMap_nil, List.append_nil]

theorem leaves_evaluations_outside {c : VsCall} (hc : c.evaluated = none) (raises : Option PyExc) :
    Leaves RunnerState.evaluations (outside c raises) :=
  .outside raises (evaluations_snoc hc)

theorem leaves_evaluations_disposeEnvironment (w : TeardownWorld) : Leaves RunnerState.evaluations (disposeEnvironment w) := by
  intro s
  obtain hex | ⟨env, -, -, hex | ⟨e, hex⟩⟩ := disposeEnvironment_cases w s
  · rw [hex]
    rfl
  · rw [hex]
    exact evaluations_snoc (c := .disposeEnvironment env.id) rfl s
  · rw [hex]
    exact evaluations_snoc (c := .disposeEnvironment env.id) rfl s

theorem leaves_evaluations_teardown (w : TeardownWorld) : Leaves RunnerState.evaluations (teardownEnvironment w) := by
  refine .bind (.modify (fun _ => rfl)) (fun _ => .bind (.bind .get (fun st => ?_)) (fun _ => ?_))
  · cases st.runner.script with
    | none => exact .pure _
    | some script => exact .bind (leaves_evaluations_outside rfl _) (fun _ => .update (fun _ => rfl))
  · exact leaves_evaluations_disposeEnvironment w

theorem leaves_evaluations_close (w : TeardownWorld) (isRegistered : Bool) (unregister : Option PyExc) :
    Leaves RunnerState.evaluations (close w isRegistered unregister) := by
  refine .bind (leaves_evaluations_teardown w) (fun _ => .bind .get (fun st => ?_))
  dsimp only
  split
  · have hclear : Leaves RunnerState.evaluations (update (fun r => { r with policy := none, registeredPolicy := false })) :=
      .update (fun _ => rfl)
    refine .ite (fun _ => ?_) (fun _ => .pure ())
    exact .ite (fun _ => .bind (leaves_evaluations_outside rfl _) (fun _ => hclear)) (fun _ => hclear)
  · exact .pure ()

theorem evaluations_execute (w : LoadWorld) (source : ScriptSource) (s : RunnerState) :
    ((execute w source).exec s).2.evaluations = s.evaluations ++ [source] := by
  have hrest : Leaves RunnerState.evaluations (do
      update (fun r => { r with startupEvents := appendEvents r.startupEvents w.events })
      let script ← ofExcept w.script
      update (fun r => { r with script := some script, environment := some script.environment })
      modify (fun s => { s with
        outputMetadata := w.metadata.foldl (fun d kv => d.set kv.1 kv.2) s.outputMetadata })
      raiseIf w.result
      extractOutputs w : RunM (List OutputItem)) := by
    refine .bind (.update (fun s => by simp only [RunnerState.evaluations])) (fun _ => .bind (.ofExcept _) (fun script => ?_))
    refine .bind (.update (fun _ => rfl)) (fun _ => .bind (.modify (fun _ => rfl)) (fun _ => ?_))
    exact .bind (.raiseIf _) (fun _ => leaves_extractOutputs w (fun _ _ _ _ => rfl))
  rw [execute, RunM.exec_bind, exec_outside]
  refine (hrest { s with calls := s.calls ++ [.evaluate source] }).trans ?_
  rw [RunnerState.evaluations, List.filterMap_append]
  rfl

/-- A load past its preconditions executes its source, unless the teardown or the
registration of a policy raises. -/
theorem loadAfter_evaluations (w : LoadWorld) (f : ScriptRunner → ScriptRunner) (source : ScriptSource) (s : RunnerState) :
    ((loadAfter w f source).exec s).2.evaluations = s.evaluations ∨
      ((loadAfter w f source).exec s).2.evaluations = s.evaluations ++ [source] := by
  have hdown := leaves_evaluations_teardown w.teardown s
  have hpolicy := leaves_ensurePolicy w (f := RunnerState.evaluations) (fun _ _ _ => rfl)
    (fun s id => evaluations_snoc (c := .registerPolicy id) rfl s)
  rw [loadAfter, RunM.exec_bind]
  rcases hex : (teardownEnvironment w.teardown).exec s with ⟨_ | _, s₁⟩
  · rw [hex] at hdown
    exact .inl hdown
  rw [hex] at hdown
  dsimp only
  rw [RunM.exec_bind, exec_update]
  dsimp only
  have hkeep := hpolicy { s₁ with runner := f s₁.runner }
  rw [RunM.exec_bind]
  rcases hex₂ : (ensurePolicy w none).exec { s₁ with runner := f s₁.runner } with ⟨_ | _, s₂⟩
  · rw [hex₂] at hkeep
    exact .inl (hkeep.trans hdown)
  · rw [hex₂] at hkeep
    have hsame : s₂.evaluations = s.evaluations := hkeep.trans hdown
    exact .inr (hsame ▸ evaluations_execute w source s₂)

end ScriptRunner

theorem LoadAction.run_evaluations (a : LoadAction) (w : LoadWorld) (s : RunnerState) :
    ((a.run w).exec s).2.evaluations = s.evaluations ∨ ∃ source, a.source w s.runner = some source ∧
      ((a.run w).exec s).2.evaluations = s.evaluations ++ [source] := by
  cases ht : a.touches w s.runner with
  | false =>
    obtain ⟨e, he, -⟩ := LoadAction.run_untouched ht
    rw [he]
    exact .inl rfl
  | true =>
    obtain ⟨chdir, source, hsource, hafter⟩ := LoadAction.run_after ht
    rw [hafter]
    refine (ScriptRunner.loadAfter_evaluations w _ source s).imp id (fun hnew => ⟨source, hsource, hnew⟩)

/-! ## Who asked for the loads -/

/-- Every load is for a request that was accepted and grants it. -/
def grantMonitor (d : Daemon) (msg : Option (List Bytes)) : Coro.Monitor srvSig Unit where
  pre
    | _, .runInExecutor (.load a) => ∃ m req, msg = some m ∧ PassesCheck d m req ∧ d.Grants req.command a
    | _, _ => True
  allows _ _ _ := True
  next _ _ _ := ()

section

variable (d : Daemon)

theorem quietOnPlain_grant (msg : Option (List Bytes)) : QuietOnPlain (grantMonitor d msg) () := by
  intro o ho
  cases o with
  | runInExecutor job => cases ho
  | _ => exact ⟨trivial, fun _ _ => rfl⟩

theorem quietOnClips_grant (msg : Option (List Bytes)) : QuietOnClips (grantMonitor d msg) () :=
  ⟨fun _ => ⟨trivial, fun _ _ => rfl⟩, fun _ _ _ => ⟨trivial, fun _ _ => rfl⟩⟩

theorem grant_handleRequest (msg : List Bytes) : Keeps (grantMonitor d (some msg)) () (handleRequest d msg) := by
  have hq := quietOnPlain_grant d (some msg)
  have hc := quietOnClips_grant d (some msg)
  refine keeps_handleRequest d hq msg (fun req => keeps_handleGetFrame d req hq.served hq.frames hc ?_) ?_
  · intro frameReq clip renderStart
    refine keeps_renderAndSend d req hq.served hc frameReq clip renderStart ?_
    refine .bind ⟨trivial, fun _ _ => rfl⟩ (fun frame => .tryFinally ?_ ⟨trivial, fun _ _ => rfl⟩)
    exact keeps_sendFrame d req hq.served frameReq frame renderStart hq.frames ⟨trivial, fun _ _ => rfl⟩
  · intro req hpass _ α _ typeName action hgrants
    exact keeps_dispatchExecutor d req hq.served α typeName action
      (fun p => ⟨⟨msg, req, rfl, hpass, hgrants p⟩, fun _ _ => rfl⟩) ⟨trivial, fun _ _ => rfl⟩

end

theorem Task.Handles.granted {d : Daemon} {task : Task} {a : LoadAction}
    {k : SrvOp.Res (.runInExecutor (.load a)) → HandlerProg} (hh : task.Handles d)
    (hp : task.prog = .call (.runInExecutor (.load a)) k) :
    ∃ msg req, task.msg = some msg ∧ PassesCheck d msg req ∧ d.Grants req.command a := by
  have hwp := hh.wp_log (M := grantMonitor d task.msg) (g := ()) (fun _ _ _ => trivial)
    (fun msg hmsg => hmsg ▸ grant_handleRequest d msg)
    (fun _ payload subscribers => keeps_sendAll (quietOnPlain_grant d task.msg).served payload subscribers)
  rw [hp] at hwp
  exact hwp.1

namespace Sys

variable {d : Daemon} {h : Host} {s s' : Sys} {l : Label}

/-- The task handles a request that grants the load. -/
def Granted (d : Daemon) (s : Sys) (t : Nat) (a : LoadAction) : Prop :=
  ∃ task msg req, s.tasks[t]? = some task ∧ task.msg = some msg ∧ PassesCheck d msg req ∧
    d.Grants req.command a

theorem Granted.step {t : Nat} {a : LoadAction} (hg : s.Granted d t a) (hs : step d h l s = some s') :
    s'.Granted d t a := by
  obtain ⟨task, msg, req, ht, hmsg, hpass, hgrants⟩ := hg
  obtain ⟨task', ht', hstep⟩ := step_task hs ht
  exact ⟨task', msg, req, ht', hstep.msg_eq.trans hmsg, hpass, hgrants⟩

/-- The script path is a resolved one, or there is none, and every load job was
submitted for a request that grants it. -/
structure Gated (Resolved : String → Prop) (d : Daemon) (s : Sys) : Prop where
  resolved : ∀ path, s.srv.runner.runner.scriptPath = some path → Resolved path
  granted : ∀ (j : Nat) (pj : PoolJob) (a : LoadAction), s.jobs[j]? = some pj → pj.job = .load a →
    s.Granted d pj.owner a

/-- Only a load changes the script path, to the one it stores. -/
theorem step_path (hs : step d h l s = some s') :
    s'.srv.runner.runner.scriptPath = s.srv.runner.runner.scriptPath ∨
      ∃ a w t, s.loadOf l = some (a, w, t) ∧
        s'.srv.runner.runner.scriptPath = a.newPath w s.srv.runner.runner := by
  cases step_runnerStep hs with
  | same _ hr => exact .inl (congrArg (fun r => r.runner.scriptPath) hr)
  | @load j w a t hl hr =>
    rcases a.run_path w s.srv.runner with hsame | hnew
    · exact .inl (hr ▸ hsame)
    · exact .inr ⟨a, w, t, hl, hr ▸ hnew⟩
  | teardown hr => exact .inl (hr ▸ ScriptRunner.leaves_path_teardown _ s.srv.runner)
  | close hr => exact .inl (hr ▸ ScriptRunner.leaves_path_close _ _ s.srv.runner)

/-- Only a load has anything executed, and that is what it is of. -/
theorem step_evaluations (hs : step d h l s = some s') :
    s'.srv.runner.evaluations = s.srv.runner.evaluations ∨
      ∃ source, s.loadSource l = some source ∧ s'.srv.runner.evaluations = s.srv.runner.evaluations ++ [source] := by
  cases step_runnerStep hs with
  | same _ hr => exact .inl (congrArg RunnerState.evaluations hr)
  | @load j w a t hl hr =>
    rw [hr]
    refine (a.run_evaluations w s.srv.runner).imp id ?_
    rintro ⟨source, hsource, hnew⟩
    exact ⟨source, by rw [loadSource, hl, Option.bind_some, hsource], hnew⟩
  | teardown hr => exact .inl (hr ▸ ScriptRunner.leaves_evaluations_teardown _ s.srv.runner)
  | close hr => exact .inl (hr ▸ ScriptRunner.leaves_evaluations_close _ _ _ s.srv.runner)

theorem mem_evaluatedSince {source : ScriptSource} (hs : step d h l s = some s') (hmem : source ∈ s.evaluatedSince s') :
    s.loadSource l = some source := by
  unfold evaluatedSince at hmem
  rcases step_evaluations hs with hsame | ⟨source', hsource, hnew⟩
  · rw [hsame, List.drop_length] at hmem
    cases hmem
  · rw [hnew, List.drop_left, List.mem_singleton] at hmem
    exact hmem ▸ hsource

variable {Resolved : String → Prop}

theorem Gated.step (hi : Gated Resolved d s) (hh : s.Handled d)
    (hw : ∀ j w, l = .jobRun j (.load w) → Resolves Resolved w) (hs : step d h l s = some s') :
    Gated Resolved d s' := by
  refine ⟨fun path hpath => ?_, fun j pj a hj hload => ?_⟩
  · rcases step_path hs with hsame | ⟨a, w, t, hl, hnew⟩
    · exact hi.resolved path (hsame ▸ hpath)
    · obtain ⟨j, rfl, -⟩ := loadOf_eq_some hl
      have hres := (hw j w rfl).resolved
      rw [hnew] at hpath
      cases a with
      | reload p =>
        obtain ⟨path', -, rfl⟩ := Option.map_eq_some_iff.1 hpath
        exact hres path'
      | loadCode p => cases hpath
      | loadScript p => exact Option.some.inj hpath ▸ hres p.scriptPath
  · rcases step_jobs hs hj with ⟨pj₀, hj₀, hjob⟩ | ⟨-, -, -, task, k, ht, hp, -⟩
    · obtain ⟨hsame, howner⟩ := hjob.same
      rw [howner]
      exact (hi.granted j pj₀ a hj₀ (hsame ▸ hload)).step hs
    · obtain ⟨job, owner, status⟩ := pj
      obtain rfl : job = .load a := hload
      obtain ⟨msg, req, hmsg, hpass, hgrants⟩ := (hh owner task ht).granted hp
      have hg : s.Granted d owner a := ⟨task, msg, req, ht, hmsg, hpass, hgrants⟩
      exact hg.step hs

/-- A reload evaluates the file at the script path and leaves the path alone. -/
theorem Gated.reload_source (hi : Gated Resolved d s) {w : LoadWorld} (hw : Resolves Resolved w) (p : ReloadRequest) :
    (LoadAction.reload p).source w s.srv.runner.runner = s.srv.runner.runner.scriptPath.map .file ∧
      (LoadAction.reload p).newPath w s.srv.runner.runner = s.srv.runner.runner.scriptPath := by
  cases hpath : s.srv.runner.runner.scriptPath with
  | none => simp only [LoadAction.source, LoadAction.newPath, hpath, Option.map_none, and_self]
  | some path =>
    have hfixed := hw.fixed path (hi.resolved path hpath)
    simp only [LoadAction.source, LoadAction.newPath, hpath, Option.map_some, hfixed, and_self]

/-- What the step runs is a reload, or a request for it passed the check. -/
theorem Gated.load_cases (hi : Gated Resolved d s) {a : LoadAction} {w : LoadWorld} {t : Nat}
    (hl : s.loadOf l = some (a, w, t)) : (∃ p, a = .reload p) ∨ (d.allowEval = true ∧ EvalAsked d s l) := by
  obtain ⟨j, rfl, hj⟩ := loadOf_eq_some hl
  obtain ⟨task, msg, req, ht, hmsg, hpass, hcmd, hallow⟩ := hi.granted j _ a hj rfl
  cases a with
  | reload p => exact .inl ⟨p, rfl⟩
  | loadCode p =>
    have heval : d.allowEval = true := hallow.resolve_left (fun hr => by rw [hr] at hcmd; cases hcmd)
    exact .inr ⟨heval, _, w, t, task, msg, req, hl, ht, hmsg, hpass, hcmd, .inl hcmd⟩
  | loadScript p =>
    have heval : d.allowEval = true := hallow.resolve_left (fun hr => by rw [hr] at hcmd; cases hcmd)
    exact .inr ⟨heval, _, w, t, task, msg, req, hl, ht, hmsg, hpass, hcmd, .inr hcmd⟩

theorem Gated.asked (hi : Gated Resolved d s) (hw : ∀ j w, l = .jobRun j (.load w) → Resolves Resolved w)
    (hs : Sys.step d h l s = some s') (hc : ChangesCode s l s') : EvalAsked d s l := by
  by_contra hno
  have hreload : ∀ a w t, s.loadOf l = some (a, w, t) → ∃ p, a = .reload p ∧ Resolves Resolved w := by
    intro a w t hl
    obtain ⟨j, rfl, -⟩ := loadOf_eq_some hl
    rcases hi.load_cases hl with ⟨p, rfl⟩ | ⟨-, hasked⟩
    · exact ⟨p, rfl, hw j w rfl⟩
    · exact absurd hasked hno
  have hloads : ∀ source, s.loadSource l = some source → s.srv.runner.runner.scriptPath.map .file = some source := by
    intro source hsource
    obtain ⟨⟨a, w, t⟩, hl, hsrc⟩ := Option.bind_eq_some_iff.1 hsource
    obtain ⟨p, rfl, hres⟩ := hreload a w t hl
    exact (hi.reload_source hres p).1.symm.trans hsrc
  rcases hc with hpath | hcode | ⟨source, hsource, hne⟩ | ⟨source, hmem, hne⟩
  · rcases step_path hs with hsame | ⟨a, w, t, hl, hnew⟩
    · exact hpath hsame
    · obtain ⟨p, rfl, hres⟩ := hreload a w t hl
      exact hpath (hnew.trans (hi.reload_source hres p).2)
  · simp only [callsLoadCode] at hcode
    split at hcode
    · next p load hl =>
      obtain ⟨p', hp', -⟩ := hreload _ _ _ hl
      cases hp'
    · cases hcode
  · exact hne (hloads source hsource)
  · exact hne (hloads source (mem_evaluatedSince hs hmem))

section

variable (hi : Gated Resolved d s) (hw : ∀ j w, l = .jobRun j (.load w) → Resolves Resolved w)
  (heval : d.allowEval = false)

include hi hw heval

theorem Gated.only_reload {a : LoadAction} {w : LoadWorld} {t : Nat} (hl : s.loadOf l = some (a, w, t)) :
    ∃ p, a = .reload p ∧ Resolves Resolved w := by
  obtain ⟨j, rfl, -⟩ := loadOf_eq_some hl
  rcases hi.load_cases hl with ⟨p, rfl⟩ | ⟨htrue, -⟩
  · exact ⟨p, rfl, hw j w rfl⟩
  · rw [heval] at htrue
    cases htrue

theorem Gated.pinned : Pinned d h s.srv.runner.runner.scriptPath s l := by
  have hloads : ∀ source, s.loadSource l = some source →
      ∃ path, s.srv.runner.runner.scriptPath = some path ∧ source = .file path := by
    intro source hsource
    obtain ⟨⟨a, w, t⟩, hl, hsrc⟩ := Option.bind_eq_some_iff.1 hsource
    obtain ⟨p, rfl, hres⟩ := hi.only_reload hw heval hl
    have hfile := (hi.reload_source hres p).1.symm.trans hsrc
    obtain ⟨path, hpath, rfl⟩ := Option.map_eq_some_iff.1 hfile
    exact ⟨path, hpath, rfl⟩
  refine ⟨rfl, ?_, hloads, fun s' hs source hmem => hloads source (mem_evaluatedSince hs hmem)⟩
  · simp only [callsLoadCode]
    split
    · next p load hl =>
      obtain ⟨p', hp', -⟩ := hi.only_reload hw heval hl
      cases hp'
    · rfl

theorem Gated.path_step (hs : Sys.step d h l s = some s') :
    s'.srv.runner.runner.scriptPath = s.srv.runner.runner.scriptPath := by
  rcases step_path hs with hsame | ⟨a, w, t, hl, hnew⟩
  · exact hsame
  · obtain ⟨p, rfl, hres⟩ := hi.only_reload hw heval hl
    exact hnew.trans (hi.reload_source hres p).2

end

end Sys

section

variable {d : Daemon} {h : Host} {runner : RunnerState} {metrics : ServerMetricsCollector} {ls : List Label}

/-- Without `allow_eval` the script path stays what it was at the start, and
every step keeps to the file there; in general only LOAD_CODE and LOAD_SCRIPT
messages that passed the token check change what code the server runs. -/
theorem eval_gate (Resolved : String → Prop)
    (hstart : ∀ path, runner.runner.scriptPath = some path → Resolved path)
    (hres : ∀ j w, Label.jobRun j (.load w) ∈ ls → Resolves Resolved w) :
    (d.allowEval = false →
      Runs.Always (Sys.step d h) (fun s => s.srv.runner.runner.scriptPath = runner.runner.scriptPath) ls
        (Sys.init runner metrics) ∧
      Runs.Guarded (Sys.step d h) (Pinned d h runner.runner.scriptPath) ls (Sys.init runner metrics)) ∧
    Runs.Guarded (Sys.step d h)
      (fun s l => ∀ s', Sys.step d h l s = some s' → ChangesCode s l s' → EvalAsked d s l) ls
      (Sys.init runner metrics) := by
  have hworlds : Runs.Guarded (Sys.step d h)
      (fun _ l => ∀ j w, l = .jobRun j (.load w) → Resolves Resolved w) ls (Sys.init runner metrics) :=
    .of_mem (fun l hl _ j w he => hres j w (he ▸ hl))
  have hinit : (Sys.init runner metrics).Handled d ∧ Sys.Gated Resolved d (Sys.init runner metrics) := by
    refine ⟨fun i task ht => ?_, hstart, fun j pj a hj => ?_⟩
    · cases ht
    · cases hj
  refine ⟨fun heval => ?_, ?_⟩
  · let I : Sys → Prop := fun s => (s.Handled d ∧ s.Gated Resolved d) ∧
      s.srv.runner.runner.scriptPath = runner.runner.scriptPath
    have hstep : ∀ s l t, I s → (∀ j w, l = .jobRun j (.load w) → Resolves Resolved w) →
        Sys.step d h l s = some t → I t := by
      rintro s l t ⟨⟨hh, hg⟩, hpath⟩ hw hs
      exact ⟨⟨hh.step hs, hg.step hh hw hs⟩, (hg.path_step hw heval hs).trans hpath⟩
    refine ⟨(hworlds.always hstep ⟨hinit, rfl⟩).mono (fun s hi => hi.2), ?_⟩
    refine hworlds.mono hstep (fun s l hi hw => ?_) ⟨hinit, rfl⟩
    exact hi.2 ▸ hi.1.2.pinned hw heval
  · refine hworlds.mono (I := fun s => s.Handled d ∧ s.Gated Resolved d) ?_ ?_ hinit
    · exact fun s l t hi hw hs => ⟨hi.1.step hs, hi.2.step hi.1 hw hs⟩
    · exact fun s l hi hw s' hs hc => hi.2.asked hw hs hc

end

/-- The script is looked up at its absolute path from the start. -/
def LoadWorld.absolute : LoadWorld :=
  { LoadWorld.oneClip with resolve := fun path => if path = "clip.vpy" then "/srv/clip.vpy" else path }

def absoluteRunner : RunnerState := ⟨{ scriptPath := some "/srv/clip.vpy" }, .empty, []⟩

/-- A reload, and a LOAD_CODE that is refused. -/
def evalLabels : List Label :=
  reloadLabels 0 1 ++ [.jobStart 0, .jobRun 0 (.load .absolute), .resume 0] ++
  [.recv [[2], [0, 0, 0, 5], [9], [0x80]], .sync 1 .ok, .sync 1 .ok, .sync 1 (.time 0), .put 1 none, .resume 1,
    .sync 1 (.time 0), .sync 1 .ok]

theorem eval_gate_reload :
    (Runs.run (Sys.step emptyMapDaemon Host.plain) evalLabels (Sys.init absoluteRunner { startTime := 0 })).map
        (fun s => (s.srv.runner.evaluations, s.tasks.map Task.finished)) =
        some ([.file "/srv/clip.vpy"], [false, true]) ∧
      Runs.Guarded (Sys.step emptyMapDaemon Host.plain) (Pinned emptyMapDaemon Host.plain (some "/srv/clip.vpy")) evalLabels
        (Sys.init absoluteRunner { startTime := 0 }) := by
  have hclip : "/srv/clip.vpy" ≠ "clip.vpy" := by decide
  have hstart : ∀ path, absoluteRunner.runner.scriptPath = some path → path ≠ "clip.vpy" := by
    rintro path ⟨⟩
    exact hclip
  have hres : ∀ j w, Label.jobRun j (.load w) ∈ evalLabels → Resolves (fun path => path ≠ "clip.vpy") w := by
    intro j w hl
    simp only [evalLabels, reloadLabels, List.mem_append, List.mem_cons, List.not_mem_nil, or_false,
      reduceCtorEq, false_or, Label.jobRun.injEq, JobWorld.load.injEq] at hl
    obtain ⟨rfl, rfl⟩ := hl
    refine ⟨fun path => ?_, fun path hpath => if_neg hpath⟩
    simp only [LoadWorld.absolute]
    split
    · exact hclip
    · assumption
  exact ⟨by decide +kernel, ((eval_gate (fun path => path ≠ "clip.vpy") hstart hres).1 rfl).2⟩

end VsRemote
