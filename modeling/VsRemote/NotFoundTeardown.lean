import VsRemote.HandlerRules
import VsRemote.RunnerSpec
import VsRemote.Server

/-! What a load request that fails its precondition does to the runner. The
handler is followed alone, with the runner it acts on as ghost state. -/

namespace VsRemote

open Coro (Follows)
open Handler

/-- The runner and the messages the socket accepted. -/
structure Solo where
  runner : RunnerState
  sent : List (List Bytes) := []

def Solo.next (lw : LoadWorld) (tw : TeardownWorld) (g : Solo) : (o : SrvOp) → o.Res → Solo
  | .runInExecutor (.load a), _ => { g with runner := ((a.run lw).exec g.runner).2 }
  | .runInExecutor .teardown, _ =>
    { g with runner := ((ScriptRunner.teardownEnvironment tw).exec g.runner).2 }
  | .send _ parts, .ok _ => { g with sent := g.sent ++ [parts] }
  | _, _ => g

/-- The pool answers what the runner returns. -/
def Solo.allows (lw : LoadWorld) (tw : TeardownWorld) (g : Solo) : (o : SrvOp) → o.Res → Prop
  | .runInExecutor (.load a), r => r = raised ((a.run lw).exec g.runner).1
  | .runInExecutor .teardown, r =>
    r = raised ((ScriptRunner.teardownEnvironment tw).exec g.runner).1
  | _, _ => True

def soloMonitor (lw : LoadWorld) (tw : TeardownWorld) : Coro.Monitor srvSig Solo where
  pre _ _ := True
  allows := Solo.allows lw tw
  next := Solo.next lw tw

def Solo.NotFound (req : RequestEnvelope) (g : Solo) : Prop :=
  ∃ rest, req.identity :: req.reqIdBytes :: [StatusCode.notFound.byte] :: rest ∈ g.sent

/-- Nothing a load or a query can see has changed, and what was served still is. -/
structure LeftAsItWas (before after : ScriptRunner) : Prop where
  clips : after.clips = before.clips
  clipInfos : after.clipInfos = before.clipInfos
  outputItems : after.outputItems = before.outputItems
  startupEvents : after.startupEvents = before.startupEvents
  script : after.script = before.script
  environment : after.environment = before.environment
  scriptPath : after.scriptPath = before.scriptPath
  served : ∀ q : RunnerQuery, q.answered before = true → q.answer after = q.answer before

/-- A runner that holds nothing a teardown could clear. -/
structure HoldsNothing (r : ScriptRunner) : Prop where
  clips : r.clips = .empty
  clipInfos : r.clipInfos = .empty
  outputItems : r.outputItems = []
  startupEvents : r.startupEvents = []
  script : r.script = none
  environment : r.environment = none

theorem leftAsItWas_tornDown_iff (r : ScriptRunner) :
    LeftAsItWas r (ScriptRunner.tornDown r) ↔ HoldsNothing r := by
  constructor
  · intro h
    exact ⟨h.clips.symm, h.clipInfos.symm, h.outputItems.symm, h.startupEvents.symm, h.script.symm,
      h.environment.symm⟩
  · intro h
    have hsame : ScriptRunner.tornDown r = r := by
      cases r
      cases h
      simp_all [ScriptRunner.tornDown]
    rw [hsame]
    exact ⟨rfl, rfl, rfl, rfl, rfl, rfl, rfl, fun _ _ => rfl⟩

/-- The load a request asks for, once its command is allowed and its payload decodes. -/
def loadActionOf (d : Daemon) (req : RequestEnvelope) : Option LoadAction :=
  match req.command with
  | .reload => (unpackPayload d.msgspec ReloadRequest req.payloadBytes).toOption.map .reload
  | .loadCode => if d.allowEval then
      (unpackPayload d.msgspec LoadCodeRequest req.payloadBytes).toOption.map .loadCode else none
  | .loadScript => if d.allowEval then
      (unpackPayload d.msgspec LoadScriptRequest req.payloadBytes).toOption.map .loadScript else none
  | _ => none

section

variable {d : Daemon} {req : RequestEnvelope} {lw : LoadWorld} {tw : TeardownWorld} {s : RunnerState}

theorem solo_send {parts : List Bytes} {Q : Except Raised Unit → Solo → Prop} {g : Solo}
    (hok : Q (.ok ()) { g with sent := g.sent ++ [parts] }) (herr : ∀ e, Q (.error e) g) :
    (soloMonitor lw tw).step (.send .reply parts) Q g := by
  refine ⟨trivial, fun r _ => ?_⟩
  cases r with
  | ok _ => exact hok
  | error e => exact herr e

theorem wp_dispatchExecutor_untouched {α : Type} [Packed α] (typeName : String) (action : α → LoadAction)
    {payload : α} (hp : unpackPayload d.msgspec α req.payloadBytes = .ok payload)
    (ht : (action payload).touches lw s.runner = false) :
    (dispatchExecutor d req α typeName action).run.wp (soloMonitor lw tw)
      (fun _ g => g.NotFound req → g.runner.runner = ScriptRunner.tornDown s.runner) ⟨s, []⟩ := by
  obtain ⟨e, hex, hnf⟩ := LoadAction.run_untouched ht
  unfold dispatchExecutor
  simp only [hp, Coro.wp_run_bind, wp_tryExcept, wp_runLoad]
  refine ⟨trivial, ?_⟩
  rintro r (rfl : r = _)
  simp only [hex, raised]
  have hnext : (soloMonitor lw tw).next ⟨s, []⟩ (.runInExecutor (.load (action payload)))
      (.error (.exc e)) = ⟨s, []⟩ := by
    simp only [soloMonitor, Solo.next, hex]
  rw [hnext]
  simp only [Coro.wp_run_pure, Coro.wp_run_bind, wp_traceback, wp_runTeardown]
  refine ⟨trivial, fun tb _ => ⟨trivial, ?_⟩⟩
  have htrace : (soloMonitor lw tw).next ⟨s, []⟩ (.traceback (origError e)) tb = ⟨s, []⟩ := rfl
  rintro r (rfl : r = _)
  rw [htrace]
  rcases hr : (ScriptRunner.teardownEnvironment tw).exec s with ⟨_ | _, s'⟩
  · simp only [raised]
    have hnext' : ∀ e', (soloMonitor lw tw).next ⟨s, []⟩ (.runInExecutor .teardown) (.error e') = ⟨s', []⟩ := by
      intro e'
      simp only [soloMonitor, Solo.next, hr]
    rw [hnext']
    rintro ⟨rest, hmem⟩
    cases hmem
  · have hdown := ScriptRunner.teardown_ok hr
    have hnext' : (soloMonitor lw tw).next ⟨s, []⟩ (.runInExecutor .teardown) (.ok ()) = ⟨s', []⟩ := by
      simp only [soloMonitor, Solo.next, hr]
    have hsent : ∀ payload : RemoteErrorPayload,
        (sendError d req .notFound payload).run.wp (soloMonitor lw tw)
          (fun _ g => g.NotFound req → g.runner.runner = ScriptRunner.tornDown s.runner) ⟨s', []⟩ := by
      intro payload
      simp only [sendError, Coro.wp_run_bind, wp_ofExcept, wp_sendMultipart]
      cases pack d.msgspec payload with
      | error e => exact fun _ => hdown
      | ok b => exact solo_send (fun _ => hdown) (fun _ _ => hdown)
    simp only [raised, hnf, if_true]
    exact hnext' ▸ hsent _

theorem wp_dispatchRequest_untouched {a : LoadAction} (hload : loadActionOf d req = some a)
    (ht : a.touches lw s.runner = false) :
    (dispatchRequest d req).run.wp (soloMonitor lw tw)
      (fun _ g => g.NotFound req → g.runner.runner = ScriptRunner.tornDown s.runner) ⟨s, []⟩ := by
  unfold loadActionOf at hload
  unfold dispatchRequest
  cases hc : req.command with
  | reload =>
    simp only [hc, Option.map_eq_some_iff] at hload
    obtain ⟨payload, hp, rfl⟩ := hload
    exact wp_dispatchExecutor_untouched _ _ (toOption_eq_some hp) ht
  | loadScript =>
    simp only [hc] at hload
    split at hload
    · next hallow =>
      obtain ⟨payload, hp, rfl⟩ := Option.map_eq_some_iff.1 hload
      simp only [hallow, if_true]
      exact wp_dispatchExecutor_untouched _ _ (toOption_eq_some hp) ht
    · cases hload
  | loadCode =>
    simp only [hc] at hload
    split at hload
    · obtain ⟨payload, hp, rfl⟩ := Option.map_eq_some_iff.1 hload
      cases ht
    · cases hload
  | _ => simp [hc] at hload

end

/-- A LOAD_SCRIPT or RELOAD request whose action fails its precondition, followed
to its NOT_FOUND reply, leaves the runner as it was exactly when the runner held
nothing to begin with. -/
theorem not_found_leaves_runner_iff {d : Daemon} {req : RequestEnvelope} {lw : LoadWorld}
    {tw : TeardownWorld} {s : RunnerState} {a : LoadAction} (hload : loadActionOf d req = some a)
    (ht : a.touches lw s.runner = false) {tr : List (Coro.Event srvSig)} {r : Except Raised Unit}
    (hf : Follows (dispatchRequest d req).run tr (.pure r))
    (ha : (soloMonitor lw tw).Allows ⟨s, []⟩ tr)
    (hn : ((soloMonitor lw tw).run ⟨s, []⟩ tr).NotFound req) :
    LeftAsItWas s.runner ((soloMonitor lw tw).run ⟨s, []⟩ tr).runner.runner ↔ HoldsNothing s.runner := by
  have hdown := Coro.wp_follows_pure _ (wp_dispatchRequest_untouched hload ht) hf ha hn
  rw [hdown]
  exact leftAsItWas_tornDown_iff s.runner

def codeRunner : RunnerState :=
  ((ScriptRunner.loadCode (.finds (OrderedDict.empty.set 0 (.video (.gray8 1 2 2)))) "" none).exec
    ⟨{}, .empty, []⟩).2

def reloadRequest : RequestEnvelope := ⟨[7], [0, 0, 0, 5], 5, .reload, [], none, []⟩

def emptyMapDaemon : Daemon := { msgspec := .table [([0x80], .map [])] [0x80] }

def noScriptFile : PyExc :=
  .ofText .scriptNotLoadedError "No script file is associated with this ScriptRunner instance"

/-- The reload fails, the runner is torn down, NOT_FOUND is sent. -/
def reloadTrace : List (Coro.Event srvSig) :=
  [⟨.runInExecutor (.load (.reload ⟨true⟩)), .error (.exc noScriptFile)⟩,
    ⟨.traceback noScriptFile.error, ⟨[], ""⟩⟩,
    ⟨.runInExecutor .teardown, .ok ()⟩,
    ⟨.send .reply [[7], [0, 0, 0, 5], [2], [0x80]], .ok ()⟩]

theorem reloadTrace_follows :
    Follows (dispatchRequest emptyMapDaemon reloadRequest).run reloadTrace (.pure (.ok ())) :=
  .cons _ (.cons _ (.cons _ (.cons _ (.nil _))))

theorem reloadTrace_allows (lw : LoadWorld) :
    (soloMonitor lw {}).Allows ⟨codeRunner, []⟩ reloadTrace :=
  ⟨rfl, trivial, rfl, trivial, trivial⟩

/-- RELOAD of a code string: there is no script file, the answer is NOT_FOUND
and the outputs are gone. -/
theorem reload_of_code_loses_outputs :
    loadActionOf emptyMapDaemon reloadRequest = some (.reload ⟨true⟩) ∧
    LoadAction.touches (.finds .empty) codeRunner.runner (.reload ⟨true⟩) = false ∧
    Follows (dispatchRequest emptyMapDaemon reloadRequest).run reloadTrace (.pure (.ok ())) ∧
    (soloMonitor (.finds .empty) {}).Allows ⟨codeRunner, []⟩ reloadTrace ∧
    ((soloMonitor (.finds .empty) {}).run ⟨codeRunner, []⟩ reloadTrace).NotFound reloadRequest ∧
    ¬ LeftAsItWas codeRunner.runner
      ((soloMonitor (.finds .empty) {}).run ⟨codeRunner, []⟩ reloadTrace).runner.runner := by
  refine ⟨rfl, rfl, reloadTrace_follows, reloadTrace_allows _, ⟨_, List.mem_singleton.2 rfl⟩, ?_⟩
  intro h
  have hlen : (0 : Nat) = 1 := congrArg (fun c => c.entries.length) h.clips
  cases hlen

theorem reload_of_nothing_leaves_runner :
    LeftAsItWas {} ((soloMonitor (.finds .empty) {}).run ⟨⟨{}, .empty, []⟩, []⟩ reloadTrace).runner.runner :=
  (not_found_leaves_runner_iff (d := emptyMapDaemon) (s := ⟨{}, .empty, []⟩) (a := .reload ⟨true⟩)
    rfl rfl reloadTrace_follows ⟨rfl, trivial, rfl, trivial, trivial⟩ ⟨_, List.mem_singleton.2 rfl⟩).2
    ⟨rfl, rfl, rfl, rfl, rfl, rfl⟩

end VsRemote
