import VsRemote.Messages
import VsRemote.Lib.OrderedDict

/-! `ScriptRunner`. Each method runs under the runner's lock, so it is one
atomic step; what VapourSynth, vsengine and the file system answer during it
is an argument. -/

namespace VsRemote

structure Policy where
  id : Nat
  deriving DecidableEq, Repr

structure ScriptRunner where
  script : Option Script := none
  environment : Option Environment := none
  policy : Option Policy := none
  registeredPolicy : Bool := false
  scriptPath : Option String := none
  chdir : Bool := true
  clips : OrderedDict Int VideoNode := .empty
  clipInfos : OrderedDict Int ClipInfo := .empty
  outputItems : List OutputItem := []
  startupEvents : List StreamEvent := []

/-- What vsengine executes: a script file or code. -/
inductive ScriptSource where
  | file (path : String)
  | code (text : String)
  deriving DecidableEq, Repr

inductive VsCall where
  | evaluate (source : ScriptSource)
  | disposeScript (id : Nat)
  | disposeEnvironment (id : Nat)
  | registerPolicy (id : Nat)
  | unregisterPolicy (id : Nat)
  deriving DecidableEq, Repr

/-- The runner with the module-level `_output_metadata` and the calls of VapourSynth and
vsengine made so far. -/
structure RunnerState where
  runner : ScriptRunner
  outputMetadata : OrderedDict Int String := .empty
  calls : List VsCall := []

abbrev RunM := ExceptT PyExc (StateM RunnerState)

inductive EnvironmentArg where
  | policy (p : Policy)
  | environment (e : Environment)
  deriving DecidableEq, Repr

structure TeardownWorld where
  disposeScript : Option PyExc := none
  disposeEnvironment : Option PyExc := none

/-- Answers to the outside calls of one load: the events it captures, what
`load_script`/`load_code` of vsengine and `result()` end with, the names
`set_output` registers and what `vs.get_outputs()` returns. -/
structure LoadWorld where
  resolve : String → String
  isFile : String → Bool
  teardown : TeardownWorld
  hasPolicy : Bool
  newPolicy : Policy
  registerPolicy : Option PyExc
  events : List StreamEvent
  script : Except PyExc Script
  metadata : List (Int × String)
  result : Option PyExc
  outputs : Except PyExc (OrderedDict Int Output)

def LoadWorld.finds (outputs : OrderedDict Int Output) : LoadWorld where
  resolve := id
  isFile _ := false
  teardown := {}
  hasPolicy := true
  newPolicy := ⟨0⟩
  registerPolicy := none
  events := []
  script := .ok ⟨1, ⟨1, true⟩⟩
  metadata := []
  result := none
  outputs := .ok outputs

namespace ScriptRunner

def update (f : ScriptRunner → ScriptRunner) : RunM Unit :=
  modify (fun s => { s with runner := f s.runner })

def outside (c : VsCall) (raises : Option PyExc) : RunM Unit := do
  modify (fun s => { s with calls := s.calls ++ [c] })
  match raises with
  | some e => throw e
  | none => pure ()

def raiseIf : Option PyExc → RunM Unit
  | some e => throw e
  | none => pure ()

def ofExcept {α : Type} : Except PyExc α → RunM α
  | .error e => throw e
  | .ok a => pure a

/-- `teardown_environment()` up to the disposals: the stores are cleared. -/
def clearStores : RunM Unit :=
  modify (fun s => { s with
    runner := { s.runner with
      clips := .empty, clipInfos := .empty, outputItems := [], startupEvents := [] }
    outputMetadata := .empty })

def disposeScript (w : TeardownWorld) : RunM Unit := do
  match (← get).runner.script with
  | some script =>
    outside (.disposeScript script.id) w.disposeScript
    update (fun r => { r with script := none })
  | none => pure ()

def disposeEnvironment (w : TeardownWorld) : RunM Unit := do
  match (← get).runner.environment with
  | some env => if env.managed then outside (.disposeEnvironment env.id) w.disposeEnvironment else pure ()
  | none => pure ()
  update (fun r => { r with environment := none })

def teardownEnvironment (w : TeardownWorld) : RunM Unit := do
  clearStores
  disposeScript w
  disposeEnvironment w

def ensurePolicy (w : LoadWorld) (environment : Option EnvironmentArg) :
    RunM (Option EnvironmentArg) := do
  match environment with
  | some (.policy p) => update (fun r => { r with policy := some p })
  | _ => pure ()
  if environment.isSome then return environment
  match (← get).runner.policy with
  | some p => return some (.policy p)
  | none =>
    if w.hasPolicy then return none
    update (fun r => { r with policy := some w.newPolicy })
    outside (.registerPolicy w.newPolicy.id) w.registerPolicy
    update (fun r => { r with registeredPolicy := true })
    return some (.policy w.newPolicy)

/-- `deque(maxlen=1000).append`, once for every captured event. -/
def appendEvents (es es' : List StreamEvent) : List StreamEvent :=
  (es ++ es').drop ((es ++ es').length - 1000)

def outputName (metadata : OrderedDict Int String) (idx : Int) : String :=
  match metadata.get? idx with
  | some name => if name = "" then "Output " ++ toString idx else name
  | none => "Output " ++ toString idx

def register (idx : Int) (clip : VideoNode) (name : String) (info : ClipInfo) : RunM Unit :=
  update (fun r => { r with
    clips := r.clips.set idx clip
    clipInfos := r.clipInfos.set idx info
    outputItems := r.outputItems ++ [⟨idx, name, info⟩] })

/-- The loop of `_extract_outputs`: one output after the other is registered. -/
def registerOutputs : List (Int × Output) → RunM Unit
  | [] => pure ()
  | (_, .audio) :: rest => registerOutputs rest
  | (idx, .video clip) :: rest => do
    let name := outputName (← get).outputMetadata idx
    let info ← ofExcept (ClipInfo.fromClip clip name)
    register idx clip name info
    registerOutputs rest

def extractOutputs (w : LoadWorld) : RunM (List OutputItem) := do
  if (← get).runner.script.isNone then
    throw (.ofText .scriptNotLoadedError "Script doesn't exist")
  let outputs ← ofExcept w.outputs
  registerOutputs outputs.entries
  return (← get).runner.outputItems

/-- What `load_script` and `load_code` share: the capture of streams around
the execution of the source, then the outputs. -/
def execute (w : LoadWorld) (source : ScriptSource) : RunM (List OutputItem) := do
  outside (.evaluate source) none
  update (fun r => { r with startupEvents := appendEvents r.startupEvents w.events })
  let script ← ofExcept w.script
  update (fun r => { r with script := some script, environment := some script.environment })
  modify (fun s => { s with
    outputMetadata := w.metadata.foldl (fun d kv => d.set kv.1 kv.2) s.outputMetadata })
  raiseIf w.result
  extractOutputs w

def loadScript (w : LoadWorld) (scriptPath : String) (environment : Option EnvironmentArg)
    (chdir : Bool) : RunM (List OutputItem) := do
  let path := w.resolve scriptPath
  if ¬ w.isFile path then
    throw (.ofText .fileNotFoundError ("Script not found: " ++ path))
  teardownEnvironment w.teardown
  update (fun r => { r with scriptPath := some path, chdir := chdir })
  let _ ← ensurePolicy w environment
  execute w (.file path)

def loadCode (w : LoadWorld) (code : String) (environment : Option EnvironmentArg) :
    RunM (List OutputItem) := do
  teardownEnvironment w.teardown
  update (fun r => { r with scriptPath := none })
  let _ ← ensurePolicy w environment
  execute w (.code code)

def reload (w : LoadWorld) (chdir : Option Bool) : RunM (List OutputItem) := do
  let r := (← get).runner
  match r.scriptPath with
  | none => throw (.ofText .scriptNotLoadedError "No script file is associated with this ScriptRunner instance")
  | some path => loadScript w path none (chdir.getD r.chdir)

/-- `str` of an `OutputNotFoundError`: a `KeyError` prints the repr of its message. -/
def notFoundText (index : Int) (available : List Int) : String :=
  "'Output index " ++ toString index ++ " not found. Available: " ++ toString available ++ "'"

def getClip (r : ScriptRunner) (index : Int) : Except PyExc VideoNode :=
  match r.clips.get? index with
  | some clip => .ok clip
  | none => .error (.ofText .outputNotFoundError (notFoundText index r.clips.keys))

def getClipInfo (r : ScriptRunner) (index : Int) : Except PyExc ClipInfo :=
  match r.clipInfos.get? index with
  | some info => .ok info
  | none => .error (.ofText .outputNotFoundError (notFoundText index r.clipInfos.keys))

def getEnvironment (r : ScriptRunner) : Except PyExc Environment :=
  match r.environment with
  | some env => .ok env
  | none => .error (.ofText .environmentNotSetError
      "No environment has been passed to this ScriptRunner instance")

/-- `close()`; `isRegistered` is `self._policy.is_registered`, and `unregister`
what `self._policy.unregister()` raises. -/
def close (w : TeardownWorld) (isRegistered : Bool) (unregister : Option PyExc := none) : RunM Unit := do
  teardownEnvironment w
  let r := (← get).runner
  match r.policy with
  | some p =>
    if r.registeredPolicy then
      if isRegistered then outside (.unregisterPolicy p.id) unregister
      update (fun r => { r with policy := none, registeredPolicy := false })
  | none => pure ()

end ScriptRunner

end VsRemote
