import VsRemote.Daemon
import VsRemote.Codec

/-! What a job does on the thread pool: one step of the runner under its lock,
or the extraction of a frame's planes. -/

namespace VsRemote

structure Host where
  zstd : Zstd
  isPrintable : PyStr → Bool

def Host.plain : Host := ⟨⟨id, .ok⟩, fun _ => true⟩

structure Stores where
  clips : OrderedDict Int VideoNode
  clipInfos : OrderedDict Int ClipInfo
  outputItems : List OutputItem
  deriving DecidableEq

def ScriptRunner.stores (r : ScriptRunner) : Stores := ⟨r.clips, r.clipInfos, r.outputItems⟩

def Stores.empty : Stores := ⟨.empty, .empty, []⟩

def RunM.exec {α : Type} (x : RunM α) (s : RunnerState) : Except PyExc α × RunnerState :=
  (ExceptT.run x).run s

def raised {α : Type} : Except PyExc α → Except Raised α
  | .ok a => .ok a
  | .error e => .error (.exc e)

def LoadAction.run (w : LoadWorld) : LoadAction → RunM (List OutputItem)
  | .reload p => ScriptRunner.reload w (some p.chdir)
  | .loadCode p => ScriptRunner.loadCode w p.code none
  | .loadScript p => ScriptRunner.loadScript w p.scriptPath none p.chdir

/-- Whether a load gets past its preconditions, which come before any change. -/
def LoadAction.touches (w : LoadWorld) (r : ScriptRunner) : LoadAction → Bool
  | .reload _ => match r.scriptPath with
    | none => false
    | some path => w.isFile (w.resolve path)
  | .loadCode _ => true
  | .loadScript p => w.isFile (w.resolve p.scriptPath)

inductive JobWorld where
  | load (w : LoadWorld)
  | teardown (w : TeardownWorld)
  | extract (raises : Option PyExc)

inductive JobOutcome where
  | load (r : Except PyExc (List OutputItem))
  | teardown (r : Except PyExc Unit)
  | extract (r : Except PyExc (List Bytes × Nat))

def JobOutcome.result : JobOutcome → (job : Job) → Option (Except Raised job.Res)
  | .load r, .load _ => some (raised r)
  | .teardown r, .teardown => some (raised r)
  | .extract r, .extract _ _ => some (raised r)
  | _, _ => none

def Job.run (h : Host) : Job → JobWorld → RunnerState → Option (JobOutcome × RunnerState)
  | .load a, .load w, s =>
    let out := (a.run w).exec s
    some (.load out.1, out.2)
  | .teardown, .teardown w, s =>
    let out := (ScriptRunner.teardownEnvironment w).exec s
    some (.teardown out.1, out.2)
  | .extract _ _, .extract (some e), s => some (.extract (.error e), s)
  | .extract frame compression, .extract none, s =>
    some (.extract (extractAndCompressPlanes h.zstd frame compression frame.numPlanes), s)
  | _, _, _ => none

end VsRemote
