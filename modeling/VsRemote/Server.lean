import VsRemote.Jobs
import VsRemote.Lib.Runs

/-! The running server: handler tasks on the event loop, jobs on the thread
pool and the stop sequence. One label is one atomic step together with what
the outside world answers in it. -/

namespace VsRemote

structure ServerState where
  runner : RunnerState
  inflight : OrderedDict (Bytes × Nat) Nat := .empty
  subscribers : List Bytes := []
  metrics : ServerMetricsCollector
  running : Bool := true
  socketOpen : Bool := true

/-- Where a suspended task waits: for its turn, for a job, or for a message it
has put on the socket to be accepted. -/
inductive Phase where
  | ready
  | onJob (job : Nat)
  | sent
  deriving DecidableEq

abbrev HandlerProg := Coro srvSig (Except Raised Unit)

/-- A task of the event loop; `msg` is `none` for a broadcast. `log` and `wire`
record the operations it completed and the messages it put on the socket. -/
structure Task where
  msg : Option (List Bytes)
  prog : HandlerProg
  phase : Phase := .ready
  cancelRequested : Bool := false
  cancelled : Bool := false
  log : List (Coro.Event srvSig) := []
  wire : List (SendOrigin × List Bytes) := []

def Task.finished (task : Task) : Bool :=
  match task.prog with
  | .pure _ => true
  | .call _ _ => false

def Task.cancel (task : Task) : Task :=
  if task.finished then task else { task with cancelRequested := true, cancelled := true }

def Task.complete (task : Task) (o : SrvOp) (k : o.Res → HandlerProg) (r : o.Res) : Task :=
  { task with prog := k r, phase := .ready, log := task.log ++ [⟨o, r⟩] }

def Task.put (task : Task) (origin : SendOrigin) (parts : List Bytes) : Task :=
  { task with phase := .sent, wire := task.wire ++ [(origin, parts)] }

inductive JobStatus where
  | queued
  | running
  | done (outcome : JobOutcome)
  | dropped

structure PoolJob where
  job : Job
  owner : Nat
  status : JobStatus := .queued

/-- A load action that has run: its job, whether it got past its preconditions,
how it ended and the outputs it left. -/
structure LoadRecord where
  job : Nat
  touched : Bool
  result : Except PyExc (List OutputItem)
  stores : Stores

def lastTouched (loads : List LoadRecord) : Option LoadRecord :=
  (loads.filter (·.touched)).getLast?

/-- `aborted` tells that `stop()` was cancelled before it came to the sockets.
`loads` records the load actions that ran, `answers` for every query answered from a
registered output the last load that had touched the runner. -/
structure Sys where
  srv : ServerState
  tasks : List Task := []
  jobs : List PoolJob := []
  loop : Option Nat := none
  closedFrames : List Nat := []
  nextFrame : Nat := 0
  stopping : Bool := false
  aborted : Bool := false
  shutDown : Bool := false
  closed : Bool := false
  loads : List LoadRecord := []
  answers : List (Option LoadRecord) := []

inductive Choice where
  | ok
  | raises (e : PyExc)
  | time (now : Rat)
  | traceback (tb : Traceback)
  | stats (w : SnapshotWorld) (now : Rat)

inductive Label where
  | recv (msg : List Bytes)
  | broadcast (payload : Bytes)
  | sync (t : Nat) (c : Choice)
  | submit (t : Nat)
  | frame (t : Nat) (r : Except PyExc VideoFrame)
  | put (t : Nat) (raises : Option PyExc)
  | resume (t : Nat)
  | cancelled (t : Nat)
  | jobStart (j : Nat)
  | jobRun (j : Nat) (w : JobWorld)
  | stop
  | shutdown
  | close (w : TeardownWorld) (isRegistered : Bool)

def SrvOp.suspends : SrvOp → Bool
  | .awaitFrame _ _ => true
  | .send _ _ => true
  | _ => false

def MetricsCall.apply (h : Host) (now : Rat) (m : ServerMetricsCollector) :
    MetricsCall → ServerMetricsCollector
  | .requestStart identity => m.onRequestStart h.isPrintable identity now
  | .requestEnd identity => m.onRequestEnd identity now
  | .frameRequest => m.onFrameRequest
  | .frameCompleted u c r k => m.onFrameCompleted u c r k now
  | .frameFailed => m.onFrameFailed
  | .frameCancelled => m.onFrameCancelled

def RunnerQuery.answer (r : ScriptRunner) : (q : RunnerQuery) → q.Res
  | .environment => r.getEnvironment
  | .scriptPath => r.scriptPath
  | .listOutputs => r.outputItems
  | .clipInfo i => r.getClipInfo i
  | .clip i => r.getClip i
  | .startupEvents => r.startupEvents

def RunnerQuery.answered (r : ScriptRunner) : RunnerQuery → Bool
  | .listOutputs => ! r.outputItems.isEmpty
  | .clipInfo i => (r.clipInfos.get? i).isSome
  | .clip i => (r.clips.get? i).isSome
  | _ => false

def respond (d : Daemon) (h : Host) (t : Nat) :
    (o : SrvOp) → Choice → ServerState → Option (o.Res × ServerState)
  | .socketOpen, .ok, s => some (s.socketOpen, s)
  | .inflightSet key, .ok, s => some ((), { s with inflight := s.inflight.set key t })
  | .inflightPop key, .ok, s => some ((), { s with inflight := s.inflight.erase key })
  | .inflightCancel _, .ok, s => some ((), s)
  | .inflightLen, .ok, s => some (s.inflight.size, s)
  | .metrics c, .time now, s => some ((), { s with metrics := c.apply h now s.metrics })
  | .runner q, .ok, s => some (q.answer s.runner.runner, s)
  | .useEnvironment _, .ok, s => some (.ok (), s)
  | .useEnvironment _, .raises e, s => some (.error e, s)
  | .snapshot activeScript outputs inFlight, .stats w now, s =>
    let r := s.metrics.snapshot w activeScript outputs d.compression inFlight now
    some (.ok r.1, { s with metrics := r.2 })
  | .snapshot _ _ _, .raises e, s => some (.error e, s)
  | .subscribersAdd i, .ok, s =>
    some ((), { s with subscribers := if i ∈ s.subscribers then s.subscribers else s.subscribers ++ [i] })
  | .subscribersDiscard i, .ok, s =>
    some ((), { s with subscribers := s.subscribers.filter (· ≠ i) })
  | .perfCounter, .time now, s => some (now, s)
  | .traceback _, .traceback tb, s => some (tb, s)
  | .getFrameAsync _ _ _, .ok, s => some (.ok (), s)
  | .getFrameAsync _ _ _, .raises e, s => some (.error e, s)
  | .closeFrame _, .ok, s => some ((), s)
  | _, _, _ => none

namespace Sys

def holder (t : Nat) : HandlerProg → Option Nat
  | .pure _ => none
  | .call o _ => if SrvOp.suspends o then none else some t

def free (s : Sys) (t : Nat) : Bool := s.loop = none ∨ s.loop = some t

def modifyTask (s : Sys) (t : Nat) (f : Task → Task) : Sys := { s with tasks := s.tasks.modify t f }

def setStatus (s : Sys) (j : Nat) (status : JobStatus) : Sys :=
  { s with jobs := s.jobs.modify j (fun pj => { pj with status := status }) }

def advance (s : Sys) (t : Nat) (o : SrvOp) (k : o.Res → HandlerProg) (r : o.Res) : Sys :=
  { s.modifyTask t (fun task => task.complete o k r) with loop := holder t (k r) }

/-- `task.cancel()` on the task the table maps `key` to. -/
def cancelTask (s : Sys) (key : Bytes × Int) : Sys :=
  match key.2 with
  | .ofNat n =>
    match s.srv.inflight.get? (key.1, n) with
    | some t => s.modifyTask t Task.cancel
    | none => s
  | .negSucc _ => s

/-- What a synchronous operation does beyond the state the handlers read. -/
def sideEffect (s : Sys) : SrvOp → Sys
  | .inflightCancel key => s.cancelTask key
  | .closeFrame f => { s with closedFrames := f :: s.closedFrames }
  | .runner q =>
    if q.answered s.srv.runner.runner then { s with answers := s.answers ++ [lastTouched s.loads] } else s
  | _ => s

/-- The receive loop creates the task of a message. -/
def accept (d : Daemon) (msg : List Bytes) (s : Sys) : Sys :=
  { s with tasks := s.tasks ++ [{ msg := some msg, prog := (handleRequest d msg).run }] }

/-- Cancelling a `gather` cancels what it waits for. -/
def cancelGathered (n : Nat) (s : Sys) : Sys :=
  { s with tasks := (s.tasks.take n).map Task.cancel ++ s.tasks.drop n }

/-- The receive loop is still suspended when `stop()` begins, so a message that comes
while `stop()` waits for the tasks is taken in. It ends the loop: `start()` returns, and
with it `serve` cancels `stop()`, which gets no further than its `gather`. Left out is a
message taken in after `stop()` has closed the socket, whose handler finds none and
returns. -/
def stepRecv (d : Daemon) (msg : List Bytes) (s : Sys) : Option Sys :=
  if s.loop = none ∧ s.srv.running then some (s.accept d msg)
  else if s.loop = none ∧ s.stopping ∧ s.aborted = false ∧ s.shutDown = false ∧ s.tasks ≠ [] then
    some { (s.cancelGathered s.tasks.length).accept d msg with aborted := true }
  else none

def stepBroadcast (payload : Bytes) (s : Sys) : Option Sys :=
  if s.loop = none ∧ s.srv.running ∧ s.srv.subscribers ≠ [] then
    some { s with tasks := s.tasks ++ [{ msg := none, prog := (sendAll payload s.srv.subscribers).run }] }
  else none

def stepSync (d : Daemon) (h : Host) (t : Nat) (c : Choice) (s : Sys) : Option Sys := do
  let task ← s.tasks[t]?
  match task.prog with
  | .pure _ => none
  | .call o k =>
    if s.free t then
      let (r, srv) ← respond d h t o c s.srv
      some (advance { s.sideEffect o with srv := srv } t o k r)
    else none

def stepSubmit (t : Nat) (s : Sys) : Option Sys := do
  let task ← s.tasks[t]?
  match task.prog, task.phase with
  | .call (.runInExecutor job) _, .ready =>
    if s.free t then
      some { s.modifyTask t (fun task => { task with phase := .onJob s.jobs.length }) with
        jobs := s.jobs ++ [⟨job, t, .queued⟩]
        loop := none }
    else none
  | _, _ => none

/-- The rendered frame is a new object. -/
def stepFrame (t : Nat) (r : Except PyExc VideoFrame) (s : Sys) : Option Sys := do
  let task ← s.tasks[t]?
  match task.prog with
  | .call (.awaitFrame clip n) k =>
    if s.loop = none ∧ task.cancelRequested = false then
      match r with
      | .error e => some (advance s t (.awaitFrame clip n) k (.error (.exc e)))
      | .ok f =>
        some (advance { s with nextFrame := s.nextFrame + 1 } t (.awaitFrame clip n) k
          (.ok { f with id := s.nextFrame }))
    else none
  | _ => none

def stepPut (t : Nat) (raises : Option PyExc) (s : Sys) : Option Sys := do
  let task ← s.tasks[t]?
  match task.prog, task.phase with
  | .call (.send origin parts) k, .ready =>
    if s.loop = none ∧ task.cancelRequested = false then
      match raises with
      | some e => some (advance s t (.send origin parts) k (.error (.exc e)))
      | none =>
        some (s.modifyTask t (fun task => task.put origin parts))
    else none
  | _, _ => none

def stepResume (t : Nat) (s : Sys) : Option Sys := do
  let task ← s.tasks[t]?
  if s.loop = none ∧ task.cancelRequested = false then
    match task.prog, task.phase with
    | .call (.send origin parts) k, .sent => some (advance s t (.send origin parts) k (.ok ()))
    | .call (.runInExecutor job) k, .onJob j =>
      match s.jobs[j]? with
      | some ⟨_, _, .done outcome⟩ => do
        let r ← outcome.result job
        some (advance s t (.runInExecutor job) k r)
      | _ => none
    | _, _ => none
  else none

/-- Cancelling the future of a job drops the job unless it has started. -/
def dropQueued (s : Sys) (j : Nat) : Sys :=
  match s.jobs[j]? with
  | some ⟨_, _, .queued⟩ => s.setStatus j .dropped
  | _ => s

/-- The `CancelledError` is raised where the task waits; a task that has not
started is over. -/
def stepCancelled (t : Nat) (s : Sys) : Option Sys := do
  let task ← s.tasks[t]?
  if s.loop = none ∧ task.cancelRequested then
    let s' := s.modifyTask t (fun task => { task with cancelRequested := false })
    match task.prog, task.phase with
    | .call (.awaitFrame clip n) k, _ => some (advance s' t (.awaitFrame clip n) k (.error .cancelled))
    | .call (.send origin parts) k, _ => some (advance s' t (.send origin parts) k (.error .cancelled))
    | .call (.runInExecutor job) k, .onJob j =>
      some (advance (s'.dropQueued j) t (.runInExecutor job) k (.error .cancelled))
    | .call _ _, .ready =>
      if task.log = [] then
        some (s'.modifyTask t (fun task => { task with prog := .pure (.error .cancelled) }))
      else none
    | _, _ => none
  else none

def stepJobStart (j : Nat) (s : Sys) : Option Sys := do
  let pj ← s.jobs[j]?
  match pj.status with
  | .queued => some (s.setStatus j .running)
  | _ => none

def record (j : Nat) (before : ScriptRunner) : Job → JobWorld → JobOutcome → RunnerState → List LoadRecord
  | .load a, .load w, .load r, after => [⟨j, a.touches w before, r, after.runner.stores⟩]
  | _, _, _, _ => []

def stepJobRun (h : Host) (j : Nat) (w : JobWorld) (s : Sys) : Option Sys := do
  let pj ← s.jobs[j]?
  match pj.status with
  | .running =>
    let (outcome, runner) ← pj.job.run h w s.srv.runner
    some { s.setStatus j (.done outcome) with
      srv := { s.srv with runner := runner }
      loads := s.loads ++ record j s.srv.runner.runner pj.job w outcome runner }
  | _ => none

/-- `stop()` up to the `gather`. -/
def stepStop (s : Sys) : Option Sys :=
  if s.loop = none ∧ s.stopping = false then
    some { s with
      stopping := true
      srv := { s.srv with running := false, subscribers := [] }
      tasks := s.tasks.map Task.cancel }
  else none

/-- `stop()` from the end of the `gather` to the shutdown of the pool. -/
def stepShutdown (s : Sys) : Option Sys :=
  if s.stopping ∧ s.aborted = false ∧ s.shutDown = false ∧ s.tasks.all Task.finished then
    some { s with
      shutDown := true
      srv := { s.srv with socketOpen := false }
      jobs := s.jobs.map (fun pj => match pj.status with
        | .queued => { pj with status := .dropped }
        | _ => pj) }
  else none

def jobRunning (pj : PoolJob) : Bool :=
  match pj.status with
  | .running => true
  | _ => false

def stepClose (w : TeardownWorld) (isRegistered : Bool) (s : Sys) : Option Sys :=
  if s.shutDown ∧ s.closed = false ∧ s.jobs.all (fun pj => ! jobRunning pj) then
    some { s with
      closed := true
      srv := { s.srv with runner := ((ScriptRunner.close w isRegistered).exec s.srv.runner).2 } }
  else none

def step (d : Daemon) (h : Host) : Label → Sys → Option Sys
  | .recv msg => stepRecv d msg
  | .broadcast payload => stepBroadcast payload
  | .sync t c => stepSync d h t c
  | .submit t => stepSubmit t
  | .frame t r => stepFrame t r
  | .put t raises => stepPut t raises
  | .resume t => stepResume t
  | .cancelled t => stepCancelled t
  | .jobStart j => stepJobStart j
  | .jobRun j w => stepJobRun h j w
  | .stop => stepStop
  | .shutdown => stepShutdown
  | .close w isRegistered => stepClose w isRegistered

end Sys

end VsRemote
