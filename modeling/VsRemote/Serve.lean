import VsRemote.Lifecycle

/-! A run of `serve`. The coroutine `run` awaits `daemon.start()`, which
receives the messages, beside the task of `watch_shutdown`, which awaits the
shutdown event and stops the daemon. -/

namespace VsRemote

/-- What `start()` sets up and `stop()` takes down. -/
inductive Resource where
  | ctx
  | zapSocket
  | zapTask
  | socket
  | executor
  | logHandler
  | stdoutRedirector
  | stderrRedirector
  deriving DecidableEq

def setUp (zap : Bool) : List Resource :=
  [.ctx] ++ (if zap then [.zapSocket, .zapTask] else []) ++
    [.socket, .executor, .logHandler, .stdoutRedirector, .stderrRedirector]

/-- Who called `stop()`: the `finally` block of `start()` or `watch_shutdown`. -/
inductive Caller where
  | start
  | watchShutdown
  deriving DecidableEq

/-- Where `stop()` waits: for the first `n` tasks, for the ZAP task, or, holding
the thread of the loop, for the jobs of the executor. -/
inductive StopAt where
  | gather (n : Nat)
  | zap
  | pool
  deriving DecidableEq

inductive Received where
  | message (msg : List Bytes)
  | zmqError

/-- Where `run` is; `raising` tells that an exception leaves `start()`. -/
inductive RunAt where
  | starting
  | receiving
  | inStop (raising : Bool)
  | joining (raising : Bool)
  | returned
  | raised
  deriving DecidableEq

inductive TaskEnd where
  | returned
  | cancelled
  | raised
  deriving DecidableEq

inductive WatchAt where
  | waiting
  | inStop
  | ended (e : TaskEnd)
  deriving DecidableEq

/-- `held` lists the attributes of the daemon that are not `None`, `pending` is
what the future of `recv_multipart` holds and `stopCall` the call of `stop()`
that is under way. -/
structure Serve where
  sys : Sys
  held : List Resource := []
  zapEnded : Bool := false
  shutdownEvent : Bool := false
  pending : Option Received := none
  run : RunAt := .starting
  watch : WatchAt := .waiting
  watchCancel : Bool := false
  stopCall : Option (Caller × StopAt) := none

inductive ServeLabel where
  | start (zap : Bool) (failsAfter : Option Nat)
  | shutdownEvent
  | arrive (r : Received)
  | receive (waits : Bool)
  | watch (waits : Bool)
  | gathered
  | zapEnds
  | zapJoined
  | close (w : TeardownWorld) (isRegistered : Bool)
  | join
  | task (l : Label)

namespace Sys

/-- `stop()` closes the sockets and drops the jobs that have not started. -/
def closeSocket (s : Sys) : Sys :=
  { s with
    shutDown := true
    srv := { s.srv with socketOpen := false }
    jobs := s.jobs.map (fun pj => match pj.status with
      | .queued => { pj with status := .dropped }
      | _ => pj) }

end Sys

/-- The steps of handlers, broadcasts and jobs. -/
def Label.ofHandlers : Label → Bool
  | .recv _ | .stop | .shutdown | .close _ _ => false
  | _ => true

def Label.ofPool : Label → Bool
  | .jobStart _ | .jobRun _ _ => true
  | _ => false

namespace Serve

def init (runner : RunnerState) (metrics : ServerMetricsCollector) : Serve :=
  { sys := { srv := { runner := runner, metrics := metrics, running := false, socketOpen := false } } }

/-- `executor.shutdown(wait=True)` holds the thread of the loop. -/
def blocked (s : Serve) : Bool :=
  match s.stopCall with
  | some (_, .pool) => true
  | _ => false

/-- The loop can take the next step of a coroutine. -/
def turn (s : Serve) : Bool := s.run ≠ .starting ∧ s.sys.loop = none ∧ s.blocked = false

def release (s : Serve) (rs : List Resource) : Serve := { s with held := s.held.filter (· ∉ rs) }

/-- `stop()` after the ZAP task, to the shutdown of the executor. -/
def afterZap (c : Caller) (s : Serve) : Serve :=
  { s.release [.zapTask, .zapSocket, .socket, .ctx] with sys := s.sys.closeSocket, stopCall := some (c, .pool) }

def afterGather (c : Caller) (s : Serve) : Serve :=
  if .zapTask ∈ s.held ∧ s.zapEnded = false then { s with stopCall := some (c, .zap) } else s.afterZap c

/-- The first call of `stop()`. A task that has ended may still be in
`_active_tasks`, so the `gather` may wait although all have. -/
def beginStop (c : Caller) (waits : Bool) (s : Serve) : Option Serve := do
  let sys ← s.sys.stepStop
  let s' := { s.release [.stdoutRedirector, .stderrRedirector, .logHandler] with sys := sys }
  if waits then
    if sys.tasks ≠ [] then some { s' with stopCall := some (c, .gather sys.tasks.length) } else none
  else if sys.tasks.all Task.finished then some (s'.afterGather c) else none

def conclude (raising : Bool) (e : TaskEnd) (s : Serve) : Serve :=
  { s with run := if raising ∨ e = .raised then .raised else .returned }

/-- The `finally` block of `run`: `stop_task` is cancelled and awaited. At the
ZAP task `stop()` suppresses the cancellation. -/
def cancelWatch (raising : Bool) (s : Serve) : Serve :=
  match s.watch with
  | .ended e => s.conclude raising e
  | .waiting => { s with watchCancel := true, run := .joining raising }
  | .inStop =>
    match s.stopCall with
    | some (_, .gather n) =>
      { s with sys := s.sys.cancelGathered n, watchCancel := true, run := .joining raising }
    | _ => { s with run := .joining raising }

/-- The `finally` block of `start()`, where a second `stop()` returns at once. -/
def leave (raising waits : Bool) (s : Serve) : Option Serve :=
  if s.sys.stopping then some (s.cancelWatch raising)
  else (s.beginStop .start waits).map (fun s' => { s' with run := .inStop raising })

def stepStart (zap : Bool) (failsAfter : Option Nat) (s : Serve) : Option Serve :=
  if s.run = .starting then
    match failsAfter with
    | none => some { s with
        held := setUp zap
        run := .receiving
        sys := { s.sys with srv := { s.sys.srv with running := true, socketOpen := true } } }
    | some n => leave true false { s with held := (setUp zap).take n }
  else none

def stepArrive (r : Received) (s : Serve) : Option Serve :=
  if s.turn ∧ s.run = .receiving ∧ s.pending.isNone ∧ .socket ∈ s.held then some { s with pending := some r } else none

/-- The receive loop goes on with what its future holds; closing the socket has
cancelled a future that held nothing. -/
def stepReceive (d : Daemon) (waits : Bool) (s : Serve) : Option Serve :=
  if s.turn ∧ s.run = .receiving then
    match s.pending with
    | some (.message msg) =>
      let s' := { s with sys := s.sys.accept d msg, pending := none }
      if s'.sys.srv.running then some s' else leave false waits s'
    | some .zmqError => leave false waits { s with pending := none }
    | none => if .socket ∈ s.held then none else leave false waits s
  else none

def stepWatch (waits : Bool) (s : Serve) : Option Serve :=
  if s.turn ∧ s.watch = .waiting then
    if s.watchCancel then some { s with watch := .ended .cancelled }
    else if s.shutdownEvent then
      if s.sys.stopping then some { s with watch := .ended .returned }
      else (s.beginStop .watchShutdown waits).map (fun s' => { s' with watch := .inStop })
    else none
  else none

def stepGathered (s : Serve) : Option Serve :=
  match s.stopCall with
  | some (c, .gather n) =>
    if s.turn ∧ (s.sys.tasks.take n).all Task.finished then
      if c = .watchShutdown ∧ s.watchCancel then some { s with watch := .ended .cancelled, stopCall := none }
      else some (s.afterGather c)
    else none
  | _ => none

def stepZapEnds (s : Serve) : Option Serve :=
  if s.turn ∧ .zapTask ∈ s.held ∧ s.zapEnded = false then some { s with zapEnded := true } else none

def stepZapJoined (s : Serve) : Option Serve :=
  match s.stopCall with
  | some (c, .zap) => if s.turn ∧ s.zapEnded then some (s.afterZap c) else none
  | _ => none

/-- The executor has shut down and `stop()` closes the runner. -/
def stepClose (w : TeardownWorld) (isRegistered : Bool) (s : Serve) : Option Serve :=
  match s.stopCall with
  | some (c, .pool) => do
    let sys ← s.sys.stepClose w isRegistered
    let fails := ((ScriptRunner.close w isRegistered).exec s.sys.srv.runner).1.toOption.isNone
    let s' := { s.release [.executor] with sys := sys, stopCall := none }
    match c, s.run with
    | .start, .inStop raising => some (s'.cancelWatch (raising || fails))
    | .start, _ => none
    | .watchShutdown, _ => some { s' with watch := .ended (if fails then .raised else .returned) }
  | _ => none

def stepJoin (s : Serve) : Option Serve :=
  match s.run, s.watch with
  | .joining raising, .ended e => if s.turn then some (s.conclude raising e) else none
  | _, _ => none

def stepTask (d : Daemon) (h : Host) (l : Label) (s : Serve) : Option Serve :=
  if s.run ≠ .starting ∧ l.ofHandlers ∧ (s.blocked → l.ofPool) then
    (s.sys.step d h l).map (fun sys => { s with sys := sys })
  else none

def step (d : Daemon) (h : Host) : ServeLabel → Serve → Option Serve
  | .start zap failsAfter => stepStart zap failsAfter
  | .shutdownEvent => fun s => some { s with shutdownEvent := true }
  | .arrive r => stepArrive r
  | .receive waits => stepReceive d waits
  | .watch waits => stepWatch waits
  | .gathered => stepGathered
  | .zapEnds => stepZapEnds
  | .zapJoined => stepZapJoined
  | .close w isRegistered => stepClose w isRegistered
  | .join => stepJoin
  | .task l => stepTask d h l

end Serve

end VsRemote
