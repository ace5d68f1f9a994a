import VsRemote.Transport

/-! `ClientTransport` step by step: the threads inside `send_request`, in the
callbacks of the futures, in `start()` and in `close()`, and one worker thread
for each start. A step reads or writes one attribute, or is one operation of the
`RequestTracker`. -/

namespace VsRemote

inductive RequestOutcome (α : Type) where
  | response (r : Except PyExc (ResponseEnvelope α))
  | cancelled
  | rejected (e : PyExc)

/-- The future of a request: every outcome it was offered, the one it has and
how often it was settled. `callback` is the id `on_done` was added with. -/
structure RequestFuture (α : Type) where
  offered : List (RequestOutcome α) := []
  outcome : Option (RequestOutcome α) := none
  settled : Nat := 0
  callback : Option Nat := none

/-- `try_set_result`, `try_set_exception` and `cancel`: nothing once the future is done. -/
def RequestFuture.offer {α : Type} (o : RequestOutcome α) (fut : RequestFuture α) : RequestFuture α :=
  match fut.outcome with
  | some _ => { fut with offered := fut.offered ++ [o] }
  | none => { fut with offered := fut.offered ++ [o], outcome := some o, settled := fut.settled + 1 }

/-- Where `_send_message` is: its three checks, where the last one reads three
attributes, the encoding of the token, and the two attributes it then uses. -/
inductive SendPc where
  | closed
  | started
  | running
  | loop
  | sendQueue
  | parts
  | callSoon
  | putNowait (loop : Nat)
  | handOver (loop queue : Nat)
  deriving DecidableEq

inductive SendStep where
  | next (pc : SendPc)
  | fails (e : PyExc)
  | raises
  | handsOver (loop queue : Nat)

/-- Where `send_request` is. It has returned a future that was rejected at once,
or the future of the tracker after its message was handed to a loop (`late` when
that was after the clean-up of the worker) or could not be sent, or it raised. -/
inductive CallPc where
  | closed
  | started
  | running
  | allocate
  | addCallback (reqId future : Nat)
  | encode (reqId future : Nat)
  | send (pc : SendPc) (reqId future : Nat)
  | pop (e : PyExc) (reqId future : Nat)
  | setException (e : PyExc) (future : Nat)
  | rejected (e : PyExc)
  | sent (future : Nat) (late : Bool)
  | unsent (e : PyExc) (future : Nat)
  | raised
  deriving DecidableEq

def CallPc.ended : CallPc → Bool
  | .rejected _ | .sent _ _ | .unsent _ _ | .raised => true
  | _ => false

structure RequestCall (α : Type) where
  decode : Bytes → Except PyExc α
  pc : CallPc := .closed

/-- Where `_cancel_request` is, called by `on_done`. -/
inductive CallbackPc where
  | cancel
  | running
  | loop
  | sendQueue
  | send (pc : SendPc)
  | done
  deriving DecidableEq

structure DoneCallback where
  reqId : Nat
  pc : CallbackPc := .cancel

structure Requests (α : Type) where
  tracker : RequestTracker α := {}
  futures : List (RequestFuture α) := []
  calls : List (RequestCall α) := []
  callbacks : List DoneCallback := []

/-- A message on its way to the socket and the future of its request, if it is one. -/
structure OutMessage where
  reqId : Nat
  request : Option Nat
  deriving DecidableEq

inductive WorkerPc where
  | setLoop
  | setQueue
  | createSocket
  | checkStartup
  | setRunning
  | startupResult
  | serving
  | cleanupTracker
  | cleanupSocket
  | closeLoop
  | clearRunning
  | clearLoop
  | clearQueue
  | ended
  deriving DecidableEq

/-- `asyncio.run` has closed the loop of the worker. -/
def WorkerPc.loopClosed : WorkerPc → Bool
  | .clearRunning | .clearLoop | .clearQueue | .ended => true
  | _ => false

/-- The worker has cleaned up, or had nothing to. -/
def WorkerPc.cleanedUp : WorkerPc → Bool
  | .cleanupSocket | .closeLoop => true
  | pc => pc.loopClosed

inductive StartupState where
  | pending
  | done
  | failed
  | cancelled
  deriving DecidableEq

inductive SendLoopPc where
  | top
  | waiting (queue : Nat)
  | sending (message : OutMessage)
  | ended
  deriving DecidableEq

/-- A worker thread with its startup future, the callbacks scheduled on its loop
(each puts a message into the send queue of some worker) and its own send queue. -/
structure Worker where
  pc : WorkerPc := .setLoop
  startup : StartupState := .pending
  ready : List (Nat × OutMessage) := []
  queue : List OutMessage := []
  sendLoop : SendLoopPc := .top
  receiving : Bool := true
  deriving DecidableEq

/-- Where the `start()` or `close()` is that holds `_start_lock`; `start()` that
fails goes on with `close()`. -/
inductive LockedPc where
  | startClosed
  | startStarted
  | startRunning
  | startThread
  | startResult (worker : Nat)
  | setStarted
  | subscribe
  | subscribing (call : Nat)
  | closeClosed
  | closeRunning
  | closeStarted
  | closeStartup
  | closeTracker
  | closeThread
  deriving DecidableEq

/-- `_thread` counts as set when it is not `None`; a loop, a queue and a socket
are named by the worker that made them. -/
structure Attributes where
  closed : Bool := false
  started : Bool := false
  running : Bool := false
  thread : Bool := false
  loop : Option Nat := none
  sendQueue : Option Nat := none
  socket : Option Nat := none
  deriving DecidableEq

/-- `trackerClosed` once a `close()` has passed its `tracker.close()`; `dropped`
are the requests whose messages `_send_loop` could not send. -/
structure ThreadedClient (α : Type) where
  subscribeStreams : Bool
  attrs : Attributes := {}
  requests : Requests α := {}
  locked : Option LockedPc := none
  trackerClosed : Bool := false
  workers : List Worker := []
  dropped : List Nat := []

/-- `encodes` is false when what the step encodes cannot be encoded. -/
inductive ThreadLabel (α : Type) where
  | request (decode : Bytes → Except PyExc α)
  | call (i : Nat) (encodes : Bool)
  | cancel (f : Nat)
  | callback (k : Nat) (encodes : Bool)
  | start
  | close
  | locked
  | timeout
  | subscribe (decode : Bytes → Except PyExc α)
  | worker (g : Nat)
  | workerFails (g : Nat)
  | aborted (g : Nat)
  | runReady (g : Nat)
  | sendLoop (g : Nat)
  | sendRaises (g : Nat)
  | receive (g : Nat) (parts : List Bytes)
  | receiveEnds (g : Nat)

namespace Requests

variable {α : Type}

def setCall (b : Requests α) (i : Nat) (pc : CallPc) : Requests α :=
  { b with calls := b.calls.modify i (fun c => { c with pc := pc }) }

def setCallback (b : Requests α) (k : Nat) (pc : CallbackPc) : Requests α :=
  { b with callbacks := b.callbacks.modify k (fun c => { c with pc := pc }) }

def addCall (b : Requests α) (decode : Bytes → Except PyExc α) : Requests α :=
  { b with calls := b.calls ++ [{ decode := decode }] }

def offer (b : Requests α) (f : Nat) (o : RequestOutcome α) : Requests α :=
  { b with futures := b.futures.modify f (RequestFuture.offer o) }

def allocate (b : Requests α) (decode : Bytes → Except PyExc α) : Option (Nat × Requests α) := do
  let (reqId, tracker) ← b.tracker.allocate ⟨b.futures.length, decode⟩
  some (reqId, { b with tracker := tracker, futures := b.futures ++ [{}] })

def pop (b : Requests α) (reqId : Nat) : Requests α := { b with tracker := (b.tracker.pop reqId).2 }

def runOnDone (b : Requests α) (reqId : Nat) : Requests α :=
  { b with callbacks := b.callbacks ++ [{ reqId := reqId }] }

/-- `on_done` does something for a cancelled future only; it runs at once when
the future is done already. -/
def addDoneCallback (b : Requests α) (f reqId : Nat) : Requests α :=
  let b' := { b with futures := b.futures.modify f (fun fut => { fut with callback := some reqId }) }
  match (b.futures[f]?).bind RequestFuture.outcome with
  | some .cancelled => b'.runOnDone reqId
  | _ => b'

/-- `future.cancel()`. -/
def cancelFuture (b : Requests α) (f : Nat) : Requests α :=
  let b' := b.offer f .cancelled
  match b.futures[f]? with
  | some { outcome := none, callback := some reqId, .. } => b'.runOnDone reqId
  | _ => b'

/-- `RequestTracker.resolve`. -/
def resolve (m : Msgspec) (b : Requests α) (reqId : Nat) (frames : List Bytes) : Requests α :=
  match b.tracker.pending.get? reqId with
  | none => b
  | some entry =>
    (b.pop reqId).offer entry.future (.response (ResponseEnvelope.fromFrames m entry.decode frames))

/-- `RequestTracker.close`. -/
def close (b : Requests α) : Requests α :=
  { b with
    tracker := { b.tracker with pending := .empty }
    futures := b.futures.mapIdx (fun f fut =>
      if b.tracker.pending.values.any (fun entry => entry.future = f) then
        fut.offer (.rejected Transport.transportClosed)
      else fut) }

end Requests

namespace ThreadedClient

variable {α : Type}

def init (subscribeStreams : Bool) : ThreadedClient α := { subscribeStreams := subscribeStreams }

def notStarted : PyExc := .ofText .transportNotStartedError "Transport is not started"

def notConnected : PyExc := .ofText .transportNotConnectedError "Transport is not connected"

def modifyWorker (s : ThreadedClient α) (g : Nat) (f : Worker → Worker) : ThreadedClient α :=
  { s with workers := s.workers.modify g f }

def setWorker (s : ThreadedClient α) (g : Nat) (pc : WorkerPc) : ThreadedClient α :=
  s.modifyWorker g (fun w => { w with pc := pc })

def setCall (s : ThreadedClient α) (i : Nat) (pc : CallPc) : ThreadedClient α :=
  { s with requests := s.requests.setCall i pc }

def setCallback (s : ThreadedClient α) (k : Nat) (pc : CallbackPc) : ThreadedClient α :=
  { s with requests := s.requests.setCallback k pc }

def loopClosed (s : ThreadedClient α) (g : Nat) : Bool :=
  match s.workers[g]? with
  | some w => w.pc.loopClosed
  | none => true

def cleanedUp (s : ThreadedClient α) (g : Nat) : Bool :=
  match s.workers[g]? with
  | some w => w.pc.cleanedUp
  | none => true

/-- `_loop.call_soon_threadsafe(_send_queue.put_nowait, parts)`. -/
def callSoon (s : ThreadedClient α) (g q : Nat) (message : OutMessage) : ThreadedClient α :=
  s.modifyWorker g (fun w => { w with ready := w.ready ++ [(q, message)] })

def sendMessage (s : ThreadedClient α) (encodes : Bool) : SendPc → SendStep
  | .closed => if s.attrs.closed then .fails Transport.transportClosed else .next .started
  | .started => if s.attrs.started then .next .running else .fails notStarted
  | .running => if s.attrs.running then .next .loop else .fails notConnected
  | .loop => if s.attrs.loop.isSome then .next .sendQueue else .fails notConnected
  | .sendQueue => if s.attrs.sendQueue.isSome then .next .parts else .fails notConnected
  | .parts => if encodes then .next .callSoon else .raises
  | .callSoon =>
    match s.attrs.loop with
    | some g => .next (.putNowait g)
    | none => .raises
  | .putNowait g =>
    match s.attrs.sendQueue with
    | some q => .next (.handOver g q)
    | none => .raises
  | .handOver g q => if s.loopClosed g then .fails Transport.transportClosed else .handsOver g q

/-- A step of `send_request`. -/
def stepCall (i : Nat) (encodes : Bool) (s : ThreadedClient α) : Option (ThreadedClient α) := do
  let c ← s.requests.calls[i]?
  match c.pc with
  | .closed => some (s.setCall i (if s.attrs.closed then .rejected Transport.transportClosed else .started))
  | .started => some (s.setCall i (if s.attrs.started then .running else .rejected notStarted))
  | .running => some (s.setCall i (if s.attrs.running then .allocate else .rejected notConnected))
  | .allocate => do
    let (reqId, requests) ← s.requests.allocate c.decode
    some { s with requests := requests.setCall i (.addCallback reqId s.requests.futures.length) }
  | .addCallback reqId f =>
    some { s with requests := (s.requests.addDoneCallback f reqId).setCall i (.encode reqId f) }
  | .encode reqId f => some (s.setCall i (if encodes then .send .closed reqId f else .raised))
  | .send pc reqId f =>
    match s.sendMessage encodes pc with
    | .next pc => some (s.setCall i (.send pc reqId f))
    | .fails e => some (s.setCall i (.pop e reqId f))
    | .raises => some (s.setCall i .raised)
    | .handsOver g q => some ((s.callSoon g q ⟨reqId, some f⟩).setCall i (.sent f (s.cleanedUp g)))
  | .pop e reqId f => some { s with requests := (s.requests.pop reqId).setCall i (.setException e f) }
  | .setException e f => some { s with requests := (s.requests.offer f (.rejected e)).setCall i (.unsent e f) }
  | .rejected _ | .sent _ _ | .unsent _ _ | .raised => none

/-- A thread may cancel a future that a call has returned. -/
def stepCancel (f : Nat) (s : ThreadedClient α) : Option (ThreadedClient α) :=
  let given (c : RequestCall α) : Bool :=
    match c.pc with
    | .sent f' _ | .unsent _ f' => f' = f
    | _ => false
  if s.requests.calls.any given then some { s with requests := s.requests.cancelFuture f } else none

/-- A step of `_cancel_request`. What it raises ends in the callback. -/
def stepCallback (k : Nat) (encodes : Bool) (s : ThreadedClient α) : Option (ThreadedClient α) := do
  let c ← s.requests.callbacks[k]?
  match c.pc with
  | .cancel =>
    match s.requests.tracker.pending.get? c.reqId with
    | none => some (s.setCallback k .done)
    | some entry =>
      some { s with requests := ((s.requests.pop c.reqId).cancelFuture entry.future).setCallback k .running }
  | .running => some (s.setCallback k (if s.attrs.running then .loop else .done))
  | .loop => some (s.setCallback k (if s.attrs.loop.isSome then .sendQueue else .done))
  | .sendQueue => some (s.setCallback k (if s.attrs.sendQueue.isSome then .send .closed else .done))
  | .send pc =>
    match s.sendMessage encodes pc with
    | .next pc => some (s.setCallback k (.send pc))
    | .fails _ | .raises => some (s.setCallback k .done)
    | .handsOver g q => some ((s.callSoon g q ⟨0, none⟩).setCallback k .done)
  | .done => none

/-- A step of the `start()` or `close()` that holds the lock. -/
def stepLocked (s : ThreadedClient α) : Option (ThreadedClient α) :=
  match s.locked with
  | none => none
  | some .startClosed => some { s with locked := if s.attrs.closed then none else some .startStarted }
  | some .startStarted => some { s with locked := some (if s.attrs.started then .startRunning else .startThread) }
  | some .startRunning => some { s with locked := if s.attrs.running then none else some .startThread }
  | some .startThread =>
    some { s with
      attrs.thread := true
      workers := s.workers ++ [{}]
      locked := some (.startResult s.workers.length) }
  | some (.startResult g) =>
    match (s.workers[g]?).map Worker.startup with
    | some .done => some { s with locked := some .setStarted }
    | some .failed | some .cancelled => some { s with locked := some .closeClosed }
    | _ => none
  | some .setStarted =>
    some { s with attrs.started := true, locked := if s.subscribeStreams then some .subscribe else none }
  | some .subscribe => none
  | some (.subscribing i) =>
    match (s.requests.calls[i]?).map (fun c => c.pc.ended) with
    | some true => some { s with locked := none }
    | _ => none
  | some .closeClosed =>
    if s.attrs.closed then some { s with locked := none }
    else some { s with attrs.closed := true, locked := some .closeRunning }
  | some .closeRunning => some { s with attrs.running := false, locked := some .closeStarted }
  | some .closeStarted =>
    some { s with locked := if s.attrs.started = false ∧ s.attrs.thread = false then none else some .closeStartup }
  | some .closeStartup =>
    some { s.modifyWorker (s.workers.length - 1)
      (fun w => { w with startup := if w.startup = .pending then .cancelled else w.startup }) with
        locked := some .closeTracker }
  | some .closeTracker =>
    some { s with requests := s.requests.close, trackerClosed := true, locked := some .closeThread }
  | some .closeThread => some { s with attrs.thread := false, locked := none }

/-- `_startup_future.result(timeout=…)` gives up. -/
def stepTimeout (s : ThreadedClient α) : Option (ThreadedClient α) :=
  match s.locked with
  | some (.startResult g) =>
    if (s.workers[g]?).map Worker.startup = some .pending then some { s with locked := some .closeClosed } else none
  | _ => none

/-- `start()` sends its SUBSCRIBE_STREAM request. -/
def stepSubscribe (decode : Bytes → Except PyExc α) (s : ThreadedClient α) : Option (ThreadedClient α) :=
  if s.locked = some .subscribe then
    some { s with requests := s.requests.addCall decode, locked := some (.subscribing s.requests.calls.length) }
  else none

/-- A step of `_worker`; while it serves, the loops take the steps. -/
def stepWorker (g : Nat) (s : ThreadedClient α) : Option (ThreadedClient α) := do
  let w ← s.workers[g]?
  match w.pc with
  | .setLoop => some ({ s with attrs.loop := some g }.setWorker g .setQueue)
  | .setQueue => some ({ s with attrs.sendQueue := some g }.setWorker g .createSocket)
  | .createSocket => some ({ s with attrs.socket := some g }.setWorker g .checkStartup)
  | .checkStartup => some (s.setWorker g (if w.startup = .pending then .setRunning else .cleanupTracker))
  | .setRunning => some ({ s with attrs.running := true }.setWorker g .startupResult)
  | .startupResult =>
    some (s.modifyWorker g (fun w =>
      { w with pc := .serving, startup := if w.startup = .pending then .done else w.startup }))
  | .serving => if w.sendLoop = .ended ∧ w.receiving = false then some (s.setWorker g .cleanupTracker) else none
  | .cleanupTracker => some ({ s with requests := s.requests.close }.setWorker g .cleanupSocket)
  | .cleanupSocket => some ({ s with attrs.socket := none }.setWorker g .closeLoop)
  | .closeLoop => some (s.setWorker g .clearRunning)
  | .clearRunning => some ({ s with attrs.running := false }.setWorker g .clearLoop)
  | .clearLoop => some ({ s with attrs.loop := none }.setWorker g .clearQueue)
  | .clearQueue => some ({ s with attrs.sendQueue := none }.setWorker g .ended)
  | .ended => none

/-- The loop or the socket cannot be made, and the startup future gets the exception. -/
def stepWorkerFails (g : Nat) (s : ThreadedClient α) : Option (ThreadedClient α) := do
  let w ← s.workers[g]?
  let failed (pc : WorkerPc) := s.modifyWorker g (fun w =>
    { w with pc := pc, startup := if w.startup = .pending then .failed else w.startup })
  match w.pc with
  | .setLoop => some (failed .clearRunning)
  | .createSocket => some (failed .cleanupTracker)
  | _ => none

/-- What the loop of a serving worker does, with that worker. -/
def whileServing (g : Nat) (s : ThreadedClient α) (f : Worker → Option (ThreadedClient α)) :
    Option (ThreadedClient α) := do
  let w ← s.workers[g]?
  if w.pc = .serving then f w else none

/-- The tasks of the worker are cancelled or raise: `_cancel_tasks`, a stopped
loop, an exception that `_send_loop` does not catch. -/
def stepAborted (g : Nat) (s : ThreadedClient α) : Option (ThreadedClient α) :=
  whileServing g s (fun _ => some (s.modifyWorker g (fun w => { w with sendLoop := .ended, receiving := false })))

/-- A callback scheduled on the loop puts its message into the send queue. -/
def stepRunReady (g : Nat) (s : ThreadedClient α) : Option (ThreadedClient α) :=
  whileServing g s (fun w =>
    match w.ready with
    | [] => none
    | (q, message) :: ready =>
      some ((s.modifyWorker g (fun w => { w with ready := ready })).modifyWorker q
        (fun w => { w with queue := w.queue ++ [message] })))

def stepSendLoop (g : Nat) (s : ThreadedClient α) : Option (ThreadedClient α) :=
  whileServing g s (fun w =>
    let goes (pc : SendLoopPc) := s.modifyWorker g (fun w => { w with sendLoop := pc })
    match w.sendLoop with
    | .top =>
      match s.attrs.sendQueue with
      | some q => some (goes (if s.attrs.running ∧ s.attrs.socket.isSome then .waiting q else .ended))
      | none => some (goes .ended)
    | .waiting q =>
      match (s.workers[q]?).map Worker.queue with
      | some (message :: queue) =>
        some ((goes (if s.attrs.running then .sending message else .ended)).modifyWorker q
          (fun w => { w with queue := queue }))
      | _ => none
    | .sending _ => some (goes .top)
    | .ended => none)

/-- `send_multipart` raises, which is only logged. -/
def stepSendRaises (g : Nat) (s : ThreadedClient α) : Option (ThreadedClient α) :=
  whileServing g s (fun w =>
    match w.sendLoop with
    | .sending message =>
      some { s.modifyWorker g (fun w => { w with sendLoop := .top }) with
        dropped := s.dropped ++ message.request.toList }
    | _ => none)

/-- `_recv_loop` gets a message; one with id 0 is an event. -/
def stepReceive (m : Msgspec) (g : Nat) (parts : List Bytes) (s : ThreadedClient α) : Option (ThreadedClient α) :=
  whileServing g s (fun w =>
    if w.receiving then
      match parts with
      | [] => some s
      | idBytes :: frames =>
        if s.attrs.running ∧ intFromBytes idBytes ≠ 0 then
          some { s with requests := s.requests.resolve m (intFromBytes idBytes) frames }
        else some s
    else none)

/-- `_recv_loop` leaves its loop. -/
def stepReceiveEnds (g : Nat) (s : ThreadedClient α) : Option (ThreadedClient α) :=
  whileServing g s (fun w =>
    if w.receiving then some (s.modifyWorker g (fun w => { w with receiving := false })) else none)

def stepAcquire (pc : LockedPc) (s : ThreadedClient α) : Option (ThreadedClient α) :=
  if s.locked = none then some { s with locked := some pc } else none

def step (m : Msgspec) : ThreadLabel α → ThreadedClient α → Option (ThreadedClient α)
  | .request decode, s => some { s with requests := s.requests.addCall decode }
  | .call i encodes, s => stepCall i encodes s
  | .cancel f, s => stepCancel f s
  | .callback k encodes, s => stepCallback k encodes s
  | .start, s => stepAcquire .startClosed s
  | .close, s => stepAcquire .closeClosed s
  | .locked, s => stepLocked s
  | .timeout, s => stepTimeout s
  | .subscribe decode, s => stepSubscribe decode s
  | .worker g, s => stepWorker g s
  | .workerFails g, s => stepWorkerFails g s
  | .aborted g, s => stepAborted g s
  | .runReady g, s => stepRunReady g s
  | .sendLoop g, s => stepSendLoop g s
  | .sendRaises g, s => stepSendRaises g s
  | .receive g parts, s => stepReceive m g parts s
  | .receiveEnds g, s => stepReceiveEnds g s

/-- The first `start()`, with its worker. -/
def starts : List (ThreadLabel α) :=
  [.start, .locked, .locked, .locked, .worker 0, .worker 0, .worker 0, .worker 0, .worker 0, .worker 0, .locked, .locked]

/-- A later one, with worker `g`. -/
def restarts (g : Nat) : List (ThreadLabel α) :=
  [.start, .locked, .locked, .locked, .locked, .worker g, .worker g, .worker g, .worker g, .worker g, .worker g,
    .locked, .locked]

/-- The worker is stopped from outside and comes to its last writes. -/
def dies (g : Nat) : List (ThreadLabel α) :=
  [.aborted g, .worker g, .worker g, .worker g, .worker g, .worker g]

end ThreadedClient

end VsRemote
