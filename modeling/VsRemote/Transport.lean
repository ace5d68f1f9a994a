import VsRemote.Envelopes
import VsRemote.Lib.Runs
import VsRemote.Tracker

/-! `ClientTransport` with everything around it: the threads that call it, its
worker, and a network that may reorder, drop and repeat what the server sends. -/

namespace VsRemote

/-- A message from the server: a reply to the message of a request, or one whose
id bytes are 0. -/
structure Reply where
  request : Option Nat
  parts : List Bytes

inductive FutureState (α : Type) where
  | pending
  | result (reply : Reply) (envelope : ResponseEnvelope α)
  | exception (reply : Reply) (e : PyExc)
  | rejected (e : PyExc)
  | cancelled

def FutureState.done {α : Type} : FutureState α → Bool
  | .pending => false
  | _ => true

inductive SendState where
  | toSend
  | enqueued
  | failed
  deriving DecidableEq

/-- A call of `send_request` that got an id; `others` counts the requests that
were pending then. -/
structure ClientRequest (α : Type) where
  id : Nat
  others : Nat
  future : FutureState α := .pending
  send : SendState := .toSend
  callback : Bool := false

structure Delivery (α : Type) where
  entry : PendingEntry α
  reply : Reply

/-- `callers` counts the threads that are past the checks of `send_request`;
`inFlight` is every message the server ever sent to this client. -/
structure Transport (α : Type) where
  tracker : RequestTracker α := {}
  requests : List (ClientRequest α) := []
  callers : Nat := 0
  inFlight : List Reply := []
  delivering : List (Delivery α) := []
  closed : Bool := false
  started : Bool := false
  running : Bool := false

inductive TransportLabel (α : Type) where
  | start
  | call
  | allocate (decode : Bytes → Except PyExc α)
  | enqueue (r : Nat)
  | sendFailed (r : Nat)
  | reply (r : Nat) (frames : List Bytes)
  | push (frames : List Bytes)
  | receive (k : Nat)
  | settle (k : Nat)
  | cancel (r : Nat)
  | onCancelled (r : Nat)
  | cleanup
  | stopped
  | close

namespace Transport

variable {α : Type}

def transportClosed : PyExc := .ofText .transportClosedError "ClientTransport is closed"

def sendError (s : Transport α) : PyExc :=
  if s.closed then transportClosed
  else if s.started = false then .ofText .transportNotStartedError "Transport is not started"
  else if s.running = false then .ofText .transportNotConnectedError "Transport is not connected"
  else transportClosed

def modifyRequest (s : Transport α) (r : Nat) (f : ClientRequest α → ClientRequest α) : Transport α :=
  { s with requests := s.requests.modify r f }

/-- `future.try_set_…`: nothing once the future is done. -/
def settleFuture (state : FutureState α) (req : ClientRequest α) : ClientRequest α :=
  if req.future.done then req else { req with future := state }

/-- `future.cancel()`, which runs the callback of `send_request`. -/
def cancelFuture (req : ClientRequest α) : ClientRequest α :=
  if req.future.done then req else { req with future := .cancelled, callback := true }

/-- `PendingEntry.resolve`. -/
def outcome (m : Msgspec) (d : Delivery α) : FutureState α :=
  match ResponseEnvelope.fromFrames m d.entry.decode d.reply.parts.tail with
  | .ok envelope => .result d.reply envelope
  | .error e => .exception d.reply e

/-- `_dispatch_response`: a message with id 0 is an event. -/
def dispatchResponse (reply : Reply) (s : Transport α) : Transport α :=
  match reply.parts with
  | [] => s
  | idBytes :: _ =>
    let reqId := intFromBytes idBytes
    if reqId = 0 then s
    else
      match s.tracker.pop reqId with
      | (none, _) => s
      | (some entry, tracker) =>
        { s with tracker := tracker, delivering := s.delivering ++ [⟨entry, reply⟩] }

def stepCall (s : Transport α) : Option (Transport α) :=
  if s.closed = false ∧ s.started ∧ s.running then some { s with callers := s.callers + 1 } else none

def stepAllocate (decode : Bytes → Except PyExc α) (s : Transport α) : Option (Transport α) := do
  if s.callers = 0 then none
  else
    let (reqId, tracker) ← s.tracker.allocate ⟨s.requests.length, decode⟩
    some { s with
      tracker := tracker
      callers := s.callers - 1
      requests := s.requests ++ [{ id := reqId, others := s.tracker.pending.size }] }

def stepEnqueue (r : Nat) (s : Transport α) : Option (Transport α) := do
  let req ← s.requests[r]?
  if req.send = .toSend ∧ s.closed = false ∧ s.started ∧ s.running then
    some (s.modifyRequest r (fun req => { req with send := .enqueued }))
  else none

/-- The id is given up, whoever has it, and the future rejected. -/
def stepSendFailed (r : Nat) (s : Transport α) : Option (Transport α) := do
  let req ← s.requests[r]?
  if req.send = .toSend then
    some ({ s with tracker := (s.tracker.pop req.id).2 }.modifyRequest r
      (fun req => settleFuture (.rejected s.sendError) { req with send := .failed }))
  else none

/-- The server answers a message it got with its id bytes. -/
def stepReply (r : Nat) (frames : List Bytes) (s : Transport α) : Option (Transport α) := do
  let req ← s.requests[r]?
  if req.send = .enqueued then
    some { s with inFlight := s.inFlight ++ [⟨some r, intToBytes4 req.id :: frames⟩] }
  else none

def stepReceive (k : Nat) (s : Transport α) : Option (Transport α) := do
  let reply ← s.inFlight[k]?
  if s.running then some (s.dispatchResponse reply) else none

def stepSettle (m : Msgspec) (k : Nat) (s : Transport α) : Option (Transport α) := do
  let d ← s.delivering[k]?
  some ({ s with delivering := s.delivering.eraseIdx k }.modifyRequest d.entry.future
    (settleFuture (outcome m d)))

def stepCancel (r : Nat) (s : Transport α) : Option (Transport α) :=
  some (s.modifyRequest r cancelFuture)

/-- `_cancel_request`: the entry with the id is taken out and its future cancelled. -/
def stepOnCancelled (r : Nat) (s : Transport α) : Option (Transport α) := do
  let req ← s.requests[r]?
  if req.callback then
    let s' := s.modifyRequest r (fun req => { req with callback := false })
    match s.tracker.pop req.id with
    | (none, _) => some s'
    | (some entry, tracker) => some ({ s' with tracker := tracker }.modifyRequest entry.future cancelFuture)
  else none

/-- `RequestTracker.close()`. -/
def stepCleanup (s : Transport α) : Option (Transport α) :=
  if s.started then
    some { s with
      tracker := { s.tracker with pending := .empty }
      requests := s.requests.mapIdx (fun r req =>
        if s.tracker.pending.values.any (fun entry => entry.future = r) then
          settleFuture (.rejected transportClosed) req
        else req) }
  else none

def step (m : Msgspec) : TransportLabel α → Transport α → Option (Transport α)
  | .start, s => if s.closed then none else some { s with started := true, running := true }
  | .call, s => stepCall s
  | .allocate decode, s => stepAllocate decode s
  | .enqueue r, s => stepEnqueue r s
  | .sendFailed r, s => stepSendFailed r s
  | .reply r frames, s => stepReply r frames s
  | .push frames, s => some { s with inFlight := s.inFlight ++ [⟨none, intToBytes4 0 :: frames⟩] }
  | .receive k, s => stepReceive k s
  | .settle k, s => stepSettle m k s
  | .cancel r, s => stepCancel r s
  | .onCancelled r, s => stepOnCancelled r s
  | .cleanup, s => stepCleanup s
  | .stopped, s => if s.started then some { s with running := false } else none
  | .close, s => some { s with closed := true, running := false }

end Transport

end VsRemote
