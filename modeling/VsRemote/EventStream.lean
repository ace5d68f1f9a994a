import VsRemote.Server
import VsRemote.Lib.Runs

/-! The events of a running server on their way to the clients: emitted by a
load, handed to the loop, broadcast to the subscribers, kept in the history of
the runner and replayed from there. Every message goes through the send lock. -/

namespace VsRemote

/-- What a message to a client carries; events are numbered as they are emitted. -/
inductive Payload where
  | live (e : Nat)
  | history (e : Nat)
  | reply
  deriving DecidableEq

/-- A task that sends one message after the other: the `send_all` of an event,
or a handler. `todo` is what it has not sent, its head while it is being sent,
and `put` tells that the socket has the head. A SUBSCRIBE_STREAM handler with
`replay_history` reads the history for its client after the reply. -/
structure Sender where
  event : Option Nat := none
  todo : List (Bytes × Payload)
  replay : Option Bytes := none
  read : Bool := false
  started : Bool := true
  put : Bool := false

/-- `calls` are the broadcasts handed over by `call_soon_threadsafe`, `capturing`
the events still to be appended to the history, `queue` the senders at the send
lock behind its holder, and `blocked` the handler that waits for the lock of the
runner on the thread of the loop. -/
structure EventStream where
  running : Bool := true
  subscribers : List Bytes := []
  loading : Bool := false
  capturing : List Nat := []
  history : List Nat := []
  next : Nat := 0
  calls : List Nat := []
  senders : List Sender := []
  queue : List Nat := []
  blocked : Option Nat := none
  sent : List (Bytes × Payload) := []

inductive StreamLabel where
  | load
  | emit (captured : Bool)
  | append (e : Nat)
  | loadEnd
  | broadcast (order : List Bytes)
  | start (t : Nat)
  | subscribe (identity : Bytes) (replayHistory : Bool)
  | unsubscribe (identity : Bytes)
  | reply (identity : Bytes)
  | put (t : Nat)
  | finish (t : Nat)
  | readHistory
  | ends (t : Nat)
  | stop
  deriving DecidableEq

namespace EventStream

/-- A server whose script has been loaded and has left events in the history. -/
def init (startup : Nat) : EventStream := { history := List.range startup, next := startup }

/-- `deque(maxlen=1000).append`. -/
def remember (history : List Nat) (e : Nat) : List Nat :=
  (history ++ [e]).drop ((history ++ [e]).length - 1000)

def modifySender (s : EventStream) (t : Nat) (f : Sender → Sender) : EventStream :=
  { s with senders := s.senders.modify t f }

/-- A handler comes to its first message and asks for the send lock. -/
def addHandler (s : EventStream) (identity : Bytes) (replay : Option Bytes) : EventStream :=
  { s with
    senders := s.senders ++ [{ todo := [(identity, .reply)], replay := replay }]
    queue := s.queue ++ [s.senders.length] }

/-- A load, or the clean-up after one, takes the lock of the runner and clears the history. -/
def stepLoad (s : EventStream) : Option EventStream :=
  if s.loading then none else some { s with loading := true, history := [] }

/-- An event is handed to `_on_event_from_thread`; one captured by a load is
appended to the history after that. -/
def stepEmit (captured : Bool) (s : EventStream) : Option EventStream :=
  if captured → s.loading then
    some { s with
      next := s.next + 1
      calls := if s.running then s.calls ++ [s.next] else s.calls
      capturing := if captured then s.capturing ++ [s.next] else s.capturing }
  else none

def stepAppend (e : Nat) (s : EventStream) : Option EventStream :=
  if e ∈ s.capturing then
    some { s with capturing := s.capturing.erase e, history := remember s.history e }
  else none

def stepLoadEnd (s : EventStream) : Option EventStream :=
  if s.loading then some { s with loading := false } else none

/-- `_broadcast_event`; the order of the snapshot is that of iterating the set. -/
def stepBroadcast (order : List Bytes) (s : EventStream) : Option EventStream :=
  match s.calls with
  | [] => none
  | e :: calls =>
    if s.blocked.isSome then none
    else if s.running = false ∨ s.subscribers = [] then some { s with calls := calls }
    else if order.Perm s.subscribers then
      some { s with
        calls := calls
        senders := s.senders ++
          [{ event := some e, todo := order.map (fun identity => (identity, .live e)), started := false }] }
    else none

/-- The first step of a `send_all` task; tasks start in the order they were created in. -/
def stepStart (t : Nat) (s : EventStream) : Option EventStream := do
  let sd ← s.senders[t]?
  if s.blocked = none ∧ sd.started = false ∧ (s.senders.take t).all Sender.started then
    let s' := s.modifySender t (fun sd => { sd with started := true })
    some { s' with queue := if sd.todo = [] then s.queue else s.queue ++ [t] }
  else none

def stepSubscribe (identity : Bytes) (replayHistory : Bool) (s : EventStream) : Option EventStream :=
  if s.blocked = none then
    let subscribers := if s.subscribers.contains identity then s.subscribers else s.subscribers ++ [identity]
    some (addHandler { s with subscribers := subscribers } identity (if replayHistory then some identity else none))
  else none

/-- UNSUBSCRIBE_STREAM and CLOSE. -/
def stepUnsubscribe (identity : Bytes) (s : EventStream) : Option EventStream :=
  if s.blocked = none then
    some (addHandler { s with subscribers := s.subscribers.filter (· ≠ identity) } identity none)
  else none

def stepReply (identity : Bytes) (s : EventStream) : Option EventStream :=
  if s.blocked = none then some (s.addHandler identity none) else none

/-- The holder of the send lock puts its message on the socket. -/
def stepPut (t : Nat) (s : EventStream) : Option EventStream := do
  let sd ← s.senders[t]?
  match sd.todo with
  | [] => none
  | message :: _ =>
    if s.blocked = none ∧ s.queue.head? = some t ∧ sd.put = false then
      some { s.modifySender t (fun sd => { sd with put := true }) with sent := s.sent ++ [message] }
    else none

/-- The holder releases the lock and asks for it again for its next message, or
goes on to read the history. -/
def stepFinish (t : Nat) (s : EventStream) : Option EventStream := do
  let sd ← s.senders[t]?
  if s.blocked = none ∧ s.queue.head? = some t ∧ sd.put then
    let s' := s.modifySender t (fun sd => { sd with todo := sd.todo.tail, put := false })
    some { s' with
      queue := if sd.todo.tail = [] then s.queue.tail else s.queue.tail ++ [t]
      blocked := if sd.todo.tail = [] ∧ sd.replay.isSome ∧ sd.read = false then some t else none }
  else none

/-- `startup_events` copies the history once no load holds the lock of the runner. -/
def stepReadHistory (s : EventStream) : Option EventStream := do
  let t ← s.blocked
  let sd ← s.senders[t]?
  let identity ← sd.replay
  if s.loading then none
  else
    let todo := s.history.map (fun e => (identity, Payload.history e))
    some { s.modifySender t (fun sd => { sd with todo := todo, read := true }) with
      queue := if s.history = [] then s.queue else s.queue ++ [t]
      blocked := none }

/-- The task is cancelled, its send raises, or the socket is gone. -/
def stepEnds (t : Nat) (s : EventStream) : Option EventStream :=
  if s.blocked = none then
    some { s.modifySender t (fun sd => { sd with todo := [], put := false }) with queue := s.queue.erase t }
  else none

/-- `stop()`; the tasks it cancels end in steps of their own. -/
def stepStop (s : EventStream) : Option EventStream :=
  if s.blocked = none then some { s with running := false, subscribers := [] } else none

def step : StreamLabel → EventStream → Option EventStream
  | .load => stepLoad
  | .emit captured => stepEmit captured
  | .append e => stepAppend e
  | .loadEnd => stepLoadEnd
  | .broadcast order => stepBroadcast order
  | .start t => stepStart t
  | .subscribe identity replayHistory => stepSubscribe identity replayHistory
  | .unsubscribe identity => stepUnsubscribe identity
  | .reply identity => stepReply identity
  | .put t => stepPut t
  | .finish t => stepFinish t
  | .readHistory => stepReadHistory
  | .ends t => stepEnds t
  | .stop => stepStop

end EventStream

/-! ## The senders are the programs of the daemon -/

/-- The program sends these messages one by one and ends. -/
inductive Sends : List (SendOrigin × List Bytes) → HandlerProg → Prop
  | nil : Sends [] (.pure (.ok ()))
  | cons {origin : SendOrigin} {parts : List Bytes} {rest : List (SendOrigin × List Bytes)}
      {k : SrvOp.Res (.send origin parts) → HandlerProg} (h : Sends rest (k (.ok ()))) :
      Sends ((origin, parts) :: rest) (.call (.send origin parts) k)

open Handler

theorem sendAll_sends (payload : Bytes) (subscribers : List Bytes) :
    Sends (subscribers.map (fun identity => (.broadcast, [identity, zeroReqId, [StatusCode.ok.byte], payload])))
      (sendAll payload subscribers).run := by
  induction subscribers with
  | nil => exact .nil
  | cons identity subscribers ih => exact .cons ih

theorem sendHistory_sends {d : Daemon} {req : RequestEnvelope} {encoded : StreamEvent → Bytes}
    (events : List StreamEvent) (hencode : ∀ event ∈ events, d.msgspec.encode event.toObj = .ok (encoded event)) :
    Sends (events.map (fun event => (.history, [req.identity, zeroReqId, [StatusCode.ok.byte], encoded event])))
      (sendHistory d req events).run := by
  induction events with
  | nil => exact .nil
  | cons event events ih =>
    have hrest := ih (fun event' he => hencode event' (List.mem_cons_of_mem _ he))
    simp only [sendHistory, hencode event (List.mem_cons_self ..)]
    exact .cons hrest

/-- The client becomes a subscriber before the reply, and the history is read after it. -/
theorem handleSubscribeStream_run {d : Daemon} {req : RequestEnvelope} {streamReq : StreamSubscribeRequest}
    (hreq : unpackPayload d.msgspec StreamSubscribeRequest req.payloadBytes = .ok streamReq) :
    (handleSubscribeStream d req).run = .call (.subscribersAdd req.identity) (fun _ =>
      .call (.send .reply [req.identity, req.reqIdBytes, [StatusCode.ok.byte], okBytes]) (fun r =>
        match r with
        | .error e => .pure (.error e)
        | .ok () =>
          if streamReq.replayHistory then
            .call (.runner .startupEvents) (fun events => (sendHistory d req events).run)
          else .pure (.ok ()))) := by
  simp only [handleSubscribeStream, hreq]
  refine congrArg (Coro.call _) (funext fun _ => congrArg (Coro.call _) (funext fun r => ?_))
  cases r with
  | error e => rfl
  | ok u => cases streamReq.replayHistory <;> rfl

end VsRemote
