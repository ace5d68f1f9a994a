import VsRemote.Addressing
import VsRemote.FramingRoundTrip
import VsRemote.OwnReplies

/-! One client of the server: its transport, the server with all its other clients, and
the network between them. -/

namespace VsRemote

/-- A call of `send_request`: what it sends and how its reply is decoded. -/
structure RequestSent (α : Type) where
  command : Command
  payloadBytes : Bytes
  decode : Bytes → Except PyExc α

/-- `arrivals` lists the tasks that handle a request of this client, each with its request. -/
structure Connection (α : Type) where
  identity : Bytes
  authToken : Option PyStr
  server : Sys
  client : Transport α := {}
  calls : List (RequestSent α) := []
  arrivals : List (Nat × Nat) := []

inductive ConnectionLabel (α : Type) where
  | client (l : TransportLabel α)
  | request (call : RequestSent α)
  | deliver (r : Nat)
  | deliverCancel (payloadBytes : Bytes)
  | foreign (msg : List Bytes)
  | server (l : Label)
  | transfer (t i : Nat)

/-- The steps of the client that are no call and no message of the server. -/
def TransportLabel.isOwn {α : Type} : TransportLabel α → Bool
  | .allocate _ | .reply _ _ | .push _ => false
  | _ => true

def Label.isRecv : Label → Bool
  | .recv _ => true
  | _ => false

/-- The token reaches the server as the client has it; an empty one is as good as none. -/
theorem messageFrames_some {authToken : Option PyStr} {reqId : Nat} {cmd : Command} {payloadBytes : Bytes}
    {frames : List Bytes} (h : messageFrames authToken reqId cmd payloadBytes = some frames) :
    ∃ extra, frames = intToBytes4 reqId :: [cmd.byte] :: payloadBytes :: extra ∧
      ∀ token, tokenRefused token (RequestEnvelope.tokenOfExtra extra) = tokenRefused token authToken := by
  unfold messageFrames at h
  split at h
  · cases h
  · cases authToken with
    | none =>
      obtain rfl := Option.some.inj h
      exact ⟨[], rfl, fun _ => rfl⟩
    | some token =>
      simp only at h
      split at h
      · next hempty =>
        subst hempty
        obtain rfl := Option.some.inj h
        refine ⟨[], rfl, fun token => ?_⟩
        cases token <;> rfl
      · next hne =>
        obtain ⟨bytes, hb, rfl⟩ := Option.map_eq_some_iff.1 h
        refine ⟨[bytes], rfl, fun _ => ?_⟩
        rw [RequestEnvelope.tokenOfExtra, if_neg (encodeUtf8_ne_nil hne hb), PyStr.decodeUtf8_eq_some_iff.2 hb]

namespace Connection

variable {α : Type}

def message (s : Connection α) (reqId : Nat) (call : RequestSent α) : Option (List Bytes) :=
  messageFrames s.authToken reqId call.command call.payloadBytes

def stepClient (m : Msgspec) (l : TransportLabel α) (s : Connection α) : Option (Connection α) := do
  let client ← Transport.step m l s.client
  some { s with client := client }

def stepRequest (m : Msgspec) (call : RequestSent α) (s : Connection α) : Option (Connection α) := do
  let client ← Transport.step m (.allocate call.decode) s.client
  some { s with client := client, calls := s.calls ++ [call] }

def stepServer (d : Daemon) (h : Host) (l : Label) (s : Connection α) : Option (Connection α) := do
  let server ← Sys.step d h l s.server
  some { s with server := server }

/-- The network may deliver a message late, again or never. -/
def stepDeliver (d : Daemon) (h : Host) (r : Nat) (s : Connection α) : Option (Connection α) := do
  let req ← s.client.requests[r]?
  let call ← s.calls[r]?
  if req.send = .enqueued then
    let frames ← s.message req.id call
    let server ← Sys.step d h (.recv (s.identity :: frames)) s.server
    some { s with server := server, arrivals := (s.server.tasks.length, r) :: s.arrivals }
  else none

/-- A message of `_cancel_request`, which has the id 0. -/
def stepDeliverCancel (d : Daemon) (h : Host) (payloadBytes : Bytes) (s : Connection α) : Option (Connection α) := do
  let frames ← messageFrames s.authToken 0 .cancelRequest payloadBytes
  stepServer d h (.recv (s.identity :: frames)) s

/-- What a message of the task is to the client. -/
def asReply (s : Connection α) (t : Nat) (origin : SendOrigin) (parts : List Bytes) : Reply :=
  ⟨if origin = .reply then s.arrivals.lookup t else none, parts⟩

/-- The router passes a message to the client it names, without the name. -/
def stepTransfer (t i : Nat) (s : Connection α) : Option (Connection α) := do
  let task ← s.server.tasks[t]?
  let (origin, parts) ← task.wire[i]?
  match parts with
  | [] => none
  | identity :: parts =>
    if identity = s.identity then
      some { s with client := { s.client with inFlight := s.client.inFlight ++ [s.asReply t origin parts] } }
    else none

def step (d : Daemon) (h : Host) (m : Msgspec) : ConnectionLabel α → Connection α → Option (Connection α)
  | .client l, s => if l.isOwn then stepClient m l s else none
  | .request call, s => stepRequest m call s
  | .deliver r, s => stepDeliver d h r s
  | .deliverCancel payloadBytes, s => stepDeliverCancel d h payloadBytes s
  | .foreign msg, s => if msg.head? = some s.identity then none else stepServer d h (.recv msg) s
  | .server l, s => if l.isRecv then none else stepServer d h l s
  | .transfer t i, s => stepTransfer t i s

def InTime (s : Connection α) : ConnectionLabel α → Prop
  | .client l => s.client.InTime l
  | _ => True

variable {d : Daemon} {h : Host} {m : Msgspec} {s s' : Connection α} {l : ConnectionLabel α}

/-- A message of `_cancel_request`. -/
def IsCancel (s : Connection α) (msg : List Bytes) : Prop :=
  ∃ payloadBytes frames, messageFrames s.authToken 0 .cancelRequest payloadBytes = some frames ∧ msg = s.identity :: frames

inductive StepTo (d : Daemon) (h : Host) (m : Msgspec) (s : Connection α) :
    ConnectionLabel α → Connection α → Prop
  | client {l : TransportLabel α} {client : Transport α} (hl : l.isOwn = true)
      (hs : Transport.step m l s.client = some client) : StepTo d h m s (.client l) { s with client := client }
  | request {call : RequestSent α} {client : Transport α}
      (hs : Transport.step m (.allocate call.decode) s.client = some client) :
      StepTo d h m s (.request call) { s with client := client, calls := s.calls ++ [call] }
  | deliver {r : Nat} {req : ClientRequest α} {call : RequestSent α} {frames : List Bytes} {server : Sys}
      (hr : s.client.requests[r]? = some req) (hc : s.calls[r]? = some call)
      (hf : s.message req.id call = some frames)
      (hs : Sys.step d h (.recv (s.identity :: frames)) s.server = some server) :
      StepTo d h m s (.deliver r)
        { s with server := server, arrivals := (s.server.tasks.length, r) :: s.arrivals }
  | server {l : ConnectionLabel α} {sl : Label} {server : Sys} (hs : Sys.step d h sl s.server = some server)
      (hsl : l = .server sl ∨ ∃ msg, sl = .recv msg)
      (hl : ∀ msg, sl = .recv msg → msg.head? = some s.identity → s.IsCancel msg) :
      StepTo d h m s l { s with server := server }
  | transfer {t i : Nat} {task : Task} {origin : SendOrigin} {parts : List Bytes}
      (ht : s.server.tasks[t]? = some task) (hi : task.wire[i]? = some (origin, s.identity :: parts)) :
      StepTo d h m s (.transfer t i)
        { s with client := { s.client with inFlight := s.client.inFlight ++ [s.asReply t origin parts] } }

theorem step_to (hs : step d h m l s = some s') : StepTo d h m s l s' := by
  cases l with
  | client l =>
    simp only [step] at hs
    split at hs
    · next hl =>
      obtain ⟨client, hc, hs⟩ := Option.bind_eq_some_iff.1 hs
      exact Option.some.inj hs ▸ .client hl hc
    · cases hs
  | request call =>
    obtain ⟨client, hc, hs⟩ := Option.bind_eq_some_iff.1 hs
    exact Option.some.inj hs ▸ .request hc
  | deliver r =>
    obtain ⟨req, hr, hs⟩ := Option.bind_eq_some_iff.1 hs
    obtain ⟨call, hc, hs⟩ := Option.bind_eq_some_iff.1 hs
    split at hs
    · obtain ⟨frames, hf, hs⟩ := Option.bind_eq_some_iff.1 hs
      obtain ⟨server, hserver, hs⟩ := Option.bind_eq_some_iff.1 hs
      exact Option.some.inj hs ▸ .deliver hr hc hf hserver
    · cases hs
  | deliverCancel payloadBytes =>
    obtain ⟨frames, hf, hs⟩ := Option.bind_eq_some_iff.1 hs
    obtain ⟨server, hserver, hs⟩ := Option.bind_eq_some_iff.1 hs
    refine Option.some.inj hs ▸ .server hserver (.inr ⟨_, rfl⟩) (fun msg he _ => ?_)
    obtain rfl := Label.recv.inj he
    exact ⟨payloadBytes, frames, hf, rfl⟩
  | foreign msg =>
    simp only [step] at hs
    split at hs
    · cases hs
    · next hne =>
      obtain ⟨server, hserver, hs⟩ := Option.bind_eq_some_iff.1 hs
      refine Option.some.inj hs ▸ .server hserver (.inr ⟨_, rfl⟩) (fun msg he hhead => ?_)
      obtain rfl := Label.recv.inj he
      exact absurd hhead hne
  | server l =>
    simp only [step] at hs
    split at hs
    · cases hs
    · next hne =>
      obtain ⟨server, hserver, hs⟩ := Option.bind_eq_some_iff.1 hs
      refine Option.some.inj hs ▸ .server hserver (.inl rfl) (fun msg he _ => ?_)
      subst he
      exact absurd rfl hne
  | transfer t i =>
    obtain ⟨task, ht, hs⟩ := Option.bind_eq_some_iff.1 hs
    obtain ⟨⟨origin, parts⟩, hi, hs⟩ := Option.bind_eq_some_iff.1 hs
    cases parts with
    | nil => cases hs
    | cons identity parts =>
      simp only at hs
      split at hs
      · next hid =>
        subst hid
        exact Option.some.inj hs ▸ .transfer ht hi
      · cases hs

/-- A message that this client has sent. -/
def FromClient (s : Connection α) (msg : List Bytes) : Prop :=
  (∃ (r : Nat) (req : ClientRequest α) (call : RequestSent α) (frames : List Bytes), s.client.requests[r]? = some req ∧
    s.message req.id call = some frames ∧ msg = s.identity :: frames) ∨ s.IsCancel msg

/-- The server receives no message in the name of this client that the client has not sent. -/
theorem step_server (hs : step d h m l s = some s') : s'.server = s.server ∨
    ∃ sl, Sys.step d h sl s.server = some s'.server ∧ (l = .server sl ∨ ∃ msg, sl = .recv msg) ∧
      ∀ msg, sl = .recv msg → msg.head? = some s.identity → s.FromClient msg := by
  cases step_to hs with
  | client => exact .inl rfl
  | request => exact .inl rfl
  | @deliver r req call frames server hr _ hf hserver =>
    refine .inr ⟨_, hserver, .inr ⟨_, rfl⟩, fun msg he _ => ?_⟩
    obtain rfl := Label.recv.inj he
    exact .inl ⟨r, req, call, frames, hr, hf, rfl⟩
  | server hserver hsl hl => exact .inr ⟨_, hserver, hsl, fun msg he hhead => .inr (hl msg he hhead)⟩
  | transfer => exact .inl rfl

/-- The task handles the message of the request. -/
structure HandledBy (s : Connection α) (t r : Nat) (task : Task) : Prop where
  present : s.server.tasks[t]? = some task
  handles : ∃ req call frames, s.client.requests[r]? = some req ∧ s.calls[r]? = some call ∧
    s.message req.id call = some frames ∧ task.msg = some (s.identity :: frames)

/-- The reply is one of those that the handler of its request has sent. -/
def Carried (s : Connection α) (reply : Reply) : Prop :=
  ∀ r, reply.request = some r → ∃ t task, s.arrivals.lookup t = some r ∧ s.HandledBy t r task ∧
    (.reply, s.identity :: reply.parts) ∈ task.wire

def DecodesAs (s : Connection α) (r : Nat) (decode : Bytes → Except PyExc α) : Prop :=
  ∃ call, s.calls[r]? = some call ∧ call.decode = decode

structure Connected (d : Daemon) (m : Msgspec) (s : Connection α) : Prop where
  sending : s.server.Sending d
  client : s.client.Inv m
  calls : s.calls.length = s.client.requests.length
  arrived : ∀ t r, s.arrivals.lookup t = some r → ∃ task, s.HandledBy t r task
  others : ∀ t task msg, s.server.tasks[t]? = some task → s.arrivals.lookup t = none → task.msg = some msg →
    msg.head? = some s.identity → ∃ rest, msg = s.identity :: intToBytes4 0 :: rest
  carried : ∀ reply ∈ s.client.inFlight, s.Carried reply
  pending : ∀ id entry, s.client.tracker.pending.get? id = some entry → s.DecodesAs entry.future entry.decode
  delivering : ∀ delivery ∈ s.client.delivering, s.DecodesAs delivery.entry.future delivery.entry.decode
  settled : ∀ r req reply, s.client.requests[r]? = some req → req.future.reply? = some reply →
    ∃ call, s.calls[r]? = some call ∧ req.future = Transport.outcome m ⟨⟨r, call.decode⟩, reply⟩

/-- Requests, calls, tasks and arrivals are only added; a task only sends more. -/
structure Extends (s s' : Connection α) : Prop where
  identity : s'.identity = s.identity
  authToken : s'.authToken = s.authToken
  requests : ∀ (r : Nat) (req : ClientRequest α), s.client.requests[r]? = some req →
    ∃ req' : ClientRequest α, s'.client.requests[r]? = some req' ∧ req'.id = req.id
  calls : ∀ (r : Nat) (call : RequestSent α), s.calls[r]? = some call → s'.calls[r]? = some call
  tasks : ∀ (t : Nat) (task : Task), s.server.tasks[t]? = some task →
    ∃ task', s'.server.tasks[t]? = some task' ∧ task'.msg = task.msg ∧ task.wire ⊆ task'.wire
  arrivals : ∀ t, t < s.server.tasks.length → s'.arrivals.lookup t = s.arrivals.lookup t

theorem tasks_extend {server : Sys} {sl : Label} (hs : Sys.step d h sl s.server = some server) (t : Nat) (task : Task)
    (ht : s.server.tasks[t]? = some task) :
    ∃ task', server.tasks[t]? = some task' ∧ task'.msg = task.msg ∧ task.wire ⊆ task'.wire := by
  obtain ⟨task', ht', hstep⟩ := Sys.step_task hs ht
  exact ⟨task', ht', hstep.msg_eq, hstep.wire_subset⟩

theorem requests_extend {client : Transport α} {cl : TransportLabel α}
    (hs : Transport.step m cl s.client = some client) (r : Nat) (req : ClientRequest α)
    (hr : s.client.requests[r]? = some req) :
    ∃ req' : ClientRequest α, client.requests[r]? = some req' ∧ req'.id = req.id := by
  obtain ⟨req', hr', hid, -⟩ := Transport.request_after hs hr
  exact ⟨req', hr', hid⟩

theorem step_extends (hs : step d h m l s = some s') : Extends s s' := by
  have hreq : ∀ (r : Nat) (req : ClientRequest α), s.client.requests[r]? = some req →
      ∃ req' : ClientRequest α, s.client.requests[r]? = some req' ∧ req'.id = req.id := fun _ req hr => ⟨req, hr, rfl⟩
  have htask : ∀ (t : Nat) (task : Task), s.server.tasks[t]? = some task →
      ∃ task', s.server.tasks[t]? = some task' ∧ task'.msg = task.msg ∧ task.wire ⊆ task'.wire :=
    fun _ task ht => ⟨task, ht, rfl, List.Subset.refl _⟩
  cases step_to hs with
  | client _ hc => exact ⟨rfl, rfl, requests_extend hc, fun _ _ hc => hc, htask, fun _ _ => rfl⟩
  | request hc => exact ⟨rfl, rfl, requests_extend hc, fun _ _ hc => Lookup.append_left hc, htask, fun _ _ => rfl⟩
  | deliver _ _ _ hserver =>
    refine ⟨rfl, rfl, hreq, fun _ _ hc => hc, tasks_extend hserver, fun t ht => ?_⟩
    have hne : (t == s.server.tasks.length) = false := beq_false_of_ne (Nat.ne_of_lt ht)
    rw [List.lookup_cons, hne]
  | server hserver => exact ⟨rfl, rfl, hreq, fun _ _ hc => hc, tasks_extend hserver, fun _ _ => rfl⟩
  | transfer => exact ⟨rfl, rfl, hreq, fun _ _ hc => hc, htask, fun _ _ => rfl⟩

theorem HandledBy.extend {t r : Nat} {task : Task} (hh : s.HandledBy t r task) (he : Extends s s') :
    ∃ task', s'.HandledBy t r task' ∧ task.wire ⊆ task'.wire := by
  obtain ⟨req, call, frames, hr, hc, hf, hmsg⟩ := hh.handles
  obtain ⟨task', ht', hmsg', hwire⟩ := he.tasks t task hh.present
  obtain ⟨req', hr', hid⟩ := he.requests r req hr
  refine ⟨task', ⟨ht', req', call, frames, hr', he.calls r call hc, ?_, ?_⟩, hwire⟩
  · rw [message, he.authToken, hid]
    exact hf
  · rw [hmsg', hmsg, he.identity]

theorem lookup_extend {t r : Nat} (hi : Connected d m s) (he : Extends s s') (hl : s.arrivals.lookup t = some r) :
    s'.arrivals.lookup t = some r := by
  obtain ⟨task, hh⟩ := hi.arrived t r hl
  rw [he.arrivals t (Lookup.lt_length hh.present), hl]

theorem Carried.extend {reply : Reply} (hc : s.Carried reply) (hi : Connected d m s) (he : Extends s s') :
    s'.Carried reply := by
  intro r hr
  obtain ⟨t, task, hl, hh, hmem⟩ := hc r hr
  obtain ⟨task', hh', hwire⟩ := hh.extend he
  refine ⟨t, task', lookup_extend hi he hl, hh', ?_⟩
  rw [he.identity]
  exact hwire hmem

theorem DecodesAs.extend {r : Nat} {decode : Bytes → Except PyExc α} (hd : s.DecodesAs r decode) (he : Extends s s') :
    s'.DecodesAs r decode := by
  obtain ⟨call, hc, hdec⟩ := hd
  exact ⟨call, he.calls r call hc, hdec⟩

theorem addressed_inFlight {client : Transport α} {replies : List Reply} {reply : Reply}
    (h : Transport.Addressed client reply) : Transport.Addressed { client with inFlight := replies } reply := by
  unfold Transport.Addressed at *
  cases hreq : reply.request with
  | none => simpa only [hreq] using h
  | some r => simpa only [hreq] using h

/-- One more message under way that is addressed as the server addresses them. -/
theorem inv_push {client : Transport α} {reply : Reply} (hi : client.Inv m) (ha : Transport.Addressed client reply) :
    Transport.Inv m { client with inFlight := client.inFlight ++ [reply] } := by
  obtain ⟨grants, cursor, hids⟩ := hi.ids
  refine ⟨⟨grants, cursor, hids.alloc, hids.next, hids.length, hids.granted⟩, ?_, ?_, ?_⟩
  · intro reply' hmem
    rcases List.mem_append.1 hmem with hmem | hmem
    · exact addressed_inFlight (hi.addressed reply' hmem)
    · rw [List.mem_singleton.1 hmem]
      exact addressed_inFlight ha
  · intro delivery hmem
    obtain ⟨hin, hown⟩ := hi.delivering delivery hmem
    exact ⟨List.mem_append_left _ hin, hown⟩
  · intro r req reply' hr hreply
    obtain ⟨hin, hrest⟩ := hi.own r req reply' hr hreply
    exact ⟨List.mem_append_left _ hin, hrest⟩

/-- What a task has put on the socket for this client names the request it handles. -/
theorem addressed_asReply (hi : Connected d m s) {t : Nat} {task : Task} {origin : SendOrigin} {parts : List Bytes}
    (ht : s.server.tasks[t]? = some task) (hmem : (origin, s.identity :: parts) ∈ task.wire) :
    Transport.Addressed s.client (s.asReply t origin parts) := by
  have haddr := (hi.sending.sent t task ht _ hmem).addresses
  unfold Transport.Addressed asReply
  cases origin with
  | reply =>
    obtain ⟨identity, reqIdBytes, rest, frames, hmsg, hparts⟩ := haddr
    obtain ⟨rfl, rfl⟩ := List.cons.inj hparts
    simp only [if_true]
    cases hl : s.arrivals.lookup t with
    | none =>
      obtain ⟨rest', hrest⟩ := hi.others t task _ ht hl hmsg rfl
      obtain ⟨-, hid⟩ := List.cons.inj hrest
      obtain ⟨rfl, -⟩ := List.cons.inj hid
      exact ⟨frames, rfl⟩
    | some r =>
      obtain ⟨task', hh⟩ := hi.arrived t r hl
      obtain ⟨req, call, frames', hr, hc, hf, hmsg'⟩ := hh.handles
      obtain ⟨extra, rfl, -⟩ := messageFrames_some hf
      have hsame : task' = task := Option.some.inj (hh.present.symm.trans ht)
      rw [hsame, hmsg] at hmsg'
      obtain ⟨-, hid⟩ := List.cons.inj (Option.some.inj hmsg')
      obtain ⟨rfl, -⟩ := List.cons.inj hid
      exact ⟨req, frames, hr, rfl⟩
  | history =>
    obtain ⟨identity, rest, frames, hmsg, hparts⟩ := haddr
    obtain ⟨-, rfl⟩ := List.cons.inj hparts
    exact ⟨frames, rfl⟩
  | broadcast =>
    obtain ⟨identity, frames, hparts⟩ := haddr
    obtain ⟨-, rfl⟩ := List.cons.inj hparts
    exact ⟨frames, rfl⟩

theorem settled_step {client : Transport α} {cl : TransportLabel α} (hi : Connected d m s)
    (hs : Transport.step m cl s.client = some client) {r : Nat} {req' : ClientRequest α} {reply : Reply}
    (hr' : client.requests[r]? = some req') (hreply : req'.future.reply? = some reply) :
    ∃ call, s.calls[r]? = some call ∧ req'.future = Transport.outcome m ⟨⟨r, call.decode⟩, reply⟩ := by
  have noReply : Transport.NoReply req'.future → False := by
    intro hn
    rw [hn] at hreply
    cases hreply
  rcases Transport.step_request hs hr' with ⟨req, hr, he | ⟨k, delivery, -, hk, rfl, he⟩⟩ | ⟨-, hn⟩
  · rcases he.future with hsame | hn
    · rw [hsame] at hreply ⊢
      exact hi.settled r req reply hr hreply
    · exact (noReply hn).elim
  · rcases he.future with hsame | hnew
    · rw [hsame] at hreply ⊢
      exact hi.settled _ req reply hr hreply
    · obtain ⟨call, hc, hdec⟩ := hi.delivering delivery (List.mem_of_getElem? hk)
      rw [hnew, Transport.reply?_outcome] at hreply
      obtain rfl := Option.some.inj hreply
      exact ⟨call, hc, by rw [hnew, hdec]⟩
  · exact (noReply hn).elim

theorem delivering_step {client : Transport α} {cl : TransportLabel α} (hi : Connected d m s)
    (hs : Transport.step m cl s.client = some client) :
    ∀ delivery ∈ client.delivering, s.DecodesAs delivery.entry.future delivery.entry.decode := by
  intro delivery hmem
  rcases Transport.step_delivering hs hmem with hold | ⟨_, _, _, -, -, -, -, hget⟩
  · exact hi.delivering delivery hold
  · exact hi.pending _ _ hget

theorem requests_length {client : Transport α} {cl : TransportLabel α} (hl : cl.isOwn = true)
    (hs : Transport.step m cl s.client = some client) : client.requests.length = s.client.requests.length ∧
      ∀ id entry, client.tracker.pending.get? id = some entry → s.client.tracker.pending.get? id = some entry := by
  rcases Transport.step_tracker hs with ⟨decode, reqId, rfl, -, -⟩ | ⟨-, hlen, hsub⟩
  · cases hl
  · exact ⟨hlen, hsub⟩

theorem inFlight_own {client : Transport α} {cl : TransportLabel α} (hl : cl.isOwn = true)
    (hs : Transport.step m cl s.client = some client) : client.inFlight = s.client.inFlight := by
  cases Transport.step_to hs with
  | reply => cases hl
  | push => cases hl
  | @receive k reply hk =>
    rcases Transport.dispatchResponse_cases (s := s.client) reply with h | ⟨_, _, _, _, _, _, h⟩
    · rw [h]
    · rw [h]
  | _ => rfl

theorem Connected.client_step {cl : TransportLabel α} {client : Transport α} (hi : Connected d m s) (hl : cl.isOwn = true)
    (hc : s.client.InTime cl) (hs : Transport.step m cl s.client = some client)
    (he : Extends s { s with client := client }) : Connected d m { s with client := client } := by
  obtain ⟨hlen, hsub⟩ := requests_length hl hs
  refine ⟨hi.sending, Transport.inv_step hi.client hc hs, hi.calls.trans hlen.symm, ?_, hi.others, ?_, ?_, ?_, ?_⟩
  · intro t r hlookup
    obtain ⟨task, hh⟩ := hi.arrived t r hlookup
    obtain ⟨task', hh', -⟩ := hh.extend he
    exact ⟨task', hh'⟩
  · intro reply hmem
    rw [show ({ s with client := client } : Connection α).client.inFlight = s.client.inFlight from inFlight_own hl hs]
      at hmem
    exact (hi.carried reply hmem).extend hi he
  · exact fun id entry hget => hi.pending id entry (hsub id entry hget)
  · exact delivering_step (s := s) hi hs
  · exact fun r req reply hr hreply => settled_step hi hs hr hreply

theorem pending_allocate {client : Transport α} {call : RequestSent α} (hi : Connected d m s)
    (hs : Transport.step m (.allocate call.decode) s.client = some client) :
    client.requests.length = s.client.requests.length + 1 ∧ client.inFlight = s.client.inFlight ∧
      ∀ id entry, client.tracker.pending.get? id = some entry →
        s.DecodesAs entry.future entry.decode ∨
          (entry.future = s.client.requests.length ∧ entry.decode = call.decode) := by
  cases Transport.step_to hs with
  | @allocate _ reqId tracker ha =>
    refine ⟨List.length_append, rfl, fun id entry hget => ?_⟩
    obtain ⟨reqId', hfree, ha⟩ := Option.bind_eq_some_iff.1 ha
    obtain ⟨rfl, rfl⟩ := Prod.mk.inj (Option.some.inj ha)
    rw [OrderedDict.get?_set] at hget
    split at hget
    · obtain rfl := Option.some.inj hget
      exact .inr ⟨rfl, rfl⟩
    · exact .inl (hi.pending id entry hget)

theorem Connected.request_step {client : Transport α} {call : RequestSent α} (hi : Connected d m s)
    (hs : Transport.step m (.allocate call.decode) s.client = some client)
    (he : Extends s { s with client := client, calls := s.calls ++ [call] }) :
    Connected d m { s with client := client, calls := s.calls ++ [call] } := by
  have hin : s.client.InTime (.allocate call.decode) := fun _ _ _ _ hl => by cases hl
  obtain ⟨hlen, hflight, hpending⟩ := pending_allocate hi hs
  refine ⟨hi.sending, Transport.inv_step hi.client hin hs, ?_, ?_, hi.others, ?_, ?_, ?_, ?_⟩
  · rw [List.length_append, hlen, hi.calls]
    rfl
  · intro t r hlookup
    obtain ⟨task, hh⟩ := hi.arrived t r hlookup
    obtain ⟨task', hh', -⟩ := hh.extend he
    exact ⟨task', hh'⟩
  · intro reply hmem
    exact (hi.carried reply (hflight ▸ hmem)).extend hi he
  · intro id entry hget
    rcases hpending id entry hget with hold | ⟨hfuture, hdecode⟩
    · exact hold.extend he
    · refine ⟨call, ?_, hdecode.symm⟩
      rw [hfuture, ← hi.calls]
      exact List.getElem?_concat_length
  · intro delivery hmem
    exact (delivering_step hi hs delivery hmem).extend he
  · intro r req reply hr hreply
    obtain ⟨call', hc, hout⟩ := settled_step hi hs hr hreply
    exact ⟨call', Lookup.append_left hc, hout⟩

/-- A step of the server that brings no request of this client. -/
theorem Connected.server_step {sl : Label} {server : Sys} (hi : Connected d m s)
    (hs : Sys.step d h sl s.server = some server)
    (hl : ∀ msg, sl = .recv msg → msg.head? = some s.identity → s.IsCancel msg)
    (he : Extends s { s with server := server }) : Connected d m { s with server := server } := by
  refine ⟨hi.sending.step hs, hi.client, hi.calls, ?_, ?_, ?_, hi.pending, hi.delivering, hi.settled⟩
  · intro t r hlookup
    obtain ⟨task, hh⟩ := hi.arrived t r hlookup
    obtain ⟨task', hh', -⟩ := hh.extend he
    exact ⟨task', hh'⟩
  · intro t task' msg ht hlookup hmsg hhead
    rcases Sys.step_trans hs ht with ⟨task, ht₀, hstep⟩ | ⟨hlen, -, -⟩
    · exact hi.others t task msg ht₀ hlookup (hstep.msg_eq ▸ hmsg) hhead
    · obtain ⟨payloadBytes, frames, hf, rfl⟩ := hl msg (Sys.step_fresh hs hlen ht hmsg) hhead
      obtain ⟨extra, rfl, -⟩ := messageFrames_some hf
      exact ⟨_, rfl⟩
  · exact fun reply hmem => (hi.carried reply hmem).extend hi he

theorem Connected.deliver_step {r : Nat} {req : ClientRequest α} {call : RequestSent α} {frames : List Bytes}
    {server : Sys} (hi : Connected d m s) (hr : s.client.requests[r]? = some req) (hc : s.calls[r]? = some call)
    (hf : s.message req.id call = some frames) (hs : Sys.step d h (.recv (s.identity :: frames)) s.server = some server)
    (he : Extends s { s with server := server, arrivals := (s.server.tasks.length, r) :: s.arrivals }) :
    Connected d m { s with server := server, arrivals := (s.server.tasks.length, r) :: s.arrivals } := by
  refine ⟨hi.sending.step hs, hi.client, hi.calls, ?_, ?_, ?_, hi.pending, hi.delivering, hi.settled⟩
  · intro t r' hlookup
    rw [List.lookup_cons] at hlookup
    split at hlookup
    · next heq =>
      obtain rfl := Option.some.inj hlookup
      obtain rfl := eq_of_beq heq
      exact ⟨_, Sys.step_recv hs, req, call, frames, hr, hc, hf, rfl⟩
    · obtain ⟨task, hh⟩ := hi.arrived t r' hlookup
      obtain ⟨task', hh', -⟩ := hh.extend he
      exact ⟨task', hh'⟩
  · intro t task' msg ht hlookup hmsg hhead
    rw [List.lookup_cons] at hlookup
    split at hlookup
    · cases hlookup
    · next hne =>
      rcases Sys.step_trans hs ht with ⟨task, ht₀, hstep⟩ | ⟨hlen, -, -⟩
      · exact hi.others t task msg ht₀ hlookup (hstep.msg_eq ▸ hmsg) hhead
      · exact absurd (beq_iff_eq.2 hlen) (by simpa using hne)
  · exact fun reply hmem => (hi.carried reply hmem).extend hi he

theorem Connected.transfer_step {t i : Nat} {task : Task} {origin : SendOrigin} {parts : List Bytes}
    (hi : Connected d m s) (ht : s.server.tasks[t]? = some task)
    (hw : task.wire[i]? = some (origin, s.identity :: parts))
    (he : Extends s { s with client :=
      { s.client with inFlight := s.client.inFlight ++ [s.asReply t origin parts] } }) :
    Connected d m { s with client :=
      { s.client with inFlight := s.client.inFlight ++ [s.asReply t origin parts] } } := by
  have hmem := List.mem_of_getElem? hw
  refine ⟨hi.sending, inv_push hi.client (addressed_asReply hi ht hmem), hi.calls, ?_, hi.others, ?_, hi.pending,
    hi.delivering, hi.settled⟩
  · intro t r hlookup
    obtain ⟨task, hh⟩ := hi.arrived t r hlookup
    obtain ⟨task', hh', -⟩ := hh.extend he
    exact ⟨task', hh'⟩
  · intro reply hreply
    rcases List.mem_append.1 hreply with hold | hnew
    · exact (hi.carried reply hold).extend hi he
    · rw [List.mem_singleton.1 hnew]
      refine Carried.extend (fun r hr => ?_) hi he
      unfold asReply at hr
      simp only at hr
      split at hr
      · next horigin =>
        subst horigin
        obtain ⟨task', hh⟩ := hi.arrived t r hr
        have hsame : task' = task := Option.some.inj (hh.present.symm.trans ht)
        exact ⟨t, task', hr, hh, hsame ▸ hmem⟩
      · cases hr

theorem Connected.step (hi : Connected d m s) (hc : s.InTime l) (hs : step d h m l s = some s') : Connected d m s' := by
  have he := step_extends hs
  cases step_to hs with
  | client hl hclient => exact hi.client_step hl hc hclient he
  | request hclient => exact hi.request_step hclient he
  | deliver hr hcall hf hserver => exact hi.deliver_step hr hcall hf hserver he
  | server hserver _ hl => exact hi.server_step hserver hl he
  | transfer ht hw => exact hi.transfer_step ht hw he

def init (identity : Bytes) (authToken : Option PyStr) (runner : RunnerState) (metrics : ServerMetricsCollector) :
    Connection α where
  identity := identity
  authToken := authToken
  server := Sys.init runner metrics

theorem connected_init (identity : Bytes) (authToken : Option PyStr) (runner : RunnerState)
    (metrics : ServerMetricsCollector) : Connected d m (init (α := α) identity authToken runner metrics) := by
  refine ⟨⟨(fun _ _ ht => by cases ht), (fun _ _ ht => by cases ht)⟩, Transport.inv_init, rfl, ?_, ?_, ?_, ?_, ?_, ?_⟩
  · exact fun _ _ hl => by cases hl
  · exact fun _ _ _ ht => by cases ht
  · exact fun _ hmem => by cases hmem
  · exact fun _ _ hget => by cases hget
  · exact fun _ hmem => by cases hmem
  · exact fun _ _ _ hr => by cases hr

theorem Connected.run {ls : List (ConnectionLabel α)} (hi : Connected d m s)
    (hg : Runs.Guarded (Connection.step d h m) InTime ls s) (hr : Runs.run (Connection.step d h m) ls s = some s') :
    Connected d m s' := hg.inv (fun _ _ _ hi hc hs => hi.step hc hs) hi hr

theorem counted_step (hi : Transport.Counted s.client) (hs : step d h m l s = some s') :
    Transport.Counted s'.client ∧ s'.client.requests.length ≤ s.client.requests.length + 1 := by
  cases step_to hs with
  | client _ hclient => exact Transport.counted_step hi hclient
  | request hclient => exact Transport.counted_step hi hclient
  | deliver => exact ⟨hi, Nat.le_succ _⟩
  | server => exact ⟨hi, Nat.le_succ _⟩
  | transfer => exact ⟨⟨hi.size, hi.others⟩, Nat.le_succ _⟩

/-- In fewer steps than there are ids every reply is in time. -/
theorem guarded_of_short {ls : List (ConnectionLabel α)} (hi : Transport.Counted s.client)
    (hshort : s.client.requests.length + ls.length < idCount) : Runs.Guarded (step d h m) InTime ls s := by
  induction ls generalizing s with
  | nil => trivial
  | cons l ls ih =>
    rw [List.length_cons] at hshort
    refine ⟨?_, fun s' hs => ?_⟩
    · cases l with
      | client l =>
        have hsingle : s.client.requests.length + [l].length < idCount := by
          have hone : [l].length = 1 := rfl
          omega
        exact (Transport.guarded_of_short (m := m) hi hsingle).1
      | _ => trivial
    · obtain ⟨hi', hlen⟩ := counted_step hi hs
      exact ih hi' (by omega)

end Connection

end VsRemote
