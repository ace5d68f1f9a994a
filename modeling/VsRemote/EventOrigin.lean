import VsRemote.Agreement
import VsRemote.ClientEvents
import VsRemote.EventMessages

/-! Where the events that a client gives to `on_event` come from. -/

namespace VsRemote

/-- A client with its event thread; `emitted` records the events that the server broadcast. -/
structure Session (α : Type) where
  connection : Connection α
  events : EventPipe StreamEvent := {}
  emitted : List StreamEvent := []

/-- `start` and `close` are steps of the connection and of the event thread, which follow
each other in the code and may be any way apart here. -/
inductive SessionLabel (α : Type) where
  | connection (l : ConnectionLabel α)
  | receive (k : Nat)
  | emit (event : StreamEvent)
  | events (l : EventLabel StreamEvent)

/-- The steps of the connection that are `receive` and `emit` here. -/
def ConnectionLabel.isShared {α : Type} : ConnectionLabel α → Bool
  | .client (.receive _) => true
  | .server (.broadcast _) => true
  | _ => false

/-- A new task without a message is the broadcast of the payload. -/
theorem Sys.step_announced {d : Daemon} {h : Host} {s s' : Sys} {l : Label} {t : Nat} {task : Task}
    (hs : Sys.step d h l s = some s') (ht : t = s.tasks.length) (htask : s'.tasks[t]? = some task)
    (hmsg : task.msg = none) :
    ∃ payload subscribers, l = .broadcast payload ∧ task = { msg := none, prog := (sendAll payload subscribers).run } := by
  have hlt := Lookup.lt_length htask
  have hrecv : ∀ {msg'}, l ≠ .recv msg' := by
    rintro msg' rfl
    rw [ht, Sys.step_recv hs] at htask
    obtain rfl := Option.some.inj htask
    cases hmsg
  cases Sys.step_to hs with
  | recv => exact absurd rfl hrecv
  | recvLate => exact absurd rfl hrecv
  | broadcast =>
    rw [ht, List.getElem?_concat_length] at htask
    exact ⟨_, _, rfl, (Option.some.inj htask).symm⟩
  | _ => exact absurd hlt (by simp [Sys.length_sideEffect, ht])

namespace Connection

variable {α : Type} {d : Daemon} {h : Host} {m : Msgspec} {s s' : Connection α} {l : ConnectionLabel α}
  {emitted emitted' : List StreamEvent}

/-- A message with the id 0 is one of `_cancel_request`. -/
def OwnMessage (identity : Bytes) (authToken : Option PyStr) (msg : List Bytes) : Prop :=
  ∃ reqId cmd payloadBytes frames, messageFrames authToken reqId cmd payloadBytes = some frames ∧
    msg = identity :: frames ∧ reqId < 2 ^ 31 ∧ (reqId = 0 → cmd = .cancelRequest)

/-- The event was among the startup events that a handler of a SUBSCRIBE_STREAM of this
client was given. -/
structure Replayed (s : Connection α) (event : StreamEvent) (t : Nat) (task : Task) (req : RequestEnvelope)
    (events : List StreamEvent) : Prop where
  present : s.server.tasks[t]? = some task
  handles : ∃ msg, task.msg = some msg ∧ RequestEnvelope.fromFrames msg = .ok req
  identity : req.identity = s.identity
  command : req.command = .subscribeStream
  startup : ⟨.runner .startupEvents, events⟩ ∈ task.log
  mem : event ∈ events

/-- The task has put a message for this client on the socket that the client takes for the
event. -/
structure Told (m : Msgspec) (s : Connection α) (event : StreamEvent) (t : Nat) (task : Task) (origin : SendOrigin)
    (parts : List Bytes) : Prop where
  present : s.server.tasks[t]? = some task
  onSocket : (origin, s.identity :: parts) ∈ task.wire
  taken : eventOf m parts = some event

/-- The event was told by a broadcast of it or by the history of a subscription. -/
def Sends (m : Msgspec) (emitted : List StreamEvent) (s : Connection α) (event : StreamEvent) : Prop :=
  ∃ t task origin parts, s.Told m event t task origin parts ∧
    ((origin = .broadcast ∧ task.msg = none ∧ event ∈ emitted) ∨
      (origin = .history ∧ ∃ req events, s.Replayed event t task req events))

/-- Whatever is on its way to the client was put on the socket for it, by a task that runs
a handler of a message of this client or of another, or that broadcasts an event. -/
structure Sealed (d : Daemon) (emitted : List StreamEvent) (s : Connection α) : Prop where
  handled : s.server.Handled d
  along : ∀ (t : Nat) (task : Task), s.server.tasks[t]? = some task → task.SentAlong d
  ids : ∃ grants cursor, Transport.Ids s.client grants cursor
  own : ∀ (t : Nat) (task : Task) (msg : List Bytes), s.server.tasks[t]? = some task → task.msg = some msg →
    msg.head? = some s.identity → OwnMessage s.identity s.authToken msg
  announced : ∀ (t : Nat) (task : Task), s.server.tasks[t]? = some task → task.msg = none →
    task.Announces d.msgspec emitted
  posted : ∀ reply ∈ s.client.inFlight, ∃ (t : Nat) (task : Task) (origin : SendOrigin),
    s.server.tasks[t]? = some task ∧ (origin, s.identity :: reply.parts) ∈ task.wire

theorem Replayed.mono {event : StreamEvent} {t : Nat} {task task' : Task} {req : RequestEnvelope}
    {events : List StreamEvent} (hr : s.Replayed event t task req events) (hid : s'.identity = s.identity)
    (ht : s'.server.tasks[t]? = some task') (hmsg : task'.msg = task.msg) (hlog : task.log <+: task'.log) :
    s'.Replayed event t task' req events := by
  obtain ⟨msg, hhandles, hreq⟩ := hr.handles
  exact ⟨ht, ⟨msg, hmsg.trans hhandles, hreq⟩, hr.identity.trans hid.symm, hr.command, hlog.subset hr.startup, hr.mem⟩

theorem Sends.mono {event : StreamEvent} (hs : Connection.step d h m l s = some s') (hsub : emitted ⊆ emitted')
    (he : Sends d.msgspec emitted s event) : Sends d.msgspec emitted' s' event := by
  have hext := step_extends hs
  obtain ⟨t, task, origin, parts, htold, horigin⟩ := he
  obtain ⟨task', ht', hmsg, hwire, hlog⟩ : ∃ task', s'.server.tasks[t]? = some task' ∧ task'.msg = task.msg ∧
      task.wire ⊆ task'.wire ∧ task.log <+: task'.log := by
    rcases step_server hs with hsame | ⟨sl, hserver, -, -⟩
    · exact ⟨task, hsame ▸ htold.present, rfl, List.Subset.refl _, List.prefix_rfl⟩
    · obtain ⟨task', ht', hstep⟩ := Sys.step_task hserver htold.present
      exact ⟨task', ht', hstep.msg_eq, hstep.wire_subset, hstep.log_prefix⟩
  refine ⟨t, task', origin, parts, ⟨ht', hext.identity ▸ hwire htold.onSocket, htold.taken⟩, horigin.imp ?_ ?_⟩
  · rintro ⟨rfl, hnone, hmem⟩
    exact ⟨rfl, hmsg.trans hnone, hsub hmem⟩
  · rintro ⟨rfl, req, events, hreplayed⟩
    exact ⟨rfl, req, events, hreplayed.mono hext.identity ht' hmsg hlog⟩

theorem ids_range {grants : List CyclicAlloc.Grant} {cursor r : Nat} {req : ClientRequest α} {client : Transport α}
    (hi : Transport.Ids client grants cursor) (hr : client.requests[r]? = some req) : req.id ≠ 0 ∧ req.id < 2 ^ 31 := by
  have hlt : r < grants.length := hi.length ▸ Lookup.lt_length hr
  obtain ⟨hid, -⟩ := hi.granted r _ req (List.getElem?_eq_getElem hlt) hr
  have hmod : (grants[r]).pos % idCount < idCount := Nat.mod_lt _ (by decide)
  rw [hid]
  refine ⟨RequestTracker.idAt_pos _, ?_⟩
  unfold CyclicAlloc.idAt idCount at *
  omega

theorem Sealed.own_message {msg : List Bytes} (hi : Sealed d emitted s) (hc : s.FromClient msg) :
    OwnMessage s.identity s.authToken msg := by
  rcases hc with ⟨r, req, call, frames, hr, hf, hmsg⟩ | ⟨payloadBytes, frames, hf, hmsg⟩
  · obtain ⟨grants, cursor, hids⟩ := hi.ids
    obtain ⟨hne, hlt⟩ := ids_range hids hr
    exact ⟨req.id, call.command, call.payloadBytes, frames, hf, hmsg, hlt, fun h0 => absurd h0 hne⟩
  · exact ⟨0, .cancelRequest, payloadBytes, frames, hf, hmsg, by decide, fun _ => rfl⟩

theorem ids_step (hi : ∃ grants cursor, Transport.Ids s.client grants cursor) (hs : Connection.step d h m l s = some s') :
    ∃ grants cursor, Transport.Ids s'.client grants cursor := by
  obtain ⟨grants, cursor, hids⟩ := hi
  cases step_to hs with
  | client _ hclient => exact Transport.ids_step hids hclient
  | request hclient => exact Transport.ids_step hids hclient
  | deliver => exact ⟨grants, cursor, hids⟩
  | server => exact ⟨grants, cursor, hids⟩
  | transfer => exact ⟨grants, cursor, hids.alloc, hids.next, hids.length, hids.granted⟩

theorem inFlight_step {reply : Reply} (hs : Connection.step d h m l s = some s') (hmem : reply ∈ s'.client.inFlight) :
    reply ∈ s.client.inFlight ∨ ∃ (t : Nat) (task : Task) (origin : SendOrigin), s.server.tasks[t]? = some task ∧
      (origin, s.identity :: reply.parts) ∈ task.wire := by
  cases step_to hs with
  | client hl hclient => exact .inl (inFlight_own hl hclient ▸ hmem)
  | request hclient =>
    cases Transport.step_to hclient with
    | allocate => exact .inl hmem
  | deliver => exact .inl hmem
  | server => exact .inl hmem
  | transfer ht hw =>
    rcases List.mem_append.1 hmem with hm | hm
    · exact .inl hm
    · rw [List.mem_singleton.1 hm]
      exact .inr ⟨_, _, _, ht, List.mem_of_getElem? hw⟩

theorem Sealed.step (hi : Sealed d emitted s) (hs : Connection.step d h m l s = some s') (hsub : emitted ⊆ emitted')
    (hl : ∀ payload, l = .server (.broadcast payload) → ∃ event ∈ emitted', d.msgspec.encode event.toObj = .ok payload) :
    Sealed d emitted' s' := by
  have hext := step_extends hs
  have hposted : ∀ reply ∈ s'.client.inFlight, ∃ (t : Nat) (task : Task) (origin : SendOrigin),
      s'.server.tasks[t]? = some task ∧ (origin, s'.identity :: reply.parts) ∈ task.wire := by
    intro reply hmem
    obtain ⟨t, task, origin, ht, hw⟩ := (inFlight_step hs hmem).elim (hi.posted reply) id
    obtain ⟨task', ht', -, hwire⟩ := hext.tasks t task ht
    exact ⟨t, task', origin, ht', hext.identity ▸ hwire hw⟩
  have hids := ids_step hi.ids hs
  rcases step_server hs with hsame | ⟨sl, hserver, hsl, hclient⟩
  · refine ⟨hsame ▸ hi.handled, hsame ▸ hi.along, hids, ?_, ?_, hposted⟩
    · rw [hsame, hext.identity, hext.authToken]
      exact hi.own
    · rw [hsame]
      exact fun t task ht hmsg => (hi.announced t task ht hmsg).mono hsub
  · refine ⟨hi.handled.step hserver, fun t task' ht => ?_, hids, fun t task' msg ht hmsg hhead => ?_,
      fun t task' ht hmsg => ?_, hposted⟩
    · rcases Sys.step_trans hserver ht with ⟨task, ht, hstep⟩ | ⟨-, -, hf⟩
      · exact (hi.along t task ht).step (hi.handled t task ht) hstep
      · cases hf with
        | request msg => exact fun message hm => by cases hm
        | broadcast payload subscribers => exact fun message hm => by cases hm
    · rw [hext.identity, hext.authToken] at *
      rcases Sys.step_trans hserver ht with ⟨task, ht₀, hstep⟩ | ⟨hlen, -, -⟩
      · exact hi.own t task msg ht₀ (hstep.msg_eq ▸ hmsg) hhead
      · exact hi.own_message (hclient msg (Sys.step_fresh hserver hlen ht hmsg) hhead)
    · rcases Sys.step_trans hserver ht with ⟨task, ht₀, hstep⟩ | ⟨hlen, -, -⟩
      · exact ((hi.announced t task ht₀ (hstep.msg_eq ▸ hmsg)).mono hsub).step hstep
      · obtain ⟨payload, subscribers, rfl, rfl⟩ := Sys.step_announced hserver hlen ht hmsg
        rcases hsl with hsl | ⟨msg, hsl⟩
        · obtain ⟨event, hevent, henc⟩ := hl payload hsl
          exact ⟨event, hevent, payload, subscribers, henc, .inl (.nil _), fun message hm => by cases hm⟩
        · cases hsl

/-- The bytes of a reply to the client are those of a request of its own, or of a
`_cancel_request`, which is never answered with `OK`. -/
theorem Sealed.reply_not_event {t : Nat} {task : Task} {parts : List Bytes} {event : StreamEvent} (hi : Sealed d emitted s)
    (ht : s.server.tasks[t]? = some task) (hw : (.reply, s.identity :: parts) ∈ task.wire)
    (hmsg : ∃ msg, task.msg = some msg) : eventOf d.msgspec parts ≠ some event := by
  intro he
  obtain ⟨msg, hmsg⟩ := hmsg
  obtain ⟨idBytes, payload, rest, rfl, hzero, -⟩ := eventOf_eq_some he
  obtain ⟨start, tr, k, hstart, -, hf⟩ := hi.along t task ht _ hw
  rw [hmsg] at hstart
  obtain rfl : start = (handleRequest d msg).run := hstart
  obtain ⟨identity, reqIdBytes, rest', frames, hsome, hsame⟩ := (sendsWithin_addresses d msg).of_maySend hf
  obtain ⟨rfl, htail⟩ := List.cons.inj hsame
  obtain ⟨rfl, -⟩ := List.cons.inj htail
  obtain rfl := Option.some.inj hsome
  obtain ⟨reqId, cmd, payloadBytes, frames', hframes, hown, hlt, hcancel⟩ := hi.own t task _ ht hmsg rfl
  obtain ⟨extra, rfl, -⟩ := messageFrames_some hframes
  obtain ⟨-, hown⟩ := List.cons.inj hown
  obtain ⟨rfl, rfl⟩ := List.cons.inj hown
  rw [intFromBytes_intToBytes4 (Nat.lt_trans hlt (by decide))] at hzero
  obtain rfl := hcancel hzero
  have hnotOk : NotOk .reply _ :=
    (sendsWithin_cancel (fromFrames_byte s.identity (intToBytes4 reqId) payloadBytes .cancelRequest extra) rfl).of_maySend hf
  exact absurd rfl hnotOk

/-- What the client takes for an event is one. -/
theorem Sealed.event_sent {event : StreamEvent} (hi : Sealed d emitted s) (hm : d.msgspec.Lawful) {reply : Reply}
    (hmem : reply ∈ s.client.inFlight) (he : eventOf d.msgspec reply.parts = some event) :
    Sends d.msgspec emitted s event := by
  obtain ⟨t, task, origin, ht, hw⟩ := hi.posted reply hmem
  refine ⟨t, task, origin, reply.parts, ⟨ht, hw, he⟩, ?_⟩
  obtain ⟨idBytes, payload, rest, hparts, -, hunpack⟩ := eventOf_eq_some he
  cases hmsg : task.msg with
  | none =>
    obtain ⟨event', hevent', payload', subscribers, henc, -, hwire⟩ := hi.announced t task ht hmsg
    obtain ⟨identity, hsame⟩ := hwire _ hw
    rw [hparts] at hsame
    simp only [Prod.mk.injEq, List.cons.injEq] at hsame
    obtain ⟨rfl, -, -, -, rfl, -⟩ := hsame
    rw [eq_of_unpackEvent hm henc hunpack]
    exact .inl ⟨rfl, rfl, hevent'⟩
  | some msg =>
    obtain ⟨start, tr, k, hstart, -, hf⟩ := hi.along t task ht _ hw
    rw [hmsg] at hstart
    obtain rfl : start = (handleRequest d msg).run := hstart
    have horigin := (sendsWithin_requestOrigin d msg).of_maySend hf
    cases origin with
    | reply => exact absurd he (hi.reply_not_event ht hw ⟨msg, hmsg⟩)
    | history =>
      obtain ⟨req, events, hreq, hcmd, hstartup, event', hevent', payload', henc, hsame⟩ :=
        (hi.along t task ht).replayed hmsg hw
      rw [hparts] at hsame
      simp only [List.cons.injEq] at hsame
      obtain ⟨hid, -, -, rfl, -⟩ := hsame
      rw [eq_of_unpackEvent hm henc hunpack]
      exact .inr ⟨rfl, req, events, ht, ⟨msg, hmsg, hreq⟩, hid.symm, hcmd, hstartup, hevent'⟩
    | broadcast => exact horigin.elim

theorem sealed_init (identity : Bytes) (authToken : Option PyStr) (runner : RunnerState)
    (metrics : ServerMetricsCollector) : Sealed d [] (init (α := α) identity authToken runner metrics) := by
  obtain ⟨grants, cursor, hids⟩ := (Transport.inv_init (α := α) (m := d.msgspec)).ids
  refine ⟨?_, ?_, ⟨grants, cursor, hids⟩, ?_, ?_, ?_⟩
  · exact fun _ _ ht => by cases ht
  · exact fun _ _ ht => by cases ht
  · exact fun _ _ _ ht => by cases ht
  · exact fun _ _ ht => by cases ht
  · exact fun _ hmem => by cases hmem

end Connection

namespace Session

variable {α : Type} {d : Daemon} {h : Host} {s s' : Session α} {l : SessionLabel α} {ls : List (SessionLabel α)}

def stepConnection (d : Daemon) (h : Host) (l : ConnectionLabel α) (s : Session α) : Option (Session α) :=
  if l.isShared then none
  else do
    let connection ← Connection.step d h d.msgspec l s.connection
    some { s with connection := connection }

/-- The receive loop takes the next message when it is done with the last. -/
def stepReceive (d : Daemon) (h : Host) (k : Nat) (s : Session α) : Option (Session α) := do
  let reply ← s.connection.client.inFlight[k]?
  let connection ← Connection.step d h d.msgspec (.client (.receive k)) s.connection
  match s.events.dispatching, eventOf d.msgspec reply.parts with
  | .idle, none => some { s with connection := connection }
  | .idle, some event => do
    let events ← EventPipe.step (.dispatch event) s.events
    some { s with connection := connection, events := events }
  | _, _ => none

/-- `_broadcast_event` of an event that msgspec can encode. -/
def stepEmit (d : Daemon) (h : Host) (event : StreamEvent) (s : Session α) : Option (Session α) :=
  match d.msgspec.encode event.toObj with
  | .error _ => none
  | .ok payload => do
    let connection ← Connection.step d h d.msgspec (.server (.broadcast payload)) s.connection
    some { s with connection := connection, emitted := s.emitted ++ [event] }

def stepEvents (l : EventLabel StreamEvent) (s : Session α) : Option (Session α) :=
  match l.event? with
  | some _ => none
  | none => do
    let events ← EventPipe.step l s.events
    some { s with events := events }

def step (d : Daemon) (h : Host) : SessionLabel α → Session α → Option (Session α)
  | .connection l, s => stepConnection d h l s
  | .receive k, s => stepReceive d h k s
  | .emit event, s => stepEmit d h event s
  | .events l, s => stepEvents l s

def init (identity : Bytes) (authToken : Option PyStr) (runner : RunnerState) (metrics : ServerMetricsCollector) :
    Session α where
  connection := Connection.init identity authToken runner metrics

inductive StepTo (d : Daemon) (h : Host) (s : Session α) (l : SessionLabel α) : Session α → Prop
  | connection {cl : ConnectionLabel α} {connection : Connection α} (hl : cl.isShared = false) (hlabel : l = .connection cl)
      (hs : Connection.step d h d.msgspec cl s.connection = some connection) :
      StepTo d h s l { s with connection := connection }
  | receive {k : Nat} {connection : Connection α} {events : EventPipe StreamEvent}
      (hs : Connection.step d h d.msgspec (.client (.receive k)) s.connection = some connection)
      (he : events = s.events ∨ ∃ reply ∈ s.connection.client.inFlight, ∃ event,
        eventOf d.msgspec reply.parts = some event ∧ EventPipe.step (.dispatch event) s.events = some events) :
      StepTo d h s l { s with connection := connection, events := events }
  | emit {event : StreamEvent} {payload : Bytes} {connection : Connection α} (hl : l = .emit event)
      (henc : d.msgspec.encode event.toObj = .ok payload)
      (hs : Connection.step d h d.msgspec (.server (.broadcast payload)) s.connection = some connection) :
      StepTo d h s l { s with connection := connection, emitted := s.emitted ++ [event] }
  | events {el : EventLabel StreamEvent} {events : EventPipe StreamEvent} (hl : el.event? = none)
      (hs : EventPipe.step el s.events = some events) : StepTo d h s l { s with events := events }

theorem step_to (hs : step d h l s = some s') : StepTo d h s l s' := by
  cases l with
  | connection cl =>
    simp only [step, stepConnection] at hs
    split at hs
    · cases hs
    · next hl =>
      obtain ⟨connection, hc, hs⟩ := Option.bind_eq_some_iff.1 hs
      exact Option.some.inj hs ▸ .connection (Bool.eq_false_iff.2 hl) rfl hc
  | receive k =>
    obtain ⟨reply, hk, hs⟩ := Option.bind_eq_some_iff.1 hs
    obtain ⟨connection, hc, hs⟩ := Option.bind_eq_some_iff.1 hs
    split at hs
    · exact Option.some.inj hs ▸ .receive hc (.inl rfl)
    · next event _ he =>
      obtain ⟨events, hevents, hs⟩ := Option.bind_eq_some_iff.1 hs
      exact Option.some.inj hs ▸ .receive hc (.inr ⟨reply, List.mem_of_getElem? hk, event, he, hevents⟩)
    · cases hs
  | emit event =>
    simp only [step, stepEmit] at hs
    split at hs
    · cases hs
    · next payload henc =>
      obtain ⟨connection, hc, hs⟩ := Option.bind_eq_some_iff.1 hs
      exact Option.some.inj hs ▸ .emit rfl henc hc
  | events el =>
    simp only [step, stepEvents] at hs
    split at hs
    · cases hs
    · next hl =>
      obtain ⟨events, he, hs⟩ := Option.bind_eq_some_iff.1 hs
      exact Option.some.inj hs ▸ .events hl he

structure Genuine (d : Daemon) (s : Session α) : Prop where
  connection : Connection.Sealed d s.emitted s.connection
  orderly : s.events.Orderly
  sent : ∀ event ∈ s.events.seen, Connection.Sends d.msgspec s.emitted s.connection event

theorem not_broadcast {cl : ConnectionLabel α} {emitted : List StreamEvent} (hl : cl.isShared = false) (payload : Bytes)
    (he : cl = .server (.broadcast payload)) : ∃ event ∈ emitted, d.msgspec.encode event.toObj = .ok payload := by
  subst he
  cases hl

theorem Genuine.step (hi : s.Genuine d) (hm : d.msgspec.Lawful) (hs : Session.step d h l s = some s') : s'.Genuine d := by
  cases step_to hs with
  | connection hl _ hc =>
    refine ⟨hi.connection.step hc (List.Subset.refl _) (not_broadcast hl), hi.orderly, fun event hmem => ?_⟩
    exact (hi.sent event hmem).mono hc (List.Subset.refl _)
  | receive hc he =>
    have hsealed := hi.connection.step hc (List.Subset.refl _) (fun payload h => by cases h)
    have hkept : ∀ event, Connection.Sends d.msgspec s.emitted s.connection event →
        Connection.Sends d.msgspec s.emitted _ event :=
      fun event hsent => hsent.mono hc (List.Subset.refl _)
    rcases he with rfl | ⟨reply, hmem, event, hevent, hdispatch⟩
    · exact ⟨hsealed, hi.orderly, fun event hmem => hkept event (hi.sent event hmem)⟩
    · refine ⟨hsealed, hi.orderly.step hdispatch, fun event' hmem' => hkept event' ?_⟩
      rcases EventPipe.step_seen hdispatch hmem' with hold | hnew
      · exact hi.sent event' hold
      · rw [EventLabel.dispatch.inj hnew] at hevent
        exact hi.connection.event_sent hm hmem hevent
  | @emit event payload connection hl henc hc =>
    have hsub : s.emitted ⊆ s.emitted ++ [event] := List.subset_append_left _ _
    refine ⟨hi.connection.step hc hsub (fun payload' he => ?_), hi.orderly, fun event' hmem => ?_⟩
    · obtain rfl := Label.broadcast.inj (ConnectionLabel.server.inj he)
      exact ⟨event, List.mem_append_right _ (List.mem_singleton.2 rfl), henc⟩
    · exact (hi.sent event' hmem).mono hc hsub
  | events hl he =>
    refine ⟨hi.connection, hi.orderly.step he, fun event hmem => ?_⟩
    rcases EventPipe.step_seen he hmem with hold | rfl
    · exact hi.sent event hold
    · cases hl

theorem emitted_step {event : StreamEvent} (hs : step d h l s = some s') (hmem : event ∈ s'.emitted) :
    event ∈ s.emitted ∨ l = .emit event := by
  cases step_to hs with
  | emit hl =>
    rcases List.mem_append.1 hmem with hold | hnew
    · exact .inl hold
    · exact .inr (List.mem_singleton.1 hnew ▸ hl)
  | _ => exact .inl hmem

theorem emitted_run {event : StreamEvent} (hr : Runs.run (step d h) ls s = some s') (hmem : event ∈ s'.emitted) :
    event ∈ s.emitted ∨ .emit event ∈ ls := by
  induction ls generalizing s with
  | nil => exact .inl (Option.some.inj hr ▸ hmem)
  | cons l ls ih =>
    obtain ⟨u, hs, hr⟩ := Runs.run_cons_some hr
    rcases ih hr with hold | hlater
    · rcases emitted_step hs hold with hold | rfl
      · exact .inl hold
      · exact .inr (List.mem_cons_self ..)
    · exact .inr (List.mem_cons_of_mem _ hlater)

/-- The handler has been given these startup events. -/
def HasStartup (t : Nat) (events : List StreamEvent) (s : Session α) : Prop :=
  ∃ task, s.connection.server.tasks[t]? = some task ∧ ⟨.runner .startupEvents, events⟩ ∈ task.log

/-- At this point of the run the task asked the runner for its startup events, and the runner
had these. -/
def ReadStartup (d : Daemon) (h : Host) (ls : List (SessionLabel α)) (start : Session α) (t : Nat)
    (events : List StreamEvent) : Prop :=
  ∃ before c after u task k, ls = before ++ .connection (.server (.sync t c)) :: after ∧
    Runs.run (step d h) before start = some u ∧ u.connection.server.tasks[t]? = some task ∧
      task.prog = .call (.runner .startupEvents) k ∧ u.connection.server.srv.runner.runner.startupEvents = events

theorem step_hasStartup {t : Nat} {events : List StreamEvent} (hs : step d h l s = some s') (hno : ¬ s.HasStartup t events)
    (hyes : s'.HasStartup t events) : ∃ c task k, l = .connection (.server (.sync t c)) ∧
      s.connection.server.tasks[t]? = some task ∧ task.prog = .call (.runner .startupEvents) k ∧
        s.connection.server.srv.runner.runner.startupEvents = events := by
  have hconnection : ∀ {cl : ConnectionLabel α}, Connection.step d h d.msgspec cl s.connection = some s'.connection →
      ∃ c task k, cl = .server (.sync t c) ∧ s.connection.server.tasks[t]? = some task ∧
        task.prog = .call (.runner .startupEvents) k ∧ s.connection.server.srv.runner.runner.startupEvents = events := by
    intro cl hc
    rcases Connection.step_server hc with hsame | ⟨sl, hserver, hsl, -⟩
    · unfold HasStartup at hno hyes
      rw [hsame] at hyes
      exact absurd hyes hno
    · obtain ⟨task', ht, hmem⟩ := hyes
      rcases Sys.step_answered hserver ht hmem with hold | ⟨⟨c, task, k, rfl, hpresent, hp⟩, hanswer⟩
      · exact absurd hold hno
      · rcases hsl with rfl | ⟨msg, hmsg⟩
        · exact ⟨c, task, k, rfl, hpresent, hp, hanswer.symm⟩
        · cases hmsg
  cases step_to hs with
  | connection _ hlabel hc =>
    obtain ⟨c, task, k, rfl, hrest⟩ := hconnection hc
    exact ⟨c, task, k, hlabel, hrest⟩
  | receive hc =>
    obtain ⟨c, task, k, hl, -⟩ := hconnection hc
    cases hl
  | emit _ _ hc =>
    obtain ⟨c, task, k, hl, -⟩ := hconnection hc
    cases hl
  | events => exact absurd hyes hno

theorem genuine_init (identity : Bytes) (authToken : Option PyStr) (runner : RunnerState)
    (metrics : ServerMetricsCollector) : (init (α := α) identity authToken runner metrics).Genuine d :=
  ⟨Connection.sealed_init identity authToken runner metrics, EventPipe.orderly_init, fun _ hmem => by cases hmem⟩

/-- In every run of the server, of any other clients, of a client with its event thread, and
of a network that delays, loses and repeats messages: an event that `on_event` is given was
told, unchanged, by a message of a broadcast of it, or by one of the history that a
SUBSCRIBE_STREAM of this client has made of the startup events it read from the runner. No
reply passes for an event. -/
theorem handled_events_genuine {identity : Bytes} {authToken : Option PyStr} {runner : RunnerState}
    {metrics : ServerMetricsCollector} (hm : d.msgspec.Lawful)
    (hr : Runs.run (step d h) ls (init identity authToken runner metrics) = some s) :
    ∀ event ∈ s.events.handled, ∃ t task origin parts, s.connection.Told d.msgspec event t task origin parts ∧
      ((origin = .broadcast ∧ task.msg = none ∧ .emit event ∈ ls) ∨
        (origin = .history ∧ ∃ req events, s.connection.Replayed event t task req events ∧
          ReadStartup d h ls (init identity authToken runner metrics) t events)) := by
  intro event hmem
  have hi : s.Genuine d := Runs.run_inv (fun _ _ _ hi hs => hi.step hm hs) (genuine_init identity authToken runner metrics) hr
  have hseen : event ∈ s.events.seen := List.mem_append_left _ (hi.orderly.handled_sublist.subset hmem)
  obtain ⟨t, task, origin, parts, htold, horigin⟩ := hi.sent event hseen
  refine ⟨t, task, origin, parts, htold, horigin.imp ?_ ?_⟩
  · rintro ⟨horigin, hnone, hemitted⟩
    refine ⟨horigin, hnone, (emitted_run hr hemitted).resolve_left (fun h => ?_)⟩
    cases h
  · rintro ⟨horigin, req, events, hreplayed⟩
    refine ⟨horigin, req, events, hreplayed, ?_⟩
    have hnone : ¬ (init (α := α) identity authToken runner metrics).HasStartup t events := by
      rintro ⟨_, ht, -⟩
      cases ht
    obtain ⟨before, l, after, u, v, hls, hbefore, hstep, hno, hyes⟩ :=
      Runs.exists_turn hnone hr (P := HasStartup t events) ⟨task, hreplayed.present, hreplayed.startup⟩
    obtain ⟨c, task', k, rfl, hread⟩ := step_hasStartup hstep hno hyes
    exact ⟨before, c, after, u, task', k, hls, hbefore, hread⟩

def startupEvent : StreamEvent := .stream ⟨"stdout", "loading"⟩

def liveEvent : StreamEvent := .stream ⟨"stderr", "rendering"⟩

/-- msgspec, as far as these two and the defaults of a request go. -/
def eventCodec : Msgspec where
  encode
    | .map [("type", .str "stream"), ("stream", .str "stdout"), ("text", .str "loading")] => .ok [0x83, 1]
    | .map [("type", .str "stream"), ("stream", .str "stderr"), ("text", .str "rendering")] => .ok [0x83, 2]
    | _ => .error (.ofText .typeError "unsupported")
  decode b :=
    if b = [0x83, 1] then .ok startupEvent.toObj
    else if b = [0x83, 2] then .ok liveEvent.toObj
    else if b = [0x80] then .ok (.map [])
    else .error "MessagePack data is malformed"

theorem eventCodec_lawful : eventCodec.Lawful := by
  refine Msgspec.lawful_of_forms [(startupEvent.toObj, [0x83, 1]), (liveEvent.toObj, [0x83, 2])] ?_ ?_
  · intro o b h
    simp only [eventCodec] at h
    split at h
    · obtain rfl := Except.ok.inj h
      exact .head _
    · obtain rfl := Except.ok.inj h
      exact .tail _ (.head _)
    · cases h
  · exact List.forall_mem_cons.2
      ⟨⟨List.cons_ne_nil _ _, rfl⟩, List.forall_mem_singleton.2 ⟨List.cons_ne_nil _ _, rfl⟩⟩

def eventDaemon : Daemon := { msgspec := eventCodec }

def subscribeStart : Session Bytes := init [7] none ⟨{ startupEvents := [startupEvent] }, .empty, []⟩ { startTime := 0 }

/-- A client subscribes, has the startup event replayed and gets a live one. -/
def subscribeSession : List (SessionLabel Bytes) :=
  [.events .start, .connection (.client .start), .connection (.client .call),
    .connection (.request ⟨.subscribeStream, [], .ok⟩), .connection (.client (.enqueue 0)), .connection (.deliver 0),
    .connection (.server (.sync 0 .ok)), .connection (.server (.sync 0 .ok)), .connection (.server (.sync 0 (.time 0))),
    .connection (.server (.sync 0 .ok)), .connection (.server (.put 0 none)), .connection (.server (.resume 0)),
    .connection (.server (.sync 0 .ok)), .connection (.server (.put 0 none)), .emit liveEvent,
    .connection (.server (.resume 0)), .connection (.server (.sync 0 (.time 0))), .connection (.server (.sync 0 .ok)),
    .connection (.server (.put 1 none)), .connection (.transfer 0 1), .connection (.transfer 1 0),
    .connection (.transfer 0 0), .receive 2, .receive 0, .events .load, .events .put, .events (.test 0),
    .events (.fetch 0), .events (.take 0), .receive 1, .events .load, .events .put, .events (.handle 0 false),
    .events (.test 0), .events (.fetch 0), .events (.take 0)]

theorem handled_events_genuine_subscribe : ∃ s, Runs.run (step eventDaemon Host.plain) subscribeSession subscribeStart = some s ∧
    s.events.handled = [startupEvent, liveEvent] ∧
      ∀ event ∈ s.events.handled, ∃ t task origin parts, s.connection.Told eventCodec event t task origin parts ∧
        ((origin = .broadcast ∧ task.msg = none ∧ .emit event ∈ subscribeSession) ∨
          (origin = .history ∧ ∃ req events, s.connection.Replayed event t task req events ∧
            ReadStartup eventDaemon Host.plain subscribeSession subscribeStart t events)) := by
  refine ⟨_, rfl, rfl, ?_⟩
  exact handled_events_genuine (d := eventDaemon) eventCodec_lawful rfl

end Session

end VsRemote
