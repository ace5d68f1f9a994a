import VsRemote.Addressing

/-! Events as messages: the struct under its tag, and what the tasks of the server send
that a client may take for one. -/

namespace VsRemote

open Coro (Follows)
open Handler

/-- `Literal["stdout", "stderr"]`. -/
def Obj.asStreamName (o : Obj) : Except String String := do
  let name ← o.asStr
  if name = "stdout" ∨ name = "stderr" then .ok name else .error "Invalid enum value"

/-- `tuple[Any, ...]`. -/
def Obj.asTuple : Obj → Except String (List Obj)
  | .array xs => .ok xs
  | _ => .error "Expected `array`"

open Obj

def StreamOutputEvent.ofFields (kvs : List (String × Obj)) : Except String StreamOutputEvent := do
  let stream ← required kvs "stream" asStreamName
  let text ← required kvs "text" asStr
  pure { stream, text }

def RemoteLogRecord.ofFields (kvs : List (String × Obj)) : Except String RemoteLogRecord := do
  let name ← required kvs "name" asStr
  let levelno ← required kvs "levelno" asInt
  let levelname ← required kvs "levelname" asStr
  let msg ← required kvs "msg" asStr
  let args ← optional kvs "args" asTuple []
  let filename ← optional kvs "filename" asStr ""
  let lineno ← optional kvs "lineno" asInt 0
  let funcName ← optional kvs "funcName" asStr ""
  let created ← optional kvs "created" asFloat 0
  let excText ← optional kvs "exc_text" (asOption asStr) none
  let stackInfo ← optional kvs "stack_info" (asOption asStr) none
  pure { name, levelno, levelname, msg, args, filename, lineno, funcName, created, excText, stackInfo }

/-- The tag says which of the two structs it is. -/
def StreamEvent.ofObj (o : Obj) : Except String StreamEvent := do
  let kvs ← o.asStruct
  let tag ← required kvs "type" asStr
  if tag = "log" then (RemoteLogRecord.ofFields kvs).map .log
  else if tag = "stream" then (StreamOutputEvent.ofFields kvs).map .stream
  else .error "Invalid value"

/-- `unpack_payload(data, RemoteLogRecord | StreamOutputEvent)`. -/
def unpackEvent (m : Msgspec) (data : Bytes) : Except PyExc StreamEvent :=
  match m.decode (payloadOrEmpty data) with
  | .error text => .error (.ofText .decodeError text)
  | .ok o =>
    match StreamEvent.ofObj o with
    | .error text => .error (.ofText .validationError text)
    | .ok event => .ok event

/-- What `_dispatch_response` puts on the event queue for a message. -/
def eventOf (m : Msgspec) : List Bytes → Option StreamEvent
  | idBytes :: statusBytes :: payload :: _ =>
    if intFromBytes idBytes = 0 ∧ statusBytes = [StatusCode.ok.byte] then (unpackEvent m payload).toOption else none
  | _ => none

theorem RemoteLogRecord.ofObj_toObj (r : RemoteLogRecord) : StreamEvent.ofObj (StreamEvent.log r).toObj = .ok (.log r) := by
  simp [StreamEvent.toObj, StreamEvent.ofObj, ofFields, required, optional, asTuple, Except.map]

/-- An event comes back as it was, unless its stream is neither of the two. -/
theorem StreamEvent.eq_of_ofObj {event event' : StreamEvent} (h : StreamEvent.ofObj event.toObj = .ok event') :
    event' = event := by
  cases event with
  | log r =>
    rw [RemoteLogRecord.ofObj_toObj] at h
    exact (Except.ok.inj h).symm
  | stream e =>
    by_cases hname : e.stream = "stdout" ∨ e.stream = "stderr"
    · simp [toObj, ofObj, StreamOutputEvent.ofFields, required, asStreamName, hname, Except.map] at h
      exact h.symm
    · simp [toObj, ofObj, StreamOutputEvent.ofFields, required, asStreamName, hname, Except.map] at h
      cases h

theorem eventOf_eq_some {m : Msgspec} {parts : List Bytes} {event : StreamEvent} (h : eventOf m parts = some event) :
    ∃ idBytes payload rest, parts = idBytes :: [StatusCode.ok.byte] :: payload :: rest ∧ intFromBytes idBytes = 0 ∧
      unpackEvent m payload = .ok event := by
  unfold eventOf at h
  split at h
  · next idBytes statusBytes payload rest =>
    split at h
    · next hc =>
      obtain ⟨hid, rfl⟩ := hc
      cases hu : unpackEvent m payload with
      | error e =>
        rw [hu] at h
        cases h
      | ok event' =>
        rw [hu] at h
        obtain rfl := Option.some.inj h
        exact ⟨idBytes, payload, rest, rfl, hid, hu⟩
    · cases h
  · cases h

theorem eq_of_unpackEvent {m : Msgspec} (hm : m.Lawful) {event event' : StreamEvent} {payload : Bytes}
    (henc : m.encode event.toObj = .ok payload) (h : unpackEvent m payload = .ok event') : event' = event := by
  unfold unpackEvent payloadOrEmpty at h
  rw [if_neg (hm.nonempty _ _ henc), hm.decode_encode _ _ henc] at h
  dsimp only at h
  split at h
  · cases h
  · next event'' hobj =>
    obtain rfl := Except.ok.inj h
    exact StreamEvent.eq_of_ofObj hobj

section

variable {d : Daemon} {msg : List Bytes} {req : RequestEnvelope} {origin : SendOrigin} {parts : List Bytes}

/-- Only a SUBSCRIBE_STREAM has events replayed, and no request has any broadcast. -/
def RequestOrigin (msg : List Bytes) : SendOrigin → List Bytes → Prop
  | .reply, _ => True
  | .history, _ => ∃ req, RequestEnvelope.fromFrames msg = .ok req ∧ req.command = .subscribeStream
  | .broadcast, _ => False

theorem sendsWithin_requestOrigin (d : Daemon) (msg : List Bytes) :
    SendsWithin (RequestOrigin msg) (handleRequest d msg) := by
  refine sendsWithin_handleRequest (fun identity reqIdBytes rest _ => ?_) (fun req hreq => ?_)
  · exact ⟨fun _ => trivial, fun hcmd => by cases hcmd⟩
  · exact ⟨fun _ => trivial, fun hcmd _ => ⟨req, hreq, hcmd⟩⟩

/-- A message that is no event to whoever receives it under the id 0. -/
def NotOk (_ : SendOrigin) (parts : List Bytes) : Prop := parts[2]? ≠ some [StatusCode.ok.byte]

theorem sendsWithin_refusal {status : StatusCode} (hne : status ≠ .ok) (message : String) :
    SendsWithin NotOk (sendErrorText d req status message) := by
  refine .bind (.ofExcept _) (fun bytes => sendsWithin_send (fun hok => ?_))
  have hbyte : [status.byte] = [StatusCode.ok.byte] := Option.some.inj hok
  exact absurd (List.cons.inj hbyte).1 (byte_ne_ok hne)

/-- A CANCEL_REQUEST gets a refusal or nothing. -/
theorem sendsWithin_cancel (hreq : RequestEnvelope.fromFrames msg = .ok req) (hcmd : req.command = .cancelRequest) :
    SendsWithin NotOk (handleRequest d msg) := by
  have haccept : SendsWithin NotOk (acceptRequest d req) := by
    have hdispatch : SendsWithin NotOk (dispatchRequest d req) := by
      unfold dispatchRequest
      rw [hcmd]
      exact keeps_handleCancelRequest d req (fun _ => ⟨trivial, fun _ _ => rfl⟩)
    refine sendsWithin_op (fun _ _ he => by cases he) (fun _ => sendsWithin_op (fun _ _ he => by cases he) (fun _ => ?_))
    exact .tryFinally hdispatch ⟨trivial, fun _ _ => ⟨trivial, fun _ _ => rfl⟩⟩
  refine sendsWithin_op (fun _ _ he => by cases he) (fun isOpen => .ite (.pure ()) ?_)
  cases htoken : tokenRefused d.authToken req.authToken with
  | error e =>
    rw [handleMessage_of_tokenError hreq htoken]
    exact .throw _
  | ok refused =>
    rw [handleMessage_of_tokenRefused hreq htoken]
    cases refused with
    | true => exact sendsWithin_refusal (by decide) _
    | false => exact haccept

/-- The startup events that the handler has been given. -/
def replayMonitor (P : List StreamEvent → List Bytes → Prop) : Coro.Monitor srvSig (List StreamEvent) where
  pre
    | g, .send .history parts => P g parts
    | _, _ => True
  allows _ _ _ := True
  next
    | g, .runner .startupEvents, events => g ++ events
    | g, _, _ => g

/-- The message replays one of the events. -/
def Replays (d : Daemon) (req : RequestEnvelope) (events : List StreamEvent) (parts : List Bytes) : Prop :=
  ∃ event ∈ events, ∃ payload, d.msgspec.encode event.toObj = .ok payload ∧
    parts = [req.identity, zeroReqId, [StatusCode.ok.byte], payload]

abbrev replays (d : Daemon) (req : RequestEnvelope) : Coro.Monitor srvSig (List StreamEvent) := replayMonitor (Replays d req)

theorem wp_sendHistory {g : List StreamEvent} (events : List StreamEvent) (hsub : events ⊆ g) :
    (sendHistory d req events).run.wp (replays d req) (fun _ _ => True) g := by
  induction events with
  | nil => trivial
  | cons event events ih =>
    rw [sendHistory, Coro.wp_run_bind, wp_ofExcept]
    cases henc : d.msgspec.encode event.toObj with
    | error e => trivial
    | ok payload =>
      dsimp only
      rw [Coro.wp_run_bind, wp_sendMultipart]
      refine ⟨⟨event, hsub (List.mem_cons_self ..), payload, henc, rfl⟩, fun r _ => ?_⟩
      cases r with
      | error e => trivial
      | ok _ => exact ih (fun _ hmem => hsub (List.mem_cons_of_mem _ hmem))

theorem wp_sendText {g : List StreamEvent} (status : StatusCode) (message : String) :
    (sendErrorText d req status message).run.wp (replays d req) (fun _ _ => True) g := by
  rw [sendErrorText, sendError, Coro.wp_run_bind, wp_ofExcept]
  cases pack d.msgspec (messagePayload status message) with
  | error e => trivial
  | ok bytes => exact ⟨trivial, fun _ _ => trivial⟩

theorem wp_handleSubscribeStream {g : List StreamEvent} :
    (handleSubscribeStream d req).run.wp (replays d req) (fun _ _ => True) g := by
  unfold handleSubscribeStream
  split
  · exact wp_sendText _ _
  · next streamReq _ =>
    simp only [sendReply, Coro.wp_run_bind, wp_subscribersAdd, wp_sendMultipart]
    refine ⟨trivial, fun _ _ => ⟨trivial, fun r _ => ?_⟩⟩
    cases r with
    | error e => trivial
    | ok _ =>
      dsimp only
      rw [Coro.wp_run_ite]
      split
      · simp only [Coro.wp_run_bind, wp_runnerStartupEvents]
        exact ⟨trivial, fun events _ => wp_sendHistory events (List.subset_append_right _ _)⟩
      · trivial

theorem wp_handleRequest_subscribe (hreq : RequestEnvelope.fromFrames msg = .ok req) (hcmd : req.command = .subscribeStream) :
    (handleRequest d msg).run.wp (replays d req) (fun _ _ => True) [] := by
  have haccept : (acceptRequest d req).run.wp (replays d req) (fun _ _ => True) [] := by
    simp only [acceptRequest, dispatchRequest, hcmd, Coro.wp_run_bind, wp_inflightSet, wp_metrics,
      Coro.wp_run_tryFinally, wp_endRequest]
    refine ⟨trivial, fun _ _ => ⟨trivial, fun _ _ => ?_⟩⟩
    refine Coro.wp_mono _ wp_handleSubscribeStream (fun r g' _ => ?_)
    exact ⟨trivial, fun _ _ => ⟨trivial, fun _ _ => trivial⟩⟩
  rw [handleRequest, Coro.wp_run_bind]
  refine ⟨trivial, fun isOpen _ => ?_⟩
  cases isOpen with
  | false => trivial
  | true =>
    change (handleMessage d msg).run.wp (replays d req) (fun _ _ => True) []
    cases htoken : tokenRefused d.authToken req.authToken with
    | error e =>
      rw [handleMessage_of_tokenError hreq htoken]
      trivial
    | ok refused =>
      rw [handleMessage_of_tokenRefused hreq htoken]
      cases refused with
      | true => exact wp_sendText _ _
      | false => exact haccept

theorem mem_replays_run {event : StreamEvent} (g : List StreamEvent) (tr : List (Coro.Event srvSig))
    (hmem : event ∈ (replays d req).run g tr) :
    event ∈ g ∨ ∃ events : List StreamEvent, ⟨.runner .startupEvents, events⟩ ∈ tr ∧ event ∈ events := by
  induction tr generalizing g with
  | nil => exact .inl hmem
  | cons e tr ih =>
    rcases ih _ hmem with hnext | ⟨events, htr, hevent⟩
    · obtain ⟨o, r⟩ := e
      by_cases ho : o = .runner .startupEvents
      · subst ho
        rcases List.mem_append.1 hnext with hg | hr
        · exact .inl hg
        · exact .inr ⟨r, List.mem_cons_self .., hr⟩
      · refine .inl ?_
        have hsame : (replays d req).next g o r = g := by
          cases o with
          | runner q =>
            cases q with
            | startupEvents => exact absurd rfl ho
            | _ => rfl
          | _ => rfl
        exact hsame ▸ hnext
    · exact .inr ⟨events, List.mem_cons_of_mem _ htr, hevent⟩

/-- A replayed event is one of those the handler was given for its SUBSCRIBE_STREAM. -/
theorem Task.SentAlong.replayed {task : Task} (hs : task.SentAlong d) (hmsg : task.msg = some msg)
    (hw : (.history, parts) ∈ task.wire) : ∃ (req : RequestEnvelope) (events : List StreamEvent),
      RequestEnvelope.fromFrames msg = .ok req ∧ req.command = .subscribeStream ∧
      ⟨.runner .startupEvents, events⟩ ∈ task.log ∧ Replays d req events parts := by
  obtain ⟨start, tr, k, hstart, hprefix, hf⟩ := hs _ hw
  rw [hmsg] at hstart
  obtain rfl : start = (handleRequest d msg).run := hstart
  obtain ⟨req, hreq, hcmd⟩ : RequestOrigin msg .history parts := (sendsWithin_requestOrigin d msg).of_maySend hf
  obtain ⟨event, hevent, payload, henc, hparts⟩ : Replays d req ((replays d req).run [] tr) parts :=
    Coro.pre_follows_call (replays d req) (wp_handleRequest_subscribe hreq hcmd) hf
      ((replays d req).allows_of_forall (fun _ _ _ => trivial) [] tr)
  rcases mem_replays_run [] tr hevent with hnil | ⟨events, htr, hmem⟩
  · cases hnil
  · exact ⟨req, events, hreq, hcmd, hprefix.subset htr, event, hmem, payload, henc, hparts⟩

/-- The task broadcasts one of the events. -/
def Task.Announces (m : Msgspec) (emitted : List StreamEvent) (task : Task) : Prop :=
  ∃ event ∈ emitted, ∃ payload subscribers, m.encode event.toObj = .ok payload ∧
    task.Runs (sendAll payload subscribers).run ∧
      ∀ message ∈ task.wire, ∃ identity, message = (.broadcast, [identity, zeroReqId, [StatusCode.ok.byte], payload])

theorem Task.Announces.step {m : Msgspec} {emitted : List StreamEvent} {h : Host} {s : Sys} {t : Nat} {l : Label}
    {task task' : Task} (ha : task.Announces m emitted) (hs : TaskStep d h s t l task task') :
    task'.Announces m emitted := by
  obtain ⟨event, hevent, payload, subscribers, henc, hruns, hwire⟩ := ha
  have hsame : task'.wire = task.wire → task'.Announces m emitted := fun he =>
    ⟨event, hevent, payload, subscribers, henc, hruns.step hs, fun message hm => hwire message (he ▸ hm)⟩
  cases hs with
  | cancel => exact hsame (Task.wire_cancel _)
  | sync _ _ hc =>
    rcases hc with rfl | ⟨rfl, -⟩
    · exact hsame rfl
    · exact hsame (Task.wire_cancel _)
  | put hp =>
    refine ⟨event, hevent, payload, subscribers, henc, hruns, fun message hm => ?_⟩
    rcases List.mem_append.1 hm with hm | hm
    · exact hwire message hm
    · rw [List.mem_singleton.1 hm]
      rcases hruns with hf | ⟨-, hp'⟩
      · rw [hp] at hf
        have hsends : SendsWithin (fun origin parts => ∃ identity,
            (origin, parts) = (.broadcast, [identity, zeroReqId, [StatusCode.ok.byte], payload]))
            (sendAll payload subscribers) := sendsWithin_sendAll (fun identity => ⟨identity, rfl⟩) subscribers
        exact hsends.of_maySend hf
      · rw [hp'] at hp
        cases hp
  | _ => exact hsame rfl

theorem Task.Announces.mono {m : Msgspec} {emitted emitted' : List StreamEvent} {task : Task}
    (ha : task.Announces m emitted) (hsub : emitted ⊆ emitted') : task.Announces m emitted' := by
  obtain ⟨event, hevent, hrest⟩ := ha
  exact ⟨event, hsub hevent, hrest⟩

end

end VsRemote
