import VsRemote.ClientMethods
import VsRemote.ReplyFormats

/-! Replies and their decoders: every reply the server can send, decoded by the
method that asked. -/

namespace VsRemote

open Coro (Follows)

inductive TypedMethod where
  | listOutputs
  | getStats
  | getClipInfo (outputIndex : Int)
  | loadScript (scriptPath : String) (chdir : Bool)
  | loadCode (code filename : String)
  | reload (chdir : Bool)
  | requestFrame (outputIndex n : Int) (compression : Compression)

namespace TypedMethod

def command : TypedMethod → Command
  | listOutputs => .listOutputs
  | getStats => .getStats
  | getClipInfo _ => .getClipInfo
  | loadScript _ _ => .loadScript
  | loadCode _ _ => .loadCode
  | reload _ => .reload
  | requestFrame _ _ _ => .getFrame

def isRequestFrame : TypedMethod → Bool
  | requestFrame _ _ _ => true
  | _ => false

/-- How the server answers the command of a method once the message is accepted. -/
def Format (m : Msgspec) : TypedMethod → List Bytes → Prop
  | getStats => PayloadReply m ServerStats
  | getClipInfo _ => PayloadReply m ClipInfo
  | requestFrame _ _ _ => HeaderReply m
  | _ => PayloadReply m (List OutputItem)

def Agrees (c : Client) (frames : List Bytes) : TypedMethod → Prop
  | listOutputs => AgreesPayload c.msgspec c.listOutputs frames
  | getStats => AgreesPayload c.msgspec c.getStats frames
  | getClipInfo outputIndex => AgreesPayload c.msgspec (c.getClipInfo outputIndex) frames
  | loadScript scriptPath chdir => AgreesPayload c.msgspec (c.loadScript scriptPath chdir) frames
  | loadCode code filename => AgreesPayload c.msgspec (c.loadCode code filename) frames
  | reload chdir => AgreesPayload c.msgspec (c.reload chdir) frames
  | requestFrame outputIndex n compression =>
    AgreesFrame c.msgspec (c.requestFrame outputIndex n compression) frames

end TypedMethod

/-- Along some schedule the handler of a message sends these parts as a reply. -/
def SendsReply (d : Daemon) (msg parts : List Bytes) : Prop :=
  ∃ tr k, Follows (handleRequest d msg).run tr (.call (.send .reply parts) k)

/-- What the method sees of a reply: the identity is for the router, the id for the tracker. -/
def replyFrames (parts : List Bytes) : List Bytes := parts.drop 2

variable {d : Daemon} {msg parts : List Bytes} {method : TypedMethod} {c : Client}

theorem format_of_sends {P : List Bytes → Prop} (hs : SendsReply d msg parts)
    (h : RepliesOnly P (handleRequest d msg)) : P parts := by
  obtain ⟨tr, k, hf⟩ := hs
  exact Coro.pre_follows_call (formatMonitor P) h hf
    ((formatMonitor P).allows_of_forall (fun _ _ _ => trivial) () tr)

theorem format_dispatchRequest {req : RequestEnvelope} (hcmd : req.command = method.command) :
    RepliesOnly (method.Format d.msgspec) (dispatchRequest d req) := by
  unfold dispatchRequest
  rw [hcmd]
  cases method with
  | listOutputs =>
    refine .bind (.lift trivial (fun _ _ => rfl)) (fun outputs => ?_)
    exact repliesOnly_bindOk (fun _ ha => repliesOnly_send (.value outputs ha))
  | getStats => exact payloadReply_handleGetStats d req
  | getClipInfo outputIndex => exact payloadReply_handleGetClipInfo d req
  | loadScript scriptPath chdir =>
    exact .ite (payloadReply_dispatchExecutor d req _ _ _) (payloadReply_sendErrorText d req _ (by decide))
  | loadCode code filename =>
    exact .ite (payloadReply_dispatchExecutor d req _ _ _) (payloadReply_sendErrorText d req _ (by decide))
  | reload chdir => exact payloadReply_dispatchExecutor d req _ _ _
  | requestFrame outputIndex n compression => exact headerReply_handleGetFrame d req

theorem agreesPayload_error {α : Type} [Packed α] {command : Command} {payload : Option Obj} {context : String}
    (h : ErrorReply c.msgspec parts) :
    AgreesPayload c.msgspec (c.payloadCall α command payload context) (replyFrames parts) := by
  cases h with
  | @mk identity reqIdBytes bytes status p hne hp => exact ⟨status, bytes, [], rfl, .inr (payloadCall_error hne)⟩

theorem agreesPayload {α : Type} [Packed α] (hm : c.msgspec.Lawful) {command : Command} {payload : Option Obj}
    {context : String} (h : PayloadReply c.msgspec α parts) :
    AgreesPayload c.msgspec (c.payloadCall α command payload context) (replyFrames parts) := by
  cases h with
  | @value identity reqIdBytes bytes a ha =>
    exact ⟨.ok, bytes, [], rfl, .inl ⟨rfl, a, ha, payloadCall_value hm ha⟩⟩
  | error h => exact agreesPayload_error h

theorem agreesFrame (hm : c.msgspec.Lawful) (outputIndex n : Int) (compression : Compression)
    (h : HeaderReply c.msgspec parts) :
    AgreesFrame c.msgspec (c.requestFrame outputIndex n compression) (replyFrames parts) := by
  cases h with
  | @mk identity reqIdBytes bytes header planes hh =>
    refine ⟨header.status, bytes, planes, rfl, .inl ⟨header, hh, rfl, ?_⟩⟩
    change (c.requestFrame outputIndex n compression).settle c.msgspec ([header.status.byte] :: bytes :: planes) = _
    rw [requestFrame_settle, unpackPayload_pack hm hh]

theorem agrees_of_format (hm : c.msgspec.Lawful) (h : method.Format c.msgspec parts) :
    method.Agrees c (replyFrames parts) := by
  cases method with
  | requestFrame outputIndex n compression => exact agreesFrame hm outputIndex n compression h
  | _ => exact agreesPayload hm h

theorem agrees_of_error (hne : method.isRequestFrame = false) (h : ErrorReply c.msgspec parts) :
    method.Agrees c (replyFrames parts) := by
  cases method with
  | requestFrame outputIndex n compression => cases hne
  | _ => exact agreesPayload_error h

/-- An error payload has no `status`, so it is not decoded as a header. -/
theorem requestFrame_error (hm : c.msgspec.Lawful) (outputIndex n : Int) (compression : Compression)
    (h : ErrorReply c.msgspec parts) :
    ∃ e, (c.requestFrame outputIndex n compression).settle c.msgspec (replyFrames parts) = .error (.raised e) := by
  cases h with
  | @mk identity reqIdBytes bytes status p hne hp =>
    obtain ⟨text, hmissing⟩ := FrameHeader.ofObj_remoteErrorPayload p
    have hunpack : unpackPayload c.msgspec FrameHeader bytes = .error (.ofText .validationError text) := by
      rw [unpackPayload_encoded hm FrameHeader hp]
      exact congrArg (Except.mapError (PyExc.ofText .validationError)) hmissing
    refine ⟨.ofText .validationError text, ?_⟩
    rw [show replyFrames [identity, reqIdBytes, [status.byte], bytes] = [status.byte] :: bytes :: [] from rfl,
      requestFrame_settle, hunpack]

theorem not_agrees_of_error (hm : c.msgspec.Lawful) (hreq : method.isRequestFrame = true)
    (h : ErrorReply c.msgspec parts) : ¬ method.Agrees c (replyFrames parts) := by
  cases method with
  | requestFrame outputIndex n compression =>
    obtain ⟨e, he⟩ := requestFrame_error hm outputIndex n compression h
    rintro ⟨status, payloadBytes, planes, -, hagrees⟩
    rw [he] at hagrees
    rcases hagrees with ⟨_, _, _, hok⟩ | ⟨_, hremote, _⟩
    · cases hok
    · cases hremote
  | _ => cases hreq

/-- A reply to the message a method's command came in agrees with the method,
unless `request_frame` is told that its message was rejected. -/
theorem reply_agrees_iff (hm : d.msgspec.Lawful) (str : {α : Type} → α → String) (method : TypedMethod)
    (hcmd : ∀ req, RequestEnvelope.fromFrames msg = .ok req → req.command = method.command)
    (hs : SendsReply d msg parts) :
    method.Agrees ⟨d.msgspec, str⟩ (replyFrames parts) ↔
      ¬ (method.isRequestFrame = true ∧ Rejected d msg) := by
  by_cases hr : Rejected d msg
  · have herror := format_of_sends hs (errorReply_of_rejected hr)
    by_cases hreq : method.isRequestFrame = true
    · exact iff_of_false (not_agrees_of_error hm hreq herror) (fun h => h ⟨hreq, hr⟩)
    · exact iff_of_true (agrees_of_error (by simpa using hreq) herror) (fun h => hreq h.1)
  · have hformat := format_of_sends hs (repliesOnly_of_accepted hr (fun req h => format_dispatchRequest (hcmd req h)))
    exact iff_of_true (agrees_of_format hm hformat) (fun h => hr h.2)

/-! A server with a token, and clients that bring none. -/

def refusalText : String := "Unauthorized: invalid or missing auth token"

/-- The MessagePack form of the payload the server refuses with. -/
def refusalBytes : Bytes :=
  [136, 165, 101, 114, 114, 111, 114, 217, 43, 85, 110, 97, 117, 116, 104, 111, 114, 105, 122, 101, 100, 58, 32,
    105, 110, 118, 97, 108, 105, 100, 32, 111, 114, 32, 109, 105, 115, 115, 105, 110, 103, 32, 97, 117, 116, 104,
    32, 116, 111, 107, 101, 110, 168, 101, 120, 99, 95, 116, 121, 112, 101, 172, 85, 110, 97, 117, 116, 104, 111,
    114, 105, 122, 101, 100, 167, 101, 120, 99, 95, 109, 115, 103, 217, 43, 85, 110, 97, 117, 116, 104, 111, 114,
    105, 122, 101, 100, 58, 32, 105, 110, 118, 97, 108, 105, 100, 32, 111, 114, 32, 109, 105, 115, 115, 105, 110,
    103, 32, 97, 117, 116, 104, 32, 116, 111, 107, 101, 110, 168, 102, 105, 108, 101, 110, 97, 109, 101, 192, 166,
    108, 105, 110, 101, 110, 111, 192, 169, 99, 111, 100, 101, 95, 108, 105, 110, 101, 192, 179, 102, 111, 114,
    109, 97, 116, 116, 101, 100, 95, 116, 114, 97, 99, 101, 98, 97, 99, 107, 192, 166, 102, 114, 97, 109, 101,
    115, 144]

/-- msgspec, as far as that payload goes. -/
def refusalCodec : Msgspec where
  encode
    | .map [("error", .str error), ("exc_type", .str "Unauthorized"), ("exc_msg", .str excMsg),
        ("filename", .nil), ("lineno", .nil), ("code_line", .nil), ("formatted_traceback", .nil),
        ("frames", .array [])] =>
      if error = refusalText ∧ excMsg = refusalText then .ok refusalBytes
      else .error (.ofText .typeError "unsupported")
    | _ => .error (.ofText .typeError "unsupported")
  decode b :=
    if b = refusalBytes then .ok (messagePayload .unauthorized refusalText).toObj
    else .error "MessagePack data is malformed"

theorem refusalCodec_lawful : refusalCodec.Lawful := by
  refine Msgspec.lawful_of_forms [((messagePayload .unauthorized refusalText).toObj, refusalBytes)] ?_ ?_
  · intro o b h
    simp only [refusalCodec] at h
    split at h
    · next error excMsg =>
      by_cases htext : error = refusalText ∧ excMsg = refusalText
      · rw [if_pos htext] at h
        obtain ⟨rfl, rfl⟩ := htext
        obtain rfl := Except.ok.inj h
        exact .head _
      · rw [if_neg htext] at h
        cases h
    · cases h
  · refine List.forall_mem_singleton.2 ⟨List.cons_ne_nil _ _, ?_⟩
    simp only [refusalCodec, if_true]

def refusingDaemon : Daemon := { msgspec := refusalCodec, authToken := some [0x73, 0x65, 0x63, 0x72, 0x65, 0x74] }

def bareRequest (command : Command) (payload : Bytes) : List Bytes := [[7], [0, 0, 0, 1], [command.byte], payload]

def refusalParts : List Bytes := [[7], [0, 0, 0, 1], [StatusCode.unauthorized.byte], refusalBytes]

theorem sends_refusal {req : RequestEnvelope} {bytes : Bytes} (hreq : RequestEnvelope.fromFrames msg = .ok req)
    (htr : tokenRefused d.authToken req.authToken = .ok true)
    (hp : pack d.msgspec (messagePayload .unauthorized refusalText) = .ok bytes) :
    SendsReply d msg [req.identity, req.reqIdBytes, [StatusCode.unauthorized.byte], bytes] := by
  obtain ⟨k, hrun, htrue⟩ : ∃ k, (handleRequest d msg).run = .call .socketOpen k ∧
      k true = (handleMessage d msg).run := ⟨_, rfl, rfl⟩
  refine ⟨[⟨.socketOpen, true⟩], Coro.pure, ?_⟩
  rw [hrun]
  refine .cons (S := srvSig) (o := .socketOpen) true ?_
  rw [htrue, handleMessage_of_tokenRefused hreq htr, if_pos rfl]
  change Follows (sendError d req .unauthorized (messagePayload .unauthorized refusalText)).run [] _
  rw [sendError, hp]
  exact .nil _

theorem fromFrames_bareRequest (command : Command) (payload : Bytes) :
    RequestEnvelope.fromFrames (bareRequest command payload) =
      .ok ⟨[7], [0, 0, 0, 1], 1, command, payload, none, []⟩ := by
  cases command <;> rfl

theorem bareRequest_refused (command : Command) (payload : Bytes) :
    SendsReply refusingDaemon (bareRequest command payload) refusalParts :=
  sends_refusal (fromFrames_bareRequest command payload) rfl rfl

theorem command_bareRequest {command : Command} {payload : Bytes} {req : RequestEnvelope}
    (h : RequestEnvelope.fromFrames (bareRequest command payload) = .ok req) : req.command = command := by
  rw [fromFrames_bareRequest] at h
  obtain rfl := Except.ok.inj h
  rfl

theorem list_outputs_refused :
    TypedMethod.listOutputs.Agrees ⟨refusalCodec, fun _ => ""⟩ (replyFrames refusalParts) :=
  (reply_agrees_iff refusalCodec_lawful (fun _ => "") .listOutputs (fun _ h => command_bareRequest h)
    (bareRequest_refused .listOutputs [])).2 (fun h => by cases h.1)

/-- The `{"output_index": 0, "n": 0, "compression": "zstd"}` of a frame request. -/
def frameRequestBytes : Bytes :=
  [131, 172, 111, 117, 116, 112, 117, 116, 95, 105, 110, 100, 101, 120, 0, 161, 110, 0, 171, 99, 111, 109, 112,
    114, 101, 115, 115, 105, 111, 110, 164, 122, 115, 116, 100]

/-- `request_frame` without the token ends with a decoding error. -/
theorem request_frame_refused : ¬ ∀ (d : Daemon) (str : {α : Type} → α → String) (method : TypedMethod)
    (msg parts : List Bytes), d.msgspec.Lawful →
    (∀ req, RequestEnvelope.fromFrames msg = .ok req → req.command = method.command) →
    SendsReply d msg parts → method.Agrees ⟨d.msgspec, str⟩ (replyFrames parts) := by
  intro hall
  have hagrees := hall refusingDaemon (fun _ => "") (.requestFrame 0 0 .zstd)
    (bareRequest .getFrame frameRequestBytes) refusalParts refusalCodec_lawful
    (fun _ h => command_bareRequest h) (bareRequest_refused .getFrame frameRequestBytes)
  have herror : ErrorReply refusalCodec refusalParts :=
    .mk (messagePayload .unauthorized refusalText) (by decide) rfl
  exact not_agrees_of_error refusalCodec_lawful rfl herror hagrees

end VsRemote
