import VsRemote.Envelopes

/-! The typed methods of `ClientTransport`: what they send and how they decode
the reply. -/

namespace VsRemote

/-- What the methods are given: msgspec, and `str` for a payload that is no error. -/
structure Client where
  msgspec : Msgspec
  str : {α : Type} → α → String

/-- `send_request(command, payload, response_type)` and what is mapped over its future. -/
structure ClientCall (α β : Type) where
  command : Command
  payload : Option Obj
  decode : Bytes → Except PyExc α
  map : ResponseEnvelope α → Except ClientError β

def ClientCall.settle {α β : Type} (m : Msgspec) (call : ClientCall α β) (frames : List Bytes) :
    Except ClientError β :=
  match ResponseEnvelope.fromFrames m call.decode frames with
  | .error e => .error (.raised e)
  | .ok envelope => call.map envelope

namespace Client

/-- A method that decodes a payload and maps `raise_for_status(context).payload`. -/
def payloadCall (c : Client) (α : Type) [Packed α] (command : Command) (payload : Option Obj)
    (context : String) : ClientCall α (ResponsePayload α) where
  command := command
  payload := payload
  decode := unpackPayload c.msgspec α
  map r := (r.raiseForStatus c.str context).map ResponseEnvelope.payload

def listOutputs (c : Client) : ClientCall (List OutputItem) (ResponsePayload (List OutputItem)) :=
  c.payloadCall (List OutputItem) .listOutputs none "Failed to list outputs"

def getStats (c : Client) : ClientCall ServerStats (ResponsePayload ServerStats) :=
  c.payloadCall ServerStats .getStats none "Failed to get server stats"

def loadScript (c : Client) (scriptPath : String) (chdir : Bool) :
    ClientCall (List OutputItem) (ResponsePayload (List OutputItem)) :=
  c.payloadCall (List OutputItem) .loadScript (some (LoadScriptRequest.toObj ⟨scriptPath, chdir⟩))
    ("Failed to load script " ++ scriptPath)

def loadCode (c : Client) (code filename : String) :
    ClientCall (List OutputItem) (ResponsePayload (List OutputItem)) :=
  c.payloadCall (List OutputItem) .loadCode (some (LoadCodeRequest.toObj ⟨code, filename⟩))
    "Failed to load code"

def reload (c : Client) (chdir : Bool) : ClientCall (List OutputItem) (ResponsePayload (List OutputItem)) :=
  c.payloadCall (List OutputItem) .reload (some (ReloadRequest.toObj ⟨chdir⟩)) "Failed to reload script"

def getClipInfo (c : Client) (outputIndex : Int) : ClientCall ClipInfo (ResponsePayload ClipInfo) :=
  c.payloadCall ClipInfo .getClipInfo (some (OutputIndexRequest.toObj ⟨outputIndex⟩))
    ("Failed to retrieve clip info for output " ++ toString outputIndex)

def parseFrameResponse (c : Client) (resp : ResponseEnvelope Bytes) :
    Except ClientError (FrameHeader × List Bytes) :=
  match unpackPayload c.msgspec FrameHeader resp.payloadBytes with
  | .error e => .error (.raised e)
  | .ok header => .ok (header, resp.extraFrames)

/-- No response type: the payload stays bytes, whatever the status. -/
def requestFrame (c : Client) (outputIndex n : Int) (compression : Compression) :
    ClientCall Bytes (FrameHeader × List Bytes) where
  command := .getFrame
  payload := some (FrameRequest.toObj ⟨outputIndex, n, compression⟩)
  decode := .ok
  map := c.parseFrameResponse

end Client

def FailsWith {β : Type} (status : StatusCode) (settled : Except ClientError β) : Prop :=
  ∃ e, settled = .error (.remote e) ∧ status.exceptionCls = some e.cls ∧ e.status = status

/-- The future has the value packed into an `OK` reply, or fails as the status says. -/
def AgreesPayload {α : Type} [Packed α] (m : Msgspec) (call : ClientCall α (ResponsePayload α))
    (frames : List Bytes) : Prop :=
  ∃ status payloadBytes extra, frames = [status.byte] :: payloadBytes :: extra ∧
    ((status = .ok ∧ ∃ a, pack m a = .ok payloadBytes ∧ call.settle m frames = .ok (.value a)) ∨
      FailsWith status (call.settle m frames))

/-- The future has the header packed into the reply, which carries its status,
with the planes; or it fails as the status says. -/
def AgreesFrame (m : Msgspec) (call : ClientCall Bytes (FrameHeader × List Bytes))
    (frames : List Bytes) : Prop :=
  ∃ status payloadBytes planes, frames = [status.byte] :: payloadBytes :: planes ∧
    ((∃ header, pack m header = .ok payloadBytes ∧ header.status = status ∧
        call.settle m frames = .ok (header, planes)) ∨ FailsWith status (call.settle m frames))

section

variable {c : Client} {α : Type} [Packed α] {status : StatusCode} {bytes : Bytes} {extra : List Bytes}

section

variable {m : Msgspec} {β γ : Type} {call : ClientCall β γ}

theorem settle_ok {a : β} (hdec : call.decode bytes = .ok a) :
    call.settle m ([StatusCode.ok.byte] :: bytes :: extra) = call.map ⟨.ok, .value a, bytes, extra⟩ := by
  simp only [ClientCall.settle, ResponseEnvelope.fromFrames, ResponseEnvelope.ofParts, StatusCode.ofNat?_byte,
    ne_eq, not_true_eq_false, if_false, hdec, Except.map]

theorem settle_error (hne : status ≠ .ok) : call.settle m ([status.byte] :: bytes :: extra) =
    call.map ⟨status, .error (errorPayload m status bytes), bytes, extra⟩ := by
  simp only [ClientCall.settle, ResponseEnvelope.fromFrames, ResponseEnvelope.ofParts, StatusCode.ofNat?_byte,
    ne_eq, hne, not_false_eq_true, if_true]

end

theorem raiseForStatus_error {β : Type} {r : ResponseEnvelope β} (str : β → String) (context : String)
    (hne : r.status ≠ .ok) :
    ∃ e, r.raiseForStatus str context = .error (.remote e) ∧ r.status.exceptionCls = some e.cls ∧
      e.status = r.status := by
  obtain ⟨cls, hcls⟩ := Option.ne_none_iff_exists'.1 (fun h => hne (StatusCode.exceptionCls_eq_none_iff.1 h))
  unfold ResponseEnvelope.raiseForStatus
  rw [if_neg hne]
  cases r.payload with
  | error p =>
    exact ⟨⟨cls, contextMessage context p.error, r.status, some p⟩, by simp [StatusCode.raiseForStatus, hcls]; rfl,
      hcls, rfl⟩
  | value a =>
    exact ⟨⟨cls, contextMessage context (str a), r.status, none⟩, by simp [StatusCode.raiseForStatus, hcls]; rfl,
      hcls, rfl⟩

theorem payloadCall_value (hm : c.msgspec.Lawful) {command : Command} {payload : Option Obj} {context : String}
    {a : α} (h : pack c.msgspec a = .ok bytes) :
    (c.payloadCall α command payload context).settle c.msgspec ([StatusCode.ok.byte] :: bytes :: extra) =
      .ok (.value a) := by
  rw [settle_ok (unpackPayload_pack hm h)]
  rfl

theorem payloadCall_error {command : Command} {payload : Option Obj} {context : String} (hne : status ≠ .ok) :
    FailsWith status
      ((c.payloadCall α command payload context).settle c.msgspec ([status.byte] :: bytes :: extra)) := by
  rw [settle_error hne]
  let envelope : ResponseEnvelope α := ⟨status, .error (errorPayload c.msgspec status bytes), bytes, extra⟩
  obtain ⟨e, he, hcls, hst⟩ := raiseForStatus_error (r := envelope) c.str context hne
  refine ⟨e, ?_, hcls, hst⟩
  change (envelope.raiseForStatus c.str context).map ResponseEnvelope.payload = _
  rw [he]
  rfl

/-- Whatever its status, a reply to `request_frame` is decoded as a header. -/
theorem requestFrame_settle (outputIndex n : Int) (compression : Compression) :
    (c.requestFrame outputIndex n compression).settle c.msgspec ([status.byte] :: bytes :: extra) =
      match unpackPayload c.msgspec FrameHeader bytes with
      | .error e => .error (.raised e)
      | .ok header => .ok (header, extra) := by
  by_cases hok : status = .ok
  · subst hok
    rw [settle_ok (a := bytes) rfl]
    rfl
  · rw [settle_error hok]
    rfl

end

end VsRemote
