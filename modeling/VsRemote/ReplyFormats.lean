import VsRemote.HandlerRules

/-! The formats of the replies: a payload of the command or an error payload,
and for frames a header whatever the status. -/

namespace VsRemote

open Handler

/-- A `RemoteErrorPayload` under a status that is not `OK`. -/
inductive ErrorReply (m : Msgspec) : List Bytes → Prop
  | mk {identity reqIdBytes bytes : Bytes} {status : StatusCode} (p : RemoteErrorPayload) (hne : status ≠ .ok)
      (hp : pack m p = .ok bytes) : ErrorReply m [identity, reqIdBytes, [status.byte], bytes]

inductive PayloadReply (m : Msgspec) (α : Type) [Packed α] : List Bytes → Prop
  | value {identity reqIdBytes bytes : Bytes} (a : α) (ha : pack m a = .ok bytes) :
      PayloadReply m α [identity, reqIdBytes, [StatusCode.ok.byte], bytes]
  | error {parts : List Bytes} (h : ErrorReply m parts) : PayloadReply m α parts

inductive HeaderReply (m : Msgspec) : List Bytes → Prop
  | mk {identity reqIdBytes bytes : Bytes} (header : FrameHeader) (planes : List Bytes)
      (hh : pack m header = .ok bytes) :
      HeaderReply m (identity :: reqIdBytes :: [header.status.byte] :: bytes :: planes)

def formatMonitor (P : List Bytes → Prop) : Coro.Monitor srvSig Unit where
  pre
    | _, .send .reply parts => P parts
    | _, _ => True
  allows _ _ _ := True
  next _ _ _ := ()

/-- Every reply the handler sends, along every schedule, has the format. -/
abbrev RepliesOnly (P : List Bytes → Prop) {α : Type} (x : Handler α) : Prop := Keeps (formatMonitor P) () x

section

variable {P : List Bytes → Prop} {α : Type} {x : Handler α}

theorem repliesOnly_bindOk {β : Type} {r : Except PyExc β} {f : β → Handler α}
    (hf : ∀ b, r = .ok b → RepliesOnly P (f b)) : RepliesOnly P (ofExcept r >>= f) := by
  cases r with
  | ok b => exact hf b rfl
  | error e => exact .throw _

theorem repliesOnly_send {parts : List Bytes} (h : P parts) : RepliesOnly P (sendMultipart .reply parts) :=
  ⟨h, fun _ _ => rfl⟩

variable (d : Daemon) (req : RequestEnvelope)

theorem repliesOnly_sendError {status : StatusCode} (payload : RemoteErrorPayload) (hne : status ≠ .ok) :
    RepliesOnly (ErrorReply d.msgspec) (sendError d req status payload) :=
  repliesOnly_bindOk (fun _ hp => repliesOnly_send (.mk payload hne hp))

theorem repliesOnly_sendErrorText {status : StatusCode} (message : String) (hne : status ≠ .ok) :
    RepliesOnly (ErrorReply d.msgspec) (sendErrorText d req status message) :=
  repliesOnly_sendError d req _ hne

theorem payloadReply_sendErrorText [Packed α] {status : StatusCode} (message : String) (hne : status ≠ .ok) :
    RepliesOnly (PayloadReply d.msgspec α) (sendErrorText d req status message) :=
  repliesOnly_bindOk (fun _ hp => repliesOnly_send (.error (.mk _ hne hp)))

theorem payloadReply_dispatchExecutor (α : Type) [Packed α] (typeName : String) (action : α → LoadAction) :
    RepliesOnly (PayloadReply d.msgspec (List OutputItem)) (dispatchExecutor d req α typeName action) := by
  unfold dispatchExecutor
  split
  · exact payloadReply_sendErrorText d req _ (by decide)
  · refine .bind (.tryExcept (.bind ⟨trivial, fun _ _ => rfl⟩ (fun outputs => ?_)) (fun e => .pure _)) (fun err => ?_)
    · exact repliesOnly_bindOk (fun _ ha => .bind (repliesOnly_send (.value outputs ha)) (fun _ => .pure none))
    · cases err with
      | none => exact .pure ()
      | some e =>
        refine .bind (.lift trivial (fun _ _ => rfl)) (fun tb => .bind ⟨trivial, fun _ _ => rfl⟩ (fun _ => ?_))
        refine repliesOnly_bindOk (fun _ hp => repliesOnly_send (.error (.mk _ ?_ hp)))
        split <;> decide

theorem payloadReply_handleGetStats : RepliesOnly (PayloadReply d.msgspec ServerStats) (handleGetStats d req) := by
  refine .bind (.lift trivial (fun _ _ => rfl)) (fun env? => ?_)
  split
  · exact payloadReply_sendErrorText d req _ (by decide)
  · refine .bind (.lift trivial (fun _ _ => rfl)) (fun used => .bind (.ofExcept _) (fun _ => ?_))
    refine .bind (.lift trivial (fun _ _ => rfl)) (fun activeScript => ?_)
    refine .bind (.lift trivial (fun _ _ => rfl)) (fun outputs => ?_)
    refine .bind (.lift trivial (fun _ _ => rfl)) (fun inFlight => ?_)
    refine .bind (.lift trivial (fun _ _ => rfl)) (fun stats? => .bind (.ofExcept _) (fun stats => ?_))
    exact repliesOnly_bindOk (fun _ ha => repliesOnly_send (.value stats ha))

theorem payloadReply_handleGetClipInfo :
    RepliesOnly (PayloadReply d.msgspec ClipInfo) (handleGetClipInfo d req) := by
  refine .tryExcept ?_ (fun e => ?_)
  · refine .bind (.ofExcept _) (fun payload => .bind (.lift trivial (fun _ _ => rfl)) (fun info? => ?_))
    refine .bind (.ofExcept _) (fun info => ?_)
    exact repliesOnly_bindOk (fun _ ha => repliesOnly_send (.value info ha))
  · refine .ite (payloadReply_sendErrorText d req _ (by decide)) ?_
    exact .ite (payloadReply_sendErrorText d req _ (by decide)) (.throw _)

theorem headerReply_sendHeader (header : FrameHeader) (planes : List Bytes) :
    RepliesOnly (HeaderReply d.msgspec) (sendHeader d req header planes) :=
  repliesOnly_bindOk (fun _ hh => repliesOnly_send (.mk header planes hh))

theorem headerReply_sendFrame (frameReq : FrameRequest) (frame : VideoFrame) (renderStart : Rat) :
    RepliesOnly (HeaderReply d.msgspec) (sendFrame d req frameReq frame renderStart) := by
  refine .bind (.lift trivial (fun _ _ => rfl)) (fun rendered => ?_)
  refine .bind (.lift trivial (fun _ _ => rfl)) (fun compStart => ?_)
  refine .bind ⟨trivial, fun _ _ => rfl⟩ (fun parts => .bind (.lift trivial (fun _ _ => rfl)) (fun compEnd => ?_))
  exact .bind (.lift trivial (fun _ _ => rfl)) (fun _ => headerReply_sendHeader d req _ _)

theorem headerReply_renderAndSend (frameReq : FrameRequest) (clip : VideoNode) (renderStart : Rat) :
    RepliesOnly (HeaderReply d.msgspec) (renderAndSend d req frameReq clip renderStart) := by
  refine .bind (.lift trivial (fun _ _ => rfl)) (fun env? => .bind (.ofExcept _) (fun env => ?_))
  refine .bind (.lift trivial (fun _ _ => rfl)) (fun used => .bind (.ofExcept _) (fun _ => ?_))
  refine .bind (.lift trivial (fun _ _ => rfl)) (fun asked => .bind (.ofExcept _) (fun _ => ?_))
  refine .bind ⟨trivial, fun _ _ => rfl⟩ (fun frame => ?_)
  exact .tryFinally (headerReply_sendFrame d req frameReq frame renderStart) ⟨trivial, fun _ _ => rfl⟩

theorem headerReply_handleGetFrame : RepliesOnly (HeaderReply d.msgspec) (handleGetFrame d req) := by
  refine .bind (.lift trivial (fun _ _ => rfl)) (fun isOpen => .ite (.pure ()) ?_)
  split
  · exact headerReply_sendHeader d req _ _
  · next frameReq _ =>
    refine .bind (.lift trivial (fun _ _ => rfl)) (fun _ => .bind (.lift trivial (fun _ _ => rfl)) (fun clip? => ?_))
    split
    · exact .ite (headerReply_sendHeader d req _ _) (.throw _)
    · next clip =>
      refine .bind (.lift trivial (fun _ _ => rfl)) (fun renderStart => ?_)
      refine .tryCatch (headerReply_renderAndSend d req frameReq clip renderStart) ?_
      rintro (_ | e)
      · exact .bind (.lift trivial (fun _ _ => rfl)) (fun _ => .throw _)
      · refine .bind (.lift trivial (fun _ _ => rfl)) (fun _ => .bind (.lift trivial (fun _ _ => rfl)) (fun tb => ?_))
        exact headerReply_sendHeader d req _ _

theorem repliesOnly_acceptRequest (h : RepliesOnly P (dispatchRequest d req)) :
    RepliesOnly P (acceptRequest d req) := by
  refine .bind (.lift trivial (fun _ _ => rfl)) (fun _ => .bind (.lift trivial (fun _ _ => rfl)) (fun _ => ?_))
  exact .tryFinally h ⟨trivial, fun _ _ => ⟨trivial, fun _ _ => rfl⟩⟩

end

/-- The message is malformed, or its token is refused. -/
def Rejected (d : Daemon) (msg : List Bytes) : Prop :=
  match RequestEnvelope.fromFrames msg with
  | .error _ => True
  | .ok req => tokenRefused d.authToken req.authToken = .ok true

theorem errorReply_of_rejected {d : Daemon} {msg : List Bytes} (hr : Rejected d msg) :
    RepliesOnly (ErrorReply d.msgspec) (handleRequest d msg) := by
  refine .bind (.lift trivial (fun _ _ => rfl)) (fun _ => .ite (.pure ()) ?_)
  unfold Rejected at hr
  cases hreq : RequestEnvelope.fromFrames msg with
  | error err =>
    unfold handleMessage
    rw [hreq]
    rcases msg with _ | ⟨identity, _ | ⟨reqIdBytes, rest⟩⟩
    · exact .pure ()
    · exact .pure ()
    · exact repliesOnly_sendErrorText d _ _ (by decide)
  | ok req =>
    rw [hreq] at hr
    rw [handleMessage_of_tokenRefused hreq hr]
    exact repliesOnly_sendErrorText d req _ (by decide)

theorem repliesOnly_of_accepted {P : List Bytes → Prop} {d : Daemon} {msg : List Bytes} (hr : ¬ Rejected d msg)
    (h : ∀ req, RequestEnvelope.fromFrames msg = .ok req → RepliesOnly P (dispatchRequest d req)) :
    RepliesOnly P (handleRequest d msg) := by
  refine .bind (.lift trivial (fun _ _ => rfl)) (fun _ => .ite (.pure ()) ?_)
  unfold Rejected at hr
  cases hreq : RequestEnvelope.fromFrames msg with
  | error err =>
    rw [hreq] at hr
    exact absurd trivial hr
  | ok req =>
    rw [hreq] at hr
    cases htr : tokenRefused d.authToken req.authToken with
    | error e =>
      rw [handleMessage_of_tokenError hreq htr]
      exact .throw _
    | ok refused =>
      rw [handleMessage_of_tokenRefused hreq htr]
      cases refused with
      | true => exact absurd htr hr
      | false => exact repliesOnly_acceptRequest d req (h req hreq)

end VsRemote
