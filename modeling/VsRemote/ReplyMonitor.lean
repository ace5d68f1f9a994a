import VsRemote.Tasks
import VsRemote.HandlerRules

/-! Every handler sends one reply, unless what it has read for the reply cannot be
encoded: the replies of a request are counted along its coroutine, for any answers of
the socket, the runner and the pool. -/

namespace VsRemote

/-- Replies accepted by the socket, whether a `CancelledError` was raised, and whether
the reply was lost when it was encoded. -/
structure ReplyCount where
  replies : Nat := 0
  cancelled : Bool := false
  lost : Bool := false

/-- The answer can be encoded where the handler encodes it for its reply. Around
GET_CLIP_INFO a `KeyError`, msgspec's errors and a `TypeError` are answered, too; an
answer to a load that cannot be encoded is answered as a failed load. -/
def SrvOp.answerEncodes (d : Daemon) (req : RequestEnvelope) : (o : SrvOp) → o.Res → Bool
  | .runner .listOutputs, (outputs : List OutputItem) =>
    req.command ≠ .listOutputs || (pack d.msgspec outputs).toOption.isSome
  | .runner (.clipInfo _), .ok info =>
    match pack d.msgspec info with
    | .ok _ => true
    | .error e => e.isKeyError || e.isMsgspecOrTypeError
  | .snapshot _ _ _, .ok stats => (pack d.msgspec stats).toOption.isSome
  | _, _ => true

def ReplyCount.next (g : ReplyCount) : (o : SrvOp) → o.Res → ReplyCount
  | .send .reply _, .ok _ => { g with replies := g.replies + 1 }
  | .send _ _, .error _ => { g with cancelled := true }
  | .runInExecutor _, .error .cancelled => { g with cancelled := true }
  | .awaitFrame _ _, .error .cancelled => { g with cancelled := true }
  | _, _ => g

def Command.replies : Command → Nat
  | .cancelRequest => 0
  | _ => 1

/-- A reply is sent once, to the request, and nothing after a cancellation. -/
def replyPre (req : RequestEnvelope) (g : ReplyCount) : SrvOp → Prop
  | .send .reply parts => g.cancelled = false ∧ g.replies = 0 ∧ req.command.replies = 1 ∧
    ∃ rest, parts = req.identity :: req.reqIdBytes :: rest
  | .send _ _ => g.cancelled = false
  | _ => True

/-- The socket, the clean-up of a load and the queries of the stats succeed. -/
def replyAllows (req : RequestEnvelope) : (o : SrvOp) → o.Res → Prop
  | .socketOpen, r => r = true
  | .send _ _, r => r = .ok () ∨ r = .error .cancelled
  | .runInExecutor .teardown, r => r = .ok () ∨ r = .error .cancelled
  | .useEnvironment _, r => req.command = .getStats → r = .ok ()
  | .snapshot _ _ _, r => req.command = .getStats → ∃ stats, r = .ok stats
  | .runner (.clip _), r => ∀ e, r = .error e → e.isKeyError = true
  | .runner (.clipInfo _), r => ∀ e, r = .error e → e.isKeyError = true
  | _, _ => True

def replyMonitor (d : Daemon) (req : RequestEnvelope) : Coro.Monitor srvSig ReplyCount where
  pre := replyPre req
  allows _ o r := replyAllows req o r
  next g o r := bif o.answerEncodes d req r then g.next o r else { g.next o r with lost := true }

/-- How a handler ends: cancelled, or with `n` replies, or with none where the reply was lost. -/
def Ended (n : Nat) (_ : Except Raised Unit) (g : ReplyCount) : Prop :=
  g.cancelled = true ∨ g.replies = if g.lost then 0 else n

section

open Handler

variable {d : Daemon} {req : RequestEnvelope}

variable {g : ReplyCount} {o : SrvOp} {r : o.Res}

theorem next_encodes (h : o.answerEncodes d req r = true) : (replyMonitor d req).next g o r = g.next o r := by
  simp only [replyMonitor, h, cond_true]

theorem next_not_encodes (h : o.answerEncodes d req r = false) :
    (replyMonitor d req).next g o r = { g.next o r with lost := true } := by
  simp only [replyMonitor, h, cond_false]

@[simp] theorem next_replies : ((replyMonitor d req).next g o r).replies = (g.next o r).replies := by
  cases h : o.answerEncodes d req r with
  | true => rw [next_encodes h]
  | false => rw [next_not_encodes h]

@[simp] theorem next_cancelled : ((replyMonitor d req).next g o r).cancelled = (g.next o r).cancelled := by
  cases h : o.answerEncodes d req r with
  | true => rw [next_encodes h]
  | false => rw [next_not_encodes h]

theorem ReplyCount.next_lost : (g.next o r).lost = g.lost := by
  unfold ReplyCount.next
  split <;> rfl

/-- The reply is lost with the first answer that cannot be encoded. -/
theorem run_lost (g : ReplyCount) (log : List (Coro.Event srvSig)) :
    ((replyMonitor d req).run g log).lost = (g.lost || ! log.all (fun e => SrvOp.answerEncodes d req e.op e.res)) := by
  induction log generalizing g with
  | nil => exact (Bool.or_false g.lost).symm
  | cons e log ih =>
    rw [Coro.Monitor.run, ih, List.all_cons]
    cases h : SrvOp.answerEncodes d req e.op e.res with
    | true => rw [next_encodes h, ReplyCount.next_lost, Bool.true_and]
    | false => rw [next_not_encodes h, Bool.false_and, Bool.true_or, Bool.not_false, Bool.or_true]

/-- A message ends in its reply: whatever follows a reply need only cope with
its being sent or cancelled. -/
theorem step_reply {rest : List Bytes} (hdue : req.command.replies = 1) {Q : Except Raised Unit → ReplyCount → Prop}
    (hok : Q (.ok ()) ⟨1, false, false⟩) (hcan : Q (.error .cancelled) ⟨0, true, false⟩) :
    (replyMonitor d req).step (.send .reply (req.identity :: req.reqIdBytes :: rest)) Q ⟨0, false, false⟩ := by
  refine ⟨⟨rfl, rfl, hdue, rest, rfl⟩, ?_⟩
  rintro r (rfl | rfl)
  · exact hok
  · exact hcan

theorem step_teardown {g : ReplyCount} {Q : Except Raised Unit → ReplyCount → Prop}
    (hok : Q (.ok ()) g) (hcan : Q (.error .cancelled) { g with cancelled := true }) :
    (replyMonitor d req).step (.runInExecutor .teardown) Q g := by
  refine ⟨trivial, ?_⟩
  rintro r (rfl | rfl)
  · exact hok
  · exact hcan

theorem step_load {g : ReplyCount} {action : LoadAction}
    {Q : Except Raised (List OutputItem) → ReplyCount → Prop} (hok : ∀ outputs, Q (.ok outputs) g)
    (hexc : ∀ e, Q (.error (.exc e)) g) (hcan : Q (.error .cancelled) { g with cancelled := true }) :
    (replyMonitor d req).step (.runInExecutor (.load action)) Q g := by
  refine ⟨trivial, ?_⟩
  rintro ((_ | e) | outputs) -
  · exact hcan
  · exact hexc e
  · exact hok outputs

/-- msgspec can encode every error text and every header. -/
structure EncodesReplies (m : Msgspec) : Prop where
  payload : ∀ payload : RemoteErrorPayload, ∃ b, pack m payload = .ok b
  header : ∀ header : FrameHeader, ∃ b, pack m header = .ok b

theorem ended_sendReply (hdue : req.command.replies = 1)
    (status : StatusCode) (payload : Bytes) (extra : List Bytes) :
    (sendReply req status payload extra).run.wp (replyMonitor d req) (Ended 1) ⟨0, false, false⟩ := by
  simp only [sendReply, wp_sendMultipart]
  exact step_reply hdue (.inr rfl) (.inl rfl)

/-- The history comes after the reply, so nothing is lost with it. -/
theorem ended_sendHistory (events : List StreamEvent) :
    (sendHistory d req events).run.wp (replyMonitor d req) (Ended 1) ⟨1, false, false⟩ := by
  induction events with
  | nil => exact .inr rfl
  | cons event events ih =>
    simp only [sendHistory, Coro.wp_run_bind, wp_ofExcept, wp_sendMultipart]
    cases d.msgspec.encode event.toObj with
    | error e => exact .inr rfl
    | ok b =>
      refine ⟨rfl, ?_⟩
      rintro r (rfl | rfl)
      · exact ih
      · exact .inl rfl

theorem isMsgspec_not_isKeyError {e : PyExc} (h : e.isMsgspecOrTypeError = true) :
    e.isKeyError = false := by
  unfold PyExc.isMsgspecOrTypeError at h
  unfold PyExc.isKeyError
  rcases of_decide_eq_true h with h | h | h <;> simp [h]

section

variable (hm : EncodesReplies d.msgspec) (hdue : req.command.replies = 1)
include hm hdue

theorem ended_sendError (status : StatusCode) (payload : RemoteErrorPayload) :
    (sendError d req status payload).run.wp (replyMonitor d req) (Ended 1) ⟨0, false, false⟩ := by
  obtain ⟨b, hb⟩ := hm.payload payload
  simp only [sendError, hb, Coro.wp_run_bind, wp_ofExcept, wp_sendMultipart]
  exact step_reply hdue (.inr rfl) (.inl rfl)

theorem ended_sendHeader (header : FrameHeader) (planes : List Bytes) :
    (sendHeader d req header planes).run.wp (replyMonitor d req) (Ended 1) ⟨0, false, false⟩ := by
  obtain ⟨b, hb⟩ := hm.header header
  simp only [sendHeader, hb, Coro.wp_run_bind, wp_ofExcept]
  exact ended_sendReply hdue _ _ _

theorem ended_dispatchExecutor {α : Type} [Packed α] (typeName : String) (action : α → LoadAction) :
    (dispatchExecutor d req α typeName action).run.wp (replyMonitor d req) (Ended 1) ⟨0, false, false⟩ := by
  unfold dispatchExecutor
  cases unpackPayload d.msgspec α req.payloadBytes with
  | error e => exact ended_sendError hm hdue _ _
  | ok payload =>
    simp only [Coro.wp_run_bind, wp_tryExcept, wp_runLoad]
    have failed : ∀ e : PyExc, (do
        let tb ← traceback (origError e)
        runTeardown
        sendError d req (if e.isNotFound then .notFound else .error) (buildErrorPayload e tb) : Handler Unit).run.wp
          (replyMonitor d req) (Ended 1) ⟨0, false, false⟩ := by
      intro e
      simp only [Coro.wp_run_bind, wp_traceback, wp_runTeardown]
      refine ⟨trivial, fun tb _ => step_teardown ?_ (.inl rfl)⟩
      exact ended_sendError hm hdue _ _
    refine step_load (fun outputs => ?_) (fun e => ?_) (.inl rfl)
    · cases hpack : pack d.msgspec outputs with
      | ok b =>
        simp only [hpack, sendReply, wp_ofExcept, wp_sendMultipart]
        exact step_reply hdue (.inr rfl) (.inl rfl)
      | error e =>
        simp only [hpack, wp_ofExcept, Coro.wp_run_pure]
        exact failed e
    · simp only [Coro.wp_run_pure]
      exact failed e

theorem ended_handleGetStats (hstats : req.command = .getStats) :
    (handleGetStats d req).run.wp (replyMonitor d req) (Ended 1) ⟨0, false, false⟩ := by
  unfold handleGetStats
  simp only [Coro.wp_run_bind, wp_runnerEnvironment]
  refine ⟨trivial, fun r _ => ?_⟩
  cases r with
  | error e => exact ended_sendError hm hdue _ _
  | ok env =>
    simp only [Coro.wp_run_bind, wp_useEnvironment, wp_ofExcept, wp_runnerScriptPath, wp_runnerListOutputs,
      wp_inflightLen, wp_snapshot]
    refine ⟨trivial, fun r hok => ?_⟩
    obtain rfl := hok hstats
    refine ⟨trivial, fun active _ => ⟨trivial, fun (outputs : List OutputItem) _ => ?_⟩⟩
    have hlist : SrvOp.answerEncodes d req (.runner .listOutputs) outputs = true := by
      simp only [SrvOp.answerEncodes, hstats, ne_eq, reduceCtorEq, not_false_eq_true, decide_true, Bool.true_or]
    rw [next_encodes hlist]
    refine ⟨trivial, fun inFlight _ => ⟨trivial, fun r hsnap => ?_⟩⟩
    obtain ⟨stats, rfl⟩ := hsnap hstats
    cases hpack : pack d.msgspec stats with
    | ok b =>
      simp only [hpack]
      rw [next_encodes (by simp only [SrvOp.answerEncodes, hpack, Except.toOption, Option.isSome_some])]
      exact ended_sendReply hdue _ _ _
    | error e =>
      simp only [hpack]
      rw [next_not_encodes (by simp only [SrvOp.answerEncodes, hpack, Except.toOption, Option.isSome_none])]
      exact .inr rfl

theorem ended_handleGetClipInfo :
    (handleGetClipInfo d req).run.wp (replyMonitor d req) (Ended 1) ⟨0, false, false⟩ := by
  simp only [handleGetClipInfo, wp_tryExcept, Coro.wp_run_bind, wp_ofExcept, wp_runnerGetClipInfo]
  cases hp : unpackPayload d.msgspec OutputIndexRequest req.payloadBytes with
  | error e =>
    have he := unpackPayload_error hp
    simp only [isMsgspec_not_isKeyError he, he, Bool.false_eq_true, if_false, if_true]
    exact ended_sendError hm hdue _ _
  | ok payload =>
    refine ⟨trivial, fun r hkey => ?_⟩
    cases r with
    | error e =>
      simp only [hkey e rfl, if_true]
      exact ended_sendError hm hdue _ _
    | ok info =>
      cases hpack : pack d.msgspec info with
      | ok b =>
        simp only [hpack, sendReply, wp_sendMultipart]
        rw [next_encodes (by simp only [SrvOp.answerEncodes, hpack])]
        exact step_reply hdue (.inr rfl) (.inl rfl)
      | error e =>
        simp only [hpack]
        by_cases hkey : e.isKeyError = true
        · rw [if_pos hkey, next_encodes (by simp only [SrvOp.answerEncodes, hpack, hkey, Bool.true_or])]
          exact ended_sendError hm hdue _ _
        · rw [if_neg hkey]
          by_cases htype : e.isMsgspecOrTypeError = true
          · rw [if_pos htype, next_encodes (by simp only [SrvOp.answerEncodes, hpack, htype, Bool.or_true])]
            exact ended_sendError hm hdue _ _
          · rw [if_neg htype, next_not_encodes (by simp only [SrvOp.answerEncodes, hpack, hkey, htype, Bool.or_self])]
            exact .inr rfl

theorem ended_handleSubscribeStream :
    (handleSubscribeStream d req).run.wp (replyMonitor d req) (Ended 1) ⟨0, false, false⟩ := by
  unfold handleSubscribeStream
  cases unpackPayload d.msgspec StreamSubscribeRequest req.payloadBytes with
  | error e => exact ended_sendError hm hdue _ _
  | ok streamReq =>
    simp only [Coro.wp_run_bind, wp_subscribersAdd, sendReply, wp_sendMultipart]
    refine ⟨trivial, fun _ _ => step_reply hdue ?_ (.inl rfl)⟩
    split
    · simp only [Coro.wp_run_bind, wp_runnerStartupEvents]
      exact ⟨trivial, fun events _ => ended_sendHistory events⟩
    · exact .inr rfl

/-- What the body of the `with` leaves to the clauses around it. -/
def Rendered (r : Except Raised Unit) (g : ReplyCount) : Prop :=
  (g = ⟨1, false, false⟩ ∧ r = .ok ()) ∨ (g = ⟨0, true, false⟩ ∧ r = .error .cancelled) ∨
    (g = ⟨0, false, false⟩ ∧ ∃ e, r = .error (.exc e))

theorem rendered_sendHeader (header : FrameHeader) (planes : List Bytes) :
    (sendHeader d req header planes).run.wp (replyMonitor d req) Rendered ⟨0, false, false⟩ := by
  obtain ⟨b, hb⟩ := hm.header header
  simp only [sendHeader, hb, Coro.wp_run_bind, wp_ofExcept, sendReply, wp_sendMultipart]
  exact step_reply hdue (.inl ⟨rfl, rfl⟩) (.inr (.inl ⟨rfl, rfl⟩))

theorem rendered_sendFrame (frameReq : FrameRequest) (frame : VideoFrame) (start : Rat) :
    (sendFrame d req frameReq frame start).run.wp (replyMonitor d req) Rendered ⟨0, false, false⟩ := by
  simp only [sendFrame, Coro.wp_run_bind, wp_perfCounter, wp_runExtract, wp_metrics]
  refine ⟨trivial, fun rendered _ => ⟨trivial, fun compStart _ => ⟨trivial, fun r _ => ?_⟩⟩⟩
  rcases r with (_ | e) | ⟨planes, size⟩
  · exact .inr (.inl ⟨rfl, rfl⟩)
  · exact .inr (.inr ⟨rfl, e, rfl⟩)
  · exact ⟨trivial, fun compEnd _ => ⟨trivial, fun _ _ => rendered_sendHeader hm hdue _ _⟩⟩

theorem rendered_renderAndSend (frameReq : FrameRequest) (clip : VideoNode) (start : Rat) :
    (renderAndSend d req frameReq clip start).run.wp (replyMonitor d req) Rendered ⟨0, false, false⟩ := by
  simp only [renderAndSend, Coro.wp_run_bind, wp_runnerEnvironment, wp_ofExcept, wp_useEnvironment,
    wp_getFrameAsync, wp_awaitFrame, Coro.wp_run_tryFinally, wp_closeFrame]
  refine ⟨trivial, fun r _ => ?_⟩
  rcases r with e | env
  · exact .inr (.inr ⟨rfl, e, rfl⟩)
  refine ⟨trivial, fun r _ => ?_⟩
  rcases r with e | _
  · exact .inr (.inr ⟨rfl, e, rfl⟩)
  refine ⟨trivial, fun r _ => ?_⟩
  rcases r with e | _
  · exact .inr (.inr ⟨rfl, e, rfl⟩)
  refine ⟨trivial, fun r _ => ?_⟩
  rcases r with (_ | e) | frame
  · exact .inr (.inl ⟨rfl, rfl⟩)
  · exact .inr (.inr ⟨rfl, e, rfl⟩)
  · refine Coro.wp_mono _ (rendered_sendFrame hm hdue frameReq frame start) (fun r g hg => ?_)
    exact ⟨trivial, fun _ _ => hg⟩

theorem ended_handleGetFrame :
    (handleGetFrame d req).run.wp (replyMonitor d req) (Ended 1) ⟨0, false, false⟩ := by
  simp only [handleGetFrame, Coro.wp_run_bind, wp_socketOpen]
  refine ⟨trivial, ?_⟩
  rintro _ rfl
  simp only [Bool.not_true, Bool.false_eq_true, if_false]
  cases unpackPayload d.msgspec FrameRequest req.payloadBytes with
  | error e => exact ended_sendHeader hm hdue _ _
  | ok frameReq =>
    simp only [Coro.wp_run_bind, wp_metrics, wp_runnerGetClip]
    refine ⟨trivial, fun _ _ => ⟨trivial, fun r hkey => ?_⟩⟩
    cases r with
    | error e =>
      simp only [hkey e rfl, if_true]
      exact ended_sendHeader hm hdue _ _
    | ok clip =>
      simp only [Coro.wp_run_bind, wp_perfCounter, Coro.wp_run_tryCatch]
      refine ⟨trivial, fun start _ => ?_⟩
      refine Coro.wp_mono _ (rendered_renderAndSend hm hdue frameReq clip start) ?_
      rintro r g (⟨rfl, rfl⟩ | ⟨rfl, rfl⟩ | ⟨rfl, e, rfl⟩)
      · exact .inr rfl
      · simp only [Coro.wp_run_bind, wp_metrics]
        exact ⟨trivial, fun _ _ => .inl rfl⟩
      · simp only [Coro.wp_run_bind, wp_metrics, wp_traceback]
        exact ⟨trivial, fun _ _ => ⟨trivial, fun tb _ => ended_sendHeader hm hdue _ _⟩⟩

end

theorem ended_dispatchRequest (hm : EncodesReplies d.msgspec) :
    (dispatchRequest d req).run.wp (replyMonitor d req) (Ended req.command.replies) ⟨0, false, false⟩ := by
  by_cases hcan : req.command = .cancelRequest
  · simp only [dispatchRequest, hcan, handleCancelRequest]
    split
    · exact .inr rfl
    · simp only [wp_inflightCancel]
      exact ⟨trivial, fun _ _ => .inr rfl⟩
  have hdue : req.command.replies = 1 := by
    unfold Command.replies
    split <;> simp_all
  rw [hdue]
  unfold dispatchRequest
  cases hc : req.command with
  | getStats => exact ended_handleGetStats hm hdue hc
  | cancelRequest => exact absurd hc hcan
  | ping => exact ended_sendReply hdue _ _ _
  | listOutputs =>
    simp only [Coro.wp_run_bind, wp_runnerListOutputs, wp_ofExcept]
    refine ⟨trivial, fun (outputs : List OutputItem) _ => ?_⟩
    cases hpack : pack d.msgspec outputs with
    | ok b =>
      simp only [hpack]
      rw [next_encodes (by simp only [SrvOp.answerEncodes, hpack, Except.toOption, Option.isSome_some, Bool.or_true])]
      exact ended_sendReply hdue _ _ _
    | error e =>
      simp only [hpack]
      rw [next_not_encodes (by simp only [SrvOp.answerEncodes, hpack, hc, Except.toOption, Option.isSome_none, ne_eq,
        not_true_eq_false, decide_false, Bool.or_self])]
      exact .inr rfl
  | getClipInfo => exact ended_handleGetClipInfo hm hdue
  | getFrame => exact ended_handleGetFrame hm hdue
  | subscribeStream => exact ended_handleSubscribeStream hm hdue
  | unsubscribeStream =>
    simp only [Coro.wp_run_bind, wp_subscribersDiscard]
    exact ⟨trivial, fun _ _ => ended_sendReply hdue _ _ _⟩
  | close =>
    simp only [Coro.wp_run_bind, wp_subscribersDiscard]
    exact ⟨trivial, fun _ _ => ended_sendReply hdue _ _ _⟩
  | reload => exact ended_dispatchExecutor hm hdue _ _
  | loadCode =>
    simp only [Coro.wp_run_ite]
    split
    · exact ended_dispatchExecutor hm hdue _ _
    · exact ended_sendError hm hdue _ _
  | loadScript =>
    simp only [Coro.wp_run_ite]
    split
    · exact ended_dispatchExecutor hm hdue _ _
    · exact ended_sendError hm hdue _ _
  | unknown => exact ended_sendError hm hdue _ _

theorem ended_acceptRequest (hm : EncodesReplies d.msgspec) :
    (acceptRequest d req).run.wp (replyMonitor d req) (Ended req.command.replies) ⟨0, false, false⟩ := by
  simp only [acceptRequest, Coro.wp_run_bind, wp_inflightSet, wp_metrics, Coro.wp_run_tryFinally,
    wp_endRequest]
  refine ⟨trivial, fun _ _ => ⟨trivial, fun _ _ => ?_⟩⟩
  refine Coro.wp_mono _ (ended_dispatchRequest hm) (fun r g hg => ?_)
  exact ⟨trivial, fun _ _ => ⟨trivial, fun _ _ => hg⟩⟩

end

/-- The request a message of at least two frames is answered as. -/
def receivedRequest (identity reqIdBytes : Bytes) (rest : List Bytes) : RequestEnvelope :=
  match RequestEnvelope.fromFrames (identity :: reqIdBytes :: rest) with
  | .ok req => req
  | .error _ => RequestEnvelope.fromData identity reqIdBytes

theorem receivedRequest_identity (identity reqIdBytes : Bytes) (rest : List Bytes) :
    (receivedRequest identity reqIdBytes rest).identity = identity ∧
      (receivedRequest identity reqIdBytes rest).reqIdBytes = reqIdBytes := by
  unfold receivedRequest
  split
  · next req hreq =>
    obtain ⟨i, r, c, rest', hframes, -, heq⟩ := RequestEnvelope.fromFrames_ok hreq
    simp only [List.cons.injEq] at hframes
    rw [heq]
    exact ⟨hframes.1.symm, hframes.2.1.symm⟩
  · exact ⟨rfl, rfl⟩

theorem ended_handleRequest {d : Daemon} (hm : EncodesReplies d.msgspec) (htok : d.authToken = none)
    (identity reqIdBytes : Bytes) (rest : List Bytes) :
    (handleRequest d (identity :: reqIdBytes :: rest)).run.wp
      (replyMonitor d (receivedRequest identity reqIdBytes rest))
      (Ended (receivedRequest identity reqIdBytes rest).command.replies) ⟨0, false, false⟩ := by
  simp only [handleRequest, Coro.wp_run_bind, Handler.wp_socketOpen]
  refine ⟨trivial, ?_⟩
  rintro _ rfl
  simp only [Bool.not_true, Bool.false_eq_true, if_false]
  unfold handleMessage receivedRequest
  cases hreq : RequestEnvelope.fromFrames (identity :: reqIdBytes :: rest) with
  | error e => exact ended_sendError hm rfl _ _
  | ok req =>
    simp only [htok, tokenRefused, Coro.wp_run_bind, Handler.wp_ofExcept, Bool.false_eq_true, if_false]
    exact ended_acceptRequest hm

end VsRemote
