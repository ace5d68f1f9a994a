import VsRemote.Connection
import VsRemote.OneReply
import VsRemote.ReplyDecoding

/-! What a client has in a settled future is what the handler of its own request sent. -/

namespace VsRemote

namespace Connection

variable {α : Type} {d : Daemon} {h : Host} {m : Msgspec} {identity : Bytes} {authToken : Option PyStr}
  {runner : RunnerState} {metrics : ServerMetricsCollector} {ls : List (ConnectionLabel α)} {s : Connection α}
  {r : Nat} {req : ClientRequest α} {call : RequestSent α} {reply : Reply}

/-- The future was settled by a task that handles the message of this very
request: it put the reply on the socket, and the future has what the decoder of
the request makes of it. -/
structure AnsweredBy (d : Daemon) (m : Msgspec) (s : Connection α) (r : Nat) (req : ClientRequest α)
    (call : RequestSent α) (reply : Reply) (t : Nat) (task : Task) : Prop where
  present : s.server.tasks[t]? = some task
  arrived : s.arrivals.lookup t = some r
  handles : ∃ frames, s.message req.id call = some frames ∧ task.msg = some (s.identity :: frames)
  onSocket : (.reply, s.identity :: reply.parts) ∈ task.wire
  sent : d.MaySend task.msg .reply (s.identity :: reply.parts)
  decoded : req.future = Transport.outcome m ⟨⟨r, call.decode⟩, reply⟩

theorem Connected.answeredBy (hi : Connected d m s) (hreq : s.client.requests[r]? = some req)
    (hreply : req.future.reply? = some reply) (hcall : s.calls[r]? = some call) :
    ∃ t task, AnsweredBy d m s r req call reply t task := by
  obtain ⟨hin, hown, -⟩ := hi.client.own r req reply hreq hreply
  obtain ⟨call₁, hcall₁, hout⟩ := hi.settled r req reply hreq hreply
  obtain ⟨t, task, hlookup, hh, hwire⟩ := hi.carried reply hin r hown
  obtain ⟨req₂, call₂, frames, hreq₂, hcall₂, hf, hmsg⟩ := hh.handles
  obtain rfl : call = call₁ := Option.some.inj (hcall.symm.trans hcall₁)
  obtain rfl : call = call₂ := Option.some.inj (hcall.symm.trans hcall₂)
  obtain rfl : req = req₂ := Option.some.inj (hreq.symm.trans hreq₂)
  exact ⟨t, task, hh.present, hlookup, ⟨frames, hf, hmsg⟩, hwire, hi.sending.sent t task hh.present _ hwire, hout⟩

theorem exists_call (hi : Connected d m s) (hreq : s.client.requests[r]? = some req) : ∃ call, s.calls[r]? = some call := by
  have hlt := Lookup.lt_length hreq
  rw [← hi.calls] at hlt
  exact ⟨_, List.getElem?_eq_getElem hlt⟩

/-- In every run of the server, of any other clients, of a client and of a network
that delays, loses and repeats messages, in which no reply outlives the id of its
request. -/
theorem settled_by_own_handler
    (hg : Runs.Guarded (step d h m) InTime ls (init identity authToken runner metrics))
    (hr : Runs.run (step d h m) ls (init identity authToken runner metrics) = some s) :
    ∀ (r : Nat) (req : ClientRequest α) (reply : Reply), s.client.requests[r]? = some req →
      req.future.reply? = some reply →
      ∃ call t task, s.calls[r]? = some call ∧ AnsweredBy d m s r req call reply t task := by
  intro r req reply hreq hreply
  have hi := (connected_init identity authToken runner metrics).run hg hr
  obtain ⟨call, hcall⟩ := exists_call hi hreq
  obtain ⟨t, task, ha⟩ := hi.answeredBy hreq hreply hcall
  exact ⟨call, t, task, hcall, ha⟩

theorem fromFrames_byte (identity reqIdBytes payloadBytes : Bytes) (cmd : Command) (extra : List Bytes) :
    RequestEnvelope.fromFrames (identity :: reqIdBytes :: [cmd.byte] :: payloadBytes :: extra) =
      .ok ⟨identity, reqIdBytes, intFromBytes reqIdBytes, cmd, payloadBytes, RequestEnvelope.tokenOfExtra extra, extra⟩ := by
  change RequestEnvelope.ofParts identity reqIdBytes [cmd.byte] payloadBytes extra = _
  rw [RequestEnvelope.ofParts, Command.ofNat?_byte]

/-- The handler answers the message that this call of `send_request` makes. -/
theorem AnsweredBy.request {t : Nat} {task : Task} (ha : AnsweredBy d m s r req call reply t task) :
    ∃ msg env, task.msg = some msg ∧ RequestEnvelope.fromFrames msg = .ok env ∧ env.command = call.command ∧
      env.payloadBytes = call.payloadBytes ∧ SendsReply d msg (s.identity :: reply.parts) ∧
      (Rejected d msg ↔ tokenRefused d.authToken s.authToken = .ok true) := by
  obtain ⟨frames, hf, hmsg⟩ := ha.handles
  obtain ⟨extra, rfl, htoken⟩ := messageFrames_some hf
  have hparse := fromFrames_byte s.identity (intToBytes4 req.id) call.payloadBytes call.command extra
  obtain ⟨start, tr, k, hstart, hfollows⟩ := ha.sent
  rw [hmsg] at hstart
  refine ⟨_, _, hmsg, hparse, rfl, rfl, ⟨tr, k, (show start = _ from hstart) ▸ hfollows⟩, ?_⟩
  unfold Rejected
  rw [hparse, ← htoken d.authToken]

theorem AnsweredBy.agrees {t : Nat} {task : Task} (ha : AnsweredBy d m s r req call reply t task)
    (hm : d.msgspec.Lawful) (str : {β : Type} → β → String) {method : TypedMethod}
    (hcmd : call.command = method.command)
    (htok : method.isRequestFrame = true → tokenRefused d.authToken s.authToken ≠ .ok true) :
    method.Agrees ⟨d.msgspec, str⟩ reply.parts.tail := by
  obtain ⟨msg, env, -, hparse, hcommand, -, hsends, hrejected⟩ := ha.request
  have hframes : replyFrames (s.identity :: reply.parts) = reply.parts.tail := List.drop_one
  rw [← hframes]
  by_cases hr : Rejected d msg
  · have hne : method.isRequestFrame = false := by
      by_contra hreq
      exact htok (by simpa using hreq) (hrejected.1 hr)
    exact agrees_of_error (c := ⟨d.msgspec, str⟩) hne (format_of_sends hsends (errorReply_of_rejected hr))
  · have haccepted : RepliesOnly (method.Format d.msgspec) (handleRequest d msg) := by
      refine repliesOnly_of_accepted hr (fun env' henv' => ?_)
      have hsame : env = env' := Except.ok.inj (hparse.symm.trans henv')
      exact format_dispatchRequest (hsame ▸ hcommand.trans hcmd)
    exact agrees_of_format (c := ⟨d.msgspec, str⟩) hm (format_of_sends hsends haccepted)

/-- And what a typed method makes of it is the value its handler packed, or the
error of the status the handler sent; `request_frame` is safe where the token is
not refused. -/
theorem settled_result_agrees (hm : d.msgspec.Lawful) (str : {β : Type} → β → String)
    (hg : Runs.Guarded (step d h d.msgspec) InTime ls (init identity authToken runner metrics))
    (hr : Runs.run (step d h d.msgspec) ls (init identity authToken runner metrics) = some s)
    (hreq : s.client.requests[r]? = some req) (hreply : req.future.reply? = some reply)
    (hcall : s.calls[r]? = some call) {method : TypedMethod} (hcmd : call.command = method.command)
    (htok : method.isRequestFrame = true → tokenRefused d.authToken s.authToken ≠ .ok true) :
    method.Agrees ⟨d.msgspec, str⟩ reply.parts.tail := by
  have hi := (connected_init identity authToken runner metrics).run hg hr
  obtain ⟨t, task, ha⟩ := hi.answeredBy hreq hreply hcall
  exact ha.agrees hm str hcmd htok

/-- Two pings; the second is answered first, and its answer arrives twice. -/
def pingPong : List (ConnectionLabel Bytes) :=
  [.client .start, .client .call, .client .call, .request ⟨.ping, [], .ok⟩, .request ⟨.ping, [], .ok⟩,
    .client (.enqueue 0), .client (.enqueue 1), .deliver 1, .deliver 0, .server (.sync 0 .ok), .server (.sync 0 .ok),
    .server (.sync 0 (.time 0)), .server (.put 0 none), .transfer 0 0, .transfer 0 0, .client (.receive 0),
    .client (.receive 1), .client (.settle 0)]

def pingStart : Connection Bytes := init [7] none ⟨{}, .empty, []⟩ { startTime := 0 }

theorem settled_by_own_handler_ping : ∃ s req reply call t task,
    Runs.run (step pingDaemon Host.plain pingDaemon.msgspec) pingPong pingStart = some s ∧
      s.client.requests[1]? = some req ∧ reply.parts = [[0, 0, 0, 2], [0], pongBytes] ∧
      AnsweredBy pingDaemon pingDaemon.msgspec s 1 req call reply t task := by
  obtain ⟨s, req, reply, hr, hreq, hreply, hparts⟩ : ∃ s req reply,
      Runs.run (step pingDaemon Host.plain pingDaemon.msgspec) pingPong pingStart = some s ∧
        s.client.requests[1]? = some req ∧ req.future.reply? = some reply ∧
        reply.parts = [[0, 0, 0, 2], [0], pongBytes] := ⟨_, _, _, rfl, rfl, rfl, rfl⟩
  have hg : Runs.Guarded (step pingDaemon Host.plain pingDaemon.msgspec) InTime pingPong pingStart :=
    guarded_of_short Transport.counted_init (by decide)
  obtain ⟨call, t, task, -, ha⟩ := settled_by_own_handler hg hr 1 req reply hreq hreply
  exact ⟨s, req, reply, call, t, task, hr, hreq, hparts, ha⟩

/-- Two clients ask for the outputs, and neither has the token. -/
def refusedList : List (ConnectionLabel Bytes) :=
  [.client .start, .client .call, .request ⟨.listOutputs, [], .ok⟩, .client (.enqueue 0),
    .foreign [[8], [0, 0, 0, 1], [Command.listOutputs.byte], []], .deliver 0, .server (.sync 0 .ok),
    .server (.sync 1 .ok), .server (.put 1 none), .transfer 1 0, .client (.receive 0), .client (.settle 0)]

def refusedStart : Connection Bytes := init [7] none ⟨{}, .empty, []⟩ { startTime := 0 }

theorem settled_result_agrees_refused : ∃ s req reply,
    Runs.run (step refusingDaemon Host.plain refusalCodec) refusedList refusedStart = some s ∧
      s.client.requests[0]? = some req ∧ req.future.reply? = some reply ∧
      TypedMethod.listOutputs.Agrees ⟨refusalCodec, fun _ => ""⟩ reply.parts.tail := by
  obtain ⟨s, req, reply, call, hr, hreq, hreply, hcall, hcmd⟩ : ∃ s req reply call,
      Runs.run (step refusingDaemon Host.plain refusalCodec) refusedList refusedStart = some s ∧
        s.client.requests[0]? = some req ∧ req.future.reply? = some reply ∧ s.calls[0]? = some call ∧
        call.command = .listOutputs := ⟨_, _, _, _, rfl, rfl, rfl, rfl, rfl⟩
  have hg : Runs.Guarded (step refusingDaemon Host.plain refusalCodec) InTime refusedList refusedStart :=
    guarded_of_short Transport.counted_init (by decide)
  have hagrees : TypedMethod.listOutputs.Agrees ⟨refusalCodec, fun _ => ""⟩ reply.parts.tail :=
    settled_result_agrees (d := refusingDaemon) refusalCodec_lawful (fun _ => "") hg hr hreq hreply hcall hcmd
      (fun h => by cases h)
  exact ⟨s, req, reply, hr, hreq, hreply, hagrees⟩

end Connection

end VsRemote
