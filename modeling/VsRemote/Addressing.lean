import VsRemote.Lifecycle
import VsRemote.RenderEnvironment

/-! Where a message of the server goes: a reply to the identity and the id of the
message that is handled, an event to an identity under the id 0. -/

namespace VsRemote

open Coro (Follows)
open Handler

/-- How a handler of the message `msg` (`none` for a broadcast) may address what it sends. -/
def Addresses (msg : Option (List Bytes)) : SendOrigin → List Bytes → Prop
  | .reply, parts => ∃ identity reqIdBytes rest frames, msg = some (identity :: reqIdBytes :: rest) ∧
      parts = identity :: reqIdBytes :: frames
  | .history, parts => ∃ identity rest frames, msg = some (identity :: rest) ∧ parts = identity :: zeroReqId :: frames
  | .broadcast, parts => ∃ identity frames, parts = identity :: zeroReqId :: frames

def addressMonitor (P : SendOrigin → List Bytes → Prop) : Coro.Monitor srvSig Unit where
  pre
    | _, .send origin parts => P origin parts
    | _, _ => True
  allows _ _ _ := True
  next _ _ _ := ()

theorem byte_ne_ok {status : StatusCode} (hne : status ≠ .ok) : status.byte ≠ StatusCode.ok.byte := by
  cases status with
  | ok => exact absurd rfl hne
  | _ => decide

/-- Every message the handler sends, along every schedule, is such a message. -/
abbrev SendsWithin (P : SendOrigin → List Bytes → Prop) {α : Type} (x : Handler α) : Prop := Keeps (addressMonitor P) () x

/-- The replies to a request and the events replayed for it are such messages. -/
structure ServesRequest (P : SendOrigin → List Bytes → Prop) (req : RequestEnvelope) : Prop where
  reply : ∀ frames, P .reply (req.identity :: req.reqIdBytes :: frames)
  history : req.command = .subscribeStream → ∀ frames, P .history (req.identity :: zeroReqId :: frames)

section

variable {P : SendOrigin → List Bytes → Prop} {d : Daemon} {req : RequestEnvelope}

theorem sendsWithin_send {origin : SendOrigin} {parts : List Bytes} (hp : P origin parts) :
    SendsWithin P (sendMultipart origin parts) := ⟨hp, fun _ _ => rfl⟩

theorem sendsWithin_op {α : Type} {o : SrvOp} {f : o.Res → Handler α} (ho : ∀ origin parts, o ≠ .send origin parts)
    (hf : ∀ r, SendsWithin P (f r)) : SendsWithin P ((ExceptT.lift (Coro.op (S := srvSig) o) : Handler o.Res) >>= f) := by
  refine .bind (.lift ?_ (fun _ _ => rfl)) hf
  cases o with
  | send origin parts => exact absurd rfl (ho origin parts)
  | _ => trivial

theorem sendsWithin_sendReply (h : ServesRequest P req) (status : StatusCode) (payload : Bytes) (extra : List Bytes) :
    SendsWithin P (sendReply req status payload extra) := sendsWithin_send (h.reply _)

theorem sendsWithin_sendError (h : ServesRequest P req) (status : StatusCode) (payload : RemoteErrorPayload) :
    SendsWithin P (sendError d req status payload) :=
  .bind (.ofExcept _) (fun _ => sendsWithin_send (h.reply _))

theorem sendsWithin_sendErrorText (h : ServesRequest P req) (status : StatusCode) (message : String) :
    SendsWithin P (sendErrorText d req status message) := sendsWithin_sendError h _ _

theorem sendsWithin_sendHistory (h : ServesRequest P req) (hcmd : req.command = .subscribeStream)
    (events : List StreamEvent) : SendsWithin P (sendHistory d req events) := by
  induction events with
  | nil => exact .pure ()
  | cons event events ih =>
    exact .bind (.ofExcept _) (fun _ => .bind (sendsWithin_send (h.history hcmd _)) (fun _ => ih))

theorem sendsWithin_sendHeader (h : ServesRequest P req) (header : FrameHeader) (planes : List Bytes) :
    SendsWithin P (sendHeader d req header planes) :=
  .bind (.ofExcept _) (fun _ => sendsWithin_sendReply h _ _ _)

theorem sendsWithin_sendAll {payload : Bytes}
    (h : ∀ identity, P .broadcast [identity, zeroReqId, [StatusCode.ok.byte], payload]) (subscribers : List Bytes) :
    SendsWithin P (sendAll payload subscribers) := by
  induction subscribers with
  | nil => exact .pure ()
  | cons identity subscribers ih =>
    refine .bind (.tryExcept (sendsWithin_send (h identity)) (fun e => ?_)) (fun _ => ih)
    exact .ite (.pure ()) (.throw _)

theorem sendsWithin_sendFrame (h : ServesRequest P req) (frameReq : FrameRequest) (frame : VideoFrame)
    (renderStart : Rat) : SendsWithin P (sendFrame d req frameReq frame renderStart) := by
  refine sendsWithin_op (fun _ _ he => by cases he) (fun rendered => ?_)
  refine sendsWithin_op (fun _ _ he => by cases he) (fun compStart => ?_)
  refine .bind ⟨trivial, fun _ _ => rfl⟩ (fun parts => ?_)
  refine sendsWithin_op (fun _ _ he => by cases he) (fun compEnd => ?_)
  exact sendsWithin_op (fun _ _ he => by cases he) (fun _ => sendsWithin_sendHeader h _ _)

theorem sendsWithin_renderAndSend (h : ServesRequest P req) (frameReq : FrameRequest) (clip : VideoNode)
    (renderStart : Rat) : SendsWithin P (renderAndSend d req frameReq clip renderStart) := by
  refine sendsWithin_op (fun _ _ he => by cases he) (fun env? => .bind (.ofExcept _) (fun env => ?_))
  refine sendsWithin_op (fun _ _ he => by cases he) (fun used => .bind (.ofExcept _) (fun _ => ?_))
  refine sendsWithin_op (fun _ _ he => by cases he) (fun asked => .bind (.ofExcept _) (fun _ => ?_))
  refine .bind ⟨trivial, fun _ _ => rfl⟩ (fun frame => ?_)
  exact .tryFinally (sendsWithin_sendFrame h _ _ _) ⟨trivial, fun _ _ => rfl⟩

theorem sendsWithin_handleGetFrame (h : ServesRequest P req) : SendsWithin P (handleGetFrame d req) := by
  refine sendsWithin_op (fun _ _ he => by cases he) (fun isOpen => .ite (.pure ()) ?_)
  split
  · exact sendsWithin_sendHeader h _ _
  · next frameReq _ =>
    refine sendsWithin_op (fun _ _ he => by cases he) (fun _ => ?_)
    refine sendsWithin_op (fun _ _ he => by cases he) (fun clip? => ?_)
    split
    · exact .ite (sendsWithin_sendHeader h _ _) (.throw _)
    · next clip =>
      refine sendsWithin_op (fun _ _ he => by cases he) (fun renderStart => ?_)
      refine .tryCatch (sendsWithin_renderAndSend h _ _ _) (fun e => ?_)
      cases e with
      | cancelled => exact sendsWithin_op (fun _ _ he => by cases he) (fun _ => .throw _)
      | exc e =>
        refine sendsWithin_op (fun _ _ he => by cases he) (fun _ => ?_)
        exact sendsWithin_op (fun _ _ he => by cases he) (fun tb => sendsWithin_sendHeader h _ _)

theorem sendsWithin_handleGetStats (h : ServesRequest P req) : SendsWithin P (handleGetStats d req) := by
  refine sendsWithin_op (fun _ _ he => by cases he) (fun env? => ?_)
  split
  · exact sendsWithin_sendErrorText h _ _
  · next env =>
    refine sendsWithin_op (fun _ _ he => by cases he) (fun used => .bind (.ofExcept _) (fun _ => ?_))
    refine sendsWithin_op (fun _ _ he => by cases he) (fun activeScript => ?_)
    refine sendsWithin_op (fun _ _ he => by cases he) (fun outputs => ?_)
    refine sendsWithin_op (fun _ _ he => by cases he) (fun inFlight => ?_)
    refine sendsWithin_op (fun _ _ he => by cases he) (fun stats? => ?_)
    exact .bind (.ofExcept _) (fun stats => .bind (.ofExcept _) (fun _ => sendsWithin_sendReply h _ _ _))

theorem sendsWithin_handleGetClipInfo (h : ServesRequest P req) : SendsWithin P (handleGetClipInfo d req) := by
  refine .tryExcept ?_ (fun e => ?_)
  · refine .bind (.ofExcept _) (fun payload => sendsWithin_op (fun _ _ he => by cases he) (fun info? => ?_))
    exact .bind (.ofExcept _) (fun info => .bind (.ofExcept _) (fun _ => sendsWithin_sendReply h _ _ _))
  · exact .ite (sendsWithin_sendErrorText h _ _) (.ite (sendsWithin_sendErrorText h _ _) (.throw _))

theorem sendsWithin_handleSubscribeStream (h : ServesRequest P req) (hcmd : req.command = .subscribeStream) :
    SendsWithin P (handleSubscribeStream d req) := by
  unfold handleSubscribeStream
  split
  · exact sendsWithin_sendErrorText h _ _
  · refine sendsWithin_op (fun _ _ he => by cases he) (fun _ => .bind (sendsWithin_sendReply h _ _ _) (fun _ => ?_))
    refine .ite ?_ (.pure ())
    exact sendsWithin_op (fun _ _ he => by cases he) (fun events => sendsWithin_sendHistory h hcmd events)

theorem sendsWithin_dispatchExecutor (h : ServesRequest P req) (α : Type) [Packed α] (typeName : String)
    (action : α → LoadAction) : SendsWithin P (dispatchExecutor d req α typeName action) := by
  unfold dispatchExecutor
  split
  · exact sendsWithin_sendErrorText h _ _
  · next payload _ =>
    refine .bind (.tryExcept ?_ (fun e => .pure _)) (fun err => ?_)
    · refine .bind ⟨trivial, fun _ _ => rfl⟩ (fun outputs => .bind (.ofExcept _) (fun _ => ?_))
      exact .bind (sendsWithin_sendReply h _ _ _) (fun _ => .pure _)
    · cases err with
      | none => exact .pure ()
      | some e =>
        refine sendsWithin_op (fun _ _ he => by cases he) (fun tb => ?_)
        exact .bind ⟨trivial, fun _ _ => rfl⟩ (fun _ => sendsWithin_sendError h _ _)

theorem sendsWithin_dispatchRequest (h : ServesRequest P req) : SendsWithin P (dispatchRequest d req) := by
  unfold dispatchRequest
  cases hcmd : req.command with
  | getStats => exact sendsWithin_handleGetStats h
  | cancelRequest =>
    refine keeps_handleCancelRequest d req (fun key => ⟨trivial, fun _ _ => rfl⟩)
  | ping => exact sendsWithin_sendReply h _ _ _
  | listOutputs =>
    refine sendsWithin_op (fun _ _ he => by cases he) (fun outputs => ?_)
    exact .bind (.ofExcept _) (fun _ => sendsWithin_sendReply h _ _ _)
  | getClipInfo => exact sendsWithin_handleGetClipInfo h
  | getFrame => exact sendsWithin_handleGetFrame h
  | subscribeStream => exact sendsWithin_handleSubscribeStream h hcmd
  | unsubscribeStream => exact sendsWithin_op (fun _ _ he => by cases he) (fun _ => sendsWithin_sendReply h _ _ _)
  | close => exact sendsWithin_op (fun _ _ he => by cases he) (fun _ => sendsWithin_sendReply h _ _ _)
  | reload => exact sendsWithin_dispatchExecutor h _ _ _
  | loadCode => exact .ite (sendsWithin_dispatchExecutor h _ _ _) (sendsWithin_sendErrorText h _ _)
  | loadScript => exact .ite (sendsWithin_dispatchExecutor h _ _ _) (sendsWithin_sendErrorText h _ _)
  | unknown => exact sendsWithin_sendErrorText h _ _

theorem sendsWithin_acceptRequest (h : ServesRequest P req) : SendsWithin P (acceptRequest d req) := by
  refine sendsWithin_op (fun _ _ he => by cases he) (fun _ => sendsWithin_op (fun _ _ he => by cases he) (fun _ => ?_))
  exact .tryFinally (sendsWithin_dispatchRequest h) ⟨trivial, fun _ _ => ⟨trivial, fun _ _ => rfl⟩⟩

end

theorem servesRequest_fromFrames {msg : List Bytes} {req : RequestEnvelope}
    (hreq : RequestEnvelope.fromFrames msg = .ok req) : ServesRequest (Addresses (some msg)) req := by
  obtain ⟨identity, reqIdBytes, cmdByte, rest, rfl, -, he⟩ := RequestEnvelope.fromFrames_ok hreq
  rw [he]
  exact ⟨fun frames => ⟨identity, reqIdBytes, _, frames, rfl, rfl⟩, fun _ frames => ⟨identity, _, frames, rfl, rfl⟩⟩

/-- It is enough to look at the request that the message is, or that its error is sent for. -/
theorem sendsWithin_handleRequest {P : SendOrigin → List Bytes → Prop} {d : Daemon} {msg : List Bytes}
    (hmalformed : ∀ identity reqIdBytes rest, msg = identity :: reqIdBytes :: rest →
      ServesRequest P (RequestEnvelope.fromData identity reqIdBytes))
    (hrequest : ∀ req, RequestEnvelope.fromFrames msg = .ok req → ServesRequest P req) :
    SendsWithin P (handleRequest d msg) := by
  refine sendsWithin_op (fun _ _ he => by cases he) (fun isOpen => .ite (.pure ()) ?_)
  unfold handleMessage
  split
  · split
    · exact sendsWithin_sendErrorText (hmalformed _ _ _ rfl) _ _
    · exact .pure ()
  · next req hreq =>
    have hserves := hrequest req hreq
    exact .bind (.ofExcept _) (fun refused => .ite (sendsWithin_sendErrorText hserves _ _) (sendsWithin_acceptRequest hserves))

theorem sendsWithin_addresses (d : Daemon) (msg : List Bytes) : SendsWithin (Addresses (some msg)) (handleRequest d msg) := by
  refine sendsWithin_handleRequest (fun identity reqIdBytes rest he => ?_) (fun req hreq => servesRequest_fromFrames hreq)
  subst he
  exact ⟨fun frames => ⟨identity, reqIdBytes, rest, frames, rfl, rfl⟩,
    fun _ frames => ⟨identity, reqIdBytes :: rest, frames, rfl, rfl⟩⟩

/-- The program a task begins with. -/
def Daemon.Starts (d : Daemon) : Option (List Bytes) → HandlerProg → Prop
  | some msg, start => start = (handleRequest d msg).run
  | none, start => ∃ payload subscribers, start = (sendAll payload subscribers).run

/-- The handler of the message sends this at some point of some schedule. -/
def Daemon.MaySend (d : Daemon) (msg : Option (List Bytes)) (origin : SendOrigin) (parts : List Bytes) : Prop :=
  ∃ start tr k, d.Starts msg start ∧ Follows start tr (.call (.send origin parts) k)

theorem SendsWithin.of_maySend {P : SendOrigin → List Bytes → Prop} {x : Handler Unit} {origin : SendOrigin}
    {parts : List Bytes} {tr : List (Coro.Event srvSig)} {k : SrvOp.Res (.send origin parts) → HandlerProg}
    (hx : SendsWithin P x) (hf : Follows x.run tr (.call (.send origin parts) k)) : P origin parts :=
  Coro.pre_follows_call (addressMonitor P) hx hf ((addressMonitor P).allows_of_forall (fun _ _ _ => trivial) () tr)

theorem Daemon.MaySend.addresses {d : Daemon} {msg : Option (List Bytes)} {origin : SendOrigin} {parts : List Bytes}
    (hs : d.MaySend msg origin parts) : Addresses msg origin parts := by
  obtain ⟨start, tr, k, hstart, hf⟩ := hs
  cases msg with
  | some msg =>
    obtain rfl : start = (handleRequest d msg).run := hstart
    exact (sendsWithin_addresses d msg).of_maySend hf
  | none =>
    obtain ⟨payload, subscribers, rfl⟩ := hstart
    exact SendsWithin.of_maySend (sendsWithin_sendAll (fun identity => ⟨identity, _, rfl⟩) subscribers) hf

theorem Task.Handles.exists_starts {d : Daemon} {task : Task} (hh : task.Handles d) :
    ∃ start, d.Starts task.msg start ∧ task.Runs start := by
  unfold Handles at hh
  cases hmsg : task.msg with
  | some msg =>
    rw [hmsg] at hh
    exact ⟨_, rfl, hh⟩
  | none =>
    rw [hmsg] at hh
    obtain ⟨payload, subscribers, hr⟩ := hh
    exact ⟨_, ⟨payload, subscribers, rfl⟩, hr⟩

theorem Task.Handles.maySend {d : Daemon} {task : Task} {origin : SendOrigin} {parts : List Bytes}
    {k : SrvOp.Res (.send origin parts) → HandlerProg} (hh : task.Handles d)
    (hp : task.prog = .call (.send origin parts) k) : d.MaySend task.msg origin parts := by
  obtain ⟨start, hstart, hf | ⟨-, hp'⟩⟩ := hh.exists_starts
  · exact ⟨start, task.log, k, hstart, hp ▸ hf⟩
  · rw [hp'] at hp
    cases hp

/-- All that the task has put on the socket was sent by its handler. -/
def Task.SentBy (d : Daemon) (task : Task) : Prop :=
  ∀ message ∈ task.wire, d.MaySend task.msg message.1 message.2

theorem Task.SentBy.congr {d : Daemon} {task task' : Task} (hs : task.SentBy d) (hmsg : task'.msg = task.msg)
    (hwire : task'.wire = task.wire) : task'.SentBy d := by
  intro message hm
  rw [hmsg]
  exact hs message (hwire ▸ hm)

theorem Task.wire_cancel (task : Task) : task.cancel.wire = task.wire := by
  unfold cancel
  split <;> rfl

theorem Task.SentBy.step {d : Daemon} {h : Host} {s : Sys} {t : Nat} {l : Label} {task task' : Task}
    (hsent : task.SentBy d) (hh : task.Handles d) (hs : TaskStep d h s t l task task') : task'.SentBy d := by
  cases hs with
  | cancel => exact hsent.congr (Task.cancel_msg _) (Task.wire_cancel _)
  | sync _ _ hc =>
    rcases hc with rfl | ⟨rfl, -⟩
    · exact hsent.congr rfl rfl
    · exact hsent.congr (Task.cancel_msg _) (Task.wire_cancel _)
  | put hp =>
    intro message hm
    rcases List.mem_append.1 hm with hm | hm
    · exact hsent message hm
    · rw [List.mem_singleton.1 hm]
      exact hh.maySend hp
  | _ => exact hsent.congr rfl rfl

theorem TaskStep.wire_subset {d : Daemon} {h : Host} {s : Sys} {t : Nat} {l : Label} {task task' : Task}
    (hs : TaskStep d h s t l task task') : task.wire ⊆ task'.wire := by
  cases hs with
  | cancel =>
    rw [Task.wire_cancel]
    exact List.Subset.refl _
  | sync _ _ hc =>
    rcases hc with rfl | ⟨rfl, -⟩
    · exact List.Subset.refl _
    · rw [Task.complete_wire, Task.wire_cancel]
      exact List.Subset.refl _
  | put => exact List.subset_append_left _ _
  | _ => exact List.Subset.refl _

/-- All that the task has put on the socket, its handler sent after operations of the log. -/
def Task.SentAlong (d : Daemon) (task : Task) : Prop :=
  ∀ message ∈ task.wire, ∃ start tr k, d.Starts task.msg start ∧ tr <+: task.log ∧
    Follows start tr (.call (.send message.1 message.2) k)

theorem Task.SentAlong.mono {d : Daemon} {task task' : Task} (hs : task.SentAlong d) (hmsg : task'.msg = task.msg)
    (hlog : task.log <+: task'.log) {message : SendOrigin × List Bytes} (hm : message ∈ task.wire) :
    ∃ start tr k, d.Starts task'.msg start ∧ tr <+: task'.log ∧
      Follows start tr (.call (.send message.1 message.2) k) := by
  obtain ⟨start, tr, k, hstart, hprefix, hf⟩ := hs message hm
  exact ⟨start, tr, k, hmsg ▸ hstart, hprefix.trans hlog, hf⟩

theorem TaskStep.log_prefix {d : Daemon} {h : Host} {s : Sys} {t : Nat} {l : Label} {task task' : Task}
    (hs : TaskStep d h s t l task task') : task.log <+: task'.log := by
  cases hs with
  | cancel =>
    rw [Task.cancel_log]
  | sync _ _ hc =>
    rcases hc with rfl | ⟨rfl, -⟩
    · exact List.prefix_append _ _
    · rw [Task.complete_log, Task.cancel_log]
      exact List.prefix_append _ _
  | stay => exact List.prefix_rfl
  | submit => exact List.prefix_rfl
  | put => exact List.prefix_rfl
  | abort => exact List.prefix_rfl
  | _ => exact List.prefix_append _ _

theorem Task.SentAlong.step {d : Daemon} {h : Host} {s : Sys} {t : Nat} {l : Label} {task task' : Task}
    (hsent : task.SentAlong d) (hh : task.Handles d) (hs : TaskStep d h s t l task task') : task'.SentAlong d := by
  have hold : ∀ message ∈ task.wire, ∃ start tr k, d.Starts task'.msg start ∧ tr <+: task'.log ∧
      Follows start tr (.call (.send message.1 message.2) k) :=
    fun message hm => hsent.mono hs.msg_eq hs.log_prefix hm
  have hsame : task'.wire = task.wire → task'.SentAlong d := fun he message hm => hold message (he ▸ hm)
  cases hs with
  | cancel => exact hsame (Task.wire_cancel _)
  | sync _ _ hc =>
    rcases hc with rfl | ⟨rfl, -⟩
    · exact hsame rfl
    · exact hsame (Task.wire_cancel _)
  | put hp =>
    intro message hm
    rcases List.mem_append.1 hm with hm | hm
    · exact hold message hm
    · obtain ⟨start, hstart, hf | ⟨-, hp'⟩⟩ := hh.exists_starts
      · rw [List.mem_singleton.1 hm]
        exact ⟨start, task.log, _, hstart, List.prefix_rfl, hp ▸ hf⟩
      · rw [hp'] at hp
        cases hp
  | _ => exact hsame rfl

namespace Sys

/-- Every task runs its handler, and so does what it has sent. -/
structure Sending (d : Daemon) (s : Sys) : Prop where
  handled : s.Handled d
  sent : ∀ (t : Nat) (task : Task), s.tasks[t]? = some task → task.SentBy d

/-- A message of a new task is the one just received. -/
theorem step_fresh {d : Daemon} {h : Host} {s s' : Sys} {l : Label} {t : Nat} {task : Task} {msg : List Bytes}
    (hs : step d h l s = some s') (ht : t = s.tasks.length) (htask : s'.tasks[t]? = some task)
    (hmsg : task.msg = some msg) : l = .recv msg := by
  have hlt := Lookup.lt_length htask
  have hrecv : ∀ {msg'}, l = .recv msg' → l = .recv msg := by
    rintro msg' rfl
    rw [ht, step_recv hs] at htask
    obtain rfl := Option.some.inj htask
    exact congrArg Label.recv (Option.some.inj hmsg)
  cases step_to hs with
  | recv => exact hrecv rfl
  | recvLate => exact hrecv rfl
  | broadcast hrun =>
    rw [ht, List.getElem?_concat_length] at htask
    obtain rfl := Option.some.inj htask
    cases hmsg
  | _ => exact absurd hlt (by simp [length_sideEffect, ht])

/-- The step in which the task asks the runner. -/
def AsksRunner (s : Sys) (l : Label) (t : Nat) (q : RunnerQuery) : Prop :=
  ∃ c task k, l = .sync t c ∧ s.tasks[t]? = some task ∧ task.prog = .call (.runner q) k

/-- What the runner has answered, it answered out of its state at the time. -/
theorem step_answered {d : Daemon} {h : Host} {s s' : Sys} {l : Label} {t : Nat} {q : RunnerQuery} {r : q.Res}
    {task' : Task} (hs : step d h l s = some s') (ht : s'.tasks[t]? = some task') (hmem : ⟨.runner q, r⟩ ∈ task'.log) :
    (∃ task, s.tasks[t]? = some task ∧ ⟨.runner q, r⟩ ∈ task.log) ∨
      (s.AsksRunner l t q ∧ r = q.answer s.srv.runner.runner) := by
  rcases step_trans hs ht with ⟨task, ht₀, hstep⟩ | ⟨-, -, hf⟩
  · have hold : ⟨.runner q, r⟩ ∈ task.log → ∃ task, s.tasks[t]? = some task ∧ ⟨.runner q, r⟩ ∈ task.log :=
      fun hm => ⟨task, ht₀, hm⟩
    have hnew : ∀ {o : SrvOp} {r' : o.Res}, task'.log = task.log ++ [⟨o, r'⟩] → (∀ q, o ≠ .runner q) →
        ∃ task, s.tasks[t]? = some task ∧ ⟨.runner q, r⟩ ∈ task.log := by
      intro o r' hlog hne
      rw [hlog] at hmem
      rcases List.mem_append.1 hmem with hm | hm
      · exact hold hm
      · have he := List.mem_singleton.1 hm
        exact absurd (congrArg Coro.Event.op he).symm (hne q)
    cases hstep with
    | stay => exact .inl (hold hmem)
    | cancel => exact .inl (hold (Task.cancel_log task ▸ hmem))
    | @sync _ task₁ c o k r' srv hp hr hc =>
      have hlog : task₁.log = task.log := by
        rcases hc with rfl | ⟨rfl, -⟩
        · rfl
        · exact Task.cancel_log _
      rw [Task.complete_log, hlog] at hmem
      rcases List.mem_append.1 hmem with hm | hm
      · exact .inl (hold hm)
      · cases List.mem_singleton.1 hm
        exact .inr ⟨⟨c, task, k, rfl, ht₀, hp⟩, respond_runner hr⟩
    | submit => exact .inl (hold hmem)
    | put => exact .inl (hold hmem)
    | abort => exact .inl (hold hmem)
    | frame => exact .inl (hnew rfl (fun _ he => by cases he))
    | putRaises => exact .inl (hnew rfl (fun _ he => by cases he))
    | sent => exact .inl (hnew rfl (fun _ he => by cases he))
    | jobDone => exact .inl (hnew rfl (fun _ he => by cases he))
    | awaitCancelled => exact .inl (hnew rfl (fun _ he => by cases he))
    | sendCancelled => exact .inl (hnew rfl (fun _ he => by cases he))
    | jobCancelled => exact .inl (hnew rfl (fun _ he => by cases he))
  · cases hf with
    | request msg => cases hmem
    | broadcast payload subscribers => cases hmem

theorem Sending.step {d : Daemon} {h : Host} {s s' : Sys} {l : Label} (hi : s.Sending d)
    (hs : step d h l s = some s') : s'.Sending d := by
  refine ⟨hi.handled.step hs, fun t task' ht => ?_⟩
  rcases step_trans hs ht with ⟨task, ht, hstep⟩ | ⟨-, -, hf⟩
  · exact (hi.sent t task ht).step (hi.handled t task ht) hstep
  · cases hf with
    | request msg => exact fun message hm => by cases hm
    | broadcast payload subscribers => exact fun message hm => by cases hm

end Sys

end VsRemote
