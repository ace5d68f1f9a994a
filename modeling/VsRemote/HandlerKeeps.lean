import VsRemote.HandlerRules
import VsRemote.Tasks

/-! What a ghost state is preserved by: a handler keeps it if every operation
does, apart from the rendering of frames and the jobs it hands to the pool. -/

namespace VsRemote

open Coro (Follows)
open Handler

def Command.loads : Command → Bool
  | .reload => true
  | .loadCode => true
  | .loadScript => true
  | _ => false

/-- The message asks for a load. -/
def asksLoad (msg : List Bytes) : Bool :=
  match RequestEnvelope.fromFrames msg with
  | .ok req => req.command.loads
  | .error _ => false

/-- The command that asks for the load. -/
def LoadAction.command : LoadAction → Command
  | .reload _ => .reload
  | .loadCode _ => .loadCode
  | .loadScript _ => .loadScript

/-- The server performs the load for a request with the command. -/
def Daemon.Grants (d : Daemon) (cmd : Command) (a : LoadAction) : Prop :=
  cmd = a.command ∧ (cmd = .reload ∨ d.allowEval = true)

/-- The message is well formed and not refused by the token check. -/
structure PassesCheck (d : Daemon) (msg : List Bytes) (req : RequestEnvelope) : Prop where
  wellFormed : RequestEnvelope.fromFrames msg = .ok req
  token : tokenRefused d.authToken req.authToken = .ok false

theorem PassesCheck.asksLoad {d : Daemon} {msg : List Bytes} {req : RequestEnvelope} (hp : PassesCheck d msg req) :
    asksLoad msg = req.command.loads := by
  rw [VsRemote.asksLoad, hp.wellFormed]

/-- Neither a clip, a frame nor a job of the pool is involved. -/
def SrvOp.plain : SrvOp → Bool
  | .runner (.clip _) => false
  | .getFrameAsync _ _ _ => false
  | .awaitFrame _ _ => false
  | .closeFrame _ => false
  | .runInExecutor _ => false
  | _ => true

/-- Plain, and no part of the in-flight table or the metrics either. -/
def SrvOp.served : SrvOp → Bool
  | .inflightSet _ => false
  | .inflightPop _ => false
  | .inflightCancel _ => false
  | .metrics _ => false
  | o => o.plain

/-- The counters are those of frames. -/
def MetricsCall.frames : MetricsCall → Bool
  | .requestStart _ => false
  | .requestEnd _ => false
  | _ => true

section

variable {G : Type} {M : Coro.Monitor srvSig G} {g : G}

/-- The operation is allowed and leaves the ghost state alone. -/
def Quiet (M : Coro.Monitor srvSig G) (g : G) (o : SrvOp) : Prop :=
  M.pre g o ∧ ∀ r, M.allows g o r → M.next g o r = g

def QuietOnPlain (M : Coro.Monitor srvSig G) (g : G) : Prop := ∀ o : SrvOp, o.plain = true → Quiet M g o

def QuietOnServed (M : Coro.Monitor srvSig G) (g : G) : Prop := ∀ o : SrvOp, o.served = true → Quiet M g o

def QuietOnFrames (M : Coro.Monitor srvSig G) (g : G) : Prop :=
  ∀ c : MetricsCall, c.frames = true → Quiet M g (.metrics c)

theorem QuietOnPlain.served (hq : QuietOnPlain M g) : QuietOnServed M g := by
  intro o ho
  refine hq o ?_
  cases o <;> first | exact ho | cases ho

theorem QuietOnPlain.frames (hq : QuietOnPlain M g) : QuietOnFrames M g := fun c _ => hq (.metrics c) rfl

structure QuietOnClips (M : Coro.Monitor srvSig G) (g : G) : Prop where
  clip : ∀ i, Quiet M g (.runner (.clip i))
  getFrameAsync : ∀ env clip n, Quiet M g (.getFrameAsync env clip n)

theorem Keeps.op {o : SrvOp} (ho : Quiet M g o) :
    Keeps M g (ExceptT.lift (Coro.op (S := srvSig) o) : Handler o.Res) := .lift ho.1 ho.2

variable (d : Daemon) (req : RequestEnvelope)

section

variable (hq : QuietOnServed M g)

include hq

theorem keeps_sendMultipart (origin : SendOrigin) (parts : List Bytes) :
    Keeps M g (sendMultipart origin parts) := hq (.send origin parts) rfl

theorem keeps_perfCounter : Keeps M g perfCounter := .op (hq .perfCounter rfl)

theorem keeps_traceback (e : PyError) : Keeps M g (traceback e) := .op (hq (.traceback e) rfl)

theorem keeps_sendReply (status : StatusCode) (payload : Bytes) (extra : List Bytes) :
    Keeps M g (sendReply req status payload extra) := keeps_sendMultipart hq _ _

theorem keeps_sendError (status : StatusCode) (payload : RemoteErrorPayload) :
    Keeps M g (sendError d req status payload) :=
  .bind (.ofExcept _) (fun _ => keeps_sendMultipart hq _ _)

theorem keeps_sendErrorText (status : StatusCode) (message : String) :
    Keeps M g (sendErrorText d req status message) := keeps_sendError d req hq _ _

theorem keeps_sendHistory (events : List StreamEvent) : Keeps M g (sendHistory d req events) := by
  induction events with
  | nil => exact .pure ()
  | cons event events ih =>
    exact .bind (.ofExcept _) (fun _ => .bind (keeps_sendMultipart hq _ _) (fun _ => ih))

theorem keeps_sendAll (payload : Bytes) (subscribers : List Bytes) : Keeps M g (sendAll payload subscribers) := by
  induction subscribers with
  | nil => exact .pure ()
  | cons identity subscribers ih =>
    refine .bind (.tryExcept (keeps_sendMultipart hq _ _) (fun e => ?_)) (fun _ => ih)
    exact .ite (.pure ()) (.throw _)

theorem keeps_sendHeader (header : FrameHeader) (planes : List Bytes) :
    Keeps M g (sendHeader d req header planes) :=
  .bind (.ofExcept _) (fun _ => keeps_sendReply req hq _ _ _)

theorem keeps_sendFrame (frameReq : FrameRequest) (frame : VideoFrame) (renderStart : Rat)
    (hf : QuietOnFrames M g) (hx : Quiet M g (.runInExecutor (.extract frame frameReq.compression))) :
    Keeps M g (sendFrame d req frameReq frame renderStart) := by
  refine .bind (keeps_perfCounter hq) (fun rendered => .bind (keeps_perfCounter hq) (fun compStart => ?_))
  refine .bind hx (fun parts => .bind (keeps_perfCounter hq) (fun compEnd => ?_))
  exact .bind (.op (hf _ rfl)) (fun _ => keeps_sendHeader d req hq _ _)

/-- Up to the frame, the handler only looks the environment up. -/
theorem keeps_renderAndSend (hc : QuietOnClips M g) (frameReq : FrameRequest) (clip : VideoNode) (renderStart : Rat)
    (hframe : Keeps M g (do
      let frame ← awaitFrame clip frameReq.n
      Coro.tryFinally (sendFrame d req frameReq frame renderStart) (closeFrame frame.id))) :
    Keeps M g (renderAndSend d req frameReq clip renderStart) := by
  refine .bind (.op (hq (.runner .environment) rfl)) (fun env? => .bind (.ofExcept _) (fun env => ?_))
  refine .bind (.op (hq (.useEnvironment env) rfl)) (fun used => .bind (.ofExcept _) (fun _ => ?_))
  refine .bind (.op (hc.getFrameAsync env clip frameReq.n)) (fun asked => ?_)
  exact .bind (.ofExcept _) (fun _ => hframe)

theorem keeps_handleGetFrame (hf : QuietOnFrames M g) (hc : QuietOnClips M g) (hframe : ∀ frameReq clip renderStart,
      Keeps M g (renderAndSend d req frameReq clip renderStart)) :
    Keeps M g (handleGetFrame d req) := by
  refine .bind (.op (hq .socketOpen rfl)) (fun isOpen => .ite (.pure ()) ?_)
  split
  · exact keeps_sendHeader d req hq _ _
  · next frameReq _ =>
    refine .bind (.op (hf .frameRequest rfl)) (fun _ => .bind (.op (hc.clip _)) (fun clip? => ?_))
    split
    · exact .ite (keeps_sendHeader d req hq _ _) (.throw _)
    · next clip =>
      refine .bind (keeps_perfCounter hq) (fun renderStart => .tryCatch (hframe frameReq clip renderStart) ?_)
      rintro (_ | e)
      · exact .bind (.op (hf .frameCancelled rfl)) (fun _ => .throw _)
      · refine .bind (.op (hf .frameFailed rfl)) (fun _ => .bind (keeps_traceback hq _) (fun tb => ?_))
        exact keeps_sendHeader d req hq _ _

theorem keeps_handleGetStats : Keeps M g (handleGetStats d req) := by
  refine .bind (.op (hq (.runner .environment) rfl)) (fun env? => ?_)
  split
  · exact keeps_sendErrorText d req hq _ _
  · next env =>
    refine .bind (.op (hq (.useEnvironment env) rfl)) (fun used => .bind (.ofExcept _) (fun _ => ?_))
    refine .bind (.op (hq (.runner .scriptPath) rfl)) (fun activeScript => ?_)
    refine .bind (.op (hq (.runner .listOutputs) rfl)) (fun outputs => ?_)
    refine .bind (.op (hq .inflightLen rfl)) (fun inFlight => ?_)
    refine .bind (.op (hq (.snapshot activeScript outputs inFlight) rfl)) (fun stats? => ?_)
    exact .bind (.ofExcept _) (fun stats => .bind (.ofExcept _) (fun _ => keeps_sendReply req hq _ _ _))

theorem keeps_handleGetClipInfo : Keeps M g (handleGetClipInfo d req) := by
  refine .tryExcept ?_ (fun e => ?_)
  · refine .bind (.ofExcept _) (fun payload => .bind (.op (hq (.runner (.clipInfo _)) rfl)) (fun info? => ?_))
    refine .bind (.ofExcept _) (fun info => .bind (.ofExcept _) (fun _ => keeps_sendReply req hq _ _ _))
  · refine .ite (keeps_sendErrorText d req hq _ _) ?_
    exact .ite (keeps_sendErrorText d req hq _ _) (.throw _)

theorem keeps_handleSubscribeStream : Keeps M g (handleSubscribeStream d req) := by
  unfold handleSubscribeStream
  split
  · exact keeps_sendErrorText d req hq _ _
  · refine .bind (.op (hq (.subscribersAdd _) rfl)) (fun _ => .bind (keeps_sendReply req hq _ _ _) (fun _ => ?_))
    refine .ite ?_ (.pure ())
    exact .bind (.op (hq (.runner .startupEvents) rfl)) (fun events => keeps_sendHistory d req hq events)

theorem keeps_dispatchExecutor (α : Type) [Packed α] (typeName : String) (action : α → LoadAction)
    (hload : ∀ payload, Quiet M g (.runInExecutor (.load (action payload))))
    (hteardown : Quiet M g (.runInExecutor .teardown)) :
    Keeps M g (dispatchExecutor d req α typeName action) := by
  unfold dispatchExecutor
  split
  · exact keeps_sendErrorText d req hq _ _
  · next payload _ =>
    refine .bind (.tryExcept ?_ (fun e => .pure _)) (fun err => ?_)
    · refine .bind (hload payload) (fun outputs => .bind (.ofExcept _) (fun _ => ?_))
      exact .bind (keeps_sendReply req hq _ _ _) (fun _ => .pure _)
    · cases err with
      | none => exact .pure ()
      | some e =>
        refine .bind (keeps_traceback hq _) (fun tb => ?_)
        exact .bind hteardown (fun _ => keeps_sendError d req hq _ _)

theorem keeps_dispatchRequest (hcancel : req.command = .cancelRequest → Keeps M g (handleCancelRequest d req))
    (hframe : req.command = .getFrame → Keeps M g (handleGetFrame d req))
    (hload : req.command.loads = true → ∀ (α : Type) [Packed α] typeName action,
      (∀ p, d.Grants req.command (action p)) → Keeps M g (dispatchExecutor d req α typeName action)) :
    Keeps M g (dispatchRequest d req) := by
  unfold dispatchRequest
  cases hcmd : req.command with
  | getStats => exact keeps_handleGetStats d req hq
  | cancelRequest => exact hcancel hcmd
  | ping => exact keeps_sendReply req hq _ _ _
  | listOutputs =>
    refine .bind (.op (hq (.runner .listOutputs) rfl)) (fun outputs => ?_)
    exact .bind (.ofExcept _) (fun _ => keeps_sendReply req hq _ _ _)
  | getClipInfo => exact keeps_handleGetClipInfo d req hq
  | getFrame => exact hframe hcmd
  | subscribeStream => exact keeps_handleSubscribeStream d req hq
  | unsubscribeStream =>
    exact .bind (.op (hq (.subscribersDiscard _) rfl)) (fun _ => keeps_sendReply req hq _ _ _)
  | close => exact .bind (.op (hq (.subscribersDiscard _) rfl)) (fun _ => keeps_sendReply req hq _ _ _)
  | reload => exact hload (by rw [hcmd]; rfl) _ _ _ (fun _ => hcmd ▸ ⟨rfl, .inl rfl⟩)
  | loadCode =>
    refine .ite' (fun heval => ?_) (fun _ => keeps_sendErrorText d req hq _ _)
    exact hload (by rw [hcmd]; rfl) _ _ _ (fun _ => hcmd ▸ ⟨rfl, .inr heval⟩)
  | loadScript =>
    refine .ite' (fun heval => ?_) (fun _ => keeps_sendErrorText d req hq _ _)
    exact hload (by rw [hcmd]; rfl) _ _ _ (fun _ => hcmd ▸ ⟨rfl, .inr heval⟩)
  | unknown => exact keeps_sendErrorText d req hq _ _

end

theorem keeps_handleCancelRequest (hq : ∀ key, Quiet M g (.inflightCancel key)) :
    Keeps M g (handleCancelRequest d req) := by
  unfold handleCancelRequest
  split
  · exact .pure ()
  · exact .op (hq _)

theorem Keeps.wp {α : Type} {x : Handler α} {Q : Except Raised α → G → Prop} (hx : Keeps M g x) (hQ : ∀ r, Q r g) :
    x.run.wp M Q g :=
  Coro.wp_mono _ hx (fun r _ hg => hg ▸ hQ r)

theorem Keeps.wp_bind {α β : Type} {x : Handler α} {f : α → Handler β} {Q : Except Raised β → G → Prop}
    (hx : Keeps M g x) (hraise : ∀ e, Q (.error e) g) (hf : ∀ a, (f a).run.wp M Q g) : (x >>= f).run.wp M Q g := by
  rw [Coro.wp_run_bind]
  refine hx.wp (fun r => ?_)
  cases r with
  | ok a => exact hf a
  | error e => exact hraise e

/-- A message that is not accepted comes to nothing. -/
theorem wp_handleRequest (hq : QuietOnServed M g) (msg : List Bytes) {Q : Except Raised Unit → G → Prop}
    (hQ : ∀ r, Q r g) (haccept : ∀ req, PassesCheck d msg req → (acceptRequest d req).run.wp M Q g) :
    (handleRequest d msg).run.wp M Q g := by
  have hmessage : (handleMessage d msg).run.wp M Q g := by
    cases hreq : RequestEnvelope.fromFrames msg with
    | error err =>
      unfold handleMessage
      rw [hreq]
      dsimp only
      split
      · exact (keeps_sendErrorText d _ hq _ _).wp hQ
      · exact hQ _
    | ok req =>
      cases htoken : tokenRefused d.authToken req.authToken with
      | error e =>
        rw [handleMessage_of_tokenError hreq htoken]
        exact hQ _
      | ok refused =>
        rw [handleMessage_of_tokenRefused hreq htoken]
        cases refused with
        | true => exact (keeps_sendErrorText d req hq _ _).wp hQ
        | false => exact haccept req ⟨hreq, htoken⟩
  obtain ⟨hpre, hnext⟩ := hq .socketOpen rfl
  rw [handleRequest, Coro.wp_run_bind]
  refine ⟨hpre, fun isOpen hr => ?_⟩
  rw [hnext isOpen hr]
  cases isOpen with
  | false => exact hQ _
  | true => exact hmessage

theorem keeps_acceptRequest (hq : QuietOnPlain M g) (hd : Keeps M g (dispatchRequest d req)) :
    Keeps M g (acceptRequest d req) := by
  refine .bind (.op (hq (.inflightSet _) rfl)) (fun _ => ?_)
  refine .bind (.op (hq (.metrics _) rfl)) (fun _ => .tryFinally hd ?_)
  obtain ⟨hmetrics, hmetrics'⟩ := hq (.metrics (.requestEnd req.identity)) rfl
  refine ⟨hmetrics, fun r hr => ?_⟩
  rw [hmetrics' r hr]
  exact hq (.inflightPop _) rfl

/-- A handler keeps what its plain operations keep, if its rendering does and,
where the message asks for a load and passes the check, its loading does. -/
theorem keeps_handleRequest (hq : QuietOnPlain M g) (msg : List Bytes) (hframe : ∀ req, Keeps M g (handleGetFrame d req))
    (hload : ∀ req, PassesCheck d msg req → req.command.loads = true → ∀ (α : Type) [Packed α] typeName action,
      (∀ p, d.Grants req.command (action p)) → Keeps M g (dispatchExecutor d req α typeName action)) :
    Keeps M g (handleRequest d msg) := by
  refine wp_handleRequest d hq.served msg (fun _ => rfl) (fun req hcheck => ?_)
  have hcancel : Keeps M g (handleCancelRequest d req) := keeps_handleCancelRequest d req (fun _ => hq _ rfl)
  exact keeps_acceptRequest d req hq
    (keeps_dispatchRequest d req hq.served (fun _ => hcancel) (fun _ => hframe req) (hload req hcheck))

end

/-- What a monitor knows of a task once it knows it of every handler. -/
theorem Task.Handles.wp_trace {d : Daemon} {task : Task} {G : Type} {M : Coro.Monitor srvSig G} {g : G}
    {Q : Except Raised Unit → G → Prop} (hh : task.Handles d) (ha : ∀ g o r, M.allows g o r)
    (habort : Q (.error .cancelled) g) (hrequest : ∀ msg, task.msg = some msg → (handleRequest d msg).run.wp M Q g)
    (hsend : task.msg = none → ∀ payload subscribers, (sendAll payload subscribers).run.wp M Q g) :
    M.Meets g task.log ∧ task.prog.wp M Q (M.run g task.log) := by
  have hruns : ∀ start : HandlerProg, start.wp M Q g → task.Runs start →
      M.Meets g task.log ∧ task.prog.wp M Q (M.run g task.log) := by
    intro start hstart hr
    rcases hr with hf | ⟨hlog, hprog⟩
    · exact Coro.wp_follows _ hstart hf (M.allows_of_forall ha _ _)
    · rw [hlog, hprog]
      exact ⟨trivial, habort⟩
  unfold Handles at hh
  split at hh
  · next msg hmsg => exact hruns _ (hrequest msg hmsg) hh
  · next hmsg =>
    obtain ⟨payload, subscribers, hr⟩ := hh
    exact hruns _ (hsend hmsg payload subscribers) hr

theorem Task.Handles.wp_log {d : Daemon} {task : Task} {G : Type} {M : Coro.Monitor srvSig G} {g : G}
    (hh : task.Handles d) (ha : ∀ g o r, M.allows g o r)
    (hrequest : ∀ msg, task.msg = some msg → Keeps M g (handleRequest d msg))
    (hsend : task.msg = none → ∀ payload subscribers, Keeps M g (sendAll payload subscribers)) :
    task.prog.wp M (fun _ g' => g' = g) (M.run g task.log) :=
  (hh.wp_trace ha rfl hrequest hsend).2

end VsRemote
