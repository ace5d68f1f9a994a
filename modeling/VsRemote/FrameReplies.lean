import VsRemote.Addressing
import VsRemote.FrameLifetime
import VsRemote.PoolJobs

/-! What the server answers a frame request with: the planes of the frame that the
handler of this request has awaited, of the clip it has looked up for it. -/

namespace VsRemote

open Coro (Follows)
open Handler

/-- What a handler has of its frame: the clip under its index, the frame under its
number and the parts the frame was taken apart into. -/
structure Obtained where
  clip : Option (Int × VideoNode) := none
  frame : Option (VideoNode × Int × VideoFrame) := none
  parts : Option (VideoFrame × Compression × List Bytes) := none

def Obtained.next (g : Obtained) : (o : SrvOp) → o.Res → Obtained
  | .runner (.clip i), .ok clip => { g with clip := some (i, clip) }
  | .awaitFrame clip n, .ok frame => { g with frame := some (clip, n, frame) }
  | .runInExecutor (.extract frame mode), .ok r => { g with parts := some (frame, mode, r.1) }
  | _, _ => g

def obtainedMonitor (P : Obtained → List Bytes → Prop) : Coro.Monitor srvSig Obtained where
  pre
    | g, .send .reply parts => P g parts
    | _, _ => True
  allows _ _ _ := True
  next := Obtained.next

/-- The operations of the log by which the handler came to what it has. -/
structure Obtained.From (g : Obtained) (log : List (Coro.Event srvSig)) : Prop where
  clip : ∀ i clip, g.clip = some (i, clip) → ⟨.runner (.clip i), .ok clip⟩ ∈ log
  frame : ∀ clip n frame, g.frame = some (clip, n, frame) → ⟨.awaitFrame clip n, .ok frame⟩ ∈ log
  parts : ∀ frame mode parts, g.parts = some (frame, mode, parts) →
    ∃ total, ⟨.runInExecutor (.extract frame mode), .ok (parts, total)⟩ ∈ log

namespace Obtained

variable {g : Obtained} {log log' : List (Coro.Event srvSig)} {P : Obtained → List Bytes → Prop}

theorem From.mono (hf : g.From log) (hsub : log ⊆ log') : g.From log' := by
  refine ⟨fun i clip hg => hsub (hf.clip i clip hg), fun clip n frame hg => hsub (hf.frame clip n frame hg), ?_⟩
  intro frame mode parts hg
  obtain ⟨total, hmem⟩ := hf.parts frame mode parts hg
  exact ⟨total, hsub hmem⟩

theorem From.next (hf : g.From log) (e : Coro.Event srvSig) : (g.next e.op e.res).From (log ++ [e]) := by
  have hold : g.From (log ++ [e]) := hf.mono (List.subset_append_left _ _)
  have hnew : e ∈ log ++ [e] := List.mem_append_right _ (List.mem_singleton.2 rfl)
  obtain ⟨o, r⟩ := e
  unfold Obtained.next
  dsimp only
  split
  · next i clip =>
    refine ⟨fun i' clip' hg => ?_, hold.frame, hold.parts⟩
    obtain ⟨rfl, rfl⟩ := Prod.mk.inj (Option.some.inj hg)
    exact hnew
  · next clip n frame =>
    refine ⟨hold.clip, fun clip' n' frame' hg => ?_, hold.parts⟩
    obtain ⟨rfl, hrest⟩ := Prod.mk.inj (Option.some.inj hg)
    obtain ⟨rfl, rfl⟩ := Prod.mk.inj hrest
    exact hnew
  · next frame mode r =>
    refine ⟨hold.clip, hold.frame, fun frame' mode' parts hg => ?_⟩
    obtain ⟨rfl, hrest⟩ := Prod.mk.inj (Option.some.inj hg)
    obtain ⟨rfl, rfl⟩ := Prod.mk.inj hrest
    exact ⟨r.2, hnew⟩
  · exact hold

theorem From.run (hf : g.From log) (tr : List (Coro.Event srvSig)) :
    ((obtainedMonitor P).run g tr).From (log ++ tr) := by
  induction tr generalizing g log with
  | nil => exact hf.mono (List.subset_append_left _ _)
  | cons e tr ih =>
    have hrest := ih (hf.next e)
    rw [List.append_assoc] at hrest
    exact hrest

theorem from_empty : Obtained.From {} [] := by
  refine ⟨?_, ?_, ?_⟩
  · exact fun _ _ hg => by cases hg
  · exact fun _ _ _ hg => by cases hg
  · exact fun _ _ _ hg => by cases hg

end Obtained

def frameHeader (req : RequestEnvelope) (frameReq : FrameRequest) (frame : VideoFrame) (planes : List Bytes) :
    FrameHeader where
  status := .ok
  reqId := req.reqId
  n := frameReq.n
  outputIndex := frameReq.outputIndex
  compression := frameReq.compression
  planeSizes := (planes.map List.length).map Int.ofNat
  props := sanitizeProps frame.props

/-- The reply of a handler that has obtained the frame of its request. -/
structure FrameReply (d : Daemon) (req : RequestEnvelope) (g : Obtained) (reply : List Bytes)
    (frameReq : FrameRequest) (clip : VideoNode) (frame : VideoFrame) (planes : List Bytes) (bytes : Bytes) : Prop where
  unpacked : unpackPayload d.msgspec FrameRequest req.payloadBytes = .ok frameReq
  looked : g.clip = some (frameReq.outputIndex, clip)
  awaited : g.frame = some (clip, frameReq.n, frame)
  extracted : g.parts = some (frame, frameReq.compression, planes)
  header : pack d.msgspec (frameHeader req frameReq frame planes) = .ok bytes
  frames : reply = req.identity :: req.reqIdBytes :: [StatusCode.ok.byte] :: bytes :: planes

def RepliesWithFrame (d : Daemon) (req : RequestEnvelope) (g : Obtained) (reply : List Bytes) : Prop :=
  reply[2]? = some [StatusCode.ok.byte] →
    ∃ frameReq clip frame planes bytes, FrameReply d req g reply frameReq clip frame planes bytes

section

variable {d : Daemon} {req : RequestEnvelope} {g : Obtained}

abbrev frameMonitor (d : Daemon) (req : RequestEnvelope) : Coro.Monitor srvSig Obtained :=
  obtainedMonitor (RepliesWithFrame d req)

/-- However it ends. -/
abbrev Anyhow {α : Type} (_ : Except Raised α) (_ : Obtained) : Prop := True

theorem wp_sendRefusal {status : StatusCode} (hne : status ≠ .ok) (payload : Bytes) (extra : List Bytes) :
    (sendReply req status payload extra).run.wp (frameMonitor d req) Anyhow g := by
  refine ⟨fun hok => ?_, fun _ _ => trivial⟩
  have hbyte : [status.byte] = [StatusCode.ok.byte] := Option.some.inj hok
  exact absurd (List.cons.inj hbyte).1 (byte_ne_ok hne)

theorem wp_sendErrorHeader {status : StatusCode} (hne : status ≠ .ok) (frameReq : FrameRequest) (message : String) :
    (sendHeader d req (frameErrorHeader status req frameReq message) []).run.wp (frameMonitor d req) Anyhow g := by
  rw [sendHeader, Coro.wp_run_bind, wp_ofExcept]
  cases pack d.msgspec (frameErrorHeader status req frameReq message) with
  | error e => trivial
  | ok bytes => exact wp_sendRefusal hne bytes []

theorem wp_sendErrorText {status : StatusCode} (hne : status ≠ .ok) (message : String) :
    (sendErrorText d req status message).run.wp (frameMonitor d req) Anyhow g := by
  rw [sendErrorText, sendError, Coro.wp_run_bind, wp_ofExcept]
  cases pack d.msgspec (messagePayload status message) with
  | error e => trivial
  | ok bytes =>
    change (sendReply req status bytes []).run.wp (frameMonitor d req) Anyhow g
    exact wp_sendRefusal hne bytes []

theorem wp_sendPlanes {frameReq : FrameRequest} {clip : VideoNode} {frame : VideoFrame} {planes : List Bytes}
    (hreq : unpackPayload d.msgspec FrameRequest req.payloadBytes = .ok frameReq)
    (hclip : g.clip = some (frameReq.outputIndex, clip)) (hframe : g.frame = some (clip, frameReq.n, frame))
    (hparts : g.parts = some (frame, frameReq.compression, planes)) :
    (sendHeader d req (frameHeader req frameReq frame planes) planes).run.wp (frameMonitor d req) Anyhow g := by
  rw [sendHeader, Coro.wp_run_bind, wp_ofExcept]
  cases hpack : pack d.msgspec (frameHeader req frameReq frame planes) with
  | error e => trivial
  | ok bytes =>
    have hreply : FrameReply d req g (req.identity :: req.reqIdBytes :: [StatusCode.ok.byte] :: bytes :: planes)
        frameReq clip frame planes bytes := ⟨hreq, hclip, hframe, hparts, hpack, rfl⟩
    exact ⟨fun _ => ⟨frameReq, clip, frame, planes, bytes, hreply⟩, fun _ _ => trivial⟩

/-- The handler has the frame and takes it apart. -/
theorem wp_sendFrame {frameReq : FrameRequest} {clip : VideoNode} {frame : VideoFrame} (renderStart : Rat)
    (hreq : unpackPayload d.msgspec FrameRequest req.payloadBytes = .ok frameReq)
    (hclip : g.clip = some (frameReq.outputIndex, clip)) (hframe : g.frame = some (clip, frameReq.n, frame)) :
    (sendFrame d req frameReq frame renderStart).run.wp (frameMonitor d req) Anyhow g := by
  simp only [sendFrame, Coro.wp_run_bind, wp_perfCounter, wp_runExtract, wp_metrics]
  refine ⟨trivial, fun rendered _ => ⟨trivial, fun compStart _ => ⟨trivial, fun r _ => ?_⟩⟩⟩
  cases r with
  | error e => trivial
  | ok r => exact ⟨trivial, fun compEnd _ => ⟨trivial, fun _ _ => wp_sendPlanes hreq hclip hframe rfl⟩⟩

theorem wp_renderAndSend {frameReq : FrameRequest} {clip : VideoNode} (renderStart : Rat)
    (hreq : unpackPayload d.msgspec FrameRequest req.payloadBytes = .ok frameReq)
    (hclip : g.clip = some (frameReq.outputIndex, clip)) :
    (renderAndSend d req frameReq clip renderStart).run.wp (frameMonitor d req)
      Anyhow g := by
  simp only [renderAndSend, Coro.wp_run_bind, wp_runnerEnvironment, wp_ofExcept, wp_useEnvironment,
    wp_getFrameAsync, wp_awaitFrame, Coro.wp_run_tryFinally, wp_closeFrame]
  refine ⟨trivial, fun env? _ => ?_⟩
  cases env? with
  | error e => trivial
  | ok env =>
    refine ⟨trivial, fun used _ => ?_⟩
    cases used with
    | error e => trivial
    | ok _ =>
      refine ⟨trivial, fun asked _ => ?_⟩
      cases asked with
      | error e => trivial
      | ok _ =>
        refine ⟨trivial, fun frame? _ => ?_⟩
        cases frame? with
        | error e => trivial
        | ok frame =>
          refine Coro.wp_mono _ (wp_sendFrame renderStart hreq hclip rfl) (fun r g' _ => ?_)
          exact ⟨trivial, fun _ _ => trivial⟩

theorem wp_handleGetFrame : (handleGetFrame d req).run.wp (frameMonitor d req) Anyhow g := by
  simp only [handleGetFrame, Coro.wp_run_bind, wp_socketOpen, Coro.wp_run_ite]
  refine ⟨trivial, fun isOpen _ => ?_⟩
  dsimp only
  split
  · trivial
  · cases hreq : unpackPayload d.msgspec FrameRequest req.payloadBytes with
    | error e => exact wp_sendErrorHeader (by decide) _ _
    | ok frameReq =>
      simp only [Coro.wp_run_bind, wp_metrics, wp_runnerGetClip]
      refine ⟨trivial, fun _ _ => ⟨trivial, fun clip? _ => ?_⟩⟩
      cases clip? with
      | error e =>
        dsimp only
        rw [Coro.wp_run_ite]
        split
        · exact wp_sendErrorHeader (by decide) _ _
        · trivial
      | ok clip =>
        simp only [Coro.wp_run_bind, wp_perfCounter, Coro.wp_run_tryCatch]
        refine ⟨trivial, fun renderStart _ => ?_⟩
        refine Coro.wp_mono _ (wp_renderAndSend renderStart hreq rfl) (fun r g' _ => ?_)
        rcases r with (_ | e) | u
        · exact ⟨trivial, fun _ _ => trivial⟩
        · simp only [Coro.wp_run_bind, wp_metrics, wp_traceback]
          exact ⟨trivial, fun _ _ => ⟨trivial, fun tb _ => wp_sendErrorHeader (by decide) _ _⟩⟩
        · trivial

theorem wp_handleRequest_frame {msg : List Bytes} (hreq : RequestEnvelope.fromFrames msg = .ok req)
    (hcmd : req.command = .getFrame) : (handleRequest d msg).run.wp (frameMonitor d req) Anyhow g := by
  have haccept : (acceptRequest d req).run.wp (frameMonitor d req) Anyhow g := by
    simp only [acceptRequest, dispatchRequest, hcmd, Coro.wp_run_bind, wp_inflightSet, wp_metrics,
      Coro.wp_run_tryFinally, wp_endRequest]
    refine ⟨trivial, fun _ _ => ⟨trivial, fun _ _ => ?_⟩⟩
    refine Coro.wp_mono _ wp_handleGetFrame (fun r g' _ => ?_)
    exact ⟨trivial, fun _ _ => ⟨trivial, fun _ _ => trivial⟩⟩
  have hmessage : (handleMessage d msg).run.wp (frameMonitor d req) Anyhow g := by
    cases htoken : tokenRefused d.authToken req.authToken with
    | error e =>
      rw [handleMessage_of_tokenError hreq htoken]
      trivial
    | ok refused =>
      rw [handleMessage_of_tokenRefused hreq htoken]
      cases refused with
      | true => exact wp_sendErrorText (by decide) _
      | false => exact haccept
  rw [handleRequest, Coro.wp_run_bind]
  refine ⟨trivial, fun isOpen _ => ?_⟩
  cases isOpen with
  | false => trivial
  | true => exact hmessage

end

/-- The renderer and the pool have answered with what was asked of them. -/
def Genuine (h : Host) (render : VideoNode → Int → VideoFrame) : (o : SrvOp) → o.Res → Prop
  | .awaitFrame clip n, .ok frame => frame = { render clip n with id := frame.id }
  | .runInExecutor (.extract frame mode), .ok r => extractAndCompressPlanes h.zstd frame mode frame.numPlanes = .ok r
  | _, _ => True

/-- VapourSynth renders the frame that is awaited. -/
def RendersBy (render : VideoNode → Int → VideoFrame) (s : Sys) : Label → Prop
  | .frame t (.ok f) => ∀ (task : Task) (clip : VideoNode) (n : Int) (k : SrvOp.Res (.awaitFrame clip n) → HandlerProg),
      s.tasks[t]? = some task → task.prog = .call (.awaitFrame clip n) k → f = { render clip n with id := f.id }
  | _ => True

section

variable {d : Daemon} {h : Host} {render : VideoNode → Int → VideoFrame} {s s' : Sys} {l : Label} {t : Nat}

theorem genuine_respond {o : SrvOp} {c : Choice} {r : o.Res} {srv : ServerState}
    (hr : respond d h t o c s.srv = some (r, srv)) : Genuine h render o r := by
  cases o with
  | awaitFrame clip n => cases hr
  | runInExecutor job => cases hr
  | _ => trivial

theorem genuine_result {job : Job} {outcome : JobOutcome} {r : Except Raised job.Res}
    (hdone : ∀ frame mode r, job = .extract frame mode → outcome = .extract (.ok r) →
      extractAndCompressPlanes h.zstd frame mode frame.numPlanes = .ok r)
    (hr : outcome.result job = some r) : Genuine h render (.runInExecutor job) r := by
  cases job with
  | load a => cases r <;> trivial
  | teardown => cases r <;> trivial
  | extract frame mode =>
    cases outcome with
    | extract result =>
      obtain rfl := Option.some.inj hr
      cases result with
      | error e => trivial
      | ok result => exact hdone frame mode result rfl rfl
    | _ => cases hr

end

/-- What the frames of the server have come from. -/
structure Sys.Genuine (d : Daemon) (h : Host) (render : VideoNode → Int → VideoFrame) (s : Sys) : Prop where
  handled : s.Handled d
  waiting : s.Waiting
  sent : ∀ (t : Nat) (task : Task), s.tasks[t]? = some task → task.SentAlong d
  log : ∀ (t : Nat) (task : Task), s.tasks[t]? = some task → ∀ e ∈ task.log, VsRemote.Genuine h render e.op e.res
  done : ∀ (j : Nat) (pj : PoolJob) (frame : VideoFrame) (mode : Compression) (r : List Bytes × Nat),
    s.jobs[j]? = some pj → pj.job = .extract frame mode → pj.status = .done (.extract (.ok r)) →
      extractAndCompressPlanes h.zstd frame mode frame.numPlanes = .ok r

section

variable {d : Daemon} {h : Host} {render : VideoNode → Int → VideoFrame} {s s' : Sys} {l : Label} {t : Nat}

theorem genuine_snoc {log : List (Coro.Event srvSig)} {o : SrvOp} {r : o.Res}
    (hlog : ∀ e ∈ log, Genuine h render e.op e.res) (hnew : Genuine h render o r) :
    ∀ e ∈ log ++ [⟨o, r⟩], Genuine h render e.op e.res := by
  intro e hmem
  rcases List.mem_append.1 hmem with hmem | hmem
  · exact hlog e hmem
  · rw [List.mem_singleton.1 hmem]
    exact hnew

theorem Sys.Genuine.step_log {task task' : Task} (hi : s.Genuine d h render) (hrenders : RendersBy render s l)
    (ht : s.tasks[t]? = some task) (hs : TaskStep d h s t l task task') :
    ∀ e ∈ task'.log, VsRemote.Genuine h render e.op e.res := by
  have hlog := hi.log t task ht
  cases hs with
  | stay => exact hlog
  | cancel => exact Task.cancel_log task ▸ hlog
  | sync _ hr hc =>
    rcases hc with rfl | ⟨rfl, -⟩
    · exact genuine_snoc hlog (genuine_respond hr)
    · rw [Task.complete_log, Task.cancel_log]
      exact genuine_snoc hlog (genuine_respond hr)
  | submit => exact hlog
  | put => exact hlog
  | abort => exact hlog
  | @frame _ clip n k r hp =>
    refine genuine_snoc hlog ?_
    cases r with
    | error e => trivial
    | ok f =>
      have hf := hrenders task clip n k ht hp
      change ({ f with id := s.nextFrame } : VideoFrame) = { render clip n with id := s.nextFrame }
      rw [hf]
  | putRaises => exact genuine_snoc hlog trivial
  | sent => exact genuine_snoc hlog trivial
  | @jobDone _ job k j pj outcome r hp hph _ hj hstatus hr =>
    obtain ⟨pj', k', hj', -, hp'⟩ := hi.waiting t j task ht hph
    obtain rfl := Option.some.inj (hj.symm.trans hj')
    rw [hp] at hp'
    obtain rfl : job = pj.job := by cases hp'; rfl
    refine genuine_snoc hlog (genuine_result (fun frame mode r hjob hout => ?_) hr)
    exact hi.done j pj frame mode r hj hjob (hout ▸ hstatus)
  | awaitCancelled => exact genuine_snoc hlog trivial
  | sendCancelled => exact genuine_snoc hlog trivial
  | @jobCancelled _ job =>
    refine genuine_snoc hlog ?_
    cases job <;> trivial

theorem Sys.Genuine.step (hi : s.Genuine d h render) (hrenders : RendersBy render s l) (hs : Sys.step d h l s = some s') :
    s'.Genuine d h render := by
  refine ⟨hi.handled.step hs, hi.waiting.step hs, fun t task' ht => ?_, fun t task' ht => ?_, ?_⟩
  · rcases Sys.step_trans hs ht with ⟨task, ht₀, hstep⟩ | ⟨-, -, hf⟩
    · exact (hi.sent t task ht₀).step (hi.handled t task ht₀) hstep
    · cases hf with
      | request msg => exact fun message hm => by cases hm
      | broadcast payload subscribers => exact fun message hm => by cases hm
  · rcases Sys.step_trans hs ht with ⟨task, ht₀, hstep⟩ | ⟨-, -, hf⟩
    · exact hi.step_log hrenders ht₀ hstep
    · cases hf with
      | request msg => exact fun e he => by cases he
      | broadcast payload subscribers => exact fun e he => by cases he
  · intro j pj' frame mode r hj hjob hstatus
    rcases Sys.step_jobs hs hj with ⟨pj, hj₀, hstep⟩ | ⟨-, -, hq, -⟩
    · cases hstep with
      | stay => exact hi.done j _ frame mode r hj₀ hjob hstatus
      | drop => cases hstatus
      | start => cases hstatus
      | @run _ w outcome runner hr ho =>
        obtain rfl := JobStatus.done.inj hstatus
        obtain ⟨job, owner, status⟩ := pj
        obtain rfl : job = .extract frame mode := hjob
        cases w with
        | load w => cases ho
        | teardown w => cases ho
        | extract raises =>
          cases raises with
          | some e =>
            have hout := (Prod.mk.inj (Option.some.inj ho)).1
            cases hout
          | none => exact JobOutcome.extract.inj (Prod.mk.inj (Option.some.inj ho)).1
    · rw [hq] at hstatus
      cases hstatus

theorem Sys.genuine_init (runner : RunnerState) (metrics : ServerMetricsCollector) :
    (Sys.init runner metrics).Genuine d h render := by
  refine ⟨?_, ?_, ?_, ?_, ?_⟩
  · exact fun _ _ ht => by cases ht
  · exact fun _ _ _ ht => by cases ht
  · exact fun _ _ ht => by cases ht
  · exact fun _ _ ht => by cases ht
  · exact fun _ _ _ _ _ hj => by cases hj

theorem Sys.Genuine.run {ls : List Label} (hi : s.Genuine d h render)
    (hg : Runs.Guarded (Sys.step d h) (RendersBy render) ls s) (hr : Runs.run (Sys.step d h) ls s = some s') :
    s'.Genuine d h render := hg.inv (fun _ _ _ hi hc hs => hi.step hc hs) hi hr

theorem extractAndCompressPlanes_id (z : Zstd) (frame : VideoFrame) (id : Nat) (mode : Compression) (n : Nat) :
    extractAndCompressPlanes z { frame with id := id } mode n = extractAndCompressPlanes z frame mode n := by
  induction n with
  | zero => rfl
  | succ n ih => simp only [extractAndCompressPlanes, ih]

/-- The reply to a frame request is made of the frame with the number in it, of the clip
that was looked up under the index in it. -/
structure FrameAnswer (d : Daemon) (h : Host) (render : VideoNode → Int → VideoFrame) (req : RequestEnvelope)
    (task : Task) (reply : List Bytes) (frameReq : FrameRequest) (clip : VideoNode) (planes : List Bytes)
    (bytes : Bytes) : Prop where
  unpacked : unpackPayload d.msgspec FrameRequest req.payloadBytes = .ok frameReq
  looked : ⟨.runner (.clip frameReq.outputIndex), .ok clip⟩ ∈ task.log
  extracted : ∃ total, extractAndCompressPlanes h.zstd (render clip frameReq.n) frameReq.compression
    (render clip frameReq.n).numPlanes = .ok (planes, total)
  header : pack d.msgspec (frameHeader req frameReq (render clip frameReq.n) planes) = .ok bytes
  frames : reply = req.identity :: req.reqIdBytes :: [StatusCode.ok.byte] :: bytes :: planes

theorem Sys.Genuine.frameAnswer {task : Task} {msg reply : List Bytes} {req : RequestEnvelope}
    (hi : s.Genuine d h render) (ht : s.tasks[t]? = some task) (hmsg : task.msg = some msg)
    (hreq : RequestEnvelope.fromFrames msg = .ok req) (hcmd : req.command = .getFrame)
    (hw : (.reply, reply) ∈ task.wire) (hok : reply[2]? = some [StatusCode.ok.byte]) :
    ∃ frameReq clip planes bytes, FrameAnswer d h render req task reply frameReq clip planes bytes := by
  obtain ⟨start, tr, k, hstart, hprefix, hf⟩ := hi.sent t task ht _ hw
  rw [hmsg] at hstart
  obtain rfl : start = (handleRequest d msg).run := hstart
  have hpre : RepliesWithFrame d req ((frameMonitor d req).run {} tr) reply :=
    Coro.pre_follows_call (frameMonitor d req) (wp_handleRequest_frame hreq hcmd) hf
      ((frameMonitor d req).allows_of_forall (fun _ _ _ => trivial) {} tr)
  have hfrom : ((frameMonitor d req).run {} tr).From task.log :=
    (Obtained.from_empty.run tr).mono hprefix.subset
  obtain ⟨frameReq, clip, frame, planes, bytes, hreply⟩ := hpre hok
  have hframe : frame = { render clip frameReq.n with id := frame.id } :=
    hi.log t task ht _ (hfrom.frame clip frameReq.n frame hreply.awaited)
  obtain ⟨total, hparts⟩ := hfrom.parts frame frameReq.compression planes hreply.extracted
  have hextract : extractAndCompressPlanes h.zstd frame frameReq.compression frame.numPlanes = .ok (planes, total) :=
    hi.log t task ht _ hparts
  refine ⟨frameReq, clip, planes, bytes, hreply.unpacked, hfrom.clip _ _ hreply.looked, ⟨total, ?_⟩, ?_, hreply.frames⟩
  · rw [hframe, extractAndCompressPlanes_id] at hextract
    exact hextract
  · have hheader := hreply.header
    rw [hframe] at hheader
    exact hheader

/-- The task has been given the clip as the one under the index. -/
def Sys.HasLooked (t : Nat) (i : Int) (clip : VideoNode) (s : Sys) : Prop :=
  ∃ task, s.tasks[t]? = some task ∧ ⟨.runner (.clip i), .ok clip⟩ ∈ task.log

theorem Sys.step_hasLooked {i : Int} {clip : VideoNode} (hs : Sys.step d h l s = some s') (hno : ¬ s.HasLooked t i clip)
    (hlooked : s'.HasLooked t i clip) : t < s.tasks.length ∧ s.srv.runner.runner.clips.get? i = some clip := by
  obtain ⟨task', ht, hmem⟩ := hlooked
  rcases Sys.step_answered hs ht hmem with hold | ⟨⟨-, task, -, -, hpresent, -⟩, hanswer⟩
  · exact absurd hold hno
  · refine ⟨Lookup.lt_length hpresent, ?_⟩
    simp only [RunnerQuery.answer, ScriptRunner.getClip] at hanswer
    cases hget : s.srv.runner.runner.clips.get? i with
    | none =>
      rw [hget] at hanswer
      cases hanswer
    | some clip' =>
      rw [hget] at hanswer
      rw [Except.ok.inj hanswer]

/-- In every run, whoever asks and whatever else the server does: a frame that is sent is
the one that was asked for, of the clip that the runner had under its index while the
request was handled. -/
theorem frame_replies_genuine {runner : RunnerState} {metrics : ServerMetricsCollector} {ls : List Label}
    (hg : Runs.Guarded (Sys.step d h) (RendersBy render) ls (Sys.init runner metrics))
    (hr : Runs.run (Sys.step d h) ls (Sys.init runner metrics) = some s) {task : Task} {msg reply : List Bytes}
    {req : RequestEnvelope} (ht : s.tasks[t]? = some task) (hmsg : task.msg = some msg)
    (hreq : RequestEnvelope.fromFrames msg = .ok req) (hcmd : req.command = .getFrame)
    (hw : (.reply, reply) ∈ task.wire) (hok : reply[2]? = some [StatusCode.ok.byte]) :
    ∃ frameReq clip planes bytes, FrameAnswer d h render req task reply frameReq clip planes bytes ∧
      ∃ before after u, ls = before ++ after ∧ Runs.run (Sys.step d h) before (Sys.init runner metrics) = some u ∧
        t < u.tasks.length ∧ u.srv.runner.runner.clips.get? frameReq.outputIndex = some clip := by
  have hi := (Sys.genuine_init runner metrics).run hg hr
  obtain ⟨frameReq, clip, planes, bytes, hanswer⟩ := hi.frameAnswer ht hmsg hreq hcmd hw hok
  have hnone : ¬ (Sys.init runner metrics).HasLooked t frameReq.outputIndex clip := by
    rintro ⟨_, ht, -⟩
    cases ht
  obtain ⟨before, l, after, u, v, hls, hbefore, hstep, hno, hyes⟩ :=
    Runs.exists_turn hnone hr (P := Sys.HasLooked t frameReq.outputIndex clip) ⟨task, ht, hanswer.looked⟩
  obtain ⟨hlt, hclip⟩ := Sys.step_hasLooked hstep hno hyes
  exact ⟨frameReq, clip, planes, bytes, hanswer, before, l :: after, u, hls, hbefore, hlt, hclip⟩

def Label.rendered? : Label → Option VideoFrame
  | .frame _ (.ok f) => some f
  | _ => none

theorem rendersBy_const {frame : VideoFrame} (hl : ∀ f, l.rendered? = some f → f = frame) :
    RendersBy (fun _ _ => frame) s l := by
  cases l with
  | frame t r =>
    cases r with
    | error e => trivial
    | ok f =>
      intro task clip n k _ _
      obtain rfl := hl f rfl
      rfl
  | _ => trivial

end

theorem frame_replies_genuine_gray : ∃ s task reply frameReq clip planes bytes,
    Runs.run (Sys.step cancelDaemon Host.plain) (getFrameLabels ++ sendFrameLabels) codeSys = some s ∧
      s.tasks[0]? = some task ∧ (.reply, reply) ∈ task.wire ∧
      FrameAnswer cancelDaemon Host.plain (fun _ _ => grayFrame) ⟨[1], [0, 0, 0, 5], 5, .getFrame, [0x80], none, []⟩
        task reply frameReq clip planes bytes := by
  obtain ⟨s, task, reply, hr, ht, hmsg, hw, hok⟩ : ∃ s task reply,
      Runs.run (Sys.step cancelDaemon Host.plain) (getFrameLabels ++ sendFrameLabels) codeSys = some s ∧
        s.tasks[0]? = some task ∧ task.msg = some [[1], [0, 0, 0, 5], [4], [0x80]] ∧
        task.wire = [(.reply, reply)] ∧ reply[2]? = some [StatusCode.ok.byte] := ⟨_, _, _, rfl, rfl, rfl, rfl, rfl⟩
  have hg : Runs.Guarded (Sys.step cancelDaemon Host.plain) (RendersBy fun _ _ => grayFrame)
      (getFrameLabels ++ sendFrameLabels) codeSys := by
    refine Runs.Guarded.of_mem (fun l hl s => rendersBy_const (fun f hf => ?_))
    have hmem : f ∈ (getFrameLabels ++ sendFrameLabels).filterMap Label.rendered? := List.mem_filterMap.2 ⟨l, hl, hf⟩
    exact List.mem_singleton.1 hmem
  have hmem : (SendOrigin.reply, reply) ∈ task.wire := hw ▸ List.mem_singleton.2 rfl
  obtain ⟨frameReq, clip, planes, bytes, hanswer, -⟩ := frame_replies_genuine hg hr ht hmsg rfl rfl hmem hok
  exact ⟨s, task, reply, frameReq, clip, planes, bytes, hr, ht, hmem, hanswer⟩

end VsRemote
