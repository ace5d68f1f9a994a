import VsRemote.HandlerKeeps
import VsRemote.LoopSteps

/-! The section of a handler in which its request is in flight: it registers its
task, is counted, serves the request, is counted out and removes its entry. -/

namespace VsRemote

open Handler

inductive Place where
  | waiting
  | entering
  | serving
  | leaving
  | gone
  deriving DecidableEq

def Place.next : Place → SrvOp → Place
  | .waiting, .inflightSet _ => .entering
  | .entering, .metrics (.requestStart _) => .serving
  | .serving, .metrics (.requestEnd _) => .leaving
  | .leaving, .inflightPop _ => .gone
  | p, _ => p

def Place.inside : Place → Bool
  | .waiting => false
  | .gone => false
  | _ => true

def SrvOp.cancels : SrvOp → List (Bytes × Int)
  | .inflightCancel key => [key]
  | _ => []

/-- Where a handler is, and the keys it has had the tasks cancelled of. -/
structure Stage where
  place : Place := .waiting
  asked : List (Bytes × Int) := []

def Stage.next (g : Stage) (o : SrvOp) : Stage := ⟨g.place.next o, g.asked ++ o.cancels⟩

def Trace.stage (tr : Trace) : Stage := tr.log.foldl (fun g e => g.next e.op) {}

def Trace.request (tr : Trace) : Option RequestEnvelope :=
  match tr.msg with
  | none => none
  | some msg => (RequestEnvelope.fromFrames msg).toOption

def RequestEnvelope.key (req : RequestEnvelope) : Bytes × Nat := (req.identity, req.reqId)

/-- The keys a request wants the tasks cancelled of. -/
def RequestEnvelope.cancelKeys (d : Daemon) (req : RequestEnvelope) : List (Bytes × Int) :=
  if req.command = .cancelRequest then
    match unpackPayload d.msgspec CancelRequest req.payloadBytes with
    | .ok payload => [(req.identity, payload.reqId)]
    | .error _ => []
  else []

/-- The thread may be given up: outside the section, or while a request other
than a cancellation is served. -/
def MayWait (req? : Option RequestEnvelope) (g : Stage) : Prop :=
  g.place.inside = false ∨ (g.place = .serving ∧ ∃ req, req? = some req ∧ req.command ≠ .cancelRequest)

/-- The handler has more to do; once registered it is for a request. -/
structure Live (req? : Option RequestEnvelope) (g : Stage) : Prop where
  place : g.place ≠ .gone
  request : g.place.inside = true → req?.isSome = true

/-- The operations on the table and on the sessions. -/
def SrvOp.booked : SrvOp → Bool
  | .inflightSet _ => true
  | .inflightPop _ => true
  | .inflightCancel _ => true
  | .metrics (.requestStart _) => true
  | .metrics (.requestEnd _) => true
  | _ => false

def stagePre (d : Daemon) (req? : Option RequestEnvelope) (g : Stage) : SrvOp → Prop
  | .inflightSet key => g = {} ∧ ∃ req, req? = some req ∧ key = req.key
  | .metrics (.requestStart i) => g = ⟨.entering, []⟩ ∧ ∃ req, req? = some req ∧ i = req.identity
  | .inflightCancel key => g = ⟨.serving, []⟩ ∧ ∃ req, req? = some req ∧ req.cancelKeys d = [key]
  | .metrics (.requestEnd i) => ∃ req, req? = some req ∧ i = req.identity ∧ g = ⟨.serving, req.cancelKeys d⟩
  | .inflightPop key => ∃ req, req? = some req ∧ key = req.key ∧ g = ⟨.leaving, req.cancelKeys d⟩
  | o => Live req? g ∧ (o.waits = true → MayWait req? g)

def stageMonitor (d : Daemon) (req? : Option RequestEnvelope) : Coro.Monitor srvSig Stage where
  pre := stagePre d req?
  allows _ _ _ := True
  next g o _ := g.next o

/-- A handler that is over was never in its section, or has been through it. -/
def StageOver (d : Daemon) (req? : Option RequestEnvelope) (g : Stage) : Prop :=
  g = {} ∨ ∃ req, req? = some req ∧ g = ⟨.gone, req.cancelKeys d⟩

@[simp] theorem Trace.stage_snoc (tr : Trace) (e : Coro.Event srvSig) : (tr.snoc e).stage = tr.stage.next e.op := by
  rw [Trace.stage, Trace.snoc, List.foldl_append]
  rfl

@[simp] theorem Trace.request_snoc (tr : Trace) (e : Coro.Event srvSig) : (tr.snoc e).request = tr.request := rfl

theorem SrvOp.not_booked_of_waits {o : SrvOp} (hw : o.waits = true) : o.booked = false := by
  cases o <;> first | rfl | cases hw

theorem SrvOp.not_booked_of_served {o : SrvOp} (ho : o.served = true) : o.booked = false := by
  cases o <;> first | rfl | cases ho

theorem Stage.next_of_not_booked {o : SrvOp} (ho : o.booked = false) (g : Stage) : g.next o = g := by
  have hplace : g.place.next o = g.place := by
    cases o with
    | inflightSet => cases ho
    | inflightPop => cases ho
    | metrics c => cases c <;> first | (cases g.place <;> rfl) | cases ho
    | _ => cases g.place <;> rfl
  have hcancels : o.cancels = [] := by
    cases o with
    | inflightCancel => cases ho
    | _ => rfl
  rw [Stage.next, hplace, hcancels, List.append_nil]

variable {d : Daemon} {req? : Option RequestEnvelope} {g : Stage} {o : SrvOp}

theorem stagePre_of_not_booked (ho : o.booked = false) :
    stagePre d req? g o ↔ Live req? g ∧ (o.waits = true → MayWait req? g) := by
  cases o with
  | metrics c => cases c <;> first | rfl | cases ho
  | _ => first | rfl | cases ho

/-- The way through the section for a request, one operation after the other. -/
inductive BookStep (d : Daemon) (req : RequestEnvelope) : Stage → SrvOp → Stage → Prop
  | register : BookStep d req {} (.inflightSet req.key) ⟨.entering, []⟩
  | start : BookStep d req ⟨.entering, []⟩ (.metrics (.requestStart req.identity)) ⟨.serving, []⟩
  | ask {key : Bytes × Int} (hkeys : req.cancelKeys d = [key]) :
      BookStep d req ⟨.serving, []⟩ (.inflightCancel key) ⟨.serving, [key]⟩
  | finish : BookStep d req ⟨.serving, req.cancelKeys d⟩ (.metrics (.requestEnd req.identity))
      ⟨.leaving, req.cancelKeys d⟩
  | remove : BookStep d req ⟨.leaving, req.cancelKeys d⟩ (.inflightPop req.key) ⟨.gone, req.cancelKeys d⟩

theorem next_requestEnd (keys : List (Bytes × Int)) (i : Bytes) :
    Stage.next ⟨.serving, keys⟩ (.metrics (.requestEnd i)) = ⟨.leaving, keys⟩ :=
  congrArg (Stage.mk .leaving) (List.append_nil keys)

theorem next_inflightPop (keys : List (Bytes × Int)) (key : Bytes × Nat) :
    Stage.next ⟨.leaving, keys⟩ (.inflightPop key) = ⟨.gone, keys⟩ :=
  congrArg (Stage.mk .gone) (List.append_nil keys)

theorem bookStep (hpre : stagePre d req? g o) (ho : o.booked ≠ false) :
    ∃ req, req? = some req ∧ BookStep d req g o (g.next o) := by
  cases o with
  | inflightSet key =>
    obtain ⟨rfl, req, hreq, rfl⟩ := hpre
    exact ⟨req, hreq, .register⟩
  | inflightCancel key =>
    obtain ⟨rfl, req, hreq, hkeys⟩ := hpre
    exact ⟨req, hreq, .ask hkeys⟩
  | inflightPop key =>
    obtain ⟨req, hreq, rfl, rfl⟩ := hpre
    rw [next_inflightPop]
    exact ⟨req, hreq, .remove⟩
  | metrics c =>
    cases c with
    | requestStart i =>
      obtain ⟨rfl, req, hreq, rfl⟩ := hpre
      exact ⟨req, hreq, .start⟩
    | requestEnd i =>
      obtain ⟨req, hreq, rfl, rfl⟩ := hpre
      rw [next_requestEnd]
      exact ⟨req, hreq, .finish⟩
    | _ => exact absurd rfl ho
  | _ => exact absurd rfl ho

theorem live_of_stagePre (hpre : stagePre d req? g o) : Live req? g := by
  by_cases ho : o.booked = false
  · exact ((stagePre_of_not_booked ho).1 hpre).1
  · obtain ⟨req, hreq, hstep⟩ := bookStep hpre ho
    refine ⟨?_, fun _ => by rw [hreq]; rfl⟩
    generalize g.next o = g' at hstep
    cases hstep <;> exact fun hgone => Place.noConfusion hgone

theorem mayWait_of_waits (hpre : stagePre d req? g o) (hw : o.waits = true) : MayWait req? g :=
  ((stagePre_of_not_booked (SrvOp.not_booked_of_waits hw)).1 hpre).2 hw

theorem quiet_stage (ho : o.booked = false) (hg : Live req? g) (hw : MayWait req? g) :
    Quiet (stageMonitor d req?) g o :=
  ⟨(stagePre_of_not_booked ho).2 ⟨hg, fun _ => hw⟩, fun _ _ => Stage.next_of_not_booked ho g⟩

theorem quietOnServed_stage (hg : Live req? g) (hw : MayWait req? g) : QuietOnServed (stageMonitor d req?) g :=
  fun _ ho => quiet_stage (SrvOp.not_booked_of_served ho) hg hw

theorem quietOnFrames_stage (hg : Live req? g) (hw : MayWait req? g) : QuietOnFrames (stageMonitor d req?) g := by
  intro c hc
  refine quiet_stage ?_ hg hw
  cases c <;> first | rfl | cases hc

section

variable {req : RequestEnvelope}

/-- A cancellation is asked for at once, any other request serves its command. -/
theorem stage_dispatchRequest (hreq : req? = some req) :
    (dispatchRequest d req).run.wp (stageMonitor d req?) (fun _ g => g = ⟨.serving, req.cancelKeys d⟩)
      ⟨.serving, []⟩ := by
  by_cases hcmd : req.command = .cancelRequest
  · have hkeys : req.cancelKeys d = match unpackPayload d.msgspec CancelRequest req.payloadBytes with
        | .ok payload => [(req.identity, payload.reqId)]
        | .error _ => [] := if_pos hcmd
    rw [dispatchRequest, hcmd]
    dsimp only
    rw [handleCancelRequest]
    cases hpayload : unpackPayload d.msgspec CancelRequest req.payloadBytes with
    | error e =>
      rw [hpayload] at hkeys
      exact congrArg _ hkeys.symm
    | ok payload =>
      rw [hpayload] at hkeys
      refine ⟨⟨rfl, req, hreq, hkeys⟩, fun _ _ => ?_⟩
      exact congrArg _ hkeys.symm
  · have hkeys : req.cancelKeys d = [] := if_neg hcmd
    have hg : Live req? ⟨.serving, []⟩ := ⟨nofun, fun _ => by rw [hreq]; rfl⟩
    have hw : MayWait req? ⟨.serving, []⟩ := .inr ⟨rfl, req, hreq, hcmd⟩
    have hq : QuietOnServed (stageMonitor d req?) ⟨.serving, []⟩ := quietOnServed_stage hg hw
    have hquiet : ∀ o : SrvOp, o.booked = false → Quiet (stageMonitor d req?) ⟨.serving, []⟩ o :=
      fun o ho => quiet_stage ho hg hw
    have hclips : QuietOnClips (stageMonitor d req?) ⟨.serving, []⟩ :=
      ⟨fun _ => hquiet _ rfl, fun _ _ _ => hquiet _ rfl⟩
    rw [hkeys]
    refine keeps_dispatchRequest d req hq (fun hc => absurd hc hcmd) (fun _ => ?_) ?_
    · refine keeps_handleGetFrame d req hq (quietOnFrames_stage hg hw) hclips (fun frameReq clip renderStart => ?_)
      refine keeps_renderAndSend d req hq hclips frameReq clip renderStart ?_
      refine .bind (hquiet (.awaitFrame _ _) rfl) (fun frame => .tryFinally ?_ (hquiet (.closeFrame _) rfl))
      exact keeps_sendFrame d req hq frameReq frame renderStart (quietOnFrames_stage hg hw) (hquiet _ rfl)
    · intro _ α _ typeName action _
      exact keeps_dispatchExecutor d req hq α typeName action (fun _ => hquiet _ rfl) (hquiet _ rfl)

theorem stage_acceptRequest (hreq : req? = some req) :
    (acceptRequest d req).run.wp (stageMonitor d req?) (fun _ g => StageOver d req? g) {} := by
  rw [acceptRequest, Coro.wp_run_bind, wp_inflightSet]
  refine ⟨⟨rfl, req, hreq, rfl⟩, fun _ _ => ?_⟩
  dsimp only
  rw [Coro.wp_run_bind, wp_metrics]
  refine ⟨⟨rfl, req, hreq, rfl⟩, fun _ _ => ?_⟩
  dsimp only
  rw [Coro.wp_run_tryFinally]
  refine Coro.wp_mono _ (stage_dispatchRequest hreq) ?_
  rintro r g rfl
  have hleave := next_requestEnd (req.cancelKeys d) req.identity
  have hgone := next_inflightPop (req.cancelKeys d) req.key
  refine ⟨⟨req, hreq, rfl, rfl⟩, fun _ _ => ⟨⟨req, hreq, rfl, hleave⟩, fun _ _ => .inr ⟨req, hreq, ?_⟩⟩⟩
  exact (congrArg (Stage.next · _) hleave).trans hgone

end

theorem run_stageMonitor (log : List (Coro.Event srvSig)) :
    (stageMonitor d req?).run g log = log.foldl (fun g e => g.next e.op) g := by
  induction log generalizing g with
  | nil => rfl
  | cons e log ih => exact ih

/-- Every handler goes through its section as its trace says it does. -/
theorem Task.Handles.stage {task : Task} (hh : task.Handles d) :
    task.prog.wp (stageMonitor d task.trace.request) (fun _ g => StageOver d task.trace.request g) task.trace.stage := by
  have hq : QuietOnServed (stageMonitor d task.trace.request) {} := quietOnServed_stage ⟨nofun, nofun⟩ (.inl rfl)
  have ⟨_, hwp⟩ := hh.wp_trace (M := stageMonitor d task.trace.request) (g := {})
    (Q := fun _ g => StageOver d task.trace.request g) (fun _ _ _ => trivial) (.inl rfl) (fun msg hmsg => ?_)
    (fun _ payload subscribers => (keeps_sendAll hq payload subscribers).wp (fun _ => .inl rfl))
  · rw [run_stageMonitor] at hwp
    exact hwp
  · refine wp_handleRequest d hq msg (fun _ => .inl rfl) (fun req hpass => stage_acceptRequest ?_)
    rw [Trace.request, trace, hmsg]
    exact congrArg Except.toOption hpass.wellFormed

theorem Task.Handles.stagePre {task : Task} {k : o.Res → HandlerProg} (hh : task.Handles d)
    (hp : task.prog = .call o k) : VsRemote.stagePre d task.trace.request task.trace.stage o := by
  have hwp := hh.stage
  rw [hp] at hwp
  exact hwp.1

theorem Task.Handles.stageOver {task : Task} (hh : task.Handles d) (hf : task.finished = true) :
    StageOver d task.trace.request task.trace.stage := by
  have hwp := hh.stage
  unfold finished at hf
  split at hf
  · next r hp =>
    rw [hp] at hwp
    exact hwp
  · cases hf

theorem Task.Handles.live {task : Task} (hh : task.Handles d) (hf : task.finished = false) :
    Live task.trace.request task.trace.stage := by
  unfold finished at hf
  split at hf
  · cases hf
  · next o k hp => exact live_of_stagePre (hh.stagePre hp)

/-- From its registration on a task is in the section until it is over. -/
theorem Task.Handles.inside_iff {task : Task} (hh : task.Handles d) :
    task.trace.stage.place.inside = true ↔ task.trace.stage.place ≠ .waiting ∧ task.finished = false := by
  cases hf : task.finished with
  | true => rcases hh.stageOver hf with hover | ⟨req, -, hover⟩ <;> simp [hover, Place.inside]
  | false =>
    have hgone := (hh.live hf).place
    cases hplace : task.trace.stage.place with
    | gone => exact absurd hplace hgone
    | _ => simp [Place.inside]

end VsRemote
