import VsRemote.HandlerKeeps
import VsRemote.LoopSteps

/-! How a GET_FRAME handler is charged: it counts its request, and then at most
one success and one failure, in the order its coroutine takes. -/

namespace VsRemote

open Handler

/-- The counters of frame requests. -/
inductive FrameCounter where
  | requests
  | completed
  | failed
  | cancelled
  deriving DecidableEq

def MetricsCall.counter : MetricsCall → Option FrameCounter
  | .frameRequest => some .requests
  | .frameCompleted _ _ _ _ => some .completed
  | .frameFailed => some .failed
  | .frameCancelled => some .cancelled
  | _ => none

def SrvOp.counter : SrvOp → Option FrameCounter
  | .metrics call => call.counter
  | _ => none

/-- How often a handler has raised a counter. -/
def Trace.count (c : FrameCounter) (tr : Trace) : Nat := tr.log.countP (fun e => e.op.counter = some c)

/-- What has become of the request of a handler: not counted, counted, answered
that its output is missing, or charged, once or both as completed and as failed
or cancelled. -/
inductive Charge where
  | idle
  | counted
  | missing
  | completed
  | failed
  | cancelled
  | completedFailed
  | completedCancelled
  deriving DecidableEq

def Charge.next : Charge → (o : SrvOp) → o.Res → Charge
  | .idle, .metrics .frameRequest, _ => .counted
  | .counted, .runner (.clip _), .error _ => .missing
  | .counted, .metrics (.frameCompleted _ _ _ _), _ => .completed
  | .counted, .metrics .frameFailed, _ => .failed
  | .counted, .metrics .frameCancelled, _ => .cancelled
  | .completed, .metrics .frameFailed, _ => .completedFailed
  | .completed, .metrics .frameCancelled, _ => .completedCancelled
  | g, _, _ => g

/-- How often a handler in the state has raised a counter. -/
def Charge.count : Charge → FrameCounter → Nat
  | .idle, _ => 0
  | _, .requests => 1
  | .completed, .completed => 1
  | .failed, .failed => 1
  | .cancelled, .cancelled => 1
  | .completedFailed, .completed => 1
  | .completedFailed, .failed => 1
  | .completedCancelled, .completed => 1
  | .completedCancelled, .cancelled => 1
  | _, _ => 0

def Charge.twice : Charge → Bool
  | .completedFailed => true
  | .completedCancelled => true
  | _ => false

def chargePre (g : Charge) (o : SrvOp) : Prop :=
  match o.counter with
  | none => True
  | some .requests => g = .idle
  | some .completed => g = .counted
  | some _ => g = .counted ∨ g = .completed

def chargeMonitor : Coro.Monitor srvSig Charge where
  pre := chargePre
  allows _ _ _ := True
  next := Charge.next

def Trace.charge (tr : Trace) : Charge := chargeMonitor.run .idle tr.log

theorem Trace.charge_snoc (tr : Trace) (e : Coro.Event srvSig) : (tr.snoc e).charge = tr.charge.next e.op e.res := by
  rw [Trace.charge, Trace.snoc, Coro.Monitor.run_append]
  rfl

theorem Charge.count_next {g : Charge} {o : SrvOp} (hpre : chargePre g o) (r : o.Res) (c : FrameCounter) :
    (g.next o r).count c = g.count c + if o.counter = some c then 1 else 0 := by
  cases o with
  | metrics call =>
    cases call with
    | frameRequest =>
      obtain rfl : g = .idle := hpre
      cases c <;> rfl
    | frameCompleted u z rt ct =>
      obtain rfl : g = .counted := hpre
      cases c <;> rfl
    | frameFailed =>
      obtain rfl | rfl : g = .counted ∨ g = .completed := hpre
      · cases c <;> rfl
      · cases c <;> rfl
    | frameCancelled =>
      obtain rfl | rfl : g = .counted ∨ g = .completed := hpre
      · cases c <;> rfl
      · cases c <;> rfl
    | requestStart i => cases g <;> rfl
    | requestEnd i => cases g <;> rfl
  | runner q =>
    cases q with
    | clip i =>
      cases g <;> cases r <;> cases c <;> rfl
    | _ => cases g <;> rfl
  | _ => cases g <;> rfl

/-- Along a coroutine that meets the requirements the state knows the counts. -/
theorem count_of_meets {g : Charge} {log : List (Coro.Event srvSig)} (hm : chargeMonitor.Meets g log)
    (c : FrameCounter) :
    (chargeMonitor.run g log).count c = g.count c + log.countP (fun e => e.op.counter = some c) := by
  induction log generalizing g with
  | nil => rfl
  | cons e log ih =>
    have hnext := Charge.count_next hm.1 e.res c
    have hrest := ih hm.2
    rw [List.countP_cons]
    simp only [decide_eq_true_eq]
    change (chargeMonitor.run (g.next e.op e.res) log).count c = _
    change (chargeMonitor.run (g.next e.op e.res) log).count c = (g.next e.op e.res).count c + _ at hrest
    omega

theorem Charge.next_of_uncounted {o : SrvOp} (ho : o.counter = none) (hclip : ∀ i, o ≠ .runner (.clip i))
    (g : Charge) (r : o.Res) : g.next o r = g := by
  cases o with
  | metrics call => cases call <;> first | (cases g <;> rfl) | cases ho
  | runner q =>
    cases q with
    | clip i => exact absurd rfl (hclip i)
    | _ => cases g <;> rfl
  | _ => cases g <;> rfl

theorem quiet_charge {o : SrvOp} (ho : o.counter = none) (hclip : ∀ i, o ≠ .runner (.clip i)) (g : Charge) :
    Quiet chargeMonitor g o := by
  refine ⟨?_, fun r _ => Charge.next_of_uncounted ho hclip g r⟩
  change chargePre g o
  rw [chargePre, ho]
  trivial

theorem quietOnServed_charge (g : Charge) : QuietOnServed chargeMonitor g := by
  intro o ho
  refine quiet_charge ?_ ?_ g
  · cases o <;> first | rfl | cases ho
  · rintro i rfl
    cases ho

section

variable (d : Daemon) (req : RequestEnvelope)

/-- How the rendering ends: completed, or with an exception before or after that. -/
def Billed : Except Raised Unit → Charge → Prop
  | .ok _, g => g = .completed
  | .error _, g => g = .counted ∨ g = .completed

theorem billed_sendFrame (frameReq : FrameRequest) (frame : VideoFrame) (renderStart : Rat) :
    (sendFrame d req frameReq frame renderStart).run.wp chargeMonitor Billed .counted := by
  have hq := quietOnServed_charge .counted
  have hraise : ∀ e, Billed (.error e) .counted := fun _ => .inl rfl
  refine Keeps.wp_bind (keeps_perfCounter hq) hraise (fun rendered => ?_)
  refine Keeps.wp_bind (keeps_perfCounter hq) hraise (fun compStart => ?_)
  refine Keeps.wp_bind (quiet_charge (o := .runInExecutor _) rfl nofun .counted) hraise (fun parts => ?_)
  refine Keeps.wp_bind (keeps_perfCounter hq) hraise (fun compEnd => ?_)
  rw [Coro.wp_run_bind, wp_metrics]
  refine ⟨rfl, fun _ _ => (keeps_sendHeader d req (quietOnServed_charge .completed) _ _).wp (fun r => ?_)⟩
  cases r with
  | ok u => rfl
  | error e => exact .inr rfl

theorem billed_renderAndSend (frameReq : FrameRequest) (clip : VideoNode) (renderStart : Rat) :
    (renderAndSend d req frameReq clip renderStart).run.wp chargeMonitor Billed .counted := by
  have hq := quietOnServed_charge .counted
  have hraise : ∀ e, Billed (.error e) .counted := fun _ => .inl rfl
  refine Keeps.wp_bind (.op (hq (.runner .environment) rfl)) hraise (fun env? => ?_)
  refine Keeps.wp_bind (.ofExcept _) hraise (fun env => ?_)
  refine Keeps.wp_bind (.op (hq (.useEnvironment env) rfl)) hraise (fun used => ?_)
  refine Keeps.wp_bind (.ofExcept _) hraise (fun _ => ?_)
  refine Keeps.wp_bind (.op (quiet_charge (o := .getFrameAsync env clip _) rfl nofun .counted)) hraise (fun asked => ?_)
  refine Keeps.wp_bind (.ofExcept _) hraise (fun _ => ?_)
  refine Keeps.wp_bind (quiet_charge (o := .awaitFrame clip _) rfl nofun .counted) hraise (fun frame => ?_)
  rw [Coro.wp_run_tryFinally]
  refine Coro.wp_mono _ (billed_sendFrame d req frameReq frame renderStart) (fun r g hend => ?_)
  obtain ⟨hpre, hnext⟩ := quiet_charge (o := .closeFrame frame.id) rfl nofun g
  refine ⟨hpre, fun u hu => ?_⟩
  rw [hnext u hu]
  exact hend

/-- A handler does not end as counted only. -/
def Settled (_ : Except Raised Unit) (g : Charge) : Prop := g ≠ .counted

theorem settled_handleGetFrame : (handleGetFrame d req).run.wp chargeMonitor Settled .idle := by
  have hq := quietOnServed_charge .idle
  refine Keeps.wp_bind (.op (hq .socketOpen rfl)) (fun _ => nofun) (fun isOpen => ?_)
  rw [Coro.wp_run_ite]
  split
  · exact nofun
  · split
    · exact (keeps_sendHeader d req hq _ _).wp (fun _ => nofun)
    · next frameReq _ =>
      rw [Coro.wp_run_bind, wp_metrics]
      refine ⟨rfl, fun _ _ => ?_⟩
      dsimp only
      rw [Coro.wp_run_bind, wp_runnerGetClip]
      refine ⟨trivial, fun clip? _ => ?_⟩
      cases clip? with
      | error e =>
        dsimp only
        rw [Coro.wp_run_ite]
        split
        · exact (keeps_sendHeader d req (quietOnServed_charge .missing) _ _).wp (fun _ => nofun)
        · exact nofun
      | ok clip =>
        dsimp only
        rw [Coro.wp_run_bind, wp_perfCounter]
        refine ⟨trivial, fun renderStart _ => ?_⟩
        dsimp only
        rw [Coro.wp_run_tryCatch]
        refine Coro.wp_mono _ (billed_renderAndSend d req frameReq clip renderStart) (fun r g hend => ?_)
        rcases r with (_ | e) | u
        · dsimp only
          rw [Coro.wp_run_bind, wp_metrics]
          refine ⟨hend, fun _ _ => ?_⟩
          rcases hend with rfl | rfl <;> exact nofun
        · dsimp only
          rw [Coro.wp_run_bind, wp_metrics]
          refine ⟨hend, fun _ _ => ?_⟩
          have hfailed : ∀ g : Charge, g ≠ .counted → ∀ tb : Traceback, (sendHeader d req
              (frameErrorHeader .error req frameReq (pyStrip (e.text ++ "\n\n[Remote Traceback]:\n" ++ tb.formatted)))
              []).run.wp chargeMonitor Settled g :=
            fun g hg tb => (keeps_sendHeader d req (quietOnServed_charge g) _ _).wp (fun _ => hg)
          dsimp only
          rw [Coro.wp_run_bind, wp_traceback]
          rcases hend with rfl | rfl
          · exact ⟨trivial, fun tb _ => hfailed .failed nofun tb⟩
          · exact ⟨trivial, fun tb _ => hfailed .completedFailed nofun tb⟩
        · obtain rfl : g = .completed := hend
          exact nofun

theorem settled_acceptRequest : (acceptRequest d req).run.wp chargeMonitor Settled .idle := by
  have hq := quietOnServed_charge .idle
  have hquiet : ∀ (g : Charge) (o : SrvOp), o.counter = none → (∀ i, o ≠ .runner (.clip i)) → Quiet chargeMonitor g o :=
    fun g o ho hclip => quiet_charge ho hclip g
  refine Keeps.wp_bind (.op (hquiet .idle (.inflightSet _) rfl nofun)) (fun _ => nofun) (fun _ => ?_)
  refine Keeps.wp_bind (.op (hquiet .idle (.metrics (.requestStart _)) rfl nofun)) (fun _ => nofun) (fun _ => ?_)
  have hdispatch : (dispatchRequest d req).run.wp chargeMonitor Settled .idle := by
    by_cases hcmd : req.command = .getFrame
    · rw [dispatchRequest, hcmd]
      exact settled_handleGetFrame d req
    · refine (keeps_dispatchRequest d req hq (fun _ => ?_) (fun hc => absurd hc hcmd) ?_).wp (fun _ => nofun)
      · exact keeps_handleCancelRequest d req (fun key => hquiet .idle (.inflightCancel key) rfl nofun)
      · intro _ α _ typeName action _
        exact keeps_dispatchExecutor d req hq α typeName action (fun _ => hquiet .idle (.runInExecutor _) rfl nofun)
          (hquiet .idle (.runInExecutor _) rfl nofun)
  rw [Coro.wp_run_tryFinally]
  refine Coro.wp_mono _ hdispatch (fun r g hend => ?_)
  obtain ⟨hend', hstart⟩ := hquiet g (.metrics (.requestEnd req.identity)) rfl nofun
  obtain ⟨hpop, hnext⟩ := hquiet g (.inflightPop (req.identity, req.reqId)) rfl nofun
  rw [wp_endRequest]
  refine ⟨hend', fun u hu => ?_⟩
  rw [hstart u hu]
  refine ⟨hpop, fun u hu => ?_⟩
  rw [hnext u hu]
  exact hend

end

/-- What a handler has charged, it has charged in the order of its coroutine,
and when it is over it has charged what it counted, unless the output was missing. -/
theorem Task.Handles.charged {d : Daemon} {task : Task} (hh : task.Handles d) :
    (∀ c, task.trace.count c = task.trace.charge.count c) ∧ (task.finished = true → task.trace.charge ≠ .counted) := by
  have hq := quietOnServed_charge .idle
  have ⟨hmeets, hwp⟩ := hh.wp_trace (M := chargeMonitor) (g := .idle) (Q := Settled) (fun _ _ _ => trivial) nofun
    (fun msg _ => wp_handleRequest d hq msg (fun _ => nofun) (fun req _ => settled_acceptRequest d req))
    (fun _ payload subscribers => (keeps_sendAll hq payload subscribers).wp (fun _ => nofun))
  refine ⟨fun c => ?_, fun hf => ?_⟩
  · have hcount := count_of_meets hmeets c
    rw [Charge.count, Nat.zero_add] at hcount
    exact hcount.symm
  · unfold finished at hf
    split at hf
    · next r hp =>
      rw [hp] at hwp
      exact hwp
    · cases hf

end VsRemote
