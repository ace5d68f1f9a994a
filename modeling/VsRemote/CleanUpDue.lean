import VsRemote.HandlerKeeps
import VsRemote.Lifecycle

/-! Whether a handler still has to clean up after its load: once the load has
failed it only formats the traceback and hands the clean-up to the pool. -/

namespace VsRemote

open Handler

/-- The ghost state is whether the clean-up is due; only a handler that may
load gets there. -/
def cleanUpMonitor (mayLoad : Bool) : Coro.Monitor srvSig Bool where
  pre
    | false, .runInExecutor (.load _) => mayLoad = true
    | true, .traceback _ => mayLoad = true
    | true, .runInExecutor .teardown => mayLoad = true
    | true, _ => False
    | false, _ => True
  allows _ _ _ := True
  next
    | _, .runInExecutor (.load _), .error (.exc _) => true
    | _, .runInExecutor .teardown, _ => false
    | due, _, _ => due

section

variable {b : Bool} (d : Daemon) (req : RequestEnvelope)

theorem quietOnPlain_cleanUp : QuietOnPlain (cleanUpMonitor b) false := by
  intro o ho
  cases o with
  | awaitFrame clip n => cases ho
  | closeFrame f => cases ho
  | runInExecutor job => cases ho
  | _ => exact ⟨trivial, fun _ _ => rfl⟩

theorem quietOnClips_cleanUp : QuietOnClips (cleanUpMonitor b) false :=
  ⟨fun _ => ⟨trivial, fun _ _ => rfl⟩, fun _ _ _ => ⟨trivial, fun _ _ => rfl⟩⟩

theorem quiet_extract (frame : VideoFrame) (compression : Compression) :
    Quiet (cleanUpMonitor b) false (.runInExecutor (.extract frame compression)) := ⟨trivial, fun _ _ => rfl⟩

theorem cleanUp_renderAndSend (frameReq : FrameRequest) (clip : VideoNode) (renderStart : Rat) :
    Keeps (cleanUpMonitor b) false (renderAndSend d req frameReq clip renderStart) := by
  refine keeps_renderAndSend d req quietOnPlain_cleanUp.served quietOnClips_cleanUp frameReq clip renderStart ?_
  refine .bind ⟨trivial, fun _ _ => rfl⟩ (fun frame => .tryFinally ?_ ⟨trivial, fun _ _ => rfl⟩)
  exact keeps_sendFrame d req quietOnPlain_cleanUp.served frameReq frame renderStart quietOnPlain_cleanUp.frames (quiet_extract frame _)

/-- After the failure of the load the clean-up comes before anything else. -/
theorem cleanUp_dispatchExecutor (α : Type) [Packed α] (typeName : String) (action : α → LoadAction) :
    Keeps (cleanUpMonitor true) false (dispatchExecutor d req α typeName action) := by
  unfold dispatchExecutor
  split
  · exact keeps_sendErrorText d req quietOnPlain_cleanUp.served _ _
  · next payload _ =>
    have hrest : ∀ (e : PyExc) (due : Bool), Coro.wp (cleanUpMonitor true) (do
        let tb ← traceback (origError e)
        runTeardown
        sendError d req (if e.isNotFound then StatusCode.notFound else StatusCode.error)
          (buildErrorPayload e tb) : Handler Unit).run (fun _ due' => due' = false) due := by
      intro e due
      have hpre : (cleanUpMonitor true).pre due (.traceback (origError e)) ∧
          (cleanUpMonitor true).pre due (.runInExecutor .teardown) := by
        cases due with
        | false => exact ⟨trivial, trivial⟩
        | true => exact ⟨rfl, rfl⟩
      simp only [Coro.wp_run_bind, wp_traceback, wp_runTeardown]
      refine ⟨hpre.1, fun tb _ => ⟨hpre.2, fun r _ => ?_⟩⟩
      cases r with
      | ok _ => exact keeps_sendError d req quietOnPlain_cleanUp.served _ _
      | error e' => rfl
    unfold Keeps
    simp only [Coro.wp_run_bind, wp_tryExcept, wp_runLoad]
    refine ⟨rfl, fun r _ => ?_⟩
    rcases r with (_ | e) | outputs
    · rfl
    · exact hrest e true
    · simp only [wp_ofExcept]
      cases pack d.msgspec (α := List OutputItem) outputs with
      | error e => exact hrest e false
      | ok bytes =>
        refine ⟨trivial, fun r _ => ?_⟩
        rcases r with (_ | e) | _
        · rfl
        · exact hrest e false
        · rfl

theorem cleanUp_handleRequest (msg : List Bytes) :
    Keeps (cleanUpMonitor (asksLoad msg)) false (handleRequest d msg) := by
  refine keeps_handleRequest d quietOnPlain_cleanUp msg (fun req => ?_) ?_
  · exact keeps_handleGetFrame d req quietOnPlain_cleanUp.served quietOnPlain_cleanUp.frames quietOnClips_cleanUp (cleanUp_renderAndSend d req)
  · intro req hpass hload α _ typeName action _
    rw [hpass.asksLoad, hload]
    exact cleanUp_dispatchExecutor d req α typeName action

end

def Task.isLoad (task : Task) : Bool :=
  match task.msg with
  | some msg => asksLoad msg
  | none => false

/-- The load of the task has failed and its clean-up has not returned. -/
def Task.due (task : Task) : Bool := (cleanUpMonitor task.isLoad).run false task.log

section

variable {d : Daemon} {task : Task}

theorem Task.Handles.wp_due (hh : task.Handles d) :
    task.prog.wp (cleanUpMonitor task.isLoad) (fun _ due => due = false) task.due := by
  refine hh.wp_log (fun _ _ _ => trivial) (fun msg hmsg => ?_) (fun _ payload subscribers => ?_)
  · rw [Task.isLoad, hmsg]
    exact cleanUp_handleRequest d msg
  · exact keeps_sendAll quietOnPlain_cleanUp.served payload subscribers

theorem Task.Handles.pre_due {o : SrvOp} {k : o.Res → HandlerProg} (hh : task.Handles d)
    (hp : task.prog = .call o k) : (cleanUpMonitor task.isLoad).pre task.due o := by
  have hwp := hh.wp_due
  rw [hp] at hwp
  exact hwp.1

theorem due_complete (task : Task) (o : SrvOp) (k : o.Res → HandlerProg) (r : o.Res) :
    (task.complete o k r).due = (cleanUpMonitor task.isLoad).next task.due o r := by
  simp only [Task.due, Task.isLoad, Task.complete_log, Task.complete_msg, Coro.Monitor.run_append]
  rfl

@[simp] theorem isLoad_cancel (task : Task) : task.cancel.isLoad = task.isLoad := by
  simp only [Task.isLoad, Task.cancel_msg]

@[simp] theorem due_cancel (task : Task) : task.cancel.due = task.due := by
  simp only [Task.due, isLoad_cancel, Task.cancel_log]

theorem Task.Handles.isLoad_of_load {a : LoadAction} {k : SrvOp.Res (.runInExecutor (.load a)) → HandlerProg}
    (hh : task.Handles d) (hp : task.prog = .call (.runInExecutor (.load a)) k) : task.isLoad = true := by
  have hpre := hh.pre_due hp
  cases hdue : task.due with
  | false => rwa [hdue] at hpre
  | true =>
    rw [hdue] at hpre
    exact hpre.elim

/-- A task whose clean-up is due is about to format the traceback or to run the
clean-up. -/
theorem Task.Handles.of_due (hh : task.Handles d) (hdue : task.due = true) :
    task.isLoad = true ∧ ((∃ e k, task.prog = .call (.traceback e) k) ∨
      ∃ k, task.prog = .call (.runInExecutor .teardown) k) := by
  cases hp : task.prog with
  | pure r =>
    have hwp := hh.wp_due
    rw [hp, Coro.wp_pure, hdue] at hwp
    cases hwp
  | call o k =>
    have hpre := hh.pre_due hp
    rw [hdue] at hpre
    cases o with
    | traceback e => exact ⟨hpre, .inl ⟨e, k, rfl⟩⟩
    | runInExecutor job =>
      cases job with
      | teardown => exact ⟨hpre, .inr ⟨k, rfl⟩⟩
      | _ => exact hpre.elim
    | _ => exact hpre.elim

end

end VsRemote
