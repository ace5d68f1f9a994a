import VsRemote.Lifecycle

/-! A step of the server seen from what its handlers were sent and have done:
one of them goes on, a new one is taken up, or they all stay where they are. -/

namespace VsRemote

/-- What a task was sent and the operations it has completed. -/
structure Trace where
  msg : Option (List Bytes)
  log : List (Coro.Event srvSig) := []

def Trace.snoc (tr : Trace) (e : Coro.Event srvSig) : Trace := { tr with log := tr.log ++ [e] }

def Task.trace (task : Task) : Trace := ⟨task.msg, task.log⟩

/-- The answer comes from elsewhere: the handler gives up the thread for it. -/
def SrvOp.waits : SrvOp → Bool
  | .runInExecutor _ => true
  | o => o.suspends

/-- Steps that are taken with no handler on the thread. -/
def Label.idle : Label → Bool
  | .recv _ => true
  | .broadcast _ => true
  | .frame _ _ => true
  | .put _ _ => true
  | .resume _ => true
  | .cancelled _ => true
  | _ => false

theorem Task.trace_cancel (task : Task) : task.cancel.trace = task.trace := by
  simp only [Task.trace, Task.cancel_msg, Task.cancel_log]

theorem Task.trace_complete (task : Task) (o : SrvOp) (k : o.Res → HandlerProg) (r : o.Res) :
    (task.complete o k r).trace = task.trace.snoc ⟨o, r⟩ := rfl

theorem SrvOp.suspends_of_not_waits {o : SrvOp} (hw : o.waits = false) : o.suspends = false := by
  cases o <;> first | rfl | cases hw

namespace Sys

variable {d : Daemon} {h : Host} {s s' : Sys} {l : Label} {t : Nat}

def traces (s : Sys) : List Trace := s.tasks.map Task.trace

theorem traces_get? {task : Task} (ht : s.tasks[t]? = some task) : s.traces[t]? = some task.trace := by
  rw [traces, List.getElem?_map, ht]
  rfl

theorem exists_of_traces_get? {tr : Trace} (ht : s.traces[t]? = some tr) :
    ∃ task, s.tasks[t]? = some task ∧ task.trace = tr := by
  rw [traces, List.getElem?_map] at ht
  exact Option.map_eq_some_iff.1 ht

theorem traces_modifyTask {f : Task → Task} (hf : ∀ task, (f task).trace = task.trace) :
    (s.modifyTask t f).traces = s.traces := Lookup.map_modify_of_eq hf

theorem traces_clearCancel : (s.modifyTask t Task.clearCancel).traces = s.traces := traces_modifyTask (fun _ => rfl)

theorem traces_advance (o : SrvOp) (k : o.Res → HandlerProg) (r : o.Res) :
    (s.advance t o k r).traces = s.traces.modify t (fun tr => tr.snoc ⟨o, r⟩) :=
  Lookup.map_modify (fun task => Task.trace_complete task o k r)

theorem traces_sideEffect (o : SrvOp) : (s.sideEffect o).traces = s.traces := by
  unfold sideEffect
  split
  · unfold cancelTask
    split
    · split
      · exact traces_modifyTask Task.trace_cancel
      · rfl
    · rfl
  · rfl
  · split <;> rfl
  · rfl

theorem traces_cancel (tasks : List Task) : (tasks.map Task.cancel).map Task.trace = tasks.map Task.trace := by
  rw [List.map_map]
  exact List.map_congr_left (fun task _ => Task.trace_cancel task)

theorem step_idle (hs : step d h l s = some s') (hl : l.idle = true) : s.loop = none := by
  cases l with
  | recv msg =>
    simp only [step, stepRecv] at hs
    split at hs
    · next hc => exact hc.1
    · exact (Option.ite_none_right_eq_some.1 hs).1.1
  | broadcast payload =>
    simp only [step, stepBroadcast, Option.ite_none_right_eq_some] at hs
    exact hs.1.1
  | frame t r =>
    simp only [step, stepFrame, Option.bind_eq_bind, Option.bind_eq_some_iff] at hs
    obtain ⟨task, -, hs⟩ := hs
    split at hs
    · exact (Option.ite_none_right_eq_some.1 hs).1.1
    · cases hs
  | put t raises =>
    simp only [step, stepPut, Option.bind_eq_bind, Option.bind_eq_some_iff] at hs
    obtain ⟨task, -, hs⟩ := hs
    split at hs
    · exact (Option.ite_none_right_eq_some.1 hs).1.1
    · cases hs
  | resume t =>
    simp only [step, stepResume, Option.bind_eq_bind, Option.bind_eq_some_iff] at hs
    obtain ⟨task, -, hs⟩ := hs
    exact (Option.ite_none_right_eq_some.1 hs).1.1
  | cancelled t =>
    simp only [step, stepCancelled, Option.bind_eq_bind, Option.bind_eq_some_iff] at hs
    obtain ⟨task, -, hs⟩ := hs
    exact (Option.ite_none_right_eq_some.1 hs).1.1
  | _ => cases hl

theorem step_sync_free {c : Choice} (hs : step d h (.sync t c) s = some s') : s.free t = true := by
  simp only [step, stepSync, Option.bind_eq_bind, Option.bind_eq_some_iff] at hs
  obtain ⟨task, -, hs⟩ := hs
  split at hs
  · cases hs
  · exact (Option.ite_none_right_eq_some.1 hs).1

theorem step_submit_free (hs : step d h (.submit t) s = some s') : s.free t = true := by
  simp only [step, stepSubmit, Option.bind_eq_bind, Option.bind_eq_some_iff] at hs
  obtain ⟨task, -, hs⟩ := hs
  split at hs
  · exact (Option.ite_none_right_eq_some.1 hs).1
  · cases hs

/-- The table of requests in flight and the metrics are as they were. -/
structure SameBooks (s s' : Sys) : Prop where
  inflight : s'.srv.inflight = s.srv.inflight
  metrics : s'.srv.metrics = s.srv.metrics

inductive LoopStep (d : Daemon) (h : Host) (s : Sys) : Label → Sys → Prop
  | still {l : Label} {s' : Sys} (htr : s'.traces = s.traces) (hb : SameBooks s s') (hloop : s'.loop = s.loop) :
      LoopStep d h s l s'
  | submit {l : Label} {s' : Sys} {t : Nat} {task : Task} {job : Job} {k : SrvOp.Res (.runInExecutor job) → HandlerProg}
      (ht : s.tasks[t]? = some task) (hp : task.prog = .call (.runInExecutor job) k) (hfree : s.free t = true)
      (htr : s'.traces = s.traces) (hb : SameBooks s s') (hloop : s'.loop = none) : LoopStep d h s l s'
  | spawn {l : Label} {s' : Sys} {task : Task} (hf : Fresh d task) (hidle : s.loop = none)
      (htr : s'.traces = s.traces ++ [task.trace]) (hb : SameBooks s s') (hloop : s'.loop = s.loop) :
      LoopStep d h s l s'
  | sync {t : Nat} {c : Choice} {s' : Sys} {task : Task} {o : SrvOp} {k : o.Res → HandlerProg} {r : o.Res}
      (ht : s.tasks[t]? = some task) (hp : task.prog = .call o k) (hfree : s.free t = true)
      (hr : respond d h t o c s.srv = some (r, s'.srv))
      (htr : s'.traces = s.traces.modify t (fun tr => tr.snoc ⟨o, r⟩)) (hloop : s'.loop = holder t (k r)) :
      LoopStep d h s (.sync t c) s'
  | answered {l : Label} {s' : Sys} {t : Nat} {task : Task} {o : SrvOp} {k : o.Res → HandlerProg} {r : o.Res}
      (ht : s.tasks[t]? = some task) (hp : task.prog = .call o k) (hw : o.waits = true) (hidle : s.loop = none)
      (htr : s'.traces = s.traces.modify t (fun tr => tr.snoc ⟨o, r⟩)) (hb : SameBooks s s')
      (hloop : s'.loop = holder t (k r)) : LoopStep d h s l s'

theorem loopStep (hs : step d h l s = some s') : LoopStep d h s l s' := by
  cases step_to hs with
  | @recv msg =>
    have hidle := step_idle hs rfl
    refine .spawn (.request msg) hidle ?_ ⟨rfl, rfl⟩ rfl
    rw [traces, List.map_append]
    rfl
  | @recvLate msg =>
    have hidle := step_idle hs rfl
    refine .spawn (.request msg) hidle ?_ ⟨rfl, rfl⟩ rfl
    rw [traces, List.map_append, traces_cancel]
    rfl
  | @broadcast payload =>
    have hidle := step_idle hs rfl
    refine .spawn (.broadcast payload s.srv.subscribers) hidle ?_ ⟨rfl, rfl⟩ rfl
    rw [traces, List.map_append]
    rfl
  | sync ht hp hr =>
    refine .sync ht hp (step_sync_free hs) hr ?_ rfl
    rw [traces_advance]
    exact congrArg (List.modify · _ _) (traces_sideEffect _)
  | submit ht hp =>
    exact .submit ht hp (step_submit_free hs) (traces_modifyTask (fun _ => rfl)) ⟨rfl, rfl⟩ rfl
  | frame ht hp => exact .answered ht hp rfl (step_idle hs rfl) (traces_advance ..) ⟨rfl, rfl⟩ rfl
  | putRaises ht hp => exact .answered ht hp rfl (step_idle hs rfl) (traces_advance ..) ⟨rfl, rfl⟩ rfl
  | put => exact .still (traces_modifyTask (fun _ => rfl)) ⟨rfl, rfl⟩ rfl
  | sent ht hp => exact .answered ht hp rfl (step_idle hs rfl) (traces_advance ..) ⟨rfl, rfl⟩ rfl
  | jobDone ht hp => exact .answered ht hp rfl (step_idle hs rfl) (traces_advance ..) ⟨rfl, rfl⟩ rfl
  | awaitCancelled ht hp =>
    refine .answered ht hp rfl (step_idle hs rfl) ?_ ⟨rfl, rfl⟩ rfl
    rw [traces_advance, traces_clearCancel]
  | sendCancelled ht hp =>
    refine .answered ht hp rfl (step_idle hs rfl) ?_ ⟨rfl, rfl⟩ rfl
    rw [traces_advance, traces_clearCancel]
  | @jobCancelled t task job k j ht hp =>
    have hdrop : ((s.modifyTask t Task.clearCancel).dropQueued j).traces = s.traces := by
      rw [traces, tasks_dropQueued]
      exact traces_clearCancel
    have hsrv : ((s.modifyTask t Task.clearCancel).dropQueued j).srv = s.srv := dropQueued_srv j
    refine .answered ht hp rfl (step_idle hs rfl) ?_ ⟨congrArg _ hsrv, congrArg _ hsrv⟩ rfl
    rw [traces_advance, hdrop]
  | abort =>
    refine .still ?_ ⟨rfl, rfl⟩ rfl
    rw [traces_modifyTask, traces_clearCancel]
    exact fun _ => rfl
  | jobStart => exact .still rfl ⟨rfl, rfl⟩ rfl
  | jobRun => exact .still rfl ⟨rfl, rfl⟩ rfl
  | stop => exact .still (traces_cancel s.tasks) ⟨rfl, rfl⟩ rfl
  | shutdown => exact .still rfl ⟨rfl, rfl⟩ rfl
  | close => exact .still rfl ⟨rfl, rfl⟩ rfl

end Sys

end VsRemote
