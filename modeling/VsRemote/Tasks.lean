import VsRemote.Lib.Lookup
import VsRemote.Server

/-! What one step of the server does to one task, and from it that every task
runs the handler it was created with. -/

namespace VsRemote

open Coro (Follows)

namespace Task

@[simp] theorem cancel_prog (task : Task) : task.cancel.prog = task.prog := by
  unfold cancel; split <;> rfl

@[simp] theorem cancel_msg (task : Task) : task.cancel.msg = task.msg := by
  unfold cancel; split <;> rfl

@[simp] theorem cancel_phase (task : Task) : task.cancel.phase = task.phase := by
  unfold cancel; split <;> rfl

@[simp] theorem cancel_log (task : Task) : task.cancel.log = task.log := by
  unfold cancel; split <;> rfl

variable (task : Task) (o : SrvOp) (k : o.Res → HandlerProg) (r : o.Res)

@[simp] theorem complete_msg : (task.complete o k r).msg = task.msg := rfl

@[simp] theorem complete_prog : (task.complete o k r).prog = k r := rfl

@[simp] theorem complete_phase : (task.complete o k r).phase = .ready := rfl

@[simp] theorem complete_log : (task.complete o k r).log = task.log ++ [⟨o, r⟩] := rfl

@[simp] theorem complete_wire : (task.complete o k r).wire = task.wire := rfl

@[simp] theorem complete_cancelled : (task.complete o k r).cancelled = task.cancelled := rfl

@[simp] theorem complete_cancelRequested :
    (task.complete o k r).cancelRequested = task.cancelRequested := rfl

def clearCancel (task : Task) : Task := { task with cancelRequested := false }

def abort (task : Task) : Task := { task.clearCancel with prog := .pure (.error .cancelled) }

end Task

def freshFrame (id : Nat) : Except PyExc VideoFrame → Except Raised VideoFrame
  | .error e => .error (.exc e)
  | .ok f => .ok { f with id := id }

inductive StepTo (d : Daemon) (h : Host) (s : Sys) : Label → Sys → Prop
  | recv {msg : List Bytes} (hrun : s.srv.running = true) :
      StepTo d h s (.recv msg)
        { s with tasks := s.tasks ++ [{ msg := some msg, prog := (handleRequest d msg).run }] }
  | recvLate {msg : List Bytes} (hstop : s.stopping = true) (hshut : s.shutDown = false) :
      StepTo d h s (.recv msg) { s with
        tasks := s.tasks.map Task.cancel ++ [{ msg := some msg, prog := (handleRequest d msg).run }]
        aborted := true }
  | broadcast {payload : Bytes} (hrun : s.srv.running = true) :
      StepTo d h s (.broadcast payload)
        { s with tasks := s.tasks ++ [{ msg := none, prog := (sendAll payload s.srv.subscribers).run }] }
  | sync {t : Nat} {c : Choice} {task : Task} {o : SrvOp} {k : o.Res → HandlerProg} {r : o.Res}
      {srv : ServerState} (ht : s.tasks[t]? = some task) (hp : task.prog = .call o k)
      (hr : respond d h t o c s.srv = some (r, srv)) :
      StepTo d h s (.sync t c) (Sys.advance { s.sideEffect o with srv := srv } t o k r)
  | submit {t : Nat} {task : Task} {job : Job} {k : SrvOp.Res (.runInExecutor job) → HandlerProg}
      (ht : s.tasks[t]? = some task) (hp : task.prog = .call (.runInExecutor job) k)
      (hph : task.phase = .ready) :
      StepTo d h s (.submit t)
        { s.modifyTask t (fun task => { task with phase := .onJob s.jobs.length }) with
          jobs := s.jobs ++ [⟨job, t, .queued⟩]
          loop := none }
  | frame {t : Nat} {task : Task} {clip : VideoNode} {n : Int} {r : Except PyExc VideoFrame}
      {k : SrvOp.Res (.awaitFrame clip n) → HandlerProg} (ht : s.tasks[t]? = some task)
      (hp : task.prog = .call (.awaitFrame clip n) k) (hc : task.cancelRequested = false) :
      StepTo d h s (.frame t r)
        (Sys.advance { s with nextFrame := s.nextFrame + if r.toOption.isSome then 1 else 0 } t
          (.awaitFrame clip n) k (freshFrame s.nextFrame r))
  | putRaises {t : Nat} {task : Task} {origin : SendOrigin} {parts : List Bytes} {e : PyExc}
      {k : SrvOp.Res (.send origin parts) → HandlerProg} (ht : s.tasks[t]? = some task)
      (hp : task.prog = .call (.send origin parts) k) (hph : task.phase = .ready)
      (hc : task.cancelRequested = false) :
      StepTo d h s (.put t (some e)) (s.advance t (.send origin parts) k (.error (.exc e)))
  | put {t : Nat} {task : Task} {origin : SendOrigin} {parts : List Bytes}
      {k : SrvOp.Res (.send origin parts) → HandlerProg} (ht : s.tasks[t]? = some task)
      (hp : task.prog = .call (.send origin parts) k) (hph : task.phase = .ready)
      (hc : task.cancelRequested = false) :
      StepTo d h s (.put t none) (s.modifyTask t (fun task => task.put origin parts))
  | sent {t : Nat} {task : Task} {origin : SendOrigin} {parts : List Bytes}
      {k : SrvOp.Res (.send origin parts) → HandlerProg} (ht : s.tasks[t]? = some task)
      (hp : task.prog = .call (.send origin parts) k) (hph : task.phase = .sent)
      (hc : task.cancelRequested = false) :
      StepTo d h s (.resume t) (s.advance t (.send origin parts) k (.ok ()))
  | jobDone {t : Nat} {task : Task} {job : Job} {k : SrvOp.Res (.runInExecutor job) → HandlerProg}
      {j : Nat} {pj : PoolJob} {outcome : JobOutcome} {r : Except Raised job.Res}
      (ht : s.tasks[t]? = some task) (hp : task.prog = .call (.runInExecutor job) k)
      (hph : task.phase = .onJob j) (hc : task.cancelRequested = false) (hj : s.jobs[j]? = some pj)
      (hd : pj.status = .done outcome) (hr : outcome.result job = some r) :
      StepTo d h s (.resume t) (s.advance t (.runInExecutor job) k r)
  | awaitCancelled {t : Nat} {task : Task} {clip : VideoNode} {n : Int}
      {k : SrvOp.Res (.awaitFrame clip n) → HandlerProg} (ht : s.tasks[t]? = some task)
      (hp : task.prog = .call (.awaitFrame clip n) k) (hc : task.cancelRequested = true) :
      StepTo d h s (.cancelled t)
        ((s.modifyTask t Task.clearCancel).advance t (.awaitFrame clip n) k (.error .cancelled))
  | sendCancelled {t : Nat} {task : Task} {origin : SendOrigin} {parts : List Bytes}
      {k : SrvOp.Res (.send origin parts) → HandlerProg} (ht : s.tasks[t]? = some task)
      (hp : task.prog = .call (.send origin parts) k) (hc : task.cancelRequested = true) :
      StepTo d h s (.cancelled t)
        ((s.modifyTask t Task.clearCancel).advance t (.send origin parts) k (.error .cancelled))
  | jobCancelled {t : Nat} {task : Task} {job : Job} {k : SrvOp.Res (.runInExecutor job) → HandlerProg}
      {j : Nat} (ht : s.tasks[t]? = some task) (hp : task.prog = .call (.runInExecutor job) k)
      (hph : task.phase = .onJob j) (hc : task.cancelRequested = true) :
      StepTo d h s (.cancelled t)
        (((s.modifyTask t Task.clearCancel).dropQueued j).advance t (.runInExecutor job) k
          (.error .cancelled))
  | abort {t : Nat} {task : Task} {o : SrvOp} {k : o.Res → HandlerProg}
      (ht : s.tasks[t]? = some task) (hp : task.prog = .call o k) (hph : task.phase = .ready)
      (hl : task.log = []) (hc : task.cancelRequested = true) :
      StepTo d h s (.cancelled t) ((s.modifyTask t Task.clearCancel).modifyTask t
        (fun task => { task with prog := .pure (.error .cancelled) }))
  | jobStart {j : Nat} {pj : PoolJob} (hj : s.jobs[j]? = some pj) (hq : pj.status = .queued) :
      StepTo d h s (.jobStart j) (s.setStatus j .running)
  | jobRun {j : Nat} {w : JobWorld} {pj : PoolJob} {outcome : JobOutcome} {runner : RunnerState}
      (hj : s.jobs[j]? = some pj) (hr : pj.status = .running)
      (ho : pj.job.run h w s.srv.runner = some (outcome, runner)) :
      StepTo d h s (.jobRun j w) { s.setStatus j (.done outcome) with
        srv := { s.srv with runner := runner }
        loads := s.loads ++ Sys.record j s.srv.runner.runner pj.job w outcome runner }
  | stop : StepTo d h s .stop { s with
      stopping := true
      srv := { s.srv with running := false, subscribers := [] }
      tasks := s.tasks.map Task.cancel }
  | shutdown (hstop : s.stopping = true) (hfin : s.tasks.all Task.finished = true) :
      StepTo d h s .shutdown { s with
        shutDown := true
        srv := { s.srv with socketOpen := false }
        jobs := s.jobs.map (fun pj => match pj.status with
          | .queued => { pj with status := .dropped }
          | _ => pj) }
  | close {w : TeardownWorld} {isRegistered : Bool} :
      StepTo d h s (.close w isRegistered) { s with
        closed := true
        srv := { s.srv with runner := ((ScriptRunner.close w isRegistered).exec s.srv.runner).2 } }

inductive TaskStep (d : Daemon) (h : Host) (s : Sys) (t : Nat) : Label → Task → Task → Prop
  | stay {l : Label} (task : Task) : TaskStep d h s t l task task
  | cancel {l : Label} (task : Task) : TaskStep d h s t l task task.cancel
  | sync {task task' : Task} {c : Choice} {o : SrvOp} {k : o.Res → HandlerProg} {r : o.Res}
      {srv : ServerState} (hp : task.prog = .call o k) (hr : respond d h t o c s.srv = some (r, srv))
      (hc : task' = task ∨ task' = task.cancel ∧ ∃ key, o = .inflightCancel key) :
      TaskStep d h s t (.sync t c) task (task'.complete o k r)
  | submit {task : Task} {job : Job} {k : SrvOp.Res (.runInExecutor job) → HandlerProg}
      (hp : task.prog = .call (.runInExecutor job) k) (hph : task.phase = .ready) :
      TaskStep d h s t (.submit t) task { task with phase := .onJob s.jobs.length }
  | frame {task : Task} {clip : VideoNode} {n : Int}
      {k : SrvOp.Res (.awaitFrame clip n) → HandlerProg} {r : Except PyExc VideoFrame}
      (hp : task.prog = .call (.awaitFrame clip n) k) (hc : task.cancelRequested = false) :
      TaskStep d h s t (.frame t r) task
        (task.complete (.awaitFrame clip n) k (freshFrame s.nextFrame r))
  | put {task : Task} {origin : SendOrigin} {parts : List Bytes}
      {k : SrvOp.Res (.send origin parts) → HandlerProg}
      (hp : task.prog = .call (.send origin parts) k) (hph : task.phase = .ready)
      (hc : task.cancelRequested = false) :
      TaskStep d h s t (.put t none) task (task.put origin parts)
  | putRaises {task : Task} {origin : SendOrigin} {parts : List Bytes}
      {k : SrvOp.Res (.send origin parts) → HandlerProg} {e : PyExc}
      (hp : task.prog = .call (.send origin parts) k) (hph : task.phase = .ready)
      (hc : task.cancelRequested = false) :
      TaskStep d h s t (.put t (some e)) task (task.complete (.send origin parts) k (.error (.exc e)))
  | sent {task : Task} {origin : SendOrigin} {parts : List Bytes}
      {k : SrvOp.Res (.send origin parts) → HandlerProg}
      (hp : task.prog = .call (.send origin parts) k) (hph : task.phase = .sent)
      (hc : task.cancelRequested = false) :
      TaskStep d h s t (.resume t) task (task.complete (.send origin parts) k (.ok ()))
  | jobDone {task : Task} {job : Job} {k : SrvOp.Res (.runInExecutor job) → HandlerProg} {j : Nat}
      {pj : PoolJob} {outcome : JobOutcome} {r : Except Raised job.Res}
      (hp : task.prog = .call (.runInExecutor job) k) (hph : task.phase = .onJob j)
      (hc : task.cancelRequested = false) (hj : s.jobs[j]? = some pj)
      (hs : pj.status = .done outcome) (hr : outcome.result job = some r) :
      TaskStep d h s t (.resume t) task (task.complete (.runInExecutor job) k r)
  | awaitCancelled {task : Task} {clip : VideoNode} {n : Int}
      {k : SrvOp.Res (.awaitFrame clip n) → HandlerProg}
      (hp : task.prog = .call (.awaitFrame clip n) k) (hc : task.cancelRequested = true) :
      TaskStep d h s t (.cancelled t) task
        (task.clearCancel.complete (.awaitFrame clip n) k (.error .cancelled))
  | sendCancelled {task : Task} {origin : SendOrigin} {parts : List Bytes}
      {k : SrvOp.Res (.send origin parts) → HandlerProg}
      (hp : task.prog = .call (.send origin parts) k) (hc : task.cancelRequested = true) :
      TaskStep d h s t (.cancelled t) task
        (task.clearCancel.complete (.send origin parts) k (.error .cancelled))
  | jobCancelled {task : Task} {job : Job} {k : SrvOp.Res (.runInExecutor job) → HandlerProg} {j : Nat}
      (hp : task.prog = .call (.runInExecutor job) k) (hph : task.phase = .onJob j)
      (hc : task.cancelRequested = true) :
      TaskStep d h s t (.cancelled t) task
        (task.clearCancel.complete (.runInExecutor job) k (.error .cancelled))
  | abort {task : Task} {o : SrvOp} {k : o.Res → HandlerProg} (hp : task.prog = .call o k)
      (hph : task.phase = .ready) (hl : task.log = []) (hc : task.cancelRequested = true) :
      TaskStep d h s t (.cancelled t) task task.abort

inductive Fresh (d : Daemon) : Task → Prop
  | request (msg : List Bytes) : Fresh d { msg := some msg, prog := (handleRequest d msg).run }
  | broadcast (payload : Bytes) (subscribers : List Bytes) :
      Fresh d { msg := none, prog := (sendAll payload subscribers).run }

namespace Sys

variable {d : Daemon} {h : Host} {s s' : Sys} {l : Label} {t i : Nat}

@[simp] theorem tasks_modifyTask (f : Task → Task) :
    (s.modifyTask t f).tasks = s.tasks.modify t f := rfl

@[simp] theorem tasks_setStatus (j : Nat) (st : JobStatus) : (s.setStatus j st).tasks = s.tasks := rfl

@[simp] theorem tasks_dropQueued (j : Nat) : (s.dropQueued j).tasks = s.tasks := by
  unfold dropQueued; split <;> rfl

@[simp] theorem tasks_advance (o : SrvOp) (k : o.Res → HandlerProg) (r : o.Res) :
    (s.advance t o k r).tasks = s.tasks.modify t (fun task => task.complete o k r) := rfl

theorem step_to (hs : step d h l s = some s') : StepTo d h s l s' := by
  cases l with
  | recv msg =>
    simp only [step, stepRecv, accept, cancelGathered, List.take_length, List.drop_length, List.append_nil] at hs
    split at hs
    · next hc => exact Option.some.inj hs ▸ .recv hc.2
    · split at hs
      · next hc => exact Option.some.inj hs ▸ .recvLate hc.2.1 hc.2.2.2.1
      · cases hs
  | broadcast payload =>
    simp only [step, stepBroadcast] at hs
    split at hs
    · next hc => exact Option.some.inj hs ▸ .broadcast hc.2.1
    · cases hs
  | sync t c =>
    simp only [step, stepSync, Option.bind_eq_bind, Option.bind_eq_some_iff] at hs
    obtain ⟨task, ht, hs⟩ := hs
    split at hs
    · cases hs
    · next o k hp =>
      split at hs
      · obtain ⟨⟨r, srv⟩, hr, hs⟩ := Option.bind_eq_some_iff.1 hs
        exact Option.some.inj hs ▸ .sync ht hp hr
      · cases hs
  | submit t =>
    simp only [step, stepSubmit, Option.bind_eq_bind, Option.bind_eq_some_iff] at hs
    obtain ⟨task, ht, hs⟩ := hs
    split at hs
    · next job k hp hph =>
      split at hs
      · exact Option.some.inj hs ▸ .submit ht hp hph
      · cases hs
    · cases hs
  | frame t r =>
    simp only [step, stepFrame, Option.bind_eq_bind, Option.bind_eq_some_iff] at hs
    obtain ⟨task, ht, hs⟩ := hs
    split at hs
    · next clip n k hp =>
      split at hs
      · next hc =>
        cases r with
        | error e => exact Option.some.inj hs ▸ .frame ht hp hc.2
        | ok f => exact Option.some.inj hs ▸ .frame ht hp hc.2
      · cases hs
    · cases hs
  | put t raises =>
    simp only [step, stepPut, Option.bind_eq_bind, Option.bind_eq_some_iff] at hs
    obtain ⟨task, ht, hs⟩ := hs
    split at hs
    · next origin parts k hp hph =>
      split at hs
      · next hc =>
        cases raises with
        | none => exact Option.some.inj hs ▸ .put ht hp hph hc.2
        | some e => exact Option.some.inj hs ▸ .putRaises ht hp hph hc.2
      · cases hs
    · cases hs
  | resume t =>
    simp only [step, stepResume, Option.bind_eq_bind, Option.bind_eq_some_iff] at hs
    obtain ⟨task, ht, hs⟩ := hs
    split at hs
    · next hc =>
      split at hs
      · next origin parts k hp hph => exact Option.some.inj hs ▸ .sent ht hp hph hc.2
      · next job k j hp hph =>
        split at hs
        · next job' owner outcome hj =>
          obtain ⟨r, hr, hs⟩ := Option.bind_eq_some_iff.1 hs
          exact Option.some.inj hs ▸ .jobDone ht hp hph hc.2 hj rfl hr
        · cases hs
      · cases hs
    · cases hs
  | cancelled t =>
    simp only [step, stepCancelled, Option.bind_eq_bind, Option.bind_eq_some_iff] at hs
    obtain ⟨task, ht, hs⟩ := hs
    split at hs
    · next hc =>
      split at hs
      · next clip n k hp => exact Option.some.inj hs ▸ .awaitCancelled ht hp hc.2
      · next origin parts k hp => exact Option.some.inj hs ▸ .sendCancelled ht hp hc.2
      · next job k j hp hph => exact Option.some.inj hs ▸ .jobCancelled ht hp hph hc.2
      · rename_i hp hph
        split at hs
        · next hl => exact Option.some.inj hs ▸ .abort ht hp hph hl hc.2
        · cases hs
      · cases hs
    · cases hs
  | jobStart j =>
    simp only [step, stepJobStart, Option.bind_eq_bind, Option.bind_eq_some_iff] at hs
    obtain ⟨pj, hj, hs⟩ := hs
    split at hs
    · next hq => exact Option.some.inj hs ▸ .jobStart hj hq
    · cases hs
  | jobRun j w =>
    simp only [step, stepJobRun, Option.bind_eq_bind, Option.bind_eq_some_iff] at hs
    obtain ⟨pj, hj, hs⟩ := hs
    split at hs
    · next hr =>
      obtain ⟨⟨outcome, runner⟩, ho, hs⟩ := Option.bind_eq_some_iff.1 hs
      exact Option.some.inj hs ▸ .jobRun hj hr ho
    · cases hs
  | stop =>
    simp only [step, stepStop] at hs
    split at hs
    · exact Option.some.inj hs ▸ .stop
    · cases hs
  | shutdown =>
    simp only [step, stepShutdown] at hs
    split at hs
    · next hc => exact Option.some.inj hs ▸ .shutdown hc.1 hc.2.2.2
    · cases hs
  | close w isRegistered =>
    simp only [step, stepClose] at hs
    split at hs
    · exact Option.some.inj hs ▸ .close
    · cases hs

theorem sideEffect_task {o : SrvOp} {task' : Task} (hi : (s.sideEffect o).tasks[i]? = some task') :
    ∃ task, s.tasks[i]? = some task ∧
      (task' = task ∨ task' = task.cancel ∧ ∃ key, o = .inflightCancel key) := by
  unfold sideEffect at hi
  split at hi
  · next key =>
    unfold cancelTask at hi
    split at hi
    · split at hi
      · obtain ⟨task, ht, ⟨-, rfl⟩ | ⟨-, rfl⟩⟩ := Lookup.of_modify hi
        · exact ⟨task, ht, .inr ⟨rfl, key, rfl⟩⟩
        · exact ⟨_, ht, .inl rfl⟩
      · exact ⟨_, hi, .inl rfl⟩
    · exact ⟨_, hi, .inl rfl⟩
  · exact ⟨_, hi, .inl rfl⟩
  · split at hi <;> exact ⟨_, hi, .inl rfl⟩
  · exact ⟨_, hi, .inl rfl⟩

/-- The step may add a task: the server runs, or the step receives a message and
`stop()` has not closed the socket yet. -/
def Admits (s : Sys) (l : Label) : Prop :=
  s.srv.running = true ∨ (∃ msg, l = .recv msg) ∧ s.stopping = true ∧ s.shutDown = false

/-- Either the task was there and took a step, or it is new and was admitted. -/
def TaskTrans (d : Daemon) (h : Host) (s : Sys) (l : Label) (i : Nat) (task' : Task) : Prop :=
  (∃ task, s.tasks[i]? = some task ∧ TaskStep d h s i l task task') ∨
    (i = s.tasks.length ∧ s.Admits l ∧ Fresh d task')

theorem trans_of_eq {task' : Task} (hi : s.tasks[i]? = some task') : TaskTrans d h s l i task' :=
  .inl ⟨task', hi, .stay task'⟩

theorem trans_of_modify {f : Task → Task} {task task' : Task} (ht : s.tasks[t]? = some task)
    (hf : TaskStep d h s t l task (f task)) (hi : (s.tasks.modify t f)[i]? = some task') :
    TaskTrans d h s l i task' := by
  obtain ⟨task₀, h₀, ⟨rfl, rfl⟩ | ⟨-, rfl⟩⟩ := Lookup.of_modify hi
  · rw [ht] at h₀
    obtain rfl := Option.some.inj h₀
    exact .inl ⟨task, ht, hf⟩
  · exact trans_of_eq h₀

theorem trans_of_modify_modify {f g : Task → Task} {task task' : Task} (ht : s.tasks[t]? = some task)
    (hf : TaskStep d h s t l task (g (f task)))
    (hi : ((s.tasks.modify t f).modify t g)[i]? = some task') : TaskTrans d h s l i task' := by
  rw [List.modify_modify_eq] at hi
  exact trans_of_modify ht hf hi

theorem trans_of_cancel {task' : Task} (hi : (s.tasks.map Task.cancel)[i]? = some task') :
    TaskTrans d h s l i task' := by
  simp only [List.getElem?_map, Option.map_eq_some_iff] at hi
  obtain ⟨task, ht, rfl⟩ := hi
  exact .inl ⟨task, ht, .cancel task⟩

theorem step_trans {task' : Task} (hs : step d h l s = some s') (hi : s'.tasks[i]? = some task') :
    TaskTrans d h s l i task' := by
  cases step_to hs with
  | recv hrun =>
    rcases Lookup.of_append hi with hi | ⟨rfl, rfl⟩
    · exact trans_of_eq hi
    · exact .inr ⟨rfl, .inl hrun, .request _⟩
  | recvLate hstop hshut =>
    rcases Lookup.of_append hi with hi | ⟨heq, rfl⟩
    · exact trans_of_cancel hi
    · exact .inr ⟨heq.trans (List.length_map ..), .inr ⟨⟨_, rfl⟩, hstop, hshut⟩, .request _⟩
  | broadcast hrun =>
    rcases Lookup.of_append hi with hi | ⟨rfl, rfl⟩
    · exact trans_of_eq hi
    · exact .inr ⟨rfl, .inl hrun, .broadcast _ _⟩
  | sync ht hp hr =>
    obtain ⟨task₁, h₁, ⟨rfl, rfl⟩ | ⟨-, rfl⟩⟩ := Lookup.of_modify hi
    · obtain ⟨task₀, h₀, hc⟩ := sideEffect_task h₁
      rw [ht] at h₀
      obtain rfl := Option.some.inj h₀
      exact .inl ⟨_, ht, .sync hp hr hc⟩
    · obtain ⟨task₀, h₀, rfl | ⟨rfl, -⟩⟩ := sideEffect_task h₁
      · exact trans_of_eq h₀
      · exact .inl ⟨task₀, h₀, .cancel task₀⟩
  | submit ht hp hph => exact trans_of_modify ht (.submit hp hph) hi
  | frame ht hp hc => exact trans_of_modify ht (.frame hp hc) hi
  | putRaises ht hp hph hc => exact trans_of_modify ht (.putRaises hp hph hc) hi
  | put ht hp hph hc => exact trans_of_modify ht (.put hp hph hc) hi
  | sent ht hp hph hc => exact trans_of_modify ht (.sent hp hph hc) hi
  | jobDone ht hp hph hc hj hd hr => exact trans_of_modify ht (.jobDone hp hph hc hj hd hr) hi
  | awaitCancelled ht hp hc => exact trans_of_modify_modify ht (.awaitCancelled hp hc) hi
  | sendCancelled ht hp hc => exact trans_of_modify_modify ht (.sendCancelled hp hc) hi
  | @jobCancelled t task job k j ht hp hph hc =>
    replace hi : (((s.modifyTask t Task.clearCancel).dropQueued j).tasks.modify t
        (fun task => task.complete (.runInExecutor job) k (.error .cancelled)))[i]? = some task' := hi
    rw [tasks_dropQueued] at hi
    exact trans_of_modify_modify ht (.jobCancelled hp hph hc) hi
  | abort ht hp hph hl hc => exact trans_of_modify_modify ht (.abort hp hph hl hc) hi
  | jobStart => exact trans_of_eq hi
  | jobRun => exact trans_of_eq hi
  | stop => exact trans_of_cancel hi
  | shutdown => exact trans_of_eq hi
  | close => exact trans_of_eq hi

/-- The task of a message comes after the others. -/
theorem step_recv {msg : List Bytes} (hs : step d h (.recv msg) s = some s') :
    s'.tasks[s.tasks.length]? = some { msg := some msg, prog := (handleRequest d msg).run } := by
  cases step_to hs with
  | recv => exact List.getElem?_concat_length
  | recvLate =>
    have hlast := List.getElem?_concat_length (l := s.tasks.map Task.cancel)
      (a := ({ msg := some msg, prog := (handleRequest d msg).run } : Task))
    rwa [List.length_map] at hlast

end Sys

/-- The task has done what `start` does, or was cancelled before its first step. -/
def Task.Runs (start : HandlerProg) (task : Task) : Prop :=
  Follows start task.log task.prog ∨ (task.log = [] ∧ task.prog = .pure (.error .cancelled))

def Task.Handles (d : Daemon) (task : Task) : Prop :=
  match task.msg with
  | some msg => task.Runs (handleRequest d msg).run
  | none => ∃ payload subscribers, task.Runs (sendAll payload subscribers).run

theorem Task.Runs.step {d : Daemon} {h : Host} {s : Sys} {t : Nat} {l : Label} {task task' : Task}
    {start : HandlerProg} (hr : task.Runs start) (hs : TaskStep d h s t l task task') :
    task'.Runs start := by
  have follow : ∀ {o : SrvOp} {k : o.Res → HandlerProg} (r : o.Res) (task₁ : Task),
      task.prog = .call o k → task₁.log = task.log → (task₁.complete o k r).Runs start := by
    intro o k r task₁ hp hlog
    rcases hr with hf | ⟨-, hp'⟩
    · rw [hp] at hf
      exact .inl (by simpa only [complete_log, complete_prog, hlog] using hf.snoc r)
    · rw [hp'] at hp
      cases hp
  cases hs with
  | stay => exact hr
  | cancel => simpa only [Task.Runs, cancel_log, cancel_prog] using hr
  | sync hp _ hc =>
    rcases hc with rfl | ⟨rfl, -⟩
    · exact follow _ _ hp rfl
    · exact follow _ _ hp (cancel_log _)
  | submit => exact hr
  | put => exact hr
  | frame hp => exact follow _ _ hp rfl
  | putRaises hp => exact follow _ _ hp rfl
  | sent hp => exact follow _ _ hp rfl
  | jobDone hp => exact follow _ _ hp rfl
  | awaitCancelled hp => exact follow _ _ hp rfl
  | sendCancelled hp => exact follow _ _ hp rfl
  | jobCancelled hp => exact follow _ _ hp rfl
  | abort _ _ hl => exact .inr ⟨hl, rfl⟩

theorem TaskStep.msg_eq {d : Daemon} {h : Host} {s : Sys} {t : Nat} {l : Label} {task task' : Task}
    (hs : TaskStep d h s t l task task') : task'.msg = task.msg := by
  cases hs with
  | cancel => exact Task.cancel_msg _
  | sync _ _ hc => rcases hc with rfl | ⟨rfl, -⟩ <;> simp
  | _ => rfl

theorem Task.Handles.step {d : Daemon} {h : Host} {s : Sys} {t : Nat} {l : Label} {task task' : Task}
    (hh : task.Handles d) (hs : TaskStep d h s t l task task') : task'.Handles d := by
  unfold Handles at hh ⊢
  rw [hs.msg_eq]
  split at hh
  · exact hh.step hs
  · obtain ⟨payload, subscribers, hr⟩ := hh
    exact ⟨payload, subscribers, hr.step hs⟩

theorem Fresh.handles {d : Daemon} {task : Task} (hf : Fresh d task) : task.Handles d := by
  cases hf with
  | request msg => exact .inl (.nil _)
  | broadcast payload subscribers => exact ⟨payload, subscribers, .inl (.nil _)⟩

namespace Sys

/-- Every task of the server runs the handler it was created with. -/
def Handled (d : Daemon) (s : Sys) : Prop :=
  ∀ (i : Nat) (task : Task), s.tasks[i]? = some task → task.Handles d

theorem Handled.step {d : Daemon} {h : Host} {s s' : Sys} {l : Label} (hs : s.Handled d)
    (hst : step d h l s = some s') : s'.Handled d := by
  intro i task' hi
  rcases step_trans hst hi with ⟨task, ht, hstep⟩ | ⟨-, -, hf⟩
  · exact (hs i task ht).step hstep
  · exact hf.handles

theorem Handled.run {d : Daemon} {h : Host} {s s' : Sys} {ls : List Label} (hs : s.Handled d)
    (hr : Runs.run (Sys.step d h) ls s = some s') : s'.Handled d :=
  Runs.run_inv (fun _ _ _ hi hst => hi.step hst) hs hr

end Sys

end VsRemote
