import VsRemote.Lib.Quiesce
import VsRemote.LoopSteps
import VsRemote.PoolJobs

/-! The server comes to rest: without new messages and broadcasts its work ends, and it
ends with every handler, not before. -/

namespace VsRemote

open Relation (CutExpand)

/-- Work comes in. -/
def Label.arrives : Label → Bool
  | .recv _ => true
  | .broadcast _ => true
  | _ => false

/-- What is left of a task: its handler, and whether it has yet to hand over what it waits for. -/
def Task.left (task : Task) : HandlerProg × Nat := (task.prog, if task.phase = .ready then 1 else 0)

def JobStatus.left : JobStatus → Nat
  | .queued => 2
  | .running => 1
  | _ => 0

abbrev LessTask : HandlerProg × Nat → HandlerProg × Nat → Prop := Prod.Lex Coro.Less (· < ·)

namespace Sys

/-- The stages of `stop()` that are to come. -/
def stagesLeft (s : Sys) : Nat :=
  (if s.stopping then 0 else 1) + (if s.shutDown then 0 else 1) + (if s.closed then 0 else 1)

def left (s : Sys) : Multiset (HandlerProg × Nat) × Nat × Multiset Nat :=
  (s.tasks.map Task.left, s.stagesLeft, s.jobs.map (fun pj => pj.status.left))

abbrev Less : Multiset (HandlerProg × Nat) × Nat × Multiset Nat → Multiset (HandlerProg × Nat) × Nat × Multiset Nat → Prop :=
  Prod.Lex (CutExpand LessTask) (Prod.Lex (· < ·) (CutExpand (· < ·)))

theorem wellFounded_less : WellFounded Less := by
  have htask : WellFounded LessTask := Coro.wellFounded_less.prod_lex Nat.lt_wfRel.wf
  have hjobs : WellFounded (CutExpand ((· < ·) : Nat → Nat → Prop)) := WellFounded.cutExpand Nat.lt_wfRel.wf
  exact htask.cutExpand.prod_lex (Nat.lt_wfRel.wf.prod_lex hjobs)

section

variable {d : Daemon} {h : Host} {s s' s₁ : Sys} {l : Label} {t : Nat} {task : Task}

theorem map_left_sideEffect (o : SrvOp) : (s.sideEffect o).tasks.map Task.left = s.tasks.map Task.left := by
  have hcancel : ∀ task : Task, task.cancel.left = task.left := by
    intro task
    rw [Task.left, Task.left, Task.cancel_prog, Task.cancel_phase]
  unfold sideEffect
  split
  · unfold cancelTask
    split
    · split
      · exact Lookup.map_modify_of_eq hcancel
      · rfl
    · rfl
  · rfl
  · split <;> rfl
  · rfl

/-- One task is lowered and the others keep what is left of them. -/
theorem less_of_task {f' : HandlerProg × Nat → HandlerProg × Nat} (ht : s.tasks[t]? = some task)
    (htasks : s'.tasks.map Task.left = (s.tasks.map Task.left).modify t f') (hless : LessTask (f' task.left) task.left) :
    Less s'.left s.left := by
  have hlookup : (s.tasks.map Task.left)[t]? = some task.left := by
    rw [List.getElem?_map, ht]
    rfl
  apply Prod.Lex.left
  rw [htasks]
  exact Hydra.cutExpand_modify hlookup hless

theorem less_advance {o : SrvOp} {k : o.Res → HandlerProg} {r : o.Res} (ht : s.tasks[t]? = some task)
    (hp : task.prog = .call o k) (hsame : s₁.tasks.map Task.left = s.tasks.map Task.left) :
    Less (s₁.advance t o k r).left s.left := by
  have htasks : (s₁.advance t o k r).tasks.map Task.left = (s.tasks.map Task.left).modify t (fun _ => (k r, 1)) := by
    rw [tasks_advance, ← hsame]
    exact Lookup.map_modify (fun _ => rfl)
  refine less_of_task ht htasks ?_
  have hnext : Coro.Less (k r) task.prog := by
    rw [hp]
    exact Coro.Less.resumed (S := srvSig) (o := o) k r
  exact Prod.Lex.left _ _ hnext

theorem less_handedOver {f : Task → Task} (ht : s.tasks[t]? = some task) (hph : task.phase = .ready)
    (htasks : s'.tasks = s.tasks.modify t f) (hf : ∀ task, (f task).left = (task.prog, 0)) : Less s'.left s.left := by
  have hmap : s'.tasks.map Task.left = (s.tasks.map Task.left).modify t (fun x => (x.1, 0)) := by
    rw [htasks]
    exact Lookup.map_modify hf
  refine less_of_task ht hmap ?_
  have hready : 0 < if task.phase = .ready then 1 else 0 := by
    rw [if_pos hph]
    exact Nat.one_pos
  exact Prod.Lex.right _ hready

theorem map_left_clearCancel : (s.modifyTask t Task.clearCancel).tasks.map Task.left = s.tasks.map Task.left :=
  Lookup.map_modify_of_eq (fun _ => rfl)

theorem less_of_job {j : Nat} {pj : PoolJob} {status : JobStatus} (htasks : s'.tasks = s.tasks)
    (hstages : s'.stagesLeft = s.stagesLeft) (hjobs : s'.jobs = (s.setStatus j status).jobs) (hj : s.jobs[j]? = some pj)
    (hless : status.left < pj.status.left) : Less s'.left s.left := by
  have hlookup : (s.jobs.map (fun pj => pj.status.left))[j]? = some pj.status.left := by
    rw [List.getElem?_map, hj]
    rfl
  have hmap : s'.jobs.map (fun pj => pj.status.left) =
      (s.jobs.map (fun pj => pj.status.left)).modify j (fun _ => status.left) := by
    rw [hjobs]
    exact Lookup.map_modify (fun _ => rfl)
  rw [left, left, htasks, hstages, hmap]
  exact Prod.Lex.right _ (Prod.Lex.right _ (Hydra.cutExpand_modify hlookup hless))

theorem less_of_stage (htasks : s'.tasks.map Task.left = s.tasks.map Task.left) (hstages : s'.stagesLeft < s.stagesLeft) :
    Less s'.left s.left := by
  rw [left, left, htasks]
  exact Prod.Lex.right _ (Prod.Lex.left _ _ hstages)

theorem step_less (hl : l.arrives = false) (hs : step d h l s = some s') : Less s'.left s.left := by
  cases step_to hs with
  | recv => cases hl
  | recvLate => cases hl
  | broadcast => cases hl
  | @sync t c task o k r srv ht hp hr => exact less_advance ht hp (map_left_sideEffect o)
  | submit ht hp hph => exact less_handedOver ht hph rfl (fun _ => rfl)
  | frame ht hp => exact less_advance ht hp rfl
  | putRaises ht hp => exact less_advance ht hp rfl
  | put ht hp hph => exact less_handedOver ht hph rfl (fun _ => rfl)
  | sent ht hp => exact less_advance ht hp rfl
  | jobDone ht hp => exact less_advance ht hp rfl
  | awaitCancelled ht hp => exact less_advance ht hp map_left_clearCancel
  | sendCancelled ht hp => exact less_advance ht hp map_left_clearCancel
  | @jobCancelled t task job k j ht hp =>
    refine less_advance ht hp ?_
    rw [tasks_dropQueued]
    exact map_left_clearCancel
  | @abort t task o k ht hp =>
    have htasks : ((s.modifyTask t Task.clearCancel).modifyTask t
        (fun task => { task with prog := .pure (.error .cancelled) })).tasks.map Task.left =
          ((s.modifyTask t Task.clearCancel).tasks.map Task.left).modify t (fun x => (.pure (.error .cancelled), x.2)) :=
      Lookup.map_modify (fun _ => rfl)
    rw [map_left_clearCancel] at htasks
    refine less_of_task ht htasks ?_
    have hended : Coro.Less (.pure (.error .cancelled)) task.prog := by
      rw [hp]
      exact Coro.Less.ended (S := srvSig) (o := o) k _
    exact Prod.Lex.left _ _ hended
  | jobStart hj hq =>
    refine less_of_job rfl rfl rfl hj ?_
    rw [hq]
    exact Nat.one_lt_two
  | jobRun hj hr =>
    refine less_of_job rfl rfl rfl hj ?_
    rw [hr]
    exact Nat.one_pos
  | stop =>
    simp only [step, stepStop, Option.ite_none_right_eq_some] at hs
    obtain ⟨⟨-, hstop⟩, -⟩ := hs
    refine less_of_stage ?_ ?_
    · rw [List.map_map]
      refine List.map_congr_left (fun task _ => ?_)
      rw [Function.comp, Task.left, Task.left, Task.cancel_prog, Task.cancel_phase]
    · simp only [stagesLeft, hstop, if_true, Bool.false_eq_true, if_false]
      omega
  | shutdown =>
    simp only [step, stepShutdown, Option.ite_none_right_eq_some] at hs
    obtain ⟨⟨-, -, hshut, -⟩, -⟩ := hs
    refine less_of_stage rfl ?_
    simp only [stagesLeft, hshut, if_true, Bool.false_eq_true, if_false]
    omega
  | close =>
    simp only [step, stepClose, Option.ite_none_right_eq_some] at hs
    obtain ⟨⟨-, hclosed, -⟩, -⟩ := hs
    refine less_of_stage rfl ?_
    simp only [stagesLeft, hclosed, if_true, Bool.false_eq_true, if_false]
    omega

theorem wellFounded_step : WellFounded (Runs.Next (step d h) (fun l => l.arrives = false)) :=
  Runs.wellFounded_next wellFounded_less left (fun _ _ _ hl hs => step_less hl hs)

end

/-- Whoever has the thread of the loop goes on without waiting. -/
def ThreadHeld (s : Sys) : Prop :=
  ∀ t, s.loop = some t → ∃ task o k, s.tasks[t]? = some task ∧ task.phase = .ready ∧ task.prog = .call o k ∧
    o.suspends = false

/-- What is waited for can come. -/
structure Poised (s : Sys) : Prop where
  waiting : s.Waiting
  sending : ∀ (t : Nat) (task : Task), s.tasks[t]? = some task → task.phase = .sent →
    ∃ origin parts k, task.prog = .call (.send origin parts) k
  notDropped : ∀ (t j : Nat) (task : Task) (pj : PoolJob), s.tasks[t]? = some task → task.phase = .onJob j →
    s.jobs[j]? = some pj → pj.status ≠ .dropped
  fits : ∀ (j : Nat) (pj : PoolJob) (outcome : JobOutcome), s.jobs[j]? = some pj → pj.status = .done outcome →
    ∃ r, outcome.result pj.job = some r
  thread : s.ThreadHeld
  life : s.Lifecycle

section

variable {d : Daemon} {h : Host} {s s' s₁ : Sys} {l : Label} {t : Nat} {task : Task}

theorem threadHeld_of_idle (hidle : s.loop = none) : s.ThreadHeld := by
  intro t ht
  rw [hidle] at ht
  cases ht

theorem threadHeld_advance {o : SrvOp} {k : o.Res → HandlerProg} {r : o.Res} (ht : t < s₁.tasks.length) :
    (s₁.advance t o k r).ThreadHeld := by
  intro u hu
  change holder t (k r) = some u at hu
  have hlookup : (s₁.advance t o k r).tasks[t]? = some (s₁.tasks[t].complete o k r) := by
    rw [tasks_advance, List.getElem?_modify, List.getElem?_eq_getElem ht]
    simp
  cases hp : k r with
  | pure a =>
    rw [hp] at hu
    cases hu
  | call o' k' =>
    rw [hp, holder] at hu
    split at hu
    · cases hu
    · next hsuspends =>
      obtain rfl := Option.some.inj hu
      exact ⟨_, o', k', hlookup, rfl, hp, Bool.eq_false_iff.2 hsuspends⟩

theorem ThreadHeld.of_same (hi : s.ThreadHeld) (hloop : s'.loop = s.loop) (htasks : s'.tasks = s.tasks) : s'.ThreadHeld := by
  intro t ht
  rw [hloop] at ht
  rw [htasks]
  exact hi t ht

theorem ThreadHeld.step (hi : s.ThreadHeld) (hs : step d h l s = some s') : s'.ThreadHeld := by
  cases step_to hs with
  | recv | recvLate | broadcast =>
    have hidle := step_idle hs rfl
    exact threadHeld_of_idle hidle
  | @sync t c task o k r srv ht =>
    refine threadHeld_advance ?_
    change t < (s.sideEffect o).tasks.length
    rw [length_sideEffect]
    exact Lookup.lt_length ht
  | submit => exact threadHeld_of_idle rfl
  | frame ht => exact threadHeld_advance (Lookup.lt_length ht)
  | putRaises ht => exact threadHeld_advance (Lookup.lt_length ht)
  | put =>
    have hidle := step_idle hs rfl
    exact threadHeld_of_idle hidle
  | sent ht => exact threadHeld_advance (Lookup.lt_length ht)
  | jobDone ht => exact threadHeld_advance (Lookup.lt_length ht)
  | awaitCancelled ht =>
    refine threadHeld_advance ?_
    rw [tasks_modifyTask, List.length_modify]
    exact Lookup.lt_length ht
  | sendCancelled ht =>
    refine threadHeld_advance ?_
    rw [tasks_modifyTask, List.length_modify]
    exact Lookup.lt_length ht
  | jobCancelled ht =>
    refine threadHeld_advance ?_
    rw [tasks_dropQueued, tasks_modifyTask, List.length_modify]
    exact Lookup.lt_length ht
  | abort =>
    have hidle := step_idle hs rfl
    exact threadHeld_of_idle hidle
  | jobStart => exact hi.of_same rfl rfl
  | jobRun => exact hi.of_same rfl rfl
  | stop =>
    simp only [step, stepStop, Option.ite_none_right_eq_some] at hs
    exact threadHeld_of_idle hs.1.1
  | shutdown => exact hi.of_same rfl rfl
  | close => exact hi.of_same rfl rfl

theorem cancelled_phase {task' : Task} (hs : step d h (.cancelled t) s = some s') (ht : s'.tasks[t]? = some task') :
    task'.phase = .ready := by
  have hmodify : ∀ {xs : List Task} {f : Task → Task}, (∀ task, (f task).phase = .ready) →
      (xs.modify t f)[t]? = some task' → task'.phase = .ready := by
    intro xs f hf hlookup
    obtain ⟨task, -, ⟨-, rfl⟩ | ⟨hne, -⟩⟩ := Lookup.of_modify hlookup
    · exact hf task
    · exact absurd rfl hne
  cases step_to hs with
  | awaitCancelled => exact hmodify (fun _ => rfl) ht
  | sendCancelled => exact hmodify (fun _ => rfl) ht
  | jobCancelled => exact hmodify (fun _ => rfl) ht
  | @abort _ task o k ht₀ hp hph =>
    obtain ⟨task₁, ht₁, ⟨-, rfl⟩ | ⟨hne, -⟩⟩ := Lookup.of_modify ht
    · obtain ⟨task₂, ht₂, ⟨-, rfl⟩ | ⟨hne, -⟩⟩ := Lookup.of_modify ht₁
      · rw [ht₀] at ht₂
        obtain rfl := Option.some.inj ht₂
        exact hph
      · exact absurd rfl hne
    · exact absurd rfl hne

theorem job_run_result {job : Job} {w : JobWorld} {outcome : JobOutcome} {runner runner' : RunnerState}
    (hr : job.run h w runner = some (outcome, runner')) : ∃ r, outcome.result job = some r := by
  unfold Job.run at hr
  split at hr
  · obtain ⟨rfl, -⟩ := Prod.mk.inj (Option.some.inj hr)
    exact ⟨_, rfl⟩
  · obtain ⟨rfl, -⟩ := Prod.mk.inj (Option.some.inj hr)
    exact ⟨_, rfl⟩
  · obtain ⟨rfl, -⟩ := Prod.mk.inj (Option.some.inj hr)
    exact ⟨_, rfl⟩
  · obtain ⟨rfl, -⟩ := Prod.mk.inj (Option.some.inj hr)
    exact ⟨_, rfl⟩
  · cases hr

theorem Poised.step_sending (hi : s.Poised) (hs : step d h l s = some s') (ht : s'.tasks[t]? = some task)
    (hph : task.phase = .sent) : ∃ origin parts k, task.prog = .call (.send origin parts) k := by
  rcases step_trans hs ht with ⟨task₀, ht₀, hstep⟩ | ⟨-, -, hfresh⟩
  · cases hstep with
    | stay => exact hi.sending t _ ht₀ hph
    | cancel =>
      rw [Task.cancel_prog]
      exact hi.sending t task₀ ht₀ (Task.cancel_phase task₀ ▸ hph)
    | put hp => exact ⟨_, _, _, hp⟩
    | abort _ hready =>
      rw [show task₀.abort.phase = task₀.phase from rfl, hready] at hph
      cases hph
    | submit => cases hph
    | _ => cases hph
  · cases hfresh <;> cases hph

/-- A task keeps waiting for the job it waited for. -/
theorem step_onJob {j : Nat} (hs : step d h l s = some s') (ht : s'.tasks[t]? = some task) (hph : task.phase = .onJob j) :
    (∃ task₀, s.tasks[t]? = some task₀ ∧ task₀.phase = .onJob j ∧ task₀.prog = task.prog ∧ l ≠ .cancelled t) ∨
      j = s.jobs.length := by
  rcases step_trans hs ht with ⟨task₀, ht₀, hstep⟩ | ⟨-, -, hfresh⟩
  · have hother : l ≠ .cancelled t := by
      rintro rfl
      rw [cancelled_phase hs ht] at hph
      cases hph
    cases hstep with
    | stay => exact .inl ⟨task, ht₀, hph, rfl, hother⟩
    | cancel => exact .inl ⟨task₀, ht₀, Task.cancel_phase task₀ ▸ hph, (Task.cancel_prog task₀).symm, hother⟩
    | submit => exact .inr (Phase.onJob.inj hph).symm
    | abort => exact absurd rfl hother
    | _ => cases hph
  · cases hfresh <;> cases hph

theorem Poised.step_notDropped (hi : s.Poised) (hs : step d h l s = some s') {j : Nat} {pj : PoolJob}
    (ht : s'.tasks[t]? = some task) (hph : task.phase = .onJob j) (hj : s'.jobs[j]? = some pj) : pj.status ≠ .dropped := by
  rcases step_onJob hs ht hph with ⟨task₀, ht₀, hph₀, -, hother⟩ | rfl
  · rcases step_jobs hs hj with ⟨pj₀, hj₀, hstep⟩ | ⟨-, -, hqueued, -⟩
    · have hbefore := hi.notDropped t j task₀ pj₀ ht₀ hph₀ hj₀
      cases hstep with
      | stay => exact hbefore
      | @drop l pj₀ hq hby =>
        cases hby with
        | cancelled ht₁ hph₁ => exact absurd (congrArg Label.cancelled (hi.waiting.unique ht₁ hph₁ ht₀ hph₀)) hother
        | shutdown hfin =>
          obtain ⟨_, k, -, -, hp⟩ := hi.waiting t j task₀ ht₀ hph₀
          have hover := List.all_eq_true.1 hfin task₀ (List.mem_of_getElem? ht₀)
          rw [Task.finished, hp] at hover
          cases hover
      | start => exact JobStatus.noConfusion
      | run => exact JobStatus.noConfusion
    · rw [hqueued]
      exact JobStatus.noConfusion
  · rcases step_jobs hs hj with ⟨pj₀, hj₀, -⟩ | ⟨-, -, hqueued, -⟩
    · exact absurd (Lookup.lt_length hj₀) (Nat.lt_irrefl _)
    · rw [hqueued]
      exact JobStatus.noConfusion

theorem Poised.step_fits (hi : s.Poised) (hs : step d h l s = some s') {j : Nat} {pj : PoolJob} {outcome : JobOutcome}
    (hj : s'.jobs[j]? = some pj) (hdone : pj.status = .done outcome) : ∃ r, outcome.result pj.job = some r := by
  rcases step_jobs hs hj with ⟨pj₀, hj₀, hstep⟩ | ⟨-, -, hqueued, -⟩
  · cases hstep with
    | stay => exact hi.fits j pj outcome hj₀ hdone
    | drop => cases hdone
    | start => cases hdone
    | run hr ho =>
      obtain rfl := JobStatus.done.inj hdone
      exact job_run_result ho
  · rw [hqueued] at hdone
    cases hdone

theorem Poised.step (hi : s.Poised) (hs : step d h l s = some s') : s'.Poised where
  waiting := hi.waiting.step hs
  sending _ _ ht hph := hi.step_sending hs ht hph
  notDropped _ _ _ _ ht hph hj := hi.step_notDropped hs ht hph hj
  fits _ _ _ hj hdone := hi.step_fits hs hj hdone
  thread := hi.thread.step hs
  life := hi.life.step hs

theorem poised_init (runner : RunnerState) (metrics : ServerMetricsCollector) : (Sys.init runner metrics).Poised := by
  refine ⟨?_, ?_, ?_, ?_, ?_, lifecycle_init runner metrics⟩
  · exact fun _ _ _ ht => by cases ht
  · exact fun _ _ ht => by cases ht
  · exact fun _ _ _ _ ht => by cases ht
  · exact fun _ _ _ hj => by cases hj
  · exact threadHeld_of_idle rfl

/-- The host can answer every operation that does not wait. -/
theorem exists_respond {o : SrvOp} (hw : o.waits = false) (srv : ServerState) :
    ∃ c r srv', respond d h t o c srv = some (r, srv') := by
  cases o with
  | metrics => exact ⟨.time 0, _, _, rfl⟩
  | perfCounter => exact ⟨.time 0, _, _, rfl⟩
  | snapshot => exact ⟨.raises (.ofText .valueError ""), _, _, rfl⟩
  | traceback => exact ⟨.traceback ⟨[], ""⟩, _, _, rfl⟩
  | awaitFrame => cases hw
  | runInExecutor => cases hw
  | send => cases hw
  | _ => exact ⟨.ok, _, _, rfl⟩

theorem exists_run (job : Job) (runner : RunnerState) : ∃ w out, job.run h w runner = some out := by
  cases job with
  | load a => exact ⟨.load (.finds .empty), _, rfl⟩
  | teardown => exact ⟨.teardown {}, _, rfl⟩
  | extract frame compression => exact ⟨.extract none, _, rfl⟩

/-- Nothing is left to do but to take in new work or to stop. -/
def AtRest (d : Daemon) (h : Host) (s : Sys) : Prop :=
  Runs.Stuck (step d h) (fun l => l.arrives = false ∧ l ≠ .stop) s

theorem AtRest.not_sync (hr : s.AtRest d h) (ht : s.tasks[t]? = some task) (hfree : s.free t = true) {o : SrvOp}
    {k : o.Res → HandlerProg} (hp : task.prog = .call o k) : o.waits = true := by
  by_contra hw
  obtain ⟨c, r, srv, hrespond⟩ := exists_respond (d := d) (h := h) (t := t) (Bool.eq_false_iff.2 hw) s.srv
  have hnone := hr (.sync t c) ⟨rfl, Label.noConfusion⟩
  simp only [step, stepSync, ht, hp, hfree, hrespond, Option.bind_eq_bind, Option.bind_some, if_true] at hnone
  cases hnone

theorem AtRest.not_submit (hr : s.AtRest d h) (ht : s.tasks[t]? = some task) (hfree : s.free t = true) {job : Job}
    {k : SrvOp.Res (.runInExecutor job) → HandlerProg} (hp : task.prog = .call (.runInExecutor job) k) :
    task.phase ≠ .ready := by
  intro hph
  have hnone := hr (.submit t) ⟨rfl, Label.noConfusion⟩
  simp only [step, stepSubmit, ht, hp, hph, hfree, Option.bind_eq_bind, Option.bind_some, if_true] at hnone
  cases hnone

theorem AtRest.idle (hr : s.AtRest d h) (hi : s.Poised) : s.loop = none := by
  cases hloop : s.loop with
  | none => rfl
  | some t =>
    obtain ⟨task, o, k, ht, hph, hp, hsuspends⟩ := hi.thread t hloop
    have hfree : s.free t = true := by
      rw [free, decide_eq_true_eq]
      exact .inr hloop
    have hw := hr.not_sync ht hfree hp
    cases o with
    | runInExecutor job => exact absurd hph (hr.not_submit ht hfree hp)
    | awaitFrame => cases hsuspends
    | send => cases hsuspends
    | _ => cases hw

theorem AtRest.job (hr : s.AtRest d h) {j : Nat} {pj : PoolJob} (hj : s.jobs[j]? = some pj) : ¬ pj.active := by
  obtain ⟨job, owner, status⟩ := pj
  rintro (hq | hrun)
  · obtain rfl : status = .queued := hq
    have hnone := hr (.jobStart j) ⟨rfl, Label.noConfusion⟩
    simp only [step, stepJobStart, hj, Option.bind_eq_bind, Option.bind_some] at hnone
    cases hnone
  · obtain rfl : status = .running := hrun
    obtain ⟨w, out, hout⟩ := exists_run (h := h) job s.srv.runner
    have hnone := hr (.jobRun j w) ⟨rfl, Label.noConfusion⟩
    simp only [step, stepJobRun, hj, hout, Option.bind_eq_bind, Option.bind_some] at hnone
    cases hnone

theorem AtRest.not_cancelRequested (hr : s.AtRest d h) (hidle : s.loop = none) (ht : s.tasks[t]? = some task) {o : SrvOp}
    {k : o.Res → HandlerProg} (hp : task.prog = .call o k) (hw : o.waits = true) (hph : o.suspends = true ∨ ∃ j, task.phase = .onJob j) :
    task.cancelRequested = false := by
  by_contra hc
  have hc : task.cancelRequested = true := by simpa using hc
  have hnone := hr (.cancelled t) ⟨rfl, Label.noConfusion⟩
  cases o with
  | awaitFrame clip n =>
    simp only [step, stepCancelled, ht, hp, hc, hidle, Option.bind_eq_bind, Option.bind_some, and_self, if_true] at hnone
    cases hnone
  | send origin parts =>
    simp only [step, stepCancelled, ht, hp, hc, hidle, Option.bind_eq_bind, Option.bind_some, and_self, if_true] at hnone
    cases hnone
  | runInExecutor job =>
    rcases hph with hsuspends | ⟨j, hph⟩
    · cases hsuspends
    · simp only [step, stepCancelled, ht, hp, hph, hc, hidle, Option.bind_eq_bind, Option.bind_some, and_self, if_true] at hnone
      cases hnone
  | _ => cases hw

theorem AtRest.finished (hr : s.AtRest d h) (hi : s.Poised) (ht : s.tasks[t]? = some task) : task.finished = true := by
  have hidle := hr.idle hi
  have hfree : s.free t = true := by
    rw [free, decide_eq_true_eq]
    exact .inl hidle
  cases hp : task.prog with
  | pure a =>
    rw [Task.finished, hp]
  | call o k =>
    exfalso
    have hw := hr.not_sync ht hfree hp
    cases o with
    | awaitFrame clip n =>
      have hc := hr.not_cancelRequested hidle ht hp rfl (.inl rfl)
      have hnone := hr (.frame t (.error (.ofText .valueError ""))) ⟨rfl, Label.noConfusion⟩
      simp only [step, stepFrame, ht, hp, hc, hidle, Option.bind_eq_bind, Option.bind_some, and_self, if_true] at hnone
      cases hnone
    | send origin parts =>
      have hc := hr.not_cancelRequested hidle ht hp rfl (.inl rfl)
      cases hph : task.phase with
      | ready =>
        have hnone := hr (.put t none) ⟨rfl, Label.noConfusion⟩
        simp only [step, stepPut, ht, hp, hph, hc, hidle, Option.bind_eq_bind, Option.bind_some, and_self, if_true] at hnone
        cases hnone
      | sent =>
        have hnone := hr (.resume t) ⟨rfl, Label.noConfusion⟩
        simp only [step, stepResume, ht, hp, hph, hc, hidle, Option.bind_eq_bind, Option.bind_some, and_self, if_true] at hnone
        cases hnone
      | onJob j =>
        obtain ⟨_, k', -, -, hp'⟩ := hi.waiting t j task ht hph
        rw [hp] at hp'
        cases hp'
    | runInExecutor job =>
      cases hph : task.phase with
      | ready => exact hr.not_submit ht hfree hp hph
      | sent =>
        obtain ⟨origin, parts, k', hp'⟩ := hi.sending t task ht hph
        rw [hp] at hp'
        cases hp'
      | onJob j =>
        have hc := hr.not_cancelRequested hidle ht hp rfl (.inr ⟨j, hph⟩)
        obtain ⟨⟨job', owner, status⟩, k', hj, -, hp'⟩ := hi.waiting t j task ht hph
        obtain rfl : job = job' := by
          rw [hp] at hp'
          cases hp'
          rfl
        cases status with
        | queued => exact hr.job hj (.inl rfl)
        | running => exact hr.job hj (.inr rfl)
        | dropped => exact hi.notDropped t j task _ ht hph hj rfl
        | done outcome =>
          obtain ⟨r, hresult⟩ := hi.fits j _ outcome hj rfl
          have hnone := hr (.resume t) ⟨rfl, Label.noConfusion⟩
          simp only [step, stepResume, ht, hp, hph, hc, hidle, hj, hresult, Option.bind_eq_bind, Option.bind_some, and_self,
            if_true] at hnone
          cases hnone
    | _ => cases hw

theorem AtRest.stopped (hr : s.AtRest d h) (hi : s.Poised) (hstop : s.stopping = true) :
    s.aborted = true ∨ s.shutDown = true := by
  have hfinished : s.tasks.all Task.finished = true := by
    refine List.all_eq_true.2 (fun task hmem => ?_)
    obtain ⟨t, ht⟩ := List.mem_iff_getElem?.1 hmem
    exact hr.finished hi ht
  cases haborted : s.aborted with
  | true => exact .inl rfl
  | false =>
    cases hshut : s.shutDown with
    | true => exact .inr rfl
    | false =>
      have hnone := hr .shutdown ⟨rfl, Label.noConfusion⟩
      simp only [step, stepShutdown, hstop, haborted, hshut, hfinished, and_self, if_true] at hnone
      cases hnone

theorem AtRest.closed (hr : s.AtRest d h) (hshut : s.shutDown = true) : s.closed = true := by
  have hjobs : s.jobs.all (fun pj => ! jobRunning pj) = true := by
    refine List.all_eq_true.2 (fun pj hmem => ?_)
    obtain ⟨j, hj⟩ := List.mem_iff_getElem?.1 hmem
    have hno := hr.job hj
    unfold jobRunning
    split
    · next hrun => exact absurd (.inr hrun) hno
    · rfl
  by_contra hopen
  have hopen : s.closed = false := by simpa using hopen
  have hnone := hr (.close {} false) ⟨rfl, Label.noConfusion⟩
  simp only [step, stepClose, hshut, hopen, hjobs, and_self, if_true] at hnone
  cases hnone

/-- Every handler has ended and no job is under way. A server that was stopped has
shut down and closed its runner, unless a message that came while `stop()` waited has
aborted it. -/
structure Settled (s : Sys) : Prop where
  tasks : ∀ task ∈ s.tasks, task.finished = true
  jobs : ∀ pj ∈ s.jobs, ¬ pj.active
  stopped : s.stopping = true → s.aborted = true ∨ s.shutDown = true
  closed : s.shutDown = true → s.closed = true

theorem AtRest.settled (hr : s.AtRest d h) (hi : s.Poised) : s.Settled := by
  refine ⟨fun task hmem => ?_, fun pj hmem => ?_, hr.stopped hi, hr.closed⟩
  · obtain ⟨t, ht⟩ := List.mem_iff_getElem?.1 hmem
    exact hr.finished hi ht
  · obtain ⟨j, hj⟩ := List.mem_iff_getElem?.1 hmem
    exact hr.job hj

theorem Settled.not_call (hs : s.Settled) (ht : s.tasks[t]? = some task) {o : SrvOp} {k : o.Res → HandlerProg} :
    task.prog ≠ .call o k := by
  intro hp
  have hover := hs.tasks task (List.mem_of_getElem? ht)
  rw [Task.finished, hp] at hover
  cases hover

/-- A server that has settled is at rest. -/
theorem Settled.atRest (hs : s.Settled) : s.AtRest d h := by
  rintro l ⟨harrives, hl⟩
  rw [Option.eq_none_iff_forall_ne_some]
  intro s' hstep
  cases step_to hstep with
  | recv => cases harrives
  | recvLate => cases harrives
  | broadcast => cases harrives
  | stop => exact hl rfl
  | jobStart hj hq => exact hs.jobs _ (List.mem_of_getElem? hj) (.inl hq)
  | jobRun hj hr => exact hs.jobs _ (List.mem_of_getElem? hj) (.inr hr)
  | shutdown hstop =>
    simp only [step, stepShutdown, Option.ite_none_right_eq_some] at hstep
    obtain ⟨⟨-, haborted, hshut, -⟩, -⟩ := hstep
    rcases hs.stopped hstop with ha | hs'
    · exact Bool.false_ne_true (haborted.symm.trans ha)
    · exact Bool.false_ne_true (hshut.symm.trans hs')
  | close =>
    simp only [step, stepClose, Option.ite_none_right_eq_some] at hstep
    obtain ⟨⟨hshut, hopen, -⟩, -⟩ := hstep
    exact Bool.false_ne_true (hopen.symm.trans (hs.closed hshut))
  | sync ht hp => exact hs.not_call ht hp
  | submit ht hp => exact hs.not_call ht hp
  | frame ht hp => exact hs.not_call ht hp
  | putRaises ht hp => exact hs.not_call ht hp
  | put ht hp => exact hs.not_call ht hp
  | sent ht hp => exact hs.not_call ht hp
  | jobDone ht hp => exact hs.not_call ht hp
  | awaitCancelled ht hp => exact hs.not_call ht hp
  | sendCancelled ht hp => exact hs.not_call ht hp
  | jobCancelled ht hp => exact hs.not_call ht hp
  | abort ht hp => exact hs.not_call ht hp

/-- Only a message aborts `stop()`. -/
theorem step_aborted (hl : l.arrives = false) (hs : step d h l s = some s') : s'.aborted = s.aborted := by
  cases step_to hs with
  | recvLate => cases hl
  | @sync t c task o k r srv ht hp hr =>
    change (s.sideEffect o).aborted = s.aborted
    unfold sideEffect cancelTask
    split
    · split
      · split <;> rfl
      · rfl
    · rfl
    · split <;> rfl
    · rfl
  | @jobCancelled t task job k j =>
    change ((s.modifyTask t Task.clearCancel).dropQueued j).aborted = s.aborted
    unfold dropQueued
    split <;> rfl
  | _ => rfl

/-- From every state of every run of the server: without new messages and broadcasts the
steps of its handlers, of the pool and of `stop()` cannot go on for ever, in whatever order
they are taken and whatever the host answers; and where none of them is left the
server has settled: no handler waits for another, for the thread or for a lost job. -/
theorem server_settles {runner : RunnerState} {metrics : ServerMetricsCollector} {ls : List Label}
    (hr : Runs.run (step d h) ls (Sys.init runner metrics) = some s) :
    (∀ (f : Nat → Label) (σ : Nat → Sys), σ 0 = s →
      ¬ ∀ n, (f n).arrives = false ∧ step d h (f n) (σ n) = some (σ (n + 1))) ∧
    (∀ (ls' : List Label) (s' : Sys), Runs.run (step d h) ls' s = some s' → s'.AtRest d h → s'.Settled) ∧
    ∃ ls' s', (∀ l ∈ ls', l.arrives = false ∧ l ≠ .stop) ∧ Runs.run (step d h) ls' s = some s' ∧ s'.Settled ∧
      s'.aborted = s.aborted := by
  have hkeep : ∀ s l s', Poised s → step d h l s = some s' → Poised s' := fun _ _ _ hi hs => hi.step hs
  have hi : s.Poised := Runs.run_inv hkeep (poised_init runner metrics) hr
  refine ⟨fun f σ _ => Runs.no_endless_run wellFounded_step f σ, fun ls' s' hr' hrest => ?_, ?_⟩
  · exact hrest.settled (Runs.run_inv hkeep hi hr')
  · have hwf : WellFounded (Runs.Next (step d h) (fun l => l.arrives = false ∧ l ≠ .stop)) := by
      refine Subrelation.wf ?_ (wellFounded_step (d := d) (h := h))
      rintro _ _ ⟨l, ⟨hl, -⟩, hs⟩
      exact ⟨l, hl, hs⟩
    obtain ⟨ls', s', hall, hr', hrest⟩ := Runs.exists_stuck hwf s
    refine ⟨ls', s', hall, hr', AtRest.settled hrest (Runs.run_inv hkeep hi hr'), ?_⟩
    have hguarded : Runs.Guarded (step d h) (fun _ l => l.arrives = false) ls' s :=
      Runs.Guarded.of_mem (fun l hl _ => (hall l hl).1)
    exact hguarded.inv (I := fun u => u.aborted = s.aborted) (fun _ _ _ hu hl hs => (step_aborted hl hs).trans hu) rfl hr'

end

/-- The server is told to stop while two requests wait for their turns, and a third
comes while `stop()` waits for them. -/
theorem server_settles_stopped : ∃ (d : Daemon) (s : Sys),
    Runs.run (step d Host.plain) [.recv [[7], [0, 0, 0, 5], [4]], .recv [[8], [0, 0, 0, 1], [8]], .stop,
      .recv [[7], [0, 0, 0, 6], [1]]] (Sys.init ⟨{}, .empty, []⟩ { startTime := 0 }) = some s ∧ s.aborted = true ∧
      ∃ ls' s', (∀ l ∈ ls', l.arrives = false ∧ l ≠ .stop) ∧ Runs.run (step d Host.plain) ls' s = some s' ∧ s'.Settled ∧
        s'.aborted = s.aborted := by
  let d : Daemon := { msgspec := ⟨fun _ => .ok [], fun _ => .error ""⟩ }
  obtain ⟨s, hr, ha⟩ : ∃ s, Runs.run (step d Host.plain)
      [.recv [[7], [0, 0, 0, 5], [4]], .recv [[8], [0, 0, 0, 1], [8]], .stop, .recv [[7], [0, 0, 0, 6], [1]]]
        (Sys.init ⟨{}, .empty, []⟩ { startTime := 0 }) = some s ∧ s.aborted = true := ⟨_, rfl, rfl⟩
  exact ⟨d, s, hr, ha, (server_settles hr).2.2⟩

end Sys

end VsRemote
