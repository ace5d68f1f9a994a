import VsRemote.CleanUpDue
import VsRemote.LoadRace
import VsRemote.PoolJobs

/-! Whether the outputs of a failed load are ever served, for any scripts and
any order of load, cancel and query requests. -/

namespace VsRemote

def PoolJob.loading (pj : PoolJob) : Bool :=
  match pj.job, pj.status with
  | .extract _ _, _ => false
  | _, .queued => true
  | _, .running => true
  | _, _ => false

/-- A clean-up that has started. -/
def PoolJob.cleaning (pj : PoolJob) : Bool :=
  match pj.job, pj.status with
  | .teardown, .running => true
  | _, _ => false

/-- No load request is being processed, on the event loop or on the pool. -/
def NoLoadInProgress (s : Sys) : Prop :=
  (∀ task ∈ s.tasks, task.isLoad = true → task.finished = true) ∧ ∀ pj ∈ s.jobs, pj.loading = false

/-- No query was answered from an output a failed load registered, and a runner
whose last load failed while executing serves nothing once no load is processed. -/
structure AllOrNothing (s : Sys) : Prop where
  answered : ∀ rec : LoadRecord, some rec ∈ s.answers → ∃ outs, rec.result = .ok outs
  settled : NoLoadInProgress s → ∀ (rec : LoadRecord) (e : PyExc), lastTouched s.loads = some rec →
    rec.result = .error e → s.srv.runner.runner.stores = .empty

def LoadRecord.failed (rec : LoadRecord) : Bool :=
  match rec.result with
  | .ok _ => false
  | .error _ => true

/-- The queries for the outputs of the runner. -/
def RunnerQuery.ofOutputs : RunnerQuery → Bool
  | .listOutputs => true
  | .clipInfo _ => true
  | .clip _ => true
  | _ => false

namespace Sys

/-- The failed load whose outputs the runner still holds. -/
def leftover (s : Sys) : Option LoadRecord :=
  (lastTouched s.loads).filter (fun rec => rec.failed ∧ s.srv.runner.runner.stores ≠ .empty)

/-- The load job gets past its preconditions. -/
def touches (s : Sys) (j : Nat) (w : LoadWorld) : Bool :=
  match s.jobs[j]? with
  | some ⟨.load a, _, _⟩ => a.touches w s.srv.runner.runner
  | _ => false

/-- And registers an output before it raises. -/
def leaves (s : Sys) (j : Nat) (w : LoadWorld) : Bool := s.touches j w && ScriptRunner.leavesPartial w

/-- The job of the last load that left outputs behind, until a clean-up job has run,
another load has got past its preconditions or the runner is closed. -/
def failedLoad (g : Option Nat) (s : Sys) : Label → Option Nat
  | .jobRun j (.load w) => if s.leaves j w then some j else if s.touches j w then none else g
  | .jobRun _ (.teardown _) => none
  | .close _ _ => none
  | _ => g

/-- The task that submitted the job. -/
def ownerOf (s : Sys) (j : Nat) : Option Nat := s.jobs[j]?.map (·.owner)

/-- The task that submitted the job still waits for it. -/
def awaited (s : Sys) (j : Nat) : Bool :=
  match s.jobs[j]? with
  | some pj =>
    match s.tasks[pj.owner]? with
    | some task => task.phase = .onJob j
    | none => false
  | none => false

def cleaningUp (s : Sys) : Bool := s.jobs.any PoolJob.cleaning

/-- The next operation of the task asks the runner for its outputs. -/
def asksOutputs (s : Sys) (t : Nat) : Bool :=
  match s.tasks[t]? with
  | some task =>
    match task.prog with
    | .call (.runner q) _ => q.ofOutputs
    | _ => false
  | none => false

end Sys

/-- Between a load that leaves outputs behind and the clean-up no query asks for outputs,
the load runs for a handler that still waits for it, and that handler is not cancelled
before its clean-up has started. -/
def CleanUpFirst (x : Option Nat × Sys) : Label → Prop
  | .sync t _ => x.2.asksOutputs t = true → x.1 = none
  | .jobRun j (.load w) => x.2.leaves j w = true → x.2.awaited j = true
  | .cancelled t => x.1.bind x.2.ownerOf = some t → x.2.cleaningUp = true
  | _ => True

instance (x : Option Nat × Sys) : (l : Label) → Decidable (CleanUpFirst x l)
  | .sync _ _ => inferInstanceAs (Decidable (_ → _))
  | .jobRun _ (.load _) => inferInstanceAs (Decidable (_ → _))
  | .cancelled _ => inferInstanceAs (Decidable (_ → _))
  | .jobRun _ (.teardown _) => isTrue trivial
  | .jobRun _ (.extract _) => isTrue trivial
  | .recv _ => isTrue trivial
  | .broadcast _ => isTrue trivial
  | .submit _ => isTrue trivial
  | .frame _ _ => isTrue trivial
  | .put _ _ => isTrue trivial
  | .resume _ => isTrue trivial
  | .jobStart _ => isTrue trivial
  | .stop => isTrue trivial
  | .shutdown => isTrue trivial
  | .close _ _ => isTrue trivial

/-- What the runner serves is what the last load to touch it left, or nothing. -/
def Provenance (before : Stores) (s : Sys) : Prop :=
  s.srv.runner.runner.stores = .empty ∨
    s.srv.runner.runner.stores = ((lastTouched s.loads).map (·.stores)).getD before

/-- The clean-up after the load of job `j`, handled by task `t`, is still to
come: the task has not seen the failure yet, it is on its way to the clean-up or
waits for it, or a clean-up runs. -/
inductive CleanUpPending (s : Sys) (j t : Nat) : Prop
  | unseen {task : Task} {pj : PoolJob} {a : LoadAction} {e : PyExc} (ht : s.tasks[t]? = some task)
      (hph : task.phase = .onJob j) (hj : s.jobs[j]? = some pj) (hload : pj.job = .load a)
      (hd : pj.status = .done (.load (.error e)))
  | due {task : Task} (ht : s.tasks[t]? = some task) (hdue : task.due = true)
      (hjob : ∀ i, task.phase = .onJob i → ∃ pj, s.jobs[i]? = some pj ∧ pj.active)
  | runs {i : Nat} {pj : PoolJob} (hi : s.jobs[i]? = some pj) (hjob : pj.job = .teardown)
      (hrun : pj.status = .running)

structure LoadInv (g : Option Nat) (s : Sys) : Prop where
  failed : ∀ rec : LoadRecord, s.leftover = some rec → g = some rec.job
  answered : ∀ rec : LoadRecord, some rec ∈ s.answers → ∃ outs, rec.result = .ok outs
  waiting : s.Waiting
  pending : ∀ rec : LoadRecord, s.leftover = some rec →
    ∃ pj, s.jobs[rec.job]? = some pj ∧ CleanUpPending s rec.job pj.owner

variable {d : Daemon} {h : Host} {s s' : Sys} {l : Label} {before : Stores} {rec : LoadRecord} {g : Option Nat}

theorem Provenance.step (hi : Provenance before s) (hs : Sys.step d h l s = some s') :
    Provenance before s' := by
  rcases Sys.step_stores hs with ⟨hlast, hkeep | hempty⟩ | ⟨j, w, pj, a, rec, -, hload⟩
  · rw [Provenance, hlast, hkeep]
    exact hi
  · exact .inl hempty
  · refine .inr ?_
    rw [hload.last, hload.stores]
    rfl

/-- In any run, whatever the runner serves was left by the last load that
touched it, or was there from the start. -/
theorem Provenance.run {runner : RunnerState} {metrics : ServerMetricsCollector} {ls : List Label}
    (hr : Runs.run (Sys.step d h) ls (Sys.init runner metrics) = some s) :
    Provenance runner.runner.stores s :=
  Runs.run_inv (fun _ _ _ hi hs => hi.step hs) (.inr rfl) hr

theorem LoadRecord.failed_iff : rec.failed = true ↔ ∃ e, rec.result = .error e := by
  unfold failed
  cases rec.result with
  | ok outs => exact ⟨fun h => (by cases h), fun ⟨e, he⟩ => (by cases he)⟩
  | error e => exact ⟨fun _ => ⟨e, rfl⟩, fun _ => rfl⟩

theorem Sys.leftover_eq_some : s.leftover = some rec ↔ lastTouched s.loads = some rec ∧
    (∃ e, rec.result = .error e) ∧ s.srv.runner.runner.stores ≠ .empty := by
  simp only [leftover, Option.filter_eq_some_iff, decide_eq_true_eq, LoadRecord.failed_iff]

theorem RunnerQuery.ofOutputs_of_answered {q : RunnerQuery} {r : ScriptRunner} (hq : q.answered r = true) :
    q.ofOutputs = true := by
  cases q <;> first | rfl | cases hq

theorem Sys.of_finds {t : Nat} (hf : s.finds t = true) :
    s.asksOutputs t = true ∧ s.srv.runner.runner.stores ≠ .empty := by
  unfold finds at hf
  split at hf
  · next task ht =>
    split at hf
    · next q k hp =>
      refine ⟨?_, fun hempty => ?_⟩
      · simp only [asksOutputs, ht, hp, RunnerQuery.ofOutputs_of_answered hf]
      · rw [q.answered_of_empty hempty] at hf
        cases hf
    · cases hf
  · cases hf

/-- Outputs of a failed load that are there after a step were there before it,
or the load ran in it. -/
theorem Sys.leftover_step (hs : Sys.step d h l s = some s') (hleft : s'.leftover = some rec) :
    s.leftover = some rec ∨ ∃ j w pj a, l = .jobRun j (.load w) ∧ RunsLoad s s' j w pj a rec := by
  obtain ⟨hlast, hfailed, hne⟩ := leftover_eq_some.1 hleft
  rcases step_stores hs with ⟨hsame, hkeep | hempty⟩ | ⟨j, w, pj, a, rec', hl, hload⟩
  · exact .inl (leftover_eq_some.2 ⟨hsame ▸ hlast, hfailed, hkeep ▸ hne⟩)
  · exact absurd hempty hne
  · obtain rfl := Option.some.inj (hload.last.symm.trans hlast)
    exact .inr ⟨j, w, pj, a, hl, hload⟩

theorem Sys.RunsLoad.touched {j : Nat} {w : LoadWorld} {pj : PoolJob} {a : LoadAction}
    (hr : RunsLoad s s' j w pj a rec) : s.touches j w = true := by
  obtain ⟨job, owner, status⟩ := pj
  have hjob := hr.job
  obtain rfl : job = .load a := hr.load
  simp only [Sys.touches, hjob, hr.touches]

/-- A load that leaves outputs behind is one that `leaves` says so of. -/
theorem Sys.RunsLoad.leaves {j : Nat} {w : LoadWorld} {pj : PoolJob} {a : LoadAction}
    (hr : RunsLoad s s' j w pj a rec) (hleft : s'.leftover = some rec) : s.leaves j w = true := by
  obtain ⟨-, ⟨e, he⟩, hne⟩ := leftover_eq_some.1 hleft
  have hpartial : ScriptRunner.leavesPartial w = true := by
    by_contra hp
    have hexec := hr.exec
    rw [he] at hexec
    exact hne (LoadAction.run_error hr.touches hexec (Bool.eq_false_iff.2 hp))
  rw [Sys.leaves, hr.touched, hpartial, Bool.and_self]

theorem Sys.runsLoad_of_touches {j : Nat} {w : LoadWorld} (hs : Sys.step d h (.jobRun j (.load w)) s = some s')
    (ht : s.touches j w = true) : ∃ pj a rec, RunsLoad s s' j w pj a rec := by
  unfold touches at ht
  split at ht
  · next a owner status hjob =>
    obtain ⟨pj, outcome, hruns⟩ := step_jobRun hs
    obtain rfl := Option.some.inj (hjob.symm.trans hruns.job)
    obtain ⟨rec, hload⟩ := hruns.runsLoad rfl ht
    exact ⟨_, a, rec, hload⟩
  · cases ht

/-- Outputs of a failed load that are there after a step are those of the load that
`failedLoad` tells of, if they were before. -/
theorem Sys.failedLoad_step (hs : Sys.step d h l s = some s') (hleft : s'.leftover = some rec)
    (hg : ∀ rec : LoadRecord, s.leftover = some rec → g = some rec.job) : s.failedLoad g l = some rec.job := by
  obtain ⟨hlast, -, hne⟩ := leftover_eq_some.1 hleft
  have hbefore : (∀ j w, l = .jobRun j (.load w) → s.touches j w = false) → g = some rec.job := by
    intro hl
    rcases leftover_step hs hleft with hbefore | ⟨j, w, pj, a, rfl, hload⟩
    · exact hg rec hbefore
    · exact nomatch (hl j w rfl).symm.trans hload.touched
  cases l with
  | jobRun j w =>
    cases w with
    | load w =>
      cases ht : s.touches j w with
      | false =>
        rw [failedLoad, leaves, ht, Bool.false_and, if_neg Bool.false_ne_true, if_neg Bool.false_ne_true]
        exact hbefore (fun j' w' hl => by cases hl; exact ht)
      | true =>
        obtain ⟨pj, a, rec', hload⟩ := runsLoad_of_touches hs ht
        obtain rfl := Option.some.inj (hload.last.symm.trans hlast)
        rw [failedLoad, if_pos (hload.leaves hleft), hload.ofJob]
    | teardown w => exact absurd (stores_of_teardown hs) hne
    | extract w => exact hbefore (fun j' w' hl => by cases hl)
  | close w isRegistered => exact absurd (stores_of_close hs) hne
  | _ => exact hbefore (fun j' w' hl => by cases hl)

theorem Sys.task_of_awaited {j : Nat} {pj : PoolJob} (ha : s.awaited j = true) (hj : s.jobs[j]? = some pj) :
    ∃ task, s.tasks[pj.owner]? = some task ∧ task.phase = .onJob j := by
  simp only [awaited, hj] at ha
  split at ha
  · next task ht => exact ⟨task, ht, of_decide_eq_true ha⟩
  · cases ha

theorem Sys.job_of_cleaningUp (hc : s.cleaningUp = true) :
    ∃ (i : Nat) (pj : PoolJob), s.jobs[i]? = some pj ∧ pj.job = .teardown ∧ pj.status = .running := by
  obtain ⟨pj, hmem, hpj⟩ := List.any_eq_true.1 hc
  obtain ⟨i, hi⟩ := List.mem_iff_getElem?.1 hmem
  refine ⟨i, pj, hi, ?_⟩
  unfold PoolJob.cleaning at hpj
  split at hpj
  · next hjob hrun => exact ⟨hjob, hrun⟩
  · cases hpj

namespace CleanUpPending

variable {pj : PoolJob}

/-- A running clean-up goes on running, or nothing is left over. -/
theorem step_runs (hs : Sys.step d h l s = some s') (hne : s'.srv.runner.runner.stores ≠ .empty) {i j t : Nat}
    (hi : s.jobs[i]? = some pj) (hjob : pj.job = .teardown) (hrun : pj.status = .running) :
    CleanUpPending s' j t := by
  obtain ⟨pj', hi', hstep⟩ := Sys.step_job hs hi
  cases hstep with
  | stay => exact .runs hi' hjob hrun
  | drop hq =>
    rw [hrun] at hq
    cases hq
  | start hq =>
    rw [hrun] at hq
    cases hq
  | run => exact absurd (Sys.teardown_empties hs hi hjob) hne

/-- The handler sees the failure next, unless it is cancelled. -/
theorem step_unseen (hs : Sys.step d h l s = some s') {j t : Nat} {task : Task} {a : LoadAction} {e : PyExc}
    (hw : s.Waiting) (hcancel : l ≠ .cancelled t) (ht : s.tasks[t]? = some task) (hph : task.phase = .onJob j)
    (hj : s.jobs[j]? = some pj) (hload : pj.job = .load a) (hd : pj.status = .done (.load (.error e))) :
    CleanUpPending s' j t := by
  obtain ⟨pj₀, k₀, h₀, -, hprog⟩ := hw t j task ht hph
  obtain rfl := Option.some.inj (hj.symm.trans h₀)
  obtain ⟨job, owner, status⟩ := pj
  obtain rfl : job = .load a := hload
  obtain rfl : status = .done (.load (.error e)) := hd
  obtain ⟨pj', hj', hjob⟩ := Sys.step_job hs hj
  obtain rfl : pj' = ⟨.load a, owner, .done (.load (.error e))⟩ := by
    cases hjob with
    | stay => rfl
    | drop hq => cases hq
    | start hq => cases hq
    | run hr => cases hr
  obtain ⟨task', ht', hstep⟩ := Sys.step_task hs ht
  cases hstep with
  | stay => exact .unseen ht' hph hj' rfl rfl
  | cancel => exact .unseen ht' (Task.cancel_phase task ▸ hph) hj' rfl rfl
  | @jobDone _ job k j₁ pj₁ outcome r hp hph₁ hc hj₁ hd₁ hr =>
    rw [hph] at hph₁
    obtain rfl := Phase.onJob.inj hph₁
    obtain rfl := Option.some.inj (hj.symm.trans hj₁)
    rw [hprog] at hp
    cases hp
    cases hd₁
    cases hr
    refine .due ht' ?_ (fun i hi => by cases hi)
    rw [due_complete]
    rfl
  | awaitCancelled => exact absurd rfl hcancel
  | sendCancelled => exact absurd rfl hcancel
  | jobCancelled => exact absurd rfl hcancel
  | abort => exact absurd rfl hcancel
  | submit _ hph₁ =>
    rw [hph] at hph₁
    cases hph₁
  | put _ hph₁ =>
    rw [hph] at hph₁
    cases hph₁
  | putRaises _ hph₁ =>
    rw [hph] at hph₁
    cases hph₁
  | sent _ hph₁ =>
    rw [hph] at hph₁
    cases hph₁
  | sync hp hr =>
    rw [hprog] at hp
    cases hp
    cases hr
  | frame hp =>
    rw [hprog] at hp
    cases hp

/-- A clean-up that is waited for stays on the pool, unless its handler is
cancelled or it has run. -/
theorem active_step (hs : Sys.step d h l s = some s') (hw : s.Waiting)
    (hne : s'.srv.runner.runner.stores ≠ .empty) {t i : Nat} {task : Task} (hcancel : l ≠ .cancelled t)
    (ht : s.tasks[t]? = some task) (hunfinished : task.finished = false) (hph : task.phase = .onJob i)
    (hi : s.jobs[i]? = some pj) (hjob : pj.job = .teardown) (ha : pj.active) :
    ∃ pj', s'.jobs[i]? = some pj' ∧ pj'.active := by
  obtain ⟨pj', hi', hstep⟩ := Sys.step_job hs hi
  cases hstep with
  | stay => exact ⟨_, hi', ha⟩
  | start => exact ⟨_, hi', .inr rfl⟩
  | run => exact absurd (Sys.teardown_empties hs hi hjob) hne
  | drop _ hby =>
    cases hby with
    | cancelled ht' hph' => exact absurd (congrArg Label.cancelled (hw.unique ht' hph' ht hph)) hcancel
    | shutdown hfin =>
      have hfinished := List.all_eq_true.1 hfin task (List.mem_of_getElem? ht)
      rw [hunfinished] at hfinished
      cases hfinished

/-- The handler goes on to its clean-up, unless it is cancelled. -/
theorem step_due (hs : Sys.step d h l s = some s') (hw : s.Waiting) (hh : s.Handled d)
    (hne : s'.srv.runner.runner.stores ≠ .empty) {j t : Nat} {task : Task} (hcancel : l ≠ .cancelled t)
    (ht : s.tasks[t]? = some task) (hdue : task.due = true)
    (hjob : ∀ i, task.phase = .onJob i → ∃ pj, s.jobs[i]? = some pj ∧ pj.active) : CleanUpPending s' j t := by
  obtain ⟨-, hprog⟩ := (hh t task ht).of_due hdue
  have hunfinished : task.finished = false := by
    rcases hprog with ⟨e, k, hp⟩ | ⟨k, hp⟩ <;> rw [Task.finished, hp]
  have hactive : ∀ i, task.phase = .onJob i → ∃ pj', s'.jobs[i]? = some pj' ∧ pj'.active := by
    intro i hph
    obtain ⟨⟨job, owner, status⟩, k₀, hi, -, hp₀⟩ := hw t i task ht hph
    obtain ⟨pj₁, hi₁, ha⟩ := hjob i hph
    obtain rfl := Option.some.inj (hi.symm.trans hi₁)
    refine active_step hs hw hne hcancel ht hunfinished hph hi ?_ ha
    rcases hprog with ⟨e, k, hp⟩ | ⟨k, hp⟩
    · rw [hp₀] at hp
      cases hp
    · rw [hp₀] at hp
      cases hp
      rfl
  obtain ⟨task', ht', hstep⟩ := Sys.step_task hs ht
  cases hstep with
  | stay => exact .due ht' hdue hactive
  | cancel =>
    refine .due ht' ((due_cancel task).trans hdue) (fun i hph => hactive i ?_)
    rwa [Task.cancel_phase] at hph
  | @sync _ task₁ c o k r srv hp hr hc =>
    refine .due ht' ?_ (fun i hph => by cases hph)
    have hdue₁ : task₁.due = true := by
      rcases hc with rfl | ⟨rfl, -⟩
      · exact hdue
      · exact (due_cancel task).trans hdue
    rw [due_complete, hdue₁]
    rcases hprog with ⟨e, k', hp'⟩ | ⟨k', hp'⟩
    · rw [hp'] at hp
      cases hp
      rfl
    · rw [hp'] at hp
      cases hp
      cases hr
  | @submit _ job k hp hph =>
    refine .due ht' hdue (fun i hi => ?_)
    obtain rfl := Phase.onJob.inj hi
    exact ⟨_, Sys.submit_job hs ht hp, .inl rfl⟩
  | @jobDone _ job k i pj₁ outcome r hp hph hc hi hd =>
    obtain ⟨pj₂, hi₂, ha⟩ := hjob i hph
    obtain rfl := Option.some.inj (hi.symm.trans hi₂)
    rcases ha with ha | ha <;> (rw [hd] at ha; cases ha)
  | awaitCancelled => exact absurd rfl hcancel
  | sendCancelled => exact absurd rfl hcancel
  | jobCancelled => exact absurd rfl hcancel
  | abort => exact absurd rfl hcancel
  | frame hp => rcases hprog with ⟨e, k, hp'⟩ | ⟨k, hp'⟩ <;> (rw [hp'] at hp; cases hp)
  | put hp => rcases hprog with ⟨e, k, hp'⟩ | ⟨k, hp'⟩ <;> (rw [hp'] at hp; cases hp)
  | putRaises hp => rcases hprog with ⟨e, k, hp'⟩ | ⟨k, hp'⟩ <;> (rw [hp'] at hp; cases hp)
  | sent hp => rcases hprog with ⟨e, k, hp'⟩ | ⟨k, hp'⟩ <;> (rw [hp'] at hp; cases hp)

theorem step (hs : Sys.step d h l s = some s') (hw : s.Waiting) (hh : s.Handled d)
    (hne : s'.srv.runner.runner.stores ≠ .empty) {j t : Nat} (hc : l = .cancelled t → s.cleaningUp = true)
    (hp : CleanUpPending s j t) : CleanUpPending s' j t := by
  by_cases hl : l = .cancelled t
  · obtain ⟨i, pj, hi, hjob, hrun⟩ := Sys.job_of_cleaningUp (hc hl)
    exact step_runs hs hne hi hjob hrun
  · cases hp with
    | unseen ht hph hj hload hd => exact step_unseen hs hw hl ht hph hj hload hd
    | due ht hdue hjob => exact step_due hs hw hh hne hl ht hdue hjob
    | runs hi hjob hrun => exact step_runs hs hne hi hjob hrun

/-- As long as a clean-up is pending, a load is being processed. -/
theorem not_settled (hw : s.Waiting) (hh : s.Handled d) {j t : Nat} (hp : CleanUpPending s j t) :
    ¬ NoLoadInProgress s := by
  rintro ⟨htasks, hjobs⟩
  cases hp with
  | @unseen task pj a e ht hph hj hload =>
    obtain ⟨⟨job, owner, status⟩, k, h₀, -, hprog⟩ := hw t j task ht hph
    obtain rfl := Option.some.inj (hj.symm.trans h₀)
    obtain rfl : job = .load a := hload
    have hfin := htasks task (List.mem_of_getElem? ht) ((hh t task ht).isLoad_of_load hprog)
    rw [Task.finished, hprog] at hfin
    cases hfin
  | @due task ht hdue =>
    obtain ⟨hload, hprog⟩ := (hh t task ht).of_due hdue
    have hfin := htasks task (List.mem_of_getElem? ht) hload
    rcases hprog with ⟨e, k, hp⟩ | ⟨k, hp⟩ <;> (rw [Task.finished, hp] at hfin; cases hfin)
  | @runs i pj hi hjob hrun =>
    have hloading := hjobs pj (List.mem_of_getElem? hi)
    simp only [PoolJob.loading, hjob, hrun] at hloading
    cases hloading

end CleanUpPending

namespace LoadInv

theorem step_answered (hi : LoadInv g s) (hc : CleanUpFirst (g, s) l) (hs : Sys.step d h l s = some s')
    (hmem : some rec ∈ s'.answers) : ∃ outs, rec.result = .ok outs := by
  rcases Sys.step_answers hs with hsame | ⟨t, c, rfl, hfinds, happ⟩
  · exact hi.answered rec (hsame ▸ hmem)
  · rw [happ, List.mem_append, List.mem_singleton] at hmem
    rcases hmem with hmem | hlast
    · exact hi.answered rec hmem
    · cases hres : rec.result with
      | ok outs => exact ⟨outs, rfl⟩
      | error e =>
        obtain ⟨hasks, hne⟩ := Sys.of_finds hfinds
        have hfailed := hi.failed rec (Sys.leftover_eq_some.2 ⟨hlast.symm, ⟨e, hres⟩, hne⟩)
        exact nomatch hfailed.symm.trans (hc hasks)

theorem step_pending (hi : LoadInv g s) (hh : s.Handled d) (hc : CleanUpFirst (g, s) l)
    (hs : Sys.step d h l s = some s') (hleft : s'.leftover = some rec) :
    ∃ pj, s'.jobs[rec.job]? = some pj ∧ CleanUpPending s' rec.job pj.owner := by
  obtain ⟨-, ⟨e, he⟩, hne⟩ := Sys.leftover_eq_some.1 hleft
  rcases Sys.leftover_step hs hleft with hbefore | ⟨j, w, pj, a, rfl, hload⟩
  · obtain ⟨pj, hj, hpending⟩ := hi.pending rec hbefore
    obtain ⟨pj', hj', hjob⟩ := Sys.step_job hs hj
    refine ⟨pj', hj', ?_⟩
    rw [hjob.same.2]
    refine hpending.step hs hi.waiting hh hne ?_
    rintro rfl
    refine hc ?_
    rw [hi.failed rec hbefore, Option.bind_some, Sys.ownerOf, hj, Option.map_some]
  · obtain rfl := hload.ofJob
    obtain ⟨task, ht, hph⟩ := Sys.task_of_awaited (hc (hload.leaves hleft)) hload.job
    obtain ⟨task', ht', hstep⟩ := Sys.step_task hs ht
    have hph' : task'.phase = .onJob rec.job := by
      cases hstep with
      | stay => exact hph
      | cancel => exact (Task.cancel_phase task).trans hph
    exact ⟨_, hload.done, .unseen ht' hph' hload.done hload.load (congrArg (fun r => JobStatus.done (.load r)) he)⟩

theorem step (hi : LoadInv g s) (hh : s.Handled d) (hc : CleanUpFirst (g, s) l) (hs : Sys.step d h l s = some s') :
    LoadInv (s.failedLoad g l) s' where
  failed _ hleft := Sys.failedLoad_step hs hleft hi.failed
  answered _ hmem := hi.step_answered hc hs hmem
  waiting := hi.waiting.step hs
  pending _ hleft := hi.step_pending hh hc hs hleft

theorem allOrNothing (hi : LoadInv g s) (hh : s.Handled d) : AllOrNothing s := by
  refine ⟨hi.answered, fun hnone rec e hlast he => ?_⟩
  by_contra hne
  obtain ⟨pj, -, hpending⟩ := hi.pending rec (Sys.leftover_eq_some.2 ⟨hlast, ⟨e, he⟩, hne⟩)
  exact hpending.not_settled hi.waiting hh hnone

end LoadInv

/-- In a run in which whatever a failed load registered is cleaned up first,
loads are all or nothing. -/
theorem all_or_nothing {runner : RunnerState} {metrics : ServerMetricsCollector} {ls : List Label}
    (hg : Runs.Guarded (Runs.tracked (Sys.step d h) Sys.failedLoad) CleanUpFirst ls (none, Sys.init runner metrics)) :
    Runs.Always (Sys.step d h) AllOrNothing ls (Sys.init runner metrics) := by
  have hinit : (Sys.init runner metrics).Handled d ∧ LoadInv none (Sys.init runner metrics) := by
    refine ⟨fun i task ht => ?_, fun rec hleft => ?_, fun rec hmem => ?_, fun t j task ht => ?_, fun rec hleft => ?_⟩
    · cases ht
    · cases hleft
    · cases hmem
    · cases ht
    · cases hleft
  refine Runs.Always.of_tracked ((hg.always (I := fun x => x.2.Handled d ∧ LoadInv x.1 x.2) ?_ hinit).mono ?_)
  · intro x l y hi hc hs
    obtain ⟨hs, hy⟩ := Runs.tracked_step hs
    exact ⟨hi.1.step hs, hy ▸ hi.2.step hi.1 hc hs⟩
  · exact fun _ hi => hi.2.allOrNothing hi.1

def cancelPayload : Bytes := [0x81, 0xA6, 0x72, 0x65, 0x71, 0x5F, 0x69, 0x64, 5]

def cancelDaemon : Daemon :=
  { msgspec := .table [([0x80], .map []), (cancelPayload, .map [("req_id", .int 5)])] [0x80] }

/-- A load whose script has a fixed-format output and one of variable format. -/
def LoadWorld.halfRejected : LoadWorld :=
  { LoadWorld.finds ((OrderedDict.empty.set 0 (.video (.gray8 1 2 2))).set 1
      (.video (.variableFormat 2 2 2))) with
    isFile := fun _ => true }

/-- A reload registers one output and fails, its handler cleans up, and
LIST_OUTPUTS is answered. -/
def cleanedUpLabels : List Label :=
  reloadLabels 0 1 ++ [.jobStart 0, .jobRun 0 (.load .halfRejected), .resume 0, .sync 0 (.traceback ⟨[], ""⟩),
    .submit 0, .jobStart 1, .jobRun 1 (.teardown {}), .resume 0, .put 0 none, .resume 0, .sync 0 (.time 0),
    .sync 0 .ok] ++
  [.recv [[2], [0, 0, 0, 5], [2]], .sync 1 .ok, .sync 1 .ok, .sync 1 (.time 0), .sync 1 .ok,
    .put 1 none, .resume 1, .sync 1 (.time 0), .sync 1 .ok]

theorem all_or_nothing_cleanedUp :
    (Runs.run (Sys.step cancelDaemon Host.plain) cleanedUpLabels scriptSys).map (fun s => s.loads.map (·.failed)) =
        some [true] ∧
      Runs.Always (Sys.step cancelDaemon Host.plain) AllOrNothing cleanedUpLabels scriptSys :=
  ⟨by decide +kernel, all_or_nothing (by decide +kernel)⟩

def cancelLabels (t : Nat) (identity : UInt8) : List Label :=
  [.recv [[identity], [0, 0, 0, 6], [11], cancelPayload], .sync t .ok, .sync t .ok, .sync t (.time 0),
    .sync t .ok, .sync t (.time 0), .sync t .ok]

/-- A reload is cancelled while its job runs, the job registers one output and
raises, and LIST_OUTPUTS is answered. -/
def cancelledLoadLabels : List Label :=
  reloadLabels 0 1 ++ [.jobStart 0] ++ cancelLabels 1 1 ++
  [.cancelled 0, .sync 0 (.time 0), .sync 0 .ok, .jobRun 0 (.load .halfRejected)] ++
  [.recv [[2], [0, 0, 0, 5], [2]], .sync 2 .ok, .sync 2 .ok, .sync 2 (.time 0), .sync 2 .ok,
    .put 2 none, .resume 2, .sync 2 (.time 0), .sync 2 .ok]

/-- Nothing is left to do, the output of the failed load is still there and has
been served. -/
theorem cancelled_load_is_served :
    ∃ s, Runs.run (Sys.step cancelDaemon Host.plain) cancelledLoadLabels scriptSys = some s ∧
      NoLoadInProgress s ∧ s.srv.runner.runner.stores ≠ .empty ∧ ¬ AllOrNothing s := by
  have hfinal : (Runs.run (Sys.step cancelDaemon Host.plain) cancelledLoadLabels scriptSys).map (fun s =>
      (s.tasks.all (fun task => task.finished), s.jobs.all (fun pj => ! pj.loading),
        s.srv.runner.runner.outputItems.length,
        s.answers.getLast?.map (fun a => a.map (fun rec => rec.result.toOption.isNone)))) =
      some (true, true, 1, some (some true)) := by decide +kernel
  obtain ⟨s, hrun, hs⟩ := Option.map_eq_some_iff.1 hfinal
  obtain ⟨htasks, hjobs, hlen, hlast⟩ : s.tasks.all _ = true ∧ s.jobs.all _ = true ∧
      s.srv.runner.runner.outputItems.length = 1 ∧ _ = _ := by simpa only [Prod.mk.injEq] using hs
  refine ⟨s, hrun, ⟨fun task ht _ => List.all_eq_true.1 htasks task ht, fun pj hj => ?_⟩, ?_, fun hp => ?_⟩
  · exact Bool.not_eq_true' _ ▸ List.all_eq_true.1 hjobs pj hj
  · intro hempty
    have hnil : s.srv.runner.runner.outputItems = [] := congrArg Stores.outputItems hempty
    rw [hnil] at hlen
    cases hlen
  · obtain ⟨a, ha, hfailed⟩ := Option.map_eq_some_iff.1 hlast
    obtain ⟨rec, rfl, hnone⟩ := Option.map_eq_some_iff.1 hfailed
    obtain ⟨outs, hok⟩ := hp.answered rec (List.mem_of_getLast? ha)
    rw [hok] at hnone
    cases hnone

end VsRemote
