import VsRemote.Lifecycle

/-! What one step of the server does to one job of the pool. -/

namespace VsRemote

/-- A queued job goes with the wait of a cancelled task, or once every task is over. -/
inductive Drops (s : Sys) (j : Nat) : Label → Prop
  | cancelled {t : Nat} {task : Task} (ht : s.tasks[t]? = some task) (hph : task.phase = .onJob j) :
      Drops s j (.cancelled t)
  | shutdown (hfin : s.tasks.all Task.finished = true) : Drops s j .shutdown

inductive JobStep (h : Host) (s : Sys) (j : Nat) : Label → PoolJob → PoolJob → Prop
  | stay {l : Label} (pj : PoolJob) : JobStep h s j l pj pj
  | drop {l : Label} {pj : PoolJob} (hq : pj.status = .queued) (hby : Drops s j l) :
      JobStep h s j l pj { pj with status := .dropped }
  | start {pj : PoolJob} (hq : pj.status = .queued) :
      JobStep h s j (.jobStart j) pj { pj with status := .running }
  | run {pj : PoolJob} {w : JobWorld} {outcome : JobOutcome} {runner : RunnerState}
      (hr : pj.status = .running) (ho : pj.job.run h w s.srv.runner = some (outcome, runner)) :
      JobStep h s j (.jobRun j w) pj { pj with status := .done outcome }

def PoolJob.active (pj : PoolJob) : Prop := pj.status = .queued ∨ pj.status = .running

theorem JobStep.same {h : Host} {s : Sys} {j : Nat} {l : Label} {pj pj' : PoolJob}
    (hs : JobStep h s j l pj pj') : pj'.job = pj.job ∧ pj'.owner = pj.owner := by
  cases hs <;> exact ⟨rfl, rfl⟩

theorem JobStep.active {h : Host} {s : Sys} {j : Nat} {l : Label} {pj pj' : PoolJob}
    (hs : JobStep h s j l pj pj') (ha : pj'.active) :
    pj.active ∧ pj'.job = pj.job ∧ pj'.owner = pj.owner := by
  refine ⟨?_, hs.same⟩
  cases hs with
  | stay => exact ha
  | drop => rcases ha with hst | hst <;> cases hst
  | start hq => exact .inl hq
  | run => rcases ha with hst | hst <;> cases hst

def NewJob (s : Sys) (l : Label) (pj : PoolJob) : Prop :=
  l = .submit pj.owner ∧ pj.status = .queued ∧ ∃ task, ∃ k : SrvOp.Res (.runInExecutor pj.job) → HandlerProg,
    s.tasks[pj.owner]? = some task ∧ task.prog = .call (.runInExecutor pj.job) k ∧ task.phase = .ready

namespace Sys

variable {d : Daemon} {h : Host} {s s' : Sys} {l : Label} {j : Nat}

def JobTrans (h : Host) (s : Sys) (l : Label) (j : Nat) (pj' : PoolJob) : Prop :=
  (∃ pj, s.jobs[j]? = some pj ∧ JobStep h s j l pj pj') ∨ (j = s.jobs.length ∧ NewJob s l pj')

theorem jobTrans_of_eq {pj' : PoolJob} (hj : s.jobs[j]? = some pj') : JobTrans h s l j pj' :=
  .inl ⟨pj', hj, .stay pj'⟩

theorem jobs_setStatus {i : Nat} {st : JobStatus} {pj' : PoolJob} (hj : (s.setStatus i st).jobs[j]? = some pj') :
    ∃ pj, s.jobs[j]? = some pj ∧ ((i = j ∧ pj' = { pj with status := st }) ∨ (i ≠ j ∧ pj' = pj)) := by
  exact Lookup.of_modify hj

theorem jobs_dropQueued {i : Nat} {pj' : PoolJob} (hj : (s.dropQueued i).jobs[j]? = some pj') :
    ∃ pj, s.jobs[j]? = some pj ∧
      (pj' = pj ∨ (i = j ∧ pj.status = .queued ∧ pj' = { pj with status := .dropped })) := by
  unfold dropQueued at hj
  split at hj
  · next hq =>
    obtain ⟨pj, hpj, ⟨rfl, rfl⟩ | ⟨-, rfl⟩⟩ := jobs_setStatus hj
    · rw [hq] at hpj
      obtain rfl := Option.some.inj hpj
      exact ⟨_, hq, .inr ⟨rfl, rfl, rfl⟩⟩
    · exact ⟨_, hpj, .inl rfl⟩
  · exact ⟨_, hj, .inl rfl⟩

theorem step_jobs {pj' : PoolJob} (hs : step d h l s = some s') (hj : s'.jobs[j]? = some pj') :
    JobTrans h s l j pj' := by
  cases step_to hs with
  | @sync t c task o k r srv ht hp hr =>
    have hside : (s.sideEffect o).jobs = s.jobs := (sameJobs_sideEffect o).jobs
    replace hj : (s.sideEffect o).jobs[j]? = some pj' := hj
    rw [hside] at hj
    exact jobTrans_of_eq hj
  | @submit t task job k ht hp hph =>
    replace hj : (s.jobs ++ [⟨job, t, .queued⟩])[j]? = some pj' := hj
    rcases Lookup.of_append hj with hj | ⟨hlen, rfl⟩
    · exact jobTrans_of_eq hj
    · exact .inr ⟨hlen, rfl, rfl, task, k, ht, hp, hph⟩
  | @jobCancelled t task job k i ht hp hph =>
    replace hj : ((s.modifyTask t Task.clearCancel).dropQueued i).jobs[j]? = some pj' := hj
    obtain ⟨pj, hpj, rfl | ⟨rfl, hq, rfl⟩⟩ := jobs_dropQueued hj
    · exact jobTrans_of_eq hpj
    · exact .inl ⟨pj, hpj, .drop hq (.cancelled ht hph)⟩
  | @jobStart i pj₀ h₀ hq =>
    obtain ⟨pj, hpj, ⟨rfl, rfl⟩ | ⟨-, rfl⟩⟩ := jobs_setStatus hj
    · rw [h₀] at hpj
      obtain rfl := Option.some.inj hpj
      exact .inl ⟨pj₀, h₀, .start hq⟩
    · exact jobTrans_of_eq hpj
  | @jobRun i w pj₀ outcome runner h₀ hr ho =>
    replace hj : (s.setStatus i (.done outcome)).jobs[j]? = some pj' := hj
    obtain ⟨pj, hpj, ⟨rfl, rfl⟩ | ⟨-, rfl⟩⟩ := jobs_setStatus hj
    · rw [h₀] at hpj
      obtain rfl := Option.some.inj hpj
      exact .inl ⟨pj₀, h₀, .run hr ho⟩
    · exact jobTrans_of_eq hpj
  | shutdown _ hfin =>
    simp only [List.getElem?_map, Option.map_eq_some_iff] at hj
    obtain ⟨pj, hpj, rfl⟩ := hj
    split
    · next hq => exact .inl ⟨pj, hpj, .drop hq (.shutdown hfin)⟩
    · exact jobTrans_of_eq hpj
  | _ => exact jobTrans_of_eq hj

theorem length_jobs (hs : step d h l s = some s') : s.jobs.length ≤ s'.jobs.length := by
  cases step_to hs with
  | @sync t c task o k r srv ht hp hr =>
    change s.jobs.length ≤ (s.sideEffect o).jobs.length
    rw [(sameJobs_sideEffect o).jobs]
  | @jobCancelled t task job k j =>
    change s.jobs.length ≤ ((s.modifyTask t Task.clearCancel).dropQueued j).jobs.length
    unfold dropQueued
    split
    · exact (List.length_modify ..).ge
    · exact Nat.le_refl _
  | submit => exact (List.length_append ..).symm ▸ Nat.le_add_right ..
  | jobStart => exact (List.length_modify ..).ge
  | jobRun => exact (List.length_modify ..).ge
  | shutdown => exact (List.length_map ..).ge
  | _ => exact Nat.le_refl _

theorem step_job {pj : PoolJob} (hs : step d h l s = some s') (hj : s.jobs[j]? = some pj) :
    ∃ pj', s'.jobs[j]? = some pj' ∧ JobStep h s j l pj pj' := by
  have hlt : j < s.jobs.length := (List.getElem?_eq_some_iff.1 hj).1
  have hlt' : j < s'.jobs.length := Nat.lt_of_lt_of_le hlt (length_jobs hs)
  refine ⟨s'.jobs[j], List.getElem?_eq_getElem hlt', ?_⟩
  rcases step_jobs hs (List.getElem?_eq_getElem hlt') with ⟨pj₀, h₀, hstep⟩ | ⟨heq, -⟩
  · rw [hj] at h₀
    obtain rfl := Option.some.inj h₀
    exact hstep
  · omega

theorem submit_task {t : Nat} {task : Task} (hs : step d h (.submit t) s = some s')
    (ht : s.tasks[t]? = some task) : s'.tasks[t]? = some { task with phase := .onJob s.jobs.length } := by
  cases step_to hs with
  | submit => simp [modifyTask, ht]

theorem submit_job {t : Nat} {task : Task} {job : Job} {k : SrvOp.Res (.runInExecutor job) → HandlerProg}
    (hs : step d h (.submit t) s = some s') (ht : s.tasks[t]? = some task)
    (hp : task.prog = .call (.runInExecutor job) k) : s'.jobs[s.jobs.length]? = some ⟨job, t, .queued⟩ := by
  cases step_to hs with
  | submit ht' hp' =>
    rw [ht] at ht'
    obtain rfl := Option.some.inj ht'
    rw [hp] at hp'
    cases hp'
    exact List.getElem?_concat_length

/-- A task that waits for a job submitted it and is suspended on it. -/
def Waiting (s : Sys) : Prop :=
  ∀ (t j : Nat) (task : Task), s.tasks[t]? = some task → task.phase = .onJob j →
    ∃ (pj : PoolJob) (k : SrvOp.Res (.runInExecutor pj.job) → HandlerProg), s.jobs[j]? = some pj ∧
      pj.owner = t ∧ task.prog = .call (.runInExecutor pj.job) k

theorem Waiting.unique (hw : s.Waiting) {t t' j : Nat} {task task' : Task} (ht : s.tasks[t]? = some task)
    (hph : task.phase = .onJob j) (ht' : s.tasks[t']? = some task') (hph' : task'.phase = .onJob j) :
    t = t' := by
  obtain ⟨pj, -, hj, howner, -⟩ := hw t j task ht hph
  obtain ⟨pj', -, hj', howner', -⟩ := hw t' j task' ht' hph'
  obtain rfl := Option.some.inj (hj.symm.trans hj')
  exact howner.symm.trans howner'

theorem Waiting.step (hw : s.Waiting) (hs : step d h l s = some s') : s'.Waiting := by
  intro t j task' ht' hph'
  have before : ∀ task : Task, s.tasks[t]? = some task → task.phase = .onJob j → task'.prog = task.prog →
      ∃ (pj : PoolJob) (k : SrvOp.Res (.runInExecutor pj.job) → HandlerProg), s'.jobs[j]? = some pj ∧
        pj.owner = t ∧ task'.prog = .call (.runInExecutor pj.job) k := by
    intro task ht hph hprog
    obtain ⟨⟨job, owner, status⟩, k, hj, howner, hp⟩ := hw t j task ht hph
    obtain ⟨⟨job', owner', status'⟩, hj', hstep⟩ := step_job hs hj
    obtain ⟨rfl, rfl⟩ : job' = job ∧ owner' = owner := hstep.same
    exact ⟨⟨job', owner', status'⟩, k, hj', howner, hprog.trans hp⟩
  rcases step_trans hs ht' with ⟨task, ht, hstep⟩ | ⟨-, -, hf⟩
  · cases hstep with
    | stay => exact before _ ht hph' rfl
    | cancel => exact before task ht (Task.cancel_phase task ▸ hph') (Task.cancel_prog task)
    | @submit _ job k hp hph =>
      obtain rfl := Phase.onJob.inj hph'
      exact ⟨⟨job, t, .queued⟩, k, submit_job hs ht hp, rfl, hp⟩
    | abort _ hph =>
      rw [show task.abort.phase = task.phase from rfl, hph] at hph'
      cases hph'
    | _ => cases hph'
  · cases hf <;> cases hph'

/-- The job of a cancelled task is dropped if it has not started. -/
theorem cancelled_drops {t : Nat} {task : Task} {job : Job} {pj : PoolJob}
    {k : SrvOp.Res (.runInExecutor job) → HandlerProg} (hs : step d h (.cancelled t) s = some s')
    (ht : s.tasks[t]? = some task) (hp : task.prog = .call (.runInExecutor job) k)
    (hph : task.phase = .onJob j) (hj : s.jobs[j]? = some pj) (hq : pj.status = .queued) :
    s'.jobs[j]? = some { pj with status := .dropped } := by
  obtain ⟨job', owner, status⟩ := pj
  simp only at hq
  subst hq
  have same : ∀ {task' : Task}, s.tasks[t]? = some task' → task' = task := fun h' =>
    Option.some.inj (h'.symm.trans ht)
  cases step_to hs with
  | awaitCancelled ht' hp' =>
    rw [same ht', hp] at hp'
    cases hp'
  | sendCancelled ht' hp' =>
    rw [same ht', hp] at hp'
    cases hp'
  | jobCancelled ht' hp' hph' =>
    rw [same ht', hph] at hph'
    obtain rfl := Phase.onJob.inj hph'
    change ((s.modifyTask t Task.clearCancel).dropQueued j).jobs[j]? = _
    have hj' : (s.modifyTask t Task.clearCancel).jobs[j]? = some ⟨job', owner, .queued⟩ := hj
    simp [dropQueued, hj', setStatus]
  | abort ht' hp' hph' =>
    rw [same ht', hph] at hph'
    cases hph'

end Sys

end VsRemote
