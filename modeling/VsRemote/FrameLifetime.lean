import VsRemote.HeldFrame
import VsRemote.PartialLoad
import VsRemote.PoolJobs

/-! Whether a frame stays open while a pool job reads its planes, for any
number of frame requests, cancellations and stops. -/

namespace VsRemote

def Task.held (task : Task) : Option Nat := holdMonitor.run none task.log

/-- No frame is closed while a job that reads it runs on the pool. -/
def FramesOpen (s : Sys) : Prop :=
  ∀ (j : Nat) (pj : PoolJob) (frame : VideoFrame) (compression : Compression), s.jobs[j]? = some pj →
    pj.job = .extract frame compression → pj.status = .running → frame.id ∉ s.closedFrames

/-- No `CancelledError` reaches a handler that waits for a running extraction. -/
def ExtractUndisturbed (s : Sys) (l : Label) : Prop :=
  ∀ (t j : Nat) (task : Task) (pj : PoolJob) (frame : VideoFrame) (compression : Compression),
    l = .cancelled t → s.tasks[t]? = some task → task.phase = .onJob j → s.jobs[j]? = some pj →
    pj.job = .extract frame compression → pj.status ≠ .running

/-- The frames that tasks hold are distinct, rendered and not closed, and
whoever handed a frame to the pool still waits for the job and holds the frame. -/
structure FrameInv (s : Sys) : Prop where
  held : ∀ (i n : Nat) (task : Task), s.tasks[i]? = some task → task.held = some n →
    n < s.nextFrame ∧ n ∉ s.closedFrames
  closed : ∀ n ∈ s.closedFrames, n < s.nextFrame
  distinct : ∀ (i i' n : Nat) (task task' : Task), s.tasks[i]? = some task → s.tasks[i']? = some task' →
    task.held = some n → task'.held = some n → i = i'
  waits : ∀ (j : Nat) (pj : PoolJob) (frame : VideoFrame) (compression : Compression),
    s.jobs[j]? = some pj → pj.job = .extract frame compression → pj.active →
    ∃ (task : Task) (k : SrvOp.Res (.runInExecutor (.extract frame compression)) → HandlerProg),
      s.tasks[pj.owner]? = some task ∧ task.phase = .onJob j ∧
      task.prog = .call (.runInExecutor (.extract frame compression)) k ∧ task.held = some frame.id

theorem FrameInv.framesOpen {s : Sys} (hi : FrameInv s) : FramesOpen s := by
  intro j pj frame compression hj hjob hrun
  obtain ⟨task, k, ht, -, -, hheld⟩ := hi.waits j pj frame compression hj hjob (.inr hrun)
  exact (hi.held pj.owner frame.id task ht hheld).2

variable {d : Daemon} {h : Host} {s s' : Sys} {l : Label}

theorem Task.Handles.wp_held {task : Task} (hh : task.Handles d) :
    task.prog.wp holdMonitor (fun _ held => held = none) task.held :=
  hh.wp_log (fun _ _ _ => trivial) (fun msg _ => keepsHeld_handleRequest d msg)
    (fun _ payload subscribers => keeps_sendAll quietOnPlain_hold.served payload subscribers)

theorem Task.Handles.pre_held {task : Task} {o : SrvOp} {k : o.Res → HandlerProg} (hh : task.Handles d)
    (hp : task.prog = .call o k) : holdMonitor.pre task.held o := by
  have hwp := hh.wp_held
  rw [hp] at hwp
  exact hwp.1

theorem held_complete (task : Task) (o : SrvOp) (k : o.Res → HandlerProg) (r : o.Res) :
    (task.complete o k r).held = holdMonitor.next task.held o r := by
  simp only [Task.held, Task.complete_log, Coro.Monitor.run_append]
  rfl

@[simp] theorem held_cancel (task : Task) : task.cancel.held = task.held := by
  simp only [Task.held, Task.cancel_log]

theorem holdMonitor_next_sync {o : SrvOp} {r : o.Res} {held : Option Nat} (hs : o.suspends = false)
    (hc : ∀ f, o ≠ .closeFrame f) : holdMonitor.next held o r = held := by
  cases o with
  | closeFrame f => exact absurd rfl (hc f)
  | awaitFrame clip n => cases hs
  | _ => rfl

/-- Apart from rendering and closing a step leaves the held frame alone. -/
theorem TaskStep.held_eq {t : Nat} {task task' : Task} (hs : TaskStep d h s t l task task')
    (hsync : ∀ c, l ≠ .sync t c) (hframe : ∀ f, l ≠ .frame t (.ok f)) : task'.held = task.held := by
  cases hs with
  | cancel => exact held_cancel task
  | sync => exact absurd rfl (hsync _)
  | @frame _ clip n k r =>
    cases r with
    | ok f => exact absurd rfl (hframe f)
    | error e => exact held_complete task (.awaitFrame clip n) k _
  | awaitCancelled => exact held_complete task.clearCancel _ _ _
  | sendCancelled => exact held_complete task.clearCancel _ _ _
  | jobCancelled => exact held_complete task.clearCancel _ _ _
  | putRaises => exact held_complete task _ _ _
  | sent => exact held_complete task _ _ _
  | jobDone => exact held_complete task _ _ _
  | _ => rfl

def HeldBefore (s : Sys) (i : Nat) (task' : Task) : Prop :=
  task'.held = none ∨ ∃ task, s.tasks[i]? = some task ∧ task'.held = task.held

inductive FrameStep (s s' : Sys) : Prop
  | keeps (hn : s'.nextFrame = s.nextFrame) (hc : s'.closedFrames = s.closedFrames)
      (ht : ∀ (i : Nat) (task' : Task), s'.tasks[i]? = some task' → HeldBefore s i task')
  | renders (t : Nat) (hn : s'.nextFrame = s.nextFrame + 1) (hc : s'.closedFrames = s.closedFrames)
      (ht : ∀ (i : Nat) (task' : Task), s'.tasks[i]? = some task' →
        (i = t ∧ task'.held = some s.nextFrame) ∨ (i ≠ t ∧ HeldBefore s i task'))
  | closes (t f : Nat) (task : Task) (hf : s.tasks[t]? = some task) (hheld : task.held = some f)
      (hn : s'.nextFrame = s.nextFrame) (hc : s'.closedFrames = f :: s.closedFrames)
      (ht : ∀ (i : Nat) (task' : Task), s'.tasks[i]? = some task' →
        (i = t ∧ task'.held = none) ∨ (i ≠ t ∧ HeldBefore s i task'))

theorem respond_suspends {t : Nat} {o : SrvOp} {c : Choice} {srv srv' : ServerState} {r : o.Res}
    (hr : respond d h t o c srv = some (r, srv')) : o.suspends = false := by
  cases o with
  | awaitFrame clip n => cases c <;> cases hr
  | send origin parts => cases c <;> cases hr
  | _ => rfl

namespace Sys

theorem closedFrames_sideEffect {o : SrvOp} (hc : ∀ f, o ≠ .closeFrame f) :
    (s.sideEffect o).closedFrames = s.closedFrames := by
  unfold sideEffect
  split
  · unfold cancelTask
    split
    · split <;> rfl
    · rfl
  · exact absurd rfl (hc _)
  · split <;> rfl
  · rfl

theorem dropQueued_frames (j : Nat) : (s.dropQueued j).nextFrame = s.nextFrame ∧
    (s.dropQueued j).closedFrames = s.closedFrames := by
  unfold dropQueued
  split <;> exact ⟨rfl, rfl⟩

theorem heldBefore_of_step (hs : step d h l s = some s') (hsync : ∀ t c, l ≠ .sync t c)
    (hframe : ∀ t f, l ≠ .frame t (.ok f)) (i : Nat) (task' : Task) (hi : s'.tasks[i]? = some task') :
    HeldBefore s i task' := by
  rcases step_trans hs hi with ⟨task, ht, hstep⟩ | ⟨-, -, hf⟩
  · exact .inr ⟨task, ht, hstep.held_eq (hsync i) (hframe i)⟩
  · cases hf <;> exact .inl rfl

theorem step_frames (hh : s.Handled d) (hs : step d h l s = some s') : FrameStep s s' := by
  cases step_to hs with
  | @sync t c task o k r srv ht hp hr =>
    have hside := sameJobs_sideEffect (s := s) o
    have hacts : ∀ (i : Nat) (task' : Task), ((s.sideEffect o).tasks.modify t
        (fun task => task.complete o k r))[i]? = some task' →
        (i = t ∧ task'.held = holdMonitor.next task.held o r) ∨ (i ≠ t ∧ HeldBefore s i task') := by
      intro i task' hi
      obtain ⟨task₁, h₁, hcase⟩ := Lookup.of_modify hi
      obtain ⟨task₀, h₀, hc⟩ := sideEffect_task h₁
      have hheld : task₁.held = task₀.held := by
        rcases hc with rfl | ⟨rfl, -⟩
        · rfl
        · exact held_cancel task₀
      rcases hcase with ⟨rfl, rfl⟩ | ⟨hne, rfl⟩
      · rw [ht] at h₀
        obtain rfl := Option.some.inj h₀
        exact .inl ⟨rfl, by rw [held_complete, hheld]⟩
      · exact .inr ⟨Ne.symm hne, .inr ⟨task₀, h₀, hheld⟩⟩
    by_cases hclose : ∃ f, o = .closeFrame f
    · obtain ⟨f, rfl⟩ := hclose
      have hpre : task.held = some f := (hh t task ht).pre_held hp
      exact .closes t f task ht hpre rfl rfl hacts
    · have hne : ∀ f, o ≠ .closeFrame f := fun f hf => hclose ⟨f, hf⟩
      refine .keeps hside.nextFrame (closedFrames_sideEffect hne) (fun i task' hi => ?_)
      rcases hacts i task' hi with ⟨rfl, hheld⟩ | ⟨-, hbefore⟩
      · rw [holdMonitor_next_sync (respond_suspends hr) hne] at hheld
        exact .inr ⟨task, ht, hheld⟩
      · exact hbefore
  | @frame t task clip n r k ht hp hc =>
    cases r with
    | error e =>
      exact .keeps rfl rfl (heldBefore_of_step hs (fun _ _ hl => by cases hl) (fun _ _ hl => by cases hl))
    | ok f =>
      refine .renders t rfl rfl (fun i task' hi => ?_)
      obtain ⟨task₀, h₀, ⟨rfl, rfl⟩ | ⟨hne, rfl⟩⟩ := Lookup.of_modify hi
      · exact .inl ⟨rfl, held_complete task₀ (.awaitFrame clip n) k _⟩
      · exact .inr ⟨Ne.symm hne, .inr ⟨_, h₀, rfl⟩⟩
  | @jobCancelled t task job k j =>
    obtain ⟨hn, hc⟩ := dropQueued_frames (s := s.modifyTask t Task.clearCancel) j
    exact .keeps hn hc (heldBefore_of_step hs (fun _ _ hl => by cases hl) (fun _ _ hl => by cases hl))
  | _ =>
    exact .keeps rfl rfl (heldBefore_of_step hs (fun _ _ hl => by cases hl) (fun _ _ hl => by cases hl))

end Sys

theorem HeldBefore.some {i n : Nat} {task' : Task} (hb : HeldBefore s i task') (hn : task'.held = some n) :
    ∃ task, s.tasks[i]? = some task ∧ task.held = some n := by
  rcases hb with hnone | ⟨task, ht, heq⟩
  · rw [hnone] at hn
    cases hn
  · exact ⟨task, ht, heq ▸ hn⟩

namespace FrameInv

theorem step_held (hi : FrameInv s) (hf : FrameStep s s') {i n : Nat} {task' : Task}
    (ht : s'.tasks[i]? = some task') (hn : task'.held = some n) : n < s'.nextFrame ∧ n ∉ s'.closedFrames := by
  cases hf with
  | keeps hnext hclosed htasks =>
    obtain ⟨task, h₀, hheld⟩ := (htasks i task' ht).some hn
    rw [hnext, hclosed]
    exact hi.held i n task h₀ hheld
  | renders t hnext hclosed htasks =>
    rw [hnext, hclosed]
    rcases htasks i task' ht with ⟨-, hnew⟩ | ⟨-, hb⟩
    · rw [hnew] at hn
      obtain rfl := Option.some.inj hn
      refine ⟨by omega, fun hmem => ?_⟩
      have hlt := hi.closed _ hmem
      omega
    · obtain ⟨task, h₀, hheld⟩ := hb.some hn
      obtain ⟨hlt, hopen⟩ := hi.held i n task h₀ hheld
      exact ⟨by omega, hopen⟩
  | closes t f closer hcloser hf hnext hclosed htasks =>
    rw [hnext, hclosed]
    rcases htasks i task' ht with ⟨-, hnone⟩ | ⟨hne, hb⟩
    · rw [hnone] at hn
      cases hn
    · obtain ⟨task, h₀, hheld⟩ := hb.some hn
      obtain ⟨hlt, hopen⟩ := hi.held i n task h₀ hheld
      refine ⟨hlt, fun hmem => ?_⟩
      rcases List.mem_cons.1 hmem with rfl | hmem
      · exact hne (hi.distinct i t n task closer h₀ hcloser hheld hf)
      · exact hopen hmem

theorem step_closed (hi : FrameInv s) (hf : FrameStep s s') {n : Nat} (hn : n ∈ s'.closedFrames) :
    n < s'.nextFrame := by
  cases hf with
  | keeps hnext hclosed =>
    rw [hclosed] at hn
    rw [hnext]
    exact hi.closed n hn
  | renders t hnext hclosed =>
    rw [hclosed] at hn
    have hlt := hi.closed n hn
    omega
  | closes t f closer hcloser hf hnext hclosed =>
    rw [hclosed] at hn
    rw [hnext]
    rcases List.mem_cons.1 hn with rfl | hn
    · exact (hi.held t n closer hcloser hf).1
    · exact hi.closed n hn

theorem step_distinct (hi : FrameInv s) (hf : FrameStep s s') {i i' n : Nat} {task task' : Task}
    (ht : s'.tasks[i]? = some task) (ht' : s'.tasks[i']? = some task') (hn : task.held = some n)
    (hn' : task'.held = some n) : i = i' := by
  have before : HeldBefore s i task → HeldBefore s i' task' → i = i' := by
    intro hb hb'
    obtain ⟨task₀, h₀, hheld⟩ := hb.some hn
    obtain ⟨task₁, h₁, hheld'⟩ := hb'.some hn'
    exact hi.distinct i i' n task₀ task₁ h₀ h₁ hheld hheld'
  have fresh : ∀ {i₀ : Nat} {task₀ : Task}, HeldBefore s i₀ task₀ → task₀.held = some n →
      n ≠ s.nextFrame := by
    intro i₀ task₀ hb hheld
    obtain ⟨task₁, h₁, hheld₁⟩ := hb.some hheld
    have hlt := (hi.held i₀ n task₁ h₁ hheld₁).1
    omega
  cases hf with
  | keeps _ _ htasks => exact before (htasks i task ht) (htasks i' task' ht')
  | renders t _ _ htasks =>
    rcases htasks i task ht with ⟨rfl, hnew⟩ | ⟨-, hb⟩ <;>
      rcases htasks i' task' ht' with ⟨rfl, hnew'⟩ | ⟨-, hb'⟩
    · rfl
    · exact absurd (Option.some.inj (hn.symm.trans hnew)) (fresh hb' hn')
    · exact absurd (Option.some.inj (hn'.symm.trans hnew')) (fresh hb hn)
    · exact before hb hb'
  | closes t f _ _ _ _ _ htasks =>
    rcases htasks i task ht with ⟨-, hnone⟩ | ⟨-, hb⟩
    · rw [hnone] at hn
      cases hn
    · rcases htasks i' task' ht' with ⟨-, hnone⟩ | ⟨-, hb'⟩
      · rw [hnone] at hn'
        cases hn'
      · exact before hb hb'

/-- Whoever waits for an extraction that is not over goes on waiting, unless a
`CancelledError` reaches it. -/
theorem step_waits (hi : FrameInv s) (hh : s.Handled d) (hc : ExtractUndisturbed s l)
    (hs : Sys.step d h l s = some s') {j : Nat} {pj' : PoolJob} {frame : VideoFrame}
    {compression : Compression} (hj : s'.jobs[j]? = some pj') (hjob : pj'.job = .extract frame compression)
    (ha : pj'.active) :
    ∃ (task : Task) (k : SrvOp.Res (.runInExecutor (.extract frame compression)) → HandlerProg),
      s'.tasks[pj'.owner]? = some task ∧ task.phase = .onJob j ∧
      task.prog = .call (.runInExecutor (.extract frame compression)) k ∧ task.held = some frame.id := by
  rcases Sys.step_jobs hs hj with ⟨pj, hpj, hstep⟩ | ⟨rfl, rfl, -, task, k, ht, hp, -⟩
  · obtain ⟨hactive, hjob', howner⟩ := hstep.active ha
    rw [hjob'] at hjob
    rw [howner]
    obtain ⟨task, k, ht, hph, hp, hheld⟩ := hi.waits j pj frame compression hpj hjob hactive
    obtain ⟨task', ht', hts⟩ := Sys.step_task hs ht
    cases hts with
    | stay => exact ⟨task, k, ht', hph, hp, hheld⟩
    | cancel => exact ⟨_, k, ht', by simpa using hph, by simpa using hp, by simpa using hheld⟩
    | @sync _ _ c o k' r srv hp' hr =>
      rw [hp] at hp'
      cases hp'
      cases c <;> cases hr
    | submit _ hph' | put _ hph' | putRaises _ hph' | sent _ hph' | abort _ hph' =>
      rw [hph] at hph'
      cases hph'
    | frame hp' | awaitCancelled hp' | sendCancelled hp' =>
      rw [hp] at hp'
      cases hp'
    | jobDone _ hph' _ hj' hdone =>
      rw [hph] at hph'
      obtain rfl := Phase.onJob.inj hph'
      rw [hpj] at hj'
      obtain rfl := Option.some.inj hj'
      rcases hactive with hst | hst <;> rw [hdone] at hst <;> cases hst
    | jobCancelled =>
      have hnot := hc pj.owner j task pj frame compression rfl ht hph hpj hjob
      have hdrop := Sys.cancelled_drops hs ht hp hph hpj (hactive.resolve_right hnot)
      rw [hj] at hdrop
      obtain rfl := Option.some.inj hdrop
      rcases ha with hst | hst <;> cases hst
  · obtain ⟨job, owner, status⟩ := pj'
    simp only at hjob ht hp hs hj ⊢
    subst hjob
    have hpre : task.held = some frame.id := (hh owner task ht).pre_held hp
    exact ⟨_, k, Sys.submit_task hs ht, rfl, hp, hpre⟩

theorem step (hi : FrameInv s) (hh : s.Handled d) (hc : ExtractUndisturbed s l)
    (hs : Sys.step d h l s = some s') : FrameInv s' := by
  have hf := Sys.step_frames hh hs
  constructor
  · exact fun i n task' ht hn => hi.step_held hf ht hn
  · exact fun n hn => hi.step_closed hf hn
  · exact fun i i' n task task' ht ht' hn hn' => hi.step_distinct hf ht ht' hn hn'
  · exact fun j pj' frame compression hj hjob ha => hi.step_waits hh hc hs hj hjob ha

theorem init (runner : RunnerState) (metrics : ServerMetricsCollector) : FrameInv (Sys.init runner metrics) := by
  constructor
  · intro i n task ht
    cases ht
  · intro n hn
    cases hn
  · intro i i' n task task' ht
    cases ht
  · intro j pj frame compression hj
    cases hj

end FrameInv

/-- In a run in which no `CancelledError` reaches a handler that waits for a
running extraction, no frame is closed while it is extracted. -/
theorem frames_open {runner : RunnerState} {metrics : ServerMetricsCollector} {ls : List Label}
    (hg : Runs.Guarded (Sys.step d h) ExtractUndisturbed ls (Sys.init runner metrics)) :
    Runs.Always (Sys.step d h) FramesOpen ls (Sys.init runner metrics) := by
  have hinit : (Sys.init runner metrics).Handled d := by
    intro i task ht
    cases ht
  have hboth := hg.always (I := fun s => s.Handled d ∧ FrameInv s)
    (fun _ _ _ hi hc hs => ⟨hi.1.step hs, hi.2.step hi.1 hc hs⟩) ⟨hinit, FrameInv.init runner metrics⟩
  exact hboth.mono (fun _ hi => hi.2.framesOpen)

def codeSys : Sys := Sys.init codeRunner { startTime := 0 }

def grayFrame : VideoFrame := ⟨0, 1, [⟨2, 2, 1, 2, fun _ => 0⟩], []⟩

/-- GET_FRAME of frame 0 of output 0, up to its extraction on the pool. -/
def getFrameLabels : List Label :=
  [.recv [[1], [0, 0, 0, 5], [4], [0x80]], .sync 0 .ok, .sync 0 .ok, .sync 0 (.time 0),
    .sync 0 .ok, .sync 0 (.time 0), .sync 0 .ok, .sync 0 (.time 0), .sync 0 .ok, .sync 0 .ok, .sync 0 .ok,
    .frame 0 (.ok grayFrame), .sync 0 (.time 0), .sync 0 (.time 0), .submit 0, .jobStart 0]

def sendFrameLabels : List Label :=
  [.jobRun 0 (.extract none), .resume 0, .sync 0 (.time 0), .sync 0 (.time 0), .put 0 none, .resume 0,
    .sync 0 .ok, .sync 0 (.time 0), .sync 0 .ok]

theorem frames_open_get_frame :
    (Runs.run (Sys.step cancelDaemon Host.plain) (getFrameLabels ++ sendFrameLabels) codeSys).isSome = true ∧
      Runs.Always (Sys.step cancelDaemon Host.plain) FramesOpen (getFrameLabels ++ sendFrameLabels) codeSys := by
  refine ⟨by decide +kernel, frames_open (Runs.Guarded.of_mem ?_)⟩
  intro l hl s t j task pj frame compression hcancel
  rw [hcancel] at hl
  simp [getFrameLabels, sendFrameLabels] at hl

def PoolJob.extracting (pj : PoolJob) : Option Nat :=
  match pj.job, pj.status with
  | .extract frame _, .running => some frame.id
  | _, _ => none

theorem extracting_eq_some {pj : PoolJob} {f : Nat} (h : pj.extracting = some f) :
    ∃ frame compression, pj.job = .extract frame compression ∧ pj.status = .running ∧ frame.id = f := by
  unfold PoolJob.extracting at h
  split at h
  · next frame compression hjob hrun => exact ⟨frame, compression, hjob, hrun, Option.some.inj h⟩
  · cases h

/-- CANCEL_REQUEST while the extraction runs: the frame is closed under it. -/
theorem cancel_closes_frame_in_use :
    ∃ s, Runs.run (Sys.step cancelDaemon Host.plain) (getFrameLabels ++ cancelLabels 1 1 ++
      [.cancelled 0, .sync 0 .ok]) codeSys = some s ∧ ¬ FramesOpen s := by
  have hfinal : (Runs.run (Sys.step cancelDaemon Host.plain) (getFrameLabels ++ cancelLabels 1 1 ++
      [.cancelled 0, .sync 0 .ok]) codeSys).map (fun s => (s.closedFrames, s.jobs.map PoolJob.extracting)) =
        some ([0], [some 0]) := by decide +kernel
  obtain ⟨s, hrun, hs⟩ := Option.map_eq_some_iff.1 hfinal
  obtain ⟨hclosed, hjobs⟩ := Prod.mk.inj hs
  refine ⟨s, hrun, fun hopen => ?_⟩
  obtain ⟨pj, hone, hframe⟩ := List.map_eq_singleton_iff.1 hjobs
  have hj : s.jobs[0]? = some pj := by rw [hone]; rfl
  obtain ⟨frame, compression, hjob, hrun, hid⟩ := extracting_eq_some hframe
  refine hopen 0 pj frame compression hj hjob hrun ?_
  rw [hclosed, hid]
  exact List.mem_singleton.2 rfl

end VsRemote
