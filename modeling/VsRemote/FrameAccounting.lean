import Mathlib.Algebra.BigOperators.Group.List.Basic
import VsRemote.FrameCharges
import VsRemote.FrameLifetime

/-! The counters of the frames against the handlers that raised them. -/

namespace VsRemote

def ServerMetricsCollector.count (m : ServerMetricsCollector) : FrameCounter → Nat
  | .requests => m.totalFrameRequests
  | .completed => m.completedFrames
  | .failed => m.failedFrames
  | .cancelled => m.cancelledFrames

section

variable {d : Daemon} {h : Host} {t : Nat} {o : SrvOp} {c : Choice} {srv srv' : ServerState} {r : o.Res}

theorem MetricsCall.count_apply (call : MetricsCall) (now : Rat) (m : ServerMetricsCollector) (k : FrameCounter) :
    (call.apply h now m).count k = m.count k + if call.counter = some k then 1 else 0 := by
  cases call with
  | requestEnd i =>
    unfold MetricsCall.apply ServerMetricsCollector.onRequestEnd
    dsimp only
    split <;> cases k <;> rfl
  | _ => cases k <;> rfl

theorem respond_count (hr : respond d h t o c srv = some (r, srv')) (k : FrameCounter) :
    srv'.metrics.count k = srv.metrics.count k + if o.counter = some k then 1 else 0 := by
  unfold respond at hr
  split at hr
  all_goals cases hr
  all_goals first
    | rfl
    | exact MetricsCall.count_apply ..

end

def Trace.outcomes (tr : Trace) : Nat := tr.count .completed + tr.count .failed + tr.count .cancelled

/-- The handler has counted its request, charged no outcome and is not over. -/
def Task.pending (task : Task) : Bool :=
  task.finished = false ∧ task.trace.count .requests = 1 ∧ task.trace.outcomes = 0

/-- The handler has charged an outcome and is not over. -/
def Task.settling (task : Task) : Bool := task.finished = false ∧ task.trace.outcomes ≠ 0

/-- The handler has counted its request and is not over. -/
def Task.inFrame (task : Task) : Bool := task.finished = false ∧ task.trace.count .requests ≠ 0

/-- The handler is over, and all it had to say was that the output is missing. -/
def Task.uncharged (task : Task) : Bool := task.finished = true ∧ task.trace.charge = .missing

/-- The output asked for is there, and what has been charged as completed is not
charged again. -/
def SrvOp.chargesOnce (runner : ScriptRunner) (tr : Trace) : SrvOp → Bool
  | .runner (.clip i) => (runner.clips.get? i).isSome
  | .metrics .frameFailed => tr.count .completed = 0
  | .metrics .frameCancelled => tr.count .completed = 0
  | _ => true

namespace Sys

def chargesOnce (s : Sys) : Label → Bool
  | .sync t _ =>
    match s.tasks[t]? with
    | none => true
    | some task =>
      match task.prog with
      | .pure _ => true
      | .call o _ => SrvOp.chargesOnce s.srv.runner.runner task.trace o
  | _ => true

/-- The frame requests are the outcomes and the handlers that have counted their
request and are not over. -/
def AddUp (s : Sys) : Prop :=
  s.srv.metrics.totalFrameRequests = s.srv.metrics.completedFrames + s.srv.metrics.failedFrames +
    s.srv.metrics.cancelledFrames + s.tasks.countP Task.inFrame

/-- A handler counts at most one request, and ends with one outcome for it. -/
def EndOnce (s : Sys) : Prop :=
  ∀ task ∈ s.tasks, task.trace.count .requests ≤ 1 ∧
    (task.finished = true → task.trace.outcomes = task.trace.count .requests)

/-- Every counter is the sum of what the handlers have raised it by. -/
structure Tallied (d : Daemon) (s : Sys) : Prop where
  handled : s.Handled d
  sums : ∀ c, s.srv.metrics.count c = (s.traces.map (Trace.count c)).sum

variable {d : Daemon} {h : Host} {s s' : Sys} {l : Label} {t : Nat}

theorem Trace.count_snoc (tr : Trace) (e : Coro.Event srvSig) (c : FrameCounter) :
    (tr.snoc e).count c = tr.count c + if e.op.counter = some c then 1 else 0 := by
  rw [Trace.count, Trace.snoc, List.countP_append, List.countP_singleton]
  simp only [decide_eq_true_eq]
  rfl

theorem sum_count_snoc {tr : Trace} {e : Coro.Event srvSig} (ht : s.traces[t]? = some tr)
    (htr : s'.traces = s.traces.modify t (fun tr => tr.snoc e)) (c : FrameCounter) :
    (s'.traces.map (Trace.count c)).sum =
      (s.traces.map (Trace.count c)).sum + if e.op.counter = some c then 1 else 0 := by
  have hsum := Lookup.sum_modify (f := fun tr => tr.snoc e) (Trace.count c) ht
  rw [← htr, Trace.count_snoc] at hsum
  omega

theorem Tallied.step (ha : Tallied d s) (hs : Sys.step d h l s = some s') : Tallied d s' := by
  refine ⟨ha.handled.step hs, fun c => ?_⟩
  have hsum := ha.sums c
  cases loopStep hs with
  | still htr hbooks => rw [hbooks.metrics, htr, hsum]
  | submit _ _ _ htr hbooks => rw [hbooks.metrics, htr, hsum]
  | @spawn _ _ task hfresh _ htr hbooks =>
    have hnone : task.trace.count c = 0 := by cases hfresh <;> rfl
    rw [hbooks.metrics, htr, hsum, List.map_append, List.sum_append, List.map_singleton, List.sum_singleton, hnone]
    rfl
  | sync ht _ _ hr htr => rw [respond_count hr, sum_count_snoc (traces_get? ht) htr, hsum]
  | @answered _ _ t task o k r ht _ hw _ htr hbooks =>
    have hcounter : o.counter = none := by cases o <;> first | rfl | cases hw
    rw [hbooks.metrics, sum_count_snoc (traces_get? ht) htr, hsum]
    simp [hcounter]

theorem tallied_init (d : Daemon) (runner : RunnerState) (startTime : Rat) :
    Tallied d (init runner { startTime := startTime }) :=
  ⟨nofun, fun c => by cases c <;> rfl⟩

theorem Tallied.sum_tasks (ha : Tallied d s) (c : FrameCounter) :
    s.srv.metrics.count c = (s.tasks.map (fun task => task.trace.count c)).sum := by
  rw [ha.sums c, traces, List.map_map]
  rfl

theorem Tallied.inFrame (ha : Tallied d s) :
    s.tasks.countP Task.inFrame = s.tasks.countP Task.pending + s.tasks.countP Task.settling := by
  have hone : ∀ task ∈ s.tasks, task.inFrame.toNat = task.pending.toNat + task.settling.toNat := by
    intro task hmem
    obtain ⟨t, ht⟩ := List.mem_iff_getElem?.1 hmem
    obtain ⟨hcount, hover⟩ := (ha.handled t task ht).charged
    unfold Task.pending Task.settling Task.inFrame Trace.outcomes
    simp only [hcount]
    cases hf : task.finished <;> cases hg : task.trace.charge <;> simp_all [Charge.count]
  have hsum := congrArg List.sum (List.map_congr_left hone)
  simp only [List.sum_map_add, ← Lookup.countP_eq_sum] at hsum
  exact hsum

/-- In every run the requests exceed the outcomes by the handlers that have none yet and
those that ended at a missing output, less the ones charged twice. -/
theorem Tallied.exact (ha : Tallied d s) :
    s.srv.metrics.count .requests + s.tasks.countP (fun task => task.trace.charge.twice) =
      s.srv.metrics.count .completed + s.srv.metrics.count .failed + s.srv.metrics.count .cancelled +
        s.tasks.countP Task.pending + s.tasks.countP Task.uncharged := by
  have hone : ∀ task ∈ s.tasks, task.trace.count .requests + (task.trace.charge.twice).toNat =
      task.trace.count .completed + task.trace.count .failed + task.trace.count .cancelled +
        task.pending.toNat + task.uncharged.toNat := by
    intro task hmem
    obtain ⟨t, ht⟩ := List.mem_iff_getElem?.1 hmem
    obtain ⟨hcount, hover⟩ := (ha.handled t task ht).charged
    unfold Task.pending Task.uncharged Trace.outcomes
    simp only [hcount]
    cases hf : task.finished <;> cases hg : task.trace.charge <;> simp_all [Charge.count, Charge.twice]
  have hsum := congrArg List.sum (List.map_congr_left hone)
  simp only [List.sum_map_add] at hsum
  simp only [ha.sum_tasks, Lookup.countP_eq_sum]
  exact hsum

/-- No output was missing and nothing was charged twice. -/
def Clean (g : Charge) : Prop := g ≠ .missing ∧ g.twice = false

theorem getClip_ok {runner : ScriptRunner} {i : Int} (hi : (runner.clips.get? i).isSome = true) :
    ∃ clip, runner.getClip i = .ok clip := by
  obtain ⟨clip, hclip⟩ := Option.isSome_iff_exists.1 hi
  exact ⟨clip, by rw [ScriptRunner.getClip, hclip]⟩

theorem respond_clip {t : Nat} {i : Int} {c : Choice} {srv srv' : ServerState} {r : Except PyExc VideoNode}
    (hr : respond d h t (.runner (.clip i)) c srv = some (r, srv')) : r = srv.runner.runner.getClip i := by
  cases c with
  | ok => exact (Prod.mk.inj (Option.some.inj hr)).1.symm
  | _ => cases hr

theorem clean_next {tr : Trace} {o : SrvOp} {r : o.Res} {c : Choice} {srv : ServerState} (hclean : Clean tr.charge)
    (hcount : tr.count .completed = tr.charge.count .completed) (hr : respond d h t o c s.srv = some (r, srv))
    (hguard : o.chargesOnce s.srv.runner.runner tr = true) : Clean (tr.charge.next o r) := by
  have hcharged : tr.count .completed = 0 → tr.charge ≠ .completed := by
    intro hzero heq
    rw [hcount, heq] at hzero
    cases hzero
  by_cases hquiet : o.counter = none ∧ ∀ i, o ≠ .runner (.clip i)
  · rw [Charge.next_of_uncounted hquiet.1 hquiet.2]
    exact hclean
  · cases o with
    | runner q =>
      cases q with
      | clip i =>
        obtain ⟨clip, hclip⟩ := getClip_ok hguard
        obtain rfl : r = .ok clip := (respond_clip hr).trans hclip
        have hsame : tr.charge.next (.runner (.clip i)) (.ok clip) = tr.charge := by cases tr.charge <;> rfl
        rw [hsame]
        exact hclean
      | _ => exact absurd ⟨rfl, nofun⟩ hquiet
    | metrics call =>
      obtain ⟨hmissing, htwice⟩ := hclean
      cases call with
      | requestStart i => exact absurd ⟨rfl, nofun⟩ hquiet
      | requestEnd i => exact absurd ⟨rfl, nofun⟩ hquiet
      | frameRequest =>
        cases hg : tr.charge <;> simp_all [Charge.next, Clean, Charge.twice]
      | frameCompleted u z rt ct =>
        cases hg : tr.charge <;> simp_all [Charge.next, Clean, Charge.twice]
      | frameFailed =>
        have hne := hcharged (of_decide_eq_true hguard)
        cases hg : tr.charge <;> simp_all [Charge.next, Clean, Charge.twice]
      | frameCancelled =>
        have hne := hcharged (of_decide_eq_true hguard)
        cases hg : tr.charge <;> simp_all [Charge.next, Clean, Charge.twice]
    | _ => exact absurd ⟨rfl, nofun⟩ hquiet

/-- No handler has met a missing output or charged twice. -/
structure Orderly (d : Daemon) (s : Sys) : Prop where
  tallied : Tallied d s
  clean : ∀ (t : Nat) (tr : Trace), s.traces[t]? = some tr → Clean tr.charge

theorem Orderly.step (ho : Orderly d s) (hguard : s.chargesOnce l = true) (hs : Sys.step d h l s = some s') :
    Orderly d s' := by
  have hsnoc : ∀ {t : Nat} {tr : Trace} {e : Coro.Event srvSig}, s.traces[t]? = some tr →
      s'.traces = s.traces.modify t (fun tr => tr.snoc e) → Clean (tr.charge.next e.op e.res) →
      ∀ (u : Nat) (tr : Trace), s'.traces[u]? = some tr → Clean tr.charge := by
    intro t tr e ht htr hnext u tr' hu
    rw [htr] at hu
    obtain ⟨tr₀, h₀, ⟨rfl, rfl⟩ | ⟨-, rfl⟩⟩ := Lookup.of_modify hu
    · rw [ht] at h₀
      obtain rfl := Option.some.inj h₀
      rw [Trace.charge_snoc]
      exact hnext
    · exact ho.clean u _ h₀
  refine ⟨ho.tallied.step hs, ?_⟩
  cases loopStep hs with
  | still htr => exact htr ▸ ho.clean
  | submit _ _ _ htr => exact htr ▸ ho.clean
  | @spawn _ _ task hfresh _ htr =>
    intro u tr hu
    rw [htr] at hu
    rcases Lookup.of_append hu with hu | ⟨-, rfl⟩
    · exact ho.clean u tr hu
    · cases hfresh <;> exact ⟨nofun, rfl⟩
  | @sync t c _ task o k r ht hp _ hr htr =>
    have hop : o.chargesOnce s.srv.runner.runner task.trace = true := by
      simpa only [Sys.chargesOnce, ht, hp] using hguard
    have hcount := (ho.tallied.handled t task ht).charged.1 .completed
    exact hsnoc (traces_get? ht) htr (clean_next (ho.clean t _ (traces_get? ht)) hcount hr hop)
  | @answered _ _ t task o k r ht hp hw _ htr =>
    have hcounter : o.counter = none := by cases o <;> first | rfl | cases hw
    have hclip : ∀ i, o ≠ .runner (.clip i) := by
      rintro i rfl
      cases hw
    refine hsnoc (e := ⟨o, r⟩) (traces_get? ht) htr ?_
    rw [Charge.next_of_uncounted hcounter hclip]
    exact ho.clean t _ (traces_get? ht)

/-- What an orderly handler has charged. -/
theorem Orderly.task (ho : Orderly d s) (task : Task) (hmem : task ∈ s.tasks) :
    task.trace.count .requests ≤ 1 ∧ (task.finished = true → task.trace.outcomes = task.trace.count .requests) ∧
      task.trace.charge.twice = false ∧ task.uncharged = false := by
  obtain ⟨t, ht⟩ := List.mem_iff_getElem?.1 hmem
  obtain ⟨hcount, hover⟩ := (ho.tallied.handled t task ht).charged
  obtain ⟨hmissing, htwice⟩ := ho.clean t _ (traces_get? ht)
  refine ⟨?_, fun hf => ?_, htwice, ?_⟩
  · rw [hcount]
    cases task.trace.charge <;> simp [Charge.count]
  · unfold Trace.outcomes
    simp only [hcount]
    cases hg : task.trace.charge <;> simp_all [Charge.count, Charge.twice]
  · unfold Task.uncharged
    exact decide_eq_false (fun hu => hmissing hu.2)

end Sys

/-- In any run the formula is right exactly if as many handlers have ended at a missing
output as have charged an outcome without being over or were charged twice. -/
theorem frame_requests_balance {d : Daemon} {h : Host} {runner : RunnerState} {startTime : Rat} {ls : List Label} :
    Runs.Always (Sys.step d h) (fun s => s.AddUp ↔ s.tasks.countP Task.uncharged =
        s.tasks.countP Task.settling + s.tasks.countP (fun task => task.trace.charge.twice)) ls
      (Sys.init runner { startTime := startTime }) := by
  have htallied : Runs.Always (Sys.step d h) (Sys.Tallied d) ls (Sys.init runner { startTime := startTime }) :=
    Runs.Guarded.always (fun _ _ _ ha _ hs => ha.step hs) (Runs.Guarded.of_mem_self ls _)
      (Sys.tallied_init d runner startTime)
  refine htallied.mono (fun s ha => ?_)
  have hexact := ha.exact
  have hinFrame := ha.inFrame
  simp only [ServerMetricsCollector.count] at hexact
  unfold Sys.AddUp
  omega

/-- In a run in which every output asked for is there and no frame that has been counted as
completed fails or is cancelled afterwards, every handler ends with one outcome for the
request it has counted, and the formula is right in exactly the states in which no handler
is between its outcome and its end. -/
theorem frames_add_up {d : Daemon} {h : Host} {runner : RunnerState} {startTime : Rat} {ls : List Label}
    (hg : Runs.Guarded (Sys.step d h) (fun s l => s.chargesOnce l = true) ls
      (Sys.init runner { startTime := startTime })) :
    Runs.Always (Sys.step d h) (fun s => s.EndOnce ∧ (s.AddUp ↔ ∀ task ∈ s.tasks, task.settling = false)) ls
      (Sys.init runner { startTime := startTime }) := by
  have hinit : Sys.Orderly d (Sys.init runner { startTime := startTime }) :=
    ⟨Sys.tallied_init d runner startTime, nofun⟩
  have horderly := hg.always (fun _ _ _ ho hc hs => ho.step hc hs) hinit
  refine horderly.mono (fun s ho => ⟨fun task hmem => ⟨(ho.task task hmem).1, (ho.task task hmem).2.1⟩, ?_⟩)
  have hexact := ho.tallied.exact
  have hinFrame := ho.tallied.inFrame
  have htwice : s.tasks.countP (fun task => task.trace.charge.twice) = 0 := by
    rw [List.countP_eq_zero]
    intro task hmem
    rw [(ho.task task hmem).2.2.1]
    exact Bool.false_ne_true
  have huncharged : s.tasks.countP Task.uncharged = 0 := by
    rw [List.countP_eq_zero]
    intro task hmem
    rw [(ho.task task hmem).2.2.2]
    exact Bool.false_ne_true
  have hsettling : s.tasks.countP Task.settling = 0 ↔ ∀ task ∈ s.tasks, task.settling = false := by
    simp only [List.countP_eq_zero, Bool.not_eq_true]
  rw [← hsettling]
  simp only [ServerMetricsCollector.count] at hexact
  unfold Sys.AddUp
  omega

/-- GET_FRAME of frame 0 of output 0, rendered, extracted and sent. -/
theorem frames_add_up_get_frame :
    ∃ s, Runs.run (Sys.step cancelDaemon Host.plain) (getFrameLabels ++ sendFrameLabels) codeSys = some s ∧
      s.EndOnce ∧ s.AddUp ∧ s.srv.metrics.totalFrameRequests = 1 ∧ s.srv.metrics.completedFrames = 1 := by
  have hg : Runs.Guarded (Sys.step cancelDaemon Host.plain) (fun s l => s.chargesOnce l = true)
      (getFrameLabels ++ sendFrameLabels) codeSys := by decide +kernel
  have hfinal : (Runs.run (Sys.step cancelDaemon Host.plain) (getFrameLabels ++ sendFrameLabels) codeSys).map (fun s =>
      (s.tasks.any Task.settling, s.srv.metrics.totalFrameRequests, s.srv.metrics.completedFrames)) =
        some (false, 1, 1) := by decide +kernel
  obtain ⟨s, hr, hs⟩ := Option.map_eq_some_iff.1 hfinal
  obtain ⟨hsettling, hs⟩ := Prod.mk.inj hs
  obtain ⟨htotal, hcompleted⟩ := Prod.mk.inj hs
  obtain ⟨honce, hformula⟩ := (frames_add_up hg).last hr
  refine ⟨s, hr, honce, hformula.2 (fun task hmem => ?_), htotal, hcompleted⟩
  exact Bool.eq_false_iff.2 (fun hx => Bool.false_ne_true (hsettling.symm.trans (List.any_eq_true.2 ⟨task, hmem, hx⟩)))

/-- GET_FRAME of output 0 of a runner that has none. -/
def missingOutputLabels : List Label :=
  [.recv [[1], [0, 0, 0, 5], [4], [0x80]], .sync 0 .ok, .sync 0 .ok, .sync 0 (.time 0), .sync 0 .ok,
    .sync 0 (.time 0), .sync 0 .ok, .put 0 none, .resume 0, .sync 0 (.time 0), .sync 0 .ok]

/-- The OK reply is on the socket and has not been accepted yet. -/
def replyingLabels : List Label :=
  getFrameLabels ++ [.jobRun 0 (.extract none), .resume 0, .sync 0 (.time 0), .sync 0 (.time 0), .put 0 none]

/-- The socket refuses the OK reply, and the error header is sent. -/
def refusedLabels : List Label :=
  getFrameLabels ++ [.jobRun 0 (.extract none), .resume 0, .sync 0 (.time 0), .sync 0 (.time 0),
    .put 0 (some (.ofText .transportClosedError "")), .sync 0 .ok, .sync 0 (.time 0), .sync 0 (.traceback ⟨[], ""⟩),
    .put 0 none, .resume 0, .sync 0 (.time 0), .sync 0 .ok]

/-- Requests, completed, failed and cancelled frames, and the handlers that have counted
their request and are not over. -/
def Sys.frameNumbers (s : Sys) : List Nat :=
  [s.srv.metrics.totalFrameRequests, s.srv.metrics.completedFrames, s.srv.metrics.failedFrames,
    s.srv.metrics.cancelledFrames, s.tasks.countP Task.inFrame]

theorem Sys.not_addUp {s : Sys} {r c f x n : Nat} (hs : s.frameNumbers = [r, c, f, x, n]) (hne : r ≠ c + f + x + n) :
    ¬ s.AddUp := by
  intro ha
  simp only [frameNumbers, List.cons.injEq, and_true] at hs
  obtain ⟨rfl, rfl, rfl, rfl, rfl⟩ := hs
  exact hne ha

/-- While the reply to a frame request is sent, the request is counted as completed and as
busy; one for a missing output stays counted with no outcome; and one whose reply the
socket refuses is counted as completed and as failed. -/
theorem frames_do_not_add_up :
    (∃ s, Runs.run (Sys.step cancelDaemon Host.plain) replyingLabels codeSys = some s ∧
      s.frameNumbers = [1, 1, 0, 0, 1] ∧ ¬ s.AddUp) ∧
    (∃ s, Runs.run (Sys.step cancelDaemon Host.plain) missingOutputLabels (Sys.init ⟨{}, .empty, []⟩ { startTime := 0 }) = some s ∧
      s.tasks.all Task.finished = true ∧ s.frameNumbers = [1, 0, 0, 0, 0] ∧ ¬ s.AddUp) ∧
    (∃ s, Runs.run (Sys.step cancelDaemon Host.plain) refusedLabels codeSys = some s ∧
      s.tasks.all Task.finished = true ∧ s.frameNumbers = [1, 1, 1, 0, 0] ∧ ¬ s.AddUp) := by
  have hreplying : (Runs.run (Sys.step cancelDaemon Host.plain) replyingLabels codeSys).map Sys.frameNumbers =
      some [1, 1, 0, 0, 1] := by decide +kernel
  have hmissing : (Runs.run (Sys.step cancelDaemon Host.plain) missingOutputLabels
      (Sys.init ⟨{}, .empty, []⟩ { startTime := 0 })).map (fun s => (s.tasks.all Task.finished, s.frameNumbers)) =
        some (true, [1, 0, 0, 0, 0]) := by decide +kernel
  have hrefused : (Runs.run (Sys.step cancelDaemon Host.plain) refusedLabels codeSys).map
      (fun s => (s.tasks.all Task.finished, s.frameNumbers)) = some (true, [1, 1, 1, 0, 0]) := by decide +kernel
  refine ⟨?_, ?_, ?_⟩
  · obtain ⟨s, hr, hs⟩ := Option.map_eq_some_iff.1 hreplying
    exact ⟨s, hr, hs, Sys.not_addUp hs (by decide)⟩
  · obtain ⟨s, hr, hs⟩ := Option.map_eq_some_iff.1 hmissing
    obtain ⟨hover, hs⟩ := Prod.mk.inj hs
    exact ⟨s, hr, hover, hs, Sys.not_addUp hs (by decide)⟩
  · obtain ⟨s, hr, hs⟩ := Option.map_eq_some_iff.1 hrefused
    obtain ⟨hover, hs⟩ := Prod.mk.inj hs
    exact ⟨s, hr, hover, hs, Sys.not_addUp hs (by decide)⟩

end VsRemote
