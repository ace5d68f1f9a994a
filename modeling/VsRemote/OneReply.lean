import VsRemote.PoolJobs
import VsRemote.RunnerSpec
import VsRemote.ReplyMonitor

/-! One reply a request, in every run of the server, where the reply can be encoded. -/

namespace VsRemote

def Task.replies (task : Task) : List (List Bytes) :=
  (task.wire.filter (fun m => m.1 = .reply)).map Prod.snd

/-- A reply the socket has but has not accepted yet. -/
def Task.inFlight (task : Task) : Nat :=
  match task.phase, task.prog with
  | .sent, .call (.send .reply _) _ => 1
  | _, _ => 0

/-- The request a task handles, if its message has the two frames of one. -/
def Task.request? (task : Task) : Option RequestEnvelope :=
  match task.msg with
  | some (identity :: reqIdBytes :: rest) => some (receivedRequest identity reqIdBytes rest)
  | _ => none

/-- The socket takes every message, a clean-up disposes of everything, and the
queries behind the stats succeed. -/
def Benign (s : Sys) : Label → Prop
  | .put _ raises => raises = none
  | .jobRun _ (.teardown w) => w.disposeScript = none ∧ w.disposeEnvironment = none
  | .sync t (.raises _) => ∀ (task : Task) (req : RequestEnvelope), s.tasks[t]? = some task →
    task.request? = some req → req.command ≠ .getStats
  | _ => True

def ReplyCount.of (d : Daemon) (req : RequestEnvelope) (task : Task) : ReplyCount :=
  (replyMonitor d req).run ⟨0, false, false⟩ task.log

/-- All the task was answered for its reply can be encoded. -/
def Task.encodes (d : Daemon) (req : RequestEnvelope) (task : Task) : Bool :=
  task.log.all (fun e => SrvOp.answerEncodes d req e.op e.res)

theorem ReplyCount.of_lost {d : Daemon} {req : RequestEnvelope} {task : Task} :
    (ReplyCount.of d req task).lost = ! task.encodes d req := by
  rw [of, run_lost, Bool.false_or, Task.encodes]

/-- What ties the messages a task has put on the socket to the count along its
coroutine. -/
structure Counted (d : Daemon) (req : RequestEnvelope) (task : Task) : Prop where
  allowed : (replyMonitor d req).Allows ⟨0, false, false⟩ task.log
  requested : task.cancelRequested = true → task.cancelled = true
  delivered : (ReplyCount.of d req task).cancelled = true → task.cancelled = true
  pending : task.cancelled = true → task.cancelRequested = true ∨
    (ReplyCount.of d req task).cancelled = true ∨ task.finished = true
  addressed : ∀ parts ∈ task.replies, ∃ rest, parts = req.identity :: req.reqIdBytes :: rest
  count : (ReplyCount.of d req task).cancelled = false →
    task.replies.length = (ReplyCount.of d req task).replies + task.inFlight
  le : task.replies.length ≤ req.command.replies
  aborted : task.log = [] → task.finished = true → task.cancelled = true

section

variable {d : Daemon} {h : Host} {s : Sys} {t : Nat} {l : Label} {req : RequestEnvelope} {task : Task}
  {o : SrvOp} {k : o.Res → HandlerProg} {r : o.Res}

theorem ReplyCount.of_complete :
    ReplyCount.of d req (task.complete o k r) = (replyMonitor d req).next (ReplyCount.of d req task) o r := by
  simp only [ReplyCount.of, Task.complete_log, Coro.Monitor.run_append]
  rfl

@[simp] theorem ReplyCount.of_clearCancel :
    ReplyCount.of d req task.clearCancel = ReplyCount.of d req task := rfl

@[simp] theorem ReplyCount.of_put {origin : SendOrigin} {parts : List Bytes} :
    ReplyCount.of d req (task.put origin parts) = ReplyCount.of d req task := rfl

@[simp] theorem Task.replies_complete : (task.complete o k r).replies = task.replies := rfl

theorem Task.replies_put_reply (parts : List Bytes) :
    (task.put .reply parts).replies = task.replies ++ [parts] := by
  simp [replies, put]

theorem Task.replies_put {origin : SendOrigin} (ho : origin ≠ .reply) (parts : List Bytes) :
    (task.put origin parts).replies = task.replies := by
  simp [replies, put, ho]

theorem Task.not_finished (hp : task.prog = .call o k) : task.finished = false := by
  simp [finished, hp]

theorem Task.inFlight_ready (hph : task.phase = .ready) : task.inFlight = 0 := by
  simp [inFlight, hph]

theorem Counted.allowed_complete (hc : Counted d req task) (ha : replyAllows req o r) {task' : Task}
    (hl : task'.log = task.log) : (replyMonitor d req).Allows ⟨0, false, false⟩ (task'.complete o k r).log := by
  rw [Task.complete_log, hl, Coro.Monitor.allows_append]
  exact ⟨hc.allowed, ha, trivial⟩

theorem Counted.silent (hc : Counted d req task) (hp : task.prog = .call o k) (hin : task.inFlight = 0)
    (ha : replyAllows req o r) (hn : ∀ g : ReplyCount, g.next o r = g) :
    Counted d req (task.complete o k r) := by
  have hreplies : (ReplyCount.of d req (task.complete o k r)).replies = (ReplyCount.of d req task).replies := by
    rw [ReplyCount.of_complete, next_replies, hn]
  have hcancelled : (ReplyCount.of d req (task.complete o k r)).cancelled = (ReplyCount.of d req task).cancelled := by
    rw [ReplyCount.of_complete, next_cancelled, hn]
  refine ⟨hc.allowed_complete ha rfl, hc.requested, ?_, ?_, hc.addressed, ?_, hc.le, ?_⟩
  · rw [hcancelled]; exact hc.delivered
  · intro hcan
    rw [hcancelled]
    rcases hc.pending hcan with hq | hq | hq
    · exact .inl hq
    · exact .inr (.inl hq)
    · rw [Task.not_finished hp] at hq; cases hq
  · intro hcan
    rw [hcancelled] at hcan
    rw [hreplies, Task.inFlight_ready rfl]
    rw [Task.replies_complete, hc.count hcan, hin]
  · intro hlog
    simp at hlog

theorem Counted.interrupted (hc : Counted d req task) (hq : task.cancelRequested = true)
    (ha : replyAllows req o r) (hn : ∀ g : ReplyCount, g.next o r = { g with cancelled := true }) :
    Counted d req (task.clearCancel.complete o k r) := by
  have hcancelled : (ReplyCount.of d req (task.clearCancel.complete o k r)).cancelled = true := by
    rw [ReplyCount.of_complete, next_cancelled, hn]
  have hcan : task.cancelled = true := hc.requested hq
  refine ⟨hc.allowed_complete ha rfl, (fun hq' => by cases hq'), fun _ => hcan, ?_, hc.addressed, ?_, hc.le, ?_⟩
  · exact fun _ => .inr (.inl hcancelled)
  · intro hf
    rw [hcancelled] at hf
    cases hf
  · intro _ _
    exact hcan

theorem Counted.cancel (hc : Counted d req task) : Counted d req task.cancel := by
  unfold Task.cancel
  split
  · exact hc
  · next hf =>
    refine ⟨hc.allowed, fun _ => rfl, fun _ => rfl, fun _ => .inl rfl, hc.addressed, hc.count, hc.le, ?_⟩
    exact fun _ hfin => rfl

theorem Counted.put {origin : SendOrigin} {parts : List Bytes}
    {k : SrvOp.Res (.send origin parts) → HandlerProg} (hc : Counted d req task)
    (hp : task.prog = .call (.send origin parts) k) (hph : task.phase = .ready)
    (hpre : replyPre req (ReplyCount.of d req task) (.send origin parts)) :
    Counted d req (task.put origin parts) := by
  refine ⟨hc.allowed, hc.requested, hc.delivered, hc.pending, ?_, ?_, ?_, hc.aborted⟩
  · by_cases ho : origin = .reply
    · subst ho
      obtain ⟨hcan, hzero, hdue, rest, rfl⟩ := hpre
      rw [Task.replies_put_reply]
      intro parts hmem
      rcases List.mem_append.1 hmem with hmem | hmem
      · exact hc.addressed parts hmem
      · exact ⟨rest, List.mem_singleton.1 hmem⟩
    · rw [Task.replies_put ho]
      exact hc.addressed
  · intro hcan
    have hcount := hc.count hcan
    rw [Task.inFlight_ready hph] at hcount
    by_cases ho : origin = .reply
    · subst ho
      rw [Task.replies_put_reply, List.length_append, hcount]
      simp [Task.inFlight, Task.put, hp, ReplyCount.of]
    · rw [Task.replies_put ho, hcount]
      have hin : (task.put origin parts).inFlight = 0 := by
        cases origin <;> simp_all [Task.inFlight, Task.put]
      rw [hin, ReplyCount.of_put]
  · by_cases ho : origin = .reply
    · subst ho
      obtain ⟨hcan, hzero, hdue, -⟩ := hpre
      have hcount := hc.count hcan
      rw [Task.inFlight_ready hph, hzero] at hcount
      rw [Task.replies_put_reply, List.length_append, hcount, hdue]
      exact Nat.le_refl 1
    · rw [Task.replies_put ho]
      exact hc.le

theorem Counted.sent {origin : SendOrigin} {parts : List Bytes}
    {k : SrvOp.Res (.send origin parts) → HandlerProg} (hc : Counted d req task)
    (hp : task.prog = .call (.send origin parts) k) (hph : task.phase = .sent) :
    Counted d req (task.complete (.send origin parts) k (.ok ())) := by
  have ha : replyAllows req (.send origin parts) (.ok ()) := Or.inl rfl
  have hcancel : (ReplyCount.of d req (task.complete (.send origin parts) k (.ok ()))).cancelled =
      (ReplyCount.of d req task).cancelled := by
    rw [ReplyCount.of_complete]
    cases origin <;> rfl
  refine ⟨hc.allowed_complete ha rfl, hc.requested, ?_, ?_, hc.addressed, ?_, hc.le, ?_⟩
  · rw [hcancel]; exact hc.delivered
  · intro hcan
    rw [hcancel]
    rcases hc.pending hcan with hq | hq | hq
    · exact .inl hq
    · exact .inr (.inl hq)
    · rw [Task.not_finished hp] at hq; cases hq
  · intro hcan
    rw [hcancel] at hcan
    rw [Task.inFlight_ready rfl, ReplyCount.of_complete]
    have hcount := hc.count hcan
    cases origin with
    | reply => simpa [Task.inFlight, hp, hph, ReplyCount.next] using hcount
    | _ => simpa [Task.inFlight, hp, hph, ReplyCount.next] using hcount
  · intro hlog
    simp at hlog

theorem Counted.pre (hm : EncodesReplies d.msgspec) (htok : d.authToken = none) (hh : task.Handles d)
    (hr : task.request? = some req) (hc : Counted d req task) (hp : task.prog = .call o k) :
    replyPre req (ReplyCount.of d req task) o := by
  unfold Task.request? at hr
  split at hr
  · next identity reqIdBytes rest hmsg =>
    obtain rfl := Option.some.inj hr
    simp only [Task.Handles, hmsg] at hh
    rcases hh with hf | ⟨-, hp'⟩
    · rw [hp] at hf
      exact Coro.pre_follows_call _ (ended_handleRequest hm htok identity reqIdBytes rest) hf hc.allowed
    · rw [hp] at hp'
      cases hp'
  · cases hr

theorem Counted.ended (hm : EncodesReplies d.msgspec) (htok : d.authToken = none) (hh : task.Handles d)
    (hr : task.request? = some req) (hc : Counted d req task) (hf : task.finished = true)
    (hcan : task.cancelled = false) :
    task.replies.length = if task.encodes d req then req.command.replies else 0 := by
  have hnc : (ReplyCount.of d req task).cancelled = false := by
    refine Bool.eq_false_iff.2 (fun hx => ?_)
    rw [hc.delivered hx] at hcan
    cases hcan
  unfold Task.request? at hr
  split at hr
  · next identity reqIdBytes rest hmsg =>
    obtain rfl := Option.some.inj hr
    simp only [Task.Handles, hmsg] at hh
    rcases hh with hfol | ⟨hlog, -⟩
    · cases hp : task.prog with
      | call o k => rw [Task.not_finished hp] at hf; cases hf
      | pure r =>
        rw [hp] at hfol
        have hend := Coro.wp_follows_pure _ (ended_handleRequest hm htok identity reqIdBytes rest) hfol
          hc.allowed
        have hin : task.inFlight = 0 := by simp [Task.inFlight, hp]
        rcases hend with hd | hn
        · exact absurd (hnc.symm.trans hd) Bool.false_ne_true
        · have hn : (ReplyCount.of d (receivedRequest identity reqIdBytes rest) task).replies =
              if (ReplyCount.of d (receivedRequest identity reqIdBytes rest) task).lost then 0
                else (receivedRequest identity reqIdBytes rest).command.replies := hn
          rw [ReplyCount.of_lost] at hn
          rw [hc.count hnc, hin, hn]
          cases task.encodes d (receivedRequest identity reqIdBytes rest) <;> rfl
    · rw [hc.aborted hlog hf] at hcan
      cases hcan
  · cases hr

theorem replyAllows_respond {c : Choice} {srv srv' : ServerState}
    (hr : respond d h t o c srv = some (r, srv')) (hopen : srv.socketOpen = true)
    (hb : (∃ e, c = .raises e) → req.command ≠ .getStats) :
    replyAllows req o r ∧ ∀ g : ReplyCount, g.next o r = g := by
  unfold respond at hr
  split at hr
  all_goals first
    | cases hr; done
    | obtain ⟨rfl, -⟩ := Prod.mk.inj (Option.some.inj hr)
  case h_1 => exact ⟨hopen, fun _ => rfl⟩
  case h_7 q =>
    refine ⟨?_, fun _ => rfl⟩
    cases q with
    | clip i =>
      intro e he
      simp only [RunnerQuery.answer, ScriptRunner.getClip] at he
      split at he
      · cases he
      · obtain rfl := Except.error.inj he
        rfl
    | clipInfo i =>
      intro e he
      simp only [RunnerQuery.answer, ScriptRunner.getClipInfo] at he
      split at he
      · cases he
      · obtain rfl := Except.error.inj he
        rfl
    | _ => trivial
  case h_8 => exact ⟨fun _ => rfl, fun _ => rfl⟩
  case h_9 => exact ⟨fun hst => absurd hst (hb ⟨_, rfl⟩), fun _ => rfl⟩
  case h_10 => exact ⟨fun _ => ⟨_, rfl⟩, fun _ => rfl⟩
  case h_11 => exact ⟨fun hst => absurd hst (hb ⟨_, rfl⟩), fun _ => rfl⟩
  all_goals exact ⟨trivial, fun _ => rfl⟩

def CleanUpsDone (s : Sys) : Prop :=
  ∀ (j : Nat) (pj : PoolJob) (r : Except PyExc Unit), s.jobs[j]? = some pj →
    pj.status = .done (.teardown r) → r = .ok ()

theorem CleanUpsDone.step {s' : Sys} (hd : CleanUpsDone s) (hb : Benign s l)
    (hs : Sys.step d h l s = some s') : CleanUpsDone s' := by
  intro j pj r hj hst
  rcases Sys.step_jobs hs hj with ⟨pj₀, h₀, hstep⟩ | ⟨-, -, hq, -⟩
  · cases hstep with
    | stay => exact hd j pj r h₀ hst
    | drop => cases hst
    | start => cases hst
    | @run _ w outcome runner hr ho =>
      obtain rfl := JobStatus.done.inj hst
      unfold Job.run at ho
      split at ho
      · cases ho
      · next w' =>
        have hok := ScriptRunner.teardown_succeeds (s := s.srv.runner) hb.1 hb.2
        simp only [Option.some.injEq, Prod.mk.injEq, JobOutcome.teardown.injEq] at ho
        rw [← ho.1, hok]
      · cases ho
      · cases ho
      · cases ho
  · rw [hq] at hst
    cases hst

theorem Task.inFlight_answers {c : Choice} {srv srv' : ServerState} (hp : task.prog = .call o k)
    (hr : respond d h t o c srv = some (r, srv')) : task.inFlight = 0 := by
  unfold Task.inFlight
  split
  · next hp' =>
    rw [hp] at hp'
    cases hp'
    unfold respond at hr
    simp at hr
  · rfl

/-- The result of a pool job is no reply and not the handler's own cancellation. -/
theorem Counted.jobDone {job : Job} {k : SrvOp.Res (.runInExecutor job) → HandlerProg} {j : Nat} {pj : PoolJob}
    {outcome : JobOutcome} {r : Except Raised job.Res} (hc : Counted d req task)
    (hp : task.prog = .call (.runInExecutor job) k) (hd : CleanUpsDone s) (hj : s.jobs[j]? = some pj)
    (hst : pj.status = .done outcome) (hres : outcome.result job = some r) :
    Counted d req (task.complete (.runInExecutor job) k r) := by
  have hraised : ∀ {α : Type} (x : Except PyExc α), raised x ≠ .error .cancelled := by
    intro α x
    cases x <;> simp [raised]
  refine hc.silent hp (by simp [Task.inFlight, hp]) ?_ ?_
  · cases job with
    | teardown =>
      cases outcome with
      | teardown r' =>
        obtain rfl := hd j pj r' hj hst
        obtain rfl := Option.some.inj hres
        exact Or.inl rfl
      | _ => cases hres
    | _ => trivial
  · intro g
    have hne : r ≠ .error .cancelled := by
      cases outcome <;> cases job <;> cases hres <;> exact hraised _
    match r, hne with
    | .ok _, _ => rfl
    | .error (.exc _), _ => rfl
    | .error .cancelled, hne => exact absurd rfl hne

theorem Counted.abort (hc : Counted d req task) (hph : task.phase = .ready) (hq : task.cancelRequested = true) :
    Counted d req task.abort := by
  have hcan : task.cancelled = true := hc.requested hq
  refine ⟨hc.allowed, (fun hq' => by cases hq'), hc.delivered, fun _ => .inr (.inr rfl), hc.addressed, ?_,
    hc.le, fun _ _ => hcan⟩
  intro hf
  have hcount := hc.count hf
  have hin : task.abort.inFlight = 0 := Task.inFlight_ready hph
  rw [Task.inFlight_ready hph] at hcount
  rw [hin]
  exact hcount

theorem Counted.step {task' : Task} (hm : EncodesReplies d.msgspec) (htok : d.authToken = none)
    (hh : task.Handles d) (hr : task.request? = some req) (hc : Counted d req task) (hb : Benign s l)
    (ht : s.tasks[t]? = some task) (hopen : task.finished = false → s.srv.socketOpen = true)
    (hd : CleanUpsDone s) (hs : TaskStep d h s t l task task') : Counted d req task' := by
  cases hs with
  | stay => exact hc
  | cancel => exact hc.cancel
  | @sync _ task₁ c o k r srv hp hresp hcan =>
    have hraises : (∃ e, c = .raises e) → req.command ≠ .getStats := by
      rintro ⟨e, rfl⟩
      exact hb task req ht hr
    obtain ⟨hallow, hnext⟩ := replyAllows_respond hresp (hopen (Task.not_finished hp)) hraises
    have hin := Task.inFlight_answers hp hresp
    rcases hcan with rfl | ⟨rfl, -⟩
    · exact hc.silent hp hin hallow hnext
    · refine hc.cancel.silent (by rwa [Task.cancel_prog]) ?_ hallow hnext
      simpa [Task.inFlight] using hin
  | submit hp hph =>
    refine ⟨hc.allowed, hc.requested, hc.delivered, hc.pending, hc.addressed, ?_, hc.le, hc.aborted⟩
    intro hcan
    have hcount := hc.count hcan
    rw [Task.inFlight_ready hph] at hcount
    exact hcount
  | @frame _ clip n k r hp _ =>
    refine hc.silent hp (by simp [Task.inFlight, hp]) trivial ?_
    intro g
    cases r <;> rfl
  | put hp hph _ => exact hc.put hp hph (hc.pre hm htok hh hr hp)
  | putRaises => cases hb
  | sent hp hph _ => exact hc.sent hp hph
  | jobDone hp _ _ hj hst hres => exact hc.jobDone hp hd hj hst hres
  | awaitCancelled hp hq => exact hc.interrupted hq trivial (fun g => rfl)
  | @sendCancelled _ origin parts k hp hq =>
    have ha : replyAllows req (.send origin parts) (.error .cancelled) := Or.inr rfl
    refine hc.interrupted hq ha (fun g => ?_)
    cases origin <;> rfl
  | @jobCancelled _ job k j hp hph hq =>
    have ha : replyAllows req (.runInExecutor job) (.error .cancelled) := by
      cases job with
      | teardown => exact Or.inr rfl
      | _ => trivial
    exact hc.interrupted hq ha (fun g => rfl)
  | abort hp hph hl hq => exact hc.abort hph hq

theorem Counted.fresh (hf : Fresh d task) (hr : task.request? = some req) : Counted d req task := by
  cases hf with
  | broadcast => cases hr
  | request msg =>
    refine ⟨trivial, (fun hq => by cases hq), (fun hq => by cases hq), (fun hq => by cases hq), ?_,
      fun _ => rfl, Nat.zero_le _, fun _ hfin => by cases hfin⟩
    intro parts hmem
    cases hmem

structure Counting (d : Daemon) (s : Sys) : Prop where
  handled : s.Handled d
  life : s.Lifecycle
  cleanUps : CleanUpsDone s
  counted : ∀ (i : Nat) (task : Task) (req : RequestEnvelope), s.tasks[i]? = some task →
    task.request? = some req → Counted d req task

theorem TaskStep.request_eq {task' : Task} (hs : TaskStep d h s t l task task') :
    task'.request? = task.request? := by
  rw [Task.request?, Task.request?, hs.msg_eq]

theorem Counting.step {s' : Sys} (hm : EncodesReplies d.msgspec) (htok : d.authToken = none)
    (hi : Counting d s) (hb : Benign s l) (hs : Sys.step d h l s = some s') : Counting d s' := by
  refine ⟨hi.handled.step hs, hi.life.step hs, hi.cleanUps.step hb hs, ?_⟩
  intro i task' req ht' hr
  rcases Sys.step_trans hs ht' with ⟨task, ht, hstep⟩ | ⟨-, -, hf⟩
  · rw [hstep.request_eq] at hr
    have hopen : task.finished = false → s.srv.socketOpen = true := by
      intro hfin
      by_contra hclosed
      have hshut := hi.life.socket (by simpa using hclosed)
      rw [hi.life.finished hshut i task ht] at hfin
      cases hfin
    exact (hi.counted i task req ht hr).step hm htok (hi.handled i task ht) hr hb ht hopen hi.cleanUps hstep
  · exact Counted.fresh hf hr

theorem Counting.init (runner : RunnerState) (metrics : ServerMetricsCollector) :
    Counting d (Sys.init runner metrics) := by
  refine ⟨?_, Sys.lifecycle_init runner metrics, ?_, ?_⟩
  · intro i task ht
    cases ht
  · intro j pj r hj
    cases hj
  · intro i task req ht
    cases ht

theorem Counting.run {ls : List Label} {s' : Sys} (hm : EncodesReplies d.msgspec) (htok : d.authToken = none)
    (hi : Counting d s) (hg : Runs.Guarded (Sys.step d h) Benign ls s)
    (hr : Runs.run (Sys.step d h) ls s = some s') : Counting d s' :=
  hg.inv (fun _ _ _ hi hb hs => hi.step hm htok hb hs) hi hr

theorem TaskStep.replies_eq {task' : Task} (hm : EncodesReplies d.msgspec) (htok : d.authToken = none)
    (hh : task.Handles d) (hr : task.request? = some req) (hc : Counted d req task)
    (hcan : task.cancelled = true) (hs : TaskStep d h s t l task task') :
    task'.replies = task.replies ∧ task'.cancelled = true := by
  cases hs with
  | cancel =>
    unfold Task.cancel
    split
    · exact ⟨rfl, hcan⟩
    · exact ⟨rfl, rfl⟩
  | sync _ _ hcase =>
    rcases hcase with rfl | ⟨rfl, -⟩
    · exact ⟨rfl, hcan⟩
    · unfold Task.cancel
      split
      · exact ⟨rfl, hcan⟩
      · exact ⟨rfl, rfl⟩
  | @put _ origin parts k hp _ hq =>
    have hpre := hc.pre hm htok hh hr hp
    rcases hc.pending hcan with hx | hx | hx
    · rw [hq] at hx
      cases hx
    · cases origin with
      | reply => exact absurd hpre.1 (by simp [hx])
      | _ => exact absurd (show (ReplyCount.of d req task).cancelled = false from hpre) (by simp [hx])
    · rw [Task.not_finished hp] at hx
      cases hx
  | _ => exact ⟨rfl, hcan⟩

/-- A cancelled task has put its last reply on the socket. -/
structure Silenced (d : Daemon) (t : Nat) (req : RequestEnvelope) (replies : List (List Bytes)) (s : Sys) :
    Prop where
  counting : Counting d s
  present : t < s.tasks.length
  silent : ∀ task : Task, s.tasks[t]? = some task →
    task.request? = some req ∧ task.cancelled = true ∧ task.replies = replies

theorem Silenced.step {s' : Sys} {replies : List (List Bytes)} (hm : EncodesReplies d.msgspec)
    (htok : d.authToken = none) (hi : Silenced d t req replies s) (hb : Benign s l)
    (hs : Sys.step d h l s = some s') : Silenced d t req replies s' := by
  refine ⟨hi.counting.step hm htok hb hs, Nat.lt_of_lt_of_le hi.present (Sys.step_length hs), ?_⟩
  intro task' ht'
  rcases Sys.step_trans hs ht' with ⟨task, ht, hstep⟩ | ⟨hlen, -, -⟩
  · obtain ⟨hreq, hcan, hrep⟩ := hi.silent task ht
    have hcounted := hi.counting.counted t task req ht hreq
    obtain ⟨hsame, hcan'⟩ := hstep.replies_eq hm htok (hi.counting.handled t task ht) hreq hcounted hcan
    exact ⟨hstep.request_eq.trans hreq, hcan', hsame.trans hrep⟩
  · exact absurd hi.present (by omega)

end

/-- In every run of a server without a token whose socket, clean-ups and stats
queries succeed and whose error texts and headers can be encoded, a task that handles a
message of at least two frames puts at most one reply on the socket, and it carries the
message's identity and id bytes; none for CANCEL_REQUEST; none after it was cancelled; and
where it has ended without being cancelled it has sent one exactly if the outputs, the clip
info or the stats it has read for its reply can be encoded. -/
theorem one_reply {d : Daemon} {h : Host} (hm : EncodesReplies d.msgspec) (htok : d.authToken = none)
    {runner : RunnerState} {metrics : ServerMetricsCollector} {ls : List Label} {s : Sys}
    (hg : Runs.Guarded (Sys.step d h) Benign ls (Sys.init runner metrics))
    (hr : Runs.run (Sys.step d h) ls (Sys.init runner metrics) = some s)
    {t : Nat} {task : Task} (ht : s.tasks[t]? = some task)
    {identity reqIdBytes : Bytes} {rest : List Bytes}
    (hmsg : task.msg = some (identity :: reqIdBytes :: rest)) :
    (∀ parts ∈ task.replies, ∃ tail, parts = identity :: reqIdBytes :: tail) ∧
    task.replies.length ≤ 1 ∧
    ((receivedRequest identity reqIdBytes rest).command = .cancelRequest → task.replies = []) ∧
    ((receivedRequest identity reqIdBytes rest).command ≠ .cancelRequest → task.finished = true →
      task.cancelled = false →
      (task.replies.length = 1 ↔ task.encodes d (receivedRequest identity reqIdBytes rest) = true)) ∧
    (task.cancelled = true → ∀ (ls' : List Label) (s' : Sys), Runs.Guarded (Sys.step d h) Benign ls' s →
      Runs.run (Sys.step d h) ls' s = some s' → ∀ task' : Task, s'.tasks[t]? = some task' →
        task'.replies = task.replies) := by
  have hi : Counting d s := (Counting.init runner metrics).run hm htok hg hr
  have hreq : task.request? = some (receivedRequest identity reqIdBytes rest) := by
    simp [Task.request?, hmsg]
  have hc := hi.counted t task _ ht hreq
  obtain ⟨hident, hbytes⟩ := receivedRequest_identity identity reqIdBytes rest
  have hle : (receivedRequest identity reqIdBytes rest).command.replies ≤ 1 := by
    unfold Command.replies
    split <;> omega
  refine ⟨?_, ?_, ?_, ?_, ?_⟩
  · intro parts hmem
    obtain ⟨tail, heq⟩ := hc.addressed parts hmem
    exact ⟨tail, by rw [heq, hident, hbytes]⟩
  · exact Nat.le_trans hc.le hle
  · intro hcan
    have hnone := hc.le
    rw [hcan] at hnone
    exact List.length_eq_zero_iff.1 (Nat.le_zero.1 hnone)
  · intro hne hfin hcan
    have hdue : (receivedRequest identity reqIdBytes rest).command.replies = 1 := by
      unfold Command.replies
      split
      · next hcmd => exact absurd hcmd hne
      · rfl
    rw [hc.ended hm htok (hi.handled t task ht) hreq hfin hcan, hdue]
    cases task.encodes d (receivedRequest identity reqIdBytes rest) <;> simp
  · intro hcan ls' s' hg' hr' task' ht'
    have hsil : Silenced d t (receivedRequest identity reqIdBytes rest) task.replies s := by
      refine ⟨hi, (List.getElem?_eq_some_iff.1 ht).1, ?_⟩
      intro task₀ h₀
      rw [ht] at h₀
      obtain rfl := Option.some.inj h₀
      exact ⟨hreq, hcan, rfl⟩
    have hend : Silenced d t (receivedRequest identity reqIdBytes rest) task.replies s' :=
      hg'.inv (fun _ _ _ hi hb hs => hi.step hm htok hb hs) hsil hr'
    exact (hend.silent task' ht').2.2

def pingLabels : List Label :=
  [.recv [[7], [0, 0, 0, 5], [1]], .sync 0 .ok, .sync 0 .ok, .sync 0 (.time 0), .put 0 none, .resume 0,
    .sync 0 (.time 0), .sync 0 .ok]

def pingDaemon : Daemon := { msgspec := ⟨fun _ => .ok [], fun _ => .error ""⟩ }

theorem one_reply_ping :
    ∃ s task, Runs.run (Sys.step pingDaemon Host.plain) pingLabels
        (Sys.init ⟨{}, .empty, []⟩ { startTime := 0 }) = some s ∧
      s.tasks[0]? = some task ∧ task.finished = true ∧ task.replies.length = 1 := by
  obtain ⟨s, task, hr, ht, hmsg, hfin, hcan, hencodes⟩ :
      ∃ s task, Runs.run (Sys.step pingDaemon Host.plain) pingLabels
          (Sys.init ⟨{}, .empty, []⟩ { startTime := 0 }) = some s ∧
        s.tasks[0]? = some task ∧ task.msg = some [[7], [0, 0, 0, 5], [1]] ∧ task.finished = true ∧
        task.cancelled = false ∧ task.encodes pingDaemon (receivedRequest [7] [0, 0, 0, 5] [[1]]) = true :=
    ⟨_, _, rfl, rfl, rfl, rfl, rfl, rfl⟩
  have hm : EncodesReplies pingDaemon.msgspec := ⟨fun _ => ⟨[], rfl⟩, fun _ => ⟨[], rfl⟩⟩
  have hg : Runs.Guarded (Sys.step pingDaemon Host.plain) Benign pingLabels
      (Sys.init ⟨{}, .empty, []⟩ { startTime := 0 }) := by
    refine Runs.Guarded.of_mem (fun l hl s => ?_)
    simp only [pingLabels, List.mem_cons, List.not_mem_nil, or_false] at hl
    rcases hl with rfl | rfl | rfl | rfl | rfl | rfl | rfl | rfl <;> trivial
  have hone := one_reply hm rfl hg hr ht hmsg
  exact ⟨s, task, hr, ht, hfin, (hone.2.2.2.1 (by decide) hfin hcan).2 hencodes⟩

/-- A codec that refuses a list of outputs whose first index is too large. -/
def indexDaemon : Daemon where
  msgspec := {
    encode
      | .array (.map ((_, .int n) :: _) :: _) =>
        if n < 18446744073709551616 then .ok [0x90]
        else .error (.ofText .overflowError "can't serialize ints >= 2**64")
      | _ => .ok [0x90]
    decode _ := .error "" }

/-- The output of a runner made of clips by `from_clips`. -/
def indexItem (index : Int) : OutputItem where
  index := index
  name := "Output " ++ toString index
  info := ⟨2, 2, 24, 1, 1, 268959744, "Gray8", 1, 1, 8, 0, 0, 0, 1, [⟨2, 2, 1, 4⟩], "Output " ++ toString index⟩

def listLabels : List Label :=
  [.recv [[7], [0, 0, 0, 5], [2]], .sync 0 .ok, .sync 0 .ok, .sync 0 (.time 0), .sync 0 .ok, .sync 0 (.time 0), .sync 0 .ok]

/-- LIST_OUTPUTS to a runner made of clips of which one has the index 2^64: the handler
ends with the encoder's `OverflowError`, and no reply is sent. -/
theorem unencodable_outputs_unanswered :
    EncodesReplies indexDaemon.msgspec ∧ indexDaemon.authToken = none ∧
      Runs.Guarded (Sys.step indexDaemon Host.plain) Benign listLabels
        (Sys.init ⟨{ outputItems := [indexItem 18446744073709551616] }, .empty, []⟩ { startTime := 0 }) ∧
      ∃ s task, Runs.run (Sys.step indexDaemon Host.plain) listLabels
          (Sys.init ⟨{ outputItems := [indexItem 18446744073709551616] }, .empty, []⟩ { startTime := 0 }) = some s ∧
        s.tasks[0]? = some task ∧ task.msg = some [[7], [0, 0, 0, 5], [2]] ∧
        (receivedRequest [7] [0, 0, 0, 5] [[2]]).command = .listOutputs ∧ task.finished = true ∧
        task.cancelled = false ∧ task.replies = [] := by
  refine ⟨⟨fun _ => ⟨[0x90], rfl⟩, fun _ => ⟨[0x90], rfl⟩⟩, rfl, Runs.Guarded.of_mem (fun l hl s => ?_), ?_⟩
  · simp only [listLabels, List.mem_cons, List.not_mem_nil, or_false] at hl
    rcases hl with rfl | rfl | rfl | rfl | rfl | rfl | rfl <;> trivial
  · exact ⟨_, _, rfl, rfl, rfl, rfl, rfl, rfl, rfl⟩

end VsRemote
