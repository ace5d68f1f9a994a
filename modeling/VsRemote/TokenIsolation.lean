import VsRemote.HandlerKeeps
import VsRemote.PoolJobs
import VsRemote.Lib.Filtered
import VsRemote.TokenCheck
import VsRemote.LoadRace
import VsRemote.Quiescence

/-! A run of the server beside the run without the messages that are malformed
or do not carry the token. -/

namespace VsRemote

open Handler

/-- The message is well formed and carries the token of the server. -/
def Daemon.authentic (d : Daemon) (msg : List Bytes) : Bool :=
  match RequestEnvelope.fromFrames msg with
  | .ok req => req.authToken = d.authToken
  | .error _ => false

/-- The task does not handle a message without the token. -/
def Task.authentic (d : Daemon) (task : Task) : Bool :=
  match task.msg with
  | some msg => d.authentic msg
  | none => true

def Label.task : Label → Option Nat
  | .sync t _ => some t
  | .submit t => some t
  | .frame t _ => some t
  | .put t _ => some t
  | .resume t => some t
  | .cancelled t => some t
  | _ => none

def Label.withTask : Label → Nat → Label
  | .sync _ c, t => .sync t c
  | .submit _, t => .submit t
  | .frame _ r, t => .frame t r
  | .put _ raises, t => .put t raises
  | .resume _, t => .resume t
  | .cancelled _, t => .cancelled t
  | l, _ => l

namespace Sys

/-- The step without the messages that are not authentic: receiving one is left
out, and so is every step of the task that handles it; the other tasks are renumbered. -/
def authenticLabel (d : Daemon) (s : Sys) : Label → Option Label
  | .recv msg => if d.authentic msg then some (.recv msg) else none
  | l =>
    match l.task with
    | some t => (Filtered.index? (Task.authentic d) s.tasks t).map l.withTask
    | none => some l

/-- Once `stop()` has begun, a message is received only if it carries the token, and
only while `stop()` waits for the handler of another such message or for a broadcast. -/
def undisturbed (d : Daemon) (s : Sys) : Label → Bool
  | .recv msg => ! s.stopping || (d.authentic msg && s.tasks.any (fun task => task.authentic d && ! task.finished))
  | _ => true

/-- What the step puts on the socket. -/
def puts (s : Sys) : Label → Option (SendOrigin × List Bytes)
  | .put t none =>
    match s.tasks[t]? with
    | some task =>
      match task.prog with
      | .call (.send origin parts) _ => some (origin, parts)
      | _ => none
    | none => none
  | _ => none

end Sys

/-- The runner with its stores, environment, script and script path, the
subscribers and the metrics are the same, the in-flight table has the same keys
for the same handlers, and the handlers of the other messages stand where they stood. -/
structure SameService (d : Daemon) (s u : Sys) : Prop where
  runner : u.srv.runner = s.srv.runner
  subscribers : u.srv.subscribers = s.srv.subscribers
  metrics : u.srv.metrics = s.srv.metrics
  inflightKeys : u.srv.inflight.keys = s.srv.inflight.keys
  inflight : ∀ key t, s.srv.inflight.get? key = some t →
    ∃ t' task, u.srv.inflight.get? key = some t' ∧ s.tasks[t]? = some task ∧ u.tasks[t']? = some task
  tasks : u.tasks = s.tasks.filter (Task.authentic d)

/-- The service is the same, and where nothing is left to do, nothing is left to do
without the messages either. -/
structure SameEffect (d : Daemon) (h : Host) (s u : Sys) : Prop where
  service : SameService d s u
  rest : s.AtRest d h → u.AtRest d h

/-! ## The handler of a message without the token -/

/-- A handler that only looks whether the socket is open and replies. -/
def silentMonitor : Coro.Monitor srvSig Unit where
  pre
    | _, .socketOpen => True
    | _, .send .reply _ => True
    | _, _ => False
  allows _ _ _ := True
  next _ _ _ := ()

section

variable {d : Daemon} {token : PyStr}

theorem token_of_not_refused {requestToken : Option PyStr}
    (h : tokenRefused (some token) requestToken = .ok false) : requestToken = some token := by
  cases requestToken with
  | none => cases h
  | some t =>
    simp only [tokenRefused] at h
    split at h
    · cases h
    · simp only [compareDigest] at h
      split at h
      · have heq : t = token := by simpa [Except.map] using h
        rw [heq]
      · cases h

theorem silent_handleRequest (hd : d.authToken = some token) {msg : List Bytes} (hmsg : d.authentic msg = false) :
    Keeps silentMonitor () (handleRequest d msg) := by
  have herror : ∀ req status message, Keeps silentMonitor () (sendErrorText d req status message) :=
    fun _ _ _ => .bind (.ofExcept _) (fun _ => ⟨trivial, fun _ _ => rfl⟩)
  refine .bind (.lift trivial (fun _ _ => rfl)) (fun isOpen => .ite (.pure ()) ?_)
  cases hreq : RequestEnvelope.fromFrames msg with
  | error err =>
    simp only [handleMessage, hreq]
    split
    · exact herror _ _ _
    · exact .pure ()
  | ok req =>
    cases htoken : tokenRefused d.authToken req.authToken with
    | error e =>
      rw [handleMessage_of_tokenError hreq htoken]
      exact .throw _
    | ok refused =>
      rw [handleMessage_of_tokenRefused hreq htoken]
      cases refused with
      | true => exact herror _ _ _
      | false =>
        rw [hd] at htoken
        simp [Daemon.authentic, hreq, hd, token_of_not_refused htoken] at hmsg

theorem Task.Handles.pre_silent (hd : d.authToken = some token) {task : Task} (hh : task.Handles d)
    (hnot : task.authentic d = false) {o : SrvOp} {k : o.Res → HandlerProg} (hp : task.prog = .call o k) :
    silentMonitor.pre () o := by
  have hwp := hh.wp_log (M := silentMonitor) (g := ()) (fun _ _ _ => trivial) (fun msg hmsg => ?_) (fun hmsg => ?_)
  · rw [hp] at hwp
    exact hwp.1
  · refine silent_handleRequest hd ?_
    simpa only [Task.authentic, hmsg] using hnot
  · simp [Task.authentic, hmsg] at hnot

end

/-! ## The state without the other messages -/

@[simp] theorem Task.authentic_complete (d : Daemon) (task : Task) (o : SrvOp) (k : o.Res → HandlerProg) (r : o.Res) :
    (task.complete o k r).authentic d = task.authentic d := rfl

@[simp] theorem Task.authentic_cancel (d : Daemon) (task : Task) : task.cancel.authentic d = task.authentic d := by
  simp only [Task.authentic, Task.cancel_msg]

theorem respond_mapped {d : Daemon} {h : Host} {t : Nat} {o : SrvOp} {c : Choice} {srv srv' : ServerState} {r : o.Res}
    (f : Nat → Nat) (hr : respond d h t o c srv = some (r, srv')) :
    respond d h (f t) o c { srv with inflight := srv.inflight.mapValues f } =
      some (r, { srv' with inflight := srv'.inflight.mapValues f }) := by
  unfold respond at hr
  split at hr
  all_goals first
    | cases hr; done
    | (obtain ⟨rfl, rfl⟩ := Prod.mk.inj (Option.some.inj hr)
       simp only [respond, OrderedDict.mapValues_set, OrderedDict.mapValues_erase, OrderedDict.size_mapValues])

theorem respond_inflight {d : Daemon} {h : Host} {t : Nat} {o : SrvOp} {c : Choice} {srv srv' : ServerState} {r : o.Res}
    (hr : respond d h t o c srv = some (r, srv')) {key : Bytes × Nat} {v : Nat}
    (hv : srv'.inflight.get? key = some v) : srv.inflight.get? key = some v ∨ (v = t ∧ ∃ key, o = .inflightSet key) := by
  rw [respond_table hr] at hv
  cases o with
  | inflightSet key' =>
    rw [SrvOp.tableAfter, OrderedDict.get?_set] at hv
    split at hv
    · exact .inr ⟨(Option.some.inj hv).symm, key', rfl⟩
    · exact .inl hv
  | inflightPop key' => exact .inl (OrderedDict.get?_of_get?_erase hv).2
  | _ => exact .inl hv

namespace Sys

def rank (d : Daemon) (s : Sys) : Nat → Nat := Filtered.rank (Task.authentic d) s.tasks

def without (d : Daemon) (s : Sys) : Sys :=
  { s with
    srv := { s.srv with inflight := s.srv.inflight.mapValues (Filtered.rank (Task.authentic d) s.tasks) }
    tasks := s.tasks.filter (Task.authentic d)
    jobs := s.jobs.map (fun pj => { pj with owner := Filtered.rank (Task.authentic d) s.tasks pj.owner })
    loop := s.loop.bind (Filtered.index? (Task.authentic d) s.tasks) }

variable {d : Daemon} {h : Host} {s s' : Sys} {l : Label} {t : Nat} {task : Task}

section

variable (ht : s.tasks[t]? = some task) (ha : task.authentic d = true)

include ht ha

theorem without_task : (s.without d).tasks[s.rank d t]? = some task := Filtered.getElem?_rank ht ha

theorem without_free (hf : s.free t = true) : (s.without d).free (s.rank d t) = true := by
  simp only [free, decide_eq_true_eq] at hf ⊢
  rcases hf with hf | hf
  · exact .inl (by simp only [without, hf, Option.bind_none])
  · exact .inr (by simp only [without, hf, Option.bind_some, Filtered.index?_of_pos ht ha, rank])

theorem without_modifyTask {f : Task → Task} (hf : ∀ task, (f task).authentic d = task.authentic d) :
    (s.modifyTask t f).without d = (s.without d).modifyTask (s.rank d t) f := by
  have hmap : (s.tasks.modify t _).map (Task.authentic d) = _ := Filtered.map_modify hf
  have hfilter := Filtered.filter_modify ht ha ((hf task).trans ha)
  simp only [modifyTask, without, rank, Filtered.rank_congr hmap, Filtered.index?_congr hmap, hfilter]

theorem without_advance (o : SrvOp) (k : o.Res → HandlerProg) (r : o.Res) :
    (s.advance t o k r).without d = (s.without d).advance (s.rank d t) o k r := by
  have hf : ∀ task : Task, (task.complete o k r).authentic d = task.authentic d := fun _ => rfl
  have hmap : (s.tasks.modify t _).map (Task.authentic d) = _ := Filtered.map_modify hf
  have hfilter := Filtered.filter_modify (f := fun task => task.complete o k r) ht ha ha
  have hloop : (holder t (k r)).bind (Filtered.index? (Task.authentic d) s.tasks) = holder (s.rank d t) (k r) := by
    cases k r with
    | pure a => rfl
    | call o' k' =>
      simp only [holder]
      split
      · rfl
      · exact Filtered.index?_of_pos ht ha
  simp only [advance, modifyTask, without, rank, Filtered.rank_congr hmap, Filtered.index?_congr hmap, hfilter, hloop]

end

section

variable (ht : s.tasks[t]? = some task) (ha : task.authentic d = false)

include ht ha

theorem without_modifyTask_of_not {f : Task → Task} (hf : ∀ task, (f task).authentic d = task.authentic d) :
    (s.modifyTask t f).without d = s.without d := by
  have hmap : (s.tasks.modify t _).map (Task.authentic d) = _ := Filtered.map_modify hf
  have hfilter := Filtered.filter_modify_of_not ht ha ((hf task).trans ha)
  simp only [modifyTask, without, Filtered.rank_congr hmap, Filtered.index?_congr hmap, hfilter]

theorem without_advance_of_not (hfree : s.free t = true) (o : SrvOp) (k : o.Res → HandlerProg) (r : o.Res) :
    (s.advance t o k r).without d = s.without d := by
  have hf : ∀ task : Task, (task.complete o k r).authentic d = task.authentic d := fun _ => rfl
  have hmap : (s.tasks.modify t _).map (Task.authentic d) = _ := Filtered.map_modify hf
  have hfilter := Filtered.filter_modify_of_not (f := fun task => task.complete o k r) ht ha ha
  have hindex := Filtered.index?_of_neg ht ha
  have hloop : (holder t (k r)).bind (Filtered.index? (Task.authentic d) s.tasks) =
      s.loop.bind (Filtered.index? (Task.authentic d) s.tasks) := by
    have hnone : s.loop.bind (Filtered.index? (Task.authentic d) s.tasks) = none := by
      simp only [free, decide_eq_true_eq] at hfree
      rcases hfree with hfree | hfree
      · rw [hfree]
        rfl
      · rw [hfree]
        exact hindex
    rw [hnone]
    cases k r with
    | pure a => rfl
    | call o' k' =>
      simp only [holder]
      split
      · rfl
      · exact hindex
  simp only [advance, modifyTask, without, Filtered.rank_congr hmap, Filtered.index?_congr hmap, hfilter, hloop]

end

/-- The in-flight table names handlers of authentic messages, and jobs have owners. -/
structure Known (d : Daemon) (s : Sys) : Prop where
  inflight : ∀ key t, s.srv.inflight.get? key = some t → ∃ task, s.tasks[t]? = some task ∧ task.authentic d = true
  owners : ∀ (j : Nat) (pj : PoolJob), s.jobs[j]? = some pj → pj.owner < s.tasks.length

theorem sideEffect_map (o : SrvOp) :
    (s.sideEffect o).tasks.map (Task.authentic d) = s.tasks.map (Task.authentic d) := by
  unfold sideEffect
  split
  · unfold cancelTask
    split
    · split
      · exact Filtered.map_modify (Task.authentic_cancel d)
      · rfl
    · rfl
  · rfl
  · split <;> rfl
  · rfl

theorem without_sideEffect (hk : Known d s) (o : SrvOp) : (s.sideEffect o).without d = (s.without d).sideEffect o := by
  cases o with
  | inflightCancel key =>
    obtain ⟨identity, reqId⟩ := key
    cases reqId with
    | negSucc n => rfl
    | ofNat n =>
      have hget := OrderedDict.get?_mapValues (s.rank d) s.srv.inflight (identity, n)
      cases hfound : s.srv.inflight.get? (identity, n) with
      | none =>
        rw [hfound, Option.map_none] at hget
        have hget' : (s.without d).srv.inflight.get? (identity, n) = none := hget
        simp only [sideEffect, cancelTask, hfound, hget']
      | some t =>
        rw [hfound, Option.map_some] at hget
        have hget' : (s.without d).srv.inflight.get? (identity, n) = some (s.rank d t) := hget
        obtain ⟨task, ht, ha⟩ := hk.inflight _ t hfound
        simp only [sideEffect, cancelTask, hfound, hget']
        exact without_modifyTask ht ha (Task.authentic_cancel d)
  | runner q =>
    simp only [sideEffect]
    by_cases hq : q.answered s.srv.runner.runner = true
    · have hq' : q.answered (s.without d).srv.runner.runner = true := hq
      rw [if_pos hq, if_pos hq']
      rfl
    · have hq' : ¬ q.answered (s.without d).srv.runner.runner = true := hq
      rw [if_neg hq, if_neg hq']
  | _ => rfl

theorem without_job {j : Nat} {pj : PoolJob} (hj : s.jobs[j]? = some pj) :
    (s.without d).jobs[j]? = some { pj with owner := s.rank d pj.owner } := by
  simp only [without, List.getElem?_map, hj, Option.map_some, rank]

theorem without_setStatus (j : Nat) (status : JobStatus) :
    (s.setStatus j status).without d = (s.without d).setStatus j status := by
  have hjobs : (s.jobs.modify j (fun pj => { pj with status := status })).map
        (fun pj => { pj with owner := Filtered.rank (Task.authentic d) s.tasks pj.owner }) =
      (s.jobs.map (fun pj => { pj with owner := Filtered.rank (Task.authentic d) s.tasks pj.owner })).modify j
        (fun pj => { pj with status := status }) := by
    refine List.ext_getElem? (fun i => ?_)
    simp only [List.getElem?_map, List.getElem?_modify]
    cases s.jobs[i]? with
    | none => rfl
    | some pj => by_cases hij : j = i <;> simp [hij]
  simp only [setStatus, without, hjobs]

theorem without_dropQueued (j : Nat) : (s.dropQueued j).without d = (s.without d).dropQueued j := by
  cases hj : s.jobs[j]? with
  | none =>
    have hj' : (s.without d).jobs[j]? = none := by simp only [without, List.getElem?_map, hj, Option.map_none]
    simp only [dropQueued, hj, hj']
  | some pj =>
    have hj' := without_job (d := d) hj
    obtain ⟨job, owner, status⟩ := pj
    cases status with
    | queued =>
      simp only [dropQueued, hj, hj']
      exact without_setStatus j .dropped
    | _ => simp only [dropQueued, hj, hj']

/-! ## The steps that are kept -/

section

variable (ht : s.tasks[t]? = some task) (ha : task.authentic d = true)

include ht ha

theorem keep_sync (hk : Known d s) {c : Choice} (hs : stepSync d h t c s = some s') :
    stepSync d h (s.rank d t) c (s.without d) = some (s'.without d) := by
  have ht' := without_task ht ha
  simp only [stepSync, ht, ht', Option.bind_eq_bind, Option.bind_some] at hs ⊢
  cases hp : task.prog with
  | pure r => simp only [hp] at hs; cases hs
  | call o k =>
    simp only [hp] at hs ⊢
    split at hs
    · next hfree =>
      obtain ⟨⟨r, srv⟩, hr, hs⟩ := Option.bind_eq_some_iff.1 hs
      obtain rfl := Option.some.inj hs
      have hresp : respond d h (s.rank d t) o c (s.without d).srv =
          some (r, { srv with inflight := srv.inflight.mapValues (s.rank d) }) := respond_mapped (s.rank d) hr
      rw [if_pos (without_free ht ha hfree), hresp, Option.bind_some]
      have hmap := sideEffect_map (d := d) (s := s) o
      obtain ⟨task₁, h₁, ha₁⟩ : ∃ task₁, (s.sideEffect o).tasks[t]? = some task₁ ∧ task₁.authentic d = true := by
        have hget : ((s.sideEffect o).tasks.map (Task.authentic d))[t]? = some true := by
          rw [hmap, List.getElem?_map, ht, Option.map_some, ha]
        rw [List.getElem?_map] at hget
        exact Option.map_eq_some_iff.1 hget
      have hadvance := without_advance (s := { s.sideEffect o with srv := srv }) h₁ ha₁ o k r
      have hrank : rank d { s.sideEffect o with srv := srv } = s.rank d := Filtered.rank_congr hmap
      have hside : ({ s.sideEffect o with srv := srv } : Sys).without d = { (s.without d).sideEffect o with
          srv := { srv with inflight := srv.inflight.mapValues (s.rank d) } } := by
        rw [← without_sideEffect hk o, ← hrank]
        rfl
      rw [hadvance, hrank, hside]
    · cases hs

theorem keep_submit (hs : stepSubmit t s = some s') :
    stepSubmit (s.rank d t) (s.without d) = some (s'.without d) := by
  have ht' := without_task ht ha
  simp only [stepSubmit, ht, ht', Option.bind_eq_bind, Option.bind_some] at hs ⊢
  split at hs
  · next job k hp hph =>
    split at hs
    · next hfree =>
      obtain rfl := Option.some.inj hs
      rw [if_pos (without_free ht ha hfree)]
      have hmodify := without_modifyTask (f := fun task => { task with phase := .onJob s.jobs.length }) ht ha
        (fun _ => rfl)
      have hmap : (s.tasks.modify t (fun task => { task with phase := .onJob s.jobs.length })).map
          (Task.authentic d) = s.tasks.map (Task.authentic d) := Filtered.map_modify (fun _ => rfl)
      have hlen : (s.without d).jobs.length = s.jobs.length := List.length_map ..
      have htasks := congrArg Sys.tasks hmodify
      simp only [modifyTask, without, rank] at htasks
      simp only [modifyTask, hlen]
      simp only [without, rank, htasks, Filtered.rank_congr hmap, List.map_append, List.map_cons, List.map_nil,
        Option.bind_none]
    · cases hs
  · cases hs

theorem keep_frame {r : Except PyExc VideoFrame} (hs : stepFrame t r s = some s') :
    stepFrame (s.rank d t) r (s.without d) = some (s'.without d) := by
  have ht' := without_task ht ha
  simp only [stepFrame, ht, ht', Option.bind_eq_bind, Option.bind_some] at hs ⊢
  split at hs
  · next clip n k hp =>
    split at hs
    · next hc =>
      have hloop : (s.without d).loop = none ∧ task.cancelRequested = false :=
        ⟨by simp only [without, hc.1, Option.bind_none], hc.2⟩
      rw [if_pos hloop]
      cases r with
      | error e =>
        obtain rfl := Option.some.inj hs
        exact congrArg some (without_advance ht ha (.awaitFrame clip n) k _).symm
      | ok f =>
        obtain rfl := Option.some.inj hs
        exact congrArg some (without_advance (s := { s with nextFrame := s.nextFrame + 1 }) ht ha (.awaitFrame clip n) k _).symm
    · cases hs
  · cases hs

theorem keep_put {raises : Option PyExc} (hs : stepPut t raises s = some s') :
    stepPut (s.rank d t) raises (s.without d) = some (s'.without d) := by
  have ht' := without_task ht ha
  simp only [stepPut, ht, ht', Option.bind_eq_bind, Option.bind_some] at hs ⊢
  split at hs
  · next origin parts k hp hph =>
    split at hs
    · next hc =>
      have hloop : (s.without d).loop = none ∧ task.cancelRequested = false :=
        ⟨by simp only [without, hc.1, Option.bind_none], hc.2⟩
      rw [if_pos hloop]
      cases raises with
      | some e =>
        obtain rfl := Option.some.inj hs
        exact congrArg some (without_advance ht ha (.send origin parts) k _).symm
      | none =>
        obtain rfl := Option.some.inj hs
        exact congrArg some (without_modifyTask (f := fun task => task.put origin parts) ht ha (fun _ => rfl)).symm
    · cases hs
  · cases hs

theorem keep_resume (hs : stepResume t s = some s') :
    stepResume (s.rank d t) (s.without d) = some (s'.without d) := by
  have ht' := without_task ht ha
  simp only [stepResume, ht, ht', Option.bind_eq_bind, Option.bind_some] at hs ⊢
  split at hs
  · next hc =>
    have hloop : (s.without d).loop = none ∧ task.cancelRequested = false :=
      ⟨by simp only [without, hc.1, Option.bind_none], hc.2⟩
    rw [if_pos hloop]
    split at hs
    · next origin parts k hp hph =>
      obtain rfl := Option.some.inj hs
      exact congrArg some (without_advance ht ha (.send origin parts) k _).symm
    · next job k j hp hph =>
      split at hs
      · next job' owner outcome hj =>
        obtain ⟨r, hr, hs⟩ := Option.bind_eq_some_iff.1 hs
        obtain rfl := Option.some.inj hs
        simp only [without_job hj, hr, Option.bind_some]
        exact congrArg some (without_advance ht ha (.runInExecutor job) k _).symm
      · cases hs
    · cases hs
  · cases hs

theorem keep_cancelled (hs : stepCancelled t s = some s') :
    stepCancelled (s.rank d t) (s.without d) = some (s'.without d) := by
  have ht' := without_task ht ha
  simp only [stepCancelled, ht, ht', Option.bind_eq_bind, Option.bind_some] at hs ⊢
  have hclear : ∀ task : Task, task.clearCancel.authentic d = task.authentic d := fun _ => rfl
  have hmodify := without_modifyTask (f := Task.clearCancel) ht ha hclear
  have hmap : (s.modifyTask t Task.clearCancel).tasks.map (Task.authentic d) = s.tasks.map (Task.authentic d) :=
    Filtered.map_modify hclear
  have hrank : (s.modifyTask t Task.clearCancel).rank d = s.rank d := Filtered.rank_congr hmap
  have ht₁ : (s.modifyTask t Task.clearCancel).tasks[t]? = some task.clearCancel := by
    simp only [modifyTask, List.getElem?_modify_eq, ht, Option.map_eq_map, Option.map_some]
  have hadvance : ∀ (o : SrvOp) (k : o.Res → HandlerProg) (r : o.Res),
      ((s.modifyTask t Task.clearCancel).advance t o k r).without d =
        ((s.without d).modifyTask (s.rank d t) Task.clearCancel).advance (s.rank d t) o k r := by
    intro o k r
    rw [without_advance ht₁ ha, hrank, hmodify]
  split at hs
  · next hc =>
    have hloop : (s.without d).loop = none ∧ task.cancelRequested = true :=
      ⟨by simp only [without, hc.1, Option.bind_none], hc.2⟩
    rw [if_pos hloop]
    split at hs
    · next clip n k hp =>
      obtain rfl := Option.some.inj hs
      exact congrArg some (hadvance (.awaitFrame clip n) k _).symm
    · next origin parts k hp =>
      obtain rfl := Option.some.inj hs
      exact congrArg some (hadvance (.send origin parts) k _).symm
    · next job k j hp hph =>
      obtain rfl := Option.some.inj hs
      have ht₂ : ((s.modifyTask t Task.clearCancel).dropQueued j).tasks[t]? = some task.clearCancel := by
        rw [tasks_dropQueued, ht₁]
      have hrank₂ : ((s.modifyTask t Task.clearCancel).dropQueued j).rank d = s.rank d := by
        rw [← hrank]
        exact congrArg (Filtered.rank (Task.authentic d)) (tasks_dropQueued j)
      have hdrop := without_advance ht₂ ha (.runInExecutor job) k (.error .cancelled)
      rw [hrank₂, without_dropQueued, hmodify] at hdrop
      exact congrArg some hdrop.symm
    · split at hs
      · next hlog =>
        obtain rfl := Option.some.inj hs
        have habort : ∀ task : Task, ({ task with prog := .pure (.error .cancelled) } : Task).authentic d =
            task.authentic d := fun _ => rfl
        have hdone := without_modifyTask ht₁ ha habort
        rw [hrank, hmodify] at hdone
        rw [if_pos hlog]
        exact congrArg some hdone.symm
      · cases hs
    · cases hs
  · cases hs

end

/-! ## The steps that are left out -/

section

variable {token : PyStr} (hd : d.authToken = some token) (hh : s.Handled d) (ht : s.tasks[t]? = some task)
  (ha : task.authentic d = false)

include hd hh ht ha

theorem silent_op {o : SrvOp} {k : o.Res → HandlerProg} (hp : task.prog = .call o k) :
    o = .socketOpen ∨ ∃ parts, o = .send .reply parts := by
  have hpre := (hh t task ht).pre_silent hd ha hp
  cases o with
  | socketOpen => exact .inl rfl
  | send origin parts =>
    cases origin with
    | reply => exact .inr ⟨parts, rfl⟩
    | _ => exact hpre.elim
  | _ => exact hpre.elim

theorem drop_sync {c : Choice} (hs : stepSync d h t c s = some s') : s'.without d = s.without d := by
  simp only [stepSync, ht, Option.bind_eq_bind, Option.bind_some] at hs
  split at hs
  · cases hs
  · next o k hp =>
    split at hs
    · next hfree =>
      obtain ⟨⟨r, srv⟩, hr, hs⟩ := Option.bind_eq_some_iff.1 hs
      obtain rfl := Option.some.inj hs
      rcases silent_op hd hh ht ha hp with rfl | ⟨parts, rfl⟩
      · cases c with
        | ok =>
          obtain ⟨rfl, rfl⟩ := Prod.mk.inj (Option.some.inj hr)
          exact without_advance_of_not ht ha hfree .socketOpen k _
        | _ => cases hr
      · cases hr
    · cases hs

theorem drop_submit (hs : stepSubmit t s = some s') : False := by
  simp only [stepSubmit, ht, Option.bind_eq_bind, Option.bind_some] at hs
  split at hs
  · next job k hp hph => rcases silent_op hd hh ht ha hp with he | ⟨parts, he⟩ <;> cases he
  · cases hs

theorem drop_frame {r : Except PyExc VideoFrame} (hs : stepFrame t r s = some s') : False := by
  simp only [stepFrame, ht, Option.bind_eq_bind, Option.bind_some] at hs
  split at hs
  · next clip n k hp => rcases silent_op hd hh ht ha hp with he | ⟨parts, he⟩ <;> cases he
  · cases hs

omit hd hh in
theorem drop_put {raises : Option PyExc} (hs : stepPut t raises s = some s') : s'.without d = s.without d := by
  simp only [stepPut, ht, Option.bind_eq_bind, Option.bind_some] at hs
  split at hs
  · next origin parts k hp hph =>
    split at hs
    · next hc =>
      have hfree : s.free t = true := by simp only [free, hc.1, true_or, decide_true]
      cases raises with
      | some e =>
        obtain rfl := Option.some.inj hs
        exact without_advance_of_not ht ha hfree (.send origin parts) k _
      | none =>
        obtain rfl := Option.some.inj hs
        exact without_modifyTask_of_not (f := fun task => task.put origin parts) ht ha (fun _ => rfl)
    · cases hs
  · cases hs

theorem drop_resume (hs : stepResume t s = some s') : s'.without d = s.without d := by
  simp only [stepResume, ht, Option.bind_eq_bind, Option.bind_some] at hs
  split at hs
  · next hc =>
    have hfree : s.free t = true := by simp only [free, hc.1, true_or, decide_true]
    split at hs
    · next origin parts k hp hph =>
      obtain rfl := Option.some.inj hs
      exact without_advance_of_not ht ha hfree (.send origin parts) k _
    · next job k j hp hph => rcases silent_op hd hh ht ha hp with he | ⟨parts, he⟩ <;> cases he
    · cases hs
  · cases hs

theorem drop_cancelled (hs : stepCancelled t s = some s') : s'.without d = s.without d := by
  simp only [stepCancelled, ht, Option.bind_eq_bind, Option.bind_some] at hs
  have hclear : ∀ task : Task, task.clearCancel.authentic d = task.authentic d := fun _ => rfl
  have hmodify := without_modifyTask_of_not (f := Task.clearCancel) ht ha hclear
  have ht₁ : (s.modifyTask t Task.clearCancel).tasks[t]? = some task.clearCancel := by
    simp only [modifyTask, List.getElem?_modify_eq, ht, Option.map_eq_map, Option.map_some]
  split at hs
  · next hc =>
    have hfree : (s.modifyTask t Task.clearCancel).free t = true := by
      simp only [free, modifyTask, hc.1, true_or, decide_true]
    split at hs
    · next clip n k hp => rcases silent_op hd hh ht ha hp with he | ⟨parts, he⟩ <;> cases he
    · next origin parts k hp =>
      obtain rfl := Option.some.inj hs
      exact (without_advance_of_not ht₁ ha hfree (.send origin parts) k _).trans hmodify
    · next job k j hp hph => rcases silent_op hd hh ht ha hp with he | ⟨parts, he⟩ <;> cases he
    · split at hs
      · obtain rfl := Option.some.inj hs
        have habort : ∀ task : Task, ({ task with prog := .pure (.error .cancelled) } : Task).authentic d =
            task.authentic d := fun _ => rfl
        exact (without_modifyTask_of_not ht₁ ha habort).trans hmodify
      · cases hs
    · cases hs
  · cases hs

end

/-! ## Messages, jobs and the stop sequence -/

theorem without_append (hk : Known d s) (hloop : s.loop = none) (new : Task) :
    ({ s with tasks := s.tasks ++ [new] } : Sys).without d =
      { s.without d with tasks := (s.without d).tasks ++ if new.authentic d then [new] else [] } := by
  have hrank : ∀ i < s.tasks.length, Filtered.rank (Task.authentic d) (s.tasks ++ [new]) i =
      Filtered.rank (Task.authentic d) s.tasks i := fun i hi => Filtered.rank_append (Nat.le_of_lt hi)
  have hinflight : s.srv.inflight.mapValues (Filtered.rank (Task.authentic d) (s.tasks ++ [new])) =
      s.srv.inflight.mapValues (Filtered.rank (Task.authentic d) s.tasks) := by
    refine OrderedDict.mapValues_congr (fun key v hv => ?_)
    obtain ⟨task, ht, -⟩ := hk.inflight key v hv
    exact hrank v (Lookup.lt_length ht)
  have hjobs : s.jobs.map (fun pj => { pj with owner := Filtered.rank (Task.authentic d) (s.tasks ++ [new]) pj.owner }) =
      s.jobs.map (fun pj => { pj with owner := Filtered.rank (Task.authentic d) s.tasks pj.owner }) := by
    refine List.map_congr_left (fun pj hpj => ?_)
    obtain ⟨j, hj⟩ := List.mem_iff_getElem?.1 hpj
    rw [hrank pj.owner (hk.owners j pj hj)]
  have htasks : (s.tasks ++ [new]).filter (Task.authentic d) =
      s.tasks.filter (Task.authentic d) ++ if new.authentic d then [new] else [] := by
    rw [List.filter_append]
    cases hn : new.authentic d <;> simp [hn]
  simp only [without, hinflight, hjobs, htasks, hloop, Option.bind_none]

/-- `stop()` cancels the tasks that are kept. -/
theorem without_cancelAll : ({ s with tasks := s.tasks.map Task.cancel } : Sys).without d =
    { s.without d with tasks := (s.without d).tasks.map Task.cancel } := by
  have hmap : (s.tasks.map Task.cancel).map (Task.authentic d) = s.tasks.map (Task.authentic d) :=
    Filtered.map_map_eq (Task.authentic_cancel d)
  have hfilter : (s.tasks.map Task.cancel).filter (Task.authentic d) =
      (s.tasks.filter (Task.authentic d)).map Task.cancel := Filtered.filter_map (Task.authentic_cancel d)
  simp only [without, Filtered.rank_congr hmap, Filtered.index?_congr hmap, hfilter]

theorem Known.cancelAll (hk : Known d s) : Known d { s with tasks := s.tasks.map Task.cancel } where
  inflight key t hv := by
    obtain ⟨task, ht, ha⟩ := hk.inflight key t hv
    refine ⟨task.cancel, ?_, ?_⟩
    · rw [List.getElem?_map, ht, Option.map_some]
    · rw [Task.authentic_cancel, ha]
  owners j pj hj := by
    rw [List.length_map]
    exact hk.owners j pj hj

theorem without_accept (hk : Known d s) (hloop : s.loop = none) {msg : List Bytes} (hmsg : d.authentic msg = true) :
    (s.accept d msg).without d = (s.without d).accept d msg := by
  have hnew : Task.authentic d { msg := some msg, prog := (handleRequest d msg).run } = true := hmsg
  have happend := without_append hk hloop { msg := some msg, prog := (handleRequest d msg).run }
  rw [if_pos hnew] at happend
  exact happend

theorem keep_recv (hk : Known d s) {msg : List Bytes} (hmsg : d.authentic msg = true)
    (hq : s.undisturbed d (.recv msg) = true) (hs : stepRecv d msg s = some s') :
    stepRecv d msg (s.without d) = some (s'.without d) := by
  have hidle : s.loop = none → (s.without d).loop = none := by
    intro hloop
    simp only [without, hloop, Option.bind_none]
  simp only [stepRecv] at hs ⊢
  split at hs
  · next hc =>
    obtain rfl := Option.some.inj hs
    have hguard : (s.without d).loop = none ∧ s.srv.running = true := ⟨hidle hc.1, hc.2⟩
    exact (if_pos hguard).trans (congrArg some (without_accept hk hc.1 hmsg).symm)
  · next hrun =>
    split at hs
    · next hc =>
      obtain rfl := Option.some.inj hs
      obtain ⟨hloop, hstop, haborted, hshut, -⟩ := hc
      have hwaits : (s.without d).tasks ≠ [] := by
        simp only [undisturbed, hstop, hmsg, Bool.not_true, Bool.false_or, Bool.true_and, List.any_eq_true] at hq
        obtain ⟨task, hmem, htask⟩ := hq
        exact List.ne_nil_of_mem (List.mem_filter.2 ⟨hmem, (Bool.and_eq_true_iff.1 htask).1⟩)
      have hnot : ¬ ((s.without d).loop = none ∧ s.srv.running = true) := fun hc => hrun ⟨hloop, hc.2⟩
      have hlate : (s.without d).loop = none ∧ s.stopping = true ∧ s.aborted = false ∧ s.shutDown = false ∧
          (s.without d).tasks ≠ [] := ⟨hidle hloop, hstop, haborted, hshut, hwaits⟩
      have haccept := without_accept hk.cancelAll hloop hmsg
      rw [without_cancelAll] at haccept
      refine (if_neg hnot).trans ((if_pos hlate).trans ?_)
      simp only [cancelGathered, List.take_length, List.drop_length, List.append_nil]
      exact congrArg (fun u : Sys => some { u with aborted := true }) haccept.symm
    · cases hs

theorem drop_recv (hk : Known d s) {msg : List Bytes} (hmsg : d.authentic msg = false)
    (hq : s.undisturbed d (.recv msg) = true) (hs : stepRecv d msg s = some s') : s'.without d = s.without d := by
  simp only [stepRecv] at hs
  split at hs
  · next hc =>
    obtain rfl := Option.some.inj hs
    have happend := without_append hk hc.1 { msg := some msg, prog := (handleRequest d msg).run }
    have hnew : ¬ Task.authentic d { msg := some msg, prog := (handleRequest d msg).run } = true :=
      Bool.eq_false_iff.1 hmsg
    rw [if_neg hnew, List.append_nil] at happend
    exact happend
  · split at hs
    · next hc =>
      simp only [undisturbed, hc.2.1, hmsg, Bool.not_true, Bool.false_or, Bool.false_and, Bool.false_eq_true] at hq
    · cases hs

theorem keep_broadcast (hk : Known d s) {payload : Bytes} (hs : stepBroadcast payload s = some s') :
    stepBroadcast payload (s.without d) = some (s'.without d) := by
  simp only [stepBroadcast] at hs ⊢
  split at hs
  · next hc =>
    obtain rfl := Option.some.inj hs
    have happend := without_append hk hc.1
      ⟨none, (sendAll payload s.srv.subscribers).run, .ready, false, false, [], []⟩
    rw [if_pos (show Task.authentic d _ = true from rfl)] at happend
    have hguard : (s.without d).loop = none ∧ s.srv.running = true ∧ s.srv.subscribers ≠ [] :=
      ⟨by simp only [without, hc.1, Option.bind_none], hc.2⟩
    exact (if_pos hguard).trans (congrArg some happend.symm)
  · cases hs

theorem keep_jobStart {j : Nat} (hs : stepJobStart j s = some s') :
    stepJobStart j (s.without d) = some (s'.without d) := by
  obtain ⟨pj, hj, hs⟩ := Option.bind_eq_some_iff.1 hs
  have hj' := without_job (d := d) hj
  simp only [stepJobStart, hj', Option.bind_eq_bind, Option.bind_some]
  split at hs
  · obtain rfl := Option.some.inj hs
    exact congrArg some (without_setStatus j .running).symm
  · cases hs

theorem keep_jobRun {j : Nat} {w : JobWorld} (hs : stepJobRun h j w s = some s') :
    stepJobRun h j w (s.without d) = some (s'.without d) := by
  obtain ⟨pj, hj, hs⟩ := Option.bind_eq_some_iff.1 hs
  have hj' := without_job (d := d) hj
  simp only [stepJobRun, hj', Option.bind_eq_bind, Option.bind_some]
  split at hs
  · obtain ⟨⟨outcome, runner⟩, ho, hs⟩ := Option.bind_eq_some_iff.1 hs
    obtain rfl := Option.some.inj hs
    have ho' : pj.job.run h w (s.without d).srv.runner = some (outcome, runner) := ho
    have hstatus := without_setStatus (d := d) (s := s) j (.done outcome)
    have hjobs := congrArg Sys.jobs hstatus
    rw [ho', Option.bind_some]
    simp only [without, setStatus, Option.some.injEq] at hjobs ⊢
    rw [hjobs]
  · cases hs

theorem keep_stop (hs : stepStop s = some s') : stepStop (s.without d) = some (s'.without d) := by
  simp only [stepStop] at hs ⊢
  split at hs
  · next hc =>
    obtain rfl := Option.some.inj hs
    have hguard : (s.without d).loop = none ∧ s.stopping = false :=
      ⟨by simp only [without, hc.1, Option.bind_none], hc.2⟩
    refine (if_pos hguard).trans ?_
    have hcancel := without_cancelAll (d := d) (s := s)
    exact congrArg (fun u : Sys => some { u with
      stopping := true
      srv := { u.srv with running := false, subscribers := [] } }) hcancel.symm
  · cases hs

theorem keep_shutdown (hs : stepShutdown s = some s') : stepShutdown (s.without d) = some (s'.without d) := by
  simp only [stepShutdown] at hs ⊢
  split at hs
  · next hc =>
    obtain rfl := Option.some.inj hs
    obtain ⟨hstop, haborted, hshut, hfin⟩ := hc
    have hfin' : (s.without d).tasks.all Task.finished = true := by
      rw [List.all_eq_true] at hfin ⊢
      exact fun task ht => hfin task (List.mem_of_mem_filter ht)
    have hguard : s.stopping = true ∧ s.aborted = false ∧ s.shutDown = false ∧
        (s.without d).tasks.all Task.finished = true := ⟨hstop, haborted, hshut, hfin'⟩
    refine (if_pos hguard).trans (congrArg some ?_)
    have hjobs : ∀ drop : PoolJob → PoolJob, (∀ pj f, drop { pj with owner := f } = { drop pj with owner := f }) →
        (∀ pj, (drop pj).owner = pj.owner) → (s.without d).jobs.map drop =
          (s.jobs.map drop).map (fun pj => { pj with owner := Filtered.rank (Task.authentic d) s.tasks pj.owner }) := by
      intro drop hdrop howner
      simp only [without, List.map_map]
      refine List.map_congr_left (fun pj _ => ?_)
      simp only [Function.comp_apply, howner]
      exact hdrop pj _
    refine congrArg (fun jobs => ({ s.without d with
      shutDown := true
      srv := { (s.without d).srv with socketOpen := false }
      jobs := jobs } : Sys)) (hjobs _ (fun pj f => ?_) (fun pj => ?_))
    · obtain ⟨job, owner, status⟩ := pj
      cases status <;> rfl
    · obtain ⟨job, owner, status⟩ := pj
      cases status <;> rfl
  · cases hs

theorem keep_close {w : TeardownWorld} {isRegistered : Bool} (hs : stepClose w isRegistered s = some s') :
    stepClose w isRegistered (s.without d) = some (s'.without d) := by
  simp only [stepClose] at hs ⊢
  split at hs
  · next hc =>
    obtain rfl := Option.some.inj hs
    obtain ⟨hshut, hclosed, hidle⟩ := hc
    have hidle' : (s.without d).jobs.all (fun pj => ! jobRunning pj) = true := by
      simp only [without, List.all_map]
      exact hidle
    exact if_pos ⟨hshut, hclosed, hidle'⟩
  · cases hs

theorem task_some (hs : step d h l s = some s') (hl : l.task = some t) : ∃ task, s.tasks[t]? = some task := by
  cases step_to hs with
  | recv | recvLate | broadcast | jobStart | jobRun | stop | shutdown | close => cases hl
  | _ =>
    obtain rfl := Option.some.inj hl
    exact ⟨_, by assumption⟩

theorem without_drop {token : PyStr} (hd : d.authToken = some token) (hh : s.Handled d) (hk : Known d s)
    (hq : s.undisturbed d l = true) (hs : step d h l s = some s') (hl : s.authenticLabel d l = none) :
    s'.without d = s.without d := by
  have hnot : ∀ t, l.task = some t → Filtered.index? (Task.authentic d) s.tasks t = none →
      ∃ task, s.tasks[t]? = some task ∧ task.authentic d = false := by
    intro t ht hindex
    obtain ⟨task, htask⟩ := task_some hs ht
    refine ⟨task, htask, Bool.eq_false_iff.2 (fun ha => ?_)⟩
    rw [Filtered.index?_of_pos htask ha] at hindex
    cases hindex
  cases l with
  | recv msg =>
    simp only [authenticLabel] at hl
    split at hl
    · cases hl
    · next hmsg => exact drop_recv hk (Bool.eq_false_iff.2 hmsg) hq hs
  | sync t c =>
    obtain ⟨task, ht, ha⟩ := hnot t rfl (Option.map_eq_none_iff.1 hl)
    exact drop_sync hd hh ht ha hs
  | submit t =>
    obtain ⟨task, ht, ha⟩ := hnot t rfl (Option.map_eq_none_iff.1 hl)
    exact (drop_submit hd hh ht ha hs).elim
  | frame t r =>
    obtain ⟨task, ht, ha⟩ := hnot t rfl (Option.map_eq_none_iff.1 hl)
    exact (drop_frame hd hh ht ha hs).elim
  | put t raises =>
    obtain ⟨task, ht, ha⟩ := hnot t rfl (Option.map_eq_none_iff.1 hl)
    exact drop_put ht ha hs
  | resume t =>
    obtain ⟨task, ht, ha⟩ := hnot t rfl (Option.map_eq_none_iff.1 hl)
    exact drop_resume hd hh ht ha hs
  | cancelled t =>
    obtain ⟨task, ht, ha⟩ := hnot t rfl (Option.map_eq_none_iff.1 hl)
    exact drop_cancelled hd hh ht ha hs
  | _ => cases hl

/-- The label of a step that is kept is that of the task in its new place. -/
theorem authenticLabel_task {l' : Label} (hl : s.authenticLabel d l = some l') (ht : l.task = some t) :
    ∃ task, s.tasks[t]? = some task ∧ task.authentic d = true ∧ l' = l.withTask (s.rank d t) := by
  have hmap : (Filtered.index? (Task.authentic d) s.tasks t).map l.withTask = some l' := by
    cases l with
    | recv | broadcast | jobStart | jobRun | stop | shutdown | close => cases ht
    | _ =>
      obtain rfl := Option.some.inj ht
      exact hl
  obtain ⟨i, hi, rfl⟩ := Option.map_eq_some_iff.1 hmap
  obtain ⟨task, htask, ha, rfl⟩ := Filtered.index?_eq_some hi
  exact ⟨task, htask, ha, rfl⟩

theorem without_keep (hk : Known d s) (hq : s.undisturbed d l = true) (hs : step d h l s = some s') {l' : Label}
    (hl : s.authenticLabel d l = some l') : step d h l' (s.without d) = some (s'.without d) := by
  cases l with
  | recv msg =>
    simp only [authenticLabel] at hl
    split at hl
    · next hmsg =>
      obtain rfl := Option.some.inj hl
      exact keep_recv hk hmsg hq hs
    · cases hl
  | broadcast payload =>
    obtain rfl := Option.some.inj hl
    exact keep_broadcast hk hs
  | sync t c =>
    obtain ⟨task, ht, ha, rfl⟩ := authenticLabel_task hl rfl
    exact keep_sync ht ha hk hs
  | submit t =>
    obtain ⟨task, ht, ha, rfl⟩ := authenticLabel_task hl rfl
    exact keep_submit ht ha hs
  | frame t r =>
    obtain ⟨task, ht, ha, rfl⟩ := authenticLabel_task hl rfl
    exact keep_frame ht ha hs
  | put t raises =>
    obtain ⟨task, ht, ha, rfl⟩ := authenticLabel_task hl rfl
    exact keep_put ht ha hs
  | resume t =>
    obtain ⟨task, ht, ha, rfl⟩ := authenticLabel_task hl rfl
    exact keep_resume ht ha hs
  | cancelled t =>
    obtain ⟨task, ht, ha, rfl⟩ := authenticLabel_task hl rfl
    exact keep_cancelled ht ha hs
  | jobStart j =>
    obtain rfl := Option.some.inj hl
    exact keep_jobStart hs
  | jobRun j w =>
    obtain rfl := Option.some.inj hl
    exact keep_jobRun hs
  | stop =>
    obtain rfl := Option.some.inj hl
    exact keep_stop hs
  | shutdown =>
    obtain rfl := Option.some.inj hl
    exact keep_shutdown hs
  | close w isRegistered =>
    obtain rfl := Option.some.inj hl
    exact keep_close hs

theorem puts_without {l' : Label} (hl : s.authenticLabel d l = some l') : (s.without d).puts l' = s.puts l := by
  cases l with
  | recv msg =>
    simp only [authenticLabel] at hl
    split at hl
    · obtain rfl := Option.some.inj hl
      rfl
    · cases hl
  | put t raises =>
    obtain ⟨task, ht, ha, rfl⟩ := authenticLabel_task hl rfl
    cases raises with
    | some e => rfl
    | none => simp only [Label.withTask, puts, without_task ht ha, ht]
  | sync | submit | frame | resume | cancelled =>
    obtain ⟨task, -, -, rfl⟩ := authenticLabel_task hl rfl
    rfl
  | _ =>
    obtain rfl := Option.some.inj hl
    rfl

/-! ## The in-flight table -/

theorem step_inflight {token : PyStr} (hd : d.authToken = some token) (hh : s.Handled d)
    (hs : step d h l s = some s') {key : Bytes × Nat} (hv : s'.srv.inflight.get? key = some t) :
    s.srv.inflight.get? key = some t ∨ ∃ task, s.tasks[t]? = some task ∧ task.authentic d = true := by
  cases step_to hs with
  | @sync t' c task o k r srv ht hp hr =>
    rcases respond_inflight hr hv with hv | ⟨rfl, key', rfl⟩
    · exact .inl hv
    · refine .inr ⟨task, ht, Bool.eq_true_of_not_eq_false (fun ha => ?_)⟩
      exact (hh t task ht).pre_silent hd ha hp
  | @jobCancelled t' task job k j =>
    have hsrv : ((s.modifyTask t' Task.clearCancel).dropQueued j).srv = s.srv := by
      unfold dropQueued
      split <;> rfl
    replace hv : ((s.modifyTask t' Task.clearCancel).dropQueued j).srv.inflight.get? key = some t := hv
    rw [hsrv] at hv
    exact .inl hv
  | _ => exact .inl hv

theorem Known.step {token : PyStr} (hd : d.authToken = some token) (hh : s.Handled d) (hk : Known d s)
    (hs : step d h l s = some s') : Known d s' := by
  have hlen := step_length hs
  refine ⟨fun key t hv => ?_, fun j pj' hj => ?_⟩
  · have htask : ∃ task, s.tasks[t]? = some task ∧ task.authentic d = true := by
      rcases step_inflight hd hh hs hv with hv | htask
      · exact hk.inflight key t hv
      · exact htask
    obtain ⟨task, ht, ha⟩ := htask
    obtain ⟨task', ht', hstep⟩ := step_task hs ht
    refine ⟨task', ht', ?_⟩
    simp only [Task.authentic, hstep.msg_eq] at ha ⊢
    exact ha
  · rcases step_jobs hs hj with ⟨pj, hpj, hstep⟩ | ⟨-, rfl, -, task, k, ht, -⟩
    · have howner := hk.owners j pj hpj
      rw [hstep.same.2]
      exact Nat.lt_of_lt_of_le howner hlen
    · exact Nat.lt_of_lt_of_le (Lookup.lt_length ht) hlen

theorem sameService_without (hk : Known d s) : SameService d s (s.without d) where
  runner := rfl
  subscribers := rfl
  metrics := rfl
  inflightKeys := OrderedDict.keys_mapValues ..
  inflight key t hv := by
    obtain ⟨task, ht, ha⟩ := hk.inflight key t hv
    refine ⟨s.rank d t, task, ?_, ht, without_task ht ha⟩
    have hget := OrderedDict.get?_mapValues (s.rank d) s.srv.inflight key
    rw [hv] at hget
    exact hget
  tasks := rfl

theorem Settled.without (hs : s.Settled) : (s.without d).Settled where
  tasks task ht := hs.tasks task (List.mem_of_mem_filter ht)
  jobs pj hpj := by
    obtain ⟨pj₀, hmem, rfl⟩ := List.mem_map.1 hpj
    exact hs.jobs pj₀ hmem
  stopped := hs.stopped
  closed := hs.closed

end Sys

/-- Beside every run of a server with a token in which no message disturbs `stop()` there
is the run without the messages that are malformed or do not carry the token: at every
point the service is in the same state, what the kept handlers put on the socket is the
same step by step, and where the run comes to rest the other has come to rest. -/
theorem unauthenticated_no_interference {d : Daemon} {token : PyStr} (hd : d.authToken = some token) (h : Host)
    (runner : RunnerState) (metrics : ServerMetricsCollector) (ls : List Label)
    (hq : Runs.Guarded (Sys.step d h) (fun s l => s.undisturbed d l = true) ls (Sys.init runner metrics)) :
    Runs.Beside (Sys.step d h) (Sys.authenticLabel d) (SameEffect d h) (fun s l u l' => u.puts l' = s.puts l) ls
      (Sys.init runner metrics) (Sys.init runner metrics) := by
  have hknown : Sys.Known d (Sys.init runner metrics) := by
    refine ⟨fun key t hv => ?_, fun j pj hj => ?_⟩
    · cases hv
    · cases hj
  have hinit : (Sys.init runner metrics).Handled d ∧ Sys.Known d (Sys.init runner metrics) ∧
      (Sys.init runner metrics).Poised := by
    refine ⟨fun i task ht => ?_, hknown, Sys.poised_init runner metrics⟩
    cases ht
  refine Runs.Beside.of_abstraction (f := Sys.without d) (I := fun s => s.Handled d ∧ Sys.Known d s ∧ s.Poised)
    ?_ ?_ ?_ ?_ ?_ hq hinit
  · exact fun s l t hi hs => ⟨hi.1.step hs, hi.2.1.step hd hi.1 hs, hi.2.2.step hs⟩
  · exact fun s l t hi hq hs hl => Sys.without_drop hd hi.1 hi.2.1 hq hs hl
  · exact fun s l t l' hi hq hs hl => Sys.without_keep hi.2.1 hq hs hl
  · exact fun s hi => ⟨Sys.sameService_without hi.2.1, fun hrest => (hrest.settled hi.2.2).without.atRest⟩
  · exact fun s l t l' hi hs hl => Sys.puts_without hl

/-- A ping with the token between one without it and a malformed message, and a second one
with the token that comes while `stop()` waits for the first. -/
def mixedLabels : List Label :=
  [.recv [[2], [0, 0, 0, 6], [1], []], .recv (pingWith [0x61]), .recv [[3], [9]], .sync 0 .ok, .put 0 none,
    .sync 1 .ok, .sync 1 .ok, .sync 1 (.time 0), .put 1 none, .resume 0, .sync 2 .ok, .put 2 none, .resume 2, .stop,
    .recv (pingWith [0x61]), .cancelled 1, .sync 1 (.time 0), .sync 1 .ok]

theorem unauthenticated_no_interference_pings :
    (Runs.run (Sys.step (tokenDaemon [0x61]) Host.plain) mixedLabels scriptSys).map
        (fun s => (s.aborted, s.tasks.map (fun task => (task.finished, task.wire.length)))) =
      some (true, [(true, 1), (true, 1), (true, 1), (false, 0)]) ∧
      Runs.Beside (Sys.step (tokenDaemon [0x61]) Host.plain) (Sys.authenticLabel (tokenDaemon [0x61]))
        (SameEffect (tokenDaemon [0x61]) Host.plain) (fun s l u l' => u.puts l' = s.puts l) mixedLabels
        scriptSys scriptSys :=
  ⟨by decide +kernel, unauthenticated_no_interference rfl Host.plain _ _ mixedLabels (by decide +kernel)⟩

/-- A server that has loaded a script with one output. -/
def loadedSys : Sys :=
  Sys.init ⟨{ environment := some ⟨1, false⟩, clips := OrderedDict.empty.set 0 (.gray8 1 2 2) }, .empty, []⟩ { startTime := 0 }

/-- While `stop()` waits for the handler of a ping with the token, a ping without it is
received and answered. -/
def lateMessageLabels : List Label :=
  [.recv (pingWith [0x61]), .sync 0 .ok, .sync 0 .ok, .sync 0 (.time 0), .stop, .recv [[2], [0, 0, 0, 6], [1], []],
    .cancelled 0, .sync 0 (.time 0), .sync 0 .ok, .sync 1 .ok, .put 1 none, .resume 1]

/-- The ping without the token aborts `stop()`: the run comes to rest with the script
still loaded, and without that ping the server goes on to tear its environment down. -/
theorem late_message_interferes :
    ∃ s u v : Sys, Runs.run (Sys.step (tokenDaemon [0x61]) Host.plain) lateMessageLabels loadedSys = some s ∧
      s.AtRest (tokenDaemon [0x61]) Host.plain ∧ s.srv.runner.runner.environment = some ⟨1, false⟩ ∧
      s.srv.runner.runner.clips.keys = [0] ∧
      Runs.run (Sys.step (tokenDaemon [0x61]) Host.plain)
        (Runs.kept (Sys.step (tokenDaemon [0x61]) Host.plain) (Sys.authenticLabel (tokenDaemon [0x61])) lateMessageLabels
          loadedSys) loadedSys = some u ∧
      Runs.run (Sys.step (tokenDaemon [0x61]) Host.plain) [.shutdown, .close {} false] u = some v ∧
      v.srv.runner.runner.environment = none ∧ v.srv.runner.runner.clips.keys = [] ∧
      ¬ Runs.Beside (Sys.step (tokenDaemon [0x61]) Host.plain) (Sys.authenticLabel (tokenDaemon [0x61]))
        (SameEffect (tokenDaemon [0x61]) Host.plain) (fun s l u l' => u.puts l' = s.puts l) lateMessageLabels
        loadedSys loadedSys := by
  obtain ⟨s, hs, hfinished, hjobs, haborted, hopen, hloaded⟩ : ∃ s : Sys,
      Runs.run (Sys.step (tokenDaemon [0x61]) Host.plain) lateMessageLabels loadedSys = some s ∧
        s.tasks.all Task.finished = true ∧ s.jobs = [] ∧ s.aborted = true ∧ s.shutDown = false ∧
        s.srv.runner.runner.environment = some ⟨1, false⟩ ∧ s.srv.runner.runner.clips.keys = [0] :=
    ⟨_, rfl, rfl, rfl, rfl, rfl, rfl, rfl⟩
  obtain ⟨u, v, hu, hv, hclosed⟩ : ∃ u v : Sys,
      Runs.run (Sys.step (tokenDaemon [0x61]) Host.plain)
        (Runs.kept (Sys.step (tokenDaemon [0x61]) Host.plain) (Sys.authenticLabel (tokenDaemon [0x61])) lateMessageLabels
          loadedSys) loadedSys = some u ∧
        Runs.run (Sys.step (tokenDaemon [0x61]) Host.plain) [.shutdown, .close {} false] u = some v ∧
        v.srv.runner.runner.environment = none ∧ v.srv.runner.runner.clips.keys = [] :=
    ⟨_, _, rfl, rfl, rfl, rfl⟩
  have hsettled : s.Settled := by
    refine ⟨List.all_eq_true.1 hfinished, fun pj hmem => ?_, fun _ => .inl haborted, fun hshut => ?_⟩
    · rw [hjobs] at hmem
      cases hmem
    · rw [hopen] at hshut
      cases hshut
  refine ⟨s, u, v, hs, hsettled.atRest, hloaded.1, hloaded.2, hu, hv, hclosed.1, hclosed.2, fun hbeside => ?_⟩
  obtain ⟨u', hu', heffect⟩ := hbeside.last hs
  obtain rfl := Option.some.inj (hu.symm.trans hu')
  obtain ⟨w, hshutdown, -⟩ := Runs.run_cons_some hv
  have hnone := heffect.rest hsettled.atRest .shutdown ⟨rfl, Label.noConfusion⟩
  rw [hnone] at hshutdown
  cases hshutdown

end VsRemote
