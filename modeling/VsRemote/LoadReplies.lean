import VsRemote.Addressing
import VsRemote.PoolJobs

/-! What the server answers a load with: the outputs that the load of this very request
has returned, or the error that it has raised. -/

namespace VsRemote

open Coro (Follows)
open Handler

/-- What a handler has of its load: whether it has asked for it, whether it has replied, how
the job ended, what the reply raised and the traceback of the error. -/
structure LoadTrail where
  asked : Bool := false
  replied : Bool := false
  job : Option (LoadAction × Except PyExc (List OutputItem)) := none
  raised : Option PyExc := none
  traceback : Option (PyError × Traceback) := none

def LoadTrail.next (g : LoadTrail) : (o : SrvOp) → o.Res → LoadTrail
  | .runInExecutor (.load a), .ok outputs => { g with asked := true, job := some (a, .ok outputs) }
  | .runInExecutor (.load a), .error (.exc e) => { g with asked := true, job := some (a, .error e) }
  | .runInExecutor (.load _), .error .cancelled => { g with asked := true }
  | .send .reply _, .error (.exc e) => { g with replied := true, raised := some e }
  | .send .reply _, _ => { g with replied := true }
  | .traceback e, tb => { g with traceback := some (e, tb) }
  | _, _ => g

def LoadTrail.Fresh (g : LoadTrail) : Prop := g.asked = false ∧ g.replied = false

/-- The handler asks for a load once and before it replies, and `P` holds of every reply. -/
def trailMonitor (P : LoadTrail → List Bytes → Prop) : Coro.Monitor srvSig LoadTrail where
  pre
    | g, .runInExecutor (.load _) => g.Fresh
    | g, .send .reply parts => P g parts
    | _, _ => True
  allows _ _ _ := True
  next := LoadTrail.next

/-- The error of a load: the job raised it, or it returned outputs that could not be
packed or sent. -/
def LoadTrail.Fails (d : Daemon) (g : LoadTrail) (a : LoadAction) (r : Except PyExc (List OutputItem)) (e : PyExc) :
    Prop :=
  g.job = some (a, r) ∧
    (r = .error e ∨ ∃ outputs, r = .ok outputs ∧ (pack d.msgspec outputs = .error e ∨ g.raised = some e))

def loadStatus (e : PyExc) : StatusCode := if e.isNotFound then .notFound else .error

/-- The command and the payload ask for the load, and it is allowed. -/
def LoadAction.AskedBy (d : Daemon) (cmd : Command) (payloadBytes : Bytes) (a : LoadAction) : Prop :=
  d.Grants cmd a ∧ match a with
    | .reload p => unpackPayload d.msgspec ReloadRequest payloadBytes = .ok p
    | .loadCode p => unpackPayload d.msgspec LoadCodeRequest payloadBytes = .ok p
    | .loadScript p => unpackPayload d.msgspec LoadScriptRequest payloadBytes = .ok p

/-- The replies to a load. -/
inductive LoadReply (d : Daemon) (req : RequestEnvelope) (g : LoadTrail) : List Bytes → Prop
  | refused {status : StatusCode} {payload : RemoteErrorPayload} {bytes : Bytes} (hnone : g.asked = false)
      (hstatus : status ∈ [.unauthorized, .permissionDenied, .invalidPayload])
      (hpack : pack d.msgspec payload = .ok bytes) :
      LoadReply d req g [req.identity, req.reqIdBytes, [status.byte], bytes]
  | loaded {a : LoadAction} {outputs : List OutputItem} {bytes : Bytes} (ha : a.AskedBy d req.command req.payloadBytes)
      (hjob : g.job = some (a, .ok outputs)) (hpack : pack d.msgspec outputs = .ok bytes) :
      LoadReply d req g [req.identity, req.reqIdBytes, [StatusCode.ok.byte], bytes]
  | failed {a : LoadAction} {r : Except PyExc (List OutputItem)} {e : PyExc} {tb : Traceback} {bytes : Bytes}
      (ha : a.AskedBy d req.command req.payloadBytes) (hfails : g.Fails d a r e) (htb : g.traceback = some (origError e, tb))
      (hpack : pack d.msgspec (buildErrorPayload e tb) = .ok bytes) :
      LoadReply d req g [req.identity, req.reqIdBytes, [(loadStatus e).byte], bytes]

section

variable {d : Daemon} {req : RequestEnvelope} {g : LoadTrail}

abbrev loadMonitor (d : Daemon) (req : RequestEnvelope) : Coro.Monitor srvSig LoadTrail := trailMonitor (LoadReply d req)

/-- However it ends. -/
abbrev AnyEnd {α : Type} (_ : Except Raised α) (_ : LoadTrail) : Prop := True

theorem wp_refuseLoad {status : StatusCode} (hnone : g.asked = false)
    (hstatus : status ∈ [.unauthorized, .permissionDenied, .invalidPayload])
    (message : String) : (sendErrorText d req status message).run.wp (loadMonitor d req) AnyEnd g := by
  rw [sendErrorText, sendError, Coro.wp_run_bind, wp_ofExcept]
  cases hpack : pack d.msgspec (messagePayload status message) with
  | error e => trivial
  | ok bytes => exact ⟨.refused hnone hstatus hpack, fun _ _ => trivial⟩

/-- The error reply, once the traceback has been taken and the runner cleaned up. -/
theorem wp_failLoad {a : LoadAction} {r : Except PyExc (List OutputItem)} {e : PyExc} (ha : a.AskedBy d req.command req.payloadBytes)
    (hfails : g.Fails d a r e) :
    (do
      let tb ← Handler.traceback (origError e)
      runTeardown
      sendError d req (loadStatus e) (buildErrorPayload e tb) : Handler Unit).run.wp (loadMonitor d req) AnyEnd g := by
  simp only [Coro.wp_run_bind, wp_traceback, wp_runTeardown]
  refine ⟨trivial, fun tb _ => ⟨trivial, fun cleaned _ => ?_⟩⟩
  cases cleaned with
  | error e => trivial
  | ok _ =>
    rw [sendError, Coro.wp_run_bind, wp_ofExcept]
    cases hpack : pack d.msgspec (buildErrorPayload e tb) with
    | error e => trivial
    | ok bytes => exact ⟨.failed ha hfails rfl hpack, fun _ _ => trivial⟩

theorem wp_load (hfresh : g.Fresh) (α : Type) [Packed α] (typeName : String) (action : α → LoadAction)
    (ha : ∀ p, unpackPayload d.msgspec α req.payloadBytes = .ok p → (action p).AskedBy d req.command req.payloadBytes) :
    (dispatchExecutor d req α typeName action).run.wp (loadMonitor d req) AnyEnd g := by
  unfold dispatchExecutor
  cases hpayload : unpackPayload d.msgspec α req.payloadBytes with
  | error e => exact wp_refuseLoad hfresh.1 (by decide) _
  | ok payload =>
    have ha := ha payload hpayload
    simp only [Coro.wp_run_bind, wp_tryExcept, wp_runLoad]
    refine ⟨hfresh, fun r _ => ?_⟩
    rcases r with (_ | e) | outputs
    · trivial
    · exact wp_failLoad ha ⟨rfl, .inl rfl⟩
    · simp only [wp_ofExcept]
      cases hpack : pack d.msgspec outputs with
      | error e => exact wp_failLoad ha ⟨rfl, .inr ⟨outputs, rfl, .inl hpack⟩⟩
      | ok bytes =>
        refine ⟨.loaded ha rfl hpack, fun r _ => ?_⟩
        rcases r with (_ | e) | _
        · trivial
        · exact wp_failLoad ha ⟨rfl, .inr ⟨outputs, rfl, .inr rfl⟩⟩
        · trivial

theorem wp_dispatchRequest_load (hfresh : g.Fresh) (hloads : req.command.loads = true) :
    (dispatchRequest d req).run.wp (loadMonitor d req) AnyEnd g := by
  unfold dispatchRequest
  cases hcmd : req.command with
  | reload => exact wp_load hfresh _ _ _ (fun _ hp => ⟨⟨hcmd, .inl hcmd⟩, hp⟩)
  | loadCode =>
    simp only [Coro.wp_run_ite]
    split
    · next heval => exact wp_load hfresh _ _ _ (fun _ hp => ⟨⟨hcmd, .inr heval⟩, hp⟩)
    · exact wp_refuseLoad hfresh.1 (by decide) _
  | loadScript =>
    simp only [Coro.wp_run_ite]
    split
    · next heval => exact wp_load hfresh _ _ _ (fun _ hp => ⟨⟨hcmd, .inr heval⟩, hp⟩)
    · exact wp_refuseLoad hfresh.1 (by decide) _
  | _ =>
    rw [hcmd] at hloads
    cases hloads

theorem wp_handleRequest_load {msg : List Bytes} (hfresh : g.Fresh)
    (hreq : RequestEnvelope.fromFrames msg = .ok req) (hloads : req.command.loads = true) : (handleRequest d msg).run.wp (loadMonitor d req) AnyEnd g := by
  have haccept : (acceptRequest d req).run.wp (loadMonitor d req) AnyEnd g := by
    simp only [acceptRequest, Coro.wp_run_bind, wp_inflightSet, wp_metrics, Coro.wp_run_tryFinally, wp_endRequest]
    refine ⟨trivial, fun _ _ => ⟨trivial, fun _ _ => ?_⟩⟩
    refine Coro.wp_mono _ (wp_dispatchRequest_load hfresh hloads) (fun r g' _ => ?_)
    exact ⟨trivial, fun _ _ => ⟨trivial, fun _ _ => trivial⟩⟩
  have hmessage : (handleMessage d msg).run.wp (loadMonitor d req) AnyEnd g := by
    cases htoken : tokenRefused d.authToken req.authToken with
    | error e =>
      rw [handleMessage_of_tokenError hreq htoken]
      trivial
    | ok refused =>
      rw [handleMessage_of_tokenRefused hreq htoken]
      cases refused with
      | true => exact wp_refuseLoad hfresh.1 (by decide) _
      | false => exact haccept
  rw [handleRequest, Coro.wp_run_bind]
  refine ⟨trivial, fun isOpen _ => ?_⟩
  cases isOpen with
  | false => trivial
  | true => exact hmessage

end

/-- The operations of the log by which the handler came to what it has. -/
structure LoadTrail.From (g : LoadTrail) (log : List (Coro.Event srvSig)) : Prop where
  job : ∀ a r, g.job = some (a, r) → ⟨.runInExecutor (.load a), VsRemote.raised r⟩ ∈ log
  raised : ∀ e, g.raised = some e → ∃ parts, ⟨.send .reply parts, .error (.exc e)⟩ ∈ log
  traceback : ∀ e tb, g.traceback = some (e, tb) → ⟨.traceback e, tb⟩ ∈ log

namespace LoadTrail

variable {g : LoadTrail} {log log' : List (Coro.Event srvSig)} {P : LoadTrail → List Bytes → Prop}

theorem From.mono (hf : g.From log) (hsub : log ⊆ log') : g.From log' := by
  refine ⟨fun a r hg => hsub (hf.job a r hg), fun e hg => ?_, fun e tb hg => hsub (hf.traceback e tb hg)⟩
  obtain ⟨parts, hmem⟩ := hf.raised e hg
  exact ⟨parts, hsub hmem⟩

theorem From.next (hf : g.From log) (e : Coro.Event srvSig) : (g.next e.op e.res).From (log ++ [e]) := by
  have hold : g.From (log ++ [e]) := hf.mono (List.subset_append_left _ _)
  have hnew : e ∈ log ++ [e] := List.mem_append_right _ (List.mem_singleton.2 rfl)
  obtain ⟨o, r⟩ := e
  unfold LoadTrail.next
  dsimp only
  split
  · next a outputs =>
    refine ⟨fun a' r' hg => ?_, hold.raised, hold.traceback⟩
    obtain ⟨rfl, rfl⟩ := Prod.mk.inj (Option.some.inj hg)
    exact hnew
  · next a e =>
    refine ⟨fun a' r' hg => ?_, hold.raised, hold.traceback⟩
    obtain ⟨rfl, rfl⟩ := Prod.mk.inj (Option.some.inj hg)
    exact hnew
  · exact ⟨hold.job, hold.raised, hold.traceback⟩
  · next parts e =>
    refine ⟨hold.job, fun e' hg => ?_, hold.traceback⟩
    obtain rfl := Option.some.inj hg
    exact ⟨parts, hnew⟩
  · exact ⟨hold.job, hold.raised, hold.traceback⟩
  · next e tb =>
    refine ⟨hold.job, hold.raised, fun e' tb' hg => ?_⟩
    obtain ⟨rfl, rfl⟩ := Prod.mk.inj (Option.some.inj hg)
    exact hnew
  · exact hold

theorem From.run (hf : g.From log) (tr : List (Coro.Event srvSig)) : ((trailMonitor P).run g tr).From (log ++ tr) := by
  induction tr generalizing g log with
  | nil => exact hf.mono (List.subset_append_left _ _)
  | cons e tr ih =>
    have hrest := ih (hf.next e)
    rw [List.append_assoc] at hrest
    exact hrest

theorem from_empty : LoadTrail.From {} [] := by
  refine ⟨?_, ?_, ?_⟩
  · exact fun _ _ hg => by cases hg
  · exact fun _ hg => by cases hg
  · exact fun _ _ hg => by cases hg

theorem next_asked (hasked : g.asked = true) (e : Coro.Event srvSig) : (g.next e.op e.res).asked = true := by
  unfold LoadTrail.next
  split <;> first | rfl | exact hasked

theorem next_replied (hreplied : g.replied = true) (e : Coro.Event srvSig) : (g.next e.op e.res).replied = true := by
  unfold LoadTrail.next
  split <;> first | rfl | exact hreplied

theorem run_asked (hasked : g.asked = true) (tr : List (Coro.Event srvSig)) : ((trailMonitor P).run g tr).asked = true := by
  induction tr generalizing g with
  | nil => exact hasked
  | cons e tr ih => exact ih (next_asked hasked e)

theorem run_replied (hreplied : g.replied = true) (tr : List (Coro.Event srvSig)) :
    ((trailMonitor P).run g tr).replied = true := by
  induction tr generalizing g with
  | nil => exact hreplied
  | cons e tr ih => exact ih (next_replied hreplied e)

theorem asked_of_mem {a : LoadAction} {r : Except Raised (List OutputItem)} {tr : List (Coro.Event srvSig)}
    (hmem : ⟨.runInExecutor (.load a), r⟩ ∈ tr) : ((trailMonitor P).run g tr).asked = true := by
  obtain ⟨before, after, rfl⟩ := List.append_of_mem hmem
  rw [Coro.Monitor.run_append]
  refine run_asked ?_ after
  rcases r with (_ | e) | outputs <;> rfl

theorem replied_of_mem {parts : List Bytes} {r : Except Raised Unit} {tr : List (Coro.Event srvSig)}
    (hmem : ⟨.send .reply parts, r⟩ ∈ tr) : ((trailMonitor P).run g tr).replied = true := by
  obtain ⟨before, after, rfl⟩ := List.append_of_mem hmem
  rw [Coro.Monitor.run_append]
  refine run_replied ?_ after
  rcases r with (_ | e) | _ <;> rfl

end LoadTrail

/-- The request of the task is a load. -/
def Task.AsksLoad (task : Task) : Prop :=
  ∃ msg req, task.msg = some msg ∧ RequestEnvelope.fromFrames msg = .ok req ∧ req.command.loads = true

/-- The task has waited for a load, and no longer does. -/
def Task.HasWaited (task : Task) : Prop := ∃ a r, ⟨.runInExecutor (.load a), r⟩ ∈ task.log

section

variable {d : Daemon} {req : RequestEnvelope} {task : Task} {msg : List Bytes} {a : LoadAction}

theorem allows_load (tr : List (Coro.Event srvSig)) : (loadMonitor d req).Allows {} tr :=
  (loadMonitor d req).allows_of_forall (fun _ _ _ => trivial) {} tr

/-- A load that the handler asks for is its first, and it has not replied. -/
theorem fresh_of_follows {tr : List (Coro.Event srvSig)} {k : SrvOp.Res (.runInExecutor (.load a)) → HandlerProg}
    (hreq : RequestEnvelope.fromFrames msg = .ok req) (hloads : req.command.loads = true)
    (hf : Follows (handleRequest d msg).run tr (.call (.runInExecutor (.load a)) k)) :
    ((loadMonitor d req).run {} tr).Fresh :=
  Coro.pre_follows_call (loadMonitor d req) (wp_handleRequest_load ⟨rfl, rfl⟩ hreq hloads) hf (allows_load tr)

theorem Task.Handles.follows {o : SrvOp} {k : o.Res → HandlerProg} (hh : task.Handles d) (hmsg : task.msg = some msg)
    (hp : task.prog = .call o k) : Follows (handleRequest d msg).run task.log (.call o k) := by
  unfold Task.Handles at hh
  rw [hmsg] at hh
  rcases hh with hf | ⟨-, hpure⟩
  · rw [hp] at hf
    exact hf
  · rw [hp] at hpure
    cases hpure

/-- A handler asks for one load. -/
theorem Task.Handles.not_hasWaited {k : SrvOp.Res (.runInExecutor (.load a)) → HandlerProg} (hh : task.Handles d)
    (hasks : task.AsksLoad) (hp : task.prog = .call (.runInExecutor (.load a)) k) : ¬ task.HasWaited := by
  rintro ⟨a', r, hmem⟩
  obtain ⟨msg, req, hmsg, hreq, hloads⟩ := hasks
  have hfresh := fresh_of_follows hreq hloads (hh.follows hmsg hp)
  exact absurd (hfresh.1.symm.trans (LoadTrail.asked_of_mem hmem)) (by decide)

/-- A handler that replies before it has asked for a load asks for none. -/
theorem not_asks_of_replies {tr tr' log : List (Coro.Event srvSig)} {parts : List Bytes}
    {k : SrvOp.Res (.send .reply parts) → HandlerProg} {k' : SrvOp.Res (.runInExecutor (.load a)) → HandlerProg}
    (hreq : RequestEnvelope.fromFrames msg = .ok req) (hloads : req.command.loads = true)
    (hsend : Follows (handleRequest d msg).run tr (.call (.send .reply parts) k))
    (hload : Follows (handleRequest d msg).run tr' (.call (.runInExecutor (.load a)) k')) (hp : tr <+: log) (hp' : tr' <+: log)
    (hnone : ((loadMonitor d req).run {} tr).asked = false) : False := by
  obtain ⟨-, hunreplied⟩ := fresh_of_follows hreq hloads hload
  rcases List.prefix_or_prefix_of_prefix hp hp' with ⟨rest, rfl⟩ | ⟨rest, rfl⟩
  · cases rest with
    | nil =>
      rw [List.append_nil] at hload
      cases hsend.unique hload
    | cons e rest =>
      obtain ⟨o, r⟩ := e
      obtain rfl : o = .send .reply parts := hsend.op_next hload
      have hmem : (⟨.send .reply parts, r⟩ : Coro.Event srvSig) ∈ tr ++ ⟨.send .reply parts, r⟩ :: rest :=
        List.mem_append_right tr List.mem_cons_self
      exact absurd (hunreplied.symm.trans (LoadTrail.replied_of_mem hmem)) (by decide)
  · cases rest with
    | nil =>
      rw [List.append_nil] at hsend
      cases hsend.unique hload
    | cons e rest =>
      obtain ⟨o, r⟩ := e
      obtain rfl : o = .runInExecutor (.load a) := hload.op_next hsend
      have hmem : (⟨.runInExecutor (.load a), r⟩ : Coro.Event srvSig) ∈
          tr' ++ ⟨.runInExecutor (.load a), r⟩ :: rest := List.mem_append_right tr' List.mem_cons_self
      exact absurd (hnone.symm.trans (LoadTrail.asked_of_mem hmem)) (by decide)

end

namespace Sys

variable {d : Daemon} {h : Host} {s s' : Sys} {l : Label} {t j : Nat}

/-- The job has run this load for the task, and ended so. -/
def HasRun (j t : Nat) (a : LoadAction) (r : Except PyExc (List OutputItem)) (s : Sys) : Prop :=
  ∃ pj, s.jobs[j]? = some pj ∧ pj.owner = t ∧ pj.job = .load a ∧ pj.status = .done (.load r)

theorem HasRun.step {a : LoadAction} {r : Except PyExc (List OutputItem)} (hr : s.HasRun j t a r)
    (hs : Sys.step d h l s = some s') : s'.HasRun j t a r := by
  obtain ⟨pj, hj, howner, hjob, hstatus⟩ := hr
  obtain ⟨pj', hj', hstep⟩ := step_job hs hj
  cases hstep with
  | stay => exact ⟨pj, hj', howner, hjob, hstatus⟩
  | drop hq => rw [hq] at hstatus; cases hstatus
  | start hq => rw [hq] at hstatus; cases hstatus
  | run hq => rw [hq] at hstatus; cases hstatus

/-- A task that asks for a load has one in the pool: it waits for it, or did. -/
structure OneLoad (s : Sys) : Prop where
  owned : ∀ (j : Nat) (pj : PoolJob), s.jobs[j]? = some pj → pj.owner < s.tasks.length
  asked : ∀ (j : Nat) (pj : PoolJob) (a : LoadAction) (task : Task), s.jobs[j]? = some pj → pj.job = .load a →
    s.tasks[pj.owner]? = some task → task.phase = .onJob j ∨ task.HasWaited
  unique : ∀ (i j : Nat) (pi pj : PoolJob) (a a' : LoadAction) (task : Task), s.jobs[i]? = some pi →
    s.jobs[j]? = some pj → pi.job = .load a → pj.job = .load a' → pi.owner = pj.owner →
    s.tasks[pj.owner]? = some task → task.AsksLoad → i = j

theorem oneLoad_init (runner : RunnerState) (metrics : ServerMetricsCollector) : (Sys.init runner metrics).OneLoad := by
  refine ⟨?_, ?_, ?_⟩
  · exact fun _ _ hj => by cases hj
  · exact fun _ _ _ _ hj => by cases hj
  · exact fun _ _ _ _ _ _ _ hj => by cases hj

/-- A load stays with its task through a step. -/
theorem OneLoad.step_asked {pj : PoolJob} {a : LoadAction} {task task' : Task} (hi : s.OneLoad) (hw : s.Waiting)
    (hj : s.jobs[j]? = some pj) (hjob : pj.job = .load a) (ht : s.tasks[pj.owner]? = some task)
    (hs : TaskStep d h s pj.owner l task task') : task'.phase = .onJob j ∨ task'.HasWaited := by
  rcases hi.asked j pj a task hj hjob ht with hph | ⟨a', r, hmem⟩
  · obtain ⟨pj', k, hj', -, hp⟩ := hw _ _ task ht hph
    obtain rfl := Option.some.inj (hj.symm.trans hj')
    obtain ⟨job, owner, status⟩ := pj
    obtain rfl : job = .load a := hjob
    have hlogged : ∀ {o : SrvOp} {k' : o.Res → HandlerProg} {r : o.Res}, task.prog = .call o k' →
        ⟨o, r⟩ ∈ task'.log → task'.HasWaited := by
      intro o k' r hp' hmem
      rw [hp] at hp'
      cases hp'
      exact ⟨a, r, hmem⟩
    cases hs with
    | stay => exact .inl hph
    | cancel => exact .inl ((Task.cancel_phase task).trans hph)
    | sync hp' => exact .inr (hlogged hp' List.mem_concat_self)
    | submit _ hready =>
      rw [hph] at hready
      cases hready
    | frame hp' => exact .inr (hlogged hp' List.mem_concat_self)
    | put hp' =>
      rw [hp] at hp'
      cases hp'
    | putRaises hp' => exact .inr (hlogged hp' List.mem_concat_self)
    | sent hp' => exact .inr (hlogged hp' List.mem_concat_self)
    | jobDone hp' => exact .inr (hlogged hp' List.mem_concat_self)
    | awaitCancelled hp' => exact .inr (hlogged hp' List.mem_concat_self)
    | sendCancelled hp' => exact .inr (hlogged hp' List.mem_concat_self)
    | jobCancelled hp' => exact .inr (hlogged hp' List.mem_concat_self)
    | abort _ hready =>
      rw [hph] at hready
      cases hready
  · exact .inr ⟨a', r, hs.log_prefix.subset hmem⟩

/-- A task that has its load submits no other. -/
theorem OneLoad.not_newJob {pj new : PoolJob} {a a' : LoadAction} {task : Task} (hi : s.OneLoad) (hh : s.Handled d)
    (hj : s.jobs[j]? = some pj) (hjob : pj.job = .load a) (hnew : NewJob s l new) (hnewJob : new.job = .load a')
    (howner : pj.owner = new.owner) (ht : s.tasks[new.owner]? = some task) (hasks : task.AsksLoad) : False := by
  obtain ⟨-, -, task', k, ht', hp, hready⟩ := hnew
  obtain rfl := Option.some.inj (ht.symm.trans ht')
  obtain ⟨job, owner, status⟩ := new
  obtain rfl : job = .load a' := hnewJob
  rcases hi.asked j pj a task hj hjob (howner ▸ ht) with hph | hwaited
  · rw [hready] at hph
    cases hph
  · exact (hh _ task ht).not_hasWaited hasks hp hwaited

theorem OneLoad.step (hi : s.OneLoad) (hh : s.Handled d) (hw : s.Waiting) (hs : Sys.step d h l s = some s') :
    s'.OneLoad := by
  have hold : ∀ {i : Nat} {pi : PoolJob}, s'.jobs[i]? = some pi →
      (∃ p, s.jobs[i]? = some p ∧ pi.job = p.job ∧ pi.owner = p.owner) ∨ (i = s.jobs.length ∧ NewJob s l pi) := by
    intro i pi hpi
    rcases step_jobs hs hpi with ⟨p, hp, hstep⟩ | hnew
    · exact .inl ⟨p, hp, hstep.same⟩
    · exact .inr hnew
  have hback : ∀ {t : Nat} {task' : Task}, t < s.tasks.length → s'.tasks[t]? = some task' →
      ∃ task, s.tasks[t]? = some task ∧ TaskStep d h s t l task task' := by
    intro t task' hlt ht'
    rcases step_trans hs ht' with hback | ⟨hfresh, -⟩
    · exact hback
    · omega
  have hasks : ∀ {t : Nat} {task task' : Task}, TaskStep d h s t l task task' → task'.AsksLoad → task.AsksLoad := by
    rintro t task task' hstep ⟨msg, req, hmsg, hreq, hloads⟩
    exact ⟨msg, req, hstep.msg_eq ▸ hmsg, hreq, hloads⟩
  refine ⟨fun j pj hj => ?_, fun j pj a task' hj hjob ht' => ?_, fun i j pi pj a a' task' hpi hpj hjobi hjobj howner ht' hload => ?_⟩
  · rcases hold hj with ⟨p, hp, -, howner⟩ | ⟨-, -, -, task, k, ht, -⟩
    · rw [howner]
      exact Nat.lt_of_lt_of_le (hi.owned j p hp) (step_length hs)
    · exact Nat.lt_of_lt_of_le (Lookup.lt_length ht) (step_length hs)
  · rcases hold hj with ⟨p, hp, hsame, howner⟩ | ⟨rfl, rfl, -, task, k, ht, -⟩
    · rw [howner] at ht'
      obtain ⟨task, ht, hstep⟩ := hback (hi.owned j p hp) ht'
      exact hi.step_asked hw hp (hsame ▸ hjob) ht hstep
    · rw [submit_task hs ht] at ht'
      obtain rfl := Option.some.inj ht'
      exact .inl rfl
  · rcases hold hpi with ⟨p, hp, hsame, hownerp⟩ | ⟨rfl, hnewi⟩
    · rcases hold hpj with ⟨q, hq, hsameq, hownerq⟩ | ⟨rfl, hnewj⟩
      · rw [hownerq] at ht'
        obtain ⟨task, ht, hstep⟩ := hback (hi.owned j q hq) ht'
        exact hi.unique i j p q a a' task hp hq (hsame ▸ hjobi) (hsameq ▸ hjobj)
          (hownerp.symm.trans (howner.trans hownerq)) ht (hasks hstep hload)
      · rw [← howner, hownerp] at ht'
        obtain ⟨task, ht, hstep⟩ := hback (hi.owned i p hp) ht'
        exact (hi.not_newJob hh hp (hsame ▸ hjobi) hnewj hjobj (hownerp.symm.trans howner)
          (howner ▸ hownerp ▸ ht) (hasks hstep hload)).elim
    · rcases hold hpj with ⟨q, hq, hsameq, hownerq⟩ | ⟨rfl, hnewj⟩
      · rw [hownerq] at ht'
        obtain ⟨task, ht, hstep⟩ := hback (hi.owned j q hq) ht'
        exact (hi.not_newJob hh hq (hsameq ▸ hjobj) hnewi hjobi (hownerq.symm.trans howner.symm)
          (howner ▸ hownerq ▸ ht) (hasks hstep hload)).elim
      · rfl

/-- A load of such a task ends one way. -/
theorem OneLoad.hasRun_unique {a a' : LoadAction} {r r' : Except PyExc (List OutputItem)} {task : Task} (hi : s.OneLoad)
    (ht : s.tasks[t]? = some task) (hasks : task.AsksLoad) {i : Nat} (hrun : s.HasRun i t a r) (hrun' : s.HasRun j t a' r') :
    r = r' := by
  obtain ⟨pi, hpi, rfl, hjobi, hstatus⟩ := hrun
  obtain ⟨pj, hpj, howner, hjobj, hstatus'⟩ := hrun'
  obtain rfl := hi.unique i j pi pj a a' task hpi hpj hjobi hjobj howner.symm (howner ▸ ht) hasks
  obtain rfl := Option.some.inj (hpi.symm.trans hpj)
  exact JobOutcome.load.inj (JobStatus.done.inj (hstatus.symm.trans hstatus'))

theorem OneLoad.exists_call {a : LoadAction} {r : Except PyExc (List OutputItem)} {task : Task} {msg : List Bytes}
    (hi : s.OneLoad) (hh : s.Handled d) (hw : s.Waiting) (ht : s.tasks[t]? = some task) (hmsg : task.msg = some msg)
    (hrun : s.HasRun j t a r) : ∃ a tr k, tr <+: task.log ∧
      Follows (handleRequest d msg).run tr (.call (.runInExecutor (.load a)) k) := by
  obtain ⟨pj, hj, rfl, hjob, -⟩ := hrun
  rcases hi.asked j pj a task hj hjob ht with hph | ⟨a', r', hmem⟩
  · obtain ⟨pj', k, hj', -, hp⟩ := hw _ _ task ht hph
    obtain rfl := Option.some.inj (hj.symm.trans hj')
    obtain ⟨job, owner, status⟩ := pj
    obtain rfl : job = .load a := hjob
    exact ⟨a, task.log, k, List.prefix_rfl, (hh _ task ht).follows hmsg hp⟩
  · have hhandles := hh _ task ht
    unfold Task.Handles at hhandles
    rw [hmsg] at hhandles
    rcases hhandles with hf | ⟨hnil, -⟩
    · obtain ⟨tr, k, hprefix, hcall⟩ := hf.exists_call hmem
      exact ⟨a', tr, k, hprefix, hcall⟩
    · rw [hnil] at hmem
      cases hmem

/-- What the handlers have of their loads has been run. -/
structure LoadsRun (d : Daemon) (s : Sys) : Prop where
  handled : s.Handled d
  waiting : s.Waiting
  oneLoad : s.OneLoad
  sent : ∀ (t : Nat) (task : Task), s.tasks[t]? = some task → task.SentAlong d
  log : ∀ (t : Nat) (task : Task), s.tasks[t]? = some task → ∀ a r,
    ⟨.runInExecutor (.load a), raised r⟩ ∈ task.log → ∃ j, s.HasRun j t a r

theorem mem_snoc {log : List (Coro.Event srvSig)} {e e' : Coro.Event srvSig} (hmem : e ∈ log ++ [e']) :
    e ∈ log ∨ e = e' := by
  rcases List.mem_append.1 hmem with hold | hnew
  · exact .inl hold
  · exact .inr (List.mem_singleton.1 hnew)

theorem raised_ne_cancelled {α : Type} (r : Except PyExc α) : raised r ≠ .error .cancelled := by
  cases r with
  | ok a => exact fun h => by cases h
  | error e => exact fun h => by cases h

theorem raised_inj {α : Type} {r r' : Except PyExc α} (h : raised r = raised r') : r = r' := by
  cases r with
  | ok a =>
    cases r' with
    | ok a' => exact congrArg Except.ok (Except.ok.inj h)
    | error e => cases h
  | error e =>
    cases r' with
    | ok a' => cases h
    | error e' => exact congrArg Except.error (Raised.exc.inj (Except.error.inj h))

/-- A task learns how its load ended from the job it waits for. -/
theorem LoadsRun.step_log {task task' : Task} (hi : s.LoadsRun d) (ht : s.tasks[t]? = some task)
    (hs : TaskStep d h s t l task task') {a : LoadAction} {r : Except PyExc (List OutputItem)}
    (hmem : ⟨.runInExecutor (.load a), raised r⟩ ∈ task'.log) : ∃ j, s.HasRun j t a r := by
  have hlog := hi.log t task ht a r
  cases hs with
  | stay => exact hlog hmem
  | cancel => exact hlog (Task.cancel_log task ▸ hmem)
  | @sync _ _ c o k r' srv _ hr hc =>
    have hold : ⟨.runInExecutor (.load a), raised r⟩ ∈ task.log ++ [⟨o, r'⟩] := by
      rcases hc with rfl | ⟨rfl, -⟩
      · exact hmem
      · rw [Task.complete_log, Task.cancel_log] at hmem
        exact hmem
    rcases mem_snoc hold with hold | hnew
    · exact hlog hold
    · cases hnew
      cases hr
  | submit => exact hlog hmem
  | put => exact hlog hmem
  | abort => exact hlog hmem
  | frame => rcases mem_snoc hmem with hold | hnew; exacts [hlog hold, by cases hnew]
  | putRaises => rcases mem_snoc hmem with hold | hnew; exacts [hlog hold, by cases hnew]
  | sent => rcases mem_snoc hmem with hold | hnew; exacts [hlog hold, by cases hnew]
  | @jobDone _ job k j pj outcome r' hp hph _ hj hstatus hr =>
    rcases mem_snoc hmem with hold | hnew
    · exact hlog hold
    · obtain ⟨pj', k', hj', howner, hp'⟩ := hi.waiting t j task ht hph
      obtain rfl := Option.some.inj (hj.symm.trans hj')
      rw [hp] at hp'
      have hjob : job = pj.job := by
        cases hp'
        rfl
      cases hnew
      cases outcome with
      | load r' =>
        obtain rfl := raised_inj (Option.some.inj hr)
        exact ⟨j, pj, hj, howner, hjob.symm, hstatus⟩
      | teardown r' => cases hr
      | extract r' => cases hr
  | awaitCancelled => rcases mem_snoc hmem with hold | hnew; exacts [hlog hold, by cases hnew]
  | sendCancelled => rcases mem_snoc hmem with hold | hnew; exacts [hlog hold, by cases hnew]
  | jobCancelled =>
    rcases mem_snoc hmem with hold | hnew
    · exact hlog hold
    · obtain ⟨hop, hres⟩ := Coro.Event.mk.inj hnew
      cases hop
      exact absurd (eq_of_heq hres) (raised_ne_cancelled r)

theorem LoadsRun.step (hi : s.LoadsRun d) (hs : Sys.step d h l s = some s') : s'.LoadsRun d := by
  refine ⟨hi.handled.step hs, hi.waiting.step hs, hi.oneLoad.step hi.handled hi.waiting hs, fun t task' ht => ?_, fun t task' ht a r hmem => ?_⟩
  · rcases Sys.step_trans hs ht with ⟨task, ht₀, hstep⟩ | ⟨-, -, hf⟩
    · exact (hi.sent t task ht₀).step (hi.handled t task ht₀) hstep
    · cases hf with
      | request msg => exact fun message hm => by cases hm
      | broadcast payload subscribers => exact fun message hm => by cases hm
  · rcases Sys.step_trans hs ht with ⟨task, ht₀, hstep⟩ | ⟨-, -, hf⟩
    · obtain ⟨j, hrun⟩ := hi.step_log ht₀ hstep hmem
      exact ⟨j, hrun.step hs⟩
    · cases hf with
      | request msg => cases hmem
      | broadcast payload subscribers => cases hmem

theorem loadsRun_init (runner : RunnerState) (metrics : ServerMetricsCollector) :
    (Sys.init runner metrics).LoadsRun d := by
  refine ⟨?_, ?_, oneLoad_init runner metrics, ?_, ?_⟩
  · exact fun _ _ ht => by cases ht
  · exact fun _ _ _ ht => by cases ht
  · exact fun _ _ ht => by cases ht
  · exact fun _ _ ht => by cases ht

theorem hasRun_jobRun {a : LoadAction} {w : LoadWorld} {pj : PoolJob} (hs : Sys.step d h (.jobRun j (.load w)) s = some s')
    (hj : s.jobs[j]? = some pj) (hjob : pj.job = .load a) :
    s'.HasRun j pj.owner a ((a.run w).exec s.srv.runner).1 := by
  cases step_to hs with
  | @jobRun _ _ pj' outcome runner hj' hr ho =>
    obtain rfl := Option.some.inj (hj'.symm.trans hj)
    obtain ⟨job, owner, status⟩ := pj'
    obtain rfl : job = .load a := hjob
    obtain rfl := (Prod.mk.inj (Option.some.inj ho)).1
    refine ⟨⟨.load a, owner, .done (.load ((a.run w).exec s.srv.runner).1)⟩, ?_, rfl, rfl, rfl⟩
    simp only [setStatus, List.getElem?_modify_eq, hj]
    rfl

/-- The step in which the load ran. -/
theorem step_hasRun {a : LoadAction} {r : Except PyExc (List OutputItem)} (hs : Sys.step d h l s = some s')
    (hno : ¬ s.HasRun j t a r) (hrun : s'.HasRun j t a r) :
    ∃ w pj, l = .jobRun j (.load w) ∧ s.jobs[j]? = some pj ∧ pj.owner = t ∧ pj.job = .load a ∧
      ((a.run w).exec s.srv.runner).1 = r := by
  obtain ⟨pj', hj', howner, hjob, hstatus⟩ := hrun
  rcases step_jobs hs hj' with ⟨pj, hj, hstep⟩ | ⟨-, -, hq, -⟩
  · obtain ⟨hsame, hsameOwner⟩ := hstep.same
    cases hstep with
    | stay => exact absurd ⟨_, hj, howner, hjob, hstatus⟩ hno
    | drop => cases hstatus
    | start => cases hstatus
    | @run _ w outcome runner hr ho =>
      obtain rfl := JobStatus.done.inj hstatus
      obtain ⟨job, owner, status⟩ := pj
      obtain rfl : job = .load a := hjob
      cases w with
      | load w => exact ⟨w, _, rfl, hj, howner, rfl, JobOutcome.load.inj (Prod.mk.inj (Option.some.inj ho)).1⟩
      | teardown w => cases ho
      | extract raises => cases ho
  · rw [hq] at hstatus
    cases hstatus

end Sys

/-- What the handler of a load has answered; `Ran` says which load has run and how it ended. -/
inductive LoadAnswer (d : Daemon) (req : RequestEnvelope) (log : List (Coro.Event srvSig))
    (Ran : LoadAction → Except PyExc (List OutputItem) → Prop) : List Bytes → Prop
  | refused {status : StatusCode} {payload : RemoteErrorPayload} {bytes : Bytes} (hnone : ∀ a r, ¬ Ran a r)
      (hstatus : status ∈ [.unauthorized, .permissionDenied, .invalidPayload])
      (hpack : pack d.msgspec payload = .ok bytes) :
      LoadAnswer d req log Ran [req.identity, req.reqIdBytes, [status.byte], bytes]
  | loaded {a : LoadAction} {outputs : List OutputItem} {bytes : Bytes}
      (ha : a.AskedBy d req.command req.payloadBytes) (hran : Ran a (.ok outputs))
      (hpack : pack d.msgspec outputs = .ok bytes) :
      LoadAnswer d req log Ran [req.identity, req.reqIdBytes, [StatusCode.ok.byte], bytes]
  | failed {a : LoadAction} {r : Except PyExc (List OutputItem)} {e : PyExc} {tb : Traceback} {bytes : Bytes}
      (ha : a.AskedBy d req.command req.payloadBytes) (hran : Ran a r)
      (hwhy : r = .error e ∨ ∃ outputs, r = .ok outputs ∧ (pack d.msgspec outputs = .error e ∨
        ∃ parts, ⟨.send .reply parts, .error (.exc e)⟩ ∈ log))
      (htb : ⟨.traceback (origError e), tb⟩ ∈ log) (hpack : pack d.msgspec (buildErrorPayload e tb) = .ok bytes) :
      LoadAnswer d req log Ran [req.identity, req.reqIdBytes, [(loadStatus e).byte], bytes]

section

variable {d : Daemon} {s : Sys} {t : Nat} {req : RequestEnvelope}

theorem LoadReply.answer {g : LoadTrail} {log : List (Coro.Event srvSig)} {reply : List Bytes}
    {Ran : LoadAction → Except PyExc (List OutputItem) → Prop} (hr : LoadReply d req g reply) (hfrom : g.From log)
    (hnone : g.asked = false → ∀ a r, ¬ Ran a r) (hran : ∀ a r, g.job = some (a, r) → Ran a r) :
    LoadAnswer d req log Ran reply := by
  cases hr with
  | refused hunasked hstatus hpack => exact .refused (hnone hunasked) hstatus hpack
  | loaded ha hjob hpack => exact .loaded ha (hran _ _ hjob) hpack
  | failed ha hfails htb hpack =>
    obtain ⟨hjob, hwhy⟩ := hfails
    refine .failed ha (hran _ _ hjob) (hwhy.imp id ?_) (hfrom.traceback _ _ htb) hpack
    rintro ⟨outputs, rfl, hunsent⟩
    exact ⟨outputs, rfl, hunsent.imp id (hfrom.raised _)⟩

/-- Every reply to a load tells how the job of this very handler has ended. -/
theorem Sys.LoadsRun.answer {task : Task} {msg reply : List Bytes} (hi : s.LoadsRun d) (ht : s.tasks[t]? = some task)
    (hmsg : task.msg = some msg) (hreq : RequestEnvelope.fromFrames msg = .ok req) (hloads : req.command.loads = true)
    (hw : (.reply, reply) ∈ task.wire) : LoadAnswer d req task.log (fun a r => ∃ j, s.HasRun j t a r) reply := by
  obtain ⟨start, tr, k, hstart, hprefix, hf⟩ := hi.sent t task ht _ hw
  rw [hmsg] at hstart
  obtain rfl : start = (handleRequest d msg).run := hstart
  have hpre : LoadReply d req ((loadMonitor d req).run {} tr) reply :=
    Coro.pre_follows_call (loadMonitor d req) (wp_handleRequest_load ⟨rfl, rfl⟩ hreq hloads) hf (allows_load tr)
  have hfrom : ((loadMonitor d req).run {} tr).From task.log := (LoadTrail.from_empty.run tr).mono hprefix.subset
  refine hpre.answer hfrom (fun hnone a r hrun => ?_) (fun a r hjob => hi.log t task ht a r (hfrom.job a r hjob))
  obtain ⟨j, hrun⟩ := hrun
  obtain ⟨a', tr', k', hprefix', hload⟩ := hi.oneLoad.exists_call hi.handled hi.waiting ht hmsg hrun
  exact not_asks_of_replies hreq hloads hf hload hprefix hprefix' hnone

end

end VsRemote
