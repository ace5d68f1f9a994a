import VsRemote.Addressing
import VsRemote.OutputStores
import VsRemote.RunnerSteps

/-! What the server answers a query of its outputs with: what the runner had when the
handler of this very request asked it. -/

namespace VsRemote

open Handler

def Command.queries : Command → Bool
  | .listOutputs => true
  | .getClipInfo => true
  | _ => false

/-- The replies to a query of the outputs. -/
inductive QueryReply (d : Daemon) (req : RequestEnvelope) (g : List (Coro.Event srvSig)) : List Bytes → Prop
  | refused {status : StatusCode} {bytes : Bytes} (hne : status ≠ .ok) :
      QueryReply d req g [req.identity, req.reqIdBytes, [status.byte], bytes]
  | listed {outputs : List OutputItem} {bytes : Bytes} (hcmd : req.command = .listOutputs)
      (hread : ⟨.runner .listOutputs, outputs⟩ ∈ g) (hpack : pack d.msgspec outputs = .ok bytes) :
      QueryReply d req g [req.identity, req.reqIdBytes, [StatusCode.ok.byte], bytes]
  | described {payload : OutputIndexRequest} {info : ClipInfo} {bytes : Bytes} (hcmd : req.command = .getClipInfo)
      (hpayload : unpackPayload d.msgspec OutputIndexRequest req.payloadBytes = .ok payload)
      (hread : ⟨.runner (.clipInfo payload.outputIndex), .ok info⟩ ∈ g) (hpack : pack d.msgspec info = .ok bytes) :
      QueryReply d req g [req.identity, req.reqIdBytes, [StatusCode.ok.byte], bytes]

def queryPre (d : Daemon) (req : RequestEnvelope) : List (Coro.Event srvSig) → SrvOp → Prop
  | g, .send .reply parts => QueryReply d req g parts
  | _, _ => True

abbrev queryMonitor (d : Daemon) (req : RequestEnvelope) : Coro.Monitor srvSig (List (Coro.Event srvSig)) :=
  Coro.Monitor.log (queryPre d req)

section

variable {d : Daemon} {req : RequestEnvelope} {g : List (Coro.Event srvSig)}

theorem wp_refuseQuery {status : StatusCode} (hne : status ≠ .ok) (message : String) :
    (sendErrorText d req status message).run.wp (queryMonitor d req) (fun _ _ => True) g := by
  rw [sendErrorText, sendError, Coro.wp_run_bind, wp_ofExcept]
  cases pack d.msgspec (messagePayload status message) with
  | error e => trivial
  | ok bytes => exact ⟨.refused hne, fun _ _ => trivial⟩

theorem wp_handleGetClipInfo_query (hcmd : req.command = .getClipInfo) :
    (handleGetClipInfo d req).run.wp (queryMonitor d req) (fun _ _ => True) g := by
  have hfail : ∀ (e : PyExc) (g : List (Coro.Event srvSig)),
      (if e.isKeyError then sendErrorText d req .notFound e.text
        else if e.isMsgspecOrTypeError then sendErrorText d req .invalidPayload ("Invalid OutputIndexRequest: " ++ e.text)
        else throw (.exc e) : Handler Unit).run.wp (queryMonitor d req) (fun _ _ => True) g := by
    intro e g
    rw [Coro.wp_run_ite]
    split
    · exact wp_refuseQuery (by decide) _
    · rw [Coro.wp_run_ite]
      split
      · exact wp_refuseQuery (by decide) _
      · trivial
  unfold handleGetClipInfo
  rw [wp_tryExcept, Coro.wp_run_bind, wp_ofExcept]
  cases hpayload : unpackPayload d.msgspec OutputIndexRequest req.payloadBytes with
  | error e => exact hfail e g
  | ok payload =>
    simp only [Coro.wp_run_bind, wp_runnerGetClipInfo, wp_ofExcept]
    refine ⟨trivial, fun info? _ => ?_⟩
    cases info? with
    | error e => exact hfail e _
    | ok info =>
      simp only
      cases hpack : pack d.msgspec info with
      | error e => exact hfail e _
      | ok bytes =>
        refine ⟨.described hcmd hpayload (List.mem_append_right _ (List.mem_singleton.2 rfl)) hpack, fun r _ => ?_⟩
        rcases r with (_ | e) | _
        · trivial
        · exact hfail e _
        · trivial

theorem wp_dispatchRequest_query (hquery : req.command.queries = true) :
    (dispatchRequest d req).run.wp (queryMonitor d req) (fun _ _ => True) g := by
  unfold dispatchRequest
  cases hcmd : req.command with
  | listOutputs =>
    simp only [Coro.wp_run_bind, wp_runnerListOutputs]
    refine ⟨trivial, fun outputs _ => ?_⟩
    simp only [wp_ofExcept]
    cases hpack : pack d.msgspec outputs with
    | error e => trivial
    | ok bytes =>
      exact ⟨.listed hcmd (List.mem_append_right _ (List.mem_singleton.2 rfl)) hpack, fun _ _ => trivial⟩
  | getClipInfo => exact wp_handleGetClipInfo_query hcmd
  | _ =>
    rw [hcmd] at hquery
    cases hquery

theorem wp_handleRequest_query {msg : List Bytes} (hreq : RequestEnvelope.fromFrames msg = .ok req)
    (hquery : req.command.queries = true) :
    (handleRequest d msg).run.wp (queryMonitor d req) (fun _ _ => True) g := by
  have haccept : ∀ g, (acceptRequest d req).run.wp (queryMonitor d req) (fun _ _ => True) g := by
    intro g
    simp only [acceptRequest, Coro.wp_run_bind, wp_inflightSet, wp_metrics, Coro.wp_run_tryFinally, wp_endRequest]
    refine ⟨trivial, fun _ _ => ⟨trivial, fun _ _ => ?_⟩⟩
    refine Coro.wp_mono _ (wp_dispatchRequest_query hquery) (fun r g' _ => ?_)
    exact ⟨trivial, fun _ _ => ⟨trivial, fun _ _ => trivial⟩⟩
  have hmessage : ∀ g, (handleMessage d msg).run.wp (queryMonitor d req) (fun _ _ => True) g := by
    intro g
    cases htoken : tokenRefused d.authToken req.authToken with
    | error e =>
      rw [handleMessage_of_tokenError hreq htoken]
      trivial
    | ok refused =>
      rw [handleMessage_of_tokenRefused hreq htoken]
      cases refused with
      | true => exact wp_refuseQuery (by decide) _
      | false => exact haccept g
  rw [handleRequest, Coro.wp_run_bind]
  refine ⟨trivial, fun isOpen _ => ?_⟩
  cases isOpen with
  | false => trivial
  | true => exact hmessage _

end

/-- Every reply to a query is made of what the handler has read. -/
theorem Task.SentAlong.queryReply {d : Daemon} {task : Task} {req : RequestEnvelope} {msg reply : List Bytes}
    (hs : task.SentAlong d) (hmsg : task.msg = some msg) (hreq : RequestEnvelope.fromFrames msg = .ok req)
    (hquery : req.command.queries = true) (hw : (.reply, reply) ∈ task.wire) : QueryReply d req task.log reply := by
  obtain ⟨start, tr, k, hstart, hsub, hf⟩ := hs _ hw
  rw [hmsg] at hstart
  obtain rfl : start = (handleRequest d msg).run := hstart
  have hpre : QueryReply d req ((queryMonitor d req).run [] tr) reply :=
    Coro.pre_follows_call (queryMonitor d req) (wp_handleRequest_query hreq hquery) hf
      ((queryMonitor d req).allows_of_forall (fun _ _ _ => trivial) [] tr)
  rw [Coro.Monitor.run_log, List.nil_append] at hpre
  cases hpre with
  | refused hne => exact .refused hne
  | listed hcmd hread hpack => exact .listed hcmd (hsub.subset hread) hpack
  | described hcmd hpayload hread hpack => exact .described hcmd hpayload (hsub.subset hread) hpack

namespace Sys

variable {d : Daemon} {h : Host} {s s' : Sys} {l : Label} {t : Nat}

/-- The task has asked the runner and been told so. -/
def HasAsked (t : Nat) (q : RunnerQuery) (r : q.Res) (s : Sys) : Prop :=
  ∃ task, s.tasks[t]? = some task ∧ ⟨.runner q, r⟩ ∈ task.log

theorem step_hasAsked {q : RunnerQuery} {r : q.Res} (hs : step d h l s = some s') (hno : ¬ s.HasAsked t q r)
    (hasked : s'.HasAsked t q r) : r = q.answer s.srv.runner.runner := by
  obtain ⟨task', ht, hmem⟩ := hasked
  rcases step_answered hs ht hmem with hold | ⟨-, hanswer⟩
  · exact absurd hold hno
  · exact hanswer

end Sys

/-- No load, no clean-up and no closing. -/
def Label.keepsOutputs : Label → Bool
  | .jobRun _ (.load _) => false
  | .jobRun _ (.teardown _) => false
  | .close _ _ => false
  | _ => true

theorem Sys.step_keepsOutputs {d : Daemon} {h : Host} {s s' : Sys} {l : Label} (hl : l.keepsOutputs = true)
    (hs : Sys.step d h l s = some s') : s'.srv.runner = s.srv.runner := by
  cases Sys.step_runnerStep hs with
  | same _ hr => exact hr
  | load => cases hl
  | teardown => cases hl
  | close => cases hl

/-- A load that returns leaves one row for each output it lists. -/
theorem LoadAction.run_holds {a : LoadAction} {w : LoadWorld} {s s' : RunnerState} {outputs : List OutputItem}
    (hr : (a.run w).exec s = (.ok outputs, s')) :
    ∃ rows, s'.runner.stores.Holds rows ∧ outputs = rows.map OutputRow.item := by
  have htouches : a.touches w s.runner = true := by
    by_contra hno
    obtain ⟨e, he, -⟩ := LoadAction.run_untouched (Bool.eq_false_iff.2 hno)
    rw [he] at hr
    cases congrArg Prod.fst hr
  obtain ⟨chdir, source, -, hafter⟩ := LoadAction.run_after htouches
  rw [hafter] at hr
  obtain ⟨_, s₁, hdown, hr⟩ := RunM.exec_bind_ok hr
  obtain ⟨_, s₂, hupdate, hr⟩ := RunM.exec_bind_ok hr
  obtain ⟨_, s₃, hpolicy, hr⟩ := RunM.exec_bind_ok hr
  have hempty : s₃.runner.stores = .empty := by
    have hkeep := ScriptRunner.keepsStores_ensurePolicy w s₂
    rw [hpolicy] at hkeep
    rw [ScriptRunner.exec_update] at hupdate
    obtain rfl := (Prod.mk.inj hupdate).2
    have hdown₁ := ScriptRunner.teardown_stores w.teardown s
    rw [hdown] at hdown₁
    exact hkeep.trans hdown₁
  obtain ⟨rows, hrows, hok⟩ := ScriptRunner.tabular_execute w source s₃ [] (hempty ▸ .empty) rfl
  rw [hr] at hrows hok
  exact ⟨rows, hrows, (hok outputs rfl).1⟩

end VsRemote
