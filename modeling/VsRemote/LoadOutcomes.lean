import VsRemote.Agreement
import VsRemote.LoadReplies

/-! What a client is told of a load: what the script did when the server ran it. -/

namespace VsRemote

namespace LoadAction

/-- The typed method that asks for the load. -/
def call (c : Client) : LoadAction → ClientCall (List OutputItem) (ResponsePayload (List OutputItem))
  | .loadScript p => c.loadScript p.scriptPath p.chdir
  | .loadCode p => c.loadCode p.code p.filename
  | .reload p => c.reload p.chdir

def context : LoadAction → String
  | .loadScript p => "Failed to load script " ++ p.scriptPath
  | .loadCode _ => "Failed to load code"
  | .reload _ => "Failed to reload script"

def payloadBytes (m : Msgspec) : LoadAction → Except PyExc Bytes
  | .loadScript p => pack m p
  | .loadCode p => pack m p
  | .reload p => pack m p

theorem loads_command (a : LoadAction) : a.command.loads = true := by
  cases a <;> rfl

/-- The server decodes the load that was packed. -/
theorem AskedBy.eq {d : Daemon} {a a' : LoadAction} {bytes : Bytes} (ha : a'.AskedBy d a.command bytes)
    (hm : d.msgspec.Lawful) (hbytes : a.payloadBytes d.msgspec = .ok bytes) : a' = a := by
  obtain ⟨⟨hcmd, -⟩, hp⟩ := ha
  cases a with
  | reload p =>
    cases a' with
    | reload p' =>
      rw [unpackPayload_pack hm hbytes] at hp
      exact congrArg LoadAction.reload (Except.ok.inj hp).symm
    | _ => cases hcmd
  | loadCode p =>
    cases a' with
    | loadCode p' =>
      rw [unpackPayload_pack hm hbytes] at hp
      exact congrArg LoadAction.loadCode (Except.ok.inj hp).symm
    | _ => cases hcmd
  | loadScript p =>
    cases a' with
    | loadScript p' =>
      rw [unpackPayload_pack hm hbytes] at hp
      exact congrArg LoadAction.loadScript (Except.ok.inj hp).symm
    | _ => cases hcmd

end LoadAction

/-- The exception that the future of a failed load raises. -/
def loadError (context : String) (e : PyExc) (tb : Traceback) : RemoteError where
  cls := if e.isNotFound then .remoteNotFoundError else .remoteExecutionError
  message := contextMessage context (buildErrorPayload e tb).error
  status := loadStatus e
  payload := some (buildErrorPayload e tb)

/-- What the future of a load is settled with, and what has happened on the server. -/
inductive LoadTold (a : LoadAction) (log : List (Coro.Event srvSig)) (m : Msgspec)
    (Ran : Except PyExc (List OutputItem) → Prop) : Except ClientError (ResponsePayload (List OutputItem)) → Prop
  | refused {err : RemoteError} (hnone : ∀ r, ¬ Ran r)
      (hcls : err.cls ∈ [.remoteAuthenticationError, .remotePermissionError, .remotePayloadError]) :
      LoadTold a log m Ran (.error (.remote err))
  | loaded {outputs : List OutputItem} (hran : Ran (.ok outputs)) : LoadTold a log m Ran (.ok (.value outputs))
  | failed {e : PyExc} {tb : Traceback} (hran : Ran (.error e)) (htb : ⟨.traceback (origError e), tb⟩ ∈ log) :
      LoadTold a log m Ran (.error (.remote (loadError a.context e tb)))
  | unsent {outputs : List OutputItem} {e : PyExc} {tb : Traceback} (hran : Ran (.ok outputs))
      (hwhy : pack m outputs = .error e ∨ ∃ parts, ⟨.send .reply parts, .error (.exc e)⟩ ∈ log)
      (htb : ⟨.traceback (origError e), tb⟩ ∈ log) : LoadTold a log m Ran (.error (.remote (loadError a.context e tb)))

theorem settle_load_error {c : Client} (hm : c.msgspec.Lawful) (a : LoadAction) {status : StatusCode}
    {cls : RemoteErrorClass} (hcls : status.exceptionCls = some cls) {payload : RemoteErrorPayload} {bytes : Bytes}
    (hpack : pack c.msgspec payload = .ok bytes) :
    (a.call c).settle c.msgspec [[status.byte], bytes] =
      .error (.remote ⟨cls, contextMessage a.context payload.error, status, some payload⟩) := by
  have hne : status ≠ .ok := by
    rintro rfl
    cases hcls
  have hpayload : errorPayload c.msgspec status bytes = payload := by
    rw [errorPayload, unpackPayload_pack hm hpack]
  cases a
  all_goals
    simp only [LoadAction.call, Client.loadScript, Client.loadCode, Client.reload]
    rw [settle_error hne, hpayload]
    simp only [Client.payloadCall, ResponseEnvelope.raiseForStatus, StatusCode.raiseForStatus, if_neg hne, hcls]
    rfl

theorem settle_load_value {c : Client} (hm : c.msgspec.Lawful) (a : LoadAction) {outputs : List OutputItem} {bytes : Bytes}
    (hpack : pack c.msgspec outputs = .ok bytes) :
    (a.call c).settle c.msgspec [[StatusCode.ok.byte], bytes] = .ok (.value outputs) := by
  cases a with
  | loadScript p => exact payloadCall_value hm hpack
  | loadCode p => exact payloadCall_value hm hpack
  | reload p => exact payloadCall_value hm hpack

theorem exceptionCls_loadStatus (e : PyExc) : (loadStatus e).exceptionCls =
    some (if e.isNotFound then .remoteNotFoundError else .remoteExecutionError) := by
  unfold loadStatus
  cases e.isNotFound
  · rfl
  · rfl

/-- The client makes of the answer what the server has put in. -/
theorem LoadAnswer.told {d : Daemon} {c : Client} {req : RequestEnvelope} {log : List (Coro.Event srvSig)}
    {Ran : LoadAction → Except PyExc (List OutputItem) → Prop} {a : LoadAction} {reply : List Bytes}
    (ha : LoadAnswer d req log Ran reply) (hm : d.msgspec.Lawful) (hc : c.msgspec = d.msgspec)
    (hcmd : req.command = a.command) (hbytes : a.payloadBytes d.msgspec = .ok req.payloadBytes) :
    LoadTold a log d.msgspec (Ran a) ((a.call c).settle d.msgspec (replyFrames reply)) := by
  have hsame : ∀ a' : LoadAction, a'.AskedBy d req.command req.payloadBytes → a' = a := by
    intro a' hasked
    rw [hcmd] at hasked
    exact hasked.eq hm hbytes
  rw [← hc] at hm
  cases ha with
  | @refused status payload bytes hnone hstatus hpack =>
    rw [← hc] at hpack
    obtain ⟨cls, hcls, hmem⟩ : ∃ cls, status.exceptionCls = some cls ∧
        cls ∈ [RemoteErrorClass.remoteAuthenticationError, .remotePermissionError, .remotePayloadError] := by
      simp only [List.mem_cons, List.not_mem_nil, or_false] at hstatus
      obtain rfl | rfl | rfl := hstatus
      · exact ⟨_, rfl, by decide⟩
      · exact ⟨_, rfl, by decide⟩
      · exact ⟨_, rfl, by decide⟩
    have hsettle := settle_load_error hm a hcls hpack
    rw [hc] at hsettle
    rw [show replyFrames [req.identity, req.reqIdBytes, [status.byte], bytes] = [[status.byte], bytes] from rfl, hsettle]
    exact .refused (hnone a) hmem
  | @loaded a' outputs bytes hasked hran hpack =>
    obtain rfl := hsame a' hasked
    rw [← hc] at hpack
    have hsettle := settle_load_value hm a' hpack
    rw [hc] at hsettle
    rw [show replyFrames [req.identity, req.reqIdBytes, [StatusCode.ok.byte], bytes] = [[StatusCode.ok.byte], bytes]
      from rfl, hsettle]
    exact .loaded hran
  | @failed a' r e tb bytes hasked hran hwhy htb hpack =>
    obtain rfl := hsame a' hasked
    rw [← hc] at hpack
    have hsettle := settle_load_error hm a' (exceptionCls_loadStatus e) hpack
    rw [hc] at hsettle
    rw [show replyFrames [req.identity, req.reqIdBytes, [(loadStatus e).byte], bytes] = [[(loadStatus e).byte], bytes]
      from rfl, hsettle]
    rcases hwhy with rfl | ⟨outputs, rfl, hunsent⟩
    · exact .failed hran htb
    · exact .unsent hran hunsent htb

theorem LoadTold.congr {a : LoadAction} {log : List (Coro.Event srvSig)} {m : Msgspec}
    {Ran Ran' : Except PyExc (List OutputItem) → Prop} {settled : Except ClientError (ResponsePayload (List OutputItem))}
    (ht : LoadTold a log m Ran settled) (h : ∀ r, Ran r ↔ Ran' r) : LoadTold a log m Ran' settled := by
  cases ht with
  | refused hnone hcls => exact .refused (fun r hran => hnone r ((h r).2 hran)) hcls
  | loaded hran => exact .loaded ((h _).1 hran)
  | failed hran htb => exact .failed ((h _).1 hran) htb
  | unsent hran hwhy htb => exact .unsent ((h _).1 hran) hwhy htb

namespace Connection

variable {α : Type} {d : Daemon} {h : Host} {m : Msgspec} {s s' start : Connection α} {l : ConnectionLabel α}
  {ls : List (ConnectionLabel α)} {t r : Nat} {a : LoadAction}

theorem loadsRun_step (hi : s.server.LoadsRun d) (hs : step d h m l s = some s') : s'.server.LoadsRun d := by
  rcases step_server hs with hsame | ⟨sl, hserver, -, -⟩
  · rw [hsame]
    exact hi
  · exact hi.step hserver

/-- At this point of the run the pool ran the load for the task, on the runner as it was
then, and the script did this. -/
def LoadRanIn (d : Daemon) (h : Host) (m : Msgspec) (ls : List (ConnectionLabel α)) (start : Connection α) (t : Nat)
    (a : LoadAction) (outcome : Except PyExc (List OutputItem)) : Prop :=
  ∃ (before after : List (ConnectionLabel α)) (j : Nat) (w : LoadWorld) (u : Connection α) (pj : PoolJob),
    ls = before ++ .server (.jobRun j (.load w)) :: after ∧ Runs.run (step d h m) before start = some u ∧
      u.server.jobs[j]? = some pj ∧ pj.owner = t ∧ pj.job = .load a ∧ ((a.run w).exec u.server.srv.runner).1 = outcome

theorem loadRanIn (hr : Runs.run (step d h m) ls start = some s) (hnone : start.server.jobs = []) {j : Nat}
    {outcome : Except PyExc (List OutputItem)} (hrun : s.server.HasRun j t a outcome) :
    LoadRanIn d h m ls start t a outcome := by
  have hno : ¬ start.server.HasRun j t a outcome := by
    rintro ⟨pj, hj, -⟩
    rw [hnone] at hj
    cases hj
  obtain ⟨before, l, after, u, v, rfl, hbefore, hstep, hno, hyes⟩ :=
    Runs.exists_turn hno hr (P := fun s => s.server.HasRun j t a outcome) hrun
  rcases step_server hstep with hsame | ⟨sl, hserver, hsl, -⟩
  · exact absurd (hsame ▸ hyes) hno
  · obtain ⟨w, pj, rfl, hj, howner, hjob, hexec⟩ := Sys.step_hasRun hserver hno hyes
    rcases hsl with rfl | ⟨msg, hmsg⟩
    · exact ⟨before, after, j, w, u, pj, rfl, hbefore, hj, howner, hjob, hexec⟩
    · cases hmsg

theorem LoadRanIn.hasRun {outcome : Except PyExc (List OutputItem)} (hl : LoadRanIn d h m ls start t a outcome)
    (hr : Runs.run (step d h m) ls start = some s) : ∃ j, s.server.HasRun j t a outcome := by
  obtain ⟨before, after, j, w, u, pj, rfl, hbefore, hj, howner, hjob, hexec⟩ := hl
  rw [Runs.run_append hbefore] at hr
  obtain ⟨v, hstep, hafter⟩ := Runs.run_cons_some hr
  have hran : v.server.HasRun j t a outcome := by
    obtain ⟨server, hserver, hv⟩ := Option.bind_eq_some_iff.1 hstep
    obtain rfl := Option.some.inj hv
    rw [← howner, ← hexec]
    exact Sys.hasRun_jobRun hserver hj hjob
  refine ⟨j, Runs.run_inv (I := fun s : Connection α => s.server.HasRun j t a outcome) (fun s l s' hran hs => ?_) hran hafter⟩
  rcases step_server hs with hsame | ⟨sl, hserver, -, -⟩
  · rw [hsame]
    exact hran
  · exact hran.step hserver

theorem loadRanIn_iff (hr : Runs.run (step d h m) ls start = some s) (hnone : start.server.jobs = [])
    {outcome : Except PyExc (List OutputItem)} :
    (∃ j, s.server.HasRun j t a outcome) ↔ LoadRanIn d h m ls start t a outcome :=
  ⟨fun ⟨_, hrun⟩ => loadRanIn hr hnone hrun, fun hl => hl.hasRun hr⟩

theorem Connected.loadTold {req : ClientRequest α} {call : RequestSent α} {reply : Reply}
    (hi : Connected d d.msgspec s) (hloads : s.server.LoadsRun d) (hm : d.msgspec.Lawful) (str : {β : Type} → β → String)
    (hreq : s.client.requests[r]? = some req) (hreply : req.future.reply? = some reply) (hcall : s.calls[r]? = some call)
    (hcmd : call.command = a.command) (hpayload : a.payloadBytes d.msgspec = .ok call.payloadBytes) :
    ∃ t task, AnsweredBy d d.msgspec s r req call reply t task ∧
      LoadTold a task.log d.msgspec (fun outcome => ∃ j, s.server.HasRun j t a outcome)
        ((a.call ⟨d.msgspec, str⟩).settle d.msgspec reply.parts.tail) := by
  obtain ⟨t, task, ha⟩ := hi.answeredBy hreq hreply hcall
  obtain ⟨msg, env, hmsg, hparse, hcommand, henv, -, -⟩ := ha.request
  have hload : env.command.loads = true := by
    rw [hcommand, hcmd]
    exact a.loads_command
  have hanswer := hloads.answer ha.present hmsg hparse hload ha.onSocket
  have htold := hanswer.told (c := ⟨d.msgspec, str⟩) hm rfl (hcommand.trans hcmd) (henv ▸ hpayload)
  rw [replyFrames, List.drop_succ_cons, List.drop_one] at htold
  exact ⟨t, task, ha, htold⟩

theorem loadsRun_run {identity : Bytes} {authToken : Option PyStr} {runner : RunnerState}
    {metrics : ServerMetricsCollector} (hr : Runs.run (step d h m) ls (init identity authToken runner metrics) = some s) :
    s.server.LoadsRun d :=
  Runs.run_inv (I := fun s : Connection α => s.server.LoadsRun d) (fun _ _ _ hi hs => loadsRun_step hi hs)
    (Sys.loadsRun_init runner metrics) hr

/-- In every run of the server, of any other clients, of a client and of a network that
delays, loses and repeats messages, where no reply outlives the id of its request (`InTime`):
the future of a load tells what the script did when the server ran this very load, which it
does once, or that it was refused, and then the server does not run it. -/
theorem load_outcome_told {identity : Bytes} {authToken : Option PyStr} {runner : RunnerState}
    {metrics : ServerMetricsCollector} {req : ClientRequest α} {call : RequestSent α} {reply : Reply}
    (hm : d.msgspec.Lawful) (str : {β : Type} → β → String)
    (hg : Runs.Guarded (step d h d.msgspec) InTime ls (init identity authToken runner metrics))
    (hr : Runs.run (step d h d.msgspec) ls (init identity authToken runner metrics) = some s)
    (hreq : s.client.requests[r]? = some req) (hreply : req.future.reply? = some reply)
    (hcall : s.calls[r]? = some call) (hcmd : call.command = a.command)
    (hpayload : a.payloadBytes d.msgspec = .ok call.payloadBytes) :
    ∃ t task, AnsweredBy d d.msgspec s r req call reply t task ∧
      LoadTold a task.log d.msgspec (LoadRanIn d h d.msgspec ls (init identity authToken runner metrics) t a)
        ((a.call ⟨d.msgspec, str⟩).settle d.msgspec reply.parts.tail) ∧
      ∀ outcome outcome', LoadRanIn d h d.msgspec ls (init identity authToken runner metrics) t a outcome →
        LoadRanIn d h d.msgspec ls (init identity authToken runner metrics) t a outcome' → outcome = outcome' := by
  have hi := (connected_init identity authToken runner metrics).run hg hr
  have hloads := loadsRun_run hr
  obtain ⟨t, task, ha, htold⟩ := hi.loadTold hloads hm str hreq hreply hcall hcmd hpayload
  refine ⟨t, task, ha, htold.congr (fun outcome => loadRanIn_iff hr rfl), fun outcome outcome' hran hran' => ?_⟩
  obtain ⟨msg, env, hmsg, hparse, hcommand, -⟩ := ha.request
  have hasks : task.AsksLoad := ⟨msg, env, hmsg, hparse, hcommand ▸ hcmd ▸ a.loads_command⟩
  obtain ⟨i, hrun⟩ := hran.hasRun hr
  obtain ⟨j, hrun'⟩ := hran'.hasRun hr
  exact hloads.oneLoad.hasRun_unique ha.present hasks hrun hrun'

/-! The script raises when the server reloads it. -/

/-- The MessagePack form of `{"chdir": true}`. -/
def reloadBytes : Bytes := [129, 165, 99, 104, 100, 105, 114, 195]

/-- And of the error of the script. -/
def boomBytes : Bytes :=
  [136, 165, 101, 114, 114, 111, 114, 180, 69, 120, 101, 99, 117, 116, 105, 111, 110, 69, 114, 114, 111, 114, 58, 32,
    98, 111, 111, 109, 168, 101, 120, 99, 95, 116, 121, 112, 101, 174, 69, 120, 101, 99, 117, 116, 105, 111, 110, 69,
    114, 114, 111, 114, 167, 101, 120, 99, 95, 109, 115, 103, 164, 98, 111, 111, 109, 168, 102, 105, 108, 101, 110, 97,
    109, 101, 192, 166, 108, 105, 110, 101, 110, 111, 192, 169, 99, 111, 100, 101, 95, 108, 105, 110, 101, 192, 179,
    102, 111, 114, 109, 97, 116, 116, 101, 100, 95, 116, 114, 97, 99, 101, 98, 97, 99, 107, 160, 166, 102, 114, 97,
    109, 101, 115, 144]

def boom : PyExc := .ofText .executionError "boom"

def boomPayload : RemoteErrorPayload := buildErrorPayload boom ⟨[], ""⟩

/-- msgspec, as far as these two go. -/
def reloadCodec : Msgspec where
  encode
    | .map [("chdir", .bool true)] => .ok reloadBytes
    | .map [("error", .str "ExecutionError: boom"), ("exc_type", .str "ExecutionError"), ("exc_msg", .str "boom"),
        ("filename", .nil), ("lineno", .nil), ("code_line", .nil), ("formatted_traceback", .str ""),
        ("frames", .array [])] => .ok boomBytes
    | _ => .error (.ofText .typeError "unsupported")
  decode b :=
    if b = reloadBytes then .ok (ReloadRequest.mk true).toObj
    else if b = boomBytes then .ok boomPayload.toObj
    else .error "MessagePack data is malformed"

theorem reloadCodec_lawful : reloadCodec.Lawful := by
  refine Msgspec.lawful_of_forms [((ReloadRequest.mk true).toObj, reloadBytes), (boomPayload.toObj, boomBytes)] ?_ ?_
  · intro o b h
    simp only [reloadCodec] at h
    split at h
    · obtain rfl := Except.ok.inj h
      exact .head _
    · obtain rfl := Except.ok.inj h
      exact .tail _ (.head _)
    · cases h
  · exact List.forall_mem_cons.2
      ⟨⟨List.cons_ne_nil _ _, rfl⟩, List.forall_mem_singleton.2 ⟨List.cons_ne_nil _ _, rfl⟩⟩

def reloadDaemon : Daemon := { msgspec := reloadCodec }

def failedReload : List (ConnectionLabel Bytes) :=
  [.client .start, .client .call, .request ⟨.reload, reloadBytes, .ok⟩, .client (.enqueue 0), .deliver 0,
    .server (.sync 0 .ok), .server (.sync 0 .ok), .server (.sync 0 (.time 0)), .server (.submit 0),
    .server (.jobStart 0), .server (.jobRun 0 (.load .failing)), .server (.resume 0),
    .server (.sync 0 (.traceback ⟨[], ""⟩)), .server (.submit 0), .server (.jobStart 1),
    .server (.jobRun 1 (.teardown {})), .server (.resume 0), .server (.put 0 none), .transfer 0 0, .client (.receive 0),
    .client (.settle 0)]

def reloadStart : Connection Bytes := init [7] none scriptSys.srv.runner { startTime := 0 }

theorem load_outcome_told_reload : ∃ s req reply log,
    Runs.run (step reloadDaemon Host.plain reloadCodec) failedReload reloadStart = some s ∧
      s.client.requests[0]? = some req ∧ req.future.reply? = some reply ∧
      LoadTold (.reload ⟨true⟩) log reloadCodec
        (LoadRanIn reloadDaemon Host.plain reloadCodec failedReload reloadStart 0 (.reload ⟨true⟩))
        (.error (.remote (loadError "Failed to reload script" boom ⟨[], ""⟩))) := by
  obtain ⟨s, req, reply, call, hr, hreq, hreply, hparts, hcall, hcmd, hpayload, harrivals⟩ : ∃ s req reply call,
      Runs.run (step reloadDaemon Host.plain reloadCodec) failedReload reloadStart = some s ∧
        s.client.requests[0]? = some req ∧ req.future.reply? = some reply ∧
        reply.parts = [[0, 0, 0, 1], [1], boomBytes] ∧ s.calls[0]? = some call ∧ call.command = .reload ∧
        call.payloadBytes = reloadBytes ∧ s.server.tasks.length = 1 := ⟨_, _, _, _, rfl, rfl, rfl, rfl, rfl, rfl, rfl, rfl⟩
  have hg : Runs.Guarded (step reloadDaemon Host.plain reloadCodec) InTime failedReload reloadStart :=
    guarded_of_short Transport.counted_init (by decide)
  have hpack : (LoadAction.reload ⟨true⟩).payloadBytes reloadDaemon.msgspec = .ok call.payloadBytes := by
    rw [hpayload]
    rfl
  obtain ⟨t, task, ha, htold, -⟩ := load_outcome_told (d := reloadDaemon) (h := Host.plain) (a := .reload ⟨true⟩)
    reloadCodec_lawful (fun _ => "") hg hr hreq hreply hcall hcmd hpack
  obtain rfl : t = 0 := by
    have hlt := Lookup.lt_length ha.present
    omega
  rw [hparts] at htold
  exact ⟨s, req, reply, task.log, hr, hreq, hreply, htold⟩

end Connection

end VsRemote
