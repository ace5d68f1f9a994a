import VsRemote.LoadOutcomes
import VsRemote.QueryReplies

/-! A client that has been told the outputs of its load and asks for them again: unless the
outputs were changed in between, `list_outputs` and `get_clip_info` tell it the same. -/

namespace VsRemote

theorem StoresAgree.getClipInfo {r : ScriptRunner} (ha : StoresAgree r) {i : Int} {info : ClipInfo}
    (hinfo : r.getClipInfo i = .ok info) : ∃ item ∈ r.outputItems, item.index = i ∧ item.info = info := by
  have hkey : i ∈ r.outputItems.map OutputItem.index :=
    (ha.outputItems i).1 ((ha.clipInfos i).2 (getClipInfo_ok_iff.1 ⟨info, hinfo⟩))
  obtain ⟨item, hitem, rfl⟩ := List.mem_map.1 hkey
  obtain ⟨info', hget, hitemInfo, -⟩ := ha.stored item hitem
  rw [ScriptRunner.getClipInfo, hget] at hinfo
  exact ⟨item, hitem, rfl, hitemInfo.trans (Except.ok.inj hinfo)⟩

/-- What the client is told of the outputs, if it is not refused. -/
structure ReadsOutputs (c : Client) (outputs : List OutputItem) (command : Command) (payloadBytes : Bytes)
    (frames : List Bytes) : Prop where
  listed : command = .listOutputs →
    (∃ e, c.listOutputs.settle c.msgspec frames = .error (.remote e)) ∨
      c.listOutputs.settle c.msgspec frames = .ok (.value outputs)
  described : command = .getClipInfo → ∀ i, pack c.msgspec (OutputIndexRequest.mk i) = .ok payloadBytes →
    (∃ e, (c.getClipInfo i).settle c.msgspec frames = .error (.remote e)) ∨
      ∃ item ∈ outputs, item.index = i ∧ (c.getClipInfo i).settle c.msgspec frames = .ok (.value item.info)

/-- The client makes of the reply what the runner has answered. -/
theorem QueryReply.reads {d : Daemon} {req : RequestEnvelope} {log : List (Coro.Event srvSig)} {reply : List Bytes}
    (hq : QueryReply d req log reply) (hm : d.msgspec.Lawful) (str : {β : Type} → β → String) {r : ScriptRunner}
    (ha : StoresAgree r) (hlog : ∀ (q : RunnerQuery) (res : q.Res), ⟨.runner q, res⟩ ∈ log → res = q.answer r) :
    ReadsOutputs ⟨d.msgspec, str⟩ r.outputItems req.command req.payloadBytes (replyFrames reply) := by
  cases hq with
  | refused hne =>
    refine ⟨fun _ => .inl ?_, fun _ i _ => .inl ?_⟩
    · obtain ⟨e, he, -⟩ := payloadCall_error (c := ⟨d.msgspec, str⟩) (α := List OutputItem) hne
      exact ⟨e, he⟩
    · obtain ⟨e, he, -⟩ := payloadCall_error (c := ⟨d.msgspec, str⟩) (α := ClipInfo) hne
      exact ⟨e, he⟩
  | listed hcmd hread hpack =>
    refine ⟨fun _ => .inr ?_, fun hinfo => ?_⟩
    · obtain rfl := hlog _ _ hread
      exact payloadCall_value (c := ⟨d.msgspec, str⟩) hm hpack
    · rw [hcmd] at hinfo
      cases hinfo
  | described hcmd hpayload hread hpack =>
    refine ⟨fun hlist => ?_, fun _ i hi => .inr ?_⟩
    · rw [hcmd] at hlist
      cases hlist
    · rw [unpackPayload_pack hm hi] at hpayload
      obtain rfl := Except.ok.inj hpayload
      obtain ⟨item, hitem, hindex, rfl⟩ := ha.getClipInfo (hlog _ _ hread).symm
      exact ⟨item, hitem, hindex, payloadCall_value (c := ⟨d.msgspec, str⟩) hm hpack⟩

/-- The load that ends in the step leaves what it makes of the runner. -/
theorem Sys.step_loaded {d : Daemon} {h : Host} {s s' : Sys} {j : Nat} {w : LoadWorld} {pj : PoolJob} {a : LoadAction}
    (hs : Sys.step d h (.jobRun j (.load w)) s = some s') (hj : s.jobs[j]? = some pj) (hjob : pj.job = .load a) :
    s'.srv.runner = ((a.run w).exec s.srv.runner).2 := by
  cases step_to hs with
  | @jobRun _ _ pj' outcome runner hj' hr ho =>
    obtain rfl := Option.some.inj (hj'.symm.trans hj)
    obtain ⟨job, owner, status⟩ := pj'
    obtain rfl : job = .load a := hjob
    exact (Prod.mk.inj (Option.some.inj ho)).2.symm

def ConnectionLabel.keepsOutputs {α : Type} : ConnectionLabel α → Bool
  | .server l => l.keepsOutputs
  | _ => true

namespace Connection

variable {α : Type} {d : Daemon} {h : Host} {m : Msgspec} {s s' u start : Connection α} {l : ConnectionLabel α}
  {ls first later after : List (ConnectionLabel α)} {t r : Nat} {a : LoadAction} {outputs : List OutputItem}

theorem step_keepsOutputs (hl : l.keepsOutputs = true) (hs : step d h m l s = some s') :
    s'.server.srv.runner = s.server.srv.runner := by
  rcases step_server hs with hsame | ⟨sl, hserver, rfl | ⟨msg, rfl⟩, -⟩
  · rw [hsame]
  · exact Sys.step_keepsOutputs hl hserver
  · exact Sys.step_keepsOutputs rfl hserver

theorem run_keepsOutputs (hkeeps : ∀ l ∈ ls, l.keepsOutputs = true) (hr : Runs.run (step d h m) ls s = some s') :
    s'.server.srv.runner = s.server.srv.runner := by
  induction ls generalizing s with
  | nil => rw [Option.some.inj hr]
  | cons l ls ih =>
    obtain ⟨u, hs, hr⟩ := Runs.run_cons_some hr
    have hrest := ih (fun l' hl' => hkeeps l' (List.mem_cons_of_mem l hl')) hr
    exact hrest.trans (step_keepsOutputs (hkeeps l (List.mem_cons_self ..)) hs)

/-- What has arrived by then came from a request that was there. -/
theorem arrives_late (hi : Connected d m u) (hr : Runs.run (step d h m) later u = some s)
    (hlate : u.client.requests.length ≤ r) (hlookup : s.arrivals.lookup t = some r) : u.server.tasks[t]? = none := by
  by_contra hsome
  obtain ⟨task, ht⟩ := Option.ne_none_iff_exists'.1 hsome
  have hkept : t < s.server.tasks.length ∧ s.arrivals.lookup t = u.arrivals.lookup t := by
    refine Runs.run_inv (I := fun s => t < s.server.tasks.length ∧ s.arrivals.lookup t = u.arrivals.lookup t) ?_
      ⟨Lookup.lt_length ht, rfl⟩ hr
    rintro s l s' ⟨hlt, heq⟩ hs
    have hext := step_extends hs
    obtain ⟨task', ht', -⟩ := hext.tasks t _ (List.getElem?_eq_getElem hlt)
    exact ⟨Lookup.lt_length ht', (hext.arrivals t hlt).trans heq⟩
  obtain ⟨task', hh⟩ := hi.arrived t r (hkept.2.symm.trans hlookup)
  obtain ⟨req, -, -, hreq, -⟩ := hh.handles
  exact absurd (Lookup.lt_length hreq) (Nat.not_lt.2 hlate)

/-- What a task has asked that was not there before, the runner has answered since. -/
theorem answered_late {q : RunnerQuery} {res : q.Res} {task : Task} (hkeeps : ∀ l ∈ later, l.keepsOutputs = true)
    (hr : Runs.run (step d h m) later u = some s) (hnone : u.server.tasks[t]? = none)
    (ht : s.server.tasks[t]? = some task) (hread : ⟨.runner q, res⟩ ∈ task.log) :
    res = q.answer u.server.srv.runner.runner := by
  have hno : ¬ u.server.HasAsked t q res := by
    rintro ⟨task', ht', -⟩
    rw [hnone] at ht'
    cases ht'
  obtain ⟨before, l, rest, v, v', rfl, hbefore, hstep, hno, hyes⟩ :=
    Runs.exists_turn hno hr (P := fun s => s.server.HasAsked t q res) ⟨task, ht, hread⟩
  rw [← run_keepsOutputs (fun l' hl' => hkeeps l' (List.mem_append_left _ hl')) hbefore]
  rcases step_server hstep with hsame | ⟨sl, hserver, -, -⟩
  · exact absurd (hsame ▸ hyes) hno
  · exact Sys.step_hasAsked hserver hno hyes

/-- The pool ran the load for the task, it returned these outputs, and then came these steps. -/
def LoadedThen (d : Daemon) (h : Host) (m : Msgspec) (ls : List (ConnectionLabel α)) (start : Connection α) (t : Nat)
    (a : LoadAction) (outputs : List OutputItem) (after : List (ConnectionLabel α)) : Prop :=
  ∃ (before : List (ConnectionLabel α)) (j : Nat) (w : LoadWorld) (u : Connection α) (pj : PoolJob),
    ls = before ++ .server (.jobRun j (.load w)) :: after ∧ Runs.run (step d h m) before start = some u ∧
      u.server.jobs[j]? = some pj ∧ pj.owner = t ∧ pj.job = .load a ∧
      ((a.run w).exec u.server.srv.runner).1 = .ok outputs

/-- Where nothing changes them afterwards the runner has these outputs at the end. -/
theorem LoadedThen.agree (hl : LoadedThen d h m ls start t a outputs after)
    (hr : Runs.run (step d h m) ls start = some s) (hkeeps : ∀ l ∈ after, l.keepsOutputs = true) :
    StoresAgree s.server.srv.runner.runner ∧ s.server.srv.runner.runner.outputItems = outputs := by
  obtain ⟨before, j, w, u, pj, rfl, hbefore, hj, -, hjob, hok⟩ := hl
  rw [Runs.run_append hbefore] at hr
  obtain ⟨v, hstep, hafter⟩ := Runs.run_cons_some hr
  have hload : v.server.srv.runner = ((a.run w).exec u.server.srv.runner).2 := by
    obtain ⟨server, hserver, hv⟩ := Option.bind_eq_some_iff.1 hstep
    obtain rfl := Option.some.inj hv
    exact Sys.step_loaded hserver hj hjob
  have hexec : (a.run w).exec u.server.srv.runner = (.ok outputs, v.server.srv.runner) := Prod.ext hok hload.symm
  obtain ⟨rows, hrows, hitems⟩ := LoadAction.run_holds hexec
  rw [run_keepsOutputs hkeeps hafter]
  exact ⟨hrows.agree, hrows.outputItems.trans hitems.symm⟩

/-- In every run of the server, of any other clients, of a client and of a network that
delays, loses and repeats messages, where no reply outlives the id of its request (`InTime`):
once the future of a load has told its outputs, every query that the client makes afterwards
tells the same, as long as no other load, no clean-up and no closing has come after this
load. -/
theorem loaded_outputs_read {identity : Bytes} {authToken : Option PyStr} {runner : RunnerState}
    {metrics : ServerMetricsCollector} {req : ClientRequest α} {call : RequestSent α} {reply : Reply}
    (hm : d.msgspec.Lawful) (str : {β : Type} → β → String)
    (hg : Runs.Guarded (step d h d.msgspec) InTime first (init identity authToken runner metrics))
    (hu : Runs.run (step d h d.msgspec) first (init identity authToken runner metrics) = some u)
    (hreq : u.client.requests[r]? = some req) (hreply : req.future.reply? = some reply)
    (hcall : u.calls[r]? = some call) (hcmd : call.command = a.command)
    (hpayload : a.payloadBytes d.msgspec = .ok call.payloadBytes)
    (htold : (a.call ⟨d.msgspec, str⟩).settle d.msgspec reply.parts.tail = .ok (.value outputs))
    (hg' : Runs.Guarded (step d h d.msgspec) InTime later u) (hr : Runs.run (step d h d.msgspec) later u = some s) :
    ∃ t task after, AnsweredBy d d.msgspec u r req call reply t task ∧
      LoadedThen d h d.msgspec first (init identity authToken runner metrics) t a outputs after ∧
      ((∀ l ∈ after ++ later, l.keepsOutputs = true) →
        ∀ (r' : Nat) (req' : ClientRequest α) (call' : RequestSent α) (reply' : Reply),
          u.client.requests.length ≤ r' → s.client.requests[r']? = some req' → req'.future.reply? = some reply' →
            s.calls[r']? = some call' →
              ReadsOutputs ⟨d.msgspec, str⟩ outputs call'.command call'.payloadBytes reply'.parts.tail) := by
  have hi := (connected_init identity authToken runner metrics).run hg hu
  have hloads := loadsRun_run hu
  obtain ⟨t, task, ha, hload⟩ := hi.loadTold hloads hm str hreq hreply hcall hcmd hpayload
  rw [htold] at hload
  cases hload with
  | loaded hran =>
    obtain ⟨j, hran⟩ := hran
    obtain ⟨before, after, j, w, v, pj, hls, hbefore, hj, howner, hjob, hok⟩ := loadRanIn hu rfl hran
    have hthen : LoadedThen d h d.msgspec first (init identity authToken runner metrics) t a outputs after :=
      ⟨before, j, w, v, pj, hls, hbefore, hj, howner, hjob, hok⟩
    refine ⟨t, task, after, ha, hthen, fun hkeeps r' req' call' reply' hlate hreq' hreply' hcall' => ?_⟩
    obtain ⟨hagree, hitems⟩ := hthen.agree hu (fun l hl => hkeeps l (List.mem_append_left _ hl))
    obtain ⟨t', task', ha'⟩ := (hi.run hg' hr).answeredBy hreq' hreply' hcall'
    obtain ⟨msg, env, hmsg, hparse, hcommand, henv, -, -⟩ := ha'.request
    rw [← hcommand, ← henv]
    by_cases hquery : env.command.queries = true
    · have hsent := (Runs.run_inv (I := fun s : Connection α => s.server.LoadsRun d)
        (fun _ _ _ hi hs => loadsRun_step hi hs) hloads hr).sent t' task' ha'.present
      have hreads := (hsent.queryReply hmsg hparse hquery ha'.onSocket).reads hm str hagree (fun q res hread =>
        answered_late (fun l hl => hkeeps l (List.mem_append_right _ hl)) hr (arrives_late hi hr hlate ha'.arrived)
          ha'.present hread)
      rw [hitems, replyFrames, List.drop_succ_cons, List.drop_one] at hreads
      exact hreads
    · refine ⟨fun hlist => ?_, fun hinfo => ?_⟩
      · rw [hlist] at hquery
        exact absurd rfl hquery
      · rw [hinfo] at hquery
        exact absurd rfl hquery

/-! A client reloads a script with one clip and asks for its outputs. -/

def clipItem : OutputItem :=
  { index := 0, name := "Output 0", info :=
    { width := 2, height := 2, fpsNum := 24, fpsDen := 1, numFrames := 1, formatId := 268959744, formatName := "Gray8",
      numPlanes := 1, bytesPerSample := 1, bitsPerSample := 8, subsamplingW := 0, subsamplingH := 0, sampleType := 0,
      colorFamily := 1, planes := [⟨2, 2, 1, 4⟩], name := "Output 0" } }

/-- The MessagePack form of a list of this item. -/
def clipItemBytes : Bytes :=
  [145, 131, 165, 105, 110, 100, 101, 120, 0, 164, 110, 97, 109, 101, 168, 79, 117, 116, 112, 117, 116, 32, 48, 164,
    105, 110, 102, 111, 222, 0, 16, 165, 119, 105, 100, 116, 104, 2, 166, 104, 101, 105, 103, 104, 116, 2, 167, 102,
    112, 115, 95, 110, 117, 109, 24, 167, 102, 112, 115, 95, 100, 101, 110, 1, 170, 110, 117, 109, 95, 102, 114, 97,
    109, 101, 115, 1, 169, 102, 111, 114, 109, 97, 116, 95, 105, 100, 206, 16, 8, 0, 0, 171, 102, 111, 114, 109, 97,
    116, 95, 110, 97, 109, 101, 165, 71, 114, 97, 121, 56, 170, 110, 117, 109, 95, 112, 108, 97, 110, 101, 115, 1,
    176, 98, 121, 116, 101, 115, 95, 112, 101, 114, 95, 115, 97, 109, 112, 108, 101, 1, 175, 98, 105, 116, 115, 95,
    112, 101, 114, 95, 115, 97, 109, 112, 108, 101, 8, 173, 115, 117, 98, 115, 97, 109, 112, 108, 105, 110, 103, 95,
    119, 0, 173, 115, 117, 98, 115, 97, 109, 112, 108, 105, 110, 103, 95, 104, 0, 171, 115, 97, 109, 112, 108, 101,
    95, 116, 121, 112, 101, 0, 172, 99, 111, 108, 111, 114, 95, 102, 97, 109, 105, 108, 121, 1, 166, 112, 108, 97,
    110, 101, 115, 145, 132, 165, 119, 105, 100, 116, 104, 2, 166, 104, 101, 105, 103, 104, 116, 2, 176, 98, 121,
    116, 101, 115, 95, 112, 101, 114, 95, 115, 97, 109, 112, 108, 101, 1, 170, 115, 105, 122, 101, 95, 98, 121, 116,
    101, 115, 4, 164, 110, 97, 109, 101, 168, 79, 117, 116, 112, 117, 116, 32, 48]

/-- msgspec, as far as the request and the item go. -/
def outputsCodec : Msgspec where
  encode
    | .map [("chdir", .bool true)] => .ok reloadBytes
    | .array [.map [("index", .int 0), ("name", .str "Output 0"), ("info", .map [("width", .int 2), ("height", .int 2),
        ("fps_num", .int 24), ("fps_den", .int 1), ("num_frames", .int 1), ("format_id", .int 268959744),
        ("format_name", .str "Gray8"), ("num_planes", .int 1), ("bytes_per_sample", .int 1), ("bits_per_sample", .int 8),
        ("subsampling_w", .int 0), ("subsampling_h", .int 0), ("sample_type", .int 0), ("color_family", .int 1),
        ("planes", .array [.map [("width", .int 2), ("height", .int 2), ("bytes_per_sample", .int 1),
          ("size_bytes", .int 4)]]), ("name", .str "Output 0")])]] => .ok clipItemBytes
    | _ => .error (.ofText .typeError "unsupported")
  decode b :=
    if b = reloadBytes then .ok (ReloadRequest.mk true).toObj
    else if b = clipItemBytes then .ok (.array [clipItem.toObj])
    else .error "MessagePack data is malformed"

theorem outputsCodec_lawful : outputsCodec.Lawful := by
  refine Msgspec.lawful_of_forms [((ReloadRequest.mk true).toObj, reloadBytes), (.array [clipItem.toObj], clipItemBytes)] ?_ ?_
  · intro o b h
    simp only [outputsCodec] at h
    split at h
    · obtain rfl := Except.ok.inj h
      exact .head _
    · obtain rfl := Except.ok.inj h
      exact .tail _ (.head _)
    · cases h
  · have hne : clipItemBytes ≠ reloadBytes := by decide
    refine List.forall_mem_cons.2
      ⟨⟨List.cons_ne_nil _ _, rfl⟩, List.forall_mem_singleton.2 ⟨List.cons_ne_nil _ _, ?_⟩⟩
    simp only [outputsCodec, if_neg hne, if_true]

def outputsDaemon : Daemon := { msgspec := outputsCodec }

def loadTold : List (ConnectionLabel Bytes) :=
  [.client .start, .client .call, .request ⟨.reload, reloadBytes, .ok⟩, .client (.enqueue 0), .deliver 0,
    .server (.sync 0 .ok), .server (.sync 0 .ok), .server (.sync 0 (.time 0)), .server (.submit 0),
    .server (.jobStart 0), .server (.jobRun 0 (.load .oneClip)), .server (.resume 0), .server (.put 0 none),
    .server (.resume 0), .server (.sync 0 (.time 0)), .server (.sync 0 .ok), .transfer 0 0, .client (.receive 0),
    .client (.settle 0)]

def outputsListed : List (ConnectionLabel Bytes) :=
  [.client .call, .request ⟨.listOutputs, [], .ok⟩, .client (.enqueue 1), .deliver 1, .server (.sync 1 .ok),
    .server (.sync 1 .ok), .server (.sync 1 (.time 0)), .server (.sync 1 .ok), .server (.put 1 none), .transfer 1 0,
    .client (.receive 1), .client (.settle 0)]

/-- The load is the only step that changes the outputs. -/
theorem keepsOutputs_after {before after : List (ConnectionLabel Bytes)} {j : Nat} {w : LoadWorld}
    (hls : loadTold = before ++ .server (.jobRun j (.load w)) :: after) :
    ∀ l ∈ after ++ outputsListed, l.keepsOutputs = true := by
  have hcount : loadTold.countP (fun l => !l.keepsOutputs) = 1 := rfl
  rw [hls, List.countP_append, List.countP_cons_of_pos rfl] at hcount
  have hafter : after.countP (fun l => !l.keepsOutputs) = 0 := by omega
  have hlater : outputsListed.countP (fun l => !l.keepsOutputs) = 0 := rfl
  intro l hl
  rcases List.mem_append.1 hl with hl | hl
  · simpa using List.countP_eq_zero.1 hafter l hl
  · simpa using List.countP_eq_zero.1 hlater l hl

/-- What the client has asked for, and the replies that its futures are settled with. -/
def exchanges (s : Connection Bytes) : List (Option (List Bytes)) × List (Command × Bytes) :=
  (s.client.requests.map (fun req => req.future.reply?.map Reply.parts),
    s.calls.map (fun call => (call.command, call.payloadBytes)))

theorem exchanged {s : Connection Bytes} {replies : List (Option (List Bytes))} {calls : List (Command × Bytes)}
    (hs : exchanges s = (replies, calls)) {r : Nat} {parts : List Bytes} (hparts : replies[r]? = some (some parts))
    {command : Command} {payloadBytes : Bytes} (hcalls : calls[r]? = some (command, payloadBytes)) :
    ∃ req reply call, s.client.requests[r]? = some req ∧ req.future.reply? = some reply ∧ reply.parts = parts ∧
      s.calls[r]? = some call ∧ call.command = command ∧ call.payloadBytes = payloadBytes := by
  obtain ⟨hreplies, hasked⟩ := Prod.mk.inj hs
  rw [← hreplies, List.getElem?_map] at hparts
  rw [← hasked, List.getElem?_map] at hcalls
  obtain ⟨req, hreq, hreply⟩ := Option.map_eq_some_iff.1 hparts
  obtain ⟨reply, hreply, hparts⟩ := Option.map_eq_some_iff.1 hreply
  obtain ⟨call, hcall, hsame⟩ := Option.map_eq_some_iff.1 hcalls
  obtain ⟨hcommand, hpayload⟩ := Prod.mk.inj hsame
  exact ⟨req, reply, call, hreq, hreply, hparts, hcall, hcommand, hpayload⟩

theorem loaded_outputs_read_reload : ∃ u s req reply,
    Runs.run (step outputsDaemon Host.plain outputsCodec) loadTold reloadStart = some u ∧
      Runs.run (step outputsDaemon Host.plain outputsCodec) outputsListed u = some s ∧
      s.client.requests[1]? = some req ∧ req.future.reply? = some reply ∧
      ReadsOutputs ⟨outputsCodec, fun _ => ""⟩ [clipItem] .listOutputs [] reply.parts.tail := by
  have hfirst : (Runs.run (step outputsDaemon Host.plain outputsCodec) loadTold reloadStart).map exchanges =
      some ([some [[0, 0, 0, 1], [0], clipItemBytes]], [(.reload, reloadBytes)]) := by decide +kernel
  have hboth : (Runs.run (step outputsDaemon Host.plain outputsCodec) (loadTold ++ outputsListed) reloadStart).map exchanges =
      some ([some [[0, 0, 0, 1], [0], clipItemBytes], some [[0, 0, 0, 2], [0], clipItemBytes]],
        [(.reload, reloadBytes), (.listOutputs, [])]) := by decide +kernel
  obtain ⟨u, hu, htold⟩ := Option.map_eq_some_iff.1 hfirst
  rw [Runs.run_append hu] at hboth
  obtain ⟨s, hr, hlisted⟩ := Option.map_eq_some_iff.1 hboth
  obtain ⟨req, reply, call, hreq, hreply, hparts, hcall, hcmd, hpayload⟩ := exchanged (r := 0) htold rfl rfl
  obtain ⟨req', reply', call', hreq', hreply', -, hcall', hcmd', hpayload'⟩ := exchanged (r := 1) hlisted rfl rfl
  have hlength : u.client.requests.length = 1 := by
    have hreplies := congrArg List.length (Prod.mk.inj htold).1
    rwa [List.length_map] at hreplies
  have hg : Runs.Guarded (step outputsDaemon Host.plain outputsCodec) InTime loadTold reloadStart :=
    guarded_of_short Transport.counted_init (by decide)
  have hcounted : Transport.Counted u.client :=
    Runs.run_inv (I := fun s : Connection Bytes => Transport.Counted s.client) (fun _ _ _ hi hs => (counted_step hi hs).1)
      Transport.counted_init hu
  have hg' : Runs.Guarded (step outputsDaemon Host.plain outputsCodec) InTime outputsListed u := by
    refine guarded_of_short hcounted ?_
    rw [hlength]
    decide
  have hpack : (LoadAction.reload ⟨true⟩).payloadBytes outputsDaemon.msgspec = .ok call.payloadBytes := by
    rw [hpayload]
    rfl
  have hsettled : ((LoadAction.reload ⟨true⟩).call ⟨outputsCodec, fun _ => ""⟩).settle outputsCodec reply.parts.tail =
      .ok (.value [clipItem]) := by
    rw [hparts]
    exact settle_load_value (c := ⟨outputsCodec, fun _ => ""⟩) outputsCodec_lawful (.reload ⟨true⟩) rfl
  obtain ⟨t, task, after, -, ⟨before, j, w, -, -, hls, -⟩, hreads⟩ :=
    loaded_outputs_read (d := outputsDaemon) (h := Host.plain) (a := .reload ⟨true⟩) outputsCodec_lawful (fun _ => "") hg hu
      hreq hreply hcall hcmd hpack hsettled hg' hr
  have hread := hreads (keepsOutputs_after hls) 1 req' call' reply' (Nat.le_of_eq hlength) hreq' hreply' hcall'
  rw [hcmd', hpayload'] at hread
  exact ⟨u, s, req', reply', hu, hr, hreq', hreply', hread⟩

end Connection

end VsRemote
