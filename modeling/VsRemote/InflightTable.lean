import VsRemote.RequestSection

/-! The table of requests in flight and the active requests of the sessions:
both follow the handlers in their section, as long as the ids are proper. -/

namespace VsRemote

namespace ServerMetricsCollector

variable (m : ServerMetricsCollector) (i j : Bytes) (now : Rat)

/-- The `active_requests` of a client; one without a session has none. -/
def activeRequests (m : ServerMetricsCollector) (i : Bytes) : Nat :=
  ((m.clients.get? i).map ClientSession.activeRequests).getD 0

theorem activeRequests_onRequestStart (printable : PyStr → Bool) :
    (m.onRequestStart printable i now).activeRequests j = m.activeRequests j + if i = j then 1 else 0 := by
  simp only [activeRequests, onRequestStart, OrderedDict.get?_set]
  by_cases hij : j = i
  · subst hij
    cases m.clients.get? j <;> simp
  · rw [if_neg hij, if_neg (Ne.symm hij), Nat.add_zero]

theorem activeRequests_onRequestEnd :
    (m.onRequestEnd i now).activeRequests j = m.activeRequests j - if i = j then 1 else 0 := by
  unfold onRequestEnd
  cases hi : m.clients.get? i with
  | none =>
    by_cases hij : i = j
    · subst hij
      simp [activeRequests, hi]
    · rw [if_neg hij, Nat.sub_zero]
  | some session =>
    simp only [activeRequests, OrderedDict.get?_set]
    by_cases hij : j = i
    · subst hij
      simp [hi]
    · rw [if_neg hij, if_neg (Ne.symm hij), Nat.sub_zero]

/-- The sessions that a snapshot drops have no active request. -/
theorem activeRequests_snapshot (w : SnapshotWorld) (activeScript : Option String) (outputs : List OutputItem)
    (compression : Compression) (inFlight : Nat) :
    (m.snapshot w activeScript outputs compression inFlight now).2.activeRequests j = m.activeRequests j := by
  simp only [activeRequests, snapshot, OrderedDict.get?_foldl_erase]
  split
  · next hstale =>
    obtain ⟨e, he, rfl⟩ := List.mem_map.1 hstale
    obtain ⟨he, hidle⟩ := List.mem_filter.1 he
    have hzero : e.2.activeRequests = 0 := (of_decide_eq_true hidle).2
    rw [OrderedDict.get?_of_mem_entries (v := e.2) he]
    exact hzero.symm
  · rfl

end ServerMetricsCollector

/-- What an operation makes of the number of active requests of a client. -/
def SrvOp.activeAfter (i : Bytes) (n : Nat) : SrvOp → Nat
  | .metrics (.requestStart j) => n + if j = i then 1 else 0
  | .metrics (.requestEnd j) => n - if j = i then 1 else 0
  | _ => n

section

variable {d : Daemon} {h : Host} {t : Nat} {o : SrvOp} {c : Choice} {srv srv' : ServerState} {r : o.Res}

theorem MetricsCall.activeRequests_apply (call : MetricsCall) (now : Rat) (m : ServerMetricsCollector) (i : Bytes) :
    (call.apply h now m).activeRequests i = (SrvOp.metrics call).activeAfter i (m.activeRequests i) := by
  cases call with
  | requestStart j => exact m.activeRequests_onRequestStart j i now h.isPrintable
  | requestEnd j => exact m.activeRequests_onRequestEnd j i now
  | _ => rfl

theorem respond_active (hr : respond d h t o c srv = some (r, srv')) (i : Bytes) :
    srv'.metrics.activeRequests i = o.activeAfter i (srv.metrics.activeRequests i) := by
  unfold respond at hr
  split at hr
  all_goals cases hr
  all_goals first
    | rfl
    | exact MetricsCall.activeRequests_apply ..
    | skip
  next activeScript outputs inFlight w now =>
    exact ServerMetricsCollector.activeRequests_snapshot srv.metrics i now w activeScript outputs d.compression inFlight

end

/-- The key the task is registered under. -/
def Trace.key (tr : Trace) : Option (Bytes × Nat) :=
  if tr.stage.place.inside then tr.request.map RequestEnvelope.key else none

/-- The request of the client is counted as active. -/
def Trace.serves (i : Bytes) (tr : Trace) : Bool :=
  tr.stage.place = .serving ∧ tr.request.map RequestEnvelope.identity = some i

/-- Only a cancellation is in its section with the id 0. -/
def Trace.zeroCancels (tr : Trace) : Bool :=
  match tr.request with
  | none => true
  | some req => ! tr.stage.place.inside || decide (req.reqId ≠ 0) || decide (req.command = .cancelRequest)

namespace Sys

def keyOf (s : Sys) (t : Nat) : Option (Bytes × Nat) := s.traces[t]?.bind Trace.key

/-- The nonzero ids that a client has in processing are distinct, and 0 is the
id of cancellations. -/
def ProperIds (s : Sys) : Prop :=
  ((s.traces.filterMap Trace.key).filter (fun key => key.2 ≠ 0)).Nodup ∧ s.traces.all Trace.zeroCancels = true

instance (s : Sys) : Decidable s.ProperIds := inferInstanceAs (Decidable (_ ∧ _))

end Sys

section

variable {d : Daemon} {tr : Trace} {e : Coro.Event srvSig}

theorem Trace.key_of_stage {req : RequestEnvelope} (hreq : tr.request = some req)
    (hinside : tr.stage.place.inside = true) : tr.key = some req.key := by
  rw [key, if_pos hinside, hreq]
  rfl

theorem Trace.key_of_outside (houtside : tr.stage.place.inside = false) : tr.key = none := by
  rw [key, houtside]
  rfl

theorem Trace.exists_of_key {key : Bytes × Nat} (hkey : tr.key = some key) :
    ∃ req, tr.request = some req ∧ key = req.key ∧ tr.stage.place.inside = true := by
  unfold Trace.key at hkey
  split at hkey
  · next hinside =>
    obtain ⟨req, hreq, rfl⟩ := Option.map_eq_some_iff.1 hkey
    exact ⟨req, hreq, rfl, hinside⟩
  · cases hkey

theorem Trace.key_eq {req : RequestEnvelope} (hreq : tr.request = some req) :
    tr.key = if tr.stage.place.inside then some req.key else none := by
  rw [key, hreq]
  rfl

/-- An entry comes with the registration and goes with the removal. -/
theorem Trace.key_snoc (hpre : stagePre d tr.request tr.stage e.op) :
    (tr.snoc e).key = match e.op with
      | .inflightSet key => some key
      | .inflightPop _ => none
      | _ => tr.key := by
  obtain ⟨o, r⟩ := e
  have hstage := stage_snoc tr ⟨o, r⟩
  have hrequest := request_snoc tr ⟨o, r⟩
  by_cases ho : o.booked = false
  · have hkey : (tr.snoc ⟨o, r⟩).key = tr.key := by
      rw [key, key, hstage, hrequest, Stage.next_of_not_booked ho]
    cases o with
    | inflightSet => cases ho
    | inflightPop => cases ho
    | _ => exact hkey
  · obtain ⟨req, hreq, hstep⟩ := bookStep hpre ho
    rw [key_eq hreq, key_eq (hrequest.trans hreq), hstage]
    generalize tr.stage = g at hstep
    generalize g.next o = g' at hstep
    cases hstep <;> rfl

theorem Trace.serves_eq {req : RequestEnvelope} (hreq : tr.request = some req) (i : Bytes) :
    tr.serves i = (decide (tr.stage.place = .serving) && decide (req.identity = i)) := by
  simp [serves, hreq]

/-- A request is counted in and out with its client. -/
theorem Trace.serves_snoc (hpre : stagePre d tr.request tr.stage e.op) {i : Bytes} {n : Nat}
    (hle : (tr.serves i).toNat ≤ n) :
    e.op.activeAfter i n + (tr.serves i).toNat = n + ((tr.snoc e).serves i).toNat := by
  obtain ⟨o, r⟩ := e
  have hstage := stage_snoc tr ⟨o, r⟩
  have hrequest := request_snoc tr ⟨o, r⟩
  by_cases ho : o.booked = false
  · have hserves : (tr.snoc ⟨o, r⟩).serves i = tr.serves i := by
      rw [serves, serves, hstage, hrequest, Stage.next_of_not_booked ho]
    have hactive : o.activeAfter i n = n := by
      cases o with
      | metrics call => cases call <;> first | rfl | cases ho
      | _ => rfl
    rw [hserves, hactive]
  · obtain ⟨req, hreq, hstep⟩ := bookStep hpre ho
    rw [serves_eq hreq] at hle ⊢
    rw [serves_eq (hrequest.trans hreq), hstage]
    generalize tr.stage = g at hstep hle
    generalize g.next o = g' at hstep
    cases hstep with
    | register => rfl
    | ask => rfl
    | remove => rfl
    | start => by_cases hi : req.identity = i <;> simp [SrvOp.activeAfter, hi]
    | finish =>
      by_cases hi : req.identity = i
      · simp only [hi, decide_true, Bool.and_true, Bool.toNat_true] at hle
        simp [SrvOp.activeAfter, hi, Nat.sub_add_cancel hle]
      · simp [SrvOp.activeAfter, hi]

end

namespace Sys

variable {d : Daemon} {h : Host} {s s' : Sys} {l : Label} {t : Nat} {tr : Trace} {e : Coro.Event srvSig}

/-- The table and the sessions follow the handlers, and one that may not give
up the thread has it. -/
structure Booked (d : Daemon) (s : Sys) : Prop where
  handled : s.Handled d
  table : s.srv.inflight.Inverts s.keyOf
  active : ∀ i, s.srv.metrics.activeRequests i = s.traces.countP (Trace.serves i)
  turn : ∀ t tr, s.traces[t]? = some tr → MayWait tr.request tr.stage ∨ s.loop = some t

theorem booked_init (d : Daemon) (runner : RunnerState) (startTime : Rat) :
    Booked d (init runner { startTime := startTime }) :=
  ⟨nofun, fun _ _ => ⟨nofun, nofun⟩, fun _ => rfl, nofun⟩

theorem traces_get?_snoc (ht : s.traces[t]? = some tr) (htr : s'.traces = s.traces.modify t (fun tr => tr.snoc e)) :
    s'.traces[t]? = some (tr.snoc e) := by
  rw [htr, List.getElem?_modify, ht]
  simp

theorem traces_get?_other {u : Nat} (hu : u ≠ t) (htr : s'.traces = s.traces.modify t (fun tr => tr.snoc e)) :
    s'.traces[u]? = s.traces[u]? := by
  rw [htr, List.getElem?_modify]
  simp [Ne.symm hu]

theorem keyOf_snoc (ht : s.traces[t]? = some tr) (htr : s'.traces = s.traces.modify t (fun tr => tr.snoc e)) :
    s'.keyOf = Function.update s.keyOf t (tr.snoc e).key := by
  funext u
  by_cases hu : u = t
  · subst hu
    rw [Function.update_self, keyOf, traces_get?_snoc ht htr]
    rfl
  · rw [Function.update_of_ne hu, keyOf, traces_get?_other hu htr]
    rfl

/-- No other handler has the key that one registers. -/
theorem Booked.fresh {key : Bytes × Nat} (hb : Booked d s) (hfree : s.free t = true) (hids : s'.ProperIds)
    (ht : s.traces[t]? = some tr) (htr : s'.traces = s.traces.modify t (fun tr => tr.snoc e)) (hnone : tr.key = none)
    (hkey : (tr.snoc e).key = some key) : ∀ u, s.keyOf u ≠ some key := by
  intro u hu
  obtain ⟨other, hother, hukey⟩ := Option.bind_eq_some_iff.1 hu
  have hne : u ≠ t := by
    rintro rfl
    rw [ht] at hother
    obtain rfl := Option.some.inj hother
    simp [hnone] at hukey
  have hother' : s'.traces[u]? = some other := (traces_get?_other hne htr).trans hother
  by_cases hzero : key.2 = 0
  · -- two requests with the id 0: the other one is a cancellation, and has the thread
    obtain ⟨req, hreq, rfl, hinside⟩ := Trace.exists_of_key hukey
    have hproper := List.all_eq_true.1 hids.2 other (List.mem_of_getElem? hother')
    have hid : req.reqId = 0 := hzero
    have hcmd : req.command = .cancelRequest := by simpa [Trace.zeroCancels, hreq, hinside, hid] using hproper
    rcases hb.turn u other hother with (hout | ⟨-, req', hreq', hcmd'⟩) | hloop
    · simp [hinside] at hout
    · rw [hreq] at hreq'
      exact hcmd' (Option.some.inj hreq' ▸ hcmd)
    · simp only [free, hloop, decide_eq_true_eq, Option.some.injEq] at hfree
      exact hfree.elim nofun hne
  · have hmine := traces_get?_snoc ht htr
    exact hne (Lookup.eq_of_nodup_filterMap hids.1 hother' hmine hukey hkey (by simpa using hzero))

theorem Booked.table_snoc (hb : Booked d s) (hfree : s.free t = true) (hids : s'.ProperIds)
    (ht : s.traces[t]? = some tr) (htr : s'.traces = s.traces.modify t (fun tr => tr.snoc e))
    (hpre : stagePre d tr.request tr.stage e.op) (hsrv : s'.srv.inflight = e.op.tableAfter t s.srv.inflight) :
    s'.srv.inflight.Inverts s'.keyOf := by
  have hbefore : s.keyOf t = tr.key := by rw [keyOf, ht]; rfl
  have hafter := Trace.key_snoc hpre
  have hsame : (tr.snoc e).key = tr.key → Function.update s.keyOf t (tr.snoc e).key = s.keyOf :=
    fun heq => by rw [heq, ← hbefore, Function.update_eq_self]
  rw [hsrv, keyOf_snoc ht htr]
  cases ho : e.op with
  | inflightSet key =>
    rw [ho] at hafter hpre
    have hnone : tr.key = none := Trace.key_of_outside (by rw [hpre.1]; rfl)
    rw [hafter]
    exact hb.table.set (hbefore.trans hnone) (hb.fresh hfree hids ht htr hnone hafter)
  | inflightPop key =>
    rw [ho] at hafter hpre
    obtain ⟨req, hreq, rfl, hplace⟩ := hpre
    rw [hafter]
    exact hb.table.erase (hbefore.trans (Trace.key_of_stage hreq (by rw [hplace]; rfl)))
  | _ =>
    rw [ho] at hafter
    rw [hsame hafter]
    exact hb.table

theorem Booked.active_snoc (hb : Booked d s) (ht : s.traces[t]? = some tr)
    (htr : s'.traces = s.traces.modify t (fun tr => tr.snoc e)) (hpre : stagePre d tr.request tr.stage e.op)
    (i : Bytes) : e.op.activeAfter i (s.srv.metrics.activeRequests i) = s'.traces.countP (Trace.serves i) := by
  have hle : (tr.serves i).toNat ≤ s.traces.countP (Trace.serves i) := by
    by_cases hserves : tr.serves i = true
    · have hpos : 0 < s.traces.countP (Trace.serves i) :=
        List.countP_pos_iff.2 ⟨tr, List.mem_of_getElem? ht, hserves⟩
      rw [hserves]
      exact hpos
    · rw [Bool.eq_false_iff.2 hserves]
      exact Nat.zero_le _
  have hcount := Lookup.countP_modify_add (f := fun tr => tr.snoc e) (Trace.serves i) ht
  have hop := Trace.serves_snoc hpre hle
  rw [hb.active i, htr]
  omega

theorem mayWait_or_holder {req? : Option RequestEnvelope} {g : Stage} {q : HandlerProg}
    (hwp : q.wp (stageMonitor d req?) (fun _ g => StageOver d req? g) g) : MayWait req? g ∨ holder t q = some t := by
  cases q with
  | pure r =>
    rcases hwp with rfl | ⟨req, -, rfl⟩ <;> exact .inl (.inl rfl)
  | call o k =>
    cases hw : o.waits with
    | true => exact .inl (mayWait_of_waits hwp.1 hw)
    | false =>
      refine .inr ?_
      rw [holder, SrvOp.suspends_of_not_waits hw]
      rfl

theorem Booked.turn_snoc {task : Task} {k : e.op.Res → HandlerProg} (hb : Booked d s) (hfree : s.free t = true)
    (ht : s.tasks[t]? = some task) (hp : task.prog = .call e.op k)
    (htr : s'.traces = s.traces.modify t (fun tr => tr.snoc e)) (hloop : s'.loop = holder t (k e.res)) :
    ∀ u tr, s'.traces[u]? = some tr → MayWait tr.request tr.stage ∨ s'.loop = some u := by
  intro u tr hu
  by_cases hut : u = t
  · subst hut
    rw [traces_get?_snoc (traces_get? ht) htr] at hu
    obtain rfl := Option.some.inj hu
    have hwp := (hb.handled u task ht).stage
    rw [hp] at hwp
    rw [hloop, Trace.stage_snoc, Trace.request_snoc]
    exact mayWait_or_holder (hwp.2 e.res trivial)
  · rw [traces_get?_other hut htr] at hu
    refine (hb.turn u tr hu).imp id (fun hloop => ?_)
    simp only [free, hloop, decide_eq_true_eq, Option.some.injEq] at hfree
    exact absurd hfree (by simp [hut])

theorem keyOf_of_traces (htr : s'.traces = s.traces) : s'.keyOf = s.keyOf := by
  funext u
  rw [keyOf, keyOf, htr]

theorem keyOf_append (hkey : tr.key = none) (htr : s'.traces = s.traces ++ [tr]) : s'.keyOf = s.keyOf := by
  funext u
  rw [keyOf, keyOf, htr]
  by_cases hlt : u < s.traces.length
  · rw [List.getElem?_append_left hlt]
  · rw [List.getElem?_append_right (by omega), List.getElem?_eq_none (Nat.le_of_not_lt hlt), List.getElem?_singleton]
    split
    · exact hkey
    · rfl

theorem Booked.step (hb : Booked d s) (hids : s'.ProperIds) (hs : step d h l s = some s') : Booked d s' := by
  have hhandled : s'.Handled d := hb.handled.step hs
  cases loopStep hs with
  | still htr hbooks hloop =>
    refine ⟨hhandled, ?_, fun i => ?_, ?_⟩
    · rw [hbooks.inflight, keyOf_of_traces htr]
      exact hb.table
    · rw [hbooks.metrics, htr]
      exact hb.active i
    · rw [htr, hloop]
      exact hb.turn
  | @submit _ _ t task job k ht hp hfree htr hbooks hloop =>
    refine ⟨hhandled, ?_, fun i => ?_, fun u tr hu => ?_⟩
    · rw [hbooks.inflight, keyOf_of_traces htr]
      exact hb.table
    · rw [hbooks.metrics, htr]
      exact hb.active i
    · rw [htr] at hu
      rcases hb.turn u tr hu with hwait | hmine
      · exact .inl hwait
      · -- the handler on the thread is the one that hands it over
        have hut : u = t := by simpa [free, hmine] using hfree
        subst hut
        rw [traces_get? ht] at hu
        obtain rfl := Option.some.inj hu
        exact .inl (mayWait_of_waits ((hb.handled u task ht).stagePre hp) rfl)
  | @spawn _ _ task hfresh hidle htr hbooks hloop =>
    have hstage : task.trace.stage = {} := by cases hfresh <;> rfl
    refine ⟨hhandled, ?_, fun i => ?_, fun u tr hu => ?_⟩
    · rw [hbooks.inflight, keyOf_append (Trace.key_of_outside (by rw [hstage]; rfl)) htr]
      exact hb.table
    · have hserves : task.trace.serves i = false := by simp [Trace.serves, hstage]
      rw [hbooks.metrics, htr, hb.active i, List.countP_append, List.countP_singleton, hserves]
      rfl
    · rw [htr] at hu
      rcases Lookup.of_append hu with hu | ⟨-, rfl⟩
      · rw [hloop]
        exact hb.turn u tr hu
      · exact .inl (.inl (by rw [hstage]; rfl))
  | @sync t c _ task o k r ht hp hfree hr htr hloop =>
    have hpre := (hb.handled t task ht).stagePre hp
    refine ⟨hhandled, ?_, fun i => ?_, ?_⟩
    · exact hb.table_snoc hfree hids (traces_get? ht) htr hpre (respond_table hr)
    · rw [respond_active hr]
      exact hb.active_snoc (traces_get? ht) htr hpre i
    · exact hb.turn_snoc (e := ⟨o, r⟩) hfree ht hp htr hloop
  | @answered _ _ t task o k r ht hp hw hidle htr hbooks hloop =>
    have hpre := (hb.handled t task ht).stagePre hp
    have hfree : s.free t = true := by simp [free, hidle]
    have htable : s'.srv.inflight = o.tableAfter t s.srv.inflight := by
      rw [hbooks.inflight]
      cases o <;> first | rfl | cases hw
    have hactive : ∀ i n, o.activeAfter i n = n := by
      intro i n
      cases o <;> first | rfl | cases hw
    refine ⟨hhandled, ?_, fun i => ?_, ?_⟩
    · exact hb.table_snoc hfree hids (traces_get? ht) htr hpre htable
    · rw [hbooks.metrics]
      exact (hactive i _).symm.trans (hb.active_snoc (traces_get? ht) htr hpre i)
    · exact hb.turn_snoc (e := ⟨o, r⟩) hfree ht hp htr hloop

/-- The task of the key, if there is one, is cancelled and no other. -/
theorem Booked.cancelTask (hb : Booked d s) (key : Bytes × Int) {u : Nat} {task : Task}
    (hu : s.tasks[u]? = some task) :
    (s.cancelTask key).tasks[u]? =
      some (if (s.keyOf u).map (fun k => (k.1, (k.2 : Int))) = some key then task.cancel else task) := by
  obtain ⟨i, n⟩ := key
  have hcast : ∀ m : Nat, (s.keyOf u).map (fun k => (k.1, (k.2 : Int))) = some (i, Int.ofNat m) ↔
      s.srv.inflight.get? (i, m) = some u := by
    intro m
    rw [hb.table (i, m) u, Option.map_eq_some_iff]
    constructor
    · rintro ⟨⟨j, m'⟩, hkey, heq⟩
      obtain ⟨rfl, hm⟩ := Prod.mk.inj heq
      obtain rfl : m' = m := Int.ofNat.inj hm
      exact hkey
    · exact fun hkey => ⟨(i, m), hkey, rfl⟩
  cases n with
  | ofNat m =>
    unfold Sys.cancelTask
    dsimp only
    cases hget : s.srv.inflight.get? (i, m) with
    | none =>
      rw [if_neg (fun heq => by simp [(hcast m).1 heq] at hget)]
      exact hu
    | some v =>
      simp only [tasks_modifyTask, List.getElem?_modify, hu]
      show some (if v = u then task.cancel else task) = _
      by_cases hvu : v = u
      · rw [if_pos hvu, if_pos ((hcast m).2 (hvu ▸ hget))]
      · rw [if_neg hvu, if_neg (fun heq => hvu (Option.some.inj (hget.symm.trans ((hcast m).1 heq))))]
  | negSucc m =>
    rw [if_neg]
    · exact hu
    · intro heq
      obtain ⟨k, -, hk⟩ := Option.map_eq_some_iff.1 heq
      have hneg : (k.2 : Int) = Int.negSucc m := congrArg Prod.snd hk
      omega

end Sys

end VsRemote
