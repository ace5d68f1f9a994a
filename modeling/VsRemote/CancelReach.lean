import VsRemote.Agreement
import VsRemote.Courier

/-! No cancellation comes too early: by the time the server looks for the request that a
client wants cancelled, the task of that request is registered or over. -/

namespace VsRemote

namespace Courier

variable {α : Type} {d : Daemon} {h : Host} {m : Msgspec} {s s' : Courier α} {l : CourierLabel α}

def HasIds (c : Transport α) : Prop := ∃ grants cursor, Transport.Ids c grants cursor

theorem HasIds.id_lt {c : Transport α} {r : Nat} {req : ClientRequest α} (hi : HasIds c)
    (hr : c.requests[r]? = some req) : req.id < 4294967296 := by
  obtain ⟨grants, cursor, hids⟩ := hi
  have hlt : r < grants.length := by
    rw [hids.length]
    exact Lookup.lt_length hr
  rw [(hids.granted r _ req (List.getElem?_eq_getElem hlt) hr).1]
  exact RequestTracker.idAt_lt _

theorem hasIds_step {link link' : Connection α} {cl : ConnectionLabel α} (hi : HasIds link.client)
    (hs : Connection.step d h m cl link = some link') : HasIds link'.client := by
  obtain ⟨grants, cursor, hids⟩ := hi
  cases Connection.step_to hs with
  | client _ hclient => exact Transport.ids_step hids hclient
  | request hclient => exact Transport.ids_step hids hclient
  | deliver => exact ⟨grants, cursor, hids⟩
  | server => exact ⟨grants, cursor, hids⟩
  | transfer => exact ⟨grants, cursor, hids.alloc, hids.next, hids.length, hids.granted⟩

structure Inv (d : Daemon) (m : Msgspec) (s : Courier α) : Prop where
  inLine : s.InLine m
  served : Served d s.link.server
  ids : HasIds s.link.client

theorem Inv.step (hi : s.Inv d m) (hc : s.Orderly l) (hproper : s'.link.server.ProperIds)
    (hs : step d h m l s = some s') : s'.Inv d m := by
  refine ⟨hi.inLine.step hc hs, served_step hi.served hc hproper hs, ?_⟩
  cases step_to hs with
  | client _ hlink => exact hasIds_step hi.ids hlink
  | other _ _ hlink => exact hasIds_step hi.ids hlink
  | request _ hlink => exact hasIds_step hi.ids hlink
  | cancel _ _ _ hlink => exact hasIds_step hi.ids hlink
  | lose => exact hi.ids

def init (identity : Bytes) (authToken : Option PyStr) (runner : RunnerState) (startTime : Rat) : Courier α where
  link := Connection.init identity authToken runner { startTime := startTime }

theorem inv_init (identity : Bytes) (authToken : Option PyStr) (runner : RunnerState) (startTime : Rat) :
    Inv d m (init (α := α) identity authToken runner startTime) := by
  refine ⟨⟨?_, ?_, ?_, ?_, .nil, ?_⟩, ⟨Sys.booked_init d runner startTime, ?_, ?_⟩, ?_⟩
  · exact fun t r hl => by cases hl
  · exact fun t r hmem => by cases hmem
  · exact fun r req hr => by cases hr
  · rintro r (hline | ⟨t, hmem⟩)
    · cases hline
    · cases hmem
  · exact fun t r hmem => by cases hmem
  · rintro t ⟨task, o, k, ht, -⟩
    cases ht
  · exact fun t u task other ht => by cases ht
  · exact (Transport.inv_init (m := m)).ids

/-- What the step of a cancellation does: the tasks of its request are over or it reaches
them, and it reaches no others. -/
structure Finds (s s' : Courier α) (r : Nat) : Prop where
  own : ∀ t task, s.link.arrivals.lookup t = some r → s.link.server.tasks[t]? = some task →
    task.finished = true ∨ ∃ task', s'.link.server.tasks[t]? = some task' ∧ task'.cancelRequested = true
  only : ∀ (t : Nat) (task task' : Task), s.link.server.tasks[t]? = some task → s'.link.server.tasks[t]? = some task' →
    task'.cancelRequested = true → task.cancelRequested = true ∨ ∃ env req, task.trace.request = some env ∧
      s.link.client.requests[r]? = some req ∧ env.identity = s.link.identity ∧ env.reqId = req.id

section

variable {link : Connection α} {t u r : Nat} {canceller : Task} {key : Bytes × Int}
  {k : SrvOp.Res (.inflightCancel key) → HandlerProg}

/-- The key a cancellation looks for is that of the request it was sent for. -/
theorem Asks.key_eq (ha : Asks d.msgspec link u r) (hm : d.msgspec.Lawful) (hh : canceller.Handles d)
    (hu : link.server.tasks[u]? = some canceller) (hp : canceller.prog = .call (.inflightCancel key) k) :
    ∃ req msg env, link.client.requests[r]? = some req ∧ key = (link.identity, (req.id : Int)) ∧
      PassesCheck d msg env ∧ tokenRefused d.authToken link.authToken = .ok false := by
  obtain ⟨task, req, payloadBytes, frames, ht, hr, hpack, hf, hmsg⟩ := ha
  obtain rfl : task = canceller := Option.some.inj (ht.symm.trans hu)
  obtain ⟨env, hpass⟩ := hh.passes_of_booked hp rfl hmsg
  obtain ⟨extra, rfl, htoken⟩ := messageFrames_some hf
  have hparse := Connection.fromFrames_byte link.identity (intToBytes4 0) payloadBytes .cancelRequest extra
  obtain rfl := Except.ok.inj (hparse.symm.trans hpass.wellFormed)
  obtain ⟨-, env', henv', hkeys⟩ := hh.stagePre hp
  rw [Trace.request, Task.trace, hmsg] at henv'
  simp only [hparse] at henv'
  obtain rfl := Option.some.inj henv'
  have hkey : [(link.identity, (req.id : Int))] = [key] := by
    rw [← hkeys, RequestEnvelope.cancelKeys, if_pos rfl, unpackPayload_pack hm hpack]
  exact ⟨req, _, _, hr, (List.singleton_inj.1 hkey).symm, hpass, htoken d.authToken ▸ hpass.token⟩

end

theorem Inv.finds (hi : s.Inv d d.msgspec) (hm : d.msgspec.Lawful) {u r : Nat} {canceller : Task} {key : Bytes × Int}
    {k : SrvOp.Res (.inflightCancel key) → HandlerProg} {c : Choice} (hasks : (u, r) ∈ s.cancels)
    (hu : s.link.server.tasks[u]? = some canceller) (hp : canceller.prog = .call (.inflightCancel key) k)
    (hs : Courier.step d h d.msgspec (.link (.server (.sync u c))) s = some s') : s.Finds s' r := by
  obtain ⟨link, hlink, hs⟩ := Option.bind_eq_some_iff.1 hs
  obtain rfl := Option.some.inj hs
  obtain ⟨server, hserver, hlink⟩ := Option.bind_eq_some_iff.1 hlink
  obtain rfl := Option.some.inj hlink
  have hb := hi.served.booked
  obtain ⟨req, -, -, hr, hkey, -, htoken⟩ := (hi.inLine.asked u r hasks).key_eq hm (hb.handled u canceller hu) hu hp
  constructor
  · intro t task hl ht
    obtain ⟨task₁, hh⟩ := hi.inLine.arrived t r hl
    obtain rfl : task₁ = task := Option.some.inj (hh.present.symm.trans ht)
    obtain ⟨req₁, call, frames, hr₁, -, hf, hmsg⟩ := hh.handles
    obtain rfl : req₁ = req := Option.some.inj (hr₁.symm.trans hr)
    obtain ⟨extra, rfl, hsame⟩ := messageFrames_some hf
    have hpass : PassesCheck d _ _ :=
      ⟨Connection.fromFrames_byte s.link.identity (intToBytes4 req₁.id) call.payloadBytes call.command extra,
        (hsame d.authToken).trans htoken⟩
    have hlt : t < u := (hi.inLine.behind u r hasks).2 t hl
    refine hb.cancel_reaches hi.served.onThread hi.served.inOrder hu hp hserver ht hlt hmsg hpass ?_
    rw [hkey, intFromBytes_intToBytes4 (hi.ids.id_lt hr)]
  · intro t task task' ht ht' hcancelled
    obtain ⟨task₁, ht₁, hiff⟩ := hb.step_cancel hu hp hserver ht
    obtain rfl : task₁ = task' := Option.some.inj (ht₁.symm.trans ht')
    rcases hiff.1 hcancelled with hbefore | ⟨task₂, env, ht₂, -, henv, hhas⟩
    · exact .inl hbefore
    · right
      obtain rfl : task₂ = task := Option.some.inj (ht₂.symm.trans ht)
      obtain ⟨hidentity, hid⟩ := Prod.mk.inj (hkey.symm.trans hhas)
      exact ⟨env, req, henv, hr, hidentity.symm, (Int.ofNat.inj hid).symm⟩

/-- Where tasks start in the order in which they were created, ids are proper, and the
messages of the client keep their order on the line. -/
theorem cancellation_finds_request (hm : d.msgspec.Lawful) {identity : Bytes} {authToken : Option PyStr}
    {runner : RunnerState} {startTime : Rat} {ls : List (CourierLabel α)}
    (hg : Runs.Guarded (step d h d.msgspec) Orderly ls (init identity authToken runner startTime))
    (hids : Runs.Always (step d h d.msgspec) (fun s => s.link.server.ProperIds) ls
      (init identity authToken runner startTime))
    (hr : Runs.run (step d h d.msgspec) ls (init identity authToken runner startTime) = some s) :
    ∀ (u r : Nat) (canceller : Task) (key : Bytes × Int) (k : SrvOp.Res (.inflightCancel key) → HandlerProg)
      (c : Choice) (s' : Courier α), (u, r) ∈ s.cancels → s.link.server.tasks[u]? = some canceller →
        canceller.prog = .call (.inflightCancel key) k →
        step d h d.msgspec (.link (.server (.sync u c))) s = some s' → s.Finds s' r := by
  intro u r canceller key k c s' hasks hu hp hs
  have hi : s.Inv d d.msgspec := by
    refine (hg.and hids.guarded).inv (fun s l s' hi hc hs => ?_) (inv_init _ _ _ _) hr
    exact hi.step hc.1 (hc.2 s' hs) hs
  exact hi.finds hm hasks hu hp hs

end Courier

def cancelFirst : CancelRequest := ⟨1⟩

def cancelFirstBytes : Bytes := [0x81, 0xA6, 0x72, 0x65, 0x71, 0x5F, 0x69, 0x64, 1]

/-- msgspec, as far as the cancellation of the first request goes. -/
def cancelCodec : Msgspec where
  encode
    | .map [("req_id", .int 1)] => .ok cancelFirstBytes
    | _ => .error (.ofText .typeError "unsupported")
  decode b := if b = cancelFirstBytes then .ok cancelFirst.toObj else .error "MessagePack data is malformed"

theorem cancelCodec_lawful : cancelCodec.Lawful := by
  refine Msgspec.lawful_of_forms [(cancelFirst.toObj, cancelFirstBytes)] ?_ ?_
  · intro o b h
    simp only [cancelCodec] at h
    split at h
    · obtain rfl := Except.ok.inj h
      exact .head _
    · cases h
  · refine List.forall_mem_singleton.2 ⟨List.cons_ne_nil _ _, ?_⟩
    simp only [cancelCodec, if_true]

namespace Courier

def lateCancelDaemon : Daemon := { msgspec := cancelCodec }

/-- A ping is sent and cancelled, and its answer waits for the socket when the
cancellation is handled. -/
def lateCancel : List (CourierLabel Bytes) :=
  [.link (.client .start), .link (.client .call), .link (.request ⟨.ping, [], .ok⟩), .link (.client (.enqueue 0)),
    .link (.client (.cancel 0)), .link (.client (.onCancelled 0)), .deliver, .deliver,
    .link (.server (.sync 0 .ok)), .link (.server (.sync 0 .ok)), .link (.server (.sync 0 (.time 0))),
    .link (.server (.put 0 none)), .link (.server (.sync 1 .ok)), .link (.server (.sync 1 .ok)),
    .link (.server (.sync 1 (.time 0)))]

def lateCancelStart : Courier Bytes := init [7] none ⟨{}, .empty, []⟩ 0

theorem cancellation_finds_request_ping : ∃ s s',
    Runs.run (step lateCancelDaemon Host.plain cancelCodec) lateCancel lateCancelStart = some s ∧
      step lateCancelDaemon Host.plain cancelCodec (.link (.server (.sync 1 .ok))) s = some s' ∧
      s.link.arrivals = [(0, 0)] ∧ s'.link.server.tasks.map Task.cancelRequested = [true, false] ∧ s.Finds s' 0 := by
  have hg : Runs.Guarded (step lateCancelDaemon Host.plain cancelCodec) Orderly lateCancel lateCancelStart := by
    decide +kernel
  have hids : Runs.Always (step lateCancelDaemon Host.plain cancelCodec) (fun s => s.link.server.ProperIds) lateCancel
      lateCancelStart := by decide +kernel
  obtain ⟨s, s', canceller, k, hr, hs, harrivals, hcancelled, hasks, hu, hp⟩ :
      ∃ (s s' : Courier Bytes) (canceller : Task) (k : SrvOp.Res (.inflightCancel ([7], 1)) → HandlerProg),
        Runs.run (step lateCancelDaemon Host.plain cancelCodec) lateCancel lateCancelStart = some s ∧
          step lateCancelDaemon Host.plain cancelCodec (.link (.server (.sync 1 .ok))) s = some s' ∧
          s.link.arrivals = [(0, 0)] ∧ s'.link.server.tasks.map Task.cancelRequested = [true, false] ∧
          s.cancels = [(1, 0)] ∧ s.link.server.tasks[1]? = some canceller ∧
          canceller.prog = .call (.inflightCancel ([7], 1)) k :=
    ⟨_, _, _, _, rfl, rfl, rfl, rfl, rfl, rfl, rfl⟩
  have hmem : (1, 0) ∈ s.cancels := hasks ▸ List.mem_singleton_self _
  have hfinds := cancellation_finds_request (d := lateCancelDaemon) cancelCodec_lawful hg hids hr 1 0 canceller ([7], 1) k
    .ok s' hmem hu hp hs
  exact ⟨s, s', hr, hs, harrivals, hcancelled, hfinds⟩

end Courier

end VsRemote
