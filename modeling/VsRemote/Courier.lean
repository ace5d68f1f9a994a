import VsRemote.Connection
import VsRemote.TaskOrder

/-! A client whose messages keep their order on their way to the server. They are handed
to the loop of the worker, which sends them one after the other; any of them may be lost. -/

namespace VsRemote

/-- A message of the client on its way, for a request. -/
inductive Outgoing where
  | request (r : Nat)
  | cancel (r : Nat)
  deriving DecidableEq

/-- `cancels` lists the tasks that handle a cancellation, each with the request it is for. -/
structure Courier (α : Type) where
  link : Connection α
  line : List Outgoing := []
  cancels : List (Nat × Nat) := []

inductive CourierLabel (α : Type) where
  | link (l : ConnectionLabel α)
  | deliver
  | lose (i : Nat)

namespace Courier

variable {α : Type}

/-- What the step of the client hands to its loop; `_cancel_request` only does so when the
tracker had the id and the transport is running. -/
def posted (c : Transport α) : TransportLabel α → List Outgoing
  | .enqueue r => [.request r]
  | .onCancelled r =>
    match c.requests[r]? with
    | some req => if (c.tracker.pop req.id).1.isSome ∧ c.running then [.cancel r] else []
    | none => []
  | _ => []

/-- Who cancels a future has it from `send_request`, which has returned. -/
def given (c : Transport α) : TransportLabel α → Bool
  | .cancel r =>
    match c.requests[r]? with
    | some req => req.send ≠ .toSend
    | none => false
  | _ => true

def stepLink (d : Daemon) (h : Host) (m : Msgspec) (l : ConnectionLabel α) (s : Courier α) : Option (Courier α) :=
  match l with
  | .deliver _ | .deliverCancel _ => none
  | .client cl =>
    if given s.link.client cl then do
      let link ← Connection.step d h m (.client cl) s.link
      some { s with link := link, line := s.line ++ posted s.link.client cl }
    else none
  | l => do
    let link ← Connection.step d h m l s.link
    some { s with link := link }

def stepDeliver (d : Daemon) (h : Host) (m : Msgspec) (s : Courier α) : Option (Courier α) :=
  match s.line with
  | [] => none
  | .request r :: line => do
    let link ← Connection.step d h m (.deliver r) s.link
    some { s with link := link, line := line }
  | .cancel r :: line => do
    let req ← s.link.client.requests[r]?
    let payloadBytes ← (pack m ({ reqId := req.id } : CancelRequest)).toOption
    let link ← Connection.step d h m (.deliverCancel payloadBytes) s.link
    some { s with link := link, line := line, cancels := (s.link.server.tasks.length, r) :: s.cancels }

def step (d : Daemon) (h : Host) (m : Msgspec) : CourierLabel α → Courier α → Option (Courier α)
  | .link l, s => stepLink d h m l s
  | .deliver, s => stepDeliver d h m s
  | .lose i, s => some { s with line := s.line.eraseIdx i }

variable {d : Daemon} {h : Host} {m : Msgspec} {s s' : Courier α} {l : CourierLabel α}

/-- The label brings no message of this client. -/
def brings : ConnectionLabel α → Bool
  | .deliver _ | .deliverCancel _ => true
  | _ => false

def own : ConnectionLabel α → Bool
  | .client _ => true
  | _ => false

inductive StepTo (d : Daemon) (h : Host) (m : Msgspec) (s : Courier α) : CourierLabel α → Courier α → Prop
  | client {cl : TransportLabel α} {link : Connection α} (hg : given s.link.client cl = true)
      (hs : Connection.step d h m (.client cl) s.link = some link) :
      StepTo d h m s (.link (.client cl)) { s with link := link, line := s.line ++ posted s.link.client cl }
  | other {l : ConnectionLabel α} {link : Connection α} (hown : own l = false) (hbrings : brings l = false)
      (hs : Connection.step d h m l s.link = some link) : StepTo d h m s (.link l) { s with link := link }
  | request {r : Nat} {line : List Outgoing} {link : Connection α} (hline : s.line = .request r :: line)
      (hs : Connection.step d h m (.deliver r) s.link = some link) :
      StepTo d h m s .deliver { s with link := link, line := line }
  | cancel {r : Nat} {req : ClientRequest α} {line : List Outgoing} {payloadBytes : Bytes} {link : Connection α}
      (hline : s.line = .cancel r :: line) (hr : s.link.client.requests[r]? = some req)
      (hp : pack m ({ reqId := req.id } : CancelRequest) = .ok payloadBytes)
      (hs : Connection.step d h m (.deliverCancel payloadBytes) s.link = some link) :
      StepTo d h m s .deliver
        { s with link := link, line := line, cancels := (s.link.server.tasks.length, r) :: s.cancels }
  | lose {i : Nat} : StepTo d h m s (.lose i) { s with line := s.line.eraseIdx i }

theorem step_to (hs : step d h m l s = some s') : StepTo d h m s l s' := by
  cases l with
  | link l =>
    cases l with
    | deliver r => cases hs
    | deliverCancel payloadBytes => cases hs
    | client cl =>
      simp only [step, stepLink] at hs
      split at hs
      · next hg =>
        obtain ⟨link, hlink, hs⟩ := Option.bind_eq_some_iff.1 hs
        exact Option.some.inj hs ▸ .client hg hlink
      · cases hs
    | request call =>
      obtain ⟨link, hlink, hs⟩ := Option.bind_eq_some_iff.1 hs
      exact Option.some.inj hs ▸ .other rfl rfl hlink
    | foreign msg =>
      obtain ⟨link, hlink, hs⟩ := Option.bind_eq_some_iff.1 hs
      exact Option.some.inj hs ▸ .other rfl rfl hlink
    | server l =>
      obtain ⟨link, hlink, hs⟩ := Option.bind_eq_some_iff.1 hs
      exact Option.some.inj hs ▸ .other rfl rfl hlink
    | transfer t i =>
      obtain ⟨link, hlink, hs⟩ := Option.bind_eq_some_iff.1 hs
      exact Option.some.inj hs ▸ .other rfl rfl hlink
  | deliver =>
    simp only [step, stepDeliver] at hs
    split at hs
    · cases hs
    · next r line hline =>
      obtain ⟨link, hlink, hs⟩ := Option.bind_eq_some_iff.1 hs
      exact Option.some.inj hs ▸ .request hline hlink
    · next r line hline =>
      obtain ⟨req, hr, hs⟩ := Option.bind_eq_some_iff.1 hs
      obtain ⟨payloadBytes, hp, hs⟩ := Option.bind_eq_some_iff.1 hs
      obtain ⟨link, hlink, hs⟩ := Option.bind_eq_some_iff.1 hs
      exact Option.some.inj hs ▸ .cancel hline hr (toOption_eq_some hp) hlink
  | lose i => exact Option.some.inj hs ▸ .lose

/-- A future is cancelled only after its message has been handed over or has failed. -/
def GivenOut (c : Transport α) : Prop :=
  ∀ (r : Nat) (req : ClientRequest α), c.requests[r]? = some req → req.callback = true → req.send ≠ .toSend

/-- The id of a cancelled future is not in use for another request when its callback runs. -/
def OwnId (c : Transport α) : TransportLabel α → Prop
  | .onCancelled r => ∀ req ∈ c.requests[r]?, ∀ entry ∈ c.tracker.pending.get? req.id, entry.future = r
  | _ => True

instance (c : Transport α) (l : TransportLabel α) : Decidable (OwnId c l) := by
  unfold OwnId
  split <;> infer_instance

section

variable {c c' : Transport α} {cl : TransportLabel α} {r : Nat} {req : ClientRequest α}

theorem send_settleFuture (state : FutureState α) (req : ClientRequest α) :
    (Transport.settleFuture state req).send = req.send ∧ (Transport.settleFuture state req).callback = req.callback := by
  unfold Transport.settleFuture
  split <;> exact ⟨rfl, rfl⟩

theorem send_cancelFuture (req : ClientRequest α) : (Transport.cancelFuture req).send = req.send := by
  unfold Transport.cancelFuture
  split <;> rfl

/-- The request and what it has become: what was handed over stays so. -/
theorem step_sent (hs : Transport.step m cl c = some c') (hr : c.requests[r]? = some req) (hsent : req.send ≠ .toSend) :
    ∃ req', c'.requests[r]? = some req' ∧ req'.send ≠ .toSend := by
  have modified : ∀ {c₀ : Transport α} {i : Nat} {f : ClientRequest α → ClientRequest α},
      (∀ req : ClientRequest α, req.send ≠ .toSend → (f req).send ≠ .toSend) → (∃ req', c₀.requests[r]? = some req' ∧ req'.send ≠ .toSend) →
        ∃ req', (c₀.modifyRequest i f).requests[r]? = some req' ∧ req'.send ≠ .toSend := by
    rintro c₀ i f hf ⟨req', hr', hsent'⟩
    rw [Transport.modifyRequest, List.getElem?_modify, hr']
    refine ⟨_, rfl, ?_⟩
    split
    · exact hf req' hsent'
    · exact hsent'
  have same : ∃ req', c.requests[r]? = some req' ∧ req'.send ≠ .toSend := ⟨req, hr, hsent⟩
  cases Transport.step_to hs with
  | allocate => exact ⟨req, Lookup.append_left hr, hsent⟩
  | enqueue => exact modified (fun _ _ => SendState.noConfusion) same
  | sendFailed =>
    refine modified (fun req _ => ?_) same
    rw [(send_settleFuture _ _).1]
    exact SendState.noConfusion
  | receive => exact ⟨req, (Transport.requests_dispatchResponse _).symm ▸ hr, hsent⟩
  | settle => exact modified (fun req h => (send_settleFuture _ req).1 ▸ h) same
  | cancel => exact modified (fun req h => send_cancelFuture req ▸ h) same
  | onCancelled => exact modified (fun _ h => h) same
  | onCancelledEntry =>
    exact modified (fun req h => send_cancelFuture req ▸ h) (modified (fun _ h => h) same)
  | cleanup =>
    refine ⟨_, by rw [List.getElem?_mapIdx, hr]; rfl, ?_⟩
    split
    · rw [(send_settleFuture _ _).1]
      exact hsent
    · exact hsent
  | _ => exact same

theorem GivenOut.modify {f : ClientRequest α → ClientRequest α} (hi : GivenOut c)
    (hf : ∀ req, c.requests[r]? = some req → (f req).callback = true → (f req).send ≠ .toSend) :
    GivenOut (c.modifyRequest r f) := by
  intro r' req' hr' hcallback
  obtain ⟨req, hreq, ⟨rfl, rfl⟩ | ⟨-, rfl⟩⟩ := Lookup.of_modify hr'
  · exact hf req hreq hcallback
  · exact hi r' _ hreq hcallback

theorem GivenOut.settle (hi : GivenOut c) (state : FutureState α) :
    GivenOut (c.modifyRequest r (Transport.settleFuture state)) := by
  refine hi.modify (fun req hreq hcallback => ?_)
  obtain ⟨hsend, hsame⟩ := send_settleFuture state req
  rw [hsend]
  exact hi r req hreq (hsame ▸ hcallback)

theorem GivenOut.onCancelled (hi : GivenOut c) (hown : OwnId c (.onCancelled r))
    (hs : Transport.step m (.onCancelled r) c = some c') : GivenOut c' := by
  obtain ⟨req, hr, hs⟩ := Option.bind_eq_some_iff.1 hs
  split at hs
  · next hcallback =>
    have hsent := hi r req hr hcallback
    have hcleared : GivenOut (c.modifyRequest r (fun req => { req with callback := false })) :=
      hi.modify (fun _ _ hc => by cases hc)
    simp only [RequestTracker.pop] at hs
    split at hs
    · exact Option.some.inj hs ▸ hcleared
    · next entry tracker hpop =>
      obtain ⟨hget, rfl⟩ := Prod.mk.inj hpop
      obtain rfl := hown req hr entry hget
      obtain rfl := Option.some.inj hs
      refine GivenOut.modify (c := { c.modifyRequest entry.future _ with tracker := _ }) hcleared (fun req' hreq' _ => ?_)
      rw [send_cancelFuture]
      obtain ⟨req₀, hreq₀, ⟨-, rfl⟩ | ⟨hne, -⟩⟩ := Lookup.of_modify hreq'
      · obtain rfl := Option.some.inj (hr.symm.trans hreq₀)
        exact hsent
      · exact absurd rfl hne
  · cases hs

theorem GivenOut.step (hi : GivenOut c) (hg : given c cl = true) (hown : OwnId c cl)
    (hs : Transport.step m cl c = some c') : GivenOut c' := by
  cases Transport.step_to hs with
  | allocate =>
    intro r req hr hcallback
    rcases Lookup.of_append hr with hr | ⟨-, rfl⟩
    · exact hi r req hr hcallback
    · cases hcallback
  | enqueue => exact hi.modify (fun _ _ _ => SendState.noConfusion)
  | @sendFailed r reqId =>
    refine GivenOut.modify (c := { c with tracker := (c.tracker.pop reqId).2 }) hi (fun req _ _ => ?_)
    rw [(send_settleFuture _ _).1]
    exact SendState.noConfusion
  | receive =>
    intro r req hr hcallback
    exact hi r req (Transport.requests_dispatchResponse _ ▸ hr) hcallback
  | @settle k delivery =>
    exact GivenOut.settle (c := { c with delivering := c.delivering.eraseIdx k }) hi (Transport.outcome m delivery)
  | @cancel r =>
    refine hi.modify (fun req hr _ => ?_)
    rw [send_cancelFuture]
    simp only [given, hr] at hg
    exact of_decide_eq_true hg
  | onCancelled => exact hi.onCancelled hown hs
  | onCancelledEntry => exact hi.onCancelled hown hs
  | cleanup =>
    intro r req hr hcallback
    rw [List.getElem?_mapIdx] at hr
    obtain ⟨req₀, hreq₀, rfl⟩ := Option.map_eq_some_iff.1 hr
    split at hcallback
    · next hany =>
      rw [if_pos hany, (send_settleFuture _ _).1]
      exact hi r req₀ hreq₀ ((send_settleFuture _ _).2 ▸ hcallback)
    · next hany =>
      rw [if_neg hany]
      exact hi r req₀ hreq₀ hcallback
  | _ => exact hi

end

section

variable {link link' : Connection α} {cl : ConnectionLabel α} {t r : Nat} {req : ClientRequest α}

/-- A task handles a request from before, or it is the one that its delivery has made. -/
theorem step_arrivals (hs : Connection.step d h m cl link = some link') (hl : link'.arrivals.lookup t = some r) :
    link.arrivals.lookup t = some r ∨ cl = .deliver r ∧ ∃ task, link'.HandledBy t r task := by
  cases Connection.step_to hs with
  | @deliver r' req call frames server hr hc hf hserver =>
    rw [List.lookup_cons] at hl
    split at hl
    · next heq =>
      obtain rfl := Option.some.inj hl
      obtain rfl := eq_of_beq heq
      exact .inr ⟨rfl, _, Sys.step_recv hserver, req, call, frames, hr, hc, hf, rfl⟩
    · exact .inl hl
  | _ => exact .inl hl

theorem link_sent (hs : Connection.step d h m cl link = some link') (hr : link.client.requests[r]? = some req)
    (hsent : req.send ≠ .toSend) : ∃ req', link'.client.requests[r]? = some req' ∧ req'.send ≠ .toSend := by
  cases Connection.step_to hs with
  | client _ hclient => exact step_sent hclient hr hsent
  | request hclient => exact step_sent hclient hr hsent
  | _ => exact ⟨req, hr, hsent⟩

theorem link_given (hi : GivenOut link.client) (hs : Connection.step d h m cl link = some link')
    (hcl : ∀ l, cl = .client l → given link.client l = true ∧ OwnId link.client l) : GivenOut link'.client := by
  cases Connection.step_to hs with
  | @client l _ _ hclient => exact hi.step (hcl l rfl).1 (hcl l rfl).2 hclient
  | @request call _ hclient => exact GivenOut.step hi (rfl : given link.client (.allocate call.decode) = true) trivial hclient
  | deliver => exact hi
  | server => exact hi
  | transfer => exact hi

/-- What is put on the line is a message that had not been handed over, or the
cancellation of one that had. -/
theorem posted_cases {c c' : Transport α} {l : TransportLabel α} (hi : GivenOut c) (hs : Transport.step m l c = some c') :
    posted c l = [] ∨ (∃ r req, posted c l = [.request r] ∧ c.requests[r]? = some req ∧ req.send = .toSend) ∨
      ∃ r req, posted c l = [.cancel r] ∧ c.requests[r]? = some req ∧ req.send ≠ .toSend := by
  cases l with
  | enqueue r =>
    obtain ⟨req, hr, hs⟩ := Option.bind_eq_some_iff.1 hs
    split at hs
    · next hcond => exact .inr (.inl ⟨r, req, rfl, hr, hcond.1⟩)
    · cases hs
  | onCancelled r =>
    obtain ⟨req, hr, hs⟩ := Option.bind_eq_some_iff.1 hs
    split at hs
    · next hcallback =>
      simp only [posted, hr]
      split
      · exact .inr (.inr ⟨r, req, rfl, hr, hi r req hr hcallback⟩)
      · exact .inl rfl
    · cases hs
  | _ => exact .inl rfl

end

/-- On the line a cancellation comes after the message of its request. -/
def Behind (a b : Outgoing) : Prop := ∀ r, a = .cancel r → b ≠ .request r

/-- The cancellation of the request has been handed over. -/
def Cancels (s : Courier α) (r : Nat) : Prop := .cancel r ∈ s.line ∨ ∃ t, (t, r) ∈ s.cancels

/-- The task handles a cancellation of the request. -/
def Asks (m : Msgspec) (link : Connection α) (t r : Nat) : Prop :=
  ∃ task req payloadBytes frames, link.server.tasks[t]? = some task ∧ link.client.requests[r]? = some req ∧
    pack m ({ reqId := req.id } : CancelRequest) = .ok payloadBytes ∧
      messageFrames link.authToken 0 .cancelRequest payloadBytes = some frames ∧ task.msg = some (link.identity :: frames)

structure InLine (m : Msgspec) (s : Courier α) : Prop where
  arrived : ∀ t r, s.link.arrivals.lookup t = some r → ∃ task, s.link.HandledBy t r task
  asked : ∀ t r, (t, r) ∈ s.cancels → Asks m s.link t r
  given : GivenOut s.link.client
  sent : ∀ r, s.Cancels r → ∃ req, s.link.client.requests[r]? = some req ∧ req.send ≠ .toSend
  line : s.line.Pairwise Behind
  behind : ∀ t r, (t, r) ∈ s.cancels → .request r ∉ s.line ∧ ∀ u, s.link.arrivals.lookup u = some r → u < t

theorem Asks.extend {link link' : Connection α} {t r : Nat} (ha : Asks m link t r) (he : Connection.Extends link link') :
    Asks m link' t r := by
  obtain ⟨task, req, payloadBytes, frames, ht, hr, hp, hf, hmsg⟩ := ha
  obtain ⟨task', ht', hmsg', -⟩ := he.tasks t task ht
  obtain ⟨req', hr', hid⟩ := he.requests r req hr
  refine ⟨task', req', payloadBytes, frames, ht', hr', hid ▸ hp, he.authToken ▸ hf, ?_⟩
  rw [hmsg', hmsg, he.identity]

theorem InLine.arrived_step {link : Connection α} {cl : ConnectionLabel α} (hi : s.InLine m)
    (hs : Connection.step d h m cl s.link = some link) :
    ∀ t r, link.arrivals.lookup t = some r → ∃ task, link.HandledBy t r task := by
  intro t r hl
  rcases step_arrivals hs hl with hold | ⟨-, hnew⟩
  · obtain ⟨task, hh⟩ := hi.arrived t r hold
    obtain ⟨task', hh', -⟩ := hh.extend (Connection.step_extends hs)
    exact ⟨task', hh'⟩
  · exact hnew

/-- A step that delivers nothing of this client. -/
theorem InLine.link_step {link : Connection α} {cl : ConnectionLabel α} {more : List Outgoing} (hi : s.InLine m)
    (hs : Connection.step d h m cl s.link = some link) (hbrings : brings cl = false)
    (hgiven : GivenOut link.client)
    (hmore : more = [] ∨ (∃ r req, more = [.request r] ∧ s.link.client.requests[r]? = some req ∧ req.send = .toSend) ∨
      ∃ r req, more = [.cancel r] ∧ s.link.client.requests[r]? = some req ∧ req.send ≠ .toSend) :
    InLine m { s with link := link, line := s.line ++ more } := by
  have hfresh : ∀ r, s.Cancels r → .request r ∉ more := by
    intro r hc hmem
    obtain ⟨req, hr, hsent⟩ := hi.sent r hc
    rcases hmore with rfl | ⟨r', req', rfl, hr', htoSend⟩ | ⟨r', req', rfl, -⟩
    · cases hmem
    · obtain rfl := Outgoing.request.inj (List.mem_singleton.1 hmem)
      obtain rfl := Option.some.inj (hr.symm.trans hr')
      exact hsent htoSend
    · cases List.mem_singleton.1 hmem
  refine ⟨hi.arrived_step hs, ?_, hgiven, ?_, ?_, ?_⟩
  · exact fun t r hmem => (hi.asked t r hmem).extend (Connection.step_extends hs)
  · intro r hc
    have hbefore : ∃ req, s.link.client.requests[r]? = some req ∧ req.send ≠ .toSend := by
      rcases hc with hline | hcancels
      · rcases List.mem_append.1 hline with hold | hnew
        · exact hi.sent r (.inl hold)
        · rcases hmore with rfl | ⟨r', req', rfl, -⟩ | ⟨r', req', rfl, hr', hsent⟩
          · cases hnew
          · cases List.mem_singleton.1 hnew
          · obtain rfl := Outgoing.cancel.inj (List.mem_singleton.1 hnew)
            exact ⟨req', hr', hsent⟩
      · exact hi.sent r (.inr hcancels)
    obtain ⟨req, hr, hsent⟩ := hbefore
    exact link_sent hs hr hsent
  · refine List.pairwise_append.2 ⟨hi.line, ?_, fun a ha b hb r hr => ?_⟩
    · rcases hmore with rfl | ⟨_, _, rfl, -⟩ | ⟨_, _, rfl, -⟩
      · exact .nil
      · exact List.pairwise_singleton _ _
      · exact List.pairwise_singleton _ _
    · subst hr
      rintro rfl
      exact hfresh r (.inl ha) hb
  · intro t r hmem
    obtain ⟨hline, hbehind⟩ := hi.behind t r hmem
    refine ⟨fun hin => ?_, fun u hl => ?_⟩
    · rcases List.mem_append.1 hin with hold | hnew
      · exact hline hold
      · exact hfresh r (.inr ⟨t, hmem⟩) hnew
    · rcases step_arrivals hs hl with hold | ⟨rfl, -⟩
      · exact hbehind u hold
      · cases hbrings

theorem behind_tail {line : List Outgoing} {r : Nat} (hp : (.cancel r :: line : List Outgoing).Pairwise Behind) :
    .request r ∉ line := fun hmem => (List.pairwise_cons.1 hp).1 _ hmem r rfl rfl

theorem InLine.request_step {r : Nat} {line : List Outgoing} {link : Connection α} (hi : s.InLine m)
    (hline : s.line = .request r :: line) (hs : Connection.step d h m (.deliver r) s.link = some link) :
    InLine m { s with link := link, line := line } := by
  have hsub : ∀ {a}, a ∈ line → a ∈ s.line := fun hmem => hline ▸ List.mem_cons_of_mem _ hmem
  have hsorted := hi.line
  rw [hline] at hsorted
  refine ⟨hi.arrived_step hs, ?_, ?_, ?_, (List.pairwise_cons.1 hsorted).2, ?_⟩
  · exact fun t r hmem => (hi.asked t r hmem).extend (Connection.step_extends hs)
  · exact link_given hi.given hs (fun _ hl => by cases hl)
  · intro r' hc
    obtain ⟨req, hr, hsent⟩ := hi.sent r' (hc.imp hsub id)
    exact link_sent hs hr hsent
  · intro t r' hmem
    obtain ⟨hnot, hbehind⟩ := hi.behind t r' hmem
    refine ⟨fun hin => hnot (hsub hin), fun u hl => ?_⟩
    rcases step_arrivals hs hl with hold | ⟨hsame, -⟩
    · exact hbehind u hold
    · obtain rfl := ConnectionLabel.deliver.inj hsame
      exact absurd (hline ▸ List.mem_cons_self ..) hnot

theorem InLine.cancel_step {r : Nat} {req : ClientRequest α} {line : List Outgoing} {payloadBytes : Bytes}
    {link : Connection α} (hi : s.InLine m) (hline : s.line = .cancel r :: line)
    (hr : s.link.client.requests[r]? = some req)
    (hp : pack m ({ reqId := req.id } : CancelRequest) = .ok payloadBytes)
    (hs : Connection.step d h m (.deliverCancel payloadBytes) s.link = some link) :
    InLine m { s with link := link, line := line, cancels := (s.link.server.tasks.length, r) :: s.cancels } := by
  have hsub : ∀ {a}, a ∈ line → a ∈ s.line := fun hmem => hline ▸ List.mem_cons_of_mem _ hmem
  have hsorted := hi.line
  rw [hline] at hsorted
  have hcancelled : ∀ r', s.Cancels r' → ∃ req, link.client.requests[r']? = some req ∧ req.send ≠ .toSend := by
    intro r' hc
    obtain ⟨req', hr', hsent⟩ := hi.sent r' hc
    exact link_sent hs hr' hsent
  have hlookup : ∀ u r', link.arrivals.lookup u = some r' → s.link.arrivals.lookup u = some r' := by
    intro u r' hl
    rcases step_arrivals hs hl with hold | ⟨hsame, -⟩
    · exact hold
    · cases hsame
  refine ⟨hi.arrived_step hs, ?_, ?_, ?_, (List.pairwise_cons.1 hsorted).2, ?_⟩
  · intro t r' hmem
    rcases List.mem_cons.1 hmem with heq | hold
    · obtain ⟨rfl, rfl⟩ := Prod.mk.inj heq
      obtain ⟨frames, hf, hs⟩ := Option.bind_eq_some_iff.1 hs
      obtain ⟨server, hserver, hs⟩ := Option.bind_eq_some_iff.1 hs
      obtain rfl := Option.some.inj hs
      exact ⟨_, req, payloadBytes, frames, Sys.step_recv hserver, hr, hp, hf, rfl⟩
    · exact (hi.asked t r' hold).extend (Connection.step_extends hs)
  · exact link_given hi.given hs (fun _ hl => by cases hl)
  · intro r' hc
    apply hcancelled
    rcases hc with hin | ⟨t, hmem⟩
    · exact .inl (hsub hin)
    · rcases List.mem_cons.1 hmem with heq | hold
      · obtain ⟨-, rfl⟩ := Prod.mk.inj heq
        exact .inl (hline ▸ List.mem_cons_self ..)
      · exact .inr ⟨t, hold⟩
  · intro t r' hmem
    rcases List.mem_cons.1 hmem with heq | hold
    · obtain ⟨rfl, rfl⟩ := Prod.mk.inj heq
      refine ⟨behind_tail hsorted, fun u hl => ?_⟩
      obtain ⟨task, hh⟩ := hi.arrived u _ (hlookup u _ hl)
      exact Lookup.lt_length hh.present
    · obtain ⟨hnot, hbehind⟩ := hi.behind t r' hold
      exact ⟨fun hin => hnot (hsub hin), fun u hl => hbehind u (hlookup u r' hl)⟩

theorem InLine.lose_step {i : Nat} (hi : s.InLine m) : InLine m { s with line := s.line.eraseIdx i } := by
  have hsub : ∀ {a}, a ∈ s.line.eraseIdx i → a ∈ s.line := fun hmem => List.mem_of_mem_eraseIdx hmem
  refine ⟨hi.arrived, hi.asked, hi.given, ?_, hi.line.sublist (List.eraseIdx_sublist ..), ?_⟩
  · exact fun r hc => hi.sent r (hc.imp hsub id)
  · intro t r hmem
    obtain ⟨hnot, hbehind⟩ := hi.behind t r hmem
    exact ⟨fun hin => hnot (hsub hin), hbehind⟩

/-- The event loop of the server starts its tasks in order, and the ids of this client
are not used again too soon. -/
def Orderly (s : Courier α) : CourierLabel α → Prop
  | .link (.server l) => s.link.server.InTurn l
  | .link (.client l) => OwnId s.link.client l
  | _ => True

instance (s : Courier α) (l : CourierLabel α) : Decidable (s.Orderly l) := by
  unfold Orderly
  split <;> infer_instance

theorem InLine.step (hi : s.InLine m) (hc : s.Orderly l) (hs : step d h m l s = some s') : s'.InLine m := by
  cases step_to hs with
  | @client cl link hg hlink =>
    have hgiven : GivenOut link.client := by
      refine link_given hi.given hlink (fun l hl => ?_)
      obtain rfl := ConnectionLabel.client.inj hl
      exact ⟨hg, hc⟩
    refine hi.link_step hlink rfl hgiven ?_
    simp only [Connection.step] at hlink
    split at hlink
    · obtain ⟨client, hclient, -⟩ := Option.bind_eq_some_iff.1 hlink
      exact posted_cases hi.given hclient
    · cases hlink
  | @other cl link hown hbrings hlink =>
    have hgiven : GivenOut link.client := by
      refine link_given hi.given hlink (fun l hl => ?_)
      subst hl
      cases hown
    have hstep := hi.link_step hlink hbrings hgiven (.inl (rfl : ([] : List Outgoing) = []))
    rw [List.append_nil] at hstep
    exact hstep
  | request hline hlink => exact hi.request_step hline hlink
  | cancel hline hr hp hlink => exact hi.cancel_step hline hr hp hlink
  | lose => exact hi.lose_step

/-- The server books its requests, and starts its tasks in order. -/
structure Served (d : Daemon) (s : Sys) : Prop where
  booked : s.Booked d
  onThread : s.OnThread
  inOrder : s.BegunInOrder

theorem Served.step {sys sys' : Sys} {sl : Label} (hi : Served d sys) (hids : sys'.ProperIds) (hturn : sys.InTurn sl)
    (hs : Sys.step d h sl sys = some sys') : Served d sys' :=
  ⟨hi.booked.step hids hs, hi.onThread.step hs, hi.inOrder.step hturn hs⟩

theorem served_step (hi : Served d s.link.server) (hc : s.Orderly l) (hids : s'.link.server.ProperIds)
    (hs : step d h m l s = some s') : Served d s'.link.server := by
  have received : ∀ {cl : ConnectionLabel α} {link : Connection α}, Connection.step d h m cl s.link = some link →
      link.server.ProperIds → (∀ sl, cl = .server sl → s.link.server.InTurn sl) → Served d link.server := by
    intro cl link hlink hids hturn
    rcases Connection.step_server hlink with hsame | ⟨sl, hserver, hsl, -⟩
    · exact hsame ▸ hi
    · refine hi.step hids ?_ hserver
      rcases hsl with hsl | ⟨msg, rfl⟩
      · exact hturn sl hsl
      · exact fun t ht => by cases ht
  cases step_to hs with
  | client hg hlink => exact received hlink hids (fun _ hsl => by cases hsl)
  | other hown hbrings hlink =>
    refine received hlink hids (fun sl hsl => ?_)
    subst hsl
    exact hc
  | request hline hlink => exact received hlink hids (fun _ hsl => by cases hsl)
  | cancel hline hr hp hlink => exact received hlink hids (fun _ hsl => by cases hsl)
  | lose => exact hi

end Courier

end VsRemote
