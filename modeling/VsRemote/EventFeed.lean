import VsRemote.BroadcastReach
import VsRemote.ClientEvents
import VsRemote.LiveOrder

/-! The whole way of the live events: from the broadcast on the server, over the socket,
to the `on_event` of a subscriber. -/

namespace VsRemote

def Payload.isEvent : Payload → Bool
  | .reply => false
  | _ => true

def Payload.live? : Payload → Option Nat
  | .live e => some e
  | _ => none

/-- The server and one of its clients. Messages to a client keep their order; the first
`passed` of them have arrived or are lost. -/
structure Feed where
  server : EventStream
  passed : Nat := 0
  client : EventPipe Payload := EventPipe.started

inductive FeedLabel where
  | server (l : StreamLabel)
  | arrive
  | drop
  | client (l : EventLabel Payload)

namespace EventStream

variable {s s' : EventStream} {l : StreamLabel} {identity : Bytes}

/-- The message, if it goes to the client. -/
def payloadTo (identity : Bytes) (message : Bytes × Payload) : Option Payload :=
  if message.1 = identity then some message.2 else none

def messagesTo (identity : Bytes) (s : EventStream) : List Payload := s.sent.filterMap (payloadTo identity)

theorem messagesTo_step (hs : step l s = some s') : s.messagesTo identity <+: s'.messagesTo identity := by
  cases step_to hs with
  | put => exact (List.prefix_append _ _).filterMap _
  | _ => exact List.prefix_rfl

theorem live_messagesTo (identity : Bytes) (s : EventStream) :
    (s.messagesTo identity).filterMap Payload.live? = s.liveTo identity := by
  unfold messagesTo liveTo
  rw [List.filterMap_filterMap]
  refine List.filterMap_congr (fun m _ => ?_)
  obtain ⟨name, payload⟩ := m
  by_cases hto : name = identity
  · cases payload <;> simp [payloadTo, liveOf, Payload.live?, hto]
  · cases payload <;> simp [payloadTo, liveOf, hto]

theorem count_messagesTo (identity : Bytes) (s : EventStream) (payload : Payload) :
    (s.messagesTo identity).count payload = s.sent.count (identity, payload) := by
  unfold messagesTo
  induction s.sent with
  | nil => rfl
  | cons m ms ih =>
    obtain ⟨name, payload'⟩ := m
    by_cases hto : name = identity
    · subst hto
      have hsame : ((name, payload') == (name, payload)) = (payload' == payload) := by
        rw [Bool.eq_iff_iff, beq_iff_eq, beq_iff_eq, Prod.mk.injEq, and_iff_right rfl]
      rw [List.filterMap_cons_some (show payloadTo name (name, payload') = some payload' from if_pos rfl), List.count_cons,
        List.count_cons, ih, hsame]
    · have hne : (name, payload') ≠ (identity, payload) := fun h => hto (Prod.mk.inj h).1
      rw [List.filterMap_cons_none (show payloadTo identity (name, payload') = none from if_neg hto),
        List.count_cons_of_ne hne, ih]

end EventStream

namespace Feed

variable {identity : Bytes} {s s' : Feed} {l : FeedLabel} {ls : List FeedLabel}

def stepServer (l : StreamLabel) (s : Feed) : Option Feed := do
  let server ← EventStream.step l s.server
  some { s with server := server }

/-- The client dispatches its next message; one that is no event goes to the tracker. -/
def stepArrive (identity : Bytes) (s : Feed) : Option Feed :=
  match s.client.dispatching, (s.server.messagesTo identity)[s.passed]? with
  | .idle, some payload =>
    if payload.isEvent then do
      let client ← EventPipe.step (.dispatch payload) s.client
      some { s with passed := s.passed + 1, client := client }
    else some { s with passed := s.passed + 1 }
  | _, _ => none

/-- The socket drops a message to a client that is gone or too slow. -/
def stepDrop (identity : Bytes) (s : Feed) : Option Feed :=
  if s.passed < (s.server.messagesTo identity).length then some { s with passed := s.passed + 1 } else none

def stepClient (l : EventLabel Payload) (s : Feed) : Option Feed :=
  match l.event? with
  | some _ => none
  | none => do
    let client ← EventPipe.step l s.client
    some { s with client := client }

def step (identity : Bytes) : FeedLabel → Feed → Option Feed
  | .server l, s => stepServer l s
  | .arrive, s => stepArrive identity s
  | .drop, s => stepDrop identity s
  | .client l, s => stepClient l s

def init (startup : Nat) : Feed := { server := EventStream.init startup }

inductive StepTo (identity : Bytes) (s : Feed) : FeedLabel → Feed → Prop
  | server {sl : StreamLabel} {server : EventStream} (hs : EventStream.step sl s.server = some server) :
      StepTo identity s (.server sl) { s with server := server }
  | arrive {payload : Payload} {client : EventPipe Payload}
      (hnext : (s.server.messagesTo identity)[s.passed]? = some payload) (he : payload.isEvent = true)
      (hs : EventPipe.step (.dispatch payload) s.client = some client) :
      StepTo identity s .arrive { s with passed := s.passed + 1, client := client }
  | other {payload : Payload} (hnext : (s.server.messagesTo identity)[s.passed]? = some payload)
      (he : payload.isEvent = false) : StepTo identity s .arrive { s with passed := s.passed + 1 }
  | drop (hlt : s.passed < (s.server.messagesTo identity).length) :
      StepTo identity s .drop { s with passed := s.passed + 1 }
  | client {el : EventLabel Payload} {client : EventPipe Payload} (hl : el.event? = none)
      (hs : EventPipe.step el s.client = some client) : StepTo identity s (.client el) { s with client := client }

theorem step_to (hs : step identity l s = some s') : StepTo identity s l s' := by
  cases l with
  | server sl =>
    obtain ⟨server, hserver, hs⟩ := Option.bind_eq_some_iff.1 hs
    exact Option.some.inj hs ▸ .server hserver
  | arrive =>
    simp only [step, stepArrive] at hs
    split at hs
    · next payload hidle hnext =>
      split at hs
      · next he =>
        obtain ⟨client, hclient, hs⟩ := Option.bind_eq_some_iff.1 hs
        exact Option.some.inj hs ▸ .arrive hnext he hclient
      · next he => exact Option.some.inj hs ▸ .other hnext (Bool.eq_false_iff.2 he)
    · cases hs
  | drop =>
    simp only [step, stepDrop] at hs
    split at hs
    · next hlt => exact Option.some.inj hs ▸ .drop hlt
    · cases hs
  | client el =>
    simp only [step, stepClient] at hs
    split at hs
    · cases hs
    · next hl =>
      obtain ⟨client, hclient, hs⟩ := Option.bind_eq_some_iff.1 hs
      exact Option.some.inj hs ▸ .client hl hclient

/-- The messages that are no longer on their way. -/
def arrived (identity : Bytes) (s : Feed) : List Payload := (s.server.messagesTo identity).take s.passed

theorem arrived_server {sl : StreamLabel} {server : EventStream} (hp : s.passed ≤ (s.server.messagesTo identity).length)
    (hs : EventStream.step sl s.server = some server) :
    arrived identity { s with server := server } = s.arrived identity := by
  obtain ⟨more, hmore⟩ : s.server.messagesTo identity <+: server.messagesTo identity := EventStream.messagesTo_step hs
  unfold arrived
  rw [← hmore]
  exact List.take_append_of_le_length hp

theorem arrived_next {payload : Payload} (hnext : (s.server.messagesTo identity)[s.passed]? = some payload) :
    (s.server.messagesTo identity).take (s.passed + 1) = s.arrived identity ++ [payload] := by
  rw [List.take_add_one, hnext]
  rfl

/-- The client has seen some of the messages that are no longer on their way, in their order. -/
structure Relayed (identity : Bytes) (s : Feed) : Prop where
  passed : s.passed ≤ (s.server.messagesTo identity).length
  orderly : s.client.Orderly
  seen : s.client.seen.Sublist (s.arrived identity)

theorem Relayed.step (hi : s.Relayed identity) (hs : Feed.step identity l s = some s') : s'.Relayed identity := by
  have hpass : s.passed < (s.server.messagesTo identity).length →
      s.client.seen.Sublist ((s.server.messagesTo identity).take (s.passed + 1)) := by
    intro hlt
    rw [arrived_next (List.getElem?_eq_getElem hlt)]
    exact hi.seen.trans (List.sublist_append_left _ _)
  cases step_to hs with
  | server hserver =>
    refine ⟨Nat.le_trans hi.passed (EventStream.messagesTo_step hserver).length_le, hi.orderly, ?_⟩
    rw [arrived_server hi.passed hserver]
    exact hi.seen
  | arrive hnext he hclient =>
    refine ⟨Lookup.lt_length hnext, hi.orderly.step hclient, ?_⟩
    have hseen := EventPipe.step_seen_sublist hclient
    refine hseen.trans ?_
    unfold arrived
    rw [arrived_next hnext]
    exact hi.seen.append (List.Sublist.refl _)
  | other hnext => exact ⟨Lookup.lt_length hnext, hi.orderly, hpass (Lookup.lt_length hnext)⟩
  | drop hlt => exact ⟨hlt, hi.orderly, hpass hlt⟩
  | client hl hclient =>
    refine ⟨hi.passed, hi.orderly.step hclient, ?_⟩
    have hseen := EventPipe.step_seen_sublist hclient
    rw [hl, Option.toList_none, List.append_nil] at hseen
    exact hseen.trans hi.seen

theorem relayed_init (startup : Nat) : (init startup).Relayed identity :=
  ⟨Nat.zero_le _, EventPipe.orderly_started, List.Sublist.refl _⟩

/-- As long as the transport is open, the client has seen every event that has arrived. -/
def Complete (identity : Bytes) (s : Feed) : Prop :=
  s.client.closed = false → s.client.eventQueue ≠ none ∧ s.client.seen = (s.arrived identity).filter Payload.isEvent

theorem Complete.step (hc : s.Complete identity) (hi : s.Relayed identity) (hl : l ≠ .drop)
    (hs : Feed.step identity l s = some s') : s'.Complete identity := by
  cases step_to hs with
  | server hserver =>
    intro hopen
    rw [arrived_server hi.passed hserver]
    exact hc hopen
  | drop => exact absurd rfl hl
  | arrive hnext he hclient =>
    intro hopen
    obtain ⟨hq, hseen⟩ := hc (EventPipe.open_of_step hclient hopen)
    obtain ⟨hq', hseen'⟩ := hi.orderly.step_open hclient hq hopen
    refine ⟨hq', ?_⟩
    unfold arrived
    rw [arrived_next hnext, List.filter_append, ← hseen, List.filter_cons_of_pos he, List.filter_nil]
    exact hseen'
  | other hnext he =>
    intro hopen
    obtain ⟨hq, hseen⟩ := hc hopen
    refine ⟨hq, ?_⟩
    unfold arrived
    rw [arrived_next hnext, List.filter_append, List.filter_cons_of_neg (by rw [he]; exact Bool.false_ne_true),
      List.filter_nil, List.append_nil]
    exact hseen
  | client hevent hclient =>
    intro hopen
    obtain ⟨hq, hseen⟩ := hc (EventPipe.open_of_step hclient hopen)
    obtain ⟨hq', hseen'⟩ := hi.orderly.step_open hclient hq hopen
    rw [hevent, Option.toList_none, List.append_nil] at hseen'
    exact ⟨hq', hseen'.trans hseen⟩

theorem complete_init (startup : Nat) : (init startup).Complete identity :=
  fun _ => ⟨(fun h => by cases h), rfl⟩

/-- The steps of the server in a run. -/
def FeedLabel.server? : FeedLabel → Option StreamLabel
  | .server l => some l
  | _ => none

theorem run_server (hr : Runs.run (step identity) ls s = some s') :
    Runs.run EventStream.step (ls.filterMap FeedLabel.server?) s.server = some s'.server := by
  induction ls generalizing s with
  | nil => rw [Option.some.inj hr]; rfl
  | cons l ls ih =>
    obtain ⟨u, hs, hr⟩ := Runs.run_cons_some hr
    have hrest := ih hr
    cases step_to hs with
    | server hserver => exact (congrArg (Option.bind · _) hserver).trans hrest
    | _ => exact hrest

def InPace (s : Feed) : FeedLabel → Prop
  | .server l => s.server.InPace l
  | _ => True

theorem server_ordered (ho : s.server.Ordered) (hc : s.InPace l) (hs : step identity l s = some s') : s'.server.Ordered := by
  cases step_to hs with
  | server hserver => exact ho.step hc hserver
  | _ => exact ho

/-- Nothing is left to be done for the client, which is open and whose `on_event` has raised
no `BaseException`. -/
structure Settled (identity : Bytes) (s : Feed) : Prop where
  server : s.server.Idle
  passed : s.passed = (s.server.messagesTo identity).length
  dispatching : s.client.dispatching = .idle
  isOpen : s.client.closed = false
  raised : ∀ stage ∈ s.client.stages, stage.worker ≠ .ended .raised
  waiting : ∀ i, s.client.Waiting i

/-- In every run of the server with any clients, of a network that loses messages but keeps
their order, and of one client with its event thread: `on_event` gets no live event twice,
and gets them in the order they were broadcast in where no client moves towards the front
between unfinished rounds. If nothing is lost or cut short it has in the end been given
exactly the events that were broadcast while the client was subscribed, once each. -/
theorem live_events_delivered {startup : Nat} (hr : Runs.run (step identity) ls (init startup) = some s) :
    (∀ e, s.client.handled.count (.live e) ≤ 1) ∧
      (Runs.Guarded (step identity) InPace ls (init startup) →
        (s.client.handled.filterMap Payload.live?).Sublist s.server.broadcasts) ∧
      ((∀ l ∈ ls, l ≠ .drop ∧ ∀ t, l ≠ .server (.ends t)) → s.Settled identity → ∀ e,
        s.client.handled.count (.live e) =
          if identity ∈ EventStream.audience e (ls.filterMap FeedLabel.server?) (EventStream.init startup) then 1 else 0) := by
  have hi : s.Relayed identity := Runs.run_inv (fun _ _ _ hi hs => hi.step hs) (relayed_init startup) hr
  have hserver := run_server hr
  have hsub : s.client.handled.Sublist (s.server.messagesTo identity) :=
    (hi.orderly.handled_sublist.trans (List.sublist_append_left _ _)).trans (hi.seen.trans (List.take_sublist _ _))
  refine ⟨fun e => ?_, fun hg => ?_, fun hl hsettled e => ?_⟩
  · have hnumbered : s.server.Numbered :=
      Runs.run_inv (fun _ _ _ hn hs => hn.step hs) (EventStream.numbered_init startup) hserver
    calc s.client.handled.count (.live e)
      _ ≤ (s.server.messagesTo identity).count (.live e) := hsub.count_le _
      _ = s.server.sent.count (identity, .live e) := EventStream.count_messagesTo ..
      _ ≤ s.server.ledger.count (identity, .live e) := (List.sublist_append_left _ _).count_le _
      _ ≤ 1 := hnumbered.once identity e
  · have ho : s.server.Ordered :=
      hg.inv (I := fun s => s.server.Ordered) (fun _ _ _ ho hc hs => server_ordered ho hc hs)
        (EventStream.ordered_init startup) hr
    have hlive : (s.client.handled.filterMap Payload.live?).Sublist (s.server.liveTo identity) := by
      rw [← EventStream.live_messagesTo]
      exact hsub.filterMap _
    exact hlive.trans ((EventStream.liveInOrder_of_sequenced ho.numbered ho.sequenced).2 identity)
  · have hkept : Runs.Guarded (step identity) (fun _ l => l ≠ .drop) ls (init startup) :=
      Runs.Guarded.of_mem (fun l hmem _ => (hl l hmem).1)
    have hboth : s.Relayed identity ∧ s.Complete identity :=
      hkept.inv (I := fun s => s.Relayed identity ∧ s.Complete identity)
        (fun _ _ _ h hne hs => ⟨h.1.step hs, h.2.step h.1 hne hs⟩) ⟨relayed_init startup, complete_init startup⟩ hr
    have hends : ∀ l ∈ ls.filterMap FeedLabel.server?, EventStream.isEnds l = false := by
      intro sl hmem
      obtain ⟨l, hl₀, hsl⟩ := List.mem_filterMap.1 hmem
      cases sl with
      | ends t =>
        cases l with
        | server sl' =>
          obtain rfl := Option.some.inj hsl
          exact absurd rfl ((hl _ hl₀).2 t)
        | _ => cases hsl
      | _ => rfl
    have hall : s.client.handled = (s.server.messagesTo identity).filter Payload.isEvent :=
      calc s.client.handled
        _ = s.client.received := hi.orderly.handled_eq hsettled.isOpen hsettled.raised hsettled.waiting
        _ = s.client.seen := by
          unfold EventPipe.seen
          rw [hsettled.dispatching]
          exact (List.append_nil _).symm
        _ = (s.arrived identity).filter Payload.isEvent := (hboth.2 hsettled.isOpen).2
        _ = _ := by rw [arrived, hsettled.passed, List.take_length]
    rw [hall, List.count_filter rfl, EventStream.count_messagesTo]
    exact (hsettled.server.sent hends hserver).2 identity e

/-- A client subscribes, has the startup event replayed and gets a live one. -/
def subscribedFeed : List FeedLabel :=
  [.server (.subscribe [2] true), .server (.put 0), .server (.finish 0), .server .readHistory, .server (.put 0),
    .server (.emit false), .server (.finish 0), .server (.broadcast [[2]]), .server (.start 1), .server (.put 1),
    .server (.finish 1), .arrive, .arrive, .client .load, .client .put, .client (.test 0), .client (.fetch 0),
    .client (.take 0), .arrive, .client .load, .client .put, .client (.handle 0 false), .client (.test 0),
    .client (.fetch 0), .client (.take 0), .client (.handle 0 false), .client (.test 0), .client (.fetch 0)]

theorem live_events_delivered_subscribed : ∃ s, Runs.run (step [2]) subscribedFeed (init 1) = some s ∧
    s.client.handled = [.history 0, .live 1] ∧ s.Settled [2] ∧ s.client.handled.count (.live 1) = 1 := by
  have hends : ∀ l ∈ subscribedFeed, l ≠ .drop ∧ ∀ t, l ≠ .server (.ends t) := by
    simp [subscribedFeed]
  obtain ⟨s, hr, hhandled, hwork, hpassed, hdispatching, hopen, stage, hstages, hworker, hqueue, haudience⟩ :
      ∃ s, Runs.run (step [2]) subscribedFeed (init 1) = some s ∧ s.client.handled = [.history 0, .live 1] ∧
        s.server.work = 0 ∧ s.passed = (s.server.messagesTo [2]).length ∧ s.client.dispatching = .idle ∧
        s.client.closed = false ∧ ∃ stage, s.client.stages = [stage] ∧ stage.worker = .getting 0 ∧
        stage.puts[stage.taken]? = none ∧ [2] ∈ EventStream.audience 1 (subscribedFeed.filterMap FeedLabel.server?)
          (EventStream.init 1) := by
    refine ⟨_, rfl, rfl, rfl, rfl, rfl, rfl, _, rfl, rfl, rfl, by decide⟩
  have hm : s.server.Manned := Runs.run_inv (fun _ _ _ hm hs => hm.step hs) (EventStream.manned_init 1) (run_server hr)
  have hwaiting : ∀ i, s.client.Waiting i := by
    intro i
    unfold EventPipe.Waiting
    cases i with
    | zero =>
      simp [EventPipe.step, EventPipe.stepTest, EventPipe.stepFetch, EventPipe.stepTake, EventPipe.stepHandle, hstages,
        hworker, hqueue]
    | succ i => simp [EventPipe.step, EventPipe.stepTest, EventPipe.stepFetch, EventPipe.stepTake, EventPipe.stepHandle, hstages]
  have hraised : ∀ stage ∈ s.client.stages, stage.worker ≠ .ended .raised := by
    intro stage' hmem
    rw [hstages] at hmem
    rw [List.mem_singleton.1 hmem, hworker]
    exact fun h => by cases h
  have hsettled : s.Settled [2] := ⟨EventStream.idle_of_work hm hwork, hpassed, hdispatching, hopen, hraised, hwaiting⟩
  have hcount := (live_events_delivered hr).2.2 hends hsettled 1
  rw [if_pos haudience] at hcount
  exact ⟨s, hr, hhandled, hsettled, hcount⟩

end Feed

end VsRemote
