import VsRemote.ClientSteps

/-! Which requests a transport leaves unsettled when it is closed. -/

namespace VsRemote

namespace RequestFuture

variable {α : Type} {fut : RequestFuture α}

/-- The first outcome that was offered settled the future, and none after it. -/
def Once (fut : RequestFuture α) : Prop :=
  fut.outcome = fut.offered.head? ∧ fut.settled = if fut.outcome.isSome then 1 else 0

theorem Once.offer (h : fut.Once) (o : RequestOutcome α) : (fut.offer o).Once := by
  obtain ⟨hhead, hsettled⟩ := h
  unfold RequestFuture.offer
  cases ho : fut.outcome with
  | none =>
    have hempty : fut.offered = [] := List.head?_eq_none_iff.1 (hhead.symm.trans ho)
    simp only [ho, Option.isSome_none, Bool.false_eq_true, if_false] at hsettled
    exact ⟨by simp [hempty], by simp [hsettled]⟩
  | some x =>
    have hfirst : fut.offered.head? = some x := hhead.symm.trans ho
    refine ⟨?_, ?_⟩
    · simp only [List.head?_append, hfirst, Option.some_or]
    · simpa only [ho] using hsettled

end RequestFuture

namespace Requests

variable {α : Type} {m : Msgspec} {b : Requests α} {f i reqId : Nat} {c₀ : RequestCall α} {pc : CallPc}

/-- Some call is at a place like this. -/
def SomeCall (b : Requests α) (Q : CallPc → Prop) : Prop := ∃ (i : Nat) (c : RequestCall α), b.calls[i]? = some c ∧ Q c.pc

theorem SomeCall.setCall {Q : CallPc → Prop} (h : b.SomeCall Q) (hi : b.calls[i]? = some c₀)
    (hq : Q c₀.pc → Q pc) : (b.setCall i pc).SomeCall Q := by
  obtain ⟨j, c, hj, hc⟩ := h
  by_cases hij : i = j
  · subst hij
    obtain rfl := Option.some.inj (hi.symm.trans hj)
    exact ⟨i, { c₀ with pc := pc }, by simp [Requests.setCall, hi], hq hc⟩
  · exact ⟨j, c, by simp [Requests.setCall, hij, hj], hc⟩

theorem SomeCall.addCall {Q : CallPc → Prop} {decode : Bytes → Except PyExc α} (h : b.SomeCall Q) :
    (b.addCall decode).SomeCall Q := by
  obtain ⟨j, c, hj, hc⟩ := h
  exact ⟨j, c, Lookup.append_left hj, hc⟩

/-- The future is found under its id, or its call is about to settle it. -/
def Waits (b : Requests α) (f : Nat) : Prop :=
  (∃ reqId entry, b.tracker.pending.get? reqId = some entry ∧ entry.future = f) ∨
    b.SomeCall (fun pc => ∃ e, pc = .setException e f)

def Tracked (b : Requests α) : Prop :=
  ∀ (f : Nat) (fut : RequestFuture α), b.futures[f]? = some fut → fut.outcome = none → b.Waits f

/-- The call will take the id out again when it sees that the transport is closed. -/
def WillPop (reqId f : Nat) (pc : CallPc) : Prop :=
  pc = .addCallback reqId f ∨ pc = .encode reqId f ∨ pc = .send .closed reqId f ∨ ∃ e, pc = .pop e reqId f

def InHand (b : Requests α) : Prop :=
  ∀ (reqId : Nat) (entry : PendingEntry α), b.tracker.pending.get? reqId = some entry →
    b.SomeCall (WillPop reqId entry.future)

theorem unsettled_offer {o : RequestOutcome α} {j : Nat} {fut : RequestFuture α}
    (h : (b.offer f o).futures[j]? = some fut) (hn : fut.outcome = none) : j ≠ f ∧ b.futures[j]? = some fut := by
  obtain ⟨fut₀, h₀, ⟨-, rfl⟩ | ⟨hne, rfl⟩⟩ := Lookup.of_modify h
  · have hsome := RequestFuture.outcome_offer o fut₀
    rw [hn] at hsome
    cases hsome
  · exact ⟨fun hjf => hne hjf.symm, h₀⟩

namespace Tracked

theorem offer (h : b.Tracked) (o : RequestOutcome α) : (b.offer f o).Tracked :=
  fun j fut hj hn => h j fut (unsettled_offer hj hn).2 hn

theorem popEntry {entry : PendingEntry α} (h : b.Tracked) (he : b.tracker.pending.get? reqId = some entry)
    (o : RequestOutcome α) : ((b.pop reqId).offer entry.future o).Tracked := by
  intro j fut hj hn
  obtain ⟨hne, hj⟩ := unsettled_offer hj hn
  rcases h j fut hj hn with ⟨id, entry', he', rfl⟩ | hcall
  · refine .inl ⟨id, entry', ?_, rfl⟩
    have hid : id ≠ reqId := by
      rintro rfl
      exact hne (Option.some.inj (he'.symm.trans he) ▸ rfl)
    exact (OrderedDict.get?_erase _ _ _).trans ((if_neg hid).trans he')
  · exact .inr hcall

theorem setCall (h : b.Tracked) (hi : b.calls[i]? = some c₀) (hpc : ∀ e f, c₀.pc ≠ .setException e f) :
    (b.setCall i pc).Tracked := by
  intro j fut hj hn
  rcases h j fut hj hn with hentry | hcall
  · exact .inl hentry
  · exact .inr (hcall.setCall hi (fun ⟨e, he⟩ => absurd he (hpc e j)))

theorem allocate {decode : Bytes → Except PyExc α} {b' : Requests α} (h : b.Tracked)
    (hi : b.calls[i]? = some c₀) (hpc : c₀.pc = .allocate) (ha : b.allocate decode = some (reqId, b')) :
    (b'.setCall i pc).Tracked := by
  obtain ⟨hfree, hpending, hfutures, hcalls⟩ := allocate_some ha
  intro j fut hj hn
  have hj : (b.futures ++ [({} : RequestFuture α)])[j]? = some fut := hfutures ▸ hj
  rcases Lookup.of_append hj with hj | ⟨rfl, -⟩
  · rcases h j fut hj hn with ⟨id, entry, he, rfl⟩ | hcall
    · refine .inl ⟨id, entry, ?_, rfl⟩
      have hid : id ≠ reqId := by
        rintro rfl
        rw [hfree] at he
        cases he
      change b'.tracker.pending.get? id = some entry
      rw [hpending, OrderedDict.get?_set, if_neg hid]
      exact he
    · have hcall' : b'.SomeCall (fun pc => ∃ e, pc = .setException e j) := by
        simpa only [SomeCall, hcalls] using hcall
      refine .inr (hcall'.setCall (hcalls ▸ hi) (fun ⟨e, he⟩ => ?_))
      rw [hpc] at he
      cases he
  · refine .inl ⟨reqId, ⟨b.futures.length, decode⟩, ?_, rfl⟩
    change b'.tracker.pending.get? reqId = _
    rw [hpending, OrderedDict.get?_set, if_pos rfl]

theorem addDoneCallback (h : b.Tracked) (hi : b.calls[i]? = some c₀) (hpc : ∀ e f, c₀.pc ≠ .setException e f) :
    ((b.addDoneCallback f reqId).setCall i pc).Tracked := by
  obtain ⟨callbacks, heq⟩ := addDoneCallback_eq b f reqId
  rw [heq]
  refine Tracked.setCall (fun j fut hj hn => ?_) hi hpc
  obtain ⟨fut₀, h₀, ⟨-, rfl⟩ | ⟨-, rfl⟩⟩ := Lookup.of_modify hj
  · exact h j fut₀ h₀ hn
  · exact h j _ h₀ hn

theorem cancelFuture (h : b.Tracked) : (b.cancelFuture f).Tracked := by
  obtain ⟨callbacks, heq⟩ := cancelFuture_eq b f
  rw [heq]
  exact h.offer .cancelled

theorem pop {e : PyExc} (h : b.Tracked) (hi : b.calls[i]? = some c₀) (hpc : c₀.pc = .pop e reqId f)
    (hown : ∀ entry, b.tracker.pending.get? reqId = some entry → entry.future = f) :
    ((b.pop reqId).setCall i (.setException e f)).Tracked := by
  intro j fut hj hn
  rcases h j fut hj hn with ⟨id, entry, he, rfl⟩ | hcall
  · by_cases hid : id = reqId
    · subst hid
      refine .inr ⟨i, { c₀ with pc := .setException e f }, ?_, e, by rw [hown entry he]⟩
      simp [Requests.setCall, Requests.pop, hi]
    · exact .inl ⟨id, entry, (OrderedDict.get?_erase _ _ _).trans ((if_neg hid).trans he), rfl⟩
  · refine .inr (SomeCall.setCall (b := b.pop reqId) hcall hi ?_)
    rintro ⟨e', he'⟩
    rw [hpc] at he'
    cases he'

theorem setException {e : PyExc} (h : b.Tracked) (hi : b.calls[i]? = some c₀) (hpc : c₀.pc = .setException e f) :
    ((b.offer f (.rejected e)).setCall i pc).Tracked := by
  intro j fut hj hn
  obtain ⟨hne, hj⟩ := unsettled_offer hj hn
  rcases h j fut hj hn with hentry | hcall
  · exact .inl hentry
  · refine .inr (SomeCall.setCall (b := b.offer f (.rejected e)) hcall hi ?_)
    rintro ⟨e', he'⟩
    rw [hpc] at he'
    cases he'
    exact absurd rfl hne

/-- Whatever is pending is rejected. -/
theorem close (h : b.Tracked) : b.close.Tracked := by
  intro j fut hj hn
  simp only [Requests.close, List.getElem?_mapIdx, Option.map_eq_some_iff] at hj
  obtain ⟨fut₀, hj, rfl⟩ := hj
  split at hn
  · have hsome := RequestFuture.outcome_offer (.rejected Transport.transportClosed) fut₀
    rw [hn] at hsome
    cases hsome
  · next hout =>
    rcases h j fut₀ hj hn with ⟨id, entry, he, rfl⟩ | hcall
    · have hin := OrderedDict.mem_values_of_get? he
      exact absurd (List.any_eq_true.2 ⟨entry, hin, by simp⟩) hout
    · exact .inr hcall

end Tracked

namespace InHand

theorem same {b' : Requests α} (h : b.InHand) (hpending : b'.tracker.pending = b.tracker.pending)
    (hcalls : b'.calls = b.calls) : b'.InHand := by
  intro id entry he
  rw [hpending] at he
  have hcall := h id entry he
  simpa only [SomeCall, hcalls] using hcall

theorem pop (h : b.InHand) : (b.pop reqId).InHand :=
  fun id entry he => h id entry (OrderedDict.get?_of_get?_erase he).2

theorem setCall (h : b.InHand) (hi : b.calls[i]? = some c₀)
    (hpc : ∀ id entry, b.tracker.pending.get? id = some entry → WillPop id entry.future c₀.pc →
      WillPop id entry.future pc) : (b.setCall i pc).InHand :=
  fun id entry he => (h id entry he).setCall hi (hpc id entry he)

theorem allocate {decode : Bytes → Except PyExc α} {b' : Requests α} (h : b.InHand)
    (hi : b.calls[i]? = some c₀) (hpc : c₀.pc = .allocate) (ha : b.allocate decode = some (reqId, b')) :
    (b'.setCall i (.addCallback reqId b.futures.length)).InHand := by
  obtain ⟨hfree, hpending, -, hcalls⟩ := allocate_some ha
  intro id entry he
  have he : (b.tracker.pending.set reqId ⟨b.futures.length, decode⟩).get? id = some entry := hpending ▸ he
  rw [OrderedDict.get?_set] at he
  by_cases hid : id = reqId
  · subst hid
    rw [if_pos rfl] at he
    obtain rfl := Option.some.inj he
    refine ⟨i, { c₀ with pc := .addCallback id b.futures.length }, ?_, .inl rfl⟩
    simp [Requests.setCall, hcalls, hi]
  · rw [if_neg hid] at he
    have hcall : b'.SomeCall (WillPop id entry.future) := by
      simpa only [SomeCall, hcalls] using h id entry he
    refine hcall.setCall (hcalls ▸ hi) (fun hw => ?_)
    rw [hpc] at hw
    rcases hw with hw | hw | hw | ⟨e, hw⟩ <;> cases hw

theorem close : b.close.InHand := fun _ _ he => by cases he

end InHand

end Requests

namespace ThreadedClient

open Requests

variable {α : Type} {m : Msgspec} {s t : ThreadedClient α} {l : ThreadLabel α}

/-- A payload that cannot be encoded leaves no request behind a `close()`, and a
call that cannot send takes out its own entry. -/
def noLeak (s : ThreadedClient α) : ThreadLabel α → Bool
  | .call i encodes =>
    match (s.requests.calls[i]?).map RequestCall.pc with
    | some (.encode reqId f) =>
      encodes || !s.trackerClosed || !(s.requests.tracker.pending.get? reqId).any (fun entry => entry.future = f)
    | some (.pop _ reqId f) => (s.requests.tracker.pending.get? reqId).all (fun entry => entry.future = f)
    | _ => true
  | _ => true

theorem noLeak_encode {i reqId f : Nat} {c : RequestCall α} (hc : s.noLeak (.call i false) = true)
    (hi : s.requests.calls[i]? = some c) (hpc : c.pc = .encode reqId f) (hclosed : s.trackerClosed = true)
    {entry : PendingEntry α} (he : s.requests.tracker.pending.get? reqId = some entry) : entry.future ≠ f := by
  simpa [noLeak, hi, hpc, hclosed, he] using hc

theorem noLeak_pop {i reqId f : Nat} {encodes : Bool} {e : PyExc} {c : RequestCall α}
    (hc : s.noLeak (.call i encodes) = true) (hi : s.requests.calls[i]? = some c) (hpc : c.pc = .pop e reqId f)
    {entry : PendingEntry α} (he : s.requests.tracker.pending.get? reqId = some entry) : entry.future = f := by
  simpa [noLeak, hi, hpc, he] using hc

/-- A closed transport sends a call that holds an entry on to take it out, if
only its payload can be encoded. -/
theorem Moves.willPop {encodes : Bool} {pc pc' : CallPc} {reqId f : Nat} (hm : s.Moves encodes pc pc')
    (hattr : s.attrs.closed = true) (hw : WillPop reqId f pc) :
    WillPop reqId f pc' ∨ (encodes = false ∧ pc = .encode reqId f) := by
  rcases hw with rfl | rfl | rfl | ⟨e, rfl⟩
  · cases hm
  · cases hm with
    | encoded he => exact .inl (.inr (.inr (.inl rfl)))
    | unencoded he => exact .inr ⟨he, rfl⟩
  · have hsend : s.sendMessage encodes .closed = .fails Transport.transportClosed := if_pos hattr
    cases hm with
    | next h => cases hsend.symm.trans h
    | fails h => exact .inl (.inr (.inr (.inr ⟨_, rfl⟩)))
    | raises h => cases hsend.symm.trans h
  · cases hm

theorem tracked_step (h : s.requests.Tracked) (hc : s.noLeak l = true) (hs : step m l s = some t) :
    t.requests.Tracked := by
  have hto := step_requests hs
  generalize t.requests = b at hto
  cases hto with
  | same => exact h
  | addCall =>
    intro f fut hf hn
    rcases h f fut hf hn with hentry | hcall
    · exact .inl hentry
    · exact .inr hcall.addCall
  | moves hi hm => exact h.setCall hi (fun e f he => by rw [he] at hm; cases hm)
  | allocate hi hpc ha => exact h.allocate hi hpc ha
  | addCallback hi hpc => exact h.addDoneCallback hi (fun e f he => by rw [hpc] at he; cases he)
  | pop hi hpc => exact h.pop hi hpc (fun entry he => noLeak_pop hc hi hpc he)
  | setException hi hpc => exact h.setException hi hpc
  | cancel => exact h.cancelFuture
  | setCallback => exact h
  | @cancelRequest k reqId encodes entry he =>
    obtain ⟨callbacks, heq⟩ := cancelFuture_eq (s.requests.pop reqId) entry.future
    rw [heq]
    exact h.popEntry he .cancelled
  | @resolve g reqId parts frames =>
    rcases resolve_cases m s.requests reqId frames with heq | ⟨entry, o, he, heq⟩
    · exact heq.symm ▸ h
    · exact heq.symm ▸ h.popEntry he o
  | close => exact h.close

/-- A call that finds the transport closed goes on to take out its entry. -/
theorem inHand_step (h : s.requests.InHand) (hclosed : s.trackerClosed = true) (hattr : s.attrs.closed = true)
    (hc : s.noLeak l = true) (hs : step m l s = some t) : t.requests.InHand := by
  have hto := step_requests hs
  generalize t.requests = b at hto
  cases hto with
  | same => exact h
  | addCall => exact fun id entry he => (h id entry he).addCall
  | @moves i encodes c pc hi hm =>
    refine h.setCall hi (fun id entry he hw => ?_)
    rcases hm.willPop hattr hw with hw | ⟨rfl, hpc⟩
    · exact hw
    · exact absurd rfl (noLeak_encode hc hi hpc hclosed he)
  | allocate hi hpc ha => exact h.allocate hi hpc ha
  | @addCallback i reqId f encodes c hi hpc =>
    obtain ⟨callbacks, heq⟩ := addDoneCallback_eq s.requests f reqId
    rw [heq]
    refine InHand.setCall (h.same rfl rfl) hi (fun id entry he hw => ?_)
    rw [hpc] at hw
    rcases hw with hw | hw | hw | ⟨e, hw⟩ <;> cases hw
    exact .inr (.inl rfl)
  | @pop i reqId f encodes e c hi hpc =>
    refine h.pop.setCall hi (fun id entry he hw => ?_)
    rw [hpc] at hw
    rcases hw with hw | hw | hw | ⟨e', hw⟩ <;> cases hw
    exact absurd rfl (OrderedDict.get?_of_get?_erase he).1
  | @setException i f encodes e c hi hpc =>
    refine InHand.setCall (h.same rfl rfl) hi (fun id entry he hw => ?_)
    rw [hpc] at hw
    rcases hw with hw | hw | hw | ⟨e', hw⟩ <;> cases hw
  | @cancel f =>
    obtain ⟨callbacks, heq⟩ := cancelFuture_eq s.requests f
    rw [heq]
    exact h.same rfl rfl
  | setCallback => exact h.same rfl rfl
  | @cancelRequest k reqId encodes entry he =>
    obtain ⟨callbacks, heq⟩ := cancelFuture_eq (s.requests.pop reqId) entry.future
    rw [heq]
    exact h.pop.same rfl rfl
  | @resolve g reqId parts frames =>
    rcases resolve_cases m s.requests reqId frames with heq | ⟨entry, o, he, heq⟩
    · exact heq.symm ▸ h
    · exact heq.symm ▸ h.pop.same rfl rfl
  | close => exact InHand.close

theorem once_step (h : ∀ fut ∈ s.requests.futures, fut.Once) (hs : step m l s = some t) :
    ∀ fut ∈ t.requests.futures, fut.Once := by
  have offered : ∀ (b : Requests α) (f : Nat) (o : RequestOutcome α), (∀ fut ∈ b.futures, fut.Once) →
      ∀ fut ∈ (b.offer f o).futures, fut.Once := by
    intro b f o hb fut hfut
    obtain ⟨j, hj⟩ := List.mem_iff_getElem?.1 hfut
    obtain ⟨fut₀, h₀, ⟨-, rfl⟩ | ⟨-, rfl⟩⟩ := Lookup.of_modify hj
    · exact (hb fut₀ (List.mem_of_getElem? h₀)).offer o
    · exact hb _ (List.mem_of_getElem? h₀)
  have hto := step_requests hs
  generalize t.requests = b at hto
  cases hto with
  | same => exact h
  | addCall => exact h
  | moves => exact h
  | allocate hi hpc ha =>
    intro fut hfut
    have hfut : fut ∈ s.requests.futures ++ [({} : RequestFuture α)] := (allocate_some ha).2.2.1 ▸ hfut
    rcases List.mem_append.1 hfut with hfut | hfut
    · exact h fut hfut
    · exact List.mem_singleton.1 hfut ▸ ⟨rfl, rfl⟩
  | @addCallback i reqId f encodes c hi hpc =>
    obtain ⟨callbacks, heq⟩ := addDoneCallback_eq s.requests f reqId
    rw [heq]
    intro fut hfut
    obtain ⟨j, hj⟩ := List.mem_iff_getElem?.1 hfut
    obtain ⟨fut₀, h₀, ⟨-, rfl⟩ | ⟨-, rfl⟩⟩ := Lookup.of_modify hj
    · exact h fut₀ (List.mem_of_getElem? h₀)
    · exact h _ (List.mem_of_getElem? h₀)
  | pop => exact h
  | setException => exact offered _ _ _ h
  | @cancel f =>
    obtain ⟨callbacks, heq⟩ := cancelFuture_eq s.requests f
    exact heq.symm ▸ offered _ _ _ h
  | setCallback => exact h
  | @cancelRequest k reqId encodes entry he =>
    obtain ⟨callbacks, heq⟩ := cancelFuture_eq (s.requests.pop reqId) entry.future
    exact heq.symm ▸ offered _ _ _ h
  | @resolve g reqId parts frames =>
    rcases resolve_cases m s.requests reqId frames with heq | ⟨entry, o, he, heq⟩
    · exact heq.symm ▸ h
    · exact heq.symm ▸ offered _ _ _ h
  | close =>
    intro fut hfut
    obtain ⟨j, hj⟩ := List.mem_iff_getElem?.1 hfut
    simp only [Requests.close, List.getElem?_mapIdx, Option.map_eq_some_iff] at hj
    obtain ⟨fut₀, h₀, rfl⟩ := hj
    have hold := h fut₀ (List.mem_of_getElem? h₀)
    split
    · exact hold.offer _
    · exact hold

/-- Once `close()` has been through the tracker and no call of `send_request` is
half-way nothing is pending and every future was settled, each of them once. -/
structure SettledByClose (s : ThreadedClient α) : Prop where
  settled : s.trackerClosed = true → (∀ c ∈ s.requests.calls, c.pc.ended = true) →
    s.requests.tracker.pending.keys = [] ∧ ∀ fut ∈ s.requests.futures, fut.settled = 1
  once : ∀ fut ∈ s.requests.futures, fut.Once

structure Settles (s : ThreadedClient α) : Prop where
  closing : s.core.ClosingClosed
  closed : s.trackerClosed = true → s.attrs.closed = true
  tracked : s.requests.Tracked
  inHand : s.trackerClosed = true → s.requests.InHand
  once : ∀ fut ∈ s.requests.futures, fut.Once

theorem settles_init (subscribeStreams : Bool) : (init subscribeStreams : ThreadedClient α).Settles where
  closing _ h := by cases h
  closed h := by cases h
  tracked _ _ hf := by cases hf
  inHand h := by cases h
  once _ hf := by cases hf

theorem Settles.step (h : s.Settles) (hc : s.noLeak l = true) (hs : step m l s = some t) : t.Settles := by
  have hcore := step_core hs
  refine ⟨hcore.closingClosed h.closing, fun hclosed => ?_, tracked_step h.tracked hc hs, fun hclosed => ?_,
    once_step h.once hs⟩
  · rcases step_trackerClosed hs with hsame | ⟨hlocked, -⟩
    · exact hcore.closed_mono (h.closed (hsame ▸ hclosed))
    · exact hcore.closed_mono (h.closing _ hlocked rfl)
  · rcases step_trackerClosed hs with hsame | ⟨-, hrequests⟩
    · have hbefore : s.trackerClosed = true := hsame ▸ hclosed
      exact inHand_step (h.inHand hbefore) hbefore (h.closed hbefore) hc hs
    · exact hrequests ▸ InHand.close

theorem Settles.settledByClose (h : s.Settles) : s.SettledByClose := by
  refine ⟨fun hclosed hended => ?_, h.once⟩
  have nobody : ∀ Q : CallPc → Prop, (∀ pc, Q pc → pc.ended = false) → ¬ s.requests.SomeCall Q := by
    rintro Q hq ⟨i, c, hi, hc⟩
    have hhalf := hq c.pc hc
    rw [hended c (List.mem_of_getElem? hi)] at hhalf
    cases hhalf
  have hempty : ∀ reqId, s.requests.tracker.pending.get? reqId = none := by
    intro reqId
    cases he : s.requests.tracker.pending.get? reqId with
    | none => rfl
    | some entry =>
      have hcall := h.inHand hclosed reqId entry he
      refine absurd hcall (nobody _ (fun pc hw => ?_))
      rcases hw with rfl | rfl | rfl | ⟨e, rfl⟩ <;> rfl
  refine ⟨OrderedDict.keys_eq_nil hempty, fun fut hfut => ?_⟩
  obtain ⟨f, hf⟩ := List.mem_iff_getElem?.1 hfut
  rw [(h.once fut hfut).2]
  cases ho : fut.outcome with
  | some o => rfl
  | none =>
    rcases h.tracked f fut hf ho with ⟨reqId, entry, he, -⟩ | hcall
    · rw [hempty reqId] at he
      cases he
    · refine absurd hcall (nobody _ (fun pc hpc => ?_))
      obtain ⟨e, rfl⟩ := hpc
      rfl

end ThreadedClient

open ThreadedClient

/-- Where no payload fails to be encoded behind a `close()` and no call takes out
the entry of another, a `close()` settles every request, each of them once. -/
theorem close_settles_requests {α : Type} {m : Msgspec} {subscribeStreams : Bool} {ls : List (ThreadLabel α)}
    (hg : Runs.Guarded (step m) (fun s l => s.noLeak l = true) ls (init subscribeStreams)) :
    Runs.Always (step m) SettledByClose ls (init subscribeStreams) := by
  have hinv := hg.always (I := Settles) (fun s l t h hc hs => h.step hc hs) (settles_init subscribeStreams)
  exact hinv.mono (fun s h => h.settledByClose)

/-- One request is sent, another one is half-way while the transport is closed. -/
def closedWithTwo : List (ThreadLabel Unit) :=
  starts ++ [.request (fun _ => .ok ())] ++ List.replicate 15 (.call 0 true) ++
    [.request (fun _ => .ok ()), .call 1 true, .call 1 true, .call 1 true, .close] ++ List.replicate 6 .locked ++
    List.replicate 6 (.call 1 true)

theorem close_settles_requests_closedWithTwo :
    (Runs.run (step (.table [] [])) closedWithTwo (init false)).map (fun s => (s.trackerClosed,
        s.requests.calls.map (fun c => c.pc), s.requests.tracker.pending.keys)) =
        some (true, [.sent 0 false, .unsent Transport.transportClosed 1], []) ∧
      Runs.Always (step (.table [] [])) SettledByClose closedWithTwo (init false) :=
  ⟨by decide, close_settles_requests (by decide)⟩

/-- The payload cannot be encoded, and the id was taken after the `close()`. -/
def unencodable : List (ThreadLabel Unit) :=
  starts ++ [.request (fun _ => .ok ()), .call 0 true, .call 0 true, .call 0 true, .close] ++
    List.replicate 6 .locked ++ [.call 0 true, .call 0 true, .call 0 false]

theorem unencodable_left_pending :
    ∃ s, Runs.run (step (.table [] [])) unencodable (init false) = some s ∧ s.trackerClosed = true ∧
      (∀ c ∈ s.requests.calls, c.pc.ended = true) ∧ s.requests.tracker.pending.keys = [1] ∧ ¬ SettledByClose s := by
  have hfinal : (Runs.run (step (.table [] [])) unencodable (init false)).map (fun s => (s.trackerClosed,
      s.requests.calls.all (fun c => c.pc.ended), s.requests.tracker.pending.keys)) = some (true, true, [1]) := by
    decide
  obtain ⟨s, hs, heq⟩ := Option.map_eq_some_iff.1 hfinal
  simp only [Prod.mk.injEq] at heq
  obtain ⟨hclosed, hended, hkeys⟩ := heq
  have hended := List.all_eq_true.1 hended
  refine ⟨s, hs, hclosed, hended, hkeys, fun h => ?_⟩
  have hnone := (h.settled hclosed hended).1
  rw [hkeys] at hnone
  cases hnone

end VsRemote
