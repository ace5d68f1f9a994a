import VsRemote.Transport

/-! Whose reply settles a future: ids are recycled, entries are taken out and
replies arrive late, twice or never. -/

namespace VsRemote

open CyclicAlloc (idAt)

namespace Transport

variable {α : Type} {m : Msgspec} {s s' : Transport α} {l : TransportLabel α}

inductive StepTo (m : Msgspec) (s : Transport α) : TransportLabel α → Transport α → Prop
  | start : StepTo m s .start { s with started := true, running := true }
  | call : StepTo m s .call { s with callers := s.callers + 1 }
  | allocate {decode : Bytes → Except PyExc α} {reqId : Nat} {tracker : RequestTracker α}
      (ha : s.tracker.allocate ⟨s.requests.length, decode⟩ = some (reqId, tracker)) :
      StepTo m s (.allocate decode) { s with
        tracker := tracker
        callers := s.callers - 1
        requests := s.requests ++ [{ id := reqId, others := s.tracker.pending.size }] }
  | enqueue {r : Nat} :
      StepTo m s (.enqueue r) (s.modifyRequest r (fun req => { req with send := .enqueued }))
  | sendFailed {r reqId : Nat} :
      StepTo m s (.sendFailed r) ({ s with tracker := (s.tracker.pop reqId).2 }.modifyRequest r
        (fun req => settleFuture (.rejected s.sendError) { req with send := .failed }))
  | reply {r : Nat} {frames : List Bytes} {req : ClientRequest α} (hr : s.requests[r]? = some req) :
      StepTo m s (.reply r frames)
        { s with inFlight := s.inFlight ++ [⟨some r, intToBytes4 req.id :: frames⟩] }
  | push {frames : List Bytes} :
      StepTo m s (.push frames) { s with inFlight := s.inFlight ++ [⟨none, intToBytes4 0 :: frames⟩] }
  | receive {k : Nat} {reply : Reply} (hk : s.inFlight[k]? = some reply) :
      StepTo m s (.receive k) (s.dispatchResponse reply)
  | settle {k : Nat} {d : Delivery α} (hk : s.delivering[k]? = some d) :
      StepTo m s (.settle k) ({ s with delivering := s.delivering.eraseIdx k }.modifyRequest d.entry.future
        (settleFuture (outcome m d)))
  | cancel {r : Nat} : StepTo m s (.cancel r) (s.modifyRequest r cancelFuture)
  | onCancelled {r : Nat} :
      StepTo m s (.onCancelled r) (s.modifyRequest r (fun req => { req with callback := false }))
  | onCancelledEntry {r reqId : Nat} {entry : PendingEntry α} :
      StepTo m s (.onCancelled r)
        ({ s.modifyRequest r (fun req => { req with callback := false }) with
          tracker := (s.tracker.pop reqId).2 }.modifyRequest entry.future cancelFuture)
  | cleanup : StepTo m s .cleanup { s with
      tracker := { s.tracker with pending := .empty }
      requests := s.requests.mapIdx (fun r req =>
        if s.tracker.pending.values.any (fun entry => entry.future = r) then
          settleFuture (.rejected transportClosed) req
        else req) }
  | stopped : StepTo m s .stopped { s with running := false }
  | close : StepTo m s .close { s with closed := true, running := false }

theorem step_to (hs : step m l s = some s') : StepTo m s l s' := by
  cases l with
  | start =>
    simp only [step] at hs
    split at hs
    · cases hs
    · exact Option.some.inj hs ▸ .start
  | call =>
    simp only [step, stepCall] at hs
    split at hs
    · exact Option.some.inj hs ▸ .call
    · cases hs
  | allocate decode =>
    simp only [step, stepAllocate] at hs
    split at hs
    · cases hs
    · obtain ⟨⟨reqId, tracker⟩, ha, hs⟩ := Option.bind_eq_some_iff.1 hs
      exact Option.some.inj hs ▸ .allocate ha
  | enqueue r =>
    obtain ⟨req, hr, hs⟩ := Option.bind_eq_some_iff.1 hs
    split at hs
    · exact Option.some.inj hs ▸ .enqueue
    · cases hs
  | sendFailed r =>
    obtain ⟨req, hr, hs⟩ := Option.bind_eq_some_iff.1 hs
    split at hs
    · exact Option.some.inj hs ▸ .sendFailed
    · cases hs
  | reply r frames =>
    obtain ⟨req, hr, hs⟩ := Option.bind_eq_some_iff.1 hs
    split at hs
    · exact Option.some.inj hs ▸ .reply hr
    · cases hs
  | push frames => exact Option.some.inj hs ▸ .push
  | receive k =>
    obtain ⟨reply, hk, hs⟩ := Option.bind_eq_some_iff.1 hs
    split at hs
    · exact Option.some.inj hs ▸ .receive hk
    · cases hs
  | settle k =>
    obtain ⟨d, hk, hs⟩ := Option.bind_eq_some_iff.1 hs
    exact Option.some.inj hs ▸ .settle hk
  | cancel r => exact Option.some.inj hs ▸ .cancel
  | onCancelled r =>
    obtain ⟨req, hr, hs⟩ := Option.bind_eq_some_iff.1 hs
    split at hs
    · simp only [RequestTracker.pop] at hs
      split at hs
      · exact Option.some.inj hs ▸ .onCancelled
      · next hpop =>
        obtain ⟨-, rfl⟩ := Prod.mk.inj hpop
        exact Option.some.inj hs ▸ .onCancelledEntry
    · cases hs
  | cleanup =>
    simp only [step, stepCleanup] at hs
    split at hs
    · exact Option.some.inj hs ▸ .cleanup
    · cases hs
  | stopped =>
    simp only [step] at hs
    split at hs
    · exact Option.some.inj hs ▸ .stopped
    · cases hs
  | close => exact Option.some.inj hs ▸ .close

end Transport

def FutureState.reply? {α : Type} : FutureState α → Option Reply
  | .result reply _ => some reply
  | .exception reply _ => some reply
  | _ => none

/-- The request keeps its id; its future is left as it is, or settled with a `new` state. -/
structure ClientRequest.Evolves {α : Type} (new : FutureState α → Prop) (req req' : ClientRequest α) : Prop where
  id : req'.id = req.id
  others : req'.others = req.others
  done : req.future.done = true → req'.future = req.future
  future : req'.future = req.future ∨ new req'.future

namespace Transport

open ClientRequest (Evolves)

variable {α : Type} {m : Msgspec} {s s' : Transport α} {l : TransportLabel α}

def NoReply (state : FutureState α) : Prop := state.reply? = none

theorem evolves_refl (new : FutureState α → Prop) (req : ClientRequest α) : Evolves new req req :=
  ⟨rfl, rfl, fun _ => rfl, .inl rfl⟩

theorem evolves_settleFuture (new : FutureState α → Prop) (state : FutureState α) (hn : new state)
    (req : ClientRequest α) : Evolves new req (settleFuture state req) := by
  unfold settleFuture
  by_cases hdone : req.future.done = true
  · rw [if_pos hdone]
    exact evolves_refl new req
  · rw [if_neg hdone]
    exact ⟨rfl, rfl, fun h => absurd h hdone, .inr hn⟩

theorem evolves_cancelFuture (req : ClientRequest α) : Evolves NoReply req (cancelFuture req) := by
  unfold cancelFuture
  by_cases hdone : req.future.done = true
  · rw [if_pos hdone]
    exact evolves_refl NoReply req
  · rw [if_neg hdone]
    exact ⟨rfl, rfl, fun h => absurd h hdone, .inr rfl⟩

theorem evolves_trans {new : FutureState α → Prop} {req₁ req₂ req₃ : ClientRequest α}
    (h₁ : Evolves new req₁ req₂) (h₂ : Evolves new req₂ req₃) : Evolves new req₁ req₃ := by
  refine ⟨h₂.id.trans h₁.id, h₂.others.trans h₁.others, fun hdone => ?_, ?_⟩
  · have hsame := h₁.done hdone
    exact (h₂.done (hsame ▸ hdone)).trans hsame
  · rcases h₂.future with hsame | hnew
    · exact hsame ▸ h₁.future
    · exact .inr hnew

theorem reply?_outcome (m : Msgspec) (d : Delivery α) : (outcome m d).reply? = some d.reply := by
  unfold outcome
  split <;> rfl

theorem evolves_modify {f : ClientRequest α → ClientRequest α} {r i : Nat} {req' : ClientRequest α}
    (hf : ∀ req, Evolves NoReply req (f req)) (hi : (s.modifyRequest r f).requests[i]? = some req') :
    ∃ req, s.requests[i]? = some req ∧ Evolves NoReply req req' := by
  obtain ⟨req, hreq, ⟨-, rfl⟩ | ⟨-, rfl⟩⟩ := Lookup.of_modify hi
  · exact ⟨req, hreq, hf req⟩
  · exact ⟨_, hreq, evolves_refl NoReply _⟩

theorem dispatchResponse_cases (reply : Reply) : s.dispatchResponse reply = s ∨
    ∃ idBytes frames entry, reply.parts = idBytes :: frames ∧ intFromBytes idBytes ≠ 0 ∧
      s.tracker.pending.get? (intFromBytes idBytes) = some entry ∧
      s.dispatchResponse reply = { s with
        tracker := (s.tracker.pop (intFromBytes idBytes)).2
        delivering := s.delivering ++ [⟨entry, reply⟩] } := by
  unfold dispatchResponse
  cases hparts : reply.parts with
  | nil => exact .inl rfl
  | cons idBytes frames =>
    by_cases hzero : intFromBytes idBytes = 0
    · simp only [hzero, if_true, true_or]
    · cases hget : s.tracker.pending.get? (intFromBytes idBytes) with
      | none => simp only [hzero, if_false, RequestTracker.pop, hget, true_or]
      | some entry =>
        refine .inr ⟨idBytes, frames, entry, rfl, hzero, hget, ?_⟩
        simp only [hzero, if_false, RequestTracker.pop, hget]

theorem requests_dispatchResponse (reply : Reply) : (s.dispatchResponse reply).requests = s.requests := by
  rcases dispatchResponse_cases reply with h | ⟨_, _, _, _, _, _, h⟩
  · rw [h]
  · rw [h]

theorem step_request {r : Nat} {req' : ClientRequest α} (hs : step m l s = some s')
    (hr : s'.requests[r]? = some req') :
    (∃ req, s.requests[r]? = some req ∧ (Evolves NoReply req req' ∨ ∃ k d, l = .settle k ∧
      s.delivering[k]? = some d ∧ d.entry.future = r ∧ Evolves (· = outcome m d) req req')) ∨
    (r = s.requests.length ∧ NoReply req'.future) := by
  have unchanged : s.requests[r]? = some req' → ∃ req, s.requests[r]? = some req ∧
      Evolves NoReply req req' := fun h => ⟨req', h, evolves_refl NoReply req'⟩
  have old : (∃ req, s.requests[r]? = some req ∧ Evolves NoReply req req') →
      ∃ req, s.requests[r]? = some req ∧ (Evolves NoReply req req' ∨ ∃ k d, l = .settle k ∧
        s.delivering[k]? = some d ∧ d.entry.future = r ∧ Evolves (· = outcome m d) req req') := by
    rintro ⟨req, hreq, he⟩
    exact ⟨req, hreq, .inl he⟩
  have enqueued : ∀ req : ClientRequest α, Evolves NoReply req { req with send := .enqueued } :=
    fun req => ⟨rfl, rfl, fun _ => rfl, .inl rfl⟩
  have called : ∀ req : ClientRequest α, Evolves NoReply req { req with callback := false } :=
    fun req => ⟨rfl, rfl, fun _ => rfl, .inl rfl⟩
  cases step_to hs with
  | allocate ha =>
    rcases Lookup.of_append hr with hr | ⟨hlen, rfl⟩
    · exact .inl (old (unchanged hr))
    · exact .inr ⟨hlen, rfl⟩
  | enqueue => exact .inl (old (evolves_modify enqueued hr))
  | @sendFailed r₀ =>
    have hf : ∀ req : ClientRequest α, Evolves NoReply req
        (settleFuture (.rejected s.sendError) { req with send := .failed }) := fun req =>
      have hset := evolves_settleFuture NoReply (.rejected s.sendError) rfl
        { req with send := .failed }
      ⟨hset.id, hset.others, hset.done, hset.future⟩
    exact .inl (old (evolves_modify hf hr))
  | receive =>
    rw [requests_dispatchResponse] at hr
    exact .inl (old (unchanged hr))
  | @settle k d hk =>
    obtain ⟨req, hreq, ⟨hri, rfl⟩ | ⟨-, rfl⟩⟩ := Lookup.of_modify hr
    · exact .inl ⟨req, hreq, .inr ⟨k, d, rfl, hk, hri, evolves_settleFuture (· = outcome m d) _ rfl req⟩⟩
    · exact .inl ⟨_, hreq, .inl (evolves_refl NoReply _)⟩
  | cancel => exact .inl (old (evolves_modify evolves_cancelFuture hr))
  | onCancelled => exact .inl (old (evolves_modify called hr))
  | onCancelledEntry =>
    obtain ⟨req, hreq, he⟩ := evolves_modify evolves_cancelFuture hr
    obtain ⟨req₀, hreq₀, he₀⟩ := evolves_modify called hreq
    exact .inl (old ⟨req₀, hreq₀, evolves_trans he₀ he⟩)
  | cleanup =>
    simp only [List.getElem?_mapIdx, Option.map_eq_some_iff] at hr
    obtain ⟨req, hreq, rfl⟩ := hr
    refine .inl (old ⟨req, hreq, ?_⟩)
    split
    · exact evolves_settleFuture NoReply (.rejected transportClosed) rfl req
    · exact evolves_refl NoReply req
  | _ => exact .inl (old (unchanged hr))

/-- Ids are only given back, but for `allocate`. -/
theorem step_tracker (hs : step m l s = some s') :
    (∃ decode reqId, l = .allocate decode ∧
      s.tracker.allocate ⟨s.requests.length, decode⟩ = some (reqId, s'.tracker) ∧
      s'.requests = s.requests ++ [{ id := reqId, others := s.tracker.pending.size }]) ∨
    (s'.tracker.nextId = s.tracker.nextId ∧ s'.requests.length = s.requests.length ∧
      ∀ id entry, s'.tracker.pending.get? id = some entry → s.tracker.pending.get? id = some entry) := by
  cases step_to hs with
  | @allocate decode reqId tracker ha => exact .inl ⟨decode, reqId, rfl, ha, rfl⟩
  | sendFailed =>
    exact .inr ⟨rfl, List.length_modify .., fun id entry h => (OrderedDict.get?_of_get?_erase h).2⟩
  | @receive k reply hk =>
    refine .inr ?_
    rcases dispatchResponse_cases (s := s) reply with h | ⟨idBytes, frames, entry, -, -, -, h⟩
    · rw [h]
      exact ⟨rfl, rfl, fun _ _ h => h⟩
    · rw [h]
      exact ⟨rfl, rfl, fun _ _ h => (OrderedDict.get?_of_get?_erase h).2⟩
  | cleanup => exact .inr ⟨rfl, List.length_mapIdx, fun _ _ h => by cases h⟩
  | onCancelledEntry =>
    refine .inr ⟨rfl, ?_, fun _ _ h => (OrderedDict.get?_of_get?_erase h).2⟩
    exact (List.length_modify ..).trans (List.length_modify ..)
  | enqueue => exact .inr ⟨rfl, List.length_modify .., fun _ _ h => h⟩
  | settle => exact .inr ⟨rfl, List.length_modify .., fun _ _ h => h⟩
  | cancel => exact .inr ⟨rfl, List.length_modify .., fun _ _ h => h⟩
  | onCancelled => exact .inr ⟨rfl, List.length_modify .., fun _ _ h => h⟩
  | _ => exact .inr ⟨rfl, rfl, fun _ _ h => h⟩

end Transport

end VsRemote
