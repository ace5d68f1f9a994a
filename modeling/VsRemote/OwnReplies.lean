import VsRemote.Delivery

/-! No misdelivered response: a future is settled by a reply to its own request. -/

namespace VsRemote

open CyclicAlloc (idAt Grant)

namespace Transport

open ClientRequest (Evolves)

variable {α : Type} {m : Msgspec} {s s' : Transport α} {l : TransportLabel α}

def inUse (s : Transport α) (id : Nat) : Option Nat :=
  (s.tracker.pending.get? id).map PendingEntry.future

structure Ids (s : Transport α) (grants : List Grant) (cursor : Nat) : Prop where
  alloc : CyclicAlloc.Inv idCount s.inUse grants cursor
  next : s.tracker.nextId = idAt idCount cursor
  length : grants.length = s.requests.length
  granted : ∀ (r : Nat) (g : Grant) (req : ClientRequest α), grants[r]? = some g →
    s.requests[r]? = some req → req.id = idAt idCount g.pos ∧ g.busy.length = req.others

/-- The id bytes are those of the request the server answers. -/
def Addressed (s : Transport α) (reply : Reply) : Prop :=
  match reply.request with
  | none => ∃ frames, reply.parts = intToBytes4 0 :: frames
  | some r => ∃ req frames, s.requests[r]? = some req ∧ reply.parts = intToBytes4 req.id :: frames

/-- The reply a future was settled with was sent for that request, and the
future has what `from_frames` makes of its frames. -/
def OwnReplies (m : Msgspec) (s : Transport α) : Prop :=
  ∀ (r : Nat) (req : ClientRequest α) (reply : Reply), s.requests[r]? = some req →
    req.future.reply? = some reply → reply ∈ s.inFlight ∧ reply.request = some r ∧
      ∃ decode, req.future = outcome m ⟨⟨r, decode⟩, reply⟩

structure Inv (m : Msgspec) (s : Transport α) : Prop where
  ids : ∃ grants cursor, Ids s grants cursor
  addressed : ∀ reply ∈ s.inFlight, Addressed s reply
  delivering : ∀ d ∈ s.delivering, d.reply ∈ s.inFlight ∧ d.reply.request = some d.entry.future
  own : OwnReplies m s

/-- A reply arrives before the id of its request can come back: fewer ids were
granted since than there are, less those of the other requests that were
pending at its grant. -/
def InTime (s : Transport α) (l : TransportLabel α) : Prop :=
  ∀ (k : Nat) (reply : Reply) (r : Nat) (req : ClientRequest α), l = .receive k →
    s.inFlight[k]? = some reply → reply.request = some r → s.requests[r]? = some req →
      s.requests.length - (r + 1) < idCount - req.others

theorem inv_init : Inv m ({} : Transport α) := by
  refine ⟨⟨[], 0, CyclicAlloc.inv_init, rfl, rfl, ?_⟩, ?_, ?_, ?_⟩
  · intro r g req hg
    cases hg
  · intro reply hmem
    cases hmem
  · intro d hmem
    cases hmem
  · intro r req reply hr
    cases hr

/-! The requests of a step, seen from before it. -/

theorem request_before {r : Nat} {req' : ClientRequest α} (hs : step m l s = some s')
    (hlt : r < s.requests.length) (hr : s'.requests[r]? = some req') :
    ∃ req, s.requests[r]? = some req ∧ req'.id = req.id ∧ req'.others = req.others ∧
      (req.future.done = true → req'.future = req.future) := by
  rcases step_request hs hr with ⟨req, hreq, he | ⟨_, _, _, _, _, he⟩⟩ | ⟨hlen, _⟩
  · exact ⟨req, hreq, he.id, he.others, he.done⟩
  · exact ⟨req, hreq, he.id, he.others, he.done⟩
  · omega

theorem length_le (hs : step m l s = some s') : s.requests.length ≤ s'.requests.length := by
  rcases step_tracker hs with ⟨_, _, _, _, hreq⟩ | ⟨_, hlen, _⟩
  · rw [hreq, List.length_append]
    exact Nat.le_add_right ..
  · exact hlen.ge

theorem request_after {r : Nat} {req : ClientRequest α} (hs : step m l s = some s')
    (hr : s.requests[r]? = some req) :
    ∃ req', s'.requests[r]? = some req' ∧ req'.id = req.id ∧ req'.others = req.others ∧
      (req.future.done = true → req'.future = req.future) := by
  have hlt := Lookup.lt_length hr
  have hlt' : r < s'.requests.length := lt_of_lt_of_le hlt (length_le hs)
  have hget := List.getElem?_eq_getElem hlt'
  obtain ⟨req₀, hr₀, hsame⟩ := request_before hs hlt hget
  rw [hr] at hr₀
  obtain rfl := Option.some.inj hr₀
  exact ⟨_, hget, hsame⟩

theorem Addressed.step {reply : Reply} (h : Addressed s reply) (hs : step m l s = some s') :
    Addressed s' reply := by
  unfold Addressed at *
  cases hreq : reply.request with
  | none =>
    rw [hreq] at h
    exact h
  | some r =>
    rw [hreq] at h
    obtain ⟨req, frames, hr, hparts⟩ := h
    obtain ⟨req', hr', hid, -⟩ := request_after hs hr
    exact ⟨req', frames, hr', by rw [hid]; exact hparts⟩

/-! One lemma for each part of the invariant. -/

theorem Ids.release {grants : List Grant} {cursor : Nat} (hi : Ids s grants cursor)
    (hs : step m l s = some s') (hnext : s'.tracker.nextId = s.tracker.nextId)
    (hlen : s'.requests.length = s.requests.length)
    (hsub : ∀ id entry, s'.tracker.pending.get? id = some entry → s.tracker.pending.get? id = some entry) :
    Ids s' grants cursor := by
  refine ⟨hi.alloc.release ?_, hnext.trans hi.next, hi.length.trans hlen.symm, ?_⟩
  · intro id r hr
    obtain ⟨entry, hget, heq⟩ := Option.map_eq_some_iff.1 hr
    exact Option.map_eq_some_iff.2 ⟨entry, hsub id entry hget, heq⟩
  · intro r g req' hg hr'
    have hlt : r < s.requests.length := hi.length ▸ Lookup.lt_length hg
    obtain ⟨req, hr, hid, hothers, -⟩ := request_before hs hlt hr'
    have hgr := hi.granted r g req hg hr
    exact ⟨hid.trans hgr.1, hgr.2.trans hothers.symm⟩

theorem Ids.allocate {grants : List Grant} {cursor reqId : Nat} {decode : Bytes → Except PyExc α}
    (hi : Ids s grants cursor)
    (ha : s.tracker.allocate ⟨s.requests.length, decode⟩ = some (reqId, s'.tracker))
    (hreq : s'.requests = s.requests ++ [{ id := reqId, others := s.tracker.pending.size }]) :
    ∃ grants' cursor', Ids s' grants' cursor' := by
  obtain ⟨reqId', hfree, ha⟩ := Option.bind_eq_some_iff.1 ha
  obtain ⟨rfl, htracker⟩ := Prod.mk.inj (Option.some.inj ha)
  rw [hi.next] at hfree
  obtain ⟨q, hq, -, rfl, hnot, hskip⟩ := RequestTracker.firstFree_some hfree
  have hgrant := hi.alloc.grant s.tracker.pending.keys hq ?_ ?_ hnot
  · refine ⟨grants ++ [⟨q, s.tracker.pending.keys⟩], q + 1, ?_, ?_, ?_, ?_⟩
    · have huse : s'.inUse =
          fun id => if id = idAt idCount q then some grants.length else s.inUse id := by
        funext id
        unfold inUse
        rw [← htracker, OrderedDict.get?_set, hi.length]
        by_cases hid : id = idAt idCount q
        · rw [if_pos hid, if_pos hid]
          rfl
        · rw [if_neg hid, if_neg hid]
      rw [huse]
      exact hgrant
    · rw [← htracker]
      exact RequestTracker.nextReqId_idAt q
    · rw [hreq, List.length_append, List.length_append, hi.length]
      rfl
    · intro r g req hg hr
      rw [hreq] at hr
      rcases Lookup.of_append hg with hg | ⟨rfl, rfl⟩
      · rcases Lookup.of_append hr with hr | ⟨rfl, rfl⟩
        · exact hi.granted r g req hg hr
        · have hlt := Lookup.lt_length hg
          rw [hi.length] at hlt
          omega
      · rcases Lookup.of_append hr with hr | ⟨-, rfl⟩
        · have hlt := Lookup.lt_length hr
          rw [hi.length] at hlt
          omega
        · exact ⟨rfl, by simp [OrderedDict.keys, OrderedDict.size]⟩
  · intro t hlo hhi
    obtain ⟨entry, hget⟩ := Option.isSome_iff_exists.1 (OrderedDict.mem_keys_iff.1 (hskip t hlo hhi))
    exact ⟨entry.future, Option.map_eq_some_iff.2 ⟨entry, hget, rfl⟩⟩
  · intro id r hr
    obtain ⟨entry, hget, -⟩ := Option.map_eq_some_iff.1 hr
    exact OrderedDict.mem_keys_of_get? hget

theorem ids_step {grants : List Grant} {cursor : Nat} (hi : Ids s grants cursor)
    (hs : step m l s = some s') : ∃ grants' cursor', Ids s' grants' cursor' := by
  rcases step_tracker hs with ⟨decode, reqId, -, ha, hreq⟩ | ⟨hnext, hlen, hsub⟩
  · exact hi.allocate ha hreq
  · exact ⟨grants, cursor, hi.release hs hnext hlen hsub⟩

theorem step_inFlight {reply : Reply} (hs : step m l s = some s') (hmem : reply ∈ s'.inFlight) :
    reply ∈ s.inFlight ∨ Addressed s reply := by
  have sent : ∀ {new : Reply}, Addressed s new → reply ∈ s.inFlight ++ [new] →
      reply ∈ s.inFlight ∨ Addressed s reply := by
    intro new hnew h
    rcases List.mem_append.1 h with hold | hlast
    · exact .inl hold
    · obtain rfl := List.mem_singleton.1 hlast
      exact .inr hnew
  cases step_to hs with
  | @reply r frames req hr =>
    exact sent (show Addressed s ⟨some r, intToBytes4 req.id :: frames⟩ from ⟨req, frames, hr, rfl⟩) hmem
  | @push frames =>
    exact sent (show Addressed s ⟨none, intToBytes4 0 :: frames⟩ from ⟨frames, rfl⟩) hmem
  | @receive k reply' hk =>
    rcases dispatchResponse_cases (s := s) reply' with h | ⟨_, _, _, _, _, _, h⟩
    · rw [h] at hmem
      exact .inl hmem
    · rw [h] at hmem
      exact .inl hmem
  | _ => exact .inl hmem

theorem inFlight_mono {reply : Reply} (hs : step m l s = some s') (hmem : reply ∈ s.inFlight) :
    reply ∈ s'.inFlight := by
  cases step_to hs with
  | reply => exact List.mem_append_left _ hmem
  | push => exact List.mem_append_left _ hmem
  | @receive k reply' hk =>
    rcases dispatchResponse_cases (s := s) reply' with h | ⟨_, _, _, _, _, _, h⟩
    · rw [h]
      exact hmem
    · rw [h]
      exact hmem
  | _ => exact hmem

theorem step_delivering {d : Delivery α} (hs : step m l s = some s') (hmem : d ∈ s'.delivering) :
    d ∈ s.delivering ∨ ∃ k idBytes frames, l = .receive k ∧ s.inFlight[k]? = some d.reply ∧
      d.reply.parts = idBytes :: frames ∧ intFromBytes idBytes ≠ 0 ∧
      s.tracker.pending.get? (intFromBytes idBytes) = some d.entry := by
  cases step_to hs with
  | @receive k reply hk =>
    rcases dispatchResponse_cases (s := s) reply with h | ⟨idBytes, frames, entry, hparts, hne, hget, h⟩
    · rw [h] at hmem
      exact .inl hmem
    · rw [h] at hmem
      rcases List.mem_append.1 hmem with hold | hlast
      · exact .inl hold
      · obtain rfl := List.mem_singleton.1 hlast
        exact .inr ⟨k, idBytes, frames, rfl, hk, hparts, hne, hget⟩
  | settle => exact .inl (List.mem_of_mem_eraseIdx hmem)
  | _ => exact .inl hmem

theorem taken_own {grants : List Grant} {cursor k : Nat} {reply : Reply} {idBytes : Bytes}
    {frames : List Bytes} {entry : PendingEntry α} (hi : Ids s grants cursor) (hc : InTime s (.receive k))
    (hk : s.inFlight[k]? = some reply) (ha : Addressed s reply) (hparts : reply.parts = idBytes :: frames)
    (hne : intFromBytes idBytes ≠ 0) (hget : s.tracker.pending.get? (intFromBytes idBytes) = some entry) :
    reply.request = some entry.future := by
  unfold Addressed at ha
  cases hreq : reply.request with
  | none =>
    rw [hreq, hparts] at ha
    obtain ⟨_, hcons⟩ := ha
    obtain ⟨rfl, -⟩ := List.cons.inj hcons
    exact absurd (intFromBytes_intToBytes4 (by decide)) hne
  | some r =>
    rw [hreq, hparts] at ha
    obtain ⟨req, _, hr, hcons⟩ := ha
    obtain ⟨rfl, -⟩ := List.cons.inj hcons
    have hlt := Lookup.lt_length hr
    rw [← hi.length] at hlt
    have hg := List.getElem?_eq_getElem hlt
    obtain ⟨hid, hothers⟩ := hi.granted r _ req hg hr
    rw [hid, intFromBytes_intToBytes4 (RequestTracker.idAt_lt _)] at hget
    have hnear := hc k reply r req rfl hk hreq hr
    rw [← hi.length, ← hothers] at hnear
    have hholder : entry.future = r :=
      hi.alloc.holder_eq hg hnear (Option.map_eq_some_iff.2 ⟨entry, hget, rfl⟩)
    rw [hholder]

theorem own_step (hi : Inv m s) (hs : step m l s = some s') : OwnReplies m s' := by
  intro r req' reply hr' hreply
  have old : ∀ {req : ClientRequest α}, s.requests[r]? = some req → req'.future = req.future →
      reply ∈ s'.inFlight ∧ reply.request = some r ∧
        ∃ decode, req'.future = outcome m ⟨⟨r, decode⟩, reply⟩ := by
    intro req hr hsame
    rw [hsame] at hreply
    obtain ⟨hmem, hreq, hout⟩ := hi.own r req reply hr hreply
    rw [hsame]
    exact ⟨inFlight_mono hs hmem, hreq, hout⟩
  have noReply : NoReply req'.future → False := by
    intro hn
    rw [hn] at hreply
    cases hreply
  rcases step_request hs hr' with ⟨req, hr, he | ⟨k, d, rfl, hk, hfut, he⟩⟩ | ⟨-, hn⟩
  · rcases he.future with hsame | hn
    · exact old hr hsame
    · exact (noReply hn).elim
  · rcases he.future with hsame | hnew
    · exact old hr hsame
    · obtain ⟨hmem, hown⟩ := hi.delivering d (List.mem_of_getElem? hk)
      rw [hnew, reply?_outcome] at hreply
      obtain rfl := Option.some.inj hreply
      refine ⟨inFlight_mono hs hmem, hown.trans (congrArg some hfut), d.entry.decode, ?_⟩
      rw [hnew]
      obtain ⟨⟨future, decode⟩, reply⟩ := d
      subst hfut
      rfl
  · exact (noReply hn).elim

theorem inv_step (hi : Inv m s) (hc : InTime s l) (hs : step m l s = some s') : Inv m s' := by
  obtain ⟨grants, cursor, hids⟩ := hi.ids
  refine ⟨ids_step hids hs, ?_, ?_, own_step hi hs⟩
  · intro reply hmem
    rcases step_inFlight hs hmem with hold | hnew
    · exact (hi.addressed reply hold).step hs
    · exact hnew.step hs
  · intro d hmem
    rcases step_delivering hs hmem with hold | ⟨k, idBytes, frames, rfl, hk, hparts, hne, hget⟩
    · obtain ⟨hsent, hown⟩ := hi.delivering d hold
      exact ⟨inFlight_mono hs hsent, hown⟩
    · have hsent := List.mem_of_getElem? hk
      exact ⟨inFlight_mono hs hsent, taken_own hids hc hk (hi.addressed _ hsent) hparts hne hget⟩

/-- A reply that comes too late for its request changes no future. -/
structure StaleIgnored (m : Msgspec) (s : Transport α) : Prop where
  /-- An arrival alone settles nothing. -/
  arrival : ∀ (k : Nat) (s' : Transport α), step m (.receive k) s = some s' → s'.requests = s.requests
  /-- No entry waits for the request, if any, that the reply answers. -/
  unknown : ∀ (k : Nat) (reply : Reply) (s' : Transport α), s.inFlight[k]? = some reply →
    InTime s (.receive k) →
    (∀ id entry, s.tracker.pending.get? id = some entry → reply.request ≠ some entry.future) →
    step m (.receive k) s = some s' → s' = s
  /-- The request was cancelled or answered after the arrival, or before it. -/
  settled : ∀ (k : Nat) (d : Delivery α) (r : Nat) (req : ClientRequest α) (s' : Transport α),
    s.delivering[k]? = some d → d.reply.request = some r → s.requests[r]? = some req →
    req.future.done = true → step m (.settle k) s = some s' → s'.requests = s.requests
  kept : ∀ (l : TransportLabel α) (r : Nat) (req : ClientRequest α) (s' : Transport α),
    s.requests[r]? = some req → req.future.done = true → step m l s = some s' →
    ∃ req', s'.requests[r]? = some req' ∧ req'.future = req.future

theorem settleFuture_of_done {state : FutureState α} {req : ClientRequest α}
    (h : req.future.done = true) : settleFuture state req = req := by
  unfold settleFuture
  rw [if_pos h]

theorem stale_ignored (hi : Inv m s) : StaleIgnored m s := by
  refine ⟨?_, ?_, ?_, ?_⟩
  · intro k s' hs
    cases step_to hs with
    | receive hk => exact requests_dispatchResponse _
  · intro k reply s' hk hc hno hs
    cases step_to hs with
    | @receive _ reply' hk' =>
      rw [hk] at hk'
      obtain rfl := Option.some.inj hk'
      rcases dispatchResponse_cases (s := s) reply with h | ⟨_, _, entry, hparts, hne, hget, -⟩
      · exact h
      · obtain ⟨grants, cursor, hids⟩ := hi.ids
        have hown := taken_own hids hc hk (hi.addressed _ (List.mem_of_getElem? hk)) hparts hne hget
        exact absurd hown (hno _ entry hget)
  · intro k d r req s' hk hreq hr hdone hs
    cases step_to hs with
    | @settle _ d' hk' =>
      rw [hk] at hk'
      obtain rfl := Option.some.inj hk'
      obtain ⟨-, hown⟩ := hi.delivering d (List.mem_of_getElem? hk)
      rw [hreq] at hown
      obtain rfl := Option.some.inj hown
      exact Lookup.modify_eq_self hr (settleFuture_of_done hdone)
  · intro l r req s' hr hdone hs
    obtain ⟨req', hr', -, -, hsame⟩ := request_after hs hr
    exact ⟨req', hr', hsame hdone⟩

/-- In every run in which replies arrive in time. -/
theorem no_misdelivered_response (m : Msgspec) (ls : List (TransportLabel α))
    (hg : Runs.Guarded (step m) InTime ls {}) :
    Runs.Always (step m) (fun s => OwnReplies m s ∧ StaleIgnored m s) ls {} := by
  have hinv : Runs.Always (step m) (Inv m) ls {} :=
    hg.always (fun s l t hi hc hs => inv_step hi hc hs) inv_init
  exact hinv.mono (fun s hi => ⟨hi.own, stale_ignored hi⟩)

/-! A run of fewer steps than there are ids cannot come round to one again. -/

structure Counted (s : Transport α) : Prop where
  size : s.tracker.pending.size ≤ s.requests.length
  others : ∀ (r : Nat) (req : ClientRequest α), s.requests[r]? = some req → req.others ≤ r

theorem counted_step (hi : Counted s) (hs : step m l s = some s') :
    Counted s' ∧ s'.requests.length ≤ s.requests.length + 1 := by
  rcases step_tracker hs with ⟨decode, reqId, -, ha, hreq⟩ | ⟨-, hlen, hsub⟩
  · have hlen : s'.requests.length = s.requests.length + 1 := by rw [hreq, List.length_append]; rfl
    refine ⟨⟨?_, ?_⟩, hlen.le⟩
    · obtain ⟨id, hfree, ha⟩ := Option.bind_eq_some_iff.1 ha
      obtain ⟨-, htracker⟩ := Prod.mk.inj (Option.some.inj ha)
      rw [← htracker, hlen]
      exact (OrderedDict.size_set_le _ _ _).trans (Nat.succ_le_succ hi.size)
    · intro r req hr
      rw [hreq] at hr
      rcases Lookup.of_append hr with hr | ⟨rfl, rfl⟩
      · exact hi.others r req hr
      · exact hi.size
  · refine ⟨⟨?_, ?_⟩, by omega⟩
    · have hle := OrderedDict.size_le_of_get? hsub
      have hsize := hi.size
      omega
    · intro r req' hr'
      have hlt := Lookup.lt_length hr'
      obtain ⟨req, hr, -, hothers, -⟩ := request_before hs (by omega) hr'
      rw [hothers]
      exact hi.others r req hr

theorem guarded_of_short {ls : List (TransportLabel α)} (hi : Counted s)
    (hshort : s.requests.length + ls.length < idCount) : Runs.Guarded (step m) InTime ls s := by
  induction ls generalizing s with
  | nil => trivial
  | cons l ls ih =>
    rw [List.length_cons] at hshort
    refine ⟨?_, fun s' hs => ?_⟩
    · intro k reply r req _ _ _ hr
      have hothers := hi.others r req hr
      have hlt := Lookup.lt_length hr
      omega
    · obtain ⟨hi', hlen⟩ := counted_step hi hs
      exact ih hi' (by omega)

theorem counted_init : Counted ({} : Transport α) :=
  ⟨Nat.le_refl 0, fun _ _ hr => by cases hr⟩

/-- The second request is answered first; the first one is cancelled, then both
replies arrive, the second one again. -/
def lateReplies : List (TransportLabel Bytes) :=
  [.start, .call, .call, .allocate .ok, .allocate .ok, .enqueue 0, .enqueue 1,
    .reply 0 [[0], [7]], .reply 1 [[0], [8]], .receive 1, .settle 0, .cancel 0, .onCancelled 0,
    .receive 0, .receive 1]

def noCodec : Msgspec := .table [] []

theorem late_replies_ignored :
    Runs.Always (step noCodec) (fun s => OwnReplies noCodec s ∧ StaleIgnored noCodec s) lateReplies {} ∧
      (Runs.run (step noCodec) lateReplies {}).map (fun s => s.requests.map (fun req =>
        (req.id, req.future.reply?.map Reply.parts))) =
        some [(1, none), (2, some [[0, 0, 0, 2], [0], [8]])] :=
  ⟨no_misdelivered_response noCodec lateReplies (guarded_of_short counted_init (by decide)),
    by decide +kernel⟩

end Transport

end VsRemote
