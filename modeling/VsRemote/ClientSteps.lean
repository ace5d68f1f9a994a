import VsRemote.ClientThreads
import VsRemote.Lib.Lookup

/-! What a step can do: to the requests, and to the life of the workers. -/

namespace VsRemote

theorem RequestFuture.outcome_offer {α : Type} (o : RequestOutcome α) (fut : RequestFuture α) :
    (fut.offer o).outcome.isSome = true := by
  unfold RequestFuture.offer
  split
  · next x hx => simp [hx]
  · rfl

namespace Requests

variable {α : Type} {b b' : Requests α} {f reqId : Nat}

theorem addDoneCallback_eq (b : Requests α) (f reqId : Nat) : ∃ callbacks, b.addDoneCallback f reqId =
    { b with
      futures := b.futures.modify f (fun fut => { fut with callback := some reqId })
      callbacks := callbacks } := by
  unfold addDoneCallback
  split
  · exact ⟨_, rfl⟩
  · exact ⟨_, rfl⟩

theorem cancelFuture_eq (b : Requests α) (f : Nat) :
    ∃ callbacks, b.cancelFuture f = { b.offer f .cancelled with callbacks := callbacks } := by
  unfold cancelFuture
  split
  · exact ⟨_, rfl⟩
  · exact ⟨_, rfl⟩

theorem resolve_cases (m : Msgspec) (b : Requests α) (reqId : Nat) (frames : List Bytes) : b.resolve m reqId frames = b ∨
    ∃ entry o, b.tracker.pending.get? reqId = some entry ∧
      b.resolve m reqId frames = (b.pop reqId).offer entry.future o := by
  unfold resolve
  cases he : b.tracker.pending.get? reqId with
  | none => exact .inl rfl
  | some entry => exact .inr ⟨entry, _, rfl, rfl⟩

theorem allocate_some {decode : Bytes → Except PyExc α} {b' : Requests α}
    (h : b.allocate decode = some (reqId, b')) : b.tracker.pending.get? reqId = none ∧
      b'.tracker.pending = b.tracker.pending.set reqId ⟨b.futures.length, decode⟩ ∧
      b'.futures = b.futures ++ [({} : RequestFuture α)] ∧ b'.calls = b.calls := by
  obtain ⟨⟨reqId', tracker⟩, ha, h⟩ := Option.bind_eq_some_iff.1 h
  obtain ⟨free, hfree, ha⟩ := Option.bind_eq_some_iff.1 ha
  cases h
  cases ha
  exact ⟨RequestTracker.firstFree_get? hfree, rfl, rfl, rfl⟩

theorem mem_setCall {i : Nat} {pc : CallPc} {c : RequestCall α} (h : c ∈ (b.setCall i pc).calls) :
    c ∈ b.calls ∨ c.pc = pc := by
  obtain ⟨j, hj⟩ := List.mem_iff_getElem?.1 h
  obtain ⟨c₀, h₀, ⟨-, rfl⟩ | ⟨-, rfl⟩⟩ := Lookup.of_modify hj
  · exact .inr rfl
  · exact .inl (List.mem_of_getElem? h₀)

/-- Futures are only added, only offered more, and keep the outcome they have. -/
def Grows (b b' : Requests α) : Prop :=
  ∀ (f : Nat) (fut : RequestFuture α), b.futures[f]? = some fut → ∃ fut' : RequestFuture α, b'.futures[f]? = some fut' ∧
    (∀ o, fut.outcome = some o → fut'.outcome = some o) ∧ fut.offered ⊆ fut'.offered

theorem Grows.refl (b : Requests α) : b.Grows b := fun _ fut hf => ⟨fut, hf, fun _ h => h, List.Subset.refl _⟩

theorem grows_modify {F : RequestFuture α → RequestFuture α} (hb : b'.futures = b.futures.modify f F)
    (hF : ∀ fut, (∀ o, fut.outcome = some o → (F fut).outcome = some o) ∧ fut.offered ⊆ (F fut).offered) :
    b.Grows b' := by
  intro j fut hj
  by_cases hfj : f = j
  · subst hfj
    exact ⟨F fut, by simp [hb, hj], hF fut⟩
  · exact ⟨fut, by simp [hb, hfj, hj], fun _ h => h, List.Subset.refl _⟩

theorem offer_grows (o : RequestOutcome α) (fut : RequestFuture α) :
    (∀ o', fut.outcome = some o' → (fut.offer o).outcome = some o') ∧ fut.offered ⊆ (fut.offer o).offered := by
  unfold RequestFuture.offer
  split
  · next hx => exact ⟨fun _ h => h, List.subset_append_left ..⟩
  · next hx => exact ⟨fun _ h => absurd (hx.symm.trans h) nofun, List.subset_append_left ..⟩

theorem grows_close (b : Requests α) : b.Grows b.close := by
  intro f fut hf
  have hget : b.close.futures[f]? = (b.futures[f]?).map (fun fut =>
      if b.tracker.pending.values.any (fun entry => entry.future = f) then
        fut.offer (.rejected Transport.transportClosed)
      else fut) := List.getElem?_mapIdx
  rw [hf, Option.map_some] at hget
  refine ⟨_, hget, ?_⟩
  split
  · exact offer_grows _ fut
  · exact ⟨fun _ h => h, List.Subset.refl _⟩

theorem Grows.length (h : b.Grows b') : f < b.futures.length → f < b'.futures.length := by
  intro hlt
  obtain ⟨fut', hf', -⟩ := h f _ (List.getElem?_eq_getElem hlt)
  exact Lookup.lt_length hf'

end Requests

namespace ThreadedClient

variable {α : Type} {m : Msgspec} {s t : ThreadedClient α} {l : ThreadLabel α}

/-- A step of `send_request` that only reads attributes, or encodes. -/
inductive Moves (s : ThreadedClient α) (encodes : Bool) : CallPc → CallPc → Prop
  | closed (h : s.attrs.closed = false) : Moves s encodes .closed .started
  | started (h : s.attrs.started = true) : Moves s encodes .started .running
  | running (h : s.attrs.running = true) : Moves s encodes .running .allocate
  | isClosed (h : s.attrs.closed = true) : Moves s encodes .closed (.rejected Transport.transportClosed)
  | isNotStarted (h : s.attrs.started = false) : Moves s encodes .started (.rejected notStarted)
  | isNotRunning (h : s.attrs.running = false) : Moves s encodes .running (.rejected notConnected)
  | encoded {reqId f : Nat} (he : encodes = true) : Moves s encodes (.encode reqId f) (.send .closed reqId f)
  | next {pc pc' : SendPc} {reqId f : Nat} (h : s.sendMessage encodes pc = .next pc') :
      Moves s encodes (.send pc reqId f) (.send pc' reqId f)
  | fails {pc : SendPc} {reqId f : Nat} {e : PyExc} (h : s.sendMessage encodes pc = .fails e) :
      Moves s encodes (.send pc reqId f) (.pop e reqId f)
  | handedOver {g q reqId f : Nat} (h : s.loopClosed g = false) :
      Moves s encodes (.send (.handOver g q) reqId f) (.sent f (s.cleanedUp g))
  | unencoded {reqId f : Nat} (he : encodes = false) : Moves s encodes (.encode reqId f) .raised
  | raises {pc : SendPc} {reqId f : Nat} (h : s.sendMessage encodes pc = .raises) :
      Moves s encodes (.send pc reqId f) .raised

theorem handsOver_spec {encodes : Bool} {pc : SendPc} {g q : Nat} (h : s.sendMessage encodes pc = .handsOver g q) :
    pc = .handOver g q ∧ s.loopClosed g = false := by
  cases pc with
  | handOver g' q' =>
    simp only [sendMessage] at h
    split at h
    · cases h
    · next hopen =>
      cases h
      exact ⟨rfl, Bool.eq_false_iff.2 hopen⟩
  | _ =>
    simp only [sendMessage] at h
    split at h <;> cases h

inductive RequestsTo (m : Msgspec) (s : ThreadedClient α) : ThreadLabel α → Requests α → Prop
  | same {l : ThreadLabel α} : RequestsTo m s l s.requests
  | addCall {l : ThreadLabel α} {decode : Bytes → Except PyExc α} : RequestsTo m s l (s.requests.addCall decode)
  | moves {i : Nat} {encodes : Bool} {c : RequestCall α} {pc : CallPc} (hi : s.requests.calls[i]? = some c)
      (hm : s.Moves encodes c.pc pc) : RequestsTo m s (.call i encodes) (s.requests.setCall i pc)
  | allocate {i reqId : Nat} {encodes : Bool} {c : RequestCall α} {b : Requests α}
      (hi : s.requests.calls[i]? = some c) (hpc : c.pc = .allocate)
      (ha : s.requests.allocate c.decode = some (reqId, b)) :
      RequestsTo m s (.call i encodes) (b.setCall i (.addCallback reqId s.requests.futures.length))
  | addCallback {i reqId f : Nat} {encodes : Bool} {c : RequestCall α} (hi : s.requests.calls[i]? = some c)
      (hpc : c.pc = .addCallback reqId f) :
      RequestsTo m s (.call i encodes) ((s.requests.addDoneCallback f reqId).setCall i (.encode reqId f))
  | pop {i reqId f : Nat} {encodes : Bool} {e : PyExc} {c : RequestCall α} (hi : s.requests.calls[i]? = some c)
      (hpc : c.pc = .pop e reqId f) :
      RequestsTo m s (.call i encodes) ((s.requests.pop reqId).setCall i (.setException e f))
  | setException {i f : Nat} {encodes : Bool} {e : PyExc} {c : RequestCall α} (hi : s.requests.calls[i]? = some c)
      (hpc : c.pc = .setException e f) :
      RequestsTo m s (.call i encodes) ((s.requests.offer f (.rejected e)).setCall i (.unsent e f))
  | cancel {f : Nat} : RequestsTo m s (.cancel f) (s.requests.cancelFuture f)
  | setCallback {k : Nat} {encodes : Bool} {pc : CallbackPc} :
      RequestsTo m s (.callback k encodes) (s.requests.setCallback k pc)
  | cancelRequest {k reqId : Nat} {encodes : Bool} {entry : PendingEntry α}
      (he : s.requests.tracker.pending.get? reqId = some entry) :
      RequestsTo m s (.callback k encodes)
        (((s.requests.pop reqId).cancelFuture entry.future).setCallback k .running)
  | resolve {g reqId : Nat} {parts frames : List Bytes} :
      RequestsTo m s (.receive g parts) (s.requests.resolve m reqId frames)
  | close {l : ThreadLabel α} : RequestsTo m s l s.requests.close

theorem stepCall_to {i : Nat} {encodes : Bool} (hs : stepCall i encodes s = some t) :
    RequestsTo m s (.call i encodes) t.requests := by
  obtain ⟨⟨decode, pc⟩, hi, hs⟩ := Option.bind_eq_some_iff.1 hs
  have moves : ∀ {pc'}, s.Moves encodes pc pc' → t.requests = s.requests.setCall i pc' →
      RequestsTo m s (.call i encodes) t.requests := fun hm ht => ht ▸ .moves hi hm
  cases pc with
  | closed =>
    obtain rfl := Option.some.inj hs
    by_cases hc : s.attrs.closed = true
    · exact moves (.isClosed hc) (by rw [if_pos hc]; rfl)
    · exact moves (.closed (Bool.eq_false_iff.2 hc)) (by rw [if_neg hc]; rfl)
  | started =>
    obtain rfl := Option.some.inj hs
    by_cases hc : s.attrs.started = true
    · exact moves (.started hc) (by rw [if_pos hc]; rfl)
    · exact moves (.isNotStarted (Bool.eq_false_iff.2 hc)) (by rw [if_neg hc]; rfl)
  | running =>
    obtain rfl := Option.some.inj hs
    by_cases hc : s.attrs.running = true
    · exact moves (.running hc) (by rw [if_pos hc]; rfl)
    · exact moves (.isNotRunning (Bool.eq_false_iff.2 hc)) (by rw [if_neg hc]; rfl)
  | allocate =>
    obtain ⟨⟨reqId, b⟩, ha, hs⟩ := Option.bind_eq_some_iff.1 hs
    exact Option.some.inj hs ▸ .allocate hi rfl ha
  | addCallback reqId f => exact Option.some.inj hs ▸ .addCallback hi rfl
  | encode reqId f =>
    obtain rfl := Option.some.inj hs
    cases encodes with
    | true => exact moves (.encoded rfl) rfl
    | false => exact moves (.unencoded rfl) rfl
  | send pc reqId f =>
    simp only at hs
    cases hsend : s.sendMessage encodes pc with
    | next pc' =>
      simp only [hsend] at hs
      exact moves (.next hsend) (Option.some.inj hs ▸ rfl)
    | fails e =>
      simp only [hsend] at hs
      exact moves (.fails hsend) (Option.some.inj hs ▸ rfl)
    | raises =>
      simp only [hsend] at hs
      exact moves (.raises hsend) (Option.some.inj hs ▸ rfl)
    | handsOver g q =>
      simp only [hsend] at hs
      obtain rfl := Option.some.inj hs
      obtain ⟨rfl, hopen⟩ := handsOver_spec hsend
      exact moves (.handedOver hopen) rfl
  | pop e reqId f => exact Option.some.inj hs ▸ .pop hi rfl
  | setException e f => exact Option.some.inj hs ▸ .setException hi rfl
  | rejected e => cases hs
  | sent f late => cases hs
  | unsent e f => cases hs
  | raised => cases hs

theorem stepCallback_to {k : Nat} {encodes : Bool} (hs : stepCallback k encodes s = some t) :
    RequestsTo m s (.callback k encodes) t.requests := by
  obtain ⟨⟨reqId, pc⟩, hk, hs⟩ := Option.bind_eq_some_iff.1 hs
  cases pc with
  | cancel =>
    simp only at hs
    cases he : s.requests.tracker.pending.get? reqId with
    | none =>
      simp only [he] at hs
      exact Option.some.inj hs ▸ .setCallback
    | some entry =>
      simp only [he] at hs
      exact Option.some.inj hs ▸ .cancelRequest he
  | running => exact Option.some.inj hs ▸ .setCallback
  | loop => exact Option.some.inj hs ▸ .setCallback
  | sendQueue => exact Option.some.inj hs ▸ .setCallback
  | send pc =>
    simp only at hs
    split at hs <;> exact Option.some.inj hs ▸ .setCallback
  | done => cases hs

theorem whileServing_some {g : Nat} {f : Worker → Option (ThreadedClient α)} (hs : whileServing g s f = some t) :
    ∃ w, s.workers[g]? = some w ∧ w.pc = .serving ∧ f w = some t := by
  obtain ⟨w, hw, hs⟩ := Option.bind_eq_some_iff.1 hs
  split at hs
  · next hpc => exact ⟨w, hw, hpc, hs⟩
  · cases hs

theorem whileServing_eq {g : Nat} {w : Worker} {f : Worker → Option (ThreadedClient α)} (hw : s.workers[g]? = some w)
    (hpc : w.pc = .serving) : whileServing g s f = f w := by
  simp only [whileServing, hw, Option.bind_eq_bind, Option.bind_some, if_pos hpc]

theorem stepAcquire_requests {pc : LockedPc} (hs : stepAcquire pc s = some t) : t.requests = s.requests := by
  simp only [stepAcquire] at hs
  split at hs
  · exact Option.some.inj hs ▸ rfl
  · cases hs

theorem stepLocked_requests (hs : stepLocked s = some t) :
    t.requests = s.requests ∨ t.requests = s.requests.close := by
  unfold stepLocked at hs
  split at hs
  all_goals try split at hs
  all_goals cases hs
  all_goals first | exact .inl rfl | exact .inr rfl

theorem stepWorker_requests {g : Nat} (hs : stepWorker g s = some t) :
    t.requests = s.requests ∨ t.requests = s.requests.close := by
  obtain ⟨w, hw, hs⟩ := Option.bind_eq_some_iff.1 hs
  split at hs
  all_goals try split at hs
  all_goals cases hs
  all_goals first | exact .inl rfl | exact .inr rfl

theorem stepSendLoop_requests {g : Nat} (hs : stepSendLoop g s = some t) : t.requests = s.requests := by
  obtain ⟨w, hw, hpc, hs⟩ := whileServing_some hs
  simp only at hs
  split at hs
  · split at hs <;> cases hs <;> rfl
  · split at hs <;> cases hs
    rfl
  · cases hs
    rfl
  · cases hs

/-- Only the operations of the tracker, the calls and the callbacks change the requests. -/
theorem step_requests (hs : step m l s = some t) : RequestsTo m s l t.requests := by
  cases l with
  | request decode => exact Option.some.inj hs ▸ .addCall
  | call i encodes => exact stepCall_to hs
  | cancel f =>
    simp only [step, stepCancel] at hs
    split at hs
    · exact Option.some.inj hs ▸ .cancel
    · cases hs
  | callback k encodes => exact stepCallback_to hs
  | start => exact stepAcquire_requests hs ▸ .same
  | close => exact stepAcquire_requests hs ▸ .same
  | locked => exact (stepLocked_requests hs).elim (fun h => h ▸ .same) (fun h => h ▸ .close)
  | timeout =>
    simp only [step, stepTimeout] at hs
    split at hs
    · split at hs
      · exact Option.some.inj hs ▸ .same
      · cases hs
    · cases hs
  | subscribe decode =>
    simp only [step, stepSubscribe] at hs
    split at hs
    · exact Option.some.inj hs ▸ .addCall
    · cases hs
  | worker g => exact (stepWorker_requests hs).elim (fun h => h ▸ .same) (fun h => h ▸ .close)
  | workerFails g =>
    obtain ⟨w, hw, hs⟩ := Option.bind_eq_some_iff.1 hs
    simp only at hs
    split at hs
    · exact Option.some.inj hs ▸ .same
    · exact Option.some.inj hs ▸ .same
    · cases hs
  | aborted g =>
    obtain ⟨w, hw, hpc, hs⟩ := whileServing_some hs
    exact Option.some.inj hs ▸ .same
  | runReady g =>
    obtain ⟨w, hw, hpc, hs⟩ := whileServing_some hs
    split at hs
    · cases hs
    · exact Option.some.inj hs ▸ .same
  | sendLoop g => exact stepSendLoop_requests hs ▸ .same
  | sendRaises g =>
    obtain ⟨w, hw, hpc, hs⟩ := whileServing_some hs
    split at hs
    · exact Option.some.inj hs ▸ .same
    · cases hs
  | receive g parts =>
    obtain ⟨w, hw, hpc, hs⟩ := whileServing_some hs
    split at hs
    · split at hs
      · exact Option.some.inj hs ▸ .same
      · split at hs
        · exact Option.some.inj hs ▸ .resolve
        · exact Option.some.inj hs ▸ .same
    · cases hs
  | receiveEnds g =>
    obtain ⟨w, hw, hpc, hs⟩ := whileServing_some hs
    split at hs
    · exact Option.some.inj hs ▸ .same
    · cases hs

open Requests in
/-- A settled future keeps its outcome in every step. -/
theorem step_grows (hs : step m l s = some t) : s.requests.Grows t.requests := by
  have hto := step_requests hs
  generalize t.requests = b at hto
  cases hto with
  | allocate hi hpc ha =>
    intro f fut hf
    refine ⟨fut, ?_, fun _ h => h, List.Subset.refl _⟩
    have hfutures := (allocate_some ha).2.2.1
    simp only [Requests.setCall, hfutures]
    exact Lookup.append_left hf
  | @addCallback i reqId f encodes c hi hpc =>
    obtain ⟨callbacks, heq⟩ := addDoneCallback_eq s.requests f reqId
    rw [heq]
    exact grows_modify rfl (fun fut => ⟨fun _ h => h, List.Subset.refl _⟩)
  | setException hi hpc => exact grows_modify rfl (offer_grows _)
  | @cancel f =>
    obtain ⟨callbacks, heq⟩ := cancelFuture_eq s.requests f
    rw [heq]
    exact grows_modify rfl (offer_grows _)
  | @cancelRequest k reqId encodes entry he =>
    obtain ⟨callbacks, heq⟩ := cancelFuture_eq (s.requests.pop reqId) entry.future
    rw [heq]
    exact grows_modify rfl (offer_grows _)
  | @resolve g reqId parts frames =>
    rcases resolve_cases m s.requests reqId frames with heq | ⟨entry, o, he, heq⟩
    · exact heq.symm ▸ Grows.refl _
    · exact heq.symm ▸ grows_modify rfl (offer_grows _)
  | close => exact grows_close _
  | _ => exact Grows.refl s.requests

/-- What a step of `send_request` does to the call that takes it. -/
inductive CallTo (s : ThreadedClient α) (encodes : Bool) (b : Requests α) : CallPc → CallPc → Prop
  | moves {pc pc' : CallPc} (hm : s.Moves encodes pc pc') : CallTo s encodes b pc pc'
  | allocate {reqId : Nat} (hlt : s.requests.futures.length < b.futures.length) :
      CallTo s encodes b .allocate (.addCallback reqId s.requests.futures.length)
  | addCallback {reqId f : Nat} : CallTo s encodes b (.addCallback reqId f) (.encode reqId f)
  | pop {e : PyExc} {reqId f : Nat} : CallTo s encodes b (.pop e reqId f) (.setException e f)
  | setException {e : PyExc} {f : Nat} (hb : b.futures = (s.requests.offer f (.rejected e)).futures) :
      CallTo s encodes b (.setException e f) (.unsent e f)

open Requests in
/-- A call after a step was there before, is new, or took the step. -/
theorem step_call (hs : step m l s = some t) {c : RequestCall α} (hc : c ∈ t.requests.calls) :
    c ∈ s.requests.calls ∨ c.pc = .closed ∨ ∃ i encodes c₀, l = .call i encodes ∧
      s.requests.calls[i]? = some c₀ ∧ CallTo s encodes t.requests c₀.pc c.pc := by
  have hto := step_requests hs
  generalize t.requests = b at hto hc
  have moved : ∀ {b₀ : Requests α} {i : Nat} {encodes : Bool} {pc : CallPc} {c₀ : RequestCall α},
      b = b₀.setCall i pc → b₀.calls = s.requests.calls → l = .call i encodes →
      s.requests.calls[i]? = some c₀ → CallTo s encodes b c₀.pc pc →
      c ∈ s.requests.calls ∨ c.pc = .closed ∨ ∃ i encodes c₀, l = .call i encodes ∧
        s.requests.calls[i]? = some c₀ ∧ CallTo s encodes b c₀.pc c.pc := by
    intro b₀ i encodes pc c₀ hb hcalls hl hi hcall
    rw [hb] at hc
    rcases mem_setCall hc with hmem | rfl
    · exact .inl (hcalls ▸ hmem)
    · exact .inr (.inr ⟨i, encodes, c₀, hl, hi, hcall⟩)
  cases hto with
  | same => exact .inl hc
  | addCall =>
    rcases List.mem_append.1 hc with hmem | hmem
    · exact .inl hmem
    · exact .inr (.inl (List.mem_singleton.1 hmem ▸ rfl))
  | moves hi hm => exact moved rfl rfl rfl hi (.moves hm)
  | @allocate i reqId encodes c₀ b₀ hi hpc ha =>
    obtain ⟨-, -, hfutures, hcalls⟩ := allocate_some ha
    refine moved rfl hcalls rfl hi (hpc ▸ .allocate ?_)
    change s.requests.futures.length < b₀.futures.length
    rw [hfutures, List.length_append]
    exact Nat.lt_succ_self _
  | @addCallback i reqId f encodes c₀ hi hpc =>
    obtain ⟨callbacks, heq⟩ := addDoneCallback_eq s.requests f reqId
    exact moved rfl (by rw [heq]) rfl hi (hpc ▸ .addCallback)
  | pop hi hpc => exact moved rfl rfl rfl hi (hpc ▸ .pop)
  | setException hi hpc => exact moved rfl rfl rfl hi (hpc ▸ .setException rfl)
  | @cancel f =>
    obtain ⟨callbacks, heq⟩ := cancelFuture_eq s.requests f
    exact .inl (by rwa [heq] at hc)
  | setCallback => exact .inl hc
  | @cancelRequest k reqId encodes entry he =>
    obtain ⟨callbacks, heq⟩ := cancelFuture_eq (s.requests.pop reqId) entry.future
    exact .inl (by rwa [heq] at hc)
  | @resolve g reqId parts frames =>
    rcases resolve_cases m s.requests reqId frames with heq | ⟨entry, o, he, heq⟩
    · exact .inl (by rwa [heq] at hc)
    · exact .inl (by rwa [heq] at hc)
  | close => exact .inl hc

end ThreadedClient

/-- A worker without its messages. -/
structure WorkerLife where
  pc : WorkerPc
  startup : StartupState
  receiving : Bool

def Worker.life (w : Worker) : WorkerLife := ⟨w.pc, w.startup, w.receiving⟩

/-- What `start()`, `close()` and the workers read and write beside the requests. -/
structure ClientCore where
  attrs : Attributes
  locked : Option LockedPc
  trackerClosed : Bool
  dropped : List Nat
  workers : List WorkerLife

def ThreadedClient.core {α : Type} (s : ThreadedClient α) : ClientCore :=
  ⟨s.attrs, s.locked, s.trackerClosed, s.dropped, s.workers.map Worker.life⟩

/-- The rest of a `close()` that has set `_closed`. -/
def LockedPc.closing : LockedPc → Bool
  | .closeRunning | .closeStarted | .closeStartup | .closeTracker | .closeThread => true
  | _ => false

namespace ClientCore

/-- Steps of `start()` and `close()` that change nothing else. -/
inductive Goes (c : ClientCore) : Option LockedPc → Prop
  | acquire {pc : LockedPc} (h : c.locked = none) (hpc : pc = .startClosed ∨ pc = .closeClosed) : Goes c (some pc)
  | isClosed (h : c.locked = some .startClosed ∨ c.locked = some .closeClosed) (hc : c.attrs.closed = true) :
      Goes c none
  | startClosed (h : c.locked = some .startClosed) : Goes c (some .startStarted)
  | isStarted (h : c.locked = some .startStarted) (hc : c.attrs.started = true) : Goes c (some .startRunning)
  | notStarted (h : c.locked = some .startStarted) (hc : c.attrs.started = false) : Goes c (some .startThread)
  | isRunning (h : c.locked = some .startRunning) : Goes c none
  | notRunning (h : c.locked = some .startRunning) (hc : c.attrs.running = false) : Goes c (some .startThread)
  | startup {g : Nat} {w : WorkerLife} (h : c.locked = some (.startResult g)) (hg : c.workers[g]? = some w)
      (hw : w.startup = .done) : Goes c (some .setStarted)
  | noStartup {g : Nat} (h : c.locked = some (.startResult g)) : Goes c (some .closeClosed)
  | subscribe {i : Nat} (h : c.locked = some .subscribe) : Goes c (some (.subscribing i))
  | subscribed {i : Nat} (h : c.locked = some (.subscribing i)) : Goes c none

/-- A step of a worker, with what it writes. -/
inductive WorkerTo (g : Nat) (a : Attributes) (w : WorkerLife) : Attributes → WorkerLife → Prop
  | setLoop (h : w.pc = .setLoop) : WorkerTo g a w { a with loop := some g } { w with pc := .setQueue }
  | setQueue (h : w.pc = .setQueue) : WorkerTo g a w { a with sendQueue := some g } { w with pc := .createSocket }
  | createSocket (h : w.pc = .createSocket) : WorkerTo g a w { a with socket := some g } { w with pc := .checkStartup }
  | checkStartup (h : w.pc = .checkStartup) (hw : w.startup = .pending) : WorkerTo g a w a { w with pc := .setRunning }
  | noStartup (h : w.pc = .checkStartup) (hw : w.startup ≠ .pending) : WorkerTo g a w a { w with pc := .cleanupTracker }
  | setRunning (h : w.pc = .setRunning) : WorkerTo g a w { a with running := true } { w with pc := .startupResult }
  | startupResult (h : w.pc = .startupResult) :
      WorkerTo g a w a { w with pc := .serving, startup := if w.startup = .pending then .done else w.startup }
  | serving (h : w.pc = .serving) (hr : w.receiving = false) : WorkerTo g a w a { w with pc := .cleanupTracker }
  | cleanupTracker (h : w.pc = .cleanupTracker) : WorkerTo g a w a { w with pc := .cleanupSocket }
  | cleanupSocket (h : w.pc = .cleanupSocket) : WorkerTo g a w { a with socket := none } { w with pc := .closeLoop }
  | closeLoop (h : w.pc = .closeLoop) : WorkerTo g a w a { w with pc := .clearRunning }
  | clearRunning (h : w.pc = .clearRunning) : WorkerTo g a w { a with running := false } { w with pc := .clearLoop }
  | clearLoop (h : w.pc = .clearLoop) : WorkerTo g a w { a with loop := none } { w with pc := .clearQueue }
  | clearQueue (h : w.pc = .clearQueue) : WorkerTo g a w { a with sendQueue := none } { w with pc := .ended }

inductive CoreTo {α : Type} (c : ClientCore) : ThreadLabel α → ClientCore → Prop
  | same {l : ThreadLabel α} : CoreTo c l c
  | goes {l : ThreadLabel α} {pc : Option LockedPc} (h : c.Goes pc) : CoreTo c l { c with locked := pc }
  | startThread {l : ThreadLabel α} (h : c.locked = some .startThread) : CoreTo c l { c with
      attrs.thread := true
      locked := some (.startResult c.workers.length)
      workers := c.workers ++ [⟨.setLoop, .pending, true⟩] }
  | setStarted {l : ThreadLabel α} {pc : Option LockedPc} (h : c.locked = some .setStarted)
      (hpc : pc = none ∨ pc = some .subscribe) : CoreTo c l { c with attrs.started := true, locked := pc }
  | setClosed {l : ThreadLabel α} (h : c.locked = some .closeClosed) :
      CoreTo c l { c with attrs.closed := true, locked := some .closeRunning }
  | closing {pc : LockedPc} {c' : ClientCore} (h : c.locked = some pc) (hpc : pc.closing = true)
      (hc : c'.attrs.closed = c.attrs.closed) (hd : c'.dropped = c.dropped)
      (ht : c'.trackerClosed = c.trackerClosed ∨ pc = .closeTracker) : CoreTo c .locked c'
  | sendRaises {g : Nat} {dropped : List Nat} : CoreTo c (.sendRaises g) { c with dropped := dropped }
  | worker {g : Nat} {w w' : WorkerLife} {a : Attributes} (hg : c.workers[g]? = some w)
      (h : WorkerTo g c.attrs w a w') : CoreTo c (.worker g) { c with attrs := a, workers := c.workers.set g w' }
  | workerFails {g : Nat} {w : WorkerLife} {pc : WorkerPc} (hg : c.workers[g]? = some w)
      (h : w.pc = .setLoop ∧ pc = .clearRunning ∨ w.pc = .createSocket ∧ pc = .cleanupTracker) :
      CoreTo c (.workerFails g) { c with
        workers := c.workers.set g
          { w with pc := pc, startup := if w.startup = .pending then .failed else w.startup } }
  | ends {g : Nat} {w : WorkerLife} {l : ThreadLabel α} (hl : l = .aborted g ∨ l = .receiveEnds g)
      (hg : c.workers[g]? = some w) (hpc : w.pc = .serving) :
      CoreTo c l { c with workers := c.workers.set g { w with receiving := false } }

variable {α : Type} {c c' : ClientCore} {l : ThreadLabel α}

def ClosingClosed (c : ClientCore) : Prop := ∀ pc, c.locked = some pc → pc.closing = true → c.attrs.closed = true

theorem WorkerTo.closed {g : Nat} {a a' : Attributes} {w w' : WorkerLife} (h : WorkerTo g a w a' w') :
    a'.closed = a.closed := by
  cases h <;> rfl

theorem WorkerTo.started {g : Nat} {a a' : Attributes} {w w' : WorkerLife} (h : WorkerTo g a w a' w') :
    a'.started = a.started := by
  cases h <;> rfl

theorem Goes.not_closing {c : ClientCore} {pc : LockedPc} (h : c.Goes (some pc)) : pc.closing = false := by
  cases h with
  | acquire h hpc => rcases hpc with rfl | rfl <;> rfl
  | _ => rfl

theorem CoreTo.closed_mono (h : CoreTo c l c') (hc : c.attrs.closed = true) : c'.attrs.closed = true := by
  cases h with
  | setClosed h => rfl
  | closing h hpc heq => exact heq.trans hc
  | worker hg h => exact h.closed.trans hc
  | _ => exact hc

theorem CoreTo.open_before (h : CoreTo c l c') (hopen : c'.attrs.closed = false) : c.attrs.closed = false := by
  by_contra hc
  rw [h.closed_mono (Bool.eq_true_of_not_eq_false hc)] at hopen
  cases hopen

/-- A transport that was started stays so as long as it is open. -/
theorem CoreTo.started_mono (h : CoreTo c l c') (hclosing : c.ClosingClosed) (hopen : c'.attrs.closed = false)
    (hs : c.attrs.started = true) : c'.attrs.started = true := by
  have hbefore := h.open_before hopen
  cases h with
  | setStarted h hpc => rfl
  | closing h hpc =>
    rw [hclosing _ h hpc] at hbefore
    cases hbefore
  | worker hg h => exact h.started.trans hs
  | _ => exact hs

theorem CoreTo.closingClosed (h : CoreTo c l c') (hc : c.ClosingClosed) : c'.ClosingClosed := by
  intro pc hpc hclosing
  cases h with
  | same => exact hc pc hpc hclosing
  | goes h =>
    simp only at hpc
    subst hpc
    rw [h.not_closing] at hclosing
    cases hclosing
  | startThread h =>
    cases hpc
    cases hclosing
  | sendRaises => exact hc pc hpc hclosing
  | setStarted h hor =>
    simp only at hpc
    subst hpc
    rcases hor with hor | hor <;> cases hor
    cases hclosing
  | setClosed h => rfl
  | closing h hpc' heq => exact heq.trans (hc _ h hpc')
  | worker hg h => exact h.closed.trans (hc pc hpc hclosing)
  | workerFails hg h => exact hc pc hpc hclosing
  | ends hl hg h => exact hc pc hpc hclosing

end ClientCore

namespace ThreadedClient

open ClientCore

variable {α : Type} {m : Msgspec} {s t : ThreadedClient α} {l : ThreadLabel α} {g : Nat}

theorem core_modifyWorker {f : Worker → Worker} (hf : ∀ w, (f w).life = w.life) :
    (s.modifyWorker g f).core = s.core :=
  congrArg (ClientCore.mk s.attrs s.locked s.trackerClosed s.dropped) (Lookup.map_modify_of_eq hf)

theorem core_modifyWorker_set {f : Worker → Worker} {w : Worker} (hg : s.workers[g]? = some w) :
    (s.modifyWorker g f).core = { s.core with workers := s.core.workers.set g (f w).life } :=
  congrArg (ClientCore.mk s.attrs s.locked s.trackerClosed s.dropped) (Lookup.map_modify_eq_set Worker.life hg)

theorem core_worker {w : Worker} (hg : s.workers[g]? = some w) : s.core.workers[g]? = some w.life := by
  simp only [core, List.getElem?_map, hg, Option.map_some]

theorem stepWorker_core (hs : stepWorker g s = some t) : CoreTo s.core (ThreadLabel.worker (α := α) g) t.core := by
  obtain ⟨w, hw, hs⟩ := Option.bind_eq_some_iff.1 hs
  have goes : ∀ {a : Attributes} {pc : WorkerPc} (b : Requests α), WorkerTo g s.attrs w.life a { w.life with pc := pc } →
      CoreTo s.core (ThreadLabel.worker (α := α) g) (({ s with attrs := a, requests := b }).setWorker g pc).core := by
    intro a pc b h
    have hset := core_modifyWorker_set (s := { s with attrs := a, requests := b }) (f := fun w => { w with pc := pc }) hw
    exact hset ▸ .worker (core_worker hw) h
  split at hs
  · next hpc => exact Option.some.inj hs ▸ goes s.requests (.setLoop hpc)
  · next hpc => exact Option.some.inj hs ▸ goes s.requests (.setQueue hpc)
  · next hpc => exact Option.some.inj hs ▸ goes s.requests (.createSocket hpc)
  · next hpc =>
    obtain rfl := Option.some.inj hs
    by_cases hp : w.startup = .pending
    · rw [if_pos hp]
      exact goes s.requests (.checkStartup hpc hp)
    · rw [if_neg hp]
      exact goes s.requests (.noStartup hpc hp)
  · next hpc => exact Option.some.inj hs ▸ goes s.requests (.setRunning hpc)
  · next hpc =>
    obtain rfl := Option.some.inj hs
    rw [core_modifyWorker_set hw]
    exact .worker (core_worker hw) (.startupResult hpc)
  · next hpc =>
    split at hs
    · next hc => exact Option.some.inj hs ▸ goes s.requests (.serving hpc hc.2)
    · cases hs
  · next hpc => exact Option.some.inj hs ▸ goes s.requests.close (.cleanupTracker hpc)
  · next hpc => exact Option.some.inj hs ▸ goes s.requests (.cleanupSocket hpc)
  · next hpc => exact Option.some.inj hs ▸ goes s.requests (.closeLoop hpc)
  · next hpc => exact Option.some.inj hs ▸ goes s.requests (.clearRunning hpc)
  · next hpc => exact Option.some.inj hs ▸ goes s.requests (.clearLoop hpc)
  · next hpc => exact Option.some.inj hs ▸ goes s.requests (.clearQueue hpc)
  · cases hs

theorem stepLocked_core (hs : stepLocked s = some t) : CoreTo s.core (ThreadLabel.locked (α := α)) t.core := by
  have goes : ∀ {pc : Option LockedPc}, s.core.Goes pc →
      CoreTo s.core (ThreadLabel.locked (α := α)) ({ s with locked := pc } : ThreadedClient α).core :=
    fun h => .goes h
  unfold stepLocked at hs
  split at hs
  · cases hs
  · next hl =>
    obtain rfl := Option.some.inj hs
    by_cases hc : s.attrs.closed = true
    · rw [if_pos hc]
      exact goes (.isClosed (.inl hl) hc)
    · rw [if_neg hc]
      exact goes (.startClosed hl)
  · next hl =>
    obtain rfl := Option.some.inj hs
    by_cases hc : s.attrs.started = true
    · rw [if_pos hc]
      exact goes (.isStarted hl hc)
    · rw [if_neg hc]
      exact goes (.notStarted hl (Bool.eq_false_iff.2 hc))
  · next hl =>
    obtain rfl := Option.some.inj hs
    by_cases hc : s.attrs.running = true
    · rw [if_pos hc]
      exact goes (.isRunning hl)
    · rw [if_neg hc]
      exact goes (.notRunning hl (Bool.eq_false_iff.2 hc))
  · next hl =>
    obtain rfl := Option.some.inj hs
    have hcore := CoreTo.startThread (l := ThreadLabel.locked (α := α)) (c := s.core) hl
    simpa only [core, List.map_append, List.length_map, List.map_cons, List.map_nil, Worker.life] using hcore
  · next g hl =>
    split at hs
    · next hw =>
      obtain ⟨w, hw, hdone⟩ := Option.map_eq_some_iff.1 hw
      exact Option.some.inj hs ▸ goes (.startup hl (core_worker hw) hdone)
    · exact Option.some.inj hs ▸ goes (.noStartup hl)
    · exact Option.some.inj hs ▸ goes (.noStartup hl)
    · cases hs
  · next hl =>
    obtain rfl := Option.some.inj hs
    refine .setStarted hl ?_
    cases s.subscribeStreams
    · exact .inl rfl
    · exact .inr rfl
  · cases hs
  · next i hl =>
    split at hs
    · exact Option.some.inj hs ▸ goes (.subscribed hl)
    · cases hs
  · next hl =>
    split at hs
    · next hc => exact Option.some.inj hs ▸ goes (.isClosed (.inr hl) hc)
    · exact Option.some.inj hs ▸ .setClosed hl
  · next hl => exact Option.some.inj hs ▸ .closing hl rfl rfl rfl (.inl rfl)
  · next hl => exact Option.some.inj hs ▸ .closing hl rfl rfl rfl (.inl rfl)
  · next hl => exact Option.some.inj hs ▸ .closing hl rfl rfl rfl (.inl rfl)
  · next hl => exact Option.some.inj hs ▸ .closing hl rfl rfl rfl (.inr rfl)
  · next hl => exact Option.some.inj hs ▸ .closing hl rfl rfl rfl (.inl rfl)

theorem callSoon_core {g q : Nat} {message : OutMessage} : (s.callSoon g q message).core = s.core :=
  core_modifyWorker (fun _ => rfl)

theorem stepCall_core {i : Nat} {encodes : Bool} (hs : stepCall i encodes s = some t) : t.core = s.core := by
  obtain ⟨c, hi, hs⟩ := Option.bind_eq_some_iff.1 hs
  split at hs
  case h_4 =>
    obtain ⟨⟨reqId, b⟩, ha, hs⟩ := Option.bind_eq_some_iff.1 hs
    exact Option.some.inj hs ▸ rfl
  case h_7 =>
    split at hs
    · exact Option.some.inj hs ▸ rfl
    · exact Option.some.inj hs ▸ rfl
    · exact Option.some.inj hs ▸ rfl
    · exact Option.some.inj hs ▸ callSoon_core (s := s)
  all_goals first | exact Option.some.inj hs ▸ rfl | cases hs

theorem stepCallback_core {k : Nat} {encodes : Bool} (hs : stepCallback k encodes s = some t) : t.core = s.core := by
  obtain ⟨c, hk, hs⟩ := Option.bind_eq_some_iff.1 hs
  split at hs
  case h_1 => split at hs <;> exact Option.some.inj hs ▸ rfl
  case h_5 =>
    split at hs
    · exact Option.some.inj hs ▸ rfl
    · exact Option.some.inj hs ▸ rfl
    · exact Option.some.inj hs ▸ rfl
    · exact Option.some.inj hs ▸ callSoon_core (s := s)
  all_goals first | exact Option.some.inj hs ▸ rfl | cases hs

theorem stepSendLoop_core (hs : stepSendLoop g s = some t) : t.core = s.core := by
  have goes : ∀ pc, (s.modifyWorker g (fun w => { w with sendLoop := pc })).core = s.core :=
    fun pc => core_modifyWorker (fun _ => rfl)
  have takes : ∀ (s : ThreadedClient α) (q : Nat) (queue : List OutMessage),
      (s.modifyWorker q (fun w => { w with queue := queue })).core = s.core :=
    fun s q queue => core_modifyWorker (fun _ => rfl)
  obtain ⟨w, hw, hpc, hs⟩ := whileServing_some hs
  simp only at hs
  split at hs
  · split at hs <;> exact Option.some.inj hs ▸ goes _
  · split at hs
    · exact Option.some.inj hs ▸ (takes _ _ _).trans (goes _)
    · cases hs
  · exact Option.some.inj hs ▸ goes _
  · cases hs

theorem step_core (hs : step m l s = some t) : CoreTo s.core l t.core := by
  have same : t.core = s.core → CoreTo s.core l t.core := fun h => h ▸ .same
  cases l with
  | request decode => exact same (Option.some.inj hs ▸ rfl)
  | call i encodes => exact same (stepCall_core hs)
  | cancel f =>
    simp only [step, stepCancel] at hs
    split at hs
    · exact same (Option.some.inj hs ▸ rfl)
    · cases hs
  | callback k encodes => exact same (stepCallback_core hs)
  | start =>
    simp only [step, stepAcquire] at hs
    split at hs
    · next hfree => exact Option.some.inj hs ▸ .goes (.acquire hfree (.inl rfl))
    · cases hs
  | close =>
    simp only [step, stepAcquire] at hs
    split at hs
    · next hfree => exact Option.some.inj hs ▸ .goes (.acquire hfree (.inr rfl))
    · cases hs
  | locked => exact stepLocked_core hs
  | timeout =>
    simp only [step, stepTimeout] at hs
    split at hs
    · next hl =>
      split at hs
      · exact Option.some.inj hs ▸ .goes (.noStartup hl)
      · cases hs
    · cases hs
  | subscribe decode =>
    simp only [step, stepSubscribe] at hs
    split at hs
    · next hl => exact Option.some.inj hs ▸ .goes (.subscribe hl)
    · cases hs
  | worker g => exact stepWorker_core hs
  | workerFails g =>
    obtain ⟨w, hw, hs⟩ := Option.bind_eq_some_iff.1 hs
    simp only at hs
    split at hs
    · next hpc =>
      obtain rfl := Option.some.inj hs
      rw [core_modifyWorker_set hw]
      exact .workerFails (core_worker hw) (.inl ⟨hpc, rfl⟩)
    · next hpc =>
      obtain rfl := Option.some.inj hs
      rw [core_modifyWorker_set hw]
      exact .workerFails (core_worker hw) (.inr ⟨hpc, rfl⟩)
    · cases hs
  | aborted g =>
    obtain ⟨w, hw, hpc, hs⟩ := whileServing_some hs
    obtain rfl := Option.some.inj hs
    rw [core_modifyWorker_set hw]
    exact .ends (.inl rfl) (core_worker hw) hpc
  | runReady g =>
    obtain ⟨w, hw, hpc, hs⟩ := whileServing_some hs
    split at hs
    · cases hs
    · next q message ready hready =>
      obtain rfl := Option.some.inj hs
      have puts := core_modifyWorker (g := q) (s := s.modifyWorker g (fun w => { w with ready := ready }))
        (f := fun w => { w with queue := w.queue ++ [message] }) (fun _ => rfl)
      exact same (puts.trans (core_modifyWorker (fun _ => rfl)))
  | sendLoop g => exact same (stepSendLoop_core hs)
  | sendRaises g =>
    obtain ⟨w, hw, hpc, hs⟩ := whileServing_some hs
    split at hs
    · next message hsending =>
      obtain rfl := Option.some.inj hs
      have hcore := core_modifyWorker (g := g) (s := { s with dropped := s.dropped ++ message.request.toList })
        (f := fun w => { w with sendLoop := .top }) (fun _ => rfl)
      exact hcore.symm ▸ .sendRaises
    · cases hs
  | receive g parts =>
    obtain ⟨w, hw, hpc, hs⟩ := whileServing_some hs
    split at hs
    · split at hs
      · exact same (Option.some.inj hs ▸ rfl)
      · split at hs <;> exact same (Option.some.inj hs ▸ rfl)
    · cases hs
  | receiveEnds g =>
    obtain ⟨w, hw, hpc, hs⟩ := whileServing_some hs
    split at hs
    · obtain rfl := Option.some.inj hs
      rw [core_modifyWorker_set hw]
      exact .ends (.inr rfl) (core_worker hw) hpc
    · cases hs

/-- Only the `tracker.close()` of a `close()` sets the mark. -/
theorem step_trackerClosed (hs : step m l s = some t) : t.trackerClosed = s.trackerClosed ∨
    (s.locked = some .closeTracker ∧ t.requests = s.requests.close) := by
  have hcore := step_core hs
  generalize hc : t.core = c at hcore
  have hmark : t.trackerClosed = c.trackerClosed := hc ▸ rfl
  rw [hmark]
  cases hcore with
  | closing h hpc heq hd hor =>
    rcases hor with hor | rfl
    · exact .inl hor
    · have hlocked : s.locked = some .closeTracker := h
      simp only [step, stepLocked, hlocked] at hs
      exact .inr ⟨hlocked, Option.some.inj hs ▸ rfl⟩
  | _ => exact .inl rfl

end ThreadedClient

end VsRemote
