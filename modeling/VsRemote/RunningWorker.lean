import VsRemote.ClientWorkers

/-! What `_running` promises across restarts: the worker that is up and its loop
and queue, and a `send_request` that does not raise. -/

namespace VsRemote

/-- `isinstance(e, TransportError)`. -/
def PyExc.isTransportError (e : PyExc) : Bool :=
  e.cls = .transportClosedError ∨ e.cls = .transportNotStartedError ∨ e.cls = .transportNotConnectedError

/-- The worker has set `_loop` and not cleared `_running`. -/
def WorkerLife.hasLoop (w : WorkerLife) : Bool :=
  w.pc = .setQueue ∨ w.pc = .createSocket ∨ w.pc = .checkStartup ∨ w.pc = .setRunning ∨ w.up

def WorkerLife.hasQueue (w : WorkerLife) : Bool :=
  w.pc = .createSocket ∨ w.pc = .checkStartup ∨ w.pc = .setRunning ∨ w.up

/-- The worker is up and has not cleaned up. -/
def WorkerLife.ready (w : WorkerLife) : Bool := w.up && !w.pc.cleanedUp

/-- The worker has cleaned up and not cleared `_running`. -/
def WorkerPc.cleaning : WorkerPc → Bool
  | .cleanupSocket | .closeLoop | .clearRunning => true
  | _ => false

/-- `_send_message` has found `_running` set and has not handed the message over. -/
def CallPc.sending : CallPc → Bool
  | .send .closed _ _ | .send .started _ _ | .send .running _ _ => false
  | .send _ _ _ => true
  | _ => false

/-- The loop that `_send_message` has read to hand the message over. -/
def CallPc.loop : CallPc → Option Nat
  | .send (.putNowait g) _ _ | .send (.handOver g _) _ _ => some g
  | _ => none

namespace ClientCore

variable {α : Type} {c c' : ClientCore} {l : ThreadLabel α} {g : Nat} {a a' : Attributes} {w w' : WorkerLife}

structure Owned (c : ClientCore) : Prop where
  loop : ∀ g w, c.IsLast g w → w.hasLoop = true → c.attrs.loop = some g
  queue : ∀ g w, c.IsLast g w → w.hasQueue = true → c.attrs.sendQueue = some g

/-- A worker clears `_loop` and `_send_queue` before a later one sets them. -/
def clearsFirst (c : ClientCore) : ThreadLabel α → Bool
  | .worker g =>
    match (c.workers[g]?).map WorkerLife.pc with
    | some .clearLoop => (c.workers.drop (g + 1)).all (fun w => w.pc = .setLoop)
    | some .clearQueue => (c.workers.drop (g + 1)).all (fun w => w.pc = .setLoop ∨ w.pc = .setQueue)
    | _ => true
  | _ => true

theorem of_all_drop {p : WorkerLife → Bool} {k : Nat} (h : (c.workers.drop (g + 1)).all p = true) (hk : g < k)
    (hw : c.workers[k]? = some w) : p w = true := by
  refine List.all_eq_true.1 h w (List.mem_of_getElem? (i := k - (g + 1)) ?_)
  rw [List.getElem?_drop, show g + 1 + (k - (g + 1)) = k by omega]
  exact hw

theorem WorkerTo.hasLoop (h : WorkerTo g a w a' w') (hloop : w.hasLoop = true → a.loop = some g)
    (hw' : w'.hasLoop = true) : a'.loop = some g := by
  cases h with
  | setLoop hpc => rfl
  | clearLoop hpc => simp [WorkerLife.hasLoop, WorkerLife.up, WorkerLife.stopped] at hw'
  | clearQueue hpc => simp [WorkerLife.hasLoop, WorkerLife.up, WorkerLife.stopped] at hw'
  | clearRunning hpc => simp [WorkerLife.hasLoop, WorkerLife.up, WorkerLife.stopped] at hw'
  | startupResult hpc => exact hloop (by simp [WorkerLife.hasLoop, WorkerLife.up, hpc])
  | setQueue hpc => exact hloop (by simp [WorkerLife.hasLoop, hpc])
  | createSocket hpc => exact hloop (by simp [WorkerLife.hasLoop, hpc])
  | checkStartup hpc hp => exact hloop (by simp [WorkerLife.hasLoop, hpc])
  | noStartup hpc hp => exact hloop (by simp [WorkerLife.hasLoop, hpc])
  | setRunning hpc => exact hloop (by simp [WorkerLife.hasLoop, hpc])
  | _ hpc =>
    refine hloop ?_
    simpa [WorkerLife.hasLoop, WorkerLife.up, WorkerLife.stopped, hpc] using hw'

theorem WorkerTo.hasQueue (h : WorkerTo g a w a' w') (hqueue : w.hasQueue = true → a.sendQueue = some g)
    (hw' : w'.hasQueue = true) : a'.sendQueue = some g := by
  cases h with
  | setLoop hpc =>
    refine hqueue ?_
    simpa [WorkerLife.hasQueue, WorkerLife.up, WorkerLife.stopped, hpc] using hw'
  | setQueue hpc => rfl
  | clearLoop hpc => simp [WorkerLife.hasQueue, WorkerLife.up, WorkerLife.stopped] at hw'
  | clearQueue hpc => simp [WorkerLife.hasQueue, WorkerLife.up, WorkerLife.stopped] at hw'
  | clearRunning hpc => simp [WorkerLife.hasQueue, WorkerLife.up, WorkerLife.stopped] at hw'
  | startupResult hpc => exact hqueue (by simp [WorkerLife.hasQueue, WorkerLife.up, hpc])
  | createSocket hpc => exact hqueue (by simp [WorkerLife.hasQueue, hpc])
  | checkStartup hpc hp => exact hqueue (by simp [WorkerLife.hasQueue, hpc])
  | noStartup hpc hp => exact hqueue (by simp [WorkerLife.hasQueue, hpc])
  | setRunning hpc => exact hqueue (by simp [WorkerLife.hasQueue, hpc])
  | _ hpc =>
    refine hqueue ?_
    simpa [WorkerLife.hasQueue, WorkerLife.up, WorkerLife.stopped, hpc] using hw'

/-- What a worker that has stopped clears is not what a later one has set. -/
theorem WorkerTo.keeps {k : Nat} {v : WorkerLife} (h : WorkerTo g c.attrs w a w') (hw : c.workers[g]? = some w)
    (hstopped : w.stopped = true) (hc : clearsFirst c (ThreadLabel.worker (α := α) g) = true) (hk : g < k)
    (hv : c.workers[k]? = some v) (hfits : v.Fits) :
    (v.hasLoop = true → c.attrs.loop = some k → a.loop = some k) ∧
      (v.hasQueue = true → c.attrs.sendQueue = some k → a.sendQueue = some k) := by
  have hearly := hfits.early
  cases h with
  | clearLoop hpc =>
    refine ⟨fun hloop => ?_, fun _ => id⟩
    simp only [clearsFirst, hw, Option.map_some, hpc] at hc
    have hset : v.pc = .setLoop := of_decide_eq_true (of_all_drop hc hk hv)
    simp [WorkerLife.hasLoop, WorkerLife.up, hset, hearly (by simp [WorkerLife.early, hset])] at hloop
  | clearQueue hpc =>
    refine ⟨fun _ => id, fun hqueue => ?_⟩
    simp only [clearsFirst, hw, Option.map_some, hpc] at hc
    have hset : v.pc = .setLoop ∨ v.pc = .setQueue := of_decide_eq_true (of_all_drop hc hk hv)
    rcases hset with hset | hset <;>
      simp [WorkerLife.hasQueue, WorkerLife.up, hset, hearly (by simp [WorkerLife.early, hset])] at hqueue
  | _ hpc => simp [WorkerLife.stopped, hpc] at hstopped

/-- One worker changes: it answers for its own loop and queue, and a later one keeps its. -/
theorem Owned.set (hw : c.workers[g]? = some w) (hc : c'.workers = c.workers.set g w')
    (own : c.IsLast g w → (w'.hasLoop = true → c'.attrs.loop = some g) ∧
      (w'.hasQueue = true → c'.attrs.sendQueue = some g))
    (later : ∀ k v, g < k → c.IsLast k v → (v.hasLoop = true → c'.attrs.loop = some k) ∧
      (v.hasQueue = true → c'.attrs.sendQueue = some k)) : c'.Owned := by
  have both : ∀ k v, c'.IsLast k v → (v.hasLoop = true → c'.attrs.loop = some k) ∧
      (v.hasQueue = true → c'.attrs.sendQueue = some k) := by
    intro k v hlast
    rcases hlast.set hw hc with ⟨rfl, rfl, hwas⟩ | ⟨hne, hwas⟩
    · exact own hwas
    · have hlt := Lookup.lt_length hw
      have hlen := hwas.2
      exact later k v (by omega) hwas
  exact ⟨fun k v hlast => (both k v hlast).1, fun k v hlast => (both k v hlast).2⟩

theorem Owned.step (ho : c.Owned) (h : c.Generations) (hclosing : c.ClosingClosed) (hc : c.clearsFirst l = true)
    (hto : CoreTo c l c') (hopen : c'.attrs.closed = false) : c'.Owned := by
  have hbefore := hto.open_before hopen
  cases hto with
  | same => exact ho
  | sendRaises => exact ⟨ho.loop, ho.queue⟩
  | goes hgo => exact ⟨ho.loop, ho.queue⟩
  | startThread hl =>
    constructor
    · intro k v hlast hv
      obtain ⟨-, rfl⟩ := IsLast.append rfl hlast
      simp [WorkerLife.hasLoop, WorkerLife.up] at hv
    · intro k v hlast hv
      obtain ⟨-, rfl⟩ := IsLast.append rfl hlast
      simp [WorkerLife.hasQueue, WorkerLife.up] at hv
  | setStarted hl hpc => exact ⟨ho.loop, ho.queue⟩
  | setClosed hl => cases hopen
  | closing hl hpc =>
    rw [hclosing _ hl hpc] at hbefore
    cases hbefore
  | @worker g w w' a hw hto =>
    refine .set hw rfl (fun hlast => ?_) (fun k v hlt hlast => ?_)
    · exact ⟨hto.hasLoop (ho.loop g w hlast), hto.hasQueue (ho.queue g w hlast)⟩
    · have hlen := hlast.2
      have hkeeps := hto.keeps hw (h.old g w hw (by omega)) hc hlt hlast.1 (h.fits k v hlast.1)
      exact ⟨fun hv => hkeeps.1 hv (ho.loop k v hlast hv), fun hv => hkeeps.2 hv (ho.queue k v hlast hv)⟩
  | @workerFails g w pc hw hpc =>
    have hpending : w.startup = .pending := by
      refine (h.fits g w hw).early ?_
      rcases hpc with ⟨hpc, -⟩ | ⟨hpc, -⟩ <;> simp [WorkerLife.early, hpc]
    have hnone : WorkerLife.hasLoop ⟨pc, .failed, w.receiving⟩ = false ∧
        WorkerLife.hasQueue ⟨pc, .failed, w.receiving⟩ = false := by
      rcases hpc with ⟨-, rfl⟩ | ⟨-, rfl⟩ <;> simp [WorkerLife.hasLoop, WorkerLife.hasQueue, WorkerLife.up]
    simp only [hpending, if_true]
    refine .set hw rfl (fun hlast => ?_) (fun k v hlt hlast => ⟨ho.loop k v hlast, ho.queue k v hlast⟩)
    rw [hnone.1, hnone.2]
    exact ⟨fun hv => absurd hv Bool.false_ne_true, fun hv => absurd hv Bool.false_ne_true⟩
  | @ends g w l hl hw hpc =>
    exact .set hw rfl (fun hlast => ⟨ho.loop g w hlast, ho.queue g w hlast⟩)
      (fun k v hlt hlast => ⟨ho.loop k v hlast, ho.queue k v hlast⟩)

theorem owned_init : (⟨{}, none, false, [], []⟩ : ClientCore).Owned where
  loop _ _ h := by cases h.1
  queue _ _ h := by cases h.1

theorem Generations.up (h : c.Generations) (hrunning : c.attrs.running = true) :
    ∃ g w, c.IsLast g w ∧ w.up = true := by
  have hsome : c.workers ≠ [] := fun hnil => by
    rw [h.none hnil] at hrunning
    cases hrunning
  have hlen := List.length_pos_iff.2 hsome
  have hlast : c.IsLast (c.workers.length - 1) _ := ⟨List.getElem?_eq_getElem (by omega), by omega⟩
  exact ⟨_, _, hlast, (h.running _ _ hlast).symm.trans hrunning⟩

/-- Where no worker is at its clean-up, `_running` tells of one that is ready. -/
theorem Generations.ready (h : c.Generations) (hrunning : c.attrs.running = true)
    (hc : c.workers.all (fun w => !w.pc.cleaning) = true) : ∃ g w, c.IsLast g w ∧ w.ready = true := by
  obtain ⟨g, w, hlast, hup⟩ := h.up hrunning
  have hclean := List.all_eq_true.1 hc w (List.mem_of_getElem? hlast.1)
  refine ⟨g, w, hlast, ?_⟩
  have hstopped : w.stopped = false := by
    by_contra hs
    rw [WorkerLife.not_up_of_stopped (Bool.eq_true_of_not_eq_false hs)] at hup
    cases hup
  obtain ⟨pc, startup, receiving⟩ := w
  rw [WorkerLife.ready, hup, Bool.true_and]
  cases pc with
  | clearLoop | clearQueue | ended => simp [WorkerLife.stopped] at hstopped
  | cleanupSocket | closeLoop | clearRunning => cases hclean
  | _ => rfl

theorem WorkerTo.ready (h : WorkerTo g a w a' w') (hfits : w.Fits) (hready : w.ready = true)
    (hclean : w.pc ≠ .cleanupTracker) : w'.ready = true := by
  have hearly := hfits.early
  simp only [WorkerLife.ready, Bool.and_eq_true, Bool.not_eq_true'] at hready
  obtain ⟨hup, hcleaned⟩ := hready
  cases h with
  | startupResult hpc =>
    have hpending : w.startup = .pending := hearly (by simp [WorkerLife.early, hpc])
    simp [WorkerLife.ready, WorkerLife.up, WorkerLife.stopped, hpending, WorkerPc.cleanedUp, WorkerPc.loopClosed]
  | serving hpc =>
    have hdone := hfits.serving hpc
    simp [WorkerLife.ready, WorkerLife.up, WorkerLife.stopped, hdone, WorkerPc.cleanedUp, WorkerPc.loopClosed]
  | cleanupTracker hpc => exact absurd hpc hclean
  | cleanupSocket hpc => simp [hpc, WorkerPc.cleanedUp] at hcleaned
  | closeLoop hpc => simp [hpc, WorkerPc.cleanedUp] at hcleaned
  | clearRunning hpc => simp [hpc, WorkerPc.cleanedUp, WorkerPc.loopClosed] at hcleaned
  | clearLoop hpc => simp [hpc, WorkerPc.cleanedUp, WorkerPc.loopClosed] at hcleaned
  | clearQueue hpc => simp [hpc, WorkerPc.cleanedUp, WorkerPc.loopClosed] at hcleaned
  | _ hpc => simp [WorkerLife.up, hpc, hearly (by simp [WorkerLife.early, hpc])] at hup

/-- A worker that is ready stays the last one, and ready until its clean-up. -/
theorem ready_step (h : c.Generations) (hclosing : c.ClosingClosed) (hto : CoreTo c l c')
    (hopen : c'.attrs.closed = false) (hlast : c.IsLast g w) (hready : w.ready = true)
    (hclean : l = .worker g → w.pc ≠ .cleanupTracker) : ∃ w', c'.IsLast g w' ∧ w'.ready = true := by
  have hbefore := hto.open_before hopen
  have hup : w.up = true := (Bool.and_eq_true_iff.1 hready).1
  have later : ∀ {k : Nat} {v v' : WorkerLife} {d : ClientCore}, c.workers[k]? = some v → d.workers = c.workers.set k v' →
      (k = g → v'.ready = true) → ∃ w', d.IsLast g w' ∧ w'.ready = true := by
    intro k v v' d hv hd hown
    by_cases hk : k = g
    · subst hk
      refine ⟨v', ⟨?_, ?_⟩, hown rfl⟩
      · rw [hd, List.getElem?_set_self (Lookup.lt_length hv)]
      · rw [hd, List.length_set]
        exact hlast.2
    · refine ⟨w, ⟨?_, ?_⟩, hready⟩
      · rw [hd, List.getElem?_set_ne hk]
        exact hlast.1
      · rw [hd, List.length_set]
        exact hlast.2
  have same : ∀ {v : WorkerLife}, c.workers[g]? = some v → v = w :=
    fun hv => Option.some.inj (hv.symm.trans hlast.1)
  cases hto with
  | startThread hl =>
    have hstopped := h.idle hl g w hlast.1
    rw [WorkerLife.not_up_of_stopped hstopped] at hup
    cases hup
  | setClosed hl => cases hopen
  | closing hl hpc =>
    rw [hclosing _ hl hpc] at hbefore
    cases hbefore
  | @worker k v v' a hv hto =>
    refine later hv rfl (fun hk => ?_)
    subst hk
    obtain rfl := same hv
    exact hto.ready (h.fits k v hv) hready (hclean rfl)
  | @workerFails k v pc hv hpc =>
    refine later hv rfl (fun hk => ?_)
    subst hk
    obtain rfl := same hv
    have hearly := (h.fits k v hv).early
    rcases hpc with ⟨hpc, -⟩ | ⟨hpc, -⟩ <;>
      simp [WorkerLife.up, hpc, hearly (by simp [WorkerLife.early, hpc])] at hup
  | @ends k v l hl hv hpc =>
    refine later hv rfl (fun hk => ?_)
    subst hk
    obtain rfl := same hv
    exact hready
  | _ => exact ⟨w, hlast, hready⟩

end ClientCore

namespace Requests

variable {α : Type} {b b' : Requests α} {f : Nat} {e : PyExc}

/-- The future is done, and was offered the exception. -/
def RejectedWith (b : Requests α) (f : Nat) (e : PyExc) : Prop :=
  ∃ fut : RequestFuture α, b.futures[f]? = some fut ∧ fut.outcome.isSome = true ∧ .rejected e ∈ fut.offered

theorem RejectedWith.grows (h : b.RejectedWith f e) (hg : b.Grows b') : b'.RejectedWith f e := by
  obtain ⟨fut, hf, hdone, hmem⟩ := h
  obtain ⟨fut', hf', hkeep, hsub⟩ := hg f fut hf
  obtain ⟨o, ho⟩ := Option.isSome_iff_exists.1 hdone
  exact ⟨fut', hf', Option.isSome_iff_exists.2 ⟨o, hkeep o ho⟩, hsub hmem⟩

theorem rejectedWith_offer (hf : f < b.futures.length) : (b.offer f (.rejected e)).RejectedWith f e := by
  have hget := List.getElem?_eq_getElem hf
  refine ⟨b.futures[f].offer (.rejected e), by simp [offer, hget], RequestFuture.outcome_offer .., ?_⟩
  unfold RequestFuture.offer
  split <;> exact List.mem_append_right _ (List.mem_singleton_self _)

/-- What a call holds or has returned is in order. -/
def CallFits (b : Requests α) : CallPc → Prop
  | .closed | .started | .running | .allocate => True
  | .addCallback _ f | .encode _ f | .send _ _ f => f < b.futures.length
  | .pop e _ f | .setException e f => f < b.futures.length ∧ e.isTransportError = true
  | .rejected e => e.isTransportError = true
  | .sent _ late => late = false
  | .unsent e f => e.isTransportError = true ∧ b.RejectedWith f e
  | .raised => False

theorem CallFits.grows {pc : CallPc} (h : b.CallFits pc) (hg : b.Grows b') : b'.CallFits pc := by
  cases pc with
  | addCallback reqId f => exact hg.length h
  | encode reqId f => exact hg.length h
  | send pc reqId f => exact hg.length h
  | pop e reqId f => exact ⟨hg.length h.1, h.2⟩
  | setException e f => exact ⟨hg.length h.1, h.2⟩
  | unsent e f => exact ⟨h.1, h.2.grows hg⟩
  | _ => exact h

end Requests

namespace ThreadedClient

open Requests

variable {α : Type} {m : Msgspec} {s t : ThreadedClient α} {l : ThreadLabel α}

/-- No `_send_message` that has found `_running` set is on its way when a worker starts its
clean-up, and none finds it set until that worker has cleared it. What is sent can be
encoded. -/
def sendsApart (s : ThreadedClient α) : ThreadLabel α → Bool
  | .worker g =>
    match (s.core.workers[g]?).map WorkerLife.pc with
    | some .cleanupTracker => s.requests.calls.all (fun c => !c.pc.sending)
    | _ => true
  | .call i encodes =>
    match (s.requests.calls[i]?).map RequestCall.pc with
    | some (.send .running _ _) => s.core.workers.all (fun w => !w.pc.cleaning)
    | some (.encode _ _) | some (.send .parts _ _) => encodes
    | _ => true
  | _ => true

/-- The last worker is ready, and made the loop that the call has read. -/
def Ready (s : ThreadedClient α) (pc : CallPc) : Prop :=
  ∃ g w, s.core.IsLast g w ∧ w.ready = true ∧ ∀ k, pc.loop = some k → k = g

/-- Its loop and queue are there. -/
theorem Ready.uses {pc : CallPc} (h : s.Ready pc) (ho : s.core.Owned) : ∃ g, s.attrs.loop = some g ∧
    s.attrs.sendQueue = some g ∧ s.cleanedUp g = false ∧ ∀ k, pc.loop = some k → k = g := by
  obtain ⟨g, w, hlast, hready, hloop⟩ := h
  obtain ⟨hup, hclean⟩ := Bool.and_eq_true_iff.1 hready
  refine ⟨g, ho.loop g w hlast (by simp [WorkerLife.hasLoop, hup]), ho.queue g w hlast (by simp [WorkerLife.hasQueue, hup]),
    ?_, hloop⟩
  obtain ⟨w₀, hw₀, rfl⟩ := Option.map_eq_some_iff.1 (List.getElem?_map ▸ hlast.1)
  rw [cleanedUp, hw₀]
  exact Bool.not_eq_true' _ ▸ hclean

theorem sendMessage_fails {encodes : Bool} {pc : SendPc} {e : PyExc} (h : s.sendMessage encodes pc = .fails e) :
    e.isTransportError = true := by
  cases pc with
  | closed | started | running | loop | sendQueue | parts | handOver g q =>
    simp only [sendMessage] at h
    split at h <;> cases h <;> rfl
  | callSoon | putNowait g =>
    simp only [sendMessage] at h
    split at h <;> cases h

/-- A call that is ready to send finds what it uses. -/
theorem not_raises {encodes : Bool} {i reqId f : Nat} {pc : SendPc} {c : RequestCall α}
    (hc : s.sendsApart (.call i encodes) = true) (hi : s.requests.calls[i]? = some c) (hpc : c.pc = .send pc reqId f)
    (ho : s.core.Owned) (hr : c.pc.sending = true → s.Ready c.pc) : s.sendMessage encodes pc ≠ .raises := by
  intro h
  rw [hpc] at hr
  cases pc with
  | closed | started | running | loop | sendQueue | handOver g q =>
    simp only [sendMessage] at h
    split at h <;> cases h
  | parts =>
    simp only [sendMessage] at h
    simp only [sendsApart, hi, Option.map_some, hpc] at hc
    rw [if_pos hc] at h
    cases h
  | callSoon =>
    obtain ⟨g, hloop, -⟩ := (hr rfl).uses ho
    simp only [sendMessage, hloop] at h
    cases h
  | putNowait g =>
    obtain ⟨k, -, hqueue, -⟩ := (hr rfl).uses ho
    simp only [sendMessage, hqueue] at h
    cases h

/-- With what it uses in place a step of `send_request` leaves the call in order. -/
theorem callFits_moves {i : Nat} {encodes : Bool} {c : RequestCall α} {pc : CallPc} (hc : s.sendsApart (.call i encodes) = true)
    (hi : s.requests.calls[i]? = some c) (hm : s.Moves encodes c.pc pc) (ho : s.core.Owned)
    (hr : c.pc.sending = true → s.Ready c.pc) (h : s.requests.CallFits c.pc) : s.requests.CallFits pc := by
  generalize hpc : c.pc = old at hm h
  cases hm with
  | closed | started | running => trivial
  | isClosed | isNotStarted | isNotRunning => rfl
  | encoded he => exact h
  | next hsend => exact h
  | fails hsend => exact ⟨h, sendMessage_fails hsend⟩
  | @handedOver g q reqId f hopen =>
    rw [hpc] at hr
    obtain ⟨k, -, -, hclean, hloop⟩ := (hr rfl).uses ho
    exact hloop g rfl ▸ hclean
  | unencoded he =>
    simp only [sendsApart, hi, Option.map_some, hpc, he] at hc
    cases hc
  | raises hsend => exact absurd hsend (not_raises hc hi hpc ho hr)

theorem callFits_call {i : Nat} {encodes : Bool} {c : RequestCall α} {b : Requests α} {pc : CallPc}
    (hc : s.sendsApart (.call i encodes) = true) (hi : s.requests.calls[i]? = some c) (ho : s.core.Owned)
    (hr : c.pc.sending = true → s.Ready c.pc) (hgrows : s.requests.Grows b)
    (hcall : CallTo s encodes b c.pc pc) (h : s.requests.CallFits c.pc) : b.CallFits pc := by
  generalize hpc : c.pc = old at hcall h
  cases hcall with
  | moves hm =>
    subst hpc
    exact (callFits_moves hc hi hm ho hr h).grows hgrows
  | allocate hlt => exact hlt
  | addCallback => exact hgrows.length h
  | pop => exact ⟨hgrows.length h.1, h.2⟩
  | setException hb =>
    obtain ⟨fut, hf, hdone, hmem⟩ := rejectedWith_offer h.1
    exact ⟨h.2, fut, hb ▸ hf, hdone, hmem⟩

/-- A call gets ready where no worker is at its clean-up, and stays so. -/
theorem ready_moves {i : Nat} {encodes : Bool} {c : RequestCall α} {pc : CallPc} (hc : s.sendsApart (.call i encodes) = true)
    (hi : s.requests.calls[i]? = some c) (hm : s.Moves encodes c.pc pc) (hg : s.core.Generations) (ho : s.core.Owned)
    (hr : c.pc.sending = true → s.Ready c.pc) (hsending : pc.sending = true) : s.Ready pc := by
  generalize hpc : c.pc = old at hm
  cases hm with
  | @next p p' reqId f hsend =>
    rw [hpc] at hr
    cases p with
    | closed | started =>
      simp only [sendMessage] at hsend
      split at hsend <;> cases hsend
      cases hsending
    | running =>
      simp only [sendMessage] at hsend
      split at hsend
      · next hrunning =>
        cases hsend
        simp only [sendsApart, hi, Option.map_some, hpc] at hc
        obtain ⟨g, w, hlast, hready⟩ := hg.ready hrunning hc
        exact ⟨g, w, hlast, hready, fun k hk => by cases hk⟩
      · cases hsend
    | loop | sendQueue | parts =>
      simp only [sendMessage] at hsend
      split at hsend <;> cases hsend
      exact hr rfl
    | callSoon =>
      obtain ⟨g, w, hlast, hready, -⟩ := hr rfl
      have hloop : s.attrs.loop = some g :=
        ho.loop g w hlast (by simp [WorkerLife.hasLoop, (Bool.and_eq_true_iff.1 hready).1])
      simp only [sendMessage, hloop] at hsend
      cases hsend
      exact ⟨g, w, hlast, hready, fun k hk => (Option.some.inj hk).symm⟩
    | putNowait g =>
      simp only [sendMessage] at hsend
      split at hsend <;> cases hsend
      exact hr rfl
    | handOver g q =>
      simp only [sendMessage] at hsend
      split at hsend <;> cases hsend
  | _ => cases hsending

theorem ready_call {i : Nat} {encodes : Bool} {c : RequestCall α} {b : Requests α} {pc : CallPc}
    (hc : s.sendsApart (.call i encodes) = true) (hi : s.requests.calls[i]? = some c) (hg : s.core.Generations)
    (ho : s.core.Owned) (hr : c.pc.sending = true → s.Ready c.pc) (hcall : CallTo s encodes b c.pc pc)
    (hsending : pc.sending = true) : s.Ready pc := by
  generalize hpc : c.pc = old at hcall
  cases hcall with
  | moves hm =>
    subst hpc
    exact ready_moves hc hi hm hg ho hr hsending
  | _ => cases hsending

/-- Whatever the others do, the last worker stays ready for the calls that are sending. -/
theorem Ready.step {pc : CallPc} (h : s.Ready pc) (hg : s.core.Generations) (hclosing : s.core.ClosingClosed)
    (hc : s.sendsApart l = true) (hsome : ∃ c ∈ s.requests.calls, c.pc.sending = true) (hs : step m l s = some t)
    (hopen : t.attrs.closed = false) : t.Ready pc := by
  obtain ⟨g, w, hlast, hready, hloop⟩ := h
  obtain ⟨w', hlast', hready'⟩ := ClientCore.ready_step hg hclosing (step_core hs) hopen hlast hready (by
    rintro rfl hpc
    obtain ⟨c, hmem, hsending⟩ := hsome
    simp only [sendsApart, hlast.1, Option.map_some, hpc] at hc
    have hnot := List.all_eq_true.1 hc c hmem
    rw [hsending] at hnot
    cases hnot)
  exact ⟨g, w', hlast', hready', hloop⟩

theorem ready_callStep (h : ∀ c ∈ s.requests.calls, c.pc.sending = true → s.Ready c.pc) (hg : s.core.Generations)
    (ho : s.core.Owned) (hclosing : s.core.ClosingClosed) (hc : s.sendsApart l = true) (hs : step m l s = some t)
    (hopen : t.attrs.closed = false) : ∀ c ∈ t.requests.calls, c.pc.sending = true → t.Ready c.pc := by
  intro c hmem hsending
  rcases step_call hs hmem with hold | hclosed | ⟨i, encodes, c₀, rfl, hi, hcall⟩
  · exact (h c hold hsending).step hg hclosing hc ⟨c, hold, hsending⟩ hs hopen
  · rw [hclosed] at hsending
    cases hsending
  · have hready := ready_call hc hi hg ho (h c₀ (List.mem_of_getElem? hi)) hcall hsending
    rw [Ready, stepCall_core hs]
    exact hready

theorem callFits_step (h : ∀ c ∈ s.requests.calls, s.requests.CallFits c.pc) (ho : s.core.Owned)
    (hr : ∀ c ∈ s.requests.calls, c.pc.sending = true → s.Ready c.pc) (hc : s.sendsApart l = true)
    (hs : step m l s = some t) : ∀ c ∈ t.requests.calls, t.requests.CallFits c.pc := by
  intro c hmem
  rcases step_call hs hmem with hold | hclosed | ⟨i, encodes, c₀, rfl, hi, hcall⟩
  · exact (h c hold).grows (step_grows hs)
  · rw [hclosed]
    trivial
  · have hmem₀ := List.mem_of_getElem? hi
    exact callFits_call hc hi ho (hr c₀ hmem₀) (step_grows hs) hcall (h c₀ hmem₀)

/-- With `_running` goes a worker that has not ended, with its loop and queue, and
no call of `send_request` has raised. -/
structure Usable (s : ThreadedClient α) : Prop where
  running : s.attrs.running = true → ∃ g w, s.core.IsLast g w ∧ w.stopped = false ∧
    s.attrs.loop = some g ∧ s.attrs.sendQueue = some g
  calls : ∀ c ∈ s.requests.calls, s.requests.CallFits c.pc

/-- As long as the transport is open, the end of a worker overlaps neither the start-up of
a later one nor the sending of a request. -/
def keepsUsable (s : ThreadedClient α) (l : ThreadLabel α) : Bool :=
  s.attrs.closed || (s.core.clearsFirst l && s.sendsApart l)

structure Keeps (s : ThreadedClient α) : Prop where
  closing : s.core.ClosingClosed
  generations : s.attrs.closed = false → s.core.Generations
  owned : s.attrs.closed = false → s.core.Owned
  ready : s.attrs.closed = false → ∀ c ∈ s.requests.calls, c.pc.sending = true → s.Ready c.pc
  calls : s.attrs.closed = false → ∀ c ∈ s.requests.calls, s.requests.CallFits c.pc

theorem keeps_init (subscribeStreams : Bool) : (init subscribeStreams : ThreadedClient α).Keeps where
  closing _ h := by cases h
  generations _ := ClientCore.generations_init
  owned _ := ClientCore.owned_init
  ready _ _ h := by cases h
  calls _ _ h := by cases h

theorem Keeps.step (h : s.Keeps) (hc : s.keepsUsable l = true) (hs : step m l s = some t) : t.Keeps := by
  have hcore := step_core hs
  have hbefore : t.attrs.closed = false → s.attrs.closed = false := hcore.open_before
  have hguard : t.attrs.closed = false → s.core.clearsFirst l = true ∧ s.sendsApart l = true := by
    intro hopen
    simpa [keepsUsable, hbefore hopen] using hc
  refine ⟨hcore.closingClosed h.closing, fun hopen => ?_, fun hopen => ?_, fun hopen => ?_, fun hopen => ?_⟩
  · exact (h.generations (hbefore hopen)).step h.closing hcore hopen
  · exact (h.owned (hbefore hopen)).step (h.generations (hbefore hopen)) h.closing (hguard hopen).1 hcore hopen
  · exact ready_callStep (h.ready (hbefore hopen)) (h.generations (hbefore hopen)) (h.owned (hbefore hopen)) h.closing
      (hguard hopen).2 hs hopen
  · exact callFits_step (h.calls (hbefore hopen)) (h.owned (hbefore hopen)) (h.ready (hbefore hopen)) (hguard hopen).2 hs

theorem Keeps.usable (h : s.Keeps) (hopen : s.attrs.closed = false) : s.Usable := by
  refine ⟨fun hrunning => ?_, h.calls hopen⟩
  have howned := h.owned hopen
  obtain ⟨g, w, hlast, hup⟩ := (h.generations hopen).up hrunning
  refine ⟨g, w, hlast, ?_, ?_, ?_⟩
  · by_contra hstopped
    rw [WorkerLife.not_up_of_stopped (Bool.eq_true_of_not_eq_false hstopped)] at hup
    cases hup
  · exact howned.loop g w hlast (by simp [WorkerLife.hasLoop, hup])
  · exact howned.queue g w hlast (by simp [WorkerLife.hasQueue, hup])

end ThreadedClient

open ThreadedClient

/-- Where the end of a worker overlaps neither the start-up of a later one nor the sending
of a request, `_running` means usable in every state of an open transport. -/
theorem running_is_usable {α : Type} {m : Msgspec} {subscribeStreams : Bool} {ls : List (ThreadLabel α)}
    (hg : Runs.Guarded (step m) (fun s l => s.keepsUsable l = true) ls (init subscribeStreams)) :
    Runs.Always (step m) (fun s => s.attrs.closed = false → s.Usable) ls (init subscribeStreams) := by
  have hinv := hg.always (I := ThreadedClient.Keeps) (fun s l t h hc hs => h.step hc hs) (keeps_init subscribeStreams)
  exact hinv.mono (fun s h hopen => h.usable hopen)

/-- The first worker has ended when the transport is started again, and a request is sent. -/
def endedFirst : List (ThreadLabel Unit) :=
  starts ++ dies 0 ++ [.worker 0, .worker 0] ++ restarts 1 ++ [.request (fun _ => .ok ())] ++
    List.replicate 15 (.call 0 true)

theorem running_is_usable_endedFirst :
    (Runs.run (step (.table [] [])) endedFirst (init false)).map (fun s => (s.attrs.running, s.attrs.loop,
        s.attrs.sendQueue, s.requests.calls.map (fun c => c.pc))) =
        some (true, some 1, some 1, [.sent 0 false]) ∧
      Runs.Always (step (.table [] [])) (fun s => s.attrs.closed = false → s.Usable) endedFirst (init false) :=
  ⟨by decide, running_is_usable (by decide)⟩

/-- A request is half-way when the first worker dies; the transport is started
again, then the first worker clears `_loop`. -/
def clearedLate : List (ThreadLabel Unit) :=
  starts ++ [.request (fun _ => .ok ())] ++ List.replicate 12 (.call 0 true) ++ dies 0 ++ restarts 1 ++
    [.worker 0, .call 0 true]

theorem running_without_loop :
    ∃ s, Runs.run (step (.table [] [])) clearedLate (init false) = some s ∧ s.attrs.closed = false ∧
      s.locked = none ∧ s.attrs.running = true ∧ s.attrs.loop = none ∧
      s.requests.calls.map (fun c => c.pc) = [.raised] ∧ ¬ s.Usable := by
  have hfinal : (Runs.run (step (.table [] [])) clearedLate (init false)).map (fun s => (s.attrs, s.locked,
      s.requests.calls.map (fun c => c.pc))) =
      some (⟨false, true, true, true, none, some 1, some 1⟩, none, [.raised]) := by decide
  obtain ⟨s, hs, heq⟩ := Option.map_eq_some_iff.1 hfinal
  simp only [Prod.mk.injEq] at heq
  obtain ⟨hattrs, hlocked, hcalls⟩ := heq
  have hloop : s.attrs.loop = none := by rw [hattrs]
  have hrunning : s.attrs.running = true := by rw [hattrs]
  refine ⟨s, hs, by rw [hattrs], hlocked, hrunning, hloop, hcalls, fun h => ?_⟩
  obtain ⟨g, w, -, -, hsome, -⟩ := h.running hrunning
  rw [hloop] at hsome
  cases hsome

end VsRemote
