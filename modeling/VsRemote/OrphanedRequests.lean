import VsRemote.ClientMessages
import VsRemote.ClientWorkers

/-! Requests that an open transport can no longer get answered. -/

namespace VsRemote

namespace ClientCore

variable {α : Type} {c c' : ClientCore} {l : ThreadLabel α} {g : Nat} {a a' : Attributes} {w w' : WorkerLife}

/-- The tasks of a serving worker go on, its receive loop above all. -/
def keepsReceiving (c : ClientCore) : ThreadLabel α → Bool
  | .aborted g => (c.workers[g]?).all (fun w => w.pc ≠ .serving)
  | .receiveEnds g => (c.workers[g]?).all (fun w => w.pc ≠ .serving ∨ w.receiving = false)
  | _ => true

/-- A worker that has come up serves, and a transport that was started runs. -/
structure Alive (c : ClientCore) : Prop where
  serves : ∀ (g : Nat) (w : WorkerLife), c.workers[g]? = some w → w.receiving = true ∧ (w.startup = .done → w.pc = .serving)
  runs : c.attrs.started = true ∨ c.locked = some .setStarted → c.attrs.running = true

theorem alive_init : (⟨{}, none, false, [], []⟩ : ClientCore).Alive where
  serves _ _ h := by cases h
  runs h := by rcases h with h | h <;> cases h

theorem WorkerTo.serves (h : WorkerTo g a w a' w') (hw : w.receiving = true ∧ (w.startup = .done → w.pc = .serving)) :
    w'.receiving = true ∧ (w'.startup = .done → w'.pc = .serving) := by
  obtain ⟨hreceiving, hserving⟩ := hw
  cases h with
  | startupResult hpc => exact ⟨hreceiving, fun _ => rfl⟩
  | serving hpc hr =>
    rw [hr] at hreceiving
    cases hreceiving
  | _ hpc =>
    refine ⟨hreceiving, fun hdone => ?_⟩
    rw [hserving hdone] at hpc
    cases hpc

namespace Alive

/-- The last worker is up as soon as its startup future is done. -/
theorem running (h : c.Alive) (hgen : c.Generations) (hlast : c.IsLast g w) (hdone : w.startup = .done) :
    c.attrs.running = true := by
  have hpc := (h.serves g w hlast.1).2 hdone
  rw [hgen.running g w hlast]
  simp [WorkerLife.up, WorkerLife.stopped, hdone, hpc]

theorem worker (h : c.Alive) (hgen : c.Generations) (hw : c.workers[g]? = some w) (hto : WorkerTo g c.attrs w a w') :
    Alive { c with attrs := a, workers := c.workers.set g w' } := by
  refine ⟨fun k v hv => ?_, fun hor => ?_⟩
  · rcases get_set hw hv with ⟨rfl, rfl⟩ | ⟨-, hv⟩
    · exact hto.serves (h.serves k w hw)
    · exact h.serves k v hv
  · have hor : c.attrs.started = true ∨ c.locked = some .setStarted := hto.started ▸ hor
    have hrunning := h.runs hor
    cases hto with
    | setRunning hpc => rfl
    | clearRunning hpc =>
      have hlt := Lookup.lt_length hw
      have hlast : g + 1 = c.workers.length := by
        by_contra hne
        have hstopped := hgen.old g w hw (by omega)
        simp [WorkerLife.stopped, hpc] at hstopped
      rw [hgen.running g w ⟨hw, hlast⟩] at hrunning
      have hdone : w.startup = .done := by simpa [WorkerLife.up, WorkerLife.stopped, hpc] using hrunning
      have hserving := (h.serves g w hw).2 hdone
      rw [hpc] at hserving
      cases hserving
    | _ => exact hrunning

theorem step (h : c.Alive) (hgen : c.Generations) (hclosing : c.ClosingClosed) (hc : c.keepsReceiving l = true)
    (hto : CoreTo c l c') (hopen : c'.attrs.closed = false) : c'.Alive := by
  have hbefore := hto.open_before hopen
  cases hto with
  | same => exact h
  | sendRaises => exact ⟨h.serves, h.runs⟩
  | goes hgo =>
    refine ⟨h.serves, fun hor => ?_⟩
    rcases hor with hs | hl
    · exact h.runs (.inl hs)
    · simp only at hl
      subst hl
      cases hgo with
      | acquire hfree hpc => rcases hpc with hpc | hpc <;> cases hpc
      | startup hl hw hdone => exact h.running hgen ⟨hw, hgen.waiting _ hl⟩ hdone
  | startThread hl =>
    refine ⟨fun k v hv => ?_, fun hor => ?_⟩
    · rcases Lookup.of_append hv with hv | ⟨-, rfl⟩
      · exact h.serves k v hv
      · exact ⟨rfl, fun hdone => nomatch hdone⟩
    · rcases hor with hs | hl
      · exact h.runs (.inl hs)
      · cases hl
  | setStarted hl hpc => exact ⟨h.serves, fun _ => h.runs (.inr hl)⟩
  | setClosed hl => cases hopen
  | closing hl hpc =>
    rw [hclosing _ hl hpc] at hbefore
    cases hbefore
  | worker hw hto => exact h.worker hgen hw hto
  | @workerFails g w pc hw hpc =>
    refine ⟨fun k v hv => ?_, h.runs⟩
    rcases get_set hw hv with ⟨rfl, rfl⟩ | ⟨-, hv⟩
    · have hpending : w.startup = .pending := by
        refine (hgen.fits k w hw).early ?_
        rcases hpc with ⟨hpc, -⟩ | ⟨hpc, -⟩ <;> simp [WorkerLife.early, hpc]
      exact ⟨(h.serves k w hw).1, fun hdone => by simp [hpending] at hdone⟩
    · exact h.serves k v hv
  | @ends g w l hl hw hpc =>
    have hreceiving := (h.serves g w hw).1
    rcases hl with rfl | rfl <;> simp [keepsReceiving, hw, hpc, hreceiving] at hc

end Alive

end ClientCore

/-- The call has not got past its check of `_started`. -/
def CallPc.idle : CallPc → Bool
  | .closed | .started | .rejected _ => true
  | _ => false

namespace Requests

variable {α : Type} {b : Requests α}

/-- Nothing was ever allocated. -/
structure Quiet (b : Requests α) : Prop where
  pending : ∀ reqId, b.tracker.pending.get? reqId = none
  calls : ∀ c ∈ b.calls, c.pc.idle = true

end Requests

namespace ThreadedClient

open Requests

variable {α : Type} {m : Msgspec} {s t : ThreadedClient α} {l : ThreadLabel α}

theorem Moves.idle {encodes : Bool} {pc pc' : CallPc} (hm : s.Moves encodes pc pc') (hs : s.attrs.started = false)
    (h : pc.idle = true) : pc'.idle = true := by
  cases hm with
  | closed | isClosed | isNotStarted => rfl
  | started hstarted =>
    rw [hs] at hstarted
    cases hstarted
  | _ => cases h

/-- Nothing is allocated before the transport was started. -/
theorem quiet_step (h : s.requests.Quiet) (hstarted : s.attrs.started = false) (hs : step m l s = some t) :
    t.requests.Quiet := by
  have hidle : ∀ {i : Nat} {c : RequestCall α}, s.requests.calls[i]? = some c → c.pc.idle = true :=
    fun hi => h.calls _ (List.mem_of_getElem? hi)
  have hto := step_requests hs
  generalize t.requests = b at hto
  cases hto with
  | same => exact h
  | addCall =>
    refine ⟨h.pending, fun c hmem => ?_⟩
    rcases List.mem_append.1 hmem with hmem | hmem
    · exact h.calls c hmem
    · rw [List.mem_singleton.1 hmem]
      rfl
  | moves hi hm =>
    refine ⟨h.pending, fun c hmem => ?_⟩
    rcases mem_setCall hmem with hmem | rfl
    · exact h.calls c hmem
    · exact hm.idle hstarted (hidle hi)
  | allocate hi hpc | addCallback hi hpc | pop hi hpc | setException hi hpc =>
    have hnot := hidle hi
    rw [hpc] at hnot
    cases hnot
  | @cancel f =>
    obtain ⟨callbacks, heq⟩ := cancelFuture_eq s.requests f
    rw [heq]
    exact ⟨h.pending, h.calls⟩
  | setCallback => exact ⟨h.pending, h.calls⟩
  | @cancelRequest k reqId encodes entry he =>
    rw [h.pending reqId] at he
    cases he
  | @resolve g reqId parts frames =>
    rcases resolve_cases m s.requests reqId frames with heq | ⟨entry, o, he, -⟩
    · rw [heq]
      exact h
    · rw [h.pending reqId] at he
      cases he
  | close => exact ⟨fun _ => rfl, h.calls⟩

/-- What is pending was pending, or is the new request. -/
theorem step_values (hs : step m l s = some t) {entry : PendingEntry α} (he : entry ∈ t.requests.tracker.pending.values) :
    entry ∈ s.requests.tracker.pending.values ∨ entry.future = s.requests.futures.length := by
  have hto := step_requests hs
  generalize t.requests = b at hto he
  cases hto with
  | allocate hi hpc ha =>
    obtain ⟨-, hpending, -⟩ := allocate_some ha
    simp only [Requests.setCall, hpending] at he
    rcases OrderedDict.mem_values_set he with he | rfl
    · exact .inl he
    · exact .inr rfl
  | @addCallback i reqId f encodes c hi hpc =>
    obtain ⟨callbacks, heq⟩ := addDoneCallback_eq s.requests f reqId
    rw [heq] at he
    exact .inl he
  | pop => exact .inl (OrderedDict.mem_values_erase he)
  | @cancel f =>
    obtain ⟨callbacks, heq⟩ := cancelFuture_eq s.requests f
    rw [heq] at he
    exact .inl he
  | @cancelRequest k reqId encodes entry' he' =>
    obtain ⟨callbacks, heq⟩ := cancelFuture_eq (s.requests.pop reqId) entry'.future
    rw [heq] at he
    exact .inl (OrderedDict.mem_values_erase he)
  | @resolve g reqId parts frames =>
    rcases resolve_cases m s.requests reqId frames with heq | ⟨entry', o, -, heq⟩
    · rw [heq] at he
      exact .inl he
    · rw [heq] at he
      exact .inl (OrderedDict.mem_values_erase he)
  | close => cases he
  | _ => exact .inl he

def isPending (s : ThreadedClient α) (f : Nat) : Bool := s.requests.tracker.pending.values.any (fun entry => entry.future = f)

/-- Every pending request can still be answered: its message was not dropped, and
the last worker receives. -/
structure NoOrphans (s : ThreadedClient α) : Prop where
  sent : ∀ f ∈ s.dropped, s.isPending f = false
  served : ∀ g w, s.core.IsLast g w → w.receiving = false ∨ w.pc.cleanedUp = true → s.requests.tracker.pending.keys = []
  running : s.attrs.running = true → ∃ g w, s.core.IsLast g w ∧ w.receiving = true ∧ w.pc.cleanedUp = false

/-- `send_multipart` does not raise for the message of a pending request. -/
def dropsNothing (s : ThreadedClient α) : ThreadLabel α → Bool
  | .sendRaises g =>
    match s.workers[g]? with
    | some { pc := .serving, sendLoop := .sending ⟨_, some f⟩, .. } => !s.isPending f
    | _ => true
  | _ => true

def keepsServing (s : ThreadedClient α) (l : ThreadLabel α) : Bool :=
  s.attrs.closed || (s.core.keepsReceiving l && s.dropsNothing l)

structure Serving (s : ThreadedClient α) : Prop where
  closing : s.core.ClosingClosed
  bounded : s.Bounded
  generations : s.attrs.closed = false → s.core.Generations
  alive : s.attrs.closed = false → s.core.Alive
  quiet : s.attrs.closed = false → s.attrs.started = false → s.requests.Quiet
  sent : s.attrs.closed = false → ∀ f ∈ s.dropped, s.isPending f = false

theorem serving_init (subscribeStreams : Bool) : (init subscribeStreams : ThreadedClient α).Serving where
  closing _ h := by cases h
  bounded := bounded_init subscribeStreams
  generations _ := ClientCore.generations_init
  alive _ := ClientCore.alive_init
  quiet _ _ := ⟨fun _ => rfl, fun _ h => by cases h⟩
  sent _ _ h := by cases h

theorem isPending_eq_false {f : Nat} :
    s.isPending f = false ↔ ∀ entry ∈ s.requests.tracker.pending.values, entry.future ≠ f := by
  simp [isPending]

theorem sent_step (hb : s.Bounded) (h : ∀ f ∈ s.dropped, s.isPending f = false) (hc : s.dropsNothing l = true)
    (hs : step m l s = some t) : ∀ f ∈ t.dropped, t.isPending f = false := by
  intro f hmem
  refine isPending_eq_false.2 (fun entry he => ?_)
  rcases step_dropped hs with hsame | ⟨g, w, ⟨reqId, request⟩, rfl, hw, hpc, hsending, hdropped, hrequests⟩
  · have hmem : f ∈ s.dropped := hsame ▸ hmem
    have hlt := hb.dropped f hmem
    rcases step_values hs he with he | hnew
    · exact isPending_eq_false.1 (h f hmem) entry he
    · omega
  · rw [hrequests] at he
    rw [hdropped] at hmem
    rcases List.mem_append.1 hmem with hmem | hmem
    · exact isPending_eq_false.1 (h f hmem) entry he
    · obtain rfl := Option.mem_toList.1 hmem
      obtain ⟨pc, startup, ready, queue, sendLoop, receiving⟩ := w
      cases hpc
      cases hsending
      have hnot : s.isPending f = false := by simpa [dropsNothing, hw] using hc
      exact isPending_eq_false.1 hnot entry he

theorem Serving.step (h : s.Serving) (hc : s.keepsServing l = true) (hs : step m l s = some t) : t.Serving := by
  have hcore := step_core hs
  have hbefore : t.attrs.closed = false → s.attrs.closed = false := hcore.open_before
  have hguard : t.attrs.closed = false → s.core.keepsReceiving l = true ∧ s.dropsNothing l = true := by
    intro hopen
    simpa [keepsServing, hbefore hopen] using hc
  refine ⟨hcore.closingClosed h.closing, h.bounded.step hs, fun hopen => ?_, fun hopen => ?_, fun hopen hstarted => ?_,
    fun hopen => ?_⟩
  · exact (h.generations (hbefore hopen)).step h.closing hcore hopen
  · exact (h.alive (hbefore hopen)).step (h.generations (hbefore hopen)) h.closing (hguard hopen).1 hcore hopen
  · have hnot : s.attrs.started = false := by
      by_contra hs
      have hmono : t.attrs.started = true := hcore.started_mono h.closing hopen (Bool.eq_true_of_not_eq_false hs)
      rw [hstarted] at hmono
      cases hmono
    exact quiet_step (h.quiet (hbefore hopen) hnot) hnot hs
  · exact sent_step h.bounded (h.sent (hbefore hopen)) (hguard hopen).2 hs

theorem Serving.noOrphans (h : s.Serving) (hopen : s.attrs.closed = false) : s.NoOrphans := by
  have hgen := h.generations hopen
  have halive := h.alive hopen
  have hup : ∀ g w, s.core.IsLast g w → s.attrs.running = true → w.pc.cleanedUp = false := by
    intro g w hlast hrunning
    rw [show s.attrs.running = w.up from hgen.running g w hlast] at hrunning
    by_cases hpc : w.pc = .startupResult
    · rw [hpc]
      rfl
    · have hdone : w.startup = .done := by
        by_contra hne
        simp [WorkerLife.up, hpc, hne] at hrunning
      rw [(halive.serves g w hlast.1).2 hdone]
      rfl
  refine ⟨h.sent hopen, fun g w hlast hor => ?_, fun hrunning => ?_⟩
  · rcases hor with hor | hor
    · rw [(halive.serves g w hlast.1).1] at hor
      cases hor
    · have hnot : s.attrs.started = false := by
        by_contra hs
        have hrunning := halive.runs (.inl (Bool.eq_true_of_not_eq_false hs))
        rw [hup g w hlast hrunning] at hor
        cases hor
      exact OrderedDict.keys_eq_nil (h.quiet hopen hnot).pending
  · have hsome : s.core.workers ≠ [] := fun hnil => by
      rw [show s.attrs.running = false from hgen.none hnil] at hrunning
      cases hrunning
    have hlen := List.length_pos_iff.2 hsome
    have hlast : s.core.IsLast (s.core.workers.length - 1) _ :=
      ⟨List.getElem?_eq_getElem (by omega), by omega⟩
    exact ⟨_, _, hlast, (halive.serves _ _ hlast.1).1, hup _ _ hlast hrunning⟩

/-- A serving worker that no longer receives leaves `_running` set. -/
theorem Serving.orphans {g : Nat} {w : Worker} (h : s.Serving) (hopen : s.attrs.closed = false)
    (hw : s.workers[g]? = some w) (hpc : w.pc = .serving)
    (ht : t.core = { s.core with workers := s.core.workers.set g { w.life with receiving := false } }) :
    ¬ (t.attrs.closed = false → t.NoOrphans) := by
  intro hno
  have hgen := h.generations hopen
  have hlife := core_worker hw
  have hattrs : t.attrs = s.attrs := congrArg ClientCore.attrs ht
  have hlast : s.core.IsLast g w.life := by
    refine ⟨hlife, ?_⟩
    have hlt := Lookup.lt_length hlife
    by_contra hne
    have hstopped := hgen.old g w.life hlife (by omega)
    simp [WorkerLife.stopped, Worker.life, hpc] at hstopped
  have hrunning := (h.alive hopen).running hgen hlast ((hgen.fits g _ hlife).serving hpc)
  obtain ⟨k, v, hlast', hreceiving, -⟩ := (hno (hattrs ▸ hopen)).running (hattrs ▸ hrunning)
  rw [ht] at hlast'
  rcases hlast'.set hlife rfl with ⟨-, rfl, -⟩ | ⟨hne, hwas⟩
  · cases hreceiving
  · have hlen := hwas.2
    have hlen' := hlast.2
    omega

theorem Serving.breaks (h : s.Serving) (hc : ¬ s.keepsServing l = true) :
    ∃ t, ThreadedClient.step m l s = some t ∧ ¬ (t.attrs.closed = false → t.NoOrphans) := by
  have hopen : s.attrs.closed = false := by
    by_contra hclosed
    simp [keepsServing, hclosed] at hc
  have hor : s.core.keepsReceiving l = false ∨ s.dropsNothing l = false := by
    by_contra hno
    simp only [not_or, Bool.not_eq_false] at hno
    exact hc (by simp [keepsServing, hno.1, hno.2])
  rcases hor with hreceiving | hdrops
  · cases l with
    | aborted g =>
      cases hw : s.workers[g]? with
      | none => simp [ClientCore.keepsReceiving, core, hw] at hreceiving
      | some w =>
        have hpc : w.life.pc = .serving := by simpa [ClientCore.keepsReceiving, core_worker hw] using hreceiving
        have hs : stepAborted g s = some (s.modifyWorker g (fun w => { w with sendLoop := .ended, receiving := false })) :=
          whileServing_eq hw hpc
        exact ⟨_, hs, h.orphans hopen hw hpc (core_modifyWorker_set hw)⟩
    | receiveEnds g =>
      cases hw : s.workers[g]? with
      | none => simp [ClientCore.keepsReceiving, core, hw] at hreceiving
      | some w =>
        have hpc : w.life.pc = .serving ∧ w.life.receiving = true := by
          simpa [ClientCore.keepsReceiving, core_worker hw] using hreceiving
        have hs : stepReceiveEnds g s = some (s.modifyWorker g (fun w => { w with receiving := false })) := by
          rw [stepReceiveEnds, whileServing_eq hw hpc.1]
          exact if_pos hpc.2
        exact ⟨_, hs, h.orphans hopen hw hpc.1 (core_modifyWorker_set hw)⟩
    | _ => cases hreceiving
  · cases l with
    | sendRaises g =>
      simp only [dropsNothing] at hdrops
      split at hdrops
      · next startup ready queue reqId f receiving hw =>
        have hs : stepSendRaises g s =
            some { s.modifyWorker g (fun w => { w with sendLoop := .top }) with dropped := s.dropped ++ [f] } :=
          whileServing_eq hw rfl
        refine ⟨_, hs, fun hno => ?_⟩
        have hpending : s.isPending f = true := by simpa using hdrops
        have hsent := (hno hopen).sent f (List.mem_append_right _ List.mem_cons_self)
        exact absurd (hsent.symm.trans hpending) Bool.false_ne_true
      · cases hdrops
    | _ => cases hdrops

end ThreadedClient

open ThreadedClient

/-- An open transport leaves no request unanswerable exactly if the tasks of its
serving worker go on and no message of a pending request is dropped. -/
theorem no_orphaned_requests {α : Type} {m : Msgspec} {subscribeStreams : Bool} {ls : List (ThreadLabel α)} :
    Runs.Always (ThreadedClient.step m) (fun s => s.attrs.closed = false → s.NoOrphans) ls (init subscribeStreams) ↔
      Runs.Guarded (ThreadedClient.step m) (fun s l => s.keepsServing l = true) ls (init subscribeStreams) :=
  Runs.always_iff_guarded (I := Serving) (fun _ h => h.noOrphans) (fun _ _ _ h hc hs => h.step hc hs)
    (fun _ _ h hc => h.breaks hc) (serving_init subscribeStreams)

/-- The message of a request is dropped, then the receive loop ends. -/
def unanswered : List (ThreadLabel Unit) :=
  starts ++ [.request (fun _ => .ok ())] ++ List.replicate 15 (.call 0 true) ++
    [.runReady 0, .sendLoop 0, .sendLoop 0, .sendRaises 0, .receiveEnds 0]

theorem request_orphaned :
    ∃ s, Runs.run (ThreadedClient.step (.table [] [])) unanswered (init false) = some s ∧ s.attrs.closed = false ∧
      s.attrs.started = true ∧ s.attrs.running = true ∧ s.dropped = [0] ∧ s.requests.tracker.pending.keys = [1] ∧
        s.workers.map Worker.receiving = [false] ∧ ¬ s.NoOrphans := by
  have hfinal : (Runs.run (ThreadedClient.step (.table [] [])) unanswered (init false)).map (fun s => (s.attrs, s.dropped,
      s.requests.tracker.pending.keys, s.isPending 0, s.workers.map Worker.receiving)) =
      some (⟨false, true, true, true, some 0, some 0, some 0⟩, [0], [1], true, [false]) := by decide
  obtain ⟨s, hs, heq⟩ := Option.map_eq_some_iff.1 hfinal
  simp only [Prod.mk.injEq] at heq
  obtain ⟨hattrs, hdropped, hkeys, hpending, hreceiving⟩ := heq
  refine ⟨s, hs, by rw [hattrs], by rw [hattrs], by rw [hattrs], hdropped, hkeys, hreceiving, fun h => ?_⟩
  have hsent := h.sent 0 (by rw [hdropped]; exact List.mem_cons_self)
  rw [hpending] at hsent
  cases hsent

end VsRemote
