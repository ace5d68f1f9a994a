import VsRemote.ClientSteps

/-! The messages on their way through the workers: each carries the future of a
request that has one. -/

namespace VsRemote

/-- The future of the tracker that the call holds or has returned. -/
def CallPc.future? : CallPc → Option Nat
  | .addCallback _ f | .encode _ f | .send _ _ f | .pop _ _ f | .setException _ f | .sent f _ | .unsent _ f => some f
  | _ => none

def SendLoopPc.message? : SendLoopPc → Option OutMessage
  | .sending message => some message
  | _ => none

/-- What the worker has scheduled, queued and is sending. -/
def Worker.messages (w : Worker) : List OutMessage := w.sendLoop.message?.toList ++ w.queue ++ w.ready.map Prod.snd

namespace ThreadedClient

variable {α : Type} {m : Msgspec} {s t : ThreadedClient α} {l : ThreadLabel α} {g : Nat} {message : OutMessage}

def Carried (s : ThreadedClient α) (message : OutMessage) : Prop := ∃ w ∈ s.workers, message ∈ w.messages

/-- The message of a call that hands it over, or one of no request. -/
def New (s : ThreadedClient α) (message : OutMessage) : Prop :=
  message.request = none ∨ ∃ c ∈ s.requests.calls, c.pc.future? = message.request

theorem Carried.of_modify {f : Worker → Worker} {P : Prop} (h : (s.modifyWorker g f).Carried message)
    (hold : s.Carried message → P) (hnew : ∀ w, s.workers[g]? = some w → message ∈ (f w).messages → P) : P := by
  obtain ⟨w', hw', hmem⟩ := h
  obtain ⟨k, hk⟩ := List.mem_iff_getElem?.1 hw'
  obtain ⟨w, hw, ⟨rfl, rfl⟩ | ⟨-, rfl⟩⟩ := Lookup.of_modify hk
  · exact hnew w hw hmem
  · exact hold ⟨_, List.mem_of_getElem? hw, hmem⟩

theorem mem_messages {w : Worker} : message ∈ w.messages ↔
    w.sendLoop.message? = some message ∨ message ∈ w.queue ∨ message ∈ w.ready.map Prod.snd := by
  simp [Worker.messages]

/-- A worker that keeps its messages or loses some. -/
theorem Carried.of_shrink {f : Worker → Worker} (h : (s.modifyWorker g f).Carried message)
    (hf : ∀ w, (f w).messages ⊆ w.messages) : s.Carried message :=
  h.of_modify id (fun w hw hmem => ⟨w, List.mem_of_getElem? hw, hf w hmem⟩)

theorem callSoon_messages {q : Nat} {sent : OutMessage} (h : (s.callSoon g q sent).Carried message) :
    s.Carried message ∨ message = sent := by
  refine Carried.of_modify h .inl (fun w hw hmem => ?_)
  have hw := List.mem_of_getElem? hw
  rcases mem_messages.1 hmem with hmem | hmem | hmem
  · exact .inl ⟨w, hw, mem_messages.2 (.inl hmem)⟩
  · exact .inl ⟨w, hw, mem_messages.2 (.inr (.inl hmem))⟩
  · rw [List.map_append, List.mem_append] at hmem
    rcases hmem with hmem | hmem
    · exact .inl ⟨w, hw, mem_messages.2 (.inr (.inr hmem))⟩
    · exact .inr (List.mem_singleton.1 hmem)

theorem stepRunReady_messages (hs : stepRunReady g s = some t) (h : t.Carried message) : s.Carried message := by
  obtain ⟨w, hw, hpc, hs⟩ := whileServing_some hs
  split at hs
  · cases hs
  · next q head ready hready =>
    obtain rfl := Option.some.inj hs
    have hhead : ∀ message, message = head ∨ message ∈ ready.map Prod.snd → s.Carried message := by
      intro message hor
      refine ⟨w, List.mem_of_getElem? hw, mem_messages.2 (.inr (.inr ?_))⟩
      rw [hready]
      exact List.mem_cons.2 hor
    have htaken : ∀ {message}, (s.modifyWorker g (fun w => { w with ready := ready })).Carried message →
        s.Carried message := by
      intro message hc
      refine hc.of_modify id (fun w₁ hw₁ hmem => ?_)
      have hw₁ := List.mem_of_getElem? hw₁
      rcases mem_messages.1 hmem with hmem | hmem | hmem
      · exact ⟨w₁, hw₁, mem_messages.2 (.inl hmem)⟩
      · exact ⟨w₁, hw₁, mem_messages.2 (.inr (.inl hmem))⟩
      · exact hhead message (.inr hmem)
    refine h.of_modify htaken (fun w₁ hw₁ hmem => ?_)
    have hw₁ := List.mem_of_getElem? hw₁
    rcases mem_messages.1 hmem with hmem | hmem | hmem
    · exact htaken ⟨w₁, hw₁, mem_messages.2 (.inl hmem)⟩
    · rcases List.mem_append.1 hmem with hmem | hmem
      · exact htaken ⟨w₁, hw₁, mem_messages.2 (.inr (.inl hmem))⟩
      · exact hhead message (.inl (List.mem_singleton.1 hmem))
    · exact htaken ⟨w₁, hw₁, mem_messages.2 (.inr (.inr hmem))⟩

theorem stepSendLoop_messages (hs : stepSendLoop g s = some t) (h : t.Carried message) : s.Carried message := by
  obtain ⟨w, hw, hpc, hs⟩ := whileServing_some hs
  have leaves : ∀ pc : SendLoopPc, (∀ sent, pc.message? = some sent → s.Carried sent) →
      (s.modifyWorker g (fun w => { w with sendLoop := pc })).Carried message → s.Carried message := by
    intro pc hpc hc
    refine hc.of_modify id (fun w₁ hw₁ hmem => ?_)
    have hw₁ := List.mem_of_getElem? hw₁
    rcases mem_messages.1 hmem with hmem | hmem | hmem
    · exact hpc message hmem
    · exact ⟨w₁, hw₁, mem_messages.2 (.inr (.inl hmem))⟩
    · exact ⟨w₁, hw₁, mem_messages.2 (.inr (.inr hmem))⟩
  simp only at hs
  split at hs
  · split at hs
    · obtain rfl := Option.some.inj hs
      refine leaves _ (fun message hm => ?_) h
      split at hm <;> cases hm
    · exact leaves .ended (fun _ hm => nomatch hm) (Option.some.inj hs ▸ h)
  · split at hs
    · next q head queue hqueue =>
      obtain rfl := Option.some.inj hs
      obtain ⟨v, hv, hvqueue⟩ := Option.map_eq_some_iff.1 hqueue
      have hhead : s.Carried head :=
        ⟨v, List.mem_of_getElem? hv, mem_messages.2 (.inr (.inl (hvqueue ▸ List.mem_cons_self)))⟩
      have htaken := leaves (if s.attrs.running = true then .sending head else .ended) (fun message hm => by
        split at hm <;> cases hm
        exact hhead)
      refine h.of_modify htaken (fun w₁ hw₁ hmem => ?_)
      have hqueue₁ : w₁.queue = head :: queue := by
        obtain ⟨w₀, hw₀, ⟨-, rfl⟩ | ⟨-, rfl⟩⟩ := Lookup.of_modify hw₁
        · rw [hw₀] at hv
          exact Option.some.inj hv ▸ hvqueue
        · rw [hw₀] at hv
          exact Option.some.inj hv ▸ hvqueue
      have hw₁ := List.mem_of_getElem? hw₁
      rcases mem_messages.1 hmem with hmem | hmem | hmem
      · exact htaken ⟨w₁, hw₁, mem_messages.2 (.inl hmem)⟩
      · exact htaken ⟨w₁, hw₁, mem_messages.2 (.inr (.inl (hqueue₁ ▸ List.mem_cons_of_mem _ hmem)))⟩
      · exact htaken ⟨w₁, hw₁, mem_messages.2 (.inr (.inr hmem))⟩
    · cases hs
  · exact leaves .top (fun _ hm => nomatch hm) (Option.some.inj hs ▸ h)
  · cases hs

theorem stepCall_messages {i : Nat} {encodes : Bool} (hs : stepCall i encodes s = some t) (h : t.Carried message) :
    s.Carried message ∨ s.New message := by
  obtain ⟨c, hi, hs⟩ := Option.bind_eq_some_iff.1 hs
  split at hs
  case h_4 =>
    obtain ⟨⟨reqId, b⟩, ha, hs⟩ := Option.bind_eq_some_iff.1 hs
    obtain rfl := Option.some.inj hs
    exact .inl h
  case h_7 pc reqId f hpc =>
    split at hs
    case h_4 g q hsend =>
      obtain rfl := Option.some.inj hs
      have hcarried : (s.callSoon g q ⟨reqId, some f⟩).Carried message := h
      rcases callSoon_messages hcarried with hold | rfl
      · exact .inl hold
      · refine .inr (.inr ⟨c, List.mem_of_getElem? hi, ?_⟩)
        rw [hpc]
        rfl
    all_goals
      obtain rfl := Option.some.inj hs
      exact .inl h
  all_goals first
    | (obtain rfl := Option.some.inj hs
       exact .inl h)
    | cases hs

theorem stepCallback_messages {k : Nat} {encodes : Bool} (hs : stepCallback k encodes s = some t)
    (h : t.Carried message) : s.Carried message ∨ s.New message := by
  obtain ⟨c, hk, hs⟩ := Option.bind_eq_some_iff.1 hs
  split at hs
  case h_1 =>
    split at hs
    all_goals
      obtain rfl := Option.some.inj hs
      exact .inl h
  case h_5 pc hpc =>
    split at hs
    case h_4 g q hsend =>
      obtain rfl := Option.some.inj hs
      have hcarried : (s.callSoon g q ⟨0, none⟩).Carried message := h
      rcases callSoon_messages hcarried with hold | rfl
      · exact .inl hold
      · exact .inr (.inl rfl)
    all_goals
      obtain rfl := Option.some.inj hs
      exact .inl h
  all_goals first
    | (obtain rfl := Option.some.inj hs
       exact .inl h)
    | cases hs

theorem stepLocked_messages (hs : stepLocked s = some t) (h : t.Carried message) : s.Carried message := by
  unfold stepLocked at hs
  split at hs
  case h_5 =>
    obtain rfl := Option.some.inj hs
    obtain ⟨w, hw, hmem⟩ := h
    rcases List.mem_append.1 hw with hw | hw
    · exact ⟨w, hw, hmem⟩
    · rw [List.mem_singleton.1 hw] at hmem
      cases hmem
  case h_13 =>
    obtain rfl := Option.some.inj hs
    have hcarried : (s.modifyWorker (s.workers.length - 1) (fun w =>
        { w with startup := if w.startup = .pending then .cancelled else w.startup })).Carried message := h
    exact hcarried.of_shrink (fun w => List.Subset.refl _)
  all_goals try split at hs
  all_goals first
    | (obtain rfl := Option.some.inj hs
       exact h)
    | cases hs

theorem stepWorker_messages (hs : stepWorker g s = some t) (h : t.Carried message) : s.Carried message := by
  obtain ⟨w, hw, hs⟩ := Option.bind_eq_some_iff.1 hs
  split at hs
  all_goals try split at hs
  all_goals first
    | (obtain rfl := Option.some.inj hs
       exact Carried.of_shrink h (fun w => List.Subset.refl _))
    | cases hs

/-- Only calls and callbacks put messages on their way. -/
theorem step_messages (hs : step m l s = some t) (h : t.Carried message) : s.Carried message ∨ s.New message := by
  cases l with
  | request decode =>
    obtain rfl := Option.some.inj hs
    exact .inl h
  | call i encodes => exact stepCall_messages hs h
  | cancel f =>
    simp only [step, stepCancel] at hs
    split at hs
    · obtain rfl := Option.some.inj hs
      exact .inl h
    · cases hs
  | callback k encodes => exact stepCallback_messages hs h
  | start | close =>
    simp only [step, stepAcquire] at hs
    split at hs
    · obtain rfl := Option.some.inj hs
      exact .inl h
    · cases hs
  | locked => exact .inl (stepLocked_messages hs h)
  | timeout =>
    simp only [step, stepTimeout] at hs
    split at hs
    · split at hs
      · obtain rfl := Option.some.inj hs
        exact .inl h
      · cases hs
    · cases hs
  | subscribe decode =>
    simp only [step, stepSubscribe] at hs
    split at hs
    · obtain rfl := Option.some.inj hs
      exact .inl h
    · cases hs
  | worker g => exact .inl (stepWorker_messages hs h)
  | workerFails g =>
    obtain ⟨w, hw, hs⟩ := Option.bind_eq_some_iff.1 hs
    simp only at hs
    split at hs
    · obtain rfl := Option.some.inj hs
      exact .inl (Carried.of_shrink h (fun w => List.Subset.refl _))
    · obtain rfl := Option.some.inj hs
      exact .inl (Carried.of_shrink h (fun w => List.Subset.refl _))
    · cases hs
  | aborted g =>
    obtain ⟨w, hw, hpc, hs⟩ := whileServing_some hs
    obtain rfl := Option.some.inj hs
    refine .inl (Carried.of_shrink h (fun w message hmem => ?_))
    rcases mem_messages.1 hmem with hmem | hmem
    · cases hmem
    · exact mem_messages.2 (.inr hmem)
  | runReady g => exact .inl (stepRunReady_messages hs h)
  | sendLoop g => exact .inl (stepSendLoop_messages hs h)
  | sendRaises g =>
    obtain ⟨w, hw, hpc, hs⟩ := whileServing_some hs
    split at hs
    · obtain rfl := Option.some.inj hs
      have hcarried : (s.modifyWorker g (fun w => { w with sendLoop := .top })).Carried message := h
      refine .inl (hcarried.of_shrink (fun w message hmem => ?_))
      rcases mem_messages.1 hmem with hmem | hmem
      · cases hmem
      · exact mem_messages.2 (.inr hmem)
    · cases hs
  | receive g parts =>
    obtain ⟨w, hw, hpc, hs⟩ := whileServing_some hs
    split at hs
    · split at hs
      · obtain rfl := Option.some.inj hs
        exact .inl h
      · split at hs
        all_goals
          obtain rfl := Option.some.inj hs
          exact .inl h
    · cases hs
  | receiveEnds g =>
    obtain ⟨w, hw, hpc, hs⟩ := whileServing_some hs
    split at hs
    · obtain rfl := Option.some.inj hs
      exact .inl (Carried.of_shrink h (fun w => List.Subset.refl _))
    · cases hs

theorem Moves.future? {encodes : Bool} {pc pc' : CallPc} {f : Nat} (hm : s.Moves encodes pc pc')
    (hf : pc'.future? = some f) : pc.future? = some f := by
  cases hm with
  | encoded | next | fails | handedOver => exact hf
  | _ => cases hf

/-- The send loop drops the message it was sending. -/
theorem step_dropped (hs : step m l s = some t) : t.dropped = s.dropped ∨
    ∃ g w message, l = .sendRaises g ∧ s.workers[g]? = some w ∧ w.pc = .serving ∧ w.sendLoop = .sending message ∧
      t.dropped = s.dropped ++ message.request.toList ∧ t.requests = s.requests := by
  have hcore := step_core hs
  generalize hc : t.core = c at hcore
  have hdropped : t.dropped = c.dropped := hc ▸ rfl
  rw [hdropped]
  cases hcore with
  | closing hl hpc heq hd => exact .inl hd
  | @sendRaises g dropped =>
    obtain ⟨w, hw, hpc, hs⟩ := whileServing_some hs
    split at hs
    · next message hsending =>
      obtain rfl := Option.some.inj hs
      exact .inr ⟨g, w, message, rfl, hw, hpc, hsending, congrArg ClientCore.dropped hc.symm, rfl⟩
    · cases hs
  | _ => exact .inl rfl

/-- Every future named by a call or a message is one of the tracker. -/
structure Bounded (s : ThreadedClient α) : Prop where
  calls : ∀ c ∈ s.requests.calls, ∀ f, c.pc.future? = some f → f < s.requests.futures.length
  messages : ∀ message, s.Carried message → ∀ f, message.request = some f → f < s.requests.futures.length
  dropped : ∀ f ∈ s.dropped, f < s.requests.futures.length

theorem bounded_init (subscribeStreams : Bool) : (init subscribeStreams : ThreadedClient α).Bounded where
  calls _ h := by cases h
  messages _ h := by cases h.choose_spec.1
  dropped _ h := by cases h

theorem CallTo.bounded {encodes : Bool} {b : Requests α} {pc pc' : CallPc} {f : Nat} (h : CallTo s encodes b pc pc')
    (hgrows : s.requests.Grows b) (hpc : ∀ f, pc.future? = some f → f < s.requests.futures.length)
    (hf : pc'.future? = some f) : f < b.futures.length := by
  cases h with
  | moves hm => exact hgrows.length (hpc f (hm.future? hf))
  | allocate hlt =>
    obtain rfl := Option.some.inj hf
    exact hlt
  | addCallback | pop | setException => exact hgrows.length (hpc f hf)

theorem Bounded.step_calls (h : s.Bounded) (hs : step m l s = some t) :
    ∀ c ∈ t.requests.calls, ∀ f, c.pc.future? = some f → f < t.requests.futures.length := by
  intro c hc f hf
  rcases step_call hs hc with hold | hclosed | ⟨i, encodes, c₀, rfl, hi, hcall⟩
  · exact (step_grows hs).length (h.calls c hold f hf)
  · rw [hclosed] at hf
    cases hf
  · exact hcall.bounded (step_grows hs) (h.calls c₀ (List.mem_of_getElem? hi)) hf

theorem Bounded.step (h : s.Bounded) (hs : step m l s = some t) : t.Bounded := by
  have hlength : ∀ {f}, f < s.requests.futures.length → f < t.requests.futures.length := (step_grows hs).length
  refine ⟨h.step_calls hs, fun message hcarried f hf => hlength ?_, fun f hmem => hlength ?_⟩
  · rcases step_messages hs hcarried with hold | hnone | ⟨c, hc, heq⟩
    · exact h.messages message hold f hf
    · rw [hf] at hnone
      cases hnone
    · exact h.calls c hc f (heq.trans hf)
  · rcases step_dropped hs with hsame | ⟨g, w, message, -, hw, -, hsending, hdropped, -⟩
    · exact h.dropped f (hsame ▸ hmem)
    · rw [hdropped] at hmem
      rcases List.mem_append.1 hmem with hmem | hmem
      · exact h.dropped f hmem
      · have hcarried : s.Carried message :=
          ⟨w, List.mem_of_getElem? hw, mem_messages.2 (.inl (by rw [hsending]; rfl))⟩
        exact h.messages message hcarried f (Option.mem_toList.1 hmem)

end ThreadedClient

end VsRemote
