import VsRemote.EventStream
import VsRemote.Lib.Lookup

/-! What has been sent and what is still to be sent: the ledger of the messages
of a run. Every event is sent live to a client at most once. -/

namespace VsRemote

/-- The messages the sender has not put on the socket. -/
def Sender.outbox (sd : Sender) : List (Bytes × Payload) :=
  if sd.put then sd.todo.tail else sd.todo

namespace EventStream

/-- What was sent, and what the senders are to send. -/
def ledger (s : EventStream) : List (Bytes × Payload) := s.sent ++ s.senders.flatMap Sender.outbox

/-- The events that were broadcast, in order. -/
def broadcasts (s : EventStream) : List Nat := s.senders.filterMap Sender.event

/-- The messages a step gives the senders to send. -/
def adds (s : EventStream) : StreamLabel → List (Bytes × Payload)
  | .broadcast order =>
    match s.calls with
    | e :: _ => if s.running = false ∨ s.subscribers = [] then [] else order.map (fun identity => (identity, .live e))
    | [] => []
  | .subscribe identity _ | .unsubscribe identity | .reply identity => [(identity, .reply)]
  | .readHistory =>
    match s.blocked.bind (fun t => s.senders[t]?.bind Sender.replay) with
    | some identity => s.history.map (fun e => (identity, .history e))
    | none => []
  | _ => []

variable {s s' : EventStream} {l : StreamLabel} {t : Nat} {sd : Sender} {m : Bytes × Payload}

/-- What a step does, with what it found. -/
inductive StepTo (s : EventStream) : StreamLabel → EventStream → Prop
  | load (hfree : s.loading = false) : StepTo s .load { s with loading := true, history := [] }
  | emit {captured : Bool} :
      StepTo s (.emit captured) { s with
        next := s.next + 1
        calls := if s.running then s.calls ++ [s.next] else s.calls
        capturing := if captured then s.capturing ++ [s.next] else s.capturing }
  | append {e : Nat} (he : e ∈ s.capturing) :
      StepTo s (.append e) { s with capturing := s.capturing.erase e, history := remember s.history e }
  | loadEnd : StepTo s .loadEnd { s with loading := false }
  | dropped {order : List Bytes} {e : Nat} {calls : List Nat} (hfree : s.blocked = none) (hcalls : s.calls = e :: calls)
      (hdrop : s.running = false ∨ s.subscribers = []) : StepTo s (.broadcast order) { s with calls := calls }
  | broadcast {order : List Bytes} {e : Nat} {calls : List Nat} (hfree : s.blocked = none)
      (hcalls : s.calls = e :: calls) (hlive : ¬ (s.running = false ∨ s.subscribers = [])) (hperm : order.Perm s.subscribers) :
      StepTo s (.broadcast order) { s with
        calls := calls
        senders := s.senders ++
          [{ event := some e, todo := order.map (fun identity => (identity, .live e)), started := false }] }
  | start {t : Nat} {sd : Sender} (hfree : s.blocked = none) (ht : s.senders[t]? = some sd) (hstart : sd.started = false)
      (hfirst : (s.senders.take t).all Sender.started = true) :
      StepTo s (.start t) { s.modifySender t (fun sd => { sd with started := true }) with
        queue := if sd.todo = [] then s.queue else s.queue ++ [t] }
  | subscribe {identity : Bytes} {replayHistory : Bool} (hfree : s.blocked = none) :
      StepTo s (.subscribe identity replayHistory) (addHandler { s with
        subscribers := if s.subscribers.contains identity then s.subscribers else s.subscribers ++ [identity] }
          identity (if replayHistory then some identity else none))
  | unsubscribe {identity : Bytes} (hfree : s.blocked = none) :
      StepTo s (.unsubscribe identity)
        (addHandler { s with subscribers := s.subscribers.filter (· ≠ identity) } identity none)
  | reply {identity : Bytes} (hfree : s.blocked = none) : StepTo s (.reply identity) (s.addHandler identity none)
  | put {t : Nat} {sd : Sender} {message : Bytes × Payload} {rest : List (Bytes × Payload)} {queue : List Nat}
      (hfree : s.blocked = none) (ht : s.senders[t]? = some sd) (htodo : sd.todo = message :: rest) (hhead : s.queue = t :: queue)
      (hput : sd.put = false) :
      StepTo s (.put t) { s.modifySender t (fun sd => { sd with put := true }) with sent := s.sent ++ [message] }
  | finish {t : Nat} {sd : Sender} {queue : List Nat} (hfree : s.blocked = none) (ht : s.senders[t]? = some sd)
      (hhead : s.queue = t :: queue) (hput : sd.put = true) :
      StepTo s (.finish t) { s.modifySender t (fun sd => { sd with todo := sd.todo.tail, put := false }) with
        queue := if sd.todo.tail = [] then queue else queue ++ [t]
        blocked := if sd.todo.tail = [] ∧ sd.replay.isSome ∧ sd.read = false then some t else none }
  | readHistory {t : Nat} {sd : Sender} {identity : Bytes} (hblocked : s.blocked = some t)
      (ht : s.senders[t]? = some sd) (hreplay : sd.replay = some identity) :
      StepTo s .readHistory { s.modifySender t (fun sd =>
          { sd with todo := s.history.map (fun e => (identity, Payload.history e)), read := true }) with
        queue := if s.history = [] then s.queue else s.queue ++ [t]
        blocked := none }
  | ends {t : Nat} (hfree : s.blocked = none) :
      StepTo s (.ends t) { s.modifySender t (fun sd => { sd with todo := [], put := false }) with
        queue := s.queue.erase t }
  | stop (hfree : s.blocked = none) : StepTo s .stop { s with running := false, subscribers := [] }

theorem step_to (hs : step l s = some s') : StepTo s l s' := by
  cases l with
  | load =>
    simp only [step, stepLoad] at hs
    split at hs
    · cases hs
    · next hfree => exact Option.some.inj hs ▸ .load (Bool.eq_false_iff.2 hfree)
  | emit captured =>
    simp only [step, stepEmit] at hs
    split at hs
    · exact Option.some.inj hs ▸ .emit
    · cases hs
  | append e =>
    simp only [step, stepAppend] at hs
    split at hs
    · next he => exact Option.some.inj hs ▸ .append he
    · cases hs
  | loadEnd =>
    simp only [step, stepLoadEnd] at hs
    split at hs
    · exact Option.some.inj hs ▸ .loadEnd
    · cases hs
  | broadcast order =>
    simp only [step, stepBroadcast] at hs
    split at hs
    · cases hs
    · next e calls hcalls =>
      split at hs
      · cases hs
      · next hfree =>
        have hfree : s.blocked = none := Option.not_isSome_iff_eq_none.1 hfree
        split at hs
        · next hdrop => exact Option.some.inj hs ▸ .dropped hfree hcalls hdrop
        · next hlive =>
          split at hs
          · next hperm => exact Option.some.inj hs ▸ .broadcast hfree hcalls hlive hperm
          · cases hs
  | start t =>
    simp only [step, stepStart, Option.bind_eq_bind, Option.bind_eq_some_iff] at hs
    obtain ⟨sd, ht, hs⟩ := hs
    split at hs
    · next hc => exact Option.some.inj hs ▸ .start hc.1 ht hc.2.1 hc.2.2
    · cases hs
  | subscribe identity replayHistory =>
    simp only [step, stepSubscribe] at hs
    split at hs
    · next hfree => exact Option.some.inj hs ▸ .subscribe hfree
    · cases hs
  | unsubscribe identity =>
    simp only [step, stepUnsubscribe] at hs
    split at hs
    · next hfree => exact Option.some.inj hs ▸ .unsubscribe hfree
    · cases hs
  | reply identity =>
    simp only [step, stepReply] at hs
    split at hs
    · next hfree => exact Option.some.inj hs ▸ .reply hfree
    · cases hs
  | put t =>
    simp only [step, stepPut, Option.bind_eq_bind, Option.bind_eq_some_iff] at hs
    obtain ⟨sd, ht, hs⟩ := hs
    split at hs
    · cases hs
    · next message rest htodo =>
      split at hs
      · next hc =>
        obtain ⟨queue, hhead⟩ := List.head?_eq_some_iff.1 hc.2.1
        exact Option.some.inj hs ▸ .put hc.1 ht htodo hhead hc.2.2
      · cases hs
  | finish t =>
    simp only [step, stepFinish, Option.bind_eq_bind, Option.bind_eq_some_iff] at hs
    obtain ⟨sd, ht, hs⟩ := hs
    split at hs
    · next hc =>
      obtain ⟨queue, hhead⟩ := List.head?_eq_some_iff.1 hc.2.1
      rw [hhead, List.tail_cons] at hs
      exact Option.some.inj hs ▸ .finish hc.1 ht hhead hc.2.2
    · cases hs
  | readHistory =>
    simp only [step, stepReadHistory, Option.bind_eq_bind, Option.bind_eq_some_iff] at hs
    obtain ⟨t, hblocked, sd, ht, identity, hreplay, hs⟩ := hs
    split at hs
    · cases hs
    · exact Option.some.inj hs ▸ .readHistory hblocked ht hreplay
  | ends t =>
    simp only [step, stepEnds] at hs
    split at hs
    · next hfree => exact Option.some.inj hs ▸ .ends hfree
    · cases hs
  | stop =>
    simp only [step, stepStop] at hs
    split at hs
    · next hfree => exact Option.some.inj hs ▸ .stop hfree
    · cases hs

/-! ## The ledger -/

theorem count_ledger_modify {f : Sender → Sender} (ht : s.senders[t]? = some sd) :
    (s.modifySender t f).ledger.count m + sd.outbox.count m = s.ledger.count m + (f sd).outbox.count m := by
  have hcount := Lookup.count_flatMap_modify (f := f) (g := Sender.outbox) ht m
  simp only [ledger, modifySender, List.count_append]
  omega

theorem count_ledger_addHandler (identity : Bytes) (replay : Option Bytes) :
    (s.addHandler identity replay).ledger.count m = s.ledger.count m + [(identity, Payload.reply)].count m := by
  simp only [ledger, addHandler, List.flatMap_append, List.flatMap_singleton, List.count_append, Sender.outbox,
    Bool.false_eq_true, if_false]
  omega

theorem count_ledger_step (hs : step l s = some s') (m : Bytes × Payload) :
    s'.ledger.count m ≤ s.ledger.count m + (s.adds l).count m := by
  cases step_to hs with
  | broadcast _ hcalls hlive _ =>
    simp only [adds, hcalls, if_neg hlive, ledger, List.flatMap_append, List.flatMap_singleton, List.count_append,
      Sender.outbox, Bool.false_eq_true, if_false]
    omega
  | @start t sd _ ht _ _ =>
    have hcount := count_ledger_modify (m := m) (f := fun sd => { sd with started := true }) ht
    have hsame : ({ sd with started := true } : Sender).outbox = sd.outbox := rfl
    rw [hsame] at hcount
    exact Nat.le_trans (Nat.le_of_eq (Nat.add_right_cancel hcount)) (Nat.le_add_right ..)
  | subscribe => exact Nat.le_of_eq (count_ledger_addHandler ..)
  | unsubscribe => exact Nat.le_of_eq (count_ledger_addHandler ..)
  | reply => exact Nat.le_of_eq (count_ledger_addHandler ..)
  | put _ ht htodo _ hput =>
    have hcount := Lookup.count_flatMap_modify (f := fun sd => { sd with put := true }) (g := Sender.outbox) ht m
    simp only [Sender.outbox, hput, htodo, Bool.false_eq_true, if_false, if_true, List.tail_cons,
      List.count_cons] at hcount
    simp only [ledger, modifySender, List.count_append, List.count_cons, List.count_nil]
    omega
  | @finish t sd _ _ ht _ hput =>
    have hcount := count_ledger_modify (m := m) (f := fun sd => { sd with todo := sd.todo.tail, put := false }) ht
    have hsame : ({ sd with todo := sd.todo.tail, put := false } : Sender).outbox = sd.outbox := by
      simp only [Sender.outbox, hput, Bool.false_eq_true, if_false, if_true]
    rw [hsame] at hcount
    exact Nat.le_trans (Nat.le_of_eq (Nat.add_right_cancel hcount)) (Nat.le_add_right ..)
  | @readHistory t sd identity hblocked ht hreplay =>
    have hcount := count_ledger_modify (m := m)
      (f := fun sd => { sd with todo := s.history.map (fun e => (identity, Payload.history e)), read := true }) ht
    have hle : (({ sd with todo := s.history.map (fun e => (identity, Payload.history e)), read := true } :
        Sender).outbox).count m ≤ (s.history.map (fun e => (identity, Payload.history e))).count m := by
      simp only [Sender.outbox]
      split
      · exact (List.tail_sublist _).count_le m
      · exact Nat.le_refl _
    simp only [adds, hblocked, ht, Option.bind_some, hreplay]
    change (s.modifySender t _).ledger.count m ≤ _
    omega
  | @ends t =>
    change (s.modifySender t _).ledger.count m ≤ _
    cases ht : s.senders[t]? with
    | none =>
      have hsame : s.modifySender t (fun sd => { sd with todo := [], put := false }) = s := by
        simp only [modifySender, List.modify_eq_self (List.getElem?_eq_none_iff.1 ht)]
      rw [hsame]
      exact Nat.le_add_right ..
    | some sd =>
      have hcount := count_ledger_modify (m := m) (f := fun sd => { sd with todo := [], put := false }) ht
      have hnone : (({ sd with todo := [], put := false } : Sender).outbox).count m = 0 := rfl
      omega
  | _ => exact Nat.le_add_right ..

theorem mem_ledger_step (hs : step l s = some s') (hm : m ∈ s'.ledger) : m ∈ s.ledger ∨ m ∈ s.adds l := by
  have hle := count_ledger_step hs m
  have hpos := List.count_pos_iff.2 hm
  by_cases hledger : m ∈ s.ledger
  · exact .inl hledger
  · have hzero := List.count_eq_zero.2 hledger
    exact .inr (List.count_pos_iff.1 (by omega))

/-! ## Broadcasts -/

theorem broadcasts_modify {f : Sender → Sender} (hf : ∀ sd, (f sd).event = sd.event) :
    (s.modifySender t f).broadcasts = s.broadcasts := Lookup.filterMap_modify hf

theorem broadcasts_addHandler (identity : Bytes) (replay : Option Bytes) :
    (s.addHandler identity replay).broadcasts = s.broadcasts := by
  simp only [broadcasts, addHandler, List.filterMap_append, List.filterMap_cons, List.filterMap_nil, List.append_nil]

/-- What a step does to the events that were broadcast, to those handed over and to the numbering. -/
def EventsStep (s s' : EventStream) : Prop :=
  s.next ≤ s'.next ∧ ∃ new : List Nat, (s'.broadcasts ++ s'.calls).Sublist (s.broadcasts ++ s.calls ++ new) ∧
    (new = [] ∨ (new = [s.next] ∧ s'.next = s.next + 1))

theorem eventsStep_of_eq (hb : s'.broadcasts = s.broadcasts) (hc : s'.calls = s.calls) (hn : s'.next = s.next) :
    EventsStep s s' :=
  ⟨Nat.le_of_eq hn.symm, [], by rw [hb, hc, List.append_nil], .inl rfl⟩

theorem events_step (hs : step l s = some s') : EventsStep s s' := by
  cases step_to hs with
  | emit =>
    refine ⟨Nat.le_add_right .., [s.next], ?_, .inr ⟨rfl, rfl⟩⟩
    change (s.broadcasts ++ if s.running = true then s.calls ++ [s.next] else s.calls).Sublist _
    split
    · rw [List.append_assoc]
    · exact List.sublist_append_left ..
  | dropped _ hcalls _ =>
    refine ⟨Nat.le_refl _, [], ?_, .inl rfl⟩
    rw [List.append_nil, hcalls]
    exact (List.sublist_cons_self ..).append_left _
  | @broadcast order e calls _ hcalls _ _ =>
    refine ⟨Nat.le_refl _, [], ?_, .inl rfl⟩
    rw [List.append_nil, hcalls]
    simp only [broadcasts, List.filterMap_append, List.filterMap_cons, List.filterMap_nil, List.append_assoc,
      List.singleton_append]
    exact List.Sublist.refl _
  | start => exact eventsStep_of_eq (broadcasts_modify (fun _ => rfl)) rfl rfl
  | put => exact eventsStep_of_eq (broadcasts_modify (fun _ => rfl)) rfl rfl
  | finish => exact eventsStep_of_eq (broadcasts_modify (fun _ => rfl)) rfl rfl
  | readHistory => exact eventsStep_of_eq (broadcasts_modify (fun _ => rfl)) rfl rfl
  | ends => exact eventsStep_of_eq (broadcasts_modify (fun _ => rfl)) rfl rfl
  | subscribe => exact eventsStep_of_eq (broadcasts_addHandler ..) rfl rfl
  | unsubscribe => exact eventsStep_of_eq (broadcasts_addHandler ..) rfl rfl
  | reply => exact eventsStep_of_eq (broadcasts_addHandler ..) rfl rfl
  | _ => exact eventsStep_of_eq rfl rfl rfl

theorem mem_broadcasts_of_eq (hb : s'.broadcasts = s.broadcasts) {e : Nat} (he : e ∈ s.broadcasts) :
    e ∈ s'.broadcasts := by
  rw [hb]
  exact he

theorem broadcasts_grow (hs : step l s = some s') {e : Nat} (he : e ∈ s.broadcasts) : e ∈ s'.broadcasts := by
  cases step_to hs with
  | broadcast =>
    simp only [broadcasts, List.filterMap_append, List.mem_append]
    exact .inl he
  | start | put | finish | readHistory | ends =>
    refine mem_broadcasts_of_eq (s := s) ?_ he
    exact broadcasts_modify (fun _ => rfl)
  | subscribe | unsubscribe | reply => exact mem_broadcasts_of_eq (broadcasts_addHandler ..) he
  | _ => exact he

/-- A live message is added for an event that is broadcast now. -/
theorem live_adds (hs : step l s = some s') {identity : Bytes} {e : Nat} (hm : (identity, .live e) ∈ s.adds l) :
    ∃ calls order, l = .broadcast order ∧ order.Perm s.subscribers ∧ s.calls = e :: calls ∧ e ∈ s'.broadcasts := by
  cases step_to hs with
  | dropped _ hcalls hdrop =>
    simp only [adds, hcalls, if_pos hdrop] at hm
    cases hm
  | @broadcast order e' calls _ hcalls hlive hperm =>
    simp only [adds, hcalls, if_neg hlive, List.mem_map, Prod.mk.injEq, Payload.live.injEq] at hm
    obtain ⟨_, -, -, rfl⟩ := hm
    refine ⟨calls, order, rfl, hperm, hcalls, ?_⟩
    simp only [broadcasts, List.filterMap_append, List.filterMap_cons, List.mem_append, List.mem_singleton,
      List.filterMap_nil, or_true]
  | readHistory hblocked ht hreplay =>
    simp only [adds, hblocked, ht, Option.bind_some, hreplay, List.mem_map, Prod.mk.injEq, reduceCtorEq, and_false,
      exists_false] at hm
  | subscribe | unsubscribe | reply => simp [adds] at hm
  | _ => cases hm

/-- The events are numbered in the order they are broadcast, and none is in the
ledger of a client twice. -/
structure Numbered (s : EventStream) : Prop where
  sorted : (s.broadcasts ++ s.calls).Pairwise (· < ·)
  bounded : ∀ e ∈ s.broadcasts ++ s.calls, e < s.next
  known : ∀ identity e, (identity, .live e) ∈ s.ledger → e ∈ s.broadcasts
  once : ∀ identity e, s.ledger.count (identity, .live e) ≤ 1
  subscribers : s.subscribers.Nodup

theorem subscribers_step (hnd : s.subscribers.Nodup) (hs : step l s = some s') : s'.subscribers.Nodup := by
  cases step_to hs with
  | @subscribe identity replayHistory =>
    change (if s.subscribers.contains identity then s.subscribers else s.subscribers ++ [identity]).Nodup
    split
    · exact hnd
    · next hnot => exact List.nodup_append.2 ⟨hnd, List.nodup_singleton _, fun a ha b hb he =>
        hnot (List.contains_iff_mem.2 (List.mem_singleton.1 hb ▸ he ▸ ha))⟩
  | unsubscribe => exact hnd.filter _
  | stop => exact List.nodup_nil
  | _ => exact hnd

theorem Numbered.step (hn : s.Numbered) (hs : step l s = some s') : s'.Numbered := by
  obtain ⟨hnext, new, hsub, hnew⟩ := events_step hs
  have hall : (s.broadcasts ++ s.calls ++ new).Pairwise (· < ·) ∧
      ∀ e ∈ s.broadcasts ++ s.calls ++ new, e < s'.next := by
    rcases hnew with rfl | ⟨rfl, hs'⟩
    · rw [List.append_nil]
      exact ⟨hn.sorted, fun e he => Nat.lt_of_lt_of_le (hn.bounded e he) hnext⟩
    · refine ⟨List.pairwise_append.2 ⟨hn.sorted, List.pairwise_singleton .., fun a ha b hb => ?_⟩, fun e he => ?_⟩
      · exact List.mem_singleton.1 hb ▸ hn.bounded a ha
      · rcases List.mem_append.1 he with he | he
        · exact Nat.lt_of_lt_of_le (hn.bounded e he) hnext
        · rw [List.mem_singleton.1 he, hs']
          exact Nat.lt_succ_self _
  refine ⟨hall.1.sublist hsub, fun e he => hall.2 e (hsub.subset he), fun identity e hm => ?_, fun identity e => ?_,
    subscribers_step hn.subscribers hs⟩
  · rcases mem_ledger_step hs hm with hm | hm
    · exact broadcasts_grow hs (hn.known identity e hm)
    · obtain ⟨-, -, -, -, -, he⟩ := live_adds hs hm
      exact he
  · have hle := count_ledger_step hs (identity, .live e)
    by_cases hm : (identity, Payload.live e) ∈ s.adds l
    · obtain ⟨calls, order, rfl, hperm, hcalls, -⟩ := live_adds hs hm
      have hfresh : (identity, Payload.live e) ∉ s.ledger := by
        intro hmem
        have hbefore := (List.pairwise_append.1 hn.sorted).2.2 e (hn.known identity e hmem) e
          (hcalls ▸ List.mem_cons_self ..)
        exact Nat.lt_irrefl _ hbefore
      have hone : (s.adds (.broadcast order)).count (identity, .live e) ≤ 1 := by
        have hnd : (order.map (fun identity => (identity, Payload.live e))).Nodup :=
          (hperm.nodup_iff.2 hn.subscribers).map (fun _ _ he => (Prod.mk.inj he).1)
        simp only [adds, hcalls]
        split
        · exact Nat.zero_le _
        · exact List.nodup_iff_count_le_one.1 hnd _
      have hzero := List.count_eq_zero.2 hfresh
      omega
    · have hzero := List.count_eq_zero.2 hm
      have honce := hn.once identity e
      omega

theorem numbered_init (startup : Nat) : (init startup).Numbered where
  sorted := .nil
  bounded _ he := by cases he
  known _ _ hm := by cases hm
  once _ _ := Nat.zero_le _
  subscribers := .nil

end EventStream

end VsRemote
