import VsRemote.EventDelivery
import VsRemote.Lib.TurnOrder
import Mathlib.Data.List.Sort

/-! The order in which live events reach a client. The rounds of two events take
turns at the send lock; the earlier one stays ahead as long as no client has
moved towards the front between their snapshots. -/

namespace VsRemote

open TurnOrder

/-- The clients the sender has not gone past. -/
def Sender.clients (sd : Sender) : List Bytes := sd.todo.map Prod.fst

def liveOf (identity : Bytes) (m : Bytes × Payload) : Option Nat :=
  match m.2 with
  | .live e => if m.1 = identity then some e else none
  | _ => none

namespace EventStream

variable {s s' : EventStream} {l : StreamLabel} {identity : Bytes} {t u : Nat} {sd ud : Sender}

/-- The events sent live to the client, in the order they were sent. -/
def liveTo (identity : Bytes) (s : EventStream) : List Nat := s.sent.filterMap (liveOf identity)

/-- Each client has been sent a part of the broadcast events in their order, none twice. -/
def LiveInOrder (s : EventStream) : Prop :=
  s.broadcasts.Nodup ∧ ∀ identity, (s.liveTo identity).Sublist s.broadcasts

/-- No client stands further to the front of a new snapshot than among those
that an unfinished round has still to visit. -/
def InPace (s : EventStream) : StreamLabel → Prop
  | .broadcast order => ¬ (s.running = false ∨ s.subscribers = []) →
    ∀ sd ∈ s.senders, sd.event.isSome = true → Leads sd.clients order
  | _ => True

instance (s : EventStream) (l : StreamLabel) : Decidable (InPace s l) :=
  match l with
  | .broadcast order => inferInstanceAs (Decidable (¬ (s.running = false ∨ s.subscribers = []) →
      ∀ sd ∈ s.senders, sd.event.isSome = true → Leads sd.clients order))
  | .load | .emit _ | .append _ | .loadEnd | .start _ | .subscribe _ _ | .unsubscribe _ | .reply _ | .put _ | .finish _
  | .readHistory | .ends _ | .stop => .isTrue trivial

end EventStream

/-- A round sends its event once to each client; a handler sends none live. -/
structure Sender.WellFormed (sd : Sender) : Prop where
  live : ∀ m ∈ sd.todo, ∀ e, m.2 = .live e → sd.event = some e
  round : sd.event.isSome = true → sd.clients.Nodup ∧ sd.replay = none

/-- What a step does to a sender. -/
structure SenderStep (l : StreamLabel) (t : Nat) (sd sd' : Sender) : Prop where
  event : sd'.event = sd.event
  replay : sd'.replay = sd.replay
  started : sd.started = true → sd'.started = true
  starts : sd'.started = true → sd.started = true ∨ l = .start t
  todo : sd'.todo = sd.todo ∨ (l = .finish t ∧ sd'.todo = sd.todo.tail) ∨ sd'.todo = [] ∨
    (l = .readHistory ∧ sd.replay.isSome = true ∧ ∀ m ∈ sd'.todo, ∀ e, m.2 ≠ .live e)

theorem Sender.WellFormed.step {l : StreamLabel} {t : Nat} {sd sd' : Sender} (hw : sd.WellFormed)
    (hs : SenderStep l t sd sd') : sd'.WellFormed := by
  have hsub : sd'.todo.Sublist sd.todo → sd'.WellFormed := by
    intro hsub
    refine ⟨fun m hm e he => ?_, fun hround => ?_⟩
    · rw [hs.event]
      exact hw.live m (hsub.subset hm) e he
    · rw [hs.event] at hround
      exact ⟨(hw.round hround).1.sublist (hsub.map _), hs.replay.trans (hw.round hround).2⟩
  rcases hs.todo with htodo | ⟨-, htodo⟩ | htodo | ⟨-, hreplay, hnone⟩
  · exact hsub (htodo ▸ List.Sublist.refl _)
  · exact hsub (htodo ▸ List.tail_sublist _)
  · exact hsub (htodo ▸ List.nil_sublist _)
  · refine ⟨fun m hm e he => absurd he (hnone m hm e), fun hround => ?_⟩
    rw [hs.event] at hround
    rw [(hw.round hround).2] at hreplay
    cases hreplay

namespace EventStream

variable {s s' : EventStream} {l : StreamLabel} {identity : Bytes} {t u : Nat} {sd ud : Sender}

/-- The senders a step may add. -/
inductive NewSender (s : EventStream) : StreamLabel → Sender → Prop
  | round {order : List Bytes} {e : Nat} {calls : List Nat} (hcalls : s.calls = e :: calls)
      (hlive : ¬ (s.running = false ∨ s.subscribers = [])) (hperm : order.Perm s.subscribers) :
      NewSender s (.broadcast order)
        { event := some e, todo := order.map (fun identity => (identity, .live e)), started := false }
  | handler {l : StreamLabel} (identity : Bytes) (replay : Option Bytes) :
      NewSender s l { todo := [(identity, .reply)], replay := replay }

def SenderTrans (s : EventStream) (l : StreamLabel) (t : Nat) (sd' : Sender) : Prop :=
  (∃ sd, s.senders[t]? = some sd ∧ SenderStep l t sd sd') ∨ (t = s.senders.length ∧ NewSender s l sd')

theorem senderTrans_of_eq (ht : s.senders[t]? = some sd) : SenderTrans s l t sd :=
  .inl ⟨sd, ht, rfl, rfl, id, .inl, .inl rfl⟩

theorem senderTrans_of_modify {f : Sender → Sender} {sd' : Sender}
    (ht : (s.senders.modify u f)[t]? = some sd') (hf : ∀ sd, s.senders[u]? = some sd → SenderStep l u sd (f sd)) :
    SenderTrans s l t sd' := by
  obtain ⟨sd, hsd, ⟨rfl, rfl⟩ | ⟨-, rfl⟩⟩ := Lookup.of_modify ht
  · exact .inl ⟨sd, hsd, hf sd hsd⟩
  · exact senderTrans_of_eq hsd

theorem senderTrans_of_addHandler {replay : Option Bytes} {sd' : Sender}
    (ht : (s.senders ++ [{ todo := [(identity, .reply)], replay := replay }])[t]? = some sd') :
    SenderTrans s l t sd' := by
  rcases Lookup.of_append ht with ht | ⟨hlen, rfl⟩
  · exact senderTrans_of_eq ht
  · exact .inr ⟨hlen, .handler identity replay⟩

theorem sender_step {sd' : Sender} (hs : step l s = some s') (ht : s'.senders[t]? = some sd') :
    SenderTrans s l t sd' := by
  cases step_to hs with
  | broadcast _ hcalls hlive hperm =>
    rcases Lookup.of_append ht with ht | ⟨hlen, rfl⟩
    · exact senderTrans_of_eq ht
    · exact .inr ⟨hlen, .round hcalls hlive hperm⟩
  | start => exact senderTrans_of_modify ht (fun sd _ => ⟨rfl, rfl, fun _ => rfl, fun _ => .inr rfl, .inl rfl⟩)
  | put => exact senderTrans_of_modify ht (fun sd _ => ⟨rfl, rfl, id, .inl, .inl rfl⟩)
  | finish => exact senderTrans_of_modify ht (fun sd _ => ⟨rfl, rfl, id, .inl, .inr (.inl ⟨rfl, rfl⟩)⟩)
  | @readHistory t' sd identity hblocked hsd hreplay =>
    refine senderTrans_of_modify ht
      (fun sd₁ hsd₁ => ⟨rfl, rfl, id, .inl, .inr (.inr (.inr ⟨rfl, ?_, fun m hm e he => ?_⟩))⟩)
    · obtain rfl := Option.some.inj (hsd.symm.trans hsd₁)
      rw [hreplay]
      rfl
    · obtain ⟨e', -, rfl⟩ := List.mem_map.1 hm
      cases he
  | ends => exact senderTrans_of_modify ht (fun sd _ => ⟨rfl, rfl, id, .inl, .inr (.inr (.inl rfl))⟩)
  | subscribe => exact senderTrans_of_addHandler ht
  | unsubscribe => exact senderTrans_of_addHandler ht
  | reply => exact senderTrans_of_addHandler ht
  | _ => exact senderTrans_of_eq ht

def Tidy (s : EventStream) : Prop := ∀ (t : Nat) (sd : Sender), s.senders[t]? = some sd → sd.WellFormed

theorem Tidy.step (hw : s.Tidy) (hnd : s.subscribers.Nodup) (hs : step l s = some s') : s'.Tidy := by
  intro t sd' ht
  rcases sender_step hs ht with ⟨sd, hsd, hstep⟩ | ⟨-, hnew⟩
  · exact (hw t sd hsd).step hstep
  · cases hnew with
    | @round order e calls hcalls hlive hperm =>
      refine ⟨fun m hm e' he => ?_, fun _ => ⟨?_, rfl⟩⟩
      · obtain ⟨_, -, rfl⟩ := List.mem_map.1 hm
        exact congrArg some (Payload.live.inj he)
      · have hclients : (order.map (fun identity => (identity, Payload.live e))).map Prod.fst = order := by
          rw [List.map_map]
          exact List.map_id _
        simp only [Sender.clients, hclients]
        exact hperm.nodup_iff.2 hnd
    | handler =>
      refine ⟨fun m hm e he => ?_, fun hround => by cases hround⟩
      rw [List.mem_singleton.1 hm] at he
      cases he

/-! ## The queue at the send lock -/

/-- Every round that has started and has not ended is in the queue once, rounds
start in the order of their events, and a handler waiting for the history is
not in the queue. -/
structure Queued (s : EventStream) : Prop where
  nodup : s.queue.Nodup
  started : ∀ t ∈ s.queue, ∃ sd, s.senders[t]? = some sd ∧ sd.started = true
  round : ∀ (t : Nat) (sd : Sender), s.senders[t]? = some sd → sd.event.isSome = true → sd.started = true →
    sd.todo ≠ [] → t ∈ s.queue
  fifo : ∀ (t u : Nat) (sd ud : Sender), t < u → s.senders[t]? = some sd → s.senders[u]? = some ud →
    ud.event.isSome = true → ud.started = true → sd.started = true
  waiting : ∀ t, s.blocked = some t → t ∉ s.queue ∧ ∃ sd, s.senders[t]? = some sd ∧ sd.started = true

theorem Queued.lt_length (hq : s.Queued) (ht : t ∈ s.queue) : t < s.senders.length := by
  obtain ⟨sd, hsd, -⟩ := hq.started t ht
  exact Lookup.lt_length hsd

/-- A started sender keeps its place in the list of senders. -/
theorem started_step (hs : step l s = some s') (ht : ∃ sd, s.senders[t]? = some sd ∧ sd.started = true) :
    ∃ sd, s'.senders[t]? = some sd ∧ sd.started = true := by
  obtain ⟨sd, hsd, hstarted⟩ := ht
  have hmodify : ∀ (u : Nat) (f : Sender → Sender), (∀ sd, sd.started = true → (f sd).started = true) →
      ∃ sd, (s.senders.modify u f)[t]? = some sd ∧ sd.started = true := by
    intro u f hf
    rw [List.getElem?_modify, hsd]
    by_cases hut : u = t
    · exact ⟨f sd, by simp only [hut, if_true, Option.map_eq_map, Option.map_some], hf sd hstarted⟩
    · exact ⟨sd, by simp only [hut, if_false, Option.map_eq_map, Option.map_some], hstarted⟩
  have happend : ∀ new : Sender, ∃ sd, (s.senders ++ [new])[t]? = some sd ∧ sd.started = true :=
    fun new => ⟨sd, Lookup.append_left hsd, hstarted⟩
  cases step_to hs with
  | broadcast => exact happend _
  | subscribe => exact happend _
  | unsubscribe => exact happend _
  | reply => exact happend _
  | @start t' => exact hmodify t' (fun sd => { sd with started := true }) (fun _ _ => rfl)
  | @put t' => exact hmodify t' (fun sd => { sd with put := true }) (fun _ h => h)
  | @finish t' => exact hmodify t' (fun sd => { sd with todo := sd.todo.tail, put := false }) (fun _ h => h)
  | @readHistory t' sd' identity =>
    exact hmodify t' (fun sd =>
      { sd with todo := s.history.map (fun e => (identity, Payload.history e)), read := true }) (fun _ h => h)
  | @ends t' => exact hmodify t' (fun sd => { sd with todo := [], put := false }) (fun _ h => h)
  | _ => exact ⟨sd, hsd, hstarted⟩

/-- What a step does to the queue. -/
inductive QueueStep (s s' : EventStream) : StreamLabel → Prop
  | same {l : StreamLabel} (hl : ∀ t, l ≠ .finish t) (hqueue : s'.queue = s.queue) : QueueStep s s' l
  | enter {l : StreamLabel} {t : Nat} (hl : ∀ t, l ≠ .finish t) (hqueue : s'.queue = s.queue ++ [t])
      (hout : t ∉ s.queue) (hin : ∃ sd, s'.senders[t]? = some sd ∧ sd.started = true) : QueueStep s s' l
  | rotate {t : Nat} {queue : List Nat} (hqueue : s.queue = t :: queue) (hqueue' : s'.queue = queue ++ [t]) :
      QueueStep s s' (.finish t)
  | leave {l : StreamLabel} {t : Nat} (hqueue : s'.queue = s.queue.erase t)
      (hl : ∀ u, l = .finish u → u = t) (hdone : ∀ sd, s'.senders[t]? = some sd → sd.todo = []) : QueueStep s s' l

theorem queue_step (hq : s.Queued) (hs : step l s = some s') : QueueStep s s' l := by
  have hout : s.senders.length ∉ s.queue := fun hmem => Nat.lt_irrefl _ (hq.lt_length hmem)
  have hin : ∀ (identity : Bytes) (replay : Option Bytes),
      ∃ sd, (s.addHandler identity replay).senders[s.senders.length]? = some sd ∧ sd.started = true := by
    refine fun identity replay => ⟨{ todo := [(identity, .reply)], replay := replay }, ?_, rfl⟩
    simp only [addHandler, List.getElem?_append_right (Nat.le_refl _), Nat.sub_self, List.getElem?_cons_zero]
  cases step_to hs with
  | @start t sd _ ht hstart _ =>
    have hout : t ∉ s.queue := by
      intro hmem
      obtain ⟨sd', hsd', hstarted⟩ := hq.started t hmem
      obtain rfl := Option.some.inj (ht.symm.trans hsd')
      exact Bool.false_ne_true (hstart.symm.trans hstarted)
    by_cases htodo : sd.todo = []
    · exact .same (fun _ he => by cases he) (if_pos htodo)
    · refine .enter (t := t) (fun _ he => by cases he) (if_neg htodo) hout ⟨{ sd with started := true }, ?_, rfl⟩
      simp only [modifySender, List.getElem?_modify_eq, ht, Option.map_eq_map, Option.map_some]
  | subscribe => exact .enter (fun _ he => by cases he) rfl hout (hin _ _)
  | unsubscribe => exact .enter (fun _ he => by cases he) rfl hout (hin _ _)
  | reply => exact .enter (fun _ he => by cases he) rfl hout (hin _ _)
  | @finish t sd queue _ ht hhead hput =>
    by_cases htodo : sd.todo.tail = []
    · refine .leave (t := t) ?_ (fun u he => by cases he; rfl) (fun sd' hsd' => ?_)
      · rw [hhead, List.erase_cons_head]
        exact if_pos htodo
      · obtain ⟨sd₁, hsd₁, ⟨-, rfl⟩ | ⟨hne, -⟩⟩ := Lookup.of_modify hsd'
        · obtain rfl := Option.some.inj (ht.symm.trans hsd₁)
          exact htodo
        · exact absurd rfl hne
    · exact .rotate hhead (if_neg htodo)
  | @readHistory t sd identity hblocked ht hreplay =>
    obtain ⟨hout, hstarted⟩ := hq.waiting t hblocked
    by_cases hhistory : s.history = []
    · exact .same (fun _ he => by cases he) (if_pos hhistory)
    · exact .enter (fun _ he => by cases he) (if_neg hhistory) hout (started_step hs hstarted)
  | @ends t =>
    refine .leave (t := t) rfl (fun u he => by cases he) (fun sd' hsd' => ?_)
    obtain ⟨sd₁, -, ⟨-, rfl⟩ | ⟨hne, -⟩⟩ := Lookup.of_modify hsd'
    · rfl
    · exact absurd rfl hne
  | _ => exact .same (fun _ he => by cases he) rfl

theorem fifo_step (hq : s.Queued) (hs : step l s = some s') {sd ud : Sender} (htu : t < u)
    (ht : s'.senders[t]? = some sd) (hu : s'.senders[u]? = some ud) (hround : ud.event.isSome = true)
    (hstarted : ud.started = true) : sd.started = true := by
  rcases sender_step hs hu with ⟨ud₀, hu₀, hustep⟩ | ⟨-, hnew⟩
  · rcases sender_step hs ht with ⟨sd₀, ht₀, htstep⟩ | ⟨hlen, -⟩
    · rw [hustep.event] at hround
      rcases hustep.starts hstarted with hbefore | rfl
      · exact htstep.started (hq.fifo t u sd₀ ud₀ htu ht₀ hu₀ hround hbefore)
      · cases step_to hs with
        | start _ _ _ hfirst =>
          have hmem : sd₀ ∈ s.senders.take u := by
            refine List.mem_of_getElem? (i := t) ?_
            rw [List.getElem?_take_of_lt htu]
            exact ht₀
          exact htstep.started (List.all_eq_true.1 hfirst sd₀ hmem)
    · have hlt := Lookup.lt_length hu₀
      omega
  · cases hnew with
    | round => cases hstarted
    | handler => cases hround

theorem round_todo {sd' : Sender} (hw : sd.WellFormed) (hstep : SenderStep l t sd sd')
    (hround : sd.event.isSome = true) :
    sd'.todo = sd.todo ∨ (l = .finish t ∧ sd'.todo = sd.todo.tail) ∨ sd'.todo = [] := by
  rcases hstep.todo with h | h | h | ⟨-, hreplay, -⟩
  · exact .inl h
  · exact .inr (.inl h)
  · exact .inr (.inr h)
  · rw [(hw.round hround).2] at hreplay
    cases hreplay

theorem Queued.step_nodup (hq : s.Queued) (hs : step l s = some s') : s'.queue.Nodup := by
  cases queue_step hq hs with
  | same _ h => exact h ▸ hq.nodup
  | enter _ h hout _ =>
    rw [h]
    exact List.nodup_append.2 ⟨hq.nodup, List.nodup_singleton _, fun a ha b hb he =>
      hout (List.mem_singleton.1 hb ▸ he ▸ ha)⟩
  | @rotate t queue h h' =>
    rw [h']
    exact (List.perm_append_singleton t queue).nodup_iff.2 (h ▸ hq.nodup)
  | leave h _ _ => exact h ▸ hq.nodup.erase _

theorem Queued.step_started (hq : s.Queued) (hs : step l s = some s') (ht : t ∈ s'.queue) :
    ∃ sd, s'.senders[t]? = some sd ∧ sd.started = true := by
  cases queue_step hq hs with
  | same _ h => exact started_step hs (hq.started t (h ▸ ht))
  | enter _ h _ hin =>
    rw [h] at ht
    rcases List.mem_append.1 ht with ht | ht
    · exact started_step hs (hq.started t ht)
    · exact List.mem_singleton.1 ht ▸ hin
  | rotate h h' =>
    rw [h'] at ht
    refine started_step hs (hq.started t ?_)
    rw [h]
    exact (List.perm_append_singleton _ _).mem_iff.1 ht
  | leave h _ _ => exact started_step hs (hq.started t (List.mem_of_mem_erase (h ▸ ht)))

/-- A started round with clients left stays in the queue, or has just come into it. -/
theorem Queued.step_round (hq : s.Queued) (hw : s.Tidy) (hs : step l s = some s') (ht : s'.senders[t]? = some sd)
    (hround : sd.event.isSome = true) (hstarted : sd.started = true) (htodo : sd.todo ≠ []) : t ∈ s'.queue := by
  rcases sender_step hs ht with ⟨sd₀, ht₀, hstep⟩ | ⟨-, hnew⟩
  · rw [hstep.event] at hround
    have htodo₀ : sd₀.todo ≠ [] := by
      intro hnil
      rcases round_todo (hw t sd₀ ht₀) hstep hround with h | ⟨-, h⟩ | h
      · exact htodo (h.trans hnil)
      · exact htodo (h.trans (by rw [hnil]; rfl))
      · exact htodo h
    rcases hstep.starts hstarted with hbefore | rfl
    · have hmem := hq.round t sd₀ ht₀ hround hbefore htodo₀
      cases queue_step hq hs with
      | same _ h => exact h ▸ hmem
      | enter _ h _ _ => exact h ▸ List.mem_append_left _ hmem
      | rotate h h' =>
        rw [h']
        exact (List.perm_append_singleton _ _).mem_iff.2 (h ▸ hmem)
      | @leave _ u h _ hdone =>
        have hne : t ≠ u := fun he => htodo (hdone sd (he ▸ ht))
        exact h ▸ (List.mem_erase_of_ne hne).2 hmem
    · cases step_to hs with
      | start _ ht₁ _ _ =>
        obtain rfl := Option.some.inj (ht₀.symm.trans ht₁)
        change t ∈ if sd₀.todo = [] then s.queue else s.queue ++ [t]
        rw [if_neg htodo₀]
        exact List.mem_append_right _ (List.mem_singleton.2 rfl)
  · cases hnew with
    | round => cases hstarted
    | handler => cases hround

theorem Queued.step_waiting (hq : s.Queued) (hs : step l s = some s') (hblocked : s'.blocked = some t) :
    t ∉ s'.queue ∧ ∃ sd, s'.senders[t]? = some sd ∧ sd.started = true := by
  cases step_to hs with
  | load => exact hq.waiting t hblocked
  | emit => exact hq.waiting t hblocked
  | append => exact hq.waiting t hblocked
  | loadEnd => exact hq.waiting t hblocked
  | @finish t' sd queue _ ht hhead _ =>
    change (if sd.todo.tail = [] ∧ sd.replay.isSome = true ∧ sd.read = false then some t' else none) = some t
      at hblocked
    split at hblocked
    · next hc =>
      obtain rfl := Option.some.inj hblocked
      refine ⟨?_, started_step hs (hq.started t' (hhead ▸ List.mem_cons_self ..))⟩
      change t' ∉ if sd.todo.tail = [] then queue else queue ++ [t']
      rw [if_pos hc.1]
      exact (List.nodup_cons.1 (hhead ▸ hq.nodup)).1
    · cases hblocked
  | readHistory => cases hblocked
  | dropped hfree | broadcast hfree | start hfree | subscribe hfree | unsubscribe hfree | reply hfree | put hfree
  | ends hfree | stop hfree => cases hfree.symm.trans hblocked

theorem Queued.step (hq : s.Queued) (hw : s.Tidy) (hs : step l s = some s') : s'.Queued where
  nodup := hq.step_nodup hs
  started _ ht := hq.step_started hs ht
  round _ _ ht hround hstarted htodo := hq.step_round hw hs ht hround hstarted htodo
  fifo _ _ _ _ htu ht hu hround hstarted := fifo_step hq hs htu ht hu hround hstarted
  waiting _ hblocked := hq.step_waiting hs hblocked

/-! ## Earlier rounds stay ahead -/

def Paced (s : EventStream) : Prop :=
  ∀ (t u : Nat) (sd ud : Sender), t < u → s.senders[t]? = some sd → s.senders[u]? = some ud →
    sd.event.isSome = true → ud.event.isSome = true → Pace s.queue t u sd.clients ud.clients

/-- A later round stands in the queue behind the earlier ones that go on. -/
theorem Queued.behind (hq : s.Queued) (htu : t < u) (ht : s.senders[t]? = some sd) (hu : s.senders[u]? = some ud)
    (htround : sd.event.isSome = true) (huround : ud.event.isSome = true) (htodo : sd.todo ≠ []) (hmem : u ∈ s.queue) :
    t ∈ s.queue := by
  obtain ⟨ud', hu', hustarted⟩ := hq.started u hmem
  obtain rfl := Option.some.inj (hu.symm.trans hu')
  exact hq.round t sd ht htround (hq.fifo t u sd ud htu ht hu huround hustarted) htodo

theorem clients_of_todo {sd' : Sender} (h : sd'.todo = sd.todo) : sd'.clients = sd.clients := by
  simp only [Sender.clients, h]

theorem clients_nil (h : sd.todo = []) : sd.clients = [] := by
  simp only [Sender.clients, h, List.map_nil]

theorem finish_clients {sd' : Sender} (hs : step (.finish t) s = some s') (ht : s.senders[t]? = some sd)
    (ht' : s'.senders[t]? = some sd') : sd'.clients = sd.clients.tail := by
  cases step_to hs with
  | finish =>
    obtain ⟨sd₀, h₀, ⟨-, rfl⟩ | ⟨hne, -⟩⟩ := Lookup.of_modify ht'
    · obtain rfl := Option.some.inj (ht.symm.trans h₀)
      exact List.map_tail
    · exact absurd rfl hne

theorem pace_step_old {sd' ud' : Sender} (hp : s.Paced) (hq : s.Queued) (hw : s.Tidy) (hq' : s'.Queued)
    (hs : step l s = some s') (htu : t < u) (ht : s.senders[t]? = some sd) (hu : s.senders[u]? = some ud)
    (ht' : s'.senders[t]? = some sd') (hu' : s'.senders[u]? = some ud') (htstep : SenderStep l t sd sd')
    (hustep : SenderStep l u ud ud') (htround : sd.event.isSome = true) (huround : ud.event.isSome = true) :
    Pace s'.queue t u sd'.clients ud'.clients := by
  have hpace := hp t u sd ud htu ht hu htround huround
  have hne : t ≠ u := Nat.ne_of_lt htu
  by_cases htnil : sd'.todo = []
  · rw [clients_nil htnil]
    exact leadsStrictly_nil_left.pace
  by_cases hunil : ud'.todo = []
  · rw [clients_nil hunil]
    exact leadsStrictly_nil_right.pace
  have hbehind' : u ∈ s'.queue → t ∈ s'.queue :=
    hq'.behind htu ht' hu' (htstep.event ▸ htround) (hustep.event ▸ huround) htnil
  have htodo : l ≠ .finish t → sd'.clients = sd.clients := by
    intro hl
    rcases round_todo (hw t sd ht) htstep htround with h | ⟨h, -⟩ | h
    · exact clients_of_todo h
    · exact absurd h hl
    · exact absurd h htnil
  have hutodo : l ≠ .finish u → ud'.clients = ud.clients := by
    intro hl
    rcases round_todo (hw u ud hu) hustep huround with h | ⟨h, -⟩ | h
    · exact clients_of_todo h
    · exact absurd h hl
    · exact absurd h hunil
  cases queue_step hq hs with
  | same hl hqueue =>
    rw [hqueue, htodo (hl t), hutodo (hl u)]
    exact hpace
  | @enter _ x hl hqueue hout _ =>
    rw [hqueue] at hbehind' ⊢
    rw [htodo (hl t), hutodo (hl u)]
    refine hpace.enter hne hout hbehind' (fun hxt hmem => hout ?_)
    rw [hxt]
    refine hq.behind htu ht hu htround huround (fun hnil => htnil ?_) hmem
    simpa only [Sender.clients, hnil, List.map_nil, List.map_eq_nil_iff] using htodo (hl t)
  | @rotate x queue hqueue hqueue' =>
    rw [hqueue] at hpace
    rw [hqueue'] at hbehind' ⊢
    have hxnot : x ∉ queue := (List.nodup_cons.1 (hqueue ▸ hq.nodup)).1
    by_cases hxt : x = t
    · subst hxt
      rw [hutodo (fun he => hne (StreamLabel.finish.inj he)), finish_clients hs ht ht']
      exact hpace.rotate_first ((hw x sd ht).round htround).1
    · rw [htodo (fun he => hxt (StreamLabel.finish.inj he))]
      by_cases hxu : x = u
      · subst hxu
        have hmem : t ∈ queue := by
          rcases List.mem_append.1 (hbehind' (List.mem_append_right _ (List.mem_singleton.2 rfl))) with h | h
          · exact h
          · exact absurd (List.mem_singleton.1 h) hne
        rw [finish_clients hs hu hu']
        exact hpace.rotate_second hxt hxnot hmem
      · rw [hutodo (fun he => hxu (StreamLabel.finish.inj he))]
        exact hpace.rotate_other hxt hxu
  | @leave _ x hqueue hl hdone =>
    have hxt : x ≠ t := fun he => htnil (hdone sd' (he ▸ ht'))
    have hxu : x ≠ u := fun he => hunil (hdone ud' (he ▸ hu'))
    rw [hqueue, htodo (fun he => hxt (hl t he).symm), hutodo (fun he => hxu (hl u he).symm)]
    exact hpace.leave hxt hxu

theorem Paced.step (hp : s.Paced) (hq : s.Queued) (hw : s.Tidy) (hc : InPace s l) (hq' : s'.Queued)
    (hs : step l s = some s') : s'.Paced := by
  intro t u sd' ud' htu ht' hu' htround huround
  rcases sender_step hs hu' with ⟨ud, hu, hustep⟩ | ⟨hlen, hnew⟩
  · rcases sender_step hs ht' with ⟨sd, ht, htstep⟩ | ⟨hlen, -⟩
    · exact pace_step_old hp hq hw hq' hs htu ht hu ht' hu' htstep hustep (htstep.event ▸ htround)
        (hustep.event ▸ huround)
    · have hlt := Lookup.lt_length hu
      omega
  · cases hnew with
    | @round order e calls hcalls hlive hperm =>
      have hout : u ∉ s'.queue := by
        intro hmem
        obtain ⟨ud₁, hu₁, hstarted⟩ := hq'.started u hmem
        obtain rfl := Option.some.inj (hu'.symm.trans hu₁)
        cases hstarted
      rcases sender_step hs ht' with ⟨sd, ht, htstep⟩ | ⟨hlen', -⟩
      · have hleads := hc hlive sd (List.mem_of_getElem? ht) (htstep.event ▸ htround)
        have hclients : (order.map (fun identity => (identity, Payload.live e))).map Prod.fst = order := by
          rw [List.map_map]
          exact List.map_id _
        refine Leads.pace ?_ (not_precedes_of_notMem hout)
        simp only [Sender.clients, hclients]
        rcases round_todo (hw t sd ht) htstep (htstep.event ▸ htround) with h | ⟨he, -⟩ | h
        · rw [h]
          exact hleads
        · cases he
        · rw [h]
          exact leadsStrictly_nil_left.leads
      · omega
    | handler => cases huround

/-! ## The messages on the wire -/

theorem rising (hn : s.Numbered) (htu : t < u) (ht : s.senders[t]? = some sd) (hu : s.senders[u]? = some ud)
    {e e' : Nat} (he : sd.event = some e) (he' : ud.event = some e') : e < e' := by
  have hsorted : s.broadcasts.Pairwise (· < ·) := (List.pairwise_append.1 hn.sorted).1
  rw [broadcasts, List.pairwise_filterMap] at hsorted
  obtain ⟨htlt, rfl⟩ := List.getElem?_eq_some_iff.1 ht
  obtain ⟨hult, rfl⟩ := List.getElem?_eq_some_iff.1 hu
  exact List.pairwise_iff_getElem.1 hsorted t u htlt hult htu e he e' he'

/-- A live message to be sent was to be sent before, or is broadcast now. -/
theorem live_outbox_step {sd' : Sender} {e : Nat} (hs : step l s = some s') (ht : s'.senders[t]? = some sd')
    (hm : (identity, Payload.live e) ∈ sd'.outbox) :
    (∃ sd, s.senders[t]? = some sd ∧ (identity, Payload.live e) ∈ sd.outbox) ∨ e ∈ s.calls := by
  have hold : ∀ (u : Nat) (f : Sender → Sender), (∀ sd, s.senders[u]? = some sd →
      (identity, Payload.live e) ∈ (f sd).outbox → (identity, Payload.live e) ∈ sd.outbox) →
      (s.senders.modify u f)[t]? = some sd' → (∃ sd, s.senders[t]? = some sd ∧ (identity, Payload.live e) ∈ sd.outbox) := by
    intro u f hf ht
    obtain ⟨sd, hsd, ⟨rfl, rfl⟩ | ⟨-, rfl⟩⟩ := Lookup.of_modify ht
    · exact ⟨sd, hsd, hf sd hsd hm⟩
    · exact ⟨_, hsd, hm⟩
  have hhandler : ∀ (c : Bytes) (replay : Option Bytes), (s.addHandler c replay).senders[t]? = some sd' →
      (∃ sd, s.senders[t]? = some sd ∧ (identity, Payload.live e) ∈ sd.outbox) := by
    intro c replay ht
    rcases Lookup.of_append ht with ht | ⟨-, rfl⟩
    · exact ⟨_, ht, hm⟩
    · simp [Sender.outbox] at hm
  cases step_to hs with
  | @broadcast order e' calls _ hcalls _ _ =>
    rcases Lookup.of_append ht with ht | ⟨-, rfl⟩
    · exact .inl ⟨_, ht, hm⟩
    · simp only [Sender.outbox, Bool.false_eq_true, if_false, List.mem_map, Prod.mk.injEq, Payload.live.injEq] at hm
      obtain ⟨_, -, -, rfl⟩ := hm
      exact .inr (hcalls ▸ List.mem_cons_self ..)
  | @start u => exact .inl (hold u (fun sd => { sd with started := true }) (fun _ _ h => h) ht)
  | @put u ud message rest _ _ hu htodo _ hput =>
    refine .inl (hold u (fun sd => { sd with put := true }) (fun sd hsd h => ?_) ht)
    obtain rfl := Option.some.inj (hu.symm.trans hsd)
    simp only [Sender.outbox, hput, Bool.false_eq_true, if_false, if_true] at h ⊢
    exact List.mem_of_mem_tail h
  | @finish u ud _ _ hu _ hput =>
    refine .inl (hold u (fun sd => { sd with todo := sd.todo.tail, put := false }) (fun sd hsd h => ?_) ht)
    obtain rfl := Option.some.inj (hu.symm.trans hsd)
    simpa only [Sender.outbox, hput, Bool.false_eq_true, if_false, if_true] using h
  | @readHistory u ud c _ _ _ =>
    refine .inl (hold u (fun sd => { sd with todo := s.history.map (fun e => (c, Payload.history e)), read := true })
      (fun sd _ h => ?_) ht)
    have hmem : (identity, Payload.live e) ∈ s.history.map (fun e => (c, Payload.history e)) := by
      simp only [Sender.outbox] at h
      split at h
      · exact List.mem_of_mem_tail h
      · exact h
    obtain ⟨_, -, he⟩ := List.mem_map.1 hmem
    cases (Prod.mk.inj he).2
  | @ends u => exact .inl (hold u (fun sd => { sd with todo := [], put := false }) (fun _ _ h => by cases h) ht)
  | subscribe => exact .inl (hhandler _ _ ht)
  | unsubscribe => exact .inl (hhandler _ _ ht)
  | reply => exact .inl (hhandler _ _ ht)
  | _ => exact .inl ⟨_, ht, hm⟩

/-- What a client has been sent live is in order and comes before all that is to be sent to it. -/
structure Sequenced (s : EventStream) : Prop where
  log : ∀ identity, (s.liveTo identity).Pairwise (· < ·)
  later : ∀ identity, ∀ e ∈ s.liveTo identity, ∀ (t : Nat) (sd : Sender) (e' : Nat), s.senders[t]? = some sd →
    (identity, Payload.live e') ∈ sd.outbox → e < e'

theorem liveOf_eq_some {m : Bytes × Payload} {e : Nat} : liveOf identity m = some e ↔ m = (identity, .live e) := by
  obtain ⟨c, p⟩ := m
  cases p with
  | live e' =>
    simp only [liveOf, Prod.mk.injEq, Payload.live.injEq]
    split
    · next hc => simp only [Option.some.injEq, hc, true_and]
    · next hc => simp only [reduceCtorEq, hc, false_and]
  | history _ => simp only [liveOf, reduceCtorEq, Prod.mk.injEq, and_false]
  | reply => simp only [liveOf, reduceCtorEq, Prod.mk.injEq, and_false]

theorem mem_liveTo {e : Nat} : e ∈ s.liveTo identity ↔ (identity, Payload.live e) ∈ s.sent := by
  simp only [liveTo, List.mem_filterMap, liveOf_eq_some, exists_eq_right]

theorem liveTo_broadcasts (hn : s.Numbered) {e : Nat} (he : e ∈ s.liveTo identity) : e ∈ s.broadcasts :=
  hn.known identity e (List.mem_append_left _ (mem_liveTo.1 he))

theorem later_step (hseq : s.Sequenced) (hn : s.Numbered) (hs : step l s = some s') {e e' : Nat} {sd' : Sender}
    (he : e ∈ s.liveTo identity) (ht : s'.senders[t]? = some sd') (hm : (identity, Payload.live e') ∈ sd'.outbox) :
    e < e' := by
  rcases live_outbox_step hs ht hm with ⟨sd, hsd, hmem⟩ | hcall
  · exact hseq.later identity e he t sd e' hsd hmem
  · exact (List.pairwise_append.1 hn.sorted).2.2 e (liveTo_broadcasts hn he) e' hcall

/-- When a round puts its event on the socket for a client, no earlier round has
the client still to visit. -/
theorem put_later {message : Bytes × Payload} {rest : List (Bytes × Payload)} {queue : List Nat} {e e' : Nat}
    (hn : s.Numbered) (hw : s.Tidy) (hp : s.Paced) (hu : s.senders[u]? = some ud) (htodo : ud.todo = message :: rest)
    (hhead : s.queue = u :: queue) (hlive : message = (identity, .live e)) (hs : step (.put u) s = some s')
    {sd' : Sender} (ht : s'.senders[t]? = some sd') (hm : (identity, Payload.live e') ∈ sd'.outbox) : e < e' := by
  have huw := hw u ud hu
  have hue : ud.event = some e :=
    huw.live message (htodo ▸ List.mem_cons_self ..) e (by rw [hlive])
  have huround : ud.event.isSome = true := by
    rw [hue]
    rfl
  have hnd : (identity :: rest.map Prod.fst).Nodup := by
    have hclients := (huw.round huround).1
    rw [Sender.clients, htodo, List.map_cons, hlive] at hclients
    exact hclients
  cases step_to hs with
  | put _ hu₁ htodo₁ _ _ =>
    obtain rfl := Option.some.inj (hu.symm.trans hu₁)
    obtain ⟨sd, hsd, ⟨rfl, rfl⟩ | ⟨hne, rfl⟩⟩ := Lookup.of_modify ht
    · obtain rfl := Option.some.inj (hu.symm.trans hsd)
      simp only [Sender.outbox, if_true, htodo, List.tail_cons] at hm
      exact absurd (List.mem_map_of_mem hm) (List.nodup_cons.1 hnd).1
    · have hmem : (identity, Payload.live e') ∈ sd'.todo := by
        simp only [Sender.outbox] at hm
        split at hm
        · exact List.mem_of_mem_tail hm
        · exact hm
      have hte : sd'.event = some e' := (hw t sd' hsd).live _ hmem e' rfl
      rcases Nat.lt_or_ge u t with hlt | hge
      · exact rising hn hlt hu hsd hue hte
      · have htu : t < u := by omega
        have htround : sd'.event.isSome = true := by
          rw [hte]
          rfl
        have hpace := hp t u sd' ud htu hsd hu htround huround
        have hclients : ud.clients = identity :: rest.map Prod.fst := by
          rw [Sender.clients, htodo, List.map_cons, hlive]
        rw [hhead, hclients] at hpace
        exact absurd (List.mem_map_of_mem hmem) (hpace.second_visits hne).1

theorem Sequenced.step (hseq : s.Sequenced) (hn : s.Numbered) (hw : s.Tidy) (hp : s.Paced) (hs : step l s = some s') :
    s'.Sequenced := by
  have hquiet : s'.sent = s.sent → s'.Sequenced := by
    intro hsent
    have hsame : ∀ identity, s'.liveTo identity = s.liveTo identity := fun identity => by simp only [liveTo, hsent]
    refine ⟨fun identity => (hsame identity).symm ▸ hseq.log identity, fun identity e he t sd' e' ht hm => ?_⟩
    exact later_step hseq hn hs (hsame identity ▸ he) ht hm
  have hs₀ := hs
  cases step_to hs with
  | @put u ud message rest queue _ hu htodo hhead hput =>
    have happend : ∀ identity, ({ s.modifySender u (fun sd => { sd with put := true }) with
        sent := s.sent ++ [message] } : EventStream).liveTo identity =
        s.liveTo identity ++ (liveOf identity message).toList := by
      intro identity
      simp only [liveTo, List.filterMap_append, List.filterMap_cons, List.filterMap_nil]
      cases liveOf identity message <;> rfl
    refine ⟨fun identity => ?_, fun identity e he t sd' e' ht hm => ?_⟩
    · rw [happend]
      cases hlive : liveOf identity message with
      | none => exact (List.append_nil _).symm ▸ hseq.log identity
      | some e =>
        refine List.pairwise_append.2 ⟨hseq.log identity, List.pairwise_singleton .., fun a ha b hb => ?_⟩
        rw [List.mem_singleton.1 hb]
        refine hseq.later identity a ha u ud e hu ?_
        simp only [Sender.outbox, hput, Bool.false_eq_true, if_false, htodo]
        exact liveOf_eq_some.1 hlive ▸ List.mem_cons_self ..
    · rw [happend] at he
      rcases List.mem_append.1 he with he | he
      · exact later_step hseq hn hs₀ he ht hm
      · have hlive := liveOf_eq_some.1 (Option.mem_toList.1 he)
        exact put_later hn hw hp hu htodo hhead hlive hs₀ ht hm
  | start => exact hquiet rfl
  | finish => exact hquiet rfl
  | readHistory => exact hquiet rfl
  | ends => exact hquiet rfl
  | _ => exact hquiet rfl

theorem liveInOrder_of_sequenced (hn : s.Numbered) (hseq : s.Sequenced) : s.LiveInOrder := by
  have hsorted : s.broadcasts.Pairwise (· < ·) := (List.pairwise_append.1 hn.sorted).1
  have hnodup : ∀ xs : List Nat, xs.Pairwise (· < ·) → xs.Nodup := fun xs hxs => hxs.imp (fun h => Nat.ne_of_lt h)
  refine ⟨hnodup _ hsorted, fun identity => ?_⟩
  have hsub : (s.liveTo identity).Subperm s.broadcasts :=
    List.subperm_of_subset (hnodup _ (hseq.log identity)) (fun e he => liveTo_broadcasts hn he)
  exact List.sublist_of_subperm_of_pairwise hsub ((hseq.log identity).imp Nat.le_of_lt) (hsorted.imp Nat.le_of_lt)

/-- What the order of the live events rests on. -/
structure Ordered (s : EventStream) : Prop where
  numbered : s.Numbered
  tidy : s.Tidy
  queued : s.Queued
  paced : s.Paced
  sequenced : s.Sequenced

theorem Ordered.step (ho : s.Ordered) (hc : InPace s l) (hs : step l s = some s') : s'.Ordered := by
  have hqueued := ho.queued.step ho.tidy hs
  exact ⟨ho.numbered.step hs, ho.tidy.step ho.numbered.subscribers hs, hqueued,
    ho.paced.step ho.queued ho.tidy hc hqueued hs, ho.sequenced.step ho.numbered ho.tidy ho.paced hs⟩

theorem ordered_init (startup : Nat) : (init startup).Ordered where
  numbered := numbered_init startup
  tidy t sd ht := by cases ht
  queued := by
    refine ⟨.nil, fun t ht => ?_, fun t sd ht => ?_, fun t u sd ud htu ht => ?_, fun t ht => ?_⟩ <;> cases ht
  paced t u sd ud htu ht := by cases ht
  sequenced := ⟨fun _ => .nil, fun _ _ he => by cases he⟩

end EventStream

open EventStream

/-- Where no client moves towards the front between the snapshots of unfinished
rounds, every client gets live events in the order they were broadcast in, none twice. -/
theorem live_in_order {startup : Nat} {ls : List StreamLabel}
    (hg : Runs.Guarded EventStream.step InPace ls (init startup)) :
    Runs.Always EventStream.step LiveInOrder ls (init startup) := by
  have hordered := hg.always (I := Ordered) (fun s l t ho hc hs => ho.step hc hs) (ordered_init startup)
  exact hordered.mono (fun s ho => liveInOrder_of_sequenced ho.numbered ho.sequenced)

/-- Two subscribers and two events. -/
def twoEvents (second : List StreamLabel) : List StreamLabel :=
  [.subscribe [1] false, .subscribe [2] false, .put 0, .finish 0, .put 1, .finish 1, .emit false, .emit false,
    .broadcast [[1], [2]], .start 2] ++ second

theorem live_in_order_twoEvents :
    (Runs.run EventStream.step (twoEvents [.broadcast [[1], [2]], .start 3, .put 2, .finish 2, .put 3, .finish 3, .put 2,
        .finish 2, .put 3]) (init 0)).map (liveTo [2]) = some [0, 1] ∧
      Runs.Always EventStream.step LiveInOrder (twoEvents [.broadcast [[1], [2]], .start 3, .put 2, .finish 2, .put 3,
        .finish 3, .put 2, .finish 2, .put 3]) (init 0) :=
  ⟨by decide, live_in_order (by decide)⟩

/-- The first client unsubscribes while its message of the first event is under
way: in the second snapshot the other client comes first. -/
theorem live_out_of_order :
    ∃ s, Runs.run EventStream.step (twoEvents [.unsubscribe [1], .broadcast [[2]], .start 4, .put 2, .finish 2, .put 3,
        .finish 3, .put 4, .finish 4, .put 2]) (init 0) = some s ∧
      s.broadcasts = [0, 1] ∧ s.liveTo [2] = [1, 0] ∧ ¬ LiveInOrder s := by
  have hfinal : (Runs.run EventStream.step (twoEvents [.unsubscribe [1], .broadcast [[2]], .start 4, .put 2, .finish 2,
      .put 3, .finish 3, .put 4, .finish 4, .put 2]) (init 0)).map (fun s => (s.broadcasts, s.liveTo [2])) =
      some ([0, 1], [1, 0]) := by decide
  obtain ⟨s, hs, hfields⟩ := Option.map_eq_some_iff.1 hfinal
  obtain ⟨hbroadcasts, hlive⟩ := Prod.mk.inj hfields
  refine ⟨s, hs, hbroadcasts, hlive, fun horder => ?_⟩
  have hsub := horder.2 [2]
  rw [hbroadcasts, hlive] at hsub
  exact absurd hsub (by decide)

end VsRemote
