import VsRemote.EventDelivery
import Mathlib.Data.Nat.Find

/-! No message is lost at the send lock: the senders come to an end whatever the
order they run in, and then everything a run gave them is sent. -/

namespace VsRemote

namespace Sender

def Waits (sd : Sender) : Prop := sd.started = true ∧ sd.todo ≠ []

/-- The steps the sender has to take; a replay not yet read is as long as the history. -/
def work (history : Nat) (sd : Sender) : Nat :=
  2 * sd.outbox.length + (if sd.put then 1 else 0) + (if sd.started then 0 else 1) +
    (if sd.replay.isSome ∧ sd.read = false then 2 * history + 1 else 0)

/-- The handler has sent its reply and waits for the history. -/
structure AtHistory (sd : Sender) : Prop where
  started : sd.started = true
  todo : sd.todo = []
  put : sd.put = false
  read : sd.read = false
  replay : sd.replay.isSome = true

def totalWork (history : Nat) : List Sender → Nat
  | [] => 0
  | sd :: senders => sd.work history + totalWork history senders

theorem totalWork_modify {history t : Nat} {sd : Sender} {f : Sender → Sender} {senders : List Sender}
    (ht : senders[t]? = some sd) :
    totalWork history (senders.modify t f) + sd.work history = totalWork history senders + (f sd).work history := by
  induction senders generalizing t with
  | nil => cases ht
  | cons first senders ih =>
    cases t with
    | zero =>
      obtain rfl := Option.some.inj ht
      simp only [List.modify_zero_cons, totalWork]
      omega
    | succ t =>
      have hrest := ih ht
      simp only [List.modify_succ_cons, totalWork]
      omega

end Sender

namespace EventStream

variable {s s' : EventStream} {l : StreamLabel} {t : Nat} {sd : Sender} {m : Bytes × Payload}

/-- A step of the senders, or the end of the load that a replay waits for. -/
def isSend : StreamLabel → Bool
  | .loadEnd | .start _ | .put _ | .finish _ | .readHistory => true
  | _ => false

def isEnds : StreamLabel → Bool
  | .ends _ => true
  | _ => false

def work (s : EventStream) : Nat :=
  Sender.totalWork s.history.length s.senders + if s.loading then 1 else 0

/-- The queue at the lock holds each sender that has something to send, once. -/
structure Manned (s : EventStream) : Prop where
  nodup : s.queue.Nodup
  queue : ∀ t, t ∈ s.queue ↔ ∃ sd, s.senders[t]? = some sd ∧ sd.Waits
  putting : ∀ (t : Nat) (sd : Sender), s.senders[t]? = some sd → sd.put = true → sd.todo ≠ []
  blocked : ∀ t, s.blocked = some t → ∃ sd, s.senders[t]? = some sd ∧ sd.AtHistory

theorem Manned.of_modify {f : Sender → Sender} {queue : List Nat} {blocked : Option Nat} {sent : List (Bytes × Payload)}
    (hm : s.Manned) (ht : s.senders[t]? = some sd) (hnodup : queue.Nodup)
    (hqueue : ∀ u, u ≠ t → (u ∈ queue ↔ u ∈ s.queue)) (hwaits : t ∈ queue ↔ (f sd).Waits)
    (hput : (f sd).put = true → (f sd).todo ≠ [])
    (hblocked : ∀ u, blocked = some u → u = t ∧ (f sd).AtHistory) :
    Manned { s.modifySender t f with queue := queue, blocked := blocked, sent := sent } := by
  have hself : (s.senders.modify t f)[t]? = some (f sd) := by
    simp only [List.getElem?_modify_eq, ht, Option.map_eq_map, Option.map_some]
  have hother : ∀ u, u ≠ t → (s.senders.modify t f)[u]? = s.senders[u]? := fun u hne => by
    simp only [List.getElem?_modify, if_neg hne.symm, Option.map_eq_map, Option.map_id']
  refine ⟨hnodup, fun u => ?_, fun u sd' hu => ?_, fun u hu => ?_⟩
  · by_cases hut : u = t
    · subst hut
      constructor
      · exact fun hmem => ⟨f sd, hself, hwaits.1 hmem⟩
      · rintro ⟨sd', hsd', hw⟩
        obtain rfl := Option.some.inj (hself.symm.trans hsd')
        exact hwaits.2 hw
    · change u ∈ queue ↔ ∃ sd, (s.senders.modify t f)[u]? = some sd ∧ sd.Waits
      rw [hqueue u hut, hm.queue u, hother u hut]
  · by_cases hut : u = t
    · subst hut
      obtain rfl := Option.some.inj (hself.symm.trans hu)
      exact hput
    · exact hm.putting u sd' ((hother u hut).symm.trans hu)
  · obtain ⟨rfl, hat⟩ := hblocked u hu
    exact ⟨f sd, hself, hat⟩

theorem Manned.of_append {new : Sender} {queue : List Nat} (calls : List Nat) (subscribers : List Bytes) (hm : s.Manned)
    (hqueue : queue = if new.started then s.queue ++ [s.senders.length] else s.queue) (htodo : new.started = true → new.todo ≠ [])
    (hput : new.put = false) : Manned { s with
      senders := s.senders ++ [new], queue := queue, calls := calls, subscribers := subscribers } := by
  have hold : ∀ u, u ∈ s.queue → u < s.senders.length := fun u hu => by
    obtain ⟨sd, hsd, -⟩ := (hm.queue u).1 hu
    exact Lookup.lt_length hsd
  have hnot : s.senders.length ∉ s.queue := fun hmem => Nat.lt_irrefl _ (hold _ hmem)
  refine ⟨?_, fun u => ?_, fun u sd' hu => ?_, fun u hu => ?_⟩
  · change queue.Nodup
    rw [hqueue]
    split
    · exact List.nodup_append.2 ⟨hm.nodup, List.nodup_singleton _, fun a ha b hb he =>
        hnot (List.mem_singleton.1 hb ▸ he ▸ ha)⟩
    · exact hm.nodup
  · constructor
    · intro hmem
      have hcases : u ∈ s.queue ∨ (new.started = true ∧ u = s.senders.length) := by
        change u ∈ queue at hmem
        rw [hqueue] at hmem
        split at hmem
        · next hstarted => exact (List.mem_append.1 hmem).imp id (fun h => ⟨hstarted, List.mem_singleton.1 h⟩)
        · exact .inl hmem
      rcases hcases with hmem | ⟨hstarted, rfl⟩
      · obtain ⟨sd, hsd, hw⟩ := (hm.queue u).1 hmem
        exact ⟨sd, Lookup.append_left hsd, hw⟩
      · exact ⟨new, List.getElem?_concat_length, hstarted, htodo hstarted⟩
    · rintro ⟨sd', hsd', hw⟩
      change u ∈ queue
      rw [hqueue]
      rcases Lookup.of_append hsd' with hsd' | ⟨rfl, rfl⟩
      · have hmem := (hm.queue u).2 ⟨sd', hsd', hw⟩
        split
        · exact List.mem_append_left _ hmem
        · exact hmem
      · rw [if_pos hw.1]
        exact List.mem_append_right _ (List.mem_singleton.2 rfl)
  · rcases Lookup.of_append hu with hu | ⟨-, rfl⟩
    · exact hm.putting u sd' hu
    · exact fun h => absurd (hput.symm.trans h) Bool.false_ne_true
  · obtain ⟨sd, hsd, hat⟩ := hm.blocked u hu
    exact ⟨sd, Lookup.append_left hsd, hat⟩

theorem Manned.addHandler (hm : s.Manned) (subscribers : List Bytes) (identity : Bytes) (replay : Option Bytes) :
    (EventStream.addHandler { s with subscribers := subscribers } identity replay).Manned :=
  hm.of_append s.calls subscribers rfl (fun _ => List.cons_ne_nil _ _) rfl

section

variable {c : Prop} [Decidable c] {queue : List Nat}

theorem mem_enter {u : Nat} (hne : u ≠ t) : u ∈ (if c then queue else queue ++ [t]) ↔ u ∈ queue := by
  split
  · exact Iff.rfl
  · exact List.mem_append.trans (or_iff_left (fun hmem => hne (List.mem_singleton.1 hmem)))

theorem enter_iff (hnot : t ∉ queue) : t ∈ (if c then queue else queue ++ [t]) ↔ ¬ c := by
  split
  · next hc => exact iff_of_false hnot (fun h => h hc)
  · next hc => exact iff_of_true (List.mem_append_right _ (List.mem_singleton.2 rfl)) hc

theorem enter_nodup (hnodup : queue.Nodup) (hnot : t ∉ queue) : (if c then queue else queue ++ [t]).Nodup := by
  split
  · exact hnodup
  · exact List.nodup_append.2 ⟨hnodup, List.nodup_singleton _, fun a ha b hb he =>
      hnot (List.mem_singleton.1 hb ▸ he ▸ ha)⟩

end

theorem none_blocked {blocked : Option Nat} {P : Nat → Prop} (hfree : blocked = none) : ∀ u, blocked = some u → P u :=
  fun _ hu => absurd (hfree.symm.trans hu) (fun h => by cases h)

theorem Manned.waits (hm : s.Manned) (ht : s.senders[t]? = some sd) (hmem : t ∈ s.queue) : sd.Waits := by
  obtain ⟨sd', hsd', hw⟩ := (hm.queue t).1 hmem
  obtain rfl := Option.some.inj (ht.symm.trans hsd')
  exact hw

theorem Manned.step (hm : s.Manned) (hs : step l s = some s') : s'.Manned := by
  cases step_to hs with
  | load => exact ⟨hm.nodup, hm.queue, hm.putting, hm.blocked⟩
  | emit => exact ⟨hm.nodup, hm.queue, hm.putting, hm.blocked⟩
  | append => exact ⟨hm.nodup, hm.queue, hm.putting, hm.blocked⟩
  | loadEnd => exact ⟨hm.nodup, hm.queue, hm.putting, hm.blocked⟩
  | dropped => exact ⟨hm.nodup, hm.queue, hm.putting, hm.blocked⟩
  | stop => exact ⟨hm.nodup, hm.queue, hm.putting, hm.blocked⟩
  | @broadcast _ _ calls => exact hm.of_append calls s.subscribers rfl (fun h => by cases h) rfl
  | @start t sd hfree ht hstart _ =>
    have hnot : t ∉ s.queue := fun hmem => Bool.false_ne_true (hstart.symm.trans (hm.waits ht hmem).1)
    refine hm.of_modify ht (enter_nodup hm.nodup hnot) (fun u hne => mem_enter hne) ?_ ?_ (none_blocked hfree)
    · exact (enter_iff hnot).trans ⟨fun h => ⟨rfl, h⟩, And.right⟩
    · exact hm.putting t sd ht
  | subscribe => exact hm.addHandler _ _ _
  | unsubscribe => exact hm.addHandler _ _ _
  | reply => exact hm.addHandler s.subscribers _ _
  | @put t sd message rest queue hfree ht htodo hhead hput =>
    have hmem : t ∈ s.queue := hhead ▸ List.mem_cons_self
    have hw := hm.waits ht hmem
    exact hm.of_modify ht hm.nodup (fun _ _ => Iff.rfl) (iff_of_true hmem hw) (fun _ => hw.2) (none_blocked hfree)
  | @finish t sd queue hfree ht hhead hput =>
    have hw := hm.waits ht (hhead ▸ List.mem_cons_self)
    have hnodup : (t :: queue).Nodup := hhead ▸ hm.nodup
    have hnot := (List.nodup_cons.1 hnodup).1
    refine hm.of_modify ht (enter_nodup (List.nodup_cons.1 hnodup).2 hnot) (fun u hne => ?_) ?_ (fun h => by cases h) ?_
    · rw [mem_enter hne, hhead, List.mem_cons, or_iff_right hne]
    · exact (enter_iff hnot).trans ⟨fun h => ⟨hw.1, h⟩, And.right⟩
    · intro u hu
      split at hu
      · next hc => exact ⟨(Option.some.inj hu).symm, hw.1, hc.1, rfl, hc.2.2, hc.2.1⟩
      · cases hu
  | @readHistory t sd identity hblocked ht hreplay =>
    obtain ⟨sd', hsd', hat⟩ := hm.blocked t hblocked
    obtain rfl := Option.some.inj (ht.symm.trans hsd')
    have hnot : t ∉ s.queue := fun hmem => (hm.waits ht hmem).2 hat.todo
    refine hm.of_modify ht (enter_nodup hm.nodup hnot) (fun u hne => mem_enter hne) ?_ ?_ (none_blocked rfl)
    · exact (enter_iff hnot).trans ⟨fun h => ⟨hat.started, fun hnil => h (List.map_eq_nil_iff.1 hnil)⟩,
        fun hw hnil => hw.2 (List.map_eq_nil_iff.2 hnil)⟩
    · exact fun hput => absurd (hat.put.symm.trans hput) Bool.false_ne_true
  | @ends t hfree =>
    cases ht : s.senders[t]? with
    | none =>
      have hnot : t ∉ s.queue := fun hmem => by
        obtain ⟨sd, hsd, -⟩ := (hm.queue t).1 hmem
        rw [ht] at hsd
        cases hsd
      have hsame : s.senders.modify t (fun sd => { sd with todo := [], put := false }) = s.senders :=
        List.modify_eq_self (List.getElem?_eq_none_iff.1 ht)
      simp only [modifySender, hsame, List.erase_of_not_mem hnot]
      exact hm
    | some sd =>
      refine hm.of_modify ht (hm.nodup.erase t) (fun u hne => List.mem_erase_of_ne hne) ?_ (fun h => by cases h)
        (none_blocked hfree)
      exact iff_of_false (fun hmem => (hm.nodup.mem_erase_iff.1 hmem).1 rfl) (fun hw => hw.2 rfl)

/-! ## The senders come to an end -/

theorem work_modify {f : Sender → Sender} (ht : s.senders[t]? = some sd)
    (hf : (f sd).work s.history.length + 1 = sd.work s.history.length) :
    Sender.totalWork s.history.length (s.senders.modify t f) + 1 = Sender.totalWork s.history.length s.senders := by
  have htotal : Sender.totalWork s.history.length (s.senders.modify t f) + sd.work s.history.length =
      Sender.totalWork s.history.length s.senders + (f sd).work s.history.length := Sender.totalWork_modify ht
  omega

theorem work_step (hm : s.Manned) (hl : isSend l = true) (hs : step l s = some s') : s'.work + 1 = s.work := by
  have lowers : ∀ {t : Nat} {sd : Sender} {f : Sender → Sender}, s.senders[t]? = some sd →
      (f sd).work s.history.length + 1 = sd.work s.history.length → s'.senders = s.senders.modify t f →
      s'.history = s.history → s'.loading = s.loading → s'.work + 1 = s.work := by
    intro t sd f ht hf hsenders hhistory hloading
    have htotal := work_modify ht hf
    unfold work
    rw [hsenders, hhistory, hloading]
    omega
  have hs' := hs
  cases step_to hs with
  | loadEnd =>
    simp only [step, stepLoadEnd] at hs'
    split at hs'
    · next hloading =>
      unfold work
      rw [if_pos hloading]
      rfl
    · cases hs'
  | @start t sd _ ht hstart _ =>
    refine lowers (f := fun sd => { sd with started := true }) ht ?_ rfl rfl rfl
    simp only [Sender.work, Sender.outbox, hstart, Bool.false_eq_true, if_true, if_false]
    omega
  | @put t sd message rest _ _ ht htodo _ hput =>
    refine lowers (f := fun sd => { sd with put := true }) ht ?_ rfl rfl rfl
    simp only [Sender.work, Sender.outbox, hput, htodo, Bool.false_eq_true, if_true, if_false, List.tail_cons,
      List.length_cons]
    omega
  | @finish t sd _ _ ht _ hput =>
    refine lowers (f := fun sd => { sd with todo := sd.todo.tail, put := false }) ht ?_ rfl rfl rfl
    simp only [Sender.work, Sender.outbox, hput, Bool.false_eq_true, if_true, if_false]
    omega
  | @readHistory t sd identity hblocked ht hreplay =>
    obtain ⟨sd', hsd', hat⟩ := hm.blocked t hblocked
    obtain rfl := Option.some.inj (ht.symm.trans hsd')
    refine lowers (f := fun sd =>
      { sd with todo := s.history.map (fun e => (identity, Payload.history e)), read := true }) ht ?_ rfl rfl rfl
    simp only [Sender.work, Sender.outbox, hat.todo, hat.put, hat.read, hat.replay, hat.started, List.length_map,
      Bool.false_eq_true, Bool.true_eq_false, and_true, and_false, if_true, if_false, List.length_nil]
    omega
  | _ => cases hl

/-- No step of the senders is possible. -/
def Idle (s : EventStream) : Prop := ∀ l, isSend l = true → step l s = none

theorem idle_of_work (hm : s.Manned) (hw : s.work = 0) : s.Idle := by
  intro l hl
  cases hs : step l s with
  | none => rfl
  | some s' =>
    have hone := work_step hm hl hs
    omega

theorem Idle.loading (hi : s.Idle) : s.loading = false := by
  have hnone := hi .loadEnd rfl
  simp only [step, stepLoadEnd] at hnone
  split at hnone
  · cases hnone
  · next hloading => exact Bool.eq_false_iff.2 hloading

theorem Idle.blocked (hi : s.Idle) (hm : s.Manned) : s.blocked = none := by
  cases hb : s.blocked with
  | none => rfl
  | some t =>
    obtain ⟨sd, hsd, hat⟩ := hm.blocked t hb
    obtain ⟨identity, hreplay⟩ := Option.isSome_iff_exists.1 hat.replay
    have hnone := hi .readHistory rfl
    simp [step, stepReadHistory, hb, hsd, hreplay, hi.loading] at hnone

theorem Idle.queue (hi : s.Idle) (hm : s.Manned) : s.queue = [] := by
  cases hq : s.queue with
  | nil => rfl
  | cons t queue =>
    obtain ⟨sd, hsd, -, htodo⟩ := (hm.queue t).1 (hq ▸ List.mem_cons_self)
    obtain ⟨message, rest, htodo⟩ := List.exists_cons_of_ne_nil htodo
    cases hput : sd.put with
    | false =>
      have hnone := hi (.put t) rfl
      simp [step, stepPut, hsd, htodo, hi.blocked hm, hq, hput] at hnone
    | true =>
      have hnone := hi (.finish t) rfl
      simp [step, stepFinish, hsd, hi.blocked hm, hq, hput] at hnone

theorem Idle.started (hi : s.Idle) (hm : s.Manned) : ∀ sd ∈ s.senders, sd.started = true := by
  by_contra hall
  have hex : ∃ t : Nat, ∃ sd : Sender, s.senders[t]? = some sd ∧ sd.started = false := by
    push Not at hall
    obtain ⟨sd, hmem, hstart⟩ := hall
    obtain ⟨t, ht⟩ := List.mem_iff_getElem?.1 hmem
    exact ⟨t, sd, ht, Bool.eq_false_iff.2 hstart⟩
  classical
  obtain ⟨sd, hsd, hstart⟩ := Nat.find_spec hex
  have hfirst : (s.senders.take (Nat.find hex)).all Sender.started = true := by
    refine List.all_eq_true.2 (fun ud hmem => ?_)
    obtain ⟨u, hu⟩ := List.mem_iff_getElem?.1 hmem
    have hlt : u < Nat.find hex := by
      have hlen := Lookup.lt_length hu
      rw [List.length_take] at hlen
      omega
    rw [List.getElem?_take_of_lt hlt] at hu
    by_contra hunstarted
    exact Nat.find_min hex hlt ⟨ud, hu, Bool.eq_false_iff.2 hunstarted⟩
  have hnone := hi (.start (Nat.find hex)) rfl
  simp only [step, stepStart, hsd, hi.blocked hm, hstart, hfirst, Option.bind_eq_bind, Option.bind_some, and_self,
    if_true, reduceCtorEq] at hnone

theorem Idle.outbox (hi : s.Idle) (hm : s.Manned) : ∀ sd ∈ s.senders, sd.outbox = [] := by
  intro sd hmem
  obtain ⟨t, ht⟩ := List.mem_iff_getElem?.1 hmem
  have htodo : sd.todo = [] := by
    by_contra htodo
    have hin := (hm.queue t).2 ⟨sd, ht, hi.started hm sd hmem, htodo⟩
    rw [hi.queue hm] at hin
    cases hin
  unfold Sender.outbox
  rw [htodo]
  split <;> rfl

/-! ## Nothing is lost -/

theorem count_ledger_eq (hm : s.Manned) (hl : isEnds l = false) (hs : step l s = some s') (message : Bytes × Payload) :
    s'.ledger.count message = s.ledger.count message + (s.adds l).count message := by
  cases step_to hs with
  | broadcast _ hcalls hlive _ =>
    simp only [adds, hcalls, if_neg hlive, ledger, List.flatMap_append, List.flatMap_singleton, List.count_append,
      Sender.outbox, Bool.false_eq_true, if_false]
    omega
  | dropped _ hcalls hdrop =>
    simp only [adds, hcalls, if_pos hdrop]
    exact (Nat.add_zero _).symm
  | @start t sd _ ht _ _ =>
    have hcount := count_ledger_modify (m := message) (f := fun sd => { sd with started := true }) ht
    have hsame : ({ sd with started := true } : Sender).outbox = sd.outbox := rfl
    rw [hsame] at hcount
    exact Nat.add_right_cancel hcount
  | subscribe => exact count_ledger_addHandler ..
  | unsubscribe => exact count_ledger_addHandler ..
  | reply => exact count_ledger_addHandler ..
  | put _ ht htodo _ hput =>
    have hcount := Lookup.count_flatMap_modify (f := fun sd => { sd with put := true }) (g := Sender.outbox) ht message
    simp only [Sender.outbox, hput, htodo, Bool.false_eq_true, if_false, if_true, List.tail_cons,
      List.count_cons] at hcount
    simp only [adds, ledger, modifySender, List.count_append, List.count_cons, List.count_nil]
    omega
  | @finish t sd _ _ ht _ hput =>
    have hcount := count_ledger_modify (m := message) (f := fun sd => { sd with todo := sd.todo.tail, put := false }) ht
    have hsame : ({ sd with todo := sd.todo.tail, put := false } : Sender).outbox = sd.outbox := by
      simp only [Sender.outbox, hput, Bool.false_eq_true, if_false, if_true]
    rw [hsame] at hcount
    exact Nat.add_right_cancel hcount
  | @readHistory t sd identity hblocked ht hreplay =>
    obtain ⟨sd', hsd', hat⟩ := hm.blocked t hblocked
    obtain rfl := Option.some.inj (ht.symm.trans hsd')
    have hcount := count_ledger_modify (m := message)
      (f := fun sd => { sd with todo := s.history.map (fun e => (identity, Payload.history e)), read := true }) ht
    have hnone : sd.outbox = [] := by
      rw [Sender.outbox, hat.todo]
      split <;> rfl
    have hall : ({ sd with todo := s.history.map (fun e => (identity, Payload.history e)), read := true } : Sender).outbox =
        s.history.map (fun e => (identity, Payload.history e)) := by
      simp only [Sender.outbox, hat.put, Bool.false_eq_true, if_false]
    rw [hnone, hall] at hcount
    simp only [adds, hblocked, ht, Option.bind_some, hreplay]
    change (s.modifySender t _).ledger.count message = _
    exact hcount
  | ends => cases hl
  | _ => exact (Nat.add_zero _).symm

/-- The messages that a run gives its senders. -/
def owed : List StreamLabel → EventStream → List (Bytes × Payload)
  | [], _ => []
  | l :: ls, s => s.adds l ++ (step l s).elim [] (owed ls)

/-- The event that a step broadcasts. -/
def broadcasting (s : EventStream) : StreamLabel → Option Nat
  | .broadcast _ => if s.running then s.calls.head? else none
  | _ => none

/-- The clients that a run broadcasts an event to: those subscribed when it is broadcast. -/
def audience (e : Nat) : List StreamLabel → EventStream → List Bytes
  | [], _ => []
  | l :: ls, s => (if s.broadcasting l = some e then s.subscribers else []) ++ (step l s).elim [] (audience e ls)

variable {ls : List StreamLabel}

theorem run_count (hm : s.Manned) (hl : ∀ l ∈ ls, isEnds l = false) (hr : Runs.run step ls s = some s')
    (message : Bytes × Payload) :
    s'.Manned ∧ s'.ledger.count message = s.ledger.count message + (owed ls s).count message := by
  induction ls generalizing s with
  | nil =>
    obtain rfl := Option.some.inj hr
    exact ⟨hm, rfl⟩
  | cons l ls ih =>
    obtain ⟨u, hs, hr⟩ := Runs.run_cons_some hr
    have hstep := count_ledger_eq hm (hl l List.mem_cons_self) hs message
    obtain ⟨hm', hrest⟩ := ih (hm.step hs) (fun l' hl' => hl l' (List.mem_cons_of_mem _ hl')) hr
    refine ⟨hm', ?_⟩
    rw [hrest, hstep, owed, hs, List.count_append, Option.elim_some]
    omega

theorem adds_live (hs : step l s = some s') (identity : Bytes) (e : Nat) :
    (s.adds l).count (identity, .live e) =
      (if s.broadcasting l = some e then s.subscribers else []).count identity := by
  have silent : ∀ messages : List (Bytes × Payload), (∀ message ∈ messages, message.2 ≠ .live e) →
      messages.count (identity, .live e) = 0 := fun _ hall => List.count_eq_zero.2 (fun hmem => hall _ hmem rfl)
  cases step_to hs with
  | @dropped order e' calls _ hcalls hdrop =>
    simp only [adds, hcalls, if_pos hdrop, List.count_nil, broadcasting, List.head?_cons]
    rcases hdrop with hstopped | hnone
    · simp only [hstopped, Bool.false_eq_true, if_false, reduceCtorEq, List.count_nil]
    · rw [hnone, ite_self]
      rfl
  | @broadcast order e' calls _ hcalls hlive hperm =>
    have hrun : s.running = true := by
      by_contra hrun
      exact hlive (.inl (Bool.eq_false_iff.2 hrun))
    simp only [adds, hcalls, if_neg hlive, broadcasting, List.head?_cons]
    rw [if_pos hrun]
    by_cases he : e' = e
    · subst he
      rw [if_pos rfl, ← hperm.count_eq]
      exact List.count_map_of_injective order (fun identity => (identity, Payload.live e'))
        (fun _ _ h => (Prod.mk.inj h).1) identity
    · rw [if_neg (fun h => he (Option.some.inj h))]
      refine silent _ (fun message hmem hlive => ?_)
      obtain ⟨_, -, rfl⟩ := List.mem_map.1 hmem
      exact he (Payload.live.inj hlive)
  | subscribe | unsubscribe | reply => exact silent _ (fun message hmem => by rw [List.mem_singleton.1 hmem]; exact fun h => by cases h)
  | readHistory hblocked ht hreplay =>
    simp only [adds, hblocked, ht, Option.bind_some, hreplay, broadcasting, reduceCtorEq, if_false, List.count_nil]
    refine silent _ (fun message hmem hlive => ?_)
    obtain ⟨_, -, rfl⟩ := List.mem_map.1 hmem
    cases hlive
  | _ => rfl

theorem owed_live (hr : Runs.run step ls s = some s') (identity : Bytes) (e : Nat) :
    (owed ls s).count (identity, .live e) = (audience e ls s).count identity := by
  induction ls generalizing s with
  | nil => rfl
  | cons l ls ih =>
    obtain ⟨u, hs, hr⟩ := Runs.run_cons_some hr
    have hrest := ih hr
    have hstep := adds_live hs identity e
    rw [owed, audience, hs, Option.elim_some, Option.elim_some, List.count_append, List.count_append, hrest, hstep]

theorem manned_init (startup : Nat) : (init startup).Manned where
  nodup := .nil
  queue t := iff_of_false (fun hmem => by cases hmem) (fun ⟨_, hsd, _⟩ => by cases hsd)
  putting _ _ hsd := by cases hsd
  blocked _ hb := by cases hb

theorem audience_append {e : Nat} {ls' : List StreamLabel} (hr : Runs.run step ls s = some s') :
    audience e (ls ++ ls') s = audience e ls s ++ audience e ls' s' := by
  induction ls generalizing s with
  | nil => rw [Option.some.inj hr, List.nil_append, audience, List.nil_append]
  | cons l ls ih =>
    obtain ⟨u, hs, hr⟩ := Runs.run_cons_some hr
    rw [List.cons_append, audience, audience, hs, Option.elim_some, Option.elim_some, ih hr, List.append_assoc]

/-- Sends bring no new event. -/
theorem audience_sends {e : Nat} (hsend : ∀ l ∈ ls, isSend l = true) : audience e ls s = [] := by
  induction ls generalizing s with
  | nil => rfl
  | cons l ls ih =>
    have hnone : s.broadcasting l = none := by
      have hl := hsend l List.mem_cons_self
      cases l with
      | broadcast order => cases hl
      | _ => rfl
    rw [audience, hnone, if_neg (fun h => by cases h), List.nil_append]
    cases step l s with
    | none => rfl
    | some u => exact ih (fun l' hl' => hsend l' (List.mem_cons_of_mem _ hl'))

theorem run_work (hm : s.Manned) (hsend : ∀ l ∈ ls, isSend l = true) (hr : Runs.run step ls s = some s') :
    s'.work + ls.length = s.work := by
  induction ls generalizing s with
  | nil => exact Option.some.inj hr ▸ rfl
  | cons l ls ih =>
    obtain ⟨u, hs, hr⟩ := Runs.run_cons_some hr
    have hone := work_step hm (hsend l List.mem_cons_self) hs
    have hrest := ih (hm.step hs) (fun l' hl' => hsend l' (List.mem_cons_of_mem _ hl')) hr
    rw [List.length_cons]
    omega

theorem isEnds_of_isSend (hl : isSend l = true) : isEnds l = false := by
  cases l with
  | ends => cases hl
  | _ => rfl

/-- Once the senders of a run in which none was cut short are idle, all that the run gave
them is sent and nothing else, and each event has gone, once, to exactly its audience. -/
theorem Idle.sent {startup : Nat} (hidle : s'.Idle) (hends : ∀ l ∈ ls, isEnds l = false)
    (hr : Runs.run step ls (init startup) = some s') :
    s'.sent.Perm (owed ls (init startup)) ∧
      ∀ identity e, s'.sent.count (identity, .live e) = if identity ∈ audience e ls (init startup) then 1 else 0 := by
  have hm : s'.Manned := (run_count (manned_init startup) hends hr (default, .reply)).1
  have hledger : s'.ledger = s'.sent := by
    rw [ledger, List.flatMap_eq_nil_iff.2 (hidle.outbox hm), List.append_nil]
  have hcount : ∀ message, s'.sent.count message = (owed ls (init startup)).count message := by
    intro message
    have hrun := (run_count (manned_init startup) hends hr message).2
    have hnil : (init startup).ledger.count message = 0 := rfl
    rw [hledger, hnil] at hrun
    omega
  refine ⟨List.perm_iff_count.2 hcount, fun identity e => ?_⟩
  have hnumbered : s'.Numbered := Runs.run_inv (fun _ _ _ hn hs => hn.step hs) (numbered_init startup) hr
  have honce := hnumbered.once identity e
  rw [hledger, hcount, owed_live hr] at honce
  rw [hcount, owed_live hr]
  split
  · next hmem =>
    have hpos := List.count_pos_iff.2 hmem
    omega
  · next hmem => exact List.count_eq_zero.2 hmem

/-- In every run in which no sender is cut short: left alone, the senders come to
an end within a bound, in whatever order they run, and then all that the run gave
them is sent and nothing else, and each event has gone, once, to exactly the clients
that were subscribed when it was broadcast. -/
theorem broadcast_reaches_audience {startup : Nat} {ls ls' : List StreamLabel} {s t : EventStream}
    (hends : ∀ l ∈ ls, isEnds l = false) (hr : Runs.run step ls (init startup) = some s)
    (hsend : ∀ l ∈ ls', isSend l = true) (hr' : Runs.run step ls' s = some t) :
    ls'.length ≤ s.work ∧ (t.Idle →
      t.sent.Perm (owed (ls ++ ls') (init startup)) ∧
      ∀ identity e, t.sent.count (identity, .live e) =
        if identity ∈ audience e ls (init startup) then 1 else 0) := by
  have hm : s.Manned := (run_count (manned_init startup) hends hr (default, .reply)).1
  have hlength := run_work hm hsend hr'
  refine ⟨by omega, fun hidle => ?_⟩
  have hall : ∀ l ∈ ls ++ ls', isEnds l = false :=
    fun l hl => (List.mem_append.1 hl).elim (hends l) (fun h => isEnds_of_isSend (hsend l h))
  obtain ⟨hperm, hcount⟩ := hidle.sent hall ((Runs.run_append hr).trans hr')
  refine ⟨hperm, fun identity e => ?_⟩
  rw [hcount, audience_append hr, audience_sends hsend, List.append_nil]

/-- A second client subscribes between two events and asks for the history. -/
def lateSubscriber : List StreamLabel :=
  [.subscribe [1] false, .emit false, .broadcast [[1]], .subscribe [2] true, .emit false, .broadcast [[2], [1]]]

def lateSubscriberSends : List StreamLabel :=
  [.put 0, .start 1, .finish 0, .put 2, .start 3, .finish 2, .readHistory, .put 1, .finish 1, .put 3, .finish 3, .put 2,
    .finish 2, .put 3, .finish 3]

theorem broadcast_reaches_lateSubscriber : ∃ s t, Runs.run step lateSubscriber (init 1) = some s ∧
    Runs.run step lateSubscriberSends s = some t ∧ lateSubscriberSends.length ≤ s.work ∧ t.Idle ∧
    t.sent.count ([2], .live 1) = 0 ∧ t.sent.count ([2], .live 2) = 1 := by
  obtain ⟨s, t, hs, ht, hwork⟩ : ∃ s t, Runs.run step lateSubscriber (init 1) = some s ∧
      Runs.run step lateSubscriberSends s = some t ∧ t.work = 0 := ⟨_, _, rfl, rfl, rfl⟩
  have hm : t.Manned := Runs.run_inv (fun _ _ _ hm hs => hm.step hs)
    (Runs.run_inv (fun _ _ _ hm hs => hm.step hs) (manned_init 1) hs) ht
  obtain ⟨hlength, hsent⟩ := broadcast_reaches_audience (by decide) hs (by decide) ht
  have hidle := idle_of_work hm hwork
  exact ⟨s, t, hs, ht, hlength, hidle, (hsent hidle).2 [2] 1, (hsent hidle).2 [2] 2⟩

end EventStream

end VsRemote
