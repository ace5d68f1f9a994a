import VsRemote.BroadcastReach

/-! The history replayed to a client beside the live stream. -/

namespace VsRemote

def asksReplay (identity : Bytes) (sd : Sender) : Bool := sd.replay = some identity

def hasRead (identity : Bytes) (sd : Sender) : Bool := sd.replay = some identity ∧ sd.read

namespace EventStream

variable {s s' : EventStream} {l : StreamLabel} {identity : Bytes} {t : Nat}

/-- Every event has been sent to the client at most once, live or from the history. -/
def AtMostOnce (identity : Bytes) (s : EventStream) : Prop :=
  ∀ e, s.sent.count (identity, .live e) + s.sent.count (identity, .history e) ≤ 1

/-- The startup events as a step reads them for the replay of the client. -/
def reading (identity : Bytes) (s : EventStream) : StreamLabel → List Nat
  | .readHistory =>
    if s.blocked.bind (fun t => s.senders[t]?.bind Sender.replay) = some identity then s.history else []
  | _ => []

/-- The startup events that are read in a run for the replay of the client. -/
def given (identity : Bytes) : List StreamLabel → EventStream → List Nat
  | [], _ => []
  | l :: ls, s => s.reading identity l ++ (step l s).elim [] (given identity ls)

/-- No event that is read for the client is broadcast, before or after that, while the
client is a subscriber. -/
def Apart (identity : Bytes) (ls : List StreamLabel) (s : EventStream) : Prop :=
  ∀ e ∈ given identity ls s, identity ∉ audience e ls s

instance (identity : Bytes) (ls : List StreamLabel) (s : EventStream) : Decidable (Apart identity ls s) :=
  inferInstanceAs (Decidable (∀ e ∈ given identity ls s, identity ∉ audience e ls s))

/-- How many requests of the client ask for a replay, and how many have read the history. -/
def requests (identity : Bytes) (s : EventStream) : Nat := s.senders.countP (asksReplay identity)

def readers (identity : Bytes) (s : EventStream) : Nat := s.senders.countP (hasRead identity)

theorem readers_le_requests : s.readers identity ≤ s.requests identity := by
  refine List.countP_mono_left (fun sd _ hread => ?_)
  simp only [hasRead, decide_eq_true_eq] at hread
  simp only [asksReplay, hread.1, decide_true]

theorem requests_step (hs : step l s = some s') :
    s'.requests identity ≤ s.requests identity + if l = .subscribe identity true then 1 else 0 := by
  have hmodify : ∀ (t : Nat) (f : Sender → Sender), (∀ sd, (f sd).replay = sd.replay) →
      (s.senders.modify t f).countP (asksReplay identity) ≤ s.senders.countP (asksReplay identity) + 0 :=
    fun t f hf => Nat.le_of_eq (Lookup.countP_modify_of_eq (fun sd => by simp only [asksReplay, hf]))
  cases step_to hs with
  | broadcast =>
    simp [requests, asksReplay]
  | @subscribe identity' replayHistory =>
    simp only [requests, addHandler, List.countP_append, List.countP_singleton, asksReplay]
    cases replayHistory with
    | false => simp
    | true =>
      by_cases hid : identity' = identity
      · subst hid
        simp
      · simp [hid]
  | unsubscribe => simp [requests, addHandler, asksReplay]
  | reply => simp [requests, addHandler, asksReplay]
  | start => exact hmodify _ _ (fun _ => rfl)
  | put => exact hmodify _ _ (fun _ => rfl)
  | finish => exact hmodify _ _ (fun _ => rfl)
  | readHistory => exact hmodify _ _ (fun _ => rfl)
  | ends => exact hmodify _ _ (fun _ => rfl)
  | _ => exact Nat.le_refl _

/-- A handler waiting for the history has not read it, and what the client is to
get from the history was read for it, once by each handler. -/
structure Replays (identity : Bytes) (s : EventStream) : Prop where
  distinct : (s.history ++ s.capturing).Nodup
  bounded : ∀ e ∈ s.history ++ s.capturing, e < s.next
  waiting : ∀ t, s.blocked = some t → ∃ sd, s.senders[t]? = some sd ∧ sd.read = false
  replayed : ∀ e, s.ledger.count (identity, .history e) ≤ s.readers identity

theorem remember_sublist (history : List Nat) (e : Nat) : (remember history e).Sublist (history ++ [e]) :=
  List.drop_sublist ..

theorem readers_step (hs : step l s = some s') : s.readers identity ≤ s'.readers identity := by
  have hmodify : ∀ (t : Nat) (f : Sender → Sender), (∀ sd, (f sd).replay = sd.replay ∧ (sd.read → (f sd).read)) →
      s.senders.countP (hasRead identity) ≤ (s.senders.modify t f).countP (hasRead identity) := by
    intro t f hf
    refine Lookup.countP_le_modify (fun sd hread => ?_)
    simp only [hasRead, decide_eq_true_eq] at hread ⊢
    exact ⟨(hf sd).1.trans hread.1, (hf sd).2 hread.2⟩
  cases step_to hs with
  | broadcast | subscribe | unsubscribe | reply =>
    simp only [readers, addHandler, List.countP_append]
    omega
  | start => exact hmodify _ _ (fun _ => ⟨rfl, id⟩)
  | put => exact hmodify _ _ (fun _ => ⟨rfl, id⟩)
  | finish => exact hmodify _ _ (fun _ => ⟨rfl, id⟩)
  | ends => exact hmodify _ _ (fun _ => ⟨rfl, id⟩)
  | readHistory => exact hmodify _ _ (fun _ => ⟨rfl, fun _ => rfl⟩)
  | _ => exact Nat.le_refl _

theorem history_step (hs : step l s = some s') :
    s.next ≤ s'.next ∧ ∃ new : List Nat, (s'.history ++ s'.capturing).Subperm (s.history ++ s.capturing ++ new) ∧
      (new = [] ∨ (new = [s.next] ∧ s'.next = s.next + 1)) := by
  have hsame : (s.history ++ s.capturing).Subperm (s.history ++ s.capturing ++ []) := by
    rw [List.append_nil]
  cases step_to hs with
  | load =>
    refine ⟨Nat.le_refl _, [], ?_, .inl rfl⟩
    rw [List.append_nil]
    exact (List.sublist_append_right ..).subperm
  | @emit captured =>
    refine ⟨Nat.le_add_right .., [s.next], ?_, .inr ⟨rfl, rfl⟩⟩
    change (s.history ++ if captured = true then s.capturing ++ [s.next] else s.capturing).Subperm _
    split
    · rw [List.append_assoc]
    · exact (List.sublist_append_left ..).subperm
  | @append e he =>
    refine ⟨Nat.le_refl _, [], ?_, .inl rfl⟩
    have hmoved : (s.history ++ [e] ++ s.capturing.erase e).Perm (s.history ++ s.capturing) := by
      rw [List.append_assoc]
      exact (List.perm_cons_erase he).symm.append_left s.history
    have hkept := ((remember_sublist s.history e).append_right (s.capturing.erase e)).subperm.trans hmoved.subperm
    simp only [List.append_nil]
    exact hkept
  | _ => exact ⟨Nat.le_refl _, [], hsame, .inl rfl⟩

theorem waiting_step (hw : ∀ t, s.blocked = some t → ∃ sd, s.senders[t]? = some sd ∧ sd.read = false)
    (hs : step l s = some s') (hblocked : s'.blocked = some t) :
    ∃ sd, s'.senders[t]? = some sd ∧ sd.read = false := by
  cases step_to hs with
  | load | emit | append | loadEnd => exact hw t hblocked
  | @finish t' sd queue _ ht _ _ =>
    change (if sd.todo.tail = [] ∧ sd.replay.isSome = true ∧ sd.read = false then some t' else none) = some t at hblocked
    split at hblocked
    · next hc =>
      obtain rfl := Option.some.inj hblocked
      refine ⟨{ sd with todo := sd.todo.tail, put := false }, ?_, hc.2.2⟩
      simp only [modifySender, List.getElem?_modify_eq, ht, Option.map_eq_map, Option.map_some]
    · cases hblocked
  | readHistory => cases hblocked
  | dropped hfree | broadcast hfree | start hfree | subscribe hfree | unsubscribe hfree | reply hfree | put hfree
  | ends hfree | stop hfree => cases hfree.symm.trans hblocked

/-- The history of a client is added by the reading of a handler that asked for it. -/
theorem history_adds (hr : Replays identity s) (hs : step l s = some s') {e : Nat}
    (hm : (identity, .history e) ∈ s.adds l) :
    l = .readHistory ∧ (s.adds l).count (identity, .history e) ≤ 1 ∧
      s.readers identity + 1 ≤ s'.readers identity := by
  cases step_to hs with
  | dropped _ hcalls hdrop =>
    simp only [adds, hcalls, if_pos hdrop] at hm
    cases hm
  | broadcast _ hcalls hlive hperm =>
    simp only [adds, hcalls, if_neg hlive, List.mem_map, Prod.mk.injEq, reduceCtorEq, and_false, exists_false] at hm
  | @readHistory t sd identity' hblocked ht hreplay =>
    simp only [adds, hblocked, ht, Option.bind_some, hreplay, List.mem_map, Prod.mk.injEq, Payload.history.injEq] at hm
    obtain ⟨e', -, rfl, rfl⟩ := hm
    obtain ⟨sd', ht', hread⟩ := hr.waiting t hblocked
    obtain rfl := Option.some.inj (ht.symm.trans ht')
    have hnd : (s.history.map (fun e => (identity', Payload.history e))).Nodup := by
      refine (List.nodup_append.1 hr.distinct).1.map (fun a b he => ?_)
      exact Payload.history.inj (Prod.mk.inj he).2
    refine ⟨rfl, ?_, Nat.le_of_eq ?_⟩
    · simp only [adds, hblocked, ht, Option.bind_some, hreplay]
      exact List.nodup_iff_count_le_one.1 hnd _
    · refine (Lookup.countP_modify ht ?_ ?_).symm
      · simp only [hasRead, hread, Bool.false_eq_true, and_false, decide_false]
      · simp only [hasRead, hreplay, and_self, decide_true]
  | subscribe | unsubscribe | reply => simp [adds] at hm
  | _ => cases hm

theorem Replays.step (hr : Replays identity s) (hs : step l s = some s') : Replays identity s' := by
  obtain ⟨hnext, new, ⟨kept, hperm, hsub⟩, hnew⟩ := history_step hs
  have hall : (s.history ++ s.capturing ++ new).Nodup ∧ ∀ e ∈ s.history ++ s.capturing ++ new, e < s'.next := by
    rcases hnew with rfl | ⟨rfl, hs'⟩
    · rw [List.append_nil]
      exact ⟨hr.distinct, fun e he => Nat.lt_of_lt_of_le (hr.bounded e he) hnext⟩
    · refine ⟨List.nodup_append.2 ⟨hr.distinct, List.nodup_singleton _, fun a ha b hb he => ?_⟩, fun e he => ?_⟩
      · have hlt := hr.bounded a ha
        rw [he, List.mem_singleton.1 hb] at hlt
        exact Nat.lt_irrefl _ hlt
      · rcases List.mem_append.1 he with he | he
        · exact Nat.lt_of_lt_of_le (hr.bounded e he) hnext
        · rw [List.mem_singleton.1 he, hs']
          exact Nat.lt_succ_self _
  refine ⟨hperm.nodup_iff.1 (hall.1.sublist hsub), fun e he => hall.2 e (hsub.subset (hperm.mem_iff.2 he)),
    fun t hblocked => waiting_step hr.waiting hs hblocked, fun e => ?_⟩
  have hle := count_ledger_step hs (identity, .history e)
  have hbefore := hr.replayed e
  by_cases hm : (identity, Payload.history e) ∈ s.adds l
  · obtain ⟨-, hone, hread⟩ := history_adds hr hs hm
    omega
  · have hzero := List.count_eq_zero.2 hm
    have hgrow : s.readers identity ≤ s'.readers identity := readers_step hs
    omega

theorem replays_init (startup : Nat) : Replays identity (init startup) where
  distinct := by
    rw [show (init startup).history ++ (init startup).capturing = List.range startup from List.append_nil _]
    exact List.nodup_range
  bounded e he := by
    rw [show (init startup).history ++ (init startup).capturing = List.range startup from List.append_nil _] at he
    exact List.mem_range.1 he
  waiting _ hblocked := by cases hblocked
  replayed _ := Nat.zero_le _

/-! ## The two ways of an event -/

theorem adds_history (hs : step l s = some s') (identity : Bytes) (e : Nat) :
    (s.adds l).count (identity, .history e) = (s.reading identity l).count e := by
  have silent : ∀ messages : List (Bytes × Payload), (identity, Payload.history e) ∉ messages →
      messages.count (identity, .history e) = 0 := fun _ => List.count_eq_zero.2
  cases step_to hs with
  | dropped _ hcalls hdrop =>
    simp only [adds, hcalls, if_pos hdrop]
    rfl
  | broadcast _ hcalls hlive =>
    simp only [adds, hcalls, if_neg hlive]
    refine silent _ (fun hmem => ?_)
    obtain ⟨_, -, heq⟩ := List.mem_map.1 hmem
    cases heq
  | @readHistory t sd identity' hblocked ht hreplay =>
    simp only [adds, reading, hblocked, ht, Option.bind_some, hreplay, Option.some.injEq]
    by_cases hid : identity' = identity
    · subst hid
      rw [if_pos rfl]
      exact List.count_map_of_injective s.history (fun e => (identity', Payload.history e))
        (fun _ _ h => Payload.history.inj (Prod.mk.inj h).2) e
    · rw [if_neg hid, List.count_nil]
      refine silent _ (fun hmem => ?_)
      obtain ⟨_, -, heq⟩ := List.mem_map.1 hmem
      exact hid (Prod.mk.inj heq).1
  | subscribe | unsubscribe | reply =>
    refine silent _ (fun hmem => ?_)
    cases List.mem_singleton.1 hmem
  | _ => rfl

theorem owed_history {ls : List StreamLabel} (hr : Runs.run step ls s = some s') (identity : Bytes) (e : Nat) :
    (owed ls s).count (identity, .history e) = (given identity ls s).count e := by
  induction ls generalizing s with
  | nil => rfl
  | cons l ls ih =>
    obtain ⟨u, hs, hr⟩ := Runs.run_cons_some hr
    have hrest := ih hr
    have hstep := adds_history hs identity e
    rw [owed, given, hs, Option.elim_some, Option.elim_some, List.count_append, List.count_append, hrest, hstep]

/-- What a run has in its ledger for the client was broadcast while the client was a
subscriber, or read for its replay. -/
theorem always_owed {ls : List StreamLabel} {A G : Nat → Prop}
    (hlive : ∀ e, (identity, .live e) ∈ s.ledger → A e) (hhistory : ∀ e, (identity, .history e) ∈ s.ledger → G e)
    (haudience : ∀ e, identity ∈ audience e ls s → A e) (hgiven : ∀ e ∈ given identity ls s, G e) :
    Runs.Always step (fun u => ∀ e, ((identity, .live e) ∈ u.ledger → A e) ∧ ((identity, .history e) ∈ u.ledger → G e))
      ls s := by
  induction ls generalizing s with
  | nil => exact fun e => ⟨hlive e, hhistory e⟩
  | cons l ls ih =>
    refine ⟨fun e => ⟨hlive e, hhistory e⟩, fun u hs => ih (fun e hmem => ?_) (fun e hmem => ?_) (fun e hmem => ?_)
      (fun e hmem => ?_)⟩
    · rcases mem_ledger_step hs hmem with hmem | hadds
      · exact hlive e hmem
      · have hpos := List.count_pos_iff.2 hadds
        rw [adds_live hs identity e] at hpos
        refine haudience e ?_
        rw [audience]
        exact List.mem_append_left _ (List.count_pos_iff.1 hpos)
    · rcases mem_ledger_step hs hmem with hmem | hadds
      · exact hhistory e hmem
      · have hpos := List.count_pos_iff.2 hadds
        rw [adds_history hs identity e] at hpos
        refine hgiven e ?_
        rw [given]
        exact List.mem_append_left _ (List.count_pos_iff.1 hpos)
    · refine haudience e ?_
      rw [audience, hs, Option.elim_some]
      exact List.mem_append_right _ hmem
    · refine hgiven e ?_
      rw [given, hs, Option.elim_some]
      exact List.mem_append_right _ hmem

/-- With one reading of the history, and no event in the ledger by both ways, the ledger
has every event of the client at most once. -/
theorem atMostOnce_of_replays (hn : s.Numbered) (hr : Replays identity s) (hone : s.requests identity ≤ 1)
    (hapart : ∀ e, (identity, .live e) ∈ s.ledger → (identity, .history e) ∉ s.ledger) : AtMostOnce identity s := by
  intro e
  have hsent : ∀ m, s.sent.count m ≤ s.ledger.count m := fun m => (List.sublist_append_left ..).count_le m
  have hlive := Nat.le_trans (hsent _) (hn.once identity e)
  have hhistory := Nat.le_trans (hsent _) (Nat.le_trans (hr.replayed e) (Nat.le_trans readers_le_requests hone))
  by_cases hm : (identity, Payload.live e) ∈ s.ledger
  · have hzero := List.count_eq_zero.2 (hapart e hm)
    have hsentHistory := hsent (identity, .history e)
    omega
  · have hzero := List.count_eq_zero.2 hm
    have hsentLive := hsent (identity, .live e)
    omega

end EventStream

open EventStream

/-- A client that asks for one replay gets each event at most once where no event that is
read for it is broadcast while it is a subscriber; and where all senders have come to
their ends, none cut short, it gets each event at most once only then. -/
theorem history_no_overlap {identity : Bytes} {startup : Nat} {ls : List StreamLabel}
    (hone : ls.count (.subscribe identity true) ≤ 1) :
    (Apart identity ls (init startup) → Runs.Always EventStream.step (AtMostOnce identity) ls (init startup)) ∧
      ∀ s, Runs.run EventStream.step ls (init startup) = some s → (∀ l ∈ ls, isEnds l = false) → s.Idle →
        (AtMostOnce identity s ↔ Apart identity ls (init startup)) := by
  have hforward : Apart identity ls (init startup) →
      Runs.Always EventStream.step (AtMostOnce identity) ls (init startup) := by
    intro hapart
    have hinv : Runs.Always EventStream.step (fun s => s.Numbered ∧ Replays identity s) ls (init startup) :=
      Runs.Guarded.always (fun _ _ _ hi _ hs => ⟨hi.1.step hs, hi.2.step hs⟩) (Runs.Guarded.of_mem_self ls _)
        ⟨numbered_init startup, replays_init startup⟩
    have hrequests : Runs.Always EventStream.step (fun s => s.requests identity ≤ 1) ls (init startup) :=
      Runs.always_le_count (fun s l t hs => requests_step hs) (by
        rw [show (init startup).requests identity = 0 from rfl, Nat.zero_add]
        exact hone)
    have howed : Runs.Always EventStream.step (fun u => ∀ e,
        ((identity, .live e) ∈ u.ledger → identity ∈ audience e ls (init startup)) ∧
          ((identity, .history e) ∈ u.ledger → e ∈ given identity ls (init startup))) ls (init startup) :=
      always_owed (fun e hmem => by cases hmem) (fun e hmem => by cases hmem) (fun _ hmem => hmem) (fun _ hmem => hmem)
    refine ((hinv.and hrequests).and howed).mono (fun s hs => ?_)
    obtain ⟨⟨⟨hnumbered, hreplays⟩, hrequest⟩, hledger⟩ := hs
    exact atMostOnce_of_replays hnumbered hreplays hrequest
      (fun e hlive hhistory => hapart e ((hledger e).2 hhistory) ((hledger e).1 hlive))
  refine ⟨hforward, fun s hr hends hidle => ⟨fun honce e hgiven haudience => ?_, fun hapart => (hforward hapart).last hr⟩⟩
  obtain ⟨hperm, hlive⟩ := hidle.sent hends hr
  have hsentLive := hlive identity e
  rw [if_pos haudience] at hsentLive
  have hsentHistory := hperm.count_eq (identity, .history e)
  rw [owed_history hr] at hsentHistory
  have hpos := List.count_pos_iff.2 hgiven
  have hle := honce e
  omega

/-- One event of a load, broadcast before the client comes. -/
def beforeSubscribe : List StreamLabel :=
  [.load, .emit true, .append 0, .loadEnd, .broadcast [], .subscribe [1] true, .put 0, .finish 0, .readHistory,
    .put 0, .finish 0]

theorem history_no_overlap_beforeSubscribe :
    (Runs.run EventStream.step beforeSubscribe (init 0)).map EventStream.sent =
        some [([1], .reply), ([1], .history 0)] ∧
      Runs.Always EventStream.step (AtMostOnce [1]) beforeSubscribe (init 0) :=
  ⟨by decide, (history_no_overlap (by decide)).1 (by decide)⟩

/-- The broadcast of an event of the history waits until the history has been read. -/
def lateBroadcast : List StreamLabel :=
  [.load, .emit true, .append 0, .loadEnd, .subscribe [1] true, .put 0, .finish 0, .readHistory, .broadcast [[1]],
    .start 1, .put 0, .finish 0, .put 1]

theorem event_delivered_twice :
    ∃ s, Runs.run EventStream.step lateBroadcast (init 0) = some s ∧
      lateBroadcast.count (.subscribe [1] true) = 1 ∧
      s.sent = [([1], .reply), ([1], .history 0), ([1], .live 0)] ∧ ¬ AtMostOnce [1] s := by
  have hfinal : (Runs.run EventStream.step lateBroadcast (init 0)).map EventStream.sent =
      some [([1], .reply), ([1], .history 0), ([1], .live 0)] := by decide
  obtain ⟨s, hs, hsent⟩ := Option.map_eq_some_iff.1 hfinal
  refine ⟨s, hs, by decide, hsent, fun honce => ?_⟩
  have hcount := honce 0
  rw [hsent] at hcount
  exact absurd hcount (by decide)

end VsRemote
