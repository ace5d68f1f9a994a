import VsRemote.LogForwarder

/-! When a log record still has its text on the client. -/

namespace VsRemote

open PercentFormat

theorem mapM_eq_some_iff {α β : Type} {f : α → Option β} {xs : List α} {ys : List β} :
    xs.mapM f = some ys ↔ List.Forall₂ (fun x y => f x = some y) xs ys := by
  induction xs generalizing ys with
  | nil => cases ys <;> simp [List.mapM_nil]
  | cons x xs ih =>
    rw [List.forall₂_cons_left_iff, List.mapM_cons]
    simp only [← ih, Option.bind_eq_bind, Option.bind_eq_some_iff, Option.pure_def, Option.some.injEq]
    constructor
    · rintro ⟨y, hy, ys', hys', rfl⟩
      exact ⟨y, ys', hy, hys', rfl⟩
    · rintro ⟨y, ys', hy, hys', rfl⟩
      exact ⟨y, hy, ys', hys', rfl⟩

theorem mapM_ok_iff {ε α β : Type} {f : α → Except ε β} {xs : List α} {ys : List β} :
    xs.mapM f = .ok ys ↔ List.Forall₂ (fun x y => f x = .ok y) xs ys := by
  induction xs generalizing ys with
  | nil => cases ys <;> simp [List.mapM_nil, pure, Except.pure]
  | cons x xs ih =>
    rw [List.forall₂_cons_left_iff, List.mapM_cons]
    simp only [← ih]
    cases f x with
    | error e => simp [bind, Except.bind]
    | ok y => cases xs.mapM f <;> simp [bind, Except.bind, pure, Except.pure, eq_comm]

theorem exists_of_forall₂ {α β : Type} {R : α → β → Prop} {xs : List α} {ys : List β} (h : List.Forall₂ R xs ys) {x : α}
    (hx : x ∈ xs) : ∃ y ∈ ys, R x y := by
  induction h with
  | nil => cases hx
  | @cons x' y' xs ys hxy h ih =>
    rcases List.mem_cons.1 hx with rfl | hx
    · exact ⟨y', List.mem_cons_self, hxy⟩
    · obtain ⟨y, hy, hR⟩ := ih hx
      exact ⟨y, List.mem_cons_of_mem _ hy, hR⟩

/-- What MessagePack does to a value, by the type of the value: it is a text; it comes back
as one that still answers some of the queries as it did (all of them for a number or a list
of texts, `str` for a date, none for a tuple); it is refused with a `TypeError`; or its
encoding raises another exception. -/
inductive ArgKind where
  | text
  | returned (keeps : Query → Bool)
  | refused
  | raises

def ArgKind.packs : ArgKind → Bool
  | .text => true
  | .returned _ => true
  | .refused => false
  | .raises => false

section Forwarding

variable {V W B : Type} [PyValue V] {c : LogCodec V W B} {r : LogRecord V} {args : Args V} {values arrived : List V}
  {ts : List PyStr} {forwardLogs : Bool} {text : PyStr} {kind : V → ArgKind} {v : V} {k : ArgKind}

/-- The value comes back as another one. -/
def LogCodec.Returns (c : LogCodec V W B) (v v' : V) : Prop := ∃ w, c.toWire v = .ok w ∧ c.ofWire w = some v'

/-- msgspec treats the value as it treats those of the kind. -/
def LogCodec.Behaves (c : LogCodec V W B) (v : V) : ArgKind → Prop
  | .text => (∃ t, v = PyValue.ofStr t) ∧ c.Returns v v
  | .returned keeps => (∃ w, c.toWire v = .ok w) ∧ ∀ q, keeps q = true → ∃ v', c.Returns v v' ∧ q.Alike v v'
  | .refused => ∃ e, c.toWire v = .error e ∧ e.cls = .typeError
  | .raises => ∃ e, c.toWire v = .error e ∧ e.cls ≠ .typeError

theorem LogCodec.Behaves.toWire_of_packs (h : c.Behaves v k) (hk : k.packs = true) : ∃ w, c.toWire v = .ok w := by
  cases k with
  | text =>
    obtain ⟨-, w, hw, -⟩ := h
    exact ⟨w, hw⟩
  | returned keeps => exact h.1
  | refused => cases hk
  | raises => cases hk

theorem LogCodec.Behaves.toWire_of_not_packs (h : c.Behaves v k) (hk : k.packs = false) :
    ∃ e, c.toWire v = .error e ∧ (e.cls = .typeError ↔ k = .refused) := by
  cases k with
  | refused =>
    obtain ⟨e, he, htype⟩ := h
    exact ⟨e, he, fun _ => rfl, fun _ => htype⟩
  | raises =>
    obtain ⟨e, he, htype⟩ := h
    exact ⟨e, he, fun h => absurd h htype, fun h => nomatch h⟩
  | _ => cases hk

/-- The values that reach the client in place of those of a record: what msgspec
makes of them, or their texts if it has no form for one of them. -/
inductive Arrives (c : LogCodec V W B) (values : List V) : List V → Prop
  | packed {ws : List W} {arrived : List V} (hpack : c.packArgs values = .ok ws) (hread : ws.mapM c.ofWire = some arrived) :
      Arrives c values arrived
  | asTexts {e : PyExc} {ts : List PyStr} (hpack : c.packArgs values = .error e) (htype : e.cls = .typeError)
      (hstr : values.mapM Formattable.str = some ts) (hfit : ∀ t ∈ ts, (packText t).isSome) :
      Arrives c values (ts.map PyValue.ofStr)

theorem length_of_mapM {α β : Type} {f : α → Option β} {xs : List α} {ys : List β} (h : xs.mapM f = some ys) :
    xs.length = ys.length := (mapM_eq_some_iff.1 h).length_eq

theorem Arrives.length_eq (h : Arrives c values arrived) : arrived.length = values.length := by
  cases h with
  | packed hpack hread =>
    have hws := (mapM_ok_iff.1 (packArgs_eq_ok_iff.1 hpack).2).length_eq
    exact (length_of_mapM hread).symm.trans hws.symm
  | asTexts hpack htype hstr hfit => rw [List.length_map, length_of_mapM hstr]

/-- Texts are sent as they are, if all of them can be. -/
theorem mapM_toWire_texts (hc : c.Lawful) (hfit : ∀ t ∈ ts, (packText t).isSome) :
    ∃ ws, (ts.map PyValue.ofStr).mapM c.toWire = .ok ws ∧ ws.mapM c.ofWire = some (ts.map PyValue.ofStr) := by
  simp only [mapM_ok_iff, mapM_eq_some_iff]
  induction ts with
  | nil => exact ⟨[], .nil, .nil⟩
  | cons t ts ih =>
    obtain ⟨ht, hrest⟩ := List.forall_mem_cons.1 hfit
    obtain ⟨w, hto, hof⟩ := hc.text_packed t ht
    obtain ⟨ws, htos, hofs⟩ := ih hrest
    exact ⟨w :: ws, .cons hto htos, .cons hof hofs⟩

theorem fits_of_mapM_toWire (hc : c.Lawful) {ws : List W} (h : (ts.map PyValue.ofStr).mapM c.toWire = .ok ws) :
    ∀ t ∈ ts, (packText t).isSome := by
  rw [mapM_ok_iff] at h
  induction ts generalizing ws with
  | nil => exact List.forall_mem_nil _
  | cons t ts ih =>
    rw [List.map_cons] at h
    cases h with
    | cons ht hrest =>
      refine List.forall_mem_cons.2 ⟨Option.ne_none_iff_isSome.1 (fun hnone => ?_), ih hrest⟩
      obtain ⟨e, he⟩ := hc.text_refused t hnone
      rw [he] at ht
      cases ht

theorem arrives_iff (hc : c.Lawful) (hargs : argsFalsy args = false) :
    Arrives c args.values arrived ↔
      ∃ sent ws, serializeLogArgs c args = some sent ∧ c.packArgs sent = .ok ws ∧ ws.mapM c.ofWire = some arrived := by
  constructor
  · intro h
    cases h with
    | packed hpack hread => exact ⟨args.values, _, by simp [serializeLogArgs, hargs, hpack], hpack, hread⟩
    | @asTexts e ts hpack htype hstr hfit =>
      obtain ⟨ws, hto, hof⟩ := mapM_toWire_texts hc hfit
      have hlen : (ts.map PyValue.ofStr : List V).length < 4294967296 := by
        rw [List.length_map, ← length_of_mapM hstr]
        exact length_lt_of_typeError hpack htype
      exact ⟨_, ws, by simp [serializeLogArgs, hargs, hpack, htype, strArgs, hstr], packArgs_eq_ok_iff.2 ⟨hlen, hto⟩, hof⟩
  · rintro ⟨sent, ws, hsent, hpack, hread⟩
    unfold serializeLogArgs at hsent
    rw [if_neg (by simp [hargs])] at hsent
    split at hsent
    next ws' htrial =>
      obtain rfl := Option.some.inj hsent
      exact .packed hpack hread
    next e htrial =>
      split at hsent
      next htype =>
        obtain ⟨ts, hts, rfl⟩ := Option.map_eq_some_iff.1 hsent
        have hto := (packArgs_eq_ok_iff.1 hpack).2
        have hfit := fits_of_mapM_toWire hc hto
        obtain ⟨ws', hto', hof⟩ := mapM_toWire_texts hc hfit
        obtain rfl := Except.ok.inj (hto.symm.trans hto')
        obtain rfl := Option.some.inj (hof.symm.trans hread)
        exact .asTexts htrial htype hts hfit
      next => cases hsent

/-- The text of a message whose arguments are the tuple that arrives. -/
def receivedText (msg : PyStr) (arrived : List V) : Option PyStr :=
  if arrived.isEmpty then some msg else format msg (.tuple arrived)

theorem values_ne_nil (hargs : argsFalsy args = false) : args.values ≠ [] := by
  cases args with
  | tuple values => simpa [argsFalsy, Args.values] using hargs
  | mapping m => simp [Args.values]

theorem Arrives.received {msg : PyStr} (hargs : argsFalsy args = false) (h : Arrives c args.values arrived) :
    receivedText msg arrived = format msg (.tuple arrived) := by
  have harrived : arrived ≠ [] :=
    fun hnil => values_ne_nil hargs (List.length_eq_zero_iff.1 (by rw [← h.length_eq, hnil]; rfl))
  simp [receivedText, harrived]

theorem getMessage_handleLogEvent (e : RemoteLog V) :
    (handleLogEvent forwardLogs e).record.getMessage = receivedText e.msg e.args := by
  simp [handleLogEvent, makeLogRecord, LogRecord.getMessage, PyValue.str_ofStr, argsFalsy, receivedText]

theorem emit_eq_some_iff {e : RemoteLog V} :
    (r.emit c).2 = some e ↔ r.isRemote = false ∧ ∃ msg excText sent, Formattable.str r.msg = some msg ∧
      r.exceptionText = some excText ∧ serializeLogArgs c r.args = some sent ∧
      e = ⟨r.name, r.levelno, r.levelname, msg, sent, r.filename, r.lineno, r.funcName, r.created,
        if textFalsy excText then none else excText, r.stackInfo⟩ := by
  unfold LogRecord.emit
  cases hremote : r.isRemote with
  | true => simp
  | false =>
    cases hexc : r.exceptionText with
    | none => simp
    | some excText =>
      simp only [Bool.false_eq_true, if_false, LogRecord.toRemote, Option.bind_eq_bind, Option.bind_eq_some_iff,
        Option.pure_def, Option.some.injEq]
      constructor
      · rintro ⟨msg, hmsg, sent, hsent, rfl⟩
        exact ⟨trivial, msg, excText, sent, hmsg, rfl, hsent, rfl⟩
      · rintro ⟨-, msg, _, sent, hmsg, rfl, hsent, rfl⟩
        exact ⟨msg, hmsg, sent, hsent, rfl⟩

theorem delivered_message_iff (hc : c.Lawful) :
    (r.delivered c forwardLogs).bind LogRecord.getMessage = some text ↔
      r.isRemote = false ∧ ∃ msg excText, Formattable.str r.msg = some msg ∧ r.exceptionText = some excText ∧
        r.Fits msg excText ∧ ∃ sent ws arrived, serializeLogArgs c r.args = some sent ∧ c.packArgs sent = .ok ws ∧
          ws.mapM c.ofWire = some arrived ∧ receivedText msg arrived = some text := by
  simp only [LogRecord.delivered, Option.bind_eq_bind, Option.bind_eq_some_iff, Option.pure_def, Option.some.injEq]
  constructor
  · rintro ⟨_, ⟨e, he, w, hpack, w', hread, received, hunpack, rfl⟩, htext⟩
    obtain rfl := Option.some.inj ((hc.read_write w).symm.trans hread)
    obtain ⟨hargs, hfrom⟩ := e.unpack_of_pack hpack
    obtain ⟨arrived, harrived, rfl⟩ := Option.map_eq_some_iff.1 (hfrom.symm.trans hunpack)
    rw [getMessage_handleLogEvent] at htext
    have hfits := (RemoteLog.isSome_pack.1 (Option.isSome_of_eq_some hpack)).1
    obtain ⟨hremote, msg, excText, sent, hmsg, hexc, hsent, rfl⟩ := emit_eq_some_iff.1 he
    exact ⟨hremote, msg, excText, hmsg, hexc, fits_emitted_iff.1 hfits, sent, w.args, arrived, hsent, hargs, harrived, htext⟩
  · rintro ⟨hremote, msg, excText, hmsg, hexc, hfits, sent, ws, arrived, hsent, hargs, harrived, htext⟩
    have he := (emit_eq_some_iff (c := c)).2 ⟨hremote, msg, excText, sent, hmsg, hexc, hsent, rfl⟩
    obtain ⟨w, hpack⟩ := Option.isSome_iff_exists.1
      (RemoteLog.isSome_pack.2 ⟨fits_emitted_iff.2 hfits, by rw [hargs]; rfl⟩)
    obtain ⟨hargs', hfrom⟩ := RemoteLog.unpack_of_pack hpack
    obtain rfl := Except.ok.inj (hargs.symm.trans hargs')
    rw [harrived] at hfrom
    refine ⟨_, ⟨_, he, w, hpack, w, hc.read_write w, _, hfrom, rfl⟩, ?_⟩
    rw [getMessage_handleLogEvent]
    exact htext

/-- How the values of a record are sent: as they are, as their texts, or not at all. -/
inductive Passage where
  | asTheyAre
  | asTexts
  | lost
  deriving DecidableEq

/-- The first value that msgspec does not encode decides. -/
def passage (kinds : List ArgKind) : Passage :=
  if kinds.length < 4294967296 then
    match kinds.find? (fun k => !k.packs) with
    | none => .asTheyAre
    | some .refused => .asTexts
    | some _ => .lost
  else .lost

/-- What a message asks of a value is answered on the client as it is here. -/
def Passage.keeps : Passage → ArgKind → Query → Bool
  | .asTheyAre, .text, _ => true
  | .asTheyAre, .returned keeps, q => keeps q
  | .asTexts, .text, _ => true
  | .asTexts, _, .shown .str => true
  | _, _, _ => false

/-- A text may answer it. -/
def takesText : Query → Bool
  | .star => false
  | .shown (.number _) => false
  | .shown _ => true

/-- The texts of the values can be sent in their place. -/
def TextsFit (values : List V) : Prop := ∀ v ∈ values, ∃ t, Formattable.str v = some t ∧ (packText t).isSome

/-- The message takes its values as a tuple, and they get to the client. -/
structure ArgsArrive (kind : V → ArgKind) (ps : List Piece) (values : List V) : Prop where
  keyless : Keyless ps
  taken : arity ps = values.length
  sent : passage (values.map kind) ≠ .lost
  texts : passage (values.map kind) = .asTexts → TextsFit values ∧ ∀ q ∈ queries ps, takesText q = true

/-- And whatever it asks of a value is answered as it was. -/
structure ArgsKept (kind : V → ArgKind) (ps : List Piece) (values : List V) : Prop where
  keyless : Keyless ps
  kept : List.Forall₂ (fun q v => (passage (values.map kind)).keeps (kind v) q = true) (queries ps) values
  texts : passage (values.map kind) = .asTexts → TextsFit values

/-- The record is sent, and has no arguments or some that meet a condition. -/
def LogRecord.Reaches (A : List Piece → List V → Prop) (r : LogRecord V) : Prop :=
  r.isRemote = false ∧ ∃ msg excText, Formattable.str r.msg = some msg ∧ r.exceptionText = some excText ∧
    r.Fits msg excText ∧ (argsFalsy r.args = true ∨ ∃ ps, parse msg = some ps ∧ A ps r.args.values)

theorem LogCodec.Behaves.alike (h : c.Behaves v k) {q : Query} (hq : Passage.asTheyAre.keeps k q = true) :
    ∃ v', c.Returns v v' ∧ q.Alike v v' := by
  cases k with
  | text => exact ⟨v, h.2, q.alike_refl v⟩
  | returned keeps => exact h.2 q hq
  | refused => cases hq
  | raises => cases hq

theorem LogCodec.Behaves.alike_text (h : c.Behaves v k) {q : Query} (hq : Passage.asTexts.keeps k q = true) {t : PyStr}
    (ht : Formattable.str v = some t) : q.Alike v (PyValue.ofStr t) := by
  have hshown : q = .shown .str → q.Alike v (PyValue.ofStr t) := by
    rintro rfl
    exact fun s => by rw [Conversion.text, Conversion.text, ht, PyValue.str_ofStr]
  cases k with
  | text =>
    obtain ⟨⟨t', rfl⟩, -⟩ := h
    obtain rfl := Option.some.inj ((PyValue.str_ofStr t').symm.trans ht)
    exact q.alike_refl _
  | _ =>
    refine hshown ?_
    unfold Passage.keeps at hq
    split at hq <;> first | rfl | simp_all

theorem takesText_of_answered {q : Query} {t : PyStr} (h : q.Answered (PyValue.ofStr t : V)) : takesText q = true := by
  cases q with
  | star =>
    rw [Query.Answered, PyValue.int_ofStr] at h
    cases h
  | shown conversion =>
    cases conversion with
    | number conversion =>
      obtain ⟨s, hs⟩ := h
      rw [Conversion.text, PyValue.number_ofStr] at hs
      cases hs
    | _ => rfl

theorem mapM_of_find_none (hk : ∀ v, c.Behaves v (kind v)) (h : (values.map kind).find? (fun k => !k.packs) = none) :
    ∃ ws, values.mapM c.toWire = .ok ws := by
  simp only [mapM_ok_iff]
  induction values with
  | nil => exact ⟨[], .nil⟩
  | cons v values ih =>
    rw [List.map_cons, List.find?_cons] at h
    split at h
    · cases h
    · next hpacks =>
      obtain ⟨ws, hws⟩ := ih h
      obtain ⟨w, hw⟩ := (hk v).toWire_of_packs (by simpa using hpacks)
      exact ⟨w :: ws, .cons hw hws⟩

/-- The first value that is not encoded makes the exception. -/
theorem mapM_of_find_some (hk : ∀ v, c.Behaves v (kind v)) {k : ArgKind}
    (h : (values.map kind).find? (fun k => !k.packs) = some k) :
    ∃ e, values.mapM c.toWire = .error e ∧ (e.cls = .typeError ↔ k = .refused) := by
  induction values with
  | nil => cases h
  | cons v values ih =>
    rw [List.map_cons, List.find?_cons] at h
    rw [List.mapM_cons]
    split at h
    · next hpacks =>
      obtain rfl := Option.some.inj h
      obtain ⟨e, he, hcls⟩ := (hk v).toWire_of_not_packs (by simpa using hpacks)
      exact ⟨e, by rw [he]; rfl, hcls⟩
    · next hpacks =>
      obtain ⟨w, hw⟩ := (hk v).toWire_of_packs (by simpa using hpacks)
      obtain ⟨e, he, hcls⟩ := ih h
      exact ⟨e, by rw [hw, he]; rfl, hcls⟩

/-- What the trial encoding of the values comes to. -/
def Passage.Tried (c : LogCodec V W B) (values : List V) : Passage → Prop
  | .asTheyAre => ∃ ws, c.packArgs values = .ok ws
  | .asTexts => ∃ e, c.packArgs values = .error e ∧ e.cls = .typeError
  | .lost => ∃ e, c.packArgs values = .error e ∧ e.cls ≠ .typeError

theorem tried_passage (hk : ∀ v, c.Behaves v (kind v)) (values : List V) : (passage (values.map kind)).Tried c values := by
  unfold passage
  rw [List.length_map]
  by_cases hlen : values.length < 4294967296
  · rw [if_pos hlen]
    cases hfind : (values.map kind).find? (fun k => !k.packs) with
    | none =>
      obtain ⟨ws, hws⟩ := mapM_of_find_none hk hfind
      exact ⟨ws, packArgs_eq_ok_iff.2 ⟨hlen, hws⟩⟩
    | some k =>
      obtain ⟨e, he, hcls⟩ := mapM_of_find_some hk hfind
      have hpack : c.packArgs values = .error e := by rw [LogCodec.packArgs, if_pos hlen, he]
      cases k with
      | refused => exact ⟨e, hpack, hcls.2 rfl⟩
      | _ => exact ⟨e, hpack, fun h => nomatch hcls.1 h⟩
  · rw [if_neg hlen]
    exact ⟨_, by rw [LogCodec.packArgs, if_neg hlen], fun htype => by cases htype⟩

/-- What is kept of the values that are sent, next to what comes for them. -/
theorem alike_of_asTheyAre (hk : ∀ v, c.Behaves v (kind v)) {qs : List Query}
    (h : List.Forall₂ (fun q v => Passage.asTheyAre.keeps (kind v) q = true) qs values) :
    ∃ (ws : List W) (xs : List (V × V)), List.Forall₂ (fun v w => c.toWire v = .ok w) values ws ∧
      List.Forall₂ (fun w v => c.ofWire w = some v) ws (xs.map Prod.snd) ∧ xs.map Prod.fst = values ∧ AllAlike qs xs := by
  induction h with
  | nil => exact ⟨[], [], .nil, .nil, rfl, .nil⟩
  | @cons q v qs values hq h ih =>
    obtain ⟨ws, xs, hto, hof, rfl, hxs⟩ := ih
    obtain ⟨v', ⟨w, hw, hv'⟩, hsame⟩ := (hk v).alike hq
    exact ⟨w :: ws, (v, v') :: xs, .cons hw hto, .cons hv' hof, rfl, .cons hsame hxs⟩

/-- And of those whose texts are sent. -/
theorem alike_of_asTexts (hk : ∀ v, c.Behaves v (kind v)) (hfit : TextsFit values) {qs : List Query}
    (h : List.Forall₂ (fun q v => Passage.asTexts.keeps (kind v) q = true) qs values) :
    ∃ (ts : List PyStr) (xs : List (V × V)), List.Forall₂ (fun v t => Formattable.str v = some t) values ts ∧
      (∀ t ∈ ts, (packText t).isSome) ∧ xs.map Prod.snd = ts.map PyValue.ofStr ∧ xs.map Prod.fst = values ∧
      AllAlike qs xs := by
  induction h with
  | nil => exact ⟨[], [], .nil, List.forall_mem_nil _, rfl, rfl, .nil⟩
  | @cons q v qs values hq h ih =>
    obtain ⟨⟨t, ht, hpack⟩, hrest⟩ := List.forall_mem_cons.1 hfit
    obtain ⟨ts, xs, hts, hfits, hsnd, rfl, hxs⟩ := ih hrest
    refine ⟨t :: ts, (v, PyValue.ofStr t) :: xs, .cons ht hts, List.forall_mem_cons.2 ⟨hpack, hfits⟩, ?_, rfl,
      .cons ((hk v).alike_text hq ht) hxs⟩
    rw [List.map_cons, hsnd, List.map_cons]

/-- Where all that is asked is kept, the text that arrives is the one there was. -/
theorem ArgsKept.received (hk : ∀ v, c.Behaves v (kind v)) {msg : PyStr} {ps : List Piece}
    (hargs : argsFalsy args = false) (htext : format msg args = some text) (hparse : parse msg = some ps)
    (h : ArgsKept kind ps args.values) : ∃ arrived, Arrives c args.values arrived ∧ receivedText msg arrived = some text := by
  obtain ⟨xs, hfst, harrives, hxs⟩ : ∃ xs : List (V × V), xs.map Prod.fst = args.values ∧
      Arrives c args.values (xs.map Prod.snd) ∧ AllAlike (queries ps) xs := by
    have htried := tried_passage hk args.values
    have hkept := h.kept
    have htexts := h.texts
    cases hpassage : passage (args.values.map kind) with
    | asTheyAre =>
      rw [hpassage] at htried hkept
      obtain ⟨ws, xs, hto, hof, hfst, hxs⟩ := alike_of_asTheyAre hk hkept
      obtain ⟨ws', hpack⟩ := htried
      obtain rfl := Except.ok.inj ((packArgs_eq_ok_iff.1 hpack).2.symm.trans (mapM_ok_iff.2 hto))
      exact ⟨xs, hfst, .packed hpack (mapM_eq_some_iff.2 hof), hxs⟩
    | asTexts =>
      rw [hpassage] at htried hkept
      obtain ⟨ts, xs, hts, hfits, hsnd, hfst, hxs⟩ := alike_of_asTexts hk (htexts hpassage) hkept
      obtain ⟨e, hpack, htype⟩ := htried
      exact ⟨xs, hfst, hsnd ▸ .asTexts hpack htype (mapM_eq_some_iff.2 hts) hfits, hxs⟩
    | lost =>
      rw [hpassage] at hkept
      cases hvalues : args.values with
      | nil => exact absurd hvalues (values_ne_nil hargs)
      | cons v values =>
        rw [hvalues] at hkept
        obtain ⟨q, qs, hq, -, -⟩ := List.forall₂_cons_right_iff.1 hkept
        cases hq
  have hlen : arity ps = args.values.length := (length_queries ps).symm.trans h.kept.length_eq
  refine ⟨_, harrives, ?_⟩
  rw [harrives.received hargs, format_of_keyless (.tuple _) hparse h.keyless (hlen.trans harrives.length_eq.symm)]
  rw [format_of_keyless args hparse h.keyless hlen, ← hfst, texts_of_alike hxs] at htext
  exact htext

/-- A text that arrives was made from values that did. -/
theorem argsArrive_of_received (hk : ∀ v, c.Behaves v (kind v)) {msg : PyStr} (hargs : argsFalsy args = false)
    (h : Arrives c args.values arrived) (htext : receivedText msg arrived = some text) :
    ∃ ps, parse msg = some ps ∧ ArgsArrive kind ps args.values := by
  rw [h.received hargs] at htext
  obtain ⟨ps, hparse, hkeyless, hlen, -⟩ := format_tuple_eq_some_iff.1 htext
  have hanswered := answered_of_format hparse htext
  have htried := tried_passage hk args.values
  refine ⟨ps, hparse, hkeyless, hlen.trans h.length_eq, fun hlost => ?_, fun htexts => ?_⟩
  · rw [hlost] at htried
    obtain ⟨e, he, htype⟩ := htried
    cases h with
    | packed hpack => exact nomatch hpack.symm.trans he
    | asTexts hpack htype' => exact htype (Except.error.inj (hpack.symm.trans he) ▸ htype')
  · rw [htexts] at htried
    obtain ⟨e, he, -⟩ := htried
    cases h with
    | packed hpack => exact nomatch hpack.symm.trans he
    | asTexts hpack htype hstr hfit =>
      refine ⟨fun v hv => ?_, fun q hq => ?_⟩
      · obtain ⟨t, ht, hvt⟩ := exists_of_forall₂ (mapM_eq_some_iff.1 hstr) hv
        exact ⟨t, hvt, hfit t ht⟩
      · obtain ⟨v, hv, hans⟩ := exists_of_forall₂ hanswered hq
        obtain ⟨t, -, rfl⟩ := List.mem_map.1 hv
        exact takesText_of_answered hans

/-- A record has its text on the client if everything its message asks of the arguments is
kept for arguments of their kinds, and only if the message takes them as they arrive. -/
theorem log_text_kept (hc : c.Lawful) (hk : ∀ v, c.Behaves v (kind v)) (htext : r.getMessage = some text)
    (forwardLogs : Bool) :
    (r.Reaches (ArgsKept kind) → (r.delivered c forwardLogs).bind LogRecord.getMessage = some text) ∧
      ((r.delivered c forwardLogs).bind LogRecord.getMessage = some text → r.Reaches (ArgsArrive kind)) := by
  obtain ⟨msg, hmsg, hlocal⟩ := Option.bind_eq_some_iff.1 htext
  rw [delivered_message_iff hc]
  constructor
  · rintro ⟨hremote, msg', excText, hmsg', hexc, hfits, hargs⟩
    obtain rfl := Option.some.inj (hmsg.symm.trans hmsg')
    refine ⟨hremote, msg, excText, hmsg, hexc, hfits, ?_⟩
    cases hfalsy : argsFalsy r.args with
    | true =>
      rw [hfalsy, if_pos rfl] at hlocal
      have hsent : serializeLogArgs c r.args = some [] := by simp [serializeLogArgs, hfalsy]
      have hpack : c.packArgs [] = .ok [] := packArgs_eq_ok_iff.2 ⟨by simp, rfl⟩
      exact ⟨[], [], [], hsent, hpack, rfl, hlocal⟩
    | false =>
      rw [hfalsy, if_neg Bool.false_ne_true] at hlocal
      obtain hargs | ⟨ps, hparse, hkept⟩ := hargs
      · exact nomatch hfalsy.symm.trans hargs
      · obtain ⟨arrived, harrives, hreceived⟩ := hkept.received hk hfalsy hlocal hparse
        obtain ⟨sent, ws, hsent, hpack, hread⟩ := (arrives_iff hc hfalsy).1 harrives
        exact ⟨sent, ws, arrived, hsent, hpack, hread, hreceived⟩
  · rintro ⟨hremote, msg', excText, hmsg', hexc, hfits, sent, ws, arrived, hsent, hpack, hread, hreceived⟩
    obtain rfl := Option.some.inj (hmsg.symm.trans hmsg')
    refine ⟨hremote, msg, excText, hmsg, hexc, hfits, ?_⟩
    cases hfalsy : argsFalsy r.args with
    | true => exact .inl rfl
    | false => exact .inr (argsArrive_of_received hk hfalsy ((arrives_iff hc hfalsy).2 ⟨sent, ws, hsent, hpack, hread⟩) hreceived)

end Forwarding

/-- Texts, and dictionaries from texts to texts, in which nothing needs escaping. -/
inductive SampleValue where
  | text (t : PyStr)
  | dict (items : List (PyStr × PyStr))

namespace SampleValue

def quoted (t : PyStr) : PyStr := PyStr.ofString "'" ++ t ++ PyStr.ofString "'"

def shownItem (item : PyStr × PyStr) : PyStr := quoted item.1 ++ PyStr.ofString ": " ++ quoted item.2

def shownDict (items : List (PyStr × PyStr)) : PyStr :=
  PyStr.ofString "\x7b" ++ (PyStr.ofString ", ").intercalate (items.map shownItem) ++ PyStr.ofString "\x7d"

def repr : SampleValue → PyStr
  | text t => quoted t
  | dict items => shownDict items

instance : PyValue SampleValue where
  str
    | text t => some t
    | dict items => some (shownDict items)
  repr v := some v.repr
  ascii v := some v.repr
  int _ := none
  char
    | text [c] => some c
    | _ => none
  number _ _ _ := none
  item
    | text _, _ => none
    | dict items, key => (items.lookup key).map text
  ofStr := text
  truthy
    | text t => !t.isEmpty
    | dict items => !items.isEmpty
  str_ofStr _ := rfl
  int_ofStr _ := rfl
  number_ofStr _ _ _ := rfl

def texts : SampleValue → List PyStr
  | text t => [t]
  | dict items => items.flatMap (fun item => [item.1, item.2])

def codec : LogCodec SampleValue SampleValue (WireLog SampleValue) where
  toWire v := if v.texts.all (fun t => (packText t).isSome) then .ok v
    else .error (.ofText (.other "UnicodeEncodeError") "surrogates not allowed")
  ofWire := some
  write w := w
  read := some

theorem codec_lawful : codec.Lawful where
  read_write _ := rfl
  text_packed t ht := ⟨text t, by simp [codec, texts, PyValue.ofStr, ht], rfl⟩
  text_refused t ht := ⟨.ofText (.other "UnicodeEncodeError") "surrogates not allowed", by
    simp [codec, texts, PyValue.ofStr, ht]⟩

def kind (v : SampleValue) : ArgKind :=
  match v with
  | text t => if (packText t).isSome then .text else .raises
  | dict items => if (dict items).texts.all (fun t => (packText t).isSome) then .returned (fun _ => true) else .raises

theorem behaves (v : SampleValue) : codec.Behaves v v.kind := by
  have returns : v.texts.all (fun t => (packText t).isSome) = true → codec.Returns v v :=
    fun hall => ⟨v, if_pos hall, rfl⟩
  have raises : ¬ v.texts.all (fun t => (packText t).isSome) = true → codec.Behaves v .raises :=
    fun hall => ⟨_, if_neg hall, fun htype => by cases htype⟩
  cases v with
  | text t =>
    rw [texts, List.all_cons, List.all_nil, Bool.and_true] at returns raises
    rw [kind]
    split
    · next hall => exact ⟨⟨t, rfl⟩, returns hall⟩
    · next hall => exact raises hall
  | dict items =>
    rw [kind]
    split
    · next hall => exact ⟨⟨_, if_pos hall⟩, fun q _ => ⟨_, returns hall, q.alike_refl _⟩⟩
    · next hall => exact raises hall

def record (msg : String) (args : Args SampleValue) : LogRecord SampleValue where
  name := PyStr.ofString "test_custom_logger"
  levelno := 30
  levelname := PyStr.ofString "WARNING"
  msg := .text (PyStr.ofString msg)
  args := args
  filename := PyStr.ofString "test_logging.vpy"
  lineno := 6
  funcName := PyStr.ofString "<module>"
  created := 1700000000

end SampleValue

/-- `warning("Custom warning: %s", "arg_val")` -/
theorem log_text_kept_argVal :
    (SampleValue.record "Custom warning: %s" (.tuple [.text (PyStr.ofString "arg_val")])).getMessage =
        some (PyStr.ofString "Custom warning: arg_val") ∧
      ((SampleValue.record "Custom warning: %s" (.tuple [.text (PyStr.ofString "arg_val")])).delivered
        SampleValue.codec true).bind LogRecord.getMessage = some (PyStr.ofString "Custom warning: arg_val") := by
  have htext : (SampleValue.record "Custom warning: %s" (.tuple [.text (PyStr.ofString "arg_val")])).getMessage =
      some (PyStr.ofString "Custom warning: arg_val") := by decide
  refine ⟨htext, (log_text_kept SampleValue.codec_lawful SampleValue.behaves htext true).1 ?_⟩
  have hpieces : (parse (PyStr.ofString "Custom warning: %s")).map (fun ps =>
      (ps.all (fun p => p.key.isNone), queries ps)) = some (true, [.shown .str]) := by decide
  obtain ⟨ps, hparse, heq⟩ := Option.map_eq_some_iff.1 hpieces
  obtain ⟨hkeys, hqueries⟩ := Prod.mk.inj heq
  refine ⟨rfl, PyStr.ofString "Custom warning: %s", none, rfl, rfl, ⟨by decide, by decide⟩, .inr ⟨ps, hparse, ?_⟩⟩
  refine ⟨fun p hp => Option.isNone_iff_eq_none.1 (List.all_eq_true.1 hkeys p hp), hqueries ▸ .cons rfl .nil, ?_⟩
  exact fun hpassage => nomatch hpassage

/-- `warning("%(a)s", {"a": "x"})` -/
theorem log_text_lost_keyed :
    SampleValue.codec.Lawful ∧
      (SampleValue.record "%(a)s" (.mapping (.dict [(PyStr.ofString "a", PyStr.ofString "x")]))).getMessage =
        some (PyStr.ofString "x") ∧
      ((SampleValue.record "%(a)s" (.mapping (.dict [(PyStr.ofString "a", PyStr.ofString "x")]))).delivered
        SampleValue.codec true).bind LogRecord.getMessage ≠ some (PyStr.ofString "x") :=
  ⟨SampleValue.codec_lawful, by decide, by decide⟩

end VsRemote
