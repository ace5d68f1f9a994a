import VsRemote.Exceptions
import VsRemote.Lib.PercentFormat

/-! A log record on its way from the server's loggers to the client's: what
`LogForwarder` makes of it, what msgspec carries and what `_handle_event`
rebuilds. -/

namespace VsRemote

open PercentFormat

/-- A Python value, as far as logging looks at it. -/
class PyValue (V : Type) extends Formattable V where
  ofStr : PyStr → V
  truthy : V → Bool
  str_ofStr : ∀ t, str (ofStr t) = some t
  int_ofStr : ∀ t, int (ofStr t) = none
  number_ofStr : ∀ kind s t, number kind s (ofStr t) = none

/-- `logging.LogRecord`. `args` is a tuple, or the mapping that logging takes out
of a tuple of one, and `excInfo` is what `formatException` makes of `exc_info`. -/
structure LogRecord (V : Type) where
  name : PyStr
  levelno : Int
  levelname : PyStr
  msg : V
  args : Args V
  filename : PyStr
  lineno : Int
  funcName : PyStr
  created : Rat
  excInfo : Option (Option PyStr) := none
  excText : Option PyStr := none
  stackInfo : Option PyStr := none
  isRemote : Bool := false

/-- `RemoteLogRecord`, with its arguments still Python values. -/
structure RemoteLog (V : Type) where
  name : PyStr
  levelno : Int
  levelname : PyStr
  msg : PyStr
  args : List V
  filename : PyStr
  lineno : Int
  funcName : PyStr
  created : Rat
  excText : Option PyStr
  stackInfo : Option PyStr

/-- `RemoteLogRecord` as MessagePack has it. -/
structure WireLog (W : Type) where
  name : Bytes
  levelno : Int
  levelname : Bytes
  msg : Bytes
  args : List W
  filename : Bytes
  lineno : Int
  funcName : Bytes
  created : Rat
  excText : Option Bytes
  stackInfo : Option Bytes

def packText (t : PyStr) : Option Bytes :=
  t.encodeUtf8.bind (fun b => if b.length < 4294967296 then some b else none)

def packInt (n : Int) : Option Int :=
  if -9223372036854775808 ≤ n ∧ n < 18446744073709551616 then some n else none

/-- `none` is packed as well. -/
def packOptional : Option PyStr → Option (Option Bytes)
  | none => some none
  | some t => (packText t).map some

def unpackOptional : Option Bytes → Option (Option PyStr)
  | none => some none
  | some b => (PyStr.decodeUtf8 b).map some

/-- msgspec's part: the MessagePack form `W` of a value, the value that an `Any`
field gets from a form, and the bytes `B` of a record. -/
structure LogCodec (V W B : Type) where
  toWire : V → Except PyExc W
  ofWire : W → Option V
  write : WireLog W → B
  read : B → Option (WireLog W)

section Packing

variable {V W B : Type}

def LogCodec.packArgs (c : LogCodec V W B) (args : List V) : Except PyExc (List W) :=
  if args.length < 4294967296 then args.mapM c.toWire
  else .error (.ofText (.other "EncodeError") "Can't encode tuples longer than 2**32 - 1")

def RemoteLog.pack (c : LogCodec V W B) (e : RemoteLog V) : Option (WireLog W) := do
  let name ← packText e.name
  let levelno ← packInt e.levelno
  let levelname ← packText e.levelname
  let msg ← packText e.msg
  let args ← (c.packArgs e.args).toOption
  let filename ← packText e.filename
  let lineno ← packInt e.lineno
  let funcName ← packText e.funcName
  let excText ← packOptional e.excText
  let stackInfo ← packOptional e.stackInfo
  pure { name, levelno, levelname, msg, args, filename, lineno, funcName, created := e.created, excText, stackInfo }

def WireLog.unpack (c : LogCodec V W B) (w : WireLog W) : Option (RemoteLog V) := do
  let name ← PyStr.decodeUtf8 w.name
  let levelname ← PyStr.decodeUtf8 w.levelname
  let msg ← PyStr.decodeUtf8 w.msg
  let args ← w.args.mapM c.ofWire
  let filename ← PyStr.decodeUtf8 w.filename
  let funcName ← PyStr.decodeUtf8 w.funcName
  let excText ← unpackOptional w.excText
  let stackInfo ← unpackOptional w.stackInfo
  pure { name, levelno := w.levelno, levelname, msg, args, filename, lineno := w.lineno, funcName,
         created := w.created, excText, stackInfo }

theorem packArgs_eq_ok_iff {c : LogCodec V W B} {values : List V} {ws : List W} :
    c.packArgs values = .ok ws ↔ values.length < 4294967296 ∧ values.mapM c.toWire = .ok ws := by
  unfold LogCodec.packArgs
  split <;> simp [*]

theorem length_lt_of_typeError {c : LogCodec V W B} {values : List V} {e : PyExc} (hpack : c.packArgs values = .error e)
    (htype : e.cls = .typeError) : values.length < 4294967296 := by
  unfold LogCodec.packArgs at hpack
  split at hpack
  · assumption
  · rw [← Except.error.inj hpack] at htype
    cases htype

theorem decodeUtf8_of_packText {t : PyStr} {b : Bytes} (h : packText t = some b) : PyStr.decodeUtf8 b = some t := by
  obtain ⟨b', hb', hlen⟩ := Option.bind_eq_some_iff.1 h
  split at hlen
  · rw [← Option.some.inj hlen]
    exact PyStr.decodeUtf8_eq_some_iff.2 hb'
  · cases hlen

theorem unpackOptional_of_packOptional {o : Option PyStr} {b : Option Bytes} (h : packOptional o = some b) :
    unpackOptional b = some o := by
  cases o with
  | none =>
    rw [← Option.some.inj h]
    rfl
  | some t =>
    obtain ⟨b', hb', rfl⟩ := Option.map_eq_some_iff.1 h
    simp [unpackOptional, decodeUtf8_of_packText hb']

theorem eq_of_packInt {n m : Int} (h : packInt n = some m) : m = n := by
  unfold packInt at h
  split at h
  · exact (Option.some.inj h).symm
  · cases h

/-- What comes out of a packed record is the record, with the values that its
arguments' forms are read as. -/
theorem RemoteLog.unpack_of_pack {c : LogCodec V W B} {e : RemoteLog V} {w : WireLog W} (h : e.pack c = some w) :
    c.packArgs e.args = .ok w.args ∧ w.unpack c = (w.args.mapM c.ofWire).map (fun args => { e with args := args }) := by
  simp only [RemoteLog.pack, Option.bind_eq_bind, Option.bind_eq_some_iff, Option.pure_def, Option.some.injEq] at h
  obtain ⟨name, hname, levelno, hlevelno, levelname, hlevelname, msg, hmsg, args, hargs, filename, hfilename,
    lineno, hlineno, funcName, hfuncName, excText, hexcText, stackInfo, hstackInfo, rfl⟩ := h
  obtain rfl := eq_of_packInt hlevelno
  obtain rfl := eq_of_packInt hlineno
  refine ⟨toOption_eq_some hargs, ?_⟩
  simp only [WireLog.unpack, decodeUtf8_of_packText hname, decodeUtf8_of_packText hlevelname, decodeUtf8_of_packText hmsg,
    decodeUtf8_of_packText hfilename, decodeUtf8_of_packText hfuncName, unpackOptional_of_packOptional hexcText,
    unpackOptional_of_packOptional hstackInfo, Option.bind_eq_bind, Option.bind_some, Option.pure_def, Option.map_eq_bind]
  rfl

def RemoteLog.texts (e : RemoteLog V) : List PyStr :=
  [e.name, e.levelname, e.msg, e.filename, e.funcName] ++ e.excText.toList ++ e.stackInfo.toList

/-- Everything but the arguments has a MessagePack form. -/
def RemoteLog.Fits (e : RemoteLog V) : Prop :=
  (∀ t ∈ e.texts, (packText t).isSome) ∧ ∀ n ∈ [e.levelno, e.lineno], (packInt n).isSome

theorem isSome_packOptional {o : Option PyStr} : (packOptional o).isSome ↔ ∀ t ∈ o.toList, (packText t).isSome := by
  cases o <;> simp [packOptional]

theorem RemoteLog.isSome_pack {c : LogCodec V W B} {e : RemoteLog V} :
    (e.pack c).isSome ↔ e.Fits ∧ (c.packArgs e.args).toOption.isSome := by
  have hexcText := isSome_packOptional (o := e.excText)
  have hstackInfo := isSome_packOptional (o := e.stackInfo)
  simp only [Option.isSome_iff_exists] at hexcText hstackInfo
  simp only [RemoteLog.pack, RemoteLog.Fits, RemoteLog.texts, List.forall_mem_append, List.forall_mem_cons, ← hexcText, ← hstackInfo,
    Option.isSome_iff_exists, Option.bind_eq_bind, Option.bind_eq_some_iff, Option.pure_def]
  constructor
  · rintro ⟨w, name, hname, levelno, hlevelno, levelname, hlevelname, msg, hmsg, args, hargs, filename, hfilename, lineno,
      hlineno, funcName, hfuncName, excText, hexcText, stackInfo, hstackInfo, -⟩
    simp [*]
  · rintro ⟨⟨⟨⟨⟨⟨name, hname⟩, ⟨levelname, hlevelname⟩, ⟨msg, hmsg⟩, ⟨filename, hfilename⟩, ⟨funcName, hfuncName⟩, -⟩,
      excText, hexcText⟩, stackInfo, hstackInfo⟩, ⟨levelno, hlevelno⟩, ⟨lineno, hlineno⟩, -⟩, args, hargs⟩
    simp [*]

def textFalsy : Option PyStr → Bool
  | none => true
  | some t => t.isEmpty

/-- Everything of the record but its arguments has a MessagePack form. -/
def LogRecord.Fits (r : LogRecord V) (msg : PyStr) (excText : Option PyStr) : Prop :=
  (∀ t ∈ [r.name, r.levelname, msg, r.filename, r.funcName] ++ excText.toList ++ r.stackInfo.toList, (packText t).isSome) ∧
    ∀ n ∈ [r.levelno, r.lineno], (packInt n).isSome

theorem isSome_packText_nil : (packText []).isSome := by decide

/-- The empty text that `emit` leaves out would have fitted as well. -/
theorem fits_emitted_iff {r : LogRecord V} {msg : PyStr} {excText : Option PyStr} {sent : List V} :
    (RemoteLog.mk r.name r.levelno r.levelname msg sent r.filename r.lineno r.funcName r.created
      (if textFalsy excText then none else excText) r.stackInfo).Fits ↔ r.Fits msg excText := by
  have hexc : (∀ t ∈ (if textFalsy excText then none else excText).toList, (packText t).isSome) ↔
      ∀ t ∈ excText.toList, (packText t).isSome := by
    cases excText with
    | none => simp [textFalsy]
    | some t =>
      cases t with
      | nil => simp [textFalsy, isSome_packText_nil]
      | cons x t => simp [textFalsy]
  simp only [RemoteLog.Fits, RemoteLog.texts, LogRecord.Fits, List.forall_mem_append, hexc]

end Packing

section Forwarding

variable {V W B : Type} [PyValue V]

/-- Bytes give back the record written to them, and a text comes back as itself. -/
structure LogCodec.Lawful (c : LogCodec V W B) : Prop where
  read_write : ∀ w, c.read (c.write w) = some w
  text_packed : ∀ t, (packText t).isSome → ∃ w, c.toWire (PyValue.ofStr t) = .ok w ∧ c.ofWire w = some (PyValue.ofStr t)
  text_refused : ∀ t, packText t = none → ∃ e, c.toWire (PyValue.ofStr t) = .error e

/-- `not args` -/
def argsFalsy : Args V → Bool
  | .tuple values => values.isEmpty
  | .mapping m => !PyValue.truthy m

def LogRecord.getMessage (r : LogRecord V) : Option PyStr :=
  (Formattable.str r.msg).bind (fun msg => if argsFalsy r.args then some msg else format msg r.args)

/-- `tuple(str(a) for a in raw_args)` -/
def strArgs (args : List V) : Option (List V) :=
  (args.mapM Formattable.str).map (fun ts => ts.map PyValue.ofStr)

/-- `_serialize_log_args`. Only a `TypeError` of the trial is caught. -/
def serializeLogArgs (c : LogCodec V W B) (args : Args V) : Option (List V) :=
  if argsFalsy args then some []
  else match c.packArgs args.values with
    | .ok _ => some args.values
    | .error e => if e.cls = .typeError then strArgs args.values else none

/-- The `exc_text` that `emit` leaves in the record. -/
def LogRecord.exceptionText (r : LogRecord V) : Option (Option PyStr) :=
  match r.excInfo with
  | some formatted => if textFalsy r.excText then formatted.map some else some r.excText
  | none => some r.excText

def LogRecord.toRemote (c : LogCodec V W B) (r : LogRecord V) : Option (RemoteLog V) := do
  let msg ← Formattable.str r.msg
  let args ← serializeLogArgs c r.args
  pure { name := r.name, levelno := r.levelno, levelname := r.levelname, msg, args, filename := r.filename,
         lineno := r.lineno, funcName := r.funcName, created := r.created,
         excText := if textFalsy r.excText then none else r.excText, stackInfo := r.stackInfo }

/-- `LogForwarder.emit`: the record afterwards and what is dispatched, which is
nothing where an exception goes to `handleError`. -/
def LogRecord.emit (c : LogCodec V W B) (r : LogRecord V) : LogRecord V × Option (RemoteLog V) :=
  if r.isRemote then (r, none)
  else match r.exceptionText with
    | some excText => ({ r with excText }, LogRecord.toRemote c { r with excText })
    | none => (r, none)

def makeLogRecord (e : RemoteLog V) : LogRecord V where
  name := e.name
  levelno := e.levelno
  levelname := e.levelname
  msg := PyValue.ofStr e.msg
  args := .tuple e.args
  filename := e.filename
  lineno := e.lineno
  funcName := e.funcName
  created := e.created
  excText := e.excText
  stackInfo := e.stackInfo

/-- The rebuilt record and the logger it is given to. -/
structure HandledLog (V : Type) where
  record : LogRecord V
  logger : Option PyStr

/-- `_handle_event` on a log event -/
def handleLogEvent (forwardLogs : Bool) (e : RemoteLog V) : HandledLog V where
  record := { makeLogRecord e with isRemote := true }
  logger := if forwardLogs then some e.name else none

/-- A record's way through `emit`, MessagePack and `_handle_event`. -/
def LogRecord.delivered (c : LogCodec V W B) (forwardLogs : Bool) (r : LogRecord V) : Option (LogRecord V) := do
  let e ← (r.emit c).2
  let packed ← e.pack c
  let w ← c.read (c.write packed)
  let received ← w.unpack c
  pure (handleLogEvent forwardLogs received).record

end Forwarding

end VsRemote
