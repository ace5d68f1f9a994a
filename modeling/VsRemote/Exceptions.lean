import VsRemote.Bytes

/-! The exceptions the server and client code raise and tell apart. -/

namespace VsRemote

/-- Classes an `except` clause or a class lookup of the source mentions. -/
inductive ExcClass where
  | fileNotFoundError
  | scriptNotLoadedError
  | environmentNotSetError
  | outputNotFoundError
  | executionError
  | unsupportedFormatError
  | malformedMessageError
  | unknownCommandError
  | unknownStatusCodeError
  | decodeError
  | validationError
  | typeError
  | valueError
  | overflowError
  | indexError
  | transportClosedError
  | transportNotStartedError
  | transportNotConnectedError
  | syntaxError (name : String)
  | other (name : String)
  deriving DecidableEq, Repr

def ExcClass.name : ExcClass → String
  | .fileNotFoundError => "FileNotFoundError"
  | .scriptNotLoadedError => "ScriptNotLoadedError"
  | .environmentNotSetError => "EnvironmentNotSetError"
  | .outputNotFoundError => "OutputNotFoundError"
  | .executionError => "ExecutionError"
  | .unsupportedFormatError => "UnsupportedFormatError"
  | .malformedMessageError => "MalformedMessageError"
  | .unknownCommandError => "UnknownCommandError"
  | .unknownStatusCodeError => "UnknownStatusCodeError"
  | .decodeError => "DecodeError"
  | .validationError => "ValidationError"
  | .typeError => "TypeError"
  | .valueError => "ValueError"
  | .overflowError => "OverflowError"
  | .indexError => "IndexError"
  | .transportClosedError => "TransportClosedError"
  | .transportNotStartedError => "TransportNotStartedError"
  | .transportNotConnectedError => "TransportNotConnectedError"
  | .syntaxError name => name
  | .other name => name

/-- One exception object: its class, `str(e)` and the attributes
`_build_error_payload` looks up. `syntaxMsg` and `syntaxText` are the `msg` and
`text` of a `SyntaxError`. -/
structure PyError where
  cls : ExcClass
  text : String
  filename : Option String := none
  lineno : Option Int := none
  syntaxMsg : Option String := none
  syntaxText : Option String := none
  deriving DecidableEq, Repr

/-- An `Exception`. `parentError` is the attribute of vsengine's `ExecutionError`. -/
structure PyExc where
  error : PyError
  parentError : Option PyError := none
  deriving DecidableEq, Repr

namespace PyExc

def ofText (cls : ExcClass) (text : String) : PyExc := ⟨⟨cls, text, none, none, none, none⟩, none⟩

def cls (e : PyExc) : ExcClass := e.error.cls

def text (e : PyExc) : String := e.error.text

def isKeyError (e : PyExc) : Bool := e.cls = .outputNotFoundError ∨ e.cls = .other "KeyError"

/-- `isinstance(e, (msgspec.MsgspecError, TypeError))`. -/
def isMsgspecOrTypeError (e : PyExc) : Bool :=
  e.cls = .decodeError ∨ e.cls = .validationError ∨ e.cls = .typeError

/-- `isinstance(e, (FileNotFoundError, ScriptNotLoadedError))`. -/
def isNotFound (e : PyExc) : Bool :=
  e.cls = .fileNotFoundError ∨ e.cls = .scriptNotLoadedError

end PyExc

/-- What may come out of an await: an `Exception`, or the `CancelledError`
that is none and that only `except asyncio.CancelledError` sees. -/
inductive Raised where
  | cancelled
  | exc (e : PyExc)
  deriving DecidableEq, Repr

theorem toOption_eq_some {ε α : Type} {x : Except ε α} {a : α} (h : x.toOption = some a) : x = .ok a := by
  cases x with
  | error e => cases h
  | ok b => exact congrArg Except.ok (Option.some.inj h)

end VsRemote
