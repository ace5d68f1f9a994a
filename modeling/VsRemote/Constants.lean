import VsRemote.Exceptions

/-! Protocol constants. -/

namespace VsRemote

inductive Compression where
  | none
  | zstd
  deriving DecidableEq, Repr

def Compression.literal : Compression → String
  | .none => "none"
  | .zstd => "zstd"

def Compression.ofLiteral? (s : String) : Option Compression :=
  if s = "none" then some .none else if s = "zstd" then some .zstd else Option.none

inductive Command where
  | unknown
  | ping
  | listOutputs
  | getClipInfo
  | getFrame
  | close
  | subscribeStream
  | unsubscribeStream
  | reload
  | loadCode
  | loadScript
  | cancelRequest
  | getStats
  deriving DecidableEq, Repr

namespace Command

def value : Command → Nat
  | unknown => 0
  | ping => 1
  | listOutputs => 2
  | getClipInfo => 3
  | getFrame => 4
  | close => 5
  | subscribeStream => 6
  | unsubscribeStream => 7
  | reload => 8
  | loadCode => 9
  | loadScript => 10
  | cancelRequest => 11
  | getStats => 12

def name : Command → String
  | unknown => "UNKNOWN"
  | ping => "PING"
  | listOutputs => "LIST_OUTPUTS"
  | getClipInfo => "GET_CLIP_INFO"
  | getFrame => "GET_FRAME"
  | close => "CLOSE"
  | subscribeStream => "SUBSCRIBE_STREAM"
  | unsubscribeStream => "UNSUBSCRIBE_STREAM"
  | reload => "RELOAD"
  | loadCode => "LOAD_CODE"
  | loadScript => "LOAD_SCRIPT"
  | cancelRequest => "CANCEL_REQUEST"
  | getStats => "GET_STATS"

/-- `Command(n)`, which raises `ValueError` on other values. -/
def ofNat? : Nat → Option Command
  | 0 => some unknown
  | 1 => some ping
  | 2 => some listOutputs
  | 3 => some getClipInfo
  | 4 => some getFrame
  | 5 => some close
  | 6 => some subscribeStream
  | 7 => some unsubscribeStream
  | 8 => some reload
  | 9 => some loadCode
  | 10 => some loadScript
  | 11 => some cancelRequest
  | 12 => some getStats
  | _ => Option.none

def byte (c : Command) : UInt8 := UInt8.ofNat c.value

theorem ofNat?_byte (c : Command) : ofNat? (intFromBytes [c.byte]) = some c := by
  cases c <;> rfl

end Command

inductive RemoteErrorClass where
  | remoteExecutionError
  | remoteNotFoundError
  | remoteCommandError
  | remotePayloadError
  | remoteAuthenticationError
  | remotePermissionError
  deriving DecidableEq, Repr

inductive StatusCode where
  | ok
  | error
  | notFound
  | invalidCommand
  | invalidPayload
  | unauthorized
  | permissionDenied
  deriving DecidableEq, Repr

namespace StatusCode

def value : StatusCode → Nat
  | ok => 0
  | error => 1
  | notFound => 2
  | invalidCommand => 3
  | invalidPayload => 4
  | unauthorized => 5
  | permissionDenied => 6

def name : StatusCode → String
  | ok => "OK"
  | error => "ERROR"
  | notFound => "NOT_FOUND"
  | invalidCommand => "INVALID_COMMAND"
  | invalidPayload => "INVALID_PAYLOAD"
  | unauthorized => "UNAUTHORIZED"
  | permissionDenied => "PERMISSION_DENIED"

/-- `status.name.replace("_", " ").title()`. -/
def title : StatusCode → String
  | ok => "Ok"
  | error => "Error"
  | notFound => "Not Found"
  | invalidCommand => "Invalid Command"
  | invalidPayload => "Invalid Payload"
  | unauthorized => "Unauthorized"
  | permissionDenied => "Permission Denied"

def ofNat? : Nat → Option StatusCode
  | 0 => some ok
  | 1 => some error
  | 2 => some notFound
  | 3 => some invalidCommand
  | 4 => some invalidPayload
  | 5 => some unauthorized
  | 6 => some permissionDenied
  | _ => Option.none

/-- The exception class a status maps to; `none` only for `OK`. -/
def exceptionCls : StatusCode → Option RemoteErrorClass
  | ok => Option.none
  | error => some .remoteExecutionError
  | notFound => some .remoteNotFoundError
  | invalidCommand => some .remoteCommandError
  | invalidPayload => some .remotePayloadError
  | unauthorized => some .remoteAuthenticationError
  | permissionDenied => some .remotePermissionError

def byte (s : StatusCode) : UInt8 := UInt8.ofNat s.value

theorem ofNat?_byte (s : StatusCode) : ofNat? (intFromBytes [s.byte]) = some s := by
  cases s <;> rfl

theorem exceptionCls_eq_none_iff {s : StatusCode} : s.exceptionCls = Option.none ↔ s = ok := by
  cases s <;> simp [exceptionCls]

end StatusCode

end VsRemote
