import VsRemote.Packing

/-! Request and response envelopes: the frames of the wire and their parse. -/

namespace VsRemote

structure RequestEnvelope where
  identity : Bytes
  reqIdBytes : Bytes
  reqId : Nat
  command : Command := .unknown
  payloadBytes : Bytes := []
  authToken : Option PyStr := none
  extraFrames : List Bytes := []
  deriving DecidableEq

def hexDigit (n : Nat) : Char := Char.ofNat (if n < 10 then 48 + n else 87 + n)

def reprByte (quote : Nat) (b : UInt8) : List Char :=
  let n := b.toNat
  if n = quote ∨ n = 92 then [Char.ofNat 92, Char.ofNat n]
  else if n = 9 then [Char.ofNat 92, 't']
  else if n = 10 then [Char.ofNat 92, 'n']
  else if n = 13 then [Char.ofNat 92, 'r']
  else if 32 ≤ n ∧ n < 127 then [Char.ofNat n]
  else [Char.ofNat 92, 'x', hexDigit (n / 16), hexDigit (n % 16)]

/-- `repr(b)`: single quotes unless only those occur inside. -/
def reprBytes (b : Bytes) : String :=
  let quote := if 39 ∈ b ∧ 34 ∉ b then 34 else 39
  String.ofList ('b' :: Char.ofNat quote :: (b.flatMap (reprByte quote) ++ [Char.ofNat quote]))

namespace RequestEnvelope

def fromData (identity requestIdBytes : Bytes) : RequestEnvelope :=
  ⟨identity, requestIdBytes, intFromBytes requestIdBytes, .unknown, [], none, []⟩

/-- The token frame: absent, empty and undecodable frames all give `None`. -/
def tokenOfExtra : List Bytes → Option PyStr
  | [] => none
  | b :: _ => if b = [] then none else PyStr.decodeUtf8 b

def ofParts (identity reqIdBytes cmdByte payloadBytes : Bytes) (extra : List Bytes) :
    Except PyExc RequestEnvelope :=
  match Command.ofNat? (intFromBytes cmdByte) with
  | none => .error (.ofText .unknownCommandError ("Unknown command byte: " ++ reprBytes cmdByte))
  | some cmd =>
    .ok ⟨identity, reqIdBytes, intFromBytes reqIdBytes, cmd, payloadBytes, tokenOfExtra extra, extra⟩

def fromFrames : List Bytes → Except PyExc RequestEnvelope
  | identity :: reqIdBytes :: cmdByte :: payloadBytes :: extra =>
    ofParts identity reqIdBytes cmdByte payloadBytes extra
  | [identity, reqIdBytes, cmdByte] => ofParts identity reqIdBytes cmdByte [] []
  | frames => .error (.ofText .malformedMessageError
      ("Malformed multipart request: expected at least 3 parts, got " ++ toString frames.length))

theorem fromFrames_ok {frames : List Bytes} {req : RequestEnvelope} (h : fromFrames frames = .ok req) :
    ∃ identity reqIdBytes cmdByte rest, frames = identity :: reqIdBytes :: cmdByte :: rest ∧
      Command.ofNat? (intFromBytes cmdByte) = some req.command ∧
      req = ⟨identity, reqIdBytes, intFromBytes reqIdBytes, req.command, rest.headD [],
        tokenOfExtra rest.tail, rest.tail⟩ := by
  unfold fromFrames at h
  split at h
  · rename_i identity reqIdBytes cmdByte payloadBytes extra
    refine ⟨identity, reqIdBytes, cmdByte, payloadBytes :: extra, rfl, ?_⟩
    unfold ofParts at h
    split at h
    · cases h
    · obtain rfl := Except.ok.inj h
      exact ⟨by assumption, rfl⟩
  · rename_i identity reqIdBytes cmdByte
    refine ⟨identity, reqIdBytes, cmdByte, [], rfl, ?_⟩
    unfold ofParts at h
    split at h
    · cases h
    · obtain rfl := Except.ok.inj h
      exact ⟨by assumption, rfl⟩
  · cases h

end RequestEnvelope

/-- `b.decode(errors="replace")`: each maximal ill-formed part gives one U+FFFD. -/
def decodeReplace : Bytes → List Char
  | [] => []
  | a :: rest =>
    let x := a.toNat
    if x < 0x80 then Char.ofNat x :: decodeReplace rest
    else match rest with
    | [] => [Char.ofNat 0xFFFD]
    | b :: rest₁ =>
      let y := b.toNat
      if 0xC2 ≤ x ∧ x ≤ 0xDF ∧ 0x80 ≤ y ∧ y ≤ 0xBF then
        Char.ofNat ((x - 0xC0) * 64 + (y - 0x80)) :: decodeReplace rest₁
      else if 0xE0 ≤ x ∧ x ≤ 0xEF ∧ (if x = 0xE0 then 0xA0 else 0x80) ≤ y ∧
          y ≤ (if x = 0xED then 0x9F else 0xBF) then
        match rest₁ with
        | [] => [Char.ofNat 0xFFFD]
        | c :: rest₂ =>
          let z := c.toNat
          if 0x80 ≤ z ∧ z ≤ 0xBF then
            Char.ofNat ((x - 0xE0) * 4096 + (y - 0x80) * 64 + (z - 0x80)) :: decodeReplace rest₂
          else Char.ofNat 0xFFFD :: decodeReplace (c :: rest₂)
      else if 0xF0 ≤ x ∧ x ≤ 0xF4 ∧ (if x = 0xF0 then 0x90 else 0x80) ≤ y ∧
          y ≤ (if x = 0xF4 then 0x8F else 0xBF) then
        match rest₁ with
        | [] => [Char.ofNat 0xFFFD]
        | c :: rest₂ =>
          let z := c.toNat
          if 0x80 ≤ z ∧ z ≤ 0xBF then
            match rest₂ with
            | [] => [Char.ofNat 0xFFFD]
            | d :: rest₃ =>
              let w := d.toNat
              if 0x80 ≤ w ∧ w ≤ 0xBF then
                Char.ofNat ((x - 0xF0) * 262144 + (y - 0x80) * 4096 + (z - 0x80) * 64 + (w - 0x80)) ::
                  decodeReplace rest₃
              else Char.ofNat 0xFFFD :: decodeReplace (d :: rest₃)
          else Char.ofNat 0xFFFD :: decodeReplace (c :: rest₂)
      else Char.ofNat 0xFFFD :: decodeReplace (b :: rest₁)

inductive ResponsePayload (α : Type) where
  | value (a : α)
  | error (p : RemoteErrorPayload)

structure ResponseEnvelope (α : Type) where
  status : StatusCode
  payload : ResponsePayload α
  payloadBytes : Bytes
  extraFrames : List Bytes

def errorPayload (m : Msgspec) (status : StatusCode) (payloadBytes : Bytes) : RemoteErrorPayload :=
  match unpackPayload m RemoteErrorPayload payloadBytes with
  | .ok p => p
  | .error _ =>
    let text := String.ofList (decodeReplace payloadBytes)
    { error := if text = "" then status.name else text }

namespace ResponseEnvelope

variable {α : Type}

/-- `from_frames(frames, target_type)`; `decode` is what the target type asks for. -/
def ofParts (m : Msgspec) (decode : Bytes → Except PyExc α) (statusByte payloadBytes : Bytes)
    (extra : List Bytes) : Except PyExc (ResponseEnvelope α) :=
  match StatusCode.ofNat? (intFromBytes statusByte) with
  | none => .error (.ofText .unknownStatusCodeError ("Unknown status code byte: " ++ reprBytes statusByte))
  | some status =>
    if status ≠ .ok then .ok ⟨status, .error (errorPayload m status payloadBytes), payloadBytes, extra⟩
    else (decode payloadBytes).map (fun a => ⟨status, .value a, payloadBytes, extra⟩)

def fromFrames (m : Msgspec) (decode : Bytes → Except PyExc α) :
    List Bytes → Except PyExc (ResponseEnvelope α)
  | statusByte :: payloadBytes :: extra => ofParts m decode statusByte payloadBytes extra
  | [statusByte] => ofParts m decode statusByte [] []
  | [] => .error (.ofText .malformedMessageError
      "Malformed multipart response: expected at least 1 part, got 0")

end ResponseEnvelope

structure RemoteError where
  cls : RemoteErrorClass
  message : String
  status : StatusCode
  payload : Option RemoteErrorPayload

/-- What settles a future with an exception. -/
inductive ClientError where
  | remote (e : RemoteError)
  | raised (e : PyExc)

def StatusCode.raiseForStatus (status : StatusCode) (message : String)
    (payload : Option RemoteErrorPayload) : Except ClientError Unit :=
  match status.exceptionCls with
  | none => .ok ()
  | some cls => .error (.remote ⟨cls, message, status, payload⟩)

def contextMessage (context text : String) : String :=
  if context ≠ "" ∧ ¬ text.startsWith context then context ++ ": " ++ text else text

/-- `raise_for_status(context_msg)`; `str` prints a payload that is no error. -/
def ResponseEnvelope.raiseForStatus {α : Type} (r : ResponseEnvelope α) (str : α → String)
    (context : String) : Except ClientError (ResponseEnvelope α) :=
  if r.status = .ok then .ok r
  else do
    match r.payload with
    | .error p => r.status.raiseForStatus (contextMessage context p.error) (some p)
    | .value a => r.status.raiseForStatus (contextMessage context (str a)) none
    pure r

end VsRemote
