import Mathlib.Data.Finset.Insert
import VsRemote.Bytes
import VsRemote.Exceptions

/-! Curve keys: what the constructor of the daemon makes of them, the sockets
`start` sets up for them, and whom its ZAP handler lets in. -/

namespace VsRemote

/-- An argument that is a `str` or `bytes`. -/
inductive KeyArg where
  | str (text : PyStr)
  | bytes (raw : Bytes)
  deriving DecidableEq

/-- The text of ASCII bytes. -/
def asciiText (b : Bytes) : PyStr := b.map (fun x => ⟨x.toNat, Nat.lt_trans x.toNat_lt (by decide)⟩)

/-- `text.encode("ascii")` -/
def PyStr.encodeAscii (text : PyStr) : Except PyExc Bytes :=
  if text.isAscii then .ok (text.map (fun c => UInt8.ofNat c.val))
  else .error (.ofText (.other "UnicodeEncodeError") "ordinal not in range(128)")

/-- `zmq.utils.z85`: a key of 32 bytes is 40 ASCII characters, and `decode`
gives it back from them, as `bytes` or as `str`. -/
structure Z85 where
  encode : Bytes → Except PyExc Bytes
  decode : KeyArg → Except PyExc Bytes
  encode_key : ∀ {key : Bytes}, key.length = 32 →
    ∃ text, encode key = .ok text ∧ text.length = 40 ∧ ∀ x ∈ text, x < 128
  decode_encode : ∀ {key text : Bytes}, key.length = 32 → encode key = .ok text →
    decode (.bytes text) = .ok key ∧ decode (.str (asciiText text)) = .ok key

def validateCurveKey (curveKey : Option KeyArg) (name : String) : Except PyExc (Option Bytes) :=
  match curveKey with
  | none => .ok none
  | some (.str text) =>
    if text.length ≠ 40 then
      .error (.ofText .valueError ("Invalid " ++ name ++ " length. Expected 40 Z85 characters or 32 or 40 bytes"))
    else text.encodeAscii.map some
  | some (.bytes raw) =>
    if raw.length ∉ [32, 40] then
      .error (.ofText .valueError ("Invalid " ++ name ++ " length. Expected 40 Z85 characters or 32 or 40 bytes"))
    else .ok (some raw)

def keyLengthError (length : Nat) (unit : String) : PyExc :=
  .ofText .valueError ("Invalid Curve key length (" ++ toString length ++ " " ++ unit ++ "). " ++
    "Expected 40 Z85 characters or 32 or 40 bytes.")

/-- One turn of the loop of `validate_curve_allowed_keys`. -/
def allowedKey (z : Z85) : KeyArg → Except PyExc Bytes
  | .bytes raw =>
    if raw.length ∉ [32, 40] then .error (keyLengthError raw.length "bytes")
    else if raw.length = 32 then .ok raw
    else z.decode (.bytes raw)
  | .str text =>
    if text.length ≠ 40 then .error (keyLengthError text.length "characters")
    else z.decode (.str text)

def allowedKeys (z : Z85) : List KeyArg → Except PyExc (Finset Bytes)
  | [] => .ok ∅
  | item :: items => do
    let key ← allowedKey z item
    let keys ← allowedKeys z items
    pure (insert key keys)

def validateCurveAllowedKeys (z : Z85) (curveAllowedKeys : Option (List KeyArg)) : Except PyExc (Finset Bytes) :=
  allowedKeys z (curveAllowedKeys.getD [])

/-- The fields of the daemon that hold keys. -/
structure CurveKeys where
  curveSecretKey : Option Bytes
  curvePublicKey : Option Bytes
  curveAllowedKeys : Finset Bytes

/-- `ServerDaemon.__init__`, as far as it is about keys. -/
def CurveKeys.init (z : Z85) (curveSecretKey curvePublicKey : Option KeyArg) (curveAllowedKeys : Option (List KeyArg)) :
    Except PyExc CurveKeys :=
  if curvePublicKey.isSome ∧ curveSecretKey.isNone then
    .error (.ofText .valueError "curve_public_key requires curve_secret_key to be specified on the server")
  else if curveAllowedKeys.isSome ∧ curveSecretKey.isNone then
    .error (.ofText .valueError "curve_allowed_keys requires curve_secret_key to be specified on the server")
  else do
    let secret ← validateCurveKey curveSecretKey "curve_secret_key"
    let public_ ← validateCurveKey curvePublicKey "curve_public_key"
    let allowed ← validateCurveAllowedKeys z curveAllowedKeys
    pure ⟨secret, public_, allowed⟩

inductive CurveOption where
  | curveServer
  | curveSecretKey (key : Bytes)
  | curvePublicKey (key : Bytes)
  | zapDomain (domain : Bytes)
  deriving DecidableEq

/-- The ZAP socket and the options of the ROUTER socket. -/
structure CurveSockets where
  zapBound : Bool
  options : List CurveOption

/-- `if key:` for a key that may be `None`. -/
def truthyKey (key : Option Bytes) : Bool := key.any (fun k => !k.isEmpty)

def keyOption (option : Bytes → CurveOption) (key : Option Bytes) : List CurveOption :=
  if truthyKey key then [option (key.getD [])] else []

namespace CurveKeys

variable (k : CurveKeys)

/-- `start`, up to the options about Curve. -/
def start : CurveSockets :=
  ⟨truthyKey k.curveSecretKey && decide (k.curveAllowedKeys ≠ ∅),
    if truthyKey k.curveSecretKey then
      [.curveServer, .curveSecretKey (k.curveSecretKey.getD [])] ++ keyOption .curvePublicKey k.curvePublicKey ++
        (if k.curveAllowedKeys ≠ ∅ then [.zapDomain (encodeAscii "vsremote")] else [])
    else []⟩

end CurveKeys

def zapStatusOk : Bytes := encodeAscii "200"

def zapMsgOk : Bytes := encodeAscii "OK"

def zapUserAuth : Bytes := encodeAscii "authorized_client"

def zapEmpty : Bytes := []

def zapStatusErr : Bytes := encodeAscii "400"

def zapMsgUnauthorized : Bytes := encodeAscii "Unauthorized client key"

def curveMechanism : Bytes := encodeAscii "CURVE"

/-- One turn of `_zap_handler_loop`: the reply to a request. `debug` is
`logger.isEnabledFor(DEBUG)`; for the log the keys are encoded, which may raise. -/
def zapHandlerTurn (z : Z85) (debug : Bool) (allowed : Finset Bytes) (msg : List Bytes) : List Bytes :=
  let version := msg[0]?.getD (encodeAscii "1.0")
  let reqId := msg[1]?.getD (encodeAscii "0")
  let internalError := [version, reqId, zapStatusErr, encodeAscii "Internal authentication error", zapEmpty, zapEmpty]
  match msg.drop 2 with
  | _ :: _ :: _ :: mechanism :: clientKey :: _ =>
    if mechanism = curveMechanism ∧ clientKey ∈ allowed then
      let authorized := [version, reqId, zapStatusOk, zapMsgOk, zapUserAuth, zapEmpty]
      if debug then
        match z.encode clientKey with
        | .ok text => if text.all (fun x => x < 128) then authorized else internalError
        | .error _ => internalError
      else authorized
    else
      match z.encode clientKey with
      | .ok _ => [version, reqId, zapStatusErr, zapMsgUnauthorized, zapEmpty, zapEmpty]
      | .error _ => internalError
  | _ => [version, reqId, zapStatusErr, encodeAscii "Invalid ZAP request", zapEmpty, zapEmpty]

/-- What libzmq sends its ZAP handler about a Curve client, but for the key. -/
structure ZapRequest where
  version : Bytes
  reqId : Bytes
  domain : Bytes
  address : Bytes
  identity : Bytes

def ZapRequest.frames (r : ZapRequest) (key : Bytes) : List Bytes :=
  [r.version, r.reqId, r.domain, r.address, r.identity, curveMechanism, key]

/-- A Curve server of libzmq lets every client in if there is no ZAP handler, and
else those for which it answers 200. -/
def CurveKeys.Admits (z : Z85) (debug : Bool) (k : CurveKeys) (r : ZapRequest) (key : Bytes) : Prop :=
  .curveServer ∈ k.start.options ∧
    (k.start.zapBound = true → (zapHandlerTurn z debug k.curveAllowedKeys (r.frames key))[2]? = some zapStatusOk)

/-- The entry of a whitelist is this key of 32 bytes, as it is or in Z85. -/
def Denotes (z : Z85) : KeyArg → Bytes → Prop
  | .bytes raw, key => key.length = 32 ∧ (raw = key ∨ z.encode key = .ok raw)
  | .str text, key => key.length = 32 ∧ ∃ raw, z.encode key = .ok raw ∧ text = asciiText raw

end VsRemote
