import VsRemote.Envelopes
import VsRemote.Runner
import VsRemote.Metrics
import VsRemote.Lib.Coro

/-! The request handlers of `ServerDaemon` as coroutines. Each operation is one
step on the event-loop thread; the handler gives up the thread at `awaitFrame`,
`runInExecutor` and `send`, and only there can a cancellation be raised. -/

namespace VsRemote

structure Daemon where
  msgspec : Msgspec
  compression : Compression := .zstd
  allowEval : Bool := false
  authToken : Option PyStr := none

inductive RunnerQuery where
  | environment
  | scriptPath
  | listOutputs
  | clipInfo (index : Int)
  | clip (index : Int)
  | startupEvents

@[reducible] def RunnerQuery.Res : RunnerQuery → Type
  | environment => Except PyExc Environment
  | scriptPath => Option String
  | listOutputs => List OutputItem
  | clipInfo _ => Except PyExc ClipInfo
  | clip _ => Except PyExc VideoNode
  | startupEvents => List StreamEvent

inductive MetricsCall where
  | requestStart (identity : Bytes)
  | requestEnd (identity : Bytes)
  | frameRequest
  | frameCompleted (uncompressedBytes compressedBytes : Nat) (renderTimeMs compressTimeMs : Rat)
  | frameFailed
  | frameCancelled

inductive LoadAction where
  | reload (p : ReloadRequest)
  | loadCode (p : LoadCodeRequest)
  | loadScript (p : LoadScriptRequest)
  deriving DecidableEq

inductive Job where
  | load (action : LoadAction)
  | teardown
  | extract (frame : VideoFrame) (compression : Compression)

@[reducible] def Job.Res : Job → Type
  | load _ => List OutputItem
  | teardown => Unit
  | extract _ _ => List Bytes × Nat

structure Traceback where
  stack : List FrameSummary
  formatted : String

/-- Why a message is sent: a reply, a replayed startup event or a live one. -/
inductive SendOrigin where
  | reply
  | history
  | broadcast
  deriving DecidableEq

inductive SrvOp where
  | socketOpen
  | inflightSet (key : Bytes × Nat)
  | inflightPop (key : Bytes × Nat)
  | inflightCancel (key : Bytes × Int)
  | inflightLen
  | metrics (call : MetricsCall)
  | runner (query : RunnerQuery)
  | useEnvironment (env : Environment)
  | snapshot (activeScript : Option String) (outputs : List OutputItem) (inFlight : Nat)
  | subscribersAdd (identity : Bytes)
  | subscribersDiscard (identity : Bytes)
  | perfCounter
  | traceback (e : PyError)
  | getFrameAsync (env : Environment) (clip : VideoNode) (n : Int)
  | awaitFrame (clip : VideoNode) (n : Int)
  | closeFrame (frame : Nat)
  | runInExecutor (job : Job)
  | send (origin : SendOrigin) (parts : List Bytes)

@[reducible] def SrvOp.Res : SrvOp → Type
  | socketOpen => Bool
  | inflightSet _ => Unit
  | inflightPop _ => Unit
  | inflightCancel _ => Unit
  | inflightLen => Nat
  | metrics _ => Unit
  | runner q => q.Res
  | useEnvironment _ => Except PyExc Unit
  | snapshot _ _ _ => Except PyExc ServerStats
  | subscribersAdd _ => Unit
  | subscribersDiscard _ => Unit
  | perfCounter => Rat
  | traceback _ => Traceback
  | getFrameAsync _ _ _ => Except PyExc Unit
  | awaitFrame _ _ => Except Raised VideoFrame
  | closeFrame _ => Unit
  | runInExecutor job => Except Raised job.Res
  | send _ _ => Except Raised Unit

abbrev srvSig : Signature := ⟨SrvOp, SrvOp.Res⟩

abbrev Handler := ExceptT Raised (Coro srvSig)

namespace Handler

def ofExcept {α : Type} : Except PyExc α → Handler α
  | .ok a => pure a
  | .error e => throw (.exc e)

def socketOpen : Handler Bool := ExceptT.lift (Coro.op (S := srvSig) .socketOpen)

def inflightSet (key : Bytes × Nat) : Handler Unit :=
  ExceptT.lift (Coro.op (S := srvSig) (.inflightSet key))

def inflightCancel (key : Bytes × Int) : Handler Unit :=
  ExceptT.lift (Coro.op (S := srvSig) (.inflightCancel key))

def inflightLen : Handler Nat := ExceptT.lift (Coro.op (S := srvSig) .inflightLen)

def metrics (c : MetricsCall) : Handler Unit := ExceptT.lift (Coro.op (S := srvSig) (.metrics c))

def runnerEnvironment : Handler (Except PyExc Environment) :=
  ExceptT.lift (Coro.op (S := srvSig) (.runner .environment))

def runnerScriptPath : Handler (Option String) :=
  ExceptT.lift (Coro.op (S := srvSig) (.runner .scriptPath))

def runnerListOutputs : Handler (List OutputItem) :=
  ExceptT.lift (Coro.op (S := srvSig) (.runner .listOutputs))

def runnerGetClipInfo (index : Int) : Handler (Except PyExc ClipInfo) :=
  ExceptT.lift (Coro.op (S := srvSig) (.runner (.clipInfo index)))

def runnerGetClip (index : Int) : Handler (Except PyExc VideoNode) :=
  ExceptT.lift (Coro.op (S := srvSig) (.runner (.clip index)))

def runnerStartupEvents : Handler (List StreamEvent) :=
  ExceptT.lift (Coro.op (S := srvSig) (.runner .startupEvents))

def useEnvironment (env : Environment) : Handler (Except PyExc Unit) :=
  ExceptT.lift (Coro.op (S := srvSig) (.useEnvironment env))

def snapshot (activeScript : Option String) (outputs : List OutputItem) (inFlight : Nat) :
    Handler (Except PyExc ServerStats) :=
  ExceptT.lift (Coro.op (S := srvSig) (.snapshot activeScript outputs inFlight))

def subscribersAdd (identity : Bytes) : Handler Unit :=
  ExceptT.lift (Coro.op (S := srvSig) (.subscribersAdd identity))

def subscribersDiscard (identity : Bytes) : Handler Unit :=
  ExceptT.lift (Coro.op (S := srvSig) (.subscribersDiscard identity))

def perfCounter : Handler Rat := ExceptT.lift (Coro.op (S := srvSig) .perfCounter)

def traceback (e : PyError) : Handler Traceback := ExceptT.lift (Coro.op (S := srvSig) (.traceback e))

def getFrameAsync (env : Environment) (clip : VideoNode) (n : Int) : Handler (Except PyExc Unit) :=
  ExceptT.lift (Coro.op (S := srvSig) (.getFrameAsync env clip n))

def awaitFrame (clip : VideoNode) (n : Int) : Handler VideoFrame :=
  ExceptT.mk (Coro.op (S := srvSig) (.awaitFrame clip n))

def closeFrame (frame : Nat) : Coro srvSig Unit := Coro.op (S := srvSig) (.closeFrame frame)

def runLoad (action : LoadAction) : Handler (List OutputItem) :=
  ExceptT.mk (Coro.op (S := srvSig) (.runInExecutor (.load action)))

def runTeardown : Handler Unit := ExceptT.mk (Coro.op (S := srvSig) (.runInExecutor .teardown))

def runExtract (frame : VideoFrame) (compression : Compression) : Handler (List Bytes × Nat) :=
  ExceptT.mk (Coro.op (S := srvSig) (.runInExecutor (.extract frame compression)))

def sendMultipart (origin : SendOrigin) (parts : List Bytes) : Handler Unit :=
  ExceptT.mk (Coro.op (S := srvSig) (.send origin parts))

/-- `try: x except Exception as e: h(e)`, which lets a cancellation through. -/
def tryExcept {α : Type} (x : Handler α) (h : PyExc → Handler α) : Handler α :=
  tryCatch x (fun
    | .cancelled => throw .cancelled
    | .exc e => h e)

end Handler

open Handler

/-- The title of an error that is only a message. -/
def messagePayload (status : StatusCode) (message : String) : RemoteErrorPayload :=
  { error := message, excType := status.title, excMsg := message }

def isInternalFrame (f : FrameSummary) : Bool :=
  f.filename.toLower.startsWith "src/cython/" || f.filename.toLower.startsWith "vapoursynth.pyx"

def isLibraryFrame (f : StackFrame) : Bool :=
  let norm := f.filename.toLower.replace "\\" "/"
  ["site-packages/", "/lib/", "vsengine/", "vsremote/", "vapoursynth.pyx"].any
    (fun m => 1 < (norm.splitOn m).length)

/-- File name, line and code of the error, once the stack has been consulted. -/
def locateError (orig : PyError) (frames : List StackFrame) :
    Option String × Option Int × Option String :=
  let found := match frames.reverse.find? (fun f => ! isLibraryFrame f) with
    | some f => (some f.filename, f.lineno, f.code)
    | none => (orig.filename, orig.lineno, none)
  match found.2.1, frames.getLast? with
  | none, some f => (some f.filename, f.lineno, f.code)
  | _, _ => found

def isSyntaxError : ExcClass → Bool
  | .syntaxError _ => true
  | _ => false

/-- `e.parent_error` of an `ExecutionError`, any other exception itself. -/
def origError (e : PyExc) : PyError :=
  if e.cls = .executionError then e.parentError.getD e.error else e.error

def buildErrorPayload (e : PyExc) (tb : Traceback) : RemoteErrorPayload :=
  let orig := origError e
  let frames := (tb.stack.filter (fun f => ! isInternalFrame f)).map StackFrame.fromSummary
  let syntaxCase := isSyntaxError orig.cls && orig.filename.isSome
  let excMsg := if syntaxCase then
      match orig.syntaxMsg with
      | some m => if m = "" then orig.text else m
      | none => orig.text
    else orig.text
  let place := if syntaxCase then
      (orig.filename, orig.lineno, match orig.syntaxText with
        | some t => if t = "" then none else some (pyStrip t)
        | none => none)
    else locateError orig frames
  let excType := orig.cls.name
  { error := if excMsg = "" then excType else excType ++ ": " ++ excMsg
    excType := excType
    excMsg := excMsg
    filename := place.1
    lineno := place.2.1
    codeLine := place.2.2
    formattedTraceback := some tb.formatted
    frames := frames }

def sendReply (req : RequestEnvelope) (status : StatusCode) (payloadBytes : Bytes)
    (extraFrames : List Bytes) : Handler Unit :=
  sendMultipart .reply (req.identity :: req.reqIdBytes :: [status.byte] :: payloadBytes :: extraFrames)

def sendError (d : Daemon) (req : RequestEnvelope) (status : StatusCode) (payload : RemoteErrorPayload) :
    Handler Unit := do
  let bytes ← ofExcept (pack d.msgspec payload)
  sendMultipart .reply [req.identity, req.reqIdBytes, [status.byte], bytes]

def sendErrorText (d : Daemon) (req : RequestEnvelope) (status : StatusCode) (message : String) :
    Handler Unit :=
  sendError d req status (messagePayload status message)

def zeroReqId : Bytes := intToBytes4 0

def pongBytes : Bytes := [80, 79, 78, 71]

def okBytes : Bytes := [79, 75]

def byeBytes : Bytes := [66, 89, 69]

def sendHistory (d : Daemon) (req : RequestEnvelope) : List StreamEvent → Handler Unit
  | [] => pure ()
  | event :: events => do
    let bytes ← ofExcept (d.msgspec.encode event.toObj)
    sendMultipart .history [req.identity, zeroReqId, [StatusCode.ok.byte], bytes]
    sendHistory d req events

def dispatchExecutor (d : Daemon) (req : RequestEnvelope) (α : Type) [Packed α] (typeName : String)
    (action : α → LoadAction) : Handler Unit :=
  match unpackPayload d.msgspec α req.payloadBytes with
  | .error e => sendErrorText d req .invalidPayload ("Invalid " ++ typeName ++ ": " ++ e.text)
  | .ok payload => do
    let err ← tryExcept
      (do
        let outputs ← runLoad (action payload)
        sendReply req .ok (← ofExcept (pack d.msgspec (α := List OutputItem) outputs)) []
        return none)
      (fun e => return some e)
    match err with
    | none => pure ()
    | some e =>
      let status := if e.isNotFound then StatusCode.notFound else StatusCode.error
      let tb ← traceback (origError e)
      runTeardown
      sendError d req status (buildErrorPayload e tb)

def frameErrorHeader (status : StatusCode) (req : RequestEnvelope) (frameReq : FrameRequest)
    (message : String) : FrameHeader where
  status := status
  reqId := req.reqId
  n := frameReq.n
  outputIndex := frameReq.outputIndex
  compression := frameReq.compression
  planeSizes := []
  props := []
  errorMessage := message

def sendHeader (d : Daemon) (req : RequestEnvelope) (header : FrameHeader) (planes : List Bytes) :
    Handler Unit := do
  sendReply req header.status (← ofExcept (pack d.msgspec header)) planes

/-- The body of the `with` block that holds the frame. -/
def sendFrame (d : Daemon) (req : RequestEnvelope) (frameReq : FrameRequest) (frame : VideoFrame)
    (renderStart : Rat) : Handler Unit := do
  let rendered ← perfCounter
  let compStart ← perfCounter
  let (planes, uncompressedBytes) ← runExtract frame frameReq.compression
  let compEnd ← perfCounter
  let planeSizes := planes.map List.length
  metrics (.frameCompleted uncompressedBytes planeSizes.sum ((rendered - renderStart) * 1000)
    ((compEnd - compStart) * 1000))
  let header : FrameHeader := {
    status := .ok
    reqId := req.reqId
    n := frameReq.n
    outputIndex := frameReq.outputIndex
    compression := frameReq.compression
    planeSizes := planeSizes.map Int.ofNat
    props := sanitizeProps frame.props }
  sendHeader d req header planes

def renderAndSend (d : Daemon) (req : RequestEnvelope) (frameReq : FrameRequest) (clip : VideoNode)
    (renderStart : Rat) : Handler Unit := do
  let env ← ofExcept (← runnerEnvironment)
  ofExcept (← useEnvironment env)
  ofExcept (← getFrameAsync env clip frameReq.n)
  let frame ← awaitFrame clip frameReq.n
  Coro.tryFinally (sendFrame d req frameReq frame renderStart) (closeFrame frame.id)

def handleGetFrame (d : Daemon) (req : RequestEnvelope) : Handler Unit := do
  if ! (← socketOpen) then return
  match unpackPayload d.msgspec FrameRequest req.payloadBytes with
  | .error e =>
    sendHeader d req (frameErrorHeader .invalidPayload req ⟨0, 0, d.compression⟩
      ("Failed to decode frame request payload: " ++ e.text)) []
  | .ok frameReq =>
    metrics .frameRequest
    match ← runnerGetClip frameReq.outputIndex with
    | .error e =>
      if e.isKeyError then sendHeader d req (frameErrorHeader .notFound req frameReq e.text) []
      else throw (.exc e)
    | .ok clip =>
      let renderStart ← perfCounter
      tryCatch (renderAndSend d req frameReq clip renderStart) (fun
        | .cancelled => do
          metrics .frameCancelled
          throw .cancelled
        | .exc e => do
          metrics .frameFailed
          let tb ← traceback e.error
          sendHeader d req (frameErrorHeader .error req frameReq
            (pyStrip (e.text ++ "\n\n[Remote Traceback]:\n" ++ tb.formatted))) [])

def handleGetStats (d : Daemon) (req : RequestEnvelope) : Handler Unit := do
  match ← runnerEnvironment with
  | .error e => sendErrorText d req .error e.text
  | .ok env =>
    ofExcept (← useEnvironment env)
    let activeScript ← runnerScriptPath
    let outputs ← runnerListOutputs
    let inFlight ← inflightLen
    let stats ← ofExcept (← snapshot activeScript outputs inFlight)
    sendReply req .ok (← ofExcept (pack d.msgspec stats)) []

def handleCancelRequest (d : Daemon) (req : RequestEnvelope) : Handler Unit :=
  match unpackPayload d.msgspec CancelRequest req.payloadBytes with
  | .error _ => pure ()
  | .ok payload => inflightCancel (req.identity, payload.reqId)

def handleGetClipInfo (d : Daemon) (req : RequestEnvelope) : Handler Unit :=
  tryExcept
    (do
      let payload ← ofExcept (unpackPayload d.msgspec OutputIndexRequest req.payloadBytes)
      let info ← ofExcept (← runnerGetClipInfo payload.outputIndex)
      sendReply req .ok (← ofExcept (pack d.msgspec info)) [])
    (fun e =>
      if e.isKeyError then sendErrorText d req .notFound e.text
      else if e.isMsgspecOrTypeError then
        sendErrorText d req .invalidPayload ("Invalid OutputIndexRequest: " ++ e.text)
      else throw (.exc e))

def handleSubscribeStream (d : Daemon) (req : RequestEnvelope) : Handler Unit :=
  match unpackPayload d.msgspec StreamSubscribeRequest req.payloadBytes with
  | .error e => sendErrorText d req .invalidPayload ("Invalid StreamSubscribeRequest: " ++ e.text)
  | .ok streamReq => do
    subscribersAdd req.identity
    sendReply req .ok okBytes []
    if streamReq.replayHistory then
      sendHistory d req (← runnerStartupEvents)

def dispatchRequest (d : Daemon) (req : RequestEnvelope) : Handler Unit :=
  match req.command with
  | .getStats => handleGetStats d req
  | .cancelRequest => handleCancelRequest d req
  | .ping => sendReply req .ok pongBytes []
  | .listOutputs => do
    let outputs ← runnerListOutputs
    sendReply req .ok (← ofExcept (pack d.msgspec (α := List OutputItem) outputs)) []
  | .getClipInfo => handleGetClipInfo d req
  | .getFrame => handleGetFrame d req
  | .subscribeStream => handleSubscribeStream d req
  | .unsubscribeStream => do
    subscribersDiscard req.identity
    sendReply req .ok okBytes []
  | .close => do
    subscribersDiscard req.identity
    sendReply req .ok byeBytes []
  | .reload => dispatchExecutor d req ReloadRequest "ReloadRequest" .reload
  | .loadCode =>
    if d.allowEval then dispatchExecutor d req LoadCodeRequest "LoadCodeRequest" .loadCode
    else sendErrorText d req .permissionDenied
      "Dynamic code evaluation is disabled on this server (allow_eval=False)"
  | .loadScript =>
    if d.allowEval then dispatchExecutor d req LoadScriptRequest "LoadScriptRequest" .loadScript
    else sendErrorText d req .permissionDenied
      "Dynamic script loading is disabled on this server (allow_eval=False)"
  | .unknown => sendErrorText d req .invalidCommand ("The command " ++ req.command.name ++ " is invalid")

/-- `secrets.compare_digest` on two `str`. -/
def compareDigest (a b : PyStr) : Except PyExc Bool :=
  if a.isAscii && b.isAscii then .ok (a = b)
  else .error (.ofText .typeError "comparing strings with non-ASCII characters is not supported")

/-- The condition of the token check: whether the request is refused. -/
def tokenRefused (authToken requestToken : Option PyStr) : Except PyExc Bool :=
  match authToken with
  | none => .ok false
  | some token =>
    match requestToken with
    | none => .ok true
    | some t => if t = [] then .ok true else (compareDigest t token).map (fun eq => ! eq)

/-- The `finally` of `_handle_request`. -/
def endRequest (identity : Bytes) (key : Bytes × Nat) : Coro srvSig Unit := do
  let _ ← Coro.op (S := srvSig) (.metrics (.requestEnd identity))
  Coro.op (S := srvSig) (.inflightPop key)

def acceptRequest (d : Daemon) (req : RequestEnvelope) : Handler Unit := do
  let key := (req.identity, req.reqId)
  inflightSet key
  metrics (.requestStart req.identity)
  Coro.tryFinally (dispatchRequest d req) (endRequest req.identity key)

/-- `_handle_request` once the socket is known to be there. -/
def handleMessage (d : Daemon) (msg : List Bytes) : Handler Unit :=
  match RequestEnvelope.fromFrames msg with
  | .error err =>
    match msg with
    | identity :: reqIdBytes :: _ =>
      sendErrorText d (RequestEnvelope.fromData identity reqIdBytes) .invalidCommand err.text
    | _ => pure ()
  | .ok req => do
    if ← ofExcept (tokenRefused d.authToken req.authToken) then
      sendErrorText d req .unauthorized "Unauthorized: invalid or missing auth token"
    else acceptRequest d req

def handleRequest (d : Daemon) (msg : List Bytes) : Handler Unit := do
  if ! (← socketOpen) then return
  handleMessage d msg

/-- `send_all` of `_broadcast_event`. -/
def sendAll (payload : Bytes) : List Bytes → Handler Unit
  | [] => pure ()
  | identity :: subscribers => do
    tryExcept (sendMultipart .broadcast [identity, zeroReqId, [StatusCode.ok.byte], payload])
      (fun e => if e.cls = .transportClosedError then pure () else throw (.exc e))
    sendAll payload subscribers

end VsRemote
