import VsRemote.Codec
import VsRemote.Envelopes
import VsRemote.Lib.OrderedDict
import VsRemote.Lib.Runs

/-! `pipe`: one thread that asks for frames ahead of the one it waits for and
writes each to stdout, while the replies come in beside it. -/

namespace VsRemote

/-- `vs.ColorFamily` and `vs.SampleType`, as far as they are compared. -/
def colorFamilyGray : Int := 1

def colorFamilyYuv : Int := 3

def sampleTypeInteger : Int := 0

def subsamplingFormat (subsamplingW subsamplingH : Int) : Option String :=
  match subsamplingW, subsamplingH with
  | 1, 1 => some "420"
  | 1, 0 => some "422"
  | 0, 0 => some "444"
  | 2, 2 => some "410"
  | 2, 0 => some "411"
  | 0, 1 => some "440"
  | _, _ => none

def y4mFormat (info : ClipInfo) : Except PyExc String :=
  if info.numPlanes = 1 then
    .ok (if info.bitsPerSample = 8 then "mono" else "mono" ++ toString info.bitsPerSample)
  else if info.numPlanes = 3 then
    match subsamplingFormat info.subsamplingW info.subsamplingH with
    | none => .error (.ofText .unsupportedFormatError ("Unsupported subsampling for Y4M: (" ++
        toString info.subsamplingW ++ ", " ++ toString info.subsamplingH ++ ")"))
    | some format => .ok (if 8 < info.bitsPerSample then format ++ "p" ++ toString info.bitsPerSample else format)
  else .error (.ofText .unsupportedFormatError ("Unsupported number of planes for Y4M: " ++ toString info.numPlanes))

/-- `_get_y4m_header` -/
def getY4mHeader (info : ClipInfo) : Except PyExc Bytes :=
  if info.colorFamily ≠ colorFamilyGray ∧ info.colorFamily ≠ colorFamilyYuv then
    .error (.ofText .unsupportedFormatError ("Unsupported format for Y4M: " ++ info.formatName ++
      " (Y4M only supports YUV and Gray formats)"))
  else if info.sampleType ≠ sampleTypeInteger then
    .error (.ofText .unsupportedFormatError ("Unsupported sample type for Y4M: " ++ info.formatName ++
      " (Y4M only supports integer formats)"))
  else if info.bitsPerSample ∉ [8, 9, 10, 12, 14, 16] then
    .error (.ofText .unsupportedFormatError ("Unsupported bit depth for Y4M: " ++ toString info.bitsPerSample ++
      " (Y4M only supports 8, 9, 10, 12, 14, 16 bits)"))
  else
    match y4mFormat info with
    | .error e => .error e
    | .ok format => .ok (encodeAscii ("YUV4MPEG2 C" ++ format ++ " W" ++ toString info.width ++ " H" ++
        toString info.height ++ " F" ++ toString info.fpsNum ++ ":" ++ toString info.fpsDen ++
        " Ip A0:0 XLENGTH=" ++ toString info.numFrames ++ "\n"))

def frameMarker : Bytes := encodeAscii "FRAME\n"

/-- The arguments of `pipe`, and the clip info that `get_clip_info` gave it. -/
structure PipeCall where
  info : ClipInfo
  output : Int := 0
  y4m : Bool := false
  prefetch : Int := 8
  backlog : Option Int := none
  compression : Compression := .zstd

namespace PipeCall

variable (c : PipeCall)

def prefetchCount : Nat := (max 0 c.prefetch).toNat

def backlogCount : Nat := max c.prefetchCount (c.backlog.getD (c.prefetchCount * 3)).toNat

def frameRequest (n : Nat) : FrameRequest := ⟨c.output, n, c.compression⟩

/-- The frames of `range(num_frames)`. -/
def frameCount : Nat := c.info.numFrames.toNat

end PipeCall

/-- What `fut.result(timeout)` gives for a frame request, or raises. -/
abbrev FrameResult := Except ClientError (FrameHeader × List Bytes)

/-- The replies with status `OK`, which are the ones `pipe` writes. -/
def okReply : FrameResult → Option (FrameHeader × List Bytes)
  | .error _ => none
  | .ok reply => if reply.1.status = .ok then some reply else none

structure PipeFuture where
  request : FrameRequest
  result : Option FrameResult := none

/-- What one turn of the frame loop writes. -/
structure FrameWrites where
  marker : Bool := false
  planes : List Bytes := []
  deriving DecidableEq

def FrameWrites.bytes (w : FrameWrites) : Bytes := (if w.marker then frameMarker else []) ++ w.planes.flatten

/-- Where `pipe` is: before the header, at the top of the frame loop, in its
`while` loop after some turns, at the `pop`, waiting for a future, or writing
the planes that are left of a frame. -/
inductive PipePhase where
  | header
  | loop
  | fill (turns : Nat)
  | pop
  | wait (fut : Nat)
  | planes (header : FrameHeader) (parts : List Bytes)
  | returned
  | raised (e : ClientError)

/-- `frames` has what was written for the frames that are done and `current`
what was written for frame `n`; `results` are the results read so far. -/
structure PipeState where
  phase : PipePhase := .header
  n : Nat := 0
  inflight : OrderedDict Nat Nat := .empty
  futures : List PipeFuture := []
  results : List FrameResult := []
  header : Option Bytes := none
  frames : List FrameWrites := []
  current : FrameWrites := {}

/-- `reply` settles a future, `timeout` is the wait of `result` running out. -/
inductive PipeLabel where
  | pipe
  | reply (fut : Nat) (result : FrameResult)
  | timeout

namespace PipeState

variable (z : Zstd) (c : PipeCall)

def requestFrame (n : Nat) (s : PipeState) : PipeState := { s with futures := s.futures ++ [⟨c.frameRequest n, none⟩] }

def stepHeader (s : PipeState) : PipeState :=
  if c.y4m then
    match getY4mHeader c.info with
    | .error e => { s with phase := .raised (.raised e) }
    | .ok header => { s with header := some header, phase := .loop }
  else { s with phase := .loop }

def stepLoop (s : PipeState) : PipeState :=
  if s.n < c.frameCount then
    if 0 < c.prefetchCount then { s with phase := .fill 0 } else { s with phase := .pop }
  else { s with phase := .returned }

/-- One turn of the `while` loop. -/
def stepFill (turns : Nat) (s : PipeState) : PipeState :=
  if s.inflight.size < c.backlogCount then
    let nextToRequest := s.n + s.inflight.size
    if c.frameCount ≤ nextToRequest ∨ s.n + c.prefetchCount < nextToRequest then { s with phase := .pop }
    else if s.inflight.contains nextToRequest then { s with phase := .pop }
    else
      { s.requestFrame c nextToRequest with
        inflight := s.inflight.set nextToRequest s.futures.length
        phase := .fill (turns + 1) }
  else { s with phase := .pop }

def stepPop (s : PipeState) : PipeState :=
  match s.inflight.get? s.n with
  | some fut => { s with inflight := s.inflight.erase s.n, phase := .wait fut }
  | none => { s.requestFrame c s.n with phase := .wait s.futures.length }

/-- The result is there; with status `OK` the frame's marker is written. -/
def stepResult (result : FrameResult) (s : PipeState) : PipeState :=
  let s := { s with results := s.results ++ [result] }
  match result with
  | .error e => { s with phase := .raised e }
  | .ok (header, parts) =>
    match header.status.raiseForStatus
        ("Failed to fetch frame " ++ toString s.n ++ ": " ++ header.errorMessage) none with
    | .error e => { s with phase := .raised e }
    | .ok _ => { s with current := { marker := c.y4m }, phase := .planes header parts }

def stepPlanes (header : FrameHeader) (parts : List Bytes) (s : PipeState) : PipeState :=
  match parts with
  | [] => { s with frames := s.frames ++ [s.current], current := {}, n := s.n + 1, phase := .loop }
  | compressed :: parts =>
    match decompressPlane z compressed header.compression with
    | .error e => { s with phase := .raised (.raised e) }
    | .ok decompressed => { s with
        current := { s.current with planes := s.current.planes ++ [decompressed] }
        phase := .planes header parts }

/-- `none` where `pipe` has ended or waits for a result that is not there. -/
def stepPipe (s : PipeState) : Option PipeState :=
  match s.phase with
  | .header => some (s.stepHeader c)
  | .loop => some (s.stepLoop c)
  | .fill turns => some (s.stepFill c turns)
  | .pop => some (s.stepPop c)
  | .wait fut => ((s.futures[fut]?).bind PipeFuture.result).map (fun result => s.stepResult c result)
  | .planes header parts => some (s.stepPlanes z header parts)
  | .returned | .raised _ => none

def timeoutError : ClientError := .raised (.ofText (.other "TimeoutError") "")

def step : PipeLabel → PipeState → Option PipeState
  | .pipe, s => s.stepPipe z c
  | .reply fut result, s =>
    match s.futures[fut]? with
    | some ⟨_, none⟩ => some { s with futures := s.futures.modify fut (fun f => { f with result := some result }) }
    | _ => none
  | .timeout, s =>
    match s.phase with
    | .wait fut =>
      match (s.futures[fut]?).bind PipeFuture.result with
      | none => some { s with phase := .raised timeoutError }
      | some _ => none
    | _ => none

def ended (s : PipeState) : Bool :=
  match s.phase with
  | .returned | .raised _ => true
  | _ => false

/-- Everything written to stdout. -/
def stdout (s : PipeState) : Bytes := s.header.getD [] ++ (s.frames ++ [s.current]).flatMap FrameWrites.bytes

/-- The `while` loop stops. -/
def FillDone (c : PipeCall) (s : PipeState) : Prop :=
  c.backlogCount ≤ s.inflight.size ∨ c.frameCount ≤ s.n + s.inflight.size ∨ c.prefetchCount < s.inflight.size ∨
    s.inflight.contains (s.n + s.inflight.size) = true

/-- All that a step can do. -/
inductive PipeTo (z : Zstd) (c : PipeCall) (s : PipeState) : PipeLabel → PipeState → Prop
  | headerRaises {e : PyExc} (hphase : s.phase = .header) (hy4m : c.y4m = true) (he : getY4mHeader c.info = .error e) :
      PipeTo z c s .pipe { s with phase := .raised (.raised e) }
  | header {header : Bytes} (hphase : s.phase = .header) (hy4m : c.y4m = true)
      (hheader : getY4mHeader c.info = .ok header) : PipeTo z c s .pipe { s with header := some header, phase := .loop }
  | noHeader (hphase : s.phase = .header) (hy4m : c.y4m = false) : PipeTo z c s .pipe { s with phase := .loop }
  | toFill (hphase : s.phase = .loop) (hn : s.n < c.frameCount) (hprefetch : 0 < c.prefetchCount) :
      PipeTo z c s .pipe { s with phase := .fill 0 }
  | toPop (hphase : s.phase = .loop) (hn : s.n < c.frameCount) (hprefetch : c.prefetchCount = 0) :
      PipeTo z c s .pipe { s with phase := .pop }
  | returned (hphase : s.phase = .loop) (hn : c.frameCount ≤ s.n) : PipeTo z c s .pipe { s with phase := .returned }
  | fillDone {turns : Nat} (hphase : s.phase = .fill turns) (hdone : s.FillDone c) :
      PipeTo z c s .pipe { s with phase := .pop }
  | fillRequest {turns : Nat} (hphase : s.phase = .fill turns) (hdone : ¬ s.FillDone c) :
      PipeTo z c s .pipe { s.requestFrame c (s.n + s.inflight.size) with
        inflight := s.inflight.set (s.n + s.inflight.size) s.futures.length
        phase := .fill (turns + 1) }
  | popped {fut : Nat} (hphase : s.phase = .pop) (hfut : s.inflight.get? s.n = some fut) :
      PipeTo z c s .pipe { s with inflight := s.inflight.erase s.n, phase := .wait fut }
  | popMissed (hphase : s.phase = .pop) (hnone : s.inflight.get? s.n = none) :
      PipeTo z c s .pipe { s.requestFrame c s.n with phase := .wait s.futures.length }
  | resultRaises {fut : Nat} {result : FrameResult} {e : ClientError} (hphase : s.phase = .wait fut)
      (hresult : (s.futures[fut]?).bind PipeFuture.result = some result) (hbad : okReply result = none) :
      PipeTo z c s .pipe { s with results := s.results ++ [result], phase := .raised e }
  | result {fut : Nat} {header : FrameHeader} {parts : List Bytes} (hphase : s.phase = .wait fut)
      (hresult : (s.futures[fut]?).bind PipeFuture.result = some (.ok (header, parts))) (hok : header.status = .ok) :
      PipeTo z c s .pipe { s with
        results := s.results ++ [.ok (header, parts)]
        current := { marker := c.y4m }
        phase := .planes header parts }
  | frameDone {header : FrameHeader} (hphase : s.phase = .planes header []) :
      PipeTo z c s .pipe { s with frames := s.frames ++ [s.current], current := {}, n := s.n + 1, phase := .loop }
  | planeRaises {header : FrameHeader} {part : Bytes} {parts : List Bytes} {e : PyExc}
      (hphase : s.phase = .planes header (part :: parts))
      (he : decompressPlane z part header.compression = .error e) :
      PipeTo z c s .pipe { s with phase := .raised (.raised e) }
  | plane {header : FrameHeader} {part decompressed : Bytes} {parts : List Bytes}
      (hphase : s.phase = .planes header (part :: parts))
      (hpart : decompressPlane z part header.compression = .ok decompressed) :
      PipeTo z c s .pipe { s with
        current := { s.current with planes := s.current.planes ++ [decompressed] }
        phase := .planes header parts }
  | reply {fut : Nat} {request : FrameRequest} {result : FrameResult}
      (hfut : s.futures[fut]? = some ⟨request, none⟩) :
      PipeTo z c s (.reply fut result) { s with
        futures := s.futures.modify fut (fun f => { f with result := some result }) }
  | timeout {fut : Nat} (hphase : s.phase = .wait fut)
      (hnone : (s.futures[fut]?).bind PipeFuture.result = none) :
      PipeTo z c s .timeout { s with phase := .raised timeoutError }

variable {z : Zstd} {c : PipeCall} {s s' : PipeState}

theorem raiseForStatus_ok_iff {status : StatusCode} {message : String} :
    status.raiseForStatus message none = .ok () ↔ status = .ok := by
  rw [← StatusCode.exceptionCls_eq_none_iff]
  unfold StatusCode.raiseForStatus
  cases status.exceptionCls <;> simp

theorem to_stepHeader (hphase : s.phase = .header) : PipeTo z c s .pipe (s.stepHeader c) := by
  unfold stepHeader
  by_cases hy4m : c.y4m = true
  · rw [if_pos hy4m]
    cases hheader : getY4mHeader c.info with
    | error e => exact .headerRaises hphase hy4m hheader
    | ok header => exact .header hphase hy4m hheader
  · rw [if_neg hy4m]
    exact .noHeader hphase (Bool.eq_false_iff.2 hy4m)

theorem to_stepLoop (hphase : s.phase = .loop) : PipeTo z c s .pipe (s.stepLoop c) := by
  unfold stepLoop
  by_cases hn : s.n < c.frameCount
  · rw [if_pos hn]
    by_cases hprefetch : 0 < c.prefetchCount
    · rw [if_pos hprefetch]
      exact .toFill hphase hn hprefetch
    · rw [if_neg hprefetch]
      exact .toPop hphase hn (by omega)
  · rw [if_neg hn]
    exact .returned hphase (by omega)

theorem to_stepFill {turns : Nat} (hphase : s.phase = .fill turns) : PipeTo z c s .pipe (s.stepFill c turns) := by
  unfold stepFill
  dsimp only
  by_cases hsize : s.inflight.size < c.backlogCount
  · rw [if_pos hsize]
    by_cases hlimit : c.frameCount ≤ s.n + s.inflight.size ∨ s.n + c.prefetchCount < s.n + s.inflight.size
    · rw [if_pos hlimit]
      exact .fillDone hphase (.inr (hlimit.imp id (fun h => .inl (by omega))))
    · rw [if_neg hlimit]
      by_cases hin : s.inflight.contains (s.n + s.inflight.size) = true
      · rw [if_pos hin]
        exact .fillDone hphase (.inr (.inr (.inr hin)))
      · rw [if_neg hin]
        refine .fillRequest hphase ?_
        rintro (h | h | h | h)
        · omega
        · exact hlimit (.inl h)
        · exact hlimit (.inr (by omega))
        · exact hin h
  · rw [if_neg hsize]
    exact .fillDone hphase (.inl (by omega))

theorem to_stepPop (hphase : s.phase = .pop) : PipeTo z c s .pipe (s.stepPop c) := by
  unfold stepPop
  cases hfut : s.inflight.get? s.n with
  | some fut => exact .popped hphase hfut
  | none => exact .popMissed hphase hfut

theorem to_stepResult {fut : Nat} {result : FrameResult} (hphase : s.phase = .wait fut)
    (hresult : (s.futures[fut]?).bind PipeFuture.result = some result) :
    PipeTo z c s .pipe (s.stepResult c result) := by
  cases result with
  | error e => exact .resultRaises hphase hresult rfl
  | ok reply =>
    obtain ⟨header, parts⟩ := reply
    simp only [stepResult]
    cases hstatus : header.status.raiseForStatus
        ("Failed to fetch frame " ++ toString s.n ++ ": " ++ header.errorMessage) none with
    | error e =>
      refine .resultRaises hphase hresult (if_neg (fun hok => ?_))
      rw [raiseForStatus_ok_iff.2 hok] at hstatus
      cases hstatus
    | ok _ => exact .result hphase hresult (raiseForStatus_ok_iff.1 hstatus)

theorem to_stepPlanes {header : FrameHeader} {parts : List Bytes} (hphase : s.phase = .planes header parts) :
    PipeTo z c s .pipe (s.stepPlanes z header parts) := by
  cases parts with
  | nil => exact .frameDone hphase
  | cons part parts =>
    simp only [stepPlanes]
    cases hpart : decompressPlane z part header.compression with
    | error e => exact .planeRaises hphase hpart
    | ok decompressed => exact .plane hphase hpart

theorem step_to {l : PipeLabel} (hs : step z c l s = some s') : PipeTo z c s l s' := by
  cases l with
  | reply fut result =>
    simp only [step] at hs
    split at hs
    · next hfut => exact Option.some.inj hs ▸ .reply hfut
    · cases hs
  | timeout =>
    simp only [step] at hs
    split at hs
    · next fut hphase =>
      split at hs
      · next hnone => exact Option.some.inj hs ▸ .timeout hphase hnone
      · cases hs
    · cases hs
  | pipe =>
    simp only [step, stepPipe] at hs
    split at hs
    · next hphase => exact Option.some.inj hs ▸ to_stepHeader hphase
    · next hphase => exact Option.some.inj hs ▸ to_stepLoop hphase
    · next hphase => exact Option.some.inj hs ▸ to_stepFill hphase
    · next hphase => exact Option.some.inj hs ▸ to_stepPop hphase
    · next hphase =>
      obtain ⟨result, hresult, rfl⟩ := Option.map_eq_some_iff.1 hs
      exact to_stepResult hphase hresult
    · next hphase => exact Option.some.inj hs ▸ to_stepPlanes hphase
    · cases hs
    · cases hs

end PipeState

/-- The planes that decompress before the first that does not. -/
def decompressedPlanes (z : Zstd) (mode : Compression) : List Bytes → List Bytes
  | [] => []
  | part :: parts =>
    match decompressPlane z part mode with
    | .error _ => []
    | .ok decompressed => decompressed :: decompressedPlanes z mode parts

end VsRemote
