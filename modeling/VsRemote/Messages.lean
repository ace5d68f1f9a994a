import VsRemote.VapourSynth

/-! The structs of the protocol and what builds them. -/

namespace VsRemote

/-- A stack entry of `traceback.TracebackException`. -/
structure FrameSummary where
  filename : String
  lineno : Option Int
  name : String
  line : Option String
  deriving DecidableEq, Repr

structure StackFrame where
  filename : String
  lineno : Option Int
  funcName : Option String := none
  code : Option String := none
  deriving DecidableEq, Repr

/-- The characters `str.strip()` removes. -/
def isPySpace (c : Char) : Bool :=
  let n := c.toNat
  (9 ≤ n && n ≤ 13) || (28 ≤ n && n ≤ 32) || n = 133 || n = 160 || n = 5760 ||
    (8192 ≤ n && n ≤ 8202) || n = 8232 || n = 8233 || n = 8239 || n = 8287 || n = 12288

def pyStrip (s : String) : String :=
  String.ofList ((s.toList.dropWhile isPySpace).reverse.dropWhile isPySpace).reverse

def StackFrame.fromSummary (f : FrameSummary) : StackFrame where
  filename := f.filename
  lineno := f.lineno
  funcName := if f.name ≠ "<module>" then some f.name else none
  code := match f.line with
    | some l => if l = "" then none else some (pyStrip l)
    | none => none

structure RemoteErrorPayload where
  error : String
  excType : String := "Error"
  excMsg : String := ""
  filename : Option String := none
  lineno : Option Int := none
  codeLine : Option String := none
  formattedTraceback : Option String := none
  frames : List StackFrame := []
  deriving DecidableEq, Repr

structure PlaneInfo where
  width : Int
  height : Int
  bytesPerSample : Int
  sizeBytes : Int
  deriving DecidableEq, Repr

structure ClipInfo where
  width : Int
  height : Int
  fpsNum : Int
  fpsDen : Int
  numFrames : Int
  formatId : Int
  formatName : String
  numPlanes : Int
  bytesPerSample : Int
  bitsPerSample : Int
  subsamplingW : Int
  subsamplingH : Int
  sampleType : Int
  colorFamily : Int
  planes : List PlaneInfo
  name : String := ""
  deriving DecidableEq, Repr

def unsupportedFormat : PyExc :=
  .ofText .unsupportedFormatError "Variable format clips are not supported by vs-remote"

def planeDims (clip : VideoNode) (p : Nat) : Nat × Nat :=
  if p = 0 then (clip.width, clip.height)
  else (clip.width >>> clip.format.subsamplingW, clip.height >>> clip.format.subsamplingH)

def PlaneInfo.ofDims (bps : Nat) (d : Nat × Nat) : PlaneInfo :=
  ⟨d.1, d.2, bps, d.1 * d.2 * bps⟩

def PlaneInfo.fromClip (clip : VideoNode) : Except PyExc (List PlaneInfo) :=
  if clip.format.id = 0 then .error unsupportedFormat
  else
    .ok ((List.range clip.format.numPlanes).map
      (fun p => PlaneInfo.ofDims clip.format.bytesPerSample (planeDims clip p)))

def ClipInfo.fromClip (clip : VideoNode) (name : String) : Except PyExc ClipInfo :=
  if clip.format.id = 0 then .error unsupportedFormat
  else do
    let planes ← PlaneInfo.fromClip clip
    pure {
      width := clip.width
      height := clip.height
      fpsNum := clip.fpsNumerator
      fpsDen := clip.fpsDenominator
      numFrames := clip.numFrames
      formatId := clip.format.id
      formatName := clip.format.name
      numPlanes := clip.format.numPlanes
      bytesPerSample := clip.format.bytesPerSample
      bitsPerSample := clip.format.bitsPerSample
      subsamplingW := clip.format.subsamplingW
      subsamplingH := clip.format.subsamplingH
      sampleType := clip.format.sampleType
      colorFamily := clip.format.colorFamily
      planes := planes
      name := name }

structure OutputItem where
  index : Int
  name : String
  info : ClipInfo
  deriving DecidableEq, Repr

structure OutputIndexRequest where
  outputIndex : Int := 0
  deriving DecidableEq, Repr

structure FrameRequest where
  outputIndex : Int := 0
  n : Int := 0
  compression : Compression := .zstd
  deriving DecidableEq, Repr

structure FrameHeader where
  status : StatusCode
  reqId : Int
  n : Int
  outputIndex : Int
  compression : Compression
  planeSizes : List Int := []
  props : List (String × Obj) := []
  errorMessage : String := ""

structure StreamSubscribeRequest where
  replayHistory : Bool := true
  deriving DecidableEq, Repr

structure StreamOutputEvent where
  stream : String
  text : String

structure RemoteLogRecord where
  name : String
  levelno : Int
  levelname : String
  msg : String
  args : List Obj := []
  filename : String := ""
  lineno : Int := 0
  funcName : String := ""
  created : Rat := 0
  excText : Option String := none
  stackInfo : Option String := none

inductive StreamEvent where
  | log (r : RemoteLogRecord)
  | stream (e : StreamOutputEvent)

structure ReloadRequest where
  chdir : Bool := true
  deriving DecidableEq, Repr

structure LoadCodeRequest where
  code : String
  filename : String := "<remote_code>"
  deriving DecidableEq, Repr

structure LoadScriptRequest where
  scriptPath : String
  chdir : Bool := true
  deriving DecidableEq, Repr

structure CancelRequest where
  reqId : Int
  deriving DecidableEq, Repr

structure ClientSessionStats where
  identity : String
  activeRequests : Int
  totalRequests : Int
  lastActiveSecondsAgo : Rat
  deriving DecidableEq, Repr

structure ServerStats where
  uptimeSeconds : Rat
  activeScript : Option String
  numOutputs : Int
  totalFrameRequests : Int
  completedFrames : Int
  failedFrames : Int
  cancelledFrames : Int
  inFlightRequests : Int
  fps : Rat
  bandwidthMbps : Rat
  avgRenderTimeMs : Rat
  avgCompressTimeMs : Rat
  compressionMode : Compression
  totalUncompressedBytes : Int
  totalCompressedBytes : Int
  compressionRatio : Rat
  vsVersion : String
  vsThreads : Int
  vsUsedCacheMb : Rat
  vsMaxCacheMb : Int
  processRssMb : Option Rat := none
  processCpuPercent : Option Rat := none
  outputs : List OutputItem := []
  activeClients : List ClientSessionStats := []
  deriving DecidableEq, Repr

theorem ClipInfo.fromClip_ok {clip : VideoNode} (h : clip.format.id ≠ 0) (name : String) :
    ∃ info, ClipInfo.fromClip clip name = .ok info ∧ info.name = name := by
  simp [ClipInfo.fromClip, PlaneInfo.fromClip, h, bind, Except.bind, pure, Except.pure]

theorem ClipInfo.fromClip_error_iff {clip : VideoNode} {name : String} :
    (∃ e, ClipInfo.fromClip clip name = .error e) ↔ clip.format.id = 0 := by
  constructor
  · rintro ⟨e, he⟩
    by_contra h
    obtain ⟨info, hi, _⟩ := ClipInfo.fromClip_ok h name
    rw [hi] at he
    cases he
  · intro h
    exact ⟨unsupportedFormat, by simp [ClipInfo.fromClip, h]⟩

end VsRemote
