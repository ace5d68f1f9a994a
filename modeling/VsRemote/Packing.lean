import VsRemote.Messages

/-! The structs as MessagePack maps: every field under its name on the way
out, required fields demanded and defaults filled in on the way back. -/

namespace VsRemote

open Obj

@[simp] theorem except_ok_bind {ε α β : Type} (a : α) (f : α → Except ε β) :
    (Except.ok a >>= f) = f a := rfl

@[simp] theorem except_pure {ε α : Type} (a : α) : (pure a : Except ε α) = .ok a := rfl

def StackFrame.toObj (f : StackFrame) : Obj := .map [
  ("filename", .str f.filename),
  ("lineno", ofOption .int f.lineno),
  ("func_name", ofOption .str f.funcName),
  ("code", ofOption .str f.code)]

def StackFrame.ofObj (o : Obj) : Except String StackFrame := do
  let kvs ← o.asStruct
  let filename ← required kvs "filename" asStr
  let lineno ← required kvs "lineno" (asOption asInt)
  let funcName ← optional kvs "func_name" (asOption asStr) none
  let code ← optional kvs "code" (asOption asStr) none
  pure { filename, lineno, funcName, code }

@[simp] theorem StackFrame.ofObj_toObj (f : StackFrame) : StackFrame.ofObj f.toObj = .ok f := by
  simp [toObj, ofObj, required, optional]

instance : Packed StackFrame := ⟨StackFrame.toObj, StackFrame.ofObj, StackFrame.ofObj_toObj⟩

def RemoteErrorPayload.toObj (p : RemoteErrorPayload) : Obj := .map [
  ("error", .str p.error),
  ("exc_type", .str p.excType),
  ("exc_msg", .str p.excMsg),
  ("filename", ofOption .str p.filename),
  ("lineno", ofOption .int p.lineno),
  ("code_line", ofOption .str p.codeLine),
  ("formatted_traceback", ofOption .str p.formattedTraceback),
  ("frames", .array (p.frames.map StackFrame.toObj))]

def RemoteErrorPayload.ofObj (o : Obj) : Except String RemoteErrorPayload := do
  let kvs ← o.asStruct
  let error ← required kvs "error" asStr
  let excType ← optional kvs "exc_type" asStr "Error"
  let excMsg ← optional kvs "exc_msg" asStr ""
  let filename ← optional kvs "filename" (asOption asStr) none
  let lineno ← optional kvs "lineno" (asOption asInt) none
  let codeLine ← optional kvs "code_line" (asOption asStr) none
  let formattedTraceback ← optional kvs "formatted_traceback" (asOption asStr) none
  let frames ← optional kvs "frames" (asList StackFrame.ofObj) []
  pure { error, excType, excMsg, filename, lineno, codeLine, formattedTraceback, frames }

@[simp] theorem RemoteErrorPayload.ofObj_toObj (p : RemoteErrorPayload) :
    RemoteErrorPayload.ofObj p.toObj = .ok p := by
  have hframes := asList_map StackFrame.ofObj_toObj p.frames
  simp [toObj, ofObj, required, optional, hframes]

instance : Packed RemoteErrorPayload :=
  ⟨RemoteErrorPayload.toObj, RemoteErrorPayload.ofObj, RemoteErrorPayload.ofObj_toObj⟩

def PlaneInfo.toObj (i : PlaneInfo) : Obj := .map [
  ("width", .int i.width),
  ("height", .int i.height),
  ("bytes_per_sample", .int i.bytesPerSample),
  ("size_bytes", .int i.sizeBytes)]

def PlaneInfo.ofObj (o : Obj) : Except String PlaneInfo := do
  let kvs ← o.asStruct
  let width ← required kvs "width" asInt
  let height ← required kvs "height" asInt
  let bytesPerSample ← required kvs "bytes_per_sample" asInt
  let sizeBytes ← required kvs "size_bytes" asInt
  pure { width, height, bytesPerSample, sizeBytes }

@[simp] theorem PlaneInfo.ofObj_toObj (i : PlaneInfo) : PlaneInfo.ofObj i.toObj = .ok i := by
  simp [toObj, ofObj, required]

instance : Packed PlaneInfo := ⟨PlaneInfo.toObj, PlaneInfo.ofObj, PlaneInfo.ofObj_toObj⟩

def ClipInfo.toObj (i : ClipInfo) : Obj := .map [
  ("width", .int i.width),
  ("height", .int i.height),
  ("fps_num", .int i.fpsNum),
  ("fps_den", .int i.fpsDen),
  ("num_frames", .int i.numFrames),
  ("format_id", .int i.formatId),
  ("format_name", .str i.formatName),
  ("num_planes", .int i.numPlanes),
  ("bytes_per_sample", .int i.bytesPerSample),
  ("bits_per_sample", .int i.bitsPerSample),
  ("subsampling_w", .int i.subsamplingW),
  ("subsampling_h", .int i.subsamplingH),
  ("sample_type", .int i.sampleType),
  ("color_family", .int i.colorFamily),
  ("planes", .array (i.planes.map PlaneInfo.toObj)),
  ("name", .str i.name)]

def ClipInfo.ofObj (o : Obj) : Except String ClipInfo := do
  let kvs ← o.asStruct
  let width ← required kvs "width" asInt
  let height ← required kvs "height" asInt
  let fpsNum ← required kvs "fps_num" asInt
  let fpsDen ← required kvs "fps_den" asInt
  let numFrames ← required kvs "num_frames" asInt
  let formatId ← required kvs "format_id" asInt
  let formatName ← required kvs "format_name" asStr
  let numPlanes ← required kvs "num_planes" asInt
  let bytesPerSample ← required kvs "bytes_per_sample" asInt
  let bitsPerSample ← required kvs "bits_per_sample" asInt
  let subsamplingW ← required kvs "subsampling_w" asInt
  let subsamplingH ← required kvs "subsampling_h" asInt
  let sampleType ← required kvs "sample_type" asInt
  let colorFamily ← required kvs "color_family" asInt
  let planes ← required kvs "planes" (asList PlaneInfo.ofObj)
  let name ← optional kvs "name" asStr ""
  pure { width, height, fpsNum, fpsDen, numFrames, formatId, formatName, numPlanes, bytesPerSample,
         bitsPerSample, subsamplingW, subsamplingH, sampleType, colorFamily, planes, name }

@[simp] theorem ClipInfo.ofObj_toObj (i : ClipInfo) : ClipInfo.ofObj i.toObj = .ok i := by
  have hplanes := asList_map PlaneInfo.ofObj_toObj i.planes
  simp [toObj, ofObj, required, optional, hplanes]

instance : Packed ClipInfo := ⟨ClipInfo.toObj, ClipInfo.ofObj, ClipInfo.ofObj_toObj⟩

def OutputItem.toObj (i : OutputItem) : Obj := .map [
  ("index", .int i.index),
  ("name", .str i.name),
  ("info", ClipInfo.toObj i.info)]

def OutputItem.ofObj (o : Obj) : Except String OutputItem := do
  let kvs ← o.asStruct
  let index ← required kvs "index" asInt
  let name ← required kvs "name" asStr
  let info ← required kvs "info" ClipInfo.ofObj
  pure { index, name, info }

@[simp] theorem OutputItem.ofObj_toObj (i : OutputItem) : OutputItem.ofObj i.toObj = .ok i := by
  simp [toObj, ofObj, required]

instance : Packed OutputItem := ⟨OutputItem.toObj, OutputItem.ofObj, OutputItem.ofObj_toObj⟩

def OutputIndexRequest.toObj (r : OutputIndexRequest) : Obj := .map [
  ("output_index", .int r.outputIndex)]

def OutputIndexRequest.ofObj (o : Obj) : Except String OutputIndexRequest := do
  let kvs ← o.asStruct
  let outputIndex ← optional kvs "output_index" asInt 0
  pure { outputIndex }

@[simp] theorem OutputIndexRequest.ofObj_toObj (r : OutputIndexRequest) :
    OutputIndexRequest.ofObj r.toObj = .ok r := by
  simp [toObj, ofObj, optional]

instance : Packed OutputIndexRequest :=
  ⟨OutputIndexRequest.toObj, OutputIndexRequest.ofObj, OutputIndexRequest.ofObj_toObj⟩

def FrameRequest.toObj (r : FrameRequest) : Obj := .map [
  ("output_index", .int r.outputIndex),
  ("n", .int r.n),
  ("compression", .str r.compression.literal)]

def FrameRequest.ofObj (o : Obj) : Except String FrameRequest := do
  let kvs ← o.asStruct
  let outputIndex ← optional kvs "output_index" asInt 0
  let n ← optional kvs "n" asInt 0
  let compression ← optional kvs "compression" asCompression .zstd
  pure { outputIndex, n, compression }

@[simp] theorem FrameRequest.ofObj_toObj (r : FrameRequest) : FrameRequest.ofObj r.toObj = .ok r := by
  simp [toObj, ofObj, optional]

instance : Packed FrameRequest := ⟨FrameRequest.toObj, FrameRequest.ofObj, FrameRequest.ofObj_toObj⟩

def FrameHeader.toObj (h : FrameHeader) : Obj := .map [
  ("status", .int h.status.value),
  ("req_id", .int h.reqId),
  ("n", .int h.n),
  ("output_index", .int h.outputIndex),
  ("compression", .str h.compression.literal),
  ("plane_sizes", .array (h.planeSizes.map .int)),
  ("props", .map h.props),
  ("error_message", .str h.errorMessage)]

def FrameHeader.ofObj (o : Obj) : Except String FrameHeader := do
  let kvs ← o.asStruct
  let status ← required kvs "status" asStatus
  let reqId ← required kvs "req_id" asInt
  let n ← required kvs "n" asInt
  let outputIndex ← required kvs "output_index" asInt
  let compression ← required kvs "compression" asCompression
  let planeSizes ← optional kvs "plane_sizes" (asList asInt) []
  let props ← optional kvs "props" asDictAny []
  let errorMessage ← optional kvs "error_message" asStr ""
  pure { status, reqId, n, outputIndex, compression, planeSizes, props, errorMessage }

@[simp] theorem FrameHeader.ofObj_toObj (h : FrameHeader) : FrameHeader.ofObj h.toObj = .ok h := by
  simp [toObj, ofObj, required, optional]

instance : Packed FrameHeader := ⟨FrameHeader.toObj, FrameHeader.ofObj, FrameHeader.ofObj_toObj⟩

def StreamSubscribeRequest.toObj (r : StreamSubscribeRequest) : Obj := .map [
  ("replay_history", .bool r.replayHistory)]

def StreamSubscribeRequest.ofObj (o : Obj) : Except String StreamSubscribeRequest := do
  let kvs ← o.asStruct
  let replayHistory ← optional kvs "replay_history" asBool true
  pure { replayHistory }

@[simp] theorem StreamSubscribeRequest.ofObj_toObj (r : StreamSubscribeRequest) :
    StreamSubscribeRequest.ofObj r.toObj = .ok r := by
  simp [toObj, ofObj, optional]

instance : Packed StreamSubscribeRequest :=
  ⟨StreamSubscribeRequest.toObj, StreamSubscribeRequest.ofObj, StreamSubscribeRequest.ofObj_toObj⟩

def ReloadRequest.toObj (r : ReloadRequest) : Obj := .map [
  ("chdir", .bool r.chdir)]

def ReloadRequest.ofObj (o : Obj) : Except String ReloadRequest := do
  let kvs ← o.asStruct
  let chdir ← optional kvs "chdir" asBool true
  pure { chdir }

@[simp] theorem ReloadRequest.ofObj_toObj (r : ReloadRequest) : ReloadRequest.ofObj r.toObj = .ok r := by
  simp [toObj, ofObj, optional]

instance : Packed ReloadRequest := ⟨ReloadRequest.toObj, ReloadRequest.ofObj, ReloadRequest.ofObj_toObj⟩

def LoadCodeRequest.toObj (r : LoadCodeRequest) : Obj := .map [
  ("code", .str r.code),
  ("filename", .str r.filename)]

def LoadCodeRequest.ofObj (o : Obj) : Except String LoadCodeRequest := do
  let kvs ← o.asStruct
  let code ← required kvs "code" asStr
  let filename ← optional kvs "filename" asStr "<remote_code>"
  pure { code, filename }

@[simp] theorem LoadCodeRequest.ofObj_toObj (r : LoadCodeRequest) : LoadCodeRequest.ofObj r.toObj = .ok r := by
  simp [toObj, ofObj, required, optional]

instance : Packed LoadCodeRequest := ⟨LoadCodeRequest.toObj, LoadCodeRequest.ofObj, LoadCodeRequest.ofObj_toObj⟩

def LoadScriptRequest.toObj (r : LoadScriptRequest) : Obj := .map [
  ("script_path", .str r.scriptPath),
  ("chdir", .bool r.chdir)]

def LoadScriptRequest.ofObj (o : Obj) : Except String LoadScriptRequest := do
  let kvs ← o.asStruct
  let scriptPath ← required kvs "script_path" asStr
  let chdir ← optional kvs "chdir" asBool true
  pure { scriptPath, chdir }

@[simp] theorem LoadScriptRequest.ofObj_toObj (r : LoadScriptRequest) :
    LoadScriptRequest.ofObj r.toObj = .ok r := by
  simp [toObj, ofObj, required, optional]

instance : Packed LoadScriptRequest :=
  ⟨LoadScriptRequest.toObj, LoadScriptRequest.ofObj, LoadScriptRequest.ofObj_toObj⟩

def CancelRequest.toObj (r : CancelRequest) : Obj := .map [
  ("req_id", .int r.reqId)]

def CancelRequest.ofObj (o : Obj) : Except String CancelRequest := do
  let kvs ← o.asStruct
  let reqId ← required kvs "req_id" asInt
  pure { reqId }

@[simp] theorem CancelRequest.ofObj_toObj (r : CancelRequest) : CancelRequest.ofObj r.toObj = .ok r := by
  simp [toObj, ofObj, required]

instance : Packed CancelRequest := ⟨CancelRequest.toObj, CancelRequest.ofObj, CancelRequest.ofObj_toObj⟩

def ClientSessionStats.toObj (c : ClientSessionStats) : Obj := .map [
  ("identity", .str c.identity),
  ("active_requests", .int c.activeRequests),
  ("total_requests", .int c.totalRequests),
  ("last_active_seconds_ago", .float c.lastActiveSecondsAgo)]

def ClientSessionStats.ofObj (o : Obj) : Except String ClientSessionStats := do
  let kvs ← o.asStruct
  let identity ← required kvs "identity" asStr
  let activeRequests ← required kvs "active_requests" asInt
  let totalRequests ← required kvs "total_requests" asInt
  let lastActiveSecondsAgo ← required kvs "last_active_seconds_ago" asFloat
  pure { identity, activeRequests, totalRequests, lastActiveSecondsAgo }

@[simp] theorem ClientSessionStats.ofObj_toObj (c : ClientSessionStats) :
    ClientSessionStats.ofObj c.toObj = .ok c := by
  simp [toObj, ofObj, required]

instance : Packed ClientSessionStats :=
  ⟨ClientSessionStats.toObj, ClientSessionStats.ofObj, ClientSessionStats.ofObj_toObj⟩

def ServerStats.toObj (s : ServerStats) : Obj := .map [
  ("uptime_seconds", .float s.uptimeSeconds),
  ("active_script", ofOption .str s.activeScript),
  ("num_outputs", .int s.numOutputs),
  ("total_frame_requests", .int s.totalFrameRequests),
  ("completed_frames", .int s.completedFrames),
  ("failed_frames", .int s.failedFrames),
  ("cancelled_frames", .int s.cancelledFrames),
  ("in_flight_requests", .int s.inFlightRequests),
  ("fps", .float s.fps),
  ("bandwidth_mbps", .float s.bandwidthMbps),
  ("avg_render_time_ms", .float s.avgRenderTimeMs),
  ("avg_compress_time_ms", .float s.avgCompressTimeMs),
  ("compression_mode", .str s.compressionMode.literal),
  ("total_uncompressed_bytes", .int s.totalUncompressedBytes),
  ("total_compressed_bytes", .int s.totalCompressedBytes),
  ("compression_ratio", .float s.compressionRatio),
  ("vs_version", .str s.vsVersion),
  ("vs_threads", .int s.vsThreads),
  ("vs_used_cache_mb", .float s.vsUsedCacheMb),
  ("vs_max_cache_mb", .int s.vsMaxCacheMb),
  ("process_rss_mb", ofOption .float s.processRssMb),
  ("process_cpu_percent", ofOption .float s.processCpuPercent),
  ("outputs", .array (s.outputs.map OutputItem.toObj)),
  ("active_clients", .array (s.activeClients.map ClientSessionStats.toObj))]

def ServerStats.ofObj (o : Obj) : Except String ServerStats := do
  let kvs ← o.asStruct
  let uptimeSeconds ← required kvs "uptime_seconds" asFloat
  let activeScript ← required kvs "active_script" (asOption asStr)
  let numOutputs ← required kvs "num_outputs" asInt
  let totalFrameRequests ← required kvs "total_frame_requests" asInt
  let completedFrames ← required kvs "completed_frames" asInt
  let failedFrames ← required kvs "failed_frames" asInt
  let cancelledFrames ← required kvs "cancelled_frames" asInt
  let inFlightRequests ← required kvs "in_flight_requests" asInt
  let fps ← required kvs "fps" asFloat
  let bandwidthMbps ← required kvs "bandwidth_mbps" asFloat
  let avgRenderTimeMs ← required kvs "avg_render_time_ms" asFloat
  let avgCompressTimeMs ← required kvs "avg_compress_time_ms" asFloat
  let compressionMode ← required kvs "compression_mode" asCompression
  let totalUncompressedBytes ← required kvs "total_uncompressed_bytes" asInt
  let totalCompressedBytes ← required kvs "total_compressed_bytes" asInt
  let compressionRatio ← required kvs "compression_ratio" asFloat
  let vsVersion ← required kvs "vs_version" asStr
  let vsThreads ← required kvs "vs_threads" asInt
  let vsUsedCacheMb ← required kvs "vs_used_cache_mb" asFloat
  let vsMaxCacheMb ← required kvs "vs_max_cache_mb" asInt
  let processRssMb ← optional kvs "process_rss_mb" (asOption asFloat) none
  let processCpuPercent ← optional kvs "process_cpu_percent" (asOption asFloat) none
  let outputs ← optional kvs "outputs" (asList OutputItem.ofObj) []
  let activeClients ← optional kvs "active_clients" (asList ClientSessionStats.ofObj) []
  pure { uptimeSeconds, activeScript, numOutputs, totalFrameRequests, completedFrames, failedFrames,
         cancelledFrames, inFlightRequests, fps, bandwidthMbps, avgRenderTimeMs, avgCompressTimeMs,
         compressionMode, totalUncompressedBytes, totalCompressedBytes, compressionRatio, vsVersion,
         vsThreads, vsUsedCacheMb, vsMaxCacheMb, processRssMb, processCpuPercent, outputs, activeClients }

@[simp] theorem ServerStats.ofObj_toObj (s : ServerStats) : ServerStats.ofObj s.toObj = .ok s := by
  have houtputs := asList_map OutputItem.ofObj_toObj s.outputs
  have hactiveClients := asList_map ClientSessionStats.ofObj_toObj s.activeClients
  simp [toObj, ofObj, required, optional, houtputs, hactiveClients]

instance : Packed ServerStats := ⟨ServerStats.toObj, ServerStats.ofObj, ServerStats.ofObj_toObj⟩

instance : Packed (List OutputItem) where
  toObj xs := .array (xs.map OutputItem.toObj)
  ofObj := asList OutputItem.ofObj
  ofObj_toObj := asList_map OutputItem.ofObj_toObj

def StreamEvent.toObj : StreamEvent → Obj
  | .stream e => .map [("type", .str "stream"), ("stream", .str e.stream), ("text", .str e.text)]
  | .log r => .map [
      ("type", .str "log"),
      ("name", .str r.name),
      ("levelno", .int r.levelno),
      ("levelname", .str r.levelname),
      ("msg", .str r.msg),
      ("args", .array r.args),
      ("filename", .str r.filename),
      ("lineno", .int r.lineno),
      ("funcName", .str r.funcName),
      ("created", .float r.created),
      ("exc_text", ofOption .str r.excText),
      ("stack_info", ofOption .str r.stackInfo)]

def pack (m : Msgspec) {α : Type} [Packed α] (a : α) : Except PyExc Bytes :=
  m.encode (Packed.toObj a)

theorem unpackPayload_encoded {m : Msgspec} (hm : m.Lawful) (α : Type) [Packed α] {o : Obj} {bytes : Bytes}
    (h : m.encode o = .ok bytes) :
    unpackPayload m α bytes = (Packed.ofObj o).mapError (PyExc.ofText .validationError) := by
  unfold unpackPayload payloadOrEmpty
  rw [if_neg (hm.nonempty o bytes h), hm.decode_encode o bytes h]
  cases hobj : (Packed.ofObj o : Except String α) with
  | error text => simp only [hobj]; rfl
  | ok a => simp only [hobj]; rfl

theorem unpackPayload_pack {m : Msgspec} (hm : m.Lawful) {α : Type} [Packed α] {a : α} {bytes : Bytes}
    (h : pack m a = .ok bytes) : unpackPayload m α bytes = .ok a := by
  rw [unpackPayload_encoded hm α h, Packed.ofObj_toObj]
  rfl

/-- The struct of one error format is never taken for the other: each lacks a
field the other requires. -/
theorem FrameHeader.ofObj_remoteErrorPayload (p : RemoteErrorPayload) :
    ∃ text, FrameHeader.ofObj p.toObj = .error text :=
  ⟨_, by simp [RemoteErrorPayload.toObj, FrameHeader.ofObj, required]; rfl⟩

end VsRemote
