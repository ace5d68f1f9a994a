import Mathlib.Algebra.Order.Field.Rat
import VsRemote.Messages
import VsRemote.Lib.OrderedDict

/-! `ServerMetricsCollector`. Clock readings are arguments and arithmetic is
exact. -/

namespace VsRemote

structure ClientSession where
  identityStr : String
  activeRequests : Nat := 0
  totalRequests : Nat := 0
  lastActive : Rat := 0
  deriving DecidableEq, Repr

structure FrameWindowEntry where
  timestamp : Rat
  frames : Nat
  compressedBytes : Nat
  deriving DecidableEq, Repr

structure ServerMetricsCollector where
  windowSeconds : Rat := 2
  maxLatencies : Nat := 100
  startTime : Rat
  totalFrameRequests : Nat := 0
  completedFrames : Nat := 0
  failedFrames : Nat := 0
  cancelledFrames : Nat := 0
  totalUncompressedBytes : Nat := 0
  totalCompressedBytes : Nat := 0
  throughputWindow : List FrameWindowEntry := []
  renderLatenciesMs : List Rat := []
  compressLatenciesMs : List Rat := []
  clients : OrderedDict Bytes ClientSession := .empty

/-- `round(q, digits)`, ties to even. -/
def pyRound (q : Rat) (digits : Nat) : Rat :=
  let scaled := q * (10 ^ digits : Nat)
  let low := scaled.floor
  let rest := scaled - low
  let n := if rest < 1 / 2 then low else if 1 / 2 < rest then low + 1
    else if low % 2 = 0 then low else low + 1
  (n : Rat) / (10 ^ digits : Nat)

structure SnapshotWorld where
  vsVersion : String
  vsThreads : Int
  vsUsedCacheSize : Int
  vsMaxCacheMb : Int
  processRss : Option Rat
  processCpuPercent : Option Rat

namespace ServerMetricsCollector

/-- `deque(maxlen=n).append(a)`. -/
def appendBounded (n : Nat) (l : List Rat) (a : Rat) : List Rat :=
  (l ++ [a]).drop ((l ++ [a]).length - n)

def pruneWindow (now : Rat) (m : ServerMetricsCollector) : ServerMetricsCollector :=
  { m with throughputWindow :=
      m.throughputWindow.dropWhile (fun e => e.timestamp < now - m.windowSeconds) }

/-- `printable` decides `str.isprintable`. -/
def identityStr (printable : PyStr → Bool) (identity : Bytes) : String :=
  let hex := String.ofList (identity.flatMap
    (fun b => [Nat.digitChar (b.toNat / 16), Nat.digitChar (b.toNat % 16)]))
  if identity = [] then "unknown"
  else match PyStr.decodeUtf8 identity with
  | some s => if printable s then String.ofList (s.map (fun c => Char.ofNat c.val)) else hex
  | none => hex

def onRequestStart (printable : PyStr → Bool) (identity : Bytes) (now : Rat)
    (m : ServerMetricsCollector) : ServerMetricsCollector :=
  let session := (m.clients.get? identity).getD { identityStr := identityStr printable identity }
  { m with clients := m.clients.set identity { session with
      activeRequests := session.activeRequests + 1
      totalRequests := session.totalRequests + 1
      lastActive := now } }

def onRequestEnd (identity : Bytes) (now : Rat) (m : ServerMetricsCollector) : ServerMetricsCollector :=
  match m.clients.get? identity with
  | none => m
  | some session =>
    { m with clients := m.clients.set identity { session with
        activeRequests := session.activeRequests - 1, lastActive := now } }

def onFrameRequest (m : ServerMetricsCollector) : ServerMetricsCollector :=
  { m with totalFrameRequests := m.totalFrameRequests + 1 }

def onFrameCompleted (uncompressedBytes compressedBytes : Nat) (renderTimeMs compressTimeMs now : Rat)
    (m : ServerMetricsCollector) : ServerMetricsCollector :=
  pruneWindow now { m with
    completedFrames := m.completedFrames + 1
    totalUncompressedBytes := m.totalUncompressedBytes + uncompressedBytes
    totalCompressedBytes := m.totalCompressedBytes + compressedBytes
    throughputWindow := m.throughputWindow ++ [⟨now, 1, compressedBytes⟩]
    renderLatenciesMs := appendBounded m.maxLatencies m.renderLatenciesMs renderTimeMs
    compressLatenciesMs := appendBounded m.maxLatencies m.compressLatenciesMs compressTimeMs }

def onFrameFailed (m : ServerMetricsCollector) : ServerMetricsCollector :=
  { m with failedFrames := m.failedFrames + 1 }

def onFrameCancelled (m : ServerMetricsCollector) : ServerMetricsCollector :=
  { m with cancelledFrames := m.cancelledFrames + 1 }

def average (l : List Rat) : Rat := if l = [] then 0 else l.sum / l.length

def rates (now : Rat) (window : List FrameWindowEntry) : Rat × Rat :=
  match window with
  | [] => (0, 0)
  | first :: _ =>
    let span := max (now - first.timestamp) (1 / 10)
    ((window.map FrameWindowEntry.frames).sum / span,
      ((window.map FrameWindowEntry.compressedBytes).sum * 8) / (span * 1000000))

def isStale (now : Rat) (s : ClientSession) : Bool :=
  3600 < now - s.lastActive ∧ s.activeRequests = 0

def sessionStats (now : Rat) (s : ClientSession) : ClientSessionStats :=
  ⟨s.identityStr, s.activeRequests, s.totalRequests, now - s.lastActive⟩

/-- The order of `sort(key=(active, total), reverse=True)`, which is stable. -/
def statsBefore (a b : ClientSessionStats) : Bool :=
  b.activeRequests < a.activeRequests ∨
    (b.activeRequests = a.activeRequests ∧ b.totalRequests ≤ a.totalRequests)

def snapshotStats (w : SnapshotWorld) (activeScript : Option String) (outputs : List OutputItem)
    (compressionMode : Compression) (inFlight : Nat) (now : Rat) (m : ServerMetricsCollector) :
    ServerStats :=
  let window := (m.pruneWindow now).throughputWindow
  let live := m.clients.values.filter (fun s => ¬ isStale now s)
  { uptimeSeconds := now - m.startTime
    activeScript := some (activeScript.getD "None")
    numOutputs := outputs.length
    totalFrameRequests := m.totalFrameRequests
    completedFrames := m.completedFrames
    failedFrames := m.failedFrames
    cancelledFrames := m.cancelledFrames
    inFlightRequests := inFlight
    fps := pyRound (rates now window).1 2
    bandwidthMbps := pyRound (rates now window).2 3
    avgRenderTimeMs := pyRound (average m.renderLatenciesMs) 2
    avgCompressTimeMs := pyRound (average m.compressLatenciesMs) 2
    compressionMode := compressionMode
    totalUncompressedBytes := m.totalUncompressedBytes
    totalCompressedBytes := m.totalCompressedBytes
    compressionRatio := pyRound (if 0 < m.totalCompressedBytes
      then m.totalUncompressedBytes / m.totalCompressedBytes else 1) 2
    vsVersion := w.vsVersion
    vsThreads := w.vsThreads
    vsUsedCacheMb := pyRound (w.vsUsedCacheSize / 1048576) 1
    vsMaxCacheMb := w.vsMaxCacheMb
    processRssMb := w.processRss.map (fun rss => pyRound (rss / 1048576) 1)
    processCpuPercent := w.processCpuPercent.map (pyRound · 1)
    outputs := outputs
    activeClients := (live.map (sessionStats now)).mergeSort statsBefore }

/-- `snapshot(...)`: the stats, and the collector without expired window
entries and stale clients. -/
def snapshot (w : SnapshotWorld) (activeScript : Option String) (outputs : List OutputItem)
    (compressionMode : Compression) (inFlight : Nat) (now : Rat) (m : ServerMetricsCollector) :
    ServerStats × ServerMetricsCollector :=
  let m' := m.pruneWindow now
  let stale := m.clients.entries.filter (fun e => isStale now e.2)
  (snapshotStats w activeScript outputs compressionMode inFlight now m,
    { m' with clients := stale.foldl (fun d e => d.erase e.1) m'.clients })

end ServerMetricsCollector

end VsRemote
