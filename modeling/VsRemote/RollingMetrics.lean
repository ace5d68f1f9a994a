import Mathlib.Tactic.NormNum
import VsRemote.Metrics
import VsRemote.Exceptions
import VsRemote.Lib.RollingWindow

/-! The rolling figures of a `snapshot` as functions of all completions before it. -/

namespace VsRemote

/-- `a / b` -/
def divide (a b : Rat) : Except PyExc Rat :=
  if b = 0 then .error (.ofText (.other "ZeroDivisionError") "division by zero") else .ok (a / b)

theorem divide_ok {a b : Rat} (h : b ≠ 0) : divide a b = .ok (a / b) := if_neg h

/-- What `snapshot` computes before it rounds. -/
structure Figures where
  fps : Rat
  bandwidthMbps : Rat
  avgRenderMs : Rat
  avgCompressMs : Rat
  compressionRatio : Rat
  deriving DecidableEq

/-- The arguments of one `on_frame_completed`, and when it was called. -/
structure Completion where
  uncompressedBytes : Nat
  compressedBytes : Nat
  renderTimeMs : Rat
  compressTimeMs : Rat
  now : Rat

def Completion.entry (c : Completion) : FrameWindowEntry := ⟨c.now, 1, c.compressedBytes⟩

structure SnapshotCall where
  world : SnapshotWorld
  activeScript : Option String
  outputs : List OutputItem
  compressionMode : Compression
  inFlight : Nat
  now : Rat

inductive CollectorCall where
  | frameCompleted (c : Completion)
  | snapshot (s : SnapshotCall)

namespace ServerMetricsCollector

/-- The windowed rates, as the divisions may raise. -/
def divideRates (now : Rat) (window : List FrameWindowEntry) : Except PyExc (Rat × Rat) :=
  let totalWindowFrames : Nat := (window.map FrameWindowEntry.frames).sum
  let totalWindowBytes : Nat := (window.map FrameWindowEntry.compressedBytes).sum
  match window with
  | [] => .ok (0, 0)
  | first :: _ => do
    let timeSpan := max (now - first.timestamp) (1 / 10)
    let fps ← divide totalWindowFrames timeSpan
    let bandwidthMbps ← divide (totalWindowBytes * 8) (timeSpan * 1000000)
    pure (fps, bandwidthMbps)

def divideAverage (l : List Rat) : Except PyExc Rat := if l = [] then .ok 0 else divide l.sum l.length

def divideRatio (uncompressed compressed : Nat) : Except PyExc Rat :=
  if 0 < compressed then divide uncompressed compressed else .ok 1

/-- The computations of `snapshot` up to the compression ratio. -/
def figures (now : Rat) (m : ServerMetricsCollector) : Except PyExc Figures := do
  let m := m.pruneWindow now
  let (fps, bandwidthMbps) ← divideRates now m.throughputWindow
  let avgRenderMs ← divideAverage m.renderLatenciesMs
  let avgCompressMs ← divideAverage m.compressLatenciesMs
  let compressionRatio ← divideRatio m.totalUncompressedBytes m.totalCompressedBytes
  pure ⟨fps, bandwidthMbps, avgRenderMs, avgCompressMs, compressionRatio⟩

theorem divideRates_ok (now : Rat) (window : List FrameWindowEntry) :
    divideRates now window = .ok (rates now window) := by
  cases window with
  | nil => rfl
  | cons first rest =>
    have htenth : (0 : Rat) < 1 / 10 := by norm_num
    have hspan : max (now - first.timestamp) (1 / 10) ≠ 0 := ne_of_gt (lt_of_lt_of_le htenth (le_max_right _ _))
    have hmega : max (now - first.timestamp) (1 / 10) * 1000000 ≠ 0 := mul_ne_zero hspan (by norm_num)
    simp only [divideRates, divide_ok hspan, divide_ok hmega]
    rfl

theorem divideAverage_ok (l : List Rat) : divideAverage l = .ok (average l) := by
  unfold divideAverage average
  by_cases hl : l = []
  · rw [if_pos hl, if_pos hl]
  · have hlength : (l.length : Rat) ≠ 0 := Nat.cast_ne_zero.2 (fun h => hl (List.length_eq_zero_iff.1 h))
    rw [if_neg hl, if_neg hl, divide_ok hlength]

theorem divideRatio_ok (uncompressed compressed : Nat) :
    divideRatio uncompressed compressed = .ok (if 0 < compressed then uncompressed / compressed else 1) := by
  unfold divideRatio
  by_cases hpos : 0 < compressed
  · have hne : (compressed : Rat) ≠ 0 := Nat.cast_ne_zero.2 (Nat.pos_iff_ne_zero.1 hpos)
    rw [if_pos hpos, if_pos hpos, divide_ok hne]
  · rw [if_neg hpos, if_neg hpos]

/-- No state of the collector makes `snapshot` divide by zero. -/
theorem figures_ok (now : Rat) (m : ServerMetricsCollector) :
    m.figures now = .ok ⟨(rates now (m.pruneWindow now).throughputWindow).1,
      (rates now (m.pruneWindow now).throughputWindow).2, average m.renderLatenciesMs,
      average m.compressLatenciesMs,
      if 0 < m.totalCompressedBytes then m.totalUncompressedBytes / m.totalCompressedBytes else 1⟩ := by
  simp only [figures, divideRates_ok, divideAverage_ok, divideRatio_ok]
  rfl

end ServerMetricsCollector

open ServerMetricsCollector

namespace CollectorCall

def now : CollectorCall → Rat
  | frameCompleted c => c.now
  | snapshot s => s.now

def run (m : ServerMetricsCollector) : CollectorCall → ServerMetricsCollector
  | frameCompleted c => m.onFrameCompleted c.uncompressedBytes c.compressedBytes c.renderTimeMs c.compressTimeMs c.now
  | snapshot s => (m.snapshot s.world s.activeScript s.outputs s.compressionMode s.inFlight s.now).2

def completions : List CollectorCall → List Completion
  | [] => []
  | frameCompleted c :: calls => c :: completions calls
  | snapshot _ :: calls => completions calls

end CollectorCall

/-- `ServerMetricsCollector(window_seconds, max_latencies)` -/
def ServerMetricsCollector.new (windowSeconds : Rat) (maxLatencies : Nat) (startTime : Rat) : ServerMetricsCollector :=
  { windowSeconds, maxLatencies, startTime }

namespace History

/-- The completions that are not older than the window. -/
def recent (windowSeconds now : Rat) (done : List Completion) : List Completion :=
  done.filter (fun c => now - windowSeconds ≤ c.now)

/-- The sum per second since the earliest of the completions, or since a tenth of a second. -/
def rate (now : Rat) (recent : List Completion) (total : Rat) : Rat :=
  match (recent.map Completion.now).min? with
  | none => 0
  | some earliest => total / max (now - earliest) (1 / 10)

def mean (l : List Rat) : Rat := if l = [] then 0 else l.sum / l.length

def figures (windowSeconds : Rat) (maxLatencies : Nat) (now : Rat) (done : List Completion) : Figures where
  fps := rate now (recent windowSeconds now done) (recent windowSeconds now done).length
  bandwidthMbps := rate now (recent windowSeconds now done)
    (8 * ((recent windowSeconds now done).map Completion.compressedBytes).sum) / 1000000
  avgRenderMs := mean ((done.map Completion.renderTimeMs).rtake maxLatencies)
  avgCompressMs := mean ((done.map Completion.compressTimeMs).rtake maxLatencies)
  compressionRatio :=
    if (done.map Completion.compressedBytes).sum = 0 then 1
    else (done.map Completion.uncompressedBytes).sum / (done.map Completion.compressedBytes).sum

end History

/-- After the completions `done`, none of them later than `now`. -/
structure Recorded (windowSeconds : Rat) (maxLatencies : Nat) (done : List Completion) (now : Rat)
    (m : ServerMetricsCollector) : Prop where
  width : m.windowSeconds = windowSeconds
  bound : m.maxLatencies = maxLatencies
  window : RollingWindow.Tracks FrameWindowEntry.timestamp (done.map Completion.entry) m.throughputWindow
    (now - windowSeconds)
  renderLatencies : m.renderLatenciesMs = (done.map Completion.renderTimeMs).rtake maxLatencies
  compressLatencies : m.compressLatenciesMs = (done.map Completion.compressTimeMs).rtake maxLatencies
  uncompressedBytes : m.totalUncompressedBytes = (done.map Completion.uncompressedBytes).sum
  compressedBytes : m.totalCompressedBytes = (done.map Completion.compressedBytes).sum
  completed : m.completedFrames = done.length

namespace Recorded

variable {windowSeconds now now' : Rat} {maxLatencies : Nat} {done : List Completion} {m : ServerMetricsCollector}
  {c : Completion} {s : SnapshotCall}

theorem new (windowSeconds : Rat) (maxLatencies : Nat) (startTime now : Rat) :
    Recorded windowSeconds maxLatencies [] now (.new windowSeconds maxLatencies startTime) where
  width := rfl
  bound := rfl
  window := RollingWindow.tracks_nil
  renderLatencies := (List.rtake_nil _).symm
  compressLatencies := (List.rtake_nil _).symm
  uncompressedBytes := rfl
  compressedBytes := rfl
  completed := rfl

theorem later (h : Recorded windowSeconds maxLatencies done now m) (hnow : now ≤ now') :
    Recorded windowSeconds maxLatencies done now' m :=
  { h with window := h.window.mono (sub_le_sub_right hnow windowSeconds) }

theorem entry_times {done : List Completion} :
    (done.map Completion.entry).map FrameWindowEntry.timestamp = done.map Completion.now := by
  rw [List.map_map]
  rfl

theorem frameCompleted (h : Recorded windowSeconds maxLatencies done c.now m)
    (hclock : ((done ++ [c]).map Completion.now).Pairwise (· ≤ ·)) :
    Recorded windowSeconds maxLatencies (done ++ [c]) c.now (CollectorCall.run m (.frameCompleted c)) := by
  have hsorted : ((done.map Completion.entry ++ [c.entry]).map FrameWindowEntry.timestamp).Pairwise (· ≤ ·) := by
    have heq : done.map Completion.entry ++ [c.entry] = (done ++ [c]).map Completion.entry := by
      rw [List.map_append, List.map_singleton]
    rw [heq, entry_times]
    exact hclock
  constructor
  · exact h.width
  · exact h.bound
  · have hpruned := h.window.pruned (le_refl _) hsorted
    rw [List.map_append, List.map_singleton]
    simp only [CollectorCall.run, onFrameCompleted, pruneWindow, h.width]
    exact hpruned
  · simp only [CollectorCall.run, onFrameCompleted, pruneWindow, h.bound, h.renderLatencies]
    rw [List.map_append, List.map_singleton]
    exact RollingWindow.rtake_rtake_append ..
  · simp only [CollectorCall.run, onFrameCompleted, pruneWindow, h.bound, h.compressLatencies]
    rw [List.map_append, List.map_singleton]
    exact RollingWindow.rtake_rtake_append ..
  · simp only [CollectorCall.run, onFrameCompleted, pruneWindow, h.uncompressedBytes, List.map_append, List.map_singleton,
      List.sum_append, List.sum_singleton]
  · simp only [CollectorCall.run, onFrameCompleted, pruneWindow, h.compressedBytes, List.map_append, List.map_singleton,
      List.sum_append, List.sum_singleton]
  · simp only [CollectorCall.run, onFrameCompleted, pruneWindow, h.completed, List.length_append, List.length_singleton]

/-- The window after the pruning of a snapshot. -/
theorem window_eq (h : Recorded windowSeconds maxLatencies done now m)
    (hclock : (done.map Completion.now).Pairwise (· ≤ ·)) :
    (m.pruneWindow now).throughputWindow = (History.recent windowSeconds now done).map Completion.entry := by
  have hsorted : ((done.map Completion.entry ++ []).map FrameWindowEntry.timestamp).Pairwise (· ≤ ·) := by
    rw [List.append_nil, entry_times]
    exact hclock
  have hpruned := h.window.prune (le_refl _) hsorted
  rw [List.append_nil, List.append_nil] at hpruned
  simp only [pruneWindow, h.width]
  rw [hpruned, List.filter_map]
  rfl

theorem snapshot (h : Recorded windowSeconds maxLatencies done s.now m)
    (hclock : (done.map Completion.now).Pairwise (· ≤ ·)) :
    Recorded windowSeconds maxLatencies done s.now (CollectorCall.run m (.snapshot s)) := by
  refine { h with window := ⟨s.now - windowSeconds, le_refl _, ?_⟩ }
  refine (h.window_eq hclock).trans ?_
  rw [List.filter_map]
  rfl

/-- What a run of calls has recorded. -/
theorem foldl {calls : List CollectorCall} {rest : List Completion} (h : Recorded windowSeconds maxLatencies rest now m)
    (hclock : ((rest.map Completion.now) ++ calls.map CollectorCall.now).Pairwise (· ≤ ·))
    (hnow : ∀ call ∈ calls, now ≤ call.now) (hlast : now ≤ now') (hcalls : ∀ call ∈ calls, call.now ≤ now') :
    Recorded windowSeconds maxLatencies (rest ++ CollectorCall.completions calls) now' (calls.foldl CollectorCall.run m) := by
  induction calls generalizing rest now m with
  | nil =>
    rw [CollectorCall.completions, List.append_nil]
    exact h.later hlast
  | cons call calls ih =>
    have hcall := hcalls call List.mem_cons_self
    have hbefore := h.later (hnow call List.mem_cons_self)
    rw [List.map_cons, List.pairwise_append, List.pairwise_cons] at hclock
    have hlater : ∀ next ∈ calls, call.now ≤ next.now :=
      fun next hnext => hclock.2.1.1 _ (List.mem_map_of_mem hnext)
    have hrest : ∀ next ∈ calls, next.now ≤ now' := fun next hnext => hcalls next (List.mem_cons_of_mem _ hnext)
    cases call with
    | snapshot s =>
      refine ih (hbefore.snapshot hclock.1) ?_ hlater hcall hrest
      rw [List.pairwise_append]
      exact ⟨hclock.1, hclock.2.1.2, fun a ha b hb => hclock.2.2 a ha b (List.mem_cons_of_mem _ hb)⟩
    | frameCompleted c =>
      have hsorted : ((rest ++ [c]).map Completion.now).Pairwise (· ≤ ·) := by
        rw [List.map_append, List.pairwise_append]
        refine ⟨hclock.1, List.pairwise_singleton .., fun a ha b hb => ?_⟩
        rw [List.mem_singleton.1 hb]
        exact hclock.2.2 a ha c.now List.mem_cons_self
      have hnext := ih (hbefore.frameCompleted hsorted) ?_ hlater hcall hrest
      · rw [List.append_assoc] at hnext
        exact hnext
      · rw [List.map_append, List.append_assoc, List.pairwise_append]
        refine ⟨hclock.1, ?_, fun a ha b hb => hclock.2.2 a ha b hb⟩
        exact List.pairwise_cons.2 hclock.2.1

theorem rate_eq {recent : List Completion} (hclock : (recent.map Completion.now).Pairwise (· ≤ ·)) :
    rates now (recent.map Completion.entry) = (History.rate now recent recent.length,
      History.rate now recent (8 * (recent.map Completion.compressedBytes).sum) / 1000000) := by
  have hhead : (recent.map Completion.now).min? = (recent.map Completion.now).head? :=
    List.min?_eq_head? (hclock.imp (fun h => min_eq_left h))
  have hframes : ((recent.map Completion.entry).map FrameWindowEntry.frames).sum = recent.length := by
    rw [List.map_map]
    change (recent.map (fun _ => 1)).sum = recent.length
    rw [List.map_const', List.sum_replicate_nat, mul_one]
  have hbytes : (recent.map Completion.entry).map FrameWindowEntry.compressedBytes =
      recent.map Completion.compressedBytes := List.map_map ..
  rw [History.rate, History.rate, hhead]
  cases recent with
  | nil => simp [rates]
  | cons c rest =>
    change (_ / max (now - c.now) (1 / 10), _ * 8 / (max (now - c.now) (1 / 10) * 1000000)) = _
    rw [hframes, hbytes, mul_comm _ (8 : Rat), ← div_div]
    rfl

theorem figures_eq (h : Recorded windowSeconds maxLatencies done now m)
    (hclock : (done.map Completion.now).Pairwise (· ≤ ·)) :
    m.figures now = .ok (History.figures windowSeconds maxLatencies now done) := by
  have hrecent : ((History.recent windowSeconds now done).map Completion.now).Pairwise (· ≤ ·) :=
    hclock.sublist (List.Sublist.map _ List.filter_sublist)
  have hratio : (if 0 < m.totalCompressedBytes then (m.totalUncompressedBytes / m.totalCompressedBytes : Rat) else 1) =
      if (done.map Completion.compressedBytes).sum = 0 then (1 : Rat)
      else (done.map Completion.uncompressedBytes).sum / (done.map Completion.compressedBytes).sum := by
    rw [h.compressedBytes, h.uncompressedBytes]
    by_cases hzero : (done.map Completion.compressedBytes).sum = 0
    · rw [if_pos hzero, if_neg (by omega)]
    · rw [if_neg hzero, if_pos (Nat.pos_of_ne_zero hzero)]
  rw [figures_ok, h.window_eq hclock, rate_eq hrecent, h.renderLatencies, h.compressLatencies, hratio]
  rfl

end Recorded

/-- A snapshot at `now` says and keeps what the completions before it amount to. -/
structure RollingAt (windowSeconds : Rat) (maxLatencies : Nat) (done : List Completion) (now : Rat)
    (computed : Except PyExc Figures) (stats : ServerStats) (kept : ServerMetricsCollector) : Prop where
  window : kept.throughputWindow = (History.recent windowSeconds now done).map Completion.entry
  computed : computed = .ok (History.figures windowSeconds maxLatencies now done)
  fps : stats.fps = pyRound (History.figures windowSeconds maxLatencies now done).fps 2
  bandwidthMbps : stats.bandwidthMbps = pyRound (History.figures windowSeconds maxLatencies now done).bandwidthMbps 3
  avgRenderTimeMs : stats.avgRenderTimeMs = pyRound (History.figures windowSeconds maxLatencies now done).avgRenderMs 2
  avgCompressTimeMs :
    stats.avgCompressTimeMs = pyRound (History.figures windowSeconds maxLatencies now done).avgCompressMs 2
  compressionRatio :
    stats.compressionRatio = pyRound (History.figures windowSeconds maxLatencies now done).compressionRatio 2
  totalUncompressedBytes : stats.totalUncompressedBytes = (done.map Completion.uncompressedBytes).sum
  totalCompressedBytes : stats.totalCompressedBytes = (done.map Completion.compressedBytes).sum
  completedFrames : stats.completedFrames = done.length

theorem CollectorCall.completions_times {calls : List CollectorCall} {t : Rat} {after : List Rat}
    (hclock : (calls.map CollectorCall.now ++ t :: after).Pairwise (· ≤ ·)) :
    ((CollectorCall.completions calls).map Completion.now).Pairwise (· ≤ ·) := by
  have hsub : ((CollectorCall.completions calls).map Completion.now).Sublist (calls.map CollectorCall.now) := by
    clear hclock
    induction calls with
    | nil => exact List.Sublist.slnil
    | cons call calls ih =>
      cases call with
      | frameCompleted c => exact ih.cons_cons _
      | snapshot s => exact ih.cons _
  exact (List.pairwise_append.1 hclock).1.sublist hsub

/-- Every snapshot of every sequence of calls with a clock that never goes back. -/
theorem rolling_metrics {windowSeconds startTime : Rat} {maxLatencies : Nat} {calls before after : List CollectorCall}
    {s : SnapshotCall} (hcalls : calls = before ++ .snapshot s :: after)
    (hclock : (calls.map CollectorCall.now).Pairwise (· ≤ ·)) :
    let m := before.foldl CollectorCall.run (.new windowSeconds maxLatencies startTime)
    let taken := m.snapshot s.world s.activeScript s.outputs s.compressionMode s.inFlight s.now
    RollingAt windowSeconds maxLatencies (CollectorCall.completions before) s.now (m.figures s.now) taken.1 taken.2 := by
  intro m taken
  rw [hcalls, List.map_append, List.map_cons] at hclock
  have hdone := CollectorCall.completions_times hclock
  obtain ⟨hbefore, hrest, hcross⟩ := List.pairwise_append.1 hclock
  have hle : ∀ call ∈ before, call.now ≤ s.now :=
    fun call hcall => hcross _ (List.mem_map_of_mem hcall) _ List.mem_cons_self
  have hstart : ∃ t, (∀ call ∈ before, t ≤ call.now) ∧ t ≤ s.now := by
    cases before with
    | nil => exact ⟨s.now, fun _ h => absurd h List.not_mem_nil, le_refl _⟩
    | cons call rest =>
      rw [List.map_cons, List.pairwise_cons] at hbefore
      refine ⟨call.now, fun next hnext => ?_, hle call List.mem_cons_self⟩
      rcases List.mem_cons.1 hnext with rfl | hnext
      · exact le_refl _
      · exact hbefore.1 _ (List.mem_map_of_mem hnext)
  obtain ⟨t, hfirst, hlast⟩ := hstart
  have hrecorded : Recorded windowSeconds maxLatencies (CollectorCall.completions before) s.now m :=
    (Recorded.new windowSeconds maxLatencies startTime t).foldl hbefore hfirst hlast hle
  have hfigures := hrecorded.figures_eq hdone
  have hok := figures_ok s.now m
  rw [hfigures] at hok
  have heq := Except.ok.inj hok
  exact {
    window := hrecorded.window_eq hdone
    computed := hfigures
    fps := by rw [heq]; rfl
    bandwidthMbps := by rw [heq]; rfl
    avgRenderTimeMs := by rw [heq]; rfl
    avgCompressTimeMs := by rw [heq]; rfl
    compressionRatio := by rw [heq]; rfl
    totalUncompressedBytes := by rw [← hrecorded.uncompressedBytes]; rfl
    totalCompressedBytes := by rw [← hrecorded.compressedBytes]; rfl
    completedFrames := by rw [← hrecorded.completed]; rfl }

def frameAt (now : Rat) : Completion := ⟨6, 3, 10, 1, now⟩

def snapshotAt (now : Rat) : SnapshotCall := ⟨⟨"R70", 8, 0, 1024, none, none⟩, none, [], .zstd, 0, now⟩

def twoFrames : List CollectorCall := [.frameCompleted (frameAt 0), .frameCompleted (frameAt 3)]

/-- A frame 4 seconds ago and one a second ago, with a window of 2 seconds. -/
theorem rolling_metrics_twoFrames :
    let m := twoFrames.foldl CollectorCall.run (.new 2 1 0)
    let taken := m.snapshot (snapshotAt 4).world none [] .zstd 0 4
    RollingAt 2 1 [frameAt 0, frameAt 3] 4 (m.figures 4) taken.1 taken.2 ∧
      History.figures 2 1 4 [frameAt 0, frameAt 3] = ⟨1, 24 / 1000000, 10, 1, 2⟩ := by
  have hclock : ((twoFrames ++ [CollectorCall.snapshot (snapshotAt 4)]).map CollectorCall.now).Pairwise (· ≤ ·) := by decide +kernel
  exact ⟨@rolling_metrics 2 0 1 _ twoFrames [] (snapshotAt 4) rfl hclock, by decide +kernel⟩

end VsRemote
