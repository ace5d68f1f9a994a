import VsRemote.FetchFrame
import VsRemote.Pipe

/-! What `pipe` has written when it ends, and when that is a stream of whole
frames. -/

namespace VsRemote

namespace PipeState

variable {z : Zstd} {c : PipeCall} {s s' : PipeState}

def okReplies (s : PipeState) : List (FrameHeader × List Bytes) := s.results.filterMap okReply

/-- What is written for a reply with status `OK`. -/
def replyWrites (z : Zstd) (c : PipeCall) (reply : FrameHeader × List Bytes) : FrameWrites :=
  ⟨c.y4m, decompressedPlanes z reply.1.compression reply.2⟩

/-- All replies read so far are written. -/
def Caught (z : Zstd) (c : PipeCall) (s : PipeState) : Prop :=
  s.frames = s.okReplies.map (replyWrites z c) ∧ s.current = {}

/-- The last reply is still being written, and `rest` is what is left of it. -/
def Writing (z : Zstd) (c : PipeCall) (s : PipeState) (header : FrameHeader) (rest : List Bytes) : Prop :=
  ∃ before parts, s.okReplies = before ++ [(header, parts)] ∧ s.frames = before.map (replyWrites z c) ∧
    s.current.marker = c.y4m ∧
    decompressedPlanes z header.compression parts = s.current.planes ++ decompressedPlanes z header.compression rest

/-- The writes are those of the replies read, the last one perhaps unfinished. -/
def Written (z : Zstd) (c : PipeCall) (s : PipeState) : Prop :=
  match s.phase with
  | .planes header rest => s.Writing z c header rest
  | .raised _ => s.Caught z c ∨
      ∃ before last, s.okReplies = before ++ [last] ∧ s.frames = before.map (replyWrites z c) ∧
        s.current = replyWrites z c last
  | _ => s.Caught z c

/-- In Y4M mode the header is written before anything is asked for. -/
structure HeaderFirst (c : PipeCall) (s : PipeState) : Prop where
  first : s.header = none → c.y4m = true → s.results = [] ∧ (s.phase = .header ∨ ∃ e, s.phase = .raised e)
  fits : ∀ header, s.header = some header → c.y4m = true ∧ getY4mHeader c.info = .ok header

theorem okReplies_append {result : FrameResult} (hresults : s'.results = s.results ++ [result]) :
    s'.okReplies = s.okReplies ++ (okReply result).toList := by
  rw [okReplies, okReplies, hresults, List.filterMap_append, List.filterMap_cons, List.filterMap_nil]
  cases okReply result <;> rfl

theorem Caught.resultRaises {result : FrameResult} (h : s.Caught z c) (hresults : s'.results = s.results ++ [result])
    (hframes : s'.frames = s.frames) (hcurrent : s'.current = s.current) (hbad : okReply result = none) :
    s'.Caught z c := by
  have hsame : s'.okReplies = s.okReplies := by
    rw [okReplies_append hresults, hbad, Option.toList_none, List.append_nil]
  exact ⟨by rw [hframes, hsame, h.1], hcurrent.trans h.2⟩

theorem Caught.result {header : FrameHeader} {parts : List Bytes} (h : s.Caught z c)
    (hresults : s'.results = s.results ++ [.ok (header, parts)]) (hframes : s'.frames = s.frames)
    (hcurrent : s'.current = { marker := c.y4m }) (hok : header.status = .ok) : s'.Writing z c header parts := by
  have hadded : s'.okReplies = s.okReplies ++ [(header, parts)] := by
    rw [okReplies_append hresults, okReply, if_pos hok, Option.toList_some]
  exact ⟨s.okReplies, parts, hadded, hframes.trans h.1, by rw [hcurrent], by rw [hcurrent, List.nil_append]⟩

theorem Writing.frameDone {header : FrameHeader} (h : s.Writing z c header []) :
    Caught z c { s with frames := s.frames ++ [s.current], current := {}, n := s.n + 1, phase := .loop } := by
  obtain ⟨before, parts, hreplies, hframes, hmarker, hplanes⟩ := h
  have hcurrent : s.current = replyWrites z c (header, parts) := by
    rw [decompressedPlanes, List.append_nil] at hplanes
    rw [replyWrites, ← hmarker, hplanes]
  refine ⟨?_, rfl⟩
  show s.frames ++ [s.current] = s.okReplies.map (replyWrites z c)
  rw [hreplies, hframes, hcurrent, List.map_append]
  rfl

theorem Writing.planeRaises {header : FrameHeader} {part : Bytes} {parts : List Bytes} {e : PyExc}
    (h : s.Writing z c header (part :: parts)) (he : decompressPlane z part header.compression = .error e) :
    ∃ before last, s.okReplies = before ++ [last] ∧ s.frames = before.map (replyWrites z c) ∧
      s.current = replyWrites z c last := by
  obtain ⟨before, all, hreplies, hframes, hmarker, hplanes⟩ := h
  rw [decompressedPlanes, he, List.append_nil] at hplanes
  refine ⟨before, (header, all), hreplies, hframes, ?_⟩
  rw [replyWrites, ← hmarker, hplanes]

theorem Writing.plane {header : FrameHeader} {part decompressed : Bytes} {parts : List Bytes}
    (h : s.Writing z c header (part :: parts)) (hpart : decompressPlane z part header.compression = .ok decompressed) :
    Writing z c { s with
      current := { s.current with planes := s.current.planes ++ [decompressed] }
      phase := .planes header parts } header parts := by
  obtain ⟨before, all, hreplies, hframes, hmarker, hplanes⟩ := h
  rw [decompressedPlanes, hpart] at hplanes
  refine ⟨before, all, hreplies, hframes, hmarker, ?_⟩
  rw [hplanes]
  exact List.append_cons ..

theorem Written.step {l : PipeLabel} (h : s.Written z c) (hs : step z c l s = some s') : s'.Written z c := by
  have hto : PipeTo z c s l s' := step_to hs
  unfold Written at h
  cases hto with
  | headerRaises hphase => exact .inl (by rwa [hphase] at h)
  | header hphase | noHeader hphase | toFill hphase | toPop hphase | returned hphase | fillDone hphase
    | fillRequest hphase | popped hphase | popMissed hphase =>
    rw [hphase] at h
    exact h
  | resultRaises hphase _ hbad =>
    rw [hphase] at h
    exact .inl (h.resultRaises rfl rfl rfl hbad)
  | result hphase _ hok =>
    rw [hphase] at h
    exact h.result rfl rfl rfl hok
  | frameDone hphase =>
    rw [hphase] at h
    exact h.frameDone
  | planeRaises hphase he =>
    rw [hphase] at h
    exact .inr (h.planeRaises he)
  | plane hphase hpart =>
    rw [hphase] at h
    exact h.plane hpart
  | reply => exact h
  | timeout hphase => exact .inl (by rwa [hphase] at h)

theorem HeaderFirst.step {l : PipeLabel} (h : s.HeaderFirst c) (hs : step z c l s = some s') : s'.HeaderFirst c := by
  have hto : PipeTo z c s l s' := step_to hs
  cases hto with
  | headerRaises hphase hy4m => exact ⟨fun hnone _ => ⟨(h.first hnone hy4m).1, .inr ⟨_, rfl⟩⟩, h.fits⟩
  | header hphase hy4m hnew => exact ⟨nofun, fun header hheader => Option.some.inj hheader ▸ ⟨hy4m, hnew⟩⟩
  | noHeader hphase hraw => exact ⟨fun _ hy4m => absurd (hraw.symm.trans hy4m) Bool.false_ne_true, h.fits⟩
  | reply => exact ⟨h.first, h.fits⟩
  | toFill hphase | toPop hphase | returned hphase | fillDone hphase | fillRequest hphase | popped hphase
    | popMissed hphase | resultRaises hphase | result hphase | frameDone hphase | planeRaises hphase | plane hphase
    | timeout hphase =>
    exact ⟨fun hnone hy4m => absurd (h.first hnone hy4m).2 (by simp [hphase]), h.fits⟩

/-- What a run has written, as soon as it has ended: the writes of the replies
it has read, and nothing of the frame after them. -/
theorem Written.ended (h : s.Written z c) (hended : s.ended = true) :
    s.frames ++ [s.current] = s.okReplies.map (replyWrites z c) ∨
      s.frames ++ [s.current] = s.okReplies.map (replyWrites z c) ++ [({} : FrameWrites)] := by
  have hcaught : s.Caught z c → s.frames ++ [s.current] = s.okReplies.map (replyWrites z c) ++ [({} : FrameWrites)] :=
    fun h => by rw [h.1, h.2]
  unfold Written at h
  unfold PipeState.ended at hended
  cases hphase : s.phase with
  | returned =>
    rw [hphase] at h
    exact .inr (hcaught h)
  | raised e =>
    rw [hphase] at h
    obtain h | ⟨before, last, hreplies, hframes, hcurrent⟩ := h
    · exact .inr (hcaught h)
    · exact .inl (by rw [hframes, hcurrent, hreplies, List.map_append, List.map_singleton])
  | _ => rw [hphase] at hended; cases hended

/-- One frame as the clip info announces it: the marker in Y4M mode, then every
plane with its size. -/
def WholeFrame (c : PipeCall) (w : FrameWrites) : Prop :=
  w.marker = c.y4m ∧ w.planes.map (fun plane => (plane.length : Int)) = c.info.planes.map PlaneInfo.sizeBytes

/-- The stream is the header, if it is to have one, and then whole frames. -/
def StreamWellFormed (c : PipeCall) (s : PipeState) : Prop :=
  (match s.header with
    | none => c.y4m = true → s.stdout = []
    | some header => c.y4m = true ∧ getY4mHeader c.info = .ok header) ∧
  ∀ w ∈ s.frames ++ [s.current], w.bytes = [] ∨ WholeFrame c w

/-- The parts of the reply, up to the first that does not decompress, are the
announced planes, or nothing at all where there is no marker either. -/
def Fits (z : Zstd) (c : PipeCall) (reply : FrameHeader × List Bytes) : Prop :=
  (decompressedPlanes z reply.1.compression reply.2).map (fun plane => (plane.length : Int)) =
      c.info.planes.map PlaneInfo.sizeBytes ∨
    c.y4m = false ∧ (decompressedPlanes z reply.1.compression reply.2).flatten = []

theorem replyWrites_whole_iff {reply : FrameHeader × List Bytes} :
    ((replyWrites z c reply).bytes = [] ∨ WholeFrame c (replyWrites z c reply)) ↔ Fits z c reply := by
  have hwhole : WholeFrame c (replyWrites z c reply) ↔
      (decompressedPlanes z reply.1.compression reply.2).map (fun plane => (plane.length : Int)) =
        c.info.planes.map PlaneInfo.sizeBytes := and_iff_right rfl
  have hbytes : (replyWrites z c reply).bytes = [] ↔
      c.y4m = false ∧ (decompressedPlanes z reply.1.compression reply.2).flatten = [] := by
    have hmarker : frameMarker ≠ [] := by decide
    rw [FrameWrites.bytes, List.append_eq_nil_iff]
    refine and_congr_left (fun _ => ?_)
    show (if c.y4m = true then frameMarker else []) = [] ↔ c.y4m = false
    by_cases hy4m : c.y4m = true
    · simp [hy4m, hmarker]
    · simp [hy4m]
  rw [hwhole, hbytes]
  exact or_comm

/-- A pipe that has ended has written a well formed stream exactly when every
reply it has read fits. -/
theorem stream_wellFormed_iff {ls : List PipeLabel} (hr : Runs.run (step z c) ls {} = some s)
    (hended : s.ended = true) : StreamWellFormed c s ↔ ∀ reply ∈ s.okReplies, Fits z c reply := by
  have hstart : Written z c {} := ⟨rfl, rfl⟩
  have hbefore : HeaderFirst c {} := ⟨fun _ _ => ⟨rfl, .inl rfl⟩, fun _ h => by cases h⟩
  have hwritten : s.Written z c := Runs.run_inv (fun _ _ _ h hs => h.step hs) hstart hr
  have hfirst : s.HeaderFirst c := Runs.run_inv (fun _ _ _ h hs => h.step hs) hbefore hr
  have hframes := hwritten.ended hended
  have hwrites : (∀ w ∈ s.frames ++ [s.current], w.bytes = [] ∨ WholeFrame c w) ↔
      ∀ reply ∈ s.okReplies, Fits z c reply := by
    simp only [← replyWrites_whole_iff]
    obtain hframes | hframes := hframes
    · rw [hframes, List.forall_mem_map]
    · rw [hframes, List.forall_mem_append, List.forall_mem_map]
      exact and_iff_left (fun w hw => .inl (List.mem_singleton.1 hw ▸ rfl))
  refine Iff.trans (and_iff_right ?_) hwrites
  cases hheader : s.header with
  | some header => exact hfirst.fits header hheader
  | none =>
    intro hy4m
    have hnone : s.okReplies = [] := by rw [okReplies, (hfirst.first hheader hy4m).1, List.filterMap_nil]
    rw [hnone] at hframes
    obtain hframes | hframes := hframes
    · exact absurd hframes (by simp)
    · rw [stdout, hheader, hframes]
      rfl

theorem WholeFrame.length_flatten {w : FrameWrites} (h : WholeFrame c w) :
    (w.planes.flatten.length : Int) = (c.info.planes.map PlaneInfo.sizeBytes).sum := by
  rw [← h.2, List.length_flatten]
  induction w.planes with
  | nil => rfl
  | cons plane planes ih => simp [ih]

/-- In bytes: the header and then whole frames. -/
theorem StreamWellFormed.stdout_eq (h : StreamWellFormed c s) :
    ∃ frames : List FrameWrites, (∀ w ∈ frames, WholeFrame c w) ∧
      s.stdout = s.header.getD [] ++ frames.flatMap FrameWrites.bytes := by
  refine ⟨(s.frames ++ [s.current]).filter (fun w => !w.bytes.isEmpty), fun w hw => ?_, ?_⟩
  · obtain ⟨hmem, hbytes⟩ := List.mem_filter.1 hw
    refine (h.2 w hmem).resolve_left (fun hnil => ?_)
    rw [hnil] at hbytes
    cases hbytes
  · have hfilter := List.flatten_filter_not_isEmpty (L := (s.frames ++ [s.current]).map FrameWrites.bytes)
    rw [List.filter_map] at hfilter
    rw [stdout, List.flatMap_def, ← hfilter]
    rfl

/-- The clip is announced with 2x2 pixels, and a reload makes it one pixel
before its only frame is asked for. -/
def reloadedPipe : List PipeLabel :=
  [.pipe, .pipe, .pipe, .reply 0 (.ok (onePixelHeader, [[7]])), .pipe, .pipe, .pipe, .pipe]

def rawPipe : PipeCall := { info := grayInfo, prefetch := 0, compression := .none }

theorem stream_wellFormed_iff_reloaded :
    ∃ s, Runs.run (step ⟨id, .ok⟩ rawPipe) reloadedPipe {} = some s ∧ s.ended = true ∧
      (StreamWellFormed rawPipe s ↔ Fits ⟨id, .ok⟩ rawPipe (onePixelHeader, [[7]])) := by
  refine ⟨_, rfl, rfl, ?_⟩
  exact (stream_wellFormed_iff (show Runs.run (step ⟨id, .ok⟩ rawPipe) reloadedPipe {} = some _ from rfl) rfl).trans
    List.forall_mem_singleton

theorem reloaded_clip_malforms_stream :
    ClipInfo.fromClip (.gray8 1 2 2) "Output 0" = .ok grayInfo ∧
    extractAndCompressPlanes ⟨id, .ok⟩ onePixel .none 1 = .ok ([[7]], 1) ∧
    ¬ ∀ s, Runs.run (step ⟨id, .ok⟩ rawPipe) reloadedPipe {} = some s → s.ended = true → StreamWellFormed rawPipe s := by
  refine ⟨rfl, rfl, fun hall => ?_⟩
  have hframe := (hall _ rfl rfl).2 ⟨false, [[7]]⟩ (by decide)
  obtain hnil | ⟨_, hsizes⟩ := hframe
  · exact absurd hnil (by decide)
  · exact absurd hsizes (by decide)

end PipeState

end VsRemote
