import VsRemote.PipeStream
import VsRemote.PipeWindow
import VsRemote.Y4mHeader

/-! What a player shows of the stream that `pipe` writes, at every moment of the run. -/

namespace VsRemote

namespace PlaneView

variable {v : PlaneView}

/-- The bytes of a plane that lies in one piece are its rows. -/
theorem castB_eq_tobytes (hc : v.cContiguous = true) : v.castB = v.tobytes := by
  apply List.ext_getElem
  · rw [length_castB, length_tobytes]
  · intro i hi hi'
    rw [length_castB] at hi
    have hrow : 0 < v.rowSize := by
      by_contra hzero
      rw [nbytes, Nat.eq_zero_of_not_pos hzero, Nat.mul_zero] at hi
      exact Nat.not_lt_zero _ hi
    have hy : i / v.rowSize < v.height := by
      rw [Nat.div_lt_iff_lt_mul hrow]
      exact hi
    have hx : i % v.rowSize < v.rowSize := Nat.mod_lt _ hrow
    have hcast := castB_getD hc hy hx
    have hbytes := tobytes_getD hy hx
    rw [Nat.div_add_mod' i v.rowSize] at hcast hbytes
    rw [List.getElem_eq_getD 0, List.getElem_eq_getD 0, hcast, hbytes]

theorem raw_eq_tobytes (v : PlaneView) : v.raw = v.tobytes := by
  unfold raw
  split
  · next hc => exact castB_eq_tobytes hc
  · rfl

end PlaneView

/-- The rows of each plane, one after the other. -/
def VideoFrame.pixels (frame : VideoFrame) : List Bytes := (frame.planes.take frame.numPlanes).map PlaneView.tobytes

section

variable {z : Zstd} {clip : VideoNode} {name : String} {info : ClipInfo} {frame : VideoFrame} {parts : List Bytes}
  {total : Nat} {mode : Compression}

theorem decompressedPlanes_map (hz : ∀ b, z.decompress (z.compress b) = .ok b) (views : List PlaneView) :
    decompressedPlanes z mode (views.map (extractPlane z mode)) = views.map PlaneView.tobytes := by
  induction views with
  | nil => rfl
  | cons v views ih =>
    simp only [List.map_cons, decompressedPlanes, decompress_extractPlane hz, PlaneView.raw_eq_tobytes, ih]

theorem extractAndCompressPlanes_eq (hpresent : ∀ p < frame.numPlanes, p < frame.planes.length) (n : Nat)
    (hn : n ≤ frame.numPlanes) :
    ∃ total, extractAndCompressPlanes z frame mode n = .ok ((frame.planes.take n).map (extractPlane z mode), total) := by
  induction n with
  | zero => exact ⟨0, rfl⟩
  | succ n ih =>
    obtain ⟨total, hex⟩ := ih (Nat.le_of_succ_le hn)
    have hlt := hpresent n hn
    refine ⟨total + frame.planes[n].nbytes, ?_⟩
    rw [List.take_succ_eq_append_getElem hlt, List.map_append]
    simp only [extractAndCompressPlanes, hex, List.getElem?_eq_getElem hlt, bind, Except.bind, pure, Except.pure]
    rfl

/-- The planes of a frame come out of its parts. -/
theorem decompressedPlanes_extracted (hz : ∀ b, z.decompress (z.compress b) = .ok b) (hrenders : frame.Renders clip)
    (hparts : extractAndCompressPlanes z frame mode frame.numPlanes = .ok (parts, total)) :
    decompressedPlanes z mode parts = frame.pixels := by
  obtain ⟨total', hex⟩ : ∃ total, extractAndCompressPlanes z frame mode frame.numPlanes =
      .ok ((frame.planes.take frame.numPlanes).map (extractPlane z mode), total) :=
    extractAndCompressPlanes_eq hrenders.present frame.numPlanes le_rfl
  obtain ⟨rfl, -⟩ := Prod.mk.inj (Except.ok.inj (hparts.symm.trans hex))
  exact decompressedPlanes_map hz _

theorem subsampled_of_dvd {n log : Nat} (hdvd : 2 ^ log ∣ n) : Y4m.Header.subsampled n log = n >>> log := by
  have hpos : 0 < 2 ^ log := Nat.two_pow_pos log
  obtain ⟨k, rfl⟩ := hdvd
  rw [Y4m.Header.subsampled, Nat.shiftRight_eq_div_pow, Nat.mul_div_cancel_left _ hpos, Nat.mul_add_div hpos,
    Nat.div_eq_of_lt (by omega), Nat.add_zero]

theorem pixels_lengths (hrenders : frame.Renders clip) : frame.pixels.map List.length =
    (List.range clip.format.numPlanes).map
      (fun p => (planeDims clip p).1 * (planeDims clip p).2 * clip.format.bytesPerSample) := by
  have hle : frame.numPlanes ≤ frame.planes.length := by
    by_contra hlt
    exact Nat.lt_irrefl _ (hrenders.present frame.planes.length (by omega))
  apply List.ext_getElem
  · rw [VideoFrame.pixels, List.length_map, List.length_map, List.length_take, List.length_map, List.length_range,
      ← hrenders.numPlanes]
    omega
  · intro p hp hp'
    rw [List.length_map, VideoFrame.pixels, List.length_map, List.length_take] at hp
    have hlt : p < frame.planes.length := by omega
    have hdims := hrenders.dims p _ (List.getElem?_eq_getElem hlt)
    have hitem := hrenders.itemsize p _ (List.getElem?_eq_getElem hlt)
    simp only [VideoFrame.pixels, List.getElem_map, List.getElem_take, List.getElem_range, PlaneView.length_tobytes]
    rw [← hdims, ← hitem, PlaneView.nbytes, PlaneView.rowSize]
    exact (Nat.mul_left_comm _ _ _).trans (Nat.mul_assoc _ _ _).symm

theorem y4mFormat_planes {format : String} (hformat : y4mFormat info = .ok format) :
    info.numPlanes = 1 ∨ info.numPlanes = 3 := by
  unfold y4mFormat at hformat
  split at hformat
  · next hone => exact .inl hone
  · split at hformat
    · next hthree => exact .inr hthree
    · cases hformat

/-- The planes of a frame have the sizes that the header announces. -/
theorem pixels_planeSizes {bytes : Bytes} (hinfo : ClipInfo.fromClip clip name = .ok info) (hclip : clip.Constant)
    (hheader : getY4mHeader info = .ok bytes) (hrenders : frame.Renders clip) :
    frame.pixels.map List.length = clip.y4mHeader.planeSizes := by
  obtain ⟨hbits, format, hformat, -⟩ := getY4mHeader_ok hheader
  obtain ⟨-, -, -, -, -, hdepth, -⟩ := fromClip_info hinfo
  have hplanes := y4mFormat_planes hformat
  rw [(fromClip_planes hinfo).1] at hplanes
  have hbytes : clip.format.bytesPerSample = clip.y4mHeader.sampleBytes := by
    apply hclip.bytes
    rw [hdepth] at hbits
    simp only [List.mem_cons, List.not_mem_nil, or_false] at hbits
    omega
  rw [pixels_lengths hrenders, hbytes, Y4m.Header.planeSizes]
  rcases hplanes with hone | hthree
  · have hnum : clip.format.numPlanes = 1 := by omega
    simp only [VideoNode.y4mHeader, VideoFormat.colorspace, hnum, if_true]
    rfl
  · have hnum : clip.format.numPlanes = 3 := by omega
    have hcolor : clip.y4mHeader.colorspace.chroma = some (clip.format.subsamplingW, clip.format.subsamplingH) := by
      simp only [VideoNode.y4mHeader, VideoFormat.colorspace, hnum]
      rfl
    rw [hcolor, hnum]
    simp only [VideoNode.y4mHeader, subsampled_of_dvd hclip.evenWidth, subsampled_of_dvd hclip.evenHeight]
    rfl

end

namespace PipeState

variable {z : Zstd} {c : PipeCall} {s s' : PipeState} {l : PipeLabel} {render : Int → VideoFrame}

/-- The reply has the planes of the frame. -/
def Carries (z : Zstd) (frame : VideoFrame) (reply : FrameHeader × List Bytes) : Prop :=
  ∃ total, extractAndCompressPlanes z frame reply.1.compression frame.numPlanes = .ok (reply.2, total)

/-- A reply with status `OK` has the planes of the frame that was asked for. -/
def Genuine (z : Zstd) (render : Int → VideoFrame) (s : PipeState) : PipeLabel → Prop
  | .reply fut result => ∀ f ∈ s.futures[fut]?, ∀ reply ∈ okReply result, Carries z (render f.request.n) reply
  | _ => True

/-- The replies read are those of the frames, in order. -/
structure Shown (z : Zstd) (render : Int → VideoFrame) (s : PipeState) : Prop where
  answered : ∀ f ∈ s.futures, ∀ result ∈ f.result, ∀ reply ∈ okReply result, Carries z (render f.request.n) reply
  read : ∀ (k : Nat) (reply : FrameHeader × List Bytes), s.okReplies[k]? = some reply → Carries z (render k) reply
  counted : s.frames.length = s.n

theorem Shown.request {n : Nat} (h : s.Shown z render) :
    ∀ f ∈ (s.requestFrame c n).futures, ∀ result ∈ f.result, ∀ reply ∈ okReply result,
      Carries z (render f.request.n) reply := by
  intro f hf
  rcases List.mem_append.1 hf with hold | hnew
  · exact h.answered f hold
  · intro result hresult
    rw [List.mem_singleton.1 hnew] at hresult
    cases hresult

/-- The reply that is read is the one for the frame that is next. -/
theorem Shown.result {fut : Nat} {header : FrameHeader} {parts : List Bytes} (h : s.Shown z render)
    (hwritten : s.Written z c) (hblock : s.InBlock c) (hphase : s.phase = .wait fut)
    (hresult : (s.futures[fut]?).bind PipeFuture.result = some (.ok (header, parts))) (hok : header.status = .ok) :
    s.okReplies.length = s.n ∧ Carries z (render s.n) (header, parts) := by
  rw [InBlock, hphase] at hblock
  obtain ⟨hblock, -, -, rfl⟩ := hblock
  rw [Written, hphase] at hwritten
  obtain ⟨f, hf, hfresult⟩ := Option.bind_eq_some_iff.1 hresult
  constructor
  · rw [← h.counted, hwritten.1, List.length_map]
  · have hrequest : f.request = c.frameRequest s.n := by
      have hmap := congrArg (fun requests => requests[s.n]?) hblock.requested
      simp only [List.getElem?_map, hf, List.getElem?_range (Lookup.lt_length hf), Option.map_some] at hmap
      exact Option.some.inj hmap
    have hcarries := h.answered f (List.mem_of_getElem? hf) _ hfresult (header, parts) (by rw [okReply, if_pos hok]; rfl)
    rw [hrequest] at hcarries
    exact hcarries

theorem Shown.step (h : s.Shown z render) (hwritten : s.Written z c) (hblock : s.InBlock c) (hc : s.Genuine z render l)
    (hs : step z c l s = some s') : s'.Shown z render := by
  have hto : PipeTo z c s l s' := step_to hs
  cases hto with
  | fillRequest => exact ⟨h.request, h.read, h.counted⟩
  | popMissed => exact ⟨h.request, h.read, h.counted⟩
  | @resultRaises fut result e hphase hresult hbad =>
    refine ⟨h.answered, fun k reply hk => h.read k reply ?_, h.counted⟩
    rw [okReplies_append rfl, hbad, Option.toList_none, List.append_nil] at hk
    exact hk
  | @result fut header parts hphase hresult hok =>
    obtain ⟨hlen, hcarries⟩ := h.result hwritten hblock hphase hresult hok
    refine ⟨h.answered, fun k reply hk => ?_, h.counted⟩
    rw [okReplies, List.filterMap_append, List.filterMap_cons, okReply, if_pos hok] at hk
    rcases Lookup.of_append hk with hold | ⟨hnew, rfl⟩
    · exact h.read k reply hold
    · rw [hnew]
      exact hlen.symm ▸ hcarries
  | frameDone => exact ⟨h.answered, h.read, by rw [List.length_append, h.counted]; rfl⟩
  | @reply fut request result hfut =>
    refine ⟨fun f hf => ?_, h.read, h.counted⟩
    obtain ⟨i, hi⟩ := List.getElem?_of_mem hf
    obtain ⟨f', hf', ⟨rfl, rfl⟩ | ⟨-, rfl⟩⟩ := Lookup.of_modify hi
    · intro result' hresult'
      obtain rfl := Option.some.inj hresult'
      exact hc f' hf'
    · exact h.answered _ (List.mem_of_getElem? hf')
  | _ => exact ⟨h.answered, h.read, h.counted⟩

/-- The frames written are those of the first replies; of the last reply perhaps only some
planes are written, but all of them when the pipe has ended. -/
theorem Written.view (h : s.Written z c) : ∃ before, s.frames = before.map (replyWrites z c) ∧
    ((s.okReplies = before ∧ s.current = {}) ∨ ∃ last more, s.okReplies = before ++ [last] ∧ s.current.marker = c.y4m ∧
      decompressedPlanes z last.1.compression last.2 = s.current.planes ++ more ∧ (s.ended = true → more = [])) := by
  unfold Written at h
  cases hphase : s.phase with
  | planes header rest =>
    rw [hphase] at h
    obtain ⟨before, parts, hreplies, hframes, hmarker, hplanes⟩ := h
    refine ⟨before, hframes, .inr ⟨(header, parts), _, hreplies, hmarker, hplanes, fun hended => ?_⟩⟩
    rw [PipeState.ended, hphase] at hended
    cases hended
  | raised e =>
    rw [hphase] at h
    rcases h with h | ⟨before, last, hreplies, hframes, hcurrent⟩
    · exact ⟨s.okReplies, h.1, .inl ⟨rfl, h.2⟩⟩
    · refine ⟨before, hframes, .inr ⟨last, [], hreplies, by rw [hcurrent]; rfl, ?_, fun _ => rfl⟩⟩
      rw [hcurrent, List.append_nil]
      rfl
  | _ =>
    rw [hphase] at h
    exact ⟨s.okReplies, h.1, .inl ⟨rfl, h.2⟩⟩

variable {clip : VideoNode} {name : String} {stream : Y4m.Stream}

/-- The player shows the clip: its first frames pixel by pixel, those that are written and
perhaps the one that is being written. -/
structure Shows (clip : VideoNode) (render : Int → VideoFrame) (s : PipeState) (stream : Y4m.Stream) : Prop where
  header : stream.header = clip.y4mHeader
  frames : stream.frames = (List.range stream.frames.length).map (fun n : Nat => (render n).pixels)
  written : s.frames.length ≤ stream.frames.length ∧ stream.frames.length ≤ s.frames.length + 1
  ended : s.ended = true → stream.rest = []
  all : s.phase = .returned → stream.frames.length = clip.numFrames

theorem planeSizes_pos (hclip : clip.Constant) : ∀ size ∈ clip.y4mHeader.planeSizes, 0 < size := by
  have hsample : 0 < clip.y4mHeader.sampleBytes := by
    unfold Y4m.Header.sampleBytes
    split <;> decide
  have hluma : 0 < clip.width * clip.height * clip.y4mHeader.sampleBytes :=
    Nat.mul_pos (Nat.mul_pos hclip.width hclip.height) hsample
  have hchroma : ∀ {n log : Nat}, 0 < n → 2 ^ log ∣ n → 0 < Y4m.Header.subsampled n log := by
    intro n log hn hdvd
    rw [subsampled_of_dvd hdvd, Nat.shiftRight_eq_div_pow]
    exact Nat.div_pos (Nat.le_of_dvd hn hdvd) (Nat.two_pow_pos log)
  intro size hmem
  unfold Y4m.Header.planeSizes at hmem
  split at hmem
  · obtain rfl := List.mem_singleton.1 hmem
    exact hluma
  · next logW logH hsub =>
    have hlogs : (clip.format.subsamplingW, clip.format.subsamplingH) = (logW, logH) := by
      simp only [VideoNode.y4mHeader, VideoFormat.colorspace] at hsub
      split at hsub
      · cases hsub
      · exact Option.some.inj hsub
    obtain ⟨rfl, rfl⟩ := Prod.mk.inj hlogs
    simp only [List.mem_cons, List.not_mem_nil, or_false, or_self] at hmem
    rcases hmem with rfl | rfl
    · exact hluma
    · exact Nat.mul_pos (Nat.mul_pos (hchroma hclip.width hclip.evenWidth) (hchroma hclip.height hclip.evenHeight)) hsample

theorem bytes_eq_frameBytes {w : FrameWrites} (hmarker : w.marker = true) : w.bytes = Y4m.frameBytes w.planes := by
  rw [FrameWrites.bytes, hmarker]
  rfl

/-- A frame of which planes are missing is not read as a frame. -/
theorem readFrame_partial {planes more : List Bytes} (hmore : more ≠ [])
    (hpos : ∀ size ∈ (planes ++ more).map List.length, 0 < size) :
    Y4m.readFrame ((planes ++ more).map List.length) (Y4m.frameBytes planes) = none := by
  apply Y4m.readFrame_short
  rw [Y4m.frameLength_map, List.flatten_append, List.length_append]
  obtain ⟨plane, others, rfl⟩ := List.exists_cons_of_ne_nil hmore
  have hplane : 0 < plane.length := hpos _ (by simp)
  rw [List.flatten_cons, List.length_append]
  omega

theorem Shown.frames_eq (h : s.Shown z render) (hz : ∀ b, z.decompress (z.compress b) = .ok b)
    (hrenders : ∀ n, (render n).Renders clip) {before : List (FrameHeader × List Bytes)}
    (hbefore : before <+: s.okReplies) : before.map (fun reply => decompressedPlanes z reply.1.compression reply.2) =
      (List.range before.length).map (fun n : Nat => (render n).pixels) := by
  apply List.ext_getElem
  · simp
  · intro k hk hk'
    rw [List.length_map] at hk
    rw [List.getElem_map, List.getElem_map, List.getElem_range]
    obtain ⟨more, hmore⟩ := hbefore
    have hreply : s.okReplies[k]? = some before[k] := by
      rw [← hmore, List.getElem?_append_left hk, List.getElem?_eq_getElem hk]
    obtain ⟨total, hparts⟩ := h.read k before[k] hreply
    exact decompressedPlanes_extracted hz (hrenders k) hparts

/-- What is written after the header. -/
theorem flatMap_bytes (hy4m : c.y4m = true) (before : List (FrameHeader × List Bytes)) :
    (before.map (replyWrites z c)).flatMap FrameWrites.bytes =
      (before.map (fun reply => decompressedPlanes z reply.1.compression reply.2)).flatMap Y4m.frameBytes := by
  rw [List.flatMap_map, List.flatMap_map]
  congr 1
  funext reply
  exact bytes_eq_frameBytes hy4m

structure Playing (z : Zstd) (c : PipeCall) (render : Int → VideoFrame) (s : PipeState) : Prop where
  written : s.Written z c
  headerFirst : s.HeaderFirst c
  inBlock : s.InBlock c
  shown : s.Shown z render

theorem Playing.step (h : s.Playing z c render) (hc : s.Genuine z render l) (hs : PipeState.step z c l s = some s') :
    s'.Playing z c render :=
  ⟨h.written.step hs, h.headerFirst.step hs, h.inBlock.step hs, h.shown.step h.written h.inBlock hc hs⟩

theorem Playing.start : Playing z c render {} := by
  refine ⟨⟨rfl, rfl⟩, ⟨fun _ _ => ⟨rfl, .inl rfl⟩, fun _ h => by cases h⟩, InBlock.start, ⟨?_, ?_, rfl⟩⟩
  · exact fun f hf => by cases hf
  · exact fun k reply hk => by cases hk

/-- Without a header nothing is written. -/
theorem Playing.stdout_nil (h : s.Playing z c render) (hy4m : c.y4m = true) (hheader : s.header = none) :
    s.stdout = [] := by
  obtain ⟨hresults, -⟩ := h.headerFirst.first hheader hy4m
  have hreplies : s.okReplies = [] := by rw [okReplies, hresults, List.filterMap_nil]
  obtain ⟨before, hframes, ⟨hbefore, hcurrent⟩ | ⟨last, more, hbefore, -⟩⟩ := h.written.view
  · rw [← hbefore, hreplies] at hframes
    rw [stdout, hheader, hframes, hcurrent]
    rfl
  · rw [hreplies] at hbefore
    exact absurd hbefore.symm (List.append_ne_nil_of_right_ne_nil _ (List.cons_ne_nil _ _))

theorem Playing.all_frames (h : s.Playing z c render) (hphase : s.phase = .returned) : s.frames.length = c.frameCount := by
  have hblock := h.inBlock
  rw [InBlock, hphase] at hblock
  obtain ⟨hblock, -, hle⟩ := hblock
  have hlow := hblock.low
  have hclip := hblock.inClip
  rw [h.shown.counted]
  omega

/-- What is written after the header: frames of the clip, and a rest that is no frame. -/
structure Frames (clip : VideoNode) (render : Int → VideoFrame) (s : PipeState) (frames : List (List Bytes))
    (rest : Bytes) : Prop where
  bytes : (s.frames ++ [s.current]).flatMap FrameWrites.bytes = frames.flatMap Y4m.frameBytes ++ rest
  shown : frames = (List.range frames.length).map (fun n : Nat => (render n).pixels)
  noFrame : Y4m.readFrame clip.y4mHeader.planeSizes rest = none
  written : s.frames.length ≤ frames.length ∧ frames.length ≤ s.frames.length + 1
  ended : s.ended = true → rest = []
  all : s.phase = .returned → frames.length = s.frames.length

theorem Playing.frames (h : s.Playing z c render) (hz : ∀ b, z.decompress (z.compress b) = .ok b) (hy4m : c.y4m = true)
    (hclip : clip.Constant) (hrenders : ∀ n, (render n).Renders clip)
    (hsizes : ∀ n, (render n).pixels.map List.length = clip.y4mHeader.planeSizes) :
    ∃ frames rest, s.Frames clip render frames rest := by
  obtain ⟨before, hframes, hcurrent⟩ := h.written.view
  have hlen : s.frames.length = before.length := by rw [hframes, List.length_map]
  have hprefix : before <+: s.okReplies := by
    rcases hcurrent with ⟨heq, -⟩ | ⟨last, more, heq, -⟩
    · exact heq ▸ List.prefix_refl _
    · exact heq ▸ List.prefix_append _ _
  have hshown := h.shown.frames_eq hz hrenders hprefix
  have hreturned : s.phase = .returned → s.okReplies.length = before.length := by
    intro hphase
    have hwritten := h.written
    rw [Written, hphase] at hwritten
    rw [← hlen, hwritten.1, List.length_map]
  have hbytes : (s.frames ++ [s.current]).flatMap FrameWrites.bytes =
      (before.map (fun reply => decompressedPlanes z reply.1.compression reply.2)).flatMap Y4m.frameBytes ++
        s.current.bytes := by
    rw [List.flatMap_append, hframes, flatMap_bytes hy4m, List.flatMap_singleton]
  generalize before.map (fun reply => decompressedPlanes z reply.1.compression reply.2) = shown at hbytes hshown
  have hlength : s.frames.length = shown.length := by rw [hlen, hshown, List.length_map, List.length_range]
  rw [← hlen, hlength] at hshown
  rcases hcurrent with ⟨heq, hcurrent⟩ | ⟨last, more, heq, hmarker, hplanes, hended⟩
  · refine ⟨shown, [], ⟨?_, hshown, rfl, ⟨hlength.le, by omega⟩, fun _ => rfl, fun _ => hlength.symm⟩⟩
    rw [hbytes, hcurrent]
    rfl
  · have hnext : s.okReplies[before.length]? = some last := heq ▸ List.getElem?_concat_length
    obtain ⟨total, hparts⟩ := h.shown.read _ last hnext
    have hpixels := decompressedPlanes_extracted hz (hrenders before.length) hparts
    rw [hplanes, ← hlen, hlength] at hpixels
    have hcurrent := bytes_eq_frameBytes (hmarker.trans hy4m)
    have hrunning : s.phase ≠ .returned := by
      intro hphase
      have hlast := hreturned hphase
      rw [heq, List.length_append, List.length_singleton] at hlast
      omega
    by_cases hmore : more = []
    · rw [hmore, List.append_nil] at hpixels
      refine ⟨shown ++ [s.current.planes], [], ⟨?_, ?_, rfl, ?_, fun _ => rfl, fun hphase => absurd hphase hrunning⟩⟩
      · rw [hbytes, hcurrent, List.flatMap_append, List.flatMap_singleton, List.append_nil]
      · rw [List.length_append, List.length_singleton, List.range_succ, List.map_append, ← hshown, hpixels]
        rfl
      · rw [List.length_append, List.length_singleton]
        exact ⟨by omega, by omega⟩
    · refine ⟨shown, s.current.bytes, ⟨hbytes, hshown, ?_, ⟨hlength.le, by omega⟩, ?_, fun _ => hlength.symm⟩⟩
      · rw [hcurrent, ← hsizes shown.length, ← hpixels]
        apply readFrame_partial hmore
        rw [hpixels, hsizes]
        exact planeSizes_pos hclip
      · exact fun hend => absurd (hended hend) hmore

theorem Playing.shows (h : s.Playing z c render) (hz : ∀ b, z.decompress (z.compress b) = .ok b) (hy4m : c.y4m = true)
    (hinfo : ClipInfo.fromClip clip name = .ok c.info) (hclip : clip.Constant) (hrenders : ∀ n, (render n).Renders clip)
    {header : Bytes} (hheader : s.header = some header) :
    ∃ stream, Y4m.read s.stdout = some stream ∧ s.Shows clip render stream := by
  have hwrites := (h.headerFirst.fits header hheader).2
  obtain ⟨line, hline, hnewline, hread⟩ := getY4mHeader_read hinfo hclip hwrites
  have hsizes : ∀ n, (render n).pixels.map List.length = clip.y4mHeader.planeSizes :=
    fun n => pixels_planeSizes hinfo hclip hwrites (hrenders n)
  obtain ⟨frames, rest, hf⟩ := h.frames hz hy4m hclip hrenders hsizes
  have hlengths : ∀ planes ∈ frames, planes.map List.length = clip.y4mHeader.planeSizes := by
    intro planes hmem
    rw [hf.shown] at hmem
    obtain ⟨n, -, rfl⟩ := List.mem_map.1 hmem
    exact hsizes n
  have hcount : c.frameCount = clip.numFrames := by
    obtain ⟨-, -, -, -, hframes, -⟩ := fromClip_info hinfo
    rw [PipeCall.frameCount, hframes]
    rfl
  refine ⟨⟨clip.y4mHeader, frames, rest⟩, ?_, rfl, hf.shown, hf.written, hf.ended, fun hphase => ?_⟩
  · rw [stdout, hheader, Option.getD_some, hline, hf.bytes, List.append_assoc]
    exact Y4m.read_stream hnewline hread hlengths hf.noFrame
  · exact (hf.all hphase).trans ((h.all_frames hphase).trans hcount)

/-- At every moment of a run, whatever is asked for ahead, late, refused or cut off, a reader
of the stream has the first frames of the clip: a clip of constant format and size
(`VideoNode.Constant`), frames that are rendered with its planes (`VideoFrame.Renders`), and
a server whose OK replies carry the frames of this clip (`Genuine`), so that no reload puts
another one behind the index. -/
theorem played_stream (hz : ∀ b, z.decompress (z.compress b) = .ok b) (hy4m : c.y4m = true)
    (hinfo : ClipInfo.fromClip clip name = .ok c.info) (hclip : clip.Constant) (hrenders : ∀ n, (render n).Renders clip)
    {ls : List PipeLabel} (hg : Runs.Guarded (step z c) (Genuine z render) ls {})
    (hr : Runs.run (step z c) ls {} = some s) :
    (s.header = none ∧ s.stdout = []) ∨ ∃ stream, Y4m.read s.stdout = some stream ∧ s.Shows clip render stream := by
  have h : s.Playing z c render := hg.inv (fun _ _ _ h hc hs => h.step hc hs) Playing.start hr
  cases hheader : s.header with
  | none => exact .inl ⟨rfl, h.stdout_nil hy4m hheader⟩
  | some header => exact .inr (h.shows hz hy4m hinfo hclip hrenders hheader)

def twoFrameClip : VideoNode := { VideoNode.gray8 1 2 2 with numFrames := 2 }

def y4mPipe : PipeCall := { info := { grayInfo with numFrames := 2 }, y4m := true, prefetch := 1, compression := .none }

def refusedHeader : FrameHeader := { status := .error, reqId := 2, n := 1, outputIndex := 0, compression := .none }

/-- The second frame is refused before the first has arrived. -/
def refusedSecond : List PipeLabel :=
  [.pipe, .pipe, .pipe, .pipe, .pipe, .pipe, .reply 1 (.ok (refusedHeader, [])),
    .reply 0 (.ok (onePixelHeader, [[0, 0, 0, 9]])), .pipe, .pipe, .pipe, .pipe, .pipe, .pipe, .pipe]

theorem played_stream_refused : ∃ s stream, Runs.run (step ⟨id, .ok⟩ y4mPipe) refusedSecond {} = some s ∧
    s.ended = true ∧ s.frames.length = 1 ∧ Y4m.read s.stdout = some stream ∧
      s.Shows twoFrameClip (fun _ => paddedFrame) stream := by
  have hg : Runs.Guarded (step ⟨id, .ok⟩ y4mPipe) (Genuine ⟨id, .ok⟩ (fun _ => paddedFrame)) refusedSecond {} := by
    apply Runs.Guarded.of_mem
    intro l hmem s
    cases l with
    | pipe => trivial
    | timeout => trivial
    | reply fut result =>
      intro f _ reply hreply
      simp only [refusedSecond, List.mem_cons, List.not_mem_nil, or_false, false_or, reduceCtorEq,
        PipeLabel.reply.injEq] at hmem
      rcases hmem with ⟨-, rfl⟩ | ⟨-, rfl⟩
      · cases hreply
      · cases hreply
        exact ⟨4, rfl⟩
  have hinfo : ClipInfo.fromClip twoFrameClip "Output 0" = .ok y4mPipe.info := rfl
  have hrenders : ∀ n : Int, ((fun _ => paddedFrame) n).Renders twoFrameClip := fun _ =>
    ⟨rfl, paddedFrame_renders.present, paddedFrame_renders.dims, paddedFrame_renders.itemsize, paddedFrame_renders.stride⟩
  have hclip : twoFrameClip.Constant :=
    ⟨by decide, by decide, by decide, by decide, by decide, by decide, by decide⟩
  obtain ⟨s, hr, hended, hframes, hheader⟩ : ∃ s, Runs.run (step ⟨id, .ok⟩ y4mPipe) refusedSecond {} = some s ∧
      s.ended = true ∧ s.frames.length = 1 ∧ s.header ≠ none := ⟨_, rfl, rfl, rfl, Option.some_ne_none _⟩
  rcases played_stream (fun _ => rfl) rfl hinfo hclip hrenders hg hr with ⟨hnone, -⟩ | ⟨stream, hread, hshows⟩
  · exact absurd hnone hheader
  · exact ⟨s, stream, hr, hended, hframes, hread, hshows⟩

end PipeState

end VsRemote
