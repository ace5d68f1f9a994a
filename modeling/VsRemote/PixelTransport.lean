import Mathlib.Tactic.Linarith
import VsRemote.FetchFrame

/-! A plane on its way from the frame of the server to the frame of the client. -/

namespace VsRemote

/-- The frame has the planes of its clip, each with rows at least as far apart
as they are long. -/
structure VideoFrame.Renders (frame : VideoFrame) (clip : VideoNode) : Prop where
  numPlanes : frame.numPlanes = clip.format.numPlanes
  present : ∀ p < frame.numPlanes, p < frame.planes.length
  dims : ∀ (p : Nat) (v : PlaneView), frame.planes[p]? = some v → (v.width, v.height) = planeDims clip p
  itemsize : ∀ (p : Nat) (v : PlaneView), frame.planes[p]? = some v → v.itemsize = clip.format.bytesPerSample
  stride : ∀ (p : Nat) (v : PlaneView), frame.planes[p]? = some v → v.rowSize ≤ v.stride

structure PlaneView.FitsWord (v : PlaneView) : Prop where
  width : v.width < 2 ^ 64
  height : v.height < 2 ^ 64
  itemsize : v.itemsize < 2 ^ 64

/-- The rows of `v` are in the destination plane and nothing else has changed. -/
structure HoldsRows (v : PlaneView) (dst : FramePlane) (mem mem' : Nat → UInt8) : Prop where
  rows : ∀ x y, x < v.rowSize → y < v.height →
    mem' (dst.ptr + y * dst.stride + x) = v.mem (y * v.stride + x)
  frame : ∀ a, (∀ x y, x < v.rowSize → y < v.height → a ≠ dst.ptr + y * dst.stride + x) → mem' a = mem a

namespace PlaneView

variable {v : PlaneView} {x y : Nat}

theorem length_row : (v.row y).length = v.rowSize := by
  simp only [row, List.length_map, List.length_range]

theorem length_flatMap_rows {rows : Nat → Bytes} {r : Nat} (hlen : ∀ i, (rows i).length = r) (n : Nat) :
    ((List.range n).flatMap rows).length = n * r := by
  induction n with
  | zero => simp
  | succ n ih =>
    rw [List.range_succ, List.flatMap_append, List.length_append, ih, List.flatMap_singleton, hlen, Nat.add_mul,
      Nat.one_mul]

theorem length_tobytes : v.tobytes.length = v.nbytes := length_flatMap_rows (fun _ => length_row) v.height

theorem length_castB : v.castB.length = v.nbytes := by
  simp only [castB, List.length_map, List.length_range]

theorem flatMap_rows_getD {rows : Nat → Bytes} {n r : Nat} (hlen : ∀ i, (rows i).length = r) (hy : y < n)
    (hx : x < r) : ((List.range n).flatMap rows).getD (y * r + x) 0 = (rows y).getD x 0 := by
  induction n with
  | zero => omega
  | succ n ih =>
    have hbefore := length_flatMap_rows hlen n
    rw [List.range_succ, List.flatMap_append, List.flatMap_singleton, List.getD_eq_getElem?_getD]
    by_cases hlast : y = n
    · subst hlast
      rw [List.getElem?_append_right (by omega), hbefore, Nat.add_sub_cancel_left, List.getD_eq_getElem?_getD]
    · have hbelow : (y + 1) * r ≤ n * r := Nat.mul_le_mul_right r (by omega)
      rw [Nat.add_mul] at hbelow
      rw [List.getElem?_append_left (by omega), ← List.getD_eq_getElem?_getD]
      exact ih (by omega)

theorem map_range_getD {f : Nat → UInt8} {n i : Nat} (hi : i < n) :
    ((List.range n).map f).getD i 0 = f i := by
  simp [List.getD_eq_getElem?_getD, hi]

theorem tobytes_getD (hy : y < v.height) (hx : x < v.rowSize) :
    v.tobytes.getD (y * v.rowSize + x) 0 = v.mem (y * v.stride + x) := by
  rw [tobytes, flatMap_rows_getD (fun _ => length_row) hy hx, row, map_range_getD hx]

theorem castB_getD (hc : v.cContiguous = true) (hy : y < v.height) (hx : x < v.rowSize) :
    v.castB.getD (y * v.rowSize + x) 0 = v.mem (y * v.stride + x) := by
  have hin : y * v.rowSize + x < v.nbytes := by
    have hle : (y + 1) * v.rowSize ≤ v.height * v.rowSize := Nat.mul_le_mul_right _ hy
    rw [Nat.add_mul] at hle
    unfold nbytes
    omega
  rw [castB, map_range_getD hin]
  have hrow : y * v.rowSize = y * v.stride := by
    simp only [cContiguous, decide_eq_true_eq] at hc
    rcases hc with hzero | hzero | hone | hpacked
    · omega
    · rw [rowSize, hzero, Nat.zero_mul] at hx
      omega
    · have hfirst : y = 0 := by omega
      rw [hfirst, Nat.zero_mul, Nat.zero_mul]
    · rw [hpacked]
  rw [hrow]

def raw (v : PlaneView) : Bytes := if v.cContiguous then v.castB else v.tobytes

theorem length_raw : v.raw.length = v.nbytes := by
  unfold raw
  split
  · exact length_castB
  · exact length_tobytes

theorem raw_getD (hy : y < v.height) (hx : x < v.rowSize) :
    v.raw.getD (y * v.rowSize + x) 0 = v.mem (y * v.stride + x) := by
  unfold raw
  split
  · next hc => exact castB_getD hc hy hx
  · exact tobytes_getD hy hx

end PlaneView

theorem decompress_extractPlane {z : Zstd} (hz : ∀ b, z.decompress (z.compress b) = .ok b) (v : PlaneView)
    (mode : Compression) : decompressPlane z (extractPlane z mode v) mode = .ok v.raw := by
  cases mode with
  | none => rfl
  | zstd => exact hz v.raw

theorem extractAndCompressPlanes_ok (z : Zstd) {frame : VideoFrame} (mode : Compression) {n : Nat}
    (hn : ∀ p < n, p < frame.planes.length) :
    ∃ parts total, extractAndCompressPlanes z frame mode n = .ok (parts, total) ∧ parts.length = n ∧
      ∀ (p : Nat) (v : PlaneView), p < n → frame.planes[p]? = some v →
        parts[p]? = some (extractPlane z mode v) := by
  induction n with
  | zero => exact ⟨[], 0, rfl, rfl, fun p v hp => by omega⟩
  | succ n ih =>
    obtain ⟨parts, total, hex, hlen, hparts⟩ := ih (fun p hp => hn p (by omega))
    obtain ⟨plane, hplane⟩ : ∃ plane, frame.planes[n]? = some plane :=
      ⟨_, List.getElem?_eq_getElem (hn n (by omega))⟩
    refine ⟨parts ++ [extractPlane z mode plane], total + plane.nbytes, ?_, by simp [hlen], ?_⟩
    · simp only [extractAndCompressPlanes, hex, hplane, bind, Except.bind, pure, Except.pure]
    · intro p v hp hv
      by_cases hlast : p = n
      · subst hlast
        rw [hplane] at hv
        obtain rfl := Option.some.inj hv
        rw [List.getElem?_append_right (by omega), hlen]
        simp
      · rw [List.getElem?_append_left (by omega)]
        exact hparts p v (by omega) hv

/-- As long as no address wraps the row loop copies packed rows to strided ones. -/
theorem runCopies_rows {decompressed : Bytes} {rowSize stride height src dst : Nat} {mem : Nat → UInt8}
    (hdst : dst < 2 ^ 64) (hspace : dst + stride * height ≤ 2 ^ 64) :
    runCopies decompressed (rowCopies rowSize stride height src dst) mem =
      Strided.copyRows mem dst rowSize stride (fun i => decompressed.getD (src + i) 0) height := by
  induction height generalizing src dst mem with
  | zero => rfl
  | succ n ih =>
    rw [Strided.copyRows_cons, rowCopies]
    change runCopies decompressed (rowCopies rowSize stride n (src + rowSize) (wrappingOffset dst stride))
      (Strided.blit mem dst rowSize (fun x => decompressed.getD (src + x) 0)) = _
    cases n with
    | zero => rfl
    | succ n =>
      have hmul : stride * (n + 1 + 1) = stride + stride + stride * n := by
        rw [Nat.mul_add, Nat.mul_add, Nat.mul_one]
        omega
      have hmul' : stride * (n + 1) = stride + stride * n := by
        rw [Nat.mul_add, Nat.mul_one, Nat.add_comm]
      rw [wrappingOffset_eq (by omega), ih (by omega) (by omega)]
      simp only [Nat.add_assoc]

theorem runCopies_bulk {decompressed : Bytes} {rowSize height dst : Nat} {mem : Nat → UInt8}
    (hdst : dst < 2 ^ 64) (hspace : dst + rowSize * height ≤ 2 ^ 64) (hsize : rowSize * height < 2 ^ 64) :
    runCopies decompressed [⟨0, dst, rowSize * height % 2 ^ 64⟩] mem =
      runCopies decompressed (rowCopies rowSize rowSize height 0 dst) mem := by
  rw [runCopies_rows hdst hspace, Strided.copyRows_packed, Nat.mod_eq_of_lt hsize]
  rfl

theorem runCopies_plane {decompressed : Bytes} {width height bps : Nat} {dst : FramePlane} {mem : Nat → UInt8}
    (hstride : width * bps ≤ dst.stride) (hroom : height ≤ dst.height) :
    runCopies decompressed (planeCopies dst.ptr width height bps dst.stride) mem =
      Strided.copyRows mem dst.ptr (width * bps) dst.stride (fun i => decompressed.getD i 0) height := by
  have hsmall := dst.strideFits
  have hsize := dst.sizeFits
  have hspace := dst.inSpace
  have hrows : dst.stride * height ≤ dst.stride * dst.height := Nat.mul_le_mul_left _ hroom
  have hmod : width * bps % 2 ^ 64 = width * bps := Nat.mod_eq_of_lt (by omega)
  have hloop : runCopies decompressed (rowCopies (width * bps) dst.stride height 0 dst.ptr) mem =
      Strided.copyRows mem dst.ptr (width * bps) dst.stride (fun i => decompressed.getD i 0) height := by
    rw [runCopies_rows dst.ptrFits (by omega)]
    simp only [Nat.zero_add]
  unfold planeCopies
  simp only [hmod, castSigned_eq_stride (show width * bps < 2 ^ 64 by omega)]
  by_cases hbulk : dst.stride = width * bps
  · have hbytes : width * bps * height = dst.stride * height := by rw [hbulk]
    rw [if_pos hbulk, ← hloop, hbulk]
    exact runCopies_bulk dst.ptrFits (by omega) (by omega)
  · rw [if_neg hbulk]
    exact hloop

theorem usizeArg_natCast {n : Nat} (h : n < 2 ^ 64) : usizeArg n = .ok n := by
  unfold usizeArg
  rw [if_neg (by omega), if_pos (by omega), Int.toNat_natCast]

theorem isizeArg_natCast {n : Nat} (h : n < 2 ^ 63) : isizeArg n = .ok n := by
  have hle : -2 ^ 63 ≤ (n : Int) := by
    have hn : (0 : Int) ≤ n := Int.natCast_nonneg n
    linarith
  have hlt : (n : Int) < 2 ^ 63 := by exact_mod_cast h
  exact if_pos ⟨hle, hlt⟩

theorem copyPlane_natCast {dst : FramePlane} {width height bps : Nat} (hw : width < 2 ^ 64)
    (hh : height < 2 ^ 64) (hb : bps < 2 ^ 64) :
    copyPlane (some dst.ptr) width height bps dst.stride =
      .ok (planeCopies dst.ptr width height bps dst.stride) := by
  have hnull : (some dst.ptr).filter (· ≠ 0) = some dst.ptr := by
    have hpos := dst.notNull
    rw [Option.filter_some, if_pos (by simp; omega)]
  unfold copyPlane
  rw [usizeArg_natCast hw, usizeArg_natCast hh, usizeArg_natCast hb, isizeArg_natCast dst.strideFits, hnull]
  rfl

theorem holdsRows_copyRows {v : PlaneView} {dst : FramePlane} {mem : Nat → UInt8}
    (hstride : v.rowSize ≤ dst.stride) :
    HoldsRows v dst mem
      (Strided.copyRows mem dst.ptr v.rowSize dst.stride (fun i => v.raw.getD i 0) v.height) := by
  constructor
  · intro x y hx hy
    rw [Strided.copyRows_at hstride hy hx]
    exact PlaneView.raw_getD hy hx
  · intro a ha
    exact Strided.copyRows_frame (fun x y hy hx => ha x y hx hy)

/-- Plane `p` of the frame goes through extraction, decompression and
`copy_plane`: what is transported has the size the clip info names, the rows are
in the destination plane and nothing else has changed, and where the rows have
no padding the row loop would have done the same. -/
def Transported (z : Zstd) (mode : Compression) (clip : VideoNode) (frame : VideoFrame) (p : Nat)
    (v : PlaneView) (dst : FramePlane) (mem : Nat → UInt8) : Prop :=
  ∃ parts total part infos info raw ops,
    extractAndCompressPlanes z frame mode frame.numPlanes = .ok (parts, total) ∧ parts[p]? = some part ∧
    PlaneInfo.fromClip clip = .ok infos ∧ infos[p]? = some info ∧
    v.height = info.height ∧ v.rowSize = info.width * info.bytesPerSample ∧
    decompressPlane z part mode = .ok raw ∧ raw.length = info.sizeBytes ∧
    copyPlane (some dst.ptr) info.width info.height info.bytesPerSample dst.stride = .ok ops ∧
    HoldsRows v dst mem (runCopies raw ops mem) ∧
    (dst.stride = v.rowSize → runCopies raw ops mem =
      runCopies raw (rowCopies v.rowSize dst.stride v.height 0 dst.ptr) mem)

/-- Every plane of every fixed-format clip arrives pixel by pixel. -/
theorem pixel_exact_transport {z : Zstd} (hz : ∀ b, z.decompress (z.compress b) = .ok b) {clip : VideoNode}
    (hformat : clip.format.id ≠ 0) {frame : VideoFrame} (hrenders : frame.Renders clip) (mode : Compression)
    {p : Nat} {v : PlaneView} (hp : p < frame.numPlanes) (hv : frame.planes[p]? = some v) (hfits : v.FitsWord)
    {dst : FramePlane} (hstride : v.rowSize ≤ dst.stride) (hroom : v.height ≤ dst.height)
    (mem : Nat → UInt8) : Transported z mode clip frame p v dst mem := by
  obtain ⟨parts, total, hex, -, hparts⟩ := extractAndCompressPlanes_ok z mode hrenders.present
  have hdims := hrenders.dims p v hv
  have hbps := hrenders.itemsize p v hv
  have hinfo : ((List.range clip.format.numPlanes).map (fun p =>
      PlaneInfo.ofDims clip.format.bytesPerSample (planeDims clip p)))[p]? =
      some ⟨v.width, v.height, v.itemsize, v.width * v.height * v.itemsize⟩ := by
    have hlt : p < clip.format.numPlanes := hrenders.numPlanes ▸ hp
    rw [List.getElem?_map, List.getElem?_range hlt, Option.map_some, ← hdims, ← hbps]
    rfl
  have hcopies : runCopies v.raw (planeCopies dst.ptr v.width v.height v.itemsize dst.stride) mem =
      Strided.copyRows mem dst.ptr v.rowSize dst.stride (fun i => v.raw.getD i 0) v.height :=
    runCopies_plane hstride hroom
  refine ⟨parts, total, _, _, _, v.raw, _, hex, hparts p v hp hv, if_neg hformat, hinfo, rfl, ?_,
    decompress_extractPlane hz v mode, ?_, copyPlane_natCast hfits.width hfits.height hfits.itemsize, ?_, ?_⟩
  · simp only [PlaneView.rowSize, Nat.cast_mul]
  · simp only [PlaneView.length_raw, PlaneView.nbytes, PlaneView.rowSize]
    push_cast
    exact Int.mul_comm _ _ ▸ Int.mul_right_comm _ _ _
  · rw [hcopies]
    exact holdsRows_copyRows hstride
  · intro hpacked
    have hspace := dst.inSpace
    have hrows : dst.stride * v.height ≤ dst.stride * dst.height := Nat.mul_le_mul_left _ hroom
    rw [hcopies, runCopies_rows dst.ptrFits (by omega)]
    simp only [Nat.zero_add]

def paddedView : PlaneView := ⟨2, 2, 1, 3, fun a => if a = 4 then 9 else 0⟩

def paddedFrame : VideoFrame := ⟨0, 1, [paddedView], []⟩

theorem paddedFrame_renders : paddedFrame.Renders (.gray8 1 2 2) := by
  have hview : ∀ (p : Nat) (v : PlaneView), paddedFrame.planes[p]? = some v → p = 0 ∧ v = paddedView := by
    intro p v hv
    cases p with
    | zero => exact ⟨rfl, (Option.some.inj hv).symm⟩
    | succ p => cases hv
  refine ⟨rfl, fun p hp => hp, fun p v hv => ?_, fun p v hv => ?_, fun p v hv => ?_⟩
  all_goals obtain ⟨rfl, rfl⟩ := hview p v hv
  · rfl
  · rfl
  · decide

theorem padded_frame_transported :
    Transported ⟨id, .ok⟩ .none (.gray8 1 2 2) paddedFrame 0 paddedView twoRows (fun _ => 1) :=
  pixel_exact_transport (fun _ => rfl) (by decide) paddedFrame_renders .none (by decide) rfl
    ⟨by decide, by decide, by decide⟩ (by decide) (by decide) (fun _ => 1)

end VsRemote
