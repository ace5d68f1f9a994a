import VsRemote.FrameDelivery
import VsRemote.Lib.Y4m
import VsRemote.Pipe

/-! What a reader of Y4M makes of the header that `pipe` writes for a clip. -/

namespace VsRemote

open Y4m (Colorspace Header)

/-- VapourSynth's clips of constant size: one byte a sample up to 8 bits and two up to 16,
and the chroma planes divide the picture evenly. -/
structure VideoNode.Constant (clip : VideoNode) : Prop where
  width : 0 < clip.width
  height : 0 < clip.height
  fpsNum : 0 ≤ clip.fpsNumerator
  fpsDen : 0 ≤ clip.fpsDenominator
  bytes : clip.format.bitsPerSample ≤ 16 → clip.format.bytesPerSample = if clip.format.bitsPerSample ≤ 8 then 1 else 2
  evenWidth : 2 ^ clip.format.subsamplingW ∣ clip.width
  evenHeight : 2 ^ clip.format.subsamplingH ∣ clip.height

def VideoFormat.colorspace (f : VideoFormat) : Colorspace :=
  ⟨if f.numPlanes = 1 then none else some (f.subsamplingW, f.subsamplingH), f.bitsPerSample⟩

/-- Progressive, of unknown aspect, with the number of frames as a comment. -/
def VideoNode.y4mHeader (clip : VideoNode) : Header where
  width := clip.width
  height := clip.height
  colorspace := clip.format.colorspace
  rate := some (clip.fpsNumerator.toNat, clip.fpsDenominator.toNat)
  interlacing := some 'p'
  aspect := some (0, 0)
  comments := ["LENGTH=".toList ++ clip.numFrames.repr.toList]

section

variable {clip : VideoNode} {name : String} {info : ClipInfo} {bytes : Bytes} {format : String}

theorem fromClip_info (hinfo : ClipInfo.fromClip clip name = .ok info) :
    info.width = clip.width ∧ info.height = clip.height ∧ info.fpsNum = clip.fpsNumerator ∧
      info.fpsDen = clip.fpsDenominator ∧ info.numFrames = clip.numFrames ∧
      info.bitsPerSample = clip.format.bitsPerSample ∧ info.subsamplingW = clip.format.subsamplingW ∧
      info.subsamplingH = clip.format.subsamplingH := by
  unfold ClipInfo.fromClip PlaneInfo.fromClip at hinfo
  by_cases hformat : clip.format.id = 0
  · rw [if_pos hformat] at hinfo
    cases hinfo
  · rw [if_neg hformat, if_neg hformat] at hinfo
    obtain rfl := Except.ok.inj hinfo
    exact ⟨rfl, rfl, rfl, rfl, rfl, rfl, rfl, rfl⟩

/-- What a header that is written says of the format. -/
theorem getY4mHeader_ok (hheader : getY4mHeader info = .ok bytes) :
    info.bitsPerSample ∈ [8, 9, 10, 12, 14, 16] ∧ ∃ format, y4mFormat info = .ok format ∧
      bytes = encodeAscii ("YUV4MPEG2 C" ++ format ++ " W" ++ toString info.width ++ " H" ++
        toString info.height ++ " F" ++ toString info.fpsNum ++ ":" ++ toString info.fpsDen ++
        " Ip A0:0 XLENGTH=" ++ toString info.numFrames ++ "\n") := by
  unfold getY4mHeader at hheader
  split at hheader
  · cases hheader
  · split at hheader
    · cases hheader
    · split at hheader
      · cases hheader
      · next hbits =>
        split at hheader
        · cases hheader
        · next format hformat => exact ⟨not_not.1 hbits, format, hformat, (Except.ok.inj hheader).symm⟩

/-- ASCII without blanks and ends of lines. -/
def Plain (cs : List Char) : Prop := ∀ c ∈ cs, c ≠ ' ' ∧ c ≠ '\n' ∧ c.toNat < 128

theorem plain_repr (n : Nat) : Plain n.repr.toList := by
  intro c hmem
  rw [Nat.toList_repr] at hmem
  have hdigit := Nat.isDigit_of_mem_toDigits (by decide) (by decide) hmem
  refine ⟨?_, ?_, ?_⟩
  · rintro rfl
    cases hdigit
  · rintro rfl
    cases hdigit
  · simp only [Char.isDigit, Bool.and_eq_true, decide_eq_true_eq] at hdigit
    exact Nat.lt_of_le_of_lt hdigit.2 (by decide)

theorem Plain.append {cs ds : List Char} (hc : Plain cs) (hd : Plain ds) : Plain (cs ++ ds) :=
  List.forall_mem_append.2 ⟨hc, hd⟩

-- not by running through all characters
instance (cs : List Char) : Decidable (Plain cs) := List.decidableBAll _ cs

theorem subsamplingFormat_some {subW subH : Nat} (h : subsamplingFormat subW subH = some format) :
    Y4m.readChroma format.toList = some (subW, subH) ∧ Plain format.toList := by
  unfold subsamplingFormat at h
  split at h <;> cases h
  all_goals
    next hw hh =>
      norm_cast at hw hh
      subst hw hh
      exact ⟨rfl, by decide⟩

theorem toString_natCast (n : Nat) : toString (n : Int) = n.repr := rfl

theorem y4mFormat_ok (hinfo : ClipInfo.fromClip clip name = .ok info)
    (hbits : info.bitsPerSample ∈ [8, 9, 10, 12, 14, 16]) (hformat : y4mFormat info = .ok format) :
    Y4m.readColorspace format.toList = some clip.format.colorspace ∧ Plain format.toList := by
  obtain ⟨-, -, -, -, -, hdepth, hsubW, hsubH⟩ := fromClip_info hinfo
  have hplanes := (fromClip_planes hinfo).1
  have hle : 8 ≤ clip.format.bitsPerSample := by
    rw [hdepth] at hbits
    simp only [List.mem_cons, List.not_mem_nil, or_false] at hbits
    omega
  unfold y4mFormat at hformat
  rw [hplanes, hdepth, hsubW, hsubH] at hformat
  by_cases hmono : (clip.format.numPlanes : Int) = 1
  · rw [if_pos hmono] at hformat
    obtain rfl := Except.ok.inj hformat
    have hone : clip.format.numPlanes = 1 := by omega
    rw [VideoFormat.colorspace, if_pos hone]
    by_cases h8 : (clip.format.bitsPerSample : Int) = 8
    · rw [if_pos h8, show clip.format.bitsPerSample = 8 by omega]
      exact ⟨rfl, by decide⟩
    · rw [if_neg h8, String.toList_append, toString_natCast]
      exact ⟨Y4m.readColorspace_mono _, Plain.append (by decide) (plain_repr _)⟩
  · rw [if_neg hmono] at hformat
    have hmore : clip.format.numPlanes ≠ 1 := by omega
    rw [VideoFormat.colorspace, if_neg hmore]
    split at hformat
    · split at hformat
      · cases hformat
      · next sub hsub =>
        obtain ⟨hchroma, hplain⟩ := subsamplingFormat_some hsub
        obtain ⟨h8bit, hdeep⟩ := Y4m.readColorspace_chroma hchroma
        obtain rfl := Except.ok.inj hformat
        by_cases hhigh : 8 < (clip.format.bitsPerSample : Int)
        · rw [if_pos hhigh, String.toList_append, String.toList_append, List.append_assoc, toString_natCast]
          exact ⟨hdeep _, hplain.append (Plain.append (by decide) (plain_repr _))⟩
        · rw [if_neg hhigh, show clip.format.bitsPerSample = 8 by omega]
          exact ⟨h8bit, hplain⟩
    · cases hformat

/-- The fields of the header. -/
def y4mTags (clip : VideoNode) (format : String) : List (List Char) :=
  ['C' :: format.toList, 'W' :: clip.width.repr.toList, 'H' :: clip.height.repr.toList,
    'F' :: (clip.fpsNumerator.toNat.repr.toList ++ ':' :: clip.fpsDenominator.toNat.repr.toList),
    ['I', 'p'], ['A', '0', ':', '0'], 'X' :: ("LENGTH=".toList ++ clip.numFrames.repr.toList)]

theorem Plain.cons {c : Char} {cs : List Char} (hc : Plain [c]) (hcs : Plain cs) : Plain (c :: cs) := hc.append hcs

theorem plain_y4mTags (hformat : Plain format.toList) : ∀ tag ∈ y4mTags clip format, Plain tag := by
  have hrate : Plain (clip.fpsNumerator.toNat.repr.toList ++ ':' :: clip.fpsDenominator.toNat.repr.toList) :=
    (plain_repr _).append (Plain.cons (by decide) (plain_repr _))
  have hlength : Plain ("LENGTH=".toList ++ clip.numFrames.repr.toList) := Plain.append (by decide) (plain_repr _)
  intro tag hmem
  simp only [y4mTags, List.mem_cons, List.not_mem_nil, or_false] at hmem
  rcases hmem with rfl | rfl | rfl | rfl | rfl | rfl | rfl
  · exact Plain.cons (by decide) hformat
  · exact Plain.cons (by decide) (plain_repr _)
  · exact Plain.cons (by decide) (plain_repr _)
  · exact Plain.cons (by decide) hrate
  · decide
  · decide
  · exact Plain.cons (by decide) hlength

theorem readTags_y4mTags (hformat : Y4m.readColorspace format.toList = some clip.format.colorspace) :
    Header.readTags {} (y4mTags clip format) = some clip.y4mHeader := by
  simp only [y4mTags, Header.readTags, Header.readTag, hformat, Y4m.readNat_repr, Y4m.readRatio_repr, Option.map_some,
    Option.bind_some]
  rfl

theorem mem_intercalate {c sep : Char} {fields : List (List Char)} (hmem : c ∈ [sep].intercalate fields) :
    c = sep ∨ ∃ field ∈ fields, c ∈ field := by
  induction fields with
  | nil => cases hmem
  | cons field fields ih =>
    cases fields with
    | nil =>
      rw [List.intercalate_singleton] at hmem
      exact .inr ⟨field, List.mem_singleton_self _, hmem⟩
    | cons next fields =>
      rw [List.intercalate_cons_cons, List.mem_append, List.mem_append, List.mem_singleton] at hmem
      rcases hmem with (hfield | hsep) | hrest
      · exact .inr ⟨field, List.mem_cons_self .., hfield⟩
      · exact .inl hsep
      · exact (ih hrest).imp id (fun ⟨other, hother, hc⟩ => ⟨other, List.mem_cons_of_mem _ hother, hc⟩)

/-- ASCII text comes back from its bytes, and has the end of a line where the bytes have it. -/
theorem encode_ascii {cs : List Char} (hcs : ∀ c ∈ cs, c ≠ '\n' ∧ c.toNat < 128) :
    Y4m.chars (cs.map (fun c => UInt8.ofNat c.toNat)) = cs ∧ Y4m.newline ∉ cs.map (fun c => UInt8.ofNat c.toNat) := by
  have hbyte : ∀ c ∈ cs, (UInt8.ofNat c.toNat).toNat = c.toNat := by
    intro c hmem
    exact UInt8.toNat_ofNat_of_lt' (Nat.lt_trans (hcs c hmem).2 (by decide))
  constructor
  · rw [Y4m.chars, List.map_map]
    apply (List.map_congr_left _).trans (List.map_id cs)
    intro c hmem
    rw [Function.comp_apply, hbyte c hmem, Char.ofNat_toNat, id]
  · intro hmem
    obtain ⟨c, hc, heq⟩ := List.mem_map.1 hmem
    have hten : c.toNat = 10 := by
      rw [← hbyte c hc, heq]
      rfl
    apply (hcs c hc).1
    rw [← Char.ofNat_toNat c, hten]

theorem y4mHeader_text (hinfo : ClipInfo.fromClip clip name = .ok info) (hclip : clip.Constant) :
    ("YUV4MPEG2 C" ++ format ++ " W" ++ toString info.width ++ " H" ++ toString info.height ++ " F" ++
      toString info.fpsNum ++ ":" ++ toString info.fpsDen ++ " Ip A0:0 XLENGTH=" ++ toString info.numFrames ++
      "\n").toList = [' '].intercalate (Y4m.magic :: y4mTags clip format) ++ ['\n'] := by
  obtain ⟨hwidth, hheight, hnum, hden, hframes, -⟩ := fromClip_info hinfo
  have hnat : ∀ {i : Int}, 0 ≤ i → toString i = i.toNat.repr := by
    intro i hi
    conv => lhs; rw [← Int.toNat_of_nonneg hi]
    rfl
  rw [hwidth, hheight, hnum, hden, hframes, hnat hclip.fpsNum, hnat hclip.fpsDen]
  simp only [String.toList_append, toString_natCast, y4mTags, List.intercalate_cons_cons, List.intercalate_singleton]
  simp [Y4m.magic]

/-- A header that is written is one line, and a reader finds in it the size, the rate and
the format of the clip. -/
theorem getY4mHeader_read (hinfo : ClipInfo.fromClip clip name = .ok info) (hclip : clip.Constant)
    (hheader : getY4mHeader info = .ok bytes) :
    ∃ line, bytes = line ++ [Y4m.newline] ∧ Y4m.newline ∉ line ∧
      Y4m.readHeader (Y4m.chars line) = some clip.y4mHeader := by
  obtain ⟨hbits, format, hformat, hbytes⟩ := getY4mHeader_ok hheader
  obtain ⟨hcolorspace, hplain⟩ := y4mFormat_ok hinfo hbits hformat
  have htags : ∀ tag ∈ y4mTags clip format, Plain tag := plain_y4mTags hplain
  have hmagic : Plain Y4m.magic := by decide
  have hascii : ∀ c ∈ [' '].intercalate (Y4m.magic :: y4mTags clip format), c ≠ '\n' ∧ c.toNat < 128 := by
    intro c hmem
    rcases mem_intercalate hmem with rfl | ⟨field, hfield, hc⟩
    · decide
    · rcases List.mem_cons.1 hfield with rfl | htag
      · exact (hmagic c hc).2
      · exact (htags field htag c hc).2
  obtain ⟨hchars, hnewline⟩ := encode_ascii hascii
  refine ⟨_, ?_, hnewline, ?_⟩
  · rw [hbytes, encodeAscii, y4mHeader_text hinfo hclip, List.map_append]
    rfl
  · rw [hchars]
    exact Y4m.readHeader_fields (fun tag htag hblank => (htags tag htag _ hblank).1 rfl) (readTags_y4mTags hcolorspace)
      hclip.width hclip.height

end

end VsRemote
