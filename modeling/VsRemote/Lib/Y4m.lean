import Mathlib.Algebra.Group.Nat.Defs

/-! YUV4MPEG2: a line of tagged fields, then frames, each a line and the bytes of its planes.
The reader takes the whole frames that are there and leaves the rest. -/

namespace Y4m

/-- The logarithms of the chroma subsampling, where there is chroma. -/
structure Colorspace where
  chroma : Option (Nat × Nat)
  depth : Nat := 8
  deriving DecidableEq, Repr

structure Header where
  width : Nat := 0
  height : Nat := 0
  colorspace : Colorspace := ⟨some (1, 1), 8⟩
  rate : Option (Nat × Nat) := none
  interlacing : Option Char := none
  aspect : Option (Nat × Nat) := none
  comments : List (List Char) := []
  deriving DecidableEq, Repr

structure Stream where
  header : Header
  frames : List (List (List UInt8))
  rest : List UInt8
  deriving DecidableEq, Repr

def newline : UInt8 := 10

def readNat (cs : List Char) : Option Nat :=
  if cs ≠ [] ∧ cs.all Char.isDigit then some (Nat.ofDigitChars 10 cs 0) else none

def readRatio (cs : List Char) : Option (Nat × Nat) :=
  match cs.splitOn ':' with
  | [num, den] => do
    let num ← readNat num
    let den ← readNat den
    some (num, den)
  | _ => none

def readChroma : List Char → Option (Nat × Nat)
  | ['4', '2', '0'] => some (1, 1)
  | ['4', '2', '2'] => some (1, 0)
  | ['4', '4', '4'] => some (0, 0)
  | ['4', '1', '0'] => some (2, 2)
  | ['4', '1', '1'] => some (2, 0)
  | ['4', '4', '0'] => some (0, 1)
  | _ => none

def readColorspace : List Char → Option Colorspace
  | ['m', 'o', 'n', 'o'] => some ⟨none, 8⟩
  | 'm' :: 'o' :: 'n' :: 'o' :: depth => (readNat depth).map (fun n => ⟨none, n⟩)
  | [a, b, c] => (readChroma [a, b, c]).map (fun sub => ⟨some sub, 8⟩)
  | a :: b :: c :: 'p' :: depth => do
    let sub ← readChroma [a, b, c]
    let n ← readNat depth
    some ⟨some sub, n⟩
  | _ => none

namespace Header

def readTag (h : Header) : List Char → Option Header
  | 'W' :: cs => (readNat cs).map (fun n => { h with width := n })
  | 'H' :: cs => (readNat cs).map (fun n => { h with height := n })
  | 'C' :: cs => (readColorspace cs).map (fun n => { h with colorspace := n })
  | 'F' :: cs => (readRatio cs).map (fun n => { h with rate := some n })
  | 'A' :: cs => (readRatio cs).map (fun n => { h with aspect := some n })
  | ['I', c] => some { h with interlacing := some c }
  | 'X' :: cs => some { h with comments := h.comments ++ [cs] }
  | _ => none

def readTags : Header → List (List Char) → Option Header
  | h, [] => some h
  | h, tag :: tags => (h.readTag tag).bind (fun h => h.readTags tags)

def sampleBytes (h : Header) : Nat := if h.colorspace.depth ≤ 8 then 1 else 2

/-- The samples of a line or a column of a chroma plane. -/
def subsampled (n log : Nat) : Nat := (n + (2 ^ log - 1)) / 2 ^ log

def planeSizes (h : Header) : List Nat :=
  match h.colorspace.chroma with
  | none => [h.width * h.height * h.sampleBytes]
  | some (logW, logH) =>
    let chroma := subsampled h.width logW * subsampled h.height logH * h.sampleBytes
    [h.width * h.height * h.sampleBytes, chroma, chroma]

end Header

def magic : List Char := ['Y', 'U', 'V', '4', 'M', 'P', 'E', 'G', '2']

def frameMagic : List Char := ['F', 'R', 'A', 'M', 'E']

/-- The size of the picture is not optional. -/
def readHeader (line : List Char) : Option Header :=
  match line.splitOn ' ' with
  | [] => none
  | first :: tags =>
    if first = magic then
      ((({} : Header).readTags tags).filter (fun h => 0 < h.width && 0 < h.height))
    else none

def chars (bytes : List UInt8) : List Char := bytes.map (fun b => Char.ofNat b.toNat)

/-- The bytes up to the end of the line, and those after it. -/
def readLine : List UInt8 → Option (List UInt8 × List UInt8)
  | [] => none
  | b :: bytes => if b = newline then some ([], bytes) else (readLine bytes).map (fun p => (b :: p.1, p.2))

/-- The bytes of a frame as the planes hold them. -/
def frameLength : List Nat → Nat
  | [] => 0
  | n :: sizes => n + frameLength sizes

def takePlanes : List Nat → List UInt8 → Option (List (List UInt8) × List UInt8)
  | [], bytes => some ([], bytes)
  | n :: sizes, bytes =>
    if n ≤ bytes.length then (takePlanes sizes (bytes.drop n)).map (fun p => (bytes.take n :: p.1, p.2)) else none

def readFrame (sizes : List Nat) (bytes : List UInt8) : Option (List (List UInt8) × List UInt8) := do
  let (line, bytes) ← readLine bytes
  if (chars line).splitOn ' ' |>.head? |>.any (fun first => first = frameMagic) then takePlanes sizes bytes else none

/-- No more frames than `fuel`, which the number of bytes never falls short of. -/
def readFrames (sizes : List Nat) : Nat → List UInt8 → List (List (List UInt8)) × List UInt8
  | 0, bytes => ([], bytes)
  | fuel + 1, bytes =>
    match readFrame sizes bytes with
    | none => ([], bytes)
    | some (planes, bytes) => ((planes :: (readFrames sizes fuel bytes).1), (readFrames sizes fuel bytes).2)

def read (bytes : List UInt8) : Option Stream := do
  let (line, bytes) ← readLine bytes
  let header ← readHeader (chars line)
  let (frames, rest) := readFrames header.planeSizes bytes.length bytes
  some ⟨header, frames, rest⟩

/-- A frame without parameters. -/
def frameBytes (planes : List (List UInt8)) : List UInt8 :=
  frameMagic.map (fun c => UInt8.ofNat c.toNat) ++ newline :: planes.flatten

/-! What the reader makes of numbers and fields. -/

theorem readNat_repr (n : Nat) : readNat n.repr.toList = some n := by
  have hdigits : (Nat.toDigits 10 n).all Char.isDigit = true := by
    rw [List.all_eq_true]
    exact fun c hc => Nat.isDigit_of_mem_toDigits (by decide) (by decide) hc
  rw [readNat, Nat.toList_repr, if_pos ⟨Nat.toDigits_ne_nil, hdigits⟩, Nat.ofDigitChars_ten_toDigits]

/-- A character that is no digit is not in a number. -/
theorem not_mem_repr {n : Nat} {c : Char} (hc : c.isDigit = false) : c ∉ n.repr.toList := by
  intro hmem
  rw [Nat.toList_repr] at hmem
  rw [Nat.isDigit_of_mem_toDigits (by decide) (by decide) hmem] at hc
  cases hc

theorem readRatio_repr (num den : Nat) : readRatio (num.repr.toList ++ ':' :: den.repr.toList) = some (num, den) := by
  have hnum : ':' ∉ num.repr.toList := not_mem_repr rfl
  have hden : ':' ∉ den.repr.toList := not_mem_repr rfl
  have hsplit : (num.repr.toList ++ ':' :: den.repr.toList).splitOn ':' = [num.repr.toList, den.repr.toList] := by
    rw [List.splitOn_append_cons_of_beq _ _ (by rfl), List.splitOn_eq_singleton hnum, List.splitOn_eq_singleton hden]
    rfl
  simp only [readRatio, hsplit, readNat_repr, Option.bind_eq_bind, Option.bind_some]

theorem readColorspace_mono (n : Nat) : readColorspace ('m' :: 'o' :: 'n' :: 'o' :: n.repr.toList) = some ⟨none, n⟩ := by
  have hread := readNat_repr n
  cases hdigits : n.repr.toList with
  | nil => exact absurd (Nat.toList_repr.symm.trans hdigits) Nat.toDigits_ne_nil
  | cons c cs =>
    rw [hdigits] at hread
    show (readNat (c :: cs)).map (fun n => (⟨none, n⟩ : Colorspace)) = some ⟨none, n⟩
    rw [hread, Option.map_some]

theorem readColorspace_chroma {format : List Char} {sub : Nat × Nat} (hsub : readChroma format = some sub) :
    readColorspace format = some ⟨some sub, 8⟩ ∧
      ∀ n : Nat, readColorspace (format ++ 'p' :: n.repr.toList) = some ⟨some sub, n⟩ := by
  unfold readChroma at hsub
  split at hsub <;> cases hsub
  all_goals
    refine ⟨rfl, fun n => ?_⟩
    show (readNat n.repr.toList).bind (fun n => some (⟨some _, n⟩ : Colorspace)) = _
    rw [readNat_repr, Option.bind_some]

theorem readHeader_fields {tags : List (List Char)} {h : Header} (hspace : ∀ tag ∈ tags, ' ' ∉ tag)
    (htags : Header.readTags {} tags = some h) (hwidth : 0 < h.width) (hheight : 0 < h.height) :
    readHeader ([' '].intercalate (magic :: tags)) = some h := by
  have hsplit : ([' '].intercalate (magic :: tags)).splitOn ' ' = magic :: tags := by
    apply List.splitOn_intercalate
    · intro field hmem
      rcases List.mem_cons.1 hmem with rfl | hmem
      · decide
      · exact hspace field hmem
    · exact List.cons_ne_nil _ _
  simp only [readHeader, hsplit, if_true, htags]
  simp [hwidth, hheight]

/-! What it makes of lines and frames. -/

theorem readLine_append {line : List UInt8} (hline : newline ∉ line) (rest : List UInt8) :
    readLine (line ++ newline :: rest) = some (line, rest) := by
  induction line with
  | nil => rfl
  | cons b line ih =>
    have hb : b ≠ newline := fun heq => hline (heq ▸ List.mem_cons_self ..)
    have hrest := ih (fun hmem => hline (List.mem_cons_of_mem _ hmem))
    rw [List.cons_append, readLine, if_neg hb, hrest]
    rfl

theorem takePlanes_flatten (planes : List (List UInt8)) (rest : List UInt8) :
    takePlanes (planes.map List.length) (planes.flatten ++ rest) = some (planes, rest) := by
  induction planes with
  | nil => rfl
  | cons plane planes ih =>
    have hle : plane.length ≤ (plane ++ (planes.flatten ++ rest)).length := by
      rw [List.length_append]
      omega
    rw [List.map_cons, List.flatten_cons, List.append_assoc, takePlanes, if_pos hle, List.drop_left, List.take_left, ih]
    rfl

theorem frameLength_map (planes : List (List UInt8)) : frameLength (planes.map List.length) = planes.flatten.length := by
  induction planes with
  | nil => rfl
  | cons plane planes ih => rw [List.map_cons, frameLength, ih, List.flatten_cons, List.length_append]

theorem takePlanes_short {sizes : List Nat} {bytes : List UInt8} (hshort : bytes.length < frameLength sizes) :
    takePlanes sizes bytes = none := by
  induction sizes generalizing bytes with
  | nil => exact absurd hshort (Nat.not_lt_zero _)
  | cons n sizes ih =>
    rw [frameLength] at hshort
    rw [takePlanes]
    by_cases hle : n ≤ bytes.length
    · have hdrop : (bytes.drop n).length < frameLength sizes := by
        rw [List.length_drop]
        omega
      rw [if_pos hle, ih hdrop]
      rfl
    · rw [if_neg hle]

theorem readFrame_line (sizes : List Nat) (bytes : List UInt8) :
    readFrame sizes (frameMagic.map (fun c => UInt8.ofNat c.toNat) ++ newline :: bytes) = takePlanes sizes bytes := by
  have hline : newline ∉ frameMagic.map (fun c => UInt8.ofNat c.toNat) := by decide
  rw [readFrame, readLine_append hline]
  rfl

theorem readFrame_frame (planes : List (List UInt8)) (rest : List UInt8) :
    readFrame (planes.map List.length) (frameBytes planes ++ rest) = some (planes, rest) := by
  rw [frameBytes, List.append_assoc, List.cons_append, readFrame_line, takePlanes_flatten]

theorem readFrame_short {sizes : List Nat} {bytes : List UInt8} (hshort : bytes.length < frameLength sizes) :
    readFrame sizes (frameMagic.map (fun c => UInt8.ofNat c.toNat) ++ newline :: bytes) = none := by
  rw [readFrame_line, takePlanes_short hshort]

theorem readFrames_flatMap {sizes : List Nat} {frames : List (List (List UInt8))}
    (hsizes : ∀ planes ∈ frames, planes.map List.length = sizes) {rest : List UInt8}
    (hrest : readFrame sizes rest = none) {fuel : Nat} (hfuel : frames.length ≤ fuel) :
    readFrames sizes fuel (frames.flatMap frameBytes ++ rest) = (frames, rest) := by
  induction frames generalizing fuel with
  | nil =>
    rw [List.flatMap_nil, List.nil_append]
    cases fuel with
    | zero => rfl
    | succ fuel => rw [readFrames, hrest]
  | cons planes frames ih =>
    cases fuel with
    | zero => exact absurd hfuel (Nat.not_succ_le_zero _)
    | succ fuel =>
      have hfirst := readFrame_frame planes (frames.flatMap frameBytes ++ rest)
      rw [hsizes planes (List.mem_cons_self ..)] at hfirst
      have hothers := ih (fun other hmem => hsizes other (List.mem_cons_of_mem _ hmem)) (Nat.le_of_succ_le_succ hfuel)
      rw [List.flatMap_cons, List.append_assoc, readFrames, hfirst]
      simp only [hothers]

theorem length_le_flatMap (frames : List (List (List UInt8))) :
    frames.length ≤ (frames.flatMap frameBytes).length := by
  induction frames with
  | nil => exact Nat.le_refl _
  | cons planes frames ih =>
    rw [List.flatMap_cons, List.length_append, List.length_cons, frameBytes, List.length_append, List.length_cons]
    omega

theorem read_stream {line : List UInt8} {header : Header} {frames : List (List (List UInt8))} {rest : List UInt8}
    (hline : newline ∉ line) (hheader : readHeader (chars line) = some header)
    (hsizes : ∀ planes ∈ frames, planes.map List.length = header.planeSizes)
    (hrest : readFrame header.planeSizes rest = none) :
    read (line ++ newline :: (frames.flatMap frameBytes ++ rest)) = some ⟨header, frames, rest⟩ := by
  have hfuel : frames.length ≤ (frames.flatMap frameBytes ++ rest).length := by
    have hle := length_le_flatMap frames
    rw [List.length_append]
    omega
  have hframes := readFrames_flatMap hsizes hrest hfuel
  rw [read, readLine_append hline]
  simp only [Option.bind_eq_bind, Option.bind_some, hheader, hframes]

end Y4m
