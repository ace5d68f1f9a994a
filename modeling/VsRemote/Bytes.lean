import Mathlib.Tactic.Common

/-! Byte strings, text and the integers framed in them. -/

namespace VsRemote

abbrev Bytes := List UInt8

/-- `int.from_bytes(b, byteorder="big")`. -/
def intFromBytes (b : Bytes) : Nat := b.foldl (fun n x => n * 256 + x.toNat) 0

/-- `n.to_bytes(4, byteorder="big")`, for `n` below `2 ^ 32`. -/
def intToBytes4 (n : Nat) : Bytes :=
  [UInt8.ofNat (n / 16777216), UInt8.ofNat (n / 65536), UInt8.ofNat (n / 256), UInt8.ofNat n]

theorem intFromBytes_intToBytes4 {n : Nat} (h : n < 4294967296) :
    intFromBytes (intToBytes4 n) = n := by
  simp only [intFromBytes, intToBytes4, List.foldl_cons, List.foldl_nil, UInt8.toNat_ofNat']
  omega

/-- `text.encode("ascii")` of a text that has only ASCII characters. -/
def encodeAscii (text : String) : Bytes := text.toList.map (fun c => UInt8.ofNat c.toNat)

/-- A Python `str`: any sequence of code points, lone surrogates included. -/
abbrev PyStr := List (Fin 0x110000)

namespace PyStr

def ofChar (c : Char) : Fin 0x110000 :=
  ⟨c.toNat, by
    have h := c.valid
    simp only [UInt32.isValidChar, Nat.isValidChar] at h
    simp only [Char.toNat]
    omega⟩

def ofString (s : String) : PyStr := s.toList.map ofChar

def isAscii (t : PyStr) : Bool := t.all (fun c => c.val < 128)

/-- `t.encode("utf-8")`, which raises on a lone surrogate. -/
def encodeUtf8 (t : PyStr) : Option Bytes :=
  if t.all (fun c => decide c.val.isValidChar) then
    some (String.ofList (t.map (fun c => Char.ofNat c.val))).toByteArray.data.toList
  else none

/-- `b.decode("utf-8")`, which raises on bytes that are not valid UTF-8. -/
def decodeUtf8 (b : Bytes) : Option PyStr :=
  (String.fromUTF8? ⟨b.toArray⟩).map ofString

theorem toNat_ofChar (c : Char) : (ofChar c).val = c.toNat := rfl

theorem isValidChar_ofChar (c : Char) : (ofChar c).val.isValidChar := by
  exact c.valid

theorem map_ofNat_ofChar (cs : List Char) :
    (cs.map ofChar).map (fun c => Char.ofNat c.val) = cs := by
  rw [List.map_map]
  conv_rhs => rw [← List.map_id cs]
  apply List.map_congr_left
  intro c _
  simp [toNat_ofChar, Char.ofNat_toNat]

theorem map_ofChar_ofNat {t : PyStr} (h : t.all (fun c => decide c.val.isValidChar) = true) :
    (t.map (fun c => Char.ofNat c.val)).map ofChar = t := by
  rw [List.map_map]
  conv_rhs => rw [← List.map_id t]
  apply List.map_congr_left
  intro c hc
  have hv : c.val.isValidChar := of_decide_eq_true (List.all_eq_true.mp h c hc)
  apply Fin.ext
  have hof : Char.ofNat c.val = Char.ofNatAux c.val hv := dif_pos hv
  change (ofChar (Char.ofNat c.val)).val = c.val
  rw [toNat_ofChar, hof]
  exact UInt32.toNat_ofNatLT

theorem encodeUtf8_ofString (s : String) :
    encodeUtf8 (ofString s) = some s.toByteArray.data.toList := by
  have hv : (ofString s).all (fun c => decide c.val.isValidChar) = true := by
    simp only [ofString, List.all_map, List.all_eq_true]
    exact fun c _ => decide_eq_true (isValidChar_ofChar c)
  rw [encodeUtf8, if_pos hv, ofString, map_ofNat_ofChar, String.ofList_toList]

/-- Decoding undoes encoding, and only the encoding of a text decodes to it. -/
theorem decodeUtf8_eq_some_iff {b : Bytes} {t : PyStr} :
    decodeUtf8 b = some t ↔ encodeUtf8 t = some b := by
  constructor
  · intro h
    obtain ⟨s, hs, rfl⟩ := Option.map_eq_some_iff.mp h
    rw [encodeUtf8_ofString]
    unfold String.fromUTF8? at hs
    split_ifs at hs with hv
    rw [← Option.some.inj hs]
    rfl
  · intro h
    unfold encodeUtf8 at h
    split_ifs at h with hv
    have hb := Option.some.inj h
    have hs : (⟨b.toArray⟩ : ByteArray) =
        (String.ofList (t.map (fun c => Char.ofNat c.val))).toByteArray := by
      rw [← hb]
    have hvalid := (String.ofList (t.map (fun c => Char.ofNat c.val))).isValidUTF8
    rw [← hs] at hvalid
    have he : String.fromUTF8? ⟨b.toArray⟩ =
        some (String.ofList (t.map (fun c => Char.ofNat c.val))) := by
      unfold String.fromUTF8?
      rw [dif_pos hvalid]
      exact congrArg some (String.toByteArray_inj.mp hs)
    rw [decodeUtf8, he, Option.map_some, ofString, String.toList_ofList, map_ofChar_ofNat hv]

end PyStr

end VsRemote
