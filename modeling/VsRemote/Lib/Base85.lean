import Mathlib.Tactic.Common

/-! Base 85 over an alphabet of 85 bytes: four bytes, read as one big-endian
number, are five digits. -/

namespace Base85

def groupValue (a b c d : UInt8) : Nat := ((a.toNat * 256 + b.toNat) * 256 + c.toNat) * 256 + d.toNat

def groupBytes (v : Nat) : List UInt8 :=
  [UInt8.ofNat (v / 16777216), UInt8.ofNat (v / 65536), UInt8.ofNat (v / 256), UInt8.ofNat v]

def digits (v : Nat) : List Nat :=
  [v / 52200625 % 85, v / 614125 % 85, v / 7225 % 85, v / 85 % 85, v % 85]

def ofDigits (ds : List Nat) : Nat := ds.foldl (fun v d => v * 85 + d) 0

variable (alphabet : List UInt8)

def encodeGroup (v : Nat) : List UInt8 := (digits v).map (fun i => alphabet.getD i 0)

def encode : List UInt8 → Option (List UInt8)
  | [] => some []
  | a :: b :: c :: d :: rest =>
    (encode rest).map (encodeGroup alphabet (groupValue a b c d) ++ ·)
  | _ => none

/-- A group of digits that is no number of four bytes has no value. -/
def decode : List UInt8 → Option (List UInt8)
  | [] => some []
  | a :: b :: c :: d :: e :: rest =>
    if (∀ x ∈ [a, b, c, d, e], x ∈ alphabet) ∧ ofDigits ([a, b, c, d, e].map alphabet.idxOf) < 4294967296 then
      (decode rest).map (groupBytes (ofDigits ([a, b, c, d, e].map alphabet.idxOf)) ++ ·)
    else none
  | _ => none

variable {alphabet} {raw text : List UInt8}

theorem groupValue_lt (a b c d : UInt8) : groupValue a b c d < 4294967296 := by
  have ha := a.toNat_lt
  have hb := b.toNat_lt
  have hc := c.toNat_lt
  have hd := d.toNat_lt
  unfold groupValue
  omega

theorem groupBytes_groupValue (a b c d : UInt8) : groupBytes (groupValue a b c d) = [a, b, c, d] := by
  have hofNat : ∀ (x : UInt8) (n : Nat), n % 256 = x.toNat → UInt8.ofNat n = x := by
    intro x n h
    apply UInt8.toNat_inj.1
    rw [UInt8.toNat_ofNat']
    exact h
  have ha := a.toNat_lt
  have hb := b.toNat_lt
  have hc := c.toNat_lt
  have hd := d.toNat_lt
  have hvalue : groupValue a b c d = ((a.toNat * 256 + b.toNat) * 256 + c.toNat) * 256 + d.toNat := rfl
  rw [groupBytes, hofNat a _ (by omega), hofNat b _ (by omega), hofNat c _ (by omega), hofNat d _ (by omega)]

theorem ofDigits_digits {v : Nat} (h : v < 4294967296) : ofDigits (digits v) = v := by
  have h1 : v / 7225 = v / 85 / 85 := by omega
  have h2 : v / 614125 = v / 85 / 85 / 85 := by omega
  have h3 : v / 52200625 = v / 85 / 85 / 85 / 85 := by omega
  simp only [ofDigits, digits, List.foldl_cons, List.foldl_nil, h1, h2, h3]
  omega

theorem digits_lt {v i : Nat} (h : i ∈ digits v) : i < 85 := by
  simp only [digits, List.mem_cons, List.not_mem_nil, or_false] at h
  omega

theorem getD_mem {i : Nat} (hlength : alphabet.length = 85) (h : i < 85) : alphabet.getD i 0 ∈ alphabet := by
  rw [List.getD_eq_getElem?_getD, List.getElem?_eq_getElem (hlength ▸ h), Option.getD_some]
  exact List.getElem_mem _

theorem idxOf_getD {i : Nat} (hnodup : alphabet.Nodup) (hlength : alphabet.length = 85) (h : i < 85) :
    alphabet.idxOf (alphabet.getD i 0) = i := by
  rw [List.getD_eq_getElem?_getD, List.getElem?_eq_getElem (hlength ▸ h), Option.getD_some]
  exact hnodup.idxOf_getElem i _

theorem mem_encodeGroup {v : Nat} {x : UInt8} (hlength : alphabet.length = 85) (hx : x ∈ encodeGroup alphabet v) :
    x ∈ alphabet := by
  obtain ⟨i, hi, rfl⟩ := List.mem_map.1 hx
  exact getD_mem hlength (digits_lt hi)

theorem map_idxOf_encodeGroup {v : Nat} (hnodup : alphabet.Nodup) (hlength : alphabet.length = 85) :
    (encodeGroup alphabet v).map alphabet.idxOf = digits v := by
  rw [encodeGroup, List.map_map]
  conv_rhs => rw [← List.map_id (digits v)]
  exact List.map_congr_left (fun i hi => idxOf_getD hnodup hlength (digits_lt hi))

theorem decode_encodeGroup {v : Nat} (hnodup : alphabet.Nodup) (hlength : alphabet.length = 85) (hv : v < 4294967296) :
    decode alphabet (encodeGroup alphabet v ++ text) = (decode alphabet text).map (groupBytes v ++ ·) := by
  have hvalue : ofDigits ((encodeGroup alphabet v).map alphabet.idxOf) = v := by
    rw [map_idxOf_encodeGroup hnodup hlength, ofDigits_digits hv]
  have hvalid : (∀ x ∈ encodeGroup alphabet v, x ∈ alphabet) ∧
      ofDigits ((encodeGroup alphabet v).map alphabet.idxOf) < 4294967296 :=
    ⟨fun x hx => mem_encodeGroup hlength hx, hvalue.symm ▸ hv⟩
  show (if (∀ x ∈ encodeGroup alphabet v, x ∈ alphabet) ∧
      ofDigits ((encodeGroup alphabet v).map alphabet.idxOf) < 4294967296 then
    (decode alphabet text).map (groupBytes (ofDigits ((encodeGroup alphabet v).map alphabet.idxOf)) ++ ·) else none) = _
  rw [if_pos hvalid, hvalue]

/-- Decoding what was encoded gives it back. -/
theorem decode_encode (hnodup : alphabet.Nodup) (hlength : alphabet.length = 85)
    (h : encode alphabet raw = some text) : decode alphabet text = some raw := by
  induction raw using encode.induct generalizing text with
  | case1 => exact Option.some.inj h ▸ rfl
  | case2 a b c d rest ih =>
    obtain ⟨text, hrest, rfl⟩ := Option.map_eq_some_iff.1 h
    rw [decode_encodeGroup hnodup hlength (groupValue_lt a b c d), ih hrest, groupBytes_groupValue]
    rfl
  | case3 raw hnil hgroup =>
    rw [encode] at h
    · cases h
    · exact hnil
    · exact hgroup

/-- Whole groups are encoded, each as five bytes of the alphabet. -/
theorem encode_groups {n : Nat} (hlength : alphabet.length = 85) (h : raw.length = 4 * n) :
    ∃ text, encode alphabet raw = some text ∧ text.length = 5 * n ∧ ∀ x ∈ text, x ∈ alphabet := by
  induction n generalizing raw with
  | zero =>
    cases List.eq_nil_of_length_eq_zero h
    exact ⟨[], rfl, rfl, nofun⟩
  | succ n ih =>
    obtain _ | ⟨a, _ | ⟨b, _ | ⟨c, _ | ⟨d, rest⟩⟩⟩⟩ := raw
    iterate 4 simp only [List.length_cons, List.length_nil] at h; omega
    have hlengthRest : rest.length = 4 * n := by
      simp only [List.length_cons] at h
      omega
    obtain ⟨text, hrest, htext, hmem⟩ := ih hlengthRest
    refine ⟨encodeGroup alphabet (groupValue a b c d) ++ text, by rw [encode, hrest]; rfl, ?_, fun x hx => ?_⟩
    · rw [List.length_append, htext, encodeGroup, List.length_map]
      show 5 + 5 * n = 5 * (n + 1)
      omega
    · obtain hgroup | hrest := List.mem_append.1 hx
      · exact mem_encodeGroup hlength hgroup
      · exact hmem x hrest

/-- Five digits of the text are four bytes. -/
theorem decode_length (h : decode alphabet text = some raw) : 5 * raw.length = 4 * text.length := by
  induction text using decode.induct alphabet generalizing raw with
  | case1 =>
    cases h
    rfl
  | case2 a b c d e rest hvalid ih =>
    have hgroup : (if (∀ x ∈ [a, b, c, d, e], x ∈ alphabet) ∧ ofDigits ([a, b, c, d, e].map alphabet.idxOf) < 4294967296 then
      (decode alphabet rest).map (groupBytes (ofDigits ([a, b, c, d, e].map alphabet.idxOf)) ++ ·) else none) = some raw := h
    rw [if_pos hvalid] at hgroup
    obtain ⟨bytes, hrest, rfl⟩ := Option.map_eq_some_iff.1 hgroup
    have hlength := ih hrest
    rw [List.length_append, groupBytes]
    simp only [List.length_cons, List.length_nil]
    omega
  | case3 a b c d e rest hinvalid =>
    have hgroup : (if (∀ x ∈ [a, b, c, d, e], x ∈ alphabet) ∧ ofDigits ([a, b, c, d, e].map alphabet.idxOf) < 4294967296 then
      (decode alphabet rest).map (groupBytes (ofDigits ([a, b, c, d, e].map alphabet.idxOf)) ++ ·) else none) = some raw := h
    rw [if_neg hinvalid] at hgroup
    cases hgroup
  | case4 text hnil hgroup =>
    obtain _ | ⟨a, _ | ⟨b, _ | ⟨c, _ | ⟨d, _ | ⟨e, rest⟩⟩⟩⟩⟩ := text
    · exact absurd rfl hnil
    iterate 4 cases (show (none : Option (List UInt8)) = some raw from h)
    exact absurd rfl (hgroup a b c d e rest)

end Base85
