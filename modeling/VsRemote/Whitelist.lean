import VsRemote.CurveKeys
import VsRemote.Lib.Base85

/-! Who is let in by a daemon that was given a whitelist. -/

namespace VsRemote

variable {z : Z85} {entry : KeyArg} {key : Bytes} {entries : List KeyArg}

theorem Denotes.allowedKey (h : Denotes z entry key) : allowedKey z entry = .ok key := by
  cases entry with
  | bytes raw =>
    obtain ⟨hlength, rfl | hencode⟩ := h
    · simp only [VsRemote.allowedKey, hlength, List.mem_cons, true_or, not_true, if_false, if_true]
    · obtain ⟨text, htext, hforty, _⟩ := z.encode_key hlength
      cases hencode.symm.trans htext
      have hdecode := (z.decode_encode hlength htext).1
      simp [VsRemote.allowedKey, hforty, hdecode]
  | str text =>
    obtain ⟨hlength, raw, hencode, rfl⟩ := h
    obtain ⟨text, htext, hforty, _⟩ := z.encode_key hlength
    cases hencode.symm.trans htext
    have hascii : (asciiText raw).length = 40 := by rw [asciiText, List.length_map, hforty]
    rw [VsRemote.allowedKey, if_neg (not_not_intro hascii)]
    exact (z.decode_encode hlength htext).2

theorem denotes_iff (h : ∃ key, Denotes z entry key) : Denotes z entry key ↔ allowedKey z entry = .ok key := by
  refine ⟨Denotes.allowedKey, fun hkey => ?_⟩
  obtain ⟨own, hown⟩ := h
  cases hown.allowedKey.symm.trans hkey
  exact hown

theorem mem_allowedKeys {keys : Finset Bytes} (h : allowedKeys z entries = .ok keys) :
    key ∈ keys ↔ ∃ entry ∈ entries, allowedKey z entry = .ok key := by
  induction entries generalizing keys with
  | nil =>
    cases h
    simp
  | cons entry entries ih =>
    rw [allowedKeys] at h
    cases hfirst : allowedKey z entry with
    | error e => rw [hfirst] at h; cases h
    | ok first =>
      cases hrest : allowedKeys z entries with
      | error e => rw [hfirst, hrest] at h; cases h
      | ok rest =>
        rw [hfirst, hrest] at h
        cases h
        rw [Finset.mem_insert, ih hrest]
        simp [hfirst, eq_comm]

theorem validateCurveKey_ok {curveKey : Option KeyArg} {name : String} {key : Option Bytes}
    (h : validateCurveKey curveKey name = .ok key) (hgiven : curveKey.isSome = true) : truthyKey key = true := by
  have htruthy : ∀ {raw : Bytes} {n : Nat}, raw.length = n → 0 < n → truthyKey (some raw) = true := by
    intro raw n hlength hpos
    cases raw with
    | nil =>
      rw [List.length_nil] at hlength
      omega
    | cons _ _ => rfl
  obtain _ | text | raw := curveKey
  · cases hgiven
  · by_cases hlength : text.length ≠ 40
    · rw [validateCurveKey, if_pos hlength] at h
      cases h
    · rw [validateCurveKey, if_neg hlength, PyStr.encodeAscii] at h
      by_cases hascii : text.isAscii = true
      · rw [if_pos hascii] at h
        cases h
        exact htruthy (List.length_map _) (by omega)
      · rw [if_neg hascii] at h
        cases h
  · by_cases hlength : raw.length ∉ [32, 40]
    · rw [validateCurveKey, if_pos hlength] at h
      cases h
    · rw [validateCurveKey, if_neg hlength] at h
      cases h
      have hmem : raw.length ∈ [32, 40] := not_not.1 hlength
      have hlengths : raw.length = 32 ∨ raw.length = 40 := by simpa using hmem
      exact htruthy rfl (by omega)

theorem CurveKeys.init_fields {secret public_ : Option KeyArg} {entries : Option (List KeyArg)} {keys : CurveKeys}
    (h : CurveKeys.init z secret public_ entries = .ok keys) :
    ¬(entries.isSome = true ∧ secret.isNone = true) ∧
      validateCurveKey secret "curve_secret_key" = .ok keys.curveSecretKey ∧
      allowedKeys z (entries.getD []) = .ok keys.curveAllowedKeys := by
  unfold CurveKeys.init at h
  by_cases hpublic : public_.isSome = true ∧ secret.isNone = true
  · rw [if_pos hpublic] at h
    cases h
  · rw [if_neg hpublic] at h
    by_cases hentries : entries.isSome = true ∧ secret.isNone = true
    · rw [if_pos hentries] at h
      cases h
    · rw [if_neg hentries] at h
      cases hsecret : validateCurveKey secret "curve_secret_key" with
      | error e => rw [hsecret] at h; cases h
      | ok key =>
        cases hkey : validateCurveKey public_ "curve_public_key" with
        | error e => rw [hsecret, hkey] at h; cases h
        | ok publicKey =>
          cases hallowed : validateCurveAllowedKeys z entries with
          | error e => rw [hsecret, hkey, hallowed] at h; cases h
          | ok allowed =>
            rw [hsecret, hkey, hallowed] at h
            cases h
            exact ⟨hentries, rfl, hallowed⟩

/-- With a whitelist the constructor asks for a secret key. -/
theorem CurveKeys.init_ok {secret public_ : Option KeyArg} {keys : CurveKeys}
    (h : CurveKeys.init z secret public_ (some entries) = .ok keys) :
    truthyKey keys.curveSecretKey = true ∧ allowedKeys z entries = .ok keys.curveAllowedKeys := by
  obtain ⟨hgiven, hsecret, hallowed⟩ := CurveKeys.init_fields h
  have hsome : secret.isSome = true := by
    rw [← Option.not_isNone, Bool.not_eq_true']
    exact Bool.eq_false_iff.2 (fun hnone => hgiven ⟨rfl, hnone⟩)
  exact ⟨validateCurveKey_ok hsecret hsome, hallowed⟩

theorem start_zapBound {keys : CurveKeys} (hsecret : truthyKey keys.curveSecretKey = true) :
    .curveServer ∈ keys.start.options ∧ (keys.start.zapBound = true ↔ keys.curveAllowedKeys ≠ ∅) := by
  rw [CurveKeys.start, hsecret]
  simp

/-- The handler answers 200 for the keys of the whitelist, and only for these. -/
theorem zapHandlerTurn_ok_iff {debug : Bool} {allowed : Finset Bytes} {r : ZapRequest} (hlength : key.length = 32) :
    (zapHandlerTurn z debug allowed (r.frames key))[2]? = some zapStatusOk ↔ key ∈ allowed := by
  obtain ⟨text, htext, _, hascii⟩ := z.encode_key hlength
  have hstatus : zapStatusErr ≠ zapStatusOk := by decide
  show (if curveMechanism = curveMechanism ∧ key ∈ allowed then _ else _ : List Bytes)[2]? = _ ↔ _
  by_cases hkey : key ∈ allowed
  · rw [if_pos ⟨rfl, hkey⟩, htext]
    refine iff_of_true ?_ hkey
    cases debug with
    | false => rfl
    | true =>
      have hall : text.all (fun x => x < 128) = true := List.all_eq_true.2 (fun x hx => decide_eq_true (hascii x hx))
      show (if text.all (fun x => x < 128) then _ else _ : List Bytes)[2]? = _
      rw [if_pos hall]
      rfl
  · rw [if_neg (fun h => hkey h.2), htext]
    refine iff_of_false (fun h => ?_) hkey
    exact hstatus (Option.some.inj h)

/-- A whitelist is enforced exactly when it is not empty. -/
theorem whitelist_enforced_iff (z : Z85) {secret public_ : Option KeyArg} {entries : List KeyArg} {keys : CurveKeys}
    (hinit : CurveKeys.init z secret public_ (some entries) = .ok keys)
    (hentries : ∀ entry ∈ entries, ∃ key, Denotes z entry key) :
    (∀ debug request key, key.length = 32 →
      (keys.Admits z debug request key ↔ ∃ entry ∈ entries, Denotes z entry key)) ↔ entries ≠ [] := by
  obtain ⟨hsecret, hallowed⟩ := CurveKeys.init_ok hinit
  obtain ⟨hserver, hbound⟩ := start_zapBound hsecret
  have hmem : ∀ key, key ∈ keys.curveAllowedKeys ↔ ∃ entry ∈ entries, Denotes z entry key := by
    intro key
    rw [mem_allowedKeys hallowed]
    refine exists_congr (fun entry => and_congr_right (fun hentry => ?_))
    exact (denotes_iff (hentries entry hentry)).symm
  constructor
  · rintro hall rfl
    have hzero := hall false ⟨[], [], [], [], []⟩ (List.replicate 32 0) (List.length_replicate)
    have hempty : keys.curveAllowedKeys = ∅ := (Except.ok.inj hallowed).symm
    obtain ⟨entry, hentry, _⟩ := hzero.1 ⟨hserver, fun hzap => absurd hempty (hbound.1 hzap)⟩
    cases hentry
  · intro hne debug request key hlength
    have hzap : keys.start.zapBound = true := by
      obtain ⟨entry, hentry⟩ := List.exists_mem_of_ne_nil entries hne
      obtain ⟨own, hown⟩ := hentries entry hentry
      exact hbound.2 (Finset.ne_empty_of_mem ((hmem own).2 ⟨entry, hentry, hown⟩))
    rw [← hmem key, ← zapHandlerTurn_ok_iff hlength]
    exact ⟨fun h => h.2 hzap, fun h => ⟨hserver, fun _ => h⟩⟩

/-- The alphabet of Z85: digits, letters and `.-:+=^!/*?&<>()[]`, curly brackets and `@%$#`. -/
def z85Chars : Bytes :=
  (List.range' 48 10 ++ List.range' 97 26 ++ List.range' 65 26).map UInt8.ofNat ++
    [46, 45, 58, 43, 61, 94, 33, 47, 42, 63, 38, 60, 62, 40, 41, 91, 93, 123, 125, 64, 37, 36, 35]

theorem nodup_z85Chars : z85Chars.Nodup := by decide +kernel

theorem ascii_z85Chars : ∀ x ∈ z85Chars, x < 128 := by decide +kernel

def z85Decode (text : Bytes) : Except PyExc Bytes :=
  match Base85.decode z85Chars text with
  | some raw => .ok raw
  | none => .error (.ofText .valueError "not a Z85 text")

theorem z85Decode_encode {key text : Bytes} (h : Base85.encode z85Chars key = some text) : z85Decode text = .ok key := by
  rw [z85Decode, Base85.decode_encode nodup_z85Chars rfl h]

theorem encodeAscii_asciiText {text : Bytes} (h : ∀ x ∈ text, x < 128) : (asciiText text).encodeAscii = .ok text := by
  have hall : (asciiText text).isAscii = true := by
    rw [PyStr.isAscii, List.all_eq_true]
    intro c hc
    obtain ⟨x, hx, rfl⟩ := List.mem_map.1 hc
    exact decide_eq_true (UInt8.lt_iff_toNat_lt.1 (h x hx))
  have hback : (asciiText text).map (fun c => UInt8.ofNat c.val) = text := by
    rw [asciiText, List.map_map]
    conv_rhs => rw [← List.map_id text]
    exact List.map_congr_left (fun x _ => UInt8.ofNat_toNat)
  rw [PyStr.encodeAscii, if_pos hall, hback]

def realZ85 : Z85 where
  encode raw :=
    match Base85.encode z85Chars raw with
    | some text => .ok text
    | none => .error (.ofText .valueError "length must be multiple of 4")
  decode
    | .bytes text => z85Decode text
    | .str text => text.encodeAscii.bind z85Decode
  encode_key {key} hlength := by
    obtain ⟨text, htext, hforty, hmem⟩ := Base85.encode_groups (n := 8) (show z85Chars.length = 85 from rfl) hlength
    exact ⟨text, by rw [htext], hforty, fun x hx => ascii_z85Chars x (hmem x hx)⟩
  decode_encode {key text} hlength hencode := by
    obtain ⟨text', htext, _, hmem⟩ := Base85.encode_groups (n := 8) (show z85Chars.length = 85 from rfl) hlength
    rw [htext] at hencode
    cases hencode
    refine ⟨z85Decode_encode htext, ?_⟩
    show (asciiText text).encodeAscii.bind z85Decode = .ok key
    rw [encodeAscii_asciiText (fun x hx => ascii_z85Chars x (hmem x hx))]
    exact z85Decode_encode htext

def serverSecret : KeyArg := .bytes (List.replicate 32 1)

def helloKey : Bytes := (List.replicate 4 [0x86, 0x4F, 0xD2, 0x6F, 0xB5, 0x59, 0xF7, 0x5B]).flatten

def helloText : Bytes := (List.replicate 4 (encodeAscii "HelloWorld")).flatten

theorem denotes_hello : Denotes realZ85 (.str (asciiText helloText)) helloKey :=
  ⟨rfl, helloText, by decide +kernel, rfl⟩

def helloKeys : CurveKeys := ⟨some (List.replicate 32 1), none, insert helloKey ∅⟩

theorem init_helloKeys :
    CurveKeys.init realZ85 (some serverSecret) none (some [.str (asciiText helloText)]) = .ok helloKeys := by
  have hallowed : validateCurveAllowedKeys realZ85 (some [.str (asciiText helloText)]) = .ok (insert helloKey ∅) := by
    rw [validateCurveAllowedKeys, Option.getD_some, allowedKeys, denotes_hello.allowedKey]
    rfl
  have hsecret : validateCurveKey (some serverSecret) "curve_secret_key" = .ok (some (List.replicate 32 1)) := rfl
  rw [CurveKeys.init, if_neg (by simp), if_neg (by simp), hallowed, hsecret]
  rfl

/-- One key, given as a `str` in Z85: it is let in, and no other. -/
theorem whitelist_enforced_iff_hello :
    CurveKeys.init realZ85 (some serverSecret) none (some [.str (asciiText helloText)]) = .ok helloKeys ∧
      ∀ debug request key, key.length = 32 → (helloKeys.Admits realZ85 debug request key ↔ key = helloKey) := by
  refine ⟨init_helloKeys, fun debug request key hlength => ?_⟩
  have hentries : ∀ entry ∈ [KeyArg.str (asciiText helloText)], ∃ key, Denotes realZ85 entry key :=
    List.forall_mem_singleton.2 ⟨helloKey, denotes_hello⟩
  have hiff := whitelist_enforced_iff realZ85 init_helloKeys hentries
  refine (hiff.2 (List.cons_ne_nil _ _) debug request key hlength).trans ?_
  constructor
  · rintro ⟨entry, hentry, hkey⟩
    rw [List.mem_singleton.1 hentry] at hkey
    exact Except.ok.inj (hkey.allowedKey.symm.trans denotes_hello.allowedKey)
  · rintro rfl
    exact ⟨_, List.mem_singleton_self _, denotes_hello⟩

/-- The empty whitelist passes the constructor, and the daemon lets every client in. -/
theorem empty_whitelist_admits :
    ∃ keys, CurveKeys.init realZ85 (some serverSecret) none (some []) = .ok keys ∧
      ¬ ∀ debug request key, key.length = 32 →
        (keys.Admits realZ85 debug request key ↔ ∃ entry ∈ ([] : List KeyArg), Denotes realZ85 entry key) := by
  refine ⟨_, rfl, fun hall => ?_⟩
  obtain ⟨entry, hentry, _⟩ := (hall false ⟨[], [], [], [], []⟩ helloKey rfl).1 ⟨by decide, fun hzap => by cases hzap⟩
  cases hentry

end VsRemote
