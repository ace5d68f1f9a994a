import VsRemote.CopyPlane
import VsRemote.Envelopes

/-! `fetch_frame` of the client, from the decoded reply to the copies it makes,
and when these stay in bounds. -/

namespace VsRemote

/-- The frame a plane is copied into: a copy of the blank frame. -/
structure LocalFrame where
  planes : List FramePlane

structure PlaneCall where
  info : PlaneInfo
  plane : FramePlane
  decompressed : Bytes
  copies : List CopyOp

def listGet {α : Type} (xs : List α) (i : Nat) : Except PyExc α :=
  match xs[i]? with
  | some a => .ok a
  | none => .error (.ofText .indexError "list index out of range")

def getPlane (f : LocalFrame) (p : Nat) : Except PyExc FramePlane :=
  match f.planes[p]? with
  | some plane => .ok plane
  | none => .error (.ofText .indexError "Specified plane index out of range")

section

variable (z : Zstd) (info : ClipInfo) (f : LocalFrame) (header : FrameHeader) (parts : List Bytes)

/-- One turn of the copy loop. -/
def copyPart (p : Nat) : Except PyExc PlaneCall := do
  let planeInfo ← listGet info.planes p
  let plane ← getPlane f p
  let part ← listGet parts p
  let decompressed ← decompressPlane z part header.compression
  let copies ← copyPlane (some plane.ptr) planeInfo.width planeInfo.height planeInfo.bytesPerSample
    plane.stride
  pure ⟨planeInfo, plane, decompressed, copies⟩

/-- The rest of the copy loop, from plane `p` on: the calls made and how it ends. -/
def copyParts : Nat → Nat → List PlaneCall × Except PyExc Unit
  | 0, _ => ([], .ok ())
  | left + 1, p =>
    match copyPart z info f header parts p with
    | .error e => ([], .error e)
    | .ok call =>
      let rest := copyParts left (p + 1)
      (call :: rest.1, rest.2)

/-- `fetch_frame` once the reply is there; `props` is the outcome of
`f_out.props.update(header.props)`. -/
def fetchFrame (n outputIndex : Int) (props : Except PyExc Unit) :
    List PlaneCall × Except ClientError Unit :=
  match header.status.raiseForStatus ("Failed to fetch remote frame (n=" ++ toString n ++ ", output=" ++
      toString outputIndex ++ "):\n" ++ header.errorMessage) none with
  | .error e => ([], .error e)
  | .ok _ =>
    match props with
    | .error e => ([], .error (.raised e))
    | .ok _ =>
      let r := copyParts z info f header parts info.numPlanes.toNat 0
      (r.1, match r.2 with
        | .ok _ => .ok ()
        | .error e => .error (.raised e))

/-- The loop comes to plane `p`: no earlier plane raised. -/
def Reaches (p : Nat) : Prop := ∀ q < p, ∃ call, copyPart z info f header parts q = .ok call

/-- Every part that is copied has the rows of its plane, and its local plane
has room for them. -/
def PartsFit (props : Except PyExc Unit) : Prop :=
  header.status = .ok → props = .ok () → ∀ (p : Nat) (planeInfo : PlaneInfo) (plane : FramePlane)
    (part decompressed : Bytes), p < info.numPlanes.toNat → Reaches z info f header parts p →
    info.planes[p]? = some planeInfo → f.planes[p]? = some plane → parts[p]? = some part →
    decompressPlane z part header.compression = .ok decompressed →
    (copyPlane (some plane.ptr) planeInfo.width planeInfo.height planeInfo.bytesPerSample
      plane.stride).isOk = true →
    PlaneFits decompressed.length plane planeInfo.width.toNat planeInfo.height.toNat
      planeInfo.bytesPerSample.toNat

end

variable {z : Zstd} {info : ClipInfo} {f : LocalFrame} {header : FrameHeader} {parts : List Bytes}

theorem listGet_ok {α : Type} {xs : List α} {i : Nat} {a : α} : listGet xs i = .ok a ↔ xs[i]? = some a := by
  unfold listGet
  cases xs[i]? with
  | none => exact iff_of_false (fun h => by cases h) (fun h => by cases h)
  | some b => simp

theorem getPlane_ok {p : Nat} {plane : FramePlane} : getPlane f p = .ok plane ↔ f.planes[p]? = some plane := by
  unfold getPlane
  cases f.planes[p]? with
  | none => exact iff_of_false (fun h => by cases h) (fun h => by cases h)
  | some b => simp

theorem usizeArg_ok {n : Int} {m : Nat} (h : usizeArg n = .ok m) : m = n.toNat := by
  unfold usizeArg at h
  split at h
  · cases h
  · split at h
    · exact (Except.ok.inj h).symm
    · cases h

theorem isizeArg_ok {n m : Int} (h : isizeArg n = .ok m) : m = n := by
  unfold isizeArg at h
  split at h
  · exact (Except.ok.inj h).symm
  · cases h

theorem bind_ok {α β : Type} {x : Except PyExc α} {k : α → Except PyExc β} {b : β} (h : x >>= k = .ok b) :
    ∃ a, x = .ok a ∧ k a = .ok b := by
  cases x with
  | error e => cases h
  | ok a => exact ⟨a, rfl, h⟩

theorem copyPlane_ok {addr : Nat} {width height bps stride : Int} {ops : List CopyOp}
    (h : copyPlane (some addr) width height bps stride = .ok ops) :
    ops = planeCopies addr width.toNat height.toNat bps.toNat stride := by
  unfold copyPlane at h
  obtain ⟨w, hw, h₁⟩ := bind_ok h
  obtain ⟨ht, hht, h₂⟩ := bind_ok h₁
  obtain ⟨b, hb, h₃⟩ := bind_ok h₂
  obtain ⟨st, hst, h₄⟩ := bind_ok h₃
  rw [usizeArg_ok hw, usizeArg_ok hht, usizeArg_ok hb, isizeArg_ok hst] at h₄
  by_cases hnull : addr = 0
  · subst hnull
    cases h₄
  · rw [Option.filter_some, if_pos (by simpa using hnull)] at h₄
    exact (Except.ok.inj h₄).symm

theorem copyPart_ok {p : Nat} {call : PlaneCall} (h : copyPart z info f header parts p = .ok call) :
    info.planes[p]? = some call.info ∧ f.planes[p]? = some call.plane ∧
      (∃ part, parts[p]? = some part ∧ decompressPlane z part header.compression = .ok call.decompressed) ∧
      copyPlane (some call.plane.ptr) call.info.width call.info.height call.info.bytesPerSample
        call.plane.stride = .ok call.copies := by
  obtain ⟨planeInfo, hinfo, h⟩ := bind_ok h
  obtain ⟨plane, hplane, h⟩ := bind_ok h
  obtain ⟨part, hpart, h⟩ := bind_ok h
  obtain ⟨decompressed, hdec, h⟩ := bind_ok h
  obtain ⟨copies, hcopies, h⟩ := bind_ok h
  obtain rfl := Except.ok.inj h
  exact ⟨listGet_ok.1 hinfo, getPlane_ok.1 hplane, ⟨part, listGet_ok.1 hpart, hdec⟩, hcopies⟩

theorem mem_copyParts {left p : Nat} {call : PlaneCall} :
    call ∈ (copyParts z info f header parts left p).1 ↔ ∃ q, p ≤ q ∧ q < p + left ∧
      (∀ q', p ≤ q' → q' < q → ∃ c, copyPart z info f header parts q' = .ok c) ∧
      copyPart z info f header parts q = .ok call := by
  induction left generalizing p with
  | zero =>
    refine iff_of_false List.not_mem_nil ?_
    rintro ⟨q, hle, hlt, -⟩
    omega
  | succ left ih =>
    cases hturn : copyPart z info f header parts p with
    | error e =>
      simp only [copyParts, hturn]
      refine iff_of_false List.not_mem_nil ?_
      rintro ⟨q, hle, -, hbefore, hq⟩
      by_cases heq : p = q
      · subst heq
        rw [hturn] at hq
        cases hq
      · obtain ⟨c, hc⟩ := hbefore p le_rfl (by omega)
        rw [hturn] at hc
        cases hc
    | ok first =>
      simp only [copyParts, hturn, List.mem_cons, ih]
      constructor
      · rintro (rfl | ⟨q, hle, hlt, hbefore, hq⟩)
        · exact ⟨p, le_rfl, by omega, fun q' h h' => by omega, hturn⟩
        · refine ⟨q, by omega, by omega, fun q' h h' => ?_, hq⟩
          by_cases heq : q' = p
          · exact ⟨first, heq ▸ hturn⟩
          · exact hbefore q' (by omega) h'
      · rintro ⟨q, hle, hlt, hbefore, hq⟩
        by_cases heq : q = p
        · subst heq
          rw [hturn] at hq
          exact .inl (Except.ok.inj hq).symm
        · exact .inr ⟨q, by omega, by omega, fun q' h h' => hbefore q' (by omega) h', hq⟩

theorem mem_fetchFrame {n outputIndex : Int} {props : Except PyExc Unit} {call : PlaneCall} :
    call ∈ (fetchFrame z info f header parts n outputIndex props).1 ↔ header.status = .ok ∧ props = .ok () ∧
      ∃ p < info.numPlanes.toNat, Reaches z info f header parts p ∧
        copyPart z info f header parts p = .ok call := by
  unfold fetchFrame StatusCode.raiseForStatus
  cases hcls : header.status.exceptionCls with
  | some cls =>
    refine iff_of_false List.not_mem_nil ?_
    rintro ⟨hok, -⟩
    rw [StatusCode.exceptionCls_eq_none_iff.2 hok] at hcls
    cases hcls
  | none =>
    have hok := StatusCode.exceptionCls_eq_none_iff.1 hcls
    cases props with
    | error e =>
      refine iff_of_false List.not_mem_nil ?_
      rintro ⟨-, hp, -⟩
      cases hp
    | ok _ =>
      simp only [mem_copyParts, hok, true_and, Nat.zero_le, Nat.zero_add, forall_const, Reaches]

/-- For every clip info, local frame and reply: the copies `fetch_frame` makes
read inside the decompressed part and write inside the local plane exactly when
the parts fit. -/
theorem copies_in_bounds_iff {n outputIndex : Int} {props : Except PyExc Unit} :
    (∀ call ∈ (fetchFrame z info f header parts n outputIndex props).1, ∀ op ∈ call.copies,
      op.InBounds call.decompressed.length call.plane) ↔ PartsFit z info f header parts props := by
  constructor
  · intro hall hok hprops p planeInfo plane part decompressed hp hreach hinfo hplane hpart hdec hcopy
    cases hcopies : copyPlane (some plane.ptr) planeInfo.width planeInfo.height planeInfo.bytesPerSample
        plane.stride with
    | error e =>
      rw [hcopies] at hcopy
      cases hcopy
    | ok ops =>
      have hturn : copyPart z info f header parts p = .ok ⟨planeInfo, plane, decompressed, ops⟩ := by
        simp only [copyPart, listGet_ok.2 hinfo, getPlane_ok.2 hplane, listGet_ok.2 hpart, hdec, hcopies,
          bind, Except.bind, pure, Except.pure]
      have hin := hall _ (mem_fetchFrame.2 ⟨hok, hprops, p, hp, hreach, hturn⟩)
      simp only [copyPlane_ok hcopies] at hin
      exact planeCopies_inBounds_iff.1 hin
  · intro hfit call hcall
    obtain ⟨hok, hprops, p, hp, hreach, hturn⟩ := mem_fetchFrame.1 hcall
    obtain ⟨hinfo, hplane, ⟨part, hpart, hdec⟩, hcopies⟩ := copyPart_ok hturn
    have hplaneFits := hfit hok hprops p call.info call.plane part call.decompressed hp hreach hinfo hplane
      hpart hdec (by rw [hcopies]; rfl)
    rw [copyPlane_ok hcopies]
    exact planeCopies_inBounds_iff.2 hplaneFits

/-- What VapourSynth makes of a clip info: planes with room for its rows. -/
def HasRoom (f : LocalFrame) (info : ClipInfo) : Prop :=
  ∀ (p : Nat) (planeInfo : PlaneInfo) (plane : FramePlane), info.planes[p]? = some planeInfo →
    f.planes[p]? = some plane → planeInfo.width.toNat * planeInfo.bytesPerSample.toNat ≤ plane.stride ∧
      planeInfo.height.toNat ≤ plane.height

/-- Parts as long as the planes of the clip info, into a frame made of it. -/
theorem partsFit_of_room {props : Except PyExc Unit} (hroom : HasRoom f info)
    (hlen : ∀ (p : Nat) (planeInfo : PlaneInfo) (part decompressed : Bytes), info.planes[p]? = some planeInfo →
      parts[p]? = some part → decompressPlane z part header.compression = .ok decompressed →
      planeInfo.width.toNat * planeInfo.bytesPerSample.toNat * planeInfo.height.toNat ≤ decompressed.length) :
    PartsFit z info f header parts props := by
  intro _ _ p planeInfo plane part decompressed _ _ hinfo hplane hpart hdec _
  obtain ⟨hrow, hheight⟩ := hroom p planeInfo plane hinfo hplane
  have hstride := plane.strideFits
  exact planeFits_of_rows (hlen p planeInfo part decompressed hinfo hpart hdec) (by omega) hrow hheight

def twoRows : FramePlane where
  ptr := 4096
  stride := 32
  height := 2
  notNull := by decide
  ptrFits := by decide
  strideFits := by decide
  sizeFits := by decide
  inSpace := by decide

def grayInfo : ClipInfo :=
  ⟨2, 2, 24, 1, 1, 268959744, "Gray8", 1, 1, 8, 0, 0, 0, 1, [⟨2, 2, 1, 4⟩], "Output 0"⟩

def onePixel : VideoFrame := ⟨0, 1, [⟨1, 1, 1, 1, fun _ => 7⟩], []⟩

def onePixelHeader : FrameHeader := { status := .ok, reqId := 1, n := 0, outputIndex := 0, compression := .none }

/-- The clip info is of a clip of 2x2 pixels, the frame was rendered after a
reload to one pixel: the copy reads past the end of the part. -/
theorem reloaded_frame_reads_past_part :
    ClipInfo.fromClip (.gray8 1 2 2) "Output 0" = .ok grayInfo ∧
    extractAndCompressPlanes ⟨id, .ok⟩ onePixel .none 1 = .ok ([[7]], 1) ∧
    ¬ ∀ call ∈ (fetchFrame ⟨id, .ok⟩ grayInfo ⟨[twoRows]⟩ onePixelHeader [[7]] 0 0 (.ok ())).1,
      ∀ op ∈ call.copies, op.InBounds call.decompressed.length call.plane := by
  refine ⟨rfl, rfl, fun hall => ?_⟩
  have hcalls : (fetchFrame ⟨id, .ok⟩ grayInfo ⟨[twoRows]⟩ onePixelHeader [[7]] 0 0 (.ok ())).1 =
      [⟨⟨2, 2, 1, 4⟩, twoRows, [7], [⟨0, 4096, 2⟩, ⟨2, 4128, 2⟩]⟩] := rfl
  rw [hcalls] at hall
  have hfirst := hall _ (List.mem_singleton.2 rfl) ⟨0, 4096, 2⟩ (List.mem_cons_self ..)
  have hread : 0 + 1 < [(7 : UInt8)].length := (hfirst 1 (by decide)).1
  exact absurd hread (by decide)

end VsRemote
