import VsRemote.Agreement
import VsRemote.FrameReplies
import VsRemote.PixelTransport

/-! From the clip in the runner of the server to the planes of a local frame. -/

namespace VsRemote

/-- A local frame as VapourSynth makes it for a clip info: its planes have room for the
rows and lie apart. -/
structure LocalFrame.MadeFor (f : LocalFrame) (info : ClipInfo) : Prop where
  planes : f.planes.length = info.planes.length
  room : HasRoom f info
  apart : ∀ (p q : Nat) (plane plane' : FramePlane), p ≠ q → f.planes[p]? = some plane → f.planes[q]? = some plane' →
    plane.ptr + plane.size ≤ plane'.ptr ∨ plane'.ptr + plane'.size ≤ plane.ptr

/-- The copies of the calls of `copy_plane`, one call after the other. -/
def runCalls : List PlaneCall → (Nat → UInt8) → Nat → UInt8
  | [], mem => mem
  | call :: calls, mem => runCalls calls (runCopies call.decompressed call.copies mem)

/-- The planes from `lo` on and below `hi` are in the local frame, and nothing else has changed. -/
structure HoldsPlanes (frame : VideoFrame) (f : LocalFrame) (lo hi : Nat) (mem mem' : Nat → UInt8) : Prop where
  rows : ∀ (p : Nat) (v : PlaneView) (plane : FramePlane), lo ≤ p → p < hi → frame.planes[p]? = some v →
    f.planes[p]? = some plane → ∀ x y, x < v.rowSize → y < v.height →
      mem' (plane.ptr + y * plane.stride + x) = v.mem (y * v.stride + x)
  frame : ∀ a, (∀ (p : Nat) (v : PlaneView) (plane : FramePlane), lo ≤ p → p < hi → frame.planes[p]? = some v →
    f.planes[p]? = some plane → ∀ x y, x < v.rowSize → y < v.height → a ≠ plane.ptr + y * plane.stride + x) →
      mem' a = mem a

section

variable {z : Zstd} {clip : VideoNode} {name : String} {info : ClipInfo} {f : LocalFrame} {frame : VideoFrame}
  {header : FrameHeader} {parts : List Bytes} {total p : Nat} {v : PlaneView} {plane : FramePlane}

theorem fromClip_planes (hinfo : ClipInfo.fromClip clip name = .ok info) :
    info.numPlanes = clip.format.numPlanes ∧ info.planes = (List.range clip.format.numPlanes).map
      (fun p => PlaneInfo.ofDims clip.format.bytesPerSample (planeDims clip p)) := by
  unfold ClipInfo.fromClip PlaneInfo.fromClip at hinfo
  by_cases hformat : clip.format.id = 0
  · rw [if_pos hformat] at hinfo
    cases hinfo
  · rw [if_neg hformat, if_neg hformat] at hinfo
    obtain rfl := Except.ok.inj hinfo
    exact ⟨rfl, rfl⟩

/-- The clip info names the dimensions of the planes that are rendered. -/
theorem planeInfo_of_renders (hinfo : ClipInfo.fromClip clip name = .ok info) (hrenders : frame.Renders clip)
    (hp : p < frame.numPlanes) (hv : frame.planes[p]? = some v) :
    info.planes[p]? = some ⟨v.width, v.height, v.itemsize, v.width * v.height * v.itemsize⟩ := by
  have hlt : p < clip.format.numPlanes := hrenders.numPlanes ▸ hp
  have hdims := hrenders.dims p v hv
  have hsize := hrenders.itemsize p v hv
  rw [(fromClip_planes hinfo).2, List.getElem?_map, List.getElem?_range hlt, Option.map_some, ← hdims, ← hsize]
  rfl

theorem LocalFrame.MadeFor.rows (hmade : f.MadeFor info) (hinfo : ClipInfo.fromClip clip name = .ok info)
    (hrenders : frame.Renders clip) (hp : p < frame.numPlanes) (hv : frame.planes[p]? = some v)
    (hplane : f.planes[p]? = some plane) : v.rowSize ≤ plane.stride ∧ v.height ≤ plane.height :=
  hmade.room p _ plane (planeInfo_of_renders hinfo hrenders hp hv) hplane

theorem row_in_plane (hrow : v.rowSize ≤ plane.stride) (hheight : v.height ≤ plane.height) {x y : Nat}
    (hx : x < v.rowSize) (hy : y < v.height) :
    plane.ptr + y * plane.stride + x < plane.ptr + plane.size := by
  have hlast : (y + 1) * plane.stride ≤ plane.height * plane.stride :=
    Nat.mul_le_mul_right _ (Nat.lt_of_lt_of_le hy hheight)
  rw [Nat.add_mul, Nat.one_mul] at hlast
  have hx' : x < plane.stride := Nat.lt_of_lt_of_le hx hrow
  rw [FramePlane.size, Nat.mul_comm plane.stride]
  omega

theorem copyPart_eq {planeInfo : PlaneInfo} {part decompressed : Bytes} {copies : List CopyOp}
    (hinfo : info.planes[p]? = some planeInfo) (hplane : f.planes[p]? = some plane) (hpart : parts[p]? = some part)
    (hdec : decompressPlane z part header.compression = .ok decompressed)
    (hcopies : copyPlane (some plane.ptr) planeInfo.width planeInfo.height planeInfo.bytesPerSample plane.stride =
      .ok copies) : copyPart z info f header parts p = .ok ⟨planeInfo, plane, decompressed, copies⟩ := by
  simp only [copyPart, listGet_ok.2 hinfo, getPlane_ok.2 hplane, listGet_ok.2 hpart, hdec, hcopies, bind, Except.bind,
    pure, Except.pure]

theorem copyPart_holds (hz : ∀ b, z.decompress (z.compress b) = .ok b)
    (hinfo : ClipInfo.fromClip clip name = .ok info) (hrenders : frame.Renders clip)
    (hfits : ∀ v ∈ frame.planes, v.FitsWord) (hmade : f.MadeFor info)
    (hparts : extractAndCompressPlanes z frame header.compression frame.numPlanes = .ok (parts, total))
    (hp : p < frame.numPlanes) :
    ∃ v plane call, frame.planes[p]? = some v ∧ f.planes[p]? = some plane ∧ v.rowSize ≤ plane.stride ∧
      v.height ≤ plane.height ∧ copyPart z info f header parts p = .ok call ∧
      ∀ mem, HoldsRows v plane mem (runCopies call.decompressed call.copies mem) := by
  obtain ⟨v, hv⟩ : ∃ v, frame.planes[p]? = some v := ⟨_, List.getElem?_eq_getElem (hrenders.present p hp)⟩
  have hplaneInfo := planeInfo_of_renders hinfo hrenders hp hv
  obtain ⟨plane, hplane⟩ : ∃ plane, f.planes[p]? = some plane := by
    have hlt : p < f.planes.length := hmade.planes ▸ Lookup.lt_length hplaneInfo
    exact ⟨_, List.getElem?_eq_getElem hlt⟩
  obtain ⟨hrow, hheight⟩ := hmade.rows hinfo hrenders hp hv hplane
  have hword := hfits v (List.mem_of_getElem? hv)
  obtain ⟨parts', total', hex, -, hpart⟩ := extractAndCompressPlanes_ok z header.compression hrenders.present
  obtain ⟨rfl, -⟩ := Prod.mk.inj (Except.ok.inj (hparts.symm.trans hex))
  have hcopies : copyPlane (some plane.ptr) v.width v.height v.itemsize plane.stride =
      .ok (planeCopies plane.ptr v.width v.height v.itemsize plane.stride) :=
    copyPlane_natCast hword.width hword.height hword.itemsize
  have hcopy := copyPart_eq hplaneInfo hplane (hpart p v hp hv) (decompress_extractPlane hz v header.compression) hcopies
  refine ⟨v, plane, _, hv, hplane, hrow, hheight, hcopy, fun mem => ?_⟩
  have hrows : runCopies v.raw (planeCopies plane.ptr v.width v.height v.itemsize plane.stride) mem =
      Strided.copyRows mem plane.ptr v.rowSize plane.stride (fun i => v.raw.getD i 0) v.height :=
    runCopies_plane hrow hheight
  rw [hrows]
  exact holdsRows_copyRows hrow

/-- The copy loop from plane `p` on: one call a plane, and the planes are there. -/
theorem copyParts_holds (hz : ∀ b, z.decompress (z.compress b) = .ok b)
    (hinfo : ClipInfo.fromClip clip name = .ok info) (hrenders : frame.Renders clip)
    (hfits : ∀ v ∈ frame.planes, v.FitsWord) (hmade : f.MadeFor info)
    (hparts : extractAndCompressPlanes z frame header.compression frame.numPlanes = .ok (parts, total)) (left : Nat) :
    ∀ p, p + left = frame.numPlanes → ∃ calls, copyParts z info f header parts left p = (calls, .ok ()) ∧
      calls.length = left ∧ ∀ mem, HoldsPlanes frame f p frame.numPlanes mem (runCalls calls mem) := by
  induction left with
  | zero =>
    intro p hp
    refine ⟨[], rfl, rfl, fun mem => ⟨fun q _ _ hle hlt => ?_, fun _ _ => rfl⟩⟩
    omega
  | succ left ih =>
    intro p hp
    obtain ⟨v, plane, call, hv, hplane, hrow, hheight, hcall, hholds⟩ :=
      copyPart_holds hz hinfo hrenders hfits hmade hparts (p := p) (by omega)
    obtain ⟨calls, hrest, hlen, hplanes⟩ := ih (p + 1) (by omega)
    refine ⟨call :: calls, ?_, congrArg (· + 1) hlen, fun mem => ?_⟩
    · rw [copyParts, hcall]
      simp only [hrest]
    have hfirst := hholds mem
    have hothers := hplanes (runCopies call.decompressed call.copies mem)
    constructor
    · intro q v' plane' hle hlt hv' hplane' x y hx hy
      by_cases hq : q = p
      · -- the planes after this one lie apart from it
        subst hq
        obtain rfl := Option.some.inj (hv.symm.trans hv')
        obtain rfl := Option.some.inj (hplane.symm.trans hplane')
        rw [runCalls, hothers.frame, hfirst.rows x y hx hy]
        intro q' v₂ plane₂ hle' hlt' hv₂ hplane₂ x' y' hx' hy' heq
        obtain ⟨hrow₂, hheight₂⟩ := hmade.rows hinfo hrenders hlt' hv₂ hplane₂
        have hin := row_in_plane hrow hheight hx hy
        have hin₂ := row_in_plane (v := v₂) hrow₂ hheight₂ hx' hy'
        have hapart := hmade.apart q q' plane plane₂ (by omega) hplane hplane₂
        omega
      · exact hothers.rows q v' plane' (by omega) hlt hv' hplane' x y hx hy
    · intro a ha
      rw [runCalls, hothers.frame a (fun q v' plane' hle => ha q v' plane' (by omega))]
      exact hfirst.frame a (fun x y hx hy => ha p v plane le_rfl (by omega) hv hplane x y hx hy)

/-- What `fetch_frame` makes of the parts of a frame: a call of `copy_plane` for each plane,
no error, and every sample of the frame in its place. -/
theorem fetchFrame_holds (hz : ∀ b, z.decompress (z.compress b) = .ok b)
    (hinfo : ClipInfo.fromClip clip name = .ok info) (hrenders : frame.Renders clip)
    (hfits : ∀ v ∈ frame.planes, v.FitsWord) (hmade : f.MadeFor info) (hok : header.status = .ok)
    (hparts : extractAndCompressPlanes z frame header.compression frame.numPlanes = .ok (parts, total))
    (n outputIndex : Int) :
    ∃ calls, fetchFrame z info f header parts n outputIndex (.ok ()) = (calls, .ok ()) ∧
      ∀ mem, HoldsPlanes frame f 0 frame.numPlanes mem (runCalls calls mem) := by
  have hnum : info.numPlanes.toNat = frame.numPlanes := by
    rw [(fromClip_planes hinfo).1, hrenders.numPlanes]
    rfl
  obtain ⟨calls, hcalls, -, hholds⟩ :=
    copyParts_holds hz hinfo hrenders hfits hmade hparts frame.numPlanes 0 (Nat.zero_add _)
  have hraise : header.status.exceptionCls = none := StatusCode.exceptionCls_eq_none_iff.2 hok
  refine ⟨calls, ?_, hholds⟩
  unfold fetchFrame StatusCode.raiseForStatus
  simp only [hraise, hnum, hcalls]

end

def ConnectionLabel.rendered? {α : Type} : ConnectionLabel α → Option VideoFrame
  | .server l => l.rendered?
  | _ => none

namespace Connection

variable {α : Type} {d : Daemon} {h : Host} {m : Msgspec} {s s' : Connection α} {l : ConnectionLabel α} {t : Nat}
  {render : VideoNode → Int → VideoFrame}

/-- VapourSynth renders what is awaited on the server. -/
def RendersOn (render : VideoNode → Int → VideoFrame) (s : Connection α) (l : ConnectionLabel α) : Prop :=
  ∀ sl, l = .server sl → RendersBy render s.server sl

theorem genuine_step (hi : s.server.Genuine d h render) (hrenders : s.RendersOn render l)
    (hs : step d h m l s = some s') : s'.server.Genuine d h render := by
  rcases step_server hs with hsame | ⟨sl, hserver, hsl, -⟩
  · rw [hsame]
    exact hi
  · refine hi.step ?_ hserver
    rcases hsl with hl | ⟨msg, rfl⟩
    · exact hrenders sl hl
    · trivial

/-- The clip that a handler was given is one the runner had on the way. -/
theorem looked_up {ls : List (ConnectionLabel α)} {i : Int} {clip : VideoNode}
    (hr : Runs.run (step d h m) ls s = some s') (hno : ¬ s.server.HasLooked t i clip)
    (hlooked : s'.server.HasLooked t i clip) :
    ∃ before after u, ls = before ++ after ∧ Runs.run (step d h m) before s = some u ∧
      t < u.server.tasks.length ∧ u.server.srv.runner.runner.clips.get? i = some clip := by
  obtain ⟨before, l, after, u, v, hls, hbefore, hstep, hno, hyes⟩ :=
    Runs.exists_turn hno hr (P := fun s => s.server.HasLooked t i clip) hlooked
  rcases step_server hstep with hsame | ⟨sl, hserver, -, -⟩
  · exact absurd (hsame ▸ hyes) hno
  · exact ⟨before, l :: after, u, hls, hbefore, Sys.step_hasLooked hserver hno hyes⟩

/-- The header and the parts are those of frame `n` of the clip, and `fetch_frame` puts every
sample of it in its place in any local frame made for a clip info of this clip. -/
structure Fetched (z : Zstd) (render : VideoNode → Int → VideoFrame) (clip : VideoNode) (outputIndex n : Int)
    (header : FrameHeader) (parts : List Bytes) : Prop where
  number : header.n = n
  index : header.outputIndex = outputIndex
  props : header.props = sanitizeProps (render clip n).props
  planes : (render clip n).Renders clip → (∀ v ∈ (render clip n).planes, v.FitsWord) →
    ∀ (name : String) (info : ClipInfo) (f : LocalFrame), ClipInfo.fromClip clip name = .ok info → f.MadeFor info →
      ∃ calls, fetchFrame z info f header parts n outputIndex (.ok ()) = (calls, .ok ()) ∧
        ∀ mem, HoldsPlanes (render clip n) f 0 (render clip n).numPlanes mem (runCalls calls mem)

theorem AnsweredBy.okReply {r : Nat} {req : ClientRequest α} {call : RequestSent α} {reply : Reply} {task : Task}
    (ha : AnsweredBy d m s r req call reply t task) (hm : d.msgspec.Lawful) (str : {β : Type} → β → String)
    {outputIndex n : Int} {mode : Compression} {header : FrameHeader} {parts : List Bytes}
    (hcmd : call.command = .getFrame)
    (hsettle : (Client.requestFrame ⟨d.msgspec, str⟩ outputIndex n mode).settle d.msgspec reply.parts.tail =
      .ok (header, parts)) :
    ∃ reqIdBytes bytes, reply.parts = reqIdBytes :: [header.status.byte] :: bytes :: parts ∧
      pack d.msgspec header = .ok bytes := by
  obtain ⟨msg, env, hmsg, hparse, hcommand, -, hsends, -⟩ := ha.request
  have hframes : replyFrames (s.identity :: reply.parts) = reply.parts.tail := List.drop_one
  by_cases hrejected : Rejected d msg
  · obtain ⟨e, he⟩ := requestFrame_error (c := ⟨d.msgspec, str⟩) hm outputIndex n mode
      (format_of_sends hsends (errorReply_of_rejected hrejected))
    rw [hframes, hsettle] at he
    cases he
  · have haccepted : RepliesOnly (HeaderReply d.msgspec) (handleRequest d msg) := by
      refine repliesOnly_of_accepted hrejected (fun env' henv' => ?_)
      obtain rfl := Except.ok.inj (hparse.symm.trans henv')
      have hmethod : env.command = (TypedMethod.requestFrame outputIndex n mode).command := hcommand.trans hcmd
      exact format_dispatchRequest hmethod
    have hformat := format_of_sends hsends haccepted
    generalize hwhole : s.identity :: reply.parts = whole at hformat
    cases hformat with
    | @mk identity reqIdBytes bytes header' planes hh =>
      obtain ⟨-, hparts⟩ := List.cons.inj hwhole
      have hdecoded : (Client.requestFrame ⟨d.msgspec, str⟩ outputIndex n mode).settle d.msgspec
          ([header'.status.byte] :: bytes :: planes) = .ok (header', planes) := by
        rw [requestFrame_settle (c := ⟨d.msgspec, str⟩), unpackPayload_pack hm hh]
      rw [hparts] at hsettle
      obtain ⟨rfl, rfl⟩ := Prod.mk.inj (Except.ok.inj (hdecoded.symm.trans hsettle))
      exact ⟨reqIdBytes, bytes, hparts, hh⟩

/-- In every run of the server, of any other clients, of a client and of a network that
delays, loses and repeats messages, where no reply outlives the id of its request (`InTime`):
a frame that a client has fetched is the one it asked for, of the clip that the runner had
under the index while the request was handled, with all its properties and sample by sample. -/
theorem fetched_frame_exact {identity : Bytes} {authToken : Option PyStr} {runner : RunnerState}
    {metrics : ServerMetricsCollector} {ls : List (ConnectionLabel α)} {r : Nat} {req : ClientRequest α}
    {call : RequestSent α} {reply : Reply} {outputIndex n : Int} {mode : Compression} {header : FrameHeader}
    {parts : List Bytes} (hm : d.msgspec.Lawful) (hz : ∀ b, h.zstd.decompress (h.zstd.compress b) = .ok b)
    (str : {β : Type} → β → String)
    (hg : Runs.Guarded (step d h d.msgspec) InTime ls (init identity authToken runner metrics))
    (hrenders : Runs.Guarded (step d h d.msgspec) (RendersOn render) ls (init identity authToken runner metrics))
    (hr : Runs.run (step d h d.msgspec) ls (init identity authToken runner metrics) = some s)
    (hreq : s.client.requests[r]? = some req) (hreply : req.future.reply? = some reply)
    (hcall : s.calls[r]? = some call) (hcmd : call.command = .getFrame)
    (hpayload : pack d.msgspec (FrameRequest.mk outputIndex n mode) = .ok call.payloadBytes)
    (hsettle : (Client.requestFrame ⟨d.msgspec, str⟩ outputIndex n mode).settle d.msgspec reply.parts.tail =
      .ok (header, parts)) (hok : header.status = .ok) :
    ∃ clip before after u, ls = before ++ after ∧
      Runs.run (step d h d.msgspec) before (init identity authToken runner metrics) = some u ∧
      u.server.srv.runner.runner.clips.get? outputIndex = some clip ∧
      Fetched h.zstd render clip outputIndex n header parts := by
  have hi := (connected_init identity authToken runner metrics).run hg hr
  have hgenuine : s.server.Genuine d h render := hrenders.inv (I := fun s => s.server.Genuine d h render)
    (fun _ _ _ hi hc hs => genuine_step hi hc hs) (Sys.genuine_init runner metrics) hr
  obtain ⟨t, task, ha⟩ := hi.answeredBy hreq hreply hcall
  obtain ⟨reqIdBytes, bytes, hparts, hpack⟩ := ha.okReply hm str hcmd hsettle
  obtain ⟨msg, env, hmsg, hparse, hcommand, henv, -, -⟩ := ha.request
  have hstatus : (s.identity :: reply.parts)[2]? = some [StatusCode.ok.byte] := by
    rw [hparts, hok]
    rfl
  obtain ⟨frameReq, clip, planes, bytes', hanswer⟩ :=
    hgenuine.frameAnswer ha.present hmsg hparse (hcommand.trans hcmd) ha.onSocket hstatus
  obtain rfl : FrameRequest.mk outputIndex n mode = frameReq := by
    have hunpacked := hanswer.unpacked
    rw [henv, unpackPayload_pack hm hpayload] at hunpacked
    exact Except.ok.inj hunpacked
  have hframes := hanswer.frames
  rw [hparts] at hframes
  obtain ⟨-, hframes⟩ := List.cons.inj hframes
  obtain ⟨-, hframes⟩ := List.cons.inj hframes
  obtain ⟨-, hframes⟩ := List.cons.inj hframes
  obtain ⟨rfl, rfl⟩ := List.cons.inj hframes
  obtain rfl : header = frameHeader env ⟨outputIndex, n, mode⟩ (render clip n) parts := by
    have hsame := unpackPayload_pack hm hpack
    rw [unpackPayload_pack hm hanswer.header] at hsame
    exact (Except.ok.inj hsame).symm
  obtain ⟨total, hextract⟩ := hanswer.extracted
  have hnone : ¬ (init (α := α) identity authToken runner metrics).server.HasLooked t outputIndex clip := by
    rintro ⟨_, ht, -⟩
    cases ht
  obtain ⟨before, after, u, hls, hbefore, -, hclip⟩ := looked_up hr hnone ⟨task, ha.present, hanswer.looked⟩
  refine ⟨clip, before, after, u, hls, hbefore, hclip, rfl, rfl, rfl, fun hrenders hfits name info f hinfo hmade => ?_⟩
  exact fetchFrame_holds hz hinfo hrenders hfits hmade rfl hextract n outputIndex

/-! One client asks for a frame of two padded rows, without compression. -/

/-- `{"output_index": 0, "n": 0, "compression": "none"}` -/
def plainRequestBytes : Bytes :=
  [131, 172, 111, 117, 116, 112, 117, 116, 95, 105, 110, 100, 101, 120, 0, 161, 110, 0, 171, 99, 111, 109, 112, 114,
    101, 115, 115, 105, 111, 110, 164, 110, 111, 110, 101]

/-- The header of the reply, with one plane of four bytes. -/
def plainHeaderBytes : Bytes :=
  [136, 166, 115, 116, 97, 116, 117, 115, 0, 166, 114, 101, 113, 95, 105, 100, 1, 161, 110, 0, 172, 111, 117, 116,
    112, 117, 116, 95, 105, 110, 100, 101, 120, 0, 171, 99, 111, 109, 112, 114, 101, 115, 115, 105, 111, 110, 164,
    110, 111, 110, 101, 171, 112, 108, 97, 110, 101, 95, 115, 105, 122, 101, 115, 145, 4, 165, 112, 114, 111, 112,
    115, 128, 173, 101, 114, 114, 111, 114, 95, 109, 101, 115, 115, 97, 103, 101, 160]

def plainRequest : FrameRequest := ⟨0, 0, .none⟩

def plainHeader : FrameHeader :=
  { status := .ok, reqId := 1, n := 0, outputIndex := 0, compression := .none, planeSizes := [4] }

/-- msgspec, as far as these two go. -/
def frameCodec : Msgspec where
  encode
    | .map [("output_index", .int 0), ("n", .int 0), ("compression", .str "none")] => .ok plainRequestBytes
    | .map [("status", .int 0), ("req_id", .int 1), ("n", .int 0), ("output_index", .int 0),
        ("compression", .str "none"), ("plane_sizes", .array [.int 4]), ("props", .map []), ("error_message", .str "")] =>
      .ok plainHeaderBytes
    | _ => .error (.ofText .typeError "unsupported")
  decode b :=
    if b = plainRequestBytes then .ok plainRequest.toObj
    else if b = plainHeaderBytes then .ok plainHeader.toObj
    else .error "MessagePack data is malformed"

theorem frameCodec_lawful : frameCodec.Lawful := by
  refine Msgspec.lawful_of_forms [(plainRequest.toObj, plainRequestBytes), (plainHeader.toObj, plainHeaderBytes)] ?_ ?_
  · intro o b h
    simp only [frameCodec] at h
    split at h
    · obtain rfl := Except.ok.inj h
      exact .head _
    · obtain rfl := Except.ok.inj h
      exact .tail _ (.head _)
    · cases h
  · exact List.forall_mem_cons.2
      ⟨⟨List.cons_ne_nil _ _, rfl⟩, List.forall_mem_singleton.2 ⟨List.cons_ne_nil _ _, rfl⟩⟩

def frameDaemon : Daemon := { msgspec := frameCodec }

def fetchLabels : List (ConnectionLabel Bytes) :=
  [.client .start, .client .call, .request ⟨.getFrame, plainRequestBytes, .ok⟩, .client (.enqueue 0), .deliver 0,
    .server (.sync 0 .ok), .server (.sync 0 .ok), .server (.sync 0 (.time 0)), .server (.sync 0 .ok),
    .server (.sync 0 (.time 0)), .server (.sync 0 .ok), .server (.sync 0 (.time 0)), .server (.sync 0 .ok),
    .server (.sync 0 .ok), .server (.sync 0 .ok), .server (.frame 0 (.ok paddedFrame)), .server (.sync 0 (.time 0)),
    .server (.sync 0 (.time 0)), .server (.submit 0), .server (.jobStart 0), .server (.jobRun 0 (.extract none)),
    .server (.resume 0), .server (.sync 0 (.time 0)), .server (.sync 0 (.time 0)), .server (.put 0 none),
    .transfer 0 0, .client (.receive 0), .client (.settle 0)]

def fetchStart : Connection Bytes := init [7] none codeRunner { startTime := 0 }

theorem fetched_frame_exact_padded : ∃ s req reply clip,
    Runs.run (step frameDaemon Host.plain frameCodec) fetchLabels fetchStart = some s ∧
      s.client.requests[0]? = some req ∧ req.future.reply? = some reply ∧
      Fetched Host.plain.zstd (fun _ _ => paddedFrame) clip 0 0 plainHeader [[0, 0, 0, 9]] := by
  obtain ⟨s, req, reply, call, hr, hreq, hreply, hparts, hcall, hcmd, hpayload⟩ : ∃ s req reply call,
      Runs.run (step frameDaemon Host.plain frameCodec) fetchLabels fetchStart = some s ∧
        s.client.requests[0]? = some req ∧ req.future.reply? = some reply ∧
        reply.parts = [[0, 0, 0, 1], [0], plainHeaderBytes, [0, 0, 0, 9]] ∧ s.calls[0]? = some call ∧
        call.command = .getFrame ∧ call.payloadBytes = plainRequestBytes := ⟨_, _, _, _, rfl, rfl, rfl, rfl, rfl, rfl, rfl⟩
  have hg : Runs.Guarded (step frameDaemon Host.plain frameCodec) InTime fetchLabels fetchStart :=
    guarded_of_short Transport.counted_init (by decide)
  have hrenders : Runs.Guarded (step frameDaemon Host.plain frameCodec) (RendersOn fun _ _ => paddedFrame) fetchLabels
      fetchStart := by
    refine Runs.Guarded.of_mem (fun l hl s sl he => rendersBy_const (fun f hf => ?_))
    have hmem : f ∈ fetchLabels.filterMap ConnectionLabel.rendered? :=
      List.mem_filterMap.2 ⟨l, hl, by rw [he]; exact hf⟩
    exact List.mem_singleton.1 hmem
  have hpack : pack frameDaemon.msgspec plainRequest = .ok call.payloadBytes := by
    rw [hpayload]
    rfl
  have hsettle : (Client.requestFrame ⟨frameCodec, fun _ => ""⟩ 0 0 .none).settle frameCodec reply.parts.tail =
      .ok (plainHeader, [[0, 0, 0, 9]]) := by
    rw [hparts]
    rfl
  obtain ⟨clip, -, -, -, -, -, -, hfetched⟩ := fetched_frame_exact (d := frameDaemon) (h := Host.plain)
    frameCodec_lawful (fun _ => rfl) (fun _ => "") hg hrenders hr hreq hreply hcall hcmd hpack hsettle rfl
  exact ⟨s, req, reply, clip, hr, hreq, hreply, hfetched⟩

end Connection

end VsRemote
