import VsRemote.ReplyFormats
import VsRemote.Transport

/-! The frames of a request and of its reply, from the side that builds them to
the side that parses them. -/

namespace VsRemote

open Handler

/-- What `_send_message` puts in the send queue; `none` where `to_bytes` or
`encode` raises. -/
def messageFrames (authToken : Option PyStr) (reqId : Nat) (cmd : Command) (payloadBytes : Bytes) :
    Option (List Bytes) :=
  if 2 ^ 32 ≤ reqId then none
  else
    let parts := [intToBytes4 reqId, [cmd.byte], payloadBytes]
    match authToken with
    | none => some parts
    | some token => if token = [] then some parts else token.encodeUtf8.map (fun bytes => parts ++ [bytes])

/-- All that the handler does is to send a reply of these frames. -/
def SendsOnly (x : Handler Unit) (parts : List Bytes) : Prop := x.run = Coro.op (S := srvSig) (.send .reply parts)

/-- `None` or a text with an encoding that is not empty. -/
def EncodableToken (authToken : Option PyStr) : Prop :=
  ∀ token, authToken = some token → token ≠ [] ∧ token.encodeUtf8.isSome = true

/-- The reply goes to the future of the request, as the envelope that was sent. -/
structure Delivers (m : Msgspec) (reqId : Nat) (parts : List Bytes) (status : StatusCode) (payloadBytes : Bytes)
    (extra : List Bytes) : Prop where
  routed : ∀ (s : Transport Bytes) (request : Option Nat) (entry : PendingEntry Bytes),
    s.tracker.pending.get? reqId = some entry →
      s.dispatchResponse ⟨request, parts⟩ =
        { s with
          tracker := (s.tracker.pop reqId).2
          delivering := s.delivering ++ [⟨entry, ⟨request, parts⟩⟩] }
  parsed : ∃ envelope, ResponseEnvelope.fromFrames m (Except.ok : Bytes → Except PyExc Bytes) parts.tail = .ok envelope ∧
    envelope.status = status ∧ envelope.payloadBytes = payloadBytes ∧ envelope.extraFrames = extra ∧
    (status = .ok → envelope.payload = .value payloadBytes)

variable {m : Msgspec} {reqId : Nat} {cmd : Command} {payloadBytes identity : Bytes} {authToken : Option PyStr}
  {extra : List Bytes} {status : StatusCode}

theorem encodeUtf8_ne_nil {token : PyStr} {bytes : Bytes} (hne : token ≠ []) (h : token.encodeUtf8 = some bytes) :
    bytes ≠ [] := by
  rintro rfl
  have hnil : PyStr.encodeUtf8 [] = some [] := by decide
  have hdecode := PyStr.decodeUtf8_eq_some_iff.2 h
  rw [PyStr.decodeUtf8_eq_some_iff.2 hnil] at hdecode
  exact hne (Option.some.inj hdecode).symm

theorem messageFrames_ok (cmd : Command) (payloadBytes : Bytes) (hid : reqId < 2 ^ 31) (htoken : EncodableToken authToken) :
    ∃ extra, messageFrames authToken reqId cmd payloadBytes =
        some ([intToBytes4 reqId, [cmd.byte], payloadBytes] ++ extra) ∧
      RequestEnvelope.tokenOfExtra extra = authToken := by
  have hlt : ¬ 2 ^ 32 ≤ reqId := by omega
  unfold messageFrames
  rw [if_neg hlt]
  cases authToken with
  | none => exact ⟨[], rfl, rfl⟩
  | some token =>
    obtain ⟨hne, hsome⟩ := htoken token rfl
    obtain ⟨bytes, hbytes⟩ := Option.isSome_iff_exists.1 hsome
    refine ⟨[bytes], ?_, ?_⟩
    · simp only [hne, if_false, hbytes, Option.map_some]
    · rw [RequestEnvelope.tokenOfExtra, if_neg (encodeUtf8_ne_nil hne hbytes)]
      exact PyStr.decodeUtf8_eq_some_iff.2 hbytes

theorem fromFrames_message (hid : reqId < 2 ^ 31) :
    RequestEnvelope.fromFrames (identity :: ([intToBytes4 reqId, [cmd.byte], payloadBytes] ++ extra)) =
      .ok ⟨identity, intToBytes4 reqId, reqId, cmd, payloadBytes, RequestEnvelope.tokenOfExtra extra, extra⟩ := by
  have hlt : reqId < 4294967296 := by omega
  show RequestEnvelope.ofParts identity (intToBytes4 reqId) [cmd.byte] payloadBytes extra = _
  unfold RequestEnvelope.ofParts
  rw [Command.ofNat?_byte, intFromBytes_intToBytes4 hlt]

theorem delivers (hid : reqId < 2 ^ 31) (hpos : reqId ≠ 0) :
    Delivers m reqId (intToBytes4 reqId :: [status.byte] :: payloadBytes :: extra) status payloadBytes extra where
  routed s request entry hentry := by
    have hlt : reqId < 4294967296 := by omega
    unfold Transport.dispatchResponse
    simp only [intFromBytes_intToBytes4 hlt, hpos, if_false, RequestTracker.pop, hentry]
  parsed := by
    simp only [List.tail_cons, ResponseEnvelope.fromFrames, ResponseEnvelope.ofParts, StatusCode.ofNat?_byte]
    by_cases hok : status = .ok
    · refine ⟨⟨status, .value payloadBytes, payloadBytes, extra⟩, ?_, rfl, rfl, rfl, fun _ => rfl⟩
      rw [if_neg (not_not_intro hok)]
      rfl
    · refine ⟨⟨status, .error (errorPayload m status payloadBytes), payloadBytes, extra⟩, ?_, rfl, rfl, rfl,
        fun h => absurd h hok⟩
      rw [if_pos hok]

/-- The request parses to what was sent, and whatever is replied to it comes
back to its future. -/
theorem framing_round_trip (m : Msgspec) (d : Daemon) (identity payloadBytes : Bytes) (reqId : Nat) (cmd : Command)
    (authToken : Option PyStr) (hid : reqId < 2 ^ 31) (htoken : EncodableToken authToken) :
    ∃ frames req, messageFrames authToken reqId cmd payloadBytes = some frames ∧
      RequestEnvelope.fromFrames (identity :: frames) = .ok req ∧
      req.identity = identity ∧ req.reqId = reqId ∧ req.command = cmd ∧ req.payloadBytes = payloadBytes ∧
      req.authToken = authToken ∧
      (reqId ≠ 0 →
        (∀ status payload extra, ∃ parts, SendsOnly (sendReply req status payload extra) (identity :: parts) ∧
          Delivers m reqId parts status payload extra) ∧
        (∀ status error payload, pack d.msgspec error = .ok payload → ∃ parts,
          SendsOnly (sendError d req status error) (identity :: parts) ∧
            Delivers m reqId parts status payload [])) := by
  obtain ⟨extra, hframes, hextra⟩ := messageFrames_ok cmd payloadBytes hid htoken
  refine ⟨_, _, hframes, fromFrames_message hid, rfl, rfl, rfl, rfl, hextra, fun hpos => ⟨?_, ?_⟩⟩
  · intro status payload extra
    exact ⟨_, rfl, delivers hid hpos⟩
  · intro status error payload hpack
    refine ⟨_, ?_, delivers hid hpos⟩
    unfold sendError
    rw [hpack]
    rfl

/-- An empty payload before the token "a", under the last id. -/
theorem framing_round_trip_last : ∃ frames req,
    messageFrames (some [97]) (2 ^ 31 - 1) .ping [] = some frames ∧
    frames = [[127, 255, 255, 255], [1], [], [97]] ∧ RequestEnvelope.fromFrames ([1] :: frames) = .ok req ∧
    req.reqId = 2 ^ 31 - 1 ∧ req.payloadBytes = [] ∧ req.authToken = some [97] ∧
    Delivers (.table [] []) (2 ^ 31 - 1) [[127, 255, 255, 255], [0], [7], []] .ok [7] [[]] := by
  have htoken : EncodableToken (some [97]) := by
    rintro token heq
    obtain rfl := Option.some.inj heq
    exact ⟨by decide, by decide⟩
  obtain ⟨frames, req, hframes, hparse, -, hid, -, hpayload, hauth, hreply⟩ :=
    framing_round_trip (.table [] []) ⟨.table [] [], .zstd, false, none⟩ [1] [] (2 ^ 31 - 1) .ping (some [97])
      (by decide) htoken
  have hbuilt : frames = [[127, 255, 255, 255], [1], [], [97]] := by
    have hsame : messageFrames (some [97]) (2 ^ 31 - 1) .ping [] = some [[127, 255, 255, 255], [1], [], [97]] := by
      decide
    exact Option.some.inj (hframes.symm.trans hsame)
  obtain ⟨parts, hsends, hdelivers⟩ := (hreply (by decide)).1 .ok [7] [[]]
  have hreqId : req.reqIdBytes = [127, 255, 255, 255] := by
    rw [hbuilt] at hparse
    have hsame : RequestEnvelope.fromFrames [[1], [127, 255, 255, 255], [1], [], [97]] =
        .ok ⟨[1], [127, 255, 255, 255], 2147483647, .ping, [], some [97], [[97]]⟩ := by decide
    rw [hsame] at hparse
    rw [← Except.ok.inj hparse]
  have hparts : parts = [[127, 255, 255, 255], [0], [7], []] := by
    have hcall := SrvOp.send.inj (Coro.call.inj hsends).1
    rw [hreqId] at hcall
    exact (List.cons.inj hcall.2).2.symm
  exact ⟨frames, req, hframes, hbuilt, hparse, hid, hpayload, hauth, hparts ▸ hdelivers⟩

end VsRemote
