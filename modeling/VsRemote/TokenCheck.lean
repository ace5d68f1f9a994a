import VsRemote.HandlerRules

/-! The token check of `_handle_request`. -/

namespace VsRemote

open RequestEnvelope (tokenOfExtra)

/-- The frame after the payload is the encoding of the token. -/
def CarriesToken (msg : List Bytes) (token : PyStr) : Prop :=
  ∃ b, token.encodeUtf8 = some b ∧ msg[4]? = some b

def Dispatched (d : Daemon) (msg : List Bytes) (req : RequestEnvelope) : Prop :=
  handleMessage d msg = acceptRequest d req

/-- All the handler does is to send one reply with status UNAUTHORIZED. -/
def Refused (d : Daemon) (msg : List Bytes) (req : RequestEnvelope) : Prop :=
  ∃ payload, handleMessage d msg = Handler.sendMultipart .reply
    [req.identity, req.reqIdBytes, [StatusCode.unauthorized.byte], payload]

/-- The check does what it is for: the token opens and everything else is refused. -/
def TokenChecked (d : Daemon) (token : PyStr) (msg : List Bytes) (req : RequestEnvelope) : Prop :=
  (CarriesToken msg token → Dispatched d msg req) ∧ (¬ CarriesToken msg token → Refused d msg req)

theorem decodeUtf8_nil : PyStr.decodeUtf8 [] = some [] := by decide

theorem fromFrames_authToken {msg : List Bytes} {req : RequestEnvelope}
    (hreq : RequestEnvelope.fromFrames msg = .ok req) : req.authToken = tokenOfExtra (msg.drop 4) := by
  obtain ⟨identity, reqIdBytes, cmdByte, rest, rfl, -, heq⟩ := RequestEnvelope.fromFrames_ok hreq
  rw [heq]
  cases rest <;> rfl

theorem authToken_eq_some_iff {msg : List Bytes} {req : RequestEnvelope} {t : PyStr}
    (hreq : RequestEnvelope.fromFrames msg = .ok req) (ht : t ≠ []) :
    req.authToken = some t ↔ CarriesToken msg t := by
  rw [fromFrames_authToken hreq]
  have hget : msg[4]? = (msg.drop 4).head? := by
    rw [List.head?_drop]
  unfold CarriesToken
  rw [hget]
  cases msg.drop 4 with
  | nil => simp [tokenOfExtra]
  | cons b rest =>
    simp only [tokenOfExtra, List.head?_cons, Option.some.injEq]
    by_cases hb : b = []
    · subst hb
      simp only [if_true, reduceCtorEq, false_iff]
      rintro ⟨b, henc, rfl⟩
      rw [← PyStr.decodeUtf8_eq_some_iff, decodeUtf8_nil] at henc
      exact ht (Option.some.inj henc).symm
    · rw [if_neg hb, PyStr.decodeUtf8_eq_some_iff]
      constructor
      · intro henc
        exact ⟨b, henc, rfl⟩
      · rintro ⟨b', henc, rfl⟩
        exact henc

theorem authToken_ne_nil {msg : List Bytes} {req : RequestEnvelope}
    (hreq : RequestEnvelope.fromFrames msg = .ok req) : req.authToken ≠ some [] := by
  rw [fromFrames_authToken hreq]
  cases msg.drop 4 with
  | nil => simp [tokenOfExtra]
  | cons b rest =>
    simp only [tokenOfExtra]
    split
    · simp
    · next hb =>
      intro hd
      rw [PyStr.decodeUtf8_eq_some_iff] at hd
      have henc : PyStr.encodeUtf8 [] = some [] := by decide
      rw [henc] at hd
      exact hb (Option.some.inj hd).symm

variable {d : Daemon} {token : PyStr} {msg : List Bytes} {req : RequestEnvelope}

theorem refused_of_sendErrorText {message : String}
    (hm : ∃ b, pack d.msgspec (messagePayload .unauthorized message) = .ok b)
    (hp : handleMessage d msg = sendErrorText d req .unauthorized message) : Refused d msg req := by
  obtain ⟨b, hb⟩ := hm
  refine ⟨b, ?_⟩
  rw [hp, sendErrorText, sendError, hb]
  rfl

/-- The request goes through without a comparison, or both texts are ASCII. -/
def Comparable (requestToken : Option PyStr) (token : PyStr) : Prop :=
  ∀ t, requestToken = some t → t.isAscii = true ∧ token.isAscii = true

theorem throw_not_outcome (req : RequestEnvelope) {e : PyExc} (hp : handleMessage d msg = throw (.exc e)) :
    ¬ Dispatched d msg req ∧ ¬ Refused d msg req := by
  constructor
  · intro hd
    rw [Dispatched, hp] at hd
    cases congrArg ExceptT.run hd
  · rintro ⟨payload, hr⟩
    rw [hp] at hr
    cases congrArg ExceptT.run hr

/-- With a non-empty token configured, a well-formed request is dispatched if it
carries the token and refused otherwise exactly when the texts can be compared:
the request brings no token, or both are ASCII. -/
theorem tokenChecked_iff
    (hm : ∃ b, pack d.msgspec
      (messagePayload .unauthorized "Unauthorized: invalid or missing auth token") = .ok b)
    (htoken : token ≠ []) (hd : d.authToken = some token)
    (hreq : RequestEnvelope.fromFrames msg = .ok req) :
    TokenChecked d token msg req ↔ Comparable req.authToken token := by
  have hcarry := authToken_eq_some_iff hreq htoken
  cases hrt : req.authToken with
  | none =>
    have hno : ¬ CarriesToken msg token := by
      rw [← hcarry, hrt]
      simp
    have hrun := handleMessage_of_tokenRefused hreq (show tokenRefused d.authToken req.authToken = .ok true by
      rw [hd, hrt]
      rfl)
    constructor
    · intro _ t ht
      cases ht
    · intro _
      exact ⟨fun hc => absurd hc hno, fun _ => refused_of_sendErrorText hm hrun⟩
  | some t =>
    have htne : t ≠ [] := by
      rintro rfl
      exact authToken_ne_nil hreq hrt
    have htr : tokenRefused d.authToken req.authToken = (compareDigest t token).map (fun eq => ! eq) := by
      rw [hd, hrt]
      simp only [tokenRefused, if_neg htne]
    by_cases hascii : t.isAscii = true ∧ token.isAscii = true
    · have hcmp : compareDigest t token = .ok (decide (t = token)) := by
        simp [compareDigest, hascii.1, hascii.2]
      rw [hcmp] at htr
      have hrun := handleMessage_of_tokenRefused hreq htr
      refine ⟨fun _ t' ht' => by obtain rfl := Option.some.inj ht'; exact hascii, fun _ => ⟨?_, ?_⟩⟩
      · intro hc
        rw [← hcarry, hrt] at hc
        obtain rfl := Option.some.inj hc
        simpa [Dispatched] using hrun
      · intro hc
        have hne : t ≠ token := by
          rintro rfl
          exact hc (hcarry.1 hrt)
        rw [decide_eq_false hne] at hrun
        exact refused_of_sendErrorText hm hrun
    · have hcmp : ∃ e, compareDigest t token = .error e := by
        unfold compareDigest
        rw [if_neg (by simpa using hascii)]
        exact ⟨_, rfl⟩
      obtain ⟨e, he⟩ := hcmp
      rw [he] at htr
      have hout := throw_not_outcome req (handleMessage_of_tokenError hreq htr)
      constructor
      · intro hchk
        by_cases hc : CarriesToken msg token
        · exact absurd (hchk.1 hc) hout.1
        · exact absurd (hchk.2 hc) hout.2
      · intro hcomp
        exact absurd (hcomp t rfl) hascii

def pingWith (token : Bytes) : List Bytes := [[7], [0, 0, 0, 5], [1], [], token]

def tokenDaemon (token : PyStr) : Daemon :=
  { msgspec := ⟨fun _ => .ok [], fun _ => .error ""⟩, authToken := some token }

/-- The token "é", configured and sent: the handler raises a `TypeError`. -/
theorem token_eacute_raises :
    ∃ req, RequestEnvelope.fromFrames (pingWith [0xC3, 0xA9]) = .ok req ∧
      CarriesToken (pingWith [0xC3, 0xA9]) [0xE9] ∧
      ¬ Dispatched (tokenDaemon [0xE9]) (pingWith [0xC3, 0xA9]) req ∧
      ¬ TokenChecked (tokenDaemon [0xE9]) [0xE9] (pingWith [0xC3, 0xA9]) req := by
  have henc : PyStr.encodeUtf8 [0xE9] = some [0xC3, 0xA9] := by decide
  have hdec : PyStr.decodeUtf8 [0xC3, 0xA9] = some [0xE9] := PyStr.decodeUtf8_eq_some_iff.2 henc
  have hcarry : CarriesToken (pingWith [0xC3, 0xA9]) [0xE9] := ⟨_, henc, rfl⟩
  have hreq : RequestEnvelope.fromFrames (pingWith [0xC3, 0xA9]) =
      .ok ⟨[7], [0, 0, 0, 5], 5, .ping, [], tokenOfExtra [[0xC3, 0xA9]], [[0xC3, 0xA9]]⟩ := rfl
  have htok : tokenOfExtra [[0xC3, 0xA9]] = some [0xE9] := hdec
  have herr := handleMessage_of_tokenError (d := tokenDaemon [0xE9]) hreq
    (show tokenRefused (some [0xE9]) (tokenOfExtra [[0xC3, 0xA9]]) = .error _ by rw [htok]; rfl)
  have hout := throw_not_outcome ⟨[7], [0, 0, 0, 5], 5, .ping, [], tokenOfExtra [[0xC3, 0xA9]],
    [[0xC3, 0xA9]]⟩ herr
  exact ⟨_, hreq, hcarry, hout.1, fun hchk => hout.1 (hchk.1 hcarry)⟩

theorem tokenChecked_ascii :
    ∃ req, RequestEnvelope.fromFrames (pingWith [0x61]) = .ok req ∧
      TokenChecked (tokenDaemon [0x61]) [0x61] (pingWith [0x61]) req := by
  have hdec : PyStr.decodeUtf8 [0x61] = some [0x61] :=
    PyStr.decodeUtf8_eq_some_iff.2 (by decide)
  refine ⟨_, rfl, (tokenChecked_iff ⟨[], rfl⟩ (by decide) rfl rfl).2 ?_⟩
  intro t ht
  rw [show tokenOfExtra [[0x61]] = some [0x61] from hdec] at ht
  obtain rfl := Option.some.inj ht
  exact ⟨by decide, by decide⟩

end VsRemote
