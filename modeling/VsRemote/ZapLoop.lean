import Mathlib.Data.List.Forall2
import VsRemote.Lib.Coro
import VsRemote.Whitelist

/-! The loop of the ZAP handler. What it received and what it replied is read off
the operations it has completed, and the two lists are paired at each `recv`. -/

namespace VsRemote

inductive ZapOp where
  | zapSocket
  | running
  | recv
  | debugEnabled
  | send (parts : List Bytes)

def ZapOp.Res : ZapOp → Type
  | .zapSocket => Bool
  | .running => Bool
  | .recv => Except Raised (List Bytes)
  | .debugEnabled => Bool
  | .send _ => Except Raised Unit

abbrev zapSig : Signature := ⟨ZapOp, ZapOp.Res⟩

abbrev ZapHandler := ExceptT Raised (Coro zapSig)

namespace ZapHandler

def zapSocket : ZapHandler Bool := ExceptT.lift (Coro.op (S := zapSig) .zapSocket)

def running : ZapHandler Bool := ExceptT.lift (Coro.op (S := zapSig) .running)

/-- `recv_multipart` inside the first `try`. -/
def recvMultipart : ZapHandler (Except Raised (List Bytes)) := ExceptT.lift (Coro.op (S := zapSig) .recv)

def isEnabledForDebug : ZapHandler Bool := ExceptT.lift (Coro.op (S := zapSig) .debugEnabled)

def sendMultipart (parts : List Bytes) : ZapHandler Unit := ExceptT.mk (Coro.op (S := zapSig) (.send parts))

/-- An argument of a log call, which may raise before the call is made. -/
def logged {α : Type} : Except PyExc α → ZapHandler Unit
  | .ok _ => pure ()
  | .error e => throw (.exc e)

end ZapHandler

open ZapHandler

/-- `raw.decode("ascii")` -/
def decodeAscii (raw : Bytes) : Except PyExc PyStr :=
  if raw.all (fun x => x < 128) then .ok (asciiText raw)
  else .error (.ofText (.other "UnicodeDecodeError") "ordinal not in range(128)")

/-- `except (asyncio.CancelledError, zmq.ZMQError)` -/
def Raised.endsZap : Raised → Bool
  | .cancelled => true
  | .exc e => e.cls = .other "ZMQError"

def zapReply (msg : List Bytes) (status text userId : Bytes) : List Bytes :=
  [msg[0]?.getD (encodeAscii "1.0"), msg[1]?.getD (encodeAscii "0"), status, text, userId, zapEmpty]

def logAuthorized (z : Z85) (clientKey : Bytes) : ZapHandler Unit := do
  let debug ← isEnabledForDebug
  if debug then logged (z.encode clientKey >>= decodeAscii) else pure ()

/-- The inner `try`. Decoding with `errors="replace"` does not raise. -/
def zapAnswer (z : Z85) (allowed : Finset Bytes) (msg : List Bytes) : ZapHandler Unit :=
  match msg.drop 2 with
  | _ :: _ :: _ :: mechanism :: clientKey :: _ =>
    if mechanism = curveMechanism ∧ clientKey ∈ allowed then do
      logAuthorized z clientKey
      sendMultipart (zapReply msg zapStatusOk zapMsgOk zapUserAuth)
    else do
      logged (z.encode clientKey)
      sendMultipart (zapReply msg zapStatusErr zapMsgUnauthorized zapEmpty)
  | _ => sendMultipart (zapReply msg zapStatusErr (encodeAscii "Invalid ZAP request") zapEmpty)

/-- The `except` clauses of the inner `try`; the result says whether the loop goes on. -/
def zapRescue (msg : List Bytes) (e : Raised) : ZapHandler Bool :=
  if e.endsZap then pure false
  else do
    tryCatch (sendMultipart (zapReply msg zapStatusErr (encodeAscii "Internal authentication error") zapEmpty))
      (fun
        | .cancelled => throw .cancelled
        | .exc _ => pure ())
    pure true

def zapTurn (z : Z85) (allowed : Finset Bytes) : ZapHandler Bool := do
  match ← recvMultipart with
  | .error e => if e.endsZap then pure false else throw e
  | .ok msg =>
    tryCatch (do
      zapAnswer z allowed msg
      pure true) (zapRescue msg)

/-- The first `n` turns of the loop. -/
def zapTurns (z : Z85) (allowed : Finset Bytes) : Nat → ZapHandler Unit
  | 0 => pure ()
  | n + 1 => do
    let running ← running
    if running then do
      let goesOn ← zapTurn z allowed
      if goesOn then zapTurns z allowed n else pure ()
    else pure ()

def zapHandlerLoop (z : Z85) (allowed : Finset Bytes) (n : Nat) : ZapHandler Unit := do
  let bound ← zapSocket
  if bound then zapTurns z allowed n else pure ()

/-- What a completed operation adds to the messages received. -/
def received (tr : List (Coro.Event zapSig)) : List (List Bytes) :=
  tr.filterMap (fun
    | ⟨.recv, r⟩ => Except.toOption r
    | _ => none)

def replies (tr : List (Coro.Event zapSig)) : List (List Bytes) :=
  tr.filterMap (fun
    | ⟨.send parts, _⟩ => some parts
    | _ => none)

def SendSucceeds : Coro.Event zapSig → Prop
  | ⟨.send _, r⟩ => r = .ok ()
  | _ => True

/-- The reply of a turn, with the log at one level or the other. -/
def Replied (z : Z85) (allowed : Finset Bytes) (msg parts : List Bytes) : Prop :=
  ∃ debug, parts = zapHandlerTurn z debug allowed msg

def Paired (z : Z85) (allowed : Finset Bytes) (tr : List (Coro.Event zapSig)) : Prop :=
  List.Forall₂ (Replied z allowed) (received tr) (replies tr)

/-- One message more than replies, and it is `msg`. -/
def Owes (z : Z85) (allowed : Finset Bytes) (msg : List Bytes) (tr : List (Coro.Event zapSig)) : Prop :=
  ∃ before, received tr = before ++ [msg] ∧ List.Forall₂ (Replied z allowed) before (replies tr)

/-- The ghost state is the history. -/
def zapMonitor (z : Z85) (allowed : Finset Bytes) : Coro.Monitor zapSig (List (Coro.Event zapSig)) where
  pre
    | tr, .recv => Paired z allowed tr
    | tr, .send parts => ∃ msg, Owes z allowed msg tr ∧ Replied z allowed msg parts
    | _, _ => True
  allows _ o r := SendSucceeds ⟨o, r⟩
  next tr o r := tr ++ [⟨o, r⟩]

section

variable {z : Z85} {allowed : Finset Bytes} {msg : List Bytes} {tr : List (Coro.Event zapSig)}

theorem run_zapMonitor (tr tr' : List (Coro.Event zapSig)) : (zapMonitor z allowed).run tr tr' = tr ++ tr' := by
  induction tr' generalizing tr with
  | nil => exact (List.append_nil tr).symm
  | cons e tr' ih =>
    rw [Coro.Monitor.run, ih]
    exact List.append_cons tr e tr' |>.symm

theorem allows_zapMonitor (h : ∀ e ∈ tr, SendSucceeds e) (tr' : List (Coro.Event zapSig)) :
    (zapMonitor z allowed).Allows tr' tr := by
  induction tr generalizing tr' with
  | nil => trivial
  | cons e tr ih =>
    obtain ⟨hfirst, hrest⟩ := List.forall_mem_cons.1 h
    exact ⟨hfirst, ih hrest _⟩

@[simp] theorem received_append (tr tr' : List (Coro.Event zapSig)) :
    received (tr ++ tr') = received tr ++ received tr' := List.filterMap_append

@[simp] theorem replies_append (tr tr' : List (Coro.Event zapSig)) :
    replies (tr ++ tr') = replies tr ++ replies tr' := List.filterMap_append

theorem Paired.snoc {e : Coro.Event zapSig} (h : Paired z allowed tr) (hreceived : received [e] = [])
    (hreplies : replies [e] = []) : Paired z allowed (tr ++ [e]) := by
  rw [Paired, received_append, replies_append, hreceived, hreplies, List.append_nil, List.append_nil]
  exact h

theorem Owes.snoc {e : Coro.Event zapSig} (h : Owes z allowed msg tr) (hreceived : received [e] = [])
    (hreplies : replies [e] = []) : Owes z allowed msg (tr ++ [e]) := by
  rw [Owes, received_append, replies_append, hreceived, hreplies, List.append_nil, List.append_nil]
  exact h

theorem Paired.recv (h : Paired z allowed tr) (msg : List Bytes) :
    Owes z allowed msg (tr ++ [⟨.recv, (.ok msg : Except Raised (List Bytes))⟩]) := by
  refine ⟨received tr, received_append tr _, ?_⟩
  have hreplies : replies (tr ++ [⟨.recv, (.ok msg : Except Raised (List Bytes))⟩]) = replies tr :=
    (replies_append tr _).trans (List.append_nil _)
  rw [hreplies]
  exact h

theorem Owes.send {parts : List Bytes} (h : Owes z allowed msg tr) (hparts : Replied z allowed msg parts)
    (r : Except Raised Unit) : Paired z allowed (tr ++ [⟨.send parts, r⟩]) := by
  obtain ⟨before, hmsgs, hbefore⟩ := h
  have hreceived : received (tr ++ [⟨.send parts, r⟩]) = before ++ [msg] := by
    rw [received_append, hmsgs]
    exact List.append_nil _
  have hreplies : replies (tr ++ [⟨.send parts, r⟩]) = replies tr ++ [parts] := replies_append tr _
  rw [Paired, hreceived, hreplies]
  exact List.rel_append hbefore (.cons hparts .nil)

/-! One rule for each operation. -/

theorem wp_zapSocket {Q : Except Raised Bool → List (Coro.Event zapSig) → Prop} (h : Paired z allowed tr)
    (hQ : ∀ bound tr', Paired z allowed tr' → Q (.ok bound) tr') : zapSocket.run.wp (zapMonitor z allowed) Q tr :=
  ⟨trivial, fun bound _ => hQ bound _ (h.snoc rfl rfl)⟩

theorem wp_running {Q : Except Raised Bool → List (Coro.Event zapSig) → Prop} (h : Paired z allowed tr)
    (hQ : ∀ running tr', Paired z allowed tr' → Q (.ok running) tr') : running.run.wp (zapMonitor z allowed) Q tr :=
  ⟨trivial, fun running _ => hQ running _ (h.snoc rfl rfl)⟩

theorem wp_recvMultipart {Q : Except Raised (Except Raised (List Bytes)) → List (Coro.Event zapSig) → Prop}
    (h : Paired z allowed tr) (hraised : ∀ e tr', Paired z allowed tr' → Q (.ok (.error e)) tr')
    (hmsg : ∀ msg tr', Owes z allowed msg tr' → Q (.ok (.ok msg)) tr') :
    recvMultipart.run.wp (zapMonitor z allowed) Q tr := by
  refine ⟨h, fun r _ => ?_⟩
  cases (r : Except Raised (List Bytes)) with
  | error e => exact hraised e _ (h.snoc rfl rfl)
  | ok msg => exact hmsg msg _ (h.recv msg)

theorem wp_isEnabledForDebug {Q : Except Raised Bool → List (Coro.Event zapSig) → Prop} (h : Owes z allowed msg tr)
    (hQ : ∀ debug tr', Owes z allowed msg tr' → Q (.ok debug) tr') :
    isEnabledForDebug.run.wp (zapMonitor z allowed) Q tr :=
  ⟨trivial, fun debug _ => hQ debug _ (h.snoc rfl rfl)⟩

theorem wp_sendMultipart {parts : List Bytes} {Q : Except Raised Unit → List (Coro.Event zapSig) → Prop}
    (h : Owes z allowed msg tr) (hparts : Replied z allowed msg parts)
    (hQ : ∀ tr', Paired z allowed tr' → Q (.ok ()) tr') : (sendMultipart parts).run.wp (zapMonitor z allowed) Q tr := by
  refine ⟨⟨msg, h, hparts⟩, ?_⟩
  rintro r rfl
  exact hQ _ (h.send hparts _)

@[simp] theorem wp_logged {α : Type} (x : Except PyExc α) (Q : Except Raised Unit → List (Coro.Event zapSig) → Prop) :
    (logged x).run.wp (zapMonitor z allowed) Q = match x with
      | .ok _ => Q (.ok ())
      | .error e => Q (.error (.exc e)) := by
  cases x <;> rfl

/-- How the inner `try` may end: replied, or with an exception that the last
clause handles and whose reply is then the one of the turn. -/
def Answered (z : Z85) (allowed : Finset Bytes) (msg : List Bytes) (r : Except Raised Unit)
    (tr : List (Coro.Event zapSig)) : Prop :=
  (r = .ok () ∧ Paired z allowed tr) ∨
    ∃ e : PyExc, r = .error (.exc e) ∧ (Raised.exc e).endsZap = false ∧ Owes z allowed msg tr ∧
      Replied z allowed msg (zapReply msg zapStatusErr (encodeAscii "Internal authentication error") zapEmpty)

/-- `z85.encode` refuses a length, and raises nothing else. -/
def EncodeRefuses (z : Z85) : Prop := ∀ raw e, z.encode raw = .error e → e.cls = .valueError

theorem zapAnswer_answered (hencode : EncodeRefuses z) (h : Owes z allowed msg tr) :
    (zapAnswer z allowed msg).run.wp (zapMonitor z allowed) (Answered z allowed msg) tr := by
  have hvalue : ∀ {raw e}, z.encode raw = .error e → (Raised.exc e).endsZap = false := by
    intro raw e he
    have hcls := hencode raw e he
    simp [Raised.endsZap, hcls]
  unfold zapAnswer
  split
  · rename_i domain address identity mechanism clientKey rest hdrop
    by_cases hin : mechanism = curveMechanism ∧ clientKey ∈ allowed
    · have hauthorized : Replied z allowed msg (zapReply msg zapStatusOk zapMsgOk zapUserAuth) := ⟨false, by
        simp [zapHandlerTurn, hdrop, hin, zapReply]⟩
      rw [if_pos hin, Coro.wp_run_bind, logAuthorized, Coro.wp_run_bind]
      apply wp_isEnabledForDebug h
      intro debug tr' howes
      have hsent := wp_sendMultipart (Q := Answered z allowed msg) howes hauthorized (fun tr' hpaired => .inl ⟨rfl, hpaired⟩)
      cases debug with
      | false => exact hsent
      | true =>
        simp only [if_true, wp_logged]
        cases htext : z.encode clientKey with
        | error e =>
          refine .inr ⟨e, rfl, hvalue htext, howes, true, ?_⟩
          simp [zapHandlerTurn, hdrop, hin, zapReply, htext]
        | ok text =>
          by_cases hascii : text.all (fun x => x < 128) = true
          · simpa [bind, Except.bind, decodeAscii, hascii] using hsent
          · have hdecode : (z.encode clientKey >>= decodeAscii) =
                .error (.ofText (.other "UnicodeDecodeError") "ordinal not in range(128)") := by
              rw [htext]
              exact if_neg hascii
            rw [← htext, hdecode]
            refine .inr ⟨_, rfl, by decide, howes, true, ?_⟩
            simp only [zapHandlerTurn, hdrop, hin, zapReply, htext, if_neg hascii, and_self, if_true]
    · rw [if_neg hin, Coro.wp_run_bind, wp_logged]
      cases htext : z.encode clientKey with
      | error e =>
        refine .inr ⟨e, rfl, hvalue htext, h, false, ?_⟩
        simp [zapHandlerTurn, hdrop, hin, zapReply, htext]
      | ok text =>
        have hrefused : Replied z allowed msg (zapReply msg zapStatusErr zapMsgUnauthorized zapEmpty) := ⟨false, by
          simp [zapHandlerTurn, hdrop, hin, zapReply, htext]⟩
        exact wp_sendMultipart h hrefused (fun tr' hpaired => .inl ⟨rfl, hpaired⟩)
  · rename_i hshort
    have hinvalid : Replied z allowed msg
        (zapReply msg zapStatusErr (encodeAscii "Invalid ZAP request") zapEmpty) := by
      refine ⟨false, ?_⟩
      unfold zapHandlerTurn
      split
      · rename_i hlong
        exact absurd hlong (hshort _ _ _ _ _ _)
      · rfl
    exact wp_sendMultipart h hinvalid (fun tr' hpaired => .inl ⟨rfl, hpaired⟩)

theorem zapTurn_paired (hencode : EncodeRefuses z) (h : Paired z allowed tr) :
    (zapTurn z allowed).run.wp (zapMonitor z allowed) (fun _ tr' => Paired z allowed tr') tr := by
  rw [zapTurn, Coro.wp_run_bind]
  apply wp_recvMultipart h
  · intro e tr' hpaired
    by_cases hends : e.endsZap = true
    · simpa [hends] using hpaired
    · simpa [hends] using hpaired
  · intro msg tr' howes
    simp only [Coro.wp_run_tryCatch, Coro.wp_run_bind]
    refine Coro.wp_mono _ (zapAnswer_answered hencode howes) ?_
    rintro r tr'' (⟨rfl, hpaired⟩ | ⟨e, rfl, hstays, howes, hinternal⟩)
    · exact hpaired
    · simp only [zapRescue, hstays, Bool.false_eq_true, if_false, Coro.wp_run_bind, Coro.wp_run_tryCatch]
      exact wp_sendMultipart howes hinternal (fun _ hpaired => hpaired)

theorem zapTurns_paired (hencode : EncodeRefuses z) (n : Nat) (h : Paired z allowed tr) :
    (zapTurns z allowed n).run.wp (zapMonitor z allowed) (fun _ tr' => Paired z allowed tr') tr := by
  induction n generalizing tr with
  | zero => exact h
  | succ n ih =>
    rw [zapTurns, Coro.wp_run_bind]
    apply wp_running h
    intro running tr' hpaired
    cases running with
    | false => exact hpaired
    | true =>
      simp only [if_true, Coro.wp_run_bind]
      refine Coro.wp_mono _ (zapTurn_paired hencode hpaired) ?_
      intro r tr'' hpaired
      cases r with
      | error e => exact hpaired
      | ok goesOn =>
        cases goesOn with
        | false => exact hpaired
        | true => exact ih hpaired

theorem zapHandlerLoop_paired (hencode : EncodeRefuses z) (n : Nat) :
    (zapHandlerLoop z allowed n).run.wp (zapMonitor z allowed) (fun _ tr' => Paired z allowed tr') [] := by
  rw [zapHandlerLoop, Coro.wp_run_bind]
  have hstart : Paired z allowed [] := List.Forall₂.nil
  apply wp_zapSocket hstart
  intro bound tr' hpaired
  cases bound with
  | false => exact hpaired
  | true => exact zapTurns_paired hencode n hpaired

end

/-- What the claimant of a handshake is told. -/
structure RightReply (allowed : Finset Bytes) (msg parts : List Bytes) : Prop where
  version : parts[0]? = some (msg[0]?.getD (encodeAscii "1.0"))
  reqId : parts[1]? = some (msg[1]?.getD (encodeAscii "0"))
  status : parts[2]? = some zapStatusOk ↔
    7 ≤ msg.length ∧ msg[5]? = some curveMechanism ∧ ∃ key ∈ allowed, msg[6]? = some key

/-- The keys of a whitelist have 32 bytes, because `z85.decode` makes four bytes of
five characters. -/
def DecodesKeys (z : Z85) : Prop :=
  (∀ raw key, raw.length = 40 → z.decode (.bytes raw) = .ok key → key.length = 32) ∧
    ∀ text key, text.length = 40 → z.decode (.str text) = .ok key → key.length = 32

section

variable {z : Z85} {allowed : Finset Bytes} {msg parts : List Bytes} {key : Bytes}

theorem allowedKey_length (hdecode : DecodesKeys z) {entry : KeyArg} (h : allowedKey z entry = .ok key) :
    key.length = 32 := by
  cases entry with
  | bytes raw =>
    by_cases hlengths : raw.length ∉ [32, 40]
    · rw [allowedKey, if_pos hlengths] at h
      cases h
    · rw [allowedKey, if_neg hlengths] at h
      by_cases hlength : raw.length = 32
      · rw [if_pos hlength] at h
        cases h
        exact hlength
      · rw [if_neg hlength] at h
        have hforty : raw.length = 40 := by simpa [hlength] using hlengths
        exact hdecode.1 raw key hforty h
  | str text =>
    by_cases hforty : text.length = 40
    · rw [allowedKey, if_neg (not_not_intro hforty)] at h
      exact hdecode.2 text key hforty h
    · rw [allowedKey, if_pos hforty] at h
      cases h

theorem curveAllowedKeys_length (hdecode : DecodesKeys z) {secret public_ : Option KeyArg}
    {entries : Option (List KeyArg)} {keys : CurveKeys} (h : CurveKeys.init z secret public_ entries = .ok keys)
    (hkey : key ∈ keys.curveAllowedKeys) : key.length = 32 := by
  obtain ⟨entry, _, hentry⟩ := (mem_allowedKeys (CurveKeys.init_fields h).2.2).1 hkey
  exact allowedKey_length hdecode hentry

theorem zapReply_right {status text userId : Bytes}
    (h : status = zapStatusOk ↔ 7 ≤ msg.length ∧ msg[5]? = some curveMechanism ∧ ∃ key ∈ allowed, msg[6]? = some key) :
    RightReply allowed msg (zapReply msg status text userId) :=
  ⟨rfl, rfl, (Option.some_inj).trans h⟩

/-- Encoding an allowed key for the log does not raise. -/
theorem Replied.right (hlength : ∀ key ∈ allowed, key.length = 32) (h : Replied z allowed msg parts) :
    RightReply allowed msg parts := by
  obtain ⟨debug, rfl⟩ := h
  have herr : zapStatusErr ≠ zapStatusOk := by decide
  unfold zapHandlerTurn
  split
  · rename_i domain address identity mechanism clientKey rest hdrop
    have hseven : 7 ≤ msg.length := by
      have hlong := congrArg List.length hdrop
      simp only [List.length_drop, List.length_cons] at hlong
      omega
    have hmechanism : msg[5]? = some mechanism := by
      have hfield := @List.getElem?_drop _ msg 2 3
      rw [hdrop] at hfield
      exact hfield.symm
    have hclient : msg[6]? = some clientKey := by
      have hfield := @List.getElem?_drop _ msg 2 4
      rw [hdrop] at hfield
      exact hfield.symm
    by_cases hin : mechanism = curveMechanism ∧ clientKey ∈ allowed
    · have hright : RightReply allowed msg (zapReply msg zapStatusOk zapMsgOk zapUserAuth) := by
        apply zapReply_right
        refine iff_of_true rfl ⟨hseven, ?_, clientKey, hin.2, hclient⟩
        rw [hmechanism, hin.1]
      rw [if_pos hin]
      cases debug with
      | false => exact hright
      | true =>
        obtain ⟨text, htext, _, hascii⟩ := z.encode_key (hlength clientKey hin.2)
        have hall : text.all (fun x => x < 128) = true := List.all_eq_true.2 (fun x hx => decide_eq_true (hascii x hx))
        simp only [htext, hall, if_true]
        exact hright
    · have hright : ∀ text userId, RightReply allowed msg (zapReply msg zapStatusErr text userId) := by
        intro text userId
        apply zapReply_right
        refine iff_of_false herr ?_
        rintro ⟨_, hcurve, key, hkey, hsome⟩
        rw [hmechanism] at hcurve
        rw [hclient] at hsome
        cases hsome
        exact hin ⟨Option.some.inj hcurve, hkey⟩
      rw [if_neg hin]
      cases z.encode clientKey with
      | error e => exact hright _ _
      | ok text => exact hright _ _
  · rename_i hshort
    have hsix : msg.length < 7 := by
      rw [← Nat.not_le]
      intro hseven
      have hlong : 5 ≤ (msg.drop 2).length := by
        rw [List.length_drop]
        omega
      rcases hdrop : msg.drop 2 with _ | ⟨a, _ | ⟨b, _ | ⟨c, _ | ⟨d, _ | ⟨e, rest⟩⟩⟩⟩⟩
      iterate 5 rw [hdrop] at hlong; simp at hlong
      exact hshort a b c d e rest hdrop
    apply zapReply_right
    refine iff_of_false herr (fun h => ?_)
    exact absurd h.1 (Nat.not_le.2 hsix)

end

/-- Where a run of the handler stands: a reply is sent only for a message that has
none, and a message is received, or the handler ends, when each has its reply. -/
structure Lockstep (allowed : Finset Bytes) (tr : List (Coro.Event zapSig)) (rest : Coro zapSig (Except Raised Unit)) :
    Prop where
  sends : ∀ parts k, rest = .call (.send parts) k → ∃ before msg, received tr = before ++ [msg] ∧
    List.Forall₂ (RightReply allowed) before (replies tr) ∧ RightReply allowed msg parts
  receives : ∀ k, rest = .call .recv k → List.Forall₂ (RightReply allowed) (received tr) (replies tr)
  ends : ∀ r, rest = .pure r → List.Forall₂ (RightReply allowed) (received tr) (replies tr)

theorem zap_lockstep {z : Z85} (hencode : EncodeRefuses z) (hdecode : DecodesKeys z) {secret public_ : Option KeyArg}
    {entries : Option (List KeyArg)} {keys : CurveKeys} (hinit : CurveKeys.init z secret public_ entries = .ok keys)
    {n : Nat} {tr : List (Coro.Event zapSig)} {rest : Coro zapSig (Except Raised Unit)}
    (hrun : Coro.Follows (zapHandlerLoop z keys.curveAllowedKeys n).run tr rest)
    (hsends : ∀ e ∈ tr, SendSucceeds e) : Lockstep keys.curveAllowedKeys tr rest := by
  have hright : ∀ msg parts, Replied z keys.curveAllowedKeys msg parts → RightReply keys.curveAllowedKeys msg parts :=
    fun msg parts h => h.right (fun key hkey => curveAllowedKeys_length hdecode hinit hkey)
  have hallows : (zapMonitor z keys.curveAllowedKeys).Allows [] tr := allows_zapMonitor hsends []
  obtain ⟨_, hrest⟩ := Coro.wp_follows _ (zapHandlerLoop_paired hencode n) hrun hallows
  rw [run_zapMonitor, List.nil_append] at hrest
  refine ⟨?_, ?_, ?_⟩
  · rintro parts k rfl
    obtain ⟨⟨msg, ⟨before, hmsgs, hbefore⟩, hparts⟩, _⟩ := hrest
    exact ⟨before, msg, hmsgs, hbefore.imp hright, hright msg parts hparts⟩
  · rintro k rfl
    exact List.Forall₂.imp hright hrest.1
  · rintro r rfl
    exact List.Forall₂.imp hright hrest

theorem encodeRefuses_realZ85 : EncodeRefuses realZ85 := by
  intro raw e h
  dsimp only [realZ85] at h
  split at h
  · cases h
  · rw [← Except.error.inj h]
    rfl

theorem z85Decode_length {text key : Bytes} (hlength : text.length = 40) (h : z85Decode text = .ok key) :
    key.length = 32 := by
  unfold z85Decode at h
  cases hdecode : Base85.decode z85Chars text with
  | none =>
    rw [hdecode] at h
    cases h
  | some raw =>
    have hraw := Base85.decode_length hdecode
    rw [hdecode] at h
    cases h
    omega

theorem decodesKeys_realZ85 : DecodesKeys realZ85 := by
  refine ⟨fun raw key hlength h => z85Decode_length hlength h, fun text key hlength h => ?_⟩
  change text.encodeAscii.bind z85Decode = .ok key at h
  unfold PyStr.encodeAscii at h
  by_cases hascii : text.isAscii = true
  · rw [if_pos hascii] at h
    exact z85Decode_length ((List.length_map _).trans hlength) h
  · rw [if_neg hascii] at h
    cases h

def oddRequest : List Bytes := (ZapRequest.mk (encodeAscii "1.0") [1] [] [] []).frames [1, 2, 3]

def helloRequest : List Bytes := (ZapRequest.mk (encodeAscii "1.0") [2] [] [] []).frames helloKey

/-- Two frames, a key of three bytes and a key of the whitelist. -/
def threeHandshakes : List (Coro.Event zapSig) :=
  [⟨.zapSocket, true⟩,
    ⟨.running, true⟩, ⟨.recv, (.ok [[49], [7]] : Except Raised (List Bytes))⟩,
    ⟨.send [[49], [7], zapStatusErr, encodeAscii "Invalid ZAP request", [], []], (.ok () : Except Raised Unit)⟩,
    ⟨.running, true⟩, ⟨.recv, (.ok oddRequest : Except Raised (List Bytes))⟩,
    ⟨.send [encodeAscii "1.0", [1], zapStatusErr, encodeAscii "Internal authentication error", [], []],
      (.ok () : Except Raised Unit)⟩,
    ⟨.running, true⟩, ⟨.recv, (.ok helloRequest : Except Raised (List Bytes))⟩, ⟨.debugEnabled, true⟩,
    ⟨.send [encodeAscii "1.0", [2], zapStatusOk, zapMsgOk, zapUserAuth, []], (.ok () : Except Raised Unit)⟩,
    ⟨.running, false⟩]

theorem follows_threeHandshakes :
    Coro.Follows (zapHandlerLoop realZ85 helloKeys.curveAllowedKeys 4).run threeHandshakes (.pure (.ok ())) :=
  .cons _ (.cons _ (.cons _ (.cons _ (.cons _ (.cons _ (.cons _ (.cons _ (.cons _ (.cons _ (.cons _ (.cons _ (.nil _))))))))))))

theorem zap_lockstep_threeHandshakes :
    received threeHandshakes = [[[49], [7]], oddRequest, helloRequest] ∧
      Lockstep helloKeys.curveAllowedKeys threeHandshakes (.pure (.ok ())) := by
  refine ⟨rfl, zap_lockstep encodeRefuses_realZ85 decodesKeys_realZ85 init_helloKeys follows_threeHandshakes ?_⟩
  simp only [threeHandshakes, List.forall_mem_cons]
  exact ⟨trivial, trivial, trivial, rfl, trivial, trivial, rfl, trivial, trivial, trivial, rfl, trivial, List.forall_mem_nil _⟩

end VsRemote
