import VsRemote.Daemon

/-! Proof rules for the operations of a handler, for any monitor. -/

namespace VsRemote

namespace Handler

variable {G : Type} (M : Coro.Monitor srvSig G)

@[simp] theorem wp_ofExcept {α : Type} (x : Except PyExc α) (Q : Except Raised α → G → Prop) :
    (ofExcept x).run.wp M Q = match x with
      | .ok a => Q (.ok a)
      | .error e => Q (.error (.exc e)) := by
  cases x <;> rfl

@[simp] theorem wp_tryExcept {α : Type} (x : Handler α) (f : PyExc → Handler α)
    (Q : Except Raised α → G → Prop) :
    (tryExcept x f).run.wp M Q = x.run.wp M (fun
      | .ok a => Q (.ok a)
      | .error .cancelled => Q (.error .cancelled)
      | .error (.exc e) => (f e).run.wp M Q) := by
  unfold tryExcept
  rw [Coro.wp_run_tryCatch]
  congr 1
  funext r
  rcases r with (_ | e) | a <;> rfl

@[simp] theorem wp_socketOpen (Q : Except Raised Bool → G → Prop) :
    socketOpen.run.wp M Q = M.step .socketOpen (fun r => Q (.ok r)) := rfl

@[simp] theorem wp_inflightSet (key : Bytes × Nat) (Q : Except Raised Unit → G → Prop) :
    (inflightSet key).run.wp M Q = M.step (.inflightSet key) (fun r => Q (.ok r)) := rfl

@[simp] theorem wp_inflightCancel (key : Bytes × Int) (Q : Except Raised Unit → G → Prop) :
    (inflightCancel key).run.wp M Q = M.step (.inflightCancel key) (fun r => Q (.ok r)) := rfl

@[simp] theorem wp_inflightLen (Q : Except Raised Nat → G → Prop) :
    inflightLen.run.wp M Q = M.step .inflightLen (fun r => Q (.ok r)) := rfl

@[simp] theorem wp_metrics (c : MetricsCall) (Q : Except Raised Unit → G → Prop) :
    (metrics c).run.wp M Q = M.step (.metrics c) (fun r => Q (.ok r)) := rfl

@[simp] theorem wp_runnerEnvironment (Q : Except Raised (Except PyExc Environment) → G → Prop) :
    runnerEnvironment.run.wp M Q = M.step (.runner .environment) (fun r => Q (.ok r)) := rfl

@[simp] theorem wp_runnerScriptPath (Q : Except Raised (Option String) → G → Prop) :
    runnerScriptPath.run.wp M Q = M.step (.runner .scriptPath) (fun r => Q (.ok r)) := rfl

@[simp] theorem wp_runnerListOutputs (Q : Except Raised (List OutputItem) → G → Prop) :
    runnerListOutputs.run.wp M Q = M.step (.runner .listOutputs) (fun r => Q (.ok r)) := rfl

@[simp] theorem wp_runnerGetClipInfo (i : Int)
    (Q : Except Raised (Except PyExc ClipInfo) → G → Prop) :
    (runnerGetClipInfo i).run.wp M Q = M.step (.runner (.clipInfo i)) (fun r => Q (.ok r)) := rfl

@[simp] theorem wp_runnerGetClip (i : Int) (Q : Except Raised (Except PyExc VideoNode) → G → Prop) :
    (runnerGetClip i).run.wp M Q = M.step (.runner (.clip i)) (fun r => Q (.ok r)) := rfl

@[simp] theorem wp_runnerStartupEvents (Q : Except Raised (List StreamEvent) → G → Prop) :
    runnerStartupEvents.run.wp M Q = M.step (.runner .startupEvents) (fun r => Q (.ok r)) := rfl

@[simp] theorem wp_useEnvironment (env : Environment)
    (Q : Except Raised (Except PyExc Unit) → G → Prop) :
    (useEnvironment env).run.wp M Q = M.step (.useEnvironment env) (fun r => Q (.ok r)) := rfl

@[simp] theorem wp_snapshot (s : Option String) (o : List OutputItem) (n : Nat)
    (Q : Except Raised (Except PyExc ServerStats) → G → Prop) :
    (snapshot s o n).run.wp M Q = M.step (.snapshot s o n) (fun r => Q (.ok r)) := rfl

@[simp] theorem wp_subscribersAdd (i : Bytes) (Q : Except Raised Unit → G → Prop) :
    (subscribersAdd i).run.wp M Q = M.step (.subscribersAdd i) (fun r => Q (.ok r)) := rfl

@[simp] theorem wp_subscribersDiscard (i : Bytes) (Q : Except Raised Unit → G → Prop) :
    (subscribersDiscard i).run.wp M Q = M.step (.subscribersDiscard i) (fun r => Q (.ok r)) := rfl

@[simp] theorem wp_perfCounter (Q : Except Raised Rat → G → Prop) :
    perfCounter.run.wp M Q = M.step .perfCounter (fun r => Q (.ok r)) := rfl

@[simp] theorem wp_traceback (e : PyError) (Q : Except Raised Traceback → G → Prop) :
    (traceback e).run.wp M Q = M.step (.traceback e) (fun r => Q (.ok r)) := rfl

@[simp] theorem wp_getFrameAsync (env : Environment) (clip : VideoNode) (n : Int)
    (Q : Except Raised (Except PyExc Unit) → G → Prop) :
    (getFrameAsync env clip n).run.wp M Q = M.step (.getFrameAsync env clip n) (fun r => Q (.ok r)) := rfl

@[simp] theorem wp_awaitFrame (clip : VideoNode) (n : Int)
    (Q : Except Raised VideoFrame → G → Prop) :
    (awaitFrame clip n).run.wp M Q = M.step (.awaitFrame clip n) Q := rfl

@[simp] theorem wp_runLoad (a : LoadAction) (Q : Except Raised (List OutputItem) → G → Prop) :
    (runLoad a).run.wp M Q = M.step (.runInExecutor (.load a)) Q := rfl

@[simp] theorem wp_runTeardown (Q : Except Raised Unit → G → Prop) :
    runTeardown.run.wp M Q = M.step (.runInExecutor .teardown) Q := rfl

@[simp] theorem wp_runExtract (f : VideoFrame) (c : Compression)
    (Q : Except Raised (List Bytes × Nat) → G → Prop) :
    (runExtract f c).run.wp M Q = M.step (.runInExecutor (.extract f c)) Q := rfl

@[simp] theorem wp_sendMultipart (origin : SendOrigin) (parts : List Bytes)
    (Q : Except Raised Unit → G → Prop) :
    (sendMultipart origin parts).run.wp M Q = M.step (.send origin parts) Q := rfl

@[simp] theorem wp_closeFrame (f : Nat) (Q : Unit → G → Prop) :
    (closeFrame f).wp M Q = M.step (.closeFrame f) Q := rfl

@[simp] theorem wp_endRequest (identity : Bytes) (key : Bytes × Nat) (Q : Unit → G → Prop) :
    (endRequest identity key).wp M Q =
      M.step (.metrics (.requestEnd identity)) (fun _ => M.step (.inflightPop key) Q) := rfl

end Handler

/-- The handler ends, however it ends, in the ghost state it started in. -/
def Keeps {G α : Type} (M : Coro.Monitor srvSig G) (g : G) (x : Handler α) : Prop :=
  x.run.wp M (fun _ g' => g' = g) g

namespace Keeps

variable {G α β : Type} {M : Coro.Monitor srvSig G} {g : G} {x : Handler α}

theorem pure (a : α) : Keeps M g (pure a) := rfl

theorem throw (e : Raised) : Keeps M g (throw e : Handler α) := rfl

theorem ofExcept (r : Except PyExc α) : Keeps M g (Handler.ofExcept r) := by
  cases r <;> rfl

theorem bind {f : α → Handler β} (hx : Keeps M g x) (hf : ∀ a, Keeps M g (f a)) : Keeps M g (x >>= f) := by
  unfold Keeps
  rw [Coro.wp_run_bind]
  refine Coro.wp_mono _ hx ?_
  rintro r g' rfl
  cases r with
  | ok a => exact hf a
  | error e => rfl

theorem tryCatch {f : Raised → Handler α} (hx : Keeps M g x) (hf : ∀ e, Keeps M g (f e)) :
    Keeps M g (tryCatch x f) := by
  unfold Keeps
  rw [Coro.wp_run_tryCatch]
  refine Coro.wp_mono _ hx ?_
  rintro r g' rfl
  cases r with
  | ok a => rfl
  | error e => exact hf e

theorem tryExcept {f : PyExc → Handler α} (hx : Keeps M g x) (hf : ∀ e, Keeps M g (f e)) :
    Keeps M g (Handler.tryExcept x f) := by
  refine hx.tryCatch ?_
  rintro (_ | e)
  · exact .throw _
  · exact hf e

theorem tryFinally {fin : Coro srvSig Unit} (hx : Keeps M g x)
    (hfin : fin.wp M (fun _ g' => g' = g) g) : Keeps M g (Coro.tryFinally x fin) := by
  unfold Keeps
  rw [Coro.wp_run_tryFinally]
  refine Coro.wp_mono _ hx ?_
  rintro r g' rfl
  exact hfin

theorem lift {o : SrvOp} (hpre : M.pre g o) (hnext : ∀ r, M.allows g o r → M.next g o r = g) :
    Keeps M g (ExceptT.lift (Coro.op (S := srvSig) o) : Handler o.Res) := by
  unfold Keeps
  rw [Coro.wp_run_lift]
  exact ⟨hpre, hnext⟩

theorem ite' {c : Prop} [Decidable c] {y : Handler α} (hx : c → Keeps M g x) (hy : ¬ c → Keeps M g y) :
    Keeps M g (if c then x else y) := by
  by_cases hc : c
  · rw [if_pos hc]
    exact hx hc
  · rw [if_neg hc]
    exact hy hc

theorem ite {c : Prop} [Decidable c] {y : Handler α} (hx : Keeps M g x) (hy : Keeps M g y) :
    Keeps M g (if c then x else y) := .ite' (fun _ => hx) (fun _ => hy)

end Keeps

section

variable {d : Daemon} {msg : List Bytes} {req : RequestEnvelope}

theorem handleMessage_of_tokenRefused (hreq : RequestEnvelope.fromFrames msg = .ok req)
    {refused : Bool} (htr : tokenRefused d.authToken req.authToken = .ok refused) :
    handleMessage d msg = if refused then
      sendErrorText d req .unauthorized "Unauthorized: invalid or missing auth token"
      else acceptRequest d req := by
  unfold handleMessage
  rw [hreq]
  simp only [htr]
  rfl

theorem handleMessage_of_tokenError (hreq : RequestEnvelope.fromFrames msg = .ok req)
    {e : PyExc} (htr : tokenRefused d.authToken req.authToken = .error e) :
    handleMessage d msg = throw (.exc e) := by
  unfold handleMessage
  rw [hreq]
  simp only [htr]
  rfl

end

end VsRemote
