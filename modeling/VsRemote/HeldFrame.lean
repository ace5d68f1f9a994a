import VsRemote.HandlerKeeps

/-! The frame a handler holds: it renders at most one, extracts and closes only
the one it holds, and holds none when it is over. -/

namespace VsRemote

open Handler

def holdMonitor : Coro.Monitor srvSig (Option Nat) where
  pre
    | held, .awaitFrame _ _ => held = none
    | held, .closeFrame f => held = some f
    | held, .runInExecutor (.extract f _) => held = some f.id
    | _, _ => True
  allows _ _ _ := True
  next
    | _, .awaitFrame _ _, .ok f => some f.id
    | _, .closeFrame _, _ => none
    | held, _, _ => held

/-- The handler ends, however it ends, with the frame it started with. -/
abbrev KeepsHeld (held : Option Nat) {α : Type} (x : Handler α) : Prop := Keeps holdMonitor held x

section

variable {held : Option Nat} (d : Daemon) (req : RequestEnvelope)

theorem quietOnPlain_hold : QuietOnPlain holdMonitor held := by
  intro o ho
  cases o with
  | awaitFrame clip n => cases ho
  | closeFrame f => cases ho
  | runInExecutor job => cases ho
  | _ => exact ⟨trivial, fun _ _ => rfl⟩

theorem quietOnClips_hold : QuietOnClips holdMonitor held :=
  ⟨fun _ => ⟨trivial, fun _ _ => rfl⟩, fun _ _ _ => ⟨trivial, fun _ _ => rfl⟩⟩

theorem keepsHeld_dispatchExecutor (α : Type) [Packed α] (typeName : String) (action : α → LoadAction) :
    KeepsHeld held (dispatchExecutor d req α typeName action) :=
  keeps_dispatchExecutor d req quietOnPlain_hold.served α typeName action (fun _ => ⟨trivial, fun _ _ => rfl⟩)
    ⟨trivial, fun _ _ => rfl⟩

/-- The frame taken up by `await` is closed by the end of the `with` block. -/
theorem keepsHeld_renderAndSend (frameReq : FrameRequest) (clip : VideoNode) (renderStart : Rat) :
    KeepsHeld none (renderAndSend d req frameReq clip renderStart) := by
  refine keeps_renderAndSend d req quietOnPlain_hold.served quietOnClips_hold frameReq clip renderStart ?_
  unfold Keeps
  rw [Coro.wp_run_bind, wp_awaitFrame]
  refine ⟨rfl, fun r _ => ?_⟩
  cases r with
  | error e => rfl
  | ok frame =>
    have hextract : Quiet holdMonitor (some frame.id) (.runInExecutor (.extract frame frameReq.compression)) :=
      ⟨rfl, fun _ _ => rfl⟩
    simp only [Coro.wp_run_tryFinally]
    refine Coro.wp_mono _ (keeps_sendFrame d req quietOnPlain_hold.served frameReq frame renderStart quietOnPlain_hold.frames hextract) ?_
    rintro r held' rfl
    exact ⟨rfl, fun _ _ => rfl⟩

theorem keepsHeld_handleRequest (msg : List Bytes) : KeepsHeld none (handleRequest d msg) :=
  keeps_handleRequest d quietOnPlain_hold msg
    (fun req => keeps_handleGetFrame d req quietOnPlain_hold.served quietOnPlain_hold.frames quietOnClips_hold (keepsHeld_renderAndSend d req))
    (fun req _ _ α _ typeName action _ => keepsHeld_dispatchExecutor d req α typeName action)

end

end VsRemote
