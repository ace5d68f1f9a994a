import VsRemote.Jobs

/-! What the methods of `ScriptRunner` leave behind, whatever the outside
world answers. -/

namespace VsRemote

namespace RunM

variable {α β : Type} (s : RunnerState)

@[simp] theorem exec_pure (a : α) : (pure a : RunM α).exec s = (.ok a, s) := rfl

@[simp] theorem exec_throw (e : PyExc) : (throw e : RunM α).exec s = (.error e, s) := rfl

@[simp] theorem exec_get : (get : RunM RunnerState).exec s = (.ok s, s) := rfl

@[simp] theorem exec_modify (f : RunnerState → RunnerState) :
    (modify f : RunM Unit).exec s = (.ok (), f s) := rfl

@[simp] theorem exec_bind (x : RunM α) (f : α → RunM β) :
    (x >>= f).exec s = match x.exec s with
      | (.ok a, s') => (f a).exec s'
      | (.error e, s') => (.error e, s') := by
  change StateT.run (ExceptT.run (x >>= f)) s = _
  rw [ExceptT.run_bind]
  rcases h : x.exec s with ⟨r, s'⟩
  have h' : StateT.run (ExceptT.run x) s = (r, s') := h
  simp only [StateT.run_bind, h']
  cases r <;> rfl

theorem exec_bind_ok {s} {s' : RunnerState} {x : RunM α} {f : α → RunM β} {b : β}
    (h : (x >>= f).exec s = (.ok b, s')) :
    ∃ a s₁, x.exec s = (.ok a, s₁) ∧ (f a).exec s₁ = (.ok b, s') := by
  rw [exec_bind] at h
  rcases hx : x.exec s with ⟨_ | a, s₁⟩
  · rw [hx] at h
    cases congrArg Prod.fst h
  · rw [hx] at h
    exact ⟨a, s₁, rfl, h⟩

theorem exec_bind_error {s} {s' : RunnerState} {x : RunM α} {f : α → RunM β} {e : PyExc}
    (h : (x >>= f).exec s = (.error e, s')) :
    x.exec s = (.error e, s') ∨ ∃ a s₁, x.exec s = (.ok a, s₁) ∧ (f a).exec s₁ = (.error e, s') := by
  rw [exec_bind] at h
  rcases hx : x.exec s with ⟨_ | a, s₁⟩
  · rw [hx] at h
    obtain ⟨he, rfl⟩ := Prod.mk.inj h
    obtain rfl := Except.error.inj he
    exact .inl rfl
  · rw [hx] at h
    exact .inr ⟨a, s₁, rfl, h⟩

@[simp] theorem exec_ite (c : Prop) [Decidable c] (x y : RunM α) :
    (if c then x else y).exec s = if c then x.exec s else y.exec s := by
  split <;> rfl

/-- What `f` reads of the state is not changed. -/
def Leaves {γ : Type} (f : RunnerState → γ) (x : RunM α) : Prop :=
  ∀ s : RunnerState, f (x.exec s).2 = f s

namespace Leaves

variable {γ : Type} {f : RunnerState → γ} {x : RunM α}

theorem bind {k : α → RunM β} (hx : Leaves f x) (hk : ∀ a, Leaves f (k a)) : Leaves f (x >>= k) := by
  intro s
  have hs := hx s
  rw [exec_bind]
  rcases hex : x.exec s with ⟨_ | a, s₁⟩
  · rw [hex] at hs
    exact hs
  · rw [hex] at hs
    exact (hk a s₁).trans hs

theorem pure (a : α) : Leaves f (pure a : RunM α) := fun _ => rfl

theorem throw (e : PyExc) : Leaves f (throw e : RunM α) := fun _ => rfl

theorem get : Leaves f (get : RunM RunnerState) := fun _ => rfl

theorem ite {c : Prop} [Decidable c] {y : RunM α} (hx : c → Leaves f x) (hy : ¬ c → Leaves f y) :
    Leaves f (if c then x else y) := by
  by_cases hc : c
  · rw [if_pos hc]
    exact hx hc
  · rw [if_neg hc]
    exact hy hc

theorem modify {g : RunnerState → RunnerState} (hg : ∀ s, f (g s) = f s) :
    Leaves f (modify g : RunM Unit) := hg

theorem update {g : ScriptRunner → ScriptRunner} (hg : ∀ s, f { s with runner := g s.runner } = f s) :
    Leaves f (ScriptRunner.update g) := hg

theorem ofExcept (r : Except PyExc α) : Leaves f (ScriptRunner.ofExcept r) := by
  cases r with
  | ok a => exact pure a
  | error e => exact throw e

theorem raiseIf (raises : Option PyExc) : Leaves f (ScriptRunner.raiseIf raises) := by
  cases raises with
  | none => exact pure ()
  | some e => exact throw e

theorem outside {c : VsCall} (raises : Option PyExc) (hf : ∀ s : RunnerState, f { s with calls := s.calls ++ [c] } = f s) :
    Leaves f (ScriptRunner.outside c raises) := by
  refine .bind (.modify hf) (fun _ => ?_)
  cases raises with
  | none => exact pure ()
  | some e => exact throw e

end Leaves

end RunM

namespace ScriptRunner

variable {w : TeardownWorld} {s s' : RunnerState}

@[simp] theorem exec_update (f : ScriptRunner → ScriptRunner) :
    (update f).exec s = (.ok (), { s with runner := f s.runner }) := rfl

@[simp] theorem exec_outside (c : VsCall) (raises : Option PyExc) :
    (outside c raises).exec s = (match raises with
      | some e => .error e
      | none => .ok (), { s with calls := s.calls ++ [c] }) := by
  cases raises <;> rfl

@[simp] theorem exec_raiseIf (raises : Option PyExc) :
    (raiseIf raises).exec s = (match raises with
      | some e => .error e
      | none => .ok (), s) := by
  cases raises <;> rfl

@[simp] theorem exec_ofExcept {α : Type} (x : Except PyExc α) : (ofExcept x).exec s = (x, s) := by
  cases x <;> rfl

def tornDown (r : ScriptRunner) : ScriptRunner :=
  { r with
    clips := .empty, clipInfos := .empty, outputItems := [], startupEvents := []
    script := none, environment := none }

theorem exec_disposeScript :
    ∃ r cs, (disposeScript w).exec s =
      (r, { s with
        runner := { s.runner with script := if r = .ok () then none else s.runner.script }
        calls := cs }) ∧ (w.disposeScript = none → r = .ok ()) := by
  unfold disposeScript
  simp only [RunM.exec_bind, RunM.exec_get]
  cases hs : s.runner.script with
  | none => exact ⟨.ok (), s.calls, by simp [← hs], fun _ => rfl⟩
  | some script =>
    simp only [RunM.exec_bind, exec_outside]
    cases hw : w.disposeScript with
    | none => exact ⟨.ok (), s.calls ++ [.disposeScript script.id], by simp, fun _ => rfl⟩
    | some e =>
      exact ⟨.error e, s.calls ++ [.disposeScript script.id], by simp [← hs], fun hn => by cases hn⟩

theorem exec_disposeEnvironment :
    ∃ r cs, (disposeEnvironment w).exec s =
      (r, { s with
        runner := { s.runner with environment := if r = .ok () then none else s.runner.environment }
        calls := cs }) ∧ (w.disposeEnvironment = none → r = .ok ()) := by
  unfold disposeEnvironment
  simp only [RunM.exec_bind, RunM.exec_get]
  cases he : s.runner.environment with
  | none => exact ⟨.ok (), s.calls, by simp, fun _ => rfl⟩
  | some env =>
    simp only [RunM.exec_ite]
    cases env.managed with
    | false => exact ⟨.ok (), s.calls, by simp, fun _ => rfl⟩
    | true =>
      cases hw : w.disposeEnvironment with
      | none =>
        exact ⟨.ok (), s.calls ++ [.disposeEnvironment env.id], by simp, fun _ => rfl⟩
      | some e =>
        exact ⟨.error e, s.calls ++ [.disposeEnvironment env.id], by simp [← he], fun hn => by cases hn⟩

/-- The three ways a teardown can end: the stores are cleared in all of them. -/
theorem exec_teardownEnvironment (w : TeardownWorld) (s : RunnerState) :
    ∃ r script environment cs, (teardownEnvironment w).exec s =
      (r, { runner := { tornDown s.runner with script := script, environment := environment }
            outputMetadata := .empty, calls := cs }) ∧
      (r = .ok () → script = none ∧ environment = none) ∧
      (w.disposeScript = none → w.disposeEnvironment = none → r = .ok ()) := by
  unfold teardownEnvironment clearStores
  simp only [RunM.exec_bind, RunM.exec_modify]
  obtain ⟨r₁, cs₁, h₁, hw₁⟩ := exec_disposeScript (w := w) (s := { s with
    runner := { s.runner with
      clips := .empty, clipInfos := .empty, outputItems := [], startupEvents := [] }
    outputMetadata := .empty })
  rw [h₁]
  cases r₁ with
  | error e =>
    refine ⟨.error e, s.runner.script, s.runner.environment, cs₁, ?_, (fun he => by cases he), ?_⟩
    · simp [tornDown]
    · intro hs _
      exact absurd (hw₁ hs) (by simp)
  | ok _ =>
    obtain ⟨r₂, cs₂, h₂, hw₂⟩ := exec_disposeEnvironment (w := w) (s := {
      runner := { s.runner with
        clips := .empty, clipInfos := .empty, outputItems := [], startupEvents := [], script := none }
      outputMetadata := .empty, calls := cs₁ })
    simp only [if_true, h₂]
    cases r₂ with
    | error e =>
      refine ⟨.error e, none, s.runner.environment, cs₂, ?_, (fun he => by cases he), ?_⟩
      · simp [tornDown]
      · intro _ he
        exact absurd (hw₂ he) (by simp)
    | ok _ =>
      refine ⟨.ok (), none, none, cs₂, ?_, fun _ => ⟨rfl, rfl⟩, fun _ _ => rfl⟩
      simp [tornDown]

theorem teardown_ok (h : (teardownEnvironment w).exec s = (.ok (), s')) : s'.runner = tornDown s.runner := by
  obtain ⟨r, script, environment, cs, hex, hok, -⟩ := exec_teardownEnvironment w s
  rw [hex] at h
  obtain ⟨rfl, rfl⟩ := Prod.mk.inj h
  obtain ⟨rfl, rfl⟩ := hok rfl
  rfl

theorem teardown_succeeds (hs : w.disposeScript = none) (he : w.disposeEnvironment = none) :
    ((teardownEnvironment w).exec s).1 = .ok () := by
  obtain ⟨r, script, environment, cs, hex, -, hok⟩ := exec_teardownEnvironment w s
  rw [hex]
  exact hok hs he

theorem exec_loadScript_missing {w : LoadWorld} {scriptPath : String} (chdir : Bool)
    (hf : w.isFile (w.resolve scriptPath) = false) :
    ∃ e, (loadScript w scriptPath none chdir).exec s = (.error e, s) ∧ e.isNotFound = true := by
  refine ⟨.ofText .fileNotFoundError ("Script not found: " ++ w.resolve scriptPath), ?_, rfl⟩
  simp [loadScript, hf]

theorem teardown_stores (w : TeardownWorld) (s : RunnerState) :
    ((teardownEnvironment w).exec s).2.runner.stores = .empty := by
  obtain ⟨r, script, environment, cs, hex, -, -⟩ := exec_teardownEnvironment w s
  rw [hex]
  rfl

def KeepsStores {α : Type} (x : RunM α) : Prop :=
  ∀ s : RunnerState, (x.exec s).2.runner.stores = s.runner.stores

theorem KeepsStores.bind {α β : Type} {x : RunM α} {f : α → RunM β} (hx : KeepsStores x)
    (hf : ∀ a, KeepsStores (f a)) : KeepsStores (x >>= f) :=
  RunM.Leaves.bind (f := fun s => s.runner.stores) hx hf

theorem keepsStores_update {f : ScriptRunner → ScriptRunner} (hf : ∀ r, (f r).stores = r.stores) :
    KeepsStores (update f) := fun s => hf s.runner

theorem keepsStores_outside (c : VsCall) (raises : Option PyExc) : KeepsStores (outside c raises) :=
  RunM.Leaves.outside (f := fun s => s.runner.stores) raises (fun _ => rfl)

theorem keepsStores_get : KeepsStores (get : RunM RunnerState) := fun _ => rfl

theorem keepsStores_pure {α : Type} (a : α) : KeepsStores (pure a : RunM α) := fun _ => rfl

theorem close_stores (w : TeardownWorld) (isRegistered : Bool) (s : RunnerState) {unregister : Option PyExc} :
    ((close w isRegistered unregister).exec s).2.runner.stores = .empty := by
  have hdown := teardown_stores w s
  unfold close
  rw [RunM.exec_bind]
  rcases hex : (teardownEnvironment w).exec s with ⟨_ | _, s₁⟩
  · rw [hex] at hdown
    exact hdown
  · rw [hex] at hdown
    refine Eq.trans ?_ hdown
    refine KeepsStores.bind keepsStores_get (fun st => ?_) s₁
    dsimp only
    split
    · split
      · split
        · exact .bind (keepsStores_outside _ _) (fun _ => keepsStores_update (fun _ => rfl))
        · exact keepsStores_update (fun _ => rfl)
      · exact keepsStores_pure ()
    · exact keepsStores_pure ()

theorem leaves_ensurePolicy {γ : Type} {f : RunnerState → γ} (w : LoadWorld)
    (hpolicy : ∀ (s : RunnerState) p b, f { s with runner := { s.runner with policy := p, registeredPolicy := b } } = f s)
    (hcalls : ∀ (s : RunnerState) id, f { s with calls := s.calls ++ [.registerPolicy id] } = f s) :
    RunM.Leaves f (ensurePolicy w none) := by
  refine .bind (.pure ()) (fun _ => .bind .get (fun st => ?_))
  split
  · exact .pure _
  · refine .ite (fun _ => .pure _) (fun _ => ?_)
    refine .bind (.update (fun s => hpolicy s _ s.runner.registeredPolicy)) (fun _ => ?_)
    refine .bind (.outside _ (fun s => hcalls s _)) (fun _ => ?_)
    exact .bind (.update (fun s => hpolicy s s.runner.policy true)) (fun _ => .pure _)

theorem keepsStores_ensurePolicy (w : LoadWorld) : KeepsStores (ensurePolicy w none) :=
  leaves_ensurePolicy (f := fun s => s.runner.stores) w (fun _ _ _ => rfl) (fun _ _ => rfl)

theorem leaves_registerOutputs {γ : Type} {f : RunnerState → γ} (entries : List (Int × Output))
    (hf : ∀ (s : RunnerState) clips infos items,
      f { s with runner := { s.runner with clips := clips, clipInfos := infos, outputItems := items } } = f s) :
    RunM.Leaves f (registerOutputs entries) := by
  induction entries with
  | nil => exact .pure ()
  | cons entry rest ih =>
    obtain ⟨idx, output⟩ := entry
    cases output with
    | audio => exact ih
    | video clip =>
      refine .bind .get (fun st => .bind (.ofExcept _) (fun info => ?_))
      exact .bind (.update (fun s => hf s _ _ _)) (fun _ => ih)

theorem leaves_extractOutputs {γ : Type} {f : RunnerState → γ} (w : LoadWorld)
    (hf : ∀ (s : RunnerState) clips infos items,
      f { s with runner := { s.runner with clips := clips, clipInfos := infos, outputItems := items } } = f s) :
    RunM.Leaves f (extractOutputs w) := by
  refine .bind .get (fun st => ?_)
  have hrest : RunM.Leaves f (do
      let outputs ← ofExcept w.outputs
      registerOutputs outputs.entries
      return (← get).runner.outputItems : RunM (List OutputItem)) :=
    .bind (.ofExcept _) (fun outputs => .bind (leaves_registerOutputs _ hf) (fun _ => .bind .get (fun _ => .pure _)))
  exact .ite (fun _ => .bind (.throw _) (fun _ => hrest)) (fun _ => hrest)

def videos : List (Int × Output) → List VideoNode
  | [] => []
  | (_, .audio) :: rest => videos rest
  | (_, .video clip) :: rest => clip :: videos rest

/-- `ClipInfo.from_clip` raises on it. -/
def rejected (clip : VideoNode) : Bool := clip.format.id = 0

/-- The first clip is registered before a later one is rejected. -/
def partlyRejected (entries : List (Int × Output)) : Bool :=
  match videos entries with
  | [] => false
  | clip :: rest => ! rejected clip && rest.any rejected

theorem registerOutputs_error {entries : List (Int × Output)} {e : PyExc}
    (h : (registerOutputs entries).exec s = (.error e, s')) :
    (videos entries).any rejected = true ∧ (partlyRejected entries = false → s' = s) := by
  induction entries generalizing s with
  | nil => cases congrArg Prod.fst h
  | cons entry rest ih =>
    obtain ⟨idx, out⟩ := entry
    cases out with
    | audio => exact ih h
    | video clip =>
      simp only [registerOutputs, RunM.exec_bind, RunM.exec_get, exec_ofExcept] at h
      by_cases hrej : clip.format.id = 0
      · obtain ⟨e', he'⟩ := ClipInfo.fromClip_error_iff.2 hrej
        rw [he'] at h
        refine ⟨by simp [videos, rejected, hrej], fun _ => (Prod.mk.inj h).2.symm⟩
      · obtain ⟨info, hinfo, -⟩ := ClipInfo.fromClip_ok hrej (outputName s.outputMetadata idx)
        rw [hinfo] at h
        obtain ⟨hany, -⟩ := ih h
        refine ⟨by simp [videos, hany], fun hpart => ?_⟩
        simp [partlyRejected, videos, rejected, hrej, hany] at hpart

theorem extractOutputs_ok {w : LoadWorld} {outs : List OutputItem}
    (h : (extractOutputs w).exec s = (.ok outs, s')) : s'.runner.outputItems = outs := by
  have htail : ∀ s₀ : RunnerState, (do
      let outputs ← ofExcept w.outputs
      registerOutputs outputs.entries
      return (← get).runner.outputItems : RunM (List OutputItem)).exec s₀ = (.ok outs, s') →
        s'.runner.outputItems = outs := by
    intro s₀ h
    obtain ⟨os, s₁, -, h⟩ := RunM.exec_bind_ok h
    obtain ⟨_, s₂, -, h⟩ := RunM.exec_bind_ok h
    obtain ⟨hout, rfl⟩ := Prod.mk.inj h
    exact Except.ok.inj hout
  unfold extractOutputs at h
  rw [RunM.exec_bind, RunM.exec_get] at h
  by_cases hscript : s.runner.script.isNone = true
  · simp only [hscript, if_true] at h
    obtain ⟨_, s₁, hthrow, -⟩ := RunM.exec_bind_ok h
    cases congrArg Prod.fst hthrow
  · simp only [hscript, Bool.false_eq_true, if_false] at h
    exact htail s h

/-- The script runs to its outputs and these are partly rejected. -/
def leavesPartial (w : LoadWorld) : Bool :=
  match w.script, w.result, w.outputs with
  | .ok _, none, .ok outputs => partlyRejected outputs.entries
  | _, _, _ => false

theorem extractOutputs_error {w : LoadWorld} {e : PyExc} (h : (extractOutputs w).exec s = (.error e, s')) :
    s'.runner.stores = s.runner.stores ∨ ∃ os, w.outputs = .ok os ∧ partlyRejected os.entries = true := by
  unfold extractOutputs at h
  rw [RunM.exec_bind, RunM.exec_get] at h
  by_cases hscript : s.runner.script.isNone = true
  · simp only [hscript, if_true, RunM.exec_bind, RunM.exec_throw] at h
    obtain ⟨-, rfl⟩ := Prod.mk.inj h
    exact .inl rfl
  · simp only [hscript, Bool.false_eq_true, if_false, RunM.exec_bind, RunM.exec_pure, exec_ofExcept] at h
    cases ho : w.outputs with
    | error e' =>
      rw [ho] at h
      obtain ⟨-, rfl⟩ := Prod.mk.inj h
      exact .inl rfl
    | ok os =>
      simp only [ho] at h
      rcases hr : (registerOutputs os.entries).exec s with ⟨e' | _, s₁⟩
      · rw [hr] at h
        obtain ⟨-, rfl⟩ := Prod.mk.inj h
        cases hp : partlyRejected os.entries with
        | true => exact .inr ⟨os, rfl, hp⟩
        | false =>
          obtain rfl := (registerOutputs_error hr).2 hp
          exact .inl rfl
      · rw [hr] at h
        cases congrArg Prod.fst h

theorem execute_ok {w : LoadWorld} {source : ScriptSource} {outs : List OutputItem} (h : (execute w source).exec s = (.ok outs, s')) :
    s'.runner.outputItems = outs := by
  unfold execute at h
  obtain ⟨_, s₀, -, h⟩ := RunM.exec_bind_ok h
  obtain ⟨_, s₁, -, h⟩ := RunM.exec_bind_ok h
  obtain ⟨script, s₂, -, h⟩ := RunM.exec_bind_ok h
  obtain ⟨_, s₃, -, h⟩ := RunM.exec_bind_ok h
  obtain ⟨_, s₄, -, h⟩ := RunM.exec_bind_ok h
  obtain ⟨_, s₅, -, h⟩ := RunM.exec_bind_ok h
  exact extractOutputs_ok h

theorem execute_error {w : LoadWorld} {source : ScriptSource} {e : PyExc} (h : (execute w source).exec s = (.error e, s'))
    (hp : leavesPartial w = false) : s'.runner.stores = s.runner.stores := by
  unfold execute at h
  simp only [RunM.exec_bind, exec_outside, exec_update, exec_ofExcept, RunM.exec_modify, exec_raiseIf] at h
  cases hs : w.script with
  | error e' =>
    simp only [hs, Prod.mk.injEq] at h
    rw [← h.2]
    simp only [stores]
  | ok script =>
    simp only [hs] at h
    cases hr : w.result with
    | some e' =>
      simp only [hr, Prod.mk.injEq] at h
      rw [← h.2]
      simp only [stores]
    | none =>
      simp only [hr] at h
      rcases extractOutputs_error h with hk | ⟨os, ho, hpart⟩
      · exact hk
      · simp [leavesPartial, hs, hr, ho, hpart] at hp

/-- What every load does once it is past its preconditions. -/
def loadAfter (w : LoadWorld) (f : ScriptRunner → ScriptRunner) (source : ScriptSource) : RunM (List OutputItem) := do
  teardownEnvironment w.teardown
  update f
  let _ ← ensurePolicy w none
  execute w source

theorem loadAfter_error {w : LoadWorld} {f : ScriptRunner → ScriptRunner} {source : ScriptSource} (hf : ∀ r, (f r).stores = r.stores)
    {e : PyExc} (h : (loadAfter w f source).exec s = (.error e, s')) (hp : leavesPartial w = false) :
    s'.runner.stores = .empty := by
  have hdown := teardown_stores w.teardown s
  rcases RunM.exec_bind_error h with h | ⟨_, s₁, h₁, h⟩
  · rw [h] at hdown
    exact hdown
  rw [h₁] at hdown
  have hupd := keepsStores_update hf s₁
  rcases RunM.exec_bind_error h with h | ⟨_, s₂, h₂, h⟩
  · cases congrArg Prod.fst h
  rw [h₂] at hupd
  have hpol := keepsStores_ensurePolicy w s₂
  rcases RunM.exec_bind_error h with h | ⟨_, s₃, h₃, h⟩
  · rw [h] at hpol
    exact hpol.trans (hupd.trans hdown)
  rw [h₃] at hpol
  exact (execute_error h hp).trans (hpol.trans (hupd.trans hdown))

theorem loadAfter_ok {w : LoadWorld} {f : ScriptRunner → ScriptRunner} {source : ScriptSource} {outs : List OutputItem}
    (h : (loadAfter w f source).exec s = (.ok outs, s')) : s'.runner.outputItems = outs := by
  obtain ⟨_, s₁, -, h⟩ := RunM.exec_bind_ok h
  obtain ⟨_, s₂, -, h⟩ := RunM.exec_bind_ok h
  obtain ⟨_, s₃, -, h⟩ := RunM.exec_bind_ok h
  exact execute_ok h

theorem loadScript_eq {w : LoadWorld} {scriptPath : String} {chdir : Bool}
    (hf : w.isFile (w.resolve scriptPath) = true) :
    loadScript w scriptPath none chdir =
      loadAfter w (fun r => { r with scriptPath := some (w.resolve scriptPath), chdir := chdir })
        (.file (w.resolve scriptPath)) := by
  simp only [loadScript, hf, not_true_eq_false, if_false, loadAfter]

end ScriptRunner

/-- The script path the load stores, if it comes that far. -/
def LoadAction.newPath (w : LoadWorld) (r : ScriptRunner) : LoadAction → Option String
  | .reload _ => r.scriptPath.map w.resolve
  | .loadCode _ => none
  | .loadScript p => some (w.resolve p.scriptPath)

/-- What the load has vsengine execute, if it comes that far. -/
def LoadAction.source (w : LoadWorld) (r : ScriptRunner) : LoadAction → Option ScriptSource
  | .reload _ => r.scriptPath.map (fun path => .file (w.resolve path))
  | .loadCode p => some (.code p.code)
  | .loadScript p => some (.file (w.resolve p.scriptPath))

theorem LoadAction.run_after {a : LoadAction} {w : LoadWorld} {s : RunnerState} (ht : a.touches w s.runner = true) :
    ∃ (chdir : ScriptRunner → Bool) (source : ScriptSource), a.source w s.runner = some source ∧
      (a.run w).exec s = (ScriptRunner.loadAfter w (fun r =>
        { r with scriptPath := a.newPath w s.runner, chdir := chdir r }) source).exec s := by
  cases a with
  | loadCode p => exact ⟨fun r => r.chdir, _, rfl, rfl⟩
  | loadScript p => exact ⟨fun _ => p.chdir, _, rfl, by rw [run, ScriptRunner.loadScript_eq ht]; rfl⟩
  | reload p =>
    cases hpath : s.runner.scriptPath with
    | none => simp [touches, hpath] at ht
    | some path =>
      simp only [touches, hpath] at ht
      refine ⟨fun _ => p.chdir, .file (w.resolve path), by rw [source, hpath, Option.map_some], ?_⟩
      simp only [run, ScriptRunner.reload, RunM.exec_bind, RunM.exec_get, hpath, ScriptRunner.loadScript_eq ht,
        newPath, Option.map_some, Option.getD_some]

/-- A load that fails its precondition changes nothing and raises an error of
the NOT_FOUND kind. -/
theorem LoadAction.run_untouched {a : LoadAction} {w : LoadWorld} {s : RunnerState}
    (ht : a.touches w s.runner = false) :
    ∃ e, (a.run w).exec s = (.error e, s) ∧ e.isNotFound = true := by
  cases a with
  | loadCode p => cases ht
  | loadScript p => exact ScriptRunner.exec_loadScript_missing p.chdir ht
  | reload p =>
    simp only [LoadAction.run, ScriptRunner.reload, RunM.exec_bind, RunM.exec_get]
    cases hp : s.runner.scriptPath with
    | none => exact ⟨_, rfl, rfl⟩
    | some path =>
      simp only [LoadAction.touches, hp] at ht
      exact ScriptRunner.exec_loadScript_missing _ ht

theorem LoadAction.run_ok {a : LoadAction} {w : LoadWorld} {s s' : RunnerState} {outs : List OutputItem}
    (h : (a.run w).exec s = (.ok outs, s')) : s'.runner.outputItems = outs := by
  cases ht : a.touches w s.runner with
  | false =>
    obtain ⟨e, he, -⟩ := LoadAction.run_untouched ht
    rw [he] at h
    cases congrArg Prod.fst h
  | true =>
    obtain ⟨chdir, source, -, hafter⟩ := LoadAction.run_after ht
    exact ScriptRunner.loadAfter_ok (hafter ▸ h)

/-- A load that fails after it has touched the runner leaves no output, unless
its outputs were partly rejected. -/
theorem LoadAction.run_error {a : LoadAction} {w : LoadWorld} {s s' : RunnerState} {e : PyExc}
    (ht : a.touches w s.runner = true) (h : (a.run w).exec s = (.error e, s'))
    (hp : ScriptRunner.leavesPartial w = false) : s'.runner.stores = .empty := by
  obtain ⟨chdir, source, -, hafter⟩ := LoadAction.run_after ht
  rw [hafter] at h
  refine ScriptRunner.loadAfter_error ?_ h hp
  exact fun _ => rfl

theorem Job.run_cases {h : Host} {job : Job} {w : JobWorld} {s s' : RunnerState} {outcome : JobOutcome}
    (hr : job.run h w s = some (outcome, s')) :
    (∃ a lw, job = .load a ∧ w = .load lw ∧ outcome = .load ((a.run lw).exec s).1 ∧
      s' = ((a.run lw).exec s).2) ∨
    (∃ tw, job = .teardown ∧ w = .teardown tw ∧
      outcome = .teardown ((ScriptRunner.teardownEnvironment tw).exec s).1 ∧
      s' = ((ScriptRunner.teardownEnvironment tw).exec s).2) ∨
    (∃ frame compression, job = .extract frame compression ∧ s' = s) := by
  unfold run at hr
  split at hr
  · next a lw =>
    obtain ⟨rfl, rfl⟩ := Prod.mk.inj (Option.some.inj hr)
    exact .inl ⟨a, lw, rfl, rfl, rfl, rfl⟩
  · next tw =>
    obtain ⟨rfl, rfl⟩ := Prod.mk.inj (Option.some.inj hr)
    exact .inr (.inl ⟨tw, rfl, rfl, rfl, rfl⟩)
  · next frame compression e =>
    obtain ⟨rfl, rfl⟩ := Prod.mk.inj (Option.some.inj hr)
    exact .inr (.inr ⟨frame, compression, rfl, rfl⟩)
  · next frame compression =>
    obtain ⟨rfl, rfl⟩ := Prod.mk.inj (Option.some.inj hr)
    exact .inr (.inr ⟨frame, compression, rfl, rfl⟩)
  · cases hr

end VsRemote
