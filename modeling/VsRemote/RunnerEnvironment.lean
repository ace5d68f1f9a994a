import VsRemote.RunnerSteps

/-! The environment of the runner, what disposes it and what installs one. -/

namespace VsRemote

def RunnerState.disposals (s : RunnerState) : List Nat :=
  s.calls.filterMap (fun
    | .disposeEnvironment id => some id
    | _ => none)

/-- `dispose()` of the environment has been called. -/
def RunnerState.disposed (s : RunnerState) (env : Environment) : Bool := s.disposals.contains env.id

/-- Only the environment in the runner is disposed, if it is a managed one. -/
def DisposesOwn (s s' : RunnerState) : Prop :=
  s'.disposals = s.disposals ∨
    ∃ env, s.runner.environment = some env ∧ env.managed = true ∧ s'.disposals = s.disposals ++ [env.id]

namespace ScriptRunner

open RunM (Leaves)

def environmentView (s : RunnerState) : Option Environment × List Nat := (s.runner.environment, s.disposals)

theorem leaves_view_disposeScript (w : TeardownWorld) : Leaves environmentView (disposeScript w) := by
  refine .bind .get (fun st => ?_)
  split
  · refine .bind (.outside _ (fun s => ?_)) (fun _ => .update (fun _ => rfl))
    simp only [environmentView, RunnerState.disposals, List.filterMap_append, List.filterMap_cons,
      List.filterMap_nil, List.append_nil]
  · exact .pure ()

theorem leaves_view_ensurePolicy (w : LoadWorld) : Leaves environmentView (ensurePolicy w none) := by
  refine leaves_ensurePolicy w (fun _ _ _ => rfl) (fun s id => ?_)
  simp only [environmentView, RunnerState.disposals, List.filterMap_append, List.filterMap_cons,
    List.filterMap_nil, List.append_nil]

/-- How the disposal of the environment ends: without a managed one it makes no call. -/
theorem disposeEnvironment_cases (w : TeardownWorld) (s : RunnerState) :
    (disposeEnvironment w).exec s = (.ok (), { s with runner := { s.runner with environment := none } }) ∨
    ∃ env, s.runner.environment = some env ∧ env.managed = true ∧
      ((disposeEnvironment w).exec s = (.ok (), { s with
          runner := { s.runner with environment := none }, calls := s.calls ++ [.disposeEnvironment env.id] }) ∨
        ∃ e, (disposeEnvironment w).exec s =
          (.error e, { s with calls := s.calls ++ [.disposeEnvironment env.id] })) := by
  cases he : s.runner.environment with
  | none => exact .inl (by simp [disposeEnvironment, he])
  | some env =>
    cases hm : env.managed with
    | false => exact .inl (by simp [disposeEnvironment, he, hm])
    | true =>
      refine .inr ⟨env, rfl, hm, ?_⟩
      cases hw : w.disposeEnvironment with
      | none => exact .inl (by simp [disposeEnvironment, he, hm, hw])
      | some e => exact .inr ⟨e, by simp [disposeEnvironment, he, hm, hw]⟩

theorem disposals_concat {s s' : RunnerState} {env : Environment} (he : s.runner.environment = some env)
    (hm : env.managed = true) (hc : s'.calls = s.calls ++ [.disposeEnvironment env.id]) : DisposesOwn s s' := by
  refine .inr ⟨env, he, hm, ?_⟩
  simp only [RunnerState.disposals, hc, List.filterMap_append, List.filterMap_cons, List.filterMap_nil]

theorem disposeEnvironment_environment (w : TeardownWorld) (s : RunnerState) :
    let s' := ((disposeEnvironment w).exec s).2
    (s'.runner.environment = none ∨ s'.runner.environment = s.runner.environment) ∧ DisposesOwn s s' ∧
      (((disposeEnvironment w).exec s).1 = .ok () → s'.runner.environment = none) := by
  rcases disposeEnvironment_cases w s with hex | ⟨env, he, hm, hex | ⟨e, hex⟩⟩
  · rw [hex]
    exact ⟨.inl rfl, .inl rfl, fun _ => rfl⟩
  · rw [hex]
    exact ⟨.inl rfl, disposals_concat he hm rfl, fun _ => rfl⟩
  · rw [hex]
    exact ⟨.inr rfl, disposals_concat he hm rfl, fun hok => by cases hok⟩

theorem teardown_environment (w : TeardownWorld) (s : RunnerState) :
    let s' := ((teardownEnvironment w).exec s).2
    (s'.runner.environment = none ∨ s'.runner.environment = s.runner.environment) ∧ DisposesOwn s s' ∧
      (((teardownEnvironment w).exec s).1 = .ok () → s'.runner.environment = none) := by
  have hclear : Leaves environmentView clearStores := .modify (fun _ => rfl)
  have hbefore : Leaves environmentView (do clearStores; disposeScript w : RunM Unit) :=
    .bind hclear (fun _ => leaves_view_disposeScript w)
  have hs := hbefore s
  have heq : (teardownEnvironment w).exec s =
      ((do clearStores; disposeScript w : RunM Unit) >>= fun _ => disposeEnvironment w).exec s := by
    simp only [teardownEnvironment, bind_assoc]
  rw [heq, RunM.exec_bind]
  rcases hex : (do clearStores; disposeScript w : RunM Unit).exec s with ⟨_ | _, s₁⟩
  · rw [hex] at hs
    obtain ⟨henv, hdis⟩ := Prod.mk.inj hs
    exact ⟨.inr henv, .inl hdis, fun hok => by cases hok⟩
  · rw [hex] at hs
    obtain ⟨henv, hdis⟩ := Prod.mk.inj hs
    have henv : s₁.runner.environment = s.runner.environment := henv
    have hdis : s₁.disposals = s.disposals := hdis
    have hdispose := disposeEnvironment_environment w s₁
    simp only [DisposesOwn, henv, hdis] at hdispose
    exact hdispose

/-- A load past its preconditions installs the environment of its script, or it
leaves no output. -/
theorem loadAfter_environment {f : ScriptRunner → ScriptRunner} (hf : ∀ r, (f r).stores = r.stores)
    (w : LoadWorld) (source : ScriptSource) (s : RunnerState) :
    let s' := ((loadAfter w f source).exec s).2
    DisposesOwn s s' ∧ (s'.runner.stores = .empty ∨
      ∃ script, w.script = .ok script ∧ s'.runner.environment = some script.environment) := by
  have hdown := teardown_environment w.teardown s
  have hempty := teardown_stores w.teardown s
  rw [loadAfter, RunM.exec_bind]
  rcases hex : (teardownEnvironment w.teardown).exec s with ⟨_ | _, s₁⟩
  · rw [hex] at hdown hempty
    exact ⟨hdown.2.1, .inl hempty⟩
  rw [hex] at hdown hempty
  dsimp only
  rw [RunM.exec_bind, exec_update]
  dsimp only
  have hview : ∀ s₂ : RunnerState, s₂.disposals = s₁.disposals → DisposesOwn s s₂ := by
    intro s₂ hs₂
    simp only [DisposesOwn, hs₂]
    exact hdown.2.1
  have hupd : (f s₁.runner).stores = .empty := (hf s₁.runner).trans hempty
  have hpol := leaves_view_ensurePolicy w { s₁ with runner := f s₁.runner }
  have hpolStores := keepsStores_ensurePolicy w { s₁ with runner := f s₁.runner }
  rw [RunM.exec_bind]
  rcases hex₂ : (ensurePolicy w none).exec { s₁ with runner := f s₁.runner } with ⟨_ | _, s₂⟩
  · rw [hex₂] at hpol hpolStores
    exact ⟨hview s₂ (congrArg Prod.snd hpol), .inl (hpolStores.trans hupd)⟩
  rw [hex₂] at hpol hpolStores
  dsimp only
  have hdis₂ : s₂.disposals = s₁.disposals := congrArg Prod.snd hpol
  have hcall : ({ s₂ with calls := s₂.calls ++ [.evaluate source] } : RunnerState).disposals = s₁.disposals := by
    rw [← hdis₂]
    simp only [RunnerState.disposals, List.filterMap_append, List.filterMap_cons, List.filterMap_nil, List.append_nil]
  rw [execute, RunM.exec_bind, exec_outside]
  dsimp only
  rw [RunM.exec_bind, exec_update]
  dsimp only
  rw [RunM.exec_bind, exec_ofExcept]
  cases hscript : w.script with
  | error e =>
    refine ⟨hview _ ?_, .inl ?_⟩
    · simpa only [RunnerState.disposals] using hcall
    · simpa only [ScriptRunner.stores] using hpolStores.trans hupd
  | ok script =>
    have hrest : Leaves environmentView (do
        modify (fun s => { s with
          outputMetadata := w.metadata.foldl (fun d kv => d.set kv.1 kv.2) s.outputMetadata })
        raiseIf w.result
        extractOutputs w : RunM (List OutputItem)) :=
      .bind (.modify (fun _ => rfl)) (fun _ => .bind (.raiseIf _)
        (fun _ => leaves_extractOutputs w (fun _ _ _ _ => rfl)))
    dsimp only
    rw [RunM.exec_bind, exec_update]
    dsimp only
    obtain ⟨henv, hdis⟩ := Prod.mk.inj (hrest { s₂ with
      runner := { s₂.runner with
        startupEvents := appendEvents s₂.runner.startupEvents w.events
        script := some script, environment := some script.environment }
      calls := s₂.calls ++ [.evaluate source] })
    refine ⟨hview _ ?_, .inr ⟨script, rfl, henv⟩⟩
    simpa only [RunnerState.disposals] using hdis.trans hcall

end ScriptRunner

/-- A load that gets past its preconditions: the environment and the outputs it leaves. -/
theorem LoadAction.run_environment {a : LoadAction} {w : LoadWorld} {s : RunnerState}
    (ht : a.touches w s.runner = true) :
    let s' := ((a.run w).exec s).2
    DisposesOwn s s' ∧ (s'.runner.stores = .empty ∨
      ∃ script, w.script = .ok script ∧ s'.runner.environment = some script.environment) := by
  obtain ⟨chdir, source, -, hafter⟩ := LoadAction.run_after ht
  rw [hafter]
  refine ScriptRunner.loadAfter_environment ?_ w source s
  exact fun _ => rfl

end VsRemote
