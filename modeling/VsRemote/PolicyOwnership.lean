import VsRemote.OutputStores
import VsRemote.RunnerEnvironment

/-! The policy of a runner. `_policy` is the runner's own or a caller's and
`_registered_policy` says which; `_ensure_policy` writes the one without the other. -/

namespace VsRemote

/-- The calls about policies among those of a runner. -/
def VsCall.aboutPolicy : VsCall → Bool
  | .registerPolicy _ | .unregisterPolicy _ => true
  | _ => false

def VsCall.registers : VsCall → Option Nat
  | .registerPolicy id => some id
  | _ => none

/-- What decides over policies. -/
structure PolicyView where
  policy : Option Policy
  registeredPolicy : Bool
  calls : List VsCall

def RunnerState.policyView (s : RunnerState) : PolicyView :=
  ⟨s.runner.policy, s.runner.registeredPolicy, s.calls.filter VsCall.aboutPolicy⟩

namespace PolicyView

def ensure (v : PolicyView) (w : LoadWorld) : Option EnvironmentArg → PolicyView
  | some (.policy p) => { v with policy := some p }
  | some (.environment _) => v
  | none =>
    if v.policy.isSome ∨ w.hasPolicy then v
    else ⟨some w.newPolicy, v.registeredPolicy || w.registerPolicy.isNone, v.calls ++ [.registerPolicy w.newPolicy.id]⟩

def close (v : PolicyView) (isRegistered : Bool) (unregister : Option PyExc) : PolicyView :=
  match v.policy with
  | some p =>
    if v.registeredPolicy then
      ⟨if isRegistered ∧ unregister.isSome then some p else none, isRegistered && unregister.isSome,
        if isRegistered then v.calls ++ [.unregisterPolicy p.id] else v.calls⟩
    else v
  | none => v

end PolicyView

/-- The disposals of a teardown that are made do not raise. -/
def ScriptRunner.disposes (w : TeardownWorld) (r : ScriptRunner) : Bool :=
  (r.script.isNone || w.disposeScript.isNone) && (!r.environment.any Environment.managed || w.disposeEnvironment.isNone)

/-- The call of `_ensure_policy` in a load, if it comes that far. -/
def RunnerOp.ensures (r : ScriptRunner) : RunnerOp → Option (LoadWorld × Option EnvironmentArg)
  | loadScript w scriptPath environment _ =>
    if w.isFile (w.resolve scriptPath) ∧ r.disposes w.teardown then some (w, environment) else none
  | loadCode w _ environment => if r.disposes w.teardown then some (w, environment) else none
  | reload w _ =>
    match r.scriptPath with
    | some path => if w.isFile (w.resolve path) ∧ r.disposes w.teardown then some (w, none) else none
    | none => none
  | _ => none

namespace ScriptRunner

open RunM (Leaves)

variable {s : RunnerState} {w : LoadWorld}

theorem policyView_outside {c : VsCall} (hc : c.aboutPolicy = false) (raises : Option PyExc) :
    Leaves RunnerState.policyView (outside c raises) := by
  refine .outside raises (fun s => ?_)
  simp [RunnerState.policyView, List.filter_append, hc]

theorem policyView_disposeScript (w : TeardownWorld) : Leaves RunnerState.policyView (disposeScript w) := by
  refine .bind .get (fun st => ?_)
  cases st.runner.script with
  | none => exact .pure _
  | some script => exact .bind (policyView_outside rfl _) (fun _ => .update (fun _ => rfl))

theorem policyView_disposeEnvironment (w : TeardownWorld) : Leaves RunnerState.policyView (disposeEnvironment w) := by
  intro s
  have hcall : ∀ id, (s.calls ++ [VsCall.disposeEnvironment id]).filter VsCall.aboutPolicy =
      s.calls.filter VsCall.aboutPolicy := by
    intro id
    rw [List.filter_append]
    exact List.append_nil _
  obtain hex | ⟨env, _, _, hex | ⟨e, hex⟩⟩ := disposeEnvironment_cases w s
  · rw [hex]
    rfl
  · rw [hex]
    simp only [RunnerState.policyView, hcall]
  · rw [hex]
    simp only [RunnerState.policyView, hcall]

theorem policyView_teardown (w : TeardownWorld) : Leaves RunnerState.policyView (teardownEnvironment w) := by
  refine .bind (.modify (fun _ => rfl)) (fun _ => ?_)
  exact .bind (policyView_disposeScript w) (fun _ => policyView_disposeEnvironment w)

theorem policyView_execute (w : LoadWorld) (source : ScriptSource) : Leaves RunnerState.policyView (execute w source) := by
  refine .bind (policyView_outside rfl _) (fun _ => ?_)
  refine .bind (.update (fun s => ?_)) (fun _ => .bind (.ofExcept _) (fun script => ?_))
  · simp only [RunnerState.policyView]
  refine .bind (.update (fun _ => rfl)) (fun _ => .bind (.modify (fun _ => rfl)) (fun _ => ?_))
  exact .bind (.raiseIf _) (fun _ => leaves_extractOutputs w (fun _ _ _ _ => rfl))

theorem policyView_ensurePolicy (w : LoadWorld) (environment : Option EnvironmentArg) (s : RunnerState) :
    ((ensurePolicy w environment).exec s).2.policyView = s.policyView.ensure w environment := by
  obtain _ | p | env := environment
  · unfold ensurePolicy
    simp only [RunM.exec_bind, RunM.exec_get, Option.isSome_none, Bool.false_eq_true, if_false]
    cases hpolicy : s.runner.policy with
    | some p => simp [PolicyView.ensure, RunnerState.policyView, hpolicy]
    | none =>
      by_cases hhas : w.hasPolicy = true
      · simp [PolicyView.ensure, RunnerState.policyView, hpolicy, hhas]
      · cases hraises : w.registerPolicy with
        | none =>
          simp only [RunM.exec_bind, exec_update, exec_outside, hhas, Bool.false_eq_true, if_false, RunM.exec_pure]
          simp [PolicyView.ensure, RunnerState.policyView, hpolicy, hhas, hraises, VsCall.aboutPolicy]
        | some e => simp [PolicyView.ensure, RunnerState.policyView, hpolicy, hhas, hraises, VsCall.aboutPolicy]
  · rfl
  · rfl

theorem teardown_ok_iff (w : TeardownWorld) (s : RunnerState) :
    ((teardownEnvironment w).exec s).1 = .ok () ↔ s.runner.disposes w = true := by
  have henvironment : ∀ s : RunnerState, ((disposeEnvironment w).exec s).1 = .ok () ↔
      (!s.runner.environment.any Environment.managed || w.disposeEnvironment.isNone) = true := by
    intro s
    unfold disposeEnvironment
    cases henv : s.runner.environment with
    | none => simp [henv]
    | some env => cases hmanaged : env.managed <;> cases w.disposeEnvironment <;> simp [henv, hmanaged]
  unfold teardownEnvironment clearStores disposes disposeScript
  simp only [RunM.exec_bind, RunM.exec_modify, RunM.exec_get]
  cases hscript : s.runner.script with
  | none => simp [henvironment]
  | some script => cases w.disposeScript <;> simp [henvironment]

/-- After a teardown, which leaves the policy alone and goes on if its disposals do. -/
theorem policyView_afterTeardown {α : Type} (w : TeardownWorld) {rest : RunM α} {s : RunnerState} {v : PolicyView}
    (hrest : ∀ s₁ : RunnerState, s₁.policyView = s.policyView → (rest.exec s₁).2.policyView = v) :
    ((do teardownEnvironment w; rest : RunM α).exec s).2.policyView =
      if s.runner.disposes w then v else s.policyView := by
  have hdown := policyView_teardown w s
  have hok := teardown_ok_iff w s
  rw [RunM.exec_bind]
  rcases hex : (teardownEnvironment w).exec s with ⟨e | _, s₁⟩
  · rw [hex] at hdown hok
    rw [if_neg (fun h => by cases hok.2 h)]
    exact hdown
  · rw [hex] at hdown hok
    rw [if_pos (hok.1 rfl)]
    exact hrest s₁ hdown

/-- A load past its preconditions, with whatever it stores about the script. -/
theorem policyView_load {f : ScriptRunner → ScriptRunner}
    (hf : ∀ r, (f r).policy = r.policy ∧ (f r).registeredPolicy = r.registeredPolicy) (w : LoadWorld) (source : ScriptSource)
    (environment : Option EnvironmentArg) (s : RunnerState) :
    ((do
      teardownEnvironment w.teardown
      update f
      let _ ← ensurePolicy w environment
      execute w source : RunM (List OutputItem)).exec s).2.policyView =
      if s.runner.disposes w.teardown then s.policyView.ensure w environment else s.policyView := by
  refine policyView_afterTeardown w.teardown (fun s₁ hdown => ?_)
  have hupdated : ({ s₁ with runner := f s₁.runner } : RunnerState).policyView = s₁.policyView := by
    rw [RunnerState.policyView, (hf s₁.runner).1, (hf s₁.runner).2]
    rfl
  have hensure := policyView_ensurePolicy w environment { s₁ with runner := f s₁.runner }
  rw [hupdated, hdown] at hensure
  rw [RunM.exec_bind, exec_update]
  dsimp only
  rw [RunM.exec_bind, ← hensure]
  rcases (ensurePolicy w environment).exec { s₁ with runner := f s₁.runner } with ⟨e | _, s₂⟩
  · rfl
  · exact policyView_execute w source s₂

theorem policyView_close (w : TeardownWorld) (isRegistered : Bool) (unregister : Option PyExc) (s : RunnerState) :
    ((close w isRegistered unregister).exec s).2.policyView =
      if s.runner.disposes w then s.policyView.close isRegistered unregister else s.policyView := by
  refine policyView_afterTeardown w (fun s₁ hdown => ?_)
  rw [← hdown]
  simp only [RunM.exec_bind, RunM.exec_get]
  cases hpolicy : s₁.runner.policy with
  | none => simp [PolicyView.close, RunnerState.policyView, hpolicy]
  | some p =>
    cases hflag : s₁.runner.registeredPolicy with
    | false => simp [PolicyView.close, RunnerState.policyView, hpolicy, hflag]
    | true =>
      cases isRegistered with
      | false => simp [PolicyView.close, RunnerState.policyView, hpolicy, hflag]
      | true =>
        cases unregister with
        | none => simp [PolicyView.close, RunnerState.policyView, hpolicy, hflag, VsCall.aboutPolicy]
        | some e => simp [PolicyView.close, RunnerState.policyView, hpolicy, hflag, VsCall.aboutPolicy]

end ScriptRunner

namespace RunnerOp

open ScriptRunner

def isLoad : RunnerOp → Bool
  | loadScript .. | loadCode .. | reload .. => true
  | _ => false

theorem exec_map {α : Type} (x : RunM α) (s : RunnerState) : ((some <$> x).exec s).2 = (x.exec s).2 := by
  rw [← bind_pure_comp, RunM.exec_bind]
  rcases x.exec s with ⟨_ | _, s'⟩ <;> rfl

theorem policyView_loadScript (w : LoadWorld) (scriptPath : String) (environment : Option EnvironmentArg) (chdir : Bool)
    (s : RunnerState) :
    ((ScriptRunner.loadScript w scriptPath environment chdir).exec s).2.policyView =
      if w.isFile (w.resolve scriptPath) = true ∧ s.runner.disposes w.teardown = true
      then s.policyView.ensure w environment else s.policyView := by
  by_cases hfile : w.isFile (w.resolve scriptPath) = true
  · have hload := policyView_load (f := fun r => { r with scriptPath := some (w.resolve scriptPath), chdir := chdir })
      (fun _ => ⟨rfl, rfl⟩) w (.file (w.resolve scriptPath)) environment s
    simpa [ScriptRunner.loadScript, hfile] using hload
  · simp [ScriptRunner.loadScript, hfile]

/-- A load touches the policy in `_ensure_policy` and nowhere else. -/
theorem policyView_run {op : RunnerOp} (hload : op.isLoad = true) (s : RunnerState) :
    (op.run.exec s).2.policyView = match op.ensures s.runner with
      | some (w, environment) => s.policyView.ensure w environment
      | none => s.policyView := by
  cases op with
  | loadScript w scriptPath environment chdir =>
    rw [run, exec_map, policyView_loadScript, ensures]
    split <;> rfl
  | loadCode w code environment =>
    rw [run, exec_map, ensures]
    have hcode := policyView_load (f := fun r => { r with scriptPath := none }) (fun _ => ⟨rfl, rfl⟩) w (.code code)
      environment s
    refine hcode.trans ?_
    split <;> rfl
  | reload w chdir =>
    rw [run, exec_map, ScriptRunner.reload, RunM.exec_bind, RunM.exec_get, ensures]
    cases hpath : s.runner.scriptPath with
    | none => simp [hpath]
    | some path =>
      simp only [hpath, policyView_loadScript]
      split <;> rfl
  | _ => cases hload

/-- The policy that the caller passed. -/
def supplied : RunnerOp → List Nat
  | loadScript _ _ (some (.policy p)) _ => [p.id]
  | loadCode _ _ (some (.policy p)) => [p.id]
  | _ => []

/-- What the load is answered about policies. -/
def policyWorld : RunnerOp → Option LoadWorld
  | loadScript w .. => some w
  | loadCode w .. => some w
  | reload w .. => some w
  | _ => none

/-- The policy that the load makes, if it makes one. -/
def made (op : RunnerOp) : List Nat := op.policyWorld.toList.map (fun w => w.newPolicy.id)

theorem ensures_some {op : RunnerOp} {r : ScriptRunner} {w : LoadWorld} {environment : Option EnvironmentArg}
    (h : op.ensures r = some (w, environment)) :
    op.policyWorld = some w ∧ ∀ p, environment = some (.policy p) → p.id ∈ op.supplied := by
  have hpair : ∀ {c : Prop} [Decidable c] {w' : LoadWorld} {environment' : Option EnvironmentArg},
      (if c then some (w', environment') else none) = some (w, environment) → w' = w ∧ environment' = environment := by
    intro c _ w' environment' hite
    by_cases hc : c
    · rw [if_pos hc] at hite
      exact Prod.mk.inj (Option.some.inj hite)
    · rw [if_neg hc] at hite
      cases hite
  cases op with
  | loadScript w' scriptPath environment' chdir =>
    obtain ⟨rfl, rfl⟩ := hpair h
    refine ⟨rfl, ?_⟩
    rintro p rfl
    exact List.mem_singleton_self _
  | loadCode w' code environment' =>
    obtain ⟨rfl, rfl⟩ := hpair h
    refine ⟨rfl, ?_⟩
    rintro p rfl
    exact List.mem_singleton_self _
  | reload w' chdir =>
    unfold ensures at h
    cases hpath : r.scriptPath with
    | none =>
      rw [hpath] at h
      cases h
    | some path =>
      rw [hpath] at h
      obtain ⟨rfl, rfl⟩ := hpair h
      exact ⟨rfl, fun p hp => by cases hp⟩
  | _ => cases h

end RunnerOp

/-- The two ways to a new runner. `from_script` is the first and a `load_script`. -/
inductive RunnerStart where
  | construct (w : LoadWorld) (environment : Option EnvironmentArg)
  | fromClips (w : FromClipsWorld) (clips : ClipsArg) (environment : Option Environment)

namespace RunnerStart

def run : RunnerStart → RunM Unit
  | construct w environment => ScriptRunner.construct w environment
  | fromClips w clips environment => ScriptRunner.fromClips w clips environment

def supplied : RunnerStart → List Nat
  | construct _ (some (.policy p)) => [p.id]
  | _ => []

def policyWorld : RunnerStart → LoadWorld
  | construct w _ => w
  | fromClips w .. => w.load

def environment : RunnerStart → Option EnvironmentArg
  | construct _ environment => environment
  | fromClips _ _ environment => environment.map .environment

theorem policyView_run (start : RunnerStart) :
    (start.run.exec { runner := {} }).2.policyView = PolicyView.ensure ⟨none, false, []⟩ start.policyWorld start.environment := by
  have hconstruct : ∀ w environment, ((ScriptRunner.construct w environment).exec { runner := {} }).2.policyView =
      PolicyView.ensure ⟨none, false, []⟩ w environment := by
    intro w environment
    have hensure := ScriptRunner.policyView_ensurePolicy w environment { runner := {} }
    unfold ScriptRunner.construct
    rw [RunM.exec_bind, ScriptRunner.exec_update]
    dsimp only
    rw [RunM.exec_bind]
    refine Eq.trans ?_ hensure
    rcases (ScriptRunner.ensurePolicy w environment).exec { runner := {} } with ⟨e | _, s⟩ <;> rfl
  cases start with
  | construct w environment => exact hconstruct w environment
  | fromClips w clips environment =>
    have hclips : ∀ clips, RunM.Leaves RunnerState.policyView (ScriptRunner.registerClips clips) := by
      intro clips
      induction clips with
      | nil => exact .pure ()
      | cons entry rest ih => exact .bind (.ofExcept _) (fun info => .bind (.update (fun _ => rfl)) (fun _ => ih))
    have hrest : RunM.Leaves RunnerState.policyView (do
        ScriptRunner.update (fun r => { r with environment := environment })
        if environment.isNone ∧ w.hasPolicy then
          let env ← ScriptRunner.ofExcept w.currentEnvironment
          ScriptRunner.update (fun r => { r with environment := some env })
        ScriptRunner.registerClips clips.items : RunM Unit) := by
      refine .bind (.update (fun _ => rfl)) (fun _ => .ite (fun _ => ?_) (fun _ => hclips _))
      exact .bind (.ofExcept _) (fun env => .bind (.update (fun _ => rfl)) (fun _ => hclips _))
    refine Eq.trans ?_ (hconstruct w.load (environment.map .environment))
    unfold run ScriptRunner.fromClips
    rw [RunM.exec_bind]
    rcases (ScriptRunner.construct w.load (environment.map .environment)).exec { runner := {} } with ⟨e | _, s⟩
    · rfl
    · exact hrest s

end RunnerStart

/-- The ids of the policies whose `register()` returned. -/
def registeredIn (w : LoadWorld) (calls : List VsCall) : List Nat :=
  if w.registerPolicy.isNone then calls.filterMap VsCall.registers else []

/-- A runner with all it did so far; `state` has the calls of its last operation. -/
structure PolicyHistory where
  state : RunnerState
  calls : List VsCall
  registered : List Nat
  supplied : List Nat

namespace PolicyHistory

def start (start : RunnerStart) : PolicyHistory :=
  let s := (start.run.exec { runner := {} }).2
  ⟨s, s.calls, registeredIn start.policyWorld s.calls, start.supplied⟩

/-- A load. -/
def step (op : RunnerOp) (h : PolicyHistory) : Option PolicyHistory :=
  if op.isLoad then
    let s := (op.run.exec { h.state with calls := [] }).2
    some ⟨s, h.calls ++ s.calls, h.registered ++ op.policyWorld.elim [] (registeredIn · s.calls), h.supplied ++ op.supplied⟩
  else none

/-- `close()`, when `isRegistered` tells which policies are registered. -/
def close (w : TeardownWorld) (isRegistered : Policy → Bool) (unregister : Option PyExc) (h : PolicyHistory) :
    PolicyHistory :=
  let s := ((ScriptRunner.close w (h.state.runner.policy.any isRegistered) unregister).exec { h.state with calls := [] }).2
  { h with state := s, calls := h.calls ++ s.calls }

/-- The runner unregisters its own policies and leaves those of callers alone. -/
def Owned (h : PolicyHistory) : Prop :=
  (∀ id ∈ h.registered, .unregisterPolicy id ∈ h.calls) ∧ ∀ id ∈ h.supplied, .unregisterPolicy id ∉ h.calls

/-- A caller's policy does not take the place of the runner's own. -/
def KeepsOwn (h : PolicyHistory) (op : RunnerOp) : Prop :=
  ∀ w p, op.ensures h.state.runner = some (w, some (.policy p)) → h.state.runner.registeredPolicy = false

end PolicyHistory

section

variable {w : LoadWorld} {environment : Option EnvironmentArg} {v : PolicyView} {s : RunnerState}

theorem unregister_mem_iff {id : Nat} : VsCall.unregisterPolicy id ∈ s.calls ↔ .unregisterPolicy id ∈ s.policyView.calls := by
  simp [RunnerState.policyView, VsCall.aboutPolicy]

theorem registeredIn_view : registeredIn w s.calls = registeredIn w s.policyView.calls := by
  have hfilter : s.policyView.calls.filterMap VsCall.registers = s.calls.filterMap VsCall.registers := by
    show (s.calls.filter VsCall.aboutPolicy).filterMap VsCall.registers = _
    rw [List.filterMap_filter]
    apply List.filterMap_congr
    intro c _
    cases c <;> rfl
  rw [registeredIn, registeredIn, hfilter]

/-- What a call of `_ensure_policy` may do, from no calls. -/
inductive Ensured (w : LoadWorld) (environment : Option EnvironmentArg) (v : PolicyView) (s : RunnerState) : Prop
  | kept (henvironment : ∀ p, environment ≠ some (.policy p)) (hpolicy : s.runner.policy = v.policy)
      (hflag : s.runner.registeredPolicy = v.registeredPolicy) (hregistered : registeredIn w s.calls = [])
  | taken (p : Policy) (henvironment : environment = some (.policy p)) (hpolicy : s.runner.policy = some p)
      (hflag : s.runner.registeredPolicy = v.registeredPolicy) (hregistered : registeredIn w s.calls = [])
  | made (henvironment : environment = none) (hfree : v.policy = none) (hpolicy : s.runner.policy = some w.newPolicy)
      (hflag : s.runner.registeredPolicy = true) (hregistered : registeredIn w s.calls = [w.newPolicy.id])
  | failed (henvironment : environment = none) (hfree : v.policy = none)
      (hflag : s.runner.registeredPolicy = v.registeredPolicy) (hregistered : registeredIn w s.calls = [])

theorem ensured (hcalls : v.calls = []) (h : s.policyView = v.ensure w environment) :
    Ensured w environment v s ∧ ∀ id, .unregisterPolicy id ∉ s.calls := by
  have hpolicy : s.runner.policy = (v.ensure w environment).policy := congrArg PolicyView.policy h
  have hflag : s.runner.registeredPolicy = (v.ensure w environment).registeredPolicy :=
    congrArg PolicyView.registeredPolicy h
  have hregistered : registeredIn w s.calls = registeredIn w (v.ensure w environment).calls := by
    rw [registeredIn_view, h]
  have hunregister : ∀ id, .unregisterPolicy id ∈ s.calls → .unregisterPolicy id ∈ (v.ensure w environment).calls := by
    intro id hid
    rw [← h, ← unregister_mem_iff]
    exact hid
  have hnone : registeredIn w v.calls = [] := by
    rw [hcalls, registeredIn]
    exact ite_self _
  have hquiet : ∀ id, .unregisterPolicy id ∉ v.calls := by
    intro id hid
    rw [hcalls] at hid
    cases hid
  obtain _ | p | env := environment
  · by_cases hkeeps : v.policy.isSome = true ∨ w.hasPolicy = true
    · have hv : v.ensure w none = v := if_pos hkeeps
      rw [hv] at hpolicy hflag hregistered hunregister
      exact ⟨.kept (fun p hp => by cases hp) hpolicy hflag (hregistered.trans hnone),
        fun id hid => hquiet id (hunregister id hid)⟩
    · have hfree : v.policy = none := Option.not_isSome_iff_eq_none.1 (not_or.1 hkeeps).1
      have hv : v.ensure w none = ⟨some w.newPolicy, v.registeredPolicy || w.registerPolicy.isNone,
          v.calls ++ [.registerPolicy w.newPolicy.id]⟩ := if_neg hkeeps
      rw [hv, hcalls] at hregistered hunregister
      rw [hv] at hpolicy hflag
      refine ⟨?_, fun id hid => by simpa using hunregister id hid⟩
      cases hraises : w.registerPolicy with
      | none =>
        refine .made rfl hfree hpolicy (hflag.trans (by simp [hraises])) (hregistered.trans ?_)
        simp [registeredIn, hraises, VsCall.registers]
      | some e =>
        refine .failed rfl hfree (hflag.trans (by simp [hraises])) (hregistered.trans ?_)
        simp [registeredIn, hraises]
  · exact ⟨.taken p rfl hpolicy hflag (hregistered.trans hnone), fun id hid => hquiet id (hunregister id hid)⟩
  · exact ⟨.kept (fun p hp => by cases hp) hpolicy hflag (hregistered.trans hnone),
      fun id hid => hquiet id (hunregister id hid)⟩

end

namespace PolicyHistory

/-- Where the runner has registered a policy it is the one that `close` unregisters. -/
structure Sound (callers : List Nat) (h : PolicyHistory) : Prop where
  unregister : ∀ id, .unregisterPolicy id ∉ h.calls
  own : (h.registered = [] ∧ h.state.runner.registeredPolicy = false) ∨
    ∃ p : Policy, h.registered = [p.id] ∧ h.state.runner.registeredPolicy = true ∧
      h.state.runner.policy = some p ∧ p.id ∉ callers

/-- A caller's policy has taken its place. -/
structure Taken (callers : List Nat) (h : PolicyHistory) : Prop where
  unregister : ∀ id, .unregisterPolicy id ∉ h.calls
  own : ∃ (id : Nat) (p : Policy), h.registered = [id] ∧ h.state.runner.registeredPolicy = true ∧
    h.state.runner.policy = some p ∧ id ∉ callers ∧ p.id ∈ callers

variable {callers : List Nat} {op : RunnerOp} {h t : PolicyHistory} {start : RunnerStart}

theorem start_sound (hmade : start.policyWorld.newPolicy.id ∉ callers) : Sound callers (PolicyHistory.start start) := by
  obtain ⟨hensured, hunregister⟩ := ensured rfl start.policyView_run
  refine ⟨hunregister, ?_⟩
  cases hensured with
  | kept _ _ hflag hregistered => exact .inl ⟨hregistered, hflag⟩
  | taken _ _ _ hflag hregistered => exact .inl ⟨hregistered, hflag⟩
  | made _ _ hpolicy hflag hregistered => exact .inr ⟨_, hregistered, hflag, hpolicy, hmade⟩
  | failed _ _ hflag hregistered => exact .inl ⟨hregistered, hflag⟩

/-- What a load may do. -/
theorem step_cases (hs : step op h = some t) :
    (∀ id, .unregisterPolicy id ∈ t.calls → .unregisterPolicy id ∈ h.calls) ∧
      ((op.ensures h.state.runner = none ∧ t.state.runner.policy = h.state.runner.policy ∧
          t.state.runner.registeredPolicy = h.state.runner.registeredPolicy ∧ t.registered = h.registered) ∨
        ∃ w environment, op.ensures h.state.runner = some (w, environment) ∧ op.policyWorld = some w ∧
          Ensured w environment ⟨h.state.runner.policy, h.state.runner.registeredPolicy, []⟩ t.state ∧
          t.registered = h.registered ++ registeredIn w t.state.calls) := by
  unfold step at hs
  by_cases hload : op.isLoad = true
  · rw [if_pos hload] at hs
    cases hs
    have hview := RunnerOp.policyView_run hload { h.state with calls := [] }
    cases hensures : op.ensures h.state.runner with
    | none =>
      simp only [hensures] at hview
      have hcalls : (op.run.exec { h.state with calls := [] }).2.policyView.calls = [] := congrArg PolicyView.calls hview
      have hregistered : op.policyWorld.elim [] (registeredIn · (op.run.exec { h.state with calls := [] }).2.calls) = [] := by
        cases op.policyWorld with
        | none => rfl
        | some w =>
          refine registeredIn_view.trans ?_
          rw [hcalls, registeredIn]
          exact ite_self _
      refine ⟨fun id hid => ?_, .inl ⟨rfl, congrArg PolicyView.policy hview, congrArg PolicyView.registeredPolicy hview, ?_⟩⟩
      · obtain hid | hid := List.mem_append.1 hid
        · exact hid
        · rw [unregister_mem_iff, hcalls] at hid
          cases hid
      · rw [hregistered, List.append_nil]
    | some call =>
      obtain ⟨w, environment⟩ := call
      simp only [hensures] at hview
      have hworld := (RunnerOp.ensures_some hensures).1
      obtain ⟨hensured, hunregister⟩ := ensured (v := ⟨h.state.runner.policy, h.state.runner.registeredPolicy, []⟩) rfl hview
      refine ⟨fun id hid => ?_, .inr ⟨w, environment, rfl, hworld, hensured, by rw [hworld]; rfl⟩⟩
      obtain hid | hid := List.mem_append.1 hid
      · exact hid
      · exact absurd hid (hunregister id)
  · rw [if_neg hload] at hs
    cases hs

theorem step_sound (hmade : ∀ id ∈ op.made, id ∉ callers) (hsound : Sound callers h) (hkeeps : KeepsOwn h op)
    (hs : step op h = some t) : Sound callers t := by
  obtain ⟨hquiet, hcases⟩ := step_cases hs
  refine ⟨fun id hid => hsound.unregister id (hquiet id hid), ?_⟩
  obtain ⟨_, hpolicy, hflag, hregistered⟩ | ⟨w, environment, hensures, hworld, hensured, hregistered⟩ := hcases
  · rw [hpolicy, hflag, hregistered]
    exact hsound.own
  · have hfree : h.state.runner.policy = none → h.registered = [] ∧ h.state.runner.registeredPolicy = false := by
      intro hnone
      obtain hown | ⟨p, _, _, hpolicy, _⟩ := hsound.own
      · exact hown
      · rw [hnone] at hpolicy
        cases hpolicy
    cases hensured with
    | kept _ hpolicy hflag hnew =>
      rw [hpolicy, hflag, hregistered, hnew, List.append_nil]
      exact hsound.own
    | taken p henvironment hpolicy hflag hnew =>
      have hflag' := hkeeps w p (henvironment ▸ hensures)
      obtain ⟨hnone, _⟩ | ⟨_, _, htrue, _⟩ := hsound.own
      · rw [hnew, List.append_nil] at hregistered
        exact .inl ⟨hregistered.trans hnone, hflag.trans hflag'⟩
      · rw [hflag'] at htrue
        cases htrue
    | made _ hnone hpolicy hflag hnew =>
      rw [(hfree hnone).1, hnew] at hregistered
      refine .inr ⟨w.newPolicy, hregistered, hflag, hpolicy, hmade _ ?_⟩
      simp [RunnerOp.made, hworld]
    | failed _ hnone hflag hnew =>
      rw [(hfree hnone).1, hnew] at hregistered
      exact .inl ⟨hregistered, hflag.trans (hfree hnone).2⟩

theorem step_takes (hsupplied : ∀ id ∈ op.supplied, id ∈ callers) (hsound : Sound callers h) (hkeeps : ¬ KeepsOwn h op)
    (hs : step op h = some t) : Taken callers t := by
  obtain ⟨w, p, hensures, hflag⟩ : ∃ w p, op.ensures h.state.runner = some (w, some (.policy p)) ∧
      h.state.runner.registeredPolicy = true := by
    simpa [KeepsOwn] using hkeeps
  obtain ⟨hquiet, hcases⟩ := step_cases hs
  refine ⟨fun id hid => hsound.unregister id (hquiet id hid), ?_⟩
  obtain ⟨_, hfalse⟩ | ⟨own, hown, _, _, hcallers⟩ := hsound.own
  · rw [hflag] at hfalse
    cases hfalse
  obtain ⟨hnone, _⟩ | ⟨w', environment, hensures', _, hensured, hregistered⟩ := hcases
  · rw [hensures] at hnone
    cases hnone
  · obtain ⟨rfl, rfl⟩ := Prod.mk.inj (Option.some.inj (hensures.symm.trans hensures'))
    have hp : p.id ∈ callers := hsupplied _ ((RunnerOp.ensures_some hensures).2 p rfl)
    cases hensured with
    | kept hother => exact absurd rfl (hother p)
    | taken p' henvironment hpolicy hflag' hnew =>
      cases henvironment
      rw [hown, hnew] at hregistered
      exact ⟨own.id, p, hregistered, hflag'.trans hflag, hpolicy, hcallers, hp⟩
    | made henvironment => cases henvironment
    | failed henvironment => cases henvironment

theorem step_taken (hsupplied : ∀ id ∈ op.supplied, id ∈ callers) (htaken : Taken callers h)
    (hs : step op h = some t) : Taken callers t := by
  obtain ⟨hquiet, hcases⟩ := step_cases hs
  obtain ⟨id, p, hown, hflag, hpolicy, hid, hp⟩ := htaken.own
  refine ⟨fun id hid => htaken.unregister id (hquiet id hid), ?_⟩
  obtain ⟨_, hpolicy', hflag', hregistered⟩ | ⟨w, environment, hensures, _, hensured, hregistered⟩ := hcases
  · exact ⟨id, p, hregistered.trans hown, hflag'.trans hflag, hpolicy'.trans hpolicy, hid, hp⟩
  · cases hensured with
    | kept _ hpolicy' hflag' hnew =>
      rw [hown, hnew] at hregistered
      exact ⟨id, p, hregistered, hflag'.trans hflag, hpolicy'.trans hpolicy, hid, hp⟩
    | taken p' henvironment hpolicy' hflag' hnew =>
      rw [hown, hnew] at hregistered
      have hp' : p'.id ∈ callers := hsupplied _ ((RunnerOp.ensures_some hensures).2 p' henvironment)
      exact ⟨id, p', hregistered, hflag'.trans hflag, hpolicy', hid, hp'⟩
    | made _ hfree => cases hpolicy.symm.trans hfree
    | failed _ hfree => cases hpolicy.symm.trans hfree

/-- What `close` adds to the calls. -/
theorem close_calls (w : TeardownWorld) (isRegistered : Policy → Bool) (unregister : Option PyExc) (id : Nat) :
    VsCall.unregisterPolicy id ∈ (h.close w isRegistered unregister).calls ↔
      .unregisterPolicy id ∈ h.calls ∨ h.state.runner.disposes w = true ∧ h.state.runner.registeredPolicy = true ∧
        ∃ p, h.state.runner.policy = some p ∧ isRegistered p = true ∧ p.id = id := by
  have hview := ScriptRunner.policyView_close w (h.state.runner.policy.any isRegistered) unregister
    { h.state with calls := [] }
  have hbefore : RunnerState.policyView { h.state with calls := [] } =
      ⟨h.state.runner.policy, h.state.runner.registeredPolicy, []⟩ := rfl
  unfold close
  rw [List.mem_append, @unregister_mem_iff _ id, hview, hbefore]
  apply or_congr_right
  cases h.state.runner.disposes w with
  | false => simp
  | true =>
    cases h.state.runner.policy with
    | none => simp [PolicyView.close]
    | some p =>
      cases h.state.runner.registeredPolicy with
      | false => simp [PolicyView.close]
      | true =>
        have hcomm : id = p.id ↔ p.id = id := eq_comm
        cases hp : isRegistered p <;> simp [PolicyView.close, hp, hcomm]

theorem supplied_run {ops : List RunnerOp} (hr : Runs.run step ops h = some t) :
    t.supplied = h.supplied ++ ops.flatMap RunnerOp.supplied := by
  induction ops generalizing h with
  | nil =>
    cases hr
    exact (List.append_nil _).symm
  | cons op ops ih =>
    obtain ⟨u, hu, hrest⟩ := Runs.run_cons_some hr
    have hstep : u.supplied = h.supplied ++ op.supplied := by
      unfold step at hu
      by_cases hload : op.isLoad = true
      · rw [if_pos hload] at hu
        cases hu
        rfl
      · rw [if_neg hload] at hu
        cases hu
    rw [ih hrest, hstep, List.flatMap_cons, List.append_assoc]

theorem Sound.owned_iff {w : TeardownWorld} {isRegistered : Policy → Bool} {unregister : Option PyExc}
    (hsound : Sound callers h) (hsupplied : ∀ id ∈ h.supplied, id ∈ callers)
    (hregistered : ∀ p : Policy, p.id ∈ h.registered → isRegistered p = true) :
    (h.close w isRegistered unregister).Owned ↔
      (h.state.runner.registeredPolicy = true → h.state.runner.disposes w = true) := by
  obtain ⟨hnone, hflag⟩ | ⟨p, hown, hflag, hpolicy, hp⟩ := hsound.own
  · refine iff_of_true ⟨fun id hid => ?_, fun id _ hcall => ?_⟩ (fun htrue => ?_)
    · have hid : id ∈ h.registered := hid
      rw [hnone] at hid
      cases hid
    · obtain hcall | ⟨_, htrue, _⟩ := (close_calls w isRegistered unregister id).1 hcall
      · exact hsound.unregister id hcall
      · rw [hflag] at htrue
        cases htrue
    · rw [hflag] at htrue
      cases htrue
  · have hmem : p.id ∈ h.registered := by
      rw [hown]
      exact List.mem_singleton_self _
    constructor
    · intro howned _
      obtain hcall | ⟨hdisposes, _⟩ := (close_calls w isRegistered unregister p.id).1 (howned.1 p.id hmem)
      · exact absurd hcall (hsound.unregister p.id)
      · exact hdisposes
    · intro hdisposes
      refine ⟨fun id hid => ?_, fun id hid hcall => ?_⟩
      · have hid : id ∈ h.registered := hid
        rw [hown, List.mem_singleton] at hid
        refine (close_calls w isRegistered unregister id).2 (.inr ⟨hdisposes hflag, hflag, p, hpolicy, ?_, hid.symm⟩)
        exact hregistered p hmem
      · obtain hcall | ⟨_, _, p', hpolicy', _, rfl⟩ := (close_calls w isRegistered unregister id).1 hcall
        · exact hsound.unregister id hcall
        · cases hpolicy.symm.trans hpolicy'
          exact hp (hsupplied p.id hid)

theorem Taken.not_owned {w : TeardownWorld} {isRegistered : Policy → Bool} {unregister : Option PyExc}
    (htaken : Taken callers h) : ¬ (h.close w isRegistered unregister).Owned := by
  obtain ⟨id, p, hown, _, hpolicy, hid, hp⟩ := htaken.own
  intro howned
  have hmem : id ∈ h.registered := by
    rw [hown]
    exact List.mem_singleton_self _
  obtain hcall | ⟨_, _, p', hpolicy', _, rfl⟩ := (close_calls w isRegistered unregister id).1 (howned.1 id hmem)
  · exact htaken.unregister id hcall
  · cases hpolicy.symm.trans hpolicy'
    exact hid hp

end PolicyHistory

/-- For every runner, every sequence of loads and a `close()` after it. Policies that
the runner makes are no caller's, and are registered until it unregisters them. -/
theorem policy_ownership_iff {start : RunnerStart} {ops : List RunnerOp} {h : PolicyHistory} {w : TeardownWorld}
    {isRegistered : Policy → Bool} {unregister : Option PyExc}
    (hfresh : ∀ id ∈ start.policyWorld.newPolicy.id :: ops.flatMap RunnerOp.made,
      id ∉ start.supplied ++ ops.flatMap RunnerOp.supplied)
    (hrun : Runs.run PolicyHistory.step ops (.start start) = some h)
    (hregistered : ∀ p : Policy, p.id ∈ h.registered → isRegistered p = true) :
    (h.close w isRegistered unregister).Owned ↔
      Runs.Guarded PolicyHistory.step PolicyHistory.KeepsOwn ops (.start start) ∧
        (h.state.runner.registeredPolicy = true → h.state.runner.disposes w = true) := by
  have hmade : ∀ op ∈ ops, ∀ id ∈ op.made, id ∉ start.supplied ++ ops.flatMap RunnerOp.supplied := by
    intro op hop id hid
    exact hfresh id (List.mem_cons_of_mem _ (List.mem_flatMap.2 ⟨op, hop, hid⟩))
  have hcallers : ∀ op ∈ ops, ∀ id ∈ op.supplied, id ∈ start.supplied ++ ops.flatMap RunnerOp.supplied := by
    intro op hop id hid
    exact List.mem_append_right _ (List.mem_flatMap.2 ⟨op, hop, hid⟩)
  obtain ⟨hguarded, hsound⟩ | ⟨hguarded, htaken⟩ := Runs.guarded_or_broken
    (fun op hop _ _ hsound hkeeps hs => PolicyHistory.step_sound (hmade op hop) hsound hkeeps hs)
    (fun op hop _ _ hsound hkeeps hs => PolicyHistory.step_takes (hcallers op hop) hsound hkeeps hs)
    (fun op hop _ _ htaken hs => PolicyHistory.step_taken (hcallers op hop) htaken hs)
    (PolicyHistory.start_sound (hfresh _ List.mem_cons_self)) hrun
  · have hsupplied : ∀ id ∈ h.supplied, id ∈ start.supplied ++ ops.flatMap RunnerOp.supplied := by
      intro id hid
      rw [PolicyHistory.supplied_run hrun] at hid
      exact hid
    rw [hsound.owned_iff hsupplied hregistered]
    exact (and_iff_right hguarded).symm
  · exact iff_of_false htaken.not_owned (fun hall => hguarded hall.1)

/-- VapourSynth without a policy. -/
def noPolicy : LoadWorld := { LoadWorld.finds .empty with hasPolicy := false, newPolicy := ⟨0⟩ }

def ownLoads : List RunnerOp := [.loadCode noPolicy "" none, .loadCode noPolicy "" (some (.environment ⟨1, true⟩))]

theorem policy_ownership_iff_ownPolicy :
    ∃ h, Runs.run PolicyHistory.step ownLoads (.start (.construct noPolicy none)) = some h ∧
      h.registered = [0] ∧ (h.close {} (· = ⟨0⟩) none).Owned := by
  have hfresh : ∀ id ∈ (RunnerStart.construct noPolicy none).policyWorld.newPolicy.id :: ownLoads.flatMap RunnerOp.made,
      id ∉ (RunnerStart.construct noPolicy none).supplied ++ ownLoads.flatMap RunnerOp.supplied := by decide
  have hkeeps : Runs.Guarded PolicyHistory.step PolicyHistory.KeepsOwn ownLoads (.start (.construct noPolicy none)) := by
    refine Runs.Guarded.of_mem (fun op hop h w p hensures => ?_)
    have hnone : op.supplied = [] := by
      obtain rfl | hop := List.mem_cons.1 hop
      · rfl
      · cases List.mem_singleton.1 hop
        rfl
    have hp := (RunnerOp.ensures_some hensures).2 p rfl
    rw [hnone] at hp
    cases hp
  refine ⟨_, rfl, rfl, (policy_ownership_iff hfresh rfl ?_).2 ⟨hkeeps, fun _ => rfl⟩⟩
  intro p hp
  cases p
  cases List.mem_singleton.1 hp
  rfl

/-- A caller's policy displaces the runner's own, and `close()` leaves it registered. -/
theorem policy_ownership_displaced :
    ∃ h, Runs.run PolicyHistory.step [.loadCode noPolicy "" (some (.policy ⟨1⟩))] (.start (.construct noPolicy none)) = some h ∧
      h.registered = [0] ∧ h.supplied = [1] ∧ ¬ (h.close {} (· = ⟨0⟩) none).Owned := by
  refine ⟨_, rfl, rfl, rfl, fun howned => ?_⟩
  have hcall := howned.1 0 (List.mem_singleton_self 0)
  revert hcall
  decide

end VsRemote
