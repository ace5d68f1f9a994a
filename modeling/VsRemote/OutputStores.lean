import VsRemote.RunnerSpec
import VsRemote.Lib.Runs

/-! The three collections of a `ScriptRunner` are the columns of one table of
outputs, whichever operations ran and wherever they raised. -/

namespace VsRemote

structure OutputRow where
  index : Int
  clip : VideoNode
  info : ClipInfo

namespace OutputRow

def item (row : OutputRow) : OutputItem := ⟨row.index, row.info.name, row.info⟩

def video (row : OutputRow) : Int × VideoNode := (row.index, row.clip)

end OutputRow

structure Stores.Holds (st : Stores) (rows : List OutputRow) : Prop where
  clips : st.clips.entries = rows.map OutputRow.video
  clipInfos : st.clipInfos.entries = rows.map (fun row => (row.index, row.info))
  outputItems : st.outputItems = rows.map OutputRow.item

def videoEntries : List (Int × Output) → List (Int × VideoNode)
  | [] => []
  | (_, .audio) :: rest => videoEntries rest
  | (idx, .video clip) :: rest => (idx, clip) :: videoEntries rest

/-- `clips` of `from_clips`. -/
inductive ClipsArg where
  | mapping (clips : OrderedDict Int VideoNode)
  | sequence (clips : List VideoNode)

/-- `dict(enumerate(clips))` -/
def ClipsArg.items : ClipsArg → List (Int × VideoNode)
  | .mapping clips => clips.entries
  | .sequence clips => clips.zipIdx.map (fun p => ((p.2 : Int), p.1))

theorem ClipsArg.nodup (clips : ClipsArg) : (clips.items.map Prod.fst).Nodup := by
  cases clips with
  | mapping clips => exact clips.nodup
  | sequence clips =>
    have hkeys : (ClipsArg.sequence clips).items.map Prod.fst = (List.range' 0 clips.length).map Int.ofNat := by
      rw [items, ← List.zipIdx_map_snd 0 clips, List.map_map, List.map_map]
      rfl
    rw [hkeys]
    exact List.Nodup.map (fun _ _ h => Int.ofNat.inj h) List.nodup_range'

/-- What `from_clips` is answered: `_ensure_policy` as in a load, then
`vs.has_policy()` and `vs.get_current_environment()`. -/
structure FromClipsWorld where
  load : LoadWorld
  hasPolicy : Bool
  currentEnvironment : Except PyExc Environment

namespace ScriptRunner

/-- `ScriptRunner(environment)` -/
def construct (w : LoadWorld) (environment : Option EnvironmentArg) : RunM Unit := do
  update (fun _ => {})
  let _ ← ensurePolicy w environment
  pure ()

def registerClips : List (Int × VideoNode) → RunM Unit
  | [] => pure ()
  | (idx, clip) :: rest => do
    let info ← ofExcept (ClipInfo.fromClip clip ("Output " ++ toString idx))
    register idx clip info.name info
    registerClips rest

/-- `from_clips`; the state has the runner that it makes, also where it raises. -/
def fromClips (w : FromClipsWorld) (clips : ClipsArg) (environment : Option Environment) : RunM Unit := do
  construct w.load (environment.map .environment)
  update (fun r => { r with environment := environment })
  if environment.isNone ∧ w.hasPolicy then
    let env ← ofExcept w.currentEnvironment
    update (fun r => { r with environment := some env })
  registerClips clips.items

end ScriptRunner

/-- The operations with what they are answered. A clip of variable format is one
that `from_clip` raises on. -/
inductive RunnerOp where
  | fromClips (w : FromClipsWorld) (clips : ClipsArg) (environment : Option Environment)
  | loadScript (w : LoadWorld) (scriptPath : String) (environment : Option EnvironmentArg) (chdir : Bool)
  | loadCode (w : LoadWorld) (code : String) (environment : Option EnvironmentArg)
  | reload (w : LoadWorld) (chdir : Option Bool)
  | teardownEnvironment (w : TeardownWorld)
  | close (w : TeardownWorld) (isRegistered : Bool) (unregister : Option PyExc)

namespace RunnerOp

/-- What the operation returns: a load its outputs. -/
def run : RunnerOp → RunM (Option (List OutputItem))
  | fromClips w clips environment => do
    ScriptRunner.fromClips w clips environment
    pure none
  | loadScript w scriptPath environment chdir => some <$> ScriptRunner.loadScript w scriptPath environment chdir
  | loadCode w code environment => some <$> ScriptRunner.loadCode w code environment
  | reload w chdir => some <$> ScriptRunner.reload w chdir
  | teardownEnvironment w => do
    ScriptRunner.teardownEnvironment w
    pure none
  | close w isRegistered unregister => do
    ScriptRunner.close w isRegistered unregister
    pure none

/-- `vs.get_outputs()` of a load. -/
def outputs : RunnerOp → Except PyExc (OrderedDict Int Output)
  | loadScript w .. | loadCode w .. | reload w .. => w.outputs
  | _ => .ok .empty

def clears : RunnerOp → Bool
  | teardownEnvironment .. | close .. => true
  | _ => false

def step (op : RunnerOp) (s : RunnerState) : Option RunnerState := some (op.run.exec s).2

end RunnerOp

/-- From stores that hold rows with `P` the stores go to others that hold rows,
and where `x` returns these have `Q`. -/
def Tabular {α : Type} (P : List OutputRow → Prop) (x : RunM α) (Q : α → List OutputRow → Prop) : Prop :=
  ∀ (s : RunnerState) (rows : List OutputRow), s.runner.stores.Holds rows → P rows →
    ∃ rows', (x.exec s).2.runner.stores.Holds rows' ∧ ∀ a, (x.exec s).1 = .ok a → Q a rows'

namespace Tabular

open ScriptRunner

variable {α β : Type} {P P' : List OutputRow → Prop} {Q Q' : α → List OutputRow → Prop}
  {R : β → List OutputRow → Prop} {x : RunM α} {f : α → RunM β}

theorem bind (hx : Tabular P x Q) (hf : ∀ a, Tabular (Q a) (f a) R) : Tabular P (x >>= f) R := by
  intro s rows h hP
  obtain ⟨rows₁, h₁, hQ⟩ := hx s rows h hP
  rw [RunM.exec_bind]
  rcases hex : x.exec s with ⟨e | a, s₁⟩
  · rw [hex] at h₁
    exact ⟨rows₁, h₁, fun b hb => by cases hb⟩
  · rw [hex] at h₁ hQ
    exact hf a s₁ rows₁ h₁ (hQ a rfl)

theorem of_keepsStores (hx : KeepsStores x) : Tabular P x (fun _ => P) := by
  intro s rows h hP
  exact ⟨rows, (hx s).symm ▸ h, fun _ _ => hP⟩

theorem of_leaves (hx : RunM.Leaves (fun s => s.runner.stores) x) : Tabular P x (fun _ => P) := of_keepsStores hx

theorem throw (e : PyExc) : Tabular P (throw e : RunM α) Q :=
  fun _ rows h _ => ⟨rows, h, fun _ ha => by cases ha⟩

theorem ite {c : Prop} [Decidable c] {y : RunM α} (hx : c → Tabular P x Q) (hy : ¬ c → Tabular P y Q) :
    Tabular P (if c then x else y) Q := by
  by_cases hc : c
  · rw [if_pos hc]
    exact hx hc
  · rw [if_neg hc]
    exact hy hc

theorem update {g : ScriptRunner → ScriptRunner} (hg : ∀ r, (g r).stores = r.stores) :
    Tabular P (ScriptRunner.update g) (fun _ => P) := of_keepsStores (keepsStores_update hg)

theorem ofExcept (r : Except PyExc α) : Tabular P (ScriptRunner.ofExcept r) (fun a rows => r = .ok a ∧ P rows) := by
  intro s rows h hP
  rw [exec_ofExcept]
  exact ⟨rows, h, fun a ha => ⟨ha, hP⟩⟩

end Tabular

namespace Stores.Holds

variable {st : Stores} {rows : List OutputRow} {idx : Int}

theorem keys_clips (h : st.Holds rows) : st.clips.keys = rows.map OutputRow.index := by
  rw [OrderedDict.keys, h.clips, List.map_map]
  rfl

theorem keys_clipInfos (h : st.Holds rows) : st.clipInfos.keys = rows.map OutputRow.index := by
  rw [OrderedDict.keys, h.clipInfos, List.map_map]
  rfl

theorem nodup (h : st.Holds rows) : (rows.map OutputRow.index).Nodup := h.keys_clips ▸ st.clips.nodup

theorem empty : Stores.empty.Holds [] := ⟨rfl, rfl, rfl⟩

/-- One output registered that is not there yet is one row more. -/
theorem register (h : st.Holds rows) (hfresh : idx ∉ rows.map OutputRow.index) (clip : VideoNode) (info : ClipInfo) :
    Stores.Holds ⟨st.clips.set idx clip, st.clipInfos.set idx info, st.outputItems ++ [⟨idx, info.name, info⟩]⟩
      (rows ++ [⟨idx, clip, info⟩]) where
  clips := by
    rw [OrderedDict.entries_set, if_neg (h.keys_clips ▸ hfresh), h.clips, List.map_append]
    rfl
  clipInfos := by
    rw [OrderedDict.entries_set, if_neg (h.keys_clipInfos ▸ hfresh), h.clipInfos, List.map_append]
    rfl
  outputItems := by
    rw [h.outputItems, List.map_append]
    rfl

end Stores.Holds

namespace ScriptRunner

open OutputRow (index video)

variable {s : RunnerState} {rows : List OutputRow}

/-- The loops add rows, for all their clips unless one is rejected. -/
def Adds (rows : List OutputRow) (clips : List (Int × VideoNode)) (x : RunM Unit) (s : RunnerState) : Prop :=
  ∃ more, (x.exec s).2.runner.stores.Holds (rows ++ more) ∧ ((x.exec s).1 = .ok () → more.map video = clips)

theorem Adds.none (h : s.runner.stores.Holds rows) : Adds rows [] (pure ()) s :=
  ⟨[], by rw [List.append_nil]; exact h, fun _ => rfl⟩

/-- One turn of a loop, and the rest of it from the row added. -/
theorem Adds.cons {idx : Int} {clip : VideoNode} {name : String} {clips : List (Int × VideoNode)} {x : RunM Unit}
    {itemName : ClipInfo → String} (h : s.runner.stores.Holds rows) (hfresh : idx ∉ rows.map index)
    (hname : ∀ info, ClipInfo.fromClip clip name = .ok info → itemName info = info.name)
    (hrest : ∀ (s : RunnerState) (info : ClipInfo), s.runner.stores.Holds (rows ++ [⟨idx, clip, info⟩]) →
      Adds (rows ++ [⟨idx, clip, info⟩]) clips x s) :
    Adds rows ((idx, clip) :: clips) (do
      let info ← ofExcept (ClipInfo.fromClip clip name)
      ScriptRunner.register idx clip (itemName info) info
      x) s := by
  unfold Adds
  rw [RunM.exec_bind, exec_ofExcept]
  cases hinfo : ClipInfo.fromClip clip name with
  | error e => exact ⟨[], by rw [List.append_nil]; exact h, fun hok => by cases hok⟩
  | ok info =>
    dsimp only
    rw [RunM.exec_bind, ScriptRunner.register, exec_update, hname info hinfo]
    have hrow := h.register hfresh clip info
    obtain ⟨more, hholds, hok⟩ := hrest { s with runner := { s.runner with
      clips := s.runner.clips.set idx clip
      clipInfos := s.runner.clipInfos.set idx info
      outputItems := s.runner.outputItems ++ [⟨idx, info.name, info⟩] } } info hrow
    refine ⟨⟨idx, clip, info⟩ :: more, ?_, fun hx => ?_⟩
    · rw [List.append_assoc] at hholds
      exact hholds
    · rw [List.map_cons, hok hx]
      rfl

theorem registerClips_adds {clips : List (Int × VideoNode)} (h : s.runner.stores.Holds rows)
    (hnodup : (rows.map index ++ clips.map Prod.fst).Nodup) : Adds rows clips (registerClips clips) s := by
  induction clips generalizing s rows with
  | nil => exact .none h
  | cons entry rest ih =>
    obtain ⟨idx, clip⟩ := entry
    have hfresh : idx ∉ rows.map index := by
      intro hmem
      exact (List.nodup_append.1 hnodup).2.2 idx hmem idx List.mem_cons_self rfl
    refine .cons h hfresh (fun _ _ => rfl) (fun s info hrow => ih hrow ?_)
    simpa only [List.map_append, List.map_cons, List.map_nil, List.append_assoc, List.singleton_append] using hnodup

theorem fromClip_name {clip : VideoNode} {name : String} {info : ClipInfo}
    (h : ClipInfo.fromClip clip name = .ok info) : info.name = name := by
  have hformat : clip.format.id ≠ 0 := by
    intro hzero
    obtain ⟨e, he⟩ : ∃ e, ClipInfo.fromClip clip name = .error e := ClipInfo.fromClip_error_iff.2 hzero
    rw [h] at he
    cases he
  obtain ⟨info', hinfo, hname⟩ := ClipInfo.fromClip_ok hformat name
  rw [h] at hinfo
  rw [Except.ok.inj hinfo]
  exact hname

theorem registerOutputs_adds {entries : List (Int × Output)} (h : s.runner.stores.Holds rows)
    (hnodup : (rows.map index ++ entries.map Prod.fst).Nodup) :
    Adds rows (videoEntries entries) (registerOutputs entries) s := by
  induction entries generalizing s rows with
  | nil => exact .none h
  | cons entry rest ih =>
    obtain ⟨idx, output⟩ := entry
    have hrest : (rows.map index ++ rest.map Prod.fst).Nodup := by
      refine hnodup.sublist (List.Sublist.append_left ?_ _)
      exact List.sublist_cons_self ..
    cases output with
    | audio => exact ih h hrest
    | video clip =>
      have hfresh : idx ∉ rows.map index := by
        intro hmem
        exact (List.nodup_append.1 hnodup).2.2 idx hmem idx List.mem_cons_self rfl
      have hname : ∀ info, ClipInfo.fromClip clip (outputName s.outputMetadata idx) = .ok info →
          outputName s.outputMetadata idx = info.name := fun info hinfo => (fromClip_name hinfo).symm
      refine Adds.cons h hfresh hname (fun s info hrow => ih hrow ?_)
      simpa only [List.map_append, List.map_cons, List.map_nil, List.append_assoc, List.singleton_append] using hnodup

theorem tabular_teardown {P : List OutputRow → Prop} (w : TeardownWorld) :
    Tabular P (teardownEnvironment w) (fun _ rows => rows = []) := by
  intro s rows _ _
  exact ⟨[], teardown_stores w s ▸ .empty, fun _ _ => rfl⟩

theorem tabular_close {P : List OutputRow → Prop} (w : TeardownWorld) (isRegistered : Bool)
    (unregister : Option PyExc) : Tabular P (close w isRegistered unregister) (fun _ rows => rows = []) := by
  intro s rows _ _
  exact ⟨[], close_stores w isRegistered s ▸ .empty, fun _ _ => rfl⟩

theorem keepsStores_ensurePolicy_arg (w : LoadWorld) (environment : Option EnvironmentArg) :
    KeepsStores (ensurePolicy w environment) := by
  cases environment with
  | none => exact keepsStores_ensurePolicy w
  | some arg =>
    intro s
    cases arg with
    | policy p => rfl
    | environment env => rfl

/-- What a load that returns leaves behind. -/
def Loaded (w : LoadWorld) (items : List OutputItem) (rows : List OutputRow) : Prop :=
  items = rows.map OutputRow.item ∧
    ∃ outputs, w.outputs = .ok outputs ∧ rows.map video = videoEntries outputs.entries

theorem tabular_extractOutputs (w : LoadWorld) : Tabular (· = []) (extractOutputs w) (Loaded w) := by
  have hrest : Tabular (· = []) (do
      let outputs ← ofExcept w.outputs
      registerOutputs outputs.entries
      return (← get).runner.outputItems : RunM (List OutputItem)) (Loaded w) := by
    refine .bind (.ofExcept _) (fun outputs => .bind (Q := fun _ rows =>
      w.outputs = .ok outputs ∧ rows.map video = videoEntries outputs.entries) ?_ (fun _ => ?_))
    · rintro s _ h ⟨houtputs, rfl⟩
      obtain ⟨more, hholds, hok⟩ := registerOutputs_adds h outputs.nodup
      exact ⟨more, hholds, fun _ hx => ⟨houtputs, hok hx⟩⟩
    · rintro s rows h ⟨houtputs, hvideos⟩
      refine ⟨rows, h, fun items hitems => ⟨?_, outputs, houtputs, hvideos⟩⟩
      exact (Except.ok.inj hitems).symm.trans h.outputItems
  refine .bind (.of_keepsStores keepsStores_get) (fun st => ?_)
  exact .ite (fun _ => .bind (Q := fun _ => (· = [])) (.throw _) (fun _ => hrest)) (fun _ => hrest)

theorem tabular_execute (w : LoadWorld) (source : ScriptSource) : Tabular (· = []) (execute w source) (Loaded w) := by
  refine .bind (.of_keepsStores (keepsStores_outside _ _)) (fun _ => ?_)
  refine .bind (.update (fun r => by simp only [stores])) (fun _ => ?_)
  refine .bind (.of_leaves (.ofExcept _)) (fun script => ?_)
  refine .bind (.update (fun _ => rfl)) (fun _ => ?_)
  refine .bind (.of_leaves (.modify (fun _ => rfl))) (fun _ => ?_)
  exact .bind (.of_leaves (.raiseIf _)) (fun _ => tabular_extractOutputs w)

theorem tabular_loadScript (w : LoadWorld) (scriptPath : String) (environment : Option EnvironmentArg) (chdir : Bool) :
    Tabular (fun _ => True) (loadScript w scriptPath environment chdir) (Loaded w) := by
  have hload : Tabular (fun _ => True) (do
      teardownEnvironment w.teardown
      update (fun r => { r with scriptPath := some (w.resolve scriptPath), chdir := chdir })
      let _ ← ensurePolicy w environment
      execute w (.file (w.resolve scriptPath)) : RunM (List OutputItem)) (Loaded w) := by
    refine .bind (tabular_teardown _) (fun _ => .bind (.update (fun _ => rfl)) (fun _ => ?_))
    exact .bind (.of_keepsStores (keepsStores_ensurePolicy_arg w environment)) (fun _ => tabular_execute w _)
  exact .ite (fun _ => .bind (Q := fun _ _ => True) (.throw _) (fun _ => hload)) (fun _ => hload)

theorem tabular_loadCode (w : LoadWorld) (code : String) (environment : Option EnvironmentArg) :
    Tabular (fun _ => True) (loadCode w code environment) (Loaded w) := by
  refine .bind (tabular_teardown _) (fun _ => .bind (.update (fun _ => rfl)) (fun _ => ?_))
  exact .bind (.of_keepsStores (keepsStores_ensurePolicy_arg w environment)) (fun _ => tabular_execute w _)

theorem tabular_reload (w : LoadWorld) (chdir : Option Bool) :
    Tabular (fun _ => True) (reload w chdir) (Loaded w) := by
  refine .bind (.of_keepsStores keepsStores_get) (fun st => ?_)
  dsimp only
  cases st.runner.scriptPath with
  | none => exact .throw _
  | some path => exact tabular_loadScript w path none _

theorem tabular_fromClips (w : FromClipsWorld) (clips : ClipsArg) (environment : Option Environment) :
    Tabular (fun _ => True) (fromClips w clips environment) (fun _ rows => rows.map video = clips.items) := by
  have hnew : Tabular (fun _ => True) (construct w.load (environment.map .environment)) (fun _ rows => rows = []) := by
    refine .bind (Q := fun _ rows => rows = []) ?_ (fun _ => ?_)
    · exact fun s _ _ _ => ⟨[], .empty, fun _ _ => rfl⟩
    · exact .bind (.of_keepsStores (keepsStores_ensurePolicy_arg w.load _)) (fun _ => .of_keepsStores (keepsStores_pure _))
  have hclips : Tabular (· = []) (registerClips clips.items) (fun _ rows => rows.map video = clips.items) := by
    rintro s _ h rfl
    obtain ⟨more, hholds, hok⟩ := registerClips_adds h clips.nodup
    exact ⟨more, hholds, fun _ hx => hok hx⟩
  refine .bind hnew (fun _ => .bind (.update (fun _ => rfl)) (fun _ => ?_))
  refine .ite (fun _ => ?_) (fun _ => hclips)
  refine .bind (.of_leaves (.ofExcept _)) (fun env => ?_)
  exact .bind (.update (fun _ => rfl)) (fun _ => hclips)

end ScriptRunner

open OutputRow (video)

/-- What an operation returns and the table it leaves: a load its outputs, a
teardown and `close` nothing. -/
def RunnerOp.Leaves (op : RunnerOp) (returned : Option (List OutputItem)) (rows : List OutputRow) : Prop :=
  ∀ items, returned = some items → items = rows.map OutputRow.item ∧
    ∃ outputs, op.outputs = .ok outputs ∧ rows.map video = videoEntries outputs.entries

theorem tabular_some {P : List OutputRow → Prop} {w : LoadWorld} {op : RunnerOp} {x : RunM (List OutputItem)}
    (hx : Tabular P x (ScriptRunner.Loaded w)) (hop : op.outputs = w.outputs) : Tabular P (some <$> x) op.Leaves := by
  refine .bind (f := fun items => pure (some items)) hx (fun items => ?_)
  rintro s rows h hloaded
  refine ⟨rows, h, fun returned hreturned items' hitems => ?_⟩
  obtain rfl := Option.some.inj ((Except.ok.inj hreturned).trans hitems)
  exact ⟨hloaded.1, hop ▸ hloaded.2⟩

theorem tabular_none {P : List OutputRow → Prop} {Q : Unit → List OutputRow → Prop} {op : RunnerOp} {x : RunM Unit}
    (hx : Tabular P x Q) : Tabular P (do x; pure none) op.Leaves := by
  refine .bind hx (fun _ => ?_)
  intro s rows h _
  refine ⟨rows, h, fun returned hreturned items hitems => ?_⟩
  cases (Except.ok.inj hreturned).trans hitems

theorem RunnerOp.tabular (op : RunnerOp) : Tabular (fun _ => True) op.run op.Leaves := by
  cases op with
  | fromClips w clips environment => exact tabular_none (ScriptRunner.tabular_fromClips w clips environment)
  | loadScript w scriptPath environment chdir =>
    exact tabular_some (ScriptRunner.tabular_loadScript w scriptPath environment chdir) rfl
  | loadCode w code environment => exact tabular_some (ScriptRunner.tabular_loadCode w code environment) rfl
  | reload w chdir => exact tabular_some (ScriptRunner.tabular_reload w chdir) rfl
  | teardownEnvironment w => exact tabular_none (ScriptRunner.tabular_teardown w)
  | close w isRegistered unregister => exact tabular_none (ScriptRunner.tabular_close w isRegistered unregister)

theorem RunnerOp.clears_stores {op : RunnerOp} (h : op.clears = true) (s : RunnerState) :
    (op.run.exec s).2.runner.stores = .empty := by
  have hpure : ∀ x : RunM Unit, ((do x; pure none : RunM (Option (List OutputItem))).exec s).2 = (x.exec s).2 := by
    intro x
    rw [RunM.exec_bind]
    rcases x.exec s with ⟨_ | _, s'⟩ <;> rfl
  cases op with
  | teardownEnvironment w => exact hpure _ ▸ ScriptRunner.teardown_stores w s
  | close w isRegistered unregister => exact hpure _ ▸ ScriptRunner.close_stores w isRegistered s
  | _ => cases h

/-- What clients rely on when they list, inspect and fetch. -/
structure StoresAgree (r : ScriptRunner) : Prop where
  clipInfos : ∀ i, i ∈ r.clips.keys ↔ i ∈ r.clipInfos.keys
  outputItems : ∀ i, i ∈ r.clips.keys ↔ i ∈ r.outputItems.map OutputItem.index
  nodup : (r.outputItems.map OutputItem.index).Nodup
  stored : ∀ item ∈ r.outputItems, ∃ info, r.clipInfos.get? item.index = some info ∧
    item.info = info ∧ item.name = info.name
  getClip : ∀ i, (∃ clip, r.getClip i = .ok clip) ↔ ∃ info, r.getClipInfo i = .ok info
  listOutputs : ∀ i, (∃ clip, r.getClip i = .ok clip) ↔ i ∈ r.outputItems.map OutputItem.index

theorem getClip_ok_iff {r : ScriptRunner} {i : Int} : (∃ clip, r.getClip i = .ok clip) ↔ i ∈ r.clips.keys := by
  rw [OrderedDict.mem_keys_iff, ScriptRunner.getClip]
  cases r.clips.get? i <;> simp

theorem getClipInfo_ok_iff {r : ScriptRunner} {i : Int} :
    (∃ info, r.getClipInfo i = .ok info) ↔ i ∈ r.clipInfos.keys := by
  rw [OrderedDict.mem_keys_iff, ScriptRunner.getClipInfo]
  cases r.clipInfos.get? i <;> simp

theorem Stores.Holds.agree {r : ScriptRunner} {rows : List OutputRow} (h : r.stores.Holds rows) : StoresAgree r := by
  have hclips : r.clips.keys = rows.map OutputRow.index := h.keys_clips
  have hinfos : r.clipInfos.keys = rows.map OutputRow.index := h.keys_clipInfos
  have hitems : r.outputItems.map OutputItem.index = rows.map OutputRow.index := by
    rw [show r.outputItems = rows.map OutputRow.item from h.outputItems, List.map_map]
    rfl
  refine ⟨?_, ?_, hitems ▸ h.nodup, ?_, ?_, ?_⟩
  · intro i
    rw [hclips, hinfos]
  · intro i
    rw [hclips, hitems]
  · intro item hitem
    rw [show r.outputItems = rows.map OutputRow.item from h.outputItems] at hitem
    obtain ⟨row, hrow, rfl⟩ := List.mem_map.1 hitem
    refine ⟨row.info, ?_, rfl, rfl⟩
    refine OrderedDict.get?_of_mem_entries ?_
    rw [show r.clipInfos.entries = rows.map (fun row => (row.index, row.info)) from h.clipInfos]
    exact List.mem_map_of_mem hrow
  · intro i
    rw [getClip_ok_iff, getClipInfo_ok_iff, hclips, hinfos]
  · intro i
    rw [getClip_ok_iff, hclips, hitems]

/-- The collections agree, and where the next operation returns they are what it
promises. -/
structure OutputsConsistent (s : RunnerState) : Prop where
  agree : StoresAgree s.runner
  loaded : ∀ (op : RunnerOp) items, (op.run.exec s).1 = .ok (some items) →
    (op.run.exec s).2.runner.outputItems = items ∧
    ∃ outputs, op.outputs = .ok outputs ∧
      (op.run.exec s).2.runner.clips.entries = videoEntries outputs.entries
  cleared : ∀ op : RunnerOp, op.clears = true → (op.run.exec s).2.runner.stores = .empty

/-- For every sequence of operations of a runner, with every answer of the
outside world. -/
theorem output_stores_consistent (w : LoadWorld) (environment : Option EnvironmentArg) (s : RunnerState)
    (ops : List RunnerOp) :
    Runs.Always RunnerOp.step OutputsConsistent ops ((ScriptRunner.construct w environment).exec s).2 := by
  have hguard : Runs.Guarded RunnerOp.step (fun _ _ => True) ops ((ScriptRunner.construct w environment).exec s).2 :=
    Runs.Guarded.of_mem (fun _ _ _ => trivial)
  refine (hguard.always (I := fun s => ∃ rows, s.runner.stores.Holds rows) ?_ ?_).mono ?_
  · rintro s op t ⟨rows, h⟩ - hs
    obtain rfl := Option.some.inj hs
    obtain ⟨rows', h', -⟩ := op.tabular s rows h trivial
    exact ⟨rows', h'⟩
  · have hempty : ((ScriptRunner.construct w environment).exec s).2.runner.stores = .empty := by
      have hkeeps : ScriptRunner.KeepsStores (do let _ ← ScriptRunner.ensurePolicy w environment; pure () : RunM Unit) :=
        .bind (ScriptRunner.keepsStores_ensurePolicy_arg w environment) (fun _ => ScriptRunner.keepsStores_pure ())
      exact hkeeps { s with runner := {} }
    exact ⟨[], hempty ▸ .empty⟩
  · rintro s ⟨rows, h⟩
    refine ⟨h.agree, fun op items hitems => ?_, fun op hop => RunnerOp.clears_stores hop s⟩
    obtain ⟨rows', h', hok⟩ := op.tabular s rows h trivial
    obtain ⟨hreturned, outputs, houtputs, hvideos⟩ := hok (some items) hitems items rfl
    refine ⟨h'.outputItems.trans hreturned.symm, outputs, houtputs, ?_⟩
    exact h'.clips.trans hvideos

/-- A script with a clip, an audio output and a clip with a name. -/
def LoadWorld.threeOutputs : LoadWorld :=
  { LoadWorld.finds (((OrderedDict.empty.set 0 (.video (.gray8 1 2 2))).set 1 .audio).set 2 (.video (.gray8 2 4 4))) with
    isFile := fun _ => true, metadata := [(2, "mask")] }

/-- The clip of the second output has no constant format. -/
def LoadWorld.rejected : LoadWorld :=
  { LoadWorld.finds ((OrderedDict.empty.set 0 (.video (.gray8 3 2 2))).set 1 (.video (.variableFormat 4 2 2))) with
    isFile := fun _ => true }

def mixedRunnerOps : List RunnerOp :=
  [.loadScript .threeOutputs "clip.vpy" none true, .reload .rejected none, .close {} false none,
    .fromClips ⟨.finds .empty, false, .ok ⟨1, false⟩⟩ (.sequence [.gray8 5 2 2, .gray8 6 2 2]) none]

theorem output_stores_consistent_mixed :
    ([1, 2, 3, 4].map (fun k => (Runs.run RunnerOp.step (mixedRunnerOps.take k)
      ((ScriptRunner.construct (.finds .empty) none).exec ⟨{}, .empty, []⟩).2).map
        (fun s => s.runner.outputItems.map (fun item => (item.index, item.name))))) =
      [some [(0, "Output 0"), (2, "mask")], some [(0, "Output 0")], some [], some [(0, "Output 0"), (1, "Output 1")]] ∧
    Runs.Always RunnerOp.step OutputsConsistent mixedRunnerOps
      ((ScriptRunner.construct (.finds .empty) none).exec ⟨{}, .empty, []⟩).2 :=
  ⟨by decide +kernel, output_stores_consistent _ none _ mixedRunnerOps⟩

end VsRemote
