import VsRemote.HandlerKeeps
import VsRemote.LoadRace
import VsRemote.RunnerEnvironment

/-! Which environment is in use when a frame is requested, for any interleaving
of GET_FRAME handlers with the loads and clean-ups of the pool. -/

namespace VsRemote

open Handler

/-- Where a handler stands between `get_clip` and `get_frame_async`. -/
inductive RenderPhase where
  | idle
  | clip (clip : VideoNode)
  | env (clip : VideoNode) (env : Environment)

def renderMonitor : Coro.Monitor srvSig RenderPhase where
  pre
    | phase, .getFrameAsync env clip _ => phase = .env clip env
    | _, _ => True
  allows _ _ _ := True
  next
    | _, .runner (.clip _), .ok clip => .clip clip
    | .clip clip, .runner .environment, .ok env => .env clip env
    | .clip _, .runner .environment, .error _ => .idle
    | .env _ _, .useEnvironment _, .error _ => .idle
    | _, .getFrameAsync _ _ _, _ => .idle
    | phase, _, _ => phase

def Task.rendering (task : Task) : RenderPhase := renderMonitor.run .idle task.log

namespace Sys

def phaseOf (s : Sys) (t : Nat) : RenderPhase :=
  match s.tasks[t]? with
  | some task => task.rendering
  | none => .idle

/-- The next operation of the task takes a clip from the runner. -/
def takesClip (s : Sys) (t : Nat) : Bool :=
  match s.tasks[t]? with
  | some task =>
    match task.prog with
    | .call (.runner (.clip i)) _ => (s.srv.runner.runner.clips.get? i).isSome
    | _ => false
  | none => false

end Sys

/-- The server with a record beside it: the environment of the load that
registered the clips, and of the clip that each handler took last. -/
structure Rendering where
  sys : Sys
  loaded : Option Environment
  clipEnv : Nat → Option Environment

namespace Rendering

def init (runner : RunnerState) (metrics : ServerMetricsCollector) : Rendering :=
  ⟨Sys.init runner metrics, runner.runner.environment, fun _ => none⟩

def loadedAfter (x : Rendering) (l : Label) : Option Environment :=
  match x.sys.loadOf l with
  | some (a, w, _) =>
    if a.touches w x.sys.srv.runner.runner then w.script.toOption.map (·.environment) else x.loaded
  | none => x.loaded

def clipEnvAfter (x : Rendering) : Label → Nat → Option Environment
  | .sync t _ => if x.sys.takesClip t then Function.update x.clipEnv t x.loaded else x.clipEnv
  | _ => x.clipEnv

def step (d : Daemon) (h : Host) (l : Label) (x : Rendering) : Option Rendering :=
  (Sys.step d h l x.sys).map (fun s => ⟨s, x.loadedAfter l, x.clipEnvAfter l⟩)

end Rendering

/-- The handler that calls `get_frame_async` in the step, and the environment in use. -/
def Sys.asksFrame (s : Sys) : Label → Option (Nat × Environment)
  | .sync t _ =>
    match s.tasks[t]? with
    | some task =>
      match task.prog with
      | .call (.getFrameAsync env _ _) _ => some (t, env)
      | _ => none
    | none => none
  | _ => none

/-- Whenever `get_frame_async` is called, the environment in use is the one the
clip was extracted from, and it has not been disposed. -/
def InOwnEnvironment (x : Rendering) (l : Label) : Prop :=
  ∀ call ∈ x.sys.asksFrame l, x.clipEnv call.1 = some call.2 ∧ x.sys.srv.runner.disposed call.2 = false

/-- vsengine runs the script in an environment that has not been disposed. -/
def FreshEnvironment (x : Rendering) (l : Label) : Prop :=
  ∀ load ∈ x.sys.loadOf l, ∀ script ∈ load.2.1.script.toOption,
    x.sys.srv.runner.disposed script.environment = false ∧
    ∀ env ∈ x.sys.srv.runner.runner.environment, env.managed = true → env.id ≠ script.environment.id

/-- A handler in this phase whose clip is from the environment `own` will render
in it: it has it already, or it looks it up in the runner or finds none there. -/
def RunnerState.Serves (r : RunnerState) (own : Option Environment) : RenderPhase → Prop
  | .idle => True
  | .clip _ => r.runner.environment = none ∨ (r.runner.environment = own ∧ own.all (fun env => ! r.disposed env))
  | .env _ env => own = some env ∧ r.disposed env = false

def Label.runsJob : Label → Bool
  | .jobRun _ _ => true
  | _ => false

/-- A load or clean-up that runs while a handler is between `get_clip` and
`get_frame_async` leaves it the environment of its clip. -/
def SparesRendering (d : Daemon) (h : Host) (x : Rendering) (l : Label) : Prop :=
  l.runsJob = true → ∀ s ∈ Sys.step d h l x.sys, ∀ t < x.sys.tasks.length,
    s.srv.runner.Serves (x.clipEnv t) (x.sys.phaseOf t)

instance (x : Rendering) (l : Label) : Decidable (InOwnEnvironment x l) :=
  inferInstanceAs (Decidable (∀ call ∈ x.sys.asksFrame l, _))

instance (x : Rendering) (l : Label) : Decidable (FreshEnvironment x l) :=
  inferInstanceAs (Decidable (∀ load ∈ x.sys.loadOf l, ∀ script ∈ load.2.1.script.toOption, _))

instance (r : RunnerState) (own : Option Environment) : (phase : RenderPhase) → Decidable (r.Serves own phase)
  | .idle => isTrue trivial
  | .clip _ => inferInstanceAs (Decidable (_ ∨ _))
  | .env _ _ => inferInstanceAs (Decidable (_ ∧ _))

instance (d : Daemon) (h : Host) (x : Rendering) (l : Label) : Decidable (SparesRendering d h x l) :=
  inferInstanceAs (Decidable (l.runsJob = true → ∀ s ∈ Sys.step d h l x.sys, ∀ t < x.sys.tasks.length, _))

/-! ## What a handler asks frames for -/

section

variable (d : Daemon) (req : RequestEnvelope)

theorem quietOnPlain_render : QuietOnPlain renderMonitor .idle := by
  intro o ho
  cases o with
  | runner q =>
    cases q with
    | clip i => cases ho
    | _ => exact ⟨trivial, fun _ _ => rfl⟩
  | getFrameAsync env clip n => cases ho
  | runInExecutor job => cases ho
  | awaitFrame clip n => cases ho
  | closeFrame f => cases ho
  | _ => exact ⟨trivial, fun _ _ => rfl⟩

theorem render_afterRequest (frameReq : FrameRequest) (clip : VideoNode) (renderStart : Rat) :
    Keeps renderMonitor .idle (do
      let frame ← awaitFrame clip frameReq.n
      Coro.tryFinally (sendFrame d req frameReq frame renderStart) (closeFrame frame.id)) := by
  refine .bind ⟨trivial, fun _ _ => rfl⟩ (fun frame => .tryFinally ?_ ⟨trivial, fun _ _ => rfl⟩)
  exact keeps_sendFrame d req quietOnPlain_render.served frameReq frame renderStart quietOnPlain_render.frames ⟨trivial, fun _ _ => rfl⟩

/-- The environment that is looked up is the one frames of the clip are asked for in. -/
theorem render_renderAndSend (frameReq : FrameRequest) (clip : VideoNode) (renderStart : Rat) :
    (renderAndSend d req frameReq clip renderStart).run.wp renderMonitor (fun _ phase => phase = .idle)
      (.clip clip) := by
  simp only [renderAndSend, Coro.wp_run_bind, wp_runnerEnvironment, wp_ofExcept, wp_useEnvironment,
    wp_getFrameAsync]
  refine ⟨trivial, fun found _ => ?_⟩
  cases found with
  | error e => rfl
  | ok env =>
    refine ⟨trivial, fun used _ => ?_⟩
    cases used with
    | error e => rfl
    | ok _ =>
      refine ⟨rfl, fun asked _ => ?_⟩
      cases asked with
      | error e => rfl
      | ok _ =>
        have hrest := render_afterRequest d req frameReq clip renderStart
        unfold Keeps at hrest
        rwa [Coro.wp_run_bind] at hrest

theorem render_handleGetFrame : Keeps renderMonitor .idle (handleGetFrame d req) := by
  have hq := quietOnPlain_render
  refine .bind (.op (hq .socketOpen rfl)) (fun isOpen => .ite (.pure ()) ?_)
  split
  · exact keeps_sendHeader d req hq.served _ _
  · next frameReq _ =>
    refine .bind (.op (hq (.metrics _) rfl)) (fun _ => ?_)
    unfold Keeps
    rw [Coro.wp_run_bind, wp_runnerGetClip]
    refine ⟨trivial, fun taken _ => ?_⟩
    cases taken with
    | error e => exact Keeps.ite (keeps_sendHeader d req hq.served _ _) (.throw _)
    | ok clip =>
      simp only [Coro.wp_run_bind, wp_perfCounter, Coro.wp_run_tryCatch]
      refine ⟨trivial, fun renderStart _ => ?_⟩
      refine Coro.wp_mono _ (render_renderAndSend d req frameReq clip renderStart) ?_
      rintro (e | _) phase rfl
      · cases e with
        | cancelled => exact Keeps.bind (.op (hq (.metrics _) rfl)) (fun _ => .throw _)
        | exc e =>
          refine Keeps.bind (.op (hq (.metrics _) rfl)) (fun _ => .bind (keeps_traceback hq.served _) (fun tb => ?_))
          exact keeps_sendHeader d req hq.served _ _
      · rfl

theorem render_handleRequest (msg : List Bytes) : Keeps renderMonitor .idle (handleRequest d msg) := by
  refine keeps_handleRequest d quietOnPlain_render msg (fun req => render_handleGetFrame d req) ?_
  intro req _ _ α _ typeName action _
  exact keeps_dispatchExecutor d req quietOnPlain_render.served α typeName action (fun _ => ⟨trivial, fun _ _ => rfl⟩)
    ⟨trivial, fun _ _ => rfl⟩

end

section

variable {d : Daemon} {task : Task}

theorem Task.Handles.wp_rendering (hh : task.Handles d) :
    task.prog.wp renderMonitor (fun _ phase => phase = .idle) task.rendering :=
  hh.wp_log (fun _ _ _ => trivial) (fun msg _ => render_handleRequest d msg)
    (fun _ payload subscribers => keeps_sendAll quietOnPlain_render.served payload subscribers)

theorem Task.Handles.rendering_finished (hh : task.Handles d) (hf : task.finished = true) :
    task.rendering = .idle := by
  have hwp := hh.wp_rendering
  cases hp : task.prog with
  | pure r =>
    rw [hp] at hwp
    exact hwp
  | call o k => simp [Task.finished, hp] at hf

theorem Task.Handles.rendering_env {env : Environment} {clip : VideoNode} {n : Int}
    {k : SrvOp.Res (.getFrameAsync env clip n) → HandlerProg} (hh : task.Handles d)
    (hp : task.prog = .call (.getFrameAsync env clip n) k) : task.rendering = .env clip env := by
  have hwp := hh.wp_rendering
  rw [hp] at hwp
  exact hwp.1

theorem rendering_complete (task : Task) (o : SrvOp) (k : o.Res → HandlerProg) (r : o.Res) :
    (task.complete o k r).rendering = renderMonitor.next task.rendering o r := by
  simp only [Task.rendering, Task.complete_log, Coro.Monitor.run_append]
  rfl

@[simp] theorem rendering_cancel (task : Task) : task.cancel.rendering = task.rendering := by
  simp only [Task.rendering, Task.cancel_log]

end

/-! ## One step -/

theorem render_next_suspends {o : SrvOp} (ho : o.suspends = true ∨ ∃ job, o = .runInExecutor job)
    (phase : RenderPhase) (r : o.Res) : renderMonitor.next phase o r = phase := by
  rcases ho with ho | ⟨job, rfl⟩
  · cases o with
    | awaitFrame clip n => cases phase <;> rfl
    | send origin parts => cases phase <;> rfl
    | _ => cases ho
  · cases phase <;> rfl

theorem respond_runner {d : Daemon} {h : Host} {t : Nat} {q : RunnerQuery} {c : Choice} {srv srv' : ServerState}
    {r : q.Res} (hr : respond d h t (.runner q) c srv = some (r, srv')) : r = q.answer srv.runner.runner := by
  cases c with
  | ok => exact (Prod.mk.inj (Option.some.inj hr)).1.symm
  | _ => cases hr

namespace Sys

variable {d : Daemon} {h : Host} {s s' : Sys} {l : Label} {t : Nat}

theorem phaseOf_eq {task : Task} (ht : s.tasks[t]? = some task) : s.phaseOf t = task.rendering := by
  simp only [phaseOf, ht]

theorem sync_phase {c : Choice} (hs : step d h (.sync t c) s = some s') :
    ∃ (task : Task) (o : SrvOp) (k : o.Res → HandlerProg) (r : o.Res) (srv : ServerState),
      s.tasks[t]? = some task ∧ task.prog = .call o k ∧ respond d h t o c s.srv = some (r, srv) ∧
      s'.phaseOf t = renderMonitor.next (s.phaseOf t) o r := by
  have hlen := step_length hs
  cases step_to hs with
  | @sync _ _ task o k r srv ht hp hr =>
    refine ⟨task, o, k, r, srv, ht, hp, hr, ?_⟩
    have hlt : t < (advance { s.sideEffect o with srv := srv } t o k r).tasks.length :=
      Nat.lt_of_lt_of_le (Lookup.lt_length ht) hlen
    have hget := List.getElem?_eq_getElem hlt
    rw [phaseOf_eq hget, phaseOf_eq ht]
    obtain ⟨task₁, h₁, ⟨-, heq⟩ | ⟨hne, -⟩⟩ := Lookup.of_modify hget
    · obtain ⟨task₀, h₀, hcancel⟩ := sideEffect_task h₁
      obtain rfl := Option.some.inj (ht.symm.trans h₀)
      have hsame : task₁.rendering = task.rendering := by
        rcases hcancel with rfl | ⟨rfl, -⟩
        · rfl
        · exact rendering_cancel task
      rw [heq, rendering_complete, hsame]
    · exact absurd rfl hne

/-- Only a synchronous operation of the handler itself changes where it stands. -/
theorem step_phase (hs : step d h l s = some s') (hl : ∀ c, l ≠ .sync t c) : s'.phaseOf t = s.phaseOf t := by
  cases ht' : s'.tasks[t]? with
  | none =>
    have hlen := step_length hs
    have hnone : s.tasks[t]? = none := List.getElem?_eq_none (hlen.trans (List.getElem?_eq_none_iff.1 ht'))
    simp only [phaseOf, ht', hnone]
  | some task' =>
    rw [phaseOf_eq ht']
    rcases step_trans hs ht' with ⟨task, ht, hstep⟩ | ⟨rfl, -, hf⟩
    · rw [phaseOf_eq ht]
      cases hstep with
      | stay => rfl
      | cancel => exact rendering_cancel task
      | sync => exact absurd rfl (hl _)
      | submit => rfl
      | put => rfl
      | abort => rfl
      | frame => exact (rendering_complete ..).trans (render_next_suspends (.inl rfl) _ _)
      | putRaises => exact (rendering_complete ..).trans (render_next_suspends (.inl rfl) _ _)
      | sent => exact (rendering_complete ..).trans (render_next_suspends (.inl rfl) _ _)
      | jobDone => exact (rendering_complete ..).trans (render_next_suspends (.inr ⟨_, rfl⟩) _ _)
      | awaitCancelled => exact (rendering_complete ..).trans (render_next_suspends (.inl rfl) _ _)
      | sendCancelled => exact (rendering_complete ..).trans (render_next_suspends (.inl rfl) _ _)
      | jobCancelled => exact (rendering_complete ..).trans (render_next_suspends (.inr ⟨_, rfl⟩) _ _)
    · have hnone : s.tasks[s.tasks.length]? = none := List.getElem?_eq_none (Nat.le_refl _)
      simp only [phaseOf, hnone]
      cases hf <;> rfl

end Sys

namespace Rendering

variable {d : Daemon} {h : Host} {x x' : Rendering} {l : Label} {t : Nat}

theorem step_some (hs : step d h l x = some x') : Sys.step d h l x.sys = some x'.sys ∧
    x'.loaded = x.loadedAfter l ∧ x'.clipEnv = x.clipEnvAfter l := by
  obtain ⟨s, hsys, rfl⟩ := Option.map_eq_some_iff.1 hs
  exact ⟨hsys, rfl, rfl⟩

structure Inv (d : Daemon) (x : Rendering) : Prop where
  handled : x.sys.Handled d
  life : Sys.Lifecycle x.sys
  registered : x.sys.srv.runner.runner.clips ≠ .empty →
    x.loaded = x.sys.srv.runner.runner.environment ∧ x.loaded.all (fun env => ! x.sys.srv.runner.disposed env)
  phases : ∀ t, x.sys.srv.runner.Serves (x.clipEnv t) (x.sys.phaseOf t)

theorem loadedAfter_of_none (hl : x.sys.loadOf l = none) : x.loadedAfter l = x.loaded := by
  simp only [loadedAfter, hl]

theorem disposed_of_disposesOwn {s s' : RunnerState} {env : Environment} (hown : DisposesOwn s s')
    (hlive : s.disposed env = false)
    (hne : ∀ own ∈ s.runner.environment, own.managed = true → own.id ≠ env.id) : s'.disposed env = false := by
  rcases hown with hsame | ⟨own, henv, hm, happ⟩
  · rwa [RunnerState.disposed, hsame]
  · have hid := hne own henv hm
    have hnot : env.id ∉ s.disposals := by simpa [RunnerState.disposed] using hlive
    simp only [RunnerState.disposed, happ, List.contains_eq_mem, List.mem_append, List.mem_singleton,
      decide_eq_false_iff_not, not_or]
    exact ⟨hnot, fun he => hid he.symm⟩

theorem clips_of_stores {r : ScriptRunner} (hr : r.stores = .empty) : r.clips = .empty :=
  congrArg Stores.clips hr

theorem Inv.step_registered (hi : Inv d x) (hfresh : FreshEnvironment x l) (hs : Rendering.step d h l x = some x')
    (hclips : x'.sys.srv.runner.runner.clips ≠ .empty) :
    x'.loaded = x'.sys.srv.runner.runner.environment ∧
      x'.loaded.all (fun env => ! x'.sys.srv.runner.disposed env) := by
  obtain ⟨hsys, hloaded, -⟩ := step_some hs
  cases Sys.step_runnerStep hsys with
  | same hl hr =>
    rw [hloaded, loadedAfter_of_none hl, hr]
    exact hi.registered (hr ▸ hclips)
  | @load j w a t hl hr =>
    simp only [hloaded, loadedAfter, hl]
    cases ht : a.touches w x.sys.srv.runner.runner with
    | false =>
      obtain ⟨e, he, -⟩ := LoadAction.run_untouched ht
      have hsame : x'.sys.srv.runner = x.sys.srv.runner := hr.trans (congrArg Prod.snd he)
      rw [hsame]
      exact hi.registered (hsame ▸ hclips)
    | true =>
      obtain ⟨hown, hempty | ⟨script, hscript, henv⟩⟩ := LoadAction.run_environment ht
      · exact absurd (clips_of_stores hempty) (hr ▸ hclips)
      · obtain ⟨hnew, hother⟩ := hfresh _ hl script (by simp [hscript, Except.toOption])
        have hlive := disposed_of_disposesOwn hown hnew hother
        rw [← hr] at henv hlive
        simp only [if_true, hscript, Except.toOption, Option.map_some, henv, Option.all_some, hlive, Bool.not_false,
          and_self]
  | teardown hr => exact absurd (clips_of_stores (ScriptRunner.teardown_stores _ _)) (hr ▸ hclips)
  | close hr => exact absurd (clips_of_stores (ScriptRunner.close_stores _ _ _)) (hr ▸ hclips)

theorem clipEnvAfter_of_ne (hl : ∀ c, l ≠ .sync t c) : x.clipEnvAfter l t = x.clipEnv t := by
  cases l with
  | sync t' c =>
    have hne : t ≠ t' := by
      rintro rfl
      exact hl c rfl
    simp only [clipEnvAfter]
    split
    · exact Function.update_of_ne hne ..
    · rfl
  | _ => rfl

theorem takesClip_of_answer {task : Task} {s : Sys} {o : SrvOp} {k : o.Res → HandlerProg}
    (ht : s.tasks[t]? = some task) (hp : task.prog = .call o k) (hno : ∀ i, o ≠ .runner (.clip i)) :
    s.takesClip t = false := by
  simp only [Sys.takesClip, ht, hp]
  cases o with
  | runner q =>
    cases q with
    | clip i => exact absurd rfl (hno i)
    | _ => rfl
  | _ => rfl

theorem Inv.takes_clip (hi : Inv d x) {c : Choice} {task : Task} {i : Int}
    {k : SrvOp.Res (.runner (.clip i)) → HandlerProg} {r : SrvOp.Res (.runner (.clip i))} {srv : ServerState}
    (ht : x.sys.tasks[t]? = some task) (hp : task.prog = .call (.runner (.clip i)) k)
    (hr : respond d h t (.runner (.clip i)) c x.sys.srv = some (r, srv)) :
    x.sys.srv.runner.Serves (x.clipEnvAfter (.sync t c) t)
      (renderMonitor.next (x.sys.phaseOf t) (.runner (.clip i)) r) := by
  have hphase := hi.phases t
  have hget := respond_runner hr
  simp only [RunnerQuery.answer, ScriptRunner.getClip] at hget
  cases hfound : x.sys.srv.runner.runner.clips.get? i with
  | none =>
    have hno : x.sys.takesClip t = false := by simp only [Sys.takesClip, ht, hp, hfound, Option.isSome_none]
    simp only [hfound] at hget
    subst hget
    simp only [clipEnvAfter, hno, Bool.false_eq_true, if_false]
    cases hph : x.sys.phaseOf t <;> (rw [hph] at hphase; exact hphase)
  | some clip =>
    have hyes : x.sys.takesClip t = true := by simp only [Sys.takesClip, ht, hp, hfound, Option.isSome_some]
    have hne : x.sys.srv.runner.runner.clips ≠ .empty := by
      intro hempty
      rw [hempty] at hfound
      cases hfound
    obtain ⟨hload, hlive⟩ := hi.registered hne
    simp only [hfound] at hget
    subst hget
    simp only [clipEnvAfter, hyes, if_true, Function.update_self]
    have hserves : x.sys.srv.runner.Serves x.loaded (.clip clip) := .inr ⟨hload.symm, hlive⟩
    cases x.sys.phaseOf t <;> exact hserves

theorem renderMonitor_idle {o : SrvOp} (hno : ∀ i, o ≠ .runner (.clip i)) (r : o.Res) :
    renderMonitor.next .idle o r = .idle := by
  cases o with
  | runner q =>
    cases q with
    | clip i => exact absurd rfl (hno i)
    | _ => rfl
  | _ => rfl

/-- A handler with its clip looks its environment up. -/
theorem serves_after_clip {srv srv' : ServerState} {own : Option Environment} {clip : VideoNode} {o : SrvOp}
    {c : Choice} {r : o.Res} (hno : ∀ i, o ≠ .runner (.clip i)) (hr : respond d h t o c srv = some (r, srv'))
    (hphase : srv.runner.Serves own (.clip clip)) : srv.runner.Serves own (renderMonitor.next (.clip clip) o r) := by
  cases o with
  | runner q =>
    cases q with
    | clip i => exact absurd rfl (hno i)
    | environment =>
      have hget := respond_runner hr
      simp only [RunnerQuery.answer, ScriptRunner.getEnvironment] at hget
      cases henv : srv.runner.runner.environment with
      | none =>
        simp only [henv] at hget
        subst hget
        trivial
      | some env =>
        simp only [henv] at hget
        subst hget
        rcases hphase with hnone | ⟨hown, hlive⟩
        · rw [henv] at hnone
          cases hnone
        · rw [henv] at hown
          rw [← hown] at hlive
          exact ⟨hown.symm, by simpa using hlive⟩
    | _ => exact hphase
  | getFrameAsync env clip' n => trivial
  | _ => exact hphase

theorem serves_after_env {s : RunnerState} {own : Option Environment} {clip : VideoNode} {env : Environment}
    {o : SrvOp} {r : o.Res} (hno : ∀ i, o ≠ .runner (.clip i)) (hphase : s.Serves own (.env clip env)) :
    s.Serves own (renderMonitor.next (.env clip env) o r) := by
  cases o with
  | runner q =>
    cases q with
    | clip i => exact absurd rfl (hno i)
    | _ => exact hphase
  | useEnvironment env' =>
    cases r with
    | error e => trivial
    | ok _ => exact hphase
  | getFrameAsync env' clip' n => trivial
  | _ => exact hphase

/-- What the handler's own operation makes of its phase. -/
theorem Inv.step_sync (hi : Inv d x) {c : Choice} {task : Task} {o : SrvOp} {k : o.Res → HandlerProg} {r : o.Res}
    {srv : ServerState} (ht : x.sys.tasks[t]? = some task) (hp : task.prog = .call o k)
    (hr : respond d h t o c x.sys.srv = some (r, srv)) :
    x.sys.srv.runner.Serves (x.clipEnvAfter (.sync t c) t) (renderMonitor.next (x.sys.phaseOf t) o r) := by
  by_cases hclip : ∃ i, o = .runner (.clip i)
  · obtain ⟨i, rfl⟩ := hclip
    exact hi.takes_clip ht hp hr
  · have hother : ∀ i, o ≠ .runner (.clip i) := fun i he => hclip ⟨i, he⟩
    have hno := takesClip_of_answer ht hp hother
    simp only [clipEnvAfter, hno, Bool.false_eq_true, if_false]
    have hphase := hi.phases t
    cases hph : x.sys.phaseOf t with
    | idle =>
      rw [renderMonitor_idle hother]
      trivial
    | clip clip =>
      rw [hph] at hphase
      exact serves_after_clip hother hr hphase
    | env clip env =>
      rw [hph] at hphase
      exact serves_after_env hother hphase

theorem Inv.step_phases (hi : Inv d x) (hspares : SparesRendering d h x l) (hs : Rendering.step d h l x = some x')
    (t : Nat) : x'.sys.srv.runner.Serves (x'.clipEnv t) (x'.sys.phaseOf t) := by
  obtain ⟨hsys, -, hclip⟩ := step_some hs
  rw [hclip]
  by_cases hsync : ∃ c, l = .sync t c
  · obtain ⟨c, rfl⟩ := hsync
    obtain ⟨task, o, k, r, srv, ht, hp, hresp, hnext⟩ := Sys.sync_phase hsys
    rw [hnext]
    cases Sys.step_runnerStep hsys with
    | same _ hr =>
      rw [hr]
      exact hi.step_sync ht hp hresp
  · have hl : ∀ c, l ≠ .sync t c := fun c he => hsync ⟨c, he⟩
    rw [clipEnvAfter_of_ne hl, Sys.step_phase hsys hl]
    have hspared : ∀ j w, l = .jobRun j w → x'.sys.srv.runner.Serves (x.clipEnv t) (x.sys.phaseOf t) := by
      rintro j w rfl
      by_cases hlt : t < x.sys.tasks.length
      · exact hspares rfl x'.sys hsys t hlt
      · have hnone : x.sys.tasks[t]? = none := List.getElem?_eq_none (Nat.le_of_not_lt hlt)
        simp only [Sys.phaseOf, hnone]
        trivial
    cases hstep : Sys.step_runnerStep hsys with
    | same _ hr =>
      rw [hr]
      exact hi.phases t
    | load => exact hspared _ _ rfl
    | teardown => exact hspared _ _ rfl
    | @close w isRegistered hr =>
      have hidle : x.sys.phaseOf t = .idle := by
        cases ht : x.sys.tasks[t]? with
        | none => simp only [Sys.phaseOf, ht]
        | some task =>
          have hshut : x.sys.shutDown = true := by
            simp only [Sys.step, Sys.stepClose] at hsys
            split at hsys
            · next hc => exact hc.1
            · cases hsys
          rw [Sys.phaseOf_eq ht]
          exact (hi.handled t task ht).rendering_finished (hi.life.finished hshut t task ht)
      rw [hidle]
      trivial

theorem Inv.step (hi : Inv d x) (hfresh : FreshEnvironment x l) (hspares : SparesRendering d h x l)
    (hs : Rendering.step d h l x = some x') : Inv d x' where
  handled := hi.handled.step (step_some hs).1
  life := hi.life.step (step_some hs).1
  registered := hi.step_registered hfresh hs
  phases := hi.step_phases hspares hs

theorem asksFrame_eq_some {s : Sys} {env : Environment} (hc : s.asksFrame l = some (t, env)) :
    ∃ (task : Task) (clip : VideoNode) (n : Int) (k : SrvOp.Res (.getFrameAsync env clip n) → HandlerProg),
      s.tasks[t]? = some task ∧ task.prog = .call (.getFrameAsync env clip n) k := by
  cases l with
  | sync t' c =>
    simp only [Sys.asksFrame] at hc
    split at hc
    · next task ht =>
      split at hc
      · next env' clip n k hp =>
        obtain ⟨rfl, rfl⟩ := Prod.mk.inj (Option.some.inj hc)
        exact ⟨task, clip, n, k, ht, hp⟩
      · cases hc
    · cases hc
  | _ => cases hc

theorem Inv.inOwnEnvironment (hi : Inv d x) (l : Label) : InOwnEnvironment x l := by
  rintro ⟨t, env⟩ hc
  obtain ⟨task, clip, n, k, ht, hp⟩ := asksFrame_eq_some hc
  have hphase := hi.phases t
  rwa [Sys.phaseOf_eq ht, (hi.handled t task ht).rendering_env hp] at hphase

end Rendering

section

variable {d : Daemon} {h : Host} {runner : RunnerState} {metrics : ServerMetricsCollector} {ls : List Label}

/-- In a run in which every load and clean-up leaves the handlers that are
between `get_clip` and `get_frame_async` their environment, each frame is asked
for in the environment of its clip. -/
theorem rendered_in_own_environment
    (hstart : runner.runner.environment.all (fun env => ! runner.disposed env) = true)
    (hfresh : Runs.Guarded (Rendering.step d h) FreshEnvironment ls (Rendering.init runner metrics))
    (hspares : Runs.Guarded (Rendering.step d h) (SparesRendering d h) ls (Rendering.init runner metrics)) :
    Runs.Guarded (Rendering.step d h) InOwnEnvironment ls (Rendering.init runner metrics) := by
  have hinit : Rendering.Inv d (Rendering.init runner metrics) := by
    refine ⟨fun i task ht => ?_, Sys.lifecycle_init runner metrics, fun _ => ⟨rfl, hstart⟩, fun t => ?_⟩
    · cases ht
    · trivial
  refine (hfresh.and hspares).mono (I := Rendering.Inv d) ?_ ?_ hinit
  · exact fun x l x' hi hc hs => hi.step hc.1 hc.2 hs
  · exact fun x l hi _ => hi.inOwnEnvironment l

end

/-- The record beside the server does not change what it does. -/
theorem Rendering.run_sys {d : Daemon} {h : Host} (ls : List Label) (x : Rendering) :
    (Runs.run (Rendering.step d h) ls x).map (·.sys) = Runs.run (Sys.step d h) ls x.sys := by
  induction ls generalizing x with
  | nil => rfl
  | cons l ls ih =>
    simp only [Runs.run, Rendering.step]
    cases Sys.step d h l x.sys with
    | none => rfl
    | some s => exact ih _

def clipRunner : RunnerState := ((ScriptRunner.loadScript .oneClip "clip.vpy" none true).exec ⟨{}, .empty, []⟩).2

/-- The reload runs the script in a new environment. -/
def LoadWorld.renewed : LoadWorld := { LoadWorld.oneClip with script := .ok ⟨2, ⟨2, true⟩⟩ }

def takeClipLabels (t : Nat) : List Label :=
  [.recv [[1], [0, 0, 0, 5], [4], [0x80]], .sync t .ok, .sync t .ok, .sync t (.time 0), .sync t .ok,
    .sync t (.time 0), .sync t .ok]

def askFrameLabels (t : Nat) : List Label := [.sync t (.time 0), .sync t .ok, .sync t .ok, .sync t .ok]

theorem rendered_after_reload :
    Runs.Guarded (Rendering.step emptyMapDaemon Host.plain) InOwnEnvironment
      (reloadLabels 0 2 ++ [.jobStart 0, .jobRun 0 (.load .renewed)] ++ takeClipLabels 1 ++ askFrameLabels 1)
      (Rendering.init clipRunner { startTime := 0 }) :=
  rendered_in_own_environment (by decide +kernel) (by decide +kernel) (by decide +kernel)

/-- The reload runs between `get_clip` and the lookup of the environment. -/
def clashLabels : List Label :=
  reloadLabels 0 2 ++ [.jobStart 0] ++ takeClipLabels 1 ++ [.jobRun 0 (.load .renewed)] ++ askFrameLabels 1

theorem frame_in_foreign_environment :
    (Runs.run (Rendering.step emptyMapDaemon Host.plain) clashLabels
        (Rendering.init clipRunner { startTime := 0 })).isSome = true ∧
      Runs.Guarded (Rendering.step emptyMapDaemon Host.plain) FreshEnvironment clashLabels
        (Rendering.init clipRunner { startTime := 0 }) ∧
      ¬ Runs.Guarded (Rendering.step emptyMapDaemon Host.plain) InOwnEnvironment clashLabels
        (Rendering.init clipRunner { startTime := 0 }) := by
  decide +kernel

end VsRemote
