import VsRemote.NotFoundTeardown
import VsRemote.Serve

/-! What `stop()` has released when `run` returns. -/

namespace VsRemote

namespace Sys

variable {d : Daemon} {h : Host} {s s' : Sys} {l : Label}

def AllFinished (s : Sys) : Prop := s.tasks.all Task.finished = true

theorem not_admits (hrun : s.srv.running = false) (hl : l.ofHandlers = true) : ¬ s.Admits l := by
  rintro (hrun' | ⟨⟨msg, rfl⟩, -⟩)
  · rw [hrun] at hrun'
    cases hrun'
  · cases hl

theorem AllFinished.step (hf : s.AllFinished) (hrun : s.srv.running = false) (hl : l.ofHandlers = true) (hs : step d h l s = some s') :
    s'.AllFinished := by
  refine List.all_eq_true.2 (fun task' ht => ?_)
  obtain ⟨i, hi⟩ := List.mem_iff_getElem?.1 ht
  rcases step_trans hs hi with ⟨task, h₀, hstep⟩ | ⟨-, hadmits, -⟩
  · exact hstep.finished (List.all_eq_true.1 hf task (List.mem_of_getElem? h₀))
  · exact absurd hadmits (not_admits hrun hl)

/-- A server that does not run gets new tasks from its receive loop only. -/
theorem step_length_eq (hrun : s.srv.running = false) (hl : l.ofHandlers = true) (hs : step d h l s = some s') :
    s'.tasks.length = s.tasks.length := by
  have hle := step_length hs
  by_cases hlt : s.tasks.length < s'.tasks.length
  · rcases step_trans hs (List.getElem?_eq_getElem hlt) with ⟨task, h₀, -⟩ | ⟨-, hadmits, -⟩
    · exact absurd (Lookup.lt_length h₀) (Nat.lt_irrefl _)
    · exact absurd hadmits (not_admits hrun hl)
  · omega

theorem step_closed (hc : s.closed = true) (hs : step d h l s = some s') : s'.closed = true := by
  cases step_to hs with
  | @sync t c task o k r srv ht hp hr =>
    have hside := (sameJobs_sideEffect (s := s) o).closed
    exact hside.trans hc
  | @jobCancelled t task job k j =>
    change ((s.modifyTask t Task.clearCancel).dropQueued j).closed = true
    unfold dropQueued
    split <;> exact hc
  | close => rfl
  | _ => exact hc

end Sys

theorem Label.ofHandlers_ne {l : Label} (hl : l.ofHandlers = true) : l ≠ .stop ∧ l ≠ .shutdown := by
  constructor <;> rintro rfl <;> cases hl

namespace Serve

/-- `stop()` has run to its end and every task of the server has ended. -/
structure Released (s : Serve) : Prop where
  held : s.held = []
  tasks : s.sys.AllFinished
  closed : s.sys.closed = true

/-- Once `stop()` has been called, the receive loop goes on only when the
socket has been closed. -/
def QuietReceive (s : Serve) : ServeLabel → Prop
  | .receive _ => s.sys.stopping = true → s.pending.isNone = true
  | _ => True

instance (s : Serve) (l : ServeLabel) : Decidable (QuietReceive s l) :=
  match l with
  | .receive _ => inferInstanceAs (Decidable (s.sys.stopping = true → s.pending.isNone = true))
  | .start _ _ | .shutdownEvent | .arrive _ | .watch _ | .gathered | .zapEnds | .zapJoined | .close _ _ | .join
  | .task _ => .isTrue trivial

def HoldsOnly (s : Serve) (rs : List Resource) : Prop := ∀ r ∈ s.held, r ∈ rs

def Stage (s : Serve) : StopAt → Prop
  | .gather n => n = s.sys.tasks.length ∧ s.HoldsOnly [.ctx, .zapSocket, .zapTask, .socket, .executor]
  | .zap => s.sys.AllFinished ∧ s.HoldsOnly [.ctx, .zapSocket, .zapTask, .socket, .executor]
  | .pool => s.sys.AllFinished ∧ s.HoldsOnly [.executor]

/-- The call of `stop()` is at this place and the receive loop, if it still
runs, waits for a message on the open socket. -/
structure Stopping (s : Serve) (c : Caller) (place : StopAt) : Prop where
  stopping : s.sys.stopping = true
  running : s.sys.srv.running = false
  stopCall : s.stopCall = some (c, place)
  stage : s.Stage place
  socket : s.run = .receiving → place = .pool ∨ .socket ∈ s.held

inductive Progress (s : Serve) : Prop
  | before (stopping : s.sys.stopping = false) (stopCall : s.stopCall = none) (watch : s.watch = .waiting)
      (watchCancel : s.watchCancel = false)
      (run : s.run = .starting ∨ (s.run = .receiving ∧ s.sys.srv.running = true ∧ .socket ∈ s.held))
  | byWatch {place : StopAt} (stops : s.Stopping .watchShutdown place) (run : s.run = .receiving)
      (watch : s.watch = .inStop) (watchCancel : s.watchCancel = false)
  | byStart {place : StopAt} {raising : Bool} (stops : s.Stopping .start place) (run : s.run = .inStop raising)
      (watch : s.watch ≠ .inStop)
  | after (stopping : s.sys.stopping = true) (running : s.sys.srv.running = false) (stopCall : s.stopCall = none)
      (watch : s.watch ≠ .inStop) (run : s.run ≠ .starting) (inStop : ∀ raising, s.run ≠ .inStop raising)
      (released : s.Released)

/-- Only `stop()` has gone on. -/
structure SameCallers (s s' : Serve) : Prop where
  run : s'.run = s.run
  watch : s'.watch = s.watch
  watchCancel : s'.watchCancel = s.watchCancel

variable {d : Daemon} {h : Host} {s s' : Serve} {c : Caller} {place : StopAt} {raising waits : Bool}

theorem socket_mem_setUp (zap : Bool) : .socket ∈ setUp zap := by
  cases zap <;> decide

theorem blocked_pool (hs : s.stopCall = some (c, .pool)) : s.turn = false := by
  simp [turn, blocked, hs]

theorem afterZap_stopping (hstop : s.sys.stopping = true) (hrun : s.sys.srv.running = false)
    (hf : s.sys.AllFinished) (hheld : s.HoldsOnly [.ctx, .zapSocket, .zapTask, .socket, .executor]) :
    (s.afterZap c).Stopping c .pool ∧ SameCallers s (s.afterZap c) := by
  refine ⟨⟨hstop, hrun, rfl, ⟨hf, fun r hr => ?_⟩, fun _ => .inl rfl⟩, ⟨rfl, rfl, rfl⟩⟩
  obtain ⟨hr, hnot⟩ := List.mem_filter.1 hr
  have hr' := hheld r hr
  revert hr' hnot
  cases r <;> decide

theorem afterGather_stopping (hstop : s.sys.stopping = true) (hrun : s.sys.srv.running = false)
    (hf : s.sys.AllFinished) (hheld : s.HoldsOnly [.ctx, .zapSocket, .zapTask, .socket, .executor])
    (hsocket : s.run = .receiving → .socket ∈ s.held) :
    ∃ place, (s.afterGather c).Stopping c place ∧ SameCallers s (s.afterGather c) := by
  by_cases hzap : Resource.zapTask ∈ s.held ∧ s.zapEnded = false
  · rw [afterGather, if_pos hzap]
    exact ⟨.zap, ⟨hstop, hrun, rfl, ⟨hf, hheld⟩, fun hr => .inr (hsocket hr)⟩, ⟨rfl, rfl, rfl⟩⟩
  · rw [afterGather, if_neg hzap]
    exact ⟨.pool, afterZap_stopping hstop hrun hf hheld⟩

theorem beginStop_stopping (hsocket : s.run = .receiving → .socket ∈ s.held)
    (hs : s.beginStop c waits = some s') : ∃ place, s'.Stopping c place ∧ SameCallers s s' := by
  simp only [beginStop, Sys.stepStop, Option.bind_eq_bind, Option.bind_eq_some_iff] at hs
  obtain ⟨sys, hsys, hs⟩ := hs
  split at hsys
  · obtain rfl := Option.some.inj hsys
    have hheld : (s.release [.stdoutRedirector, .stderrRedirector, .logHandler]).HoldsOnly
        [.ctx, .zapSocket, .zapTask, .socket, .executor] := by
      intro r hr
      have hnot := (List.mem_filter.1 hr).2
      revert hnot
      cases r <;> decide
    have hsocket' : s.run = .receiving →
        .socket ∈ (s.release [.stdoutRedirector, .stderrRedirector, .logHandler]).held :=
      fun hr => List.mem_filter.2 ⟨hsocket hr, by decide⟩
    split at hs
    · split at hs
      · obtain rfl := Option.some.inj hs
        exact ⟨_, ⟨rfl, rfl, rfl, ⟨rfl, hheld⟩, fun hr => .inr (hsocket' hr)⟩, ⟨rfl, rfl, rfl⟩⟩
      · cases hs
    · split at hs
      · next hf =>
        obtain rfl := Option.some.inj hs
        let s₁ : Serve := { s.release [.stdoutRedirector, .stderrRedirector, .logHandler] with
          sys := { s.sys with
            stopping := true
            srv := { s.sys.srv with running := false, subscribers := [] }
            tasks := s.sys.tasks.map Task.cancel } }
        obtain ⟨place, hstops, hsame⟩ := afterGather_stopping (c := c) (s := s₁) rfl rfl hf hheld hsocket'
        exact ⟨place, hstops, hsame.run, hsame.watch, hsame.watchCancel⟩
      · cases hs
  · cases hsys

theorem stopping_frame {sys : Sys} (hstops : s.Stopping c place) (hstop : sys.stopping = true)
    (hrun : sys.srv.running = false) (hlen : sys.tasks.length = s.sys.tasks.length)
    (hf : s.sys.AllFinished → sys.AllFinished) : ({ s with sys := sys } : Serve).Stopping c place := by
  refine ⟨hstop, hrun, hstops.stopCall, ?_, hstops.socket⟩
  have hstage := hstops.stage
  cases place with
  | gather n => exact ⟨hstage.1.trans hlen.symm, hstage.2⟩
  | zap => exact ⟨hf hstage.1, hstage.2⟩
  | pool => exact ⟨hf hstage.1, hstage.2⟩

/-- Where the shutdown task is not in `stop()`, leaving `start()` after the stop
is over only touches the callers. -/
theorem cancelWatch_after (hstop : s.sys.stopping = true) (hrun : s.sys.srv.running = false)
    (hcall : s.stopCall = none) (hwatch : s.watch ≠ .inStop) (hrel : s.Released) :
    (s.cancelWatch raising).Progress := by
  have hreleased : ∀ (w : Bool) (r : RunAt), ({ s with watchCancel := w, run := r } : Serve).Released :=
    fun _ _ => ⟨hrel.held, hrel.tasks, hrel.closed⟩
  cases hw : s.watch with
  | inStop => exact absurd hw hwatch
  | waiting =>
    simp only [cancelWatch, hw]
    refine .after hstop hrun hcall (fun he => by cases he) (fun he => by cases he) (fun _ he => by cases he) ?_
    exact hw ▸ hreleased true (.joining raising)
  | ended e =>
    simp only [cancelWatch, hw, conclude]
    refine .after hstop hrun hcall (fun he => by cases he) (fun he => ?_) (fun _ he => ?_)
      (hw ▸ hreleased s.watchCancel _)
    · dsimp only at he
      split at he <;> cases he
    · dsimp only at he
      split at he <;> cases he

theorem leave_before (hstop : s.sys.stopping = false) (hwatch : s.watch ≠ .inStop) (hrun : s.run ≠ .receiving ∨ .socket ∈ s.held)
    (hs : s.leave raising waits = some s') : s'.Progress := by
  simp only [leave, hstop, Bool.false_eq_true, if_false, Option.map_eq_some_iff] at hs
  obtain ⟨s₁, hbegin, rfl⟩ := hs
  obtain ⟨place, hstops, hsame⟩ := beginStop_stopping (fun hr => hrun.resolve_left (not_not_intro hr)) hbegin
  exact .byStart ⟨hstops.stopping, hstops.running, hstops.stopCall, by cases place <;> exact hstops.stage, fun hr => by cases hr⟩
    rfl (fun he => hwatch (hsame.watch ▸ he))

theorem Stopping.of_same (hstops : s.Stopping c place) (hsys : s'.sys = s.sys) (hheld : s'.held = s.held)
    (hcall : s'.stopCall = s.stopCall) (hrun : s'.run = .receiving → s.run = .receiving) : s'.Stopping c place := by
  obtain ⟨hstop, hrunning, hstopCall, hstage, hsocket⟩ := hstops
  refine ⟨hsys ▸ hstop, hsys ▸ hrunning, hcall.trans hstopCall, ?_, fun hr => hheld ▸ hsocket (hrun hr)⟩
  have honly : ∀ rs, s.HoldsOnly rs → s'.HoldsOnly rs := fun rs ho r hr => ho r (hheld ▸ hr)
  cases place with
  | gather n => exact ⟨hsys ▸ hstage.1, honly _ hstage.2⟩
  | zap => exact ⟨hsys ▸ hstage.1, honly _ hstage.2⟩
  | pool => exact ⟨hsys ▸ hstage.1, honly _ hstage.2⟩

theorem Progress.of_same (hp : s.Progress) (hsys : s'.sys = s.sys) (hheld : s'.held = s.held)
    (hcall : s'.stopCall = s.stopCall) (hsame : SameCallers s s') : s'.Progress := by
  obtain ⟨hrun, hwatch, hcancel⟩ := hsame
  cases hp with
  | before stopping stopCall watch watchCancel run =>
    refine .before (hsys ▸ stopping) (hcall.trans stopCall) (hwatch.trans watch) (hcancel.trans watchCancel) ?_
    rw [hrun, hsys, hheld]
    exact run
  | byWatch stops run watch watchCancel =>
    exact .byWatch (stops.of_same hsys hheld hcall (fun hr => hrun ▸ hr)) (hrun.trans run) (hwatch.trans watch)
      (hcancel.trans watchCancel)
  | byStart stops run watch =>
    exact .byStart (stops.of_same hsys hheld hcall (fun hr => hrun ▸ hr)) (hrun.trans run) (hwatch ▸ watch)
  | after stopping running stopCall watch run inStop released =>
    exact .after (hsys ▸ stopping) (hsys ▸ running) (hcall.trans stopCall) (hwatch ▸ watch) (hrun ▸ run)
      (hrun ▸ inStop) ⟨hheld.trans released.held, hsys ▸ released.tasks, hsys ▸ released.closed⟩

theorem turn_eq (ht : s.turn = true) : s.run ≠ .starting ∧ s.sys.loop = none ∧ s.blocked = false := by
  simpa only [turn, decide_eq_true_eq] using ht

theorem receive_progress (hp : s.Progress) (hq : s.sys.stopping = true → s.pending.isNone = true)
    (hs : s.stepReceive d waits = some s') : s'.Progress := by
  simp only [stepReceive] at hs
  split at hs
  · next hc =>
    obtain ⟨hturn, hreceiving⟩ := hc
    cases hp with
    | before stopping stopCall watch watchCancel run =>
      have hwatch : s.watch ≠ .inStop := fun he => by cases watch.symm.trans he
      rcases run with hr | ⟨-, hrunning, hsocket⟩
      · exact absurd hr (turn_eq hturn).1
      · split at hs
        · next msg hmsg =>
          rw [if_pos (show (s.sys.accept d msg).srv.running = true from hrunning)] at hs
          obtain rfl := Option.some.inj hs
          exact .before stopping stopCall watch watchCancel (.inr ⟨hreceiving, hrunning, hsocket⟩)
        · exact leave_before (s := { s with pending := none }) stopping hwatch (.inr hsocket) hs
        · rw [if_pos hsocket] at hs
          cases hs
    | @byWatch place stops _ _ _ =>
      rcases stops.socket hreceiving with rfl | hsocket
      · rw [blocked_pool stops.stopCall] at hturn
        cases hturn
      · have hnone := hq stops.stopping
        split at hs
        · next msg hmsg =>
          rw [hmsg] at hnone
          cases hnone
        · next hmsg =>
          rw [hmsg] at hnone
          cases hnone
        · rw [if_pos hsocket] at hs
          cases hs
    | byStart _ run _ => cases run.symm.trans hreceiving
    | after stopping running stopCall watch _ _ released =>
      have hnone := hq stopping
      split at hs
      · next msg hmsg =>
        rw [hmsg] at hnone
        cases hnone
      · next hmsg =>
        rw [hmsg] at hnone
        cases hnone
      · split at hs
        · cases hs
        · simp only [leave, stopping, if_true, Option.some.injEq] at hs
          exact hs ▸ cancelWatch_after stopping running stopCall watch released
  · cases hs

theorem watch_progress (hp : s.Progress) (hs : s.stepWatch waits = some s') : s'.Progress := by
  simp only [stepWatch] at hs
  split at hs
  · next hc =>
    obtain ⟨hturn, hwaiting⟩ := hc
    cases hp with
    | before stopping stopCall watch watchCancel run =>
      rcases run with hr | ⟨hreceiving, -, hsocket⟩
      · exact absurd hr (turn_eq hturn).1
      · simp only [watchCancel, stopping, Bool.false_eq_true, if_false] at hs
        split at hs
        · obtain ⟨s₁, hbegin, rfl⟩ := Option.map_eq_some_iff.1 hs
          obtain ⟨place, hstops, hsame⟩ := beginStop_stopping (fun _ => hsocket) hbegin
          exact .byWatch (hstops.of_same rfl rfl rfl id) (hsame.run.trans hreceiving) rfl
            (hsame.watchCancel.trans watchCancel)
        · cases hs
    | byWatch _ _ watch _ => cases watch.symm.trans hwaiting
    | byStart stops run _ =>
      have hended : ∀ e, ({ s with watch := .ended e } : Serve).Progress := fun e =>
        .byStart (stops.of_same rfl rfl rfl id) run (fun he => by cases he)
      split at hs
      · exact Option.some.inj hs ▸ hended _
      · rw [if_pos stops.stopping] at hs
        split at hs
        · exact Option.some.inj hs ▸ hended _
        · cases hs
    | after stopping running stopCall _ run inStop released =>
      have hended : ∀ e, ({ s with watch := .ended e } : Serve).Progress := fun e =>
        .after stopping running stopCall (fun he => by cases he) run inStop
          ⟨released.held, released.tasks, released.closed⟩
      split at hs
      · exact Option.some.inj hs ▸ hended _
      · split at hs
        · exact Option.some.inj hs ▸ hended _
        · cases hs
  · cases hs

/-- The call of `stop()` has gone on to another place. -/
theorem progress_of_stopping {place' : StopAt} (hp : s.Progress) (hcall : s.stopCall = some (c, place))
    (hstops : s'.Stopping c place') (hsame : SameCallers s s') : s'.Progress := by
  cases hp with
  | before _ stopCall => cases stopCall.symm.trans hcall
  | byWatch stops run watch watchCancel =>
    obtain ⟨rfl, -⟩ := Prod.mk.inj (Option.some.inj (stops.stopCall.symm.trans hcall))
    exact .byWatch hstops (hsame.run.trans run) (hsame.watch.trans watch) (hsame.watchCancel.trans watchCancel)
  | byStart stops run watch =>
    obtain ⟨rfl, -⟩ := Prod.mk.inj (Option.some.inj (stops.stopCall.symm.trans hcall))
    exact .byStart hstops (hsame.run.trans run) (hsame.watch ▸ watch)
  | after _ _ stopCall => cases stopCall.symm.trans hcall

/-- While a call of `stop()` is under way it is where the server says. -/
theorem Progress.stops (hp : s.Progress) (hcall : s.stopCall = some (c, place)) :
    s.Stopping c place ∧ (c = .watchShutdown → s.watchCancel = false) := by
  cases hp with
  | before _ stopCall => cases stopCall.symm.trans hcall
  | byWatch stops run watch watchCancel =>
    obtain ⟨rfl, rfl⟩ := Prod.mk.inj (Option.some.inj (stops.stopCall.symm.trans hcall))
    exact ⟨stops, fun _ => watchCancel⟩
  | byStart stops run watch =>
    obtain ⟨rfl, rfl⟩ := Prod.mk.inj (Option.some.inj (stops.stopCall.symm.trans hcall))
    exact ⟨stops, fun he => by cases he⟩
  | after _ _ stopCall => cases stopCall.symm.trans hcall

theorem gathered_progress (hp : s.Progress) (hs : s.stepGathered = some s') : s'.Progress := by
  simp only [stepGathered] at hs
  split at hs
  · next c n hcall =>
    obtain ⟨hstops, hcancel⟩ := hp.stops hcall
    split at hs
    · next hc =>
      obtain ⟨hturn, hfin⟩ := hc
      split at hs
      · next hwatch =>
        rw [hcancel hwatch.1] at hwatch
        cases hwatch.2
      · obtain rfl := Option.some.inj hs
        have hsocket : s.run = .receiving → .socket ∈ s.held := fun hr =>
          (hstops.socket hr).resolve_left (fun he => by cases he)
        have hall : s.sys.AllFinished := by
          rw [hstops.stage.1, List.take_length] at hfin
          exact hfin
        obtain ⟨place, hstops', hsame⟩ := afterGather_stopping (c := c) hstops.stopping hstops.running hall
          hstops.stage.2 hsocket
        exact progress_of_stopping hp hcall hstops' hsame
    · cases hs
  · cases hs

theorem zapJoined_progress (hp : s.Progress) (hs : s.stepZapJoined = some s') : s'.Progress := by
  simp only [stepZapJoined] at hs
  split at hs
  · next c hcall =>
    obtain ⟨hstops, -⟩ := hp.stops hcall
    split at hs
    · obtain rfl := Option.some.inj hs
      obtain ⟨hstops', hsame⟩ := afterZap_stopping (c := c) hstops.stopping hstops.running hstops.stage.1 hstops.stage.2
      exact progress_of_stopping hp hcall hstops' hsame
    · cases hs
  · cases hs

theorem close_progress {w : TeardownWorld} {isRegistered : Bool} (hp : s.Progress)
    (hs : s.stepClose w isRegistered = some s') : s'.Progress := by
  simp only [stepClose] at hs
  split at hs
  · next c hcall =>
    obtain ⟨sys, hsys, hs⟩ := Option.bind_eq_some_iff.1 hs
    obtain ⟨hstops, -⟩ := hp.stops hcall
    have hreleased : ({ s.release [.executor] with sys := sys, stopCall := none } : Serve).Released ∧
        sys.stopping = true ∧ sys.srv.running = false := by
      simp only [Sys.stepClose] at hsys
      split at hsys
      · obtain rfl := Option.some.inj hsys
        refine ⟨⟨List.filter_eq_nil_iff.2 (fun r hr => ?_), hstops.stage.1, rfl⟩, hstops.stopping, hstops.running⟩
        simpa only [decide_eq_true_eq, not_not] using hstops.stage.2 r hr
      · cases hsys
    obtain ⟨hrel, hstop, hrunning⟩ := hreleased
    cases hp with
    | before _ stopCall => cases stopCall.symm.trans hcall
    | byWatch stops run watch watchCancel =>
      obtain ⟨rfl, -⟩ := Prod.mk.inj (Option.some.inj (stops.stopCall.symm.trans hcall))
      obtain rfl := Option.some.inj hs
      exact .after hstop hrunning rfl (fun he => by cases he) (fun he => by cases run.symm.trans he)
        (fun _ he => by cases run.symm.trans he) ⟨hrel.held, hrel.tasks, hrel.closed⟩
    | byStart stops run watch =>
      obtain ⟨rfl, -⟩ := Prod.mk.inj (Option.some.inj (stops.stopCall.symm.trans hcall))
      simp only [run] at hs
      exact Option.some.inj hs ▸ cancelWatch_after hstop hrunning rfl watch hrel
    | after _ _ stopCall => cases stopCall.symm.trans hcall
  · cases hs

theorem join_progress (hp : s.Progress) (hs : s.stepJoin = some s') : s'.Progress := by
  simp only [stepJoin] at hs
  split at hs
  · next raising e hrun hended =>
    split at hs
    · obtain rfl := Option.some.inj hs
      cases hp with
      | before _ _ watch _ _ => cases watch.symm.trans hended
      | byWatch _ _ watch _ => cases watch.symm.trans hended
      | byStart _ run _ => cases run.symm.trans hrun
      | after stopping running stopCall watch run inStop released =>
        refine .after stopping running stopCall watch (fun he => ?_) (fun _ he => ?_)
          ⟨released.held, released.tasks, released.closed⟩
        · dsimp only [conclude] at he
          split at he <;> cases he
        · dsimp only [conclude] at he
          split at he <;> cases he
    · cases hs
  · cases hs

theorem task_progress {l : Label} (hp : s.Progress) (hs : s.stepTask d h l = some s') : s'.Progress := by
  simp only [stepTask] at hs
  split at hs
  · next hc =>
    obtain ⟨sys, hsys, rfl⟩ := Option.map_eq_some_iff.1 hs
    obtain ⟨hstop, hshut⟩ := Label.ofHandlers_ne hc.2.1
    have hflags := Sys.step_sameFlags hsys hstop hshut
    cases hp with
    | before stopping stopCall watch watchCancel run =>
      refine .before (hflags.stopping.trans stopping) stopCall watch watchCancel ?_
      rcases run with hr | ⟨hr, hrunning, hsocket⟩
      · exact .inl hr
      · exact .inr ⟨hr, hflags.running.trans hrunning, hsocket⟩
    | byWatch stops run watch watchCancel =>
      exact .byWatch (stopping_frame stops (hflags.stopping.trans stops.stopping)
        (hflags.running.trans stops.running) (Sys.step_length_eq stops.running hc.2.1 hsys)
        (fun hf => hf.step stops.running hc.2.1 hsys)) run watch watchCancel
    | byStart stops run watch =>
      exact .byStart (stopping_frame stops (hflags.stopping.trans stops.stopping)
        (hflags.running.trans stops.running) (Sys.step_length_eq stops.running hc.2.1 hsys)
        (fun hf => hf.step stops.running hc.2.1 hsys)) run watch
    | after stopping running stopCall watch run inStop released =>
      exact .after (hflags.stopping.trans stopping) (hflags.running.trans running) stopCall watch run inStop
        ⟨released.held, released.tasks.step running hc.2.1 hsys, Sys.step_closed released.closed hsys⟩
  · cases hs

theorem Progress.step {l : ServeLabel} (hp : s.Progress) (hq : QuietReceive s l) (hs : step d h l s = some s') :
    s'.Progress := by
  cases l with
  | start zap failsAfter =>
    simp only [Serve.step, stepStart] at hs
    split at hs
    · next hstarting =>
      cases hp with
      | before stopping stopCall watch watchCancel run =>
        cases failsAfter with
        | none =>
          obtain rfl := Option.some.inj hs
          exact .before stopping stopCall watch watchCancel (.inr ⟨rfl, rfl, socket_mem_setUp zap⟩)
        | some n =>
          have hwatch : s.watch ≠ .inStop := fun he => by cases watch.symm.trans he
          exact leave_before (s := { s with held := (setUp zap).take n }) stopping hwatch
            (.inl (fun he => by cases hstarting.symm.trans he)) hs
      | byWatch _ run _ _ => cases run.symm.trans hstarting
      | byStart _ run _ => cases run.symm.trans hstarting
      | after _ _ _ _ run _ _ => exact absurd hstarting run
    · cases hs
  | shutdownEvent =>
    obtain rfl := Option.some.inj hs
    exact hp.of_same rfl rfl rfl ⟨rfl, rfl, rfl⟩
  | arrive r =>
    simp only [Serve.step, stepArrive] at hs
    split at hs
    · obtain rfl := Option.some.inj hs
      exact hp.of_same rfl rfl rfl ⟨rfl, rfl, rfl⟩
    · cases hs
  | receive waits => exact receive_progress hp hq hs
  | watch waits => exact watch_progress hp hs
  | gathered => exact gathered_progress hp hs
  | zapEnds =>
    simp only [Serve.step, stepZapEnds] at hs
    split at hs
    · obtain rfl := Option.some.inj hs
      exact hp.of_same rfl rfl rfl ⟨rfl, rfl, rfl⟩
    · cases hs
  | zapJoined => exact zapJoined_progress hp hs
  | close w isRegistered => exact close_progress hp hs
  | join => exact join_progress hp hs
  | task l => exact task_progress hp hs

theorem Progress.released (hp : s.Progress) (hr : s.run = .returned) : s.Released := by
  cases hp with
  | before _ _ _ _ run => rcases run with he | ⟨he, -⟩ <;> cases he.symm.trans hr
  | byWatch _ run _ _ => cases run.symm.trans hr
  | byStart _ run _ => cases run.symm.trans hr
  | after _ _ _ _ _ _ released => exact released

theorem progress_init (runner : RunnerState) (metrics : ServerMetricsCollector) : (init runner metrics).Progress :=
  .before rfl rfl rfl rfl (.inl rfl)

end Serve

/-- In a run whose receive loop takes no message once `stop()` has been called,
everything is released when `run` returns. -/
theorem shutdown_releases {d : Daemon} {h : Host} {runner : RunnerState} {metrics : ServerMetricsCollector}
    {ls : List ServeLabel}
    (hq : Runs.Guarded (Serve.step d h) Serve.QuietReceive ls (Serve.init runner metrics)) :
    Runs.Always (Serve.step d h) (fun s => s.run = .returned → s.Released) ls (Serve.init runner metrics) := by
  have hprogress := hq.always (I := Serve.Progress) (fun _ _ _ hp hq hs => hp.step hq hs)
    (Serve.progress_init runner metrics)
  exact hprogress.mono (fun s hp => hp.released)

/-- A ping is in flight when the shutdown event is set. -/
def stopWithPing : List ServeLabel :=
  [.start false none, .arrive (.message [[1], [0, 0, 0, 5], [1], []]), .receive false, .shutdownEvent, .watch true]

/-- The ping is cancelled, `stop()` ends and the closed socket ends the receive loop. -/
def quietLabels : List ServeLabel :=
  stopWithPing ++ [.task (.cancelled 0), .gathered, .close {} true, .receive false]

/-- A second ping arrives while `stop()` waits for the first. -/
def lateLabels : List ServeLabel :=
  stopWithPing ++ [.arrive (.message [[1], [0, 0, 0, 6], [1], []]), .receive false, .task (.cancelled 0), .gathered, .join]

theorem shutdown_releases_ping :
    (Runs.run (Serve.step emptyMapDaemon Host.plain) quietLabels
        (Serve.init ⟨{}, .empty, []⟩ { startTime := 0 })).map (fun s => s.run) = some .returned ∧
      Runs.Always (Serve.step emptyMapDaemon Host.plain) (fun s => s.run = .returned → s.Released) quietLabels
        (Serve.init ⟨{}, .empty, []⟩ { startTime := 0 }) :=
  ⟨by decide +kernel, shutdown_releases (by decide +kernel)⟩

/-- The receive loop takes the second ping and ends, `run` cancels the task in
which `stop()` waits, and returns. -/
theorem late_message_aborts_stop :
    ∃ s, Runs.run (Serve.step emptyMapDaemon Host.plain) lateLabels
        (Serve.init ⟨{}, .empty, []⟩ { startTime := 0 }) = some s ∧
      s.shutdownEvent = true ∧ s.run = .returned ∧ s.held = [.ctx, .socket, .executor] ∧ ¬ s.Released := by
  have hfinal : (Runs.run (Serve.step emptyMapDaemon Host.plain) lateLabels
      (Serve.init ⟨{}, .empty, []⟩ { startTime := 0 })).map (fun s => (s.shutdownEvent, s.run, s.held)) =
      some (true, .returned, [.ctx, .socket, .executor]) := by decide +kernel
  obtain ⟨s, hs, hfields⟩ := Option.map_eq_some_iff.1 hfinal
  obtain ⟨hevent, hrun, hheld⟩ : s.shutdownEvent = true ∧ s.run = .returned ∧ s.held = [.ctx, .socket, .executor] := by
    simpa only [Prod.mk.injEq] using hfields
  refine ⟨s, hs, hevent, hrun, hheld, fun hrel => ?_⟩
  rw [hrel.held] at hheld
  cases hheld

end VsRemote
