import VsRemote.InflightTable
import VsRemote.PartialLoad

/-! What the table and the active requests say of the handlers in every state,
and whom a cancellation reaches. -/

namespace VsRemote

/-- Between its registration and its end. -/
def Task.registered (task : Task) : Bool := task.trace.stage.place ≠ .waiting ∧ task.finished = false

def Task.registeredFor (i : Bytes) (task : Task) : Bool :=
  task.registered && decide (task.trace.request.map RequestEnvelope.identity = some i)

namespace Sys

/-- The task has the key, as a cancellation names it. -/
def HasKey (s : Sys) (key : Bytes × Int) (t : Nat) : Prop :=
  ∃ task req, s.tasks[t]? = some task ∧ task.registered = true ∧ task.trace.request = some req ∧
    key = (req.identity, (req.reqId : Int))

structure Accounted (d : Daemon) (h : Host) (s : Sys) : Prop where
  entry : ∀ t task, s.tasks[t]? = some task → task.registered = true →
    ∃ req, task.trace.request = some req ∧ s.srv.inflight.get? req.key = some t
  only : ∀ key t, s.srv.inflight.get? key = some t → ∃ task req, s.tasks[t]? = some task ∧ task.registered = true ∧
    task.trace.request = some req ∧ key = req.key
  serving : ∀ i, s.srv.metrics.activeRequests i = s.tasks.countP (fun task => task.trace.serves i)
  active : s.loop = none → ∀ i, s.srv.metrics.activeRequests i = s.tasks.countP (Task.registeredFor i)
  counted : ∀ (t : Nat) (task : Task) (i : Bytes) (k : Unit → HandlerProg), s.tasks[t]? = some task → task.prog = .call (.metrics (.requestEnd i)) k →
    0 < s.srv.metrics.activeRequests i
  asked : ∀ (t : Nat) (task : Task) (i : Bytes) (k : Unit → HandlerProg), s.tasks[t]? = some task → task.prog = .call (.metrics (.requestEnd i)) k →
    ∃ req, task.trace.request = some req ∧ task.trace.log.flatMap (fun e => e.op.cancels) = req.cancelKeys d
  cancels : ∀ (t : Nat) (task : Task) (key : Bytes × Int) (k : Unit → HandlerProg) (c : Choice) (s' : Sys),
    s.tasks[t]? = some task → task.prog = .call (.inflightCancel key) k → Sys.step d h (.sync t c) s = some s' → (∃ req, task.trace.request = some req ∧ req.cancelKeys d = [key]) ∧
      ∀ u other, s.tasks[u]? = some other → ∃ other', s'.tasks[u]? = some other' ∧
        (other'.cancelRequested = true ↔ other.cancelRequested = true ∨ s.HasKey key u)

variable {d : Daemon} {h : Host} {s s' : Sys} {t : Nat} {task : Task}

theorem Booked.registered_iff (hb : Booked d s) (ht : s.tasks[t]? = some task) :
    task.registered = true ↔ task.trace.stage.place.inside = true := by
  rw [(hb.handled t task ht).inside_iff, Task.registered, decide_eq_true_eq]

theorem Booked.keyOf_iff (hb : Booked d s) (ht : s.tasks[t]? = some task) {key : Bytes × Nat} :
    s.keyOf t = some key ↔ task.registered = true ∧ ∃ req, task.trace.request = some req ∧ key = req.key := by
  have hkey : s.keyOf t = task.trace.key := by
    rw [keyOf, traces_get? ht]
    rfl
  rw [hkey, hb.registered_iff ht]
  constructor
  · intro hsome
    obtain ⟨req, hreq, heq, hinside⟩ := Trace.exists_of_key hsome
    exact ⟨hinside, req, hreq, heq⟩
  · rintro ⟨hinside, req, hreq, rfl⟩
    exact Trace.key_of_stage hreq hinside

theorem Booked.exists_request (hb : Booked d s) (ht : s.tasks[t]? = some task) (hreg : task.registered = true) :
    ∃ req, task.trace.request = some req := by
  have hinside := (hb.registered_iff ht).1 hreg
  have hlive := (hb.handled t task ht).live ((hb.handled t task ht).inside_iff.1 hinside).2
  exact Option.isSome_iff_exists.1 (hlive.request hinside)

/-- With nobody on the thread, every registered handler is serving. -/
theorem Booked.serves_iff (hb : Booked d s) (hidle : s.loop = none) (ht : s.tasks[t]? = some task) (i : Bytes) :
    task.trace.serves i = true ↔ task.registeredFor i = true := by
  rw [Task.registeredFor, Bool.and_eq_true, hb.registered_iff ht, Trace.serves, decide_eq_true_eq, decide_eq_true_eq]
  refine and_congr_left (fun _ => ⟨fun hplace => by rw [hplace]; rfl, fun hinside => ?_⟩)
  rcases hb.turn t _ (traces_get? ht) with (hout | ⟨hplace, -⟩) | hloop
  · rw [hinside] at hout
    cases hout
  · exact hplace
  · rw [hidle] at hloop
    cases hloop

theorem Booked.active_tasks (hb : Booked d s) (i : Bytes) :
    s.srv.metrics.activeRequests i = s.tasks.countP (fun task => task.trace.serves i) := by
  rw [hb.active i, traces, List.countP_map]
  rfl

theorem Booked.hasKey_iff (hb : Booked d s) (ht : s.tasks[t]? = some task) (key : Bytes × Int) :
    (s.keyOf t).map (fun k => (k.1, (k.2 : Int))) = some key ↔ s.HasKey key t := by
  rw [Option.map_eq_some_iff]
  constructor
  · rintro ⟨k, hk, rfl⟩
    obtain ⟨hreg, req, hreq, rfl⟩ := (hb.keyOf_iff ht).1 hk
    exact ⟨task, req, ht, hreg, hreq, rfl⟩
  · rintro ⟨task', req, ht', hreg, hreq, rfl⟩
    rw [ht] at ht'
    obtain rfl := Option.some.inj ht'
    exact ⟨req.key, (hb.keyOf_iff ht).2 ⟨hreg, req, hreq, rfl⟩, rfl⟩

theorem cancelRequested_cancel (hf : task.finished = false) : task.cancel.cancelRequested = true := by
  rw [Task.cancel, hf]
  rfl

/-- What the step of a cancellation does to the tasks. -/
theorem Booked.step_cancel (hb : Booked d s) {key : Bytes × Int} {k : SrvOp.Res (.inflightCancel key) → HandlerProg}
    {c : Choice} (ht : s.tasks[t]? = some task) (hp : task.prog = .call (.inflightCancel key) k)
    (hs : Sys.step d h (.sync t c) s = some s') {u : Nat} {other : Task} (hu : s.tasks[u]? = some other) :
    ∃ other', s'.tasks[u]? = some other' ∧
      (other'.cancelRequested = true ↔ other.cancelRequested = true ∨ s.HasKey key u) := by
  have htasks : s'.tasks = (s.cancelTask key).tasks.modify t
      (fun task => task.complete (.inflightCancel key) k ()) := by
    cases step_to hs with
    | sync ht' hp' hr =>
      rw [ht] at ht'
      obtain rfl := Option.some.inj ht'
      rw [hp] at hp'
      cases hp'
      rfl
  have hcancel := hb.cancelTask key hu
  rw [htasks, List.getElem?_modify, hcancel]
  refine ⟨_, rfl, ?_⟩
  have hflag : ∀ task : Task, (if t = u then task.complete (.inflightCancel key) k () else task).cancelRequested =
      task.cancelRequested := by
    intro task
    split <;> rfl
  rw [hflag]
  by_cases hkey : (s.keyOf u).map (fun k => (k.1, (k.2 : Int))) = some key
  · have hhas := (hb.hasKey_iff hu key).1 hkey
    have hfin : other.finished = false := by
      obtain ⟨k, hk, -⟩ := Option.map_eq_some_iff.1 hkey
      have hreg := ((hb.keyOf_iff hu).1 hk).1
      exact (of_decide_eq_true hreg).2
    rw [if_pos hkey, cancelRequested_cancel hfin]
    exact ⟨fun _ => .inr hhas, fun _ => rfl⟩
  · rw [if_neg hkey]
    exact ⟨.inl, fun hor => hor.elim id (fun hhas => absurd ((hb.hasKey_iff hu key).2 hhas) hkey)⟩

theorem asked_eq_cancels (log : List (Coro.Event srvSig)) (g : Stage) :
    (log.foldl (fun g e => g.next e.op) g).asked = g.asked ++ log.flatMap (fun e => e.op.cancels) := by
  induction log generalizing g with
  | nil => exact (List.append_nil _).symm
  | cons e log ih =>
    rw [List.foldl_cons, ih, List.flatMap_cons, Stage.next, List.append_assoc]

theorem Booked.accounted (hb : Booked d s) (h : Host) : Accounted d h s := by
  refine ⟨?_, ?_, hb.active_tasks, ?_, ?_, ?_, ?_⟩
  · intro t task ht hreg
    obtain ⟨req, hreq⟩ := hb.exists_request ht hreg
    exact ⟨req, hreq, (hb.table req.key t).2 ((hb.keyOf_iff ht).2 ⟨hreg, req, hreq, rfl⟩)⟩
  · intro key t hget
    have hkey := (hb.table key t).1 hget
    obtain ⟨tr, htr, -⟩ := Option.bind_eq_some_iff.1 hkey
    obtain ⟨task, ht, -⟩ := exists_of_traces_get? htr
    obtain ⟨hreg, req, hreq, heq⟩ := (hb.keyOf_iff ht).1 hkey
    exact ⟨task, req, ht, hreg, hreq, heq⟩
  · intro hidle i
    rw [hb.active_tasks i]
    refine List.countP_congr (fun task hmem => ?_)
    obtain ⟨t, ht⟩ := List.mem_iff_getElem?.1 hmem
    exact hb.serves_iff hidle ht i
  · intro t task i k ht hp
    obtain ⟨req, hreq, rfl, hstage⟩ := (hb.handled t task ht).stagePre hp
    rw [hb.active_tasks]
    refine List.countP_pos_iff.2 ⟨task, List.mem_of_getElem? ht, ?_⟩
    rw [Trace.serves_eq hreq, hstage]
    simp
  · intro t task i k ht hp
    obtain ⟨req, hreq, -, hstage⟩ := (hb.handled t task ht).stagePre hp
    have hasked : task.trace.stage.asked = req.cancelKeys d := congrArg Stage.asked hstage
    exact ⟨req, hreq, (asked_eq_cancels task.trace.log {}).symm.trans hasked⟩
  · intro t task key k c s' ht hp hs
    obtain ⟨-, req, hreq, hkeys⟩ := (hb.handled t task ht).stagePre hp
    exact ⟨⟨req, hreq, hkeys⟩, fun u other hu => hb.step_cancel ht hp hs hu⟩

end Sys

/-- The table of requests in flight and the active requests in every run in
which the ids are proper. -/
theorem inflight_accounted {d : Daemon} {h : Host} {runner : RunnerState} {startTime : Rat} {ls : List Label}
    (hids : Runs.Always (Sys.step d h) Sys.ProperIds ls (Sys.init runner { startTime := startTime })) :
    Runs.Always (Sys.step d h) (Sys.Accounted d h) ls (Sys.init runner { startTime := startTime }) := by
  have hbooked : Runs.Always (Sys.step d h) (Sys.Booked d) ls (Sys.init runner { startTime := startTime }) :=
    hids.guarded.always (fun _ _ _ hb hproper hs => hb.step (hproper _ hs) hs) (Sys.booked_init d runner startTime)
  exact hbooked.mono (fun _ hb => hb.accounted h)

/-- A ping is being answered when its client cancels it. -/
def cancelPingLabels : List Label :=
  [.recv [[1], [0, 0, 0, 5], [1]], .sync 0 .ok, .sync 0 .ok, .sync 0 (.time 0), .put 0 none,
    .recv [[1], [0, 0, 0, 0], [11], cancelPayload], .sync 1 .ok, .sync 1 .ok, .sync 1 (.time 0), .sync 1 .ok,
    .sync 1 (.time 0), .sync 1 .ok]

theorem inflight_accounted_cancel :
    ∃ s, Runs.run (Sys.step cancelDaemon Host.plain) cancelPingLabels
        (Sys.init ⟨{}, .empty, []⟩ { startTime := 0 }) = some s ∧
      Sys.Accounted cancelDaemon Host.plain s ∧ s.srv.inflight.get? ([1], 5) = some 0 ∧
      s.srv.metrics.activeRequests [1] = 1 ∧ s.tasks.map Task.cancelRequested = [true, false] := by
  have hids : Runs.Always (Sys.step cancelDaemon Host.plain) Sys.ProperIds cancelPingLabels
      (Sys.init ⟨{}, .empty, []⟩ { startTime := 0 }) := by decide +kernel
  obtain ⟨s, hr, hbooks⟩ : ∃ s, Runs.run (Sys.step cancelDaemon Host.plain) cancelPingLabels
      (Sys.init ⟨{}, .empty, []⟩ { startTime := 0 }) = some s ∧ s.srv.inflight.get? ([1], 5) = some 0 ∧
      s.srv.metrics.activeRequests [1] = 1 ∧ s.tasks.map Task.cancelRequested = [true, false] := ⟨_, rfl, rfl, rfl, rfl⟩
  exact ⟨s, hr, (inflight_accounted hids).last hr, hbooks⟩

end VsRemote
