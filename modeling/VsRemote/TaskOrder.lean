import VsRemote.InflightAccounting
import VsRemote.TokenIsolation

/-! The order in which tasks start: by the time that a task is being served, those that
were created before it have started, and their requests are registered if they are accepted. -/

namespace VsRemote

/-- The task has taken a step. -/
def Task.begun (task : Task) : Bool := task.log ≠ [] ∨ task.phase ≠ .ready

theorem Task.begun_of_log {task : Task} (hlog : task.log ≠ []) : task.begun = true := by
  rw [begun, decide_eq_true_eq]
  exact .inl hlog

theorem Task.begun_of_phase {task : Task} (hphase : task.phase ≠ .ready) : task.begun = true := by
  rw [begun, decide_eq_true_eq]
  exact .inr hphase

theorem Task.begun_cancel (task : Task) : task.cancel.begun = task.begun := by
  rw [begun, begun, Task.cancel_log, Task.cancel_phase]

theorem Task.begun_complete (task : Task) (o : SrvOp) (k : o.Res → HandlerProg) (r : o.Res) :
    (task.complete o k r).begun = true := by
  apply begun_of_log
  rw [complete_log]
  exact List.append_ne_nil_of_right_ne_nil _ (List.cons_ne_nil _ _)

section

variable {d : Daemon} {h : Host} {s : Sys} {t : Nat} {l : Label} {task task' : Task}

theorem TaskStep.begun (hs : TaskStep d h s t l task task') :
    task'.begun = task.begun ∨ task'.begun = true ∧ l.task = some t := by
  cases hs with
  | stay => exact .inl rfl
  | cancel => exact .inl task.begun_cancel
  | submit => exact .inr ⟨Task.begun_of_phase Phase.noConfusion, rfl⟩
  | put => exact .inr ⟨Task.begun_of_phase Phase.noConfusion, rfl⟩
  | abort => exact .inl rfl
  | _ => exact .inr ⟨Task.begun_complete .., rfl⟩

/-- A task that has begun or is over stays so. -/
theorem TaskStep.begun_or_finished (hs : TaskStep d h s t l task task')
    (hbefore : task.begun = true ∨ task.finished = true) : task'.begun = true ∨ task'.finished = true := by
  rcases hbefore with hbegun | hfin
  · rcases hs.begun with hsame | ⟨hbegun', -⟩
    · exact .inl (hsame.trans hbegun)
    · exact .inl hbegun'
  · exact .inr (hs.finished hfin)

end

namespace Sys

variable {d : Daemon} {h : Host} {s s' : Sys} {l : Label} {t u : Nat} {task other : Task}

/-- The event loop starts tasks in the order in which they were created. -/
def InTurn (s : Sys) (l : Label) : Prop :=
  ∀ t ∈ l.task, ∀ task ∈ s.tasks[t]?, task.begun = false →
    ∀ other ∈ s.tasks.take t, other.begun = true ∨ other.finished = true

instance (s : Sys) (l : Label) : Decidable (s.InTurn l) := by
  unfold InTurn
  infer_instance

def BegunInOrder (s : Sys) : Prop :=
  ∀ (t u : Nat) (task other : Task), s.tasks[t]? = some task → task.begun = true → u < t →
    s.tasks[u]? = some other → other.begun = true ∨ other.finished = true

theorem fresh_not_begun (hf : Fresh d task) : task.begun = false := by
  cases hf <;> rfl

theorem BegunInOrder.step (hi : s.BegunInOrder) (hturn : s.InTurn l) (hs : step d h l s = some s') :
    s'.BegunInOrder := by
  intro t u task' other' ht' hbegun hlt hu'
  rcases step_trans hs ht' with ⟨task, ht, hstep⟩ | ⟨-, -, hfresh⟩
  · have hlen : u < s.tasks.length := Nat.lt_trans hlt (Lookup.lt_length ht)
    obtain ⟨other₂, hu₂, hother⟩ := step_task hs (List.getElem?_eq_getElem hlen)
    obtain rfl : other₂ = other' := Option.some.inj (hu₂.symm.trans hu')
    apply hother.begun_or_finished
    by_cases hbefore : task.begun = true
    · exact hi t u task _ ht hbefore hlt (List.getElem?_eq_getElem hlen)
    · rcases hstep.begun with hsame | ⟨-, hl⟩
      · exact absurd (hsame.symm.trans hbegun) hbefore
      · apply hturn t hl task ht (Bool.eq_false_iff.2 hbefore)
        apply List.mem_of_getElem?
        rw [List.getElem?_take_of_lt hlt]
        exact List.getElem?_eq_getElem hlen
  · rw [fresh_not_begun hfresh] at hbegun
    cases hbegun

/-- The task is between two operations that wait. -/
def Busy (s : Sys) (t : Nat) : Prop :=
  ∃ task o k, s.tasks[t]? = some task ∧ task.begun = true ∧ task.prog = .call o k ∧ o.waits = false

def OnThread (s : Sys) : Prop := ∀ t, s.Busy t → s.loop = some t

theorem step_busy (hs : step d h l s = some s') (hb : s'.Busy t) : s.Busy t ∨ l.task = some t := by
  obtain ⟨task', o, k, ht', hbegun, hp, hw⟩ := hb
  rcases step_trans hs ht' with ⟨task, ht, hstep⟩ | ⟨-, -, hfresh⟩
  · cases hstep with
    | stay => exact .inl ⟨task', o, k, ht, hbegun, hp, hw⟩
    | cancel => exact .inl ⟨task, o, k, ht, task.begun_cancel ▸ hbegun, task.cancel_prog ▸ hp, hw⟩
    | _ => exact .inr rfl
  · rw [fresh_not_begun hfresh] at hbegun
    cases hbegun

theorem advance_busy {o : SrvOp} {k : o.Res → HandlerProg} {r : o.Res} (hb : (s.advance t o k r).Busy t) :
    (s.advance t o k r).loop = some t := by
  obtain ⟨task', o', k', ht', -, hp, hw⟩ := hb
  obtain ⟨task, -, ⟨-, rfl⟩ | ⟨hne, -⟩⟩ := Lookup.of_modify ht'
  · change holder t (k r) = some t
    rw [Task.complete_prog] at hp
    rw [hp, holder, SrvOp.suspends_of_not_waits hw]
    rfl
  · exact absurd rfl hne

/-- A task that waits for an answer is not busy. -/
theorem not_busy_of_waits {o : SrvOp} {k : o.Res → HandlerProg} (ht : s.tasks[t]? = some task)
    (hp : task.prog = .call o k) (hw : o.waits = true) : ¬ s.Busy t := by
  rintro ⟨task', o', k', ht', -, hp', hw'⟩
  obtain rfl := Option.some.inj (ht.symm.trans ht')
  rw [hp] at hp'
  cases hp'
  rw [hw] at hw'
  cases hw'

theorem not_busy_of_finished (hs : ∀ task, s.tasks[t]? = some task → task.finished = true) : ¬ s.Busy t := by
  rintro ⟨task, o, k, ht, -, hp, -⟩
  have hfin := hs task ht
  rw [Task.finished, hp] at hfin
  cases hfin

theorem tasks_modifyTask_self {f : Task → Task} (ht : s.tasks[t]? = some task) :
    (s.modifyTask t f).tasks[t]? = some (f task) := by
  rw [tasks_modifyTask, List.getElem?_modify, ht]
  simp

/-- A task that does not wait after its step has the thread. -/
theorem step_own (hs : step d h l s = some s') (hl : l.task = some t) (hb : s'.Busy t) : s'.loop = some t := by
  cases step_to hs with
  | submit ht hp =>
    cases hl
    exact absurd hb (not_busy_of_waits (tasks_modifyTask_self ht) hp rfl)
  | put ht hp =>
    cases hl
    exact absurd hb (not_busy_of_waits (tasks_modifyTask_self ht) hp rfl)
  | abort ht =>
    cases hl
    refine absurd hb (not_busy_of_finished (fun task hfin => ?_))
    rw [tasks_modifyTask_self (tasks_modifyTask_self ht)] at hfin
    exact Option.some.inj hfin ▸ rfl
  | sync => cases hl; exact advance_busy hb
  | frame => cases hl; exact advance_busy hb
  | putRaises => cases hl; exact advance_busy hb
  | sent => cases hl; exact advance_busy hb
  | jobDone => cases hl; exact advance_busy hb
  | awaitCancelled => cases hl; exact advance_busy hb
  | sendCancelled => cases hl; exact advance_busy hb
  | jobCancelled => cases hl; exact advance_busy hb
  | _ => cases hl

theorem OnThread.step (hi : s.OnThread) (hs : step d h l s = some s') : s'.OnThread := by
  intro t hb
  by_cases hl : l.task = some t
  · exact step_own hs hl hb
  · have hbusy : s.Busy t := (step_busy hs hb).resolve_right hl
    have hloop := hi t hbusy
    cases loopStep hs with
    | still _ _ hsame => exact hsame.trans hloop
    | spawn _ hidle =>
      rw [hidle] at hloop
      cases hloop
    | answered _ _ _ hidle =>
      rw [hidle] at hloop
      cases hloop
    | submit ht hp hfree =>
      simp only [free, hloop, decide_eq_true_eq, Option.some.injEq] at hfree
      obtain rfl := hfree.resolve_left (Option.some_ne_none _)
      exact absurd hbusy (not_busy_of_waits ht hp rfl)
    | sync ht hp hfree =>
      simp only [free, hloop, decide_eq_true_eq, Option.some.injEq] at hfree
      obtain rfl := hfree.resolve_left (Option.some_ne_none _)
      exact absurd rfl hl

end Sys

/-- Once its section is entered, and before that only where it does not wait. -/
def promptMonitor : Coro.Monitor srvSig Stage where
  pre g o := o.waits = true → g.place ≠ .waiting
  allows _ _ _ := True
  next g o _ := g.next o

theorem Place.next_ne_waiting {p : Place} (hp : p ≠ .waiting) (o : SrvOp) : p.next o ≠ .waiting := by
  unfold Place.next
  split <;> first | exact hp | exact Place.noConfusion

theorem wp_of_entered (q : HandlerProg) {g : Stage} (hg : g.place ≠ .waiting) :
    q.wp promptMonitor (fun _ _ => True) g := by
  induction q generalizing g with
  | pure r => trivial
  | call o k ih => exact ⟨fun _ => hg, fun r _ => ih r (Place.next_ne_waiting hg o)⟩

open Handler in
/-- The handler of a request that is accepted registers it before it first waits. -/
theorem prompt_handleRequest {d : Daemon} {msg : List Bytes} {req : RequestEnvelope} (hp : PassesCheck d msg req) :
    (handleRequest d msg).run.wp promptMonitor (fun _ _ => True) {} := by
  rw [handleRequest, Coro.wp_run_bind]
  refine ⟨Bool.noConfusion, fun isOpen _ => ?_⟩
  cases isOpen with
  | false => trivial
  | true =>
    change (handleMessage d msg).run.wp promptMonitor (fun _ _ => True) {}
    rw [handleMessage_of_tokenRefused hp.wellFormed hp.token]
    change (acceptRequest d req).run.wp promptMonitor (fun _ _ => True) {}
    rw [acceptRequest, Coro.wp_run_bind, wp_inflightSet]
    exact ⟨Bool.noConfusion, fun _ _ => wp_of_entered _ Place.noConfusion⟩

/-- The table of requests in flight is only for requests that are accepted. -/
def acceptedMonitor (d : Daemon) (msg : List Bytes) : Coro.Monitor srvSig Unit where
  pre _ o := o.booked = true → ∃ req, PassesCheck d msg req
  allows _ _ _ := True
  next g _ _ := g

theorem wp_of_accepted {d : Daemon} {msg : List Bytes} {req : RequestEnvelope} (hp : PassesCheck d msg req)
    (q : HandlerProg) (g : Unit) : q.wp (acceptedMonitor d msg) (fun _ _ => True) g := by
  induction q generalizing g with
  | pure r => trivial
  | call o k ih => exact ⟨fun _ => ⟨req, hp⟩, fun r _ => ih r g⟩

theorem Task.Handles.passes_of_booked {d : Daemon} {task : Task} {o : SrvOp} {k : o.Res → HandlerProg}
    (hh : task.Handles d) (hp : task.prog = .call o k) (ho : o.booked = true) {msg : List Bytes}
    (hmsg : task.msg = some msg) : ∃ req, PassesCheck d msg req := by
  have hq : QuietOnServed (acceptedMonitor d msg) () := by
    intro o hserved
    refine ⟨fun hbooked => ?_, fun _ _ => rfl⟩
    rw [SrvOp.not_booked_of_served hserved] at hbooked
    cases hbooked
  have ⟨_, hwp⟩ := hh.wp_trace (M := acceptedMonitor d msg) (g := ()) (Q := fun _ _ => True) (fun _ _ _ => trivial) trivial
    (fun msg' hmsg' => by
      obtain rfl := Option.some.inj (hmsg.symm.trans hmsg')
      exact wp_handleRequest d hq msg (fun _ => trivial) (fun req hpass => wp_of_accepted hpass _ ()))
    (fun hnone => by rw [hmsg] at hnone; cases hnone)
  rw [hp] at hwp
  exact hwp.1 ho

theorem run_promptMonitor (log : List (Coro.Event srvSig)) (g : Stage) :
    promptMonitor.run g log = log.foldl (fun g e => g.next e.op) g := by
  induction log generalizing g with
  | nil => rfl
  | cons e log ih => exact ih _

namespace Sys

variable {d : Daemon} {h : Host} {s s' : Sys} {t : Nat} {task : Task}

/-- Wherever its handler is, an accepted request that has begun is registered or over,
or it has the thread. -/
theorem registered_of_begun (hh : task.Handles d) (hon : s.OnThread) (ht : s.tasks[t]? = some task)
    {msg : List Bytes} {req : RequestEnvelope} (hmsg : task.msg = some msg) (hp : PassesCheck d msg req)
    (hbegun : task.begun = true) : task.finished = true ∨ task.registered = true ∨ s.loop = some t := by
  cases hfin : task.finished with
  | true => exact .inl rfl
  | false =>
    refine .inr ?_
    by_cases hplace : task.trace.stage.place = .waiting
    · right
      have ⟨_, hwp⟩ := hh.wp_trace (M := promptMonitor) (g := {}) (Q := fun _ _ => True) (fun _ _ _ => trivial) trivial
        (fun msg' hmsg' => Option.some.inj (hmsg.symm.trans hmsg') ▸ prompt_handleRequest hp)
        (fun hnone => by rw [hmsg] at hnone; cases hnone)
      rw [run_promptMonitor] at hwp
      cases hprog : task.prog with
      | pure r =>
        rw [Task.finished, hprog] at hfin
        cases hfin
      | call o k =>
        rw [hprog] at hwp
        refine hon t ⟨task, o, k, ht, hbegun, hprog, Bool.eq_false_iff.2 (fun hw => ?_)⟩
        exact hwp.1 hw hplace
    · left
      rw [Task.registered, decide_eq_true_eq]
      exact ⟨hplace, hfin⟩

theorem begun_of_place (hplace : task.trace.stage.place ≠ .waiting) : task.begun = true := by
  apply Task.begun_of_log
  intro hlog
  apply hplace
  rw [Trace.stage, Task.trace, hlog]
  rfl

/-- A cancellation reaches the task of every accepted request that came before it, unless
that is over already. -/
theorem Booked.cancel_reaches (hb : Booked d s) (hon : s.OnThread) (horder : s.BegunInOrder) {u : Nat}
    {canceller : Task} {key : Bytes × Int} {k : SrvOp.Res (.inflightCancel key) → HandlerProg} {c : Choice}
    (hu : s.tasks[u]? = some canceller) (hp : canceller.prog = .call (.inflightCancel key) k)
    (hs : Sys.step d h (.sync u c) s = some s') (ht : s.tasks[t]? = some task) (hlt : t < u) {msg : List Bytes}
    {req : RequestEnvelope} (hmsg : task.msg = some msg) (hpass : PassesCheck d msg req)
    (hkey : key = (req.identity, (req.reqId : Int))) :
    task.finished = true ∨ ∃ task', s'.tasks[t]? = some task' ∧ task'.cancelRequested = true := by
  have hserving : canceller.trace.stage = ⟨.serving, []⟩ := ((hb.handled u canceller hu).stagePre hp).1
  have hbegun : canceller.begun = true := begun_of_place (by rw [hserving]; exact Place.noConfusion)
  have hloop : s.loop = some u := hon u ⟨canceller, .inflightCancel key, k, hu, hbegun, hp, rfl⟩
  rcases horder u t canceller task hu hbegun hlt ht with htask | hfin
  · rcases registered_of_begun (hb.handled t task ht) hon ht hmsg hpass htask with hfin | hreg | hmine
    · exact .inl hfin
    · right
      have hrequest : task.trace.request = some req := by
        rw [Trace.request, Task.trace, hmsg]
        exact congrArg Except.toOption hpass.wellFormed
      obtain ⟨task', ht', hiff⟩ := hb.step_cancel hu hp hs ht
      exact ⟨task', ht', hiff.2 (.inr ⟨task, req, ht, hreg, hrequest, hkey⟩)⟩
    · rw [hloop] at hmine
      exact absurd (Option.some.inj hmine) (Nat.ne_of_gt hlt)
  · exact .inl hfin

end Sys

end VsRemote
