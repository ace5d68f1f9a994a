import VsRemote.Tasks

/-! What the steps of the server leave alone, and the order of its life: it
runs, it stops, its socket is closed once every task is over. -/

namespace VsRemote

/-- The server as it is started, around any runner. -/
def Sys.init (runner : RunnerState) (metrics : ServerMetricsCollector) : Sys :=
  { srv := { runner := runner, metrics := metrics } }

theorem respond_frame {d : Daemon} {h : Host} {t : Nat} {o : SrvOp} {c : Choice} {srv srv' : ServerState}
    {r : o.Res} (hr : respond d h t o c srv = some (r, srv')) :
    srv'.running = srv.running ∧ srv'.socketOpen = srv.socketOpen ∧ srv'.runner = srv.runner := by
  unfold respond at hr
  split at hr
  all_goals first
    | (obtain ⟨-, rfl⟩ := Prod.mk.inj (Option.some.inj hr); exact ⟨rfl, rfl, rfl⟩)
    | cases hr

/-- What an operation of task `t` makes of the table. -/
def SrvOp.tableAfter (t : Nat) (table : OrderedDict (Bytes × Nat) Nat) : SrvOp → OrderedDict (Bytes × Nat) Nat
  | .inflightSet key => table.set key t
  | .inflightPop key => table.erase key
  | _ => table

theorem respond_table {d : Daemon} {h : Host} {t : Nat} {o : SrvOp} {c : Choice} {srv srv' : ServerState} {r : o.Res}
    (hr : respond d h t o c srv = some (r, srv')) : srv'.inflight = o.tableAfter t srv.inflight := by
  unfold respond at hr
  split at hr
  all_goals first
    | (obtain ⟨-, rfl⟩ := Prod.mk.inj (Option.some.inj hr); rfl)
    | cases hr

theorem TaskStep.finished {d : Daemon} {h : Host} {s : Sys} {t : Nat} {l : Label} {task task' : Task}
    (hs : TaskStep d h s t l task task') (hf : task.finished = true) : task'.finished = true := by
  cases hp : task.prog with
  | pure r => cases hs <;> simp_all [Task.finished]
  | call o k => simp [Task.finished, hp] at hf

namespace Sys

variable {d : Daemon} {h : Host} {s s' : Sys} {l : Label}

structure SameFlags (s s' : Sys) : Prop where
  running : s'.srv.running = s.srv.running
  socketOpen : s'.srv.socketOpen = s.srv.socketOpen
  stopping : s'.stopping = s.stopping
  shutDown : s'.shutDown = s.shutDown

structure SameJobs (s s' : Sys) : Prop where
  srv : s'.srv = s.srv
  jobs : s'.jobs = s.jobs
  loads : s'.loads = s.loads
  nextFrame : s'.nextFrame = s.nextFrame
  stopping : s'.stopping = s.stopping
  shutDown : s'.shutDown = s.shutDown
  closed : s'.closed = s.closed

theorem sameJobs_sideEffect (o : SrvOp) : SameJobs s (s.sideEffect o) := by
  unfold sideEffect
  split
  · unfold cancelTask
    split
    · split <;> exact ⟨rfl, rfl, rfl, rfl, rfl, rfl, rfl⟩
    · exact ⟨rfl, rfl, rfl, rfl, rfl, rfl, rfl⟩
  · exact ⟨rfl, rfl, rfl, rfl, rfl, rfl, rfl⟩
  · split <;> exact ⟨rfl, rfl, rfl, rfl, rfl, rfl, rfl⟩
  · exact ⟨rfl, rfl, rfl, rfl, rfl, rfl, rfl⟩

@[simp] theorem dropQueued_srv (j : Nat) : (s.dropQueued j).srv = s.srv := by
  unfold dropQueued; split <;> rfl

theorem dropQueued_sameFlags (j : Nat) : SameFlags s (s.dropQueued j) := by
  unfold dropQueued; split <;> exact ⟨rfl, rfl, rfl, rfl⟩

theorem step_sameFlags (hs : step d h l s = some s') (hstop : l ≠ .stop) (hshut : l ≠ .shutdown) :
    SameFlags s s' := by
  cases step_to hs with
  | @sync t c task o k r srv ht hp hr =>
    have hsrv := respond_frame hr
    have hside := sameJobs_sideEffect (s := s) o
    exact ⟨hsrv.1, hsrv.2.1, hside.stopping, hside.shutDown⟩
  | @jobCancelled t task job k j =>
    have hd := dropQueued_sameFlags (s := s.modifyTask t Task.clearCancel) j
    exact ⟨hd.running, hd.socketOpen, hd.stopping, hd.shutDown⟩
  | stop => exact absurd rfl hstop
  | shutdown => exact absurd rfl hshut
  | _ => exact ⟨rfl, rfl, rfl, rfl⟩

theorem length_sideEffect (o : SrvOp) : (s.sideEffect o).tasks.length = s.tasks.length := by
  unfold sideEffect
  split
  · unfold cancelTask
    split
    · split
      · simp
      · rfl
    · rfl
  · rfl
  · split <;> rfl
  · rfl

theorem step_length (hs : step d h l s = some s') : s.tasks.length ≤ s'.tasks.length := by
  cases step_to hs <;> simp [length_sideEffect]

theorem step_task {i : Nat} {task : Task} (hs : step d h l s = some s') (ht : s.tasks[i]? = some task) :
    ∃ task', s'.tasks[i]? = some task' ∧ TaskStep d h s i l task task' := by
  have hlt : i < s.tasks.length := (List.getElem?_eq_some_iff.1 ht).1
  have hlt' : i < s'.tasks.length := by
    have hle := step_length hs
    omega
  refine ⟨s'.tasks[i], List.getElem?_eq_getElem hlt', ?_⟩
  rcases step_trans hs (List.getElem?_eq_getElem hlt') with ⟨task₀, h₀, hstep⟩ | ⟨heq, -, -⟩
  · rw [ht] at h₀
    obtain rfl := Option.some.inj h₀
    exact hstep
  · omega

/-- The order of the server's life. -/
structure Lifecycle (s : Sys) : Prop where
  running : s.stopping = true → s.srv.running = false
  socket : s.srv.socketOpen = false → s.shutDown = true
  stopped : s.shutDown = true → s.stopping = true
  finished : s.shutDown = true → ∀ (i : Nat) (task : Task), s.tasks[i]? = some task → task.finished = true

theorem lifecycle_init (runner : RunnerState) (metrics : ServerMetricsCollector) :
    Lifecycle (init runner metrics) := by
  constructor <;> intro hc <;> cases hc

theorem Lifecycle.step (hl : Lifecycle s) (hs : step d h l s = some s') : Lifecycle s' := by
  have finished : s.shutDown = true → ∀ (i : Nat) (task : Task), s'.tasks[i]? = some task →
      task.finished = true := by
    intro hshut i task hi
    rcases step_trans hs hi with ⟨task₀, h₀, hstep⟩ | ⟨-, hrun, -⟩
    · exact hstep.finished (hl.finished hshut i task₀ h₀)
    · rcases hrun with hrun | ⟨-, -, hopen⟩
      · rw [hl.running (hl.stopped hshut)] at hrun
        cases hrun
      · rw [hshut] at hopen
        cases hopen
  by_cases hstop : l = .stop
  · subst hstop
    simp only [Sys.step, stepStop] at hs
    split at hs
    · next hc =>
      obtain rfl := Option.some.inj hs
      exact ⟨fun _ => rfl, hl.socket, fun _ => rfl, finished⟩
    · cases hs
  by_cases hshut : l = .shutdown
  · subst hshut
    simp only [Sys.step, stepShutdown] at hs
    split at hs
    · next hc =>
      obtain rfl := Option.some.inj hs
      refine ⟨hl.running, fun _ => rfl, fun _ => hc.1, fun _ i task hi => ?_⟩
      exact List.all_eq_true.1 hc.2.2.2 task (List.mem_of_getElem? hi)
    · cases hs
  have hsame := step_sameFlags hs hstop hshut
  refine ⟨?_, ?_, ?_, ?_⟩
  · rw [hsame.stopping, hsame.running]; exact hl.running
  · rw [hsame.socketOpen, hsame.shutDown]; exact hl.socket
  · rw [hsame.stopping, hsame.shutDown]; exact hl.stopped
  · rw [hsame.shutDown]; exact finished

end Sys

end VsRemote
