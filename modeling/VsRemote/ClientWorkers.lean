import VsRemote.ClientSteps

/-! The workers of a transport that is not closed: all but the last one are past
their clean-up and have cleared `_running`, which says whether the last one is up. -/

namespace VsRemote

namespace WorkerLife

/-- The worker has cleared `_running`. -/
def stopped (w : WorkerLife) : Bool := w.pc = .clearLoop ∨ w.pc = .clearQueue ∨ w.pc = .ended

/-- The worker has set `_running` and not cleared it. -/
def up (w : WorkerLife) : Bool := w.pc = .startupResult ∨ (w.startup = .done ∧ w.stopped = false)

/-- The worker has not answered `start()`. -/
def early (w : WorkerLife) : Bool :=
  w.pc = .setLoop ∨ w.pc = .setQueue ∨ w.pc = .createSocket ∨ w.pc = .checkStartup ∨ w.pc = .setRunning ∨
    w.pc = .startupResult

/-- The startup future fits the place the worker is at. -/
structure Fits (w : WorkerLife) : Prop where
  early : w.early = true → w.startup = .pending
  serving : w.pc = .serving → w.startup = .done

theorem not_up_of_stopped {w : WorkerLife} (h : w.stopped = true) : w.up = false := by
  have hpc : w.pc ≠ .startupResult := by
    intro hpc
    simp [stopped, hpc] at h
  simp [up, hpc, h]

theorem stopped_of_not_up {w : WorkerLife} (hdone : w.startup = .done) (h : w.up = false) : w.stopped = true := by
  by_contra hs
  simp [up, hdone, hs] at h

end WorkerLife

namespace ClientCore

variable {α : Type} {c c' : ClientCore} {l : ThreadLabel α} {g : Nat} {a a' : Attributes} {w w' : WorkerLife}

def IsLast (c : ClientCore) (g : Nat) (w : WorkerLife) : Prop := c.workers[g]? = some w ∧ g + 1 = c.workers.length

theorem IsLast.append {v : WorkerLife} {k : Nat} {d : ClientCore} (hd : d.workers = c.workers ++ [w])
    (hlast : d.IsLast k v) : k = c.workers.length ∧ v = w := by
  obtain ⟨hk, hlen⟩ := hlast
  rw [hd] at hk hlen
  simp only [List.length_append, List.length_singleton, Nat.add_right_cancel_iff] at hlen
  rcases Lookup.of_append hk with hk | hk
  · have hlt := Lookup.lt_length hk
    omega
  · exact hk

structure Generations (c : ClientCore) : Prop where
  fits : ∀ (g : Nat) (w : WorkerLife), c.workers[g]? = some w → w.Fits
  old : ∀ (g : Nat) (w : WorkerLife), c.workers[g]? = some w → g + 1 < c.workers.length → w.stopped = true
  starting : ∀ g w, c.IsLast g w → w.startup ≠ .done → c.locked = some (.startResult g) ∨ c.locked = some .closeClosed
  idle : c.locked = some .startThread → ∀ (g : Nat) (w : WorkerLife), c.workers[g]? = some w → w.stopped = true
  fresh : c.attrs.started = false → c.workers ≠ [] →
    (∃ g, c.locked = some (.startResult g)) ∨ c.locked = some .setStarted ∨ c.locked = some .closeClosed
  waiting : ∀ g, c.locked = some (.startResult g) → g + 1 = c.workers.length
  running : ∀ g w, c.IsLast g w → c.attrs.running = w.up
  none : c.workers = [] → c.attrs.running = false

namespace WorkerTo

theorem stopped (h : WorkerTo g a w a' w') (hw : w.stopped = true) : w'.stopped = true ∧ a'.running = a.running := by
  cases h with
  | clearLoop hpc => exact ⟨by simp [WorkerLife.stopped], rfl⟩
  | clearQueue hpc => exact ⟨by simp [WorkerLife.stopped], rfl⟩
  | _ hpc => simp [WorkerLife.stopped, hpc] at hw

theorem fits (h : WorkerTo g a w a' w') (hw : w.Fits) : w'.Fits := by
  obtain ⟨hearly, hserving⟩ := hw
  cases h with
  | startupResult hpc =>
    have hpending : w.startup = .pending := hearly (by simp [WorkerLife.early, hpc])
    exact ⟨fun he => by simp [WorkerLife.early] at he, fun _ => by simp [hpending]⟩
  | checkStartup hpc hp => exact ⟨fun _ => hp, fun he => by cases he⟩
  | setLoop hpc => exact ⟨fun _ => hearly (by simp [WorkerLife.early, hpc]), fun he => by cases he⟩
  | setQueue hpc => exact ⟨fun _ => hearly (by simp [WorkerLife.early, hpc]), fun he => by cases he⟩
  | createSocket hpc => exact ⟨fun _ => hearly (by simp [WorkerLife.early, hpc]), fun he => by cases he⟩
  | setRunning hpc => exact ⟨fun _ => hearly (by simp [WorkerLife.early, hpc]), fun he => by cases he⟩
  | _ => exact ⟨fun he => by simp [WorkerLife.early] at he, fun he => by cases he⟩

theorem startup (h : WorkerTo g a w a' w') (hw' : w'.startup ≠ .done) : w.startup ≠ .done := by
  cases h with
  | startupResult hpc =>
    intro hdone
    simp [hdone] at hw'
  | _ => exact hw'

theorem up (h : WorkerTo g a w a' w') (hw : w.Fits) (hup : a.running = w.up) : a'.running = w'.up := by
  have hearly := hw.early
  cases h with
  | startupResult hpc =>
    have hpending : w.startup = .pending := hearly (by simp [WorkerLife.early, hpc])
    simp [WorkerLife.up, WorkerLife.stopped, hpc] at hup
    simp [WorkerLife.up, WorkerLife.stopped, hpending, hup]
  | setRunning hpc => simp [WorkerLife.up]
  | clearRunning hpc => simp [WorkerLife.up, WorkerLife.stopped]
  | noStartup hpc hp => exact absurd (hearly (by simp [WorkerLife.early, hpc])) hp
  | _ hpc => simpa [WorkerLife.up, WorkerLife.stopped, hpc] using hup

end WorkerTo

theorem get_set {v : WorkerLife} {k : Nat} (hw : c.workers[g]? = some w) (hv : (c.workers.set g w')[k]? = some v) :
    (k = g ∧ v = w') ∨ (k ≠ g ∧ c.workers[k]? = some v) := by
  rw [List.getElem?_set] at hv
  by_cases hkg : g = k
  · subst hkg
    rw [if_pos rfl, if_pos (Lookup.lt_length hw)] at hv
    exact .inl ⟨rfl, (Option.some.inj hv).symm⟩
  · rw [if_neg hkg] at hv
    exact .inr ⟨fun h => hkg h.symm, hv⟩

theorem IsLast.set {v : WorkerLife} (hw : c.workers[g]? = some w) {k : Nat} {d : ClientCore}
    (hd : d.workers = c.workers.set g w') (hlast : d.IsLast k v) :
    (k = g ∧ v = w' ∧ c.IsLast g w) ∨ (k ≠ g ∧ c.IsLast k v) := by
  obtain ⟨hk, hlen⟩ := hlast
  rw [hd] at hk
  rw [hd, List.length_set] at hlen
  rcases get_set hw hk with ⟨rfl, hv⟩ | ⟨hne, hk⟩
  · exact .inl ⟨rfl, hv, hw, hlen⟩
  · exact .inr ⟨hne, hk, hlen⟩

theorem generations_init : (⟨{}, none, false, [], []⟩ : ClientCore).Generations where
  fits _ _ h := by cases h
  old _ _ h := by cases h
  starting _ _ h := by cases h.1
  idle h := by cases h
  fresh _ h := absurd rfl h
  waiting _ h := by cases h
  running _ _ h := by cases h.1
  none _ := rfl

namespace Generations

/-- Where no `start()` waits for its worker, the last worker has come up. -/
theorem done (h : c.Generations) (hlast : c.IsLast g w) (hresult : ∀ k, c.locked ≠ some (.startResult k))
    (hclose : c.locked ≠ some .closeClosed) : w.startup = .done := by
  by_contra hne
  rcases h.starting g w hlast hne with hl | hl
  · exact hresult g hl
  · exact hclose hl

theorem goes {pc : Option LockedPc} (h : c.Generations) (hgo : c.Goes pc) (hopen : c.attrs.closed = false) :
    Generations { c with locked := pc } := by
  have unlocked : ∀ {pc : Option LockedPc}, (∀ k, c.locked ≠ some (.startResult k)) → c.locked ≠ some .closeClosed →
      c.locked ≠ some .setStarted → pc ≠ some .startThread → (∀ k, pc ≠ some (.startResult k)) →
        Generations { c with locked := pc } := by
    intro pc hresult hclose hset hthread hpc
    refine { h with
      starting := fun g w hlast hne => absurd (h.done hlast hresult hclose) hne
      idle := fun hl => absurd hl hthread
      fresh := fun hs hws => ?_
      waiting := fun g hl => absurd hl (hpc g) }
    rcases h.fresh hs hws with ⟨g, hl⟩ | hl | hl
    · exact absurd hl (hresult g)
    · exact absurd hl hset
    · exact absurd hl hclose
  cases hgo with
  | acquire hl hpc =>
    rcases hpc with rfl | rfl <;> exact unlocked (by simp [hl]) (by simp [hl]) (by simp [hl]) (by simp) (by simp)
  | isClosed hl hc =>
    rw [hopen] at hc
    cases hc
  | startClosed hl => exact unlocked (by simp [hl]) (by simp [hl]) (by simp [hl]) (by simp) (by simp)
  | isStarted hl hc => exact unlocked (by simp [hl]) (by simp [hl]) (by simp [hl]) (by simp) (by simp)
  | notStarted hl hc =>
    have hnone : c.workers = [] := by
      by_contra hws
      rcases h.fresh hc hws with ⟨g, hr⟩ | hr | hr <;> rw [hl] at hr <;> cases hr
    have hempty : ∀ (g : Nat) (w : WorkerLife), c.workers[g]? ≠ some w := by
      intro g w hw
      rw [hnone] at hw
      cases hw
    exact { h with
      starting := fun g w hlast => absurd hlast.1 (hempty g w)
      idle := fun _ g w hw => absurd hw (hempty g w)
      fresh := fun _ hws => absurd hnone hws
      waiting := fun g hr => nomatch hr }
  | isRunning hl => exact unlocked (by simp [hl]) (by simp [hl]) (by simp [hl]) (by simp) (by simp)
  | notRunning hl hc =>
    have hdone : ∀ g w, c.IsLast g w → w.startup = .done := fun g w hlast => h.done hlast (by simp [hl]) (by simp [hl])
    refine { h with
      starting := fun g w hlast hne => absurd (hdone g w hlast) hne
      idle := fun _ g w hw => ?_
      fresh := fun hs hws => ?_
      waiting := fun g hr => nomatch hr }
    · change c.workers[g]? = some w at hw
      have hlt := Lookup.lt_length hw
      by_cases hlast : g + 1 = c.workers.length
      · have hup := h.running g w ⟨hw, hlast⟩
        exact WorkerLife.stopped_of_not_up (hdone g w ⟨hw, hlast⟩) (hup.symm.trans hc)
      · exact h.old g w hw (by omega)
    · rcases h.fresh hs hws with ⟨g, hr⟩ | hr | hr <;> rw [hl] at hr <;> cases hr
  | @startup k v hl hw hdone =>
    refine { h with
      starting := fun g w hlast hne => ?_
      idle := fun hr => nomatch hr
      fresh := fun _ _ => .inr (.inl rfl)
      waiting := fun g hr => nomatch hr }
    have hlen := h.waiting k hl
    obtain ⟨hg, hlast⟩ := hlast
    change c.workers[g]? = some w at hg
    have hkg : g = k := by
      change g + 1 = c.workers.length at hlast
      omega
    subst hkg
    obtain rfl := Option.some.inj (hw.symm.trans hg)
    exact absurd hdone hne
  | noStartup hl =>
    exact { h with
      starting := fun _ _ _ _ => .inr rfl
      idle := fun hr => nomatch hr
      fresh := fun _ _ => .inr (.inr rfl)
      waiting := fun g hr => nomatch hr }
  | subscribe hl => exact unlocked (by simp [hl]) (by simp [hl]) (by simp [hl]) (by simp) (by simp)
  | subscribed hl => exact unlocked (by simp [hl]) (by simp [hl]) (by simp [hl]) (by simp) (by simp)

theorem startThread (h : c.Generations) (hl : c.locked = some .startThread) : Generations { c with
    attrs.thread := true
    locked := some (.startResult c.workers.length)
    workers := c.workers ++ [⟨.setLoop, .pending, true⟩] } := by
  have hidle := h.idle hl
  have hnew : ∀ {g w}, (c.workers ++ [(⟨.setLoop, .pending, true⟩ : WorkerLife)])[g]? = some w →
      (g < c.workers.length ∧ c.workers[g]? = some w) ∨ (g = c.workers.length ∧ w = ⟨.setLoop, .pending, true⟩) := by
    intro g w hw
    rcases Lookup.of_append hw with hw | hw
    · exact .inl ⟨Lookup.lt_length hw, hw⟩
    · exact .inr hw
  have hrunning : c.attrs.running = false := by
    by_cases hws : c.workers = []
    · exact h.none hws
    · have hpos : c.workers.length - 1 < c.workers.length := by
        have := List.length_pos_iff.2 hws
        omega
      have hget := List.getElem?_eq_getElem hpos
      have hup := h.running _ _ ⟨hget, by omega⟩
      exact hup.trans (WorkerLife.not_up_of_stopped (hidle _ _ hget))
  refine ⟨fun g w hw => ?_, fun g w hw hlt => ?_, fun g w hlast _ => ?_, (fun hr => nomatch hr),
    fun _ _ => .inl ⟨_, rfl⟩, fun g hr => ?_, fun g w hlast => ?_, fun hnil => by simp at hnil⟩
  · rcases hnew hw with ⟨-, hw⟩ | ⟨-, rfl⟩
    · exact h.fits g w hw
    · exact ⟨fun _ => rfl, fun hpc => nomatch hpc⟩
  · rcases hnew hw with ⟨-, hw⟩ | ⟨rfl, -⟩
    · exact hidle g w hw
    · simp at hlt
  · exact .inl (by rw [(IsLast.append rfl hlast).1])
  · cases hr
    simp
  · obtain ⟨-, rfl⟩ := IsLast.append rfl hlast
    exact hrunning

/-- A worker moves on; one that has stopped stays so and does not touch `_running`. -/
theorem set (h : c.Generations) (hw : c.workers[g]? = some w) (hstarted : a.started = c.attrs.started) (hfits : w'.Fits)
    (hstopped : w.stopped = true → w'.stopped = true ∧ a.running = c.attrs.running)
    (hstartup : w'.startup ≠ .done → w.startup ≠ .done) (hup : c.attrs.running = w.up → a.running = w'.up) :
    Generations { c with attrs := a, workers := c.workers.set g w' } := by
  refine ⟨fun k v hv => ?_, fun k v hv hlt => ?_, fun k v hlast hne => ?_, fun hr k v hv => ?_, fun hs hws => ?_,
    fun k hr => ?_, fun k v hlast => ?_, fun hnil => ?_⟩
  · rcases get_set hw hv with ⟨rfl, rfl⟩ | ⟨-, hv⟩
    · exact hfits
    · exact h.fits k v hv
  · rw [List.length_set] at hlt
    rcases get_set hw hv with ⟨rfl, rfl⟩ | ⟨-, hv⟩
    · exact (hstopped (h.old k w hw hlt)).1
    · exact h.old k v hv hlt
  · rcases hlast.set hw rfl with ⟨rfl, rfl, hbefore⟩ | ⟨-, hbefore⟩
    · exact h.starting k w hbefore (hstartup hne)
    · exact h.starting k v hbefore hne
  · rcases get_set hw hv with ⟨rfl, rfl⟩ | ⟨-, hv⟩
    · exact (hstopped (h.idle hr k w hw)).1
    · exact h.idle hr k v hv
  · rw [hstarted] at hs
    exact h.fresh hs (fun hnil => by rw [hnil] at hw; cases hw)
  · exact (h.waiting k hr).trans (List.length_set ..).symm
  · rcases hlast.set hw rfl with ⟨rfl, rfl, hbefore⟩ | ⟨hne, hbefore⟩
    · exact hup (h.running k w hbefore)
    · have hlt := Lookup.lt_length hw
      have hlen := hbefore.2
      exact (hstopped (h.old g w hw (by omega))).2.trans (h.running k v hbefore)
  · have hempty := (List.set_eq_nil_iff _ _).1 hnil
    rw [hempty] at hw
    cases hw

theorem step (h : c.Generations) (hclosing : c.ClosingClosed) (hto : CoreTo c l c') (hopen : c'.attrs.closed = false) :
    c'.Generations := by
  have hbefore := hto.open_before hopen
  cases hto with
  | same => exact h
  | sendRaises => exact { h with }
  | goes hgo => exact h.goes hgo hbefore
  | startThread hl => exact h.startThread hl
  | @setStarted l pc hl hpc =>
    have hpc' : pc ≠ some .startThread ∧ ∀ k, pc ≠ some (.startResult k) := by
      rcases hpc with rfl | rfl <;> simp
    exact { h with
      starting := fun g w hlast hne => absurd (h.done hlast (by simp [hl]) (by simp [hl])) hne
      idle := fun hr => absurd hr hpc'.1
      fresh := fun hs => nomatch hs
      waiting := fun g hr => absurd hr (hpc'.2 g) }
  | setClosed hl => cases hopen
  | closing hl hpc =>
    rw [hclosing _ hl hpc] at hbefore
    cases hbefore
  | @worker g w w' a hw hto =>
    have hfits := h.fits g w hw
    exact h.set hw hto.started (hto.fits hfits) hto.stopped hto.startup (hto.up hfits)
  | @workerFails g w pc hw hpc =>
    have hfits := h.fits g w hw
    have hearly : w.early = true ∧ w.stopped = false ∧ w.pc ≠ .startupResult := by
      rcases hpc with ⟨hpc, -⟩ | ⟨hpc, -⟩ <;> simp [WorkerLife.early, WorkerLife.stopped, hpc]
    have hpending := hfits.early hearly.1
    have hlate : WorkerLife.early ⟨pc, .failed, w.receiving⟩ = false ∧ pc ≠ .serving ∧ pc ≠ .startupResult := by
      rcases hpc with ⟨-, rfl⟩ | ⟨-, rfl⟩ <;> simp [WorkerLife.early]
    simp only [hpending, if_true]
    refine h.set hw rfl ⟨fun he => ?_, fun he => absurd he hlate.2.1⟩ (fun hs => ?_) (fun _ => by simp [hpending])
      (fun hup => ?_)
    · rw [show WorkerLife.early ⟨pc, .failed, w.receiving⟩ = false from hlate.1] at he
      cases he
    · rw [hearly.2.1] at hs
      cases hs
    · rw [hup]
      simp [WorkerLife.up, hearly.2.2, hlate.2.2, hpending]
  | @ends g w l hl hw hpc =>
    have hfits := h.fits g w hw
    exact h.set hw rfl ⟨hfits.early, hfits.serving⟩ (fun hs => ⟨hs, rfl⟩) id id

end Generations

end ClientCore

end VsRemote
