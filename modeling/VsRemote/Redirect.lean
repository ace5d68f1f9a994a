import Mathlib.Logic.Function.Basic
import VsRemote.Messages

/-! `StreamRedirector`: what stands in `sys.stdout` and `sys.stderr`, what a write
to it does, and the hook of the loggers that all redirectors share. -/

namespace VsRemote

inductive StdStream where
  | stdout
  | stderr
  deriving DecidableEq

def StdStream.name : StdStream → String
  | stdout => "stdout"
  | stderr => "stderr"

/-- A stream object: one of the two that the process began with, or a redirector. -/
inductive StreamRef where
  | original (s : StdStream)
  | redirector (i : Nat)
  deriving DecidableEq

structure Redirector where
  name : StdStream
  target : StreamRef
  installed : Bool := false

/-- `sys`, the redirectors in the order of their creation, the hook, what the
originals were given to write and what each redirector dispatched. -/
structure Streams where
  sys : StdStream → StreamRef := .original
  redirectors : List Redirector := []
  patchCount : Nat := 0
  callHandlersPatched : Bool := false
  written : List (StdStream × String) := []
  dispatched : List (Nat × StreamOutputEvent) := []

namespace Streams

def installLoggingHook (w : Streams) : Streams :=
  { w with callHandlersPatched := if w.patchCount = 0 then true else w.callHandlersPatched, patchCount := w.patchCount + 1 }

def uninstallLoggingHook (w : Streams) : Streams :=
  if 0 < w.patchCount then
    { w with
      patchCount := w.patchCount - 1
      callHandlersPatched := if w.patchCount - 1 = 0 then false else w.callHandlersPatched }
  else w

/-- `StreamRedirector(name, dispatch)` -/
def create (name : StdStream) (w : Streams) : Streams :=
  { w with redirectors := w.redirectors ++ [⟨name, w.sys name, false⟩] }

def install (i : Nat) (w : Streams) : Streams :=
  match w.redirectors[i]? with
  | some r =>
    if r.installed then w
    else installLoggingHook { w with
      redirectors := w.redirectors.set i ⟨r.name, w.sys r.name, true⟩
      sys := Function.update w.sys r.name (.redirector i) }
  | none => w

def uninstall (i : Nat) (w : Streams) : Streams :=
  match w.redirectors[i]? with
  | some r =>
    if r.installed then uninstallLoggingHook { w with
      sys := Function.update w.sys r.name r.target
      redirectors := w.redirectors.set i { r with installed := false } }
    else w
  | none => w

/-- A redirector is made and installed. -/
def enter (name : StdStream) (w : Streams) : Streams := (w.create name).install w.redirectors.length

/-- `write`, in a thread where `_IN_LOGGING` is `inLogging`. Without an original
below the calls do not end, and the first argument bounds them. -/
def writeTo (inLogging : Bool) (text : String) : Nat → StreamRef → Streams → Option Streams
  | _, .original s, w => some { w with written := w.written ++ [(s, text)] }
  | 0, .redirector _, _ => none
  | fuel + 1, .redirector i, w => do
    let r ← w.redirectors[i]?
    let w ← writeTo inLogging text fuel r.target w
    if text ≠ "" ∧ inLogging = false then some { w with dispatched := w.dispatched ++ [(i, ⟨r.name.name, text⟩)] }
    else some w

def write (inLogging : Bool) (text : String) (r : StreamRef) (w : Streams) : Option Streams :=
  w.writeTo inLogging text w.redirectors.length r

def InstalledOn (w : Streams) (s : StdStream) (i : Nat) : Prop :=
  ∃ r, w.redirectors[i]? = some r ∧ r.name = s ∧ r.installed = true

/-- The installed redirectors from the one in `sys` down to the original. -/
inductive Linked (w : Streams) (s : StdStream) : StreamRef → List Nat → Prop
  | original : Linked w s (.original s) []
  | redirector {i : Nat} {r : Redirector} {ids : List Nat} (hr : w.redirectors[i]? = some r) (hname : r.name = s)
      (hinstalled : r.installed = true) (hbelow : ∀ j ∈ ids, j < i) (hrest : Linked w s r.target ids) :
      Linked w s (.redirector i) (i :: ids)

variable {w w' : Streams} {s s' : StdStream} {ref : StreamRef} {i : Nat} {ids : List Nat}

theorem InstalledOn.lt_length (h : w.InstalledOn s i) : i < w.redirectors.length := by
  obtain ⟨r, hr, _⟩ := h
  exact (List.getElem?_eq_some_iff.1 hr).1

theorem Linked.congr (h : w.Linked s ref ids) (hsame : ∀ i ∈ ids, w'.redirectors[i]? = w.redirectors[i]?) :
    w'.Linked s ref ids := by
  induction h with
  | original => exact .original
  | redirector hr hname hinstalled hbelow _ ih =>
    obtain ⟨hfirst, hrest⟩ := List.forall_mem_cons.1 hsame
    exact .redirector (hfirst.trans hr) hname hinstalled hbelow (ih hrest)

theorem Linked.eq_redirector (h : w.Linked s ref (i :: ids)) : ref = .redirector i := by
  cases h
  rfl

theorem Linked.eq_original (h : w.Linked s ref []) : ref = .original s := by
  cases h
  rfl

theorem Linked.lt_length (h : w.Linked s ref ids) : ∀ i ∈ ids, i < w.redirectors.length := by
  induction h with
  | original => exact List.forall_mem_nil _
  | redirector hr _ _ _ _ ih =>
    have hlt := (List.getElem?_eq_some_iff.1 hr).1
    exact List.forall_mem_cons.2 ⟨hlt, ih⟩

theorem Linked.nodup (h : w.Linked s ref ids) : ids.Nodup := by
  induction h with
  | original => exact List.nodup_nil
  | redirector _ _ _ hbelow _ ih => exact List.nodup_cons.2 ⟨fun hmem => Nat.lt_irrefl _ (hbelow _ hmem), ih⟩

theorem Linked.installedOn (h : w.Linked s ref ids) (hi : i ∈ ids) : w.InstalledOn s i := by
  induction h with
  | original => cases hi
  | redirector hr hname hinstalled _ _ ih =>
    obtain rfl | hi := List.mem_cons.1 hi
    · exact ⟨_, hr, hname, hinstalled⟩
    · exact ih hi

theorem enter_eq (s : StdStream) (w : Streams) :
    w.enter s = { w with
      redirectors := w.redirectors ++ [⟨s, w.sys s, true⟩]
      sys := Function.update w.sys s (.redirector w.redirectors.length)
      patchCount := w.patchCount + 1
      callHandlersPatched := if w.patchCount = 0 then true else w.callHandlersPatched } := by
  have hset : (w.redirectors ++ [Redirector.mk s (w.sys s) false]).set w.redirectors.length ⟨s, w.sys s, true⟩ =
      w.redirectors ++ [⟨s, w.sys s, true⟩] := by simp
  simp only [enter, create, install, List.getElem?_concat_length, Bool.false_eq_true, if_false, hset, installLoggingHook]
  rfl

theorem uninstall_eq {r : Redirector} (hr : w.redirectors[i]? = some r) (hinstalled : r.installed = true) :
    w.uninstall i = uninstallLoggingHook { w with
      sys := Function.update w.sys r.name r.target
      redirectors := w.redirectors.set i { r with installed := false } } := by
  simp [uninstall, hr, hinstalled]

@[simp] theorem sys_uninstallLoggingHook (w : Streams) : w.uninstallLoggingHook.sys = w.sys := by
  unfold uninstallLoggingHook
  split <;> rfl

@[simp] theorem redirectors_uninstallLoggingHook (w : Streams) : w.uninstallLoggingHook.redirectors = w.redirectors := by
  unfold uninstallLoggingHook
  split <;> rfl

@[simp] theorem sys_enter_self (s : StdStream) (w : Streams) :
    (w.enter s).sys s = .redirector w.redirectors.length := by
  rw [enter_eq]
  exact Function.update_self ..

theorem sys_enter_other (w : Streams) (hs : s' ≠ s) : (w.enter s).sys s' = w.sys s' := by
  rw [enter_eq]
  exact Function.update_of_ne hs ..

theorem getElem?_enter {j : Nat} (s : StdStream) (hj : j < w.redirectors.length) :
    (w.enter s).redirectors[j]? = w.redirectors[j]? := by
  rw [enter_eq]
  exact List.getElem?_append_left hj

theorem getElem?_enter_length (s : StdStream) (w : Streams) :
    (w.enter s).redirectors[w.redirectors.length]? = some ⟨s, w.sys s, true⟩ := by
  rw [enter_eq]
  exact List.getElem?_concat_length

theorem sys_uninstall_self {r : Redirector} (hr : w.redirectors[i]? = some r) (hinstalled : r.installed = true) :
    (w.uninstall i).sys r.name = r.target := by
  rw [uninstall_eq hr hinstalled, sys_uninstallLoggingHook]
  exact Function.update_self ..

theorem sys_uninstall_other {r : Redirector} (hr : w.redirectors[i]? = some r) (hs : r.name ≠ s) :
    (w.uninstall i).sys s = w.sys s := by
  by_cases hinstalled : r.installed = true
  · rw [uninstall_eq hr hinstalled, sys_uninstallLoggingHook]
    exact Function.update_of_ne hs.symm ..
  · simp [uninstall, hr, hinstalled]

theorem getElem?_uninstall {j : Nat} (hne : i ≠ j) : (w.uninstall i).redirectors[j]? = w.redirectors[j]? := by
  cases hr : w.redirectors[i]? with
  | none => simp [uninstall, hr]
  | some r =>
    by_cases hinstalled : r.installed = true
    · rw [uninstall_eq hr hinstalled, redirectors_uninstallLoggingHook]
      exact List.getElem?_set_ne hne
    · simp [uninstall, hr, hinstalled]

@[simp] theorem length_enter (s : StdStream) (w : Streams) :
    (w.enter s).redirectors.length = w.redirectors.length + 1 := by
  rw [enter_eq]
  exact List.length_append ..

@[simp] theorem length_uninstall (i : Nat) (w : Streams) :
    (w.uninstall i).redirectors.length = w.redirectors.length := by
  unfold uninstall
  split
  · split
    · rw [redirectors_uninstallLoggingHook]
      exact List.length_set
    · rfl
  · rfl

/-- What has been written and dispatched. -/
def output (w : Streams) : List (StdStream × String) × List (Nat × StreamOutputEvent) := (w.written, w.dispatched)

@[simp] theorem output_enter (s : StdStream) (w : Streams) : (w.enter s).output = w.output := by
  rw [enter_eq]
  rfl

@[simp] theorem output_uninstall (i : Nat) (w : Streams) : (w.uninstall i).output = w.output := by
  unfold uninstall uninstallLoggingHook
  split
  · split
    · split <;> rfl
    · rfl
  · rfl

/-- One more redirector on the stream. -/
theorem Linked.enter (h : w.Linked s (w.sys s) ids) :
    (w.enter s).Linked s ((w.enter s).sys s) (w.redirectors.length :: ids) := by
  have hrest : (w.enter s).Linked s (w.sys s) ids := h.congr (fun i hi => getElem?_enter s (h.lt_length i hi))
  rw [sys_enter_self]
  exact .redirector (getElem?_enter_length s w) rfl rfl h.lt_length hrest

theorem Linked.enter_other (h : w.Linked s (w.sys s) ids) (hs : s ≠ s') :
    (w.enter s').Linked s ((w.enter s').sys s) ids := by
  rw [sys_enter_other w hs]
  exact h.congr (fun i hi => getElem?_enter s' (h.lt_length i hi))

/-- The topmost redirector gives the stream back to the one below. -/
theorem Linked.uninstall (h : w.Linked s (w.sys s) (i :: ids)) :
    (w.uninstall i).Linked s ((w.uninstall i).sys s) ids := by
  generalize w.sys s = ref at h
  cases h with
  | redirector hr hname hinstalled hbelow hrest =>
    have hsys := sys_uninstall_self hr hinstalled
    rw [hname] at hsys
    rw [hsys]
    exact hrest.congr (fun j hj => getElem?_uninstall (Nat.ne_of_gt (hbelow j hj)))

theorem Linked.uninstall_other {r : Redirector} (h : w.Linked s (w.sys s) ids) (hr : w.redirectors[i]? = some r)
    (hs : r.name ≠ s) : (w.uninstall i).Linked s ((w.uninstall i).sys s) ids := by
  rw [sys_uninstall_other hr hs]
  refine h.congr (fun j hj => getElem?_uninstall ?_)
  rintro rfl
  obtain ⟨r', hr', hname, _⟩ := h.installedOn hj
  cases hr.symm.trans hr'
  exact hs hname

end Streams

end VsRemote
