import Mathlib.Data.List.Nodup
import Mathlib.Data.List.Perm.Subperm
import VsRemote.Redirect

/-! Contexts of redirectors on one thread. The code between them writes, logs and
raises; what it is expected to write is read off the code itself. -/

namespace VsRemote

/-- What handlers of a logger do. A write goes to an object as many redirectors
below `sys` as the handler has held it since. -/
inductive HandlerCode where
  | done
  | write (s : StdStream) (below : Nat) (text : String)
  | log (handlers : HandlerCode)
  | raise
  | seq (first second : HandlerCode)

/-- A run of the code of a thread. `capture` is `with StreamRedirector(s, dispatch)`,
`attempt` a `try` that swallows what is raised. -/
inductive CapturedCode where
  | done
  | write (s : StdStream) (text : String)
  | writelines (s : StdStream) (lines : List String)
  | log (handlers : HandlerCode)
  | capture (s : StdStream) (body : CapturedCode)
  | attempt (body : CapturedCode)
  | raise
  | seq (first second : CapturedCode)

/-- The streams, `_IN_LOGGING` of the thread, and the streams after each of its steps. -/
structure CaptureThread where
  streams : Streams := {}
  inLogging : Bool := false
  moments : List Streams := []

namespace CaptureThread

def act (w : Streams) (st : CaptureThread) : CaptureThread :=
  { st with streams := w, moments := st.moments ++ [w] }

/-- `write`; the result tells whether an exception is raised. -/
def write (ref : StreamRef) (text : String) (st : CaptureThread) : CaptureThread × Bool :=
  match st.streams.write st.inLogging text ref with
  | some w => (st.act w, false)
  | none => (st, true)

def writelines (ref : StreamRef) : List String → CaptureThread → CaptureThread × Bool
  | [], st => (st, false)
  | line :: lines, st =>
    match st.write ref line with
    | (st, true) => (st, true)
    | (st, false) => writelines ref lines st

/-- `Logger.callHandlers`, patched or not. -/
def callHandlers (handlers : CaptureThread → CaptureThread × Bool) (st : CaptureThread) : CaptureThread × Bool :=
  if st.streams.callHandlersPatched then
    let (after, raised) := handlers { st with inLogging := true }
    ({ after with inLogging := st.inLogging }, raised)
  else handlers st

end CaptureThread

/-- The object `n` redirectors below. -/
def Streams.under (w : Streams) : Nat → StreamRef → StreamRef
  | 0, ref => ref
  | _ + 1, .original s => .original s
  | n + 1, .redirector i =>
    match w.redirectors[i]? with
    | some r => w.under n r.target
    | none => .redirector i

def HandlerCode.exec : HandlerCode → CaptureThread → CaptureThread × Bool
  | done, st => (st, false)
  | write s below text, st => st.write (st.streams.under below (st.streams.sys s)) text
  | log handlers, st => st.callHandlers handlers.exec
  | raise, st => (st, true)
  | seq first second, st =>
    match first.exec st with
    | (st, true) => (st, true)
    | (st, false) => second.exec st

def CapturedCode.exec : CapturedCode → CaptureThread → CaptureThread × Bool
  | done, st => (st, false)
  | write s text, st => st.write (st.streams.sys s) text
  | writelines s lines, st => st.writelines (st.streams.sys s) lines
  | log handlers, st => st.callHandlers handlers.exec
  | capture s body, st =>
    let (after, raised) := body.exec (st.act (st.streams.enter s))
    (after.act (after.streams.uninstall st.streams.redirectors.length), raised)
  | attempt body, st => ((body.exec st).1, false)
  | raise, st => (st, true)
  | seq first second, st =>
    match first.exec st with
    | (st, true) => (st, true)
    | (st, false) => second.exec st

/-! What the code is expected to do. -/

structure TracedWrite where
  stream : StdStream
  text : String
  byHandler : Bool

def HandlerCode.raises : HandlerCode → Bool
  | done => false
  | write .. => false
  | log handlers => handlers.raises
  | raise => true
  | seq first second => first.raises || second.raises

/-- The writes up to where the code raises. -/
def HandlerCode.writes : HandlerCode → List TracedWrite
  | done => []
  | write s _ text => [⟨s, text, true⟩]
  | log handlers => handlers.writes
  | raise => []
  | seq first second => first.writes ++ if first.raises then [] else second.writes

namespace CapturedCode

def raises : CapturedCode → Bool
  | done => false
  | write .. => false
  | writelines .. => false
  | log handlers => handlers.raises
  | capture _ body => body.raises
  | attempt _ => false
  | raise => true
  | seq first second => first.raises || second.raises

def writes : CapturedCode → List TracedWrite
  | done => []
  | write s text => [⟨s, text, false⟩]
  | writelines s lines => lines.map (fun line => ⟨s, line, false⟩)
  | log handlers => handlers.writes
  | capture _ body => body.writes
  | attempt body => body.writes
  | raise => []
  | seq first second => first.writes ++ if first.raises then [] else second.writes

/-- The contexts in the order they are entered, each with the writes inside it. -/
def captures : CapturedCode → List (StdStream × List TracedWrite)
  | capture s body => (s, body.writes) :: body.captures
  | attempt body => body.captures
  | seq first second => first.captures ++ if first.raises then [] else second.captures
  | _ => []

end CapturedCode

/-- What a redirector on a stream dispatches for writes. -/
def streamEvents (s : StdStream) (ws : List TracedWrite) : List StreamOutputEvent :=
  (ws.filter (fun x => x.stream = s ∧ x.text ≠ "" ∧ x.byHandler = false)).map (fun x => ⟨s.name, x.text⟩)

/-- What the redirector `i` dispatched. -/
def eventsOf (i : Nat) (dispatched : List (Nat × StreamOutputEvent)) : List StreamOutputEvent :=
  (dispatched.filter (fun e => e.1 = i)).map Prod.snd

namespace Streams

/-- The dispatches of one write, made by the redirectors of the stream from below. -/
def teed (ids : List Nat) (s : StdStream) (text : String) : List (Nat × StreamOutputEvent) :=
  if text = "" then [] else ids.reverse.map (fun i => (i, ⟨s.name, text⟩))

variable {w : Streams} {s : StdStream} {ref : StreamRef} {ids : List Nat}

theorem Linked.writeTo (h : w.Linked s ref ids) (inLogging : Bool) (text : String) {fuel : Nat}
    (hfuel : ids.length ≤ fuel) :
    w.writeTo inLogging text fuel ref = some { w with
      written := w.written ++ [(s, text)]
      dispatched := w.dispatched ++ if inLogging then [] else teed ids s text } := by
  induction h generalizing fuel with
  | original =>
    have hnone : (if inLogging then [] else teed [] s text) = [] := by
      cases inLogging <;> simp [teed]
    cases fuel <;> simp [Streams.writeTo, hnone]
  | @redirector i r ids hr hname _ _ _ ih =>
    cases fuel with
    | zero => cases hfuel
    | succ fuel =>
      have hrest := ih (Nat.le_of_succ_le_succ hfuel)
      simp only [Streams.writeTo, hr, Option.bind_eq_bind, Option.bind_some, hrest, hname]
      cases inLogging with
      | true => simp
      | false => by_cases htext : text = "" <;> simp [teed, htext]

theorem Linked.length_le (h : w.Linked s ref ids) : ids.length ≤ w.redirectors.length := by
  have hsubset : ids ⊆ List.range w.redirectors.length := fun i hi => List.mem_range.2 (h.lt_length i hi)
  have hle := (h.nodup.subperm hsubset).length_le
  rw [List.length_range] at hle
  exact hle

theorem Linked.under (h : w.Linked s ref ids) (n : Nat) : w.Linked s (w.under n ref) (ids.drop n) := by
  induction n generalizing ref ids with
  | zero => exact h
  | succ n ih =>
    cases h with
    | original => exact .original
    | redirector hr _ _ _ hrest =>
      simp only [Streams.under, hr]
      exact ih hrest

/-- One more context on a stream. -/
theorem mem_push_iff {layers : StdStream → List Nat} {i n : Nat} {s s' : StdStream} :
    i ∈ Function.update layers s (n :: layers s) s' ↔ (i = n ∧ s' = s) ∨ i ∈ layers s' := by
  obtain rfl | hne := eq_or_ne s' s
  · simp [Function.update_self]
  · rw [Function.update_of_ne hne]
    simp [hne]

/-- The installed redirectors are those of the open contexts, each on its stream. -/
structure Nested (w : Streams) (layers : StdStream → List Nat) : Prop where
  linked : ∀ s, w.Linked s (w.sys s) (layers s)
  installed : ∀ i r, w.redirectors[i]? = some r → r.installed = true → i ∈ layers r.name
  count : w.patchCount = (layers .stdout).length + (layers .stderr).length
  patched : w.callHandlersPatched = true ↔ 0 < w.patchCount

/-- `Logger.callHandlers` is patched while a redirector is installed. -/
def HookRight (w : Streams) : Prop :=
  w.callHandlersPatched = true ↔ ∃ r ∈ w.redirectors, r.installed = true

variable {layers : StdStream → List Nat} {i : Nat}

theorem Nested.hookRight (h : w.Nested layers) : w.HookRight := by
  rw [HookRight, h.patched, h.count]
  constructor
  · intro hpos
    have hsome : ∃ s, layers s ≠ [] := by
      by_contra hall
      have hnil : ∀ s, layers s = [] := fun s => not_not.1 (fun hne => hall ⟨s, hne⟩)
      rw [hnil, hnil] at hpos
      exact Nat.lt_irrefl 0 hpos
    obtain ⟨s, hs⟩ := hsome
    obtain ⟨i, hi⟩ := List.exists_mem_of_ne_nil _ hs
    obtain ⟨r, hr, _, hinstalled⟩ := (h.linked s).installedOn hi
    exact ⟨r, List.mem_of_getElem? hr, hinstalled⟩
  · rintro ⟨r, hr, hinstalled⟩
    obtain ⟨i, hi⟩ := List.getElem?_of_mem hr
    have hlength := List.length_pos_of_mem (h.installed i r hi hinstalled)
    cases hname : r.name with
    | stdout =>
      rw [hname] at hlength
      omega
    | stderr =>
      rw [hname] at hlength
      omega

theorem Nested.enter (h : w.Nested layers) (s : StdStream) :
    (w.enter s).Nested (Function.update layers s (w.redirectors.length :: layers s)) := by
  refine ⟨fun s' => ?_, fun i r hr hinstalled => ?_, ?_, ?_⟩
  · obtain rfl | hne := eq_or_ne s' s
    · rw [Function.update_self]
      exact (h.linked s').enter
    · rw [Function.update_of_ne hne]
      exact (h.linked s').enter_other hne
  · by_cases hi : i < w.redirectors.length
    · rw [getElem?_enter s hi] at hr
      exact mem_push_iff.2 (.inr (h.installed i r hr hinstalled))
    · have hlast : i = w.redirectors.length := by
        have hlt := (List.getElem?_eq_some_iff.1 hr).1
        rw [enter_eq] at hlt
        simp only [List.length_append, List.length_singleton] at hlt
        omega
      subst hlast
      rw [getElem?_enter_length] at hr
      cases hr
      exact mem_push_iff.2 (.inl ⟨rfl, rfl⟩)
  · have hcount : (w.enter s).patchCount = w.patchCount + 1 := by rw [enter_eq]
    rw [hcount, h.count]
    cases s <;> simp [Function.update] <;> omega
  · rw [enter_eq]
    by_cases hzero : w.patchCount = 0
    · simp [hzero]
    · simp [hzero, h.patched, Nat.pos_of_ne_zero hzero]

theorem Nested.uninstall (h : w.Nested (Function.update layers s (i :: layers s))) : (w.uninstall i).Nested layers := by
  have hlinked := h.linked s
  rw [Function.update_self] at hlinked
  obtain ⟨r, hr, rfl, hinstalled⟩ := hlinked.installedOn List.mem_cons_self
  have hcount : w.patchCount = (layers .stdout).length + (layers .stderr).length + 1 := by
    rw [h.count]
    cases r.name <;> simp [Function.update] <;> omega
  have hpos : 0 < w.patchCount := by omega
  have hw : w.uninstall i = { w with
      sys := Function.update w.sys r.name r.target
      redirectors := w.redirectors.set i { r with installed := false }
      patchCount := w.patchCount - 1
      callHandlersPatched := if w.patchCount - 1 = 0 then false else w.callHandlersPatched } := by
    rw [uninstall_eq hr hinstalled, uninstallLoggingHook, if_pos hpos]
  refine ⟨fun s' => ?_, fun j r' hr' hinstalled' => ?_, ?_, ?_⟩
  · obtain rfl | hne := eq_or_ne s' r.name
    · exact hlinked.uninstall
    · have hother := h.linked s'
      rw [Function.update_of_ne hne] at hother
      exact hother.uninstall_other hr hne.symm
  · obtain rfl | hne := eq_or_ne i j
    · rw [hw] at hr'
      simp only [List.getElem?_set_self (List.getElem?_eq_some_iff.1 hr).1] at hr'
      cases hr'
      cases hinstalled'
    · rw [getElem?_uninstall hne] at hr'
      have hmem := mem_push_iff.1 (h.installed j r' hr' hinstalled')
      exact hmem.resolve_left (fun hlast => hne hlast.1.symm)
  · rw [hw]
    show w.patchCount - 1 = _
    omega
  · rw [hw]
    show (if w.patchCount - 1 = 0 then false else w.callHandlersPatched) = true ↔ 0 < w.patchCount - 1
    by_cases hzero : w.patchCount - 1 = 0
    · simp [hzero]
    · simp [hzero, h.patched, hpos, Nat.pos_of_ne_zero hzero]

theorem Nested.write (h : w.Nested layers) (inLogging : Bool) (text : String) (hlinked : w.Linked s ref ids) :
    ∃ w', w.write inLogging text ref = some w' ∧ w'.Nested layers ∧
      w'.written = w.written ++ [(s, text)] ∧ w'.redirectors = w.redirectors ∧
      w'.dispatched = w.dispatched ++ if inLogging then [] else teed ids s text := by
  refine ⟨_, hlinked.writeTo inLogging text hlinked.length_le, ?_, rfl, rfl, rfl⟩
  exact ⟨fun s' => (h.linked s').congr (fun _ _ => rfl), h.installed, h.count, h.patched⟩

end Streams

open Streams (teed mem_push_iff)

/-- What code leaves behind: the same contexts open, more written and dispatched and
redirectors created, and the hook right all along. -/
structure Continues (layers : StdStream → List Nat) (st st' : CaptureThread) (ws : List TracedWrite)
    (events : List (Nat × StreamOutputEvent)) (created : Nat) : Prop where
  nested : st'.streams.Nested layers
  inLogging : st'.inLogging = st.inLogging
  length : st'.streams.redirectors.length = st.streams.redirectors.length + created
  written : st'.streams.written = st.streams.written ++ ws.map (fun x => (x.stream, x.text))
  dispatched : st'.streams.dispatched = st.streams.dispatched ++ events
  moments : ∃ ms, st'.moments = st.moments ++ ms ∧ ∀ w ∈ ms, w.HookRight

section

variable {layers : StdStream → List Nat} {st st' st'' : CaptureThread} {s : StdStream} {ref : StreamRef} {ids : List Nat}
  {ws ws' : List TracedWrite} {events events' : List (Nat × StreamOutputEvent)} {created created' : Nat}

theorem Continues.refl (h : st.streams.Nested layers) : Continues layers st st [] [] 0 :=
  ⟨h, rfl, rfl, (List.append_nil _).symm, (List.append_nil _).symm, [], (List.append_nil _).symm, List.forall_mem_nil _⟩

theorem Continues.trans (h : Continues layers st st' ws events created)
    (h' : Continues layers st' st'' ws' events' created') :
    Continues layers st st'' (ws ++ ws') (events ++ events') (created + created') := by
  obtain ⟨ms, hms, hright⟩ := h.moments
  obtain ⟨ms', hms', hright'⟩ := h'.moments
  refine ⟨h'.nested, h'.inLogging.trans h.inLogging, ?_, ?_, ?_, ms ++ ms', ?_, ?_⟩
  · rw [h'.length, h.length, Nat.add_assoc]
  · rw [h'.written, h.written, List.map_append, List.append_assoc]
  · rw [h'.dispatched, h.dispatched, List.append_assoc]
  · rw [hms', hms, List.append_assoc]
  · exact List.forall_mem_append.2 ⟨hright, hright'⟩

theorem CaptureThread.write_continues (hnested : st.streams.Nested layers) (hlinked : st.streams.Linked s ref ids)
    (text : String) (byHandler : Bool) :
    ∃ st', st.write ref text = (st', false) ∧ st'.streams.redirectors = st.streams.redirectors ∧
      Continues layers st st' [⟨s, text, byHandler⟩] (if st.inLogging then [] else teed ids s text) 0 := by
  obtain ⟨w, hwrite, hw, hwritten, hredirectors, hdispatched⟩ := hnested.write st.inLogging text hlinked
  refine ⟨st.act w, ?_, hredirectors, hw, rfl, congrArg List.length hredirectors, hwritten, hdispatched, [w], rfl, ?_⟩
  · rw [CaptureThread.write, hwrite]
  · exact List.forall_mem_singleton.2 hw.hookRight

theorem CaptureThread.writelines_continues (hflag : st.inLogging = false) (hnested : st.streams.Nested layers)
    (hlinked : st.streams.Linked s ref ids) (lines : List String) :
    ∃ st', st.writelines ref lines = (st', false) ∧
      Continues layers st st' (lines.map (fun line => ⟨s, line, false⟩)) (lines.flatMap (teed ids s)) 0 := by
  induction lines generalizing st with
  | nil => exact ⟨st, rfl, .refl hnested⟩
  | cons line lines ih =>
    obtain ⟨st₁, hwrite, hredirectors, hfirst⟩ := write_continues hnested hlinked line false
    have hlinked₁ : st₁.streams.Linked s ref ids := hlinked.congr (fun i _ => by rw [hredirectors])
    obtain ⟨st₂, hlines, hrest⟩ := ih (hfirst.inLogging.trans hflag) hfirst.nested hlinked₁
    refine ⟨st₂, ?_, ?_⟩
    · rw [writelines, hwrite]
      exact hlines
    · have hall := hfirst.trans hrest
      rw [hflag] at hall
      exact hall

theorem callHandlers_continues {handlers : CaptureThread → CaptureThread × Bool} {raised : Bool}
    (hnested : st.streams.Nested layers)
    (hhandlers : ∀ st : CaptureThread, st.streams.Nested layers → (st.inLogging = true ∨ ∀ s, layers s = []) →
      ∃ st', handlers st = (st', raised) ∧ Continues layers st st' ws [] 0) :
    ∃ st', st.callHandlers handlers = (st', raised) ∧ Continues layers st st' ws [] 0 := by
  unfold CaptureThread.callHandlers
  by_cases hpatched : st.streams.callHandlersPatched = true
  · obtain ⟨after, hafter, hcontinues⟩ := hhandlers { st with inLogging := true } hnested (.inl rfl)
    refine ⟨{ after with inLogging := st.inLogging }, ?_, ?_⟩
    · rw [if_pos hpatched, hafter]
    · exact ⟨hcontinues.nested, rfl, hcontinues.length, hcontinues.written, hcontinues.dispatched, hcontinues.moments⟩
  · rw [if_neg hpatched]
    refine hhandlers st hnested (.inr ?_)
    have hzero : (layers .stdout).length + (layers .stderr).length = 0 := by
      have hnot := mt hnested.patched.2 hpatched
      rw [hnested.count] at hnot
      omega
    intro s
    cases s with
    | stdout => exact List.eq_nil_of_length_eq_zero (by omega)
    | stderr => exact List.eq_nil_of_length_eq_zero (by omega)

/-- Handlers reach the originals and no dispatch. -/
theorem HandlerCode.exec_continues (h : HandlerCode) (hnested : st.streams.Nested layers)
    (hquiet : st.inLogging = true ∨ ∀ s, layers s = []) :
    ∃ st', h.exec st = (st', h.raises) ∧ Continues layers st st' h.writes [] 0 := by
  induction h generalizing st with
  | done => exact ⟨st, rfl, .refl hnested⟩
  | write s below text =>
    obtain ⟨st₁, hwrite, _, hcontinues⟩ := CaptureThread.write_continues hnested ((hnested.linked s).under below) text true
    refine ⟨st₁, hwrite, ?_⟩
    have hnone : (if st.inLogging then [] else teed ((layers s).drop below) s text) = [] := by
      obtain hflag | hempty := hquiet
      · rw [hflag]
        rfl
      · rw [hempty]
        simp [teed]
    rw [hnone] at hcontinues
    exact hcontinues
  | log handlers ih => exact callHandlers_continues hnested (fun st hnested hquiet => ih hnested hquiet)
  | raise => exact ⟨st, rfl, .refl hnested⟩
  | seq first second ihfirst ihsecond =>
    obtain ⟨st₁, hfirst, hcontinues⟩ := ihfirst hnested hquiet
    cases hraises : first.raises with
    | true =>
      refine ⟨st₁, ?_, ?_⟩
      · simp [exec, hfirst, hraises, raises]
      · simpa [writes, hraises] using hcontinues
    | false =>
      have hquiet₁ : st₁.inLogging = true ∨ ∀ s, layers s = [] := by
        rw [hcontinues.inLogging]
        exact hquiet
      obtain ⟨st₂, hsecond, hcontinues₂⟩ := ihsecond hcontinues.nested hquiet₁
      refine ⟨st₂, ?_, ?_⟩
      · simp [exec, hfirst, hraises, raises, hsecond]
      · simpa [writes, hraises] using hcontinues.trans hcontinues₂

end

/-- The dispatches that code makes where these contexts are open and `n` redirectors exist. -/
def CapturedCode.events (layers : StdStream → List Nat) (n : Nat) : CapturedCode → List (Nat × StreamOutputEvent)
  | write s text => teed (layers s) s text
  | writelines s lines => lines.flatMap (teed (layers s) s)
  | capture s body => body.events (Function.update layers s (n :: layers s)) (n + 1)
  | attempt body => body.events layers n
  | seq first second =>
    first.events layers n ++ if first.raises then [] else second.events layers (n + first.captures.length)
  | _ => []

/-- The code runs as expected of it: one step of the induction for each construct. -/
theorem CapturedCode.exec_continues (c : CapturedCode) {layers : StdStream → List Nat} {st : CaptureThread}
    (hflag : st.inLogging = false) (hnested : st.streams.Nested layers) :
    ∃ st', c.exec st = (st', c.raises) ∧
      Continues layers st st' c.writes (c.events layers st.streams.redirectors.length) c.captures.length := by
  induction c generalizing st layers with
  | done => exact ⟨st, rfl, .refl hnested⟩
  | write s text =>
    obtain ⟨st₁, hwrite, _, hcontinues⟩ := CaptureThread.write_continues hnested (hnested.linked s) text false
    rw [hflag] at hcontinues
    exact ⟨st₁, hwrite, hcontinues⟩
  | writelines s lines => exact CaptureThread.writelines_continues hflag hnested (hnested.linked s) lines
  | log handlers =>
    exact callHandlers_continues hnested (fun st hnested hquiet => handlers.exec_continues hnested hquiet)
  | capture s body ih =>
    have hentered := hnested.enter s
    obtain ⟨after, hbody, hcontinues⟩ := @ih _ (st.act (st.streams.enter s)) hflag hentered
    have hleft := hcontinues.nested.uninstall
    obtain ⟨ms, hms, hright⟩ := hcontinues.moments
    have hlength : (st.act (st.streams.enter s)).streams.redirectors.length = st.streams.redirectors.length + 1 :=
      Streams.length_enter s st.streams
    have hentry := Prod.mk.inj (Streams.output_enter s st.streams)
    have hexit := Prod.mk.inj (Streams.output_uninstall st.streams.redirectors.length after.streams)
    refine ⟨after.act (after.streams.uninstall st.streams.redirectors.length), ?_, hleft, hcontinues.inLogging, ?_, ?_, ?_, ?_⟩
    · rw [exec, hbody]
      rfl
    · refine (Streams.length_uninstall _ _).trans ?_
      rw [hcontinues.length, hlength, captures, List.length_cons]
      omega
    · refine hexit.1.trans ?_
      rw [hcontinues.written]
      exact congrArg (· ++ _) hentry.1
    · refine hexit.2.trans ?_
      rw [hcontinues.dispatched, hlength]
      exact congrArg (· ++ _) hentry.2
    · refine ⟨[st.streams.enter s] ++ ms ++ [after.streams.uninstall st.streams.redirectors.length], ?_, ?_⟩
      · show after.moments ++ _ = _
        rw [hms, CaptureThread.act]
        simp only [List.append_assoc]
      · refine List.forall_mem_append.2 ⟨List.forall_mem_append.2 ⟨?_, hright⟩, ?_⟩
        · exact List.forall_mem_singleton.2 hentered.hookRight
        · exact List.forall_mem_singleton.2 hleft.hookRight
  | attempt body ih =>
    obtain ⟨st₁, hbody, hcontinues⟩ := ih hflag hnested
    exact ⟨st₁, by rw [exec, hbody]; rfl, hcontinues⟩
  | raise => exact ⟨st, rfl, .refl hnested⟩
  | seq first second ihfirst ihsecond =>
    obtain ⟨st₁, hfirst, hcontinues⟩ := ihfirst hflag hnested
    cases hraises : first.raises with
    | true =>
      refine ⟨st₁, ?_, ?_⟩
      · simp [exec, hfirst, hraises, raises]
      · simpa [writes, events, captures, hraises] using hcontinues
    | false =>
      obtain ⟨st₂, hsecond, hcontinues₂⟩ := ihsecond (hcontinues.inLogging.trans hflag) hcontinues.nested
      rw [hcontinues.length] at hcontinues₂
      refine ⟨st₂, ?_, ?_⟩
      · simp [exec, hfirst, hraises, raises, hsecond]
      · simpa [writes, events, captures, hraises] using hcontinues.trans hcontinues₂

/-! Whose dispatches these are. -/

structure Stacked (layers : StdStream → List Nat) (n : Nat) : Prop where
  nodup : ∀ s, (layers s).Nodup
  lt : ∀ s, ∀ i ∈ layers s, i < n
  apart : ∀ i s s', i ∈ layers s → i ∈ layers s' → s = s'

section

variable {layers : StdStream → List Nat} {n i : Nat} {s s' : StdStream} {ids : List Nat} {text : String}

theorem Stacked.mono {m : Nat} (h : Stacked layers n) (hle : n ≤ m) : Stacked layers m :=
  ⟨h.nodup, fun s i hi => Nat.lt_of_lt_of_le (h.lt s i hi) hle, h.apart⟩

theorem Stacked.enter (h : Stacked layers n) (s : StdStream) :
    Stacked (Function.update layers s (n :: layers s)) (n + 1) := by
  refine ⟨fun s' => ?_, fun s' i hi => ?_, fun i s₁ s₂ h₁ h₂ => ?_⟩
  · obtain rfl | hne := eq_or_ne s' s
    · rw [Function.update_self]
      exact List.nodup_cons.2 ⟨fun hn => Nat.lt_irrefl n (h.lt s' n hn), h.nodup s'⟩
    · rw [Function.update_of_ne hne]
      exact h.nodup s'
  · obtain ⟨rfl, _⟩ | hi := mem_push_iff.1 hi
    · exact Nat.lt_succ_self i
    · exact Nat.lt_succ_of_lt (h.lt s' i hi)
  · obtain ⟨hn, hs₁⟩ | hold₁ := mem_push_iff.1 h₁
    · obtain ⟨_, hs₂⟩ | hold₂ := mem_push_iff.1 h₂
      · exact hs₁.trans hs₂.symm
      · exact absurd (h.lt s₂ i hold₂) (hn ▸ Nat.lt_irrefl n)
    · obtain ⟨hn, _⟩ | hold₂ := mem_push_iff.1 h₂
      · exact absurd (h.lt s₁ i hold₁) (hn ▸ Nat.lt_irrefl n)
      · exact h.apart i s₁ s₂ hold₁ hold₂

theorem eventsOf_append (i : Nat) (l l' : List (Nat × StreamOutputEvent)) :
    eventsOf i (l ++ l') = eventsOf i l ++ eventsOf i l' := by
  rw [eventsOf, List.filter_append, List.map_append]
  rfl

theorem streamEvents_append (s : StdStream) (ws ws' : List TracedWrite) :
    streamEvents s (ws ++ ws') = streamEvents s ws ++ streamEvents s ws' := by
  rw [streamEvents, List.filter_append, List.map_append]
  rfl

theorem eventsOf_teed_mem (hnodup : ids.Nodup) (hi : i ∈ ids) :
    eventsOf i (teed ids s text) = streamEvents s [⟨s, text, false⟩] := by
  have hcount : ids.filter (fun j => decide (j = i)) = [i] := by
    rw [List.filter_eq, List.count_eq_one_of_mem hnodup hi]
    rfl
  by_cases htext : text = ""
  · simp [eventsOf, teed, streamEvents, htext]
  · simp [eventsOf, teed, streamEvents, htext, List.filter_map, Function.comp_def, List.filter_reverse, hcount]

theorem eventsOf_teed_not_mem (hi : i ∉ ids) : eventsOf i (teed ids s text) = [] := by
  have hne : ∀ j ∈ ids, ¬ j = i := by
    rintro j hj rfl
    exact hi hj
  by_cases htext : text = ""
  · simp [eventsOf, teed, htext]
  · simpa [eventsOf, teed, htext] using hne

theorem HandlerCode.streamEvents_writes (h : HandlerCode) (s : StdStream) : streamEvents s h.writes = [] := by
  induction h with
  | done => rfl
  | write s' below text => simp [writes, streamEvents]
  | log handlers ih => exact ih
  | raise => rfl
  | seq first second ihfirst ihsecond =>
    rw [writes, streamEvents_append, ihfirst]
    cases first.raises with
    | true => rfl
    | false => exact ihsecond

/-- An open context dispatches what is written to its stream outside of handlers. -/
theorem CapturedCode.eventsOf_open (c : CapturedCode) (hstacked : Stacked layers n) (hi : i ∈ layers s) :
    eventsOf i (c.events layers n) = streamEvents s c.writes := by
  have hteed : ∀ (layers : StdStream → List Nat) (n : Nat), Stacked layers n → i ∈ layers s → ∀ s' text,
      eventsOf i (teed (layers s') s' text) = streamEvents s [⟨s', text, false⟩] := by
    intro layers n hstacked hi s' text
    obtain rfl | hne := eq_or_ne s' s
    · exact eventsOf_teed_mem (hstacked.nodup s') hi
    · rw [eventsOf_teed_not_mem (fun hi' => hne (hstacked.apart i s' s hi' hi))]
      simp [streamEvents, hne]
  induction c generalizing layers n with
  | done => rfl
  | write s' text => exact hteed layers n hstacked hi s' text
  | writelines s' lines =>
    rw [events, writes]
    induction lines with
    | nil => rfl
    | cons line lines ih =>
      rw [List.flatMap_cons, eventsOf_append, ih, hteed layers n hstacked hi, List.map_cons, ← streamEvents_append]
      rfl
  | log handlers => exact (handlers.streamEvents_writes s).symm
  | capture s' body ih =>
    have hpushed : i ∈ Function.update layers s' (n :: layers s') s := mem_push_iff.2 (.inr hi)
    exact ih (hstacked.enter s') hpushed
  | attempt body ih => exact ih hstacked hi
  | raise => rfl
  | seq first second ihfirst ihsecond =>
    rw [events, writes, eventsOf_append, streamEvents_append, ihfirst hstacked hi]
    cases first.raises with
    | true => rfl
    | false => exact congrArg (_ ++ ·) (ihsecond (hstacked.mono (Nat.le_add_right n _)) hi)

/-- A context that is not open in the code dispatches nothing. -/
theorem CapturedCode.eventsOf_closed (c : CapturedCode) (hclosed : ∀ s, i ∉ layers s)
    (hi : i < n ∨ n + c.captures.length ≤ i) : eventsOf i (c.events layers n) = [] := by
  induction c generalizing layers n with
  | done => rfl
  | write s' text => exact eventsOf_teed_not_mem (hclosed s')
  | writelines s' lines =>
    rw [events]
    induction lines with
    | nil => rfl
    | cons line lines ih => rw [List.flatMap_cons, eventsOf_append, ih hi, eventsOf_teed_not_mem (hclosed s')]; rfl
  | log handlers => rfl
  | capture s' body ih =>
    rw [captures, List.length_cons] at hi
    refine ih (fun s hmem => ?_) (by omega)
    obtain ⟨rfl, _⟩ | hmem := mem_push_iff.1 hmem
    · omega
    · exact hclosed s hmem
  | attempt body ih => exact ih hclosed hi
  | raise => rfl
  | seq first second ihfirst ihsecond =>
    rw [captures, List.length_append] at hi
    rw [events, eventsOf_append, ihfirst hclosed (by omega)]
    cases hraises : first.raises with
    | true => rfl
    | false =>
      simp only [hraises, Bool.false_eq_true, if_false] at hi
      exact ihsecond hclosed (by omega)

theorem CapturedCode.eventsOf_created (c : CapturedCode) (hstacked : Stacked layers n) {j : Nat} {ws : List TracedWrite}
    (hj : c.captures[j]? = some (s, ws)) : eventsOf (n + j) (c.events layers n) = streamEvents s ws := by
  induction c generalizing layers n j with
  | capture s' body ih =>
    cases j with
    | zero =>
      cases hj
      exact body.eventsOf_open (hstacked.enter s) (mem_push_iff.2 (.inl ⟨rfl, rfl⟩))
    | succ j =>
      have hinner := ih (hstacked.enter s') hj
      rw [Nat.add_right_comm] at hinner
      exact hinner
  | attempt body ih => exact ih hstacked hj
  | seq first second ihfirst ihsecond =>
    have hclosed : ∀ s, n + j ∉ layers s := by
      intro s hmem
      have hlt := hstacked.lt s _ hmem
      omega
    rw [events, eventsOf_append]
    rw [captures] at hj
    by_cases hlt : j < first.captures.length
    · rw [List.getElem?_append_left hlt] at hj
      rw [ihfirst hstacked hj]
      cases first.raises with
      | true => exact List.append_nil _
      | false =>
        have hlater := second.eventsOf_closed hclosed (n := n + first.captures.length) (.inl (by omega))
        simp only [Bool.false_eq_true, if_false, hlater, List.append_nil]
    · rw [List.getElem?_append_right (Nat.le_of_not_lt hlt)] at hj
      rw [first.eventsOf_closed hclosed (.inr (by omega)), List.nil_append]
      cases hraises : first.raises with
      | true =>
        simp only [hraises, if_true] at hj
        cases hj
      | false =>
        simp only [hraises, Bool.false_eq_true, if_false] at hj
        have hinner := ihsecond (hstacked.mono (Nat.le_add_right n first.captures.length)) hj
        have hindex : n + first.captures.length + (j - first.captures.length) = n + j := by omega
        rw [hindex] at hinner
        exact hinner
  | _ => cases hj

end

theorem Streams.nested_fresh : Streams.Nested {} (fun _ => []) where
  linked _ := .original
  installed i r hr := by simp at hr
  count := rfl
  patched := by simp

/-- For all code of a thread that begins without a redirector: contexts nested to any
depth on either stream, whatever is written, logged and raised inside them. -/
theorem nested_capture_tees_once (c : CapturedCode) :
    (c.exec {}).2 = c.raises ∧
      (c.exec {}).1.streams.written = c.writes.map (fun x => (x.stream, x.text)) ∧
      (∀ j s ws, c.captures[j]? = some (s, ws) → eventsOf j (c.exec {}).1.streams.dispatched = streamEvents s ws) ∧
      (∀ w ∈ (c.exec {}).1.moments, w.HookRight) ∧
      (c.exec {}).1.streams.sys = .original ∧ (c.exec {}).1.streams.callHandlersPatched = false ∧
      (c.exec {}).1.inLogging = false := by
  obtain ⟨st', hexec, hcontinues⟩ := @CapturedCode.exec_continues c _ {} rfl Streams.nested_fresh
  have hstacked : Stacked (fun _ => []) 0 :=
    ⟨fun _ => List.nodup_nil, fun _ => List.forall_mem_nil _, fun _ _ _ hi => absurd hi List.not_mem_nil⟩
  obtain ⟨ms, hms, hright⟩ := hcontinues.moments
  rw [hexec]
  refine ⟨rfl, hcontinues.written, fun j s ws hj => ?_, ?_, ?_, ?_, hcontinues.inLogging⟩
  · rw [hcontinues.dispatched]
    have hcreated := c.eventsOf_created hstacked hj
    rw [Nat.zero_add] at hcreated
    exact hcreated
  · rw [hms]
    exact hright
  · exact funext (fun s => (hcontinues.nested.linked s).eq_original)
  · have hcount := hcontinues.nested.count
    have hunpatched := mt hcontinues.nested.patched.1 (by rw [hcount]; exact Nat.lt_irrefl 0)
    exact Bool.eq_false_iff.2 hunpatched

end VsRemote
