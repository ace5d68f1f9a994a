import VsRemote.PipeStream
import VsRemote.PipeWindow

/-! `pipe` against a server whose replies depend on the request only: it comes to
its end in every order of the replies, and writes what a loop without
prefetching writes. -/

namespace VsRemote

namespace PipeState

section

variable (z : Zstd) (c : PipeCall) (answer : FrameRequest → Compression × List Bytes)

/-- A reply with status `OK` and the planes that `answer` has for the request. -/
def IsAnswer (request : FrameRequest) (result : FrameResult) : Prop :=
  ∃ header, header.status = .ok ∧ header.compression = (answer request).1 ∧
    result = .ok (header, (answer request).2)

/-- Every request is answered, and with `answer`. -/
def Answers (s : PipeState) : PipeLabel → Prop
  | .pipe => True
  | .reply fut result => ∀ f, s.futures[fut]? = some f → IsAnswer answer f.request result
  | .timeout => False

/-- The first error among the parts of a frame. -/
def planesError (mode : Compression) : List Bytes → Option PyExc
  | [] => none
  | part :: parts =>
    match decompressPlane z part mode with
    | .error e => some e
    | .ok _ => planesError mode parts

def frameError (n : Nat) : Option PyExc := planesError z (answer (c.frameRequest n)).1 (answer (c.frameRequest n)).2

def frameWrites (n : Nat) : FrameWrites :=
  ⟨c.y4m, decompressedPlanes z (answer (c.frameRequest n)).1 (answer (c.frameRequest n)).2⟩

/-- One frame after the other, from frame `n` on: what is written and how it ends. -/
def plainFrames : Nat → Nat → List FrameWrites × PipePhase
  | 0, _ => ([], .returned)
  | left + 1, n =>
    match frameError z c answer n with
    | some e => ([frameWrites z c answer n], .raised (.raised e))
    | none =>
      let rest := plainFrames left (n + 1)
      (frameWrites z c answer n :: rest.1, rest.2)

def plainStream (header : Bytes) : Bytes × PipePhase :=
  let frames := plainFrames z c answer c.frameCount 0
  (header ++ frames.1.flatMap FrameWrites.bytes, frames.2)

/-- `pipe` without requests that are in flight: the header and then the frames. -/
def plainPipe : Bytes × PipePhase :=
  if c.y4m then
    match getY4mHeader c.info with
    | .error e => ([], .raised (.raised e))
    | .ok header => plainStream z c answer header
  else plainStream z c answer []

/-- The plain pipe writes what is written so far, and then `rest`. -/
def Leads (s : PipeState) (rest : List FrameWrites × PipePhase) : Prop :=
  plainPipe z c answer = (s.header.getD [] ++ (s.frames ++ rest.1).flatMap FrameWrites.bytes, rest.2)

/-- Of the answer for frame `n`, `rest` is still to be written. -/
def Unwritten (s : PipeState) (header : FrameHeader) (rest : List Bytes) : Prop :=
  ∃ parts, answer (c.frameRequest s.n) = (header.compression, parts) ∧ s.current.marker = c.y4m ∧
    decompressedPlanes z header.compression parts =
      s.current.planes ++ decompressedPlanes z header.compression rest ∧
    planesError z header.compression parts = planesError z header.compression rest

/-- What the plain pipe still has to write, at each place of `pipe`. -/
def Plain (s : PipeState) : Prop :=
  match s.phase with
  | .header => s.n = 0 ∧ s.header = none ∧ s.frames = [] ∧ s.current = {}
  | .planes header rest => s.Leads z c answer (plainFrames z c answer (c.frameCount - s.n) s.n) ∧
      s.Unwritten z c answer header rest
  | .returned => s.Leads z c answer ([], .returned) ∧ s.current = {}
  | .raised e => s.Leads z c answer ([s.current], .raised e)
  | _ => s.Leads z c answer (plainFrames z c answer (c.frameCount - s.n) s.n) ∧ s.current = {}

/-- The results that are there are the answers. -/
def Answered (s : PipeState) : Prop :=
  ∀ f ∈ s.futures, ∀ result, f.result = some result → IsAnswer answer f.request result

end

variable {z : Zstd} {c : PipeCall} {answer : FrameRequest → Compression × List Bytes} {s s' : PipeState}

theorem IsAnswer.eq {request : FrameRequest} {header : FrameHeader} {parts : List Bytes}
    (h : IsAnswer answer request (.ok (header, parts))) : answer request = (header.compression, parts) := by
  obtain ⟨header', _, hcompression, heq⟩ := h
  cases heq
  rw [hcompression]

theorem Answered.request {n : Nat} (h : s.Answered answer) : (s.requestFrame c n).Answered answer := by
  intro f hf
  obtain hold | hnew := List.mem_append.1 hf
  · exact h f hold
  · intro result hresult
    rw [List.mem_singleton.1 hnew] at hresult
    cases hresult

theorem Answered.step {l : PipeLabel} (h : s.Answered answer) (hc : s.Answers answer l)
    (hs : step z c l s = some s') : s'.Answered answer := by
  have hto : PipeTo z c s l s' := step_to hs
  cases hto with
  | fillRequest | popMissed => exact h.request
  | @reply fut request result hfut =>
    intro f hf result' hresult
    obtain ⟨i, hi⟩ := List.getElem?_of_mem hf
    rw [List.getElem?_modify] at hi
    obtain ⟨f', hf', rfl⟩ := Option.map_eq_some_iff.1 hi
    by_cases hfi : fut = i
    · rw [if_pos hfi] at hresult ⊢
      rw [← Option.some.inj hresult]
      exact hc f' (hfi ▸ hf')
    · rw [if_neg hfi] at hresult ⊢
      exact h f' (List.mem_of_getElem? hf') result' hresult
  | timeout => exact absurd hc id
  | _ => exact h

theorem Block.getElem? {lo n : Nat} {f : PipeFuture} (h : s.Block c lo) (hf : s.futures[n]? = some f) :
    f.request = c.frameRequest n := by
  have hlt : n < s.futures.length := (List.getElem?_eq_some_iff.1 hf).1
  have hmap := congrArg (fun requests => requests[n]?) h.requested
  simp only [List.getElem?_map, hf, List.getElem?_range hlt, Option.map_some] at hmap
  exact Option.some.inj hmap

/-- What `pipe` gets when it waits is the answer for frame `n`. -/
theorem InBlock.isAnswer {fut : Nat} {result : FrameResult} (h : s.InBlock c) (hanswered : s.Answered answer)
    (hphase : s.phase = .wait fut) (hresult : (s.futures[fut]?).bind PipeFuture.result = some result) :
    IsAnswer answer (c.frameRequest s.n) result := by
  rw [InBlock, hphase] at h
  obtain ⟨hblock, _, _, rfl⟩ := h
  obtain ⟨f, hf, hfresult⟩ := Option.bind_eq_some_iff.1 hresult
  rw [← hblock.getElem? hf]
  exact hanswered f (List.mem_of_getElem? hf) result hfresult

theorem plainFrames_error {n : Nat} {e : PyExc} (hn : n < c.frameCount) (he : frameError z c answer n = some e) :
    plainFrames z c answer (c.frameCount - n) n =
      ([frameWrites z c answer n], .raised (.raised e)) := by
  have hleft : c.frameCount - n = c.frameCount - (n + 1) + 1 := by omega
  rw [hleft, plainFrames, he]

theorem plainFrames_next {n : Nat} (hn : n < c.frameCount) (hnone : frameError z c answer n = none) :
    plainFrames z c answer (c.frameCount - n) n =
      (frameWrites z c answer n :: (plainFrames z c answer (c.frameCount - (n + 1)) (n + 1)).1,
        (plainFrames z c answer (c.frameCount - (n + 1)) (n + 1)).2) := by
  have hleft : c.frameCount - n = c.frameCount - (n + 1) + 1 := by omega
  rw [hleft, plainFrames, hnone]

theorem Unwritten.ends {header : FrameHeader} {rest : List Bytes} (h : s.Unwritten z c answer header rest)
    (hrest : decompressedPlanes z header.compression rest = []) :
    frameWrites z c answer s.n = s.current ∧
      frameError z c answer s.n = planesError z header.compression rest := by
  obtain ⟨parts, hanswer, hmarker, hplanes, herror⟩ := h
  rw [hrest, List.append_nil] at hplanes
  rw [frameError, frameWrites, hanswer, hplanes, ← hmarker]
  exact ⟨rfl, herror⟩

theorem Unwritten.plane {header : FrameHeader} {part decompressed : Bytes} {rest : List Bytes}
    (h : s.Unwritten z c answer header (part :: rest))
    (hpart : decompressPlane z part header.compression = .ok decompressed) :
    Unwritten z c answer { s with
      current := { s.current with planes := s.current.planes ++ [decompressed] }
      phase := .planes header rest } header rest := by
  obtain ⟨parts, hanswer, hmarker, hplanes, herror⟩ := h
  rw [decompressedPlanes, hpart] at hplanes
  rw [planesError, hpart] at herror
  exact ⟨parts, hanswer, hmarker, hplanes.trans (List.append_cons ..), herror⟩

theorem Plain.step {l : PipeLabel} (h : s.Plain z c answer) (hblock : s.InBlock c) (hanswered : s.Answered answer)
    (hc : s.Answers answer l) (hs : step z c l s = some s') : s'.Plain z c answer := by
  have hto : PipeTo z c s l s' := step_to hs
  unfold Plain at h
  cases hto with
  | headerRaises hphase hy4m he =>
    rw [hphase] at h
    obtain ⟨_, hheader, hframes, hcurrent⟩ := h
    show plainPipe z c answer = (s.header.getD [] ++ (s.frames ++ [s.current]).flatMap FrameWrites.bytes, _)
    rw [plainPipe, if_pos hy4m, he, hheader, hframes, hcurrent]
    rfl
  | header hphase hy4m hheader =>
    rw [hphase] at h
    obtain ⟨hn, _, hframes, hcurrent⟩ := h
    refine ⟨?_, hcurrent⟩
    show plainPipe z c answer = (_ ++ (s.frames ++ (plainFrames z c answer (c.frameCount - s.n) s.n).1).flatMap
      FrameWrites.bytes, (plainFrames z c answer (c.frameCount - s.n) s.n).2)
    rw [plainPipe, if_pos hy4m, hheader, hframes, hn]
    rfl
  | noHeader hphase hraw =>
    rw [hphase] at h
    obtain ⟨hn, hheader, hframes, hcurrent⟩ := h
    refine ⟨?_, hcurrent⟩
    show plainPipe z c answer = (s.header.getD [] ++ (s.frames ++ (plainFrames z c answer (c.frameCount - s.n) s.n).1).flatMap
      FrameWrites.bytes, (plainFrames z c answer (c.frameCount - s.n) s.n).2)
    rw [plainPipe, if_neg (by rw [hraw]; exact Bool.false_ne_true), hheader, hframes, hn]
    rfl
  | toFill hphase | toPop hphase | fillDone hphase | fillRequest hphase | popped hphase | popMissed hphase =>
    rw [hphase] at h
    exact h
  | returned hphase hn =>
    rw [hphase] at h
    have hleft : c.frameCount - s.n = 0 := by omega
    rw [hleft] at h
    exact h
  | resultRaises hphase hresult hbad =>
    obtain ⟨header, hok, _, rfl⟩ := hblock.isAnswer hanswered hphase hresult
    rw [okReply, if_pos hok] at hbad
    cases hbad
  | @result fut header parts hphase hresult hstatus =>
    rw [hphase] at h
    exact ⟨h.1, parts, (hblock.isAnswer hanswered hphase hresult).eq, rfl, rfl, rfl⟩
  | frameDone hphase =>
    have hn : s.n < c.frameCount := by
      rw [InBlock, hphase] at hblock
      exact hblock.2.2
    rw [hphase] at h
    obtain ⟨hleads, hunwritten⟩ := h
    obtain ⟨hwrites, herror⟩ := hunwritten.ends rfl
    rw [plainFrames_next hn herror, hwrites] at hleads
    refine ⟨?_, rfl⟩
    show plainPipe z c answer = (_ ++ (s.frames ++ [s.current] ++ _).flatMap FrameWrites.bytes, _)
    rw [← List.append_cons]
    exact hleads
  | planeRaises hphase he =>
    have hn : s.n < c.frameCount := by
      rw [InBlock, hphase] at hblock
      exact hblock.2.2
    rw [hphase] at h
    obtain ⟨hleads, hunwritten⟩ := h
    obtain ⟨hwrites, herror⟩ := hunwritten.ends (by rw [decompressedPlanes, he])
    rw [planesError, he] at herror
    rw [plainFrames_error hn herror, hwrites] at hleads
    exact hleads
  | plane hphase hpart =>
    rw [hphase] at h
    exact ⟨h.1, h.2.plane hpart⟩
  | reply =>
    exact h
  | timeout => exact absurd hc id

section

variable (c : PipeCall) (answer : FrameRequest → Compression × List Bytes)

def frameParts (n : Nat) : Nat := (answer (c.frameRequest n)).2.length

/-- The steps of `pipe` for frames `n` to `n + left - 1`, at most. -/
def framesSteps : Nat → Nat → Nat
  | 0, _ => 0
  | left + 1, n => frameParts c answer n + c.backlogCount + 5 + framesSteps left (n + 1)

/-- The steps of `pipe` itself that are left, at most. -/
def pipeSteps (s : PipeState) : Nat :=
  match s.phase with
  | .header => framesSteps c answer (c.frameCount - s.n) s.n + 2
  | .loop => framesSteps c answer (c.frameCount - s.n) s.n + 1
  | .fill turns => framesSteps c answer (c.frameCount - (s.n + 1)) (s.n + 1) + frameParts c answer s.n +
      (c.backlogCount - turns) + 5
  | .pop => framesSteps c answer (c.frameCount - (s.n + 1)) (s.n + 1) + frameParts c answer s.n + 4
  | .wait _ => framesSteps c answer (c.frameCount - (s.n + 1)) (s.n + 1) + frameParts c answer s.n + 3
  | .planes _ parts => framesSteps c answer (c.frameCount - (s.n + 1)) (s.n + 1) + parts.length + 2
  | .returned | .raised _ => 0

def answeredCount (s : PipeState) : Nat := s.futures.countP (fun f => f.result.isSome)

/-- The steps that are left, those of the replies among them. -/
def stepsLeft (s : PipeState) : Nat := s.pipeSteps c answer + (c.frameCount - s.answeredCount)

end

theorem framesSteps_next (answer : FrameRequest → Compression × List Bytes) {n : Nat} (hn : n < c.frameCount) :
    framesSteps c answer (c.frameCount - n) n = frameParts c answer n + c.backlogCount + 5 +
      framesSteps c answer (c.frameCount - (n + 1)) (n + 1) := by
  have hleft : c.frameCount - n = c.frameCount - (n + 1) + 1 := by omega
  rw [hleft, framesSteps]

theorem countP_modify {futures : List PipeFuture} {fut : Nat} {request : FrameRequest} (result : FrameResult)
    (h : futures[fut]? = some ⟨request, none⟩) :
    (futures.modify fut (fun f => { f with result := some result })).countP (fun f => f.result.isSome) =
      futures.countP (fun f => f.result.isSome) + 1 := by
  induction futures generalizing fut with
  | nil => cases h
  | cons f futures ih =>
    cases fut with
    | zero =>
      rw [List.getElem?_cons_zero] at h
      cases Option.some.inj h
      rw [List.modify_zero_cons, List.countP_cons_of_pos rfl, List.countP_cons_of_neg (by simp)]
    | succ fut =>
      rw [List.modify_succ_cons, List.countP_cons, List.countP_cons, ih h]
      omega

theorem answeredCount_request {n : Nat} : (s.requestFrame c n).answeredCount = s.answeredCount := by
  simp [answeredCount, requestFrame]

theorem InBlock.answeredCount_le (h : s.InBlock c) : s.answeredCount ≤ c.frameCount := by
  obtain ⟨lo, hblock⟩ := h.exists_block
  exact Nat.le_trans List.countP_le_length hblock.inClip

theorem pipeSteps_lt (hblock : s.InBlock c) (hanswered : s.Answered answer) (hs : step z c .pipe s = some s') :
    s'.pipeSteps c answer < s.pipeSteps c answer ∧ s'.answeredCount = s.answeredCount := by
  have hto : PipeTo z c s .pipe s' := step_to hs
  cases hto with
  | headerRaises hphase | header hphase | noHeader hphase | returned hphase | resultRaises hphase | frameDone hphase
    | planeRaises hphase | plane hphase =>
    simp only [pipeSteps, hphase, List.length_cons, List.length_nil]
    exact ⟨by omega, rfl⟩
  | toFill hphase hn | toPop hphase hn =>
    have hnext := framesSteps_next answer hn
    simp only [pipeSteps, hphase]
    exact ⟨by omega, rfl⟩
  | fillDone hphase =>
    simp only [pipeSteps, hphase]
    exact ⟨by omega, rfl⟩
  | @fillRequest turns hphase hdone =>
    have hturns : turns < c.backlogCount := by
      rw [InBlock, hphase] at hblock
      obtain ⟨_, _, _, _, hturns⟩ := hblock
      exact Nat.lt_of_le_of_lt hturns (Nat.lt_of_not_le (fun hle => hdone (.inl hle)))
    refine ⟨?_, answeredCount_request⟩
    simp only [pipeSteps, hphase, requestFrame]
    omega
  | popped hphase =>
    simp only [pipeSteps, hphase]
    exact ⟨by omega, rfl⟩
  | popMissed hphase =>
    refine ⟨?_, answeredCount_request⟩
    simp only [pipeSteps, hphase, requestFrame]
    omega
  | @result fut header parts hphase hresult =>
    have hparts : frameParts c answer s.n = parts.length := by
      rw [frameParts, (hblock.isAnswer hanswered hphase hresult).eq]
    simp only [pipeSteps, hphase]
    exact ⟨by omega, rfl⟩

theorem stepsLeft_lt {l : PipeLabel} (hblock : s.InBlock c) (hanswered : s.Answered answer)
    (hs : step z c l s = some s') : s'.stepsLeft c answer < s.stepsLeft c answer := by
  cases l with
  | pipe =>
    obtain ⟨hlt, hcount⟩ := pipeSteps_lt hblock hanswered hs
    rw [stepsLeft, stepsLeft, hcount]
    omega
  | reply fut result =>
    have hle := (hblock.step hs).answeredCount_le
    have hto : PipeTo z c s (.reply fut result) s' := step_to hs
    cases hto with
    | reply hfut =>
      have hcount := countP_modify result hfut
      simp only [stepsLeft, pipeSteps, answeredCount] at hle ⊢
      omega
  | timeout =>
    have hto : PipeTo z c s .timeout s' := step_to hs
    cases hto with
    | timeout hphase =>
      simp only [stepsLeft, pipeSteps, hphase, answeredCount]
      omega

/-- The conditions that a run keeps while every request is answered. -/
structure Served (z : Zstd) (c : PipeCall) (answer : FrameRequest → Compression × List Bytes) (s : PipeState) : Prop where
  block : s.InBlock c
  answered : s.Answered answer
  plain : s.Plain z c answer

theorem Served.start : Served z c answer {} := by
  refine ⟨.start, ?_, rfl, rfl, rfl, rfl⟩
  intro f hf
  cases hf

theorem Served.step (s : PipeState) (l : PipeLabel) (s' : PipeState)
    (h : s.Served z c answer) (hc : s.Answers answer l) (hs : step z c l s = some s') : s'.Served z c answer :=
  ⟨h.block.step hs, h.answered.step hc hs, h.plain.step h.block h.answered hc hs⟩

/-- A pipe that has not ended goes on, if need be when the frame it waits for is answered. -/
theorem Served.goes_on (h : s.Served z c answer) :
    s.ended = true ∨ ∃ l t, s.Answers answer l ∧ PipeState.step z c l s = some t := by
  have hblock := h.block
  unfold InBlock at hblock
  cases hphase : s.phase with
  | returned | raised e => exact .inl (by rw [PipeState.ended, hphase])
  | wait fut =>
    rw [hphase] at hblock
    obtain ⟨hblock, _, _, rfl⟩ := hblock
    have hlt : s.n < s.futures.length := hblock.low
    obtain ⟨f, hf⟩ : ∃ f, s.futures[s.n]? = some f := ⟨_, List.getElem?_eq_getElem hlt⟩
    obtain ⟨request, result⟩ := f
    cases result with
    | some result =>
      refine .inr ⟨.pipe, s.stepResult c result, trivial, ?_⟩
      show s.stepPipe z c = _
      rw [stepPipe, hphase]
      simp only [hf, Option.bind_some, Option.map_some]
    | none =>
      let header : FrameHeader := ⟨.ok, 0, request.n, request.outputIndex, (answer request).1, [], [], ""⟩
      refine .inr ⟨.reply s.n (.ok (header, (answer request).2)), _, ?_, by rw [PipeState.step, hf]⟩
      intro f hf'
      rw [← Option.some.inj (hf.symm.trans hf')]
      exact ⟨header, rfl, rfl, rfl⟩
  | _ =>
    obtain ⟨t, ht⟩ : ∃ t, s.stepPipe z c = some t := by
      rw [stepPipe, hphase]
      exact ⟨_, rfl⟩
    exact .inr ⟨.pipe, t, trivial, ht⟩

/-- What is written at the end, and how it ends. -/
theorem Plain.ended (h : s.Plain z c answer) (hended : s.ended = true) :
    (s.stdout, s.phase) = plainPipe z c answer := by
  unfold Plain at h
  unfold PipeState.ended at hended
  cases hphase : s.phase with
  | returned =>
    rw [hphase] at h
    obtain ⟨hleads, hcurrent⟩ := h
    have hnothing : [({} : FrameWrites)].flatMap FrameWrites.bytes = [] := rfl
    rw [hleads, stdout, hcurrent, List.append_nil, List.flatMap_append, hnothing, List.append_nil]
  | raised e =>
    rw [hphase] at h
    exact h.symm
  | _ => rw [hphase] at hended; cases hended

theorem plainFrames_returned_iff {left n : Nat} :
    (plainFrames z c answer left n).2 = .returned ↔ ∀ k < left, frameError z c answer (n + k) = none := by
  induction left generalizing n with
  | zero => exact iff_of_true rfl nofun
  | succ left ih =>
    rw [plainFrames]
    cases he : frameError z c answer n with
    | some e =>
      refine iff_of_false nofun (fun hall => ?_)
      have hfirst := hall 0 (Nat.succ_pos _)
      rw [Nat.add_zero, he] at hfirst
      cases hfirst
    | none =>
      refine ih.trans ⟨fun hall k hk => ?_, fun hall k hk => ?_⟩
      · cases k with
        | zero => exact he
        | succ k =>
          have hk' := hall k (by omega)
          rwa [Nat.add_assoc, Nat.add_comm 1] at hk'
      · have hk' := hall (k + 1) (by omega)
        rwa [Nat.add_comm k, ← Nat.add_assoc] at hk'

/-- The plain pipe comes to its end where the clip has a header and every part decompresses. -/
theorem plainPipe_returned_iff : (plainPipe z c answer).2 = .returned ↔
    (c.y4m = true → ∃ header, getY4mHeader c.info = .ok header) ∧
      ∀ n < c.frameCount, frameError z c answer n = none := by
  have hstream : ∀ header, (plainStream z c answer header).2 = .returned ↔
      ∀ n < c.frameCount, frameError z c answer n = none := by
    intro header
    refine plainFrames_returned_iff.trans ?_
    simp only [Nat.zero_add]
  unfold plainPipe
  by_cases hy4m : c.y4m = true
  · rw [if_pos hy4m]
    cases hheader : getY4mHeader c.info with
    | error e => exact iff_of_false nofun (fun h => by obtain ⟨_, hnot⟩ := h.1 hy4m; cases hnot)
    | ok header => exact (hstream header).trans (and_iff_right (fun _ => ⟨header, rfl⟩)).symm
  · rw [if_neg hy4m]
    exact (hstream []).trans (and_iff_right (fun h => absurd h hy4m)).symm

/-- `c` without prefetching. -/
def unprefetched (c : PipeCall) : PipeCall := { c with prefetch := 0 }

theorem plainPipe_unprefetched : plainPipe z (unprefetched c) answer = plainPipe z c answer := by
  have hframes : ∀ left n, plainFrames z (unprefetched c) answer left n = plainFrames z c answer left n := by
    intro left
    induction left with
    | zero => exact fun _ => rfl
    | succ left ih =>
      intro n
      rw [plainFrames, plainFrames, ih]
      rfl
  have hstream : plainStream z (unprefetched c) answer = plainStream z c answer := by
    funext header
    rw [plainStream, plainStream, hframes]
    rfl
  rw [plainPipe, plainPipe, hstream]
  rfl

/-- What prefetching leaves as it is, and the bounds it keeps: the requests, those
that are unanswered or unread, the `while` loop, the end, and what is written. -/
theorem pipe_independent_of_prefetch {ls : List PipeLabel}
    (hg : Runs.Guarded (step z c) (Answers answer) ls {}) (hr : Runs.run (step z c) ls {} = some s) :
    (s.futures.length ≤ c.frameCount ∧
      s.futures.map PipeFuture.request = (List.range s.futures.length).map c.frameRequest) ∧
    s.futures.length - s.results.length ≤ maxOutstanding c ∧
    (∀ turns, s.phase = .fill turns → ∃ k ≤ c.backlogCount + 1 - turns, ∃ t,
      Runs.run (step z c) (List.replicate k .pipe) s = some t ∧ t.phase = .pop ∧ t.n = s.n) ∧
    ls.length ≤ stepsLeft c answer {} ∧
    (∃ more t, Runs.Guarded (step z c) (Answers answer) more s ∧ Runs.run (step z c) more s = some t ∧
      t.ended = true) ∧
    (s.ended = true →
      (s.stdout, s.phase) = plainPipe z c answer ∧
      (s.phase = .returned ↔ (c.y4m = true → ∃ header, getY4mHeader c.info = .ok header) ∧
        ∀ n < c.frameCount, frameError z c answer n = none) ∧
      (s.phase = .returned → s.futures.map PipeFuture.request = (List.range c.frameCount).map c.frameRequest) ∧
      ∀ ls' s', Runs.Guarded (step z (unprefetched c)) (Answers answer) ls' {} →
        Runs.run (step z (unprefetched c)) ls' {} = some s' → s'.ended = true →
        s.stdout = s'.stdout ∧ s.phase = s'.phase) := by
  have hserved : s.Served z c answer := hg.inv Served.step .start hr
  obtain ⟨lo, hblock⟩ := hserved.block.exists_block
  have hwindow := hblock.window
  have hbound := hg.length_le (m := stepsLeft c answer) Served.step
    (fun _ _ _ h _ hs => stepsLeft_lt h.block h.answered hs) .start hr
  refine ⟨⟨hblock.inClip, hblock.requested⟩, by omega, fun turns => hserved.block.fill_ends z, by omega,
    Runs.Guarded.exists_done (m := stepsLeft c answer) Served.step
      (fun _ _ _ h _ hs => stepsLeft_lt h.block h.answered hs) (fun _ h => h.goes_on) hserved, fun hended => ?_⟩
  have hplain := hserved.plain.ended hended
  refine ⟨hplain, ?_, fun hphase => ?_, fun ls' s' hg' hr' hended' => ?_⟩
  · rw [← plainPipe_returned_iff, ← hplain]
  · rw [hblock.requested, hserved.block.returned hphase]
  · have hserved' : s'.Served z (unprefetched c) answer := hg'.inv Served.step .start hr'
    have hplain' := hserved'.plain.ended hended'
    rw [plainPipe_unprefetched, ← hplain] at hplain'
    exact Prod.mk.inj hplain'.symm

def twoFrames : PipeCall := { info := { grayInfo with numFrames := 2 }, prefetch := 1, compression := .none }

def frameNumbers (request : FrameRequest) : Compression × List Bytes := (.none, [[UInt8.ofNat request.n.toNat]])

/-- The second frame is answered first. -/
def outOfOrder : List PipeLabel :=
  List.replicate 6 .pipe ++ ([.reply 1 (.ok (onePixelHeader, [[1]])), .reply 0 (.ok (onePixelHeader, [[0]]))] ++
    List.replicate 10 .pipe)

theorem pipe_independent_of_prefetch_outOfOrder : ∃ s, Runs.run (step ⟨id, .ok⟩ twoFrames) outOfOrder {} = some s ∧
    s.stdout = [0, 1] ∧ (s.stdout, s.phase) = plainPipe ⟨id, .ok⟩ twoFrames frameNumbers := by
  have hpipes : ∀ k s, Runs.Guarded (step ⟨id, .ok⟩ twoFrames) (Answers frameNumbers) (List.replicate k .pipe) s := by
    intro k s
    refine Runs.Guarded.of_mem (fun l hl s => ?_)
    rw [List.eq_of_mem_replicate hl]
    trivial
  have hguarded : Runs.Guarded (step ⟨id, .ok⟩ twoFrames) (Answers frameNumbers) outOfOrder {} := by
    refine (hpipes 6 {}).append rfl ⟨?_, fun s hs => ⟨?_, fun s' hs' => hpipes 10 s'⟩⟩
    · rintro f hf
      rw [← Option.some.inj hf]
      exact ⟨onePixelHeader, rfl, rfl, rfl⟩
    · rintro f hf
      rw [← Option.some.inj hs] at hf
      rw [← Option.some.inj hf]
      exact ⟨onePixelHeader, rfl, rfl, rfl⟩
  refine ⟨_, rfl, rfl, ?_⟩
  exact ((pipe_independent_of_prefetch hguarded rfl).2.2.2.2.2 rfl).1

end PipeState

end VsRemote
