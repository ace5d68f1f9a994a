import VsRemote.Pipe

/-! What `pipe` asks for: every frame once and in order, whatever is prefetched.
The keys of its map are always one block of frame numbers from `n` on. -/

namespace VsRemote

namespace PipeState

/-- Frames `lo` to `hi - 1` are in the map, each with its future, in order. -/
def IsBlock (d : OrderedDict Nat Nat) (lo hi : Nat) : Prop :=
  d.entries = (List.range' lo (hi - lo)).map (fun k => (k, k))

section

variable {d : OrderedDict Nat Nat} {lo hi : Nat}

theorem IsBlock.size (h : IsBlock d lo hi) : d.size = hi - lo := by
  rw [OrderedDict.size, h, List.length_map, List.length_range']

theorem IsBlock.keys (h : IsBlock d lo hi) : d.keys = List.range' lo (hi - lo) := by
  rw [OrderedDict.keys, h, List.map_map]
  exact List.map_id _

theorem IsBlock.mem_keys (h : IsBlock d lo hi) {k : Nat} : k ∈ d.keys ↔ lo ≤ k ∧ k < hi := by
  rw [h.keys, List.mem_range'_1]
  omega

theorem IsBlock.get? (h : IsBlock d lo hi) {k : Nat} (hlo : lo ≤ k) (hhi : k < hi) : d.get? k = some k := by
  refine OrderedDict.get?_of_mem_entries ?_
  rw [h, List.mem_map]
  exact ⟨k, List.mem_range'_1.2 (by omega), rfl⟩

theorem IsBlock.set (h : IsBlock d lo hi) (hle : lo ≤ hi) : IsBlock (d.set hi hi) lo (hi + 1) := by
  have hnew : hi ∉ d.keys := fun hmem => absurd (h.mem_keys.1 hmem).2 (Nat.lt_irrefl hi)
  have hlength : hi + 1 - lo = hi - lo + 1 := by omega
  have hlast : lo + (hi - lo) = hi := by omega
  rw [IsBlock, OrderedDict.entries_set, if_neg hnew, h, hlength, List.range'_1_concat, hlast, List.map_append]
  rfl

theorem IsBlock.erase (h : IsBlock d lo hi) (hlt : lo < hi) : IsBlock (d.erase lo) (lo + 1) hi := by
  have hlength : hi - lo = hi - (lo + 1) + 1 := by omega
  have hrest : ∀ e ∈ (List.range' (lo + 1) (hi - (lo + 1))).map (fun k => (k, k)), decide (e.1 ≠ lo) = true := by
    intro e he
    obtain ⟨k, hk, rfl⟩ := List.mem_map.1 he
    have hgt : lo + 1 ≤ k := (List.mem_range'_1.1 hk).1
    exact decide_eq_true (show k ≠ lo by omega)
  show d.entries.filter _ = _
  rw [h, hlength, List.range'_succ, List.map_cons, List.filter_cons_of_neg (by simp), List.filter_eq_self.2 hrest]

theorem IsBlock.nil : IsBlock .empty lo lo := by
  rw [IsBlock, Nat.sub_self]
  rfl

end

/-- How many requests may be unanswered or unread at one time. -/
def maxOutstanding (c : PipeCall) : Nat :=
  if 0 < c.prefetchCount then min c.backlogCount (c.prefetchCount + 1) else 1

/-- Frames `0` to `futures.length - 1` are requested in order, and those from
`lo` on are in the map. -/
structure Block (c : PipeCall) (lo : Nat) (s : PipeState) : Prop where
  requested : s.futures.map PipeFuture.request = (List.range s.futures.length).map c.frameRequest
  inClip : s.futures.length ≤ c.frameCount
  window : s.futures.length ≤ s.results.length + maxOutstanding c
  low : lo ≤ s.futures.length
  block : IsBlock s.inflight lo s.futures.length

/-- The block at each place of `pipe`, with what its tests there have given. -/
def InBlock (c : PipeCall) (s : PipeState) : Prop :=
  match s.phase with
  | .header | .loop => s.Block c s.n ∧ s.results.length = s.n
  | .fill turns => s.Block c s.n ∧ s.results.length = s.n ∧ s.n < c.frameCount ∧ 0 < c.prefetchCount ∧
      turns ≤ s.inflight.size
  | .pop => s.Block c s.n ∧ s.results.length = s.n ∧ s.n < c.frameCount
  | .wait fut => s.Block c (s.n + 1) ∧ s.results.length = s.n ∧ s.n < c.frameCount ∧ fut = s.n
  | .planes _ _ => s.Block c (s.n + 1) ∧ s.results.length = s.n + 1 ∧ s.n < c.frameCount
  | .returned => s.Block c s.n ∧ s.results.length = s.n ∧ c.frameCount ≤ s.n
  | .raised _ => ∃ lo, s.Block c lo

variable {z : Zstd} {c : PipeCall} {s s' : PipeState} {lo : Nat}

theorem maxOutstanding_pos : 0 < maxOutstanding c := by
  unfold maxOutstanding PipeCall.backlogCount
  split <;> omega

theorem Block.of_eq (h : s.Block c lo) (hfutures : s'.futures.map PipeFuture.request = s.futures.map PipeFuture.request)
    (hinflight : s'.inflight = s.inflight) (hresults : s.results.length ≤ s'.results.length) : s'.Block c lo := by
  have hlength : s'.futures.length = s.futures.length := by
    have hlen := congrArg List.length hfutures
    rwa [List.length_map, List.length_map] at hlen
  obtain ⟨hrequested, hclip, hwindow, hlow, hblock⟩ := h
  refine ⟨?_, ?_, ?_, ?_, ?_⟩
  · rw [hfutures, hlength, hrequested]
  · omega
  · omega
  · omega
  · rwa [hinflight, hlength]

theorem map_request_modify {futures : List PipeFuture} {fut : Nat} {result : FrameResult} :
    (futures.modify fut (fun f => { f with result := some result })).map PipeFuture.request =
      futures.map PipeFuture.request := by
  refine List.ext_getElem? (fun i => ?_)
  rw [List.getElem?_map, List.getElem?_map, List.getElem?_modify]
  by_cases hi : fut = i
  · simp only [hi, if_true, Option.map_eq_map, Option.map_map]
    rfl
  · simp only [hi, if_false, Option.map_eq_map, Option.map_map]
    rfl

/-- One more request, for the frame after the last. -/
theorem Block.request {lo' : Nat} (h : s.Block c lo)
    (hfutures : s'.futures = s.futures ++ [⟨c.frameRequest s.futures.length, none⟩]) (hresults : s'.results = s.results)
    (hclip : s.futures.length < c.frameCount) (hwindow : s.futures.length < s.results.length + maxOutstanding c)
    (hlow : lo' ≤ s.futures.length + 1) (hblock : IsBlock s'.inflight lo' (s.futures.length + 1)) : s'.Block c lo' := by
  have hlength : s'.futures.length = s.futures.length + 1 := by rw [hfutures, List.length_append, List.length_singleton]
  refine ⟨?_, by omega, by rw [hresults]; omega, by omega, hlength ▸ hblock⟩
  rw [hlength, hfutures, List.map_append, h.requested, List.range_succ, List.map_append]
  rfl

theorem Block.size (h : s.Block c lo) : s.inflight.size = s.futures.length - lo := h.block.size

/-- A turn of the `while` loop asks for the frame after the block. -/
theorem Block.fill (turns : Nat) (h : s.Block c s.n) (hresults : s.results.length = s.n) (hprefetch : 0 < c.prefetchCount)
    (hdone : ¬ s.FillDone c) :
    Block c s.n { s.requestFrame c (s.n + s.inflight.size) with
      inflight := s.inflight.set (s.n + s.inflight.size) s.futures.length
      phase := .fill (turns + 1) } := by
  have hlow := h.low
  have hnext : s.n + s.inflight.size = s.futures.length := by rw [h.size]; omega
  have hbacklog : s.inflight.size < c.backlogCount := Nat.lt_of_not_le (fun hle => hdone (.inl hle))
  have hclip : s.n + s.inflight.size < c.frameCount := Nat.lt_of_not_le (fun hle => hdone (.inr (.inl hle)))
  have hahead : s.inflight.size ≤ c.prefetchCount := Nat.le_of_not_lt (fun hlt => hdone (.inr (.inr (.inl hlt))))
  have hmax : s.inflight.size < maxOutstanding c := by
    rw [maxOutstanding, if_pos hprefetch]
    omega
  rw [hnext] at hclip ⊢
  exact h.request rfl rfl hclip (by omega) (by omega) (h.block.set hlow)

theorem Block.popped {fut : Nat} (h : s.Block c s.n) (hfut : s.inflight.get? s.n = some fut) :
    fut = s.n ∧ Block c (s.n + 1) { s with inflight := s.inflight.erase s.n, phase := .wait fut } := by
  have hlt : s.n < s.futures.length := (h.block.mem_keys.1 (OrderedDict.mem_keys_of_get? hfut)).2
  have hown := h.block.get? (Nat.le_refl _) hlt
  refine ⟨Option.some.inj (hfut.symm.trans hown), h.requested, h.inClip, h.window, hlt, h.block.erase hlt⟩

theorem Block.popMissed (h : s.Block c s.n) (hresults : s.results.length = s.n) (hn : s.n < c.frameCount)
    (hnone : s.inflight.get? s.n = none) :
    s.futures.length = s.n ∧ Block c (s.n + 1) { s.requestFrame c s.n with phase := .wait s.futures.length } := by
  have hlow := h.low
  have hlength : s.futures.length = s.n := by
    by_contra hne
    have hin := h.block.get? (Nat.le_refl _) (show s.n < s.futures.length by omega)
    rw [hnone] at hin
    cases hin
  have hpos : 0 < maxOutstanding c := maxOutstanding_pos
  have hblock : IsBlock s.inflight (s.n + 1) (s.futures.length + 1) := by
    have hnil := h.block
    rw [IsBlock, hlength, Nat.sub_self] at hnil
    rw [IsBlock, hnil, hlength, Nat.sub_self]
    rfl
  refine ⟨hlength, ?_⟩
  have hmissed : Block c (s.n + 1) { s.requestFrame c s.futures.length with phase := .wait s.futures.length } :=
    h.request rfl rfl (by omega) (by omega) (by omega) hblock
  rwa [hlength] at hmissed ⊢

theorem InBlock.step {l : PipeLabel} (h : s.InBlock c) (hs : step z c l s = some s') : s'.InBlock c := by
  have hto : PipeTo z c s l s' := step_to hs
  unfold InBlock at h
  cases hto with
  | headerRaises hphase =>
    rw [hphase] at h
    exact ⟨_, h.1.of_eq rfl rfl (Nat.le_refl _)⟩
  | header hphase | noHeader hphase =>
    rw [hphase] at h
    exact ⟨h.1.of_eq rfl rfl (Nat.le_refl _), h.2⟩
  | toFill hphase hn hprefetch =>
    rw [hphase] at h
    exact ⟨h.1.of_eq rfl rfl (Nat.le_refl _), h.2, hn, hprefetch, Nat.zero_le _⟩
  | toPop hphase hn | returned hphase hn =>
    rw [hphase] at h
    exact ⟨h.1.of_eq rfl rfl (Nat.le_refl _), h.2, hn⟩
  | fillDone hphase =>
    rw [hphase] at h
    exact ⟨h.1.of_eq rfl rfl (Nat.le_refl _), h.2.1, h.2.2.1⟩
  | @fillRequest turns hphase hdone =>
    rw [hphase] at h
    obtain ⟨hblock, hresults, hn, hprefetch, hturns⟩ := h
    have hfilled := hblock.fill turns hresults hprefetch hdone
    refine ⟨hfilled, hresults, hn, hprefetch, ?_⟩
    have hlow := hblock.low
    rw [hfilled.size]
    rw [hblock.size] at hturns
    show turns + 1 ≤ (s.futures ++ [_]).length - s.n
    rw [List.length_append, List.length_singleton]
    omega
  | popped hphase hfut =>
    rw [hphase] at h
    obtain ⟨hblock, hresults, hn⟩ := h
    obtain ⟨hown, hpopped⟩ := hblock.popped hfut
    exact ⟨hpopped, hresults, hn, hown⟩
  | popMissed hphase hnone =>
    rw [hphase] at h
    obtain ⟨hblock, hresults, hn⟩ := h
    obtain ⟨hown, hmissed⟩ := hblock.popMissed hresults hn hnone
    exact ⟨hmissed, hresults, hn, hown⟩
  | resultRaises hphase =>
    rw [hphase] at h
    refine ⟨_, h.1.of_eq rfl rfl ?_⟩
    simp only [List.length_append, Nat.le_add_right]
  | result hphase =>
    rw [hphase] at h
    refine ⟨h.1.of_eq rfl rfl ?_, ?_, h.2.2.1⟩
    · simp only [List.length_append, Nat.le_add_right]
    · rw [List.length_append, h.2.1, List.length_singleton]
  | frameDone hphase =>
    rw [hphase] at h
    exact ⟨h.1.of_eq rfl rfl (Nat.le_refl _), h.2.1⟩
  | planeRaises hphase | timeout hphase =>
    rw [hphase] at h
    exact ⟨_, h.1.of_eq rfl rfl (Nat.le_refl _)⟩
  | plane hphase =>
    rw [hphase] at h
    exact ⟨h.1.of_eq rfl rfl (Nat.le_refl _), h.2⟩
  | @reply fut request result hfut =>
    have hsame : (s.futures.modify fut (fun f => { f with result := some result })).map PipeFuture.request =
        s.futures.map PipeFuture.request := map_request_modify
    cases hphase : s.phase with
    | raised e =>
      rw [hphase] at h
      exact ⟨_, h.choose_spec.of_eq hsame rfl (Nat.le_refl _)⟩
    | _ =>
      rw [hphase] at h
      exact ⟨h.1.of_eq hsame rfl (Nat.le_refl _), h.2⟩

theorem InBlock.start : InBlock c {} := by
  refine ⟨⟨rfl, Nat.zero_le _, Nat.zero_le _, Nat.zero_le _, ?_⟩, rfl⟩
  exact IsBlock.nil

theorem InBlock.exists_block (h : s.InBlock c) : ∃ lo, s.Block c lo := by
  unfold InBlock at h
  cases hphase : s.phase with
  | raised e => rwa [hphase] at h
  | _ => rw [hphase] at h; exact ⟨_, h.1⟩

/-- The requests of a pipe that has come to its end are those of all frames. -/
theorem InBlock.returned (h : s.InBlock c) (hphase : s.phase = .returned) : s.futures.length = c.frameCount := by
  rw [InBlock, hphase] at h
  obtain ⟨hblock, _, hn⟩ := h
  have hlow := hblock.low
  have hclip := hblock.inClip
  omega

theorem InBlock.turns_le {turns : Nat} (h : s.InBlock c) (hphase : s.phase = .fill turns) : turns ≤ c.backlogCount := by
  rw [InBlock, hphase] at h
  obtain ⟨hblock, hresults, _, hprefetch, hturns⟩ := h
  have hwindow := hblock.window
  have hsize := hblock.size
  rw [maxOutstanding, if_pos hprefetch] at hwindow
  omega

theorem stepFill_phase (c : PipeCall) (s : PipeState) (turns : Nat) : (s.stepFill c turns).n = s.n ∧
    ((s.stepFill c turns).phase = .pop ∨ (s.stepFill c turns).phase = .fill (turns + 1)) := by
  simp only [stepFill, requestFrame]
  split_ifs <;> simp

/-- The `while` loop ends, on whatever turn it is. -/
theorem InBlock.fill_ends (z : Zstd) {turns : Nat} (h : s.InBlock c) (hphase : s.phase = .fill turns) :
    ∃ k ≤ c.backlogCount + 1 - turns, ∃ t, Runs.run (PipeState.step z c) (List.replicate k .pipe) s = some t ∧
      t.phase = .pop ∧ t.n = s.n := by
  have hturns := h.turns_le hphase
  induction hleft : c.backlogCount + 1 - turns generalizing s turns with
  | zero => omega
  | succ left ih =>
    have hs : PipeState.step z c .pipe s = some (s.stepFill c turns) := by
      show s.stepPipe z c = _
      rw [stepPipe, hphase]
    obtain ⟨hn, hpop | hfill⟩ := stepFill_phase c s turns
    · exact ⟨1, by omega, _, by rw [List.replicate_one, Runs.run, hs]; rfl, hpop, hn⟩
    · have hnext := h.step hs
      obtain ⟨k, hk, t, hr, hpop, hsame⟩ := ih hnext hfill (hnext.turns_le hfill) (by omega)
      refine ⟨k + 1, by omega, t, ?_, hpop, hsame.trans hn⟩
      rw [List.replicate_succ, Runs.run, hs]
      exact hr

end PipeState

end VsRemote
