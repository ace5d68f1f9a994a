import Mathlib.Tactic.NormNum
import VsRemote.Codec
import VsRemote.Lib.StridedCopy

/-! `copy_plane` of the native extension as a release build runs it: debug
assertions are off and `usize` arithmetic wraps. -/

namespace VsRemote

/-- Conversion of a Python `int` to `usize`. -/
def usizeArg (n : Int) : Except PyExc Nat :=
  if n < 0 then .error (.ofText .overflowError "can't convert negative int to unsigned")
  else if n < 2 ^ 64 then .ok n.toNat
  else .error (.ofText .overflowError "int too big to convert")

def isizeArg (n : Int) : Except PyExc Int :=
  if -2 ^ 63 ≤ n ∧ n < 2 ^ 63 then .ok n
  else .error (.ofText .overflowError "Python int too large to convert to C ssize_t")

def castSigned (n : Nat) : Int := if n < 2 ^ 63 then n else n - 2 ^ 64

/-- `dst.wrapping_offset(stride)`. -/
def wrappingOffset (addr : Nat) (stride : Int) : Nat := ((addr + stride) % 2 ^ 64).toNat

/-- One `copy_nonoverlapping`: `len` bytes from index `src` of the decompressed
part to the address `dst`. -/
structure CopyOp where
  src : Nat
  dst : Nat
  len : Nat
  deriving DecidableEq, Repr

def rowCopies (rowSize : Nat) (stride : Int) : Nat → Nat → Nat → List CopyOp
  | 0, _, _ => []
  | height + 1, src, dst =>
    ⟨src, dst, rowSize⟩ :: rowCopies rowSize stride height (src + rowSize) (wrappingOffset dst stride)

def planeCopies (dstAddr width height bps : Nat) (stride : Int) : List CopyOp :=
  let rowSize := width * bps % 2 ^ 64
  if stride = castSigned rowSize then [⟨0, dstAddr, rowSize * height % 2 ^ 64⟩]
  else rowCopies rowSize stride height 0 dstAddr

def copyPlane (dstAddr : Option Nat) (width height bps stride : Int) : Except PyExc (List CopyOp) := do
  let width ← usizeArg width
  let height ← usizeArg height
  let bps ← usizeArg bps
  let stride ← isizeArg stride
  match dstAddr.filter (· ≠ 0) with
  | some addr => pure (planeCopies addr width height bps stride)
  | none => .error (.ofText .valueError "dst_addr must be a non-null pointer")

def CopyOp.apply (decompressed : Bytes) (mem : Nat → UInt8) (op : CopyOp) : Nat → UInt8 :=
  Strided.blit mem op.dst op.len (fun x => decompressed.getD (op.src + x) 0)

def runCopies (decompressed : Bytes) (ops : List CopyOp) (mem : Nat → UInt8) : Nat → UInt8 :=
  ops.foldl (fun mem op => op.apply decompressed mem) mem

/-- A plane of a local frame: `height` rows `stride` bytes apart in one allocation. -/
structure FramePlane where
  ptr : Nat
  stride : Nat
  height : Nat
  notNull : 0 < ptr
  ptrFits : ptr < 2 ^ 64
  strideFits : stride < 2 ^ 63
  sizeFits : stride * height < 2 ^ 63
  inSpace : ptr + stride * height ≤ 2 ^ 64

def FramePlane.size (plane : FramePlane) : Nat := plane.stride * plane.height

/-- Every index read lies in the part and every address written in the plane. -/
def CopyOp.InBounds (op : CopyOp) (len : Nat) (plane : FramePlane) : Prop :=
  ∀ x < op.len, op.src + x < len ∧ plane.ptr ≤ op.dst + x ∧ op.dst + x < plane.ptr + plane.size

section

variable {op : CopyOp} {len : Nat} {plane : FramePlane}

theorem CopyOp.inBounds_iff : op.InBounds len plane ↔
    op.len = 0 ∨ (op.src + op.len ≤ len ∧ plane.ptr ≤ op.dst ∧ op.dst + op.len ≤ plane.ptr + plane.size) := by
  constructor
  · intro h
    by_cases hlen : op.len = 0
    · exact .inl hlen
    · have hfirst := h 0 (by omega)
      have hlast := h (op.len - 1) (by omega)
      exact .inr ⟨by omega, by omega, by omega⟩
  · rintro (hlen | ⟨hread, hlo, hhi⟩) x hx
    · omega
    · exact ⟨by omega, by omega, by omega⟩

theorem castSigned_eq_stride {rowSize : Nat} (hrow : rowSize < 2 ^ 64) :
    (plane.stride : Int) = castSigned rowSize ↔ plane.stride = rowSize := by
  have hs := plane.strideFits
  unfold castSigned
  by_cases hlt : rowSize < 2 ^ 63
  · rw [if_pos hlt]
    omega
  · rw [if_neg hlt]
    omega

theorem wrappingOffset_eq {addr stride : Nat} (h : addr + stride < 2 ^ 64) :
    wrappingOffset addr stride = addr + stride := by
  unfold wrappingOffset
  omega

theorem wrappingOffset_wraps {addr stride : Nat} (haddr : addr < 2 ^ 64) (hs : stride < 2 ^ 63)
    (h : 2 ^ 64 ≤ addr + stride) : wrappingOffset addr stride = addr + stride - 2 ^ 64 := by
  unfold wrappingOffset
  omega

/-- The row loop stays in bounds exactly when its last row does; an address that
wraps around falls below the plane. -/
theorem rowCopies_inBounds_iff {rowSize height src dst : Nat} (hrow : 0 < rowSize)
    (hlo : plane.ptr ≤ dst) :
    (∀ op ∈ rowCopies rowSize plane.stride (height + 1) src dst, op.InBounds len plane) ↔
      src + rowSize * (height + 1) ≤ len ∧
        dst + plane.stride * height + rowSize ≤ plane.ptr + plane.size := by
  have hspace : plane.ptr + plane.size ≤ 2 ^ 64 := plane.inSpace
  have hsize : plane.size < 2 ^ 63 := plane.sizeFits
  have hstride := plane.strideFits
  induction height generalizing src dst with
  | zero =>
    simp only [rowCopies, List.mem_singleton, forall_eq, CopyOp.inBounds_iff]
    omega
  | succ n ih =>
    rw [rowCopies, List.forall_mem_cons, CopyOp.inBounds_iff]
    simp only
    have hmul : plane.stride * (n + 1) = plane.stride + plane.stride * n := by
      rw [Nat.mul_add, Nat.mul_one, Nat.add_comm]
    have hmul' : rowSize * (n + 1 + 1) = rowSize + rowSize * (n + 1) := by
      rw [Nat.mul_add _ (n + 1), Nat.mul_one, Nat.add_comm]
    by_cases hwrap : dst + plane.stride < 2 ^ 64
    · have hlo' : plane.ptr ≤ dst + plane.stride := by omega
      have hrest := @ih (src + rowSize) (dst + plane.stride) hlo'
      rw [wrappingOffset_eq hwrap]
      constructor
      · rintro ⟨-, htail⟩
        obtain ⟨hread, hwrite⟩ := hrest.1 htail
        exact ⟨by omega, by omega⟩
      · rintro ⟨hread, hwrite⟩
        exact ⟨.inr ⟨by omega, hlo, by omega⟩, hrest.2 ⟨by omega, by omega⟩⟩
    · constructor
      · rintro ⟨hhead, htail⟩
        have hdst : dst < 2 ^ 64 := by omega
        rw [wrappingOffset_wraps hdst hstride (by omega), rowCopies, List.forall_mem_cons,
          CopyOp.inBounds_iff] at htail
        simp only at htail
        omega
      · rintro ⟨-, hwrite⟩
        omega

/-- What the arguments must satisfy, with the products as the code computes them. -/
def PlaneFits (len : Nat) (plane : FramePlane) (width height bps : Nat) : Prop :=
  let rowSize := width * bps % 2 ^ 64
  if plane.stride = rowSize then
    rowSize * height % 2 ^ 64 ≤ len ∧ rowSize * height % 2 ^ 64 ≤ plane.size
  else
    rowSize = 0 ∨ height = 0 ∨
      (rowSize * height ≤ len ∧ plane.stride * (height - 1) + rowSize ≤ plane.size)

theorem planeCopies_inBounds_iff {width height bps : Nat} :
    (∀ op ∈ planeCopies plane.ptr width height bps plane.stride, op.InBounds len plane) ↔
      PlaneFits len plane width height bps := by
  have hrow : width * bps % 2 ^ 64 < 2 ^ 64 := Nat.mod_lt _ (by norm_num)
  unfold planeCopies PlaneFits
  generalize width * bps % 2 ^ 64 = rowSize at hrow
  simp only [castSigned_eq_stride hrow]
  by_cases hbulk : plane.stride = rowSize
  · simp only [if_pos hbulk, List.mem_singleton, forall_eq, CopyOp.inBounds_iff]
    omega
  · simp only [if_neg hbulk]
    by_cases hzero : rowSize = 0
    · subst hzero
      have hempty : ∀ height src dst, ∀ op ∈ rowCopies 0 plane.stride height src dst,
          op.InBounds len plane := by
        intro height
        induction height with
        | zero => exact fun _ _ op hop => absurd hop List.not_mem_nil
        | succ n ih =>
          intro src dst
          rw [rowCopies, List.forall_mem_cons]
          exact ⟨CopyOp.inBounds_iff.2 (.inl rfl), ih _ _⟩
      exact iff_of_true (hempty height 0 plane.ptr) (.inl rfl)
    · cases height with
      | zero => exact iff_of_true (fun op hop => absurd hop List.not_mem_nil) (.inr (.inl rfl))
      | succ n =>
        rw [rowCopies_inBounds_iff (by omega) le_rfl]
        simp only [Nat.add_sub_cancel]
        omega

/-- A part with all the rows, into a plane that has room for them. -/
theorem planeFits_of_rows {width height bps : Nat} (hlen : width * bps * height ≤ len)
    (hfits : width * bps < 2 ^ 64) (hrow : width * bps ≤ plane.stride) (hheight : height ≤ plane.height) :
    PlaneFits len plane width height bps := by
  have hsize : plane.size < 2 ^ 63 := plane.sizeFits
  have hrows : plane.stride * height ≤ plane.size := Nat.mul_le_mul_left plane.stride hheight
  unfold PlaneFits
  simp only [Nat.mod_eq_of_lt hfits]
  generalize width * bps = rowSize at *
  split
  · next hbulk =>
    rw [hbulk] at hrows
    have hmod := Nat.mod_le (rowSize * height) (2 ^ 64)
    omega
  · cases height with
    | zero => exact .inr (.inl rfl)
    | succ n =>
      refine .inr (.inr ⟨hlen, ?_⟩)
      rw [Nat.mul_add, Nat.mul_one] at hrows
      simp only [Nat.add_sub_cancel]
      omega

end

end VsRemote
