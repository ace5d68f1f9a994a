import Mathlib.Algebra.Group.Nat.Defs
import Mathlib.Algebra.Order.Ring.Nat

/-! Copying rows into a memory in which they lie a stride apart. A memory and a
source are functions of the address. -/

namespace Strided

variable {α : Type}

/-- `len` cells of `src` to the address `dst`. -/
def blit (mem : Nat → α) (dst len : Nat) (src : Nat → α) : Nat → α :=
  fun a => if dst ≤ a ∧ a < dst + len then src (a - dst) else mem a

/-- `n` packed rows of `src`, the first one to `dst`. -/
def copyRows (mem : Nat → α) (dst row stride : Nat) (src : Nat → α) : Nat → Nat → α
  | 0 => mem
  | n + 1 => blit (copyRows mem dst row stride src n) (dst + n * stride) row (fun x => src (n * row + x))

variable {mem src : Nat → α} {dst row stride n a : Nat}

theorem blit_at {len x : Nat} (hx : x < len) : blit mem dst len src (dst + x) = src x := by
  have hin : dst ≤ dst + x ∧ dst + x < dst + len := by omega
  rw [blit, if_pos hin, Nat.add_sub_cancel_left]

theorem blit_frame {len : Nat} (ha : ¬ (dst ≤ a ∧ a < dst + len)) : blit mem dst len src a = mem a := by
  rw [blit, if_neg ha]

/-- Rows that do not overlap stay as they were copied. -/
theorem copyRows_at {x y : Nat} (hrow : row ≤ stride) (hy : y < n) (hx : x < row) :
    copyRows mem dst row stride src n (dst + y * stride + x) = src (y * row + x) := by
  induction n with
  | zero => omega
  | succ n ih =>
    rw [copyRows]
    by_cases hlast : y = n
    · subst hlast
      exact blit_at hx
    · have hlt : y < n := by omega
      have hbelow : (y + 1) * stride ≤ n * stride := Nat.mul_le_mul_right stride hlt
      have hout : ¬ (dst + n * stride ≤ dst + y * stride + x ∧ dst + y * stride + x < dst + n * stride + row) := by
        rw [Nat.add_mul] at hbelow
        omega
      rw [blit_frame hout]
      exact ih hlt

theorem copyRows_frame (ha : ∀ x y, y < n → x < row → a ≠ dst + y * stride + x) :
    copyRows mem dst row stride src n a = mem a := by
  induction n with
  | zero => rfl
  | succ n ih =>
    rw [copyRows, blit_frame]
    · exact ih (fun x y hy hx => ha x y (by omega) hx)
    · rintro ⟨hle, hlt⟩
      exact ha (a - (dst + n * stride)) n (by omega) (by omega) (by omega)

theorem copyRows_cons : copyRows mem dst row stride src (n + 1) =
    copyRows (blit mem dst row src) (dst + stride) row stride (fun i => src (row + i)) n := by
  induction n with
  | zero =>
    funext a
    simp [copyRows]
  | succ n ih =>
    have hdst : dst + (n + 1) * stride = dst + stride + n * stride := by
      rw [Nat.add_mul, Nat.one_mul]
      omega
    have hsrc : ∀ x, (n + 1) * row + x = row + (n * row + x) := by
      intro x
      rw [Nat.add_mul, Nat.one_mul]
      omega
    rw [copyRows, ih, copyRows, hdst]
    simp only [hsrc]

/-- Without padding the rows are one block. -/
theorem copyRows_packed : copyRows mem dst row row src n = blit mem dst (row * n) src := by
  funext a
  by_cases ha : dst ≤ a ∧ a < dst + row * n
  · obtain ⟨x, rfl⟩ := Nat.exists_eq_add_of_le ha.1
    have hx : x < row * n := by omega
    have hpos : 0 < row := Nat.pos_of_ne_zero (by rintro rfl; omega)
    have hdiv : x / row < n := Nat.div_lt_of_lt_mul hx
    have hsplit : dst + x = dst + x / row * row + x % row := by
      have hmod := Nat.div_add_mod' x row
      omega
    rw [blit_at hx, hsplit, copyRows_at le_rfl hdiv (Nat.mod_lt x hpos), Nat.div_add_mod' x row]
  · rw [blit_frame ha]
    refine copyRows_frame (fun x y hy hx hax => ha ?_)
    have hbelow : (y + 1) * row ≤ n * row := Nat.mul_le_mul_right row hy
    rw [Nat.add_mul, Nat.mul_comm n row] at hbelow
    omega

end Strided
