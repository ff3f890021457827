import Mathlib.Logic.Function.Basic
import Mathlib.Tactic

/-! # Buffers

Memory as a function of the address, and the copy of a run of cells into it.
-/
namespace Cloudpilot.Library.Buffer

variable {α : Type*} {dest src : ℕ → α} {start count a : ℕ}

/-- Overwrite `count` cells from `start` on with the first cells of `src`. -/
def copy (dest : ℕ → α) (start : ℕ) (src : ℕ → α) (count : ℕ) : ℕ → α := fun a =>
  if start ≤ a ∧ a < start + count then src (a - start) else dest a

theorem copy_inside (hle : start ≤ a) (hlt : a < start + count) :
    copy dest start src count a = src (a - start) :=
  if_pos ⟨hle, hlt⟩

theorem copy_outside (h : a < start ∨ start + count ≤ a) :
    copy dest start src count a = dest a := by
  apply if_neg
  omega

theorem copy_zero (h : a < count) : copy dest 0 src count a = src a := by
  rw [copy_inside (Nat.zero_le a) (by omega), Nat.sub_zero]

end Cloudpilot.Library.Buffer
