import Mathlib.Data.BitVec
import Mathlib.Tactic

/-! # Tables that are flushed by counting revisions

Every entry carries the revision it was stored under, and only the entries of the
current revision are live. A flush moves on to the next revision; the tags are
cleared only when the counter wraps. The revision `0` is never current, so a
cleared tag is never live.
-/
namespace Cloudpilot.Library.RevisionTable

open BitVec

variable {ι : Type*} {w : ℕ} {tag tag' : ι → BitVec w} {r : BitVec w} {Holds Holds' : ι → Prop}

/-- The revision after a flush. -/
def nextRevision (r : BitVec w) : BitVec w := if r + 1#w = 0#w then 1#w else r + 1#w

def flushTags (r : BitVec w) (tag : ι → BitVec w) : ι → BitVec w :=
  if r + 1#w = 0#w then fun _ => 0#w else tag

/-- No tag is ahead of the current revision, and what `Holds` says is true of every live entry. -/
structure Sound (tag : ι → BitVec w) (r : BitVec w) (Holds : ι → Prop) : Prop where
  pos : 0 < r.toNat
  le : ∀ i, (tag i).toNat ≤ r.toNat
  live : ∀ i, tag i = r → Holds i

theorem width_pos (hpos : 0 < r.toNat) : 0 < w := by
  rcases w with _ | w <;> omega

theorem toNat_add_one (hpos : 0 < r.toNat) (h : r + 1#w ≠ 0#w) :
    (r + 1#w).toNat = r.toNat + 1 := by
  have hone : (1#w).toNat = 1 := toNat_one (width_pos hpos)
  have hne : r.toNat + 1 ≠ 2 ^ w := by
    intro he
    apply h
    apply eq_of_toNat_eq
    rw [toNat_add, hone, he]
    simp
  rw [toNat_add, hone, Nat.mod_eq_of_lt (by omega)]

theorem nextRevision_pos (hpos : 0 < r.toNat) : 0 < (nextRevision r).toNat := by
  by_cases h : r + 1#w = 0#w
  · simp [nextRevision, if_pos h, toNat_one (width_pos hpos)]
  · simp only [nextRevision, if_neg h, toNat_add_one hpos h]
    omega

theorem flushTags_ne (hpos : 0 < r.toNat) (hle : ∀ i, (tag i).toNat ≤ r.toNat) (i : ι) :
    flushTags r tag i ≠ nextRevision r := by
  intro he
  have hnat := congrArg BitVec.toNat he
  by_cases h : r + 1#w = 0#w
  · simp only [flushTags, nextRevision, if_pos h, BitVec.toNat_one (width_pos hpos)] at hnat
    simp at hnat
  · have hi := hle i
    simp only [flushTags, nextRevision, if_neg h, toNat_add_one hpos h] at hnat
    omega

theorem Sound.flush (h : Sound tag r Holds) : Sound (flushTags r tag) (nextRevision r) Holds' := by
  refine ⟨nextRevision_pos h.pos, ?_, ?_⟩
  · intro i
    by_cases hr : r + 1#w = 0#w
    · simp [flushTags, if_pos hr]
    · simp only [flushTags, nextRevision, if_neg hr, toNat_add_one h.pos hr]
      exact Nat.le_succ_of_le (h.le i)
  · intro i hi
    exact absurd hi (flushTags_ne h.pos h.le i)

theorem Sound.change (h : Sound tag r Holds)
    (hchange : ∀ i, tag' i = r - 1#w ∨ tag' i = r ∧ Holds' i ∨
      tag' i = tag i ∧ (tag i = r → Holds i → Holds' i)) :
    Sound tag' r Holds' := by
  have hpred : (r - 1#w).toNat = r.toNat - 1 := by
    have hone : (1#w).toNat = 1 := BitVec.toNat_one (width_pos h.pos)
    have hpos := h.pos
    rw [BitVec.toNat_sub_of_le (by rw [BitVec.le_def, hone]; omega), hone]
  refine ⟨h.pos, ?_, ?_⟩
  · intro i
    rcases hchange i with hi | ⟨hi, -⟩ | ⟨hi, -⟩
    · rw [hi, hpred]
      omega
    · rw [hi]
    · rw [hi]
      exact h.le i
  · intro i hlive
    rcases hchange i with hi | ⟨-, hi⟩ | ⟨hi, hkeep⟩
    · have hnat := congrArg BitVec.toNat (hi.symm.trans hlive)
      have hpos := h.pos
      omega
    · exact hi
    · have htag : tag i = r := hi.symm.trans hlive
      exact hkeep htag (h.live i htag)

end Cloudpilot.Library.RevisionTable
