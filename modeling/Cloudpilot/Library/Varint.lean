import Cloudpilot.Library.Words

/-! # Numbers in groups of seven bits

A number is written as bytes with seven bits each, the low ones first. The high bit of a
byte says that another one follows, so that the end of a number is found while it is read.
-/

namespace Cloudpilot.Library.Varint

open LittleEndian

variable {b : Byte} {groups groups' rest rest' : List Byte}

/-- The number that the groups spell. -/
def value : List Byte → ℕ
  | [] => 0
  | b :: groups => b.toNat % 128 + 128 * value groups

/-- Every group but the last one says that another one follows. -/
inductive Terminated : List Byte → Prop
  | last {b : Byte} (h : b &&& 0x80#8 = 0) : Terminated [b]
  | more {b : Byte} {groups : List Byte} (h : b &&& 0x80#8 ≠ 0) (hrest : Terminated groups) :
      Terminated (b :: groups)

theorem Terminated.append_inj (h : Terminated groups) (h' : Terminated groups')
    (heq : groups ++ rest = groups' ++ rest') : groups = groups' ∧ rest = rest' := by
  induction h generalizing groups' with
  | last hlast =>
    cases h' with
    | last => simpa using heq
    | more hmore =>
      simp only [List.cons_append, List.cons.injEq] at heq
      exact absurd (heq.1 ▸ hlast) hmore
  | more hmore hrest ih =>
    cases h' with
    | last hlast =>
      simp only [List.cons_append, List.cons.injEq] at heq
      exact absurd (heq.1 ▸ hlast) hmore
    | more hmore' hrest' =>
      simp only [List.cons_append, List.cons.injEq] at heq
      obtain ⟨rfl, hbehind⟩ := heq
      obtain ⟨rfl, rfl⟩ := ih hrest' hbehind
      exact ⟨rfl, rfl⟩

variable {n : ℕ}

theorem shiftLeft_group (b : Byte) (shift : ℕ) :
    ((b &&& 0x7f#8).setWidth n) <<< shift = BitVec.ofNat n (b.toNat % 128 * 2 ^ shift) := by
  have hlow : (b &&& 0x7f#8).toNat = b.toNat % 128 := Nat.and_two_pow_sub_one_eq_mod b.toNat 7
  apply BitVec.eq_of_toNat_eq
  rw [BitVec.toNat_shiftLeft, BitVec.toNat_setWidth, BitVec.toNat_ofNat, hlow, Nat.shiftLeft_eq,
    Nat.mod_mul_mod]

theorem or_value (b : Byte) (groups : List Byte) (shift : ℕ) :
    ((b &&& 0x7f#8).setWidth n) <<< shift ||| BitVec.ofNat n (value groups * 2 ^ (shift + 7)) =
      BitVec.ofNat n (value (b :: groups) * 2 ^ shift) := by
  have hlow : b.toNat % 128 * 2 ^ shift < 2 ^ (shift + 7) := by
    calc b.toNat % 128 * 2 ^ shift < 128 * 2 ^ shift :=
          Nat.mul_lt_mul_of_pos_right (Nat.mod_lt _ (by omega)) (by positivity)
      _ = 2 ^ (shift + 7) := by ring
  rw [shiftLeft_group, ← BitVec.ofNat_or, Nat.or_comm, ← Nat.shiftLeft_eq (value groups),
    ← Nat.shiftLeft_add_eq_or_of_lt hlow, Nat.shiftLeft_eq, value]
  congr 1
  ring

end Cloudpilot.Library.Varint
