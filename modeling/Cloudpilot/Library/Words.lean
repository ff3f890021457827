import Mathlib.Data.BitVec
import Mathlib.Tactic

/-! # Words with one bit set

Masks of a single bit, as flags are set and tested with them.
-/

namespace Cloudpilot.Library.BitTest

open BitVec

variable {w k : ℕ} {x : BitVec w}

theorem getLsbD_bit (hk : k < w) (i : ℕ) : (1#w <<< k).getLsbD i = decide (i = k) := by
  by_cases h : i = k
  · grind
  · simp [h]
    omega

theorem and_bit_eq_zero (hk : k < w) : x &&& (1#w <<< k) = 0 ↔ x.getLsbD k = false := by
  constructor
  · intro h
    have hbit := congrArg (fun y => y.getLsbD k) h
    simpa [getLsbD_bit hk] using hbit
  · intro h
    apply eq_of_getLsbD_eq
    intro i _
    rw [getLsbD_and, getLsbD_bit hk]
    by_cases hi : i = k
    · simp [hi, h]
    · simp [hi]

theorem and_bit_ne_zero (hk : k < w) : x &&& (1#w <<< k) ≠ 0 ↔ x.getLsbD k = true := by
  rw [Ne, and_bit_eq_zero hk, Bool.not_eq_false]

theorem and_or_ne_zero {a b : BitVec w} : x &&& (a ||| b) ≠ 0 ↔ x &&& a ≠ 0 ∨ x &&& b ≠ 0 := by
  have hzero : x &&& (a ||| b) = 0 ↔ x &&& a = 0 ∧ x &&& b = 0 := by
    simp [and_or_distrib_left]
  rw [Ne, hzero, not_and_or]

end Cloudpilot.Library.BitTest

namespace Cloudpilot.Library.AlignedBlock

variable {w k j : ℕ} {a b mask : BitVec w}

theorem getLsbD_eq_of_shiftRight_eq (h : a >>> k = b >>> k) {i : ℕ} (hi : k ≤ i) :
    a.getLsbD i = b.getLsbD i := by
  have hbit := congrArg (fun x => x.getLsbD (i - k)) h
  simpa only [BitVec.getLsbD_ushiftRight, Nat.add_sub_cancel' hi] using hbit

theorem shiftRight_eq_of_le (h : a >>> k = b >>> k) (hkj : k ≤ j) : a >>> j = b >>> j := by
  rw [← Nat.add_sub_cancel' hkj, BitVec.shiftRight_add, BitVec.shiftRight_add, h]

theorem and_eq_of_shiftRight_eq (h : a >>> k = b >>> k)
    (hmask : ∀ i < k, mask.getLsbD i = false) : a &&& mask = b &&& mask := by
  apply BitVec.eq_of_getLsbD_eq
  intro i _
  rw [BitVec.getLsbD_and, BitVec.getLsbD_and]
  by_cases hi : i < k
  · grind
  · rw [getLsbD_eq_of_shiftRight_eq h (by omega)]

theorem toNat_and_highMask : (a &&& (BitVec.allOnes w <<< k)).toNat = a.toNat / 2 ^ k * 2 ^ k := by
  have h : a &&& (BitVec.allOnes w <<< k) = (a >>> k) <<< k := by
    apply BitVec.eq_of_getLsbD_eq
    intro i hi
    by_cases hk : i < k
    · simp [hk]
    · simp [hk, hi, Nat.add_sub_cancel' (Nat.le_of_not_lt hk), show i - k < w by omega]
  have hle : a.toNat / 2 ^ k * 2 ^ k ≤ a.toNat := Nat.div_mul_le_self _ _
  rw [h, BitVec.toNat_shiftLeft, BitVec.toNat_ushiftRight, Nat.shiftRight_eq_div_pow,
    Nat.shiftLeft_eq, Nat.mod_eq_of_lt (lt_of_le_of_lt hle a.isLt)]

theorem toNat_div_eq_of_shiftRight_eq (h : a >>> k = b >>> k) :
    a.toNat / 2 ^ k = b.toNat / 2 ^ k := by
  have hnat := congrArg BitVec.toNat h
  simpa only [BitVec.toNat_ushiftRight, Nat.shiftRight_eq_div_pow] using hnat

theorem shiftRight_eq_of_toNat_div_eq (h : a.toNat / 2 ^ k = b.toNat / 2 ^ k) :
    a >>> k = b >>> k := by
  apply BitVec.eq_of_toNat_eq
  simpa only [BitVec.toNat_ushiftRight, Nat.shiftRight_eq_div_pow] using h

end Cloudpilot.Library.AlignedBlock

namespace Cloudpilot.Library.LittleEndian

abbrev Byte := BitVec 8

def word (v : BitVec 32) : List Byte :=
  [v.setWidth 8, (v >>> 8).setWidth 8, (v >>> 16).setWidth 8, (v >>> 24).setWidth 8]

def byteAt (bytes : List Byte) (offset : ℕ) : BitVec 32 := (bytes[offset]?.getD 0).setWidth 32

def wordAt (bytes : List Byte) (offset : ℕ) : BitVec 32 :=
  byteAt bytes offset ||| byteAt bytes (offset + 1) <<< 8 ||| byteAt bytes (offset + 2) <<< 16 |||
    byteAt bytes (offset + 3) <<< 24

@[simp] theorem length_word (v : BitVec 32) : (word v).length = 4 := rfl

theorem byteAt_append_right {front bytes : List Byte} {offset : ℕ} :
    byteAt (front ++ bytes) (front.length + offset) = byteAt bytes offset := by
  rw [byteAt, List.getElem?_append_right (Nat.le_add_right _ _), Nat.add_sub_cancel_left, byteAt]

theorem wordAt_append_right {front bytes : List Byte} {offset : ℕ} :
    wordAt (front ++ bytes) (front.length + offset) = wordAt bytes offset := by
  simp only [wordAt, Nat.add_assoc, byteAt_append_right]

theorem byteAt_append_left {bytes rest : List Byte} {offset : ℕ} (h : offset < bytes.length) :
    byteAt (bytes ++ rest) offset = byteAt bytes offset := by
  rw [byteAt, List.getElem?_append_left h, byteAt]

theorem wordAt_append_left {bytes rest : List Byte} {offset : ℕ} (h : offset + 4 ≤ bytes.length) :
    wordAt (bytes ++ rest) offset = wordAt bytes offset := by
  rw [wordAt, byteAt_append_left (by omega), byteAt_append_left (by omega),
    byteAt_append_left (by omega), byteAt_append_left (by omega), wordAt]

theorem wordAt_word (v : BitVec 32) : wordAt (word v) 0 = v := by
  ext i hi
  simp only [wordAt, byteAt, word]
  simp [BitVec.getElem_or]
  grind

theorem wordAt_word_append (v : BitVec 32) (rest : List Byte) : wordAt (word v ++ rest) 0 = v := by
  rw [wordAt_append_left (by simp), wordAt_word]

theorem wordAt_flatMap_word {words : List (BitVec 32)} {rest : List Byte} {i : ℕ}
    (h : i < words.length) : wordAt (words.flatMap word ++ rest) (4 * i) = words[i] := by
  induction words generalizing i with
  | nil => cases h
  | cons v words ih =>
    rw [List.flatMap_cons, List.append_assoc]
    cases i with
    | zero => exact wordAt_word_append v _
    | succ i =>
      have hlen : 4 * (i + 1) = (word v).length + 4 * i := by
        rw [length_word]
        omega
      rw [hlen, wordAt_append_right, ih (by simpa using h), List.getElem_cons_succ]

def wordsOf : List Byte → List (BitVec 32)
  | a :: b :: c :: d :: rest => wordAt [a, b, c, d] 0 :: wordsOf rest
  | _ => []

theorem word_wordAt (a b c d : Byte) : word (wordAt [a, b, c, d] 0) = [a, b, c, d] := by
  have ha : (wordAt [a, b, c, d] 0).setWidth 8 = a := by simp [wordAt, byteAt]
  have hb : (wordAt [a, b, c, d] 0 >>> 8).setWidth 8 = b := by
    ext i hi
    simp only [wordAt, byteAt]
    simp
    grind
  have hc : (wordAt [a, b, c, d] 0 >>> 16).setWidth 8 = c := by
    ext i hi
    simp only [wordAt, byteAt]
    simp
    grind
  have hd : (wordAt [a, b, c, d] 0 >>> 24).setWidth 8 = d := by
    ext i hi
    simp only [wordAt, byteAt]
    simp
    grind
  rw [word, ha, hb, hc, hd]

theorem flatMap_word_wordsOf {bytes : List Byte} {k : ℕ} (h : bytes.length = 4 * k) :
    (wordsOf bytes).flatMap word = bytes := by
  induction k generalizing bytes with
  | zero =>
    rw [List.eq_nil_of_length_eq_zero h]
    rfl
  | succ k ih =>
    match bytes, h with
    | a :: b :: c :: d :: rest, h => grind [wordsOf, List.flatMap_cons, word_wordAt]

theorem length_wordsOf {bytes : List Byte} {k : ℕ} (h : bytes.length = 4 * k) :
    (wordsOf bytes).length = k := by
  induction k generalizing bytes with
  | zero =>
    rw [List.eq_nil_of_length_eq_zero h]
    rfl
  | succ k ih =>
    match bytes, h with
    | a :: b :: c :: d :: rest, h => rw [wordsOf, List.length_cons, ih (by simp at h; omega)]

theorem wordsOf_drop (bytes : List Byte) (k : ℕ) :
    wordsOf (bytes.drop (4 * k)) = (wordsOf bytes).drop k := by
  induction k generalizing bytes with
  | zero => rfl
  | succ k ih =>
    match bytes with
    | [] => simp [wordsOf]
    | [_] => simp [wordsOf, Nat.mul_succ]
    | [_, _] => simp [wordsOf, Nat.mul_succ]
    | [_, _, _] => simp [wordsOf, Nat.mul_succ]
    | a :: b :: c :: d :: rest => exact ih rest

theorem wordsOf_take (bytes : List Byte) (k : ℕ) :
    wordsOf (bytes.take (4 * k)) = (wordsOf bytes).take k := by
  induction k generalizing bytes with
  | zero => rfl
  | succ k ih =>
    match bytes with
    | [] => simp [wordsOf]
    | [_] => simp [wordsOf, Nat.mul_succ]
    | [_, _] => simp [wordsOf, Nat.mul_succ]
    | [_, _, _] => simp [wordsOf, Nat.mul_succ]
    | a :: b :: c :: d :: rest => exact congrArg (wordAt [a, b, c, d] 0 :: ·) (ih rest)

end Cloudpilot.Library.LittleEndian
