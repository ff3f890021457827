import Cloudpilot.Hardware.SDCard.Initialization

/-! # The size of a card in its CSD register

A size that the register can hold is a product of `C_SIZE + 1` and a power of two. The
layout that is found for it is written to the register, and read back from the bit fields of the
specification it gives the size of the image. The empty image has a layout without having a size
of this kind, and the largest size has none.
-/

namespace Cloudpilot.Hardware.SDCard

open Cloudpilot.Library Cloudpilot.Common BitVec

/-- A bit of the register of 128 bits, whose first byte holds the highest bits. -/
def csdBit (register : List Byte) (bit : ℕ) : Bool :=
  (register.getD (15 - bit / 8) 0#8).getLsbD (bit % 8)

def csdField (register : List Byte) (low width : ℕ) : ℕ :=
  Nat.ofBits fun i : Fin width => csdBit register (low + i)

/-- `READ_BL_LEN [83:80]`. -/
def csdReadBlLen (register : List Byte) : ℕ := csdField register 80 4

/-- `C_SIZE [73:62]`. -/
def csdCSize (register : List Byte) : ℕ := csdField register 62 12

/-- `C_SIZE_MULT [49:47]`. -/
def csdCSizeMult (register : List Byte) : ℕ := csdField register 47 3

def csdCapacity (register : List Byte) : ℕ :=
  (csdCSize register + 1) * 2 ^ (csdCSizeMult register + 2) * 2 ^ csdReadBlLen register

/-- The sizes that the register can hold. -/
def Encodable (blocksTotal : ℕ) : Prop :=
  ∃ c m, c ≤ 4095 ∧ m ≤ 7 ∧ blocksTotal = (c + 1) * 2 ^ (m + 2)

/-- The register of a card of this size is sent for CMD9, and gives its size. -/
def SendsCapacity (blocksTotal : ℕ) : Prop :=
  ∀ image s, image.blocksTotal = blocksTotal → s.lastCmd = 9#8 → s.acmd = false →
    s.cardState ≠ .idle → ∃ s' register, doCmd image s = .ok s' ∧ register.length = 15 ∧
      bytesOf s'.buffer s'.bufferSize =
        [0xff#8, 0x00#8, 0xff#8] ++ frame dataTokenDefault register ∧
      csdCapacity register = blocksTotal * 512

/-- Exactly the encodable sizes are representable, and the register encodes them. -/
def EncodesSize (blocksTotal : ℕ) : Prop :=
  (isSizeRepresentable blocksTotal = true ↔ Encodable blocksTotal) ∧
    (Encodable blocksTotal → SendsCapacity blocksTotal)

section Fields

variable {register : List Byte} {low width : ℕ}

theorem csdField_eq {n : ℕ} (hn : n < 2 ^ width)
    (h : ∀ i < width, csdBit register (low + i) = n.testBit i) : csdField register low width = n := by
  apply Nat.eq_of_testBit_eq
  intro i
  by_cases hi : i < width
  · rw [csdField, Nat.testBit_ofBits_lt _ i hi]
    exact h i hi
  · have hle : width ≤ i := not_lt.mp hi
    rw [csdField, Nat.testBit_ofBits_ge _ i hle]
    exact (Nat.testBit_lt_two_pow (lt_of_lt_of_le hn (Nat.pow_le_pow_right (by decide) hle))).symm

theorem csdReadBlLen_csd (cSizeMult : ℕ) (cSize : Word) : csdReadBlLen (csd cSizeMult cSize) = 9 := by
  apply csdField_eq (by decide)
  intro i hi
  interval_cases i <;> simp [csdBit, csd] <;> decide

theorem csdCSize_csd (cSizeMult : ℕ) {cSize : Word} (h : cSize.toNat < 2 ^ 12) :
    csdCSize (csd cSizeMult cSize) = cSize.toNat := by
  apply csdField_eq h
  intro i hi
  rw [testBit_toNat]
  interval_cases i <;> simp [csdBit, csd]

theorem csdCSizeMult_csd {cSizeMult : ℕ} (cSize : Word) (h : cSizeMult < 2 ^ 3) :
    csdCSizeMult (csd cSizeMult cSize) = cSizeMult := by
  apply csdField_eq h
  intro i hi
  have hbit : (BitVec.ofNat 32 cSizeMult).getLsbD i = cSizeMult.testBit i := by grind
  rw [← hbit]
  simp only [csdBit, csd]
  generalize BitVec.ofNat 32 cSizeMult = mult
  interval_cases i <;> simp

end Fields

section Layout

variable {blocksTotal cSizeMult : ℕ} {cSize : Word}

theorem find?_layout : ((List.range 8).find? fun cSizeMult =>
      blocksTotal >>> (cSizeMult + 2) < 0x1000) = some cSizeMult ↔
    cSizeMult < 8 ∧ blocksTotal / 2 ^ (cSizeMult + 2) < 4096 ∧
      ∀ k < cSizeMult, 4096 ≤ blocksTotal / 2 ^ (k + 2) := by
  simp only [List.find?_range_eq_some, List.mem_range, Nat.shiftRight_eq_div_pow, decide_eq_true_iff,
    Bool.not_eq_true', decide_eq_false_iff_not, not_lt]
  exact and_left_comm

theorem multiplied_eq (hmult : cSizeMult < 8) (hsmall : blocksTotal / 2 ^ (cSizeMult + 2) < 4096) :
    ((1#32 <<< (cSizeMult + 2)) *
        (BitVec.ofNat 32 (blocksTotal >>> (cSizeMult + 2)) - 1#32 + 1#32)).toNat =
      2 ^ (cSizeMult + 2) * (blocksTotal / 2 ^ (cSizeMult + 2)) := by
  have hpow : 2 ^ (cSizeMult + 2) ≤ 2 ^ 9 := Nat.pow_le_pow_right (by decide) (by omega)
  have hproduct : 2 ^ (cSizeMult + 2) * (blocksTotal / 2 ^ (cSizeMult + 2)) < 2 ^ 32 :=
    lt_of_le_of_lt (Nat.mul_le_mul hpow hsmall.le) (by decide)
  rw [sub_add_cancel, toNat_mul, BitVec.toNat_ofNat, Nat.shiftRight_eq_div_pow,
    Nat.mod_eq_of_lt (lt_trans hsmall (by decide)), toNat_shiftLeft, Nat.shiftLeft_eq,
    toNat_one (by decide), one_mul, Nat.mod_eq_of_lt (lt_of_le_of_lt hpow (by decide)),
    Nat.mod_eq_of_lt hproduct]

theorem determineLayout_eq_some_iff : determineLayout blocksTotal = some (cSizeMult, cSize) ↔
    (cSizeMult < 8 ∧ blocksTotal / 2 ^ (cSizeMult + 2) < 4096 ∧
      ∀ k < cSizeMult, 4096 ≤ blocksTotal / 2 ^ (k + 2)) ∧
      2 ^ (cSizeMult + 2) * (blocksTotal / 2 ^ (cSizeMult + 2)) = blocksTotal ∧
      cSize = BitVec.ofNat 32 (blocksTotal / 2 ^ (cSizeMult + 2)) - 1#32 := by
  rw [determineLayout, Option.bind_eq_some_iff, ← find?_layout]
  constructor
  · rintro ⟨m, hfind, hlayout⟩
    obtain ⟨hmult, hsmall, -⟩ := find?_layout.mp hfind
    dsimp only at hlayout
    rw [multiplied_eq hmult hsmall] at hlayout
    split at hlayout
    · rename_i hexact
      cases hlayout
      rw [Nat.shiftRight_eq_div_pow]
      exact ⟨hfind, hexact, rfl⟩
    · cases hlayout
  · rintro ⟨hfind, hexact, rfl⟩
    obtain ⟨hmult, hsmall, -⟩ := find?_layout.mp hfind
    refine ⟨cSizeMult, hfind, ?_⟩
    dsimp only
    rw [multiplied_eq hmult hsmall, if_pos hexact, Nat.shiftRight_eq_div_pow]

theorem encodable_of_layout (hpos : blocksTotal ≠ 0)
    (h : determineLayout blocksTotal = some (cSizeMult, cSize)) :
    cSizeMult < 8 ∧ cSize.toNat < 4096 ∧ blocksTotal = (cSize.toNat + 1) * 2 ^ (cSizeMult + 2) := by
  obtain ⟨⟨hmult, hsmall, -⟩, hexact, rfl⟩ := determineLayout_eq_some_iff.mp h
  generalize hquotient : blocksTotal / 2 ^ (cSizeMult + 2) = q at hsmall hexact ⊢
  have hq : q ≠ 0 := by grind
  have hsize : (BitVec.ofNat 32 q - 1#32).toNat = q - 1 := by
    rw [BitVec.toNat_sub, BitVec.toNat_ofNat, BitVec.toNat_ofNat]
    omega
  rw [hsize, Nat.sub_add_cancel (Nat.one_le_iff_ne_zero.mpr hq), Nat.mul_comm]
  exact ⟨hmult, by omega, hexact.symm⟩

theorem Encodable.pos (h : Encodable blocksTotal) : blocksTotal ≠ 0 := by
  obtain ⟨c, m, -, -, rfl⟩ := h
  exact Nat.mul_ne_zero (Nat.succ_ne_zero c) (Nat.two_pow_pos _).ne'

theorem Encodable.multiplier (h : Encodable blocksTotal) (hmax : blocksTotal ≠ 2097152) :
    ∃ m, m ≤ 7 ∧ 2 ^ (m + 2) ∣ blocksTotal ∧ blocksTotal / 2 ^ (m + 2) < 4096 := by
  obtain ⟨c, m, hc, hm, rfl⟩ := h
  by_cases hlast : c = 4095
  · subst hlast
    have hlt : m < 7 := by grind
    have hdouble : (4095 + 1) * 2 ^ (m + 2) = 2048 * 2 ^ (m + 1 + 2) := by ring
    rw [hdouble]
    refine ⟨m + 1, hlt, Nat.dvd_mul_left .., ?_⟩
    rw [Nat.mul_div_cancel _ (Nat.two_pow_pos _)]
    decide
  · refine ⟨m, hm, Nat.dvd_mul_left .., ?_⟩
    rw [Nat.mul_div_cancel _ (Nat.two_pow_pos _)]
    omega

theorem Encodable.representable (h : Encodable blocksTotal) (hmax : blocksTotal ≠ 2097152) :
    ∃ layout, determineLayout blocksTotal = some layout := by
  obtain ⟨m, hm, hdvd, hsmall⟩ := h.multiplier hmax
  have hexists : ∃ k, blocksTotal / 2 ^ (k + 2) < 4096 := ⟨m, hsmall⟩
  have hfirst : Nat.find hexists ≤ m := Nat.find_min' hexists hsmall
  have hdivides : 2 ^ (Nat.find hexists + 2) ∣ blocksTotal :=
    (Nat.pow_dvd_pow 2 (by omega)).trans hdvd
  exact ⟨(Nat.find hexists, _), determineLayout_eq_some_iff.mpr
    ⟨⟨by omega, Nat.find_spec hexists, fun k hk => not_lt.mp (Nat.find_min hexists hk)⟩,
      Nat.mul_div_cancel' hdivides, rfl⟩⟩

end Layout

section Response

variable {blocksTotal : ℕ}

theorem bytesOf_respond (s : SPISlaveSD) (values : List Byte) :
    bytesOf (respond s values).buffer (respond s values).bufferSize = values := by
  rw [respond_bufferSize]
  apply List.ext_getElem (bytesOf_length _ _)
  intro i _ hi
  simp only [bytesOf, List.getElem_map, List.getElem_range]
  rw [respond_buffer s hi, List.getD_eq_getElem?_getD, List.getElem?_eq_getElem hi, Option.getD_some]

theorem Encodable.sendsCapacity (h : Encodable blocksTotal) (hmax : blocksTotal ≠ 2097152) :
    SendsCapacity blocksTotal := by
  rintro image s rfl hcmd hacmd hidle
  obtain ⟨⟨cSizeMult, cSize⟩, hlayout⟩ := h.representable hmax
  obtain ⟨hmult, hsize, htotal⟩ := encodable_of_layout h.pos hlayout
  have hregister : bytesOf (arrayOf (csd cSizeMult cSize)) 15 = csd cSizeMult cSize := rfl
  refine ⟨_, csd cSizeMult cSize, ?_, rfl, bytesOf_respond s _, ?_⟩
  · rw [doCmd, if_neg (by rw [hacmd]; exact Bool.false_ne_true), hcmd]
    rw [unlessIdle, if_neg hidle, doReadCSD, hlayout, ← hregister]
    exact prepareBlock_respond _ _ (by decide)
  · rw [csdCapacity, csdCSize_csd _ hsize, csdCSizeMult_csd _ hmult, csdReadBlLen_csd, htotal]
    rfl

theorem not_encodesSize_zero : ¬ EncodesSize 0 := fun h => (h.1.mp (by decide)).pos rfl

theorem not_encodesSize_largest : ¬ EncodesSize 2097152 := fun h =>
  absurd (h.1.mpr ⟨4095, 7, le_rfl, le_rfl, by decide⟩) (by decide)

/-- The size of an image is encoded as it is unless it is 0 or 2²¹ blocks. -/
theorem encodesSize_iff (blocksTotal : ℕ) :
    EncodesSize blocksTotal ↔ blocksTotal ≠ 0 ∧ blocksTotal ≠ 2097152 := by
  constructor
  · intro h
    constructor
    · rintro rfl
      exact not_encodesSize_zero h
    · rintro rfl
      exact not_encodesSize_largest h
  · rintro ⟨hzero, hmax⟩
    refine ⟨⟨fun h => ?_, fun h => Option.isSome_iff_exists.mpr (h.representable hmax)⟩,
      fun h => h.sendsCapacity hmax⟩
    obtain ⟨⟨cSizeMult, cSize⟩, hlayout⟩ := Option.isSome_iff_exists.mp h
    obtain ⟨hmult, hsize, htotal⟩ := encodable_of_layout hzero hlayout
    exact ⟨cSize.toNat, cSizeMult, by omega, by omega, htotal⟩

theorem encodesSize_ends : ¬ EncodesSize 0 ∧ ¬ EncodesSize 2097152 :=
  ⟨not_encodesSize_zero, not_encodesSize_largest⟩

end Response

end Cloudpilot.Hardware.SDCard
