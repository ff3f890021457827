import Cloudpilot.Library.Words
import Cloudpilot.Uarm.Cpu.State

/-! # The shifter operand of data processing instructions

The emulated core looks up what to do with a register in two tables, one for each combination
of a shift and an amount. The mask of an entry selects the bit that is shifted out last.
-/

namespace Cloudpilot.Uarm.Cpu

open Cloudpilot.Library BitVec

inductive ImmShiftType where
  | noop | zero | lsl | lsr | asr | ror | rrx
  deriving DecidableEq, Repr

structure ImmShift where
  type : ImmShiftType
  coBit : Word
  shift : ℕ

/-- An entry whose other fields are not looked at. -/
def ImmShift.ofType (type : ImmShiftType) : ImmShift := ⟨type, 0, 0⟩

def cpuPrvImmShiftRegTableEntry (key : Word) : ImmShift :=
  let a := (key.setWidth 8).toNat
  let v := ((key >>> 8) &&& 3).toNat
  if a = 0 then .ofType .noop
  else
    match v with
    | 0 =>
      if a < 32 then ⟨.lsl, 1#32 <<< (32 - a), a⟩
      else ⟨.zero, if a = 32 then 1 else 0, 0⟩
    | 1 =>
      if a < 32 then ⟨.lsr, 1#32 <<< (a - 1), a⟩
      else ⟨.zero, if a = 32 then 0x80000000 else 0, 0⟩
    | 2 =>
      if a < 32 then ⟨.asr, 1#32 <<< (a - 1), a⟩
      else ⟨.asr, 0x80000000, 31⟩
    | 3 => ⟨.ror, 1#32 <<< ((a - 1) % 32), a % 32⟩
    | _ => .ofType .noop

def cpuPrvImmShiftImmTableEntry (key : Word) : ImmShift :=
  let a := (key &&& 0x1f).toNat
  let v := ((key >>> 5) &&& 3).toNat
  match v with
  | 0 => if a ≠ 0 then ⟨.lsl, 1#32 <<< (32 - a), a⟩ else .ofType .noop
  | 1 => if a = 0 then ⟨.zero, 0x80000000, 32⟩ else ⟨.lsr, 1#32 <<< (a - 1), a⟩
  | 2 => if a = 0 then ⟨.asr, 1#32 <<< 31, 31⟩ else ⟨.asr, 1#32 <<< (a - 1), a⟩
  | 3 => if a = 0 then .ofType .rrx else ⟨.ror, 1#32 <<< (a - 1), if a = 32 then 0 else a⟩
  | _ => .ofType .noop

def tableImmShiftReg (i : BitVec 10) : ImmShift := cpuPrvImmShiftRegTableEntry (i.setWidth 32)

def tableImmShiftImm (i : BitVec 7) : ImmShift := cpuPrvImmShiftImmTableEntry (i.setWidth 32)

/-- A rotation by 0 shifts left by 32: the hosts take the count of a shift modulo 32. -/
def cpuPrvROR (val : Word) (ror : ℕ) : Word := (val >>> ror) ||| (val <<< ((32 - ror) % 32))

/-- The `switch` over the type of an entry, with the carry flag. -/
def ImmShift.perform (shift : ImmShift) (ret : Word) (co : Bool) : Word × Bool :=
  match shift.type with
  | .noop => (ret, co)
  | .lsl => (ret <<< shift.shift, ret &&& shift.coBit ≠ 0)
  | .lsr => (ret >>> shift.shift, ret &&& shift.coBit ≠ 0)
  | .asr => (ret.sshiftRight shift.shift, ret &&& shift.coBit ≠ 0)
  | .ror => (cpuPrvROR ret shift.shift, ret &&& shift.coBit ≠ 0)
  | .zero => (0, ret &&& shift.coBit ≠ 0)
  | .rrx => ((ret >>> 1) ||| if co then 0x80000000 else 0, ret &&& 1 ≠ 0)

/-- The register that four bits of an instruction name. -/
def regField (instr : Word) (low : ℕ) : Fin 16 := Fin.ofNat 16 ((instr >>> low) &&& 0x0F).toNat

/-- The operand and the carry out. -/
def cpuPrvArmAdrMode1 (wasT : Bool) (cpu : ArmCpu) (instr : Word) : Word × Bool :=
  let co : Bool := cpu.flags &&& armSrC ≠ 0
  if instr &&& 0x02000000 ≠ 0 then
    let v := (instr >>> 7) &&& 0x1E
    let ret := cpuPrvROR (instr &&& 0xFF) v.toNat
    (ret, if v ≠ 0 then decide (ret &&& 0x80000000 ≠ 0) else co)
  else
    let v := (instr >>> 5) &&& 3
    let ret := cpuPrvGetReg wasT cpu (regField instr 0)
    let shift :=
      if instr &&& 0x00000010 ≠ 0 then
        let a := cpuPrvGetRegNotPC cpu (regField instr 8)
        tableImmShiftReg (((v <<< 8) ||| (a &&& 0xff)).setWidth 10)
      else
        let a := (instr >>> 7) &&& 0x1F
        tableImmShiftImm (((v <<< 5) ||| a).setWidth 7)
    shift.perform ret co

namespace Shifter

def immediate (imm : BitVec 8) (rotate : ℕ) (c : Bool) : Word × Bool :=
  let operand := (imm.setWidth 32).rotateRight (2 * rotate)
  (operand, if rotate = 0 then c else operand.msb)

def signFill (rm : Word) : Word := if rm.msb then 0xFFFFFFFF else 0

def byImmediate (shift : BitVec 2) (amount : ℕ) (rm : Word) (c : Bool) : Word × Bool :=
  match shift with
  | 0 => if amount = 0 then (rm, c) else (rm <<< amount, rm.getLsbD (32 - amount))
  | 1 => if amount = 0 then (0, rm.msb) else (rm >>> amount, rm.getLsbD (amount - 1))
  | 2 => if amount = 0 then (signFill rm, rm.msb)
      else (rm.sshiftRight amount, rm.getLsbD (amount - 1))
  | 3 => if amount = 0 then (((if c then 1 else 0) <<< 31) ||| (rm >>> 1), rm.getLsbD 0)
      else (rm.rotateRight amount, rm.getLsbD (amount - 1))

def byRegister (shift : BitVec 2) (amount : ℕ) (rm : Word) (c : Bool) : Word × Bool :=
  if amount = 0 then (rm, c)
  else
    match shift with
    | 0 => if amount < 32 then (rm <<< amount, rm.getLsbD (32 - amount))
        else if amount = 32 then (0, rm.getLsbD 0) else (0, false)
    | 1 => if amount < 32 then (rm >>> amount, rm.getLsbD (amount - 1))
        else if amount = 32 then (0, rm.msb) else (0, false)
    | 2 => if amount < 32 then (rm.sshiftRight amount, rm.getLsbD (amount - 1))
        else (signFill rm, rm.msb)
    | 3 => if amount % 32 = 0 then (rm, rm.msb)
        else (rm.rotateRight (amount % 32), rm.getLsbD (amount % 32 - 1))

/-- `shifter_operand` and `shifter_carry_out`. -/
def operand (instr : Word) (regs : Fin 16 → Word) (c : Bool) : Word × Bool :=
  if instr.getLsbD 25 then immediate (instr.setWidth 8) (instr.extractLsb' 8 4).toNat c
  else
    let shift := instr.extractLsb' 5 2
    let rm := regs (instr.extractLsb' 0 4).toFin
    if instr.getLsbD 4 then
      byRegister shift ((regs (instr.extractLsb' 8 4).toFin).setWidth 8).toNat rm c
    else byImmediate shift (instr.extractLsb' 7 5).toNat rm c

end Shifter

section Carry

variable {rm : Word} {k : ℕ}

theorem carry_bit (hk : k < 32) : decide (rm &&& (1#32 <<< k) ≠ 0) = rm.getLsbD k := by
  apply Bool.eq_iff_iff.mpr
  rw [decide_eq_true_iff]
  exact BitTest.and_bit_ne_zero hk

theorem carry_msb : decide (rm &&& 0x80000000 ≠ 0) = rm.msb :=
  (carry_bit (k := 31) (by omega)).trans (BitVec.msb_eq_getLsbD_last rm).symm

theorem carry_lsb : decide (rm &&& 1 ≠ 0) = rm.getLsbD 0 := carry_bit (k := 0) (by omega)

theorem carry_none : decide (rm &&& 0 ≠ 0) = false := by
  simp

end Carry

theorem cpuPrvROR_eq_rotateRight (val : Word) {ror : ℕ} (h : ror < 32) :
    cpuPrvROR val ror = val.rotateRight ror := by
  rw [cpuPrvROR, rotateRight_def, Nat.mod_eq_of_lt h]
  obtain rfl | hpos := Nat.eq_zero_or_pos ror
  · simp
  · rw [Nat.mod_eq_of_lt (by omega : 32 - ror < 32)]

theorem getLsbD_allOnes_32 (i : ℕ) : (0xFFFFFFFF : Word).getLsbD i = decide (i < 32) :=
  BitVec.getLsbD_allOnes (i := i) (v := 32)

theorem sshiftRight_31 (rm : Word) : rm.sshiftRight 31 = Shifter.signFill rm := by
  apply eq_of_getLsbD_eq
  intro i hi
  have hshift : (rm.sshiftRight 31).getLsbD i = rm.msb := by grind
  rw [hshift, Shifter.signFill]
  cases rm.msb with
  | false => simp
  | true => rw [if_pos rfl, getLsbD_allOnes_32, decide_eq_true hi]

section Fields

variable (x : Word) (lo n : ℕ)

theorem shiftRight_and_mask (mask : Word) (h : mask = (BitVec.allOnes n).setWidth 32) :
    (x >>> lo) &&& mask = (x.extractLsb' lo n).setWidth 32 := by
  subst h
  apply eq_of_getLsbD_eq
  intro i hi
  simp [hi, Bool.and_comm]

end Fields

theorem regIndex_amount (v a : Word) :
    ((((v <<< 8) ||| (a &&& 0xff)).setWidth 10).setWidth 32).setWidth 8 = a.setWidth 8 := by
  apply eq_of_getLsbD_eq
  intro i hi
  interval_cases i <;> simp

theorem regIndex_shift (shift : BitVec 2) (a : Word) :
    ((((shift.setWidth 32 <<< 8) ||| (a &&& 0xff)).setWidth 10).setWidth 32 >>> 8) &&& 3 =
      shift.setWidth 32 := by
  apply eq_of_getLsbD_eq
  intro i hi
  interval_cases i <;> simp

theorem immIndex_amount (v : Word) (amount : BitVec 5) :
    ((((v <<< 5) ||| amount.setWidth 32).setWidth 7).setWidth 32) &&& 0x1f = amount.setWidth 32 := by
  apply eq_of_getLsbD_eq
  intro i hi
  interval_cases i <;> simp

theorem immIndex_shift (shift : BitVec 2) (amount : BitVec 5) :
    ((((shift.setWidth 32 <<< 5) ||| amount.setWidth 32).setWidth 7).setWidth 32 >>> 5) &&& 3 =
      shift.setWidth 32 := by
  apply eq_of_getLsbD_eq
  intro i hi
  interval_cases i <;> simp

theorem shift_cases (shift : BitVec 2) : shift = 0 ∨ shift = 1 ∨ shift = 2 ∨ shift = 3 := by
  revert shift
  decide

section Perform

variable {rm : Word} {c : Bool} {amount : ℕ}

theorem perform_lsl (hpos : amount ≠ 0) (h : amount < 32) :
    (⟨.lsl, 1#32 <<< (32 - amount), amount⟩ : ImmShift).perform rm c =
      (rm <<< amount, rm.getLsbD (32 - amount)) :=
  Prod.ext rfl (carry_bit (by omega))

theorem perform_lsr (h : amount < 32) :
    (⟨.lsr, 1#32 <<< (amount - 1), amount⟩ : ImmShift).perform rm c =
      (rm >>> amount, rm.getLsbD (amount - 1)) :=
  Prod.ext rfl (carry_bit (by omega))

theorem perform_asr (h : amount < 32) :
    (⟨.asr, 1#32 <<< (amount - 1), amount⟩ : ImmShift).perform rm c =
      (rm.sshiftRight amount, rm.getLsbD (amount - 1)) :=
  Prod.ext rfl (carry_bit (by omega))

theorem perform_ror {k : ℕ} (hk : k < 32) (h : amount < 32) :
    (⟨.ror, 1#32 <<< k, amount⟩ : ImmShift).perform rm c =
      (rm.rotateRight amount, rm.getLsbD k) :=
  Prod.ext (cpuPrvROR_eq_rotateRight rm h) (carry_bit hk)

theorem perform_asr_sign :
    (⟨.asr, 0x80000000, 31⟩ : ImmShift).perform rm c = (Shifter.signFill rm, rm.msb) :=
  Prod.ext (sshiftRight_31 rm) carry_msb

theorem perform_zero_msb (shift : ℕ) :
    (⟨.zero, 0x80000000, shift⟩ : ImmShift).perform rm c = (0, rm.msb) :=
  Prod.ext rfl carry_msb

theorem perform_zero_lsb : (⟨.zero, 1, 0⟩ : ImmShift).perform rm c = (0, rm.getLsbD 0) :=
  Prod.ext rfl carry_lsb

theorem perform_zero_none : (⟨.zero, 0, 0⟩ : ImmShift).perform rm c = (0, false) :=
  Prod.ext rfl carry_none

end Perform

theorem perform_tableImmShiftReg (shift : BitVec 2) (a rm : Word) (c : Bool) :
    (tableImmShiftReg (((shift.setWidth 32 <<< 8) ||| (a &&& 0xff)).setWidth 10)).perform rm c =
      Shifter.byRegister shift (a.setWidth 8).toNat rm c := by
  rw [tableImmShiftReg, cpuPrvImmShiftRegTableEntry, regIndex_amount, regIndex_shift]
  generalize (a.setWidth 8).toNat = amount
  rw [Shifter.byRegister.eq_def]
  by_cases hzero : amount = 0
  · rw [if_pos hzero, if_pos hzero]
    rfl
  rw [if_neg hzero, if_neg hzero]
  obtain rfl | rfl | rfl | rfl := shift_cases shift
  · change ImmShift.perform (if amount < 32 then _ else _) rm c = if amount < 32 then _ else _
    by_cases hlow : amount < 32
    · rw [if_pos hlow, if_pos hlow, perform_lsl hzero hlow]
    · rw [if_neg hlow, if_neg hlow]
      by_cases hall : amount = 32
      · rw [if_pos hall, if_pos hall, perform_zero_lsb]
      · rw [if_neg hall, if_neg hall, perform_zero_none]
  · change ImmShift.perform (if amount < 32 then _ else _) rm c = if amount < 32 then _ else _
    by_cases hlow : amount < 32
    · rw [if_pos hlow, if_pos hlow, perform_lsr hlow]
    · rw [if_neg hlow, if_neg hlow]
      by_cases hall : amount = 32
      · rw [if_pos hall, if_pos hall, perform_zero_msb]
      · rw [if_neg hall, if_neg hall, perform_zero_none]
  · change ImmShift.perform (if amount < 32 then _ else _) rm c = if amount < 32 then _ else _
    by_cases hlow : amount < 32
    · rw [if_pos hlow, if_pos hlow, perform_asr hlow]
    · grind [perform_asr_sign]
  · change ImmShift.perform ⟨.ror, 1#32 <<< ((amount - 1) % 32), amount % 32⟩ rm c =
      if amount % 32 = 0 then _ else _
    rw [perform_ror (Nat.mod_lt _ (by omega)) (Nat.mod_lt _ (by omega))]
    by_cases hwhole : amount % 32 = 0
    · have hlast : (amount - 1) % 32 = 31 := by omega
      have hturn : rm.rotateRight 0 = rm := by simp [rotateRight_def]
      rw [if_pos hwhole, hwhole, hlast, hturn, msb_eq_getLsbD_last]
    · have hlast : (amount - 1) % 32 = amount % 32 - 1 := by omega
      rw [if_neg hwhole, hlast]

theorem perform_tableImmShiftImm (shift : BitVec 2) (amount : BitVec 5) (rm : Word) (c : Bool) :
    (tableImmShiftImm (((shift.setWidth 32 <<< 5) ||| amount.setWidth 32).setWidth 7)).perform rm c =
      Shifter.byImmediate shift amount.toNat rm c := by
  have hlow : amount.toNat < 32 := amount.isLt
  have hnat : (amount.setWidth 32).toNat = amount.toNat := BitVec.toNat_setWidth_of_le (by omega)
  rw [tableImmShiftImm, cpuPrvImmShiftImmTableEntry, immIndex_amount, immIndex_shift, hnat]
  generalize amount.toNat = amount at hlow
  obtain rfl | rfl | rfl | rfl := shift_cases shift
  · change ImmShift.perform (if amount ≠ 0 then _ else _) rm c = if amount = 0 then _ else _
    by_cases hzero : amount = 0
    · rw [if_pos hzero, if_neg (not_not.mpr hzero)]
      rfl
    · rw [if_neg hzero, if_pos hzero, perform_lsl hzero hlow]
  · change ImmShift.perform (if amount = 0 then _ else _) rm c = if amount = 0 then _ else _
    by_cases hzero : amount = 0
    · rw [if_pos hzero, if_pos hzero, perform_zero_msb]
    · rw [if_neg hzero, if_neg hzero, perform_lsr hlow]
  · change ImmShift.perform (if amount = 0 then _ else _) rm c = if amount = 0 then _ else _
    by_cases hzero : amount = 0
    · rw [if_pos hzero, if_pos hzero, ← perform_asr_sign (c := c)]
      rfl
    · rw [if_neg hzero, if_neg hzero, perform_asr hlow]
  · change ImmShift.perform (if amount = 0 then _ else _) rm c = if amount = 0 then _ else _
    by_cases hzero : amount = 0
    · rw [if_pos hzero, if_pos hzero, BitVec.or_comm, ← carry_lsb]
      cases c with
      | false => rfl
      | true => rfl
    · rw [if_neg hzero, if_neg hzero, if_neg (by omega : amount ≠ 32), perform_ror (by omega) hlow]

theorem rotation_eq (instr : Word) :
    ((instr >>> 7) &&& 0x1E).toNat = 2 * (instr.extractLsb' 8 4).toNat := by
  have hbits : (instr >>> 7) &&& (0x1E : Word) = (instr.extractLsb' 8 4).setWidth 32 <<< 1 := by
    apply eq_of_getLsbD_eq
    intro i hi
    interval_cases i <;> simp
  rw [hbits, toNat_shiftLeft, BitVec.toNat_setWidth_of_le (by omega), Nat.shiftLeft_eq]
  omega

theorem regField_eq (instr : Word) (low : ℕ) :
    regField instr low = (instr.extractLsb' low 4).toFin := by
  have hlow := (instr.extractLsb' low 4).isLt
  have hmask : (instr >>> low) &&& 0x0F = (instr.extractLsb' low 4).setWidth 32 :=
    shiftRight_and_mask instr low 4 _ rfl
  apply Fin.ext
  rw [regField, hmask, BitVec.toNat_setWidth_of_le (by omega)]
  exact Nat.mod_eq_of_lt hlow

theorem immediate_operand (instr : Word) (c : Bool) :
    (let v := (instr >>> 7) &&& 0x1E
      let ret := cpuPrvROR (instr &&& 0xFF) v.toNat
      (ret, if v ≠ 0 then decide (ret &&& 0x80000000 ≠ 0) else c)) =
      Shifter.immediate (instr.setWidth 8) (instr.extractLsb' 8 4).toNat c := by
  have hbyte : instr &&& 0xFF = (instr.setWidth 8).setWidth 32 := by
    apply eq_of_getLsbD_eq
    intro i hi
    interval_cases i <;> simp
  have hzero : (instr >>> 7) &&& 0x1E ≠ 0 ↔ (instr.extractLsb' 8 4).toNat ≠ 0 := by
    rw [Ne, ← toNat_inj, rotation_eq]
    simp
  dsimp only
  rw [rotation_eq, hbyte, cpuPrvROR_eq_rotateRight _ (by omega), carry_msb, Shifter.immediate]
  by_cases hturn : (instr.extractLsb' 8 4).toNat = 0
  · rw [if_neg (mt hzero.mp (not_not.mpr hturn)), if_pos hturn]
  · rw [if_pos (hzero.mpr hturn), if_neg hturn]

/-- The shifter operand and carry out are those of the architecture. -/
theorem cpuPrvArmAdrMode1_eq (wasT : Bool) (cpu : ArmCpu) (instr : Word)
    (hpc : instr.getLsbD 25 = false → regField instr 0 ≠ regNoPc) :
    cpuPrvArmAdrMode1 wasT cpu instr = Shifter.operand instr cpu.regs (cpu.flags.getLsbD 29) := by
  have hcarry : decide (cpu.flags &&& armSrC ≠ 0) = cpu.flags.getLsbD 29 :=
    carry_bit (k := 29) (by omega)
  have himm : instr &&& 0x02000000 ≠ 0 ↔ instr.getLsbD 25 = true :=
    BitTest.and_bit_ne_zero (k := 25) (by omega)
  have hreg : instr &&& 0x00000010 ≠ 0 ↔ instr.getLsbD 4 = true :=
    BitTest.and_bit_ne_zero (k := 4) (by omega)
  rw [cpuPrvArmAdrMode1, Shifter.operand, hcarry]
  by_cases h25 : instr.getLsbD 25 = true
  · rw [if_pos (himm.mpr h25), if_pos h25]
    exact immediate_operand instr _
  · rw [if_neg (mt himm.mp h25), if_neg h25]
    have hrm : cpuPrvGetReg wasT cpu (regField instr 0) = cpu.regs (instr.extractLsb' 0 4).toFin := by
      rw [cpuPrvGetReg, if_neg (hpc (Bool.eq_false_iff.mpr h25)), regField_eq]
    have hshift : (instr >>> 5) &&& 3 = (instr.extractLsb' 5 2).setWidth 32 :=
      shiftRight_and_mask instr 5 2 _ rfl
    have hamount : (instr >>> 7) &&& 0x1F = (instr.extractLsb' 7 5).setWidth 32 :=
      shiftRight_and_mask instr 7 5 _ rfl
    rw [hrm, hshift]
    dsimp only
    by_cases h4 : instr.getLsbD 4 = true
    · have hrs : cpuPrvGetRegNotPC cpu (regField instr 8) =
          cpu.regs (instr.extractLsb' 8 4).toFin := by
        rw [cpuPrvGetRegNotPC, regField_eq]
      rw [if_pos (hreg.mpr h4), if_pos h4, hrs]
      exact perform_tableImmShiftReg ..
    · rw [if_neg (mt hreg.mp h4), if_neg h4, hamount]
      exact perform_tableImmShiftImm ..

/-- `mov r0, r1, rrx`. -/
theorem cpuPrvArmAdrMode1_rrx : cpuPrvArmAdrMode1 false (cpuInit 0x1000) 0xE1A00061 =
    Shifter.operand 0xE1A00061 (cpuInit 0x1000).regs ((cpuInit 0x1000).flags.getLsbD 29) :=
  cpuPrvArmAdrMode1_eq false (cpuInit 0x1000) 0xE1A00061 (fun _ => by decide)

end Cloudpilot.Uarm.Cpu
