import Mathlib.Algebra.Order.Floor.Div
import Cloudpilot.Hardware.SDCard.Capacity
import Cloudpilot.Uarm.Mmc.Vsd

/-! # The size of the card in its CSD register

The number of sectors is halved and rounded up until `C_SIZE` can hold it. Read from the fields of
the specification, the register covers the card by less than one step of the size.
-/

namespace Cloudpilot.Uarm.Mmc

open Cpu Vsd BitVec
open Cloudpilot.Hardware.SDCard (csdField csdField_eq csdBit csdReadBlLen csdCSize csdCSizeMult
  csdCapacity)

def registerCapacity (register : List Byte) : ℕ :=
  match csdField register 126 2 with
  | 0 => csdCapacity register
  | 1 => (csdField register 48 22 + 1) * (512 * 1024)
  | _ => 0

/-- The numbers of halvings after which `C_SIZE` holds the size. -/
def fittingShifts (nSec : ℕ) : Set ℕ := {s | 2 ≤ s ∧ nSec ⌈/⌉ 2 ^ s ≤ 4096}

/-- The step between two sizes of a card, in sectors. -/
noncomputable def granularity (nSec : ℕ) : ℕ :=
  if nSec ≤ 4194304 then 2 ^ sInf (fittingShifts nSec) else 1024

/-- The condition of the branch that gives up on the size. -/
def Vsd.CardTooBig (vsd : Vsd) : Prop :=
  let nShift := (csdSize vsd.nSec.toNat 0).2 - 2
  vsd.hcCard = false ∧ nShift - min nShift 7 > 1

section Halving

variable {nSec nShift : ℕ}

theorem ceilDiv_two_pow_succ (n s : ℕ) : ((n + n % 2) / 2) ⌈/⌉ 2 ^ s = n ⌈/⌉ 2 ^ (s + 1) := by
  apply eq_of_forall_ge_iff
  intro c
  rw [ceilDiv_le_iff_le_mul (Nat.two_pow_pos _), ceilDiv_le_iff_le_mul (Nat.two_pow_pos _),
    pow_succ]
  rw [mul_right_comm]
  omega

theorem csdSize_eq (nSec nShift : ℕ) : ∃ s, csdSize nSec nShift = (nSec ⌈/⌉ 2 ^ s, nShift + s) ∧
    IsLeast {s | 2 ≤ nShift + s ∧ nSec ⌈/⌉ 2 ^ s ≤ 4096} s := by
  fun_induction csdSize nSec nShift with
  | case1 nSec nShift hmore ih =>
    obtain ⟨s, heq, ⟨hshift, hsize⟩, hleast⟩ := ih
    rw [ceilDiv_two_pow_succ] at heq hsize
    refine ⟨s + 1, by rw [heq, Nat.add_right_comm, Nat.add_assoc], ⟨by omega, hsize⟩, ?_⟩
    rintro (_ | k) ⟨hk, hfits⟩
    · rw [pow_zero, ceilDiv_one] at hfits
      omega
    · rw [← ceilDiv_two_pow_succ] at hfits
      exact Nat.succ_le_succ (hleast ⟨by omega, hfits⟩)
  | case2 nSec nShift hdone =>
    refine ⟨0, by rw [pow_zero, ceilDiv_one, Nat.add_zero], ⟨by omega, ?_⟩,
      fun k _ => Nat.zero_le k⟩
    rw [pow_zero, ceilDiv_one]
    omega

theorem two_pow_mul_ceilDiv_lt (n s : ℕ) : 2 ^ s * (n ⌈/⌉ 2 ^ s) < n + 2 ^ s := by
  have hpos := Nat.two_pow_pos s
  have hle := Nat.mul_div_le (n + 2 ^ s - 1) (2 ^ s)
  rw [Nat.ceilDiv_eq_add_pred_div]
  omega

theorem csdSize_fits (h : nSec ≤ 4194304) : ∃ s, csdSize nSec 0 = (nSec ⌈/⌉ 2 ^ s, s) ∧
    2 ≤ s ∧ s ≤ 10 ∧ nSec ⌈/⌉ 2 ^ s ≤ 4096 ∧ granularity nSec = 2 ^ s := by
  obtain ⟨s, heq, hleast⟩ := csdSize_eq nSec 0
  simp only [Nat.zero_add] at heq hleast
  have hten : s ≤ 10 := hleast.2
    ⟨by decide, (ceilDiv_le_iff_le_mul (Nat.two_pow_pos 10)).mpr (h.trans (by decide))⟩
  have hstep : granularity nSec = 2 ^ s := by
    rw [granularity, if_pos h, fittingShifts, hleast.csInf_eq]
  exact ⟨s, heq, hleast.1.1, hten, hleast.1.2, hstep⟩

end Halving

/-- The first version with its three fields. -/
def csdV1 (cSize cSizeMult blLen : Word) : List Byte :=
  [0x00, 0x0e, 0x00, 0x5a, 0x5b, (blLen ||| 0x50).setWidth 8, ((cSize >>> 10) ||| 0x80).setWidth 8,
    (cSize >>> 2).setWidth 8, ((cSize <<< 6) ||| 0x2d).setWidth 8,
    ((cSizeMult >>> 1) ||| 0xd8).setWidth 8, (15 + (cSizeMult <<< 7)).setWidth 8,
    ((31 : Word) <<< 7).setWidth 8, ((blLen >>> 2) ||| 8).setWidth 8, (blLen <<< 6).setWidth 8,
    0x00]

variable {vsd : Vsd}

theorem registerCapacity_csdV1 {cSize cSizeMult blLen : Word} (hsize : cSize.toNat < 2 ^ 12)
    (hmult : cSizeMult.toNat < 2 ^ 3) (hlen : blLen.toNat < 2 ^ 4) (rest : List Byte) :
    registerCapacity (csdV1 cSize cSizeMult blLen ++ rest) =
      (cSize.toNat + 1) * 2 ^ (cSizeMult.toNat + 2) * 2 ^ blLen.toNat := by
  have hor : 15#32 + cSizeMult <<< 7 = 15#32 ||| cSizeMult <<< 7 := by
    apply add_eq_or_of_and_eq_zero
    ext i hi
    interval_cases i <;> simp
  have hversion : csdField (csdV1 cSize cSizeMult blLen ++ rest) 126 2 = 0 := by
    apply csdField_eq (by decide)
    intro i hi
    interval_cases i <;> simp [csdBit, csdV1]
  have hcsize : csdCSize (csdV1 cSize cSizeMult blLen ++ rest) = cSize.toNat := by
    apply csdField_eq hsize
    intro i hi
    rw [testBit_toNat]
    interval_cases i <;> simp [csdBit, csdV1]
  have hcmult : csdCSizeMult (csdV1 cSize cSizeMult blLen ++ rest) = cSizeMult.toNat := by
    apply csdField_eq hmult
    intro i hi
    rw [testBit_toNat]
    interval_cases i <;> simp [csdBit, csdV1, hor]
  have hbl : csdReadBlLen (csdV1 cSize cSizeMult blLen ++ rest) = blLen.toNat := by
    apply csdField_eq hlen
    intro i hi
    rw [testBit_toNat]
    interval_cases i <;> simp [csdBit, csdV1]
  rw [registerCapacity, hversion]
  simp [csdCapacity, hcsize, hcmult, hbl]

theorem registerCapacity_getCsdV2 (hmax : vsd.nSec.toNat ≤ 2 ^ 32 - 1024)
    (hpos : 0 < vsd.nSec.toNat) (rest : List Byte) :
    registerCapacity (vsd.getCsdV2 ++ rest) = (vsd.nSec.toNat ⌈/⌉ 1024) * (512 * 1024) := by
  generalize hcSize : (vsd.nSec + 1023) / 1024 - 1 = cSize
  have hsize : cSize.toNat + 1 = vsd.nSec.toNat ⌈/⌉ 1024 ∧ cSize.toNat < 2 ^ 22 := by
    have hsum : (vsd.nSec + 1023).toNat = vsd.nSec.toNat + 1023 := by
      exact Nat.mod_eq_of_lt (by change _ + 1023 < _; omega)
    have hquotient : ((vsd.nSec + 1023) / 1024).toNat = (vsd.nSec.toNat + 1023) / 1024 := by
      rw [toNat_udiv, hsum]
      rfl
    rw [← hcSize, Nat.ceilDiv_eq_add_pred_div, toNat_sub, hquotient]
    change (2 ^ 32 - 1 + _) % _ + 1 = _ ∧ (2 ^ 32 - 1 + _) % _ < _
    omega
  have hversion : csdField (vsd.getCsdV2 ++ rest) 126 2 = 1 := by
    apply csdField_eq (by decide)
    intro i hi
    interval_cases i
    · simp [csdBit, Vsd.getCsdV2]
    · simp [csdBit, Vsd.getCsdV2]
      decide
  have hfield : csdField (vsd.getCsdV2 ++ rest) 48 22 = cSize.toNat := by
    apply csdField_eq hsize.2
    intro i hi
    rw [testBit_toNat, Vsd.getCsdV2, hcSize]
    interval_cases i <;> simp [csdBit]
  rw [registerCapacity, hversion]
  simp only [hfield, hsize.1]

theorem registerCapacity_getCsdV1 (hsmall : vsd.nSec.toNat ≤ 4194304) (hpos : 0 < vsd.nSec.toNat)
    (rest : List Byte) : ∃ s, granularity vsd.nSec.toNat = 2 ^ s ∧ ¬ vsd.CardTooBig ∧
      registerCapacity (vsd.getCsdV1 ++ rest) = 2 ^ s * (vsd.nSec.toNat ⌈/⌉ 2 ^ s) * 512 := by
  obtain ⟨s, hcsd, htwo, hten, hfits, hstep⟩ := csdSize_fits hsmall
  have hceil : 0 < vsd.nSec.toNat ⌈/⌉ 2 ^ s := by
    refine Nat.pos_of_ne_zero fun hzero => ?_
    have hle := le_smul_ceilDiv (b := vsd.nSec.toNat) (Nat.two_pow_pos s)
    rw [hzero, smul_zero] at hle
    omega
  have hrest : ¬ s - 2 - min (s - 2) 7 > 1 := by omega
  have hcSize : (BitVec.ofNat 32 (vsd.nSec.toNat ⌈/⌉ 2 ^ s) - 1).toNat + 1 =
      vsd.nSec.toNat ⌈/⌉ 2 ^ s := by bv_omega
  have hmult : (BitVec.ofNat 32 (min (s - 2) 7)).toNat = min (s - 2) 7 :=
    Nat.mod_eq_of_lt (by omega)
  have hlen : (BitVec.ofNat 32 (s - 2 - min (s - 2) 7 + 9)).toNat = s - 2 - min (s - 2) 7 + 9 :=
    Nat.mod_eq_of_lt (by omega)
  have heq : vsd.getCsdV1 = csdV1 (BitVec.ofNat 32 (vsd.nSec.toNat ⌈/⌉ 2 ^ s) - 1)
      (BitVec.ofNat 32 (min (s - 2) 7)) (BitVec.ofNat 32 (s - 2 - min (s - 2) 7 + 9)) := by
    rw [getCsdV1, hcsd]
    simp only [if_neg hrest]
    rfl
  refine ⟨s, hstep, fun h => hrest (by simpa only [hcsd] using h.2), ?_⟩
  rw [heq, registerCapacity_csdV1 (by omega) (by omega) (by omega), hcSize, hmult, hlen, mul_assoc,
    ← pow_add]
  have hexp : min (s - 2) 7 + 2 + (s - 2 - min (s - 2) 7 + 9) = s + 9 := by omega
  rw [hexp, pow_add, mul_comm, mul_right_comm]
  rfl

/-- A command, or a block of data. -/
inductive CardStep : Vsd → Vsd → Prop where
  | command {vsd vsd' cmd param reply replTyp reply'}
    (h : vsd.vsdCommand cmd param reply = .ok (replTyp, reply', vsd')) : CardStep vsd vsd'
  | toCard (vsd : Vsd) (card : SdCard) (data : Block) (blockSz : ℕ) :
    CardStep vsd (vsd.dataXferBlockToCard card data blockSz).2.1
  | fromCard (vsd : Vsd) (card : SdCard) (blockSz : ℕ) :
    CardStep vsd (vsd.dataXferBlockFromCard card blockSz).2.2

def SameSize (vsd vsd' : Vsd) : Prop := vsd'.nSec = vsd.nSec ∧ vsd'.hcCard = vsd.hcCard

theorem commandSwitch_sameSize {cmd : Byte} {param : Word} {reply : Reply} {wasAcmd : Bool}
    {answer : Answer} (h : vsd.commandSwitch cmd param reply wasAcmd = .ok answer) :
    SameSize vsd answer.vsd := by
  unfold commandSwitch command6 at h
  split at h
  all_goals
    (try split_ifs at h) <;> cases h
  all_goals
    try simp only [command3, command7, command8, command12, command13, command16, command23,
      command41, command51, command55, startData]
  all_goals
    (try split_ifs) <;> exact ⟨rfl, rfl⟩

theorem CardStep.sameSize {vsd vsd' : Vsd} (h : CardStep vsd vsd') : SameSize vsd vsd' := by
  cases h with
  | command h =>
    unfold vsdCommand at h
    cases hanswer : { vsd with acmdShift := false }.commandSwitch _ _ (_ : Reply) vsd.acmdShift with
    | error fault =>
      rw [hanswer] at h
      cases h
    | ok answer =>
      rw [hanswer] at h
      cases h
      have hsame := commandSwitch_sameSize hanswer
      exact hsame
  | toCard card data blockSz =>
    unfold dataXferBlockToCard
    split_ifs <;> try exact ⟨rfl, rfl⟩
    split <;> exact ⟨rfl, rfl⟩
  | fromCard card blockSz =>
    unfold dataXferBlockFromCard
    split_ifs <;> try exact ⟨rfl, rfl⟩
    split <;> exact ⟨rfl, rfl⟩

theorem sameSize_of_run {vsd vsd' : Vsd} (h : Relation.ReflTransGen CardStep vsd vsd') :
    SameSize vsd vsd' := by
  induction h with
  | refl => exact ⟨rfl, rfl⟩
  | tail _ hstep ih => exact ⟨hstep.sameSize.1.trans ih.1, hstep.sameSize.2.trans ih.2⟩

theorem reply136_register (vsd : Vsd) (reply : Reply) (cmd crc : Byte) {csd : List Byte}
    (hlength : csd.length = 15) :
    ((vsd.reply136 reply (cmd :: csd)).reply.set 16 crc).toList.tail = csd ++ [crc] := by
  apply List.ext_getElem
  · simp [hlength]
  · intro i hi hi'
    have hlt : i < 16 := by simpa [hlength] using hi'
    rw [List.getElem_tail, Vector.getElem_toList, Vector.getElem_set]
    split_ifs with hlast
    · obtain rfl : i = csd.length := by omega
      simp
    · have hin : i + 1 < 16 := by omega
      have hcsd : i < csd.length := by omega
      simp [reply136, hin, hcsd]

theorem command9_register (hstate : vsd.state = .stby) (param : Word) (reply : Reply) :
    ∃ reply' rest, vsd.vsdCommand 9 param reply =
        .ok (.bits136, reply', { vsd with acmdShift := false }) ∧
      reply'.toList.tail = (if vsd.hcCard then vsd.getCsdV2 else vsd.getCsdV1) ++ rest := by
  let answer := { vsd with acmdShift := false }.reply136 (reply.set 0 9)
    (9 :: if vsd.hcCard then vsd.getCsdV2 else vsd.getCsdV1)
  refine ⟨answer.reply.set 16 (vsdCRC7 answer.reply 16), [vsdCRC7 answer.reply 16], ?_, ?_⟩
  · have hcommand : { vsd with acmdShift := false }.commandSwitch 9 param (reply.set 0 9)
        vsd.acmdShift = .ok answer := by
      change Except.ok (ite _ _ _) = _
      rw [if_neg (not_not.mpr hstate)]
      rfl
    rw [vsdCommand, hcommand]
    rfl
  · apply reply136_register
    split_ifs <;> rfl

/-- Whatever the card has been told before, the register that it sends covers it. -/
theorem register_covers_card (vsd card : Vsd) (nSec : Word) (hpos : 1 ≤ nSec.toNat)
    (hmax : nSec.toNat ≤ 2 ^ 32 - 1024)
    (hrun : Relation.ReflTransGen CardStep (vsd.vsdReset nSec) card) (hstate : card.state = .stby)
    (param : Word) (reply : Reply) :
    (∃ s ≤ 20, csdSize nSec.toNat 0 = (nSec.toNat ⌈/⌉ 2 ^ s, s)) ∧ ¬ card.CardTooBig ∧
      ∃ reply' size, card.vsdCommand 9 param reply =
          .ok (.bits136, reply', { card with acmdShift := false }) ∧
        registerCapacity reply'.toList.tail = size * 512 ∧ nSec.toNat ≤ size ∧
        size < nSec.toNat + granularity nSec.toNat := by
  obtain ⟨hsec, hhc⟩ := sameSize_of_run hrun
  subst hsec
  have hloop : ∃ s ≤ 20, csdSize card.nSec.toNat 0 = (card.nSec.toNat ⌈/⌉ 2 ^ s, s) := by
    obtain ⟨s, heq, hleast⟩ := csdSize_eq card.nSec.toNat 0
    rw [Nat.zero_add] at heq
    exact ⟨s, hleast.2 ⟨by omega, (ceilDiv_le_iff_le_mul (Nat.two_pow_pos 20)).mpr (by omega)⟩, heq⟩
  obtain ⟨reply', rest, hsent, hregister⟩ := command9_register hstate param reply
  refine ⟨hloop, ?_⟩
  by_cases hbig : 4194304 < card.nSec.toNat
  · have hhc : card.hcCard = true := hhc.trans (decide_eq_true hbig)
    refine ⟨fun h => Bool.false_ne_true (h.1.symm.trans hhc), reply',
      (card.nSec.toNat ⌈/⌉ 1024) * 1024, hsent, ?_, ?_, ?_⟩
    · rw [hregister, if_pos hhc, registerCapacity_getCsdV2 hmax hpos, mul_comm 512, ← mul_assoc]
    · rw [Nat.ceilDiv_eq_add_pred_div]
      omega
    · rw [Nat.ceilDiv_eq_add_pred_div, granularity, if_neg (by omega)]
      omega
  · have hhc : card.hcCard = false := hhc.trans (decide_eq_false hbig)
    obtain ⟨s, hstep, hfits, hcapacity⟩ := registerCapacity_getCsdV1 (not_lt.mp hbig) hpos rest
    refine ⟨hfits, reply', _, hsent, ?_, le_smul_ceilDiv (Nat.two_pow_pos s), ?_⟩
    · rwa [hregister, hhc]
    · rw [hstep]
      exact two_pow_mul_ceilDiv_lt _ _

/-- The state after a command that does not halt the emulator. -/
def told (vsd : Vsd) (command : Byte × Word) : Vsd :=
  match vsd.vsdCommand command.1 command.2 (Vector.replicate 17 0) with
  | .ok answer => answer.2.2
  | .error _ => vsd

theorem run_told (commands : List (Byte × Word)) (vsd : Vsd) :
    Relation.ReflTransGen CardStep vsd (commands.foldl told vsd) := by
  induction commands generalizing vsd with
  | nil => exact .refl
  | cons command commands ih =>
    refine Relation.ReflTransGen.trans ?_ (ih (told vsd command))
    rw [told]
    split
    · rename_i answer hanswer
      exact .single (.command hanswer)
    · exact .refl

/-- The commands by which a host finds out about the card. -/
def identification : List (Byte × Word) :=
  (List.replicate 21 [(55, 0), (41, 0x40ff8000)]).flatten ++ [(2, 0), (3, 0)]

theorem register_covers_card_identified :
    ∃ reply' size, (identification.foldl told (init.vsdReset 5)).vsdCommand 9 0
        (Vector.replicate 17 0) = .ok (.bits136, reply',
          { identification.foldl told (init.vsdReset 5) with acmdShift := false }) ∧
      registerCapacity reply'.toList.tail = size * 512 ∧ 5 ≤ size ∧ size < 5 + granularity 5 :=
  (register_covers_card init (identification.foldl told (init.vsdReset 5)) 5 (by decide)
    (by decide) (run_told identification (init.vsdReset 5)) (by decide +kernel) 0
    (Vector.replicate 17 0)).2.2

end Cloudpilot.Uarm.Mmc
