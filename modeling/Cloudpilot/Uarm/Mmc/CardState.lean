import Mathlib.Data.BitVec
import Mathlib.Logic.Function.Iterate
import Cloudpilot.Uarm.Mmc.AccessSafety
import Cloudpilot.Uarm.Mmc.GuestTransfers

/-! # Commands with a short reply

A command that the card answers with a short reply reaches the card with its argument,
passes the check of its checksum and moves on to its transfer. What the registers for
status and response show besides errors of the transfer does not matter behind it.
-/

namespace Cloudpilot.Uarm.Mmc

open Cpu BitVec Function

section

variable {m m' : Machine} {vsd : Vsd} {flags : Byte}

theorem and_or_clear {w : ℕ} (a b c : BitVec w) (h : b &&& c = 0#w) : (a ||| b) &&& c = a &&& c := by
  ext i hi
  have hbit := congrArg (fun x : BitVec w => x[i]) h
  simp only [getElem_and, getElem_or, getElem_zero] at hbit ⊢
  cases ha : a[i] <;> cases hb : b[i] <;> simp_all

def Status.errors (status : Status) : BitVec 16 := status.stat &&& 0x000d

theorem failed_eq (m : Machine) : m.failed = decide (m.mmc.status.errors ≠ 0) := rfl

theorem recalc_errors (status : Status) (iMask cmdat : Byte) (tx rx : Bool) :
    (status.recalc iMask cmdat tx rx).errors = status.errors := by
  have htx (s : BitVec 16) : (if tx then s ||| 0x40 else s) &&& 0x000d = s &&& 0x000d := by
    split
    · exact and_or_clear s _ _ (by decide)
    · rfl
  have hrx (s : BitVec 16) : (if rx then s ||| 0x80 else s) &&& 0x000d = s &&& 0x000d := by
    split
    · exact and_or_clear s _ _ (by decide)
    · rfl
  exact (hrx _).trans (htx _)

theorem setStat_errors (status : Status) (bits : BitVec 16) (hbits : bits &&& 0x000d = 0#16) :
    (status.setStat bits).errors = status.errors :=
  and_or_clear _ _ _ hbits

theorem setStat_failed (status : Status) {bits : BitVec 16} (hbits : bits &&& 0x000d ≠ 0#16) :
    (status.setStat bits).errors ≠ 0#16 := by
  intro h
  apply hbits
  ext i hi
  have hbit := congrArg (fun x : BitVec 16 => x[i]) h
  simp only [Status.errors, Status.setStat, getElem_and, getElem_or,
    getElem_zero] at hbit ⊢
  cases hb : bits[i] <;> simp_all

theorem failed_of_errors (h : m'.mmc.status.errors = m.mmc.status.errors) :
    m'.failed = m.failed := by
  rw [failed_eq, failed_eq, h]

/-- The controller with a command about to be sent. -/
def PxaMmc.prepared (mmc : PxaMmc) (cmd arg cmdat : Word) : PxaMmc :=
  PxaMmc.recalc { mmc with
    cmdReg := 0x40 ||| (cmd &&& 0x3f).setWidth 8
    arg := arg
    cmdat := cmdat.setWidth 8
    status := { mmc.status with stat := (mmc.status.stat &&& 0x100) ||| 0x40 } }

theorem prepared_errors (mmc : PxaMmc) (cmd arg cmdat : Word) :
    (mmc.prepared cmd arg cmdat).status.errors = 0#16 := by
  rw [PxaMmc.prepared, PxaMmc.recalc, recalc_errors, Status.errors]
  rw [and_or_clear _ _ _ (by decide), BitVec.and_assoc]
  exact BitVec.and_zero

theorem arg_assembled (old arg : Word) :
    (((old &&& 0x0000ffff#32) ||| (arg >>> 16) <<< 16) &&& 0xffff0000#32) ||| (arg &&& 0xffff#32) =
      arg := by
  have hhigh : ∀ i, ∀ h : i < 32, (0xffff0000#32)[i] = decide (16 ≤ i) := by decide
  have hlow : ∀ i, ∀ h : i < 32, (0xffff#32)[i] = decide (i < 16) := by decide
  ext i hi
  rw [getElem_or, getElem_and, getElem_or, getElem_and,
    getElem_and, hhigh i hi, hlow i hi]
  by_cases h16 : i < 16
  · simp [h16]
  · have hback : 16 + (i - 16) = i := by omega
    simp [h16, hback, hi]
    omega

theorem writeCmdat_sends (hclock : m.mmc.clockOn = true) (val : Word) :
    (m.writeCmdat val).map BusAccess.machine = Machine.sendCommand
      (m.modify fun mmc => PxaMmc.recalc { mmc with
        cmdat := val.setWidth 8
        status := { mmc.status with stat := (mmc.status.stat &&& 0x100) ||| 0x40 } }) := by
  unfold Machine.writeCmdat
  dsimp only
  split
  · cases Machine.sendCommand _ <;> rfl
  · rename_i hoff
    exact absurd hclock hoff

theorem sdCommand_eq (hclock : m.mmc.clockOn = true) (cmd arg dat : Word) :
    m.sdCommand cmd arg dat = (m.modify fun mmc => mmc.prepared cmd arg dat).sendCommand := by
  have hwritten : m.sdCommand cmd arg dat = Except.map BusAccess.machine
      (Machine.writeCmdat { m with mmc := { m.mmc with
        cmdReg := 0x40 ||| (cmd &&& 0x3f).setWidth 8
        arg := (((m.mmc.arg &&& 0x0000ffff#32) ||| (arg >>> 16) <<< 16) &&& 0xffff0000#32) |||
          (arg &&& 0xffff#32) } } dat) := rfl
  rw [hwritten, arg_assembled]
  refine writeCmdat_sends ?_ dat
  exact hclock

theorem vsdCRC7_set (reply : Reply) (crc : Byte) {h : 5 < 17} :
    vsdCRC7 (reply.set 5 crc) 5 = vsdCRC7 reply 5 := by
  have htake : (reply.set 5 crc).toList.take 5 = reply.toList.take 5 := by
    rw [Vector.toList_set, List.take_set_of_le (by decide)]
  rw [vsdCRC7, htake, vsdCRC7]

theorem crcFails_set (reply : Reply) {h : 5 < 17} :
    crcFails (reply.set 5 (vsdCRC7 reply 5)) 5 = .ok false := by
  rw [crcFails]
  simp [vsdCRC7_set]

/-- A short reply with a checksum. -/
structure Answer.Short (answer : Answer) : Prop where
  replTyp : answer.replTyp = .bits48
  needsCrc : answer.needsCrc = true

theorem takeReply_short (m : Machine) {answer : Answer} (h : answer.Short)
    (hcmdat : m.mmc.cmdat &&& 3 = 1) :
    ∃ status respBuf, status.errors = m.mmc.status.errors ∧
      m.takeReply answer.replTyp answer.withCrc =
        .ok (true, { m with mmc := { m.mmc with status := status, respBuf := respBuf } }) := by
  have hbit : m.mmc.cmdat &&& 1 ≠ 0 := by
    intro hzero
    have hlow : m.mmc.cmdat &&& 3 &&& 1 = 0 := by
      rwa [BitVec.and_assoc]
    rw [hcmdat] at hlow
    cases hlow
  have hcrc : answer.withCrc = answer.reply.set 5 (vsdCRC7 answer.reply 5) := by
    rw [Answer.withCrc, if_pos h.needsCrc, h.replTyp]
  obtain ⟨respBuf, hstore⟩ : ∃ respBuf, storeResponse answer.withCrc 5 m.mmc.respBuf = .ok respBuf :=
    storeResponse_ok _ _ (by decide)
  refine ⟨_, respBuf, setStat_errors m.mmc.status 0x2000 (by decide), ?_⟩
  have hexpected : expectedReply m.mmc.cmdat answer.replTyp =
      (5, true, decide (m.mmc.cmdat &&& 1 = 0 ∨ m.mmc.cmdat &&& 2 = 0)) := by
    grind [h.replTyp, expectedReply]
  have hcheck (check : Bool) : (if true = true ∧ 5 ≠ 0 ∧ check = true then
      crcFails answer.withCrc 5 else .ok false) = .ok false := by
    split
    · rw [hcrc]
      exact crcFails_set _
    · rfl
  unfold Machine.takeReply
  rw [hexpected]
  dsimp only
  rw [hcheck]
  dsimp only [bind, Except.bind]
  rw [if_pos rfl, hstore]
  rfl

theorem sendCommand_short (hvsd : m.mmc.vsd = true) (hcmdat : m.mmc.cmdat &&& 3 = 1)
    {answer : Answer} (h : answer.Short) {hpos : 0 < 17}
    (hcommand : Vsd.commandSwitch { m.vsd with acmdShift := false } (m.mmc.cmdReg &&& 0x3f)
      m.mmc.arg ((Vector.replicate 17 0).set 0 (m.mmc.cmdReg &&& 0x3f)) m.vsd.acmdShift =
        .ok answer) :
    ∃ status respBuf, status.errors = m.mmc.status.errors ∧
      m.sendCommand = Machine.finishCommand ⟨{ m.mmc with
        cmdQueued := false, status := status, respBuf := respBuf }, answer.vsd, m.card⟩ true := by
  obtain ⟨status, respBuf, herrors, htake⟩ := takeReply_short
    ⟨{ m.mmc with cmdQueued := false }, answer.vsd, m.card⟩ h hcmdat
  refine ⟨status, respBuf, herrors, ?_⟩
  have hcall : (m.modify fun mmc => { mmc with cmdQueued := false }).callCard =
      .ok (answer.replTyp, answer.withCrc, ⟨{ m.mmc with cmdQueued := false }, answer.vsd, m.card⟩) := by
    have hinserted : (m.modify fun mmc => { mmc with cmdQueued := false }).mmc.vsd = true := hvsd
    unfold Machine.callCard
    rw [if_pos hinserted]
    have hvsdCommand : m.vsd.vsdCommand (m.mmc.cmdReg &&& 0x3f) m.mmc.arg (Vector.replicate 17 0) =
        .ok (answer.replTyp, answer.withCrc, answer.vsd) := by
      unfold Vsd.vsdCommand
      rw [hcommand]
      rfl
    change Except.map _ (m.vsd.vsdCommand (m.mmc.cmdReg &&& 0x3f) m.mmc.arg
      (Vector.replicate 17 0)) = _
    rw [hvsdCommand]
    rfl
  unfold Machine.sendCommand
  rw [hcall]
  dsimp only [bind, Except.bind]
  rw [htake]

theorem cmdat_reply (flags : Byte) (data writes : Bool) :
    (Machine.cmdat flags data writes).setWidth 8 &&& 3 = (1 : Byte) := by
  revert flags
  cases data <;> cases writes <;> decide

theorem cmdat_data (flags : Byte) (data writes : Bool) :
    ((Machine.cmdat flags data writes).setWidth 8 &&& 4 ≠ (0 : Byte)) ↔ data = true := by
  revert flags
  cases data <;> cases writes <;> decide

theorem cmdat_write (flags : Byte) (data writes : Bool) :
    ((Machine.cmdat flags data writes).setWidth 8 &&& 8 ≠ (0 : Byte)) ↔ writes = true := by
  revert flags
  cases data <;> cases writes <;> decide

/-- What commands without data leave alone. -/
structure Undisturbed (m m' : Machine) : Prop where
  card : m'.card = m.card
  vsd : m'.mmc.vsd = m.mmc.vsd
  clockOn : m'.mmc.clockOn = m.mmc.clockOn
  blkLen : m'.mmc.blkLen = m.mmc.blkLen
  numBlks : m'.mmc.numBlks = m.mmc.numBlks

theorem sdCommand_short (flags : Byte) (hvsd : m.mmc.vsd = true) (hclock : m.mmc.clockOn = true)
    (cmd arg : Word) {answer : Answer} (h : answer.Short) {hpos : 0 < 17}
    (hcommand : Vsd.commandSwitch { m.vsd with acmdShift := false }
      ((0x40 ||| (cmd &&& 0x3f).setWidth 8) &&& 0x3f) arg
      ((Vector.replicate 17 0).set 0 ((0x40 ||| (cmd &&& 0x3f).setWidth 8) &&& 0x3f))
      m.vsd.acmdShift = .ok answer) :
    ∃ m', m.sdCommand cmd arg (Machine.cmdat flags false false) = .ok m' ∧ Undisturbed m m' ∧
      m'.vsd = answer.vsd := by
  rw [sdCommand_eq hclock]
  obtain ⟨status, respBuf, -, hsend⟩ := sendCommand_short
    (m := m.modify fun mmc => mmc.prepared cmd arg (Machine.cmdat flags false false)) hvsd
    (cmdat_reply flags false false) h hcommand
  rw [hsend]
  unfold Machine.finishCommand
  rw [if_neg (fun hdata => absurd ((cmdat_data flags false false).mp hdata.2) (by decide))]
  refine ⟨_, rfl, ?_, ?_⟩
  · split <;> exact ⟨rfl, rfl, rfl, rfl, rfl⟩
  · split <;> rfl

end

variable {m m' : Machine} {vsd : Vsd} {flags : Byte} {n : ℕ}

namespace Vsd

theorem short_prepareR1resp (vsd : Vsd) (cmd : Byte) (reply : Reply) (bic orr : Word) :
    (vsd.prepareR1resp cmd reply bic orr).Short := ⟨rfl, rfl⟩

/-- The card after `CMD23`. -/
def expect (vsd : Vsd) (count : Word) : Vsd :=
  { vsd with
    acmdShift := false
    reportAcmdNext := false
    haveExpectedNumBlocks := count ≠ 0
    numBlocksExpected := count }

/-- The card after the command that starts a transfer of data. -/
def begin (vsd : Vsd) (sector : Word) (state : State) (multi : Bool) : Vsd :=
  { vsd with
    acmdShift := false
    reportAcmdNext := false
    haveExpectedNumBlocks := multi && vsd.haveExpectedNumBlocks
    curSec := sector
    state := state
    bufIsData := true
    bufContinuous := multi
    curBufLen := 512 }

/-- The number of blocks after which the card ends a transfer by itself. -/
def left (vsd : Vsd) : ℕ :=
  if vsd.bufContinuous then
    if vsd.haveExpectedNumBlocks ∧ vsd.numBlocksExpected ≠ 0 then vsd.numBlocksExpected.toNat
    else 2 ^ 32
  else 1

theorem left_pos (vsd : Vsd) : 0 < vsd.left := by
  unfold left
  split_ifs with h1 h2
  · rw [Nat.pos_iff_ne_zero]
    intro hzero
    exact h2.2 (eq_of_toNat_eq hzero)
  · omega
  · omega

/-- The card after some blocks of a transfer that goes on. -/
def moved (vsd : Vsd) (n : ℕ) : Vsd :=
  { vsd with
    curSec := vsd.curSec + BitVec.ofNat 32 n
    numBlocksExpected := if vsd.haveExpectedNumBlocks then
      vsd.numBlocksExpected - BitVec.ofNat 32 n else vsd.numBlocksExpected }

theorem ofNat_succ (n : ℕ) : BitVec.ofNat 32 (n + 1) = BitVec.ofNat 32 n + 1 := by
  rw [ofNat_add]
  rfl

theorem sub_ofNat_succ (x : Word) (n : ℕ) :
    x - BitVec.ofNat 32 (n + 1) = x - BitVec.ofNat 32 n - 1 := by
  rw [ofNat_succ]
  ring

theorem eq_of_sub_eq_zero {x y : Word} (h : x - y = 0) : x = y := sub_eq_zero.mp h

theorem count_ne_zero (h : n + 1 < vsd.left) (hhave : vsd.haveExpectedNumBlocks = true) :
    vsd.numBlocksExpected - BitVec.ofNat 32 n - 1 ≠ 0 := by
  rw [← sub_ofNat_succ]
  intro hzero
  have heq : vsd.numBlocksExpected = BitVec.ofNat 32 (n + 1) := eq_of_sub_eq_zero hzero
  unfold left at h
  split_ifs at h with h1 h2
  · rw [heq, BitVec.toNat_ofNat] at h
    omega
  · apply h2
    refine ⟨hhave, ?_⟩
    rw [heq]
    intro hzero'
    have hnat := congrArg BitVec.toNat hzero'
    rw [BitVec.toNat_ofNat, Nat.mod_eq_of_lt h] at hnat
    cases hnat
  · omega

theorem bufContinuous_of_left (h : n + 1 < vsd.left) : vsd.bufContinuous = true := by
  by_contra hsingle
  rw [left, if_neg hsingle] at h
  omega

theorem nextBlock_continues (vsd : Vsd) (hcontinuous : vsd.bufContinuous = true)
    (hcount : vsd.haveExpectedNumBlocks = true → vsd.numBlocksExpected - 1 ≠ 0) :
    vsd.nextBlock = { vsd with
      curSec := vsd.curSec + 1
      numBlocksExpected := if vsd.haveExpectedNumBlocks then vsd.numBlocksExpected - 1
        else vsd.numBlocksExpected } := by
  unfold nextBlock
  cases hhave : vsd.haveExpectedNumBlocks with
  | false =>
    simp [hcontinuous]
  | true =>
    have hne := hcount hhave
    simp only [if_true, true_and, if_neg hne, hcontinuous]

theorem nextBlock_ends (h : vsd.bufContinuous = false ∨
    (vsd.haveExpectedNumBlocks = true ∧ vsd.numBlocksExpected - 1 = 0)) :
    vsd.nextBlock.state = .tran := by
  have hcut : vsd.nextBlock.bufContinuous = false := by
    unfold nextBlock
    dsimp only
    rcases h with hsingle | ⟨hhave, hzero⟩
    · rw [hsingle, ite_self]
    · rw [if_pos hhave, if_pos ⟨hhave, hzero⟩]
  change (if vsd.nextBlock.bufContinuous = true then vsd.state else .tran) = .tran
  rw [hcut]
  rfl

/-- Blocks within the count, by induction on their number. -/
theorem iterate_nextBlock (h : n < vsd.left) : nextBlock^[n] vsd = vsd.moved n := by
  induction n with
  | zero => simp [moved]
  | succ n ih =>
    rw [iterate_succ_apply', ih (by omega)]
    have hcontinuous := bufContinuous_of_left h
    rw [nextBlock_continues (vsd.moved n) hcontinuous]
    · have hsec : vsd.curSec + BitVec.ofNat 32 n + 1 = vsd.curSec + BitVec.ofNat 32 (n + 1) := by
        rw [ofNat_succ, add_assoc]
      by_cases hhave : vsd.haveExpectedNumBlocks = true
      · simp only [moved, hsec, if_pos hhave, sub_ofNat_succ]
      · simp only [moved, hsec, if_neg hhave]
    · intro (hhave : vsd.haveExpectedNumBlocks = true)
      change (if vsd.haveExpectedNumBlocks = true then _ else _) - 1 ≠ 0
      rw [if_pos hhave]
      exact count_ne_zero h hhave

theorem iterate_nextBlock_left (h : vsd.left < 2 ^ 32) :
    (nextBlock^[vsd.left] vsd).state = .tran := by
  obtain ⟨n, hn⟩ := Nat.exists_eq_succ_of_ne_zero vsd.left_pos.ne'
  rw [hn, iterate_succ_apply', iterate_nextBlock (by omega)]
  apply nextBlock_ends
  unfold left at hn h
  split_ifs at hn h with h1 h2
  · right
    refine ⟨h2.1, ?_⟩
    have heq : vsd.numBlocksExpected = BitVec.ofNat 32 (n + 1) := by
      rw [← Nat.succ_eq_add_one, ← hn, BitVec.ofNat_toNat, BitVec.setWidth_eq]
    have hcount : (vsd.moved n).numBlocksExpected = vsd.numBlocksExpected - BitVec.ofNat 32 n :=
      if_pos h2.1
    rw [hcount, ← sub_ofNat_succ, heq, sub_self]
  · omega
  · left
    rwa [Bool.not_eq_true] at h1

theorem iterate_hcCard (vsd : Vsd) (n : ℕ) : (nextBlock^[n] vsd).hcCard = vsd.hcCard := by
  induction n with
  | zero => rfl
  | succ n ih =>
    rw [iterate_succ_apply']
    exact ih

theorem iterate_acmdShift (vsd : Vsd) (n : ℕ) : (nextBlock^[n] vsd).acmdShift = vsd.acmdShift := by
  induction n with
  | zero => rfl
  | succ n ih =>
    rw [iterate_succ_apply']
    exact ih

theorem iterate_state (vsd : Vsd) (n : ℕ) :
    (nextBlock^[n] vsd).state = vsd.state ∨ (nextBlock^[n] vsd).state = .tran := by
  induction n with
  | zero => exact Or.inl rfl
  | succ n ih =>
    rw [iterate_succ_apply']
    change (if (nextBlock^[n] vsd).nextBlock.bufContinuous = true then (nextBlock^[n] vsd).state
      else State.tran) = _ ∨ (if (nextBlock^[n] vsd).nextBlock.bufContinuous = true then
        (nextBlock^[n] vsd).state else State.tran) = _
    cases (nextBlock^[n] vsd).nextBlock.bufContinuous with
    | true => exact ih
    | false => exact Or.inr rfl

theorem commandSwitch_expect (hstate : vsd.state = .tran) (hshift : vsd.acmdShift = false)
    (count : Word) (reply : Reply) : ∃ answer : Answer, answer.Short ∧
      { vsd with acmdShift := false }.commandSwitch 23 count reply vsd.acmdShift = .ok answer ∧
      answer.vsd = vsd.expect count := by
  refine ⟨prepareR1resp { vsd with
    acmdShift := false
    haveExpectedNumBlocks := count ≠ 0
    numBlocksExpected := count } 23 reply 0 0, short_prepareR1resp _ _ _ _ _, ?_, rfl⟩
  rw [hshift]
  change Except.ok (command23 _ 23 count reply false) = _
  unfold command23
  rw [if_neg (by simp [hstate]), if_neg (by decide)]

theorem commandSwitch_stop (vsd : Vsd) (hstate : vsd.state = .data ∨ vsd.state = .rcv ∨ vsd.state = .tran)
    (reply : Reply) : ∃ answer : Answer, answer.Short ∧
      { vsd with acmdShift := false }.commandSwitch 12 0 reply vsd.acmdShift = .ok answer ∧
      answer.vsd = { vsd with acmdShift := false, reportAcmdNext := false, state := .tran } := by
  refine ⟨_, ?_, rfl, ?_⟩
  · unfold command12
    split <;> exact short_prepareR1resp _ _ _ _ _
  · unfold command12
    rcases hstate with h | h | h
    · rw [if_neg (by simp [h])]
      rfl
    · rw [if_neg (by simp [h])]
      rfl
    · rw [if_pos (by simp [h])]
      rw [← h]
      rfl

theorem toNat_address {sector : Word} (h : sector.toNat < 2 ^ 23) :
    (512 * sector).toNat = 512 * sector.toNat := by
  rw [toNat_mul, show (512 : Word).toNat = 512 from rfl]
  omega

theorem address_mod {sector : Word} (h : sector.toNat < 2 ^ 23) : 512 * sector % 512 = 0 := by
  apply eq_of_toNat_eq
  rw [toNat_umod, toNat_address h]
  exact Nat.mul_mod_right 512 _

theorem address_div {sector : Word} (h : sector.toNat < 2 ^ 23) : 512 * sector / 512 = sector := by
  apply eq_of_toNat_eq
  rw [toNat_udiv, toNat_address h]
  exact Nat.mul_div_cancel_left _ (by decide)

theorem startData_begin (vsd : Vsd) (hstate : vsd.state = .tran) {sector : Word}
    (haddress : vsd.hcCard = true ∨ sector.toNat < 2 ^ 23) (cmd : Byte) (reply : Reply)
    (state : State) (multi : Bool) : ∃ answer : Answer, answer.Short ∧
      vsd.startData cmd (if vsd.hcCard then sector else 512 * sector) reply false state multi =
        answer ∧
      answer.vsd = { vsd with
        reportAcmdNext := false
        curSec := sector
        state := state
        bufIsData := true
        bufContinuous := multi
        curBufLen := 512 } := by
  have hsec : (if vsd.hcCard then (if vsd.hcCard then sector else 512 * sector)
      else (if vsd.hcCard then sector else 512 * sector) / 512) = sector := by
    split
    · rfl
    · rename_i hlow
      exact address_div (haddress.resolve_left hlow)
  have haligned : ¬ (¬ vsd.hcCard = true ∧ (if vsd.hcCard then sector else 512 * sector) % 512 ≠ 0) := by
    rintro ⟨hlow, hne⟩
    rw [if_neg hlow] at hne
    exact hne (address_mod (haddress.resolve_left hlow))
  refine ⟨_, ?_, rfl, ?_⟩
  all_goals
    unfold startData
    rw [if_neg Bool.false_ne_true, if_neg (not_not.mpr hstate), if_neg haligned]
  · exact short_prepareR1resp _ _ _ _ _
  · rw [hsec]
    rfl

end Vsd

/-- The state of the card in a transfer. -/
def Direction.state : Direction → State
  | .read => .data
  | .write _ => .rcv

theorem commandSwitch_begin (hstate : vsd.state = .tran) (hshift : vsd.acmdShift = false)
    (t : Transfer) (haddress : vsd.hcCard = true ∨ t.sector.toNat < 2 ^ 23) (reply : Reply) :
    ∃ answer : Answer, answer.Short ∧
      Vsd.commandSwitch { vsd with acmdShift := false }
        ((0x40 ||| (Machine.transferCommand t &&& 0x3f).setWidth 8) &&& 0x3f)
        (if vsd.hcCard then t.sector else 512 * t.sector) reply vsd.acmdShift = .ok answer ∧
      answer.vsd = vsd.begin t.sector t.direction.state t.extent.multi := by
  rw [hshift]
  cases hmulti : t.extent.multi with
  | false =>
    obtain ⟨answer, hshort, hstart, hvsd⟩ := Vsd.startData_begin
      { vsd with acmdShift := false, haveExpectedNumBlocks := false } hstate haddress
      (if t.direction.writes then 24 else 17) reply t.direction.state false
    refine ⟨answer, hshort, ?_, hvsd⟩
    rw [← hstart]
    cases hdirection : t.direction with
    | read =>
      rw [show Machine.transferCommand t = 17 by rw [Machine.transferCommand, hmulti, hdirection]]
      rfl
    | write data =>
      rw [show Machine.transferCommand t = 24 by rw [Machine.transferCommand, hmulti, hdirection]]
      rfl
  | true =>
    obtain ⟨answer, hshort, hstart, hvsd⟩ := Vsd.startData_begin
      { vsd with acmdShift := false } hstate haddress
      (if t.direction.writes then 25 else 18) reply t.direction.state true
    refine ⟨answer, hshort, ?_, hvsd⟩
    rw [← hstart]
    cases hdirection : t.direction with
    | read =>
      rw [show Machine.transferCommand t = 18 by rw [Machine.transferCommand, hmulti, hdirection]]
      rfl
    | write data =>
      rw [show Machine.transferCommand t = 25 by rw [Machine.transferCommand, hmulti, hdirection]]
      rfl

end Cloudpilot.Uarm.Mmc
