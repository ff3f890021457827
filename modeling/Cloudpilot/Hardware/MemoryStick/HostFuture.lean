import Cloudpilot.Hardware.MemoryStick.HostRelocated

/-! # The future of alike controllers

Every access reads the same value from alike controllers and leaves them alike.
-/
namespace Cloudpilot.Hardware.Stick
open Cloudpilot.Library Cloudpilot.Common

/-- The byte of a register window from offset 0 on. -/
def windowByte (s : MemoryStick) (i : ℕ) : Byte :=
  if i < s.bufferOutSize then s.reg i else 0#8

def nextIndex (s : MemoryStick) (i : ℕ) : ℕ :=
  if i < s.bufferOutSize then i + 1 else i

theorem word_eq_zero {high low : Byte}
    (h : high.setWidth 32 <<< 8 ||| low.setWidth 32 = 0#32) : high = 0#8 ∧ low = 0#8 := by
  have hbits : ∀ i, (high.setWidth 32 <<< 8 ||| low.setWidth 32).getLsbD i = false := by simp [h]
  constructor
  · apply BitVec.eq_of_getLsbD_eq
    intro i hi
    have hbit := hbits (i + 8)
    rw [BitVec.getLsbD_or, Bool.or_eq_false_iff] at hbit
    simpa [show i + 8 < 32 by omega, show i < 32 by omega] using hbit.1
  · apply BitVec.eq_of_getLsbD_eq
    intro i hi
    have hbit := hbits i
    rw [BitVec.getLsbD_or, Bool.or_eq_false_iff] at hbit
    simpa [show i < 32 by omega] using hbit.2

section Words

variable {h h' h₁ : HostController}

theorem nextByte_window (houtput : OutputInv h.memoryStick)
    (hzero : h.memoryStick.bufferOut = .reg 0) : nextByte h =
      .ok (windowByte h.memoryStick h.readBufferIndex,
        { h with readBufferIndex := nextIndex h.memoryStick h.readBufferIndex }) := by
  simp only [OutputInv, hzero] at houtput
  simp only [nextByte, windowByte, nextIndex]
  split_ifs with hindex
  · rw [fetchByte, if_pos hindex, hzero]
    dsimp only
    rw [if_pos (by omega), Nat.zero_add]
    rfl
  · rfl

theorem nextWord_window (houtput : OutputInv h.memoryStick)
    (hzero : h.memoryStick.bufferOut = .reg 0) : nextWord h =
      .ok ((windowByte h.memoryStick h.readBufferIndex).setWidth 32 <<< 8 |||
          (windowByte h.memoryStick (nextIndex h.memoryStick h.readBufferIndex)).setWidth 32,
        { h with readBufferIndex :=
            nextIndex h.memoryStick (nextIndex h.memoryStick h.readBufferIndex) }) := by
  rw [nextWord, if_neg (by rw [hzero]; exact BufferOut.noConfusion), nextByte_window houtput hzero]
  simp only [bind, Except.bind]
  rw [nextByte_window (by exact houtput) (by exact hzero)]

theorem nextWord_lost (hnull : h.memoryStick.bufferOut = .null) :
    nextWord h = .ok (0#32, { h with readBufferIndex := h.readBufferIndex + 2 }) :=
  if_pos hnull

theorem nextByte_relocated (dirty : ℕ → Byte) :
    nextByte (h.relocated dirty h.memoryStick.bufferOut h.readBufferIndex) =
      (nextByte h).map fun r =>
        (r.1, r.2.relocated dirty r.2.memoryStick.bufferOut r.2.readBufferIndex) := by
  have hfetch : fetchByte (h.relocated dirty h.memoryStick.bufferOut h.readBufferIndex).memoryStick
      h.readBufferIndex = fetchByte h.memoryStick h.readBufferIndex := rfl
  by_cases hindex : h.readBufferIndex < h.memoryStick.bufferOutSize
  · rw [nextByte, nextByte, if_pos hindex, if_pos (by exact hindex)]
    change (fetchByte (h.relocated dirty h.memoryStick.bufferOut h.readBufferIndex).memoryStick
      h.readBufferIndex >>= _) = _
    rw [hfetch]
    cases fetchByte h.memoryStick h.readBufferIndex <;> rfl
  · rw [nextByte, nextByte, if_neg hindex, if_neg (by exact hindex)]
    rfl

theorem nextWord_relocated (dirty : ℕ → Byte) :
    nextWord (h.relocated dirty h.memoryStick.bufferOut h.readBufferIndex) =
      (nextWord h).map fun r =>
        (r.1, r.2.relocated dirty r.2.memoryStick.bufferOut r.2.readBufferIndex) := by
  by_cases hnull : h.memoryStick.bufferOut = .null
  · rw [nextWord_lost hnull, nextWord_lost (by exact hnull)]
    rfl
  · rw [nextWord, nextWord, if_neg hnull, if_neg (by exact hnull), nextByte_relocated]
    cases nextByte h with
    | error fault => rfl
    | ok result =>
      change (nextByte (result.2.relocated dirty result.2.memoryStick.bufferOut
        result.2.readBufferIndex) >>= _) = Except.map _ (nextByte result.2 >>= _)
      rw [nextByte_relocated]
      cases nextByte result.2 <;> rfl

/-- Results of a step that reads a value. -/
def FollowsWith {α : Type} (r r' : Except Fault (α × HostController)) : Prop :=
  ∀ value h₁, r = .ok (value, h₁) → ∃ h₁', r' = .ok (value, h₁') ∧ Alike h₁ h₁'

theorem FollowsWith.ok {α : Type} (value : α) (ha : Alike h h') :
    FollowsWith (.ok (value, h)) (.ok (value, h')) := by
  intro value' h₁ hok
  cases hok
  exact ⟨h', rfl, ha⟩

/-- What follows a word of a read transfer. -/
def afterWord (h : HostController) (value : BitVec 32) : Except Fault (BitVec 32 × HostController) :=
  if h.readBufferIndex ≥ min (getTransferSize h) h.memoryStick.bufferOutSize then do
    let h ← finishTpc h
    .ok (value, h)
  else .ok (value, h)

theorem msdataRead_eq (hread : h.state = .tpcRead) {value : BitVec 32}
    (hword : nextWord h = .ok (value, h₁)) : msdataRead h .word = afterWord h₁ value := by
  rw [msdataRead, if_neg (by decide), if_pos hread, hword]
  rfl

theorem afterWord_alike (hinv : HostInv h) (hread : h.state = .tpcRead) (dirty : ℕ → Byte)
    {out : BufferOut} (index : ℕ) (hout : SameEnd h out) (value : BitVec 32)
    (hend : index ≥ min (getTransferSize h) h.memoryStick.bufferOutSize ↔
      h.readBufferIndex ≥ min (getTransferSize h) h.memoryStick.bufferOutSize)
    (hmore : h.readBufferIndex < min (getTransferSize h) h.memoryStick.bufferOutSize →
      Alike h (h.relocated dirty out index)) :
    FollowsWith (afterWord h value) (afterWord (h.relocated dirty out index) value) := by
  by_cases hlast : h.readBufferIndex ≥ min (getTransferSize h) h.memoryStick.bufferOutSize
  · rw [afterWord, afterWord, if_pos hlast, if_pos (by exact hend.mpr hlast)]
    obtain ⟨h₁, hfinish, -⟩ := finishTpc_spec hinv.command hinv.noOutput hinv.output
      (by rw [hread]; decide)
    obtain ⟨h₁', hfinish', ha₁⟩ := finishTpc_alike hinv.command hinv.noOutput hinv.output
      (by rw [hread]; decide) dirty index hout hfinish
    rw [hfinish, hfinish']
    exact .ok value ha₁
  · rw [afterWord, afterWord, if_neg hlast,
      if_neg (by exact fun h => hlast (hend.mp h))]
    exact .ok value (hmore (by omega))

theorem msdataRead_lost (hinv : HostInv h) (hread : h.state = .tpcRead) (dirty : ℕ → Byte)
    (hzero : h.memoryStick.bufferOut = .reg 0) (hrest : RestZero h) :
    FollowsWith (msdataRead h .word)
      (msdataRead (h.relocated dirty .null h.readBufferIndex) .word) := by
  have hsize : ∀ i, windowByte h.memoryStick i ≠ 0#8 → i < h.memoryStick.bufferOutSize := by
    intro i hi
    by_contra hend
    exact hi (if_neg hend)
  have hhanded : ∀ i, h.readBufferIndex ≤ i → i < h.readBufferIndex + 2 →
      windowByte h.memoryStick i = 0#8 := by
    intro i hle hlt
    by_contra hbyte
    apply hbyte
    rw [windowByte, if_pos (hsize i hbyte)]
    exact hrest i ⟨0, .inl rfl, by omega, by omega, hsize i hbyte⟩
  have hhigh := hhanded h.readBufferIndex le_rfl (by omega)
  have hlow : windowByte h.memoryStick (nextIndex h.memoryStick h.readBufferIndex) = 0#8 := by
    apply hhanded <;> rw [nextIndex] <;> split_ifs <;> omega
  have hword := nextWord_window (hinv.output hread) hzero
  rw [hhigh, hlow] at hword
  rw [msdataRead_eq hread hword, msdataRead_eq (by exact hread) (nextWord_lost rfl)]
  generalize hnext : nextIndex h.memoryStick (nextIndex h.memoryStick h.readBufferIndex) = next
  have hnext' : next = h.readBufferIndex + 2 ∨ h.memoryStick.bufferOutSize ≤ next ∧
      next ≤ h.readBufferIndex + 2 := by
    rw [← hnext]
    simp only [nextIndex]
    split_ifs <;> omega
  have hinv₁ : HostInv { h with readBufferIndex := next } :=
    ⟨hinv.command, hinv.noOutput, hinv.output, hinv.room⟩
  apply afterWord_alike hinv₁ hread dirty (h.readBufferIndex + 2) (.inr ⟨hread, rfl, hzero⟩)
  · dsimp only
    omega
  · intro hmore
    dsimp only at hmore
    obtain rfl : next = h.readBufferIndex + 2 := by omega
    refine ⟨dirty, .null, h.readBufferIndex + 2, rfl, fun _ => rfl, .inr ⟨hread, rfl, hzero, ?_⟩⟩
    rintro i ⟨k, hk, hle, hlt, hin⟩
    dsimp only at hk hle hlt hin
    refine hrest i ⟨k + 1, .inr ?_, by omega, by omega, hin⟩
    have hmore' : h.readBufferIndex + 2 < min (getTransferSize h) h.memoryStick.bufferOutSize :=
      hmore
    change k = 0 ∨ h.readBufferIndex + 2 + 2 * k <
      min (getTransferSize h) h.memoryStick.bufferOutSize at hk
    omega

theorem msdataRead_alike (hinv : HostInv h) (ha : Alike h h') (size : Size) :
    FollowsWith (msdataRead h size) (msdataRead h' size) := by
  by_cases hsize : size ≠ .word
  · rw [msdataRead, msdataRead, if_pos hsize, if_pos hsize]
    exact .ok _ ha
  · rw [not_not] at hsize
    subst hsize
    by_cases hread : h.state = .tpcRead
    · obtain ⟨dirty, out, index, rfl, hindex, hout⟩ := ha
      obtain rfl := hindex hread
      rcases hout with rfl | ⟨-, rfl, hzero, hrest⟩
      · obtain ⟨value, index, hword⟩ := nextWord_spec (hinv.output hread)
        have hword' := nextWord_relocated (h := h) dirty
        rw [hword] at hword'
        rw [msdataRead_eq hread hword, msdataRead_eq (by exact hread) hword']
        exact afterWord_alike (h := { h with readBufferIndex := index })
          ⟨hinv.command, hinv.noOutput, hinv.output, hinv.room⟩ hread dirty index (.inl rfl) value
          Iff.rfl fun _ => ⟨dirty, _, _, rfl, fun _ => rfl, .inl rfl⟩
      · exact msdataRead_lost hinv hread dirty hzero hrest
    · have hread' : ¬ h'.state = .tpcRead := by rwa [ha.state]
      have hword : ¬ (Size.word ≠ .word) := fun hne => hne rfl
      rw [msdataRead, msdataRead, if_neg hword, if_neg hword, if_neg hread, if_neg hread']
      exact .ok _ ha

end Words

section Runs

variable {h h' h₁ : HostController}

theorem dataLeft_alike (ha : Alike h h') (hread : h.state = .tpcRead) : dataLeft h' = dataLeft h := by
  obtain ⟨dirty, out, index, rfl, hindex, -⟩ := ha
  obtain rfl := hindex hread
  rfl

theorem mscsValue_alike (ha : Alike h h') : mscsValue h' = mscsValue h := by
  have hmscs : h'.mscs = h.mscs := by
    obtain ⟨dirty, out, index, rfl, -⟩ := ha
    rfl
  rw [mscsValue, mscsValue, hmscs, ha.state]
  by_cases hread : h.state = .tpcRead
  · rw [dataLeft_alike ha hread]
  · simp [hread]

theorem registerRead_alike (hinv : HostInv h) (ha : Alike h h') (register : Register)
    (atBase : Bool) (size : Size) (gpio : Byte) :
    FollowsWith (registerRead h register atBase size gpio)
      (registerRead h' register atBase size gpio) := by
  cases register with
  | msdata => exact msdataRead_alike hinv ha size
  | mscs =>
    rw [registerRead, registerRead, mscsRead, mscsRead, mscsValue_alike ha]
    exact .ok _ ha
  | mscmd =>
    obtain ⟨dirty, out, index, rfl, hout⟩ := ha
    exact .ok _ ⟨dirty, out, index, rfl, hout⟩
  | msics =>
    obtain ⟨dirty, out, index, rfl, hout⟩ := ha
    rw [registerRead, registerRead, msicsRead, msicsRead, negateIrq_relocated]
    refine .ok _ ⟨dirty, out, index, rfl, ?_⟩
    rwa [negateIrq, updateIrqLine_eq]
  | msppcd =>
    obtain ⟨dirty, out, index, rfl, hout⟩ := ha
    exact .ok _ ⟨dirty, out, index, rfl, hout⟩
  | stub => exact .ok _ ha

theorem raiseIrq_alike (ha : Alike h h') (bits : Byte) :
    Alike (raiseIrq h bits) (raiseIrq h' bits) := by
  obtain ⟨dirty, out, index, rfl, hout⟩ := ha
  rw [raiseIrq_relocated]
  refine ⟨dirty, out, index, rfl, ?_⟩
  rwa [raiseIrq, updateIrqLine_eq]

theorem mscmdWrite_alike (hinv : HostInv h) (ha : Alike h h') (size : Size) (value : BitVec 32) :
    Follows (mscmdWrite h size value) (mscmdWrite h' size value) := by
  rw [mscmdWrite, mscmdWrite]
  by_cases hbusy : h.state ≠ .idle
  · rw [if_pos hbusy, if_pos (by rwa [ha.state])]
    exact .ok ha
  · have hbusy' : ¬ h'.state ≠ .idle := by rwa [ha.state]
    rw [if_neg hbusy, if_neg hbusy']
    by_cases hsize : size ≠ .word
    · rw [if_pos hsize, if_pos hsize]
      exact .ok ha
    · rw [if_neg hsize, if_neg hsize]
      rw [not_not] at hbusy
      apply hostBeginTpc_alike
      · exact .of_idle hbusy (hinv.noOutput (by rw [hbusy]; decide))
      · exact hbusy
      · obtain ⟨dirty, out, index, rfl, -, hout⟩ := ha
        refine ⟨dirty, out, index, rfl, fun hread => ?_, .inl ?_⟩
        · exact absurd (hbusy.symm.trans hread) (by decide)
        · rcases hout with hout | ⟨hread, -⟩
          · exact hout
          · grind

theorem resetHostController_alike (ha : Alike h h') :
    Alike (resetHostController h) (resetHostController h') := by
  obtain ⟨dirty, out, index, rfl, -⟩ := ha
  refine ⟨dirty, .null, 0, ?_, fun _ => rfl, .inl rfl⟩
  rfl

theorem mscsWrite_alike (ha : Alike h h') (atBase : Bool) (size : Size) (value : BitVec 32) :
    Alike (mscsWrite h atBase size value) (mscsWrite h' atBase size value) := by
  have hset : ∀ mscs : BitVec 16, Alike { h with mscs := mscs } { h' with mscs := mscs } := by
    intro mscs
    obtain ⟨dirty, out, index, rfl, hout⟩ := ha
    exact ⟨dirty, out, index, rfl, hout⟩
  have hmscs : h'.mscs = h.mscs := by
    obtain ⟨dirty, out, index, rfl, -⟩ := ha
    rfl
  simp only [mscsWrite, hmscs]
  split_ifs
  · exact raiseIrq_alike (resetHostController_alike (hset _)) _
  · exact hset _

theorem registerWrite_alike (hinv : HostInv h) (ha : Alike h h') (register : Register)
    (atBase : Bool) (size : Size) (value : BitVec 32) :
    Follows (registerWrite h register atBase size value)
      (registerWrite h' register atBase size value) := by
  cases register with
  | mscmd => exact mscmdWrite_alike hinv ha size value
  | mscs => exact .ok (mscsWrite_alike ha atBase size value)
  | msdata =>
    rw [registerWrite, registerWrite, msdataWrite, msdataWrite]
    split_ifs
    · exact .ok ha
    · exact fifoWrite_alike hinv ha _
  | msics =>
    obtain ⟨dirty, out, index, rfl, hout⟩ := ha
    exact .ok ⟨dirty, out, index, rfl, hout⟩
  | msppcd =>
    obtain ⟨dirty, out, index, rfl, hout⟩ := ha
    exact .ok ⟨dirty, out, index, rfl, hout⟩
  | stub => exact .ok ha

theorem mount_relocated (dirty : ℕ → Byte) (out : BufferOut) (index : ℕ) (image : CardImage) :
    mount (h.relocated dirty out index).memoryStick image =
      mount (h.memoryStick.withDirty dirty) image := rfl

theorem hostMount_alike (ha : Alike h h') (image : CardImage) :
    Follows (hostMount h image) (hostMount h' image) ∧
      (hostMount h image = .error .mount → hostMount h' image = .error .mount) := by
  obtain ⟨dirty, out, index, rfl, hindex, -⟩ := ha
  obtain ⟨dirty', hmount⟩ := mount_withDirty h.memoryStick dirty image
  rw [hostMount, hostMount, mount_relocated, hmount]
  cases hs : mount h.memoryStick image with
  | none => exact ⟨by rintro _ ⟨⟩, fun _ => rfl⟩
  | some s =>
    refine ⟨.ok ⟨dirty', s.bufferOut, index, rfl, hindex, .inl rfl⟩, by rintro ⟨⟩⟩

theorem hostStep_alike (hinv : HostInv h) (ha : Alike h h') (access : Access) :
    FollowsWith (hostStep h access) (hostStep h' access) ∧
      (hostStep h access = .error .mount → hostStep h' access = .error .mount) := by
  cases access with
  | read register atBase size gpio =>
    obtain ⟨value, h₁, hread, -⟩ := registerRead_inv hinv register atBase size gpio
    obtain ⟨h₁', hread', ha₁⟩ := registerRead_alike hinv ha register atBase size gpio value h₁ hread
    rw [hostStep, hostStep, hread, hread']
    exact ⟨.ok _ ha₁, by rintro ⟨⟩⟩
  | write register atBase size value =>
    obtain ⟨h₁, hwrite, -⟩ := registerWrite_inv hinv register atBase size value
    obtain ⟨h₁', hwrite', ha₁⟩ := registerWrite_alike hinv ha register atBase size value h₁ hwrite
    rw [hostStep, hostStep, hwrite, hwrite']
    exact ⟨.ok _ ha₁, by rintro ⟨⟩⟩
  | notifyGpioChanged => exact ⟨.ok _ (raiseIrq_alike ha irqPin), by rintro ⟨⟩⟩
  | mount image =>
    obtain ⟨hok, herror⟩ := hostMount_alike ha image
    rw [hostStep, hostStep]
    cases hmount : hostMount h image with
    | ok h₁ =>
      obtain ⟨h₁', hmount', ha₁⟩ := hok h₁ hmount
      rw [hmount']
      exact ⟨.ok _ ha₁, by rintro ⟨⟩⟩
    | error fault =>
      refine ⟨by rintro _ _ ⟨⟩, fun hfault => ?_⟩
      cases hfault
      rw [herror hmount]
      rfl
  | unmount =>
    obtain ⟨dirty, out, index, rfl, hout⟩ := ha
    exact ⟨.ok _ ⟨dirty, out, index, rfl, hout⟩, by rintro ⟨⟩⟩
  | reset =>
    have hmsics : Alike { h with msics := 0#16 } { h' with msics := 0#16 } := by
      obtain ⟨dirty, out, index, rfl, hout⟩ := ha
      exact ⟨dirty, out, index, rfl, hout⟩
    obtain ⟨dirty, out, index, hreset, hout⟩ := resetHostController_alike hmsics
    refine ⟨?_, by rintro ⟨⟩⟩
    rw [hostStep, hostStep, hostReset, hostReset, hreset]
    exact .ok _ ⟨dirty, .null, index, rfl, hout.1, .inl rfl⟩

theorem hostRun_values {access : Access} {accesses : List Access} {value : Option (BitVec 32)}
    (hstep : hostStep h access = .ok (value, h₁)) :
    (hostRun h (access :: accesses)).map Prod.fst =
      ((hostRun h₁ accesses).map Prod.fst).map (value :: ·) := by
  rw [hostRun, hstep]
  simp only [bind, Except.bind]
  cases hostRun h₁ accesses <;> rfl

theorem hostRun_alike (hinv : HostInv h) (ha : Alike h h') (accesses : List Access) :
    (hostRun h' accesses).map Prod.fst = (hostRun h accesses).map Prod.fst := by
  induction accesses generalizing h h' with
  | nil => rfl
  | cons access accesses ih =>
    obtain ⟨hok, herror⟩ := hostStep_alike hinv ha access
    rcases hostStep_inv hinv access with ⟨value, h₁, hstep, hinv₁⟩ | hstep
    · obtain ⟨h₁', hstep', ha₁⟩ := hok value h₁ hstep
      rw [hostRun_values hstep, hostRun_values hstep', ih hinv₁ ha₁]
    · rw [hostRun, hostRun, hstep, herror hstep]

end Runs

end Cloudpilot.Hardware.Stick
