import Cloudpilot.Hardware.SDCard.Response

/-! # The buffer of the SD card

While the card takes an argument or a block or sends a response, the index is inside the
bytes that are expected, and those fit into the buffer.
-/
namespace Cloudpilot.Hardware.SDCard
open Cloudpilot.Library Cloudpilot.Common

/-- The index is inside what the buffer is used for. -/
def InBuffer (s : SPISlaveSD) : Prop :=
  s.bufferIndex < s.bufferSize ∧ s.bufferSize ≤ sizeofBuffer

def BufferInv (s : SPISlaveSD) : Prop :=
  s.spiState = .rxArg ∨ s.spiState = .txData ∨ s.spiState = .rxBlock → InBuffer s

/-- The result is a state with a response. -/
def Responds (r : Except Fault SPISlaveSD) : Prop :=
  ∃ s, r = .ok s ∧ InBuffer s

section Responses

variable {s : SPISlaveSD}

theorem respond_inBuffer {values : List Byte} (hpos : values ≠ [])
    (hfits : values.length ≤ sizeofBuffer) : InBuffer (respond s values) := by
  rw [InBuffer, respond_bufferIndex, respond_bufferSize]
  exact ⟨List.length_pos_iff.mpr hpos, hfits⟩

theorem prepareR1_responds (s : SPISlaveSD) (flags : Byte) : Responds (prepareR1 s flags) :=
  ⟨_, prepareR1_respond s flags, respond_inBuffer (by simp) (by simp [sizeofBuffer])⟩

theorem bufferAddAll_responds {values : List Byte} (hpos : values ≠ [])
    (hfits : values.length ≤ sizeofBuffer) : Responds (bufferAddAll (bufferStart s 0) values) :=
  ⟨_, bufferAddAll_append _ _ ((Nat.zero_add _).trans_le hfits), respond_inBuffer hpos hfits⟩

theorem prepareBlock_responds (s : SPISlaveSD) (data : ℕ → Byte) {size : ℕ} (hsize : size ≤ 512) :
    Responds (prepareBlock s data size) := by
  refine ⟨_, prepareBlock_respond s data hsize, respond_inBuffer (by simp) ?_⟩
  simp [frame_length, bytesOf_length, sizeofBuffer]
  omega

theorem Responds.unlessIdle {command : Except Fault SPISlaveSD} (h : Responds command) :
    Responds (unlessIdle s command) := by
  rw [SDCard.unlessIdle]
  split_ifs
  · exact prepareR1_responds s _
  · exact h

theorem Responds.bind {r : Except Fault SPISlaveSD} {f : SPISlaveSD → SPISlaveSD}
    (h : Responds r) (hf : ∀ s, InBuffer s → InBuffer (f s)) :
    Responds (r >>= fun s => .ok (f s)) := by
  obtain ⟨s, rfl, hs⟩ := h
  exact ⟨f s, rfl, hf s hs⟩

theorem doReadCSD_responds (image : CardImage) (s : SPISlaveSD) : Responds (doReadCSD image s) := by
  rw [doReadCSD]
  cases determineLayout image.blocksTotal with
  | none => exact prepareR1_responds s _
  | some layout => exact prepareBlock_responds s _ (by decide)

theorem doReadSDStatus_responds (s : SPISlaveSD) : Responds (doReadSDStatus s) := by
  have hstart := bufferAddAll_append (bufferStart s 0) [0xff#8, 0x00#8, 0x00#8, 0xff#8]
    (Nat.le_of_ble_eq_true rfl)
  have hblock := bufferAddBlock_append (append (bufferStart s 0) [0xff#8, 0x00#8, 0x00#8, 0xff#8])
    dataTokenDefault (fun _ => 0#8) 64 (Nat.le_of_ble_eq_true rfl)
  rw [append_append] at hblock
  rw [doReadSDStatus, hstart]
  exact ⟨_, hblock, respond_inBuffer (by simp) (by simp [sizeofBuffer])⟩

theorem doReadSingleBlock_responds (image : CardImage) (s : SPISlaveSD) :
    Responds (doReadSingleBlock image s) := by
  simp only [doReadSingleBlock]
  split_ifs
  · exact prepareR1_responds _ _
  · exact prepareBlock_responds _ _ le_rfl

theorem addressed_responds (image : CardImage) (s : SPISlaveSD) (start : SPISlaveSD → SPISlaveSD) :
    Responds (addressed image s start) := by
  apply Responds.unlessIdle
  split_ifs
  · exact prepareR1_responds s _
  · exact prepareR1_responds _ _

theorem doAcmd_responds (s : SPISlaveSD) : Responds (doAcmd s) := by
  simp only [doAcmd]
  split
  · exact (doReadSDStatus_responds _).unlessIdle
  · exact (prepareR1_responds _ _).unlessIdle
  · exact (prepareR1_responds _ _).bind fun _ h => h
  · exact (prepareBlock_responds _ _ (by decide)).unlessIdle
  · exact prepareR1_responds _ _

theorem doCmd_responds (image : CardImage) (s : SPISlaveSD) : Responds (doCmd image s) := by
  by_cases hacmd : s.acmd = true
  · rw [doCmd, if_pos hacmd]
    exact doAcmd_responds s
  · rw [doCmd, if_neg hacmd]
    split
    case h_1 => exact prepareR1_responds _ _
    case h_2 => exact (prepareR1_responds _ _).bind fun _ h => h
    case h_3 => exact prepareR1_responds _ _
    case h_4 => exact (doReadCSD_responds image s).unlessIdle
    case h_5 => exact (prepareBlock_responds _ _ (by decide)).unlessIdle
    case h_6 => exact bufferAddAll_responds (by simp) (by simp [sizeofBuffer])
    case h_7 => exact (prepareR1_responds _ _).unlessIdle
    case h_8 => exact (doReadSingleBlock_responds image s).unlessIdle
    case h_9 => exact addressed_responds _ _ _
    case h_10 => exact addressed_responds _ _ _
    case h_11 => exact addressed_responds _ _ _
    case h_12 => exact (prepareR1_responds _ _).bind fun _ h => h
    case h_13 => exact bufferAddAll_responds (by simp) (by simp [sizeofBuffer])
    case h_14 => exact prepareR1_responds _ _

/-- A response, or the division by the size of an empty image. -/
def RespondsOrDivides (r : Except Fault SPISlaveSD) : Prop :=
  Responds r ∨ r = .error .division

theorem doReadMultiblock_responds (image : CardImage) (s : SPISlaveSD) :
    RespondsOrDivides (doReadMultiblock image s) := by
  by_cases hempty : image.blocksTotal = 0
  · rw [doReadMultiblock, nextBlock, if_pos hempty]
    exact .inr rfl
  · refine .inl ⟨_, doReadMultiblock_respond s hempty, respond_inBuffer (by simp [frame]) ?_⟩
    simp [nextRead, sizeofBuffer]

theorem finishWriteMultiblock_responds (image : CardImage) (s : SPISlaveSD) :
    RespondsOrDivides (finishWriteMultiblock image s) := by
  by_cases hempty : image.blocksTotal = 0
  · rw [finishWriteMultiblock, nextBlock, if_pos hempty]
    exact .inr rfl
  · exact .inl ⟨_, finishWriteMultiblock_respond s hempty,
      respond_inBuffer (by simp) (by simp [sizeofBuffer])⟩

theorem finishWriteSingleBlock_responds (image : CardImage) (s : SPISlaveSD) :
    Responds (finishWriteSingleBlock image s) :=
  ⟨_, finishWriteSingleBlock_respond s image, respond_inBuffer (writeResponse_fits _).1
    (writeResponse_fits _).2⟩

end Responses

/-- The result is a state with the invariant, or the division. -/
def Keeps {α : Type} (r : Except Fault (α × SPISlaveSD)) : Prop :=
  (∃ value s, r = .ok (value, s) ∧ BufferInv s) ∨ r = .error .division

theorem Keeps.ok {α : Type} {value : α} {s : SPISlaveSD} (h : BufferInv s) :
    Keeps (.ok (value, s)) :=
  .inl ⟨value, s, rfl, h⟩

section Exchange

variable {s : SPISlaveSD}

theorem BufferInv.of_rxCmdByte (h : s.spiState = .rxCmdByte) : BufferInv s := by
  simp [BufferInv, h]

theorem bufferStore_inBuffer (h : InBuffer s) (data : Byte) : ∃ s', bufferStore s data = .ok s' ∧
    s'.spiState = s.spiState ∧ s'.bufferSize ≤ sizeofBuffer ∧ s'.bufferIndex ≤ s'.bufferSize := by
  obtain ⟨hlt, hle⟩ := h
  exact ⟨_, if_pos (hlt.trans_le hle), rfl, hle, hlt⟩

theorem afterTxData_inv (s : SPISlaveSD) : BufferInv (afterTxData s) := by
  simp only [afterTxData]
  split <;> simp [BufferInv]

theorem waitForBlock_inv (h : s.spiState = .rxBlockWait) (data : Byte) :
    BufferInv (waitForBlock s data) := by
  simp only [waitForBlock]
  split_ifs
  · simp [BufferInv]
  · simp [BufferInv, InBuffer, bufferStart, sizeofBuffer]
  · simp [BufferInv]
  · simp [BufferInv, h]

theorem exchangeByte_keeps (image : CardImage) (hinv : BufferInv s) (data : Byte) :
    Keeps (exchangeByte image s data) := by
  rw [exchangeByte]
  cases hstate : s.spiState with
  | notSelected => exact .ok hinv
  | rxCmdByte =>
    split_ifs
    · apply Keeps.ok
      simp [BufferInv, InBuffer, bufferStart, sizeofBuffer]
    · exact .ok hinv
  | rxArg =>
    obtain ⟨s', hstore, hstate', hsize, hindex⟩ := bufferStore_inBuffer (hinv (.inl hstate)) data
    dsimp only [SpiState.value]
    rw [hstore]
    simp only [bind, Except.bind]
    split_ifs with hlast
    · obtain ⟨s₂, hcmd, hs₂⟩ := doCmd_responds image s'
      rw [hcmd]
      exact .ok fun _ => hs₂
    · exact .ok fun _ => ⟨by omega, hsize⟩
  | txData =>
    obtain ⟨hlt, hle⟩ := hinv (.inr (.inl hstate))
    dsimp only [SpiState.value]
    rw [bufferFetch, if_pos (hlt.trans_le hle)]
    simp only [bind, Except.bind]
    split_ifs with hlast
    · exact .ok (afterTxData_inv _)
    · exact .ok fun _ => ⟨by dsimp only at hlast ⊢; omega, hle⟩
  | rxBlockWait => exact .ok (waitForBlock_inv hstate data)
  | rxBlock =>
    obtain ⟨s', hstore, hstate', hsize, hindex⟩ :=
      bufferStore_inBuffer (hinv (.inr (.inr hstate))) data
    dsimp only [SpiState.value]
    rw [hstore]
    simp only [bind, Except.bind]
    split_ifs with hlast hmulti
    · rcases finishWriteMultiblock_responds image s' with ⟨s₂, hfinish, hs₂⟩ | hfinish
      · rw [hfinish]
        exact .ok fun _ => hs₂
      · rw [hfinish]
        exact .inr rfl
    · obtain ⟨s₂, hfinish, hs₂⟩ := finishWriteSingleBlock_responds image s'
      rw [hfinish]
      exact .ok fun _ => hs₂
    · exact .ok fun _ => ⟨by omega, hsize⟩
  | txBlockWait =>
    rcases doReadMultiblock_responds image { s with spiState := .txData } with
      ⟨s₂, hread, hs₂⟩ | hread
    · rw [hread]
      exact .ok fun _ => hs₂
    · rw [hread]
      exact .inr rfl

theorem handleCmd12_inv (hinv : BufferInv s) (data : Byte) :
    ∃ s', handleCmd12 s data = .ok s' ∧ BufferInv s' := by
  simp only [handleCmd12]
  split_ifs
  · obtain ⟨s', hr1, hs'⟩ := prepareR1_responds (bufferStart { s with
      cmd12Countdown := s.cmd12Countdown - 1
      cardState := .initialized
      spiState := .txData } 0) 0#8
    exact ⟨s', hr1, fun _ => hs'⟩
  · exact ⟨_, rfl, hinv⟩
  · exact ⟨_, rfl, hinv⟩

theorem doExchange8_keeps (hinv : BufferInv s) (data : Byte) : Keeps (doExchange8 s data) := by
  rw [doExchange8]
  cases s.slot with
  | none => exact .ok hinv
  | some image =>
    split_ifs
    · obtain ⟨s', hcmd12, hinv'⟩ := handleCmd12_inv hinv data
      rw [hcmd12]
      exact exchangeByte_keeps image hinv' data
    · exact exchangeByte_keeps image hinv data

theorem doExchange_keeps (hinv : BufferInv s) (control data : BitVec 16) :
    Keeps (doExchange s control data) := by
  rw [doExchange]
  split
  · rcases doExchange8_keeps hinv ((data >>> 8).setWidth 8) with ⟨high, s₁, hhigh, hinv₁⟩ | hhigh
    · rw [hhigh]
      simp only [bind, Except.bind]
      rcases doExchange8_keeps hinv₁ (data.setWidth 8) with ⟨low, s₂, hlow, hinv₂⟩ | hlow
      · rw [hlow]
        exact .ok hinv₂
      · rw [hlow]
        exact .inr rfl
    · rw [hhigh]
      exact .inr rfl
  · rcases doExchange8_keeps hinv (data.setWidth 8) with ⟨dataOut, s₁, hout, hinv₁⟩ | hout
    · rw [hout]
      exact .ok hinv₁
    · rw [hout]
      exact .inr rfl
  · exact .ok hinv

theorem step_keeps (hinv : BufferInv s) (operation : Operation) :
    (∃ s', step s operation = .ok s' ∧ BufferInv s') ∨ step s operation = .error .division := by
  cases operation with
  | exchange control data =>
    rw [step]
    rcases doExchange_keeps hinv control data with ⟨dataOut, s', hexchange, hinv'⟩ | hexchange
    · rw [hexchange]
      exact .inl ⟨s', rfl, hinv'⟩
    · rw [hexchange]
      exact .inr rfl
  | enable =>
    refine .inl ⟨_, rfl, ?_⟩
    rw [enable]
    split_ifs
    · exact hinv
    · exact .of_rxCmdByte rfl
    · exact hinv
  | disable => exact .inl ⟨_, rfl, by simp [BufferInv, disable]⟩
  | reset => exact .inl ⟨_, rfl, by simp [BufferInv, reset]⟩
  | mount image =>
    refine .inl ⟨_, rfl, ?_⟩
    rw [mount]
    split_ifs <;> exact hinv
  | unmount => exact .inl ⟨_, rfl, hinv⟩

theorem run_keeps (hinv : BufferInv s) (operations : List Operation) :
    (∃ s', run s operations = .ok s' ∧ BufferInv s') ∨ run s operations = .error .division := by
  induction operations generalizing s with
  | nil => exact .inl ⟨s, rfl, hinv⟩
  | cons operation operations ih =>
    rw [run, List.foldlM_cons]
    rcases step_keeps hinv operation with ⟨s₁, hstep, hinv₁⟩ | hstep
    · rw [hstep]
      exact ih hinv₁
    · rw [hstep]
      exact .inr rfl

/-- Whatever reaches the card after a reset, no access leaves the buffer, the assertion is
not reached, and every state that is reached keeps the index inside the buffer. -/
theorem run_inBuffer (s : SPISlaveSD) (operations : List Operation) :
    run (reset s) operations ≠ .error .buffer ∧ run (reset s) operations ≠ .error .assertion ∧
      ∀ s', run (reset s) operations = .ok s' →
        s'.spiState = .rxArg ∨ s'.spiState = .txData ∨ s'.spiState = .rxBlock →
          s'.bufferIndex < s'.bufferSize ∧ s'.bufferSize ≤ 550 := by
  have hreset : BufferInv (reset s) := by simp [BufferInv, reset]
  rcases run_keeps hreset operations with ⟨s₁, hrun, hinv⟩ | hrun
  · rw [hrun]
    refine ⟨nofun, nofun, fun s' hs' => ?_⟩
    cases hs'
    exact hinv
  · simp [hrun]

end Exchange

end Cloudpilot.Hardware.SDCard
