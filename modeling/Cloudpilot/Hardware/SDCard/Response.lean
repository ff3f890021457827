import Cloudpilot.Hardware.SDCard.Model

/-! # Responses of the SD card

Whatever a command puts into the buffer, the buffer holds a list of bytes afterwards that
are to be sent from the first one on.
-/
namespace Cloudpilot.Hardware.SDCard
open Cloudpilot.Library Cloudpilot.Common List

def append (s : SPISlaveSD) (values : List Byte) : SPISlaveSD :=
  { s with
    buffer := Buffer.copy s.buffer s.bufferSize (arrayOf values) values.length
    bufferSize := s.bufferSize + values.length }

def bytesOf (data : ℕ → Byte) (size : ℕ) : List Byte := (List.range size).map data

@[simp] theorem bytesOf_length (data : ℕ → Byte) (size : ℕ) : (bytesOf data size).length = size := by
  simp [bytesOf]

theorem arrayOf_bytesOf (data : ℕ → Byte) {size i : ℕ} (hi : i < size) :
    arrayOf (bytesOf data size) i = data i := by
  simp [arrayOf, bytesOf, hi]

theorem bytesOf_congr {data data' : ℕ → Byte} {size : ℕ} (h : ∀ i < size, data i = data' i) :
    bytesOf data size = bytesOf data' size :=
  List.map_congr_left fun i hi => h i (List.mem_range.mp hi)

section Append

variable (s : SPISlaveSD)

theorem append_append (values values' : List Byte) :
    append (append s values) values' = append s (values ++ values') := by
  simp only [append, length_append, Nat.add_assoc]
  congr 1
  funext i
  simp only [Buffer.copy, arrayOf, getD_eq_getElem?_getD]
  by_cases hbefore : i < s.bufferSize
  · simp [show ¬ s.bufferSize ≤ i by omega, show ¬ s.bufferSize + values.length ≤ i by omega]
  · by_cases hfirst : i < s.bufferSize + values.length
    · rw [if_neg (by omega), if_pos (by omega), if_pos (by omega),
        getElem?_append_left (by omega)]
    · by_cases hsecond : i < s.bufferSize + (values.length + values'.length)
      · rw [if_pos (by omega), if_pos (by omega), getElem?_append_right (by omega),
          Nat.sub_add_eq]
      · grind

theorem bufferAdd_append (value : Byte) (h : s.bufferSize < sizeofBuffer) :
    bufferAdd s value = .ok (append s [value]) := by
  rw [bufferAdd, if_pos h, append]
  congr 2
  funext i
  by_cases hi : i = s.bufferSize
  · subst hi
    simp [Buffer.copy, arrayOf]
  · grind [Buffer.copy_outside, length_singleton]

theorem bufferAddAll_append (values : List Byte) (h : s.bufferSize + values.length ≤ sizeofBuffer) :
    bufferAddAll s values = .ok (append s values) := by
  induction values generalizing s with
  | nil =>
    have hbuffer : Buffer.copy s.buffer s.bufferSize (arrayOf []) 0 = s.buffer := by
      funext i
      exact Buffer.copy_outside (by omega)
    rw [bufferAddAll, foldlM_nil, append, length_nil, hbuffer]
    rfl
  | cons value values ih =>
    rw [length_cons] at h
    have hrest := ih (append s [value]) (by simp only [append, length_singleton]; omega)
    rw [append_append, singleton_append] at hrest
    rwa [bufferAddAll, foldlM_cons, bufferAdd_append s value (by omega)]

theorem bufferCopy_append (data : ℕ → Byte) (size : ℕ) (h : s.bufferSize + size ≤ sizeofBuffer) :
    bufferCopy s data size = .ok (append s (bytesOf data size)) := by
  rw [bufferCopy, if_pos h, append, bytesOf_length]
  congr 2
  funext i
  simp only [Buffer.copy]
  split_ifs with hi
  · exact (arrayOf_bytesOf data (by omega)).symm
  · rfl

def frame (token : Byte) (data : List Byte) : List Byte :=
  token :: (data ++ [(SdCrc.crc16 data >>> 8).setWidth 8, (SdCrc.crc16 data).setWidth 8])

@[simp] theorem frame_length (token : Byte) (data : List Byte) :
    (frame token data).length = data.length + 3 := by
  simp [frame]

theorem bufferAddBlock_append (token : Byte) (data : ℕ → Byte) (size : ℕ)
    (h : s.bufferSize + size + 3 ≤ sizeofBuffer) :
    bufferAddBlock s token data size = .ok (append s (frame token (bytesOf data size))) := by
  rw [bufferAddBlock, bufferAdd_append s token (by omega)]
  simp only [bind, Except.bind]
  rw [bufferCopy_append _ data size (by simp only [append, length_singleton]; omega)]
  dsimp only
  rw [bufferAddAll_append _ _ (by
    simp only [append, length_cons, length_nil, bytesOf_length]
    omega), append_append, append_append, SdCrc.sdCRC16_eq, frame]
  rfl

/-- The buffer holds a response. -/
def respond (values : List Byte) : SPISlaveSD := append (bufferStart s 0) values

theorem prepareR1_respond (flags : Byte) :
    prepareR1 s flags = .ok (respond s [0xff#8, flags &&& 0x7f#8]) :=
  bufferAddAll_append _ _ (Nat.le_of_ble_eq_true rfl)

theorem prepareBlock_respond (data : ℕ → Byte) {size : ℕ} (h : size ≤ 512) :
    prepareBlock s data size =
      .ok (respond s ([0xff#8, 0x00#8, 0xff#8] ++ frame dataTokenDefault (bytesOf data size))) := by
  rw [prepareBlock, prepareR1_respond]
  simp only [bind, Except.bind]
  rw [bufferAdd_append _ _ (Nat.le_of_ble_eq_true rfl), respond]
  dsimp only
  rw [bufferAddBlock_append _ _ _ _ (by
    simp only [append, bufferStart, length_cons, length_nil, sizeofBuffer]
    omega), append_append, append_append]
  rfl

@[simp] theorem respond_bufferIndex (values : List Byte) : (respond s values).bufferIndex = 0 := rfl

@[simp] theorem respond_bufferSize (values : List Byte) :
    (respond s values).bufferSize = values.length :=
  Nat.zero_add _

theorem respond_buffer {values : List Byte} {i : ℕ} (hi : i < values.length) :
    (respond s values).buffer i = values.getD i 0#8 :=
  Buffer.copy_zero hi

/-- The block that a multiblock read sends next. -/
def nextRead (image : CardImage) : List Byte :=
  bytesOf (image.read uninitialized (s.currentBlock.toNat % image.blocksTotal) 1).2 512

theorem doReadMultiblock_respond {image : CardImage} (h : image.blocksTotal ≠ 0) :
    doReadMultiblock image s = .ok (respond { s with currentBlock := s.currentBlock + 1#32 }
      (frame dataTokenDefault (nextRead s image))) := by
  have hstart : { bufferStart s 0 with currentBlock := (bufferStart s 0).currentBlock + 1#32 } =
      bufferStart { s with currentBlock := s.currentBlock + 1#32 } 0 := rfl
  rw [doReadMultiblock, nextBlock, if_neg h, hstart]
  simp only [bind, Except.bind]
  rw [bufferAddBlock_append _ _ _ _ (show 0 + 512 + 3 ≤ 550 by decide), respond, nextRead]
  rfl

theorem finishWriteMultiblock_respond {image : CardImage} (h : image.blocksTotal ≠ 0) :
    finishWriteMultiblock image s =
      .ok (respond { s with
        currentBlock := s.currentBlock + 1#32
        slot := some (image.write s.buffer (s.currentBlock.toNat % image.blocksTotal) 1).2
        spiState := .txData } [dataResponseAccepted, 0xff#8]) := by
  have hadd := bufferAddAll_append (bufferStart { s with
      currentBlock := s.currentBlock + 1#32
      slot := some (image.write s.buffer (s.currentBlock.toNat % image.blocksTotal) 1).2 } 0)
    [dataResponseAccepted, 0xff#8] (Nat.le_of_ble_eq_true rfl)
  rw [finishWriteMultiblock, nextBlock, if_neg h]
  exact congrArg (fun r => r >>= fun s => .ok { s with spiState := .txData }) hadd

/-- The answer to a written block. -/
def writeResponse (count : ℕ) : List Byte :=
  if count = 1 then [dataResponseAccepted, 0xff#8] else [dataResponseWriteFailed]

theorem writeResponse_fits (count : ℕ) :
    writeResponse count ≠ [] ∧ (writeResponse count).length ≤ sizeofBuffer := by
  rw [writeResponse]
  split_ifs <;> decide

theorem finishWriteSingleBlock_respond (image : CardImage) :
    finishWriteSingleBlock image s =
      .ok (respond { s with
        slot := some (image.write s.buffer s.currentBlock.toNat 1).2
        cardState := .initialized
        spiState := .txData } (writeResponse (image.write s.buffer s.currentBlock.toNat 1).1)) := by
  have hadd := bufferAddAll_append (bufferStart { s with
      slot := some (image.write s.buffer s.currentBlock.toNat 1).2 } 0)
    (writeResponse (image.write s.buffer s.currentBlock.toNat 1).1)
    ((Nat.zero_add _).trans_le (writeResponse_fits _).2)
  exact congrArg
    (fun r => r >>= fun s => .ok { s with cardState := .initialized, spiState := .txData }) hadd

end Append

end Cloudpilot.Hardware.SDCard
