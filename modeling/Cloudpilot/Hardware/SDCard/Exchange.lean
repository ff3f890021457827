import Cloudpilot.Hardware.SDCard.Response

/-! # Transactions of the host

What a host sends to the card, byte by byte, and what a block device answers. While it
waits for the card the host sends `0xff`.
-/

namespace Cloudpilot.Hardware.SDCard

open Cloudpilot.Library Cloudpilot.Common

/-- The bytes that come back, and the state behind the last one. -/
def exchangeAll : SPISlaveSD → List Byte → Except Fault (List Byte × SPISlaveSD)
  | s, [] => .ok ([], s)
  | s, data :: rest => do
    let (out, s) ← doExchange8 s data
    let (outs, s) ← exchangeAll s rest
    .ok (out :: outs, s)

def idleBytes (count : ℕ) : List Byte := List.replicate count 0xff#8

def argumentBytes (argument : Word) : List Byte :=
  [(argument >>> 24).setWidth 8, (argument >>> 16).setWidth 8, (argument >>> 8).setWidth 8,
    argument.setWidth 8]

def commandBytes (command : Byte) (argument : Word) (crc : Byte) : List Byte :=
  (0x40#8 ||| command) :: (argumentBytes argument ++ [crc])

/-- The number of the block that a byte address is in. -/
def addressedBlock (argument : Word) : ℕ := (argument >>> 9).toNat

abbrev Device := ℕ → List Byte

def blockOf (image : CardImage) : Device := fun block =>
  bytesOf (fun i => image.data (block * blockSize + i)) blockSize

/-- A multiblock read goes on at the start of the card when it has passed its end. -/
def followingBlock (total : ℕ) (start : Word) (i : ℕ) : ℕ :=
  (start + BitVec.ofNat 32 i).toNat % total

/-- A multiblock read: a byte of delay and a block, again and again. -/
def blockStream (device : Device) (total : ℕ) (start : Word) (j : ℕ) : Byte :=
  (0xff#8 :: frame dataTokenDefault (device (followingBlock total start (j / 516)))).getD (j % 516)
    0#8

def prepend (bytes : List Byte) (stream : ℕ → Byte) (j : ℕ) : Byte :=
  if j < bytes.length then bytes.getD j 0#8 else stream (j - bytes.length)

/-- A block that the host sends, and the bytes for which it waits behind the response. -/
structure DataBlock where
  token : Byte
  data : List Byte
  crcHigh : Byte
  crcLow : Byte
  wait : ℕ

def DataBlock.bytes (b : DataBlock) : List Byte :=
  b.token :: (b.data ++ [b.crcHigh, b.crcLow]) ++ idleBytes (2 + b.wait)

def DataBlock.response (b : DataBlock) : List Byte :=
  idleBytes 515 ++ ([dataResponseAccepted, 0xff#8] ++ idleBytes b.wait)

/-- The commands of a host, with the argument, the checksum and the bytes for which it waits. -/
inductive Transaction
  | readSingle (argument : Word) (crc : Byte) (wait : ℕ)
  | readMulti (argument : Word) (crc : Byte) (clocked : ℕ) (stop : List Byte) (wait : ℕ)
  | writeSingle (argument : Word) (crc : Byte) (wait : ℕ) (block : DataBlock)
  | writeMulti (argument : Word) (crc : Byte) (wait : ℕ) (blocks : List DataBlock) (waitEnd : ℕ)

/-- What the rest of a CMD12 leaves of its countdown. -/
def stopCountdown (stop : List Byte) : ℕ :=
  stop.foldl (fun countdown data => if data = 0x4c#8 then 6 else countdown - 1) 6

def Transaction.bytes : Transaction → List Byte
  | readSingle argument crc wait => commandBytes 17#8 argument crc ++ idleBytes (518 + wait)
  | readMulti argument crc clocked stop wait =>
    commandBytes 18#8 argument crc ++ (idleBytes clocked ++ 0x4c#8 :: stop ++
      idleBytes (stopCountdown stop + 1 + wait))
  | writeSingle argument crc wait block =>
    commandBytes 24#8 argument crc ++ (idleBytes (2 + wait) ++ block.bytes)
  | writeMulti argument crc wait blocks waitEnd =>
    commandBytes 25#8 argument crc ++ (idleBytes (2 + wait) ++ (blocks.flatMap DataBlock.bytes ++
      (dataTokenStop :: idleBytes waitEnd)))

/-- What the host gets from a block device. -/
def Transaction.response (total : ℕ) (device : Device) : Transaction → List Byte
  | readSingle argument _ wait =>
    idleBytes 6 ++ ([0xff#8, 0x00#8, 0xff#8] ++
      frame dataTokenDefault (device (addressedBlock argument)) ++ idleBytes wait)
  | readMulti argument _ clocked stop wait =>
    idleBytes 6 ++ (bytesOf
      (prepend [0xff#8, 0x00#8] (blockStream device total (argument >>> 9)))
      (clocked + 6 + (stopCountdown stop - 1)) ++ ([0xff#8, 0x00#8] ++ idleBytes wait))
  | writeSingle _ _ wait block =>
    idleBytes 6 ++ ([0xff#8, 0x00#8] ++ idleBytes wait ++ block.response)
  | writeMulti _ _ wait blocks waitEnd =>
    idleBytes 6 ++ ([0xff#8, 0x00#8] ++ idleBytes wait ++ (blocks.flatMap DataBlock.response ++
      (0xff#8 :: idleBytes waitEnd)))

def writeBlocks (device : Device) (start : ℕ) (blocks : List DataBlock) : Device :=
  match blocks with
  | [] => device
  | block :: blocks => writeBlocks (Function.update device start block.data) (start + 1) blocks

def Transaction.apply (device : Device) : Transaction → Device
  | readSingle _ _ _ => device
  | readMulti _ _ _ _ _ => device
  | writeSingle argument _ _ block =>
    Function.update device (addressedBlock argument) block.data
  | writeMulti argument _ _ blocks _ => writeBlocks device (addressedBlock argument) blocks

/-- A transaction that stays within the card. -/
def Transaction.Valid (total : ℕ) : Transaction → Prop
  | readSingle argument _ _ => addressedBlock argument < total
  | readMulti argument _ _ stop _ => addressedBlock argument < total ∧ stop.length = 5
  | writeSingle argument _ _ block =>
    addressedBlock argument < total ∧ block.data.length = 512 ∧ block.token = dataTokenDefault
  | writeMulti argument _ _ blocks _ =>
    addressedBlock argument < total ∧ addressedBlock argument + blocks.length ≤ total ∧
      ∀ block ∈ blocks, block.data.length = 512 ∧
        (block.token = dataTokenCmd25 ∨ block.token = dataTokenDefault)

/-- The answers to a sequence of transactions. -/
def responses (total : ℕ) (device : Device) : List Transaction → List Byte
  | [] => []
  | t :: ts => t.response total device ++ responses total (t.apply device) ts

/-- The contents behind a sequence of transactions. -/
def contents (device : Device) (ts : List Transaction) : Device :=
  ts.foldl Transaction.apply device

/-- Initialized and waiting for a command. -/
structure Ready (image : CardImage) (s : SPISlaveSD) : Prop where
  spiState : s.spiState = .rxCmdByte
  cardState : s.cardState = .initialized
  acmd : s.acmd = false
  slot : s.slot = some image

section Sequences

variable {s s₁ s₂ : SPISlaveSD}

theorem exchangeAll_cons {data out : Byte} {rest outs : List Byte}
    (h : doExchange8 s data = .ok (out, s₁)) (hrest : exchangeAll s₁ rest = .ok (outs, s₂)) :
    exchangeAll s (data :: rest) = .ok (out :: outs, s₂) := by
  rw [exchangeAll, h]
  simp [bind, Except.bind, hrest]

theorem exchangeAll_append {bytes bytes' outs outs' : List Byte}
    (h : exchangeAll s bytes = .ok (outs, s₁)) (h' : exchangeAll s₁ bytes' = .ok (outs', s₂)) :
    exchangeAll s (bytes ++ bytes') = .ok (outs ++ outs', s₂) := by
  induction bytes generalizing s outs with
  | nil =>
    cases h
    exact h'
  | cons data bytes ih =>
    rw [exchangeAll] at h
    cases hdata : doExchange8 s data with
    | error fault => simp [hdata, bind, Except.bind] at h
    | ok result =>
      obtain ⟨out, s'⟩ := result
      simp only [hdata, bind, Except.bind] at h
      cases hrest : exchangeAll s' bytes with
      | error fault => simp [hrest] at h
      | ok result' =>
        simp only [hrest] at h
        cases h
        exact exchangeAll_cons hdata (ih hrest)

theorem exchangeAll_idle (h : doExchange8 s 0xff#8 = .ok (0xff#8, s)) (count : ℕ) :
    exchangeAll s (idleBytes count) = .ok (idleBytes count, s) := by
  induction count with
  | zero => rfl
  | succ count ih => exact exchangeAll_cons h ih

end Sequences

section States

variable {s : SPISlaveSD} {image : CardImage}

theorem doExchange8_mounted (hslot : s.slot = some image) (hread : s.cardState ≠ .multiblockRead)
    (data : Byte) : doExchange8 s data = exchangeByte image s data := by
  rw [doExchange8, hslot]
  dsimp only
  rw [if_neg hread]
  rfl

theorem exchangeByte_rxCmdByte (h : s.spiState = .rxCmdByte) (data : Byte) :
    exchangeByte image s data =
      .ok (0xff#8, if data &&& 0xc0#8 = 0x40#8 then
        bufferStart { s with lastCmd := data &&& 0x3f#8, spiState := .rxArg } 5 else s) := by
  have hvalue : s.spiState.value = 1 := congrArg SpiState.value h
  rw [exchangeByte, hvalue]
  split_ifs <;> rfl

theorem exchangeByte_store (h : s.spiState = .rxArg ∨ s.spiState = .rxBlock)
    (hmore : s.bufferIndex + 1 < s.bufferSize) (hfits : s.bufferSize ≤ sizeofBuffer) (data : Byte) :
    exchangeByte image s data = .ok (0xff#8, { s with
      buffer := Function.update s.buffer s.bufferIndex data
      bufferIndex := s.bufferIndex + 1 }) := by
  have hstore : bufferStore s data = .ok { s with
      buffer := Function.update s.buffer s.bufferIndex data
      bufferIndex := s.bufferIndex + 1 } := if_pos (by omega)
  have hlast : ¬ s.bufferIndex + 1 = s.bufferSize := hmore.ne
  have hvalue : s.spiState.value = 2 ∨ s.spiState.value = 5 :=
    h.imp (congrArg SpiState.value) (congrArg SpiState.value)
  rcases hvalue with hvalue | hvalue
  all_goals
    rw [exchangeByte, hvalue, hstore]
    simp only [bind, Except.bind]
    rw [if_neg hlast]

theorem exchangeByte_lastArg (h : s.spiState = .rxArg) (hlast : s.bufferIndex + 1 = s.bufferSize)
    (hfits : s.bufferSize ≤ sizeofBuffer) (data : Byte) :
    exchangeByte image s data =
      (doCmd image { s with
        buffer := Function.update s.buffer s.bufferIndex data
        bufferIndex := s.bufferIndex + 1 }).map fun s => (0xff#8, { s with spiState := .txData }) := by
  have hstore : bufferStore s data = .ok { s with
      buffer := Function.update s.buffer s.bufferIndex data
      bufferIndex := s.bufferIndex + 1 } := if_pos (by omega)
  have hvalue : s.spiState.value = 2 := congrArg SpiState.value h
  rw [exchangeByte, hvalue, hstore]
  simp only [bind, Except.bind]
  rw [if_pos hlast]
  cases doCmd image { s with
    buffer := Function.update s.buffer s.bufferIndex data
    bufferIndex := s.bufferIndex + 1 } <;> rfl

theorem exchangeByte_lastData (h : s.spiState = .rxBlock) (hlast : s.bufferIndex + 1 = s.bufferSize)
    (hfits : s.bufferSize ≤ sizeofBuffer) (data : Byte) :
    exchangeByte image s data =
      (if s.cardState = .multiblockWrite then
        finishWriteMultiblock image { s with
          buffer := Function.update s.buffer s.bufferIndex data
          bufferIndex := s.bufferIndex + 1 }
      else
        finishWriteSingleBlock image { s with
          buffer := Function.update s.buffer s.bufferIndex data
          bufferIndex := s.bufferIndex + 1 }).map fun s => (0xff#8, s) := by
  have hstore : bufferStore s data = .ok { s with
      buffer := Function.update s.buffer s.bufferIndex data
      bufferIndex := s.bufferIndex + 1 } := if_pos (by omega)
  have hvalue : s.spiState.value = 5 := congrArg SpiState.value h
  rw [exchangeByte, hvalue, hstore]
  simp only [bind, Except.bind]
  split_ifs <;> rfl

theorem exchangeByte_send (h : s.spiState = .txData) (hin : s.bufferIndex < sizeofBuffer)
    (data : Byte) : exchangeByte image s data = .ok (s.buffer s.bufferIndex,
      if s.bufferIndex + 1 = s.bufferSize then afterTxData { s with bufferIndex := s.bufferIndex + 1 }
      else { s with bufferIndex := s.bufferIndex + 1 }) := by
  have hvalue : s.spiState.value = 3 := congrArg SpiState.value h
  rw [exchangeByte, hvalue, bufferFetch, if_pos hin]
  simp only [bind, Except.bind]
  split_ifs <;> rfl

theorem exchangeByte_rxBlockWait (h : s.spiState = .rxBlockWait) (data : Byte) :
    exchangeByte image s data = .ok (0xff#8, waitForBlock s data) := by
  have hvalue : s.spiState.value = 4 := congrArg SpiState.value h
  rw [exchangeByte, hvalue]
  rfl

theorem exchangeByte_txBlockWait (h : s.spiState = .txBlockWait) (data : Byte) :
    exchangeByte image s data =
      (doReadMultiblock image { s with spiState := .txData }).map fun s => (0xff#8, s) := by
  have hvalue : s.spiState.value = 6 := congrArg SpiState.value h
  rw [exchangeByte, hvalue]
  cases doReadMultiblock image { s with spiState := .txData } <;> rfl

theorem afterTxData_command (h : s.cardState = .idle ∨ s.cardState = .initialized) :
    afterTxData s = { s with spiState := .rxCmdByte } := by
  rcases h with h | h <;> rw [afterTxData, h]

theorem afterTxData_initialized (h : s.cardState = .initialized) :
    afterTxData s = { s with spiState := .rxCmdByte } :=
  afterTxData_command (.inr h)

theorem afterTxData_read (h : s.cardState = .multiblockRead) :
    afterTxData s = { s with spiState := .txBlockWait } := by
  rw [afterTxData, h]

theorem afterTxData_write (h : s.cardState = .writeTransaction ∨ s.cardState = .multiblockWrite) :
    afterTxData s = { s with spiState := .rxBlockWait } := by
  rcases h with h | h <;> rw [afterTxData, h]

end States

section Store

variable {s : SPISlaveSD} {image : CardImage}

theorem copy_cons (buffer : ℕ → Byte) (start : ℕ) (data : Byte) (bytes : List Byte) :
    Buffer.copy (Function.update buffer start data) (start + 1) (arrayOf bytes) bytes.length =
      Buffer.copy buffer start (arrayOf (data :: bytes)) (bytes.length + 1) := by
  funext i
  by_cases hi : i = start
  · subst hi
    rw [Buffer.copy_outside (by omega), Function.update_self, Buffer.copy_inside le_rfl (by omega),
      Nat.sub_self]
    rfl
  · by_cases hinside : start < i ∧ i < start + bytes.length + 1
    · rw [Buffer.copy_inside (by omega) (by omega), Buffer.copy_inside (by omega) (by omega),
        show i - start = i - (start + 1) + 1 by omega]
      rfl
    · rw [Buffer.copy_outside (by omega), Buffer.copy_outside (by omega), Function.update_of_ne hi]

theorem exchangeAll_store (hslot : s.slot = some image) (hread : s.cardState ≠ .multiblockRead)
    (hstate : s.spiState = .rxArg ∨ s.spiState = .rxBlock) (hfits : s.bufferSize ≤ sizeofBuffer)
    {bytes : List Byte} (hmore : s.bufferIndex + bytes.length < s.bufferSize) :
    exchangeAll s bytes = .ok (idleBytes bytes.length, { s with
      buffer := Buffer.copy s.buffer s.bufferIndex (arrayOf bytes) bytes.length
      bufferIndex := s.bufferIndex + bytes.length }) := by
  induction bytes generalizing s with
  | nil =>
    have hbuffer : Buffer.copy s.buffer s.bufferIndex (arrayOf []) 0 = s.buffer := by
      funext i
      exact Buffer.copy_outside (by omega)
    rw [List.length_nil, hbuffer]
    rfl
  | cons data bytes ih =>
    rw [List.length_cons] at hmore
    have hbyte : exchangeByte image s data = _ :=
      exchangeByte_store hstate (by omega) hfits data
    rw [← doExchange8_mounted hslot hread] at hbyte
    have hrest := ih (s := { s with
      buffer := Function.update s.buffer s.bufferIndex data
      bufferIndex := s.bufferIndex + 1 }) hslot hread hstate hfits (by dsimp only; omega)
    rw [copy_cons] at hrest
    have hindex : s.bufferIndex + 1 + bytes.length = s.bufferIndex + (bytes.length + 1) := by omega
    have hall := exchangeAll_cons hbyte hrest
    rwa [hindex] at hall

end Store

section Send

variable {s : SPISlaveSD} {image : CardImage}

/-- These bytes are still to be sent. -/
structure Sending (s : SPISlaveSD) (bytes : List Byte) : Prop where
  spiState : s.spiState = .txData
  pending : s.bufferIndex + bytes.length = s.bufferSize
  fits : s.bufferSize ≤ sizeofBuffer
  buffer : ∀ i < bytes.length, s.buffer (s.bufferIndex + i) = bytes.getD i 0#8

theorem respond_sending (s : SPISlaveSD) {bytes : List Byte} (hstate : s.spiState = .txData)
    (hfits : bytes.length ≤ sizeofBuffer) : Sending (respond s bytes) bytes := by
  refine ⟨hstate, ?_, ?_, fun i hi => ?_⟩
  · rfl
  · rwa [respond_bufferSize]
  · rw [respond_bufferIndex, Nat.zero_add]
    exact respond_buffer s hi

theorem Sending.step {byte : Byte} {bytes : List Byte} (h : Sending s (byte :: bytes))
    (image : CardImage) (data : Byte) : exchangeByte image s data = .ok (byte, if bytes = [] then
        afterTxData { s with bufferIndex := s.bufferIndex + 1 }
      else { s with bufferIndex := s.bufferIndex + 1 }) ∧
    (bytes ≠ [] → Sending { s with bufferIndex := s.bufferIndex + 1 } bytes) := by
  have hpending := h.pending
  rw [List.length_cons] at hpending
  have hfirst : s.buffer s.bufferIndex = byte := h.buffer 0 (Nat.succ_pos _)
  constructor
  · rw [exchangeByte_send h.spiState (by have := h.fits; omega), hfirst]
    by_cases hlast : bytes = []
    · grind
    · have hpos := List.length_pos_iff.mpr hlast
      rw [if_neg hlast, if_neg (by omega)]
  · intro _
    refine ⟨h.spiState, by dsimp only; omega, h.fits, fun i hi => ?_⟩
    have hbyte := h.buffer (i + 1) (Nat.succ_lt_succ hi)
    rwa [← Nat.add_assoc, Nat.add_right_comm] at hbyte

theorem Sending.exchangeAll {bytes datas : List Byte} (h : Sending s bytes) (hbytes : bytes ≠ [])
    (hlength : datas.length = bytes.length) (hslot : s.slot = some image)
    (hread : s.cardState ≠ .multiblockRead) :
    exchangeAll s datas = .ok (bytes, afterTxData { s with bufferIndex := s.bufferSize }) := by
  induction bytes generalizing s datas with
  | nil => exact absurd rfl hbytes
  | cons byte bytes ih =>
    cases datas with
    | nil => cases hlength
    | cons data datas =>
      obtain ⟨hbyte, hmore⟩ := h.step image data
      rw [← doExchange8_mounted hslot hread] at hbyte
      by_cases hlast : bytes = []
      · subst hlast
        obtain rfl : datas = [] := List.eq_nil_of_length_eq_zero (Nat.succ.inj hlength)
        have hindex : s.bufferIndex + 1 = s.bufferSize := h.pending
        rw [if_pos rfl, hindex] at hbyte
        exact exchangeAll_cons hbyte rfl
      · rw [if_neg hlast] at hbyte
        exact exchangeAll_cons hbyte (ih (hmore hlast) hlast (Nat.succ.inj hlength) hslot hread)

end Send

end Cloudpilot.Hardware.SDCard
