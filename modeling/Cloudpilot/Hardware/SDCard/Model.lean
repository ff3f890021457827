import Mathlib.Data.BitVec
import Mathlib.Tactic
import Cloudpilot.Common.CardImage

/-! # Checksums of SD cards

The two checksums that an SD card adds to what it sends, with their tables, and the
polynomial behind the one for blocks.
-/

namespace Cloudpilot.Common.SdCrc

open BitVec

abbrev Byte := BitVec 8

def sdCardCrc7Table : List Byte := [
  0x00, 0x09, 0x12, 0x1b, 0x24, 0x2d, 0x36, 0x3f, 0x48, 0x41, 0x5a, 0x53, 0x6c, 0x65, 0x7e, 0x77,
  0x19, 0x10, 0x0b, 0x02, 0x3d, 0x34, 0x2f, 0x26, 0x51, 0x58, 0x43, 0x4a, 0x75, 0x7c, 0x67, 0x6e,
  0x32, 0x3b, 0x20, 0x29, 0x16, 0x1f, 0x04, 0x0d, 0x7a, 0x73, 0x68, 0x61, 0x5e, 0x57, 0x4c, 0x45,
  0x2b, 0x22, 0x39, 0x30, 0x0f, 0x06, 0x1d, 0x14, 0x63, 0x6a, 0x71, 0x78, 0x47, 0x4e, 0x55, 0x5c,
  0x64, 0x6d, 0x76, 0x7f, 0x40, 0x49, 0x52, 0x5b, 0x2c, 0x25, 0x3e, 0x37, 0x08, 0x01, 0x1a, 0x13,
  0x7d, 0x74, 0x6f, 0x66, 0x59, 0x50, 0x4b, 0x42, 0x35, 0x3c, 0x27, 0x2e, 0x11, 0x18, 0x03, 0x0a,
  0x56, 0x5f, 0x44, 0x4d, 0x72, 0x7b, 0x60, 0x69, 0x1e, 0x17, 0x0c, 0x05, 0x3a, 0x33, 0x28, 0x21,
  0x4f, 0x46, 0x5d, 0x54, 0x6b, 0x62, 0x79, 0x70, 0x07, 0x0e, 0x15, 0x1c, 0x23, 0x2a, 0x31, 0x38,
  0x41, 0x48, 0x53, 0x5a, 0x65, 0x6c, 0x77, 0x7e, 0x09, 0x00, 0x1b, 0x12, 0x2d, 0x24, 0x3f, 0x36,
  0x58, 0x51, 0x4a, 0x43, 0x7c, 0x75, 0x6e, 0x67, 0x10, 0x19, 0x02, 0x0b, 0x34, 0x3d, 0x26, 0x2f,
  0x73, 0x7a, 0x61, 0x68, 0x57, 0x5e, 0x45, 0x4c, 0x3b, 0x32, 0x29, 0x20, 0x1f, 0x16, 0x0d, 0x04,
  0x6a, 0x63, 0x78, 0x71, 0x4e, 0x47, 0x5c, 0x55, 0x22, 0x2b, 0x30, 0x39, 0x06, 0x0f, 0x14, 0x1d,
  0x25, 0x2c, 0x37, 0x3e, 0x01, 0x08, 0x13, 0x1a, 0x6d, 0x64, 0x7f, 0x76, 0x49, 0x40, 0x5b, 0x52,
  0x3c, 0x35, 0x2e, 0x27, 0x18, 0x11, 0x0a, 0x03, 0x74, 0x7d, 0x66, 0x6f, 0x50, 0x59, 0x42, 0x4b,
  0x17, 0x1e, 0x05, 0x0c, 0x33, 0x3a, 0x21, 0x28, 0x5f, 0x56, 0x4d, 0x44, 0x7b, 0x72, 0x69, 0x60,
  0x0e, 0x07, 0x1c, 0x15, 0x2a, 0x23, 0x38, 0x31, 0x46, 0x4f, 0x54, 0x5d, 0x62, 0x6b, 0x70, 0x79]

def sdCardCrc16Table : List (BitVec 16) := [
  0x0000, 0x1021, 0x2042, 0x3063, 0x4084, 0x50a5, 0x60c6, 0x70e7, 0x8108, 0x9129, 0xa14a, 0xb16b,
  0xc18c, 0xd1ad, 0xe1ce, 0xf1ef, 0x1231, 0x0210, 0x3273, 0x2252, 0x52b5, 0x4294, 0x72f7, 0x62d6,
  0x9339, 0x8318, 0xb37b, 0xa35a, 0xd3bd, 0xc39c, 0xf3ff, 0xe3de, 0x2462, 0x3443, 0x0420, 0x1401,
  0x64e6, 0x74c7, 0x44a4, 0x5485, 0xa56a, 0xb54b, 0x8528, 0x9509, 0xe5ee, 0xf5cf, 0xc5ac, 0xd58d,
  0x3653, 0x2672, 0x1611, 0x0630, 0x76d7, 0x66f6, 0x5695, 0x46b4, 0xb75b, 0xa77a, 0x9719, 0x8738,
  0xf7df, 0xe7fe, 0xd79d, 0xc7bc, 0x48c4, 0x58e5, 0x6886, 0x78a7, 0x0840, 0x1861, 0x2802, 0x3823,
  0xc9cc, 0xd9ed, 0xe98e, 0xf9af, 0x8948, 0x9969, 0xa90a, 0xb92b, 0x5af5, 0x4ad4, 0x7ab7, 0x6a96,
  0x1a71, 0x0a50, 0x3a33, 0x2a12, 0xdbfd, 0xcbdc, 0xfbbf, 0xeb9e, 0x9b79, 0x8b58, 0xbb3b, 0xab1a,
  0x6ca6, 0x7c87, 0x4ce4, 0x5cc5, 0x2c22, 0x3c03, 0x0c60, 0x1c41, 0xedae, 0xfd8f, 0xcdec, 0xddcd,
  0xad2a, 0xbd0b, 0x8d68, 0x9d49, 0x7e97, 0x6eb6, 0x5ed5, 0x4ef4, 0x3e13, 0x2e32, 0x1e51, 0x0e70,
  0xff9f, 0xefbe, 0xdfdd, 0xcffc, 0xbf1b, 0xaf3a, 0x9f59, 0x8f78, 0x9188, 0x81a9, 0xb1ca, 0xa1eb,
  0xd10c, 0xc12d, 0xf14e, 0xe16f, 0x1080, 0x00a1, 0x30c2, 0x20e3, 0x5004, 0x4025, 0x7046, 0x6067,
  0x83b9, 0x9398, 0xa3fb, 0xb3da, 0xc33d, 0xd31c, 0xe37f, 0xf35e, 0x02b1, 0x1290, 0x22f3, 0x32d2,
  0x4235, 0x5214, 0x6277, 0x7256, 0xb5ea, 0xa5cb, 0x95a8, 0x8589, 0xf56e, 0xe54f, 0xd52c, 0xc50d,
  0x34e2, 0x24c3, 0x14a0, 0x0481, 0x7466, 0x6447, 0x5424, 0x4405, 0xa7db, 0xb7fa, 0x8799, 0x97b8,
  0xe75f, 0xf77e, 0xc71d, 0xd73c, 0x26d3, 0x36f2, 0x0691, 0x16b0, 0x6657, 0x7676, 0x4615, 0x5634,
  0xd94c, 0xc96d, 0xf90e, 0xe92f, 0x99c8, 0x89e9, 0xb98a, 0xa9ab, 0x5844, 0x4865, 0x7806, 0x6827,
  0x18c0, 0x08e1, 0x3882, 0x28a3, 0xcb7d, 0xdb5c, 0xeb3f, 0xfb1e, 0x8bf9, 0x9bd8, 0xabbb, 0xbb9a,
  0x4a75, 0x5a54, 0x6a37, 0x7a16, 0x0af1, 0x1ad0, 0x2ab3, 0x3a92, 0xfd2e, 0xed0f, 0xdd6c, 0xcd4d,
  0xbdaa, 0xad8b, 0x9de8, 0x8dc9, 0x7c26, 0x6c07, 0x5c64, 0x4c45, 0x3ca2, 0x2c83, 0x1ce0, 0x0cc1,
  0xef1f, 0xff3e, 0xcf5d, 0xdf7c, 0xaf9b, 0xbfba, 0x8fd9, 0x9ff8, 0x6e17, 0x7e36, 0x4e55, 0x5e74,
  0x2e93, 0x3eb2, 0x0ed1, 0x1ef0]

def crc7Step (crc byte : Byte) : Byte :=
  sdCardCrc7Table.getD ((crc.setWidth 32 <<< 1) ^^^ byte.setWidth 32).toNat 0#8

def sdCRC7 (data : List Byte) : Byte := data.foldl crc7Step 0#8

/-- The index into the table for blocks. -/
def crc16Index (crc : BitVec 16) (byte : Byte) : Byte := (crc >>> 8).setWidth 8 ^^^ byte

def crc16Step (crc : BitVec 16) (byte : Byte) : BitVec 16 :=
  sdCardCrc16Table.getD (crc16Index crc byte).toNat 0#16 ^^^ (crc <<< 8)

def sdCRC16 (data : List Byte) : BitVec 16 := data.foldl crc16Step 0#16

/-- One bit of the division by the polynomial. -/
def shiftOut (crc : BitVec 16) : BitVec 16 :=
  if crc.msb then (crc <<< 1) ^^^ 0x1021#16 else crc <<< 1

def crc16Byte (crc : BitVec 16) (byte : Byte) : BitVec 16 :=
  shiftOut^[8] (crc ^^^ (byte.setWidth 16 <<< 8))

/-- The CRC16 of the SD card specification: the bytes are divided bit by bit. -/
def crc16 (data : List Byte) : BitVec 16 := data.foldl crc16Byte 0#16

theorem shiftOut_xor (a b : BitVec 16) : shiftOut (a ^^^ b) = shiftOut a ^^^ shiftOut b := by
  have hself : ∀ x y : BitVec 16, x ^^^ 0x1021#16 ^^^ (y ^^^ 0x1021#16) = x ^^^ y := by
    intro x y
    rw [BitVec.xor_assoc, BitVec.xor_comm y, ← BitVec.xor_assoc 0x1021#16, BitVec.xor_self,
      BitVec.zero_xor]
  have hleft : ∀ x y : BitVec 16, x ^^^ 0x1021#16 ^^^ y = x ^^^ y ^^^ 0x1021#16 := by
    intro x y
    rw [BitVec.xor_assoc, BitVec.xor_comm 0x1021#16, ← BitVec.xor_assoc]
  simp only [shiftOut, BitVec.msb_xor, BitVec.shiftLeft_xor_distrib]
  cases a.msb <;> cases b.msb <;> simp [hself, hleft, BitVec.xor_assoc]

theorem iterate_shiftOut_xor (count : ℕ) (a b : BitVec 16) :
    shiftOut^[count] (a ^^^ b) = shiftOut^[count] a ^^^ shiftOut^[count] b := by
  induction count generalizing a b with
  | zero => rfl
  | succ count ih =>
    rw [Function.iterate_succ_apply, shiftOut_xor, ih]
    rfl

theorem iterate_shiftOut_low (crc : BitVec 16) {count : ℕ} (hcount : count ≤ 8) :
    shiftOut^[count] (crc &&& 0x00ff#16) = (crc &&& 0x00ff#16) <<< count := by
  induction count with
  | zero => exact (shiftLeft_zero _).symm
  | succ count ih =>
    have hmsb : ((crc &&& 0x00ff#16) <<< count).msb = false := by
      have hlt : count < 8 := hcount
      rw [msb_eq_getLsbD_last]
      interval_cases count <;> simp
    rw [Function.iterate_succ_apply', ih (by omega), shiftOut, hmsb]
    exact (shiftLeft_add ..).symm

theorem crc16_split (crc : BitVec 16) (byte : Byte) : crc ^^^ (byte.setWidth 16 <<< 8) =
    ((crc16Index crc byte).setWidth 16 <<< 8) ^^^ (crc &&& 0x00ff#16) := by
  apply eq_of_getLsbD_eq
  intro i hi
  interval_cases i <;> simp [crc16Index]

theorem sdCardCrc16Table_eq (i : Byte) :
    sdCardCrc16Table.getD i.toNat 0#16 = shiftOut^[8] (i.setWidth 16 <<< 8) := by
  have hentries : ∀ i : Fin 256, sdCardCrc16Table.getD i.val 0#16 =
      shiftOut^[8] ((ofFin (w := 8) i).setWidth 16 <<< 8) := by
    decide +kernel
  exact hentries i.toFin

theorem crc16Step_eq (crc : BitVec 16) (byte : Byte) : crc16Step crc byte = crc16Byte crc byte := by
  have hlow : (crc &&& 0x00ff#16) <<< 8 = crc <<< 8 := by
    apply eq_of_getLsbD_eq
    intro i hi
    interval_cases i <;> simp
  rw [crc16Byte, crc16_split, iterate_shiftOut_xor, ← sdCardCrc16Table_eq,
    iterate_shiftOut_low crc le_rfl, hlow, crc16Step]

theorem sdCRC16_eq (data : List Byte) : sdCRC16 data = crc16 data := by
  have hstep : crc16Step = crc16Byte := by
    funext crc byte
    exact crc16Step_eq crc byte
  rw [sdCRC16, hstep, crc16]

end Cloudpilot.Common.SdCrc

namespace Cloudpilot.Hardware.SDCard

open Cloudpilot.Library Cloudpilot.Common

inductive SpiState
  | notSelected
  | rxCmdByte
  | rxArg
  | txData
  | rxBlockWait
  | rxBlock
  | txBlockWait
  deriving DecidableEq, Repr

def SpiState.value : SpiState → ℕ
  | notSelected => 0
  | rxCmdByte => 1
  | rxArg => 2
  | txData => 3
  | rxBlockWait => 4
  | rxBlock => 5
  | txBlockWait => 6

inductive CardState
  | idle
  | initialized
  | writeTransaction
  | multiblockRead
  | multiblockWrite
  deriving DecidableEq, Repr

structure SPISlaveSD where
  acmd : Bool
  spiState : SpiState
  cardState : CardState
  lastCmd : Byte
  buffer : ℕ → Byte
  bufferSize : ℕ
  bufferIndex : ℕ
  cmd12Countdown : ℕ
  currentBlock : Word
  slot : Option CardImage

/-- An access behind the buffer, a division by the size of an empty image, and the failed
assertion of `DoExchange8`. -/
inductive Fault
  | buffer
  | division
  | assertion
  deriving DecidableEq, Repr

def errIllegalCommand : Byte := 0x04#8
def errCardIdle : Byte := 0x01#8
def errParameter : Byte := 0x40#8
def dataTokenDefault : Byte := 0xfe#8
def dataTokenCmd25 : Byte := 0xfc#8
def dataTokenStop : Byte := 0xfd#8
def dataResponseAccepted : Byte := 0xe5#8
def dataResponseWriteFailed : Byte := 0x0d#8
def sizeofBuffer : ℕ := 550

/-- `cSizeMult` and `cSize`. -/
def determineLayout (blocksTotal : ℕ) : Option (ℕ × Word) :=
  ((List.range 8).find? fun cSizeMult => blocksTotal >>> (cSizeMult + 2) < 0x1000).bind
    fun cSizeMult =>
      let cSize := BitVec.ofNat 32 (blocksTotal >>> (cSizeMult + 2)) - 1#32
      if ((1#32 <<< (cSizeMult + 2)) * (cSize + 1#32)).toNat = blocksTotal then
        some (cSizeMult, cSize)
      else none

def isSizeRepresentable (blocksTotal : ℕ) : Bool := (determineLayout blocksTotal).isSome

def bufferStart (s : SPISlaveSD) (count : ℕ) : SPISlaveSD :=
  { s with bufferSize := count, bufferIndex := 0 }

/-- `buffer[bufferSize++] = value`. -/
def bufferAdd (s : SPISlaveSD) (value : Byte) : Except Fault SPISlaveSD :=
  if s.bufferSize < sizeofBuffer then
    .ok { s with
      buffer := Function.update s.buffer s.bufferSize value
      bufferSize := s.bufferSize + 1 }
  else .error .buffer

def bufferAddAll (s : SPISlaveSD) (values : List Byte) : Except Fault SPISlaveSD :=
  values.foldlM bufferAdd s

/-- The `memcpy` behind the token. -/
def bufferCopy (s : SPISlaveSD) (data : ℕ → Byte) (size : ℕ) : Except Fault SPISlaveSD :=
  if s.bufferSize + size ≤ sizeofBuffer then
    .ok { s with
      buffer := Buffer.copy s.buffer s.bufferSize data size
      bufferSize := s.bufferSize + size }
  else .error .buffer

def bufferAddBlock (s : SPISlaveSD) (token : Byte) (data : ℕ → Byte) (size : ℕ) :
    Except Fault SPISlaveSD := do
  let s ← bufferAdd s token
  let s ← bufferCopy s data size
  let crc16 := SdCrc.sdCRC16 ((List.range size).map data)
  bufferAddAll s [(crc16 >>> 8).setWidth 8, crc16.setWidth 8]

def prepareR1 (s : SPISlaveSD) (flags : Byte) : Except Fault SPISlaveSD :=
  bufferAddAll (bufferStart s 0) [0xff#8, flags &&& 0x7f#8]

/-- The last byte is the first one again. -/
def param (s : SPISlaveSD) : Word :=
  s.buffer 0 ++ s.buffer 1 ++ s.buffer 2 ++ s.buffer 0

/-- `Param() >> 9`. -/
def paramBlock (s : SPISlaveSD) : Word := param s >>> 9

def arrayOf (bytes : List Byte) (i : ℕ) : Byte := bytes.getD i 0#8

/-- An R1 response with a block behind it. -/
def prepareBlock (s : SPISlaveSD) (data : ℕ → Byte) (size : ℕ) : Except Fault SPISlaveSD := do
  let s ← prepareR1 s 0x00#8
  let s ← bufferAdd s 0xff#8
  bufferAddBlock s dataTokenDefault data size

def csd (cSizeMult : ℕ) (cSize : Word) : List Byte :=
  let blLen : Word := 0x09#32
  let sectorSize : Word := 0#32
  let cSizeMult := BitVec.ofNat 32 cSizeMult
  [0x00#8, 0x0e#8, 0x00#8, 0x5a#8, 0x5b#8, (blLen ||| 0x50#32).setWidth 8,
    (cSize >>> 10 ||| 0x80#32).setWidth 8, (cSize >>> 2).setWidth 8,
    (cSize <<< 6 ||| 0x2d#32).setWidth 8, (cSizeMult >>> 1 ||| 0xd8#32).setWidth 8,
    (sectorSize >>> 1 ||| ((cSizeMult <<< 7) &&& 0xff#32)).setWidth 8,
    ((sectorSize <<< 7) &&& 0xff#32).setWidth 8, (blLen >>> 2 ||| 8#32).setWidth 8,
    ((blLen <<< 6) &&& 0xff#32).setWidth 8, 0x00#8]

def doReadCSD (image : CardImage) (s : SPISlaveSD) : Except Fault SPISlaveSD :=
  match determineLayout image.blocksTotal with
  | none => prepareR1 s errParameter
  | some (cSizeMult, cSize) => prepareBlock s (arrayOf (csd cSizeMult cSize)) 15

def cid : List Byte :=
  let bytes := [0x44#8, 0x74#8, 0x79#8, 0x43#8, 0x6c#8, 0x70#8, 0x6c#8, 0x74#8, 32#8, 0x00#8, 0x00#8,
    0x4a#8, 0xec#8, 9#8, 22#8]
  bytes ++ [SdCrc.sdCRC7 bytes <<< 1]

def doReadCID (s : SPISlaveSD) : Except Fault SPISlaveSD := prepareBlock s (arrayOf cid) 16

def doReadSCR (s : SPISlaveSD) : Except Fault SPISlaveSD :=
  prepareBlock s (arrayOf [0x01#8, 0x25#8, 0x00#8, 0x03#8, 0#8, 0#8, 0#8, 0#8]) 8

def doReadSDStatus (s : SPISlaveSD) : Except Fault SPISlaveSD := do
  let s ← bufferAddAll (bufferStart s 0) [0xff#8, 0x00#8, 0x00#8, 0xff#8]
  bufferAddBlock s dataTokenDefault (fun _ => 0#8) 64

/-- The contents of an array that nothing has been written to. -/
def uninitialized : ℕ → Byte := fun _ => 0#8

def doReadSingleBlock (image : CardImage) (s : SPISlaveSD) : Except Fault SPISlaveSD :=
  let s := bufferStart s 0
  let (count, block) := image.read uninitialized (paramBlock s).toNat 1
  if count ≠ 1 then prepareR1 s errParameter else prepareBlock s block 512

/-- `(currentBlock++) % image()->BlocksTotal()`. -/
def nextBlock (image : CardImage) (s : SPISlaveSD) : Except Fault (ℕ × SPISlaveSD) :=
  if image.blocksTotal = 0 then .error .division
  else
    .ok (s.currentBlock.toNat % image.blocksTotal, { s with currentBlock := s.currentBlock + 1#32 })

def doReadMultiblock (image : CardImage) (s : SPISlaveSD) : Except Fault SPISlaveSD := do
  let (index, s) ← nextBlock image (bufferStart s 0)
  bufferAddBlock s dataTokenDefault (image.read uninitialized index 1).2 512

def finishWriteSingleBlock (image : CardImage) (s : SPISlaveSD) : Except Fault SPISlaveSD := do
  let s := bufferStart s 0
  let (count, image) := image.write s.buffer s.currentBlock.toNat 1
  let s := { s with slot := some image }
  let s ← bufferAddAll s
    (if count = 1 then [dataResponseAccepted, 0xff#8] else [dataResponseWriteFailed])
  .ok { s with cardState := .initialized, spiState := .txData }

def finishWriteMultiblock (image : CardImage) (s : SPISlaveSD) : Except Fault SPISlaveSD := do
  let (index, s) ← nextBlock image (bufferStart s 0)
  let s := { s with slot := some (image.write s.buffer index 1).2 }
  let s ← bufferAddAll s [dataResponseAccepted, 0xff#8]
  .ok { s with spiState := .txData }

/-- A command that a card refuses before it has been initialized. -/
def unlessIdle (s : SPISlaveSD) (command : Except Fault SPISlaveSD) : Except Fault SPISlaveSD :=
  if s.cardState = .idle then prepareR1 s errCardIdle else command

/-- A command with the address of a block. `start` is what it changes before the response. -/
def addressed (image : CardImage) (s : SPISlaveSD) (start : SPISlaveSD → SPISlaveSD) :
    Except Fault SPISlaveSD :=
  unlessIdle s
    (if (paramBlock s).toNat ≥ image.blocksTotal then prepareR1 s errParameter
    else prepareR1 (start s) 0x00#8)

def doAcmd (s : SPISlaveSD) : Except Fault SPISlaveSD :=
  let s := { s with acmd := false }
  match s.lastCmd.toNat with
  | 13 => unlessIdle s (doReadSDStatus s)
  | 23 => unlessIdle s (prepareR1 s 0x00#8)
  | 41 => do
    let s ← prepareR1 s 0x00#8
    .ok { s with cardState := .initialized }
  | 51 => unlessIdle s (doReadSCR s)
  | _ => prepareR1 s errIllegalCommand

def doCmd (image : CardImage) (s : SPISlaveSD) : Except Fault SPISlaveSD :=
  if s.acmd then doAcmd s
  else
    match s.lastCmd.toNat with
    | 0 => prepareR1 s errCardIdle
    | 1 => do
      let s ← prepareR1 s 0x00#8
      .ok { s with cardState := .initialized }
    | 5 => prepareR1 s errIllegalCommand
    | 9 => unlessIdle s (doReadCSD image s)
    | 10 => unlessIdle s (doReadCID s)
    | 13 =>
      bufferAddAll (bufferStart s 0)
        [0xff#8, if s.cardState = .idle then errCardIdle else 0#8, 0#8]
    | 16 =>
      unlessIdle s (prepareR1 s (if param s ≠ 512#32 then errParameter else 0x00#8))
    | 17 => unlessIdle s (doReadSingleBlock image s)
    | 18 =>
      addressed image s fun s =>
        { s with cardState := .multiblockRead, cmd12Countdown := 0, currentBlock := paramBlock s }
    | 24 =>
      addressed image s fun s =>
        { s with cardState := .writeTransaction, currentBlock := paramBlock s }
    | 25 =>
      addressed image s fun s =>
        { s with cardState := .multiblockWrite, currentBlock := paramBlock s }
    | 55 => do
      let s ← prepareR1 s 0x00#8
      .ok { s with acmd := true }
    | 58 =>
      bufferAddAll (bufferStart s 0) [0xff#8, 0x00#8, 0x00#8, 0xff#8, 0x80#8, 0x00#8]
    | _ => prepareR1 s errIllegalCommand

/-- The end of a multiblock read is found next to the output. -/
def handleCmd12 (s : SPISlaveSD) (data : Byte) : Except Fault SPISlaveSD :=
  let s' := { s with cmd12Countdown := s.cmd12Countdown - 1 }
  if s.cmd12Countdown > 0 ∧ s'.cmd12Countdown = 0 then
    prepareR1 (bufferStart { s' with cardState := .initialized, spiState := .txData } 0) 0#8
  else .ok (if data = 0x4c#8 then { s' with cmd12Countdown := 6 } else s')

/-- `buffer[bufferIndex++] = data`. -/
def bufferStore (s : SPISlaveSD) (data : Byte) : Except Fault SPISlaveSD :=
  if s.bufferIndex < sizeofBuffer then
    .ok { s with
      buffer := Function.update s.buffer s.bufferIndex data
      bufferIndex := s.bufferIndex + 1 }
  else .error .buffer

/-- `buffer[bufferIndex++]`. -/
def bufferFetch (s : SPISlaveSD) : Except Fault (Byte × SPISlaveSD) :=
  if s.bufferIndex < sizeofBuffer then
    .ok (s.buffer s.bufferIndex, { s with bufferIndex := s.bufferIndex + 1 })
  else .error .buffer

/-- Where the card goes when the buffer has been sent. -/
def afterTxData (s : SPISlaveSD) : SPISlaveSD :=
  match s.cardState with
  | .writeTransaction | .multiblockWrite => { s with spiState := .rxBlockWait }
  | .multiblockRead => { s with spiState := .txBlockWait }
  | _ => { s with spiState := .rxCmdByte }

def waitForBlock (s : SPISlaveSD) (data : Byte) : SPISlaveSD :=
  let s :=
    if data = dataTokenDefault ∨ (data = dataTokenCmd25 ∧ s.cardState = .multiblockWrite) then
      bufferStart { s with spiState := .rxBlock } 514
    else s
  if data = dataTokenStop ∧ s.cardState = .multiblockWrite then
    { s with cardState := .initialized, spiState := .rxCmdByte }
  else s

/-- The `switch` of `DoExchange8`, with the assertion behind it. -/
def exchangeByte (image : CardImage) (s : SPISlaveSD) (data : Byte) :
    Except Fault (Byte × SPISlaveSD) :=
  match s.spiState.value with
  | 0 => .ok (0xff#8, s)
  | 1 =>
    if data &&& 0xc0#8 = 0x40#8 then
      .ok (0xff#8, bufferStart { s with lastCmd := data &&& 0x3f#8, spiState := .rxArg } 5)
    else .ok (0xff#8, s)
  | 2 => do
    let s ← bufferStore s data
    if s.bufferIndex = s.bufferSize then
      let s ← doCmd image s
      .ok (0xff#8, { s with spiState := .txData })
    else .ok (0xff#8, s)
  | 3 => do
    let (dataOut, s) ← bufferFetch s
    if s.bufferIndex = s.bufferSize then .ok (dataOut, afterTxData s) else .ok (dataOut, s)
  | 4 => .ok (0xff#8, waitForBlock s data)
  | 5 => do
    let s ← bufferStore s data
    if s.bufferIndex = s.bufferSize then
      let s ←
        if s.cardState = .multiblockWrite then finishWriteMultiblock image s
        else finishWriteSingleBlock image s
      .ok (0xff#8, s)
    else .ok (0xff#8, s)
  | 6 => do
    let s ← doReadMultiblock image { s with spiState := .txData }
    .ok (0xff#8, s)
  | _ => .error .assertion

def doExchange8 (s : SPISlaveSD) (data : Byte) : Except Fault (Byte × SPISlaveSD) :=
  match s.slot with
  | none => .ok (0x00#8, s)
  | some image => do
    let s ← if s.cardState = .multiblockRead then handleCmd12 s data else .ok s
    exchangeByte image s data

def doExchange (s : SPISlaveSD) (control data : BitVec 16) :
    Except Fault (BitVec 16 × SPISlaveSD) :=
  match (control &&& 0x0f#16).toNat + 1 with
  | 16 => do
    let (high, s) ← doExchange8 s ((data >>> 8).setWidth 8)
    let (low, s) ← doExchange8 s (data.setWidth 8)
    .ok (high.setWidth 16 <<< 8 ||| low.setWidth 16, s)
  | 8 => do
    let (dataOut, s) ← doExchange8 s (data.setWidth 8)
    .ok (dataOut.setWidth 16, s)
  | _ => .ok (0xff#16, s)

def reset (s : SPISlaveSD) : SPISlaveSD :=
  { s with
    spiState := .notSelected
    cardState := .idle
    lastCmd := 0#8
    acmd := false
    cmd12Countdown := 0 }

def enable (s : SPISlaveSD) : SPISlaveSD :=
  if s.spiState ≠ .notSelected then s
  else if s.slot.isSome then { s with spiState := .rxCmdByte, lastCmd := 0#8 }
  else s

def disable (s : SPISlaveSD) : SPISlaveSD := { s with spiState := .notSelected }

def mount (s : SPISlaveSD) (image : CardImage) : SPISlaveSD :=
  if s.slot.isSome ∨ ¬ isSizeRepresentable image.blocksTotal then s
  else { s with slot := some image }

def unmount (s : SPISlaveSD) : SPISlaveSD := { s with slot := none }

/-- What reaches the card: transfers of the guest and calls of the emulator. -/
inductive Operation
  | exchange (control data : BitVec 16)
  | enable
  | disable
  | reset
  | mount (image : CardImage)
  | unmount

def step (s : SPISlaveSD) : Operation → Except Fault SPISlaveSD
  | .exchange control data => do
    let (_, s) ← doExchange s control data
    .ok s
  | .enable => .ok (enable s)
  | .disable => .ok (disable s)
  | .reset => .ok (reset s)
  | .mount image => .ok (mount s image)
  | .unmount => .ok (unmount s)

def run (s : SPISlaveSD) (operations : List Operation) : Except Fault SPISlaveSD :=
  operations.foldlM step s

end Cloudpilot.Hardware.SDCard
