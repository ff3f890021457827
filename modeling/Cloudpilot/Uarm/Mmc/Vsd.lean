import Cloudpilot.Uarm.Cpu.State

/-! # The backing store of the SD card

The image and its dirty pages. The offset of a sector is computed in 32 bits before
it is added to the start of the image.
-/

namespace Cloudpilot.Uarm.Mmc

open Cpu

abbrev Byte := BitVec 8

/-- What ends a call: the emulator halts, or C leaves an array or the null pointer. -/
inductive Fault where
  | halt
  | fifo
  | response
  | noCard
  deriving DecidableEq, Repr

/-- The contents of one sector. -/
abbrev Block := Fin 512 → Byte

structure SdCard where
  sectorsTotal : ℕ
  data : ℕ → Byte
  dirtyPages : ℕ → Word
  sdCardDirty : Bool
  initialized : Bool

/-- A slot without an image. -/
def SdCard.empty : SdCard where
  sectorsTotal := 0
  data := fun _ => 0
  dirtyPages := fun _ => 0
  sdCardDirty := false
  initialized := false

def sdCardInitializeWithData (sectors : ℕ) (data : ℕ → Byte) : SdCard where
  sectorsTotal := sectors
  data := data
  dirtyPages := fun _ => 0
  sdCardDirty := false
  initialized := true

namespace SdCard

/-- `SD_SECTOR_SIZE * sector`. -/
def offset (sector : Word) : ℕ := (512 * sector).toNat

def sdCardRead (card : SdCard) (sector : Word) : Option Block :=
  if sector.toNat ≥ card.sectorsTotal then none
  else some fun i => card.data (offset sector + i)

def markPage (dirtyPages : ℕ → Word) (page : ℕ) : ℕ → Word :=
  Function.update dirtyPages (page / 32) (dirtyPages (page / 32) ||| (1 : Word) <<< (page % 32))

def putBlock (data : ℕ → Byte) (ofst : ℕ) (block : Block) : ℕ → Byte := fun k =>
  if h : ofst ≤ k ∧ k < ofst + 512 then block ⟨k - ofst, by omega⟩ else data k

def sdCardWrite (card : SdCard) (sector : Word) (block : Block) : Option SdCard :=
  if sector.toNat ≥ card.sectorsTotal then none
  else some { card with
    data := putBlock card.data (offset sector) block
    dirtyPages := markPage card.dirtyPages (sector >>> 4).toNat
    sdCardDirty := true }

end SdCard

inductive State where
  | idle
  | ready
  | ident
  | stby
  | tran
  | data
  | rcv
  | prg
  | dis
  deriving DecidableEq, Repr

def State.code : State → Word
  | .idle => 0
  | .ready => 1
  | .ident => 2
  | .stby => 3
  | .tran => 4
  | .data => 5
  | .rcv => 6
  | .prg => 7
  | .dis => 8

inductive SdReplyType where
  | none
  | bits48
  | bits48AndBusy
  | bits136
  deriving DecidableEq, Repr

inductive SdDataReplyType where
  | ok
  | errWrongBlockSize
  | errWrongCurrentState
  | errBackingStore
  deriving DecidableEq, Repr

inductive RejectReason where
  | invalidInCurrentState
  | unacceptableParam
  | unknownCommand
  deriving DecidableEq, Repr

structure Vsd where
  nSec : Word
  hcCard : Bool
  state : State
  rca : BitVec 16
  acmdShift : Bool
  reportAcmdNext : Bool
  initWaitLeft : Byte
  prevAcmd41Param : Word
  curBuf : Block
  curSec : Word
  curBufLen : ℕ
  bufIsData : Bool
  bufContinuous : Bool
  haveExpectedNumBlocks : Bool
  numBlocksExpected : Word

abbrev Reply := Vector Byte 17

/-- The outcome of a command: how it replied, what is in the reply buffer, whether the checksum
is still missing there, and the card. -/
structure Answer where
  replTyp : SdReplyType
  reply : Reply
  needsCrc : Bool
  vsd : Vsd

def crc7Table : List Byte := [
  0x00, 0x12, 0x24, 0x36, 0x48, 0x5a, 0x6c, 0x7e, 0x90, 0x82, 0xb4, 0xa6, 0xd8, 0xca, 0xfc, 0xee,
  0x32, 0x20, 0x16, 0x04, 0x7a, 0x68, 0x5e, 0x4c, 0xa2, 0xb0, 0x86, 0x94, 0xea, 0xf8, 0xce, 0xdc,
  0x64, 0x76, 0x40, 0x52, 0x2c, 0x3e, 0x08, 0x1a, 0xf4, 0xe6, 0xd0, 0xc2, 0xbc, 0xae, 0x98, 0x8a,
  0x56, 0x44, 0x72, 0x60, 0x1e, 0x0c, 0x3a, 0x28, 0xc6, 0xd4, 0xe2, 0xf0, 0x8e, 0x9c, 0xaa, 0xb8,
  0xc8, 0xda, 0xec, 0xfe, 0x80, 0x92, 0xa4, 0xb6, 0x58, 0x4a, 0x7c, 0x6e, 0x10, 0x02, 0x34, 0x26,
  0xfa, 0xe8, 0xde, 0xcc, 0xb2, 0xa0, 0x96, 0x84, 0x6a, 0x78, 0x4e, 0x5c, 0x22, 0x30, 0x06, 0x14,
  0xac, 0xbe, 0x88, 0x9a, 0xe4, 0xf6, 0xc0, 0xd2, 0x3c, 0x2e, 0x18, 0x0a, 0x74, 0x66, 0x50, 0x42,
  0x9e, 0x8c, 0xba, 0xa8, 0xd6, 0xc4, 0xf2, 0xe0, 0x0e, 0x1c, 0x2a, 0x38, 0x46, 0x54, 0x62, 0x70,
  0x82, 0x90, 0xa6, 0xb4, 0xca, 0xd8, 0xee, 0xfc, 0x12, 0x00, 0x36, 0x24, 0x5a, 0x48, 0x7e, 0x6c,
  0xb0, 0xa2, 0x94, 0x86, 0xf8, 0xea, 0xdc, 0xce, 0x20, 0x32, 0x04, 0x16, 0x68, 0x7a, 0x4c, 0x5e,
  0xe6, 0xf4, 0xc2, 0xd0, 0xae, 0xbc, 0x8a, 0x98, 0x76, 0x64, 0x52, 0x40, 0x3e, 0x2c, 0x1a, 0x08,
  0xd4, 0xc6, 0xf0, 0xe2, 0x9c, 0x8e, 0xb8, 0xaa, 0x44, 0x56, 0x60, 0x72, 0x0c, 0x1e, 0x28, 0x3a,
  0x4a, 0x58, 0x6e, 0x7c, 0x02, 0x10, 0x26, 0x34, 0xda, 0xc8, 0xfe, 0xec, 0x92, 0x80, 0xb6, 0xa4,
  0x78, 0x6a, 0x5c, 0x4e, 0x30, 0x22, 0x14, 0x06, 0xe8, 0xfa, 0xcc, 0xde, 0xa0, 0xb2, 0x84, 0x96,
  0x2e, 0x3c, 0x0a, 0x18, 0x66, 0x74, 0x42, 0x50, 0xbe, 0xac, 0x9a, 0x88, 0xf6, 0xe4, 0xd2, 0xc0,
  0x1c, 0x0e, 0x38, 0x2a, 0x54, 0x46, 0x70, 0x62, 0x8c, 0x9e, 0xa8, 0xba, 0xc4, 0xd6, 0xe0, 0xf2]

/-- `vsdCRC7` of the first bytes of a reply. -/
def vsdCRC7 (reply : Reply) (sz : ℕ) : Byte :=
  (reply.toList.take sz).foldl (fun crc byte => crc7Table.getD (crc ^^^ byte).toNat 0) 0 + 1

namespace Vsd

def cardReset (vsd : Vsd) : Vsd :=
  { vsd with
    acmdShift := false
    rca := 0
    reportAcmdNext := false
    state := .idle
    prevAcmd41Param := 0
    initWaitLeft := 20 }

def vsdReset (vsd : Vsd) (nSec : Word) : Vsd :=
  { vsd with nSec := nSec, hcCard := 4194304 < nSec }.cardReset

/-- `vsdInit` for a slot without a card. -/
def init : Vsd :=
  vsdReset {
    nSec := 0
    hcCard := false
    state := .idle
    rca := 0
    acmdShift := false
    reportAcmdNext := false
    initWaitLeft := 0
    prevAcmd41Param := 0
    curBuf := fun _ => 0
    curSec := 0
    curBufLen := 0
    bufIsData := false
    bufContinuous := false
    haveExpectedNumBlocks := false
    numBlocksExpected := 0 } 0

/-- `vsdCalcR1resp`, which also takes back `reportAcmdNext`. -/
def r1 (vsd : Vsd) (r1bicBits r1orrBits : Word) : Word :=
  let r1 := 0x0100 ||| (vsd.state.code <<< 9)
  let r1 := if vsd.acmdShift || vsd.reportAcmdNext then r1 ||| 0x20 else r1
  (r1 &&& ~~~r1bicBits) ||| r1orrBits

def prepareR1resp (vsd : Vsd) (cmd : Byte) (reply : Reply) (r1bicBits r1orrBits : Word) : Answer :=
  let r1 := vsd.r1 r1bicBits r1orrBits
  { replTyp := .bits48
    reply := ((((reply.set 0 cmd).set 1 ((r1 >>> 24).setWidth 8)).set 2 ((r1 >>> 16).setWidth 8)).set 3
      ((r1 >>> 8).setWidth 8)).set 4 (r1.setWidth 8)
    needsCrc := true
    vsd := { vsd with reportAcmdNext := false } }

def prepareR6resp (vsd : Vsd) (cmd : Byte) (reply : Reply) : Answer :=
  let r1 := vsd.r1 0 0
  let status := (((r1 >>> 22) &&& 3) <<< 6) ||| (((r1 >>> 19) &&& 1) <<< 5) ||| ((r1 >>> 8) &&& 0x1f)
  { replTyp := .bits48
    reply := ((((reply.set 0 cmd).set 1 ((vsd.rca >>> 8).setWidth 8)).set 2 (vsd.rca.setWidth 8)).set 3
      (status.setWidth 8)).set 4 (r1.setWidth 8)
    needsCrc := true
    vsd := { vsd with reportAcmdNext := false } }

def noReply (vsd : Vsd) (reply : Reply) : Answer := ⟨.none, reply, true, vsd⟩

def rejectCmd (vsd : Vsd) (cmd : Byte) (reply : Reply) : RejectReason → Answer
  | .invalidInCurrentState => vsd.prepareR1resp cmd reply 0 0x00400000
  | .unacceptableParam => vsd.prepareR1resp cmd reply 0 0x80000000
  | .unknownCommand => vsd.noReply reply

/-- The card size as `C_SIZE`, and the shift that is needed for it. -/
def csdSize (nSec nShift : ℕ) : ℕ × ℕ :=
  if nSec > 0x1000 ∨ nShift < 2 then csdSize ((nSec + nSec % 2) / 2) (nShift + 1)
  else (nSec, nShift)
termination_by nSec + (2 - nShift)

def getCsdV1 (vsd : Vsd) : List Byte :=
  let (nSec, nShift) := csdSize vsd.nSec.toNat 0
  let cSize := BitVec.ofNat 32 nSec - 1
  let nShift := nShift - 2
  let mult := min nShift 7
  let cSizeMult := BitVec.ofNat 32 mult
  let nShift := nShift - mult
  let cSize := if nShift > 1 then 0 else cSize
  let blLen := BitVec.ofNat 32 (nShift + 9)
  let sectorSize : Word := 31
  [0x00, 0x0e, 0x00, 0x5a, 0x5b, (blLen ||| 0x50).setWidth 8, ((cSize >>> 10) ||| 0x80).setWidth 8,
    (cSize >>> 2).setWidth 8, ((cSize <<< 6) ||| 0x2d).setWidth 8,
    ((cSizeMult >>> 1) ||| 0xd8).setWidth 8, ((sectorSize >>> 1) + (cSizeMult <<< 7)).setWidth 8,
    (sectorSize <<< 7).setWidth 8, ((blLen >>> 2) ||| 8).setWidth 8, (blLen <<< 6).setWidth 8, 0x00]

def getCsdV2 (vsd : Vsd) : List Byte :=
  let cSize := (vsd.nSec + 1023) / 1024 - 1
  let writeBlLen : Word := 9
  let sectorSize : Word := 31
  [0x40, 0x0e, 0x00, 0x5a, 0x5b, 0x59, 0x00, (cSize >>> 16).setWidth 8, (cSize >>> 8).setWidth 8,
    cSize.setWidth 8, (sectorSize >>> 1).setWidth 8, (sectorSize <<< 7).setWidth 8,
    ((writeBlLen >>> 2) ||| 8).setWidth 8, (writeBlLen <<< 6).setWidth 8, 0x00]

/-- A reply of 16 bytes, with the command or the first byte of the register in front. -/
def reply136 (vsd : Vsd) (reply : Reply) (bytes : List Byte) : Answer :=
  ⟨.bits136, Vector.ofFn fun i => if i.val < 16 then bytes.getD i.val 0 else reply[i], true, vsd⟩

def cid : List Byte :=
  [0x44, 0x47, 0x72, 0x20, 0x76, 0x53, 0x44, 0x20, 32, 0x00, 0x00, 0x4a, 0xec, 3, 20]

def startData (vsd : Vsd) (cmd : Byte) (param : Word) (reply : Reply) (wasAcmd : Bool)
    (state : State) (bufContinuous : Bool) : Answer :=
  if wasAcmd then vsd.rejectCmd cmd reply .invalidInCurrentState
  else if vsd.state ≠ .tran then vsd.rejectCmd cmd reply .invalidInCurrentState
  else if ¬ vsd.hcCard ∧ param % 512 ≠ 0 then vsd.rejectCmd cmd reply .unacceptableParam
  else { vsd with
    curSec := if vsd.hcCard then param else param / 512
    state := state
    bufIsData := true
    bufContinuous := bufContinuous
    curBufLen := 512 }.prepareR1resp cmd reply 0 0

def command3 (vsd : Vsd) (cmd : Byte) (reply : Reply) : Answer :=
  if vsd.state ≠ .ident ∧ vsd.state ≠ .stby then vsd.rejectCmd cmd reply .invalidInCurrentState
  else { vsd with state := .stby, rca := 3 }.prepareR6resp cmd reply

def command6 (vsd : Vsd) (cmd : Byte) (reply : Reply) (wasAcmd : Bool) : Except Fault Answer :=
  if vsd.state ≠ .tran then .ok (vsd.rejectCmd cmd reply .invalidInCurrentState)
  else if wasAcmd then .ok (vsd.prepareR1resp cmd reply 0 0)
  else .error .halt

def command7 (vsd : Vsd) (cmd : Byte) (param : Word) (reply : Reply) : Answer :=
  let addressed : Bool := vsd.rca.setWidth 32 = param >>> 16
  if vsd.state = .stby ∧ addressed then
    { { vsd with state := .tran }.prepareR1resp cmd reply 0 0 with replTyp := .bits48AndBusy }
  else if vsd.state ∈ [.stby, .tran, .data, .prg] ∧ ¬ addressed then
    { vsd with state := .stby }.prepareR1resp cmd reply 0 0
  else vsd.rejectCmd cmd reply .invalidInCurrentState

def command8 (vsd : Vsd) (cmd : Byte) (param : Word) (reply : Reply) : Answer :=
  if vsd.state ≠ .idle then vsd.rejectCmd cmd reply .invalidInCurrentState
  else if param &&& 0xffffff00 ≠ 0x100 then vsd.rejectCmd cmd reply .unacceptableParam
  else
    { replTyp := .bits48
      reply := ((((reply.set 0 cmd).set 1 0).set 2 0).set 3 1).set 4 (param.setWidth 8)
      needsCrc := true
      vsd := vsd }

def command12 (vsd : Vsd) (cmd : Byte) (reply : Reply) : Answer :=
  if vsd.state ≠ .data ∧ vsd.state ≠ .rcv then vsd.rejectCmd cmd reply .invalidInCurrentState
  else { vsd with state := .tran }.prepareR1resp cmd reply 0 0

def command13 (vsd : Vsd) (cmd : Byte) (reply : Reply) (wasAcmd : Bool) : Answer :=
  if wasAcmd ∨ vsd.state ∉ [.stby, .tran, .data, .rcv, .prg, .dis] then
    vsd.rejectCmd cmd reply .invalidInCurrentState
  else vsd.prepareR1resp cmd reply 0 0

def command16 (vsd : Vsd) (cmd : Byte) (param : Word) (reply : Reply) (wasAcmd : Bool) : Answer :=
  if wasAcmd ∨ vsd.state ≠ .tran then vsd.rejectCmd cmd reply .invalidInCurrentState
  else if param ≠ 512 then vsd.rejectCmd cmd reply .unacceptableParam
  else vsd.prepareR1resp cmd reply 0 0

def command23 (vsd : Vsd) (cmd : Byte) (param : Word) (reply : Reply) (wasAcmd : Bool) : Answer :=
  if vsd.state ≠ .tran then vsd.rejectCmd cmd reply .invalidInCurrentState
  else if wasAcmd then vsd.prepareR1resp cmd reply 0 0
  else { vsd with
    haveExpectedNumBlocks := param ≠ 0
    numBlocksExpected := param }.prepareR1resp cmd reply 0 0

/-- The operating conditions of the card, with the flags in the upper byte. -/
def ocr (vsd : Vsd) (reply : Reply) (flags : Byte) : Answer :=
  { replTyp := .bits48
    reply := (((((reply.set 0 0x3f).set 1 flags).set 2 0xff).set 3 0x80).set 4 0x00).set 5 0xff
    needsCrc := false
    vsd := vsd }

def command41 (vsd : Vsd) (cmd : Byte) (param : Word) (reply : Reply) (wasAcmd : Bool) : Answer :=
  if ¬ wasAcmd then vsd.rejectCmd cmd reply .unknownCommand
  else if vsd.state ≠ .idle then vsd.rejectCmd cmd reply .invalidInCurrentState
  else
    let conditions := { vsd with reportAcmdNext := true }.ocr reply 0x00
    let reject : Answer :=
      { conditions.vsd.rejectCmd cmd conditions.reply .unacceptableParam with needsCrc := false }
    if param &&& 0x00ffffff = 0 then
      if vsd.prevAcmd41Param ≠ 0 then reject else conditions
    else if vsd.prevAcmd41Param ≠ 0 ∧ vsd.prevAcmd41Param ≠ param then reject
    else
      let vsd := { vsd with reportAcmdNext := true, prevAcmd41Param := param }
      if vsd.initWaitLeft ≠ 0 then
        { vsd with initWaitLeft := vsd.initWaitLeft - 1 }.ocr reply 0x00
      else if param &&& 0x40000000 = 0 ∧ vsd.hcCard then vsd.ocr reply 0x00
      else { vsd with state := .ready }.ocr reply (if vsd.hcCard then 0xc0 else 0x80)

def scr (hcCard : Bool) : List Byte := [if hcCard then 0x02 else 0x01, 0x05, 0x00, 0x03, 0, 0, 0, 0]

def command51 (vsd : Vsd) (cmd : Byte) (reply : Reply) (wasAcmd : Bool) : Answer :=
  if ¬ wasAcmd then vsd.rejectCmd cmd reply .unknownCommand
  else if vsd.state ≠ .tran then vsd.rejectCmd cmd reply .invalidInCurrentState
  else { vsd with
    curBuf := fun i => (scr vsd.hcCard).getD i.val (vsd.curBuf i)
    bufIsData := false
    curBufLen := 8
    state := .data }.prepareR1resp cmd reply 0 0

def command55 (vsd : Vsd) (cmd : Byte) (param : Word) (reply : Reply) : Answer :=
  if vsd.state = .ready ∨ vsd.state = .ident then vsd.rejectCmd cmd reply .invalidInCurrentState
  else if param >>> 16 ≠ vsd.rca.setWidth 32 then vsd.rejectCmd cmd reply .unacceptableParam
  else { vsd with acmdShift := true }.prepareR1resp cmd reply 0 0

/-- The `switch` of `vsdCommand`. -/
def commandSwitch (vsd : Vsd) (cmd : Byte) (param : Word) (reply : Reply) (wasAcmd : Bool) :
    Except Fault Answer :=
  match cmd.toNat with
  | 0 => .ok (vsd.cardReset.noReply reply)
  | 2 => .ok (if vsd.state ≠ .ready then vsd.rejectCmd cmd reply .invalidInCurrentState
      else { vsd with state := .ident }.reply136 reply (cmd :: cid))
  | 3 => .ok (vsd.command3 cmd reply)
  | 6 => vsd.command6 cmd reply wasAcmd
  | 7 => .ok (vsd.command7 cmd param reply)
  | 8 => .ok (vsd.command8 cmd param reply)
  | 9 => .ok (if vsd.state ≠ .stby then vsd.rejectCmd cmd reply .invalidInCurrentState
      else vsd.reply136 reply (cmd :: if vsd.hcCard then vsd.getCsdV2 else vsd.getCsdV1))
  | 10 => .ok (if vsd.state ≠ .stby then vsd.rejectCmd cmd reply .invalidInCurrentState
      else vsd.reply136 reply (cmd :: cid))
  | 12 => .ok (vsd.command12 cmd reply)
  | 13 => .ok (vsd.command13 cmd reply wasAcmd)
  | 16 => .ok (vsd.command16 cmd param reply wasAcmd)
  | 17 => .ok ({ vsd with haveExpectedNumBlocks := false }.startData cmd param reply wasAcmd .data
      false)
  | 18 => .ok (vsd.startData cmd param reply wasAcmd .data true)
  | 23 => .ok (vsd.command23 cmd param reply wasAcmd)
  | 24 => .ok ({ vsd with haveExpectedNumBlocks := false }.startData cmd param reply wasAcmd .rcv
      false)
  | 25 => .ok (vsd.startData cmd param reply wasAcmd .rcv true)
  | 41 => .ok (vsd.command41 cmd param reply wasAcmd)
  | 51 => .ok (vsd.command51 cmd reply wasAcmd)
  | 55 => .ok (vsd.command55 cmd param reply)
  | _ => .ok (vsd.rejectCmd cmd reply .unknownCommand)

end Vsd

/-- The checksum behind the reply. -/
def Answer.withCrc (answer : Answer) : Reply :=
  if answer.needsCrc then
    match answer.replTyp with
    | .bits48 | .bits48AndBusy => answer.reply.set 5 (vsdCRC7 answer.reply 5)
    | .bits136 => answer.reply.set 16 (vsdCRC7 answer.reply 16)
    | .none => answer.reply
  else answer.reply

namespace Vsd

def vsdCommand (vsd : Vsd) (cmd : Byte) (param : Word) (reply : Reply) :
    Except Fault (SdReplyType × Reply × Vsd) := do
  let answer ← { vsd with acmdShift := false }.commandSwitch cmd param (reply.set 0 cmd)
    vsd.acmdShift
  return (answer.replTyp, answer.withCrc, answer.vsd)

/-- The state after a block of data: the next sector, or the end of the transfer. -/
def nextBlock (vsd : Vsd) : Vsd :=
  let numBlocksExpected :=
    if vsd.haveExpectedNumBlocks then vsd.numBlocksExpected - 1 else vsd.numBlocksExpected
  let bufContinuous :=
    if vsd.haveExpectedNumBlocks ∧ numBlocksExpected = 0 then false else vsd.bufContinuous
  { vsd with
    numBlocksExpected := numBlocksExpected
    bufContinuous := bufContinuous
    curSec := if bufContinuous then vsd.curSec + 1 else vsd.curSec
    state := if bufContinuous then vsd.state else .tran }

def dataXferBlockToCard (vsd : Vsd) (card : SdCard) (data : Block) (blockSz : ℕ) :
    SdDataReplyType × Vsd × SdCard :=
  if vsd.state ≠ .rcv then (.errWrongCurrentState, vsd, card)
  else if blockSz ≠ vsd.curBufLen then (.errWrongBlockSize, vsd, card)
  else if ¬ vsd.bufIsData then (.errWrongCurrentState, vsd, card)
  else match card.sdCardWrite vsd.curSec data with
    | none => (.errBackingStore, vsd, card)
    | some card => (.ok, vsd.nextBlock, card)

/-- `vsdDataXferBlockFromCard`, with the bytes it writes to the buffer of the caller. -/
def dataXferBlockFromCard (vsd : Vsd) (card : SdCard) (blockSz : ℕ) :
    SdDataReplyType × List Byte × Vsd :=
  if vsd.state ≠ .data then (.errWrongCurrentState, [], vsd)
  else if blockSz ≠ vsd.curBufLen then (.errWrongBlockSize, [], vsd)
  else if vsd.bufIsData then
    match card.sdCardRead vsd.curSec with
    | none => (.errBackingStore, [], vsd)
    | some block => (.ok, List.ofFn block, vsd.nextBlock)
  else (.ok, (List.ofFn vsd.curBuf).take blockSz, { vsd with state := .tran })

end Vsd

end Cloudpilot.Uarm.Mmc
