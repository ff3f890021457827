import Cloudpilot.Uarm.Mmc.Vsd

/-! # The MMC controller

One FIFO serves both directions. Every access to the FIFO and to the response buffers
is checked here, as is every call of the card; where the controller would go astray the
access has no result but a fault.
-/
namespace Cloudpilot.Uarm.Mmc
open Cpu

/-- The status register, the interrupt register and the lines that follow them. -/
structure Status where
  stat : BitVec 16
  iReg : Byte
  irq : Bool
  dmaRx : Bool
  dmaTx : Bool

structure PxaMmc where
  arg : Word
  status : Status
  readTo : BitVec 16
  blkLen : BitVec 16
  numBlks : BitVec 16
  spi : Byte
  iMask : Byte
  cmdat : Byte
  clockSpeed : Byte
  resTo : Byte
  cmdReg : Byte
  respBuf : Vector (BitVec 16) 8
  clockOn : Bool
  cmdQueued : Bool
  dataXferOngoing : Bool
  vsd : Bool
  fifoBytes : ℕ
  fifoOfst : ℕ
  blockFifo : ℕ → Byte

/-- The controller, the card it may point to, and the image behind the card. -/
structure Machine where
  mmc : PxaMmc
  vsd : Vsd
  card : SdCard

namespace Status

def irqUpdate (status : Status) (iMask cmdat : Byte) : Status :=
  let irqs : Byte := status.iReg &&& ~~~iMask
  let irqs : Byte := if cmdat &&& 0x80 ≠ 0 then irqs &&& ~~~0x60 else irqs
  { status with irq := irqs ≠ 0 }

/-- `pxaMmcPrvRecalcIregAndFifo` with the conditions for a request of either direction. -/
def recalc (status : Status) (iMask cmdat : Byte) (tx rx : Bool) : Status :=
  let iReg : Byte :=
    if status.stat &&& 0x100 ≠ 0 then status.iReg &&& ~~~0x10 else status.iReg ||| 0x10
  let iReg : Byte := (iReg &&& ~~~(7 : Byte)) ||| ((status.stat >>> 11) &&& 7).setWidth 8
  let stat := if tx then status.stat ||| 0x40 else status.stat
  let iReg := if tx then iReg ||| 0x40 else iReg
  let stat := if rx then stat ||| 0x80 else stat
  let iReg := if rx then iReg ||| 0x20 else iReg
  let dma : Bool := cmdat &&& 0x80 ≠ 0
  { stat := stat
    iReg := iReg
    irq := status.irq
    dmaRx := if dma then iReg &&& 0x20 ≠ 0 else status.dmaRx
    dmaTx := if dma then iReg &&& 0x40 ≠ 0 else status.dmaTx : Status }.irqUpdate iMask cmdat

def setStat (status : Status) (bits : BitVec 16) : Status :=
  { status with stat := status.stat ||| bits }

end Status

namespace PxaMmc

def reading (mmc : PxaMmc) : Bool := mmc.cmdat &&& 4 ≠ 0 ∧ mmc.cmdat &&& 8 = 0
def writing (mmc : PxaMmc) : Bool := mmc.cmdat &&& 4 ≠ 0 ∧ mmc.cmdat &&& 8 ≠ 0

def irqUpdate (mmc : PxaMmc) : PxaMmc :=
  { mmc with status := mmc.status.irqUpdate mmc.iMask mmc.cmdat }

def recalc (mmc : PxaMmc) : PxaMmc :=
  let tx : Bool := mmc.writing ∧ mmc.numBlks ≠ 0
  let rx : Bool := mmc.reading ∧ (mmc.numBlks ≠ 0 ∨ mmc.fifoBytes ≠ 0)
  { mmc with status := mmc.status.recalc mmc.iMask mmc.cmdat tx rx }

def setStat (mmc : PxaMmc) (bits : BitVec 16) : PxaMmc :=
  { mmc with status := mmc.status.setStat bits }

/-- `pxaMmcInit`. -/
def init : PxaMmc :=
  recalc {
    arg := 0
    status := ⟨0x40, 0, false, false, false⟩
    readTo := 0
    blkLen := 0
    numBlks := 0
    spi := 0
    iMask := 0x7f
    cmdat := 0x80
    clockSpeed := 0
    resTo := 0x40
    cmdReg := 0x40
    respBuf := Vector.replicate 8 0
    clockOn := false
    cmdQueued := false
    dataXferOngoing := false
    vsd := false
    fifoBytes := 0
    fifoOfst := 0
    blockFifo := fun _ => 0 }

end PxaMmc

def fillFifo (blockFifo : ℕ → Byte) (bytes : List Byte) : Except Fault (ℕ → Byte) :=
  if bytes.length ≤ 1024 then .ok fun i => bytes.getD i (blockFifo i) else .error .fifo

def fifoBlock (blockFifo : ℕ → Byte) : Block := fun i => blockFifo i

namespace Machine

def modify (m : Machine) (f : PxaMmc → PxaMmc) : Machine := { m with mmc := f m.mmc }

/-- `pxaMmcPrvDataXferNextBlockRead`. -/
def nextBlockRead (m : Machine) : Except Fault Machine :=
  if ¬ m.mmc.dataXferOngoing then .ok m
  else if ¬ m.mmc.vsd then .error .noCard
  else
    let (ret, bytes, vsd) := m.vsd.dataXferBlockFromCard m.card m.mmc.blkLen.toNat
    (fillFifo m.mmc.blockFifo bytes).map fun blockFifo =>
      let m := { m with mmc := { m.mmc with blockFifo := blockFifo }, vsd := vsd }
      match ret with
      | .errWrongBlockSize => m.modify fun mmc => mmc.setStat 0x0008
      | .errWrongCurrentState | .errBackingStore => m.modify fun mmc => mmc.setStat 0x0001
      | .ok => m.modify fun mmc => { mmc with
          fifoBytes := mmc.blkLen.toNat
          fifoOfst := 0
          numBlks := mmc.numBlks - 1 }

/-- The part of `pxaMmcPrvDataXferStart` behind the flag. -/
def startBlock (m : Machine) : Except Fault Machine :=
  if m.mmc.blkLen = 0 ∨ m.mmc.numBlks = 0 then .ok m
  else if m.mmc.cmdat &&& 8 ≠ 0 then .ok (m.modify fun mmc => { mmc with fifoBytes := 0 })
  else m.nextBlockRead

/-- `pxaMmcPrvDataXferStart`. -/
def dataXferStart (m : Machine) : Except Fault Machine :=
  (m.modify fun mmc => { mmc with dataXferOngoing := true }).startBlock

/-- The end of a block in `pxaMmcPrvDataFifoW`. -/
def blockToCard (m : Machine) : Except Fault Machine :=
  if ¬ m.mmc.vsd then .error .noCard
  else
    let (ret, vsd, card) := m.vsd.dataXferBlockToCard m.card (fifoBlock m.mmc.blockFifo)
      m.mmc.blkLen.toNat
    .ok <| Machine.modify ⟨m.mmc, vsd, card⟩ fun mmc =>
      if ret ≠ .ok then mmc.setStat 0x0004
      else if mmc.numBlks - 1 = 0 then
        { mmc.setStat 0x1800 with fifoBytes := 0, numBlks := 0, dataXferOngoing := false }
      else { mmc with fifoBytes := 0, numBlks := mmc.numBlks - 1 }

/-- What follows a byte in `pxaMmcPrvDataFifoW`. -/
def filled (m : Machine) : Except Fault (Bool × Machine) :=
  if m.mmc.fifoBytes ≠ m.mmc.blkLen.toNat then .ok (true, m.modify PxaMmc.recalc)
  else if ¬ m.mmc.dataXferOngoing then .ok (false, m)
  else m.blockToCard.map fun m => (true, m.modify PxaMmc.recalc)

/-- `pxaMmcPrvDataFifoW`. -/
def dataFifoW (m : Machine) (val : Word) : Except Fault (Bool × Machine) :=
  if m.mmc.fifoBytes ≥ m.mmc.blkLen.toNat then .ok (false, m)
  else if m.mmc.fifoBytes ≥ 1024 then .error .fifo
  else filled <| m.modify fun mmc => { mmc with
    blockFifo := Function.update mmc.blockFifo mmc.fifoBytes (val.setWidth 8)
    fifoBytes := mmc.fifoBytes + 1 }

/-- What follows a byte in `pxaMmcPrvDataFifoR`. -/
def emptied (m : Machine) : Except Fault Machine :=
  if m.mmc.fifoBytes ≠ 0 then .ok m
  else if m.mmc.numBlks ≠ 0 then m.nextBlockRead
  else .ok (m.modify fun mmc => { mmc.setStat 0x0800 with dataXferOngoing := false })

/-- `pxaMmcPrvDataFifoR`. -/
def dataFifoR (m : Machine) : Except Fault (Option Byte × Machine) :=
  if m.mmc.fifoBytes = 0 then .ok (none, m)
  else if m.mmc.fifoOfst ≥ 1024 then .error .fifo
  else
    (emptied <| m.modify fun mmc => { mmc with
      fifoOfst := mmc.fifoOfst + 1
      fifoBytes := mmc.fifoBytes - 1 }).map fun m' =>
        (some (m.mmc.blockFifo m.mmc.fifoOfst), m'.modify PxaMmc.recalc)

end Machine

/-- The length of a reply, whether it is of the expected kind and whether its checksum counts. -/
def expectedReply (cmdat : Byte) : SdReplyType → ℕ × Bool × Bool
  | .none => (0, cmdat &&& 3 = 0, true)
  | .bits48 | .bits48AndBusy => (5, cmdat &&& 1 ≠ 0, cmdat &&& 1 = 0 ∨ cmdat &&& 2 = 0)
  | .bits136 => (16, cmdat &&& 3 = 2, true)

/-- The comparison of the checksum with the byte behind the reply. -/
def crcFails (reply : Reply) (len : ℕ) : Except Fault Bool :=
  match reply[len]? with
  | some crc => .ok (vsdCRC7 reply len ≠ crc)
  | none => .error .response

def responseWord (reply : Reply) (respBuf : Vector (BitVec 16) 8) (i : ℕ) :
    Except Fault (Vector (BitVec 16) 8) :=
  match reply[2 * i]?, reply[2 * i + 1]? with
  | some high, some low =>
    if h : i < 8 then .ok (respBuf.set i ((high.setWidth 16 <<< 8) + low.setWidth 16))
    else .error .response
  | _, _ => .error .response

def storeResponse (reply : Reply) (len : ℕ) (respBuf : Vector (BitVec 16) 8) :
    Except Fault (Vector (BitVec 16) 8) :=
  if h : len < 17 then
    (List.range ((len + 1) / 2)).foldlM (responseWord (reply.set len 0)) respBuf
  else .error .response

namespace Machine

/-- The call of the card in `mmcSendCommand`; without a card there is no reply. -/
def callCard (m : Machine) : Except Fault (SdReplyType × Reply × Machine) :=
  if m.mmc.vsd then
    (m.vsd.vsdCommand (m.mmc.cmdReg &&& 0x3f) m.mmc.arg (Vector.replicate 17 0)).map
      fun (ret, reply, vsd) => (ret, reply, { m with vsd := vsd })
  else .ok (.none, Vector.replicate 17 0, m)

/-- The reply in `mmcSendCommand`: whether it was the expected one, and what is kept of it. -/
def takeReply (m : Machine) (ret : SdReplyType) (reply : Reply) : Except Fault (Bool × Machine) := do
  let (len, success, doCrcCheck) := expectedReply m.mmc.cmdat ret
  let crcFail ← (if success ∧ len ≠ 0 ∧ doCrcCheck then crcFails reply len else .ok false :
    Except Fault Bool)
  let bits : BitVec 16 := if crcFail then 0x2020 else 0x2000
  if success then
    let respBuf ← storeResponse reply len m.mmc.respBuf
    return (true, m.modify fun mmc => { mmc.setStat bits with respBuf := respBuf })
  else return (false, m.modify fun mmc => mmc.setStat (bits ||| 0x0002))

/-- The transfer and the end of `mmcSendCommand`. -/
def finishCommand (m : Machine) (success : Bool) : Except Fault Machine := do
  let m ← (if success ∧ m.mmc.cmdat &&& 4 ≠ 0 then m.dataXferStart else .ok m : Except Fault Machine)
  let m := if ¬ success ∨ ¬ m.mmc.writing then m.modify fun mmc => mmc.setStat 0x1000 else m
  return m.modify PxaMmc.recalc

/-- `mmcSendCommand`. -/
def sendCommand (m : Machine) : Except Fault Machine := do
  let (ret, reply, m) ← (m.modify fun mmc => { mmc with cmdQueued := false }).callCard
  let (success, m) ← m.takeReply ret reply
  m.finishCommand success

end Machine

/-- The outcome of a memory access. -/
structure BusAccess where
  ok : Bool
  val : Word
  machine : Machine

namespace Machine

def accept (m : Machine) (val : Word) : Except Fault BusAccess := .ok ⟨true, val, m⟩
def refuse (m : Machine) : Except Fault BusAccess := .ok ⟨false, 0, m⟩

def writeClock (m : Machine) (val : Word) : Except Fault BusAccess := do
  match (val &&& 3).toNat with
  | 0 => (m.modify PxaMmc.irqUpdate).accept 0
  | 1 =>
    let m := m.modify fun mmc => PxaMmc.recalc { mmc with
      clockOn := false
      status := { mmc.status with stat := mmc.status.stat &&& ~~~0x100 } }
    (m.modify PxaMmc.irqUpdate).accept 0
  | 2 =>
    let m := m.modify fun mmc => PxaMmc.recalc { mmc.setStat 0x100 with clockOn := true }
    let m ← (if m.mmc.cmdQueued then m.sendCommand else .ok m : Except Fault Machine)
    (m.modify PxaMmc.irqUpdate).accept 0
  | _ => (m.modify PxaMmc.irqUpdate).refuse

def writeCmdat (m : Machine) (val : Word) : Except Fault BusAccess := do
  let m := m.modify fun mmc => PxaMmc.recalc { mmc with
    cmdat := val.setWidth 8
    status := { mmc.status with stat := (mmc.status.stat &&& 0x100) ||| 0x40 } }
  let m ← (if m.mmc.clockOn then m.sendCommand
    else .ok (m.modify fun mmc => { mmc with cmdQueued := true }) : Except Fault Machine)
  m.accept 0

def writeRegister (m : Machine) (reg : ℕ) (val : Word) : Except Fault BusAccess :=
  match reg with
  | 0 => m.writeClock val
  | 1 => m.accept val
  | 2 => if val &&& 7 = 7 then m.refuse
      else (m.modify fun mmc => { mmc with clockSpeed := (val &&& 7).setWidth 8 }).accept val
  | 3 => (m.modify fun mmc => { mmc with spi := (val &&& 0x0f).setWidth 8 }).accept val
  | 4 => m.writeCmdat val
  | 5 => (m.modify fun mmc => { mmc with resTo := (val &&& 0x7f).setWidth 8 }).accept val
  | 6 => (m.modify fun mmc => { mmc with readTo := val.setWidth 16 }).accept val
  | 7 => (m.modify fun mmc => { mmc with blkLen := (val &&& 0x3ff).setWidth 16 }).accept val
  | 8 => (m.modify fun mmc => { mmc with numBlks := val.setWidth 16 }).accept val
  | 10 => (m.modify fun mmc =>
      PxaMmc.irqUpdate { mmc with iMask := (val &&& 0x7f).setWidth 8 }).accept val
  | 11 => m.accept val
  | 12 => (m.modify fun mmc =>
      { mmc with cmdReg := 0x40 ||| (val &&& 0x3f).setWidth 8 }).accept val
  | 13 => (m.modify fun mmc =>
      { mmc with arg := (mmc.arg &&& 0x0000ffff#32) ||| val <<< 16 }).accept val
  | 14 => (m.modify fun mmc =>
      { mmc with arg := (mmc.arg &&& 0xffff0000#32) ||| (val &&& 0xffff#32) }).accept val
  | 17 => (m.dataFifoW val).map fun (ok, m) => ⟨ok, val, m⟩
  | _ => m.refuse

def shiftResponse (respBuf : Vector (BitVec 16) 8) : Vector (BitVec 16) 8 :=
  Vector.ofFn fun i => respBuf.getD (if i.val < 7 then i.val + 1 else i.val) 0

def readRegister (m : Machine) (reg : ℕ) : Except Fault BusAccess :=
  match reg with
  | 1 => m.accept (m.mmc.status.stat.setWidth 32)
  | 2 => m.accept (m.mmc.clockSpeed.setWidth 32)
  | 3 => m.accept (m.mmc.spi.setWidth 32)
  | 4 => m.accept (m.mmc.cmdat.setWidth 32)
  | 5 => m.accept (m.mmc.resTo.setWidth 32)
  | 6 => m.accept (m.mmc.readTo.setWidth 32)
  | 7 => m.accept (m.mmc.blkLen.setWidth 32)
  | 8 => m.accept (m.mmc.numBlks.setWidth 32)
  | 10 => m.accept (m.mmc.iMask.setWidth 32)
  | 11 =>
    let val := m.mmc.status.iReg
    (m.modify fun mmc => PxaMmc.recalc { mmc with
      status := { mmc.status with iReg := mmc.status.iReg &&& ~~~0x60 } }).accept (val.setWidth 32)
  | 12 => m.accept (m.mmc.cmdReg.setWidth 32)
  | 13 => m.accept (m.mmc.arg >>> 16)
  | 14 => m.accept (m.mmc.arg &&& 0xffff)
  | 15 =>
    let val := m.mmc.respBuf[0]
    (m.modify fun mmc => { mmc with respBuf := shiftResponse mmc.respBuf }).accept
      (val.setWidth 32)
  | 16 => m.dataFifoR.map fun (val, m) => ⟨val.isSome, (val.getD 0).setWidth 32, m⟩
  | _ => m.refuse

/-- `pxaMmcPrvMemAccessF`. -/
def memAccessF (m : Machine) (pa : Word) (size : ℕ) (write : Bool) (buf : Word) :
    Except Fault BusAccess :=
  if size ≠ 4 then m.refuse
  else
    let reg := ((pa - 0x41100000) >>> 2).toNat
    if write then m.writeRegister reg buf else m.readRegister reg

/-- `socSdInsert`. -/
def socSdInsert (m : Machine) : Machine :=
  if ¬ m.card.initialized then m
  else
    { m with
      vsd := m.vsd.vsdReset (BitVec.ofNat 32 m.card.sectorsTotal)
      mmc := { m.mmc with vsd := true } }

/-- `socSdEject`. -/
def socSdEject (m : Machine) : Machine :=
  { m with vsd := m.vsd.vsdReset 0, mmc := { m.mmc with vsd := false } }

/-- After `socInit`, without an image. -/
def init : Machine := ⟨.init, .init, .empty⟩

end Machine

end Cloudpilot.Uarm.Mmc
