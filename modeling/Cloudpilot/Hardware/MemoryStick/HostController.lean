import Cloudpilot.Hardware.MemoryStick.Model

/-! # The memory stick host controller

The registers through which the guest drives the stick. A command word starts a transfer;
data words go through the write buffer or come from the stick's output buffer, and words
that arrive before a command wait in a small FIFO.
-/
namespace Cloudpilot.Hardware.Stick
open Cloudpilot.Library Cloudpilot.Common

structure Fifo where
  buffer : ℕ → BitVec 16
  start : ℕ
  size : ℕ

/-- `Fifo<uint16> fifo{4}`. -/
def fifoCapacity : ℕ := 4

def Fifo.push (fifo : Fifo) (value : BitVec 16) : Fifo :=
  let buffer := Function.update fifo.buffer ((fifo.start + fifo.size) % fifoCapacity) value
  if fifo.size < fifoCapacity then { fifo with buffer := buffer, size := fifo.size + 1 }
  else { fifo with buffer := buffer, start := (fifo.start + 1) % fifoCapacity }

def Fifo.pop (fifo : Fifo) : BitVec 16 × Fifo :=
  if fifo.size = 0 then (0#16, fifo)
  else
    (fifo.buffer fifo.start,
      { fifo with start := (fifo.start + 1) % fifoCapacity, size := fifo.size - 1 })

def Fifo.clear (fifo : Fifo) : Fifo :=
  { fifo with start := 0, size := 0 }

inductive HostState
  | idle
  | tpcWrite
  | tpcRead
  deriving DecidableEq, Repr

structure HostController where
  mscmd : BitVec 16
  mscs : BitVec 16
  msics : BitVec 16
  msppcd : BitVec 16
  irqStat : Byte
  memoryStick : MemoryStick
  state : HostState
  fifo : Fifo
  writeBuffer : ℕ → Byte
  writeBufferSize : ℕ
  readBufferIndex : ℕ

/-- What must not happen: a store behind the write buffer, a read behind the stick's output
buffer, the failed assertion of `FinishReadTpc`, and a mount that fails. -/
inductive Fault
  | writeBuffer
  | dataOut
  | finishReadTpc
  | mount
  deriving DecidableEq, Repr

def mscsInt : BitVec 16 := 0x8000#16
def mscsRst : BitVec 16 := 0x0080#16
def mscsDrq : BitVec 16 := 0x4000#16
def mscsRbe : BitVec 16 := 0x0800#16
def mscsRbf : BitVec 16 := 0x0400#16
def irqRdy : Byte := 0x80#8
def irqSif : Byte := 0x40#8
def irqPin : Byte := 0x10#8
def msicsInten : BitVec 16 := 0x0080#16
def dataSizeMask : BitVec 16 := 0x03ff#16
def sizeofWriteBuffer : ℕ := 512

def updateIrqLine (h : HostController) : HostController :=
  if h.msics &&& msicsInten = 0#16 then h
  else if h.irqStat ≠ 0#8 then { h with mscs := h.mscs ||| mscsInt }
  else { h with mscs := h.mscs &&& ~~~mscsInt }

def shiftedFlags (bits : Byte) : BitVec 16 := bits.setWidth 16 <<< 8

def transferIrqFlags (h : HostController) (bits : Byte) : HostController :=
  { h with msics := h.msics ||| shiftedFlags bits }

def clearIrqFlags (h : HostController) (bits : Byte) : HostController :=
  { h with msics := h.msics &&& ~~~shiftedFlags bits }

def raiseIrq (h : HostController) (bits : Byte) : HostController :=
  transferIrqFlags (updateIrqLine { h with irqStat := h.irqStat ||| bits }) bits

def negateIrq (h : HostController) (bits : Byte) : HostController :=
  updateIrqLine { h with irqStat := h.irqStat &&& ~~~bits }

/-- The stick after an operation. Its interrupts are handled as they are raised. -/
def deliver (h : HostController) (memoryStick : MemoryStick) : HostController :=
  (fun h => raiseIrq h irqSif)^[memoryStick.irqs]
    { h with memoryStick := { memoryStick with irqs := 0 } }

inductive TpcType
  | read
  | write
  deriving DecidableEq, Repr

def getTpcType (tpcId : Byte) : TpcType :=
  match decodeTpc tpcId with
  | .setRegsWindow | .regsWrite | .setCmd | .writeLongData => .write
  | _ => .read

/-- `reg.mscmd >> 12`. -/
def tpcId (h : HostController) : Byte := (h.mscmd >>> 12).setWidth 8

def getTransferSize (h : HostController) : ℕ :=
  let transferSize := (h.mscmd &&& dataSizeMask).toNat
  if transferSize > 512 then 512 else transferSize

def setState (h : HostController) (state : HostState) : HostController :=
  let h := if state ≠ h.state ∧ state = .idle then raiseIrq h irqRdy else h
  { h with state := state }

def endTransfer (h : HostController) : HostController :=
  setState { h with fifo := h.fifo.clear } .idle

def finishTpc (h : HostController) : Except Fault HostController :=
  if h.state = .tpcWrite then
    .ok (endTransfer (deliver h
      (executeTpc h.memoryStick (tpcId h) (getTransferSize h) h.writeBuffer)))
  else
    match finishReadTpc h.memoryStick with
    | none => .error .finishReadTpc
    | some memoryStick => .ok (endTransfer (deliver h memoryStick))

def appendByte (h : HostController) (data : Byte) : HostController :=
  { h with
    writeBuffer := Function.update h.writeBuffer h.writeBufferSize data
    writeBufferSize := h.writeBufferSize + 1 }

/-- `writeBuffer[writeBufferSize++] = data`. -/
def storeByte (h : HostController) (data : Byte) : Except Fault HostController :=
  if h.writeBufferSize < sizeofWriteBuffer then .ok (appendByte h data) else .error .writeBuffer

def transferWord (h : HostController) (data : BitVec 16) : Except Fault HostController := do
  let h ← storeByte h ((data >>> 8).setWidth 8)
  if h.writeBufferSize ≥ getTransferSize h then finishTpc h
  else
    let h ← storeByte h (data.setWidth 8)
    if h.writeBufferSize ≥ getTransferSize h then finishTpc h else .ok h

def fifoWrite (h : HostController) (data : BitVec 16) : Except Fault HostController :=
  if h.state ≠ .idle then transferWord h data
  else if h.fifo.size = 8 then .ok h
  else .ok { h with fifo := h.fifo.push data }

/-- The loop of `BeginTpc`. Every round takes a word from the FIFO. -/
def drainFifo : ℕ → HostController → Except Fault HostController
  | 0, h => .ok h
  | rounds + 1, h =>
    if h.fifo.size > 0 ∧ h.state ≠ .idle then do
      let h ← fifoWrite { h with fifo := h.fifo.pop.2 } h.fifo.pop.1
      drainFifo rounds h
    else .ok h

def beginWrite (h : HostController) : Except Fault HostController :=
  if getTransferSize h = 0 then finishTpc h else drainFifo h.fifo.size h

/-- Read commands get no data. -/
def beginRead (h : HostController) : HostController :=
  deliver h (executeTpc h.memoryStick (tpcId h) 0 fun _ => 0#8)

def startTransfer (h : HostController) (state : HostState) : HostController :=
  { setState h state with writeBufferSize := 0, readBufferIndex := 0 }

def hostBeginTpc (h : HostController) : Except Fault HostController :=
  match getTpcType (tpcId h) with
  | .read => .ok (beginRead (startTransfer h .tpcRead))
  | .write => beginWrite (startTransfer h .tpcWrite)

/-- Accesses of 1, 2 and 4 bytes. -/
inductive Size
  | byte
  | word
  | long
  deriving DecidableEq, Repr

/-- `atBase` says that the access is to the first of the two bytes of the register. -/
def compositeRegisterRead (atBase : Bool) (size : Size) (target : BitVec 16) : BitVec 32 :=
  match size with
  | .byte => if atBase then (target >>> 8).setWidth 32 else (target &&& 0x00ff#16).setWidth 32
  | .word => target.setWidth 32
  | .long => 0#32

def compositeRegisterWrite (atBase : Bool) (size : Size) (value : BitVec 32) (target : BitVec 16) :
    BitVec 16 :=
  match size with
  | .byte =>
    if atBase then (target &&& 0x00ff#16) ||| (value.setWidth 16 <<< 8)
    else (target &&& 0xff00#16) ||| (value.setWidth 16 &&& 0x00ff#16)
  | .word => value.setWidth 16
  | .long => target

def mscmdRead (h : HostController) (size : Size) : BitVec 32 :=
  if size ≠ .word then 0#32 else h.mscmd.setWidth 32

/-- `GetDataOutSize() - readBufferIndex`, unsigned. -/
def dataLeft (h : HostController) : BitVec 32 :=
  BitVec.ofNat 32 h.memoryStick.bufferOutSize - BitVec.ofNat 32 h.readBufferIndex

def mscsValue (h : HostController) : BitVec 16 :=
  let value := h.mscs &&& 0xf0ff#16
  let value := if h.state = .tpcRead ∧ dataLeft h ≥ 4#32 then value ||| mscsRbf else value
  let value := if h.state ≠ .tpcRead ∨ dataLeft h = 0#32 then value ||| mscsRbe else value
  if h.state ≠ .idle then value ||| mscsDrq else value

def mscsRead (h : HostController) (atBase : Bool) (size : Size) : BitVec 32 :=
  compositeRegisterRead atBase size (mscsValue h)

/-- `buffer[i]`, for an `i` inside the output buffer and inside the object it is part of. -/
def fetchByte (s : MemoryStick) (i : ℕ) : Except Fault Byte :=
  if i < s.bufferOutSize then
    match s.bufferOut with
    | .null => .error .dataOut
    | .reg offset => if offset + i < sizeofRegisters then .ok (s.reg (offset + i)) else .error .dataOut
    | .preparedPage => if i < 512 then .ok (s.preparedPage i) else .error .dataOut
  else .error .dataOut

/-- `if (readBufferIndex < bufferSize) … buffer[readBufferIndex++]`. -/
def nextByte (h : HostController) : Except Fault (Byte × HostController) :=
  if h.readBufferIndex < h.memoryStick.bufferOutSize then do
    let byte ← fetchByte h.memoryStick h.readBufferIndex
    .ok (byte, { h with readBufferIndex := h.readBufferIndex + 1 })
  else .ok (0#8, h)

def nextWord (h : HostController) : Except Fault (BitVec 32 × HostController) :=
  if h.memoryStick.bufferOut = .null then
    .ok (0#32, { h with readBufferIndex := h.readBufferIndex + 2 })
  else do
    let (high, h) ← nextByte h
    let (low, h) ← nextByte h
    .ok (high.setWidth 32 <<< 8 ||| low.setWidth 32, h)

def msdataRead (h : HostController) (size : Size) : Except Fault (BitVec 32 × HostController) :=
  if size ≠ .word then .ok (0#32, h)
  else if h.state = .tpcRead then do
    let (value, h) ← nextWord h
    if h.readBufferIndex ≥ min (getTransferSize h) h.memoryStick.bufferOutSize then
      let h ← finishTpc h
      .ok (value, h)
    else .ok (value, h)
  else .ok (0#32, h)

def msicsRead (h : HostController) (atBase : Bool) (size : Size) : BitVec 32 × HostController :=
  (compositeRegisterRead atBase size h.msics, negateIrq h (irqSif ||| irqRdy ||| irqPin))

/-- `gpio` is what the handler for the pins returns. -/
def msppcdRead (h : HostController) (atBase : Bool) (size : Size) (gpio : Byte) :
    BitVec 32 × HostController :=
  let pins := (gpio &&& 0x03#8).setWidth 16 <<< 12
  (compositeRegisterRead atBase size ((h.msppcd &&& ~~~0x3000#16) ||| pins),
    clearIrqFlags h irqPin)

def mscmdWrite (h : HostController) (size : Size) (value : BitVec 32) :
    Except Fault HostController :=
  if h.state ≠ .idle then .ok h
  else if size ≠ .word then .ok h
  else hostBeginTpc { clearIrqFlags h (irqSif ||| irqRdy) with mscmd := value.setWidth 16 }

def resetHostController (h : HostController) : HostController :=
  { h with
    mscmd := 0#16
    mscs := 0x0a05#16
    msics := h.msics &&& msicsInten
    msppcd := 0#16
    state := .idle
    irqStat := 0#8
    memoryStick := reset h.memoryStick
    fifo := h.fifo.clear
    writeBufferSize := 0
    readBufferIndex := 0 }

def mscsWrite (h : HostController) (atBase : Bool) (size : Size) (value : BitVec 32) :
    HostController :=
  let written := compositeRegisterWrite atBase size value h.mscs
  let mscs := (written &&& 0x00ff#16) ||| (h.mscs &&& 0xff00#16)
  if ((h.mscs ^^^ mscs) &&& h.mscs) &&& mscsRst ≠ 0#16 then
    raiseIrq (resetHostController { h with mscs := mscs }) irqRdy
  else { h with mscs := mscs }

def msdataWrite (h : HostController) (size : Size) (value : BitVec 32) :
    Except Fault HostController :=
  if size ≠ .word then .ok h else fifoWrite h (value.setWidth 16)

def msicsWrite (h : HostController) (atBase : Bool) (size : Size) (value : BitVec 32) :
    HostController :=
  { h with msics := compositeRegisterWrite atBase size (value &&& 0x00ff#32) h.msics }

def msppcdWrite (h : HostController) (atBase : Bool) (size : Size) (value : BitVec 32) :
    HostController :=
  { h with msppcd := compositeRegisterWrite atBase size value h.msppcd }

inductive Register
  | mscmd
  | mscs
  | msdata
  | msics
  | msppcd
  | stub
  deriving DecidableEq, Repr

def registerRead (h : HostController) (register : Register) (atBase : Bool) (size : Size)
    (gpio : Byte) : Except Fault (BitVec 32 × HostController) :=
  match register with
  | .mscmd => .ok (mscmdRead h size, h)
  | .mscs => .ok (mscsRead h atBase size, h)
  | .msdata => msdataRead h size
  | .msics => .ok (msicsRead h atBase size)
  | .msppcd => .ok (msppcdRead h atBase size gpio)
  | .stub => .ok (0#32, h)

def registerWrite (h : HostController) (register : Register) (atBase : Bool) (size : Size)
    (value : BitVec 32) : Except Fault HostController :=
  match register with
  | .mscmd => mscmdWrite h size value
  | .mscs => .ok (mscsWrite h atBase size value)
  | .msdata => msdataWrite h size value
  | .msics => .ok (msicsWrite h atBase size value)
  | .msppcd => .ok (msppcdWrite h atBase size value)
  | .stub => .ok h

/-- `EmRegsMB86189::Reset`. -/
def hostReset (h : HostController) : HostController :=
  let h := resetHostController { h with msics := 0#16 }
  { h with memoryStick := reset h.memoryStick }

def hostMount (h : HostController) (cardImage : CardImage) : Except Fault HostController :=
  match mount h.memoryStick cardImage with
  | none => .error .mount
  | some memoryStick => .ok { h with memoryStick := memoryStick }

def hostUnmount (h : HostController) : HostController :=
  { h with memoryStick := unmount h.memoryStick }

/-- What reaches the controller: accesses of the guest and calls of the emulator. -/
inductive Access
  | read (register : Register) (atBase : Bool) (size : Size) (gpio : Byte)
  | write (register : Register) (atBase : Bool) (size : Size) (value : BitVec 32)
  | notifyGpioChanged
  | mount (cardImage : CardImage)
  | unmount
  | reset

def hostStep (h : HostController) : Access → Except Fault (Option (BitVec 32) × HostController)
  | .read register atBase size gpio => do
    let (value, h) ← registerRead h register atBase size gpio
    .ok (some value, h)
  | .write register atBase size value => do
    let h ← registerWrite h register atBase size value
    .ok (none, h)
  | .notifyGpioChanged => .ok (none, raiseIrq h irqPin)
  | .mount cardImage => do
    let h ← hostMount h cardImage
    .ok (none, h)
  | .unmount => .ok (none, hostUnmount h)
  | .reset => .ok (none, hostReset h)

/-- The values that a sequence of accesses reads, and the state behind it. -/
def hostRun : HostController → List Access →
    Except Fault (List (Option (BitVec 32)) × HostController)
  | h, [] => .ok ([], h)
  | h, access :: accesses => do
    let (value, h) ← hostStep h access
    let (values, h) ← hostRun h accesses
    .ok (value :: values, h)

end Cloudpilot.Hardware.Stick
