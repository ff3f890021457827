import Cloudpilot.Uarm.Cpu.State

/-! # The serial ports

An access or a periodic call of a device changes its registers and calls out of it:
interrupt lines, DMA requests, the hook that wakes the periodic task, the ready pin.
These calls are collected in their order; the SoC carries them out.
-/

namespace Cloudpilot.Uarm.Peripherals

open Cpu

inductive Effect where
  | irq (intNum : ℕ) (raise : Bool)
  | dmaReq (chNum : Fin 75) (requested : Bool)
  | reschedule
  | ready (isReady : Bool)
  deriving DecidableEq, Repr

/-- What an access returns: the device, success, the transferred value and the calls made. -/
structure Done (δ : Type*) where
  device : δ
  ok : Bool
  buf : Word
  effects : List Effect

abbrev Char := BitVec 16

def uartFifoDepth : ℕ := 64
def uartFifoEmpty : ℕ := 0xFF

structure UartFifo where
  read : ℕ
  write : ℕ
  buf : ℕ → Char

structure SocUart where
  TX : UartFifo
  RX : UartFifo
  transmitShift : Char
  transmitHolding : Char
  receiveHolding : Char
  cyclesSinceRecv : ℕ
  IER : BitVec 8
  IIR : BitVec 8
  FCR : BitVec 8
  LCR : BitVec 8
  LSR : BitVec 8
  MCR : BitVec 8
  MSR : BitVec 8
  SPR : BitVec 8
  DLL : BitVec 8
  DLH : BitVec 8
  ISR : BitVec 8

def uartCharBreak : Char := 0x800
def uartCharFrameErr : Char := 0x400
def uartCharParErr : Char := 0x200
def uartCharNone : Char := 0x100

/-- The bits of the line status register. -/
def lsrFifoe : BitVec 8 := 0x80
def lsrTemt : BitVec 8 := 0x40
def lsrTdrq : BitVec 8 := 0x20
def lsrBi : BitVec 8 := 0x10
def lsrFe : BitVec 8 := 0x08
def lsrPe : BitVec 8 := 0x04
def lsrOe : BitVec 8 := 0x02
def lsrDr : BitVec 8 := 0x01

def fcrTrfifoe : BitVec 8 := 0x01

namespace UartFifo

def empty : UartFifo := ⟨uartFifoEmpty, uartFifoEmpty, fun _ => 0⟩

def used (fifo : UartFifo) : ℕ :=
  if fifo.read = uartFifoEmpty then 0
  else
    let v := fifo.write + uartFifoDepth - fifo.read
    if v > uartFifoDepth then v - uartFifoDepth else v

def flush (fifo : UartFifo) : UartFifo :=
  { fifo with read := uartFifoEmpty, write := uartFifoEmpty }

def wrapped (i : ℕ) : ℕ := if i = uartFifoDepth then 0 else i

def put (fifo : UartFifo) (val : Char) : UartFifo × Bool :=
  if fifo.read = uartFifoEmpty then
    (⟨0, 1, Function.update fifo.buf 0 val⟩, true)
  else if fifo.read ≠ fifo.write then
    ({ fifo with
        buf := Function.update fifo.buf fifo.write val
        write := wrapped (fifo.write + 1) }, true)
  else (fifo, false)

def get (fifo : UartFifo) : UartFifo × Char :=
  if fifo.read = uartFifoEmpty then (fifo, 0xFFFF)
  else
    let ret := fifo.buf fifo.read
    let read := wrapped (fifo.read + 1)
    if read = fifo.write then (fifo.flush, ret) else ({ fifo with read := read }, ret)

def peekNth (fifo : UartFifo) (n : ℕ) : Char :=
  if fifo.read = uartFifoEmpty then 0xFFFF
  else
    let n := n + fifo.read
    fifo.buf (if n ≥ uartFifoDepth then n - uartFifoDepth else n)

def peek (fifo : UartFifo) : Char := fifo.peekNth 0

end UartFifo

namespace SocUart

def init : SocUart where
  TX := .empty
  RX := .empty
  transmitShift := 0
  transmitHolding := 0
  receiveHolding := 0
  cyclesSinceRecv := 0
  IER := 0x60
  IIR := 0x01
  FCR := 0
  LCR := 0
  LSR := lsrTemt ||| lsrTdrq
  MCR := 0
  MSR := 0x10
  SPR := 0
  DLL := 0
  DLH := 0
  ISR := 0

def fifoMode (uart : SocUart) : Bool := uart.FCR &&& fcrTrfifoe ≠ 0

def setLsr (uart : SocUart) (bits : BitVec 8) : SocUart := { uart with LSR := uart.LSR ||| bits }

def clearLsr (uart : SocUart) (bits : BitVec 8) : SocUart :=
  { uart with LSR := uart.LSR &&& ~~~bits }

def recalcCharBits (uart : SocUart) (c : Char) : SocUart :=
  let uart := if c &&& uartCharBreak ≠ 0 then uart.setLsr lsrBi else uart
  let uart := if c &&& uartCharFrameErr ≠ 0 then uart.setLsr lsrFe else uart
  if c &&& uartCharParErr ≠ 0 then uart.setLsr lsrPe else uart

/-- The number of received characters from which the interrupt is due. -/
def triggerLevel (uart : SocUart) : ℕ :=
  if uart.FCR &&& 0xC0 = 0x00 then 1
  else if uart.FCR &&& 0xC0 = 0x40 then 8
  else if uart.FCR &&& 0xC0 = 0x80 then 16
  else 32

/-- A received character has an error that interrupts. -/
def rxFailed (uart : SocUart) : Bool :=
  (List.range uart.RX.used).any fun v => uart.RX.peekNth v >>> 8 ≠ 0 ∧ uart.IER &&& 0x04 ≠ 0

def setIir (uart : SocUart) (bits : BitVec 8) : SocUart := { uart with IIR := uart.IIR ||| bits }

def noteRxError (uart : SocUart) : SocUart :=
  if uart.rxFailed then (uart.setLsr lsrFifoe).setIir 0x06 else uart

def noteRxChar (uart : SocUart) : SocUart :=
  if uart.RX.used ≠ 0 then uart.recalcCharBits uart.RX.peek else uart

/-- The branch of `socUartPrvRecalc` with FIFOs: the registers and whether a cause was found. -/
def recalcFifo (uart : SocUart) : SocUart × Bool :=
  let failed := uart.rxFailed
  let used := uart.RX.used
  let noted := uart.noteRxError.noteRxChar
  let enough := used ≥ uart.triggerLevel
  if enough ∧ uart.IER &&& 0x01 ≠ 0 ∧ ¬ failed then (noted.setIir 0x04, true)
  else if used ≠ 0 ∧ uart.cyclesSinceRecv ≥ 4 ∧ uart.IER &&& 0x01 ≠ 0 ∧ ¬ failed then
    (noted.setIir 0x0C, true)
  else (noted, failed)

def recalcPolled (uart : SocUart) : SocUart × Bool :=
  let c := uart.receiveHolding
  let noted := uart.recalcCharBits c
  if uart.LSR &&& lsrDr ≠ 0 then
    if c >>> 8 ≠ 0 ∧ uart.IER &&& 0x04 ≠ 0 then (noted.setIir 0x06, true)
    else if uart.IER &&& 0x01 ≠ 0 then (noted.setIir 0x04, true)
    else (noted, false)
  else (uart, false)

def recalcSend (uart : SocUart) (errorSet : Bool) : SocUart × Bool :=
  if uart.LSR &&& lsrTdrq ≠ 0 ∧ ¬ errorSet ∧ uart.IER &&& 0x02 ≠ 0 then (uart.setIir 0x02, true)
  else (uart, errorSet)

/-- The bits that `socUartPrvRecalc` takes away before it looks for causes. -/
def clearCauses (uart : SocUart) : SocUart :=
  { (uart.clearLsr lsrFifoe).clearLsr (lsrBi ||| lsrFe ||| lsrPe) with IIR := uart.IIR &&& 0xC0 }

def findCause (uart : SocUart) : SocUart × Bool :=
  let cause := if uart.fifoMode then uart.recalcFifo else uart.recalcPolled
  cause.1.recalcSend cause.2

/-- `socUartPrvRecalc` with the level that `socUartPrvIrq` hands to the interrupt controller. -/
def recalc (uart : SocUart) : SocUart × Bool :=
  let (uart, errorSet) := uart.clearCauses.findCause
  (if errorSet then uart else uart.setIir 0x01,
    uart.MCR &&& 0x10 = 0 ∧ uart.MCR &&& 0x08 ≠ 0 ∧ errorSet)

/-- The flag is the call of the hook. -/
def sendChar (uart : SocUart) (v : Char) : SocUart × Bool :=
  if uart.LSR &&& lsrTemt ≠ 0 then
    ({ uart.clearLsr lsrTemt with transmitShift := v }, true)
  else if uart.fifoMode then
    let uart := { uart with TX := (uart.TX.put v).1 }
    (if uart.TX.used > uartFifoDepth / 2 then uart.clearLsr lsrTdrq else uart, false)
  else if uart.LSR &&& lsrTdrq ≠ 0 then
    ({ uart.clearLsr lsrTdrq with transmitHolding := v }, false)
  else (uart, false)

def idleLsr : BitVec 8 := lsrTemt ||| lsrTdrq

/-- A write to the interrupt enable register. Enabling DMA ends the emulator. -/
def writeIer (uart : SocUart) (val : BitVec 8) : Option SocUart :=
  let t := uart.IER ^^^ val
  if t &&& 0x80 ≠ 0 then none
  else
    let uart := if t &&& 0x40 ≠ 0 ∧ val &&& 0x40 ≠ 0 then
      { uart with LSR := idleLsr, MSR := 0x10 } else uart
    some { uart with IER := uart.IER ^^^ t }

def writeFcr (uart : SocUart) (val : BitVec 8) : SocUart :=
  let uart :=
    if (uart.FCR ^^^ val) &&& fcrTrfifoe ≠ 0 then
      if val &&& fcrTrfifoe ≠ 0 then
        let uart := if val &&& 0x02 ≠ 0 then { uart with RX := uart.RX.flush } else uart
        let uart := if val &&& 0x04 ≠ 0 then
          { uart with TX := uart.TX.flush, LSR := idleLsr } else uart
        { uart with IIR := 0xC1 }
      else { uart with TX := uart.TX.flush, RX := uart.RX.flush, LSR := idleLsr, IIR := 0x01 }
    else uart
  { uart with FCR := val }

/-- A write to the line control register: the end of a break is sent as a character. -/
def writeLcr (uart : SocUart) (val : BitVec 8) : SocUart × Bool :=
  let (uart, hook) := if (uart.LCR ^^^ val) &&& 0x40 ≠ 0 ∧ val &&& 0x40 = 0 then
    uart.sendChar uartCharBreak else (uart, false)
  ({ uart with LCR := val }, hook)

def dlab (uart : SocUart) : Bool := uart.LCR &&& 0x80 ≠ 0

/-- The switch of a write: the registers, the call of the hook and `recalcValues`. -/
def writeRegister (uart : SocUart) (pa : ℕ) (val : BitVec 8) : Option (SocUart × Bool × Bool) :=
  match pa with
  | 0 =>
    if uart.dlab then some ({ uart with DLL := val }, false, false)
    else
      let (uart, hook) := uart.sendChar (val.setWidth 16)
      some (uart, hook, true)
  | 1 =>
    if uart.dlab then some ({ uart with DLH := val }, false, false)
    else (uart.writeIer val).map fun uart => (uart, false, true)
  | 2 => some (uart.writeFcr val, false, true)
  | 3 =>
    let (uart, hook) := uart.writeLcr val
    some (uart, hook, true)
  | 4 => some ({ uart with MCR := val }, false, true)
  | 7 => some ({ uart with SPR := val }, false, true)
  | 8 => some ({ uart with ISR := val }, false, true)
  | _ => some (uart, false, true)

/-- A read of the receive register: the registers, the value and `recalcValues`. -/
def readRbr (uart : SocUart) : SocUart × BitVec 8 × Bool :=
  if uart.LSR &&& lsrDr = 0 then (uart, 0, false)
  else if uart.fifoMode then
    let (RX, c) := uart.RX.get
    let uart := { uart with RX := RX }
    (if uart.RX.used = 0 then uart.clearLsr lsrDr else uart, c.setWidth 8, true)
  else (uart.clearLsr lsrDr, uart.receiveHolding.setWidth 8, false)

def readRegister (uart : SocUart) (pa : ℕ) : SocUart × BitVec 8 × Bool :=
  match pa with
  | 0 => if uart.dlab then (uart, uart.DLL, false) else uart.readRbr
  | 1 => (uart, if uart.dlab then uart.DLH else uart.IER, false)
  | 2 => (uart, uart.IIR, false)
  | 3 => (uart, uart.LCR, false)
  | 4 => (uart, uart.MCR, false)
  | 5 => (uart, uart.LSR, false)
  | 6 => (uart, uart.MSR, false)
  | 7 => (uart, uart.SPR, false)
  | 8 => (uart, uart.ISR, false)
  | _ => (uart, 0, false)

/-- The calls at the end of an access: the hook came first, the interrupt line last. -/
def finish (uart : SocUart) (irq : ℕ) (buf : Word) (hook recalcValues : Bool) : Done SocUart :=
  let calls := if hook then [Effect.reschedule] else []
  if recalcValues then
    ⟨uart.recalc.1, true, buf, calls ++ [.irq irq uart.recalc.2]⟩
  else ⟨uart, true, buf, calls⟩

/-- `socUartPrvMemAccessF`, with the offset from the base address. -/
def memAccessF (uart : SocUart) (irq : ℕ) (ofst : Word) (size : ℕ) (write : Bool) (buf : Word) :
    Option (Done SocUart) :=
  if size ≠ 4 ∧ size ≠ 1 then some ⟨uart, true, buf, []⟩
  else
    let pa := (ofst >>> 2).toNat
    if write then
      (uart.writeRegister pa (buf.setWidth 8)).map fun (uart, hook, recalcValues) =>
        uart.finish irq buf hook recalcValues
    else
      let (uart, val, recalcValues) := uart.readRegister pa
      let buf := if size = 1 then (buf &&& 0xFFFFFF00) ||| val.setWidth 32 else val.setWidth 32
      some (uart.finish irq buf false recalcValues)

/-- The first half of `socUartProcess`: the character that leaves the shift register. -/
def processSend (uart : SocUart) : SocUart × Option Char :=
  if uart.LSR &&& lsrTemt = 0 then
    let sent := some uart.transmitShift
    if uart.fifoMode then
      let t := uart.TX.used
      if t ≠ 0 then
        let (TX, c) := uart.TX.get
        let uart := { uart with TX := TX, transmitShift := c }
        (if t - 1 ≤ uartFifoDepth / 2 then uart.setLsr lsrTdrq else uart, sent)
      else (uart.setLsr lsrTemt, sent)
    else if uart.LSR &&& lsrTdrq ≠ 0 then (uart.setLsr lsrTemt, sent)
    else ({ uart.setLsr lsrTdrq with transmitShift := uart.transmitHolding }, sent)
  else (uart, none)

/-- The second half, with the character that was read. -/
def processReceive (uart : SocUart) (v : Char) : SocUart :=
  if v ≠ uartCharNone then
    let uart := { uart.setLsr lsrDr with cyclesSinceRecv := 0 }
    if uart.fifoMode then
      let (RX, stored) := uart.RX.put v
      let uart := { uart with RX := RX }
      if stored then uart else uart.setLsr lsrOe
    else if uart.LSR &&& lsrDr ≠ 0 then uart.setLsr lsrOe
    else { uart with receiveHolding := v }
  else if uart.cyclesSinceRecv ≤ 4 then { uart with cyclesSinceRecv := uart.cyclesSinceRecv + 1 }
  else uart

def taskRequired (uart : SocUart) : Bool := uart.LSR &&& lsrTemt = 0

end SocUart

structure SocSsp where
  cr0 : Word
  cr1 : Word
  sr : Word
  rxFifo : List (BitVec 16)
  txFifo : List (BitVec 16)

/-- What identifies a port: its interrupt and its first DMA request. -/
structure SspPort where
  irqNo : ℕ
  dmaReqNoBase : Fin 75

def sspFifoDepth : ℕ := 16

namespace SocSsp

variable (port : SspPort)

def irqsUpdate (ssp : SocSsp) : Effect :=
  .irq port.irqNo
    ((ssp.sr &&& 0x40 ≠ 0 ∧ ssp.cr1 &&& 0x01 ≠ 0) ∨ (ssp.sr &&& 0x20 ≠ 0 ∧ ssp.cr1 &&& 0x02 ≠ 0))

def recalcRxFifoSta (ssp : SocSsp) : SocSsp × List Effect :=
  let used := ssp.rxFifo.length
  let sr := ssp.sr &&& ~~~0xf048
  let sr := if used ≠ 0 then sr ||| 0x08 else sr
  let sr := sr ||| (((BitVec.ofNat 32 used - 1) &&& 0x0f) <<< 12)
  let sr := if used > ((ssp.cr1 >>> 10) &&& 0x0f).toNat then sr ||| 0x40 else sr
  let ssp := { ssp with sr := sr }
  (ssp, [.dmaReq port.dmaReqNoBase (sr &&& 0x40 ≠ 0), ssp.irqsUpdate port])

def recalcTxFifoSta (ssp : SocSsp) : SocSsp × List Effect :=
  let used := ssp.txFifo.length
  let sr := ssp.sr &&& ~~~0x0f24
  let sr := if used ≠ sspFifoDepth then sr ||| 0x04 else sr
  let sr := sr ||| ((BitVec.ofNat 32 used &&& 0x0f) <<< 8)
  let sr := if used ≤ ((ssp.cr1 >>> 6) &&& 0x0f).toNat then sr ||| 0x20 else sr
  let ssp := { ssp with sr := sr }
  (ssp, [.dmaReq port.dmaReqNoBase (sr &&& 0x20 ≠ 0), ssp.irqsUpdate port])

def fifoR (ssp : SocSsp) : SocSsp × BitVec 16 × List Effect :=
  match ssp.rxFifo with
  | [] => (ssp, 0, [])
  | v :: rest =>
    let (ssp, calls) := { ssp with rxFifo := rest }.recalcRxFifoSta port
    (ssp, v, calls)

def fifoW (ssp : SocSsp) (val : BitVec 16) : SocSsp × List Effect :=
  if ssp.txFifo.length = sspFifoDepth then (ssp, [])
  else
    let ssp := { ssp with sr := ssp.sr ||| 0x10, txFifo := ssp.txFifo ++ [val] }
    let (ssp, calls) := ssp.recalcTxFifoSta port
    (ssp, calls ++ [.reschedule])

/-- `socSspPrvMemAccessF`, with the offset from the base address. -/
def memAccessF (ssp : SocSsp) (ofst : Word) (size : ℕ) (write : Bool) (buf : Word) :
    Done SocSsp :=
  if size ≠ 4 then ⟨ssp, false, buf, []⟩
  else match (ofst >>> 2).toNat with
  | 0 => if write then ⟨{ ssp with cr0 := buf }, true, buf, []⟩ else ⟨ssp, true, ssp.cr0, []⟩
  | 1 => if write then ⟨{ ssp with cr1 := buf }, true, buf, []⟩ else ⟨ssp, true, ssp.cr1, []⟩
  | 2 =>
    if write then ⟨{ ssp with sr := (ssp.sr &&& ~~~0x80) ||| (buf &&& 0x80) }, true, buf, []⟩
    else ⟨ssp, true, ssp.sr, []⟩
  | 4 =>
    if write then
      let (ssp, calls) := ssp.fifoW port (buf.setWidth 16)
      ⟨ssp, true, buf, calls⟩
    else
      let (ssp, v, calls) := ssp.fifoR port
      ⟨ssp, true, (buf &&& 0xFFFF0000) ||| v.setWidth 32, calls⟩
  | _ => ⟨ssp, false, buf, []⟩

/-- Store an answer, unless there is no room for it. -/
def receive (ssp : SocSsp) (ret : BitVec 16) : SocSsp × List Effect :=
  if ssp.rxFifo.length = sspFifoDepth then ({ ssp with sr := ssp.sr ||| 0x80 }, [])
  else { ssp with rxFifo := ssp.rxFifo ++ [ret] }.recalcRxFifoSta port

/-- `socSspPeriodic`: one word out, and its answer in. `clients` is what all clients answer. -/
def periodic (ssp : SocSsp) (clients : ℕ → BitVec 16 → BitVec 16) : SocSsp × List Effect :=
  match ssp.txFifo with
  | [] => ({ ssp with sr := ssp.sr &&& ~~~0x10 }, [])
  | val :: rest =>
    let (ssp, sent) := { ssp with txFifo := rest }.recalcTxFifoSta port
    let ret := if ssp.cr1 &&& 4 ≠ 0 then val else clients (1 + (ssp.cr0 &&& 15).toNat) val
    let (ssp, received) := ssp.receive port ret
    (ssp, sent ++ received)

def taskRequired (ssp : SocSsp) : Bool := ssp.sr &&& 0x10 ≠ 0

end SocSsp

/-- `socSspInit`; the calls are those of its `socSspPrvRecalcTxFifoSta`. -/
def socSspInit (port : SspPort) : SocSsp × List Effect :=
  SocSsp.recalcTxFifoSta port ⟨0, 0, 0, [], []⟩

end Cloudpilot.Uarm.Peripherals
