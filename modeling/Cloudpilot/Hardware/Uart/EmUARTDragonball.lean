import Mathlib
import Cloudpilot.Emulator.RingBuffers

/-!
# The buffered serial transport

Two FIFOs between the emulated UART and the host, which takes and sends whole batches. When
the transport asks for a transfer the host may take and send as well, before the access that
asked for it goes on. The line keeps what the host has been handed and what it has sent, and
whether a byte has been pushed into a full buffer.
-/

namespace Cloudpilot.Hardware.Uart

open Cloudpilot.Emulator

abbrev Byte := BitVec 8

inductive TransactionState where
  | idle
  | sending
  | receiving
  | waitingForData
  deriving DecidableEq, Repr

inductive RTSControl where
  | kRTSOff
  | kRTSOn
  | kRTSAuto
  deriving DecidableEq, Repr

inductive Parity where
  | kNoParity
  | kOddParity
  | kEvenParity
  deriving DecidableEq, Repr

structure Config where
  fBaud : ℕ
  fParity : Parity
  fStopBits : ℕ
  fDataBits : ℕ
  fHwrHandshake : Bool
  deriving DecidableEq, Repr

structure EmTransportSerialBuffer (capacity : ℕ) where
  rxBuffer : Fifo Byte capacity
  txBuffer : Fifo Byte capacity
  config : Config
  rts : RTSControl
  isBreak : Bool
  modeSync : Bool
  incomingFrameComplete : Bool
  isXIDCommandFrame : Bool
  transactionState : TransactionState
  requestTransferCallback : Bool

inductive HostCall where
  | receive
  | send (data : List Byte) (frameComplete : Bool)

/-- The transport with the host behind it, and its answers to the next requests for a transfer. -/
structure Line (capacity : ℕ) where
  transport : EmTransportSerialBuffer capacity
  suspended : Bool
  replies : List (List HostCall)
  handed : List Byte
  sent : List Byte
  overrun : Bool

/-- The four bytes of the source address, of which escape bytes do not count. -/
def skipSourceAddress (j : ℕ) : List Byte → Option (List Byte)
  | [] => if j = 0 then some [] else none
  | b :: bytes =>
    if j = 0 then some (b :: bytes)
    else if b = 0x7d then skipSourceAddress j bytes
    else skipSourceAddress (j - 1) bytes

/-- The bytes behind the start of a frame, before which only `0xff` may stand. -/
def frameStart : List Byte → Option (List Byte)
  | [] => some []
  | b :: bytes => if b = 0xc0 then some bytes else if b = 0xff then frameStart bytes else none

def isXIDSniffingCommand (buffer : List Byte) : Bool :=
  match frameStart buffer with
  | some (0xff :: 0x3f :: 0x01 :: rest) =>
    match skipSourceAddress 4 rest with
    | some (0xff :: 0xff :: 0xff :: 0xff :: _ :: b :: _) => b ≠ 0xff
    | _ => false
  | _ => false

/-- So many entries, one after the other. -/
def popMany {capacity : ℕ} (fifo : Fifo Byte capacity) : ℕ → List Byte × Fifo Byte capacity
  | 0 => ([], fifo)
  | n + 1 =>
    let r := popMany fifo.pop.2 n
    (fifo.pop.1 :: r.1, r.2)

namespace Line

variable {capacity : ℕ}

def receive (line : Line capacity) : Line capacity :=
  let r := popMany line.transport.rxBuffer line.transport.rxBuffer.size
  { line with transport := { line.transport with rxBuffer := r.2 }, handed := line.handed ++ r.1 }

def pushTx (line : Line capacity) (b : Byte) : Line capacity :=
  { line with
    transport := { line.transport with txBuffer := line.transport.txBuffer.push b }
    overrun := line.overrun || line.transport.txBuffer.size = capacity }

def send (line : Line capacity) (data : List Byte) (frameComplete : Bool) : Line capacity :=
  let pushed := data.foldl pushTx line
  { pushed with
    transport := { pushed.transport with
      incomingFrameComplete := frameComplete
      isXIDCommandFrame :=
        pushed.transport.modeSync && frameComplete && isXIDSniffingCommand data }
    suspended := false
    sent := pushed.sent ++ data }

def hostCall (line : Line capacity) : HostCall → Line capacity
  | .receive => line.receive
  | .send data frameComplete => line.send data frameComplete

def setModeSync (line : Line capacity) (modeSync : Bool) : Line capacity :=
  if modeSync = line.transport.modeSync then line
  else
    { line with
      transport := { line.transport with
        modeSync
        transactionState := .idle
        isXIDCommandFrame := false } }

def suspend (line : Line capacity) : Line capacity := { line with suspended := true }

/-- `requestTransferCallback`, if the host has set it. -/
def requestTransfer (line : Line capacity) : Line capacity :=
  if line.transport.requestTransferCallback then
    match line.replies with
    | [] => line
    | calls :: replies => calls.foldl hostCall { line with replies }
  else line

def canRead (line : Line capacity) : Bool := 0 < line.transport.txBuffer.size

def canWrite (_ : Line capacity) : Bool := true

def bytesPending (line : Line capacity) : ℕ := line.transport.txBuffer.size

/-- At most so many bytes. -/
def read (line : Line capacity) (count : ℕ) : List Byte × Line capacity :=
  let r := popMany line.transport.txBuffer (min count line.transport.txBuffer.size)
  let popped := { line with transport := { line.transport with txBuffer := r.2 } }
  (r.1,
    if popped.transport.modeSync && r.2.size = 0 && !popped.transport.incomingFrameComplete then
      popped.suspend
    else popped)

def writeByte (line : Line capacity) (b : Byte) : Line capacity :=
  let pushed : Line capacity :=
    { line with
      transport := { line.transport with rxBuffer := line.transport.rxBuffer.push b }
      overrun := line.overrun || line.transport.rxBuffer.size = capacity }
  if pushed.transport.modeSync && pushed.transport.rxBuffer.size = capacity then
    pushed.requestTransfer
  else pushed

def write (line : Line capacity) (buffer : List Byte) : Line capacity := buffer.foldl writeByte line

def setRTS (line : Line capacity) (rts : RTSControl) : Line capacity :=
  { line with transport := { line.transport with rts } }

def setBreak (line : Line capacity) (breakActive : Bool) : Line capacity :=
  { line with transport := { line.transport with isBreak := breakActive } }

def setConfig (line : Line capacity) (config : Config) : Line capacity :=
  { line with transport := { line.transport with config } }

def onTransactionStateChange (line : Line capacity) (oldState newState : TransactionState) :
    Line capacity :=
  let changed : Line capacity :=
    { line with transport := { line.transport with transactionState := newState } }
  if !changed.transport.modeSync || oldState = newState then changed
  else if oldState = .sending ∧ newState = .idle then changed.suspend.requestTransfer
  else if oldState = .waitingForData ∧ newState = .idle then
    let asked := changed.requestTransfer
    if asked.transport.isXIDCommandFrame then asked.suspend else asked
  else changed

end Line

inductive UARTType where
  | kUART_Dragonball
  | kUART_DragonballEZ
  | kUART_DragonballVZ
  | kUART_DragonballSZ
  deriving DecidableEq, Repr

structure State where
  uartType : UARTType
  uartEnable : Bool
  rxEnable : Bool
  txEnable : Bool
  parityEn : Bool
  oddEven : Bool
  stopBits : Bool
  char8_7 : Bool
  divide : BitVec 32
  prescaler : BitVec 32
  rxFifoFull : Bool
  rxFifoHalf : Bool
  dataReady : Bool
  oldData : Bool
  rxData : BitVec 32
  txFifoEmpty : Bool
  txFifoHalf : Bool
  txAvail : Bool
  sendBreak : Bool
  ignoreCts : Bool
  busy : Bool
  ctsStatus : Bool
  txData : BitVec 32
  loop : Bool
  rtsCont : Bool
  rts : Bool
  txFifoLevelMarker : BitVec 4
  rxFifoLevelMarker : BitVec 4

structure EmByteQueue where
  fContainer : List Byte
  fMaxSize : ℕ

namespace EmByteQueue

def put (queue : EmByteQueue) (value : Byte) : Option EmByteQueue :=
  if queue.fMaxSize = 0 ∨ queue.fContainer.length < queue.fMaxSize then
    some { queue with fContainer := queue.fContainer ++ [value] }
  else none

def get (queue : EmByteQueue) : Option (Byte × EmByteQueue) :=
  match queue.fContainer with
  | [] => none
  | result :: rest => some (result, { queue with fContainer := rest })

def getUsed (queue : EmByteQueue) : ℕ := queue.fContainer.length

def getFree (queue : EmByteQueue) : ℕ := queue.fMaxSize - queue.fContainer.length

def clear (queue : EmByteQueue) : EmByteQueue := { queue with fContainer := [] }

def getMany (queue : EmByteQueue) : ℕ → Option (List Byte × EmByteQueue)
  | 0 => some ([], queue)
  | n + 1 => do
    let (b, queue) ← queue.get
    let (bytes, queue) ← queue.getMany n
    return (b :: bytes, queue)

def putMany (queue : EmByteQueue) (bytes : List Byte) : Option EmByteQueue := bytes.foldlM put queue

end EmByteQueue

structure EmUARTDragonball where
  fUARTNum : ℕ
  fState : State
  fRxFIFO : EmByteQueue
  fTxFIFO : EmByteQueue
  receiveInProgress : Bool
  sync : Bool
  transactionState : TransactionState
  transactionTimeoutCycles : BitVec 64
  systemCycles : BitVec 64

/-- What the accesses read elsewhere: the system clock and the clocks of a second. -/
structure Clocks where
  systemClockFrequency : BitVec 32
  clocksPerSecond : BitVec 32

def waitingForDataTimeoutUsec : BitVec 64 := 25000

def messageTimeoutUsec : BitVec 64 := 750

/-- The baud rates that a rate is pinned to, if it is within two percent. -/
def pinnedBauds : List ℕ :=
  [150, 300, 600, 1200, 1800, 2400, 3600, 4800, 7200, 9600, 14400, 19200, 28800, 38400, 57600,
    115200, 230400]

def prvPinBaud (newBaud : ℕ) : ℕ :=
  (pinnedBauds.find? fun testBaud =>
    newBaud > testBaud - testBaud / 50 ∧ newBaud < testBaud + testBaud / 50).getD newBaud

namespace EmUARTDragonball

def prvFIFOSize (uartType : UARTType) (fUARTNum : ℕ) (forRX : Bool) : ℕ :=
  match uartType with
  | .kUART_Dragonball => 8
  | .kUART_DragonballEZ => if forRX then 12 else 8
  | .kUART_DragonballVZ => if fUARTNum = 0 then if forRX then 12 else 8 else 64
  | .kUART_DragonballSZ => 8

def prvLevelMarker (uart : EmUARTDragonball) (forRX : Bool) : ℕ :=
  let level := (if forRX then uart.fRxFIFO.fMaxSize else uart.fTxFIFO.fMaxSize) / 2
  if uart.fState.uartType = .kUART_DragonballVZ ∧ uart.fUARTNum = 1 then
    let marker := if forRX then uart.fState.txFifoLevelMarker else uart.fState.rxFifoLevelMarker
    if marker ≠ 0 then marker.toNat * 4 else level
  else level

variable {capacity : ℕ}

/-- A UART with the line that its transport belongs to, if there is one. -/
structure Connected (capacity : ℕ) where
  uart : EmUARTDragonball
  line : Option (Line capacity)

def updateTransactionState (c : Connected capacity) (state : TransactionState) : Connected capacity :=
  if state = c.uart.transactionState then c
  else
    { uart := { c.uart with transactionState := state }
      line := c.line.map (·.onTransactionStateChange c.uart.transactionState state) }

/-- The cycles at which a time span from now ends. -/
def timeoutAfter (uart : EmUARTDragonball) (clocks : Clocks) (usec : BitVec 64) : BitVec 64 :=
  uart.systemCycles + usec * clocks.clocksPerSecond.setWidth 64 / 1000000

def transmitTxFIFO (c : Connected capacity) (line : Line capacity) : Option (Connected capacity) := do
  if line.canWrite then
    let spaceInTxFIFO := c.uart.fTxFIFO.getUsed
    if 0 < spaceInTxFIFO then
      let (buffer, fTxFIFO) ← c.uart.fTxFIFO.getMany spaceInTxFIFO
      return ⟨{ c.uart with fTxFIFO }, some (line.write buffer)⟩
    else return { c with line := some line }
  else return { c with line := some line }

def receiveRxFIFO (c : Connected capacity) (line : Line capacity) : Option (Connected capacity) :=
  if line.canRead then
    let uart := { c.uart with receiveInProgress := true }
    let spaceInRxFIFO := uart.fRxFIFO.getFree
    let bytesToBuffer := if line.bytesPending > spaceInRxFIFO then spaceInRxFIFO else line.bytesPending
    if 0 < bytesToBuffer ∧ (uart.fState.rtsCont = true ∨ uart.fState.rts = true) then
      let r := line.read bytesToBuffer
      (uart.fRxFIFO.putMany r.1).map fun fRxFIFO => ⟨{ uart with fRxFIFO }, some r.2⟩
    else some ⟨uart, some line⟩
  else some ⟨{ c.uart with receiveInProgress := false }, some line⟩

def startReceiving (c : Connected capacity) (line : Line capacity) : Connected capacity :=
  if c.uart.sync && line.canRead && c.uart.transactionState = .idle then
    updateTransactionState c .receiving
  else c

def awaitData (clocks : Clocks) (c : Connected capacity) (line : Line capacity) : Connected capacity :=
  if c.uart.sync && !line.canRead && c.uart.transactionState = .receiving then
    let c := updateTransactionState c .waitingForData
    { c with uart := { c.uart with
        transactionTimeoutCycles := timeoutAfter c.uart clocks waitingForDataTimeoutUsec } }
  else c

def serveTransport (clocks : Clocks) (c : Connected capacity) : Option (Connected capacity) :=
  match c.line with
  | none => some c
  | some line =>
    let c := startReceiving c line
    match c.line with
    | none => some c
    | some line =>
      let c := awaitData clocks c line
      match c.line with
      | none => some c
      | some line => receiveRxFIFO c line

/-- The bits on the receive FIFO, and the next byte of it if it is asked for. -/
def readFifo (uart : EmUARTDragonball) (state : State) (refreshRxData : Bool) :
    Option (State × EmUARTDragonball) :=
  let state := { state with
    rxFifoFull := uart.fRxFIFO.getFree = 0
    rxFifoHalf := uart.fRxFIFO.getFree ≤ uart.prvLevelMarker true
    dataReady := 0 < uart.fRxFIFO.getUsed }
  if state.dataReady && state.uartEnable && state.rxEnable && refreshRxData then
    uart.fRxFIFO.get.map fun r =>
      let rxData := r.1.setWidth 32
      ({ state with rxData := if state.char8_7 then rxData else rxData &&& 0x7f },
        { uart with fRxFIFO := r.2 })
  else some (state, uart)

/-- The bits on the transmit FIFO. -/
def transmitStatus (uart : EmUARTDragonball) (state : State) : State :=
  { state with
    txFifoEmpty := uart.fTxFIFO.getUsed = 0
    txFifoHalf := uart.fTxFIFO.getUsed < uart.prvLevelMarker false
    txAvail := 0 < uart.fTxFIFO.getFree
    busy := ¬ uart.fTxFIFO.getUsed = 0
    ctsStatus := ¬ uart.fTxFIFO.getUsed = 0 }

def updateState (clocks : Clocks) (c : Connected capacity) (state : State) (refreshRxData : Bool) :
    Option (State × Connected capacity) := do
  let receiveWasInProgress := c.uart.receiveInProgress
  let served ← serveTransport clocks c
  let state :=
    if served.uart.receiveInProgress ≠ receiveWasInProgress ∧ served.uart.receiveInProgress = false then
      { state with oldData := true }
    else state
  let (state, uart) ← readFifo served.uart state refreshRxData
  let state := transmitStatus uart state
  return (state, ⟨{ uart with fState := state }, served.line⟩)

def flushDisabled (uart : EmUARTDragonball) (newState : State) : EmUARTDragonball :=
  let uart :=
    if uart.fState.rxEnable ≠ newState.rxEnable ∧ newState.rxEnable = false then
      { uart with fRxFIFO := uart.fRxFIFO.clear }
    else uart
  if uart.fState.txEnable ≠ newState.txEnable ∧ newState.txEnable = false then
    { uart with fTxFIFO := uart.fTxFIFO.clear }
  else uart

def configFor (clocks : Clocks) (newState : State) : Config where
  fBaud := prvPinBaud
    (clocks.systemClockFrequency / (65 - newState.prescaler) / (1 <<< newState.divide.toNat) / 16).toNat
  fParity :=
    if newState.parityEn = false then .kNoParity
    else if newState.oddEven then .kOddParity
    else .kEvenParity
  fStopBits := if newState.stopBits then 2 else 1
  fDataBits := if newState.char8_7 then 8 else 7
  fHwrHandshake := !newState.ignoreCts

/-- The pins and the settings of the transport. -/
def configureLine (uart : EmUARTDragonball) (newState : State) (config : Config) (line : Line capacity) :
    Line capacity :=
  let line :=
    if uart.fState.rtsCont ≠ newState.rtsCont ∨ uart.fState.rts ≠ newState.rts then
      if newState.rtsCont then line.setRTS .kRTSAuto
      else if newState.rts then line.setRTS .kRTSOn
      else line.setRTS .kRTSOff
    else line
  let line := if newState.uartEnable then line.setConfig config else line
  if uart.fState.sendBreak ≠ newState.sendBreak then line.setBreak newState.sendBreak else line

/-- A byte to send starts a transaction, and prolongs it. -/
def startSending (clocks : Clocks) (c : Connected capacity) : Connected capacity :=
  let c :=
    if c.uart.sync ∧ (c.uart.transactionState = .idle ∨ c.uart.transactionState = .waitingForData) then
      updateTransactionState c .sending
    else c
  if c.uart.sync ∧ c.uart.transactionState = .sending then
    { c with uart := { c.uart with
        transactionTimeoutCycles := timeoutAfter c.uart clocks messageTimeoutUsec } }
  else c

def putTxData (uart : EmUARTDragonball) (newState : State) : Option EmUARTDragonball :=
  (uart.fTxFIFO.put (newState.txData.setWidth 8)).map fun fTxFIFO => { uart with fTxFIFO }

def sendTx (clocks : Clocks) (c : Connected capacity) (newState : State) (config : Config) :
    Option (Connected capacity) :=
  if newState.loop = false then
    let c := startSending clocks c
    match c.line with
    | some line =>
      if line.canWrite then
        if 0 < c.uart.fTxFIFO.getFree then
          (putTxData c.uart newState).bind fun uart => transmitTxFIFO ⟨uart, some line⟩ line
        else some c
      else some c
    | none =>
      if config.fHwrHandshake then
        if 0 < c.uart.fTxFIFO.getFree then
          (putTxData c.uart newState).map fun uart => ⟨uart, none⟩
        else some c
      else some c
  else if 0 < c.uart.fRxFIFO.getFree then
    (c.uart.fRxFIFO.put (newState.txData.setWidth 8)).map fun fRxFIFO =>
      { c with uart := { c.uart with fRxFIFO } }
  else some c

def stateChanged (clocks : Clocks) (c : Connected capacity) (newState : State) (sendTxData : Bool) :
    Option (State × Connected capacity) := do
  let config := configFor clocks newState
  let c : Connected capacity :=
    ⟨flushDisabled c.uart newState, c.line.map (configureLine c.uart newState config)⟩
  let c ←
    if sendTxData && newState.uartEnable && newState.txEnable then sendTx clocks c newState config
    else some c
  updateState clocks c newState false

def cycle (c : Connected capacity) (systemCycles : BitVec 64) (isSleeping stopped : Bool) :
    Connected capacity :=
  if c.uart.sync then
    let c := { c with uart := { c.uart with systemCycles } }
    let transactionTimeout :=
      systemCycles > c.uart.transactionTimeoutCycles ∨ (isSleeping = false ∧ stopped = true)
    if transactionTimeout ∧
        (c.uart.transactionState = .sending ∨ c.uart.transactionState = .waitingForData) then
      updateTransactionState c .idle
    else c
  else c

def setModeSync (uart : EmUARTDragonball) (sync : Bool) (systemCycles : BitVec 64) :
    EmUARTDragonball :=
  if sync = uart.sync then uart else { uart with sync, systemCycles, transactionState := .idle }

end EmUARTDragonball

end Cloudpilot.Hardware.Uart
