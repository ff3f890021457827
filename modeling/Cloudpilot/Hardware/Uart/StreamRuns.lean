import Mathlib.Data.BitVec
import Cloudpilot.Hardware.Uart.Streams

/-!
# Runs of the UART and the host

The guest's accesses, cycles, the host's calls and changes of the mode come in any order. An
exchange keeps what the guest has written and latched.
-/

namespace Cloudpilot.Hardware.Uart

open Cloudpilot.Emulator List
open EmUARTDragonball

variable {capacity : ℕ}

/-- A step of a run. Where the transport may request transfers, the host's answers come along. -/
inductive Event where
  | stateChanged (clocks : Clocks) (newState : State) (sendTxData : Bool)
      (replies : List (List HostCall))
  | updateState (clocks : Clocks) (state : State) (refreshRxData : Bool)
      (replies : List (List HostCall))
  | cycle (systemCycles : BitVec 64) (isSleeping stopped : Bool) (replies : List (List HostCall))
  | host (call : HostCall)
  | setRequestTransferCallback (isSet : Bool)
  | setTransportModeSync (modeSync : Bool)
  | setUARTModeSync (sync : Bool) (systemCycles : BitVec 64)

/-- Accesses keep the UART, its transmitter and its receiver enabled. -/
def Event.Admissible : Event → Prop
  | .stateChanged _ newState _ _ => Streaming newState
  | .updateState _ state _ _ => Streaming state
  | _ => True

structure Exchange (capacity : ℕ) where
  connected : Connected capacity
  written : List Byte
  latched : List (BitVec 32)

namespace Exchange

def onLine (x : Exchange capacity) (f : Line capacity → Line capacity) : Exchange capacity :=
  { x with connected := ⟨x.connected.uart, x.connected.line.map f⟩ }

def answered (x : Exchange capacity) (replies : List (List HostCall)) : Exchange capacity :=
  x.onLine fun line => { line with replies }

def step (x : Exchange capacity) : Event → Option (Exchange capacity)
  | .stateChanged clocks newState sendTxData replies =>
    (stateChanged clocks (x.answered replies).connected newState sendTxData).map fun r =>
      { x with
        connected := r.2
        written := x.written ++ if sendTxData then [newState.txData.setWidth 8] else [] }
  | .updateState clocks state refreshRxData replies =>
    (updateState clocks (x.answered replies).connected state refreshRxData).map fun r =>
      { x with
        connected := r.2
        latched := x.latched ++ EmUARTDragonball.latched r.1 refreshRxData }
  | .cycle systemCycles isSleeping stopped replies =>
    some { x with
      connected := cycle (x.answered replies).connected systemCycles isSleeping stopped }
  | .host call => some (x.onLine (·.hostCall call))
  | .setRequestTransferCallback isSet =>
    some (x.onLine fun line =>
      { line with transport := { line.transport with requestTransferCallback := isSet } })
  | .setTransportModeSync modeSync => some (x.onLine (·.setModeSync modeSync))
  | .setUARTModeSync sync systemCycles =>
    some { x with
      connected := ⟨x.connected.uart.setModeSync sync systemCycles, x.connected.line⟩ }

def run (x : Exchange capacity) (events : List Event) : Option (Exchange capacity) :=
  events.foldlM step x

/-- Nothing is buffered, on either side, and the FIFOs have the sizes of the UART's type. -/
structure Fresh (x : Exchange capacity) : Prop where
  txFIFO : x.connected.uart.fTxFIFO =
    ⟨[], prvFIFOSize x.connected.uart.fState.uartType x.connected.uart.fUARTNum false⟩
  rxFIFO : x.connected.uart.fRxFIFO =
    ⟨[], prvFIFOSize x.connected.uart.fState.uartType x.connected.uart.fUARTNum true⟩
  line : ∃ line, x.connected.line = some line ∧ line.transport.rxBuffer.contents = [] ∧
    line.transport.txBuffer.contents = [] ∧ line.handed = [] ∧ line.sent = []
  written : x.written = []
  latched : x.latched = []

structure Preserved (x : Exchange capacity) (line : Line capacity) : Prop where
  outgoing : line.handed ++ line.transport.rxBuffer.contents ++
    x.connected.uart.fTxFIFO.fContainer = x.written
  incoming : x.latched ++ (x.connected.uart.fRxFIFO.fContainer ++
    line.transport.txBuffer.contents).map (BitVec.setWidth 32) =
      line.sent.map (BitVec.setWidth 32)

/-- The invariant of a run. -/
structure Sound (x : Exchange capacity) : Prop where
  ready : x.connected.uart.Ready
  line : ∃ line, x.connected.line = some line ∧ (line.overrun = false → x.Preserved line)

theorem Fresh.sound {x : Exchange capacity} (h : x.Fresh) : x.Sound where
  ready := by
    refine ⟨by rw [h.txFIFO], ?_, by rw [h.rxFIFO]; exact Nat.zero_le _⟩
    rw [h.txFIFO]
    change 0 < prvFIFOSize _ _ _
    simp only [prvFIFOSize]
    split
    · decide
    · decide
    · split <;> decide
    · decide
  line := by
    obtain ⟨line, hline, hrx, htx, hhanded, hsent⟩ := h.line
    refine ⟨line, hline, fun _ => ⟨?_, ?_⟩⟩
    · rw [hrx, hhanded, h.txFIFO, h.written]
      rfl
    · rw [htx, hsent, h.rxFIFO, h.latched]
      rfl

/-- A part of a run that carries bytes on keeps the invariant. -/
theorem Sound.carries {x : Exchange capacity} (h : x.Sound) {connected : Connected capacity}
    {out taken : List Byte} (hcarries : x.connected.Carries connected out taken) :
    Sound ⟨connected, x.written ++ out, x.latched ++ taken.map (BitVec.setWidth 32)⟩ := by
  obtain ⟨line, hline, hpreserved⟩ := h.line
  obtain ⟨line', hline', hstreams⟩ := hcarries line hline
  have hready := hstreams.ready h.ready
  refine ⟨hready, line', hline', fun hrun => ?_⟩
  obtain ⟨houtgoing, hincoming⟩ := hpreserved (hstreams.sound hrun)
  rw [h.ready.transmitted, append_nil] at houtgoing
  obtain ⟨new, hsent, hbytes⟩ := hstreams.incoming hrun
  constructor
  · rw [hready.transmitted, append_nil, hstreams.outgoing hrun, houtgoing]
  · rw [append_assoc, ← map_append, hbytes, map_append, ← append_assoc, hincoming,
      hsent, map_append]

/-- The invariant does not say more of a part of a run that moves no byte. -/
theorem Sound.carries_nil {x : Exchange capacity} (h : x.Sound) {connected : Connected capacity}
    (hcarries : x.connected.Carries connected [] []) : Sound { x with connected } := by
  have hsound := h.carries hcarries
  rwa [append_nil, map_nil, append_nil] at hsound

theorem Sound.onLine {x : Exchange capacity} (h : x.Sound) {f : Line capacity → Line capacity}
    (hf : ∀ line : Line capacity, line.Feeds (f line) []) : (x.onLine f).Sound :=
  h.carries_nil (.of_same f hf rfl rfl)

theorem Sound.answered {x : Exchange capacity} (h : x.Sound) (replies : List (List HostCall)) :
    (x.answered replies).Sound :=
  h.onLine fun _ => .of_same rfl rfl rfl rfl rfl

theorem exists_step {x : Exchange capacity} (h : x.Sound) {event : Event} (hevent : event.Admissible) :
    ∃ x', x.step event = some x' ∧ x'.Sound := by
  cases event with
  | stateChanged clocks newState sendTxData replies =>
    have hanswered := h.answered replies
    obtain ⟨line, hline, -⟩ := hanswered.line
    obtain ⟨state', c', hstep, hcarries⟩ := exists_stateChanged clocks (x.answered replies).connected
      hevent hanswered.ready hline sendTxData
    refine ⟨_, by rw [step, hstep, Option.map_some], ?_⟩
    have hsound := hanswered.carries hcarries
    rwa [map_nil, append_nil] at hsound
  | updateState clocks state refreshRxData replies =>
    have hanswered := h.answered replies
    obtain ⟨state', c', taken, hstep, hcarries, hlatched⟩ :=
      exists_updateState clocks (x.answered replies).connected hevent.char8_7 refreshRxData
    refine ⟨_, by rw [step, hstep, Option.map_some], ?_⟩
    have hsound := hanswered.carries hcarries
    rwa [append_nil, hlatched] at hsound
  | cycle systemCycles isSleeping stopped replies =>
    exact ⟨_, rfl, (h.answered replies).carries_nil (carries_cycle _ systemCycles isSleeping stopped)⟩
  | host call => exact ⟨_, rfl, h.onLine fun line => line.feeds_hostCall call⟩
  | setRequestTransferCallback isSet =>
    exact ⟨_, rfl, h.onLine fun line => .of_same rfl rfl rfl rfl rfl⟩
  | setTransportModeSync modeSync => exact ⟨_, rfl, h.onLine fun line => line.feeds_setModeSync modeSync⟩
  | setUARTModeSync sync systemCycles =>
    exact ⟨_, rfl, h.carries_nil (carries_setModeSync x.connected sync systemCycles)⟩

theorem exists_run {x : Exchange capacity} (h : x.Sound) (events : List Event)
    (hevents : ∀ event ∈ events, event.Admissible) : ∃ x', x.run events = some x' ∧ x'.Sound := by
  induction events generalizing x with
  | nil => exact ⟨x, rfl, h⟩
  | cons event events ih =>
    obtain ⟨hevent, hrest⟩ := forall_mem_cons.mp hevents
    obtain ⟨x', hstep, hsound⟩ := exists_step h hevent
    obtain ⟨x'', hrun, hsound'⟩ := ih hsound hrest
    refine ⟨x'', ?_, hsound'⟩
    rwa [run, foldlM_cons, hstep]

/-- Serial byte streams: a run of admissible events has a result, so no FIFO is put beyond its
maximum size. Unless a buffer of the transport is overrun, what the host was handed and what is
buffered for it is what the guest wrote, and what the guest latched and what is buffered for it
is what the host sent. -/
theorem streams_preserved (x : Exchange capacity) (hfresh : x.Fresh) (events : List Event)
    (hevents : ∀ event ∈ events, event.Admissible) :
    ∃ x' line, x.run events = some x' ∧ x'.connected.line = some line ∧
      x'.connected.uart.fRxFIFO.fContainer.length ≤ x'.connected.uart.fRxFIFO.fMaxSize ∧
      x'.connected.uart.fTxFIFO.fContainer = [] ∧
      (line.overrun = false → x'.Preserved line) := by
  obtain ⟨x', hrun, hsound⟩ := exists_run hfresh.sound events hevents
  obtain ⟨line, hline, hpreserved⟩ := hsound.line
  exact ⟨x', line, hrun, hline, hsound.ready.fits, hsound.ready.transmitted, hpreserved⟩

/-- Registers of the first UART of a DragonBall VZ that streams, with a byte to send. -/
def streamingState (txData : BitVec 32) : State where
  uartType := .kUART_DragonballVZ
  uartEnable := true
  rxEnable := true
  txEnable := true
  parityEn := false
  oddEven := false
  stopBits := false
  char8_7 := true
  divide := 0
  prescaler := 0
  rxFifoFull := false
  rxFifoHalf := false
  dataReady := false
  oldData := false
  rxData := 0
  txFifoEmpty := true
  txFifoHalf := true
  txAvail := true
  sendBreak := false
  ignoreCts := false
  busy := false
  ctsStatus := false
  txData
  loop := false
  rtsCont := true
  rts := false
  txFifoLevelMarker := 0
  rxFifoLevelMarker := 0

/-- A UART and a transport in sync mode that have just been connected. -/
def connectedExchange : Exchange 2 where
  connected :=
    { uart :=
        { fUARTNum := 0
          fState := streamingState 0
          fRxFIFO := ⟨[], 12⟩
          fTxFIFO := ⟨[], 8⟩
          receiveInProgress := false
          sync := true
          transactionState := .idle
          transactionTimeoutCycles := 0
          systemCycles := 0 }
      line := some
        { transport :=
            { rxBuffer := Fifo.new 2 Nat.two_pos
              txBuffer := Fifo.new 2 Nat.two_pos
              config := configFor ⟨16000000, 16000000⟩ (streamingState 0)
              rts := .kRTSAuto
              isBreak := false
              modeSync := true
              incomingFrameComplete := true
              isXIDCommandFrame := false
              transactionState := .idle
              requestTransferCallback := true }
          suspended := false
          replies := []
          handed := []
          sent := []
          overrun := false } }
  written := []
  latched := []

/-- The second byte fills the buffer, so the host takes both, and it sends two while it does. -/
def twoBytes : List Event :=
  [.stateChanged ⟨16000000, 16000000⟩ (streamingState 0x41) true [],
    .stateChanged ⟨16000000, 16000000⟩ (streamingState 0x42) true
      [[.receive, .send [0x61, 0x62] true]],
    .cycle 20000 false false [[]],
    .updateState ⟨16000000, 16000000⟩ (streamingState 0x42) true []]

theorem connectedExchange_fresh : connectedExchange.Fresh :=
  ⟨rfl, rfl, ⟨_, rfl, rfl, rfl, rfl, rfl⟩, rfl, rfl⟩

theorem twoBytes_admissible : ∀ event ∈ twoBytes, event.Admissible := by
  simp only [twoBytes, forall_mem_cons]
  exact ⟨⟨rfl, rfl, rfl, rfl, rfl⟩, ⟨rfl, rfl, rfl, rfl, rfl⟩, trivial, ⟨rfl, rfl, rfl, rfl, rfl⟩,
    forall_mem_nil _⟩

theorem streams_preserved_twoBytes :
    ∃ x' line, connectedExchange.run twoBytes = some x' ∧ x'.connected.line = some line ∧
      x'.connected.uart.fRxFIFO.fContainer.length ≤ x'.connected.uart.fRxFIFO.fMaxSize ∧
      x'.connected.uart.fTxFIFO.fContainer = [] ∧
      (line.overrun = false → x'.Preserved line) :=
  streams_preserved connectedExchange connectedExchange_fresh twoBytes twoBytes_admissible

example : (connectedExchange.run twoBytes).map (fun x => x.latched) = some [0x61] := by decide +kernel

end Exchange

end Cloudpilot.Hardware.Uart
