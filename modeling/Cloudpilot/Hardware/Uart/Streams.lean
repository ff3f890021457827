import Cloudpilot.Hardware.Uart.EmUARTDragonball

/-!
# The byte streams of the UART

What the host is handed and what waits for it is what the guest has written, and what the
guest has latched and what waits for it is what the host has sent, as long as no buffer of the
transport is overrun.
-/

namespace Cloudpilot.Hardware.Uart

open Cloudpilot.Emulator List Option

variable {capacity : ℕ}

theorem popMany_spec (fifo : Fifo Byte capacity) {n : ℕ} (hn : n ≤ fifo.size) :
    (popMany fifo n).1 = fifo.contents.take n ∧
      (popMany fifo n).2.contents = fifo.contents.drop n := by
  induction n generalizing fifo with
  | zero => exact ⟨rfl, rfl⟩
  | succ n ih =>
    have hne : fifo.size ≠ 0 := by omega
    have htail : n ≤ fifo.pop.2.size := by
      rw [Fifo.size_pop]
      omega
    have hpopped := ih fifo.pop.2 htail
    rw [Fifo.contents_pop hne, take_succ_cons, drop_succ_cons]
    exact ⟨congrArg (fifo.pop.1 :: ·) hpopped.1, hpopped.2⟩

theorem popMany_all (fifo : Fifo Byte capacity) :
    (popMany fifo fifo.size).1 = fifo.contents ∧ (popMany fifo fifo.size).2.contents = [] := by
  have hall := popMany_spec fifo le_rfl
  rwa [← fifo.length_contents, take_length, drop_length, fifo.length_contents] at hall

namespace EmByteQueue

theorem put_of_free {queue : EmByteQueue} (h : 0 < queue.getFree) (b : Byte) :
    queue.put b = some { queue with fContainer := queue.fContainer ++ [b] } := by
  apply if_pos
  simp only [getFree] at h
  omega

theorem getMany_getUsed (queue : EmByteQueue) :
    queue.getMany queue.getUsed = some (queue.fContainer, queue.clear) := by
  obtain ⟨bytes, size⟩ := queue
  induction bytes with
  | nil => rfl
  | cons b bytes ih =>
    simp only [getUsed, length_cons, getMany, get] at ih ⊢
    simp [ih, clear]

theorem putMany_of_free {queue : EmByteQueue} {bytes : List Byte}
    (h : bytes.length ≤ queue.getFree) :
    queue.putMany bytes = some { queue with fContainer := queue.fContainer ++ bytes } := by
  induction bytes generalizing queue with
  | nil => simp [putMany]
  | cons b bytes ih =>
    rw [length_cons] at h
    have hfree : 0 < queue.getFree := by omega
    have hput := put_of_free hfree b
    have hleft : bytes.length ≤
        getFree { queue with fContainer := queue.fContainer ++ [b] } := by
      grind [getFree, length_append, length_singleton]
    have hrest := ih hleft
    rw [putMany] at hrest ⊢
    rw [foldlM_cons, hput]
    simpa using hrest

end EmByteQueue

namespace Line

variable {line line' line'' : Line capacity} {out out' : List Byte}

/-- What a part of a run does to the line: the bytes that it adds for the host, and what the
host has sent goes to the end of the transmit buffer, unless a buffer is overrun. -/
structure Feeds (line line' : Line capacity) (out : List Byte) : Prop where
  sound : line'.overrun = false → line.overrun = false
  outgoing : line'.overrun = false →
    line'.handed ++ line'.transport.rxBuffer.contents =
      line.handed ++ line.transport.rxBuffer.contents ++ out
  incoming : line'.overrun = false → ∃ new, line'.sent = line.sent ++ new ∧
    line'.transport.txBuffer.contents = line.transport.txBuffer.contents ++ new

theorem Feeds.refl (line : Line capacity) : line.Feeds line [] :=
  ⟨id, fun _ => (List.append_nil _).symm, fun _ => ⟨[], by simp⟩⟩

theorem Feeds.trans (h : line.Feeds line' out) (h' : line'.Feeds line'' out') :
    line.Feeds line'' (out ++ out') where
  sound hrun := h.sound (h'.sound hrun)
  outgoing hrun := by
    rw [h'.outgoing hrun, h.outgoing (h'.sound hrun), List.append_assoc]
  incoming hrun := by
    obtain ⟨new, hsent, htx⟩ := h.incoming (h'.sound hrun)
    obtain ⟨new', hsent', htx'⟩ := h'.incoming hrun
    exact ⟨new ++ new', by rw [hsent', hsent, List.append_assoc],
      by rw [htx', htx, List.append_assoc]⟩

theorem Feeds.of_same (hrx : line'.transport.rxBuffer = line.transport.rxBuffer)
    (htx : line'.transport.txBuffer = line.transport.txBuffer) (hhanded : line'.handed = line.handed)
    (hsent : line'.sent = line.sent) (hrun : line'.overrun = line.overrun) :
    line.Feeds line' [] where
  sound h := hrun ▸ h
  outgoing _ := by rw [hrx, hhanded, List.append_nil]
  incoming _ := ⟨[], by rw [hsent, List.append_nil], by rw [htx, List.append_nil]⟩

theorem feeds_receive (line : Line capacity) : line.Feeds line.receive [] where
  sound h := h
  outgoing _ := by
    have hall := popMany_all line.transport.rxBuffer
    simp [receive, hall.1, hall.2]
  incoming _ := ⟨[], by simp [receive]⟩

theorem foldl_pushTx (line : Line capacity) (data : List Byte)
    (hrun : (data.foldl pushTx line).overrun = false) :
    line.overrun = false ∧
      (data.foldl pushTx line).transport.txBuffer.contents =
        line.transport.txBuffer.contents ++ data := by
  induction data generalizing line with
  | nil => exact ⟨hrun, (append_nil _).symm⟩
  | cons b data ih =>
    have hrest := ih (line.pushTx b) hrun
    have hfits : line.overrun = false ∧ line.transport.txBuffer.size ≠ capacity := by grind [pushTx]
    have hsize := line.transport.txBuffer.size_le
    refine ⟨hfits.1, ?_⟩
    rw [foldl_cons, hrest.2, pushTx, Fifo.contents_push (by omega), append_assoc]
    rfl

theorem foldl_pushTx_frame (line : Line capacity) (data : List Byte) :
    (data.foldl pushTx line).handed = line.handed ∧
      (data.foldl pushTx line).sent = line.sent ∧
      (data.foldl pushTx line).transport.rxBuffer = line.transport.rxBuffer := by
  induction data generalizing line with
  | nil => exact ⟨rfl, rfl, rfl⟩
  | cons b data ih => exact ih (line.pushTx b)

theorem feeds_send (line : Line capacity) (data : List Byte) (frameComplete : Bool) :
    line.Feeds (line.send data frameComplete) [] where
  sound h := (line.foldl_pushTx data h).1
  outgoing _ := by
    obtain ⟨hhanded, -, hrx⟩ := line.foldl_pushTx_frame data
    simp [send, hhanded, hrx]
  incoming h := by
    obtain ⟨-, hsent, -⟩ := line.foldl_pushTx_frame data
    refine ⟨data, ?_, (line.foldl_pushTx data h).2⟩
    simp [send, hsent]

theorem feeds_hostCall (line : Line capacity) (call : HostCall) :
    line.Feeds (line.hostCall call) [] := by
  cases call with
  | receive => exact line.feeds_receive
  | send data frameComplete => exact line.feeds_send data frameComplete

theorem feeds_hostCalls (line : Line capacity) (calls : List HostCall) :
    line.Feeds (calls.foldl hostCall line) [] := by
  induction calls generalizing line with
  | nil => exact .refl line
  | cons call calls ih => exact (line.feeds_hostCall call).trans (ih (line.hostCall call))

theorem feeds_setModeSync (line : Line capacity) (modeSync : Bool) :
    line.Feeds (line.setModeSync modeSync) [] := by
  rw [setModeSync]
  split
  · exact .refl line
  · exact .of_same rfl rfl rfl rfl rfl

theorem feeds_suspend (line : Line capacity) : line.Feeds line.suspend [] :=
  .of_same rfl rfl rfl rfl rfl

theorem feeds_requestTransfer (line : Line capacity) : line.Feeds line.requestTransfer [] := by
  rw [requestTransfer]
  split
  · split
    · exact .refl line
    · next calls replies _ =>
      have hanswered : line.Feeds { line with replies } [] := .of_same rfl rfl rfl rfl rfl
      exact hanswered.trans (feeds_hostCalls { line with replies } calls)
  · exact .refl line

theorem feeds_writeByte (line : Line capacity) (b : Byte) : line.Feeds (line.writeByte b) [b] := by
  have hpushed : line.Feeds
      { line with
        transport := { line.transport with rxBuffer := line.transport.rxBuffer.push b }
        overrun := line.overrun || line.transport.rxBuffer.size = capacity } [b] := by
    refine ⟨fun h => ?_, fun h => ?_, fun _ => ⟨[], by simp⟩⟩
    · grind
    · have hfits : line.transport.rxBuffer.size ≠ capacity := by grind
      have hsize := line.transport.rxBuffer.size_le
      simp [Fifo.contents_push (f := line.transport.rxBuffer) (by omega)]
  rw [writeByte]
  split
  · exact hpushed.trans (feeds_requestTransfer _)
  · exact hpushed

theorem feeds_write (line : Line capacity) (buffer : List Byte) :
    line.Feeds (line.write buffer) buffer := by
  induction buffer generalizing line with
  | nil => exact .refl line
  | cons b buffer ih => exact (line.feeds_writeByte b).trans (ih (line.writeByte b))

theorem feeds_onTransactionStateChange (line : Line capacity) (oldState newState : TransactionState) :
    line.Feeds (line.onTransactionStateChange oldState newState) [] := by
  have hchanged : line.Feeds
      { line with transport := { line.transport with transactionState := newState } } [] :=
    .of_same rfl rfl rfl rfl rfl
  simp only [onTransactionStateChange]
  split
  · exact hchanged
  · split
    · exact hchanged.trans ((feeds_suspend _).trans (feeds_requestTransfer _))
    · split
      · split
        · exact hchanged.trans ((feeds_requestTransfer _).trans (feeds_suspend _))
        · exact hchanged.trans (feeds_requestTransfer _)
      · exact hchanged

theorem read_spec (line : Line capacity) {count : ℕ} (h : count ≤ line.bytesPending) :
    (line.read count).1 = line.transport.txBuffer.contents.take count ∧
      (line.read count).2.transport.txBuffer.contents =
        line.transport.txBuffer.contents.drop count ∧
      (line.read count).2.transport.rxBuffer = line.transport.rxBuffer ∧
      (line.read count).2.handed = line.handed ∧ (line.read count).2.sent = line.sent ∧
      (line.read count).2.overrun = line.overrun := by
  have hpopped := popMany_spec line.transport.txBuffer h
  have hmin : min count line.transport.txBuffer.size = count := min_eq_left h
  rw [read, hmin]
  refine ⟨hpopped.1, ?_⟩
  split <;> exact ⟨hpopped.2, rfl, rfl, rfl, rfl⟩

end Line

namespace EmUARTDragonball

variable {c c' c'' : Connected capacity} {uart uart' uart'' : EmUARTDragonball}
  {line line' line'' : Line capacity} {out out' taken taken' : List Byte}

/-- Between two accesses nothing waits to be transmitted, and the receive FIFO is within its
maximum size. -/
structure Ready (uart : EmUARTDragonball) : Prop where
  transmitted : uart.fTxFIFO.fContainer = []
  room : 0 < uart.fTxFIFO.fMaxSize
  fits : uart.fRxFIFO.fContainer.length ≤ uart.fRxFIFO.fMaxSize

/-- As on the line alone, with the bytes that the guest takes from the receive FIFO. -/
structure Streams (uart : EmUARTDragonball) (line : Line capacity) (uart' : EmUARTDragonball)
    (line' : Line capacity) (out taken : List Byte) : Prop where
  ready : uart.Ready → uart'.Ready
  sound : line'.overrun = false → line.overrun = false
  outgoing : line'.overrun = false →
    line'.handed ++ line'.transport.rxBuffer.contents =
      line.handed ++ line.transport.rxBuffer.contents ++ out
  incoming : line'.overrun = false → ∃ new, line'.sent = line.sent ++ new ∧
    taken ++ (uart'.fRxFIFO.fContainer ++ line'.transport.txBuffer.contents) =
      uart.fRxFIFO.fContainer ++ line.transport.txBuffer.contents ++ new

theorem Streams.of_feeds (h : line.Feeds line' out) (hrx : uart'.fRxFIFO = uart.fRxFIFO)
    (htx : uart'.fTxFIFO = uart.fTxFIFO) : Streams uart line uart' line' out [] where
  ready hready := ⟨htx ▸ hready.transmitted, htx ▸ hready.room, hrx ▸ hready.fits⟩
  sound := h.sound
  outgoing := h.outgoing
  incoming hrun := by
    obtain ⟨new, hsent, htx⟩ := h.incoming hrun
    exact ⟨new, hsent, by rw [hrx, htx, List.nil_append, List.append_assoc]⟩

theorem Streams.trans (h : Streams uart line uart' line' out taken)
    (h' : Streams uart' line' uart'' line'' out' taken') :
    Streams uart line uart'' line'' (out ++ out') (taken ++ taken') where
  ready hready := h'.ready (h.ready hready)
  sound hrun := h.sound (h'.sound hrun)
  outgoing hrun := by
    rw [h'.outgoing hrun, h.outgoing (h'.sound hrun), List.append_assoc]
  incoming hrun := by
    obtain ⟨new, hsent, hbytes⟩ := h.incoming (h'.sound hrun)
    obtain ⟨new', hsent', hbytes'⟩ := h'.incoming hrun
    refine ⟨new ++ new', by rw [hsent', hsent, List.append_assoc], ?_⟩
    rw [List.append_assoc, hbytes', ← List.append_assoc, hbytes, List.append_assoc]

/-- What a step does to a UART that is connected to a line. -/
def Connected.Carries (c c' : Connected capacity) (out taken : List Byte) : Prop :=
  ∀ line, c.line = some line →
    ∃ line', c'.line = some line' ∧ Streams c.uart line c'.uart line' out taken

theorem Connected.Carries.refl (c : Connected capacity) : c.Carries c [] [] :=
  fun line hline => ⟨line, hline, .of_feeds (.refl line) rfl rfl⟩

theorem Connected.Carries.trans (h : c.Carries c' out taken) (h' : c'.Carries c'' out' taken') :
    c.Carries c'' (out ++ out') (taken ++ taken') := by
  intro line hline
  obtain ⟨line', hline', hstep⟩ := h line hline
  obtain ⟨line'', hline'', hstep'⟩ := h' line' hline'
  exact ⟨line'', hline'', hstep.trans hstep'⟩

theorem Connected.Carries.of_same (f : Line capacity → Line capacity)
    (hf : ∀ line : Line capacity, line.Feeds (f line) []) (hrx : uart'.fRxFIFO = c.uart.fRxFIFO)
    (htx : uart'.fTxFIFO = c.uart.fTxFIFO) : c.Carries ⟨uart', c.line.map f⟩ [] [] := by
  intro line hline
  refine ⟨f line, ?_, .of_feeds (hf line) hrx htx⟩
  rw [hline, map_some]

theorem Connected.Carries.of_uart (hrx : uart'.fRxFIFO = c.uart.fRxFIFO)
    (htx : uart'.fTxFIFO = c.uart.fTxFIFO) : c.Carries ⟨uart', c.line⟩ [] [] :=
  fun line hline => ⟨line, hline, .of_feeds (.refl line) hrx htx⟩

theorem carries_updateTransactionState (c : Connected capacity) (state : TransactionState) :
    c.Carries (updateTransactionState c state) [] [] := by
  rw [updateTransactionState]
  split
  · exact .refl c
  · apply Connected.Carries.of_same
    · exact fun line => line.feeds_onTransactionStateChange _ _
    · rfl
    · rfl

theorem carries_startReceiving (c : Connected capacity) (line : Line capacity) :
    c.Carries (startReceiving c line) [] [] := by
  rw [startReceiving]
  split
  · exact carries_updateTransactionState c .receiving
  · exact .refl c

theorem carries_awaitData (clocks : Clocks) (c : Connected capacity) (line : Line capacity) :
    c.Carries (awaitData clocks c line) [] [] := by
  rw [awaitData]
  split
  · exact (carries_updateTransactionState c .waitingForData).trans (.of_uart rfl rfl)
  · exact .refl c

theorem carries_startSending (clocks : Clocks) (c : Connected capacity) :
    c.Carries (startSending clocks c) [] [] := by
  have hstarted : c.Carries
      (if c.uart.sync ∧ (c.uart.transactionState = .idle ∨ c.uart.transactionState = .waitingForData)
        then updateTransactionState c .sending else c) [] [] := by
    split
    · exact carries_updateTransactionState c .sending
    · exact .refl c
  unfold startSending
  generalize (if c.uart.sync ∧ (c.uart.transactionState = .idle ∨
    c.uart.transactionState = .waitingForData) then updateTransactionState c .sending else c) =
      started at hstarted ⊢
  dsimp only
  split
  · exact hstarted.trans (.of_uart rfl rfl)
  · exact hstarted

theorem exists_receiveRxFIFO (c : Connected capacity) {line : Line capacity}
    (hline : c.line = some line) :
    ∃ c', receiveRxFIFO c line = some c' ∧ c.Carries c' [] [] := by
  have hcount : (if line.bytesPending > c.uart.fRxFIFO.getFree then c.uart.fRxFIFO.getFree
      else line.bytesPending) ≤ min line.bytesPending c.uart.fRxFIFO.getFree := by grind
  simp only [receiveRxFIFO, ← hline]
  generalize (if line.bytesPending > c.uart.fRxFIFO.getFree then c.uart.fRxFIFO.getFree
    else line.bytesPending) = count at hcount ⊢
  split
  · split
    · have hpending : count ≤ line.bytesPending := by omega
      obtain ⟨hbytes, htx, hrx, hhanded, hsent, hrun⟩ := line.read_spec hpending
      have hroom : (line.read count).1.length ≤ c.uart.fRxFIFO.getFree := by grind
      rw [EmByteQueue.putMany_of_free hroom, map_some]
      refine ⟨_, rfl, fun line' hline' => ⟨_, rfl, ?_⟩⟩
      obtain rfl : line = line' := some.inj (hline.symm.trans hline')
      refine ⟨fun hready => ⟨hready.transmitted, hready.room, ?_⟩, fun h => hrun ▸ h, fun _ => ?_,
        fun _ => ⟨[], ?_, ?_⟩⟩
      · grind [EmByteQueue.getFree, length_append]
      · grind
      · grind
      · rw [hbytes, htx, append_assoc, take_append_drop, nil_append, append_nil]
    · exact ⟨_, rfl, .of_uart rfl rfl⟩
  · exact ⟨_, rfl, .of_uart rfl rfl⟩

theorem exists_serveTransport (clocks : Clocks) (c : Connected capacity) :
    ∃ c', serveTransport clocks c = some c' ∧ c.Carries c' [] [] := by
  simp only [serveTransport]
  split
  · exact ⟨c, rfl, .refl c⟩
  · next line _ =>
    have hstarted := carries_startReceiving c line
    generalize startReceiving c line = started at hstarted ⊢
    split
    · grind
    · next line' _ =>
      have hawaited := hstarted.trans (carries_awaitData clocks started line')
      generalize awaitData clocks started line' = awaiting at hawaited ⊢
      split
      · grind
      · next line'' hline'' =>
        obtain ⟨c', hc', hreceived⟩ := exists_receiveRxFIFO awaiting hline''
        exact ⟨c', hc', hawaited.trans hreceived⟩

/-- The registers of a UART that sends and receives, with eight bits and no loopback. -/
structure Streaming (state : State) : Prop where
  uartEnable : state.uartEnable = true
  rxEnable : state.rxEnable = true
  txEnable : state.txEnable = true
  char8_7 : state.char8_7 = true
  loop : state.loop = false

def latched (state : State) (refreshRxData : Bool) : List (BitVec 32) :=
  if state.dataReady && state.uartEnable && state.rxEnable && refreshRxData then [state.rxData] else []

theorem exists_readFifo (uart : EmUARTDragonball) {state : State} (h : state.char8_7 = true)
    (refreshRxData : Bool) :
    ∃ state' uart' taken, readFifo uart state refreshRxData = some (state', uart') ∧
      uart'.fTxFIFO = uart.fTxFIFO ∧ uart'.fRxFIFO.fMaxSize = uart.fRxFIFO.fMaxSize ∧
      taken ++ uart'.fRxFIFO.fContainer = uart.fRxFIFO.fContainer ∧
      taken.map (BitVec.setWidth 32) = latched state' refreshRxData := by
  simp only [readFifo]
  split
  · next hlatch =>
    have hused : uart.fRxFIFO.fContainer ≠ [] := by
      intro hnil
      simp [EmByteQueue.getUsed, hnil] at hlatch
    obtain ⟨b, rest, hbytes⟩ := exists_cons_of_ne_nil hused
    have hget : uart.fRxFIFO.get = some (b, { uart.fRxFIFO with fContainer := rest }) := by
      rw [EmByteQueue.get, hbytes]
    rw [hget, map_some]
    refine ⟨_, _, [b], rfl, rfl, rfl, hbytes.symm, ?_⟩
    rw [latched, if_pos hlatch]
    rfl
  · next hlatch => exact ⟨_, _, [], rfl, rfl, rfl, rfl, (if_neg hlatch).symm⟩

theorem exists_updateState (clocks : Clocks) (c : Connected capacity) {state : State}
    (h : state.char8_7 = true) (refreshRxData : Bool) :
    ∃ state' c' taken, updateState clocks c state refreshRxData = some (state', c') ∧
      c.Carries c' [] taken ∧ taken.map (BitVec.setWidth 32) = latched state' refreshRxData := by
  obtain ⟨served, hserved, hcarries⟩ := exists_serveTransport clocks c
  have hold : (if served.uart.receiveInProgress ≠ c.uart.receiveInProgress ∧
      served.uart.receiveInProgress = false then { state with oldData := true }
      else state).char8_7 = true := by grind
  obtain ⟨state', uart', taken, hread, htx, hmax, hbytes, hlatched⟩ :=
    exists_readFifo served.uart hold refreshRxData
  refine ⟨transmitStatus uart' state', ⟨{ uart' with fState := transmitStatus uart' state' }, served.line⟩,
    taken, ?_, ?_, hlatched⟩
  · simp only [updateState, hserved, bind_eq_bind, bind_some, hread]
    rfl
  · have hlatch : served.Carries ⟨{ uart' with fState := transmitStatus uart' state' }, served.line⟩
        [] taken := by
      refine fun line hline => ⟨line, hline, fun hready => ⟨?_, ?_, ?_⟩, id, fun _ => ?_,
        fun _ => ⟨[], ?_, ?_⟩⟩
      · exact htx ▸ hready.transmitted
      · exact htx ▸ hready.room
      · have hfits := hready.fits
        rw [← hbytes, length_append] at hfits
        change uart'.fRxFIFO.fContainer.length ≤ uart'.fRxFIFO.fMaxSize
        omega
      · simp
      · simp
      · grind
    exact hcarries.trans hlatch

theorem transmitTxFIFO_of_used (c : Connected capacity) (line : Line capacity)
    (h : 0 < c.uart.fTxFIFO.getUsed) :
    transmitTxFIFO c line = some ⟨{ c.uart with fTxFIFO := c.uart.fTxFIFO.clear },
      some (line.write c.uart.fTxFIFO.fContainer)⟩ := by
  simp [transmitTxFIFO, Line.canWrite, h, EmByteQueue.getMany_getUsed]

theorem exists_sendTx (clocks : Clocks) (c : Connected capacity) {newState : State} (config : Config)
    (hready : c.uart.Ready) {line : Line capacity} (hline : c.line = some line)
    (hloop : newState.loop = false) :
    ∃ c', sendTx clocks c newState config = some c' ∧
      c.Carries c' [newState.txData.setWidth 8] [] := by
  have hstarted := carries_startSending clocks c
  rw [sendTx, if_pos hloop]
  generalize startSending clocks c = started at hstarted ⊢
  obtain ⟨line', hline', hstreams⟩ := hstarted line hline
  obtain ⟨htransmitted, hroom, hfits⟩ := hstreams.ready hready
  have hfree : 0 < started.uart.fTxFIFO.getFree := by
    rwa [EmByteQueue.getFree, htransmitted]
  have hput := EmByteQueue.put_of_free hfree (newState.txData.setWidth 8)
  rw [htransmitted, nil_append] at hput
  simp only [hline', Line.canWrite, if_true, hfree, putTxData, hput, map_some, bind_some]
  refine ⟨_, transmitTxFIFO_of_used _ line' Nat.one_pos, ?_⟩
  have hwritten := line'.feeds_write [newState.txData.setWidth 8]
  have hsent : started.Carries
      ⟨{ started.uart with fTxFIFO := { started.uart.fTxFIFO with fContainer := [] } },
        some (line'.write [newState.txData.setWidth 8])⟩ [newState.txData.setWidth 8] [] := by
    intro line'' hline''
    obtain rfl : line' = line'' := some.inj (hline'.symm.trans hline'')
    refine ⟨_, rfl, fun hready => ⟨rfl, hready.room, hready.fits⟩, hwritten.sound,
      hwritten.outgoing, fun hrun => ?_⟩
    obtain ⟨new, hnew, htx⟩ := hwritten.incoming hrun
    exact ⟨new, hnew, by rw [htx, nil_append, append_assoc]⟩
  exact hstarted.trans hsent

theorem flushDisabled_of_streaming (uart : EmUARTDragonball) {newState : State}
    (h : Streaming newState) : flushDisabled uart newState = uart := by
  simp [flushDisabled, h.rxEnable, h.txEnable]

theorem feeds_configureLine (uart : EmUARTDragonball) (newState : State) (config : Config)
    (line : Line capacity) : line.Feeds (configureLine uart newState config line) [] := by
  apply Line.Feeds.of_same
  all_goals
    simp only [configureLine, Line.setRTS, Line.setConfig, Line.setBreak]
    split_ifs <;> rfl

theorem exists_stateChanged (clocks : Clocks) (c : Connected capacity) {newState : State}
    (h : Streaming newState) (hready : c.uart.Ready) {line : Line capacity}
    (hline : c.line = some line) (sendTxData : Bool) :
    ∃ state' c', stateChanged clocks c newState sendTxData = some (state', c') ∧
      c.Carries c' (if sendTxData then [newState.txData.setWidth 8] else []) [] := by
  let config := configFor clocks newState
  let configured : Connected capacity := ⟨c.uart, c.line.map (configureLine c.uart newState config)⟩
  have hconfigured : c.Carries configured [] [] :=
    .of_same _ (feeds_configureLine c.uart newState config) rfl rfl
  have hsent : ∃ sent,
      (if sendTxData && newState.uartEnable && newState.txEnable then
        sendTx clocks configured newState config else some configured) = some sent ∧
      configured.Carries sent (if sendTxData then [newState.txData.setWidth 8] else []) [] := by
    rw [h.uartEnable, h.txEnable]
    cases sendTxData with
    | false => exact ⟨configured, rfl, .refl configured⟩
    | true =>
      obtain ⟨line', hline', -⟩ := hconfigured line hline
      exact exists_sendTx clocks configured config hready hline' h.loop
  obtain ⟨sent, hsend, hcarries⟩ := hsent
  obtain ⟨state', c', taken, hupdate, hupdated, hlatched⟩ :=
    exists_updateState clocks sent h.char8_7 false
  have htaken : taken = [] := by
    simpa [latched] using hlatched
  subst htaken
  refine ⟨state', c', ?_, ?_⟩
  · rw [stateChanged, flushDisabled_of_streaming c.uart h]
    split_ifs at hsend ⊢
    all_goals
      rwa [hsend]
  · have hall := (hconfigured.trans hcarries).trans hupdated
    rwa [nil_append, append_nil] at hall

theorem carries_cycle (c : Connected capacity) (systemCycles : BitVec 64) (isSleeping stopped : Bool) :
    c.Carries (cycle c systemCycles isSleeping stopped) [] [] := by
  simp only [cycle]
  split
  · have hcycled : c.Carries ⟨{ c.uart with systemCycles }, c.line⟩ [] [] := .of_uart rfl rfl
    split
    · exact hcycled.trans (carries_updateTransactionState _ .idle)
    · exact hcycled
  · exact .refl c

theorem carries_setModeSync (c : Connected capacity) (sync : Bool) (systemCycles : BitVec 64) :
    c.Carries ⟨c.uart.setModeSync sync systemCycles, c.line⟩ [] [] := by
  rw [setModeSync]
  split
  · exact .refl c
  · exact .of_uart rfl rfl

end EmUARTDragonball

end Cloudpilot.Hardware.Uart
