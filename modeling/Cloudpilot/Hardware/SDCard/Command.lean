import Cloudpilot.Hardware.SDCard.Exchange

/-! # Multiblock reads

The card sends block after block, whatever the host sends meanwhile, until the countdown
of a CMD12 has run out.
-/

namespace Cloudpilot.Hardware.SDCard

open Cloudpilot.Library Cloudpilot.Common List Nat

theorem bytesOf_add (stream : ℕ → Byte) (m n : ℕ) :
    bytesOf stream (m + n) = bytesOf stream m ++ bytesOf (fun j => stream (j + m)) n := by
  simp only [bytesOf, range_add, map_append, map_map]
  congr 1
  apply map_congr_left
  intro j hj
  exact congrArg stream (add_comm m j)

theorem bytesOf_succ (stream : ℕ → Byte) (n : ℕ) :
    bytesOf stream (n + 1) = stream 0 :: bytesOf (fun j => stream (j + 1)) n := by
  rw [add_comm, bytesOf_add]
  rfl

theorem prepend_cons (byte : Byte) (bytes : List Byte) (stream : ℕ → Byte) :
    prepend (byte :: bytes) stream 0 = byte ∧
      (fun j => prepend (byte :: bytes) stream (j + 1)) = prepend bytes stream := by
  constructor
  · rfl
  · funext j
    simp [prepend]

theorem prepend_nil (stream : ℕ → Byte) : prepend [] stream = stream := by
  funext j
  rfl

theorem followingBlock_succ (total : ℕ) (start : Word) (i : ℕ) :
    followingBlock total (start + 1#32) i = followingBlock total start (i + 1) := by
  rw [followingBlock, followingBlock, BitVec.add_assoc, BitVec.add_comm 1#32,
    show BitVec.ofNat 32 (i + 1) = BitVec.ofNat 32 i + 1#32 from BitVec.ofNat_add i 1]

theorem blockStream_unit (device : Device) (total : ℕ) (start : Word)
    (hlength : ∀ block, (device block).length = 512) :
    blockStream device total start 0 = 0xff#8 ∧
      (fun j => blockStream device total start (j + 1)) =
        prepend (frame dataTokenDefault (device (followingBlock total start 0)))
          (blockStream device total (start + 1#32)) := by
  constructor
  · rfl
  · funext j
    have hframe : (frame dataTokenDefault (device (followingBlock total start 0))).length = 515 := by
      simp [hlength]
    rw [prepend, hframe]
    by_cases hj : j < 515
    · rw [if_pos hj, blockStream, show (j + 1) / 516 = 0 by omega, show (j + 1) % 516 = j + 1 by omega]
      rfl
    · rw [if_neg hj, blockStream, blockStream, followingBlock_succ,
        show (j + 1) / 516 = (j - 515) / 516 + 1 by omega,
        show (j + 1) % 516 = (j - 515) % 516 by omega]

/-- A multiblock read that has this stream still to send. -/
structure Streaming (image : CardImage) (s : SPISlaveSD) (stream : ℕ → Byte) : Prop where
  cardState : s.cardState = .multiblockRead
  acmd : s.acmd = false
  slot : s.slot = some image
  phase : (s.spiState = .txBlockWait ∧
      stream = blockStream (blockOf image) image.blocksTotal s.currentBlock) ∨
    ∃ bytes, bytes ≠ [] ∧ Sending s bytes ∧
      stream = prepend bytes (blockStream (blockOf image) image.blocksTotal s.currentBlock)

section Step

variable {s : SPISlaveSD} {image : CardImage} {stream : ℕ → Byte}

theorem blockOf_length (image : CardImage) (block : ℕ) : (blockOf image block).length = 512 :=
  bytesOf_length _ _

theorem read_blockOf {block : ℕ} (hblock : block < image.blocksTotal) :
    bytesOf (image.read uninitialized block 1).2 512 = blockOf image block :=
  bytesOf_congr fun _ hi => CardImage.read_one hblock hi

theorem nextRead_blockOf (hpos : image.blocksTotal ≠ 0) :
    nextRead s image = blockOf image (followingBlock image.blocksTotal s.currentBlock 0) := by
  have hzero : s.currentBlock + BitVec.ofNat 32 0 = s.currentBlock := BitVec.add_zero _
  rw [followingBlock, hzero, nextRead]
  exact read_blockOf (mod_lt _ (pos_of_ne_zero hpos))

theorem Streaming.step (h : Streaming image s stream) (hpos : image.blocksTotal ≠ 0) (data : Byte) :
    ∃ s', exchangeByte image s data = .ok (stream 0, s') ∧
      Streaming image s' (fun j => stream (j + 1)) ∧ s'.cmd12Countdown = s.cmd12Countdown := by
  rcases h.phase with ⟨hwait, rfl⟩ | ⟨bytes, hbytes, hsending, rfl⟩
  · obtain ⟨hfirst, hrest⟩ := blockStream_unit (blockOf image) image.blocksTotal s.currentBlock
      (blockOf_length image)
    have hread := doReadMultiblock_respond { s with spiState := .txData } hpos
    rw [exchangeByte_txBlockWait hwait, hread, hfirst]
    refine ⟨_, rfl, ?_, rfl⟩
    rw [hrest, ← nextRead_blockOf hpos]
    have hfits : (frame dataTokenDefault (nextRead s image)).length ≤ sizeofBuffer := by
      rw [frame_length, nextRead, bytesOf_length]
      decide
    exact ⟨h.cardState, h.acmd, h.slot, .inr ⟨frame dataTokenDefault (nextRead s image),
      cons_ne_nil _ _, respond_sending _ rfl hfits, rfl⟩⟩
  · cases bytes with
    | nil => exact absurd rfl hbytes
    | cons byte bytes =>
      obtain ⟨hexchange, hmore⟩ := hsending.step image data
      obtain ⟨hfirst, hrest⟩ := prepend_cons byte bytes
        (blockStream (blockOf image) image.blocksTotal s.currentBlock)
      rw [hfirst, hrest, hexchange]
      by_cases hlast : bytes = []
      · refine ⟨_, rfl, ?_, ?_⟩
        · rw [if_pos hlast, hlast, prepend_nil, afterTxData_read (by exact h.cardState)]
          exact ⟨h.cardState, h.acmd, h.slot, .inl ⟨rfl, rfl⟩⟩
        · rw [if_pos hlast, afterTxData_read (by exact h.cardState)]
      · refine ⟨_, rfl, ?_, ?_⟩
        · rw [if_neg hlast]
          exact ⟨h.cardState, h.acmd, h.slot, .inr ⟨bytes, hlast, hmore hlast, rfl⟩⟩
        · grind

def nextCountdown (countdown : ℕ) (data : Byte) : ℕ :=
  if data = 0x4c#8 then 6 else countdown - 1

theorem handleCmd12_running (hcountdown : s.cmd12Countdown ≠ 1) (data : Byte) :
    handleCmd12 s data =
      .ok { s with cmd12Countdown := nextCountdown s.cmd12Countdown data } := by
  rw [handleCmd12, if_neg (by dsimp only; omega), nextCountdown]
  split_ifs <;> rfl

theorem Streaming.setCountdown (h : Streaming image s stream) (countdown : ℕ) :
    Streaming image { s with cmd12Countdown := countdown } stream := by
  refine ⟨h.cardState, h.acmd, h.slot, ?_⟩
  rcases h.phase with hwait | ⟨bytes, hbytes, hsending, hstream⟩
  · grind
  · exact .inr ⟨bytes, hbytes, ⟨hsending.spiState, hsending.pending, hsending.fits, hsending.buffer⟩,
      hstream⟩

theorem Streaming.exchange (h : Streaming image s stream) (hpos : image.blocksTotal ≠ 0)
    (hcountdown : s.cmd12Countdown ≠ 1) (data : Byte) :
    ∃ s', doExchange8 s data = .ok (stream 0, s') ∧
      Streaming image s' (fun j => stream (j + 1)) ∧
      s'.cmd12Countdown = nextCountdown s.cmd12Countdown data := by
  obtain ⟨s', hexchange, hstreaming, hsame⟩ :=
    (h.setCountdown (nextCountdown s.cmd12Countdown data)).step hpos data
  refine ⟨s', ?_, hstreaming, hsame⟩
  rw [doExchange8, h.slot]
  dsimp only
  rwa [if_pos h.cardState, handleCmd12_running hcountdown]

/-- The countdown does not run out while the card takes these bytes. -/
def StaysRunning (countdown : ℕ) : List Byte → Prop
  | [] => True
  | data :: datas => countdown ≠ 1 ∧ StaysRunning (nextCountdown countdown data) datas

theorem StaysRunning.append {countdown : ℕ} {datas datas' : List Byte}
    (h : StaysRunning countdown datas)
    (h' : StaysRunning (datas.foldl nextCountdown countdown) datas') :
    StaysRunning countdown (datas ++ datas') := by
  induction datas generalizing countdown with
  | nil => exact h'
  | cons data datas ih => exact ⟨h.1, ih h.2 h'⟩

theorem staysRunning_zero {datas : List Byte} (h : ∀ data ∈ datas, data ≠ 0x4c#8) :
    StaysRunning 0 datas ∧ datas.foldl nextCountdown 0 = 0 := by
  induction datas with
  | nil => exact ⟨trivial, rfl⟩
  | cons data datas ih =>
    have hnext : nextCountdown 0 data = 0 := if_neg (h data mem_cons_self)
    have hrest := ih fun d hd => h d (mem_cons_of_mem _ hd)
    constructor
    · refine ⟨zero_ne_one, ?_⟩
      rw [hnext]
      exact hrest.1
    · grind

theorem staysRunning_lt {countdown : ℕ} {datas : List Byte} (hle : countdown ≤ 6)
    (hlt : datas.length < countdown) :
    StaysRunning countdown datas ∧ 1 ≤ datas.foldl nextCountdown countdown ∧
      datas.foldl nextCountdown countdown ≤ 6 := by
  induction datas generalizing countdown with
  | nil => exact ⟨trivial, one_le_of_lt hlt, hle⟩
  | cons data datas ih =>
    rw [length_cons] at hlt
    have hnext : nextCountdown countdown data ≤ 6 ∧
        datas.length < nextCountdown countdown data := by
      rw [nextCountdown]
      split_ifs <;> omega
    obtain ⟨hrunning, hbounds⟩ := ih hnext.1 hnext.2
    exact ⟨⟨by omega, hrunning⟩, hbounds⟩

theorem foldl_idleBytes (countdown count : ℕ) :
    (idleBytes count).foldl nextCountdown countdown = countdown - count := by
  induction count generalizing countdown with
  | zero => rfl
  | succ count ih =>
    have hidle : nextCountdown countdown 0xff#8 = countdown - 1 := if_neg (by decide)
    have hcons : idleBytes (count + 1) = 0xff#8 :: idleBytes count := rfl
    rw [hcons, foldl_cons, hidle, ih]
    omega

theorem Streaming.exchangeAll (h : Streaming image s stream) (hpos : image.blocksTotal ≠ 0)
    {datas : List Byte} (hrunning : StaysRunning s.cmd12Countdown datas) :
    ∃ s', exchangeAll s datas = .ok (bytesOf stream datas.length, s') ∧
      Streaming image s' (fun j => stream (j + datas.length)) ∧
      s'.cmd12Countdown = datas.foldl nextCountdown s.cmd12Countdown := by
  induction datas generalizing s stream with
  | nil => exact ⟨s, rfl, h, rfl⟩
  | cons data datas ih =>
    obtain ⟨hcountdown, hrest⟩ := hrunning
    obtain ⟨s₁, hexchange, hstreaming, hnext⟩ := h.exchange hpos hcountdown data
    rw [← hnext] at hrest
    obtain ⟨s', hall, hstreaming', hlast⟩ := ih hstreaming hrest
    refine ⟨s', ?_, ?_, ?_⟩
    · rw [length_cons, bytesOf_succ]
      exact exchangeAll_cons hexchange hall
    · omega
    · grind

theorem handleCmd12_stops (hcountdown : s.cmd12Countdown = 1) (data : Byte) :
    handleCmd12 s data = .ok (respond { s with
      cmd12Countdown := 0
      cardState := .initialized
      spiState := .txData } [0xff#8, 0x00#8]) := by
  rw [handleCmd12, if_pos ⟨by omega, by dsimp only; omega⟩, hcountdown]
  exact prepareR1_respond _ _

theorem Streaming.stop (h : Streaming image s stream) (hcountdown : s.cmd12Countdown = 1) :
    ∃ s', SDCard.exchangeAll s (idleBytes 2) = .ok ([0xff#8, 0x00#8], s') ∧ Ready image s' := by
  generalize hs₁ : respond { s with
    cmd12Countdown := 0
    cardState := .initialized
    spiState := .txData } [0xff#8, 0x00#8] = s₁
  have hcmd12 : handleCmd12 s 0xff#8 = .ok s₁ := by
    rw [← hs₁]
    exact handleCmd12_stops hcountdown _
  have hsending : Sending s₁ [0xff#8, 0x00#8] := by
    rw [← hs₁]
    exact respond_sending _ rfl (by decide)
  have hslot : s₁.slot = some image := by
    rw [← hs₁]
    exact h.slot
  have hstate : s₁.cardState = .initialized := by
    rw [← hs₁]
    rfl
  have hacmd : s₁.acmd = false := by
    rw [← hs₁]
    exact h.acmd
  have hread : s₁.cardState ≠ .multiblockRead := by
    rw [hstate]
    decide
  have hfirst : doExchange8 s 0xff#8 = doExchange8 s₁ 0xff#8 := by
    rw [doExchange8_mounted hslot hread, doExchange8, h.slot]
    dsimp only
    rw [if_pos h.cardState, hcmd12]
    rfl
  have hlength : (idleBytes 2).length = [0xff#8, 0x00#8].length := rfl
  have hall := hsending.exchangeAll (by simp) hlength hslot hread
  rw [afterTxData_initialized (by exact hstate)] at hall
  have hall' : SDCard.exchangeAll s (idleBytes 2) = SDCard.exchangeAll s₁ (idleBytes 2) := by
    change SDCard.exchangeAll s (0xff#8 :: idleBytes 1) = SDCard.exchangeAll s₁ (0xff#8 :: idleBytes 1)
    rw [SDCard.exchangeAll, SDCard.exchangeAll, hfirst]
  exact ⟨_, hall'.trans hall, rfl, hstate, hacmd, hslot⟩

end Step

section Waiting

variable {s : SPISlaveSD} {image : CardImage}

theorem idleBytes_add (m n : ℕ) : idleBytes (m + n) = idleBytes m ++ idleBytes n :=
  List.replicate_add m n _

structure Waiting (image : CardImage) (s : SPISlaveSD) : Prop where
  spiState : s.spiState = .rxBlockWait
  cardState : s.cardState = .writeTransaction ∨ s.cardState = .multiblockWrite
  acmd : s.acmd = false
  slot : s.slot = some image

theorem Waiting.notRead (h : Waiting image s) : s.cardState ≠ .multiblockRead := by
  rcases h.cardState with hstate | hstate <;> rw [hstate] <;> decide

theorem Waiting.idle (h : Waiting image s) (count : ℕ) :
    exchangeAll s (idleBytes count) = .ok (idleBytes count, s) := by
  apply exchangeAll_idle
  have hno : ¬ (0xff#8 = dataTokenDefault ∨
      (0xff#8 = dataTokenCmd25 ∧ s.cardState = .multiblockWrite)) := by
    rintro (h | ⟨h, -⟩) <;> cases h
  have hstop : ¬ (0xff#8 = dataTokenStop ∧ s.cardState = .multiblockWrite) := by
    rintro ⟨h, -⟩
    cases h
  rw [doExchange8_mounted h.slot h.notRead, exchangeByte_rxBlockWait h.spiState, waitForBlock,
    if_neg hno, if_neg hstop]

end Waiting

section Command

variable {s : SPISlaveSD} {image : CardImage}

/-- The state in which `DoCmd` finds the card. -/
def loaded (s : SPISlaveSD) (command : Byte) (argument : Word) (crc : Byte) : SPISlaveSD :=
  { s with
    lastCmd := command
    spiState := .rxArg
    buffer := Function.update (Buffer.copy s.buffer 0 (arrayOf (argumentBytes argument)) 4) 4 crc
    bufferSize := 5
    bufferIndex := 5 }

theorem paramBlock_loaded (s : SPISlaveSD) (command : Byte) (argument : Word) (crc : Byte) :
    paramBlock (loaded s command argument crc) = argument >>> 9 := by
  have hparam : param (loaded s command argument crc) =
      (argument >>> 24).setWidth 8 ++ (argument >>> 16).setWidth 8 ++
        (argument >>> 8).setWidth 8 ++ (argument >>> 24).setWidth 8 := rfl
  rw [paramBlock, hparam]
  apply BitVec.eq_of_getLsbD_eq
  intro i hi
  simp only [BitVec.getLsbD_ushiftRight, BitVec.getLsbD_append, BitVec.getLsbD_setWidth]
  interval_cases i <;> simp

theorem command_bits {command : Byte} (h : command < 64#8) :
    (0x40#8 ||| command) &&& 0xc0#8 = 0x40#8 ∧ (0x40#8 ||| command) &&& 0x3f#8 = command := by
  revert command
  decide +kernel

theorem exchangeAll_command (hslot : s.slot = some image) (hstate : s.spiState = .rxCmdByte)
    (hread : s.cardState ≠ .multiblockRead) {command : Byte} (hcommand : command < 64#8)
    {argument : Word} {crc : Byte} {s' : SPISlaveSD}
    (hcmd : doCmd image (loaded s command argument crc) = .ok s') :
    exchangeAll s (commandBytes command argument crc) =
      .ok (idleBytes 6, { s' with spiState := .txData }) := by
  obtain ⟨hcommandByte, hlastCmd⟩ := command_bits hcommand
  have hfirst : exchangeByte image s (0x40#8 ||| command) = _ :=
    exchangeByte_rxCmdByte hstate (0x40#8 ||| command)
  rw [if_pos hcommandByte, hlastCmd, ← doExchange8_mounted hslot hread] at hfirst
  have hargument := exchangeAll_store
    (s := bufferStart { s with lastCmd := command, spiState := .rxArg } 5) hslot hread (.inl rfl)
    (le_of_ble_eq_true rfl) (show 0 + (argumentBytes argument).length < 5 from le_of_ble_eq_true rfl)
  have hlast : doExchange8 { s with
      lastCmd := command
      spiState := .rxArg
      buffer := Buffer.copy s.buffer 0 (arrayOf (argumentBytes argument)) 4
      bufferSize := 5
      bufferIndex := 4 } crc = .ok (0xff#8, { s' with spiState := .txData }) := by
    rw [doExchange8_mounted (by exact hslot) (by exact hread),
      exchangeByte_lastArg rfl rfl (le_of_ble_eq_true rfl)]
    exact congrArg (Except.map fun s => (0xff#8, { s with spiState := .txData })) hcmd
  exact exchangeAll_cons hfirst (exchangeAll_append hargument (exchangeAll_cons hlast rfl))

theorem exchangeAll_response {values : List Byte} (hvalues : values ≠ [])
    (hfits : values.length ≤ sizeofBuffer) (hslot : s.slot = some image)
    (hread : s.cardState ≠ .multiblockRead) :
    exchangeAll { respond s values with spiState := .txData } (idleBytes values.length) =
      .ok (values, afterTxData { respond s values with
        spiState := .txData
        bufferIndex := (respond s values).bufferSize }) := by
  have hlength : (idleBytes values.length).length = values.length := length_replicate
  exact (respond_sending { s with spiState := .txData } rfl hfits).exchangeAll hvalues hlength hslot
    hread

end Command

section Blocks

variable {s : SPISlaveSD} {image : CardImage}

/-- The state in which a block is written. -/
def received (s : SPISlaveSD) (bytes : List Byte) (last : Byte) : SPISlaveSD :=
  { s with
    spiState := .rxBlock
    buffer := Function.update (Buffer.copy s.buffer 0 (arrayOf bytes) 513) 513 last
    bufferSize := 514
    bufferIndex := 514 }

theorem received_buffer (s : SPISlaveSD) {data : List Byte} (hdata : data.length = 512)
    (crcHigh crcLow : Byte) :
    bytesOf (received s (data ++ [crcHigh]) crcLow).buffer 512 = data := by
  have hbuffer : ∀ i < 512, (received s (data ++ [crcHigh]) crcLow).buffer i = arrayOf data i := by
    intro i hi
    have hne : i ≠ 513 := by omega
    dsimp only [received]
    rw [Function.update_of_ne hne, Buffer.copy_zero (by omega), arrayOf, arrayOf,
      getD_eq_getElem?_getD, getElem?_append_left (by omega),
      ← getD_eq_getElem?_getD]
  rw [bytesOf_congr hbuffer]
  apply ext_getElem
  · simp [hdata]
  · intro i hi hi'
    simp [bytesOf, arrayOf, hi']

theorem exchangeAll_block (h : Waiting image s) {token : Byte}
    (htoken : token = dataTokenDefault ∨
      (token = dataTokenCmd25 ∧ s.cardState = .multiblockWrite)) {data : List Byte}
    (hdata : data.length = 512) {crcHigh crcLow : Byte} {s' : SPISlaveSD}
    (hfinish : (if s.cardState = .multiblockWrite then
        finishWriteMultiblock image (received s (data ++ [crcHigh]) crcLow)
      else finishWriteSingleBlock image (received s (data ++ [crcHigh]) crcLow)) = .ok s') :
    exchangeAll s (token :: (data ++ [crcHigh, crcLow])) = .ok (idleBytes 515, s') := by
  have hstop : ¬ (token = dataTokenStop ∧ s.cardState = .multiblockWrite) := by
    rintro ⟨rfl, -⟩
    rcases htoken with htoken | ⟨htoken, -⟩ <;> cases htoken
  have hfirst : doExchange8 s token =
      .ok (0xff#8, bufferStart { s with spiState := .rxBlock } 514) := by
    rw [doExchange8_mounted h.slot h.notRead, exchangeByte_rxBlockWait h.spiState, waitForBlock,
      if_pos htoken]
    exact congrArg (fun s => Except.ok (0xff#8, s)) (if_neg hstop)
  have hlength : (data ++ [crcHigh]).length = 513 := by
    rw [length_append, hdata]
    rfl
  have hstore := exchangeAll_store (s := bufferStart { s with spiState := .rxBlock } 514)
    h.slot h.notRead (.inr rfl) (show 514 ≤ 550 by decide)
    (show 0 + (data ++ [crcHigh]).length < 514 by rw [hlength]; decide)
  rw [hlength] at hstore
  have hlast : doExchange8 { s with
      spiState := .rxBlock
      buffer := Buffer.copy s.buffer 0 (arrayOf (data ++ [crcHigh])) 513
      bufferSize := 514
      bufferIndex := 513 } crcLow = .ok (0xff#8, s') := by
    rw [doExchange8_mounted (by exact h.slot) (by exact h.notRead),
      exchangeByte_lastData rfl rfl (show 514 ≤ 550 by decide)]
    exact congrArg (Except.map fun s => (0xff#8, s)) hfinish
  have hnothing : exchangeAll s' [] = .ok ([], s') := rfl
  have hall := exchangeAll_cons hfirst
    (exchangeAll_append hstore (exchangeAll_cons hlast hnothing))
  have houts : idleBytes 515 = 0xff#8 :: (idleBytes 513 ++ [0xff#8]) := by
    rw [show 515 = 1 + (513 + 1) from rfl, idleBytes_add, idleBytes_add]
    rfl
  rw [append_assoc] at hall
  rwa [houts]

theorem write_count {block : ℕ} (hblock : block < image.blocksTotal) (source : ℕ → Byte) :
    (image.write source block 1).1 = 1 := by
  rw [CardImage.write, if_neg (by omega)]
  dsimp only
  omega

theorem blockOf_write {block : ℕ} (hblock : block < image.blocksTotal) (source : ℕ → Byte) :
    blockOf (image.write source block 1).2 =
      Function.update (blockOf image) block (bytesOf source 512) ∧
    (image.write source block 1).2.blocksTotal = image.blocksTotal := by
  rw [CardImage.write_one hblock]
  constructor
  · funext b
    by_cases hb : b = block
    · subst hb
      rw [Function.update_self]
      apply bytesOf_congr
      intro i hi
      dsimp only [CardImage.writeBlock]
      rw [Buffer.copy_inside (by omega) (by omega), Nat.sub_self, Nat.zero_mul, Nat.zero_add,
        Nat.add_sub_cancel_left]
    · rw [Function.update_of_ne hb]
      apply bytesOf_congr
      intro i hi
      dsimp only [CardImage.writeBlock]
      apply Buffer.copy_outside
      rw [blockSize] at hi ⊢
      rcases Nat.lt_or_gt_of_ne hb with hlt | hgt
      · left
        omega
      · right
        omega
  · rfl

end Blocks

end Cloudpilot.Hardware.SDCard
