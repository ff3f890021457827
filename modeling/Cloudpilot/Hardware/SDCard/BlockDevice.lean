import Cloudpilot.Hardware.SDCard.Command

/-! # The SD card as a block device

Every transaction that stays within the card is answered as a block device answers it, and
leaves the card ready for the next one.
-/
namespace Cloudpilot.Hardware.SDCard
open Cloudpilot.Library Cloudpilot.Common List

theorem blocksTotal_lt {blocksTotal : ℕ} (h : isSizeRepresentable blocksTotal) :
    blocksTotal < 2 ^ 21 := by
  rw [isSizeRepresentable, determineLayout, Option.isSome_iff_exists] at h
  obtain ⟨layout, hlayout⟩ := h
  rw [Option.bind_eq_some_iff] at hlayout
  obtain ⟨cSizeMult, hfind, -⟩ := hlayout
  have hmem := List.mem_range.mp (mem_of_find?_eq_some hfind)
  have hsmall : blocksTotal >>> (cSizeMult + 2) < 0x1000 := by grind
  rw [Nat.shiftRight_eq_div_pow, Nat.div_lt_iff_lt_mul (Nat.two_pow_pos _)] at hsmall
  have hpow : 2 ^ (cSizeMult + 2) ≤ 2 ^ 9 := Nat.pow_le_pow_right (by decide) (by omega)
  omega

/-- A transaction is carried out. -/
def Answers (image : CardImage) (s : SPISlaveSD) (t : Transaction) : Prop :=
  ∃ s' image', exchangeAll s t.bytes =
      .ok (t.response image.blocksTotal (blockOf image), s') ∧
    Ready image' s' ∧ image'.blocksTotal = image.blocksTotal ∧
    blockOf image' = t.apply (blockOf image)

section Transactions

variable {s t : SPISlaveSD} {image : CardImage} {command crc : Byte} {argument : Word}

/-- Waiting for a command. -/
structure Selected (image : CardImage) (s : SPISlaveSD) : Prop where
  spiState : s.spiState = .rxCmdByte
  cardState : s.cardState = .idle ∨ s.cardState = .initialized
  slot : s.slot = some image

theorem Selected.notRead (h : Selected image s) : s.cardState ≠ .multiblockRead := by
  rcases h.cardState with hstate | hstate <;> rw [hstate] <;> decide

theorem Ready.selected (h : Ready image s) : Selected image s :=
  ⟨h.spiState, .inr h.cardState, h.slot⟩

theorem Ready.notRead (h : Ready image s) : s.cardState ≠ .multiblockRead := h.selected.notRead

theorem Ready.loaded (h : Ready image s) (command : Byte) (argument : Word) (crc : Byte) :
    (loaded s command argument crc).cardState ≠ .idle ∧
      ¬ (loaded s command argument crc).acmd = true := by
  rw [SDCard.loaded, h.cardState, h.acmd]
  decide

theorem exchangeAll_responded (h : Selected image s) (hcommand : command < 64#8)
    {values : List Byte} (hvalues : values ≠ []) (hfits : values.length ≤ sizeofBuffer)
    (hcmd : doCmd image (loaded s command argument crc) = .ok (respond t values))
    (hslot : t.slot = some image) (hread : t.cardState ≠ .multiblockRead) :
    exchangeAll s (commandBytes command argument crc ++ idleBytes values.length) =
      .ok (idleBytes 6 ++ values, afterTxData { respond t values with
        spiState := .txData
        bufferIndex := (respond t values).bufferSize }) :=
  exchangeAll_append (exchangeAll_command h.slot h.spiState h.notRead hcommand hcmd)
    (exchangeAll_response hvalues hfits hslot hread)

theorem Selected.idle (h : Selected image s) (count : ℕ) :
    exchangeAll s (idleBytes count) = .ok (idleBytes count, s) := by
  apply exchangeAll_idle
  rw [doExchange8_mounted h.slot h.notRead, exchangeByte_rxCmdByte h.spiState, if_neg (by decide)]

theorem responded_selected (h : Selected image s) (hcommand : command < 64#8) {values : List Byte}
    (hvalues : values ≠ []) (hfits : values.length ≤ sizeofBuffer)
    (hcmd : doCmd image (loaded s command argument crc) = .ok (respond t values))
    (hslot : t.slot = some image) (hstate : t.cardState = .idle ∨ t.cardState = .initialized)
    (wait : ℕ) :
    ∃ s', exchangeAll s (commandBytes command argument crc ++ idleBytes (values.length + wait)) =
      .ok (idleBytes 6 ++ (values ++ idleBytes wait), s') ∧ Selected image s' ∧
      s'.cardState = t.cardState ∧ s'.acmd = t.acmd := by
  have hread : t.cardState ≠ .multiblockRead := by
    rcases hstate with hstate | hstate <;> rw [hstate] <;> decide
  have hresponse := exchangeAll_responded h hcommand hvalues hfits hcmd hslot hread
  rw [afterTxData_command (by exact hstate)] at hresponse
  have hselected : Selected image { respond t values with
      spiState := .rxCmdByte
      bufferIndex := (respond t values).bufferSize } := ⟨rfl, hstate, hslot⟩
  have hall := exchangeAll_append hresponse (hselected.idle wait)
  rw [append_assoc, append_assoc, ← idleBytes_add] at hall
  exact ⟨_, hall, hselected, rfl, rfl⟩

theorem responded_ready (h : Selected image s) (hcommand : command < 64#8) {values : List Byte}
    (hvalues : values ≠ []) (hfits : values.length ≤ sizeofBuffer)
    (hcmd : doCmd image (loaded s command argument crc) = .ok (respond t values))
    (hslot : t.slot = some image) (hstate : t.cardState = .initialized) (hacmd : t.acmd = false)
    (wait : ℕ) :
    ∃ s', exchangeAll s (commandBytes command argument crc ++ idleBytes (values.length + wait)) =
      .ok (idleBytes 6 ++ (values ++ idleBytes wait), s') ∧ Ready image s' := by
  obtain ⟨s', hall, hselected, hstate', hacmd'⟩ :=
    responded_selected h hcommand hvalues hfits hcmd hslot (.inr hstate) wait
  exact ⟨s', hall, hselected.spiState, hstate'.trans hstate, hacmd'.trans hacmd, hselected.slot⟩

theorem responded_waiting (h : Ready image s) (hcommand : command < 64#8)
    (hcmd : doCmd image (loaded s command argument crc) = .ok (respond t [0xff#8, 0x00#8]))
    (hslot : t.slot = some image)
    (hstate : t.cardState = .writeTransaction ∨ t.cardState = .multiblockWrite)
    (hacmd : t.acmd = false) (wait : ℕ) :
    ∃ s', exchangeAll s (commandBytes command argument crc ++ idleBytes (2 + wait)) =
      .ok (idleBytes 6 ++ ([0xff#8, 0x00#8] ++ idleBytes wait), s') ∧ Waiting image s' ∧
      s'.cardState = t.cardState ∧ s'.currentBlock = t.currentBlock := by
  have hread : t.cardState ≠ .multiblockRead := by
    rcases hstate with hstate | hstate <;> rw [hstate] <;> decide
  have hresponse := exchangeAll_responded h.selected hcommand (cons_ne_nil _ _) (by decide) hcmd
    hslot hread
  rw [afterTxData_write (by exact hstate)] at hresponse
  have hwaiting : Waiting image { respond t [0xff#8, 0x00#8] with
      spiState := .rxBlockWait
      bufferIndex := (respond t [0xff#8, 0x00#8]).bufferSize } := ⟨rfl, hstate, hacmd, hslot⟩
  have hall := exchangeAll_append hresponse (hwaiting.idle wait)
  rw [append_assoc, append_assoc, ← idleBytes_add] at hall
  exact ⟨_, hall, hwaiting, rfl, rfl⟩

theorem addressed_respond (h : Ready image s) (start : SPISlaveSD → SPISlaveSD)
    (hblock : addressedBlock argument < image.blocksTotal) :
    addressed image (loaded s command argument crc) start =
      .ok (respond (start (loaded s command argument crc)) [0xff#8, 0x00#8]) := by
  have hparam : ¬ (paramBlock (loaded s command argument crc)).toNat ≥ image.blocksTotal := by
    rw [paramBlock_loaded]
    exact not_le.mpr hblock
  rw [addressed, unlessIdle, if_neg (h.loaded command argument crc).1, if_neg hparam]
  exact prepareR1_respond _ _

theorem doReadSingleBlock_respond {s : SPISlaveSD} (hparam : paramBlock s = argument >>> 9)
    (hblock : addressedBlock argument < image.blocksTotal) :
    doReadSingleBlock image s = .ok (respond s ([0xff#8, 0x00#8, 0xff#8] ++
      frame dataTokenDefault (blockOf image (addressedBlock argument)))) := by
  have hcount : (image.read uninitialized (addressedBlock argument) 1).1 = 1 := by
    grind [CardImage.read]
  have hindex : (paramBlock (bufferStart s 0)).toNat = addressedBlock argument :=
    congrArg BitVec.toNat hparam
  rw [doReadSingleBlock]
  dsimp only
  rw [hindex, if_neg (not_not.mpr hcount), prepareBlock_respond _ _ le_rfl, read_blockOf hblock]
  rfl

theorem answers_readSingle (h : Ready image s) (crc : Byte) (wait : ℕ)
    (hblock : addressedBlock argument < image.blocksTotal) :
    Answers image s (.readSingle argument crc wait) := by
  obtain ⟨hidle, hacmd⟩ := h.loaded 17#8 argument crc
  have hcmd : doCmd image (loaded s 17#8 argument crc) = .ok (respond (loaded s 17#8 argument crc)
      ([0xff#8, 0x00#8, 0xff#8] ++
        frame dataTokenDefault (blockOf image (addressedBlock argument)))) := by
    rw [doCmd, if_neg hacmd]
    change unlessIdle (loaded s 17#8 argument crc) (doReadSingleBlock image _) = _
    rw [unlessIdle, if_neg hidle]
    exact doReadSingleBlock_respond (paramBlock_loaded s _ argument crc) hblock
  have hlength : ([0xff#8, 0x00#8, 0xff#8] ++
      frame dataTokenDefault (blockOf image (addressedBlock argument))).length = 518 := by
    simp [blockOf_length]
  obtain ⟨s', hall, hready⟩ := responded_ready h.selected (by decide) (by simp)
    (by rw [hlength]; decide) hcmd h.slot h.cardState h.acmd wait
  rw [hlength] at hall
  exact ⟨s', image, hall, hready, rfl, rfl⟩

theorem stopCountdown_bounds {stop : List Byte} (h : stop.length = 5) :
    1 ≤ stopCountdown stop ∧ stopCountdown stop ≤ 6 :=
  (staysRunning_lt le_rfl (by omega)).2

theorem staysRunning_stop {stop : List Byte} (hstop : stop.length = 5) (clocked : ℕ) :
    StaysRunning 0 (idleBytes clocked ++ (0x4c#8 :: stop ++ idleBytes (stopCountdown stop - 1))) ∧
      (idleBytes clocked ++ (0x4c#8 :: stop ++ idleBytes (stopCountdown stop - 1))).foldl
        nextCountdown 0 = 1 := by
  have hbounds := stopCountdown_bounds hstop
  have hidle : ∀ data ∈ idleBytes clocked, data ≠ 0x4c#8 := by
    intro data hdata
    rw [eq_of_mem_replicate hdata]
    decide
  obtain ⟨hclock, hzero⟩ := staysRunning_zero hidle
  have hlength : (idleBytes (stopCountdown stop - 1)).length < stopCountdown stop := by
    rw [idleBytes, length_replicate]
    omega
  have hset : (0x4c#8 :: stop).foldl nextCountdown 0 = stopCountdown stop := rfl
  have hcommand : StaysRunning 0 (0x4c#8 :: stop) :=
    ⟨Nat.zero_ne_one, (staysRunning_lt le_rfl (by omega)).1⟩
  constructor
  · apply hclock.append
    rw [hzero]
    apply hcommand.append
    exact (staysRunning_lt hbounds.2 hlength).1
  · rw [foldl_append, hzero, foldl_append, hset, foldl_idleBytes]
    omega

/-- What CMD18 changes before its response. -/
def readStart (s : SPISlaveSD) : SPISlaveSD :=
  { s with cardState := .multiblockRead, cmd12Countdown := 0, currentBlock := paramBlock s }

theorem readStart_streaming (h : Ready image s) :
    Streaming image { respond (readStart (loaded s 18#8 argument crc)) [0xff#8, 0x00#8] with
        spiState := .txData }
      (prepend [0xff#8, 0x00#8]
        (blockStream (blockOf image) image.blocksTotal (argument >>> 9))) := by
  refine ⟨rfl, h.acmd, h.slot, .inr ⟨_, cons_ne_nil _ _,
    respond_sending { readStart (loaded s 18#8 argument crc) with spiState := .txData } rfl
      (by decide), ?_⟩⟩
  rw [← paramBlock_loaded s 18#8 argument crc]
  rfl

theorem answers_readMulti (h : Ready image s) (crc : Byte) (clocked wait : ℕ) {stop : List Byte}
    (hblock : addressedBlock argument < image.blocksTotal) (hstop : stop.length = 5) :
    Answers image s (.readMulti argument crc clocked stop wait) := by
  have hpos : image.blocksTotal ≠ 0 := by omega
  have hcmd : doCmd image (loaded s 18#8 argument crc) =
      .ok (respond (readStart (loaded s 18#8 argument crc)) [0xff#8, 0x00#8]) := by
    rw [doCmd, if_neg (h.loaded 18#8 argument crc).2]
    exact addressed_respond h readStart hblock
  have hcommand := exchangeAll_command h.slot h.spiState h.notRead (by decide) hcmd
  obtain ⟨hrunning, hend⟩ := staysRunning_stop hstop clocked
  obtain ⟨s₁, hstream, hstreaming, hcountdown⟩ :=
    (readStart_streaming h).exchangeAll hpos hrunning
  obtain ⟨s₂, hstopped, hready⟩ := hstreaming.stop (hcountdown.trans hend)
  have hall := exchangeAll_append hcommand
    (exchangeAll_append hstream (exchangeAll_append hstopped (hready.selected.idle wait)))
  have hlength : (idleBytes clocked ++
      (0x4c#8 :: stop ++ idleBytes (stopCountdown stop - 1))).length =
        clocked + 6 + (stopCountdown stop - 1) := by
    simp only [idleBytes, length_append, length_cons, length_replicate, hstop]
    omega
  have hbytes : idleBytes (stopCountdown stop - 1) ++ (idleBytes 2 ++ idleBytes wait) =
      idleBytes (stopCountdown stop + 1 + wait) := by
    have hone := (stopCountdown_bounds hstop).1
    rw [← idleBytes_add, ← idleBytes_add]
    congr 1
    omega
  rw [hlength, append_assoc (idleBytes clocked), append_assoc (0x4c#8 :: stop),
    hbytes] at hall
  refine ⟨s₂, image, ?_, hready, rfl, rfl⟩
  rwa [Transaction.bytes, append_assoc (idleBytes clocked)]

theorem answers_writeSingle (h : Ready image s) (crc : Byte) (wait : ℕ) {block : DataBlock}
    (hblock : addressedBlock argument < image.blocksTotal) (hdata : block.data.length = 512)
    (htoken : block.token = dataTokenDefault) :
    Answers image s (.writeSingle argument crc wait block) := by
  have hcmd : doCmd image (loaded s 24#8 argument crc) =
      .ok (respond { loaded s 24#8 argument crc with
        cardState := .writeTransaction
        currentBlock := paramBlock (loaded s 24#8 argument crc) } [0xff#8, 0x00#8]) := by
    rw [doCmd, if_neg (h.loaded 24#8 argument crc).2]
    exact addressed_respond h (fun s =>
      { s with cardState := .writeTransaction, currentBlock := paramBlock s }) hblock
  obtain ⟨s₁, hcommand, hwaiting, hstate, hcurrent⟩ :=
    responded_waiting h (by decide) hcmd h.slot (.inl rfl) h.acmd wait
  have hwrite : s₁.cardState ≠ .multiblockWrite := by simp [hstate]
  have hindex : s₁.currentBlock.toNat = addressedBlock argument := by
    rw [hcurrent]
    exact congrArg BitVec.toNat (paramBlock_loaded s 24#8 argument crc)
  generalize hs₂ : received s₁ (block.data ++ [block.crcHigh]) block.crcLow = s₂
  have hindex₂ : s₂.currentBlock.toNat = addressedBlock argument := by
    rwa [← hs₂]
  have hbuffer : bytesOf s₂.buffer 512 = block.data := by
    rw [← hs₂]
    exact received_buffer s₁ hdata block.crcHigh block.crcLow
  have hacmd : s₂.acmd = false := by
    rw [← hs₂]
    exact hwaiting.acmd
  have hfinish := finishWriteSingleBlock_respond s₂ image
  rw [hindex₂, write_count hblock] at hfinish
  obtain ⟨hcontents, htotal⟩ := blockOf_write hblock s₂.buffer
  generalize (image.write s₂.buffer (addressedBlock argument) 1).2 = image' at *
  rw [← hs₂] at hfinish
  have hreceived := exchangeAll_block hwaiting (.inl htoken) hdata
    ((if_neg hwrite).trans hfinish)
  rw [hs₂] at hreceived
  have hfits : [dataResponseAccepted, 0xff#8].length ≤ sizeofBuffer := by decide
  have hresponse := exchangeAll_response (s := { s₂ with
      slot := some image'
      cardState := .initialized
      spiState := .txData }) (cons_ne_nil _ _) hfits rfl CardState.noConfusion
  have hready : Ready image' { respond { s₂ with
      slot := some image'
      cardState := .initialized
      spiState := .txData } [dataResponseAccepted, 0xff#8] with
      spiState := .rxCmdByte
      bufferIndex := 2 } := ⟨rfl, rfl, hacmd, rfl⟩
  have hblockAll := exchangeAll_append hreceived
    (exchangeAll_append hresponse (hready.selected.idle block.wait))
  rw [← idleBytes_add] at hblockAll
  have hall := exchangeAll_append hcommand hblockAll
  exact ⟨_, image', hall, hready, htotal, by rw [hcontents, hbuffer]; rfl⟩

/-- Within a CMD25, at this block. -/
structure WritingAt (image : CardImage) (s : SPISlaveSD) (start : ℕ) : Prop where
  waiting : Waiting image s
  cardState : s.cardState = .multiblockWrite
  currentBlock : s.currentBlock.toNat = start

theorem WritingAt.exchangeAll_block {start : ℕ} (h : WritingAt image s start)
    (hrepresentable : isSizeRepresentable image.blocksTotal) (hblock : start < image.blocksTotal)
    {block : DataBlock} (hdata : block.data.length = 512)
    (htoken : block.token = dataTokenCmd25 ∨ block.token = dataTokenDefault) :
    ∃ s' image', exchangeAll s block.bytes = .ok (block.response, s') ∧
      WritingAt image' s' (start + 1) ∧ image'.blocksTotal = image.blocksTotal ∧
      blockOf image' = Function.update (blockOf image) start block.data := by
  have htokens : block.token = dataTokenDefault ∨
      (block.token = dataTokenCmd25 ∧ s.cardState = .multiblockWrite) :=
    htoken.symm.imp_right fun htoken => ⟨htoken, h.cardState⟩
  generalize hs₂ : received s (block.data ++ [block.crcHigh]) block.crcLow = s₂
  have hcurrent : s₂.currentBlock.toNat = start := by
    rw [← hs₂]
    exact h.currentBlock
  have hbuffer : bytesOf s₂.buffer 512 = block.data := by
    rw [← hs₂]
    exact received_buffer s hdata block.crcHigh block.crcLow
  have hstate : s₂.cardState = .multiblockWrite := by
    rw [← hs₂]
    exact h.cardState
  have hacmd : s₂.acmd = false := by
    rw [← hs₂]
    exact h.waiting.acmd
  have hfinish := finishWriteMultiblock_respond s₂ (Nat.ne_zero_of_lt hblock)
  rw [hcurrent, Nat.mod_eq_of_lt hblock] at hfinish
  obtain ⟨hcontents, htotal⟩ := blockOf_write hblock s₂.buffer
  generalize (image.write s₂.buffer start 1).2 = image' at *
  rw [← hs₂] at hfinish
  have hreceived := SDCard.exchangeAll_block h.waiting htokens hdata
    ((if_pos h.cardState).trans hfinish)
  rw [hs₂] at hreceived
  have hfits : [dataResponseAccepted, 0xff#8].length ≤ sizeofBuffer := by decide
  have hread : s₂.cardState ≠ .multiblockRead := by
    rw [hstate]
    decide
  have hresponse := exchangeAll_response (s := { s₂ with
      currentBlock := s₂.currentBlock + 1#32
      slot := some image'
      spiState := .txData }) (cons_ne_nil _ _) hfits rfl hread
  rw [afterTxData_write (by exact .inr hstate)] at hresponse
  have hwaiting : Waiting image' { respond { s₂ with
      currentBlock := s₂.currentBlock + 1#32
      slot := some image'
      spiState := .txData } [dataResponseAccepted, 0xff#8] with
      spiState := .rxBlockWait
      bufferIndex := 2 } := ⟨rfl, .inr hstate, hacmd, rfl⟩
  have hnext : (s₂.currentBlock + 1#32).toNat = start + 1 := by
    have hsmall := blocksTotal_lt hrepresentable
    rw [BitVec.toNat_add, hcurrent]
    exact Nat.mod_eq_of_lt (show start + 1 < 2 ^ 32 by omega)
  have hall := exchangeAll_append hreceived
    (exchangeAll_append hresponse (hwaiting.idle block.wait))
  rw [← idleBytes_add] at hall
  exact ⟨_, image', hall, ⟨hwaiting, hstate, hnext⟩, htotal, by rw [hcontents, hbuffer]⟩

theorem WritingAt.exchangeAll_blocks {start : ℕ} (h : WritingAt image s start)
    (hrepresentable : isSizeRepresentable image.blocksTotal) {blocks : List DataBlock}
    (hwithin : start + blocks.length ≤ image.blocksTotal)
    (hblocks : ∀ block ∈ blocks, block.data.length = 512 ∧
      (block.token = dataTokenCmd25 ∨ block.token = dataTokenDefault)) :
    ∃ s' image', exchangeAll s (blocks.flatMap DataBlock.bytes) =
        .ok (blocks.flatMap DataBlock.response, s') ∧
      WritingAt image' s' (start + blocks.length) ∧ image'.blocksTotal = image.blocksTotal ∧
      blockOf image' = writeBlocks (blockOf image) start blocks := by
  induction blocks generalizing s image start with
  | nil => exact ⟨s, image, rfl, h, rfl, rfl⟩
  | cons block blocks ih =>
    rw [length_cons] at hwithin
    obtain ⟨hdata, htoken⟩ := hblocks block mem_cons_self
    obtain ⟨s₁, image₁, hblock, hwriting, htotal, hcontents⟩ :=
      h.exchangeAll_block hrepresentable (by omega) hdata htoken
    obtain ⟨s', image', hrest, hwriting', htotal', hcontents'⟩ :=
      ih hwriting (by rw [htotal]; exact hrepresentable) (by omega)
        fun block hmem => hblocks block (mem_cons_of_mem _ hmem)
    refine ⟨s', image', ?_, ?_, htotal'.trans htotal, ?_⟩
    · exact exchangeAll_append hblock hrest
    · grind
    · rw [hcontents', hcontents, writeBlocks]

theorem WritingAt.exchangeAll_stop {start : ℕ} (h : WritingAt image s start) (wait : ℕ) :
    ∃ s', exchangeAll s (dataTokenStop :: idleBytes wait) = .ok (0xff#8 :: idleBytes wait, s') ∧
      Ready image s' := by
  have hno : ¬ (dataTokenStop = dataTokenDefault ∨
      (dataTokenStop = dataTokenCmd25 ∧ s.cardState = .multiblockWrite)) := by
    rintro (h | ⟨h, -⟩) <;> cases h
  have hstop : doExchange8 s dataTokenStop =
      .ok (0xff#8, { s with cardState := .initialized, spiState := .rxCmdByte }) := by
    rw [doExchange8_mounted h.waiting.slot h.waiting.notRead,
      exchangeByte_rxBlockWait h.waiting.spiState, waitForBlock, if_neg hno]
    exact congrArg (fun s => Except.ok (0xff#8, s)) (if_pos ⟨rfl, h.cardState⟩)
  have hready : Ready image { s with cardState := .initialized, spiState := .rxCmdByte } :=
    ⟨rfl, rfl, h.waiting.acmd, h.waiting.slot⟩
  exact ⟨_, exchangeAll_cons hstop (hready.selected.idle wait), hready⟩

theorem answers_writeMulti (h : Ready image s) (hrepresentable : isSizeRepresentable image.blocksTotal)
    (crc : Byte) (wait waitEnd : ℕ) {blocks : List DataBlock}
    (hblock : addressedBlock argument < image.blocksTotal)
    (hwithin : addressedBlock argument + blocks.length ≤ image.blocksTotal)
    (hblocks : ∀ block ∈ blocks, block.data.length = 512 ∧
      (block.token = dataTokenCmd25 ∨ block.token = dataTokenDefault)) :
    Answers image s (.writeMulti argument crc wait blocks waitEnd) := by
  have hcmd : doCmd image (loaded s 25#8 argument crc) =
      .ok (respond { loaded s 25#8 argument crc with
        cardState := .multiblockWrite
        currentBlock := paramBlock (loaded s 25#8 argument crc) } [0xff#8, 0x00#8]) := by
    rw [doCmd, if_neg (h.loaded 25#8 argument crc).2]
    exact addressed_respond h (fun s =>
      { s with cardState := .multiblockWrite, currentBlock := paramBlock s }) hblock
  obtain ⟨s₁, hcommand, hwaiting, hstate, hcurrent⟩ :=
    responded_waiting h (by decide) hcmd h.slot (.inr rfl) h.acmd wait
  have hindex : s₁.currentBlock.toNat = addressedBlock argument := by
    rw [hcurrent]
    exact congrArg BitVec.toNat (paramBlock_loaded s 25#8 argument crc)
  have hwriting : WritingAt image s₁ (addressedBlock argument) := ⟨hwaiting, hstate, hindex⟩
  obtain ⟨s₂, image', hwritten, hwriting', htotal, hcontents⟩ :=
    hwriting.exchangeAll_blocks hrepresentable hwithin hblocks
  obtain ⟨s', hstopped, hready⟩ := hwriting'.exchangeAll_stop waitEnd
  have hall := exchangeAll_append hcommand (exchangeAll_append hwritten hstopped)
  exact ⟨s', image', hall, hready, htotal, hcontents⟩

theorem Ready.answers (h : Ready image s) (hrepresentable : isSizeRepresentable image.blocksTotal)
    {t : Transaction} (hvalid : t.Valid image.blocksTotal) : Answers image s t := by
  cases t with
  | readSingle argument crc wait => exact answers_readSingle h crc wait hvalid
  | readMulti argument crc clocked stop wait =>
    exact answers_readMulti h crc clocked wait hvalid.1 hvalid.2
  | writeSingle argument crc wait block =>
    exact answers_writeSingle h crc wait hvalid.1 hvalid.2.1 hvalid.2.2
  | writeMulti argument crc wait blocks waitEnd =>
    exact answers_writeMulti h hrepresentable crc wait waitEnd hvalid.1 hvalid.2.1 hvalid.2.2

theorem Ready.exchangeAll_transactions (h : Ready image s)
    (hrepresentable : isSizeRepresentable image.blocksTotal) {ts : List Transaction}
    (hvalid : ∀ t ∈ ts, t.Valid image.blocksTotal) :
    ∃ s' image', exchangeAll s (ts.flatMap Transaction.bytes) =
        .ok (responses image.blocksTotal (blockOf image) ts, s') ∧
      Ready image' s' ∧ image'.blocksTotal = image.blocksTotal ∧
      blockOf image' = contents (blockOf image) ts := by
  induction ts generalizing s image with
  | nil =>
    refine ⟨s, image, rfl, h, rfl, ?_⟩
    rw [contents, foldl_nil]
  | cons t ts ih =>
    obtain ⟨s₁, image₁, hanswer, hready, htotal, hcontents⟩ :=
      h.answers hrepresentable (hvalid t mem_cons_self)
    obtain ⟨s', image', hrest, hready', htotal', hcontents'⟩ :=
      ih hready (by rw [htotal]; exact hrepresentable)
        fun t ht => by rw [htotal]; exact hvalid t (mem_cons_of_mem _ ht)
    refine ⟨s', image', ?_, hready', htotal'.trans htotal, ?_⟩
    · rw [htotal, hcontents] at hrest
      exact exchangeAll_append hanswer hrest
    · rw [hcontents', hcontents, contents, contents, foldl_cons]

end Transactions

end Cloudpilot.Hardware.SDCard
