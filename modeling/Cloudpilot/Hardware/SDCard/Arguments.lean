import Cloudpilot.Hardware.SDCard.Initialization

/-! # The arguments of commands

The four bytes behind a command byte are put together again in `Param`, with the first one in
the place of the last one. The number of a block does not depend on the last byte, but the
length of a block does. A card that is still in a multiblock read may lose a command to
the countdown of an earlier CMD12.
-/

namespace Cloudpilot.Hardware.SDCard

open Cloudpilot.Library Cloudpilot.Common List Nat

/-- Past idle, and waiting for a command. -/
structure Commandable (image : CardImage) (s : SPISlaveSD) : Prop where
  spiState : s.spiState = .rxCmdByte
  cardState : s.cardState ≠ .idle
  acmd : s.acmd = false
  slot : s.slot = some image

def Takes (s : SPISlaveSD) (command : Byte) (argument : Word) (crc : Byte) (s' : SPISlaveSD) : Prop :=
  ∃ outs, exchangeAll s (commandBytes command argument crc) = .ok (outs, s')

/-- A block is addressed, or a parameter error is the answer. -/
def Addresses (image : CardImage) (s : SPISlaveSD) (command : Byte) (cardState : CardState)
    (argument : Word) (crc : Byte) : Prop :=
  ∃ s', Takes s command argument crc s' ∧
    if addressedBlock argument < image.blocksTotal then
      Sending s' [0xff#8, 0x00#8] ∧ s'.cardState = cardState ∧ s'.currentBlock = argument >>> 9
    else Sending s' [0xff#8, errParameter]

structure DecodesArgument (image : CardImage) (s : SPISlaveSD) (argument : Word) (crc : Byte) :
    Prop where
  setBlockLen : ∃ s' flags, Takes s 16#8 argument crc s' ∧ Sending s' [0xff#8, flags] ∧
    (flags = 0x00#8 ↔ argument = 512#32)
  readSingle : ∃ s', Takes s 17#8 argument crc s' ∧
    if addressedBlock argument < image.blocksTotal then
      Sending s' ([0xff#8, 0x00#8, 0xff#8] ++
        frame dataTokenDefault (blockOf image (addressedBlock argument)))
    else Sending s' [0xff#8, errParameter]
  readMulti : Addresses image s 18#8 .multiblockRead argument crc
  writeSingle : Addresses image s 24#8 .writeTransaction argument crc
  writeMulti : Addresses image s 25#8 .multiblockWrite argument crc

/-- No countdown that is still running ends within the command. -/
def KeepsCommand (s : SPISlaveSD) (argument : Word) (crc : Byte) : Prop :=
  s.cardState = .multiblockRead → StaysRunning s.cmd12Countdown (commandBytes 16#8 argument crc)

section Bytes

variable {s : SPISlaveSD} {image : CardImage} {datas : List Byte}

theorem doExchange8_running (hslot : s.slot = some image) (hread : s.cardState = .multiblockRead)
    (hcountdown : s.cmd12Countdown ≠ 1) (data : Byte) : doExchange8 s data =
      exchangeByte image { s with cmd12Countdown := nextCountdown s.cmd12Countdown data } data := by
  have hwatched : doExchange8 s data = handleCmd12 s data >>= fun s => exchangeByte image s data := by
    rw [doExchange8, hslot]
    dsimp only
    rw [if_pos hread]
  rw [hwatched, handleCmd12_running hcountdown]
  rfl

theorem exchangeAll_storeRead (hslot : s.slot = some image) (hread : s.cardState = .multiblockRead)
    (hstate : s.spiState = .rxArg) (hfits : s.bufferSize ≤ sizeofBuffer)
    (hmore : s.bufferIndex + datas.length < s.bufferSize)
    (hrun : StaysRunning s.cmd12Countdown datas) :
    exchangeAll s datas = .ok (idleBytes datas.length, { s with
      buffer := Buffer.copy s.buffer s.bufferIndex (arrayOf datas) datas.length
      bufferIndex := s.bufferIndex + datas.length
      cmd12Countdown := datas.foldl nextCountdown s.cmd12Countdown }) := by
  induction datas generalizing s with
  | nil =>
    have hbuffer : Buffer.copy s.buffer s.bufferIndex (arrayOf []) 0 = s.buffer := by
      funext i
      exact Buffer.copy_outside (by omega)
    rw [length_nil, hbuffer]
    rfl
  | cons data datas ih =>
    rw [length_cons] at hmore
    have hbyte := doExchange8_running hslot hread hrun.1 data
    rw [exchangeByte_store (s := { s with
      cmd12Countdown := nextCountdown s.cmd12Countdown data }) (.inl hstate) (by dsimp only; omega)
      hfits] at hbyte
    have hrest := ih (s := { s with
      buffer := Function.update s.buffer s.bufferIndex data
      bufferIndex := s.bufferIndex + 1
      cmd12Countdown := nextCountdown s.cmd12Countdown data }) hslot hread hstate hfits
      (by dsimp only; omega) hrun.2
    rw [copy_cons] at hrest
    have hindex : s.bufferIndex + 1 + datas.length = s.bufferIndex + (datas.length + 1) := by omega
    have hall := exchangeAll_cons hbyte hrest
    rwa [hindex] at hall

theorem staysRunning_command {command : Byte} (hcommand : 0x40#8 ||| command ≠ 0x4c#8)
    {countdown : ℕ} {argument : Word} {crc : Byte}
    (h : StaysRunning countdown (commandBytes 16#8 argument crc)) :
    StaysRunning countdown (commandBytes command argument crc) := by
  have hnext : nextCountdown countdown (0x40#8 ||| command) =
      nextCountdown countdown (0x40#8 ||| 16#8) := by
    rw [nextCountdown, if_neg hcommand, nextCountdown, if_neg (by decide)]
  refine ⟨h.1, ?_⟩
  rw [hnext]
  exact h.2

theorem StaysRunning.of_append {countdown : ℕ} {datas' : List Byte}
    (h : StaysRunning countdown (datas ++ datas')) :
    StaysRunning countdown datas ∧ StaysRunning (datas.foldl nextCountdown countdown) datas' := by
  induction datas generalizing countdown with
  | nil => exact ⟨trivial, h⟩
  | cons data datas ih =>
    obtain ⟨hdatas, hdatas'⟩ := ih h.2
    exact ⟨⟨h.1, hdatas⟩, hdatas'⟩

theorem exchangeAll_commandRead (hslot : s.slot = some image) (hstate : s.spiState = .rxCmdByte)
    (hread : s.cardState = .multiblockRead) {command : Byte} (hcommand : command < 64#8)
    {argument : Word} {crc : Byte} {s' : SPISlaveSD}
    (hrun : StaysRunning s.cmd12Countdown (commandBytes command argument crc))
    (hcmd : doCmd image { loaded s command argument crc with
      cmd12Countdown := (commandBytes command argument crc).foldl nextCountdown s.cmd12Countdown } =
        .ok s') :
    exchangeAll s (commandBytes command argument crc) =
      .ok (idleBytes 6, { s' with spiState := .txData }) := by
  obtain ⟨hcommandByte, hlastCmd⟩ := command_bits hcommand
  obtain ⟨hcountdown, hrest⟩ := hrun
  obtain ⟨hargumentRun, hlastRun⟩ := StaysRunning.of_append hrest
  have hfirst := doExchange8_running hslot hread hcountdown (0x40#8 ||| command)
  rw [exchangeByte_rxCmdByte (by exact hstate), if_pos hcommandByte, hlastCmd] at hfirst
  have hfour : 0 + (argumentBytes argument).length < 5 := le_of_ble_eq_true rfl
  have hargument := exchangeAll_storeRead
    (s := bufferStart { s with
      lastCmd := command
      spiState := .rxArg
      cmd12Countdown := nextCountdown s.cmd12Countdown (0x40#8 ||| command) } 5) hslot hread rfl
    (le_of_ble_eq_true rfl) hfour hargumentRun
  have hlast : doExchange8 { s with
      lastCmd := command
      spiState := .rxArg
      buffer := Buffer.copy s.buffer 0 (arrayOf (argumentBytes argument)) 4
      bufferSize := 5
      bufferIndex := 4
      cmd12Countdown := (argumentBytes argument).foldl nextCountdown
        (nextCountdown s.cmd12Countdown (0x40#8 ||| command)) } crc =
      .ok (0xff#8, { s' with spiState := .txData }) := by
    rw [doExchange8_running (by exact hslot) (by exact hread) (by exact hlastRun.1),
      exchangeByte_lastArg rfl rfl (le_of_ble_eq_true rfl)]
    exact congrArg (Except.map fun s => (0xff#8, { s with spiState := .txData })) hcmd
  exact exchangeAll_cons hfirst (exchangeAll_append hargument (exchangeAll_cons hlast rfl))

end Bytes

section Commands

variable {s t : SPISlaveSD} {image : CardImage} {command : Byte} {argument : Word} {crc : Byte}

theorem respond_sent (t : SPISlaveSD) {values : List Byte} (hfits : values.length ≤ sizeofBuffer) :
    Sending { respond t values with spiState := .txData } values :=
  respond_sending { t with spiState := .txData } rfl hfits

theorem toNat_append_byte {w : ℕ} (high : BitVec w) (low : Byte) :
    (high ++ low).toNat = high.toNat * 256 + low.toNat := by
  rw [BitVec.toNat_append, shiftLeft_eq, mul_comm, ← two_pow_add_eq_or_of_lt low.isLt]

theorem param_loaded_eq (s : SPISlaveSD) (command : Byte) (argument : Word) (crc : Byte) :
    param (loaded s command argument crc) = 512#32 ↔ 512#32 ≤ argument ∧ argument < 768#32 := by
  have hparam : param (loaded s command argument crc) =
      (argument >>> 24).setWidth 8 ++ (argument >>> 16).setWidth 8 ++
        (argument >>> 8).setWidth 8 ++ (argument >>> 24).setWidth 8 := rfl
  rw [hparam, ← BitVec.toNat_inj, toNat_append_byte, toNat_append_byte, toNat_append_byte,
    BitVec.le_def, BitVec.lt_def]
  simp [BitVec.toNat_ofNat]
  omega

/-- The state in which `DoCmd` finds the card, whatever has become of the countdown. -/
structure Loaded (command : Byte) (argument : Word) (t : SPISlaveSD) : Prop where
  acmd : t.acmd = false
  lastCmd : t.lastCmd = command
  cardState : t.cardState ≠ .idle
  param : param t = 512#32 ↔ 512#32 ≤ argument ∧ argument < 768#32
  paramBlock : paramBlock t = argument >>> 9

section

variable (h : Commandable image s)

include h

theorem Commandable.takes (hkeeps : KeepsCommand s argument crc) (hcommand : command < 64#8)
    (hother : 0x40#8 ||| command ≠ 0x4c#8) :
    ∃ t, Loaded command argument t ∧ ∀ s', doCmd image t = .ok s' →
      Takes s command argument crc { s' with spiState := .txData } := by
  have hparam := param_loaded_eq s command argument crc
  have hblock := paramBlock_loaded s command argument crc
  by_cases hread : s.cardState = .multiblockRead
  · exact ⟨{ loaded s command argument crc with
      cmd12Countdown := (commandBytes command argument crc).foldl nextCountdown s.cmd12Countdown },
      ⟨h.acmd, rfl, h.cardState, hparam, hblock⟩, fun s' hcmd => ⟨_, exchangeAll_commandRead
        h.slot h.spiState hread hcommand (staysRunning_command hother (hkeeps hread)) hcmd⟩⟩
  · exact ⟨loaded s command argument crc, ⟨h.acmd, rfl, h.cardState, hparam, hblock⟩, fun s' hcmd =>
      ⟨_, exchangeAll_command h.slot h.spiState hread hcommand hcmd⟩⟩

theorem Commandable.setBlockLen (hkeeps : KeepsCommand s argument crc) :
    ∃ s', Takes s 16#8 argument crc s' ∧ Sending s'
      [0xff#8, if 512#32 ≤ argument ∧ argument < 768#32 then 0x00#8 else errParameter] := by
  obtain ⟨t, hloaded, htakes⟩ := h.takes hkeeps (show 16#8 < 64#8 by decide) (by decide)
  have hcmd : doCmd image t = .ok (respond t
      [0xff#8, if 512#32 ≤ argument ∧ argument < 768#32 then 0x00#8 else errParameter]) := by
    have hunfold : doCmd image t =
        unlessIdle t (prepareR1 t (if param t ≠ 512#32 then errParameter else 0x00#8)) := by
      rw [doCmd, if_neg (Bool.eq_false_iff.mp hloaded.acmd), hloaded.lastCmd]
      rfl
    rw [hunfold, unlessIdle, if_neg hloaded.cardState, prepareR1_respond]
    by_cases hrange : 512#32 ≤ argument ∧ argument < 768#32
    · rw [if_neg (not_not.mpr (hloaded.param.mpr hrange)), if_pos hrange]
      rfl
    · rw [if_pos (fun heq => hrange (hloaded.param.mp heq)), if_neg hrange]
      rfl
  exact ⟨_, htakes _ hcmd, respond_sent t (le_of_ble_eq_true rfl)⟩

theorem Commandable.readSingle (hkeeps : KeepsCommand s argument crc) :
    ∃ s', Takes s 17#8 argument crc s' ∧
      if addressedBlock argument < image.blocksTotal then
        Sending s' ([0xff#8, 0x00#8, 0xff#8] ++
          frame dataTokenDefault (blockOf image (addressedBlock argument)))
      else Sending s' [0xff#8, errParameter] := by
  obtain ⟨t, hloaded, htakes⟩ := h.takes hkeeps (show 17#8 < 64#8 by decide) (by decide)
  have hcmd : doCmd image t = doReadSingleBlock image t := by
    rw [doCmd, if_neg (Bool.eq_false_iff.mp hloaded.acmd), hloaded.lastCmd]
    exact if_neg hloaded.cardState
  by_cases hwithin : addressedBlock argument < image.blocksTotal
  · rw [doReadSingleBlock_respond hloaded.paramBlock hwithin] at hcmd
    refine ⟨_, htakes _ hcmd, ?_⟩
    rw [if_pos hwithin]
    exact respond_sent t (by rw [length_append, frame_length, blockOf_length]; decide)
  · have hcount : (image.read uninitialized (addressedBlock argument) 1).1 ≠ 1 := by
      rw [CardImage.read, if_pos (not_lt.mp hwithin)]
      exact zero_ne_one
    have hindex : (paramBlock (bufferStart t 0)).toNat = addressedBlock argument :=
      congrArg BitVec.toNat hloaded.paramBlock
    rw [doReadSingleBlock] at hcmd
    dsimp only at hcmd
    rw [hindex, if_pos hcount, prepareR1_respond] at hcmd
    refine ⟨_, htakes _ hcmd, ?_⟩
    rw [if_neg hwithin]
    exact respond_sent (bufferStart t 0) (le_of_ble_eq_true rfl)

theorem Commandable.addresses (hkeeps : KeepsCommand s argument crc) (hcommand : command < 64#8)
    (hother : 0x40#8 ||| command ≠ 0x4c#8) {cardState : CardState} {start : SPISlaveSD → SPISlaveSD}
    (hcmd : ∀ t, Loaded command argument t → doCmd image t = addressed image t start)
    (hstart : ∀ t, (start t).cardState = cardState ∧ (start t).currentBlock = paramBlock t) :
    Addresses image s command cardState argument crc := by
  obtain ⟨t, hloaded, htakes⟩ := h.takes hkeeps hcommand hother
  have haddressed : doCmd image t = if addressedBlock argument ≥ image.blocksTotal then
      prepareR1 t errParameter else prepareR1 (start t) 0x00#8 := by
    rw [hcmd t hloaded, addressed, hloaded.paramBlock, unlessIdle, if_neg hloaded.cardState]
    rfl
  by_cases hwithin : addressedBlock argument < image.blocksTotal
  · rw [if_neg (not_le.mpr hwithin), prepareR1_respond] at haddressed
    refine ⟨_, htakes _ haddressed, ?_⟩
    rw [if_pos hwithin]
    exact ⟨respond_sent (start t) (le_of_ble_eq_true rfl), (hstart t).1,
      (hstart t).2.trans hloaded.paramBlock⟩
  · rw [if_pos (not_lt.mp hwithin), prepareR1_respond] at haddressed
    refine ⟨_, htakes _ haddressed, ?_⟩
    rw [if_neg hwithin]
    exact respond_sent t (le_of_ble_eq_true rfl)

theorem Commandable.decodesArgument (hkeeps : KeepsCommand s argument crc)
    (hlength : ¬ (512#32 < argument ∧ argument < 768#32)) :
    DecodesArgument image s argument crc where
  setBlockLen := by
    obtain ⟨s', htakes, hsending⟩ := h.setBlockLen hkeeps
    refine ⟨s', _, htakes, hsending, ?_⟩
    by_cases heq : argument = 512#32
    · subst heq
      decide
    · have hout : ¬ (512#32 ≤ argument ∧ argument < 768#32) := fun hin =>
        hlength ⟨BitVec.lt_of_le_ne hin.1 (Ne.symm heq), hin.2⟩
      rw [if_neg hout]
      exact iff_of_false (by decide) heq
  readSingle := h.readSingle hkeeps
  readMulti := h.addresses hkeeps (by decide) (by decide) (fun t hloaded => by
    rw [doCmd, if_neg (Bool.eq_false_iff.mp hloaded.acmd), hloaded.lastCmd]
    rfl) fun t => ⟨rfl, rfl⟩
  writeSingle := h.addresses hkeeps (by decide) (by decide) (fun t hloaded => by
    rw [doCmd, if_neg (Bool.eq_false_iff.mp hloaded.acmd), hloaded.lastCmd]
    rfl) fun t => ⟨rfl, rfl⟩
  writeMulti := h.addresses hkeeps (by decide) (by decide) (fun t hloaded => by
    rw [doCmd, if_neg (Bool.eq_false_iff.mp hloaded.acmd), hloaded.lastCmd]
    rfl) fun t => ⟨rfl, rfl⟩

end

end Commands

section Lost

variable {s s' : SPISlaveSD} {image : CardImage} {datas outs : List Byte} {x y : Byte}

/-- That many bytes do not complete a command. -/
def Receiving (s : SPISlaveSD) (count : ℕ) : Prop :=
  (s.spiState = .rxCmdByte ∧ count ≤ 5) ∨
    (s.spiState = .rxArg ∧ s.bufferSize = 5 ∧ s.bufferIndex + count < 5)

theorem Receiving.notSending {count : ℕ} (h : Receiving s count) : s.spiState ≠ .txData := by
  rcases h with ⟨hstate, -⟩ | ⟨hstate, -⟩ <;> rw [hstate] <;> decide

theorem Receiving.step {count : ℕ} (h : Receiving s (count + 1)) (image : CardImage) (data : Byte) :
    ∃ s', exchangeByte image s data = .ok (0xff#8, s') ∧ Receiving s' count ∧
      s'.cardState = s.cardState ∧ s'.slot = s.slot ∧ s'.cmd12Countdown = s.cmd12Countdown := by
  rcases h with ⟨hstate, hcount⟩ | ⟨hstate, hsize, hcount⟩
  · rw [exchangeByte_rxCmdByte hstate]
    split
    · exact ⟨_, rfl, .inr ⟨rfl, rfl, by dsimp only [bufferStart]; omega⟩, rfl, rfl, rfl⟩
    · exact ⟨_, rfl, .inl ⟨hstate, by omega⟩, rfl, rfl, rfl⟩
  · rw [exchangeByte_store (.inl hstate) (by omega) (by rw [hsize]; decide)]
    exact ⟨_, rfl, .inr ⟨hstate, hsize, by dsimp only; omega⟩, rfl, rfl, rfl⟩

theorem exchangeAll_cons_ok {data out : Byte} {s₁ : SPISlaveSD}
    (hbyte : doExchange8 s data = .ok (out, s₁))
    (h : exchangeAll s (data :: datas) = .ok (outs, s')) :
    ∃ outs', exchangeAll s₁ datas = .ok (outs', s') := by
  rw [exchangeAll, hbyte] at h
  change (exchangeAll s₁ datas >>= _) = _ at h
  cases hrest : exchangeAll s₁ datas with
  | error fault =>
    rw [hrest] at h
    cases h
  | ok rest =>
    rw [hrest] at h
    cases h
    exact ⟨rest.1, rfl⟩

theorem Receiving.exchangeAll (h : Receiving s datas.length) (hslot : s.slot = some image)
    (hread : s.cardState ≠ .multiblockRead) (hall : exchangeAll s datas = .ok (outs, s')) :
    s'.spiState ≠ .txData := by
  induction datas generalizing s outs with
  | nil =>
    cases hall
    exact h.notSending
  | cons data datas ih =>
    obtain ⟨s₁, hstep, hreceiving, hcard, hslot', -⟩ := Receiving.step h image data
    rw [← doExchange8_mounted hslot hread] at hstep
    obtain ⟨outs', hrest⟩ := exchangeAll_cons_ok hstep hall
    exact ih hreceiving (hslot'.trans hslot) (by rw [hcard]; exact hread) hrest

theorem exchangeAll_stopped {data : Byte} (hslot : s.slot = some image)
    (hread : s.cardState = .multiblockRead) (hcountdown : s.cmd12Countdown = 1)
    (hlength : datas.length ≤ 6) (hall : exchangeAll s (data :: datas) = .ok (outs, s')) :
    ¬ Sending s' [x, y] := by
  generalize hs₁ : respond { s with
    cmd12Countdown := 0
    cardState := .initialized
    spiState := .txData } [0xff#8, 0x00#8] = s₁
  have hsending : Sending s₁ [0xff#8, 0x00#8] := by
    rw [← hs₁]
    exact respond_sending _ rfl (by decide)
  have hslot₁ : s₁.slot = some image := by
    rwa [← hs₁]
  have hstate : s₁.cardState = .initialized := by
    rw [← hs₁]
    rfl
  obtain ⟨hfirst, hmore⟩ := hsending.step image data
  have hbyte : doExchange8 s data =
      .ok (0xff#8, { s₁ with bufferIndex := s₁.bufferIndex + 1 }) := by
    rw [doExchange8, hslot]
    dsimp only
    rwa [if_pos hread, handleCmd12_stops hcountdown, hs₁]
  obtain ⟨outs₁, hrest⟩ := exchangeAll_cons_ok hbyte hall
  cases datas with
  | nil =>
    cases hrest
    intro hagain
    have hpending := hsending.pending
    have hpending' := hagain.pending
    dsimp only [length_cons, length_nil] at hpending hpending'
    omega
  | cons next datas =>
    obtain ⟨hsecond, -⟩ := (hmore (cons_ne_nil _ _)).step image next
    have hnotRead : s₁.cardState ≠ .multiblockRead := by
      rw [hstate]
      decide
    rw [if_pos rfl, afterTxData_initialized (by exact hstate),
      ← doExchange8_mounted (by exact hslot₁) (by exact hnotRead)] at hsecond
    obtain ⟨outs₂, hlast⟩ := exchangeAll_cons_ok hsecond hrest
    rw [length_cons] at hlength
    intro hagain
    exact Receiving.exchangeAll (.inl ⟨rfl, by omega⟩) (by exact hslot₁) (by exact hnotRead) hlast
      hagain.spiState

theorem exchangeAll_lost (hslot : s.slot = some image) (hread : s.cardState = .multiblockRead)
    (hreceiving : Receiving s (datas.length - 1)) (hlost : ¬ StaysRunning s.cmd12Countdown datas)
    (hall : exchangeAll s datas = .ok (outs, s')) : ¬ Sending s' [x, y] := by
  induction datas generalizing s outs with
  | nil => exact absurd trivial hlost
  | cons data datas ih =>
    by_cases hcountdown : s.cmd12Countdown = 1
    · have hlength : datas.length ≤ 6 := by
        rw [length_cons, Nat.add_sub_cancel] at hreceiving
        rcases hreceiving with ⟨-, hcount⟩ | ⟨-, -, hcount⟩ <;> omega
      exact exchangeAll_stopped hslot hread hcountdown hlength hall
    · cases datas with
      | nil => exact absurd ⟨hcountdown, trivial⟩ hlost
      | cons next datas =>
        obtain ⟨s₁, hstep, hreceiving', hcard, hslot', hsame⟩ := Receiving.step
          (s := { s with cmd12Countdown := nextCountdown s.cmd12Countdown data })
          (show Receiving _ (datas.length + 1) from hreceiving) image data
        rw [← doExchange8_running hslot hread hcountdown] at hstep
        obtain ⟨outs', hrest⟩ := exchangeAll_cons_ok hstep hall
        refine ih (hslot'.trans hslot) (hcard.trans hread) hreceiving' (fun hrun => hlost ?_) hrest
        rw [hsame] at hrun
        exact ⟨hcountdown, hrun⟩

theorem Commandable.keepsCommand {argument : Word} {crc : Byte} (h : Commandable image s)
    (hdecodes : DecodesArgument image s argument crc) : KeepsCommand s argument crc := by
  intro hread
  by_contra hlost
  obtain ⟨s', flags, ⟨outs, hall⟩, hsending, -⟩ := hdecodes.setBlockLen
  exact exchangeAll_lost h.slot hread (.inl ⟨h.spiState, le_rfl⟩) hlost hall hsending

end Lost

section Condition

variable {s : SPISlaveSD} {image : CardImage} {argument : Word} {crc : Byte}

theorem Commandable.not_decodesArgument (h : Commandable image s)
    (hkeeps : KeepsCommand s argument crc) (hlength : 512#32 < argument ∧ argument < 768#32) :
    ¬ DecodesArgument image s argument crc := by
  intro hdecodes
  obtain ⟨s₁, ⟨outs₁, hall₁⟩, hsending₁⟩ := h.setBlockLen hkeeps
  obtain ⟨s₂, flags, ⟨outs₂, hall₂⟩, hsending₂, hflags⟩ := hdecodes.setBlockLen
  rw [hall₁] at hall₂
  cases hall₂
  have hzero : flags = 0x00#8 := by
    have hin : 512#32 ≤ argument ∧ argument < 768#32 := ⟨BitVec.le_of_lt hlength.1, hlength.2⟩
    have hfirst := hsending₁.buffer 1 one_lt_two
    have hsecond := hsending₂.buffer 1 one_lt_two
    rwa [hsecond, if_pos hin] at hfirst
  exact absurd hlength.1 (by rw [hflags.mp hzero]; decide)

/-- Arguments are decoded as they are sent unless the length of a block differs from 512 in its
last byte alone, or the command is lost to an earlier CMD12. -/
theorem decodesArgument_iff (h : Commandable image s) (argument : Word) (crc : Byte) :
    DecodesArgument image s argument crc ↔
      ¬ (512#32 < argument ∧ argument < 768#32) ∧ KeepsCommand s argument crc := by
  constructor
  · intro hdecodes
    have hkeeps := h.keepsCommand hdecodes
    exact ⟨fun hlength => h.not_decodesArgument hkeeps hlength hdecodes, hkeeps⟩
  · rintro ⟨hlength, hkeeps⟩
    exact h.decodesArgument hkeeps hlength

/-- A card of four blocks that waits for a command. -/
def initializedCard : SPISlaveSD :=
  { emptySlot with spiState := .rxCmdByte, cardState := .initialized, slot := some fourBlocks }

theorem initializedCard_commandable : Commandable fourBlocks initializedCard :=
  ⟨rfl, by decide, rfl, rfl⟩

theorem initializedCard_keeps (argument : Word) (crc : Byte) :
    KeepsCommand initializedCard argument crc := by
  intro hread
  cases hread

theorem decodesArgument_512 : DecodesArgument fourBlocks initializedCard 512#32 0xff#8 :=
  (decodesArgument_iff initializedCard_commandable 512#32 0xff#8).mpr
    ⟨by decide, initializedCard_keeps _ _⟩

/-- A length of 513 bytes is accepted. -/
theorem decodesArgument_fails : ¬ ∀ image s, Commandable image s → ∀ argument crc,
    DecodesArgument image s argument crc := by
  intro h
  exact initializedCard_commandable.not_decodesArgument (initializedCard_keeps 513#32 0xff#8)
    (by decide) (h _ _ initializedCard_commandable _ _)

end Condition

end Cloudpilot.Hardware.SDCard
