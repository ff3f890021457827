import Cloudpilot.Hardware.SDCard.BlockDevice

/-! # From the slot to the first transaction

A card that has been mounted and selected is initialized by CMD1, or by ACMD41. From then on
it is a block device.
-/
namespace Cloudpilot.Hardware.SDCard
open Cloudpilot.Library Cloudpilot.Common

/-- A command with the bytes for which the host waits behind its response. -/
structure HostCommand where
  argument : Word
  crc : Byte
  wait : ℕ

def HostCommand.bytes (c : HostCommand) (command : Byte) : List Byte :=
  commandBytes command c.argument c.crc ++ idleBytes (2 + c.wait)

/-- An R1 response. -/
def HostCommand.response (c : HostCommand) (flags : Byte) : List Byte :=
  idleBytes 6 ++ ([0xff#8, flags] ++ idleBytes c.wait)

/-- How a host initializes the card, behind any number of CMD0. -/
inductive Initialization
  | goIdle (command : HostCommand) (rest : Initialization)
  | sendOpCond (command : HostCommand)
  | appSendOpCond (app command : HostCommand)

def Initialization.bytes : Initialization → List Byte
  | goIdle command rest => command.bytes 0#8 ++ rest.bytes
  | sendOpCond command => command.bytes 1#8
  | appSendOpCond app command => app.bytes 55#8 ++ command.bytes 41#8

def Initialization.response : Initialization → List Byte
  | goIdle command rest => command.response errCardIdle ++ rest.response
  | sendOpCond command => command.response 0x00#8
  | appSendOpCond app command => app.response 0x00#8 ++ command.response 0x00#8

section Commands

variable {s t : SPISlaveSD} {image : CardImage} {command : Byte}

section

variable (h : Selected image s)

include h

theorem Selected.exchangeAll_command (hcommand : command < 64#8) (c : HostCommand) {flags : Byte}
    (hcmd : doCmd image (loaded s command c.argument c.crc) = .ok (respond t [0xff#8, flags]))
    (hslot : t.slot = some image) (hstate : t.cardState = .idle ∨ t.cardState = .initialized) :
    ∃ s', exchangeAll s (c.bytes command) = .ok (c.response flags, s') ∧ Selected image s' ∧
      s'.cardState = t.cardState ∧ s'.acmd = t.acmd :=
  responded_selected h hcommand (List.cons_ne_nil _ _) (Nat.le_of_ble_eq_true rfl) hcmd hslot hstate
    c.wait

theorem Selected.goIdle (hacmd : s.acmd = false) (c : HostCommand) :
    ∃ s', exchangeAll s (c.bytes 0#8) = .ok (c.response errCardIdle, s') ∧ Selected image s' ∧
      s'.cardState = s.cardState ∧ s'.acmd = false := by
  have hcmd : doCmd image (loaded s 0#8 c.argument c.crc) =
      .ok (respond (loaded s 0#8 c.argument c.crc) [0xff#8, errCardIdle]) := by
    rw [doCmd, if_neg (by exact Bool.eq_false_iff.mp hacmd)]
    exact prepareR1_respond _ _
  obtain ⟨s', hall, hselected, hstate, hacmd'⟩ :=
    h.exchangeAll_command (by decide) c hcmd h.slot h.cardState
  exact ⟨s', hall, hselected, hstate, hacmd'.trans hacmd⟩

theorem Selected.sendOpCond (hacmd : s.acmd = false) (c : HostCommand) :
    ∃ s', exchangeAll s (c.bytes 1#8) = .ok (c.response 0x00#8, s') ∧ Ready image s' := by
  have hcmd : doCmd image (loaded s 1#8 c.argument c.crc) =
      .ok (respond { loaded s 1#8 c.argument c.crc with cardState := .initialized }
        [0xff#8, 0x00#8]) := by
    rw [doCmd, if_neg (by exact Bool.eq_false_iff.mp hacmd)]
    exact congrArg (fun r => r >>= fun s => .ok { s with cardState := .initialized })
      (prepareR1_respond (loaded s 1#8 c.argument c.crc) 0x00#8)
  obtain ⟨s', hall, hselected, hstate, hacmd'⟩ :=
    h.exchangeAll_command (by decide) c hcmd h.slot (.inr rfl)
  exact ⟨s', hall, hselected.spiState, hstate, hacmd'.trans hacmd, hselected.slot⟩

theorem Selected.appCmd (hacmd : s.acmd = false) (c : HostCommand) :
    ∃ s', exchangeAll s (c.bytes 55#8) = .ok (c.response 0x00#8, s') ∧ Selected image s' ∧
      s'.acmd = true := by
  have hcmd : doCmd image (loaded s 55#8 c.argument c.crc) =
      .ok (respond { loaded s 55#8 c.argument c.crc with acmd := true } [0xff#8, 0x00#8]) := by
    rw [doCmd, if_neg (by exact Bool.eq_false_iff.mp hacmd)]
    exact congrArg (fun r => r >>= fun s => .ok { s with acmd := true })
      (prepareR1_respond (loaded s 55#8 c.argument c.crc) 0x00#8)
  obtain ⟨s', hall, hselected, -, hacmd'⟩ :=
    h.exchangeAll_command (by decide) c hcmd h.slot h.cardState
  exact ⟨s', hall, hselected, hacmd'⟩

theorem Selected.appSendOpCond (hacmd : s.acmd = true) (c : HostCommand) :
    ∃ s', exchangeAll s (c.bytes 41#8) = .ok (c.response 0x00#8, s') ∧ Ready image s' := by
  have hcmd : doCmd image (loaded s 41#8 c.argument c.crc) =
      .ok (respond { loaded s 41#8 c.argument c.crc with
        acmd := false
        cardState := .initialized } [0xff#8, 0x00#8]) := by
    rw [doCmd, if_pos (by exact hacmd)]
    exact congrArg (fun r => r >>= fun s => .ok { s with cardState := .initialized })
      (prepareR1_respond { loaded s 41#8 c.argument c.crc with acmd := false } 0x00#8)
  obtain ⟨s', hall, hselected, hstate, hacmd'⟩ :=
    h.exchangeAll_command (by decide) c hcmd h.slot (.inr rfl)
  exact ⟨s', hall, hselected.spiState, hstate, hacmd', hselected.slot⟩

theorem Selected.initialize (hacmd : s.acmd = false) (init : Initialization) :
    ∃ s', exchangeAll s init.bytes = .ok (init.response, s') ∧ Ready image s' := by
  induction init generalizing s with
  | goIdle c rest ih =>
    obtain ⟨s₁, hfirst, hselected, -, hacmd₁⟩ := h.goIdle hacmd c
    obtain ⟨s', hrest, hready⟩ := ih hselected hacmd₁
    exact ⟨s', exchangeAll_append hfirst hrest, hready⟩
  | sendOpCond c => exact h.sendOpCond hacmd c
  | appSendOpCond app c =>
    obtain ⟨s₁, hfirst, hselected, hacmd₁⟩ := h.appCmd hacmd app
    obtain ⟨s', hrest, hready⟩ := hselected.appSendOpCond hacmd₁ c
    exact ⟨s', exchangeAll_append hfirst hrest, hready⟩

end

end Commands

section Slot

variable {s : SPISlaveSD} {image : CardImage}

theorem mounted_selected (hslot : s.slot = none) (h : isSizeRepresentable image.blocksTotal) :
    Selected image (enable (mount (reset s) image)) ∧
      (enable (mount (reset s) image)).acmd = false := by
  have hmount : mount (reset s) image = { reset s with slot := some image } := by
    rw [mount, if_neg]
    rintro (hsome | hnot)
    · rw [show (reset s).slot = none from hslot] at hsome
      cases hsome
    · exact hnot h
  rw [hmount]
  exact ⟨⟨rfl, .inl rfl, rfl⟩, rfl⟩

/-- For every image that is mounted the card is a block device: every transaction is answered
with the blocks that have been written last, framed with their checksums, and the image holds
these blocks. -/
theorem exchangeAll_blockDevice (hslot : s.slot = none)
    (hrepresentable : isSizeRepresentable image.blocksTotal) (init : Initialization)
    {ts : List Transaction} (hvalid : ∀ t ∈ ts, t.Valid image.blocksTotal) :
    ∃ s' image', exchangeAll (enable (mount (reset s) image))
        (init.bytes ++ ts.flatMap Transaction.bytes) =
          .ok (init.response ++ responses image.blocksTotal (blockOf image) ts, s') ∧
      Ready image' s' ∧ image'.blocksTotal = image.blocksTotal ∧
      blockOf image' = contents (blockOf image) ts := by
  obtain ⟨hselected, hacmd⟩ := mounted_selected hslot hrepresentable
  obtain ⟨s₁, hinit, hready⟩ := hselected.initialize hacmd init
  obtain ⟨s', image', hall, hready', htotal, hcontents⟩ :=
    hready.exchangeAll_transactions hrepresentable hvalid
  exact ⟨s', image', exchangeAll_append hinit hall, hready', htotal, hcontents⟩

def fourBlocks : CardImage := { data := fun _ => 0#8, dirtyPages := fun _ => 0#8, blocksTotal := 4 }

def emptySlot : SPISlaveSD where
  acmd := false
  spiState := .notSelected
  cardState := .idle
  lastCmd := 0#8
  buffer := fun _ => 0#8
  bufferSize := 0
  bufferIndex := 0
  cmd12Countdown := 0
  currentBlock := 0#32
  slot := none

def filledBlock (token value : Byte) : DataBlock where
  token := token
  data := List.replicate 512 value
  crcHigh := 0#8
  crcLow := 0#8
  wait := 1

/-- A block is written, two more are written over it, and all are read back. -/
def writeThenRead : List Transaction :=
  [.writeSingle 0x200#32 0xff#8 3 (filledBlock dataTokenDefault 0x11#8),
    .writeMulti 0x200#32 0xff#8 0 [filledBlock dataTokenCmd25 0x22#8,
      filledBlock dataTokenCmd25 0x33#8] 2,
    .readSingle 0x200#32 0xff#8 0,
    .readMulti 0x000#32 0xff#8 2000 (List.replicate 5 0#8) 0]

theorem writeThenRead_valid : ∀ t ∈ writeThenRead, t.Valid 4 := by
  have hdata : ∀ token value, (filledBlock token value).data.length = 512 :=
    fun _ _ => List.length_replicate
  have hfirst : addressedBlock 0x200#32 = 1 := by decide
  simp only [writeThenRead, List.forall_mem_cons, Transaction.Valid, hfirst, hdata]
  refine ⟨⟨by decide, trivial, rfl⟩, ⟨by decide, by decide, ?_⟩, by decide, ⟨by decide, rfl⟩, ?_⟩
  · exact ⟨⟨trivial, .inl rfl⟩, ⟨trivial, .inl rfl⟩, fun block hblock => nomatch hblock⟩
  · simp

theorem writeThenRead_blockDevice :
    ∃ s' image', exchangeAll (enable (mount (reset emptySlot) fourBlocks))
        ((Initialization.sendOpCond ⟨0#32, 0xf9#8, 1⟩).bytes ++
          writeThenRead.flatMap Transaction.bytes) =
          .ok ((Initialization.sendOpCond ⟨0#32, 0xf9#8, 1⟩).response ++
            responses 4 (blockOf fourBlocks) writeThenRead, s') ∧
      Ready image' s' ∧ image'.blocksTotal = 4 ∧
      blockOf image' = contents (blockOf fourBlocks) writeThenRead :=
  exchangeAll_blockDevice rfl (by decide) (.sendOpCond ⟨0#32, 0xf9#8, 1⟩) writeThenRead_valid

end Slot

end Cloudpilot.Hardware.SDCard
