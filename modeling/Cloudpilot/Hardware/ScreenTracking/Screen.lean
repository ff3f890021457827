import Cloudpilot.Hardware.EmBankSRAM
import Cloudpilot.Library.Words

/-! # Meta memory

A byte of flags for every byte of RAM. Offsets are relative to `gRAM_MetaMemory`, which is
aligned, and the log lists those that were changed. The loops go bytewise up to a multiple of
four, then in units of four bytes, and then bytewise again.
-/

namespace Cloudpilot.Hardware.ScreenTracking

open EmBankSRAM Library

abbrev Word := BitVec 32

/-- The banks of 64 KiB that the RAM serves, from address 0 on. One device has the banks of
its 16 MiB twice. -/
structure RamBanks where
  size : RamSize
  needsSDCTLHack : Bool
  dynamicHeapSize : Word
  heap_le : dynamicHeapSize.toNat ≤ size.bytes

def emMemBankIndex (address : Word) : ℕ := (address >>> 16).toNat

def gMemoryStart : Word := 0

namespace RamBanks

variable (c : RamBanks)

/-- `EmBankSRAM::SetBankHandlers`. -/
def numBanks : ℕ :=
  let n := emMemBankIndex (gMemoryStart + ramSize c.size - 1) - emMemBankIndex gMemoryStart + 1
  if c.size.bytes = 16 * 1024 * 1024 ∧ c.needsSDCTLHack then 2 * n else n

def served (address : Word) : Bool := emMemBankIndex address < c.numBanks

/-- The first of these banks belong to `EmBankDRAM`. -/
def dramBank (address : Word) : Bool :=
  emMemBankIndex address < (c.dynamicHeapSize.toNat + 65535) / 65536

/-- An access that `EmBankDRAM` does not hand over to `EmBankSRAM`. -/
def dram (address : Word) : Bool := c.dramBank address ∧ ¬ address > c.dynamicHeapSize

/-- `EmMemGetMetaAddress`. -/
def metaAddress (address : Word) : ℕ :=
  if c.dramBank address then address.toNat else (address &&& gRAMBankMask c.size).toNat

end RamBanks

structure MetaMemory where
  bytes : ℕ → Byte
  log : List ℕ

def kNoAppAccess : Byte := 0x01
def kScreenBuffer : Byte := 0x20
def kScreenBits : Byte := kNoAppAccess ||| kScreenBuffer

namespace MetaMemory

variable (m : MetaMemory)

def touch (m : MetaMemory) (f : Byte → Byte) (p : ℕ) : MetaMemory where
  bytes := Function.update m.bytes p (f (m.bytes p))
  log := p :: m.log

/-- The bytes from one pointer up to another one. -/
def touchRange (m : MetaMemory) (f : Byte → Byte) (p endP : ℕ) : MetaMemory :=
  (List.range' p (endP - p)).foldl (fun m p => m.touch f p) m

def unmarkRange (c : RamBanks) (m : MetaMemory) (start stop : Word) (v : Byte) : MetaMemory :=
  if stop ≤ start then m
  else if ¬ c.served start then m
  else
    let startP := c.metaAddress start
    let endP := startP + (stop - start).toNat
    let end4P := endP / 4 * 4
    let endP := min endP (startP + c.size.bytes)
    let f : Byte → Byte := fun b => b &&& ~~~v
    if stop - start < 12 then m.touchRange f startP endP
    else
      let p := (startP + 3) / 4 * 4
      let m := m.touchRange f startP p
      let m := m.touchRange f p end4P
      m.touchRange f (max p end4P) endP

def markUnmarkRange (c : RamBanks) (m : MetaMemory) (start stop : Word) (andValue orValue : Byte) :
    MetaMemory :=
  if ¬ c.served start then m
  else
    let stop := if start < ramSize c.size ∧ stop ≥ ramSize c.size then ramSize c.size - 1 else stop
    let stop := if start ≥ gMemoryStart ∧ start < gMemoryStart + ramSize c.size ∧
      stop ≥ gMemoryStart + ramSize c.size then gMemoryStart + ramSize c.size - 1 else stop
    let startP := c.metaAddress start
    m.touchRange (fun b => (b &&& andValue) ||| orValue) startP (startP + (stop - start).toNat)

/-- `MetaMemory::MarkScreen`. -/
def markScreen (c : RamBanks) (m : MetaMemory) (start stop : Word) : MetaMemory :=
  m.markUnmarkRange c start stop 0xff kScreenBits

/-- `MetaMemory::UnmarkScreen`. -/
def unmarkScreen (c : RamBanks) (m : MetaMemory) (start stop : Word) : MetaMemory :=
  m.unmarkRange c start stop kScreenBuffer

def metaValue16 (p : ℕ) : BitVec 16 := (m.bytes p).setWidth 16 <<< 8 ||| (m.bytes (p + 1)).setWidth 16

def metaValue32 (p : ℕ) : Word :=
  (m.bytes p).setWidth 32 <<< 24 ||| (m.bytes (p + 1)).setWidth 32 <<< 16 |||
    (m.bytes (p + 2)).setWidth 32 <<< 8 ||| (m.bytes (p + 3)).setWidth 32

def isScreenBuffer8 (p : ℕ) : Bool := m.bytes p &&& kScreenBuffer ≠ 0

def isScreenBuffer16 (p : ℕ) : Bool := m.metaValue16 p &&& 0x2020 ≠ 0

def isScreenBuffer32 (p : ℕ) : Bool := m.metaValue32 p &&& 0x20202020 ≠ 0

theorem touchRange_bytes (f : Byte → Byte) (p endP k : ℕ) :
    (m.touchRange f p endP).bytes k = if p ≤ k ∧ k < endP then f (m.bytes k) else m.bytes k := by
  unfold touchRange
  generalize hn : endP - p = n
  induction n generalizing p m with
  | zero => simp; omega
  | succ n ih =>
    rw [List.range'_succ, List.foldl_cons, ih (m.touch f p) (p + 1) (by omega)]
    by_cases hk : k = p
    · subst hk
      have hlt : k < endP := by omega
      simp [touch, hlt]
    · have hiff : (p + 1 ≤ k ∧ k < endP) ↔ (p ≤ k ∧ k < endP) := by omega
      simp only [touch, hiff, Function.update_of_ne hk]

theorem mem_touchRange_log {f : Byte → Byte} {p endP k : ℕ}
    (h : k ∈ (m.touchRange f p endP).log) : (p ≤ k ∧ k < endP) ∨ k ∈ m.log := by
  unfold touchRange at h
  generalize hn : endP - p = n at h
  induction n generalizing p m with
  | zero => exact Or.inr h
  | succ n ih =>
    rcases ih (m := m.touch f p) (by omega) h with hk | hk
    · omega
    · rcases List.mem_cons.mp hk with rfl | hk
      · omega
      · grind

def screenBit (k : ℕ) : Prop := (m.bytes k).getLsbD 5 = true

instance (k : ℕ) : Decidable (m.screenBit k) := inferInstanceAs (Decidable (_ = _))

theorem isScreenBuffer8_iff (p : ℕ) : m.isScreenBuffer8 p = true ↔ m.screenBit p :=
  decide_eq_true_iff.trans (BitTest.and_bit_ne_zero (k := 5) (by decide))

theorem isScreenBuffer16_iff (p : ℕ) :
    m.isScreenBuffer16 p = true ↔ m.screenBit p ∨ m.screenBit (p + 1) := by
  have hmask : (0x2020 : BitVec 16) = 1#16 <<< 13 ||| 1#16 <<< 5 := by decide
  unfold isScreenBuffer16 metaValue16 screenBit
  rw [decide_eq_true_iff, hmask, BitTest.and_or_ne_zero, BitTest.and_bit_ne_zero (by decide),
    BitTest.and_bit_ne_zero (by decide)]
  simp

theorem isScreenBuffer32_iff (p : ℕ) : m.isScreenBuffer32 p = true ↔
    m.screenBit p ∨ m.screenBit (p + 1) ∨ m.screenBit (p + 2) ∨ m.screenBit (p + 3) := by
  have hmask : (0x20202020 : Word) =
      1#32 <<< 29 ||| (1#32 <<< 21 ||| (1#32 <<< 13 ||| 1#32 <<< 5)) := by decide
  unfold isScreenBuffer32 metaValue32 screenBit
  rw [decide_eq_true_iff, hmask, BitTest.and_or_ne_zero, BitTest.and_or_ne_zero,
    BitTest.and_or_ne_zero, BitTest.and_bit_ne_zero (by decide), BitTest.and_bit_ne_zero (by decide),
    BitTest.and_bit_ne_zero (by decide), BitTest.and_bit_ne_zero (by decide)]
  simp

end MetaMemory

open EmBankSRAM

inductive ScreenState where
  | clean
  | dirty
  | needsFullRefresh
  deriving DecidableEq, Repr

structure EmSystemState where
  screenState : ScreenState
  screenHighWatermark : Word
  screenLowWatermark : Word

namespace EmSystemState

variable (s : EmSystemState)

def isScreenDirty : Bool := s.screenState ≠ .clean

def screenRequiresFullRefresh : Bool := s.screenState = .needsFullRefresh

def markScreenDirty (s : EmSystemState) : EmSystemState := { s with screenState := .needsFullRefresh }

/-- `MarkScreenDirty` for a range. -/
def markRangeDirty (s : EmSystemState) (addressLo addressHi : Word) : EmSystemState :=
  match s.screenState with
  | .dirty =>
    { s with
      screenLowWatermark :=
        if addressLo < s.screenLowWatermark then addressLo else s.screenLowWatermark
      screenHighWatermark :=
        if addressHi > s.screenHighWatermark then addressHi else s.screenHighWatermark }
  | .clean =>
    { screenLowWatermark := addressLo, screenHighWatermark := addressHi, screenState := .dirty }
  | .needsFullRefresh => s

end EmSystemState

/-- The buffer of a frame, with what lies behind it, and the offsets that were written. -/
structure Frame where
  bpp : Byte
  lineWidth : Word
  lines : Word
  margin : Byte
  bytesPerLine : Word
  hasChanges : Bool
  firstDirtyLine : Word
  lastDirtyLine : Word
  buffer : ℕ → Byte
  bufferSize : ℕ
  log : List ℕ

/-- Nothing is returned for a division by zero. -/
def Frame.updateDirtyLines (frame : Frame) (systemState : EmSystemState) (baseAddr rowBytes : Word)
    (fullRefresh : Bool) : Option Frame :=
  if ¬ systemState.isScreenDirty ∧ ¬ fullRefresh then some { frame with hasChanges := false }
  else
    let maxLine := frame.lines - 1
    if systemState.screenRequiresFullRefresh ∨
        systemState.screenHighWatermark < systemState.screenLowWatermark ∨ fullRefresh then
      some { frame with firstDirtyLine := 0, lastDirtyLine := maxLine }
    else if systemState.screenHighWatermark < baseAddr then some { frame with hasChanges := false }
    else if rowBytes = 0 then none
    else
      let low := if systemState.screenLowWatermark < baseAddr then baseAddr
        else systemState.screenLowWatermark
      let first := (low - baseAddr) / rowBytes
      let last := (systemState.screenHighWatermark - baseAddr) / rowBytes
      some { frame with
        firstDirtyLine := if maxLine < first then maxLine else first
        lastDirtyLine := if maxLine < last then maxLine else last }

inductive AccessSize where
  | byte
  | word
  | long
  deriving DecidableEq, Repr

def AccessSize.bytes : AccessSize → ℕ
  | .byte => 1
  | .word => 2
  | .long => 4

structure Screen where
  bank : Bank
  metaMemory : MetaMemory
  regs : ℕ → Byte
  markScreenScheduled : Bool
  screenMarked : Bool
  system : EmSystemState
  frame : Frame

namespace Screen

variable (m : Screen)

def reg16 (offset : ℕ) : BitVec 16 := m.regs offset ++ m.regs (offset + 1)

def lcdStartAddr : Word := m.regs 0 ++ m.regs 1 ++ m.regs 2 ++ m.regs 3

def lcdPageWidth : Byte := m.regs 5

def lcdScreenWidth : BitVec 16 := m.reg16 8

def lcdScreenHeight : BitVec 16 := m.reg16 10

def lcdPanelControl : Byte := m.regs 0x20

def lcdPanningOffset : Byte := m.regs 0x2D

/-- The end of the range that is marked. -/
def lastLineAddr : Word :=
  m.lcdStartAddr + (m.lcdScreenHeight.setWidth 32 + 1) * m.lcdPageWidth.setWidth 32 * 2

def markScreen (c : RamBanks) (m : Screen) : Screen :=
  if ¬ m.markScreenScheduled then m
  else
    { m with
      metaMemory := m.metaMemory.markScreen c m.lcdStartAddr m.lastLineAddr
      markScreenScheduled := false
      screenMarked := true }

def unmarkScreen (c : RamBanks) (m : Screen) : Screen :=
  if ¬ m.screenMarked then m
  else
    { m with
      metaMemory := m.metaMemory.unmarkScreen c m.lcdStartAddr m.lastLineAddr
      markScreenScheduled := true
      screenMarked := false }

/-- `EmRegs::StdWrite`. -/
def stdWrite (m : Screen) (offset : ℕ) (size : AccessSize) (value : Word) : Screen :=
  { m with regs := fun k =>
      if offset ≤ k ∧ k < offset + size.bytes then
        (value >>> (8 * (offset + size.bytes - 1 - k))).setWidth 8
      else m.regs k }

def lcdRegisterWrite (c : RamBanks) (m : Screen) (offset : ℕ) (size : AccessSize) (value : Word) :
    Screen :=
  let (m, value) : Screen × Word :=
    match offset with
    | 0 => (m.unmarkScreen c, value &&& 0x1FFFFFFE)
    | 5 => (m.unmarkScreen c, value)
    | 8 => (m.unmarkScreen c, value)
    | 10 => (m.unmarkScreen c, value)
    | _ => (m, value)
  let m := m.stdWrite offset size value
  { m with system := m.system.markScreenDirty }

/-- The bytes of the registers with `lcdRegisterWrite` as their handler. -/
def lcdRegister (offset : ℕ) : Bool :=
  offset ∈ [0, 1, 2, 3, 5, 8, 9, 10, 11, 0x20, 0x2D, 0x33]

/-- A write to a register, moved to an even address unless it is a single byte. -/
def registerWrite (c : RamBanks) (m : Screen) (offset : ℕ) (size : AccessSize) (value : Word) :
    Screen :=
  let offset := if size = .byte then offset else offset / 2 * 2
  if lcdRegister offset then m.lcdRegisterWrite c offset size value else m

/-- `EmMemGet8`. -/
def readByte (c : RamBanks) (elsewhere : Word → Byte) (m : Screen) (address : Word) : Byte :=
  if c.served address then
    m.bank.ram ((if c.dram address then address else address &&& gRAMBankMask c.size).toNat ^^^ 1)
  else elsewhere address

/-- `EmMem_memcpy` from the guest to the buffer. -/
def memcpy (c : RamBanks) (elsewhere : Word → Byte) (m : Screen) (dst : ℕ) (src : Word) (len : ℕ) :
    Screen :=
  { m with frame := { m.frame with
    buffer := fun k =>
      if dst ≤ k ∧ k < dst + len then m.readByte c elsewhere (src + BitVec.ofNat 32 (k - dst))
      else m.frame.buffer k
    log := List.range' dst len ++ m.frame.log } }

end Screen

/-- How a call to `CopyLCDFrame` ends. -/
inductive Fetched where
  | returned (value : Bool)
  | assertFailed
  | divisionByZero
  deriving DecidableEq, Repr

/-- The bits of the panning offset that count, for depths of 1, 2 and 4 bits. -/
def marginMask (bpp : Byte) : Option Byte :=
  if bpp = 1 then some 0x0f
  else if bpp = 2 then some 0x07
  else if bpp = 4 then some 0x03
  else none

namespace Screen

def metrics (m : Screen) : Frame :=
  { m.frame with
    bpp := 1 <<< (m.lcdPanelControl &&& 3).toNat
    lineWidth := m.lcdScreenWidth.setWidth 32
    lines := m.lcdScreenHeight.setWidth 32 + 1
    bytesPerLine := m.lcdPageWidth.setWidth 32 * 2
    margin := m.lcdPanningOffset
    hasChanges := true }

/-- The lines from the first to the last dirty one. -/
def fetchLines (c : RamBanks) (elsewhere : Word → Byte) (m : Screen) (baseAddr : Word) :
    Fetched × Screen :=
  let firstLineAddr := baseAddr + m.frame.firstDirtyLine * m.frame.bytesPerLine
  let lastLineAddr := baseAddr + (m.frame.lastDirtyLine + 1) * m.frame.bytesPerLine
  let dst := (m.frame.firstDirtyLine * m.frame.bytesPerLine).toNat
  let len := (lastLineAddr - firstLineAddr).toNat
  if m.frame.bufferSize ≥ len then (.returned true, m.memcpy c elsewhere dst firstLineAddr len)
  else (.assertFailed, m)

def copyLCDFrame (c : RamBanks) (elsewhere : Word → Byte) (m : Screen) (fullRefresh : Bool) :
    Fetched × Screen :=
  let frame := m.metrics
  let baseAddr := m.lcdStartAddr
  if baseAddr = 0 then (.returned false, { m with frame := frame })
  else if ¬ m.system.isScreenDirty ∧ ¬ fullRefresh then
    (.returned true, { m with frame := { frame with hasChanges := false } })
  else
    match frame.updateDirtyLines m.system baseAddr frame.bytesPerLine fullRefresh with
    | none => (.divisionByZero, { m with frame := frame })
    | some frame =>
      if ¬ frame.hasChanges then (.returned true, { m with frame := frame })
      else
        match marginMask frame.bpp with
        | none => (.returned false, { m with frame := frame })
        | some mask =>
          fetchLines c elsewhere { m with frame := { frame with margin := frame.margin &&& mask } }
            baseAddr

/-- `EmSystemState::MarkScreenClean`, with the handler of the registers. -/
def markScreenClean (c : RamBanks) (m : Screen) : Screen :=
  { m with system := ⟨.clean, 0, 0⟩ }.markScreen c

end Screen

/-- What a write to the RAM does: the bank after it, the bytes of the meta memory that it checks,
and the range that it reports. -/
structure Put where
  bank : Bank
  metaOffset : ℕ
  isScreenBuffer : MetaMemory → ℕ → Bool
  low : Word
  high : Word

/-- `SetLong`, `SetWord` and `SetByte` of `EmBankDRAM` and `EmBankSRAM`. Words in the dynamic heap
are stored at odd addresses, too. -/
def RamBanks.put (c : RamBanks) (b : Bank) : Write → Put
  | .long address value =>
    let aligned := alignedAddress address
    if c.dram address then
      ⟨markDirty (markDirty (emMemDoPut32 b aligned.toNat value) aligned) (aligned + 2),
        aligned.toNat, MetaMemory.isScreenBuffer32, aligned, aligned + 4⟩
    else
      ⟨setLong c.size b address value, (aligned &&& gRAMBankMask c.size).toNat,
        MetaMemory.isScreenBuffer32, aligned, aligned + 4⟩
  | .word address value =>
    let aligned := alignedAddress address
    if c.dram address then
      ⟨markDirty (emMemDoPut16 b address.toNat (value.setWidth 16)) address, address.toNat,
        MetaMemory.isScreenBuffer16, address, address + 2⟩
    else
      ⟨setWord c.size b address value, (aligned &&& gRAMBankMask c.size).toNat,
        MetaMemory.isScreenBuffer16, aligned, aligned + 2⟩
  | .byte address value =>
    if c.dram address then
      ⟨markDirty (emMemDoPut8 b address.toNat (value.setWidth 8)) address, address.toNat,
        MetaMemory.isScreenBuffer8, address, address⟩
    else
      ⟨setByte c.size b address value, (address &&& gRAMBankMask c.size).toNat,
        MetaMemory.isScreenBuffer8, address, address⟩

def writeAddress : Write → Word
  | .long address _ => address
  | .word address _ => address
  | .byte address _ => address

def Screen.ramWrite (c : RamBanks) (m : Screen) (w : Write) : Screen :=
  if c.served (writeAddress w) then
    let put := c.put m.bank w
    { m with
      bank := put.bank
      system := if put.isScreenBuffer m.metaMemory put.metaOffset then
        m.system.markRangeDirty put.low put.high else m.system }
  else m

inductive Event where
  | ramWrite (w : Write)
  | registerWrite (offset : ℕ) (size : AccessSize) (value : Word)
  | fetch (fullRefresh : Bool)

/-- One event. A fetch that does not return is not followed by `MarkScreenClean`. -/
def Screen.step (c : RamBanks) (elsewhere : Word → Byte) (m : Screen) : Event → Fetched × Screen
  | .ramWrite w => (.returned true, m.ramWrite c w)
  | .registerWrite offset size value => (.returned true, m.registerWrite c offset size value)
  | .fetch fullRefresh =>
    match m.copyLCDFrame c elsewhere fullRefresh with
    | (.returned value, m) => (.returned value, m.markScreenClean c)
    | (stopped, m) => (stopped, m)

/-- The state in which a run goes on. -/
def Screen.next (c : RamBanks) (elsewhere : Word → Byte) (m : Screen) (event : Event) :
    Option Screen :=
  match m.step c elsewhere event with
  | (.returned _, m) => some m
  | _ => none

def Screen.run (c : RamBanks) (elsewhere : Word → Byte) (m : Screen) (events : List Event) :
    Option Screen := events.foldlM (Screen.next c elsewhere) m

/-- After a reset or a savestate was loaded: nothing is marked, all registers may have any value. -/
structure Screen.Initial (c : RamBanks) (m : Screen) : Prop where
  unmarked : ∀ k < c.size.bytes, m.metaMemory.bytes k = 0
  metaLog : m.metaMemory.log = []
  scheduled : m.markScreenScheduled = true
  notMarked : m.screenMarked = false
  screenState : m.system.screenState = .needsFullRefresh
  frameLog : m.frame.log = []

end Cloudpilot.Hardware.ScreenTracking
