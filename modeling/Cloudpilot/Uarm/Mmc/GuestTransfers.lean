import Cloudpilot.Uarm.Mmc.PxaMmc
import Cloudpilot.Uarm.Mmc.Vsd

/-! # Transfers on a block device

What transfers of whole sectors mean: a disk of numbered blocks with a mark for every
page of 16 blocks. A transfer moves blocks until it has moved all, the guest stops it,
or it comes to the end of the disk.
-/

namespace Cloudpilot.Uarm.Mmc

open Cpu

/-- How many blocks a transfer is to move and how it ends. -/
inductive Extent where
  | single
  | counted (blocks : BitVec 16) (pos : blocks ≠ 0)
  | aborted (count : Word) (blocks : BitVec 16) (bytes : ℕ) (some_left : bytes < 512 * count.toNat)
      (enough : blocks.toNat ≤ count.toNat) (within : bytes ≤ 512 * blocks.toNat)
  | untilStop (blocks : BitVec 16) (bytes : ℕ) (within : bytes ≤ 512 * blocks.toNat)

namespace Extent

/-- The number of blocks that the guest announces to the controller. -/
def blocks : Extent → BitVec 16
  | .single => 1
  | .counted blocks _ => blocks
  | .aborted _ blocks _ _ _ _ => blocks
  | .untilStop blocks _ _ => blocks

/-- The number of bytes that the guest moves. -/
def bytes : Extent → ℕ
  | .single => 512
  | .counted blocks _ => 512 * blocks.toNat
  | .aborted _ _ bytes _ _ _ => bytes
  | .untilStop _ bytes _ => bytes

/-- The number of blocks that the guest announces to the card. -/
def count : Extent → Option Word
  | .single => none
  | .counted blocks _ => some (blocks.setWidth 32)
  | .aborted count _ _ _ _ _ => some count
  | .untilStop _ _ _ => none

def multi : Extent → Bool
  | .single => false
  | _ => true

def stop : Extent → Bool
  | .single => false
  | .counted _ _ => false
  | .aborted _ _ _ _ _ _ => true
  | .untilStop _ _ _ => true

/-- A transfer of several blocks that only the guest ends. -/
def lasting : Extent → Bool
  | .untilStop _ _ _ => true
  | _ => false

theorem bytes_le (e : Extent) : e.bytes ≤ 512 * e.blocks.toNat := by
  cases e with
  | single => exact le_rfl
  | counted blocks pos => exact le_rfl
  | aborted count blocks bytes some_left enough within => exact within
  | untilStop blocks bytes within => exact within

end Extent

inductive Direction where
  | read
  | write (data : ℕ → Byte)

def Direction.writes : Direction → Bool
  | .read => false
  | .write _ => true

structure Transfer where
  sector : Word
  extent : Extent
  direction : Direction

/-- The number of blocks that a transfer asks of the disk: a block is read before its first byte
is, as long as there are blocks to come, and written with its last byte. -/
def Transfer.wanted (t : Transfer) : ℕ :=
  match t.direction with
  | .read => min t.extent.blocks.toNat (t.extent.bytes / 512 + 1)
  | .write _ => t.extent.bytes / 512

/-- What the guest sees of a transfer: the bytes it read, whether there was an error, and whether
the card ended a transfer that only the guest is to end. -/
structure Outcome where
  bytes : List Byte
  failed : Bool
  cut : Bool

structure Disk where
  sectors : ℕ
  block : ℕ → Block
  dirty : ℕ → Bool

namespace Disk

def write (d : Disk) (k : ℕ) (b : Block) : Disk :=
  { d with
    block := Function.update d.block k b
    dirty := Function.update d.dirty (k / 16) true }

def blockOf (data : ℕ → Byte) (n : ℕ) : Block := fun i => data (512 * n + i)

def writeBlocks (d : Disk) (s : ℕ) (data : ℕ → Byte) : ℕ → Disk
  | 0 => d
  | n + 1 => (d.writeBlocks s data n).write (s + n) (blockOf data n)

def content (d : Disk) (s i : ℕ) : Byte := d.block (s + i / 512) (Fin.ofNat 512 i)

/-- The number of blocks from a sector to the end of the disk. -/
def room (d : Disk) (s : ℕ) : ℕ := d.sectors - s

def exec (d : Disk) (t : Transfer) : Outcome × Disk :=
  let s := t.sector.toNat
  let failed : Bool := d.room s < t.wanted
  match t.direction with
  | .read =>
    (⟨(List.range (min t.extent.bytes (512 * d.room s))).map (d.content s), failed, false⟩, d)
  | .write data => (⟨[], failed, false⟩, d.writeBlocks s data (min t.wanted (d.room s)))

def run (d : Disk) : List Transfer → List Outcome × Disk
  | [] => ([], d)
  | t :: ts =>
    let (outcome, d) := d.exec t
    let (outcomes, d) := d.run ts
    (outcome :: outcomes, d)

variable {d : Disk} {s n : ℕ} {data : ℕ → Byte}

@[simp] theorem writeBlocks_sectors (d : Disk) (s : ℕ) (data : ℕ → Byte) (n : ℕ) :
    (d.writeBlocks s data n).sectors = d.sectors := by
  induction n with
  | zero => rfl
  | succ n ih => exact ih

end Disk

def SdCard.disk (card : SdCard) : Disk where
  sectors := card.sectorsTotal
  block k := fun i => card.data (512 * k + i)
  dirty page := (card.dirtyPages (page / 32)).getLsbD (page % 32)

namespace Machine

def writeReg (m : Machine) (reg val : Word) : Except Fault Machine :=
  (m.memAccessF (0x41100000 + 4 * reg) 4 true val).map BusAccess.machine

/-- The flags of a command: the upper ones as the driver likes, the lower ones for a short reply
with a checksum and for the data. -/
def cmdat (flags : Byte) (data writes : Bool) : Word :=
  (((flags &&& 0xf0) ||| 1) ||| (if data then 4 else 0) ||| (if writes then 8 else 0)).setWidth 32

def sdCommand (m : Machine) (cmd arg cmdat : Word) : Except Fault Machine := do
  let m ← m.writeReg 12 cmd
  let m ← m.writeReg 13 (arg >>> 16)
  let m ← m.writeReg 14 arg
  m.writeReg 4 cmdat

/-- The bits of the status register that report an error of a transfer. -/
def failed (m : Machine) : Bool := m.mmc.status.stat &&& 0x000d ≠ 0

def readBytes : ℕ → Machine → Except Fault (List Byte × Machine)
  | 0, m => .ok ([], m)
  | n + 1, m =>
    if m.failed then .ok ([], m)
    else do
      let a ← m.memAccessF 0x41100040 4 false 0
      if ¬ a.ok then return ([], a.machine)
      let (rest, m) ← readBytes n a.machine
      return (a.val.setWidth 8 :: rest, m)

def writeBytes : List Byte → Machine → Except Fault Machine
  | [], m => .ok m
  | byte :: bytes, m =>
    if m.failed then .ok m
    else do
      let a ← m.memAccessF 0x41100044 4 true (byte.setWidth 32)
      if ¬ a.ok then return a.machine
      writeBytes bytes a.machine

/-- The address of a sector: high capacity cards count sectors, others bytes. -/
def address (m : Machine) (sector : Word) : Word := if m.vsd.hcCard then sector else 512 * sector

def transferCommand (t : Transfer) : Word :=
  match t.extent.multi, t.direction with
  | false, .read => 17
  | true, .read => 18
  | false, .write _ => 24
  | true, .write _ => 25

/-- The number of blocks is announced to the card where it is known. -/
def announce (flags : Byte) (m : Machine) : Option Word → Except Fault Machine
  | none => .ok m
  | some count => m.sdCommand 23 count (cmdat flags false false)

def startTransfer (flags : Byte) (m : Machine) (t : Transfer) : Except Fault Machine := do
  let m ← m.writeReg 8 (t.extent.blocks.setWidth 32)
  let m ← m.announce flags t.extent.count
  m.sdCommand (transferCommand t) (m.address t.sector) (cmdat flags true t.direction.writes)

def moveBytes (m : Machine) (t : Transfer) : Except Fault (List Byte × Machine) :=
  match t.direction with
  | .read => readBytes t.extent.bytes m
  | .write data =>
    (writeBytes ((List.range t.extent.bytes).map data) m).map fun m => ([], m)

/-- The end of a transfer: the card is told to stop where it does not do so by itself. -/
def endTransfer (flags : Byte) (m : Machine) (t : Transfer) : Except Fault Machine :=
  if t.extent.stop || m.failed then m.sdCommand 12 0 (cmdat flags false false) else .ok m

/-- The card takes or gives blocks. -/
def accepting (m : Machine) : Bool := m.vsd.state = .data ∨ m.vsd.state = .rcv

def transfer (flags : Byte) (m : Machine) (t : Transfer) : Except Fault (Outcome × Machine) := do
  let m ← m.startTransfer flags t
  let (bytes, m) ← m.moveBytes t
  let outcome : Outcome := ⟨bytes, m.failed, t.extent.lasting && !m.accepting⟩
  return (outcome, ← m.endTransfer flags t)

def transfers (flags : Byte) : Machine → List Transfer → Except Fault (List Outcome × Machine)
  | m, [] => .ok ([], m)
  | m, t :: ts => do
    let (outcome, m) ← m.transfer flags t
    let (outcomes, m) ← m.transfers flags ts
    return (outcome :: outcomes, m)

end Machine

/-- A card in transfer state, with its controller's clock running and blocks of 512 bytes. -/
structure Ready (m : Machine) : Prop where
  state : m.vsd.state = .tran
  acmdShift : m.vsd.acmdShift = false
  vsd : m.mmc.vsd = true
  clockOn : m.mmc.clockOn = true
  blkLen : m.mmc.blkLen = 512

def Transfer.Addressable (t : Transfer) (hcCard : Bool) : Prop :=
  hcCard = true ∨ t.sector.toNat < 2 ^ 23

/-- The number of blocks that a transfer finds on the card. -/
def Transfer.moved (t : Transfer) (m : Machine) : ℕ :=
  min t.wanted (m.card.disk.room t.sector.toNat)

/-- The blocks lie within the first 4 GiB of the image, and a transfer that the guest is to stop
does not use up what is left of an earlier count. -/
structure Transfer.Lasting (t : Transfer) (m : Machine) : Prop where
  within : t.moved m ≠ 0 → t.sector.toNat + t.moved m ≤ 2 ^ 23
  count : t.extent.lasting = true → m.vsd.haveExpectedNumBlocks = true →
    m.vsd.numBlocksExpected ≠ 0 → t.moved m < m.vsd.numBlocksExpected.toNat

def AllLasting (flags : Byte) : Machine → List Transfer → Prop
  | _, [] => True
  | m, t :: ts => t.Lasting m ∧
    ∀ outcome m', m.transfer flags t = .ok (outcome, m') → AllLasting flags m' ts

end Cloudpilot.Uarm.Mmc
