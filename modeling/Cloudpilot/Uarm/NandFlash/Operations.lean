import Cloudpilot.Library.FlashMemory
import Cloudpilot.Uarm.NandFlash.InBounds

/-! # Operations of the NAND flash

What a driver makes of the cycles: program, erase and read operations, each of which begins when the
flash is ready. Beside it what they mean for a flash memory, where the area of the last pointer
command decides about the column, and area B holds for one operation.
-/

namespace Cloudpilot.Uarm.NandFlash

open Cpu Cloudpilot.Library FlashMemory
open Peripherals (Byte K9nandState K9nandArea)

inductive Operation where
  | program (address bytes : List Byte)
  | erase (address : List Byte)
  | read (area : K9nandArea) (address : List Byte) (count : ℕ)
  /-- The host clears the bitmap when it has saved the dirty pages. -/
  | clearDirtyPages

def readCommand : K9nandArea → Byte
  | .A => 0x00
  | .B => 0x01
  | .C => 0x50

def commandCycle (val : Byte) : Event := .write true false val

def addressCycles (address : List Byte) : List Event := address.map (.write false true)

def dataCycles (bytes : List Byte) : List Event := bytes.map (.write false false)

def Operation.events (g : Geometry) : Operation → List Event
  | .program address bytes =>
    commandCycle 0x80 :: addressCycles address ++ dataCycles bytes ++ [commandCycle 0x10]
  | .erase address => commandCycle 0x60 :: addressCycles address ++ [commandCycle 0xd0]
  | .read area address count =>
    commandCycle (readCommand area) :: addressCycles address ++
      (if g.secondReadCmd then [commandCycle 0x30] else []) ++
        List.replicate count (.read false false)
  | .clearDirtyPages => []

/-- One cycle with the bytes that it reads. A cycle that is refused reads none. -/
def exchange (g : Geometry) (nand : NAND) : Event → Except Stop (List Byte × NAND)
  | .write cle ale val => do
    let (_, nand) ← nandWrite g nand cle ale val
    return ([], nand)
  | .read cle ale => do
    let (byte, nand) ← nandRead g nand cle ale
    return (byte.toList, nand)
  | .periodic => return ([], nandPeriodic nand)

def exchangeAll (g : Geometry) (nand : NAND) : List Event → Except Stop (List Byte × NAND)
  | [] => return ([], nand)
  | event :: events => do
    let (bytes, nand) ← exchange g nand event
    let (rest, nand) ← exchangeAll g nand events
    return (bytes ++ rest, nand)

/-- An operation begins when the flash is ready again. -/
def perform (g : Geometry) (nand : NAND) : Operation → Except Stop (List Byte × NAND)
  | .clearDirtyPages => return ([], { nand with dirtyPages := fun _ => 0 })
  | op => exchangeAll g nand (List.replicate nand.busyCt .periodic ++ op.events g)

def number (bytes : List Byte) : ℕ := Nat.ofDigits 256 (bytes.map BitVec.toNat)

namespace Geometry

variable (g : Geometry)

def columnOf (address : List Byte) : ℕ := number (address.take g.byteAddrBytes)

def pageOf (address : List Byte) : ℕ := number (address.drop g.byteAddrBytes)

def cells (area : K9nandArea) (page column : ℕ) : ℕ → List (ℕ × ℕ)
  | 0 => []
  | count + 1 =>
    if column = g.bytesPerPage then
      let first := if area = .C then 2 * g.areaSize else 0
      (page + 1, first) :: cells area (page + 1) (first + 1) count
    else (page, column) :: cells area page (column + 1) count

def position (cell : ℕ × ℕ) : ℕ := cell.1 * g.bytesPerPage + cell.2

def readCells (area : K9nandArea) (address : List Byte) (count : ℕ) : List (ℕ × ℕ) :=
  g.cells area (g.pageOf address) (g.areaStart area + g.columnOf address) count

/-- Bytes behind the end of the page are ignored. -/
def programHits (area : K9nandArea) (address bytes : List Byte) (pos : ℕ) : Option (Stroke 8) :=
  let start := g.position (g.pageOf address, g.areaStart area + g.columnOf address)
  if start ≤ pos ∧ pos < g.position (g.pageOf address + 1, 0) then
    (bytes[pos - start]?).map .program
  else none

def eraseHits (address : List Byte) (pos : ℕ) : Option (Stroke 8) :=
  if g.position (number address, 0) ≤ pos ∧
      pos < g.position (number address + 2 ^ g.pagesPerBlockLg2, 0) then some .erase
  else none

end Geometry

/-- A flash memory with the area that is selected. -/
structure Flash where
  pointer : K9nandArea
  memory : Memory 8

def afterUse (area : K9nandArea) : K9nandArea := if area = .B then .A else area

namespace Flash

def fresh : Flash := ⟨.A, .fresh⟩

def step (g : Geometry) (content : ℕ → Byte) (flash : Flash) : Operation → Flash
  | .program address bytes =>
    ⟨afterUse flash.pointer,
      flash.memory.strike content (g.programHits flash.pointer address bytes)⟩
  | .erase address =>
    ⟨afterUse flash.pointer, flash.memory.strike content (g.eraseHits address)⟩
  | .read area _ count => { flash with pointer := if count = 0 then area else afterUse area }
  | .clearDirtyPages => { flash with memory := flash.memory.forget }

def answers (g : Geometry) (content : ℕ → Byte) (flash : Flash) : Operation → List Byte
  | .read area address count =>
    (g.readCells area address count).map fun cell => flash.memory.read content (g.position cell)
  | _ => []

end Flash

/-- A complete operation on pages of the device, with the commands that the device has. -/
def Operation.InRange (g : Geometry) : Operation → Prop
  | .program address bytes =>
    address.length = g.addrBytesTotal ∧ bytes ≠ [] ∧ g.pageOf address < g.pages
  | .erase address => address.length = g.pageAddrBytes ∧ number address < g.pages
  | .read area address count => address.length = g.addrBytesTotal ∧
    (area ≠ .A → g.viaAreas = true) ∧ g.pageOf address < g.pages ∧
      ∀ cell ∈ g.readCells area address count, cell.1 < g.pages
  | .clearDirtyPages => True

/-- What an operation must not do: the content has less than `2 ^ 32` bytes, an erase has an address
of two bytes and the first page of a block, which does not end with the bitmap, and a read begins in
its page or at the end of it. -/
def Operation.Harmless (g : Geometry) : Operation → Prop
  | .program _ _ => g.bytesPerPage * g.pages < 2 ^ 32
  | .erase address => g.bytesPerPage * g.pages < 2 ^ 32 ∧ g.pageAddrBytes = 2 ∧
    2 ^ g.pagesPerBlockLg2 ∣ number address ∧
      (number address + 2 ^ g.pagesPerBlockLg2 = g.pages → ¬ 135168 ∣ g.bytesPerPage * g.pages)
  | .read area address _ => g.bytesPerPage * g.pages < 2 ^ 32 ∧
    g.areaStart area + g.columnOf address ≤ g.bytesPerPage
  | .clearDirtyPages => True

instance (g : Geometry) : DecidablePred (Operation.InRange g)
  | .program _ _ => inferInstanceAs (Decidable (_ ∧ _ ∧ _))
  | .erase _ => inferInstanceAs (Decidable (_ ∧ _))
  | .read area address count => inferInstanceAs (Decidable (address.length = g.addrBytesTotal ∧
      (area ≠ .A → g.viaAreas = true) ∧ g.pageOf address < g.pages ∧
        ∀ cell ∈ g.readCells area address count, cell.1 < g.pages))
  | .clearDirtyPages => isTrue trivial

instance (g : Geometry) : DecidablePred (Operation.Harmless g)
  | .program _ _ => inferInstanceAs (Decidable (_ < _))
  | .erase _ => inferInstanceAs (Decidable (_ ∧ _ ∧ _ ∧ (_ → ¬ _)))
  | .read _ _ _ => inferInstanceAs (Decidable (_ ∧ _))
  | .clearDirtyPages => isTrue trivial

def DirtyBit (bitmap : ℕ → Word) (storagePage : ℕ) : Prop :=
  (bitmap (storagePage / 32)).getLsbD (storagePage % 32) = true

/-- Every storage page with a byte that has changed is marked. -/
def Tracked (nand : NAND) (flash : Flash) : Prop :=
  ∀ pos ∈ flash.memory.changed, DirtyBit nand.dirtyPages (pos / 4224)

/-- Every read returns what the flash memory holds, and the bitmap is right all the time. -/
def RunCorrect (g : Geometry) (content : ℕ → Byte) (nand : NAND) (flash : Flash) :
    List Operation → Prop
  | [] => Tracked nand flash
  | op :: ops => Tracked nand flash ∧
    match perform g nand op with
    | .ok (bytes, nand') =>
      bytes = flash.answers g content op ∧ RunCorrect g content nand' (flash.step g content op) ops
    | .error _ => False

/-- The bytes that a run of operations reads. -/
def outputs (g : Geometry) (nand : NAND) : List Operation → Except Stop (List (List Byte))
  | [] => .ok []
  | op :: ops => do
    let (bytes, nand) ← perform g nand op
    return bytes :: (← outputs g nand ops)

def Flash.allAnswers (g : Geometry) (content : ℕ → Byte) (flash : Flash) :
    List Operation → List (List Byte)
  | [] => []
  | op :: ops => flash.answers g content op :: (flash.step g content op).allAnswers g content ops

theorem RunCorrect.outputs_eq {g : Geometry} {content : ℕ → Byte} {nand : NAND} {flash : Flash}
    {ops : List Operation} (h : RunCorrect g content nand flash ops) :
    outputs g nand ops = .ok (flash.allAnswers g content ops) := by
  induction ops generalizing nand flash with
  | nil => rfl
  | cons op ops ih =>
    obtain ⟨-, hop⟩ := h
    rw [outputs]
    cases hperform : perform g nand op with
    | error e => grind
    | ok result =>
      rw [hperform] at hop
      change outputs g result.2 ops >>= _ = _
      rw [ih hop.2, hop.1]
      rfl

end Cloudpilot.Uarm.NandFlash
