import Cloudpilot.Uarm.Memory
import Cloudpilot.Library.Buffer
import Cloudpilot.Uarm.Peripherals.Nand

/-! # The NAND flash and its allocations

The flash with words of 32 bits, where every access to one of its arrays is checked against the size
of the array. A cycle that the flash refuses leaves behind what it has changed until then. The
callbacks for the ready line are left out, as they do not come back to the flash.
-/

namespace Cloudpilot.Uarm.NandFlash

open Cpu Cloudpilot.Library
open Peripherals (Byte K9nandState K9nandArea)

def u32 (n : ℕ) : ℕ := n % 2 ^ 32

structure NandSpecs where
  bytesPerPage : Word
  blocksPerDevice : Word
  pagesPerBlockLg2 : Byte
  flags : Byte
  devId : List Byte

/-- What does not change after initialization: the geometry, and the sizes of the arrays. The page
buffer has the size of a page. -/
structure Geometry where
  bytesPerPage : ℕ
  blocksPerDevice : ℕ
  areaSize : ℕ
  pagesPerBlockLg2 : ℕ
  deviceId : List Byte
  byteAddrBytes : ℕ
  pageAddrBytes : ℕ
  viaAreas : Bool
  secondReadCmd : Bool
  dataSize : ℕ
  dirtyPagesSize : ℕ

structure NAND where
  state : K9nandState
  area : K9nandArea
  addrBytesRxed : ℕ
  addrBytes : ℕ → Byte
  pageNo : ℕ
  pageOfst : ℕ
  busyCt : ℕ
  pageBuf : ℕ → Byte
  data : ℕ → Byte
  dirtyPages : ℕ → Word
  dirty : Bool

/-- What ends the emulation: an access outside of an array, `ERR`, and the endless loop for a
command that does not exist. -/
inductive Stop where
  | outOfBounds
  | abort
  | hang
  deriving DecidableEq, Repr

def access (size start count : ℕ) : Except Stop Unit :=
  if start + count ≤ size then .ok () else .error .outOfBounds

/-- The answers of the flash to a cycle, with the flash after it. -/
def accept (nand : NAND) : Except Stop (Bool × NAND) := .ok (true, nand)

def refuse (nand : NAND) : Except Stop (Bool × NAND) := .ok (false, nand)

namespace Geometry

def pages (g : Geometry) : ℕ := u32 (g.blocksPerDevice * 2 ^ g.pagesPerBlockLg2)

def addrBytesTotal (g : Geometry) : ℕ := g.byteAddrBytes + g.pageAddrBytes

/-- The offset at which an area begins. -/
def areaStart (g : Geometry) : K9nandArea → ℕ
  | .A => 0
  | .B => g.areaSize
  | .C => 2 * g.areaSize

end Geometry

variable (g : Geometry) (nand : NAND)

def nandPrvBusy (count : ℕ) : Except Stop NAND :=
  if nand.busyCt ≠ 0 then .error .abort else .ok { nand with busyCt := count }

def nandPrvGetAddrValLE (startByte numBytes : ℕ) : Except Stop ℕ :=
  (List.range numBytes).foldlM (fun ret i => do
    access 8 (startByte + numBytes - 1 - i) 1
    return u32 (u32 (ret * 256) + (nand.addrBytes (startByte + numBytes - 1 - i)).toNat)) 0

def nandPrvGetPageAddr (addrOfst : ℕ) : Except Stop ℕ :=
  nandPrvGetAddrValLE nand addrOfst g.pageAddrBytes

def nandPrvGetByteAddr : Except Stop ℕ := nandPrvGetAddrValLE nand 0 g.byteAddrBytes

def markStoragePage (storagePage : ℕ) : Except Stop NAND := do
  access g.dirtyPagesSize (4 * (storagePage / 32)) 4
  return { nand with
    dirtyPages := Function.update nand.dirtyPages (storagePage / 32)
      (nand.dirtyPages (storagePage / 32) ||| 1#32 <<< (storagePage % 32)) }

def nandPrvBlockErase : Except Stop (Bool × NAND) := do
  let addr ← nandPrvGetPageAddr g nand 0
  if addr % 2 ^ g.pagesPerBlockLg2 ≠ 0 then refuse nand
  else
    let start := u32 (addr * g.bytesPerPage)
    let size := u32 (g.bytesPerPage * 2 ^ g.pagesPerBlockLg2)
    access g.dataSize start size
    let first := start / 4224
    let last := u32 (start + size) / 4224
    let nand ← (List.range' first (last + 1 - first)).foldlM (markStoragePage g)
      { nand with data := Buffer.copy nand.data start (fun _ => 0xff) size }
    accept { nand with dirty := true }

def programByte (nand : NAND) (i : ℕ) : Except Stop NAND := do
  let index := u32 (u32 (nand.pageNo * g.bytesPerPage) + i)
  access g.bytesPerPage i 1
  access g.dataSize index 1
  return { nand with
    data := Function.update nand.data index (nand.data index &&& nand.pageBuf i) }

def nandPrvPageProgram : Except Stop (Bool × NAND) := do
  let nand ← (List.range g.bytesPerPage).foldlM (programByte g) nand
  let nand ← markStoragePage g nand (u32 (nand.pageNo * g.bytesPerPage) / 4224)
  accept { nand with dirty := true }

def nandPrvAcceptProgramData (val : Byte) : Except Stop (Bool × NAND) :=
  if nand.pageOfst ≥ g.bytesPerPage then accept nand
  else do
    access g.bytesPerPage nand.pageOfst 1
    accept { nand with
      pageBuf := Function.update nand.pageBuf nand.pageOfst val
      pageOfst := u32 (nand.pageOfst + 1) }

/-- Area B is left when it has been used for one operation. -/
def leaveB : NAND := if nand.area = .B then { nand with area := .A } else nand

/-- The states in which a program, erase or identification command may come. -/
def mayBegin : Bool :=
  nand.state = .reset ∨ nand.state = .reading ∨ nand.state = .readId ∨ nand.state = .statusReading

def enter (state : K9nandState) : NAND := { nand with state := state, addrBytesRxed := 0 }

/-- The command cycles of `nandWrite`. -/
def nandCommand (val : Byte) : Except Stop (Bool × NAND) :=
  if val = 0x00 then accept (enter { nand with area := .A } .reading)
  else if val = 0x01 then
    if g.viaAreas then accept (enter { nand with area := .B } .reading) else refuse nand
  else if val = 0x30 then
    if g.secondReadCmd ∧ nand.addrBytesRxed = g.addrBytesTotal then
      accept { nand with addrBytesRxed := 0xfe }
    else refuse nand
  else if val = 0x50 then
    if g.viaAreas then accept (enter { nand with area := .C } .reading) else refuse nand
  else if val = 0x60 then
    if mayBegin nand then accept (enter nand .eraseAddrRxing) else refuse nand
  else if val = 0xd0 then
    let nand := leaveB nand
    if nand.state ≠ .eraseAddrRxing ∨ nand.addrBytesRxed ≠ 2 then refuse nand
    else do
      let (erased, nand) ← nandPrvBlockErase g nand
      if erased then accept (enter (← nandPrvBusy nand 100) .reset) else refuse nand
  else if val = 0x80 then
    if mayBegin nand then accept (enter nand .programAddrRxing) else refuse nand
  else if val = 0x10 then
    let nand := leaveB nand
    if nand.state ≠ .programDataRxing then refuse nand
    else do
      let (programmed, nand) ← nandPrvPageProgram g nand
      if programmed then accept (enter (← nandPrvBusy nand 10) .reset) else refuse nand
  else if val = 0x90 then
    if mayBegin nand then accept (enter nand .readId) else refuse nand
  else if val = 0x70 then accept (enter nand .statusReading)
  else if val = 0xff then accept (enter { nand with area := .A } .reset)
  else .error .hang

def storeAddr (val : Byte) : Except Stop (Bool × NAND) := do
  access 8 nand.addrBytesRxed 1
  accept { nand with
    addrBytes := Function.update nand.addrBytes nand.addrBytesRxed val
    addrBytesRxed := (nand.addrBytesRxed + 1) % 256 }

/-- The address cycles of `nandWrite`. -/
def nandAddress (val : Byte) : Except Stop (Bool × NAND) :=
  match nand.state with
  | .readId => if nand.addrBytesRxed ≥ 1 then refuse nand else storeAddr nand val
  | .programAddrRxing =>
    if nand.addrBytesRxed ≥ g.addrBytesTotal then accept nand else storeAddr nand val
  | .eraseAddrRxing =>
    if nand.addrBytesRxed ≥ g.pageAddrBytes then accept nand else storeAddr nand val
  | .reading =>
    if nand.addrBytesRxed ≥ g.addrBytesTotal then accept nand
    else if nand.addrBytesRxed + 1 = g.addrBytesTotal then do
      storeAddr (← nandPrvBusy nand 1) val
    else storeAddr nand val
  | _ => refuse nand

def selectColumn : Except Stop NAND := do
  let pageOfst := u32 (g.areaStart nand.area + (← nandPrvGetByteAddr g nand))
  return { leaveB nand with pageOfst := pageOfst }

/-- The data cycles of `nandWrite`. -/
def nandData (val : Byte) : Except Stop (Bool × NAND) :=
  match nand.state with
  | .programAddrRxing =>
    if nand.addrBytesRxed ≠ g.addrBytesTotal then refuse nand
    else do
      let pageNo ← nandPrvGetPageAddr g nand g.byteAddrBytes
      let nand := { nand with state := .programDataRxing, pageNo := pageNo }
      if nand.pageNo ≥ g.pages then refuse nand
      else
        access g.bytesPerPage 0 g.bytesPerPage
        let nand ← selectColumn g
          { nand with pageBuf := Buffer.copy nand.pageBuf 0 (fun _ => 0xff) g.bytesPerPage }
        nandPrvAcceptProgramData g nand val
  | .programDataRxing => nandPrvAcceptProgramData g nand val
  | _ => refuse nand

def nandWrite (cle ale : Bool) (val : Byte) : Except Stop (Bool × NAND) :=
  match cle, ale with
  | true, false => nandCommand g nand val
  | false, true => nandAddress g nand val
  | false, false => nandData g nand val
  | true, true => refuse nand

/-- The `memcpy` from the content to the page buffer. -/
def loadPage : Except Stop NAND := do
  let start := u32 (nand.pageNo * g.bytesPerPage)
  access g.dataSize start g.bytesPerPage
  access g.bytesPerPage 0 g.bytesPerPage
  return { nand with
    pageBuf := Buffer.copy nand.pageBuf 0 (fun i => nand.data (start + i)) g.bytesPerPage }

/-- Without a second read command the last byte of the address is enough. -/
def markRead : NAND :=
  if ¬ g.secondReadCmd ∧ nand.addrBytesRxed = g.addrBytesTotal then
    { nand with addrBytesRxed := 0xfe }
  else nand

/-- The first data cycle of a read: the page is out of range, or it is loaded. -/
def startRead : Except Stop (Bool × NAND) := do
  let pageNo ← nandPrvGetPageAddr g nand g.byteAddrBytes
  let nand := { nand with pageNo := pageNo, addrBytesRxed := 0xff }
  if nand.pageNo ≥ g.pages then refuse nand
  else accept (← selectColumn g (← loadPage g nand))

/-- At the end of a page the next one follows. -/
def turnPage : Except Stop NAND :=
  if nand.pageOfst = g.bytesPerPage then
    loadPage g { nand with
      pageNo := u32 (nand.pageNo + 1)
      pageOfst := if nand.area = .C then 2 * g.areaSize else 0 }
  else .ok nand

def takeByte : Except Stop (Option Byte × NAND) := do
  let nand ← turnPage g nand
  access g.bytesPerPage nand.pageOfst 1
  return (some (nand.pageBuf nand.pageOfst), { nand with pageOfst := u32 (nand.pageOfst + 1) })

/-- The data cycles of `nandRead` while a page is being read. -/
def readData : Except Stop (Option Byte × NAND) :=
  let nand := markRead g nand
  if nand.addrBytesRxed = 0xfe then do
    let (started, nand) ← startRead g nand
    if started then takeByte g nand else return (none, nand)
  else if nand.addrBytesRxed = 0xff then takeByte g nand
  else return (none, nand)

def nandRead (cle ale : Bool) : Except Stop (Option Byte × NAND) :=
  if cle ∨ ale then return (none, nand)
  else match nand.state with
  | .readId =>
    if nand.addrBytesRxed ≠ 1 then return (none, nand)
    else match g.deviceId[(nand.addrBytes 0).toNat]? with
    | none => return (none, nand)
    | some id =>
      return (some id, { nand with
        addrBytes := Function.update nand.addrBytes 0 (nand.addrBytes 0 + 1) })
  | .statusReading => return (some (if nand.busyCt ≠ 0 then 0x00 else 0x40), nand)
  | .reading => readData g nand
  | _ => return (none, nand)

def nandPeriodic : NAND := { nand with busyCt := nand.busyCt - 1 }

/-- `nandInit` with the content of the flash. `heap` is what the page buffer has in it before it is
used. Shifts by 32 bits or more have no meaning; `__builtin_clz` has none for 0 either, but any
value up to 32 gives no address bytes then. -/
def nandInit (content : ℕ → Byte) (nandSize : ℕ) (specs : NandSpecs) (heap : ℕ → Byte) :
    Option (Geometry × NAND) :=
  let bytesPerPage := specs.bytesPerPage.toNat
  let blocksPerDevice := specs.blocksPerDevice.toNat
  let pagesPerBlockLg2 := specs.pagesPerBlockLg2.toNat
  let nandPages := u32 (blocksPerDevice * 2 ^ pagesPerBlockLg2)
  let nandSz := u32 (bytesPerPage * nandPages)
  let viaAreas := specs.flags.getLsbD 0
  let dirtyPagesSize4 := nandSz / (528 * 8 * 32)
  let t := Nat.log2 (specs.bytesPerPage - 1).toNat - if viaAreas then 1 else 0
  if pagesPerBlockLg2 ≥ 32 then none
  else if bytesPerPage % 528 ≠ 0 then none
  else if u32 (u32 (bytesPerPage * 2 ^ pagesPerBlockLg2) * blocksPerDevice) % 4224 ≠ 0 then none
  else if specs.devId.length > 6 then none
  else if nandSize ≠ nandSz then none
  else some (
    { bytesPerPage := bytesPerPage
      blocksPerDevice := blocksPerDevice
      areaSize := 2 ^ t % 2 ^ 16
      pagesPerBlockLg2 := pagesPerBlockLg2
      deviceId := specs.devId
      byteAddrBytes := (t + 7) / 8
      pageAddrBytes := (Nat.log2 (u32 (nandPages + (2 ^ 32 - 1))) + 7) / 8
      viaAreas := viaAreas
      secondReadCmd := specs.flags.getLsbD 1
      dataSize := nandSz
      dirtyPagesSize := 4 * (if dirtyPagesSize4 * 528 * 8 * 32 < nandSz then dirtyPagesSize4 + 1
        else dirtyPagesSize4) },
    { state := .reset
      area := .A
      addrBytesRxed := 0
      addrBytes := fun _ => 0
      pageNo := 0
      pageOfst := 0
      busyCt := 1
      pageBuf := heap
      data := content
      dirtyPages := fun _ => 0
      dirty := false })

/-- What happens to the flash. -/
inductive Event where
  | write (cle ale : Bool) (val : Byte)
  | read (cle ale : Bool)
  | periodic

def step (nand : NAND) : Event → Except Stop NAND
  | .write cle ale val => Prod.snd <$> nandWrite g nand cle ale val
  | .read cle ale => Prod.snd <$> nandRead g nand cle ale
  | .periodic => .ok (nandPeriodic nand)

def run (events : List Event) : Except Stop NAND := events.foldlM (step g) nand

end Cloudpilot.Uarm.NandFlash
