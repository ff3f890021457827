import Cloudpilot.Uarm.Peripherals.Uart

/-! # The NAND flash

The command state machine with its busy counter. A command, address or data cycle
that the flash refuses ends the emulator, as does an operation that starts while
another one is still running. Page buffer and content are functions of the address.
-/
namespace Cloudpilot.Uarm.Peripherals
open Cpu

abbrev Byte := BitVec 8

inductive K9nandState where
  | reset
  | readId
  | programAddrRxing
  | programDataRxing
  | eraseAddrRxing
  | reading
  | statusReading
  deriving DecidableEq, Repr

inductive K9nandArea where
  | A
  | B
  | C
  deriving DecidableEq, Repr

/-- Geometry and identification, fixed at initialization. -/
structure NandSpecs where
  bytesPerPage : ℕ
  blocksPerDevice : ℕ
  areaSize : ℕ
  pagesPerBlockLg2 : ℕ
  deviceId : List Byte
  byteAddrBytes : ℕ
  pageAddrBytes : ℕ
  viaAreas : Bool
  secondReadCmd : Bool

structure Nand where
  state : K9nandState
  area : K9nandArea
  addrBytesRxed : ℕ
  addrBytes : ℕ → Byte
  pageNo : ℕ
  pageOfst : ℕ
  busyCt : ℕ
  pageBuf : ℕ → Byte
  data : ℕ → Byte
  dirtyPages : ℕ → Bool
  dirty : Bool

/-- The flash after an accepted cycle, with the calls made. -/
abbrev NandResult := Option (Nand × List Effect)

namespace Nand

variable (specs : NandSpecs)

/-- The flash of the Tungsten E2. -/
def tungstenSpecs : NandSpecs where
  bytesPerPage := 528
  blocksPerDevice := 2048
  areaSize := 256
  pagesPerBlockLg2 := 5
  deviceId := [0xec, 0x75]
  byteAddrBytes := 1
  pageAddrBytes := 2
  viaAreas := true
  secondReadCmd := false

def accept (nand : Nand) : NandResult := some (nand, [])

def busy (nand : Nand) (count : ℕ) : NandResult :=
  if nand.busyCt ≠ 0 then none
  else some ({ nand with busyCt := count }, [.ready false, .reschedule])

def addrValLE (nand : Nand) (startByte numBytes : ℕ) : ℕ :=
  (List.range numBytes).foldl
    (fun ret i => ret * 256 + (nand.addrBytes (startByte + numBytes - 1 - i)).toNat) 0

def pageAddr (nand : Nand) (addrOfst : ℕ) : ℕ := nand.addrValLE addrOfst specs.pageAddrBytes

def byteAddr (nand : Nand) : ℕ := nand.addrValLE 0 specs.byteAddrBytes

def blockErase (nand : Nand) : Option Nand :=
  let addr := nand.pageAddr specs 0
  if addr % 2 ^ specs.pagesPerBlockLg2 ≠ 0 then none
  else
    let start := addr * specs.bytesPerPage
    let size := specs.bytesPerPage * 2 ^ specs.pagesPerBlockLg2
    some { nand with
      data := fun i => if start ≤ i ∧ i < start + size then 0xff else nand.data i
      dirtyPages := fun page =>
        nand.dirtyPages page || (start / 4224 ≤ page && page ≤ (start + size) / 4224)
      dirty := true }

def pageProgram (nand : Nand) : Nand :=
  let start := nand.pageNo * specs.bytesPerPage
  { nand with
    data := fun i => if start ≤ i ∧ i < start + specs.bytesPerPage then
      nand.data i &&& nand.pageBuf (i - start) else nand.data i
    dirtyPages := Function.update nand.dirtyPages (start / 4224) true
    dirty := true }

def acceptProgramData (nand : Nand) (val : Byte) : Nand :=
  if nand.pageOfst ≥ specs.bytesPerPage then nand
  else { nand with
    pageBuf := Function.update nand.pageBuf nand.pageOfst val
    pageOfst := nand.pageOfst + 1 }

/-- Leave area B, which holds for one operation only. -/
def leaveB (nand : Nand) : Nand := if nand.area = .B then { nand with area := .A } else nand

/-- The states in which an operation may begin. -/
def idle (nand : Nand) : Bool :=
  nand.state = .reset ∨ nand.state = .reading ∨ nand.state = .readId ∨ nand.state = .statusReading

def enter (nand : Nand) (state : K9nandState) : Nand :=
  { nand with state := state, addrBytesRxed := 0 }

/-- The end of an erase or program operation: busy first, then back to the reset state. -/
def commit (nand : Nand) (count : ℕ) : NandResult :=
  (nand.busy count).map fun (nand, calls) => (nand.enter .reset, calls)

def command (nand : Nand) (val : Byte) : NandResult :=
  if val = 0x00 then accept ({ nand with area := .A }.enter .reading)
  else if val = 0x01 then
    if specs.viaAreas then accept ({ nand with area := .B }.enter .reading) else none
  else if val = 0x30 then
    if specs.secondReadCmd ∧ nand.addrBytesRxed = specs.byteAddrBytes + specs.pageAddrBytes then
      accept { nand with addrBytesRxed := 0xfe } else none
  else if val = 0x50 then
    if specs.viaAreas then accept ({ nand with area := .C }.enter .reading) else none
  else if val = 0x60 then
    if nand.idle then accept (nand.enter .eraseAddrRxing) else none
  else if val = 0xd0 then
    let nand := nand.leaveB
    if nand.state ≠ .eraseAddrRxing ∨ nand.addrBytesRxed ≠ 2 then none
    else (nand.blockErase specs).bind fun nand => nand.commit 100
  else if val = 0x80 then
    if nand.idle then accept (nand.enter .programAddrRxing) else none
  else if val = 0x10 then
    let nand := nand.leaveB
    if nand.state ≠ .programDataRxing then none
    else (nand.pageProgram specs).commit 10
  else if val = 0x90 then
    if nand.idle then accept (nand.enter .readId) else none
  else if val = 0x70 then accept (nand.enter .statusReading)
  else if val = 0xff then accept ({ nand with area := .A }.enter .reset)
  else none

def storeAddr (nand : Nand) (val : Byte) : Nand :=
  { nand with
    addrBytes := Function.update nand.addrBytes nand.addrBytesRxed val
    addrBytesRxed := nand.addrBytesRxed + 1 }

def address (nand : Nand) (val : Byte) : NandResult :=
  let total := specs.byteAddrBytes + specs.pageAddrBytes
  match nand.state with
  | .readId => if nand.addrBytesRxed ≥ 1 then none else accept (nand.storeAddr val)
  | .programAddrRxing =>
    if nand.addrBytesRxed ≥ total then accept nand else accept (nand.storeAddr val)
  | .eraseAddrRxing =>
    if nand.addrBytesRxed ≥ specs.pageAddrBytes then accept nand else accept (nand.storeAddr val)
  | .reading =>
    if nand.addrBytesRxed ≥ total then accept nand
    else if nand.addrBytesRxed = total - 1 then
      (nand.busy 1).map fun (nand, calls) => (nand.storeAddr val, calls)
    else accept (nand.storeAddr val)
  | _ => none

/-- The offset at which an area begins. -/
def areaStart (area : K9nandArea) : ℕ :=
  match area with
  | .A => 0
  | .B => specs.areaSize
  | .C => 2 * specs.areaSize

def startProgram (nand : Nand) : Option Nand :=
  if nand.addrBytesRxed ≠ specs.byteAddrBytes + specs.pageAddrBytes then none
  else
    let nand := { nand with
      state := .programDataRxing
      pageNo := nand.pageAddr specs specs.byteAddrBytes }
    if nand.pageNo ≥ specs.blocksPerDevice * 2 ^ specs.pagesPerBlockLg2 then none
    else some { nand.leaveB with
      pageBuf := fun i => if i < specs.bytesPerPage then 0xff else nand.pageBuf i
      pageOfst := areaStart specs nand.area + nand.byteAddr specs }

def dataWrite (nand : Nand) (val : Byte) : NandResult :=
  match nand.state with
  | .programAddrRxing => (nand.startProgram specs).bind fun nand =>
    accept (nand.acceptProgramData specs val)
  | .programDataRxing => accept (nand.acceptProgramData specs val)
  | _ => none

/-- `nandWrite`. -/
def write (nand : Nand) (cle ale : Bool) (val : Byte) : NandResult :=
  if cle ∧ ¬ ale then nand.command specs val
  else if ¬ cle ∧ ale then nand.address specs val
  else if ¬ cle ∧ ¬ ale then nand.dataWrite specs val
  else none

def loadPage (nand : Nand) : Nand :=
  { nand with
    pageBuf := fun i => if i < specs.bytesPerPage then
      nand.data (nand.pageNo * specs.bytesPerPage + i) else nand.pageBuf i }

/-- The first data cycle of a read operation. -/
def startRead (nand : Nand) : Option Nand :=
  let nand := { nand with
    pageNo := nand.pageAddr specs specs.byteAddrBytes
    addrBytesRxed := 0xff }
  if nand.pageNo ≥ specs.blocksPerDevice * 2 ^ specs.pagesPerBlockLg2 then none
  else
    let pageOfst := areaStart specs nand.area + nand.byteAddr specs
    some { (nand.loadPage specs).leaveB with pageOfst := pageOfst }

def nextPage (nand : Nand) : Nand :=
  { nand with
    pageNo := nand.pageNo + 1
    pageOfst := if nand.area = K9nandArea.C then 2 * specs.areaSize else 0 }.loadPage specs

/-- Without a second read command the last address byte is enough. -/
def markRead (nand : Nand) : Nand :=
  if ¬ specs.secondReadCmd ∧ nand.addrBytesRxed = specs.byteAddrBytes + specs.pageAddrBytes then
    { nand with addrBytesRxed := 0xfe }
  else nand

def beginRead (nand : Nand) : Option Nand :=
  if nand.addrBytesRxed = 0xfe then nand.startRead specs else some nand

def turnPage (nand : Nand) : Nand :=
  if nand.pageOfst = specs.bytesPerPage then nand.nextPage specs else nand

def dataRead (nand : Nand) : Option (Nand × Byte) :=
  ((nand.markRead specs).beginRead specs).bind fun nand =>
    if nand.addrBytesRxed ≠ 0xff then none
    else
      let nand := nand.turnPage specs
      some ({ nand with pageOfst := nand.pageOfst + 1 }, nand.pageBuf nand.pageOfst)

/-- `nandRead`. -/
def read (nand : Nand) (cle ale : Bool) : Option (Nand × Byte) :=
  if cle ∨ ale then none
  else match nand.state with
  | .readId =>
    if nand.addrBytesRxed ≠ 1 then none
    else do
      let i := nand.addrBytes 0
      let id ← specs.deviceId[i.toNat]?
      return ({ nand with addrBytes := Function.update nand.addrBytes 0 (i + 1) }, id)
  | .statusReading => some (nand, if nand.busyCt ≠ 0 then 0x00 else 0x40)
  | .reading => nand.dataRead specs
  | _ => none

/-- `nandPeriodic`. -/
def periodic (nand : Nand) : Nand × List Effect :=
  if nand.busyCt ≠ 0 then
    ({ nand with busyCt := nand.busyCt - 1 }, if nand.busyCt - 1 = 0 then [.ready true] else [])
  else (nand, [])

def taskRequired (nand : Nand) : Bool := nand.busyCt > 0

/-- `directNandPrvMemAccessF`: a byte cycle, the latch lines taken from the address. -/
def memAccessF (nand : Nand) (pa : Word) (size : ℕ) (isWrite : Bool) (buf : Word) :
    Option (Done Nand) :=
  if size ≠ 1 then some ⟨nand, false, buf, []⟩
  else
    let pa := pa &&& ~~~0x00fffff9
    let cle := pa = 0x04000002
    let ale := pa = 0x04000004
    if ¬ cle ∧ ¬ ale ∧ pa ≠ 0x04000000 then some ⟨nand, false, buf, []⟩
    else if isWrite then
      (nand.write specs cle ale (buf.setWidth 8)).map fun (nand, calls) => ⟨nand, true, buf, calls⟩
    else
      (nand.read specs cle ale).map fun (nand, val) =>
        ⟨nand, true, (buf &&& 0xFFFFFF00) ||| val.setWidth 32, []⟩

/-- `nandInit` ends with a short busy period. -/
def init (data : ℕ → Byte) : Nand where
  state := .reset
  area := .A
  addrBytesRxed := 0
  addrBytes _ := 0
  pageNo := 0
  pageOfst := 0
  busyCt := 1
  pageBuf _ := 0
  data := data
  dirtyPages _ := false
  dirty := false

end Nand

end Cloudpilot.Uarm.Peripherals
