import Cloudpilot.Common.CardImage

/-! # The memory stick

The controller on the stick: a register file that the host reads and writes
through windows, commands on blocks of pages, and the map from physical to
logical blocks that stands between the host and the card image.
-/
namespace Cloudpilot.Hardware.Stick
open Cloudpilot.Library Cloudpilot.Common

def determineLayoutWithBlockSize (pagesTotal pagesPerBlock : ℕ) : Option Byte :=
  if pagesTotal % pagesPerBlock ≠ 0 then none
  else
    let blocks := pagesTotal / pagesPerBlock
    if (blocks + 2) % 496 ≠ 0 then none
    else
      let segments : Byte := BitVec.ofNat 8 ((blocks + 2) / 496)
      let blocksTotal : BitVec 16 := BitVec.ofNat 16 (segments.toNat * 512)
      if blocksTotal ∈ [512#16, 1024#16, 2048#16, 4096#16, 8192#16] then some segments else none

structure Layout where
  pagesPerBlock : Byte
  segments : Byte
  deriving DecidableEq, Repr

def determineLayout (pagesTotal : ℕ) : Option Layout :=
  let small := if pagesTotal < 1024 * 16 then determineLayoutWithBlockSize pagesTotal 16 else none
  match small with
  | some segments => some ⟨16#8, segments⟩
  | none =>
    if pagesTotal > 512 * 32 then
      (determineLayoutWithBlockSize pagesTotal 32).map fun segments => ⟨32#8, segments⟩
    else none

def isSizeRepresentable (pagesTotal : ℕ) : Bool :=
  (determineLayout pagesTotal).isSome

inductive Operation
  | none
  | readOne
  | readMulti
  | programOne
  | programMulti
  deriving DecidableEq, Repr

/-- Where `bufferOut` points to. -/
inductive BufferOut
  | null
  | reg (offset : ℕ)
  | preparedPage
  deriving DecidableEq, Repr

/-- `sizeof(Registers)` and the offsets of the fields that the controller uses. -/
def sizeofRegisters : ℕ := 31
def intFlagsOffset : ℕ := 1
def msTypeOffset : ℕ := 4
def msCategoryOffset : ℕ := 6
def msClassOffset : ℕ := 7
def cfgOffset : ℕ := 16
def blockHiOffset : ℕ := 17
def blockMidOffset : ℕ := 18
def blockLoOffset : ℕ := 19
def accessTypeOffset : ℕ := 20
def pageOffset : ℕ := 21
def oobOffset : ℕ := 22

def blockMapEntries : ℕ := 512 * 16

structure MemoryStick where
  reg : ℕ → Byte
  readWindowStart : Byte
  readWindowSize : Byte
  writeWindowStart : Byte
  writeWindowSize : Byte
  bufferOut : BufferOut
  bufferOutSize : ℕ
  preparedPage : ℕ → Byte
  pagePending : Bool
  cardImage : Option CardImage
  pagesPerBlock : Byte
  segments : Byte
  blockMap : ℕ → BitVec 16
  blockMapDirtyPages : ℕ → Byte
  currentOperation : Operation
  irqs : ℕ

def MemoryStick.accessType (s : MemoryStick) : Byte := s.reg accessTypeOffset
def MemoryStick.page (s : MemoryStick) : Byte := s.reg pageOffset
def MemoryStick.oob (s : MemoryStick) (i : ℕ) : Byte := s.reg (oobOffset + i)

def MemoryStick.blockIndex (s : MemoryStick) : ℕ :=
  (s.reg blockHiOffset ++ s.reg blockMidOffset ++ s.reg blockLoOffset).toNat

def MemoryStick.logicalBlock (s : MemoryStick) : BitVec 16 := s.oob 2 ++ s.oob 3

def MemoryStick.logicalPage (s : MemoryStick) : ℕ :=
  s.logicalBlock.toNat * s.pagesPerBlock.toNat + s.page.toNat

def setReg (s : MemoryStick) (offset : ℕ) (value : Byte) : MemoryStick :=
  { s with reg := Function.update s.reg offset value }

/-- The first four extra data bytes. -/
def setOob (s : MemoryStick) (oob0 oob1 oob2 oob3 : Byte) : MemoryStick :=
  setReg (setReg (setReg (setReg s oobOffset oob0) (oobOffset + 1) oob1) (oobOffset + 2) oob2)
    (oobOffset + 3) oob3

def setOperation (s : MemoryStick) (operation : Operation) : MemoryStick :=
  { s with currentOperation := operation }

def statusCommandOk : Byte := 0x80#8
def statusErr : Byte := 0x40#8
def statusReadyForTransfer : Byte := 0x20#8
def statusInvalidCommand : Byte := 0x01#8

def setFlags (s : MemoryStick) (flags : Byte) : MemoryStick :=
  let s := setReg s intFlagsOffset flags
  if flags ≠ 0#8 then { s with irqs := s.irqs + 1 } else s

def clearFlags (s : MemoryStick) : MemoryStick :=
  setReg s intFlagsOffset 0#8

def reset (s : MemoryStick) : MemoryStick :=
  { s with
    reg := fun i =>
      if i = msTypeOffset ∨ i = msCategoryOffset ∨ i = msClassOffset then 0xff#8 else 0#8
    writeWindowStart := 0x10#8
    writeWindowSize := 15#8
    readWindowStart := 0x00#8
    readWindowSize := 0x1e#8
    bufferOutSize := 0
    bufferOut := .null
    pagePending := false
    currentOperation := .none }

/-- The entries of the block map in the order in which `Mount` fills them. -/
def mountOrder (segments : ℕ) : List ℕ :=
  (List.range segments).flatMap fun segment =>
    let first := if segment = 0 then 2 else 0
    (List.range' first (496 - first)).map fun block => segment <<< 9 ||| block

/-- One store of the loop; a store past the block map overwrites other memory. -/
def mountBlock (state : (ℕ → BitVec 16) × BitVec 16) (entry : ℕ) :
    Option ((ℕ → BitVec 16) × BitVec 16) :=
  if entry < blockMapEntries then some (Function.update state.1 entry state.2, state.2 + 1#16)
  else none

def mountBlockMap (blockMap : ℕ → BitVec 16) (segments : ℕ) : Option (ℕ → BitVec 16) :=
  let blockMap : ℕ → BitVec 16 := fun i => if i < blockMapEntries then 0xffff#16 else blockMap i
  ((mountOrder segments).foldlM mountBlock (blockMap, 0#16)).map Prod.fst

/-- No result stands for a failed assertion or a store past the block map. -/
def mount (s : MemoryStick) (cardImage : CardImage) : Option MemoryStick :=
  (determineLayout cardImage.blocksTotal).bind fun layout =>
    (mountBlockMap s.blockMap layout.segments.toNat).map fun blockMap =>
      { reset s with
        cardImage := some cardImage
        pagesPerBlock := layout.pagesPerBlock
        segments := layout.segments
        blockMap := blockMap
        blockMapDirtyPages := fun i => if i < 2 then 0xff#8 else s.blockMapDirtyPages i }

def remount (s : MemoryStick) (cardImage : CardImage) : MemoryStick :=
  { s with cardImage := some cardImage }

def unmount (s : MemoryStick) : MemoryStick :=
  { s with cardImage := none }

def blocksTotal (s : MemoryStick) : ℕ := s.segments.toNat * 512

def blockMapSet (s : MemoryStick) (block mappedBlock : BitVec 16) : MemoryStick :=
  { s with
    blockMap := Function.update s.blockMap block.toNat mappedBlock
    blockMapDirtyPages :=
      Function.update s.blockMapDirtyPages (block.toNat >>> 12)
        (s.blockMapDirtyPages (block.toNat >>> 12) ||| (1#8 <<< ((block.toNat >>> 9) &&& 0x07))) }

def eraseBlock (s : MemoryStick) : Bool × MemoryStick :=
  if s.blockIndex ≥ blocksTotal s then (false, s)
  else (true, blockMapSet s (BitVec.ofNat 16 s.blockIndex) 0xffff#16)

/-- The boot block, big endian. -/
def bootPage (s : MemoryStick) (page : Byte) (i : ℕ) : Byte :=
  let hi (n : ℕ) : Byte := BitVec.ofNat 8 (n / 256)
  let lo (n : ℕ) : Byte := BitVec.ofNat 8 n
  let kbPerBlock := s.pagesPerBlock.toNat >>> 1
  let numBlocks := s.segments.toNat * 512
  let usableBlocks := s.segments.toNat * 496
  if page = 0#8 then
    match i with
    | 0x001 => 0x01#8
    | 0x002 | 0x003 => 0x01#8
    | 0x0bc => 0x01#8
    | 0x178 => 0x01#8
    | 0x1a0 => 0x01#8
    | 0x1a1 => 0x02#8
    | 0x1a2 => hi kbPerBlock
    | 0x1a3 => lo kbPerBlock
    | 0x1a4 => hi numBlocks
    | 0x1a5 => lo numBlocks
    | 0x1a6 => hi usableBlocks
    | 0x1a7 => lo usableBlocks
    | 0x1a8 => 0x02#8
    | 0x1aa => 16#8
    | 0x1ad => 20#8
    | 0x1ae => 22#8
    | 0x1af => 9#8
    | 0x1b0 => 26#8
    | 0x1b8 => 0x01#8
    | 0x1d6 => 0x01#8
    | _ => 0#8
  else if page = 1#8 then if i < 2 then 0xff#8 else 0#8
  else 0#8

def preparePageBootBlock (s : MemoryStick) (destination : ℕ → Byte) (oobOnly : Bool) :
    MemoryStick × (ℕ → Byte) :=
  (setOob s 0xff#8 0xfb#8 0#8 0#8,
    if oobOnly then destination else Buffer.copy destination 0 (bootPage s s.page) 512)

/-- The page of a block that is not a boot block. -/
def preparePageMapped (s : MemoryStick) (image : CardImage) (destination : ℕ → Byte)
    (oobOnly : Bool) : MemoryStick × (ℕ → Byte) :=
  let logicalBlock := s.blockMap s.blockIndex
  if logicalBlock = 0xffff#16 then
    ({ s with reg := Buffer.copy s.reg oobOffset (fun _ => 0xff#8) 9 },
      if oobOnly then destination else Buffer.copy destination 0 (fun _ => 0xff#8) 512)
  else
    (setOob s 0xff#8 0xff#8 (BitVec.ofNat 8 (logicalBlock.toNat / 256))
        (BitVec.ofNat 8 logicalBlock.toNat),
      if oobOnly then destination
      else (image.read destination (logicalBlock.toNat * s.pagesPerBlock.toNat + s.page.toNat) 1).2)

/-- `PreparePage` into a buffer of the caller. -/
def preparePageInto (s : MemoryStick) (destination : ℕ → Byte) (oobOnly : Bool) :
    Option (MemoryStick × (ℕ → Byte)) :=
  match s.cardImage with
  | none => none
  | some image =>
    if s.page ≥ s.pagesPerBlock ∨ s.blockIndex ≥ blocksTotal s then none
    else if s.blockIndex = 0 ∨ s.blockIndex = 1 then
      some (preparePageBootBlock s destination oobOnly)
    else some (preparePageMapped s image destination oobOnly)

/-- `PreparePage(preparedPage, oobOnly)`. -/
def preparePage (s : MemoryStick) (oobOnly : Bool) : Bool × MemoryStick :=
  match preparePageInto s s.preparedPage oobOnly with
  | none => (false, s)
  | some (s, page) => (true, { s with preparedPage := page, pagePending := true })

/-- The block map follows the page that starts a block. -/
def storePage (s : MemoryStick) (image : CardImage) (data : ℕ → Byte) : MemoryStick :=
  let s' := { s with cardImage := some (image.write data s.logicalPage 1).2 }
  if s.page = 0#8 then blockMapSet s' (BitVec.ofNat 16 s.blockIndex) s.logicalBlock else s'

def programPage (s : MemoryStick) (data : ℕ → Byte) : Bool × MemoryStick :=
  match s.cardImage with
  | none => (false, s)
  | some image =>
    if s.blockIndex ≥ blocksTotal s then (false, s)
    else if s.page ≥ s.pagesPerBlock then (false, s)
    else if s.logicalPage ≥ image.blocksTotal then (false, s)
    else (true, storePage s image data)

inductive AccessType
  | block
  | page
  | oobOnly
  | oobOnlyNoEec
  | other
  deriving DecidableEq, Repr

def decodeAccess (accessType : Byte) : AccessType :=
  if accessType = 0x00#8 then .block
  else if accessType = 0x20#8 then .page
  else if accessType = 0x40#8 then .oobOnly
  else if accessType = 0x80#8 then .oobOnlyNoEec
  else .other

/-- The three kinds of read differ in what they prepare, the operation they start and the flags. -/
def doCmdReadWith (s : MemoryStick) (oobOnly : Bool) (operation : Operation) (flags : Byte) :
    MemoryStick :=
  match preparePage s oobOnly with
  | (false, s) => setFlags s statusErr
  | (true, s) => setFlags (setOperation s operation) flags

def doCmdRead (s : MemoryStick) : MemoryStick :=
  let s := setOperation s .none
  match decodeAccess s.accessType with
  | .block => doCmdReadWith s false .readMulti statusReadyForTransfer
  | .page => doCmdReadWith s false .readOne (statusCommandOk ||| statusReadyForTransfer)
  | .oobOnly => doCmdReadWith s true .none statusCommandOk
  | _ => s

def doCmdStop (s : MemoryStick) : MemoryStick :=
  match s.currentOperation with
  | .readMulti => setFlags (setOperation s .readOne) statusCommandOk
  | .programMulti => setFlags (setOperation s .programOne) statusCommandOk
  | _ => setFlags s statusCommandOk

def doCmdProgram (s : MemoryStick) : MemoryStick :=
  match decodeAccess s.accessType with
  | .block => setFlags (setOperation s .programMulti) statusReadyForTransfer
  | .page =>
    if s.pagePending then
      setFlags (programPage { setOperation s .none with pagePending := false }
        s.preparedPage).2 statusCommandOk
    else setFlags (setOperation s .programOne) statusCommandOk
  | .oobOnly | .oobOnlyNoEec => setFlags s statusCommandOk
  | .other => s

inductive Cmd
  | read
  | stop
  | erase
  | reset
  | program
  | invalid
  deriving DecidableEq, Repr

def decodeCmd (commandByte : Byte) : Cmd :=
  if commandByte = 0xaa#8 then .read
  else if commandByte = 0x33#8 then .stop
  else if commandByte = 0x99#8 then .erase
  else if commandByte = 0x3c#8 then .reset
  else if commandByte = 0x55#8 then .program
  else .invalid

def doCmd (s : MemoryStick) (commandByte : Byte) : MemoryStick :=
  match decodeCmd commandByte with
  | .read => doCmdRead s
  | .stop => doCmdStop s
  | .erase =>
    let (ok, s) := eraseBlock s
    setFlags s (if ok then statusCommandOk else statusErr)
  | .reset => reset s
  | .program => doCmdProgram s
  | .invalid => setFlags s statusInvalidCommand

inductive Tpc
  | setRegsWindow
  | regsWrite
  | regsRead
  | getInt
  | setCmd
  | readLongData
  | writeLongData
  | unsupported
  deriving DecidableEq, Repr

def decodeTpc (tpcId : Byte) : Tpc :=
  if tpcId = 0x08#8 then .setRegsWindow
  else if tpcId = 0x0b#8 then .regsWrite
  else if tpcId = 0x04#8 then .regsRead
  else if tpcId = 0x07#8 then .getInt
  else if tpcId = 0x0e#8 then .setCmd
  else if tpcId = 0x02#8 then .readLongData
  else if tpcId = 0x0d#8 then .writeLongData
  else .unsupported

def tpcSetRegsWindow (s : MemoryStick) (dataInCount : ℕ) (dataIn : ℕ → Byte) : MemoryStick :=
  let s := { clearFlags s with
    readWindowStart := dataIn 0
    readWindowSize := dataIn 1
    writeWindowStart := dataIn 2
    writeWindowSize := dataIn 3 }
  if dataInCount ≠ 4 then setFlags s statusErr else s

def tpcRegsWrite (s : MemoryStick) (dataInCount : ℕ) (dataIn : ℕ → Byte) : MemoryStick :=
  let start := s.writeWindowStart.toNat
  let size := s.writeWindowSize.toNat
  if start < cfgOffset ∨ size + start > sizeofRegisters then setFlags s statusErr
  else
    let s := { s with reg := Buffer.copy s.reg start dataIn (min size dataInCount) }
    if dataInCount ≠ size then setFlags s statusErr else clearFlags s

def tpcRegsRead (s : MemoryStick) : MemoryStick :=
  if s.readWindowStart.toNat + s.readWindowSize.toNat ≥ sizeofRegisters then setFlags s statusErr
  else
    { s with bufferOutSize := s.readWindowSize.toNat, bufferOut := .reg s.readWindowStart.toNat }

def handOutPage (s : MemoryStick) : MemoryStick :=
  { s with bufferOutSize := 512, bufferOut := .preparedPage, pagePending := false }

def tpcReadLongData (s : MemoryStick) : MemoryStick :=
  match s.currentOperation with
  | .readOne | .readMulti => clearFlags (handOutPage s)
  | _ => setFlags { s with bufferOutSize := 0 } statusErr

/-- `++reg.page` after a page of a block has been programmed. -/
def nextPage (s : MemoryStick) : MemoryStick :=
  let s := setReg s pageOffset (s.page + 1#8)
  if s.page < s.pagesPerBlock then setFlags s statusReadyForTransfer
  else setOperation (setFlags s statusCommandOk) .none

/-- A page that no operation waits for is kept for a later command. -/
def keepPage (s : MemoryStick) (dataIn : ℕ → Byte) : MemoryStick :=
  { s with preparedPage := Buffer.copy s.preparedPage 0 dataIn 512, pagePending := true }

def tpcWriteLongData (s : MemoryStick) (dataInCount : ℕ) (dataIn : ℕ → Byte) : MemoryStick :=
  if dataInCount ≠ 512 then setFlags s statusErr
  else
    match s.currentOperation with
    | .programMulti => nextPage (programPage s dataIn).2
    | .programOne =>
      setFlags (setOperation (programPage s dataIn).2 .none) statusCommandOk
    | _ => setFlags (keepPage s dataIn) statusCommandOk

def tpcGetInt (s : MemoryStick) : MemoryStick :=
  { s with bufferOutSize := 1, bufferOut := .reg intFlagsOffset }

def dispatchTpc (s : MemoryStick) (tpcId : Byte) (dataInCount : ℕ) (dataIn : ℕ → Byte) :
    MemoryStick :=
  match decodeTpc tpcId with
  | .setRegsWindow => tpcSetRegsWindow s dataInCount dataIn
  | .regsWrite => tpcRegsWrite s dataInCount dataIn
  | .regsRead => tpcRegsRead s
  | .getInt => tpcGetInt s
  | .setCmd => if dataInCount ≠ 1 then setFlags s statusErr else doCmd s (dataIn 0)
  | .readLongData => tpcReadLongData s
  | .writeLongData => tpcWriteLongData s dataInCount dataIn
  | .unsupported => setFlags s statusErr

def beginTpc (s : MemoryStick) : MemoryStick :=
  { s with bufferOutSize := 0 }

def executeTpc (s : MemoryStick) (tpcId : Byte) (dataInCount : ℕ) (dataIn : ℕ → Byte) :
    MemoryStick :=
  if s.cardImage.isNone then beginTpc s else dispatchTpc (beginTpc s) tpcId dataInCount dataIn

def releaseBuffer (s : MemoryStick) : MemoryStick :=
  { s with bufferOutSize := 0, bufferOut := .null }

/-- `++reg.page` after a page of a block has been read. -/
def readNextPage (s : MemoryStick) : MemoryStick :=
  match preparePage (setReg s pageOffset (s.page + 1#8)) false with
  | (true, s) => setFlags s statusReadyForTransfer
  | (false, s) => setFlags (setOperation s .none) statusCommandOk

/-- The end of a read transfer; no result stands for the failed assertion. -/
def finishReadTpc (s : MemoryStick) : Option MemoryStick :=
  if s.bufferOut ≠ .preparedPage then some (releaseBuffer s)
  else
    match s.currentOperation with
    | .readMulti => some (readNextPage (releaseBuffer s))
    | .readOne => some (setFlags (setOperation (releaseBuffer s) .none) statusCommandOk)
    | .none => some (releaseBuffer s)
    | _ => none

/-- The bytes at `GetDataOut`. -/
def dataOut (s : MemoryStick) (i : ℕ) : Option Byte :=
  match s.bufferOut with
  | .null => none
  | .reg offset => some (s.reg (offset + i))
  | .preparedPage => some (s.preparedPage i)

end Cloudpilot.Hardware.Stick
