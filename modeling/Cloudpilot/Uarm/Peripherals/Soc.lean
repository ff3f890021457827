import Mathlib.Data.Fintype.Basic
import Cloudpilot.Uarm.Cpu.State
import Cloudpilot.Uarm.Peripherals.Nand
import Cloudpilot.Uarm.Peripherals.Uart
import Cloudpilot.Uarm.Scheduling.Ticks

/-! # The DMA controller

Its registers, and the functions that touch nothing else.
-/

namespace Cloudpilot.Uarm.Peripherals

open Cpu

structure DmaChannel where
  DAR : Word
  SAR : Word
  TAR : Word
  CR : Word
  CSR : Word
  dsAddrWriten : Bool
  dtAddrWriten : Bool
  dcmdAddrWritten : Bool

structure SocDma where
  dalgn : Word
  DINT : Word
  channels : Fin 32 → DmaChannel
  CMR : Fin 75 → BitVec 8

namespace DmaChannel

def stop (ch : DmaChannel) : DmaChannel :=
  { ch with
    dsAddrWriten := false
    dtAddrWriten := false
    dcmdAddrWritten := false
    CSR := (ch.CSR &&& ~~~0x80000000) ||| 0x08 }

def runningByCsrVal (csr : Word) : Bool := csr &&& 0x80000008 = 0x80000000

def running (ch : DmaChannel) : Bool := runningByCsrVal ch.CSR

/-- The bytes that are left to transfer. -/
def length (ch : DmaChannel) : Word := ch.CR &&& 0x1fff

def noDescrFetch (ch : DmaChannel) : Bool := ch.CSR &&& 0x40000000 ≠ 0

/-- Where the next descriptor is read from. -/
def descrAddr (ch : DmaChannel) : Word :=
  (ch.DAR &&& ~~~0x0f) + if ch.DAR &&& 2 ≠ 0 ∧ ch.CSR &&& 0x0400 ≠ 0 then 32 else 0

/-- The value a write to the control and status register leaves. -/
def newCsr (prevCsr val : Word) : Word :=
  let newVal := ((prevCsr &&& 0x0000031f) ||| (val &&& 0xfcc00400)) &&& ~~~(val &&& 0x00000217)
  let newVal :=
    if val &&& 0x02000000 ≠ 0 then newVal ||| 0x0400
    else if val &&& 0x01000000 ≠ 0 then newVal &&& ~~~0x0400
    else newVal
  if newVal &&& 0x00400000 ≠ 0 then (newVal &&& ~~~0x80000000) ||| (prevCsr &&& 0x80000000)
  else newVal

end DmaChannel

structure Descriptor where
  nextD : Word
  nextS : Word
  nextT : Word
  nextC : Word

inductive DmaReg where
  | DAR
  | SAR
  | TAR
  | CR
  | CSR
  deriving DecidableEq, Repr

/-- What the two switches of `socDmaPrvMemAccessF` select. -/
inductive DmaSelect where
  | dalgn
  | dint
  | cmr (i : Fin 75)
  | channel (c : Fin 32) (reg : DmaReg)
  deriving DecidableEq, Repr

def channelReg (reg : ℕ) : DmaReg :=
  match reg with
  | 0 => .DAR
  | 1 => .SAR
  | 2 => .TAR
  | _ => .CR

def dmaBase : Word := 0x40000000

/-- The second window of the channel map falls through to the first one. -/
def dmaSelect (pa : Word) : Option DmaSelect :=
  let pa := ((pa - dmaBase) >>> 2).toNat
  if pa / 64 = 0 then
    if pa = 0x28 then some .dalgn
    else if pa = 0x3c then some .dint
    else if h : pa < 32 then some (.channel ⟨pa, h⟩ .CSR)
    else none
  else if pa / 64 = 17 ∨ pa / 64 = 1 then
    let pa := if pa / 64 = 17 then pa - 1088 + 64 else pa
    if h : pa - 64 < 75 then some (.cmr ⟨pa - 64, h⟩) else none
  else if pa / 64 = 2 ∨ pa / 64 = 3 then
    if h : (pa - 128) / 4 < 32 then some (.channel ⟨(pa - 128) / 4, h⟩ (channelReg ((pa - 128) % 4)))
    else none
  else none

namespace SocDma

def init : SocDma where
  dalgn := 0
  DINT := 0
  channels _ := ⟨0, 0, 0, 0, 8, false, false, false⟩
  CMR _ := 0

def modify (dma : SocDma) (c : Fin 32) (f : DmaChannel → DmaChannel) : SocDma :=
  { dma with channels := Function.update dma.channels c (f (dma.channels c)) }

def setCsr (csr : Word) (ch : DmaChannel) : DmaChannel := { ch with CSR := csr }

/-- `socDmaExternalReq`. -/
def externalReq (dma : SocDma) (chNum : Fin 75) (requested : Bool) : SocDma :=
  let cfg := dma.CMR chNum
  if cfg &&& 0x80 ≠ 0 then
    let c : Fin 32 := ⟨(cfg &&& 0x1f).toNat % 32, Nat.mod_lt _ (by decide)⟩
    dma.modify c fun ch =>
      { ch with CSR := if requested then ch.CSR ||| 0x100 else ch.CSR &&& ~~~0x100 }
  else dma

/-- `socDmaPrvChannelRegRead`. -/
def regRead (dma : SocDma) (c : Fin 32) (reg : DmaReg) : Word :=
  match reg with
  | .DAR => (dma.channels c).DAR
  | .SAR => (dma.channels c).SAR
  | .TAR => (dma.channels c).TAR
  | .CR => (dma.channels c).CR
  | .CSR => (dma.channels c).CSR

def selectRead (dma : SocDma) (select : DmaSelect) : Word :=
  match select with
  | .dalgn => dma.dalgn
  | .dint => dma.DINT
  | .cmr i => (dma.CMR i).setWidth 32
  | .channel c reg => dma.regRead c reg

def readAccess (dma : SocDma) (pa : Word) (size : ℕ) (buf : Word) : Bool × Word :=
  if size ≠ 4 then (false, buf)
  else match dmaSelect pa with
  | none => (false, buf)
  | some select => (true, dma.selectRead select)

/-- The interrupt status after `socDmaPrvChannelIrqRecalc`. -/
def recalculatedDint (dma : SocDma) (c : Fin 32) : Word :=
  let csr := (dma.channels c).CSR
  let bit := (1 : Word) <<< c.val
  let DINT := dma.DINT &&& ~~~bit
  let DINT := if csr &&& 0x20000000 ≠ 0 ∧ csr &&& 0x8 ≠ 0 then DINT ||| bit else DINT
  let DINT := if csr &&& 4 ≠ 0 then DINT ||| bit else DINT
  let DINT := if csr &&& 2 ≠ 0 then DINT ||| bit else DINT
  if csr &&& 1 ≠ 0 then DINT ||| bit else DINT

/-- `socDmaTaskRequired`. -/
def taskRequired (dma : SocDma) : Bool := (List.finRange 32).any fun c => (dma.channels c).running

end SocDma

open Cpu Scheduling

/-- `SCHEDULER_TASK_AUX_1`, the task of `socCycleBatch0`. -/
def aux1 : TaskType := 5

/-- What the rest of the machine does: its new state, the DMA requests it changes and the
scheduler calls it makes, none of them for the periodic task. -/
structure Reaction (ω : Type) where
  world : ω
  requests : List (Fin 75 × Bool)
  calls : List { call : Call // call.task ≠ aux1 }

structure WorldAccess (ω : Type) where
  ok : Bool
  buf : Word
  reaction : Reaction ω

/-- The rest of the machine. -/
structure World (ω : Type) where
  access : ω → Word → ℕ → Bool → Word → WorldAccess ω
  irq : ω → ℕ → Bool → Reaction ω
  ready : ω → Bool → Reaction ω
  putchar : ω → Fin 4 → Char → ω
  getchar : ω → Fin 4 → Char × ω
  sspClients : ω → Fin 3 → ℕ → BitVec 16 → BitVec 16
  dispatch : ω → TaskType → Ticks → Reaction ω × Ticks

/-- `ints` holds the level that each interrupt source reported last to the controller. -/
structure Soc (ω : Type) where
  dma : SocDma
  uarts : Fin 4 → Option SocUart
  ssp : Fin 3 → Option SocSsp
  nand : Nand
  scheduler : Scheduler
  ints : ℕ → Bool
  world : ω

/-- A write to a channel register, with the state it is applied to. -/
structure RegWrite (ω : Type) where
  soc : Soc ω
  channel : Fin 32
  reg : DmaReg
  val : Word

/-- A state and the writes to channel registers that led to it. -/
structure Transfer (ω : Type) where
  soc : Soc ω
  writes : List (RegWrite ω)

/-- The outcome of a memory access. -/
structure BusAccess (ω : Type) where
  ok : Bool
  buf : Word
  soc : Soc ω
  writes : List (RegWrite ω)

def uartBase : Fin 4 → Word := ![0x40100000, 0x41600000, 0x40700000, 0x40200000]
def uartIrq : Fin 4 → ℕ := ![22, 7, 20, 21]

/-- The second and third port differ between the revisions. -/
def sspBase (rev : Fin 3) : Fin 3 → Word :=
  ![0x41000000, if rev = 2 then 0x41700000 else 0x41400000,
    if rev = 2 then 0x41900000 else 0x41500000]

def sspPort (rev : Fin 3) : Fin 3 → SspPort :=
  ![⟨24, 13⟩, ⟨16, 15⟩, if rev = 2 then ⟨0, 66⟩ else ⟨15, 23⟩]

def irqDma : ℕ := 25

def inWindow (pa base size : Word) : Bool := base ≤ pa ∧ pa < base + size

inductive Target where
  | dma
  | uart (i : Fin 4) (uart : SocUart)
  | ssp (i : Fin 3) (ssp : SocSsp)
  | nand
  | world

section
variable {ω : Type} (W : World ω) (rev : Fin 3)

namespace Soc

def uartAt (soc : Soc ω) (pa : Word) (i : Fin 4) : Option Target :=
  if inWindow pa (uartBase i) 0x10000 then (soc.uarts i).map (.uart i) else none

def sspAt (soc : Soc ω) (pa : Word) (i : Fin 3) : Option Target :=
  if inWindow pa (sspBase rev i) 0x10000 then (soc.ssp i).map (.ssp i) else none

/-- The region of the memory map. -/
def target (soc : Soc ω) (pa : Word) : Target :=
  if inWindow pa dmaBase 0x2000 then .dma
  else if inWindow pa 0x04000000 8 then .nand
  else ((List.finRange 4).findSome? (soc.uartAt pa) <|>
    (List.finRange 3).findSome? (soc.sspAt rev pa)).getD .world

def modifyChannel (soc : Soc ω) (c : Fin 32) (f : DmaChannel → DmaChannel) : Soc ω :=
  { soc with dma := soc.dma.modify c f }

def request (soc : Soc ω) (req : Fin 75 × Bool) : Soc ω :=
  { soc with dma := soc.dma.externalReq req.1 req.2 }

def call (soc : Soc ω) (c : Call) : Option (Soc ω) :=
  (c.exec soc.scheduler).toOption.map fun scheduler => { soc with scheduler := scheduler }

def absorb (soc : Soc ω) (r : Reaction ω) : Option (Soc ω) :=
  (r.calls.map Subtype.val).foldlM call (r.requests.foldl request { soc with world := r.world })

/-- `socPrvReschedule`. -/
def reschedule (soc : Soc ω) : Option (Soc ω) := soc.call (.rescheduleTask aux1 1)

def socIcInt (soc : Soc ω) (intNum : ℕ) (raise : Bool) : Option (Soc ω) :=
  { soc with ints := Function.update soc.ints intNum raise }.absorb (W.irq soc.world intNum raise)

def effect (soc : Soc ω) : Effect → Option (Soc ω)
  | .irq intNum raise => soc.socIcInt W intNum raise
  | .dmaReq chNum requested => some (soc.request (chNum, requested))
  | .reschedule => soc.reschedule
  | .ready isReady => soc.absorb (W.ready soc.world isReady)

def effects (soc : Soc ω) (calls : List Effect) : Option (Soc ω) := calls.foldlM (effect W) soc

/-- An access to anything but the DMA controller. -/
def deviceAccess (soc : Soc ω) (pa : Word) (size : ℕ) (write : Bool) (buf : Word) :
    Option (BusAccess ω) :=
  match soc.target rev pa with
  | .uart i uart => do
    let done ← uart.memAccessF (uartIrq i) (pa - uartBase i) size write buf
    let soc := { soc with uarts := Function.update soc.uarts i (some done.device) }
    return ⟨done.ok, done.buf, ← soc.effects W done.effects, []⟩
  | .ssp i ssp => do
    let done := ssp.memAccessF (sspPort rev i) (pa - sspBase rev i) size write buf
    let soc := { soc with ssp := Function.update soc.ssp i (some done.device) }
    return ⟨done.ok, done.buf, ← soc.effects W done.effects, []⟩
  | .nand => do
    let done ← soc.nand.memAccessF Nand.tungstenSpecs pa size write buf
    return ⟨done.ok, done.buf, ← { soc with nand := done.device }.effects W done.effects, []⟩
  | .dma | .world => do
    let answer := W.access soc.world pa size write buf
    return ⟨answer.ok, answer.buf, ← soc.absorb answer.reaction, []⟩

def memRead (soc : Soc ω) (pa : Word) (size : ℕ) (buf : Word) : Option (BusAccess ω) :=
  if inWindow pa dmaBase 0x2000 then
    let (ok, val) := soc.dma.readAccess pa size buf
    some ⟨ok, val, soc, []⟩
  else soc.deviceAccess W rev pa size false buf

def readDescriptor (soc : Soc ω) (dar : Word) : Option (Option Descriptor × Soc ω) := do
  let nextD ← soc.memRead W rev dar 4 0
  if ¬ nextD.ok then return (none, nextD.soc)
  let nextS ← nextD.soc.memRead W rev (dar + 4) 4 0
  if ¬ nextS.ok then return (none, nextS.soc)
  let nextT ← nextS.soc.memRead W rev (dar + 8) 4 0
  if ¬ nextT.ok then return (none, nextT.soc)
  let nextC ← nextT.soc.memRead W rev (dar + 12) 4 0
  if ¬ nextC.ok then return (none, nextC.soc)
  return (some ⟨nextD.buf, nextS.buf, nextT.buf, nextC.buf⟩, nextC.soc)

/-- What a descriptor leaves in its channel; without one the channel stops with a bus error. -/
def loadDescriptor (ch : DmaChannel) : Option Descriptor → DmaChannel
  | none => { ch with CSR := ch.CSR ||| 1 }.stop
  | some d =>
    { ch with
      DAR := d.nextD
      SAR := d.nextS &&& ~~~0x03
      TAR := d.nextT &&& ~~~0x03
      CR := d.nextC
      CSR := if d.nextC &&& 0x00400000 ≠ 0 then ch.CSR ||| 2 else ch.CSR }

/-- `socDmaPrvChannelDescrFetch`. -/
def descrFetch (soc : Soc ω) (c : Fin 32) : Option (Soc ω) := do
  let (d, soc) ← soc.readDescriptor W rev (soc.dma.channels c).descrAddr
  return soc.modifyChannel c fun ch => loadDescriptor ch d

/-- `socDmaPrvChannelIrqRecalc`. -/
def irqRecalc (soc : Soc ω) (c : Fin 32) : Option (Soc ω) :=
  let DINT := soc.dma.recalculatedDint c
  { soc with dma := { soc.dma with DINT := DINT } }.socIcInt W irqDma (DINT ≠ 0)

/-- A channel that was just started, before its first descriptor. -/
def startChannel (ch : DmaChannel) : DmaChannel :=
  { ch with
    CSR := ch.CSR &&& ~~~0x100
    CR := if ch.noDescrFetch then ch.CR else ch.CR &&& ~~~0x1fff }

/-- `socDmaPrvChannelMaybeStart`. -/
def maybeStart (soc : Soc ω) (c : Fin 32) (prevCsr : Word) : Option (Soc ω) := do
  let ch := soc.dma.channels c
  if ch.running ∧ ¬ DmaChannel.runningByCsrVal prevCsr then
    let soc := (← soc.reschedule).modifyChannel c startChannel
    if ch.noDescrFetch then return soc
    soc.descrFetch W rev c
  else return soc

/-- The register after a write to any but the control and status register. -/
def writtenChannel (ch : DmaChannel) (reg : DmaReg) (val : Word) : DmaChannel :=
  match reg with
  | .DAR => { ch with DAR := val }
  | .SAR => { ch with dsAddrWriten := true, SAR := val &&& ~~~0x03 }
  | .TAR => { ch with dtAddrWriten := true, TAR := val &&& ~~~0x03 }
  | .CR => { ch with dcmdAddrWritten := true, CR := val }
  | .CSR => ch

/-- `maybeStart` at the end of a register write, for the channel after it. -/
def mayStart (ch : DmaChannel) (reg : DmaReg) (val : Word) : Bool :=
  match reg with
  | .DAR => val ≠ 0 ∧ ¬ ch.noDescrFetch
  | .CSR => false
  | _ => ch.noDescrFetch ∧ ch.dsAddrWriten ∧ ch.dtAddrWriten ∧ ch.dcmdAddrWritten

def unstop (ch : DmaChannel) : DmaChannel := { ch with CSR := ch.CSR &&& ~~~0x08 }

def writeCsr (soc : Soc ω) (c : Fin 32) (val : Word) : Option (Soc ω) := do
  let prevCsr := (soc.dma.channels c).CSR
  let newVal := DmaChannel.newCsr prevCsr val
  let soc ← (soc.modifyChannel c (SocDma.setCsr newVal)).maybeStart W rev c prevCsr
  let soc := if newVal &&& 0x80000000 = 0 ∧ prevCsr &&& 0x80000000 ≠ 0 then
    soc.modifyChannel c DmaChannel.stop else soc
  soc.irqRecalc W c

/-- `socDmaPrvChannelRegWrite`. -/
def regWrite (soc : Soc ω) (c : Fin 32) (reg : DmaReg) (val : Word) : Option (Soc ω) :=
  if reg = .CSR then soc.writeCsr W rev c val
  else
    let prevCsr := (soc.dma.channels c).CSR
    let soc := soc.modifyChannel c fun ch => writtenChannel ch reg val
    if mayStart (soc.dma.channels c) reg val then
      (soc.modifyChannel c unstop).maybeStart W rev c prevCsr
    else some soc

def dmaWrite (soc : Soc ω) (pa : Word) (size : ℕ) (val : Word) : Option (BusAccess ω) :=
  if size ≠ 4 then some ⟨false, val, soc, []⟩
  else match dmaSelect pa with
  | none => some ⟨false, val, soc, []⟩
  | some .dalgn => some ⟨true, val, { soc with dma := { soc.dma with dalgn := val } }, []⟩
  | some .dint => some ⟨true, val, soc, []⟩
  | some (.cmr i) =>
    let CMR := Function.update soc.dma.CMR i (val.setWidth 8)
    some ⟨true, val, { soc with dma := { soc.dma with CMR := CMR } }, []⟩
  | some (.channel c reg) =>
    (soc.regWrite W rev c reg val).map fun soc' => ⟨true, val, soc', [⟨soc, c, reg, val⟩]⟩

def memWrite (soc : Soc ω) (pa : Word) (size : ℕ) (val : Word) : Option (BusAccess ω) :=
  if inWindow pa dmaBase 0x2000 then soc.dmaWrite W rev pa size val
  else soc.deviceAccess W rev pa size true val

def memAccess (soc : Soc ω) (pa : Word) (size : ℕ) (write : Bool) (buf : Word) :
    Option (BusAccess ω) :=
  if write then soc.memWrite W rev pa size buf else soc.memRead W rev pa size buf

end Soc

namespace Transfer

def channel (t : Transfer ω) (c : Fin 32) : DmaChannel := t.soc.dma.channels c

def modifyChannel (t : Transfer ω) (c : Fin 32) (f : DmaChannel → DmaChannel) : Transfer ω :=
  { t with soc := t.soc.modifyChannel c f }

def busError (t : Transfer ω) (c : Fin 32) : Transfer ω :=
  t.modifyChannel c fun ch => { ch with CSR := ch.CSR ||| 1 }.stop

def advanceChannel (each : Word) (ch : DmaChannel) : DmaChannel :=
  { ch with
    SAR := if ch.CR &&& 0x80000000 ≠ 0 then ch.SAR + each else ch.SAR
    TAR := if ch.CR &&& 0x40000000 ≠ 0 then ch.TAR + each else ch.TAR
    CR := ch.CR - each }

/-- The loop of `socDmaPrvChannelDoBurst`. The flag says that a bus error ended it. -/
def burstLoop (c : Fin 32) (each : ℕ) : ℕ → Transfer ω → Option (Transfer ω × Bool)
  | 0, t => some (t, false)
  | num + 1, t => do
    let src := (t.channel c).SAR
    let dst := (t.channel c).TAR
    let read ← t.soc.memRead W rev src each 0
    if ¬ read.ok then return ((Transfer.mk read.soc t.writes).busError c, true)
    let written ← read.soc.memWrite W rev dst each read.buf
    let t : Transfer ω := ⟨written.soc, t.writes ++ written.writes⟩
    if ¬ written.ok then return (t.busError c, true)
    burstLoop c each num (t.modifyChannel c (advanceChannel (BitVec.ofNat 32 each)))

/-- `socDmaPrvChannelCheckForEnd`. -/
def checkForEnd (t : Transfer ω) (c : Fin 32) : Option (Transfer ω × Bool) := do
  let ch := t.channel c
  if ¬ ch.running then return (t, false)
  if ch.length ≠ 0 then return (t, false)
  let t := if ch.CR &&& 0x00200000 ≠ 0 then
    t.modifyChannel c fun ch => { ch with CSR := ch.CSR ||| 4 } else t
  if (t.channel c).noDescrFetch ∨ ch.DAR &&& 1 ≠ 0 then
    return (t.modifyChannel c DmaChannel.stop, true)
  return ({ t with soc := ← t.soc.descrFetch W rev c }, true)

/-- `socDmaPrvChannelDoBurst`. A width or a length that does not fit halts the emulator. -/
def doBurst (t : Transfer ω) (c : Fin 32) : Option (Transfer ω × Bool) := do
  let CR := (t.channel c).CR
  let width := ((CR >>> 14) &&& 3).toNat
  if width = 0 then none
  let each := 2 ^ (width - 1)
  let num := min (4 * 2 ^ ((CR >>> 16) &&& 3).toNat) (CR &&& 0x1fff).toNat
  if num % each ≠ 0 then none
  let (t, failed) ← t.burstLoop W rev c each (num / each)
  if failed then return (t, true)
  t.checkForEnd W rev c

/-- The do/while loop of `socDmaPrvChannelActIfNeeded`. -/
def workLoop (c : Fin 32) (justOne : Bool) : ℕ → Transfer ω → Bool → Option (Transfer ω × Bool)
  | 0, _, _ => none
  | limit + 1, t, irqUpdate => do
    let (t, update) ← t.doBurst W rev c
    let irqUpdate := irqUpdate || update
    if (t.channel c).length ≠ 0 ∧ ¬ justOne then workLoop c justOne limit t irqUpdate
    else return (t, irqUpdate)

/-- The part of `socDmaPrvChannelActIfNeeded` for a channel that is still running. -/
def act (limit : ℕ) (t : Transfer ω) (c : Fin 32) (irqUpdate : Bool) :
    Option (Transfer ω × Bool) :=
  let ch := t.channel c
  if ch.CR &&& 0x30000000 = 0 then workLoop W rev c false limit t irqUpdate
  else if ch.CSR &&& 0x100 ≠ 0 then workLoop W rev c true limit t irqUpdate
  else some (t, irqUpdate)

/-- `socDmaPrvChannelActIfNeeded`. -/
def actIfNeeded (limit : ℕ) (t : Transfer ω) (c : Fin 32) : Option (Transfer ω) := do
  if ¬ (t.channel c).running then return t
  let (t, irqUpdate) ← t.checkForEnd W rev c
  let (t, irqUpdate) ← (if (t.channel c).running then t.act W rev limit c irqUpdate
    else some (t, irqUpdate) : Option (Transfer ω × Bool))
  if irqUpdate then return { t with soc := ← t.soc.irqRecalc W c }
  return t

/-- `socDmaPeriodic`. -/
def dmaPeriodic (limit : ℕ) (t : Transfer ω) : Option (Transfer ω) :=
  (List.finRange 32).foldlM (actIfNeeded W rev limit) t

end Transfer

namespace Soc

/-- `socUartProcess`. -/
def uartProcess (soc : Soc ω) (i : Fin 4) : Option (Soc ω) :=
  match soc.uarts i with
  | none => some soc
  | some uart =>
    let (uart, sent) := uart.processSend
    let world := match sent with
      | some chr => W.putchar soc.world i chr
      | none => soc.world
    let (v, world) := W.getchar world i
    let (uart, irq) := (uart.processReceive v).recalc
    { soc with uarts := Function.update soc.uarts i (some uart), world := world }.effects W
      [.irq (uartIrq i) irq]

/-- `socSspPeriodic`. -/
def sspPeriodic (soc : Soc ω) (i : Fin 3) : Option (Soc ω) :=
  match soc.ssp i with
  | none => some soc
  | some ssp =>
    let (ssp, calls) := ssp.periodic (sspPort rev i) (W.sspClients soc.world i)
    { soc with ssp := Function.update soc.ssp i (some ssp) }.effects W calls

/-- `devicePeriodic`. -/
def nandPeriodic (soc : Soc ω) : Option (Soc ω) :=
  let (nand, calls) := soc.nand.periodic
  { soc with nand := nand }.effects W calls

/-- `socPrvBatch0Required`. -/
def batch0Required (soc : Soc ω) : Bool :=
  soc.dma.taskRequired ||
  (List.finRange 3).any (fun i => (soc.ssp i).any SocSsp.taskRequired) ||
  soc.nand.taskRequired ||
  (List.finRange 4).any (fun i => (soc.uarts i).any SocUart.taskRequired)

end Soc

/-- `socCycleBatch0`. -/
def socCycleBatch0 (limit : ℕ) (t : Transfer ω) : Option (Transfer ω) := do
  let t ← t.dmaPeriodic W rev limit
  let soc ← (List.finRange 4).foldlM (Soc.uartProcess W) t.soc
  let soc ← (List.finRange 3).foldlM (Soc.sspPeriodic W rev) soc
  return { t with soc := ← soc.nandPeriodic W }

/-- `SoC::DispatchTicks`: the state and the ticks to the next dispatch of the task. -/
def dispatchTicks (limit : ℕ) (t : Transfer ω) (task : TaskType) : Option (Transfer ω × Ticks) :=
  if task = aux1 then do
    let t ← socCycleBatch0 W rev limit t
    return (t, if t.soc.batch0Required then 1 else 0)
  else do
    let (reaction, ticks) := W.dispatch t.soc.world task (t.soc.scheduler.tasks task).batchedTicks
    return ({ t with soc := ← t.soc.absorb reaction }, ticks)

/-- The end of a dispatch in `Advance`: the task is read again after the delegate returned. -/
def finishDispatch (soc : Soc ω) (taskType : TaskType) (batchTicks : Ticks) : Option (Soc ω) :=
  let task := soc.scheduler.tasks taskType
  let task := { task with
    lastUpdate := task.lastUpdate + task.batchedTicks.setWidth 64 * task.period }
  (rescheduleTaskImpl false (setTask soc.scheduler taskType task) taskType batchTicks).toOption.map
    fun scheduler => { soc with scheduler := scheduler }

/-- The loop of `Advance`. -/
def advanceLoop (limit : ℕ) : ℕ → Transfer ω → Option (Transfer ω)
  | 0, _ => none
  | dispatches + 1, t =>
    let scheduler := t.soc.scheduler
    let done : Transfer ω :=
      { t with soc := { t.soc with scheduler := updateNextUpdate scheduler } }
    match scheduler.queue none with
    | none => some done
    | some task =>
      if scheduler.accTime < (scheduler.tasks task).nextUpdate then some done
      else do
        let (t, batchTicks) ← dispatchTicks W rev limit t task
        advanceLoop limit dispatches { t with soc := ← finishDispatch t.soc task batchTicks }

def advance (limit : ℕ) (t : Transfer ω) (cycles cyclesPerSecond : Time) : Option (Transfer ω) :=
  if cyclesPerSecond = 0 then none
  else
    let s := t.soc.scheduler
    let s := { s with accTime := s.accTime + cycles * oneSec / cyclesPerSecond }
    let t : Transfer ω := { t with soc := { t.soc with scheduler := s } }
    if s.accTime < s.nextUpdate then some t else advanceLoop W rev limit limit t

/-- Steps of the machine: an access of the guest, time that passes, anything else outside the
devices, or a single call of `socDmaPeriodic`. -/
inductive SocEvent (ω : Type) where
  | access (pa : Word) (size : ℕ) (write : Bool) (buf : Word)
  | advance (cycles cyclesPerSecond : Time)
  | outside (reaction : Reaction ω)
  | dmaPeriodic

def socStep (limit : ℕ) (t : Transfer ω) : SocEvent ω → Option (Transfer ω)
  | .access pa size write buf => do
    let a ← t.soc.memAccess W rev pa size write buf
    return ⟨a.soc, t.writes ++ a.writes⟩
  | .advance cycles cyclesPerSecond => Peripherals.advance W rev limit t cycles cyclesPerSecond
  | .outside reaction => do return { t with soc := ← t.soc.absorb reaction }
  | .dmaPeriodic => t.dmaPeriodic W rev limit

def socRun (limit : ℕ) (t : Transfer ω) (events : List (SocEvent ω)) : Option (Transfer ω) :=
  events.foldlM (socStep W rev limit) t

/-- `socSetupScheduler` and the devices of `socInit`. The ports tell the interrupt controller and
the DMA controller their initial state, which neither takes notice of. -/
def socInit (data : ℕ → Byte) (world : ω) : Option (Soc ω) := do
  let scheduler ← (Scheduling.run Scheduling.init [
    .call (.scheduleTask 0 (oneSec / 3686400) 1), .call (.scheduleTask 1 oneSec 1),
    .call (.scheduleTask 2 (oneSec / 11520) 1), .call (.scheduleTask aux1 (36 * oneSec / 3686400) 1),
    .call (.scheduleTask 4 (oneSec / 14700) 1), .call (.scheduleTask 6 (oneSec / 30) 1)]).toOption
  return {
    dma := .init
    uarts := fun i => if i = 1 ∧ rev = 2 then none else some .init
    ssp := fun i => if i = 2 ∧ rev = 0 then none else some (socSspInit (sspPort rev i)).1
    nand := .init data
    scheduler := scheduler
    ints := fun _ => false
    world := world }

end

end Cloudpilot.Uarm.Peripherals
