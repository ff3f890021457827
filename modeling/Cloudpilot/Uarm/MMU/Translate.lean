import Cloudpilot.Uarm.Cpu.State

/-! # Address translation

The page table walk, the table of cached translations and the calls that flush
it. The memory is seen through the four-byte reads of the walk; a read outside
every region fails.
-/
namespace Cloudpilot.Uarm.MMU
open Cloudpilot.Uarm.Cpu

abbrev Memory := Word → Option Word
abbrev Fsr := BitVec 8
abbrev MMUTranslateResult := BitVec 64
abbrev Page := BitVec 20

def mmuDisabledTTP : Word := 0xFFFFFFFF

structure TlbEntry where
  pa : Word
  revision : BitVec 16
  ap : BitVec 2
  domain : BitVec 4
  c : Bool
  isSection : Bool
  deriving DecidableEq, Repr

structure ArmMmu where
  mem : Memory
  transTablPA : Word
  xscale : Bool
  domainCfg : Word
  tlb : Page → TlbEntry
  revision : BitVec 16

/-- The index of the entry that serves an address. -/
def tlbIndex (adr : Word) : Page := (adr >>> 12).setWidth 20

/-- The tags are cleared only when the revision wraps. -/
def mmuTlbFlush (mmu : ArmMmu) : ArmMmu :=
  if mmu.revision + 1 = 0 then
    { mmu with revision := 1, tlb := fun i => { mmu.tlb i with revision := 0 } }
  else { mmu with revision := mmu.revision + 1 }

def mmuReset (mmu : ArmMmu) : ArmMmu :=
  mmuTlbFlush { mmu with transTablPA := mmuDisabledTTP }

/-- Zeroed memory, then a reset. -/
def mmuInit (mem : Memory) (xscaleMode : Bool) : ArmMmu :=
  mmuReset {
    mem, transTablPA := 0, xscale := xscaleMode, domainCfg := 0
    tlb := fun _ => ⟨0, 0, 0, 0, false, false⟩, revision := 0 }

def mmuIsOn (mmu : ArmMmu) : Bool := mmu.transTablPA ≠ mmuDisabledTTP

def mmuSetTTP (mmu : ArmMmu) (ttp : Word) : ArmMmu :=
  { mmuTlbFlush mmu with transTablPA := ttp }

def mmuSetDomainCfg (mmu : ArmMmu) (val : Word) : ArmMmu := { mmu with domainCfg := val }

def translateResultFault (fsr : Fsr) : MMUTranslateResult :=
  (1#64 <<< 63) ||| (fsr.setWidth 64 <<< 32)

/-- A physical address with the cacheable bit. -/
def translateResult (pa : Word) (c : Bool) : MMUTranslateResult :=
  if c then pa.setWidth 64 ||| (1#64 <<< 62) else pa.setWidth 64

def mmuTranslateResultOk (result : MMUTranslateResult) : Bool := result &&& (1#64 <<< 63) = 0

def mmuTranslateResultCacheable (result : MMUTranslateResult) : Bool :=
  result &&& (1#64 <<< 62) ≠ 0

def mmuTranslateResultPa (result : MMUTranslateResult) : Word := result.setWidth 32

def mmuTranslateResultFsr (result : MMUTranslateResult) : Fsr :=
  ((result >>> 32) &&& 0xff#64).setWidth 8

/-- A fault status with the domain in its upper half. -/
def fsrInDomain (fsr : Fsr) (domain : BitVec 4) : Fsr := fsr ||| (domain.setWidth 8 <<< 4)

/-- Zero when the write is allowed, else the fault status. -/
def checkPermissionsForWrite (mmu : ArmMmu) (ap : BitVec 2) (domain : BitVec 4)
    (isSection priviledged : Bool) : Fsr :=
  let access := (mmu.domainCfg >>> (domain.toNat * 2)) &&& 3#32
  if access = 0 ∨ access = 2 then fsrInDomain (if isSection then 0x08 else 0x0B) domain
  else if access = 3 then 0
  else if ap = 3 then 0
  else if ap ≠ 0 ∧ priviledged = true then 0
  else fsrInDomain (if isSection then 0x0D else 0x0F) domain

/-- What the walk knows when it reaches its label `translated`. -/
structure Mapping where
  va : Word
  paPage : Word
  sz : Word
  ap : BitVec 2
  dom : BitVec 4
  c : Bool
  isSection : Bool
  deriving DecidableEq, Repr

def sectionMapping (adr t : Word) (dom : BitVec 4) : Mapping where
  va := adr &&& 0xFFF00000#32
  paPage := t &&& 0xFFF00000#32
  sz := 0x100000
  ap := ((t >>> 10) &&& 3#32).setWidth 2
  dom := dom
  c := t &&& 0x08#32 ≠ 0
  isSection := true

def tinyMapping (adr t : Word) (dom : BitVec 4) : Mapping where
  va := adr &&& 0xFFFFFC00#32
  paPage := t &&& 0xFFFFFC00#32
  sz := 1024
  ap := ((t >>> 4) &&& 3#32).setWidth 2
  dom := dom
  c := t &&& 0x08#32 ≠ 0
  isSection := false

/-- All four access permissions of a page descriptor are the same. -/
def sameAps (t : Word) : Bool :=
  let i := (t >>> 4) &&& 0xFF#32
  i &&& 0x0F#32 = i >>> 4 ∧ i &&& 0x03#32 = (i >>> 2) &&& 0x03#32

/-- A page with four access permissions, of which `quarter` is the one asked for:
the whole page when they agree, else the quarter. -/
def pageMapping (va paPage sz t : Word) (quarter : BitVec 2) (texPage : Bool)
    (dom : BitVec 4) : Mapping :=
  if texPage || sameAps t then
    { va, paPage, sz, ap := ((t >>> 4) &&& 3#32).setWidth 2, dom
      c := t &&& 0x08#32 ≠ 0, isSection := false }
  else
    { va := va + quarter.setWidth 32 * (sz / 4#32)
      paPage := paPage + quarter.setWidth 32 * (sz / 4#32)
      sz := sz / 4#32
      ap := ((t >>> (4 + 2 * quarter.toNat)) &&& 3#32).setWidth 2, dom
      c := t &&& 0x08#32 ≠ 0, isSection := false }

def largePageMapping (adr t : Word) (dom : BitVec 4) : Mapping :=
  pageMapping (adr &&& 0xFFFF0000#32) (t &&& 0xFFFF0000#32) 65536 t
    (((adr >>> 14) &&& 3#32).setWidth 2) false dom

def smallPageMapping (adr t : Word) (dom : BitVec 4) : Mapping :=
  pageMapping (adr &&& 0xFFFFF000#32) (t &&& 0xFFFFF000#32) 4096 t
    (((adr >>> 10) &&& 3#32).setWidth 2) false dom

def texPageMapping (adr t : Word) (dom : BitVec 4) : Mapping :=
  pageMapping (adr &&& 0xFFFFF000#32) (t &&& 0xFFFFF000#32) 4096 t 0 true dom

/-- The second level of the walk, for the descriptor `t` that was read. -/
def pageDescriptor (xscale coarse : Bool) (adr t : Word) (dom : BitVec 4) :
    Except Fsr Mapping :=
  if t &&& 3#32 = 0 then .error (fsrInDomain 0x07 dom)
  else if t &&& 3#32 = 1 then .ok (largePageMapping adr t dom)
  else if t &&& 3#32 = 2 then .ok (smallPageMapping adr t dom)
  else if coarse then
    if xscale then .ok (texPageMapping adr t dom) else .error 0x07
  else .ok (tinyMapping adr t dom)

def firstLevelSlot (mmu : ArmMmu) (adr : Word) : Word :=
  mmu.transTablPA + ((adr &&& 0xFFF00000#32) >>> 18)

def coarseSlot (t adr : Word) : Word := (t &&& 0xFFFFFC00#32) + ((adr &&& 0x000FF000#32) >>> 10)

def fineSlot (t adr : Word) : Word := (t &&& 0xFFFFF000#32) + ((adr &&& 0x000FFC00#32) >>> 8)

def secondLevel (mmu : ArmMmu) (coarse : Bool) (slot adr : Word) (dom : BitVec 4) :
    Except Fsr Mapping :=
  match mmu.mem slot with
  | none => .error (fsrInDomain 0x0E dom)
  | some t => pageDescriptor mmu.xscale coarse adr t dom

def firstLevel (mmu : ArmMmu) (adr t : Word) : Except Fsr Mapping :=
  let dom : BitVec 4 := ((t >>> 5) &&& 0x0F#32).setWidth 4
  if t &&& 3#32 = 0 then .error 0x05
  else if t &&& 3#32 = 1 then secondLevel mmu true (coarseSlot t adr) adr dom
  else if t &&& 3#32 = 2 then .ok (sectionMapping adr t dom)
  else secondLevel mmu false (fineSlot t adr) adr dom

/-- `translateAndCache` up to its label `translated`. -/
def walk (mmu : ArmMmu) (adr : Word) : Except Fsr Mapping :=
  if mmu.transTablPA &&& 3#32 ≠ 0 then .error 0x01
  else
    match mmu.mem (firstLevelSlot mmu adr) with
    | none => .error 0x0C
    | some t => firstLevel mmu adr t

def Mapping.entry (p : Mapping) (revision : BitVec 16) (offset : Word) : TlbEntry where
  pa := p.paPage + offset
  revision := revision
  ap := p.ap
  domain := p.dom
  c := p.c
  isSection := p.isSection

/-- The fill loop after `n` rounds of 4096 bytes. -/
def fillTlb (mmu : ArmMmu) (p : Mapping) : ℕ → Page → TlbEntry
  | 0 => mmu.tlb
  | n + 1 => Function.update (fillTlb mmu p n) (tlbIndex (p.va + BitVec.ofNat 32 (n * 4096)))
      (p.entry mmu.revision (BitVec.ofNat 32 (n * 4096)))

def cacheMapping (mmu : ArmMmu) (p : Mapping) : ArmMmu :=
  if p.sz > 1024 then { mmu with tlb := fillTlb mmu p (p.sz.toNat / 4096) } else mmu

/-- The permission check of a write, then the address. -/
def translated (mmu : ArmMmu) (pa : Word) (ap : BitVec 2) (domain : BitVec 4)
    (isSection c priviledged write : Bool) : MMUTranslateResult :=
  let fsr := checkPermissionsForWrite mmu ap domain isSection priviledged
  if write = true ∧ fsr ≠ 0 then translateResultFault fsr else translateResult pa c

def translateAndCache (mmu : ArmMmu) (adr : Word) (priviledged write : Bool) :
    MMUTranslateResult × ArmMmu :=
  match walk mmu adr with
  | .error fsr => (translateResultFault fsr, mmu)
  | .ok p =>
    (translated mmu ((adr - p.va) + p.paPage) p.ap p.dom p.isSection p.c priviledged write,
      cacheMapping mmu p)

def mmuTranslate (mmu : ArmMmu) (addr : Word) (priviledged write : Bool) :
    MMUTranslateResult × ArmMmu :=
  if mmu.transTablPA = mmuDisabledTTP then (addr.setWidth 64, mmu)
  else
    let e := mmu.tlb (tlbIndex addr)
    if e.revision ≠ mmu.revision then translateAndCache mmu addr priviledged write
    else
      (translated mmu ((addr &&& 0xfff#32) + e.pa) e.ap e.domain e.isSection e.c priviledged write, mmu)

/-- The calls into the MMU, and a change of the memory behind it. -/
inductive Op where
  | translate (addr : Word) (priviledged write : Bool)
  | setDomainCfg (val : Word)
  | tlbFlush
  | setTTP (ttp : Word)
  | reset
  | store (mem : Memory)

def step (mmu : ArmMmu) : Op → ArmMmu
  | .translate addr priviledged write => (mmuTranslate mmu addr priviledged write).2
  | .setDomainCfg val => mmuSetDomainCfg mmu val
  | .tlbFlush => mmuTlbFlush mmu
  | .setTTP ttp => mmuSetTTP mmu ttp
  | .reset => mmuReset mmu
  | .store mem => { mmu with mem }

def run (mmu : ArmMmu) (ops : List Op) : ArmMmu := ops.foldl step mmu

def Op.flushes : Op → Bool
  | .tlbFlush | .setTTP _ | .reset => true
  | _ => false

/-- The second level descriptor of an address, when its first level names a table. -/
def pageTableEntry (mmu : ArmMmu) (adr : Word) : Option Word :=
  (mmu.mem (firstLevelSlot mmu adr)).bind fun t =>
    if t &&& 3#32 = 1 then mmu.mem (coarseSlot t adr)
    else if t &&& 3#32 = 3 then mmu.mem (fineSlot t adr)
    else none

/-- The descriptors of large and small pages fill all the slots that the page covers. -/
def Replicated (mmu : ArmMmu) : Prop :=
  ∀ a b t : Word, pageTableEntry mmu a = some t →
    (t &&& 3#32 = 1 → a >>> 16 = b >>> 16 → pageTableEntry mmu b = some t) ∧
    (t &&& 3#32 = 2 → a >>> 12 = b >>> 12 → pageTableEntry mmu b = some t)

/-- No walk can tell the memory from the one at the last flush. -/
def SameTables (mmu : ArmMmu) (flushed : Memory) : Prop :=
  ∀ adr, walk { mmu with mem := flushed } adr = walk mmu adr

/-- The tables are replicated and do not change between flushes, as far as translations see them. -/
def Quiet : ArmMmu → Memory → List Op → Prop
  | _, _, [] => True
  | mmu, flushed, op :: ops =>
    (match op with
      | .translate _ _ _ => mmuIsOn mmu = true → SameTables mmu flushed ∧ Replicated mmu
      | _ => True) ∧
    Quiet (step mmu op) (if op.flushes then mmu.mem else flushed) ops

end Cloudpilot.Uarm.MMU
