import Mathlib.Tactic
import Cloudpilot.Common.CardVolume

/-! # Sector access

The functions that the file system calls to read and write sectors of a drive. A
drive is a slot with the card volume that is registered for it. Sector numbers
and counts are 32 bit words that become byte offsets before they are compared.
-/

namespace Cloudpilot.Vfs

open Cloudpilot.Common

/-- `DRESULT`. -/
inductive DResult
  | ok
  | error
  | wrprt
  | notrdy
  | parerr
  deriving DecidableEq, Repr

def ffVolumes : ℕ := 2

def staNoinit : Byte := 0x01#8

def staNodisk : Byte := 0x02#8

/-- A registered volume with the image that it refers to. -/
structure Mounted where
  volume : CardVolume
  image : CardImage

abbrev Volumes := Fin ffVolumes → Option Mounted

/-- The entry of `volumes` for a drive number. -/
def registered (volumes : Volumes) (pdrv : Byte) : Option Mounted :=
  if h : pdrv.toNat < ffVolumes then volumes ⟨pdrv.toNat, h⟩ else none

def diskStatus (volumes : Volumes) (pdrv : Byte) : Byte :=
  if pdrv.toNat ≥ ffVolumes then staNoinit
  else if (registered volumes pdrv).isSome then 0#8
  else staNodisk

/-- The result of a sector function with the accesses to the image that it makes. -/
structure SectorResult (α : Type*) where
  result : DResult
  accesses : List Access
  state : α

/-- `disk_read`: a drive without a volume has a status other than 0. -/
def diskRead (t : Target) (volumes : Volumes) (pdrv : Byte) (buff : ℕ → Byte)
    (sector count : Word) : SectorResult (ℕ → Byte) :=
  match registered volumes pdrv with
  | none => ⟨.notrdy, [], buff⟩
  | some mounted =>
    if (sector + count) * 512#32 > mounted.volume.partitionSize then ⟨.parerr, [], buff⟩
    else
      let read := mounted.volume.read t mounted.image (sector * 512#32) (count * 512#32) buff
      ⟨if read.ok then .ok else .error, read.accesses, read.state⟩

def setImage (volumes : Volumes) (pdrv : Byte) (image : CardImage) : Volumes :=
  fun slot =>
    if slot.val = pdrv.toNat then (volumes slot).map fun mounted => { mounted with image := image }
    else volumes slot

def diskWrite (t : Target) (volumes : Volumes) (pdrv : Byte) (buff : ℕ → Byte)
    (sector count : Word) : SectorResult Volumes :=
  match registered volumes pdrv with
  | none => ⟨.notrdy, [], volumes⟩
  | some mounted =>
    if (sector + count) * 512#32 > mounted.volume.partitionSize then ⟨.parerr, [], volumes⟩
    else
      let write := mounted.volume.write t mounted.image (sector * 512#32) (count * 512#32) buff
      ⟨if write.ok then .ok else .error, write.accesses, setImage volumes pdrv write.state⟩

variable {mounted : Mounted}

theorem setImage_same {volumes : Volumes} {pdrv : Byte} (h : registered volumes pdrv = some mounted)
    : setImage volumes pdrv mounted.image = volumes := by
  funext slot
  rw [setImage]
  split_ifs with hslot
  · have hlt : pdrv.toNat < ffVolumes := hslot ▸ slot.isLt
    have heq : (⟨pdrv.toNat, hlt⟩ : Fin ffVolumes) = slot := Fin.ext hslot.symm
    rw [registered, dif_pos hlt, heq] at h
    rw [h]
    rfl
  · rfl

namespace Mounted

variable {t : Target} {mounted : Mounted} {sector count : Word}

def touches (accesses : List Access) (a : ℕ) : Prop :=
  ∃ access ∈ accesses, access.start ≤ a ∧ a < access.start + access.count

/-- The sectors are sectors of the volume, and exactly their bytes are touched. -/
def Exact (mounted : Mounted) (sector count : Word) (accesses : List Access) : Prop :=
  sector.toNat + count.toNat ≤ mounted.volume.partitionSize.toNat / 512 ∧
    ∀ a, touches accesses a ↔
      mounted.volume.partitionOffset.toNat + 512 * sector.toNat ≤ a ∧
        a < mounted.volume.partitionOffset.toNat + 512 * (sector.toNat + count.toNat)

/-- The bytes are touched that the truncated byte offsets of the request denote. -/
def Wraps (mounted : Mounted) (sector count : Word) (accesses : List Access) : Prop :=
  ∀ a, touches accesses a ↔
    (mounted.volume.partitionOffset.toNat + 512 * sector.toNat) % 2 ^ 32 ≤ a ∧
      a < (mounted.volume.partitionOffset.toNat + 512 * sector.toNat) % 2 ^ 32 +
        512 * count.toNat % 2 ^ 32

/-- A byte offset of the request is no 32 bit number. -/
def Overflows (mounted : Mounted) (sector count : Word) : Prop :=
  2 ^ 23 ≤ sector.toNat + count.toNat ∨
    (0 < count.toNat ∧ 2 ^ 32 ≤ mounted.volume.partitionOffset.toNat + 512 * sector.toNat)

/-- What is left of the byte offsets passes the checks of the volume and of the image. -/
def Admits (t : Target) (mounted : Mounted) (sector count : Word) : Prop :=
  512 * ((sector.toNat + count.toNat) % 2 ^ 23) ≤ mounted.volume.partitionSize.toNat ∧
    ¬ mounted.image.exceeds t
      ((mounted.volume.partitionOffset.toNat + 512 * sector.toNat) % 2 ^ 32)
      (512 * count.toNat % 2 ^ 32)

theorem toNat_mul_512 (x : Word) : (x * 512#32).toNat = 512 * x.toNat % 2 ^ 32 := by
  rw [BitVec.toNat_mul, Nat.mul_comm]
  rfl

theorem toNat_offset (mounted : Mounted) (sector : Word) :
    (mounted.volume.partitionOffset + sector * 512#32).toNat =
      (mounted.volume.partitionOffset.toNat + 512 * sector.toNat) % 2 ^ 32 := by
  rw [BitVec.toNat_add, toNat_mul_512, Nat.add_mod_mod]

theorem exceeds_size_iff (mounted : Mounted) (sector count : Word) :
    (sector + count) * 512#32 > mounted.volume.partitionSize ↔
      mounted.volume.partitionSize.toNat < 512 * ((sector.toNat + count.toNat) % 2 ^ 23) := by
  rw [gt_iff_lt, BitVec.lt_def, toNat_mul_512, BitVec.toNat_add]
  omega

theorem granted_iff_admits :
    CardVolume.Granted t mounted.volume mounted.image (sector * 512#32) (count * 512#32) ↔
      Admits t mounted sector count := by
  rw [CardVolume.Granted, Admits, ← BitVec.add_mul, exceeds_size_iff, toNat_offset,
    toNat_mul_512, Nat.not_lt]

theorem Admits.within (h : Admits t mounted sector count) :
    ¬ (sector + count) * 512#32 > mounted.volume.partitionSize := by
  rw [exceeds_size_iff, Nat.not_lt]
  exact h.1

/-- A granted request is exact unless a byte offset overflows. -/
theorem exact_iff_of_admits {accesses : List Access} (h : Admits t mounted sector count)
    (htouches : Wraps mounted sector count accesses) :
    Exact mounted sector count accesses ↔ ¬ Overflows mounted sector count := by
  have hadmits := h.1
  rw [Exact, Overflows, forall_congr' fun a => iff_congr (htouches a) Iff.rfl]
  constructor
  · rintro ⟨hle, hbytes⟩ hover
    have hstart := (hbytes (mounted.volume.partitionOffset.toNat + 512 * sector.toNat)).mpr
    omega
  · intro hover
    refine ⟨by omega, ?_⟩
    omega

theorem touches_singleton (start count a : ℕ) :
    touches [⟨start, count⟩] a ↔ start ≤ a ∧ a < start + count := by
  simp [touches]

end Mounted

open Mounted

variable {t : Target} {volumes : Volumes} {pdrv : Byte} {sector count : Word}

theorem wraps_read (buff : ℕ → Byte) (h : Admits t mounted sector count) :
    Wraps mounted sector count (mounted.volume.read t mounted.image (sector * 512#32)
      (count * 512#32) buff).accesses := by
  intro a
  have hgranted := granted_iff_admits.mpr h
  rw [CardVolume.read, if_neg hgranted.1, CardImage.readByteRange, if_neg hgranted.2,
    touches_singleton, toNat_offset, toNat_mul_512]

theorem wraps_write (buff : ℕ → Byte) (h : Admits t mounted sector count) :
    Wraps mounted sector count (mounted.volume.write t mounted.image (sector * 512#32)
      (count * 512#32) buff).accesses := by
  intro a
  have hgranted := granted_iff_admits.mpr h
  rw [CardVolume.write, if_neg hgranted.1, CardImage.writeByteRange, if_neg hgranted.2,
    ← toNat_offset, ← toNat_mul_512]
  by_cases hzero : (count * 512#32).toNat = 0
  · simp [hzero, touches, List.not_mem_nil, false_and, exists_false, false_iff]
  · rw [if_neg hzero, touches_singleton]

/-- A request that succeeds reaches exactly its sectors, and any other changes nothing. -/
def SectorsExact {α : Type*} (volumes : Volumes) (pdrv : Byte) (sector count : Word)
    (request : SectorResult α) (before : α) : Prop :=
  (request.result = .ok → ∃ mounted, registered volumes pdrv = some mounted ∧
    Exact mounted sector count request.accesses) ∧
  (request.result ≠ .ok → request.state = before)

/-- The sector functions at a request, whatever the contents of the buffer. -/
structure SectorAccess (t : Target) (volumes : Volumes) (pdrv : Byte) (sector count : Word) :
    Prop where
  read : ∀ buff, SectorsExact volumes pdrv sector count
    (diskRead t volumes pdrv buff sector count) buff
  write : ∀ buff, SectorsExact volumes pdrv sector count
    (diskWrite t volumes pdrv buff sector count) volumes

theorem diskRead_of_none (h : registered volumes pdrv = none) (buff : ℕ → Byte) :
    diskRead t volumes pdrv buff sector count = ⟨.notrdy, [], buff⟩ := by
  rw [diskRead, h]

theorem diskWrite_of_none (h : registered volumes pdrv = none) (buff : ℕ → Byte) :
    diskWrite t volumes pdrv buff sector count = ⟨.notrdy, [], volumes⟩ := by
  rw [diskWrite, h]

/-- Both functions check the size of the partition before they hand the request on. -/
theorem sectorsExact_iff {α : Type*} (h : registered volumes pdrv = some mounted)
    {before state : α} {ok : Bool} {accesses : List Access}
    (hok : ok = true ↔ Admits t mounted sector count) (hstate : ok = false → state = before)
    (haccesses : Admits t mounted sector count → Wraps mounted sector count accesses) :
    SectorsExact volumes pdrv sector count
        (if (sector + count) * 512#32 > mounted.volume.partitionSize then ⟨.parerr, [], before⟩
          else ⟨if ok then .ok else .error, accesses, state⟩) before ↔
      (Admits t mounted sector count → ¬ Overflows mounted sector count) := by
  by_cases hadmits : Admits t mounted sector count
  · have hexact := exact_iff_of_admits hadmits (haccesses hadmits)
    simp [SectorsExact, if_neg hadmits.within, hok.mpr hadmits, h, hexact, hadmits]
  · obtain rfl : ok = false := Bool.eq_false_iff.mpr (mt hok.mp hadmits)
    refine iff_of_true ?_ fun h => absurd h hadmits
    split
    · simp [SectorsExact]
    · simp [SectorsExact, hstate rfl]

theorem sectorsExact_read_iff (h : registered volumes pdrv = some mounted) (buff : ℕ → Byte) :
    SectorsExact volumes pdrv sector count (diskRead t volumes pdrv buff sector count) buff ↔
      (Admits t mounted sector count → ¬ Overflows mounted sector count) := by
  rw [diskRead, h]
  exact sectorsExact_iff h ((CardVolume.read_ok_iff buff).trans granted_iff_admits)
    CardVolume.read_refused (wraps_read buff)

theorem sectorsExact_write_iff (h : registered volumes pdrv = some mounted) (buff : ℕ → Byte) :
    SectorsExact volumes pdrv sector count (diskWrite t volumes pdrv buff sector count) volumes ↔
      (Admits t mounted sector count → ¬ Overflows mounted sector count) := by
  rw [diskWrite, h]
  refine sectorsExact_iff h ((CardVolume.write_ok_iff buff).trans granted_iff_admits)
    (fun hrefused => ?_) (wraps_write buff)
  rw [CardVolume.write_refused hrefused, setImage_same h]

/-- Sectors are accessed exactly unless a byte offset overflows and what is left of it passes the
checks. -/
theorem sectorAccess_iff (t : Target) (volumes : Volumes) (pdrv : Byte) (sector count : Word) :
    SectorAccess t volumes pdrv sector count ↔
      ∀ mounted ∈ registered volumes pdrv,
        ¬ (Overflows mounted sector count ∧ Admits t mounted sector count) := by
  cases h : registered volumes pdrv with
  | none =>
    refine iff_of_true ⟨?_, ?_⟩ (by simp)
    · intro buff
      rw [diskRead_of_none h]
      exact ⟨by simp, fun _ => rfl⟩
    · intro buff
      rw [diskWrite_of_none h]
      exact ⟨by simp, fun _ => rfl⟩
  | some mounted =>
    have hswap : (∀ m ∈ some mounted, ¬ (Overflows m sector count ∧ Admits t m sector count)) ↔
        (Admits t mounted sector count → ¬ Overflows mounted sector count) := by grind
    rw [hswap]
    constructor
    · intro haccess
      exact (sectorsExact_read_iff h fun _ => 0#8).mp (haccess.read _)
    · intro hnot
      exact ⟨fun buff => (sectorsExact_read_iff h buff).mpr hnot,
        fun buff => (sectorsExact_write_iff h buff).mpr hnot⟩

/-- A card of two blocks in the first slot, whose partition is the second block. -/
def smallDrive : Volumes := fun slot =>
  let image := CardVolume.smallCard 1#16 0#16
  if slot.val = 0 then some ⟨CardVolume.ofImage image, image⟩ else none

/-- The sector after 2^23 of them is the one sector of the volume. -/
theorem not_sectorAccess_smallDrive :
    ¬ SectorAccess .wasm32 smallDrive 0#8 0x800000#32 1#32 := by
  intro h
  have hok : (diskRead .wasm32 smallDrive 0#8 (fun _ => 0#8) 0x800000#32 1#32).result = .ok := by
    rfl
  obtain ⟨mounted, hmounted, hle, -⟩ := (h.read _).1 hok
  have hend : 0x800000 + 1 ≤ mounted.volume.partitionSize.toNat / 512 := hle
  omega

end Cloudpilot.Vfs
