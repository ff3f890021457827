import Cloudpilot.Common.CardTracking

/-! # Formatting a card

A formatted card has one partition behind the first sector. The bounds of the partition also stand
in its entry as cylinder, head and sector, whose cylinder is split over two bytes.
-/

namespace Cloudpilot.Common

open Cloudpilot.Library BitVec

namespace CardVolume

def readAddressCHS (vol : CardVolume) (data : ℕ → Byte) (index : Word) : AddressCHS :=
  let chs1 := vol.read8 data index
  let chs2 := vol.read8 data (index + 1#32)
  let chs3 := vol.read8 data (index + 2#32)
  ⟨chs3.setWidth 16 ||| (chs2 &&& 0xc0#8).setWidth 16 <<< 2, chs1, chs2 &&& 0x3f#8⟩

section Addresses

variable {vol : CardVolume} {address : AddressCHS} {data : ℕ → Byte} {addr : Word}

def toLBA (vol : CardVolume) (address : AddressCHS) : ℕ :=
  (address.cylinder.toNat * vol.geometryHeads.toNat + address.head.toNat) *
    vol.geometrySectors.toNat + address.sector.toNat - 1

/-- Cylinder and sector fit into their fields. -/
def Encodable (address : AddressCHS) : Prop :=
  address.cylinder.toNat < 1024 ∧ address.sector.toNat < 64

theorem lbaToCHS_spec {blocksTotal : ℕ} {lba : Word} (hmax : blocksTotal ≤ 524288)
    (hlba : lba.toNat < blocksTotal) :
    let vol := vol.calculateGeometry blocksTotal
    Encodable (vol.lbaToCHS lba) ∧ vol.toLBA (vol.lbaToCHS lba) = lba.toNat := by
  have hblocks : (BitVec.ofNat 32 blocksTotal).toNat = blocksTotal := Nat.mod_eq_of_lt (by omega)
  simp only [Encodable, toLBA, lbaToCHS, calculateGeometry, BitVec.le_def]
  split_ifs <;> simp only [BitVec.reduceMul, BitVec.toNat_add, BitVec.toNat_sub, BitVec.toNat_mul,
    BitVec.toNat_udiv, BitVec.toNat_setWidth, hblocks, BitVec.reduceToNat] at * <;> omega

theorem address_of_bytes (h : Encodable address) :
    (⟨(address.cylinder.setWidth 8).setWidth 16 |||
        (((address.sector &&& 0x3f#8) ||| ((address.cylinder >>> 2) &&& 0xc0#16).setWidth 8) &&&
          0xc0#8).setWidth 16 <<< 2, address.head,
      ((address.sector &&& 0x3f#8) ||| ((address.cylinder >>> 2) &&& 0xc0#16).setWidth 8) &&&
        0x3f#8⟩ : AddressCHS) = address := by
  obtain ⟨cylinder, head, sector⟩ := address
  have hcylinder : cylinder = (cylinder.setWidth 10).setWidth 16 := by
    apply eq_of_toNat_eq
    rw [toNat_setWidth, toNat_setWidth, Nat.mod_eq_of_lt h.1,
      Nat.mod_eq_of_lt cylinder.isLt]
  have hsector : sector = (sector.setWidth 6).setWidth 8 := by
    apply eq_of_toNat_eq
    rw [toNat_setWidth, toNat_setWidth, Nat.mod_eq_of_lt h.2,
      Nat.mod_eq_of_lt sector.isLt]
  rw [hcylinder, hsector]
  congr 1
  all_goals
    ext i hi
    interval_cases i <;> simp

section

variable (hsize : 1024 ≤ vol.imageSize.toNat)

include hsize

theorem write8_eq (haddr : addr.toNat < 512) (value : Byte) :
    vol.write8 data addr value = Function.update data addr.toNat value :=
  if_neg (by bv_omega)

theorem read8_eq (haddr : addr.toNat < 1024) : vol.read8 data addr = data addr.toNat :=
  if_neg (by bv_omega)

theorem read16_eq (haddr : addr.toNat < 1023) :
    vol.read16 data addr = data (addr.toNat + 1) ++ data addr.toNat :=
  if_neg (by bv_omega)

theorem read32_eq (haddr : addr.toNat < 1021) :
    vol.read32 data addr = data (addr.toNat + 3) ++ data (addr.toNat + 2) ++
      data (addr.toNat + 1) ++ data addr.toNat :=
  if_neg (by bv_omega)

end

end Addresses

section Table

variable {t : Target} {vol : CardVolume} {image : CardImage} {data : ℕ → Byte}

theorem append_bytes (value : Word) : (value >>> 24).setWidth 8 ++ (value >>> 16).setWidth 8 ++
    (value >>> 8).setWidth 8 ++ value.setWidth 8 = value := by
  apply eq_of_getLsbD_eq
  intro i hi
  simp only [getLsbD_append, getLsbD_setWidth, getLsbD_ushiftRight]
  interval_cases i <;> rfl

/-- What is relied upon of the first sector: one entry for everything behind it. -/
structure Partitioned (blocksTotal : ℕ) (data : ℕ → Byte) : Prop where
  type : data 0x1c2 ∈ [0x01#8, 0x04#8, 0x06#8]
  first : data 0x1c9 ++ data 0x1c8 ++ data 0x1c7 ++ data 0x1c6 = 1#32
  size : data 0x1cd ++ data 0x1cc ++ data 0x1cb ++ data 0x1ca =
    BitVec.ofNat 32 blocksTotal - 1#32
  signature : data 0x1ff ++ data 0x1fe = magicBootSignature

theorem format_spec (hsize : 1024 ≤ vol.imageSize.toNat) (hmax : image.blocksTotal ≤ 524288)
    (hmin : 2 ≤ image.blocksTotal) :
    Partitioned image.blocksTotal (vol.format t image).2.data ∧
      (vol.format t image).1.toLBA
        ((vol.format t image).1.readAddressCHS (vol.format t image).2.data 0x01bf#32) = 1 ∧
      (vol.format t image).1.toLBA
        ((vol.format t image).1.readAddressCHS (vol.format t image).2.data 0x01c3#32) =
          image.blocksTotal - 1 := by
  have hsize' : 1024 ≤ (vol.calculateGeometry image.blocksTotal).imageSize.toNat := hsize
  have hlast : (BitVec.ofNat 32 image.blocksTotal - 1#32).toNat = image.blocksTotal - 1 := by
    bv_omega
  obtain ⟨hfirst, hone⟩ := @lbaToCHS_spec vol _ 1#32 hmax hmin
  obtain ⟨hfits, hnumber⟩ := @lbaToCHS_spec vol _
    (BitVec.ofNat 32 image.blocksTotal - 1#32) hmax (by omega)
  rw [hlast] at hnumber
  rw [← address_of_bytes hfirst] at hone
  rw [← address_of_bytes hfits] at hnumber
  simp only [format, writePartitionTable, CardImage.markRangeDirty, writeAddressCHS, write32,
    write16, readAddressCHS]
  generalize vol.calculateGeometry image.blocksTotal = vol' at *
  have hfinal : 1024 ≤ ({ vol' with
      type := .partition
      partitionOffset := 512#32
      partitionSize := vol'.imageSize - 512#32 } : CardVolume).imageSize.toNat := hsize'
  simp (disch := decide) only [write8_eq hsize', read8_eq hfinal]
  have h16 : ¬ 0x01fe#32 ≥ vol'.imageSize - 1#32 := by bv_omega
  have h32 : ∀ addr ∈ [0x01c6#32, 0x01ca#32], ¬ addr ≥ vol'.imageSize - 3#32 := by
    simp only [List.forall_mem_cons, List.not_mem_nil, IsEmpty.forall_iff, implies_true, and_true]
    bv_omega
  rw [if_neg h16, if_neg (h32 0x01c6#32 (by decide)), if_neg (h32 0x01ca#32 (by decide))]
  refine ⟨⟨?_, ?_, ?_, ?_⟩, ?_, ?_⟩
  · simp
  · simp
  · simpa using append_bytes (BitVec.ofNat 32 image.blocksTotal - 1#32)
  · simp
    rfl
  · change vol'.toLBA _ = 1
    simpa using hone
  · change vol'.toLBA _ = _
    simpa using hnumber

def bootSectors (source : ℕ → Byte) : Word :=
  let total := (source 0x14 ++ source 0x13).setWidth 32
  if total = 0#32 then source 0x23 ++ source 0x22 ++ source 0x21 ++ source 0x20 else total

structure BootSector (blocksTotal : ℕ) (source : ℕ → Byte) : Prop where
  signature : source 0x1ff ++ source 0x1fe = magicBootSignature
  positive : 1 ≤ (bootSectors source).toNat
  fits : (bootSectors source).toNat ≤ blocksTotal - 1

/-- The constructor finds the partition behind the first sector. -/
def Identified (image : CardImage) : Prop :=
  (ofImage image).type = .partition ∧ (ofImage image).partitionOffset = 512#32 ∧
    (ofImage image).partitionSize = BitVec.ofNat 32 ((image.blocksTotal - 1) * 512)

theorem Partitioned.identified (hmin : 2 ≤ image.blocksTotal) (hmax : image.blocksTotal ≤ 524288)
    (h : Partitioned image.blocksTotal image.data)
    (hboot : BootSector image.blocksTotal fun addr => image.data (512 + addr)) :
    Identified image := by
  have hbytes : (blank image).imageSize.toNat = image.blocksTotal * 512 :=
    Nat.mod_eq_of_lt (by omega)
  have hsize : ∀ vol : CardVolume, vol.imageSize = (blank image).imageSize →
      1024 ≤ vol.imageSize.toNat := fun vol heq => by rw [heq]; omega
  have htype : (blank image).partitionType image.data 0 = image.data 0x1c2 :=
    read8_eq (hsize _ rfl) (by decide)
  have hfirst : (blank image).partitionFirstSector image.data 0 = 1#32 :=
    (read32_eq (hsize _ rfl) (by decide)).trans h.first
  have hsectors : (blank image).sizeSectors image.data 0 =
      BitVec.ofNat 32 image.blocksTotal - 1#32 :=
    (read32_eq (hsize _ rfl) (by decide)).trans h.size
  have hsignature : ∀ vol : CardVolume, vol.imageSize = (blank image).imageSize →
      vol.read16 image.data (512#32 + 0x01fe#32) = magicBootSignature := fun vol heq =>
    (read16_eq (hsize vol heq) (by decide)).trans hboot.signature
  have htotal : ∀ vol : CardVolume, vol.imageSize = (blank image).imageSize →
      vol.partitionOffset = 512#32 → vol.sectorsTotalFromFat image.data =
        bootSectors fun addr => image.data (512 + addr) := by
    intro vol heq hoffset
    rw [sectorsTotalFromFat, hoffset, read16_eq (hsize vol heq) (by decide),
      read32_eq (hsize vol heq) (by decide)]
    rfl
  have haccepted : (blank image).readPartition image.data 0 = (true,
      { blank image with
        partitionOffset := 512#32
        partitionSize := (BitVec.ofNat 32 image.blocksTotal - 1#32) * 512#32 }.readFatParameters
          image.data) := by
    have hbounds : ¬ (BitVec.ofNat 32 image.blocksTotal - 1#32 = 0#32 ∨
        (1#32 + (BitVec.ofNat 32 image.blocksTotal - 1#32)) * 512#32 >
          (blank image).imageSize) := by
      bv_omega
    have hcount : ¬ ((bootSectors fun addr => image.data (512 + addr)) = 0#32 ∨
        (bootSectors fun addr => image.data (512 + addr)) >
          BitVec.ofNat 32 image.blocksTotal - 1#32) := by
      have hpos := hboot.positive
      have hfits := hboot.fits
      bv_omega
    have hoffset : (1#32 * 512#32 : Word) = 512#32 := rfl
    simp only [readPartition, htype, hfirst, hsectors, hoffset]
    rw [if_neg (not_not.mpr h.type), if_neg hbounds,
      if_neg (not_not.mpr (hsignature { blank image with partitionOffset := 512#32 } rfl)),
      htotal { blank image with partitionOffset := 512#32 } rfl rfl, if_neg hcount]
  have hread : ofImage image = { { blank image with
        partitionOffset := 512#32
        partitionSize := (BitVec.ofNat 32 image.blocksTotal - 1#32) * 512#32 }.readFatParameters
          image.data with type := .partition } := by
    have hmagic : (blank image).read16 image.data 0x01fe#32 = magicBootSignature :=
      (read16_eq (hsize _ rfl) (by decide)).trans h.signature
    rw [ofImage, identify, if_neg (by bv_omega), if_neg (not_not.mpr hmagic), readPartitions,
      haccepted]
  rw [Identified, hread]
  refine ⟨rfl, rfl, ?_⟩
  simp only [readFatParameters]
  bv_omega

theorem Partitioned.fixup (h : Partitioned image.blocksTotal image.data)
    (hsize : 1024 ≤ vol.imageSize.toNat) :
    Partitioned image.blocksTotal (vol.fixupPartitionType image).data ∧
      (vol.fixupPartitionType image).blocksTotal = image.blocksTotal ∧
      ∀ addr, (vol.fixupPartitionType image).data (512 + addr) = image.data (512 + addr) := by
  obtain ⟨htype, hfirst, hbytes, hsignature⟩ := h
  rw [fixupPartitionType]
  split_ifs
  · rw [write8_eq hsize (by decide)]
    refine ⟨⟨by simp, by simpa using hfirst, by simpa using hbytes, by simpa using hsignature⟩,
      rfl, fun addr => Function.update_of_ne ?_ _ _⟩
    change 512 + addr ≠ 450
    omega
  · exact ⟨⟨htype, hfirst, hbytes, hsignature⟩, rfl, fun _ => rfl⟩

theorem Identified.fixup (hmin : 2 ≤ image.blocksTotal) (hmax : image.blocksTotal ≤ 524288)
    (h : Partitioned image.blocksTotal image.data)
    (hboot : BootSector image.blocksTotal fun addr => image.data (512 + addr))
    (hsize : 1024 ≤ vol.imageSize.toNat) : Identified (vol.fixupPartitionType image) := by
  obtain ⟨htable, hblocks, hrest⟩ := h.fixup hsize
  rw [← hblocks] at hmin hmax htable hboot
  rw [← funext hrest] at hboot
  exact htable.identified hmin hmax hboot

/-- Formatting a card and writing a boot sector gives a card with one partition. -/
theorem format_identified (t : Target) (image : CardImage) (source : ℕ → Byte)
    (hmin : 2 ≤ image.blocksTotal) (hmax : image.blocksTotal ≤ 524288)
    (hboot : BootSector image.blocksTotal source) :
    let formatted := (ofImage image).format t image
    let written := formatted.1.write t formatted.2 0#32 512#32 source
    formatted.1.toLBA (formatted.1.readAddressCHS formatted.2.data 0x01bf#32) = 1 ∧
      formatted.1.toLBA (formatted.1.readAddressCHS formatted.2.data 0x01c3#32) =
        image.blocksTotal - 1 ∧
      written.ok = true ∧ Identified written.state ∧
      Identified (formatted.1.fixupPartitionType written.state) ∧
      Identified ((ofImage written.state).fixupPartitionType written.state) := by
  have hbytes : (blank image).imageSize.toNat = image.blocksTotal * 512 :=
    Nat.mod_eq_of_lt (by omega)
  have hsize : (ofImage image).imageSize.toNat = image.blocksTotal * 512 := by
    grind [ofImage_imageSize]
  obtain ⟨htable, hfirst, hlast⟩ := @format_spec t (ofImage image) _ (by omega) hmax hmin
  intro formatted written
  have hwritten : written = ⟨true, [⟨512, 512⟩], CardImage.markRangeDirty t { formatted.2 with
      data := Buffer.copy formatted.2.data 512 source 512 } 512 512⟩ := by
    have hfits : ¬ 0#32 + 512#32 > formatted.1.partitionSize := by
      change ¬ 0#32 + 512#32 > (ofImage image).imageSize - 512#32
      bv_omega
    have hinside : ¬ formatted.2.exceeds t 512 512 := by
      change ¬ 1024 % t.sizeT > image.blocksTotal * 512 % t.sizeT
      cases t <;> simp only [Target.sizeT] <;> omega
    change (if _ then _ else CardImage.writeByteRange t formatted.2 source 512 512) = _
    rw [if_neg hfits, CardImage.writeByteRange, if_neg hinside, if_neg (by decide)]
  have hfront : ∀ addr < 512, written.state.data addr = formatted.2.data addr := by
    intro addr haddr
    rw [hwritten]
    exact Buffer.copy_outside (.inl haddr)
  have hpartition : Partitioned image.blocksTotal written.state.data := by
    obtain ⟨htype, hfirst, hsectors, hsignature⟩ := htable
    constructor
    all_goals simp (disch := decide) only [hfront]
    exacts [htype, hfirst, hsectors, hsignature]
  have hsource : BootSector image.blocksTotal fun addr => written.state.data (512 + addr) := by
    have hsame : ∀ addr < 512, written.state.data (512 + addr) = source addr := by
      intro addr haddr
      rw [hwritten]
      exact (Buffer.copy_inside (by omega) (by omega)).trans (by rw [Nat.add_sub_cancel_left])
    obtain ⟨hsignature, hpositive, hfits⟩ := hboot
    have htotal : (bootSectors fun addr => written.state.data (512 + addr)) =
        bootSectors source := by
      simp (disch := decide) only [bootSectors, hsame]
    constructor
    · simpa (disch := decide) only [hsame] using hsignature
    · rwa [htotal]
    · rwa [htotal]
  have hblocks : written.state.blocksTotal = image.blocksTotal := by rw [hwritten]; rfl
  have hnew : 1024 ≤ (ofImage written.state).imageSize.toNat := by
    rw [ofImage_imageSize, hblocks]
    exact hbytes.symm ▸ (by omega)
  rw [← hblocks] at hmin hmax hpartition hsource
  refine ⟨hfirst, hlast, by rw [hwritten], hpartition.identified hmin hmax hsource, ?_, ?_⟩
  · refine .fixup hmin hmax hpartition hsource ?_
    change 1024 ≤ (ofImage image).imageSize.toNat
    omega
  · exact .fixup hmin hmax hpartition hsource hnew

def oneSector (addr : ℕ) : Byte :=
  if addr = 0x13 then 0x01#8 else if addr = 0x1fe then 0x55#8 else if addr = 0x1ff then 0xaa#8
  else 0#8

theorem format_identified_two :
    let image := newCardImage (fun _ => 0#8) (fun _ => 0#8) 2
    let formatted := (ofImage image).format .wasm32 image
    Identified (formatted.1.write .wasm32 formatted.2 0#32 512#32 oneSector).state :=
  (format_identified .wasm32 (newCardImage (fun _ => 0#8) (fun _ => 0#8) 2) oneSector (by decide)
    (by decide) ⟨by decide, by decide, by decide⟩).2.2.2.1

end Table

end CardVolume

end Cloudpilot.Common
