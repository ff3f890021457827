import Mathlib.Tactic
import Cloudpilot.Common.CardImage

/-! # Card volumes

The partition of a card that the file system tools work on. Sector numbers of the
partition table and the offsets of a request are 32 bit words: their sums and
products wrap before they are compared with the size of the image.
-/

namespace Cloudpilot.Common

open Cloudpilot.Library

inductive VolumeType
  | partition
  | bigFloppy
  | invalid
  deriving DecidableEq, Repr

structure CardVolume where
  imageSize : Word
  type : VolumeType := .invalid
  invalidReason : String := ""
  partitionOffset : Word := 0#32
  partitionSize : Word := 0#32
  geometryHeads : Word := 0#32
  geometrySectors : Word := 0#32
  sectorsPerCluster : Word := 0#32

namespace CardVolume

def magicBootSignature : BitVec 16 := 0xaa55#16

def read8 (vol : CardVolume) (data : ℕ → Byte) (addr : Word) : Byte :=
  if addr ≥ vol.imageSize then 0#8 else data addr.toNat

def read16 (vol : CardVolume) (data : ℕ → Byte) (addr : Word) : BitVec 16 :=
  if addr ≥ vol.imageSize - 1#32 then 0#16 else data (addr.toNat + 1) ++ data addr.toNat

def read32 (vol : CardVolume) (data : ℕ → Byte) (addr : Word) : Word :=
  if addr ≥ vol.imageSize - 3#32 then 0#32
  else
    data (addr.toNat + 3) ++ data (addr.toNat + 2) ++ data (addr.toNat + 1) ++ data addr.toNat

def readFatParameters (vol : CardVolume) (data : ℕ → Byte) : CardVolume :=
  { vol with
    geometrySectors := (vol.read16 data (vol.partitionOffset + 0x18#32)).setWidth 32
    geometryHeads := (vol.read16 data (vol.partitionOffset + 0x1a#32)).setWidth 32
    sectorsPerCluster := (vol.read8 data (vol.partitionOffset + 0x0d#32)).setWidth 32 }

/-- The address of an entry of the partition table. -/
def entryBase (index : Fin 4) : Word := 0x01be#32 + BitVec.ofNat 32 index * 16#32

def partitionType (vol : CardVolume) (data : ℕ → Byte) (index : Fin 4) : Byte :=
  vol.read8 data (entryBase index + 0x04#32)

def partitionFirstSector (vol : CardVolume) (data : ℕ → Byte) (index : Fin 4) : Word :=
  vol.read32 data (entryBase index + 0x08#32)

def sizeSectors (vol : CardVolume) (data : ℕ → Byte) (index : Fin 4) : Word :=
  vol.read32 data (entryBase index + 0x0c#32)

def sectorsTotalFromFat (vol : CardVolume) (data : ℕ → Byte) : Word :=
  let total := (vol.read16 data (vol.partitionOffset + 0x13#32)).setWidth 32
  if total = 0#32 then vol.read32 data (vol.partitionOffset + 0x20#32) else total

/-- An entry that fails the later checks has already moved `partitionOffset`. -/
def readPartition (vol : CardVolume) (data : ℕ → Byte) (index : Fin 4) : Bool × CardVolume :=
  let firstSector := vol.partitionFirstSector data index
  let size := vol.sizeSectors data index
  if vol.partitionType data index ∉ [0x01#8, 0x04#8, 0x06#8] then (false, vol)
  else if size = 0#32 ∨ (firstSector + size) * 512#32 > vol.imageSize then (false, vol)
  else
    let vol := { vol with partitionOffset := firstSector * 512#32 }
    if vol.read16 data (vol.partitionOffset + 0x01fe#32) ≠ magicBootSignature then (false, vol)
    else if vol.sectorsTotalFromFat data = 0#32 ∨ vol.sectorsTotalFromFat data > size then
      (false, vol)
    else (true, { vol with partitionSize := size * 512#32 }.readFatParameters data)

/-- `ReadPartition(i) || ...` over the entries in order. -/
def readPartitions (data : ℕ → Byte) : List (Fin 4) → CardVolume → Bool × CardVolume
  | [], vol => (false, vol)
  | index :: rest, vol =>
    match vol.readPartition data index with
    | (true, vol) => (true, vol)
    | (false, vol) => readPartitions data rest vol

def identify (vol : CardVolume) (data : ℕ → Byte) : CardVolume :=
  if vol.imageSize < 512#32 then { vol with invalidReason := "image too small" }
  else if vol.read16 data 0x01fe#32 ≠ magicBootSignature then
    { vol with invalidReason := "no boot signature" }
  else
    match readPartitions data [0, 1, 2, 3] vol with
    | (true, vol) => { vol with type := .partition }
    | (false, vol) =>
      { vol with type := .bigFloppy, partitionOffset := 0#32,
                 partitionSize := vol.imageSize }.readFatParameters data

/-- The volume before `Identify` has run. -/
def blank (image : CardImage) : CardVolume :=
  { imageSize := BitVec.ofNat 32 (image.blocksTotal * 512) }

/-- The constructor. -/
def ofImage (image : CardImage) : CardVolume :=
  (blank image).identify image.data

def read (t : Target) (vol : CardVolume) (image : CardImage) (offset size : Word)
    (destination : ℕ → Byte) : CardImage.RangeResult (ℕ → Byte) :=
  if offset + size > vol.partitionSize then ⟨false, [], destination⟩
  else image.readByteRange t destination (vol.partitionOffset + offset).toNat size.toNat

def write (t : Target) (vol : CardVolume) (image : CardImage) (offset size : Word)
    (source : ℕ → Byte) : CardImage.RangeResult CardImage :=
  if offset + size > vol.partitionSize then ⟨false, [], image⟩
  else image.writeByteRange t source (vol.partitionOffset + offset).toNat size.toNat

end CardVolume

namespace CardVolume

variable {vol vol' : CardVolume} {data : ℕ → Byte} {index : Fin 4}

theorem readPartition_imageSize (vol : CardVolume) (data : ℕ → Byte) (index : Fin 4) :
    (vol.readPartition data index).2.imageSize = vol.imageSize := by
  simp only [readPartition]
  split_ifs <;> rfl

/-- The entry passes all checks of `ReadPartition`. -/
def Accepts (imageSize : Word) (data : ℕ → Byte) (index : Fin 4) : Prop :=
  (readPartition { imageSize := imageSize } data index).1 = true

theorem readPartition_fst (vol : CardVolume) (data : ℕ → Byte) (index : Fin 4) :
    (vol.readPartition data index).1 = true ↔ Accepts vol.imageSize data index := by
  have hfirst : partitionFirstSector { imageSize := vol.imageSize } data index =
    vol.partitionFirstSector data index := rfl
  have hsize : sizeSectors { imageSize := vol.imageSize } data index =
    vol.sizeSectors data index := rfl
  have htype : partitionType { imageSize := vol.imageSize } data index =
    vol.partitionType data index := rfl
  simp only [Accepts, readPartition, hfirst, hsize, htype, sectorsTotalFromFat, read16, read32]
  split_ifs <;> rfl

theorem readPartition_accepted (h : (vol.readPartition data index).1 = true) :
    (vol.readPartition data index).2.partitionOffset =
        vol.partitionFirstSector data index * 512#32 ∧
      (vol.readPartition data index).2.partitionSize = vol.sizeSectors data index * 512#32 ∧
      (vol.partitionFirstSector data index + vol.sizeSectors data index) * 512#32 ≤
        vol.imageSize := by
  revert h
  simp only [readPartition]
  split_ifs with htype hsize hsig htotal
  all_goals simp
  · exact ⟨rfl, rfl, BitVec.not_lt.mp (not_or.mp hsize).2⟩

/-- The entry that `Identify` takes: the first one that is accepted. -/
structure Taken (imageSize : Word) (data : ℕ → Byte) (index : Fin 4) : Prop where
  large : ¬ imageSize < 512#32
  signature : read16 { imageSize := imageSize } data 0x01fe#32 = magicBootSignature
  accepted : Accepts imageSize data index
  first : ∀ earlier < index, ¬ Accepts imageSize data earlier

theorem readPartitions_cases (data : ℕ → Byte) (indices : List (Fin 4)) (vol : CardVolume) :
    (∃ (index : Fin 4) (vol₀ : CardVolume), index ∈ indices ∧ vol₀.imageSize = vol.imageSize ∧
        (∀ earlier ∈ indices.takeWhile (· ≠ index), ¬ Accepts vol.imageSize data earlier) ∧
        (vol₀.readPartition data index).1 = true ∧
        readPartitions data indices vol = (true, (vol₀.readPartition data index).2)) ∨
      ((∀ index ∈ indices, ¬ Accepts vol.imageSize data index) ∧
        ∃ vol' : CardVolume, vol'.imageSize = vol.imageSize ∧
          readPartitions data indices vol = (false, vol')) := by
  induction indices generalizing vol with
  | nil => exact Or.inr ⟨by simp, vol, rfl, rfl⟩
  | cons index rest ih =>
    have hread : vol.readPartition data index =
        ((vol.readPartition data index).1, (vol.readPartition data index).2) := rfl
    have hsize := readPartition_imageSize vol data index
    cases hok : (vol.readPartition data index).1 with
    | true =>
      refine Or.inl ⟨index, vol, by simp, rfl, by simp, hok, ?_⟩
      rw [readPartitions, hread, hok]
    | false =>
      have hnot : ¬ Accepts vol.imageSize data index := by
        rw [← readPartition_fst, hok]
        exact Bool.false_ne_true
      have hstep : readPartitions data (index :: rest) vol =
          readPartitions data rest (vol.readPartition data index).2 := by
        rw [readPartitions, hread, hok]
      rw [hstep]
      rcases ih (vol.readPartition data index).2 with
        ⟨i, vol₀, hmem, hvol, hfirst, hacc, heq⟩ | ⟨hnone, vol', hvol, heq⟩
      · rw [hsize] at hvol hfirst
        refine Or.inl ⟨i, vol₀, List.mem_cons_of_mem _ hmem, hvol, ?_, hacc, heq⟩
        intro earlier hearlier
        by_cases hi : index = i
        · simp [hi] at hearlier
        · rw [List.takeWhile_cons_of_pos (by simpa using hi), List.mem_cons] at hearlier
          rcases hearlier with rfl | hearlier
          · exact hnot
          · grind
      · grind

theorem mem_takeWhile_of_lt : ∀ index earlier : Fin 4, earlier < index →
    earlier ∈ ([0, 1, 2, 3] : List (Fin 4)).takeWhile (· ≠ index) := by
  decide

theorem identify_cases (size : Word) (data : ℕ → Byte) :
    let vol := identify { imageSize := size } data
    (vol.type = .invalid ∧ vol.partitionOffset = 0#32 ∧ vol.partitionSize = 0#32 ∧
        ∀ index, ¬ Taken size data index) ∨
      (vol.type = .bigFloppy ∧ vol.partitionOffset = 0#32 ∧ vol.partitionSize = size ∧
        ∀ index, ¬ Taken size data index) ∨
      ∃ index, Taken size data index ∧ vol.type = .partition ∧
        vol.partitionOffset = partitionFirstSector { imageSize := size } data index * 512#32 ∧
        vol.partitionSize = sizeSectors { imageSize := size } data index * 512#32 ∧
        (partitionFirstSector { imageSize := size } data index +
          sizeSectors { imageSize := size } data index) * 512#32 ≤ size := by
  intro vol
  by_cases hsmall : size < 512#32
  · have hvol : vol = { imageSize := size, invalidReason := "image too small" } := if_pos hsmall
    exact Or.inl ⟨by rw [hvol], by rw [hvol], by rw [hvol], fun index h => h.large hsmall⟩
  by_cases hsig : read16 { imageSize := size } data 0x01fe#32 = magicBootSignature
  · have hvol : vol = match readPartitions data [0, 1, 2, 3] { imageSize := size } with
        | (true, vol) => { vol with type := .partition }
        | (false, vol) =>
          { vol with type := .bigFloppy, partitionOffset := 0#32,
                     partitionSize := vol.imageSize }.readFatParameters data := by
      show identify _ _ = _
      rw [identify, if_neg hsmall, if_neg (not_not.mpr hsig)]
    rcases readPartitions_cases data [0, 1, 2, 3] { imageSize := size } with
      ⟨index, vol₀, -, hsize, hfirst, hacc, heq⟩ | ⟨hnone, vol', hsize, heq⟩
    · right; right
      have htaken : Taken size data index := by
        refine ⟨hsmall, hsig, ?_, ?_⟩
        · rwa [readPartition_fst, hsize] at hacc
        · intro earlier hlt
          exact hfirst earlier (mem_takeWhile_of_lt index earlier hlt)
      obtain ⟨hoffset, hpsize, hle⟩ := readPartition_accepted hacc
      have hfst : vol₀.partitionFirstSector data index =
          partitionFirstSector { imageSize := size } data index := by
        simp [partitionFirstSector, read32, hsize]
      have hsec : vol₀.sizeSectors data index = sizeSectors { imageSize := size } data index := by
        simp [sizeSectors, read32, hsize]
      rw [hfst] at hoffset hle
      rw [hsec] at hpsize hle
      rw [hsize] at hle
      rw [heq] at hvol
      exact ⟨index, htaken, by rw [hvol], by rw [hvol]; exact hoffset, by rw [hvol]; exact hpsize,
        hle⟩
    · right; left
      rw [heq] at hvol
      refine ⟨by rw [hvol]; rfl, by rw [hvol]; rfl, by rw [hvol]; exact hsize, ?_⟩
      intro index h
      exact hnone index (by fin_cases index <;> simp) h.accepted
  · have hvol : vol = { imageSize := size, invalidReason := "no boot signature" } := by
      show identify _ _ = _
      rw [identify, if_neg hsmall, if_pos hsig]
    exact Or.inl ⟨by rw [hvol], by rw [hvol], by rw [hvol], fun index h => hsig h.signature⟩

end CardVolume

namespace CardVolume

variable {t : Target} {vol : CardVolume} {image : CardImage} {offset size : Word}

/-- A successful request touches only its own range, which lies in the partition; a refused one
changes nothing. -/
def Within {α : Type*} (vol : CardVolume) (offset size : Word) (result : CardImage.RangeResult α)
    (before : α) : Prop :=
  (result.ok = true → offset.toNat + size.toNat ≤ vol.partitionSize.toNat ∧
    ∀ access ∈ result.accesses, ∀ a, access.start ≤ a → a < access.start + access.count →
      vol.partitionOffset.toNat + offset.toNat ≤ a ∧
        a < vol.partitionOffset.toNat + offset.toNat + size.toNat) ∧
  (result.ok = false → result.state = before)

structure Confined (t : Target) (image : CardImage) (offset size : Word) : Prop where
  partition : (ofImage image).type ≠ .invalid →
    (ofImage image).partitionOffset.toNat + (ofImage image).partitionSize.toNat ≤
      image.blocksTotal * 512
  read : ∀ destination,
    Within (ofImage image) offset size ((ofImage image).read t image offset size destination)
      destination
  write : ∀ source,
    Within (ofImage image) offset size ((ofImage image).write t image offset size source) image

/-- The end of the entry that `Identify` takes is a 32 bit number. -/
def EntryFits (image : CardImage) : Prop :=
  ∀ index, Taken (blank image).imageSize image.data index →
    ((blank image).partitionFirstSector image.data index * 512#32).toNat +
      ((blank image).sizeSectors image.data index * 512#32).toNat < 2 ^ 32

/-- The end of the request is no 32 bit number, and what is left of it passes the checks. -/
def RequestWraps (t : Target) (vol : CardVolume) (offset size : Word) : Prop :=
  2 ^ 32 ≤ offset.toNat + size.toNat ∧
    offset.toNat + size.toNat - 2 ^ 32 ≤ vol.partitionSize.toNat ∧
    (t = .wasm32 ∨ 2 ^ 32 ≤ vol.partitionOffset.toNat + offset.toNat)

/-- Both checks of a request are passed. -/
def Granted (t : Target) (vol : CardVolume) (image : CardImage) (offset size : Word) : Prop :=
  ¬ offset + size > vol.partitionSize ∧
    ¬ image.exceeds t (vol.partitionOffset + offset).toNat size.toNat

theorem granted_iff (hsize : image.blocksTotal * 512 < 2 ^ 32)
    (hvol : vol.partitionOffset.toNat + vol.partitionSize.toNat ≤ image.blocksTotal * 512) :
    Granted t vol image offset size ↔
      offset.toNat + size.toNat ≤ vol.partitionSize.toNat ∨ RequestWraps t vol offset size := by
  have hle : ¬ offset + size > vol.partitionSize ↔
      (offset.toNat + size.toNat) % 2 ^ 32 ≤ vol.partitionSize.toNat := by simp [BitVec.le_def]
  rw [Granted, hle, CardImage.exceeds, BitVec.toNat_add, blockSize, RequestWraps]
  cases t with
  | wasm32 =>
    simp only [Target.sizeT, true_or, and_true]
    omega
  | native64 =>
    simp only [Target.sizeT, reduceCtorEq, false_or]
    omega

theorem read_ok_iff (destination : ℕ → Byte) :
    (vol.read t image offset size destination).ok = true ↔ Granted t vol image offset size := by
  simp only [read, CardImage.readByteRange, Granted]
  split_ifs with hpart himage
  · simp [hpart]
  · simp only [himage, not_true_eq_false, and_false]
  · simp only [hpart, himage, not_false_eq_true, and_self]

theorem write_ok_iff (source : ℕ → Byte) :
    (vol.write t image offset size source).ok = true ↔ Granted t vol image offset size := by
  simp only [write, CardImage.writeByteRange, Granted]
  split_ifs with hpart himage
  · simp [hpart]
  · simp only [himage, not_true_eq_false, and_false]
  all_goals simp only [hpart, himage, not_false_eq_true, and_self]

theorem read_accesses {destination : ℕ → Byte} {access : Access}
    (h : access ∈ (vol.read t image offset size destination).accesses) :
    access = ⟨(vol.partitionOffset + offset).toNat, size.toNat⟩ := by
  revert h
  simp only [read, CardImage.readByteRange]
  split_ifs <;> simp

theorem write_accesses {source : ℕ → Byte} {access : Access}
    (h : access ∈ (vol.write t image offset size source).accesses) :
    access = ⟨(vol.partitionOffset + offset).toNat, size.toNat⟩ := by
  revert h
  simp only [write, CardImage.writeByteRange]
  split_ifs <;> simp

theorem read_refused {destination : ℕ → Byte}
    (h : (vol.read t image offset size destination).ok = false) :
    (vol.read t image offset size destination).state = destination := by
  revert h
  simp only [read, CardImage.readByteRange]
  split_ifs <;> simp

theorem write_refused {source : ℕ → Byte}
    (h : (vol.write t image offset size source).ok = false) :
    (vol.write t image offset size source).state = image := by
  revert h
  simp only [write, CardImage.writeByteRange]
  split_ifs <;> simp

/-- In a partition that lies in the image, a request stays inside unless its end wraps. -/
theorem within_iff {α : Type*} {result : CardImage.RangeResult α} {before : α}
    (hsize : image.blocksTotal * 512 < 2 ^ 32)
    (hvol : vol.partitionOffset.toNat + vol.partitionSize.toNat ≤ image.blocksTotal * 512)
    (hok : result.ok = true ↔ Granted t vol image offset size)
    (haccess : ∀ access ∈ result.accesses,
      access = ⟨(vol.partitionOffset + offset).toNat, size.toNat⟩)
    (hrefused : result.ok = false → result.state = before) :
    Within vol offset size result before ↔ ¬ RequestWraps t vol offset size := by
  rw [granted_iff hsize hvol] at hok
  constructor
  · intro hwithin hwraps
    have hend := (hwithin.1 (hok.mpr (Or.inr hwraps))).1
    have hlarge := hwraps.1
    omega
  · intro hwraps
    refine ⟨?_, hrefused⟩
    intro hgranted
    have hend := (hok.mp hgranted).resolve_right hwraps
    refine ⟨hend, ?_⟩
    intro access hmem a hstart hlt
    rw [haccess access hmem] at hstart hlt
    have hstart_eq : (vol.partitionOffset + offset).toNat =
        vol.partitionOffset.toNat + offset.toNat := by
      rw [BitVec.toNat_add, Nat.mod_eq_of_lt (by omega)]
    rw [hstart_eq] at hstart hlt
    exact ⟨hstart, hlt⟩

theorem partition_inside_iff (hsize : image.blocksTotal * 512 < 2 ^ 32) :
    (ofImage image).partitionOffset.toNat + (ofImage image).partitionSize.toNat ≤
      image.blocksTotal * 512 ↔ EntryFits image := by
  have himage : (BitVec.ofNat 32 (image.blocksTotal * 512)).toNat = image.blocksTotal * 512 := by
    grind
  rcases identify_cases (BitVec.ofNat 32 (image.blocksTotal * 512)) image.data with
    ⟨-, hoffset, hpsize, hnone⟩ | ⟨-, hoffset, hpsize, hnone⟩ |
    ⟨index, htaken, -, hoffset, hpsize, hle⟩
  · have hfits : EntryFits image := fun index h => absurd h (hnone index)
    simp only [hfits, iff_true]
    simp only [ofImage, blank, hoffset, hpsize]
    simp
  · have hfits : EntryFits image := fun index h => absurd h (hnone index)
    simp only [hfits, iff_true]
    simp only [ofImage, blank, hoffset, hpsize, himage]
    simp
  · have honly : EntryFits image ↔
        ((blank image).partitionFirstSector image.data index * 512#32).toNat +
          ((blank image).sizeSectors image.data index * 512#32).toNat < 2 ^ 32 := by
      constructor
      · intro h
        exact h index htaken
      · intro h other hother
        rcases lt_trichotomy other index with hlt | rfl | hlt
        · exact absurd hother.accepted (htaken.first other hlt)
        · exact h
        · exact absurd htaken.accepted (hother.first index hlt)
    rw [honly]
    simp only [ofImage, blank, hoffset, hpsize]
    rw [BitVec.add_mul, BitVec.le_def, BitVec.toNat_add, himage] at hle
    omega

/-- A volume and a request on it are confined exactly when neither the end of the partition in the
table nor the end of the request wraps into the accepted range. -/
theorem confined_iff (t : Target) (image : CardImage) (hsize : image.blocksTotal * 512 < 2 ^ 32)
    (offset size : Word) :
    Confined t image offset size ↔
      EntryFits image ∧ ¬ RequestWraps t (ofImage image) offset size := by
  have hwithin : ∀ hfits : EntryFits image,
      (∀ destination, Within (ofImage image) offset size
        ((ofImage image).read t image offset size destination) destination ↔
          ¬ RequestWraps t (ofImage image) offset size) ∧
      (∀ source, Within (ofImage image) offset size
        ((ofImage image).write t image offset size source) image ↔
          ¬ RequestWraps t (ofImage image) offset size) := by
    intro hfits
    have hvol := (partition_inside_iff hsize).mpr hfits
    exact ⟨fun destination => within_iff hsize hvol (read_ok_iff destination)
        (fun _ h => read_accesses h) read_refused,
      fun source => within_iff hsize hvol (write_ok_iff source)
        (fun _ h => write_accesses h) write_refused⟩
  constructor
  · intro h
    have hfits : EntryFits image := by
      intro index htaken
      have hvalid : (ofImage image).type ≠ .invalid := by
        intro hinvalid
        rcases identify_cases (BitVec.ofNat 32 (image.blocksTotal * 512)) image.data with
          ⟨-, -, -, hnone⟩ | ⟨htype, -⟩ | ⟨_, _, htype, -⟩
        · exact hnone index htaken
        · exact absurd (htype.symm.trans hinvalid) (by decide)
        · exact absurd (htype.symm.trans hinvalid) (by decide)
      exact (partition_inside_iff hsize).mp (h.partition hvalid) index htaken
    exact ⟨hfits, ((hwithin hfits).1 (fun _ => 0#8)).mp (h.read _)⟩
  · rintro ⟨hfits, hwraps⟩
    exact ⟨fun _ => (partition_inside_iff hsize).mpr hfits,
      fun destination => ((hwithin hfits).1 destination).mpr hwraps,
      fun source => ((hwithin hfits).2 source).mpr hwraps⟩

/-- A card of two blocks whose first partition starts at the second one, with the given low and high
byte pairs of the number of its sectors. -/
def smallCard (sectorsLow sectorsHigh : BitVec 16) : CardImage where
  data a :=
    match a with
    | 0x1c2 => 0x01#8
    | 0x1c6 => 0x01#8
    | 0x1ca => sectorsLow.setWidth 8
    | 0x1cb => (sectorsLow >>> 8).setWidth 8
    | 0x1cc => sectorsHigh.setWidth 8
    | 0x213 => 0x01#8
    | 0x1fe | 0x3fe => 0x55#8
    | 0x1ff | 0x3ff => 0xaa#8
    | _ => 0#8
  dirtyPages _ := 0#8
  blocksTotal := 2

theorem confined_smallCard : Confined .wasm32 (smallCard 1#16 0#16) 0x100#32 0x100#32 :=
  (confined_iff .wasm32 (smallCard 1#16 0#16) (by decide) 0x100#32 0x100#32).mpr
    ⟨fun index _ => by fin_cases index <;> decide, fun h => absurd h.1 (by decide)⟩

/-- The table claims all but one of the 2^23 sectors that a byte offset can address. -/
theorem not_confined_smallCard : ¬ Confined .native64 (smallCard 0xffff#16 0x7f#16) 0#32 0#32 := by
  intro h
  exact absurd (h.partition (by decide)) (by decide)

/-- `card_is_valid_range`. -/
def cardIsValidRange (vol : CardVolume) (offset size : Word) : Bool :=
  0 ≤ offset.toInt && 0 ≤ size.toInt && offset + size ≤ vol.partitionSize

end CardVolume

end Cloudpilot.Common
