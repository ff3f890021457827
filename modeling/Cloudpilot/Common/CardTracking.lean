import Cloudpilot.Common.CardVolume
import Cloudpilot.Library.DirtyPages

/-! # Formatting a card, and the dirty pages of everything that writes to it

The volume writes past the card image, into its memory, when it formats a card or changes the type
of a partition, and marks what it has written itself, or not at all.
-/

namespace Cloudpilot.Common

open Cloudpilot.Library Cloudpilot.Library.PartialRun

namespace CardVolume

def write8 (vol : CardVolume) (data : ℕ → Byte) (addr : Word) (value : Byte) : ℕ → Byte :=
  if addr ≥ vol.imageSize then data else Function.update data addr.toNat value

def write16 (vol : CardVolume) (data : ℕ → Byte) (addr : Word) (value : BitVec 16) : ℕ → Byte :=
  if addr ≥ vol.imageSize - 1#32 then data
  else
    let data := Function.update data addr.toNat (value.setWidth 8)
    Function.update data (addr + 1#32).toNat ((value >>> 8).setWidth 8)

def write32 (vol : CardVolume) (data : ℕ → Byte) (addr : Word) (value : Word) : ℕ → Byte :=
  if addr ≥ vol.imageSize - 3#32 then data
  else
    let data := Function.update data addr.toNat (value.setWidth 8)
    let data := Function.update data (addr + 1#32).toNat ((value >>> 8).setWidth 8)
    let data := Function.update data (addr + 2#32).toNat ((value >>> 16).setWidth 8)
    Function.update data (addr + 3#32).toNat ((value >>> 24).setWidth 8)

structure AddressCHS where
  cylinder : BitVec 16
  head : Byte
  sector : Byte

def writeAddressCHS (vol : CardVolume) (data : ℕ → Byte) (index : Word) (address : AddressCHS) :
    ℕ → Byte :=
  let data := vol.write8 data index address.head
  let data := vol.write8 data (index + 1#32)
    ((address.sector &&& 0x3f#8) ||| ((address.cylinder >>> 2) &&& 0xc0#16).setWidth 8)
  vol.write8 data (index + 2#32) (address.cylinder.setWidth 8)

def calculateGeometry (vol : CardVolume) (blocksTotal : ℕ) : CardVolume :=
  let sectorsTotal : Word := BitVec.ofNat 32 blocksTotal
  { vol with
    geometryHeads :=
      if sectorsTotal ≤ 32768#32 then 2#32
      else if sectorsTotal ≤ 65536#32 then 4#32
      else if sectorsTotal ≤ 262144#32 then 8#32
      else 16#32
    geometrySectors := if sectorsTotal ≤ 4096#32 then 16#32 else 32#32 }

def lbaToCHS (vol : CardVolume) (addressLBA : Word) : AddressCHS :=
  let cylinder : BitVec 16 := (addressLBA / (vol.geometryHeads * vol.geometrySectors)).setWidth 16
  let addressLBA :=
    addressLBA - cylinder.setWidth 32 * vol.geometryHeads * vol.geometrySectors
  let head : Byte := (addressLBA / vol.geometrySectors).setWidth 8
  let addressLBA := addressLBA - head.setWidth 32 * vol.geometrySectors
  ⟨cylinder, head, (addressLBA + 1#32).setWidth 8⟩

/-- The one entry of the table covers all but the first block. -/
def writePartitionTable (vol : CardVolume) (data : ℕ → Byte) (blocksTotal : ℕ) : ℕ → Byte :=
  let last : Word := BitVec.ofNat 32 blocksTotal - 1#32
  let data := vol.write8 data 0x01be#32 0x80#8
  let data := vol.writeAddressCHS data 0x01bf#32 (vol.lbaToCHS 1#32)
  let data := vol.write8 data 0x01c2#32 0x01#8
  let data := vol.writeAddressCHS data 0x01c3#32 (vol.lbaToCHS last)
  let data := vol.write32 data 0x01c6#32 0x01#32
  let data := vol.write32 data 0x01ca#32 last
  vol.write16 data 0x01fe#32 magicBootSignature

def format (t : Target) (vol : CardVolume) (image : CardImage) : CardVolume × CardImage :=
  let data := Buffer.copy image.data 0 (fun _ => 0#8) vol.imageSize.toNat
  let vol := vol.calculateGeometry image.blocksTotal
  let image := { image with data := vol.writePartitionTable data image.blocksTotal }
  ({ vol with type := .partition, partitionOffset := 512#32, partitionSize := vol.imageSize - 512#32 },
    image.markRangeDirty t 0 vol.imageSize.toNat)

/-- The type follows the name of the file system, and no page is marked. -/
def fixupPartitionType (vol : CardVolume) (image : CardImage) : CardImage :=
  if vol.read8 image.data (vol.partitionOffset + 0x3a#32) = 0x36#8 then
    { image with data := vol.write8 image.data 0x01c2#32 0x06#8 }
  else image

end CardVolume

/-- A card with a volume on it, and its contents when the bitmap was cleared last. -/
structure Card where
  image : CardImage
  volume : CardVolume
  cleared : ℕ → Byte

inductive Call
  | write (source : ℕ → Byte) (index count : ℕ)
  | writeByteRange (source : ℕ → Byte) (offset count : ℕ)
  | volumeWrite (offset size : Word) (source : ℕ → Byte)
  | format
  | fixupPartitionType
  | newVolume
  | clear

/-- A card that has just been created, with a volume on it. -/
def newCard (data memory : ℕ → Byte) (blocksTotal : ℕ) : Card where
  image := newCardImage data memory blocksTotal
  volume := .ofImage (newCardImage data memory blocksTotal)
  cleared := data

/-- A call with its result, which is false also for the number 0. -/
def Call.run (t : Target) (card : Card) : Call → Bool × Card
  | .write source index count =>
    let (written, image) := card.image.write source index count
    (written ≠ 0, { card with image })
  | .writeByteRange source offset count =>
    let result := card.image.writeByteRange t source offset count
    (result.ok, { card with image := result.state })
  | .volumeWrite offset size source =>
    let result := card.volume.write t card.image offset size source
    (result.ok, { card with image := result.state })
  | .format =>
    let (volume, image) := card.volume.format t card.image
    (true, { card with volume, image })
  | .fixupPartitionType => (true, { card with image := card.volume.fixupPartitionType card.image })
  | .newVolume => (true, { card with volume := .ofImage card.image })
  | .clear =>
    (true,
      { card with
        image := newCardImage card.image.data card.image.dirtyPages card.image.blocksTotal
        cleared := card.image.data })

def Call.step (t : Target) (card : Card) (call : Call) : Option Card := some (call.run t card).2

/-- Whatever has changed since the bitmap was cleared lies in a marked page. -/
def Card.Tracked (card : Card) : Prop :=
  ∀ a < card.image.blocksTotal * blockSize, card.image.data a ≠ card.cleared a →
    Bitmap.marked card.image.dirtyPages (a / 8192)

structure Keeps (t : Target) (card : Card) (call : Call) : Prop where
  tracked : (call.run t card).2.Tracked
  outside : ∀ page, pageCount card.image.blocksTotal ≤ page →
    (Bitmap.marked (call.run t card).2.image.dirtyPages page ↔
      Bitmap.marked card.image.dirtyPages page)
  refused : (call.run t card).1 = false → (call.run t card).2.image = card.image

def EndsInRange (t : Target) (image : CardImage) (offset count : ℕ) : Prop :=
  image.exceeds t offset count ∨ offset + count < t.sizeT

/-- The type of the partition changes in a page that is not marked. -/
def ChangesUnmarked (card : Card) : Prop :=
  card.volume.read8 card.image.data (card.volume.partitionOffset + 0x3a#32) = 0x36#8 ∧
    0x1c2 < card.volume.imageSize.toNat ∧ card.image.data 0x1c2 ≠ 0x06#8 ∧
    ¬Bitmap.marked card.image.dirtyPages 0

def Call.Tracks (t : Target) (card : Card) : Call → Prop
  | .writeByteRange _ offset count => EndsInRange t card.image offset count
  | .volumeWrite offset size _ =>
    offset + size > card.volume.partitionSize ∨
      EndsInRange t card.image (card.volume.partitionOffset + offset).toNat size.toNat
  | .format => card.volume.imageSize ≠ 0#32
  | .fixupPartitionType => ¬ChangesUnmarked card
  | _ => True

section Marks

variable {image image' image'' : CardImage} {S S' : Set ℕ} {block : ℕ}

structure Marks (S : Set ℕ) (image image' : CardImage) : Prop where
  blocksTotal : image'.blocksTotal = image.blocksTotal
  data : ∀ a, image'.data a ≠ image.data a → a / blockSize ∈ S
  marked : ∀ page, Bitmap.marked image'.dirtyPages page ↔
    Bitmap.marked image.dirtyPages page ∨ ∃ block ∈ S, block / 16 = page

theorem marks_refl : Marks ∅ image image := ⟨rfl, fun _ h => absurd rfl h, fun _ => by simp⟩

theorem Marks.trans (h : Marks S image image') (h' : Marks S' image' image'') :
    Marks (S ∪ S') image image'' where
  blocksTotal := h'.blocksTotal.trans h.blocksTotal
  data a ha := by
    by_cases hsame : image'.data a = image.data a
    · exact .inr (h'.data a (hsame ▸ ha))
    · exact .inl (h.data a hsame)
  marked page := by
    rw [h'.marked, h.marked, or_assoc]
    simp only [Set.mem_union, or_and_right, exists_or]

theorem markBlockDirty_eq (dirtyPages : ℕ → Byte) (block : ℕ) :
    CardImage.markBlockDirty dirtyPages block = Bitmap.mark dirtyPages (block / 16) := by
  have hbit : (block >>> 4) &&& 0x07 = block / 16 % 8 := by
    rw [Nat.shiftRight_eq_div_pow]
    exact Nat.and_two_pow_sub_one_eq_mod (block / 16) 3
  have hbyte : block >>> 4 >>> 3 = block / 16 / 8 := by omega
  rw [CardImage.markBlockDirty, hbit, hbyte]
  rfl

theorem marks_writeBlock (source : ℕ → Byte) (index : ℕ) :
    Marks {block} image (image.writeBlock source index block) where
  blocksTotal := rfl
  data a ha := by
    rw [CardImage.writeBlock] at ha
    dsimp only at ha
    by_contra hother
    rw [Set.mem_singleton_iff, blockSize] at hother
    have hout : a < block * blockSize ∨ block * blockSize + blockSize ≤ a := by
      rw [blockSize]
      omega
    exact ha (Buffer.copy_outside hout)
  marked page := by
    simp only [CardImage.writeBlock, markBlockDirty_eq, Bitmap.marked_mark, Set.mem_singleton_iff,
      exists_eq_left, @eq_comm _ page]

theorem marks_writeBlocks (source : ℕ → Byte) (index : ℕ) (blocks : List ℕ) :
    Marks {block | block ∈ blocks} image
      (blocks.foldl (fun image block => image.writeBlock source index block) image) := by
  induction blocks generalizing image with
  | nil => simpa using marks_refl
  | cons block blocks ih =>
    have hfirst : Marks {block} image (image.writeBlock source index block) :=
      marks_writeBlock source index
    simpa only [List.foldl_cons, List.mem_cons, Set.ofPred_or, Set.ofPred_eq_eq_singleton] using
      hfirst.trans ih

theorem marked_foldl (dirtyPages : ℕ → Byte) (blocks : List ℕ) (page : ℕ) :
    Bitmap.marked (blocks.foldl CardImage.markBlockDirty dirtyPages) page ↔
      Bitmap.marked dirtyPages page ∨ ∃ block ∈ blocks, block / 16 = page := by
  induction blocks generalizing dirtyPages with
  | nil => simp
  | cons block blocks ih =>
    rw [List.foldl_cons, ih, markBlockDirty_eq, Bitmap.marked_mark, or_assoc]
    simp [@eq_comm _ page]

theorem marks_markRangeDirty {t : Target} {data : ℕ → Byte} {offset count : ℕ}
    (hcount : 0 < count) (hend : offset + count < t.sizeT)
    (hdata : ∀ a, data a ≠ image.data a → offset ≤ a ∧ a < offset + count) :
    Marks {block | offset / blockSize ≤ block ∧ block ≤ (offset + count - 1) / blockSize} image
      (CardImage.markRangeDirty t { image with data } offset count) where
  blocksTotal := rfl
  data a ha := by
    obtain ⟨hle, hlt⟩ := hdata a ha
    exact ⟨Nat.div_le_div_right hle, Nat.div_le_div_right (by omega)⟩
  marked page := by
    have hlast : (offset + count + t.sizeT - 1) % t.sizeT = offset + count - 1 := by
      rw [show offset + count + t.sizeT - 1 = offset + count - 1 + t.sizeT by omega,
        Nat.add_mod_right, Nat.mod_eq_of_lt (by omega)]
    have hle : offset / blockSize ≤ (offset + count - 1) / blockSize :=
      Nat.div_le_div_right (by omega)
    have hmem : ∀ block, block ∈ List.range' (offset / blockSize)
        ((offset + count - 1) / blockSize + 1 - offset / blockSize) ↔
        offset / blockSize ≤ block ∧ block ≤ (offset + count - 1) / blockSize := by
      intro block
      rw [List.mem_range'_1]
      omega
    simp only [CardImage.markRangeDirty, hlast, marked_foldl, hmem, Set.mem_ofPred_eq]

def MarksInside (image image' : CardImage) : Prop :=
  ∃ S, Marks S image image' ∧ ∀ block ∈ S, block < image.blocksTotal

theorem marksInside_refl : MarksInside image image :=
  ⟨∅, marks_refl, fun _ h => absurd h (Set.notMem_empty _)⟩

theorem marks_write (source : ℕ → Byte) (index count : ℕ) :
    MarksInside image (image.write source index count).2 := by
  rw [CardImage.write]
  split_ifs with hindex
  · exact marksInside_refl
  · refine ⟨_, marks_writeBlocks source index _, ?_⟩
    intro block hblock
    rw [Set.mem_ofPred_eq, List.mem_range'_1] at hblock
    omega

theorem marks_writeByteRange {t : Target} (source : ℕ → Byte) {offset count : ℕ}
    (hsize : image.blocksTotal * blockSize < t.sizeT) (h : EndsInRange t image offset count) :
    MarksInside image (image.writeByteRange t source offset count).state := by
  rw [CardImage.writeByteRange]
  split_ifs with hexceeds hcount
  · exact marksInside_refl
  · exact marksInside_refl
  · have hend := h.resolve_left hexceeds
    refine ⟨_, marks_markRangeDirty (by omega) hend ?_, ?_⟩
    · intro a ha
      by_contra hout
      exact ha (Buffer.copy_outside (by omega))
    · rintro block ⟨-, hle⟩
      rw [CardImage.exceeds, Nat.mod_eq_of_lt hend, Nat.mod_eq_of_lt hsize] at hexceeds
      rw [blockSize] at hle hexceeds
      omega

theorem marks_volumeWrite {t : Target} {vol : CardVolume} {offset size : Word} (source : ℕ → Byte)
    (hsize : image.blocksTotal * blockSize < t.sizeT)
    (h : offset + size > vol.partitionSize ∨
      EndsInRange t image (vol.partitionOffset + offset).toNat size.toNat) :
    MarksInside image (vol.write t image offset size source).state := by
  rw [CardVolume.write]
  split_ifs with hpartition
  · exact marksInside_refl
  · exact marks_writeByteRange source hsize (h.resolve_left hpartition)

end Marks

section Format

variable {vol : CardVolume} {data : ℕ → Byte} {addr : Word} {a : ℕ}

theorem write8_of_ge (haddr : addr.toNat < 512) (ha : 512 ≤ a) (value : Byte) :
    vol.write8 data addr value a = data a := by
  rw [CardVolume.write8]
  split_ifs
  · rfl
  · exact Function.update_of_ne (by omega) _ _

theorem write16_of_ge (haddr : addr.toNat < 511) (ha : 512 ≤ a) (value : BitVec 16) :
    vol.write16 data addr value a = data a := by
  have hnext : (addr + 1#32).toNat < 512 := by bv_omega
  rw [CardVolume.write16]
  split_ifs
  · rfl
  · simp only [Function.update_of_ne (show a ≠ addr.toNat by omega),
      Function.update_of_ne (show a ≠ (addr + 1#32).toNat by omega)]

theorem write32_of_ge (haddr : addr.toNat < 509) (ha : 512 ≤ a) (value : Word) :
    vol.write32 data addr value a = data a := by
  have hnext : (addr + 1#32).toNat < 512 ∧ (addr + 2#32).toNat < 512 ∧
      (addr + 3#32).toNat < 512 := by bv_omega
  rw [CardVolume.write32]
  split_ifs
  · rfl
  · simp only [Function.update_of_ne (show a ≠ addr.toNat by omega),
      Function.update_of_ne (show a ≠ (addr + 1#32).toNat by omega),
      Function.update_of_ne (show a ≠ (addr + 2#32).toNat by omega),
      Function.update_of_ne (show a ≠ (addr + 3#32).toNat by omega)]

theorem writeAddressCHS_of_ge (haddr : addr.toNat < 510) (ha : 512 ≤ a)
    (address : CardVolume.AddressCHS) : vol.writeAddressCHS data addr address a = data a := by
  have hnext : (addr + 1#32).toNat < 512 ∧ (addr + 2#32).toNat < 512 := by bv_omega
  rw [CardVolume.writeAddressCHS, write8_of_ge hnext.2 ha, write8_of_ge hnext.1 ha,
    write8_of_ge (by omega) ha]

theorem writePartitionTable_of_ge (ha : 512 ≤ a) (blocksTotal : ℕ) :
    vol.writePartitionTable data blocksTotal a = data a := by
  rw [CardVolume.writePartitionTable, write16_of_ge (by decide) ha, write32_of_ge (by decide) ha,
    write32_of_ge (by decide) ha, writeAddressCHS_of_ge (by decide) ha, write8_of_ge (by decide) ha,
    writeAddressCHS_of_ge (by decide) ha, write8_of_ge (by decide) ha]

theorem imageSize_bounds {t : Target} {blocksTotal : ℕ}
    (hvol : vol.imageSize = BitVec.ofNat 32 (blocksTotal * 512)) (hne : vol.imageSize ≠ 0#32) :
    512 ≤ vol.imageSize.toNat ∧ vol.imageSize.toNat ≤ blocksTotal * 512 ∧
      vol.imageSize.toNat < t.sizeT := by
  have hpos : vol.imageSize.toNat ≠ 0 := fun h => hne (BitVec.eq_of_toNat_eq h)
  have hwidth : 2 ^ 32 ≤ t.sizeT := by cases t <;> decide
  have hmod : vol.imageSize.toNat = blocksTotal * 512 % 2 ^ 32 := by simp [hvol]
  omega

theorem marks_format {t : Target} {image : CardImage}
    (hvol : vol.imageSize = BitVec.ofNat 32 (image.blocksTotal * 512)) (hne : vol.imageSize ≠ 0#32) :
    MarksInside image (vol.format t image).2 := by
  obtain ⟨hmin, hmax, hlt⟩ := imageSize_bounds (t := t) hvol hne
  have hpos : 0 < vol.imageSize.toNat := by omega
  have hend : 0 + vol.imageSize.toNat < t.sizeT := by rwa [Nat.zero_add]
  have hgeometry : (vol.calculateGeometry image.blocksTotal).imageSize = vol.imageSize := rfl
  simp only [CardVolume.format, hgeometry]
  refine ⟨_, marks_markRangeDirty hpos hend ?_, ?_⟩
  · intro a ha
    by_contra hout
    apply ha
    rw [writePartitionTable_of_ge (by omega)]
    exact Buffer.copy_outside (by omega)
  · rintro block ⟨-, hle⟩
    rw [blockSize] at hle
    omega

end Format

section Calls

variable {t : Target} {card : Card} {call : Call}

/-- What holds between the calls: marks, a clear rest of the bitmap, and a volume that knows the
size of the card. -/
structure Card.Consistent (t : Target) (card : Card) : Prop where
  size : card.image.blocksTotal * blockSize < t.sizeT
  tracked : card.Tracked
  rest : ∀ page, pageCount card.image.blocksTotal ≤ page →
    page / 8 < dirtyPageBufferSize card.image.blocksTotal → ¬Bitmap.marked card.image.dirtyPages page
  volume : card.volume.imageSize = BitVec.ofNat 32 (card.image.blocksTotal * 512)

theorem block_page_lt {block blocksTotal : ℕ} (h : block < blocksTotal) :
    block / 16 < pageCount blocksTotal := by
  rw [pageCount, Nat.shiftRight_eq_div_pow]
  split_ifs <;> omega

theorem MarksInside.keeps (call : Call) (h : MarksInside card.image (call.run t card).2.image)
    (hcleared : (call.run t card).2.cleared = card.cleared)
    (hrefused : (call.run t card).1 = false → (call.run t card).2.image = card.image)
    (hvol : (call.run t card).2.volume.imageSize = BitVec.ofNat 32 (card.image.blocksTotal * 512))
    (hcard : card.Consistent t) : Keeps t card call ∧ (call.run t card).2.Consistent t := by
  obtain ⟨S, h, hS⟩ := h
  have htracked : (call.run t card).2.Tracked := by
    intro a ha hne
    rw [h.blocksTotal] at ha
    rw [hcleared] at hne
    rw [h.marked]
    by_cases hsame : (call.run t card).2.image.data a = card.image.data a
    · rw [hsame] at hne
      exact .inl (hcard.tracked a ha hne)
    · exact .inr ⟨a / blockSize, h.data a hsame, by rw [blockSize]; omega⟩
  have houtside : ∀ page, pageCount card.image.blocksTotal ≤ page →
      (Bitmap.marked (call.run t card).2.image.dirtyPages page ↔
        Bitmap.marked card.image.dirtyPages page) := by
    intro page hpage
    rw [h.marked, or_iff_left]
    rintro ⟨block, hblock, rfl⟩
    exact absurd (block_page_lt (hS block hblock)) (Nat.not_lt.mpr hpage)
  refine ⟨⟨htracked, houtside, hrefused⟩, ⟨?_, htracked, ?_, ?_⟩⟩
  · rw [h.blocksTotal]
    exact hcard.size
  · rw [h.blocksTotal]
    intro page hpage hrest
    rw [houtside page hpage]
    exact hcard.rest page hpage hrest
  · rwa [h.blocksTotal]

theorem write_refused {image : CardImage} {source : ℕ → Byte} {index count : ℕ}
    (h : (image.write source index count).1 = 0) : (image.write source index count).2 = image := by
  grind [CardImage.write]

theorem writeByteRange_refused {image : CardImage} {source : ℕ → Byte} {offset count : ℕ}
    (h : (image.writeByteRange t source offset count).ok = false) :
    (image.writeByteRange t source offset count).state = image := by
  grind [CardImage.writeByteRange]

theorem marks_fixupPartitionType (h : ¬ChangesUnmarked card)
    (hvol : card.volume.imageSize = BitVec.ofNat 32 (card.image.blocksTotal * 512)) :
    MarksInside card.image (card.volume.fixupPartitionType card.image) := by
  rw [CardVolume.fixupPartitionType]
  split_ifs with hname
  · rw [CardVolume.write8]
    split_ifs with hsmall
    · exact marksInside_refl
    · have haddr : (0x01c2#32 : Word).toNat = 0x1c2 := rfl
      rw [haddr]
      by_cases htype : card.image.data 0x1c2 = 0x06#8
      · rw [← htype, Function.update_eq_self]
        exact marksInside_refl
      · have hlarge : 0x1c2 < card.volume.imageSize.toNat := by bv_omega
        have hmarked : Bitmap.marked card.image.dirtyPages 0 := by
          by_contra hmarked
          exact h ⟨hname, hlarge, htype, hmarked⟩
        refine ⟨{0}, ⟨rfl, ?_, ?_⟩, ?_⟩
        · intro a ha
          rcases eq_or_ne a 0x1c2 with rfl | hne
          · rfl
          · exact absurd (Function.update_of_ne hne _ _) ha
        · intro page
          simp only [Set.mem_singleton_iff, exists_eq_left]
          constructor
          · exact .inl
          · rintro (hpage | rfl)
            · exact hpage
            · exact hmarked
        · rintro block rfl
          rw [hvol, BitVec.toNat_ofNat] at hlarge
          omega
  · exact marksInside_refl

theorem readPartitions_imageSize (data : ℕ → Byte) (indices : List (Fin 4)) (vol : CardVolume) :
    (CardVolume.readPartitions data indices vol).2.imageSize = vol.imageSize := by
  induction indices generalizing vol with
  | nil => rfl
  | cons index rest ih =>
    have hsize := CardVolume.readPartition_imageSize vol data index
    rw [CardVolume.readPartitions]
    rcases hread : vol.readPartition data index with ⟨ok, vol'⟩
    rw [hread] at hsize
    cases ok with
    | true => exact hsize
    | false => exact (ih vol').trans hsize

theorem ofImage_imageSize (image : CardImage) :
    (CardVolume.ofImage image).imageSize = BitVec.ofNat 32 (image.blocksTotal * 512) := by
  have hsize := readPartitions_imageSize image.data [0, 1, 2, 3] (CardVolume.blank image)
  rw [CardVolume.ofImage, CardVolume.identify]
  split_ifs
  · rfl
  · rfl
  · rcases hread : CardVolume.readPartitions image.data [0, 1, 2, 3] (CardVolume.blank image) with
      ⟨ok, vol⟩
    rw [hread] at hsize
    cases ok with
    | true => exact hsize
    | false => exact hsize

theorem clear_keeps (hcard : card.Consistent t) :
    Keeps t card .clear ∧ (Call.clear.run t card).2.Consistent t := by
  have htracked : (Call.clear.run t card).2.Tracked := fun a _ hne => absurd rfl hne
  have hclear : ∀ page, page / 8 < dirtyPageBufferSize card.image.blocksTotal →
      ¬Bitmap.marked (Call.clear.run t card).2.image.dirtyPages page := by
    intro page hpage
    simp only [Call.run, newCardImage, Bitmap.marked, if_pos hpage]
    simp
  refine ⟨⟨htracked, ?_, fun h => by cases h⟩, ⟨hcard.size, htracked, ?_, hcard.volume⟩⟩
  · intro page hpage
    by_cases hrest : page / 8 < dirtyPageBufferSize card.image.blocksTotal
    · exact iff_of_false (hclear page hrest) (hcard.rest page hpage hrest)
    · simp [Call.run, newCardImage, Bitmap.marked, if_neg hrest]
  · exact fun page _ hrest => hclear page hrest

theorem call_keeps (hcard : card.Consistent t) (h : call.Tracks t card) :
    Keeps t card call ∧ (call.run t card).2.Consistent t := by
  cases call with
  | write source index count =>
    exact (marks_write source index count).keeps (.write source index count) rfl
      (fun hzero => write_refused (by simpa [Call.run] using hzero)) hcard.volume hcard
  | writeByteRange source offset count =>
    exact (marks_writeByteRange source hcard.size h).keeps (.writeByteRange source offset count) rfl
      writeByteRange_refused hcard.volume hcard
  | volumeWrite offset size source =>
    exact (marks_volumeWrite source hcard.size h).keeps (.volumeWrite offset size source) rfl
      CardVolume.write_refused hcard.volume hcard
  | format =>
    exact (marks_format hcard.volume h).keeps .format rfl (fun h => by cases h) hcard.volume hcard
  | fixupPartitionType =>
    exact (marks_fixupPartitionType h hcard.volume).keeps .fixupPartitionType rfl
      (fun h => by cases h) hcard.volume hcard
  | newVolume =>
    exact marksInside_refl.keeps .newVolume rfl (fun _ => rfl) (ofImage_imageSize card.image) hcard
  | clear => exact clear_keeps hcard

end Calls

theorem newCard_consistent {t : Target} {blocksTotal : ℕ} (data memory : ℕ → Byte)
    (hsize : blocksTotal * blockSize < t.sizeT) : (newCard data memory blocksTotal).Consistent t where
  size := hsize
  tracked := fun _ _ hne => absurd rfl hne
  rest page _ hrest := by
    have hrest' : page / 8 < dirtyPageBufferSize blocksTotal := hrest
    simp only [newCard, newCardImage, Bitmap.marked, if_pos hrest']
    simp
  volume := ofImage_imageSize _

/-- In a run in which no range ends past the last address, no empty card is formatted and the type
of the partition does not change in an unmarked page, every call leaves marks for what has changed,
touches no bit that does not belong to a page, and changes nothing when it fails. -/
theorem everyCall_keeps (t : Target) (data memory : ℕ → Byte) (blocksTotal : ℕ)
    (hsize : blocksTotal * blockSize < t.sizeT) (calls : List Call)
    (h : EveryStep (Call.step t) (fun card call => call.Tracks t card)
      (newCard data memory blocksTotal) calls) :
    EveryStep (Call.step t) (Keeps t) (newCard data memory blocksTotal) calls := by
  apply EveryStep.of_invariant _ (newCard_consistent data memory hsize) h
  intro card call hcard hcall
  obtain ⟨hkeeps, hconsistent⟩ := call_keeps hcard hcall
  refine ⟨hkeeps, fun card' hstep => ?_⟩
  cases hstep
  exact hconsistent

/-- A card is formatted, saved and written to. -/
theorem formatted_card_keeps : EveryStep (Call.step .wasm32) (Keeps .wasm32)
    (newCard (fun _ => 0#8) (fun _ => 0xff#8) 16) [.format, .clear, .write (fun _ => 1#8) 3 1] := by
  apply everyCall_keeps .wasm32 _ _ 16 (by decide)
  refine ⟨?_, fun _ _ => ⟨trivial, fun _ _ => ⟨trivial, fun _ _ => trivial⟩⟩⟩
  show (newCard (fun _ => 0#8) (fun _ => 0xff#8) 16).volume.imageSize ≠ 0#32
  decide

/-- The contents of a card on which the name of the file system is found. -/
def namedContents (a : ℕ) : Byte := if a = 0x3a then 0x36#8 else 0#8

/-- The type of the partition is lost at the next save. -/
theorem fixup_leaves_unmarked : ¬EveryStep (Call.step .wasm32) (Keeps .wasm32)
    (newCard namedContents (fun _ => 0#8) 16) [.fixupPartitionType] := by
  intro h
  have hmarked := h.1.tracked 0x1c2 (by decide) (by decide)
  revert hmarked
  decide

end Cloudpilot.Common
