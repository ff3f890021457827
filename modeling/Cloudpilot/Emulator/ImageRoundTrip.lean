import Cloudpilot.Emulator.ImageSafety
import Cloudpilot.Emulator.Serialize

/-! # Session images survive a round trip

`Serialize` writes a header and a complete stream of the image. `Deserialize` inflates
the stream, finds sizes that add up, and gives every field the range it was written to.
-/
namespace Cloudpilot.Emulator
open Library.LittleEndian Library.Compression

variable {σ : Type} {codec : Codec σ} {w : ℕ}

/-- `uncompress` inverts every complete stream. A stream ends in a checksum of four bytes. -/
structure Inverts (codec : Codec σ) (uncompress : Uncompress) : Prop where
  inverse : ∀ x z, Complete codec x z → uncompress z x.length = some x
  checksum : ∀ x z, Complete codec x z → 4 ≤ z.length

/-- A range of the decompressed buffer that holds a blob. -/
structure Carries (decompressed : List Byte) (pointer : Option Pointer) (size : BitVec w)
    (blob : List Byte) : Prop where
  size : size.toNat = blob.length
  pointer : pointer = none ∧ blob = [] ∨
    ∃ offset, pointer = some ⟨.decompressed, offset⟩ ∧
      (decompressed.drop offset).take blob.length = blob

theorem carries_rangeAt {decompressed front blob rest : List Byte} {offset : ℕ} {size : BitVec w}
    (hsplit : decompressed = front ++ (blob ++ rest)) (hsize : size.toNat = blob.length)
    (hoffset : offset = front.length) :
    Carries decompressed (rangeAt .decompressed offset size) size blob := by
  refine ⟨hsize, ?_⟩
  by_cases hblob : blob = []
  · refine .inl ⟨if_neg ?_, hblob⟩
    rw [hsize, hblob]
    exact Nat.lt_irrefl 0
  · refine .inr ⟨offset, if_pos ?_, ?_⟩ <;> grind

theorem fileHeader_eq (c : Contents) : fileHeader c =
    [magic, versionLatest ||| versionMask, BitVec.ofNat 32 (uncompressedSize c)].flatMap word := by
  simp [fileHeader]

theorem imageHeader_eq (c : Contents) : imageHeader c =
    [BitVec.ofNat 32 c.deviceId.length, BitVec.ofNat 32 c.metadata.length,
      BitVec.ofNat 32 c.rom.length, BitVec.ofNat 32 c.ram.length,
      BitVec.ofNat 32 c.savestate.length].flatMap word := by
  simp [imageHeader]

theorem toNat_ofNat_of_lt {n : ℕ} (h : n < 2 ^ 32) : (BitVec.ofNat 32 n).toNat = n := by
  rw [BitVec.toNat_ofNat, Nat.mod_eq_of_lt h]

section Reading
variable {c : Contents} {z : List Byte} {uncompress : Uncompress} {image : SessionImage w}
  {heap : Heap}

theorem fileHeader_words (c : Contents) (z : List Byte) :
    wordAt (fileHeader c ++ z) 0 = magic ∧
      wordAt (fileHeader c ++ z) 4 = versionLatest ||| versionMask ∧
      wordAt (fileHeader c ++ z) 8 = BitVec.ofNat 32 (uncompressedSize c) := by
  rw [fileHeader_eq]
  exact ⟨wordAt_flatMap_word (i := 0) (by simp), wordAt_flatMap_word (i := 1) (by simp),
    wordAt_flatMap_word (i := 2) (by simp)⟩

theorem imageHeader_words (c : Contents) (rest : List Byte) :
    wordAt (imageHeader c ++ rest) 0 = BitVec.ofNat 32 c.deviceId.length ∧
      wordAt (imageHeader c ++ rest) 4 = BitVec.ofNat 32 c.metadata.length ∧
      wordAt (imageHeader c ++ rest) 8 = BitVec.ofNat 32 c.rom.length ∧
      wordAt (imageHeader c ++ rest) 12 = BitVec.ofNat 32 c.ram.length ∧
      wordAt (imageHeader c ++ rest) 16 = BitVec.ofNat 32 c.savestate.length := by
  rw [imageHeader_eq]
  exact ⟨wordAt_flatMap_word (i := 0) (by simp), wordAt_flatMap_word (i := 1) (by simp),
    wordAt_flatMap_word (i := 2) (by simp), wordAt_flatMap_word (i := 3) (by simp),
    wordAt_flatMap_word (i := 4) (by simp)⟩

theorem isCompressed_fileHeader (c : Contents) (hz : 4 ≤ z.length) :
    IsCompressed (fileHeader c ++ z) ∧ versionOf (fileHeader c ++ z) = versionLatest := by
  obtain ⟨hmagic, hversion, -⟩ := fileHeader_words c z
  have hlen : (fileHeader c).length = 12 := rfl
  have hof : versionOf (fileHeader c ++ z) = versionLatest := by
    rw [versionOf, hversion]
    decide
  refine ⟨⟨⟨?_, hmagic, ?_, ?_⟩, ?_⟩, hof⟩
  · grind
  · rw [hversion]
    decide
  · grind
  · rw [hof]
    decide

structure SessionImage.Has (image : SessionImage w) (decompressed : List Byte) (c : Contents) :
    Prop where
  version : image.version = versionLatest
  deviceId : image.deviceId = c.deviceId
  metadata : Carries decompressed image.metadata image.metadataSize c.metadata
  rom : Carries decompressed image.romImage image.romSize c.rom
  ram : Carries decompressed image.ramImage image.ramSize c.ram
  savestate : Carries decompressed image.savestate image.savestateSize c.savestate

theorem imageBytes_eq (c : Contents) : imageBytes c = imageHeader c ++ (c.deviceId ++
    (c.metadata ++ (c.rom ++ (c.ram ++ (c.savestate ++ []))))) := by
  simp [imageBytes]

theorem toNat_size (hw : 32 ≤ w) {n : ℕ} (h : n < 2 ^ 32) :
    ((BitVec.ofNat 32 n).setWidth w).toNat = n := by
  rw [toNat_setWidth_of_le hw, toNat_ofNat_of_lt h]

theorem imageBytes_sizes (hw : 32 ≤ w) (htotal : uncompressedSize c < 2 ^ 32) :
    ((wordAt (imageBytes c) 0).setWidth w).toNat = c.deviceId.length ∧
      ((wordAt (imageBytes c) 4).setWidth w).toNat = c.metadata.length ∧
      ((wordAt (imageBytes c) 8).setWidth w).toNat = c.rom.length ∧
      ((wordAt (imageBytes c) 12).setWidth w).toNat = c.ram.length ∧
      ((wordAt (imageBytes c) 16).setWidth w).toNat = c.savestate.length := by
  have hsum := uncompressedSize.eq_1 c
  obtain ⟨h0, h4, h8, h12, h16⟩ := imageHeader_words c
    (c.deviceId ++ (c.metadata ++ (c.rom ++ (c.ram ++ (c.savestate ++ [])))))
  rw [imageBytes_eq, h0, h4, h8, h12, h16]
  exact ⟨toNat_size hw (by omega), toNat_size hw (by omega), toNat_size hw (by omega),
    toNat_size hw (by omega), toNat_size hw (by omega)⟩

theorem imageBytes_accepted (hw : 32 ≤ w) (htotal : uncompressedSize c < 2 ^ 32) :
    BitVec.ofNat w (imageBytes c).length = BitVec.ofNat w 20 +
      (wordAt (imageBytes c) 0).setWidth w + (wordAt (imageBytes c) 4).setWidth w +
      (wordAt (imageBytes c) 8).setWidth w + (wordAt (imageBytes c) 12).setWidth w +
      (wordAt (imageBytes c) 16).setWidth w := by
  have hpow : 2 ^ 32 ≤ 2 ^ w := Nat.pow_le_pow_right (by norm_num) hw
  have hsum := uncompressedSize.eq_1 c
  obtain ⟨h0, h4, h8, h12, h16⟩ := imageBytes_sizes hw htotal
  simp only [toNat_setWidth_of_le hw] at h0 h4 h8 h12 h16
  rw [size_eq_sum_iff hw (by rw [length_imageBytes]; omega), length_imageBytes, h0, h4, h8, h12,
    h16, Nat.mod_eq_of_lt (by omega)]
  omega

theorem deserializeBody_imageBytes (hw : 32 ≤ w) (hid : c.deviceId.length ≤ 16)
    (htotal : uncompressedSize c < 2 ^ 32) (hversion : image.version = versionLatest) :
    ∃ image', deserializeBody image heap .decompressed 0 (imageBytes c) = (true, image', heap) ∧
      image'.Has (imageBytes c) c := by
  have hheader : headerSizeOf image.version = 20 := by
    rw [hversion]
    decide
  have hframe : hasFramebufferSize image.version = false := by
    rw [hversion]
    decide
  have hlong : ¬ (imageBytes c).length < 20 := by
    rw [length_imageBytes, uncompressedSize]
    omega
  have hlength : (imageHeader c).length = 20 := rfl
  obtain ⟨h0, h4, h8, h12, h16⟩ := imageBytes_sizes hw htotal
  have hgood : ¬ (BitVec.ofNat w (imageBytes c).length ≠ BitVec.ofNat w 20 +
      (wordAt (imageBytes c) 0).setWidth w + (wordAt (imageBytes c) 4).setWidth w +
      (wordAt (imageBytes c) 8).setWidth w + (wordAt (imageBytes c) 12).setWidth w +
      (wordAt (imageBytes c) 16).setWidth w ∨
      16 < ((wordAt (imageBytes c) 0).setWidth w).toNat) := by
    rw [h0]
    exact not_or.mpr ⟨not_not.mpr (imageBytes_accepted hw htotal), Nat.not_lt.mpr hid⟩
  simp only [deserializeBody, hheader, hframe, Bool.false_eq_true, if_false, hlong, hgood]
  refine ⟨_, rfl, ?_⟩
  constructor
  case version => exact hversion
  case deviceId =>
    simp only [h0]
    rw [imageBytes_eq, ← hlength, List.drop_left, List.take_left]
  case metadata =>
    have hsplit : imageBytes c = (imageHeader c ++ c.deviceId) ++
        (c.metadata ++ (c.rom ++ (c.ram ++ c.savestate))) := by simp [imageBytes]
    exact carries_rangeAt hsplit h4 (by simp only [h0, List.length_append, hlength])
  case rom =>
    have hsplit : imageBytes c = (imageHeader c ++ c.deviceId ++ c.metadata) ++
        (c.rom ++ (c.ram ++ c.savestate)) := by simp [imageBytes]
    exact carries_rangeAt hsplit h8 (by simp only [h0, h4, List.length_append, hlength])
  case ram =>
    have hsplit : imageBytes c = (imageHeader c ++ c.deviceId ++ c.metadata ++ c.rom) ++
        (c.ram ++ c.savestate) := by simp [imageBytes]
    exact carries_rangeAt hsplit h12
      (by simp only [h0, h4, h8, List.length_append, hlength])
  case savestate =>
    have hsplit : imageBytes c = (imageHeader c ++ c.deviceId ++ c.metadata ++ c.rom ++ c.ram) ++
        (c.savestate ++ []) := by simp [imageBytes]
    exact carries_rangeAt hsplit h16
      (by simp only [h0, h4, h8, h12, List.length_append, hlength])

end Reading

/-- `Serialize` returns true, and `Deserialize` of what it wrote returns true with version 4 and
the same fields in a new object, however often the buffer had to grow. -/
theorem serialize_roundTrip (hw : 32 ≤ w) (hcodec : Compressor codec) {uncompress : Uncompress}
    (hinverts : Inverts codec uncompress) (c : Contents) (hid : c.deviceId.length ≤ 16)
    (htotal : uncompressedSize c < 2 ^ 32) (hsmall : CompressesBelowLimit codec (imageBytes c))
    (version : BitVec 32) (heap : Heap) {fuel : ℕ} (hfuel : enoughFuel ≤ fuel) :
    ∃ bytes, serialize w codec fuel c = some (true, bytes) ∧
      ∃ decompressed image heap',
        uncompress (bytes.drop 12) (wordAt bytes 8).toNat = some decompressed ∧
        deserialize uncompress (SessionImage.fresh w version) heap bytes = (true, image, heap') ∧
        image.Has decompressed c := by
  obtain ⟨z, hserialize, hcomplete⟩ := serialize_ends hw hcodec hsmall hfuel
  refine ⟨fileHeader c ++ z, hserialize, ?_⟩
  obtain ⟨hcompressed, hversion⟩ := isCompressed_fileHeader c (hinverts.checksum _ _ hcomplete)
  have hsize : (wordAt (fileHeader c ++ z) 8).toNat = (imageBytes c).length := by
    rw [(fileHeader_words c z).2.2, toNat_ofNat_of_lt htotal, length_imageBytes]
  have hdrop : (fileHeader c ++ z).drop 12 = z := by rfl
  obtain ⟨image, hbody, hhas⟩ : ∃ image',
      deserializeBody ((SessionImage.fresh w version).setVersion (versionOf (fileHeader c ++ z)))
        (heapAfter heap (fileHeader c ++ z)) .decompressed 0 (imageBytes c) =
          (true, image', heapAfter heap (fileHeader c ++ z)) ∧ image'.Has (imageBytes c) c :=
    deserializeBody_imageBytes hw hid htotal hversion
  refine ⟨imageBytes c, image, heapAfter heap (fileHeader c ++ z), ?_, ?_, hhas⟩
  · rw [hdrop, hsize, hinverts.inverse _ _ hcomplete]
  · rw [deserialize_compressed hcompressed, hdrop, hsize, hinverts.inverse _ _ hcomplete]
    simp [hbody]

/-- A stored block with a zlib header, and the checksum behind it. -/
def storedStream (adler32 : List Byte → BitVec 32) (x : List Byte) : List Byte :=
  [0x78#8, 0x01#8, 0x01#8, BitVec.ofNat 8 x.length, BitVec.ofNat 8 (x.length / 256),
    ~~~ BitVec.ofNat 8 x.length, ~~~ BitVec.ofNat 8 (x.length / 256)] ++ x ++
    (word (adler32 x)).reverse

/-- The Adler-32 checksum. -/
def adler32 (x : List Byte) : BitVec 32 :=
  let (a, b) := x.foldl (fun (a, b) byte =>
    let a := (a + byte.toNat) % 65521
    (a, (b + a) % 65521)) (1, 0)
  BitVec.ofNat 32 (b * 65536 + a)

/-- Inflating a stored block. -/
def uncompressStored : Uncompress := fun z capacity =>
  if z.length = capacity + 11 then some ((z.drop 7).take capacity) else none

theorem length_storedStream (x : List Byte) : (storedStream adler32 x).length = x.length + 11 := by
  simp [storedStream]

theorem inverts_stored : Inverts (buffering (storedStream adler32)) uncompressStored where
  inverse := by
    intro x z h
    rw [complete_buffering h, uncompressStored, if_pos (length_storedStream x)]
    simp [storedStream]
  checksum := by
    intro x z h
    rw [complete_buffering h, length_storedStream]
    omega

def smallContents : Contents := ⟨[0x50#8], [], [1#8, 2#8], [], [3#8]⟩

theorem serialize_roundTrip_smallContents :
    ∃ bytes, serialize 32 (buffering (storedStream adler32)) enoughFuel smallContents =
        some (true, bytes) ∧
      ∃ decompressed image heap',
        uncompressStored (bytes.drop 12) (wordAt bytes 8).toNat = some decompressed ∧
        deserialize uncompressStored (SessionImage.fresh 32 0) (fun _ => none) bytes =
          (true, image, heap') ∧
        image.Has decompressed smallContents := by
  refine serialize_roundTrip (le_refl 32) (compressor_buffering _) inverts_stored smallContents
    (by decide) (by decide) ?_ 0 _ (le_refl _)
  intro phase state x y hsession hx
  have hlen := buffering_session_length hsession
  have hle : x.length ≤ 24 := hx.length_le
  rw [length_storedStream] at hlen
  simp only [uncompressedHeaderSize, compressedImageGrowLimit]
  omega

end Cloudpilot.Emulator
