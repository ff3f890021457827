import Mathlib
import Cloudpilot.Uarm.Session.RleRoundTrip
import Cloudpilot.Uarm.Session.SessionFile

/-! # Round trip of session files

Both readers return the images that `compressSession` has written. A size of the header
that has been changed alone makes both of them reject the file, but `sessionFile_read` has
cleared the savestate by then.
-/
namespace Cloudpilot.Uarm.Session
open Library.LittleEndian Library.TypedArray Common.Crc Nat

variable {w : ℕ} {file : List Byte} {field : ℕ} {v : BitVec 32} {out : Outputs}

def setWord (file : List Byte) (field : ℕ) (v : BitVec 32) : List Byte :=
  overwrite file field (word v)

theorem length_setWord (h : field + 4 ≤ file.length) :
    (setWord file field v).length = file.length :=
  length_overwrite h

theorem wordAt_setWord (h : field + 4 ≤ file.length) : wordAt (setWord file field v) field = v := by
  have hfront : (file.take field).length + 0 = field := by
    simp
    omega
  calc wordAt (setWord file field v) field
      = wordAt (file.take field ++ (word v ++ file.drop (field + 4)))
          ((file.take field).length + 0) := by
        rw [hfront, setWord, overwrite, List.append_assoc, length_word]
    _ = v := by rw [wordAt_append_right, wordAt_word_append]

theorem wordAt_setWord_of_disjoint {k : ℕ} (h : field + 4 ≤ file.length)
    (hout : k + 4 ≤ field ∨ field + 4 ≤ k) : wordAt (setWord file field v) k = wordAt file k := by
  have hbyte : ∀ j, j < field ∨ field + 4 ≤ j →
      byteAt (setWord file field v) j = byteAt file j := by
    intro j hj
    rw [byteAt, byteAt, setWord, getElem?_overwrite_of_disjoint h hj]
  rw [wordAt, wordAt, hbyte k (by omega), hbyte (k + 1) (by omega), hbyte (k + 2) (by omega),
    hbyte (k + 3) (by omega)]

structure HasHeader (file : List Byte) : Prop where
  length : headerSize ≤ file.length
  magic : wordAt file 0 = magic
  version : wordAt file 4 = version

/-- The positions of the sizes in the header. -/
def sizeFields : List ℕ := [8, 12, 20, 28]

theorem HasHeader.setWord (h : HasHeader file) (hfield : field ∈ sizeFields) :
    HasHeader (setWord file field v) := by
  have hlength := h.length
  unfold headerSize at hlength
  have hrange : 8 ≤ field ∧ field + 4 ≤ 32 := by grind [sizeFields]
  constructor
  · rw [length_setWord (by omega)]
    exact h.length
  · rw [wordAt_setWord_of_disjoint (by omega) (by omega), h.magic]
  · rw [wordAt_setWord_of_disjoint (by omega) (by omega), h.version]

def sizeSum {M : Type} [AddCommMonoid M] (value : BitVec 32 → M) (file : List Byte) : M :=
  value (wordAt file 8) + value (wordAt file 12) + value (wordAt file 20) + value (wordAt file 28)

theorem sizeSum_setWord {M : Type} [AddCommMonoid M] (value : BitVec 32 → M)
    (h : headerSize ≤ file.length) (hfield : field ∈ sizeFields) :
    ∃ others, sizeSum value file = others + value (wordAt file field) ∧
      sizeSum value (setWord file field v) = others + value v := by
  unfold headerSize at h
  unfold sizeSum
  simp only [sizeFields, List.mem_cons, List.not_mem_nil, or_false] at hfield
  rcases hfield with rfl | rfl | rfl | rfl
  all_goals
    rw [wordAt_setWord (by omega)]
    repeat rw [wordAt_setWord_of_disjoint (by omega) (by omega)]
  · refine ⟨value (wordAt file 12) + value (wordAt file 20) + value (wordAt file 28), ?_, ?_⟩
    all_goals abel
  · refine ⟨value (wordAt file 8) + value (wordAt file 20) + value (wordAt file 28), ?_, ?_⟩
    all_goals abel
  · refine ⟨value (wordAt file 8) + value (wordAt file 12) + value (wordAt file 28), ?_, ?_⟩
    all_goals abel
  · grind

theorem read32_eq {cursor : ℕ} {err : Bool} (h : cursor + 4 ≤ file.length) :
    read32 file (cursor, err) = (wordAt file cursor, (cursor + 4, err)) :=
  if_neg (by omega)

theorem readToc_eq (h : headerSize ≤ file.length) :
    (readToc file).run (8, false) =
      (⟨wordAt file 8, wordAt file 12, wordAt file 16, wordAt file 20, wordAt file 24,
        wordAt file 28, wordAt file 32⟩, (headerSize, false)) := by
  unfold headerSize at h
  simp only [readToc, StateT.run, bind, StateT.bind]
  rw [read32_eq (by omega)]
  simp only
  rw [read32_eq (by omega)]
  simp only
  rw [read32_eq (by omega)]
  simp only
  rw [read32_eq (by omega)]
  simp only
  rw [read32_eq (by omega)]
  simp only
  rw [read32_eq (by omega)]
  simp only
  rw [read32_eq (by omega)]
  rfl

theorem sessionFileRead_eq (h : HasHeader file) :
    sessionFileRead w file out =
      match sessionFileReadV0 w file with
      | .error stop => (.error stop, { out with savestate := .empty })
      | .ok images => (.ok (),
          ⟨.of images.nor, .of images.nand, .of images.ram, .empty⟩) := by
  have hlength := h.length
  unfold headerSize at hlength
  unfold sessionFileRead
  simp only [StateT.run, bind, StateT.bind]
  rw [read32_eq (by omega)]
  simp only
  rw [read32_eq (by omega)]
  cases sessionFileReadV0 w file <;>
    simp only [pure, StateT.pure, h.magic, h.version, version, Bool.false_eq_true, ↓reduceIte, ne_eq,
      not_true_eq_false]

theorem sessionFileRead_mismatch (h : HasHeader file)
    (hsize : file.length ≠ (headerSize + sizeSum BitVec.toNat file) % 2 ^ w) :
    sessionFileRead w file out = (.error (.error "session image v0 size mismatch"),
      { out with savestate := .empty }) := by
  have hv0 : sessionFileReadV0 w file = .error (.error "session image v0 size mismatch") := by
    rw [sessionFileReadV0, readToc_eq h.length]
    simp only [Bool.false_eq_true, ↓reduceIte]
    apply if_pos
    simpa only [sizeSum, add_assoc] using hsize
  rw [sessionFileRead_eq h, hv0]

theorem add_mod_ne {m s x y : ℕ} (hx : x < m) (hy : y < m) (hne : x ≠ y) :
    (s + x) % m ≠ (s + y) % m := by
  intro heq
  have hmod : x % m = y % m := Nat.ModEq.add_left_cancel' s heq
  rw [mod_eq_of_lt hx, mod_eq_of_lt hy] at hmod
  exact hne hmod

variable {μ : Type} {parse : List Byte → Option μ} {fuel : ℕ}

theorem decompressSession_mismatch (h : HasHeader file)
    (hsize : (file.length : ℤ) ≠ headerSize + sizeSum BitVec.toInt file) :
    decompressSession parse fuel file = .error (.error "image size mismatch") := by
  have hlength := h.length
  rw [decompressSession, if_neg (by omega), if_neg (not_not.mpr h.magic),
    if_neg (not_not.mpr h.version)]
  apply if_pos
  simpa only [sizeSum, Int.add_assoc] using hsize

structure AddsUp (w : ℕ) (file : List Byte) : Prop where
  header : HasHeader file
  unsigned : file.length = headerSize + sizeSum BitVec.toNat file
  signed : (file.length : ℤ) = headerSize + sizeSum BitVec.toInt file
  fits : file.length < 2 ^ w

theorem length_setWord_of_mem (h : headerSize ≤ file.length) (hfield : field ∈ sizeFields) :
    (setWord file field v).length = file.length := by
  apply length_setWord
  unfold headerSize at h
  simp [sizeFields] at hfield
  omega

theorem AddsUp.sessionFileRead_setWord (h : AddsUp w file) (hw : 32 ≤ w)
    (hfield : field ∈ sizeFields) (hv : v ≠ wordAt file field) :
    sessionFileRead w (setWord file field v) out =
      (.error (.error "session image v0 size mismatch"), { out with savestate := .empty }) := by
  apply sessionFileRead_mismatch (h.header.setWord hfield)
  have hword : 2 ^ 32 ≤ 2 ^ w := Nat.pow_le_pow_right (by omega) hw
  have hne : (wordAt file field).toNat ≠ v.toNat := fun heq => hv (BitVec.eq_of_toNat_eq heq.symm)
  obtain ⟨others, hold, hnew⟩ := sizeSum_setWord (v := v) BitVec.toNat h.header.length hfield
  have hmod : (headerSize + others + (wordAt file field).toNat) % 2 ^ w ≠
      (headerSize + others + v.toNat) % 2 ^ w :=
    add_mod_ne (Nat.lt_of_lt_of_le (BitVec.isLt _) hword)
      (Nat.lt_of_lt_of_le (BitVec.isLt _) hword) hne
  have htotal := h.unsigned
  rw [hold, ← Nat.add_assoc] at htotal
  rw [length_setWord_of_mem h.header.length hfield, hnew, ← Nat.add_assoc]
  rwa [← htotal, Nat.mod_eq_of_lt h.fits] at hmod

theorem AddsUp.decompressSession_setWord (h : AddsUp w file) (hfield : field ∈ sizeFields)
    (hv : v ≠ wordAt file field) :
    decompressSession parse fuel (setWord file field v) =
      .error (.error "image size mismatch") := by
  apply decompressSession_mismatch (h.header.setWord hfield)
  have hne : (wordAt file field).toInt ≠ v.toInt := fun heq => hv (BitVec.eq_of_toInt_eq heq.symm)
  obtain ⟨others, hold, hnew⟩ := sizeSum_setWord (v := v) BitVec.toInt h.header.length hfield
  have hsigned := h.signed
  rw [length_setWord_of_mem h.header.length hfield]
  omega

namespace Sections
variable {f : Sections} {nor ram nand : List Byte} {metadata : μ}

/-- Sections whose sizes both readers can tell. -/
structure Fits (f : Sections) : Prop where
  metadata : f.metadata.length < 2 ^ 31
  nor : f.nor.length < 2 ^ 28
  ram : f.ram.length < 2 ^ 28
  nand : f.nand.length < 2 ^ 28

theorem hasHeader (f : Sections) : HasHeader f.bytes where
  length := f.headerSize_le_length
  magic := f.wordAt_bytes (show 0 < 9 by decide)
  version := f.wordAt_bytes (show 1 < 9 by decide)

theorem wordAt_toc (f : Sections) :
    wordAt f.bytes 8 = BitVec.ofNat 32 f.metadata.length ∧
      wordAt f.bytes 12 = BitVec.ofNat 32 f.nor.length ∧ wordAt f.bytes 16 = f.crcNor ∧
      wordAt f.bytes 20 = BitVec.ofNat 32 f.ram.length ∧ wordAt f.bytes 24 = f.crcRam ∧
      wordAt f.bytes 28 = BitVec.ofNat 32 f.nand.length ∧ wordAt f.bytes 32 = f.crcNand :=
  ⟨f.wordAt_bytes (show 2 < 9 by decide), f.wordAt_bytes (show 3 < 9 by decide),
    f.wordAt_bytes (show 4 < 9 by decide), f.wordAt_bytes (show 5 < 9 by decide),
    f.wordAt_bytes (show 6 < 9 by decide), f.wordAt_bytes (show 7 < 9 by decide),
    f.wordAt_bytes (show 8 < 9 by decide)⟩

theorem sizeSum_bytes {M : Type} [AddCommMonoid M] (value : BitVec 32 → M) (f : Sections) :
    sizeSum value f.bytes = value (BitVec.ofNat 32 f.metadata.length) +
      value (BitVec.ofNat 32 f.nor.length) + value (BitVec.ofNat 32 f.ram.length) +
      value (BitVec.ofNat 32 f.nand.length) := by
  obtain ⟨hmetadata, hnor, -, hram, -, hnand, -⟩ := f.wordAt_toc
  rw [sizeSum, hmetadata, hnor, hram, hnand]

theorem toInt_ofNat {n : ℕ} (h : n < 2 ^ 31) : (BitVec.ofNat 32 n).toInt = n := by
  rw [BitVec.toInt_eq_toNat_of_lt] <;> rw [BitVec.toNat_ofNat, mod_eq_of_lt (by omega)]
  omega

theorem toNat_ofNat {n : ℕ} (h : n < 2 ^ 31) : (BitVec.ofNat 32 n).toNat = n := by
  rw [BitVec.toNat_ofNat, mod_eq_of_lt (by omega)]

theorem Fits.addsUp (h : f.Fits) (hw : 32 ≤ w) : AddsUp w f.bytes := by
  have hmetadata := h.metadata
  have hnor := h.nor
  have hram := h.ram
  have hnand := h.nand
  have hword : 2 ^ 32 ≤ 2 ^ w := Nat.pow_le_pow_right (by omega) hw
  have hlength := f.length_bytes
  constructor
  · exact f.hasHeader
  · grind [sizeSum_bytes]
  · rw [sizeSum_bytes, toInt_ofNat hmetadata, toInt_ofNat (by omega), toInt_ofNat (by omega),
      toInt_ofNat (by omega)]
    omega
  · grind [headerSize]

/-- The part of a file that stands behind `front`. -/
def SectionAt (file front part : List Byte) : Prop := ∃ back, file = front ++ (part ++ back)

theorem sectionAt_metadata (f : Sections) : SectionAt f.bytes f.header f.metadata := ⟨_, rfl⟩

theorem sectionAt_nor (f : Sections) : SectionAt f.bytes (f.header ++ f.metadata) f.nor :=
  ⟨f.ram ++ f.nand, by simp [bytes]⟩

theorem sectionAt_ram (f : Sections) : SectionAt f.bytes (f.header ++ f.metadata ++ f.nor) f.ram :=
  ⟨f.nand, by simp [bytes]⟩

theorem sectionAt_nand (f : Sections) :
    SectionAt f.bytes (f.header ++ f.metadata ++ f.nor ++ f.ram) f.nand :=
  ⟨[], by simp [bytes]⟩

theorem SectionAt.readImage {front part data : List Byte} {cursor : ℕ} {crc : BitVec 32}
    {decodeError : String → String} {crcError : String} (h : SectionAt file front part)
    (hcursor : cursor = front.length) (hdecode : rleDecode w part = .ok data)
    (hcrc : crc = crc32 data) :
    readImage w file cursor part.length crc decodeError crcError = .ok data := by
  obtain ⟨back, rfl⟩ := h
  subst hcursor hcrc
  rw [Session.readImage, if_neg (by simp), take_drop_append, hdecode]
  simp

theorem SectionAt.getBlock {front part : List Byte} {cursor : ℤ} (h : SectionAt file front part)
    (hcursor : cursor = front.length) :
    getBlock file cursor part.length = (part, ((front ++ part).length : ℤ)) := by
  obtain ⟨back, rfl⟩ := h
  subst hcursor
  rw [Session.getBlock, subarray_append, List.length_append, cast_add]

theorem Fits.sessionFileReadV0 (h : f.Fits) (hw : 32 ≤ w) (hnor : rleDecode w f.nor = .ok nor)
    (hram : rleDecode w f.ram = .ok ram) (hnand : rleDecode w f.nand = .ok nand)
    (hcrcNor : f.crcNor = crc32 nor) (hcrcRam : f.crcRam = crc32 ram)
    (hcrcNand : f.crcNand = crc32 nand) : sessionFileReadV0 w f.bytes = .ok ⟨nor, ram, nand⟩ := by
  have hmetadata := toNat_ofNat h.metadata
  have hsizeNor := toNat_ofNat (lt_trans h.nor (by norm_num))
  have hsizeRam := toNat_ofNat (lt_trans h.ram (by norm_num))
  have hsizeNand := toNat_ofNat (lt_trans h.nand (by norm_num))
  have htoc : (readToc f.bytes).run (8, false) =
      (⟨BitVec.ofNat 32 f.metadata.length, BitVec.ofNat 32 f.nor.length, f.crcNor,
        BitVec.ofNat 32 f.ram.length, f.crcRam, BitVec.ofNat 32 f.nand.length, f.crcNand⟩,
        headerSize, false) := by
    obtain ⟨h8, h12, h16, h20, h24, h28, h32⟩ := f.wordAt_toc
    rw [readToc_eq f.hasHeader.length, h8, h12, h16, h20, h24, h28, h32]
  have htotal : f.bytes.length = (headerSize + f.metadata.length + f.nor.length + f.ram.length +
      f.nand.length) % 2 ^ w := by
    rw [← f.length_bytes, mod_eq_of_lt (h.addsUp hw).fits]
  rw [Session.sessionFileReadV0, htoc]
  simp only [hmetadata, hsizeNor, hsizeRam, hsizeNand, Bool.false_eq_true, ↓reduceIte]
  rw [if_neg (not_not.mpr htotal)]
  rw [f.sectionAt_nor.readImage (by simp) hnor hcrcNor]
  simp only [bind, Except.bind]
  rw [f.sectionAt_ram.readImage (by simp [add_assoc]) hram hcrcRam]
  simp only
  rw [f.sectionAt_nand.readImage (by simp [add_assoc]) hnand hcrcNand]
  rfl

theorem Fits.decompressSession (h : f.Fits) (hparse : parse f.metadata = some metadata)
    (hnor : decompress fuel f.nor = .ok ⟨nor, f.crcNor⟩)
    (hram : decompress fuel f.ram = .ok ⟨ram, f.crcRam⟩)
    (hnand : decompress fuel f.nand = .ok ⟨nand, f.crcNand⟩) :
    decompressSession parse fuel f.bytes = .ok ⟨nor, ram, nand, metadata⟩ := by
  have hsigned := (h.addsUp (le_refl 32)).signed
  have hmetadata := toInt_ofNat h.metadata
  have hsizeNor := toInt_ofNat (lt_trans h.nor (by norm_num))
  have hsizeRam := toInt_ofNat (lt_trans h.ram (by norm_num))
  have hsizeNand := toInt_ofNat (lt_trans h.nand (by norm_num))
  have hlength := f.headerSize_le_length
  rw [Session.decompressSession, if_neg (by omega), if_neg (not_not.mpr f.hasHeader.magic),
    if_neg (not_not.mpr f.hasHeader.version)]
  simp only [sizeSum, ← Int.add_assoc] at hsigned
  simp only [← hsigned, ne_eq, not_true_eq_false, ↓reduceIte]
  obtain ⟨h8, h12, h16, h20, h24, h28, h32⟩ := f.wordAt_toc
  rw [h8, h12, h16, h20, h24, h28, h32, hmetadata, hsizeNor, hsizeRam, hsizeNand]
  rw [f.sectionAt_metadata.getBlock (by simp)]
  simp only [hparse]
  rw [f.sectionAt_nor.getBlock rfl]
  simp only [hnor, bind, Except.bind]
  rw [f.sectionAt_ram.getBlock rfl]
  simp only [hram]
  rw [f.sectionAt_nand.getBlock rfl]
  simp only [hnand, not_true_eq_false, ↓reduceIte]
  rfl

theorem decompressSession_of_long (h : 2 ^ 31 ≤ f.metadata.length) :
    decompressSession parse fuel f.bytes = .error (.error "image size mismatch") := by
  apply decompressSession_mismatch f.hasHeader
  have hle : ∀ n : ℕ, (BitVec.ofNat 32 n).toInt ≤ n := by
    intro n
    have hmod := mod_le n (2 ^ 32)
    rw [BitVec.toInt_eq_toNat_cond, BitVec.toNat_ofNat]
    split <;> omega
  have hmetadata : (BitVec.ofNat 32 f.metadata.length).toInt < f.metadata.length := by grind
  have hnor := hle f.nor.length
  have hram := hle f.ram.length
  have hnand := hle f.nand.length
  rw [sizeSum_bytes, f.length_bytes]
  omega

end Sections

section
variable {stringify : μ → List Byte} {nor ram nand : List Byte} {metadata : μ}

theorem compressSession_sections (hnor : nor.length ≤ maxBlockSize)
    (hram : ram.length ≤ maxBlockSize) (hnand : nand.length ≤ maxBlockSize)
    (hmetadata : (stringify metadata).length < 2 ^ 31) :
    ∃ f : Sections, compressSession stringify nor ram nand metadata = .ok f.bytes ∧ f.Fits ∧
      f.metadata = stringify metadata ∧ (Codes f.nor nor ∧ f.crcNor = crc32 nor) ∧
      (Codes f.ram ram ∧ f.crcRam = crc32 ram) ∧ Codes f.nand nand ∧ f.crcNand = crc32 nand := by
  obtain ⟨_, hcompressNor, hcrcNor, hcodesNor, hlengthNor⟩ := compress_codes hnor
  obtain ⟨_, hcompressRam, hcrcRam, hcodesRam, hlengthRam⟩ := compress_codes hram
  obtain ⟨_, hcompressNand, hcrcNand, hcodesNand, hlengthNand⟩ := compress_codes hnand
  unfold maxBlockSize at hnor hram hnand
  unfold maxOverhead at hlengthNor hlengthRam hlengthNand
  refine ⟨_, compressSession_eq hcompressNor hcompressRam hcompressNand, ?_, rfl,
    ⟨hcodesNor, hcrcNor⟩, ⟨hcodesRam, hcrcRam⟩, hcodesNand, hcrcNand⟩
  constructor
  · omega
  · grind
  · grind
  · grind

end

/-- Both readers return the images of a written file, and reject it when one of its sizes has
been changed. The savestate is cleared either way. -/
theorem session_file_round_trip (w : ℕ) (hw : 32 ≤ w) (stringify : μ → List Byte)
    (parse : List Byte → Option μ) (hparse : ∀ metadata, parse (stringify metadata) ≠ none)
    (nor ram nand : List Byte) (hnor : nor.length ≤ 128 * 1024 * 1024)
    (hram : ram.length ≤ 128 * 1024 * 1024) (hnand : nand.length ≤ 128 * 1024 * 1024)
    (metadata : μ) (hmetadata : (stringify metadata).length < 2 ^ 31) :
    ∃ file, compressSession stringify nor ram nand metadata = .ok file ∧
      (∀ out, sessionFileRead w file out = (.ok (), ⟨.of nor, .of nand, .of ram, .empty⟩)) ∧
      (∀ fuel, file.length ≤ fuel →
        ∃ value, decompressSession parse fuel file = .ok ⟨nor, ram, nand, value⟩) ∧
      ∀ field ∈ sizeFields, ∀ v, v ≠ wordAt file field →
        (∀ out, sessionFileRead w (setWord file field v) out =
          (.error (.error "session image v0 size mismatch"),
            { out with savestate := .empty })) ∧
        ∀ fuel, decompressSession parse fuel (setWord file field v) =
          .error (.error "image size mismatch") := by
  obtain ⟨f, hfile, hfits, hserialized, ⟨hcodesNor, hcrcNor⟩, ⟨hcodesRam, hcrcRam⟩, hcodesNand,
    hcrcNand⟩ := compressSession_sections hnor hram hnand hmetadata
  have hlength := f.length_bytes
  refine ⟨f.bytes, hfile, ?_, ?_, ?_⟩
  · intro out
    rw [sessionFileRead_eq f.hasHeader, hfits.sessionFileReadV0 hw (hcodesNor.rleDecode hw hnor)
      (hcodesRam.rleDecode hw hram) (hcodesNand.rleDecode hw hnand) hcrcNor hcrcRam hcrcNand]
  · intro fuel hfuel
    obtain ⟨value, hvalue⟩ := Option.ne_none_iff_exists'.mp (hparse metadata)
    refine ⟨value, hfits.decompressSession (by rw [hserialized, hvalue]) ?_ ?_ ?_⟩
    · rw [hcodesNor.decompress hnor (by omega), hcrcNor]
    · rw [hcodesRam.decompress hram (by omega), hcrcRam]
    · rw [hcodesNand.decompress hnand (by omega), hcrcNand]
  · intro field hfield v hv
    exact ⟨fun out => (hfits.addsUp hw).sessionFileRead_setWord hw hfield hv,
      fun fuel => (hfits.addsUp hw).decompressSession_setWord hfield hv⟩

def emptyObject (_ : Unit) : List Byte := [0x7b, 0x7d]

def parseEmptyObject (text : List Byte) : Option Unit :=
  if text = [0x7b, 0x7d] then some () else none

theorem session_file_round_trip_empty_object :
    32 ≤ 64 ∧ (∀ metadata, parseEmptyObject (emptyObject metadata) ≠ none) ∧
      (emptyObject ()).length < 2 ^ 31 ∧
      ∃ file, compressSession emptyObject [1, 2] (List.replicate 20 7) [] () = .ok file ∧
        (∀ out, sessionFileRead 64 file out =
          (.ok (), ⟨.of [1, 2], .of [], .of (List.replicate 20 7), .empty⟩)) ∧
        (∀ fuel, file.length ≤ fuel → ∃ value,
          decompressSession parseEmptyObject fuel file =
            .ok ⟨[1, 2], List.replicate 20 7, [], value⟩) ∧
        ∀ field ∈ sizeFields, ∀ v, v ≠ wordAt file field →
          (∀ out, sessionFileRead 64 (setWord file field v) out =
            (.error (.error "session image v0 size mismatch"),
              { out with savestate := .empty })) ∧
          ∀ fuel, decompressSession parseEmptyObject fuel (setWord file field v) =
            .error (.error "image size mismatch") := by
  have hparse : ∀ metadata, parseEmptyObject (emptyObject metadata) ≠ none := by decide
  exact ⟨by decide, hparse, by decide, session_file_round_trip 64 (by decide) emptyObject
    parseEmptyObject hparse [1, 2] (List.replicate 20 7) [] (by decide) (by decide) (by decide) ()
    (by decide)⟩

/-- The text of a string of spaces. -/
def spaces (n : ℕ) : List Byte := 0x22 :: (List.replicate n 0x20 ++ [0x22])

/-- A file with a changed size clears the savestate that was there, and with a text of 2 GiB the
web page rejects what it has written. -/
theorem session_file_rejected :
    (∃ file, compressSession emptyObject [] [] [] () = .ok file ∧ wordAt file 12 = 4 ∧
      sessionFileRead 64 (setWord file 12 5) ⟨.empty, .empty, .empty, .of [1]⟩ =
        (.error (.error "session image v0 size mismatch"), ⟨.empty, .empty, .empty, .empty⟩)) ∧
      ∃ file, compressSession spaces [] [] [] (2 ^ 31) = .ok file ∧
        ∀ parse : List Byte → Option ℕ, ∀ fuel,
          decompressSession parse fuel file = .error (.error "image size mismatch") := by
  have hempty : compress [] = .ok ⟨[0, 0, 0, 0], 0⟩ := by decide +kernel
  have hlength : ∀ n, (spaces n).length = n + 2 := by
    intro n
    simp [spaces]
  constructor
  · refine ⟨_, compressSession_eq hempty hempty hempty, by decide +kernel, by decide +kernel⟩
  · generalize hn : 2 ^ 31 = n
    refine ⟨_, compressSession_eq hempty hempty hempty, ?_⟩
    intro parse fuel
    apply Sections.decompressSession_of_long
    rw [hn]
    exact le_of_lt (by simp only [hlength]; omega)

end Cloudpilot.Uarm.Session
