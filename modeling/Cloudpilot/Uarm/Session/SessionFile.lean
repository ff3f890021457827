import Cloudpilot.Uarm.Session.Blocks
import Cloudpilot.Uarm.Session.Rle

/-! # Session files

A session file is a table of sizes and checksums, the metadata and the compressed images
of the NOR flash, the RAM and the NAND flash. `session.js` writes and reads it,
`session_file.cpp` reads it. The metadata is a JSON text, and what turns it into bytes and
back is a parameter.
-/

namespace Cloudpilot.Uarm.Session

open Library.LittleEndian Library.TypedArray Common.Crc List

section

def magic : BitVec 32 := 0x19800819

def version : BitVec 32 := 0

def headerSize : ℕ := 36

namespace Sink

def put32 (s : Sink) (x : BitVec 32) : Sink :=
  let s := s.put ((x &&& 0xff#32).setWidth 8)
  let s := s.put ((x.sshiftRight 8 &&& 0xff#32).setWidth 8)
  let s := s.put ((x.sshiftRight 16 &&& 0xff#32).setWidth 8)
  s.put ((x.sshiftRight 24 &&& 0xff#32).setWidth 8)

def putBlock (s : Sink) (block : List Byte) : Except Stop Sink :=
  match setView s.compressedData s.compressedCursor (s.compressedCursor + block.length) block with
  | none => .error .rangeError
  | some image => .ok ⟨image, s.compressedCursor + block.length⟩

end Sink

variable {μ : Type}

def compressSession (stringify : μ → List Byte) (nor ram nand : List Byte) (metadata : μ) :
    Except Stop (List Byte) := do
  let compressedNor ← compress nor
  let compressedRam ← compress ram
  let compressedNand ← compress nand
  let serializedMetadata := stringify metadata
  let image : Sink := ⟨List.replicate (headerSize + serializedMetadata.length +
    compressedNor.data.length + compressedRam.data.length + compressedNand.data.length) 0, 0⟩
  let image := image.put32 magic
  let image := image.put32 version
  let image := image.put32 (BitVec.ofNat 32 serializedMetadata.length)
  let image := image.put32 (BitVec.ofNat 32 compressedNor.data.length)
  let image := image.put32 compressedNor.crc
  let image := image.put32 (BitVec.ofNat 32 compressedRam.data.length)
  let image := image.put32 compressedRam.crc
  let image := image.put32 (BitVec.ofNat 32 compressedNand.data.length)
  let image := image.put32 compressedNand.crc
  let image ← image.putBlock serializedMetadata
  let image ← image.putBlock compressedNor.data
  let image ← image.putBlock compressedRam.data
  let image ← image.putBlock compressedNand.data
  return image.compressedData

/-- `struct Buffer`; without data its pointer is null. -/
structure Buffer where
  size : ℕ
  data : Option (List Byte)
  deriving DecidableEq, Repr

def Buffer.empty : Buffer := ⟨0, none⟩

def Buffer.of (data : List Byte) : Buffer := ⟨data.length, some data⟩

/-- What the output parameters of `sessionFile_read` point to. -/
structure Outputs where
  nor : Buffer
  nand : Buffer
  ram : Buffer
  savestate : Buffer
  deriving DecidableEq, Repr

/-- The state of `read32` is the cursor and the error flag. -/
def read32 (buffer : List Byte) : StateM (ℕ × Bool) (BitVec 32) := fun (cursor, err) =>
  if cursor + 4 > buffer.length then (0, (cursor, true))
  else (wordAt buffer cursor, (cursor + 4, err))

/-- The table of contents of a file of version 0. -/
structure Toc where
  sizeMetadata : BitVec 32
  sizeNorCompressed : BitVec 32
  crcNor : BitVec 32
  sizeRamCompressed : BitVec 32
  crcRam : BitVec 32
  sizeNandCompressed : BitVec 32
  crcNand : BitVec 32
  deriving DecidableEq, Repr

def readToc (sessionData : List Byte) : StateM (ℕ × Bool) Toc := do
  let sizeMetadata ← read32 sessionData
  let sizeNorCompressed ← read32 sessionData
  let crcNor ← read32 sessionData
  let sizeRamCompressed ← read32 sessionData
  let crcRam ← read32 sessionData
  let sizeNandCompressed ← read32 sessionData
  let crcNand ← read32 sessionData
  return ⟨sizeMetadata, sizeNorCompressed, crcNor, sizeRamCompressed, crcRam,
    sizeNandCompressed, crcNand⟩

/-- The image at the cursor. A section that is not inside of the file is read behind its end. -/
def readImage (w : ℕ) (sessionData : List Byte) (cursor size : ℕ) (crc : BitVec 32)
    (decodeError : String → String) (crcError : String) : Except Stop (List Byte) :=
  if cursor + size > sessionData.length then .error .overrun
  else
    match rleDecode w ((sessionData.drop cursor).take size) with
    | .error (.error lastError) => .error (.error (decodeError lastError))
    | .error stop => .error stop
    | .ok data => if crc32 data ≠ crc then .error (.error crcError) else .ok data

/-- The images that a file holds. -/
structure Images where
  nor : List Byte
  ram : List Byte
  nand : List Byte
  deriving DecidableEq, Repr

/-- `sessionFile_read_v0` in front of the assignments to its outputs. -/
def sessionFileReadV0 (w : ℕ) (sessionData : List Byte) : Except Stop Images :=
  let (toc, cursor, err) := (readToc sessionData).run (8, false)
  if err then .error (.error "unable to read session image v0 TOC")
  else if sessionData.length ≠ (cursor + toc.sizeMetadata.toNat + toc.sizeNorCompressed.toNat +
      toc.sizeRamCompressed.toNat + toc.sizeNandCompressed.toNat) % 2 ^ w then
    .error (.error "session image v0 size mismatch")
  else do
    let cursor := cursor + toc.sizeMetadata.toNat
    let nor ← readImage w sessionData cursor toc.sizeNorCompressed.toNat toc.crcNor
      (fun lastError => "session image v0: failed to decompress NOR: " ++ lastError)
      "session image v0: NOR CRC mismatch"
    let cursor := cursor + toc.sizeNorCompressed.toNat
    let ram ← readImage w sessionData cursor toc.sizeRamCompressed.toNat toc.crcRam
      (fun _ => "session image v0: failed to decompress RAM:  rle_getLastError()")
      "session image v0: RAM CRC mismatch"
    let cursor := cursor + toc.sizeRamCompressed.toNat
    let nand ← readImage w sessionData cursor toc.sizeNandCompressed.toNat toc.crcNand
      (fun lastError => "session image v0: failed to decompress NAND: " ++ lastError)
      "session image v0: NAND CRC mismatch"
    return ⟨nor, ram, nand⟩

/-- `sessionFile_read` with its outputs afterwards. An error is a return value of `false`
with the message that is logged. -/
def sessionFileRead (w : ℕ) (sessionData : List Byte) (out : Outputs) :
    Except Stop Unit × Outputs :=
  let (header, _, err) := (do
    let magic ← read32 sessionData
    let version ← read32 sessionData
    return (magic, version) : StateM (ℕ × Bool) (BitVec 32 × BitVec 32)).run (0, false)
  if err then (.error (.error "bad file header"), out)
  else if header.1 ≠ magic then (.error (.error "bad magic"), out)
  else if header.2 = 0 then
    let out := { out with savestate := .empty }
    match sessionFileReadV0 w sessionData with
    | .error stop => (.error stop, out)
    | .ok images => (.ok (), { out with
        nor := .of images.nor, ram := .of images.ram, nand := .of images.nand })
  else
    (.error (.error ("invalid session image version " ++ toString header.2.toNat)), out)

/-- What `decompressSession` returns. -/
structure Contents (μ : Type) where
  nor : List Byte
  ram : List Byte
  nand : List Byte
  metadata : μ

/-- A section of the file, and the cursor behind it. Sizes are signed. -/
def getBlock (sessionData : List Byte) (cursor length : ℤ) : List Byte × ℤ :=
  (subarray sessionData cursor (cursor + length), cursor + length)

/-- `decompressSession`, for so many rounds of the loops of `decompress`. -/
def decompressSession (parse : List Byte → Option μ) (fuel : ℕ) (sessionData : List Byte) :
    Except Stop (Contents μ) :=
  if sessionData.length < headerSize then .error (.error "image too small")
  else if wordAt sessionData 0 ≠ magic then .error (.error "bad magic")
  else if wordAt sessionData 4 ≠ version then .error (.error "invalid version")
  else
    let sizeMetadata := (wordAt sessionData 8).toInt
    let sizeNorCompressed := (wordAt sessionData 12).toInt
    let crcNor := wordAt sessionData 16
    let sizeRamCompressed := (wordAt sessionData 20).toInt
    let crcRam := wordAt sessionData 24
    let sizeNandCompressed := (wordAt sessionData 28).toInt
    let crcNand := wordAt sessionData 32
    if (sessionData.length : ℤ) ≠ headerSize + sizeMetadata + sizeNorCompressed +
        sizeRamCompressed + sizeNandCompressed then .error (.error "image size mismatch")
    else
      let (block, cursor) := getBlock sessionData headerSize sizeMetadata
      match parse block with
      | none => .error .syntaxError
      | some metadata => do
        let (block, cursor) := getBlock sessionData cursor sizeNorCompressed
        let nor ← decompress fuel block
        let (block, cursor) := getBlock sessionData cursor sizeRamCompressed
        let ram ← decompress fuel block
        let (block, _) := getBlock sessionData cursor sizeNandCompressed
        let nand ← decompress fuel block
        if nor.crc ≠ crcNor then .error (.error "NOR CRC mismatch")
        else if ram.crc ≠ crcRam then .error (.error "RAM CRC mismatch")
        else if nand.crc ≠ crcNand then .error (.error "NAND CRC mismatch")
        else return ⟨nor.data, ram.data, nand.data, metadata⟩

end

/-- The sections of a file, and the checksums of the images. -/
structure Sections where
  metadata : List Byte
  nor : List Byte
  crcNor : BitVec 32
  ram : List Byte
  crcRam : BitVec 32
  nand : List Byte
  crcNand : BitVec 32

namespace Sections

def words (f : Sections) : List (BitVec 32) :=
  [magic, version, BitVec.ofNat 32 f.metadata.length, BitVec.ofNat 32 f.nor.length, f.crcNor,
    BitVec.ofNat 32 f.ram.length, f.crcRam, BitVec.ofNat 32 f.nand.length, f.crcNand]

def header (f : Sections) : List Byte := f.words.flatMap word

def bytes (f : Sections) : List Byte :=
  f.header ++ (f.metadata ++ (f.nor ++ (f.ram ++ f.nand)))

variable (f : Sections)

@[simp] theorem length_header : f.header.length = headerSize := rfl

theorem length_bytes : f.bytes.length =
    headerSize + f.metadata.length + f.nor.length + f.ram.length + f.nand.length := by
  simp [bytes]
  omega

theorem wordAt_bytes {i : ℕ} (h : i < 9) : wordAt f.bytes (4 * i) = f.words.get ⟨i, h⟩ :=
  wordAt_flatMap_word h

theorem headerSize_le_length : headerSize ≤ f.bytes.length := by
  rw [length_bytes]
  omega

end Sections

namespace Sink

variable {s : Sink}

theorem put32_appends {x : BitVec 32}
    (hroom : s.compressedCursor + 4 ≤ s.compressedData.length) :
    s.Appends (word x) (s.put32 x) := by
  have hmask : ∀ y : BitVec 32, (y &&& 0xff#32).setWidth 8 = y.setWidth 8 := by
    intro y
    apply BitVec.eq_of_toNat_eq
    change (y.toNat &&& (2 ^ 8 - 1)) % 2 ^ 8 = y.toNat % 2 ^ 8
    rw [Nat.and_two_pow_sub_one_eq_mod, Nat.mod_mod]
  have hbyte : ∀ n, n ≤ 24 → (x.sshiftRight n).setWidth 8 = (x >>> n).setWidth 8 := by
    intro n hn
    ext i hi
    simp only [BitVec.getElem_setWidth, BitVec.getLsbD_sshiftRight, BitVec.getLsbD_ushiftRight]
    simp [show ¬32 ≤ i by omega, show n + i < 32 by omega]
  have hput : ∀ {t : Sink} {front : List Byte} {v : Byte}, s.Appends front t → front.length < 4 →
      s.Appends (front ++ [v]) (t.put v) := by
    intro t front v happ hlt
    apply happ.trans (put_appends _)
    rw [happ.cursor, happ.length]
    omega
  rw [put32, hmask, hmask, hmask, hmask, hbyte 8 (by omega), hbyte 16 (by omega),
    hbyte 24 (by omega)]
  exact hput (hput (hput (hput (Appends.refl s) (by simp)) (by simp)) (by simp)) (by simp)

theorem foldl_put32_appends {words : List (BitVec 32)}
    (hroom : s.compressedCursor + (words.flatMap word).length ≤ s.compressedData.length) :
    s.Appends (words.flatMap word) (words.foldl put32 s) := by
  induction words generalizing s with
  | nil => exact Appends.refl s
  | cons x words ih =>
    rw [flatMap_cons, length_append, length_word] at hroom
    have hput : s.Appends (word x) (s.put32 x) := put32_appends (by omega)
    apply hput.trans (ih _)
    rw [hput.cursor, hput.length, length_word]
    omega

theorem putBlock_appends {block : List Byte}
    (hroom : s.compressedCursor + block.length ≤ s.compressedData.length) :
    ∃ s', s.putBlock block = .ok s' ∧ s.Appends block s' := by
  rw [putBlock, setView_natCast hroom]
  exact ⟨_, rfl, length_overwrite hroom, rfl, take_overwrite (by omega)⟩

theorem foldlM_putBlock_appends {blocks : List (List Byte)}
    (hroom : s.compressedCursor + blocks.flatten.length ≤ s.compressedData.length) :
    ∃ s', blocks.foldlM putBlock s = .ok s' ∧ s.Appends blocks.flatten s' := by
  induction blocks generalizing s with
  | nil => exact ⟨s, rfl, Appends.refl s⟩
  | cons block blocks ih =>
    rw [flatten_cons, length_append] at hroom
    have hfirst : s.compressedCursor + block.length ≤ s.compressedData.length := by omega
    obtain ⟨t, hput, happ⟩ := putBlock_appends hfirst
    obtain ⟨s', hfold, happ'⟩ := ih (s := t) (by rw [happ.cursor, happ.length]; omega)
    refine ⟨s', ?_, happ.trans happ'⟩
    rwa [foldlM_cons, hput]

end Sink

theorem Sections.write_eq (f : Sections) :
    ([f.metadata, f.nor, f.ram, f.nand].foldlM Sink.putBlock
        (f.words.foldl Sink.put32 ⟨List.replicate f.bytes.length 0, 0⟩) >>=
      fun image => .ok image.compressedData) = .ok f.bytes := by
  let start : Sink := ⟨replicate f.bytes.length 0, 0⟩
  have hstart : start.compressedData.length = f.bytes.length := length_replicate
  have hlength := f.length_bytes
  have hheader : start.Appends f.header (f.words.foldl Sink.put32 start) := by
    apply Sink.foldl_put32_appends
    change 0 + f.header.length ≤ _
    rw [hstart, f.length_header]
    omega
  have hroom : (f.words.foldl Sink.put32 start).compressedCursor +
      [f.metadata, f.nor, f.ram, f.nand].flatten.length ≤
        (f.words.foldl Sink.put32 start).compressedData.length := by
    rw [hheader.cursor, hheader.length, hstart, f.length_header]
    change 0 + headerSize + _ ≤ _
    simp
    omega
  obtain ⟨s, hfold, happ⟩ := Sink.foldlM_putBlock_appends hroom
  have hwritten := hheader.trans happ
  have hend : s.compressedCursor = s.compressedData.length := by
    rw [hwritten.cursor, hwritten.length, hstart, length_append, f.length_header]
    change 0 + _ = _
    simp
    omega
  have hdata : s.compressedData = f.bytes := by
    have hcontent := hwritten.content
    rw [Sink.content, hend, take_length] at hcontent
    rw [hcontent]
    simp [Sink.content, start, bytes]
  rw [hfold, ← hdata]
  rfl

variable {μ : Type} {stringify : μ → List Byte} {nor ram nand : List Byte} {metadata : μ}
  {compressedNor compressedRam compressedNand : Checksummed}

theorem compressSession_eq (hnor : compress nor = .ok compressedNor)
    (hram : compress ram = .ok compressedRam) (hnand : compress nand = .ok compressedNand) :
    compressSession stringify nor ram nand metadata =
      .ok (Sections.bytes ⟨stringify metadata, compressedNor.data, compressedNor.crc,
        compressedRam.data, compressedRam.crc, compressedNand.data, compressedNand.crc⟩) := by
  rw [← Sections.write_eq, Sections.length_bytes]
  simp only [foldlM_cons, foldlM_nil, bind_assoc, pure_bind]
  rw [compressSession, hnor, hram, hnand]
  rfl

end Cloudpilot.Uarm.Session
