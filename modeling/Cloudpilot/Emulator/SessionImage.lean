import Cloudpilot.Library.Words

/-! # Session images

The fields of a `SessionImage` are pointers into buffers of the caller, or into the
buffer that `Deserialize` decompresses to. `size_t` has `w` bits. A `Heap` gives the
size of every buffer that is alive; the decompression buffer of an earlier call is
freed when a new one is made. `uncompress` of the compression library is a parameter.
-/

namespace Cloudpilot.Emulator

open Library.LittleEndian

section

def magic : BitVec 32 := 0x20150103#32
def versionLatest : BitVec 32 := 4#32
def versionMask : BitVec 32 := 0x80000000#32

/-- The buffers in sight of one call of `Deserialize`. -/
inductive Buffer where
  /-- The buffer handed to the call. -/
  | input
  /-- The object's decompression buffer from before the call. -/
  | previous
  /-- The decompression buffer that the call makes. -/
  | decompressed
  /-- Other memory of the caller. -/
  | other (i : ℕ)
  deriving DecidableEq

/-- The sizes of the buffers that are alive. -/
abbrev Heap := Buffer → Option ℕ

/-- Assigning a new buffer to `deserializationBuffer` frees the previous one. -/
def Heap.replace (heap : Heap) (size : ℕ) : Heap :=
  Function.update (Function.update heap .previous none) .decompressed (some size)

structure Pointer where
  buffer : Buffer
  offset : ℕ
  deriving DecidableEq

structure SessionImage (w : ℕ) where
  version : BitVec 32
  romImage : Option Pointer
  ramImage : Option Pointer
  savestate : Option Pointer
  metadata : Option Pointer
  romSize : BitVec w
  ramSize : BitVec w
  savestateSize : BitVec w
  metadataSize : BitVec w
  framebufferSize : BitVec w
  deviceId : List Byte

/-- A new object. Its version is not set. -/
def SessionImage.fresh (w : ℕ) (version : BitVec 32) : SessionImage w :=
  ⟨version, none, none, none, none, 0, 0, 0, 0, 0, []⟩

/-- What `uncompress` writes for a source and a capacity, where it succeeds. -/
abbrev Uncompress := List Byte → ℕ → Option (List Byte)

variable {w : ℕ}

/-- The range at an offset, `nullptr` for an empty one. -/
def rangeAt (buffer : Buffer) (offset : ℕ) (size : BitVec w) : Option Pointer :=
  if 0 < size.toNat then some ⟨buffer, offset⟩ else none

/-- The string `"PalmV"`. -/
def palmV : List Byte := [0x50#8, 0x61#8, 0x6c#8, 0x6d#8, 0x56#8]

def deserializeLegacyImage (image : SessionImage w) (heap : Heap) (bytes : List Byte) :
    Bool × SessionImage w × Heap :=
  let romNameSize : BitVec w := (wordAt bytes 4).setWidth w
  let image := { image with
    romSize := (wordAt bytes 8).setWidth w
    ramSize := (wordAt bytes 12).setWidth w }
  if BitVec.ofNat w bytes.length ≠ 16 + romNameSize + image.romSize + image.ramSize then
    (false, image, heap) else
    let rom := 16 + romNameSize.toNat
    let ram := rom + image.romSize.toNat
    (true, { image with
      deviceId := palmV
      romImage := rangeAt .input rom image.romSize
      ramImage := rangeAt .input ram image.ramSize }, heap)

/-- Versions 2 and 3 store the size of the framebuffer before that of the savestate. -/
def hasFramebufferSize (version : BitVec 32) : Bool := 2 ≤ version && version < 4

def headerSizeOf (version : BitVec 32) : ℕ := if hasFramebufferSize version then 24 else 20

/-- `Deserialize` from the size check on. The header is at `offset` of the buffer, `bytes`
are the bytes from there on. -/
def deserializeBody (image : SessionImage w) (heap : Heap) (buffer : Buffer) (offset : ℕ)
    (bytes : List Byte) : Bool × SessionImage w × Heap :=
  let headerSize := headerSizeOf image.version
  if bytes.length < headerSize then (false, image, heap) else
    let deviceIdSize : BitVec w := (wordAt bytes 0).setWidth w
    let image := { image with
      metadataSize := (wordAt bytes 4).setWidth w
      romSize := (wordAt bytes 8).setWidth w
      ramSize := (wordAt bytes 12).setWidth w
      framebufferSize :=
        if hasFramebufferSize image.version then (wordAt bytes 16).setWidth w else 0
      savestateSize :=
        (wordAt bytes (if hasFramebufferSize image.version then 20 else 16)).setWidth w }
    if BitVec.ofNat w bytes.length ≠ BitVec.ofNat w headerSize + deviceIdSize +
        image.metadataSize + image.romSize + image.ramSize + image.savestateSize ∨
        16 < deviceIdSize.toNat then
      (false, image, heap) else
      let metadata := offset + headerSize + deviceIdSize.toNat
      let rom := metadata + image.metadataSize.toNat
      let ram := rom + image.romSize.toNat
      let savestate := ram + image.ramSize.toNat
      (true, { image with
        deviceId := (bytes.drop headerSize).take deviceIdSize.toNat
        metadata := rangeAt buffer metadata image.metadataSize
        romImage := rangeAt buffer rom image.romSize
        ramImage := rangeAt buffer ram image.ramSize
        savestate := rangeAt buffer savestate image.savestateSize }, heap)

def deserialize (uncompress : Uncompress) (image : SessionImage w) (heap : Heap)
    (bytes : List Byte) : Bool × SessionImage w × Heap :=
  if bytes.length < 16 then (false, image, heap) else
  if wordAt bytes 0 ≠ magic then (false, image, heap) else
    let image := { image with version := wordAt bytes 4 }
    if image.version &&& versionMask = 0 then deserializeLegacyImage image heap bytes else
      let image := { image with version := image.version &&& ~~~versionMask }
      if versionLatest < image.version then (false, image, heap) else
      if 2 < image.version then
        let uncompressedSize := (wordAt bytes 8).toNat
        let heap := heap.replace uncompressedSize
        match uncompress (bytes.drop 12) uncompressedSize with
        | none => (false, image, heap)
        | some out =>
          if out.length ≠ uncompressedSize then (false, image, heap) else
            deserializeBody image heap .decompressed 0 out
      else deserializeBody image heap .input 8 (bytes.drop 8)

end

variable {w : ℕ} {uncompress : Uncompress} {image : SessionImage w} {heap : Heap}
  {bytes : List Byte}

def InBuffer (heap : Heap) (pointer : Option Pointer) (size : BitVec w) : Prop :=
  ∀ p, pointer = some p → ∃ room, heap p.buffer = some room ∧ p.offset + size.toNat ≤ room

/-- All four pairs of the object. -/
structure SessionImage.InBuffers (image : SessionImage w) (heap : Heap) : Prop where
  metadata : InBuffer heap image.metadata image.metadataSize
  romImage : InBuffer heap image.romImage image.romSize
  ramImage : InBuffer heap image.ramImage image.ramSize
  savestate : InBuffer heap image.savestate image.savestateSize

/-- The sizes that `Deserialize` reads from an image, and the buffer it reads them from.
`headerSize` counts from the beginning of that buffer. -/
structure Header where
  buffer : Buffer
  size : ℕ
  headerSize : ℕ
  nameSize : BitVec 32
  romSize : BitVec 32
  ramSize : BitVec 32
  /-- The sizes of the metadata and the savestate, which a legacy image does not have. -/
  others : Option (BitVec 32 × BitVec 32)
  deriving DecidableEq

def Header.metadataSize (h : Header) : ℕ := (h.others.map fun o => o.1.toNat).getD 0

def Header.savestateSize (h : Header) : ℕ := (h.others.map fun o => o.2.toNat).getD 0

/-- The bytes that the header describes, itself included. -/
def Header.total (h : Header) : ℕ :=
  h.headerSize + h.nameSize.toNat + h.metadataSize + h.romSize.toNat + h.ramSize.toNat +
    h.savestateSize

/-- The comparison of the code: the sum wraps as `size_t` does. -/
def Header.Accepted (w : ℕ) (h : Header) : Prop :=
  h.total % 2 ^ w = h.size ∧ (h.others.isSome → h.nameSize.toNat ≤ 16)

instance (h : Header) : Decidable (h.Accepted w) := inferInstanceAs (Decidable (_ ∧ _))

/-- The header behind `prefixSize` bytes of a buffer. -/
def scanBody (version : BitVec 32) (buffer : Buffer) (prefixSize : ℕ) (bytes : List Byte) :
    Option Header :=
  if bytes.length < headerSizeOf version then none else
    some ⟨buffer, prefixSize + bytes.length, prefixSize + headerSizeOf version, wordAt bytes 0,
      wordAt bytes 8, wordAt bytes 12,
      some (wordAt bytes 4, wordAt bytes (if hasFramebufferSize version then 20 else 16))⟩

def versionOf (bytes : List Byte) : BitVec 32 := wordAt bytes 4 &&& ~~~versionMask

/-- The image is not legacy, and of a version that the code knows. -/
def IsVersioned (bytes : List Byte) : Prop :=
  16 ≤ bytes.length ∧ wordAt bytes 0 = magic ∧ wordAt bytes 4 &&& versionMask ≠ 0 ∧
    ¬ versionLatest < versionOf bytes

instance : Decidable (IsVersioned bytes) := inferInstanceAs (Decidable (_ ∧ _ ∧ _ ∧ _))

def IsLegacy (bytes : List Byte) : Prop :=
  16 ≤ bytes.length ∧ wordAt bytes 0 = magic ∧ wordAt bytes 4 &&& versionMask = 0

instance : Decidable (IsLegacy bytes) := inferInstanceAs (Decidable (_ ∧ _ ∧ _))

/-- The image is decompressed, into a new buffer. -/
def IsCompressed (bytes : List Byte) : Prop := IsVersioned bytes ∧ 2 < versionOf bytes

instance : Decidable (IsCompressed bytes) := inferInstanceAs (Decidable (_ ∧ _))

/-- The header of an image, where the code gets as far as reading one. -/
def scan (uncompress : Uncompress) (bytes : List Byte) : Option Header :=
  if IsLegacy bytes then
    some ⟨.input, bytes.length, 16, wordAt bytes 4, wordAt bytes 8, wordAt bytes 12, none⟩ else
  if IsCompressed bytes then
    match uncompress (bytes.drop 12) (wordAt bytes 8).toNat with
    | none => none
    | some out =>
      if out.length ≠ (wordAt bytes 8).toNat then none else
        scanBody (versionOf bytes) .decompressed 0 out else
  if IsVersioned bytes then scanBody (versionOf bytes) .input 8 (bytes.drop 8) else none

/-- The buffers that are alive after the call. -/
def heapAfter (heap : Heap) (bytes : List Byte) : Heap :=
  if IsCompressed bytes then heap.replace (wordAt bytes 8).toNat else heap

/-- The object when an image is rejected after its header was read. -/
def SessionImage.setSizes (image : SessionImage w) (h : Header) : SessionImage w :=
  { image with
    romSize := h.romSize.setWidth w
    ramSize := h.ramSize.setWidth w
    metadataSize := (h.others.map fun o => o.1.setWidth w).getD image.metadataSize
    savestateSize := (h.others.map fun o => o.2.setWidth w).getD image.savestateSize }

/-- A range that is empty, or starts where it should. -/
def Placed (pointer : Option Pointer) (size : BitVec w) (buffer : Buffer) (offset : ℕ) : Prop :=
  size.toNat ≠ 0 → pointer = some ⟨buffer, offset⟩

/-- Behind the header and the name, the ranges follow each other to the end of the buffer. -/
structure SessionImage.Tiles (image : SessionImage w) (h : Header) : Prop where
  metadata : Placed image.metadata image.metadataSize h.buffer (h.headerSize + h.nameSize.toNat)
  romImage : Placed image.romImage image.romSize h.buffer
    (h.headerSize + h.nameSize.toNat + image.metadataSize.toNat)
  ramImage : Placed image.ramImage image.ramSize h.buffer
    (h.headerSize + h.nameSize.toNat + image.metadataSize.toNat + image.romSize.toNat)
  savestate : Placed image.savestate image.savestateSize h.buffer
    (h.headerSize + h.nameSize.toNat + image.metadataSize.toNat + image.romSize.toNat +
      image.ramSize.toNat)
  covers : h.headerSize + h.nameSize.toNat + image.metadataSize.toNat + image.romSize.toNat +
    image.ramSize.toNat + image.savestateSize.toNat = h.size

/-- What the result of a call must satisfy. -/
def ParsedSafely (uncompress : Uncompress) (bytes : List Byte)
    (result : Bool × SessionImage w × Heap) : Prop :=
  if result.1 then ∃ h, scan uncompress bytes = some h ∧ result.2.2 h.buffer = some h.size ∧
    result.2.1.Tiles h
  else result.2.1.InBuffers result.2.2

/-- When a call satisfies it. An accepted image describes fewer bytes than `size_t` can count,
and the object had no metadata or savestate before a legacy image. After a rejected one, the
pointers that the object had before are alive and have room for the sizes of the header. -/
def ParsesSafely (uncompress : Uncompress) (image : SessionImage w) (heap : Heap)
    (bytes : List Byte) : Prop :=
  match scan uncompress bytes with
  | none => image.InBuffers (heapAfter heap bytes)
  | some h =>
    if h.Accepted w then h.total < 2 ^ w ∧
      (h.others = none → image.metadataSize = 0 ∧ image.savestateSize = 0)
    else (image.setSizes h).InBuffers (heapAfter heap bytes)

end Cloudpilot.Emulator
