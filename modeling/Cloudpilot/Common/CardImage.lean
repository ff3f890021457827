import Mathlib.Data.BitVec
import Cloudpilot.Library.Buffer

/-! # Card images

The bytes of a card with one dirty bit for every sixteen blocks. Sizes and
offsets are of type `size_t`, whose width depends on the target.
-/
namespace Cloudpilot.Common
open Cloudpilot.Library

abbrev Byte := BitVec 8
abbrev Word := BitVec 32

/-- The targets of the build: the web version and the native one. -/
inductive Target
  | wasm32
  | native64
  deriving DecidableEq, Repr

/-- The number of values of a `size_t`. -/
def Target.sizeT : Target → ℕ
  | .wasm32 => 2 ^ 32
  | .native64 => 2 ^ 64

def blockSize : ℕ := 512

structure CardImage where
  data : ℕ → Byte
  dirtyPages : ℕ → Byte
  blocksTotal : ℕ

def pageCount (blocksTotal : ℕ) : ℕ := (blocksTotal >>> 4) + if blocksTotal % 16 ≠ 0 then 1 else 0

def dirtyPageBufferSize (blocksTotal : ℕ) : ℕ :=
  (pageCount blocksTotal >>> 3) + if pageCount blocksTotal % 8 > 0 then 1 else 0

/-- The constructor clears the bitmap, and nothing of the memory behind it. -/
def newCardImage (data memory : ℕ → Byte) (blocksTotal : ℕ) : CardImage where
  data := data
  dirtyPages i := if i < dirtyPageBufferSize blocksTotal then 0#8 else memory i
  blocksTotal := blocksTotal

/-- The bytes of an image that a `memcpy` touches. -/
structure Access where
  start : ℕ
  count : ℕ
  deriving DecidableEq, Repr

namespace CardImage

/-- What a `memcpy` from the image writes, block by block. -/
def readBlocks (image : CardImage) (dest : ℕ → Byte) (index count : ℕ) : ℕ → Byte :=
  (List.range count).foldl (fun dest i =>
    Buffer.copy dest (i * blockSize) (fun a => image.data ((i + index) * blockSize + a)) blockSize)
    dest

def read (image : CardImage) (dest : ℕ → Byte) (index count : ℕ) : ℕ × (ℕ → Byte) :=
  if index ≥ image.blocksTotal then (0, dest)
  else
    let count := min count (image.blocksTotal - index)
    (count, image.readBlocks dest index count)

def markBlockDirty (dirtyPages : ℕ → Byte) (block : ℕ) : ℕ → Byte :=
  let page := block >>> 4
  Function.update dirtyPages (page >>> 3)
    (dirtyPages (page >>> 3) ||| (1#8 <<< (page &&& 0x07)))

def writeBlock (image : CardImage) (source : ℕ → Byte) (index block : ℕ) : CardImage :=
  { image with
    data := Buffer.copy image.data (block * blockSize)
      (fun a => source ((block - index) * blockSize + a)) blockSize
    dirtyPages := markBlockDirty image.dirtyPages block }

def write (image : CardImage) (source : ℕ → Byte) (index count : ℕ) : ℕ × CardImage :=
  if index ≥ image.blocksTotal then (0, image)
  else
    let count := min count (image.blocksTotal - index)
    (count, (List.range' index count).foldl (fun image block => image.writeBlock source index block)
      image)

/-- An empty range at the front of the card ends at the last address. -/
def markRangeDirty (t : Target) (image : CardImage) (offset count : ℕ) : CardImage :=
  let firstBlock := offset / blockSize
  let lastBlock := (offset + count + t.sizeT - 1) % t.sizeT / blockSize
  { image with
    dirtyPages :=
      (List.range' firstBlock (lastBlock + 1 - firstBlock)).foldl markBlockDirty image.dirtyPages }

/-- The check that both byte range functions make, in the arithmetic of `size_t`. -/
def exceeds (t : Target) (image : CardImage) (offset count : ℕ) : Prop :=
  (offset + count) % t.sizeT > image.blocksTotal * blockSize % t.sizeT

instance (t : Target) (image : CardImage) (offset count : ℕ) :
    Decidable (image.exceeds t offset count) :=
  inferInstanceAs (Decidable (_ > _))

/-- The result of a byte range function with the accesses to the image that it makes. -/
structure RangeResult (α : Type*) where
  ok : Bool
  accesses : List Access
  state : α

def writeByteRange (t : Target) (image : CardImage) (source : ℕ → Byte) (offset count : ℕ) :
    RangeResult CardImage :=
  if image.exceeds t offset count then ⟨false, [], image⟩
  else if count = 0 then ⟨true, [], image⟩
  else
    ⟨true, [⟨offset, count⟩],
      markRangeDirty t { image with data := Buffer.copy image.data offset source count } offset count⟩

def readByteRange (t : Target) (image : CardImage) (dest : ℕ → Byte) (offset count : ℕ) :
    RangeResult (ℕ → Byte) :=
  if image.exceeds t offset count then ⟨false, [], dest⟩
  else
    ⟨true, [⟨offset, count⟩], Buffer.copy dest 0 (fun a => image.data (offset + a)) count⟩

theorem read_one {image : CardImage} {dest : ℕ → Byte} {index a : ℕ}
    (hindex : index < image.blocksTotal) (ha : a < blockSize) :
    (image.read dest index 1).2 a = image.data (index * blockSize + a) := by
  have hcount : min 1 (image.blocksTotal - index) = 1 := by omega
  rw [read, if_neg (by omega)]
  simp [hcount, readBlocks]
  exact Buffer.copy_zero ha

theorem write_one {image : CardImage} {source : ℕ → Byte} {index : ℕ}
    (hindex : index < image.blocksTotal) :
    (image.write source index 1).2 = image.writeBlock source index index := by
  have hcount : min 1 (image.blocksTotal - index) = 1 := by omega
  rw [write, if_neg (by omega)]
  simp only [hcount]
  rfl

end CardImage
end Cloudpilot.Common
