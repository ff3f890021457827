import Cloudpilot.Common.Crc
import Cloudpilot.Library.Compression

/-! # Reading gzip files

`GunzipContext` reads the header and the footer when it is constructed, and inflates what is
between them slice by slice, with one slice for every call of `Continue`. A member that the
constructor reads before it is set has what was in memory before.
-/

namespace Cloudpilot.Common

open Library.LittleEndian Library.Compression Crc

inductive GunzipState
  | more
  | done
  | error
  deriving DecidableEq, Repr

structure GzipHeaderFooter where
  magic : BitVec 16
  compressionMethod : Byte
  flags : Byte
  mtime : BitVec 32
  xflags : Byte
  os : Byte
  xlen : BitVec 16
  crc : BitVec 32
  uncompressedSize : BitVec 32
  deriving DecidableEq, Repr

/-- The members of `GunzipContext`. What has been inflated is the front of the output buffer
of `uncompressedSize` bytes, and `consumed` is the distance of the next input byte from the
payload. -/
structure GunzipContext (τ : Type) where
  state : GunzipState
  compressedData : List Byte
  sliceSize : ℕ
  payloadStart : ℕ
  payloadSize : ℕ
  uncompressedSize : ℕ
  errorDescription : String
  headerFooter : GzipHeaderFooter
  inflated : List Byte
  zipStream : τ
  consumed : ℕ
  zipStreamEnd : Bool

namespace GunzipContext

def magicGz : BitVec 16 := 0x8b1f

def compressionTypeDeflate : Byte := 8

def headerSize : ℕ := 10

def footerSize : ℕ := 8

def flagFhcrc : Byte := 2

def flagFextra : Byte := 4

def flagFname : Byte := 8

def flagFcomment : Byte := 16

def decompressedSizeLimit : ℕ := 512 * 1024 * 1024

variable {τ : Type}

def setError (c : GunzipContext τ) (description : String) : GunzipContext τ :=
  if c.state = .error then c else { c with state := .error, errorDescription := description }

def compressedSize (c : GunzipContext τ) : ℕ := c.compressedData.length

/-- `Read8`, `Read16` and `Read32`: so many bytes from an index of `w` bits on. -/
def read (w : ℕ) (count index : ℕ) (c : GunzipContext τ) : List Byte × GunzipContext τ :=
  if (index + (count - 1)) % 2 ^ w ≥ c.compressedSize then
    (List.replicate count 0, c.setError "attempt to read beyond input")
  else ((List.range count).map fun i => c.compressedData[(index + i) % 2 ^ w]?.getD 0, c)

def read8 (w index : ℕ) : StateM (GunzipContext τ) Byte := do
  let bytes ← read w 1 index
  return bytes[0]?.getD 0

def read16 (w index : ℕ) : StateM (GunzipContext τ) (BitVec 16) := do
  let bytes ← read w 2 index
  return (wordAt bytes 0).setWidth 16

def read32 (w index : ℕ) : StateM (GunzipContext τ) (BitVec 32) := do
  let bytes ← read w 4 index
  return wordAt bytes 0

def skipZeroTerminatedString (c : GunzipContext τ) : GunzipContext τ :=
  if c.state = .error then c
  else
    let payloadStart := c.payloadStart +
      ((c.compressedData.drop c.payloadStart).takeWhile (· ≠ 0)).length
    { c with payloadStart :=
        if payloadStart < c.compressedSize then payloadStart + 1 else payloadStart }

/-- The reads of `ReadHeaderFooter`. The positions in the footer wrap around. -/
def readFields (w : ℕ) (compressedSize : ℕ) : StateM (GunzipContext τ) GzipHeaderFooter := do
  let magic ← read16 w 0
  let compressionMethod ← read8 w 2
  let flags ← read8 w 3
  let mtime ← read32 w 4
  let xflags ← read8 w 8
  let os ← read8 w 9
  let xlen ← read16 w 10
  let uncompressedSize ← read32 w ((compressedSize + 2 ^ w - 4) % 2 ^ w)
  let crc ← read32 w ((compressedSize + 2 ^ w - 8) % 2 ^ w)
  return ⟨magic, compressionMethod, flags, mtime, xflags, os, xlen, crc, uncompressedSize⟩

/-- The header fields behind the first ten bytes. -/
def skipOptionalFields (c : GunzipContext τ) : GunzipContext τ :=
  let flags := c.headerFooter.flags
  let c := if flags &&& flagFextra ≠ 0 then
    { c with payloadStart := c.payloadStart + (2 + c.headerFooter.xlen.toNat) } else c
  let c := if flags &&& flagFname ≠ 0 then c.skipZeroTerminatedString else c
  let c := if flags &&& flagFcomment ≠ 0 then c.skipZeroTerminatedString else c
  if flags &&& flagFhcrc ≠ 0 then { c with payloadStart := c.payloadStart + 2 } else c

def readHeaderFooter (w : ℕ) (c : GunzipContext τ) : GunzipContext τ :=
  if c.uncompressedSize ≤ headerSize + footerSize then c.setError "not enough input"
  else
    let (headerFooter, c) := readFields w c.compressedSize c
    let c := { c with headerFooter := headerFooter, payloadStart := headerSize }
    if c.state = .error then c
    else
      let c := c.skipOptionalFields
      if c.payloadStart + 8 ≥ c.compressedSize then c.setError "input too short" else c

/-- What the members without an initial value hold in front of the constructor. -/
structure Memory where
  uncompressedSize : ℕ
  headerFooter : GzipHeaderFooter

/-- The members in front of the body of the constructor. -/
def fresh (inflate : Codec τ) (memory : Memory) (data : List Byte) (sliceSize : ℕ) :
    GunzipContext τ where
  state := .more
  compressedData := data
  sliceSize := sliceSize
  payloadStart := 0
  payloadSize := 0
  uncompressedSize := memory.uncompressedSize
  errorDescription := "no error"
  headerFooter := memory.headerFooter
  inflated := []
  zipStream := inflate.start
  consumed := 0
  zipStreamEnd := false

/-- The constructor. -/
def new (w : ℕ) (inflate : Codec τ) (memory : Memory) (data : List Byte) (sliceSize : ℕ) :
    GunzipContext τ :=
  let c := readHeaderFooter w (fresh inflate memory data sliceSize)
  if c.state = .error then c
  else if c.headerFooter.magic ≠ magicGz then c.setError "bad magic"
  else if c.headerFooter.compressionMethod ≠ compressionTypeDeflate then
    c.setError "invalid compression method"
  else if c.headerFooter.uncompressedSize.toNat ≥ decompressedSizeLimit then
    c.setError "uncompressed size too large"
  else { c with
    uncompressedSize := c.headerFooter.uncompressedSize.toNat
    payloadSize := data.length - c.payloadStart - footerSize }

def payload (c : GunzipContext τ) : List Byte :=
  (c.compressedData.drop c.payloadStart).take c.payloadSize

/-- The output buffer, which is cleared when it is allocated. -/
def uncompressedData (c : GunzipContext τ) : List Byte :=
  c.inflated ++ List.replicate (c.uncompressedSize - c.inflated.length) 0

def validate (c : GunzipContext τ) : GunzipContext τ :=
  if crc32 c.uncompressedData ≠ c.headerFooter.crc then c.setError "CRC mismatch" else c

/-- A call of `mz_inflate` with the room that is left in the buffer, whose counters have 32
bits. -/
def callInflate (c : GunzipContext τ) (inflate : Codec τ) (flush : Flush) (availIn : ℕ) :
    Result τ :=
  inflate.call flush c.zipStream ((c.payload.drop c.consumed).take (availIn % 2 ^ 32))
    ((c.uncompressedSize - c.inflated.length) % 2 ^ 32)

/-- What `Continue` does with the result of `mz_inflate`. -/
def afterInflate (c : GunzipContext τ) (result : Result τ) : GunzipContext τ :=
  let c := { c with
    inflated := c.inflated ++ result.out
    zipStream := result.state
    consumed := c.consumed + result.consumed }
  match result.status with
  | .ok => c
  | .streamEnd => { c with zipStreamEnd := true }
  | _ => c.setError "inflate failed"

def Continue (inflate : Codec τ) (c : GunzipContext τ) : GunzipContext τ :=
  if c.state ≠ .more then c
  else if c.zipStreamEnd then { c with state := .done }.validate
  else
    let remainingInput : ℤ := c.payloadSize - c.consumed
    if remainingInput < 0 then c.setError "internal: invalid input stream"
    else if remainingInput ≤ c.sliceSize then
      c.afterInflate (c.callInflate inflate .finish remainingInput.toNat)
    else c.afterInflate (c.callInflate inflate .noFlush c.sliceSize)

/-- Whether `Continue` is called once more. -/
def running (c : GunzipContext τ) : Bool := c.state = .more

end GunzipContext

def minimumGzipBufferSize : ℕ := 512 * 1024

def maximumGrowFactor : ℕ := 5

def maxFilenameLength : ℕ := 256

def maxGzipSize : ℕ := 512 * 1024 * 1024

inductive GzipState
  | initial
  | more
  | done
  | error
  deriving DecidableEq, Repr

/-- The members of `GzipContext`. What has been written is `gzipData` up to `gzipIndex`, and
`consumed` is the distance of the next input byte from the first one. -/
structure GzipContext (σ : Type) where
  state : GzipState
  sliceSize : ℕ
  error : String
  uncompressedData : List Byte
  gzipData : List Byte
  gzipBufferSize : ℕ
  filename : List Byte
  mtime : BitVec 32
  zipStream : σ
  consumed : ℕ
  zipStreamEnd : Bool

namespace GzipContext

variable {σ : Type}

def setError (c : GzipContext σ) (error : String) : GzipContext σ :=
  if c.state = .error then c else { c with error := error, state := .error }

def gzipIndex (c : GzipContext σ) : ℕ := c.gzipData.length

def growStep (c : GzipContext σ) : ℕ := max (c.uncompressedData.length / 4) minimumGzipBufferSize

/-- The constructor. -/
def new (deflate : Codec σ) (uncompressedData : List Byte) (sliceSize : ℕ) : GzipContext σ :=
  let c : GzipContext σ := {
    state := .initial
    sliceSize := sliceSize
    error := ""
    uncompressedData := uncompressedData
    gzipData := []
    gzipBufferSize :=
      min (max (uncompressedData.length / 4) minimumGzipBufferSize) maxGzipSize
    filename := []
    mtime := 0
    zipStream := deflate.start
    consumed := 0
    zipStreamEnd := false }
  if uncompressedData.length = 0 then c.setError "empty input" else c

def setFilename (c : GzipContext σ) (filename : List Byte) : GzipContext σ :=
  if c.state = .initial ∧ filename.length ≤ maxFilenameLength then { c with filename := filename }
  else c

def setMtime (c : GzipContext σ) (mtime : BitVec 32) : GzipContext σ :=
  if c.state = .initial then { c with mtime := mtime } else c

def grow (c : GzipContext σ) : GzipContext σ :=
  if c.gzipBufferSize ≥ min (maximumGrowFactor * c.growStep) maxGzipSize then
    c.setError "failed to grow buffer; limit reached"
  else { c with gzipBufferSize := (c.gzipBufferSize / c.growStep + 1) * c.growStep }

/-- `Write8` and `Write32`: the bytes of a number, when there is room for the last one. -/
def write (c : GzipContext σ) (bytes : List Byte) : GzipContext σ :=
  if c.state = .error then c
  else
    let last := c.gzipIndex + (bytes.length - 1)
    let c := if last ≥ c.gzipBufferSize then c.grow else c
    if last ≥ c.gzipBufferSize then c.setError "not enough space left"
    else { c with gzipData := c.gzipData ++ bytes }

def write8 (c : GzipContext σ) (value : Byte) : GzipContext σ := c.write [value]

def write32 (c : GzipContext σ) (value : BitVec 32) : GzipContext σ := c.write (word value)

def writeHeader (c : GzipContext σ) : GzipContext σ :=
  if c.state = .error then c
  else
    let c := c.write8 0x1f
    let c := c.write8 0x8b
    let c := c.write8 0x08
    let c := c.write8 (if c.filename.length > 0 then 0x08 else 0x00)
    let c := c.write32 c.mtime
    let c := c.write8 0x04
    let c := c.write8 0x03
    if c.filename.length > 0 then { c with gzipData := c.gzipData ++ c.filename ++ [0] } else c

def writeFooter (c : GzipContext σ) : GzipContext σ :=
  if c.state = .error then c
  else
    let c := c.write32 (crc32 c.uncompressedData)
    c.write32 (BitVec.ofNat 32 c.uncompressedData.length)

/-- A call of `mz_deflate` with the room that is left in the buffer, whose counters have 32
bits. -/
def callDeflate (c : GzipContext σ) (deflate : Codec σ) (flush : Flush) (availIn : ℕ) :
    Result σ :=
  deflate.call flush c.zipStream ((c.uncompressedData.drop c.consumed).take (availIn % 2 ^ 32))
    ((c.gzipBufferSize - c.gzipIndex) % 2 ^ 32)

/-- What `Continue` does with the result of `deflate`. -/
def afterDeflate (c : GzipContext σ) (result : Result σ) : GzipContext σ :=
  let c := { c with
    gzipData := c.gzipData ++ result.out
    zipStream := result.state
    consumed := c.consumed + result.consumed }
  match result.status with
  | .bufError => c.grow
  | .streamEnd => { c with zipStreamEnd := true }
  | .ok => c
  | .failed => c.setError "deflate failed"

def Continue (deflate : Codec σ) (c : GzipContext σ) : GzipContext σ :=
  if c.state = .initial then { c with state := .more }.writeHeader
  else if c.state ≠ .more then c
  else if c.zipStreamEnd then { c with state := .done }.writeFooter
  else
    let remainingInput : ℤ := c.uncompressedData.length - c.consumed
    if remainingInput < 0 then c.setError "internal: invalid input stream"
    else if remainingInput ≤ c.sliceSize then
      c.afterDeflate (c.callDeflate deflate .finish remainingInput.toNat)
    else c.afterDeflate (c.callDeflate deflate .noFlush c.sliceSize)

/-- Whether `Continue` is called once more. -/
def running (c : GzipContext σ) : Bool := c.state = .initial ∨ c.state = .more

end GzipContext

end Cloudpilot.Common

namespace Cloudpilot.Common.GzipContext

open Library.LittleEndian Library.Compression Crc

variable {σ : Type} {c : GzipContext σ} {bytes : List Byte} {k : ℕ}

/-- `mz_deflateBound`. -/
def deflateBound (sourceLen : ℕ) : ℕ :=
  max (128 + sourceLen * 110 / 100) (128 + sourceLen + (sourceLen / (31 * 1024) + 1) * 5)

theorem growStep_pos (c : GzipContext σ) : 2 ^ 19 ≤ c.growStep := by
  exact le_max_right _ _

theorem growStep_lt (h : c.uncompressedData.length < maxGzipSize) : c.growStep < 2 ^ 27 := by
  unfold maxGzipSize at h
  unfold growStep minimumGzipBufferSize
  omega

theorem file_le_buffer (h : c.uncompressedData.length < maxGzipSize) :
    267 + deflateBound c.uncompressedData.length + 8 ≤ 5 * c.growStep := by
  unfold deflateBound growStep minimumGzipBufferSize
  omega

/-- The buffer has the size of so many steps, and what has been written is inside. -/
structure Buffered (k : ℕ) (c : GzipContext σ) : Prop where
  steps : 1 ≤ k ∧ k ≤ 5
  size : c.gzipBufferSize = k * c.growStep
  inside : c.gzipIndex ≤ c.gzipBufferSize
  input : c.uncompressedData.length < maxGzipSize

theorem Buffered.grow (h : Buffered k c) (hk : k < 5) :
    c.grow = { c with gzipBufferSize := (k + 1) * c.growStep } := by
  have hpos := c.growStep_pos
  have hlt := growStep_lt h.input
  have hlimit : ¬c.gzipBufferSize ≥ min (maximumGrowFactor * c.growStep) maxGzipSize := by
    rw [h.size, ge_iff_le, not_le, lt_min_iff]
    constructor
    · apply Nat.mul_lt_mul_of_pos_right hk
      omega
    · calc k * c.growStep ≤ 4 * c.growStep := Nat.mul_le_mul_right _ (by omega)
        _ < 512 * 1024 * 1024 := by omega
  rw [GzipContext.grow, if_neg hlimit, h.size, Nat.mul_div_cancel _ (by omega)]

theorem Buffered.grown (h : Buffered k c) (hk : k < 5) :
    Buffered (k + 1) { c with gzipBufferSize := (k + 1) * c.growStep } where
  steps := by omega
  size := rfl
  inside := by
    have hinside := h.inside
    rw [h.size] at hinside
    apply hinside.trans
    exact Nat.mul_le_mul_right _ (Nat.le_succ k)
  input := h.input

theorem write_eq (hstate : c.state ≠ .error) (hbytes : 0 < bytes.length)
    (hroom : c.gzipIndex + bytes.length ≤ c.gzipBufferSize) :
    c.write bytes = { c with gzipData := c.gzipData ++ bytes } := by
  have hlast : ¬c.gzipIndex + (bytes.length - 1) ≥ c.gzipBufferSize := by omega
  rw [write, if_neg hstate]
  simp [hlast]

/-- A number is written unless the largest buffer is full. -/
theorem Buffered.write32 (h : Buffered k c) (hstate : c.state ≠ .error) (v : BitVec 32)
    (hroom : c.gzipIndex + 4 ≤ 5 * c.growStep) :
    ∃ k', c.write32 v =
        { c with gzipBufferSize := k' * c.growStep, gzipData := c.gzipData ++ word v } ∧
      Buffered k' (c.write32 v) := by
  have hpos := c.growStep_pos
  have hinside := h.inside
  by_cases hlast : c.gzipIndex + 3 ≥ c.gzipBufferSize
  · have hk : k < 5 := by
      by_contra hfull
      have hfive : k = 5 := by
        have hsteps := h.steps
        omega
      have hsize := h.size
      rw [hfive] at hsize
      omega
    have hsize := h.size
    have hnext : (k + 1) * c.growStep = k * c.growStep + c.growStep := by ring
    have hfits : ¬c.gzipIndex + 3 ≥ (k + 1) * c.growStep := by omega
    have heq : c.write32 v = { c with
        gzipBufferSize := (k + 1) * c.growStep, gzipData := c.gzipData ++ word v } := by
      rw [GzipContext.write32, write, if_neg hstate]
      simp [length_word, hlast, h.grow hk, hfits]
    refine ⟨k + 1, heq, ?_⟩
    rw [heq]
    constructor
    · omega
    · rfl
    · grind [gzipIndex, List.length_append, length_word]
    · exact h.input
  · have heq : c.write32 v = { c with gzipData := c.gzipData ++ word v } := by
      apply write_eq hstate (by simp)
      rw [length_word]
      omega
    refine ⟨k, ?_, ?_⟩
    · rw [heq, ← h.size]
    · rw [heq]
      constructor
      · exact h.steps
      · exact h.size
      · grind [gzipIndex, List.length_append, length_word]
      · exact h.input

def header (filename : List Byte) (mtime : BitVec 32) : List Byte :=
  [0x1f, 0x8b, 0x08, if filename.length > 0 then 0x08 else 0x00] ++ word mtime ++ [0x04, 0x03] ++
    if filename.length > 0 then filename ++ [0] else []

theorem length_header_le {filename : List Byte} {mtime : BitVec 32}
    (h : filename.length ≤ maxFilenameLength) : (header filename mtime).length ≤ 267 := by
  unfold maxFilenameLength at h
  unfold header
  split
  · simp
    omega
  · simp

def setData (c : GzipContext σ) (gzipData : List Byte) : GzipContext σ :=
  { c with gzipData := gzipData }

@[simp] theorem filename_setData : (c.setData bytes).filename = c.filename := rfl

@[simp] theorem mtime_setData : (c.setData bytes).mtime = c.mtime := rfl

theorem write_setData {more : List Byte} (hstate : c.state ≠ .error) (hmore : 0 < more.length)
    (hroom : bytes.length + more.length ≤ c.gzipBufferSize) :
    (c.setData bytes).write more = c.setData (bytes ++ more) :=
  write_eq (c := c.setData bytes) hstate hmore hroom

theorem writeHeader_eq (hstate : c.state ≠ .error) (hempty : c.gzipData = [])
    (hroom : 10 ≤ c.gzipBufferSize) :
    c.writeHeader = { c with gzipData := header c.filename c.mtime } := by
  have hwrite : ∀ (front more : List Byte), 0 < more.length → front.length + more.length ≤ 10 →
      (c.setData front).write more = c.setData (front ++ more) := fun _ _ hmore hle =>
    write_setData hstate hmore (hle.trans hroom)
  have hstart : c = c.setData [] := by
    rw [setData, ← hempty]
  have hheader : c.writeHeader = (c.setData []).writeHeader := congrArg _ hstart
  have herror : (c.setData []).state ≠ .error := hstate
  rw [hheader, writeHeader, if_neg herror]
  have hmtime := hwrite
    ([] ++ [0x1f] ++ [0x8b] ++ [0x08] ++ [if c.filename.length > 0 then 0x08 else 0x00])
    (word c.mtime) (by simp) (by simp)
  simp (disch := simp) only [write8, GzipContext.write32, hwrite, filename_setData, mtime_setData]
  simp (disch := simp) only [hmtime, hwrite, filename_setData]
  by_cases hname : c.filename.length > 0 <;> simp [hname, header, setData]

end Cloudpilot.Common.GzipContext
