import Cloudpilot.Uarm.Memory
import Cloudpilot.Common.Crc
import Cloudpilot.Library.TypedArray

/-! # The run length code of session images

A block starts with its size. Literal bytes and runs of one byte follow, each with its
type and its length in groups of seven bits, the low groups first. `session.js` writes and
reads such blocks, `rle.cpp` reads them.
-/
namespace Cloudpilot.Uarm.Session
open Library.LittleEndian Library.TypedArray Common.Crc

/-- The ways in which a function ends other than by returning: an error with its message,
the range error of a typed array, the syntax error of `JSON.parse`, an access outside of a C++
buffer. A loop that has used up its fuel is still running. -/
inductive Stop
  | error (message : String)
  | rangeError
  | syntaxError
  | overrun
  | running
  deriving DecidableEq, Repr

def blockTypeCopy : Byte := 0

def blockTypeRepeat : Byte := 1

def repeatThreshold : ℕ := 8

def maxOverhead : ℕ := 9

/-- The output buffer of `compress` with the position of the next byte. Every write is at
the cursor and moves it on by as much, so that its last position bounds them all. -/
structure Sink where
  compressedData : List Byte
  compressedCursor : ℕ
  deriving DecidableEq, Repr

namespace Sink

def put (s : Sink) (v : Byte) : Sink :=
  ⟨s.compressedData.set s.compressedCursor v, s.compressedCursor + 1⟩

def putType (s : Sink) (type : Byte) : Sink := s.put type

/-- One group of `putLength`. -/
def lengthGroup (length : ℕ) : Byte :=
  BitVec.ofNat 8 (length % 128) ||| if length > 0x7f then 0x80 else 0

/-- The groups of a length; a number of 32 bits has five of them at most. -/
def putGroups : ℕ → Sink → ℕ → Sink
  | 0, s, _ => s
  | fuel + 1, s, length =>
    let s := s.put (lengthGroup length)
    let length := length % 2 ^ 32 / 128
    if length = 0 then s else putGroups fuel s length

def putLength (s : Sink) (length : ℕ) : Sink := putGroups 5 s length

def putCopy (s : Sink) (data : List Byte) (cursor stop : ℕ) : Except Stop Sink :=
  if cursor = stop then .ok s
  else
    let s := (s.putType blockTypeCopy).putLength (stop - cursor)
    match setView s.compressedData s.compressedCursor (s.compressedCursor + (stop - cursor : ℕ))
        (subarray data cursor stop) with
    | none => .error .rangeError
    | some compressedData => .ok ⟨compressedData, s.compressedCursor + (stop - cursor)⟩

def putRepeat (s : Sink) (value : Byte) (repeatCount : ℕ) : Sink :=
  ((s.putType blockTypeRepeat).putLength repeatCount).put value

end Sink

inductive ScanState
  | first
  | scanCopy
  | scanRepeat
  deriving DecidableEq, Repr

/-- The variables of `compress`. Before the first byte `lastValue` is not set yet. -/
structure Scan where
  sink : Sink
  state : ScanState
  repeatFirst : ℕ
  cursor : ℕ
  crc : BitVec 32
  lastValue : ℕ
  deriving DecidableEq, Repr

/-- The byte at a position, and the sentinel behind the last one. -/
def valueAt (data : List Byte) (i : ℕ) : ℕ := (data[i]?.map BitVec.toNat).getD 0xffff

def Scan.start (data : List Byte) : Scan where
  sink := ⟨overwrite (List.replicate (data.length + maxOverhead) 0) 0
    (word (BitVec.ofNat 32 data.length)), 4⟩
  state := .first
  repeatFirst := 0
  cursor := 0
  crc := crc32Start
  lastValue := 0

/-- A run that has ended is written when it is long enough. -/
def Scan.endRun (data : List Byte) (s : Scan) (i : ℕ) : Except Stop Scan :=
  if i - s.repeatFirst ≥ repeatThreshold then do
    let sink ← s.sink.putCopy data s.cursor s.repeatFirst
    return { s with
      sink := sink.putRepeat (BitVec.ofNat 8 s.lastValue) (i - s.repeatFirst)
      cursor := i }
  else .ok s

def Scan.addCrc (data : List Byte) (s : Scan) (i : ℕ) : Scan :=
  match data[i]? with
  | some value => { s with crc := crc32Add s.crc value }
  | none => s

/-- One round of the loop of `compress`. -/
def Scan.step (data : List Byte) (s : Scan) (i : ℕ) : Except Stop Scan :=
  let value := valueAt data i
  let s := s.addCrc data i
  match s.state with
  | .first => .ok { s with lastValue := value, state := .scanCopy }
  | .scanCopy =>
    if value = s.lastValue then .ok { s with state := .scanRepeat, repeatFirst := i - 1 }
    else .ok { s with lastValue := value }
  | .scanRepeat =>
    if value ≠ s.lastValue then do
      let s ← s.endRun data i
      return { s with state := .scanCopy, lastValue := value }
    else .ok s

/-- What is left over behind the last run. -/
def Scan.finish (data : List Byte) (s : Scan) : Except Stop Scan :=
  if s.state = .scanCopy then
    if s.cursor < data.length then do
      let sink ← s.sink.putCopy data s.cursor data.length
      return { s with sink := sink }
    else .ok s
  else .error (.error "unreachable")

/-- The variables of `compress` when it returns. -/
def scan (data : List Byte) : Except Stop Scan := do
  let s ← (List.range (data.length + 1)).foldlM (Scan.step data) (Scan.start data)
  s.finish data

/-- Bytes together with their checksum. -/
structure Checksummed where
  data : List Byte
  crc : BitVec 32
  deriving DecidableEq, Repr

def compress (data : List Byte) : Except Stop Checksummed := do
  let s ← scan data
  return ⟨s.sink.compressedData.take s.sink.compressedCursor, crc32Finish s.crc⟩

example : compress [1, 2, 2, 2, 2, 2, 2, 2, 2, 3] =
    .ok ⟨[10, 0, 0, 0, 0, 1, 1, 1, 8, 2, 0, 1, 3],
      crc32 [1, 2, 2, 2, 2, 2, 2, 2, 2, 3]⟩ := by
  decide +kernel

def maxBlockSize : ℕ := 128 * 1024 * 1024

/-- The block length of `rle_decode`, with a `size_t` of `w` bits. The sixth round always
fails. -/
def decodeBlockLen (w : ℕ) (source : List Byte) :
    ℕ → ℕ → BitVec w → ℕ → Except Stop (ℕ × BitVec w)
  | 0, _, _, _ => .error .running
  | fuel + 1, cursorCompressed, blockLen, shift =>
    match source[cursorCompressed]? with
    | none => .error (.error "unable to decode block size")
    | some byte =>
      if shift > 28 then .error (.error "invalid block size")
      else
        let blockLen := blockLen ||| (((byte &&& 0x7f#8).setWidth 32) <<< shift).signExtend w
        if byte &&& 0x80#8 = 0 then .ok (cursorCompressed + 1, blockLen)
        else decodeBlockLen w source fuel (cursorCompressed + 1) blockLen (shift + 7)

/-- The variables of `rle_decode`. -/
structure Decoder where
  cursor : ℕ
  cursorCompressed : ℕ
  decompressed : List Byte
  deriving DecidableEq, Repr

/-- The payload of a block of `rle_decode`. Blocks of other types are passed over. -/
def Decoder.payload (w : ℕ) (source : List Byte) (s : Decoder) (blockType : Byte)
    (blockLen : ℕ) : Except Stop Decoder :=
  let cursor := (s.cursor + blockLen) % 2 ^ w
  if blockType = blockTypeCopy then
    if (s.cursorCompressed + blockLen) % 2 ^ w > source.length then
      .error (.error "copy block cut short")
    else if s.cursor + blockLen > s.decompressed.length ∨
        s.cursorCompressed + blockLen > source.length then .error .overrun
    else .ok ⟨cursor, s.cursorCompressed + blockLen,
      overwrite s.decompressed s.cursor ((source.drop s.cursorCompressed).take blockLen)⟩
  else if blockType = blockTypeRepeat then
    match source[s.cursorCompressed]? with
    | none => .error (.error "repeat block cut short")
    | some value =>
      if s.cursor + blockLen > s.decompressed.length then .error .overrun
      else .ok ⟨cursor, s.cursorCompressed + 1,
        overwrite s.decompressed s.cursor (List.replicate blockLen value)⟩
  else .ok { s with cursor := cursor }

/-- One round of the loop of `rle_decode`. -/
def Decoder.step (w : ℕ) (source : List Byte) (size : ℕ) (s : Decoder) : Except Stop Decoder :=
  match source[s.cursorCompressed]? with
  | none => .error (.error "not enough blocks")
  | some blockType => do
    let (cursorCompressed, blockLen) ←
      decodeBlockLen w source 6 (s.cursorCompressed + 1) 0 0
    if (s.cursor + blockLen.toNat) % 2 ^ w > size then .error (.error "block too long")
    else
      Decoder.payload w source { s with cursorCompressed := cursorCompressed } blockType
        blockLen.toNat

def Decoder.run (w : ℕ) (source : List Byte) (size : ℕ) : ℕ → Decoder → Except Stop Decoder
  | 0, _ => .error .running
  | fuel + 1, s =>
    if s.cursor < size then do
      let s ← s.step w source size
      s.run w source size fuel
    else .ok s

/-- `rle_decode`. Every round of its loop takes a byte of the source at least. -/
def rleDecode (w : ℕ) (source : List Byte) : Except Stop (List Byte) :=
  if source.length < 4 then .error (.error "bad block size")
  else
    let size := ((wordAt source 0).signExtend w).toNat
    if size > maxBlockSize then .error (.error "block too large")
    else do
      let s ← Decoder.run w source size (source.length + 1) ⟨0, 4, List.replicate size 0⟩
      return s.decompressed

/-- The block length of `decompress`. A byte that is undefined counts as zero. -/
def readBlockLen (compressed : List Byte) :
    ℕ → ℤ → BitVec 32 → ℕ → Except Stop (ℤ × BitVec 32)
  | 0, _, _, _ => .error .running
  | fuel + 1, cursorCompressed, blockLen, shift =>
    if cursorCompressed ≥ compressed.length then .error (.error "unable to read block length")
    else
      let byte := (get compressed cursorCompressed).getD 0
      let blockLen := blockLen ||| ((byte &&& 0x7f#8).setWidth 32) <<< (shift % 32)
      if byte &&& 0x80#8 = 0 then .ok (cursorCompressed + 1, blockLen)
      else readBlockLen compressed fuel (cursorCompressed + 1) blockLen (shift + 7)

/-- The variables of `decompress`. Lengths are signed, and a negative one moves the cursors
backwards. -/
structure Reader where
  cursor : ℤ
  cursorCompressed : ℤ
  crc : BitVec 32
  data : List Byte
  deriving DecidableEq, Repr

/-- Digits as `toString(16)` writes them. -/
def hexDigits (n : ℤ) : String :=
  (if n < 0 then "-" else "") ++ String.ofList (Nat.toDigits 16 n.natAbs)

def Reader.payload (compressed : List Byte) (s : Reader) (blockType : Option Byte)
    (blockLen : ℤ) : Except Stop Reader :=
  if blockType = some blockTypeCopy then
    if s.cursorCompressed + blockLen > compressed.length then
      .error (.error "copy block prematurely terminated")
    else
      match setView s.data s.cursor (s.cursor + blockLen)
          (subarray compressed s.cursorCompressed (s.cursorCompressed + blockLen)) with
      | none => .error .rangeError
      | some data => .ok {
          cursor := s.cursor + blockLen
          cursorCompressed := s.cursorCompressed + blockLen
          crc := (List.range blockLen.toNat).foldl (fun crc (k : ℕ) =>
            crc32Add crc ((get compressed (s.cursorCompressed + k)).getD 0)) s.crc
          data := data }
  else if blockType = some blockTypeRepeat then
    if s.cursorCompressed ≥ compressed.length then
      .error (.error "unable to read copy block value")
    else
      let value := (get compressed s.cursorCompressed).getD 0
      .ok {
        cursor := s.cursor + blockLen
        cursorCompressed := s.cursorCompressed + 1
        crc := (List.replicate blockLen.toNat value).foldl crc32Add s.crc
        data := fillView s.data s.cursor (s.cursor + blockLen) value }
  else .error (.error ("invalid block type " ++
    (blockType.map fun type => toString type.toNat).getD "undefined"))

/-- One round of the loop of `decompress`. -/
def Reader.step (compressed : List Byte) (length : ℤ) (s : Reader) : Except Stop Reader :=
  if s.cursorCompressed ≥ compressed.length then .error (.error "not enough blocks")
  else do
    let (cursorCompressed, blockLen) ←
      readBlockLen compressed (compressed.length + 1) (s.cursorCompressed + 1) 0 0
    if s.cursor + blockLen.toInt > length then
      .error (.error ("block exceeds file size @ 0x" ++ hexDigits cursorCompressed))
    else
      Reader.payload compressed { s with cursorCompressed := cursorCompressed }
        (get compressed s.cursorCompressed) blockLen.toInt

def Reader.run (compressed : List Byte) (length : ℤ) : ℕ → Reader → Except Stop Reader
  | 0, _ => .error .running
  | fuel + 1, s =>
    if s.cursor < length then do
      let s ← s.step compressed length
      s.run compressed length fuel
    else .ok s

/-- `decompress`, for so many rounds of its loop. -/
def decompress (fuel : ℕ) (compressed : List Byte) : Except Stop Checksummed :=
  if compressed.length < 4 then .error (.error "bad file length")
  else
    let length := (wordAt compressed 0).toInt
    if length < 0 then .error .rangeError
    else do
      let s ← Reader.run compressed length fuel
        ⟨0, 4, crc32Start, List.replicate length.toNat 0⟩
      if s.cursor ≠ length then .error (.error "chunk sizes do not add up")
      else return ⟨s.data, crc32Finish s.crc⟩

end Cloudpilot.Uarm.Session
