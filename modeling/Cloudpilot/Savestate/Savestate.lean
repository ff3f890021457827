import Mathlib.Data.List.Sort
import Mathlib.Tactic

/-! # Parsing a savestate

`ParseSavestate` on a machine whose `size_t` and pointers have `w` bits. A pointer is
its distance from the start of the buffer in bytes, modulo `2 ^ w`; differences of
pointers to words are signed. A read that is not inside the buffer has no result.
-/

namespace Cloudpilot.Savestate

section

abbrev Word := BitVec 32

/-- The native build and the wasm build. -/
inductive Arch where
  | bits64
  | bits32

def Arch.width : Arch → ℕ
  | bits64 => 64
  | bits32 => 32

/-- The aligned copy that `Load` makes of its input. No object exceeds the range of the
pointer difference type. -/
structure Buffer (w : ℕ) where
  words : List Word
  size : ℕ
  length_eq : words.length = size / 4 + if size % 4 = 0 then 0 else 1
  fits : size < 2 ^ (w - 1)

/-- The chunk constructed for an entry of the table. -/
structure Window (w : ℕ) where
  type : Word
  buffer : BitVec w
  chunkSize : BitVec w

structure Parsed (w : ℕ) where
  accepted : Bool
  windows : List (Window w)

variable {w : ℕ}

def readWord (b : Buffer w) (p : BitVec w) : Option Word := b.words[p.toNat / 4]?

/-- `p - buffer` for pointers to words. -/
def ptrDiff (p : BitVec w) : BitVec w := p.sshiftRight 2

/-- The loop over the table. -/
def parseLoop (b : Buffer w) (size : BitVec w) :
    (chunkCount : ℕ) → (nextTocEntry nextChunk : BitVec w) → List (Window w) → Option (Parsed w)
  | 0, _, nextChunk, windows => some ⟨ptrDiff nextChunk = size, windows⟩
  | chunkCount + 1, nextTocEntry, nextChunk, windows => do
    let type ← readWord b nextTocEntry
    let chunkSize ← readWord b (nextTocEntry + 4)
    let chunkSize := chunkSize.setWidth w
    if size - ptrDiff nextChunk < chunkSize then some ⟨false, windows⟩
    else
      parseLoop b size chunkCount (nextTocEntry + 8) (nextChunk + 4 * chunkSize)
        (windows ++ [⟨type, nextChunk, chunkSize⟩])

def parseSavestate (b : Buffer w) : Option (Parsed w) :=
  if b.size < 4 then some ⟨false, []⟩
  else if b.size % 4 ≠ 0 then some ⟨false, []⟩
  else do
    let size : BitVec w := BitVec.ofNat w (b.size / 4)
    let chunkCount ← readWord b 0
    let chunkCount := chunkCount.setWidth w
    if size < 4 + chunkCount * 2 then some ⟨false, []⟩
    else parseLoop b size chunkCount.toNat 4 (4 + 4 * (2 * chunkCount)) []

theorem two_pow_eq (hw : 5 ≤ w) : (2 : ℤ) ^ w = 8 * 2 ^ (w - 3) ∧ (2 : ℤ) ^ (w - 1) = 4 * 2 ^ (w - 3) ∧
    (4 : ℤ) ≤ 2 ^ (w - 3) := by
  obtain ⟨v, rfl⟩ := Nat.exists_eq_add_of_le' hw
  have hpos : (1 : ℤ) ≤ 2 ^ v := one_le_pow₀ (by norm_num)
  rw [show v + 5 - 3 = v + 2 by omega, show v + 5 - 1 = v + 4 by omega]
  refine ⟨by ring, by ring, ?_⟩
  rw [pow_add]
  omega

theorem ptrDiff_ofInt {n : ℕ} {d : ℤ} (hw : 5 ≤ w) (hn : n < 2 ^ (w - 3)) (hlo : -3 ≤ d)
    (hhi : d ≤ n) : ptrDiff (BitVec.ofInt w (4 * d)) = BitVec.ofInt w d := by
  obtain ⟨-, hhalf, hfour⟩ := two_pow_eq hw
  have hn' : (n : ℤ) < 2 ^ (w - 3) := by exact_mod_cast hn
  apply BitVec.eq_of_toInt_eq
  rw [ptrDiff, BitVec.toInt_sshiftRight,
    BitVec.toInt_ofInt_eq_self (by omega) (by rw [hhalf]; omega) (by rw [hhalf]; omega),
    BitVec.toInt_ofInt_eq_self (by omega) (by rw [hhalf]; omega) (by rw [hhalf]; omega),
    Int.shiftRight_eq_div_pow]
  omega

theorem toNat_ofInt_of_lt {d : ℤ} (h0 : 0 ≤ d) (h : d < 2 ^ w) :
    ((BitVec.ofInt w d).toNat : ℤ) = d := by
  rw [BitVec.toNat_ofInt, Int.emod_eq_of_lt h0 (by exact_mod_cast h)]
  omega

/-- Where the chunk cursor is `d` words behind the start, `size - (nextChunk - buffer)`
is the number of words left. -/
theorem remaining_eq {n : ℕ} {d : ℤ} (hw : 5 ≤ w) (hn : n < 2 ^ (w - 3)) (hlo : -3 ≤ d)
    (hhi : d ≤ n) :
    ((BitVec.ofNat w n - ptrDiff (BitVec.ofInt w (4 * d))).toNat : ℤ) = n - d := by
  obtain ⟨hpow, -, hfour⟩ := two_pow_eq hw
  have hn' : (n : ℤ) < 2 ^ (w - 3) := by exact_mod_cast hn
  have hsub : BitVec.ofNat w n - BitVec.ofInt w d = BitVec.ofInt w (n - d) := by
    rw [sub_eq_add_neg (n : ℤ) d, BitVec.ofInt_add, BitVec.ofInt_neg, BitVec.ofInt_natCast,
      BitVec.sub_eq_add_neg]
  rw [ptrDiff_ofInt hw hn hlo hhi, hsub]
  exact toNat_ofInt_of_lt (by omega) (by omega)

theorem ptrDiff_eq_size_iff {n : ℕ} {d : ℤ} (hw : 5 ≤ w) (hn : n < 2 ^ (w - 3)) (hlo : -3 ≤ d)
    (hhi : d ≤ n) : ptrDiff (BitVec.ofInt w (4 * d)) = BitVec.ofNat w n ↔ d = n := by
  have h := remaining_eq hw hn hlo hhi
  constructor
  · intro heq
    rw [heq, BitVec.sub_self] at h
    simp at h
    omega
  · intro heq
    rw [ptrDiff_ofInt hw hn hlo hhi, heq, BitVec.ofInt_natCast]

theorem readWord_ofNat (b : Buffer w) {j : ℕ} (hj : 4 * j < 2 ^ w) :
    readWord b (BitVec.ofNat w (4 * j)) = b.words[j]? := by
  rw [readWord, BitVec.toNat_ofNat, Nat.mod_eq_of_lt hj, Nat.mul_div_cancel_left j (by norm_num)]

end

abbrev Byte := BitVec 8

/-- The savestate buffer, word by word. -/
abbrev Mem := ℕ → BitVec 32

structure Chunk where
  chunkSize : ℕ
  error : Bool
  buffer : ℕ
  next : ℕ

def Chunk.new (size buffer : ℕ) : Chunk := ⟨size, false, buffer, buffer⟩

def Chunk.reset (c : Chunk) : Chunk := { c with next := c.buffer, error := false }

def assertOkForSize (c : Chunk) (size : ℕ) : Bool × Chunk :=
  if c.error then (false, c)
  else
    let error : Bool := c.chunkSize - (c.next - c.buffer) < size
    (!error, { c with error := error })

def getByte (v : BitVec 32) (k : ℕ) : Byte := (v >>> (8 * k)).setWidth 8

def ofBytes (f : ℕ → Byte) : BitVec 32 :=
  (f 0).setWidth 32 ||| (f 1).setWidth 32 <<< 8 ||| (f 2).setWidth 32 <<< 16 |||
    (f 3).setWidth 32 <<< 24

def wordSize (size : ℕ) : ℕ := size / 4 + if size % 4 ≠ 0 then 1 else 0

/-- `memcpy(next, buffer, size)`. The bytes behind the last one keep their value. -/
def memcpyTo (m : Mem) (next : ℕ) (bytes : List Byte) : Mem := fun a =>
  if next ≤ a ∧ a < next + wordSize bytes.length then
    ofBytes fun k => (bytes[4 * (a - next) + k]?).getD (getByte (m a) k)
  else m a

/-- `memcpy(buffer, next, size)`. -/
def memcpyFrom (m : Mem) (next size : ℕ) : List Byte :=
  (List.range size).map fun i => getByte (m (next + i / 4)) (i % 4)

def put32 (m : Mem) (c : Chunk) (value : BitVec 32) : Mem × Chunk :=
  match assertOkForSize c 1 with
  | (false, c) => (m, c)
  | (true, c) => (Function.update m c.next value, { c with next := c.next + 1 })

def put64 (m : Mem) (c : Chunk) (value : BitVec 64) : Mem × Chunk :=
  let (m, c) := put32 m c (value.setWidth 32)
  put32 m c ((value >>> 32).setWidth 32)

def putBuffer (m : Mem) (c : Chunk) (bytes : List Byte) : Mem × Chunk :=
  match assertOkForSize c (wordSize bytes.length) with
  | (false, c) => (m, c)
  | (true, c) => (memcpyTo m c.next bytes, { c with next := c.next + wordSize bytes.length })

/-- The zeroed buffer of `maxLength + 1` bytes with the string copied into it. -/
def stringBuffer (str : List Byte) (maxLength : ℕ) : List Byte :=
  let chars := str.takeWhile (· ≠ 0)
  chars ++ List.replicate (maxLength + 1 - chars.length) 0

def putString (m : Mem) (c : Chunk) (str : List Byte) (maxLength : ℕ) : Mem × Chunk :=
  if str.length > maxLength then (m, { c with error := true })
  else putBuffer m c (stringBuffer str maxLength)

def get32 (m : Mem) (c : Chunk) : BitVec 32 × Chunk :=
  match assertOkForSize c 1 with
  | (false, c) => (0, c)
  | (true, c) => (m c.next, { c with next := c.next + 1 })

def get64 (m : Mem) (c : Chunk) : BitVec 64 × Chunk :=
  let (low, c) := get32 m c
  let (high, c) := get32 m c
  (low.setWidth 64 ||| high.setWidth 64 <<< 32, c)

/-- Nothing is read when the chunk is too small. -/
def getBuffer (m : Mem) (c : Chunk) (size : ℕ) : Option (List Byte) × Chunk :=
  match assertOkForSize c (wordSize size) with
  | (false, c) => (none, c)
  | (true, c) => (some (memcpyFrom m c.next size), { c with next := c.next + wordSize size })

def packStep {k : ℕ} (pack : BitVec 32 × ℕ) (value : BitVec k) : BitVec 32 × ℕ :=
  let shifted := if pack.2 > 0 then pack.1 <<< k else pack.1
  ((shifted &&& ~~~BitVec.ofNat 32 (2 ^ k - 1)) ||| value.setWidth 32, pack.2 + 1)

def packValue {k : ℕ} (values : List (BitVec k)) : BitVec 32 := (values.foldl packStep (0, 0)).1

/-- The loading loop runs from the last value to the first. -/
def unpack (k : ℕ) : ℕ → BitVec 32 → List (BitVec k)
  | 0, _ => []
  | n + 1, value => unpack k n (value >>> k) ++ [value.setWidth k]

/-- One call of a target on its chunk. -/
inductive Item where
  | u8 (value : BitVec 8)
  | u16 (value : BitVec 16)
  | u32 (value : BitVec 32)
  | u64 (value : BitVec 64)
  | bool (value : Bool)
  | double (bits : BitVec 64)
  | buffer (bytes : List Byte)
  | string (str : List Byte) (maxLength : ℕ)
  | pack8 (values : List (BitVec 8))
  | pack16 (values : List (BitVec 16))
  | boolPack (values : List Bool)
  deriving DecidableEq

/-- Strings without NUL that are not too long, and packs that fit into a word. -/
def Item.WellFormed : Item → Prop
  | .string str maxLength => str.length ≤ maxLength ∧ 0 ∉ str
  | .pack8 values => values.length ≤ 4
  | .pack16 values => values.length ≤ 2
  | .boolPack values => values.length ≤ 32
  | _ => True

/-- The matching call of the loading target. -/
inductive Shape where
  | u8
  | u16
  | u32
  | u64
  | bool
  | double
  | buffer (size : ℕ)
  | string (maxLength : ℕ)
  | pack8 (count : ℕ)
  | pack16 (count : ℕ)
  | boolPack (count : ℕ)

def Item.shape : Item → Shape
  | .u8 _ => .u8
  | .u16 _ => .u16
  | .u32 _ => .u32
  | .u64 _ => .u64
  | .bool _ => .bool
  | .double _ => .double
  | .buffer bytes => .buffer bytes.length
  | .string _ maxLength => .string maxLength
  | .pack8 values => .pack8 values.length
  | .pack16 values => .pack16 values.length
  | .boolPack values => .boolPack values.length

/-- `ChunkProbe`: the words an item adds. -/
def Item.probe : Item → ℕ
  | .u8 _ => 1
  | .u16 _ => 1
  | .u32 _ => 1
  | .u64 _ => 2
  | .bool _ => 1
  | .double _ => 2
  | .buffer bytes => wordSize bytes.length
  | .string _ maxLength => wordSize (maxLength + 1)
  | .pack8 _ => 1
  | .pack16 _ => 1
  | .boolPack _ => 1

def putItem (m : Mem) (c : Chunk) : Item → Mem × Chunk
  | .u8 value => put32 m c (value.setWidth 32)
  | .u16 value => put32 m c (value.setWidth 32)
  | .u32 value => put32 m c value
  | .u64 value => put64 m c value
  | .bool value => put32 m c (BitVec.ofBool value |>.setWidth 32)
  | .double bits => put64 m c bits
  | .buffer bytes => putBuffer m c bytes
  | .string str maxLength => putString m c str maxLength
  | .pack8 values => put32 m c (packValue values)
  | .pack16 values => put32 m c (packValue values)
  | .boolPack values => put32 m c (packValue (values.map BitVec.ofBool))

/-- A read that fails for want of room leaves buffers and strings without a value. -/
def getItem (m : Mem) (c : Chunk) : Shape → Option Item × Chunk
  | .u8 => let (v, c) := get32 m c; (some (.u8 (v.setWidth 8)), c)
  | .u16 => let (v, c) := get32 m c; (some (.u16 (v.setWidth 16)), c)
  | .u32 => let (v, c) := get32 m c; (some (.u32 v), c)
  | .u64 => let (v, c) := get64 m c; (some (.u64 v), c)
  | .bool => let (v, c) := get32 m c; (some (.bool (v ≠ 0)), c)
  | .double => let (v, c) := get64 m c; (some (.double v), c)
  | .buffer size => let (bytes, c) := getBuffer m c size; (bytes.map .buffer, c)
  | .string maxLength =>
    let (bytes, c) := getBuffer m c (maxLength + 1)
    (bytes.map fun bytes => .string (bytes.takeWhile (· ≠ 0)) maxLength, c)
  | .pack8 count => let (v, c) := get32 m c; (some (.pack8 (unpack 8 count v)), c)
  | .pack16 count => let (v, c) := get32 m c; (some (.pack16 (unpack 16 count v)), c)
  | .boolPack count =>
    let (v, c) := get32 m c
    (some (.boolPack ((unpack 1 count v).map fun bit => bit ≠ 0)), c)

def putItems (m : Mem) (c : Chunk) : List Item → Mem × Chunk
  | [] => (m, c)
  | item :: items =>
    let (m, c) := putItem m c item
    putItems m c items

def getItems (m : Mem) (c : Chunk) : List Shape → List (Option Item) × Chunk
  | [] => ([], c)
  | shape :: shapes =>
    let (item, c) := getItem m c shape
    let (items, c) := getItems m c shapes
    (item :: items, c)

def probeSize (items : List Item) : ℕ := (items.map Item.probe).sum

inductive ChunkType where
  | cpu68k
  | regsEZ
  | session
  | systemState
  | patchMgr
  | regsVZ
  | regsFrameBuffer
  | regsSED1376
  | regsSED1375
  | regsMQ1xx
  | regsPLLDAtlantiC
  | regs328
  | regsVZHandera330
  | spiSlave330Current
  | regs330CPLD
  | spiSlaveADS784
  | regsUsbClie
  | regsUsbClieN700C
  | regsSZ
  | regsMQ1168
  | memoryStick
  | regsSonyDsp
  | regsMB86189
  | externalStorage
  | spiSlaveSD
  deriving DecidableEq

def ChunkType.toWord : ChunkType → BitVec 32
  | cpu68k => 0x0010
  | regsEZ => 0x0020
  | session => 0x0030
  | systemState => 0x0040
  | patchMgr => 0x0080
  | regsVZ => 0x0090
  | regsFrameBuffer => 0x00a0
  | regsSED1376 => 0x00b0
  | regsSED1375 => 0x00c0
  | regsMQ1xx => 0x00d0
  | regsPLLDAtlantiC => 0x00e0
  | regs328 => 0x00f0
  | regsVZHandera330 => 0x0110
  | spiSlave330Current => 0x0120
  | regs330CPLD => 0x0130
  | spiSlaveADS784 => 0x140
  | regsUsbClie => 0x150
  | regsUsbClieN700C => 0x160
  | regsSZ => 0x170
  | regsMQ1168 => 0x180
  | memoryStick => 0x190
  | regsSonyDsp => 0x1a0
  | regsMB86189 => 0x1b0
  | externalStorage => 0x1c0
  | spiSlaveSD => 0x1d0

/-- A chunk that a target requests, with what it puts there. -/
structure Request where
  type : ChunkType
  items : List Item

/-- The map of the probe in the order of its keys: the types and sizes of the chunks. -/
def probeMap (requests : List Request) : List (ChunkType × ℕ) :=
  (requests.map fun r => (r.type, probeSize r.items)).insertionSort
    fun a b => a.1.toWord.toNat ≤ b.1.toWord.toNat

/-- The fields of a `Savestate`. -/
structure Saving where
  mem : Mem
  size : ℕ
  chunkMap : ChunkType → Option Chunk
  error : Bool

/-- The loop of `AllocateBuffer`. -/
def allocateLoop : List (ChunkType × ℕ) → (nextTocEntry nextChunk : ℕ) → Mem →
    (ChunkType → Option Chunk) → Mem × (ChunkType → Option Chunk)
  | [], _, _, m, chunkMap => (m, chunkMap)
  | (type, size) :: rest, nextTocEntry, nextChunk, m, chunkMap =>
    let m := Function.update m nextTocEntry type.toWord
    let m := Function.update m (nextTocEntry + 1) (BitVec.ofNat 32 size)
    let chunkMap := Function.update chunkMap type (some (Chunk.new size nextChunk))
    allocateLoop rest (nextTocEntry + 2) (nextChunk + size) m chunkMap

def bufferSize (requests : List Request) : ℕ :=
  (probeMap requests).foldl (fun size entry => size + entry.2 * 4 + 8) 4

/-- The probe reports an error when a chunk is requested twice. -/
def allocateBuffer (requests : List Request) : Option Saving :=
  if (requests.map Request.type).Nodup then
    let chunkCount := (probeMap requests).length
    let m : Mem := Function.update (fun _ => 0) 0 (BitVec.ofNat 32 chunkCount)
    let (m, chunkMap) :=
      allocateLoop (probeMap requests) 1 (1 + 2 * chunkCount) m (fun _ => none)
    some ⟨m, bufferSize requests, chunkMap, false⟩
  else none

/-- A target that puts its items. It returns early where it gets no chunk. -/
def saveLoop : List Request → Saving → Saving
  | [], s => s
  | r :: requests, s =>
    match s.chunkMap r.type with
    | none => saveLoop requests s
    | some c =>
      let error := s.error || c.error
      let (m, c) := putItems s.mem c.reset r.items
      saveLoop requests
        { s with mem := m, chunkMap := Function.update s.chunkMap r.type (some c), error := error }

def hasError : Option Chunk → Bool
  | none => false
  | some c => c.error

def chunkError (chunkMap : ChunkType → Option Chunk) (types : List ChunkType) : Bool :=
  types.any fun type => hasError (chunkMap type)

/-- `Savestate::Save`, without a buffer left from an earlier save. -/
def save (requests : List Request) : Bool × Option Saving :=
  match allocateBuffer requests with
  | none => (false, none)
  | some s =>
    let s := saveLoop requests s
    let error := s.error || chunkError s.chunkMap ((probeMap requests).map Prod.fst)
    (!error, some { s with error := error })

structure LoadResult where
  ok : Bool
  values : List (List (Option Item))

/-- The chunk map after parsing. Where a type is listed twice, `emplace` keeps the first. -/
def loaderMap {w : ℕ} (windows : List (Window w)) (type : BitVec 32) : Option Chunk :=
  ((windows.map fun x => (x.type, Chunk.new x.chunkSize.toNat (x.buffer.toNat / 4))).find?
    fun entry => entry.1 = type).map Prod.snd

/-- A target that makes the matching requests. -/
def targetLoad (m : Mem) : List (ChunkType × List Shape) → (BitVec 32 → Option Chunk) → Bool →
    List (List (Option Item)) × (BitVec 32 → Option Chunk) × Bool
  | [], chunkMap, error => ([], chunkMap, error)
  | (type, shapes) :: requests, chunkMap, error =>
    match chunkMap type.toWord with
    | none =>
      let (values, rest) := targetLoad m requests chunkMap error
      (shapes.map (fun _ => none) :: values, rest)
    | some c =>
      let (items, c') := getItems m c.reset shapes
      let (values, rest) := targetLoad m requests
        (Function.update chunkMap type.toWord (some c')) (error || c.error)
      (items :: values, rest)

/-- `SavestateLoader::Load`. No result where parsing reads outside the buffer. -/
def load {w : ℕ} (b : Buffer w) (requests : List (ChunkType × List Shape)) : Option LoadResult :=
  match parseSavestate b with
  | none => none
  | some parsed =>
    if parsed.accepted = false then some ⟨false, []⟩
    else
      let m : Mem := fun a => b.words.getD a 0
      let (values, chunkMap, error) := targetLoad m requests (loaderMap parsed.windows) false
      let error := error || parsed.windows.any fun x => hasError (chunkMap x.type)
      some ⟨!error, values⟩

end Cloudpilot.Savestate
