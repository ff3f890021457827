import Cloudpilot.Uarm.Session.Blocks
import Cloudpilot.Uarm.Session.Compress

/-! # Round trip of the run length code

Block by block, both decoders append to their output the bytes that a block stands for.
-/
namespace Cloudpilot.Uarm.Session
open Library.LittleEndian Library.TypedArray Common.Crc List

variable {w size : ℕ} {front rest out : List Byte} {block : Block} {blocks : List Block}

namespace Block

def type : Block → Byte
  | copy _ => blockTypeCopy
  | run _ _ => blockTypeRepeat

/-- What stands behind the length of a block. -/
def payload : Block → List Byte
  | copy bytes => bytes
  | run value _ => [value]

def header (block : Block) : List Byte := block.type :: lengthBytes block.bytes.length

theorem encode_eq (block : Block) : block.encode = block.header ++ block.payload := by
  cases block <;> simp [encode, header, type, bytes, payload]

theorem header_append (front : List Byte) (block : Block) (rest : List Byte) :
    front ++ (block.header ++ rest) =
      front ++ [block.type] ++ (lengthBytes block.bytes.length ++ rest) := by
  simp [header]

theorem getElem?_header (front : List Byte) (block : Block) (rest : List Byte) :
    (front ++ (block.header ++ rest))[front.length]? = some block.type := by
  simp [header]

end Block

theorem length_le_length_flatMap_encode (blocks : List Block) :
    blocks.length ≤ (blocks.flatMap Block.encode).length := by
  induction blocks with
  | nil => exact le_rfl
  | cons block blocks ih =>
    have hpos : 0 < block.encode.length := by
      cases block <;> simp [Block.encode]
    rw [flatMap_cons, length_append, length_cons]
    omega

theorem take_overwrite_append {decompressed bytes : List Byte}
    (hout : decompressed.take out.length = out)
    (hroom : out.length + bytes.length ≤ decompressed.length) :
    (overwrite decompressed out.length bytes).take (out ++ bytes).length = out ++ bytes := by
  rw [length_append, take_overwrite (by omega), hout]

/-- `rle_decode` has read the first part of its source and written the first part of its
output. -/
structure Decoder.Holds (s : Decoder) (size : ℕ) (front out : List Byte) : Prop where
  cursor : s.cursor = out.length
  cursorCompressed : s.cursorCompressed = front.length
  length : s.decompressed.length = size
  content : s.decompressed.take out.length = out

theorem Decoder.step_header {s : Decoder} (hw : 32 ≤ w) (hfits : block.Fits)
    (hcompressed : s.cursorCompressed = front.length) (hsize : size ≤ maxBlockSize)
    (hroom : s.cursor + block.bytes.length ≤ size) :
    s.step w (front ++ (block.header ++ rest)) size =
      Decoder.payload w (front ++ (block.header ++ rest))
        { s with cursorCompressed := (front ++ block.header).length } block.type
        block.bytes.length := by
  have hword : 2 ^ 32 ≤ 2 ^ w := Nat.pow_le_pow_right (by omega) hw
  have hlt := hfits.2
  unfold maxBlockSize at hsize
  have hlen : (BitVec.ofNat w block.bytes.length).toNat = block.bytes.length := by grind
  have hread : decodeBlockLen w (front ++ (block.header ++ rest)) 6 (front.length + 1) 0 0 =
      .ok ((front ++ block.header).length, BitVec.ofNat w block.bytes.length) := by
    have hnext : front.length + 1 = (front ++ [block.type]).length := by simp
    rw [Block.header_append, hnext, decodeBlockLen_lengthBytes hlt]
    simp [Block.header]
    omega
  rw [Decoder.step, hcompressed, Block.getElem?_header]
  simp only [hread, bind, Except.bind, hlen]
  rw [if_neg (by rw [Nat.mod_eq_of_lt (by omega)]; omega)]

theorem Decoder.Holds.step {s : Decoder} (h : s.Holds size front out) (hw : 32 ≤ w)
    (hsize : size ≤ maxBlockSize) (hfits : block.Fits)
    (hroom : (out ++ block.bytes).length ≤ size) :
    ∃ s', s.step w (front ++ (block.encode ++ rest)) size = .ok s' ∧
      s'.Holds size (front ++ block.encode) (out ++ block.bytes) := by
  have hword : 2 ^ 32 ≤ 2 ^ w := Nat.pow_le_pow_right (by omega) hw
  obtain ⟨hcursor, hcompressed, hlength, hcontent⟩ := h
  rw [length_append] at hroom
  have hfit : s.cursor + block.bytes.length ≤ size := by omega
  have hmod : (out.length + block.bytes.length) % 2 ^ w = (out ++ block.bytes).length := by
    unfold maxBlockSize at hsize
    rw [Nat.mod_eq_of_lt (by omega), length_append]
  rw [Block.encode_eq, append_assoc, Decoder.step_header hw hfits hcompressed hsize hfit,
    ← append_assoc front block.header block.payload,
    ← append_assoc front block.header (block.payload ++ rest)]
  generalize front ++ block.header = front'
  unfold Decoder.payload
  simp only [hcursor, hmod] at hfit ⊢
  have hinside : front'.length + block.payload.length ≤
      (front' ++ (block.payload ++ rest)).length := by
    simp
  cases block with
  | copy bytes =>
    simp only [Block.type, Block.bytes, Block.payload, ↓reduceIte] at hinside hfit hroom ⊢
    have hcut : ¬(front'.length + bytes.length) % 2 ^ w > (front' ++ (bytes ++ rest)).length :=
      not_lt.mpr ((Nat.mod_le _ _).trans hinside)
    have hcopied : ((front' ++ (bytes ++ rest)).drop front'.length).take bytes.length = bytes := by
      simp
    have hover : ¬(out.length + bytes.length > s.decompressed.length ∨
        front'.length + bytes.length > (front' ++ (bytes ++ rest)).length) := by
      omega
    simp only [hcut, hover, ↓reduceIte, hcopied]
    refine ⟨_, rfl, ?_⟩
    constructor
    · rfl
    · simp
    · rw [length_overwrite (by omega), hlength]
    · exact take_overwrite_append hcontent (by omega)
  | run value count =>
    have htype : blockTypeRepeat ≠ blockTypeCopy := by decide
    have hvalue : (front' ++ ([value] ++ rest))[front'.length]? = some value := by simp
    simp only [Block.type, Block.bytes, Block.payload, length_replicate, htype, hvalue,
      ↓reduceIte] at hfit hroom ⊢
    have hover : ¬out.length + count > s.decompressed.length := by omega
    simp only [hover, ↓reduceIte]
    have hreplicate : (replicate count value).length = count := length_replicate
    refine ⟨_, rfl, ?_⟩
    constructor
    · rfl
    · simp
    · rw [length_overwrite (by omega), hlength]
    · exact take_overwrite_append hcontent (by omega)

theorem Decoder.Holds.run {s : Decoder} {fuel : ℕ} (h : s.Holds size front out) (hw : 32 ≤ w)
    (hsize : size ≤ maxBlockSize) (hfits : ∀ block ∈ blocks, block.Fits)
    (hbytes : (out ++ blocks.flatMap Block.bytes).length = size) (hfuel : blocks.length < fuel) :
    ∃ s', s.run w (front ++ blocks.flatMap Block.encode) size fuel = .ok s' ∧
      s'.decompressed = out ++ blocks.flatMap Block.bytes := by
  induction blocks generalizing s front out fuel with
  | nil =>
    obtain ⟨fuel, rfl⟩ : ∃ k, fuel = k + 1 := ⟨fuel - 1, by omega⟩
    rw [flatMap_nil, append_nil] at hbytes
    refine ⟨s, ?_, ?_⟩
    · rw [Decoder.run, if_neg (by rw [h.cursor, hbytes]; exact lt_irrefl size)]
    · rw [← h.content, take_of_length_le (by rw [h.length, hbytes])]
      simp
  | cons block blocks ih =>
    obtain ⟨fuel, rfl⟩ : ∃ k, fuel = k + 1 := ⟨fuel - 1, by omega⟩
    simp only [flatMap_cons, length_append] at hbytes
    have hblock := hfits block mem_cons_self
    have hmore : s.cursor < size := by
      rw [h.cursor]
      have hpos := hblock.1
      omega
    have hroom : (out ++ block.bytes).length ≤ size := by grind
    obtain ⟨s', hstep, hholds⟩ := h.step hw hsize hblock hroom
    have hrest : (out ++ block.bytes ++ blocks.flatMap Block.bytes).length = size := by grind
    obtain ⟨s'', hrun, hout⟩ := ih hholds (fun b hb => hfits b (mem_cons_of_mem _ hb)) hrest
      (Nat.lt_of_succ_lt_succ hfuel)
    refine ⟨s'', ?_, ?_⟩
    · rw [Decoder.run, if_pos hmore, flatMap_cons, hstep]
      rwa [append_assoc] at hrun
    · grind

/-- `decompress` has read the first part of its source and written the first part of its
output, with the checksum of that part. -/
structure Reader.Holds (s : Reader) (size : ℕ) (front out : List Byte) : Prop where
  cursor : s.cursor = out.length
  cursorCompressed : s.cursorCompressed = front.length
  crc : s.crc = out.foldl crc32Add crc32Start
  length : s.data.length = size
  content : s.data.take out.length = out

theorem toInt_ofNat_length {length : ℕ} (h : length < 2 ^ 28) :
    (BitVec.ofNat 32 length).toInt = length := by
  rw [BitVec.toInt_eq_toNat_of_lt] <;> rw [BitVec.toNat_ofNat, Nat.mod_eq_of_lt (by omega)]
  omega

theorem foldl_range_get (front bytes rest : List Byte) (crc : BitVec 32) :
    (List.range bytes.length).foldl (fun crc (k : ℕ) =>
        crc32Add crc ((get (front ++ (bytes ++ rest)) (front.length + k)).getD 0)) crc =
      bytes.foldl crc32Add crc := by
  have hget : ∀ k ∈ List.range bytes.length,
      (get (front ++ (bytes ++ rest)) (front.length + k)).getD 0 = bytes[k]?.getD 0 := by
    intro k hk
    have hlt := List.mem_range.mp hk
    rw [← Nat.cast_add, get_natCast, getElem?_append_right (Nat.le_add_right _ _),
      Nat.add_sub_cancel_left, getElem?_append_left hlt]
  have hbytes : (List.range bytes.length).map (fun k => bytes[k]?.getD 0) = bytes := by
    apply ext_getElem
    · simp
    · intro k hk hk'
      simp [hk']
  conv_rhs => rw [← hbytes, foldl_map]
  apply foldl_ext
  intro crc k hk
  rw [hget k hk]

theorem Reader.step_header {s : Reader} (hfits : block.Fits)
    (hcompressed : s.cursorCompressed = front.length)
    (hroom : s.cursor + block.bytes.length ≤ size) :
    s.step (front ++ (block.header ++ rest)) size =
      Reader.payload (front ++ (block.header ++ rest))
        { s with cursorCompressed := (front ++ block.header).length } (some block.type)
        block.bytes.length := by
  have hread : readBlockLen (front ++ (block.header ++ rest))
      ((front ++ (block.header ++ rest)).length + 1) ((front.length : ℤ) + 1) 0 0 =
      .ok (((front ++ block.header).length : ℤ), BitVec.ofNat 32 block.bytes.length) := by
    have hnext : (front.length : ℤ) + 1 = ((front ++ [block.type]).length : ℕ) := by simp
    rw [Block.header_append, hnext, readBlockLen_lengthBytes hfits.2 (by simp; omega)]
    simp [Block.header]
    omega
  have hinside : ¬(front.length : ℤ) ≥ (front ++ (block.header ++ rest)).length := by
    simp [Block.header]
    omega
  rw [Reader.step, hcompressed, if_neg hinside, hread, get_natCast, Block.getElem?_header]
  simp only [bind, Except.bind, toInt_ofNat_length hfits.2]
  rw [if_neg (by omega)]

theorem Reader.Holds.step {s : Reader} (h : s.Holds size front out) (hfits : block.Fits)
    (hroom : (out ++ block.bytes).length ≤ size) :
    ∃ s', s.step (front ++ (block.encode ++ rest)) size = .ok s' ∧
      s'.Holds size (front ++ block.encode) (out ++ block.bytes) := by
  obtain ⟨hcursor, hcompressed, hcrc, hlength, hcontent⟩ := h
  rw [length_append] at hroom
  have hfit : s.cursor + block.bytes.length ≤ size := by omega
  rw [Block.encode_eq, append_assoc, Reader.step_header hfits hcompressed hfit,
    ← append_assoc front block.header block.payload,
    ← append_assoc front block.header (block.payload ++ rest)]
  generalize front ++ block.header = front'
  unfold Reader.payload
  simp only [hcursor, hcrc]
  cases block with
  | copy bytes =>
    simp only [Block.type, Block.bytes, Block.payload, ↓reduceIte] at hroom ⊢
    have hcut : ¬(front'.length : ℤ) + bytes.length > (front' ++ (bytes ++ rest)).length := by
      simp
    have hset : setView s.data out.length (out.length + bytes.length) bytes = _ :=
      setView_natCast (by omega)
    simp only [hcut, ↓reduceIte, subarray_append, hset]
    refine ⟨_, rfl, ?_⟩
    constructor
    · simp
    · simp
    · rw [Int.toNat_natCast, foldl_range_get, foldl_append]
    · rw [length_overwrite (by omega), hlength]
    · exact take_overwrite_append hcontent (by omega)
  | run value count =>
    have htype : some blockTypeRepeat ≠ some blockTypeCopy := by decide
    have hinside : ¬(front'.length : ℤ) ≥ (front' ++ ([value] ++ rest)).length := by simp
    have hvalue : get (front' ++ ([value] ++ rest)) front'.length = some value := by simp
    simp only [Block.type, Block.bytes, Block.payload, length_replicate, htype, hinside,
      hvalue, Option.getD_some, ↓reduceIte] at hroom ⊢
    have hreplicate : (replicate count value).length = count := length_replicate
    refine ⟨_, rfl, ?_⟩
    constructor
    · simp
    · simp
    · simp
    · rw [fillView_natCast (by omega), length_overwrite (by omega), hlength]
    · rw [fillView_natCast (by omega)]
      exact take_overwrite_append hcontent (by omega)

theorem Reader.Holds.run {s : Reader} {fuel : ℕ} (h : s.Holds size front out)
    (hfits : ∀ block ∈ blocks, block.Fits)
    (hbytes : (out ++ blocks.flatMap Block.bytes).length = size) (hfuel : blocks.length < fuel) :
    ∃ s', s.run (front ++ blocks.flatMap Block.encode) size fuel = .ok s' ∧
      s'.Holds size (front ++ blocks.flatMap Block.encode) (out ++ blocks.flatMap Block.bytes) := by
  induction blocks generalizing s front out fuel with
  | nil =>
    obtain ⟨fuel, rfl⟩ : ∃ k, fuel = k + 1 := ⟨fuel - 1, by omega⟩
    simp only [flatMap_nil, append_nil] at hbytes ⊢
    refine ⟨s, ?_, h⟩
    rw [Reader.run, if_neg (by rw [h.cursor, hbytes]; exact lt_irrefl _)]
  | cons block blocks ih =>
    obtain ⟨fuel, rfl⟩ : ∃ k, fuel = k + 1 := ⟨fuel - 1, by omega⟩
    simp only [flatMap_cons, length_append] at hbytes
    have hblock := hfits block mem_cons_self
    have hmore : s.cursor < size := by
      rw [h.cursor]
      have hpos := hblock.1
      omega
    have hroom : (out ++ block.bytes).length ≤ size := by grind
    obtain ⟨s', hstep, hholds⟩ := h.step hblock hroom
    have hrest : (out ++ block.bytes ++ blocks.flatMap Block.bytes).length = size := by grind
    obtain ⟨s'', hrun, hholds'⟩ := ih hholds (fun b hb => hfits b (mem_cons_of_mem _ hb))
      hrest (Nat.lt_of_succ_lt_succ hfuel)
    rw [append_assoc, append_assoc] at hholds'
    refine ⟨s'', ?_, ?_⟩
    · rw [Reader.run, if_pos hmore, flatMap_cons, hstep]
      rwa [append_assoc] at hrun
    · exact hholds'

section
variable {data source : List Byte}

def Codes (source data : List Byte) : Prop :=
  ∃ blocks : List Block, (∀ block ∈ blocks, block.Fits) ∧ blocks.flatMap Block.bytes = data ∧
    source = word (BitVec.ofNat 32 data.length) ++ blocks.flatMap Block.encode

theorem Codes.rleDecode (h : Codes source data) (hw : 32 ≤ w) (hsize : data.length ≤ maxBlockSize) :
    rleDecode w source = .ok data := by
  obtain ⟨blocks, hfits, hdata, rfl⟩ := h
  have hword : 2 ^ 32 ≤ 2 ^ w := Nat.pow_le_pow_right (by omega) hw
  have hlt : data.length < 2 ^ 31 := by grind [maxBlockSize]
  have hlength : ((BitVec.ofNat 32 data.length).signExtend w).toNat = data.length := by
    rw [signExtend_ofNat hlt, BitVec.toNat_ofNat, Nat.mod_eq_of_lt (by omega)]
  have hstart : Decoder.Holds ⟨0, 4, replicate data.length 0⟩ data.length
      (word (BitVec.ofNat 32 data.length)) [] :=
    ⟨rfl, rfl, length_replicate, rfl⟩
  have hfuel : blocks.length <
      (word (BitVec.ofNat 32 data.length) ++ blocks.flatMap Block.encode).length + 1 := by
    have hblocks := length_le_length_flatMap_encode blocks
    rw [length_append]
    omega
  obtain ⟨s, hrun, hout⟩ := hstart.run hw hsize hfits (by rw [nil_append, hdata]) hfuel
  rw [nil_append, hdata] at hout
  rw [Session.rleDecode, if_neg (by simp), wordAt_word_append, hlength, if_neg (by omega), hrun, ← hout]
  rfl

theorem Codes.decompress {fuel : ℕ} (h : Codes source data) (hsize : data.length ≤ maxBlockSize)
    (hfuel : source.length ≤ fuel) :
    decompress fuel source = .ok ⟨data, crc32 data⟩ := by
  obtain ⟨blocks, hfits, hdata, rfl⟩ := h
  have hlength : (BitVec.ofNat 32 data.length).toInt = data.length := by
    apply toInt_ofNat_length
    unfold maxBlockSize at hsize
    omega
  have hstart : Reader.Holds ⟨0, 4, crc32Start, replicate data.length 0⟩ data.length
      (word (BitVec.ofNat 32 data.length)) [] :=
    ⟨rfl, rfl, rfl, length_replicate, rfl⟩
  have hblocks := length_le_length_flatMap_encode blocks
  rw [length_append, length_word] at hfuel
  obtain ⟨s, hrun, hholds⟩ := hstart.run hfits (by rw [nil_append, hdata])
    (show blocks.length < fuel by omega)
  rw [nil_append, hdata] at hholds
  have hout : s.data = data := by
    rw [← hholds.content, take_of_length_le (by rw [hholds.length])]
  rw [Session.decompress, if_neg (by simp), wordAt_word_append, hlength, if_neg (by omega),
    Int.toNat_natCast, hrun]
  simp only [bind, Except.bind, hholds.cursor, hholds.crc, crc32Finish_foldl, hout, ne_eq,
    not_true_eq_false, ↓reduceIte]
  rfl

theorem compress_codes (hsize : data.length ≤ maxBlockSize) :
    ∃ result, compress data = .ok result ∧ result.crc = crc32 data ∧ Codes result.data data ∧
      result.data.length ≤ data.length + maxOverhead := by
  obtain ⟨s, hscan, hencodes, hcrc⟩ := scan_encodes hsize
  obtain ⟨blocks, hfits, hdata, hcontent⟩ := hencodes.content
  rw [take_of_length_le le_rfl] at hdata
  refine ⟨⟨s.sink.content, crc32Finish s.crc⟩, ?_, hcrc, ⟨blocks, hfits, hdata, hcontent⟩, ?_⟩
  · rw [compress, hscan]
    rfl
  · rw [← hencodes.length]
    exact length_take_le' _ _

/-- `compress` writes every byte inside of its buffer, and both decoders return the data
that it has read. -/
theorem rle_round_trip (w : ℕ) (hw : 32 ≤ w) (data : List Byte)
    (hsize : data.length ≤ 128 * 1024 * 1024) :
    ∃ s result, scan data = .ok s ∧ s.sink.compressedData.length = data.length + 9 ∧
      s.sink.compressedCursor ≤ data.length + 9 ∧
      compress data = .ok result ∧ result.crc = crc32 data ∧
      rleDecode w result.data = .ok data ∧
      ∀ fuel, result.data.length ≤ fuel →
        decompress fuel result.data = .ok ⟨data, crc32 data⟩ := by
  obtain ⟨s, hscan, hencodes, -⟩ := scan_encodes hsize
  obtain ⟨result, hresult, hcrc, hcodes, -⟩ := compress_codes hsize
  refine ⟨s, result, hscan, hencodes.length, ?_, hresult, hcrc, hcodes.rleDecode hw hsize, ?_⟩
  · have hinside := hencodes.inside
    rwa [hencodes.length] at hinside
  · intro fuel hfuel
    exact hcodes.decompress hsize hfuel

theorem rle_round_trip_run :
    32 ≤ 64 ∧ (List.replicate 20 (7 : Byte)).length ≤ 128 * 1024 * 1024 ∧
      ∃ s result, scan (List.replicate 20 7) = .ok s ∧
        s.sink.compressedData.length = (List.replicate 20 (7 : Byte)).length + 9 ∧
        s.sink.compressedCursor ≤ (List.replicate 20 (7 : Byte)).length + 9 ∧
        compress (List.replicate 20 7) = .ok result ∧
        result.crc = crc32 (List.replicate 20 7) ∧
        rleDecode 64 result.data = .ok (List.replicate 20 7) ∧
        ∀ fuel, result.data.length ≤ fuel →
          decompress fuel result.data = .ok ⟨List.replicate 20 7, crc32 (List.replicate 20 7)⟩ :=
  ⟨by decide, by decide, rle_round_trip 64 (by decide) (List.replicate 20 7) (by decide)⟩

end

end Cloudpilot.Uarm.Session
