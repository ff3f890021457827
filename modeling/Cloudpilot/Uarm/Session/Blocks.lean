import Cloudpilot.Uarm.Session.Rle

/-! # Blocks and their code

The code of a block, and what the functions of `compress` append to the output buffer.
-/

namespace Cloudpilot.Uarm.Session

open Library.LittleEndian Library.TypedArray Common.Crc List

inductive Block
  | copy (bytes : List Byte)
  | run (value : Byte) (count : ℕ)

def lengthGroups : ℕ → ℕ → List Byte
  | 0, _ => []
  | fuel + 1, length =>
    Sink.lengthGroup length ::
      if length % 2 ^ 32 / 128 = 0 then [] else lengthGroups fuel (length % 2 ^ 32 / 128)

def lengthBytes (length : ℕ) : List Byte := lengthGroups 5 length

namespace Block

def bytes : Block → List Byte
  | copy bytes => bytes
  | run value count => List.replicate count value

def encode : Block → List Byte
  | copy bytes => blockTypeCopy :: (lengthBytes bytes.length ++ bytes)
  | run value count => blockTypeRepeat :: (lengthBytes count ++ [value])

/-- A block that the decoders can read: it is not empty, and its length has four groups. -/
def Fits (block : Block) : Prop := 0 < block.bytes.length ∧ block.bytes.length < 2 ^ 28

end Block

theorem length_lengthGroups_le {fuel length : ℕ} {groups : ℕ} (h : length < 128 ^ (groups + 1)) :
    (lengthGroups fuel length).length ≤ groups + 1 := by
  induction fuel generalizing length groups with
  | zero => simp [lengthGroups]
  | succ fuel ih =>
    rw [lengthGroups]
    by_cases hlast : length % 2 ^ 32 / 128 = 0
    · rw [if_pos hlast]
      exact Nat.le_add_left 1 groups
    · cases groups with
      | zero => omega
      | succ groups =>
        have hnext : length % 2 ^ 32 / 128 < 128 ^ (groups + 1) := by
          omega
        rw [if_neg hlast, length_cons]
        exact Nat.succ_le_succ (ih hnext)

theorem length_lengthBytes_le {length : ℕ} (h : length < 2 ^ 28) :
    (lengthBytes length).length ≤ 4 :=
  length_lengthGroups_le (by omega : length < 128 ^ (3 + 1))

theorem length_lengthBytes_run {count : ℕ} (hle : repeatThreshold ≤ count) (hlt : count < 2 ^ 28) :
    (lengthBytes count).length + 7 ≤ count := by
  unfold repeatThreshold at hle
  by_cases hsmall : count < 128
  · have hone : (lengthBytes count).length ≤ 0 + 1 := length_lengthGroups_le (by omega)
    omega
  · have hfour := length_lengthBytes_le hlt
    omega

namespace Sink

variable {s s' s'' : Sink} {data bytes more : List Byte}

/-- What has been written so far. -/
def content (s : Sink) : List Byte := s.compressedData.take s.compressedCursor

/-- The buffer keeps its length, and the bytes are appended to what has been written. -/
structure Appends (s : Sink) (bytes : List Byte) (s' : Sink) : Prop where
  length : s'.compressedData.length = s.compressedData.length
  cursor : s'.compressedCursor = s.compressedCursor + bytes.length
  content : s'.content = s.content ++ bytes

theorem Appends.refl (s : Sink) : s.Appends [] s := ⟨rfl, rfl, by simp⟩

theorem Appends.trans (h : s.Appends bytes s') (h' : s'.Appends more s'') :
    s.Appends (bytes ++ more) s'' where
  length := by rw [h'.length, h.length]
  cursor := by rw [h'.cursor, h.cursor, List.length_append, Nat.add_assoc]
  content := by rw [h'.content, h.content, List.append_assoc]

theorem put_appends {v : Byte} (hroom : s.compressedCursor < s.compressedData.length) :
    s.Appends [v] (s.put v) where
  length := by simp [put]
  cursor := by simp [put]
  content := take_set hroom

theorem putGroups_appends {fuel length : ℕ}
    (hroom : s.compressedCursor + (lengthGroups fuel length).length ≤ s.compressedData.length) :
    s.Appends (lengthGroups fuel length) (s.putGroups fuel length) := by
  induction fuel generalizing s length with
  | zero => exact Appends.refl s
  | succ fuel ih =>
    rw [lengthGroups] at hroom ⊢
    rw [putGroups]
    have hput : s.Appends [lengthGroup length] (s.put (lengthGroup length)) := by
      apply put_appends
      rw [length_cons] at hroom
      omega
    by_cases hlast : length % 2 ^ 32 / 128 = 0
    · rwa [if_pos hlast, if_pos hlast]
    · simp only [hlast, ↓reduceIte] at hroom ⊢
      rw [length_cons] at hroom
      apply hput.trans (ih _)
      rw [hput.cursor, hput.length, length_singleton]
      omega

theorem header_appends {type : Byte} {length : ℕ}
    (hroom : s.compressedCursor + (1 + (lengthBytes length).length) ≤ s.compressedData.length) :
    s.Appends (type :: lengthBytes length) ((s.putType type).putLength length) := by
  have htype : s.Appends [type] (s.putType type) := put_appends (by omega)
  apply htype.trans (putGroups_appends _)
  unfold lengthBytes at hroom
  rw [htype.cursor, htype.length, length_singleton]
  omega

theorem putRepeat_appends {value : Byte} {count : ℕ}
    (hroom : s.compressedCursor + (Block.run value count).encode.length ≤ s.compressedData.length) :
    s.Appends (Block.run value count).encode (s.putRepeat value count) := by
  rw [Block.encode, length_cons, length_append, length_singleton] at hroom
  have hheader : s.Appends (blockTypeRepeat :: lengthBytes count) _ :=
    header_appends (by omega)
  apply hheader.trans (put_appends _)
  rw [hheader.cursor, hheader.length, length_cons]
  omega

/-- The block that `putCopy` writes. -/
def copyBlock (data : List Byte) (cursor stop : ℕ) : Block := .copy ((data.take stop).drop cursor)

theorem putCopy_appends {cursor stop : ℕ} (hlt : cursor < stop) (hstop : stop ≤ data.length)
    (hroom : s.compressedCursor + (copyBlock data cursor stop).encode.length ≤
      s.compressedData.length) :
    ∃ s', s.putCopy data cursor stop = .ok s' ∧
      s.Appends (copyBlock data cursor stop).encode s' := by
  have hlen : ((data.take stop).drop cursor).length = stop - cursor := by
    simp
    omega
  rw [copyBlock, Block.encode, hlen, length_cons, length_append, hlen] at hroom
  have hheader : s.Appends (blockTypeCopy :: lengthBytes (stop - cursor))
      ((s.putType blockTypeCopy).putLength (stop - cursor)) :=
    header_appends (by omega)
  rw [putCopy, if_neg (by omega), subarray_natCast hstop]
  generalize (s.putType blockTypeCopy).putLength (stop - cursor) = header at hheader ⊢
  have hcursor := hheader.cursor
  have hlength := hheader.length
  rw [length_cons] at hcursor
  have hfits : header.compressedCursor + ((data.take stop).drop cursor).length ≤
      header.compressedData.length := by
    omega
  have hset := setView_natCast hfits
  rw [hlen] at hset
  simp only [hset]
  refine ⟨_, rfl, ?_⟩
  rw [copyBlock, Block.encode, hlen, ← cons_append]
  apply hheader.trans
  constructor
  · exact length_overwrite hfits
  · rw [hlen]
  · rw [content, ← hlen]
    exact take_overwrite (by omega)

end Sink

open Library.LittleEndian Library.TypedArray

variable {w length shift : ℕ} {front rest source : List Byte}

theorem lengthGroup_payload (length : ℕ) :
    Sink.lengthGroup length &&& 0x7f#8 = BitVec.ofNat 8 (length % 128) := by
  have hcases : ∀ low : Fin 128, ∀ more : Bool,
      (BitVec.ofNat 8 low.val ||| if more then 0x80#8 else 0) &&& 0x7f#8 =
        BitVec.ofNat 8 low.val := by
    decide
  have hlow := hcases ⟨length % 128, Nat.mod_lt _ (by omega)⟩ (decide (length > 0x7f))
  simpa [Sink.lengthGroup] using hlow

theorem lengthGroup_last (length : ℕ) :
    Sink.lengthGroup length &&& 0x80#8 = 0 ↔ length ≤ 0x7f := by
  have hcases : ∀ low : Fin 128, ∀ more : Bool,
      ((BitVec.ofNat 8 low.val ||| if more then 0x80#8 else 0) &&& 0x80#8 = 0) ↔ more = false := by
    decide
  have hlow := hcases ⟨length % 128, Nat.mod_lt _ (by omega)⟩ (decide (length > 0x7f))
  simpa [Sink.lengthGroup] using hlow

theorem signExtend_ofNat {v : ℕ} (h : v < 2 ^ 31) :
    (BitVec.ofNat 32 v).signExtend w = BitVec.ofNat w v := by
  have hmsb : (BitVec.ofNat 32 v).msb = false := by
    rw [BitVec.msb_eq_false_iff_two_mul_lt, BitVec.toNat_ofNat]
    omega
  rw [BitVec.signExtend_eq_setWidth_of_msb_false hmsb]
  apply BitVec.eq_of_toNat_eq
  simp [Nat.mod_eq_of_lt (show v < 4294967296 by omega)]

theorem or_group {low : ℕ} (hshift : shift ≤ 21) (hlow : low < 2 ^ shift) :
    BitVec.ofNat w low |||
        (((Sink.lengthGroup length &&& 0x7f#8).setWidth 32) <<< shift).signExtend w =
      BitVec.ofNat w (low + length % 128 * 2 ^ shift) := by
  have hpow : 2 ^ shift ≤ 2 ^ 21 := Nat.pow_le_pow_right (by omega) hshift
  have hgroup : length % 128 * 2 ^ shift < 2 ^ 31 := by
    calc length % 128 * 2 ^ shift ≤ 127 * 2 ^ 21 := Nat.mul_le_mul (by omega) hpow
      _ < 2 ^ 31 := by omega
  have hword : ((Sink.lengthGroup length &&& 0x7f#8).setWidth 32) <<< shift =
      BitVec.ofNat 32 (length % 128 * 2 ^ shift) := by
    rw [lengthGroup_payload]
    apply BitVec.eq_of_toNat_eq
    rw [BitVec.toNat_shiftLeft, BitVec.toNat_setWidth, BitVec.toNat_ofNat, BitVec.toNat_ofNat,
      Nat.shiftLeft_eq, Nat.mod_eq_of_lt (show length % 128 < 2 ^ 8 by omega),
      Nat.mod_eq_of_lt (show length % 128 < 2 ^ 32 by omega)]
  rw [hword, signExtend_ofNat hgroup, ← BitVec.ofNat_or, Nat.or_comm, ← Nat.shiftLeft_eq,
    ← Nat.shiftLeft_add_eq_or_of_lt hlow, Nat.add_comm]

theorem add_groups (low length shift : ℕ) :
    low + length % 128 * 2 ^ shift + length / 128 * 2 ^ (shift + 7) = low + length * 2 ^ shift := by
  have hsplit := Nat.mod_add_div length 128
  have hpow : 2 ^ (shift + 7) = 128 * 2 ^ shift := by ring
  rw [hpow]
  calc low + length % 128 * 2 ^ shift + length / 128 * (128 * 2 ^ shift)
      = low + (length % 128 + 128 * (length / 128)) * 2 ^ shift := by ring
    _ = low + length * 2 ^ shift := by rw [hsplit]

theorem decodeBlockLen_groups {groups fuel rounds low : ℕ} (hlength : length < 128 ^ (groups + 1))
    (hshift : shift + 7 * groups ≤ 21) (hlow : low < 2 ^ shift) (hfuel : groups < fuel)
    (hrounds : groups < rounds) :
    decodeBlockLen w (front ++ (lengthGroups fuel length ++ rest)) rounds front.length
        (BitVec.ofNat w low) shift =
      .ok (front.length + (lengthGroups fuel length).length,
        BitVec.ofNat w (low + length * 2 ^ shift)) := by
  induction fuel generalizing length shift groups rounds low front with
  | zero => cases hfuel
  | succ fuel ih =>
    obtain ⟨rounds, rfl⟩ : ∃ k, rounds = k + 1 := ⟨rounds - 1, by omega⟩
    have hbound : length < 2 ^ 28 := by
      apply Nat.lt_of_lt_of_le hlength
      calc 128 ^ (groups + 1) ≤ 128 ^ 4 := Nat.pow_le_pow_right (by omega) (by omega)
        _ = 2 ^ 28 := by norm_num
    have hmod : length % 2 ^ 32 = length := Nat.mod_eq_of_lt (by omega)
    rw [lengthGroups, decodeBlockLen, hmod]
    simp only [cons_append, getElem?_append_right le_rfl, Nat.sub_self,
      getElem?_cons_zero]
    rw [if_neg (by omega), or_group (by omega) hlow]
    by_cases hlast : length ≤ 0x7f
    · have hdone : length / 128 = 0 := by omega
      have hlow : length % 128 = length := by omega
      rw [if_pos ((lengthGroup_last length).mpr hlast), if_pos hdone, hlow]
      rfl
    · obtain ⟨groups, rfl⟩ : ∃ k, groups = k + 1 := by
        refine ⟨groups - 1, ?_⟩
        rcases Nat.eq_zero_or_pos groups with hzero | hpos
        · subst hzero
          omega
        · omega
      have hnext : length / 128 < 128 ^ (groups + 1) := by
        omega
      have hlow' : low + length % 128 * 2 ^ shift < 2 ^ (shift + 7) := by
        have hgroup : length % 128 * 2 ^ shift ≤ 127 * 2 ^ shift :=
          Nat.mul_le_mul_right _ (by omega)
        have hpow : 2 ^ (shift + 7) = 128 * 2 ^ shift := by ring
        omega
      have hrest : decodeBlockLen w
          (front ++ [Sink.lengthGroup length] ++ (lengthGroups fuel (length / 128) ++ rest)) rounds
          (front ++ [Sink.lengthGroup length]).length
          (BitVec.ofNat w (low + length % 128 * 2 ^ shift)) (shift + 7) = _ :=
        ih hnext (by omega) hlow' (Nat.lt_of_succ_lt_succ hfuel) (Nat.lt_of_succ_lt_succ hrounds)
      rw [if_neg (by rwa [lengthGroup_last]), if_neg (by omega)]
      simp only [append_assoc, singleton_append, length_append,
        length_singleton] at hrest
      rw [hrest, add_groups, length_cons]
      congr 2
      omega

theorem decodeBlockLen_lengthBytes (h : length < 2 ^ 28) :
    decodeBlockLen w (front ++ (lengthBytes length ++ rest)) 6 front.length 0 0 =
      .ok (front.length + (lengthBytes length).length, BitVec.ofNat w length) := by
  have hread : decodeBlockLen w (front ++ (lengthGroups 5 length ++ rest)) 6 front.length
      (BitVec.ofNat w 0) 0 = _ :=
    decodeBlockLen_groups (show length < 128 ^ (3 + 1) by omega) (by omega) (by omega) (by omega)
      (by omega)
  rwa [Nat.zero_add, pow_zero, Nat.mul_one] at hread

theorem readBlockLen_of_decodeBlockLen {fuel rounds cursor cursor' : ℕ}
    {blockLen blockLen' : BitVec 32}
    (h : decodeBlockLen 32 source fuel cursor blockLen shift = .ok (cursor', blockLen'))
    (hrounds : source.length - cursor < rounds) :
    readBlockLen source rounds cursor blockLen shift = .ok ((cursor' : ℤ), blockLen') := by
  induction fuel generalizing cursor blockLen shift rounds with
  | zero => cases h
  | succ fuel ih =>
    obtain ⟨rounds, rfl⟩ : ∃ k, rounds = k + 1 := ⟨rounds - 1, by omega⟩
    rw [decodeBlockLen] at h
    cases hbyte : source[cursor]? with
    | none => simp [hbyte] at h
    | some byte =>
      have hinside : cursor < source.length := (List.getElem?_eq_some_iff.mp hbyte).1
      simp only [hbyte] at h
      by_cases hshift : shift > 28
      · simp [hshift] at h
      · rw [if_neg hshift, BitVec.signExtend_eq] at h
        rw [readBlockLen, if_neg (by omega), get_natCast, hbyte, Option.getD_some,
          Nat.mod_eq_of_lt (by omega)]
        by_cases hlast : byte &&& 0x80#8 = 0
        · rw [if_pos hlast] at h ⊢
          cases h
          rfl
        · rw [if_neg hlast] at h ⊢
          have hnext : source.length - (cursor + 1) < rounds := by omega
          exact ih h hnext

theorem readBlockLen_lengthBytes {rounds : ℕ} (h : length < 2 ^ 28)
    (hrounds : (lengthBytes length ++ rest).length < rounds) :
    readBlockLen (front ++ (lengthBytes length ++ rest)) rounds front.length 0 0 =
      .ok (((front.length + (lengthBytes length).length : ℕ) : ℤ), BitVec.ofNat 32 length) :=
  readBlockLen_of_decodeBlockLen (decodeBlockLen_lengthBytes h) (by simpa using hrounds)

end Cloudpilot.Uarm.Session
