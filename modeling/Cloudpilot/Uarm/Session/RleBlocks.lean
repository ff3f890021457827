import Cloudpilot.Library.Varint
import Cloudpilot.Uarm.Session.Rle

/-! # The blocks that the decoder of the emulator reads

A block is its type, the groups of its length and its payload. `rle_decode` keeps 32 bits of
a length and extends their sign, so that a length can also move its cursor backwards. What one
round does is said here for every source.
-/

namespace Cloudpilot.Uarm.Session

open Library.LittleEndian Library.TypedArray Library.Varint List Nat

/-- A block as it stands in the source. -/
structure RawBlock where
  type : Byte
  groups : List Byte
  payload : List Byte

namespace RawBlock

def bytes (b : RawBlock) : List Byte := b.type :: (b.groups ++ b.payload)

/-- The length that the groups spell, and the 32 bits that are left of it. -/
def length (b : RawBlock) : ℕ := value b.groups

def length32 (b : RawBlock) : ℕ := b.length % 2 ^ 32

def output (b : RawBlock) (length : ℕ) : List Byte :=
  if b.type = blockTypeCopy then b.payload
  else if b.type = blockTypeRepeat then b.payload.flatMap (List.replicate length)
  else []

end RawBlock

def IsHeader (groups : List Byte) : Prop := Terminated groups ∧ groups.length ≤ 5

def HasPayload (b : RawBlock) (length : ℕ) : Prop :=
  if b.type = blockTypeCopy then b.payload.length = length
  else if b.type = blockTypeRepeat then b.payload.length = 1
  else b.payload = []

theorem blockTypeRepeat_ne : blockTypeRepeat ≠ blockTypeCopy := by decide

namespace HasPayload

variable {b : RawBlock} {length : ℕ}

section

variable (h : HasPayload b length)

include h

theorem copy (htype : b.type = blockTypeCopy) : b.payload.length = length := by
  rwa [HasPayload, if_pos htype] at h

theorem repeats (htype : b.type = blockTypeRepeat) : ∃ value, b.payload = [value] := by
  rw [HasPayload, if_neg (htype ▸ blockTypeRepeat_ne), if_pos htype] at h
  exact length_eq_one_iff.mp h

theorem other (hcopy : b.type ≠ blockTypeCopy) (hrepeat : b.type ≠ blockTypeRepeat) :
    b.payload = [] := by
  rwa [HasPayload, if_neg hcopy, if_neg hrepeat] at h

theorem length_output (htype : b.type = blockTypeCopy ∨ b.type = blockTypeRepeat) :
    (b.output length).length = length := by
  rcases htype with hcopy | hrepeat
  · rw [RawBlock.output, if_pos hcopy, h.copy hcopy]
  · obtain ⟨value, hvalue⟩ := h.repeats hrepeat
    rw [RawBlock.output, if_neg (hrepeat ▸ blockTypeRepeat_ne), if_pos hrepeat, hvalue]
    simp

theorem length_output_le : (b.output length).length ≤ length := by
  by_cases htype : b.type = blockTypeCopy ∨ b.type = blockTypeRepeat
  · exact (h.length_output htype).le
  · rw [not_or] at htype
    rw [RawBlock.output, if_neg htype.1, if_neg htype.2]
    exact zero_le length

end

end HasPayload

/-- A COPY or a REPEAT block of the format. -/
structure RawBlock.IsBlock (b : RawBlock) : Prop where
  type : b.type = blockTypeCopy ∨ b.type = blockTypeRepeat
  header : IsHeader b.groups
  payload : HasPayload b b.length

/-- A block that a round of the loop takes. -/
structure RawBlock.Taken (b : RawBlock) : Prop where
  header : IsHeader b.groups
  payload : HasPayload b b.length32

variable {w size shift fuel position : ℕ} {type : Byte} {source groups rest tail : List Byte}

theorem getElem?_of_drop {v : Byte} (rest : List Byte) (h : source.drop position = v :: rest) :
    source[position]? = some v := by
  have hget : (source.drop position)[0]? = source[position + 0]? := getElem?_drop
  simpa [h] using hget.symm

theorem drop_of_getElem? {v : Byte} (h : source[position]? = some v) :
    source.drop position = v :: source.drop (position + 1) := by
  obtain ⟨hlt, rfl⟩ := List.getElem?_eq_some_iff.mp h
  exact List.drop_eq_getElem_cons hlt

theorem drop_of_drop (front : List Byte) (h : source.drop position = front ++ rest) :
    source.drop (position + front.length) = rest := by
  rw [← drop_drop, h]
  simp

theorem drop_succ_of_drop {v : Byte} (h : source.drop position = v :: rest) :
    source.drop (position + 1) = rest := by
  rw [← drop_drop, h]
  rfl

theorem length_of_drop (h : source.drop position = rest) (hrest : rest ≠ []) :
    source.length = position + rest.length := by
  have hlength := congrArg List.length h
  have hpos := length_pos_iff.mpr hrest
  rw [length_drop] at hlength
  omega

/-- What `rle_decode` makes of a length. -/
def lengthBits (w length : ℕ) : BitVec w := (BitVec.ofNat 32 length).signExtend w

theorem toNat_lengthBits_of_lt {length : ℕ} (hw : 32 ≤ w) (h : length % 2 ^ 32 < 2 ^ 31) :
    (lengthBits w length).toNat = length % 2 ^ 32 := by
  have hmsb : (BitVec.ofNat 32 length).msb = false := by
    rw [BitVec.msb_eq_false_iff_two_mul_lt, BitVec.toNat_ofNat]
    omega
  have hle : 2 ^ 32 ≤ 2 ^ w := Nat.pow_le_pow_right (by omega) hw
  rw [lengthBits, BitVec.signExtend_eq_setWidth_of_msb_false hmsb, BitVec.toNat_setWidth,
    BitVec.toNat_ofNat]
  apply Nat.mod_eq_of_lt
  omega

theorem toNat_lengthBits_of_le {length : ℕ} (hw : 32 ≤ w) (h : 2 ^ 31 ≤ length % 2 ^ 32) :
    (lengthBits w length).toNat + 2 ^ 32 = 2 ^ w + length % 2 ^ 32 := by
  have hmsb : (BitVec.ofNat 32 length).msb = true := by
    rw [BitVec.msb_eq_true_iff_two_mul_ge, BitVec.toNat_ofNat]
    omega
  have hle : 2 ^ 32 ≤ 2 ^ w := Nat.pow_le_pow_right (by omega) hw
  rw [lengthBits, BitVec.toNat_signExtend, hmsb, if_pos rfl, BitVec.toNat_setWidth,
    BitVec.toNat_ofNat, Nat.mod_eq_of_lt (show length % 2 ^ 32 < 2 ^ w by omega)]
  omega

theorem decodeBlockLen_of_header {acc : BitVec 32} (h : Terminated groups)
    (hdrop : source.drop position = groups ++ rest) (hshift : shift + 7 * groups.length ≤ 35)
    (hfuel : groups.length ≤ fuel) :
    decodeBlockLen w source fuel position (acc.signExtend w) shift =
      .ok (position + groups.length,
        (acc ||| BitVec.ofNat 32 (value groups * 2 ^ shift)).signExtend w) := by
  induction h generalizing position acc shift fuel with
  | last hlast =>
    obtain ⟨fuel, rfl⟩ : ∃ k, fuel = k + 1 := exists_eq_succ_of_ne_zero (by
      simp at hfuel
      omega)
    simp only [length_singleton] at hshift
    rw [decodeBlockLen, getElem?_of_drop _ hdrop]
    simp only [show ¬ shift > 28 by omega, if_false, hlast, if_true]
    rw [← BitVec.signExtend_or, shiftLeft_group, value, value, mul_zero, add_zero]
    rfl
  | more hmore hrest ih =>
    obtain ⟨fuel, rfl⟩ : ∃ k, fuel = k + 1 := exists_eq_succ_of_ne_zero (by
      simp at hfuel
      omega)
    rw [length_cons] at hshift hfuel
    have hnext := drop_succ_of_drop hdrop
    rw [decodeBlockLen, getElem?_of_drop _ hdrop]
    simp only [show ¬ shift > 28 by omega, if_false, hmore]
    rw [← BitVec.signExtend_or, ih hnext (by omega) (by omega), BitVec.or_assoc, or_value]
    congr 2
    rw [length_cons]
    omega

theorem decodeBlockLen_cases (source : List Byte) (position : ℕ) (acc : BitVec w) (hshift : shift + 7 * (fuel + 1) = 42) :
    (∃ message, decodeBlockLen w source (fuel + 1) position acc shift = .error (.error message)) ∨
      ∃ groups rest, source.drop position = groups ++ rest ∧ Terminated groups ∧
        shift + 7 * groups.length ≤ 35 := by
  induction fuel generalizing position acc shift with
  | zero =>
    left
    rw [decodeBlockLen]
    cases source[position]? with
    | none => exact ⟨_, rfl⟩
    | some byte => exact ⟨_, if_pos (by omega)⟩
  | succ fuel ih =>
    rw [decodeBlockLen]
    cases hbyte : source[position]? with
    | none => exact .inl ⟨_, rfl⟩
    | some byte =>
      have hdrop := drop_of_getElem? hbyte
      simp only [show ¬ shift > 28 by omega, if_false]
      by_cases hlast : byte &&& 0x80#8 = 0
      · right
        use [byte], source.drop (position + 1)
        exact ⟨hdrop, .last hlast, by simp; omega⟩
      · rw [if_neg hlast]
        rcases ih _ _ (show shift + 7 + 7 * (fuel + 1) = 42 by omega) with herror | ⟨groups, rest, hrest, hterminated, hlength⟩
        · exact .inl herror
        · right
          use byte :: groups, rest
          refine ⟨?_, .more hlast hterminated, by simp; omega⟩
          rw [hdrop, hrest]
          rfl

/-- A length that moves the cursor backwards: the sums of `rle_decode` start over, and its
checks let them pass. -/
structure Wraps (cursor position : ℕ) (type : Byte) (groups rest : List Byte) : Prop where
  header : IsHeader groups
  cursor : 2 ^ 32 ≤ cursor + value groups % 2 ^ 32
  copy : type = blockTypeCopy → 2 ^ 32 ≤ position + 1 + groups.length + value groups % 2 ^ 32
  repeats : type = blockTypeRepeat → rest ≠ []

/-- A block with such a length stands in front. -/
def WrapsAt (cursor position : ℕ) (tail : List Byte) : Prop :=
  ∃ type groups rest, tail = type :: (groups ++ rest) ∧ Wraps cursor position type groups rest

namespace Decoder

variable {s s' : Decoder} {b : RawBlock}

/-- A decoder whose loop goes on. The source leaves room for a destination in the address
space. -/
structure Running (w : ℕ) (source : List Byte) (size : ℕ) (s : Decoder) : Prop where
  width : 32 ≤ w
  room : source.length + maxBlockSize < 2 ^ w
  size_le : size ≤ maxBlockSize
  length : s.decompressed.length = size
  cursor : s.cursor < size

def next (s : Decoder) (b : RawBlock) : Decoder where
  cursor := s.cursor + b.length32
  cursorCompressed := s.cursorCompressed + b.bytes.length
  decompressed := overwrite s.decompressed s.cursor (b.output b.length32)

theorem length_next (hb : b.Taken) (hfits : s.cursor + b.length32 ≤ s.decompressed.length) :
    (s.next b).decompressed.length = s.decompressed.length := by
  apply length_overwrite
  have houtput := hb.payload.length_output_le
  omega

theorem step_of_header (hdrop : source.drop s.cursorCompressed = type :: (groups ++ rest))
    (hheader : IsHeader groups) :
    s.step w source size =
      if (s.cursor + (lengthBits w (value groups)).toNat) % 2 ^ w > size then
        .error (.error "block too long")
      else
        payload w source { s with cursorCompressed := s.cursorCompressed + 1 + groups.length } type
          (lengthBits w (value groups)).toNat := by
  have hdecode : decodeBlockLen w source 6 (s.cursorCompressed + 1) ((0#32).signExtend w) 0 = _ :=
    decodeBlockLen_of_header hheader.1 (drop_succ_of_drop hdrop) (by have := hheader.2; omega)
      (by have := hheader.2; omega)
  rw [pow_zero, mul_one, BitVec.zero_or] at hdecode
  have hzero : (0#32).signExtend w = 0 := by rfl
  rw [hzero] at hdecode
  rw [step, getElem?_of_drop _ hdrop]
  simp only [hdecode]
  rfl

section

variable (hs : s.Running w source size)

include hs

theorem step_taken (hb : b.Taken) (hdrop : source.drop s.cursorCompressed = b.bytes ++ tail)
    (hfits : s.cursor + b.length32 ≤ size) : s.step w source size = .ok (s.next b) := by
  have hlength := length_of_drop hdrop (by simp [RawBlock.bytes])
  have hsize := hs.size_le
  have hroom := hs.room
  rw [length_append] at hlength
  have hbytes : b.bytes.length = 1 + b.groups.length + b.payload.length := by
    simp [RawBlock.bytes]
    omega
  have hpayload : source.drop (s.cursorCompressed + 1 + b.groups.length) = b.payload ++ tail := by
    rw [add_assoc, add_comm 1]
    apply drop_of_drop (b.type :: b.groups)
    simpa [RawBlock.bytes] using hdrop
  have hbits : (lengthBits w (value b.groups)).toNat = b.length32 := by
    apply toNat_lengthBits_of_lt hs.width
    change b.length32 < 2 ^ 31
    unfold maxBlockSize at hsize
    omega
  have hdrop' : source.drop s.cursorCompressed = b.type :: (b.groups ++ (b.payload ++ tail)) := by
    grind [RawBlock.bytes]
  rw [step_of_header hdrop' hb.header, hbits, mod_eq_of_lt (by omega), if_neg (by omega),
    payload, next, hbytes, RawBlock.output]
  by_cases hcopy : b.type = blockTypeCopy
  · have hcount := hb.payload.copy hcopy
    simp only [hcopy, if_true, hs.length, hpayload]
    rw [mod_eq_of_lt (by omega), mod_eq_of_lt (by omega), if_neg (by omega),
      if_neg (by omega), ← hcount, take_left]
    simp only [add_assoc]
  · by_cases hrepeat : b.type = blockTypeRepeat
    · obtain ⟨value, hvalue⟩ := hb.payload.repeats hrepeat
      have hget : source[s.cursorCompressed + 1 + b.groups.length]? = some value :=
        getElem?_of_drop tail (by simpa [hvalue] using hpayload)
      simp only [hrepeat, blockTypeRepeat_ne, if_true, if_false, hs.length, hget, hvalue]
      rw [mod_eq_of_lt (by omega), if_neg (by omega)]
      simp [add_assoc]
    · have hnil := hb.payload.other hcopy hrepeat
      simp only [hcopy, hrepeat, if_false, hnil, overwrite_nil]
      rw [mod_eq_of_lt (by omega)]
      simp [add_assoc]

/-- A length of 32 bits with its sign set passes the check in front of the destination only
where the sum starts over. -/
theorem step_cases_negative (hdrop : source.drop s.cursorCompressed = type :: (groups ++ rest))
    (hheader : IsHeader groups) (hsign : 2 ^ 31 ≤ value groups % 2 ^ 32) :
    (∃ message, s.step w source size = .error (.error message)) ∨
      Wraps s.cursor s.cursorCompressed type groups rest := by
  have hwidth : 2 ^ 32 ≤ 2 ^ w := Nat.pow_le_pow_right (by omega) hs.width
  have hlength := length_of_drop hdrop (by simp)
  have hsize := hs.size_le
  have hroom := hs.room
  have hcursor := hs.cursor
  unfold maxBlockSize at hsize hroom
  simp only [length_cons, length_append] at hlength
  have hbits := toNat_lengthBits_of_le hs.width hsign
  rw [step_of_header hdrop hheader]
  by_cases hover : 2 ^ 32 ≤ s.cursor + value groups % 2 ^ 32
  · have hmod : (s.cursor + (lengthBits w (value groups)).toNat) % 2 ^ w ≤ size := by
      rw [Nat.mod_eq_sub_mod (by omega), Nat.mod_eq_of_lt (by omega)]
      omega
    rw [if_neg (by omega), payload]
    by_cases hcopy : type = blockTypeCopy
    · by_cases hsource : 2 ^ 32 ≤ s.cursorCompressed + 1 + groups.length + value groups % 2 ^ 32
      · right
        exact ⟨hheader, hover, fun _ => hsource, by rw [hcopy]; simp [blockTypeRepeat_ne.symm]⟩
      · left
        simp only [hcopy, if_true]
        rw [Nat.mod_eq_of_lt (by omega), if_pos (by omega)]
        exact ⟨_, rfl⟩
    · by_cases hrest : type = blockTypeRepeat ∧ rest = []
      · left
        have hnone : source[s.cursorCompressed + 1 + groups.length]? = none := by
          rw [getElem?_eq_none_iff, hlength, hrest.2, length_nil]
          omega
        simp only [hrest.1, blockTypeRepeat_ne, if_true, if_false, hnone]
        exact ⟨_, rfl⟩
      · right
        exact ⟨hheader, hover, fun h => absurd h hcopy, fun h hnil => hrest ⟨h, hnil⟩⟩
  · left
    rw [Nat.mod_eq_of_lt (by omega), if_pos (by omega)]
    exact ⟨_, rfl⟩

theorem step_cases_positive (hdrop : source.drop s.cursorCompressed = type :: (groups ++ rest))
    (hheader : IsHeader groups) (hsign : value groups % 2 ^ 32 < 2 ^ 31) :
    (∃ message, s.step w source size = .error (.error message)) ∨
      ∃ payload tail, rest = payload ++ tail ∧ (RawBlock.mk type groups payload).Taken ∧
        s.cursor + value groups % 2 ^ 32 ≤ size := by
  have hwidth : 2 ^ 32 ≤ 2 ^ w := Nat.pow_le_pow_right (by omega) hs.width
  have hlength := length_of_drop hdrop (by simp)
  have hsize := hs.size_le
  have hroom := hs.room
  have hcursor := hs.cursor
  unfold maxBlockSize at hsize hroom
  simp only [length_cons, length_append] at hlength
  rw [step_of_header hdrop hheader, toNat_lengthBits_of_lt hs.width hsign,
    Nat.mod_eq_of_lt (by omega)]
  by_cases hfits : s.cursor + value groups % 2 ^ 32 ≤ size
  · rw [if_neg (by omega), payload]
    by_cases hcopy : type = blockTypeCopy
    · by_cases hrest : value groups % 2 ^ 32 ≤ rest.length
      · right
        use rest.take (value groups % 2 ^ 32), rest.drop (value groups % 2 ^ 32)
        refine ⟨(take_append_drop _ _).symm, ⟨hheader, ?_⟩, hfits⟩
        rw [HasPayload, if_pos hcopy]
        exact length_take_of_le hrest
      · left
        simp only [hcopy, if_true]
        rw [Nat.mod_eq_of_lt (by omega), if_pos (by omega)]
        exact ⟨_, rfl⟩
    · by_cases hrepeat : type = blockTypeRepeat
      · cases rest with
        | nil =>
          left
          have hnone : source[s.cursorCompressed + 1 + groups.length]? = none := by
            rw [getElem?_eq_none_iff, hlength, length_nil]
            omega
          simp only [hrepeat, blockTypeRepeat_ne, if_true, if_false, hnone]
          exact ⟨_, rfl⟩
        | cons value rest =>
          right
          refine ⟨[value], rest, rfl, ⟨hheader, ?_⟩, hfits⟩
          rw [HasPayload, if_neg hcopy, if_pos hrepeat]
          rfl
      · right
        refine ⟨[], rest, rfl, ⟨hheader, ?_⟩, hfits⟩
        rw [HasPayload, if_neg hcopy, if_neg hrepeat]
  · left
    rw [if_pos (by omega)]
    exact ⟨_, rfl⟩

theorem step_cases (hdrop : source.drop s.cursorCompressed = tail) :
    (∃ message, s.step w source size = .error (.error message)) ∨
      (∃ (b : RawBlock) (rest : List Byte), tail = b.bytes ++ rest ∧ b.Taken ∧
        s.cursor + b.length32 ≤ size) ∨
      WrapsAt s.cursor s.cursorCompressed tail := by
  cases tail with
  | nil =>
    have hnone : source[s.cursorCompressed]? = none := by grind [drop_eq_nil_iff]
    exact .inl ⟨_, by rw [step, hnone]⟩
  | cons type tail =>
    have hlength : 0 + 7 * (5 + 1) = 42 := rfl
    rcases decodeBlockLen_cases source (s.cursorCompressed + 1) (0 : BitVec w) hlength
      with ⟨message, herror⟩ | hheader
    · left
      use message
      rw [step, getElem?_of_drop _ hdrop]
      simp only [herror]
      rfl
    · obtain ⟨groups, rest, htail, hterminated, hgroups⟩ := hheader
      obtain rfl : tail = groups ++ rest := (drop_succ_of_drop hdrop).symm.trans htail
      have hheader : IsHeader groups := ⟨hterminated, by omega⟩
      by_cases hsign : value groups % 2 ^ 32 < 2 ^ 31
      · rcases step_cases_positive hs hdrop hheader hsign with herror | htaken
        · exact .inl herror
        · obtain ⟨payload, tail, rfl, hb, hfits⟩ := htaken
          refine .inr (.inl ⟨⟨type, groups, payload⟩, tail, ?_, hb, hfits⟩)
          simp [RawBlock.bytes]
      · rcases step_cases_negative hs hdrop hheader (by omega) with herror | hwraps
        · exact .inl herror
        · exact .inr (.inr ⟨type, groups, rest, rfl, hwraps⟩)

theorem step_wraps (hwraps : WrapsAt s.cursor s.cursorCompressed (source.drop s.cursorCompressed)) :
    s.step w source size = .error .overrun ∨
      ∃ s', s.step w source size = .ok s' ∧ s'.cursor < s.cursor := by
  obtain ⟨type, groups, rest, hdrop, hwraps⟩ := hwraps
  have hlength := length_of_drop hdrop (by simp)
  have hsize := hs.size_le
  have hroom := hs.room
  have hcursor := hs.cursor
  have hover := hwraps.cursor
  unfold maxBlockSize at hsize hroom
  simp only [length_cons, length_append] at hlength
  have hbits := toNat_lengthBits_of_le hs.width
    (show 2 ^ 31 ≤ value groups % 2 ^ 32 by omega)
  have hmod : (s.cursor + (lengthBits w (value groups)).toNat) % 2 ^ w =
      s.cursor + value groups % 2 ^ 32 - 2 ^ 32 := by
    rw [mod_eq_sub_mod (by omega), mod_eq_of_lt (by omega)]
    omega
  rw [step_of_header hdrop hwraps.header, hmod, if_neg (by omega), payload]
  by_cases hcopy : type = blockTypeCopy
  · have hsource := hwraps.copy hcopy
    left
    simp only [hcopy, if_true, hs.length]
    rw [mod_eq_sub_mod (by omega), mod_eq_of_lt (by omega), if_neg (by omega),
      if_pos (by omega)]
  · by_cases hrepeat : type = blockTypeRepeat
    · left
      obtain ⟨value, rest, rfl⟩ := exists_cons_of_ne_nil (hwraps.repeats hrepeat)
      have hget : source[s.cursorCompressed + 1 + groups.length]? = some value := by
        apply getElem?_of_drop rest
        rw [add_assoc, add_comm 1]
        exact drop_of_drop (type :: groups) hdrop
      simp only [hrepeat, blockTypeRepeat_ne, if_true, if_false, hs.length, hget]
      rw [if_pos (by omega)]
    · right
      simp only [hcopy, hrepeat, if_false]
      refine ⟨_, rfl, ?_⟩
      simp only [hmod]
      omega

end

end Decoder

end Cloudpilot.Uarm.Session
