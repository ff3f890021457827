import Cloudpilot.Uarm.Session.RleBlocks

/-! # Which sources the decoder of the emulator reads safely

What `rle_decode` should guarantee for a source, and the four kinds of sources for which it
does not: a length can move the cursor backwards, blocks of unknown types are passed over
without a byte of output, the high bits of a length are dropped, and nothing looks at what is
left behind the last block.
-/

namespace Cloudpilot.Uarm.Session

open Library.LittleEndian Library.TypedArray Library.Varint List

variable {w size cursor last : ℕ} {source tail : List Byte} {b : RawBlock}
  {blocks : List RawBlock} {s s' : Decoder}

structure Opens (w : ℕ) (source : List Byte) (size : ℕ) : Prop where
  header : 4 ≤ source.length
  declared : ((wordAt source 0).signExtend w).toNat = size
  size_le : size ≤ maxBlockSize

namespace Decoder

def start (size : ℕ) : Decoder := ⟨0, 4, List.replicate size 0⟩

def Round (w : ℕ) (source : List Byte) (size : ℕ) (s s' : Decoder) : Prop :=
  s.cursor < size ∧ s.step w source size = .ok s'

/-- The states in which the loop comes around. -/
def Reaches (w : ℕ) (source : List Byte) (size : ℕ) : Decoder → Decoder → Prop :=
  Relation.ReflTransGen (Round w source size)

end Decoder

/-- Every access is inside of the buffers, the cursor does not move backwards, and what is
decoded comes from blocks of the format that make up the source. -/
structure DecodesSafely (w : ℕ) (source : List Byte) : Prop where
  inside : ∀ size s, Opens w source size → Decoder.Reaches w source size (.start size) s →
    s.cursor < size → s.step w source size ≠ .error .overrun
  forward : ∀ size s s', Opens w source size → Decoder.Reaches w source size (.start size) s →
    Decoder.Round w source size s s' → s.cursor ≤ s'.cursor
  complete : ∀ data, rleDecode w source = .ok data → ∃ blocks : List RawBlock,
    source.drop 4 = blocks.flatMap RawBlock.bytes ∧ (∀ b ∈ blocks, b.IsBlock) ∧
      Opens w source (blocks.map RawBlock.length).sum ∧
      data.length = (blocks.map RawBlock.length).sum ∧
      data = blocks.flatMap fun b => b.output b.length

/-- A block of a type and a length that the decoder and the format agree on. -/
structure RawBlock.Known (b : RawBlock) : Prop where
  type : b.type = blockTypeCopy ∨ b.type = blockTypeRepeat
  length_lt : b.length < 2 ^ 32

theorem RawBlock.Known.length32 (h : b.Known) : b.length32 = b.length := Nat.mod_eq_of_lt h.length_lt

/-- The blocks lead from one position of the destination to another one. -/
inductive Fills (size : ℕ) : ℕ → List RawBlock → ℕ → Prop
  | nil (cursor : ℕ) : Fills size cursor [] cursor
  | cons {cursor last : ℕ} {b : RawBlock} {blocks : List RawBlock} (hlt : cursor < size)
      (hb : b.Taken) (hfits : cursor + b.length32 ≤ size)
      (hrest : Fills size (cursor + b.length32) blocks last) : Fills size cursor (b :: blocks) last

inductive Defect (w : ℕ) (source : List Byte) : Prop
  | wraps {size cursor : ℕ} {blocks : List RawBlock} {tail : List Byte} (hopens : Opens w source size)
      (hsource : source.drop 4 = blocks.flatMap RawBlock.bytes ++ tail)
      (hfills : Fills size 0 blocks cursor) (hcursor : cursor < size)
      (hwraps : WrapsAt cursor (4 + (blocks.flatMap RawBlock.bytes).length) tail)
  | unknownType {size : ℕ} {b : RawBlock} {blocks : List RawBlock} {tail : List Byte}
      (hopens : Opens w source size)
      (hsource : source.drop 4 = blocks.flatMap RawBlock.bytes ++ tail)
      (hfills : Fills size 0 blocks size) (hb : b ∈ blocks)
      (hcopy : b.type ≠ blockTypeCopy) (hrepeat : b.type ≠ blockTypeRepeat)
  | droppedBits {size : ℕ} {b : RawBlock} {blocks : List RawBlock} {tail : List Byte}
      (hopens : Opens w source size)
      (hsource : source.drop 4 = blocks.flatMap RawBlock.bytes ++ tail)
      (hfills : Fills size 0 blocks size) (hb : b ∈ blocks) (hlength : 2 ^ 32 ≤ b.length)
  | leftOver {size : ℕ} {blocks : List RawBlock} {tail : List Byte} (hopens : Opens w source size)
      (hsource : source.drop 4 = blocks.flatMap RawBlock.bytes ++ tail)
      (hfills : Fills size 0 blocks size)
      (htail : ¬ ∃ empty : List RawBlock, tail = empty.flatMap RawBlock.bytes ∧
        ∀ b ∈ empty, b.IsBlock ∧ b.length = 0)

namespace Fills

theorem le (h : Fills size cursor blocks last) (hcursor : cursor ≤ size) : last ≤ size := by
  induction h with
  | nil => exact hcursor
  | cons hlt hb hfits hrest ih => exact ih hfits

theorem concat (h : Fills size cursor blocks last) (hlt : last < size) (hb : b.Taken)
    (hfits : last + b.length32 ≤ size) :
    Fills size cursor (blocks ++ [b]) (last + b.length32) := by
  induction h with
  | nil => exact .cons hlt hb hfits (.nil _)
  | cons hlt' hb' hfits' hrest ih => exact .cons hlt' hb' hfits' (ih hlt hfits)

theorem taken (h : Fills size cursor blocks last) : ∀ b ∈ blocks, b.Taken := by
  induction h with
  | nil => simp
  | cons hlt hb hfits hrest ih => exact forall_mem_cons.mpr ⟨hb, ih⟩

theorem sum (h : Fills size cursor blocks last) :
    cursor + (blocks.map RawBlock.length32).sum = last := by
  induction h with
  | nil => rfl
  | cons hlt hb hfits hrest ih => grind

end Fills

namespace Decoder

structure Behind (w : ℕ) (source : List Byte) (size : ℕ) (s : Decoder) (blocks : List RawBlock)
    (s' : Decoder) : Prop where
  reaches : Reaches w source size s s'
  run : ∀ fuel, run w source size (fuel + blocks.length) s = run w source size fuel s'
  position : s'.cursorCompressed = s.cursorCompressed + (blocks.flatMap RawBlock.bytes).length
  length : s'.decompressed.length = size

theorem exists_behind (hw : 32 ≤ w) (hroom : source.length + maxBlockSize < 2 ^ w)
    (hsize : size ≤ maxBlockSize) (hlength : s.decompressed.length = size)
    (hfills : Fills size s.cursor blocks last)
    (hdrop : source.drop s.cursorCompressed = blocks.flatMap RawBlock.bytes ++ tail) :
    ∃ s', Behind w source size s blocks s' ∧ s'.cursor = last := by
  generalize hcursor : s.cursor = cursor at hfills
  induction hfills generalizing s with
  | nil =>
    use s
    exact ⟨⟨.refl, fun fuel => rfl, rfl, hlength⟩, hcursor⟩
  | @cons cursor last b blocks hlt hb hfits hrest ih =>
    subst hcursor
    have hs : s.Running w source size := ⟨hw, hroom, hsize, hlength, hlt⟩
    rw [flatMap_cons, append_assoc] at hdrop
    have hstep := step_taken hs hb hdrop hfits
    obtain ⟨s', hbehind, hlast⟩ := ih ((length_next hb (hlength ▸ hfits)).trans hlength)
      (drop_of_drop _ hdrop) rfl
    refine ⟨s', ⟨hbehind.reaches.head ⟨hlt, hstep⟩, fun fuel => ?_, ?_, hbehind.length⟩, hlast⟩
    · rw [length_cons, ← Nat.add_assoc, run, if_pos hlt, hstep]
      exact hbehind.run fuel
    · rw [hbehind.position, next, flatMap_cons, length_append, Nat.add_assoc]

/-- What the decoder has read when it comes around. -/
structure Consumed (source : List Byte) (size : ℕ) (s : Decoder) (blocks : List RawBlock)
    (tail : List Byte) : Prop where
  source : source.drop 4 = blocks.flatMap RawBlock.bytes ++ tail
  fills : Fills size 0 blocks s.cursor
  position : s.cursorCompressed = 4 + (blocks.flatMap RawBlock.bytes).length
  length : s.decompressed.length = size
  data : (∀ b ∈ blocks, b.Known) →
    s.decompressed.take s.cursor = blocks.flatMap fun b => b.output b.length

namespace Consumed

theorem start (source : List Byte) (size : ℕ) :
    Consumed source size (.start size) [] (source.drop 4) where
  source := rfl
  fills := .nil 0
  position := rfl
  length := List.length_replicate
  data _ := rfl

theorem cursor_le (h : Consumed source size s blocks tail) : s.cursor ≤ size :=
  h.fills.le (Nat.zero_le size)

theorem drop (h : Consumed source size s blocks tail) : source.drop s.cursorCompressed = tail := by
  rw [h.position]
  exact drop_of_drop _ h.source

theorem next {rest : List Byte} (h : Consumed source size s blocks (b.bytes ++ rest))
    (hb : b.Taken) (hcursor : s.cursor < size) (hfits : s.cursor + b.length32 ≤ size) :
    Consumed source size (s.next b) (blocks ++ [b]) rest where
  source := by rw [h.source, List.flatMap_append, List.flatMap_singleton, List.append_assoc]
  fills := h.fills.concat hcursor hb hfits
  position := by
    rw [Decoder.next, h.position, List.flatMap_append, List.flatMap_singleton, List.length_append,
      Nat.add_assoc]
  length := by rw [length_next hb (by rw [h.length]; exact hfits), h.length]
  data hknown := by
    rw [List.forall_mem_append, List.forall_mem_singleton] at hknown
    rw [List.flatMap_append, List.flatMap_singleton, ← h.data hknown.1, ← hknown.2.length32]
    have houtput := hb.payload.length_output hknown.2.type
    have hinside : s.cursor ≤ s.decompressed.length := by
      rw [h.length]
      exact h.cursor_le
    rw [← take_overwrite hinside, houtput]
    rfl

end Consumed

theorem round_cases (hw : 32 ≤ w) (hroom : source.length + maxBlockSize < 2 ^ w)
    (hsize : size ≤ maxBlockSize) (h : Consumed source size s blocks tail)
    (hcursor : s.cursor < size) :
    (∃ message, s.step w source size = .error (.error message)) ∨
      (∃ (b : RawBlock) (rest : List Byte), s.step w source size = .ok (s.next b) ∧
        Consumed source size (s.next b) (blocks ++ [b]) rest) ∨
      WrapsAt s.cursor (4 + (blocks.flatMap RawBlock.bytes).length) tail := by
  have hs : s.Running w source size := ⟨hw, hroom, hsize, h.length, hcursor⟩
  rcases step_cases hs h.drop with herror | ⟨b, rest, rfl, hb, hfits⟩ | hwraps
  · grind
  · right; left
    exact ⟨b, rest, step_taken hs hb h.drop hfits, h.next hb hcursor hfits⟩
  · grind [h.position]

theorem exists_consumed (hw : 32 ≤ w) (hroom : source.length + maxBlockSize < 2 ^ w)
    (hopens : Opens w source size) (hdefect : ¬ Defect w source)
    (h : Reaches w source size (.start size) s) :
    ∃ blocks tail, Consumed source size s blocks tail := by
  induction h with
  | refl => exact ⟨[], _, .start source size⟩
  | tail _ hround ih =>
    obtain ⟨blocks, tail, hconsumed⟩ := ih
    obtain ⟨hcursor, hstep⟩ := hround
    rcases round_cases hw hroom hopens.size_le hconsumed hcursor with
      ⟨message, herror⟩ | ⟨b, rest, hok, hnext⟩ | hwraps
    · grind
    · grind
    · exact absurd (.wraps hopens hconsumed.source hconsumed.fills hcursor hwraps) hdefect

theorem run_eq_ok {fuel : ℕ} (h : run w source size fuel s = .ok s') :
    Reaches w source size s s' ∧ ¬ s'.cursor < size := by
  induction fuel generalizing s with
  | zero => cases h
  | succ fuel ih =>
    rw [run] at h
    by_cases hcursor : s.cursor < size
    · rw [if_pos hcursor] at h
      cases hstep : s.step w source size with
      | error stop =>
        rw [hstep] at h
        cases h
      | ok next =>
        rw [hstep] at h
        obtain ⟨hreaches, hdone⟩ := ih h
        exact ⟨hreaches.head ⟨hcursor, hstep⟩, hdone⟩
    · rw [if_neg hcursor] at h
      cases h
      exact ⟨.refl, hcursor⟩

end Decoder

open Decoder

theorem rleDecode_eq_ok {data : List Byte} (h : rleDecode w source = .ok data) :
    ∃ size s, Opens w source size ∧ Reaches w source size (.start size) s ∧ ¬ s.cursor < size ∧
      s.decompressed = data := by
  rw [rleDecode] at h
  by_cases hheader : source.length < 4
  · grind
  · rw [if_neg hheader] at h
    by_cases hsize : ((wordAt source 0).signExtend w).toNat > maxBlockSize
    · grind
    · simp only [hsize, if_false] at h
      generalize hdeclared : ((wordAt source 0).signExtend w).toNat = size at h hsize
      change (do
        let s ← run w source size (source.length + 1) (start size)
        return s.decompressed) = _ at h
      cases hrun : run w source size (source.length + 1) (start size) with
      | error stop =>
        rw [hrun] at h
        cases h
      | ok s =>
        rw [hrun] at h
        cases h
        obtain ⟨hreaches, hdone⟩ := run_eq_ok hrun
        exact ⟨size, s, ⟨by omega, hdeclared, by omega⟩, hreaches, hdone, rfl⟩

theorem length_le_length_flatMap_bytes (blocks : List RawBlock) :
    blocks.length ≤ (blocks.flatMap RawBlock.bytes).length := by
  induction blocks with
  | nil => simp
  | cons b blocks ih =>
    grind [flatMap_cons, length_append, RawBlock.bytes, length_cons]

theorem exists_rleDecode (hw : 32 ≤ w) (hroom : source.length + maxBlockSize < 2 ^ w)
    (hopens : Opens w source size) (hsource : source.drop 4 = blocks.flatMap RawBlock.bytes ++ tail)
    (hfills : Fills size 0 blocks size) : ∃ data, rleDecode w source = .ok data := by
  obtain ⟨s, hbehind, hcursor⟩ := exists_behind (s := start size) hw hroom hopens.size_le
    length_replicate hfills hsource
  have hheader := hopens.header
  have hsize := hopens.size_le
  have hlength := congrArg List.length hsource
  have hcount := length_le_length_flatMap_bytes blocks
  rw [length_drop, length_append] at hlength
  obtain ⟨fuel, hfuel⟩ : ∃ fuel, source.length + 1 = fuel + 1 + blocks.length :=
    ⟨source.length - blocks.length, by omega⟩
  have hrun : run w source size (source.length + 1) (start size) = .ok s := by
    rw [hfuel, hbehind.run, run, if_neg (by omega)]
  use s.decompressed
  rw [rleDecode, if_neg (by omega), hopens.declared]
  simp only [show ¬ size > maxBlockSize by omega, if_false]
  rw [← start, hrun]
  rfl

/-- Blocks that fill the destination are the first ones of every other reading of the source,
and nothing but empty blocks follows them. -/
theorem blocks_of_fills {others : List RawBlock} (hsize : size ≤ maxBlockSize)
    (hlast : last ≤ size) (hfills : Fills size cursor blocks last)
    (hothers : ∀ b ∈ others, b.IsBlock)
    (hsum : cursor + (others.map RawBlock.length).sum = last)
    (hbytes : others.flatMap RawBlock.bytes = blocks.flatMap RawBlock.bytes ++ tail) :
    (∀ b ∈ blocks, b.Known) ∧ ∃ empty : List RawBlock, tail = empty.flatMap RawBlock.bytes ∧
      ∀ b ∈ empty, b.IsBlock ∧ b.length = 0 := by
  induction hfills generalizing others with
  | nil cursor =>
    refine ⟨by simp, others, hbytes.symm, fun b hb => ⟨hothers b hb, ?_⟩⟩
    have hle := single_le_sum (by simp) _ (mem_map_of_mem (f := RawBlock.length) hb)
    omega
  | @cons cursor last b blocks hlt hb hfits hrest ih =>
    cases others with
    | nil => simp [RawBlock.bytes] at hbytes
    | cons other others =>
      rw [forall_mem_cons] at hothers
      obtain ⟨hother, hothers⟩ := hothers
      simp only [flatMap_cons, RawBlock.bytes, cons_append, append_assoc,
        List.cons.injEq] at hbytes
      obtain ⟨htype, hbytes⟩ := hbytes
      obtain ⟨hgroups, hbytes⟩ := hother.header.1.append_inj hb.header.1 hbytes
      rw [map_cons, sum_cons] at hsum
      unfold maxBlockSize at hsize
      have hlength : other.length = b.length := congrArg value hgroups
      have hknown : b.Known := ⟨htype ▸ hother.type, by omega⟩
      have hpayload : other.payload.length = b.payload.length := by
        rcases hknown.type with hcopy | hrepeat
        · rw [hother.payload.copy (htype.trans hcopy), hb.payload.copy hcopy, hlength,
            hknown.length32]
        · obtain ⟨value, hvalue⟩ := hother.payload.repeats (htype.trans hrepeat)
          obtain ⟨value', hvalue'⟩ := hb.payload.repeats hrepeat
          rw [hvalue, hvalue']
          rfl
      obtain ⟨-, hbytes⟩ := List.append_inj hbytes hpayload
      have hsum' : cursor + b.length32 + (others.map RawBlock.length).sum = last := by
        rw [hknown.length32]
        omega
      obtain ⟨hblocks, hempty⟩ := ih hlast hothers hsum' hbytes
      exact ⟨forall_mem_cons.mpr ⟨hknown, hblocks⟩, hempty⟩

theorem not_defect_of_decodesSafely (hw : 32 ≤ w) (hroom : source.length + maxBlockSize < 2 ^ w)
    (h : DecodesSafely w source) : ¬ Defect w source := by
  have hread : ∀ {size : ℕ} {blocks : List RawBlock} {tail : List Byte}, Opens w source size →
      source.drop 4 = blocks.flatMap RawBlock.bytes ++ tail → Fills size 0 blocks size →
      (∀ b ∈ blocks, b.Known) ∧ ∃ empty : List RawBlock, tail = empty.flatMap RawBlock.bytes ∧
        ∀ b ∈ empty, b.IsBlock ∧ b.length = 0 := by
    intro size blocks tail hopens hsource hfills
    obtain ⟨data, hdata⟩ := exists_rleDecode hw hroom hopens hsource hfills
    obtain ⟨others, hothers, hblocks, hsum, -⟩ := h.complete data hdata
    apply blocks_of_fills hopens.size_le le_rfl hfills hblocks _ (hothers.symm.trans hsource)
    rw [Nat.zero_add, ← hsum.declared, hopens.declared]
  intro hdefect
  cases hdefect with
  | @wraps size cursor blocks tail hopens hsource hfills hcursor hwraps =>
    obtain ⟨s, hbehind, rfl⟩ := exists_behind (s := start size) hw hroom hopens.size_le
      length_replicate hfills hsource
    have hs : s.Running w source size := ⟨hw, hroom, hopens.size_le, hbehind.length, hcursor⟩
    have hdrop : source.drop s.cursorCompressed = tail := by
      rw [hbehind.position]
      exact drop_of_drop _ hsource
    have hposition : s.cursorCompressed = 4 + (blocks.flatMap RawBlock.bytes).length :=
      hbehind.position
    rw [← hposition, ← hdrop] at hwraps
    rcases step_wraps hs hwraps with hoverrun | ⟨s', hstep, hback⟩
    · exact h.inside size s hopens hbehind.reaches hcursor hoverrun
    · have hforward := h.forward size s s' hopens hbehind.reaches ⟨hcursor, hstep⟩
      omega
  | unknownType hopens hsource hfills hb hcopy hrepeat =>
    rcases ((hread hopens hsource hfills).1 _ hb).type with htype | htype <;> grind
  | droppedBits hopens hsource hfills hb hlength =>
    exact absurd ((hread hopens hsource hfills).1 _ hb).length_lt (by omega)
  | leftOver hopens hsource hfills htail => exact htail (hread hopens hsource hfills).2

theorem isBlock_of_known (hb : b.Taken) (hknown : b.Known) : b.IsBlock where
  type := hknown.type
  header := hb.header
  payload := hknown.length32 ▸ hb.payload

theorem output_of_length_eq_zero (hblock : b.IsBlock) (hzero : b.length = 0) :
    b.output b.length = [] := by
  apply eq_nil_of_length_eq_zero
  rw [hblock.payload.length_output hblock.type, hzero]

theorem decodesSafely_of_not_defect (hw : 32 ≤ w) (hroom : source.length + maxBlockSize < 2 ^ w)
    (h : ¬ Defect w source) : DecodesSafely w source where
  inside size s hopens hreaches hcursor hoverrun := by
    obtain ⟨blocks, tail, hconsumed⟩ := exists_consumed hw hroom hopens h hreaches
    rcases round_cases hw hroom hopens.size_le hconsumed hcursor with
      ⟨message, herror⟩ | ⟨b, rest, hok, -⟩ | hwraps
    · rw [herror] at hoverrun
      cases hoverrun
    · rw [hok] at hoverrun
      cases hoverrun
    · exact h (.wraps hopens hconsumed.source hconsumed.fills hcursor hwraps)
  forward size s s' hopens hreaches hround := by
    obtain ⟨hcursor, hstep⟩ := hround
    obtain ⟨blocks, tail, hconsumed⟩ := exists_consumed hw hroom hopens h hreaches
    rcases round_cases hw hroom hopens.size_le hconsumed hcursor with
      ⟨message, herror⟩ | ⟨b, rest, hok, -⟩ | hwraps
    · rw [herror] at hstep
      cases hstep
    · rw [hok] at hstep
      cases hstep
      exact Nat.le_add_right _ _
    · exact absurd (.wraps hopens hconsumed.source hconsumed.fills hcursor hwraps) h
  complete data hdata := by
    obtain ⟨size, s, hopens, hreaches, hdone, rfl⟩ := rleDecode_eq_ok hdata
    obtain ⟨blocks, tail, hconsumed⟩ := exists_consumed hw hroom hopens h hreaches
    have hcursor : s.cursor = size := by
      have hle := hconsumed.cursor_le
      omega
    have hfills : Fills size 0 blocks size := hcursor ▸ hconsumed.fills
    have hknown : ∀ b ∈ blocks, b.Known := by
      intro b hb
      constructor
      · by_contra htype
        rw [not_or] at htype
        exact h (.unknownType hopens hconsumed.source hfills hb htype.1 htype.2)
      · by_contra hlength
        exact h (.droppedBits hopens hconsumed.source hfills hb (by omega))
    obtain ⟨empty, rfl, hempty⟩ : ∃ empty : List RawBlock, tail = empty.flatMap RawBlock.bytes ∧
        ∀ b ∈ empty, b.IsBlock ∧ b.length = 0 := by
      by_contra htail
      exact h (.leftOver hopens hconsumed.source hfills htail)
    have hsum : ((blocks ++ empty).map RawBlock.length).sum = size := by
      have hblocks : blocks.map RawBlock.length = blocks.map RawBlock.length32 :=
        List.map_congr_left fun b hb => (hknown b hb).length32.symm
      have hzero : (empty.map RawBlock.length).sum = 0 := by
        rw [List.sum_eq_zero_iff]
        simpa using fun b hb => (hempty b hb).2
      rw [List.map_append, List.sum_append, hzero, Nat.add_zero, hblocks, ← Nat.zero_add (List.sum _)]
      exact hfills.sum
    refine ⟨blocks ++ empty, ?_, ?_, ?_, ?_, ?_⟩
    · rw [hconsumed.source, List.flatMap_append]
    · rw [List.forall_mem_append]
      exact ⟨fun b hb => isBlock_of_known (hfills.taken b hb) (hknown b hb),
        fun b hb => (hempty b hb).1⟩
    · rwa [hsum]
    · rw [hsum, hconsumed.length]
    · have hnone : (empty.flatMap fun b => b.output b.length) = [] := by
        rw [List.flatMap_eq_nil_iff]
        exact fun b hb => output_of_length_eq_zero (hempty b hb).1 (hempty b hb).2
      rw [List.flatMap_append, hnone, List.append_nil, ← hconsumed.data hknown, List.take_of_length_le]
      rw [hconsumed.length, hcursor]

/-- `rle_decode` is safe on exactly the sources without one of the four defects. -/
theorem decodesSafely_iff (hw : 32 ≤ w) (hroom : source.length + maxBlockSize < 2 ^ w) :
    DecodesSafely w source ↔ ¬ Defect w source :=
  ⟨not_defect_of_decodesSafely hw hroom, decodesSafely_of_not_defect hw hroom⟩

theorem decodesSafely_repeat_iff :
    DecodesSafely 32 [2, 0, 0, 0, 1, 2, 7] ↔ ¬ Defect 32 [2, 0, 0, 0, 1, 2, 7] :=
  decodesSafely_iff le_rfl (by norm_num [maxBlockSize])

/-- A run of −1 bytes is written behind the destination, and a block of the type 2 counts as
output without a byte of it. -/
theorem not_decodesSafely :
    ¬ DecodesSafely 32 [2, 0, 0, 0, 1, 1, 5, 1, 0xff, 0xff, 0xff, 0xff, 0x0f, 9] ∧
      ¬ DecodesSafely 32 [1, 0, 0, 0, 2, 1] := by
  constructor
  · intro h
    have hopens : Opens 32 [2, 0, 0, 0, 1, 1, 5, 1, 0xff, 0xff, 0xff, 0xff, 0x0f, 9] 2 :=
      ⟨by decide, by decide +kernel, by decide⟩
    apply h.inside 2 ⟨1, 7, [5, 0]⟩ hopens
    · exact .single ⟨by decide, by decide +kernel⟩
    · decide
    · rfl
  · intro h
    have hdata : rleDecode 32 [1, 0, 0, 0, 2, 1] = .ok [0] := by decide +kernel
    obtain ⟨blocks, hbytes, hblocks, -⟩ := h.complete _ hdata
    cases blocks with
    | nil => cases hbytes
    | cons b blocks =>
      have htype : (2 : Byte) = b.type := (List.cons.inj hbytes).1
      rcases (hblocks b mem_cons_self).type with hcopy | hrepeat
      · exact absurd (htype.trans hcopy) (by decide)
      · exact absurd (htype.trans hrepeat) (by decide)

end Cloudpilot.Uarm.Session
