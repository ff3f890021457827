import Mathlib.Data.List.TakeWhile
import Cloudpilot.Common.GzipRoundTrip

/-! # The header of a gzip file

What `ReadHeaderFooter` loads from its input and where it finds the payload, for any input. The
positions in the footer are taken before the size of the input is known to reach that far: the
check in front of them looks at a member that is not set yet.
-/

namespace Cloudpilot.Common.GunzipContext

open Library.LittleEndian Library.Compression List Nat

variable {τ : Type} {inflate : Codec τ} {c : GunzipContext τ} {w : ℕ}

/-- The bytes that a read of so many loads, if it passes the check. -/
def readAccesses (w size count index : ℕ) : List ℕ :=
  if (index + (count - 1)) % 2 ^ w ≥ size then []
  else (List.range count).map fun i => (index + i) % 2 ^ w

/-- The reads of `ReadHeaderFooter`, in order: how many bytes and from where. -/
def readings (w size : ℕ) : List (ℕ × ℕ) :=
  [(2, 0), (1, 2), (1, 3), (4, 4), (1, 8), (1, 9), (2, 10), (4, (size + 2 ^ w - 4) % 2 ^ w),
    (4, (size + 2 ^ w - 8) % 2 ^ w)]

def fieldAccesses (w size : ℕ) : List ℕ :=
  (readings w size).flatMap fun r => readAccesses w size r.1 r.2

def skipString (flags flag : Byte) (c : GunzipContext τ) : GunzipContext τ :=
  if flags &&& flag ≠ 0 then c.skipZeroTerminatedString else c

def skipExtra (flags : Byte) (c : GunzipContext τ) : GunzipContext τ :=
  if flags &&& flagFextra ≠ 0 then
    { c with payloadStart := c.payloadStart + (2 + c.headerFooter.xlen.toNat) } else c

/-- The checksum of the header. -/
def skipCrc (flags : Byte) (c : GunzipContext τ) : GunzipContext τ :=
  if flags &&& flagFhcrc ≠ 0 then { c with payloadStart := c.payloadStart + 2 } else c

theorem skipOptionalFields_eq_stages (c : GunzipContext τ) : c.skipOptionalFields =
    skipCrc c.headerFooter.flags (skipString c.headerFooter.flags flagFcomment
      (skipString c.headerFooter.flags flagFname (skipExtra c.headerFooter.flags c))) := rfl

/-- The bytes up to the end of the string, with the zero if there is one. -/
def stringAccesses (c : GunzipContext τ) : List ℕ :=
  List.range' c.payloadStart (c.skipZeroTerminatedString.payloadStart - c.payloadStart)

def optionalAccesses (c : GunzipContext τ) : List ℕ :=
  let flags := c.headerFooter.flags
  let extra := skipExtra flags c
  (if flags &&& flagFname ≠ 0 then extra.stringAccesses else []) ++
    if flags &&& flagFcomment ≠ 0 then (skipString flags flagFname extra).stringAccesses else []

def headerAccesses (w : ℕ) (c : GunzipContext τ) : List ℕ :=
  if c.uncompressedSize ≤ headerSize + footerSize then []
  else
    let (headerFooter, d) := readFields w c.compressedSize c
    let d := { d with headerFooter := headerFooter, payloadStart := headerSize }
    fieldAccesses w c.compressedSize ++ if d.state = .error then [] else d.optionalAccesses

theorem read8_snd (w index : ℕ) (c : GunzipContext τ) : (read8 w index c).2 = (read w 1 index c).2 :=
  rfl

theorem read16_snd (w index : ℕ) (c : GunzipContext τ) :
    (read16 w index c).2 = (read w 2 index c).2 := rfl

theorem read32_snd (w index : ℕ) (c : GunzipContext τ) :
    (read32 w index c).2 = (read w 4 index c).2 := rfl

theorem bind_apply {σ α β : Type} (x : StateM σ α) (f : α → StateM σ β) (s : σ) :
    (x >>= f) s = f (x s).1 (x s).2 := rfl

theorem pure_apply {σ α : Type} (a : α) (s : σ) : (pure a : StateM σ α) s = (a, s) := rfl

theorem readFields_snd (w size : ℕ) (c : GunzipContext τ) :
    (readFields w size c).2 = (readings w size).foldl (fun c r => (read w r.1 r.2 c).2) c := by
  simp only [readings, foldl_cons, foldl_nil, ← read8_snd, ← read16_snd, ← read32_snd]
  simp only [readFields, bind_apply, pure_apply]

def Part (file : List Byte) (start stop : ℕ) (P : List Byte → Prop) : Prop :=
  ∃ part, P part ∧ file.drop start = part ++ file.drop stop ∧ stop = start + part.length

def Optional (flags flag : Byte) (P : List Byte → Prop) (part : List Byte) : Prop :=
  if flags &&& flag ≠ 0 then P part else part = []

def ExtraField (part : List Byte) : Prop :=
  ∃ lo hi field, part = lo :: hi :: field ∧ field.length = lo.toNat + 256 * hi.toNat

def ZeroTerminated (part : List Byte) : Prop :=
  ∃ s, part = s ++ [0] ∧ (0 : Byte) ∉ s

def HeaderCrc (part : List Byte) : Prop := part.length = 2

/-- The header of RFC 1952 takes so many bytes of the file. -/
def IsHeader (file : List Byte) (size : ℕ) : Prop :=
  let flags := file[3]?.getD 0
  ∃ extra name comment,
    10 ≤ file.length ∧ Part file 10 extra (Optional flags flagFextra ExtraField) ∧
      Part file extra name (Optional flags flagFname ZeroTerminated) ∧
      Part file name comment (Optional flags flagFcomment ZeroTerminated) ∧
      Part file comment size (Optional flags flagFhcrc HeaderCrc)

/-- Nothing but the input is loaded, and without an error the payload starts behind the header and
ends in front of the footer. -/
structure ReadsHeader (w : ℕ) (c : GunzipContext τ) : Prop where
  inside : ∀ i ∈ headerAccesses w c, i < c.compressedSize
  start : (readHeaderFooter w c).state ≠ .error →
    IsHeader c.compressedData (readHeaderFooter w c).payloadStart ∧
      (readHeaderFooter w c).payloadStart + footerSize ≤ c.compressedSize

section Reads

variable {size count index n : ℕ}

theorem mem_readAccesses {i : ℕ} : i ∈ readAccesses w size count index ↔
    (index + (count - 1)) % 2 ^ w < size ∧ ∃ k < count, (index + k) % 2 ^ w = i := by
  simp [readAccesses]

theorem readAccesses_inside (hfits : index + count ≤ 2 ^ w) :
    ∀ i ∈ readAccesses w size count index, i < size := by
  intro i hi
  obtain ⟨hcheck, k, hk, rfl⟩ := mem_readAccesses.mp hi
  rw [mod_eq_of_lt (by omega)] at hcheck ⊢
  omega

theorem footerAccesses_inside_iff (size : ℕ) (hn : 4 ≤ n) (hfits : size + n < 2 ^ w) :
    (∀ i ∈ readAccesses w size 4 ((size + 2 ^ w - n) % 2 ^ w), i < size) ↔
      ¬(n < size + 4 ∧ size < n) := by
  rcases lt_or_ge size n with hshort | hlong
  · have hindex : (size + 2 ^ w - n) % 2 ^ w = size + 2 ^ w - n := mod_eq_of_lt (by omega)
    rw [hindex]
    rcases lt_or_ge n (size + 4) with hends | hends
    · have hcheck : (size + 2 ^ w - n + (4 - 1)) % 2 ^ w = size + 3 - n := by
        rw [show size + 2 ^ w - n + (4 - 1) = size + 3 - n + 2 ^ w by omega, add_mod_right,
          mod_eq_of_lt (by omega)]
      have hfirst : size + 2 ^ w - n ∈ readAccesses w size 4 (size + 2 ^ w - n) :=
        mem_readAccesses.mpr ⟨by omega, 0, by omega, mod_eq_of_lt (by omega)⟩
      constructor
      · intro hinside
        have hlt := hinside _ hfirst
        omega
      · omega
    · have hcheck : (size + 2 ^ w - n + (4 - 1)) % 2 ^ w = size + 2 ^ w - n + 3 :=
        mod_eq_of_lt (by omega)
      constructor
      · omega
      · intro _ i hi
        have hlt := (mem_readAccesses.mp hi).1
        omega
  · rw [footer_index hlong (by omega)]
    constructor
    · omega
    · intro _
      exact readAccesses_inside (by omega)

/-- The sizes for which a read of the footer begins in front of the input and ends in it. -/
def WrapsAround (size : ℕ) : Prop := (0 < size ∧ size < 4) ∨ (4 < size ∧ size < 8)

theorem fieldAccesses_inside_iff (hw : 32 ≤ w) (hfits : size + 10 < 2 ^ w) :
    (∀ i ∈ fieldAccesses w size, i < size) ↔ ¬WrapsAround size := by
  have hlarge : 2 ^ 32 ≤ 2 ^ w := Nat.pow_le_pow_right (by omega) hw
  have hlength := footerAccesses_inside_iff (w := w) size (le_refl 4) (by omega)
  have hcrc := footerAccesses_inside_iff (w := w) size (show 4 ≤ 8 by omega) (by omega)
  simp only [fieldAccesses, readings, flatMap_cons, flatMap_nil, append_nil,
    forall_mem_append]
  rw [hlength, hcrc, WrapsAround]
  constructor
  · omega
  · intro hgood
    refine ⟨readAccesses_inside ?_, readAccesses_inside ?_, readAccesses_inside ?_,
      readAccesses_inside ?_, readAccesses_inside ?_, readAccesses_inside ?_,
      readAccesses_inside ?_, ?_, ?_⟩ <;> omega

end Reads

section Errors

variable {count index : ℕ}

theorem setError_error (c : GunzipContext τ) (description : String) :
    (c.setError description).state = .error := by grind [setError]

theorem setError_compressedData (c : GunzipContext τ) (description : String) :
    (c.setError description).compressedData = c.compressedData := by
  rw [setError]
  split_ifs <;> rfl

theorem read_compressedData (w count index : ℕ) (c : GunzipContext τ) :
    (read w count index c).2.compressedData = c.compressedData := by
  rw [read]
  split_ifs
  · exact setError_compressedData _ _
  · rfl

theorem read_error (herror : c.state = .error) : (read w count index c).2.state = .error := by
  rw [read]
  split_ifs
  · exact setError_error _ _
  · exact herror

theorem foldl_read_error (rs : List (ℕ × ℕ)) (herror : c.state = .error) :
    (rs.foldl (fun c r => (read w r.1 r.2 c).2) c).state = .error := by
  induction rs generalizing c with
  | nil => exact herror
  | cons r rs ih => exact ih (read_error herror)

theorem foldl_read_beyond {rs : List (ℕ × ℕ)}
    (h : ∃ r ∈ rs, (r.2 + (r.1 - 1)) % 2 ^ w ≥ c.compressedSize) :
    (rs.foldl (fun c r => (read w r.1 r.2 c).2) c).state = .error := by
  induction rs generalizing c with
  | nil => simp at h
  | cons r rs ih =>
    obtain ⟨r', hmem, hbeyond⟩ := h
    rcases mem_cons.mp hmem with rfl | hrest
    · have herror : (read w r'.1 r'.2 c).2.state = .error := by
        rw [read, if_pos hbeyond]
        exact setError_error _ _
      exact foldl_read_error rs herror
    · apply ih
      refine ⟨r', hrest, ?_⟩
      rwa [compressedSize, read_compressedData]

theorem readFields_short (hw : 32 ≤ w) (hshort : c.compressedSize < 12) :
    (readFields w c.compressedSize c).2.state = .error := by
  have hlarge : 2 ^ 32 ≤ 2 ^ w := Nat.pow_le_pow_right (by omega) hw
  rw [readFields_snd]
  apply foldl_read_beyond
  refine ⟨(2, 10), by simp [readings], ?_⟩
  rw [Nat.mod_eq_of_lt (by omega)]
  omega

end Errors

section Fields

variable {index : ℕ}

theorem read8_eq (hrange : index + 1 ≤ c.compressedSize) (hfits : c.compressedSize < 2 ^ w) :
    read8 w index c = (c.compressedData[index]?.getD 0, c) := by
  have hread := read_eq (by omega : 0 < 1) hrange hfits
  simp only [read8, bind_apply, pure_apply, hread]
  simp

theorem read32_eq (hrange : index + 4 ≤ c.compressedSize) (hfits : c.compressedSize < 2 ^ w) :
    read32 w index c = (wordAt ((c.compressedData.drop index).take 4) 0, c) := by
  simp [read32, bind_apply, pure_apply, read_eq (by omega : 0 < 4) hrange hfits]

theorem toNat_wordAt_two (lo hi : Byte) :
    ((wordAt [lo, hi] 0).setWidth 16).toNat = lo.toNat + 256 * hi.toNat := by
  have hbits : (wordAt [lo, hi] 0).setWidth 16 = hi ++ lo := by
    apply BitVec.eq_of_getLsbD_eq
    intro i hlt
    rw [BitVec.getLsbD_append]
    interval_cases i <;> simp [wordAt, byteAt]
  have hlo := lo.isLt
  rw [hbits, BitVec.toNat_append, ← shiftLeft_add_eq_or_of_lt hlo, shiftLeft_eq]
  omega

theorem readFields_long (hlong : 12 ≤ c.compressedSize) (hfits : c.compressedSize < 2 ^ w) :
    ∃ headerFooter, readFields w c.compressedSize c = (headerFooter, c) ∧
      headerFooter.flags = c.compressedData[3]?.getD 0 ∧
      headerFooter.xlen = (wordAt ((c.compressedData.drop 10).take 2) 0).setWidth 16 := by
  have h0 : read16 w 0 c = _ := read16_eq (by omega) hfits
  have h2 : read8 w 2 c = _ := read8_eq (by omega) hfits
  have h3 : read8 w 3 c = _ := read8_eq (by omega) hfits
  have h4 : read32 w 4 c = _ := read32_eq (by omega) hfits
  have h8 : read8 w 8 c = _ := read8_eq (by omega) hfits
  have h9 : read8 w 9 c = _ := read8_eq (by omega) hfits
  have h10 : read16 w 10 c = _ := read16_eq (by omega) hfits
  have hlength : read32 w (c.compressedSize - 4) c = _ := read32_eq (by omega) hfits
  have hcrc : read32 w (c.compressedSize - 8) c = _ := read32_eq (by omega) hfits
  rw [← footer_index (by omega) hfits] at hlength hcrc
  refine ⟨(readFields w c.compressedSize c).1, ?_, ?_, ?_⟩
  all_goals
    simp only [readFields, bind_apply, pure_apply, h0, h2, h3, h4, h8, h9, h10, hlength, hcrc]

end Fields

section Parts

variable {file : List Byte} {start stop : ℕ} {flags flag : Byte} {P : List Byte → Prop}

theorem part_absent (h : ¬flags &&& flag ≠ 0) : Part file start start (Optional flags flag P) :=
  ⟨[], by rw [Optional, if_neg h], rfl, rfl⟩

theorem Part.present (hpart : Part file start stop P) (h : flags &&& flag ≠ 0) :
    Part file start stop (Optional flags flag P) := by
  obtain ⟨part, hP, hdrop, hstop⟩ := hpart
  exact ⟨part, by rwa [Optional, if_pos h], hdrop, hstop⟩

theorem part_take {count : ℕ} (hcount : start + count ≤ file.length)
    (hP : P ((file.drop start).take count)) : Part file start (start + count) P := by
  refine ⟨_, hP, ?_, ?_⟩
  · simp
  · grind

theorem extraField_part {xlen : BitVec 16} (hlength : start + (2 + xlen.toNat) ≤ file.length)
    (hxlen : xlen = (wordAt ((file.drop start).take 2) 0).setWidth 16) :
    Part file start (start + (2 + xlen.toNat)) ExtraField := by
  apply part_take hlength
  obtain ⟨lo, hi, rest, hrest⟩ : ∃ lo hi rest, file.drop start = lo :: hi :: rest := by
    have hdrop : (file.drop start).length = file.length - start := length_drop
    match hfile : file.drop start with
    | [] => simp [hfile] at hdrop; omega
    | [_] => simp [hfile] at hdrop; omega
    | lo :: hi :: rest => exact ⟨lo, hi, rest, rfl⟩
  rw [hrest] at hxlen ⊢
  have hnat : xlen.toNat = lo.toNat + 256 * hi.toNat := by
    rw [hxlen]
    exact toNat_wordAt_two lo hi
  have hrestLength := congrArg List.length hrest
  rw [length_drop, length_cons, length_cons] at hrestLength
  refine ⟨lo, hi, rest.take xlen.toNat, ?_, ?_⟩
  · grind
  · rw [length_take, hnat]
    omega

end Parts

theorem exists_zero {l s : List Byte} (hs : s = l.takeWhile (· ≠ 0)) (h : s.length < l.length) :
    ∃ rest, l = s ++ 0 :: rest := by
  have hsplit : s ++ l.dropWhile (· ≠ 0) = l := hs ▸ takeWhile_append_dropWhile
  have hlength := congrArg List.length hsplit
  rw [length_append] at hlength
  have hpos : 0 < (l.dropWhile (· ≠ 0)).length := by omega
  obtain ⟨first, rest, hrest⟩ := exists_cons_of_length_pos hpos
  have hhead := List.head?_dropWhile_not (fun v : Byte => decide (v ≠ 0)) l
  rw [hrest] at hhead hsplit
  have hzero : first = 0 := by simpa using hhead
  exact ⟨rest, by rw [← hsplit, hzero]⟩

section Strings

variable (hstate : c.state ≠ .error)

include hstate

theorem skipZeroTerminatedString_le : c.payloadStart ≤ c.skipZeroTerminatedString.payloadStart := by
  grind [skipZeroTerminatedString]

theorem stringAccesses_inside : ∀ i ∈ c.stringAccesses, i < c.compressedSize := by
  intro i hi
  rw [stringAccesses, skipZeroTerminatedString, if_neg hstate, mem_range'_1] at hi
  have hlength := ((c.compressedData.drop c.payloadStart).takeWhile_sublist (· ≠ 0)).length_le
  grind [compressedSize]

theorem skipZeroTerminatedString_part
    (h : c.skipZeroTerminatedString.payloadStart < c.compressedSize) :
    Part c.compressedData c.payloadStart c.skipZeroTerminatedString.payloadStart ZeroTerminated := by
  rw [skipZeroTerminatedString, if_neg hstate] at h ⊢
  dsimp only at h ⊢
  obtain ⟨s, hs⟩ : ∃ s, s = (c.compressedData.drop c.payloadStart).takeWhile (· ≠ 0) := ⟨_, rfl⟩
  have hzero : (0 : Byte) ∉ s := by
    rw [hs]
    intro hmem
    simpa using mem_takeWhile_imp hmem
  rw [← hs] at h ⊢
  by_cases hinside : c.payloadStart + s.length < c.compressedSize
  · rw [if_pos hinside]
    have hlength : s.length < (c.compressedData.drop c.payloadStart).length := by
      rw [length_drop]
      unfold compressedSize at hinside
      omega
    obtain ⟨rest, hrest⟩ := exists_zero hs hlength
    have hrest' : c.compressedData.drop (c.payloadStart + (s ++ [0]).length) = rest := by
      rw [← drop_drop, hrest]
      simp
    refine ⟨s ++ [0], ⟨s, rfl, hzero⟩, ?_, by simp; omega⟩
    rw [show c.payloadStart + s.length + 1 = c.payloadStart + (s ++ [0]).length by simp; omega,
      hrest', hrest, append_cons]
  · rw [if_neg hinside] at h
    omega

end Strings

section Stages

variable {flags flag : Byte}

/-- Skipping moves the start of the payload, and nothing else. -/
structure Moved (c c' : GunzipContext τ) : Prop where
  state : c'.state = c.state
  compressedData : c'.compressedData = c.compressedData
  le : c.payloadStart ≤ c'.payloadStart

theorem skipString_moved (flags flag : Byte) (hstate : c.state ≠ .error) : Moved c (skipString flags flag c) := by
  rw [skipString]
  split_ifs
  · have hle := skipZeroTerminatedString_le hstate
    rw [skipZeroTerminatedString, if_neg hstate] at hle ⊢
    exact ⟨rfl, rfl, hle⟩
  · exact ⟨rfl, rfl, le_rfl⟩

theorem skipExtra_moved : Moved c (skipExtra flags c) := by
  rw [skipExtra]
  split_ifs
  · exact ⟨rfl, rfl, le_add_right _ _⟩
  · exact ⟨rfl, rfl, le_rfl⟩

theorem skipCrc_moved : Moved c (skipCrc flags c) := by
  rw [skipCrc]
  split_ifs
  · exact ⟨rfl, rfl, le_add_right _ _⟩
  · exact ⟨rfl, rfl, le_rfl⟩

theorem skipString_part (flags flag : Byte) (hstate : c.state ≠ .error)
    (h : (skipString flags flag c).payloadStart < c.compressedSize) :
    Part c.compressedData c.payloadStart (skipString flags flag c).payloadStart
      (Optional flags flag ZeroTerminated) := by
  rw [skipString] at h ⊢
  split_ifs at h ⊢ with hflag
  · exact (skipZeroTerminatedString_part hstate h).present hflag
  · exact part_absent hflag

theorem skipExtra_part (flags : Byte) (h : (skipExtra flags c).payloadStart < c.compressedSize)
    (hxlen : c.headerFooter.xlen =
      (wordAt ((c.compressedData.drop c.payloadStart).take 2) 0).setWidth 16) :
    Part c.compressedData c.payloadStart (skipExtra flags c).payloadStart
      (Optional flags flagFextra ExtraField) := by
  rw [skipExtra] at h ⊢
  split_ifs at h ⊢ with hflag
  · exact (extraField_part (le_of_lt h) hxlen).present hflag
  · exact part_absent hflag

theorem skipCrc_part (flags : Byte) (h : (skipCrc flags c).payloadStart < c.compressedSize) :
    Part c.compressedData c.payloadStart (skipCrc flags c).payloadStart
      (Optional flags flagFhcrc HeaderCrc) := by
  rw [skipCrc] at h ⊢
  split_ifs at h ⊢ with hflag
  · refine Part.present (part_take (le_of_lt h) ?_) hflag
    rw [HeaderCrc, length_take, length_drop]
    unfold compressedSize at h
    dsimp only at h
    omega
  · exact part_absent hflag

theorem Moved.compressedSize {c₁ : GunzipContext τ} (h : Moved c c₁) :
    c₁.compressedSize = c.compressedSize :=
  congrArg List.length h.compressedData

theorem Moved.part_of_eq {c₁ : GunzipContext τ} {stop : ℕ} {P : List Byte → Prop} (h : Moved c c₁)
    (hpart : Part c₁.compressedData c₁.payloadStart stop P) :
    Part c.compressedData c₁.payloadStart stop P :=
  h.compressedData ▸ hpart

theorem Moved.trans {c₁ c₂ : GunzipContext τ} (h : Moved c c₁) (h' : Moved c₁ c₂) : Moved c c₂ :=
  ⟨h'.state.trans h.state, h'.compressedData.trans h.compressedData, h.le.trans h'.le⟩

theorem skipOptionalFields_moved (hstate : c.state ≠ .error) : Moved c c.skipOptionalFields := by
  have hextra : Moved c (skipExtra c.headerFooter.flags c) := skipExtra_moved
  have hname := hextra.trans (skipString_moved c.headerFooter.flags flagFname
    (hextra.state ▸ hstate))
  exact (hname.trans (skipString_moved _ _ (hname.state ▸ hstate))).trans skipCrc_moved

theorem skipOptionalFields_header (hstate : c.state ≠ .error) (hstart : c.payloadStart = headerSize)
    (hlong : 10 ≤ c.compressedSize) (hflags : c.headerFooter.flags = c.compressedData[3]?.getD 0)
    (hxlen : c.headerFooter.xlen = (wordAt ((c.compressedData.drop 10).take 2) 0).setWidth 16)
    (hend : c.skipOptionalFields.payloadStart < c.compressedSize) :
    IsHeader c.compressedData c.skipOptionalFields.payloadStart := by
  rw [skipOptionalFields_eq_stages, hflags] at hend ⊢
  generalize hf : c.compressedData[3]?.getD 0 = flags at hend ⊢
  have hextra : Moved c (skipExtra flags c) := skipExtra_moved
  generalize hc₁ : skipExtra flags c = c₁ at hend ⊢ hextra
  have hname : Moved c₁ (skipString flags flagFname c₁) :=
    skipString_moved _ _ (hextra.state ▸ hstate)
  generalize hc₂ : skipString flags flagFname c₁ = c₂ at hend ⊢ hname
  have hname' := hextra.trans hname
  have hcomment : Moved c₂ (skipString flags flagFcomment c₂) :=
    skipString_moved _ _ (hname'.state ▸ hstate)
  generalize hc₃ : skipString flags flagFcomment c₂ = c₃ at hend ⊢ hcomment
  have hcomment' := hname'.trans hcomment
  have hcrc : Moved c₃ (skipCrc flags c₃) := skipCrc_moved
  refine ⟨c₁.payloadStart, c₂.payloadStart, c₃.payloadStart, hlong, ?_, ?_, ?_, ?_⟩
  · have hle := (hname.trans hcomment).trans hcrc |>.le
    have hpart := skipExtra_part flags (c := c) (by rw [hc₁]; omega)
      (by rw [hstart]; exact hxlen)
    rw [hf, ← hc₁]
    rwa [hstart] at hpart
  · have hle := (hcomment.trans hcrc).le
    have hpart := skipString_part flags flagFname (hextra.state ▸ hstate)
      (by rw [hc₂, hextra.compressedSize]; omega)
    rw [hc₂] at hpart
    exact hf ▸ hextra.part_of_eq hpart
  · have hle := hcrc.le
    have hpart := skipString_part flags flagFcomment (hname'.state ▸ hstate)
      (by rw [hc₃, hname'.compressedSize]; omega)
    rw [hc₃] at hpart
    exact hf ▸ hname'.part_of_eq hpart
  · have hpart := skipCrc_part flags (by rw [hcomment'.compressedSize]; exact hend)
    rw [← hf] at hpart ⊢
    exact hcomment'.part_of_eq hpart

theorem optionalAccesses_inside (hstate : c.state ≠ .error) :
    ∀ i ∈ c.optionalAccesses, i < c.compressedSize := by
  have hextra : Moved c (skipExtra c.headerFooter.flags c) := skipExtra_moved
  have hname := hextra.trans (skipString_moved c.headerFooter.flags flagFname
    (hextra.state ▸ hstate))
  intro i hi
  rcases mem_append.mp hi with hi | hi
  · split_ifs at hi
    · rw [← hextra.compressedSize]
      exact stringAccesses_inside (hextra.state ▸ hstate) i hi
    · cases hi
  · split_ifs at hi
    · rw [← hname.compressedSize]
      exact stringAccesses_inside (hname.state ▸ hstate) i hi
    · cases hi

end Stages

section Constructor

variable {headerFooter : GzipHeaderFooter}

theorem readsHeader_small (h : c.uncompressedSize ≤ headerSize + footerSize) : ReadsHeader w c where
  inside := by
    rw [headerAccesses, if_pos h]
    intro i hi
    cases hi
  start := by
    rw [readHeaderFooter, if_pos h]
    exact fun hstate => absurd (setError_error _ _) hstate

theorem readsHeader_short_iff (hmore : ¬c.uncompressedSize ≤ headerSize + footerSize) (hw : 32 ≤ w)
    (hshort : c.compressedSize < 12) :
    ReadsHeader w c ↔ ∀ i ∈ fieldAccesses w c.compressedSize, i < c.compressedSize := by
  have herror := readFields_short hw hshort
  rcases hread : readFields w c.compressedSize c with ⟨headerFooter, d⟩
  rw [hread] at herror
  have haccesses : headerAccesses w c = fieldAccesses w c.compressedSize := by
    rw [headerAccesses, if_neg hmore, hread]
    dsimp only
    rw [if_pos herror, append_nil]
  have hstate : (readHeaderFooter w c).state = .error := by
    rw [readHeaderFooter, if_neg hmore, hread]
    dsimp only
    rw [if_pos herror]
    exact herror
  constructor
  · intro h
    rw [← haccesses]
    exact h.inside
  · intro hfields
    refine ⟨?_, fun hnone => absurd hstate hnone⟩
    rwa [haccesses]

theorem readsHeader_long (hmore : ¬c.uncompressedSize ≤ headerSize + footerSize) (hw : 32 ≤ w)
    (hstate : c.state ≠ .error) (hlong : 12 ≤ c.compressedSize) (hfits : c.compressedSize + 10 < 2 ^ w) :
    ReadsHeader w c := by
  obtain ⟨headerFooter, hfields, hflags, hxlen⟩ := readFields_long hlong (w := w) (by omega)
  obtain ⟨d, hd⟩ : ∃ d, d = { c with headerFooter := headerFooter, payloadStart := headerSize } :=
    ⟨_, rfl⟩
  have hdstate : d.state ≠ .error := hd ▸ hstate
  have hdata : d.compressedData = c.compressedData := by rw [hd]
  have hsize : d.compressedSize = c.compressedSize := congrArg List.length hdata
  have haccesses : headerAccesses w c = fieldAccesses w c.compressedSize ++ d.optionalAccesses := by
    rw [headerAccesses, if_neg hmore, hfields]
    dsimp only
    rw [if_neg hstate, ← hd]
  have hread : readHeaderFooter w c =
      if d.skipOptionalFields.payloadStart + 8 ≥ d.skipOptionalFields.compressedSize then
        d.skipOptionalFields.setError "input too short" else d.skipOptionalFields := by
    rw [readHeaderFooter, if_neg hmore, hfields]
    dsimp only
    rw [if_neg hstate, ← hd]
  constructor
  · rw [haccesses]
    intro i hi
    rcases mem_append.mp hi with hi | hi
    · have hgood : ¬WrapsAround c.compressedSize := by
        rw [WrapsAround]
        omega
      exact (fieldAccesses_inside_iff hw hfits).mpr hgood i hi
    · have hinside := optionalAccesses_inside hdstate i hi
      rwa [hsize] at hinside
  · rw [hread]
    split_ifs with hend
    · exact fun hnone => absurd (setError_error _ _) hnone
    · intro _
      rw [(skipOptionalFields_moved hdstate).compressedSize, hsize] at hend
      have hheader := skipOptionalFields_header hdstate (by rw [hd]) (by rw [hsize]; omega)
        (by rw [hd]; exact hflags) (by rw [hd]; exact hxlen) (by rw [hsize]; omega)
      rw [hdata] at hheader
      refine ⟨hheader, ?_⟩
      rw [footerSize]
      omega

end Constructor

/-- The header is read as it should be if and only if the check at the beginning fails, or the size
is not one of those for which a position in the footer wraps around into the input. -/
theorem readsHeader_iff (w : ℕ) (inflate : Codec τ) (memory : Memory) (data : List Byte)
    (sliceSize : ℕ) (hw : 32 ≤ w) (hfits : data.length + 10 < 2 ^ w) :
    ReadsHeader w (fresh inflate memory data sliceSize) ↔
      memory.uncompressedSize ≤ 18 ∨ ¬WrapsAround data.length := by
  by_cases hsmall : memory.uncompressedSize ≤ 18
  · exact iff_of_true (readsHeader_small hsmall) (.inl hsmall)
  rw [or_iff_right hsmall]
  rcases lt_or_ge data.length 12 with hshort | hlong
  · rw [readsHeader_short_iff (c := fresh inflate memory data sliceSize) hsmall hw hshort]
    exact fieldAccesses_inside_iff hw hfits
  · have hgood : ¬WrapsAround data.length := by
      rw [WrapsAround]
      omega
    have hstate : (fresh inflate memory data sliceSize).state ≠ .error := by simp [fresh]
    exact iff_of_true (readsHeader_long hsmall hw hstate hlong hfits) hgood

/-- An input of 21 bytes: a header with an extra field of one byte, and the footer. -/
theorem readsHeader_extra : ReadsHeader 32 (fresh shortInflate (memoryOf 19)
    ([0x1f, 0x8b, 0x08, 0x04, 0, 0, 0, 0, 0, 0, 1, 0, 7] ++ List.replicate 8 0) 2) :=
  (readsHeader_iff 32 shortInflate (memoryOf 19) _ 2 (by decide) (by decide)).mpr
    (.inr (by unfold WrapsAround; decide))

/-- For an input of one byte the footer is looked for in front of it. -/
theorem one_byte_reads_outside : ¬ReadsHeader 32 (fresh shortInflate (memoryOf 19) [0x1f] 2) := by
  intro h
  have hmember : 2 ^ 32 - 3 ∈ headerAccesses 32 (fresh shortInflate (memoryOf 19) [0x1f] 2) := by
    apply mem_append_left
    decide
  exact absurd (h.inside _ hmember) (by decide)

end Cloudpilot.Common.GunzipContext
