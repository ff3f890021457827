import Cloudpilot.Uarm.Session.RleBlocks

/-! # Which files the decoder of the web page gets through

`decompress` takes the shifts of a length modulo 32 and reads any number of groups, so that a
group can set the sign of the length. Such a length moves its cursors backwards.
-/

namespace Cloudpilot.Uarm.Session

open Library.LittleEndian Library.TypedArray Library.Varint List

variable {compressed groups rest : List Byte} {length : ℤ} {position shift fuel : ℕ} {type : Byte}

/-- The 32 bits that `decompress` makes of the groups of a length. -/
def groupsWord : ℕ → List Byte → BitVec 32
  | _, [] => 0
  | shift, b :: groups => ((b &&& 0x7f#8).setWidth 32) <<< (shift % 32) ||| groupsWord (shift + 7) groups

/-- A group sets the sign where one of its bits comes to stand there. -/
def SetsSign (shift : ℕ) (groups : List Byte) : Prop :=
  ∃ i b, groups[i]? = some b ∧ 25 ≤ (shift + 7 * i) % 32 ∧
    b.getLsbD (31 - (shift + 7 * i) % 32) = true

theorem msb_group (b : Byte) (shift : ℕ) :
    (((b &&& 0x7f#8).setWidth 32) <<< (shift % 32)).msb = true ↔
      25 ≤ shift % 32 ∧ b.getLsbD (31 - shift % 32) = true := by
  have hlow : ∀ j, (0x7f#8).getLsbD j = decide (j < 7) := by
    intro j
    by_cases hj : j < 8
    · interval_cases j <;> rfl
    · rw [BitVec.getLsbD_of_ge _ _ (by omega)]
      simp [show ¬ j < 7 by omega]
  rw [BitVec.msb_eq_getLsbD_last, BitVec.getLsbD_shiftLeft, BitVec.getLsbD_setWidth,
    BitVec.getLsbD_and, hlow]
  simp only [Bool.and_eq_true, decide_eq_true_eq, Bool.not_eq_true', decide_eq_false_iff_not]
  constructor
  · rintro ⟨-, -, hbit, hlt⟩
    exact ⟨by omega, hbit⟩
  · rintro ⟨hle, hbit⟩
    exact ⟨⟨by omega, by omega⟩, by omega, hbit, by omega⟩

theorem setsSign_cons (shift : ℕ) (b : Byte) (groups : List Byte) :
    SetsSign shift (b :: groups) ↔
      (25 ≤ shift % 32 ∧ b.getLsbD (31 - shift % 32) = true) ∨ SetsSign (shift + 7) groups := by
  constructor
  · rintro ⟨i, v, hget, hle, hbit⟩
    cases i with
    | zero => grind
    | succ i =>
      have hindex : shift + 7 * (i + 1) = shift + 7 + 7 * i := by ring
      rw [hindex] at hle hbit
      exact .inr ⟨i, v, hget, hle, hbit⟩
  · rintro (⟨hle, hbit⟩ | ⟨i, v, hget, hle, hbit⟩)
    · exact ⟨0, b, rfl, hle, hbit⟩
    · have hindex : shift + 7 * (i + 1) = shift + 7 + 7 * i := by ring
      exact ⟨i + 1, v, hget, by rwa [hindex], by rwa [hindex]⟩

theorem msb_groupsWord (shift : ℕ) (groups : List Byte) :
    (groupsWord shift groups).msb = true ↔ SetsSign shift groups := by
  induction groups generalizing shift with
  | nil =>
    refine iff_of_false (by simp [groupsWord]) ?_
    rintro ⟨i, b, hget, -⟩
    cases hget
  | cons b groups ih =>
    rw [groupsWord, BitVec.msb_or, Bool.or_eq_true, msb_group, ih, setsSign_cons]

theorem groupsWord_neg_iff (shift : ℕ) (groups : List Byte) :
    (groupsWord shift groups).toInt < 0 ↔ SetsSign shift groups := by
  rw [← msb_groupsWord, BitVec.msb_eq_toInt, decide_eq_true_eq]

theorem readBlockLen_of_groups (acc : BitVec 32) (shift : ℕ) (h : Terminated groups)
    (hdrop : compressed.drop position = groups ++ rest) (hfuel : groups.length ≤ fuel) :
    readBlockLen compressed fuel position acc shift =
      .ok ((position + groups.length : ℕ), acc ||| groupsWord shift groups) := by
  induction h generalizing position acc shift fuel with
  | @last b hlast =>
    obtain ⟨fuel, rfl⟩ : ∃ k, fuel = k + 1 := Nat.exists_eq_succ_of_ne_zero (by
      rw [length_singleton] at hfuel
      omega)
    have hlength := length_of_drop hdrop (by simp)
    rw [length_append, length_singleton] at hlength
    rw [readBlockLen, if_neg (by omega), get_natCast, getElem?_of_drop _ hdrop]
    simp only [Option.getD_some, hlast, if_true, groupsWord, length_singleton]
    have hzero : ∀ v : BitVec 32, v ||| 0 = v := fun v => BitVec.or_zero
    rw [hzero]
    rfl
  | @more b groups hmore hrest ih =>
    obtain ⟨fuel, rfl⟩ : ∃ k, fuel = k + 1 := Nat.exists_eq_succ_of_ne_zero (by
      rw [length_cons] at hfuel
      omega)
    have hlength := length_of_drop hdrop (by simp)
    rw [length_append, length_cons] at hlength
    rw [length_cons] at hfuel
    rw [readBlockLen, if_neg (by omega), get_natCast, getElem?_of_drop _ hdrop]
    simp only [Option.getD_some, hmore, if_false]
    have hnext := ih (acc ||| ((b &&& 0x7f#8).setWidth 32) <<< (shift % 32)) (shift + 7)
      (drop_succ_of_drop hdrop) (show groups.length ≤ fuel by omega)
    rw [Nat.cast_add_one] at hnext
    rw [hnext, groupsWord, BitVec.or_assoc, length_cons]
    congr 3
    omega

theorem readBlockLen_cases (compressed : List Byte) (acc : BitVec 32) (shift : ℕ)
    (hposition : position ≤ compressed.length) (hfuel : compressed.length < position + fuel) :
    (∃ message, readBlockLen compressed fuel position acc shift = .error (.error message)) ∨
      ∃ groups rest, compressed.drop position = groups ++ rest ∧ Terminated groups := by
  induction fuel generalizing position acc shift with
  | zero => omega
  | succ fuel ih =>
    rw [readBlockLen]
    by_cases hend : (position : ℤ) ≥ compressed.length
    · rw [if_pos hend]
      exact .inl ⟨_, rfl⟩
    · have hlt : position < compressed.length := by omega
      have hdrop := drop_eq_getElem_cons hlt
      rw [if_neg hend, get_natCast, getElem?_eq_getElem hlt]
      simp only [Option.getD_some]
      by_cases hlast : compressed[position] &&& 0x80#8 = 0
      · exact .inr ⟨[compressed[position]], _, hdrop, .last hlast⟩
      · rw [if_neg hlast]
        rcases ih (acc ||| ((compressed[position] &&& 0x7f#8).setWidth 32) <<< (shift % 32))
          (shift + 7) (show position + 1 ≤ compressed.length by omega) (by omega) with
          ⟨message, herror⟩ | ⟨groups, rest, hrest, hterminated⟩
        · exact .inl ⟨message, herror⟩
        · right
          use compressed[position] :: groups, rest
          rw [hdrop, hrest]
          exact ⟨rfl, .more hlast hterminated⟩

namespace Reader

variable {s s' : Reader}

def start (length : ℤ) : Reader := ⟨0, 4, Common.Crc.crc32Start, List.replicate length.toNat 0⟩

def Round (compressed : List Byte) (length : ℤ) (s s' : Reader) : Prop :=
  s.cursor < length ∧ s.step compressed length = .ok s'

/-- The states in which the loop comes around. -/
def Reaches (compressed : List Byte) (length : ℤ) : Reader → Prop :=
  Relation.ReflTransGen (Round compressed length) (start length)

/-- A block in front whose length is negative and moves the cursors: a literal one with no more
bytes to copy than there is room for, or a run with its byte. -/
def RunsBack (compressed : List Byte) (s : Reader) : Prop :=
  ∃ type groups rest,
    compressed.drop s.cursorCompressed.toNat = type :: (groups ++ rest) ∧ Terminated groups ∧
      SetsSign 0 groups ∧
      (type = blockTypeCopy ∧
          (subarray compressed (s.cursorCompressed + 1 + groups.length)
              (s.cursorCompressed + 1 + groups.length + (groupsWord 0 groups).toInt)).length ≤
            (subarray s.data s.cursor (s.cursor + (groupsWord 0 groups).toInt)).length ∨
        type = blockTypeRepeat ∧ rest ≠ [])

theorem step_of_groups (hposition : s.cursorCompressed = position)
    (hdrop : compressed.drop position = type :: (groups ++ rest)) (hgroups : Terminated groups) :
    s.step compressed length =
      if s.cursor + (groupsWord 0 groups).toInt > length then
        .error (.error ("block exceeds file size @ 0x" ++ hexDigits (position + 1 + groups.length : ℕ)))
      else
        payload compressed { s with cursorCompressed := (position + 1 + groups.length : ℕ) } (some type)
          (groupsWord 0 groups).toInt := by
  have hlength := length_of_drop hdrop (by simp)
  rw [length_cons, length_append] at hlength
  have hread : readBlockLen compressed (compressed.length + 1) (position + 1 : ℕ) 0 0 =
      .ok ((position + 1 + groups.length : ℕ), 0 ||| groupsWord 0 groups) :=
    readBlockLen_of_groups 0 0 hgroups (drop_succ_of_drop hdrop) (by omega)
  have hzero : 0 ||| groupsWord 0 groups = groupsWord 0 groups := BitVec.zero_or
  rw [hzero, Nat.cast_add_one] at hread
  have hget : get compressed s.cursorCompressed = some type := by
    rw [hposition, get_natCast, getElem?_of_drop _ hdrop]
  rw [step, hposition, if_neg (by omega), hread, ← hposition, hget]
  rfl

theorem step_of_no_groups (hposition : s.cursorCompressed = position)
    (h : ¬ ∃ type groups rest, compressed.drop position = type :: (groups ++ rest) ∧
      Terminated groups) :
    ∃ message, s.step compressed length = .error (.error message) := by
  rw [step, hposition]
  by_cases hend : (position : ℤ) ≥ compressed.length
  · rw [if_pos hend]
    exact ⟨_, rfl⟩
  · have hlt : position < compressed.length := by omega
    have hdrop := drop_eq_getElem_cons hlt
    rw [if_neg hend]
    rcases readBlockLen_cases compressed 0 0 (show position + 1 ≤ compressed.length by omega)
      (show compressed.length < position + 1 + (compressed.length + 1) by omega) with
      ⟨message, herror⟩ | ⟨groups, rest, hrest, hterminated⟩
    · rw [Nat.cast_add_one] at herror
      rw [herror]
      exact ⟨message, rfl⟩
    · grind

/-- What becomes of a block: the loop ends, or its cursors move by the block. -/
theorem payload_cases (compressed : List Byte) (s : Reader) (type : Byte) (blockLen : ℤ) :
    ((∃ e, s.payload compressed (some type) blockLen = .error e ∧ e ≠ .running) ∨
      ∃ s', s.payload compressed (some type) blockLen = .ok s' ∧ s'.cursor = s.cursor + blockLen ∧
        (0 ≤ blockLen → s.cursorCompressed ≤ s'.cursorCompressed)) := by
  rw [payload]
  by_cases hcopy : some type = some blockTypeCopy
  · by_cases hcut : s.cursorCompressed + blockLen > compressed.length <;> grind
  · rw [if_neg hcopy]
    by_cases hrepeat : some type = some blockTypeRepeat
    · rw [if_pos hrepeat]
      by_cases hend : s.cursorCompressed ≥ compressed.length
      · rw [if_pos hend]
        exact .inl ⟨_, rfl, by simp⟩
      · rw [if_neg hend]
        exact .inr ⟨_, rfl, rfl, fun _ => by simp⟩
    · grind

theorem payload_back (hdrop : compressed.drop position = rest)
    (hposition : position ≤ compressed.length) (hcursor : s.cursorCompressed = position)
    {blockLen : ℤ} (hneg : blockLen < 0) :
    (∃ s', s.payload compressed (some type) blockLen = .ok s') ↔
      (type = blockTypeCopy ∧
          (subarray compressed s.cursorCompressed (s.cursorCompressed + blockLen)).length ≤
            (subarray s.data s.cursor (s.cursor + blockLen)).length ∨
        type = blockTypeRepeat ∧ rest ≠ []) := by
  have hrest : s.cursorCompressed ≥ compressed.length ↔ rest = [] := by
    rw [hcursor, ← hdrop, drop_eq_nil_iff]
    omega
  rw [payload]
  by_cases hcopy : type = blockTypeCopy
  · simp only [hcopy, if_true, true_and, blockTypeRepeat_ne.symm, false_and, or_false]
    rw [if_neg (by omega), setView]
    by_cases hshort : (subarray s.data s.cursor (s.cursor + blockLen)).length <
        (subarray compressed s.cursorCompressed (s.cursorCompressed + blockLen)).length
    · grind
    · rw [if_neg hshort]
      exact iff_of_true ⟨_, rfl⟩ (by omega)
  · by_cases hrepeat : type = blockTypeRepeat
    · simp [hrepeat, blockTypeRepeat_ne]
      by_cases hend : s.cursorCompressed ≥ compressed.length
      · grind
      · rw [if_neg hend]
        exact iff_of_true ⟨_, rfl⟩ (mt hrest.mpr hend)
    · simp [Option.some.injEq, hcopy, hrepeat, if_false, false_and, or_self, iff_false]

theorem payload_back_of_groups (hposition : s.cursorCompressed = position)
    (hdrop : compressed.drop position = type :: (groups ++ rest)) {blockLen : ℤ}
    (hneg : blockLen < 0) :
    (∃ s', payload compressed { s with cursorCompressed := (position + 1 + groups.length : ℕ) }
        (some type) blockLen = .ok s') ↔
      (type = blockTypeCopy ∧
          (subarray compressed (s.cursorCompressed + 1 + groups.length)
              (s.cursorCompressed + 1 + groups.length + blockLen)).length ≤
            (subarray s.data s.cursor (s.cursor + blockLen)).length ∨
        type = blockTypeRepeat ∧ rest ≠ []) := by
  have hbehind : s.cursorCompressed + 1 + groups.length = (position + 1 + groups.length : ℕ) := by
    omega
  have hlength := length_of_drop hdrop (by simp)
  rw [length_cons, length_append] at hlength
  rw [hbehind]
  exact payload_back (drop_of_drop groups (drop_succ_of_drop hdrop)) (by omega) rfl hneg

theorem step_cases (hposition : s.cursorCompressed = position) :
    ((∃ e, s.step compressed length = .error e ∧ e ≠ .running) ∨
      ∃ s', s.step compressed length = .ok s' ∧ s.cursorCompressed < s'.cursorCompressed ∧
        s.cursor ≤ s'.cursor) ∨
      RunsBack compressed s := by
  by_cases hblock : ∃ type groups rest, compressed.drop position = type :: (groups ++ rest) ∧
      Terminated groups
  · obtain ⟨type, groups, rest, hdrop, hgroups⟩ := hblock
    rw [step_of_groups hposition hdrop hgroups]
    by_cases hover : s.cursor + (groupsWord 0 groups).toInt > length
    · rw [if_pos hover]
      exact .inl (.inl ⟨_, rfl, by simp⟩)
    · rw [if_neg hover]
      by_cases hsign : SetsSign 0 groups
      · have hneg := (groupsWord_neg_iff 0 groups).mpr hsign
        rcases payload_cases compressed { s with cursorCompressed := (position + 1 + groups.length : ℕ) }
          type (groupsWord 0 groups).toInt with herror | ⟨s', hok, -⟩
        · exact .inl (.inl herror)
        · right
          have htaken := (payload_back_of_groups hposition hdrop hneg).mp ⟨s', hok⟩
          rw [RunsBack, hposition, Int.toNat_natCast]
          exact ⟨type, groups, rest, hdrop, hgroups, hsign, by rwa [hposition] at htaken⟩
      · have hnonneg := not_lt.mp (mt (groupsWord_neg_iff 0 groups).mp hsign)
        rcases payload_cases compressed { s with cursorCompressed := (position + 1 + groups.length : ℕ) }
          type (groupsWord 0 groups).toInt with herror | ⟨s', hok, hcursor, hforward⟩
        · grind
        · grind
  · have hended : ∃ message, s.step compressed length = .error (.error message) :=
      step_of_no_groups hposition hblock
    obtain ⟨message, herror⟩ := hended
    exact .inl (.inl ⟨_, herror, by simp⟩)

theorem RunsBack.step (h : RunsBack compressed s) (hposition : s.cursorCompressed = position)
    (hcursor : s.cursor < length) : ∃ s', Round compressed length s s' ∧ s'.cursor < s.cursor := by
  obtain ⟨type, groups, rest, hdrop, hgroups, hsign, htaken⟩ := h
  rw [hposition, Int.toNat_natCast] at hdrop
  have hneg := (groupsWord_neg_iff 0 groups).mpr hsign
  obtain ⟨s', hok⟩ := (payload_back_of_groups hposition hdrop hneg).mpr htaken
  rcases payload_cases compressed { s with cursorCompressed := (position + 1 + groups.length : ℕ) }
    type (groupsWord 0 groups).toInt with ⟨e, herror, -⟩ | ⟨s'', hok', hmoved, -⟩
  · grind
  · refine ⟨s', ⟨hcursor, ?_⟩, ?_⟩
    · rwa [step_of_groups hposition hdrop hgroups, if_neg (by omega)]
    · grind

end Reader

structure Declares (compressed : List Byte) (length : ℤ) : Prop where
  header : 4 ≤ compressed.length
  declared : (wordAt compressed 0).toInt = length
  nonneg : 0 ≤ length

/-- `decompress` comes to an end, and every round takes bytes off the file and none of the
output back. -/
structure Progresses (compressed : List Byte) : Prop where
  ends : ∃ fuel, decompress fuel compressed ≠ .error .running
  forward : ∀ length s s', Declares compressed length → Reader.Reaches compressed length s →
    Reader.Round compressed length s s' →
      s.cursorCompressed < s'.cursorCompressed ∧ s.cursor ≤ s'.cursor

namespace Reader

theorem Reaches.position_of_forward {s : Reader}
    (hforward : ∀ s s', Reaches compressed length s → Round compressed length s s' →
      s.cursorCompressed < s'.cursorCompressed)
    (h : Reaches compressed length s) : 4 ≤ s.cursorCompressed := by
  induction h with
  | refl => exact le_refl _
  | tail hreaches hround ih => exact ih.trans (hforward _ _ hreaches hround).le

theorem position_lt_of_step {s s' : Reader} (h : s.step compressed length = .ok s') :
    s.cursorCompressed < compressed.length := by
  by_contra hend
  rw [step, if_pos (not_lt.mp hend)] at h
  cases h

/-- A loop in which nothing runs back takes a byte of the file at least in every round. -/
theorem run_ne_running {s : Reader}
    (hback : ∀ s, Reaches compressed length s → s.cursor < length → ¬ RunsBack compressed s)
    (hpositions : ∀ s, Reaches compressed length s → 4 ≤ s.cursorCompressed)
    (h : Reaches compressed length s)
    (hfuel : (compressed.length : ℤ) < s.cursorCompressed + fuel) (hpos : 0 < fuel) :
    Reader.run compressed length fuel s ≠ .error .running := by
  induction fuel generalizing s with
  | zero => omega
  | succ fuel ih =>
    rw [Reader.run]
    by_cases hcursor : s.cursor < length
    · rw [if_pos hcursor]
      have hposition : s.cursorCompressed = s.cursorCompressed.toNat := by grind
      rcases step_cases hposition with (⟨e, herror, hne⟩ | ⟨s', hok, hlt, -⟩) | hruns
      · rw [herror]
        exact fun heq => hne (Except.error.inj heq)
      · have hinside := position_lt_of_step hok
        rw [hok]
        exact ih (h.tail ⟨hcursor, hok⟩) (by omega) (by omega)
      · grind
    · grind

end Reader

theorem ok_bind {ε α β : Type} (a : α) (f : α → Except ε β) : (Except.ok a >>= f) = f a := rfl

/-- `decompress` comes to an end with every round going forward exactly if no block that its loop
comes to runs back. -/
theorem progresses_iff (compressed : List Byte) :
    Progresses compressed ↔ ∀ length s, Declares compressed length →
      Reader.Reaches compressed length s → s.cursor < length → ¬ Reader.RunsBack compressed s := by
  constructor
  · intro h length s hdeclares hreaches hcursor hruns
    have hle := hreaches.position_of_forward fun s s' hs hround =>
      (h.forward length s s' hdeclares hs hround).1
    have hposition : s.cursorCompressed = s.cursorCompressed.toNat := by omega
    obtain ⟨s', hround, hlt⟩ := hruns.step hposition hcursor
    have hforward := (h.forward length s s' hdeclares hreaches hround).2
    omega
  · intro h
    have hround : ∀ length s s', Declares compressed length → 4 ≤ s.cursorCompressed →
        Reader.Reaches compressed length s → Reader.Round compressed length s s' →
          s.cursorCompressed < s'.cursorCompressed ∧ s.cursor ≤ s'.cursor := by
      intro length s s' hdeclares hle hreaches hround
      have hposition : s.cursorCompressed = s.cursorCompressed.toNat := by omega
      rcases Reader.step_cases hposition with (⟨e, herror, -⟩ | ⟨s'', hok, hforward⟩) | hruns
      · exact absurd (herror.symm.trans hround.2) (by simp)
      · obtain rfl : s'' = s' := Except.ok.inj (hok.symm.trans hround.2)
        exact hforward
      · exact absurd hruns (h length s hdeclares hreaches hround.1)
    have hpositions : ∀ length s, Declares compressed length → Reader.Reaches compressed length s →
        4 ≤ s.cursorCompressed := by
      intro length s hdeclares hreaches
      induction hreaches with
      | refl => exact le_refl _
      | tail hreaches hstep ih => exact ih.trans (hround length _ _ hdeclares ih hreaches hstep).1.le
    constructor
    · refine ⟨compressed.length + 1, ?_⟩
      rw [decompress]
      by_cases hheader : compressed.length < 4
      · grind
      · rw [if_neg hheader]
        by_cases hnegative : (wordAt compressed 0).toInt < 0
        · grind
        · have hdeclares : Declares compressed (wordAt compressed 0).toInt :=
            ⟨not_lt.mp hheader, rfl, not_lt.mp hnegative⟩
          have hrun := Reader.run_ne_running (fun s => h _ s hdeclares)
            (fun s => hpositions _ s hdeclares) .refl
            (show (compressed.length : ℤ) < 4 + (compressed.length + 1 : ℕ) by omega) (by omega)
          simp only [if_neg hnegative]
          intro hrunning
          cases hresult : Reader.run compressed (wordAt compressed 0).toInt (compressed.length + 1)
            (Reader.start (wordAt compressed 0).toInt) with
          | error e =>
            rw [hresult] at hrun
            rw [Reader.start] at hresult
            rw [hresult] at hrunning
            exact hrun (congrArg Except.error (Except.error.inj hrunning))
          | ok s =>
            rw [Reader.start] at hresult
            rw [hresult, ok_bind] at hrunning
            split at hrunning <;> exact absurd hrunning (by simp [pure, Except.pure])
    · grind

def endlessFile : List Byte := [1, 0, 0, 0, 0, 0xfa, 0xff, 0xff, 0xff, 0x0f]

theorem step_endlessFile (cursor : ℤ) (hcursor : cursor ≤ 0) (crc : BitVec 32) (data : List Byte) :
    Reader.step endlessFile 1 ⟨cursor, 4, crc, data⟩ = .ok ⟨cursor + -6, 4, crc, data⟩ := by
  have hgroups : Terminated [0xfa, 0xff, 0xff, 0xff, 0x0f] :=
    .more (by decide) (.more (by decide) (.more (by decide) (.more (by decide) (.last (by decide)))))
  have hword : (groupsWord 0 [0xfa, 0xff, 0xff, 0xff, 0x0f]).toInt = -6 := by decide
  have hdrop : endlessFile.drop 4 = 0 :: ([0xfa, 0xff, 0xff, 0xff, 0x0f] ++ []) := rfl
  have hnothing : subarray endlessFile 10 (10 + -6) = [] := by decide
  have hend : ((4 + 1 + [0xfa, 0xff, 0xff, 0xff, (0x0f : Byte)].length : ℕ) : ℤ) = 10 := rfl
  rw [Reader.step_of_groups (s := ⟨cursor, 4, crc, data⟩) rfl hdrop hgroups, hword,
    if_neg (by simp only; omega), hend, Reader.payload,
    if_pos (show some (0 : Byte) = some blockTypeCopy from rfl)]
  have hfits : ¬ (10 + -6 : ℤ) > endlessFile.length := by decide
  simp only [hfits, hnothing, setView, length_nil, Nat.not_lt_zero, if_false, overwrite_nil]
  rfl

theorem run_endlessFile (fuel : ℕ) (cursor : ℤ) (hcursor : cursor ≤ 0) (crc : BitVec 32)
    (data : List Byte) :
    Reader.run endlessFile 1 fuel ⟨cursor, 4, crc, data⟩ = .error .running := by
  induction fuel generalizing cursor with
  | zero => rfl
  | succ fuel ih =>
    rw [Reader.run, if_pos (by simp only; omega), step_endlessFile cursor hcursor, ok_bind]
    exact ih _ (by omega)

theorem decompress_endlessFile (fuel : ℕ) : decompress fuel endlessFile = .error .running := by
  have hlength : (wordAt endlessFile 0).toInt = 1 := by decide
  rw [decompress, if_neg (by decide), hlength]
  simp only [show ¬ (1 : ℤ) < 0 by decide, if_false]
  rw [run_endlessFile fuel 0 le_rfl]
  rfl

theorem endlessFile_not_progresses : ¬ Progresses endlessFile := by
  intro h
  obtain ⟨fuel, hends⟩ := h.ends
  exact hends (decompress_endlessFile fuel)

end Cloudpilot.Uarm.Session
