import Cloudpilot.Uarm.ICache.Coherence

/-! # Invalidating a range

The loop over the lines of a range counts in 32 bits. It stops behind the last line of the range
as long as the line behind that one has an address.
-/
namespace Cloudpilot.Uarm.ICache
open Cloudpilot.Uarm.Cpu Cloudpilot.Uarm.MMU BitVec List

def InRange (addr size line : Word) : Prop :=
  ∃ a, addr.toNat ≤ a ∧ a < addr.toNat + size.toNat ∧ a / 32 = line.toNat / 32

/-- The loop ends when it has passed the lines of the range, and no other line, to
`icacheInvalAddr`, and what is held for the addresses of other lines stays as it is. -/
structure InvalidatesExactly (addr size : Word) : Prop where
  passed : ∃ lines : List Word,
      (∀ line, line ∈ lines ↔ maskLine line = line ∧ InRange addr size line) ∧
    ∀ ic, icacheInvalRange ic addr size = some (lines.foldl icacheInvalAddr ic)
  others : ∀ ic ic' va, icacheInvalRange ic addr size = some ic' → ¬ InRange addr size va →
    (ic.cache (calculateIndex va)).tag.setWidth 32 = calculateTag va →
    ic'.cache (calculateIndex va) = ic.cache (calculateIndex va)

def passedLines (limit : Word) : ℕ → Word → Option (List Word)
  | 0, _ => none
  | rounds + 1, line =>
    if line < limit then (passedLines limit rounds (line + 32#32)).map (line :: ·) else some []

theorem invalLines_eq (limit : Word) (rounds : ℕ) (line : Word) (ic : Icache) :
    invalLines limit rounds line ic =
      (passedLines limit rounds line).map fun lines => lines.foldl icacheInvalAddr ic := by
  induction rounds generalizing line ic with
  | zero => rfl
  | succ rounds ih =>
    rw [invalLines, passedLines]
    split
    · rw [ih, Option.map_map]
      rfl
    · rfl

theorem toNat_next {line : Word} (haligned : line.toNat % 32 = 0) (h : line.toNat < 2 ^ 32 - 32) :
    (line + 32#32).toNat = line.toNat + 32 := by
  rw [toNat_add, BitVec.toNat_ofNat]
  omega

/-- Below a limit that can be passed by, the loop passes on all lines. -/
theorem passedLines_some {limit : Word} (hlimit : limit.toNat ≤ 2 ^ 32 - 32) (rounds : ℕ)
    (line : Word)
    (haligned : line.toNat % 32 = 0) (hrounds : limit.toNat ≤ line.toNat + 32 * rounds) :
    ∃ lines, passedLines limit (rounds + 1) line = some lines ∧ ∀ l : Word, l ∈ lines ↔
      l.toNat % 32 = 0 ∧ line.toNat ≤ l.toNat ∧ l.toNat < limit.toNat := by
  induction rounds generalizing line with
  | zero =>
    have hstop : ¬ line < limit := by
      rw [lt_def]
      omega
    rw [passedLines, if_neg hstop]
    refine ⟨[], rfl, fun l => ?_⟩
    simp only [not_mem_nil, false_iff]
    omega
  | succ rounds ih =>
    rw [passedLines]
    by_cases hlt : line < limit
    · rw [if_pos hlt]
      rw [lt_def] at hlt
      have hnext := toNat_next haligned (by omega)
      obtain ⟨lines, hlines, hmem⟩ := ih (line + 32#32) (by omega) (by omega)
      refine ⟨line :: lines, by rw [hlines]; rfl, fun l => ?_⟩
      have heq : l = line ↔ l.toNat = line.toNat := ⟨congrArg _, eq_of_toNat_eq⟩
      rw [mem_cons, hmem, heq]
      omega
    · rw [if_neg hlt]
      rw [lt_def] at hlt
      refine ⟨[], rfl, fun l => ?_⟩
      simp only [not_mem_nil, false_iff]
      omega

/-- Past the address of the last line nothing stops the loop. -/
theorem passedLines_none {limit : Word} (hlimit : 2 ^ 32 - 32 < limit.toNat) (rounds : ℕ)
    {line : Word}
    (haligned : line.toNat % 32 = 0) : passedLines limit rounds line = none := by
  induction rounds generalizing line with
  | zero => rfl
  | succ rounds ih =>
    have hlt : line < limit := by
      rw [lt_def]
      omega
    have hnext : (line + 32#32).toNat % 32 = 0 := by
      rw [toNat_add, BitVec.toNat_ofNat]
      omega
    rw [passedLines, if_pos hlt, ih hnext]
    rfl

/-- A cache in which the line of the address is live. -/
def holding (line : Word) : Icache :=
  { icacheInit ⟨⟨0, 0, fun _ => 0⟩, ⟨0, 0, fun _ => 0⟩, []⟩ (mmuInit (fun _ => none) false) with
    revision := 1
    cache := fun _ => ⟨[], fun _ => 0, (calculateTag line).setWidth 16, 1⟩ }

theorem eq_of_index_tag {a b : Word} (ha : a.toNat % 32 = 0) (hb : b.toNat % 32 = 0)
    (hindex : calculateIndex a = calculateIndex b) (htag : calculateTag a = calculateTag b) :
    a = b := by
  have hi := congrArg BitVec.toNat hindex
  have ht := congrArg BitVec.toNat htag
  rw [toNat_calculateIndex, toNat_calculateIndex] at hi
  rw [toNat_calculateTag, toNat_calculateTag] at ht
  exact BitVec.eq_of_toNat_eq (by omega)

theorem icacheInvalAddr_other {ic : Icache} {line va : Word} (hline : line.toNat % 32 = 0)
    (htag : (ic.cache (calculateIndex va)).tag.setWidth 32 = calculateTag va)
    (hne : line ≠ maskLine va) :
    (icacheInvalAddr ic line).cache (calculateIndex va) = ic.cache (calculateIndex va) := by
  unfold icacheInvalAddr
  dsimp only
  split
  · rfl
  · rename_i hlive
    refine Function.update_of_ne (fun hindex => hne ?_) _ _
    have hsame := maskLine_sameLine va
    refine eq_of_index_tag hline (by rw [toNat_maskLine]; omega) ?_ ?_
    · rw [hsame.calculateIndex_eq, hindex]
    · rw [hsame.calculateTag_eq, ← htag, hindex]
      exact (not_not.mp (not_or.mp hlive).2).symm

theorem foldl_other {lines : List Word} (ic : Icache) {va : Word}
    (hlines : ∀ line ∈ lines, line.toNat % 32 = 0 ∧ line ≠ maskLine va)
    (htag : (ic.cache (calculateIndex va)).tag.setWidth 32 = calculateTag va) :
    (lines.foldl icacheInvalAddr ic).cache (calculateIndex va) = ic.cache (calculateIndex va) := by
  induction lines generalizing ic with
  | nil => rfl
  | cons line lines ih =>
    obtain ⟨haligned, hne⟩ := hlines line mem_cons_self
    have hsame := icacheInvalAddr_other haligned htag hne
    rw [foldl_cons, ih _ (fun l hl => hlines l (mem_cons_of_mem line hl))
        (by rw [hsame, htag]),
      hsame]

theorem foldl_discards (lines : List Word) (ic : Icache) :
    Discards ic (lines.foldl icacheInvalAddr ic) := by
  induction lines generalizing ic with
  | nil => exact discards_of_cache_eq rfl rfl
  | cons line lines ih => exact (icacheInvalAddr_discards ic line).trans (ih _)

theorem foldl_dead {lines : List Word} {line : Word} (h : line ∈ lines) (ic : Icache) :
    Dead (lines.foldl icacheInvalAddr ic) line := by
  induction lines generalizing ic with
  | nil => exact absurd h not_mem_nil
  | cons first lines ih =>
    rcases mem_cons.mp h with rfl | h
    · exact (icacheInvalAddr_dead ic line).of_discards (foldl_discards lines _)
    · exact ih h _

theorem mem_iff_dead {lines : List Word} (hlines : ∀ line ∈ lines, line.toNat % 32 = 0)
    {line : Word}
    (haligned : line.toNat % 32 = 0) :
    line ∈ lines ↔ Dead (lines.foldl icacheInvalAddr (holding line)) line := by
  refine ⟨fun h => foldl_dead h _, fun hdead => ?_⟩
  by_contra hmem
  have hmask : maskLine line = line := eq_of_toNat_eq (by rw [toNat_maskLine]; omega)
  have htag : ((holding line).cache (calculateIndex line)).tag.setWidth 32 = calculateTag line := by
    apply eq_of_toNat_eq
    simp only [holding, toNat_setWidth, toNat_calculateTag]
    omega
  have hsame := foldl_other (holding line)
    (fun l hl => ⟨hlines l hl, fun heq => hmem (by rwa [heq, hmask] at hl)⟩) htag
  refine hdead ?_ ?_
  · rw [hsame, (foldl_discards lines _).revision]
    rfl
  · grind

variable {addr size : Word}

theorem maskLine_eq_iff {line : Word} : maskLine line = line ↔ line.toNat % 32 = 0 := by
  rw [← toNat_inj, toNat_maskLine]
  omega

theorem inRange_iff {line : Word} (hsize : size ≠ 0#32) (haligned : line.toNat % 32 = 0) :
    InRange addr size line ↔
      (maskLine addr).toNat ≤ line.toNat ∧ line.toNat < addr.toNat + size.toNat := by
  have hpos : size.toNat ≠ 0 := fun h => hsize (eq_of_toNat_eq h)
  rw [toNat_maskLine]
  constructor
  · rintro ⟨a, hle, hlt, hline⟩
    omega
  · intro h
    exact ⟨max addr.toNat line.toNat, by omega, by omega, by omega⟩

theorem not_inRange_zero (line : Word) : ¬ InRange addr 0#32 line := by
  rintro ⟨a, hle, hlt, -⟩
  rw [toNat_zero] at hlt
  omega

theorem icacheInvalRange_some (addr size : Word) (hlimit : (addr + size).toNat ≤ 2 ^ 32 - 32) :
    ∃ lines : List Word, (∀ line, line ∈ lines ↔ line.toNat % 32 = 0 ∧
        (maskLine addr).toNat ≤ line.toNat ∧ line.toNat < (addr + size).toNat) ∧
      ∀ ic, icacheInvalRange ic addr size = some (lines.foldl icacheInvalAddr ic) := by
  have haligned : (maskLine addr).toNat % 32 = 0 := by
    rw [toNat_maskLine]
    omega
  obtain ⟨lines, hlines, hmem⟩ := passedLines_some hlimit (2 ^ 27) _ haligned (by omega)
  refine ⟨lines, hmem, fun ic => ?_⟩
  rw [icacheInvalRange, invalLines_eq, hlines]
  rfl

theorem invalidatesExactly_of_mem {lines : List Word}
    (hmem : ∀ line, line ∈ lines ↔ maskLine line = line ∧ InRange addr size line)
    (hrange : ∀ ic, icacheInvalRange ic addr size = some (lines.foldl icacheInvalAddr ic)) :
    InvalidatesExactly addr size := by
  refine ⟨⟨lines, hmem, hrange⟩, fun ic ic' va hic' hout htag => ?_⟩
  obtain rfl := Option.some.inj ((hrange ic).symm.trans hic')
  refine foldl_other ic (fun line hline => ?_) htag
  obtain ⟨hmask, a, hle, hlt, hdiv⟩ := (hmem line).mp hline
  refine ⟨maskLine_eq_iff.mp hmask, ?_⟩
  rintro rfl
  rw [toNat_maskLine] at hdiv
  exact hout ⟨a, hle, hlt, by omega⟩

/-- A range in the address space is invalidated exactly if it has bytes and the line behind it has
an address, or if it has none and starts with a line. -/
theorem invalidatesExactly_iff (hend : addr.toNat + size.toNat ≤ 2 ^ 32) :
    InvalidatesExactly addr size ↔ size = 0#32 ∧ addr.toNat % 32 = 0 ∨
      size ≠ 0#32 ∧ addr.toNat + size.toNat ≤ 2 ^ 32 - 32 := by
  have hsum : (addr + size).toNat = (addr.toNat + size.toNat) % 2 ^ 32 := BitVec.toNat_add addr size
  constructor
  · rintro ⟨⟨lines, hmem, hrange⟩, -⟩
    have hlimit : (addr + size).toNat ≤ 2 ^ 32 - 32 := by
      by_contra hover
      have hnone := hrange (holding addr)
      rw [icacheInvalRange, invalLines_eq, passedLines_none (by omega) _
        (by rw [toNat_maskLine]; omega)]
        at hnone
      cases hnone
    obtain ⟨lines', hmem', hrange'⟩ := icacheInvalRange_some addr size hlimit
    have hsame : ∀ line : Word, line.toNat % 32 = 0 → (line ∈ lines ↔ line ∈ lines') := by
      intro line haligned
      rw [mem_iff_dead (fun l hl => maskLine_eq_iff.mp ((hmem l).mp hl).1) haligned,
        mem_iff_dead (fun l hl => ((hmem' l).mp hl).1) haligned,
        Option.some.inj ((hrange _).symm.trans (hrange' _))]
    by_cases hsize : size = 0#32
    · refine .inl ⟨hsize, ?_⟩
      subst hsize
      by_contra hunaligned
      have haligned : (maskLine addr).toNat % 32 = 0 := by
        rw [toNat_maskLine]
        omega
      have hpassed := (hsame _ haligned).mpr ((hmem' _).mpr ⟨haligned, le_rfl, by
        rw [toNat_maskLine, hsum, BitVec.toNat_zero]
        omega⟩)
      exact not_inRange_zero _ ((hmem _).mp hpassed).2
    · refine .inr ⟨hsize, ?_⟩
      by_contra hover
      have hlast : (0xFFFFFFE0#32).toNat % 32 = 0 := rfl
      have hin : 0xFFFFFFE0#32 ∈ lines := (hmem _).mpr ⟨rfl, (inRange_iff hsize hlast).mpr (by
        rw [toNat_maskLine, BitVec.toNat_ofNat]
        omega)⟩
      have hlt := ((hmem' _).mp ((hsame _ hlast).mp hin)).2.2
      omega
  · rintro (⟨rfl, haligned⟩ | ⟨hsize, hover⟩)
    · obtain ⟨lines, hmem, hrange⟩ := icacheInvalRange_some addr 0#32
        (by rw [BitVec.add_zero]; omega)
      refine invalidatesExactly_of_mem (fun line => ?_) hrange
      rw [hmem, toNat_maskLine, BitVec.add_zero]
      refine iff_of_false ?_ fun h => not_inRange_zero line h.2
      omega
    · obtain ⟨lines, hmem, hrange⟩ := icacheInvalRange_some addr size (by omega)
      refine invalidatesExactly_of_mem (fun line => ?_) hrange
      rw [hmem, maskLine_eq_iff]
      refine and_congr_right fun haligned => ?_
      rw [inRange_iff hsize haligned, hsum, Nat.mod_eq_of_lt (by omega)]

theorem invalidatesExactly_within_line : InvalidatesExactly 0x1004#32 8#32 :=
  (invalidatesExactly_iff (by decide)).mpr (.inr ⟨by decide, by decide⟩)

/-- A range that ends with the address space is not invalidated. -/
theorem not_invalidatesExactly_end : (0xFFFFFFF0#32).toNat + (16#32).toNat ≤ 2 ^ 32 ∧
    ¬ InvalidatesExactly 0xFFFFFFF0#32 16#32 := by
  refine ⟨by decide, fun h => ?_⟩
  obtain ⟨lines, hmem, hrange⟩ := h.passed
  have hin : 0xFFFFFFE0#32 ∈ lines :=
    (hmem _).mpr ⟨rfl, 2 ^ 32 - 1, by decide, by decide, by decide⟩
  have hdead := foldl_dead hin (holding 0xFFFFFFE0#32)
  have hkept : lines.foldl icacheInvalAddr (holding 0xFFFFFFE0#32) = holding 0xFFFFFFE0#32 :=
    Option.some.inj ((hrange _).symm.trans rfl)
  rw [hkept] at hdead
  exact hdead rfl (by decide)

end Cloudpilot.Uarm.ICache
