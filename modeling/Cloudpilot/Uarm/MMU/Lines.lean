import Cloudpilot.Library.Words
import Cloudpilot.Uarm.MMU.Transparency

/-! # Translations inside one cache line

No mapping is smaller than 1024 bytes, so the addresses of a line of 32 bytes are
translated by one mapping or one entry: together they fault, or they lie at the
same offsets of one physical line.
-/
namespace Cloudpilot.Uarm.MMU
open Cloudpilot.Uarm.Cpu Cloudpilot.Library Cloudpilot.Library.AlignedBlock BitVec

theorem smallPageMapping_congr {a b : Word} (h : b >>> 10 = a >>> 10) (t : Word) (dom : BitVec 4) :
    smallPageMapping b t dom = smallPageMapping a t dom := by
  have hva : b &&& 0xFFFFF000#32 = a &&& 0xFFFFF000#32 := and_eq_of_shiftRight_eq h (by decide)
  simp [smallPageMapping, hva, h]

theorem tinyMapping_congr {a b : Word} (h : b >>> 10 = a >>> 10) (t : Word) (dom : BitVec 4) :
    tinyMapping b t dom = tinyMapping a t dom := by
  have hva : b &&& 0xFFFFFC00#32 = a &&& 0xFFFFFC00#32 := and_eq_of_shiftRight_eq h (by decide)
  simp [tinyMapping, hva]

theorem pageDescriptor_congr {a b : Word} (h : b >>> 10 = a >>> 10) (xscale coarse : Bool) (t : Word)
    (dom : BitVec 4) : pageDescriptor xscale coarse b t dom = pageDescriptor xscale coarse a t dom := by
  have hlarge : largePageMapping b t dom = largePageMapping a t dom :=
    largePageMapping_congr (shiftRight_eq_of_le h (by split <;> decide)) dom
  have hsmall := smallPageMapping_congr h t dom
  have htex := texPageMapping_congr (shiftRight_eq_of_le h (by decide : 10 ≤ 12)) t dom
  simp [pageDescriptor, hlarge, hsmall, htex, tinyMapping_congr h]

theorem fineSlot_congr {a b : Word} (h : b >>> 10 = a >>> 10) (t : Word) :
    fineSlot t b = fineSlot t a := by
  have hva : b &&& 0x000FFC00#32 = a &&& 0x000FFC00#32 := and_eq_of_shiftRight_eq h (by decide)
  simp [fineSlot, hva]

theorem walk_congr {a b : Word} (h : b >>> 10 = a >>> 10) (mmu : ArmMmu) : walk mmu b = walk mmu a := by
  have hslot := firstLevelSlot_congr (shiftRight_eq_of_le h (by decide : 10 ≤ 20)) mmu
  have hcoarse := coarseSlot_congr (shiftRight_eq_of_le h (by decide : 10 ≤ 12))
  have hsection := sectionMapping_congr (shiftRight_eq_of_le h (by decide : 10 ≤ 20))
  simp only [walk, firstLevel, secondLevel, hslot, hcoarse, fineSlot_congr h, hsection,
    pageDescriptor_congr h]

/-- Virtual and physical addresses of a mapping are multiples of 32. -/
structure Mapping.Aligned (p : Mapping) : Prop where
  va : p.va.toNat % 32 = 0
  paPage : p.paPage.toNat % 32 = 0

/-- They are multiples of the size of the smallest mapping. -/
structure Mapping.BlockAligned (p : Mapping) : Prop where
  va : p.va.toNat % 1024 = 0
  paPage : p.paPage.toNat % 1024 = 0

theorem toNat_and_fffffc00 (a : Word) : (a &&& 0xFFFFFC00#32).toNat = a.toNat / 2 ^ 10 * 2 ^ 10 :=
  toNat_and_highMask (a := a) (k := 10)

theorem add_quarter_blockAligned {x sz : Word} (hx : x.toNat % 1024 = 0)
    (hsz : (sz / 4#32).toNat % 1024 = 0) (quarter : BitVec 2) :
    (x + quarter.setWidth 32 * (sz / 4#32)).toNat % 1024 = 0 := by
  obtain ⟨n, hn⟩ : 1024 ∣ (sz / 4#32).toNat := Nat.dvd_of_mod_eq_zero hsz
  rw [toNat_add, toNat_mul, hn, Nat.mul_left_comm]
  omega

theorem pageMapping_blockAligned {va paPage sz : Word} (hva : va.toNat % 1024 = 0)
    (hpa : paPage.toNat % 1024 = 0) (hsz : (sz / 4#32).toNat % 1024 = 0) (t : Word)
    (quarter : BitVec 2) (texPage : Bool) (dom : BitVec 4) :
    (pageMapping va paPage sz t quarter texPage dom).BlockAligned := by
  unfold pageMapping
  split
  · exact ⟨hva, hpa⟩
  · exact ⟨add_quarter_blockAligned hva hsz quarter, add_quarter_blockAligned hpa hsz quarter⟩

theorem pageDescriptor_blockAligned {xscale coarse : Bool} {adr t : Word} {dom : BitVec 4} {p : Mapping}
    (h : pageDescriptor xscale coarse adr t dom = .ok p) : p.BlockAligned := by
  have h4k : ∀ x : Word, (x &&& 0xFFFFF000#32).toNat % 1024 = 0 := by
    intro x
    rw [toNat_and_fffff000]
    omega
  have h64k : ∀ x : Word, (x &&& 0xFFFF0000#32).toNat % 1024 = 0 := by
    intro x
    rw [toNat_and_ffff0000]
    omega
  unfold pageDescriptor at h
  split at h
  · cases h
  split at h
  · cases h
    exact pageMapping_blockAligned (h64k _) (h64k _) (by decide) _ _ _ _
  split at h
  · cases h
    exact pageMapping_blockAligned (h4k _) (h4k _) (by decide) _ _ _ _
  split at h
  · split at h
    · cases h
      exact pageMapping_blockAligned (h4k _) (h4k _) (by decide) _ _ _ _
    · cases h
  · cases h
    constructor
    all_goals
      simp only [tinyMapping, toNat_and_fffffc00]
      omega

theorem walk_blockAligned {mmu : ArmMmu} {adr : Word} {p : Mapping} (h : walk mmu adr = .ok p) :
    p.BlockAligned := by
  unfold walk at h
  split at h
  · cases h
  cases hd : mmu.mem (firstLevelSlot mmu adr) with
  | none => simp [hd] at h
  | some d =>
    simp only [hd, firstLevel] at h
    split at h
    · cases h
    split at h
    · obtain ⟨t, -, hpage⟩ := secondLevel_ok h
      exact pageDescriptor_blockAligned hpage
    split at h
    · cases h
      constructor
      all_goals
        simp only [sectionMapping, toNat_and_fff00000]
        omega
    · obtain ⟨t, -, hpage⟩ := secondLevel_ok h
      exact pageDescriptor_blockAligned hpage

theorem walk_aligned {mmu : ArmMmu} {adr : Word} {p : Mapping} (h : walk mmu adr = .ok p) :
    p.Aligned := by
  obtain ⟨hva, hpa⟩ := walk_blockAligned h
  constructor <;> omega

/-- What holds of the address in every entry, live or not. -/
def TlbHolds (P : Word → Prop) (mmu : ArmMmu) : Prop := ∀ i, P (mmu.tlb i).pa

/-- It holds of all addresses that a walk can fill the table with. -/
def Fills (P : Word → Prop) : Prop :=
  ∀ ⦃mmu : ArmMmu⦄ ⦃adr : Word⦄ ⦃p : Mapping⦄, walk mmu adr = .ok p →
    ∀ j, P (p.paPage + BitVec.ofNat 32 (j * 4096))

namespace TlbHolds

variable {P : Word → Prop} {mmu : ArmMmu}

theorem cacheMapping (h : TlbHolds P mmu) {p : Mapping}
    (hp : ∀ j, P (p.paPage + BitVec.ofNat 32 (j * 4096))) : TlbHolds P (cacheMapping mmu p) := by
  intro i
  unfold MMU.cacheMapping
  split
  · rcases fillTlb_cases mmu p (p.sz.toNat / 4096) i with ⟨j, -, -, he⟩ | he
    · simp only [he]
      exact hp j
    · simp only [he]
      exact h i
  · exact h i

theorem mmuTranslate (h : TlbHolds P mmu) (hfills : Fills P) (addr : Word)
    (priviledged write : Bool) : TlbHolds P (mmuTranslate mmu addr priviledged write).2 := by
  unfold MMU.mmuTranslate
  split
  · exact h
  · dsimp only
    split
    · unfold translateAndCache
      cases hwalk : walk mmu addr with
      | error fsr => exact h
      | ok p => exact h.cacheMapping (hfills hwalk)
    · exact h

theorem flush (h : TlbHolds P mmu) : TlbHolds P (mmuTlbFlush mmu) := by
  intro i
  unfold mmuTlbFlush
  split <;> exact h i

theorem step (h : TlbHolds P mmu) (hfills : Fills P) (op : Op) : TlbHolds P (step mmu op) := by
  cases op with
  | translate addr priviledged write => exact h.mmuTranslate hfills addr priviledged write
  | setDomainCfg val => exact h
  | tlbFlush => exact h.flush
  | setTTP ttp => exact h.flush
  | reset =>
    intro i
    simp only [MMU.step, mmuReset_tlb]
    exact h.flush i
  | store mem => exact h

theorem run (h : TlbHolds P mmu) (hfills : Fills P) (ops : List Op) : TlbHolds P (run mmu ops) := by
  induction ops generalizing mmu with
  | nil => exact h
  | cons op ops ih => exact ih (h.step hfills op)

end TlbHolds

/-- Every entry, live or not, holds a multiple of 32. -/
def TlbAligned (mmu : ArmMmu) : Prop := ∀ i, (mmu.tlb i).pa.toNat % 32 = 0

theorem fills_aligned : Fills fun pa => pa.toNat % 32 = 0 := by
  intro mmu adr p hwalk j
  have hpa := (walk_aligned hwalk).paPage
  rw [toNat_add, BitVec.toNat_ofNat]
  omega

theorem fills_blockAligned : Fills fun pa => pa.toNat % 1024 = 0 := by
  intro mmu adr p hwalk j
  have hpa := (walk_blockAligned hwalk).paPage
  rw [toNat_add, BitVec.toNat_ofNat]
  omega

theorem mmuInit_aligned (mem : Memory) (xscaleMode : Bool) : TlbAligned (mmuInit mem xscaleMode) :=
  fun _ => rfl

theorem TlbAligned.mmuTranslate {mmu : ArmMmu} (h : TlbAligned mmu) (addr : Word)
    (priviledged write : Bool) : TlbAligned (mmuTranslate mmu addr priviledged write).2 :=
  TlbHolds.mmuTranslate (P := fun pa => pa.toNat % 32 = 0) h fills_aligned addr priviledged write

theorem TlbAligned.step {mmu : ArmMmu} (h : TlbAligned mmu) (op : Op) : TlbAligned (step mmu op) :=
  TlbHolds.step (P := fun pa => pa.toNat % 32 = 0) h fills_aligned op

theorem toNat_line (a : Word) : (a &&& 0xFFFFFFE0#32).toNat = a.toNat / 2 ^ 5 * 2 ^ 5 :=
  toNat_and_highMask (a := a) (k := 5)

theorem toNat_lineOffset (a : Word) : (a &&& 0x1F#32).toNat = a.toNat % 2 ^ 5 := by
  exact Nat.and_two_pow_sub_one_eq_mod _ 5

theorem line_add_offset (a : Word) : (a &&& 0xFFFFFFE0#32) + (a &&& 0x1F#32) = a := by
  apply eq_of_toNat_eq
  rw [toNat_add, toNat_line, toNat_lineOffset]
  omega

theorem and_line_of_aligned {base : Word} (hbase : base.toNat % 32 = 0) (a : Word) :
    (base + (a &&& 0x1F#32)) &&& 0xFFFFFFE0#32 = base := by
  apply eq_of_toNat_eq
  rw [toNat_line, toNat_add, toNat_lineOffset]
  omega

theorem pageOffset_split (a pa : Word) :
    (a &&& 0xfff#32) + pa = ((a &&& 0xFE0#32) + pa) + (a &&& 0x1F#32) := by
  have hhigh : 0xfff#32 &&& 0xFFFFFFE0#32 = 0xFE0#32 := by decide
  have hlow : 0xfff#32 &&& 0x1F#32 = 0x1F#32 := by decide
  have hsplit := line_add_offset (a &&& 0xfff#32)
  rw [BitVec.and_assoc, BitVec.and_assoc, hhigh, hlow] at hsplit
  rw [← hsplit, add_right_comm]

theorem mapping_split (a va paPage : Word) :
    a - va + paPage = ((a &&& 0xFFFFFFE0#32) - va + paPage) + (a &&& 0x1F#32) := by
  conv_lhs => rw [← line_add_offset a]
  ring

def readTranslation (mmu : ArmMmu) (addr : Word) : Except Fsr (Word × Bool) :=
  if mmu.transTablPA = mmuDisabledTTP then .ok (addr, false)
  else
    let e := mmu.tlb (tlbIndex addr)
    if e.revision ≠ mmu.revision then
      (walk mmu addr).map fun p => ((addr - p.va) + p.paPage, p.c)
    else .ok ((addr &&& 0xfff#32) + e.pa, e.c)

def encodeTranslation : Except Fsr (Word × Bool) → MMUTranslateResult
  | .error fsr => translateResultFault fsr
  | .ok (pa, c) => translateResult pa c

theorem mmuTranslate_read (mmu : ArmMmu) (addr : Word) (priviledged : Bool) :
    (mmuTranslate mmu addr priviledged false).1 = encodeTranslation (readTranslation mmu addr) := by
  unfold mmuTranslate readTranslation
  split
  · rfl
  · dsimp only
    split
    · unfold translateAndCache
      cases walk mmu addr with
      | error fsr => rfl
      | ok p => simp [Except.map, encodeTranslation, translated]
    · rfl

theorem readTranslation_line {mmu : ArmMmu} (hal : TlbAligned mmu) {a b : Word}
    (h : b >>> 5 = a >>> 5) :
    readTranslation mmu b = (readTranslation mmu a).map fun r =>
      ((r.1 &&& 0xFFFFFFE0#32) + (b &&& 0x1F#32), r.2) := by
  have hline : b &&& 0xFFFFFFE0#32 = a &&& 0xFFFFFFE0#32 := and_eq_of_shiftRight_eq h (by decide)
  have hidx : tlbIndex b = tlbIndex a := by
    simp [tlbIndex, shiftRight_eq_of_le h (by decide : 5 ≤ 12)]
  by_cases hoff : mmu.transTablPA = mmuDisabledTTP
  · simp [readTranslation, if_pos hoff, Except.map, ← hline, line_add_offset b]
  by_cases hmiss : (mmu.tlb (tlbIndex a)).revision ≠ mmu.revision
  · have hwalk := walk_congr (shiftRight_eq_of_le h (by decide : 5 ≤ 10)) mmu
    simp only [readTranslation, if_neg hoff, hidx, if_pos hmiss, hwalk]
    cases hp : walk mmu a with
    | error fsr => rfl
    | ok p =>
      have hbase : ((a &&& 0xFFFFFFE0#32) - p.va + p.paPage).toNat % 32 = 0 := by
        have hva := (walk_aligned hp).va
        have hpa := (walk_aligned hp).paPage
        rw [toNat_add, toNat_sub, toNat_line]
        omega
      simp only [Except.map]
      rw [mapping_split b, mapping_split a, and_line_of_aligned hbase, hline]
  · have hpage : b &&& 0xFE0#32 = a &&& 0xFE0#32 := and_eq_of_shiftRight_eq h (by decide)
    have hbase : ((a &&& 0xFE0#32) + (mmu.tlb (tlbIndex a)).pa).toNat % 32 = 0 := by
      have hmask : (a &&& 0xFE0#32).toNat % 2 ^ 5 = 0 := by
        rw [toNat_and, Nat.and_mod_two_pow]
        simp
      have hpa := hal (tlbIndex a)
      rw [toNat_add]
      omega
    simp only [readTranslation, if_neg hoff, hidx, if_neg hmiss, Except.map]
    rw [pageOffset_split b, pageOffset_split a, and_line_of_aligned hbase, hpage]

theorem translateResult_ok (pa : Word) (c : Bool) :
    mmuTranslateResultOk (translateResult pa c) = true := by
  rw [mmuTranslateResultOk, decide_eq_true_eq, BitTest.and_bit_eq_zero (by decide)]
  cases c <;> simp [translateResult]

theorem translateResult_cacheable (pa : Word) (c : Bool) :
    mmuTranslateResultCacheable (translateResult pa c) = c := by
  rw [mmuTranslateResultCacheable, Bool.eq_iff_iff, decide_eq_true_eq, Ne, BitTest.and_bit_eq_zero (by decide)]
  cases c <;> simp [translateResult]

theorem translateResult_pa (pa : Word) (c : Bool) :
    mmuTranslateResultPa (translateResult pa c) = pa := by
  apply eq_of_getLsbD_eq
  intro i hi
  cases c <;> simp [mmuTranslateResultPa, translateResult, hi]

theorem translateResultFault_ok (fsr : Fsr) :
    mmuTranslateResultOk (translateResultFault fsr) = false := by
  rw [mmuTranslateResultOk, decide_eq_false_iff_not, BitTest.and_bit_eq_zero (by decide)]
  simp [translateResultFault]

end Cloudpilot.Uarm.MMU
