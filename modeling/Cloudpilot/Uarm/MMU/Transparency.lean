import Cloudpilot.Library.RevisionTable
import Cloudpilot.Library.Words
import Cloudpilot.Uarm.MMU.Translate

/-! # The table of cached translations is invisible

A walk that fills the table covers a whole aligned block, and every other walk in
that block gives the same mapping, provided the descriptors are replicated. So a
live entry always answers what a walk would. Translations of a disabled MMU do
not walk at all.
-/
namespace Cloudpilot.Uarm.MMU
open Cloudpilot.Uarm.Cpu Cloudpilot.Library Cloudpilot.Library.AlignedBlock BitVec Nat

theorem toNat_and_fff00000 (a : Word) : (a &&& 0xFFF00000#32).toNat = a.toNat / 2 ^ 20 * 2 ^ 20 :=
  toNat_and_highMask (a := a) (k := 20)

theorem toNat_and_ffff0000 (a : Word) : (a &&& 0xFFFF0000#32).toNat = a.toNat / 2 ^ 16 * 2 ^ 16 :=
  toNat_and_highMask (a := a) (k := 16)

theorem toNat_and_fffff000 (a : Word) : (a &&& 0xFFFFF000#32).toNat = a.toNat / 2 ^ 12 * 2 ^ 12 :=
  toNat_and_highMask (a := a) (k := 12)

/-- The mapping is that of the aligned block of `2 ^ k` bytes around the address. -/
structure BlockOf (k : ℕ) (adr : Word) (p : Mapping) : Prop where
  size : k = 12 ∨ k = 14 ∨ k = 16 ∨ k = 20
  sz : p.sz.toNat = 2 ^ k
  va : p.va.toNat = adr.toNat / 2 ^ k * 2 ^ k

theorem sectionMapping_block (adr t : Word) (dom : BitVec 4) :
    BlockOf 20 adr (sectionMapping adr t dom) := by
  refine ⟨by simp, rfl, ?_⟩
  exact toNat_and_fff00000 adr

theorem sectionMapping_congr {a b : Word} (h : b >>> 20 = a >>> 20) (t : Word) (dom : BitVec 4) :
    sectionMapping b t dom = sectionMapping a t dom := by
  have hva : b &&& 0xFFF00000#32 = a &&& 0xFFF00000#32 := and_eq_of_shiftRight_eq h (by decide)
  simp [sectionMapping, hva]

theorem quarter_va (adr : Word) :
    ((adr &&& 0xFFFF0000#32) + (((adr >>> 14) &&& 3#32).setWidth 2).setWidth 32 * (65536#32 / 4#32)).toNat =
      adr.toNat / 2 ^ 14 * 2 ^ 14 := by
  have hq : ((((adr >>> 14) &&& 3#32).setWidth 2).setWidth 32 : Word).toNat = adr.toNat / 2 ^ 14 % 4 := by
    have hmask : ((adr >>> 14) &&& 3#32).toNat = adr.toNat / 2 ^ 14 % 4 := by
      rw [toNat_and, toNat_ushiftRight, shiftRight_eq_div_pow]
      exact and_two_pow_sub_one_eq_mod _ 2
    simp only [toNat_setWidth, ofNat_eq_ofNat, hmask]
    omega
  have hsz : (65536#32 / 4#32).toNat = 16384 := by decide
  rw [toNat_add, toNat_mul, hq, hsz, toNat_and_ffff0000]
  omega

theorem largePageMapping_block (adr t : Word) (dom : BitVec 4) :
    BlockOf (if sameAps t then 16 else 14) adr (largePageMapping adr t dom) := by
  by_cases hs : sameAps t = true
  · simp only [largePageMapping, pageMapping, hs, Bool.or_true, if_true]
    exact ⟨by simp, rfl, toNat_and_ffff0000 adr⟩
  · simp only [largePageMapping, pageMapping, hs, Bool.or_false, Bool.false_eq_true, if_false]
    exact ⟨by simp, rfl, quarter_va adr⟩

theorem largePageMapping_congr {a b t : Word}
    (h : b >>> (if sameAps t then 16 else 14) = a >>> (if sameAps t then 16 else 14))
    (dom : BitVec 4) : largePageMapping b t dom = largePageMapping a t dom := by
  by_cases hs : sameAps t = true
  · rw [if_pos hs] at h
    have hva : b &&& 0xFFFF0000#32 = a &&& 0xFFFF0000#32 := and_eq_of_shiftRight_eq h (by decide)
    simp [largePageMapping, pageMapping, hs, hva]
  · rw [if_neg hs] at h
    have hva : b &&& 0xFFFF0000#32 = a &&& 0xFFFF0000#32 :=
      and_eq_of_shiftRight_eq (shiftRight_eq_of_le h (by decide : 14 ≤ 16)) (by decide)
    simp [largePageMapping, hva, h]

variable {adr : Word}

theorem smallPageMapping_block {t : Word} {dom : BitVec 4}
    (hsz : 1024 < (smallPageMapping adr t dom).sz) : BlockOf 12 adr (smallPageMapping adr t dom) ∧
      ∀ b : Word, b >>> 12 = adr >>> 12 → smallPageMapping b t dom = smallPageMapping adr t dom := by
  by_cases hs : sameAps t = true
  · simp only [smallPageMapping, pageMapping, hs, Bool.or_true, if_true]
    refine ⟨⟨by simp, rfl, toNat_and_fffff000 adr⟩, ?_⟩
    intro b hb
    have hva : b &&& 0xFFFFF000#32 = adr &&& 0xFFFFF000#32 := and_eq_of_shiftRight_eq hb (by decide)
    rw [hva]
  · simp only [smallPageMapping, pageMapping, hs, Bool.or_false, Bool.false_eq_true,
      if_false] at hsz
    exact absurd hsz (by decide)

theorem texPageMapping_block (adr t : Word) (dom : BitVec 4) :
    BlockOf 12 adr (texPageMapping adr t dom) := by
  exact ⟨by simp, rfl, toNat_and_fffff000 adr⟩

theorem texPageMapping_congr {a b : Word} (h : b >>> 12 = a >>> 12) (t : Word) (dom : BitVec 4) :
    texPageMapping b t dom = texPageMapping a t dom := by
  have hva : b &&& 0xFFFFF000#32 = a &&& 0xFFFFF000#32 := and_eq_of_shiftRight_eq h (by decide)
  simp [texPageMapping, hva]

theorem pageDescriptor_block {xscale coarse : Bool} {t : Word} {dom : BitVec 4} {p : Mapping}
    (h : pageDescriptor xscale coarse adr t dom = .ok p) (hsz : 1024 < p.sz) :
    ∃ k, BlockOf k adr p ∧
      (t &&& 3#32 = 1 ∧ k ≤ 16 ∨ (t &&& 3#32 = 2 ∨ coarse = true) ∧ k = 12) ∧
      ∀ b : Word, b >>> k = adr >>> k → pageDescriptor xscale coarse b t dom = .ok p := by
  by_cases h0 : t &&& 3#32 = 0
  · simp [pageDescriptor, h0] at h
  by_cases h1 : t &&& 3#32 = 1
  · have heq : ∀ b : Word, pageDescriptor xscale coarse b t dom = .ok (largePageMapping b t dom) := by
      intro b
      rw [pageDescriptor, if_neg h0, if_pos h1]
    rw [heq, Except.ok.injEq] at h
    subst h
    refine ⟨_, largePageMapping_block adr t dom, Or.inl ⟨h1, ?_⟩, ?_⟩
    · grind
    · intro b hb
      rw [heq, largePageMapping_congr hb]
  by_cases h2 : t &&& 3#32 = 2
  · have heq : ∀ b : Word, pageDescriptor xscale coarse b t dom = .ok (smallPageMapping b t dom) := by
      intro b
      rw [pageDescriptor, if_neg h0, if_neg h1, if_pos h2]
    rw [heq, Except.ok.injEq] at h
    subst h
    obtain ⟨hblock, hcongr⟩ := smallPageMapping_block hsz
    refine ⟨12, hblock, Or.inr ⟨Or.inl h2, rfl⟩, ?_⟩
    intro b hb
    rw [heq, hcongr b hb]
  rw [pageDescriptor, if_neg h0, if_neg h1, if_neg h2] at h
  cases coarse with
  | true =>
    cases xscale with
    | true =>
      have heq : ∀ b : Word, pageDescriptor true true b t dom = .ok (texPageMapping b t dom) := by
        intro b
        rw [pageDescriptor, if_neg h0, if_neg h1, if_neg h2]
        rfl
      cases h
      refine ⟨12, texPageMapping_block adr t dom, Or.inr ⟨Or.inr rfl, rfl⟩, ?_⟩
      intro b hb
      rw [heq, texPageMapping_congr hb]
    | false => cases h
  | false =>
    cases h
    exact absurd hsz (BitVec.lt_irrefl _)

theorem firstLevelSlot_congr {a b : Word} (h : b >>> 20 = a >>> 20) (mmu : ArmMmu) :
    firstLevelSlot mmu b = firstLevelSlot mmu a := by
  have hva : b &&& 0xFFF00000#32 = a &&& 0xFFF00000#32 := and_eq_of_shiftRight_eq h (by decide)
  simp [firstLevelSlot, hva]

theorem coarseSlot_congr {a b : Word} (h : b >>> 12 = a >>> 12) (t : Word) :
    coarseSlot t b = coarseSlot t a := by
  have hva : b &&& 0x000FF000#32 = a &&& 0x000FF000#32 := and_eq_of_shiftRight_eq h (by decide)
  simp [coarseSlot, hva]

variable {mmu : ArmMmu}

theorem secondLevel_ok {coarse : Bool} {slot : Word} {dom : BitVec 4} {p : Mapping}
    (h : secondLevel mmu coarse slot adr dom = .ok p) :
    ∃ t, mmu.mem slot = some t ∧ pageDescriptor mmu.xscale coarse adr t dom = .ok p := by
  cases hmem : mmu.mem slot with
  | none => simp [secondLevel, hmem] at h
  | some t => exact ⟨t, rfl, by simpa only [secondLevel, hmem] using h⟩

theorem secondLevel_of_mem {coarse : Bool} {slot t : Word} (h : mmu.mem slot = some t) (adr : Word)
    (dom : BitVec 4) :
    secondLevel mmu coarse slot adr dom = pageDescriptor mmu.xscale coarse adr t dom := by
  simp [secondLevel, h]

/-- The slot of a second level descriptor, when the first level descriptor `d` names a table. -/
def tableSlot (d adr : Word) : Word := if d &&& 3#32 = 1 then coarseSlot d adr else fineSlot d adr

theorem pageTableEntry_eq {d : Word} (hd : mmu.mem (firstLevelSlot mmu adr) = some d)
    (htable : d &&& 3#32 = 1 ∨ d &&& 3#32 = 3) :
    pageTableEntry mmu adr = mmu.mem (tableSlot d adr) := by
  rcases htable with h | h <;> simp [pageTableEntry, hd, tableSlot, h]

theorem firstLevel_eq {d : Word} (htable : d &&& 3#32 = 1 ∨ d &&& 3#32 = 3) :
    firstLevel mmu adr d = secondLevel mmu (d &&& 3#32 = 1) (tableSlot d adr) adr
      (((d >>> 5) &&& 0x0F#32).setWidth 4) := by
  rcases htable with h | h <;> simp [firstLevel, tableSlot, h]

theorem and_three_cases (d : Word) :
    d &&& 3#32 = 0 ∨ d &&& 3#32 = 1 ∨ d &&& 3#32 = 2 ∨ d &&& 3#32 = 3 := by
  have hlt : (d &&& 3#32).toNat < 4 := by
    exact lt_of_le_of_lt and_le_right (by decide)
  have hcases : (d &&& 3#32).toNat = 0 ∨ (d &&& 3#32).toNat = 1 ∨ (d &&& 3#32).toNat = 2 ∨
      (d &&& 3#32).toNat = 3 := by omega
  rcases hcases with h | h | h | h
  · exact Or.inl (eq_of_toNat_eq h)
  · exact Or.inr (Or.inl (eq_of_toNat_eq h))
  · exact Or.inr (Or.inr (Or.inl (eq_of_toNat_eq h)))
  · exact Or.inr (Or.inr (Or.inr (eq_of_toNat_eq h)))

theorem walk_table_block (hrep : Replicated mmu) {d : Word} {p : Mapping}
    (hd : mmu.mem (firstLevelSlot mmu adr) = some d) (htable : d &&& 3#32 = 1 ∨ d &&& 3#32 = 3)
    (h : firstLevel mmu adr d = .ok p) (hsz : 1024 < p.sz) : ∃ k, BlockOf k adr p ∧ k ≤ 16 ∧
      ∀ b : Word, b >>> k = adr >>> k → firstLevel mmu b d = .ok p := by
  rw [firstLevel_eq htable] at h
  obtain ⟨t, hmem, hpage⟩ := secondLevel_ok h
  obtain ⟨k, hblock, hkind, hcongr⟩ := pageDescriptor_block hpage hsz
  have hentry : pageTableEntry mmu adr = some t := by rw [pageTableEntry_eq hd htable, hmem]
  have hk : k ≤ 16 := by omega
  refine ⟨k, hblock, hk, ?_⟩
  intro b hb
  have hdb : mmu.mem (firstLevelSlot mmu b) = some d := by
    rw [firstLevelSlot_congr (shiftRight_eq_of_le hb (by omega)), hd]
  have hslot : mmu.mem (tableSlot d b) = some t := by
    rcases hkind with ⟨hlarge, -⟩ | ⟨hsmall | hcoarse, rfl⟩
    · rw [← pageTableEntry_eq hdb htable]
      exact (hrep adr b t hentry).1 hlarge (shiftRight_eq_of_le hb hk).symm
    · rw [← pageTableEntry_eq hdb htable]
      exact (hrep adr b t hentry).2 hsmall hb.symm
    · simp only [decide_eq_true_eq] at hcoarse
      simp only [tableSlot, if_pos hcoarse] at hmem ⊢
      rw [coarseSlot_congr hb, hmem]
  rw [firstLevel_eq htable, secondLevel_of_mem hslot, hcongr b hb]

theorem walk_block (hrep : Replicated mmu) {p : Mapping} (h : walk mmu adr = .ok p)
    (hsz : 1024 < p.sz) :
    ∃ k, BlockOf k adr p ∧ ∀ b : Word, b >>> k = adr >>> k → walk mmu b = .ok p := by
  by_cases halign : mmu.transTablPA &&& 3#32 ≠ 0
  · rw [walk, if_pos halign] at h
    cases h
  cases hd : mmu.mem (firstLevelSlot mmu adr) with
  | none =>
    rw [walk, if_neg halign, hd] at h
    cases h
  | some d =>
    have hwalk : ∀ b : Word, b >>> 20 = adr >>> 20 → walk mmu b = firstLevel mmu b d := by
      intro b hb
      rw [walk, if_neg halign, firstLevelSlot_congr hb, hd]
    rw [hwalk adr rfl] at h
    have hcases := and_three_cases d
    by_cases htable : d &&& 3#32 = 1 ∨ d &&& 3#32 = 3
    · obtain ⟨k, hblock, hk, hcongr⟩ := walk_table_block hrep hd htable h hsz
      refine ⟨k, hblock, ?_⟩
      intro b hb
      rw [hwalk b (shiftRight_eq_of_le hb (by omega)), hcongr b hb]
    · by_cases hsection : d &&& 3#32 = 2
      · have heq : ∀ b : Word, firstLevel mmu b d =
            .ok (sectionMapping b d (((d >>> 5) &&& 0x0F#32).setWidth 4)) := by
          simp [firstLevel, hsection]
        rw [heq, Except.ok.injEq] at h
        subst h
        refine ⟨20, sectionMapping_block adr d _, ?_⟩
        intro b hb
        rw [hwalk b hb, heq, sectionMapping_congr hb]
      · have hfault : d &&& 3#32 = 0 := by tauto
        simp [firstLevel, hfault] at h

theorem toNat_tlbIndex (adr : Word) : (tlbIndex adr).toNat = adr.toNat / 4096 := by
  rw [tlbIndex, toNat_setWidth, toNat_ushiftRight, shiftRight_eq_div_pow]
  omega

theorem toNat_and_fff (adr : Word) : (adr &&& 0xfff#32).toNat = adr.toNat % 4096 := by
  exact and_two_pow_sub_one_eq_mod _ 12

/-- The entry gives for the address what its walk gives. -/
def Serves (mmu : ArmMmu) (adr : Word) (e : TlbEntry) : Prop :=
  ∃ p, walk mmu adr = .ok p ∧ e.ap = p.ap ∧ e.domain = p.dom ∧ e.c = p.c ∧
    e.isSection = p.isSection ∧ (adr &&& 0xfff#32) + e.pa = (adr - p.va) + p.paPage

theorem fillTlb_cases (mmu : ArmMmu) (p : Mapping) (n : ℕ) (i : Page) :
    (∃ j < n, i = tlbIndex (p.va + BitVec.ofNat 32 (j * 4096)) ∧
      fillTlb mmu p n i = p.entry mmu.revision (BitVec.ofNat 32 (j * 4096))) ∨
    fillTlb mmu p n i = mmu.tlb i := by
  induction n with
  | zero => exact Or.inr rfl
  | succ n ih =>
    by_cases hi : i = tlbIndex (p.va + BitVec.ofNat 32 (n * 4096))
    · refine Or.inl ⟨n, lt_succ_self n, hi, ?_⟩
      rw [fillTlb, hi, Function.update_self]
    · rw [fillTlb, Function.update_of_ne hi]
      rcases ih with ⟨j, hj, hij, he⟩ | he
      · exact Or.inl ⟨j, lt_succ_of_lt hj, hij, he⟩
      · exact Or.inr he

/-- An address of the page that round `j` of the fill loop writes. -/
theorem block_address {k j : ℕ} {b : Word} {p : Mapping} (hblock : BlockOf k adr p)
    (hj : j < p.sz.toNat / 4096) (hb : tlbIndex b = tlbIndex (p.va + BitVec.ofNat 32 (j * 4096))) :
    b >>> k = adr >>> k ∧ b = p.va + (BitVec.ofNat 32 (j * 4096) + (b &&& 0xfff#32)) := by
  have hsz := hblock.sz
  have hva := hblock.va
  have hj4096 : j * 4096 < 2 ^ 32 := by omega
  have hpage : (p.va + BitVec.ofNat 32 (j * 4096)).toNat = p.va.toNat + j * 4096 := by
    rw [BitVec.toNat_add, BitVec.toNat_ofNat, mod_eq_of_lt hj4096]
    rcases hblock.size with rfl | rfl | rfl | rfl <;> omega
  have hidx : b.toNat / 4096 = (p.va.toNat + j * 4096) / 4096 := by
    rw [← hpage, ← toNat_tlbIndex, ← toNat_tlbIndex, hb]
  constructor
  · apply shiftRight_eq_of_toNat_div_eq
    rcases hblock.size with rfl | rfl | rfl | rfl <;> omega
  · apply BitVec.eq_of_toNat_eq
    rw [BitVec.toNat_add, BitVec.toNat_add, toNat_and_fff, BitVec.toNat_ofNat,
      mod_eq_of_lt hj4096]
    rcases hblock.size with rfl | rfl | rfl | rfl <;> omega

/-- What the fill loop writes serves every address of its page. -/
theorem serves_filled {k j : ℕ} {b : Word} {p : Mapping} (hblock : BlockOf k adr p)
    (hwalk : ∀ b : Word, b >>> k = adr >>> k → walk mmu b = .ok p) (hj : j < p.sz.toNat / 4096)
    (hb : tlbIndex b = tlbIndex (p.va + BitVec.ofNat 32 (j * 4096))) :
    Serves mmu b (p.entry mmu.revision (BitVec.ofNat 32 (j * 4096))) := by
  obtain ⟨hsame, hdecomp⟩ := block_address hblock hj hb
  refine ⟨p, hwalk b hsame, rfl, rfl, rfl, rfl, ?_⟩
  have hoffset : b - p.va = BitVec.ofNat 32 (j * 4096) + (b &&& 0xfff#32) := by
    rwa [sub_eq_iff_eq_add, add_comm]
  rw [hoffset]
  simp only [Mapping.entry]
  ring

/-- No entry is ahead of the revision, and the live ones serve their pages under the memory
of the last flush. -/
def TlbSound (mmu : ArmMmu) (flushed : Memory) : Prop :=
  RevisionTable.Sound (fun i => (mmu.tlb i).revision) mmu.revision fun i =>
    ∀ adr, tlbIndex adr = i → Serves { mmu with mem := flushed } adr (mmu.tlb i)

theorem serves_mem {flushed : Memory} (hsame : SameTables mmu flushed) {e : TlbEntry} :
    Serves { mmu with mem := flushed } adr e ↔ Serves mmu adr e := by
  simp [Serves, hsame adr]

theorem mmuTlbFlush_revision (mmu : ArmMmu) :
    (mmuTlbFlush mmu).revision = RevisionTable.nextRevision mmu.revision := by
  by_cases h : mmu.revision + 1#16 = 0#16 <;> simp [mmuTlbFlush, RevisionTable.nextRevision, h]

theorem mmuTlbFlush_tags (mmu : ArmMmu) :
    (fun i => ((mmuTlbFlush mmu).tlb i).revision) =
      RevisionTable.flushTags mmu.revision fun i => (mmu.tlb i).revision := by
  by_cases h : mmu.revision + 1#16 = 0#16 <;> simp [mmuTlbFlush, RevisionTable.flushTags, h]

theorem mmuReset_tlb (mmu : ArmMmu) : (mmuReset mmu).tlb = (mmuTlbFlush mmu).tlb := by
  by_cases h : mmu.revision + 1#16 = 0#16 <;> simp [mmuReset, mmuTlbFlush, h]

theorem mmuReset_revision (mmu : ArmMmu) : (mmuReset mmu).revision = (mmuTlbFlush mmu).revision := by
  simp [mmuReset, mmuTlbFlush_revision]

/-- A flush makes the table sound for whatever the memory and the table base have become. -/
theorem TlbSound.flush {mmu' : ArmMmu} {flushed flushed' : Memory} (h : TlbSound mmu flushed)
    (htlb : mmu'.tlb = (mmuTlbFlush mmu).tlb)
    (hrevision : mmu'.revision = (mmuTlbFlush mmu).revision) : TlbSound mmu' flushed' := by
  rw [TlbSound, htlb, hrevision, mmuTlbFlush_tags, mmuTlbFlush_revision]
  exact RevisionTable.Sound.flush h

theorem mmuInit_sound (mem : Memory) (xscaleMode : Bool) : TlbSound (mmuInit mem xscaleMode) mem := by
  have hrevision : (mmuInit mem xscaleMode).revision = 1#16 := rfl
  have htag : ∀ i, ((mmuInit mem xscaleMode).tlb i).revision = 0#16 := fun _ => rfl
  refine ⟨by simp [hrevision], by simp [htag], ?_⟩
  intro i hi
  simp [htag, hrevision] at hi

theorem TlbSound.cacheMapping {flushed : Memory} (h : TlbSound mmu flushed)
    (hsame : SameTables mmu flushed) (hrep : Replicated mmu) {p : Mapping}
    (hwalk : walk mmu adr = .ok p) : TlbSound (cacheMapping mmu p) flushed := by
  by_cases hsz : 1024 < p.sz
  · obtain ⟨k, hblock, hall⟩ := walk_block hrep hwalk hsz
    have heq : MMU.cacheMapping mmu p =
        { mmu with tlb := fillTlb mmu p (p.sz.toNat / 4096) } := if_pos hsz
    rw [heq]
    apply RevisionTable.Sound.change h
    intro i
    right
    rcases fillTlb_cases mmu p (p.sz.toNat / 4096) i with ⟨j, hj, hi, he⟩ | he
    · left
      refine ⟨by simp only [he, Mapping.entry], ?_⟩
      intro b hb
      simp only [he]
      have hserves := serves_filled hblock hall hj (hb.trans hi)
      exact (serves_mem hsame).mpr hserves
    · right
      simp only [he]
      exact ⟨trivial, fun _ hserves b hb => hserves b hb⟩
  · have heq : MMU.cacheMapping mmu p = mmu := if_neg hsz
    rwa [heq]

theorem TlbSound.mmuTranslate {flushed : Memory} (h : TlbSound mmu flushed)
    (hquiet : mmuIsOn mmu = true → SameTables mmu flushed ∧ Replicated mmu) (addr : Word)
    (priviledged write : Bool) : TlbSound (mmuTranslate mmu addr priviledged write).2 flushed := by
  by_cases hoff : mmu.transTablPA = mmuDisabledTTP
  · grind [MMU.mmuTranslate]
  · obtain ⟨hsame, hrep⟩ := hquiet (by simp [mmuIsOn, hoff])
    by_cases hmiss : (mmu.tlb (tlbIndex addr)).revision ≠ mmu.revision
    · simp only [MMU.mmuTranslate, if_neg hoff, if_pos hmiss, translateAndCache]
      cases hwalk : walk mmu addr with
      | error fsr => exact h
      | ok p => exact h.cacheMapping hsame hrep hwalk
    · simpa only [MMU.mmuTranslate, if_neg hoff, if_neg hmiss] using h

theorem mmuTranslate_result {flushed : Memory} (h : TlbSound mmu flushed)
    (hquiet : mmuIsOn mmu = true → SameTables mmu flushed ∧ Replicated mmu) (addr : Word)
    (priviledged write : Bool) : (mmuTranslate mmu addr priviledged write).1 =
      if mmuIsOn mmu then (translateAndCache mmu addr priviledged write).1
      else addr.setWidth 64 := by
  by_cases hoff : mmu.transTablPA = mmuDisabledTTP
  · simp [mmuTranslate, mmuIsOn, hoff]
  · have hon : mmuIsOn mmu = true := by simp [mmuIsOn, hoff]
    rw [if_pos hon]
    by_cases hmiss : (mmu.tlb (tlbIndex addr)).revision ≠ mmu.revision
    · grind [mmuTranslate]
    · have hlive := h.live (tlbIndex addr) (not_not.mp hmiss) addr rfl
      obtain ⟨p, hwalk, hap, hdom, hc, hsection, hpa⟩ := (serves_mem (hquiet hon).1).mp hlive
      simp only [mmuTranslate, if_neg hoff, if_neg hmiss, translateAndCache, hwalk, hap, hdom, hc,
        hsection, hpa]

theorem step_sound {flushed : Memory} (h : TlbSound mmu flushed) {op : Op} {ops : List Op}
    (hquiet : Quiet mmu flushed (op :: ops)) :
    TlbSound (step mmu op) (if op.flushes then mmu.mem else flushed) := by
  cases op with
  | translate addr priviledged write => exact h.mmuTranslate hquiet.1 addr priviledged write
  | setDomainCfg val => exact h
  | tlbFlush => exact h.flush rfl rfl
  | setTTP ttp => exact h.flush rfl rfl
  | reset => exact h.flush (mmuReset_tlb mmu) (mmuReset_revision mmu)
  | store mem => exact h

theorem run_sound {flushed : Memory} (h : TlbSound mmu flushed) {done rest : List Op}
    (hquiet : Quiet mmu flushed (done ++ rest)) :
    ∃ flushed', TlbSound (run mmu done) flushed' ∧ Quiet (run mmu done) flushed' rest := by
  induction done generalizing mmu flushed with
  | nil => exact ⟨flushed, h, hquiet⟩
  | cons op ops ih => exact ih (step_sound h hquiet) hquiet.2

/-- Every translation of a quiet run gives the result of the uncached walk on the tables and
domains of that moment; a disabled MMU returns the address. -/
theorem run_translate (mem : Memory) (xscaleMode : Bool) (done rest : List Op) (addr : Word)
    (priviledged write : Bool)
    (hquiet : Quiet (mmuInit mem xscaleMode) mem
      (done ++ .translate addr priviledged write :: rest)) :
    let mmu := run (mmuInit mem xscaleMode) done
    (mmuTranslate mmu addr priviledged write).1 =
      if mmuIsOn mmu then (translateAndCache mmu addr priviledged write).1
      else addr.setWidth 64 := by
  obtain ⟨flushed', hsound, hrest⟩ := run_sound (mmuInit_sound mem xscaleMode) hquiet
  exact mmuTranslate_result hsound hrest.1 addr priviledged write

theorem mmuTlbFlush_mem (mmu : ArmMmu) : (mmuTlbFlush mmu).mem = mmu.mem := by
  unfold mmuTlbFlush
  split <;> rfl

theorem mmuTranslate_state (mmu : ArmMmu) (addr : Word) (priviledged write : Bool) :
    ∃ tlb, (mmuTranslate mmu addr priviledged write).2 = { mmu with tlb } := by
  unfold mmuTranslate translateAndCache cacheMapping
  split
  · grind
  · dsimp only
    split
    · split
      · grind
      · split
        · exact ⟨_, rfl⟩
        · exact ⟨mmu.tlb, rfl⟩
    · grind

theorem quiet_of_no_store {mem : Memory} (hrep : ∀ mmu : ArmMmu, mmu.mem = mem → Replicated mmu)
    {ops : List Op} (hops : ∀ mem', Op.store mem' ∉ ops) (hmem : mmu.mem = mem) :
    Quiet mmu mem ops := by
  induction ops generalizing mmu with
  | nil => trivial
  | cons op ops ih =>
    have hstep : (step mmu op).mem = mem := by
      cases op with
      | translate addr priviledged write =>
        obtain ⟨tlb, hstate⟩ := mmuTranslate_state mmu addr priviledged write
        simp [step, hstate, hmem]
      | setDomainCfg val => exact hmem
      | tlbFlush => exact (mmuTlbFlush_mem mmu).trans hmem
      | setTTP ttp => exact (mmuTlbFlush_mem mmu).trans hmem
      | reset => exact (mmuTlbFlush_mem _).trans hmem
      | store mem' => exact absurd List.mem_cons_self (hops mem')
    subst hmem
    constructor
    · cases op with
      | translate addr priviledged write => exact fun _ => ⟨fun _ => rfl, hrep mmu rfl⟩
      | setDomainCfg val => trivial
      | tlbFlush => trivial
      | setTTP ttp => trivial
      | reset => trivial
      | store mem' => trivial
    · grind

theorem replicated_largePages (h : mmu.mem = fun _ => some 0x8FF9) : Replicated mmu := by
  have hentry : ∀ adr, pageTableEntry mmu adr = some 0x8FF9 := by
    simp [pageTableEntry, h]
  intro a b t ht
  rw [hentry] at ht ⊢
  exact ⟨fun _ _ => ht, fun _ _ => ht⟩

/-- A hit after a change of the domains, and the address that a live large page gives. -/
theorem run_translate_largePage :
    let mmu := run (mmuInit (fun _ => some 0x8FF9) true)
      [.setTTP 0x4000, .translate 0x12345678 true false, .setDomainCfg 0x40000000]
    (mmuTranslate mmu 0x12346678 false true).1 =
      if mmuIsOn mmu then (translateAndCache mmu 0x12346678 false true).1
      else BitVec.setWidth 64 0x12346678#32 :=
  run_translate (fun _ => some 0x8FF9) true
    [.setTTP 0x4000, .translate 0x12345678 true false, .setDomainCfg 0x40000000] []
    0x12346678 false true
    (quiet_of_no_store (fun _ h => replicated_largePages h) (by simp) rfl)

/-- With the MMU off a walk would fault on the disabled table base, and is not made. -/
theorem disabled_translate_ne_walk :
    ¬ ∀ (mem : Memory) (xscaleMode : Bool) (done rest : List Op) (addr : Word)
      (priviledged write : Bool),
      Quiet (mmuInit mem xscaleMode) mem (done ++ .translate addr priviledged write :: rest) →
      (mmuTranslate (run (mmuInit mem xscaleMode) done) addr priviledged write).1 =
        (translateAndCache (run (mmuInit mem xscaleMode) done) addr priviledged write).1 := by
  intro h
  have hoff : mmuIsOn (mmuInit (fun _ => none) false) = false := by decide
  have heq := h (fun _ => none) false [] [] 0 false false ⟨by simp [hoff], trivial⟩
  cases heq

end Cloudpilot.Uarm.MMU
