import Cloudpilot.Hardware.MemoryStick.Model

/-! # Geometry of the memory stick

The sizes that a stick accepts and the block map it gets when an image is mounted.
The number of segments is kept in a byte and checked after a further product modulo
2^16, so a large image can pass for one of the sizes that exist.
-/
namespace Cloudpilot.Hardware.Stick
open Cloudpilot.Library Cloudpilot.Common List

/-- The numbers of segments of a stick that exists. -/
def segmentCounts : List ℕ := [1, 2, 4, 8, 16]

/-- A stick that exists: one or two segments of 16 page blocks, or two to sixteen of 32 page
blocks. -/
def Representable (pagesTotal : ℕ) : Prop :=
  (∃ segments ∈ [1, 2], pagesTotal = (segments * 496 - 2) * 16) ∨
    ∃ segments ∈ [2, 4, 8, 16], pagesTotal = (segments * 496 - 2) * 32

/-- A larger image whose number of segments is that of a stick that exists modulo 128. -/
def Aliased (pagesTotal : ℕ) : Prop :=
  ∃ segments, 128 < segments ∧ segments % 128 ∈ segmentCounts ∧
    pagesTotal = (segments * 496 - 2) * 32

theorem determineLayoutWithBlockSize_eq_some_iff {pagesTotal pagesPerBlock : ℕ}
    (hpos : 0 < pagesPerBlock) {segments : Byte} :
    determineLayoutWithBlockSize pagesTotal pagesPerBlock = some segments ↔
      ∃ k, 0 < k ∧ pagesTotal = (k * 496 - 2) * pagesPerBlock ∧ k % 128 ∈ segmentCounts ∧
        segments = BitVec.ofNat 8 k := by
  have hcount : ∀ k : ℕ, BitVec.ofNat 16 ((BitVec.ofNat 8 k).toNat * 512) ∈
      [512#16, 1024#16, 2048#16, 4096#16, 8192#16] ↔ k % 128 ∈ segmentCounts := by
    simp [segmentCounts, ← BitVec.toNat_inj, BitVec.toNat_ofNat]
    omega
  simp only [determineLayoutWithBlockSize]
  constructor
  · intro h
    split_ifs at h with hpages hblocks hsegments
    have hexact := Nat.div_mul_cancel (Nat.dvd_of_mod_eq_zero (not_not.mp hpages))
    generalize pagesTotal / pagesPerBlock = blocks at *
    refine ⟨(blocks + 2) / 496, by omega, ?_, (hcount _).mp hsegments, (Option.some.inj h).symm⟩
    have hk : (blocks + 2) / 496 * 496 - 2 = blocks := by omega
    rw [hk, hexact]
  · rintro ⟨k, hk, rfl, hsegments, rfl⟩
    have hblocks : (k * 496 - 2) * pagesPerBlock / pagesPerBlock = k * 496 - 2 :=
      Nat.mul_div_cancel _ hpos
    have hcancel : k * 496 - 2 + 2 = k * 496 := by omega
    rw [Nat.mul_mod_left, if_neg (by simp), hblocks, hcancel, Nat.mul_mod_left,
      if_neg (by simp), Nat.mul_div_cancel _ (by decide), if_pos ((hcount k).mpr hsegments)]

theorem determineLayout_eq_some_iff {pagesTotal : ℕ} {layout : Layout} :
    determineLayout pagesTotal = some layout ↔
      (∃ k ∈ [1, 2], pagesTotal = (k * 496 - 2) * 16 ∧ layout = ⟨16#8, BitVec.ofNat 8 k⟩) ∨
        ∃ k, 1 < k ∧ k % 128 ∈ segmentCounts ∧ pagesTotal = (k * 496 - 2) * 32 ∧
          layout = ⟨32#8, BitVec.ofNat 8 k⟩ := by
  have hsixteen : ∀ {segments : Byte}, (if pagesTotal < 1024 * 16 then
      determineLayoutWithBlockSize pagesTotal 16 else none) = some segments ↔
      ∃ k ∈ [1, 2], pagesTotal = (k * 496 - 2) * 16 ∧ segments = BitVec.ofNat 8 k := by
    intro segments
    rw [Option.ite_none_right_eq_some, determineLayoutWithBlockSize_eq_some_iff (by decide)]
    constructor
    · grind
    · rintro ⟨k, hmem, hpages, hk⟩
      simp only [mem_cons, not_mem_nil, or_false] at hmem
      refine ⟨by omega, k, by omega, hpages, ?_, hk⟩
      rcases hmem with rfl | rfl <;> decide
  simp only [determineLayout]
  cases hsmall : (if pagesTotal < 1024 * 16 then
      determineLayoutWithBlockSize pagesTotal 16 else none) with
  | some segments =>
    obtain ⟨k, hmem, hpages, rfl⟩ := hsixteen.mp hsmall
    constructor
    · intro h
      exact Or.inl ⟨k, by simpa using hmem, hpages, (Option.some.inj h).symm⟩
    · rintro (⟨k', hmem', hpages', rfl⟩ | ⟨k', hlt, -, hpages', -⟩)
      · have hk : k' = k := by omega
        rw [hk]
      · omega
  | none =>
    have hno : ¬ ∃ k ∈ [1, 2], pagesTotal = (k * 496 - 2) * 16 ∧
        layout = ⟨16#8, BitVec.ofNat 8 k⟩ := by
      rintro ⟨k, hmem, hpages, -⟩
      have hsome := hsixteen.mpr ⟨k, hmem, hpages, rfl⟩
      rw [hsmall] at hsome
      cases hsome
    simp only [hno, false_or]
    rw [Option.ite_none_right_eq_some, Option.map_eq_some_iff]
    constructor
    · rintro ⟨hlt, segments, hlayout, rfl⟩
      obtain ⟨k, hpos, hpages, hcount, rfl⟩ :=
        (determineLayoutWithBlockSize_eq_some_iff (by decide)).mp hlayout
      exact ⟨k, by omega, hcount, hpages, rfl⟩
    · rintro ⟨k, hlt, hcount, hpages, rfl⟩
      exact ⟨by omega, BitVec.ofNat 8 k,
        (determineLayoutWithBlockSize_eq_some_iff (by decide)).mpr
          ⟨k, by omega, hpages, hcount, rfl⟩, rfl⟩

theorem isSizeRepresentable_iff (pagesTotal : ℕ) :
    isSizeRepresentable pagesTotal = true ↔ Representable pagesTotal ∨ Aliased pagesTotal := by
  rw [isSizeRepresentable, Option.isSome_iff_exists]
  simp only [determineLayout_eq_some_iff]
  constructor
  · rintro ⟨layout, ⟨k, hmem, hpages, -⟩ | ⟨k, hlt, hcount, hpages, -⟩⟩
    · exact Or.inl (Or.inl ⟨k, hmem, hpages⟩)
    · by_cases hlarge : 128 < k
      · exact Or.inr ⟨k, hlarge, hcount, hpages⟩
      · refine Or.inl (Or.inr ⟨k, ?_, hpages⟩)
        simp only [segmentCounts, mem_cons, not_mem_nil, or_false] at hcount ⊢
        omega
  · rintro ((⟨k, hmem, hpages⟩ | ⟨k, hmem, hpages⟩) | ⟨k, hlarge, hcount, hpages⟩)
    · grind
    · refine ⟨_, Or.inr ⟨k, ?_, ?_, hpages, rfl⟩⟩
      all_goals
        simp only [segmentCounts, mem_cons, not_mem_nil, or_false] at hmem ⊢
        omega
    · exact ⟨_, Or.inr ⟨k, by omega, hcount, hpages, rfl⟩⟩

theorem not_representable_of_aliased {pagesTotal : ℕ} (h : Aliased pagesTotal) :
    ¬ Representable pagesTotal := by
  obtain ⟨k, hlarge, -, hpages⟩ := h
  rintro (⟨j, hmem, hpages'⟩ | ⟨j, hmem, hpages'⟩)
  all_goals
    simp only [mem_cons, not_mem_nil, or_false] at hmem
    omega

def physicalBlock (logicalBlock : ℕ) : ℕ :=
  (logicalBlock + 2) / 496 * 512 + (logicalBlock + 2) % 496

theorem physicalBlock_injective : Function.Injective physicalBlock := by
  intro a b h
  simp only [physicalBlock] at h
  omega

theorem segment_or_block {segment block : ℕ} (hblock : block < 512) :
    segment <<< 9 ||| block = segment * 512 + block := by
  rw [Nat.shiftLeft_eq, Nat.mul_comm, ← Nat.two_pow_add_eq_or_of_lt (i := 9) hblock]

theorem mountSegment_eq (segment first : ℕ) (hfirst : first = if segment = 0 then 2 else 0) :
    (List.range' first (496 - first)).map (fun block => segment <<< 9 ||| block) =
      (List.range (496 - first)).map fun block => physicalBlock (segment * 496 - 2 + block) := by
  rw [range'_eq_map_range, map_map]
  apply map_congr_left
  intro block hblock
  have hlt : block < 496 - first := List.mem_range.mp hblock
  rw [Function.comp_apply, segment_or_block (by omega), physicalBlock]
  split_ifs at hfirst with hzero <;> omega

/-- The loop visits the physical blocks in the order of the logical ones. -/
theorem mountOrder_eq (segments : ℕ) :
    mountOrder segments = (List.range (segments * 496 - 2)).map physicalBlock := by
  induction segments with
  | zero => rfl
  | succ segments ih =>
    have hsum : (segments + 1) * 496 - 2 =
        (segments * 496 - 2) + (496 - if segments = 0 then 2 else 0) := by grind
    rw [mountOrder, range_succ, flatMap_append, ← mountOrder, ih,
      flatMap_singleton, mountSegment_eq segments _ rfl, hsum, range_add,
      map_append, map_map]
    rfl

/-- Filling the map along a list of entries: the entries get consecutive numbers, the others keep
their value. -/
theorem foldlM_mountBlock {physical : ℕ → ℕ} (hinj : Function.Injective physical)
    (map : ℕ → BitVec 16) (n : ℕ) (hbound : ∀ l < n, physical l < blockMapEntries) :
    ∃ map', ((List.range n).map physical).foldlM mountBlock (map, 0#16) =
        some (map', BitVec.ofNat 16 n) ∧
      (∀ l < n, map' (physical l) = BitVec.ofNat 16 l) ∧
      ∀ i, (∀ l < n, physical l ≠ i) → map' i = map i := by
  induction n with
  | zero => exact ⟨map, rfl, by simp, by simp⟩
  | succ n ih =>
    obtain ⟨map', hrun, hset, hrest⟩ := ih fun l hl => hbound l (by omega)
    refine ⟨Function.update map' (physical n) (BitVec.ofNat 16 n), ?_, ?_, ?_⟩
    · rw [range_succ, map_append, foldlM_append, hrun]
      simp only [map_cons, map_nil, Option.bind_eq_bind, Option.bind_some,
        foldlM_cons, foldlM_nil, mountBlock, if_pos (hbound n (by omega)),
        Option.pure_def, BitVec.ofNat_add]
    · intro l hl
      by_cases hn : l = n
      · simp [hn]
      · rw [Function.update_of_ne fun h => hn (hinj h)]
        exact hset l (by omega)
    · intro i hi
      rw [Function.update_of_ne (hi n (by omega)).symm]
      exact hrest i fun l hl => hi l (by omega)

/-- Mounting an image succeeds, and every logical block of it has exactly one physical block. -/
def MountSound (s : MemoryStick) (cardImage : CardImage) : Prop :=
  ∃ s', mount s cardImage = some s' ∧ s'.cardImage = some cardImage ∧
    ∀ logicalBlock, logicalBlock * s'.pagesPerBlock.toNat < cardImage.blocksTotal →
      ∃! b, b < blocksTotal s' ∧ (s'.blockMap b).toNat = logicalBlock

theorem Representable.layout {pagesTotal : ℕ} (h : Representable pagesTotal) :
    ∃ segments pagesPerBlock : ℕ, segments ≤ 16 ∧ 0 < pagesPerBlock ∧ pagesPerBlock ≤ 32 ∧
      pagesTotal = (segments * 496 - 2) * pagesPerBlock ∧
      determineLayout pagesTotal = some ⟨BitVec.ofNat 8 pagesPerBlock, BitVec.ofNat 8 segments⟩ := by
  rcases h with ⟨k, hmem, hpages⟩ | ⟨k, hmem, hpages⟩
  · have hk : k ≤ 16 := by grind
    exact ⟨k, 16, hk, by decide, by decide, hpages,
      determineLayout_eq_some_iff.mpr (Or.inl ⟨k, hmem, hpages, rfl⟩)⟩
  · have hcount : 1 < k ∧ k ≤ 16 ∧ k % 128 ∈ segmentCounts := by
      simp only [segmentCounts, mem_cons, not_mem_nil, or_false] at hmem ⊢
      omega
    exact ⟨k, 32, hcount.2.1, by decide, by decide, hpages,
      determineLayout_eq_some_iff.mpr (Or.inr ⟨k, hcount.1, hcount.2.2, hpages, rfl⟩)⟩

theorem physicalBlock_lt {segments l : ℕ} (h : l < segments * 496 - 2) :
    physicalBlock l < segments * 512 := by
  simp only [physicalBlock]
  omega

theorem mount_sound (s : MemoryStick) {cardImage : CardImage}
    (h : Representable cardImage.blocksTotal) : MountSound s cardImage := by
  obtain ⟨segments, pagesPerBlock, hsegments, hpos, hpages, htotal, hlayout⟩ := h.layout
  have hseg : (BitVec.ofNat 8 segments).toNat = segments := by grind
  have hppb : (BitVec.ofNat 8 pagesPerBlock).toNat = pagesPerBlock := by grind
  have hbound : ∀ l < segments * 496 - 2, physicalBlock l < blockMapEntries := by
    intro l hl
    have hlt := physicalBlock_lt hl
    rw [blockMapEntries]
    omega
  obtain ⟨map, hrun, hset, hrest⟩ := foldlM_mountBlock physicalBlock_injective
    (fun i => if i < blockMapEntries then 0xffff#16 else s.blockMap i) _ hbound
  rw [← mountOrder_eq] at hrun
  refine ⟨{ reset s with
      cardImage := some cardImage
      pagesPerBlock := BitVec.ofNat 8 pagesPerBlock
      segments := BitVec.ofNat 8 segments
      blockMap := map
      blockMapDirtyPages := fun i => if i < 2 then 0xff#8 else s.blockMapDirtyPages i }, ?_, rfl, ?_⟩
  · rw [mount, hlayout, Option.bind_some, mountBlockMap, hseg]
    simp [hrun]
  · intro logicalBlock hin
    have hlogical : logicalBlock < segments * 496 - 2 := by
      rw [htotal] at hin
      simp only [hppb] at hin
      exact Nat.lt_of_mul_lt_mul_right hin
    have hnumber : ∀ l < segments * 496 - 2, (BitVec.ofNat 16 l).toNat = l := by
      intro l hl
      rw [BitVec.toNat_ofNat, Nat.mod_eq_of_lt (by omega)]
    refine ⟨physicalBlock logicalBlock, ⟨?_, ?_⟩, ?_⟩
    · simp only [blocksTotal, hseg]
      exact physicalBlock_lt hlogical
    · simp [hset logicalBlock hlogical, hnumber logicalBlock hlogical]
    · rintro b ⟨hb, hmap⟩
      simp only [blocksTotal, hseg] at hb
      simp only at hmap
      by_contra hne
      by_cases hhit : ∃ l < segments * 496 - 2, physicalBlock l = b
      · obtain ⟨l, hl, rfl⟩ := hhit
        rw [hset l hl, hnumber l hl] at hmap
        exact hne (by rw [hmap])
      · push Not at hhit
        rw [hrest b hhit, if_pos (by rw [blockMapEntries]; omega)] at hmap
        have hempty : (0xffff#16).toNat = 65535 := rfl
        omega

/-- What a size should satisfy: it is accepted exactly when such a stick exists, and mounting an
accepted image is sound. -/
def GeometrySound (pagesTotal : ℕ) : Prop :=
  (isSizeRepresentable pagesTotal = true ↔ Representable pagesTotal) ∧
    (isSizeRepresentable pagesTotal = true →
      ∀ (s : MemoryStick) (cardImage : CardImage), cardImage.blocksTotal = pagesTotal →
        MountSound s cardImage)

/-- The geometry is sound for every size but those that pass for a smaller stick. -/
theorem geometrySound_iff (pagesTotal : ℕ) : GeometrySound pagesTotal ↔ ¬ Aliased pagesTotal := by
  rw [GeometrySound, isSizeRepresentable_iff]
  constructor
  · rintro ⟨hiff, -⟩ halias
    exact not_representable_of_aliased halias (hiff.mp (Or.inr halias))
  · intro halias
    simp only [halias, or_false, true_and]
    intro hrep s cardImage hblocks
    exact mount_sound s (hblocks ▸ hrep)

/-- An image of one gibibyte with 129 segments passes for a stick of one segment. -/
theorem not_geometrySound_129 : ¬ GeometrySound 2047424 := by
  rintro ⟨hiff, -⟩
  have haccepted : isSizeRepresentable 2047424 = true := by decide +kernel
  rcases hiff.mp haccepted with ⟨k, hmem, hpages⟩ | ⟨k, hmem, hpages⟩
  all_goals
    simp only [mem_cons, not_mem_nil, or_false] at hmem
    omega

end Cloudpilot.Hardware.Stick
