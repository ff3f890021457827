import Mathlib.Algebra.BigOperators.Group.List.Basic
import Mathlib.Logic.Function.Basic
import Mathlib.Tactic

/-! # The memory of a 68k session and its V4 image

The session keeps all regions in one block, in the order of `orderedRegions`, with the
metadata region last. `Initialize` writes a table of contents into it: the type and the
size of every region, then a terminator. The block is the memory image. `LoadMemoryV4`
walks the table of an image and copies the regions the device has.
-/

namespace Cloudpilot.Hardware.EmMemory

open List

abbrev Byte := BitVec 8
abbrev Word := BitVec 32

inductive MemoryRegion where
  | metadata
  | ram
  | framebuffer
  | memorystick
  | sonyDsp
  | eSRAM
  deriving DecidableEq, Repr

def nMemoryRegions : ℕ := 6

def MemoryRegion.type : MemoryRegion → Word
  | metadata => 0
  | ram => 1
  | framebuffer => 2
  | memorystick => 3
  | sonyDsp => 4
  | eSRAM => 5

/-- The region of a type number below `nMemoryRegions`. -/
def MemoryRegion.ofType (type : Word) : Option MemoryRegion :=
  [metadata, ram, framebuffer, memorystick, sonyDsp, eSRAM][type.toNat]?

def orderedRegions : List MemoryRegion :=
  [.ram, .framebuffer, .memorystick, .sonyDsp, .eSRAM, .metadata]

def sizeSum (size : MemoryRegion → Word) (regions : List MemoryRegion) : ℕ :=
  (regions.map fun region => (size region).toNat).sum

/-- The region sizes of a device. `AllocateRegion` asserts the granularity; the whole
block has to be addressable with 32 bits. -/
structure MemoryRegionMap where
  size : MemoryRegion → Word
  metadata_size : size .metadata = 1024
  granular : ∀ region, region ≠ .metadata → 8192 ∣ (size region).toNat
  total_lt : sizeSum size orderedRegions < 2 ^ 32

def getTotalSize (map : MemoryRegionMap) : Word :=
  [MemoryRegion.metadata, .ram, .framebuffer, .memorystick, .sonyDsp, .eSRAM].foldl
    (fun totalSize region => totalSize + map.size region) 0

/-- Little endian read of four bytes. -/
def get32 (bytes : ℕ → Byte) (a : ℕ) : Word :=
  (bytes a).setWidth 32 ||| (bytes (a + 1)).setWidth 32 <<< 8 |||
    (bytes (a + 2)).setWidth 32 <<< 16 ||| (bytes (a + 3)).setWidth 32 <<< 24

/-- A store of a `uint32` on the little endian host. -/
def put32 (bytes : ℕ → Byte) (a : ℕ) (v : Word) : ℕ → Byte := fun i =>
  if i = a then v.setWidth 8
  else if i = a + 1 then (v >>> 8).setWidth 8
  else if i = a + 2 then (v >>> 16).setWidth 8
  else if i = a + 3 then (v >>> 24).setWidth 8
  else bytes i

/-- The block with its region pointers, as offsets. Empty regions have a null pointer. -/
structure Memory where
  memory : ℕ → Byte
  dirtyPages : ℕ → Byte
  memoryRegionPointers : MemoryRegion → Option ℕ
  dirtyPageRegionPointers : MemoryRegion → Option ℕ

/-- The loop of `Initialize` over the regions. Returns the position behind the table. -/
def initializeRegions (map : MemoryRegionMap) :
    List MemoryRegion → (regionPtr dirtyPagePtr toc : ℕ) → Memory → Memory × ℕ
  | [], _, _, toc, m => (m, toc)
  | region :: regions, regionPtr, dirtyPagePtr, toc, m =>
    let size := map.size region
    let m := { m with
      memoryRegionPointers := Function.update m.memoryRegionPointers region
        (if size = 0 then none else some regionPtr)
      dirtyPageRegionPointers := Function.update m.dirtyPageRegionPointers region
        (if size = 0 then none else some dirtyPagePtr)
      memory := put32 (put32 m.memory toc region.type) (toc + 4) size }
    initializeRegions map regions (regionPtr + size.toNat) (dirtyPagePtr + size.toNat / 8192)
      (toc + 8) m

def memoryInitialize (map : MemoryRegionMap) : Memory :=
  let totalSize := (getTotalSize map).toNat
  let dirtyPagesSize := totalSize / 8192 + if totalSize % 8192 = 0 then 0 else 1
  let m : Memory := ⟨fun _ => 0, fun _ => 0, fun _ => none, fun _ => none⟩
  let (m, toc) := initializeRegions map orderedRegions 0 0
    (totalSize - (map.size .metadata).toNat) m
  { m with
    memory := put32 m.memory toc 0xffffffff
    dirtyPages := Function.update m.dirtyPages (dirtyPagesSize - 1) 1 }

structure Entry where
  type : Word
  size : Word
  deriving DecidableEq, Repr

def entryAt (image : ℕ → Byte) (toc : ℕ) : Entry := ⟨get32 image toc, get32 image (toc + 4)⟩

/-- The 128 entries in the last 1024 bytes of an image. -/
def tableOfContents (image : ℕ → Byte) (size : ℕ) : List Entry :=
  (List.range 128).map fun i => entryAt image (size - 1024 + 8 * i)

/-- One `memcpy` of the loader, with the table entries before the one it loads. -/
structure Copy where
  before : List Entry
  region : MemoryRegion
  source : Word
  size : Word
  deriving DecidableEq, Repr

def memcpy (memory : ℕ → Byte) (dest : Option ℕ) (image : ℕ → Byte) (source size : ℕ) : ℕ → Byte :=
  match dest with
  | none => memory
  | some p => fun i => if p ≤ i ∧ i < p + size then image (source + (i - p)) else memory i

def copyRegion (m : Memory) (region : MemoryRegion) (image : ℕ → Byte) (source size : ℕ) : Memory :=
  { m with memory := memcpy m.memory (m.memoryRegionPointers region) image source size }

structure Loading where
  ok : Bool
  mem : Memory
  copies : List Copy

/-- The region that an entry loads: known to this build, not metadata (the type is
compared as a `uint8`), and of the size the device has. -/
def matchedRegion (map : MemoryRegionMap) (entry : Entry) : Option MemoryRegion :=
  if entry.type.setWidth 8 = 0#8 then none
  else match MemoryRegion.ofType entry.type with
    | none => none
    | some region => if entry.size ≠ map.size region then none else some region

/-- The loop over the table. An entry that is not loaded leaves `offset` as it is. -/
def loadLoop (map : MemoryRegionMap) (image : ℕ → Byte) (size : ℕ) :
    (before toc : List Entry) → (offset : Word) → Memory → List Copy → Loading
  | _, [], _, m, copies => ⟨true, m, copies⟩
  | before, entry :: toc, offset, m, copies =>
    if entry.type = 0xffffffff then ⟨true, m, copies⟩
    else match matchedRegion map entry with
      | none => loadLoop map image size (before ++ [entry]) toc offset m copies
      | some region =>
        if (offset + entry.size).toNat > size then ⟨false, m, copies⟩
        else
          loadLoop map image size (before ++ [entry]) toc (offset + entry.size)
            (copyRegion m region image offset.toNat entry.size.toNat)
            (copies ++ [⟨before, region, offset, entry.size⟩])

def loadMemoryV4 (map : MemoryRegionMap) (m : Memory) (image : ℕ → Byte) (size : ℕ) : Loading :=
  if size < 1024 ∨ size % 4 ≠ 0 then ⟨false, m, []⟩
  else loadLoop map image size [] (tableOfContents image size) 0 m []

theorem get32_put32_self (bytes : ℕ → Byte) (a : ℕ) (v : Word) :
    get32 (put32 bytes a v) a = v := by
  apply BitVec.eq_of_getLsbD_eq
  intro i hi
  simp only [get32, put32]
  interval_cases i <;> simp

theorem get32_congr {bytes bytes' : ℕ → Byte} {a : ℕ}
    (h : ∀ i, a ≤ i → i < a + 4 → bytes i = bytes' i) : get32 bytes a = get32 bytes' a := by
  rw [get32, get32, h a (by omega) (by omega), h (a + 1) (by omega) (by omega),
    h (a + 2) (by omega) (by omega), h (a + 3) (by omega) (by omega)]

theorem entryAt_congr {bytes bytes' : ℕ → Byte} {toc : ℕ}
    (h : ∀ i, toc ≤ i → i < toc + 8 → bytes i = bytes' i) :
    entryAt bytes toc = entryAt bytes' toc := by
  rw [entryAt, entryAt, get32_congr fun i hi hi' => h i hi (by omega),
    get32_congr fun i hi hi' => h i (by omega) (by omega)]

theorem put32_of_outside {bytes : ℕ → Byte} {a i : ℕ} (v : Word) (h : i < a ∨ a + 4 ≤ i) :
    put32 bytes a v i = bytes i := by
  simp only [put32, show i ≠ a by omega, show i ≠ a + 1 by omega, show i ≠ a + 2 by omega,
    show i ≠ a + 3 by omega, if_false]

theorem get32_put32_of_disjoint {bytes : ℕ → Byte} {a b : ℕ} (v : Word)
    (h : b + 4 ≤ a ∨ a + 4 ≤ b) : get32 (put32 bytes a v) b = get32 bytes b :=
  get32_congr fun i hi hi' => put32_of_outside v (by omega)

def sizes (entries : List Entry) : ℕ := (entries.map fun e => e.size.toNat).sum

def matchedSizes (map : MemoryRegionMap) (entries : List Entry) : ℕ :=
  sizes (entries.filter fun e => (matchedRegion map e).isSome)

/-- The regions an image lists: its table up to the terminator. -/
def listedEntries (image : ℕ → Byte) (size : ℕ) : List Entry :=
  if size < 1024 ∨ size % 4 ≠ 0 then []
  else (tableOfContents image size).takeWhile fun e => e.type ≠ 0xffffffff

/-- No entry that matches a region of the device is found to exceed the image. -/
def Fits (map : MemoryRegionMap) (size : ℕ) (entries : List Entry) : Prop :=
  ∀ before e after, entries = before ++ e :: after → (matchedRegion map e).isSome →
    (matchedSizes map before + e.size.toNat) % 2 ^ 32 ≤ size

variable {map : MemoryRegionMap} {image : ℕ → Byte} {size : ℕ}

@[simp] theorem sizes_append (xs ys : List Entry) : sizes (xs ++ ys) = sizes xs + sizes ys := by
  simp [sizes]

@[simp] theorem sizes_singleton (e : Entry) : sizes [e] = e.size.toNat := by simp [sizes]

theorem matchedSizes_snoc_none {e : Entry} (h : matchedRegion map e = none) (before : List Entry) :
    matchedSizes map (before ++ [e]) = matchedSizes map before := by
  simp [matchedSizes, h]

theorem matchedSizes_snoc_some {e : Entry} {region : MemoryRegion}
    (h : matchedRegion map e = some region) (before : List Entry) :
    matchedSizes map (before ++ [e]) = matchedSizes map before + e.size.toNat := by
  simp [matchedSizes, h]

theorem snoc_eq_append_cons {α : Type*} {xs before after : List α} {x e : α} :
    xs ++ [x] = before ++ e :: after ↔
      (xs = before ∧ x = e ∧ after = []) ∨ ∃ rest, after = rest ++ [x] ∧ xs = before ++ e :: rest := by
  rcases eq_nil_or_concat after with rfl | ⟨rest, y, rfl⟩
  · simp
  · rw [concat_eq_append, ← cons_append, ← append_assoc, ← concat_eq_append,
      ← concat_eq_append, concat_inj]
    simp only [append_eq_nil_iff, cons_ne_self, and_false, false_or]
    constructor
    · grind
    · rintro ⟨rest', h, rfl⟩
      simp at h
      obtain ⟨rfl, rfl⟩ := h
      exact ⟨rfl, rfl⟩

theorem fits_snoc {before : List Entry} {e : Entry} :
    Fits map size (before ++ [e]) ↔ Fits map size before ∧ ((matchedRegion map e).isSome →
      (matchedSizes map before + e.size.toNat) % 2 ^ 32 ≤ size) := by
  constructor
  · intro h
    refine ⟨?_, h before e [] rfl⟩
    rintro before x after rfl
    exact h before x (after ++ [e]) (by simp)
  · rintro ⟨hbefore, he⟩ before' x after hsplit
    rcases snoc_eq_append_cons.mp hsplit with ⟨rfl, rfl, -⟩ | ⟨rest, -, hrest⟩
    · exact he
    · exact hbefore before' x rest hrest

theorem Fits.of_append {xs ys : List Entry} (h : Fits map size (xs ++ ys)) : Fits map size xs := by
  rintro before e after rfl
  exact h before e (after ++ ys) (by simp)

def copyFor (map : MemoryRegionMap) (before : List Entry) (e : Entry) (region : MemoryRegion) :
    Copy :=
  ⟨before, region, BitVec.ofNat 32 (matchedSizes map before), e.size⟩

theorem exists_split_cons {α : Type*} {P : List α → α → Prop} {x : α} {xs : List α} :
    (∃ before e after, x :: xs = before ++ e :: after ∧ P before e) ↔
      P [] x ∨ ∃ before e after, xs = before ++ e :: after ∧ P (x :: before) e := by
  constructor
  · rintro ⟨before, e, after, hsplit, h⟩
    cases before with
    | nil => grind
    | cons y before => grind
  · rintro (h | ⟨before, e, after, rfl, h⟩)
    · exact ⟨[], x, xs, rfl, h⟩
    · exact ⟨x :: before, e, after, rfl, h⟩

/-- `c` is the copy for the entry `e` behind `before`, and the loop reaches it. -/
def IsCopy (map : MemoryRegionMap) (size : ℕ) (c : Copy) (before : List Entry) (e : Entry) : Prop :=
  ∃ region, matchedRegion map e = some region ∧ Fits map size (before ++ [e]) ∧
    c = copyFor map before e region

/-- The loop copies exactly the matched entries that the bound check lets it reach. -/
theorem mem_copies_loadLoop {before toc : List Entry} {offset : Word} {m : Memory}
    {copies : List Copy} {c : Copy} (hoffset : offset = BitVec.ofNat 32 (matchedSizes map before))
    (hfits : Fits map size before) :
    c ∈ (loadLoop map image size before toc offset m copies).copies ↔
      c ∈ copies ∨ ∃ mid e after,
        (toc.takeWhile fun e => e.type ≠ 0xffffffff) = mid ++ e :: after ∧
          IsCopy map size c (before ++ mid) e := by
  induction toc generalizing before offset m copies with
  | nil => simp [loadLoop]
  | cons e toc ih =>
    have hassoc : ∀ mid : List Entry, before ++ [e] ++ mid = before ++ e :: mid := by simp
    rw [loadLoop]
    by_cases hterm : e.type = 0xffffffff
    · simp [hterm]
    rw [if_neg hterm, takeWhile_cons_of_pos (by simpa using hterm), exists_split_cons]
    simp only [append_nil]
    cases hmatch : matchedRegion map e with
    | none =>
      have hfits' : Fits map size (before ++ [e]) := fits_snoc.mpr ⟨hfits, by simp [hmatch]⟩
      have hno : ¬ IsCopy map size c before e := by
        rintro ⟨region, h, -⟩
        rw [hmatch] at h
        cases h
      simp only [hno, false_or]
      rw [ih (by rw [hoffset, matchedSizes_snoc_none hmatch]) hfits']
      simp [hassoc]
    | some region =>
      have hsum : (offset + e.size).toNat =
          (matchedSizes map before + e.size.toNat) % 2 ^ 32 := by simp [hoffset]
      simp only
      by_cases hbound : (offset + e.size).toNat > size
      · rw [if_pos hbound]
        have hno : ∀ ys, ¬ Fits map size (before ++ [e] ++ ys) := by
          intro ys h
          have hle := (fits_snoc.mp h.of_append).2 (by simp [hmatch])
          omega
        refine ⟨.inl, ?_⟩
        rintro (hc | ⟨region', -, hf, -⟩ | ⟨mid, x, after, -, region', -, hf, -⟩)
        · exact hc
        · exact absurd (by simpa using hf) (hno [])
        · exact absurd (by simpa using hf) (hno (mid ++ [x]))
      · rw [if_neg hbound]
        have hfits' : Fits map size (before ++ [e]) := fits_snoc.mpr ⟨hfits, fun _ => by omega⟩
        have hoffset' : offset + e.size = BitVec.ofNat 32 (matchedSizes map (before ++ [e])) := by
          apply BitVec.eq_of_toNat_eq
          rw [hsum, matchedSizes_snoc_some hmatch, BitVec.toNat_ofNat]
        have hcopy : IsCopy map size c before e ↔ c = ⟨before, region, offset, e.size⟩ := by
          rw [hoffset]
          constructor
          · rintro ⟨region', h, -, rfl⟩
            obtain rfl : region = region' := Option.some.inj (hmatch.symm.trans h)
            rfl
          · rintro rfl
            exact ⟨region, hmatch, hfits', rfl⟩
        rw [ih hoffset' hfits', mem_append, mem_singleton, or_assoc, hcopy]
        simp [hassoc]

theorem mem_copies_loadMemoryV4 {m : Memory} {c : Copy} :
    c ∈ (loadMemoryV4 map m image size).copies ↔ ∃ before e after,
      listedEntries image size = before ++ e :: after ∧ IsCopy map size c before e := by
  rw [loadMemoryV4, listedEntries]
  split
  · simp
  · have hfits : Fits map size [] := by
      intro before e after h
      simp at h
    have hzero : (0 : Word) = BitVec.ofNat 32 (matchedSizes map []) := rfl
    rw [mem_copies_loadLoop hzero hfits]
    simp

theorem matchedSizes_le_sizes (map : MemoryRegionMap) (entries : List Entry) :
    matchedSizes map entries ≤ sizes entries := by
  induction entries using reverseRecOn with
  | nil => rfl
  | append_singleton entries e ih =>
    rw [sizes_append, sizes_singleton]
    cases h : matchedRegion map e with
    | none =>
      rw [matchedSizes_snoc_none h]
      omega
    | some region =>
      rw [matchedSizes_snoc_some h]
      omega

theorem matchedSizes_eq_sizes_iff {entries : List Entry} :
    matchedSizes map entries = sizes entries ↔
      ∀ e ∈ entries, matchedRegion map e = none → e.size = 0 := by
  induction entries using reverseRecOn with
  | nil => simp [matchedSizes]
  | append_singleton entries e ih =>
    have hle := matchedSizes_le_sizes map entries
    rw [sizes_append, sizes_singleton]
    simp only [mem_append, mem_singleton, or_imp, forall_and, forall_eq, ← ih]
    cases h : matchedRegion map e with
    | none =>
      rw [matchedSizes_snoc_none h]
      have hzero : e.size = 0 ↔ e.size.toNat = 0 := by
        rw [← BitVec.toNat_inj]
        rfl
      simp only [hzero, forall_const]
      omega
    | some region =>
      rw [matchedSizes_snoc_some h]
      simp

/-- The loader reads at the place of the region exactly if no ignored entry before it
has bytes and the sum of the sizes does not wrap. -/
theorem source_copyFor_iff {before : List Entry} {e : Entry} {region : MemoryRegion} :
    (copyFor map before e region).source.toNat = sizes before ↔
      sizes before < 2 ^ 32 ∧ ∀ x ∈ before, matchedRegion map x = none → x.size = 0 := by
  have hle := matchedSizes_le_sizes map before
  rw [copyFor, BitVec.toNat_ofNat, ← matchedSizes_eq_sizes_iff]
  constructor <;> omega

/-- Every copied region gets the bytes that the image stores for it. -/
def LoadsStoredBytes (l : Loading) : Prop :=
  ∀ c ∈ l.copies, c.size ≠ 0 → c.source.toNat = sizes c.before

/-- No matched entry with bytes that the loader reaches stands behind an ignored entry
with bytes, or 4 GiB behind the start of the image. -/
def IgnoredLast (map : MemoryRegionMap) (size : ℕ) (entries : List Entry) : Prop :=
  ∀ before e after, entries = before ++ e :: after → (matchedRegion map e).isSome → e.size ≠ 0 →
    Fits map size (before ++ [e]) →
      sizes before < 2 ^ 32 ∧ ∀ x ∈ before, matchedRegion map x = none → x.size = 0

theorem loadsStoredBytes_iff (m : Memory) :
    LoadsStoredBytes (loadMemoryV4 map m image size) ↔
      IgnoredLast map size (listedEntries image size) := by
  constructor
  · intro h before e after hsplit hmatch hsize hfits
    obtain ⟨region, hregion⟩ := Option.isSome_iff_exists.mp hmatch
    have hc := h (copyFor map before e region)
      (mem_copies_loadMemoryV4.mpr ⟨before, e, after, hsplit, region, hregion, hfits, rfl⟩) hsize
    exact source_copyFor_iff.mp hc
  · intro h c hc hsize
    obtain ⟨before, e, after, hsplit, region, hregion, hfits, rfl⟩ :=
      mem_copies_loadMemoryV4.mp hc
    exact source_copyFor_iff.mpr (h before e after hsplit (by simp [hregion]) hsize hfits)

theorem loadLoop_memory {before toc : List Entry} {offset : Word} {m : Memory}
    {copies : List Copy} :
    ∃ new, (loadLoop map image size before toc offset m copies).copies = copies ++ new ∧
      (loadLoop map image size before toc offset m copies).mem =
        new.foldl (fun m c => copyRegion m c.region image c.source.toNat c.size.toNat) m := by
  induction toc generalizing before offset m copies with
  | nil => exact ⟨[], by simp [loadLoop], rfl⟩
  | cons e toc ih =>
    rw [loadLoop]
    split
    · simp
    split
    · exact ih
    split
    · simp
    · obtain ⟨new, hcopies, hmem⟩ := ih
      exact ⟨_ :: new, by rw [hcopies, append_assoc]; rfl, hmem⟩

theorem loadMemoryV4_memory (m : Memory) :
    (loadMemoryV4 map m image size).mem = (loadMemoryV4 map m image size).copies.foldl
      (fun m c => copyRegion m c.region image c.source.toNat c.size.toNat) m := by
  rw [loadMemoryV4]
  split
  · rfl
  · obtain ⟨new, hcopies, hmem⟩ := loadLoop_memory
    rw [hmem, hcopies, nil_append]

end Cloudpilot.Hardware.EmMemory
