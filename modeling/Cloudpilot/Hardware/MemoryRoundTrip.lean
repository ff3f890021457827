import Cloudpilot.Hardware.EmMemory

/-! # The image of a session restores the session

`Initialize` lays the regions out in the order it lists them in, so the running offset
of the loader is the region pointer all the way.
-/
namespace Cloudpilot.Hardware.EmMemory

open List

variable {map : MemoryRegionMap}

def tocEntry (map : MemoryRegionMap) (region : MemoryRegion) : Entry :=
  ⟨region.type, map.size region⟩

theorem toNat_getTotalSize (map : MemoryRegionMap) :
    (getTotalSize map).toNat = sizeSum map.size orderedRegions := by
  have h := map.total_lt
  simp only [sizeSum, orderedRegions, map_cons, map_nil, sum_cons, sum_nil,
    getTotalSize, foldl_cons, foldl_nil] at h ⊢
  bv_omega

/-- Every region before the metadata is listed in front of it. -/
def dataRegions : List MemoryRegion := [.ram, .framebuffer, .memorystick, .sonyDsp, .eSRAM]

theorem orderedRegions_eq : orderedRegions = dataRegions ++ [.metadata] := rfl

theorem sizeSum_append (size : MemoryRegion → Word) (xs ys : List MemoryRegion) :
    sizeSum size (xs ++ ys) = sizeSum size xs + sizeSum size ys := by
  simp [sizeSum]

theorem totalSize_eq (map : MemoryRegionMap) :
    (getTotalSize map).toNat = sizeSum map.size dataRegions + 1024 := by
  rw [toNat_getTotalSize, orderedRegions_eq, sizeSum_append]
  simp [sizeSum, map.metadata_size]

theorem totalSize_mod_four (map : MemoryRegionMap) : (getTotalSize map).toNat % 4 = 0 := by
  have h1 := map.granular .ram (by decide)
  have h2 := map.granular .framebuffer (by decide)
  have h3 := map.granular .memorystick (by decide)
  have h4 := map.granular .sonyDsp (by decide)
  have h5 := map.granular .eSRAM (by decide)
  rw [totalSize_eq]
  simp only [sizeSum, dataRegions, map_cons, map_nil, sum_cons, sum_nil]
  omega

/-- The place of a region in the block. -/
def regionOffset (map : MemoryRegionMap) (region : MemoryRegion) : ℕ :=
  sizeSum map.size (orderedRegions.takeWhile fun other => other ≠ region)

section Initialize
variable {regions : List MemoryRegion} {regionPtr dirtyPagePtr toc : ℕ} {m : Memory}

theorem initializeRegions_toc :
    (initializeRegions map regions regionPtr dirtyPagePtr toc m).2 = toc + 8 * regions.length := by
  induction regions generalizing regionPtr dirtyPagePtr toc m with
  | nil => rfl
  | cons region regions ih =>
    rw [initializeRegions, ih, length_cons]
    omega

theorem initializeRegions_below {i : ℕ} (h : i < toc) :
    (initializeRegions map regions regionPtr dirtyPagePtr toc m).1.memory i = m.memory i := by
  induction regions generalizing regionPtr dirtyPagePtr toc m with
  | nil => rfl
  | cons region regions ih =>
    rw [initializeRegions, ih (by omega)]
    simp only
    rw [put32_of_outside _ (by omega), put32_of_outside _ (by omega)]

theorem initializeRegions_entry {i : ℕ} {region : MemoryRegion} (h : regions[i]? = some region) :
    entryAt (initializeRegions map regions regionPtr dirtyPagePtr toc m).1.memory (toc + 8 * i) =
      tocEntry map region := by
  induction regions generalizing regionPtr dirtyPagePtr toc m i with
  | nil => simp at h
  | cons r regions ih =>
    cases i with
    | zero =>
      obtain rfl : r = region := by simpa using h
      rw [initializeRegions,
        entryAt_congr fun i _ hi => initializeRegions_below (by omega), entryAt, tocEntry]
      simp only [Nat.mul_zero, Nat.add_zero]
      rw [get32_put32_of_disjoint _ (by omega), get32_put32_self, get32_put32_self]
    | succ i =>
      rw [initializeRegions, show toc + 8 * (i + 1) = toc + 8 + 8 * i by ring]
      exact ih (by simpa using h)

end Initialize

theorem entryAt_memoryInitialize {i : ℕ} {region : MemoryRegion}
    (h : orderedRegions[i]? = some region) :
    entryAt (memoryInitialize map).memory ((getTotalSize map).toNat - 1024 + 8 * i) =
      tocEntry map region := by
  have hi : i < 6 := (List.getElem?_eq_some_iff.mp h).1
  have hmeta : (map.size .metadata).toNat = 1024 := by rw [map.metadata_size]; rfl
  rw [memoryInitialize]
  simp only [hmeta, initializeRegions_toc]
  rw [entryAt_congr fun j _ hj => put32_of_outside _ (by simp [orderedRegions]; omega)]
  exact initializeRegions_entry h

theorem terminator_memoryInitialize :
    (entryAt (memoryInitialize map).memory ((getTotalSize map).toNat - 1024 + 8 * 6)).type =
      0xffffffff := by
  have hmeta : (map.size .metadata).toNat = 1024 := by rw [map.metadata_size]; rfl
  rw [memoryInitialize, entryAt]
  simp only [hmeta, initializeRegions_toc]
  exact get32_put32_self _ _ _

theorem memoryRegionPointers_memoryInitialize (region : MemoryRegion) :
    (memoryInitialize map).memoryRegionPointers region =
      if map.size region = 0 then none else some (regionOffset map region) := by
  cases region <;>
    simp [memoryInitialize, initializeRegions, orderedRegions, regionOffset, sizeSum, Nat.add_assoc]

/-- The memory of a session: whatever was written since `Initialize`, the region
pointers and the metadata region are still there. -/
structure Session (map : MemoryRegionMap) where
  mem : Memory
  pointers : mem.memoryRegionPointers = (memoryInitialize map).memoryRegionPointers
  metadata : ∀ a, (getTotalSize map).toNat - 1024 ≤ a → a < (getTotalSize map).toNat →
    mem.memory a = (memoryInitialize map).memory a

theorem entryAt_session (s : Session map) {i : ℕ} (hi : i < 128) :
    entryAt s.mem.memory ((getTotalSize map).toNat - 1024 + 8 * i) =
      entryAt (memoryInitialize map).memory ((getTotalSize map).toNat - 1024 + 8 * i) := by
  have hle : 1024 ≤ (getTotalSize map).toNat := by rw [totalSize_eq]; omega
  exact entryAt_congr fun a ha ha' => s.metadata a (by omega) (by omega)

theorem tableOfContents_session (s : Session map) :
    ∃ terminator rest, terminator.type = 0xffffffff ∧
      tableOfContents s.mem.memory (getTotalSize map).toNat =
        dataRegions.map (tocEntry map) ++ tocEntry map .metadata :: terminator :: rest := by
  set entry : ℕ → Entry := fun i =>
    entryAt s.mem.memory ((getTotalSize map).toNat - 1024 + 8 * i) with hentry
  have hterm : (entry 6).type = 0xffffffff := by
    rw [hentry]
    simp only
    rw [entryAt_session s (by omega)]
    exact terminator_memoryInitialize
  have hregion : ∀ i region, orderedRegions[i]? = some region → entry i = tocEntry map region := by
    intro i region h
    have hi : i < 6 := (List.getElem?_eq_some_iff.mp h).1
    rw [hentry]
    simp only
    rw [entryAt_session s (by omega), entryAt_memoryInitialize h]
  have hsplit : (List.range 128).map entry = [entry 0, entry 1, entry 2, entry 3, entry 4] ++
      entry 5 :: entry 6 :: (List.range 121).map fun i => entry (7 + i) := by
    rfl
  refine ⟨entry 6, (List.range 121).map fun i => entry (7 + i), hterm, hsplit.trans ?_⟩
  rw [hregion 0 .ram rfl, hregion 1 .framebuffer rfl, hregion 2 .memorystick rfl,
    hregion 3 .sonyDsp rfl, hregion 4 .eSRAM rfl, hregion 5 .metadata rfl]
  rfl

theorem matchedRegion_tocEntry {region : MemoryRegion} (h : region ≠ .metadata) :
    matchedRegion map (tocEntry map region) = some region := by
  cases region with
  | metadata => exact absurd rfl h
  | ram => simp [matchedRegion, tocEntry, MemoryRegion.type, MemoryRegion.ofType]
  | framebuffer => simp [matchedRegion, tocEntry, MemoryRegion.type, MemoryRegion.ofType]
  | memorystick => simp [matchedRegion, tocEntry, MemoryRegion.type, MemoryRegion.ofType]
  | sonyDsp => simp [matchedRegion, tocEntry, MemoryRegion.type, MemoryRegion.ofType]
  | eSRAM => simp [matchedRegion, tocEntry, MemoryRegion.type, MemoryRegion.ofType]

theorem type_ne_terminator (region : MemoryRegion) : region.type ≠ 0xffffffff := by
  cases region <;> decide

/-- Regions that lie one behind the other from `start` on. -/
def Adjacent (size : MemoryRegion → Word) (pointers : MemoryRegion → Option ℕ) :
    ℕ → List MemoryRegion → Prop
  | _, [] => True
  | start, region :: regions =>
    (pointers region = if size region = 0 then none else some start) ∧
      Adjacent size pointers (start + (size region).toNat) regions

theorem memcpy_region {memory image : ℕ → Byte} {p : ℕ} {size : Word} {dest : Option ℕ}
    (h : dest = if size = 0 then none else some p) (a : ℕ) :
    memcpy memory dest image p size.toNat a =
      if p ≤ a ∧ a < p + size.toNat then image a else memory a := by
  subst h
  by_cases h0 : size = 0
  · rw [if_pos h0, if_neg (by rw [h0]; simp)]
    rfl
  · rw [if_neg h0]
    by_cases ha : p ≤ a ∧ a < p + size.toNat
    · simp [memcpy, if_pos ha, Nat.add_sub_cancel' ha.1]
    · simp [memcpy, if_neg ha]

section Steps
variable {image : ℕ → Byte} {size : ℕ} {before toc : List Entry} {entry : Entry} {offset : Word}
  {m : Memory} {copies : List Copy}

theorem loadLoop_matched {region : MemoryRegion} (hterm : entry.type ≠ 0xffffffff)
    (hmatch : matchedRegion map entry = some region) (hbound : (offset + entry.size).toNat ≤ size) :
    loadLoop map image size before (entry :: toc) offset m copies =
      loadLoop map image size (before ++ [entry]) toc (offset + entry.size)
        (copyRegion m region image offset.toNat entry.size.toNat)
        (copies ++ [⟨before, region, offset, entry.size⟩]) := by
  rw [loadLoop, if_neg hterm, hmatch]
  simp only [if_neg (Nat.not_lt.mpr hbound)]

theorem loadLoop_ignored (hterm : entry.type ≠ 0xffffffff) (hmatch : matchedRegion map entry = none) :
    loadLoop map image size before (entry :: toc) offset m copies =
      loadLoop map image size (before ++ [entry]) toc offset m copies := by
  rw [loadLoop, if_neg hterm, hmatch]

theorem loadLoop_terminator (hterm : entry.type = 0xffffffff) :
    loadLoop map image size before (entry :: toc) offset m copies = ⟨true, m, copies⟩ := by
  rw [loadLoop, if_pos hterm]

end Steps

theorem loadLoop_adjacent {image : ℕ → Byte} {size : ℕ} {regions : List MemoryRegion}
    {before rest : List Entry} {offset : Word} {m : Memory} {copies : List Copy}
    (hdata : ∀ region ∈ regions, region ≠ .metadata)
    (hadj : Adjacent map.size m.memoryRegionPointers offset.toNat regions)
    (hfit : offset.toNat + sizeSum map.size regions ≤ size) (hsize : size < 2 ^ 32) :
    ∃ before' offset' m' copies',
      loadLoop map image size before (regions.map (tocEntry map) ++ rest) offset m copies =
        loadLoop map image size before' rest offset' m' copies' ∧
      ∀ a, m'.memory a =
        if offset.toNat ≤ a ∧ a < offset.toNat + sizeSum map.size regions then image a
        else m.memory a := by
  induction regions generalizing before offset m copies with
  | nil =>
    refine ⟨before, offset, m, copies, rfl, fun a => ?_⟩
    rw [if_neg (by simp [sizeSum])]
  | cons region regions ih =>
    obtain ⟨hptr, hadj⟩ := hadj
    have hcons : sizeSum map.size (region :: regions) =
        (map.size region).toNat + sizeSum map.size regions := by simp [sizeSum]
    have hsum : (offset + map.size region).toNat = offset.toNat + (map.size region).toNat := by
      rw [BitVec.toNat_add, Nat.mod_eq_of_lt (by omega)]
    have hbound : (offset + (tocEntry map region).size).toNat ≤ size := by
      rw [tocEntry, hsum]
      omega
    rw [map_cons, cons_append, loadLoop_matched (type_ne_terminator region)
      (matchedRegion_tocEntry (hdata region (by simp))) hbound, tocEntry]
    have hadj' : Adjacent map.size
        (copyRegion m region image offset.toNat (map.size region).toNat).memoryRegionPointers
        (offset + map.size region).toNat regions := by
      rwa [hsum]
    obtain ⟨before', offset', m', copies', hrun, hmem⟩ := ih
      (fun r hr => hdata r (by simp [hr])) hadj' (by rw [hsum]; omega)
    refine ⟨before', offset', m', copies', hrun, fun a => ?_⟩
    rw [hmem a, hsum]
    simp only [copyRegion, memcpy_region hptr]
    split_ifs <;> first | rfl | omega

theorem adjacent_memoryInitialize (map : MemoryRegionMap) :
    Adjacent map.size (memoryInitialize map).memoryRegionPointers 0 dataRegions := by
  simp [dataRegions, Adjacent, memoryRegionPointers_memoryInitialize, regionOffset,
    orderedRegions, sizeSum, Nat.add_assoc]

theorem loadMemoryV4_session (source target : Session map) :
    (loadMemoryV4 map target.mem source.mem.memory (getTotalSize map).toNat).ok = true ∧
      ∀ a < sizeSum map.size dataRegions,
        (loadMemoryV4 map target.mem source.mem.memory (getTotalSize map).toNat).mem.memory a =
          source.mem.memory a := by
  have htotal := totalSize_eq map
  have haligned := totalSize_mod_four map
  obtain ⟨terminator, rest, hterm, htoc⟩ := tableOfContents_session source
  have hadj := adjacent_memoryInitialize map
  rw [← target.pointers] at hadj
  have hfit : (0 : Word).toNat + sizeSum map.size dataRegions ≤ (getTotalSize map).toNat := by
    rw [show (0 : Word).toNat = 0 from rfl]
    omega
  obtain ⟨before', offset', m', copies', hrun, hmem⟩ :=
    loadLoop_adjacent (by decide) hadj hfit (getTotalSize map).isLt
  have hload : loadMemoryV4 map target.mem source.mem.memory (getTotalSize map).toNat =
      ⟨true, m', copies'⟩ := by
    rw [loadMemoryV4, if_neg (by omega), htoc, hrun, loadLoop_ignored (type_ne_terminator .metadata) rfl,
      loadLoop_terminator hterm]
  rw [hload]
  refine ⟨rfl, fun a ha => ?_⟩
  rw [hmem a, if_pos ⟨Nat.zero_le a, by simpa using ha⟩]

theorem regionOffset_add_size_le {region : MemoryRegion} (h : region ≠ .metadata) :
    regionOffset map region + (map.size region).toNat ≤ sizeSum map.size dataRegions := by
  cases region with
  | metadata => exact absurd rfl h
  | _ =>
    simp [regionOffset, sizeSum, orderedRegions, dataRegions]
    try omega

/-- The image of a session restores every region but the metadata. For every image at
all, each loaded region gets the bytes stored for it exactly if the table lists no
ignored entry with bytes before it. -/
theorem loadMemoryV4_image (map : MemoryRegionMap) :
    (∀ source target : Session map,
      (loadMemoryV4 map target.mem source.mem.memory (getTotalSize map).toNat).ok = true ∧
        ∀ region, region ≠ .metadata → ∀ p, target.mem.memoryRegionPointers region = some p →
          ∀ i < (map.size region).toNat,
            (loadMemoryV4 map target.mem source.mem.memory
              (getTotalSize map).toNat).mem.memory (p + i) = source.mem.memory (p + i)) ∧
      ∀ (m : Memory) (image : ℕ → Byte) (size : ℕ),
        ((loadMemoryV4 map m image size).mem = (loadMemoryV4 map m image size).copies.foldl
          (fun m c => copyRegion m c.region image c.source.toNat c.size.toNat) m) ∧
        (LoadsStoredBytes (loadMemoryV4 map m image size) ↔
          IgnoredLast map size (listedEntries image size)) := by
  constructor
  · intro source target
    obtain ⟨hok, hmem⟩ := loadMemoryV4_session source target
    refine ⟨hok, fun region hregion p hp i hi => hmem (p + i) ?_⟩
    rw [target.pointers, memoryRegionPointers_memoryInitialize] at hp
    have hle : regionOffset map region + (map.size region).toNat ≤ _ :=
      regionOffset_add_size_le hregion
    split at hp
    · cases hp
    · cases hp
      omega
  · intro m image size
    exact ⟨loadMemoryV4_memory m, loadsStoredBytes_iff m⟩

/-- A device with 8 KiB of RAM and nothing else. -/
def ramOnly : MemoryRegionMap where
  size
    | .metadata => 1024
    | .ram => 8192
    | _ => 0
  metadata_size := rfl
  granular := by
    intro region h
    cases region <;> simp_all
  total_lt := by decide

def blankSession : Session ramOnly := ⟨memoryInitialize ramOnly, rfl, fun _ _ _ => rfl⟩

def writtenSession : Session ramOnly where
  mem := { memoryInitialize ramOnly with
    memory := Function.update (memoryInitialize ramOnly).memory 0 0xAB }
  pointers := rfl
  metadata := by
    intro a ha _
    have hpos : a ≠ 0 := by
      rintro rfl
      revert ha
      decide +kernel
    exact Function.update_of_ne hpos _ _

theorem loadMemoryV4_image_writtenSession :
    (loadMemoryV4 ramOnly blankSession.mem writtenSession.mem.memory
      (getTotalSize ramOnly).toNat).mem.memory (0 + 0) = 0xAB :=
  ((loadMemoryV4_image ramOnly).1 writtenSession blankSession).2 .ram (by decide) 0
    (by decide +kernel) 0 (by decide +kernel)

/-- An image of a later build: 8 KiB of a region of type 6, then 8 KiB of RAM. -/
def laterImage : ℕ → Byte :=
  let regions : ℕ → Byte := fun a => if a < 8192 then 0xAA else if a < 16384 then 0x55 else 0
  let table := put32 (put32 regions 16384 6) 16388 8192
  put32 (put32 (put32 table 16392 1) 16396 8192) 16400 0xffffffff

/-- The bytes of the ignored region end up in the RAM. -/
theorem loadMemoryV4_laterImage :
    let l := loadMemoryV4 ramOnly blankSession.mem laterImage 17408
    l.ok = true ∧ l.copies = [⟨[⟨6, 8192⟩], .ram, 0, 8192⟩] ∧ l.mem.memory 0 = 0xAA ∧
      laterImage 8192 = 0x55 ∧ ¬ LoadsStoredBytes l := by
  intro l
  have hcopies : l.copies = [⟨[⟨6, 8192⟩], .ram, 0, 8192⟩] := by decide +kernel
  refine ⟨by decide +kernel, hcopies, by decide +kernel, by decide +kernel, ?_⟩
  rw [LoadsStoredBytes, hcopies]
  decide

end Cloudpilot.Hardware.EmMemory
