import Cloudpilot.Library.Runs
import Cloudpilot.Uarm.NandFlash.Nand

/-! # Erasing, programming and reading

What the loops and copies of the flash come to: a result when the page or the block is in the
content, and an access outside of an array otherwise.
-/

namespace Cloudpilot.Uarm.NandFlash

open Cpu Cloudpilot.Library
open Peripherals (Byte K9nandState K9nandArea)

namespace Geometry

/-- What initialization guarantees. -/
structure Valid (g : Geometry) : Prop where
  byteAddrBytes_pos : 0 < g.byteAddrBytes
  byteAddrBytes : g.byteAddrBytes ≤ 4
  pageAddrBytes : g.pageAddrBytes ≤ 4
  bytesPerPage : g.bytesPerPage < 2 ^ 32
  dataSize : g.dataSize = u32 (g.bytesPerPage * g.pages)
  dirtyPagesSize : g.dirtyPagesSize = 4 * ((g.dataSize + 135167) / 135168)
  areaSize : g.viaAreas = true → 0 < g.bytesPerPage → 2 * g.areaSize < g.bytesPerPage
  areaSize_lt : g.areaSize < 2 ^ 16
  pagesPerBlockLg2 : g.pagesPerBlockLg2 < 32
  byteAddrBytes_le : 0 < g.bytesPerPage → g.bytesPerPage ≤ 2 ^ 16 → g.byteAddrBytes ≤ 2

def Holds (g : Geometry) (page : ℕ) : Prop :=
  0 < g.bytesPerPage ∧ u32 (page * g.bytesPerPage) + g.bytesPerPage ≤ g.dataSize

def blockStart (g : Geometry) (page : ℕ) : ℕ := u32 (page * g.bytesPerPage)

def blockSize (g : Geometry) : ℕ := u32 (g.bytesPerPage * 2 ^ g.pagesPerBlockLg2)

/-- The block is in the content, and there is a bit for the storage page behind it. -/
def HoldsBlock (g : Geometry) (page : ℕ) : Prop :=
  g.blockStart page + g.blockSize ≤ g.dataSize ∧
    (g.blockStart page + g.blockSize = g.dataSize → ¬ 135168 ∣ g.dataSize)

instance (g : Geometry) (page : ℕ) : Decidable (g.Holds page) :=
  inferInstanceAs (Decidable (_ ∧ _))

instance (g : Geometry) (page : ℕ) : Decidable (g.HoldsBlock page) :=
  inferInstanceAs (Decidable (_ ∧ _))

theorem Valid.addrBytes {g : Geometry} (h : g.Valid) : g.byteAddrBytes + g.pageAddrBytes ≤ 8 := by
  have hbyte := h.byteAddrBytes
  have hpage := h.pageAddrBytes
  omega

theorem Valid.dataSize_lt {g : Geometry} (h : g.Valid) : g.dataSize < 2 ^ 32 := by
  rw [h.dataSize]
  exact Nat.mod_lt _ (by decide)

theorem Valid.bit_iff {g : Geometry} (h : g.Valid) (offset : ℕ) :
    4 * (offset / 4224 / 32) + 4 ≤ g.dirtyPagesSize ↔
      offset < (g.dataSize + 135167) / 135168 * 135168 := by
  rw [h.dirtyPagesSize]
  omega

theorem Valid.bit_of_lt {g : Geometry} (h : g.Valid) {offset : ℕ} (hlt : offset < g.dataSize) :
    4 * (offset / 4224 / 32) + 4 ≤ g.dirtyPagesSize := by
  rw [h.bit_iff]
  omega

end Geometry

variable {g : Geometry} {nand nand' : NAND} {val : Byte}

def addrValLE (nand : NAND) (startByte numBytes : ℕ) : ℕ :=
  (List.range numBytes).foldl
    (fun ret i => u32 (u32 (ret * 256) + (nand.addrBytes (startByte + numBytes - 1 - i)).toNat)) 0

theorem access_ok {size start count : ℕ} (h : start + count ≤ size) :
    access size start count = .ok () :=
  if_pos h

theorem access_error {size start count : ℕ} (h : ¬ start + count ≤ size) :
    access size start count = .error .outOfBounds :=
  if_neg h

theorem nandPrvGetAddrValLE_eq {startByte numBytes : ℕ} (h : startByte + numBytes ≤ 8) :
    nandPrvGetAddrValLE nand startByte numBytes = .ok (addrValLE nand startByte numBytes) := by
  rw [nandPrvGetAddrValLE, foldlM_checked (I := fun _ => True) (P := fun _ => True)
    (e := .outOfBounds) (f := fun ret i =>
      u32 (u32 (ret * 256) + (nand.addrBytes (startByte + numBytes - 1 - i)).toNat))]
  · simp [addrValLE]
  · trivial
  · simp
  · intro ret i _
    rw [access_ok (by omega)]
    rfl

def pageAddr (g : Geometry) (nand : NAND) (addrOfst : ℕ) : ℕ :=
  addrValLE nand addrOfst g.pageAddrBytes

def byteAddr (g : Geometry) (nand : NAND) : ℕ := addrValLE nand 0 g.byteAddrBytes

theorem nandPrvGetPageAddr_zero (hg : g.Valid) :
    nandPrvGetPageAddr g nand 0 = .ok (pageAddr g nand 0) := by
  have haddr := hg.addrBytes
  exact nandPrvGetAddrValLE_eq (by omega)

theorem nandPrvGetPageAddr_byteAddrBytes (hg : g.Valid) :
    nandPrvGetPageAddr g nand g.byteAddrBytes = .ok (pageAddr g nand g.byteAddrBytes) :=
  nandPrvGetAddrValLE_eq hg.addrBytes

theorem nandPrvGetByteAddr_eq (hg : g.Valid) :
    nandPrvGetByteAddr g nand = .ok (byteAddr g nand) := by
  have haddr := hg.addrBytes
  exact nandPrvGetAddrValLE_eq (by omega)

def setBit (bitmap : ℕ → Word) (storagePage : ℕ) : ℕ → Word :=
  Function.update bitmap (storagePage / 32)
    (bitmap (storagePage / 32) ||| 1#32 <<< (storagePage % 32))

def marked (nand : NAND) (storagePage : ℕ) : NAND :=
  { nand with dirtyPages := setBit nand.dirtyPages storagePage }

theorem foldl_marked (xs : List ℕ) (nand : NAND) :
    xs.foldl marked nand = { nand with dirtyPages := xs.foldl setBit nand.dirtyPages } := by
  induction xs generalizing nand with
  | nil => rfl
  | cons page xs ih => exact ih _

theorem markStoragePage_eq (g : Geometry) (nand : NAND) (storagePage : ℕ) :
    markStoragePage g nand storagePage =
      if 4 * (storagePage / 32) + 4 ≤ g.dirtyPagesSize then .ok (marked nand storagePage)
      else .error .outOfBounds := by
  rw [markStoragePage, access]
  split <;> rfl

/-- The storage pages that an erased block marks: from its first byte to the byte behind it. -/
def blockPages (g : Geometry) (page : ℕ) : List ℕ :=
  List.range' (g.blockStart page / 4224)
    (u32 (g.blockStart page + g.blockSize) / 4224 + 1 - g.blockStart page / 4224)

def erased (g : Geometry) (nand : NAND) (page : ℕ) : NAND :=
  { nand with
    data := Buffer.copy nand.data (g.blockStart page) (fun _ => 0xff) g.blockSize
    dirtyPages := (blockPages g page).foldl setBit nand.dirtyPages
    dirty := true }

theorem blockPages_marked_iff (hg : g.Valid) {page : ℕ}
    (hle : g.blockStart page + g.blockSize ≤ g.dataSize) :
    (∀ storagePage ∈ blockPages g page, 4 * (storagePage / 32) + 4 ≤ g.dirtyPagesSize) ↔
      g.HoldsBlock page := by
  have hlt := hg.dataSize_lt
  have hend : u32 (g.blockStart page + g.blockSize) = g.blockStart page + g.blockSize :=
    Nat.mod_eq_of_lt (by omega)
  have hbit := hg.bit_iff (g.blockStart page + g.blockSize)
  rw [Geometry.HoldsBlock, blockPages, hend]
  constructor
  · intro h
    have hlast := hbit.mp (h ((g.blockStart page + g.blockSize) / 4224) (by
      rw [List.mem_range'_1]
      omega))
    refine ⟨hle, fun heq hdvd => ?_⟩
    omega
  · rintro ⟨-, hlast⟩ storagePage hmem
    rw [List.mem_range'_1] at hmem
    omega

theorem nandPrvBlockErase_eq (hg : g.Valid) (nand : NAND) :
    nandPrvBlockErase g nand =
      if pageAddr g nand 0 % 2 ^ g.pagesPerBlockLg2 ≠ 0 then .ok (false, nand)
      else if g.HoldsBlock (pageAddr g nand 0) then .ok (true, erased g nand (pageAddr g nand 0))
      else .error .outOfBounds := by
  rw [nandPrvBlockErase, nandPrvGetPageAddr_zero hg]
  change (if pageAddr g nand 0 % 2 ^ g.pagesPerBlockLg2 ≠ 0 then refuse nand else
    access g.dataSize (g.blockStart (pageAddr g nand 0)) g.blockSize >>= fun _ =>
      (blockPages g (pageAddr g nand 0)).foldlM (markStoragePage g) _ >>= fun nand =>
        accept { nand with dirty := true }) = _
  split
  · rfl
  · by_cases hle : g.blockStart (pageAddr g nand 0) + g.blockSize ≤ g.dataSize
    · rw [access_ok hle, ← if_congr (blockPages_marked_iff hg hle) rfl rfl]
      rw [foldlM_checked (I := fun _ => True) trivial (fun _ _ _ => trivial)
        fun nand page _ => markStoragePage_eq g nand page, foldl_marked]
      split <;> rfl
    · rw [access_error hle, if_neg fun h => hle h.1]
      rfl

def andByte (start : ℕ) (pageBuf data : ℕ → Byte) (i : ℕ) : ℕ → Byte :=
  Function.update data (u32 (start + i)) (data (u32 (start + i)) &&& pageBuf i)

def byteProgrammed (g : Geometry) (nand : NAND) (i : ℕ) : NAND :=
  { nand with data := andByte (u32 (nand.pageNo * g.bytesPerPage)) nand.pageBuf nand.data i }

theorem foldl_byteProgrammed (xs : List ℕ) (nand : NAND) :
    xs.foldl (byteProgrammed g) nand = { nand with
      data := xs.foldl (andByte (u32 (nand.pageNo * g.bytesPerPage)) nand.pageBuf) nand.data } := by
  induction xs generalizing nand with
  | nil => rfl
  | cons i xs ih => exact ih _

def programmed (g : Geometry) (nand : NAND) : NAND :=
  let start := u32 (nand.pageNo * g.bytesPerPage)
  { nand with
    data := (List.range g.bytesPerPage).foldl (andByte start nand.pageBuf) nand.data
    dirtyPages := setBit nand.dirtyPages (start / 4224)
    dirty := true }

theorem pageBytes_inside_iff (hg : g.Valid) (page : ℕ) :
    (∀ i ∈ List.range g.bytesPerPage, u32 (u32 (page * g.bytesPerPage) + i) + 1 ≤ g.dataSize) ∧
        0 < g.bytesPerPage ↔ g.Holds page := by
  have hlt := hg.dataSize_lt
  have hstart : u32 (page * g.bytesPerPage) < 2 ^ 32 := Nat.mod_lt _ (by decide)
  constructor
  · rintro ⟨h, hpos⟩
    refine ⟨hpos, ?_⟩
    by_cases hwrap : u32 (page * g.bytesPerPage) + g.bytesPerPage ≤ 2 ^ 32
    · have hlast := h (g.bytesPerPage - 1) (List.mem_range.mpr (by omega))
      rw [u32, Nat.mod_eq_of_lt (by omega)] at hlast
      omega
    · have hlast := h (2 ^ 32 - 1 - u32 (page * g.bytesPerPage)) (List.mem_range.mpr (by omega))
      rw [u32, Nat.mod_eq_of_lt (by omega)] at hlast
      omega
  · rintro ⟨hpos, hle⟩
    refine ⟨fun i hi => ?_, hpos⟩
    have hlti := List.mem_range.mp hi
    rw [u32, Nat.mod_eq_of_lt (by omega)]
    omega

theorem programByte_eq (nand : NAND) (i : ℕ) :
    programByte g nand i =
      if i + 1 ≤ g.bytesPerPage ∧ u32 (u32 (nand.pageNo * g.bytesPerPage) + i) + 1 ≤ g.dataSize then
        .ok (byteProgrammed g nand i)
      else .error .outOfBounds := by
  rw [programByte, access, access]
  by_cases hpage : i + 1 ≤ g.bytesPerPage
  · by_cases hdata : u32 (u32 (nand.pageNo * g.bytesPerPage) + i) + 1 ≤ g.dataSize
    · simp only [hpage, hdata, and_self, if_true]
      rfl
    · simp only [hpage, hdata, and_false, if_true, if_false]
      rfl
  · simp only [hpage, false_and, if_false]
    rfl

theorem programBytes_eq (nand : NAND) :
    (List.range g.bytesPerPage).foldlM (programByte g) nand =
      if ∀ i ∈ List.range g.bytesPerPage,
          u32 (u32 (nand.pageNo * g.bytesPerPage) + i) + 1 ≤ g.dataSize then
        .ok ((List.range g.bytesPerPage).foldl (byteProgrammed g) nand)
      else .error .outOfBounds := by
  have hbody : ∀ s i, s.pageNo = nand.pageNo → programByte g s i =
      if i + 1 ≤ g.bytesPerPage ∧ u32 (u32 (nand.pageNo * g.bytesPerPage) + i) + 1 ≤ g.dataSize then
        .ok (byteProgrammed g s i)
      else .error .outOfBounds := by
    intro s i h
    rw [programByte_eq, h]
  rw [foldlM_checked (f := byteProgrammed g) (I := fun s => s.pageNo = nand.pageNo) rfl (fun _ _ h => h) hbody]
  apply if_congr _ rfl rfl
  apply forall₂_congr
  intro i hi
  exact and_iff_right (List.mem_range.mp hi)

theorem nandPrvPageProgram_eq (hg : g.Valid) (nand : NAND) :
    nandPrvPageProgram g nand =
      if g.Holds nand.pageNo then .ok (true, programmed g nand) else .error .outOfBounds := by
  have hinside := pageBytes_inside_iff hg nand.pageNo
  rw [nandPrvPageProgram, programBytes_eq]
  by_cases hbytes : ∀ i ∈ List.range g.bytesPerPage,
      u32 (u32 (nand.pageNo * g.bytesPerPage) + i) + 1 ≤ g.dataSize
  · rw [if_pos hbytes, foldl_byteProgrammed]
    change markStoragePage g _ (u32 (nand.pageNo * g.bytesPerPage) / 4224) >>= _ = _
    rw [markStoragePage_eq]
    by_cases hpos : 0 < g.bytesPerPage
    · have hholds := hinside.mp ⟨hbytes, hpos⟩
      have hend := hholds.2
      rw [if_pos hholds, if_pos (hg.bit_of_lt (by omega))]
      rfl
    · have hempty : g.dirtyPagesSize = 0 := by
        rw [hg.dirtyPagesSize, hg.dataSize, Nat.eq_zero_of_not_pos hpos, Nat.zero_mul]
        rfl
      rw [if_neg (by omega), if_neg fun h : g.Holds nand.pageNo => hpos h.1]
      rfl
  · rw [if_neg hbytes, if_neg fun h => hbytes (hinside.mpr h).1]
    rfl

/-- A byte can be taken from the column, after the following page is loaded where one ends. -/
def Geometry.InPage (g : Geometry) (page column : ℕ) : Prop :=
  column < g.bytesPerPage ∨ column = g.bytesPerPage ∧ g.Holds (u32 (page + 1))

instance (g : Geometry) (page column : ℕ) : Decidable (g.InPage page column) :=
  inferInstanceAs (Decidable (_ ∨ _))

theorem Geometry.InPage.pos {page column : ℕ} (h : g.InPage page column) : 0 < g.bytesPerPage := by
  rcases h with hlt | ⟨-, hholds⟩
  · omega
  · exact hholds.1

def loaded (g : Geometry) (nand : NAND) : NAND :=
  { nand with
    pageBuf := Buffer.copy nand.pageBuf 0
      (fun i => nand.data (u32 (nand.pageNo * g.bytesPerPage) + i)) g.bytesPerPage }

theorem loadPage_eq (g : Geometry) (nand : NAND) :
    loadPage g nand =
      if u32 (nand.pageNo * g.bytesPerPage) + g.bytesPerPage ≤ g.dataSize then .ok (loaded g nand)
      else .error .outOfBounds := by
  rw [loadPage]
  by_cases h : u32 (nand.pageNo * g.bytesPerPage) + g.bytesPerPage ≤ g.dataSize
  · rw [if_pos h, access_ok h, access_ok (by omega)]
    rfl
  · rw [if_neg h, access_error h]
    rfl

def turned (g : Geometry) (nand : NAND) : NAND :=
  if nand.pageOfst = g.bytesPerPage then
    loaded g { nand with
      pageNo := u32 (nand.pageNo + 1)
      pageOfst := if nand.area = .C then 2 * g.areaSize else 0 }
  else nand

def advanced (nand : NAND) : NAND := { nand with pageOfst := u32 (nand.pageOfst + 1) }

theorem takeByte_eq (hg : g.Valid) (nand : NAND) (hC : nand.area = .C → g.viaAreas = true) :
    takeByte g nand =
      if g.InPage nand.pageNo nand.pageOfst then
        .ok (some ((turned g nand).pageBuf (turned g nand).pageOfst), advanced (turned g nand))
      else .error .outOfBounds := by
  rw [takeByte, turnPage, turned]
  by_cases hend : nand.pageOfst = g.bytesPerPage
  · rw [if_pos hend, if_pos hend, loadPage_eq]
    by_cases hholds : g.Holds (u32 (nand.pageNo + 1))
    · have hfirst : (if nand.area = .C then 2 * g.areaSize else 0) + 1 ≤ g.bytesPerPage := by
        split
        · exact hg.areaSize (hC ‹_›) hholds.1
        · exact hholds.1
      have hinside : g.InPage nand.pageNo nand.pageOfst := Or.inr ⟨hend, hholds⟩
      rw [if_pos hholds.2, if_pos hinside]
      change access g.bytesPerPage (if nand.area = .C then 2 * g.areaSize else 0) 1 >>= _ = _
      rw [access_ok hfirst]
      rfl
    · have hout : ¬ g.InPage nand.pageNo nand.pageOfst := by
        rintro (hlt | ⟨-, h⟩)
        · omega
        · exact hholds h
      rw [if_neg hout]
      by_cases hpage : u32 (u32 (nand.pageNo + 1) * g.bytesPerPage) + g.bytesPerPage ≤ g.dataSize
      · have hempty : ¬ 0 < g.bytesPerPage := fun hpos => hholds ⟨hpos, hpage⟩
        rw [if_pos hpage]
        change access g.bytesPerPage (if nand.area = .C then 2 * g.areaSize else 0) 1 >>= _ = _
        rw [access_error (by omega)]
        rfl
      · rw [if_neg hpage]
        rfl
  · rw [if_neg hend, if_neg hend]
    change access g.bytesPerPage nand.pageOfst 1 >>= _ = _
    by_cases hlt : nand.pageOfst < g.bytesPerPage
    · have hinside : g.InPage nand.pageNo nand.pageOfst := Or.inl hlt
      rw [access_ok hlt, if_pos hinside]
      rfl
    · have hout : ¬ g.InPage nand.pageNo nand.pageOfst := fun h => h.elim hlt fun h => hend h.1
      rw [access_error (by omega), if_neg hout]
      rfl

/-- The column where an operation begins. -/
def column (g : Geometry) (nand : NAND) : ℕ := u32 (g.areaStart nand.area + byteAddr g nand)

theorem leaveB_eq (nand : NAND) :
    leaveB nand = { nand with area := if nand.area = .B then .A else nand.area } := by
  rw [leaveB]
  split <;> rfl

theorem selectColumn_eq (hg : g.Valid) (nand : NAND) :
    selectColumn g nand = .ok { leaveB nand with pageOfst := column g nand } := by
  rw [selectColumn, nandPrvGetByteAddr_eq hg]
  rfl

def started (g : Geometry) (nand : NAND) : NAND :=
  let page := pageAddr g nand g.byteAddrBytes
  { loaded g { nand with pageNo := page } with
    area := if nand.area = .B then .A else nand.area
    addrBytesRxed := 0xff
    pageOfst := column g nand }

theorem startRead_eq (hg : g.Valid) (nand : NAND) :
    startRead g nand =
      let page := pageAddr g nand g.byteAddrBytes
      if page ≥ g.pages then .ok (false, { nand with pageNo := page, addrBytesRxed := 0xff })
      else if u32 (page * g.bytesPerPage) + g.bytesPerPage ≤ g.dataSize then
        .ok (true, started g nand)
      else .error .outOfBounds := by
  rw [startRead, nandPrvGetPageAddr_byteAddrBytes hg]
  change (if pageAddr g nand g.byteAddrBytes ≥ g.pages then _ else _) = _
  dsimp only
  split
  · rfl
  · rw [loadPage_eq]
    split
    · change selectColumn g (loaded g _) >>= _ = _
      rw [selectColumn_eq hg, leaveB_eq]
      rfl
    · rfl

theorem startRead_counter (hg : g.Valid) (nand : NAND) (k : ℕ) :
    startRead g { nand with addrBytesRxed := k } = startRead g nand := by
  rfl

theorem area_of_started (h : (started g nand).area = .C) : nand.area = .C := by
  change (if nand.area = .B then K9nandArea.A else nand.area) = .C at h
  split at h
  · cases h
  · exact h

/-- What must hold of the page and the column that a data cycle reads from. -/
def ReadInside (g : Geometry) (nand : NAND) : Prop :=
  let page := pageAddr g nand g.byteAddrBytes
  ((markRead g nand).addrBytesRxed = 0xfe → page < g.pages →
      g.Holds page ∧ g.InPage page (column g nand)) ∧
    ((markRead g nand).addrBytesRxed = 0xff → g.InPage nand.pageNo nand.pageOfst)

theorem markRead_eq (g : Geometry) (nand : NAND) :
    markRead g nand = { nand with addrBytesRxed := (markRead g nand).addrBytesRxed } := by
  rw [markRead]
  split <;> rfl

end Cloudpilot.Uarm.NandFlash
