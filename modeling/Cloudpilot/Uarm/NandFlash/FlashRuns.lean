import Cloudpilot.Uarm.NandFlash.FlashCycles

/-! # The NAND flash as a flash memory

Harmless operations do to the content what they do to a flash memory, and mark every storage page
that they change.
-/

namespace Cloudpilot.Uarm.NandFlash

open Cpu Cloudpilot.Library FlashMemory List Nat
open Peripherals (Byte K9nandState K9nandArea)

variable {g : Geometry} {nand nand' : NAND} {flash : Flash} {content : ℕ → Byte}
  {address bytes : List Byte} {pos : ℕ}

theorem dirtyBit_setBit {bitmap : ℕ → Word} {page storagePage : ℕ} :
    DirtyBit (setBit bitmap page) storagePage ↔ DirtyBit bitmap storagePage ∨ storagePage = page := by
  have hbit : page % 32 < 32 := mod_lt _ (by decide)
  rw [DirtyBit, DirtyBit, setBit]
  by_cases hword : storagePage / 32 = page / 32
  · rw [hword, Function.update_self, BitVec.getLsbD_or, BitTest.getLsbD_bit hbit]
    simp only [Bool.or_eq_true, decide_eq_true_eq]
    apply or_congr_right
    omega
  · rw [Function.update_of_ne hword]
    apply (or_iff_left _).symm
    rintro rfl
    exact hword rfl

theorem dirtyBit_foldl_setBit {xs : List ℕ} {bitmap : ℕ → Word} {storagePage : ℕ} :
    DirtyBit (xs.foldl setBit bitmap) storagePage ↔
      DirtyBit bitmap storagePage ∨ storagePage ∈ xs := by
  induction xs generalizing bitmap with
  | nil => simp
  | cons page xs ih => rw [foldl_cons, ih, dirtyBit_setBit, mem_cons, or_assoc]

theorem storagePage_eq (hdvd : g.bytesPerPage ∣ 4224) {page column : ℕ}
    (hlt : column < g.bytesPerPage) :
    (page * g.bytesPerPage + column) / 4224 = page * g.bytesPerPage / 4224 := by
  obtain ⟨m, hm⟩ := hdvd
  have hpos : 0 < g.bytesPerPage := by omega
  rw [hm, ← Nat.div_div_eq_div_mul, ← Nat.div_div_eq_div_mul, Nat.mul_div_cancel _ hpos,
    Nat.mul_comm, Nat.mul_add_div hpos, Nat.div_eq_of_lt hlt, Nat.add_zero]

theorem foldl_andByte {start count : ℕ} {pageBuf data : ℕ → Byte} (hend : start + count ≤ 2 ^ 32) :
    (List.range count).foldl (andByte start pageBuf) data = fun pos =>
      if start ≤ pos ∧ pos < start + count then data pos &&& pageBuf (pos - start)
      else data pos := by
  induction count with
  | zero =>
    funext pos
    rw [if_neg (by omega)]
    rfl
  | succ count ih =>
    rw [range_succ, foldl_append, ih (by omega)]
    funext pos
    simp only [foldl_cons, foldl_nil, andByte]
    rw [u32, mod_eq_of_lt (by omega)]
    by_cases hpos : pos = start + count <;> grind

/-- The flash between two operations, and the flash memory that it stands for. -/
structure Agrees (g : Geometry) (content : ℕ → Byte) (nand : NAND) (flash : Flash) : Prop where
  idle : nand.state = .reset ∨ nand.state = .reading
  pointer : nand.area = flash.pointer
  areas : flash.pointer ≠ .A → g.viaAreas = true
  data : ∀ pos < g.dataSize, nand.data pos = flash.memory.read content pos
  tracked : Tracked nand flash

theorem Agrees.mayBegin (h : Agrees g content nand flash) : mayBegin nand = true := by
  rw [NandFlash.mayBegin]
  rcases h.idle with hstate | hstate <;> simp [hstate]

theorem Agrees.begins (h : Agrees g content nand flash) {val : Byte} {state : K9nandState}
    (hcommand : ∀ nand, nandCommand g nand val =
      if NandFlash.mayBegin nand then accept (enter nand state) else refuse nand) :
    nandWrite g { nand with busyCt := 0 } true false val = .ok (true, begun nand state) := by
  have hmay : NandFlash.mayBegin { nand with busyCt := 0 } = true := h.mayBegin
  change nandCommand g { nand with busyCt := 0 } val = _
  rw [hcommand, if_pos hmay]
  rfl

theorem afterUse_ne_B (area : K9nandArea) : afterUse area ≠ .B := by grind [afterUse]

theorem areas_afterUse (h : flash.pointer ≠ .A → g.viaAreas = true)
    (hne : afterUse flash.pointer ≠ .A) : g.viaAreas = true := by
  apply h
  rintro heq
  rw [heq] at hne
  exact hne rfl

theorem areaStart_add_columnOf_lt (hg : g.Valid) (hpos : 0 < g.bytesPerPage)
    (hsmall : g.bytesPerPage ≤ 4224) (area : K9nandArea) (address : List Byte) :
    g.areaStart area + g.columnOf address < 2 ^ 32 := by
  have hcolumn := number_lt (address.take g.byteAddrBytes)
  have hlength : (address.take g.byteAddrBytes).length ≤ 2 := by
    have := hg.byteAddrBytes_le hpos (by omega)
    rw [length_take]
    omega
  have hpow : 256 ^ (address.take g.byteAddrBytes).length ≤ 256 ^ 2 :=
    Nat.pow_le_pow_right (by decide) hlength
  have harea : g.areaStart area ≤ 2 * g.areaSize := by
    cases area with
    | A => exact Nat.zero_le _
    | B => exact Nat.le_mul_of_pos_left _ (by decide)
    | C => exact le_refl _
  have hsize := hg.areaSize_lt
  rw [Geometry.columnOf]
  omega

theorem column_placed (hg : g.Valid) (hpos : 0 < g.bytesPerPage) (hsmall : g.bytesPerPage ≤ 4224)
    (hrxed : nand.addrBytesRxed = 0) (hlength : address.length = g.addrBytesTotal) :
    column g (placed nand address) = g.areaStart nand.area + g.columnOf address := by
  rw [column, byteAddr_placed hg hrxed hlength]
  exact mod_eq_of_lt (areaStart_add_columnOf_lt hg hpos hsmall nand.area address)

/-- The flash when the address of a program operation is taken over. -/
def programming (g : Geometry) (nand : NAND) (address : List Byte) : NAND :=
  { placed nand address with
    state := .programDataRxing
    area := afterUse nand.area
    pageNo := g.pageOf address
    pageOfst := g.areaStart nand.area + g.columnOf address
    pageBuf := Buffer.copy nand.pageBuf 0 (fun _ => 0xff) g.bytesPerPage }

theorem nandData_first (hg : g.Valid) (hpos : 0 < g.bytesPerPage) (hsmall : g.bytesPerPage ≤ 4224)
    (hstate : nand.state = .programAddrRxing) (hrxed : nand.addrBytesRxed = 0)
    (hlength : address.length = g.addrBytesTotal) (hpage : g.pageOf address < g.pages) (b : Byte) :
    nandData g (placed nand address) b =
      nandPrvAcceptProgramData g (programming g nand address) b := by
  have hcount : (placed nand address).addrBytesRxed = g.addrBytesTotal := by
    change nand.addrBytesRxed + address.length = _
    omega
  rw [nandData, show (placed nand address).state = .programAddrRxing from hstate]
  rw [if_neg (not_not.mpr hcount), nandPrvGetPageAddr_byteAddrBytes hg,
    pageAddr_placed hg hrxed hlength]
  change (if g.pageOf address ≥ g.pages then _ else _) = _
  rw [if_neg (by omega), access_ok (by omega)]
  rw [selectColumn_eq hg, leaveB_eq]
  change nandPrvAcceptProgramData g { placed nand address with
    state := .programDataRxing
    area := afterUse nand.area
    pageNo := g.pageOf address
    pageOfst := column g (placed nand address)
    pageBuf := Buffer.copy nand.pageBuf 0 (fun _ => 0xff) g.bytesPerPage } b = _
  rw [column_placed hg hpos hsmall hrxed hlength]
  rfl

theorem exchangeAll_program_data (hg : g.Valid) (hpos : 0 < g.bytesPerPage)
    (hsmall : g.bytesPerPage ≤ 4224) (hstate : nand.state = .programAddrRxing)
    (hrxed : nand.addrBytesRxed = 0) (hlength : address.length = g.addrBytesTotal)
    (hpage : g.pageOf address < g.pages) (hne : bytes ≠ []) :
    ∃ pageOfst, exchangeAll g (placed nand address) (dataCycles bytes) =
      .ok ([], { programming g nand address with
        pageBuf := filled g (programming g nand address) bytes
        pageOfst := pageOfst }) := by
  obtain ⟨b, rest, rfl⟩ := exists_cons_of_ne_nil hne
  have hprogramming : (programming g nand address).state = .programDataRxing := rfl
  obtain ⟨pageOfst, hdata⟩ := exchangeAll_data hg.bytesPerPage hprogramming
  refine ⟨pageOfst, ?_⟩
  rw [← hdata]
  have hfirst : nandWrite g (placed nand address) false false b =
      nandWrite g (programming g nand address) false false b :=
    nandData_first hg hpos hsmall hstate hrxed hlength hpage b
  change exchangeAll g _ (.write false false b :: dataCycles rest) =
    exchangeAll g _ (.write false false b :: dataCycles rest)
  rw [exchangeAll, exchange, hfirst, exchangeAll, exchange]

theorem nandCommand_program (hg : g.Valid) (hstate : nand.state = .programDataRxing)
    (hready : nand.busyCt = 0) (harea : nand.area ≠ .B) (hholds : g.Holds nand.pageNo) :
    nandCommand g nand 0x10 =
      accept (enter { programmed g nand with busyCt := 10 } .reset) := by
  have hleave : leaveB nand = nand := if_neg harea
  change (if (leaveB nand).state ≠ .programDataRxing then refuse (leaveB nand)
    else nandPrvPageProgram g (leaveB nand) >>= _) = _
  rw [hleave, if_neg (not_not.mpr hstate), nandPrvPageProgram_eq hg, if_pos hholds]
  change nandPrvBusy (programmed g nand) 10 >>= _ = _
  rw [nandPrvBusy_eq (show (programmed g nand).busyCt = 0 from hready)]
  rfl

theorem programHits_inside (h : g.programHits flash.pointer address bytes pos ≠ none) :
    ∃ column < g.bytesPerPage, pos = g.pageOf address * g.bytesPerPage + column := by
  rw [Geometry.programHits] at h
  split at h
  · rename_i hrange
    simp only [Geometry.position, add_mul, one_mul, add_zero] at hrange
    exact ⟨pos - g.pageOf address * g.bytesPerPage, by omega, by omega⟩
  · grind

theorem programHits_eq (g : Geometry) (area : K9nandArea) (column : ℕ) :
    g.programHits area address bytes (g.pageOf address * g.bytesPerPage + column) =
      if g.areaStart area + g.columnOf address ≤ column ∧ column < g.bytesPerPage then
        (bytes[column - (g.areaStart area + g.columnOf address)]?).map .program
      else none := by
  rw [Geometry.programHits]
  simp only [Geometry.position, Nat.add_mul, Nat.one_mul, Nat.add_zero]
  rw [Nat.add_sub_add_left]
  apply if_congr _ rfl rfl
  omega

theorem filled_programming {column : ℕ} (hlt : column < g.bytesPerPage) :
    filled g (programming g nand address) bytes column =
      if g.areaStart nand.area + g.columnOf address ≤ column ∧ column < g.bytesPerPage then
        (bytes[column - (g.areaStart nand.area + g.columnOf address)]?).getD 0xff
      else 0xff := by
  have hblank : (programming g nand address).pageBuf column = 0xff := by
    change Buffer.copy nand.pageBuf 0 (fun _ => 0xff) g.bytesPerPage column = _
    rw [Buffer.copy_zero hlt]
  rw [filled, hblank]
  rfl

theorem and_filled (harea : nand.area = flash.pointer) {column : ℕ} (hlt : column < g.bytesPerPage)
    (hpos : pos = g.pageOf address * g.bytesPerPage + column) :
    flash.memory.read content pos &&& filled g (programming g nand address) bytes column =
      (flash.memory.strike content (g.programHits flash.pointer address bytes)).read content pos := by
  have hones (b : Byte) : b &&& 0xff = b := BitVec.and_allOnes
  have hhit : g.programHits flash.pointer address bytes
      (g.pageOf address * g.bytesPerPage + column) = _ := programHits_eq g flash.pointer column
  rw [← hpos] at hhit
  rw [filled_programming hlt, harea]
  by_cases hstart : g.areaStart flash.pointer + g.columnOf address ≤ column ∧ column < g.bytesPerPage
  · rw [if_pos hstart] at hhit ⊢
    cases hbyte : bytes[column - (g.areaStart flash.pointer + g.columnOf address)]? with
    | none =>
      rw [hbyte] at hhit
      rw [Memory.read_strike_none hhit]
      exact hones _
    | some b =>
      rw [hbyte] at hhit
      rw [Memory.read_strike_program hhit]
      rfl
  · rw [if_neg hstart] at hhit ⊢
    rw [Memory.read_strike_none hhit]
    exact hones _

theorem programmed_agrees (hg : g.Valid) (hdvd : g.bytesPerPage ∣ 4224)
    (h : Agrees g content nand flash) (hfits : g.bytesPerPage * g.pages < 2 ^ 32)
    (hpage : g.pageOf address < g.pages) {start : NAND} (hstart : start = begun nand .programAddrRxing)
    {pageOfst : ℕ} :
    Agrees g content (enter { programmed g { programming g start address with
        pageBuf := filled g (programming g start address) bytes
        pageOfst := pageOfst } with busyCt := 10 } .reset)
      (flash.step g content (.program address bytes)) := by
  have hend := hg.pageEnd_le hfits hpage
  have hlt := hg.dataSize_lt
  have hpageStart := hg.pageStart_eq hfits hpage
  have harea : start.area = flash.pointer := by
    rw [hstart]
    exact h.pointer
  refine ⟨Or.inl rfl, ?_, areas_afterUse h.areas, ?_, ?_⟩
  · change afterUse start.area = afterUse flash.pointer
    rw [harea]
  · intro pos hlt
    change (List.range g.bytesPerPage).foldl
      (andByte (u32 (g.pageOf address * g.bytesPerPage))
        (filled g (programming g start address) bytes)) start.data pos = _
    have hold : start.data pos = flash.memory.read content pos := by
      rw [hstart]
      exact h.data pos hlt
    rw [hpageStart, foldl_andByte (by omega)]
    dsimp only
    rw [hold]
    split
    · exact and_filled harea (by omega) (by omega)
    · have hmiss : g.programHits flash.pointer address bytes pos = none := by
        by_contra hhit
        obtain ⟨column, hcolumn, rfl⟩ := programHits_inside hhit
        omega
      exact (Memory.read_strike_none hmiss).symm
  · intro pos hchanged
    change DirtyBit (setBit start.dirtyPages (u32 (g.pageOf address * g.bytesPerPage) / 4224))
      (pos / 4224)
    rw [dirtyBit_setBit, hpageStart, hstart]
    rcases Memory.mem_changed_strike hchanged with hold | hhit
    · exact Or.inl (h.tracked pos hold)
    · obtain ⟨column, hcolumn, rfl⟩ := programHits_inside hhit
      exact Or.inr (storagePage_eq hdvd hcolumn)

theorem program_agrees (hg : g.Valid) (hdvd : g.bytesPerPage ∣ 4224)
    (h : Agrees g content nand flash) (hrange : (Operation.program address bytes).InRange g)
    (hharmless : (Operation.program address bytes).Harmless g) :
    ∃ nand', perform g nand (.program address bytes) = .ok ([], nand') ∧
      Agrees g content nand' (flash.step g content (.program address bytes)) := by
  obtain ⟨hlength, hne, hpage⟩ := hrange
  have hfits : g.bytesPerPage * g.pages < 2 ^ 32 := hharmless
  have hpos : 0 < g.bytesPerPage := pos_of_dvd_of_pos hdvd (by decide)
  have hsmall : g.bytesPerPage ≤ 4224 := le_of_dvd (by decide) hdvd
  let start := begun nand .programAddrRxing
  have hbegin : nandWrite g { nand with busyCt := 0 } true false 0x80 = .ok (true, start) :=
    h.begins fun _ => rfl
  have haddress : exchangeAll g start (addressCycles address) = .ok ([], placed start address) := by
    apply exchangeAll_address (show g.addrBytesTotal ≤ 8 from hg.addrBytes)
    · intro nand' val hstate hlt
      rw [nandAddress, show nand'.state = .programAddrRxing from hstate]
      dsimp only
      rw [if_neg (by omega)]
    · change 0 + address.length ≤ _
      omega
  have hstate : start.state = .programAddrRxing := rfl
  obtain ⟨pageOfst, hdata⟩ :=
    exchangeAll_program_data hg hpos hsmall hstate rfl hlength hpage hne
  let full : NAND := { programming g start address with
    pageBuf := filled g (programming g start address) bytes
    pageOfst := pageOfst }
  have hcommit : nandWrite g full true false 0x10 =
      .ok (true, enter { programmed g full with busyCt := 10 } .reset) :=
    nandCommand_program hg rfl rfl (afterUse_ne_B nand.area) (hg.holds hfits hpos hpage)
  refine ⟨_, exchangeAll_append (exchangeAll_ready nand) (exchangeAll_write hbegin
    (exchangeAll_append (exchangeAll_append haddress hdata) (exchangeAll_write hcommit rfl))), ?_⟩
  exact programmed_agrees hg hdvd h hfits hpage rfl

theorem nandCommand_erase (hg : g.Valid) (hstate : nand.state = .eraseAddrRxing)
    (hrxed : nand.addrBytesRxed = 2) (hready : nand.busyCt = 0) {page : ℕ}
    (hpage : pageAddr g nand 0 = page) (hdvd : 2 ^ g.pagesPerBlockLg2 ∣ page)
    (hholds : g.HoldsBlock page) :
    nandCommand g nand 0xd0 =
      accept (enter { erased g nand page with area := afterUse nand.area, busyCt := 100 } .reset) := by
  have hleave : leaveB nand = { nand with area := afterUse nand.area } := leaveB_eq nand
  have haddr : pageAddr g { nand with area := afterUse nand.area } 0 = page := hpage
  change (if (leaveB nand).state ≠ .eraseAddrRxing ∨ (leaveB nand).addrBytesRxed ≠ 2
    then refuse (leaveB nand) else nandPrvBlockErase g (leaveB nand) >>= _) = _
  rw [hleave]
  rw [if_neg (by simp [hstate, hrxed]), nandPrvBlockErase_eq hg, haddr,
    if_neg (not_not.mpr (mod_eq_zero_of_dvd hdvd)), if_pos hholds]
  change nandPrvBusy (erased g { nand with area := afterUse nand.area } page) 100 >>= _ = _
  rw [nandPrvBusy_eq
    (show (erased g { nand with area := afterUse nand.area } page).busyCt = 0 from hready)]
  rfl

theorem blockEnd_le (hg : g.Valid) {page : ℕ} (hdvd : 2 ^ g.pagesPerBlockLg2 ∣ page)
    (hpage : page < g.pages) : page + 2 ^ g.pagesPerBlockLg2 ≤ g.pages := by
  have hword : 2 ^ g.pagesPerBlockLg2 ∣ 2 ^ 32 :=
    Nat.pow_dvd_pow 2 (Nat.le_of_lt hg.pagesPerBlockLg2)
  have hpages : 2 ^ g.pagesPerBlockLg2 ∣ g.pages :=
    (Nat.dvd_mod_iff hword).mpr (Nat.dvd_mul_left _ _)
  obtain ⟨a, ha⟩ := hdvd
  obtain ⟨b, hb⟩ := hpages
  rw [ha, hb] at hpage ⊢
  have hlt : a < b := Nat.lt_of_mul_lt_mul_left hpage
  exact Nat.mul_le_mul_left _ hlt

theorem block_eq (hg : g.Valid) (hfits : g.bytesPerPage * g.pages < 2 ^ 32) {page : ℕ}
    (hend : page + 2 ^ g.pagesPerBlockLg2 ≤ g.pages) :
    g.blockStart page = page * g.bytesPerPage ∧
      g.blockSize = 2 ^ g.pagesPerBlockLg2 * g.bytesPerPage ∧
      g.dataSize = g.pages * g.bytesPerPage ∧
      page * g.bytesPerPage + 2 ^ g.pagesPerBlockLg2 * g.bytesPerPage ≤ g.dataSize := by
  have hsize : g.dataSize = g.pages * g.bytesPerPage := by grind [hg.dataSize, u32, mul_comm]
  have hmul := mul_le_mul_right g.bytesPerPage hend
  rw [add_mul, ← hsize] at hmul
  have hlt := hg.dataSize_lt
  refine ⟨mod_eq_of_lt (by omega), ?_, hsize, hmul⟩
  rw [Geometry.blockSize, mul_comm]
  exact mod_eq_of_lt (by omega)

theorem holdsBlock_of_end (hg : g.Valid) (hfits : g.bytesPerPage * g.pages < 2 ^ 32)
    (hpos : 0 < g.bytesPerPage) {page : ℕ} (hend : page + 2 ^ g.pagesPerBlockLg2 ≤ g.pages)
    (hlast : page + 2 ^ g.pagesPerBlockLg2 = g.pages → ¬ 135168 ∣ g.bytesPerPage * g.pages) :
    g.HoldsBlock page := by
  obtain ⟨hstart, hsize, hdata, hle⟩ := block_eq hg hfits hend
  rw [Geometry.HoldsBlock, hstart, hsize]
  refine ⟨hle, fun heq => ?_⟩
  rw [hdata, ← add_mul] at heq
  rw [hdata, mul_comm]
  exact hlast (eq_of_mul_eq_mul_right hpos heq)

theorem eraseHits_eq_some_iff {hit : Stroke 8} :
    g.eraseHits address pos = some hit ↔ hit = .erase ∧ number address * g.bytesPerPage ≤ pos ∧
      pos < number address * g.bytesPerPage + 2 ^ g.pagesPerBlockLg2 * g.bytesPerPage := by
  rw [Geometry.eraseHits]
  simp only [Geometry.position, add_mul, add_zero]
  split <;> grind

theorem erased_agrees (hg : g.Valid) (h : Agrees g content nand flash)
    (hfits : g.bytesPerPage * g.pages < 2 ^ 32)
    (hend : number address + 2 ^ g.pagesPerBlockLg2 ≤ g.pages) {start : NAND}
    (hstart : start = begun nand .eraseAddrRxing) :
    Agrees g content (enter { erased g (placed start address) (number address) with
        area := afterUse start.area
        busyCt := 100 } .reset) (flash.step g content (.erase address)) := by
  obtain ⟨hblock, hsize, -, hle⟩ := block_eq hg hfits hend
  have hlt := hg.dataSize_lt
  refine ⟨Or.inl rfl, ?_, areas_afterUse h.areas, ?_, ?_⟩
  · rw [hstart]
    exact congrArg afterUse h.pointer
  · intro pos hpos
    change Buffer.copy start.data (g.blockStart (number address)) (fun _ => 0xff) g.blockSize pos = _
    rw [hblock, hsize, Buffer.copy]
    split
    · rename_i hrange
      exact (Memory.read_strike_erase (eraseHits_eq_some_iff.mpr ⟨rfl, hrange⟩)).symm
    · rename_i hrange
      have hmiss : g.eraseHits address pos = none := by
        by_contra hhit
        obtain ⟨hit, hsome⟩ := Option.ne_none_iff_exists'.mp hhit
        exact hrange (eraseHits_eq_some_iff.mp hsome).2
      rw [hstart]
      exact (h.data pos hpos).trans (Memory.read_strike_none hmiss).symm
  · intro pos hchanged
    change DirtyBit ((blockPages g (number address)).foldl setBit start.dirtyPages) (pos / 4224)
    rw [dirtyBit_foldl_setBit, hstart]
    rcases Memory.mem_changed_strike hchanged with hold | hhit
    · exact Or.inl (h.tracked pos hold)
    · obtain ⟨hit, hsome⟩ := Option.ne_none_iff_exists'.mp hhit
      obtain ⟨-, hlow, hhigh⟩ := eraseHits_eq_some_iff.mp hsome
      right
      rw [blockPages, hblock, hsize, u32, mod_eq_of_lt (by omega), mem_range'_1]
      omega

theorem erase_agrees (hg : g.Valid) (hpos : 0 < g.bytesPerPage)
    (h : Agrees g content nand flash) (hrange : (Operation.erase address).InRange g)
    (hharmless : (Operation.erase address).Harmless g) :
    ∃ nand', perform g nand (.erase address) = .ok ([], nand') ∧
      Agrees g content nand' (flash.step g content (.erase address)) := by
  obtain ⟨hlength, hpage⟩ := hrange
  obtain ⟨hfits, htwo, hdvd, hlast⟩ := hharmless
  have hend := blockEnd_le hg hdvd hpage
  let start := begun nand .eraseAddrRxing
  have hbegin : nandWrite g { nand with busyCt := 0 } true false 0x60 = .ok (true, start) :=
    h.begins fun _ => rfl
  have haddress : exchangeAll g start (addressCycles address) = .ok ([], placed start address) := by
    apply exchangeAll_address (show g.pageAddrBytes ≤ 8 by omega)
    · intro nand' val hstate hlt
      rw [nandAddress, show nand'.state = .eraseAddrRxing from hstate]
      dsimp only
      rw [if_neg (by omega)]
    · change 0 + address.length ≤ _
      omega
  have hcount : (placed start address).addrBytesRxed = 2 := by
    change 0 + address.length = 2
    omega
  have hcommit := nandCommand_erase hg (show (placed start address).state = .eraseAddrRxing from rfl)
    hcount rfl (pageAddr_placed_erase hg rfl hlength) hdvd
    (holdsBlock_of_end hg hfits hpos hend hlast)
  refine ⟨_, exchangeAll_append (exchangeAll_ready nand) (exchangeAll_write hbegin
    (exchangeAll_append haddress (exchangeAll_write hcommit rfl))), ?_⟩
  exact erased_agrees hg h hfits hend rfl

theorem cells_afterUse (g : Geometry) (area : K9nandArea) (page column count : ℕ) :
    g.cells (afterUse area) page column count = g.cells area page column count := by
  have harea : afterUse area = .C ↔ area = .C := by
    cases area with
    | A => decide
    | B => decide
    | C => decide
  induction count generalizing page column with
  | zero => rfl
  | succ count ih => simp only [Geometry.cells, harea, ih]

theorem cells_column_lt (hg : g.Valid) (hpos : 0 < g.bytesPerPage) {area : K9nandArea}
    (hareas : area ≠ .A → g.viaAreas = true) {page column count : ℕ}
    (hle : column ≤ g.bytesPerPage) :
    ∀ cell ∈ g.cells area page column count, cell.2 < g.bytesPerPage := by
  have hC : area = .C → g.viaAreas = true := fun heq => hareas (by simp [heq])
  induction count generalizing page column with
  | zero => nofun
  | succ count ih =>
    have hnext : (g.nextCell area page column).2 < g.bytesPerPage :=
      Geometry.nextCell_lt hg hpos hC hle
    rw [Geometry.cells_succ, forall_mem_cons]
    exact ⟨hnext, ih hnext⟩

theorem nandCommand_read {area : K9nandArea} (hareas : area ≠ .A → g.viaAreas = true) :
    nandCommand g nand (readCommand area) = accept (enter { nand with area := area } .reading) := by
  cases area with
  | A => rfl
  | B =>
    change (if g.viaAreas then accept (enter { nand with area := .B } .reading) else _) = _
    rw [if_pos (hareas nofun)]
  | C =>
    change (if g.viaAreas then accept (enter { nand with area := .C } .reading) else _) = _
    rw [if_pos (hareas nofun)]

/-- The flash when the address of a read has been taken over. -/
structure Addressed (g : Geometry) (nand : NAND) (area : K9nandArea) (address : List Byte) : Prop where
  state : nand.state = .reading
  marked : (markRead g nand).addrBytesRxed = 0xfe
  pointer : nand.area = area
  page : pageAddr g nand g.byteAddrBytes = g.pageOf address
  column : column g nand = g.areaStart area + g.columnOf address

theorem Addressed.readData (hg : g.Valid) {area : K9nandArea}
    (h : Addressed g nand area address) (hholds : g.Holds (g.pageOf address))
    (hpage : g.pageOf address < g.pages) : readData g nand = takeByte g (started g nand) := by
  rw [NandFlash.readData, markRead_eq, h.marked]
  dsimp only
  rw [if_pos rfl, startRead_counter hg, startRead_eq hg, h.page]
  dsimp only
  rw [if_neg (by omega), if_pos hholds.2]
  rfl

theorem Addressed.reading (hg : g.Valid) (hfits : g.bytesPerPage * g.pages < 2 ^ 32)
    {area : K9nandArea} (h : Addressed g nand area address) (hpage : g.pageOf address < g.pages) :
    Reading g (started g nand) (g.pageOf address) (g.areaStart area + g.columnOf address) := by
  refine ⟨h.state, rfl, h.page, h.column, fun i hi => ?_⟩
  change Buffer.copy nand.pageBuf 0
    (fun i => nand.data (u32 (pageAddr g nand g.byteAddrBytes * g.bytesPerPage) + i))
    g.bytesPerPage i = nand.data _
  rw [Buffer.copy_zero hi, h.page, hg.pageStart_eq hfits hpage]

theorem Addressed.exchangeAll (hg : g.Valid) (hfits : g.bytesPerPage * g.pages < 2 ^ 32)
    (hpos : 0 < g.bytesPerPage) {area : K9nandArea} (hareas : area ≠ .A → g.viaAreas = true)
    (h : Addressed g nand area address) {count : ℕ} (hpage : g.pageOf address < g.pages)
    (hpages : ∀ cell ∈ g.readCells area address count, cell.1 < g.pages)
    (hcolumn : g.areaStart area + g.columnOf address ≤ g.bytesPerPage) :
    ∃ nand', exchangeAll g nand (List.replicate count (.read false false)) =
        .ok ((g.readCells area address count).map fun cell => nand.data (g.position cell), nand') ∧
      nand'.state = .reading ∧ nand'.area = (if count = 0 then area else afterUse area) ∧
        nand'.data = nand.data ∧ nand'.dirtyPages = nand.dirtyPages := by
  cases count with
  | zero => exact ⟨nand, rfl, h.state, h.pointer, rfl, rfl⟩
  | succ count =>
    have hreading := h.reading hg hfits hpage
    have harea : (started g nand).area = afterUse area := by
      rw [← h.pointer]
      rfl
    have hC : (started g nand).area = .C → g.viaAreas = true := by
      intro hstarted
      apply hareas
      rw [← h.pointer, area_of_started hstarted]
      nofun
    have hcells : ∀ cell ∈ g.cells (started g nand).area (g.pageOf address)
        (g.areaStart area + g.columnOf address) (count + 1), cell.1 < g.pages := by
      rwa [harea, cells_afterUse]
    obtain ⟨nand', hcycles, hsame⟩ := hreading.exchangeAll hg hC hfits hpos hcolumn hcells
    have hfirst : nandRead g nand false false = nandRead g (started g nand) false false := by
      rw [nandRead, nandRead, if_neg (by decide), h.state, hreading.state]
      exact (h.readData hg (hg.holds hfits hpos hpage) hpage).trans (hreading.readData hg).symm
    refine ⟨nand', ?_, hsame.state.trans hreading.state, hsame.area.trans harea, hsame.data,
      hsame.dirtyPages⟩
    rw [harea, cells_afterUse] at hcycles
    rw [replicate_succ, NandFlash.exchangeAll, exchange] at hcycles ⊢
    rwa [hfirst]

theorem pageAddr_congr (h : nand'.addrBytes = nand.addrBytes) (addrOfst : ℕ) :
    pageAddr g nand' addrOfst = pageAddr g nand addrOfst := by simp [pageAddr, addrValLE, h]

theorem column_congr (h : nand'.addrBytes = nand.addrBytes) (harea : nand'.area = nand.area) :
    column g nand' = column g nand := by simp [column, byteAddr, addrValLE, h, harea]

theorem addressed_placed (hg : g.Valid) (hpos : 0 < g.bytesPerPage) (hsmall : g.bytesPerPage ≤ 4224)
    (hstate : nand.state = .reading) (hrxed : nand.addrBytesRxed = 0)
    (hlength : address.length = g.addrBytesTotal)
    (hbytes : nand'.addrBytes = (placed nand address).addrBytes) (harea : nand'.area = nand.area)
    (hstate' : nand'.state = nand.state)
    (hmarked : nand'.addrBytesRxed = 0xfe ∨
      g.secondReadCmd = false ∧ nand'.addrBytesRxed = g.addrBytesTotal) :
    Addressed g nand' nand.area address := by
  refine ⟨hstate'.trans hstate, ?_, harea, ?_, ?_⟩
  · grind [markRead]
  · rw [pageAddr_congr hbytes, pageAddr_placed hg hrxed hlength]
  · rw [column_congr hbytes harea, column_placed hg hpos hsmall hrxed hlength]

theorem exchangeAll_secondCommand (hg : g.Valid) (hpos : 0 < g.bytesPerPage)
    (hsmall : g.bytesPerPage ≤ 4224) (hstate : nand.state = .reading) (hrxed : nand.addrBytesRxed = 0)
    (hlength : address.length = g.addrBytesTotal) (count : ℕ) :
    ∃ nand', exchangeAll g { placed nand address with busyCt := count }
        (if g.secondReadCmd then [commandCycle 0x30] else []) = .ok ([], nand') ∧
      Addressed g nand' nand.area address ∧ nand'.data = nand.data ∧
        nand'.dirtyPages = nand.dirtyPages := by
  have hcount : (placed nand address).addrBytesRxed = g.addrBytesTotal := by
    change nand.addrBytesRxed + address.length = _
    omega
  cases hsecond : g.secondReadCmd with
  | false =>
    refine ⟨_, rfl, ?_, rfl, rfl⟩
    exact addressed_placed hg hpos hsmall hstate hrxed hlength rfl rfl rfl (Or.inr ⟨hsecond, hcount⟩)
  | true =>
    have hcommand : nandWrite g { placed nand address with busyCt := count } true false 0x30 =
        .ok (true, { placed nand address with busyCt := count, addrBytesRxed := 0xfe }) := by
      change (if g.secondReadCmd ∧ (placed nand address).addrBytesRxed = g.addrBytesTotal then _
        else _) = _
      rw [if_pos ⟨hsecond, hcount⟩]
      rfl
    refine ⟨{ placed nand address with busyCt := count, addrBytesRxed := 0xfe }, ?_, ?_, rfl, rfl⟩
    · exact exchangeAll_write hcommand rfl
    · exact addressed_placed hg hpos hsmall hstate hrxed hlength rfl rfl rfl (Or.inl rfl)

theorem read_agrees (hg : g.Valid) (hpos : 0 < g.bytesPerPage) (hsmall : g.bytesPerPage ≤ 4224)
    (h : Agrees g content nand flash) {area : K9nandArea} {count : ℕ}
    (hrange : (Operation.read area address count).InRange g)
    (hharmless : (Operation.read area address count).Harmless g) :
    ∃ nand', perform g nand (.read area address count) =
        .ok (flash.answers g content (.read area address count), nand') ∧
      Agrees g content nand' (flash.step g content (.read area address count)) := by
  obtain ⟨hlength, hareas, hpage, hpages⟩ := hrange
  obtain ⟨hfits, hcolumn⟩ := hharmless
  let start := enter { nand with busyCt := 0, area := area } .reading
  have hbegin : nandWrite g { nand with busyCt := 0 } true false (readCommand area) =
      .ok (true, start) :=
    nandCommand_read hareas
  have hne : address ≠ [] := by
    rintro rfl
    have htotal : 0 = g.byteAddrBytes + g.pageAddrBytes := hlength
    have := hg.byteAddrBytes_pos
    omega
  have haddress : exchangeAll g start (addressCycles address) =
      .ok ([], { placed start address with busyCt := 1 }) :=
    exchangeAll_readAddress hg.addrBytes rfl rfl rfl hlength hne
  obtain ⟨ready, hsecond, haddressed, hdata, hdirty⟩ :=
    exchangeAll_secondCommand hg hpos hsmall (show start.state = .reading from rfl) rfl hlength 1
  obtain ⟨last, hcycles, hstate, harea, hdata', hdirty'⟩ :=
    haddressed.exchangeAll hg hfits hpos hareas hpage hpages hcolumn
  have hanswers : (g.readCells area address count).map (fun cell => ready.data (g.position cell)) =
      flash.answers g content (.read area address count) := by
    apply map_congr_left
    intro cell hcell
    have hend := hg.pageEnd_le hfits (hpages cell hcell)
    have hlt := cells_column_lt hg hpos hareas hcolumn cell hcell
    rw [hdata]
    exact h.data _ (by rw [Geometry.position]; omega)
  refine ⟨last, ?_, Or.inr hstate, harea, ?_, ?_, ?_⟩
  · rw [← hanswers]
    exact exchangeAll_append (exchangeAll_ready nand) (exchangeAll_write hbegin
      (exchangeAll_append (exchangeAll_append haddress hsecond) hcycles))
  · intro hpointer
    apply hareas
    rintro rfl
    have hA : (if count = 0 then K9nandArea.A else afterUse .A) = .A := ite_id _
    exact hpointer hA
  · intro pos hlt
    rw [hdata', hdata]
    exact h.data pos hlt
  · intro pos hchanged
    rw [hdirty', hdirty]
    exact h.tracked pos hchanged

theorem clear_agrees (h : Agrees g content nand flash) :
    Agrees g content { nand with dirtyPages := fun _ => 0 }
      (flash.step g content .clearDirtyPages) :=
  ⟨h.idle, h.pointer, h.areas, h.data, nofun⟩

theorem perform_agrees (hg : g.Valid) (hdvd : g.bytesPerPage ∣ 4224)
    (h : Agrees g content nand flash) {op : Operation} (hrange : op.InRange g)
    (hharmless : op.Harmless g) :
    ∃ nand', perform g nand op = .ok (flash.answers g content op, nand') ∧
      Agrees g content nand' (flash.step g content op) := by
  have hpos : 0 < g.bytesPerPage := pos_of_dvd_of_pos hdvd (by decide)
  cases op with
  | program address bytes => exact program_agrees hg hdvd h hrange hharmless
  | erase address => exact erase_agrees hg hpos h hrange hharmless
  | read area address count =>
    exact read_agrees hg hpos (le_of_dvd (by decide) hdvd) h hrange hharmless
  | clearDirtyPages => exact ⟨_, rfl, clear_agrees h⟩

theorem runCorrect_of_agrees (hg : g.Valid) (hdvd : g.bytesPerPage ∣ 4224)
    (h : Agrees g content nand flash) {ops : List Operation} (hrange : ∀ op ∈ ops, op.InRange g)
    (hharmless : ∀ op ∈ ops, op.Harmless g) : RunCorrect g content nand flash ops := by
  induction ops generalizing nand flash with
  | nil => exact h.tracked
  | cons op ops ih =>
    rw [forall_mem_cons] at hrange hharmless
    obtain ⟨nand', hperform, hagrees⟩ := perform_agrees hg hdvd h hrange.1 hharmless.1
    rw [RunCorrect, hperform]
    exact ⟨h.tracked, rfl, ih hagrees hrange.2 hharmless.2⟩

/-- From the start on, complete operations that are harmless read what a flash memory holds, and
every storage page that changes is marked. -/
theorem operations_correct {heap : ℕ → Byte} {nandSize : ℕ} {specs : NandSpecs}
    (h : nandInit content nandSize specs heap = some (g, nand)) (hdvd : g.bytesPerPage ∣ 4224)
    {ops : List Operation} (hrange : ∀ op ∈ ops, op.InRange g)
    (hharmless : ∀ op ∈ ops, op.Harmless g) : RunCorrect g content nand .fresh ops := by
  obtain ⟨hg, -⟩ := nandInit_eq_some h
  apply runCorrect_of_agrees hg hdvd _ hrange hharmless
  rw [nandInit] at h
  simp only [Option.ite_none_left_eq_some, Option.some.injEq, Prod.mk.injEq] at h
  obtain ⟨-, -, -, -, -, -, rfl⟩ := h
  exact ⟨Or.inl rfl, rfl, fun hne => absurd rfl hne, fun pos _ => Memory.read_fresh.symm,
    by rintro _ ⟨⟩⟩

def plainOperations : List Operation :=
  [.program [3, 9, 0] [0x5a], .program [3, 9, 0] [0x0f, 0x11], .read .A [3, 9, 0] 2,
    .clearDirtyPages, .erase [8, 0], .read .B [3, 9, 0] 1]

theorem operations_correct_plainOperations :
    RunCorrect smallFlash.1 (fun _ => 0xff) smallFlash.2 .fresh plainOperations := by
  apply operations_correct smallFlash_init <;> decide +kernel

def tinySpecs : NandSpecs := ⟨528, 8, 3, 1, [0xec, 0x75]⟩

def tinyFlash : Geometry × NAND :=
  (nandInit (fun _ => 0xff) 33792 tinySpecs fun _ => 0).get (by decide)

def erasingOperations : List Operation := [.program [0, 0] [0x5a], .erase [0], .read .A [0, 0] 1]

theorem not_correct_erasingOperations : (∀ op ∈ erasingOperations, op.InRange tinyFlash.1) ∧
    ¬ RunCorrect tinyFlash.1 (fun _ => 0xff) tinyFlash.2 .fresh erasingOperations := by
  refine ⟨by decide +kernel, fun h => ?_⟩
  have hread : (outputs tinyFlash.1 tinyFlash.2 erasingOperations).toOption =
      some [[], [], [0x5a]] := by decide +kernel
  rw [h.outputs_eq] at hread
  revert hread
  decide +kernel

end Cloudpilot.Uarm.NandFlash
