import Cloudpilot.Library.Words
import Cloudpilot.Uarm.NandFlash.Operations

/-! # Cycles of an operation

What the address, data and read cycles of an operation leave in the flash: the address in the
address bytes, the bytes in the page buffer, and the content of the page on the bus.
-/

namespace Cloudpilot.Uarm.NandFlash

open Cpu Cloudpilot.Library FlashMemory List Nat
open Peripherals (Byte K9nandState K9nandArea)

variable {g : Geometry} {nand nand' nand'' : NAND} {val : Byte} {event : Event}
  {events rest : List Event} {bytes more address : List Byte}

theorem exchangeAll_cons (h : exchange g nand event = .ok (bytes, nand'))
    (hrest : exchangeAll g nand' events = .ok (more, nand'')) :
    exchangeAll g nand (event :: events) = .ok (bytes ++ more, nand'') := by
  rw [exchangeAll, h]
  change exchangeAll g nand' events >>= _ = _
  rw [hrest]
  rfl

theorem exists_of_exchangeAll_cons (h : exchangeAll g nand (event :: events) = .ok (bytes, nand'')) :
    ∃ front nand' back, exchange g nand event = .ok (front, nand') ∧
      exchangeAll g nand' events = .ok (back, nand'') ∧ bytes = front ++ back := by
  rw [exchangeAll] at h
  cases hevent : exchange g nand event with
  | error e =>
    rw [hevent] at h
    cases h
  | ok first =>
    rw [hevent] at h
    change exchangeAll g first.2 events >>= _ = _ at h
    cases hevents : exchangeAll g first.2 events with
    | error e =>
      rw [hevents] at h
      cases h
    | ok last =>
      rw [hevents] at h
      cases h
      exact ⟨first.1, first.2, last.1, rfl, hevents, rfl⟩

theorem exchangeAll_append (h : exchangeAll g nand events = .ok (bytes, nand'))
    (hrest : exchangeAll g nand' rest = .ok (more, nand'')) :
    exchangeAll g nand (events ++ rest) = .ok (bytes ++ more, nand'') := by
  induction events generalizing nand bytes with
  | nil =>
    cases h
    exact hrest
  | cons event events ih =>
    obtain ⟨front, mid, back, hevent, hevents, rfl⟩ := exists_of_exchangeAll_cons h
    rw [append_assoc]
    exact exchangeAll_cons hevent (ih hevents)

theorem exchangeAll_write {cle ale ok : Bool} (h : nandWrite g nand cle ale val = .ok (ok, nand'))
    (hrest : exchangeAll g nand' events = .ok (bytes, nand'')) :
    exchangeAll g nand (.write cle ale val :: events) = .ok (bytes, nand'') := by
  have hcycle : exchange g nand (.write cle ale val) = .ok ([], nand') := by
    rw [exchange, h]
    rfl
  exact exchangeAll_cons hcycle hrest

theorem exchangeAll_ready (nand : NAND) :
    exchangeAll g nand (List.replicate nand.busyCt .periodic) =
      .ok ([], { nand with busyCt := 0 }) := by
  induction hbusy : nand.busyCt generalizing nand with
  | zero =>
    change Except.ok ([], nand) = Except.ok ([], { nand with busyCt := 0 })
    rw [← hbusy]
  | succ n ih =>
    have hrest := ih (nandPeriodic nand) (by rw [nandPeriodic, hbusy]; rfl)
    have hcycle : exchange g nand .periodic = .ok ([], nandPeriodic nand) := rfl
    exact exchangeAll_cons hcycle hrest

theorem nandPrvBusy_eq (h : nand.busyCt = 0) (count : ℕ) :
    nandPrvBusy nand count = .ok { nand with busyCt := count } :=
  if_neg (not_not.mpr h)

/-- The flash when an operation has begun. -/
def begun (nand : NAND) (state : K9nandState) : NAND := enter { nand with busyCt := 0 } state

/-- The address bytes after those that have been received already. -/
def placed (nand : NAND) (address : List Byte) : NAND :=
  { nand with
    addrBytes := fun i => if nand.addrBytesRxed ≤ i then
      (address[i - nand.addrBytesRxed]?).getD (nand.addrBytes i) else nand.addrBytes i
    addrBytesRxed := nand.addrBytesRxed + address.length }

theorem placed_nil (nand : NAND) : placed nand [] = nand := by
  simp [placed]

theorem placed_cons (nand : NAND) (val : Byte) (address : List Byte) :
    placed { nand with
        addrBytes := Function.update nand.addrBytes nand.addrBytesRxed val
        addrBytesRxed := nand.addrBytesRxed + 1 } address = placed nand (val :: address) := by
  have hbytes : (fun i => if nand.addrBytesRxed + 1 ≤ i then
      (address[i - (nand.addrBytesRxed + 1)]?).getD
        (Function.update nand.addrBytes nand.addrBytesRxed val i)
      else Function.update nand.addrBytes nand.addrBytesRxed val i) = fun i =>
      if nand.addrBytesRxed ≤ i then
        ((val :: address)[i - nand.addrBytesRxed]?).getD (nand.addrBytes i)
      else nand.addrBytes i := by
    funext i
    rcases lt_trichotomy i nand.addrBytesRxed with hlt | heq | hgt
    · grind
    · subst heq
      simp
    · have hsub : i - nand.addrBytesRxed = i - (nand.addrBytesRxed + 1) + 1 := by omega
      rw [if_pos (by omega), if_pos (by omega), Function.update_of_ne (by omega), hsub,
        getElem?_cons_succ]
  simp only [placed, hbytes, length_cons, add_assoc, add_comm 1]

theorem storeAddr_eq (h : nand.addrBytesRxed < 8) :
    storeAddr nand val = accept { nand with
      addrBytes := Function.update nand.addrBytes nand.addrBytesRxed val
      addrBytesRxed := nand.addrBytesRxed + 1 } := by
  rw [storeAddr, access_ok h, mod_eq_of_lt (by omega)]
  rfl

theorem exchangeAll_address {limit : ℕ} (hlimit : limit ≤ 8)
    (hstore : ∀ nand' val, nand'.state = nand.state → nand'.addrBytesRxed < limit →
      nandAddress g nand' val = storeAddr nand' val)
    (hlength : nand.addrBytesRxed + address.length ≤ limit) :
    exchangeAll g nand (addressCycles address) = .ok ([], placed nand address) := by
  induction address generalizing nand with
  | nil =>
    rw [placed_nil]
    rfl
  | cons val address ih =>
    rw [length_cons] at hlength
    rw [← placed_cons]
    apply exchangeAll_write
    · change nandAddress g nand val = _
      rw [hstore nand val rfl (by omega), storeAddr_eq (by omega)]
      rfl
    · apply ih
      · exact hstore
      · grind

theorem placed_append (nand : NAND) (address more : List Byte) :
    placed (placed nand address) more = placed nand (address ++ more) := by
  induction address generalizing nand with
  | nil => rw [placed_nil, nil_append]
  | cons val address ih => rw [← placed_cons, ih, placed_cons, cons_append]

theorem exchangeAll_readAddress (htotal : g.addrBytesTotal ≤ 8) (hstate : nand.state = .reading)
    (hrxed : nand.addrBytesRxed = 0) (hready : nand.busyCt = 0)
    (hlength : address.length = g.addrBytesTotal) (hne : address ≠ []) :
    exchangeAll g nand (addressCycles address) =
      .ok ([], { placed nand address with busyCt := 1 }) := by
  obtain ⟨front, last, rfl⟩ := (eq_nil_or_concat' address).resolve_left hne
  rw [length_append, length_singleton] at hlength
  have hfront : exchangeAll g nand (addressCycles front) = .ok ([], placed nand front) := by
    apply exchangeAll_address (show g.addrBytesTotal - 1 ≤ 8 by omega)
    · intro nand' val hreading hlt
      rw [nandAddress, hreading, hstate]
      dsimp only
      rw [if_neg (by omega), if_neg (by omega)]
    · omega
  have hlast : nandAddress g (placed nand front) last =
      accept { placed (placed nand front) [last] with busyCt := 1 } := by
    have hcount : (placed nand front).addrBytesRxed + 1 = g.addrBytesTotal := by
      change nand.addrBytesRxed + front.length + 1 = _
      omega
    have hbusy := nandPrvBusy_eq (show (placed nand front).busyCt = 0 from hready) 1
    rw [nandAddress, show (placed nand front).state = .reading from hstate]
    dsimp only
    rw [if_neg (by omega), if_pos hcount, hbusy, ← placed_cons, placed_nil]
    exact storeAddr_eq (show (placed nand front).addrBytesRxed < 8 by omega)
  rw [addressCycles, map_append, ← placed_append]
  exact exchangeAll_append hfront (exchangeAll_write hlast rfl)

theorem addrValLE_succ (nand : NAND) (startByte numBytes : ℕ) :
    addrValLE nand startByte (numBytes + 1) =
      u32 (u32 (addrValLE nand (startByte + 1) numBytes * 256) +
        (nand.addrBytes startByte).toNat) := by
  have hfront : addrValLE nand (startByte + 1) numBytes = (List.range numBytes).foldl
      (fun ret i => u32 (u32 (ret * 256) +
        (nand.addrBytes (startByte + (numBytes + 1) - 1 - i)).toNat)) 0 := by grind [addrValLE]
  rw [addrValLE, range_succ, foldl_append, ← hfront]
  change u32 (u32 (_ * 256) + (nand.addrBytes (startByte + (numBytes + 1) - 1 - numBytes)).toNat) = _
  rw [show startByte + (numBytes + 1) - 1 - numBytes = startByte by omega]

theorem number_lt (bytes : List Byte) : number bytes < 256 ^ bytes.length := by
  have h := ofDigits_lt_base_pow_length (b := 256) (l := bytes.map BitVec.toNat) (by decide) (by
    intro d hd
    obtain ⟨b, -, rfl⟩ := mem_map.mp hd
    exact b.isLt)
  rwa [length_map] at h

theorem addrValLE_eq {startByte : ℕ} (hlength : bytes.length ≤ 4)
    (hbytes : ∀ i (hi : i < bytes.length), nand.addrBytes (startByte + i) = bytes[i]) :
    addrValLE nand startByte bytes.length = number bytes := by
  induction bytes generalizing startByte with
  | nil => rfl
  | cons b bytes ih =>
    rw [length_cons] at hlength
    have hrest : addrValLE nand (startByte + 1) bytes.length = number bytes := by
      apply ih (by omega)
      intro i hi
      have hbyte := hbytes (i + 1) (by simpa using hi)
      rwa [Nat.add_right_comm]
    have hlt := number_lt bytes
    have hpow : 256 ^ bytes.length ≤ 256 ^ 3 := Nat.pow_le_pow_right (by decide) (by omega)
    have hfirst : nand.addrBytes startByte = b := hbytes 0 (by simp)
    have hnumber : number (b :: bytes) = b.toNat + 256 * number bytes := by
      rfl
    rw [length_cons, addrValLE_succ, hrest, hfirst, hnumber, u32, u32]
    omega

theorem placed_addrBytes (h : nand.addrBytesRxed = 0) {i : ℕ} (hi : i < address.length) :
    (placed nand address).addrBytes i = address[i] := by
  simp [placed, h, hi]

theorem pageAddr_placed (hg : g.Valid) (hrxed : nand.addrBytesRxed = 0)
    (hlength : address.length = g.addrBytesTotal) :
    pageAddr g (placed nand address) g.byteAddrBytes = g.pageOf address := by
  have hdrop : (address.drop g.byteAddrBytes).length = g.pageAddrBytes := by
    rw [length_drop, hlength, Geometry.addrBytesTotal, Nat.add_sub_cancel_left]
  have hle := hg.pageAddrBytes
  rw [pageAddr, Geometry.pageOf, ← hdrop]
  apply addrValLE_eq (by omega)
  intro i hi
  rw [length_drop] at hi
  rw [placed_addrBytes hrxed (by omega), getElem_drop]

theorem byteAddr_placed (hg : g.Valid) (hrxed : nand.addrBytesRxed = 0)
    (hlength : address.length = g.addrBytesTotal) :
    byteAddr g (placed nand address) = g.columnOf address := by
  have htake : (address.take g.byteAddrBytes).length = g.byteAddrBytes := by
    rw [length_take, hlength, Geometry.addrBytesTotal]
    omega
  have hle := hg.byteAddrBytes
  have heq : addrValLE (placed nand address) 0 (address.take g.byteAddrBytes).length =
      number (address.take g.byteAddrBytes) := by
    apply addrValLE_eq (by omega)
    intro i hi
    rw [length_take] at hi
    rw [zero_add, placed_addrBytes hrxed (by omega), getElem_take]
  rwa [htake] at heq

theorem pageAddr_placed_erase (hg : g.Valid) (hrxed : nand.addrBytesRxed = 0)
    (hlength : address.length = g.pageAddrBytes) :
    pageAddr g (placed nand address) 0 = number address := by
  have hle := hg.pageAddrBytes
  rw [pageAddr, ← hlength]
  apply addrValLE_eq (by omega)
  intro i hi
  rw [zero_add, placed_addrBytes hrxed hi]

/-- The bytes from a column on, as far as they fit. -/
def filled (g : Geometry) (nand : NAND) (bytes : List Byte) (i : ℕ) : Byte :=
  if nand.pageOfst ≤ i ∧ i < g.bytesPerPage then
    (bytes[i - nand.pageOfst]?).getD (nand.pageBuf i)
  else nand.pageBuf i

theorem filled_nil (g : Geometry) (nand : NAND) : filled g nand [] = nand.pageBuf := by
  funext i
  simp [filled]

theorem filled_full (h : g.bytesPerPage ≤ nand.pageOfst) : filled g nand bytes = nand.pageBuf := by
  funext i
  rw [filled, if_neg (by omega)]

theorem filled_cons (b : Byte) (h : nand.pageOfst < g.bytesPerPage) :
    filled g { nand with
        pageBuf := Function.update nand.pageBuf nand.pageOfst b
        pageOfst := nand.pageOfst + 1 } bytes = filled g nand (b :: bytes) := by
  funext i
  rcases lt_trichotomy i nand.pageOfst with hlt | heq | hgt
  · grind [filled]
  · subst heq
    simp [filled, h]
  · have hsub : i - nand.pageOfst = i - (nand.pageOfst + 1) + 1 := by omega
    simp only [filled]
    by_cases hi : i < g.bytesPerPage <;> grind

theorem acceptProgramData_full (h : g.bytesPerPage ≤ nand.pageOfst) :
    nandPrvAcceptProgramData g nand val = accept nand :=
  if_pos h

theorem acceptProgramData_eq (hpage : g.bytesPerPage < 2 ^ 32) (h : nand.pageOfst < g.bytesPerPage) :
    nandPrvAcceptProgramData g nand val = accept { nand with
      pageBuf := Function.update nand.pageBuf nand.pageOfst val
      pageOfst := nand.pageOfst + 1 } := by
  rw [nandPrvAcceptProgramData, if_neg (by omega), access_ok h, u32, mod_eq_of_lt (by omega)]
  rfl

theorem exchangeAll_data (hpage : g.bytesPerPage < 2 ^ 32) (hstate : nand.state = .programDataRxing) :
    ∃ pageOfst, exchangeAll g nand (dataCycles bytes) =
      .ok ([], { nand with pageBuf := filled g nand bytes, pageOfst := pageOfst }) := by
  induction bytes generalizing nand with
  | nil =>
    refine ⟨nand.pageOfst, ?_⟩
    rw [filled_nil]
    rfl
  | cons b bytes ih =>
    have hdata : nandData g nand b = nandPrvAcceptProgramData g nand b := by
      rw [nandData, hstate]
    by_cases hfull : g.bytesPerPage ≤ nand.pageOfst
    · obtain ⟨pageOfst, hrest⟩ := ih hstate
      rw [filled_full hfull] at hrest ⊢
      exact ⟨pageOfst, exchangeAll_write (hdata.trans (acceptProgramData_full hfull)) hrest⟩
    · rw [not_le] at hfull
      have hnext : ({ nand with
          pageBuf := Function.update nand.pageBuf nand.pageOfst b
          pageOfst := nand.pageOfst + 1 } : NAND).state = .programDataRxing := hstate
      obtain ⟨pageOfst, hrest⟩ := ih hnext
      rw [filled_cons b hfull] at hrest
      exact ⟨pageOfst, exchangeAll_write (hdata.trans (acceptProgramData_eq hpage hfull)) hrest⟩

theorem Geometry.Valid.pageEnd_le (hg : g.Valid) (hfits : g.bytesPerPage * g.pages < 2 ^ 32)
    {page : ℕ} (hpage : page < g.pages) :
    page * g.bytesPerPage + g.bytesPerPage ≤ g.dataSize := by
  have hmul := mul_le_mul_right g.bytesPerPage hpage
  rw [succ_mul, mul_comm g.pages] at hmul
  rwa [hg.dataSize, u32, mod_eq_of_lt hfits]

theorem Geometry.Valid.pageStart_eq (hg : g.Valid) (hfits : g.bytesPerPage * g.pages < 2 ^ 32)
    {page : ℕ} (hpage : page < g.pages) :
    u32 (page * g.bytesPerPage) = page * g.bytesPerPage := by
  have hend := hg.pageEnd_le hfits hpage
  have hlt := hg.dataSize_lt
  exact mod_eq_of_lt (by omega)

theorem Geometry.Valid.holds (hg : g.Valid) (hfits : g.bytesPerPage * g.pages < 2 ^ 32)
    (hpos : 0 < g.bytesPerPage) {page : ℕ} (hpage : page < g.pages) : g.Holds page := by
  rw [Geometry.Holds, hg.pageStart_eq hfits hpage]
  exact ⟨hpos, hg.pageEnd_le hfits hpage⟩

structure Reading (g : Geometry) (nand : NAND) (page column : ℕ) : Prop where
  state : nand.state = .reading
  started : nand.addrBytesRxed = 0xff
  pageNo : nand.pageNo = page
  pageOfst : nand.pageOfst = column
  pageBuf : ∀ i < g.bytesPerPage, nand.pageBuf i = nand.data (page * g.bytesPerPage + i)

/-- What a read leaves alone. -/
structure SameContent (nand nand' : NAND) : Prop where
  state : nand'.state = nand.state
  area : nand'.area = nand.area
  data : nand'.data = nand.data
  dirtyPages : nand'.dirtyPages = nand.dirtyPages

theorem SameContent.refl (nand : NAND) : SameContent nand nand := ⟨rfl, rfl, rfl, rfl⟩

theorem SameContent.trans (h : SameContent nand nand') (h' : SameContent nand' nand'') :
    SameContent nand nand'' :=
  ⟨h'.state.trans h.state, h'.area.trans h.area, h'.data.trans h.data,
    h'.dirtyPages.trans h.dirtyPages⟩

theorem Reading.readData (hg : g.Valid) {page column : ℕ} (h : Reading g nand page column) :
    readData g nand = takeByte g nand := by
  have htotal : g.addrBytesTotal ≤ 8 := hg.addrBytes
  have hmark : markRead g nand = nand := if_neg fun hlast => by
    have := hlast.2
    rw [h.started] at this
    omega
  rw [NandFlash.readData, hmark]
  dsimp only
  rw [h.started, if_neg (by decide), if_pos rfl]

/-- Where the next byte is: at the end of a page in the following one. -/
def Geometry.nextCell (g : Geometry) (area : K9nandArea) (page column : ℕ) : ℕ × ℕ :=
  if column = g.bytesPerPage then (page + 1, if area = .C then 2 * g.areaSize else 0)
  else (page, column)

theorem Geometry.cells_succ (g : Geometry) (area : K9nandArea) (page column count : ℕ) :
    g.cells area page column (count + 1) = g.nextCell area page column ::
      g.cells area (g.nextCell area page column).1 ((g.nextCell area page column).2 + 1) count := by
  rw [Geometry.cells, Geometry.nextCell]
  split <;> rfl

theorem Geometry.pages_lt (g : Geometry) : g.pages < 2 ^ 32 := Nat.mod_lt _ (by decide)

theorem Geometry.nextCell_lt (hg : g.Valid) (hpos : 0 < g.bytesPerPage) {area : K9nandArea}
    (hC : area = .C → g.viaAreas = true) {page column : ℕ} (hle : column ≤ g.bytesPerPage) :
    (g.nextCell area page column).2 < g.bytesPerPage := by
  rw [Geometry.nextCell]
  split
  · split
    · exact hg.areaSize (hC ‹_›) hpos
    · exact hpos
  · omega

theorem Reading.turned (hg : g.Valid) (hfits : g.bytesPerPage * g.pages < 2 ^ 32)
    {page column : ℕ} (h : Reading g nand page column)
    (hpage : (g.nextCell nand.area page column).1 < g.pages) :
    Reading g (turned g nand) (g.nextCell nand.area page column).1
      (g.nextCell nand.area page column).2 ∧ SameContent nand (turned g nand) := by
  have hpages := g.pages_lt
  rw [Geometry.nextCell] at hpage ⊢
  rw [NandFlash.turned, h.pageOfst]
  by_cases hend : column = g.bytesPerPage
  · rw [if_pos hend] at hpage ⊢
    rw [if_pos hend, h.pageNo]
    have hnext : u32 (page + 1) = page + 1 := mod_eq_of_lt (by omega)
    refine ⟨⟨h.state, h.started, hnext, rfl, fun i hi => ?_⟩, ⟨rfl, rfl, rfl, rfl⟩⟩
    change Buffer.copy nand.pageBuf 0
      (fun i => nand.data (u32 (u32 (page + 1) * g.bytesPerPage) + i)) g.bytesPerPage i = _
    rw [Buffer.copy_zero hi, hnext, hg.pageStart_eq hfits hpage]
    rfl
  · rw [if_neg hend] at hpage ⊢
    rw [if_neg hend]
    exact ⟨h, SameContent.refl nand⟩

theorem Reading.takeByte (hg : g.Valid) (hC : nand.area = .C → g.viaAreas = true)
    (hfits : g.bytesPerPage * g.pages < 2 ^ 32) (hpos : 0 < g.bytesPerPage) {page column : ℕ}
    (h : Reading g nand page column) (hle : column ≤ g.bytesPerPage)
    (hpage : (g.nextCell nand.area page column).1 < g.pages) :
    ∃ nand', takeByte g nand =
        .ok (some (nand.data (g.position (g.nextCell nand.area page column))), nand') ∧
      Reading g nand' (g.nextCell nand.area page column).1
        ((g.nextCell nand.area page column).2 + 1) ∧ SameContent nand nand' := by
  obtain ⟨hturned, hsame⟩ := h.turned hg hfits hpage
  have hcolumn : (g.nextCell nand.area page column).2 < g.bytesPerPage :=
    Geometry.nextCell_lt hg hpos hC hle
  have hinside : g.InPage nand.pageNo nand.pageOfst := by
    rw [h.pageNo, h.pageOfst]
    rcases lt_or_eq_of_le hle with hlt | heq
    · exact Or.inl hlt
    · rw [Geometry.nextCell, if_pos heq] at hpage
      have hnext : u32 (page + 1) = page + 1 := mod_eq_of_lt (by
        have := g.pages_lt
        omega)
      refine Or.inr ⟨heq, ?_⟩
      rw [hnext]
      exact hg.holds hfits hpos hpage
  refine ⟨advanced (NandFlash.turned g nand), ?_, ?_, ?_⟩
  · rw [takeByte_eq hg nand hC, if_pos hinside, hturned.pageOfst, hturned.pageBuf _ hcolumn,
      hsame.data]
    rfl
  · have hsucc : u32 ((NandFlash.turned g nand).pageOfst + 1) =
        (g.nextCell nand.area page column).2 + 1 := by
      have hlt := hg.bytesPerPage
      rw [hturned.pageOfst, u32, mod_eq_of_lt (by omega)]
    exact ⟨hturned.state, hturned.started, hturned.pageNo, hsucc, hturned.pageBuf⟩
  · exact hsame.trans ⟨rfl, rfl, rfl, rfl⟩

theorem Reading.exchangeAll (hg : g.Valid) (hC : nand.area = .C → g.viaAreas = true)
    (hfits : g.bytesPerPage * g.pages < 2 ^ 32) (hpos : 0 < g.bytesPerPage) {page column count : ℕ}
    (h : Reading g nand page column) (hle : column ≤ g.bytesPerPage)
    (hpages : ∀ cell ∈ g.cells nand.area page column count, cell.1 < g.pages) :
    ∃ nand', exchangeAll g nand (List.replicate count (.read false false)) =
        .ok ((g.cells nand.area page column count).map fun cell => nand.data (g.position cell),
          nand') ∧ SameContent nand nand' := by
  induction count generalizing nand page column with
  | zero => exact ⟨nand, rfl, SameContent.refl nand⟩
  | succ count ih =>
    rw [Geometry.cells_succ] at hpages ⊢
    have hfirst := hpages _ (mem_cons_self ..)
    obtain ⟨nand', htake, hnext, hsame⟩ := h.takeByte hg hC hfits hpos hle hfirst
    have hcycle : exchange g nand (.read false false) =
        .ok ([nand.data (g.position (g.nextCell nand.area page column))], nand') := by
      rw [exchange, nandRead, if_neg (by decide), h.state]
      dsimp only
      rw [h.readData hg, htake]
      rfl
    have hrest : ∀ cell ∈ g.cells nand'.area (g.nextCell nand.area page column).1
        ((g.nextCell nand.area page column).2 + 1) count, cell.1 < g.pages := by grind [hsame.area]
    obtain ⟨nand'', hcycles, hsame'⟩ := ih (by rw [hsame.area]; exact hC) hnext
      (Geometry.nextCell_lt hg hpos hC hle) hrest
    rw [hsame.area, hsame.data] at hcycles
    exact ⟨nand'', exchangeAll_cons hcycle hcycles, hsame.trans hsame'⟩

end Cloudpilot.Uarm.NandFlash
