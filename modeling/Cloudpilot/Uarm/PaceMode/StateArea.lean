import Cloudpilot.Uarm.Pace.Reads

/-! # Transfers between the host and the emulated memory

A transfer translates once for each block of 1024 bytes and then uses the widest accesses
that the alignment of both sides admits. The translation asks for a read in both directions.
-/

namespace Cloudpilot.Uarm.PaceMode

open Cloudpilot.Uarm.Cpu Cloudpilot.Uarm.MMU Cloudpilot.Uarm.Pace Cloudpilot.Library List

/-- The sizes of the accesses for an alignment, in the order of the loops. -/
def transferSizes : ℕ → List ℕ
  | 0 => [1]
  | 1 => [2, 1]
  | 2 => [4, 2, 1]
  | _ => [64, 32, 16, 8, 4, 2, 1]

/-- Each loop runs while its size fits. -/
def transferPieces : List ℕ → ℕ → List ℕ
  | [], _ => []
  | size :: sizes, n => List.replicate (n / size) size ++ transferPieces sizes (n % size)

/-- The alignment of both addresses, at most eight bytes. -/
def transferAlign (host arm : Word) : ℕ := builtinCtz (arm ||| host ||| 0x08#32)

/-- The part of a transfer up to the end of the block, in 32-bit arithmetic. -/
def chunkSize (pa : Word) (size : ℕ) : ℕ :=
  let pageBoundary := pa ||| 0x03ff#32
  if pa + BitVec.ofNat 32 size > pageBoundary then (pageBoundary - pa + 1).toNat else size

section Transfer

variable {δ : Type} (dev : Devices δ)

/-- `transfer_pa` towards the memory. A failure names the physical address. -/
def transferPaWrite (mem : PhysicalMemory δ) (pa : Word) (data : List Byte) :
    List ℕ → Except Word Unit × PhysicalMemory δ
  | [] => (.ok (), mem)
  | size :: pieces =>
    match memAccessWrite dev mem pa (data.take size) with
    | (false, mem) => (.error pa, mem)
    | (true, mem) => transferPaWrite mem (pa + BitVec.ofNat 32 size) (data.drop size) pieces

/-- `transfer_pa` towards the host. -/
def transferPaRead (mem : PhysicalMemory δ) (pa : Word) :
    List ℕ → Except Word (List Byte) × PhysicalMemory δ
  | [] => (.ok [], mem)
  | size :: pieces =>
    match memAccessRead dev mem pa size with
    | (none, mem) => (.error pa, mem)
    | (some bytes, mem) =>
      let r := transferPaRead mem (pa + BitVec.ofNat 32 size) pieces
      (r.1.map (bytes ++ ·), r.2)

/-- The blocks of a transfer towards the memory. A failure has an address and a status. -/
def transferWrite (sizes : List ℕ) : ℕ → PaceState δ → Word → List Byte →
    Except (Word × Fsr) Unit × PaceState δ
  | 0, s, _, _ => (.ok (), s)
  | fuel + 1, s, arm, data =>
    if data = [] then (.ok (), s)
    else
      let r := translate dev s arm false
      let s := { s with mmu := r.2 }
      match r.1 with
      | .error fsr => (.error (arm, fsr), s)
      | .ok pa =>
        let n := chunkSize pa data.length
        match transferPaWrite dev s.mem pa (data.take n) (transferPieces sizes n) with
        | (.error fault, mem) => (.error (fault + (arm - pa), 10), { s with mem })
        | (.ok _, mem) =>
          transferWrite sizes fuel { s with mem } (arm + BitVec.ofNat 32 n) (data.drop n)

/-- The blocks of a transfer towards the host. -/
def transferRead (sizes : List ℕ) : ℕ → PaceState δ → Word → ℕ →
    Except (Word × Fsr) (List Byte) × PaceState δ
  | 0, s, _, _ => (.ok [], s)
  | fuel + 1, s, arm, size =>
    if size = 0 then (.ok [], s)
    else
      let r := translate dev s arm false
      let s := { s with mmu := r.2 }
      match r.1 with
      | .error fsr => (.error (arm, fsr), s)
      | .ok pa =>
        let n := chunkSize pa size
        match transferPaRead dev s.mem pa (transferPieces sizes n) with
        | (.error fault, mem) => (.error (fault + (arm - pa), 10), { s with mem })
        | (.ok bytes, mem) =>
          let r := transferRead sizes fuel { s with mem } (arm + BitVec.ofNat 32 n) (size - n)
          (r.1.map (bytes ++ ·), r.2)

/-- Every round moves a byte at least, so that the size is fuel enough. -/
def memcpyHostToArm (s : PaceState δ) (dest host : Word) (data : List Byte) :
    Except (Word × Fsr) Unit × PaceState δ :=
  transferWrite dev (transferSizes (transferAlign host dest)) data.length s dest data

def memcpyArmToHost (s : PaceState δ) (host src : Word) (size : ℕ) :
    Except (Word × Fsr) (List Byte) × PaceState δ :=
  transferRead dev (transferSizes (transferAlign host src)) size s src size

end Transfer

theorem mem_transferPieces {sizes : List ℕ} {n k : ℕ} (h : k ∈ transferPieces sizes n) : k ∈ sizes := by
  induction sizes generalizing n with
  | nil => simp [transferPieces] at h
  | cons size sizes ih =>
    rw [transferPieces, mem_append] at h
    rcases h with h | h
    · grind
    · exact mem_cons_of_mem size (ih h)

theorem sum_transferPieces {sizes : List ℕ} (h : sizes.getLast? = some 1) (n : ℕ) :
    (transferPieces sizes n).sum = n := by
  induction sizes generalizing n with
  | nil => simp at h
  | cons size sizes ih =>
    rw [transferPieces, sum_append, sum_replicate, smul_eq_mul, Nat.mul_comm]
    cases sizes with
    | nil =>
      obtain rfl : size = 1 := by simpa using h
      simp [transferPieces]
    | cons second rest =>
      rw [ih (by simpa using h)]
      exact Nat.div_add_mod n size

theorem transferSizes_last (align : ℕ) : (transferSizes align).getLast? = some 1 := by
  unfold transferSizes
  split <;> rfl

theorem mem_transferSizes {align k : ℕ} (h : k ∈ transferSizes align) :
    k ∈ [1, 2, 4, 8, 16, 32, 64] := by
  unfold transferSizes at h
  split at h <;> simp only [mem_cons, not_mem_nil, or_false] at h ⊢ <;> omega

theorem shift_add (a : Word) (m n : ℕ) :
    a + BitVec.ofNat 32 m + BitVec.ofNat 32 n = a + BitVec.ofNat 32 (m + n) := by
  rw [add_assoc, ← BitVec.ofNat_add]

theorem shift_succ (a : Word) (n : ℕ) :
    a + 1#32 + BitVec.ofNat 32 n = a + BitVec.ofNat 32 (n + 1) := by
  rw [shift_add, Nat.add_comm]

section Ram

variable {δ : Type} {dev : Devices δ} {mem : PhysicalMemory δ}

def ramByte (mem : PhysicalMemory δ) (pa : Word) : Byte := mem.ram.bytes (pa - mem.ram.pa)

theorem ramStore_nil (mem : PhysicalMemory δ) (pa : Word) : ramStore mem pa [] = mem := by
  have hbytes : storeBytes mem.ram.bytes (pa - mem.ram.pa) [] = mem.ram.bytes := by rfl
  rw [ramStore, hbytes]

theorem ramByte_ramStore (mem : PhysicalMemory δ) (pa a : Word) (data : List Byte) :
    ramByte (ramStore mem pa data) a = (data[(a - pa).toNat]?).getD (ramByte mem a) := by
  have hoffset : a - mem.ram.pa - (pa - mem.ram.pa) = a - pa := by
    bv_omega
  simp [ramByte, ramStore, storeBytes, hoffset]

theorem ramStore_append (mem : PhysicalMemory δ) (pa : Word) (first second : List Byte)
    (h : first.length + second.length ≤ 2 ^ 32) :
    ramStore (ramStore mem pa first) (pa + BitVec.ofNat 32 first.length) second =
      ramStore mem pa (first ++ second) := by
  rcases second.eq_nil_or_concat' with rfl | hsecond
  · simp [ramStore_nil]
  have hbytes : storeBytes (storeBytes mem.ram.bytes (pa - mem.ram.pa) first)
      (pa + BitVec.ofNat 32 first.length - mem.ram.pa) second =
        storeBytes mem.ram.bytes (pa - mem.ram.pa) (first ++ second) := by
    funext a
    simp only [storeBytes]
    by_cases hlt : (a - (pa - mem.ram.pa)).toNat < first.length
    · have hbeyond : second.length ≤
          (a - (pa + BitVec.ofNat 32 first.length - mem.ram.pa)).toNat := by
        bv_omega
      rw [getElem?_eq_none hbeyond, getElem?_append_left hlt, Option.getD_none]
    · have hsub : (a - (pa + BitVec.ofNat 32 first.length - mem.ram.pa)).toNat =
          (a - (pa - mem.ram.pa)).toNat - first.length := by
        bv_omega
      rw [hsub, getElem?_append_right (by omega),
        getElem?_eq_none (l := first) (by omega), Option.getD_none]
  simp [ramStore, hbytes]

theorem memAccessWrite_ram {pa : Word} (hram : inRam mem pa) {data : List Byte}
    (hsize : data.length ∈ [1, 2, 4, 8, 16, 32, 64]) :
    memAccessWrite dev mem pa data = (true, ramStore mem pa data) := by
  have hin : regionContains mem.ram.pa mem.ram.sz pa = true := hram
  rw [memAccessWrite, if_pos hin, if_pos hsize]

theorem memAccessRead_ram {pa : Word} (hram : inRam mem pa) {size : ℕ}
    (hsize : size ∈ [1, 2, 4, 8, 16, 32, 64]) :
    memAccessRead dev mem pa size =
      (some ((List.range size).map fun i => ramByte mem (pa + BitVec.ofNat 32 i)), mem) := by
  have hoffset : ∀ i, pa - mem.ram.pa + BitVec.ofNat 32 i = pa + BitVec.ofNat 32 i - mem.ram.pa := by
    bv_omega
  have hin : regionContains mem.ram.pa mem.ram.sz pa = true := hram
  rw [memAccessRead, if_pos hin, accessBytes, if_pos hsize]
  simp [ramByte, hoffset]

theorem transferPaWrite_ram (dev : Devices δ) {pieces : List ℕ}
    (hpieces : ∀ k ∈ pieces, k ∈ [1, 2, 4, 8, 16, 32, 64]) (data : List Byte) (hsum : pieces.sum = data.length) (hlen : data.length ≤ 2 ^ 32) {pa : Word}
    (hram : ∀ i < data.length, inRam mem (pa + BitVec.ofNat 32 i)) :
    transferPaWrite dev mem pa data pieces = (.ok (), ramStore mem pa data) := by
  induction pieces generalizing mem pa data with
  | nil => grind [transferPaWrite, ramStore_nil]
  | cons size pieces ih =>
    have hsize := hpieces size mem_cons_self
    rw [sum_cons] at hsum
    have htake : (data.take size).length = size := by
      rw [length_take]
      omega
    have hpos : 0 < size := by
      simp only [mem_cons, not_mem_nil, or_false] at hsize
      omega
    have hfirst : inRam mem pa := by
      simpa using hram 0 (by omega)
    have hrest : ∀ i < (data.drop size).length,
        inRam (ramStore mem pa (data.take size)) (pa + BitVec.ofNat 32 size + BitVec.ofNat 32 i) := by
      intro i hi
      rw [length_drop] at hi
      rw [shift_add]
      exact hram (size + i) (by omega)
    have hdrop : pieces.sum = (data.drop size).length := by
      rw [length_drop]
      omega
    rw [transferPaWrite, memAccessWrite_ram hfirst (by rwa [htake])]
    dsimp only
    rw [ih (fun k hk => hpieces k (mem_cons_of_mem size hk)) (data.drop size) hdrop
      (by rw [length_drop]; omega) hrest]
    have happend := ramStore_append mem pa (data.take size) (data.drop size)
      (by rw [htake, length_drop]; omega)
    rw [htake, take_append_drop] at happend
    rw [happend]

theorem transferPaRead_ram (dev : Devices δ) {pieces : List ℕ}
    (hpieces : ∀ k ∈ pieces, k ∈ [1, 2, 4, 8, 16, 32, 64])
    {pa : Word} (hram : ∀ i < pieces.sum, inRam mem (pa + BitVec.ofNat 32 i)) :
    transferPaRead dev mem pa pieces =
      (.ok ((List.range pieces.sum).map fun i => ramByte mem (pa + BitVec.ofNat 32 i)), mem) := by
  induction pieces generalizing pa with
  | nil => rfl
  | cons size pieces ih =>
    have hsize := hpieces size mem_cons_self
    rw [sum_cons] at hram ⊢
    have hpos : 0 < size := by grind
    have hfirst : inRam mem pa := by
      simpa using hram 0 (by omega)
    have hrest : ∀ i < pieces.sum, inRam mem (pa + BitVec.ofNat 32 size + BitVec.ofNat 32 i) := by
      intro i hi
      rw [shift_add]
      exact hram (size + i) (by omega)
    rw [transferPaRead, memAccessRead_ram hfirst hsize]
    dsimp only
    rw [ih (fun k hk => hpieces k (mem_cons_of_mem size hk)) hrest, range_add,
      map_append, map_map]
    simp [Except.map, shift_add]

end Ram

open Cloudpilot.Uarm.Cpu Cloudpilot.Uarm.MMU Cloudpilot.Uarm.Pace

/-- Nineteen words. -/
def stateSize : ℕ := 76

section Area

variable {δ : Type} (dev : Devices δ) (area : Word) (pa : ℕ → Word)

/-- The memory system after some translations, accesses to devices, and stores to the area. -/
inductive Transferred (s : PaceState δ) : PaceState δ → Prop
  | refl : Transferred s s
  | translate {t : PaceState δ} (addr : Word) (priviledged write : Bool) : Transferred s t →
      Transferred s { t with mmu := (translate dev { t with priviledged } addr write).2 }
  | devices {t : PaceState δ} (d : δ) : Transferred s t →
      Transferred s { t with mem := { t.mem with devices := d } }
  | store {t : PaceState δ} {i : ℕ} {data : List Byte} :
      (∀ j < data.length, i + j < stateSize ∧ pa (i + j) = pa i + BitVec.ofNat 32 j) →
      Transferred s t → Transferred s { t with mem := ramStore t.mem (pa i) data }

/-- The bytes of the area have the physical addresses `pa`, which lie in RAM. -/
structure WritableArea (s : PaceState δ) : Prop where
  mapped : ∀ t, Transferred dev pa s t → ∀ i < stateSize,
    (translate dev t (area + BitVec.ofNat 32 i) false).1 = .ok (pa i)
  ram : ∀ i < stateSize, inRam s.mem (pa i)
  aligned : ∀ i < stateSize, (pa i).toNat % 1024 = (area + BitVec.ofNat 32 i).toNat % 1024

end Area

section Chunks

variable {δ : Type} {dev : Devices δ} {area : Word} {pa : ℕ → Word} {s t : PaceState δ}

theorem Transferred.ram_iff (h : Transferred dev pa s t) (a : Word) :
    inRam t.mem a ↔ inRam s.mem a := by
  induction h with
  | refl => rfl
  | translate _ _ _ _ ih => exact ih
  | devices _ _ ih => exact ih
  | store _ _ ih => exact ih

theorem Transferred.fields (h : Transferred dev pa s t) :
    t.priviledged = s.priviledged ∧ t.fsr = s.fsr ∧ t.lastAddr = s.lastAddr ∧
      t.wasWrite = s.wasWrite := by
  induction h with
  | refl => exact ⟨rfl, rfl, rfl, rfl⟩
  | translate _ _ _ _ ih => exact ih
  | devices _ _ ih => exact ih
  | store _ _ ih => exact ih

theorem toNat_pageBoundary (a : Word) : (a ||| 0x3ff#32).toNat = a.toNat / 1024 * 1024 + 1023 := by
  have hsplit : a ||| 0x3ff#32 = (a >>> 10) <<< 10 ||| 0x3ff#32 := by
    apply BitVec.eq_of_getLsbD_eq
    intro i hi
    by_cases hlow : i < 10
    · have hones : (0x3ff#32).getLsbD i = true := by
        interval_cases i <;> rfl
      simp [hones]
    · have hsum : 10 + (i - 10) = i := by omega
      simp [hlow, hi, hsum]
  rw [hsplit, BitVec.toNat_or, BitVec.toNat_shiftLeft, BitVec.toNat_ushiftRight,
    Nat.shiftRight_eq_div_pow, Nat.shiftLeft_eq, Nat.mod_eq_of_lt (by omega)]
  change a.toNat / 1024 * 2 ^ 10 ||| 1023 = _
  rw [Nat.mul_comm, ← Nat.two_pow_add_eq_or_of_lt (by decide : 1023 < 2 ^ 10)]

/-- The last address never lies in RAM, whose end is computed in 32 bits. -/
theorem not_inRam_last (mem : PhysicalMemory δ) : ¬ inRam mem 0xffffffff#32 := by
  intro h
  have hand : mem.ram.pa ≤ 0xffffffff#32 ∧ mem.ram.pa + mem.ram.sz > 0xffffffff#32 := by
    simpa [inRam, regionContains] using h
  have hlt := BitVec.lt_def.mp hand.2
  have hval : (0xffffffff#32).toNat = 2 ^ 32 - 1 := rfl
  omega

theorem WritableArea.distinct (h : WritableArea dev area pa s) {i j : ℕ} (hi : i < stateSize)
    (hj : j < stateSize) (heq : pa i = pa j) : i = j := by
  have hai := h.aligned i hi
  have haj := h.aligned j hj
  simp only [stateSize] at hi hj
  bv_omega

theorem WritableArea.block (h : WritableArea dev area pa s) {k i : ℕ} (hki : k + i < stateSize)
    (hblock : (area + BitVec.ofNat 32 k).toNat % 1024 + i < 1024) :
    pa (k + i) = pa k + BitVec.ofNat 32 i := by
  have hk : k < stateSize := by omega
  have hsame : (area + BitVec.ofNat 32 (k + i)) >>> 10 = (area + BitVec.ofNat 32 k) >>> 10 := by
    apply BitVec.eq_of_toNat_eq
    bv_omega
  have hfirst := h.mapped s .refl k hk
  have hsecond := h.mapped s .refl (k + i) hki
  rw [translate_fst] at hfirst hsecond
  rw [outcome_block hsame, hfirst] at hsecond
  have hdiff : area + BitVec.ofNat 32 (k + i) - (area + BitVec.ofNat 32 k) = BitVec.ofNat 32 i := by
    bv_omega
  rw [hdiff] at hsecond
  exact (Except.ok.inj hsecond).symm

theorem WritableArea.chunk (h : WritableArea dev area pa s) {k : ℕ} (hk : k < stateSize) :
    0 < chunkSize (pa k) (stateSize - k) ∧ chunkSize (pa k) (stateSize - k) ≤ stateSize - k ∧
      ∀ i < chunkSize (pa k) (stateSize - k), pa (k + i) = pa k + BitVec.ofNat 32 i := by
  have haligned := h.aligned k hk
  have hboundary := toNat_pageBoundary (pa k)
  have hsize : stateSize = 76 := rfl
  have hsum : (pa k + BitVec.ofNat 32 (stateSize - k)).toNat =
      ((pa k).toNat + (stateSize - k)) % 2 ^ 32 := by simp
  by_cases hcross : pa k + BitVec.ofNat 32 (stateSize - k) > pa k ||| 0x3ff#32
  · have hgt := BitVec.lt_def.mp hcross
    have hn : chunkSize (pa k) (stateSize - k) = 1024 - (pa k).toNat % 1024 := by
      simp only [chunkSize]
      rw [if_pos hcross]
      bv_omega
    refine ⟨by omega, by omega, fun i hi => h.block (by omega) (by omega)⟩
  · have hn : chunkSize (pa k) (stateSize - k) = stateSize - k := by
      simp only [chunkSize]
      rw [if_neg hcross]
    rw [hn]
    refine ⟨by omega, le_refl _, fun i hi => h.block (by omega) ?_⟩
    by_contra hover
    have hlast : pa (k + (1023 - (pa k).toNat % 1024)) = 0xffffffff#32 := by
      rw [h.block (by omega) (by omega)]
      bv_omega
    exact not_inRam_last s.mem (hlast ▸ h.ram _ (by omega))

end Chunks

section Transfers

variable {δ : Type} {dev : Devices δ} {area : Word} {pa : ℕ → Word} {s t : PaceState δ}

theorem WritableArea.ramByte_store (h : WritableArea dev area pa s) (mem : PhysicalMemory δ) {k : ℕ}
    {data : List Byte}
    (hpart : ∀ j < data.length, k + j < stateSize ∧ pa (k + j) = pa k + BitVec.ofNat 32 j)
    {i : ℕ} (hi : i < stateSize) :
    ramByte (ramStore mem (pa k) data) (pa i) =
      if k ≤ i then (data[i - k]?).getD (ramByte mem (pa i)) else ramByte mem (pa i) := by
  rw [ramByte_ramStore]
  have hsize : stateSize = 76 := rfl
  by_cases hin : k ≤ i ∧ i - k < data.length
  · have hpa := (hpart (i - k) hin.2).2
    have hindex : k + (i - k) = i := by omega
    rw [hindex] at hpa
    have hoffset : (pa i - pa k).toNat = i - k := by
      bv_omega
    rw [hoffset, if_pos hin.1]
  · have hout : data[(pa i - pa k).toNat]? = none := by
      apply getElem?_eq_none
      by_contra hlt
      have hj := hpart (pa i - pa k).toNat (by omega)
      have hpa : pa i = pa (k + (pa i - pa k).toNat) := by
        bv_omega
      have hieq := h.distinct hi hj.1 hpa
      omega
    rw [hout, Option.getD_none]
    by_cases hle : k ≤ i
    · rw [if_pos hle, getElem?_eq_none (by omega), Option.getD_none]
    · rw [if_neg hle]

/-- The state after the bytes from `k` on have been written. -/
structure AreaWritten (dev : Devices δ) (area : Word) (pa : ℕ → Word) (s t u : PaceState δ) (k : ℕ)
    (data : List Byte) : Prop where
  transferred : Transferred dev pa s u
  written : ∀ i < stateSize, ramByte u.mem (pa i) =
    if k ≤ i then (data[i - k]?).getD (ramByte t.mem (pa i)) else ramByte t.mem (pa i)

theorem transferWrite_area (h : WritableArea dev area pa s) (align : ℕ) {fuel k : ℕ}
    (ht : Transferred dev pa s t) (hk : k ≤ stateSize) (hfuel : stateSize - k ≤ fuel)
    (data : List Byte) (hlen : data.length = stateSize - k) :
    ∃ u, transferWrite dev (transferSizes align) fuel t (area + BitVec.ofNat 32 k) data = (.ok (), u) ∧
      AreaWritten dev area pa s t u k data := by
  induction fuel generalizing t k data with
  | zero =>
    obtain rfl : data = [] := length_eq_zero_iff.mp (by omega)
    exact ⟨t, rfl, ht, fun i _ => by simp⟩
  | succ fuel ih =>
    rw [transferWrite]
    by_cases hdone : data = []
    · subst hdone
      exact ⟨t, by rw [if_pos rfl], ht, fun i _ => by simp⟩
    have hlt : k < stateSize := by grind
    have hmapped := h.mapped t ht k hlt
    obtain ⟨hpos, hle, hpart⟩ := h.chunk hlt
    have htranslated := Transferred.translate (area + BitVec.ofNat 32 k) t.priviledged false ht
    rw [← hlen] at hpos hle hpart
    have hram : ∀ i < (data.take (chunkSize (pa k) data.length)).length,
        inRam t.mem (pa k + BitVec.ofNat 32 i) := by
      intro i hi
      rw [length_take] at hi
      rw [← hpart i (by omega), ht.ram_iff]
      exact h.ram (k + i) (by omega)
    have hsize : stateSize = 76 := rfl
    have hstored := transferPaWrite_ram dev
      (fun j (hj : j ∈ transferPieces (transferSizes align) (chunkSize (pa k) data.length)) =>
        mem_transferSizes (mem_transferPieces hj))
      (data.take (chunkSize (pa k) data.length))
      (by rw [sum_transferPieces (transferSizes_last align), length_take]; omega)
      (by rw [length_take]; omega) hram
    rw [if_neg hdone]
    dsimp only
    rw [hmapped]
    dsimp only
    rw [hstored]
    have hinside : ∀ j < (data.take (chunkSize (pa k) data.length)).length,
        k + j < stateSize ∧ pa (k + j) = pa k + BitVec.ofNat 32 j := by
      intro j hj
      rw [length_take] at hj
      exact ⟨by omega, hpart j (by omega)⟩
    have hnext : area + BitVec.ofNat 32 k + BitVec.ofNat 32 (chunkSize (pa k) data.length) =
        area + BitVec.ofNat 32 (k + chunkSize (pa k) data.length) := by
      bv_omega
    rw [hnext]
    obtain ⟨u, hrun, hu⟩ := ih (Transferred.store hinside htranslated)
      (k := k + chunkSize (pa k) data.length) (by omega) (by omega)
      (data.drop (chunkSize (pa k) data.length)) (by rw [length_drop]; omega)
    refine ⟨u, hrun, hu.transferred, fun i hi => ?_⟩
    rw [hu.written i hi]
    rw [h.ramByte_store t.mem hinside hi]
    by_cases hki : k ≤ i
    · by_cases hbeyond : k + chunkSize (pa k) data.length ≤ i
      · have hindex : chunkSize (pa k) data.length + (i - (k + chunkSize (pa k) data.length)) =
            i - k := by
          omega
        rw [if_pos hbeyond, if_pos hki, if_pos hki, getElem?_drop, hindex,
          getElem?_eq_none (l := data.take _) (by rw [length_take]; omega),
          Option.getD_none]
      · rw [if_neg hbeyond, if_pos hki, if_pos hki, getElem?_take_of_lt (by omega)]
    · rw [if_neg (by omega), if_neg hki, if_neg hki]

theorem transferRead_area (h : WritableArea dev area pa s) (align : ℕ) {fuel k : ℕ}
    (ht : Transferred dev pa s t) (hk : k ≤ stateSize) (hfuel : stateSize - k ≤ fuel) :
    ∃ u, transferRead dev (transferSizes align) fuel t (area + BitVec.ofNat 32 k) (stateSize - k) =
        (.ok ((List.range (stateSize - k)).map fun i => ramByte t.mem (pa (k + i))), u) ∧
      Transferred dev pa s u ∧ u.mem = t.mem := by
  induction fuel generalizing t k with
  | zero =>
    have hzero : stateSize - k = 0 := by omega
    rw [hzero]
    exact ⟨t, rfl, ht, rfl⟩
  | succ fuel ih =>
    rw [transferRead]
    by_cases hdone : stateSize - k = 0
    · grind
    have hlt : k < stateSize := by omega
    have hmapped := h.mapped t ht k hlt
    obtain ⟨hpos, hle, hpart⟩ := h.chunk hlt
    have htranslated := Transferred.translate (area + BitVec.ofNat 32 k) t.priviledged false ht
    have hsum := sum_transferPieces (transferSizes_last align) (chunkSize (pa k) (stateSize - k))
    have hram : ∀ i < (transferPieces (transferSizes align) (chunkSize (pa k) (stateSize - k))).sum,
        inRam t.mem (pa k + BitVec.ofNat 32 i) := by
      intro i hi
      rw [hsum] at hi
      rw [← hpart i hi, ht.ram_iff]
      exact h.ram (k + i) (by omega)
    have hread := transferPaRead_ram dev
      (fun j (hj : j ∈ transferPieces (transferSizes align) (chunkSize (pa k) (stateSize - k))) =>
        mem_transferSizes (mem_transferPieces hj)) hram
    have hnext : area + BitVec.ofNat 32 k + BitVec.ofNat 32 (chunkSize (pa k) (stateSize - k)) =
        area + BitVec.ofNat 32 (k + chunkSize (pa k) (stateSize - k)) := by
      bv_omega
    have hrest : stateSize - k - chunkSize (pa k) (stateSize - k) =
        stateSize - (k + chunkSize (pa k) (stateSize - k)) := by
      omega
    rw [if_neg hdone]
    dsimp only
    rw [hmapped]
    dsimp only
    rw [hread]
    dsimp only
    rw [hsum, hnext, hrest]
    obtain ⟨u, hrun, hu, hmem⟩ := ih htranslated (k := k + chunkSize (pa k) (stateSize - k))
      (by omega) (by omega)
    refine ⟨u, ?_, hu, hmem⟩
    have hwhole : stateSize - k = chunkSize (pa k) (stateSize - k) +
        (stateSize - (k + chunkSize (pa k) (stateSize - k))) := by
      omega
    have hbytes : (List.range (stateSize - k)).map (fun i => ramByte t.mem (pa (k + i))) =
        (List.range (chunkSize (pa k) (stateSize - k))).map
            (fun i => ramByte t.mem (pa k + BitVec.ofNat 32 i)) ++
          (List.range (stateSize - (k + chunkSize (pa k) (stateSize - k)))).map
            fun i => ramByte t.mem (pa (k + chunkSize (pa k) (stateSize - k) + i)) := by
      conv_lhs => rw [hwhole]
      rw [range_add, map_append, map_map]
      congr 1
      · apply map_congr_left
        intro i hi
        rw [hpart i (List.mem_range.mp hi)]
      · simp [Nat.add_assoc]
    rw [hrun, hbytes]
    rfl

end Transfers

end Cloudpilot.Uarm.PaceMode
