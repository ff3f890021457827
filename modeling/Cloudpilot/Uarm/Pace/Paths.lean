import Cloudpilot.Uarm.Pace.Access

/-! # Reports of accesses

What the narrow accesses leave behind is what a block leaves behind, with the report of its
fault. The wide ones are put together from these.
-/

namespace Cloudpilot.Uarm.Pace

open Cloudpilot.Uarm.Cpu Cloudpilot.Uarm.MMU Cloudpilot.Library Cloudpilot.Library.AlignedBlock BitVec

section

variable {δ : Type} {dev : Devices δ} {s t : PaceState δ} {addr a b : Word} {write : Bool}

theorem getLsbD_zero_iff {value : Word} : value.getLsbD 0 = true ↔ value.toNat % 2 = 1 := by
  rw [getLsbD, Nat.testBit_zero, decide_eq_true_eq]

theorem getLsbD_one_iff {value : Word} : value.getLsbD 1 = true ↔ value.toNat / 2 % 2 = 1 := by
  rw [getLsbD, Nat.testBit_succ, Nat.testBit_zero, decide_eq_true_eq]

theorem and_one_eq_zero {value : Word} : value &&& 1#32 = 0 ↔ value.toNat % 2 = 0 := by
  rw [← toNat_inj, toNat_and]
  exact Eq.congr_left (Nat.and_two_pow_sub_one_eq_mod _ 1)

theorem and_three_eq_two {value : Word} : value &&& 3#32 = 2#32 ↔ value.toNat % 4 = 2 := by
  rw [← toNat_inj, toNat_and]
  exact Eq.congr_left (Nat.and_two_pow_sub_one_eq_mod _ 2)

/-- The three cases of a 32 bit access. -/
inductive Alignment (addr : Word) : Prop
  | odd (h : addr.toNat % 2 = 1) (hctz : builtinCtz addr = 0)
  | half (h : addr.toNat % 4 = 2) (hctz : builtinCtz addr = 1)
  | whole (h : addr.toNat % 4 = 0) (hctz : 1 < builtinCtz addr)

theorem alignment (addr : Word) : Alignment addr := by
  have hrange : List.range 32 = 0 :: 1 :: (List.range 30).map (· + 2) := by decide
  cases h0 : addr.getLsbD 0 with
  | true =>
    refine .odd (getLsbD_zero_iff.mp h0) ?_
    rw [builtinCtz, hrange, List.find?_cons, h0]
    rfl
  | false =>
    have heven : addr.toNat % 2 ≠ 1 := fun h => by
      rw [getLsbD_zero_iff.mpr h] at h0
      cases h0
    cases h1 : addr.getLsbD 1 with
    | true =>
      have hhalf := getLsbD_one_iff.mp h1
      refine .half (by omega) ?_
      rw [builtinCtz, hrange, List.find?_cons, h0, List.find?_cons, h1]
      rfl
    | false =>
      have hwhole : addr.toNat / 2 % 2 ≠ 1 := fun h => by
        rw [getLsbD_one_iff.mpr h] at h1
        cases h1
      refine .whole (by omega) ?_
      rw [builtinCtz, hrange, List.find?_cons, h0, List.find?_cons, h1]
      cases hfind : ((List.range 30).map (· + 2)).find? (addr.getLsbD ·) with
      | none => decide
      | some i =>
        obtain ⟨j, -, rfl⟩ := List.mem_map.mp (List.mem_of_find?_eq_some hfind)
        exact Nat.lt_add_left j (by decide)

theorem toNat_blockOffset (addr : Word) : (addr &&& 0x3ff#32).toNat = addr.toNat % 1024 := by
  exact Nat.and_two_pow_sub_one_eq_mod _ 10

theorem fast_iff (h : addr.toNat % 4 = 2) :
    addr &&& 0x3ff#32 ≤ 0x3ff#32 - 4#32 ↔ InBlock addr 4 := by
  have hmax : (0x3ff#32 - 4#32).toNat = 1019 := by decide
  rw [le_def, hmax, InBlock, toNat_blockOffset]
  omega

theorem InBlock.shift {size i : ℕ} (h : InBlock addr size) (hi : i < size) :
    (addr + BitVec.ofNat 32 i) >>> 10 = addr >>> 10 := by
  rw [InBlock, toNat_blockOffset] at h
  apply shiftRight_eq_of_toNat_div_eq
  rw [toNat_add, BitVec.toNat_ofNat]
  omega

theorem inBlock_two (h : addr.toNat % 2 = 0) : InBlock addr 2 := by
  rw [InBlock, toNat_blockOffset]
  omega

theorem inBlock_four (h : addr.toNat % 4 = 0) : InBlock addr 4 := by
  rw [InBlock, toNat_blockOffset]
  omega

theorem translate_mmu (dev : Devices δ) (s : PaceState δ) (addr : Word) (write : Bool) :
    (translate dev s addr write).2.mem = walkReads dev s.mem ∧
      (translate dev s addr write).2 = (translate dev s addr false).2 := by
  constructor
  · obtain ⟨tlb, h⟩ := mmuTranslate_state { s.mmu with mem := walkReads dev s.mem } addr
      s.priviledged write
    exact congrArg ArmMmu.mem h
  · change (mmuTranslate _ _ _ _).2 = (mmuTranslate _ _ _ _).2
    unfold mmuTranslate translateAndCache
    split_ifs
    · rfl
    · dsimp only
      split_ifs
      · split <;> rfl
      · rfl

theorem translate_fst (dev : Devices δ) (s : PaceState δ) (addr : Word) (write : Bool) :
    (translate dev s addr write).1 =
      outcome { s.mmu with mem := walkReads dev s.mem } addr s.priviledged write :=
  outcome_mmuTranslate _ _ _ _

theorem translate_fault {fsr : Fsr} (h : (translate dev s addr write).1 = .error fsr) : fsr ≠ 0 := by
  rw [translate_fst] at h
  exact outcome_error h

theorem translate_again (h : b >>> 10 = a >>> 10) {wa : Bool}
    (hmem : t.mem = s.mem) (hpriv : t.priviledged = s.priviledged)
    (hmmu : t.mmu = (translate dev s a wa).2) (wb : Bool) :
    (translate dev t b wb).1 = ((translate dev s a wb).1).map (· + (b - a)) ∧
      (translate dev t b wb).2 = t.mmu := by
  have hagain := mmuTranslate_again h { s.mmu with mem := walkReads dev s.mem } s.priviledged wa
    s.priviledged wb
  have hsame : { t.mmu with mem := walkReads dev t.mem } = (translate dev s a wa).2 := by
    rw [hmmu, hmem, ← (translate_mmu dev s a wa).1]
  constructor
  · rw [translate_fst, hsame, hpriv, translate_fst, ← outcome_block h]
    exact hagain.1
  · rw [translate, hsame, hpriv, hmmu]
    exact hagain.2

def reported (write : Bool) (last : Word) (r : Option (Word × Fsr) × PaceState δ) : PaceState δ :=
  match r.1 with
  | none => { r.2 with lastAddr := last, wasWrite := write }
  | some f => { r.2 with lastAddr := f.1, wasWrite := write, fsr := f.2 }

theorem paceGetLe_reported (h : s.fsr = 0) (addr : Word) (data : List Byte) :
    (paceGetLe dev s addr data.length).2 = reported false addr (block dev s false addr [data]) := by
  rw [paceGetLe, if_neg (not_not.mpr h), block]
  dsimp only
  cases htranslate : (translate dev s addr false).1 with
  | error fsr => rfl
  | ok pa =>
    simp only [chunks, physical]
    cases hread : memAccessRead dev s.mem pa data.length with
    | mk result mem => cases result <;> rfl

theorem pacePutLe_reported (h : s.fsr = 0) (addr value : Word) (size : ℕ) :
    pacePutLe dev s addr value size =
      reported true addr (block dev s true addr [leBytes value size]) := by
  rw [pacePutLe, if_neg (not_not.mpr h), block]
  dsimp only
  cases htranslate : (translate dev s addr true).1 with
  | error fsr => rfl
  | ok pa =>
    simp only [chunks, physical]
    cases hwrite : memAccessWrite dev s.mem pa (leBytes value size) with
    | mk result mem => cases result <;> rfl

end

variable {δ : Type} {dev : Devices δ} {s : PaceState δ} {addr value : Word} {write : Bool}

theorem chunks_stored {pa : Word} {d : List Byte} {data : List (List Byte)} {mem : PhysicalMemory δ}
    (h : physical dev s.mem write pa d = (true, mem)) :
    chunks dev s write addr pa (d :: data) = chunks dev { s with mem } write
      (addr + BitVec.ofNat 32 d.length) (pa + BitVec.ofNat 32 d.length) data := by
  rw [chunks, h]
  exact if_pos rfl

theorem chunks_failed {pa : Word} {d : List Byte} {data : List (List Byte)} {mem : PhysicalMemory δ}
    (h : physical dev s.mem write pa d = (false, mem)) :
    chunks dev s write addr pa (d :: data) = (some (addr, 10), { s with mem }) := by
  rw [chunks, h]
  exact if_neg Bool.false_ne_true

theorem physical_read {mem mem' : PhysicalMemory δ} {pa : Word} {d : List Byte}
    {result : Option (List Byte)} (h : memAccessRead dev mem pa d.length = (result, mem')) :
    physical dev mem false pa d = (result.isSome, mem') := by
  rw [physical, if_neg Bool.false_ne_true, h]

theorem block_error {fsr : Fsr} (h : (translate dev s addr write).1 = .error fsr)
    (data : List (List Byte)) :
    block dev s write addr data =
      (some (addr, fsr), { s with mmu := (translate dev s addr write).2 }) := by
  rw [block, h]

theorem block_ok {pa : Word} (h : (translate dev s addr write).1 = .ok pa) (data : List (List Byte)) :
    block dev s write addr data =
      chunks dev { s with mmu := (translate dev s addr write).2 } write addr pa data := by
  rw [block, h]

theorem chunks_fsr (s : PaceState δ) (write : Bool) (addr pa : Word) (data : List (List Byte)) :
    (chunks dev s write addr pa data).2.fsr = s.fsr := by
  induction data generalizing s addr pa with
  | nil => rfl
  | cons d data ih =>
    cases h : physical dev s.mem write pa d with
    | mk ok mem =>
      cases ok with
      | true => rw [chunks_stored h, ih]
      | false => rw [chunks_failed h]

theorem block_fsr (s : PaceState δ) (write : Bool) (addr : Word) (data : List (List Byte)) :
    (block dev s write addr data).2.fsr = s.fsr := by
  cases h : (translate dev s addr write).1 with
  | error fsr => rw [block_error h]
  | ok pa => rw [block_ok h, chunks_fsr]

theorem chunks_fault {pa : Word} {data : List (List Byte)} {f : Word × Fsr}
    (h : (chunks dev s write addr pa data).1 = some f) : f.2 = 10 := by
  induction data generalizing s addr pa with
  | nil => cases h
  | cons d data ih =>
    cases hphysical : physical dev s.mem write pa d with
    | mk ok mem =>
      cases ok with
      | true =>
        rw [chunks_stored hphysical] at h
        exact ih h
      | false =>
        rw [chunks_failed hphysical] at h
        cases h
        rfl

theorem block_fault {data : List (List Byte)} {f : Word × Fsr}
    (h : (block dev s write addr data).1 = some f) : f.2 ≠ 0 := by
  cases htranslate : (translate dev s addr write).1 with
  | error fsr =>
    rw [block_error htranslate] at h
    cases h
    exact translate_fault htranslate
  | ok pa =>
    rw [block_ok htranslate] at h
    rw [chunks_fault h]
    decide

theorem chunks_report (dev : Devices δ) (s : PaceState δ) (write : Bool) (addr pa last : Word) (was : Bool)
    (data : List (List Byte)) :
    chunks dev { s with lastAddr := last, wasWrite := was } write addr pa data =
      ((chunks dev s write addr pa data).1,
        { (chunks dev s write addr pa data).2 with lastAddr := last, wasWrite := was }) := by
  induction data generalizing s addr pa with
  | nil => rfl
  | cons d data ih =>
    cases h : physical dev s.mem write pa d with
    | mk ok mem =>
      have h' : physical dev { s with lastAddr := last, wasWrite := was }.mem write pa d = (ok, mem) := h
      cases ok with
      | true =>
        rw [chunks_stored h, chunks_stored h']
        exact ih { s with mem } _ _
      | false => rw [chunks_failed h, chunks_failed h']

theorem reported_report (s : PaceState δ) (write : Bool) (addr last last' : Word) (was : Bool)
    (data : List (List Byte)) :
    reported write last' (block dev { s with lastAddr := last, wasWrite := was } write addr data) =
      reported write last' (block dev s write addr data) := by
  cases h : (translate dev s addr write).1 with
  | error fsr =>
    have h' : (translate dev { s with lastAddr := last, wasWrite := was } addr write).1 = .error fsr := h
    rw [block_error h, block_error h']
    rfl
  | ok pa =>
    have h' : (translate dev { s with lastAddr := last, wasWrite := was } addr write).1 = .ok pa := h
    have hreport := chunks_report dev { s with mmu := (translate dev s addr write).2 } write addr pa last was
      data
    rw [block_ok h, block_ok h']
    change reported write last' (chunks dev { { s with mmu := (translate dev s addr write).2 } with
      lastAddr := last, wasWrite := was } write addr pa data) = _
    rw [hreport]
    rfl

theorem uaeGet32Split_fast (h : s.fsr = 0) (haddr : addr.toNat % 4 = 2) (hblock : InBlock addr 4) :
    (uaeGet32Split dev s addr).2 =
      reported false (addr + 2#32) (block dev s false addr [[0, 0], [0, 0]]) := by
  rw [uaeGet32Split, if_pos ((fast_iff haddr).mpr hblock), if_neg (not_not.mpr h)]
  dsimp only
  cases htranslate : (translate dev s addr false).1 with
  | error fsr =>
    rw [block_error htranslate]
    rfl
  | ok pa =>
    rw [block_ok htranslate]
    dsimp only
    cases hlow : memAccessRead dev s.mem pa 2 with
    | mk low mem =>
      have hphysical : physical dev s.mem false pa [0, 0] = (low.isSome, mem) := physical_read hlow
      cases low with
      | none =>
        rw [chunks_failed (s := { s with mmu := (translate dev s addr false).2 }) hphysical]
        rfl
      | some low =>
        rw [chunks_stored (s := { s with mmu := (translate dev s addr false).2 }) hphysical]
        dsimp only
        cases hhigh : memAccessRead dev mem (pa + 2#32) 2 with
        | mk high mem' =>
          have hphysical' : physical dev mem false (pa + 2#32) [0, 0] = (high.isSome, mem') :=
            physical_read hhigh
          cases high with
          | none =>
            rw [show [(0 : Byte), 0].length = 2 from rfl,
              chunks_failed (s := { s with mem, mmu := (translate dev s addr false).2 }) hphysical']
            rfl
          | some high =>
            rw [show [(0 : Byte), 0].length = 2 from rfl,
              chunks_stored (s := { s with mem, mmu := (translate dev s addr false).2 }) hphysical']
            rfl

theorem uaePut32Split_fast (h : s.fsr = 0) (haddr : addr.toNat % 4 = 2) (hblock : InBlock addr 4) :
    uaePut32Split dev s addr value =
      match (translate dev s addr false).1 with
      | .error fsr => reported true addr (some (addr, fsr), { s with mmu := (translate dev s addr false).2 })
      | .ok pa => reported true (addr + 2#32)
        (chunks dev { s with mmu := (translate dev s addr false).2 } true addr pa
          [leBytes (htobe32 value) 2, leBytes (htobe32 value >>> 16) 2]) := by
  rw [uaePut32Split]
  dsimp only
  rw [if_pos ((fast_iff haddr).mpr hblock), if_neg (not_not.mpr h)]
  cases htranslate : (translate dev s addr false).1 with
  | error fsr => rfl
  | ok pa =>
    dsimp only
    cases hlow : memAccessWrite dev s.mem pa (leBytes (htobe32 value) 2) with
    | mk low mem =>
      have hphysical : physical dev s.mem true pa (leBytes (htobe32 value) 2) = (low, mem) := hlow
      cases low with
      | false =>
        rw [chunks_failed (s := { s with mmu := (translate dev s addr false).2 }) hphysical]
        rfl
      | true =>
        rw [chunks_stored (s := { s with mmu := (translate dev s addr false).2 }) hphysical]
        dsimp only
        cases hhigh : memAccessWrite dev mem (pa + 2#32) (leBytes (htobe32 value >>> 16) 2) with
        | mk high mem' =>
          have hphysical' : physical dev mem true (pa + 2#32) (leBytes (htobe32 value >>> 16) 2) =
            (high, mem') := hhigh
          cases high with
          | false =>
            rw [show (leBytes (htobe32 value) 2).length = 2 from rfl,
              chunks_failed (s := { s with mem, mmu := (translate dev s addr false).2 }) hphysical']
            rfl
          | true =>
            rw [show (leBytes (htobe32 value) 2).length = 2 from rfl,
              chunks_stored (s := { s with mem, mmu := (translate dev s addr false).2 }) hphysical']
            rfl

end Cloudpilot.Uarm.Pace
