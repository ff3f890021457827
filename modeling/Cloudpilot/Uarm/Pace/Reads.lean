import Cloudpilot.Uarm.Pace.Paths

/-! # Wide reads of RAM and ROM

The bytes of a block are read from consecutive places behind one translation, whether they
are read together or one after the other.
-/

namespace Cloudpilot.Uarm.Pace

open Cloudpilot.Uarm.Cpu Cloudpilot.Uarm.MMU Cloudpilot.Library Cloudpilot.Library.AlignedBlock List

section

variable {δ : Type} {dev : Devices δ} {s t : PaceState δ} {mem : PhysicalMemory δ} {addr a b pa : Word}

def memByte (mem : PhysicalMemory δ) (pa : Word) : Byte :=
  if regionContains mem.ram.pa mem.ram.sz pa then mem.ram.bytes (pa - mem.ram.pa)
  else mem.rom.bytes (pa - mem.rom.pa)

def memBytes (mem : PhysicalMemory δ) (pa : Word) (size : ℕ) : List Byte :=
  (List.range size).map fun i => memByte mem (pa + BitVec.ofNat 32 i)

theorem accessBytes_eq {bytes : Word → Byte} {size : ℕ} (h : size ∈ [1, 2, 4, 8, 16, 32, 64])
    (start : Word) :
    accessBytes bytes (pa - start) size =
      some ((List.range size).map fun i => bytes (pa + BitVec.ofNat 32 i - start)) := by
  rw [accessBytes, if_pos h]
  refine congrArg some (map_congr_left fun i _ => ?_)
  congr 1
  ring

theorem memAccessRead_plain {size : ℕ} (hsize : size ∈ [1, 2, 4, 8, 16, 32, 64]) (hpos : 0 < size)
    (h : Plain mem pa size) : memAccessRead dev mem pa size = (some (memBytes mem pa size), mem) := by
  have hzero : pa + BitVec.ofNat 32 0 = pa := BitVec.add_zero pa
  rcases h with hram | hrom
  · have hfirst : regionContains mem.ram.pa mem.ram.sz pa = true := hzero ▸ hram 0 hpos
    rw [memAccessRead, if_pos hfirst, accessBytes_eq hsize, memBytes]
    refine congrArg (some · , mem) (map_congr_left fun i hi => ?_)
    exact (if_pos (hram i (List.mem_range.mp hi))).symm
  · have hfirst : inRom mem pa := hzero ▸ hrom 0 hpos
    have hram : ¬ regionContains mem.ram.pa mem.ram.sz pa = true := hfirst.1
    rw [memAccessRead, if_neg hram, if_pos hfirst.2, accessBytes_eq hsize, memBytes]
    refine congrArg (some · , mem) (map_congr_left fun i hi => ?_)
    exact (if_neg (hrom i (List.mem_range.mp hi)).1).symm

theorem Plain.mono {size i n : ℕ} (h : Plain mem pa size) (hle : i + n ≤ size) :
    Plain mem (pa + BitVec.ofNat 32 i) n := by
  have hadd : ∀ j, pa + BitVec.ofNat 32 i + BitVec.ofNat 32 j = pa + BitVec.ofNat 32 (i + j) := by
    intro j
    rw [add_assoc, ← BitVec.ofNat_add]
  rcases h with hram | hrom
  · refine .inl fun j hj => ?_
    rw [hadd]
    exact hram (i + j) (by omega)
  · refine .inr fun j hj => ?_
    rw [hadd]
    exact hrom (i + j) (by omega)

theorem getBytes_faulted (h : s.fsr ≠ 0) (addr : Word) (n : ℕ) :
    getBytes dev s addr n = (List.replicate n 0, s) := by
  induction n generalizing addr with
  | zero => rfl
  | succ n ih =>
    have hbyte : uaeGet8 dev s addr = (0, s) := by
      rw [uaeGet8, paceGetLe, if_pos h]
      rfl
    rw [getBytes, hbyte]
    rw [ih]
    rfl

theorem uaeGet8_fault (h : s.fsr = 0) {fsr : Fsr} (htranslate : (translate dev s a false).1 = .error fsr) :
    (uaeGet8 dev s a).1 = 0 ∧ (uaeGet8 dev s a).2.fsr = fsr := by
  rw [uaeGet8, paceGetLe, if_neg (not_not.mpr h)]
  dsimp only
  rw [htranslate]
  exact ⟨rfl, rfl⟩

theorem getBytes_fault (h : s.fsr = 0) {fsr : Fsr}
    (htranslate : (translate dev s a false).1 = .error fsr) (n : ℕ) :
    (getBytes dev s a n).1 = List.replicate n 0 := by
  cases n with
  | zero => rfl
  | succ n =>
    obtain ⟨hvalue, hfsr⟩ := uaeGet8_fault h htranslate
    have hne : (uaeGet8 dev s a).2.fsr ≠ 0 := by
      rw [hfsr]
      exact translate_fault htranslate
    rw [getBytes]
    rw [getBytes_faulted hne, hvalue]
    rfl

/-- The state behind byte reads from memory. -/
structure ReadFrom (dev : Devices δ) (s : PaceState δ) (a : Word) (t : PaceState δ) : Prop where
  mem : t.mem = s.mem
  priviledged : t.priviledged = s.priviledged
  fsr : t.fsr = 0
  mmu : t.mmu = (translate dev s a false).2

theorem uaeGet8_plain (h : s.fsr = 0) (htranslate : (translate dev s a false).1 = .ok pa)
    (hplain : Plain s.mem pa 1) :
    (uaeGet8 dev s a).1 = memByte s.mem pa ∧ ReadFrom dev s a (uaeGet8 dev s a).2 := by
  rw [uaeGet8, paceGetLe, if_neg (not_not.mpr h)]
  dsimp only
  rw [htranslate]
  dsimp only
  rw [memAccessRead_plain (by decide) (by decide) hplain]
  refine ⟨?_, rfl, rfl, h, rfl⟩
  change (LittleEndian.wordAt [memByte s.mem (pa + BitVec.ofNat 32 0)] 0).setWidth 8 = _
  ext i hi
  simp [LittleEndian.wordAt, LittleEndian.byteAt]

theorem uaeGet8_again (hfrom : ReadFrom dev s a t) (hblock : b >>> 10 = a >>> 10)
    (htranslate : (translate dev s a false).1 = .ok pa) (hplain : Plain s.mem (pa + (b - a)) 1) :
    (uaeGet8 dev t b).1 = memByte s.mem (pa + (b - a)) ∧ ReadFrom dev s a (uaeGet8 dev t b).2 := by
  obtain ⟨hfst, hsnd⟩ := translate_again hblock hfrom.mem hfrom.priviledged hfrom.mmu false
  rw [htranslate] at hfst
  have hbyte := uaeGet8_plain hfrom.fsr hfst (by rw [hfrom.mem]; exact hplain)
  refine ⟨by rw [hbyte.1, hfrom.mem], ?_, ?_, hbyte.2.fsr, ?_⟩
  · rw [hbyte.2.mem, hfrom.mem]
  · rw [hbyte.2.priviledged, hfrom.priviledged]
  · rw [hbyte.2.mmu, hsnd, hfrom.mmu]

theorem getBytes_again {size : ℕ} (hblock : InBlock a size)
    (htranslate : (translate dev s a false).1 = .ok pa) (hplain : Plain s.mem pa size) (n i : ℕ)
    (hle : i + n ≤ size) (hfrom : ReadFrom dev s a t) :
    (getBytes dev t (a + BitVec.ofNat 32 i) n).1 = memBytes s.mem (pa + BitVec.ofNat 32 i) n ∧
      ReadFrom dev s a (getBytes dev t (a + BitVec.ofNat 32 i) n).2 := by
  induction n generalizing i t with
  | zero => exact ⟨rfl, hfrom⟩
  | succ n ih =>
    have hsub : a + BitVec.ofNat 32 i - a = BitVec.ofNat 32 i := add_sub_cancel_left a _
    have hnext : a + BitVec.ofNat 32 i + 1#32 = a + BitVec.ofNat 32 (i + 1) := by
      rw [add_assoc, BitVec.ofNat_add]
    have hbyte := uaeGet8_again hfrom (hblock.shift (by omega : i < size)) htranslate
      (by rw [hsub]; exact hplain.mono (by omega))
    rw [hsub] at hbyte
    obtain ⟨hrest, hlast⟩ := ih (i + 1) (by omega) hbyte.2
    rw [getBytes]
    rw [hnext, hrest, hbyte.1]
    refine ⟨?_, hlast⟩
    rw [memBytes, memBytes, range_succ_eq_map, map_cons, map_map]
    have hzero : pa + BitVec.ofNat 32 i + BitVec.ofNat 32 0 = pa + BitVec.ofNat 32 i :=
      BitVec.add_zero _
    rw [hzero]
    refine congrArg (memByte s.mem (pa + BitVec.ofNat 32 i) :: ·) (map_congr_left fun j _ => ?_)
    rw [Function.comp_apply, add_assoc, add_assoc, ← BitVec.ofNat_add, ← BitVec.ofNat_add,
      Nat.succ_eq_add_one, Nat.add_assoc, Nat.add_comm 1 j]

theorem getBytes_plain (h : s.fsr = 0) {n : ℕ} (hblock : InBlock a (n + 1))
    (htranslate : (translate dev s a false).1 = .ok pa) (hplain : Plain s.mem pa (n + 1)) :
    (getBytes dev s a (n + 1)).1 = memBytes s.mem pa (n + 1) ∧
      ReadFrom dev s a (getBytes dev s a (n + 1)).2 := by
  have hzero : ∀ x : Word, x + BitVec.ofNat 32 0 = x := fun x => BitVec.add_zero x
  have hfirst := uaeGet8_plain h htranslate (by
    have hmono := hplain.mono (i := 0) (n := 1) (by omega)
    rwa [hzero] at hmono)
  obtain ⟨hrest, hlast⟩ := getBytes_again hblock htranslate hplain n 1 (by omega) hfirst.2
  rw [getBytes]
  refine ⟨?_, hlast⟩
  rw [hfirst.1]
  have hone : a + 1#32 = a + BitVec.ofNat 32 1 := rfl
  rw [hone, hrest, memBytes, memBytes, range_succ_eq_map, map_cons, map_map, hzero]
  refine congrArg (memByte s.mem pa :: ·) (map_congr_left fun j _ => ?_)
  rw [Function.comp_apply, add_assoc, ← BitVec.ofNat_add, Nat.succ_eq_add_one, Nat.add_comm 1 j]

theorem getBytes_append (dev : Devices δ) (s : PaceState δ) (a : Word) (m n : ℕ) :
    getBytes dev s a (m + n) =
      ((getBytes dev s a m).1 ++ (getBytes dev (getBytes dev s a m).2 (a + BitVec.ofNat 32 m) n).1,
        (getBytes dev (getBytes dev s a m).2 (a + BitVec.ofNat 32 m) n).2) := by
  induction m generalizing s a with
  | zero => simp [getBytes]
  | succ m ih =>
    have hnext : a + 1#32 + BitVec.ofNat 32 m = a + BitVec.ofNat 32 (m + 1) := by
      rw [add_assoc, ← BitVec.ofNat_add, Nat.add_comm]
    rw [Nat.succ_add, getBytes, ih, hnext]
    rfl

theorem bigEndian_four (b₀ b₁ b₂ b₃ : Byte) : bigEndian [b₀, b₁, b₂, b₃] = b₀ ++ b₁ ++ b₂ ++ b₃ := by
  ext i hi
  simp only [bigEndian, foldl_cons, foldl_nil]
  grind

theorem htobe32_wordAt (b₀ b₁ b₂ b₃ : Byte) :
    htobe32 (LittleEndian.wordAt [b₀, b₁, b₂, b₃] 0) = bigEndian [b₀, b₁, b₂, b₃] := by
  have hword := LittleEndian.word_wordAt b₀ b₁ b₂ b₃
  simp only [LittleEndian.word, List.cons.injEq, and_true] at hword
  obtain ⟨h₀, h₁, h₂, h₃⟩ := hword
  rw [bigEndian_four, htobe32, h₀, h₁, h₂, h₃]

theorem htobe32_halves {low high : List Byte} (hlow : low.length = 2) (hhigh : high.length = 2) :
    htobe32 (leWord low 2 ||| leWord high 2 <<< 16) = bigEndian (low ++ high) := by
  obtain ⟨b₀, b₁, rfl⟩ := length_eq_two.mp hlow
  obtain ⟨b₂, b₃, rfl⟩ := length_eq_two.mp hhigh
  have hword : leWord [b₀, b₁] 2 ||| leWord [b₂, b₃] 2 <<< 16 =
      LittleEndian.wordAt [b₀, b₁, b₂, b₃] 0 := by
    ext i hi
    simp [leWord, LittleEndian.wordAt, LittleEndian.byteAt, BitVec.getElem_or]
    grind
  rw [hword]
  exact htobe32_wordAt b₀ b₁ b₂ b₃

theorem htobe16_leWord {bytes : List Byte} (h : bytes.length = 2) :
    (htobe16 ((leWord bytes 2).setWidth 16)).setWidth 32 = bigEndian bytes := by
  obtain ⟨b₀, b₁, rfl⟩ := length_eq_two.mp h
  ext i hi
  simp [htobe16, leWord, LittleEndian.wordAt, LittleEndian.byteAt, bigEndian, BitVec.getElem_or]
  grind

theorem htobe32_leWord (mem : PhysicalMemory δ) (pa : Word) :
    htobe32 (leWord (memBytes mem pa 4) 4) = bigEndian (memBytes mem pa 4) :=
  htobe32_wordAt _ _ _ _

theorem length_memBytes (mem : PhysicalMemory δ) (pa : Word) (n : ℕ) : (memBytes mem pa n).length = n := by
  rw [memBytes, length_map, length_range]

theorem memBytes_append (mem : PhysicalMemory δ) (pa : Word) (m n : ℕ) :
    memBytes mem pa (m + n) = memBytes mem pa m ++ memBytes mem (pa + BitVec.ofNat 32 m) n := by
  rw [memBytes, range_add, map_append, map_map, memBytes, memBytes]
  refine congrArg (_ ++ ·) (map_congr_left fun i _ => ?_)
  rw [Function.comp_apply, BitVec.ofNat_add, add_assoc]

theorem translate_congr (dev : Devices δ) (hmem : t.mem = s.mem) (hmmu : t.mmu = s.mmu)
    (hpriv : t.priviledged = s.priviledged) (addr : Word) (write : Bool) :
    translate dev t addr write = translate dev s addr write := by
  rw [translate, translate, hmem, hmmu, hpriv]

theorem paceGetLe_faulted (h : s.fsr ≠ 0) (addr : Word) (size : ℕ) :
    paceGetLe dev s addr size = (0, s) :=
  if_pos h

theorem paceGetLe_fault (h : s.fsr = 0) {fsr : Fsr}
    (htranslate : (translate dev s a false).1 = .error fsr) (size : ℕ) :
    (paceGetLe dev s a size).1 = 0 ∧ (paceGetLe dev s a size).2.fsr = fsr := by
  rw [paceGetLe, if_neg (not_not.mpr h)]
  dsimp only
  rw [htranslate]
  exact ⟨rfl, rfl⟩

theorem paceGetLe_plain (h : s.fsr = 0) {size : ℕ} (hsize : size ∈ [1, 2, 4, 8, 16, 32, 64])
    (hpos : 0 < size) (htranslate : (translate dev s a false).1 = .ok pa)
    (hplain : Plain s.mem pa size) :
    (paceGetLe dev s a size).1 = leWord (memBytes s.mem pa size) size ∧
      ReadFrom dev s a (paceGetLe dev s a size).2 := by
  rw [paceGetLe, if_neg (not_not.mpr h)]
  dsimp only
  rw [htranslate]
  dsimp only
  rw [memAccessRead_plain hsize hpos hplain]
  exact ⟨rfl, rfl, rfl, h, rfl⟩

theorem uaeGet16_value (h : s.fsr = 0) (haddr : a.toNat % 2 = 0) (hon : OnMemory dev s a 2) :
    (uaeGet16 dev s a).1.setWidth 32 = bigEndian (getBytes dev s a 2).1 := by
  have heven : ¬ (s.fsr = 0 ∧ a &&& 1#32 ≠ 0) := fun hodd => hodd.2 (and_one_eq_zero.mpr haddr)
  rw [uaeGet16, if_neg heven]
  dsimp only
  cases htranslate : (translate dev s a false).1 with
  | error fsr =>
    rw [(paceGetLe_fault h htranslate 2).1, getBytes_fault h htranslate]
    rfl
  | ok pa =>
    rw [(paceGetLe_plain h (by decide) (by decide) htranslate (hon pa htranslate)).1,
      (getBytes_plain h (inBlock_two haddr) htranslate (hon pa htranslate)).1]
    exact htobe16_leWord (length_memBytes _ _ _)

theorem wholeRead_value (h : s.fsr = 0) (haddr : a.toNat % 4 = 0) (hon : OnMemory dev s a 4) :
    htobe32 (paceGetLe dev s a 4).1 = bigEndian (getBytes dev s a 4).1 := by
  cases htranslate : (translate dev s a false).1 with
  | error fsr =>
    rw [(paceGetLe_fault h htranslate 4).1, getBytes_fault h htranslate]
    rfl
  | ok pa =>
    rw [(paceGetLe_plain h (by decide) (by decide) htranslate (hon pa htranslate)).1,
      (getBytes_plain h (inBlock_four haddr) htranslate (hon pa htranslate)).1]
    exact htobe32_leWord _ _

theorem fastRead_value (h : s.fsr = 0) (haddr : a.toNat % 4 = 2) (hblock : InBlock a 4)
    (hon : OnMemory dev s a 4) :
    (uaeGet32Split dev s a).1 = bigEndian (getBytes dev s a 4).1 := by
  rw [uaeGet32Split, if_pos ((fast_iff haddr).mpr hblock), if_neg (not_not.mpr h)]
  dsimp only
  cases htranslate : (translate dev s a false).1 with
  | error fsr =>
    rw [getBytes_fault h htranslate]
    rfl
  | ok pa =>
    have hplain := hon pa htranslate
    have hzero : pa + BitVec.ofNat 32 0 = pa := BitVec.add_zero pa
    have hlow : Plain s.mem pa 2 := hzero ▸ hplain.mono (i := 0) (by decide)
    have hhigh : Plain s.mem (pa + 2#32) 2 := hplain.mono (i := 2) le_rfl
    dsimp only
    rw [memAccessRead_plain (by decide) (by decide) hlow]
    dsimp only
    rw [memAccessRead_plain (by decide) (by decide) hhigh,
      (getBytes_plain h hblock htranslate hplain).1]
    exact (htobe32_halves (length_memBytes _ _ _) (length_memBytes _ _ _)).trans
      (congrArg bigEndian (memBytes_append s.mem pa 2 2).symm)

/-- States that differ in the report of the last access only. -/
structure SameBut (s t : PaceState δ) : Prop where
  mem : t.mem = s.mem
  mmu : t.mmu = s.mmu
  priviledged : t.priviledged = s.priviledged
  fsr : t.fsr = s.fsr

theorem SameBut.uaeGet8 (h : SameBut s t) (dev : Devices δ) (addr : Word) :
    (uaeGet8 dev t addr).1 = (uaeGet8 dev s addr).1 ∧
      SameBut (uaeGet8 dev s addr).2 (uaeGet8 dev t addr).2 := by
  have htranslate := translate_congr dev h.mem h.mmu h.priviledged addr false
  simp only [Pace.uaeGet8, paceGetLe, h.fsr, h.mem, htranslate]
  split_ifs
  · exact ⟨rfl, h⟩
  · cases (translate dev s addr false).1 with
    | error fsr => exact ⟨rfl, rfl, rfl, h.priviledged, rfl⟩
    | ok pa =>
      dsimp only
      cases memAccessRead dev s.mem pa 1 with
      | mk result mem =>
        cases result with
        | none => exact ⟨rfl, rfl, rfl, h.priviledged, rfl⟩
        | some bytes => exact ⟨rfl, rfl, rfl, h.priviledged, rfl⟩

theorem SameBut.getBytes (h : SameBut s t) (dev : Devices δ) (addr : Word) (n : ℕ) :
    (getBytes dev t addr n).1 = (getBytes dev s addr n).1 := by
  induction n generalizing s t addr with
  | zero => rfl
  | succ n ih =>
    obtain ⟨hvalue, hstate⟩ := h.uaeGet8 dev addr
    exact congrArg₂ List.cons hvalue (ih hstate _)

theorem length_getBytes (dev : Devices δ) (s : PaceState δ) (addr : Word) (n : ℕ) :
    (getBytes dev s addr n).1.length = n := by
  induction n generalizing s addr with
  | zero => rfl
  | succ n ih => exact congrArg (· + 1) (ih _ _)

theorem halfRead_value (h : s.fsr = 0) (haddr : a.toNat % 2 = 0) (hon : OnMemory dev s a 2) :
    (paceGetLe dev s a 2).1 = leWord (getBytes dev s a 2).1 2 := by
  cases htranslate : (translate dev s a false).1 with
  | error fsr =>
    rw [(paceGetLe_fault h htranslate 2).1, getBytes_fault h htranslate]
    decide
  | ok pa =>
    rw [(paceGetLe_plain h (by decide) (by decide) htranslate (hon pa htranslate)).1,
      (getBytes_plain h (inBlock_two haddr) htranslate (hon pa htranslate)).1]

theorem slowRead_value (h : s.fsr = 0) (haddr : a.toNat % 4 = 2) (hblock : ¬ InBlock a 4)
    (hon : OnMemory dev s a 2)
    (hnext : OnMemory dev { s with mmu := (translate dev s a false).2 } (a + 2#32) 2) :
    (uaeGet32Split dev s a).1 = bigEndian (getBytes dev s a 4).1 := by
  have heven : a.toNat % 2 = 0 := by omega
  have heven' : (a + 2#32).toNat % 2 = 0 := by
    rw [BitVec.toNat_add, BitVec.toNat_ofNat]
    omega
  rw [uaeGet32Split, if_neg fun hfast => hblock ((fast_iff haddr).mp hfast)]
  have hbytes : (getBytes dev s a 4).1 = (getBytes dev s a 2).1 ++
      (getBytes dev (getBytes dev s a 2).2 (a + 2#32) 2).1 :=
    congrArg Prod.fst (getBytes_append dev s a 2 2)
  have hhigh : (paceGetLe dev (paceGetLe dev s a 2).2 (a + 2#32) 2).1 =
      leWord (getBytes dev (getBytes dev s a 2).2 (a + 2#32) 2).1 2 := by
    cases htranslate : (translate dev s a false).1 with
    | error fsr =>
      have hfsr := translate_fault htranslate
      have hne : (paceGetLe dev s a 2).2.fsr ≠ 0 := by
        rwa [(paceGetLe_fault h htranslate 2).2]
      have hall := getBytes_fault h htranslate (2 + 2)
      rw [show (getBytes dev s a (2 + 2)).1 = _ from hbytes, getBytes_fault h htranslate 2] at hall
      have hzeros : (getBytes dev (getBytes dev s a 2).2 (a + 2#32) 2).1 = [0, 0] :=
        append_cancel_left (hall.trans (replicate_append_replicate).symm)
      rw [paceGetLe_faulted hne, hzeros]
      exact (by decide : (0 : Word) = leWord [0, 0] 2)
    | ok pa =>
      have hplain := hon pa htranslate
      obtain ⟨-, hfrom⟩ := paceGetLe_plain h (by decide) (by decide) htranslate hplain
      obtain ⟨-, hfromBytes⟩ := getBytes_plain h (inBlock_two heven) htranslate hplain
      have hsame : SameBut (getBytes dev s a 2).2 (paceGetLe dev s a 2).2 :=
        ⟨hfrom.mem.trans hfromBytes.mem.symm, hfrom.mmu.trans hfromBytes.mmu.symm,
          hfrom.priviledged.trans hfromBytes.priviledged.symm, hfrom.fsr.trans hfromBytes.fsr.symm⟩
      have hon' : OnMemory dev (paceGetLe dev s a 2).2 (a + 2#32) 2 := by
        intro pa' hpa'
        rw [translate_congr dev (s := { s with mmu := (translate dev s a false).2 }) hfrom.mem hfrom.mmu
          hfrom.priviledged] at hpa'
        rw [hfrom.mem]
        exact hnext pa' hpa'
      rw [halfRead_value hfrom.fsr heven' hon', hsame.getBytes]
  dsimp only
  rw [halfRead_value h heven hon, hhigh, hbytes]
  exact htobe32_halves (length_getBytes ..) (length_getBytes ..)

theorem perform_value (h : s.fsr = 0) {access : Access} (hreads : ReadsMemory dev s access) :
    (perform dev s access).1 = bigEndian (getBytes dev s access.addr access.size).1 := by
  obtain ⟨hread, hodd, hin, hout⟩ := hreads
  cases access with
  | get8 addr =>
    change (uaeGet8 dev s addr).1.setWidth 32 = _
    ext i hi
    simp [getBytes, bigEndian, Access.addr, Access.size]
  | get16 addr =>
    have heven : addr.toNat % 2 = 0 := by
      by_contra hne
      exact hodd ⟨(by decide : 2 ≠ 1), fun hzero => hne (and_one_eq_zero.mp hzero)⟩
    exact uaeGet16_value h heven (hin (inBlock_two heven))
  | get32 addr =>
    change (uaeGet32 dev s addr).1 = _
    rw [uaeGet32]
    cases alignment addr with
    | odd hmod hctz =>
      refine absurd ⟨(by decide : 4 ≠ 1), fun hzero => ?_⟩ hodd
      have heven : addr.toNat % 2 = 0 := and_one_eq_zero.mp hzero
      omega
    | half hmod hctz =>
      rw [hctz]
      by_cases hblock : InBlock addr 4
      · exact fastRead_value h hmod hblock (hin hblock)
      · exact slowRead_value h hmod hblock (hout hblock).1 (hout hblock).2
    | whole hmod hctz =>
      obtain ⟨n, hn⟩ := Nat.exists_eq_add_of_lt hctz
      rw [hn, show 1 + n + 1 = n + 2 by omega]
      exact wholeRead_value h hmod (hin (inBlock_four hmod))
  | put8 addr value => cases hread
  | put16 addr value => cases hread
  | put32 addr value => cases hread

end

section

variable {δ : Type} (dev : Devices δ)

/-- A write is refused only where a read is refused, too. -/
def WritesAsReads (s : PaceState δ) (addr : Word) : Prop :=
  (translate dev s addr true).1 = (translate dev s addr false).1

/-- The first half of a write changes the memory, and then the second one is refused. -/
def Torn (s : PaceState δ) (addr value : Word) : Prop :=
  ∃ pa mem, (translate dev s addr true).1 = .ok pa ∧
    memAccessWrite dev s.mem pa ((Access.put32 addr value).bytes.take 2) = (true, mem) ∧
    mem ≠ s.mem ∧
    ∃ fsr, (translate dev { s with mem, mmu := (translate dev s addr true).2 } (addr + 2#32) true).1 =
      .error fsr

/-- The accesses that do what they should. -/
def Meets (s : PaceState δ) : Access → Prop
  | .get8 _ => True
  | .put8 _ _ => True
  | .get16 addr => s.fsr = 0 → addr &&& 1#32 = 0
  | .put16 addr _ => s.fsr = 0 → addr &&& 1#32 = 0 ∨ s.lastAddr = addr ∧ s.wasWrite = true
  | .get32 addr => s.fsr ≠ 0 → addr &&& 1#32 = 0 ∨ paceGetMemeryFault s = (addr, false, 1)
  | .put32 addr value =>
    (s.fsr ≠ 0 → addr &&& 1#32 = 0 ∨ paceGetMemeryFault s = (addr, true, 1)) ∧
    (s.fsr = 0 → addr &&& 3#32 = 2#32 →
      (InBlock addr 4 → WritesAsReads dev s addr) ∧ (¬ InBlock addr 4 → ¬ Torn dev s addr value))

end

variable {δ : Type} {dev : Devices δ} {s : PaceState δ} {addr : Word}

theorem pacePutLe_faulted (h : s.fsr ≠ 0) (addr value : Word) (size : ℕ) :
    pacePutLe dev s addr value size = s :=
  if_pos h

theorem uaeGet32Split_faulted (h : s.fsr ≠ 0) (addr : Word) : (uaeGet32Split dev s addr).2 = s := by
  rw [uaeGet32Split]
  split_ifs
  · rfl
  · dsimp only
    rw [paceGetLe_faulted h, paceGetLe_faulted h]

theorem uaePut32Split_faulted (h : s.fsr ≠ 0) (addr value : Word) : uaePut32Split dev s addr value = s := by
  rw [uaePut32Split]
  split_ifs
  · rfl
  · rw [pacePutLe_faulted h, pacePutLe_faulted h]

theorem builtinCtz_odd (h : addr &&& 1#32 ≠ 0) : builtinCtz addr = 0 := by
  have hodd := mt and_one_eq_zero.mpr h
  cases alignment addr with
  | odd hmod hctz => exact hctz
  | half hmod hctz => omega
  | whole hmod hctz => omega

theorem uaeGet32_odd (h : addr &&& 1#32 ≠ 0) (dev : Devices δ) (s : PaceState δ) :
    uaeGet32 dev s addr = (0, { s with fsr := 1, lastAddr := addr, wasWrite := false }) := by
  rw [uaeGet32, builtinCtz_odd h]
  rfl

theorem uaePut32_odd (h : addr &&& 1#32 ≠ 0) (dev : Devices δ) (s : PaceState δ) (value : Word) :
    uaePut32 dev s addr value = { s with fsr := 1, lastAddr := addr, wasWrite := true } := by
  rw [uaePut32, builtinCtz_odd h]
  rfl

theorem perform_faulted (h : s.fsr ≠ 0) {a : Access} (heven : a.size = 4 → a.addr &&& 1#32 = 0) :
    (perform dev s a).2 = s := by
  have hnot : ∀ p : Prop, ¬ (s.fsr = 0 ∧ p) := fun p hp => h hp.1
  cases a with
  | get8 addr => exact congrArg Prod.snd (paceGetLe_faulted h addr 1)
  | put8 addr value => exact pacePutLe_faulted h addr _ 1
  | get16 addr =>
    change (uaeGet16 dev s addr).2 = _
    rw [uaeGet16, if_neg (hnot _)]
    exact congrArg Prod.snd (paceGetLe_faulted h addr 2)
  | put16 addr value =>
    change uaePut16 dev s addr value = _
    rw [uaePut16, if_neg (hnot _)]
    exact pacePutLe_faulted h addr _ 2
  | get32 addr =>
    have hmod : addr.toNat % 2 = 0 := and_one_eq_zero.mp (heven rfl)
    change (uaeGet32 dev s addr).2 = _
    rw [uaeGet32]
    cases alignment addr with
    | odd hodd hctz => omega
    | half _ hctz =>
      rw [hctz]
      exact uaeGet32Split_faulted h addr
    | whole _ hctz =>
      obtain ⟨n, hn⟩ := Nat.exists_eq_add_of_lt hctz
      rw [hn, show 1 + n + 1 = n + 2 by omega]
      exact congrArg Prod.snd (paceGetLe_faulted h addr 4)
  | put32 addr value =>
    have hmod : addr.toNat % 2 = 0 := and_one_eq_zero.mp (heven rfl)
    change uaePut32 dev s addr value = _
    rw [uaePut32]
    cases alignment addr with
    | odd hodd hctz => omega
    | half _ hctz =>
      rw [hctz]
      exact uaePut32Split_faulted h addr value
    | whole _ hctz =>
      obtain ⟨n, hn⟩ := Nat.exists_eq_add_of_lt hctz
      rw [hn, show 1 + n + 1 = n + 2 by omega]
      exact pacePutLe_faulted h addr _ 4

/-- The report stands and the memory does not change. -/
def Stands (dev : Devices δ) (s : PaceState δ) (a : Access) : Prop :=
  paceGetMemeryFault (perform dev s a).2 = paceGetMemeryFault s ∧ (perform dev s a).2.mem = s.mem

theorem stands_of_even (h : s.fsr ≠ 0) {a : Access} (heven : a.size = 4 → a.addr &&& 1#32 = 0) :
    Stands dev s a := by
  rw [Stands, perform_faulted h heven]
  exact ⟨rfl, rfl⟩

theorem stands_iff (h : s.fsr ≠ 0) (a : Access) : Stands dev s a ↔ Meets dev s a := by
  cases a with
  | get8 addr => exact iff_of_true (stands_of_even h fun hsize => (nomatch hsize)) trivial
  | put8 addr value => exact iff_of_true (stands_of_even h fun hsize => (nomatch hsize)) trivial
  | get16 addr =>
    exact iff_of_true (stands_of_even h fun hsize => (nomatch hsize)) fun hzero => absurd hzero h
  | put16 addr value =>
    exact iff_of_true (stands_of_even h fun hsize => (nomatch hsize)) fun hzero => absurd hzero h
  | get32 addr =>
    by_cases hodd : addr &&& 1#32 = 0
    · exact iff_of_true (stands_of_even h fun _ => hodd) fun _ => .inl hodd
    · change paceGetMemeryFault (uaeGet32 dev s addr).2 = _ ∧ (uaeGet32 dev s addr).2.mem = _ ↔ _
      rw [uaeGet32_odd hodd]
      exact ⟨fun hsame _ => .inr hsame.1.symm, fun hmeets => ⟨((hmeets h).resolve_left hodd).symm, rfl⟩⟩
  | put32 addr value =>
    have hmeets : Meets dev s (.put32 addr value) ↔
        (addr &&& 1#32 = 0 ∨ paceGetMemeryFault s = (addr, true, 1)) :=
      ⟨fun hmeets => hmeets.1 h, fun hmeets => ⟨fun _ => hmeets, fun hzero => absurd hzero h⟩⟩
    rw [hmeets]
    by_cases hodd : addr &&& 1#32 = 0
    · exact iff_of_true (stands_of_even h fun _ => hodd) (.inl hodd)
    · change paceGetMemeryFault (uaePut32 dev s addr value) = _ ∧ (uaePut32 dev s addr value).mem = _ ↔ _
      rw [uaePut32_odd hodd]
      exact ⟨fun hsame => .inr hsame.1.symm, fun hmeets => ⟨(hmeets.resolve_left hodd).symm, rfl⟩⟩

end Cloudpilot.Uarm.Pace
