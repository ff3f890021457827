import Mathlib.Logic.Function.Basic
import Mathlib.Tactic

/-! # Writes to the RAM of the 68k devices

Host memory is addressed relative to the pointers `ram` and `dirtyPages` of the RAM
region, so an offset past the end of the region reaches the region behind it. The
emulator stores 16 bit words in host order and swaps the two bytes of a word on byte
access (`WORDSWAP_MEMORY`); the region starts at an even host address. An access to an
odd address, or to protected memory, enters the exception and then goes on with the
write.
-/
namespace Cloudpilot.Hardware.EmBankSRAM

open List Nat

abbrev Byte := BitVec 8
abbrev Emuptr := BitVec 32

/-- RAM sizes: powers of two in whole units of 8192 bytes, as `AllocateRegion` asserts,
that fit in 32 bits. -/
structure RamSize where
  log : ℕ
  whole : 13 ≤ log
  fits : log < 32

def RamSize.bytes (r : RamSize) : ℕ := 2 ^ r.log

def ramSize (r : RamSize) : Emuptr := BitVec.ofNat 32 r.bytes

def gRAMBankMask (r : RamSize) : Emuptr := ramSize r - 1

/-- The RAM and its page bitmap. The two logs list the offsets written to so far. -/
structure Bank where
  ram : ℕ → Byte
  dirtyPages : ℕ → Byte
  ramLog : List ℕ
  dirtyPagesLog : List ℕ

def Bank.start (ram dirtyPages : ℕ → Byte) : Bank := ⟨ram, dirtyPages, [], []⟩

def storeByte (b : Bank) (offset : ℕ) (value : Byte) : Bank :=
  { b with
    ram := Function.update b.ram offset value
    ramLog := offset :: b.ramLog }

def emMemDoPut8 (b : Bank) (offset : ℕ) (value : Byte) : Bank := storeByte b (offset ^^^ 1) value

def emMemDoPut16 (b : Bank) (offset : ℕ) (value : BitVec 16) : Bank :=
  storeByte (storeByte b offset (value.setWidth 8)) (offset + 1) ((value >>> 8).setWidth 8)

def emMemDoPut32 (b : Bank) (offset : ℕ) (value : BitVec 32) : Bank :=
  emMemDoPut16 (emMemDoPut16 b offset ((value >>> 16).setWidth 16)) (offset + 2)
    (value.setWidth 16)

def markDirty (b : Bank) (address : Emuptr) : Bank :=
  let index := (address >>> 13).toNat
  { b with
    dirtyPages := Function.update b.dirtyPages index
      (b.dirtyPages index ||| 1#8 <<< ((address >>> 10) &&& 7).toNat)
    dirtyPagesLog := index :: b.dirtyPagesLog }

/-- What is left of an odd address after the address error. -/
def alignedAddress (address : Emuptr) : Emuptr :=
  if address &&& 1#32 ≠ 0 then address &&& ~~~1#32 else address

def setLong (r : RamSize) (b : Bank) (address value : Emuptr) : Bank :=
  let phyAddress := alignedAddress address &&& gRAMBankMask r
  let b := emMemDoPut32 b phyAddress.toNat value
  let b := markDirty b phyAddress
  markDirty b (phyAddress + 2)

def setWord (r : RamSize) (b : Bank) (address value : Emuptr) : Bank :=
  let phyAddress := alignedAddress address &&& gRAMBankMask r
  let b := emMemDoPut16 b phyAddress.toNat (value.setWidth 16)
  markDirty b phyAddress

def setByte (r : RamSize) (b : Bank) (address value : Emuptr) : Bank :=
  let phyAddress := address &&& gRAMBankMask r
  let b := emMemDoPut8 b phyAddress.toNat (value.setWidth 8)
  markDirty b phyAddress

inductive Write where
  | long (address value : Emuptr)
  | word (address value : Emuptr)
  | byte (address value : Emuptr)

def Write.exec (r : RamSize) (b : Bank) : Write → Bank
  | .long address value => setLong r b address value
  | .word address value => setWord r b address value
  | .byte address value => setByte r b address value

def run (r : RamSize) (b : Bank) (writes : List Write) : Bank := writes.foldl (Write.exec r) b

/-- The bit of the 1024 byte page around an offset. -/
def pageDirty (b : Bank) (offset : ℕ) : Prop :=
  (b.dirtyPages (offset / 8192)).getLsbD (offset / 1024 % 8) = true

theorem pageDirty_congr {b : Bank} {a a' : ℕ} (h : a / 1024 = a' / 1024) :
    pageDirty b a ↔ pageDirty b a' := by
  have h' : a / 8192 = a' / 8192 := by omega
  rw [pageDirty, pageDirty, h, h']

theorem pageDirty_markDirty_of (b : Bank) (address : Emuptr) {offset : ℕ}
    (h : pageDirty b offset) : pageDirty (markDirty b address) offset := by
  rw [pageDirty] at h ⊢
  simp only [markDirty, Function.update_apply]
  split
  · rename_i heq
    rw [← heq, BitVec.getLsbD_or, h, Bool.true_or]
  · exact h

theorem pageDirty_markDirty_self (b : Bank) (address : Emuptr) :
    pageDirty (markDirty b address) address.toNat := by
  have hindex : (address >>> 13).toNat = address.toNat / 8192 := by simp [shiftRight_eq_div_pow]
  have hbit : ((address >>> 10) &&& 7).toNat = address.toNat / 1024 % 8 := by
    rw [BitVec.toNat_and, BitVec.toNat_ushiftRight, shiftRight_eq_div_pow]
    exact and_two_pow_sub_one_eq_mod _ 3
  have hlt : address.toNat / 1024 % 8 < 8 := mod_lt _ (by norm_num)
  rw [pageDirty]
  simp only [markDirty, hindex, hbit, Function.update_self, BitVec.getLsbD_or,
    BitVec.getLsbD_shiftLeft]
  simp [hlt]

theorem RamSize.bytes_dvd (r : RamSize) : 8192 ∣ r.bytes := by
  have h := pow_dvd_pow 2 r.whole
  exact h

theorem RamSize.bytes_pos (r : RamSize) : 0 < r.bytes := Nat.two_pow_pos r.log

theorem RamSize.bytes_lt (r : RamSize) : 2 * r.bytes ≤ 2 ^ 32 := by
  have h := Nat.pow_le_pow_right (show 0 < 2 by norm_num) (Nat.succ_le_of_lt r.fits)
  rw [RamSize.bytes]
  omega

theorem toNat_gRAMBankMask (r : RamSize) : (gRAMBankMask r).toNat = r.bytes - 1 := by
  have hpos := r.bytes_pos
  have hlt := r.bytes_lt
  rw [gRAMBankMask, ramSize, BitVec.toNat_sub, BitVec.toNat_ofNat]
  rw [show (1 : Emuptr).toNat = 1 from rfl]
  omega

theorem toNat_and_gRAMBankMask (r : RamSize) (address : Emuptr) :
    (address &&& gRAMBankMask r).toNat = address.toNat % r.bytes := by
  rw [BitVec.toNat_and, toNat_gRAMBankMask]
  exact and_two_pow_sub_one_eq_mod _ r.log

theorem and_not_one (x : Emuptr) : x &&& ~~~1#32 = (x >>> 1) <<< 1 := by
  ext i hi
  rw [BitVec.getElem_and, BitVec.getElem_not]
  cases i with
  | zero => simp
  | succ i => simp [add_comm, BitVec.getLsbD_eq_getElem hi]

theorem toNat_alignedAddress (address : Emuptr) :
    (alignedAddress address).toNat = address.toNat / 2 * 2 := by
  have hodd : (address &&& 1#32).toNat = address.toNat % 2 := by simp
  rw [alignedAddress]
  split
  · rw [and_not_one]
    bv_omega
  · grind

def Write.phyAddress (r : RamSize) : Write → Emuptr
  | .long address _ => alignedAddress address &&& gRAMBankMask r
  | .word address _ => alignedAddress address &&& gRAMBankMask r
  | .byte address _ => address &&& gRAMBankMask r

def Write.offsets (r : RamSize) (w : Write) : List ℕ :=
  let p := (w.phyAddress r).toNat
  match w with
  | .long _ _ => [p + 2 + 1, p + 2, p + 1, p]
  | .word _ _ => [p + 1, p]
  | .byte _ _ => [p ^^^ 1]

/-- The bitmap indices of a write, the last one first. -/
def Write.indices (r : RamSize) (w : Write) : List ℕ :=
  let p := w.phyAddress r
  match w with
  | .long _ _ => [((p + 2) >>> 13).toNat, (p >>> 13).toNat]
  | .word _ _ => [(p >>> 13).toNat]
  | .byte _ _ => [(p >>> 13).toNat]

variable (r : RamSize) (b : Bank) (w : Write)

theorem ramLog_exec : (w.exec r b).ramLog = w.offsets r ++ b.ramLog := by
  cases w <;> rfl

theorem dirtyPagesLog_exec : (w.exec r b).dirtyPagesLog = w.indices r ++ b.dirtyPagesLog := by
  cases w <;> rfl

theorem ram_storeByte_of_ne {a offset : ℕ} (h : a ≠ offset) (value : Byte) :
    (storeByte b offset value).ram a = b.ram a := Function.update_of_ne h _ _

theorem ram_exec_of_notMem {a : ℕ} (h : a ∉ w.offsets r) : (w.exec r b).ram a = b.ram a := by
  cases w with
  | long address value =>
    simp only [Write.offsets, Write.phyAddress, mem_cons, not_mem_nil, or_false, not_or] at h
    obtain ⟨h3, h2, h1, h0⟩ := h
    change (emMemDoPut32 b _ value).ram a = b.ram a
    rw [emMemDoPut32, emMemDoPut16, emMemDoPut16, ram_storeByte_of_ne _ h3,
      ram_storeByte_of_ne _ h2, ram_storeByte_of_ne _ h1, ram_storeByte_of_ne _ h0]
  | word address value =>
    simp only [Write.offsets, Write.phyAddress, mem_cons, not_mem_nil, or_false, not_or] at h
    change (emMemDoPut16 b _ _).ram a = b.ram a
    rw [emMemDoPut16, ram_storeByte_of_ne _ h.1, ram_storeByte_of_ne _ h.2]
  | byte address value =>
    simp only [Write.offsets, Write.phyAddress, mem_cons, not_mem_nil, or_false] at h
    exact ram_storeByte_of_ne b h _

theorem pageDirty_exec_of {a : ℕ} (h : pageDirty b a) : pageDirty (w.exec r b) a := by
  cases w with
  | long address value =>
    apply pageDirty_markDirty_of
    apply pageDirty_markDirty_of
    exact h
  | word address value =>
    apply pageDirty_markDirty_of
    exact h
  | byte address value =>
    apply pageDirty_markDirty_of
    exact h

theorem phyAddress_long (address value : Emuptr) :
    ((Write.long address value).phyAddress r).toNat = address.toNat / 2 * 2 % r.bytes := by
  rw [Write.phyAddress, toNat_and_gRAMBankMask, toNat_alignedAddress]

theorem phyAddress_word (address value : Emuptr) :
    ((Write.word address value).phyAddress r).toNat = address.toNat / 2 * 2 % r.bytes :=
  phyAddress_long r address value

theorem phyAddress_byte (address value : Emuptr) :
    ((Write.byte address value).phyAddress r).toNat = address.toNat % r.bytes :=
  toNat_and_gRAMBankMask r address

theorem phyAddress_lt : (w.phyAddress r).toNat < r.bytes := by
  cases w with
  | long address value =>
    rw [phyAddress_long]
    exact mod_lt _ r.bytes_pos
  | word address value =>
    rw [phyAddress_word]
    exact mod_lt _ r.bytes_pos
  | byte address value =>
    rw [phyAddress_byte]
    exact mod_lt _ r.bytes_pos

theorem even_mod_bytes (a : ℕ) : a / 2 * 2 % r.bytes % 2 = 0 := by
  rw [mod_mod_of_dvd _ (dvd_trans (by norm_num) r.bytes_dvd)]
  exact mul_mod_left _ 2

theorem toNat_phyAddress_add_two : (w.phyAddress r + 2).toNat = (w.phyAddress r).toNat + 2 := by
  have hlt := phyAddress_lt r w
  have hbytes := r.bytes_lt
  bv_omega

theorem xor_one_div_two (p : ℕ) : (p ^^^ 1) / 2 = p / 2 := by
  rw [xor_div_two]
  exact Nat.xor_zero _

theorem pageDirty_exec_of_mem {a : ℕ} (h : a ∈ w.offsets r) : pageDirty (w.exec r b) a := by
  cases w with
  | long address value =>
    have heven := even_mod_bytes r address.toNat
    rw [← phyAddress_long r address value] at heven
    simp only [Write.offsets, mem_cons, not_mem_nil, or_false] at h
    have hsecond := toNat_phyAddress_add_two r (.long address value)
    set p := (Write.long address value).phyAddress r with hp
    have hpage : a / 1024 = p.toNat / 1024 ∨ a / 1024 = (p + 2).toNat / 1024 := by omega
    rcases hpage with hpage | hpage
    · apply pageDirty_markDirty_of
      rw [pageDirty_congr hpage]
      exact pageDirty_markDirty_self _ _
    · rw [pageDirty_congr hpage]
      exact pageDirty_markDirty_self _ _
  | word address value =>
    have heven := even_mod_bytes r address.toNat
    rw [← phyAddress_word r address value] at heven
    simp only [Write.offsets, mem_cons, not_mem_nil, or_false] at h
    set p := (Write.word address value).phyAddress r with hp
    have hpage : a / 1024 = p.toNat / 1024 := by omega
    rw [pageDirty_congr hpage]
    exact pageDirty_markDirty_self _ _
  | byte address value =>
    simp only [Write.offsets, mem_cons, not_mem_nil, or_false] at h
    have hhalf := xor_one_div_two ((Write.byte address value).phyAddress r).toNat
    set p := (Write.byte address value).phyAddress r with hp
    have hpage : a / 1024 = p.toNat / 1024 := by omega
    rw [pageDirty_congr hpage]
    exact pageDirty_markDirty_self _ _

def Write.Straddles (r : RamSize) : Write → Prop
  | .long address _ => address.toNat / 2 * 2 % r.bytes + 2 = r.bytes
  | _ => False

def Write.Inside (r : RamSize) (w : Write) : Prop :=
  (∀ a ∈ w.offsets r, a < r.bytes) ∧ ∀ i ∈ w.indices r, i < r.bytes / 8192

theorem index_lt {address : Emuptr} (h : address.toNat < r.bytes) :
    (address >>> 13).toNat < r.bytes / 8192 := by
  have hdvd := r.bytes_dvd
  rw [BitVec.toNat_ushiftRight, shiftRight_eq_div_pow]
  omega

theorem inside_long_iff (address value : Emuptr) :
    (Write.long address value).Inside r ↔ ¬ (Write.long address value).Straddles r := by
  have heven := even_mod_bytes r address.toNat
  have hlt := phyAddress_lt r (.long address value)
  have hsecond := toNat_phyAddress_add_two r (.long address value)
  have hbytes : r.bytes % 2 = 0 := mod_eq_zero_of_dvd (dvd_trans (by norm_num) r.bytes_dvd)
  simp only [Write.Inside, Write.Straddles, ← phyAddress_long r address value] at heven ⊢
  simp only [Write.offsets, Write.indices, forall_mem_cons, not_mem_nil,
    IsEmpty.forall_iff, implies_true, and_true]
  constructor
  · omega
  · intro h
    exact ⟨by omega, index_lt r (by omega), index_lt r hlt⟩

theorem inside_iff : w.Inside r ↔ ¬ w.Straddles r := by
  have hlt := phyAddress_lt r w
  have hbytes : r.bytes % 2 = 0 := mod_eq_zero_of_dvd (dvd_trans (by norm_num) r.bytes_dvd)
  cases w with
  | long address value => exact inside_long_iff r address value
  | word address value =>
    have heven := even_mod_bytes r address.toNat
    rw [← phyAddress_word r address value] at heven
    simp [Write.Inside, Write.Straddles, Write.offsets, Write.indices]
    exact ⟨by omega, index_lt r hlt⟩
  | byte address value =>
    have hhalf := xor_one_div_two ((Write.byte address value).phyAddress r).toNat
    simp [Write.Inside, Write.Straddles, Write.offsets, Write.indices]
    exact ⟨by omega, index_lt r hlt⟩

/-- Nothing outside the RAM and its bitmap is written, and every page with a changed
byte is marked. -/
structure Confined (r : RamSize) (first last : Bank) : Prop where
  ram : ∀ a ∈ last.ramLog, a < r.bytes
  dirtyPages : ∀ i ∈ last.dirtyPagesLog, i < r.bytes / 8192
  dirty : ∀ a < r.bytes, last.ram a ≠ first.ram a → pageDirty last a

theorem run_append_singleton (writes : List Write) :
    run r b (writes ++ [w]) = w.exec r (run r b writes) := by
  simp [run]

theorem mem_log_run {log : Bank → List ℕ} {entries : Write → List ℕ}
    (hlog : ∀ b w, log (w.exec r b) = entries w ++ log b) {writes : List Write} {a : ℕ} :
    a ∈ log (run r b writes) ↔ a ∈ log b ∨ ∃ w ∈ writes, a ∈ entries w := by
  induction writes using reverseRecOn with
  | nil => simp [run]
  | append_singleton writes w ih =>
    rw [run_append_singleton, hlog, mem_append, ih, or_comm, or_assoc]
    simp

theorem mem_ramLog_run {writes : List Write} {a : ℕ} :
    a ∈ (run r b writes).ramLog ↔ a ∈ b.ramLog ∨ ∃ w ∈ writes, a ∈ w.offsets r :=
  mem_log_run r b (ramLog_exec r)

theorem mem_dirtyPagesLog_run {writes : List Write} {i : ℕ} :
    i ∈ (run r b writes).dirtyPagesLog ↔ i ∈ b.dirtyPagesLog ∨ ∃ w ∈ writes, i ∈ w.indices r :=
  mem_log_run r b (dirtyPagesLog_exec r)

theorem pageDirty_run {writes : List Write} {a : ℕ} (h : (run r b writes).ram a ≠ b.ram a) :
    pageDirty (run r b writes) a := by
  induction writes using reverseRecOn with
  | nil => exact absurd rfl h
  | append_singleton writes w ih =>
    rw [run_append_singleton] at h ⊢
    by_cases hmem : a ∈ w.offsets r
    · exact pageDirty_exec_of_mem r _ w hmem
    · rw [ram_exec_of_notMem r _ w hmem] at h
      exact pageDirty_exec_of r _ w (ih h)

/-- For every RAM size and every sequence of writes: the writes stay inside the RAM
and its bitmap and mark what they change exactly if no long write straddles the end. -/
theorem run_confined_iff (r : RamSize) (ram dirtyPages : ℕ → Byte) (writes : List Write) :
    Confined r (Bank.start ram dirtyPages) (run r (Bank.start ram dirtyPages) writes) ↔
      ∀ w ∈ writes, ¬ w.Straddles r := by
  constructor
  · intro h w hw
    rw [← inside_iff]
    exact ⟨fun a ha => h.ram a ((mem_ramLog_run r _).mpr (.inr ⟨w, hw, ha⟩)),
      fun i hi => h.dirtyPages i ((mem_dirtyPagesLog_run r _).mpr (.inr ⟨w, hw, hi⟩))⟩
  · intro h
    refine ⟨fun a ha => ?_, fun i hi => ?_, fun a _ => pageDirty_run r _⟩
    · rcases (mem_ramLog_run r _).mp ha with ha | ⟨w, hw, ha⟩
      · exact absurd ha not_mem_nil
      · exact ((inside_iff r w).mpr (h w hw)).1 a ha
    · rcases (mem_dirtyPagesLog_run r _).mp hi with hi | ⟨w, hw, hi⟩
      · exact absurd hi not_mem_nil
      · exact ((inside_iff r w).mpr (h w hw)).2 i hi

/-- The 128 KiB of a Pilot 1000. -/
def pilotRam : RamSize := ⟨17, by decide, by decide⟩

/-- A long write to the last word of the RAM stores two bytes behind the RAM and marks
a page behind the bitmap. -/
theorem run_long_at_end_not_confined :
    (run pilotRam (Bank.start (fun _ => 0) fun _ => 0) [.long 0x1001FFFE 0xFFFFFFFF]).ramLog =
        [131073, 131072, 131071, 131070] ∧
      (run pilotRam (Bank.start (fun _ => 0) fun _ => 0)
        [.long 0x1001FFFE 0xFFFFFFFF]).dirtyPagesLog = [16, 15] ∧
      pilotRam.bytes = 131072 ∧ pilotRam.bytes / 8192 = 16 ∧
      ¬ Confined pilotRam (Bank.start (fun _ => 0) fun _ => 0)
        (run pilotRam (Bank.start (fun _ => 0) fun _ => 0) [.long 0x1001FFFE 0xFFFFFFFF]) := by
  refine ⟨by decide, by decide, by decide, by decide, fun h => ?_⟩
  exact absurd (h.ram 131073 (by decide)) (by decide)

end Cloudpilot.Hardware.EmBankSRAM
