import Cloudpilot.Hardware.ScreenTracking.Screen

/-! # What marking the screen changes

A screen that ends before the last byte of the RAM is marked and unmarked exactly, and one that
lies behind the RAM, or is empty, is never marked.
-/

namespace Cloudpilot.Hardware.ScreenTracking

open EmBankSRAM

section

variable {c : RamBanks} {meta₁ meta₂ meta₃ : MetaMemory} {f : Byte → Byte} {p q r : ℕ}
  {start stop : Word} {n : ℕ}

/-- The bytes of a range have changed, and no others. -/
structure Touched (f : Byte → Byte) (p endP : ℕ) (meta₁ meta₂ : MetaMemory) : Prop where
  bytes_eq : ∀ k, meta₂.bytes k = if p ≤ k ∧ k < endP then f (meta₁.bytes k) else meta₁.bytes k
  log : ∀ k ∈ meta₂.log, (p ≤ k ∧ k < endP) ∨ k ∈ meta₁.log

theorem Touched.bytes_of {k : ℕ} (h : Touched f p q meta₁ meta₂) (hk : p ≤ k ∧ k < q) :
    meta₂.bytes k = f (meta₁.bytes k) := by rw [h.bytes_eq, if_pos hk]

theorem Touched.bytes_of_not {k : ℕ} (h : Touched f p q meta₁ meta₂) (hk : ¬ (p ≤ k ∧ k < q)) :
    meta₂.bytes k = meta₁.bytes k := by rw [h.bytes_eq, if_neg hk]

theorem touched_touchRange (m : MetaMemory) (f : Byte → Byte) (p endP : ℕ) :
    Touched f p endP m (m.touchRange f p endP) :=
  ⟨m.touchRange_bytes f p endP, fun _ hk => m.mem_touchRange_log hk⟩

theorem Touched.trans (h : Touched f p q meta₁ meta₂) (h' : Touched f q r meta₂ meta₃) (hpq : p ≤ q)
    (hqr : q ≤ r) : Touched f p r meta₁ meta₃ := by
  constructor
  · grind [h'.bytes_eq, h.bytes_eq]
  · intro k hk
    rcases h'.log k hk with hk | hk
    · omega
    · rcases h.log k hk with hk | hk
      · omega
      · grind

theorem touched_empty (f : Byte → Byte) (p : ℕ) (m : MetaMemory) : Touched f p p m m := by
  constructor
  · simp
  · grind

theorem toNat_ramSize (r : RamSize) : (ramSize r).toNat = r.bytes := by
  have hlt := r.bytes_lt
  simp [ramSize]
  omega

theorem served_iff {address : Word} : c.served address = true ↔ address.toNat < c.numBanks * 65536 := by
  simp [RamBanks.served, emMemBankIndex, Nat.shiftRight_eq_div_pow]
  omega

theorem bytes_le_numBanks (c : RamBanks) : c.size.bytes ≤ c.numBanks * 65536 := by
  have hlt := c.size.bytes_lt
  have hpos := c.size.bytes_pos
  have hlast : (gMemoryStart + ramSize c.size - 1).toNat = c.size.bytes - 1 := by
    simp [gMemoryStart, BitVec.toNat_sub, toNat_ramSize]
    omega
  unfold RamBanks.numBanks
  dsimp only
  have hfirst : emMemBankIndex gMemoryStart = 0 := rfl
  rw [hfirst, emMemBankIndex, BitVec.toNat_ushiftRight, hlast, Nat.shiftRight_eq_div_pow]
  split <;> omega

theorem served_of_lt {address : Word} (h : address.toNat < c.size.bytes) : c.served address = true :=
  served_iff.mpr (by have hbanks := bytes_le_numBanks c; omega)

theorem toNat_and_mask {address : Word} (h : address.toNat < c.size.bytes) :
    (address &&& gRAMBankMask c.size).toNat = address.toNat := by
  rw [toNat_and_gRAMBankMask, Nat.mod_eq_of_lt h]

theorem metaAddress_of_lt {address : Word} (h : address.toNat < c.size.bytes) :
    c.metaAddress address = address.toNat := by
  unfold RamBanks.metaAddress
  split
  · rfl
  · exact toNat_and_mask h

/-- The range starts with an address that the RAM serves, and ends before its last byte. -/
structure Inside (c : RamBanks) (start stop : Word) (n : ℕ) : Prop where
  stop_eq : stop.toNat = start.toNat + n
  lt : start.toNat + n < c.size.bytes

theorem Inside.sub (h : Inside c start stop n) : (stop - start).toNat = n := by
  have hstop := h.stop_eq
  bv_omega

theorem markScreen_inside (h : Inside c start stop n) (m : MetaMemory) :
    Touched (fun b => b ||| kScreenBits) start.toNat (start.toNat + n) m (m.markScreen c start stop) := by
  have hserved : c.served start = true := served_of_lt (by have hlt := h.lt; omega)
  have hinside : ¬ stop ≥ ramSize c.size := by
    have hlt := h.lt
    rw [ge_iff_le, BitVec.le_def, toNat_ramSize, h.stop_eq]
    omega
  have hzero : gMemoryStart + ramSize c.size = ramSize c.size := BitVec.zero_add _
  have hclamp : (if start < ramSize c.size ∧ stop ≥ ramSize c.size then ramSize c.size - 1 else stop) =
      stop := if_neg (fun hboth => hinside hboth.2)
  have hf : (fun b : Byte => (b &&& 0xff) ||| kScreenBits) = fun b => b ||| kScreenBits := by
    funext b
    rw [show (0xff : Byte) = BitVec.allOnes 8 from rfl, BitVec.and_allOnes]
  unfold MetaMemory.markScreen MetaMemory.markUnmarkRange
  dsimp only
  rw [if_neg (not_not.mpr hserved), hzero, hclamp, if_neg (fun hboth => hinside hboth.2.2), h.sub,
    metaAddress_of_lt (by have hlt := h.lt; omega), hf]
  exact touched_touchRange ..

theorem unmarkScreen_inside (h : Inside c start stop n) (m : MetaMemory) :
    Touched (fun b => b &&& ~~~kScreenBuffer) start.toNat (start.toNat + n) m
      (m.unmarkScreen c start stop) := by
  have hserved : c.served start = true := served_of_lt (by have hlt := h.lt; omega)
  have hlt := h.lt
  unfold MetaMemory.unmarkScreen MetaMemory.unmarkRange
  dsimp only
  by_cases hempty : stop ≤ start
  · rw [if_pos hempty]
    have hzero : n = 0 := by
      rw [BitVec.le_def, h.stop_eq] at hempty
      omega
    rw [hzero]
    exact touched_empty ..
  rw [if_neg hempty, if_neg (not_not.mpr hserved), h.sub, metaAddress_of_lt (by omega),
    Nat.min_eq_left (by omega)]
  split
  · exact touched_touchRange ..
  · rename_i hlong
    have hn : 12 ≤ n := by
      rw [BitVec.lt_def, h.sub] at hlong
      exact not_lt.mp hlong
    have hmax : max ((start.toNat + 3) / 4 * 4) ((start.toNat + n) / 4 * 4) =
        (start.toNat + n) / 4 * 4 := by omega
    rw [hmax]
    apply Touched.trans _ (touched_touchRange _ _ _ _) (q := (start.toNat + n) / 4 * 4) (by omega)
      (by omega)
    exact (touched_touchRange _ _ _ _).trans (touched_touchRange _ _ _ _) (by omega) (by omega)

theorem markScreen_elsewhere (h : c.served start = false) (m : MetaMemory) :
    m.markScreen c start stop = m := if_pos (by rw [h]; exact Bool.false_ne_true)

theorem unmarkScreen_elsewhere (h : c.served start = false) (m : MetaMemory) :
    m.unmarkScreen c start stop = m := by
  unfold MetaMemory.unmarkScreen MetaMemory.unmarkRange
  split
  · rfl
  · simp [h]

theorem markScreen_empty (m : MetaMemory) : m.markScreen c start start = m := by
  unfold MetaMemory.markScreen MetaMemory.markUnmarkRange
  split
  · rfl
  · have hzero : gMemoryStart + ramSize c.size = ramSize c.size := BitVec.zero_add _
    have hcontra {P : Prop} (h : start < ramSize c.size ∧ start ≥ ramSize c.size) : P :=
      absurd h.1 (BitVec.not_lt.mpr h.2)
    dsimp only
    rw [hzero, if_neg (fun hboth => hcontra hboth), if_neg (fun hboth => hcontra hboth.2)]
    simp [MetaMemory.touchRange]

theorem unmarkScreen_empty (m : MetaMemory) : m.unmarkScreen c start start = m :=
  if_pos (BitVec.le_refl start)

end

variable {c : RamBanks} {b : Bank} {w : Write} {a p : ℕ}

/-- The number of flags that are checked. -/
def checkedBytes : Write → ℕ
  | .long _ _ => 4
  | .word _ _ => 2
  | .byte _ _ => 1

def RamBanks.OddHeapWord (c : RamBanks) : Write → Prop
  | .word address _ => c.dram address = true ∧ address.toNat % 2 = 1
  | _ => False

theorem put_long (c : RamBanks) (b : Bank) (address value : Word) : c.put b (.long address value) =
    if c.dram address then
      ⟨markDirty (markDirty (emMemDoPut32 b (alignedAddress address).toNat value)
          (alignedAddress address)) (alignedAddress address + 2),
        (alignedAddress address).toNat, MetaMemory.isScreenBuffer32, alignedAddress address,
        alignedAddress address + 4⟩
    else
      ⟨setLong c.size b address value, (alignedAddress address &&& gRAMBankMask c.size).toNat,
        MetaMemory.isScreenBuffer32, alignedAddress address, alignedAddress address + 4⟩ :=
  rfl

theorem put_word (c : RamBanks) (b : Bank) (address value : Word) : c.put b (.word address value) =
    if c.dram address then
      ⟨markDirty (emMemDoPut16 b address.toNat (value.setWidth 16)) address, address.toNat,
        MetaMemory.isScreenBuffer16, address, address + 2⟩
    else
      ⟨setWord c.size b address value, (alignedAddress address &&& gRAMBankMask c.size).toNat,
        MetaMemory.isScreenBuffer16, alignedAddress address, alignedAddress address + 2⟩ :=
  rfl

theorem put_byte (c : RamBanks) (b : Bank) (address value : Word) : c.put b (.byte address value) =
    if c.dram address then
      ⟨markDirty (emMemDoPut8 b address.toNat (value.setWidth 8)) address, address.toNat,
        MetaMemory.isScreenBuffer8, address, address⟩
    else
      ⟨setByte c.size b address value, (address &&& gRAMBankMask c.size).toNat,
        MetaMemory.isScreenBuffer8, address, address⟩ :=
  rfl

theorem put8_ram (value : Byte) (h : (emMemDoPut8 b p value).ram (a ^^^ 1) ≠ b.ram (a ^^^ 1)) :
    a = p := by
  by_contra hne
  apply h
  apply ram_storeByte_of_ne
  intro heq
  apply hne
  have hback := congrArg (fun k => k ^^^ 1) heq
  simpa [Nat.xor_assoc] using hback

theorem put16_ram (value : BitVec 16)
    (h : (emMemDoPut16 b p value).ram (a ^^^ 1) ≠ b.ram (a ^^^ 1)) :
    a ^^^ 1 = p ∨ a ^^^ 1 = p + 1 := by
  by_contra hne
  rw [not_or] at hne
  apply h
  rw [emMemDoPut16, ram_storeByte_of_ne _ hne.2, ram_storeByte_of_ne _ hne.1]

theorem put32_ram (value : Word) (h : (emMemDoPut32 b p value).ram (a ^^^ 1) ≠ b.ram (a ^^^ 1)) :
    p ≤ a ^^^ 1 ∧ a ^^^ 1 < p + 4 := by
  by_cases hlast : (emMemDoPut16 b p ((value >>> 16).setWidth 16)).ram (a ^^^ 1) = b.ram (a ^^^ 1)
  · rw [← hlast] at h
    have hsecond := put16_ram _ h
    omega
  · have hfirst := put16_ram _ hlast
    omega

theorem even_masked (c : RamBanks) (address : Word) :
    (alignedAddress address &&& gRAMBankMask c.size).toNat % 2 = 0 := by
  rw [toNat_and_gRAMBankMask, toNat_alignedAddress]
  exact even_mod_bytes c.size address.toNat

theorem even_aligned (address : Word) : (alignedAddress address).toNat % 2 = 0 := by
  rw [toNat_alignedAddress]
  exact Nat.mul_mod_left _ 2

theorem put_changed (h : (c.put b w).bank.ram (a ^^^ 1) ≠ b.ram (a ^^^ 1)) :
    ∃ a', a' / 2 = a / 2 ∧ (a' = a ∨ c.OddHeapWord w) ∧ (c.put b w).metaOffset ≤ a' ∧
      a' < (c.put b w).metaOffset + checkedBytes w := by
  have hpair := xor_one_div_two a
  cases w with
  | long address value =>
    refine ⟨a, rfl, Or.inl rfl, ?_⟩
    rw [put_long] at h ⊢
    split
    · rename_i hdram
      rw [if_pos hdram] at h
      have hrange := put32_ram value h
      have heven := even_aligned address
      simp only [checkedBytes]
      omega
    · rename_i hdram
      rw [if_neg hdram] at h
      have hrange := put32_ram value h
      have heven := even_masked c address
      simp only [checkedBytes]
      omega
  | word address value =>
    rw [put_word] at h ⊢
    split
    · rename_i hdram
      rw [if_pos hdram] at h
      have hrange := put16_ram (value.setWidth 16) h
      by_cases hodd : address.toNat % 2 = 1
      · refine ⟨a ^^^ 1, hpair, Or.inr ⟨hdram, hodd⟩, ?_⟩
        simp only [checkedBytes]
        omega
      · grind [checkedBytes]
    · rename_i hdram
      rw [if_neg hdram] at h
      have hrange := put16_ram (value.setWidth 16) h
      have heven := even_masked c address
      refine ⟨a, rfl, Or.inl rfl, ?_⟩
      simp only [checkedBytes]
      omega
  | byte address value =>
    refine ⟨a, rfl, Or.inl rfl, ?_⟩
    rw [put_byte] at h ⊢
    split
    · rename_i hdram
      rw [if_pos hdram] at h
      have hsame := put8_ram (value.setWidth 8) h
      simp only [checkedBytes]
      omega
    · rename_i hdram
      rw [if_neg hdram] at h
      have hsame := put8_ram (value.setWidth 8) h
      simp only [checkedBytes]
      omega

theorem isScreenBuffer32_iff_exists (m : MetaMemory) (p : ℕ) :
    m.isScreenBuffer32 p = true ↔ ∃ i < 4, m.screenBit (p + i) := by
  rw [MetaMemory.isScreenBuffer32_iff]
  constructor
  · rintro (h | h | h | h)
    · exact ⟨0, by decide, h⟩
    · grind
    · grind
    · grind
  · grind

theorem isScreenBuffer16_iff_exists (m : MetaMemory) (p : ℕ) :
    m.isScreenBuffer16 p = true ↔ ∃ i < 2, m.screenBit (p + i) := by
  rw [MetaMemory.isScreenBuffer16_iff]
  constructor
  · rintro (h | h)
    · exact ⟨0, by decide, h⟩
    · grind
  · grind

theorem put_flag_iff (metaMemory : MetaMemory) :
    (c.put b w).isScreenBuffer metaMemory (c.put b w).metaOffset = true ↔
      ∃ i < checkedBytes w, metaMemory.screenBit ((c.put b w).metaOffset + i) := by
  cases w with
  | long address value =>
    have hcheck : (c.put b (.long address value)).isScreenBuffer = MetaMemory.isScreenBuffer32 := by
      rw [put_long]
      split <;> rfl
    rw [hcheck]
    exact isScreenBuffer32_iff_exists ..
  | word address value =>
    have hcheck : (c.put b (.word address value)).isScreenBuffer = MetaMemory.isScreenBuffer16 := by
      rw [put_word]
      split <;> rfl
    rw [hcheck]
    exact isScreenBuffer16_iff_exists ..
  | byte address value =>
    have hcheck : (c.put b (.byte address value)).isScreenBuffer = MetaMemory.isScreenBuffer8 := by
      grind [put_byte]
    rw [hcheck, MetaMemory.isScreenBuffer8_iff]
    simp [checkedBytes]

theorem put_range (h : (writeAddress w).toNat < c.size.bytes) :
    (c.put b w).low.toNat = (c.put b w).metaOffset ∧
      (c.put b w).metaOffset + checkedBytes w ≤ (c.put b w).high.toNat + 1 := by
  have hbytes := c.size.bytes_lt
  cases w with
  | long address value =>
    change address.toNat < _ at h
    have haligned := toNat_alignedAddress address
    have hinside : (alignedAddress address).toNat < c.size.bytes := by omega
    have hmask := toNat_and_mask hinside
    rw [put_long]
    split
    · refine ⟨rfl, ?_⟩
      simp only [checkedBytes]
      bv_omega
    · grind [checkedBytes]
  | word address value =>
    change address.toNat < _ at h
    have haligned := toNat_alignedAddress address
    have hinside : (alignedAddress address).toNat < c.size.bytes := by omega
    have hmask := toNat_and_mask hinside
    rw [put_word]
    split
    · grind [checkedBytes]
    · refine ⟨hmask.symm, ?_⟩
      simp only [checkedBytes]
      bv_omega
  | byte address value =>
    change address.toNat < _ at h
    have hmask := toNat_and_mask h
    rw [put_byte]
    split
    · exact ⟨rfl, le_rfl⟩
    · grind [checkedBytes]

end Cloudpilot.Hardware.ScreenTracking
