import Cloudpilot.Hardware.ScreenTracking.RamWrites

/-! # The invariant of screen tracking

Unless a full refresh is due, the flags are those of the screen, and the buffer agrees with the
memory outside of the dirty lines. Writes to the RAM and to the registers keep it.
-/
namespace Cloudpilot.Hardware.ScreenTracking
open EmBankSRAM BitVec

variable {c : RamBanks} {elsewhere : Word → Byte} {m m' : Screen} {w : Write} {k : ℕ}

/-- The line of a byte is one of those that a range of addresses meets. -/
def InLines (start rowBytes low high k : ℕ) : Prop :=
  start ≤ high ∧ (max low start - start) / rowBytes ≤ k / rowBytes ∧
    k / rowBytes ≤ (high - start) / rowBytes

theorem InLines.mono {start rowBytes low high low' high' : ℕ}
    (h : InLines start rowBytes low high k) (hlow : low' ≤ low) (hhigh : high ≤ high') :
    InLines start rowBytes low' high' k := by
  refine ⟨h.1.trans hhigh, ?_, ?_⟩
  · apply le_trans (Nat.div_le_div_right _) h.2.1
    omega
  · apply h.2.2.trans (Nat.div_le_div_right _)
    omega

namespace Screen

def rowBytes (m : Screen) : ℕ := m.lcdPageWidth.toNat * 2

def size (m : Screen) : ℕ := (m.lcdScreenHeight.toNat + 1) * m.rowBytes

/-- The screen has a byte at an address. -/
def Covers (m : Screen) (k : ℕ) : Prop :=
  m.lcdStartAddr.toNat ≤ k ∧ k < m.lcdStartAddr.toNat + m.size

/-- The screen is empty, ends before the last byte of the RAM, or lies behind the RAM. -/
def Trackable (c : RamBanks) (m : Screen) : Prop :=
  m.size = 0 ∨ m.lcdStartAddr.toNat + m.size < c.size.bytes ∨
    (c.numBanks * 65536 ≤ m.lcdStartAddr.toNat ∧ m.lcdStartAddr.toNat + m.size ≤ 2 ^ 32)

instance (c : RamBanks) (m : Screen) : Decidable (m.Trackable c) :=
  inferInstanceAs (Decidable (_ ∨ _ ∨ _))

/-- There is a start address, and the depth is not 8 bits. -/
def Draws (m : Screen) : Prop := m.lcdStartAddr ≠ 0 ∧ marginMask m.metrics.bpp ≠ none

/-- The buffer has what memory has. -/
def Shows (c : RamBanks) (elsewhere : Word → Byte) (m : Screen) (k : ℕ) : Prop :=
  m.frame.buffer k = m.readByte c elsewhere (m.lcdStartAddr + BitVec.ofNat 32 k)

/-- The lines between the watermarks. -/
def InDirtyLines (m : Screen) (k : ℕ) : Prop :=
  InLines m.lcdStartAddr.toNat m.rowBytes m.system.screenLowWatermark.toNat
    m.system.screenHighWatermark.toNat k

structure Tracked (c : RamBanks) (elsewhere : Word → Byte) (m : Screen) : Prop where
  marked : m.screenMarked = true → m.markScreenScheduled = false ∧ m.Trackable c
  scheduled : m.screenMarked = false → m.markScreenScheduled = true
  bits : ∀ k < c.size.bytes, m.metaMemory.screenBit k ↔ m.screenMarked = true ∧ m.Covers k
  metaLog : ∀ k ∈ m.metaMemory.log, k < c.size.bytes
  frameLog : ∀ k ∈ m.frame.log, k < m.frame.bufferSize
  settled : m.system.screenState ≠ .needsFullRefresh → m.screenMarked = true
  dirty : m.system.screenState = .dirty → m.size ≠ 0
  fits : m.system.screenState ≠ .needsFullRefresh → m.Draws → m.size ≤ m.frame.bufferSize
  shown : m.system.screenState ≠ .needsFullRefresh → m.Draws → ∀ k < m.size,
    m.Shows c elsewhere k ∨ (m.system.screenState = .dirty ∧ m.InDirtyLines k)

theorem rowBytes_le (m : Screen) : m.rowBytes ≤ 510 := by
  unfold rowBytes
  omega

theorem size_le (m : Screen) : m.size ≤ 65536 * 510 :=
  Nat.mul_le_mul (by have hlt := m.lcdScreenHeight.isLt; omega) m.rowBytes_le

theorem toNat_lastLineAddr (m : Screen) :
    m.lastLineAddr.toNat = (m.lcdStartAddr.toNat + m.size) % 2 ^ 32 := by
  have hlines : (m.lcdScreenHeight.setWidth 32 + 1 : Word).toNat = m.lcdScreenHeight.toNat + 1 := by
    bv_omega
  have hpage : (m.lcdPageWidth.setWidth 32 : Word).toNat = m.lcdPageWidth.toNat := by bv_omega
  have hsize : (m.lcdScreenHeight.toNat + 1) * m.lcdPageWidth.toNat * 2 = m.size := by
    rw [size, rowBytes, Nat.mul_assoc]
  have htwo : (2 : Word).toNat = 2 := rfl
  unfold lastLineAddr
  rw [toNat_add, toNat_mul, toNat_mul, hlines, hpage, htwo, ← hsize]
  omega

theorem lastLineAddr_of_empty (h : m.size = 0) : m.lastLineAddr = m.lcdStartAddr := by
  apply eq_of_toNat_eq
  rw [toNat_lastLineAddr, h, Nat.add_zero]
  exact Nat.mod_eq_of_lt m.lcdStartAddr.isLt

theorem inside_of_lt (h : m.lcdStartAddr.toNat + m.size < c.size.bytes) :
    Inside c m.lcdStartAddr m.lastLineAddr m.size := by
  have hbytes := c.size.bytes_lt
  refine ⟨?_, h⟩
  rw [toNat_lastLineAddr]
  omega

theorem not_served_of_le (h : c.numBanks * 65536 ≤ m.lcdStartAddr.toNat) :
    c.served m.lcdStartAddr = false := by
  rw [Bool.eq_false_iff, Ne, served_iff]
  omega

theorem not_covers_of_le (h : c.numBanks * 65536 ≤ m.lcdStartAddr.toNat) (hk : k < c.size.bytes) :
    ¬ m.Covers k := by
  have hbanks := bytes_le_numBanks c
  intro hcovers
  have hle := hcovers.1
  omega

theorem not_covers_of_empty (h : m.size = 0) : ¬ m.Covers k := by
  unfold Covers
  omega

theorem bit_or (b : Byte) : (b ||| kScreenBits).getLsbD 5 = true := by
  simp [kScreenBits, kNoAppAccess, kScreenBuffer]

theorem bit_andNot (b : Byte) : ¬ (b &&& ~~~kScreenBuffer).getLsbD 5 = true := by
  simp [kScreenBuffer]

theorem markScreen_bits (ht : m.Trackable c) (hk : k < c.size.bytes) :
    (m.metaMemory.markScreen c m.lcdStartAddr m.lastLineAddr).screenBit k ↔
      m.metaMemory.screenBit k ∨ m.Covers k := by
  rcases ht with hempty | hinside | hbehind
  · simp [lastLineAddr_of_empty hempty, markScreen_empty, not_covers_of_empty hempty]
  · have htouched := markScreen_inside (inside_of_lt hinside) m.metaMemory
    unfold MetaMemory.screenBit
    by_cases hcovers : m.Covers k
    · rw [htouched.bytes_of hcovers]
      simp only [bit_or, hcovers, or_true]
    · rw [htouched.bytes_of_not hcovers]
      simp [hcovers]
  · simp [markScreen_elsewhere (not_served_of_le hbehind.1), not_covers_of_le hbehind.1 hk]

theorem markScreen_log (ht : m.Trackable c)
    (hk : k ∈ (m.metaMemory.markScreen c m.lcdStartAddr m.lastLineAddr).log) :
    k < c.size.bytes ∨ k ∈ m.metaMemory.log := by
  rcases ht with hempty | hinside | hbehind
  · rw [lastLineAddr_of_empty hempty, markScreen_empty] at hk
    exact Or.inr hk
  · apply ((markScreen_inside (inside_of_lt hinside) m.metaMemory).log k hk).imp_left
    omega
  · rw [markScreen_elsewhere (not_served_of_le hbehind.1)] at hk
    exact Or.inr hk

theorem unmarkScreen_bits (ht : m.Trackable c) (hk : k < c.size.bytes) :
    (m.metaMemory.unmarkScreen c m.lcdStartAddr m.lastLineAddr).screenBit k ↔
      m.metaMemory.screenBit k ∧ ¬ m.Covers k := by
  rcases ht with hempty | hinside | hbehind
  · simp [lastLineAddr_of_empty hempty, unmarkScreen_empty, not_covers_of_empty hempty]
  · have htouched := unmarkScreen_inside (inside_of_lt hinside) m.metaMemory
    unfold MetaMemory.screenBit
    by_cases hcovers : m.Covers k
    · rw [htouched.bytes_of hcovers]
      simp only [bit_andNot, hcovers, not_true_eq_false, and_false, Bool.false_eq_true]
    · rw [htouched.bytes_of_not hcovers]
      simp [hcovers]
  · simp [unmarkScreen_elsewhere (not_served_of_le hbehind.1), not_covers_of_le hbehind.1 hk]

theorem unmarkScreen_log (ht : m.Trackable c)
    (hk : k ∈ (m.metaMemory.unmarkScreen c m.lcdStartAddr m.lastLineAddr).log) :
    k < c.size.bytes ∨ k ∈ m.metaMemory.log := by
  rcases ht with hempty | hinside | hbehind
  · rw [lastLineAddr_of_empty hempty, unmarkScreen_empty] at hk
    exact Or.inr hk
  · apply ((unmarkScreen_inside (inside_of_lt hinside) m.metaMemory).log k hk).imp_left
    omega
  · rw [unmarkScreen_elsewhere (not_served_of_le hbehind.1)] at hk
    exact Or.inr hk

/-- A write to the RAM is noticed as one to the screen when it should be: one that hits a flag does
not go through a mirror, a word at an odd address of the dynamic heap meets a screen at an even
address, and flags behind the RAM are not checked for an empty screen. -/
structure WriteSound (c : RamBanks) (m : Screen) (w : Write) : Prop where
  mirror : (c.put m.bank w).isScreenBuffer m.metaMemory (c.put m.bank w).metaOffset = true →
    (writeAddress w).toNat < c.size.bytes
  oddWord : c.OddHeapWord w → m.lcdStartAddr.toNat % 2 = 0
  last : (c.put m.bank w).metaOffset + checkedBytes w ≤ c.size.bytes ∨ m.size ≠ 0

instance (c : RamBanks) (w : Write) : Decidable (c.OddHeapWord w) :=
  match w with
  | .long _ _ => inferInstanceAs (Decidable False)
  | .word _ _ => inferInstanceAs (Decidable (_ ∧ _))
  | .byte _ _ => inferInstanceAs (Decidable False)

instance (c : RamBanks) (m : Screen) (w : Write) : Decidable (WriteSound c m w) :=
  decidable_of_iff (((c.put m.bank w).isScreenBuffer m.metaMemory (c.put m.bank w).metaOffset = true →
    (writeAddress w).toNat < c.size.bytes) ∧ (c.OddHeapWord w → m.lcdStartAddr.toNat % 2 = 0) ∧
    ((c.put m.bank w).metaOffset + checkedBytes w ≤ c.size.bytes ∨ m.size ≠ 0))
    ⟨fun h => ⟨h.1, h.2.1, h.2.2⟩, fun h => ⟨h.mirror, h.oddWord, h.last⟩⟩

/-- The two bytes of a word are in the same line of a screen at an even address. -/
theorem pair_line {s a a' : ℕ} (heven : s % 2 = 0) (hpair : a' / 2 = a / 2) (hs : s ≤ a) (n : ℕ) :
    (a' - s) / (n * 2) = (a - s) / (n * 2) := by
  rw [Nat.mul_comm, ← Nat.div_div_eq_div_mul, ← Nat.div_div_eq_div_mul]
  congr 1
  omega

theorem toNat_screenAddress (h : m.lcdStartAddr.toNat + m.size ≤ 2 ^ 32) (hk : k < m.size) :
    (m.lcdStartAddr + BitVec.ofNat 32 k).toNat = m.lcdStartAddr.toNat + k := by
  rw [toNat_add, BitVec.toNat_ofNat]
  omega

theorem readByte_inside (h : m.lcdStartAddr.toNat + m.size < c.size.bytes) (hk : k < m.size) :
    m.readByte c elsewhere (m.lcdStartAddr + BitVec.ofNat 32 k) =
      m.bank.ram ((m.lcdStartAddr.toNat + k) ^^^ 1) := by
  have hbytes := c.size.bytes_lt
  have haddress := toNat_screenAddress (m := m) (by omega) hk
  unfold readByte
  rw [if_pos (served_of_lt (by omega))]
  congr 2
  split
  · exact haddress
  · rw [toNat_and_mask (by omega), haddress]

theorem readByte_behind (h : c.numBanks * 65536 ≤ m.lcdStartAddr.toNat)
    (hend : m.lcdStartAddr.toNat + m.size ≤ 2 ^ 32) (hk : k < m.size) :
    m.readByte c elsewhere (m.lcdStartAddr + BitVec.ofNat 32 k) =
      elsewhere (m.lcdStartAddr + BitVec.ofNat 32 k) := by
  have haddress := toNat_screenAddress hend hk
  unfold readByte
  rw [if_neg (by rw [served_iff]; omega)]

theorem size_even (m : Screen) : m.size % 2 = 0 := by
  rw [size, rowBytes, ← Nat.mul_assoc]
  exact Nat.mul_mod_left _ 2

theorem changed_flagged (h : Tracked c elsewhere m) (hmarked : m.screenMarked = true)
    (hsound : WriteSound c m w) (hk : k < m.size)
    (hne : ({ m with bank := (c.put m.bank w).bank } : Screen).readByte c elsewhere
      (m.lcdStartAddr + BitVec.ofNat 32 k) ≠
        m.readByte c elsewhere (m.lcdStartAddr + BitVec.ofNat 32 k)) :
    ∃ a', a' / 2 = (m.lcdStartAddr.toNat + k) / 2 ∧
      (a' = m.lcdStartAddr.toNat + k ∨ m.lcdStartAddr.toNat % 2 = 0) ∧
      (c.put m.bank w).metaOffset ≤ a' ∧ a' < (c.put m.bank w).metaOffset + checkedBytes w ∧
      (c.put m.bank w).isScreenBuffer m.metaMemory (c.put m.bank w).metaOffset = true := by
  rcases (h.marked hmarked).2 with hempty | hinside | hbehind
  · omega
  · have hread : ({ m with bank := (c.put m.bank w).bank } : Screen).readByte c elsewhere
        (m.lcdStartAddr + BitVec.ofNat 32 k) =
          (c.put m.bank w).bank.ram ((m.lcdStartAddr.toNat + k) ^^^ 1) :=
      readByte_inside (m := { m with bank := (c.put m.bank w).bank }) hinside hk
    rw [readByte_inside hinside hk, hread] at hne
    obtain ⟨a', hpair, hsame, hlow, hhigh⟩ := put_changed hne
    have hsame' := hsame.imp_right hsound.oddWord
    have hcovers : m.Covers a' := by
      have heven := m.size_even
      unfold Covers
      omega
    have hlt : a' < c.size.bytes := lt_trans hcovers.2 hinside
    refine ⟨a', hpair, hsame', hlow, hhigh, (put_flag_iff _).mpr ?_⟩
    refine ⟨a' - (c.put m.bank w).metaOffset, by omega, ?_⟩
    rw [Nat.add_sub_of_le hlow]
    exact (h.bits a' hlt).mpr ⟨hmarked, hcovers⟩
  · have hread : ({ m with bank := (c.put m.bank w).bank } : Screen).readByte c elsewhere
        (m.lcdStartAddr + BitVec.ofNat 32 k) = elsewhere (m.lcdStartAddr + BitVec.ofNat 32 k) :=
      readByte_behind (m := { m with bank := (c.put m.bank w).bank }) hbehind.1 hbehind.2 hk
    rw [readByte_behind hbehind.1 hbehind.2 hk, hread] at hne
    exact absurd rfl hne

theorem size_ne_zero_of_flag (h : Tracked c elsewhere m) (hsound : WriteSound c m w)
    (hflag : (c.put m.bank w).isScreenBuffer m.metaMemory (c.put m.bank w).metaOffset = true) :
    m.size ≠ 0 := by
  rcases hsound.last with hlast | hsize
  · obtain ⟨i, hi, hbit⟩ := (put_flag_iff _).mp hflag
    intro hempty
    exact not_covers_of_empty hempty ((h.bits _ (by omega)).mp hbit).2
  · exact hsize

theorem markRangeDirty_of_ne {s : EmSystemState} (h : s.screenState ≠ .needsFullRefresh)
    (low high : Word) : (s.markRangeDirty low high).screenState = .dirty ∧
      (s.markRangeDirty low high).screenLowWatermark.toNat ≤ low.toNat ∧
      high.toNat ≤ (s.markRangeDirty low high).screenHighWatermark.toNat := by
  unfold EmSystemState.markRangeDirty
  split
  · rename_i hdirty
    refine ⟨hdirty, ?_, ?_⟩
    · dsimp only
      split
      · exact le_rfl
      · rename_i hle
        exact not_lt.mp hle
    · split
      · exact le_rfl
      · rename_i hle
        exact not_lt.mp hle
  · simp
  · grind

theorem markRangeDirty_grows {s : EmSystemState} (h : s.screenState = .dirty) (low high : Word) :
    (s.markRangeDirty low high).screenLowWatermark.toNat ≤ s.screenLowWatermark.toNat ∧
      s.screenHighWatermark.toNat ≤ (s.markRangeDirty low high).screenHighWatermark.toNat := by
  unfold EmSystemState.markRangeDirty
  rw [h]
  dsimp only
  constructor
  all_goals
    split
    · rename_i hlt
      exact le_of_lt hlt
    · exact le_rfl

theorem inLines_of_changed {s rowBytes low high a' : ℕ} (heven : rowBytes % 2 = 0)
    (hpair : a' / 2 = (s + k) / 2) (hsame : a' = s + k ∨ s % 2 = 0) (hlow : low ≤ a')
    (hhigh : a' ≤ high) : InLines s rowBytes low high k := by
  have hs : s ≤ a' := by omega
  have hline : (a' - s) / rowBytes = k / rowBytes := by
    rcases hsame with rfl | hs2
    · simp
    · have hrow : rowBytes = rowBytes / 2 * 2 := by omega
      rw [hrow, pair_line hs2 hpair (Nat.le_add_right s k), Nat.add_sub_cancel_left]
  refine ⟨hs.trans hhigh, ?_, ?_⟩
  all_goals
    rw [← hline]
    apply Nat.div_le_div_right
    omega

theorem ramWrite_tracked (h : Tracked c elsewhere m)
    (hsound : c.served (writeAddress w) = true → m.system.screenState ≠ .needsFullRefresh →
      WriteSound c m w) : Tracked c elsewhere (m.ramWrite c w) := by
  unfold ramWrite
  split
  · rename_i hserved
    dsimp only
    by_cases hfull : m.system.screenState = .needsFullRefresh
    · have hsystem (flag : Bool) : ((if flag then
          m.system.markRangeDirty (c.put m.bank w).low (c.put m.bank w).high else m.system) :
            EmSystemState).screenState = .needsFullRefresh := by
        simp [EmSystemState.markRangeDirty, hfull]
      refine ⟨h.marked, h.scheduled, h.bits, h.metaLog, h.frameLog, ?_, ?_, ?_, ?_⟩
      · intro hne
        exact absurd (hsystem _) hne
      · intro hdirty
        have hboth := (hsystem _).symm.trans hdirty
        cases hboth
      · intro hne
        exact absurd (hsystem _) hne
      · intro hne
        exact absurd (hsystem _) hne
    have hs := hsound hserved hfull
    have hmarked := h.settled hfull
    by_cases hflag : (c.put m.bank w).isScreenBuffer m.metaMemory (c.put m.bank w).metaOffset = true
    · rw [if_pos hflag]
      obtain ⟨hstate, hlow, hhigh⟩ :=
        markRangeDirty_of_ne hfull (c.put m.bank w).low (c.put m.bank w).high
      have hsize := size_ne_zero_of_flag h hs hflag
      refine ⟨h.marked, h.scheduled, h.bits, h.metaLog, h.frameLog, fun _ => hmarked,
        fun _ => hsize, fun _ => h.fits hfull, fun _ hdraws k hk => ?_⟩
      by_cases hread : ({ m with bank := (c.put m.bank w).bank } : Screen).readByte c elsewhere
          (m.lcdStartAddr + BitVec.ofNat 32 k) =
            m.readByte c elsewhere (m.lcdStartAddr + BitVec.ofNat 32 k)
      · rcases h.shown hfull hdraws k hk with hshows | hdirty
        · exact Or.inl (hshows.trans hread.symm)
        · have hgrows := markRangeDirty_grows hdirty.1 (c.put m.bank w).low (c.put m.bank w).high
          exact Or.inr ⟨hstate, hdirty.2.mono hgrows.1 hgrows.2⟩
      · obtain ⟨a', hpair, hsame, hfirst, hlast, -⟩ := changed_flagged h hmarked hs hk hread
        have hrange := put_range (b := m.bank) (hs.mirror hflag)
        have hlines : InLines m.lcdStartAddr.toNat m.rowBytes (c.put m.bank w).low.toNat
            (c.put m.bank w).high.toNat k :=
          inLines_of_changed (Nat.mul_mod_left _ 2) hpair hsame (by omega) (by omega)
        exact Or.inr ⟨hstate, hlines.mono hlow hhigh⟩
    · rw [if_neg hflag]
      refine ⟨h.marked, h.scheduled, h.bits, h.metaLog, h.frameLog, h.settled, h.dirty, h.fits,
        fun _ hdraws k hk => ?_⟩
      have hread : ({ m with bank := (c.put m.bank w).bank } : Screen).readByte c elsewhere
          (m.lcdStartAddr + BitVec.ofNat 32 k) =
            m.readByte c elsewhere (m.lcdStartAddr + BitVec.ofNat 32 k) := by
        by_contra hne
        obtain ⟨a', -, -, -, -, hhit⟩ := changed_flagged h hmarked hs hk hne
        exact hflag hhit
      apply (h.shown hfull hdraws k hk).imp_left
      intro hshows
      exact hshows.trans hread.symm
  · exact h

end Screen

end Cloudpilot.Hardware.ScreenTracking
