import Cloudpilot.Hardware.ScreenTracking.Tracking

/-! # Fetching a frame

Either all lines are copied, or those between the watermarks, or none. In each case the buffer
agrees with the memory afterwards.
-/
namespace Cloudpilot.Hardware.ScreenTracking
open EmBankSRAM

variable {c : RamBanks} {elsewhere : Word → Byte} {m m' : Screen} {k : ℕ}

namespace Screen

theorem toNat_lines (m : Screen) : m.metrics.lines.toNat = m.lcdScreenHeight.toNat + 1 := by
  unfold metrics
  bv_omega

theorem toNat_bytesPerLine (m : Screen) : m.metrics.bytesPerLine.toNat = m.rowBytes := by
  unfold metrics rowBytes
  bv_omega

theorem toNat_maxLine (m : Screen) : (m.metrics.lines - 1).toNat = m.lcdScreenHeight.toNat := by
  have hlines := m.toNat_lines
  bv_omega

theorem line_mul_le {line : ℕ} (h : line ≤ m.lcdScreenHeight.toNat + 1) :
    line * m.rowBytes ≤ m.size := Nat.mul_le_mul_right _ h

theorem line_le (hk : k < m.size) : k / m.rowBytes ≤ m.lcdScreenHeight.toNat := by
  have hrow : 0 < m.rowBytes := by
    rcases Nat.eq_zero_or_pos m.rowBytes with hzero | hpos
    · rw [size, hzero, Nat.mul_zero] at hk
      omega
    · exact hpos
  rwa [← Nat.lt_succ_iff, Nat.div_lt_iff_lt_mul hrow]

theorem line_mul_bytesPerLine (m : Screen) (line : Word) :
    line * m.metrics.bytesPerLine = BitVec.ofNat 32 (line.toNat * m.rowBytes) := by
  apply BitVec.eq_of_toNat_eq
  rw [BitVec.toNat_mul, toNat_bytesPerLine, BitVec.toNat_ofNat]

def withLines (m : Screen) (margin : Byte) (first last : Word) : Frame :=
  { m.metrics with margin := margin, firstDirtyLine := first, lastDirtyLine := last }

theorem fetchLines_eq {margin : Byte} {first last : Word} (hle : first.toNat ≤ last.toNat)
    (hlast : last.toNat ≤ m.lcdScreenHeight.toNat) :
    fetchLines c elsewhere { m with frame := m.withLines margin first last } m.lcdStartAddr =
      if m.frame.bufferSize ≥ (last.toNat + 1 - first.toNat) * m.rowBytes then
        (.returned true, ({ m with frame := m.withLines margin first last } : Screen).memcpy c elsewhere
          (first.toNat * m.rowBytes)
          (m.lcdStartAddr + BitVec.ofNat 32 (first.toNat * m.rowBytes))
          ((last.toNat + 1 - first.toNat) * m.rowBytes))
      else (.assertFailed, { m with frame := m.withLines margin first last }) := by
  have hsize := m.size_le
  have hnext : (last + 1).toNat = last.toNat + 1 := by
    bv_omega
  have hfirst := m.line_mul_bytesPerLine first
  have hlastLine := m.line_mul_bytesPerLine (last + 1)
  have hlastLe : (last.toNat + 1) * m.rowBytes ≤ m.size := line_mul_le (by omega)
  have hmul : first.toNat * m.rowBytes ≤ (last.toNat + 1) * m.rowBytes :=
    Nat.mul_le_mul_right _ (by omega)
  have hlen : (m.lcdStartAddr + BitVec.ofNat 32 ((last.toNat + 1) * m.rowBytes) -
      (m.lcdStartAddr + BitVec.ofNat 32 (first.toNat * m.rowBytes))).toNat =
        (last.toNat + 1 - first.toNat) * m.rowBytes := by
    rw [Nat.sub_mul]
    bv_omega
  have hdst : (BitVec.ofNat 32 (first.toNat * m.rowBytes)).toNat = first.toNat * m.rowBytes := by
    rw [BitVec.toNat_ofNat]
    omega
  unfold fetchLines
  have hframe : (m.withLines margin first last).bytesPerLine = m.metrics.bytesPerLine := rfl
  have hfirst' : (m.withLines margin first last).firstDirtyLine = first := rfl
  have hlast' : (m.withLines margin first last).lastDirtyLine = last := rfl
  have hbuffer : (m.withLines margin first last).bufferSize = m.frame.bufferSize := rfl
  dsimp only
  rw [hframe, hfirst', hlast', hbuffer, hfirst, hlastLine, hnext, hlen, hdst]

/-- What is known of a frame that has been fetched. -/
structure Copied (c : RamBanks) (elsewhere : Word → Byte) (m : Screen)
    (fetched : Fetched × Screen) : Prop where
  noDivision : fetched.1 ≠ .divisionByZero
  screen : ∃ frame, fetched.2 = { m with frame := frame } ∧ frame.bufferSize = m.frame.bufferSize
  frameLog : ∀ k ∈ fetched.2.frame.log, k < m.frame.bufferSize
  fits : ∀ v, fetched.1 = .returned v → m.Draws → m.size ≤ m.frame.bufferSize
  returns : m.Draws → m.size ≤ m.frame.bufferSize → fetched.1 = .returned true
  shown : ∀ v, fetched.1 = .returned v → m.Draws → ∀ k < m.size,
    fetched.2.frame.buffer k = m.readByte c elsewhere (m.lcdStartAddr + BitVec.ofNat 32 k)
  rest : ∀ k, m.size ≤ k → fetched.2.frame.buffer k = m.frame.buffer k
  undrawn : ¬ m.Draws → fetched.2.frame.buffer = m.frame.buffer

theorem copied_of_unchanged (h : Tracked c elsewhere m) {value : Bool} {frame : Frame}
    (hbuffer : frame.buffer = m.frame.buffer) (hsize : frame.bufferSize = m.frame.bufferSize)
    (hlog : frame.log = m.frame.log) (hvalue : m.Draws → value = true)
    (hfits : m.Draws → m.size ≤ m.frame.bufferSize)
    (hshown : m.Draws → ∀ k < m.size, m.Shows c elsewhere k) :
    Copied c elsewhere m (.returned value, { m with frame := frame }) := by
  refine ⟨nofun, ⟨frame, rfl, hsize⟩, ?_, fun _ _ => hfits, ?_, ?_, ?_, ?_⟩
  · intro k hk
    exact h.frameLog k (hlog ▸ hk)
  · grind
  · intro _ _ hdraws k hk
    exact (congrFun hbuffer k).trans (hshown hdraws k hk)
  · grind
  · grind

theorem copied_of_lines (h : Tracked c elsewhere m) (hdraws : m.Draws) {margin : Byte}
    {first last : Word} (hle : first.toNat ≤ last.toNat)
    (hlast : last.toNat ≤ m.lcdScreenHeight.toNat)
    (hfits : (first.toNat = 0 ∧ last.toNat = m.lcdScreenHeight.toNat) ∨ m.size ≤ m.frame.bufferSize)
    (hshown : ∀ k < m.size, m.Shows c elsewhere k ∨
      (first.toNat ≤ k / m.rowBytes ∧ k / m.rowBytes ≤ last.toNat)) :
    Copied c elsewhere m
      (fetchLines c elsewhere { m with frame := m.withLines margin first last } m.lcdStartAddr) := by
  have hlastLe : (last.toNat + 1) * m.rowBytes ≤ m.size := line_mul_le (by omega)
  have hmul : first.toNat * m.rowBytes ≤ (last.toNat + 1) * m.rowBytes :=
    Nat.mul_le_mul_right _ (by omega)
  have hsum : first.toNat * m.rowBytes + (last.toNat + 1 - first.toNat) * m.rowBytes =
      (last.toNat + 1) * m.rowBytes := by
    rw [Nat.sub_mul]
    omega
  have hall : first.toNat = 0 ∧ last.toNat = m.lcdScreenHeight.toNat →
      (last.toNat + 1 - first.toNat) * m.rowBytes = m.size := by
    rintro ⟨hzero, hheight⟩
    rw [hzero, hheight]
    rfl
  rw [fetchLines_eq hle hlast]
  by_cases hassert : m.frame.bufferSize ≥ (last.toNat + 1 - first.toNat) * m.rowBytes
  · rw [if_pos hassert]
    have hsize : m.size ≤ m.frame.bufferSize := by omega
    refine ⟨by rintro ⟨⟩, ⟨_, rfl, rfl⟩, ?_, fun _ _ _ => hsize, fun _ _ => rfl, ?_, ?_,
      fun hnot => absurd hdraws hnot⟩
    · intro k hk
      rcases List.mem_append.mp hk with hk | hk
      · rw [List.mem_range'_1] at hk
        omega
      · exact h.frameLog k hk
    · intro _ _ _ k hk
      unfold memcpy
      dsimp only
      split
      · rename_i hrange
        have haddress : m.lcdStartAddr + BitVec.ofNat 32 (first.toNat * m.rowBytes) +
            BitVec.ofNat 32 (k - first.toNat * m.rowBytes) = m.lcdStartAddr + BitVec.ofNat 32 k := by
          rw [BitVec.add_assoc, ← BitVec.ofNat_add, Nat.add_sub_of_le hrange.1]
        rw [haddress]
        rfl
      · rename_i hrange
        rcases hshown k hk with hshows | hline
        · exact hshows
        · have hlow : first.toNat * m.rowBytes ≤ k :=
            (Nat.mul_le_mul_right _ hline.1).trans (Nat.div_mul_le_self k _)
          have hhigh : k < (last.toNat + 1) * m.rowBytes := by
            have hpos : 0 < m.rowBytes := by
              rcases Nat.eq_zero_or_pos m.rowBytes with hzero | hpos
              · rw [size, hzero, Nat.mul_zero] at hk
                omega
              · exact hpos
            rw [← Nat.div_lt_iff_lt_mul hpos]
            omega
          omega
    · intro k hk
      unfold memcpy
      dsimp only
      rw [if_neg (by omega)]
      rfl
  · rw [if_neg hassert]
    refine ⟨by rintro ⟨⟩, ⟨_, rfl, rfl⟩, h.frameLog, by rintro _ ⟨⟩, ?_,
      by rintro _ ⟨⟩, fun _ _ => rfl, fun _ => rfl⟩
    omega

theorem copied_of_undrawn (h : Tracked c elsewhere m) (hundrawn : ¬ m.Draws) {frame : Frame}
    (hbuffer : frame.buffer = m.frame.buffer) (hsize : frame.bufferSize = m.frame.bufferSize)
    (hlog : frame.log = m.frame.log) (value : Bool) :
    Copied c elsewhere m (.returned value, { m with frame := frame }) :=
  copied_of_unchanged h hbuffer hsize hlog (fun hdraws => absurd hdraws hundrawn)
    (fun hdraws => absurd hdraws hundrawn) fun hdraws => absurd hdraws hundrawn

theorem state_of_not_full (h : ¬ m.system.screenRequiresFullRefresh = true) :
    m.system.screenState ≠ .needsFullRefresh := by
  intro hstate
  apply h
  rw [EmSystemState.screenRequiresFullRefresh, hstate]
  rfl

theorem watermark_lines (line maxLine : Word) :
    (if maxLine < line then maxLine else line).toNat = min line.toNat maxLine.toNat := by
  split
  · rename_i hlt
    rw [BitVec.lt_def] at hlt
    omega
  · grind [BitVec.lt_def]

theorem copyLCDFrame_copied (h : Tracked c elsewhere m) (fullRefresh : Bool) :
    Copied c elsewhere m (m.copyLCDFrame c elsewhere fullRefresh) := by
  unfold copyLCDFrame
  by_cases hbase : m.lcdStartAddr = 0
  · rw [if_pos hbase]
    apply copied_of_undrawn h fun hdraws => hdraws.1 hbase
    all_goals rfl
  rw [if_neg hbase]
  by_cases hclean : ¬ m.system.isScreenDirty = true ∧ ¬ fullRefresh = true
  · rw [if_pos hclean]
    have hstate : m.system.screenState = .clean := by
      by_contra hne
      exact hclean.1 (decide_eq_true hne)
    have hne : m.system.screenState ≠ .needsFullRefresh := by grind
    have hshown (hdraws : m.Draws) (k : ℕ) (hk : k < m.size) : m.Shows c elsewhere k := by
      apply (h.shown hne hdraws k hk).resolve_right
      rintro ⟨hdirty, -⟩
      rw [hstate] at hdirty
      cases hdirty
    apply copied_of_unchanged h _ _ _ (fun _ => rfl) (h.fits hne) hshown
    all_goals rfl
  rw [if_neg hclean]
  unfold Frame.updateDirtyLines
  rw [if_neg hclean]
  by_cases hfull : m.system.screenRequiresFullRefresh = true ∨
      m.system.screenHighWatermark < m.system.screenLowWatermark ∨ fullRefresh = true
  · rw [if_pos hfull]
    dsimp only
    cases hmask : marginMask m.metrics.bpp with
    | none =>
      apply copied_of_undrawn h fun hdraws => hdraws.2 hmask
      all_goals rfl
    | some mask =>
      have hdraws : m.Draws := ⟨hbase, by rw [hmask]; exact Option.some_ne_none mask⟩
      have hlast := m.toNat_maxLine
      exact copied_of_lines h hdraws (Nat.zero_le _) (le_of_eq hlast) (Or.inl ⟨rfl, hlast⟩)
        fun k hk => Or.inr ⟨Nat.zero_le _, hlast ▸ line_le hk⟩
  rw [if_neg hfull]
  rw [not_or, not_or] at hfull
  have hne := state_of_not_full hfull.1
  have hdirty : m.system.screenState = .dirty := by
    cases hstate : m.system.screenState with
    | clean =>
      refine absurd ⟨?_, hfull.2.2⟩ hclean
      rw [EmSystemState.isScreenDirty, hstate]
      decide
    | dirty => rfl
    | needsFullRefresh => exact absurd hstate hne
  by_cases hbelow : m.system.screenHighWatermark < m.lcdStartAddr
  · rw [if_pos hbelow]
    have hshown (hdraws : m.Draws) (k : ℕ) (hk : k < m.size) : m.Shows c elsewhere k := by
      apply (h.shown hne hdraws k hk).resolve_right
      rintro ⟨-, hlines⟩
      rw [BitVec.lt_def] at hbelow
      exact absurd hlines.1 (by omega)
    apply copied_of_unchanged h _ _ _ (fun _ => rfl) (h.fits hne) hshown
    all_goals rfl
  rw [if_neg hbelow]
  have hrow : m.metrics.bytesPerLine ≠ 0 := by
    intro hzero
    have hnat := m.toNat_bytesPerLine
    rw [hzero] at hnat
    apply h.dirty hdirty
    rw [size, ← hnat]
    exact Nat.mul_zero _
  rw [if_neg hrow]
  dsimp only
  cases hmask : marginMask m.metrics.bpp with
  | none =>
    apply copied_of_undrawn h fun hdraws => hdraws.2 hmask
    all_goals rfl
  | some mask =>
    have hdraws : m.Draws := ⟨hbase, by rw [hmask]; exact Option.some_ne_none mask⟩
    have hlow : (if m.system.screenLowWatermark < m.lcdStartAddr then m.lcdStartAddr
        else m.system.screenLowWatermark).toNat =
          max m.system.screenLowWatermark.toNat m.lcdStartAddr.toNat := by
      split
      · rename_i hlt
        rw [BitVec.lt_def] at hlt
        omega
      · rename_i hle
        rw [BitVec.lt_def] at hle
        omega
    have hsub {x : Word} (hx : m.lcdStartAddr.toNat ≤ x.toNat) :
        ((x - m.lcdStartAddr) / m.metrics.bytesPerLine).toNat =
          (x.toNat - m.lcdStartAddr.toNat) / m.rowBytes := by
      rw [BitVec.toNat_udiv, toNat_bytesPerLine]
      congr 1
      bv_omega
    rw [BitVec.lt_def, not_lt] at hbelow
    have hfirst := watermark_lines (((if m.system.screenLowWatermark < m.lcdStartAddr then
      m.lcdStartAddr else m.system.screenLowWatermark) - m.lcdStartAddr) / m.metrics.bytesPerLine)
      (m.metrics.lines - 1)
    have hlast := watermark_lines
      ((m.system.screenHighWatermark - m.lcdStartAddr) / m.metrics.bytesPerLine) (m.metrics.lines - 1)
    rw [hsub (by omega), hlow, toNat_maxLine] at hfirst
    rw [hsub hbelow, toNat_maxLine] at hlast
    have hordered := hfull.2.1
    rw [BitVec.lt_def, not_lt] at hordered
    have hmono : (max m.system.screenLowWatermark.toNat m.lcdStartAddr.toNat - m.lcdStartAddr.toNat) /
        m.rowBytes ≤ (m.system.screenHighWatermark.toNat - m.lcdStartAddr.toNat) / m.rowBytes :=
      Nat.div_le_div_right (by omega)
    apply copied_of_lines h hdraws
    · omega
    · omega
    · exact Or.inr (h.fits hne hdraws)
    · intro k hk
      apply (h.shown hne hdraws k hk).imp_right
      rintro ⟨-, hlines⟩
      have hline := line_le hk
      rw [hfirst, hlast]
      exact ⟨(min_le_left _ _).trans hlines.2.1, le_min hlines.2.2 hline⟩

end Screen

end Cloudpilot.Hardware.ScreenTracking
