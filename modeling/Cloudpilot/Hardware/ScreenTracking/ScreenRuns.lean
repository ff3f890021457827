import Cloudpilot.Hardware.ScreenTracking.FrameFetch
import Cloudpilot.Library.Runs

/-! # What is shown over whole runs

Writes to the RAM and to the LCD registers, and fetches of frames, in any order.
-/
namespace Cloudpilot.Hardware.ScreenTracking
open EmBankSRAM

variable {c : RamBanks} {elsewhere : Word → Byte} {m m' : Screen} {event : Event}
  {events : List Event}

namespace Screen

structure SameScreen (m m' : Screen) : Prop where
  lcdStartAddr : m'.lcdStartAddr = m.lcdStartAddr
  lcdPageWidth : m'.lcdPageWidth = m.lcdPageWidth
  lcdScreenHeight : m'.lcdScreenHeight = m.lcdScreenHeight

instance (m m' : Screen) : Decidable (SameScreen m m') :=
  decidable_of_iff (m'.lcdStartAddr = m.lcdStartAddr ∧ m'.lcdPageWidth = m.lcdPageWidth ∧
    m'.lcdScreenHeight = m.lcdScreenHeight)
    ⟨fun h => ⟨h.1, h.2.1, h.2.2⟩, fun h => ⟨h.lcdStartAddr, h.lcdPageWidth, h.lcdScreenHeight⟩⟩

theorem SameScreen.size (h : SameScreen m m') : m'.size = m.size := by
  rw [Screen.size, rowBytes, h.lcdPageWidth, h.lcdScreenHeight, Screen.size, rowBytes]

theorem SameScreen.covers (h : SameScreen m m') (k : ℕ) : m'.Covers k ↔ m.Covers k := by
  rw [Covers, h.lcdStartAddr, h.size, Covers]

theorem SameScreen.trackable (h : SameScreen m m') (ht : m.Trackable c) : m'.Trackable c := by
  rwa [Trackable, h.lcdStartAddr, h.size]

/-- A write that changes the start address, the page width, or the height while the screen is
marked starts at the first byte of one of these registers or of the width. -/
def RegisterSound (m : Screen) (offset : ℕ) (size : AccessSize) (value : Word) : Prop :=
  let offset := if size = .byte then offset else offset / 2 * 2
  lcdRegister offset = true → m.screenMarked = true →
    offset ∈ [0, 5, 8, 10] ∨ SameScreen m (m.stdWrite offset size value)

instance (m : Screen) (offset : ℕ) (size : AccessSize) (value : Word) :
    Decidable (m.RegisterSound offset size value) := inferInstanceAs (Decidable (_ → _ → _ ∨ _))

/-- No flag is set. -/
structure Unmarked (c : RamBanks) (m : Screen) : Prop where
  screenMarked : m.screenMarked = false
  scheduled : m.markScreenScheduled = true
  bits : ∀ k < c.size.bytes, ¬ m.metaMemory.screenBit k
  metaLog : ∀ k ∈ m.metaMemory.log, k < c.size.bytes
  frameLog : ∀ k ∈ m.frame.log, k < m.frame.bufferSize

theorem Unmarked.tracked (h : Unmarked c m) (hfull : m.system.screenState = .needsFullRefresh) :
    Tracked c elsewhere m where
  marked hmarked := absurd hmarked (by rw [h.screenMarked]; exact Bool.false_ne_true)
  scheduled _ := h.scheduled
  bits k hk := by simp [h.bits k hk, h.screenMarked]
  metaLog := h.metaLog
  frameLog := h.frameLog
  settled hne := absurd hfull hne
  dirty hdirty := by
    rw [hfull] at hdirty
    cases hdirty
  fits hne := absurd hfull hne
  shown hne := absurd hfull hne

theorem unmarkScreen_unmarked (h : Tracked c elsewhere m) : Unmarked c (m.unmarkScreen c) := by
  unfold unmarkScreen
  by_cases hmarked : m.screenMarked = true
  · rw [if_neg (not_not.mpr hmarked)]
    have htrackable := (h.marked hmarked).2
    refine ⟨rfl, rfl, fun k hk => ?_, fun k hk => ?_, h.frameLog⟩
    · rw [unmarkScreen_bits htrackable hk, h.bits k hk]
      tauto
    · rcases unmarkScreen_log htrackable hk with hlt | hlog
      · exact hlt
      · exact h.metaLog k hlog
  · rw [if_pos hmarked]
    rw [Bool.not_eq_true] at hmarked
    refine ⟨hmarked, h.scheduled hmarked, fun k hk => ?_, h.metaLog, h.frameLog⟩
    rw [h.bits k hk, hmarked]
    simp

theorem stdWrite_tracked (h : Tracked c elsewhere m) {offset : ℕ} {size : AccessSize} {value : Word}
    (hsame : m.screenMarked = true → SameScreen m (m.stdWrite offset size value)) :
    Tracked c elsewhere { m.stdWrite offset size value with
      system := (m.stdWrite offset size value).system.markScreenDirty } := by
  refine ⟨fun hmarked => ?_, h.scheduled, fun k hk => ?_, h.metaLog, h.frameLog,
    fun hne => absurd rfl hne, nofun, fun hne => absurd rfl hne, fun hne => absurd rfl hne⟩
  · exact ⟨(h.marked hmarked).1, (hsame hmarked).trackable (h.marked hmarked).2⟩
  · apply (h.bits k hk).trans
    apply and_congr_right
    intro hmarked
    exact ((hsame hmarked).covers k).symm

theorem Unmarked.stdWrite (h : Unmarked c m) (offset : ℕ) (size : AccessSize) (value : Word) :
    Tracked c elsewhere { m.stdWrite offset size value with
      system := (m.stdWrite offset size value).system.markScreenDirty } := by
  apply Unmarked.tracked
  · exact ⟨h.screenMarked, h.scheduled, h.bits, h.metaLog, h.frameLog⟩
  · rfl

theorem registerWrite_tracked (h : Tracked c elsewhere m) {offset : ℕ} {size : AccessSize}
    {value : Word} (hsound : m.RegisterSound offset size value) :
    Tracked c elsewhere (m.registerWrite c offset size value) := by
  unfold registerWrite
  unfold RegisterSound at hsound
  dsimp only at hsound ⊢
  generalize (if size = .byte then offset else offset / 2 * 2) = aligned at hsound ⊢
  split
  · rename_i hregister
    have hunmarked := unmarkScreen_unmarked h
    unfold lcdRegisterWrite
    split
    rename_i m' value' hcase
    split at hcase
    · cases hcase
      exact hunmarked.stdWrite 0 size _
    · cases hcase
      exact hunmarked.stdWrite 5 size _
    · cases hcase
      exact hunmarked.stdWrite 8 size _
    · cases hcase
      exact hunmarked.stdWrite 10 size _
    · rename_i h0 h5 h8 h10
      cases hcase
      apply stdWrite_tracked h
      intro hmarked
      apply (hsound hregister hmarked).resolve_left
      simp only [List.mem_cons, List.not_mem_nil, or_false, not_or]
      exact ⟨h0, h5, h8, h10⟩
  · exact h

theorem markScreenClean_tracked (h : Tracked c elsewhere m) {frame : Frame}
    (hsound : m.markScreenScheduled = true → m.Trackable c)
    (hlog : ∀ k ∈ frame.log, k < frame.bufferSize)
    (hfits : m.Draws → m.size ≤ frame.bufferSize)
    (hshown : m.Draws → ∀ k < m.size,
      frame.buffer k = m.readByte c elsewhere (m.lcdStartAddr + BitVec.ofNat 32 k)) :
    Tracked c elsewhere (({ m with frame := frame } : Screen).markScreenClean c) := by
  unfold markScreenClean markScreen
  by_cases hscheduled : m.markScreenScheduled = true
  · rw [if_neg (not_not.mpr hscheduled)]
    have htrackable := hsound hscheduled
    have hnot : m.screenMarked = false := by
      by_contra hmarked
      rw [Bool.not_eq_false] at hmarked
      rw [(h.marked hmarked).1] at hscheduled
      cases hscheduled
    refine ⟨fun _ => ⟨rfl, htrackable⟩, nofun, fun k hk => ?_, fun k hk => ?_, hlog, fun _ => rfl,
      nofun, fun _ => hfits, fun _ hdraws k hk => Or.inl (hshown hdraws k hk)⟩
    · have hmark := markScreen_bits htrackable hk
      have hclear : ¬ m.metaMemory.screenBit k := by
        rw [h.bits k hk, hnot]
        simp
      exact ⟨fun hbit => ⟨rfl, (hmark.mp hbit).resolve_left hclear⟩,
        fun hcovers => hmark.mpr (Or.inr hcovers.2)⟩
    · rcases markScreen_log htrackable hk with hlt | hmem
      · exact hlt
      · exact h.metaLog k hmem
  · rw [if_pos hscheduled]
    have hmarked : m.screenMarked = true := by
      by_contra hnot
      rw [Bool.not_eq_true] at hnot
      exact hscheduled (h.scheduled hnot)
    exact ⟨h.marked, h.scheduled, h.bits, h.metaLog, hlog, fun _ => hmarked, nofun, fun _ => hfits,
      fun _ hdraws k hk => Or.inl (hshown hdraws k hk)⟩

theorem markScreenClean_frame (c : RamBanks) (m : Screen) : (m.markScreenClean c).frame = m.frame := by
  unfold markScreenClean markScreen
  split <;> rfl

theorem fetched_eq_full (h : Tracked c elsewhere m) {fullRefresh : Bool}
    (hreturned : (m.copyLCDFrame c elsewhere fullRefresh).1 = .returned true) :
    (m.copyLCDFrame c elsewhere fullRefresh).2.frame.buffer =
      (m.copyLCDFrame c elsewhere true).2.frame.buffer := by
  have hcopied := copyLCDFrame_copied h fullRefresh
  have hfull := copyLCDFrame_copied h true
  by_cases hdraws : m.Draws
  · have hfits := hcopied.fits true hreturned hdraws
    have hreturns := hfull.returns hdraws hfits
    funext k
    by_cases hk : k < m.size
    · rw [hcopied.shown true hreturned hdraws k hk, hfull.shown true hreturns hdraws k hk]
    · rw [hcopied.rest k (not_lt.mp hk), hfull.rest k (not_lt.mp hk)]
  · rw [hcopied.undrawn hdraws, hfull.undrawn hdraws]

/-- The flags that writes check are those of the screen: registers are written so that the screen
is unmarked, a screen is marked only where it can be tracked, and writes to the RAM are noticed. -/
def Sound (c : RamBanks) (m : Screen) : Event → Prop
  | .ramWrite w => c.served (writeAddress w) = true →
      m.system.screenState ≠ .needsFullRefresh → WriteSound c m w
  | .registerWrite offset size value => m.RegisterSound offset size value
  | .fetch _ => m.markScreenScheduled = true → m.Trackable c

instance (c : RamBanks) (m : Screen) (event : Event) : Decidable (m.Sound c event) :=
  match event with
  | .ramWrite _ => inferInstanceAs (Decidable (_ → _ → _))
  | .registerWrite offset size value => inferInstanceAs (Decidable (m.RegisterSound offset size value))
  | .fetch _ => inferInstanceAs (Decidable (_ → _))

def AllSound (c : RamBanks) (elsewhere : Word → Byte) : Screen → List Event → Prop
  | _, [] => True
  | m, event :: events =>
    m.Sound c event ∧
      match m.next c elsewhere event with
      | some m' => AllSound c elsewhere m' events
      | none => True

theorem AllSound.rest (h : AllSound c elsewhere m (event :: events))
    (hnext : m.next c elsewhere event = some m') : AllSound c elsewhere m' events := by
  have hrest := h.2
  rwa [hnext] at hrest

def decideAllSound (c : RamBanks) (elsewhere : Word → Byte) :
    (m : Screen) → (events : List Event) → Decidable (AllSound c elsewhere m events)
  | _, [] => isTrue trivial
  | m, event :: events =>
    haveI : Decidable (match m.next c elsewhere event with
        | some m' => AllSound c elsewhere m' events
        | none => True) :=
      match m.next c elsewhere event with
      | some m' => decideAllSound c elsewhere m' events
      | none => isTrue trivial
    inferInstanceAs (Decidable (_ ∧ _))

instance (c : RamBanks) (elsewhere : Word → Byte) (m : Screen) (events : List Event) :
    Decidable (AllSound c elsewhere m events) := decideAllSound c elsewhere m events

/-- What one event keeps and shows. -/
structure StepShown (c : RamBanks) (elsewhere : Word → Byte) (m : Screen) (event : Event)
    (result : Fetched × Screen) : Prop where
  noDivision : result.1 ≠ .divisionByZero
  metaLog : ∀ k ∈ result.2.metaMemory.log, k < c.size.bytes
  frameLog : ∀ k ∈ result.2.frame.log, k < result.2.frame.bufferSize
  buffer : ∀ fullRefresh, event = .fetch fullRefresh → result.1 = .returned true →
    result.2.frame.buffer = (m.copyLCDFrame c elsewhere true).2.frame.buffer
  tracked : ∀ value, result.1 = .returned value → Tracked c elsewhere result.2

theorem StepShown.of_tracked (h : Tracked c elsewhere m') (value : Bool)
    (hevent : ∀ fullRefresh, event ≠ .fetch fullRefresh) :
    StepShown c elsewhere m event (.returned value, m') :=
  ⟨nofun, h.metaLog, h.frameLog, fun fullRefresh heq => absurd heq (hevent fullRefresh),
    fun _ _ => h⟩

theorem fetch_shown (h : Tracked c elsewhere m) {fullRefresh : Bool}
    (hsound : m.markScreenScheduled = true → m.Trackable c) :
    StepShown c elsewhere m (.fetch fullRefresh) (m.step c elsewhere (.fetch fullRefresh)) := by
  have hcopied := copyLCDFrame_copied h fullRefresh
  have hfull : (m.copyLCDFrame c elsewhere fullRefresh).1 = .returned true →
      (m.copyLCDFrame c elsewhere fullRefresh).2.frame.buffer =
        (m.copyLCDFrame c elsewhere true).2.frame.buffer := fetched_eq_full h
  obtain ⟨frame, hscreen, hsize⟩ := hcopied.screen
  have hlog := hcopied.frameLog
  unfold step
  dsimp only
  rcases hresult : m.copyLCDFrame c elsewhere fullRefresh with ⟨fetched, m'⟩
  rw [hresult] at hcopied hfull hscreen hlog
  subst hscreen
  rw [← hsize] at hlog
  cases fetched with
  | returned value =>
    have htracked : Tracked c elsewhere (({ m with frame := frame } : Screen).markScreenClean c) := by
      apply markScreenClean_tracked h hsound hlog
      · intro hdraws
        rw [hsize]
        exact hcopied.fits value rfl hdraws
      · intro hdraws
        exact hcopied.shown value rfl hdraws
    refine ⟨nofun, htracked.metaLog, htracked.frameLog, fun _ _ hreturned => ?_, fun _ _ => htracked⟩
    rw [markScreenClean_frame]
    exact hfull hreturned
  | assertFailed => exact ⟨nofun, h.metaLog, hlog, nofun, nofun⟩
  | divisionByZero => exact absurd rfl hcopied.noDivision

theorem step_shown (h : Tracked c elsewhere m) (hsound : m.Sound c event) :
    StepShown c elsewhere m event (m.step c elsewhere event) := by
  cases event with
  | ramWrite w => exact StepShown.of_tracked (ramWrite_tracked h hsound) true nofun
  | registerWrite offset size value =>
    exact StepShown.of_tracked (registerWrite_tracked h hsound) true nofun
  | fetch fullRefresh => exact fetch_shown h hsound

theorem next_tracked (h : Tracked c elsewhere m) (hsound : m.Sound c event)
    (hnext : m.next c elsewhere event = some m') : Tracked c elsewhere m' := by
  have hstep := step_shown h hsound
  unfold next at hnext
  split at hnext
  · rename_i value m'' hresult
    cases hnext
    rw [hresult] at hstep
    exact hstep.tracked value rfl
  · cases hnext

theorem run_shown (h : Tracked c elsewhere m)
    (hall : AllSound c elsewhere m (events ++ [event])) (hrun : m.run c elsewhere events = some m') :
    StepShown c elsewhere m' event (m'.step c elsewhere event) := by
  induction events generalizing m with
  | nil =>
    cases hrun
    exact step_shown h hall.1
  | cons first events ih =>
    obtain ⟨m₁, hfirst, hrest⟩ := Library.PartialRun.foldlM_cons_eq_some.mp hrun
    exact ih (next_tracked h hall.1 hfirst) (hall.rest hfirst) hrest

theorem Initial.tracked (h : m.Initial c) : Tracked c elsewhere m := by
  apply Unmarked.tracked
  · refine ⟨h.notMarked, h.scheduled, fun k hk => ?_, fun k hk => ?_, fun k hk => ?_⟩
    · rw [MetaMemory.screenBit, h.unmarked k hk]
      decide
    · grind [h.metaLog]
    · grind [h.frameLog]
  · exact h.screenState

/-- A frame that was fetched is the one that a full refresh would have produced, nothing is divided
by zero, and no byte outside of the buffer and of the meta memory of the RAM is written. -/
theorem fetches_shown (c : RamBanks) (elsewhere : Word → Byte) {m m' : Screen} {events : List Event}
    {event : Event} (hinitial : m.Initial c)
    (hall : AllSound c elsewhere m (events ++ [event]))
    (hrun : m.run c elsewhere events = some m') :
    let result := m'.step c elsewhere event
    result.1 ≠ .divisionByZero ∧ (∀ k ∈ result.2.metaMemory.log, k < c.size.bytes) ∧
      (∀ k ∈ result.2.frame.log, k < result.2.frame.bufferSize) ∧
      ∀ fullRefresh, event = .fetch fullRefresh → result.1 = .returned true →
        result.2.frame.buffer = (m'.copyLCDFrame c elsewhere true).2.frame.buffer := by
  have hshown := run_shown hinitial.tracked hall hrun
  exact ⟨hshown.noDivision, hshown.metaLog, hshown.frameLog, hshown.buffer⟩

end Screen

def smallBanks : RamBanks where
  size := ⟨13, by decide, by decide⟩
  needsSDCTLHack := false
  dynamicHeapSize := 0
  heap_le := Nat.zero_le _

def smallScreen : Screen where
  bank := Bank.start (fun _ => 0) fun _ => 0
  metaMemory := ⟨fun _ => 0, []⟩
  regs := fun _ => 0
  markScreenScheduled := true
  screenMarked := false
  system := ⟨.needsFullRefresh, 0, 0⟩
  frame := ⟨0, 0, 0, 0, 0, true, 0, 0, fun _ => 0, 64, []⟩

theorem smallScreen_initial : smallScreen.Initial smallBanks :=
  ⟨fun _ _ => rfl, rfl, rfl, rfl, rfl, rfl⟩

def smallSetup : List Event :=
  [.registerWrite 0 .long 0x1000, .registerWrite 5 .byte 1, .fetch false]

/-- A byte of the screen is written and fetched. -/
theorem fetches_shown_smallScreen : ∃ m',
    smallScreen.run smallBanks (fun _ => 0) (smallSetup ++ [.ramWrite (.byte 0x1000 0xff)]) = some m' ∧
      let result := m'.step smallBanks (fun _ => 0) (.fetch false)
      result.1 ≠ .divisionByZero ∧ (∀ k ∈ result.2.metaMemory.log, k < smallBanks.size.bytes) ∧
        (∀ k ∈ result.2.frame.log, k < result.2.frame.bufferSize) ∧
        ∀ fullRefresh, Event.fetch false = .fetch fullRefresh → result.1 = .returned true →
          result.2.frame.buffer = (m'.copyLCDFrame smallBanks (fun _ => 0) true).2.frame.buffer := by
  have hsome : (smallScreen.run smallBanks (fun _ => 0)
      (smallSetup ++ [.ramWrite (.byte 0x1000 0xff)])).isSome = true := by decide +kernel
  obtain ⟨m', hrun⟩ := Option.isSome_iff_exists.mp hsome
  refine ⟨m', hrun, Screen.fetches_shown smallBanks (fun _ => 0) smallScreen_initial ?_ hrun⟩
  decide +kernel

def staleEvents : List Event :=
  smallSetup ++ [.registerWrite 2 .byte 0x18, .fetch false, .ramWrite (.byte 0x1800 0xff)]

theorem stale_fetch : ((smallScreen.run smallBanks (fun _ => 0) staleEvents).map fun m =>
    ((m.step smallBanks (fun _ => 0) (.fetch false)).1,
      (m.step smallBanks (fun _ => 0) (.fetch false)).2.frame.buffer 0,
      (m.copyLCDFrame smallBanks (fun _ => 0) true).2.frame.buffer 0)) =
        some (.returned true, 0, 0xff) := by
  decide +kernel

/-- A byte of the screen is written, and the fetched frame does not have it. -/
theorem not_shown_staleEvents : smallScreen.Initial smallBanks ∧ ∃ m',
    smallScreen.run smallBanks (fun _ => 0) staleEvents = some m' ∧
      let result := m'.step smallBanks (fun _ => 0) (.fetch false)
      result.1 = .returned true ∧
        result.2.frame.buffer ≠ (m'.copyLCDFrame smallBanks (fun _ => 0) true).2.frame.buffer := by
  obtain ⟨m', hrun, hfetch⟩ := Option.map_eq_some_iff.mp stale_fetch
  refine ⟨smallScreen_initial, m', hrun, congrArg Prod.fst hfetch, fun hsame => ?_⟩
  have hbytes := congrArg Prod.snd hfetch
  rw [Prod.mk.injEq, congrFun hsame 0] at hbytes
  rw [hbytes.2] at hbytes
  exact absurd hbytes.1 (by decide)

end Cloudpilot.Hardware.ScreenTracking
