import Cloudpilot.Hardware.MemoryStick.ReadAfterProgram
import Cloudpilot.Library.Runs

/-! # What the stick reports about programming

The flags behind a transfer that hands over a page do not depend on what became of the page:
`ProgramPage` says whether it has stored it, and nobody looks at what it says.
-/

namespace Cloudpilot.Hardware.Stick

open Cloudpilot.Library Cloudpilot.Library.PartialRun Cloudpilot.Common

variable {s s' : MemoryStick} {op : Op} {page : ℕ → Byte}

/-- What happens to a stick: its host drives it, and cards come and go. -/
inductive Event
  | op (op : Op)
  | mount (image : CardImage)
  | remount (image : CardImage)
  | unmount

def Event.step (s : MemoryStick) : Event → Option MemoryStick
  | .op op => Stick.step s op
  | .mount image => Stick.mount s image
  | .remount image => some (Stick.remount s image)
  | .unmount => some (Stick.unmount s)

/-- The page that a transfer hands over for programming, also if no card takes it. -/
def Op.handedOver (s : MemoryStick) : Op → Option (ℕ → Byte)
  | .tpc tpcId dataInCount dataIn =>
    match decodeTpc tpcId with
    | .setCmd =>
      if dataInCount = 1 ∧ decodeCmd (dataIn 0) = .program ∧
          decodeAccess s.accessType = .page ∧ s.pagePending then some s.preparedPage
      else none
    | .writeLongData =>
      if dataInCount = 512 ∧
          (s.currentOperation = .programMulti ∨ s.currentOperation = .programOne) then some dataIn
      else none
    | _ => none
  | _ => none

def MemoryStick.intFlags (s : MemoryStick) : Byte := s.reg intFlagsOffset

/-- `COMMAND_OK` or `READY_FOR_TRANSFER` without `ERR`. -/
def Acknowledges (s : MemoryStick) : Prop :=
  s.intFlags &&& (statusCommandOk ||| statusReadyForTransfer) ≠ 0 ∧ s.intFlags &&& statusErr = 0

/-- A card is mounted and the registers address a page of it. -/
def ValidAddress (s : MemoryStick) : Prop :=
  ∃ image, s.cardImage = some image ∧ s.blockIndex < blocksTotal s ∧ s.page < s.pagesPerBlock ∧
    s.logicalPage < image.blocksTotal

def Written (s s' : MemoryStick) (page : ℕ → Byte) : Prop :=
  ∃ image, s'.cardImage = some image ∧ ∀ i < blockSize,
    image.data (s.logicalPage * blockSize + i) = page i

/-- A page that is acknowledged was addressed at a valid place and has been written there. -/
def Reports (s : MemoryStick) (op : Op) : Prop :=
  ∀ s' page, step s op = some s' → op.handedOver s = some page → Acknowledges s' →
    ValidAddress s ∧ Written s s' page

/-- No page is handed over, or the address is valid, or no card is mounted and nothing has been
acknowledged before. -/
def Reportable (s : MemoryStick) (op : Op) : Prop :=
  op.handedOver s = none ∨ ValidAddress s ∨ s.cardImage = none ∧ ¬ Acknowledges s

/-- A condition on the transfers of a run. -/
def OnOps (P : MemoryStick → Op → Prop) (s : MemoryStick) (event : Event) : Prop :=
  ∀ op, event = .op op → P s op

theorem programmed_of_handedOver (hcard : s.cardImage.isSome) : op.programmed s = op.handedOver s := by
  have hmounted : ¬ s.cardImage.isNone := by simpa [Option.isSome_iff_ne_none] using hcard
  cases op with
  | tpc tpcId dataInCount dataIn =>
    rw [Op.programmed, if_neg hmounted]
    rfl
  | finishRead => rfl
  | reset => rfl

theorem setFlags_intFlags (flags : Byte) : (setFlags s flags).intFlags = flags := by
  have hset : (setReg s intFlagsOffset flags).intFlags = flags := by rfl
  by_cases hflags : flags = 0#8
  · rwa [setFlags, if_neg (not_not.mpr hflags)]
  · rwa [setFlags, if_pos hflags]

theorem acknowledges_commandOk (h : s.intFlags = statusCommandOk) : Acknowledges s := by
  rw [Acknowledges, h]
  decide

theorem acknowledges_readyForTransfer (h : s.intFlags = statusReadyForTransfer) : Acknowledges s := by
  rw [Acknowledges, h]
  decide

theorem nextPage_acknowledges (s : MemoryStick) : Acknowledges (nextPage s) := by
  simp only [nextPage]
  split_ifs
  · exact acknowledges_readyForTransfer (setFlags_intFlags _)
  · apply acknowledges_commandOk
    exact setFlags_intFlags (s := setReg s pageOffset (s.page + 1#8)) statusCommandOk

theorem doCmdProgram_acknowledges (haccess : decodeAccess s.accessType = .page)
    (hpending : s.pagePending = true) : Acknowledges (doCmdProgram s) := by
  rw [doCmdProgram, haccess]
  rw [if_pos hpending]
  exact acknowledges_commandOk (setFlags_intFlags _)

theorem tpcWriteLongData_acknowledges
    (hop : s.currentOperation = .programMulti ∨ s.currentOperation = .programOne) :
    Acknowledges (tpcWriteLongData s 512 page) := by
  rw [tpcWriteLongData, if_neg (by simp)]
  rcases hop with hop | hop
  · rw [hop]
    exact nextPage_acknowledges _
  · rw [hop]
    exact acknowledges_commandOk (setFlags_intFlags _)

theorem step_acknowledges (hcard : s.cardImage.isSome) (hstep : step s op = some s')
    (hpage : op.handedOver s = some page) : Acknowledges s' := by
  cases op with
  | finishRead => cases hpage
  | reset => cases hpage
  | tpc tpcId dataInCount dataIn =>
    cases hstep
    rw [executeTpc_mounted hcard, dispatchTpc]
    rw [Op.handedOver] at hpage
    cases htpc : decodeTpc tpcId with
    | setCmd =>
      simp only [htpc] at hpage ⊢
      split_ifs at hpage with hprogram
      obtain ⟨hcount, hcmd, haccess, hpending⟩ := hprogram
      rw [if_neg (not_not.mpr hcount), doCmd, hcmd]
      exact doCmdProgram_acknowledges haccess hpending
    | writeLongData =>
      simp only [htpc] at hpage ⊢
      split_ifs at hpage with hwrite
      rw [hwrite.1]
      exact tpcWriteLongData_acknowledges hwrite.2
    | _ => simp [htpc] at hpage

theorem written_of_validAddress (h : ValidAddress s) (hstep : step s op = some s')
    (hpage : op.handedOver s = some page) : Written s s' page := by
  obtain ⟨image, hcard, hblock, hvalid, hlogical⟩ := h
  have hprogrammed : op.programmed s = some page :=
    (programmed_of_handedOver (by rw [hcard]; rfl)).trans hpage
  have hstorage := step_storage hstep
  rw [hprogrammed] at hstorage
  have hprogram : (s.storage.program s.blockIndex s.page s.logicalBlock page).cardImage =
      some (image.write page s.logicalPage 1).2 := by
    have hst : s.storage.cardImage = some image := hcard
    rw [Storage.program, hst]
    dsimp only
    rw [if_neg (show ¬ s.blockIndex ≥ s.storage.segments.toNat * 512 from Nat.not_le.mpr hblock),
      if_neg (show ¬ s.page ≥ s.storage.pagesPerBlock from BitVec.not_le.mpr hvalid)]
    exact congrArg Storage.cardImage (if_neg (Nat.not_le.mpr hlogical))
  refine ⟨_, (congrArg Storage.cardImage hstorage).trans hprogram, fun i hi => ?_⟩
  rw [CardImage.write_one hlogical]
  exact writeBlock_data_self hi

theorem step_unmounted (hcard : s.cardImage = none) (hstep : step s op = some s')
    (hpage : op.handedOver s = some page) : s' = beginTpc s := by
  cases op with
  | finishRead => cases hpage
  | reset => cases hpage
  | tpc tpcId dataInCount dataIn =>
    cases hstep
    rw [executeTpc, if_pos (by rw [hcard]; rfl)]

theorem step_of_handedOver (hpage : op.handedOver s = some page) : ∃ s', step s op = some s' := by
  cases op with
  | finishRead => cases hpage
  | reset => cases hpage
  | tpc tpcId dataInCount dataIn => exact ⟨_, rfl⟩

theorem reports_iff : Reports s op ↔ Reportable s op := by
  constructor
  · intro h
    cases hpage : op.handedOver s with
    | none => exact .inl hpage
    | some page =>
      obtain ⟨s', hstep⟩ := step_of_handedOver hpage
      cases hcard : s.cardImage with
      | some image =>
        have hack := step_acknowledges (by rw [hcard]; rfl) hstep hpage
        exact .inr (.inl (h s' page hstep hpage hack).1)
      | none =>
        refine .inr (.inr ⟨hcard, fun hack => ?_⟩)
        have hkept : Acknowledges s' := by
          rwa [step_unmounted hcard hstep hpage]
        obtain ⟨image, hsome, -⟩ := (h s' page hstep hpage hkept).1
        rw [hcard] at hsome
        cases hsome
  · rintro (hnone | hvalid | ⟨hcard, hsilent⟩) s' page hstep hpage hack
    · grind
    · exact ⟨hvalid, written_of_validAddress hvalid hstep hpage⟩
    · rw [step_unmounted hcard hstep hpage] at hack
      exact absurd hack hsilent

theorem onOps_congr {P Q : MemoryStick → Op → Prop} (h : ∀ s op, P s op ↔ Q s op) (event : Event) :
    OnOps P s event ↔ OnOps Q s event := by
  simp [OnOps, h]

/-- In a run from any state, what the transfers report is right if and only if no page is handed
over at an address that is not valid. -/
theorem everyStep_reports_iff (s : MemoryStick) (events : List Event) :
    EveryStep Event.step (OnOps Reports) s events ↔
      EveryStep Event.step (OnOps Reportable) s events :=
  everyStep_congr fun _ event => onOps_congr (fun _ _ => reports_iff) event

/-- A card comes, the host addresses a page in a block that the card does not have and programs it. -/
def lostPage : List Event :=
  .mount smallCard :: (addressOps 512 0x20#8 0#8 0#16).map .op ++
    [.op (.tpc 0x0e#8 1 fun _ => 0x55#8), .op (.tpc 0x0d#8 512 fun _ => 0x11#8)]

theorem not_reports_lostPage : Reachable blankStick ∧
    ¬ EveryStep Event.step (OnOps Reports) blankStick lostPage := by
  refine ⟨.initial rfl rfl, fun h => ?_⟩
  obtain ⟨hcard, hsegments, hppb, hpending, -⟩ := smallStick_fresh
  obtain ⟨s₁, hrun, haddressed, -, hcard₁⟩ := run_addressOps (s := smallStick) (by rw [hcard]; rfl)
    (show 512 < 2 ^ 24 by decide) 0x20#8 0#8 0#16
  have hframe := (show RegisterSetup smallStick s₁ from ⟨_, addressOps_registerOp, hrun⟩).frame
  have hmapped : ((addressOps 512 0x20#8 0#8 0#16).map Event.op).foldlM Event.step smallStick =
      some s₁ := by
    exact hrun
  have hops := (h.2 smallStick mount_smallCard).reached hmapped
  have hreports := (hops.2 (programCmd s₁) rfl).1 _ rfl
  have hprogram := programCmd_page hcard₁ haddressed.access (hframe.pagePending.trans hpending)
  have hblocks : blocksTotal s₁ = 512 := by
    rw [blocksTotal, (storage_fields hframe.storage).2.1, hsegments]
    rfl
  have hcmd : step s₁ (.tpc 0x0e#8 1 fun _ => 0x55#8) = some (programCmd s₁) := rfl
  have hop : (programCmd s₁).currentOperation = .programOne := by
    rw [hprogram, setFlags_currentOperation]
    rfl
  have hhanded : Op.handedOver (programCmd s₁) (.tpc 0x0d#8 512 fun _ => 0x11#8) =
      some fun _ => 0x11#8 := if_pos ⟨rfl, .inr hop⟩
  rcases reports_iff.mp hreports with hnone | ⟨image, -, hblock, -⟩ | ⟨hnone, -⟩
  · rw [hhanded] at hnone
    cases hnone
  · have hindex : (programCmd s₁).blockIndex = 512 := by
      rw [hprogram, setFlags_blockIndex, setOperation_blockIndex, beginTpc_blockIndex,
        haddressed.block]
    have hsame : (programCmd s₁).segments = s₁.segments := (step_layout _ hcmd).1
    have htotal : blocksTotal (programCmd s₁) = 512 := by
      rwa [blocksTotal, hsame]
    omega
  · have hmounted := step_isSome _ hcmd hcard₁
    rw [hnone] at hmounted
    cases hmounted

end Cloudpilot.Hardware.Stick
