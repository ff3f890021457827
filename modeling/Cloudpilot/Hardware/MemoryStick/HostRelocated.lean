import Cloudpilot.Hardware.MemoryStick.HostBounds
import Mathlib.Tactic.Simps.Basic

/-! # States that a guest cannot tell apart

The dirty bits of the block map influence nothing that a guest reads, and neither does the
output buffer of a transfer that is over or whose rest is zero.
-/

namespace Cloudpilot.Hardware.Stick

open Cloudpilot.Library Cloudpilot.Common MemoryStick

@[simps -fullyApplied] def MemoryStick.withDirty (s : MemoryStick) (dirty : ℕ → Byte) : MemoryStick :=
  { s with blockMapDirtyPages := dirty }

section Dirty

variable (s : MemoryStick) (dirty : ℕ → Byte)

@[simp] theorem withDirty_accessType : (s.withDirty dirty).accessType = s.accessType := rfl
@[simp] theorem withDirty_page : (s.withDirty dirty).page = s.page := rfl
@[simp] theorem withDirty_blockIndex : (s.withDirty dirty).blockIndex = s.blockIndex := rfl
@[simp] theorem withDirty_logicalPage : (s.withDirty dirty).logicalPage = s.logicalPage := rfl
@[simp] theorem blocksTotal_withDirty : blocksTotal (s.withDirty dirty) = blocksTotal s := rfl

theorem setOperation_withDirty (operation : Operation) :
    setOperation (s.withDirty dirty) operation = (setOperation s operation).withDirty dirty := rfl

theorem setFlags_withDirty (flags : Byte) :
    setFlags (s.withDirty dirty) flags = (setFlags s flags).withDirty dirty := by
  simp only [setFlags]
  split_ifs <;> rfl

theorem preparePage_withDirty (oobOnly : Bool) : preparePage (s.withDirty dirty) oobOnly =
    ((preparePage s oobOnly).1, (preparePage s oobOnly).2.withDirty dirty) := by
  have hinto : preparePageInto (s.withDirty dirty) s.preparedPage oobOnly =
      (preparePageInto s s.preparedPage oobOnly).map fun r => (r.1.withDirty dirty, r.2) := by
    simp only [preparePageInto, withDirty_cardImage]
    cases s.cardImage with
    | none => rfl
    | some image =>
      by_cases hrange : s.page ≥ s.pagesPerBlock ∨ s.blockIndex ≥ blocksTotal s
      · simp [hrange]
      · by_cases hboot : s.blockIndex = 0 ∨ s.blockIndex = 1
        · simp only [withDirty_page, withDirty_pagesPerBlock, withDirty_blockIndex,
            blocksTotal_withDirty, hrange, hboot, ↓reduceIte]
          rfl
        · simp only [withDirty_page, withDirty_pagesPerBlock, withDirty_blockIndex,
            blocksTotal_withDirty, hrange, hboot, ↓reduceIte]
          by_cases hfree : s.blockMap s.blockIndex = 0xffff#16
          all_goals
            simp only [preparePageMapped, withDirty_blockMap, withDirty_blockIndex, hfree, ↓reduceIte]
            rfl
  simp only [preparePage, withDirty_preparedPage, hinto]
  cases preparePageInto s s.preparedPage oobOnly with
  | none => rfl
  | some result => rfl

theorem programPage_withDirty (data : ℕ → Byte) : ∃ dirty', programPage (s.withDirty dirty) data =
    ((programPage s data).1, (programPage s data).2.withDirty dirty') := by
  simp only [programPage, withDirty_cardImage]
  cases s.cardImage with
  | none => exact ⟨dirty, rfl⟩
  | some image =>
    by_cases hvalid : s.blockIndex ≥ blocksTotal s ∨ s.page ≥ s.pagesPerBlock ∨
        s.logicalPage ≥ image.blocksTotal
    · refine ⟨dirty, ?_⟩
      rcases hvalid with hblock | hpage | hlogical
      · simp [hblock]
      · simp [hpage]
      · simp [withDirty_page, withDirty_pagesPerBlock, withDirty_blockIndex, blocksTotal_withDirty, withDirty_logicalPage, hlogical, ite_self]
    · obtain ⟨hblock, hpage, hlogical⟩ : ¬ s.blockIndex ≥ blocksTotal s ∧
        ¬ s.page ≥ s.pagesPerBlock ∧ ¬ s.logicalPage ≥ image.blocksTotal := by tauto
      by_cases hfirst : s.page = 0#8
      · refine ⟨(storePage (s.withDirty dirty) image data).blockMapDirtyPages, ?_⟩
        simp only [withDirty_page, withDirty_pagesPerBlock, withDirty_blockIndex,
          blocksTotal_withDirty, withDirty_logicalPage, hblock, hpage, hlogical, ↓reduceIte]
        simp only [storePage, withDirty_page, hfirst, ↓reduceIte]
        rfl
      · refine ⟨dirty, ?_⟩
        simp only [withDirty_page, withDirty_pagesPerBlock, withDirty_blockIndex,
          blocksTotal_withDirty, withDirty_logicalPage, hblock, hpage, hlogical, ↓reduceIte]
        simp only [storePage, withDirty_page, hfirst, ↓reduceIte]
        rfl

theorem eraseBlock_withDirty : ∃ dirty', eraseBlock (s.withDirty dirty) =
    ((eraseBlock s).1, (eraseBlock s).2.withDirty dirty') := by
  by_cases hblock : s.blockIndex ≥ blocksTotal s
  · simp [eraseBlock, hblock]
  · refine ⟨(eraseBlock (s.withDirty dirty)).2.blockMapDirtyPages, ?_⟩
    simp only [eraseBlock, withDirty_blockIndex, blocksTotal_withDirty, hblock, ↓reduceIte]
    rfl

theorem doCmdReadWith_withDirty (oobOnly : Bool) (operation : Operation) (flags : Byte) :
    doCmdReadWith (s.withDirty dirty) oobOnly operation flags =
      (doCmdReadWith s oobOnly operation flags).withDirty dirty := by
  simp only [doCmdReadWith, preparePage_withDirty]
  rcases preparePage s oobOnly with ⟨_ | _, s'⟩
  · rfl
  · exact setFlags_withDirty (setOperation s' operation) dirty _

theorem doCmdRead_withDirty : doCmdRead (s.withDirty dirty) = (doCmdRead s).withDirty dirty := by
  simp only [doCmdRead, setOperation_withDirty, withDirty_accessType]
  cases decodeAccess (setOperation s .none).accessType
  case block => exact doCmdReadWith_withDirty (setOperation s .none) dirty _ _ _
  case page => exact doCmdReadWith_withDirty (setOperation s .none) dirty _ _ _
  case oobOnly => exact doCmdReadWith_withDirty (setOperation s .none) dirty _ _ _
  all_goals rfl

theorem doCmdStop_withDirty : doCmdStop (s.withDirty dirty) = (doCmdStop s).withDirty dirty := by
  simp only [doCmdStop, withDirty_currentOperation]
  cases s.currentOperation
  case readMulti => exact setFlags_withDirty (setOperation s .readOne) dirty _
  case programMulti => exact setFlags_withDirty (setOperation s .programOne) dirty _
  all_goals exact setFlags_withDirty s dirty _

theorem doCmdProgram_withDirty :
    ∃ dirty', doCmdProgram (s.withDirty dirty) = (doCmdProgram s).withDirty dirty' := by
  simp only [doCmdProgram, withDirty_accessType]
  cases decodeAccess s.accessType
  case block => exact ⟨dirty, setFlags_withDirty (setOperation s .programMulti) dirty _⟩
  case page =>
    by_cases hpending : s.pagePending = true
    · obtain ⟨dirty', hprogram⟩ := programPage_withDirty
        { setOperation s .none with pagePending := false } dirty s.preparedPage
      refine ⟨dirty', ?_⟩
      simp only [withDirty_pagePending, hpending, ↓reduceIte, ← setFlags_withDirty]
      exact congrArg (fun r : Bool × MemoryStick => setFlags r.2 statusCommandOk) hprogram
    · refine ⟨dirty, ?_⟩
      simp only [withDirty_pagePending, hpending, Bool.false_eq_true, ↓reduceIte]
      exact setFlags_withDirty (setOperation s .programOne) dirty _
  case other => exact ⟨dirty, rfl⟩
  all_goals exact ⟨dirty, setFlags_withDirty s dirty _⟩

theorem doCmd_withDirty (commandByte : Byte) :
    ∃ dirty', doCmd (s.withDirty dirty) commandByte = (doCmd s commandByte).withDirty dirty' := by
  simp only [doCmd]
  cases decodeCmd commandByte
  case read => exact ⟨dirty, doCmdRead_withDirty s dirty⟩
  case stop => exact ⟨dirty, doCmdStop_withDirty s dirty⟩
  case erase =>
    obtain ⟨dirty', herase⟩ := eraseBlock_withDirty s dirty
    exact ⟨dirty', by rw [herase, ← setFlags_withDirty]⟩
  case reset => exact ⟨dirty, rfl⟩
  case program => exact doCmdProgram_withDirty s dirty
  case invalid => exact ⟨dirty, setFlags_withDirty s dirty _⟩

theorem nextPage_withDirty : nextPage (s.withDirty dirty) = (nextPage s).withDirty dirty := by
  have hset : setReg (s.withDirty dirty) pageOffset ((s.withDirty dirty).page + 1#8) =
      (setReg s pageOffset (s.page + 1#8)).withDirty dirty := rfl
  simp only [nextPage, hset]
  generalize setReg s pageOffset (s.page + 1#8) = s'
  by_cases hpage : s'.page < s'.pagesPerBlock
  · simp [withDirty_page, withDirty_pagesPerBlock, hpage, setFlags_withDirty]
  · simp only [withDirty_page, withDirty_pagesPerBlock, hpage, ↓reduceIte, setFlags_withDirty]
    rfl

theorem tpcWriteLongData_withDirty (dataInCount : ℕ) (dataIn : ℕ → Byte) :
    ∃ dirty', tpcWriteLongData (s.withDirty dirty) dataInCount dataIn =
      (tpcWriteLongData s dataInCount dataIn).withDirty dirty' := by
  simp only [tpcWriteLongData, withDirty_currentOperation]
  obtain ⟨dirty', hprogram⟩ := programPage_withDirty s dirty dataIn
  split_ifs
  · exact ⟨dirty, setFlags_withDirty s dirty _⟩
  · cases s.currentOperation
    case programMulti => exact ⟨dirty', by rw [hprogram, nextPage_withDirty]⟩
    case programOne =>
      refine ⟨dirty', ?_⟩
      rw [hprogram]
      exact setFlags_withDirty (setOperation (programPage s dataIn).2 .none) dirty' _
    all_goals exact ⟨dirty, setFlags_withDirty (keepPage s dataIn) dirty _⟩

theorem executeTpc_withDirty (id : Byte) (dataInCount : ℕ) (dataIn : ℕ → Byte) :
    ∃ dirty', executeTpc (s.withDirty dirty) id dataInCount dataIn =
      (executeTpc s id dataInCount dataIn).withDirty dirty' := by
  have hbegin : beginTpc (s.withDirty dirty) = (beginTpc s).withDirty dirty := rfl
  by_cases hcard : s.cardImage.isNone = true
  · simp [executeTpc, hbegin, withDirty_cardImage, hcard]
  · simp only [executeTpc, hbegin, withDirty_cardImage, hcard, Bool.false_eq_true, ↓reduceIte]
    generalize beginTpc s = s'
    simp only [dispatchTpc]
    cases decodeTpc id
    case setRegsWindow =>
      refine ⟨dirty, ?_⟩
      simp only [tpcSetRegsWindow]
      split_ifs <;> rfl
    case regsWrite =>
      refine ⟨dirty, ?_⟩
      by_cases hwindow : s'.writeWindowStart.toNat < cfgOffset ∨
          s'.writeWindowSize.toNat + s'.writeWindowStart.toNat > sizeofRegisters
      · simp [tpcRegsWrite, withDirty_writeWindowStart, withDirty_writeWindowSize, hwindow, setFlags_withDirty]
      · by_cases hcount : dataInCount = s'.writeWindowSize.toNat
        · simp only [tpcRegsWrite, withDirty_writeWindowStart, withDirty_writeWindowSize, hwindow,
            ne_eq, hcount, not_true_eq_false, ↓reduceIte]
          rfl
        · simp only [tpcRegsWrite, withDirty_writeWindowStart, withDirty_writeWindowSize, hwindow,
            ne_eq, hcount, not_false_eq_true, ↓reduceIte]
          rfl
    case regsRead =>
      refine ⟨dirty, ?_⟩
      by_cases hwindow : s'.readWindowStart.toNat + s'.readWindowSize.toNat ≥ sizeofRegisters
      · simp [tpcRegsRead, withDirty_readWindowStart, withDirty_readWindowSize, hwindow, setFlags_withDirty]
      · simp [tpcRegsRead, withDirty_readWindowStart, withDirty_readWindowSize, hwindow]
        rfl
    case getInt => exact ⟨dirty, rfl⟩
    case setCmd =>
      split_ifs
      · exact ⟨dirty, setFlags_withDirty s' dirty _⟩
      · exact doCmd_withDirty s' dirty _
    case readLongData =>
      refine ⟨dirty, ?_⟩
      simp only [tpcReadLongData, withDirty_currentOperation]
      split <;> rfl
    case writeLongData => exact tpcWriteLongData_withDirty s' dirty _ _
    case unsupported => exact ⟨dirty, setFlags_withDirty s' dirty _⟩

theorem finishReadTpc_withDirty : finishReadTpc (s.withDirty dirty) =
    (finishReadTpc s).map fun s' => s'.withDirty dirty := by
  by_cases hpage : s.bufferOut = .preparedPage
  · simp [finishReadTpc, withDirty_bufferOut, withDirty_currentOperation, hpage]
    cases s.currentOperation
    case readMulti =>
      have hnext : ∀ s' : MemoryStick, readNextPage (s'.withDirty dirty) =
          (readNextPage s').withDirty dirty := by
        intro s'
        have hset : setReg (s'.withDirty dirty) pageOffset ((s'.withDirty dirty).page + 1#8) =
          (setReg s' pageOffset (s'.page + 1#8)).withDirty dirty := rfl
        simp only [readNextPage, hset, preparePage_withDirty]
        rcases preparePage (setReg s' pageOffset (s'.page + 1#8)) false with ⟨_ | _, s''⟩ <;> rfl
      exact congrArg some (hnext (releaseBuffer s))
    case readOne => rfl
    all_goals rfl
  · simp only [finishReadTpc, withDirty_bufferOut, ne_eq, hpage, not_false_eq_true, ↓reduceIte]
    rfl

theorem mount_withDirty (image : CardImage) : ∃ dirty', mount (s.withDirty dirty) image =
    (mount s image).map fun s' => s'.withDirty dirty' := by
  refine ⟨fun i => if i < 2 then 0xff#8 else dirty i, ?_⟩
  simp only [mount, withDirty_blockMap]
  cases determineLayout image.blocksTotal with
  | none => rfl
  | some layout =>
    simp only [Option.bind_some]
    cases mountBlockMap s.blockMap layout.segments.toNat <;> rfl

end Dirty

/-- The same controller with other dirty bits, output buffer and read index. -/
def HostController.relocated (h : HostController) (dirty : ℕ → Byte) (out : BufferOut)
    (index : ℕ) : HostController :=
  { h with
    memoryStick := { h.memoryStick.withDirty dirty with bufferOut := out }
    readBufferIndex := index }

/-- The byte at `i` is in a word that the rest of the read transfer hands out. -/
def HandedOut (h : HostController) (i : ℕ) : Prop :=
  ∃ k, (k = 0 ∨ h.readBufferIndex + 2 * k <
      min (getTransferSize h) h.memoryStick.bufferOutSize) ∧
    h.readBufferIndex + 2 * k ≤ i ∧ i < h.readBufferIndex + 2 * k + 2 ∧
    i < h.memoryStick.bufferOutSize

def RestZero (h : HostController) : Prop :=
  ∀ i, HandedOut h i → h.memoryStick.reg i = 0#8

/-- Nothing is lost of the output buffer, or it is a window from offset 0 on whose rest is
zero. -/
def OutputAlike (h : HostController) (out : BufferOut) (index : ℕ) : Prop :=
  (h.state = .tpcRead → index = h.readBufferIndex) ∧
    (out = h.memoryStick.bufferOut ∨
      h.state = .tpcRead ∧ out = .null ∧ h.memoryStick.bufferOut = .reg 0 ∧ RestZero h)

def Alike (h h' : HostController) : Prop :=
  ∃ dirty out index, h' = h.relocated dirty out index ∧ OutputAlike h out index

section Relocated

variable (h : HostController) (dirty : ℕ → Byte) (out : BufferOut) (index : ℕ)

/-- The status word behind `UpdateIrqLine`. -/
def irqLine (msics : BitVec 16) (irqStat : Byte) (mscs : BitVec 16) : BitVec 16 :=
  if msics &&& msicsInten = 0#16 then mscs
  else if irqStat ≠ 0#8 then mscs ||| mscsInt else mscs &&& ~~~mscsInt

theorem updateIrqLine_eq :
    updateIrqLine h = { h with mscs := irqLine h.msics h.irqStat h.mscs } := by
  simp only [updateIrqLine, irqLine]
  split_ifs <;> rfl

theorem raiseIrq_relocated (bits : Byte) : raiseIrq (h.relocated dirty out index) bits =
    (raiseIrq h bits).relocated dirty out index := by
  simp only [raiseIrq, updateIrqLine_eq]
  rfl

theorem negateIrq_relocated (bits : Byte) : negateIrq (h.relocated dirty out index) bits =
    (negateIrq h bits).relocated dirty out index := by
  simp only [negateIrq, updateIrqLine_eq]
  rfl

theorem setState_relocated (state : HostState) : setState (h.relocated dirty out index) state =
    (setState h state).relocated dirty out index := by
  by_cases hraise : state ≠ h.state ∧ state = .idle
  · have hraise' : state ≠ (h.relocated dirty out index).state ∧ state = .idle := hraise
    rw [setState, setState, if_pos hraise', if_pos hraise, raiseIrq_relocated]
    rfl
  · have hraise' : ¬ (state ≠ (h.relocated dirty out index).state ∧ state = .idle) := hraise
    rw [setState, setState, if_neg hraise', if_neg hraise]
    rfl

theorem deliver_relocated (s : MemoryStick) (dirty' : ℕ → Byte) (out' : BufferOut) :
    deliver (h.relocated dirty out index) { s.withDirty dirty' with bufferOut := out' } =
      (deliver h s).relocated dirty' out' index := by
  have hiterate : ∀ (count : ℕ) (h' : HostController),
      (fun h => raiseIrq h irqSif)^[count] (h'.relocated dirty' out' index) =
        ((fun h => raiseIrq h irqSif)^[count] h').relocated dirty' out' index := by
    intro count
    induction count with
    | zero => exact fun _ => rfl
    | succ count ih => simp [Function.iterate_succ_apply, raiseIrq_relocated, ih]
  exact hiterate s.irqs { h with memoryStick := { s with irqs := 0 } }

theorem endTransfer_relocated : endTransfer (h.relocated dirty out index) =
    (endTransfer h).relocated dirty out index :=
  setState_relocated { h with fifo := h.fifo.clear } dirty out index .idle

end Relocated

section Transfers

variable {h h' h₁ : HostController}

theorem Alike.state (ha : Alike h h') : h'.state = h.state := by
  obtain ⟨dirty, out, index, rfl, -⟩ := ha
  rfl

theorem endTransfer_alike {s : MemoryStick} (hnull : s.bufferOut = .null) (dirty dirty' : ℕ → Byte)
    (out : BufferOut) (index : ℕ) : Alike (endTransfer (deliver h s))
      (endTransfer (deliver (h.relocated dirty out index) (s.withDirty dirty'))) := by
  have hsame : s.withDirty dirty' = { s.withDirty dirty' with bufferOut := s.bufferOut } := rfl
  obtain ⟨hinv, hidle⟩ := endTransfer_inv (h := h) hnull
  have hnone := hinv.noOutput (by rw [hidle]; decide)
  rw [hsame, deliver_relocated, endTransfer_relocated]
  refine ⟨dirty', s.bufferOut, index, rfl, fun hread => ?_, .inl (hnull.trans hnone.symm)⟩
  cases hread

/-- The buffers may differ where the transfer reads registers. -/
def SameEnd (h : HostController) (out : BufferOut) : Prop :=
  out = h.memoryStick.bufferOut ∨
    h.state = .tpcRead ∧ out = .null ∧ h.memoryStick.bufferOut = .reg 0

theorem OutputAlike.sameEnd {out : BufferOut} {index : ℕ} (hout : OutputAlike h out index) :
    SameEnd h out :=
  hout.2.imp id fun hlost => ⟨hlost.1, hlost.2.1, hlost.2.2.1⟩

theorem finishReadTpc_relocated {dirty : ℕ → Byte} {out : BufferOut} {index : ℕ} {s : MemoryStick}
    (hout : SameEnd h out) (hs : finishReadTpc h.memoryStick = some s) :
    finishReadTpc (h.relocated dirty out index).memoryStick = some (s.withDirty dirty) := by
  rcases hout with rfl | ⟨-, rfl, hzero⟩
  · have hdirty := finishReadTpc_withDirty h.memoryStick dirty
    rwa [hs] at hdirty
  · rw [finishReadTpc, if_pos (by rw [hzero]; exact BufferOut.noConfusion)] at hs
    cases hs
    rfl

theorem finishTpc_alike (hcommand : h.state = .tpcWrite → getTpcType (tpcId h) = .write)
    (hnull : h.state ≠ .tpcRead → h.memoryStick.bufferOut = .null)
    (houtput : h.state = .tpcRead → OutputInv h.memoryStick) (hbusy : h.state ≠ .idle)
    (dirty : ℕ → Byte) {out : BufferOut} (index : ℕ) (hout : SameEnd h out)
    (hfinish : finishTpc h = .ok h₁) :
    ∃ h₁', finishTpc (h.relocated dirty out index) = .ok h₁' ∧ Alike h₁ h₁' := by
  have hstate : (h.relocated dirty out index).state = h.state := rfl
  by_cases hwrite : h.state = .tpcWrite
  · have hnone := hnull (by rw [hwrite]; decide)
    have hexecuted := executeTpc_bufferOut_null h.memoryStick (getTransferSize h) h.writeBuffer
      (hcommand hwrite) hnone
    obtain rfl : out = h.memoryStick.bufferOut := by
      rcases hout with hout | ⟨hread, -⟩
      · exact hout
      · grind
    rw [finishTpc, if_pos hwrite] at hfinish
    cases hfinish
    obtain ⟨dirty', hexecute⟩ := executeTpc_withDirty h.memoryStick dirty (tpcId h)
      (getTransferSize h) h.writeBuffer
    have hstick : executeTpc (h.relocated dirty h.memoryStick.bufferOut index).memoryStick
        (tpcId (h.relocated dirty h.memoryStick.bufferOut index))
        (getTransferSize (h.relocated dirty h.memoryStick.bufferOut index))
        (h.relocated dirty h.memoryStick.bufferOut index).writeBuffer =
          (executeTpc h.memoryStick (tpcId h) (getTransferSize h) h.writeBuffer).withDirty dirty' :=
      hexecute
    refine ⟨_, by rw [finishTpc, if_pos (hstate.trans hwrite)], ?_⟩
    rw [hstick]
    exact endTransfer_alike hexecuted _ _ _ _
  · have hread : h.state = .tpcRead := by
      cases hs : h.state with
      | idle => exact absurd hs hbusy
      | tpcWrite => exact absurd hs hwrite
      | tpcRead => rfl
    obtain ⟨s, hs, hnone⟩ := finishReadTpc_spec (houtput hread)
    rw [finishTpc, if_neg hwrite, hs] at hfinish
    cases hfinish
    refine ⟨_, by rw [finishTpc, if_neg (fun hw => hwrite (hstate.symm.trans hw)),
      finishReadTpc_relocated hout hs], ?_⟩
    exact endTransfer_alike hnone _ _ _ _

/-- Results of a step in alike states. -/
def Follows (r r' : Except Fault HostController) : Prop :=
  ∀ h₁, r = .ok h₁ → ∃ h₁', r' = .ok h₁' ∧ Alike h₁ h₁'

theorem Follows.ok (ha : Alike h h') : Follows (.ok h) (.ok h') := by
  intro h₁ hok
  cases hok
  exact ⟨h', rfl, ha⟩

theorem Alike.appendByte (ha : Alike h h') (data : Byte) :
    Alike (appendByte h data) (appendByte h' data) := by
  obtain ⟨dirty, out, index, rfl, hout⟩ := ha
  exact ⟨dirty, out, index, rfl, hout⟩

theorem afterByte_alike (hinv : HostInv h) (hbusy : h.state ≠ .idle) (ha : Alike h h') (data : Byte)
    {r r' : Except Fault HostController} (hr : (Stick.appendByte h data).writeBufferSize <
      getTransferSize (Stick.appendByte h data) → Follows r r') :
    Follows (if (appendByte h data).writeBufferSize ≥ getTransferSize (appendByte h data) then
        finishTpc (appendByte h data) else r)
      (if (appendByte h' data).writeBufferSize ≥ getTransferSize (appendByte h' data) then
        finishTpc (appendByte h' data) else r') := by
  obtain ⟨dirty, out, index, rfl, hout⟩ := ha
  by_cases hend : (appendByte h data).writeBufferSize ≥ getTransferSize (appendByte h data)
  · rw [if_pos hend, if_pos (by exact hend)]
    exact fun _ hfinish => finishTpc_alike (h := appendByte h data) hinv.command hinv.noOutput
      hinv.output hbusy dirty index hout.sameEnd hfinish
  · rw [if_neg hend, if_neg (by exact hend)]
    exact hr (by omega)

theorem Alike.storeByte (ha : Alike h h') {data : Byte}
    (hstore : storeByte h data = .ok (Stick.appendByte h data)) :
    Stick.storeByte h' data = .ok (Stick.appendByte h' data) := by
  obtain ⟨dirty, out, index, rfl, -⟩ := ha
  by_cases hroom : h.writeBufferSize < sizeofWriteBuffer
  · exact if_pos hroom
  · grind [Stick.storeByte]

theorem transferWord_alike (hinv : HostInv h) (hbusy : h.state ≠ .idle) (ha : Alike h h')
    (data : BitVec 16) : Follows (transferWord h data) (transferWord h' data) := by
  obtain ⟨hfirst, hmore, -⟩ := appendByte_spec hinv hbusy ((data >>> 8).setWidth 8)
  have ha₁ := ha.appendByte ((data >>> 8).setWidth 8)
  rw [transferWord, transferWord, hfirst, ha.storeByte hfirst]
  apply afterByte_alike hinv hbusy ha
  intro hsize
  have hinv₁ := hmore hsize
  have hbusy₁ : (appendByte h ((data >>> 8).setWidth 8)).state ≠ .idle := hbusy
  obtain ⟨hsecond, -, -⟩ := appendByte_spec hinv₁ hbusy₁ (data.setWidth 8)
  rw [hsecond, ha₁.storeByte hsecond]
  apply afterByte_alike hinv₁ hbusy₁ ha₁
  exact fun _ => .ok (ha₁.appendByte _)

theorem Alike.setFifo (ha : Alike h h') (fifo : Fifo) :
    Alike { h with fifo := fifo } { h' with fifo := fifo } := by
  obtain ⟨dirty, out, index, rfl, hout⟩ := ha
  exact ⟨dirty, out, index, rfl, hout⟩

theorem Alike.fifo (ha : Alike h h') : h'.fifo = h.fifo := by
  obtain ⟨dirty, out, index, rfl, -⟩ := ha
  rfl

theorem fifoWrite_alike (hinv : HostInv h) (ha : Alike h h') (data : BitVec 16) :
    Follows (fifoWrite h data) (fifoWrite h' data) := by
  rw [fifoWrite, fifoWrite]
  by_cases hbusy : h.state ≠ .idle
  · rw [if_pos hbusy, if_pos (by rwa [ha.state])]
    exact transferWord_alike hinv hbusy ha data
  · have hbusy' : ¬ h'.state ≠ .idle := by rwa [ha.state]
    rw [if_neg hbusy, if_neg hbusy', ha.fifo]
    split_ifs
    · exact .ok ha
    · exact .ok (ha.setFifo _)

theorem drainFifo_alike (rounds : ℕ) (hinv : HostInv h) (ha : Alike h h') :
    Follows (drainFifo rounds h) (drainFifo rounds h') := by
  induction rounds generalizing h h' with
  | zero => exact .ok ha
  | succ rounds ih =>
    rw [drainFifo, drainFifo]
    by_cases hmore : h.fifo.size > 0 ∧ h.state ≠ .idle
    · rw [if_pos hmore, if_pos (by rwa [ha.state, ha.fifo]), ha.fifo]
      obtain ⟨h₁, hwrite, hinv₁⟩ := fifoWrite_inv (hinv.setFifo h.fifo.pop.2) h.fifo.pop.1
      obtain ⟨h₁', hwrite', ha₁⟩ := fifoWrite_alike (hinv.setFifo h.fifo.pop.2)
        (ha.setFifo h.fifo.pop.2) h.fifo.pop.1 h₁ hwrite
      rw [hwrite, hwrite']
      exact ih hinv₁ ha₁
    · rw [if_neg hmore, if_neg (by rwa [ha.state, ha.fifo])]
      exact .ok ha

theorem startTransfer_alike {dirty : ℕ → Byte} {index : ℕ} (state : HostState) :
    startTransfer (h.relocated dirty h.memoryStick.bufferOut index) state =
      (startTransfer h state).relocated dirty (startTransfer h state).memoryStick.bufferOut
        (startTransfer h state).readBufferIndex := by
  rw [startTransfer, setState_relocated, (startTransfer_same state).2.2.1]
  rfl

theorem beginRead_alike (dirty : ℕ → Byte) : Alike (beginRead h)
    (beginRead (h.relocated dirty h.memoryStick.bufferOut h.readBufferIndex)) := by
  obtain ⟨dirty', hexecute⟩ := executeTpc_withDirty h.memoryStick dirty (tpcId h) 0 fun _ => 0#8
  have hread : beginRead (h.relocated dirty h.memoryStick.bufferOut h.readBufferIndex) =
      deliver (h.relocated dirty h.memoryStick.bufferOut h.readBufferIndex)
        ((executeTpc h.memoryStick (tpcId h) 0 fun _ => 0#8).withDirty dirty') :=
    congrArg (deliver _) hexecute
  rw [hread, beginRead]
  generalize (executeTpc h.memoryStick (tpcId h) 0 fun _ => 0#8) = s
  have hsame := deliver_same h s
  have hout : (deliver h s).memoryStick.bufferOut = s.bufferOut := by rw [hsame.memoryStick]
  exact ⟨dirty', s.bufferOut, h.readBufferIndex, deliver_relocated h dirty _ _ s dirty' s.bufferOut,
    fun _ => hsame.readBufferIndex.symm, .inl hout.symm⟩

theorem hostBeginTpc_alike (hinv : HostInv h) (hidle : h.state = .idle) (ha : Alike h h') :
    Follows (hostBeginTpc h) (hostBeginTpc h') := by
  obtain ⟨dirty, out, index, rfl, -, hout⟩ := ha
  obtain rfl : out = h.memoryStick.bufferOut := by grind
  have htpc : tpcId (h.relocated dirty h.memoryStick.bufferOut index) = tpcId h := rfl
  have hnull : h.memoryStick.bufferOut = .null := hinv.noOutput (by rw [hidle]; decide)
  rw [hostBeginTpc, hostBeginTpc, htpc]
  cases htype : getTpcType (tpcId h) with
  | read =>
    rw [startTransfer_alike]
    exact .ok (beginRead_alike dirty)
  | write =>
    dsimp only
    rw [startTransfer_alike]
    obtain ⟨hinv₁, hstate⟩ := startWrite_inv htype hnull
    generalize startTransfer h .tpcWrite = h₁ at hinv₁ hstate
    have ha₁ : Alike h₁ (h₁.relocated dirty h₁.memoryStick.bufferOut h₁.readBufferIndex) :=
      ⟨dirty, _, _, rfl, fun _ => rfl, .inl rfl⟩
    rw [beginWrite, beginWrite]
    by_cases hnone : getTransferSize h₁ = 0
    · rw [if_pos hnone, if_pos (by exact hnone)]
      exact fun _ hfinish => finishTpc_alike hinv₁.command hinv₁.noOutput hinv₁.output
        (by rw [hstate]; decide) dirty _ (.inl rfl) hfinish
    · rw [if_neg hnone, if_neg (by exact hnone)]
      exact drainFifo_alike _ hinv₁ ha₁

end Transfers

end Cloudpilot.Hardware.Stick
