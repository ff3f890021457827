import Cloudpilot.Hardware.MemoryStick.Storage

/-! # Programming and reading through transfers

How the host addresses a block, programs it and reads it back, in block and in
page access mode, and what the single transfers do.
-/
namespace Cloudpilot.Hardware.Stick
open Cloudpilot.Library Cloudpilot.Common Option

/-- The operation only sets registers. -/
def RegisterOp : Op → Prop
  | .tpc tpcId _ _ => decodeTpc tpcId = .setRegsWindow ∨ decodeTpc tpcId = .regsWrite
  | _ => False

/-- The host sets registers, in any number of transfers and through any windows. -/
def RegisterSetup (s s' : MemoryStick) : Prop :=
  ∃ ops, (∀ op ∈ ops, RegisterOp op) ∧ run s ops = some s'

/-- The registers address a page. -/
structure Addressed (s : MemoryStick) (block : ℕ) (access : AccessType) (page : ℕ) : Prop where
  block : s.blockIndex = block
  access : decodeAccess s.accessType = access
  page : s.page.toNat = page

def programCmd (s : MemoryStick) : MemoryStick := executeTpc s 0x0e#8 1 fun _ => 0x55#8
def readCmd (s : MemoryStick) : MemoryStick := executeTpc s 0x0e#8 1 fun _ => 0xaa#8
def writePage (s : MemoryStick) (data : ℕ → Byte) : MemoryStick := executeTpc s 0x0d#8 512 data
def readPage (s : MemoryStick) : MemoryStick := executeTpc s 0x02#8 0 fun _ => 0#8

def writePages (pages : ℕ → ℕ → Byte) : ℕ → MemoryStick → MemoryStick
  | 0, s => s
  | page + 1, s => writePage (writePages pages page s) (pages page)

/-- Pages 0 to `count - 1`, each addressed and programmed on its own. -/
inductive PagesProgrammed (block : ℕ) (logicalBlock : BitVec 16) (pages : ℕ → ℕ → Byte) :
    ℕ → MemoryStick → MemoryStick → Prop
  | zero {s : MemoryStick} : PagesProgrammed block logicalBlock pages 0 s s
  | succ {s s₁ s₂ : MemoryStick} {count : ℕ}
      (before : PagesProgrammed block logicalBlock pages count s s₁) (setup : RegisterSetup s₁ s₂)
      (addressed : Addressed s₂ block .page count) (logical : s₂.logicalBlock = logicalBlock) :
      PagesProgrammed block logicalBlock pages (count + 1) s
        (writePage (programCmd s₂) (pages count))

inductive Programmed (block : ℕ) (logicalBlock : BitVec 16) (pages : ℕ → ℕ → Byte) :
    AccessType → MemoryStick → MemoryStick → Prop
  | block {s s₁ : MemoryStick} (setup : RegisterSetup s s₁) (addressed : Addressed s₁ block .block 0)
      (logical : s₁.logicalBlock = logicalBlock) :
      Programmed block logicalBlock pages .block s
        (writePages pages s₁.pagesPerBlock.toNat (programCmd s₁))
  | page {s s₁ : MemoryStick}
      (programmed : PagesProgrammed block logicalBlock pages s.pagesPerBlock.toNat s s₁) :
      Programmed block logicalBlock pages .page s s₁

def Reads (s : MemoryStick) (logicalBlock : BitVec 16) (page : ℕ → Byte) : Prop :=
  (readPage s).bufferOutSize = 512 ∧ (∀ i < 512, dataOut (readPage s) i = some (page i)) ∧
    (readPage s).logicalBlock = logicalBlock

/-- Transfers of a block read, each with its end. -/
def readPages : ℕ → MemoryStick → Option MemoryStick
  | 0, s => some s
  | page + 1, s => (readPages page s).bind fun s => finishReadTpc (readPage s)

/-- Reading the block in either mode returns the pages. A page read leaves a state from which the
other pages can be read, since it disturbs nothing. -/
structure ReadsBack (s : MemoryStick) (block : ℕ) (logicalBlock : BitVec 16)
    (pages : ℕ → ℕ → Byte) : Prop where
  inBlocks : ∀ s₁, RegisterSetup s s₁ → Addressed s₁ block .block 0 →
    ∀ page < s.pagesPerBlock.toNat,
      ∃ s₂, readPages page (readCmd s₁) = some s₂ ∧ Reads s₂ logicalBlock (pages page)
  inPages : ∀ s₁ page, RegisterSetup s s₁ → Addressed s₁ block .page page →
    page < s.pagesPerBlock.toNat → Reads (readCmd s₁) logicalBlock (pages page)

/-- The operation programs the logical block, or erases or programs the physical one. -/
def Disturbs (block : ℕ) (logicalBlock : BitVec 16) (s : MemoryStick) (op : Op) : Prop :=
  ((op.programmed s).isSome ∧ (s.blockIndex = block ∨ s.logicalBlock = logicalBlock)) ∨
    (op.erases s ∧ s.blockIndex = block)

/-- No operation of a run disturbs the block. -/
def Undisturbed (block : ℕ) (logicalBlock : BitVec 16) : MemoryStick → List Op → Prop
  | _, [] => True
  | s, op :: ops => ¬ Disturbs block logicalBlock s op ∧
      ∀ s', step s op = some s' → Undisturbed block logicalBlock s' ops

/-- The states of a stick that the emulator can reach. -/
inductive Reachable : MemoryStick → Prop
  | initial {s : MemoryStick} (card : s.cardImage = none) (segments : s.segments = 0#8) : Reachable s
  | mount {s s' : MemoryStick} {image : CardImage} (before : Reachable s)
      (mounted : mount s image = some s') : Reachable s'
  | remount {s : MemoryStick} (image : CardImage) (before : Reachable s) :
      Reachable (remount s image)
  | unmount {s : MemoryStick} (before : Reachable s) : Reachable (unmount s)
  | step {s s' : MemoryStick} {op : Op} (before : Reachable s) (stepped : step s op = some s') :
      Reachable s'

/-- Programming and erasing keep the layout. -/
def SameLayout (st st' : Storage) : Prop :=
  st'.segments = st.segments ∧ st'.pagesPerBlock = st.pagesPerBlock

theorem Storage.program_layout (st : Storage) (block : ℕ) (page : Byte)
    (logicalBlock : BitVec 16) (data : ℕ → Byte) :
    SameLayout st (st.program block page logicalBlock data) := by
  rw [Storage.program]
  cases st.cardImage with
  | none => exact ⟨rfl, rfl⟩
  | some image =>
    dsimp only
    split_ifs <;> exact ⟨rfl, rfl⟩

theorem Storage.erase_layout (st : Storage) (block : ℕ) : SameLayout st (st.erase block) := by
  rw [Storage.erase]
  split_ifs <;> exact ⟨rfl, rfl⟩

variable {s : MemoryStick}

theorem step_layout {s' : MemoryStick} (op : Op) (h : step s op = some s') :
    SameLayout s.storage s'.storage := by
  rw [step_storage h]
  cases op.programmed s with
  | some page => exact Storage.program_layout _ _ _ _ _
  | none =>
    split_ifs
    · exact Storage.erase_layout _ _
    · exact ⟨rfl, rfl⟩

theorem executeTpc_pagesPerBlock (s : MemoryStick) (tpcId : Byte) (dataInCount : ℕ)
    (dataIn : ℕ → Byte) :
    (executeTpc s tpcId dataInCount dataIn).pagesPerBlock = s.pagesPerBlock :=
  (step_layout (.tpc tpcId dataInCount dataIn) rfl).2

theorem step_isSome {s' : MemoryStick} (op : Op) (h : step s op = some s')
    (hcard : s.cardImage.isSome) : s'.cardImage.isSome := by
  have hstorage : s'.cardImage = _ := congrArg Storage.cardImage (step_storage h)
  rw [hstorage]
  cases op.programmed s with
  | some page =>
    obtain ⟨image, himage⟩ := isSome_iff_exists.mp hcard
    have hst : s.storage.cardImage = some image := himage
    simp only [Storage.program, hst]
    split_ifs <;> simp [hst]
  | none =>
    simp only [Storage.erase]
    split_ifs <;> exact hcard

theorem foldlM_mountBlock_bound {entries : List ℕ} {state state' : (ℕ → BitVec 16) × BitVec 16}
    (h : entries.foldlM mountBlock state = some state') :
    ∀ entry ∈ entries, entry < blockMapEntries := by
  induction entries generalizing state with
  | nil => simp
  | cons entry entries ih =>
    rw [List.foldlM_cons, mountBlock] at h
    split_ifs at h with hentry
    · grind
    · cases h

theorem mount_fresh {s' : MemoryStick} {image : CardImage} (h : mount s image = some s') :
    s'.cardImage = some image ∧ determineLayout image.blocksTotal = some ⟨s'.pagesPerBlock, s'.segments⟩ ∧
      s'.pagePending = false ∧ s'.currentOperation = .none ∧
      (mountBlockMap s.blockMap s'.segments.toNat).isSome := by
  rw [mount, bind_eq_some_iff] at h
  obtain ⟨layout, hlayout, h⟩ := h
  rw [map_eq_some_iff] at h
  obtain ⟨map, hmap, rfl⟩ := h
  exact ⟨rfl, hlayout, rfl, rfl, by rw [hmap]; rfl⟩

theorem mount_segments_le {s' : MemoryStick} {image : CardImage} (h : mount s image = some s') :
    s'.segments.toNat ≤ 16 := by
  obtain ⟨map, hmap⟩ := isSome_iff_exists.mp (mount_fresh h).2.2.2.2
  rw [mountBlockMap, map_eq_some_iff] at hmap
  obtain ⟨state, hfold, -⟩ := hmap
  rw [mountOrder_eq] at hfold
  by_contra hlarge
  have hentry := foldlM_mountBlock_bound hfold (physicalBlock (16 * 496 - 2))
    (List.mem_map_of_mem (List.mem_range.mpr (by omega)))
  exact absurd hentry (by decide)

theorem Reachable.segments_le (h : Reachable s) : s.segments.toNat ≤ 16 := by
  induction h with
  | initial card segments => simp [segments]
  | mount before mounted ih => exact mount_segments_le mounted
  | remount image before ih => exact ih
  | unmount before ih => exact ih
  | step before stepped ih =>
    exact (congrArg BitVec.toNat (step_layout _ stepped).1).trans_le ih

/-- What setting registers leaves alone. -/
structure RegisterFrame (s s' : MemoryStick) : Prop where
  storage : s'.storage = s.storage
  pagePending : s'.pagePending = s.pagePending
  preparedPage : s'.preparedPage = s.preparedPage

theorem setFlags_frame (s : MemoryStick) (flags : Byte) : RegisterFrame s (setFlags s flags) := by
  by_cases hflags : flags = 0#8
  · simp only [setFlags, hflags]
    exact ⟨rfl, rfl, rfl⟩
  · simp only [setFlags, if_pos hflags]
    exact ⟨rfl, rfl, rfl⟩

theorem RegisterFrame.trans {s' s'' : MemoryStick} (h : RegisterFrame s s')
    (h' : RegisterFrame s' s'') : RegisterFrame s s'' :=
  ⟨h'.storage.trans h.storage, h'.pagePending.trans h.pagePending,
    h'.preparedPage.trans h.preparedPage⟩

theorem step_registerFrame {s' : MemoryStick} {op : Op} (hop : RegisterOp op)
    (h : step s op = some s') : RegisterFrame s s' := by
  cases op with
  | finishRead => exact absurd hop id
  | reset => exact absurd hop id
  | tpc tpcId dataInCount dataIn =>
    cases h
    have hbegin : RegisterFrame s (beginTpc s) := ⟨rfl, rfl, rfl⟩
    rw [executeTpc]
    split_ifs with hcard
    · exact hbegin
    · apply hbegin.trans
      rw [dispatchTpc]
      rcases hop with htpc | htpc
      · rw [htpc]
        simp only [tpcSetRegsWindow]
        split_ifs
        · refine RegisterFrame.trans ?_ (setFlags_frame _ _)
          exact ⟨rfl, rfl, rfl⟩
        · exact ⟨rfl, rfl, rfl⟩
      · rw [htpc]
        simp only [tpcRegsWrite]
        split_ifs
        · exact setFlags_frame _ _
        · refine RegisterFrame.trans ?_ (setFlags_frame _ _)
          exact ⟨rfl, rfl, rfl⟩
        · exact ⟨rfl, rfl, rfl⟩

theorem RegisterSetup.frame {s' : MemoryStick} (h : RegisterSetup s s') : RegisterFrame s s' := by
  obtain ⟨ops, hops, hrun⟩ := h
  induction ops generalizing s with
  | nil =>
    cases hrun
    exact ⟨rfl, rfl, rfl⟩
  | cons op ops ih =>
    rw [run, List.foldlM_cons, bind_eq_bind, bind_eq_some_iff] at hrun
    obtain ⟨s₁, hstep, hrest⟩ := hrun
    exact (step_registerFrame (hops op (by simp)) hstep).trans
      (ih (fun op' h => hops op' (List.mem_cons_of_mem _ h)) hrest)

theorem RegisterSetup.pagesPerBlock {s' : MemoryStick} (h : RegisterSetup s s') :
    s'.pagesPerBlock = s.pagesPerBlock :=
  congrArg Storage.pagesPerBlock h.frame.storage

/-- Two transfers that set the registers of an address. -/
def addressOps (block : ℕ) (access page : Byte) (logicalBlock : BitVec 16) : List Op :=
  [.tpc 0x08#8 4 fun i =>
      match i with
      | 0 => 0x00#8
      | 1 => 0x1e#8
      | 2 => 0x10#8
      | _ => 15#8,
    .tpc 0x0b#8 15 fun i =>
      match i with
      | 1 => BitVec.ofNat 8 (block / 2 ^ 16)
      | 2 => BitVec.ofNat 8 (block / 2 ^ 8)
      | 3 => BitVec.ofNat 8 block
      | 4 => access
      | 5 => page
      | 8 => BitVec.ofNat 8 (logicalBlock.toNat / 256)
      | 9 => BitVec.ofNat 8 logicalBlock.toNat
      | _ => 0xff#8]

section Transfers

variable {s : MemoryStick}

theorem setFlags_reg {flags : Byte} {i : ℕ} (hi : i ≠ intFlagsOffset) :
    (setFlags s flags).reg i = s.reg i := by
  simp only [setFlags]
  split_ifs <;> exact Function.update_of_ne hi _ _

@[simp] theorem setFlags_blockIndex (flags : Byte) :
    (setFlags s flags).blockIndex = s.blockIndex := by
  simp only [MemoryStick.blockIndex]
  rw [setFlags_reg (by decide), setFlags_reg (by decide), setFlags_reg (by decide)]

@[simp] theorem setFlags_page (flags : Byte) : (setFlags s flags).page = s.page :=
  setFlags_reg (by decide)

@[simp] theorem setFlags_logicalBlock (flags : Byte) :
    (setFlags s flags).logicalBlock = s.logicalBlock := by
  simp only [MemoryStick.logicalBlock, MemoryStick.oob]
  rw [setFlags_reg (by decide), setFlags_reg (by decide)]

@[simp] theorem setFlags_currentOperation (flags : Byte) :
    (setFlags s flags).currentOperation = s.currentOperation := by
  simp only [setFlags]
  split_ifs <;> rfl

@[simp] theorem setFlags_pagePending (flags : Byte) :
    (setFlags s flags).pagePending = s.pagePending :=
  (setFlags_frame s flags).pagePending

@[simp] theorem setFlags_preparedPage (flags : Byte) :
    (setFlags s flags).preparedPage = s.preparedPage :=
  (setFlags_frame s flags).preparedPage

theorem clearFlags_eq (s : MemoryStick) : clearFlags s = setFlags s 0#8 := by
  simp [clearFlags, setFlags]

@[simp] theorem setOperation_blockIndex (operation : Operation) :
    (setOperation s operation).blockIndex = s.blockIndex := rfl

@[simp] theorem setOperation_page (operation : Operation) :
    (setOperation s operation).page = s.page := rfl

@[simp] theorem setOperation_logicalBlock (operation : Operation) :
    (setOperation s operation).logicalBlock = s.logicalBlock := rfl

@[simp] theorem setPage_page (value : Byte) : (setReg s pageOffset value).page = value := by
  simp [MemoryStick.page, setReg, Function.update_self]

@[simp] theorem setPage_blockIndex (value : Byte) :
    (setReg s pageOffset value).blockIndex = s.blockIndex := by
  simp only [MemoryStick.blockIndex, setReg]
  rw [Function.update_of_ne (by decide), Function.update_of_ne (by decide),
    Function.update_of_ne (by decide)]

@[simp] theorem setPage_logicalBlock (value : Byte) :
    (setReg s pageOffset value).logicalBlock = s.logicalBlock := by
  simp only [MemoryStick.logicalBlock, MemoryStick.oob, setReg]
  rw [Function.update_of_ne (by decide), Function.update_of_ne (by decide)]

theorem setOob_reg {oob0 oob1 oob2 oob3 : Byte} {i : ℕ} (hi : i < oobOffset) :
    (setOob s oob0 oob1 oob2 oob3).reg i = s.reg i := by
  simp only [setOob, setReg]
  rw [Function.update_of_ne (by omega), Function.update_of_ne (by omega),
    Function.update_of_ne (by omega), Function.update_of_ne (by omega)]

theorem setOob_blockIndex (oob0 oob1 oob2 oob3 : Byte) :
    (setOob s oob0 oob1 oob2 oob3).blockIndex = s.blockIndex := by
  simp only [MemoryStick.blockIndex]
  rw [setOob_reg (by decide), setOob_reg (by decide), setOob_reg (by decide)]

theorem setOob_page (oob0 oob1 oob2 oob3 : Byte) :
    (setOob s oob0 oob1 oob2 oob3).page = s.page :=
  setOob_reg (by decide)

theorem setOob_logicalBlock (oob0 oob1 oob2 oob3 : Byte) :
    (setOob s oob0 oob1 oob2 oob3).logicalBlock = oob2 ++ oob3 := by
  simp only [MemoryStick.logicalBlock, MemoryStick.oob, setOob, setReg, Function.update_self]
  rw [Function.update_of_ne (by decide), Function.update_self]

theorem executeTpc_mounted {tpcId : Byte} {dataInCount : ℕ} {dataIn : ℕ → Byte}
    (h : s.cardImage.isSome) :
    executeTpc s tpcId dataInCount dataIn = dispatchTpc (beginTpc s) tpcId dataInCount dataIn := by
  rw [executeTpc, if_neg]
  simpa [isSome_iff_ne_none] using h

section

variable (hcard : s.cardImage.isSome)

include hcard

theorem programCmd_block (hblock : decodeAccess s.accessType = .block) :
    programCmd s = setFlags (setOperation (beginTpc s) .programMulti) statusReadyForTransfer := by
  have haccess : decodeAccess (beginTpc s).accessType = .block := hblock
  rw [programCmd, executeTpc_mounted hcard]
  show doCmdProgram (beginTpc s) = _
  rw [doCmdProgram, haccess]

theorem programCmd_page (hpage : decodeAccess s.accessType = .page)
    (hpending : s.pagePending = false) :
    programCmd s = setFlags (setOperation (beginTpc s) .programOne) statusCommandOk := by
  have haccess : decodeAccess (beginTpc s).accessType = .page := hpage
  have hpending' : (beginTpc s).pagePending = false := hpending
  rw [programCmd, executeTpc_mounted hcard]
  show doCmdProgram (beginTpc s) = _
  rw [doCmdProgram, haccess]
  simp only [hpending', Bool.false_eq_true, if_false]

theorem programCmd_pending (hpage : decodeAccess s.accessType = .page)
    (hpending : s.pagePending = true) :
    programCmd s = setFlags (programPage { setOperation (beginTpc s) .none with pagePending := false }
      s.preparedPage).2 statusCommandOk := by
  have haccess : decodeAccess (beginTpc s).accessType = .page := hpage
  have hpending' : (beginTpc s).pagePending = true := hpending
  rw [programCmd, executeTpc_mounted hcard]
  show doCmdProgram (beginTpc s) = _
  rw [doCmdProgram, haccess]
  simp only [hpending', if_true]
  rfl

theorem writePage_mounted (data : ℕ → Byte) : writePage s data =
      match s.currentOperation with
      | .programMulti => nextPage (programPage (beginTpc s) data).2
      | .programOne => setFlags (setOperation (programPage (beginTpc s) data).2 .none) statusCommandOk
      | _ => setFlags (keepPage (beginTpc s) data) statusCommandOk := by
  rw [writePage, executeTpc_mounted hcard]
  rfl

end

theorem programPage_frame (s : MemoryStick) (data : ℕ → Byte) :
    (programPage s data).2.reg = s.reg ∧
      (programPage s data).2.currentOperation = s.currentOperation ∧
      (programPage s data).2.pagePending = s.pagePending ∧
      (programPage s data).2.pagesPerBlock = s.pagesPerBlock := by
  rw [programPage]
  cases s.cardImage with
  | none => exact ⟨rfl, rfl, rfl, rfl⟩
  | some image =>
    dsimp only
    split_ifs
    · simp
    · simp
    · simp
    · simp only [storePage]
      split_ifs <;> exact ⟨rfl, rfl, rfl, rfl⟩

end Transfers

end Cloudpilot.Hardware.Stick
