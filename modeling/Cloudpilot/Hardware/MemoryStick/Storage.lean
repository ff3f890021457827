import Cloudpilot.Hardware.MemoryStick.Geometry

/-! # What a transfer does to the storage of the stick

The storage is the card image with the block map and the layout. A transfer erases
one block, programs one page or leaves the storage alone.
-/

namespace Cloudpilot.Hardware.Stick

open Cloudpilot.Library Cloudpilot.Common

structure Storage where
  cardImage : Option CardImage
  blockMap : ℕ → BitVec 16
  pagesPerBlock : Byte
  segments : Byte

def MemoryStick.storage (s : MemoryStick) : Storage :=
  ⟨s.cardImage, s.blockMap, s.pagesPerBlock, s.segments⟩

theorem storage_fields {s s' : MemoryStick} (h : s'.storage = s.storage) :
    s'.cardImage = s.cardImage ∧ s'.segments = s.segments ∧ s'.pagesPerBlock = s.pagesPerBlock :=
  ⟨congrArg Storage.cardImage h, congrArg Storage.segments h, congrArg Storage.pagesPerBlock h⟩

/-- What the host controller does with a mounted stick. -/
inductive Op
  | tpc (tpcId : Byte) (dataInCount : ℕ) (dataIn : ℕ → Byte)
  | finishRead
  | reset

def step (s : MemoryStick) : Op → Option MemoryStick
  | .tpc tpcId dataInCount dataIn => some (executeTpc s tpcId dataInCount dataIn)
  | .finishRead => finishReadTpc s
  | .reset => some (reset s)

def run (s : MemoryStick) (ops : List Op) : Option MemoryStick :=
  ops.foldlM step s

/-- The page that an operation hands to `ProgramPage`. -/
def Op.programmed (s : MemoryStick) : Op → Option (ℕ → Byte)
  | .tpc tpcId dataInCount dataIn =>
    if s.cardImage.isNone then none
    else
      match decodeTpc tpcId with
      | .setCmd =>
        if dataInCount = 1 ∧ decodeCmd (dataIn 0) = .program ∧
            decodeAccess s.accessType = .page ∧ s.pagePending then some s.preparedPage
        else none
      | .writeLongData =>
        if dataInCount = 512 ∧
            (s.currentOperation = .programMulti ∨ s.currentOperation = .programOne) then some dataIn
        else none
      | _ => none
  | _ => none

/-- The operation erases the addressed block. -/
def Op.erases (s : MemoryStick) : Op → Prop
  | .tpc tpcId dataInCount dataIn =>
    s.cardImage.isSome ∧ decodeTpc tpcId = .setCmd ∧ dataInCount = 1 ∧ decodeCmd (dataIn 0) = .erase
  | _ => False

instance (s : MemoryStick) (op : Op) : Decidable (op.erases s) := by
  cases op <;> (simp only [Op.erases]; infer_instance)

section Frames

variable (s : MemoryStick)

@[simp] theorem setReg_storage (offset : ℕ) (value : Byte) :
    (setReg s offset value).storage = s.storage := rfl

@[simp] theorem setFlags_storage (flags : Byte) : (setFlags s flags).storage = s.storage := by
  simp only [setFlags]
  split_ifs <;> rfl

@[simp] theorem setOperation_storage (operation : Operation) :
    (setOperation s operation).storage = s.storage := rfl

@[simp] theorem clearFlags_storage : (clearFlags s).storage = s.storage := rfl

@[simp] theorem reset_storage : (reset s).storage = s.storage := rfl

theorem preparePageInto_storage {destination : ℕ → Byte} {oobOnly : Bool} {s' : MemoryStick}
    {page : ℕ → Byte} (h : preparePageInto s destination oobOnly = some (s', page)) :
    s'.storage = s.storage := by
  simp only [preparePageInto] at h
  cases himage : s.cardImage with
  | none => simp [himage] at h
  | some image =>
    simp only [himage] at h
    split_ifs at h
    · cases h
      rfl
    · have hs : s' = (preparePageMapped s image destination oobOnly).1 := by
        rw [Option.some.inj h]
      rw [hs]
      simp only [preparePageMapped]
      split_ifs <;> rfl

@[simp] theorem preparePage_storage (oobOnly : Bool) :
    (preparePage s oobOnly).2.storage = s.storage := by
  simp only [preparePage]
  cases h : preparePageInto s s.preparedPage oobOnly with
  | none => rfl
  | some result =>
    obtain ⟨s', page⟩ := result
    have hframe := preparePageInto_storage s h
    exact hframe

theorem doCmdReadWith_storage (oobOnly : Bool) (operation : Operation) (flags : Byte) :
    (doCmdReadWith s oobOnly operation flags).storage = s.storage := by
  have hframe := preparePage_storage s oobOnly
  simp only [doCmdReadWith]
  generalize preparePage s oobOnly = result at hframe
  rcases result with ⟨_ | _, s'⟩ <;> simpa using hframe

@[simp] theorem doCmdRead_storage : (doCmdRead s).storage = s.storage := by
  simp only [doCmdRead]
  cases decodeAccess (setOperation s .none).accessType <;>
    simp [doCmdReadWith_storage, setOperation_storage]

@[simp] theorem doCmdStop_storage : (doCmdStop s).storage = s.storage := by
  simp only [doCmdStop]
  cases s.currentOperation <;> simp

@[simp] theorem nextPage_storage : (nextPage s).storage = s.storage := by
  simp only [nextPage]
  split_ifs <;> simp

@[simp] theorem releaseBuffer_storage : (releaseBuffer s).storage = s.storage := rfl

@[simp] theorem beginTpc_storage : (beginTpc s).storage = s.storage := rfl
@[simp] theorem beginTpc_reg : (beginTpc s).reg = s.reg := rfl
@[simp] theorem beginTpc_accessType : (beginTpc s).accessType = s.accessType := rfl
@[simp] theorem beginTpc_blockIndex : (beginTpc s).blockIndex = s.blockIndex := rfl
@[simp] theorem beginTpc_page : (beginTpc s).page = s.page := rfl
@[simp] theorem beginTpc_logicalBlock : (beginTpc s).logicalBlock = s.logicalBlock := rfl
@[simp] theorem beginTpc_pagePending : (beginTpc s).pagePending = s.pagePending := rfl
@[simp] theorem beginTpc_preparedPage : (beginTpc s).preparedPage = s.preparedPage := rfl
@[simp] theorem beginTpc_cardImage : (beginTpc s).cardImage = s.cardImage := rfl
@[simp] theorem beginTpc_currentOperation :
    (beginTpc s).currentOperation = s.currentOperation := rfl

@[simp] theorem keepPage_storage (dataIn : ℕ → Byte) : (keepPage s dataIn).storage = s.storage :=
  rfl

@[simp] theorem readNextPage_storage : (readNextPage s).storage = s.storage := by
  have hframe := preparePage_storage (setReg s pageOffset (s.page + 1#8)) false
  simp only [readNextPage]
  generalize preparePage (setReg s pageOffset (s.page + 1#8)) false = result at hframe
  rcases result with ⟨_ | _, s'⟩ <;> simpa using hframe

theorem finishReadTpc_storage {s' : MemoryStick} (h : finishReadTpc s = some s') :
    s'.storage = s.storage := by
  simp only [finishReadTpc] at h
  split_ifs at h with hpage
  · cases h
    rfl
  · cases hop : s.currentOperation <;> simp only [hop, reduceCtorEq, Option.some.injEq] at h
    all_goals
      rw [← h]
      simp

@[simp] theorem tpcSetRegsWindow_storage (dataInCount : ℕ) (dataIn : ℕ → Byte) :
    (tpcSetRegsWindow s dataInCount dataIn).storage = s.storage := by
  simp only [tpcSetRegsWindow]
  split_ifs <;> rfl

@[simp] theorem tpcRegsWrite_storage (dataInCount : ℕ) (dataIn : ℕ → Byte) :
    (tpcRegsWrite s dataInCount dataIn).storage = s.storage := by
  simp only [tpcRegsWrite]
  split_ifs <;> rfl

@[simp] theorem tpcRegsRead_storage : (tpcRegsRead s).storage = s.storage := by
  simp only [tpcRegsRead]
  split_ifs <;> rfl

@[simp] theorem tpcReadLongData_storage : (tpcReadLongData s).storage = s.storage := by
  simp only [tpcReadLongData]
  cases s.currentOperation <;> rfl

end Frames

/-- What `ProgramPage` does to the storage. -/
def Storage.program (st : Storage) (block : ℕ) (page : Byte) (logicalBlock : BitVec 16)
    (data : ℕ → Byte) : Storage :=
  match st.cardImage with
  | none => st
  | some image =>
    let logicalPage := logicalBlock.toNat * st.pagesPerBlock.toNat + page.toNat
    if block ≥ st.segments.toNat * 512 then st
    else if page ≥ st.pagesPerBlock then st
    else if logicalPage ≥ image.blocksTotal then st
    else
      { st with
        cardImage := some (image.write data logicalPage 1).2
        blockMap :=
          if page = 0#8 then
            Function.update st.blockMap (BitVec.ofNat 16 block).toNat logicalBlock
          else st.blockMap }

/-- What `EraseBlock` does to the storage. -/
def Storage.erase (st : Storage) (block : ℕ) : Storage :=
  if block ≥ st.segments.toNat * 512 then st
  else
    { st with blockMap := Function.update st.blockMap (BitVec.ofNat 16 block).toNat 0xffff#16 }

section

variable (s : MemoryStick)

include s

theorem storePage_storage (image : CardImage) (data : ℕ → Byte) : (storePage s image data).storage =
      { s.storage with
        cardImage := some (image.write data s.logicalPage 1).2
        blockMap :=
          if s.page = 0#8 then
            Function.update s.blockMap (BitVec.ofNat 16 s.blockIndex).toNat s.logicalBlock
          else s.blockMap } := by
  by_cases hzero : s.page = 0#8
  · simp only [storePage, if_pos hzero]
    rfl
  · simp only [storePage, if_neg hzero]
    rfl

theorem programPage_storage (data : ℕ → Byte) : (programPage s data).2.storage =
      s.storage.program s.blockIndex s.page s.logicalBlock data := by
  have hst : s.storage.cardImage = s.cardImage := rfl
  unfold programPage Storage.program
  rw [hst]
  cases s.cardImage with
  | none => rfl
  | some image =>
    dsimp only
    by_cases hblock : s.blockIndex ≥ blocksTotal s
    · rw [if_pos hblock]
      exact (if_pos hblock).symm
    · rw [if_neg hblock, if_neg (show ¬ s.blockIndex ≥ s.storage.segments.toNat * 512 from hblock)]
      by_cases hpage : s.page ≥ s.pagesPerBlock
      · rw [if_pos hpage]
        exact (if_pos hpage).symm
      · rw [if_neg hpage, if_neg (show ¬ s.page ≥ s.storage.pagesPerBlock from hpage)]
        by_cases hlogical : s.logicalPage ≥ image.blocksTotal
        · rw [if_pos hlogical]
          exact (if_pos hlogical).symm
        · rw [if_neg hlogical, storePage_storage]
          exact (if_neg hlogical).symm

theorem eraseBlock_storage : (eraseBlock s).2.storage = s.storage.erase s.blockIndex := by
  by_cases hblock : s.blockIndex ≥ blocksTotal s
  · rw [eraseBlock, if_pos hblock]
    exact (if_pos hblock).symm
  · rw [eraseBlock, if_neg hblock]
    exact (if_neg hblock).symm

@[simp] theorem tpcGetInt_storage : (tpcGetInt s).storage = s.storage := rfl

theorem doCmdProgram_storage : (doCmdProgram s).storage =
      if decodeAccess s.accessType = .page ∧ s.pagePending then
        s.storage.program s.blockIndex s.page s.logicalBlock s.preparedPage
      else s.storage := by
  simp only [doCmdProgram]
  cases decodeAccess s.accessType with
  | page =>
    cases hpending : s.pagePending with
    | true =>
      simp only [if_true, setFlags_storage, programPage_storage, and_self]
      rfl
    | false => simp
  | block | oobOnly | oobOnlyNoEec | other => all_goals simp

theorem tpcWriteLongData_storage (dataInCount : ℕ) (dataIn : ℕ → Byte) :
    (tpcWriteLongData s dataInCount dataIn).storage =
      if dataInCount = 512 ∧
          (s.currentOperation = .programMulti ∨ s.currentOperation = .programOne) then
        s.storage.program s.blockIndex s.page s.logicalBlock dataIn
      else s.storage := by
  simp only [tpcWriteLongData]
  by_cases hcount : dataInCount = 512
  · rw [if_neg (not_not.mpr hcount)]
    cases s.currentOperation <;> simp [hcount, programPage_storage]
  · grind [setFlags_storage]

theorem doCmd_storage (commandByte : Byte) : (doCmd s commandByte).storage =
      match decodeCmd commandByte with
      | .program => (doCmdProgram s).storage
      | .erase => s.storage.erase s.blockIndex
      | _ => s.storage := by
  simp only [doCmd]
  cases decodeCmd commandByte <;> simp [eraseBlock_storage]

theorem setCmd_storage (dataInCount : ℕ) (dataIn : ℕ → Byte) :
    (if dataInCount ≠ 1 then setFlags s statusErr else doCmd s (dataIn 0)).storage =
      if dataInCount = 1 ∧ decodeCmd (dataIn 0) = .program ∧
          decodeAccess s.accessType = .page ∧ s.pagePending then
        s.storage.program s.blockIndex s.page s.logicalBlock s.preparedPage
      else if dataInCount = 1 ∧ decodeCmd (dataIn 0) = .erase then s.storage.erase s.blockIndex
      else s.storage := by
  by_cases hcount : dataInCount = 1
  · rw [if_neg (not_not.mpr hcount), doCmd_storage]
    cases decodeCmd (dataIn 0) <;> simp [hcount, doCmdProgram_storage]
  · grind [setFlags_storage]

end

theorem step_storage {s s' : MemoryStick} {op : Op} (h : step s op = some s') :
    s'.storage =
      match op.programmed s with
      | some page => s.storage.program s.blockIndex s.page s.logicalBlock page
      | none => if op.erases s then s.storage.erase s.blockIndex else s.storage := by
  cases op with
  | finishRead => exact finishReadTpc_storage s h
  | reset =>
    cases h
    rfl
  | tpc tpcId dataInCount dataIn =>
    cases h
    by_cases hcard : s.cardImage.isNone
    · have hsome : ¬ s.cardImage.isSome := by simpa using hcard
      simp only [executeTpc, Op.programmed, Op.erases, if_pos hcard, hsome]
      rfl
    · have hsome : s.cardImage.isSome := by simpa [Option.isSome_iff_ne_none] using hcard
      simp only [executeTpc, dispatchTpc, Op.programmed, Op.erases, if_neg hcard, hsome, true_and]
      cases decodeTpc tpcId with
      | setCmd =>
        rw [setCmd_storage]
        by_cases hprogram : dataInCount = 1 ∧ decodeCmd (dataIn 0) = .program ∧
            decodeAccess s.accessType = .page ∧ s.pagePending = true
        · refine (if_pos hprogram).trans ?_
          rw [if_pos hprogram]
          rfl
        · refine (if_neg hprogram).trans ?_
          rw [if_neg hprogram]
          simp only [true_and]
          rfl
      | writeLongData =>
        rw [tpcWriteLongData_storage]
        by_cases hwrite : dataInCount = 512 ∧
            (s.currentOperation = .programMulti ∨ s.currentOperation = .programOne)
        · refine (if_pos hwrite).trans ?_
          rw [if_pos hwrite]
          rfl
        · refine (if_neg hwrite).trans ?_
          rw [if_neg hwrite]
          rfl
      | _ => simp

/-- The first `count` pages of a block, at the logical number that its physical block maps to. -/
structure Stored (st : Storage) (block : ℕ) (logicalBlock : BitVec 16) (pages : ℕ → ℕ → Byte)
    (count : ℕ) : Prop where
  segments_le : st.segments.toNat ≤ 16
  block_lt : block < st.segments.toNat * 512
  count_le : count ≤ st.pagesPerBlock.toNat
  image_data : ∃ image, st.cardImage = some image ∧
    (logicalBlock.toNat + 1) * st.pagesPerBlock.toNat ≤ image.blocksTotal ∧
    ∀ page < count, ∀ i < blockSize,
      image.data ((logicalBlock.toNat * st.pagesPerBlock.toNat + page) * blockSize + i) =
        pages page i
  mapped : 0 < count → st.blockMap block = logicalBlock

variable {st : Storage} {block block' : ℕ} {logicalBlock logicalBlock' : BitVec 16}
  {pages : ℕ → ℕ → Byte} {count : ℕ}

theorem writeBlock_data_of_ne {image : CardImage} {source : ℕ → Byte} {index other i : ℕ}
    (hne : other ≠ index) (hi : i < blockSize) :
    (image.writeBlock source index index).data (other * blockSize + i) =
      image.data (other * blockSize + i) := by
  rw [CardImage.writeBlock]
  simp only []
  apply Buffer.copy_outside
  rw [blockSize] at hi ⊢
  omega

theorem writeBlock_data_self {image : CardImage} {source : ℕ → Byte} {index i : ℕ}
    (hi : i < blockSize) :
    (image.writeBlock source index index).data (index * blockSize + i) = source i := by
  rw [CardImage.writeBlock]
  simp only []
  rw [Buffer.copy_inside (by omega) (by omega), Nat.sub_self, Nat.zero_mul, Nat.zero_add,
    Nat.add_sub_cancel_left]

theorem toNat_ofNat_block (hsegments : st.segments.toNat ≤ 16)
    (hblock : block < st.segments.toNat * 512) : (BitVec.ofNat 16 block).toNat = block := by
  rw [BitVec.toNat_ofNat, Nat.mod_eq_of_lt (by omega)]

theorem logicalPage_ne {n page page' : ℕ} (hne : logicalBlock' ≠ logicalBlock) (hpage : page < n)
    (hpage' : page' < n) :
    logicalBlock.toNat * n + page ≠ logicalBlock'.toNat * n + page' := by
  intro heq
  apply hne
  apply BitVec.eq_of_toNat_eq
  have hdiv := congrArg (· / n) heq
  have hn : 0 < n := by omega
  simpa [Nat.mul_comm _ n, Nat.mul_add_div hn, Nat.div_eq_of_lt hpage,
    Nat.div_eq_of_lt hpage'] using hdiv.symm

section

variable (h : Stored st block logicalBlock pages count)

include h

theorem Stored.erase_of_ne (hne : block' ≠ block) :
    Stored (st.erase block') block logicalBlock pages count := by
  rw [Storage.erase]
  split_ifs with hblock
  · exact h
  · refine ⟨h.segments_le, h.block_lt, h.count_le, h.image_data, ?_⟩
    intro hpos
    have hnumber := toNat_ofNat_block h.segments_le (show block' < _ by omega)
    simp only [hnumber]
    rw [Function.update_of_ne hne.symm]
    exact h.mapped hpos

theorem Stored.program_of_ne (hblock : block' ≠ block) (hlogical : logicalBlock' ≠ logicalBlock)
    (page : Byte) (data : ℕ → Byte) :
    Stored (st.program block' page logicalBlock' data) block logicalBlock pages count := by
  obtain ⟨image, himage, hbound, hdata⟩ := h.image_data
  rw [Storage.program, himage]
  dsimp only
  split_ifs with hin hpage hlast hzero
  · exact h
  · exact h
  · exact h
  all_goals
    have hpage' : page.toNat < st.pagesPerBlock.toNat := Nat.lt_of_not_le hpage
    refine ⟨h.segments_le, h.block_lt, h.count_le, ⟨_, rfl, ?_, ?_⟩, ?_⟩
    · rwa [CardImage.write_one (Nat.lt_of_not_le hlast)]
    · intro p hp i hi
      have hcount := h.count_le
      rw [CardImage.write_one (Nat.lt_of_not_le hlast),
        writeBlock_data_of_ne (logicalPage_ne hlogical (by omega) hpage') hi]
      exact hdata p hp i hi
  · intro hpos
    have hnumber := toNat_ofNat_block h.segments_le (Nat.lt_of_not_le hin)
    simp only [hnumber]
    rw [Function.update_of_ne hblock.symm]
    exact h.mapped hpos
  · exact h.mapped

theorem Stored.program_next {page : Byte} (hpage : page.toNat = count)
    (hcount : count < st.pagesPerBlock.toNat) {data : ℕ → Byte}
    (hdata : ∀ i < blockSize, data i = pages count i) :
    Stored (st.program block page logicalBlock data) block logicalBlock pages (count + 1) := by
  obtain ⟨image, himage, hbound, hstored⟩ := h.image_data
  have hlast : logicalBlock.toNat * st.pagesPerBlock.toNat + page.toNat < image.blocksTotal := by
    grind
  have hpage' : ¬ page ≥ st.pagesPerBlock := by
    apply Nat.not_le_of_lt
    show page.toNat < st.pagesPerBlock.toNat
    omega
  rw [Storage.program, himage]
  dsimp only
  rw [if_neg (Nat.not_le_of_lt h.block_lt), if_neg hpage', if_neg (Nat.not_le_of_lt hlast),
    CardImage.write_one hlast]
  refine ⟨h.segments_le, h.block_lt, hcount, ⟨_, rfl, hbound, ?_⟩, ?_⟩
  · intro p hp i hi
    rw [hpage]
    by_cases hlt : p = count
    · subst hlt
      rw [writeBlock_data_self hi]
      exact hdata i hi
    · rw [writeBlock_data_of_ne (by simp only [ne_eq]; omega) hi]
      exact hstored p (by omega) i hi
  · intro _
    by_cases hzero : page = 0#8
    · simp [if_pos hzero, toNat_ofNat_block h.segments_le h.block_lt, Function.update_self]
    · simp only [if_neg hzero]
      apply h.mapped
      apply Nat.pos_of_ne_zero
      intro hcount0
      apply hzero
      apply BitVec.eq_of_toNat_eq
      rw [hpage, hcount0]
      rfl

end

end Cloudpilot.Hardware.Stick
