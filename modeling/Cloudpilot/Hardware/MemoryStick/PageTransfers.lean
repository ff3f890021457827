import Cloudpilot.Hardware.MemoryStick.Protocol

/-! # Programming a block

Block access mode stores the pages of a block one after the other. In page access
mode a page that is still pending goes first, and every page of the block lands one
page late.
-/

namespace Cloudpilot.Hardware.Stick

open Cloudpilot.Library Cloudpilot.Common

section

variable {s s' : MemoryStick} {block : ℕ} {logicalBlock : BitVec 16} {pages : ℕ → ℕ → Byte}
  {count : ℕ}

theorem Stored.isSome (h : Stored s.storage block logicalBlock pages count) :
    s.cardImage.isSome := by
  obtain ⟨image, himage, -⟩ := h.image_data
  have hcard : s.cardImage = some image := himage
  simp [hcard]

theorem Stored.congr {st st' : Storage} (h : Stored st block logicalBlock pages count)
    (heq : st' = st) : Stored st' block logicalBlock pages count :=
  heq ▸ h

/-- A block program after some of its pages. -/
structure BlockProgress (s : MemoryStick) (block : ℕ) (logicalBlock : BitVec 16)
    (pages : ℕ → ℕ → Byte) (count : ℕ) : Prop where
  stored : Stored s.storage block logicalBlock pages count
  block : s.blockIndex = block
  logical : s.logicalBlock = logicalBlock
  page : s.page.toNat = count
  operation : count < s.pagesPerBlock.toNat → s.currentOperation = .programMulti

theorem nextPage_blockIndex (s : MemoryStick) : (nextPage s).blockIndex = s.blockIndex := by
  simp only [nextPage]
  split_ifs <;> simp

theorem nextPage_logicalBlock (s : MemoryStick) : (nextPage s).logicalBlock = s.logicalBlock := by
  simp only [nextPage]
  split_ifs <;> simp

theorem nextPage_page (s : MemoryStick) : (nextPage s).page = s.page + 1#8 := by
  simp only [nextPage]
  split_ifs <;> simp

theorem nextPage_currentOperation (s : MemoryStick) (h : s.page + 1#8 < s.pagesPerBlock) :
    (nextPage s).currentOperation = s.currentOperation := by
  have hlt : (setReg s pageOffset (s.page + 1#8)).page <
      (setReg s pageOffset (s.page + 1#8)).pagesPerBlock := by
    exact h
  simp only [nextPage, if_pos hlt, setFlags_currentOperation]
  rfl

theorem BlockProgress.next (h : BlockProgress s block logicalBlock pages count)
    (hcount : count < s.pagesPerBlock.toNat) :
    BlockProgress (writePage s (pages count)) block logicalBlock pages (count + 1) := by
  have hwrite := writePage_mounted h.stored.isSome (pages count)
  rw [h.operation hcount] at hwrite
  obtain ⟨hreg, hop, -, hppb⟩ := programPage_frame (beginTpc s) (pages count)
  have hblock : (programPage (beginTpc s) (pages count)).2.blockIndex = s.blockIndex := by
    simp only [MemoryStick.blockIndex, hreg]
    rfl
  have hlogical : (programPage (beginTpc s) (pages count)).2.logicalBlock = s.logicalBlock := by
    simp only [MemoryStick.logicalBlock, MemoryStick.oob, hreg]
    rfl
  have hpage : (programPage (beginTpc s) (pages count)).2.page = s.page := by
    simp only [MemoryStick.page, hreg]
    rfl
  have hnext : (s.page + 1#8).toNat = count + 1 := by
    have hp := h.page
    rw [BitVec.toNat_add, hp]
    show (count + 1) % 256 = count + 1
    omega
  rw [hwrite]
  refine ⟨?_, ?_, ?_, ?_, ?_⟩
  · rw [nextPage_storage, programPage_storage, beginTpc_storage, beginTpc_blockIndex,
      beginTpc_page, beginTpc_logicalBlock, h.block, h.logical]
    exact h.stored.program_next h.page hcount fun _ _ => rfl
  · rw [nextPage_blockIndex, hblock, h.block]
  · rw [nextPage_logicalBlock, hlogical, h.logical]
  · rw [nextPage_page, hpage, hnext]
  · intro hlt
    have hppb' := executeTpc_pagesPerBlock s 0x0d#8 512 (pages count)
    rw [← writePage, hwrite] at hppb'
    rw [hppb'] at hlt
    rw [nextPage_currentOperation, hop]
    · exact h.operation hcount
    · rw [hpage, hppb]
      show (s.page + 1#8).toNat < s.pagesPerBlock.toNat
      omega

theorem writePages_pagesPerBlock (pages : ℕ → ℕ → Byte) (count : ℕ) (s : MemoryStick) :
    (writePages pages count s).pagesPerBlock = s.pagesPerBlock := by
  induction count with
  | zero => rfl
  | succ count ih => exact (executeTpc_pagesPerBlock _ _ _ _).trans ih

theorem BlockProgress.writePages (h : BlockProgress s block logicalBlock pages 0)
    (hcount : count ≤ s.pagesPerBlock.toNat) :
    BlockProgress (writePages pages count s) block logicalBlock pages count := by
  induction count with
  | zero => exact h
  | succ count ih =>
    apply BlockProgress.next (ih (by omega))
    rw [writePages_pagesPerBlock]
    omega

theorem programmed_block {s₁ : MemoryStick}
    (hstored : Stored s₁.storage block logicalBlock pages 0)
    (haddressed : Addressed s₁ block .block 0) (hlogical : s₁.logicalBlock = logicalBlock) :
    Stored (writePages pages s₁.pagesPerBlock.toNat (programCmd s₁)).storage block logicalBlock pages
      s₁.pagesPerBlock.toNat := by
  have hcmd := programCmd_block hstored.isSome haddressed.access
  have hstart : BlockProgress (programCmd s₁) block logicalBlock pages 0 := by
    rw [hcmd]
    refine ⟨?_, ?_, ?_, ?_, ?_⟩
    · exact hstored.congr (by simp)
    · simp [haddressed.block]
    · simp [hlogical]
    · simp [haddressed.page]
    · simp [setOperation]
  apply (hstart.writePages _).stored
  rw [programCmd, executeTpc_pagesPerBlock]

theorem programmed_page_next {s₁ : MemoryStick}
    (hstored : Stored s₁.storage block logicalBlock pages count)
    (hpending : s₁.pagePending = false) (hcount : count < s₁.pagesPerBlock.toNat)
    (haddressed : Addressed s₁ block .page count) (hlogical : s₁.logicalBlock = logicalBlock) :
    Stored (writePage (programCmd s₁) (pages count)).storage block logicalBlock pages (count + 1) ∧
      (writePage (programCmd s₁) (pages count)).pagePending = false := by
  have hcmd := programCmd_page hstored.isSome haddressed.access hpending
  have hstored' : Stored (programCmd s₁).storage block logicalBlock pages count := by
    rw [hcmd]
    exact hstored.congr (by simp)
  have hwrite := writePage_mounted hstored'.isSome (pages count)
  have hop : (programCmd s₁).currentOperation = .programOne := by
    rw [hcmd, setFlags_currentOperation]
    rfl
  rw [hop] at hwrite
  rw [hwrite]
  constructor
  · have hblock : (programCmd s₁).blockIndex = block := by
      rw [hcmd]
      simp [haddressed.block]
    have hlog : (programCmd s₁).logicalBlock = logicalBlock := by
      rw [hcmd]
      simp [hlogical]
    have hpage : (programCmd s₁).page.toNat = count := by
      rw [hcmd]
      simp [haddressed.page]
    rw [setFlags_storage, setOperation_storage, programPage_storage, beginTpc_storage,
      beginTpc_blockIndex, beginTpc_page, beginTpc_logicalBlock, hblock, hlog]
    apply hstored'.program_next hpage _ fun _ _ => rfl
    have hppb := executeTpc_pagesPerBlock s₁ 0x0e#8 1 fun _ => 0x55#8
    show count < (programCmd s₁).pagesPerBlock.toNat
    rwa [programCmd, hppb]
  · have hframe := (programPage_frame (beginTpc (programCmd s₁)) (pages count)).2.2.1
    show (programPage (beginTpc (programCmd s₁)) (pages count)).2.pagePending = false
    rwa [hframe, beginTpc_pagePending, hcmd, setFlags_pagePending]

theorem PagesProgrammed.pagesPerBlock
    (h : PagesProgrammed block logicalBlock pages count s s') :
    s'.pagesPerBlock = s.pagesPerBlock := by
  induction h with
  | zero => rfl
  | succ before setup addressed logical ih =>
    exact ((executeTpc_pagesPerBlock _ _ _ _).trans (executeTpc_pagesPerBlock _ _ _ _)).trans
      (setup.pagesPerBlock.trans ih)

theorem PagesProgrammed.stored (h : PagesProgrammed block logicalBlock pages count s s')
    (hstored : Stored s.storage block logicalBlock pages 0) (hpending : s.pagePending = false)
    (hcount : count ≤ s.pagesPerBlock.toNat) :
    Stored s'.storage block logicalBlock pages count ∧ s'.pagePending = false := by
  induction h with
  | zero => exact ⟨hstored, hpending⟩
  | succ before setup addressed logical ih =>
    obtain ⟨hbefore, hnone⟩ := ih hstored hpending (by omega)
    apply programmed_page_next (hbefore.congr setup.frame.storage)
      (setup.frame.pagePending.trans hnone) _ addressed logical
    rw [setup.pagesPerBlock, before.pagesPerBlock]
    omega

def late (pending : ℕ → Byte) (pages : ℕ → ℕ → Byte) : ℕ → ℕ → Byte
  | 0 => pending
  | page + 1 => pages page

theorem programmed_page_pending {s₁ : MemoryStick} {stored : ℕ → ℕ → Byte} {data : ℕ → Byte}
    (hstored : Stored s₁.storage block logicalBlock stored count)
    (hpending : s₁.pagePending = true) (hcount : count < s₁.pagesPerBlock.toNat)
    (hdata : ∀ i < blockSize, s₁.preparedPage i = stored count i)
    (haddressed : Addressed s₁ block .page count) (hlogical : s₁.logicalBlock = logicalBlock) :
    Stored (writePage (programCmd s₁) data).storage block logicalBlock stored (count + 1) ∧
      (writePage (programCmd s₁) data).pagePending = true ∧
      ∀ i < blockSize, (writePage (programCmd s₁) data).preparedPage i = data i := by
  have hcmd := programCmd_pending hstored.isSome haddressed.access hpending
  have hop : (programCmd s₁).currentOperation = .none := by
    rw [hcmd, setFlags_currentOperation, (programPage_frame _ _).2.1]
    rfl
  have hstored' : Stored (programCmd s₁).storage block logicalBlock stored (count + 1) := by
    rw [hcmd, setFlags_storage, programPage_storage]
    have hnext := hstored.program_next haddressed.page hcount hdata
    rw [← haddressed.block, ← hlogical] at hnext ⊢
    exact hnext
  have hwrite := writePage_mounted hstored'.isSome data
  rw [hop] at hwrite
  rw [hwrite]
  refine ⟨hstored'.congr (by simp), by rw [setFlags_pagePending]; rfl, ?_⟩
  intro i hi
  exact Buffer.copy_zero hi

theorem PagesProgrammed.stored_late (h : PagesProgrammed block logicalBlock pages count s s')
    (hstored : Stored s.storage block logicalBlock (late s.preparedPage pages) 0)
    (hpending : s.pagePending = true) (hcount : count ≤ s.pagesPerBlock.toNat) :
    Stored s'.storage block logicalBlock (late s.preparedPage pages) count ∧
      s'.pagePending = true ∧
      ∀ i < blockSize, s'.preparedPage i = late s.preparedPage pages count i := by
  induction h with
  | zero => exact ⟨hstored, hpending, fun _ _ => rfl⟩
  | succ before setup addressed logical ih =>
    obtain ⟨hbefore, hsome, hpage⟩ := ih hstored hpending (by omega)
    refine programmed_page_pending (hbefore.congr setup.frame.storage)
      (setup.frame.pagePending.trans hsome) ?_ ?_ addressed logical
    · rw [setup.pagesPerBlock, before.pagesPerBlock]
      omega
    · grind [setup.frame.preparedPage]

end

variable {s s' : MemoryStick} {block : ℕ} {logicalBlock : BitVec 16} {pages : ℕ → ℕ → Byte}
  {count : ℕ}

/-- The page that the next read transfer hands out. -/
structure PageReady (s : MemoryStick) (block : ℕ) (logicalBlock : BitVec 16) (number : ℕ)
    (page : ℕ → Byte) : Prop where
  block : s.blockIndex = block
  number : s.page.toNat = number
  logical : s.logicalBlock = logicalBlock
  page : ∀ i < blockSize, s.preparedPage i = page i

theorem append_bytes (x : BitVec 16) :
    BitVec.ofNat 8 (x.toNat / 256) ++ BitVec.ofNat 8 x.toNat = x := by
  apply BitVec.eq_of_toNat_eq
  rw [BitVec.toNat_append, BitVec.toNat_ofNat, BitVec.toNat_ofNat,
    ← Nat.shiftLeft_add_eq_or_of_lt (Nat.mod_lt _ (by decide)), Nat.shiftLeft_eq]
  omega

theorem preparePageMapped_ready {image : CardImage} (himage : s.cardImage = some image)
    (hstored : Stored s.storage block logicalBlock pages s.pagesPerBlock.toNat)
    (hlogical : logicalBlock ≠ 0xffff#16) (haddress : s.blockIndex = block)
    (hnumber : s.page.toNat = count) (hcount : count < s.pagesPerBlock.toNat) :
    let result := preparePageMapped s image s.preparedPage false
    result.1.blockIndex = block ∧ result.1.page.toNat = count ∧
      result.1.logicalBlock = logicalBlock ∧ (∀ i < blockSize, result.2 i = pages count i) ∧
      result.1.currentOperation = s.currentOperation := by
  have hmap : s.blockMap s.blockIndex = logicalBlock := by
    rw [haddress]
    exact hstored.mapped (by omega)
  obtain ⟨image', himage', hbound, hdata⟩ := hstored.image_data
  have hsame : image' = image := by
    have hsome : s.cardImage = some image' := himage'
    rw [himage] at hsome
    exact (Option.some.inj hsome).symm
  subst hsame
  simp only [preparePageMapped, hmap, if_neg hlogical, Bool.false_eq_true, if_false]
  rw [setOob_blockIndex, setOob_page, setOob_logicalBlock, append_bytes]
  refine ⟨haddress, hnumber, rfl, ?_, rfl⟩
  intro i hi
  have hin : logicalBlock.toNat * s.pagesPerBlock.toNat + s.page.toNat < image'.blocksTotal := by
    have hbound' : (logicalBlock.toNat + 1) * s.pagesPerBlock.toNat ≤ image'.blocksTotal := hbound
    rw [Nat.add_mul, Nat.one_mul] at hbound'
    omega
  rw [CardImage.read_one hin hi, hnumber]
  exact hdata count hcount i hi

theorem preparePage_ready (hstored : Stored s.storage block logicalBlock pages s.pagesPerBlock.toNat)
    (hblock : 2 ≤ block) (hlogical : logicalBlock ≠ 0xffff#16) (haddress : s.blockIndex = block)
    (hnumber : s.page.toNat = count) (hcount : count < s.pagesPerBlock.toNat) :
    ∃ s', preparePage s false = (true, s') ∧ PageReady s' block logicalBlock count (pages count) ∧
      s'.storage = s.storage ∧ s'.currentOperation = s.currentOperation := by
  obtain ⟨image, himage⟩ := Option.isSome_iff_exists.mp hstored.isSome
  have hready := preparePageMapped_ready himage hstored hlogical haddress hnumber hcount
  have hvalid : ¬ (s.page ≥ s.pagesPerBlock ∨ s.blockIndex ≥ blocksTotal s) := by
    rintro (hge | hge)
    · have hle : s.pagesPerBlock.toNat ≤ s.page.toNat := hge
      omega
    · rw [haddress] at hge
      exact absurd hstored.block_lt (Nat.not_lt_of_le hge)
  have hboot : ¬ (s.blockIndex = 0 ∨ s.blockIndex = 1) := by omega
  have hinto : preparePageInto s s.preparedPage false =
      some (preparePageMapped s image s.preparedPage false) := by
    rw [preparePageInto, himage]
    dsimp only
    rw [if_neg hvalid, if_neg hboot]
  generalize preparePageMapped s image s.preparedPage false = result at hready hinto
  obtain ⟨s', page⟩ := result
  obtain ⟨haddress', hnumber', hlogical', hpage, hop⟩ := hready
  have hstorage := preparePageInto_storage s hinto
  refine ⟨{ s' with preparedPage := page, pagePending := true }, ?_,
    ⟨haddress', hnumber', hlogical', hpage⟩, hstorage, hop⟩
  rw [preparePage, hinto]

theorem readPage_mounted (hcard : s.cardImage.isSome)
    (hop : s.currentOperation = .readOne ∨ s.currentOperation = .readMulti) :
    readPage s = setFlags (handOutPage (beginTpc s)) 0#8 := by
  rw [readPage, executeTpc_mounted hcard, ← clearFlags_eq]
  show tpcReadLongData (beginTpc s) = _
  rcases hop with hop | hop <;> simp [tpcReadLongData, beginTpc_currentOperation, hop]

theorem PageReady.reads {page : ℕ → Byte} (h : PageReady s block logicalBlock count page)
    (hcard : s.cardImage.isSome)
    (hop : s.currentOperation = .readOne ∨ s.currentOperation = .readMulti) :
    Reads s logicalBlock page := by
  rw [Reads, readPage_mounted hcard hop]
  refine ⟨rfl, ?_, ?_⟩
  · intro i hi
    have hpage := h.page i hi
    show some (s.preparedPage i) = some (page i)
    rw [hpage]
  · exact h.logical

theorem readCmd_ready {access : AccessType} {operation : Operation} (hmode :
      access = .block ∧ operation = .readMulti ∨ access = .page ∧ operation = .readOne)
    (hstored : Stored s.storage block logicalBlock pages s.pagesPerBlock.toNat)
    (hblock : 2 ≤ block) (hlogical : logicalBlock ≠ 0xffff#16)
    (haddressed : Addressed s block access count) (hcount : count < s.pagesPerBlock.toNat) :
    PageReady (readCmd s) block logicalBlock count (pages count) ∧
      (readCmd s).storage = s.storage ∧ (readCmd s).currentOperation = operation := by
  obtain ⟨s', hprepare, hready, hstorage, -⟩ :=
    preparePage_ready (s := setOperation (beginTpc s) .none) hstored hblock hlogical
      haddressed.block haddressed.page hcount
  have hcmd : ∃ flags, readCmd s = setFlags (setOperation s' operation) flags := by
    have haccess : decodeAccess (setOperation (beginTpc s) .none).accessType = access :=
      haddressed.access
    rw [readCmd, executeTpc_mounted hstored.isSome]
    show ∃ flags, doCmdRead (beginTpc s) = _
    rcases hmode with ⟨rfl, rfl⟩ | ⟨rfl, rfl⟩ <;> simp [doCmdRead, haccess, doCmdReadWith, hprepare]
  obtain ⟨flags, hcmd⟩ := hcmd
  rw [hcmd]
  refine ⟨⟨?_, ?_, ?_, ?_⟩, ?_, ?_⟩
  · simp [hready.block]
  · simp [hready.number]
  · simp [hready.logical]
  · intro i hi
    rw [setFlags_preparedPage]
    exact hready.page i hi
  · simp [hstorage]
  · rw [setFlags_currentOperation]
    rfl

/-- A block read after some of its pages. -/
structure ReadProgress (s : MemoryStick) (block : ℕ) (logicalBlock : BitVec 16)
    (pages : ℕ → ℕ → Byte) (count : ℕ) : Prop where
  stored : Stored s.storage block logicalBlock pages s.pagesPerBlock.toNat
  ready : PageReady s block logicalBlock count (pages count)
  operation : s.currentOperation = .readMulti

theorem readPage_frame (hcard : s.cardImage.isSome)
    (hop : s.currentOperation = .readOne ∨ s.currentOperation = .readMulti) :
    (readPage s).blockIndex = s.blockIndex ∧ (readPage s).page = s.page ∧
      (readPage s).storage = s.storage ∧ (readPage s).currentOperation = s.currentOperation ∧
      (readPage s).bufferOut = .preparedPage := by
  have hbuffer : (setFlags (handOutPage (beginTpc s)) 0#8).bufferOut = .preparedPage := by
    rfl
  rw [readPage_mounted hcard hop, setFlags_blockIndex, setFlags_page, setFlags_storage,
    setFlags_currentOperation]
  exact ⟨rfl, rfl, rfl, rfl, hbuffer⟩

theorem ReadProgress.next (h : ReadProgress s block logicalBlock pages count) (hblock : 2 ≤ block)
    (hlogical : logicalBlock ≠ 0xffff#16) (hcount : count + 1 < s.pagesPerBlock.toNat) :
    ∃ s', finishReadTpc (readPage s) = some s' ∧
      ReadProgress s' block logicalBlock pages (count + 1) ∧ s'.pagesPerBlock = s.pagesPerBlock := by
  obtain ⟨hindex, hpage, hstorage, hop, hbuffer⟩ :=
    readPage_frame h.stored.isSome (Or.inr h.operation)
  have hppb : (readPage s).pagesPerBlock = s.pagesPerBlock :=
    congrArg Storage.pagesPerBlock hstorage
  have hfinish : finishReadTpc (readPage s) = some (readNextPage (releaseBuffer (readPage s))) := by
    rw [finishReadTpc, if_neg (not_not.mpr hbuffer), hop, h.operation]
  have hnumber : (s.page + 1#8).toNat = count + 1 := by
    have hp := h.ready.number
    rw [BitVec.toNat_add, hp]
    show (count + 1) % 256 = count + 1
    omega
  generalize readPage s = r at *
  have hstored : Stored r.storage block logicalBlock pages r.pagesPerBlock.toNat := by
    rw [hstorage, hppb]
    exact h.stored
  have hindex' : (setReg (releaseBuffer r) pageOffset (s.page + 1#8)).blockIndex = block := by
    exact hindex.trans h.ready.block
  have hnumber' : (setReg (releaseBuffer r) pageOffset (s.page + 1#8)).page.toNat = count + 1 := by
    simp [hnumber]
  have hcount' : count + 1 < r.pagesPerBlock.toNat := by
    rwa [hppb]
  obtain ⟨s', hprepare, hready, hstorage', hop'⟩ :=
    preparePage_ready (s := setReg (releaseBuffer r) pageOffset (s.page + 1#8)) hstored hblock
      hlogical hindex' hnumber' hcount'
  have hsame : (setFlags s' statusReadyForTransfer).storage = s.storage := by
    rw [setFlags_storage, hstorage', setReg_storage, releaseBuffer_storage, hstorage]
  have hppb' : (setFlags s' statusReadyForTransfer).pagesPerBlock = s.pagesPerBlock :=
    congrArg Storage.pagesPerBlock hsame
  refine ⟨setFlags s' statusReadyForTransfer, ?_, ⟨?_, ⟨?_, ?_, ?_, ?_⟩, ?_⟩, hppb'⟩
  · have hrelease : (releaseBuffer r).page = s.page := hpage
    rw [hfinish, readNextPage, hrelease, hprepare]
  · rw [hsame, hppb']
    exact h.stored
  · exact hready.block
  · exact hready.number
  · exact hready.logical
  · intro i hi
    exact hready.page i hi
  · rw [setFlags_currentOperation, hop']
    exact hop.trans h.operation

theorem ReadProgress.readPages (h : ReadProgress s block logicalBlock pages 0) (hblock : 2 ≤ block)
    (hlogical : logicalBlock ≠ 0xffff#16) (hcount : count < s.pagesPerBlock.toNat) :
    ∃ s', readPages count s = some s' ∧ ReadProgress s' block logicalBlock pages count ∧
      s'.pagesPerBlock = s.pagesPerBlock := by
  induction count with
  | zero => exact ⟨s, rfl, h, rfl⟩
  | succ count ih =>
    obtain ⟨s₁, hrun, hprogress, hppb⟩ := ih (by omega)
    obtain ⟨s₂, hfinish, hnext, hppb'⟩ := hprogress.next hblock hlogical (by rw [hppb]; exact hcount)
    refine ⟨s₂, ?_, hnext, hppb'.trans hppb⟩
    rw [Stick.readPages, hrun, Option.bind_some, hfinish]

theorem Stored.readsBack (h : Stored s.storage block logicalBlock pages s.pagesPerBlock.toNat)
    (hblock : 2 ≤ block) (hlogical : logicalBlock ≠ 0xffff#16) :
    ReadsBack s block logicalBlock pages := by
  have hsetup : ∀ {s₁ : MemoryStick}, RegisterSetup s s₁ →
      Stored s₁.storage block logicalBlock pages s₁.pagesPerBlock.toNat := by
    intro s₁ hsetup
    rwa [hsetup.frame.storage, hsetup.pagesPerBlock]
  constructor
  · intro s₁ hset haddressed page hpage
    rw [← hset.pagesPerBlock] at hpage
    obtain ⟨hready, hstorage, hop⟩ := readCmd_ready (Or.inl ⟨rfl, rfl⟩) (hsetup hset) hblock hlogical
      haddressed (by omega)
    have hppb : (readCmd s₁).pagesPerBlock = s₁.pagesPerBlock :=
      congrArg Storage.pagesPerBlock hstorage
    have hstart : ReadProgress (readCmd s₁) block logicalBlock pages 0 := by
      refine ⟨?_, hready, hop⟩
      rw [hstorage, hppb]
      exact hsetup hset
    obtain ⟨s₂, hrun, hprogress, -⟩ :=
      hstart.readPages hblock hlogical (by rw [hppb]; exact hpage)
    exact ⟨s₂, hrun, hprogress.ready.reads hprogress.stored.isSome (Or.inr hprogress.operation)⟩
  · intro s₁ page hset haddressed hpage
    rw [← hset.pagesPerBlock] at hpage
    obtain ⟨hready, hstorage, hop⟩ := readCmd_ready (Or.inr ⟨rfl, rfl⟩) (hsetup hset) hblock hlogical
      haddressed hpage
    have hcard : (readCmd s₁).cardImage.isSome := by
      have hsome := (hsetup hset).isSome
      rwa [show (readCmd s₁).cardImage = s₁.cardImage from congrArg Storage.cardImage hstorage]
    exact hready.reads hcard (Or.inl hop)

end Cloudpilot.Hardware.Stick
