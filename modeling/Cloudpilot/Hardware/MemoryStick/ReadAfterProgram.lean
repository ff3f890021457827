import Cloudpilot.Hardware.MemoryStick.PageTransfers

/-! # Reading what has been programmed

Whatever the host does with other blocks after it has programmed one, reading that
block returns the pages that were programmed and its logical number. This holds for
both access modes, but in page access mode only if no page is pending at the start.
-/
namespace Cloudpilot.Hardware.Stick
open Cloudpilot.Library Cloudpilot.Common Option Nat

variable {s s' : MemoryStick} {block : ℕ} {logicalBlock : BitVec 16} {pages : ℕ → ℕ → Byte}
  {count : ℕ}

theorem step_stored {op : Op} (h : Stored s.storage block logicalBlock pages count)
    (hop : ¬ Disturbs block logicalBlock s op) (hstep : step s op = some s') :
    Stored s'.storage block logicalBlock pages count := by
  rw [step_storage hstep]
  rw [Disturbs, not_or] at hop
  cases hprogram : op.programmed s with
  | some page =>
    have hother : s.blockIndex ≠ block ∧ s.logicalBlock ≠ logicalBlock := by grind
    exact h.program_of_ne hother.1 hother.2 _ _
  | none =>
    split_ifs with herase
    · exact h.erase_of_ne fun heq => hop.2 ⟨herase, heq⟩
    · exact h

theorem run_stored {ops : List Op} (h : Stored s.storage block logicalBlock pages count)
    (hops : Undisturbed block logicalBlock s ops) (hrun : run s ops = some s') :
    Stored s'.storage block logicalBlock pages count := by
  induction ops generalizing s with
  | nil =>
    cases hrun
    exact h
  | cons op ops ih =>
    rw [run, List.foldlM_cons, bind_eq_bind, bind_eq_some_iff] at hrun
    obtain ⟨s₁, hstep, hrest⟩ := hrun
    exact ih (step_stored h hops.1 hstep) (hops.2 s₁ hstep) hrest

theorem run_pagesPerBlock {ops : List Op} (hrun : run s ops = some s') :
    s'.pagesPerBlock = s.pagesPerBlock := by
  induction ops generalizing s with
  | nil =>
    cases hrun
    rfl
  | cons op ops ih =>
    rw [run, List.foldlM_cons, bind_eq_bind, bind_eq_some_iff] at hrun
    obtain ⟨s₁, hstep, hrest⟩ := hrun
    exact (ih hrest).trans (step_layout op hstep).2

theorem append_address {b : ℕ} (hb : b < 2 ^ 24) :
    (BitVec.ofNat 8 (b / 2 ^ 16) ++ BitVec.ofNat 8 (b / 2 ^ 8) ++ BitVec.ofNat 8 b).toNat = b := by
  rw [BitVec.toNat_append, BitVec.toNat_append, BitVec.toNat_ofNat, BitVec.toNat_ofNat,
    BitVec.toNat_ofNat, ← shiftLeft_add_eq_or_of_lt (mod_lt _ (by decide)),
    ← shiftLeft_add_eq_or_of_lt (mod_lt _ (by decide)), shiftLeft_eq, shiftLeft_eq]
  omega

theorem tpcRegsWrite_window (s : MemoryStick) (regs : ℕ → Byte)
    (hstart : s.writeWindowStart = 0x10#8) (hsize : s.writeWindowSize = 15#8) {i : ℕ} (hi : 16 ≤ i)
    (hi' : i < 31) : (tpcRegsWrite s 15 regs).reg i = regs (i - 16) := by
  have hcopy : tpcRegsWrite s 15 regs = clearFlags { s with reg := Buffer.copy s.reg 16 regs 15 } := by
    simp only [tpcRegsWrite, hstart, hsize]
    rfl
  rw [hcopy, clearFlags_eq, setFlags_reg (by rw [intFlagsOffset]; omega)]
  exact Buffer.copy_inside hi hi'

theorem run_addressOps (hcard : s.cardImage.isSome) (hblock : block < 2 ^ 24) (access page : Byte)
    (logicalBlock : BitVec 16) :
    ∃ s₁, run s (addressOps block access page logicalBlock) = some s₁ ∧
      Addressed s₁ block (decodeAccess access) page.toNat ∧
      s₁.logicalBlock = logicalBlock ∧ s₁.cardImage.isSome := by
  obtain ⟨window, regs, hops, hregs⟩ : ∃ window regs, addressOps block access page logicalBlock =
      [.tpc 0x08#8 4 window, .tpc 0x0b#8 15 regs] ∧ window 2 = 0x10#8 ∧ window 3 = 15#8 ∧
      regs 1 = BitVec.ofNat 8 (block / 2 ^ 16) ∧ regs 2 = BitVec.ofNat 8 (block / 2 ^ 8) ∧
      regs 3 = BitVec.ofNat 8 block ∧ regs 4 = access ∧ regs 5 = page ∧
      regs 8 = BitVec.ofNat 8 (logicalBlock.toNat / 256) ∧
      regs 9 = BitVec.ofNat 8 logicalBlock.toNat :=
    ⟨_, _, rfl, rfl, rfl, rfl, rfl, rfl, rfl, rfl, rfl, rfl⟩
  obtain ⟨hstart, hsize, hhi, hmid, hlo, haccess, hpage, hlogicalHi, hlogicalLo⟩ := hregs
  have hwindow : executeTpc s 0x08#8 4 window = tpcSetRegsWindow (beginTpc s) 4 window :=
    executeTpc_mounted hcard
  have hcard₁ : (tpcSetRegsWindow (beginTpc s) 4 window).cardImage.isSome := by
    rw [← hwindow]
    exact step_isSome (.tpc 0x08#8 4 window) rfl hcard
  have hwrite : executeTpc (tpcSetRegsWindow (beginTpc s) 4 window) 0x0b#8 15 regs =
      tpcRegsWrite (beginTpc (tpcSetRegsWindow (beginTpc s) 4 window)) 15 regs :=
    executeTpc_mounted hcard₁
  have hreg := @tpcRegsWrite_window (beginTpc (tpcSetRegsWindow (beginTpc s) 4 window)) regs
    hstart hsize
  refine ⟨tpcRegsWrite (beginTpc (tpcSetRegsWindow (beginTpc s) 4 window)) 15 regs,
    ?_, ⟨?_, ?_, ?_⟩, ?_, ?_⟩
  · rw [hops, ← hwrite, ← hwindow]
    rfl
  · simp only [MemoryStick.blockIndex, blockHiOffset, blockMidOffset, blockLoOffset]
    rw [hreg (by decide) (by decide), hreg (by decide) (by decide), hreg (by decide) (by decide),
      hhi, hmid, hlo, append_address hblock]
  · simp only [MemoryStick.accessType, accessTypeOffset]
    rw [hreg (by decide) (by decide), haccess]
  · simp only [MemoryStick.page, pageOffset]
    rw [hreg (by decide) (by decide), hpage]
  · simp only [MemoryStick.logicalBlock, MemoryStick.oob, oobOffset]
    rw [hreg (by decide) (by decide), hreg (by decide) (by decide), hlogicalHi, hlogicalLo,
      append_bytes]
  · rw [← hwrite]
    exact step_isSome (.tpc 0x0b#8 15 regs) rfl hcard₁

theorem addressOps_registerOp {block : ℕ} {access page : Byte} {logicalBlock : BitVec 16} :
    ∀ op ∈ addressOps block access page logicalBlock, RegisterOp op := by
  intro op hop
  simp only [addressOps, List.mem_cons, List.not_mem_nil, or_false] at hop
  rcases hop with rfl | rfl
  · exact Or.inl rfl
  · exact Or.inr rfl

theorem exists_addressed (hcard : s.cardImage.isSome) (hblock : block < 2 ^ 24) (access page : Byte)
    (logicalBlock : BitVec 16) :
    ∃ s₁, RegisterSetup s s₁ ∧ Addressed s₁ block (decodeAccess access) page.toNat ∧
      s₁.logicalBlock = logicalBlock ∧ s₁.cardImage.isSome := by
  obtain ⟨s₁, hrun, haddressed⟩ := run_addressOps hcard hblock access page logicalBlock
  exact ⟨s₁, ⟨_, addressOps_registerOp, hrun⟩, haddressed⟩

theorem exists_pagesProgrammed (hcard : s.cardImage.isSome) {block : ℕ} (hblock : block < 2 ^ 24)
    (logicalBlock : BitVec 16) (pages : ℕ → ℕ → Byte) {count : ℕ} (hcount : count ≤ 256) :
    ∃ s', PagesProgrammed block logicalBlock pages count s s' ∧ s'.cardImage.isSome := by
  induction count with
  | zero => exact ⟨s, .zero, hcard⟩
  | succ count ih =>
    obtain ⟨s', hprogrammed, hcard'⟩ := ih (by omega)
    obtain ⟨s₁, hsetup, haddressed, hlogical, hcard₁⟩ :=
      exists_addressed hcard' hblock 0x20#8 (BitVec.ofNat 8 count) logicalBlock
    have hnumber : (BitVec.ofNat 8 count).toNat = count := by grind
    rw [hnumber] at haddressed
    refine ⟨_, .succ hprogrammed hsetup haddressed hlogical, ?_⟩
    exact step_isSome (.tpc 0x0d#8 512 (pages count)) rfl
      (step_isSome (.tpc 0x0e#8 1 fun _ => 0x55#8) rfl hcard₁)

/-- The pages of a block that has been programmed are read back after any operations that neither
program its logical block nor erase or program it, unless a page was pending when the programming
in page access mode began. -/
theorem read_after_program {s₁ s₂ : MemoryStick} {image : CardImage} {access : AccessType}
    {ops : List Op} (hreachable : Reachable s) (himage : s.cardImage = some image)
    (hblock : 2 ≤ block) (hphysical : block < blocksTotal s)
    (hlogical : (logicalBlock.toNat + 1) * s.pagesPerBlock.toNat ≤ image.blocksTotal)
    (hmark : logicalBlock ≠ 0xffff#16) (hprogrammed : Programmed block logicalBlock pages access s s₁)
    (hpending : access = .page → s.pagePending = false)
    (hops : Undisturbed block logicalBlock s₁ ops) (hrun : run s₁ ops = some s₂) :
    ReadsBack s₂ block logicalBlock pages := by
  have hempty : Stored s.storage block logicalBlock pages 0 :=
    ⟨hreachable.segments_le, hphysical, zero_le _,
      ⟨image, himage, hlogical, fun _ h => absurd h (not_lt_zero _)⟩,
      fun h => absurd h (lt_irrefl 0)⟩
  have hstored : Stored s₁.storage block logicalBlock pages s₁.pagesPerBlock.toNat := by
    cases hprogrammed with
    | block setup addressed logical =>
      rw [writePages_pagesPerBlock, programCmd, executeTpc_pagesPerBlock]
      exact programmed_block (hempty.congr setup.frame.storage) addressed logical
    | page programmed =>
      rw [programmed.pagesPerBlock]
      exact (programmed.stored hempty (hpending rfl) (le_refl _)).1
  have hkept := run_stored hstored hops hrun
  rw [← run_pagesPerBlock hrun] at hkept
  exact hkept.readsBack hblock hmark

def smallCard : CardImage := ⟨fun _ => 0#8, fun _ => 0#8, 7904⟩

def blankStick : MemoryStick where
  reg _ := 0#8
  readWindowStart := 0#8
  readWindowSize := 0#8
  writeWindowStart := 0#8
  writeWindowSize := 0#8
  bufferOut := .null
  bufferOutSize := 0
  preparedPage _ := 0#8
  pagePending := false
  cardImage := none
  pagesPerBlock := 0#8
  segments := 0#8
  blockMap _ := 0#16
  blockMapDirtyPages _ := 0#8
  currentOperation := .none
  irqs := 0

def smallStick : MemoryStick := (mount blankStick smallCard).getD blankStick

theorem mount_smallCard : mount blankStick smallCard = some smallStick := by
  have hsome : (mount blankStick smallCard).isSome = true := by decide +kernel
  obtain ⟨s, hs⟩ := isSome_iff_exists.mp hsome
  rw [smallStick, hs]
  rfl

theorem smallStick_fresh : smallStick.cardImage = some smallCard ∧
    smallStick.segments = 1#8 ∧ smallStick.pagesPerBlock = 16#8 ∧
    smallStick.pagePending = false ∧ smallStick.currentOperation = .none := by
  obtain ⟨hcard, hlayout, hpending, hop, -⟩ := mount_fresh mount_smallCard
  have hsmall : determineLayout smallCard.blocksTotal = some ⟨16#8, 1#8⟩ := by decide +kernel
  rw [hsmall, some_inj, Layout.mk.injEq] at hlayout
  exact ⟨hcard, hlayout.2.symm, hlayout.1.symm, hpending, hop⟩

theorem smallStick_reachable : Reachable smallStick :=
  .mount (.initial rfl rfl) mount_smallCard

/-- The second block of a fresh stick, programmed in page access mode. -/
theorem read_after_program_smallStick : ∃ s₁,
    Programmed 2 0#16 (fun page _ => BitVec.ofNat 8 page) .page smallStick s₁ ∧
      ReadsBack s₁ 2 0#16 fun page _ => BitVec.ofNat 8 page := by
  obtain ⟨hcard, hsegments, hppb, hpending, -⟩ := smallStick_fresh
  have hsome : smallStick.cardImage.isSome := by simp [hcard]
  obtain ⟨s₁, hprogrammed, -⟩ := exists_pagesProgrammed hsome
    (show 2 < 2 ^ 24 by decide) 0#16 (fun page _ => BitVec.ofNat 8 page)
    (show smallStick.pagesPerBlock.toNat ≤ 256 by rw [hppb]; decide)
  refine ⟨s₁, .page hprogrammed, ?_⟩
  have hnothing : Undisturbed 2 0#16 s₁ [] := trivial
  exact read_after_program smallStick_reachable hcard (by decide)
    (by rw [blocksTotal, hsegments]; decide) (by rw [hppb]; decide) (by decide) (.page hprogrammed)
    (fun _ => hpending) hnothing rfl

/-- The small stick after the host has sent a page of zeros with no command to take it. -/
def pendingStick : MemoryStick := writePage smallStick fun _ => 0#8

theorem pendingStick_reachable : Reachable pendingStick :=
  .step smallStick_reachable
    (show step smallStick (.tpc 0x0d#8 512 fun _ => 0#8) = some pendingStick from rfl)

theorem pendingStick_pending : pendingStick.storage = smallStick.storage ∧
    pendingStick.pagePending = true ∧ pendingStick.preparedPage 0 = 0#8 := by
  obtain ⟨hcard, -, -, -, hop⟩ := smallStick_fresh
  have hwrite := writePage_mounted (s := smallStick) (by simp [hcard]) fun _ => 0#8
  rw [hop] at hwrite
  rw [pendingStick, hwrite]
  refine ⟨by simp, by rw [setFlags_pagePending]; rfl, ?_⟩
  rfl

theorem readsBack_late {image : CardImage} {s₁ : MemoryStick} (hreachable : Reachable s)
    (himage : s.cardImage = some image) (hblock : 2 ≤ block) (hphysical : block < blocksTotal s)
    (hlogical : (logicalBlock.toNat + 1) * s.pagesPerBlock.toNat ≤ image.blocksTotal)
    (hmark : logicalBlock ≠ 0xffff#16) (hpending : s.pagePending = true)
    (hprogrammed : PagesProgrammed block logicalBlock pages s.pagesPerBlock.toNat s s₁) :
    ReadsBack s₁ block logicalBlock (late s.preparedPage pages) := by
  have hempty : Stored s.storage block logicalBlock (late s.preparedPage pages) 0 :=
    ⟨hreachable.segments_le, hphysical, zero_le _,
      ⟨image, himage, hlogical, fun _ h => absurd h (not_lt_zero _)⟩,
      fun h => absurd h (lt_irrefl 0)⟩
  have hstored := (hprogrammed.stored_late hempty hpending (le_refl _)).1
  rw [← hprogrammed.pagesPerBlock] at hstored
  exact hstored.readsBack hblock hmark

theorem not_readsBack_of_pending (hcard : s.cardImage.isSome) (hblock : block < 2 ^ 24)
    (hcount : 0 < s.pagesPerBlock.toNat) {first : ℕ → Byte} (hdiffer : first 0 ≠ pages 0 0)
    (hlate : ReadsBack s block logicalBlock (late first pages)) :
    ¬ ReadsBack s block logicalBlock pages := by
  intro hreads
  obtain ⟨s₂, hsetup, haddressed, -, -⟩ := exists_addressed hcard hblock 0x20#8 0#8 0#16
  have hfirst := hlate.inPages s₂ 0 hsetup haddressed hcount
  have hclaimed := hreads.inPages s₂ 0 hsetup haddressed hcount
  have hdata := (hfirst.2.1 0 (by decide)).symm.trans (hclaimed.2.1 0 (by decide))
  exact hdiffer (some.inj hdata)

/-- The page that is pending when the block is programmed is read back as its first page. -/
theorem pending_page_read_first : Reachable pendingStick ∧
    pendingStick.cardImage = some smallCard ∧ 2 < blocksTotal pendingStick ∧
    (0 + 1) * pendingStick.pagesPerBlock.toNat ≤ smallCard.blocksTotal ∧
    ∃ s₁, Programmed 2 0#16 (fun _ _ => 0x11#8) .page pendingStick s₁ ∧
      ¬ ReadsBack s₁ 2 0#16 fun _ _ => 0x11#8 := by
  obtain ⟨hcard, hsegments, hppb, -, -⟩ := smallStick_fresh
  obtain ⟨hstorage, hpending, hzero⟩ := pendingStick_pending
  obtain ⟨hcard', hsegments', hppb'⟩ := storage_fields hstorage
  rw [hcard] at hcard'
  rw [hsegments] at hsegments'
  rw [hppb] at hppb'
  have hreachable := pendingStick_reachable
  generalize pendingStick = s at *
  have hblocks : 2 < blocksTotal s := by
    rw [blocksTotal, hsegments']
    decide
  have hpages : (0 + 1) * s.pagesPerBlock.toNat ≤ smallCard.blocksTotal := by
    rw [hppb']
    decide
  obtain ⟨s₁, hprogrammed, hcard₁⟩ := exists_pagesProgrammed (s := s) (by rw [hcard']; rfl)
    (show 2 < 2 ^ 24 by decide) 0#16 (fun _ _ => 0x11#8)
    (show s.pagesPerBlock.toNat ≤ 256 by rw [hppb']; decide)
  have hlate : ReadsBack s₁ 2 0#16 (late s.preparedPage fun _ _ => 0x11#8) :=
    readsBack_late hreachable hcard' (by decide) hblocks hpages (by decide) hpending hprogrammed
  refine ⟨hreachable, hcard', hblocks, hpages, s₁, .page hprogrammed, ?_⟩
  apply not_readsBack_of_pending hcard₁ (by decide) _ _ hlate
  · rw [hprogrammed.pagesPerBlock, hppb']
    decide
  · rw [hzero]
    decide

end Cloudpilot.Hardware.Stick
