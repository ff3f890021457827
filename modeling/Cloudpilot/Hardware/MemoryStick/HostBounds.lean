import Cloudpilot.Hardware.MemoryStick.HostSafety

/-! # Bounds of the buffers

Nothing is written behind the ends of the register file, the prepared page, the write
buffer and the FIFO, and the counters of the transfer stay small.
-/
namespace Cloudpilot.Hardware.Stick
open Cloudpilot.Library Cloudpilot.Common Nat

/-- The arrays hold nothing behind their ends. -/
structure StickBounds (s : MemoryStick) : Prop where
  reg : ∀ i, sizeofRegisters ≤ i → s.reg i = 0#8
  preparedPage : ∀ i, 512 ≤ i → s.preparedPage i = 0#8
  bufferOutSize : s.bufferOutSize ≤ 512

section Stick

variable {s : MemoryStick} (hb : StickBounds s)

include hb

theorem StickBounds.setReg {offset : ℕ} (hoffset : offset < sizeofRegisters) (value : Byte) :
    StickBounds (setReg s offset value) :=
  ⟨fun i hi => (Function.update_of_ne (by omega) _ _).trans (hb.reg i hi), hb.preparedPage,
    hb.bufferOutSize⟩

theorem StickBounds.setFlags (flags : Byte) : StickBounds (setFlags s flags) := by
  have hreg : StickBounds (Stick.setReg s intFlagsOffset flags) := hb.setReg (by decide) flags
  simp only [Stick.setFlags]
  split_ifs
  · exact ⟨hreg.reg, hreg.preparedPage, hreg.bufferOutSize⟩
  · exact hreg

theorem StickBounds.setOperation (operation : Operation) : StickBounds (setOperation s operation) :=
  ⟨hb.reg, hb.preparedPage, hb.bufferOutSize⟩

theorem StickBounds.setOob (oob0 oob1 oob2 oob3 : Byte) :
    StickBounds (setOob s oob0 oob1 oob2 oob3) :=
  (((hb.setReg (by decide) oob0).setReg (by decide) oob1).setReg (by decide) oob2).setReg
    (by decide) oob3

theorem StickBounds.copyReg (start count : ℕ) (data : ℕ → Byte)
    (hend : start + count ≤ sizeofRegisters) :
    StickBounds { s with reg := Buffer.copy s.reg start data count } :=
  ⟨fun i hi => (Buffer.copy_outside (.inr (by omega))).trans (hb.reg i hi), hb.preparedPage,
    hb.bufferOutSize⟩

theorem StickBounds.setPage {page : ℕ → Byte} (pending : Bool)
    (hpage : ∀ i, 512 ≤ i → page i = 0#8) :
    StickBounds { s with preparedPage := page, pagePending := pending } :=
  ⟨hb.reg, hpage, hb.bufferOutSize⟩

omit hb in
theorem copy_page_outside {page data : ℕ → Byte} (hpage : ∀ i, 512 ≤ i → page i = 0#8) :
    ∀ i, 512 ≤ i → Buffer.copy page 0 data 512 i = 0#8 :=
  fun i hi => (Buffer.copy_outside (.inr (by omega))).trans (hpage i hi)

omit hb in
theorem read_page_outside {image : CardImage} {page : ℕ → Byte} {index : ℕ}
    (hpage : ∀ i, 512 ≤ i → page i = 0#8) :
    ∀ i, 512 ≤ i → (image.read page index 1).2 i = 0#8 := by
  intro i hi
  simp only [CardImage.read]
  split_ifs with hindex
  · exact hpage i hi
  · have hone : min 1 (image.blocksTotal - index) = 1 := by omega
    simp only [hone, CardImage.readBlocks, List.range_one, List.foldl_cons, List.foldl_nil, zero_mul]
    exact copy_page_outside hpage i hi

theorem StickBounds.preparePage (oobOnly : Bool) : StickBounds (preparePage s oobOnly).2 := by
  simp only [Stick.preparePage, preparePageInto]
  cases s.cardImage with
  | none => exact hb
  | some image =>
    dsimp only
    split_ifs
    · exact hb
    · simp only [preparePageBootBlock]
      apply (hb.setOob 0xff#8 0xfb#8 0#8 0#8).setPage
      split_ifs
      · exact hb.preparedPage
      · exact copy_page_outside hb.preparedPage
    · simp only [preparePageMapped]
      split_ifs
      · exact (hb.copyReg oobOffset 9 _ (by decide)).setPage true hb.preparedPage
      · apply (hb.copyReg oobOffset 9 _ (by decide)).setPage true
        dsimp only
        exact copy_page_outside hb.preparedPage
      · exact (hb.setOob _ _ _ _).setPage true hb.preparedPage
      · apply (hb.setOob _ _ _ _).setPage true
        exact read_page_outside hb.preparedPage

theorem StickBounds.programPage (data : ℕ → Byte) : StickBounds (programPage s data).2 := by
  simp only [Stick.programPage]
  cases s.cardImage with
  | none => exact hb
  | some image =>
    dsimp only
    split_ifs
    · exact hb
    · exact hb
    · exact hb
    · simp only [storePage]
      split_ifs <;> exact ⟨hb.reg, hb.preparedPage, hb.bufferOutSize⟩

theorem StickBounds.eraseBlock : StickBounds (eraseBlock s).2 := by
  simp only [Stick.eraseBlock]
  split_ifs
  · exact hb
  · exact ⟨hb.reg, hb.preparedPage, hb.bufferOutSize⟩

omit hb in
theorem reset_bounds (h : ∀ i, 512 ≤ i → s.preparedPage i = 0#8) : StickBounds (reset s) := by
  refine ⟨fun i hi => ?_, h, zero_le _⟩
  apply if_neg
  simp only [sizeofRegisters, msTypeOffset, msCategoryOffset, msClassOffset] at hi ⊢
  omega

theorem StickBounds.doCmdReadWith (oobOnly : Bool) (operation : Operation) (flags : Byte) :
    StickBounds (doCmdReadWith s oobOnly operation flags) := by
  have hpage := hb.preparePage oobOnly
  simp only [Stick.doCmdReadWith]
  generalize Stick.preparePage s oobOnly = result at hpage
  rcases result with ⟨_ | _, s'⟩
  · exact hpage.setFlags _
  · exact (hpage.setOperation operation).setFlags _

theorem StickBounds.doCmdRead : StickBounds (doCmdRead s) := by
  have hnone := hb.setOperation .none
  simp only [Stick.doCmdRead]
  cases decodeAccess (Stick.setOperation s .none).accessType
  case block => exact hnone.doCmdReadWith _ _ _
  case page => exact hnone.doCmdReadWith _ _ _
  case oobOnly => exact hnone.doCmdReadWith _ _ _
  all_goals exact hnone

theorem StickBounds.doCmdStop : StickBounds (doCmdStop s) := by
  simp only [Stick.doCmdStop]
  cases s.currentOperation
  case readMulti => exact (hb.setOperation _).setFlags _
  case programMulti => exact (hb.setOperation _).setFlags _
  all_goals exact hb.setFlags _

theorem StickBounds.doCmdProgram : StickBounds (doCmdProgram s) := by
  simp only [Stick.doCmdProgram]
  cases decodeAccess s.accessType
  case block => exact (hb.setOperation _).setFlags _
  case page =>
    dsimp only
    split_ifs
    · have hdone : StickBounds { Stick.setOperation s .none with pagePending := false } :=
        ⟨hb.reg, hb.preparedPage, hb.bufferOutSize⟩
      exact (hdone.programPage _).setFlags _
    · exact (hb.setOperation _).setFlags _
  case other => exact hb
  all_goals exact hb.setFlags _

theorem StickBounds.doCmd (commandByte : Byte) : StickBounds (doCmd s commandByte) := by
  simp only [Stick.doCmd]
  cases decodeCmd commandByte
  case read => exact hb.doCmdRead
  case stop => exact hb.doCmdStop
  case erase => exact hb.eraseBlock.setFlags _
  case reset => exact reset_bounds hb.preparedPage
  case program => exact hb.doCmdProgram
  case invalid => exact hb.setFlags _

theorem StickBounds.nextPage : StickBounds (nextPage s) := by
  have hpage : StickBounds (Stick.setReg s pageOffset (s.page + 1#8)) := hb.setReg (by decide) _
  simp only [Stick.nextPage]
  split_ifs
  · exact hpage.setFlags _
  · exact (hpage.setFlags _).setOperation _

theorem StickBounds.clearFlags : StickBounds (clearFlags s) := hb.setReg (by decide) _

theorem StickBounds.executeTpc (id : Byte) (dataInCount : ℕ) (dataIn : ℕ → Byte) :
    StickBounds (executeTpc s id dataInCount dataIn) := by
  have hbegin : StickBounds (beginTpc s) := ⟨hb.reg, hb.preparedPage, zero_le _⟩
  simp only [Stick.executeTpc]
  split_ifs
  · exact hbegin
  · generalize beginTpc s = s₁ at hbegin
    simp only [dispatchTpc]
    cases decodeTpc id
    case setRegsWindow =>
      have hclear := hbegin.clearFlags
      have hwindow : StickBounds { Stick.clearFlags s₁ with
          readWindowStart := dataIn 0, readWindowSize := dataIn 1
          writeWindowStart := dataIn 2, writeWindowSize := dataIn 3 } :=
        ⟨hclear.reg, hclear.preparedPage, hclear.bufferOutSize⟩
      simp only [tpcSetRegsWindow]
      split_ifs
      · exact hwindow.setFlags _
      · exact hwindow
    case regsWrite =>
      simp only [tpcRegsWrite]
      split_ifs with hwindow
      · exact hbegin.setFlags _
      · exact (hbegin.copyReg _ _ dataIn (by omega)).setFlags _
      · exact (hbegin.copyReg _ _ dataIn (by omega)).clearFlags
    case regsRead =>
      simp only [tpcRegsRead]
      split_ifs with hwindow
      · exact hbegin.setFlags _
      · refine ⟨hbegin.reg, hbegin.preparedPage, ?_⟩
        rw [sizeofRegisters] at hwindow
        dsimp only
        omega
    case getInt => exact ⟨hbegin.reg, hbegin.preparedPage, by simp [tpcGetInt]⟩
    case setCmd =>
      dsimp only
      split_ifs
      · exact hbegin.setFlags _
      · exact hbegin.doCmd _
    case readLongData =>
      have hpage : StickBounds (handOutPage s₁) := ⟨hbegin.reg, hbegin.preparedPage, le_rfl⟩
      have hnone : StickBounds { s₁ with bufferOutSize := 0 } :=
        ⟨hbegin.reg, hbegin.preparedPage, zero_le _⟩
      simp only [tpcReadLongData]
      split
      · exact hpage.clearFlags
      · exact hpage.clearFlags
      · exact hnone.setFlags _
    case writeLongData =>
      have hkeep : StickBounds (keepPage s₁ dataIn) :=
        ⟨hbegin.reg, copy_page_outside hbegin.preparedPage, hbegin.bufferOutSize⟩
      simp only [tpcWriteLongData]
      split_ifs
      · exact hbegin.setFlags _
      · cases s₁.currentOperation
        case programMulti => exact (hbegin.programPage _).nextPage
        case programOne => exact ((hbegin.programPage _).setOperation _).setFlags _
        all_goals exact hkeep.setFlags _
    case unsupported => exact hbegin.setFlags _

theorem StickBounds.finishReadTpc {s' : MemoryStick} (h : finishReadTpc s = some s') :
    StickBounds s' := by
  have hrelease : StickBounds (releaseBuffer s) := ⟨hb.reg, hb.preparedPage, zero_le _⟩
  simp only [Stick.finishReadTpc] at h
  split_ifs at h
  · grind
  · cases hop : s.currentOperation <;> simp only [hop, reduceCtorEq, Option.some.injEq] at h
    all_goals subst h
    case none => exact hrelease
    case readOne => exact (hrelease.setOperation _).setFlags _
    case readMulti =>
      generalize releaseBuffer s = s₁ at hrelease
      have hpage : StickBounds (Stick.setReg s₁ pageOffset (s₁.page + 1#8)) :=
        hrelease.setReg (by decide) _
      have hnext := hpage.preparePage false
      simp only [readNextPage]
      generalize Stick.preparePage (Stick.setReg s₁ pageOffset (s₁.page + 1#8)) false = result
        at hnext
      rcases result with ⟨_ | _, s₂⟩
      · exact (hnext.setOperation _).setFlags _
      · exact hnext.setFlags _

omit hb in
theorem mount_bounds {s' : MemoryStick} {image : CardImage}
    (hpage : ∀ i, 512 ≤ i → s.preparedPage i = 0#8) (h : mount s image = some s') :
    StickBounds s' ∧ s'.irqs = s.irqs := by
  rw [mount, Option.bind_eq_some_iff] at h
  obtain ⟨layout, -, h⟩ := h
  rw [Option.map_eq_some_iff] at h
  obtain ⟨map, -, rfl⟩ := h
  have hreset := reset_bounds hpage
  exact ⟨⟨hreset.reg, hreset.preparedPage, hreset.bufferOutSize⟩, rfl⟩

end Stick

structure FifoBounds (fifo : Fifo) : Prop where
  buffer : ∀ i, fifoCapacity ≤ i → fifo.buffer i = 0#16
  start : fifo.start < fifoCapacity
  size : fifo.size ≤ fifoCapacity

theorem FifoBounds.clear {fifo : Fifo} (hf : FifoBounds fifo) : FifoBounds fifo.clear :=
  ⟨hf.buffer, Nat.zero_lt_succ _, Nat.zero_le _⟩

theorem FifoBounds.push {fifo : Fifo} (hf : FifoBounds fifo) (value : BitVec 16) :
    FifoBounds (fifo.push value) := by
  have hpos : 0 < fifoCapacity := by decide
  have hbuffer : ∀ i, fifoCapacity ≤ i →
      Function.update fifo.buffer ((fifo.start + fifo.size) % fifoCapacity) value i = 0#16 := by
    intro i hi
    have hlt := mod_lt (fifo.start + fifo.size) hpos
    exact (Function.update_of_ne (by omega) _ _).trans (hf.buffer i hi)
  simp only [Fifo.push]
  split_ifs with hroom
  · exact ⟨hbuffer, hf.start, hroom⟩
  · exact ⟨hbuffer, mod_lt _ hpos, hf.size⟩

theorem FifoBounds.pop {fifo : Fifo} (hf : FifoBounds fifo) : FifoBounds fifo.pop.2 := by
  simp only [Fifo.pop]
  split_ifs
  · exact hf
  · exact ⟨hf.buffer, mod_lt _ (by decide), (sub_le _ _).trans hf.size⟩

/-- Between accesses no interrupt of the stick is pending. -/
structure HostBounds (h : HostController) : Prop where
  stick : StickBounds h.memoryStick
  irqs : h.memoryStick.irqs = 0
  writeBuffer : ∀ i, sizeofWriteBuffer ≤ i → h.writeBuffer i = 0#8
  writeBufferSize : h.writeBufferSize ≤ sizeofWriteBuffer
  readBufferIndex : h.readBufferIndex ≤ 514
  fifo : FifoBounds h.fifo

/-- A read transfer that has not ended has taken less than a page. -/
def Reading (h : HostController) : Prop :=
  h.state = .tpcRead → h.readBufferIndex < 512

section Host

variable {h h' : HostController}

theorem SameTransfer.bounds (hs : SameTransfer h h') (hb : HostBounds h) : HostBounds h' := by
  constructor
  · rw [hs.memoryStick]
    exact hb.stick
  · rw [hs.memoryStick]
    exact hb.irqs
  · rw [hs.writeBuffer]
    exact hb.writeBuffer
  · rw [hs.writeBufferSize]
    exact hb.writeBufferSize
  · rw [hs.readBufferIndex]
    exact hb.readBufferIndex
  · rw [hs.fifo]
    exact hb.fifo

theorem SameTransfer.reading (hs : SameTransfer h h') (hr : Reading h) : Reading h' := by
  intro hread
  rw [hs.readBufferIndex]
  exact hr (hs.state ▸ hread)

theorem Reading.of_ne (hstate : h.state ≠ .tpcRead) : Reading h :=
  fun hread => absurd hread hstate

section

variable (hb : HostBounds h)

include hb

theorem HostBounds.setStick {s : MemoryStick} (hs : StickBounds s) (hirqs : s.irqs = 0) :
    HostBounds { h with memoryStick := s } :=
  ⟨hs, hirqs, hb.writeBuffer, hb.writeBufferSize, hb.readBufferIndex, hb.fifo⟩

theorem HostBounds.deliver {s : MemoryStick} (hs : StickBounds s) : HostBounds (deliver h s) := by
  apply (deliver_same h s).bounds
  exact hb.setStick ⟨hs.reg, hs.preparedPage, hs.bufferOutSize⟩ rfl

theorem HostBounds.endTransfer : HostBounds (endTransfer h) ∧ Reading (endTransfer h) := by
  have hsame := setState_same { h with fifo := h.fifo.clear } .idle
  constructor
  · exact hsame.bounds ⟨hb.stick, hb.irqs, hb.writeBuffer, hb.writeBufferSize, hb.readBufferIndex,
      hb.fifo.clear⟩
  · apply Reading.of_ne
    rw [Stick.endTransfer, hsame.state]
    exact fun hread => HostState.noConfusion hread

theorem HostBounds.finishTpc (hfinish : finishTpc h = .ok h') : HostBounds h' ∧ Reading h' := by
  simp only [Stick.finishTpc] at hfinish
  split_ifs at hfinish
  · cases hfinish
    exact (hb.deliver (hb.stick.executeTpc _ _ _)).endTransfer
  · cases hstick : finishReadTpc h.memoryStick with
    | none => grind
    | some s =>
      rw [hstick] at hfinish
      cases hfinish
      exact (hb.deliver (hb.stick.finishReadTpc hstick)).endTransfer

theorem HostBounds.storeByte (hr : Reading h) {data : Byte} (hstore : storeByte h data = .ok h') :
    HostBounds h' ∧ Reading h' := by
  simp only [Stick.storeByte] at hstore
  split_ifs at hstore with hroom
  cases hstore
  refine ⟨⟨hb.stick, hb.irqs, fun i hi => ?_, hroom, hb.readBufferIndex, hb.fifo⟩, hr⟩
  exact (Function.update_of_ne (by omega) _ _).trans (hb.writeBuffer i hi)

theorem HostBounds.transferWord (hr : Reading h) {data : BitVec 16}
    (hword : transferWord h data = .ok h') : HostBounds h' ∧ Reading h' := by
  rw [Stick.transferWord] at hword
  cases hstore : Stick.storeByte h ((data >>> 8).setWidth 8) with
  | error fault => simp [hstore, bind, Except.bind] at hword
  | ok h₁ =>
    obtain ⟨hb₁, hr₁⟩ := hb.storeByte hr hstore
    simp only [hstore, bind, Except.bind] at hword
    split_ifs at hword
    · exact hb₁.finishTpc hword
    · cases hstore' : Stick.storeByte h₁ (data.setWidth 8) with
      | error fault => simp [hstore'] at hword
      | ok h₂ =>
        obtain ⟨hb₂, hr₂⟩ := hb₁.storeByte hr₁ hstore'
        simp only [hstore'] at hword
        split_ifs at hword
        · exact hb₂.finishTpc hword
        · grind

theorem HostBounds.setFifo {fifo : Fifo} (hf : FifoBounds fifo) :
    HostBounds { h with fifo := fifo } :=
  ⟨hb.stick, hb.irqs, hb.writeBuffer, hb.writeBufferSize, hb.readBufferIndex, hf⟩

theorem HostBounds.fifoWrite (hr : Reading h) {data : BitVec 16}
    (hwrite : fifoWrite h data = .ok h') : HostBounds h' ∧ Reading h' := by
  simp only [Stick.fifoWrite] at hwrite
  split_ifs at hwrite
  · exact hb.transferWord hr hwrite
  · grind
  · cases hwrite
    exact ⟨hb.setFifo (hb.fifo.push data), hr⟩

theorem HostBounds.drainFifo {rounds : ℕ} (hr : Reading h) (hdrain : drainFifo rounds h = .ok h') :
    HostBounds h' ∧ Reading h' := by
  induction rounds generalizing h with
  | zero =>
    cases hdrain
    exact ⟨hb, hr⟩
  | succ rounds ih =>
    rw [Stick.drainFifo] at hdrain
    split_ifs at hdrain
    · cases hwrite : Stick.fifoWrite { h with fifo := h.fifo.pop.2 } h.fifo.pop.1 with
      | error fault => simp [hwrite, bind, Except.bind] at hdrain
      | ok h₁ =>
        simp only [hwrite, bind, Except.bind] at hdrain
        obtain ⟨hb₁, hr₁⟩ := (hb.setFifo hb.fifo.pop).fifoWrite hr hwrite
        exact ih hb₁ hr₁ hdrain
    · grind

theorem HostBounds.startTransfer (state : HostState) :
    HostBounds (startTransfer h state) ∧ Reading (startTransfer h state) := by
  have hsame := (setState_same h state).bounds ⟨hb.stick, hb.irqs, hb.writeBuffer,
    hb.writeBufferSize, hb.readBufferIndex, hb.fifo⟩
  constructor
  · exact ⟨hsame.stick, hsame.irqs, hsame.writeBuffer, zero_le _, zero_le _, hsame.fifo⟩
  · intro _
    exact zero_lt_succ _

theorem HostBounds.hostBeginTpc (hbegin : hostBeginTpc h = .ok h') :
    HostBounds h' ∧ Reading h' := by
  simp only [Stick.hostBeginTpc] at hbegin
  cases htype : getTpcType (tpcId h) with
  | read =>
    rw [htype] at hbegin
    cases hbegin
    obtain ⟨hb₁, hr₁⟩ := hb.startTransfer .tpcRead
    exact ⟨hb₁.deliver (hb₁.stick.executeTpc _ _ _), (deliver_same _ _).reading hr₁⟩
  | write =>
    rw [htype] at hbegin
    obtain ⟨hb₁, hr₁⟩ := hb.startTransfer .tpcWrite
    simp only [beginWrite] at hbegin
    split_ifs at hbegin
    · exact hb₁.finishTpc hbegin
    · exact hb₁.drainFifo hr₁ hbegin

end

theorem nextWord_index {value : BitVec 32} (hword : nextWord h = .ok (value, h')) :
    ∃ index, h' = { h with readBufferIndex := index } ∧ index ≤ h.readBufferIndex + 2 := by
  have hbyte : ∀ {h₁ h₂ : HostController} {byte : Byte}, nextByte h₁ = .ok (byte, h₂) →
      ∃ index, h₂ = { h₁ with readBufferIndex := index } ∧ index ≤ h₁.readBufferIndex + 1 := by
    intro h₁ h₂ byte hnext
    simp only [nextByte] at hnext
    split_ifs at hnext
    · cases hfetch : fetchByte h₁.memoryStick h₁.readBufferIndex with
      | error fault => simp [hfetch, bind, Except.bind] at hnext
      | ok byte' =>
        simp only [hfetch, bind, Except.bind] at hnext
        cases hnext
        exact ⟨_, rfl, le_rfl⟩
    · cases hnext
      exact ⟨_, rfl, le_succ _⟩
  simp only [nextWord] at hword
  split_ifs at hword
  · cases hword
    exact ⟨_, rfl, le_rfl⟩
  · cases hhigh : nextByte h with
    | error fault => simp [hhigh, bind, Except.bind] at hword
    | ok result =>
      obtain ⟨high, h₁⟩ := result
      simp only [hhigh, bind, Except.bind] at hword
      cases hlow : nextByte h₁ with
      | error fault => simp [hlow] at hword
      | ok result' =>
        obtain ⟨low, h₂⟩ := result'
        simp only [hlow] at hword
        cases hword
        obtain ⟨index, rfl, hindex⟩ := hbyte hhigh
        obtain ⟨index', rfl, hindex'⟩ := hbyte hlow
        exact ⟨index', rfl, by dsimp only at hindex'; omega⟩

section

variable (hb : HostBounds h)

include hb

theorem HostBounds.msdataRead (hr : Reading h) {size : Size} {value : BitVec 32}
    (hread : msdataRead h size = .ok (value, h')) : HostBounds h' ∧ Reading h' := by
  simp only [Stick.msdataRead] at hread
  split_ifs at hread with hsize hstate
  · cases hread
    exact ⟨hb, hr⟩
  · cases hword : nextWord h with
    | error fault => simp [hword, bind, Except.bind] at hread
    | ok result =>
      obtain ⟨value', h₁⟩ := result
      obtain ⟨index, rfl, hindex⟩ := nextWord_index hword
      have hlt := hr hstate
      have hb₁ : HostBounds { h with readBufferIndex := index } :=
        ⟨hb.stick, hb.irqs, hb.writeBuffer, hb.writeBufferSize, by dsimp only; omega, hb.fifo⟩
      simp only [hword, bind, Except.bind] at hread
      split_ifs at hread with hend
      · cases hfinish : Stick.finishTpc { h with readBufferIndex := index } with
        | error fault => simp [hfinish] at hread
        | ok h₂ =>
          simp only [hfinish] at hread
          cases hread
          exact hb₁.finishTpc hfinish
      · cases hread
        refine ⟨hb₁, fun _ => ?_⟩
        have hpage := hb.stick.bufferOutSize
        dsimp only at hend ⊢
        omega
  · cases hread
    exact ⟨hb, hr⟩

theorem HostBounds.resetHostController : HostBounds (resetHostController h) :=
  ⟨reset_bounds hb.stick.preparedPage, hb.irqs, hb.writeBuffer, Nat.zero_le _, Nat.zero_le _,
    hb.fifo.clear⟩

theorem HostBounds.hostReset : HostBounds (hostReset h) :=
  ⟨reset_bounds hb.stick.preparedPage, hb.irqs, hb.writeBuffer, Nat.zero_le _, Nat.zero_le _,
    hb.fifo.clear⟩

theorem HostBounds.setStatus (mscmd mscs msics msppcd : BitVec 16) :
    HostBounds { h with mscmd := mscmd, mscs := mscs, msics := msics, msppcd := msppcd } :=
  ⟨hb.stick, hb.irqs, hb.writeBuffer, hb.writeBufferSize, hb.readBufferIndex, hb.fifo⟩

theorem HostBounds.registerRead (hr : Reading h) {register : Register} {atBase : Bool} {size : Size}
    {gpio : Byte} {value : BitVec 32}
    (hread : registerRead h register atBase size gpio = .ok (value, h')) :
    HostBounds h' ∧ Reading h' := by
  cases register with
  | msdata => exact hb.msdataRead hr hread
  | msics =>
    cases hread
    exact ⟨(negateIrq_same h _).bounds hb, (negateIrq_same h _).reading hr⟩
  | msppcd =>
    cases hread
    exact ⟨hb.setStatus h.mscmd h.mscs _ h.msppcd, hr⟩
  | mscmd =>
    cases hread
    exact ⟨hb, hr⟩
  | mscs =>
    cases hread
    exact ⟨hb, hr⟩
  | stub =>
    cases hread
    exact ⟨hb, hr⟩

theorem HostBounds.registerWrite (hr : Reading h) {register : Register} {atBase : Bool}
    {size : Size} {value : BitVec 32} (hwrite : registerWrite h register atBase size value = .ok h')
    : HostBounds h' ∧ Reading h' := by
  cases register with
  | mscmd =>
    simp only [Stick.registerWrite, mscmdWrite] at hwrite
    split_ifs at hwrite
    · grind
    · grind
    · exact (hb.setStatus _ h.mscs _ h.msppcd).hostBeginTpc hwrite
  | mscs =>
    simp only [Stick.registerWrite, mscsWrite] at hwrite
    split_ifs at hwrite
    · cases hwrite
      refine ⟨(raiseIrq_same _ _).bounds (HostBounds.resetHostController ?_),
        (raiseIrq_same _ _).reading (.of_ne fun hread => HostState.noConfusion hread)⟩
      exact hb.setStatus h.mscmd _ h.msics h.msppcd
    · cases hwrite
      exact ⟨hb.setStatus h.mscmd _ h.msics h.msppcd, hr⟩
  | msdata =>
    simp only [Stick.registerWrite, msdataWrite] at hwrite
    split_ifs at hwrite
    · grind
    · exact hb.fifoWrite hr hwrite
  | msics =>
    cases hwrite
    exact ⟨hb.setStatus h.mscmd h.mscs _ h.msppcd, hr⟩
  | msppcd =>
    cases hwrite
    exact ⟨hb.setStatus h.mscmd h.mscs h.msics _, hr⟩
  | stub =>
    cases hwrite
    exact ⟨hb, hr⟩

theorem HostBounds.hostStep (hr : Reading h) {access : Access} {value : Option (BitVec 32)}
    (hstep : hostStep h access = .ok (value, h')) : HostBounds h' ∧ Reading h' := by
  cases access with
  | read register atBase size gpio =>
    simp only [Stick.hostStep] at hstep
    cases hread : Stick.registerRead h register atBase size gpio with
    | error fault => simp [hread, bind, Except.bind] at hstep
    | ok result =>
      simp only [hread, bind, Except.bind] at hstep
      cases hstep
      exact hb.registerRead hr hread
  | write register atBase size value =>
    simp only [Stick.hostStep] at hstep
    cases hwrite : Stick.registerWrite h register atBase size value with
    | error fault => simp [hwrite, bind, Except.bind] at hstep
    | ok h₁ =>
      simp only [hwrite, bind, Except.bind] at hstep
      cases hstep
      exact hb.registerWrite hr hwrite
  | notifyGpioChanged =>
    cases hstep
    exact ⟨(raiseIrq_same h irqPin).bounds hb, (raiseIrq_same h irqPin).reading hr⟩
  | mount cardImage =>
    simp only [Stick.hostStep, hostMount] at hstep
    cases hmount : mount h.memoryStick cardImage with
    | none => simp [hmount, bind, Except.bind] at hstep
    | some s =>
      simp only [hmount, bind, Except.bind] at hstep
      cases hstep
      obtain ⟨hs, hirqs⟩ := mount_bounds hb.stick.preparedPage hmount
      exact ⟨hb.setStick hs (hirqs.trans hb.irqs), hr⟩
  | unmount =>
    cases hstep
    exact ⟨hb.setStick ⟨hb.stick.reg, hb.stick.preparedPage, hb.stick.bufferOutSize⟩ hb.irqs, hr⟩
  | reset =>
    cases hstep
    exact ⟨hb.hostReset, .of_ne fun hread => HostState.noConfusion hread⟩

theorem HostBounds.hostRun {values : List (Option (BitVec 32))} {accesses : List Access}
    (hr : Reading h) (hrun : hostRun h accesses = .ok (values, h')) :
    HostBounds h' ∧ Reading h' := by
  induction accesses generalizing h values with
  | nil =>
    cases hrun
    exact ⟨hb, hr⟩
  | cons access accesses ih =>
    rw [Stick.hostRun] at hrun
    cases hstep : Stick.hostStep h access with
    | error fault => simp [hstep, bind, Except.bind] at hrun
    | ok result =>
      obtain ⟨value, h₁⟩ := result
      obtain ⟨hb₁, hr₁⟩ := hb.hostStep hr hstep
      simp only [hstep, bind, Except.bind] at hrun
      cases hrest : Stick.hostRun h₁ accesses with
      | error fault => simp [hrest] at hrun
      | ok result' => grind

end

end Host

/-- A state that a run from reset reaches. -/
def HostReachable (h : HostController) : Prop :=
  ∃ h₀ accesses values, HostBounds h₀ ∧ hostRun (hostReset h₀) accesses = .ok (values, h)

theorem HostReachable.bounds {h : HostController} (hreach : HostReachable h) :
    HostBounds h ∧ Reading h := by
  obtain ⟨h₀, accesses, values, hb, hrun⟩ := hreach
  exact hb.hostReset.hostRun (.of_ne fun hread => HostState.noConfusion hread) hrun

theorem HostReachable.inv {h : HostController} (hreach : HostReachable h) : HostInv h := by
  obtain ⟨h₀, accesses, values, -, hrun⟩ := hreach
  rcases hostRun_inv (hostReset_inv h₀) accesses with ⟨values', h', hrun', hinv⟩ | hrun' <;> grind

end Cloudpilot.Hardware.Stick
