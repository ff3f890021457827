import Cloudpilot.Hardware.MemoryStick.HostController
import Cloudpilot.Hardware.MemoryStick.Protocol

/-! # Safety of the memory stick host controller

The stick has an output buffer only while the host reads, and it hands out a page only
while it executes a read. The write buffer has room for the bytes of a transfer.
-/
namespace Cloudpilot.Hardware.Stick
open Cloudpilot.Library Cloudpilot.Common

section Output

variable (s : MemoryStick)

@[simp] theorem setReg_bufferOut (offset : ℕ) (value : Byte) :
    (setReg s offset value).bufferOut = s.bufferOut := rfl

@[simp] theorem setFlags_bufferOut (flags : Byte) : (setFlags s flags).bufferOut = s.bufferOut := by
  simp only [setFlags]
  split_ifs <;> rfl

@[simp] theorem setOperation_bufferOut (operation : Operation) :
    (setOperation s operation).bufferOut = s.bufferOut := rfl

@[simp] theorem reset_bufferOut : (reset s).bufferOut = .null := rfl

@[simp] theorem releaseBuffer_bufferOut : (releaseBuffer s).bufferOut = .null := rfl

@[simp] theorem preparePage_bufferOut (oobOnly : Bool) :
    (preparePage s oobOnly).2.bufferOut = s.bufferOut := by
  simp only [preparePage, preparePageInto]
  cases s.cardImage with
  | none => rfl
  | some image =>
    dsimp only
    split_ifs
    · rfl
    · rfl
    · simp only [preparePageMapped]
      split_ifs <;> rfl

@[simp] theorem programPage_bufferOut (data : ℕ → Byte) :
    (programPage s data).2.bufferOut = s.bufferOut := by
  simp only [programPage]
  cases s.cardImage with
  | none => rfl
  | some image =>
    dsimp only
    split_ifs
    · rfl
    · rfl
    · rfl
    · simp only [storePage]
      split_ifs <;> rfl

@[simp] theorem eraseBlock_bufferOut : (eraseBlock s).2.bufferOut = s.bufferOut := by
  simp only [eraseBlock]
  split_ifs <;> rfl

theorem doCmdReadWith_bufferOut (oobOnly : Bool) (operation : Operation) (flags : Byte) :
    (doCmdReadWith s oobOnly operation flags).bufferOut = s.bufferOut := by
  have hframe := preparePage_bufferOut s oobOnly
  simp only [doCmdReadWith]
  generalize preparePage s oobOnly = result at hframe
  rcases result with ⟨_ | _, s'⟩ <;> simpa using hframe

@[simp] theorem doCmdRead_bufferOut : (doCmdRead s).bufferOut = s.bufferOut := by
  simp only [doCmdRead]
  cases decodeAccess (setOperation s .none).accessType <;>
    simp [doCmdReadWith_bufferOut, setOperation_bufferOut]

@[simp] theorem doCmdStop_bufferOut : (doCmdStop s).bufferOut = s.bufferOut := by
  simp only [doCmdStop]
  cases s.currentOperation <;> simp

@[simp] theorem doCmdProgram_bufferOut : (doCmdProgram s).bufferOut = s.bufferOut := by
  simp only [doCmdProgram]
  cases decodeAccess s.accessType
  · simp
  · split_ifs <;> simp [setOperation]
  · simp
  · simp
  · rfl

theorem doCmd_bufferOut (commandByte : Byte) (h : s.bufferOut = .null) :
    (doCmd s commandByte).bufferOut = .null := by
  simp only [doCmd]
  cases decodeCmd commandByte <;> simp [h]

theorem nextPage_bufferOut : (nextPage s).bufferOut = s.bufferOut := by
  simp only [nextPage]
  split_ifs <;> simp

theorem executeTpc_bufferOut_null {id : Byte} (dataInCount : ℕ) (dataIn : ℕ → Byte)
    (hwrite : getTpcType id = .write) (h : s.bufferOut = .null) :
    (executeTpc s id dataInCount dataIn).bufferOut = .null := by
  have hbegin : (beginTpc s).bufferOut = .null := h
  simp only [executeTpc]
  split_ifs
  · exact hbegin
  · simp only [getTpcType] at hwrite
    simp only [dispatchTpc]
    cases htpc : decodeTpc id <;> rw [htpc] at hwrite
    case setRegsWindow =>
      simp only [tpcSetRegsWindow, clearFlags]
      split_ifs <;> simpa using hbegin
    case regsWrite =>
      simp only [tpcRegsWrite, clearFlags]
      split_ifs <;> simpa using hbegin
    case setCmd =>
      dsimp only
      split_ifs
      · simpa using hbegin
      · exact doCmd_bufferOut _ _ hbegin
    case writeLongData =>
      simp only [tpcWriteLongData]
      split_ifs
      · simpa using hbegin
      · cases (beginTpc s).currentOperation <;>
          simp only [nextPage_bufferOut, programPage_bufferOut, setFlags_bufferOut,
            setOperation_bufferOut, keepPage, hbegin]
    all_goals cases hwrite

/-- The output buffer lies inside the object it is part of, and a page is handed out only
during a read. -/
def OutputInv : Prop :=
  match s.bufferOut with
  | .null => s.bufferOutSize = 0
  | .reg offset => offset + s.bufferOutSize < sizeofRegisters
  | .preparedPage =>
    s.bufferOutSize = 512 ∧ (s.currentOperation = .readOne ∨ s.currentOperation = .readMulti)

@[simp] theorem setFlags_bufferOutSize (flags : Byte) :
    (setFlags s flags).bufferOutSize = s.bufferOutSize := by
  simp only [setFlags]
  split_ifs <;> rfl

variable {s}

theorem OutputInv.of_null (h : s.bufferOut = .null) (hsize : s.bufferOutSize = 0) : OutputInv s := by
  simp only [OutputInv, h]
  exact hsize

theorem executeTpc_outputInv {id : Byte} (dataIn : ℕ → Byte) (hread : getTpcType id = .read)
    (h : s.bufferOut = .null) : OutputInv (executeTpc s id 0 dataIn) := by
  have hbegin : OutputInv (beginTpc s) := .of_null h rfl
  have herr : OutputInv (setFlags (beginTpc s) statusErr) :=
    .of_null (by rw [setFlags_bufferOut]; exact h) (by rw [setFlags_bufferOutSize]; rfl)
  simp only [executeTpc]
  split_ifs
  · exact hbegin
  · simp only [getTpcType] at hread
    simp only [dispatchTpc]
    cases htpc : decodeTpc id <;> rw [htpc] at hread
    case regsRead => grind [tpcRegsRead, OutputInv]
    case getInt =>
      simp only [tpcGetInt, OutputInv]
      decide
    case readLongData =>
      simp only [tpcReadLongData]
      cases hop : (beginTpc s).currentOperation
      case readOne => exact ⟨rfl, .inl hop⟩
      case readMulti => exact ⟨rfl, .inr hop⟩
      all_goals
        apply OutputInv.of_null
        · dsimp only
          rwa [setFlags_bufferOut]
        · rfl
    case unsupported => exact herr
    all_goals cases hread

theorem finishReadTpc_spec (h : OutputInv s) :
    ∃ s', finishReadTpc s = some s' ∧ s'.bufferOut = .null := by
  simp only [finishReadTpc]
  split_ifs with hpage
  · simp
  · rw [not_not] at hpage
    simp only [OutputInv, hpage] at h
    rcases h.2 with hop | hop
    · simp [hop]
    · refine ⟨_, by rw [hop], ?_⟩
      have hframe := preparePage_bufferOut
        (setReg (releaseBuffer s) pageOffset ((releaseBuffer s).page + 1#8)) false
      simp only [readNextPage]
      generalize preparePage (setReg (releaseBuffer s) pageOffset
        ((releaseBuffer s).page + 1#8)) false = result at hframe
      rcases result with ⟨_ | _, s'⟩ <;> simpa using hframe

theorem mount_bufferOut {s' : MemoryStick} {image : CardImage} (h : mount s image = some s') :
    s'.bufferOut = .null ∧ s'.bufferOutSize = 0 := by
  rw [mount, Option.bind_eq_some_iff] at h
  obtain ⟨layout, -, h⟩ := h
  rw [Option.map_eq_some_iff] at h
  obtain ⟨map, -, rfl⟩ := h
  exact ⟨rfl, rfl⟩

end Output

/-- The output buffer exists only in a read transfer, and the next byte fits into the write
buffer. -/
structure HostInv (h : HostController) : Prop where
  command : h.state = .tpcWrite → getTpcType (tpcId h) = .write
  noOutput : h.state ≠ .tpcRead → h.memoryStick.bufferOut = .null
  output : h.state = .tpcRead → OutputInv h.memoryStick
  room : h.state ≠ .idle → h.writeBufferSize < max 1 (getTransferSize h)

theorem getTransferSize_le (h : HostController) : getTransferSize h ≤ sizeofWriteBuffer := by
  simp only [getTransferSize, sizeofWriteBuffer]
  split_ifs <;> omega

/-- What an interrupt changes: the status words. -/
structure SameTransfer (h h' : HostController) : Prop where
  mscmd : h'.mscmd = h.mscmd
  memoryStick : h'.memoryStick = h.memoryStick
  state : h'.state = h.state
  fifo : h'.fifo = h.fifo
  writeBuffer : h'.writeBuffer = h.writeBuffer
  writeBufferSize : h'.writeBufferSize = h.writeBufferSize
  readBufferIndex : h'.readBufferIndex = h.readBufferIndex

theorem SameTransfer.refl (h : HostController) : SameTransfer h h :=
  ⟨rfl, rfl, rfl, rfl, rfl, rfl, rfl⟩

variable {h : HostController}

theorem SameTransfer.trans {h' h'' : HostController} (hs : SameTransfer h h')
    (hs' : SameTransfer h' h'') : SameTransfer h h'' :=
  ⟨hs'.mscmd.trans hs.mscmd, hs'.memoryStick.trans hs.memoryStick, hs'.state.trans hs.state,
    hs'.fifo.trans hs.fifo, hs'.writeBuffer.trans hs.writeBuffer,
    hs'.writeBufferSize.trans hs.writeBufferSize, hs'.readBufferIndex.trans hs.readBufferIndex⟩

theorem SameTransfer.transferSize {h' : HostController} (hs : SameTransfer h h') :
    getTransferSize h' = getTransferSize h := by
  simp only [getTransferSize, hs.mscmd]

theorem SameTransfer.inv {h' : HostController} (hs : SameTransfer h h') (hinv : HostInv h) :
    HostInv h' := by
  constructor
  · intro hstate
    rw [tpcId, hs.mscmd]
    exact hinv.command (hs.state ▸ hstate)
  · intro hstate
    rw [hs.memoryStick]
    exact hinv.noOutput (hs.state ▸ hstate)
  · intro hstate
    rw [hs.memoryStick]
    exact hinv.output (hs.state ▸ hstate)
  · intro hstate
    rw [hs.writeBufferSize, hs.transferSize]
    exact hinv.room (hs.state ▸ hstate)

theorem updateIrqLine_same (h : HostController) : SameTransfer h (updateIrqLine h) := by
  simp only [updateIrqLine]
  split_ifs <;> exact ⟨rfl, rfl, rfl, rfl, rfl, rfl, rfl⟩

theorem raiseIrq_same (h : HostController) (bits : Byte) : SameTransfer h (raiseIrq h bits) := by
  have hline := updateIrqLine_same { h with irqStat := h.irqStat ||| bits }
  exact ⟨hline.mscmd, hline.memoryStick, hline.state, hline.fifo, hline.writeBuffer,
    hline.writeBufferSize, hline.readBufferIndex⟩

theorem negateIrq_same (h : HostController) (bits : Byte) : SameTransfer h (negateIrq h bits) := by
  have hline := updateIrqLine_same { h with irqStat := h.irqStat &&& ~~~bits }
  exact ⟨hline.mscmd, hline.memoryStick, hline.state, hline.fifo, hline.writeBuffer,
    hline.writeBufferSize, hline.readBufferIndex⟩

theorem deliver_same (h : HostController) (s : MemoryStick) :
    SameTransfer { h with memoryStick := { s with irqs := 0 } } (deliver h s) := by
  simp only [deliver]
  generalize { h with memoryStick := { s with irqs := 0 } } = h'
  generalize s.irqs = count
  induction count generalizing h' with
  | zero => exact .refl h'
  | succ count ih =>
    rw [Function.iterate_succ_apply]
    exact (raiseIrq_same h' irqSif).trans (ih _)

theorem setState_same (h : HostController) (state : HostState) :
    SameTransfer { h with state := state } (setState h state) := by
  simp only [setState]
  split_ifs
  · have hraise := raiseIrq_same h irqRdy
    exact ⟨hraise.mscmd, hraise.memoryStick, rfl, hraise.fifo, hraise.writeBuffer,
      hraise.writeBufferSize, hraise.readBufferIndex⟩
  · exact .refl _

theorem HostInv.of_idle (hstate : h.state = .idle) (hnull : h.memoryStick.bufferOut = .null) :
    HostInv h := by
  refine ⟨fun hwrite => ?_, fun _ => hnull, fun hread => ?_, fun hbusy => absurd hstate hbusy⟩
  all_goals
    grind

theorem endTransfer_inv {s : MemoryStick} (hs : s.bufferOut = .null) :
    HostInv (endTransfer (deliver h s)) ∧ (endTransfer (deliver h s)).state = .idle := by
  have hidle := setState_same { deliver h s with fifo := (deliver h s).fifo.clear } .idle
  have hstate : (endTransfer (deliver h s)).state = .idle := hidle.state
  have hstick : (endTransfer (deliver h s)).memoryStick = { s with irqs := 0 } :=
    hidle.memoryStick.trans (deliver_same h s).memoryStick
  refine ⟨HostInv.of_idle hstate ?_, hstate⟩
  rwa [hstick]

theorem finishTpc_spec (hcommand : h.state = .tpcWrite →
      getTpcType (tpcId h) = .write) (hnull : h.state ≠ .tpcRead → h.memoryStick.bufferOut = .null)
    (houtput : h.state = .tpcRead → OutputInv h.memoryStick) (hbusy : h.state ≠ .idle) :
    ∃ h', finishTpc h = .ok h' ∧ HostInv h' ∧ h'.state = .idle := by
  simp only [finishTpc]
  split_ifs with hstate
  · have hstick := hnull (by rw [hstate]; decide)
    exact ⟨_, rfl, endTransfer_inv (executeTpc_bufferOut_null _ _ _ (hcommand hstate) hstick)⟩
  · have hread : h.state = .tpcRead := by
      cases hs : h.state with
      | idle => exact absurd hs hbusy
      | tpcWrite => exact absurd hs hstate
      | tpcRead => rfl
    obtain ⟨s', hfinish, hstick⟩ := finishReadTpc_spec (houtput hread)
    rw [hfinish]
    exact ⟨_, rfl, endTransfer_inv hstick⟩

theorem appendByte_spec (hinv : HostInv h) (hbusy : h.state ≠ .idle) (data : Byte) :
    storeByte h data = .ok (appendByte h data) ∧
      ((appendByte h data).writeBufferSize < getTransferSize (appendByte h data) →
        HostInv (appendByte h data)) ∧
      ∃ h', finishTpc (appendByte h data) = .ok h' ∧ HostInv h' ∧ h'.state = .idle := by
  have hroom := hinv.room hbusy
  have hle := getTransferSize_le h
  refine ⟨if_pos ?_, fun hmore => ?_, ?_⟩
  · grind [sizeofWriteBuffer]
  · exact ⟨hinv.command, hinv.noOutput, hinv.output, fun _ => lt_max_of_lt_right hmore⟩
  · exact finishTpc_spec hinv.command hinv.noOutput hinv.output hbusy

theorem transferWord_inv (hinv : HostInv h) (hbusy : h.state ≠ .idle) (data : BitVec 16) :
    ∃ h', transferWord h data = .ok h' ∧ HostInv h' := by
  obtain ⟨hstore, hmore, h₁, hfinish, hinv₁, -⟩ :=
    appendByte_spec hinv hbusy ((data >>> 8).setWidth 8)
  simp only [transferWord, hstore, bind, Except.bind]
  split_ifs with hlast
  · grind
  · have hinv₂ := hmore (by omega)
    obtain ⟨hstore', hmore', h₃, hfinish', hinv₃, -⟩ :=
      appendByte_spec hinv₂ hbusy (data.setWidth 8)
    simp only [hstore']
    split_ifs with hlast' <;> grind

theorem HostInv.setFifo (hinv : HostInv h) (fifo : Fifo) : HostInv { h with fifo := fifo } :=
  ⟨hinv.command, hinv.noOutput, hinv.output, hinv.room⟩

theorem fifoWrite_inv (hinv : HostInv h) (data : BitVec 16) :
    ∃ h', fifoWrite h data = .ok h' ∧ HostInv h' := by
  simp only [fifoWrite]
  split_ifs with hbusy
  · exact transferWord_inv hinv hbusy data
  · grind
  · exact ⟨_, rfl, hinv.setFifo _⟩

theorem drainFifo_inv (rounds : ℕ) (hinv : HostInv h) :
    ∃ h', drainFifo rounds h = .ok h' ∧ HostInv h' := by
  induction rounds generalizing h with
  | zero => exact ⟨h, rfl, hinv⟩
  | succ rounds ih =>
    rw [drainFifo]
    split_ifs
    · obtain ⟨h₁, hwrite, hinv₁⟩ := fifoWrite_inv (hinv.setFifo h.fifo.pop.2) h.fifo.pop.1
      rw [hwrite]
      exact ih hinv₁
    · grind

theorem startTransfer_same (state : HostState) :
    (startTransfer h state).state = state ∧ (startTransfer h state).mscmd = h.mscmd ∧
      (startTransfer h state).memoryStick = h.memoryStick ∧
      (startTransfer h state).writeBufferSize = 0 := by
  have hsame := setState_same h state
  exact ⟨hsame.state, hsame.mscmd, hsame.memoryStick, rfl⟩

theorem startWrite_inv (htype : getTpcType (tpcId h) = .write)
    (hnull : h.memoryStick.bufferOut = .null) :
    HostInv (startTransfer h .tpcWrite) ∧ (startTransfer h .tpcWrite).state = .tpcWrite := by
  obtain ⟨hstate, hmscmd, hstick, hsize⟩ := startTransfer_same (h := h) .tpcWrite
  generalize startTransfer h .tpcWrite = h₁ at hstate hmscmd hstick hsize
  have hwrite : getTpcType (tpcId h₁) = .write := by rw [tpcId, hmscmd]; exact htype
  refine ⟨⟨fun _ => hwrite, fun _ => hstick ▸ hnull, fun hread => ?_, fun _ => ?_⟩, hstate⟩
  · grind
  · omega

theorem hostBeginTpc_inv (hinv : HostInv h) (hidle : h.state = .idle) :
    ∃ h', hostBeginTpc h = .ok h' ∧ HostInv h' := by
  have hnull : h.memoryStick.bufferOut = .null := hinv.noOutput (by rw [hidle]; decide)
  simp only [hostBeginTpc]
  cases htype : getTpcType (tpcId h) with
  | read =>
    obtain ⟨hstate, hmscmd, hstick, hsize⟩ := startTransfer_same (h := h) .tpcRead
    generalize startTransfer h .tpcRead = h₁ at hstate hmscmd hstick hsize
    have hread : getTpcType (tpcId h₁) = .read := by rw [tpcId, hmscmd]; exact htype
    have houtput : OutputInv (executeTpc h₁.memoryStick (tpcId h₁) 0 fun _ => 0#8) :=
      executeTpc_outputInv _ hread (hstick ▸ hnull)
    have hsame := deliver_same h₁ (executeTpc h₁.memoryStick (tpcId h₁) 0 fun _ => 0#8)
    refine ⟨_, rfl, fun hwrite => ?_, fun hno => ?_, fun _ => ?_, fun _ => ?_⟩
    · grind [beginRead, hsame.state]
    · grind [beginRead, hsame.state]
    · rwa [beginRead, hsame.memoryStick]
    · grind [beginRead, hsame.writeBufferSize]
  | write =>
    obtain ⟨hinv₁, hstate⟩ := startWrite_inv htype hnull
    generalize startTransfer h .tpcWrite = h₁ at hinv₁ hstate
    dsimp only [beginWrite]
    split_ifs
    · obtain ⟨h₂, hfinish, hinv₂, -⟩ := finishTpc_spec hinv₁.command hinv₁.noOutput hinv₁.output
        (by rw [hstate]; decide)
      exact ⟨h₂, hfinish, hinv₂⟩
    · exact drainFifo_inv _ hinv₁

theorem nextByte_spec (houtput : OutputInv h.memoryStick) (hsome : h.memoryStick.bufferOut ≠ .null)
    : ∃ byte index, nextByte h = .ok (byte, { h with readBufferIndex := index }) := by
  simp only [nextByte]
  split_ifs with hindex
  · have hfetch : ∃ byte, fetchByte h.memoryStick h.readBufferIndex = .ok byte := by
      rw [fetchByte, if_pos hindex]
      simp only [OutputInv] at houtput
      cases hout : h.memoryStick.bufferOut with
      | null => exact absurd hout hsome
      | reg offset =>
        rw [hout] at houtput
        exact ⟨_, if_pos (by dsimp only at houtput; omega)⟩
      | preparedPage =>
        rw [hout] at houtput
        exact ⟨_, if_pos (by dsimp only at houtput; omega)⟩
    obtain ⟨byte, hbyte⟩ := hfetch
    rw [hbyte]
    exact ⟨byte, _, rfl⟩
  · grind

theorem nextWord_spec (houtput : OutputInv h.memoryStick) :
    ∃ value index, nextWord h = .ok (value, { h with readBufferIndex := index }) := by
  simp only [nextWord]
  split_ifs with hnull
  · simp
  · obtain ⟨high, index, hhigh⟩ := nextByte_spec houtput hnull
    obtain ⟨low, index', hlow⟩ := nextByte_spec (h := { h with readBufferIndex := index })
      houtput hnull
    rw [hhigh]
    change ∃ value index, (nextByte { h with readBufferIndex := _ } >>= _) = _
    rw [hlow]
    exact ⟨_, index', rfl⟩

theorem msdataRead_inv (hinv : HostInv h) (size : Size) :
    ∃ value h', msdataRead h size = .ok (value, h') ∧ HostInv h' := by
  simp only [msdataRead]
  split_ifs with hsize hread
  · grind
  · obtain ⟨value, index, hword⟩ := nextWord_spec (hinv.output hread)
    simp only [hword, bind, Except.bind]
    split_ifs
    · obtain ⟨h', hfinish, hinv', -⟩ := finishTpc_spec (h := { h with readBufferIndex := index })
        hinv.command hinv.noOutput hinv.output (by dsimp only; rw [hread]; decide)
      simp only [hfinish]
      exact ⟨value, h', rfl, hinv'⟩
    · exact ⟨value, _, rfl, hinv.command, hinv.noOutput, hinv.output, hinv.room⟩
  · grind

theorem resetHostController_inv (h : HostController) : HostInv (resetHostController h) :=
  .of_idle rfl rfl

theorem hostReset_inv (h : HostController) : HostInv (hostReset h) :=
  .of_idle rfl rfl

theorem HostInv.setStatus (hinv : HostInv h) (mscs msics msppcd : BitVec 16) :
    HostInv { h with mscs := mscs, msics := msics, msppcd := msppcd } :=
  ⟨hinv.command, hinv.noOutput, hinv.output, hinv.room⟩

theorem registerRead_inv (hinv : HostInv h) (register : Register) (atBase : Bool) (size : Size)
    (gpio : Byte) :
    ∃ value h', registerRead h register atBase size gpio = .ok (value, h') ∧ HostInv h' := by
  cases register with
  | mscmd => exact ⟨_, h, rfl, hinv⟩
  | mscs => exact ⟨_, h, rfl, hinv⟩
  | msdata => exact msdataRead_inv hinv size
  | msics => exact ⟨_, _, rfl, (negateIrq_same h _).inv hinv⟩
  | msppcd => exact ⟨_, _, rfl, hinv.setStatus h.mscs _ h.msppcd⟩
  | stub => exact ⟨_, h, rfl, hinv⟩

theorem registerWrite_inv (hinv : HostInv h) (register : Register) (atBase : Bool) (size : Size)
    (value : BitVec 32) :
    ∃ h', registerWrite h register atBase size value = .ok h' ∧ HostInv h' := by
  cases register with
  | mscmd =>
    simp only [registerWrite, mscmdWrite]
    split_ifs with hbusy hsize
    · grind
    · grind
    · rw [not_not] at hbusy
      apply hostBeginTpc_inv
      · exact .of_idle hbusy (hinv.noOutput (by rw [hbusy]; decide))
      · exact hbusy
  | mscs =>
    simp only [registerWrite, mscsWrite]
    split_ifs
    · exact ⟨_, rfl, (raiseIrq_same _ _).inv (resetHostController_inv _)⟩
    · exact ⟨_, rfl, hinv.setStatus _ h.msics h.msppcd⟩
  | msdata =>
    simp only [registerWrite, msdataWrite]
    split_ifs
    · grind
    · exact fifoWrite_inv hinv _
  | msics => exact ⟨_, rfl, hinv.setStatus h.mscs _ h.msppcd⟩
  | msppcd => exact ⟨_, rfl, hinv.setStatus h.mscs h.msics _⟩
  | stub => exact ⟨h, rfl, hinv⟩

theorem HostInv.setStick (hinv : HostInv h) {s : MemoryStick} (hnull : s.bufferOut = .null)
    (hsize : s.bufferOutSize = 0) : HostInv { h with memoryStick := s } :=
  ⟨hinv.command, fun _ => hnull, fun _ => .of_null hnull hsize, hinv.room⟩

theorem hostStep_inv (hinv : HostInv h) (access : Access) :
    (∃ value h', hostStep h access = .ok (value, h') ∧ HostInv h') ∨
      hostStep h access = .error .mount := by
  cases access with
  | read register atBase size gpio =>
    obtain ⟨value, h', hread, hinv'⟩ := registerRead_inv hinv register atBase size gpio
    exact .inl ⟨some value, h', by rw [hostStep, hread]; rfl, hinv'⟩
  | write register atBase size value =>
    obtain ⟨h', hwrite, hinv'⟩ := registerWrite_inv hinv register atBase size value
    exact .inl ⟨none, h', by rw [hostStep, hwrite]; rfl, hinv'⟩
  | notifyGpioChanged => exact .inl ⟨none, _, rfl, (raiseIrq_same h irqPin).inv hinv⟩
  | mount cardImage =>
    simp only [hostStep, hostMount]
    cases hmount : mount h.memoryStick cardImage with
    | none => exact .inr rfl
    | some s =>
      obtain ⟨hnull, hsize⟩ := mount_bufferOut hmount
      exact .inl ⟨none, _, rfl, hinv.setStick hnull hsize⟩
  | unmount =>
    exact .inl ⟨none, _, rfl, hinv.command, hinv.noOutput, hinv.output, hinv.room⟩
  | reset => exact .inl ⟨none, _, rfl, hostReset_inv h⟩

theorem hostRun_inv (hinv : HostInv h) (accesses : List Access) :
    (∃ values h', hostRun h accesses = .ok (values, h') ∧ HostInv h') ∨
      hostRun h accesses = .error .mount := by
  induction accesses generalizing h with
  | nil => exact .inl ⟨[], h, rfl, hinv⟩
  | cons access accesses ih =>
    rw [hostRun]
    rcases hostStep_inv hinv access with ⟨value, h₁, hstep, hinv₁⟩ | hstep
    · rw [hstep]
      rcases ih hinv₁ with ⟨values, h₂, hrest, hinv₂⟩ | hrest
      · exact .inl ⟨value :: values, h₂, by simp only [bind, Except.bind, hrest], hinv₂⟩
      · simp [bind, Except.bind, hrest]
    · rw [hstep]
      exact .inr rfl

/-- From reset on no sequence of accesses stores a byte behind the write buffer, reads one
behind the output buffer of the stick or makes the assertion fail. -/
theorem hostRun_safe (h : HostController) (accesses : List Access) :
    hostRun (hostReset h) accesses ≠ .error .writeBuffer ∧
      hostRun (hostReset h) accesses ≠ .error .dataOut ∧
      hostRun (hostReset h) accesses ≠ .error .finishReadTpc := by
  rcases hostRun_inv (hostReset_inv h) accesses with ⟨values, h', hrun, -⟩ | hrun <;> simp [hrun]

end Cloudpilot.Hardware.Stick
