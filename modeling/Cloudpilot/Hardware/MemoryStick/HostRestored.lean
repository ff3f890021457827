import Cloudpilot.Hardware.MemoryStick.HostFuture
import Cloudpilot.Hardware.MemoryStick.HostSavestate
import Cloudpilot.Hardware.MemoryStick.ReadAfterProgram

/-! # The restored memory stick

A register window that starts at offset 0 is saved like no output buffer. A transfer in it
reads zeros after the savestate has been loaded; everything else comes back.
-/
namespace Cloudpilot.Hardware.Stick
open Cloudpilot.Library Cloudpilot.Common
open Cloudpilot.Savestate hiding Byte

section Restored

variable {h h₁ : HostController}

theorem decodeBufferOut_reg {offset : ℕ} (hpos : 0 < offset) (hlt : offset < sizeofRegisters) :
    decodeBufferOut (encodeBufferOut (.reg offset)) = .reg offset := by
  rw [sizeofRegisters] at hlt
  have hbyte : (BitVec.ofNat 8 offset).toNat = offset := by grind
  have hne : BitVec.ofNat 8 offset ≠ 0#8 := by
    intro hzero
    rw [hzero] at hbyte
    exact hpos.ne hbyte
  rw [encodeBufferOut, if_pos (by rw [sizeofRegisters]; exact hlt), decodeBufferOut, if_neg hne,
    hbyte, if_pos (by rw [sizeofRegisters]; exact hlt)]

/-- The pointer survives, unless it points to the start of the register file. -/
theorem decodeBufferOut_encode (hinv : HostInv h) : h.memoryStick.bufferOut ≠ .reg 0 →
    decodeBufferOut (encodeBufferOut h.memoryStick.bufferOut) = h.memoryStick.bufferOut := by
  intro hstart
  cases hout : h.memoryStick.bufferOut with
  | null => rfl
  | preparedPage => decide
  | reg offset =>
    have hread : h.state = .tpcRead := by
      by_contra hread
      have hnull := hinv.noOutput hread
      rw [hout] at hnull
      cases hnull
    have houtput := hinv.output hread
    simp only [OutputInv, hout] at houtput
    apply decodeBufferOut_reg
    · grind
    · omega

theorem restored_eq (hb : HostBounds h) (hb₁ : HostBounds h₁)
    (hmap : h₁.memoryStick.blockMap = h.memoryStick.blockMap) :
    hostRemount { h with memoryStick := restoredStick h.memoryStick h₁.memoryStick }
        h.memoryStick.cardImage =
      h.relocated h₁.memoryStick.blockMapDirtyPages
        (decodeBufferOut (encodeBufferOut h.memoryStick.bufferOut)) h.readBufferIndex := by
  have hirqs : h₁.memoryStick.irqs = h.memoryStick.irqs := hb₁.irqs.trans hb.irqs.symm
  have hrestored : restoredStick h.memoryStick h₁.memoryStick =
      { h.memoryStick.withDirty h₁.memoryStick.blockMapDirtyPages with
        bufferOut := decodeBufferOut (encodeBufferOut h.memoryStick.bufferOut)
        cardImage := h₁.memoryStick.cardImage } := by
    rw [restoredStick, hmap, hirqs]
    rfl
  rw [hrestored]
  cases hcard : h.memoryStick.cardImage with
  | none =>
    rw [hostRemount, hostUnmount, unmount, HostController.relocated, ← hcard]
    rfl
  | some image =>
    rw [hostRemount, remount, HostController.relocated, ← hcard]
    rfl

/-- A transfer hands out bytes of a register window that starts at offset 0, and not all of
them are zero. -/
def LosesOutput (h : HostController) : Prop :=
  h.state = .tpcRead ∧ h.memoryStick.bufferOut = .reg 0 ∧ ¬ RestZero h

theorem restored_alike (hinv : HostInv h) (hkeeps : ¬ LosesOutput h) (dirty : ℕ → Byte) :
    Alike h (h.relocated dirty (decodeBufferOut (encodeBufferOut h.memoryStick.bufferOut))
      h.readBufferIndex) := by
  refine ⟨dirty, _, _, rfl, fun _ => rfl, ?_⟩
  by_cases hzero : h.memoryStick.bufferOut = .reg 0
  · have hread : h.state = .tpcRead := by
      by_contra hread
      have hnull := hinv.noOutput hread
      rw [hzero] at hnull
      cases hnull
    rw [LosesOutput, not_and, not_and, not_not] at hkeeps
    exact .inr ⟨hread, by rw [hzero]; decide, hzero, hkeeps hread hzero⟩
  · exact .inl (decodeBufferOut_encode hinv hzero)

def dataWord : Access := .read .msdata true .word 0#8

theorem dataWord_step {value : BitVec 32} (hread : h.state = .tpcRead)
    (hword : nextWord h = .ok (value, h₁)) {h₂ : HostController}
    (hafter : afterWord h₁ value = .ok (value, h₂)) : hostStep h dataWord = .ok (some value, h₂) := by
  rw [dataWord, hostStep, registerRead, msdataRead_eq hread hword, hafter]
  rfl

theorem afterWord_relocated (hinv : HostInv h) (hread : h.state = .tpcRead) (dirty : ℕ → Byte)
    {out : BufferOut} (hout : SameEnd h out) (index : ℕ) (value : BitVec 32) :
    ∃ h₂, afterWord (h.relocated dirty out index) value = .ok (value, h₂) := by
  rw [afterWord]
  split_ifs
  · obtain ⟨h₂, hfinish, -⟩ := finishTpc_spec hinv.command hinv.noOutput hinv.output
      (by rw [hread]; decide)
    obtain ⟨h₂', hfinish', -⟩ := finishTpc_alike hinv.command hinv.noOutput hinv.output
      (by rw [hread]; decide) dirty index hout hfinish
    rw [hfinish']
    exact ⟨h₂', rfl⟩
  · simp

theorem values_tail {value value' : Option (BitVec 32)}
    {r r' : Except Fault (List (Option (BitVec 32)))}
    (h : r.map (value :: ·) = r'.map (value' :: ·)) : r = r' := by
  cases r <;> cases r' <;> simp_all [Except.map]

theorem hostRun_lost (hinv : HostInv h) (hread : h.state = .tpcRead) (dirty : ℕ → Byte)
    (hzero : h.memoryStick.bufferOut = .reg 0) {k i : ℕ}
    (hk : k = 0 ∨ h.readBufferIndex + 2 * k <
      min (getTransferSize h) h.memoryStick.bufferOutSize)
    (hle : h.readBufferIndex + 2 * k ≤ i) (hlt : i < h.readBufferIndex + 2 * k + 2)
    (hin : i < h.memoryStick.bufferOutSize) (hbyte : h.memoryStick.reg i ≠ 0#8) :
    (hostRun (h.relocated dirty .null h.readBufferIndex) (List.replicate (k + 1) dataWord)).map
        Prod.fst ≠ (hostRun h (List.replicate (k + 1) dataWord)).map Prod.fst := by
  have hword := nextWord_window (hinv.output hread) hzero
  have hlost := nextWord_lost (h := h.relocated dirty .null h.readBufferIndex) rfl
  have hnext : nextIndex h.memoryStick h.readBufferIndex = h.readBufferIndex + 1 :=
    if_pos (by omega)
  induction k generalizing h with
  | zero =>
    generalize hvalue : (windowByte h.memoryStick h.readBufferIndex).setWidth 32 <<< 8 |||
      (windowByte h.memoryStick (nextIndex h.memoryStick h.readBufferIndex)).setWidth 32 = value
      at hword
    have hne : value ≠ 0#32 := by
      rintro rfl
      obtain ⟨hhigh, hlow⟩ := word_eq_zero hvalue
      rw [hnext] at hlow
      have hi : i = h.readBufferIndex ∨ i = h.readBufferIndex + 1 := by omega
      apply hbyte
      rcases hi with rfl | rfl
      · rwa [windowByte, if_pos hin] at hhigh
      · rwa [windowByte, if_pos hin] at hlow
    have hinv₁ : HostInv { h with readBufferIndex := _ } :=
      ⟨hinv.command, hinv.noOutput, hinv.output, hinv.room⟩
    obtain ⟨h₂, hafter⟩ := afterWord_relocated hinv₁ hread h.memoryStick.blockMapDirtyPages
      (.inl rfl) (nextIndex h.memoryStick (nextIndex h.memoryStick h.readBufferIndex)) value
    obtain ⟨h₂', hafter'⟩ := afterWord_relocated hinv hread dirty (.inr ⟨hread, rfl, hzero⟩)
      (h.readBufferIndex + 2) 0#32
    have hstep := dataWord_step hread hword hafter
    have hstep' := dataWord_step (by exact hread) hlost hafter'
    rw [List.replicate_succ, List.replicate_zero, hostRun_values hstep, hostRun_values hstep']
    intro hsame
    exact hne (Option.some.inj (List.cons.inj (Except.ok.inj hsame)).1).symm
  | succ k ih =>
    have hmore : h.readBufferIndex + 2 < min (getTransferSize h) h.memoryStick.bufferOutSize := by
      omega
    have hnext' : nextIndex h.memoryStick (nextIndex h.memoryStick h.readBufferIndex) =
        h.readBufferIndex + 2 := by
      rw [hnext]
      exact if_pos (by omega)
    rw [hnext'] at hword
    have hinv₁ : HostInv { h with readBufferIndex := h.readBufferIndex + 2 } :=
      ⟨hinv.command, hinv.noOutput, hinv.output, hinv.room⟩
    have hrest := ih hinv₁ hread hzero (.inr (by dsimp only; exact (by omega :
        h.readBufferIndex + 2 + 2 * k < min (getTransferSize h) h.memoryStick.bufferOutSize)))
      (by dsimp only; omega) (by dsimp only; omega) hin hbyte
      (nextWord_window (hinv₁.output hread) hzero) (nextWord_lost rfl)
      (if_pos (by dsimp only; omega))
    have hstep := dataWord_step hread hword (if_neg (by exact not_le.mpr hmore))
    have hstep' := dataWord_step (by exact hread) hlost (if_neg (by exact not_le.mpr hmore))
    rw [List.replicate_succ, hostRun_values hstep, hostRun_values hstep']
    exact fun hsame => hrest (values_tail hsame)

/-- Saving, loading into `h₁` and remounting the card leave the future as it is. -/
def Restores {arch : Arch} (t : Target arch) (h h₁ : HostController) : Prop :=
  ∃ s, save t.requests = (true, some s) ∧ ∃ (hfits : s.size < 2 ^ (arch.width - 1)) (h₂ : _),
    loadHost (bufferOf s hfits) h₁ = some h₂ ∧
      ∀ accesses, (hostRun (hostRemount h₂ h.memoryStick.cardImage) accesses).map Prod.fst =
        (hostRun h accesses).map Prod.fst

theorem keeps_of_restores {arch : Arch} (t : Target arch) {h h₁ : HostController}
    (hreach : HostReachable h) (hreach₁ : HostReachable h₁)
    (hmap : h₁.memoryStick.blockMap = h.memoryStick.blockMap)
    (hsub : hostRequests h ⊆ t.requests)
    (hsizes : ∀ r ∈ t.requests, probeSize r.items < 2 ^ 32) (hrestores : Restores t h h₁) :
    ¬ LosesOutput h := by
  obtain ⟨hb, -⟩ := hreach.bounds
  obtain ⟨hb₁, -⟩ := hreach₁.bounds
  obtain ⟨s, hsave, hfits, hload⟩ := loadHost_saved t h₁ hb hsub hsizes
  rintro ⟨hread, hzero, hrest⟩
  obtain ⟨s', hsave', hfits', h₂, hload', hfuture⟩ := hrestores
  rw [hsave] at hsave'
  cases hsave'
  rw [hload] at hload'
  cases hload'
  simp only [RestZero, not_forall] at hrest
  obtain ⟨i, ⟨k, hk, hle, hlt, hin⟩, hbyte⟩ := hrest
  rw [restored_eq hb hb₁ hmap, hzero] at hfuture
  exact hostRun_lost hreach.inv hread _ hzero hk hle hlt hin hbyte (hfuture _)

/-- The savestate is lossless unless a register window that starts at offset 0 is being read
and one of its bytes that are still to come is not zero. The block map is part of the
emulated memory and comes back with it. -/
theorem restores_iff {arch : Arch} (t : Target arch) {h h₁ : HostController}
    (hreach : HostReachable h) (hreach₁ : HostReachable h₁)
    (hmap : h₁.memoryStick.blockMap = h.memoryStick.blockMap)
    (hsub : hostRequests h ⊆ t.requests)
    (hsizes : ∀ r ∈ t.requests, probeSize r.items < 2 ^ 32) :
    Restores t h h₁ ↔ ¬ LosesOutput h := by
  constructor
  · exact keeps_of_restores t hreach hreach₁ hmap hsub hsizes
  · intro hkeeps
    obtain ⟨hb, -⟩ := hreach.bounds
    obtain ⟨hb₁, -⟩ := hreach₁.bounds
    obtain ⟨s, hsave, hfits, hload⟩ := loadHost_saved t h₁ hb hsub hsizes
    refine ⟨s, hsave, hfits, _, hload, fun accesses => ?_⟩
    rw [restored_eq hb hb₁ hmap]
    exact hostRun_alike hreach.inv (restored_alike hreach.inv hkeeps _) accesses

end Restored

theorem probeSize_host (h : HostController) :
    probeSize (stickItems h.memoryStick) = 141 ∧ probeSize (hostItems h) = 138 := by
  simp [probeSize, stickItems, stickFields, hostItems, hostFields, Item.probe, bytes, fifoBytes,
    wordSize, sizeofRegisters, sizeofWriteBuffer, fifoCapacity]

/-- The savestate of nothing but the stick and its controller. -/
def hostTarget (h : HostController) : Target .bits64 where
  requests := hostRequests h
  once := by simp [hostRequests]
  wellFormed := by
    simp [hostRequests, stickItems, stickFields, hostItems, hostFields, Item.WellFormed]
  fits := by
    rw [bufferSize, probeMap, hostRequests, List.map_cons, List.map_cons, List.map_nil,
      (probeSize_host h).1, (probeSize_host h).2]
    dsimp only
    decide

theorem hostTarget_sizes (h : HostController) :
    ∀ r ∈ (hostTarget h).requests, probeSize r.items < 2 ^ 32 := by
  simp [hostTarget, hostRequests, probeSize_host]

def blankHost : HostController where
  mscmd := 0#16
  mscs := 0#16
  msics := 0#16
  msppcd := 0#16
  irqStat := 0#8
  memoryStick := blankStick
  state := .idle
  fifo := ⟨fun _ => 0#16, 0, 0⟩
  writeBuffer _ := 0#8
  writeBufferSize := 0
  readBufferIndex := 0

theorem blankHost_bounds : HostBounds blankHost := by
  refine ⟨⟨fun _ _ => rfl, fun _ _ => rfl, Nat.zero_le _⟩, rfl, fun _ _ => rfl, Nat.zero_le _,
    Nat.zero_le _, ⟨fun _ _ => rfl, Nat.zero_lt_succ _, Nat.zero_le _⟩⟩

/-- The controller with the small stick. -/
def mountedHost : HostController :=
  { hostReset blankHost with memoryStick := smallStick }

theorem hostMount_smallCard : hostMount (hostReset blankHost) smallCard = .ok mountedHost := by
  have hmount : mount (hostReset blankHost).memoryStick smallCard = mount blankStick smallCard := rfl
  rw [hostMount, hmount, mount_smallCard]
  rfl

theorem mountedHost_reachable : HostReachable mountedHost := by
  refine ⟨blankHost, [.mount smallCard], [none], blankHost_bounds, ?_⟩
  rw [hostRun, hostStep, hostMount_smallCard]
  rfl

/-- An idle controller comes back as it was. -/
theorem mountedHost_restored : Restores (hostTarget mountedHost) mountedHost mountedHost :=
  (restores_iff (hostTarget mountedHost) mountedHost_reachable mountedHost_reachable rfl
    (List.Subset.refl _) (hostTarget_sizes _)).mpr fun hloses => HostState.noConfusion hloses.1

def readRegisters : Access := .write .mscmd true .word 0x401e#32

/-- An idle controller after `readRegisters`. -/
def windowOf (h : HostController) : HostController :=
  beginRead (startTransfer
    { clearIrqFlags h (irqSif ||| irqRdy) with mscmd := 0x401e#16 } .tpcRead)

/-- The small stick with its registers being read. -/
def windowHost : HostController := windowOf mountedHost

theorem windowHost_reachable : HostReachable windowHost := by
  refine ⟨blankHost, [.mount smallCard, readRegisters], [none, none], blankHost_bounds, ?_⟩
  rw [hostRun, hostStep, hostMount_smallCard]
  rfl

theorem mount_registers {s s' : MemoryStick} {image : CardImage} (h : mount s image = some s') :
    s'.reg = (reset s).reg ∧ s'.readWindowStart = 0#8 ∧ s'.readWindowSize = 0x1e#8 ∧
      s'.cardImage = some image := by
  rw [mount, Option.bind_eq_some_iff] at h
  obtain ⟨layout, -, h⟩ := h
  rw [Option.map_eq_some_iff] at h
  obtain ⟨map, -, rfl⟩ := h
  exact ⟨rfl, rfl, rfl, rfl⟩

/-- The window as the output buffer. -/
def windowOut (s : MemoryStick) : MemoryStick :=
  { s with bufferOutSize := s.readWindowSize.toNat, bufferOut := .reg s.readWindowStart.toNat }

theorem windowOf_same {h : HostController} {s : MemoryStick} (hs : h.memoryStick = s)
    (hcard : s.cardImage.isSome)
    (hwindow : s.readWindowStart.toNat + s.readWindowSize.toNat < sizeofRegisters) :
    (windowOf h).memoryStick = { windowOut s with irqs := 0 } ∧
      (windowOf h).state = .tpcRead ∧ (windowOf h).mscmd = 0x401e#16 ∧
      (windowOf h).readBufferIndex = 0 := by
  rw [windowOf]
  obtain ⟨hstate, hmscmd, hstick, -⟩ := startTransfer_same
    (h := { clearIrqFlags h (irqSif ||| irqRdy) with mscmd := 0x401e#16 }) .tpcRead
  have hindex : (startTransfer { clearIrqFlags h (irqSif ||| irqRdy) with mscmd := 0x401e#16 }
    .tpcRead).readBufferIndex = 0 := rfl
  generalize startTransfer { clearIrqFlags h (irqSif ||| irqRdy) with mscmd := 0x401e#16 }
    .tpcRead = h₁ at hstate hmscmd hstick hindex
  have hstick' : h₁.memoryStick = s := hstick.trans hs
  have hmscmd' : h₁.mscmd = 0x401e#16 := hmscmd
  have htpc : decodeTpc (tpcId h₁) = .regsRead := by
    rw [tpcId, hmscmd']
    decide
  have hexecute : executeTpc h₁.memoryStick (tpcId h₁) 0 (fun _ => 0#8) = windowOut s := by
    have hsome : ¬ s.cardImage.isNone = true := by
      rw [Option.isNone_iff_eq_none]
      exact Option.isSome_iff_ne_none.mp hcard
    rw [executeTpc, hstick', if_neg hsome, dispatchTpc, htpc]
    exact if_neg (not_le.mpr hwindow)
  have hsame := deliver_same h₁ (windowOut s)
  rw [beginRead, hexecute]
  exact ⟨hsame.memoryStick, hsame.state.trans hstate, hsame.mscmd.trans hmscmd,
    hsame.readBufferIndex.trans hindex⟩

theorem windowHost_output : windowHost.state = .tpcRead ∧ windowHost.mscmd = 0x401e#16 ∧
    windowHost.readBufferIndex = 0 ∧ windowHost.memoryStick.bufferOut = .reg 0 ∧
    windowHost.memoryStick.bufferOutSize = 30 ∧ windowHost.memoryStick.reg 4 = 0xff#8 ∧
    windowHost.memoryStick.blockMap = smallStick.blockMap := by
  obtain ⟨hreg, hstart, hsize, hcard⟩ := mount_registers mount_smallCard
  have hmounted : mountedHost.memoryStick = smallStick := by rw [mountedHost]
  rw [windowHost]
  obtain ⟨hstick, hstate, hmscmd, hindex⟩ := windowOf_same hmounted
    (by rw [hcard]; rfl) (by rw [hstart, hsize]; decide)
  generalize smallStick = s at hreg hstart hsize hstick ⊢
  refine ⟨hstate, hmscmd, hindex, ?_, ?_, ?_, ?_⟩ <;> rw [hstick]
  · exact congrArg (fun start : Byte => BufferOut.reg start.toNat) hstart
  · exact congrArg BitVec.toNat hsize
  · exact congrFun hreg 4
  · rfl

/-- The third word that the guest reads behind the savestate differs. -/
theorem windowHost_not_restored : HostReachable windowHost ∧ HostReachable mountedHost ∧
    mountedHost.memoryStick.blockMap = windowHost.memoryStick.blockMap ∧
    ¬ Restores (hostTarget windowHost) windowHost mountedHost := by
  obtain ⟨hstate, hmscmd, hindex, hout, hsize, hbyte, hmap⟩ := windowHost_output
  refine ⟨windowHost_reachable, mountedHost_reachable, hmap.symm, fun hrestores => ?_⟩
  have htransfer : getTransferSize windowHost = 30 := by
    rw [getTransferSize, hmscmd]
    decide
  apply keeps_of_restores (hostTarget windowHost) windowHost_reachable mountedHost_reachable
    hmap.symm (List.Subset.refl _) (hostTarget_sizes _) hrestores
  refine ⟨hstate, hout, fun hzero => ?_⟩
  have hlost := hzero 4 ⟨2, .inr (by rw [hindex, htransfer, hsize]; decide), by rw [hindex],
    by rw [hindex]; decide, by rw [hsize]; decide⟩
  rw [hbyte] at hlost
  cases hlost

end Cloudpilot.Hardware.Stick
