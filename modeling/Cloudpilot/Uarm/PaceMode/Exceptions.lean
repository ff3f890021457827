import Cloudpilot.Uarm.PaceMode.Machine

/-! # What the entry instructions leave behind

An instruction that has entered PACE mode has set the program counter behind the entry, the
offset of the PACE code and the state pointer, and has kept the link register. The plain
entry has pushed two words.
-/

namespace Cloudpilot.Uarm.PaceMode

open Cloudpilot.Uarm.Cpu Cloudpilot.Uarm.MMU Cloudpilot.Uarm.Pace Cloudpilot.Library

section

variable {δ : Type} {host : Host δ} {patch : PacePatch}

@[simp] theorem reg_setReg (m : Machine δ) (r : Fin 16) (val : Word) : (m.setReg r val).reg r = val :=
  Function.update_self ..

theorem reg_setReg_ne (m : Machine δ) {r r' : Fin 16} (h : r' ≠ r) (val : Word) :
    (m.setReg r val).reg r' = m.reg r' :=
  Function.update_of_ne h ..

/-- All but the memory system is as before. -/
structure OnlyAccess (m m' : Machine δ) : Prop where
  cpu : m'.cpu = m.cpu
  modePace : m'.modePace = m.modePace
  regs : m'.pace.regs = m.pace.regs
  regflags : m'.pace.regflags = m.pace.regflags
  statePtr : m'.pace.statePtr = m.pace.statePtr

theorem cpuPrvMemOpWrite_onlyAccess (m : Machine δ) (value vaddr : Word) (privileged : Bool) :
    OnlyAccess m (cpuPrvMemOpWrite host m value vaddr privileged).2 := by
  unfold cpuPrvMemOpWrite
  split
  · exact ⟨rfl, rfl, rfl, rfl, rfl⟩
  · dsimp only
    split
    · exact ⟨rfl, rfl, rfl, rfl, rfl⟩
    · split <;> exact ⟨rfl, rfl, rfl, rfl, rfl⟩

theorem cpuPrvMemOpRead_onlyAccess (host : Host δ) (m : Machine δ) (vaddr : Word) (privileged : Bool) :
    OnlyAccess m (cpuPrvMemOpRead host m vaddr privileged).2 := by
  unfold cpuPrvMemOpRead
  split
  · exact ⟨rfl, rfl, rfl, rfl, rfl⟩
  · dsimp only
    split
    · exact ⟨rfl, rfl, rfl, rfl, rfl⟩
    · split <;> exact ⟨rfl, rfl, rfl, rfl, rfl⟩

theorem leavePace_modePace (m : Machine δ) : (leavePace host m).modePace = false := by
  unfold leavePace
  split
  · rfl
  · grind

theorem cpuPrvException_spec {m m' : Machine δ} {vectorPc lr : Word} {bits : BitVec 8}
    (h : cpuPrvException host m vectorPc lr bits = some m') :
    m'.modePace = false ∧ m'.reg regNoLr = lr ∧ m'.pace = (leavePace host m).pace := by
  obtain ⟨cpu, hcpu, rfl⟩ := Option.map_eq_some_iff.mp h
  refine ⟨leavePace_modePace m, ?_, rfl⟩
  rw [reg_setReg_ne _ (by decide), reg_setReg]

theorem cpuPrvHandleMemErr_spec {m m' : Machine δ} {addr : Word} {fsr : Fsr}
    (h : cpuPrvHandleMemErr host m addr fsr = some m') :
    m'.modePace = false ∧ m'.reg regNoLr = m.cpu.curInstrPC + 8 ∧
      m'.pace = (leavePace host m).pace := by
  have hspec := cpuPrvException_spec h
  refine ⟨hspec.1, hspec.2.1, hspec.2.2.trans ?_⟩
  simp only [leavePace]
  split <;> rfl

theorem transferRead_priviledged (dev : Devices δ) (sizes : List ℕ) (fuel : ℕ) (s : PaceState δ)
    (arm : Word) (size : ℕ) : (transferRead dev sizes fuel s arm size).2.priviledged = s.priviledged := by
  induction fuel generalizing s arm size with
  | zero => rfl
  | succ fuel ih =>
    rw [transferRead]
    split
    · rfl
    · dsimp only
      split
      · rfl
      · split
        · rfl
        · exact ih ..

theorem paceLoad68kState_fields (host : Host δ) (p : Pace68k δ) :
    (paceLoad68kState host p).2.statePtr = p.statePtr ∧
      (paceLoad68kState host p).2.access.priviledged = p.access.priviledged := by
  have hpriv := transferRead_priviledged host.dev
    (transferSizes (transferAlign host.loadBuffer p.statePtr)) stateSize p.access p.statePtr stateSize
  unfold paceLoad68kState memcpyArmToHost
  dsimp only
  split <;> grind

theorem loadPace_entered {m m' : Machine δ} {privileged : Bool} {entered : Machine δ → Machine δ}
    (h : loadPace host m privileged entered = some m') (hin : m'.modePace = true) :
    ∃ pace : Pace68k δ, m' = entered { m with pace, modePace := true } ∧
      pace.statePtr = m.reg 0 ∧ pace.access.priviledged = privileged := by
  have hfields := paceLoad68kState_fields host
    (paceSetStatePtr (paceSetPriviledged m privileged) (m.reg 0)).pace
  unfold loadPace at h
  dsimp only at h
  split at h
  · rw [(cpuPrvHandleMemErr_spec h).1] at hin
    cases hin
  · rename_i pace heq
    rw [heq] at hfields
    exact ⟨pace, (Option.some.inj h).symm, hfields⟩

/-- What holds after the instruction `instr` has entered PACE mode from `m₀`. -/
structure EnteredBy (patch : PacePatch) (instr : PaceInstr) (m₀ m : Machine δ) : Prop where
  curInstrPC : m.cpu.curInstrPC = m₀.reg regNoPc
  paceOffset : m.paceOffset = m₀.reg regNoPc - instr.offset - patch.enterPace
  pc : m.reg regNoPc = m₀.reg regNoPc - instr.offset + 4
  sp : m.reg regNoSp = m₀.reg regNoSp - if instr = .enter then 8 else 0
  lr : m.reg regNoLr = m₀.reg regNoLr
  r0 : instr ≠ .returnFromCallout → m.reg 0 = m₀.reg 0
  statePtr : m.pace.statePtr = m.reg 0
  priviledged : m.pace.access.priviledged = m₀.privileged
  mode : m.cpu.M = m₀.cpu.M
  arm : m.cpu.T = m₀.cpu.T

/-- The machine with its program counter advanced, as the instructions find it. -/
def fetched (m : Machine δ) : Machine δ :=
  { m with cpu := { m.cpu with curInstrPC := m.reg regNoPc } }.setReg regNoPc (m.reg regNoPc + 4)

theorem fetched_reg (m : Machine δ) {r : Fin 16} (h : r ≠ regNoPc) : (fetched m).reg r = m.reg r :=
  reg_setReg_ne _ h _

theorem fetched_pc (m : Machine δ) : (fetched m).reg regNoPc = m.reg regNoPc + 4 := reg_setReg ..

theorem pushWord_spec (host : Host δ) (m : Machine δ) (value : Word) (privileged : Bool) :
    OnlyAccess (m.setReg regNoSp (m.reg regNoSp - 4)) (pushWord host m value privileged).2 :=
  cpuPrvMemOpWrite_onlyAccess ..

theorem OnlyAccess.reg {m m' : Machine δ} (h : OnlyAccess m m') (r : Fin 16) : m'.reg r = m.reg r := by
  rw [Machine.reg, h.cpu]
  rfl

theorem execFnPaceEnter_entered {m₀ m : Machine δ}
    (h : execFnPaceEnter host patch (fetched m₀) m₀.privileged = some m) (hin : m.modePace = true) :
    EnteredBy patch .enter m₀ m := by
  unfold execFnPaceEnter at h
  split at h
  · rw [(cpuPrvHandleMemErr_spec h).1] at hin
    cases hin
  rename_i mid hmid
  have hfirst := pushWord_spec host (fetched m₀) ((fetched m₀).reg regNoLr) m₀.privileged
  rw [hmid] at hfirst
  split at h
  · rw [(cpuPrvHandleMemErr_spec h).1] at hin
    cases hin
  rename_i pushed hpushed
  have hsecond := pushWord_spec host mid (mid.reg 0) m₀.privileged
  rw [hpushed] at hsecond
  obtain ⟨pace, rfl, hptr, hpriv⟩ := loadPace_entered h hin
  have hreg : ∀ r, r ≠ regNoSp → pushed.reg r = (fetched m₀).reg r := by
    intro r hr
    rw [hsecond.reg, reg_setReg_ne _ hr, hfirst.reg, reg_setReg_ne _ hr]
  have hsp : pushed.reg regNoSp = m₀.reg regNoSp - 8 := by
    rw [hsecond.reg, reg_setReg, hfirst.reg, reg_setReg, fetched_reg m₀ (by decide)]
    bv_omega
  have hcpu : pushed.cpu = { (fetched m₀).cpu with regs := pushed.cpu.regs } := by
    rw [hsecond.cpu, Machine.setReg, cpuPrvSetRegNotPC, hfirst.cpu, Machine.setReg, cpuPrvSetRegNotPC]
  have hcur : pushed.cpu.curInstrPC = m₀.reg regNoPc := congrArg ArmCpu.curInstrPC hcpu
  have hmode : pushed.cpu.M = m₀.cpu.M := (congrArg ArmCpu.M hcpu).trans rfl
  have harm : pushed.cpu.T = m₀.cpu.T := (congrArg ArmCpu.T hcpu).trans rfl
  have hoffset : m₀.reg regNoPc - PaceInstr.enter.offset = m₀.reg regNoPc := BitVec.sub_zero _
  constructor
  · exact hcur
  · rw [hcur, hoffset]
  · change pushed.reg regNoPc = _
    rw [hreg regNoPc (by decide), fetched_pc, hoffset]
  · exact hsp
  · exact (hreg regNoLr (by decide)).trans (fetched_reg m₀ (by decide))
  · intro _
    exact (hreg 0 (by decide)).trans (fetched_reg m₀ (by decide))
  · exact hptr
  · exact hpriv
  · exact hmode
  · exact harm

theorem continueAt_entered {instr : PaceInstr} (hinstr : instr ≠ .enter) {m₀ mid m : Machine δ}
    (hmid : mid.cpu = { (fetched m₀).cpu with regs := mid.cpu.regs })
    (hreg : ∀ r, r ≠ 0 → mid.reg r = (fetched m₀).reg r)
    (hr0 : instr ≠ .returnFromCallout → mid.reg 0 = m₀.reg 0)
    (h : loadPace host mid m₀.privileged (continueAt patch instr.offset) = some m)
    (hin : m.modePace = true) : EnteredBy patch instr m₀ m := by
  obtain ⟨pace, rfl, hptr, hpriv⟩ := loadPace_entered h hin
  have hcur : mid.cpu.curInstrPC = m₀.reg regNoPc := congrArg ArmCpu.curInstrPC hmid
  have hmode : mid.cpu.M = m₀.cpu.M := (congrArg ArmCpu.M hmid).trans rfl
  have harm : mid.cpu.T = m₀.cpu.T := (congrArg ArmCpu.T hmid).trans rfl
  have hkeep : ∀ r, r ≠ regNoPc →
      (continueAt patch instr.offset { mid with pace, modePace := true }).reg r = mid.reg r :=
    fun r hr => reg_setReg_ne _ hr _
  constructor
  · exact hcur
  · change mid.cpu.curInstrPC - instr.offset - patch.enterPace = _
    rw [hcur]
  · rw [continueAt, reg_setReg, patch.resumePace_eq]
    bv_omega
  · rw [hkeep regNoSp (by decide), hreg regNoSp (by decide), fetched_reg m₀ (by decide),
      if_neg hinstr]
    exact (BitVec.sub_zero _).symm
  · rw [hkeep regNoLr (by decide), hreg regNoLr (by decide), fetched_reg m₀ (by decide)]
  · intro hne
    rw [hkeep 0 (by decide), hr0 hne]
  · exact hptr
  · exact hpriv
  · exact hmode
  · exact harm

theorem execFnPaceReturnFromCallout_eq {m mid : Machine δ} {privileged : Bool} {value : Word}
    (h : cpuPrvMemOpRead host m (m.reg regNoSp) privileged = (.ok value, mid)) :
    execFnPaceReturnFromCallout host patch m privileged =
      loadPace host (mid.setReg 0 value) privileged (continueAt patch 8) := by
  rw [execFnPaceReturnFromCallout, h]

theorem execFnPaceReturnFromCallout_entered {m₀ m : Machine δ}
    (h : execFnPaceReturnFromCallout host patch (fetched m₀) m₀.privileged = some m)
    (hin : m.modePace = true) :
    EnteredBy patch .returnFromCallout m₀ m ∧
      (cpuPrvMemOpRead host (fetched m₀) (m₀.reg regNoSp) m₀.privileged).1 = .ok (m.reg 0) := by
  have hread := cpuPrvMemOpRead_onlyAccess host (fetched m₀) ((fetched m₀).reg regNoSp)
    m₀.privileged
  have hsp : (fetched m₀).reg regNoSp = m₀.reg regNoSp := fetched_reg m₀ (by decide)
  unfold execFnPaceReturnFromCallout at h
  split at h
  · rw [(cpuPrvHandleMemErr_spec h).1] at hin
    cases hin
  · rename_i value mid hmid
    rw [hmid] at hread
    have hcpu : (mid.setReg 0 value).cpu =
        { (fetched m₀).cpu with regs := (mid.setReg 0 value).cpu.regs } := by
      rw [Machine.setReg, cpuPrvSetRegNotPC, hread.cpu]
    have hentered : EnteredBy patch .returnFromCallout m₀ m :=
      continueAt_entered (by decide) hcpu (fun r hr => (reg_setReg_ne _ hr _).trans (hread.reg r))
        (fun hne => absurd rfl hne) h hin
    refine ⟨hentered, ?_⟩
    obtain ⟨pace, rfl, -, -⟩ := loadPace_entered h hin
    rw [← hsp, hmid]
    rfl

theorem cpuPrvCycleArm_entered {m₀ m : Machine δ} {instr : PaceInstr}
    (h : cpuPrvCycleArm host patch m₀ instr = some m) (hin : m.modePace = true) :
    EnteredBy patch instr m₀ m := by
  cases instr with
  | enter => exact execFnPaceEnter_entered h hin
  | resume =>
    exact continueAt_entered (by decide) rfl (fun _ _ => rfl) (fun _ => fetched_reg m₀ (by decide)) h hin
  | returnFromCallout => exact (execFnPaceReturnFromCallout_entered h hin).1

end

/-- The exceptions of PACE mode. `returnAbort` is the data abort of the load that
`cpuPrvPaceReturn` makes; every other data abort is `dataAbort`. -/
inductive PaceException
  | irq | fiq | dataAbort | returnAbort
  deriving DecidableEq, Repr

/-- How far the link register is ahead of the address that the handler returns to. -/
def PaceException.lrOffset : PaceException → Word
  | .irq | .fiq => 4
  | .dataAbort | .returnAbort => 8

section Definitions

variable {δ : Type} (host : Host δ) (patch : PacePatch)

/-- The load of the return address in `cpuPrvPaceReturn`. -/
def returnAddress (m : Machine δ) : Except Fsr Word :=
  let m := { m with pace := (paceSave68kState host m.pace).2 }.setReg regNoSp (m.reg regNoSp + 4)
  (cpuPrvMemOpRead host m (m.reg regNoSp) m.privileged).1

def takeException (m : Machine δ) : PaceException → Option (Machine δ)
  | .irq => cpuCycleIrq host m
  | .fiq => cpuCycleFiq host m
  | .dataAbort => cpuPrvHandlePaceMemoryFault host m
  | .returnAbort =>
    match returnAddress host m with
    | .error _ => cpuPrvPaceReturn host m
    | .ok _ => none

/-- The registers that the handler finds in the interrupted mode. -/
def interruptedReg (e : PaceException) (m : Machine δ) (r : Fin 16) : Word :=
  if e = .returnAbort ∧ r = regNoSp then m.reg r + 4 else m.reg r

/-- What the interpreter does between two events of the ARM core. -/
def Interpreted (m m' : Machine δ) : Prop :=
  ∃ (regs : Regstruct) (regflags : FlagStruct) (access : PaceState δ),
    access.priviledged = m.pace.access.priviledged ∧
      m' = { m with pace := { m.pace with regs, regflags, access } }

/-- PACE mode is on, and the instruction `instr` was the last one to enter it. -/
def Entered (instr : PaceInstr) (m : Machine δ) : Prop :=
  ∃ m₀ m₁, m₀.modePace = false ∧ m₀.cpu.T = false ∧ cpuPrvCycleArm host patch m₀ instr = some m₁ ∧
    m₁.modePace = true ∧ Interpreted m₁ m

/-- The handler of an exception that was taken from `m` to `m₁` returns with `m₂`. It has
restored the registers and left the state area as it was. -/
structure HandlerReturns (e : PaceException) (pa : ℕ → Word) (m m₁ m₂ : Machine δ) : Prop where
  regs : ∀ r, r ≠ regNoPc → m₂.reg r = interruptedReg e m r
  pc : m₂.reg regNoPc = m₁.reg regNoLr - e.lrOffset
  mode : m₂.cpu.M = m.cpu.M
  arm : m₂.cpu.T = m.cpu.T
  modePace : m₂.modePace = false
  area : ∃ pa', WritableArea host.dev m.pace.statePtr pa'
      { m₂.pace.access with priviledged := m.pace.access.priviledged } ∧
    ∀ i < stateSize, ramByte m₂.pace.access.mem (pa' i) = ramByte m₁.pace.access.mem (pa i)

/-- What an exception must not change. -/
structure SameContext (m m' : Machine δ) : Prop where
  modePace : m'.modePace = true
  regs : m'.pace.regs.regs = m.pace.regs.regs
  pc : m'.pace.regs.pc = m.pace.regs.pc
  flags : m'.pace.regflags = m.pace.regflags
  system : m'.pace.regs.sr &&& 0xff00#16 = m.pace.regs.sr &&& 0xff00#16
  paceOffset : m'.paceOffset = m.paceOffset
  r0 : m'.reg 0 = m.reg 0
  sp : m'.reg regNoSp = m.reg regNoSp
  lr : m'.reg regNoLr = m.reg regNoLr

def cycleAtReturn (m m₂ : Machine δ) : Option (PaceInstr × Machine δ) :=
  (patchedInstr (m.paceOffset + patch.enterPace) (m₂.reg regNoPc)).bind fun instr =>
    (cpuPrvCycleArm host patch m₂ instr).map (instr, ·)

/-- The 68k code goes on behind the exception as if it had not been taken. -/
def Continues (m m₂ : Machine δ) : Prop :=
  m₂.cpu.T = false ∧ ∃ instr m', cycleAtReturn host patch m m₂ = some (instr, m') ∧ SameContext m m'

/-- The exceptions that the return address suits: interrupts, data aborts behind a resume, and
data aborts behind a callout while the stack still has the state pointer. -/
def Restarts (e : PaceException) (instr : PaceInstr) (m₂ : Machine δ) : Prop :=
  match e, instr with
  | .irq, _ | .fiq, _ => True
  | .dataAbort, .resume => True
  | .dataAbort, .returnFromCallout =>
    (cpuPrvMemOpRead host m₂ (m₂.reg regNoSp) m₂.privileged).1 = .ok (m₂.reg 0)
  | .dataAbort, .enter | .returnAbort, _ => False

end Definitions

variable {δ : Type} {host : Host δ} {patch : PacePatch}

/-- The registers that 68k code leaves alone, by the instruction that entered the mode. -/
structure InPace (patch : PacePatch) (instr : PaceInstr) (m : Machine δ) : Prop where
  modePace : m.modePace = true
  curInstrPC : m.cpu.curInstrPC = m.paceOffset + patch.enterPace + instr.offset
  pc : m.reg regNoPc = m.paceOffset + patch.enterPace + 4
  statePtr : m.pace.statePtr = m.reg 0
  priviledged : m.pace.access.priviledged = m.privileged
  arm : m.cpu.T = false

variable {m : Machine δ}

theorem privileged_congr {m' : Machine δ} (h : m'.cpu.M = m.cpu.M) :
    m'.privileged = m.privileged := by
  rw [Machine.privileged, Machine.privileged, h]

theorem Interpreted.inPace {instr : PaceInstr} {m' : Machine δ} (h : Interpreted m m')
    (hin : InPace patch instr m) : InPace patch instr m' := by
  obtain ⟨regs, regflags, access, hpriv, rfl⟩ := h
  exact ⟨hin.modePace, hin.curInstrPC, hin.pc, hin.statePtr, hpriv.trans hin.priviledged, hin.arm⟩

theorem EnteredBy.inPace {instr : PaceInstr} {m₀ : Machine δ} (h : EnteredBy patch instr m₀ m)
    (harm : m₀.cpu.T = false) (hin : m.modePace = true) : InPace patch instr m where
  modePace := hin
  curInstrPC := by
    rw [h.curInstrPC, h.paceOffset]
    bv_omega
  pc := by
    rw [h.pc, h.paceOffset]
    bv_omega
  statePtr := h.statePtr
  priviledged := h.priviledged.trans (privileged_congr h.mode).symm
  arm := h.arm.trans harm

theorem Entered.inPace {instr : PaceInstr} (h : Entered host patch instr m) :
    InPace patch instr m := by
  obtain ⟨m₀, m₁, -, harm, hcycle, hin, hint⟩ := h
  exact hint.inPace ((cpuPrvCycleArm_entered hcycle hin).inPace harm hin)

theorem leavePace_area {pa : ℕ → Word} (hin : m.modePace = true)
    (harea : WritableArea host.dev m.pace.statePtr pa m.pace.access) :
    AreaHolds pa (leavePace host m).pace.access.mem (makeSR m.pace.regs m.pace.regflags) := by
  obtain ⟨access, hsave, -, hholds⟩ := paceSave68kState_area harea
  rwa [leavePace, if_pos hin, hsave]

theorem takeException_area {e : PaceException} (he : e ≠ .returnAbort) {m₁ : Machine δ}
    {pa : ℕ → Word} (hin : m.modePace = true)
    (harea : WritableArea host.dev m.pace.statePtr pa m.pace.access)
    (h : takeException host m e = some m₁) :
    AreaHolds pa m₁.pace.access.mem (makeSR m.pace.regs m.pace.regflags) := by
  have hleave := leavePace_area hin harea
  cases e with
  | irq =>
    rwa [(cpuPrvException_spec h).2.2]
  | fiq =>
    rwa [(cpuPrvException_spec h).2.2]
  | dataAbort =>
    rwa [(cpuPrvHandleMemErr_spec h).2.2]
  | returnAbort => exact absurd rfl he

theorem takeException_lr {e : PaceException} (he : e ≠ .returnAbort) {m₁ : Machine δ}
    (h : takeException host m e = some m₁) :
    m₁.reg regNoLr - e.lrOffset = if e = .dataAbort then m.cpu.curInstrPC else m.reg regNoPc := by
  cases e with
  | irq =>
    rw [(cpuPrvException_spec h).2.1, PaceException.lrOffset, if_neg (by decide)]
    bv_omega
  | fiq =>
    rw [(cpuPrvException_spec h).2.1, PaceException.lrOffset, if_neg (by decide)]
    bv_omega
  | dataAbort =>
    rw [(cpuPrvHandleMemErr_spec h).2.1, PaceException.lrOffset, if_pos rfl]
    bv_omega
  | returnAbort => exact absurd rfl he

theorem interruptedReg_eq {e : PaceException} (he : e ≠ .returnAbort) (m : Machine δ) (r : Fin 16) :
    interruptedReg e m r = m.reg r := by
  rw [interruptedReg, if_neg (fun h => he h.1)]

theorem patchedInstr_offset (entry : Word) (instr : PaceInstr) :
    patchedInstr entry (entry + instr.offset) = some instr := by
  cases instr with
  | enter =>
    have hzero : entry + PaceInstr.enter.offset = entry := BitVec.add_zero entry
    rw [patchedInstr, if_pos hzero]
  | resume => simp [patchedInstr, PaceInstr.offset, if_true]
  | returnFromCallout => simp [patchedInstr, PaceInstr.offset, if_true]

theorem cycleAtReturn_of {m₂ : Machine δ} {instr : PaceInstr}
    (h : m₂.reg regNoPc = m.paceOffset + patch.enterPace + instr.offset) :
    cycleAtReturn host patch m m₂ = (cpuPrvCycleArm host patch m₂ instr).map (instr, ·) := by
  rw [cycleAtReturn, h, patchedInstr_offset, Option.bind_some]

theorem cycleAtReturn_sp {m₂ m' : Machine δ} {instr : PaceInstr}
    (h : cycleAtReturn host patch m m₂ = some (instr, m')) (hin : m'.modePace = true) :
    m'.reg regNoSp = m₂.reg regNoSp - if instr = .enter then 8 else 0 := by
  obtain ⟨fetchedInstr, -, hcycle⟩ := Option.bind_eq_some_iff.mp h
  obtain ⟨m'', hrun, heq⟩ := Option.map_eq_some_iff.mp hcycle
  cases heq
  exact (cpuPrvCycleArm_entered hrun hin).sp

theorem loadPace_area (host : Host δ) (m : Machine δ) (privileged : Bool) {pa : ℕ → Word} {regs : Regstruct}
    (harea : WritableArea host.dev (m.reg 0) pa { m.pace.access with priviledged := privileged })
    (hholds : AreaHolds pa m.pace.access.mem regs) (entered : Machine δ → Machine δ) :
    ∃ pace : Pace68k δ, loadPace host m privileged entered =
        some (entered { m with pace, modePace := true }) ∧
      pace.regs = { regs with lastOpcode := pace.regs.lastOpcode } ∧
      pace.regflags = makeFromSR regs := by
  obtain ⟨access, heq, -, -⟩ := paceLoad68kState_area host
    (paceSetStatePtr (paceSetPriviledged m privileged) (m.reg 0)).pace harea hholds
  refine ⟨{ m.pace with
    regs := { regs with lastOpcode := m.pace.regs.lastOpcode }, regflags := makeFromSR regs
    statePtr := m.reg 0, access }, ?_, rfl, rfl⟩
  rw [loadPace, heq]
  rfl

theorem sameContext_of_loaded {m₂ m' : Machine δ} {instr : PaceInstr} (hne : instr ≠ .enter)
    (hpc : m₂.reg regNoPc = m.paceOffset + patch.enterPace + instr.offset)
    (hregs : ∀ r, r ≠ regNoPc → m₂.reg r = m.reg r)
    (hcycle : cpuPrvCycleArm host patch m₂ instr = some m') (hin : m'.modePace = true)
    (hr0 : m'.reg 0 = m.reg 0) (hloaded : m'.pace.regs = { makeSR m.pace.regs m.pace.regflags with
      lastOpcode := m'.pace.regs.lastOpcode })
    (hflags : m'.pace.regflags = makeFromSR (makeSR m.pace.regs m.pace.regflags)) :
    SameContext m m' := by
  have hentered := cpuPrvCycleArm_entered hcycle hin
  refine ⟨hin, ?_, ?_, ?_, ?_, ?_, hr0, ?_, ?_⟩
  · rw [hloaded]
    rfl
  · rw [hloaded]
    rfl
  · rw [hflags, makeFromSR_makeSR]
  · rw [hloaded]
    exact makeSR_system m.pace.regs m.pace.regflags
  · rw [hentered.paceOffset, hpc]
    bv_omega
  · rw [hentered.sp, hregs regNoSp (by decide), if_neg hne]
    exact BitVec.sub_zero _
  · rw [hentered.lr, hregs regNoLr (by decide)]

end Cloudpilot.Uarm.PaceMode
