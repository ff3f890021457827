import Cloudpilot.Uarm.PaceMode.StateArea

/-! # The 68k registers and their copy in the state area

The copy has nineteen words: the last opcode, the sixteen registers, the program counter
and the status register. The condition codes live apart and are packed into the status
register for it.
-/

namespace Cloudpilot.Uarm.PaceMode

open Cloudpilot.Uarm.Cpu Cloudpilot.Uarm.MMU Cloudpilot.Uarm.Pace Cloudpilot.Library

section

structure Regstruct where
  lastOpcode : Word
  regs : Fin 16 → Word
  pc : Word
  sr : BitVec 16

/-- Every instruction leaves zero or one in each of the flags. -/
structure FlagStruct where
  c : Bool
  z : Bool
  n : Bool
  v : Bool
  x : Bool
  deriving DecidableEq, Repr

/-- A flag at its place in the status register. -/
def flagBit (flag : Bool) (shift : ℕ) : BitVec 16 := if flag then 1#16 <<< shift else 0

/-- The status register with its lower byte made from the flags. -/
def packedSR (sr : BitVec 16) (flags : FlagStruct) : BitVec 16 :=
  (sr &&& 0xff00#16) ||| flagBit flags.x 4 ||| flagBit flags.n 3 ||| flagBit flags.z 2 |||
    flagBit flags.v 1 ||| flagBit flags.c 0

def makeSR (regs : Regstruct) (flags : FlagStruct) : Regstruct :=
  { regs with sr := packedSR regs.sr flags }

def makeFromSR (regs : Regstruct) : FlagStruct where
  x := regs.sr.getLsbD 4
  n := regs.sr.getLsbD 3
  z := regs.sr.getLsbD 2
  v := regs.sr.getLsbD 1
  c := regs.sr.getLsbD 0

theorem makeFromSR_makeSR (regs : Regstruct) (flags : FlagStruct) :
    makeFromSR (makeSR regs flags) = flags := by
  obtain ⟨c, z, n, v, x⟩ := flags
  cases c <;> cases z <;> cases n <;> cases v <;> cases x <;>
    simp [makeFromSR, makeSR, packedSR, flagBit]

theorem makeSR_system (regs : Regstruct) (flags : FlagStruct) :
    (makeSR regs flags).sr &&& 0xff00#16 = regs.sr &&& 0xff00#16 := by
  obtain ⟨c, z, n, v, x⟩ := flags
  have hmask : regs.sr &&& 0xff00#16 &&& 0xff00#16 = regs.sr &&& 0xff00#16 := by
    simp [BitVec.and_assoc]
  simp only [makeSR, packedSR, BitVec.and_or_distrib_right, hmask]
  cases c <;> cases z <;> cases n <;> cases v <;> cases x <;> simp [flagBit]

/-- The scratch buffer of `paceSave68kState`. -/
def stateWords (regs : Regstruct) : List Word :=
  regs.lastOpcode :: (List.ofFn regs.regs ++ [regs.pc, regs.sr.setWidth 32])

def stateBytes (regs : Regstruct) : List Byte := (stateWords regs).flatMap LittleEndian.word

/-- What `paceLoad68kState` takes from its scratch buffer: all but the opcode. -/
def loadWords (regs : Regstruct) (bytes : List Byte) : Regstruct :=
  { regs with
    regs := fun i => LittleEndian.wordAt bytes (4 * (i.val + 1))
    pc := LittleEndian.wordAt bytes (4 * 17)
    sr := (LittleEndian.wordAt bytes (4 * 18)).setWidth 16 }

theorem length_stateBytes (regs : Regstruct) : (stateBytes regs).length = stateSize := by
  simp [stateBytes, stateWords, stateSize]

theorem wordAt_stateBytes (regs : Regstruct) {i : ℕ} (h : i < (stateWords regs).length) :
    LittleEndian.wordAt (stateBytes regs) (4 * i) = (stateWords regs)[i] := by
  have hword : LittleEndian.wordAt (stateBytes regs ++ []) (4 * i) = (stateWords regs)[i] :=
    LittleEndian.wordAt_flatMap_word h
  rwa [List.append_nil] at hword

theorem loadWords_stateBytes (old regs : Regstruct) :
    loadWords old (stateBytes regs) = { regs with lastOpcode := old.lastOpcode } := by
  have hlen : (stateWords regs).length = 19 := by rfl
  have hregs : ∀ i : Fin 16, LittleEndian.wordAt (stateBytes regs) (4 * (i.val + 1)) = regs.regs i := by
    intro i
    rw [wordAt_stateBytes regs (by omega)]
    fin_cases i <;> simp [stateWords]
  have hpc : LittleEndian.wordAt (stateBytes regs) (4 * 17) = regs.pc := by
    rw [wordAt_stateBytes regs (by omega)]
    simp [stateWords]
  have hsr : (LittleEndian.wordAt (stateBytes regs) (4 * 18)).setWidth 16 = regs.sr := by
    rw [wordAt_stateBytes regs (by omega)]
    simp [stateWords]
  rw [loadWords, funext hregs, hpc, hsr]

/-- What the emulator is built with: the devices and the places of the scratch buffers. -/
structure Host (δ : Type) where
  dev : Devices δ
  loadBuffer : Word
  saveBuffer : Word

structure Pace68k (δ : Type) where
  regs : Regstruct
  regflags : FlagStruct
  statePtr : Word
  access : PaceState δ

variable {δ : Type}

def paceLoad68kState (host : Host δ) (p : Pace68k δ) : Bool × Pace68k δ :=
  let r := memcpyArmToHost host.dev p.access host.loadBuffer p.statePtr stateSize
  match r.1 with
  | .error (addr, fsr) =>
    (false, { p with access := { r.2 with lastAddr := addr, fsr := fsr, wasWrite := false } })
  | .ok bytes =>
    let regs := loadWords p.regs bytes
    (true, { p with regs, regflags := makeFromSR regs, access := r.2 })

def paceSave68kState (host : Host δ) (p : Pace68k δ) : Bool × Pace68k δ :=
  let regs := makeSR p.regs p.regflags
  let r := memcpyHostToArm host.dev p.access p.statePtr host.saveBuffer (stateBytes regs)
  match r.1 with
  | .error (addr, fsr) =>
    (false, { p with regs, access := { r.2 with lastAddr := addr, fsr := fsr, wasWrite := true } })
  | .ok _ => (true, { p with regs, access := r.2 })

def AreaHolds (pa : ℕ → Word) (mem : PhysicalMemory δ) (regs : Regstruct) : Prop :=
  ∀ i < stateSize, ramByte mem (pa i) = (stateBytes regs)[i]?.getD 0

theorem paceSave68kState_area {host : Host δ} {p : Pace68k δ} {pa : ℕ → Word}
    (h : WritableArea host.dev p.statePtr pa p.access) :
    ∃ access, paceSave68kState host p =
        (true, { p with regs := makeSR p.regs p.regflags, access }) ∧
      Transferred host.dev pa p.access access ∧
      AreaHolds pa access.mem (makeSR p.regs p.regflags) := by
  have hlen := length_stateBytes (makeSR p.regs p.regflags)
  obtain ⟨u, hrun, hwritten⟩ := transferWrite_area h (transferAlign host.saveBuffer p.statePtr)
    .refl (Nat.zero_le _) (le_refl _) _ hlen
  have hzero : p.statePtr + BitVec.ofNat 32 0 = p.statePtr := by
    simp
  rw [hzero, Nat.sub_zero] at hrun
  refine ⟨u, ?_, hwritten.transferred, fun i hi => ?_⟩
  · rw [paceSave68kState, memcpyHostToArm, hlen, hrun]
  · rw [hwritten.written i hi, if_pos (Nat.zero_le i), Nat.sub_zero,
      List.getElem?_eq_getElem (by omega), Option.getD_some, Option.getD_some]

theorem paceLoad68kState_area (host : Host δ) (p : Pace68k δ) {pa : ℕ → Word} {regs : Regstruct}
    (h : WritableArea host.dev p.statePtr pa p.access) (hholds : AreaHolds pa p.access.mem regs) :
    ∃ access, paceLoad68kState host p =
        (true, { p with
          regs := { regs with lastOpcode := p.regs.lastOpcode }
          regflags := makeFromSR regs, access }) ∧
      Transferred host.dev pa p.access access ∧ access.mem = p.access.mem := by
  obtain ⟨u, hrun, htransferred, hmem⟩ := transferRead_area h
    (transferAlign host.loadBuffer p.statePtr) .refl (Nat.zero_le _) (le_refl _)
  have hzero : p.statePtr + BitVec.ofNat 32 0 = p.statePtr := by
    simp
  rw [hzero, Nat.sub_zero] at hrun
  have hbytes : (List.range stateSize).map (fun i => ramByte p.access.mem (pa (0 + i))) =
      stateBytes regs := by
    apply List.ext_getElem
    · rfl
    · intro i hi hi'
      have hsize : i < stateSize := by
        simpa using hi
      rw [List.getElem_map, List.getElem_range, Nat.zero_add, hholds i hsize,
        List.getElem?_eq_getElem hi', Option.getD_some]
  rw [hbytes] at hrun
  refine ⟨u, ?_, htransferred, hmem⟩
  rw [paceLoad68kState, memcpyArmToHost, hrun]
  dsimp only
  rw [loadWords_stateBytes]
  rfl

end

/-- The places that `pacePatchInit` found, and those of the instructions that it put there. -/
structure PacePatch where
  enterPace : Word
  resumePace : Word
  returnFromCallout : Word
  calloutIllegalInstr : Word
  calloutDivu : Word
  calloutDivs : Word
  calloutTrap0 : Word
  calloutTrap8 : Word
  calloutSyscall : Word
  calloutLine1111 : Word
  calloutLine1010 : Word
  calloutUnimplementedInstr : Word
  resumePace_eq : resumePace = enterPace + 4
  returnFromCallout_eq : returnFromCallout = enterPace + 8

/-- The outcomes of `paceExecute`. Those that `cpuPrvCyclePace` does not name are `other`. -/
inductive PaceStatus
  | ok | illegalInstr | divisionByZero | trap0 | trap8 | syscall | line1111 | line1010
  | unimplementedInstr | memoryFault | return | other
  deriving DecidableEq, Repr

/-- `INSTR_PACE_ENTER`, `INSTR_PACE_RESUME` and `INSTR_PACE_RETURN_FROM_CALLOUT`. -/
inductive PaceInstr
  | enter | resume | returnFromCallout
  deriving DecidableEq, Repr

/-- The place of an instruction from the entry on. -/
def PaceInstr.offset : PaceInstr → Word
  | .enter => 0
  | .resume => 4
  | .returnFromCallout => 8

/-- The instruction that the patched ROM has at an address. -/
def patchedInstr (entry pc : Word) : Option PaceInstr :=
  if pc = entry then some .enter
  else if pc = entry + 4 then some .resume
  else if pc = entry + 8 then some .returnFromCallout
  else none

structure Machine (δ : Type) where
  cpu : ArmCpu
  vectorBase : Word
  far : Word
  fsr : Fsr
  modePace : Bool
  paceOffset : Word
  pace : Pace68k δ

def armVectorOfftDAbt : Word := 0x10
def armVectorOfftIrq : Word := 0x18
def armVectorOfftFiq : Word := 0x1C

def armSrI8 : BitVec 8 := 0x80
def armSrF8 : BitVec 8 := 0x40

variable {δ : Type}

namespace Machine

def setReg (m : Machine δ) (reg : Fin 16) (val : Word) : Machine δ :=
  { m with cpu := cpuPrvSetRegNotPC m.cpu reg val }

def reg (m : Machine δ) (r : Fin 16) : Word := m.cpu.regs r

/-- `cpu->M != ARM_SR_MODE_USR` -/
def privileged (m : Machine δ) : Bool := m.cpu.M ≠ armSrModeUsr

def setAccess (m : Machine δ) (access : PaceState δ) : Machine δ :=
  { m with pace := { m.pace with access } }

end Machine

section Memory

variable (host : Host δ)

/-- A store of a word by an ARM instruction. -/
def cpuPrvMemOpWrite (m : Machine δ) (value vaddr : Word) (privileged : Bool) :
    Except Fsr Unit × Machine δ :=
  if vaddr &&& 3#32 ≠ 0 then (.error 1, m)
  else
    let s := m.pace.access
    let r := translate host.dev { s with priviledged := privileged } vaddr true
    match r.1 with
    | .error fsr => (.error fsr, m.setAccess { s with mmu := r.2 })
    | .ok pa =>
      match memAccessWrite host.dev s.mem pa (LittleEndian.word value) with
      | (false, mem) => (.error 10, m.setAccess { s with mem, mmu := r.2 })
      | (true, mem) => (.ok (), m.setAccess { s with mem, mmu := r.2 })

/-- A load of a word by an ARM instruction. -/
def cpuPrvMemOpRead (m : Machine δ) (vaddr : Word) (privileged : Bool) :
    Except Fsr Word × Machine δ :=
  if vaddr &&& 3#32 ≠ 0 then (.error 1, m)
  else
    let s := m.pace.access
    let r := translate host.dev { s with priviledged := privileged } vaddr false
    match r.1 with
    | .error fsr => (.error fsr, m.setAccess { s with mmu := r.2 })
    | .ok pa =>
      match memAccessRead host.dev s.mem pa 4 with
      | (none, mem) => (.error 10, m.setAccess { s with mem, mmu := r.2 })
      | (some bytes, mem) => (.ok (leWord bytes 4), m.setAccess { s with mem, mmu := r.2 })

end Memory

section Exceptions

variable (host : Host δ)

/-- Leave PACE mode with a copy of the 68k state. A failure of the copy is only reported. -/
def leavePace (m : Machine δ) : Machine δ :=
  if m.modePace then { m with pace := (paceSave68kState host m.pace).2, modePace := false } else m

/-- An invalid mode ends the emulator. -/
def cpuPrvException (m : Machine δ) (vectorPc lr : Word) (newLowBits : BitVec 8) :
    Option (Machine δ) :=
  let m := leavePace host m
  let spsr := cpuPrvMaterializeCPSR m.cpu
  (cpuPrvSetPSRlo8 m.cpu newLowBits).map fun cpu =>
    ({ m with cpu := { cpu with SPSR := spsr } }.setReg regNoLr lr).setReg regNoPc vectorPc

/-- The data abort of `cpuPrvHandleMemErr`. -/
def cpuPrvHandleMemErr (m : Machine δ) (addr : Word) (fsr : Fsr) : Option (Machine δ) :=
  cpuPrvException host { m with far := addr, fsr } (m.vectorBase + armVectorOfftDAbt)
    (m.cpu.curInstrPC + 8) (armSrModeAbt ||| armSrI8)

def cpuPrvHandlePaceMemoryFault (m : Machine δ) : Option (Machine δ) :=
  let fault := paceGetMemeryFault m.pace.access
  cpuPrvHandleMemErr host m fault.1 fault.2.2

/-- The interrupts at the start of `cpuCycle`. -/
def cpuCycleFiq (m : Machine δ) : Option (Machine δ) :=
  cpuPrvException host m (m.vectorBase + armVectorOfftFiq) (m.reg regNoPc + 4)
    (armSrModeFiq ||| armSrI8 ||| armSrF8)

def cpuCycleIrq (m : Machine δ) : Option (Machine δ) :=
  cpuPrvException host m (m.vectorBase + armVectorOfftIrq) (m.reg regNoPc + 4)
    (armSrModeIrq ||| armSrI8)

end Exceptions

section Instructions

variable (host : Host δ) (patch : PacePatch)

def paceSetPriviledged (m : Machine δ) (priviledged : Bool) : Machine δ :=
  m.setAccess { m.pace.access with priviledged }

def paceSetStatePtr (m : Machine δ) (addr : Word) : Machine δ :=
  { m with pace := { m.pace with statePtr := addr } }

/-- The common end of the entry instructions: load the 68k state, or take a data abort. -/
def loadPace (m : Machine δ) (privileged : Bool) (entered : Machine δ → Machine δ) :
    Option (Machine δ) :=
  let m := paceSetStatePtr (paceSetPriviledged m privileged) (m.reg 0)
  match paceLoad68kState host m.pace with
  | (false, pace) => cpuPrvHandlePaceMemoryFault host { m with pace }
  | (true, pace) => some (entered { m with pace, modePace := true })

/-- A push. The stack pointer moves before the store. -/
def pushWord (m : Machine δ) (value : Word) (privileged : Bool) :
    Except Fsr Unit × Machine δ :=
  let m := m.setReg regNoSp (m.reg regNoSp - 4)
  cpuPrvMemOpWrite host m value (m.reg regNoSp) privileged

def execFnPaceEnter (m : Machine δ) (privileged : Bool) : Option (Machine δ) :=
  match pushWord host m (m.reg regNoLr) privileged with
  | (.error fsr, m) => cpuPrvHandleMemErr host m (m.reg regNoSp) fsr
  | (.ok _, m) =>
    match pushWord host m (m.reg 0) privileged with
    | (.error fsr, m) => cpuPrvHandleMemErr host m (m.reg regNoSp) fsr
    | (.ok _, m) =>
      loadPace host m privileged fun m => { m with paceOffset := m.cpu.curInstrPC - patch.enterPace }

/-- Set the offset of the PACE code and continue behind its entry. -/
def continueAt (patch : PacePatch) (back : Word) (m : Machine δ) : Machine δ :=
  let paceOffset := m.cpu.curInstrPC - back - patch.enterPace
  { m with paceOffset }.setReg regNoPc (paceOffset + patch.resumePace)

def execFnPaceResume (m : Machine δ) : Option (Machine δ) :=
  loadPace host m m.privileged (continueAt patch 4)

def execFnPaceReturnFromCallout (m : Machine δ) (privileged : Bool) : Option (Machine δ) :=
  match cpuPrvMemOpRead host m (m.reg regNoSp) privileged with
  | (.error fsr, m) => cpuPrvHandleMemErr host m (m.reg regNoSp) fsr
  | (.ok value, m) => loadPace host (m.setReg 0 value) privileged (continueAt patch 8)

/-- A cycle in ARM mode that fetches one of the three instructions. -/
def cpuPrvCycleArm (m : Machine δ) (instr : PaceInstr) : Option (Machine δ) :=
  let privileged := m.privileged
  let m := { m with cpu := { m.cpu with curInstrPC := m.reg regNoPc } }
  let m := m.setReg regNoPc (m.reg regNoPc + 4)
  match instr with
  | .enter => execFnPaceEnter host patch m privileged
  | .resume => execFnPaceResume host patch m
  | .returnFromCallout => execFnPaceReturnFromCallout host patch m privileged

end Instructions

section Cycle

variable (host : Host δ) (patch : PacePatch)

/-- The outcomes below have a flag that tells whether a callout was made. -/
def cpuPrvPaceCallout (m : Machine δ) (destination : Word) : Option (Bool × Machine δ) :=
  match paceSave68kState host m.pace with
  | (false, pace) => (cpuPrvHandlePaceMemoryFault host { m with pace }).map (false, ·)
  | (true, pace) =>
    let m := { m with pace }.setReg regNoLr (patch.returnFromCallout + m.paceOffset)
    some (true, { m with
      cpu := cpuPrvSetPC m.cpu (destination + m.paceOffset), modePace := false })

def paceReadTrapWord (m : Machine δ) : BitVec 16 × Machine δ :=
  let r := uaeGet16 host.dev { m.pace.access with fsr := 0 } (m.pace.regs.pc - 2)
  (r.1, m.setAccess r.2)

def cpuPrvPaceSyscall (m : Machine δ) : Option (Bool × Machine δ) :=
  let r := paceReadTrapWord host m
  if r.2.pace.access.fsr ≠ 0 then (cpuPrvHandlePaceMemoryFault host r.2).map (false, ·)
  else cpuPrvPaceCallout host patch (r.2.setReg 1 (r.1.setWidth 32)) patch.calloutSyscall

def cpuPrvPaceDivisionByZero (m : Machine δ) : Option (Bool × Machine δ) :=
  let lastOpcode : BitVec 16 := m.pace.regs.lastOpcode.setWidth 16
  let m := (m.setReg 1 (((lastOpcode >>> 9) &&& 0x07#16).setWidth 32)).setReg 2 0
  cpuPrvPaceCallout host patch m
    (if lastOpcode &&& 0x0100#16 ≠ 0 then patch.calloutDivs else patch.calloutDivu)

/-- The stack pointer of the return moves before and after the load of the return address. -/
def cpuPrvPaceReturn (m : Machine δ) : Option (Machine δ) :=
  match paceSave68kState host m.pace with
  | (false, pace) => cpuPrvHandlePaceMemoryFault host { m with pace }
  | (true, pace) =>
    let m := { m with pace }.setReg regNoSp (m.reg regNoSp + 4)
    match cpuPrvMemOpRead host m (m.reg regNoSp) m.privileged with
    | (.error fsr, m) => cpuPrvHandleMemErr host m (m.reg regNoSp) fsr
    | (.ok value, m) =>
      let m := (m.setReg regNoLr value).setReg regNoSp (m.reg regNoSp + 4)
      let m := m.setReg 1 (m.reg 0)
      some { m with cpu := cpuPrvSetPC m.cpu (m.reg regNoLr), modePace := false }

/-- A cycle in PACE mode, behind `paceExecute` and with its outcome. -/
def cpuPrvCyclePace (m : Machine δ) : PaceStatus → Option (Bool × Machine δ)
  | .ok => some (false, m)
  | .divisionByZero => cpuPrvPaceDivisionByZero host patch m
  | .illegalInstr => cpuPrvPaceCallout host patch m patch.calloutIllegalInstr
  | .line1010 => cpuPrvPaceCallout host patch m patch.calloutLine1010
  | .line1111 => cpuPrvPaceCallout host patch m patch.calloutLine1111
  | .memoryFault => (cpuPrvHandlePaceMemoryFault host m).map (false, ·)
  | .syscall => cpuPrvPaceSyscall host patch m
  | .trap0 => cpuPrvPaceCallout host patch m patch.calloutTrap0
  | .trap8 => cpuPrvPaceCallout host patch m patch.calloutTrap8
  | .return => (cpuPrvPaceReturn host m).map (false, ·)
  | .unimplementedInstr | .other => cpuPrvPaceCallout host patch m patch.calloutUnimplementedInstr

end Cycle

end Cloudpilot.Uarm.PaceMode
