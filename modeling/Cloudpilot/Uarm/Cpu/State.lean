import Mathlib.Logic.Function.Basic
import Mathlib.Tactic

/-! # The register state of the emulated ARM core

The live register file, the six banks and the FIQ exchange area are kept exactly
as `struct ArmCpu` keeps them: a mode switch swaps values between them, nothing
is looked up through the mode. Pointers to a bank are the names in `Bank`.
-/
namespace Cloudpilot.Uarm.Cpu

abbrev Word := BitVec 32

instance neZero_two : NeZero 2 := inferInstance
instance neZero_three : NeZero 3 := inferInstance
instance neZero_four : NeZero 4 := inferInstance
instance neZero_sixteen : NeZero 16 := inferInstance
instance neZero_sixtyFour : NeZero 64 := inferInstance

/-- The target of `cpuPrvModeToBankedRegsPtr`: one constructor per bank of the struct. -/
inductive Bank where
  | usr | svc | abt | und | irq | fiq
  deriving DecidableEq, Repr

structure ArmBankedRegs where
  R13 : Word
  R14 : Word
  SPSR : Word
  deriving DecidableEq, Repr

structure ArmCpu where
  regs : Fin 16 → Word
  SPSR : Word
  flags : Word
  Q : Bool
  T : Bool
  I : Bool
  F : Bool
  M : BitVec 8
  curInstrPC : Word
  bank : Bank → ArmBankedRegs
  extraRegs : Fin 5 → Word
  waitingIrqs : BitVec 16
  waitingFiqs : BitVec 16
  waitingEventsTotal : BitVec 16
  sleeping : Bool

def armSrN : Word := 0x80000000
def armSrZ : Word := 0x40000000
def armSrC : Word := 0x20000000
def armSrV : Word := 0x10000000
def armSrQ : Word := 0x08000000
def armSrI : Word := 0x00000080
def armSrF : Word := 0x00000040
def armSrT : Word := 0x00000020
def armSrM : BitVec 8 := 0x1F

def armSrModeUsr : BitVec 8 := 0x10
def armSrModeFiq : BitVec 8 := 0x11
def armSrModeIrq : BitVec 8 := 0x12
def armSrModeSvc : BitVec 8 := 0x13
def armSrModeAbt : BitVec 8 := 0x17
def armSrModeUnd : BitVec 8 := 0x1B
def armSrModeSys : BitVec 8 := 0x1F

def regNoSp : Fin 16 := 13
def regNoLr : Fin 16 := 14
def regNoPc : Fin 16 := 15

def armRegNumCpsr : ℕ := 16
def armRegNumSpsr : ℕ := 17

/-- Write the program counter with interworking: bit 0 selects Thumb. -/
def cpuPrvSetPC (cpu : ArmCpu) (pc : Word) : ArmCpu :=
  { cpu with regs := Function.update cpu.regs regNoPc (pc &&& ~~~1), T := pc.getLsbD 0 }

/-- Interrupts off, supervisor mode. The MMU reset of the source belongs to the MMU model. -/
def cpuReset (cpu : ArmCpu) (pc : Word) : ArmCpu :=
  cpuPrvSetPC { cpu with I := true, F := true, M := armSrModeSvc } pc

/-- A core in zeroed memory, reset. -/
def cpuInit (pc : Word) : ArmCpu :=
  cpuReset {
    regs := fun _ => 0, SPSR := 0, flags := 0, Q := false, T := false, I := false, F := false
    M := 0, curInstrPC := 0, bank := fun _ => ⟨0, 0, 0⟩, extraRegs := fun _ => 0
    waitingIrqs := 0, waitingFiqs := 0, waitingEventsTotal := 0, sleeping := false } pc

def cpuPrvGetRegNotPC (cpu : ArmCpu) (reg : Fin 16) : Word := cpu.regs reg

/-- Reading the program counter as an operand yields the fetch address, two
instructions ahead of the executing one. -/
def cpuPrvGetReg (wasT : Bool) (cpu : ArmCpu) (reg : Fin 16) : Word :=
  if reg = regNoPc then cpu.regs reg + (if wasT then 2 else 4) else cpu.regs reg

def cpuPrvSetRegNotPC (cpu : ArmCpu) (reg : Fin 16) (val : Word) : ArmCpu :=
  { cpu with regs := Function.update cpu.regs reg val }

def cpuPrvSetReg (cpu : ArmCpu) (reg : Fin 16) (val : Word) : ArmCpu :=
  if reg = regNoPc then cpuPrvSetPC cpu val else cpuPrvSetRegNotPC cpu reg val

/-- An unknown mode ends the emulator through `ERR`. -/
def cpuPrvModeToBankedRegsPtr (mode : BitVec 8) : Option Bank :=
  if mode = armSrModeUsr ∨ mode = armSrModeSys then some .usr
  else if mode = armSrModeFiq then some .fiq
  else if mode = armSrModeIrq then some .irq
  else if mode = armSrModeSvc then some .svc
  else if mode = armSrModeAbt then some .abt
  else if mode = armSrModeUnd then some .und
  else none

/-- Swap r8 to r12 with the exchange area. -/
def exchangeFiqRegs (cpu : ArmCpu) : ArmCpu :=
  { cpu with
    regs := fun r => if h : 8 ≤ r.val ∧ r.val < 13 then cpu.extraRegs ⟨r.val - 8, by omega⟩
      else cpu.regs r
    extraRegs := fun i => cpu.regs ⟨i.val + 8, by omega⟩ }

/-- Save the live stack pointer, link register and saved status, and load those of another bank. -/
def switchBank (cpu : ArmCpu) (saveTo getFrom : Bank) (newMode : BitVec 8) : ArmCpu :=
  { cpu with
    bank := Function.update cpu.bank saveTo ⟨cpu.regs regNoSp, cpu.regs regNoLr, cpu.SPSR⟩
    regs := Function.update (Function.update cpu.regs regNoSp (cpu.bank getFrom).R13)
      regNoLr (cpu.bank getFrom).R14
    SPSR := (cpu.bank getFrom).SPSR
    M := newMode }

/-- The second early return leaves before the mode is recorded. -/
def cpuPrvSwitchToMode (cpu : ArmCpu) (newMode : BitVec 8) : Option ArmCpu :=
  let curMode := cpu.M
  if curMode = newMode then some cpu else
    let cpu := if curMode = armSrModeFiq ∨ newMode = armSrModeFiq then exchangeFiqRegs cpu else cpu
    match cpuPrvModeToBankedRegsPtr curMode, cpuPrvModeToBankedRegsPtr newMode with
    | some saveTo, some getFrom =>
      if saveTo = getFrom then some cpu else some (switchBank cpu saveTo getFrom newMode)
    | _, _ => none

def cpuPrvSetPSRlo8 (cpu : ArmCpu) (val : BitVec 8) : Option ArmCpu :=
  (cpuPrvSwitchToMode cpu (val &&& armSrM)).map fun cpu =>
    { cpu with T := val.getLsbD 5, F := val.getLsbD 6, I := val.getLsbD 7 }

def cpuPrvSetPSRhi8 (cpu : ArmCpu) (val : Word) : ArmCpu :=
  { cpu with flags := val &&& 0xF0000000, Q := val.getLsbD 27 }

def cpuPrvMaterializeCPSR (cpu : ArmCpu) : Word :=
  cpu.flags ||| (if cpu.Q then armSrQ else 0) ||| (if cpu.T then armSrT else 0) |||
    (if cpu.I then armSrI else 0) ||| (if cpu.F then armSrF else 0) ||| cpu.M.setWidth 32

def cpuGetRegExternal (cpu : ArmCpu) (reg : ℕ) : Word :=
  if h : reg < 16 then
    if (⟨reg, h⟩ : Fin 16) = regNoPc then cpu.curInstrPC + (if cpu.T then 1 else 0)
    else cpu.regs ⟨reg, h⟩
  else if reg = armRegNumCpsr then cpuPrvMaterializeCPSR cpu
  else if reg = armRegNumSpsr then cpu.SPSR
  else 0

def cpuSetReg (cpu : ArmCpu) (reg : ℕ) (val : Word) : Option ArmCpu :=
  if reg = armRegNumCpsr then
    (cpuPrvSetPSRlo8 cpu (val.setWidth 8)).map fun cpu => cpuPrvSetPSRhi8 cpu val
  else if h : reg < 16 then some (cpuPrvSetReg cpu ⟨reg, h⟩ val)
  else some cpu

/-- Count a raised or acknowledged line. The second component is what is printed:
lowering a line that is not raised changes nothing and complains. -/
def cpuIrq (cpu : ArmCpu) (fiq raise : Bool) : ArmCpu × List String :=
  let (cpu, log) : ArmCpu × List String :=
    if fiq then
      if raise then ({ cpu with waitingFiqs := cpu.waitingFiqs + 1 }, [])
      else if cpu.waitingFiqs ≠ 0 then ({ cpu with waitingFiqs := cpu.waitingFiqs - 1 }, [])
      else (cpu, ["Cannot unraise FIQ when none raised"])
    else
      if raise then ({ cpu with waitingIrqs := cpu.waitingIrqs + 1 }, [])
      else if cpu.waitingIrqs ≠ 0 then ({ cpu with waitingIrqs := cpu.waitingIrqs - 1 }, [])
      else (cpu, ["Cannot unraise IRQ when none raised"])
  ({ cpu with waitingEventsTotal := cpu.waitingFiqs + cpu.waitingIrqs }, log)

def cpuWakeup (cpu : ArmCpu) : ArmCpu := { cpu with sleeping := false }

end Cloudpilot.Uarm.Cpu
