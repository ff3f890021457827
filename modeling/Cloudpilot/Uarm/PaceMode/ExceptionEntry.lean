import Cloudpilot.Uarm.Cpu.Banking
import Cloudpilot.Uarm.PaceMode.Runs

/-! # Exceptions outside of PACE mode

Each exception saves the status of the core and the address to return to in the registers of its
own mode, and leaves the registers of every other mode alone. The new low bits of the status
are those of the call site: the F bit is set for an FIQ, and cleared for everything else.
-/

namespace Cloudpilot.Uarm.PaceMode

open Cloudpilot.Uarm.Cpu Cloudpilot.Uarm.MMU Cloudpilot.Uarm.Pace Cloudpilot.Library

def armVectorOfftUnd : Word := 0x04
def armVectorOfftPAbt : Word := 0x0C

section CallSites

variable {δ : Type} (host : Host δ)

/-- The copy of the function for an ARM or a Thumb instruction. -/
def execFnInvalid (wasT : Bool) (m : Machine δ) : Option (Machine δ) :=
  cpuPrvException host m (m.vectorBase + armVectorOfftUnd)
    (m.cpu.curInstrPC + if wasT then 2 else 4) (armSrModeUnd ||| armSrI8)

/-- The prefetch abort of `cpuPrvHandleMemErr`. -/
def cpuPrvHandleFetchErr (m : Machine δ) (addr : Word) (fsr : Fsr) : Option (Machine δ) :=
  cpuPrvException host { m with far := addr, fsr } (m.vectorBase + armVectorOfftPAbt)
    (m.cpu.curInstrPC + 4) (armSrModeAbt ||| armSrI8)

def execFnSoftbreak (m : Machine δ) : Option (Machine δ) :=
  cpuPrvException host m (m.vectorBase + armVectorOfftPAbt) (m.cpu.curInstrPC + 4)
    (armSrModeAbt ||| armSrI8)

inductive ArmException where
  | undefined
  | prefetchAbort (addr : Word) (fsr : Fsr)
  | softbreak
  | dataAbort (addr : Word) (fsr : Fsr)
  | irq
  | fiq
  deriving DecidableEq

def enterException (m : Machine δ) : ArmException → Option (Machine δ)
  | .undefined => execFnInvalid host m.cpu.T m
  | .prefetchAbort addr fsr => cpuPrvHandleFetchErr host m addr fsr
  | .softbreak => execFnSoftbreak host m
  | .dataAbort addr fsr => cpuPrvHandleMemErr host m addr fsr
  | .irq => cpuCycleIrq host m
  | .fiq => cpuCycleFiq host m

end CallSites

def ArmException.mode : ArmException → Mode
  | .undefined => .und
  | .prefetchAbort _ _ | .softbreak | .dataAbort _ _ => .abt
  | .irq => .irq
  | .fiq => .fiq

section Architecture

variable {δ : Type}

/-- The next instruction behind an undefined one, and otherwise four or eight behind the
instruction that is aborted or comes next. -/
def ArmException.returnAddress (m : Machine δ) : ArmException → Word
  | .undefined => m.cpu.curInstrPC + if m.cpu.T then 2 else 4
  | .prefetchAbort _ _ | .softbreak => m.cpu.curInstrPC + 4
  | .dataAbort _ _ => m.cpu.curInstrPC + 8
  | .irq | .fiq => m.reg regNoPc + 4

structure HoldsStatus (status : Word) (cpu : ArmCpu) : Prop where
  flags : status &&& 0xF0000000 = cpu.flags
  q : status.getLsbD 27 = cpu.Q
  i : status.getLsbD 7 = cpu.I
  f : status.getLsbD 6 = cpu.F
  t : status.getLsbD 5 = cpu.T
  mode : (status &&& 0x1F).setWidth 8 = cpu.M

/-- What the exception has to do to the core, whose registers were those of `old`. -/
structure EntersException (e : ArmException) (old : Mode) (m m' : Machine δ) : Prop where
  mode : m'.cpu.M = e.mode.bits
  status : HoldsStatus m'.cpu.SPSR m.cpu
  lr : m'.reg regNoLr = e.returnAddress m
  i : m'.cpu.I = true
  t : m'.cpu.T = false
  f : m'.cpu.F = if e = .fiq then true else m.cpu.F
  flags : m'.cpu.flags = m.cpu.flags ∧ m'.cpu.Q = m.cpu.Q
  low : ∀ r : Fin 16, r.val < 8 → m'.reg r = m.reg r
  banked : ∀ b ≠ e.mode.bank, m'.cpu.cell e.mode (.sp b) = m.cpu.cell old (.sp b) ∧
    m'.cpu.cell e.mode (.lr b) = m.cpu.cell old (.lr b) ∧
    m'.cpu.cell e.mode (.spsr b) = m.cpu.cell old (.spsr b)

end Architecture

section Status

variable {cpu : ArmCpu} {mode : Mode}

theorem getLsbD_ite (b : Bool) (mask : Word) (i : ℕ) :
    (if b then mask else 0).getLsbD i = (b && mask.getLsbD i) := by
  cases b <;> simp

theorem getLsbD_materialize (cpu : ArmCpu) (i : ℕ) : (cpuPrvMaterializeCPSR cpu).getLsbD i =
    (cpu.flags.getLsbD i || (cpu.Q && armSrQ.getLsbD i) || (cpu.T && armSrT.getLsbD i) ||
      (cpu.I && armSrI.getLsbD i) || (cpu.F && armSrF.getLsbD i) ||
      (cpu.M.setWidth 32).getLsbD i) := by
  simp only [cpuPrvMaterializeCPSR, BitVec.getLsbD_or, getLsbD_ite]

theorem flags_getLsbD (h : cpu.FlagsMasked) {i : ℕ} (hi : i < 28) : cpu.flags.getLsbD i = false := by
  have hbit := congrArg (fun x : Word => x.getLsbD i) h
  have hmask : (0x0FFFFFFF : Word).getLsbD i = true := by
    interval_cases i <;> rfl
  rw [BitVec.getLsbD_and, hmask, Bool.and_true] at hbit
  exact hbit.trans BitVec.getLsbD_zero

theorem bits_getLsbD (mode : Mode) {i : ℕ} (hi : 5 ≤ i) :
    (mode.bits.setWidth 32 : Word).getLsbD i = false := by
  have hlt : mode.bits.toNat < 2 ^ 5 := by
    cases mode <;> decide
  have hbit : mode.bits.getLsbD i = false := by
    exact Nat.testBit_lt_two_pow (lt_of_lt_of_le hlt (Nat.pow_le_pow_right (by decide) hi))
  rw [BitVec.getLsbD_setWidth, hbit, Bool.and_false]

theorem holdsStatus_materialize (hM : cpu.M = mode.bits) (hF : cpu.FlagsMasked) :
    HoldsStatus (cpuPrvMaterializeCPSR cpu) cpu where
  flags := by
    apply BitVec.eq_of_getLsbD_eq
    intro i hi
    rw [BitVec.getLsbD_and]
    by_cases hlow : i < 28
    · have hmask : (0xF0000000 : Word).getLsbD i = false := by
        interval_cases i <;> rfl
      rw [hmask, Bool.and_false, flags_getLsbD hF hlow]
    · rw [getLsbD_materialize, hM, bits_getLsbD mode (by omega)]
      interval_cases i <;> simp [armSrQ, armSrT, armSrI, armSrF]
  q := by
    rw [getLsbD_materialize, flags_getLsbD hF (by decide), hM, bits_getLsbD mode (by decide)]
    simp [armSrQ, armSrT, armSrI, armSrF]
  i := by
    rw [getLsbD_materialize, flags_getLsbD hF (by decide), hM, bits_getLsbD mode (by decide)]
    simp [armSrQ, armSrT, armSrI, armSrF]
  f := by
    rw [getLsbD_materialize, flags_getLsbD hF (by decide), hM, bits_getLsbD mode (by decide)]
    simp [armSrQ, armSrT, armSrI, armSrF]
  t := by
    rw [getLsbD_materialize, flags_getLsbD hF (by decide), hM, bits_getLsbD mode (by decide)]
    simp [armSrQ, armSrT, armSrI, armSrF]
  mode := by
    rw [materialize_mode cpu mode hM hF, hM]
    cases mode <;> rfl

end Status

section Entry

variable {δ : Type} {host : Host δ} {m : Machine δ} {old new : Mode} {cpu cpu' : ArmCpu}

theorem cpuPrvSwitchToMode_Q {newMode : BitVec 8} (h : cpuPrvSwitchToMode cpu newMode = some cpu') :
    cpu'.Q = cpu.Q := by
  unfold cpuPrvSwitchToMode at h
  dsimp only at h
  split at h
  · cases h
    rfl
  · split at h
    · split at h
      all_goals
        cases h
        split <;> rfl
    · cases h

theorem cell_setPc (cpu : ArmCpu) (mode : Mode) (val : Word) :
    (cpuPrvSetRegNotPC cpu regNoPc val).cell mode = cpu.cell mode := by
  funext c
  have hne : ∀ r : Fin 16, r.val < 15 → Function.update cpu.regs regNoPc val r = cpu.regs r := by
    intro r hr
    apply Function.update_of_ne
    rintro rfl
    exact absurd hr (by decide)
  cases c with
  | low i => exact hne _ (by dsimp only; omega)
  | high fiq i =>
    simp only [ArmCpu.cell, ArmCpu.cellAt, cpuPrvSetRegNotPC]
    rw [hne _ (by dsimp only; omega)]
  | sp b => rfl
  | lr b => rfl
  | spsr b => rfl

/-- The core behind the switch, with its new control bits and the saved status. -/
def withStatus (cpu : ArmCpu) (low : BitVec 8) (spsr : Word) : ArmCpu :=
  { cpu with SPSR := spsr, T := low.getLsbD 5, F := low.getLsbD 6, I := low.getLsbD 7 }

theorem cell_withStatus (cpu : ArmCpu) (low : BitVec 8) (spsr : Word) (mode : Mode) :
    (withStatus cpu low spsr).cell mode = Function.update (cpu.cell mode) (.spsr mode.bank) spsr :=
  cell_setSPSR { cpu with T := low.getLsbD 5, F := low.getLsbD 6, I := low.getLsbD 7 } mode spsr

/-- All that `cpuPrvException` does outside of PACE mode. -/
structure Taken (new : Mode) (lr vectorPc : Word) (low : BitVec 8) (old : Mode) (cpu : ArmCpu)
    (m' : Machine δ) : Prop where
  mode : m'.cpu.M = new.bits
  spsr : m'.cpu.SPSR = cpuPrvMaterializeCPSR cpu
  lr : m'.reg regNoLr = lr
  pc : m'.reg regNoPc = vectorPc
  i : m'.cpu.I = low.getLsbD 7
  f : m'.cpu.F = low.getLsbD 6
  t : m'.cpu.T = low.getLsbD 5
  flags : m'.cpu.flags = cpu.flags ∧ m'.cpu.Q = cpu.Q
  cell : ∀ c, c ≠ .lr new.bank → c ≠ .spsr new.bank → m'.cpu.cell new c = cpu.cell old c

theorem cpuPrvException_taken (hpace : m.modePace = false) (hM : m.cpu.M = old.bits)
    (hswitch : ¬ DirectUsrSys old new) {low : BitVec 8} (hlow : low &&& armSrM = new.bits)
    (vectorPc lr : Word) : ∃ m', cpuPrvException host m vectorPc lr low = some m' ∧
      Taken new lr vectorPc low old m.cpu m' := by
  obtain ⟨cpu, hcpu, hcell, hflags, hmode⟩ := cpuPrvSwitchToMode_spec m.cpu old new hM
  rw [if_neg hswitch] at hmode
  have hleave : leavePace host m = m := by grind [leavePace]
  have hlo : cpuPrvSetPSRlo8 m.cpu low =
      some { cpu with T := low.getLsbD 5, F := low.getLsbD 6, I := low.getLsbD 7 } := by
    rw [cpuPrvSetPSRlo8, hlow, hcpu]
    rfl
  have htaken : cpuPrvException host m vectorPc lr low =
      some (({ m with cpu := withStatus cpu low (cpuPrvMaterializeCPSR m.cpu) }.setReg
        regNoLr lr).setReg regNoPc vectorPc) := by
    rw [cpuPrvException, hleave, hlo]
    rfl
  have hq : cpu.Q = m.cpu.Q := cpuPrvSwitchToMode_Q hcpu
  refine ⟨_, htaken, hmode, rfl, ?_, reg_setReg .., rfl, rfl, rfl, ⟨hflags, hq⟩,
    fun c hlr hspsr => ?_⟩
  · rfl
  · have hset := cell_setReg (withStatus cpu low (cpuPrvMaterializeCPSR m.cpu)) new 14 lr
    rw [cell_withStatus] at hset
    have hall := (cell_setPc _ new vectorPc).trans hset
    refine (congrFun hall c).trans ?_
    rw [show new.cell 14 = .lr new.bank from rfl, Function.update_of_ne hlr,
      Function.update_of_ne hspsr, hcell]

end Entry

section Condition

variable {δ : Type} {host : Host δ} {m : Machine δ} {old : Mode}

/-- The low bits of the status at each of the call sites. -/
def ArmException.lowBits : ArmException → BitVec 8
  | .undefined => armSrModeUnd ||| armSrI8
  | .prefetchAbort _ _ | .softbreak | .dataAbort _ _ => armSrModeAbt ||| armSrI8
  | .irq => armSrModeIrq ||| armSrI8
  | .fiq => armSrModeFiq ||| armSrI8 ||| armSrF8

theorem lowBits_mode (e : ArmException) : e.lowBits &&& armSrM = e.mode.bits := by
  cases e <;> simp only [ArmException.lowBits, ArmException.mode, Mode.bits] <;> decide

theorem lowBits_control (e : ArmException) :
    e.lowBits.getLsbD 7 = true ∧ e.lowBits.getLsbD 5 = false ∧
      e.lowBits.getLsbD 6 = if e = .fiq then true else false := by
  cases e <;> simp only [ArmException.lowBits, reduceCtorEq, if_false, if_true] <;> decide

theorem not_directUsrSys_exception (e : ArmException) (old : Mode) : ¬ DirectUsrSys old e.mode := by
  rintro (⟨-, h⟩ | ⟨-, h⟩) <;> cases e <;> cases h

theorem enterException_taken (host : Host δ) (old : Mode) (hpace : m.modePace = false) (hM : m.cpu.M = old.bits)
    (e : ArmException) : ∃ m' vectorPc, enterException host m e = some m' ∧
      Taken e.mode (e.returnAddress m) vectorPc e.lowBits old m.cpu m' := by
  have hswitch := not_directUsrSys_exception e old
  have hlow := lowBits_mode e
  cases e with
  | undefined =>
    obtain ⟨m', hm', htaken⟩ := cpuPrvException_taken hpace hM hswitch hlow _ _
    exact ⟨m', _, hm', htaken⟩
  | prefetchAbort addr fsr =>
    obtain ⟨m', hm', htaken⟩ := cpuPrvException_taken
      (m := { m with far := addr, fsr }) hpace hM hswitch hlow _ _
    exact ⟨m', _, hm', htaken⟩
  | softbreak =>
    obtain ⟨m', hm', htaken⟩ := cpuPrvException_taken hpace hM hswitch hlow _ _
    exact ⟨m', _, hm', htaken⟩
  | dataAbort addr fsr =>
    obtain ⟨m', hm', htaken⟩ := cpuPrvException_taken
      (m := { m with far := addr, fsr }) hpace hM hswitch hlow _ _
    exact ⟨m', _, hm', htaken⟩
  | irq =>
    obtain ⟨m', hm', htaken⟩ := cpuPrvException_taken hpace hM hswitch hlow _ _
    exact ⟨m', _, hm', htaken⟩
  | fiq =>
    obtain ⟨m', hm', htaken⟩ := cpuPrvException_taken hpace hM hswitch hlow _ _
    exact ⟨m', _, hm', htaken⟩

theorem Taken.entersException_iff {e : ArmException} {vectorPc : Word} {m' : Machine δ}
    (h : Taken e.mode (e.returnAddress m) vectorPc e.lowBits old m.cpu m') (hM : m.cpu.M = old.bits)
    (hF : m.cpu.FlagsMasked) : EntersException e old m m' ↔ e = .fiq ∨ m.cpu.F = false := by
  obtain ⟨hi, ht, hf⟩ := lowBits_control e
  have hf' : m'.cpu.F = if e = .fiq then true else false := h.f.trans hf
  constructor
  · intro henters
    by_cases hfiq : e = .fiq
    · grind
    · have hkept := henters.f
      rw [hf', if_neg hfiq, if_neg hfiq] at hkept
      exact .inr hkept.symm
  · intro hcond
    refine ⟨h.mode, ?_, h.lr, h.i.trans hi, h.t.trans ht, ?_, h.flags,
      fun r hr => ?_, fun b hb => ?_⟩
    · rw [h.spsr]
      exact holdsStatus_materialize hM hF
    · grind
    · exact h.cell (.low ⟨r.val, hr⟩) (by simp) (by simp)
    · exact ⟨h.cell (.sp b) (by simp) (by simp), h.cell (.lr b) (by simpa using hb) (by simp),
        h.cell (.spsr b) (by simp) (by simpa using hb)⟩

/-- An exception outside of PACE mode is entered as the architecture says if it is an FIQ, or if
FIQs are not masked: every other exception clears the F bit. -/
theorem enterException_iff (host : Host δ) (m : Machine δ) (hpace : m.modePace = false) (old : Mode)
    (hM : m.cpu.M = old.bits) (hF : m.cpu.FlagsMasked) (e : ArmException) :
    (∃ m', enterException host m e = some m' ∧ EntersException e old m m') ↔
      e = .fiq ∨ m.cpu.F = false := by
  obtain ⟨m', vectorPc, hm', htaken⟩ := enterException_taken host old hpace hM e
  rw [← htaken.entersException_iff hM hF, hm']
  constructor <;> simp

def fiqsAllowed : Machine Unit := { beforeEntry with cpu := { beforeEntry.cpu with F := false } }

theorem dataAbort_enters :
    ∃ m', enterException sampleHost fiqsAllowed (.dataAbort 0x40 5) = some m' ∧
    EntersException (.dataAbort 0x40 5) .svc fiqsAllowed m' :=
  (enterException_iff sampleHost fiqsAllowed rfl .svc rfl rfl (.dataAbort 0x40 5)).mpr (.inr rfl)

/-- An undefined instruction behind a reset allows FIQs. -/
theorem undefined_allows_fiqs : beforeEntry.cpu.F = true ∧
    ¬ ∃ m', enterException sampleHost beforeEntry .undefined = some m' ∧
      EntersException .undefined .svc beforeEntry m' := by
  refine ⟨rfl, ?_⟩
  rintro ⟨m', hm', henters⟩
  obtain ⟨m'', vectorPc, hm'', htaken⟩ :=
    enterException_taken sampleHost .svc (m := beforeEntry) rfl rfl .undefined
  rw [hm'] at hm''
  cases hm''
  exact absurd ((htaken.entersException_iff rfl rfl).mp henters) (by decide)

end Condition

end Cloudpilot.Uarm.PaceMode
