import Cloudpilot.Uarm.Cpu.State

/-! # Register banking refines one register file per mode

The abstract register file has one cell for every architectural register and is
indexed by the mode. The concrete core keeps only the registers of the current
mode live. Every order of mode changes and writes keeps the two in step, up to
the recorded mode: a direct switch between user and system mode returns before
`M` is written.
-/
namespace Cloudpilot.Uarm.Cpu

open Function

/-- The seven modes `cpuPrvModeToBankedRegsPtr` accepts. -/
inductive Mode where
  | usr | fiq | irq | svc | abt | und | sys
  deriving DecidableEq, Repr

def Mode.bits : Mode → BitVec 8
  | .usr => armSrModeUsr
  | .fiq => armSrModeFiq
  | .irq => armSrModeIrq
  | .svc => armSrModeSvc
  | .abt => armSrModeAbt
  | .und => armSrModeUnd
  | .sys => armSrModeSys

/-- User and system mode share one set of registers. -/
def Mode.bank : Mode → Bank
  | .usr | .sys => .usr
  | .fiq => .fiq
  | .irq => .irq
  | .svc => .svc
  | .abt => .abt
  | .und => .und

theorem Mode.bits_injective : Function.Injective Mode.bits := by
  intro a b h
  cases a <;> cases b <;> first | rfl | cases h

theorem Mode.bits_eq_fiq (m : Mode) : m.bits = armSrModeFiq ↔ m = .fiq := by
  cases m <;> decide

theorem cpuPrvModeToBankedRegsPtr_bits (m : Mode) :
    cpuPrvModeToBankedRegsPtr m.bits = some m.bank := by
  cases m <;> decide

/-- The architectural register cells: r0 to r7 exist once, r8 to r12 twice, the
stack pointer, link register and saved status once per bank. -/
inductive Cell where
  | low (i : Fin 8)
  | high (fiq : Bool) (i : Fin 5)
  | sp (b : Bank)
  | lr (b : Bank)
  | spsr (b : Bank)
  deriving DecidableEq

def Mode.cell (m : Mode) (r : Fin 15) : Cell :=
  if h : r.val < 8 then .low ⟨r.val, h⟩
  else if h : r.val < 13 then .high (m = .fiq) ⟨r.val - 8, by omega⟩
  else if r.val = 13 then .sp m.bank else .lr m.bank

/-- What software sees: a current mode and the value last written to every cell. -/
structure RegisterFile where
  mode : Mode
  cell : Cell → Word

/-- Steps of a run: a write of the low status byte with valid mode bits, a
register write and a write of the saved status. -/
inductive BankOp where
  | setPSRlo8 (val : BitVec 8) (mode : Mode) (valid : val &&& armSrM = mode.bits)
  | setReg (r : Fin 15) (val : Word)
  | setSPSR (val : Word)

def RegisterFile.step (f : RegisterFile) : BankOp → RegisterFile
  | .setPSRlo8 _ mode _ => { f with mode := mode }
  | .setReg r val => { f with cell := Function.update f.cell (f.mode.cell r) val }
  | .setSPSR val => { f with cell := Function.update f.cell (.spsr f.mode.bank) val }

def RegisterFile.run (f : RegisterFile) (ops : List BankOp) : RegisterFile :=
  ops.foldl RegisterFile.step f

def cpuBankStep (cpu : ArmCpu) : BankOp → Option ArmCpu
  | .setPSRlo8 val _ _ => cpuPrvSetPSRlo8 cpu val
  | .setReg r val => cpuSetReg cpu r.val val
  | .setSPSR val => some { cpu with SPSR := val }

def cpuBankRun (cpu : ArmCpu) (ops : List BankOp) : Option ArmCpu := ops.foldlM cpuBankStep cpu

theorem fiqReg_lt (i : Fin 5) : i.val + 8 < 16 := by omega

/-- The value a core holds for a cell when `live` is the bank in the live file and
`fiq` tells which r8 to r12 are there. -/
def ArmCpu.cellAt (cpu : ArmCpu) (fiq : Bool) (live : Bank) : Cell → Word
  | .low i => cpu.regs ⟨i.val, by omega⟩
  | .high f i => if f = fiq then cpu.regs ⟨i.val + 8, fiqReg_lt i⟩ else cpu.extraRegs i
  | .sp b => if b = live then cpu.regs regNoSp else (cpu.bank b).R13
  | .lr b => if b = live then cpu.regs regNoLr else (cpu.bank b).R14
  | .spsr b => if b = live then cpu.SPSR else (cpu.bank b).SPSR

def ArmCpu.cell (cpu : ArmCpu) (m : Mode) : Cell → Word := cpu.cellAt (m = .fiq) m.bank

/-- The register file a core in mode `m` stands for. -/
def ArmCpu.file (cpu : ArmCpu) (m : Mode) : RegisterFile := ⟨m, cpu.cell m⟩

/-- Condition flags occupy the top four bits, as every writer of `flags` leaves them. -/
def ArmCpu.FlagsMasked (cpu : ArmCpu) : Prop := cpu.flags &&& 0x0FFFFFFF = 0

/-- The abstraction relation carried through a run. -/
structure ArmCpu.Refines (cpu : ArmCpu) (f : RegisterFile) : Prop where
  mode : cpu.M = f.mode.bits
  cell : ∀ c, cpu.cell f.mode c = f.cell c
  flags : cpu.FlagsMasked

/-- The registers a program reads and the mode bits of the materialized status. -/
structure ArmCpu.Observes (cpu : ArmCpu) (f : RegisterFile) : Prop where
  mode : cpuPrvMaterializeCPSR cpu &&& 0x1F = f.mode.bits.setWidth 32
  reg : ∀ r : Fin 15, cpuGetRegExternal cpu r.val = f.cell (f.mode.cell r)
  spsr : cpuGetRegExternal cpu armRegNumSpsr = f.cell (.spsr f.mode.bank)

/-- The switch that forgets to record the mode. -/
def DirectUsrSys (m n : Mode) : Prop := (m = .usr ∧ n = .sys) ∨ (m = .sys ∧ n = .usr)

instance (m n : Mode) : Decidable (DirectUsrSys m n) := by
  unfold DirectUsrSys
  infer_instance

theorem not_directUsrSys_self (m : Mode) : ¬ DirectUsrSys m m := by
  cases m <;> decide

/-- No mode change of the run goes directly between user and system mode. -/
def NoDirectUsrSys : Mode → List BankOp → Prop
  | _, [] => True
  | m, .setPSRlo8 _ n _ :: ops => ¬ DirectUsrSys m n ∧ NoDirectUsrSys n ops
  | m, .setReg _ _ :: ops => NoDirectUsrSys m ops
  | m, .setSPSR _ :: ops => NoDirectUsrSys m ops

theorem cpuSetReg_eq (cpu : ArmCpu) (r : Fin 15) (val : Word) :
    cpuSetReg cpu r.val val = some (cpuPrvSetRegNotPC cpu ⟨r.val, by omega⟩ val) := by
  have hr : r.val < 16 := by omega
  have hcpsr : r.val ≠ armRegNumCpsr := by simp only [armRegNumCpsr]; omega
  have hpc : (⟨r.val, hr⟩ : Fin 16) ≠ regNoPc := by
    simp only [regNoPc, ne_eq, Fin.ext_iff]
    omega
  simp [cpuSetReg, hcpsr, hr, cpuPrvSetReg, hpc]

theorem cpuGetRegExternal_eq (cpu : ArmCpu) (m : Mode) (r : Fin 15) :
    cpuGetRegExternal cpu r.val = cpu.cell m (m.cell r) := by
  have hr : r.val < 16 := by omega
  have hpc : (⟨r.val, hr⟩ : Fin 16) ≠ regNoPc := by
    simp only [regNoPc, ne_eq, Fin.ext_iff]
    omega
  rw [cpuGetRegExternal, dif_pos hr, if_neg hpc]
  by_cases hlow : r.val < 8
  · simp [Mode.cell, hlow, ArmCpu.cell, ArmCpu.cellAt]
  by_cases hhigh : r.val < 13
  · have he : r.val - 8 + 8 = r.val := by omega
    simp [Mode.cell, hlow, hhigh, ArmCpu.cell, ArmCpu.cellAt, he]
  by_cases hsp : r = 13
  · subst hsp
    simp [Mode.cell, ArmCpu.cell, ArmCpu.cellAt, regNoSp]
  · have hlr : r = 14 := by omega
    subst hlr
    simp [Mode.cell, ArmCpu.cell, ArmCpu.cellAt, regNoLr]

theorem cell_setReg (cpu : ArmCpu) (m : Mode) (r : Fin 15) (val : Word) :
    (cpuPrvSetRegNotPC cpu ⟨r.val, by omega⟩ val).cell m =
      Function.update (cpu.cell m) (m.cell r) val := by
  funext c
  rw [update_apply]
  cases c with
  | low i =>
    simp only [cpuPrvSetRegNotPC, ArmCpu.cell, ArmCpu.cellAt, update_apply, Mode.cell, Fin.ext_iff]
    split_ifs <;> simp_all [Fin.ext_iff] <;> omega
  | high fiq i =>
    simp only [cpuPrvSetRegNotPC, ArmCpu.cell, ArmCpu.cellAt, update_apply, Mode.cell, Fin.ext_iff]
    split_ifs <;> simp_all [Fin.ext_iff] <;> omega
  | sp b =>
    simp only [cpuPrvSetRegNotPC, ArmCpu.cell, ArmCpu.cellAt, update_apply, Mode.cell, Fin.ext_iff,
      regNoSp]
    split_ifs <;> simp_all
    omega
  | lr b =>
    simp only [cpuPrvSetRegNotPC, ArmCpu.cell, ArmCpu.cellAt, update_apply, Mode.cell, Fin.ext_iff,
      regNoLr]
    split_ifs <;> simp_all <;> omega
  | spsr b =>
    simp only [cpuPrvSetRegNotPC, ArmCpu.cell, ArmCpu.cellAt, Mode.cell]
    split_ifs <;> simp_all

theorem cell_setSPSR (cpu : ArmCpu) (m : Mode) (val : Word) :
    ({ cpu with SPSR := val } : ArmCpu).cell m =
      Function.update (cpu.cell m) (.spsr m.bank) val := by
  funext c
  cases c with
  | spsr b => by_cases h : b = m.bank <;> simp [ArmCpu.cell, ArmCpu.cellAt, h]
  | _ => simp [ArmCpu.cell, ArmCpu.cellAt]

theorem Mode.bank_eq_iff (m n : Mode) : m.bank = n.bank ↔ m = n ∨ DirectUsrSys m n := by
  cases m <;> cases n <;> decide

theorem exchangeFiqRegs_cellAt (cpu : ArmCpu) (fiq : Bool) (live : Bank) :
    (exchangeFiqRegs cpu).cellAt (!fiq) live = cpu.cellAt fiq live := by
  funext c
  cases c with
  | low i =>
    have hi : ¬ (8 ≤ i.val ∧ i.val < 13) := by omega
    simp [exchangeFiqRegs, ArmCpu.cellAt, hi]
  | high f i =>
    have hi : i.val + 8 < 13 := by omega
    cases f <;> cases fiq <;> simp [exchangeFiqRegs, ArmCpu.cellAt, hi]
  | sp b => simp [exchangeFiqRegs, ArmCpu.cellAt, regNoSp]
  | lr b => simp [exchangeFiqRegs, ArmCpu.cellAt, regNoLr]
  | spsr b => simp [exchangeFiqRegs, ArmCpu.cellAt]

theorem switchBank_cellAt (cpu : ArmCpu) (fiq : Bool) {saveTo getFrom : Bank}
    (newMode : BitVec 8) (hne : saveTo ≠ getFrom) :
    (switchBank cpu saveTo getFrom newMode).cellAt fiq getFrom = cpu.cellAt fiq saveTo := by
  funext c
  cases c with
  | low i =>
    have hsp : (⟨i.val, by omega⟩ : Fin 16) ≠ regNoSp := by simp [regNoSp, Fin.ext_iff]; omega
    have hlr : (⟨i.val, by omega⟩ : Fin 16) ≠ regNoLr := by simp [regNoLr, Fin.ext_iff]; omega
    simp [switchBank, ArmCpu.cellAt, hsp, hlr]
  | high f i =>
    have hsp : (⟨i.val + 8, by omega⟩ : Fin 16) ≠ regNoSp := by simp [regNoSp, Fin.ext_iff]; omega
    have hlr : (⟨i.val + 8, by omega⟩ : Fin 16) ≠ regNoLr := by simp [regNoLr, Fin.ext_iff]; omega
    simp [switchBank, ArmCpu.cellAt, hsp, hlr]
  | sp b =>
    by_cases hg : b = getFrom <;> by_cases hs : b = saveTo <;>
      simp_all [switchBank, ArmCpu.cellAt, regNoSp, regNoLr]
  | lr b =>
    by_cases hg : b = getFrom <;> by_cases hs : b = saveTo <;>
      simp_all [switchBank, ArmCpu.cellAt, regNoSp, regNoLr]
  | spsr b =>
    by_cases hg : b = getFrom <;> by_cases hs : b = saveTo <;>
      simp_all [switchBank, ArmCpu.cellAt]

/-- One switch moves every value to where the new mode looks for it, and records
the new mode unless it shares a bank with the old one. -/
theorem cpuPrvSwitchToMode_spec (cpu : ArmCpu) (m n : Mode) (hM : cpu.M = m.bits) :
    ∃ cpu', cpuPrvSwitchToMode cpu n.bits = some cpu' ∧ cpu'.cell n = cpu.cell m ∧
      cpu'.flags = cpu.flags ∧ cpu'.M = (if DirectUsrSys m n then m else n).bits := by
  by_cases hmn : m = n
  · subst hmn
    refine ⟨cpu, ?_, rfl, rfl, ?_⟩
    · simp [cpuPrvSwitchToMode, hM]
    · simp [hM]
  have hbits : m.bits ≠ n.bits := fun h => hmn (Mode.bits_injective h)
  by_cases hd : DirectUsrSys m n
  · have hm : m ≠ .fiq := by rintro rfl; simp [DirectUsrSys] at hd
    have hn : n ≠ .fiq := by rintro rfl; simp [DirectUsrSys] at hd
    have hb : m.bank = n.bank := (Mode.bank_eq_iff m n).mpr (.inr hd)
    refine ⟨cpu, ?_, ?_, rfl, by simp [hd, hM]⟩
    · simp [cpuPrvSwitchToMode, hM, hbits, Mode.bits_eq_fiq, hm, hn,
        cpuPrvModeToBankedRegsPtr_bits, hb]
    · simp [ArmCpu.cell, hm, hn, hb]
  · have hb : m.bank ≠ n.bank := by
      intro h
      rcases (Mode.bank_eq_iff m n).mp h with h | h
      · exact hmn h
      · exact hd h
    by_cases hf : m = .fiq ∨ n = .fiq
    · have hx : decide (n = .fiq) = !decide (m = .fiq) := by grind
      refine ⟨switchBank (exchangeFiqRegs cpu) m.bank n.bank n.bits, ?_, ?_, rfl, ?_⟩
      · simp [cpuPrvSwitchToMode, hM, hbits, Mode.bits_eq_fiq, cpuPrvModeToBankedRegsPtr_bits,
          hb, hf]
      · rw [ArmCpu.cell, switchBank_cellAt _ _ _ hb, hx, exchangeFiqRegs_cellAt, ArmCpu.cell]
      · simp [switchBank, hd]
    · have hx : decide (n = .fiq) = decide (m = .fiq) := by simp_all
      refine ⟨switchBank cpu m.bank n.bank n.bits, ?_, ?_, rfl, ?_⟩
      · simp [cpuPrvSwitchToMode, hM, hbits, Mode.bits_eq_fiq, cpuPrvModeToBankedRegsPtr_bits,
          hb, hf]
      · rw [ArmCpu.cell, switchBank_cellAt _ _ _ hb, hx, ArmCpu.cell]
      · simp [switchBank, hd]

theorem materialize_mode (cpu : ArmCpu) (m : Mode) (hM : cpu.M = m.bits) (hF : cpu.FlagsMasked) :
    cpuPrvMaterializeCPSR cpu &&& 0x1F = m.bits.setWidth 32 := by
  have hflags : cpu.flags &&& 0x1F = 0 := by
    have h : cpu.flags &&& (0x0FFFFFFF &&& 0x1F) = 0 := by
      rw [← BitVec.and_assoc, hF]
      rfl
    exact h
  have hmode : (m.bits.setWidth 32 : Word) &&& 0x1F = m.bits.setWidth 32 := by cases m <;> rfl
  have hQ : (if cpu.Q then armSrQ else 0) &&& (0x1F : Word) = 0 := by cases cpu.Q <;> rfl
  have hT : (if cpu.T then armSrT else 0) &&& (0x1F : Word) = 0 := by cases cpu.T <;> rfl
  have hI : (if cpu.I then armSrI else 0) &&& (0x1F : Word) = 0 := by cases cpu.I <;> rfl
  have hFq : (if cpu.F then armSrF else 0) &&& (0x1F : Word) = 0 := by cases cpu.F <;> rfl
  simp only [cpuPrvMaterializeCPSR, hM, BitVec.and_or_distrib_right]
  rw [hflags, hQ, hT, hI, hFq, hmode]
  simp

theorem Mode.setWidth_bits_injective {m n : Mode}
    (h : (m.bits.setWidth 32 : Word) = n.bits.setWidth 32) : m = n := by
  cases m <;> cases n <;> first | rfl | cases h

theorem ArmCpu.Refines.observes {cpu : ArmCpu} {f : RegisterFile} (h : cpu.Refines f) :
    cpu.Observes f where
  mode := materialize_mode cpu f.mode h.mode h.flags
  reg r := by rw [cpuGetRegExternal_eq cpu f.mode r, h.cell]
  spsr := by
    rw [← h.cell]
    simp [cpuGetRegExternal, armRegNumSpsr, armRegNumCpsr, ArmCpu.cell, ArmCpu.cellAt]

theorem cpuPrvSetPSRlo8_spec {cpu : ArmCpu} {f : RegisterFile} (h : cpu.Refines f)
    (val : BitVec 8) (n : Mode) (hval : val &&& armSrM = n.bits) :
    ∃ cpu', cpuPrvSetPSRlo8 cpu val = some cpu' ∧ cpu'.cell n = f.cell ∧ cpu'.FlagsMasked ∧
      cpu'.M = (if DirectUsrSys f.mode n then f.mode else n).bits := by
  obtain ⟨cpu', hsw, hcell, hflags, hM⟩ := cpuPrvSwitchToMode_spec cpu f.mode n h.mode
  refine ⟨{ cpu' with T := val.getLsbD 5, F := val.getLsbD 6, I := val.getLsbD 7 }, ?_, ?_, ?_, hM⟩
  · rw [cpuPrvSetPSRlo8, hval, hsw]
    rfl
  · change cpu'.cell n = f.cell
    rw [hcell]
    exact funext h.cell
  · rw [hflags]
    exact h.flags

theorem cpuBankStep_setReg {cpu : ArmCpu} {f : RegisterFile} (h : cpu.Refines f)
    (r : Fin 15) (val : Word) :
    ∃ cpu', cpuBankStep cpu (.setReg r val) = some cpu' ∧
      cpu'.Refines (f.step (.setReg r val)) := by
  refine ⟨_, cpuSetReg_eq cpu r val, h.mode, fun c => ?_, h.flags⟩
  simp only [RegisterFile.step]
  rw [cell_setReg, funext h.cell]

theorem cpuBankStep_setSPSR {cpu : ArmCpu} {f : RegisterFile} (h : cpu.Refines f) (val : Word) :
    ∃ cpu', cpuBankStep cpu (.setSPSR val) = some cpu' ∧ cpu'.Refines (f.step (.setSPSR val)) := by
  refine ⟨_, rfl, h.mode, fun c => ?_, h.flags⟩
  simp only [RegisterFile.step]
  rw [cell_setSPSR, funext h.cell]

def ObservesRun (cpu : ArmCpu) (f : RegisterFile) (ops : List BankOp) : Prop :=
  ∀ n, ∃ cpu', cpuBankRun cpu (ops.take n) = some cpu' ∧ cpu'.Observes (f.run (ops.take n))

theorem observesRun_cons {cpu cpu' : ArmCpu} {f : RegisterFile} {op : BankOp}
    {ops : List BankOp} (hobs : cpu.Observes f) (hstep : cpuBankStep cpu op = some cpu') :
    ObservesRun cpu f (op :: ops) ↔ ObservesRun cpu' (f.step op) ops := by
  constructor
  · intro h n
    simpa [cpuBankRun, RegisterFile.run, hstep] using h (n + 1)
  · intro h n
    cases n with
    | zero => exact ⟨cpu, rfl, hobs⟩
    | succ n => simpa [cpuBankRun, RegisterFile.run, hstep] using h n

theorem observesRun_iff {cpu : ArmCpu} {f : RegisterFile} (h : cpu.Refines f)
    (ops : List BankOp) : ObservesRun cpu f ops ↔ NoDirectUsrSys f.mode ops := by
  induction ops generalizing cpu f with
  | nil =>
    simp only [NoDirectUsrSys, iff_true]
    intro n
    exact ⟨cpu, by simp [cpuBankRun], by simpa [RegisterFile.run] using h.observes⟩
  | cons op ops ih =>
    cases op with
    | setReg r val =>
      obtain ⟨cpu', hstep, h'⟩ := cpuBankStep_setReg h r val
      rw [observesRun_cons h.observes hstep, ih h']
      rfl
    | setSPSR val =>
      obtain ⟨cpu', hstep, h'⟩ := cpuBankStep_setSPSR h val
      rw [observesRun_cons h.observes hstep, ih h']
      rfl
    | setPSRlo8 val n hval =>
      obtain ⟨cpu', hstep, hcell, hflags, hM⟩ := cpuPrvSetPSRlo8_spec h val n hval
      rw [observesRun_cons h.observes (show cpuBankStep cpu (.setPSRlo8 val n hval) = _ from hstep)]
      by_cases hd : DirectUsrSys f.mode n
      · simp only [NoDirectUsrSys, hd, not_true_eq_false, false_and, iff_false]
        intro hrun
        obtain ⟨cpu'', hcpu, hobs⟩ := hrun 0
        obtain rfl : cpu' = cpu'' := by simpa [cpuBankRun] using hcpu
        rw [if_pos hd] at hM
        have hmode := hobs.mode.symm.trans (materialize_mode cpu' f.mode hM hflags)
        have hn : n = f.mode := Mode.setWidth_bits_injective hmode
        rw [hn] at hd
        exact not_directUsrSys_self f.mode hd
      · rw [if_neg hd] at hM
        rw [ih ⟨hM, congrFun hcell, hflags⟩]
        simp [NoDirectUsrSys, hd, RegisterFile.step]

/-- For every core with masked flags in mode `m` and every run of mode changes and
writes: after each step the materialized mode bits are the mode last set and every
read returns the value last written in that mode, exactly when no step switches
directly between user and system mode. -/
theorem cpuBankRun_observes_iff (cpu : ArmCpu) (m : Mode) (hM : cpu.M = m.bits)
    (hF : cpu.FlagsMasked) (ops : List BankOp) :
    ObservesRun cpu (cpu.file m) ops ↔ NoDirectUsrSys m ops :=
  observesRun_iff ⟨hM, fun _ => rfl, hF⟩ ops

def usrFiqRun : List BankOp :=
  [.setPSRlo8 0x10 .usr rfl, .setReg 13 0x1000, .setPSRlo8 0x11 .fiq rfl, .setReg 8 7,
    .setPSRlo8 0x1F .sys rfl]

theorem cpuBankRun_observes_usrFiqRun :
    ObservesRun (cpuInit 0) ((cpuInit 0).file .svc) usrFiqRun :=
  (cpuBankRun_observes_iff (cpuInit 0) .svc rfl rfl usrFiqRun).mpr (by
    simp [usrFiqRun, NoDirectUsrSys, DirectUsrSys])

/-- From user mode the core is asked for system mode and keeps reporting user mode. -/
def usrSysRun : List BankOp := [.setPSRlo8 0x10 .usr rfl, .setPSRlo8 0x1F .sys rfl]

theorem cpuBankRun_usrSys_mode_lost :
    ((cpuInit 0).file .svc |>.run usrSysRun).mode = .sys ∧
      (cpuBankRun (cpuInit 0) usrSysRun).map (fun cpu => cpuPrvMaterializeCPSR cpu &&& 0x1F) =
        some 0x10 ∧ ¬ ObservesRun (cpuInit 0) ((cpuInit 0).file .svc) usrSysRun := by
  refine ⟨rfl, by decide +kernel, ?_⟩
  intro h
  obtain ⟨cpu, hrun, hobs⟩ := h 2
  have hmode := hobs.mode
  have hval : (cpuBankRun (cpuInit 0) (usrSysRun.take 2)).map
      (fun cpu => cpuPrvMaterializeCPSR cpu &&& 0x1F) = some 0x10 := by decide +kernel
  rw [hrun] at hval
  simp only [Option.map_some, Option.some.injEq, hmode] at hval
  cases hval

end Cloudpilot.Uarm.Cpu
