import Cloudpilot.Uarm.Pace.Instruction
import Cloudpilot.Uarm.PaceMode.Exceptions

/-! # When 68k code goes on behind an exception

The handler returns to the entry that its exception names. Resuming loads the saved state
and nothing else; the return from a callout loads the state pointer from the stack before;
the plain entry moves the stack pointer.
-/

namespace Cloudpilot.Uarm.PaceMode

open Cloudpilot.Uarm.Cpu Cloudpilot.Uarm.MMU Cloudpilot.Uarm.Pace Cloudpilot.Library Option

section

variable {δ : Type} {host : Host δ} {patch : PacePatch}

variable {pa : ℕ → Word}

theorem Transferred.trans {dev : Devices δ} {s t u : PaceState δ} (hst : Transferred dev pa s t)
    (htu : Transferred dev pa t u) : Transferred dev pa s u := by
  induction htu with
  | refl => exact hst
  | translate addr priviledged write _ ih => exact .translate addr priviledged write ih
  | devices d _ ih => exact .devices d ih
  | store h _ ih => exact .store h ih

theorem WritableArea.of_transferred {dev : Devices δ} {area : Word} {s t : PaceState δ}
    (h : WritableArea dev area pa s) (ht : Transferred dev pa s t) :
    WritableArea dev area pa t where
  mapped u hu := h.mapped u (ht.trans hu)
  ram i hi := (ht.ram_iff (pa i)).mpr (h.ram i hi)
  aligned := h.aligned

theorem memAccessRead_devices (dev : Devices δ) (mem : PhysicalMemory δ) (addr : Word) (size : ℕ) :
    ∃ d, (memAccessRead dev mem addr size).2 = { mem with devices := d } := by
  unfold memAccessRead
  split
  · grind
  · split
    · grind
    · simp

theorem cpuPrvMemOpRead_area {m m' : Machine δ} {vaddr value area : Word}
    {privileged priviledged : Bool} (h : cpuPrvMemOpRead host m vaddr privileged = (.ok value, m'))
    (harea : WritableArea host.dev area pa { m.pace.access with priviledged }) :
    WritableArea host.dev area pa { m'.pace.access with priviledged } ∧
      ∀ a, ramByte m'.pace.access.mem a = ramByte m.pace.access.mem a := by
  unfold cpuPrvMemOpRead at h
  split at h
  · cases h
  dsimp only at h
  split at h
  · cases h
  rename_i paddr htranslate
  obtain ⟨d, hmem⟩ := memAccessRead_devices host.dev m.pace.access.mem paddr 4
  split at h
  · cases h
  rename_i bytes mem hread
  rw [hread] at hmem
  cases h
  obtain rfl : mem = { m.pace.access.mem with devices := d } := hmem
  exact ⟨harea.of_transferred (.devices d (.translate vaddr privileged false .refl)), fun a => rfl⟩

/-- A handler has returned to the address of `instr`, with the state area as the exception left it. -/
structure ReturnedTo (host : Host δ) (patch : PacePatch) (instr : PaceInstr) (pa : ℕ → Word)
    (m m₂ : Machine δ) : Prop where
  pc : m₂.reg regNoPc = m.paceOffset + patch.enterPace + instr.offset
  regs : ∀ r, r ≠ regNoPc → m₂.reg r = m.reg r
  mode : m₂.cpu.M = m.cpu.M
  arm : m₂.cpu.T = false
  area : WritableArea host.dev (m.reg 0) pa { m₂.pace.access with priviledged := m.privileged }
  holds : AreaHolds pa m₂.pace.access.mem (makeSR m.pace.regs m.pace.regflags)

theorem continues_resume {m m₂ : Machine δ} (h : ReturnedTo host patch .resume pa m m₂) :
    Continues host patch m m₂ := by
  have hr0 : (fetched m₂).reg 0 = m.reg 0 := (fetched_reg m₂ (by decide)).trans (h.regs 0 (by decide))
  have hpriv : (fetched m₂).privileged = m.privileged := privileged_congr h.mode
  obtain ⟨pace, hload, hregs, hflags⟩ := loadPace_area host (fetched m₂)
    m.privileged (by rw [hr0]; exact h.area) h.holds (continueAt patch 4)
  have hcycle : cpuPrvCycleArm host patch m₂ .resume =
      some (continueAt patch 4 { fetched m₂ with pace, modePace := true }) := by
    rw [← hload, ← hpriv]
    rfl
  have hkeep : (continueAt patch 4 { fetched m₂ with pace, modePace := true }).reg 0 =
      (fetched m₂).reg 0 := reg_setReg_ne _ (by decide) _
  refine ⟨h.arm, .resume, _, (cycleAtReturn_of h.pc).trans (by rw [hcycle]; rfl),
    sameContext_of_loaded (by decide) h.pc h.regs hcycle rfl (hkeep.trans hr0) hregs hflags⟩

theorem cpuPrvMemOpRead_congr {m m' : Machine δ} (h : m'.pace.access = m.pace.access) (vaddr : Word)
    (privileged : Bool) :
    (cpuPrvMemOpRead host m' vaddr privileged).1 = (cpuPrvMemOpRead host m vaddr privileged).1 := by
  simp only [cpuPrvMemOpRead, h]
  by_cases halign : vaddr &&& 3#32 ≠ 0
  · rw [if_pos halign, if_pos halign]
  rw [if_neg halign, if_neg halign]
  rcases translate host.dev { m.pace.access with priviledged := privileged } vaddr false with ⟨paddr, mmu⟩
  cases paddr with
  | error fsr => rfl
  | ok paddr =>
    dsimp only
    rcases memAccessRead host.dev m.pace.access.mem paddr 4 with ⟨bytes, mem⟩
    cases bytes with
    | none => rfl
    | some bytes => rfl

theorem cpuPrvMemOpRead_fetched (m : Machine δ) (vaddr : Word) (privileged : Bool) :
    (cpuPrvMemOpRead host (fetched m) vaddr privileged).1 =
      (cpuPrvMemOpRead host m vaddr privileged).1 :=
  cpuPrvMemOpRead_congr (show (fetched m).pace.access = m.pace.access from rfl) vaddr privileged

theorem continues_returnFromCallout {m m₂ : Machine δ}
    (h : ReturnedTo host patch .returnFromCallout pa m m₂)
    (hread : (cpuPrvMemOpRead host m₂ (m₂.reg regNoSp) m₂.privileged).1 = .ok (m₂.reg 0)) :
    Continues host patch m m₂ := by
  have hpriv : (fetched m₂).privileged = m.privileged := privileged_congr h.mode
  have hsp : (fetched m₂).reg regNoSp = m₂.reg regNoSp := fetched_reg m₂ (by decide)
  obtain ⟨mid, hmid⟩ : ∃ mid, cpuPrvMemOpRead host (fetched m₂) ((fetched m₂).reg regNoSp)
      m.privileged = (.ok (m.reg 0), mid) := by
    refine ⟨_, Prod.ext ?_ rfl⟩
    rw [cpuPrvMemOpRead_fetched, hsp, ← privileged_congr h.mode, hread, h.regs 0 (by decide)]
  obtain ⟨harea, hram⟩ := cpuPrvMemOpRead_area hmid (m := fetched m₂) h.area
  have hr0 : (mid.setReg 0 (m.reg 0)).reg 0 = m.reg 0 := reg_setReg ..
  have hholds : AreaHolds pa mid.pace.access.mem (makeSR m.pace.regs m.pace.regflags) :=
    fun i hi => (hram (pa i)).trans (h.holds i hi)
  obtain ⟨pace, hload, hregs, hflags⟩ := loadPace_area host (mid.setReg 0 (m.reg 0))
    m.privileged (by rw [hr0]; exact harea) hholds (continueAt patch 8)
  have hcycle : cpuPrvCycleArm host patch m₂ .returnFromCallout =
      some (continueAt patch 8 { mid.setReg 0 (m.reg 0) with pace, modePace := true }) := by
    rw [← hload, ← execFnPaceReturnFromCallout_eq hmid, ← hpriv]
    rfl
  have hkeep : (continueAt patch 8 { mid.setReg 0 (m.reg 0) with pace, modePace := true }).reg 0 =
      (mid.setReg 0 (m.reg 0)).reg 0 := reg_setReg_ne _ (by decide) _
  exact ⟨h.arm, .returnFromCallout, _, (cycleAtReturn_of h.pc).trans (by rw [hcycle]; rfl),
    sameContext_of_loaded (by decide) h.pc h.regs hcycle rfl (hkeep.trans hr0) hregs hflags⟩

theorem HandlerReturns.returnedTo {e : PaceException} {instr : PaceInstr} {m m₁ m₂ : Machine δ}
    (he : e ≠ .returnAbort) (hin : InPace patch instr m)
    (harea : WritableArea host.dev m.pace.statePtr pa m.pace.access)
    (htake : takeException host m e = some m₁) (h : HandlerReturns host e pa m m₁ m₂) :
    ∃ pa', ReturnedTo host patch (if e = .dataAbort then instr else .resume) pa' m m₂ := by
  obtain ⟨pa', harea', hbytes⟩ := h.area
  have hholds := takeException_area he hin.modePace harea htake
  refine ⟨pa', ?_, fun r hr => (h.regs r hr).trans (interruptedReg_eq he m r), h.mode,
    h.arm.trans hin.arm, ?_, fun i hi => (hbytes i hi).trans (hholds i hi)⟩
  · rw [h.pc, takeException_lr he htake]
    by_cases habort : e = .dataAbort
    · rw [if_pos habort, if_pos habort]
      exact hin.curInstrPC
    · rw [if_neg habort, if_neg habort]
      exact hin.pc
  · rwa [← hin.statePtr, ← hin.priviledged]

theorem sub_eight_ne (a : Word) : a - 8 ≠ a := by bv_omega

theorem not_continues_returnAbort {m m₁ m₂ : Machine δ}
    (h : HandlerReturns host .returnAbort pa m m₁ m₂) : ¬ Continues host patch m m₂ := by
  rintro ⟨-, instr, m', hcycle, hsame⟩
  have hsp := (cycleAtReturn_sp hcycle hsame.modePace).symm.trans hsame.sp
  rw [h.regs regNoSp (by decide), interruptedReg, if_pos ⟨rfl, rfl⟩] at hsp
  split at hsp <;> bv_omega

theorem not_continues_enter {m m₂ : Machine δ} (h : ReturnedTo host patch .enter pa m m₂) :
    ¬ Continues host patch m m₂ := by
  rintro ⟨-, instr, m', hcycle, hsame⟩
  rw [cycleAtReturn_of h.pc] at hcycle
  obtain ⟨m'', hrun, heq⟩ := map_eq_some_iff.mp hcycle
  cases heq
  have hsp := (cpuPrvCycleArm_entered hrun hsame.modePace).sp
  rw [hsame.sp, h.regs regNoSp (by decide), if_pos rfl] at hsp
  exact sub_eight_ne _ hsp.symm

theorem continues_returnFromCallout_iff {m m₂ : Machine δ}
    (h : ReturnedTo host patch .returnFromCallout pa m m₂) : Continues host patch m m₂ ↔
      (cpuPrvMemOpRead host m₂ (m₂.reg regNoSp) m₂.privileged).1 = .ok (m₂.reg 0) := by
  refine ⟨?_, continues_returnFromCallout h⟩
  rintro ⟨-, instr, m', hcycle, hsame⟩
  rw [cycleAtReturn_of h.pc] at hcycle
  obtain ⟨m'', hrun, heq⟩ := map_eq_some_iff.mp hcycle
  cases heq
  have hread := (execFnPaceReturnFromCallout_entered hrun hsame.modePace).2
  rwa [cpuPrvMemOpRead_fetched, hsame.r0, ← h.regs 0 (by decide)] at hread

theorem continues_iff {e : PaceException} {instr : PaceInstr} {m m₁ m₂ : Machine δ}
    (hentered : Entered host patch instr m)
    (harea : WritableArea host.dev m.pace.statePtr pa m.pace.access)
    (htake : takeException host m e = some m₁) (hreturns : HandlerReturns host e pa m m₁ m₂) :
    Continues host patch m m₂ ↔ Restarts host e instr m₂ := by
  by_cases he : e = .returnAbort
  · subst he
    exact iff_of_false (not_continues_returnAbort hreturns) id
  obtain ⟨pa', hto⟩ := hreturns.returnedTo he hentered.inPace harea htake
  cases e with
  | irq => exact iff_of_true (continues_resume hto) trivial
  | fiq => exact iff_of_true (continues_resume hto) trivial
  | dataAbort =>
    cases instr with
    | enter => exact iff_of_false (not_continues_enter hto) id
    | resume => exact iff_of_true (continues_resume hto) trivial
    | returnFromCallout => exact continues_returnFromCallout_iff hto
  | returnAbort => exact absurd rfl he

end

section Definitions

variable {δ : Type} (host : Host δ) (patch : PacePatch)

/-- ARM code that was called out to at `m₁` has returned with its stack pointer. -/
structure CalloutReturns (m₁ m₂ : Machine δ) : Prop where
  sp : m₂.reg regNoSp = m₁.reg regNoSp
  pc : m₂.reg regNoPc = m₁.reg regNoLr
  arm : m₂.cpu.T = false
  modePace : m₂.modePace = false

/-- The states with PACE mode on, and the instruction that entered it last, of the runs from `m₀`
whose exceptions are all `allowed`. -/
inductive PaceRun (allowed : PaceException → PaceInstr → Machine δ → Prop) (m₀ : Machine δ) :
    PaceInstr → Machine δ → Prop
  | enter {m : Machine δ} : m₀.modePace = false → m₀.cpu.T = false →
      cpuPrvCycleArm host patch m₀ .enter = some m → m.modePace = true → PaceRun allowed m₀ .enter m
  | interpret {instr : PaceInstr} {m m' : Machine δ} : PaceRun allowed m₀ instr m →
      Interpreted m m' → PaceRun allowed m₀ instr m'
  | exception {e : PaceException} {instr instr' : PaceInstr} {pa : ℕ → Word} {m m₁ m₂ m' : Machine δ} :
      PaceRun allowed m₀ instr m → WritableArea host.dev m.pace.statePtr pa m.pace.access →
      takeException host m e = some m₁ → HandlerReturns host e pa m m₁ m₂ → allowed e instr m₂ →
      cycleAtReturn host patch m m₂ = some (instr', m') → m'.modePace = true →
      PaceRun allowed m₀ instr' m'
  | callout {status : PaceStatus} {instr instr' : PaceInstr} {m m₁ m₂ m' : Machine δ} :
      PaceRun allowed m₀ instr m → cpuPrvCyclePace host patch m status = some (true, m₁) →
      CalloutReturns m₁ m₂ → cycleAtReturn host patch m m₂ = some (instr', m') →
      m'.modePace = true → PaceRun allowed m₀ instr' m'

/-- The return of the outermost 68k routine, without a data abort. -/
structure PaceReturns (m mEnd : Machine δ) : Prop where
  saved : (paceSave68kState host m.pace).1 = true
  loaded : ∃ value, returnAddress host m = .ok value
  returned : cpuPrvPaceReturn host m = some mEnd

end Definitions

variable {δ : Type} {host : Host δ} {patch : PacePatch}

theorem cpuPrvPaceCallout_made {m m₁ : Machine δ} {destination : Word}
    (h : cpuPrvPaceCallout host patch m destination = some (true, m₁)) :
    m₁.reg regNoSp = m.reg regNoSp ∧ m₁.reg regNoLr = patch.returnFromCallout + m.paceOffset := by
  unfold cpuPrvPaceCallout at h
  split at h
  · obtain ⟨_, -, heq⟩ := map_eq_some_iff.mp h
    cases heq
  · cases h
    constructor <;> rfl

theorem cpuPrvCyclePace_callout {m m₁ : Machine δ} {status : PaceStatus}
    (h : cpuPrvCyclePace host patch m status = some (true, m₁)) :
    m₁.reg regNoSp = m.reg regNoSp ∧ m₁.reg regNoLr = patch.returnFromCallout + m.paceOffset := by
  cases status with
  | ok => cases h
  | memoryFault | «return» =>
    obtain ⟨_, -, heq⟩ := map_eq_some_iff.mp h
    cases heq
  | divisionByZero =>
    have hmade := cpuPrvPaceCallout_made h
    exact hmade
  | syscall =>
    simp only [cpuPrvCyclePace, cpuPrvPaceSyscall] at h
    split at h
    · obtain ⟨_, -, heq⟩ := map_eq_some_iff.mp h
      cases heq
    · have hmade := cpuPrvPaceCallout_made h
      exact hmade
  | illegalInstr | line1010 | line1111 | trap0 | trap8 | unimplementedInstr | other =>
    exact cpuPrvPaceCallout_made h

theorem entered_of_cycleAtReturn {m m₂ m' : Machine δ} {instr : PaceInstr}
    (h : cycleAtReturn host patch m m₂ = some (instr, m')) (hoff : m₂.modePace = false)
    (harm : m₂.cpu.T = false) (hin : m'.modePace = true) : Entered host patch instr m' := by
  obtain ⟨fetchedInstr, -, hcycle⟩ := bind_eq_some_iff.mp h
  obtain ⟨m'', hrun, heq⟩ := map_eq_some_iff.mp hcycle
  obtain ⟨rfl, rfl⟩ := Prod.mk.inj heq
  exact ⟨m₂, m'', hoff, harm, hrun, hin, m''.pace.regs, m''.pace.regflags, m''.pace.access, rfl, rfl⟩

theorem Entered.interpret {instr : PaceInstr} {m m' : Machine δ} (h : Entered host patch instr m)
    (hint : Interpreted m m') : Entered host patch instr m' := by
  obtain ⟨m₀, m₁, hoff, harm, hcycle, hin, regs, regflags, access, hpriv, rfl⟩ := h
  obtain ⟨regs', regflags', access', hpriv', rfl⟩ := hint
  exact ⟨m₀, m₁, hoff, harm, hcycle, hin, regs', regflags', access', hpriv'.trans hpriv, rfl⟩

theorem PaceRun.entered_sp {m₀ m : Machine δ} {instr : PaceInstr}
    (h : PaceRun host patch (Restarts host) m₀ instr m) :
    Entered host patch instr m ∧ m.reg regNoSp = m₀.reg regNoSp - 8 := by
  induction h with
  | enter hoff harm hcycle hin =>
    rename_i m
    have hsp := (cpuPrvCycleArm_entered hcycle hin).sp
    exact ⟨⟨m₀, m, hoff, harm, hcycle, hin, m.pace.regs, m.pace.regflags, m.pace.access, rfl, rfl⟩, hsp⟩
  | interpret _ hint ih =>
    refine ⟨ih.1.interpret hint, ?_⟩
    obtain ⟨regs, regflags, access, -, rfl⟩ := hint
    exact ih.2
  | exception _ harea htake hreturns hallowed hcycle hin ih =>
    obtain ⟨-, instr'', m'', hcycle', hsame⟩ := (continues_iff ih.1 harea htake hreturns).mpr hallowed
    obtain ⟨rfl, rfl⟩ := Prod.mk.inj (some.inj (hcycle.symm.trans hcycle'))
    have harm := hreturns.arm.trans ih.1.inPace.arm
    exact ⟨entered_of_cycleAtReturn hcycle hreturns.modePace harm hin, hsame.sp.trans ih.2⟩
  | callout _ hcallout hreturns hcycle hin ih =>
    rename_i m m₁ m₂ m' _
    obtain ⟨hsp, hlr⟩ := cpuPrvCyclePace_callout hcallout
    refine ⟨entered_of_cycleAtReturn hcycle hreturns.modePace hreturns.arm hin, ?_⟩
    have hkeep := cycleAtReturn_sp hcycle hin
    have hpc : m₂.reg regNoPc =
        m.paceOffset + patch.enterPace + PaceInstr.returnFromCallout.offset := by
      rw [hreturns.pc, hlr, patch.returnFromCallout_eq, PaceInstr.offset]
      bv_omega
    rw [cycleAtReturn_of hpc] at hcycle
    obtain ⟨_, -, heq⟩ := map_eq_some_iff.mp hcycle
    cases heq
    rw [hkeep, if_neg (by decide), hreturns.sp, hsp, ih.2]
    exact BitVec.sub_zero _

theorem PaceReturns.sp {m mEnd : Machine δ} (h : PaceReturns host m mEnd) :
    mEnd.reg regNoSp = m.reg regNoSp + 8 := by
  obtain ⟨value, hloaded⟩ := h.loaded
  have hreturned := h.returned
  unfold cpuPrvPaceReturn at hreturned
  unfold returnAddress at hloaded
  split at hreturned
  · rename_i pace hsave
    have hsaved := h.saved
    rw [hsave] at hsaved
    cases hsaved
  rename_i pace hsave
  rw [hsave] at hloaded
  dsimp only at hreturned hloaded
  split at hreturned
  · rename_i fsr mid hread
    rw [hread] at hloaded
    cases hloaded
  · rename_i v mid hread
    have hmid := cpuPrvMemOpRead_onlyAccess host ({ m with pace }.setReg regNoSp (m.reg regNoSp + 4))
      (({ m with pace }.setReg regNoSp (m.reg regNoSp + 4)).reg regNoSp)
      ({ m with pace }.setReg regNoSp (m.reg regNoSp + 4)).privileged
    rw [hread] at hmid
    cases hreturned
    have hsp : mid.reg regNoSp = m.reg regNoSp + 4 := (hmid.reg _).trans (reg_setReg ..)
    refine (reg_setReg_ne _ (by decide) _).trans ((reg_setReg_ne _ (by decide) _).trans
      ((reg_setReg _ _ _).trans ?_))
    bv_omega

/-- For every 68k state and every entry: an exception whose handler keeps the state area and
restores the registers is transparent exactly when its return address suits the last entry;
and in every run of such exceptions the return leaves the stack pointer of the entry. -/
theorem exceptions_transparent_iff (host : Host δ) (patch : PacePatch) :
    (∀ (e : PaceException) (instr : PaceInstr) (pa : ℕ → Word) (m m₁ m₂ : Machine δ),
      Entered host patch instr m → WritableArea host.dev m.pace.statePtr pa m.pace.access →
      takeException host m e = some m₁ → HandlerReturns host e pa m m₁ m₂ →
      (Continues host patch m m₂ ↔ Restarts host e instr m₂)) ∧
    ∀ (instr : PaceInstr) (m₀ m mEnd : Machine δ), PaceRun host patch (Restarts host) m₀ instr m →
      PaceReturns host m mEnd → Entered host patch instr m ∧ mEnd.reg regNoSp = m₀.reg regNoSp := by
  refine ⟨fun e instr pa m m₁ m₂ hentered harea htake hreturns =>
    continues_iff hentered harea htake hreturns, fun instr m₀ m mEnd hrun hreturns => ?_⟩
  obtain ⟨hentered, hsp⟩ := hrun.entered_sp
  refine ⟨hentered, ?_⟩
  rw [hreturns.sp, hsp]
  bv_omega

theorem leavePace_cpu (host : Host δ) (m : Machine δ) : (leavePace host m).cpu = m.cpu := by
  unfold leavePace
  split <;> rfl

theorem isSome_cpuPrvException (host : Host δ) {m : Machine δ} {bits : BitVec 8}
    (h : (cpuPrvSetPSRlo8 m.cpu bits).isSome) (vectorPc lr : Word) :
    (cpuPrvException host m vectorPc lr bits).isSome := by
  rwa [cpuPrvException, isSome_map, leavePace_cpu]

theorem takeException_access {e : PaceException} (he : e ≠ .returnAbort) {m m₁ : Machine δ}
    {pa : ℕ → Word} (hin : m.modePace = true)
    (harea : WritableArea host.dev m.pace.statePtr pa m.pace.access)
    (h : takeException host m e = some m₁) :
    m₁.modePace = false ∧ Transferred host.dev pa m.pace.access m₁.pace.access := by
  obtain ⟨access, hsave, htransferred, -⟩ := paceSave68kState_area harea
  have hleave : (leavePace host m).pace.access = access := by
    rw [leavePace, if_pos hin, hsave]
  have hspec : m₁.modePace = false ∧ m₁.pace = (leavePace host m).pace := by
    cases e with
    | irq => exact ⟨(cpuPrvException_spec h).1, (cpuPrvException_spec h).2.2⟩
    | fiq => exact ⟨(cpuPrvException_spec h).1, (cpuPrvException_spec h).2.2⟩
    | dataAbort => exact ⟨(cpuPrvHandleMemErr_spec h).1, (cpuPrvHandleMemErr_spec h).2.2⟩
    | returnAbort => exact absurd rfl he
  refine ⟨hspec.1, ?_⟩
  rwa [hspec.2, hleave]

/-- The machine behind a handler that has restored the registers and done nothing else. -/
def returnedFrom (e : PaceException) (m m₁ : Machine δ) : Machine δ :=
  { m₁ with cpu := m.cpu }.setReg regNoPc (m₁.reg regNoLr - e.lrOffset)

theorem returnedFrom_returns {e : PaceException} (he : e ≠ .returnAbort) {m m₁ : Machine δ}
    {pa : ℕ → Word} (hin : m.modePace = true)
    (harea : WritableArea host.dev m.pace.statePtr pa m.pace.access)
    (h : takeException host m e = some m₁) :
    HandlerReturns host e pa m m₁ (returnedFrom e m m₁) where
  regs r hr := (reg_setReg_ne _ hr _).trans (interruptedReg_eq he m r).symm
  pc := reg_setReg _ _ _
  mode := rfl
  arm := rfl
  modePace := (takeException_access he hin harea h).1
  area := by
    have htransferred := (takeException_access he hin harea h).2
    have hsame : { m₁.pace.access with priviledged := m.pace.access.priviledged } =
        m₁.pace.access := by
      rw [← htransferred.fields.1]
    refine ⟨pa, ?_, fun i hi => rfl⟩
    change WritableArea _ _ _ { m₁.pace.access with priviledged := m.pace.access.priviledged }
    rw [hsame]
    exact harea.of_transferred htransferred

theorem writableArea_flat (dev : Devices δ) {area : Word} {s : PaceState δ}
    (hoff : s.mmu.transTablPA = mmuDisabledTTP)
    (hram : ∀ i < stateSize, inRam s.mem (area + BitVec.ofNat 32 i)) :
    WritableArea dev area (fun i => area + BitVec.ofNat 32 i) s where
  mapped t ht i hi := by
    have hkeep : t.mmu.transTablPA = mmuDisabledTTP := by
      induction ht with
      | refl => exact hoff
      | translate addr priviledged write _ ih =>
        rw [Pace.translate, mmuTranslate, if_pos ih]
        exact ih
      | devices _ _ ih => exact ih
      | store _ _ ih => exact ih
    rw [translate_fst, outcome, if_pos hkeep]
  ram := hram
  aligned i hi := rfl

def sampleHost : Host Unit := ⟨noDevices, 0, 0⟩

def samplePatch : PacePatch where
  enterPace := 0x8000
  resumePace := 0x8004
  returnFromCallout := 0x8008
  calloutIllegalInstr := 0x8100
  calloutDivu := 0x8200
  calloutDivs := 0x8300
  calloutTrap0 := 0x8400
  calloutTrap8 := 0x8500
  calloutSyscall := 0x8600
  calloutLine1111 := 0x8700
  calloutLine1010 := 0x8800
  calloutUnimplementedInstr := 0x8900
  resumePace_eq := rfl
  returnFromCallout_eq := rfl

def beforeEntry : Machine Unit where
  cpu := { cpuInit 0x8000 with
    regs := fun r => if r = 0 then 0x100 else if r = 13 then 0x1000 else if r = 15 then 0x8000 else 0 }
  vectorBase := 0
  far := 0
  fsr := 0
  modePace := false
  paceOffset := 0
  pace := {
    regs := ⟨0, fun _ => 0, 0, 0⟩
    regflags := ⟨false, false, false, false, false⟩
    statePtr := 0
    access := ⟨⟨⟨0, 0x2000, fun _ => 0⟩, ⟨0, 0, fun _ => 0⟩, ()⟩, mmuInit (fun _ => none) true,
      true, 0, 0, false⟩ }

def afterEntry : Machine Unit := (cpuPrvCycleArm sampleHost samplePatch beforeEntry .enter).getD beforeEntry

def sampleArea (i : ℕ) : Word := afterEntry.pace.statePtr + BitVec.ofNat 32 i

def inHandler (e : PaceException) : Machine Unit := (takeException sampleHost afterEntry e).getD afterEntry

theorem eq_some_getD {α : Type} {o : Option α} (h : o.isSome) (d : α) : o = some (o.getD d) := by
  obtain ⟨a, rfl⟩ := isSome_iff_exists.mp h
  rfl

def afterReturn : Machine Unit := (cpuPrvPaceReturn sampleHost afterEntry).getD afterEntry

theorem sample_checks :
    ((cpuPrvCycleArm sampleHost samplePatch beforeEntry .enter).isSome ∧
      afterEntry.modePace = true ∧ afterEntry.pace.access.mmu.transTablPA = mmuDisabledTTP ∧
      ∀ i < stateSize, regionContains afterEntry.pace.access.mem.ram.pa
        afterEntry.pace.access.mem.ram.sz (afterEntry.pace.statePtr + BitVec.ofNat 32 i) = true) ∧
    ((cpuPrvSetPSRlo8 afterEntry.cpu (armSrModeIrq ||| armSrI8)).isSome ∧
      (cpuPrvSetPSRlo8 afterEntry.cpu (armSrModeAbt ||| armSrI8)).isSome) ∧
    (paceSave68kState sampleHost afterEntry.pace).1 = true ∧
      (returnAddress sampleHost afterEntry).toOption.isSome ∧
      (cpuPrvPaceReturn sampleHost afterEntry).isSome := by
  decide +kernel

theorem afterEntry_cycle :
    cpuPrvCycleArm sampleHost samplePatch beforeEntry .enter = some afterEntry :=
  eq_some_getD sample_checks.1.1 _

theorem afterEntry_entered : Entered sampleHost samplePatch .enter afterEntry :=
  ⟨beforeEntry, afterEntry, rfl, rfl, afterEntry_cycle, sample_checks.1.2.1,
    afterEntry.pace.regs, afterEntry.pace.regflags, afterEntry.pace.access, rfl, rfl⟩

theorem afterEntry_area :
    WritableArea sampleHost.dev afterEntry.pace.statePtr sampleArea afterEntry.pace.access :=
  writableArea_flat _ sample_checks.1.2.2.1 sample_checks.1.2.2.2

theorem inHandler_irq : takeException sampleHost afterEntry .irq = some (inHandler .irq) :=
  eq_some_getD (isSome_cpuPrvException sampleHost sample_checks.2.1.1 _ _) _

theorem inHandler_dataAbort :
    takeException sampleHost afterEntry .dataAbort = some (inHandler .dataAbort) :=
  eq_some_getD (isSome_cpuPrvException sampleHost sample_checks.2.1.2 _ _) _

/-- An interrupt behind the entry is transparent, and the return restores the stack pointer. -/
theorem exceptions_transparent_irq :
    Continues sampleHost samplePatch afterEntry (returnedFrom .irq afterEntry (inHandler .irq)) ∧
      afterReturn.reg regNoSp = beforeEntry.reg regNoSp := by
  obtain ⟨hexceptions, hruns⟩ := exceptions_transparent_iff sampleHost samplePatch
  have hin : afterEntry.modePace = true := afterEntry_entered.inPace.modePace
  constructor
  · exact (hexceptions .irq .enter sampleArea afterEntry (inHandler .irq) _ afterEntry_entered
      afterEntry_area inHandler_irq
      (returnedFrom_returns (by decide) hin afterEntry_area inHandler_irq)).mpr trivial
  · rfl

/-- A data abort behind the entry repeats the entry. -/
theorem dataAbort_repeats_entry :
    Entered sampleHost samplePatch .enter afterEntry ∧
      WritableArea sampleHost.dev afterEntry.pace.statePtr sampleArea afterEntry.pace.access ∧
      takeException sampleHost afterEntry .dataAbort = some (inHandler .dataAbort) ∧
      HandlerReturns sampleHost .dataAbort sampleArea afterEntry (inHandler .dataAbort)
        (returnedFrom .dataAbort afterEntry (inHandler .dataAbort)) ∧
      ¬ Continues sampleHost samplePatch afterEntry
        (returnedFrom .dataAbort afterEntry (inHandler .dataAbort)) := by
  have hreturns := returnedFrom_returns (show PaceException.dataAbort ≠ .returnAbort by decide)
    afterEntry_entered.inPace.modePace afterEntry_area inHandler_dataAbort
  exact ⟨afterEntry_entered, afterEntry_area, inHandler_dataAbort, hreturns,
    (continues_iff afterEntry_entered afterEntry_area inHandler_dataAbort hreturns).mp⟩

end Cloudpilot.Uarm.PaceMode
