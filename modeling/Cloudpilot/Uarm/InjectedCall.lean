import Cloudpilot.Uarm.ControllerEffects
import Cloudpilot.Uarm.PwrClk

/-! # Calls injected into the guest

An injected call runs on a copy of the core. The interrupt controller and the power
manager keep their pointers to the original, so edges are counted there, while the
counters that survive the call are those of the copy.
-/

namespace Cloudpilot.Uarm.InjectedCall

open Cpu InterruptController PwrClk Option

def injectedCallLrMagic : Word := 0xfffffffc

def maxNestLevel : ℕ := 4

/-- A core as an injected call copies it. -/
structure Core where
  cpu : ArmCpu
  modePace : Bool

/-- The core of the SoC, its PACE mode and the devices around it. -/
structure Machine where
  power : PowerState
  modePace : Bool

def Machine.core (m : Machine) : Core := ⟨m.power.soc.cpu, m.modePace⟩

def Machine.setCpu (m : Machine) (cpu : ArmCpu) : Machine :=
  { m with power := { m.power with soc := { m.power.soc with cpu := cpu } } }

def Machine.setSoc (m : Machine) (soc : SocState) : Machine :=
  { m with power := { m.power with soc := soc } }

/-- A scratch state is a copy of the core. -/
def cpuPrepareInjectedCall (cpu : Core) : Core := cpu

def cpuFinishInjectedCall (cpu scratchState : ArmCpu) : ArmCpu :=
  { cpu with
    waitingIrqs := scratchState.waitingIrqs
    waitingFiqs := scratchState.waitingFiqs
    waitingEventsTotal := scratchState.waitingFiqs + scratchState.waitingIrqs }

/-- The start of `cpuExecuteInjectedCall`, once the entry point has been read. -/
def enterCall (core : Core) (entryAddr : Word) : Core :=
  { core with cpu := { core.cpu with
      regs := Function.update (Function.update core.cpu.regs regNoPc entryAddr) regNoLr
        injectedCallLrMagic
      T := false } }

/-- The transfer between a register of an executing core and the controller, which
reports to the core of the SoC. The second component is what a read stores. -/
def coproc6 (cpu : ArmCpu) (soc : SocState) (two MRC : Bool) (op1 : BitVec 8) (Rx : Fin 16)
    (CRn CRm op2 : BitVec 8) : Option (Access × Option Word) :=
  let write := !MRC
  let ic := soc.ic
  let refuse : Word → Option (Access × Option Word) := fun buf =>
    (refuse soc buf).map fun a => (a, none)
  if CRm ≠ 0 ∨ op1 ≠ 0 ∨ op2 ≠ 0 ∨ two then refuse 0 else
  let val : Word := if write then cpuGetRegExternal cpu Rx.val else 0
  let store : Word → Option (Access × Option Word) := fun val =>
    some (finish soc write val val, some val)
  if CRn = 6 ∨ CRn = 0 then
    let CRn := if CRn = 6 then CRn - 5 else CRn
    if write then refuse val else do store (← socIcPrvGetIcip ic (CRn - 0).toNat)
  else if CRn = 7 ∨ CRn = 1 then
    let CRn := if CRn = 7 then CRn - 5 else CRn
    if write then do
      let ICMR ← writeAt ic.ICMR (CRn - 1).toNat val
      return (finish { soc with ic := { ic with ICMR := ICMR } } write val val, none)
    else do store (← readAt ic.ICMR (CRn - 1).toNat)
  else if CRn = 8 ∨ CRn = 2 then
    let CRn := if CRn = 8 then CRn - 5 else CRn
    if write then do
      let ICLR ← writeAt ic.ICLR (CRn - 2).toNat val
      return (finish { soc with ic := { ic with ICLR := ICLR } } write val val, none)
    else do store (← readAt ic.ICLR (CRn - 2).toNat)
  else if CRn = 9 ∨ CRn = 3 then
    let CRn := if CRn = 9 then CRn - 5 else CRn
    if write then refuse val else do store (← socIcPrvGetIcfp ic (CRn - 3).toNat)
  else if CRn = 10 ∨ CRn = 4 then
    let CRn := if CRn = 10 then CRn - 5 else CRn
    if write then refuse val else do store (← readAt ic.ICPR (CRn - 4).toNat)
  else if CRn = 5 then
    if write then refuse val else do store (← socIcPrvCalcHighestPrio ic)
  else refuse val

/-- The machine during a call: `outer` is the scratch state of the call and `nested`
those of calls injected while it runs, innermost first. -/
structure CallState where
  machine : Machine
  outer : Core
  nested : List Core

/-- What the guest code does. `core` is any change an instruction makes to the
registers of the executing core; no instruction changes its counters. -/
inductive CallEvent where
  | entry (entryAddr : Word)
  | core (cpu : ArmCpu) (modePace : Bool)
  | int (intNum : Fin 64) (raise : Bool)
  | mem (pa : Word) (size : ℕ) (write : Bool) (buf : Word)
  | cp6 (two MRC : Bool) (op1 : BitVec 8) (Rx : Fin 16) (CRn CRm op2 : BitVec 8)
  | cp14 (two read : Bool) (op1 : BitVec 8) (Rx : Fin 16) (CRn CRm op2 : BitVec 8)
  | prepare
  | finish

def CallState.running (s : CallState) : Core := s.nested.headD s.outer

def CallState.setRunning (s : CallState) (core : Core) : CallState :=
  match s.nested with
  | [] => { s with outer := core }
  | _ :: cores => { s with nested := core :: cores }

def CallState.setSoc (s : CallState) (soc : SocState) : CallState :=
  { s with machine := s.machine.setSoc soc }

def setRegisters (core : Core) (cpu : ArmCpu) (modePace : Bool) : Core where
  cpu := { cpu with
    waitingIrqs := core.cpu.waitingIrqs
    waitingFiqs := core.cpu.waitingFiqs
    waitingEventsTotal := core.cpu.waitingEventsTotal
    sleeping := core.cpu.sleeping }
  modePace := modePace

/-- Store the result of a read in the executing core. -/
def CallState.store (s : CallState) (Rx : Fin 16) : Option Word → Option CallState
  | none => some s
  | some val => (cpuSetReg s.running.cpu Rx.val val).map fun cpu =>
      s.setRunning { s.running with cpu := cpu }

def callStep (s : CallState) : CallEvent → Option CallState
  | .entry entryAddr => some (s.setRunning (enterCall s.running entryAddr))
  | .core cpu modePace => some (s.setRunning (setRegisters s.running cpu modePace))
  | .int intNum raise =>
    (socIcInt s.machine.power.soc intNum.val raise).map fun r => s.setSoc r.1
  | .mem pa size write buf =>
    (socIcPrvMemAccessF s.machine.power.soc pa size write buf).map fun a => s.setSoc a.soc
  | .cp6 two MRC op1 Rx CRn CRm op2 =>
    (coproc6 s.running.cpu s.machine.power.soc two MRC op1 Rx CRn CRm op2).bind fun r =>
      (s.setSoc r.1.soc).store Rx r.2
  | .cp14 two read op1 Rx CRn CRm op2 =>
    let t := pxaPwrClkPrvCoproc14regXferFunc s.running.cpu s.machine.power two read op1 Rx
      CRn CRm op2
    ({ s with machine := { s.machine with power := t.state } } : CallState).store Rx t.rx
  | .prepare =>
    if s.nested.length + 1 < maxNestLevel then
      some { s with nested := cpuPrepareInjectedCall s.machine.core :: s.nested }
    else none
  | .finish =>
    match s.nested with
    | [] => none
    | core :: cores =>
      if core.cpu.regs regNoPc = injectedCallLrMagic then
        some { s with
          machine := s.machine.setCpu (cpuFinishInjectedCall s.machine.power.soc.cpu core.cpu)
          nested := cores }
      else none

def callRun (s : CallState) : List CallEvent → Option CallState
  | [] => some s
  | e :: es => (callStep s e).bind fun s => callRun s es

def prepared (m : Machine) : CallState := ⟨m, cpuPrepareInjectedCall m.core, []⟩

/-- A call from its preparation to its end. It has a result if it returns. -/
def injectedCall (m : Machine) (events : List CallEvent) : Option Machine :=
  (callRun (prepared m) events).bind fun s =>
    if s.nested.isEmpty ∧ s.outer.cpu.regs regNoPc = injectedCallLrMagic then
      some (s.machine.setCpu (cpuFinishInjectedCall s.machine.power.soc.cpu s.outer.cpu))
    else none

/-- A core without its counters and its sleep state. -/
def coreFields (cpu : ArmCpu) : ArmCpu :=
  { cpu with waitingIrqs := 0, waitingFiqs := 0, waitingEventsTotal := 0, sleeping := false }

def level (line : Bool) : BitVec 16 := if line then 1 else 0

/-- The state after a call is as the call should leave it. -/
structure LeavesConsistent (m m' : Machine) : Prop where
  core : coreFields m'.power.soc.cpu = coreFields m.power.soc.cpu
  pace : m'.modePace = m.modePace
  irqs : m'.power.soc.cpu.waitingIrqs = level m'.power.soc.ic.wasIrq
  fiqs : m'.power.soc.cpu.waitingFiqs = level m'.power.soc.ic.wasFiq
  total : m'.power.soc.cpu.waitingEventsTotal =
    level m'.power.soc.ic.wasFiq + level m'.power.soc.ic.wasIrq

/-- The step puts the core of the SoC through a reset. -/
def Resets (s : CallState) : CallEvent → Prop
  | .cp14 two read op1 Rx CRn CRm op2 => requestsReset s.running.cpu two read op1 Rx CRn CRm op2
  | _ => False

def RunResets (s : CallState) : List CallEvent → Prop
  | [] => False
  | e :: es => Resets s e ∨ ∃ s' ∈ callStep s e, RunResets s' es

theorem reportEdge_core (cpu : ArmCpu) (fiq was now : Bool) :
    coreFields (reportEdge cpu fiq was now).1 = coreFields cpu := by
  unfold reportEdge cpuIrq
  split_ifs <;> rfl

theorem handleChanges_core (soc : SocState) :
    coreFields (socIcPrvHandleChanges soc).1.cpu = coreFields soc.cpu :=
  (reportEdge_core _ _ _ _).trans (reportEdge_core _ _ _ _)

/-- The controller may wake the core of `cpu` and count in it, and nothing else. -/
def Counts (cpu : ArmCpu) (soc : SocState) : Prop := coreFields soc.cpu = coreFields cpu

theorem finish_counts {cpu : ArmCpu} {soc : SocState} (h : Counts cpu soc) (write : Bool)
    (buf val : Word) : Counts cpu (finish soc write buf val).soc := by
  cases write with
  | true => exact (handleChanges_core soc).trans h
  | false => exact h

theorem finish_ensures (soc : SocState) (ic : SocIc) (write : Bool) (buf val : Word) :
    AccessEnsures (Counts soc.cpu) (some (finish { soc with ic := ic } write buf val)) := by
  rintro a ⟨⟩
  have h : Counts soc.cpu { soc with ic := ic } := rfl
  exact finish_counts h write buf val

theorem memAccess_counts (soc : SocState) (pa : Word) (size : ℕ) (write : Bool) (buf : Word) :
    AccessEnsures (Counts soc.cpu) (socIcPrvMemAccessF soc pa size write buf) := by
  have hself : Counts soc.cpu soc := rfl
  have hread := fun val => finish_ensures soc soc.ic write buf val
  have hwrite := fun ic => finish_ensures soc ic write buf buf
  have hrefuse := refuse_ensures hself buf
  refine ite_ensures (fun _ => hrefuse) fun _ => ?_
  refine ite_ensures (fun _ => pair_ensures hself buf _ fun i => ?_) fun _ => ?_
  · exact ite_ensures (fun _ => hread buf) fun _ => bind_ensures fun v _ => hread v
  refine ite_ensures (fun _ => pair_ensures hself buf _ fun i => ?_) fun _ => ?_
  · exact ite_ensures (fun _ => bind_ensures fun a _ => hwrite _) fun _ =>
      bind_ensures fun v _ => hread v
  refine ite_ensures (fun _ => pair_ensures hself buf _ fun i => ?_) fun _ => ?_
  · exact ite_ensures (fun _ => bind_ensures fun a _ => hwrite _) fun _ =>
      bind_ensures fun v _ => hread v
  refine ite_ensures (fun _ => pair_ensures hself buf _ fun i => ?_) fun _ => ?_
  · exact ite_ensures (fun _ => hread buf) fun _ => bind_ensures fun v _ => hread v
  refine ite_ensures (fun _ => pair_ensures hself buf _ fun i => ?_) fun _ => ?_
  · exact ite_ensures (fun _ => hread buf) fun _ => bind_ensures fun v _ => hread v
  refine ite_ensures (fun _ => ite_ensures (fun _ => hwrite _) fun _ => hread _) fun _ => ?_
  refine ite_ensures (fun _ => ite_ensures (fun _ => hrefuse) fun _ => ?_) fun _ => ?_
  · exact ite_ensures (fun _ => hread buf) fun _ => bind_ensures fun v _ => hread v
  refine ite_ensures (fun _ => ite_ensures (fun _ => ?_) fun _ => ?_) fun _ => hrefuse
  · exact bind_ensures fun a _ => hwrite _
  · exact bind_ensures fun v _ => hread _

theorem socIcInt_counts (soc : SocState) (intNum : Fin 64) (raise : Bool) :
    ∀ r ∈ socIcInt soc intNum.val raise, Counts soc.cpu r.1 := by
  have hwoken : Counts soc.cpu (woken soc intNum raise) := by
    unfold woken socWakeup
    dsimp only
    split_ifs <;> rfl
  rintro r hr
  rw [socIcInt_eq] at hr
  cases hr
  split
  · exact (handleChanges_core _).trans hwoken
  · exact hwoken

theorem coproc6_counts (cpu : ArmCpu) (soc : SocState) (two MRC : Bool) (op1 : BitVec 8)
    (Rx : Fin 16) (CRn CRm op2 : BitVec 8) :
    Results (fun r => Counts soc.cpu r.1.soc) (coproc6 cpu soc two MRC op1 Rx CRn CRm op2) := by
  have hrefuse : ∀ buf, Results (fun r => Counts soc.cpu r.1.soc)
      ((refuse soc buf).map fun a => (a, (none : Option Word))) := by
    rintro buf r ⟨⟩
    rfl
  have hfinish : ∀ ic val (rx : Option Word), Results (fun r => Counts soc.cpu r.1.soc)
      (some (finish { soc with ic := ic } (!MRC) val val, rx)) := by
    rintro ic val rx r ⟨⟩
    exact finish_ensures soc ic (!MRC) val val _ rfl
  refine ite_ensures (fun _ => hrefuse 0) fun _ => ?_
  refine ite_ensures (fun _ => ite_ensures (fun _ => hrefuse _) fun _ => ?_) fun _ => ?_
  · exact bind_ensures fun v _ => hfinish soc.ic v _
  refine ite_ensures (fun _ => ite_ensures (fun _ => ?_) fun _ => ?_) fun _ => ?_
  · exact bind_ensures fun v _ => hfinish _ _ _
  · exact bind_ensures fun v _ => hfinish soc.ic v _
  refine ite_ensures (fun _ => ite_ensures (fun _ => ?_) fun _ => ?_) fun _ => ?_
  · exact bind_ensures fun v _ => hfinish _ _ _
  · exact bind_ensures fun v _ => hfinish soc.ic v _
  refine ite_ensures (fun _ => ite_ensures (fun _ => hrefuse _) fun _ => ?_) fun _ => ?_
  · exact bind_ensures fun v _ => hfinish soc.ic v _
  refine ite_ensures (fun _ => ite_ensures (fun _ => hrefuse _) fun _ => ?_) fun _ => ?_
  · exact bind_ensures fun v _ => hfinish soc.ic v _
  refine ite_ensures (fun _ => ite_ensures (fun _ => hrefuse _) fun _ => ?_) fun _ => hrefuse _
  exact bind_ensures fun v _ => hfinish soc.ic v _

/-- The counters an injected call hands back. -/
def SameCounts (cpu cpu' : ArmCpu) : Prop :=
  cpu'.waitingIrqs = cpu.waitingIrqs ∧ cpu'.waitingFiqs = cpu.waitingFiqs

/-- A step keeps the PACE mode of the SoC's core and the counters of the scratch state,
and changes the other fields of the core at most by a reset. -/
structure StepFrame (s : CallState) (reset : Prop) (s' : CallState) : Prop where
  pace : s'.machine.modePace = s.machine.modePace
  outer : SameCounts s.outer.cpu s'.outer.cpu
  kept : ¬ reset → coreFields s'.machine.power.soc.cpu = coreFields s.machine.power.soc.cpu
  reset : reset →
    coreFields s'.machine.power.soc.cpu = cpuReset (coreFields s.machine.power.soc.cpu) 0

theorem setRunning_machine (s : CallState) (core : Core) :
    (s.setRunning core).machine = s.machine := by
  unfold CallState.setRunning
  split <;> rfl

theorem setRunning_outer (s : CallState) {core : Core} (h : SameCounts s.running.cpu core.cpu) :
    SameCounts s.outer.cpu (s.setRunning core).outer.cpu := by
  obtain ⟨machine, outer, nested⟩ := s
  cases nested with
  | nil => exact h
  | cons c cs => exact ⟨rfl, rfl⟩

theorem store_frame {s s' : CallState} {Rx : Fin 16} {rx : Option Word}
    (h : s.store Rx rx = some s') :
    s'.machine = s.machine ∧ SameCounts s.outer.cpu s'.outer.cpu := by
  cases rx with
  | none =>
    cases h
    exact ⟨rfl, rfl, rfl⟩
  | some val =>
    obtain ⟨cpu, hcpu, hcount⟩ := cpuSetReg_counters s.running.cpu Rx val
    rw [CallState.store, hcpu] at h
    cases h
    exact ⟨setRunning_machine s _, setRunning_outer s ⟨hcount.1, hcount.2.1⟩⟩

theorem running_frame (s : CallState) {core : Core} (h : SameCounts s.running.cpu core.cpu) :
    StepFrame s False (s.setRunning core) where
  pace := by rw [setRunning_machine]
  outer := setRunning_outer s h
  kept := fun _ => by rw [setRunning_machine]
  reset := False.elim

theorem soc_frame (s : CallState) {soc : SocState} (h : Counts s.machine.power.soc.cpu soc) :
    StepFrame s False (s.setSoc soc) where
  pace := rfl
  outer := ⟨rfl, rfl⟩
  kept := fun _ => h
  reset := False.elim

theorem StepFrame.store {s s' s'' : CallState} {reset : Prop} (h : StepFrame s reset s')
    {Rx : Fin 16} {rx : Option Word} (hstore : s'.store Rx rx = some s'') :
    StepFrame s reset s'' := by
  obtain ⟨hmachine, houter⟩ := store_frame hstore
  refine ⟨?_, ⟨houter.1.trans h.outer.1, houter.2.trans h.outer.2⟩, ?_, ?_⟩
  · rw [hmachine]
    exact h.pace
  · rw [hmachine]
    exact h.kept
  · rw [hmachine]
    exact h.reset

theorem callStep_frame {s s' : CallState} {e : CallEvent} (h : callStep s e = some s') :
    StepFrame s (Resets s e) s' := by
  cases e with
  | entry entryAddr =>
    cases h
    exact running_frame s ⟨rfl, rfl⟩
  | core cpu modePace =>
    cases h
    exact running_frame s ⟨rfl, rfl⟩
  | int intNum raise =>
    obtain ⟨r, hr, rfl⟩ := map_eq_some_iff.mp h
    exact soc_frame s (socIcInt_counts _ intNum raise r hr)
  | mem pa size write buf =>
    obtain ⟨a, ha, rfl⟩ := map_eq_some_iff.mp h
    exact soc_frame s (memAccess_counts _ pa size write buf a ha)
  | cp6 two MRC op1 Rx CRn CRm op2 =>
    obtain ⟨r, hr, hstore⟩ := bind_eq_some_iff.mp h
    exact (soc_frame s (coproc6_counts _ _ two MRC op1 Rx CRn CRm op2 r hr)).store hstore
  | cp14 two read op1 Rx CRn CRm op2 =>
    refine StepFrame.store ?_ h
    have hsoc := transfer_soc s.running.cpu s.machine.power two read op1 Rx CRn CRm op2
    refine ⟨rfl, ⟨rfl, rfl⟩, fun hr => ?_, fun hr => ?_⟩
    · have hreset : ¬ requestsReset s.running.cpu two read op1 Rx CRn CRm op2 := hr
      rw [hsoc, if_neg hreset]
      unfold socSleep
      split_ifs <;> rfl
    · have hreset : requestsReset s.running.cpu two read op1 Rx CRn CRm op2 := hr
      have hsleep : ¬ requestsSleep s.running.cpu two read op1 Rx CRn CRm op2 := by
        intro hs
        have h31 : (3 : Word) = 1 := hreset.2.2.2.2.2.2.symm.trans hs.2.2.2.2.2.2
        cases h31
      rw [hsoc, if_neg hsleep, if_pos hreset]
      rfl
  | prepare =>
    unfold callStep at h
    split_ifs at h
    cases h
    exact ⟨rfl, ⟨rfl, rfl⟩, fun _ => rfl, False.elim⟩
  | finish =>
    obtain ⟨machine, outer, nested⟩ := s
    cases nested with
    | nil => exact nomatch h
    | cons core cores =>
      unfold callStep at h
      dsimp only at h
      split_ifs at h
      cases h
      exact ⟨rfl, ⟨rfl, rfl⟩, fun _ => rfl, False.elim⟩

theorem cpuReset_idem (cpu : ArmCpu) : cpuReset (cpuReset cpu 0) 0 = cpuReset cpu 0 := by
  simp [cpuReset, cpuPrvSetPC, Function.update_idem]

theorem callRun_frame {s s' : CallState} {events : List CallEvent}
    (h : callRun s events = some s') : StepFrame s (RunResets s events) s' := by
  induction events generalizing s with
  | nil =>
    cases h
    exact ⟨rfl, ⟨rfl, rfl⟩, fun _ => rfl, False.elim⟩
  | cons e es ih =>
    obtain ⟨mid, hmid, hrest⟩ := bind_eq_some_iff.mp h
    have hone := callStep_frame hmid
    have hrun := ih hrest
    have hresets : RunResets s (e :: es) ↔ Resets s e ∨ RunResets mid es := by
      simp [RunResets, hmid]
    refine ⟨hrun.pace.trans hone.pace, ⟨hrun.outer.1.trans hone.outer.1,
      hrun.outer.2.trans hone.outer.2⟩, fun hr => ?_, fun hr => ?_⟩
    · rw [hresets, not_or] at hr
      rw [hrun.kept hr.2, hone.kept hr.1]
    · by_cases hlater : RunResets mid es
      · by_cases hnow : Resets s e
        · rw [hrun.reset hlater, hone.reset hnow, cpuReset_idem]
        · rw [hrun.reset hlater, hone.kept hnow]
      · have hnow := (hresets.mp hr).resolve_right hlater
        rw [hrun.kept hlater, hone.reset hnow]

/-- A call that returns leaves the machine consistent exactly if no power mode write of
the guest has reset the core, or the core was in the state a reset leaves, and the
interrupt controller asserts at its end the levels the core had counted before. -/
theorem injectedCall_consistent_iff {m m' : Machine} {events : List CallEvent}
    (h : injectedCall m events = some m') :
    LeavesConsistent m m' ↔
      (RunResets (prepared m) events →
        cpuReset (coreFields m.power.soc.cpu) 0 = coreFields m.power.soc.cpu) ∧
      m.power.soc.cpu.waitingIrqs = level m'.power.soc.ic.wasIrq ∧
      m.power.soc.cpu.waitingFiqs = level m'.power.soc.ic.wasFiq := by
  obtain ⟨s, hrun, hs⟩ := bind_eq_some_iff.mp h
  have hframe := callRun_frame hrun
  have hm' : s.machine.setCpu (cpuFinishInjectedCall s.machine.power.soc.cpu s.outer.cpu) = m' := by
    grind
  subst hm'
  have hirqs : s.outer.cpu.waitingIrqs = m.power.soc.cpu.waitingIrqs := hframe.outer.1
  have hfiqs : s.outer.cpu.waitingFiqs = m.power.soc.cpu.waitingFiqs := hframe.outer.2
  constructor
  · intro hc
    refine ⟨fun hr => ?_, hirqs.symm.trans hc.irqs, hfiqs.symm.trans hc.fiqs⟩
    exact (hframe.reset hr).symm.trans hc.core
  · rintro ⟨hreset, hirq, hfiq⟩
    refine ⟨?_, hframe.pace, hirqs.trans hirq, hfiqs.trans hfiq, ?_⟩
    · by_cases hr : RunResets (prepared m) events
      · exact (hframe.reset hr).trans (hreset hr)
      · exact hframe.kept hr
    · exact congrArg₂ (· + ·) (hfiqs.trans hfiq) (hirqs.trans hirq)

def timerMachine : Option Machine :=
  (icRun (socIcInit (cpuInit 0) false 0)
    [.mem 0x40D00004 4 true 0x04000000, .int 26 true]).map fun r =>
      ⟨⟨r.1, pxaPwrClkReset ⟨0, 0, false⟩⟩, false⟩

theorem timerMachine_lines : ∀ m ∈ timerMachine, LineInv m.power.soc := by
  intro m hm
  obtain ⟨r, hr, rfl⟩ := map_eq_some_iff.mp hm
  obtain ⟨soc, hrun, hinv⟩ := icRun_ok (socIcInit_inv 0 false 0)
    [.mem 0x40D00004 4 true 0x04000000, .int 26 true]
  obtain rfl := some.inj (hr.symm.trans hrun)
  exact hinv

def returned : CallEvent := .core { cpuInit 0 with regs := fun _ => injectedCallLrMagic } false

/-- A call during the pending interrupt that does not touch the controller. -/
theorem untouched_consistent :
    ∃ m ∈ timerMachine, ∃ m' ∈ injectedCall m [.entry 0x1000, returned], LeavesConsistent m m' := by
  have hrun : ∃ m ∈ timerMachine, ∃ m' ∈ injectedCall m [.entry 0x1000, returned],
      m.power.soc.cpu.waitingIrqs = level m'.power.soc.ic.wasIrq ∧
        m.power.soc.cpu.waitingFiqs = level m'.power.soc.ic.wasFiq := by
    decide +kernel
  obtain ⟨m, hm, m', hm', hcounts⟩ := hrun
  refine ⟨m, hm, m', hm', (injectedCall_consistent_iff hm').mpr ⟨fun hr => ?_, hcounts⟩⟩
  simp [RunResets, Resets, returned] at hr

/-- The guest masks the pending interrupt and returns: the core still counts it. -/
theorem masked_stale :
    ¬ ∀ (m m' : Machine) (events : List CallEvent), LineInv m.power.soc →
      injectedCall m events = some m' → LeavesConsistent m m' := by
  intro h
  have hrun : ∃ m ∈ timerMachine,
      ∃ m' ∈ injectedCall m [.entry 0x1000, .mem 0x40D00004 4 true 0, returned],
        m'.power.soc.cpu.waitingIrqs ≠ level m'.power.soc.ic.wasIrq := by
    decide +kernel
  obtain ⟨m, hm, m', hm', hstale⟩ := hrun
  exact hstale (h m m' _ (timerMachine_lines m hm) hm').irqs

end Cloudpilot.Uarm.InjectedCall
