import Cloudpilot.Uarm.ControllerEffects
import Cloudpilot.Uarm.InterruptController

/-! # The power manager and the sleep state of the SoC

Coprocessor 14 is embedded with the core that executes the transfer as a separate
argument: the power manager keeps its own pointer to the core of the SoC.
-/

namespace Cloudpilot.Uarm.PwrClk

open Cpu InterruptController Option

/-- The fields coprocessor 14 reads or writes. -/
structure PxaPwrClk where
  CCCR : Word
  RCSR : Word
  turbo : Bool

def pxaPwrClkReset (pc : PxaPwrClk) : PxaPwrClk := { pc with CCCR := 0x00000122, RCSR := 1 }

structure PowerState where
  soc : SocState
  pwrClk : PxaPwrClk

def cpuSetSleeping (cpu : ArmCpu) : ArmCpu := { cpu with sleeping := true }

/-- A reset does not touch the sleep state. -/
def socReset (s : PowerState) : PowerState where
  soc := { s.soc with cpu := cpuReset s.soc.cpu 0 }
  pwrClk := pxaPwrClkReset s.pwrClk

/-- Put the SoC and the core to sleep. The timer task it reschedules belongs to the
scheduler model. -/
def socSleep (soc : SocState) : SocState :=
  if soc.sleeping then soc else { soc with sleeping := true, cpu := cpuSetSleeping soc.cpu }

/-- The outcome of a transfer. `rx` is what a read stores in the register of the
executing core. -/
structure Transfer where
  ok : Bool
  rx : Option Word
  state : PowerState
  log : List String

def setSpeedMode (CCCR val : Word) : String :=
  "Set speed mode (CCCR + cp14 reg6) to 0x" ++ CCCR.toHex ++ " 0x" ++ val.toHex ++ "\n"

def setPowerMode (val : Word) : String :=
  "Someone tried to set processor power mode (cp14 reg7) to 0x" ++ val.toHex ++ "\n"

def pxaPwrClkPrvCoproc14regXferFunc (cpu : ArmCpu) (s : PowerState) (two read : Bool)
    (op1 : BitVec 8) (Rx : Fin 16) (CRn CRm op2 : BitVec 8) : Transfer :=
  let val : Word := if read then 0 else cpuGetRegExternal cpu Rx.val
  let fail : Transfer := ⟨false, none, s, []⟩
  let success : PowerState → Word → List String → Transfer :=
    fun s val log => ⟨true, if read then some val else none, s, log⟩
  if CRm = 0 ∧ op1 = 0 ∧ ¬ two then
    if CRn = 6 then
      if op2 ≠ 0 then fail
      else if read then success s 0 []
      else success { s with pwrClk := { s.pwrClk with turbo := val &&& 1 ≠ 0 } } val
        (if val &&& 2 ≠ 0 then [setSpeedMode s.pwrClk.CCCR val] else [])
    else if CRn = 7 then
      if read then success s 0 []
      else if val = 1 ∧ op2 = 0 then success { s with soc := socSleep s.soc } val []
      else if val = 3 ∧ op2 = 0 then
        success { soc := { s.soc with cpu := cpuReset s.soc.cpu 0 }
                  pwrClk := { s.pwrClk with RCSR := s.pwrClk.RCSR ||| 4 } } val []
      else if op2 = 0 then success s val [setPowerMode val]
      else success s val []
    else if CRn = 10 then
      if op2 ≠ 0 then fail else success s (if read then 0 else val) []
    else fail
  else fail

/-- The core of the SoC executes the transfer itself. -/
def coproc14 (s : PowerState) (two read : Bool) (op1 : BitVec 8) (Rx : Fin 16)
    (CRn CRm op2 : BitVec 8) : Option (PowerState × List String) :=
  let t := pxaPwrClkPrvCoproc14regXferFunc s.soc.cpu s two read op1 Rx CRn CRm op2
  match t.rx with
  | none => some (t.state, t.log)
  | some val => (cpuSetReg t.state.soc.cpu Rx.val val).map fun cpu =>
      ({ t.state with soc := { t.state.soc with cpu := cpu } }, t.log)

/-- A transfer that writes `mode` to the power mode register. -/
def requestsMode (cpu : ArmCpu) (mode : Word) (two read : Bool) (op1 : BitVec 8) (Rx : Fin 16)
    (CRn CRm op2 : BitVec 8) : Prop :=
  CRm = 0 ∧ op1 = 0 ∧ two = false ∧ CRn = 7 ∧ op2 = 0 ∧ read = false ∧
    cpuGetRegExternal cpu Rx.val = mode

instance (cpu : ArmCpu) (mode : Word) (two read : Bool) (op1 : BitVec 8) (Rx : Fin 16)
    (CRn CRm op2 : BitVec 8) : Decidable (requestsMode cpu mode two read op1 Rx CRn CRm op2) :=
  inferInstanceAs (Decidable (_ ∧ _))

/-- A transfer that asks for the idle mode. -/
abbrev requestsSleep (cpu : ArmCpu) (two read : Bool) (op1 : BitVec 8) (Rx : Fin 16)
    (CRn CRm op2 : BitVec 8) : Prop :=
  requestsMode cpu 1 two read op1 Rx CRn CRm op2

/-- A transfer that asks for the sleep mode, from which the core wakes up by a reset. -/
abbrev requestsReset (cpu : ArmCpu) (two read : Bool) (op1 : BitVec 8) (Rx : Fin 16)
    (CRn CRm op2 : BitVec 8) : Prop :=
  requestsMode cpu 3 two read op1 Rx CRn CRm op2

theorem transfer_soc (cpu : ArmCpu) (s : PowerState) (two read : Bool) (op1 : BitVec 8)
    (Rx : Fin 16) (CRn CRm op2 : BitVec 8) :
    (pxaPwrClkPrvCoproc14regXferFunc cpu s two read op1 Rx CRn CRm op2).state.soc =
      if requestsSleep cpu two read op1 Rx CRn CRm op2 then socSleep s.soc
      else if requestsReset cpu two read op1 Rx CRn CRm op2 then
        { s.soc with cpu := cpuReset s.soc.cpu 0 }
      else s.soc := by
  unfold pxaPwrClkPrvCoproc14regXferFunc
  by_cases hop : CRm = 0 ∧ op1 = 0 ∧ ¬ two
  · have htwo : two = false := by simpa using hop.2.2
    rw [if_pos hop]
    by_cases h7 : CRn = 7
    · have h6 : ¬ CRn = 6 := by rw [h7]; decide
      rw [if_neg h6, if_pos h7]
      cases read with
      | true =>
        have hmode : ∀ mode, ¬ requestsMode cpu mode two true op1 Rx CRn CRm op2 :=
          fun mode h => Bool.noConfusion h.2.2.2.2.2.1
        rw [if_neg (hmode 1), if_neg (hmode 3)]
        rfl
      | false =>
        have hmode : ∀ mode, requestsMode cpu mode two false op1 Rx CRn CRm op2 ↔
            cpuGetRegExternal cpu Rx.val = mode ∧ op2 = 0 :=
          fun mode => ⟨fun h => ⟨h.2.2.2.2.2.2, h.2.2.2.2.1⟩,
            fun h => ⟨hop.1, hop.2.1, htwo, h7, h.2, rfl, h.1⟩⟩
        by_cases h1 : cpuGetRegExternal cpu Rx.val = 1 ∧ op2 = 0 <;> grind
    · have hmode : ∀ mode, ¬ requestsMode cpu mode two read op1 Rx CRn CRm op2 :=
        fun mode h => h7 h.2.2.2.1
      rw [if_neg (hmode 1), if_neg (hmode 3), if_neg h7]
      split_ifs <;> rfl
  · have hmode : ∀ mode, ¬ requestsMode cpu mode two read op1 Rx CRn CRm op2 :=
      fun mode h => hop ⟨h.1, h.2.1, by simp [h.2.2.1]⟩
    rw [if_neg hop, if_neg (hmode 1), if_neg (hmode 3)]

/-- Steps of a run. `core` is whatever an instruction does to the registers of the
core; `ic` are the interrupt sources and both register interfaces of the controller. -/
inductive PowerEvent where
  | core (cpu : ArmCpu)
  | reset
  | ic (op : IcOp)
  | cp14 (two read : Bool) (op1 : BitVec 8) (Rx : Fin 16) (CRn CRm op2 : BitVec 8)

def setCore (soc : SocState) (cpu : ArmCpu) : SocState :=
  { soc with cpu := { cpu with
      waitingIrqs := soc.cpu.waitingIrqs
      waitingFiqs := soc.cpu.waitingFiqs
      waitingEventsTotal := soc.cpu.waitingEventsTotal
      sleeping := soc.cpu.sleeping } }

def powerStep (s : PowerState) : PowerEvent → Option (PowerState × List String)
  | .core cpu => some ({ s with soc := setCore s.soc cpu }, [])
  | .reset => some (socReset s, [])
  | .ic op => (icStep s.soc op).map fun r => ({ s with soc := r.1 }, r.2)
  | .cp14 two read op1 Rx CRn CRm op2 => coproc14 s two read op1 Rx CRn CRm op2

/-- The states a run goes through. It stops early where a step has no result. -/
def visited (s : PowerState) : List PowerEvent → List PowerState
  | [] => [s]
  | e :: es => s :: match powerStep s e with
    | none => []
    | some (s', _) => visited s' es

/-- Some interrupt source is pending and enabled. -/
def Unserved (ic : SocIc) : Prop := ∃ i, ic.ICPR i &&& ic.ICMR i ≠ 0

theorem sourceWord_lt (intNum : Fin 64) : intNum.val / 32 < 2 := by omega

/-- Raising any enabled source wakes the SoC and its core. -/
def Wakeable (soc : SocState) : Prop :=
  ∀ intNum : Fin 64, soc.ic.ICMR ⟨intNum.val / 32, sourceWord_lt intNum⟩ &&& sourceMask intNum ≠ 0 →
    ∃ soc' log, socIcInt soc intNum.val true = some (soc', log) ∧
      soc'.sleeping = false ∧ soc'.cpu.sleeping = false

structure SleepsIdle (soc : SocState) : Prop where
  core : soc.cpu.sleeping = true
  idle : ¬ Unserved soc.ic
  wakes : Wakeable soc

/-- A step that cannot strand a pending interrupt: sleep is requested only while no
enabled interrupt is pending, and no mask written during sleep enables a pending one. -/
def Settled (s : PowerState) : PowerEvent → Prop
  | .core _ | .reset => True
  | .ic op => s.soc.sleeping → ∀ w ∈ maskWrite s.soc op, s.soc.ic.ICPR w.1 &&& w.2 = 0
  | .cp14 two read op1 Rx CRn CRm op2 =>
    requestsSleep s.soc.cpu two read op1 Rx CRn CRm op2 → ¬ s.soc.sleeping →
      ¬ Unserved s.soc.ic

def SettledRun (s : PowerState) : List PowerEvent → Prop
  | [] => True
  | e :: es => Settled s e ∧ ∀ r ∈ powerStep s e, SettledRun r.1 es

theorem wakeable {soc : SocState} (h : soc.sleeping = true) : Wakeable soc := by
  intro intNum hmask
  obtain ⟨soc', log, hint, hc⟩ := socIcInt_changed soc intNum true
  have hw : wakes soc intNum true = true := by
    simp only [wakes, Bool.true_and, Bool.or_eq_true, decide_eq_true_eq]
    exact .inr hmask
  refine ⟨soc', log, hint, ?_, ?_⟩
  · rw [hc.sleeping, hw, Bool.not_true, Bool.and_false]
  · rw [hc.core, h, hw]
    rfl

def Calm (soc : SocState) : Prop := soc.sleeping = true → SleepsIdle soc

theorem calm_iff {soc : SocState} (hcore : soc.sleeping = true → soc.cpu.sleeping = true) :
    Calm soc ↔ (soc.sleeping = true → ¬ Unserved soc.ic) := by
  constructor
  · intro h hs
    exact (h hs).idle
  · intro h hs
    exact ⟨hcore hs, h hs, wakeable hs⟩

theorem int_calm {soc soc' : SocState} (h : Calm soc) {intNum : Fin 64} {raise : Bool}
    (hc : LineChanged soc intNum raise soc') : Calm soc' := by
  intro hs
  rw [hc.sleeping, Bool.and_eq_true, Bool.not_eq_true'] at hs
  obtain ⟨hsleep, hwake⟩ := hs
  refine ⟨?_, ?_, ?_⟩
  · rw [hc.core, hwake, Bool.and_false]
    exact (h hsleep).core
  · rintro ⟨i, hi⟩
    have hidle : ∀ j, soc.ic.ICPR j &&& soc.ic.ICMR j = 0 :=
      fun j => not_not.mp fun hj => (h hsleep).idle ⟨j, hj⟩
    rw [hc.pending, hc.mask] at hi
    by_cases hii : i = ⟨intNum.val / 32, by omega⟩
    · subst hii
      rw [Function.update_self] at hi
      apply hi
      have hold := hidle ⟨intNum.val / 32, by omega⟩
      unfold pendingWord
      cases raise with
      | false => grind
      | true =>
        have hmask : soc.ic.ICMR ⟨intNum.val / 32, by omega⟩ &&& sourceMask intNum = 0 := by
          simp only [wakes, Bool.true_and, Bool.or_eq_false_iff, decide_eq_false_iff_not,
            not_not] at hwake
          exact hwake.2
        rw [if_pos rfl, BitVec.and_comm, BitVec.and_or_distrib_left, hmask,
          BitVec.and_comm, hold]
        exact BitVec.or_zero
    · grind
  · exact wakeable (by rw [hc.sleeping, hsleep, hwake]; rfl)

theorem mask_calm_iff {soc soc' : SocState} (h : Calm soc) {op : IcOp}
    (hm : Masked soc (newMask soc op) soc') :
    Calm soc' ↔ (soc.sleeping = true → ∀ w ∈ maskWrite soc op, soc.ic.ICPR w.1 &&& w.2 = 0) := by
  rw [calm_iff (by rw [hm.sleeping, hm.core]; exact fun hs => (h hs).core), hm.sleeping]
  refine imp_congr_right fun hs => ?_
  have hidle : ∀ j, soc.ic.ICPR j &&& soc.ic.ICMR j = 0 :=
    fun j => not_not.mp fun hj => (h hs).idle ⟨j, hj⟩
  simp only [Unserved, hm.pending, hm.mask, newMask, not_exists, not_not]
  cases hw : maskWrite soc op with
  | none => grind
  | some w =>
    constructor
    · grind
    · grind [Function.update_self]

theorem socSleep_calm_iff {soc : SocState} (h : Calm soc) :
    Calm (socSleep soc) ↔ (¬ soc.sleeping → ¬ Unserved soc.ic) := by
  unfold socSleep
  cases hs : soc.sleeping with
  | true => exact ⟨fun _ hn => absurd rfl hn, fun _ => h⟩
  | false =>
    rw [if_neg Bool.false_ne_true, calm_iff fun _ => rfl]
    exact ⟨fun hc _ => hc rfl, fun hc _ => hc Bool.false_ne_true⟩

theorem Calm.core {soc : SocState} (h : Calm soc) {cpu : ArmCpu}
    (hcpu : cpu.sleeping = soc.cpu.sleeping) : Calm { soc with cpu := cpu } := by
  rw [calm_iff (by rw [hcpu]; exact fun hs => (h hs).core)]
  exact fun hs => (h hs).idle

theorem Calm.core_iff {soc : SocState} {cpu : ArmCpu} (hcpu : cpu.sleeping = soc.cpu.sleeping) :
    Calm { soc with cpu := cpu } ↔ Calm soc :=
  ⟨fun h => h.core hcpu.symm, fun h => h.core hcpu⟩

theorem coproc14_calm_iff {s s' : PowerState} {log : List String} (h : Calm s.soc)
    (two read : Bool) (op1 : BitVec 8) (Rx : Fin 16) (CRn CRm op2 : BitVec 8)
    (hstep : coproc14 s two read op1 Rx CRn CRm op2 = some (s', log)) :
    Calm s'.soc ↔ Settled s (.cp14 two read op1 Rx CRn CRm op2) := by
  have hcalm : Calm (pxaPwrClkPrvCoproc14regXferFunc s.soc.cpu s two read op1 Rx CRn CRm
      op2).state.soc ↔ Settled s (.cp14 two read op1 Rx CRn CRm op2) := by
    rw [transfer_soc]
    by_cases hr : requestsSleep s.soc.cpu two read op1 Rx CRn CRm op2
    · rw [if_pos hr, socSleep_calm_iff h]
      exact ⟨fun hc _ => hc, fun hc => hc hr⟩
    · rw [if_neg hr]
      refine ⟨fun _ hr' => absurd hr' hr, fun _ => ?_⟩
      split
      · exact h.core rfl
      · exact h
  unfold coproc14 at hstep
  generalize pxaPwrClkPrvCoproc14regXferFunc s.soc.cpu s two read op1 Rx CRn CRm op2 = t
    at hcalm hstep
  cases hrx : t.rx with
  | none => grind
  | some val =>
    simp only [hrx, map_eq_some_iff, Prod.mk.injEq] at hstep
    obtain ⟨cpu, hcpu, rfl, -⟩ := hstep
    exact (Calm.core_iff (cpuSetReg_sleeping _ Rx val cpu hcpu)).trans hcalm

theorem icStep_calm_iff {soc soc' : SocState} {log : List String} (h : Calm soc) (op : IcOp)
    (hstep : icStep soc op = some (soc', log)) :
    Calm soc' ↔ (soc.sleeping = true → ∀ w ∈ maskWrite soc op, soc.ic.ICPR w.1 &&& w.2 = 0) := by
  cases op with
  | int intNum raise =>
    obtain ⟨soc'', log', hint, hc⟩ := socIcInt_changed soc intNum raise
    obtain ⟨rfl, rfl⟩ := Prod.mk.inj (some.inj (hint.symm.trans hstep))
    exact ⟨fun _ _ w hw => (nomatch hw), fun _ => int_calm h hc⟩
  | mem pa size write buf =>
    obtain ⟨a, ha, hr⟩ := map_eq_some_iff.mp hstep
    cases hr
    exact mask_calm_iff h (memAccess_masked soc pa size write buf a ha)
  | coproc two MRC op1 Rx CRn CRm op2 =>
    obtain ⟨a, ha, hr⟩ := map_eq_some_iff.mp hstep
    cases hr
    exact mask_calm_iff h (coprocAccess_masked soc two MRC op1 Rx CRn CRm op2 a ha)
  | load r val =>
    obtain ⟨cpu, hcpu, hr⟩ := map_eq_some_iff.mp hstep
    cases hr
    exact ⟨fun _ _ w hw => (nomatch hw),
      fun _ => h.core (cpuSetReg_sleeping soc.cpu r val cpu hcpu)⟩

theorem powerStep_calm_iff {s s' : PowerState} {log : List String} (h : Calm s.soc)
    (e : PowerEvent) (hstep : powerStep s e = some (s', log)) : Calm s'.soc ↔ Settled s e := by
  cases e with
  | core cpu =>
    cases hstep
    exact ⟨fun _ => trivial, fun _ => h.core rfl⟩
  | reset =>
    cases hstep
    exact ⟨fun _ => trivial, fun _ => h.core rfl⟩
  | ic op =>
    obtain ⟨r, hr, hmap⟩ := map_eq_some_iff.mp hstep
    cases hmap
    exact icStep_calm_iff h op hr
  | cp14 two read op1 Rx CRn CRm op2 => exact coproc14_calm_iff h two read op1 Rx CRn CRm op2 hstep

theorem transfer_lines (cpu : ArmCpu) {s : PowerState} (h : LineInv s.soc) (two read : Bool)
    (op1 : BitVec 8) (Rx : Fin 16) (CRn CRm op2 : BitVec 8) :
    LineInv (pxaPwrClkPrvCoproc14regXferFunc cpu s two read op1 Rx CRn CRm op2).state.soc := by
  have hsleep : LineInv (socSleep s.soc) := by
    unfold socSleep
    split
    · exact h
    · exact ⟨⟨h.irqs, h.fiqs, h.total⟩, h.irq, h.fiq⟩
  rw [transfer_soc]
  split
  · exact hsleep
  · split
    · exact h.of_counters ⟨rfl, rfl, rfl⟩
    · exact h

theorem powerStep_lines {s : PowerState} (h : LineInv s.soc) (e : PowerEvent) :
    ∃ s' log, powerStep s e = some (s', log) ∧ LineInv s'.soc := by
  cases e with
  | core cpu => exact ⟨_, _, rfl, h.of_counters ⟨rfl, rfl, rfl⟩⟩
  | reset => exact ⟨_, _, rfl, h.of_counters ⟨rfl, rfl, rfl⟩⟩
  | ic op =>
    obtain ⟨soc', hstep, hinv⟩ := icStep_ok h op
    exact ⟨{ s with soc := soc' }, [], by rw [powerStep, hstep]; rfl, hinv⟩
  | cp14 two read op1 Rx CRn CRm op2 =>
    have ht := transfer_lines s.soc.cpu h two read op1 Rx CRn CRm op2
    unfold powerStep coproc14
    dsimp only
    generalize pxaPwrClkPrvCoproc14regXferFunc s.soc.cpu s two read op1 Rx CRn CRm op2 = t at ht ⊢
    cases hrx : t.rx with
    | none => exact ⟨t.state, t.log, rfl, ht⟩
    | some val =>
      obtain ⟨cpu, hcpu, hcount⟩ := cpuSetReg_counters t.state.soc.cpu Rx val
      dsimp only
      rw [hcpu]
      exact ⟨_, _, rfl, ht.of_counters hcount⟩

theorem visited_length {s : PowerState} (h : LineInv s.soc) (events : List PowerEvent) :
    (visited s events).length = events.length + 1 := by
  induction events generalizing s with
  | nil => rfl
  | cons e es ih =>
    obtain ⟨s', log, hstep, hinv⟩ := powerStep_lines h e
    rw [visited, hstep]
    exact congrArg Nat.succ (ih hinv)

theorem visited_calm_iff {s : PowerState} (hline : LineInv s.soc) (hcalm : Calm s.soc)
    (events : List PowerEvent) :
    (∀ t ∈ visited s events, Calm t.soc) ↔ SettledRun s events := by
  induction events generalizing s with
  | nil =>
    constructor
    · exact fun _ => trivial
    · intro _ t ht
      obtain rfl := List.mem_singleton.mp ht
      exact hcalm
  | cons e es ih =>
    obtain ⟨s', log, hstep, hinv⟩ := powerStep_lines hline e
    have hone := powerStep_calm_iff hcalm e hstep
    have hhead : s' ∈ visited s' es := by
      cases es with
      | nil => exact List.mem_singleton_self s'
      | cons e' es' => exact List.mem_cons_self
    rw [visited, hstep]
    simp [SettledRun, hstep]
    constructor <;> grind

/-- A core and its devices in zeroed memory, reset. -/
def powerInit (pc : Word) (socRev : ℕ) : PowerState where
  soc := socIcInit (cpuInit pc) false socRev
  pwrClk := pxaPwrClkReset ⟨0, 0, false⟩

/-- From power on, every run has a result, and the SoC never sleeps on a pending
enabled interrupt exactly if sleep is requested only while there is none and no
mask register is written during sleep so that it enables a pending source. -/
theorem sleeps_idle_iff (pc : Word) (socRev : ℕ) (events : List PowerEvent) :
    (visited (powerInit pc socRev) events).length = events.length + 1 ∧
      ((∀ s ∈ visited (powerInit pc socRev) events, s.soc.sleeping = true → SleepsIdle s.soc) ↔
        SettledRun (powerInit pc socRev) events) := by
  have hline : LineInv (powerInit pc socRev).soc := socIcInit_inv pc false socRev
  have hcalm : Calm (powerInit pc socRev).soc := fun h => Bool.noConfusion h
  exact ⟨visited_length hline events, visited_calm_iff hline hcalm events⟩

/-- The guest enables the timer interrupt, which is raised while the core has
interrupts disabled; then the guest requests idle mode. -/
def idleWhilePending : List PowerEvent :=
  [.ic (.mem 0x40D00004 4 true 0x04000000), .ic (.int 26 true), .ic (.load 0 1),
    .cp14 false false 0 0 7 0 0]

/-- The SoC sleeps although the timer interrupt is pending and enabled. -/
theorem idleWhilePending_sleeps :
    ¬ ∀ (pc : Word) (socRev : ℕ) (events : List PowerEvent),
      ∀ s ∈ visited (powerInit pc socRev) events, s.soc.sleeping = true → SleepsIdle s.soc := by
  intro h
  have hlast : ∃ s ∈ visited (powerInit 0 0) idleWhilePending, s.soc.sleeping = true ∧
      s.soc.ic.ICPR 0 &&& s.soc.ic.ICMR 0 ≠ 0 := by
    decide +kernel
  obtain ⟨s, hs, hsleep, hpend⟩ := hlast
  exact (h 0 0 idleWhilePending s hs hsleep).idle ⟨0, hpend⟩

end Cloudpilot.Uarm.PwrClk
