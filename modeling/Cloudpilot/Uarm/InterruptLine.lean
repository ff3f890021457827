import Cloudpilot.Uarm.InterruptController

/-! # The interrupt lines of the core follow the controller registers

The core counts edges and never reads the controller. `Counted` says that the
counters agree with the levels the controller reported last, `LineInv` that these
levels are current. A register change keeps the first and loses the second until
the lines are re-evaluated, which every writing path does before it returns.
-/
namespace Cloudpilot.Uarm.InterruptController
open Cpu

/-- Some unmasked pending source is routed to IRQ. -/
def irqLine (ic : SocIc) : Prop := ∃ i, ic.ICPR i &&& ic.ICMR i &&& ~~~ic.ICLR i ≠ 0

/-- Some unmasked pending source is routed to FIQ. -/
def fiqLine (ic : SocIc) : Prop := ∃ i, ic.ICPR i &&& ic.ICMR i &&& ic.ICLR i ≠ 0

instance (ic : SocIc) : Decidable (irqLine ic) := inferInstanceAs (Decidable (∃ _, _))
instance (ic : SocIc) : Decidable (fiqLine ic) := inferInstanceAs (Decidable (∃ _, _))

structure Counted (soc : SocState) : Prop where
  irqs : soc.cpu.waitingIrqs = if soc.ic.wasIrq then 1 else 0
  fiqs : soc.cpu.waitingFiqs = if soc.ic.wasFiq then 1 else 0
  total : soc.cpu.waitingEventsTotal = soc.cpu.waitingFiqs + soc.cpu.waitingIrqs

structure LineInv (soc : SocState) : Prop extends Counted soc where
  irq : soc.ic.wasIrq = decide (irqLine soc.ic)
  fiq : soc.ic.wasFiq = decide (fiqLine soc.ic)

theorem nowFiq_eq (ic : SocIc) : nowFiq ic = decide (fiqLine ic) := by
  simp [nowFiq, fiqLine, Fin.exists_fin_two]

theorem nowIrq_eq (ic : SocIc) : nowIrq ic = decide (irqLine ic) := by
  simp [nowIrq, irqLine, Fin.exists_fin_two]

/-- Reporting keeps a counter equal to the level and never lowers a line that is not raised. -/
theorem reportEdge_fiq (cpu : ArmCpu) (was now : Bool)
    (hcount : cpu.waitingFiqs = if was then 1 else 0)
    (htotal : cpu.waitingEventsTotal = cpu.waitingFiqs + cpu.waitingIrqs) :
    reportEdge cpu true was now = ({ cpu with
      waitingFiqs := if now then 1 else 0
      waitingEventsTotal := (if now then 1 else 0) + cpu.waitingIrqs }, []) := by
  cases cpu
  cases was <;> cases now <;> simp_all [reportEdge, cpuIrq]

theorem reportEdge_irq (cpu : ArmCpu) (was now : Bool)
    (hcount : cpu.waitingIrqs = if was then 1 else 0)
    (htotal : cpu.waitingEventsTotal = cpu.waitingFiqs + cpu.waitingIrqs) :
    reportEdge cpu false was now = ({ cpu with
      waitingIrqs := if now then 1 else 0
      waitingEventsTotal := cpu.waitingFiqs + (if now then 1 else 0) }, []) := by
  cases cpu
  cases was <;> cases now <;> simp_all [reportEdge, cpuIrq]

variable {soc : SocState}

/-- Re-evaluation restores the invariant from correct counters and prints nothing. -/
theorem socIcPrvHandleChanges_spec (h : Counted soc) :
    LineInv (socIcPrvHandleChanges soc).1 ∧ (socIcPrvHandleChanges soc).2 = [] := by
  have hf := reportEdge_fiq soc.cpu soc.ic.wasFiq (nowFiq soc.ic) h.fiqs h.total
  have hi := reportEdge_irq (reportEdge soc.cpu true soc.ic.wasFiq (nowFiq soc.ic)).1
    soc.ic.wasIrq (nowIrq soc.ic) (by rw [hf]; exact h.irqs) (by rw [hf])
  rw [hf] at hi
  refine ⟨⟨⟨?_, ?_, ?_⟩, nowIrq_eq soc.ic, nowFiq_eq soc.ic⟩, ?_⟩
  all_goals simp only [socIcPrvHandleChanges, hf, hi, List.append_nil]

/-- What every access to the controller guarantees. -/
structure AccessOk (r : Option Access) : Prop where
  result : ∃ a, r = some a ∧ LineInv a.soc ∧ a.log = []

theorem refuse_ok (h : LineInv soc) (buf : Word) : AccessOk (refuse soc buf) :=
  ⟨_, rfl, h, rfl⟩

theorem finish_write (h : Counted soc) (buf val : Word) :
    AccessOk (some (finish soc true buf val)) :=
  ⟨_, rfl, (socIcPrvHandleChanges_spec h).1, (socIcPrvHandleChanges_spec h).2⟩

theorem finish_read (h : LineInv soc) (buf val : Word) :
    AccessOk (some (finish soc false buf val)) :=
  ⟨_, rfl, h, rfl⟩

theorem ite_ok {c : Prop} [Decidable c] {a b : Option Access} (ha : c → AccessOk a)
    (hb : ¬ c → AccessOk b) : AccessOk (if c then a else b) := by
  by_cases h : c <;> grind

theorem bind_ok {α : Type} {r : Option α} {f : α → Option Access}
    (hr : ∃ a, r = some a) (hf : ∀ a, AccessOk (f a)) : AccessOk (r >>= f) := by
  obtain ⟨a, rfl⟩ := hr
  exact hf a

theorem readAt_some {α : Type*} {n : ℕ} (a : Fin n → α) {i : ℕ} (h : i < n) :
    ∃ v, readAt a i = some v := ⟨_, dif_pos h⟩

theorem writeAt_some {α : Type*} {n : ℕ} (a : Fin n → α) {i : ℕ} (h : i < n) (v : α) :
    ∃ a', writeAt a i v = some a' := ⟨_, dif_pos h⟩

theorem calcHighestPrioStep_some (activeIrq activeFiq : Fin 2 → Word) (ret : Word)
    (prio : BitVec 8) : ∃ v, calcHighestPrioStep activeIrq activeFiq ret prio = some v := by
  have hp : (prio &&& 0x3F).toNat / 32 < 2 := by
    have hle : (prio &&& 0x3F).toNat ≤ 0x3F := by
      exact Nat.and_le_right
    omega
  obtain ⟨irq, hirq⟩ := readAt_some activeIrq hp
  obtain ⟨fiq, hfiq⟩ := readAt_some activeFiq hp
  simp only [calcHighestPrioStep, hirq, hfiq]
  split <;> exact ⟨_, rfl⟩

theorem socIcPrvCalcHighestPrio_some (ic : SocIc) :
    ∃ v, socIcPrvCalcHighestPrio ic = some v := by
  unfold socIcPrvCalcHighestPrio
  generalize List.ofFn ic.prio = prios
  generalize (0x001F001F : Word) = ret
  induction prios generalizing ret with
  | nil => exact ⟨ret, rfl⟩
  | cons p ps ih =>
    obtain ⟨v, hv⟩ := calcHighestPrioStep_some
      (fun i => ic.ICPR i &&& ic.ICMR i &&& ~~~ic.ICLR i)
      (fun i => ic.ICPR i &&& ic.ICMR i &&& ic.ICLR i) ret p
    rw [List.foldlM_cons, hv]
    exact ih v

theorem socIcPrvGetIcip_some (ic : SocIc) {i : ℕ} (h : i < 2) :
    ∃ v, socIcPrvGetIcip ic i = some v := by
  simp [socIcPrvGetIcip, readAt, h]

theorem socIcPrvGetIcfp_some (ic : SocIc) {i : ℕ} (h : i < 2) :
    ∃ v, socIcPrvGetIcfp ic i = some v := by
  simp [socIcPrvGetIcfp, readAt, h]

theorem pairIndex_lt {gen2 : Bool} {pa second first : Word} {i : ℕ}
    (hpa : pa = second ∨ pa = first) (h : pairIndex gen2 pa second first = some i) : i < 2 := by
  unfold pairIndex at h
  split_ifs at h with hs hg
  · subst hs
    cases h
    have h1 : pa - pa + first + 1 - first = 1 := by grind
    rw [h1]
    decide
  · have hf : pa = first := hpa.resolve_left hs
    subst hf
    cases h
    simp

theorem pair_ok (h : LineInv soc) {pa second first : Word} (buf : Word)
    (hpa : pa = second ∨ pa = first) {body : ℕ → Option Access} (hbody : ∀ i < 2, AccessOk (body i))
    : AccessOk (match pairIndex soc.ic.gen2 pa second first with
      | none => refuse soc buf
      | some i => body i) := by
  cases hi : pairIndex soc.ic.gen2 pa second first with
  | none => exact refuse_ok h buf
  | some i => exact hbody i (pairIndex_lt hpa hi)

theorem prioIndex_lt {pa : Word}
    (h : (0xB0 / 4 ≤ pa ∧ pa ≤ 0xCC / 4) ∨ (0x1C / 4 ≤ pa ∧ pa ≤ 0x98 / 4)) :
    ((if 0xB0 / 4 ≤ pa ∧ pa ≤ 0xCC / 4 then pa - 0xB0 / 4 + 0x98 / 4 + 1 else pa) -
      0x1C / 4).toNat < 40 := by
  have e1 : (0xB0 / 4 : Word) = 44 := rfl
  have e2 : (0xCC / 4 : Word) = 51 := rfl
  have e3 : (0x98 / 4 : Word) = 38 := rfl
  have e4 : (0x1C / 4 : Word) = 7 := rfl
  simp only [e1, e2, e3, e4] at h ⊢
  split_ifs with hc <;> bv_omega

theorem socIcPrvMemAccessF_ok (h : LineInv soc) (pa : Word) (size : ℕ) (write : Bool) (buf : Word) :
    AccessOk (socIcPrvMemAccessF soc pa size write buf) := by
  have hc := h.toCounted
  refine ite_ok (fun _ => refuse_ok h buf) fun _ => ?_
  refine ite_ok (fun hpa => pair_ok h buf hpa fun i hi => ?_) fun _ => ?_
  · cases write with
    | true => exact finish_write hc buf buf
    | false => exact bind_ok (socIcPrvGetIcip_some _ hi) fun v => finish_read h buf v
  refine ite_ok (fun hpa => pair_ok h buf hpa fun i hi => ?_) fun _ => ?_
  · cases write with
    | true =>
      refine bind_ok (writeAt_some _ hi buf) fun a => finish_write ?_ buf buf
      exact ⟨hc.irqs, hc.fiqs, hc.total⟩
    | false => exact bind_ok (readAt_some _ hi) fun v => finish_read h buf v
  refine ite_ok (fun hpa => pair_ok h buf hpa fun i hi => ?_) fun _ => ?_
  · cases write with
    | true =>
      refine bind_ok (writeAt_some _ hi buf) fun a => finish_write ?_ buf buf
      exact ⟨hc.irqs, hc.fiqs, hc.total⟩
    | false => exact bind_ok (readAt_some _ hi) fun v => finish_read h buf v
  refine ite_ok (fun hpa => pair_ok h buf hpa fun i hi => ?_) fun _ => ?_
  · cases write with
    | true => exact finish_write hc buf buf
    | false => exact bind_ok (socIcPrvGetIcfp_some _ hi) fun v => finish_read h buf v
  refine ite_ok (fun hpa => pair_ok h buf hpa fun i hi => ?_) fun _ => ?_
  · cases write with
    | true => exact finish_write hc buf buf
    | false => exact bind_ok (readAt_some _ hi) fun v => finish_read h buf v
  refine ite_ok (fun _ => ?_) fun _ => ?_
  · cases write with
    | true =>
      refine finish_write ?_ buf buf
      exact ⟨hc.irqs, hc.fiqs, hc.total⟩
    | false => exact finish_read h buf _
  refine ite_ok (fun _ => ite_ok (fun _ => refuse_ok h buf) fun _ => ?_) fun _ => ?_
  · cases write with
    | true => exact finish_write hc buf buf
    | false => exact bind_ok (socIcPrvCalcHighestPrio_some _) fun v => finish_read h buf v
  refine ite_ok (fun hpa => ?_) fun _ => refuse_ok h buf
  cases write with
  | true =>
    refine bind_ok (writeAt_some _ (prioIndex_lt hpa) _) fun a => finish_write ?_ buf buf
    exact ⟨hc.irqs, hc.fiqs, hc.total⟩
  | false => exact bind_ok (readAt_some _ (prioIndex_lt hpa)) fun v => finish_read h buf _

theorem cpuSetReg_counters (cpu : ArmCpu) (r : Fin 16) (val : Word) :
    ∃ cpu', cpuSetReg cpu r.val val = some cpu' ∧ cpu'.waitingIrqs = cpu.waitingIrqs ∧
      cpu'.waitingFiqs = cpu.waitingFiqs ∧ cpu'.waitingEventsTotal = cpu.waitingEventsTotal := by
  have hcpsr : r.val ≠ armRegNumCpsr := by simp only [armRegNumCpsr]; omega
  refine ⟨cpuPrvSetReg cpu r val, by simp [cpuSetReg, hcpsr], ?_⟩
  unfold cpuPrvSetReg
  split <;> exact ⟨rfl, rfl, rfl⟩

theorem LineInv.of_counters (h : LineInv soc) {cpu : ArmCpu}
    (hc : cpu.waitingIrqs = soc.cpu.waitingIrqs ∧ cpu.waitingFiqs = soc.cpu.waitingFiqs ∧
      cpu.waitingEventsTotal = soc.cpu.waitingEventsTotal) : LineInv { soc with cpu := cpu } where
  irqs := hc.1.trans h.irqs
  fiqs := hc.2.1.trans h.fiqs
  total := by rw [hc.1, hc.2.1, hc.2.2]; exact h.total
  irq := h.irq
  fiq := h.fiq

theorem store_ok (h : LineInv soc) (Rx : Fin 16) {r : Option Word} (hr : ∃ v, r = some v) :
    AccessOk (r >>= fun val => cpuSetReg soc.cpu Rx.val val >>= fun cpu =>
      pure (finish { soc with cpu := cpu } false val val)) := by
  refine bind_ok hr fun val => ?_
  obtain ⟨cpu, hcpu, hc⟩ := cpuSetReg_counters soc.cpu Rx val
  rw [hcpu]
  exact finish_read (h.of_counters hc) val val

theorem pxa270icPrvCoprocAccess_ok (h : LineInv soc) (two MRC : Bool) (op1 : BitVec 8) (Rx : Fin 16)
    (CRn CRm op2 : BitVec 8) :
    AccessOk (pxa270icPrvCoprocAccess soc two MRC op1 Rx CRn CRm op2) := by
  have hc := h.toCounted
  refine ite_ok (fun _ => refuse_ok h _) fun _ => ?_
  refine ite_ok (fun hn => ?_) fun _ => ?_
  · have hi : ((if CRn = 6 then CRn - 5 else CRn) - 0).toNat < 2 := by
      rcases hn with rfl | rfl <;> decide
    cases MRC with
    | false => exact refuse_ok h _
    | true => exact store_ok h Rx (socIcPrvGetIcip_some _ hi)
  refine ite_ok (fun hn => ?_) fun _ => ?_
  · have hi : ((if CRn = 7 then CRn - 5 else CRn) - 1).toNat < 2 := by
      rcases hn with rfl | rfl <;> decide
    cases MRC with
    | false =>
      refine bind_ok (writeAt_some _ hi _) fun a => finish_write ?_ _ _
      exact ⟨hc.irqs, hc.fiqs, hc.total⟩
    | true => exact store_ok h Rx (readAt_some _ hi)
  refine ite_ok (fun hn => ?_) fun _ => ?_
  · have hi : ((if CRn = 8 then CRn - 5 else CRn) - 2).toNat < 2 := by
      rcases hn with rfl | rfl <;> decide
    cases MRC with
    | false =>
      refine bind_ok (writeAt_some _ hi _) fun a => finish_write ?_ _ _
      exact ⟨hc.irqs, hc.fiqs, hc.total⟩
    | true => exact store_ok h Rx (readAt_some _ hi)
  refine ite_ok (fun hn => ?_) fun _ => ?_
  · have hi : ((if CRn = 9 then CRn - 5 else CRn) - 3).toNat < 2 := by
      rcases hn with rfl | rfl <;> decide
    cases MRC with
    | false => exact refuse_ok h _
    | true => exact store_ok h Rx (socIcPrvGetIcfp_some _ hi)
  refine ite_ok (fun hn => ?_) fun _ => ?_
  · have hi : ((if CRn = 10 then CRn - 5 else CRn) - 4).toNat < 2 := by
      rcases hn with rfl | rfl <;> decide
    cases MRC with
    | false => exact refuse_ok h _
    | true => exact store_ok h Rx (readAt_some _ hi)
  refine ite_ok (fun _ => ?_) fun _ => refuse_ok h _
  cases MRC with
  | false => exact refuse_ok h _
  | true => exact store_ok h Rx (socIcPrvCalcHighestPrio_some _)

theorem socWakeup_ic (soc : SocState) : (socWakeup soc).ic = soc.ic := by
  unfold socWakeup
  split <;> rfl

theorem socWakeup_counters (soc : SocState) :
    (socWakeup soc).cpu.waitingIrqs = soc.cpu.waitingIrqs ∧
      (socWakeup soc).cpu.waitingFiqs = soc.cpu.waitingFiqs ∧
      (socWakeup soc).cpu.waitingEventsTotal = soc.cpu.waitingEventsTotal := by
  unfold socWakeup
  split <;> exact ⟨rfl, rfl, rfl⟩

/-- A level change of a hardware source. The lines are re-evaluated only if the
pending word changed, which is the only way they can have changed. -/
theorem socIcInt_ok (h : LineInv soc) {intNum : ℕ} (hn : intNum < 64) (raise : Bool) :
    ∃ soc' log, socIcInt soc intNum raise = some (soc', log) ∧ LineInv soc' ∧ log = [] := by
  have hi : intNum / 32 < 2 := by omega
  simp only [socIcInt, readAt, writeAt, hi, dif_pos, Option.bind_eq_bind, Option.bind_some]
  generalize (⟨intNum / 32, hi⟩ : Fin 2) = i
  generalize (if raise then _ else _ : Word) = new
  generalize (raise && _ : Bool) = wake
  set raised : SocState := { soc with ic := { soc.ic with ICPR := Function.update soc.ic.ICPR i new } }
    with hraised
  have hic : (if wake then socWakeup raised else raised).ic = raised.ic := by
    cases wake with
    | true => exact socWakeup_ic raised
    | false => rfl
  have hcount : Counted (if wake then socWakeup raised else raised) := by
    have hc : Counted raised := ⟨h.irqs, h.fiqs, h.total⟩
    cases wake with
    | true =>
      obtain ⟨h1, h2, h3⟩ := socWakeup_counters raised
      exact ⟨by rw [if_pos rfl, h1, socWakeup_ic]; exact hc.irqs,
        by rw [if_pos rfl, h2, socWakeup_ic]; exact hc.fiqs,
        by rw [if_pos rfl, h1, h2, h3]; exact hc.total⟩
    | false => exact hc
  rw [hic]
  by_cases hnew : new = soc.ic.ICPR i
  · have hsame : raised.ic = soc.ic := by rw [hraised, hnew, Function.update_eq_self]
    rw [if_neg (by simp [hraised, hnew])]
    refine ⟨_, _, rfl, ⟨hcount, ?_, ?_⟩, rfl⟩
    · rw [hic, hsame]
      exact h.irq
    · rw [hic, hsame]
      exact h.fiq
  · rw [if_pos (by simp [hraised, hnew])]
    exact ⟨_, _, rfl, (socIcPrvHandleChanges_spec hcount).1, (socIcPrvHandleChanges_spec hcount).2⟩

/-- Steps of a run: hardware sources, both register interfaces and guest register loads. -/
inductive IcOp where
  | int (intNum : Fin 64) (raise : Bool)
  | mem (pa : Word) (size : ℕ) (write : Bool) (buf : Word)
  | coproc (two MRC : Bool) (op1 : BitVec 8) (Rx : Fin 16) (CRn CRm op2 : BitVec 8)
  | load (r : Fin 16) (val : Word)

def icStep (soc : SocState) : IcOp → Option (SocState × List String)
  | .int intNum raise => socIcInt soc intNum.val raise
  | .mem pa size write buf =>
    (socIcPrvMemAccessF soc pa size write buf).map fun a => (a.soc, a.log)
  | .coproc two MRC op1 Rx CRn CRm op2 =>
    (pxa270icPrvCoprocAccess soc two MRC op1 Rx CRn CRm op2).map fun a => (a.soc, a.log)
  | .load r val => (cpuSetReg soc.cpu r.val val).map fun cpu => ({ soc with cpu := cpu }, [])

/-- The state after a run with everything printed on the way; no result if some
array access was out of range. -/
def icRun (soc : SocState) : List IcOp → Option (SocState × List String)
  | [] => some (soc, [])
  | op :: ops => do
    let (soc, log) ← icStep soc op
    let (soc, rest) ← icRun soc ops
    return (soc, log ++ rest)

theorem icStep_ok (h : LineInv soc) (op : IcOp) :
    ∃ soc', icStep soc op = some (soc', []) ∧ LineInv soc' := by
  cases op with
  | int intNum raise =>
    obtain ⟨soc', log, hrun, hinv, rfl⟩ := socIcInt_ok h intNum.isLt raise
    exact ⟨soc', hrun, hinv⟩
  | mem pa size write buf =>
    obtain ⟨a, ha, hinv, hlog⟩ := (socIcPrvMemAccessF_ok h pa size write buf).result
    exact ⟨a.soc, by simp [icStep, ha, hlog], hinv⟩
  | coproc two MRC op1 Rx CRn CRm op2 =>
    obtain ⟨a, ha, hinv, hlog⟩ :=
      (pxa270icPrvCoprocAccess_ok h two MRC op1 Rx CRn CRm op2).result
    exact ⟨a.soc, by simp [icStep, ha, hlog], hinv⟩
  | load r val =>
    obtain ⟨cpu, hcpu, hc⟩ := cpuSetReg_counters soc.cpu r val
    exact ⟨{ soc with cpu := cpu }, by simp [icStep, hcpu], h.of_counters hc⟩

theorem icRun_ok (h : LineInv soc) (ops : List IcOp) :
    ∃ soc', icRun soc ops = some (soc', []) ∧ LineInv soc' := by
  induction ops generalizing soc with
  | nil => exact ⟨soc, rfl, h⟩
  | cons op ops ih =>
    obtain ⟨mid, hmid, hinv⟩ := icStep_ok h op
    obtain ⟨soc', hrun, hinv'⟩ := ih hinv
    exact ⟨soc', by simp [icRun, hmid, hrun], hinv'⟩

theorem socIcInit_inv (pc : Word) (sleeping : Bool) (socRev : ℕ) :
    LineInv (socIcInit (cpuInit pc) sleeping socRev) := by
  refine ⟨⟨rfl, rfl, rfl⟩, ?_, ?_⟩
  · simp [socIcInit, irqLine]
  · simp [socIcInit, fiqLine]

/-- From initialization on, whatever the sources and the guest do: no array access
is out of range, nothing is printed, and the counters of the core are the levels
of the two lines. -/
theorem icRun_lines (pc : Word) (sleeping : Bool) (socRev : ℕ) (ops : List IcOp) :
    ∃ soc, icRun (socIcInit (cpuInit pc) sleeping socRev) ops = some (soc, []) ∧
      (soc.cpu.waitingIrqs =
        if ∃ i, soc.ic.ICPR i &&& soc.ic.ICMR i &&& ~~~soc.ic.ICLR i ≠ 0 then 1 else 0) ∧
      (soc.cpu.waitingFiqs =
        if ∃ i, soc.ic.ICPR i &&& soc.ic.ICMR i &&& soc.ic.ICLR i ≠ 0 then 1 else 0) ∧
      soc.cpu.waitingEventsTotal = soc.cpu.waitingIrqs + soc.cpu.waitingFiqs := by
  obtain ⟨soc, hrun, h⟩ := icRun_ok (socIcInit_inv pc sleeping socRev) ops
  refine ⟨soc, hrun, ?_, ?_, ?_⟩
  · rw [h.irqs, h.irq]
    exact if_congr decide_eq_true_iff rfl rfl
  · rw [h.fiqs, h.fiq]
    exact if_congr decide_eq_true_iff rfl rfl
  · rw [h.total, BitVec.add_comm]

end Cloudpilot.Uarm.InterruptController
