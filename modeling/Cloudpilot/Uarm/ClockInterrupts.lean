import Cloudpilot.Uarm.ControllerEffects
import Cloudpilot.Uarm.PxaTimr

/-! # The clocks and their interrupts

The operating system timer and the real-time clock beside the controller that they report to.
Both call it with all their lines after every change of a status bit, and so the pending bits
stay the status bits whatever the guest does to the three devices.
-/
namespace Cloudpilot.Uarm.ClockInterrupts
open Cpu InterruptController Timr

structure PxaRtc where
  lastSeenTime : Word
  RCNR : Word
  RTAR : Word
  RTTR : Word
  RTSR : BitVec 8

/-- The outcome of an access, with the calls of `socIcInt`. -/
structure Accessed (δ : Type) where
  ok : Bool
  val : Word
  device : δ
  calls : List SocIcIntCall

def pxaTimrInit : PxaTimr := ⟨fun _ => 0, 0, 0, 0, 0⟩

/-- A write after which the matches are checked. -/
def updated (timr : PxaTimr) (buf : Word) : Option (Accessed PxaTimr) :=
  (pxaTimrPrvUpdateSingleStep timr).map fun r => ⟨true, buf, r.1, r.2⟩

def pxaTimrPrvMemAccessF (timr : PxaTimr) (pa : Word) (size : ℕ) (write : Bool) (buf : Word) :
    Option (Accessed PxaTimr) :=
  if size ≠ 4 then some ⟨false, buf, timr, []⟩ else
  let pa := (pa - 0x40A00000) >>> 2
  if write then
    if h : pa.toNat < 4 then
      updated { timr with OSMR := Function.update timr.OSMR ⟨pa.toNat, h⟩ buf } buf
    else if pa = 4 then some ⟨true, buf, { timr with OSCR := buf }, []⟩
    else if pa = 5 then updated { timr with OSSR := timr.OSSR &&& ~~~buf.setWidth 8 } buf
    else if pa = 6 then some ⟨true, buf, { timr with OWER := buf.setWidth 8 }, []⟩
    else if pa = 7 then updated { timr with OIER := buf.setWidth 8 } buf
    else some ⟨true, buf, timr, []⟩
  else
    let val := if h : pa.toNat < 4 then timr.OSMR ⟨pa.toNat, h⟩
      else if pa = 4 then timr.OSCR
      else if pa = 5 then timr.OSSR.setWidth 32
      else if pa = 6 then timr.OWER.setWidth 32
      else if pa = 7 then timr.OIER.setWidth 32
      else 0
    some ⟨true, val, timr, []⟩

def pxaRtcInit : PxaRtc := ⟨0, 0, 0, 0x7FFF, 0⟩

def rtcCalls (rtc : PxaRtc) : List SocIcIntCall :=
  [⟨31, rtc.RTSR.getLsbD 0⟩, ⟨30, rtc.RTSR.getLsbD 1⟩]

/-- Nothing is raised more than once for one value of the counter. -/
def pxaRtcPrvUpdate (rtc : PxaRtc) : PxaRtc × List SocIcIntCall :=
  let RTSR := if rtc.RTSR &&& 4 ≠ 0 then rtc.RTSR ||| 1 else rtc.RTSR
  let RTSR := if RTSR &&& 8 ≠ 0 then RTSR ||| 2 else RTSR
  let rtc := if rtc.lastSeenTime ≠ rtc.RCNR then
    { rtc with RTSR := RTSR, lastSeenTime := rtc.RCNR } else rtc
  (rtc, rtcCalls rtc)

def pxaRtcPrvMemAccessF (rtc : PxaRtc) (pa : Word) (size : ℕ) (write : Bool) (buf : Word) :
    Accessed PxaRtc :=
  if size ≠ 4 then ⟨false, buf, rtc, []⟩ else
  let pa := (pa - 0x40900000) >>> 2
  let val : BitVec 8 := buf.setWidth 8
  if write then
    let r := if pa = 0 then ({ rtc with RCNR := buf }, [])
      else if pa = 1 then pxaRtcPrvUpdate { rtc with RTAR := buf }
      else if pa = 2 then
        pxaRtcPrvUpdate { rtc with RTSR := val &&& ~~~3 ||| rtc.RTSR &&& ~~~val &&& 3 }
      else if pa = 3 ∧ rtc.RTTR &&& 0x80000000 = 0 then ({ rtc with RTTR := buf }, [])
      else (rtc, [])
    ⟨true, buf, r.1, r.2⟩
  else
    let val := if pa = 0 then rtc.RCNR else if pa = 1 then rtc.RTAR
      else if pa = 2 then rtc.RTSR.setWidth 32 else if pa = 3 then rtc.RTTR else 0
    ⟨true, val, rtc, []⟩

def pxaRtcTick (rtc : PxaRtc) : PxaRtc × List SocIcIntCall :=
  pxaRtcPrvUpdate { rtc with RCNR := rtc.RCNR + 1 }

structure Clocks where
  soc : SocState
  timr : PxaTimr
  rtc : PxaRtc

/-- An operation of the controller that leaves the lines of the clocks alone. -/
def Foreign : IcOp → Prop
  | .int intNum _ => intNum.val < 26 ∨ 32 ≤ intNum.val
  | _ => True

inductive ClockOp where
  | timrAccess (pa : Word) (size : ℕ) (write : Bool) (buf : Word)
  | timrTick (batchedTicks : Word)
  | rtcAccess (pa : Word) (size : ℕ) (write : Bool) (buf : Word)
  | rtcTick
  | other (op : IcOp) (foreign : Foreign op)

def deliver (soc : SocState) (calls : List SocIcIntCall) : Option SocState :=
  calls.foldlM (fun soc call => (socIcInt soc call.intNum call.raise).map Prod.fst) soc

/-- There is no state after the watchdog. -/
def step (s : Clocks) : ClockOp → Option Clocks
  | .timrAccess pa size write buf => do
    let a ← pxaTimrPrvMemAccessF s.timr pa size write buf
    return { s with timr := a.device, soc := ← deliver s.soc a.calls }
  | .timrTick batchedTicks => do
    let r ← pxaTimrTick s.timr batchedTicks
    return { s with timr := r.1, soc := ← deliver s.soc r.2 }
  | .rtcAccess pa size write buf => do
    let a := pxaRtcPrvMemAccessF s.rtc pa size write buf
    return { s with rtc := a.device, soc := ← deliver s.soc a.calls }
  | .rtcTick => do
    return { s with rtc := (pxaRtcTick s.rtc).1, soc := ← deliver s.soc (pxaRtcTick s.rtc).2 }
  | .other op _ => do return { s with soc := (← icStep s.soc op).1 }

/-- The watchdog of the timer ends the emulator. -/
def Ends (s : Clocks) : ClockOp → Prop
  | .timrAccess pa size write buf => pxaTimrPrvMemAccessF s.timr pa size write buf = none
  | .timrTick batchedTicks => pxaTimrTick s.timr batchedTicks = none
  | _ => False

def start (pc : Word) (sleeping : Bool) (socRev : ℕ) : Clocks :=
  ⟨socIcInit (cpuInit pc) sleeping socRev, pxaTimrInit, pxaRtcInit⟩

def levels (timr : PxaTimr) (rtc : PxaRtc) : List SocIcIntCall :=
  pxaTimrPrvRaiseLowerInts timr ++ rtcCalls rtc

def Shown (soc : SocState) (call : SocIcIntCall) : Prop :=
  (soc.ic.ICPR 0).getLsbD call.intNum = call.raise

structure Linked (s : Clocks) : Prop where
  line : LineInv s.soc
  shown : ∀ call ∈ levels s.timr s.rtc, Shown s.soc call

/-- A device calls with all its lines or has changed no level. -/
def Reported (calls old new : List SocIcIntCall) : Prop := calls = new ∨ calls = [] ∧ new = old

variable {soc : SocState} {s : Clocks} {timr : PxaTimr} {rtc : PxaRtc}
  {calls old new : List SocIcIntCall}

theorem mem_levels (call : SocIcIntCall) (h : call ∈ levels timr rtc) :
    26 ≤ call.intNum ∧ call.intNum < 32 := by
  have hlines : ∀ j ∈ [26, 27, 28, 29, 31, 30], 26 ≤ j ∧ j < 32 := by decide
  exact hlines _ (List.mem_map_of_mem (f := (·.intNum)) h)

theorem getLsbD_sourceMask (intNum : Fin 64) {j : ℕ} (hj : j < 32) :
    (sourceMask intNum).getLsbD j = decide (j = intNum.val % 32) := by
  change (BitVec.ofNat 32 (1 <<< (intNum.val % 32))).getLsbD j = _
  rw [BitVec.getLsbD_ofNat, Nat.one_shiftLeft, Nat.testBit_two_pow]
  simp [hj, eq_comm]

theorem socIcInt_pending (h : LineInv soc) (intNum : Fin 64) (raise : Bool) :
    ∃ soc', socIcInt soc intNum.val raise = some (soc', []) ∧ LineInv soc' ∧
      ∀ j < 32, (soc'.ic.ICPR 0).getLsbD j =
        if j = intNum.val then raise else (soc.ic.ICPR 0).getLsbD j := by
  obtain ⟨soc', log, hrun, hinv, rfl⟩ := socIcInt_ok h intNum.isLt raise
  obtain ⟨_, _, hrun', hchanged⟩ := socIcInt_changed soc intNum raise
  obtain ⟨rfl, -⟩ := Prod.mk.inj (Option.some.inj (hrun.symm.trans hrun'))
  refine ⟨_, hrun, hinv, fun j hj => ?_⟩
  rw [hchanged.pending]
  by_cases hlow : intNum.val < 32
  · have hindex : (⟨intNum.val / 32, by omega⟩ : Fin 2) = 0 := Fin.ext (Nat.div_eq_of_lt hlow)
    rw [hindex, Function.update_self, pendingWord, hindex]
    have hbit := getLsbD_sourceMask intNum hj
    rw [Nat.mod_eq_of_lt hlow] at hbit
    cases raise with
    | true =>
      rw [if_pos rfl, BitVec.getLsbD_or, hbit]
      grind
    | false =>
      rw [if_neg (by decide), BitVec.getLsbD_and, BitVec.getLsbD_not, hbit]
      grind
  · rw [Function.update_of_ne (fun hzero => by have := congrArg Fin.val hzero; simp at this; omega),
      if_neg (by omega)]

theorem deliver_shown (h : LineInv soc) (hcalls : calls ⊆ levels timr rtc) :
    ∃ soc', deliver soc calls = some soc' ∧ LineInv soc' ∧ ∀ call ∈ levels timr rtc,
      call ∈ calls ∨ Shown soc call → Shown soc' call := by
  induction calls generalizing soc with
  | nil => exact ⟨soc, rfl, h, by simp⟩
  | cons first calls ih =>
    rw [List.cons_subset] at hcalls
    have hfirst := (mem_levels first hcalls.1).2
    obtain ⟨mid, hmid, hline, hbits⟩ := socIcInt_pending h ⟨first.intNum, by omega⟩ first.raise
    obtain ⟨soc', hrun, hline', hshown⟩ := ih hline hcalls.2
    refine ⟨soc', by rw [deliver, List.foldlM_cons, hmid]; exact hrun, hline', ?_⟩
    intro call hcall hold
    refine hshown call hcall ?_
    have hbit := hbits _ (mem_levels call hcall).2
    by_cases hsame : call.intNum = first.intNum
    · have hnodup : ((levels timr rtc).map (·.intNum)).Nodup := by
        change [26, 27, 28, 29, 31, 30].Nodup
        decide
      have heq := List.inj_on_of_nodup_map hnodup hcall hcalls.1 hsame
      rw [if_pos hsame] at hbit
      exact .inr (hbit.trans (congrArg _ heq.symm))
    · rw [if_neg hsame] at hbit
      rcases hold with hmem | hold
      · exact .inl (List.mem_of_ne_of_mem (fun heq => hsame (congrArg _ heq)) hmem)
      · exact .inr (hbit.trans hold)

theorem Linked.delivered (h : Linked s) (hcalls : calls ⊆ levels timr rtc)
    (hlevels : ∀ call ∈ levels timr rtc, call ∈ calls ∨ call ∈ levels s.timr s.rtc) :
    ∃ soc', deliver s.soc calls = some soc' ∧ Linked ⟨soc', timr, rtc⟩ := by
  obtain ⟨soc', hrun, hline, hshown⟩ := deliver_shown h.line hcalls
  exact ⟨soc', hrun, hline, fun call hcall =>
    hshown call hcall ((hlevels call hcall).imp_right (h.shown call))⟩

theorem Linked.timr_reported (h : Linked s)
    (hcalls : Reported calls (pxaTimrPrvRaiseLowerInts s.timr) (pxaTimrPrvRaiseLowerInts timr)) :
    ∃ soc', deliver s.soc calls = some soc' ∧ Linked ⟨soc', timr, s.rtc⟩ := by
  rcases hcalls with rfl | ⟨rfl, heq⟩
  · refine h.delivered (List.subset_append_left _ _) fun call hcall => ?_
    exact (List.mem_append.mp hcall).imp_right (List.mem_append_right _)
  · refine h.delivered (List.nil_subset _) fun call hcall => .inr ?_
    rwa [levels, heq] at hcall

theorem Linked.rtc_reported (h : Linked s) (hcalls : Reported calls (rtcCalls s.rtc) (rtcCalls rtc)) :
    ∃ soc', deliver s.soc calls = some soc' ∧ Linked ⟨soc', s.timr, rtc⟩ := by
  rcases hcalls with rfl | ⟨rfl, heq⟩
  · refine h.delivered (List.subset_append_right _ _) fun call hcall => ?_
    exact (List.mem_append.mp hcall).symm.imp_right (List.mem_append_left _)
  · refine h.delivered (List.nil_subset _) fun call hcall => .inr ?_
    rwa [levels, heq] at hcall

theorem updated_calls {buf : Word} :
    ∀ a ∈ updated timr buf, a.calls = pxaTimrPrvRaiseLowerInts a.device := by
  intro a ha
  obtain ⟨r, hr, rfl⟩ := Option.map_eq_some_iff.mp ha
  obtain ⟨t, -, rfl⟩ := Option.map_eq_some_iff.mp hr
  rfl

theorem pxaTimrPrvMemAccessF_calls {pa : Word} {size : ℕ} {write : Bool} {buf : Word} :
    ∀ a ∈ pxaTimrPrvMemAccessF timr pa size write buf, Reported a.calls
      (pxaTimrPrvRaiseLowerInts timr) (pxaTimrPrvRaiseLowerInts a.device) := by
  intro a ha
  simp only [pxaTimrPrvMemAccessF] at ha
  split_ifs at ha
  all_goals first
    | exact .inl (updated_calls a ha)
    | cases ha; exact .inr ⟨rfl, rfl⟩

theorem pxaRtcPrvMemAccessF_calls (rtc : PxaRtc) (pa : Word) (size : ℕ) (write : Bool)
    (buf : Word) : let a := pxaRtcPrvMemAccessF rtc pa size write buf
      Reported a.calls (rtcCalls rtc) (rtcCalls a.device) := by
  simp only [pxaRtcPrvMemAccessF]
  split_ifs
  all_goals first
    | exact .inl rfl
    | exact .inr ⟨rfl, rfl⟩

theorem pxaTimrTick_calls {batchedTicks : Word} :
    ∀ r ∈ pxaTimrTick timr batchedTicks, r.2 = pxaTimrPrvRaiseLowerInts r.1 := by
  intro r hr
  rw [pxaTimrTick] at hr
  split at hr
  · obtain ⟨t, -, rfl⟩ := Option.map_eq_some_iff.mp hr
    rfl
  · obtain ⟨t, -, rfl⟩ := Option.map_eq_some_iff.mp hr
    rfl

theorem icStep_pending (h : LineInv soc) {op : IcOp} (hop : Foreign op) :
    ∃ soc', icStep soc op = some (soc', []) ∧ LineInv soc' ∧
      ∀ j, 26 ≤ j → j < 32 → (soc'.ic.ICPR 0).getLsbD j = (soc.ic.ICPR 0).getLsbD j := by
  obtain ⟨soc', hrun, hline⟩ := icStep_ok h op
  refine ⟨soc', hrun, hline, fun j hlow hj => ?_⟩
  cases op with
  | int intNum raise =>
    obtain ⟨mid, hmid, -, hbits⟩ := socIcInt_pending h intNum raise
    obtain ⟨rfl, -⟩ := Prod.mk.inj (Option.some.inj (hmid.symm.trans hrun))
    rw [hbits j hj, if_neg]
    rintro rfl
    rcases hop with hop | hop <;> omega
  | mem pa size write buf =>
    obtain ⟨a, ha, hsoc⟩ := Option.map_eq_some_iff.mp hrun
    obtain ⟨rfl, -⟩ := Prod.mk.inj hsoc
    rw [(memAccess_masked soc pa size write buf a ha).pending]
  | coproc two MRC op1 Rx CRn CRm op2 =>
    obtain ⟨a, ha, hsoc⟩ := Option.map_eq_some_iff.mp hrun
    obtain ⟨rfl, -⟩ := Prod.mk.inj hsoc
    rw [(coprocAccess_masked soc two MRC op1 Rx CRn CRm op2 a ha).pending]
  | load r val =>
    obtain ⟨cpu, -, hsoc⟩ := Option.map_eq_some_iff.mp hrun
    obtain ⟨rfl, -⟩ := Prod.mk.inj hsoc
    rfl

theorem Linked.stepped (h : Linked s) (op : ClockOp) :
    (∃ s', step s op = some s' ∧ Linked s') ∨ Ends s op := by
  cases op with
  | timrAccess pa size write buf =>
    cases ha : pxaTimrPrvMemAccessF s.timr pa size write buf with
    | none => exact .inr ha
    | some a =>
      obtain ⟨soc', hrun, hlinked⟩ := h.timr_reported (pxaTimrPrvMemAccessF_calls a ha)
      exact .inl ⟨_, by simp [step, ha, hrun], hlinked⟩
  | timrTick batchedTicks =>
    cases hr : pxaTimrTick s.timr batchedTicks with
    | none => exact .inr hr
    | some r =>
      obtain ⟨soc', hrun, hlinked⟩ := h.timr_reported (.inl (pxaTimrTick_calls r hr))
      exact .inl ⟨_, by simp [step, hr, hrun], hlinked⟩
  | rtcAccess pa size write buf =>
    obtain ⟨soc', hrun, hlinked⟩ :=
      h.rtc_reported (pxaRtcPrvMemAccessF_calls s.rtc pa size write buf)
    exact .inl ⟨_, by simp [step, hrun], hlinked⟩
  | rtcTick =>
    have hcalls : (pxaRtcTick s.rtc).2 = rtcCalls (pxaRtcTick s.rtc).1 := rfl
    obtain ⟨soc', hrun, hlinked⟩ := h.rtc_reported (.inl hcalls)
    exact .inl ⟨_, by simp [step, hrun], hlinked⟩
  | other op hop =>
    obtain ⟨soc', hrun, hline, hbits⟩ := icStep_pending h.line hop
    refine .inl ⟨{ s with soc := soc' }, by simp [step, hrun], hline, ?_⟩
    intro call hcall
    obtain ⟨hlow, hlt⟩ := mem_levels call hcall
    exact (hbits _ hlow hlt).trans (h.shown call hcall)

theorem Linked.ran (h : Linked s) (ops : List ClockOp) :
    (∃ s', ops.foldlM step s = some s' ∧ Linked s') ∨
      ∃ before op last, before ++ [op] <+: ops ∧ Ends last op ∧
        before.foldlM step s = some last := by
  induction ops generalizing s with
  | nil => exact .inl ⟨s, rfl, h⟩
  | cons op ops ih =>
    rcases h.stepped op with ⟨mid, hmid, hlinked⟩ | hends
    · rcases ih hlinked with ⟨s', hrun, hs'⟩ | ⟨before, last, t, hprefix, hends, hrun⟩
      · exact .inl ⟨s', by rw [List.foldlM_cons, hmid]; exact hrun, hs'⟩
      · refine .inr ⟨op :: before, last, t, (List.prefix_cons_inj op).mpr hprefix, hends, ?_⟩
        rw [List.foldlM_cons, hmid]
        exact hrun
    · exact .inr ⟨[], op, s, List.prefix_append [op] ops, hends, rfl⟩

/-- Whatever the guest does, no interrupt of the clocks is lost or made up on the way to the
controller, and the core sees what is unmasked. Only the watchdog ends a run. -/
theorem run_clocks (pc : Word) (sleeping : Bool) (socRev : ℕ) (ops : List ClockOp) :
    (∃ s, ops.foldlM step (start pc sleeping socRev) = some s ∧
      (∀ i : Fin 4, (s.soc.ic.ICPR 0).getLsbD (26 + i) = s.timr.OSSR.getLsbD i) ∧
      (s.soc.ic.ICPR 0).getLsbD 31 = s.rtc.RTSR.getLsbD 0 ∧
      (s.soc.ic.ICPR 0).getLsbD 30 = s.rtc.RTSR.getLsbD 1 ∧
      s.soc.cpu.waitingIrqs = (if irqLine s.soc.ic then 1 else 0) ∧
      s.soc.cpu.waitingFiqs = if fiqLine s.soc.ic then 1 else 0) ∨
    ∃ before op last, before ++ [op] <+: ops ∧ Ends last op ∧
      before.foldlM step (start pc sleeping socRev) = some last := by
  have hclear : ∀ call ∈ levels pxaTimrInit pxaRtcInit, false = call.raise := by decide
  have hstart : Linked (start pc sleeping socRev) :=
    ⟨socIcInit_inv pc sleeping socRev, fun call hcall =>
      BitVec.getLsbD_zero.trans (hclear call hcall)⟩
  rcases hstart.ran ops with ⟨s, hrun, hs⟩ | hends
  · refine .inl ⟨s, hrun, ?_, ?_, ?_, ?_, ?_⟩
    · exact fun i => hs.shown ⟨26 + i, _⟩
        (List.mem_append_left _ (List.mem_map_of_mem (List.mem_range.mpr i.isLt)))
    · exact hs.shown ⟨31, s.rtc.RTSR.getLsbD 0⟩ (by simp [levels, rtcCalls])
    · exact hs.shown ⟨30, s.rtc.RTSR.getLsbD 1⟩ (by simp [levels, rtcCalls])
    · simp [hs.line.irqs, hs.line.irq]
    · simp [hs.line.fiqs, hs.line.fiq]
  · exact .inr hends

structure RtcAccess where
  pa : Word
  size : ℕ
  write : Bool
  buf : Word

def rtcAccess (rtc : PxaRtc) (op : RtcAccess) : PxaRtc :=
  (pxaRtcPrvMemAccessF rtc op.pa op.size op.write op.buf).device

def RtcAccess.WritesCounter (op : RtcAccess) : Prop :=
  op.size = 4 ∧ op.write ∧ (op.pa - 0x40900000) >>> 2 = 0

theorem rtcAccess_quiet (h : rtc.lastSeenTime = rtc.RCNR) {op : RtcAccess}
    (hop : ¬op.WritesCounter) : (rtcAccess rtc op).lastSeenTime = (rtcAccess rtc op).RCNR ∧
      ∀ k < 2, (rtcAccess rtc op).RTSR.getLsbD k = true → rtc.RTSR.getLsbD k = true := by
  have hupdate (r : PxaRtc) (hr : r.lastSeenTime = r.RCNR) : (pxaRtcPrvUpdate r).1 = r := by
    simp [pxaRtcPrvUpdate, hr]
  simp only [rtcAccess, pxaRtcPrvMemAccessF]
  split_ifs
  all_goals try exact ⟨h, fun _ _ hbit => hbit⟩
  · exact absurd ⟨by omega, by assumption, by assumption⟩ hop
  · rw [hupdate]
    · exact ⟨h, fun _ _ hbit => hbit⟩
    · exact h
  · rw [hupdate]
    · refine ⟨h, fun k hk hbit => ?_⟩
      interval_cases k <;> simp_all
    · exact h

theorem foldl_rtcAccess_quiet (h : rtc.lastSeenTime = rtc.RCNR)
    {ops : List RtcAccess} (hops : ∀ op ∈ ops, ¬op.WritesCounter) :
    (ops.foldl rtcAccess rtc).lastSeenTime = (ops.foldl rtcAccess rtc).RCNR ∧
      ∀ k < 2, (ops.foldl rtcAccess rtc).RTSR.getLsbD k = true → rtc.RTSR.getLsbD k = true := by
  induction ops generalizing rtc with
  | nil => exact ⟨h, fun _ _ hbit => hbit⟩
  | cons op ops ih =>
    rw [List.forall_mem_cons] at hops
    obtain ⟨hseen, hbits⟩ := rtcAccess_quiet h hops.1
    obtain ⟨hseen', hbits'⟩ := ih hseen hops.2
    exact ⟨hseen', fun k hk hbit => hbits k hk (hbits' k hk hbit)⟩

/-- Between two ticks, a status bit that the guest has cleared stays clear. -/
theorem cleared_until_tick (rtc : PxaRtc) {ops rest : List RtcAccess}
    (hops : ∀ op ∈ ops ++ rest, ¬op.WritesCounter) {k : ℕ} (hk : k < 2) :
    let seen := ops.foldl rtcAccess (pxaRtcTick rtc).1
    seen.RTSR.getLsbD k = false → (rest.foldl rtcAccess seen).RTSR.getLsbD k = false := by
  intro seen hclear
  rw [List.forall_mem_append] at hops
  have htick : (pxaRtcTick rtc).1.lastSeenTime = (pxaRtcTick rtc).1.RCNR := by
    simp only [pxaRtcTick, pxaRtcPrvUpdate]
    split <;> grind
  have hseen := (foldl_rtcAccess_quiet htick hops.1).1
  have hbit := (foldl_rtcAccess_quiet hseen hops.2).2 k hk
  exact Bool.eq_false_of_not_eq_true fun hset => by simp [seen, hbit hset] at hclear

theorem cleared_until_tick_alarm :
    let seen := [⟨0x40900008, 4, true, 1⟩].foldl rtcAccess
      (pxaRtcTick { pxaRtcInit with RTSR := 4 }).1
    ([⟨0x40900004, 4, true, 7⟩].foldl rtcAccess seen).RTSR.getLsbD 0 = false :=
  cleared_until_tick _ (by simp [RtcAccess.WritesCounter]) (by decide) (by decide)

end Cloudpilot.Uarm.ClockInterrupts
