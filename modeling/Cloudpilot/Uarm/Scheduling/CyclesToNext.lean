import Cloudpilot.Uarm.Scheduling.Ticks

/-! # What every run leaves of the queue, and where `ScheduleTask` starts

Whatever the calls of a run are, the queue ends, and the next update is the due time of its
head. `ScheduleTask` notes the time of the call as the last update of its task, but the
reschedule behind it takes the task for one that resumes, and moves it onto the tick grid of
its old due time.
-/

namespace Cloudpilot.Uarm.Scheduling

open Library.LinkedQueue

section

variable {s s' : Scheduler} {t : TaskType} {l : List TaskType} {batchTicks : Ticks}

/-- The queue ends, and its head is due at the next update. -/
structure Linked (s : Scheduler) : Prop where
  ends : ∃ l, Spells s.queue none l
  head : ∀ t, s.queue none = some t → s.nextUpdate = (s.tasks t).nextUpdate

/-- What any step may end in: a state with such a queue, or a division by zero. -/
inductive EndsLinked : Except Fault Scheduler → Prop
  | ok {s : Scheduler} (h : Linked s) : EndsLinked (.ok s)
  | divisionByZero : EndsLinked (.error .divisionByZero)

theorem EndsLinked.bind {r : Except Fault Scheduler} {f : Scheduler → Except Fault Scheduler}
    (h : EndsLinked r) (hf : ∀ s', Linked s' → EndsLinked (f s')) : EndsLinked (r >>= f) := by
  cases h with
  | ok h => exact hf _ h
  | divisionByZero => exact .divisionByZero

theorem linked_init : Linked init where
  ends := ⟨[], rfl⟩
  head := by simp [init]

section

variable (h : Spells s.queue none l)

include h

theorem linked_updateNextUpdate : Linked (updateNextUpdate s) where
  ends := ⟨l, h⟩
  head := by
    intro t ht
    have ht' : s.queue none = some t := ht
    simp only [updateNextUpdate, ht']

theorem length_lt_loopLimit : l.length < loopLimit := by
  have hcard := (spells_nodup h).length_le_card
  exact Nat.lt_succ_of_le hcard

theorem unscheduleTask_linked : EndsLinked (unscheduleTask s t) := by
  obtain ⟨queue, hrun, hspell, -⟩ :=
    unscheduleLoop_spec t h (anchor_ne l) (length_lt_loopLimit h)
  simp only [unscheduleTask, queue_setTask, hrun]
  exact .ok (linked_updateNextUpdate hspell)

theorem rescheduleTaskImpl_ok_linked {atLeast : Bool} (h0 : batchTicks ≠ 0)
    (hguard : ¬ ((atLeast || (s.tasks t).batchedTicks = 0) && (s.tasks t).period = 0) = true) :
    ∃ s', rescheduleTaskImpl atLeast s t batchTicks = .ok s' ∧ Linked s' ∧
      ∃ l', Spells s'.queue none l' ∧ t ∈ l' := by
  set ticks := if atLeast then atLeastTicks s t batchTicks else batchTicks with hticks
  set task := rescheduledTask s t ticks with htask
  set due : TaskType → Time := fun x => ((setTask s t task).tasks x).nextUpdate with hdue
  have hself : task.nextUpdate = due t := by
    rw [hdue]
    simp
  obtain ⟨queue, hrun, hspell, -⟩ := rescheduleLoop_spec due t (s.queue (some t)) h
    (anchor_ne _) rfl (length_lt_loopLimit h)
  have hspell' : Spells (updateNextUpdate { setTask s t task with queue := queue }).queue none
      (insertByRank (dueRank due) t (l.erase t)) := hspell
  rw [← hself, hdue] at hrun
  refine ⟨updateNextUpdate { setTask s t task with queue := queue }, ?_,
    linked_updateNextUpdate hspell, _, hspell', (mem_insertByRank _ _).mpr (.inl rfl)⟩
  simp only [rescheduleTaskImpl, h0, hguard, Bool.false_eq_true, if_false, ← hticks, ← htask,
    queue_setTask, hrun]
  rfl

theorem rescheduleTaskImpl_linked {atLeast : Bool} :
    EndsLinked (rescheduleTaskImpl atLeast s t batchTicks) := by
  by_cases h0 : batchTicks = 0
  · rw [rescheduleTaskImpl, if_pos h0]
    exact unscheduleTask_linked h
  · by_cases hguard :
      ((atLeast || (s.tasks t).batchedTicks = 0) && (s.tasks t).period = 0) = true
    · rw [rescheduleTaskImpl, if_neg h0, if_pos hguard]
      exact .divisionByZero
    · obtain ⟨s', hrun, hlinked, -⟩ := rescheduleTaskImpl_ok_linked h h0 hguard
      rw [hrun]
      exact .ok hlinked

end

theorem Call.exec_linked (h : Linked s) (c : Call) : EndsLinked (c.exec s) := by
  obtain ⟨l, hl⟩ := h.ends
  cases c with
  | scheduleTask t period batchTicks =>
    exact rescheduleTaskImpl_linked (s := setTask s t (freshTask s t period)) hl
  | rescheduleTask t batchTicks => exact rescheduleTaskImpl_linked hl
  | rescheduleTaskAtLeast t batchTicks => exact rescheduleTaskImpl_linked hl
  | unscheduleTask t => exact unscheduleTask_linked hl

theorem calls_linked {cs : List Call} (h : Linked s) : EndsLinked (cs.foldlM Call.exec s) := by
  induction cs generalizing s with
  | nil => exact .ok h
  | cons c cs ih =>
    exact (c.exec_linked h).bind fun s' hs' => ih hs'

theorem dispatch_linked {reply : Reply} (h : Linked s) : EndsLinked (dispatch s t reply) := by
  apply (calls_linked h).bind
  intro s' hs'
  obtain ⟨l, hl⟩ := hs'.ends
  exact rescheduleTaskImpl_linked (s := setTask s' t _) hl

theorem advanceLoop_linked {replies : List Reply} (h : Linked s) :
    EndsLinked (advanceLoop s replies) := by
  induction replies generalizing s with
  | nil =>
    obtain ⟨l, hl⟩ := h.ends
    rw [advanceLoop]
    cases s.queue none with
    | none => exact .ok (linked_updateNextUpdate hl)
    | some t =>
      simp only
      split
      · exact .ok (linked_updateNextUpdate hl)
      · exact .ok h
  | cons reply replies ih =>
    obtain ⟨l, hl⟩ := h.ends
    rw [advanceLoop]
    cases s.queue none with
    | none => exact .ok (linked_updateNextUpdate hl)
    | some t =>
      simp only
      split
      · exact .ok (linked_updateNextUpdate hl)
      · exact (dispatch_linked h).bind fun s' hs' => ih hs'

theorem Op.exec_linked (h : Linked s) (op : Op) : EndsLinked (op.exec s) := by
  cases op with
  | call c => exact c.exec_linked h
  | advance cycles cyclesPerSecond replies =>
    simp only [Op.exec, Scheduling.advance]
    split
    · exact .divisionByZero
    split
    · exact .ok ⟨h.ends, h.head⟩
    · exact advanceLoop_linked ⟨h.ends, h.head⟩

theorem run_linked {ops : List Op} (hrun : run init ops = .ok s) : Linked s := by
  have hends : ∀ {s : Scheduler}, Linked s → EndsLinked (run s ops) := by
    intro s hs
    clear hrun
    induction ops generalizing s with
    | nil => exact .ok hs
    | cons op ops ih =>
      exact (op.exec_linked hs).bind fun s' hs' => ih hs'
  have hinit := hends linked_init
  rw [hrun] at hinit
  cases hinit with
  | ok h => exact h

end

open BitVec

variable {s s' : Scheduler} {t : TaskType} {cyclesPerSecond : Time} {accTime nextUpdate cps : ℕ}

/-- The first thing that `Advance` does is the dispatch of the head of the queue. -/
def DispatchesHead (s : Scheduler) (cycles cyclesPerSecond : Time) : Prop :=
  ∃ t, s.queue none = some t ∧ ∀ reply replies,
    advance s cycles cyclesPerSecond (reply :: replies) =
      dispatch (elapse s cycles cyclesPerSecond) t reply >>= fun s' => advanceLoop s' replies

def waitTime (s : Scheduler) : ℕ := s.nextUpdate.toNat - s.accTime.toNat

/-- As many cycles dispatch the head of the queue, and they are not more than the wait takes, if
that is not more than a second. -/
structure Suffices (s : Scheduler) (cyclesPerSecond : Time) : Prop where
  dispatches : DispatchesHead s (cyclesToNextUpdate s cyclesPerSecond) cyclesPerSecond
  bound : waitTime s ≤ 10 ^ 9 → (cyclesToNextUpdate s cyclesPerSecond).toNat ≤
    waitTime s * cyclesPerSecond.toNat / 10 ^ 9 + 1

def cyclesFor (wait cps : ℕ) : ℕ := wait * cps / 10 ^ 9 + 1

/-- The next update is not over and the conversions of the wait fit into 64 bits, or it is over by
so much that the wait wraps around to less than a cycle. -/
def ConversionFits (accTime nextUpdate cps : ℕ) : Prop :=
  if accTime ≤ nextUpdate then
    cyclesFor (nextUpdate - accTime) cps * 10 ^ 9 < 2 ^ 64 ∧
      accTime + cyclesFor (nextUpdate - accTime) cps * 10 ^ 9 / cps < 2 ^ 64
  else
    (2 ^ 64 - (accTime - nextUpdate) * cps % 2 ^ 64) % 2 ^ 64 < 10 ^ 9 ∧
      nextUpdate ≤ (accTime + 10 ^ 9 / cps) % 2 ^ 64

theorem advance_of_before {cycles : Time} (hcps : cyclesPerSecond ≠ 0)
    (hbefore : (elapse s cycles cyclesPerSecond).accTime <
      (elapse s cycles cyclesPerSecond).nextUpdate) (replies : List Reply) :
    advance s cycles cyclesPerSecond replies = .ok (elapse s cycles cyclesPerSecond) := by
  rw [advance_eq_elapse, if_neg hcps, if_pos hbefore]

theorem advance_of_due {cycles : Time} (hcps : cyclesPerSecond ≠ 0) (hlinked : Linked s)
    (hhead : s.queue none = some t)
    (hdue : ¬ (elapse s cycles cyclesPerSecond).accTime <
      (elapse s cycles cyclesPerSecond).nextUpdate) (reply : Reply)
    (replies : List Reply) :
    advance s cycles cyclesPerSecond (reply :: replies) =
      dispatch (elapse s cycles cyclesPerSecond) t reply >>= fun s' => advanceLoop s' replies := by
  have htask : ¬ (elapse s cycles cyclesPerSecond).accTime <
      ((elapse s cycles cyclesPerSecond).tasks t).nextUpdate := by
    rwa [tasks_elapse, ← hlinked.head t hhead, ← nextUpdate_elapse s cycles cyclesPerSecond]
  rw [advance_eq_elapse, if_neg hcps, if_neg hdue, advanceLoop, queue_elapse, hhead]
  simp [htask]

theorem dispatchesHead_iff {cycles : Time} (hcps : cyclesPerSecond ≠ 0) (hlinked : Linked s)
    (hqueue : s.queue none ≠ none) :
    DispatchesHead s cycles cyclesPerSecond ↔
      s.nextUpdate.toNat ≤ (elapse s cycles cyclesPerSecond).accTime.toNat := by
  obtain ⟨t, ht⟩ := Option.ne_none_iff_exists'.mp hqueue
  constructor
  · rintro ⟨t', -, hdispatch⟩
    by_contra hbefore
    rw [← BitVec.le_def, BitVec.not_le, ← nextUpdate_elapse s cycles cyclesPerSecond] at hbefore
    have hok := advance_of_before hcps hbefore [⟨[.scheduleTask 0 0 1], 0⟩]
    rw [hdispatch, dispatch] at hok
    cases hok
  · intro hdue
    rw [← BitVec.le_def, ← BitVec.not_lt, ← nextUpdate_elapse s cycles cyclesPerSecond] at hdue
    exact ⟨t, ht, advance_of_due hcps hlinked ht hdue⟩

/-- What `CyclesToNextUpdate` returns. -/
def wrappedCycles (accTime nextUpdate cps : ℕ) : ℕ :=
  (2 ^ 64 - accTime + nextUpdate) % 2 ^ 64 * cps % 2 ^ 64 / 10 ^ 9 + 1

/-- The time after `Advance`. -/
def timeAfter (accTime cycles cps : ℕ) : ℕ := (accTime + cycles * 10 ^ 9 % 2 ^ 64 / cps) % 2 ^ 64

theorem toNat_cyclesToNextUpdate (s : Scheduler) (cyclesPerSecond : Time) :
    (cyclesToNextUpdate s cyclesPerSecond).toNat =
      wrappedCycles s.accTime.toNat s.nextUpdate.toNat cyclesPerSecond.toNat := by
  have hsec : oneSec.toNat = 10 ^ 9 := by decide
  have hone : (1 : Time).toNat = 1 := rfl
  rw [cyclesToNextUpdate, wrappedCycles, toNat_add, toNat_udiv, hsec, hone,
    Nat.mod_eq_of_lt (by omega), toNat_mul, toNat_sub]

theorem toNat_elapse (s : Scheduler) (cycles cyclesPerSecond : Time) :
    (elapse s cycles cyclesPerSecond).accTime.toNat =
      timeAfter s.accTime.toNat cycles.toNat cyclesPerSecond.toNat := by
  have hsec : oneSec.toNat = 10 ^ 9 := by decide
  rw [elapse, timeAfter, toNat_add, toNat_udiv, toNat_mul, hsec]

theorem le_cyclesFor_mul_div (wait : ℕ) (hcps : 0 < cps) :
    wait ≤ cyclesFor wait cps * 10 ^ 9 / cps := by
  rw [Nat.le_div_iff_mul_le hcps, cyclesFor]
  have hlt := Nat.lt_div_mul_add (a := wait * cps) (show 0 < 10 ^ 9 by norm_num)
  rw [Nat.add_mul, Nat.one_mul]
  exact hlt.le

theorem cyclesFor_mul_le (wait cps : ℕ) : cyclesFor wait cps * 10 ^ 9 ≤ wait * cps + 10 ^ 9 := by
  rw [cyclesFor, Nat.add_mul, Nat.one_mul]
  exact Nat.add_le_add_right (Nat.div_mul_le_self _ _) _

theorem wrappedCycles_of_le (hle : accTime ≤ nextUpdate) (hnext : nextUpdate < 2 ^ 64) :
    wrappedCycles accTime nextUpdate cps = (nextUpdate - accTime) * cps % 2 ^ 64 / 10 ^ 9 + 1 := by
  have hwait : (2 ^ 64 - accTime + nextUpdate) % 2 ^ 64 = nextUpdate - accTime := by
    omega
  rw [wrappedCycles, hwait]

theorem timeAfter_lt_of_wraps {wait cycles : ℕ} (hcps : 0 < cps) (hnext : accTime + wait < 2 ^ 64)
    (hshort : cycles * 10 ^ 9 % 2 ^ 64 < wait * cps) :
    timeAfter accTime cycles cps < accTime + wait := by
  have hdiv : cycles * 10 ^ 9 % 2 ^ 64 / cps < wait := (Nat.div_lt_iff_lt_mul hcps).mpr hshort
  rw [timeAfter, Nat.mod_eq_of_lt (by omega)]
  omega

theorem lt_cyclesFor_mul (wait cps : ℕ) : wait * cps < cyclesFor wait cps * 10 ^ 9 := by
  have hlt := Nat.lt_div_mul_add (a := wait * cps) (show 0 < 10 ^ 9 by norm_num)
  rwa [cyclesFor, Nat.add_mul, Nat.one_mul]

theorem le_timeAfter_iff_of_le {wait : ℕ} (hcps : 0 < cps) (hnext : accTime + wait < 2 ^ 64) :
    accTime + wait ≤ timeAfter accTime (wrappedCycles accTime (accTime + wait) cps) cps ↔
      cyclesFor wait cps * 10 ^ 9 < 2 ^ 64 ∧
        accTime + cyclesFor wait cps * 10 ^ 9 / cps < 2 ^ 64 := by
  have hle := cyclesFor_mul_le wait cps
  rw [wrappedCycles_of_le (Nat.le_add_right _ _) hnext, Nat.add_sub_cancel_left]
  constructor
  · intro hdue
    have hproduct : wait * cps < 2 ^ 64 := by
      by_contra hwraps
      have hshort := timeAfter_lt_of_wraps hcps hnext
        (show (wait * cps % 2 ^ 64 / 10 ^ 9 + 1) * 10 ^ 9 % 2 ^ 64 < wait * cps by omega)
      omega
    rw [Nat.mod_eq_of_lt hproduct, ← cyclesFor] at hdue
    have hcycles : cyclesFor wait cps * 10 ^ 9 < 2 ^ 64 := by
      by_contra hwraps
      have hshort := timeAfter_lt_of_wraps hcps hnext
        (show cyclesFor wait cps * 10 ^ 9 % 2 ^ 64 < wait * cps by omega)
      omega
    refine ⟨hcycles, ?_⟩
    by_contra hwraps
    have hdiv := Nat.div_le_self (cyclesFor wait cps * 10 ^ 9) cps
    rw [timeAfter, Nat.mod_eq_of_lt hcycles, Nat.mod_eq_sub_mod (by omega),
      Nat.mod_eq_of_lt (by omega)] at hdue
    omega
  · rintro ⟨hcycles, htime⟩
    have hlt := lt_cyclesFor_mul wait cps
    have hwait := le_cyclesFor_mul_div wait hcps
    rw [Nat.mod_eq_of_lt (by omega), ← cyclesFor, timeAfter, Nat.mod_eq_of_lt hcycles,
      Nat.mod_eq_of_lt htime]
    omega

theorem wrappedCycles_of_lt (hlt : nextUpdate < accTime) (hacc : accTime < 2 ^ 64) :
    wrappedCycles accTime nextUpdate cps =
      (2 ^ 64 - (accTime - nextUpdate) * cps % 2 ^ 64) % 2 ^ 64 / 10 ^ 9 + 1 := by
  have hwait : (2 ^ 64 - accTime + nextUpdate) % 2 ^ 64 = 2 ^ 64 - (accTime - nextUpdate) := by
    omega
  have hsum : (2 ^ 64 - (accTime - nextUpdate)) * cps + (accTime - nextUpdate) * cps =
      2 ^ 64 * cps := by
    rw [← Nat.add_mul, Nat.sub_add_cancel (by omega)]
  rw [wrappedCycles, hwait]
  congr 2
  omega

/-- `CyclesToNextUpdate` returns enough cycles, and not too many, in exactly these states. -/
theorem cyclesToNextUpdate_suffices_iff {ops : List Op} (hrun : run init ops = .ok s)
    (hqueue : s.queue none ≠ none) (hpos : 1 ≤ cyclesPerSecond.toNat)
    (hle : cyclesPerSecond.toNat ≤ 10 ^ 9) :
    Suffices s cyclesPerSecond ↔
      ConversionFits s.accTime.toNat s.nextUpdate.toNat cyclesPerSecond.toNat := by
  have hcps : cyclesPerSecond ≠ 0 := by grind
  have hacc := s.accTime.isLt
  have hnext := s.nextUpdate.isLt
  have hiff : Suffices s cyclesPerSecond ↔
      DispatchesHead s (cyclesToNextUpdate s cyclesPerSecond) cyclesPerSecond ∧
        (waitTime s ≤ 10 ^ 9 → (cyclesToNextUpdate s cyclesPerSecond).toNat ≤
          waitTime s * cyclesPerSecond.toNat / 10 ^ 9 + 1) :=
    ⟨fun h => ⟨h.dispatches, h.bound⟩, fun h => ⟨h.1, h.2⟩⟩
  rw [hiff, dispatchesHead_iff hcps (run_linked hrun) hqueue, toNat_elapse,
    toNat_cyclesToNextUpdate, waitTime, ConversionFits]
  generalize s.accTime.toNat = accTime at *
  generalize s.nextUpdate.toNat = nextUpdate at *
  generalize cyclesPerSecond.toNat = cps at *
  by_cases hwait : accTime ≤ nextUpdate
  · obtain ⟨wait, rfl⟩ := Nat.exists_eq_add_of_le hwait
    rw [if_pos hwait, le_timeAfter_iff_of_le hpos hnext, Nat.add_sub_cancel_left]
    constructor
    · omega
    · intro hfits
      refine ⟨hfits, fun _ => ?_⟩
      rw [wrappedCycles_of_le hwait hnext, Nat.add_sub_cancel_left]
      exact Nat.add_le_add_right (Nat.div_le_div_right (Nat.mod_le _ _)) 1
  · rw [if_neg hwait, wrappedCycles_of_lt (Nat.lt_of_not_le hwait) hacc,
      Nat.sub_eq_zero_of_le (Nat.le_of_not_le hwait), Nat.zero_mul, Nat.zero_div, Nat.zero_add]
    generalize (2 ^ 64 - (accTime - nextUpdate) * cps % 2 ^ 64) % 2 ^ 64 = wrapped
    have hone : 1 * 10 ^ 9 % 2 ^ 64 = 10 ^ 9 := by norm_num
    constructor
    · rintro ⟨hdue, hbound⟩
      have hzero : wrapped / 10 ^ 9 = 0 := Nat.le_zero.mp (Nat.le_of_succ_le_succ (hbound (by omega)))
      rw [hzero, Nat.zero_add, timeAfter, hone] at hdue
      exact ⟨by omega, hdue⟩
    · rintro ⟨hwrapped, hdue⟩
      have hzero : wrapped / 10 ^ 9 = 0 := Nat.div_eq_of_lt hwrapped
      rw [hzero, Nat.zero_add, timeAfter, hone]
      exact ⟨hdue, fun _ => le_rfl⟩

/-- A wait of at most a second fits, whatever the clock rate is. -/
theorem conversionFits_of_wait (hwait : accTime ≤ nextUpdate) (hsecond : nextUpdate ≤ accTime + 10 ^ 9)
    (hpos : 1 ≤ cps) (hle : cps ≤ 10 ^ 9) (htime : accTime + 2 * 10 ^ 9 < 2 ^ 64) :
    ConversionFits accTime nextUpdate cps := by
  obtain ⟨wait, rfl⟩ := Nat.exists_eq_add_of_le hwait
  have hproduct : wait * cps ≤ 10 ^ 9 * 10 ^ 9 := Nat.mul_le_mul (by omega) hle
  have hcycles := cyclesFor_mul_le wait cps
  have hdiv : cyclesFor wait cps * 10 ^ 9 / cps ≤ wait + 10 ^ 9 := by
    apply Nat.div_le_of_le_mul
    calc cyclesFor wait cps * 10 ^ 9 ≤ wait * cps + 10 ^ 9 := hcycles
      _ ≤ cps * wait + cps * 10 ^ 9 := by grind
      _ = cps * (wait + 10 ^ 9) := by ring
  rw [ConversionFits, if_pos hwait, Nat.add_sub_cancel_left]
  omega

/-- A task that is rescheduled with one tick when two of its ticks have passed. -/
def overdueRun : List Op :=
  [.call (.scheduleTask 0 10 3), .advance 25 1000000000 [], .call (.rescheduleTask 0 1)]

def waitingRun : List Op := overdueRun.take 2

theorem exists_waitingRun_suffices :
    ∃ s, run init waitingRun = .ok s ∧ Suffices s 1000000 := by
  have hrun : ∃ s, run init waitingRun = .ok s ∧ s.queue none = some 0 ∧ s.accTime = 25 ∧
      s.nextUpdate = 30 := by
    decide +kernel
  obtain ⟨s, hs, hhead, htime, hnext⟩ := hrun
  refine ⟨s, hs, (cyclesToNextUpdate_suffices_iff hs (by simp [hhead]) (by decide) (by decide)).mpr ?_⟩
  rw [htime, hnext]
  exact conversionFits_of_wait (by decide) (by decide) (by decide) (by decide) (by decide)

/-- The wait for the task that is 15 ns overdue becomes 18446744059 cycles. -/
theorem overdueRun_not_suffices :
    ∃ s, run init overdueRun = .ok s ∧ s.queue none = some 0 ∧ ¬ Suffices s 1000000000 := by
  have hrun : ∃ s, run init overdueRun = .ok s ∧ s.queue none = some 0 ∧ s.accTime = 25 ∧
      s.nextUpdate = 10 ∧ cyclesToNextUpdate s 1000000000 = 18446744059 := by
    decide +kernel
  obtain ⟨s, hs, hhead, htime, hnext, hcycles⟩ := hrun
  refine ⟨s, hs, hhead, fun h => ?_⟩
  have hbound := h.bound
  rw [hcycles, waitTime, htime, hnext] at hbound
  exact absurd (hbound (by decide)) (by decide)

end Cloudpilot.Uarm.Scheduling
