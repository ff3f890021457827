import Mathlib.Algebra.Order.BigOperators.Group.Finset
import Cloudpilot.Uarm.Scheduling.Queue

/-! # The effect of one call on the tasks

A call changes the record of its own task only, and leaves the time alone. A task is
exact when its due time is its last update plus its batched ticks, without a wrap of
the 64 bit time. Its load is the number of ticks it has accumulated: a call never
raises it, since a task that is scheduled anew starts at the last point of its tick
grid that is not in the future.
-/

namespace Cloudpilot.Uarm.Scheduling

open BitVec Nat

section

variable {s s' : Scheduler} {t x : TaskType} {c : Call}

def Call.task : Call → TaskType
  | .scheduleTask taskType _ _ => taskType
  | .rescheduleTask taskType _ => taskType
  | .rescheduleTaskAtLeast taskType _ => taskType
  | .unscheduleTask taskType => taskType

/-- The task as `ScheduleTask` hands it to `RescheduleTask`. -/
def freshTask (s : Scheduler) (taskType : TaskType) (period : Time) : Task :=
  { s.tasks taskType with period := period, lastUpdate := s.accTime, batchedTicks := 0 }

/-- The task as `RescheduleTaskImpl` or `UnscheduleTask` leaves it. -/
def rescheduleResult (atLeast : Bool) (s : Scheduler) (taskType : TaskType) (batchTicks : Ticks) :
    Task :=
  if batchTicks = 0 then { s.tasks taskType with batchedTicks := 0 } else
    rescheduledTask s taskType (if atLeast then atLeastTicks s taskType batchTicks else batchTicks)

def Call.result (s : Scheduler) : Call → Task
  | .scheduleTask taskType period batchTicks =>
    rescheduleResult false (setTask s taskType (freshTask s taskType period)) taskType batchTicks
  | .rescheduleTask taskType batchTicks => rescheduleResult false s taskType batchTicks
  | .rescheduleTaskAtLeast taskType batchTicks => rescheduleResult true s taskType batchTicks
  | .unscheduleTask taskType => { s.tasks taskType with batchedTicks := 0 }

/-- `s'` is `s` with another record for the task `t`, and maybe other links. -/
structure Changed (s : Scheduler) (t : TaskType) (task : Task) (s' : Scheduler) : Prop where
  time : s'.accTime = s.accTime
  self : s'.tasks t = task
  other : ∀ x, x ≠ t → s'.tasks x = s.tasks x

theorem changed_setTask (task : Task) (queue : Links) :
    Changed s t task (updateNextUpdate { setTask s t task with queue := queue }) where
  time := rfl
  self := Function.update_self _ _ _
  other := fun _ hx => Function.update_of_ne hx _ _

theorem Changed.of_setTask {task task' : Task} (h : Changed (setTask s t task) t task' s') :
    Changed s t task' s' where
  time := h.time
  self := h.self
  other := fun x hx => (h.other x hx).trans (Function.update_of_ne hx _ _)

theorem unscheduleTask_changed (h : unscheduleTask s t = .ok s') :
    Changed s t { s.tasks t with batchedTicks := 0 } s' := by
  simp only [unscheduleTask, bind, Except.bind] at h
  split at h
  · cases h
  · cases h
    exact changed_setTask _ _

variable {batchTicks : Ticks}

theorem rescheduleTaskImpl_changed {atLeast : Bool}
    (h : rescheduleTaskImpl atLeast s t batchTicks = .ok s') :
    Changed s t (rescheduleResult atLeast s t batchTicks) s' := by
  rw [rescheduleTaskImpl] at h
  rw [rescheduleResult]
  by_cases h0 : batchTicks = 0
  · rw [if_pos h0] at h ⊢
    exact unscheduleTask_changed h
  rw [if_neg h0] at h ⊢
  by_cases hp : ((atLeast || (s.tasks t).batchedTicks = 0) && (s.tasks t).period = 0) = true
  · simp only [hp, if_true] at h
    cases h
  simp only [hp, Bool.false_eq_true, if_false, bind, Except.bind] at h
  split at h
  · cases h
  · cases h
    exact changed_setTask _ _

theorem Call.exec_changed (h : c.exec s = .ok s') : Changed s c.task (c.result s) s' := by
  cases c with
  | scheduleTask t period batchTicks => exact (rescheduleTaskImpl_changed h).of_setTask
  | rescheduleTask t batchTicks => exact rescheduleTaskImpl_changed h
  | rescheduleTaskAtLeast t batchTicks => exact rescheduleTaskImpl_changed h
  | unscheduleTask t => exact unscheduleTask_changed h

/-- The due time is the last update plus the batched ticks, as numbers. -/
structure Task.Exact (task : Task) : Prop where
  period : 0 < task.period.toNat
  due : task.nextUpdate.toNat =
    task.lastUpdate.toNat + task.batchedTicks.toNat * task.period.toNat

/-- The batch of a scheduled task ends before the 64 bit time does. -/
def Task.Fits (task : Task) : Prop :=
  task.batchedTicks ≠ 0 → 0 < task.period.toNat ∧
    task.lastUpdate.toNat + task.batchedTicks.toNat * task.period.toNat < 2 ^ 64

instance (task : Task) : Decidable task.Fits := inferInstanceAs (Decidable (_ → _))

/-- The ticks of a scheduled task that have accumulated at a time. -/
def Task.load (accTime : Time) (task : Task) : ℕ :=
  if task.batchedTicks = 0 then 0 else
    (accTime.toNat - task.lastUpdate.toNat) / task.period.toNat

theorem Task.load_unscheduled (accTime : Time) {task : Task} (h : task.batchedTicks = 0) :
    task.load accTime = 0 := if_pos h

@[simp] theorem toNat_setWidth_ticks (batchTicks : Ticks) :
    (batchTicks.setWidth 64).toNat = batchTicks.toNat := by
  have hlt : batchTicks.toNat < 2 ^ 64 := lt_of_lt_of_le batchTicks.isLt (by norm_num)
  rw [toNat_setWidth, mod_eq_of_lt hlt]

theorem toNat_add_ticks {lastUpdate period : Time}
    (h : lastUpdate.toNat + batchTicks.toNat * period.toNat < 2 ^ 64) :
    (lastUpdate + batchTicks.setWidth 64 * period).toNat =
      lastUpdate.toNat + batchTicks.toNat * period.toNat := by
  have hmul : batchTicks.toNat * period.toNat < 2 ^ 64 := by omega
  rw [toNat_add, toNat_mul, toNat_setWidth_ticks, mod_eq_of_lt hmul,
    mod_eq_of_lt h]

theorem rescheduledTask_exact (h0 : batchTicks ≠ 0) (h : (rescheduledTask s t batchTicks).Fits) :
    (rescheduledTask s t batchTicks).Exact := by
  obtain ⟨hp, hlt⟩ := h h0
  exact ⟨hp, toNat_add_ticks hlt⟩

theorem udiv_mul_eq_sub_umod (d period : Time) : d / period * period = d - d % period := by
  apply eq_of_toNat_eq
  have hle : d.toNat % period.toNat ≤ d.toNat := mod_le _ _
  have hde := div_add_mod' d.toNat period.toNat
  have hsub : (d - d % period).toNat = d.toNat - d.toNat % period.toNat := by
    rw [toNat_sub_of_le (by rwa [le_def, toNat_umod]), toNat_umod]
  rw [hsub, toNat_mul, toNat_udiv, mod_eq_of_lt (by omega)]
  omega

theorem grid_eq_sub (accTime nextUpdate period : Time) :
    (accTime - nextUpdate) / period * period + nextUpdate =
      accTime - (accTime - nextUpdate) % period := by
  rw [udiv_mul_eq_sub_umod, BitVec.sub_eq_add_neg, BitVec.sub_eq_add_neg, BitVec.sub_eq_add_neg]
  rw [BitVec.add_assoc, BitVec.add_comm (-_) nextUpdate, ← BitVec.add_assoc,
    BitVec.add_assoc accTime, BitVec.add_left_neg, BitVec.add_zero]

/-- Moving a time back onto a grid leaves less than one period, even where it wraps. -/
theorem sub_grid_lt {accTime nextUpdate period : Time} (hp : 0 < period.toNat) :
    accTime.toNat - ((accTime - nextUpdate) / period * period + nextUpdate).toNat <
      period.toNat := by
  have hr : ((accTime - nextUpdate) % period).toNat < period.toNat := by
    exact mod_lt _ hp
  rw [grid_eq_sub]
  generalize (accTime - nextUpdate) % period = r at hr
  rw [toNat_sub]
  by_cases hle : r.toNat ≤ accTime.toNat <;> omega

theorem rescheduledTask_load_unscheduled (h : (s.tasks t).batchedTicks = 0)
    (hfit : (rescheduledTask s t batchTicks).Fits) :
    (rescheduledTask s t batchTicks).load s.accTime = 0 := by
  by_cases h0 : (rescheduledTask s t batchTicks).batchedTicks = 0
  · exact Task.load_unscheduled _ h0
  have hp : 0 < (s.tasks t).period.toNat := (hfit h0).1
  rw [Task.load, if_neg h0]
  apply div_eq_of_lt
  simp only [rescheduledTask, h, if_true]
  exact sub_grid_lt hp

theorem rescheduledTask_load_scheduled (h : (s.tasks t).batchedTicks ≠ 0) :
    (rescheduledTask s t batchTicks).load s.accTime ≤ (s.tasks t).load s.accTime := by
  by_cases h0 : (rescheduledTask s t batchTicks).batchedTicks = 0
  · rw [Task.load_unscheduled _ h0]
    exact zero_le _
  · rw [Task.load, if_neg h0, Task.load, if_neg h]
    simp only [rescheduledTask, h, if_false, le_refl]

theorem rescheduleResult_load {atLeast : Bool}
    (hfit : (rescheduleResult atLeast s t batchTicks).Fits) :
    (rescheduleResult atLeast s t batchTicks).load s.accTime ≤ (s.tasks t).load s.accTime := by
  rw [rescheduleResult] at hfit ⊢
  split at hfit
  · rename_i h0
    rw [if_pos h0, Task.load_unscheduled _ rfl]
    exact zero_le _
  · rename_i h0
    rw [if_neg h0]
    by_cases h : (s.tasks t).batchedTicks = 0
    · rw [rescheduledTask_load_unscheduled h hfit]
      exact zero_le _
    · exact rescheduledTask_load_scheduled h

theorem Call.result_load (hfit : (c.result s).Fits) :
    (c.result s).load s.accTime ≤ (s.tasks c.task).load s.accTime := by
  cases c with
  | scheduleTask t period batchTicks =>
    have hfresh : ((setTask s t (freshTask s t period)).tasks t).load s.accTime = 0 := by
      rw [tasks_setTask_self, Task.load_unscheduled _ rfl]
    exact (rescheduleResult_load hfit).trans (hfresh.le.trans (zero_le _))
  | rescheduleTask t batchTicks => exact rescheduleResult_load hfit
  | rescheduleTaskAtLeast t batchTicks => exact rescheduleResult_load hfit
  | unscheduleTask t =>
    exact zero_le _

theorem rescheduleResult_exact {atLeast : Bool}
    (hfit : (rescheduleResult atLeast s t batchTicks).Fits)
    (h0 : (rescheduleResult atLeast s t batchTicks).batchedTicks ≠ 0) :
    (rescheduleResult atLeast s t batchTicks).Exact := by
  rw [rescheduleResult] at hfit h0 ⊢
  split at hfit
  · grind
  · rename_i hb
    rw [if_neg hb] at h0 ⊢
    exact rescheduledTask_exact h0 hfit

theorem Call.result_exact (hfit : (c.result s).Fits) (h0 : (c.result s).batchedTicks ≠ 0) :
    (c.result s).Exact := by
  cases c with
  | scheduleTask t period batchTicks => exact rescheduleResult_exact hfit h0
  | rescheduleTask t batchTicks => exact rescheduleResult_exact hfit h0
  | rescheduleTaskAtLeast t batchTicks => exact rescheduleResult_exact hfit h0
  | unscheduleTask t => exact absurd rfl h0

/-- The call gives its task a batch that fits, and is safe for the queue. -/
structure Call.Fits (s : Scheduler) (c : Call) : Prop where
  safe : c.Safe s
  fits : (c.result s).Fits

instance (s : Scheduler) (c : Call) : Decidable (c.Fits s) :=
  decidable_of_iff (c.Safe s ∧ (c.result s).Fits) ⟨fun h => ⟨h.1, h.2⟩, fun h => ⟨h.safe, h.fits⟩⟩

/-- A queue of the scheduled tasks, each of them exact. -/
structure Sound (s : Scheduler) : Prop where
  queue : QueueInv s
  exact : ∀ t, (s.tasks t).batchedTicks ≠ 0 → (s.tasks t).Exact

theorem rescheduleTaskImpl_ok {l : List TaskType} (h : QueueBut s t l) {atLeast : Bool}
    (hbatch : batchTicks ≠ 0 → atLeast = true → atLeastTicks s t batchTicks ≠ 0)
    (hfit : (rescheduleResult atLeast s t batchTicks).Fits) :
    ∃ s', rescheduleTaskImpl atLeast s t batchTicks = .ok s' ∧ QueueInv s' := by
  by_cases h0 : batchTicks = 0
  · obtain ⟨s', hs', hinv⟩ := unscheduleTask_queue h
    exact ⟨s', by rw [rescheduleTaskImpl, if_pos h0, hs'], hinv⟩
  rw [rescheduleResult, if_neg h0] at hfit
  set ticks := if atLeast then atLeastTicks s t batchTicks else batchTicks with hticks
  have hne : (rescheduledTask s t ticks).batchedTicks ≠ 0 := by
    cases atLeast with
    | false => simpa [hticks, rescheduledTask] using h0
    | true => simpa [hticks, rescheduledTask] using hbatch h0 rfl
  have hp : (s.tasks t).period ≠ 0 := by
    intro e
    have hpos : 0 < (s.tasks t).period.toNat := (hfit hne).1
    rw [e] at hpos
    cases hpos
  obtain ⟨queue, hrun, hinv⟩ := rescheduleLoop_queue h hne
  refine ⟨_, ?_, hinv⟩
  simp only [rescheduleTaskImpl, h0, if_false, hp, decide_false, Bool.and_false, queue_setTask,
    ← hticks, hrun]
  rfl

theorem Call.exec_ok (h : QueueInv s) (hc : c.Fits s) :
    ∃ s', c.exec s = .ok s' ∧ QueueInv s' := by
  obtain ⟨l, h⟩ := h
  obtain ⟨hsafe, hfit⟩ := hc
  cases c with
  | scheduleTask t period batchTicks =>
    exact rescheduleTaskImpl_ok ((h.but t).setTask _) (fun _ e => Bool.noConfusion e) hfit
  | rescheduleTask t batchTicks =>
    exact rescheduleTaskImpl_ok (h.but t) (fun _ e => Bool.noConfusion e) hfit
  | rescheduleTaskAtLeast t batchTicks =>
    exact rescheduleTaskImpl_ok (h.but t) (fun h0 _ => atLeastTicks_ne_zero h0 hsafe) hfit
  | unscheduleTask t => exact unscheduleTask_queue (h.but t)

theorem Changed.sound {task : Task} (hch : Changed s t task s') (hinv : QueueInv s')
    (h : ∀ x, x ≠ t → (s.tasks x).batchedTicks ≠ 0 → (s.tasks x).Exact)
    (htask : task.batchedTicks ≠ 0 → task.Exact) : Sound s' where
  queue := hinv
  exact := by
    intro x hx
    by_cases hxt : x = t
    · subst hxt
      rw [hch.self] at hx ⊢
      exact htask hx
    · rw [hch.other x hxt] at hx ⊢
      exact h x hxt hx

theorem Call.exec_sound (h : Sound s) (hc : c.Fits s) :
    ∃ s', c.exec s = .ok s' ∧ Sound s' ∧ Changed s c.task (c.result s) s' := by
  obtain ⟨s', hs', hinv⟩ := Call.exec_ok h.queue hc
  have hch := Call.exec_changed hs'
  exact ⟨s', hs', hch.sound hinv (fun x _ => h.exact x) (Call.result_exact hc.fits), hch⟩

/-- All the ticks that have accumulated. -/
def workload (s : Scheduler) : ℕ := ∑ t, (s.tasks t).load s.accTime

theorem Changed.workload_le {task : Task} (hch : Changed s t task s')
    (h : task.load s.accTime ≤ (s.tasks t).load s.accTime) : workload s' ≤ workload s := by
  apply Finset.sum_le_sum
  intro x _
  rw [hch.time]
  by_cases hxt : x = t
  · grind [hch.self]
  · rw [hch.other x hxt]

theorem Changed.workload_lt {task : Task} (hch : Changed s t task s')
    (h : task.load s.accTime < (s.tasks t).load s.accTime) : workload s' < workload s := by
  apply Finset.sum_lt_sum
  · intro x _
    rw [hch.time]
    by_cases hxt : x = t
    · grind [hch.self]
    · rw [hch.other x hxt]
  · grind [hch.time, hch.self]

end

/-- One call of `DispatchTicks`: the ticks it hands over, when they were due, and the time. -/
structure Batch where
  taskType : TaskType
  ticks : Ticks
  due : Time
  time : Time
  deriving DecidableEq

structure Ledger where
  scheduler : Scheduler
  start : TaskType → Time
  handed : TaskType → ℕ
  batches : List Batch

def Ledger.init : Ledger := ⟨Scheduling.init, fun _ => 0, fun _ => 0, []⟩

def Call.starts (s : Scheduler) : Call → Bool
  | .scheduleTask .. => true
  | .rescheduleTask taskType batchTicks => batchTicks ≠ 0 && (s.tasks taskType).batchedTicks = 0
  | .rescheduleTaskAtLeast taskType batchTicks =>
    batchTicks ≠ 0 && (s.tasks taskType).batchedTicks = 0
  | .unscheduleTask _ => false

def Ledger.restart (g : Ledger) (t : TaskType) (lastUpdate : Time) : Ledger :=
  { g with start := Function.update g.start t lastUpdate, handed := Function.update g.handed t 0 }

def Ledger.setScheduler (g : Ledger) (s : Scheduler) : Ledger := { g with scheduler := s }

def Ledger.call (g : Ledger) (c : Call) : Except Fault Ledger := do
  let s ← c.exec g.scheduler
  let g' := g.setScheduler s
  return if c.starts g.scheduler then g'.restart c.task (s.tasks c.task).lastUpdate else g'

/-- Enter the batch that the head of the queue hands to the delegate. -/
def Ledger.hand (g : Ledger) (t : TaskType) : Ledger :=
  let task := g.scheduler.tasks t
  { g with
    handed := Function.update g.handed t (g.handed t + task.batchedTicks.toNat)
    batches := g.batches ++ [⟨t, task.batchedTicks, task.nextUpdate, g.scheduler.accTime⟩] }

/-- What `Advance` does after the delegate returned. -/
def finishDispatch (s : Scheduler) (taskType : TaskType) (batchTicks : Ticks) :
    Except Fault Scheduler :=
  let task := s.tasks taskType
  let task := { task with
    lastUpdate := task.lastUpdate + task.batchedTicks.setWidth 64 * task.period }
  rescheduleTaskImpl false (setTask s taskType task) taskType batchTicks

def Ledger.dispatch (g : Ledger) (t : TaskType) (reply : Reply) : Except Fault Ledger := do
  let g ← reply.calls.foldlM Ledger.call (g.hand t)
  let s ← finishDispatch g.scheduler t reply.batchTicks
  return g.setScheduler s

def Ledger.advanceLoop : Ledger → List Reply → Except Fault Ledger
  | g, replies =>
    match g.scheduler.queue none with
    | none => .ok (g.setScheduler (updateNextUpdate g.scheduler))
    | some taskType =>
      if g.scheduler.accTime < (g.scheduler.tasks taskType).nextUpdate then
        .ok (g.setScheduler (updateNextUpdate g.scheduler)) else
        match replies with
        | [] => .ok g
        | reply :: replies => do
          let g ← g.dispatch taskType reply
          g.advanceLoop replies

def Ledger.advance (g : Ledger) (cycles cyclesPerSecond : Time) (replies : List Reply) :
    Except Fault Ledger :=
  if cyclesPerSecond = 0 then .error .divisionByZero else
    let s := elapse g.scheduler cycles cyclesPerSecond
    if s.accTime < s.nextUpdate then .ok (g.setScheduler s) else
      (g.setScheduler s).advanceLoop replies

variable {g g' : Ledger} {s : Scheduler} {t x : TaskType} {c : Call}

@[simp] theorem Ledger.setScheduler_scheduler : (g.setScheduler s).scheduler = s := rfl

@[simp] theorem Ledger.setScheduler_batches : (g.setScheduler s).batches = g.batches := rfl

@[simp] theorem Ledger.hand_scheduler : (g.hand t).scheduler = g.scheduler := rfl

theorem Ledger.call_scheduler (g : Ledger) (c : Call) :
    (g.call c).map Ledger.scheduler = c.exec g.scheduler := by
  simp only [Ledger.call, bind, Except.bind]
  cases hs : c.exec g.scheduler with
  | error e => rfl
  | ok s =>
    simp only [pure, Except.pure, Except.map]
    split <;> rfl

theorem Ledger.calls_scheduler (g : Ledger) (cs : List Call) :
    (cs.foldlM Ledger.call g).map Ledger.scheduler = cs.foldlM Call.exec g.scheduler := by
  induction cs generalizing g with
  | nil => rfl
  | cons c cs ih =>
    rw [List.foldlM_cons, List.foldlM_cons, ← Ledger.call_scheduler g c]
    cases hg : g.call c with
    | error e => rfl
    | ok g' => exact ih g'

theorem Ledger.dispatch_scheduler (g : Ledger) (t : TaskType) (reply : Reply) :
    (g.dispatch t reply).map Ledger.scheduler = Scheduling.dispatch g.scheduler t reply := by
  have hcalls := Ledger.calls_scheduler (g.hand t) reply.calls
  rw [Ledger.hand_scheduler] at hcalls
  rw [Ledger.dispatch, Scheduling.dispatch, ← hcalls]
  cases reply.calls.foldlM Ledger.call (g.hand t) with
  | error e => rfl
  | ok g' =>
    simp only [bind, Except.bind, Except.map]
    change _ = finishDispatch g'.scheduler t reply.batchTicks
    cases finishDispatch g'.scheduler t reply.batchTicks with
    | error e => rfl
    | ok s => rfl

theorem Ledger.advanceLoop_scheduler (g : Ledger) (replies : List Reply) :
    (g.advanceLoop replies).map Ledger.scheduler =
      Scheduling.advanceLoop g.scheduler replies := by
  induction replies generalizing g with
  | nil =>
    rw [Ledger.advanceLoop, Scheduling.advanceLoop]
    cases g.scheduler.queue none with
    | none => rfl
    | some t =>
      simp only
      split <;> rfl
  | cons reply replies ih =>
    rw [Ledger.advanceLoop, Scheduling.advanceLoop]
    cases g.scheduler.queue none with
    | none => rfl
    | some t =>
      simp only
      split
      · rfl
      · rw [← Ledger.dispatch_scheduler g t reply]
        cases g.dispatch t reply with
        | error e => rfl
        | ok g' => exact ih g'

theorem advance_eq_elapse (s : Scheduler) (cycles cyclesPerSecond : Time) (replies : List Reply) :
    advance s cycles cyclesPerSecond replies =
      if cyclesPerSecond = 0 then .error .divisionByZero else
        if (elapse s cycles cyclesPerSecond).accTime < (elapse s cycles cyclesPerSecond).nextUpdate
          then .ok (elapse s cycles cyclesPerSecond)
          else advanceLoop (elapse s cycles cyclesPerSecond) replies := rfl

theorem Ledger.advance_scheduler (g : Ledger) (cycles cyclesPerSecond : Time)
    (replies : List Reply) :
    (g.advance cycles cyclesPerSecond replies).map Ledger.scheduler =
      Scheduling.advance g.scheduler cycles cyclesPerSecond replies := by
  rw [Ledger.advance, advance_eq_elapse]
  generalize elapse g.scheduler cycles cyclesPerSecond = s
  by_cases h0 : cyclesPerSecond = 0
  · rw [if_pos h0, if_pos h0]
    rfl
  rw [if_neg h0, if_neg h0]
  by_cases hlt : s.accTime < s.nextUpdate
  · simp only [hlt, if_true]
    rfl
  · simp only [hlt, if_false]
    exact Ledger.advanceLoop_scheduler _ replies

/-- The last update of every task is its start and the ticks handed over since. -/
def Ledger.Balanced (g : Ledger) : Prop :=
  ∀ t, (g.scheduler.tasks t).lastUpdate.toNat =
    (g.start t).toNat + g.handed t * (g.scheduler.tasks t).period.toNat

theorem rescheduleResult_of_scheduled {atLeast : Bool} {batchTicks : Ticks}
    (h : batchTicks = 0 ∨ (s.tasks t).batchedTicks ≠ 0) :
    (rescheduleResult atLeast s t batchTicks).lastUpdate = (s.tasks t).lastUpdate ∧
      (rescheduleResult atLeast s t batchTicks).period = (s.tasks t).period := by
  rw [rescheduleResult]
  split
  · simp
  · rename_i h0
    exact ⟨if_neg (h.resolve_left h0), rfl⟩

theorem Call.result_of_not_starts (h : c.starts s = false) :
    (c.result s).lastUpdate = (s.tasks c.task).lastUpdate ∧
      (c.result s).period = (s.tasks c.task).period := by
  cases c with
  | scheduleTask t period batchTicks => cases h
  | rescheduleTask t batchTicks =>
    refine rescheduleResult_of_scheduled ?_
    simpa [Call.starts, imp_iff_not_or] using h
  | rescheduleTaskAtLeast t batchTicks =>
    refine rescheduleResult_of_scheduled ?_
    simpa [Call.starts, imp_iff_not_or] using h
  | unscheduleTask t => exact ⟨rfl, rfl⟩

end Cloudpilot.Uarm.Scheduling
