import Cloudpilot.Library.Runs
import Cloudpilot.Uarm.Scheduling.Ticks

/-! # The moves of a run

A run is taken apart into moves that change one task at most, so that what a call does from
inside of a dispatch is said as if it were made outside.
-/

namespace Cloudpilot.Uarm.Scheduling

open Library.PartialRun BitVec

/-- What a run consists of: time passes, calls are made, `Advance` adds a batch to the last update
of the task that it has dispatched, and it looks for the next update. -/
inductive Move
  | elapse (cycles cyclesPerSecond : Time)
  | call (c : Call)
  | credit (t : TaskType)
  | settle

/-- The task whose batch has been dispatched. -/
def creditTask (s : Scheduler) (t : TaskType) : Scheduler :=
  setTask s t { s.tasks t with
    lastUpdate := (s.tasks t).lastUpdate +
      (s.tasks t).batchedTicks.setWidth 64 * (s.tasks t).period }

def Move.exec (s : Scheduler) : Move → Option Scheduler
  | .elapse cycles cyclesPerSecond => some (Scheduling.elapse s cycles cyclesPerSecond)
  | .call c => (c.exec s).toOption
  | .credit t => some (creditTask s t)
  | .settle => some (updateNextUpdate s)

section Moves

variable {s s' : Scheduler} {t : TaskType}

theorem toOption_eq_some {r : Except Fault Scheduler} : r.toOption = some s ↔ r = .ok s := by
  cases r with
  | error e => simp [Except.toOption]
  | ok s' => simp [Except.toOption]

end Moves

/-- A scheduler and the last update with which each task has started. -/
structure Started where
  scheduler : Scheduler
  start : TaskType → Option Time

namespace Started

def init : Started := ⟨Scheduling.init, fun _ => none⟩

/-- `ScheduleTask` starts its task, and so does the first call that gives ticks to it. -/
def startAfter (g : Started) (s' : Scheduler) : Call → TaskType → Option Time
  | .scheduleTask t _ _ => Function.update g.start t
      (if (s'.tasks t).batchedTicks = 0 then none else some (s'.tasks t).lastUpdate)
  | .rescheduleTask t _ | .rescheduleTaskAtLeast t _ | .unscheduleTask t =>
    if g.start t = none ∧ (s'.tasks t).batchedTicks ≠ 0 then
      Function.update g.start t (some (s'.tasks t).lastUpdate)
    else g.start

def exec (g : Started) (m : Move) : Option Started :=
  (m.exec g.scheduler).map fun s' => ⟨s', match m with
    | .call c => g.startAfter s' c
    | _ => g.start⟩

end Started

structure Resumes (g : Started) (m : Move) (s' : Scheduler) (t : TaskType) (n : Ticks)
    (start : Time) : Prop where
  exec : m.exec g.scheduler = some s'
  call : m = .call (.rescheduleTask t n) ∨ m = .call (.rescheduleTaskAtLeast t n)
  ticks : n ≠ 0
  idle : (g.scheduler.tasks t).batchedTicks = 0
  started : g.start t = some start

def batchFrom (g : Started) (c : Call) : ℕ :=
  match c with
  | .scheduleTask .. => (c.result g.scheduler).lastUpdate.toNat
  | _ => if (g.scheduler.tasks c.task).batchedTicks = 0 ∧ (g.start c.task).isSome then
      g.scheduler.accTime.toNat
    else (c.result g.scheduler).lastUpdate.toNat

def TimesFit (g : Started) : Move → Prop
  | .elapse cycles cyclesPerSecond =>
    g.scheduler.accTime ≤ (elapse g.scheduler cycles cyclesPerSecond).accTime
  | .call c => (c.result g.scheduler).batchedTicks ≠ 0 →
    0 < (c.result g.scheduler).period.toNat ∧
      batchFrom g c + (c.result g.scheduler).batchedTicks.toNat *
        (c.result g.scheduler).period.toNat < 2 ^ 64
  | .credit t =>
    (g.scheduler.tasks t).lastUpdate.toNat +
      (g.scheduler.tasks t).batchedTicks.toNat * (g.scheduler.tasks t).period.toNat < 2 ^ 64
  | .settle => True

section Grids

variable {time : ℕ} {period start x : ℤ}

variable {accTime nextUpdate p begin : Time}

end Grids

structure Task.OnGrid (task : Task) (accTime start : Time) : Prop where
  period : 0 < task.period.toNat
  start_le : start.toNat ≤ accTime.toNat
  last : (task.period.toNat : ℤ) ∣ (task.lastUpdate.toNat : ℤ) - start.toNat
  next : (task.period.toNat : ℤ) ∣ (task.nextUpdate.toNat : ℤ) - start.toNat

structure Started.Inv (g : Started) : Prop where
  grid : ∀ t start, g.start t = some start →
    (g.scheduler.tasks t).OnGrid g.scheduler.accTime start
  idle : ∀ t, g.start t = none → (g.scheduler.tasks t).batchedTicks = 0

variable {g g' : Started} {m : Move} {s s' : Scheduler} {t : TaskType} {n b : Ticks} {start : Time}

theorem Resumes.result (h : Resumes g m s' t n start) :
    ∃ b, s'.tasks t = rescheduledTask g.scheduler t b ∧
      (b = n ↔ (m = .call (.rescheduleTaskAtLeast t n) → atLeastTicks g.scheduler t n = n)) ∧
      (TimesFit g m → b ≠ 0 →
        g.scheduler.accTime.toNat + b.toNat * (g.scheduler.tasks t).period.toNat < 2 ^ 64) := by
  have hexec := h.exec
  rcases h.call with rfl | rfl
  · have hself := (rescheduleTaskImpl_changed (toOption_eq_some.mp hexec)).self
    rw [rescheduleResult, if_neg h.ticks, if_neg Bool.false_ne_true] at hself
    refine ⟨n, hself, by simp, fun hfit hb => ?_⟩
    have hresult : (Call.rescheduleTask t n).result g.scheduler =
        rescheduledTask g.scheduler t n := by grind [Call.result, rescheduleResult]
    have hfrom : batchFrom g (.rescheduleTask t n) = g.scheduler.accTime.toNat :=
      if_pos ⟨h.idle, Option.isSome_of_eq_some h.started⟩
    rw [TimesFit, hresult, hfrom] at hfit
    exact (hfit hb).2
  · have hself := (rescheduleTaskImpl_changed (toOption_eq_some.mp hexec)).self
    rw [rescheduleResult, if_neg h.ticks, if_pos rfl] at hself
    refine ⟨_, hself, by simp, fun hfit hb => ?_⟩
    have hresult : (Call.rescheduleTaskAtLeast t n).result g.scheduler =
        rescheduledTask g.scheduler t (atLeastTicks g.scheduler t n) := by
      rw [Call.result, rescheduleResult, if_neg h.ticks, if_pos rfl]
    have hfrom : batchFrom g (.rescheduleTaskAtLeast t n) = g.scheduler.accTime.toNat :=
      if_pos ⟨h.idle, Option.isSome_of_eq_some h.started⟩
    rw [TimesFit, hresult, hfrom] at hfit
    exact (hfit hb).2

theorem dvd_add_ticks {period last start : ℤ} {n : ℕ} (h : period ∣ last - start) :
    period ∣ last + n * period - start := by
  rw [add_sub_right_comm]
  exact dvd_add h (dvd_mul_left period n)

theorem Task.OnGrid.accTime_le {task : Task} {accTime accTime' : Time}
    (h : task.OnGrid accTime start) (hle : accTime ≤ accTime') : task.OnGrid accTime' start :=
  ⟨h.period, h.start_le.trans hle, h.last, h.next⟩

theorem Task.OnGrid.credit {accTime : Time} (h : (s.tasks t).OnGrid accTime start)
    (hfit : (s.tasks t).lastUpdate.toNat +
      (s.tasks t).batchedTicks.toNat * (s.tasks t).period.toNat < 2 ^ 64) :
    ((creditTask s t).tasks t).OnGrid accTime start := by
  rw [creditTask, tasks_setTask_self]
  refine ⟨h.period, h.start_le, ?_, h.next⟩
  rw [toNat_add_ticks hfit]
  exact dvd_add_ticks h.last

theorem Task.OnGrid.busy {accTime : Time} (h : (s.tasks t).OnGrid accTime start)
    (hbusy : (s.tasks t).batchedTicks ≠ 0)
    (hfit : (s.tasks t).lastUpdate.toNat + b.toNat * (s.tasks t).period.toNat < 2 ^ 64) :
    (rescheduledTask s t b).OnGrid accTime start := by
  have hlast : (rescheduledTask s t b).lastUpdate = (s.tasks t).lastUpdate := if_neg hbusy
  have hnext : (rescheduledTask s t b).nextUpdate =
      (s.tasks t).lastUpdate + b.setWidth 64 * (s.tasks t).period := by
    rw [← hlast]
    rfl
  refine ⟨h.period, h.start_le, hlast ▸ h.last, ?_⟩
  rw [hnext, toNat_add_ticks hfit]
  exact dvd_add_ticks h.last

theorem startAfter_of_ne {c : Call} {x : TaskType} (hx : x ≠ c.task) :
    g.startAfter s' c x = g.start x := by
  cases c with
  | scheduleTask t period n => exact Function.update_of_ne hx _ _
  | rescheduleTask t n | rescheduleTaskAtLeast t n | unscheduleTask t =>
    simp only [Started.startAfter]
    split
    · exact Function.update_of_ne hx _ _
    · rfl

/-- A call keeps the invariant if it does so for its own task. -/
theorem Started.Inv.call {c : Call} (hinv : g.Inv) (hc : c.exec g.scheduler = .ok s')
    (hgrid : ∀ start, g.startAfter s' c c.task = some start →
      (s'.tasks c.task).OnGrid s'.accTime start)
    (hidle : g.startAfter s' c c.task = none → (s'.tasks c.task).batchedTicks = 0) :
    Started.Inv ⟨s', g.startAfter s' c⟩ := by
  have hch := Call.exec_changed hc
  constructor
  · intro x start hx
    by_cases hxt : x = c.task
    · grind
    · simp only [startAfter_of_ne hxt] at hx
      simp only [hch.other x hxt, hch.time]
      exact hinv.grid x start hx
  · intro x hx
    by_cases hxt : x = c.task
    · subst hxt
      exact hidle hx
    · simp only [startAfter_of_ne hxt] at hx
      simp only [hch.other x hxt]
      exact hinv.idle x hx

instance (g : Started) : (m : Move) → Decidable (TimesFit g m)
  | .elapse .. => inferInstanceAs (Decidable (_ ≤ _))
  | .call _ => inferInstanceAs (Decidable (_ → _))
  | .credit _ => inferInstanceAs (Decidable (_ < _))
  | .settle => isTrue trivial

end Cloudpilot.Uarm.Scheduling
