import Mathlib.Data.Fintype.Card
import Cloudpilot.Uarm.Scheduling.Model

/-! # The queue invariant of the scheduler

Every run keeps the queue a finite list of exactly the tasks with batched ticks,
ordered by due time, as long as no call to `RescheduleTaskAtLeast` finds a multiple
of 2^32 accumulated ticks. Such a count is assigned to a 32 bit variable, and the
task is queued with a batch of zero ticks.
-/
namespace Cloudpilot.Uarm.Scheduling
open Library.LinkedQueue

/-- The queue is the list `l` of the tasks that have batched ticks, by due time. -/
structure QueueIs (s : Scheduler) (l : List TaskType) : Prop where
  spells : Spells s.queue none l
  nodup : l.Nodup
  mem_iff : ∀ t, t ∈ l ↔ (s.tasks t).batchedTicks ≠ 0
  sorted : l.Pairwise fun a b => (s.tasks a).nextUpdate ≤ (s.tasks b).nextUpdate
  head : ∀ t, s.queue none = some t → s.nextUpdate = (s.tasks t).nextUpdate

def QueueInv (s : Scheduler) : Prop := ∃ l, QueueIs s l

/-- The part of the invariant that says nothing about the task `t` itself. -/
structure QueueBut (s : Scheduler) (t : TaskType) (l : List TaskType) : Prop where
  spells : Spells s.queue none l
  mem_iff : ∀ x, x ≠ t → (x ∈ l ↔ (s.tasks x).batchedTicks ≠ 0)
  sorted : (l.erase t).Pairwise fun a b => (s.tasks a).nextUpdate ≤ (s.tasks b).nextUpdate

variable {s s' : Scheduler} {t : TaskType} {l : List TaskType}

theorem queueIs_init : QueueIs init [] where
  spells := rfl
  nodup := List.nodup_nil
  mem_iff := by simp [init]
  sorted := List.Pairwise.nil
  head := by simp [init]

theorem QueueIs.but (h : QueueIs s l) (t : TaskType) : QueueBut s t l where
  spells := h.spells
  mem_iff := fun x _ => h.mem_iff x
  sorted := h.sorted.sublist List.erase_sublist

theorem tasks_setTask_of_ne {x : TaskType} (hx : x ≠ t) (task : Task) :
    (setTask s t task).tasks x = s.tasks x := Function.update_of_ne hx _ _

@[simp] theorem tasks_setTask_self (task : Task) : (setTask s t task).tasks t = task :=
  Function.update_self _ _ _

@[simp] theorem queue_setTask (task : Task) : (setTask s t task).queue = s.queue := rfl

theorem mem_erase_ne (h : l.Nodup) {x : TaskType} (hx : x ∈ l.erase t) : x ≠ t :=
  (h.mem_erase_iff.mp hx).1

/-- The partial invariant does not depend on the record of its task. -/
theorem QueueBut.setTask (h : QueueBut s t l) (task : Task) : QueueBut (setTask s t task) t l where
  spells := h.spells
  mem_iff := by
    intro x hx
    rw [tasks_setTask_of_ne hx]
    exact h.mem_iff x hx
  sorted := by
    have hn := spells_nodup h.spells
    refine h.sorted.imp_of_mem ?_
    intro a b ha hb hab
    rw [tasks_setTask_of_ne (mem_erase_ne hn ha), tasks_setTask_of_ne (mem_erase_ne hn hb)]
    exact hab

theorem QueueBut.length_lt (h : QueueBut s t l) : l.length < loopLimit := by
  have hcard := (spells_nodup h.spells).length_le_card
  exact Nat.lt_succ_of_le hcard

theorem anchor_ne (xs : List TaskType) : ∀ x ∈ xs, (none : Option TaskType) ≠ some x :=
  fun x _ => (Option.some_ne_none x).symm

/-- `UpdateNextUpdate` establishes the last part of the invariant. -/
theorem queueIs_updateNextUpdate (hspell : Spells s.queue none l)
    (hmem : ∀ t, t ∈ l ↔ (s.tasks t).batchedTicks ≠ 0)
    (hsort : l.Pairwise fun a b => (s.tasks a).nextUpdate ≤ (s.tasks b).nextUpdate) :
    QueueIs (updateNextUpdate s) l where
  spells := hspell
  nodup := spells_nodup hspell
  mem_iff := hmem
  sorted := hsort
  head := by
    intro x hx
    have hx' : s.queue none = some x := hx
    simp only [updateNextUpdate, hx']

theorem QueueIs.updateNextUpdate (h : QueueIs s l) : QueueIs (updateNextUpdate s) l :=
  queueIs_updateNextUpdate h.spells h.mem_iff h.sorted

theorem unscheduleTask_queue (h : QueueBut s t l) :
    ∃ s', unscheduleTask s t = .ok s' ∧ QueueInv s' := by
  have h0 := h.setTask { s.tasks t with batchedTicks := 0 }
  have hn := spells_nodup h.spells
  obtain ⟨queue, hrun, hspell, -⟩ := unscheduleLoop_spec t h.spells (anchor_ne l) h.length_lt
  refine ⟨_, by simp only [unscheduleTask, queue_setTask, hrun]; rfl, l.erase t, ?_⟩
  refine queueIs_updateNextUpdate hspell ?_ h0.sorted
  intro x
  rw [hn.mem_erase_iff]
  by_cases hx : x = t
  · subst hx
    simp
  · simpa [hx] using h0.mem_iff x hx

/-- The insertion keeps the invariant when the task gets a batch of at least one tick. -/
theorem rescheduleLoop_queue {task : Task} (h : QueueBut s t l) (htask : task.batchedTicks ≠ 0) :
    ∃ queue, rescheduleLoop (fun x => ((setTask s t task).tasks x).nextUpdate) t task.nextUpdate
        (s.queue (some t)) loopLimit s.queue none false false = .ok queue ∧
      QueueInv (updateNextUpdate { setTask s t task with queue := queue }) := by
  have h0 := h.setTask task
  have hn := spells_nodup h.spells
  set due : TaskType → Time := fun x => ((setTask s t task).tasks x).nextUpdate with hdue
  have hself : task.nextUpdate = due t := by rw [hdue]; simp
  obtain ⟨queue, hrun, hspell, -⟩ := rescheduleLoop_spec due t (s.queue (some t)) h.spells
    (anchor_ne _) rfl h.length_lt
  rw [hself]
  refine ⟨queue, hrun, _, queueIs_updateNextUpdate hspell ?_ ?_⟩
  · intro x
    rw [mem_insertByRank, hn.mem_erase_iff]
    by_cases hx : x = t
    · subst hx
      simpa using htask
    · simpa [hx] using h0.mem_iff x hx
  · exact pairwise_insertByRank (dueRank due) t h0.sorted

/-- What a call may end in: a state with the invariant, or a division by zero. -/
inductive Keeps : Except Fault Scheduler → Prop
  | ok {s : Scheduler} (h : QueueInv s) : Keeps (.ok s)
  | divisionByZero : Keeps (.error .divisionByZero)

theorem keeps_of_ok {r : Except Fault Scheduler} (h : ∃ s', r = .ok s' ∧ QueueInv s') : Keeps r := by
  obtain ⟨s', rfl, hs⟩ := h
  exact .ok hs

theorem Keeps.bind {r : Except Fault Scheduler} {f : Scheduler → Except Fault Scheduler}
    (h : Keeps r) (hf : ∀ s', r = .ok s' → QueueInv s' → Keeps (f s')) : Keeps (r >>= f) := by
  cases h with
  | ok h => exact hf _ rfl h
  | divisionByZero => exact .divisionByZero

theorem rescheduleTaskImpl_keeps (h : QueueBut s t l) {atLeast : Bool} {batchTicks : Ticks}
    (hbatch : batchTicks ≠ 0 → atLeast = true → atLeastTicks s t batchTicks ≠ 0) :
    Keeps (rescheduleTaskImpl atLeast s t batchTicks) := by
  rw [rescheduleTaskImpl]
  by_cases h0 : batchTicks = 0
  · rw [if_pos h0]
    exact keeps_of_ok (unscheduleTask_queue h)
  rw [if_neg h0]
  by_cases hp : ((atLeast || (s.tasks t).batchedTicks = 0) && (s.tasks t).period = 0) = true
  · simp only [hp, if_true]
    exact .divisionByZero
  simp only [hp]
  set ticks := if atLeast then atLeastTicks s t batchTicks else batchTicks with hticks
  have hne : (rescheduledTask s t ticks).batchedTicks ≠ 0 := by
    cases atLeast with
    | false => simpa [hticks, rescheduledTask] using h0
    | true => simpa [hticks, rescheduledTask] using hbatch h0 rfl
  obtain ⟨queue, hrun, hinv⟩ := rescheduleLoop_queue h hne
  refine keeps_of_ok ⟨_, ?_, hinv⟩
  simp only [queue_setTask, hrun]
  rfl

/-- The call does not find a multiple of 2^32 accumulated ticks, more than it asks for. -/
def Call.Safe (s : Scheduler) : Call → Prop
  | .rescheduleTaskAtLeast taskType batchTicks =>
    batchTicks ≠ 0 → batchTicks.toNat < (accumulatedTicks s taskType).toNat →
      ¬ 2 ^ 32 ∣ (accumulatedTicks s taskType).toNat
  | _ => True

theorem atLeastTicks_ne_zero {batchTicks : Ticks} (h0 : batchTicks ≠ 0)
    (h : (Call.rescheduleTaskAtLeast t batchTicks).Safe s) : atLeastTicks s t batchTicks ≠ 0 := by
  rw [atLeastTicks]
  split
  · rename_i hlt
    intro e
    apply h h0 hlt
    apply Nat.dvd_of_mod_eq_zero
    simpa using congrArg BitVec.toNat e
  · exact h0

theorem Call.exec_keeps {c : Call} (h : QueueInv s) (hsafe : c.Safe s) : Keeps (c.exec s) := by
  obtain ⟨l, h⟩ := h
  cases c with
  | scheduleTask t period batchTicks =>
    exact rescheduleTaskImpl_keeps ((h.but t).setTask _) (fun _ e => Bool.noConfusion e)
  | rescheduleTask t batchTicks =>
    exact rescheduleTaskImpl_keeps (h.but t) (fun _ e => Bool.noConfusion e)
  | rescheduleTaskAtLeast t batchTicks =>
    exact rescheduleTaskImpl_keeps (h.but t) (fun h0 _ => atLeastTicks_ne_zero h0 hsafe)
  | unscheduleTask t => exact keeps_of_ok (unscheduleTask_queue (h.but t))

def CallsSafe : Scheduler → List Call → Prop
  | _, [] => True
  | s, c :: cs => c.Safe s ∧ ∀ s', c.exec s = .ok s' → CallsSafe s' cs

theorem calls_keep {cs : List Call} (h : QueueInv s) (hsafe : CallsSafe s cs) :
    Keeps (cs.foldlM Call.exec s) := by
  induction cs generalizing s with
  | nil => exact .ok h
  | cons c cs ih =>
    exact (c.exec_keeps h hsafe.1).bind fun s' hs' hinv => ih hinv (hsafe.2 s' hs')

theorem dispatch_keeps {reply : Reply} (h : QueueInv s) (hsafe : CallsSafe s reply.calls) :
    Keeps (dispatch s t reply) := by
  refine (calls_keep h hsafe).bind ?_
  rintro s' - ⟨l, hl⟩
  exact rescheduleTaskImpl_keeps ((hl.but t).setTask _) (fun _ e => Bool.noConfusion e)

/-- The calls the delegate makes while tasks are due are safe. -/
def RepliesSafe : Scheduler → List Reply → Prop
  | _, [] => True
  | s, reply :: replies =>
    ∀ t, s.queue none = some t → ¬ s.accTime < (s.tasks t).nextUpdate →
      CallsSafe s reply.calls ∧ ∀ s', dispatch s t reply = .ok s' → RepliesSafe s' replies

theorem advanceLoop_keeps {replies : List Reply} (h : QueueInv s) (hsafe : RepliesSafe s replies) :
    Keeps (advanceLoop s replies) := by
  induction replies generalizing s with
  | nil =>
    rw [advanceLoop]
    cases hq : s.queue none with
    | none => exact .ok (h.imp fun _ hl => hl.updateNextUpdate)
    | some t =>
      simp only
      split
      · exact .ok (h.imp fun _ hl => hl.updateNextUpdate)
      · exact .ok h
  | cons reply replies ih =>
    rw [advanceLoop]
    cases hq : s.queue none with
    | none => exact .ok (h.imp fun _ hl => hl.updateNextUpdate)
    | some t =>
      simp only
      split
      · exact .ok (h.imp fun _ hl => hl.updateNextUpdate)
      · rename_i hdue
        obtain ⟨hcalls, hrest⟩ := hsafe t hq hdue
        exact (dispatch_keeps h hcalls).bind fun s' hs' hinv => ih hinv (hrest s' hs')

/-- The state in which `Advance` looks at the queue. -/
def elapse (s : Scheduler) (cycles cyclesPerSecond : Time) : Scheduler :=
  { s with accTime := s.accTime + cycles * oneSec / cyclesPerSecond }

theorem nextUpdate_elapse (s : Scheduler) (cycles cyclesPerSecond : Time) :
    (elapse s cycles cyclesPerSecond).nextUpdate = s.nextUpdate := by
  rw [elapse]

theorem tasks_elapse (s : Scheduler) (cycles cyclesPerSecond : Time) :
    (elapse s cycles cyclesPerSecond).tasks = s.tasks := by
  rw [elapse]

theorem queue_elapse (s : Scheduler) (cycles cyclesPerSecond : Time) :
    (elapse s cycles cyclesPerSecond).queue = s.queue := by
  rw [elapse]

theorem QueueInv.setTime (h : QueueInv s) (accTime : Time) :
    QueueInv { s with accTime := accTime } :=
  h.imp fun _ hl => ⟨hl.spells, hl.nodup, hl.mem_iff, hl.sorted, hl.head⟩

def Op.Safe (s : Scheduler) : Op → Prop
  | .call c => c.Safe s
  | .advance cycles cyclesPerSecond replies => RepliesSafe (elapse s cycles cyclesPerSecond) replies

theorem Op.exec_keeps {op : Op} (h : QueueInv s) (hsafe : op.Safe s) : Keeps (op.exec s) := by
  cases op with
  | call c => exact c.exec_keeps h hsafe
  | advance cycles cyclesPerSecond replies =>
    simp only [Op.exec, Scheduling.advance]
    split
    · exact .divisionByZero
    split
    · exact .ok (h.setTime _)
    · exact advanceLoop_keeps (h.setTime _) hsafe

/-- Each call of a run, from outside and from the delegate, is safe in the state it is made in. -/
def OpsSafe : Scheduler → List Op → Prop
  | _, [] => True
  | s, op :: ops => op.Safe s ∧ ∀ s', op.exec s = .ok s' → OpsSafe s' ops

theorem run_keeps {ops : List Op} (h : QueueInv s) (hsafe : OpsSafe s ops) :
    Keeps (run s ops) := by
  induction ops generalizing s with
  | nil => exact .ok h
  | cons op ops ih =>
    exact (op.exec_keeps h hsafe.1).bind fun s' hs' hinv => ih hinv (hsafe.2 s' hs')

/-- Along every run whose calls are safe, the queue is the finite list of the tasks
with batched ticks, ordered by due time. The loops over it terminate: a run ends
early only where the code divides by zero. -/
theorem run_queue (ops : List Op) (hsafe : OpsSafe init ops) : Keeps (run init ops) :=
  run_keeps ⟨[], queueIs_init⟩ hsafe

instance decidableAfter {P : Scheduler → Prop} [∀ s, Decidable (P s)] :
    (r : Except Fault Scheduler) → Decidable (∀ s', r = .ok s' → P s')
  | .ok s => decidable_of_iff (P s) (by simp)
  | .error _ => isTrue (by simp)

instance decidableEnds {P : Scheduler → Prop} [∀ s, Decidable (P s)] :
    (r : Except Fault Scheduler) → Decidable (∃ s, r = .ok s ∧ P s)
  | .ok s => decidable_of_iff (P s) (by simp)
  | .error _ => isFalse (by simp)

instance (s : Scheduler) : (c : Call) → Decidable (c.Safe s)
  | .scheduleTask .. => isTrue trivial
  | .rescheduleTask .. => isTrue trivial
  | .rescheduleTaskAtLeast .. => inferInstanceAs (Decidable (_ → _ → ¬ _))
  | .unscheduleTask _ => isTrue trivial

instance decidableCallsSafe : (s : Scheduler) → (cs : List Call) → Decidable (CallsSafe s cs)
  | _, [] => isTrue trivial
  | s, c :: cs =>
    have := fun s' => decidableCallsSafe s' cs
    inferInstanceAs (Decidable (c.Safe s ∧ ∀ s', c.exec s = .ok s' → CallsSafe s' cs))

instance decidableRepliesSafe :
    (s : Scheduler) → (replies : List Reply) → Decidable (RepliesSafe s replies)
  | _, [] => isTrue trivial
  | s, reply :: replies =>
    have := fun s' => decidableRepliesSafe s' replies
    inferInstanceAs (Decidable (∀ t, s.queue none = some t →
      ¬ s.accTime < (s.tasks t).nextUpdate →
        CallsSafe s reply.calls ∧ ∀ s', dispatch s t reply = .ok s' → RepliesSafe s' replies))

instance (s : Scheduler) : (op : Op) → Decidable (op.Safe s)
  | .call c => inferInstanceAs (Decidable (c.Safe s))
  | .advance cycles cyclesPerSecond replies =>
    inferInstanceAs (Decidable (RepliesSafe (elapse s cycles cyclesPerSecond) replies))

instance decidableOpsSafe : (s : Scheduler) → (ops : List Op) → Decidable (OpsSafe s ops)
  | _, [] => isTrue trivial
  | s, op :: ops =>
    have := fun s' => decidableOpsSafe s' ops
    inferInstanceAs (Decidable (op.Safe s ∧ ∀ s', op.exec s = .ok s' → OpsSafe s' ops))

def nestedRun : List Op :=
  [.call (.scheduleTask 0 10 3), .call (.scheduleTask 1 10 2), .call (.rescheduleTaskAtLeast 0 1),
    .advance 25 1000000000 [⟨[.rescheduleTaskAtLeast 1 1, .unscheduleTask 0], 4⟩]]

theorem run_queue_nestedRun : OpsSafe init nestedRun ∧ Keeps (run init nestedRun) := by
  have hsafe : OpsSafe init nestedRun := by decide +kernel
  exact ⟨hsafe, run_queue nestedRun hsafe⟩

/-- A task with a period of 1 ns that was last updated 2^32 ns ago. -/
def truncatedRun : List Op :=
  [.call (.scheduleTask 0 1 1), .call (.unscheduleTask 0), .advance 4294967296 1000000000 [],
    .call (.rescheduleTaskAtLeast 0 1)]

/-- The 2^32 accumulated ticks become a batch of zero ticks, and the task is queued with it. -/
theorem run_truncatedRun_not_queueInv :
    ∃ s, run init truncatedRun = .ok s ∧ s.accTime = 4294967296 ∧ s.queue none = some 0 ∧
      (s.tasks 0).batchedTicks = 0 ∧ ¬ QueueInv s := by
  have hrun : ∃ s, run init truncatedRun = .ok s ∧ s.accTime = 4294967296 ∧
      s.queue none = some 0 ∧ (s.tasks 0).batchedTicks = 0 := by decide +kernel
  obtain ⟨s, hs, htime, hhead, hzero⟩ := hrun
  refine ⟨s, hs, htime, hhead, hzero, ?_⟩
  rintro ⟨l, hl⟩
  exact (hl.mem_iff 0).mp (mem_of_link hl.spells hhead) hzero

end Cloudpilot.Uarm.Scheduling
