import Mathlib.Logic.Function.Basic
import Mathlib.Tactic
import Cloudpilot.Library.LinkedQueue

/-! # The task scheduler of the PXA SoC

`queue` is the array of links with the anchor at index -1. An index or a link is
`some` task or `none`: as an index the anchor, as a link `SCHEDULER_TASK_NONE`.
Times, periods and tick counts wrap as `uint64_t` and `uint32_t` do. Dividing by a
zero period, or by a zero clock rate, ends the program.
-/

namespace Cloudpilot.Uarm.Scheduling

/-- The eight task slots `SCHEDULER_TASK_TIMER` to `SCHEDULER_TASK_AUX_3`. -/
abbrev TaskType := Fin 8

instance neZero_eight : NeZero 8 := inferInstance

abbrev Time := BitVec 64
abbrev Ticks := BitVec 32

structure Task where
  batchedTicks : Ticks
  period : Time
  lastUpdate : Time
  nextUpdate : Time

structure Scheduler where
  tasks : TaskType → Task
  queue : Option TaskType → Option TaskType
  accTime : Time
  nextUpdate : Time

/-- Why a call has no resulting state. The loop limit is a device of the model: it
is larger than the number of links, and only a cyclic queue can exhaust it. -/
inductive Fault where
  | divisionByZero
  | loopLimit
  deriving DecidableEq, Repr

def oneSec : Time := 1000000000

def init : Scheduler where
  tasks := fun _ => ⟨0, 0, 0, 0⟩
  queue := fun _ => none
  accTime := 0
  nextUpdate := oneSec

def loopLimit : ℕ := 9

abbrev Links := Option TaskType → Option TaskType

def setTask (s : Scheduler) (taskType : TaskType) (task : Task) : Scheduler :=
  { s with tasks := Function.update s.tasks taskType task }

def updateNextUpdate (s : Scheduler) : Scheduler :=
  { s with nextUpdate := match s.queue none with
      | some taskType => (s.tasks taskType).nextUpdate
      | none => s.accTime + oneSec }

/-- The loop of `UnscheduleTask`: unlink the task behind the first position that leads to it. -/
def unscheduleLoop (taskType : TaskType) :
    ℕ → Links → Option TaskType → Except Fault Links
  | 0, _, _ => .error .loopLimit
  | limit + 1, queue, idx =>
    if queue idx = some taskType then .ok (Function.update queue idx (queue (some taskType)))
    else match queue idx with
      | none => .ok queue
      | some next => unscheduleLoop taskType limit queue (some next)

def unscheduleTask (s : Scheduler) (taskType : TaskType) : Except Fault Scheduler := do
  let s := setTask s taskType { s.tasks taskType with batchedTicks := 0 }
  let queue ← unscheduleLoop taskType loopLimit s.queue none
  return updateNextUpdate { s with queue := queue }

/-- The do/while loop of `RescheduleTaskImpl`. One pass removes the task behind the
position that leads to it and inserts it before the first task that is due later,
in whichever order the two positions come. `nextBefore` is the link of the task
before the loop. -/
def rescheduleLoop (due : TaskType → Time) (taskType : TaskType) (nextUpdate : Time)
    (nextBefore : Option TaskType) :
    ℕ → Links → Option TaskType → Bool → Bool → Except Fault Links
  | 0, _, _, _, _ => .error .loopLimit
  | limit + 1, queue, idx, inserted, deleted =>
    let found : Bool := queue idx = some taskType
    let next := if found then nextBefore else queue idx
    let queue := if found then Function.update queue idx nextBefore else queue
    let deleted := deleted || found
    if found && inserted then .ok queue else
      let here : Bool := !inserted && match next with
        | none => true
        | some n => nextUpdate < due n
      let queue := if here then
        Function.update (Function.update queue idx (some taskType)) (some taskType) next else queue
      if here && deleted then .ok queue else
        match next with
        | none => .ok queue
        | some n =>
          rescheduleLoop due taskType nextUpdate nextBefore limit queue (some n)
            (inserted || here) deleted

def accumulatedTicks (s : Scheduler) (taskType : TaskType) : Time :=
  (s.accTime - (s.tasks taskType).lastUpdate) / (s.tasks taskType).period

/-- The batch size `RescheduleTaskAtLeast` asks for: the accumulated ticks, if there
are more of them, assigned to a 32 bit variable. -/
def atLeastTicks (s : Scheduler) (taskType : TaskType) (batchTicks : Ticks) : Ticks :=
  if batchTicks.setWidth 64 < accumulatedTicks s taskType then
    (accumulatedTicks s taskType).setWidth 32 else batchTicks

/-- The task as `RescheduleTaskImpl` leaves it. A task that is not scheduled is first
moved to the last point of its tick grid. -/
def rescheduledTask (s : Scheduler) (taskType : TaskType) (batchTicks : Ticks) : Task :=
  let task := s.tasks taskType
  let lastUpdate := if task.batchedTicks = 0 then
    (s.accTime - task.nextUpdate) / task.period * task.period + task.nextUpdate
    else task.lastUpdate
  { task with
    lastUpdate := lastUpdate
    batchedTicks := batchTicks
    nextUpdate := lastUpdate + batchTicks.setWidth 64 * task.period }

def rescheduleTaskImpl (atLeast : Bool) (s : Scheduler) (taskType : TaskType)
    (batchTicks : Ticks) : Except Fault Scheduler :=
  if batchTicks = 0 then unscheduleTask s taskType else do
    let task := s.tasks taskType
    if (atLeast || task.batchedTicks = 0) && task.period = 0 then throw .divisionByZero
    let batchTicks := if atLeast then atLeastTicks s taskType batchTicks else batchTicks
    let task := rescheduledTask s taskType batchTicks
    let s := setTask s taskType task
    let queue ← rescheduleLoop (fun t => (s.tasks t).nextUpdate) taskType task.nextUpdate
      (s.queue (some taskType)) loopLimit s.queue none false false
    return updateNextUpdate { s with queue := queue }

def rescheduleTask (s : Scheduler) (taskType : TaskType) (batchTicks : Ticks) :
    Except Fault Scheduler := rescheduleTaskImpl false s taskType batchTicks

def rescheduleTaskAtLeast (s : Scheduler) (taskType : TaskType) (batchTicks : Ticks) :
    Except Fault Scheduler := rescheduleTaskImpl true s taskType batchTicks

def scheduleTask (s : Scheduler) (taskType : TaskType) (period : Time) (batchTicks : Ticks) :
    Except Fault Scheduler :=
  let task := { s.tasks taskType with period := period, lastUpdate := s.accTime, batchedTicks := 0 }
  rescheduleTask (setTask s taskType task) taskType batchTicks

def cyclesToNextUpdate (s : Scheduler) (cyclesPerSecond : Time) : Time :=
  (s.nextUpdate - s.accTime) * cyclesPerSecond / oneSec + 1

/-- The calls a client, or the delegate from inside a dispatch, can make. -/
inductive Call where
  | scheduleTask (taskType : TaskType) (period : Time) (batchTicks : Ticks)
  | rescheduleTask (taskType : TaskType) (batchTicks : Ticks)
  | rescheduleTaskAtLeast (taskType : TaskType) (batchTicks : Ticks)
  | unscheduleTask (taskType : TaskType)

def Call.exec (s : Scheduler) : Call → Except Fault Scheduler
  | .scheduleTask taskType period batchTicks => Scheduling.scheduleTask s taskType period batchTicks
  | .rescheduleTask taskType batchTicks => Scheduling.rescheduleTask s taskType batchTicks
  | .rescheduleTaskAtLeast taskType batchTicks =>
    Scheduling.rescheduleTaskAtLeast s taskType batchTicks
  | .unscheduleTask taskType => Scheduling.unscheduleTask s taskType

/-- What `DispatchTicks` does in one dispatch: calls back into the scheduler, then a return value. -/
structure Reply where
  calls : List Call
  batchTicks : Ticks

/-- One dispatch of the task at the head of the queue. The task is read again after
the delegate returned. -/
def dispatch (s : Scheduler) (taskType : TaskType) (reply : Reply) : Except Fault Scheduler := do
  let s ← reply.calls.foldlM Call.exec s
  let task := s.tasks taskType
  let task := { task with
    lastUpdate := task.lastUpdate + task.batchedTicks.setWidth 64 * task.period }
  rescheduleTaskImpl false (setTask s taskType task) taskType reply.batchTicks

/-- The loop of `Advance`, one reply of the delegate per dispatch. Where the replies
end before the due tasks do, the run stops inside the delegate. -/
def advanceLoop : Scheduler → List Reply → Except Fault Scheduler
  | s, replies =>
    match s.queue none with
    | none => .ok (updateNextUpdate s)
    | some taskType =>
      if s.accTime < (s.tasks taskType).nextUpdate then .ok (updateNextUpdate s) else
        match replies with
        | [] => .ok s
        | reply :: replies => do
          let s ← dispatch s taskType reply
          advanceLoop s replies

def advance (s : Scheduler) (cycles cyclesPerSecond : Time) (replies : List Reply) :
    Except Fault Scheduler :=
  if cyclesPerSecond = 0 then .error .divisionByZero else
    let s := { s with accTime := s.accTime + cycles * oneSec / cyclesPerSecond }
    if s.accTime < s.nextUpdate then .ok s else advanceLoop s replies

/-- Steps of a run. -/
inductive Op where
  | call (c : Call)
  | advance (cycles cyclesPerSecond : Time) (replies : List Reply)

def Op.exec (s : Scheduler) : Op → Except Fault Scheduler
  | .call c => c.exec s
  | .advance cycles cyclesPerSecond replies => Scheduling.advance s cycles cyclesPerSecond replies

def run (s : Scheduler) (ops : List Op) : Except Fault Scheduler := ops.foldlM Op.exec s

open Library.LinkedQueue List

/-- Nothing outside the start position and the listed cells has changed. -/
def Framed (queue queue' : Links) (p : Option TaskType) (xs : List TaskType) : Prop :=
  ∀ q, q ≠ p → (∀ x ∈ xs, q ≠ some x) → queue' q = queue q

theorem some_ne_some_of_notMem {x : TaskType} {xs : List TaskType} (h : x ∉ xs) :
    ∀ y ∈ xs, (some x : Option TaskType) ≠ some y := by
  intro y hy e
  exact h (Option.some.inj e ▸ hy)

theorem spells_update {queue : Links} {p q : Option TaskType} {xs : List TaskType}
    (hp : ∀ x ∈ xs, p ≠ some x) (h : LeadsTo queue q xs) :
    Spells (Function.update queue p q) p xs := by
  rw [spells_iff_leadsTo, Function.update_self]
  exact (leadsTo_congr fun x hx => Function.update_of_ne (hp x hx).symm _ _).mpr h

theorem framed_update {queue : Links} {p q : Option TaskType} {xs : List TaskType} :
    Framed queue (Function.update queue p q) p xs :=
  fun _ hr _ => Function.update_of_ne hr _ _

theorem spells_cons {queue queue' : Links} {p : Option TaskType} {x : TaskType}
    {xs ys : List TaskType} (hlink : queue p = some x) (hp : ∀ y ∈ x :: xs, p ≠ some y)
    (hspell : Spells queue' (some x) ys) (hframe : Framed queue queue' (some x) xs) :
    Spells queue' p (x :: ys) := by
  refine ⟨?_, hspell⟩
  rw [hframe p (hp x (by simp)) fun y hy => hp y (by simp [hy]), hlink]

theorem framed_cons {queue queue' : Links} {p : Option TaskType} {x : TaskType}
    {xs : List TaskType} (hframe : Framed queue queue' (some x) xs) :
    Framed queue queue' p (x :: xs) :=
  fun q _ hq => hframe q (hq x (by simp)) fun y hy => hq y (by simp [hy])

theorem unscheduleLoop_spec (t : TaskType) {queue : Links} {p : Option TaskType}
    {xs : List TaskType} {limit : ℕ} (h : Spells queue p xs) (hp : ∀ x ∈ xs, p ≠ some x)
    (hl : xs.length < limit) :
    ∃ queue', unscheduleLoop t limit queue p = .ok queue' ∧ Spells queue' p (xs.erase t) ∧
      Framed queue queue' p xs := by
  induction xs generalizing p limit with
  | nil =>
    obtain ⟨limit, rfl⟩ : ∃ n, limit = n + 1 := ⟨limit - 1, by omega⟩
    have hlink : queue p = none := h
    exact ⟨queue, by simp [unscheduleLoop, hlink], by simpa using h, fun _ _ _ => rfl⟩
  | cons x xs ih =>
    obtain ⟨limit, rfl⟩ : ∃ n, limit = n + 1 := ⟨limit - 1, by simp at hl; omega⟩
    have hn := nodup_cons.mp (spells_nodup h)
    obtain ⟨hlink, hrest⟩ := h
    by_cases hx : x = t
    · subst hx
      refine ⟨Function.update queue p (queue (some x)), by simp [unscheduleLoop, hlink], ?_,
        framed_update⟩
      rw [erase_cons_head]
      exact spells_update (fun y hy => hp y (by simp [hy])) (spells_iff_leadsTo.mp hrest)
    · obtain ⟨queue', hrun, hspell, hframe⟩ :=
        ih hrest (some_ne_some_of_notMem hn.1) (by simpa using hl)
      refine ⟨queue', by simp [unscheduleLoop, hlink, hx, hrun], ?_, framed_cons hframe⟩
      rw [erase_cons_tail (by simpa using hx)]
      exact spells_cons hlink hp hspell hframe

section Reschedule
variable (due : TaskType → Time) (t : TaskType) (nextBefore : Option TaskType)

variable {p : Option TaskType}

theorem rescheduleLoop_inserted_absent {queue : Links} {xs : List TaskType} {limit : ℕ}
    (h : Spells queue p xs) (ht : t ∉ xs) (hl : xs.length < limit) :
    rescheduleLoop due t (due t) nextBefore limit queue p true false = .ok queue := by
  induction xs generalizing p limit with
  | nil =>
    obtain ⟨limit, rfl⟩ : ∃ n, limit = n + 1 := ⟨limit - 1, by omega⟩
    have hlink : queue p = none := h
    simp [rescheduleLoop, hlink]
  | cons x xs ih =>
    obtain ⟨limit, rfl⟩ : ∃ n, limit = n + 1 := ⟨limit - 1, by simp at hl; omega⟩
    obtain ⟨hlink, hrest⟩ := h
    have hx : x ≠ t := fun e => ht (by simp [e])
    simpa [rescheduleLoop, hlink, hx] using
      ih hrest (fun hm => ht (by simp [hm])) (by simpa using hl)

/-- After the insertion, the old place of the task is unlinked. Its own link is
already overwritten, so its old successor comes from `nextBefore`. -/
theorem rescheduleLoop_inserted_present {queue : Links} {ys zs : List TaskType} {limit : ℕ}
    (hseg : Segment queue p ys (some t)) (hz : LeadsTo queue nextBefore zs) (ht : t ∉ ys)
    (hp : ∀ x ∈ ys ++ zs, p ≠ some x) (hn : (ys ++ zs).Nodup) (hl : ys.length < limit) :
    ∃ queue', rescheduleLoop due t (due t) nextBefore limit queue p true false = .ok queue' ∧
      Spells queue' p (ys ++ zs) ∧ Framed queue queue' p ys := by
  induction ys generalizing p limit with
  | nil =>
    obtain ⟨limit, rfl⟩ : ∃ n, limit = n + 1 := ⟨limit - 1, by omega⟩
    have hlink : queue p = some t := hseg
    exact ⟨_, by simp [rescheduleLoop, hlink], spells_update hp hz, framed_update⟩
  | cons y ys ih =>
    obtain ⟨limit, rfl⟩ : ∃ n, limit = n + 1 := ⟨limit - 1, by simp at hl; omega⟩
    obtain ⟨hlink, hrest⟩ := hseg
    have hy : y ≠ t := fun e => ht (by simp [e])
    rw [cons_append, nodup_cons] at hn
    obtain ⟨queue', hrun, hspell, hframe⟩ := ih hrest (fun hm => ht (by simp [hm]))
      (some_ne_some_of_notMem hn.1) hn.2 (by simpa using hl)
    refine ⟨queue', by simpa [rescheduleLoop, hlink, hy] using hrun, ?_, framed_cons hframe⟩
    refine ⟨?_, hspell⟩
    rw [hframe p (hp y (by simp)) fun x hx => hp x (by simp [hx]), hlink]

/-- The rank the loop compares by. -/
def dueRank (x : TaskType) : ℕ := (due x).toNat

theorem spells_insert {queue : Links} {xs : List TaskType} (h : Spells queue p xs)
    (hp : ∀ x ∈ t :: xs, p ≠ some x) (ht : t ∉ xs) :
    Spells (Function.update (Function.update queue p (some t)) (some t) (queue p)) p (t :: xs) := by
  constructor
  · grind
  · refine spells_update (some_ne_some_of_notMem ht) ?_
    rw [leadsTo_congr fun x hx => Function.update_of_ne (hp x (by simp [hx])).symm _ _]
    exact spells_iff_leadsTo.mp h

theorem framed_insert {queue : Links} {q : Option TaskType} {xs : List TaskType} :
    Framed queue (Function.update (Function.update queue p (some t)) (some t) q) p (t :: xs) := by
  intro r hr hx
  rw [Function.update_of_ne (hx t (by simp)), Function.update_of_ne hr]

theorem rescheduleLoop_deleted {queue : Links} {xs : List TaskType} {limit : ℕ}
    (h : Spells queue p xs) (hp : ∀ x ∈ t :: xs, p ≠ some x) (ht : t ∉ xs) (hl : xs.length < limit)
    : ∃ queue', rescheduleLoop due t (due t) nextBefore limit queue p false true = .ok queue' ∧
      Spells queue' p (insertByRank (dueRank due) t xs) ∧ Framed queue queue' p (t :: xs) := by
  induction xs generalizing p limit with
  | nil =>
    obtain ⟨limit, rfl⟩ : ∃ n, limit = n + 1 := ⟨limit - 1, by omega⟩
    have hlink : queue p = none := h
    refine ⟨_, by simp [rescheduleLoop, hlink]; rfl, ?_, framed_insert t⟩
    simpa only [hlink, insertByRank] using spells_insert t h hp ht
  | cons x xs ih =>
    obtain ⟨limit, rfl⟩ : ∃ n, limit = n + 1 := ⟨limit - 1, by simp at hl; omega⟩
    have hn := nodup_cons.mp (spells_nodup h)
    have hlink : queue p = some x := h.1
    have hx : x ≠ t := fun e => ht (by simp [e])
    by_cases hd : due t < due x
    · have hr : dueRank due t < dueRank due x := hd
      refine ⟨_, by simp [rescheduleLoop, hlink, hx, hd]; rfl, ?_, framed_insert t⟩
      rw [insertByRank, if_pos hr]
      simpa only [hlink] using spells_insert t h hp ht
    · have hr : ¬ dueRank due t < dueRank due x := hd
      obtain ⟨queue', hrun, hspell, hframe⟩ := ih h.2
        (some_ne_some_of_notMem (by simp [hx, hn.1])) (fun hm => ht (by simp [hm]))
        (by simpa using hl)
      have hframe' : Framed queue queue' p (t :: x :: xs) := fun q hq hqx =>
        hframe q (hqx x (by simp)) fun y hy => hqx y (by simp at hy ⊢; tauto)
      refine ⟨queue', by simpa [rescheduleLoop, hlink, hx, hd] using hrun, ?_, hframe'⟩
      rw [insertByRank, if_neg hr]
      refine ⟨?_, hspell⟩
      rw [hframe p (hp x (by simp)) fun y hy => hp y (by simp at hy ⊢; tauto), hlink]

/-- Reaching the task first, the loop deletes it and goes on as if it had not been queued. -/
theorem rescheduleLoop_found {queue : Links} {limit : ℕ} (hlink : queue p = some t)
    (hnext : nextBefore ≠ some t) :
    rescheduleLoop due t (due t) nextBefore (limit + 1) queue p false false =
      rescheduleLoop due t (due t) nextBefore (limit + 1) (Function.update queue p nextBefore) p
        false true := by
  simp [rescheduleLoop, hlink, hnext]

theorem rescheduleLoop_insert_here {queue : Links} {x : TaskType} {xs : List TaskType} {limit : ℕ}
    (h : Spells queue p (x :: xs)) (hp : ∀ y ∈ t :: x :: xs, p ≠ some y) (hx : x ≠ t)
    (hd : due t < due x) (hl : (x :: xs).length < limit + 1) :
    ∃ queue', rescheduleLoop due t (due t) (queue (some t)) (limit + 1) queue p false false =
        .ok queue' ∧ Spells queue' p (t :: x :: xs.erase t) ∧
      Framed queue queue' p (t :: x :: xs) := by
  have hn := nodup_cons.mp (spells_nodup h)
  have hlink : queue p = some x := h.1
  set queue1 : Links := Function.update (Function.update queue p (some t)) (some t) (some x)
    with hqueue1
  have hstep : rescheduleLoop due t (due t) (queue (some t)) (limit + 1) queue p false false =
      rescheduleLoop due t (due t) (queue (some t)) limit queue1 (some x) true false := by
    simp [rescheduleLoop, hlink, hx, hd, hqueue1]
  have hsame : ∀ y ∈ x :: xs, y ≠ t → queue1 (some y) = queue (some y) := by grind
  have hq1p : queue1 p = some t := by grind
  have hq1t : queue1 (some t) = some x := by rw [hqueue1, Function.update_self]
  rw [hstep]
  by_cases ht : t ∈ xs
  · obtain ⟨ys, zs, rfl, hty, htz, hseg, hz⟩ := spells_split h.2 ht
    have hn' : x ∉ ys ++ zs ∧ (ys ++ zs).Nodup := by
      rw [nodup_middle, nodup_cons] at hn
      exact ⟨fun hm => hn.1 (by simp at hm ⊢; tauto), hn.2.2⟩
    have hlen : ys.length < limit := by
      simp at hl
      omega
    obtain ⟨queue', hrun, hspell, hframe⟩ := rescheduleLoop_inserted_present due t (queue (some t))
      ((segment_congr (hsame x (by simp) hx) fun y hy =>
        hsame y (by simp [hy]) fun e => hty (e ▸ hy)).mpr hseg)
      ((leadsTo_congr fun y hy => hsame y (by simp [hy]) fun e => htz (e ▸ hy)).mpr hz)
      hty (some_ne_some_of_notMem hn'.1) hn'.2 hlen
    refine ⟨queue', hrun, ⟨?_, ?_, ?_⟩, ?_⟩
    · rw [hframe p (hp x (by simp)) fun y hy => hp y (by simp [hy]), hq1p]
    · rw [hframe (some t) (by simpa using hx.symm) (some_ne_some_of_notMem hty), hq1t]
    · rwa [erase_append_right _ hty, erase_cons_head]
    · intro q hq hqx
      rw [hframe q (hqx x (by simp)) fun y hy => hqx y (by simp [hy])]
      exact framed_insert t q hq hqx
  · have hspell1 : Spells queue1 (some x) xs :=
      (segment_congr (hsame x (by simp) hx) fun y hy =>
        hsame y (by simp [hy]) fun e => ht (e ▸ hy)).mpr h.2
    refine ⟨queue1, rescheduleLoop_inserted_absent due t _ hspell1 ht (by simp at hl; omega),
      ⟨hq1p, hq1t, ?_⟩, framed_insert t⟩
    rwa [erase_of_not_mem ht]

theorem rescheduleLoop_spec {queue : Links} {xs : List TaskType} {limit : ℕ} (h : Spells queue p xs)
    (hp : ∀ x ∈ t :: xs, p ≠ some x) (hnext : nextBefore = queue (some t)) (hl : xs.length < limit)
    : ∃ queue', rescheduleLoop due t (due t) nextBefore limit queue p false false = .ok queue' ∧
      Spells queue' p (insertByRank (dueRank due) t (xs.erase t)) ∧
      Framed queue queue' p (t :: xs) := by
  subst hnext
  induction xs generalizing p limit with
  | nil =>
    obtain ⟨limit, rfl⟩ : ∃ n, limit = n + 1 := ⟨limit - 1, by omega⟩
    have hlink : queue p = none := h
    refine ⟨_, by simp [rescheduleLoop, hlink]; rfl, ?_, framed_insert t⟩
    simpa only [hlink, insertByRank, erase_nil] using spells_insert t h hp (by simp)
  | cons x xs ih =>
    obtain ⟨limit, rfl⟩ : ∃ n, limit = n + 1 := ⟨limit - 1, by simp at hl; omega⟩
    have hn := nodup_cons.mp (spells_nodup h)
    have hlink : queue p = some x := h.1
    by_cases hx : x = t
    · subst hx
      have hself : queue (some x) ≠ some x := fun e => hn.1 (mem_of_link h.2 e)
      have hlen : xs.length < limit + 1 := by grind
      rw [rescheduleLoop_found due x _ hlink hself, erase_cons_head]
      obtain ⟨queue', hrun, hspell, hframe⟩ := rescheduleLoop_deleted due x (queue (some x))
        (spells_update (fun y hy => hp y (by simp [hy])) (spells_iff_leadsTo.mp h.2))
        (fun y hy => hp y (by simp at hy ⊢; tauto)) hn.1 hlen
      refine ⟨queue', hrun, hspell, fun q hq hqx => ?_⟩
      rw [hframe q hq fun y hy => hqx y (by simp at hy ⊢; tauto), Function.update_of_ne hq]
    by_cases hd : due t < due x
    · have hr : dueRank due t < dueRank due x := hd
      rw [erase_cons_tail (by simpa using hx), insertByRank, if_pos hr]
      exact rescheduleLoop_insert_here due t h hp hx hd hl
    · have hr : ¬ dueRank due t < dueRank due x := hd
      obtain ⟨queue', hrun, hspell, hframe⟩ := ih h.2
        (some_ne_some_of_notMem (by simp [hx, hn.1])) (by simpa using hl)
      refine ⟨queue', by simpa [rescheduleLoop, hlink, hx, hd] using hrun, ?_, fun q _ hqx =>
        hframe q (hqx x (by simp)) fun y hy => hqx y (by simp at hy ⊢; tauto)⟩
      rw [erase_cons_tail (by simpa using hx), insertByRank, if_neg hr]
      refine ⟨?_, hspell⟩
      rw [hframe p (hp x (by simp)) fun y hy => hp y (by simp at hy ⊢; tauto), hlink]

end Reschedule

end Cloudpilot.Uarm.Scheduling
