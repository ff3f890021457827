import Cloudpilot.Uarm.Scheduling.Ticks

/-! # One dispatch

`Advance` hands a batch to the delegate and reads the batch size of the task again
when the delegate returns. A delegate is faithful when it leaves that batch alone,
moves no other task before it, and asks for no time that wraps. The calls it makes
then keep the account of every task, and the dispatch takes the batch from the
accumulated ticks.
-/
namespace Cloudpilot.Uarm.Scheduling

open BitVec

/-- A call for the task being dispatched that leaves its batch as it was handed over:
the same batch size again, or at least one that is not above it while less than
another period has passed. -/
def Call.KeepsBatch (s : Scheduler) : Call → Prop
  | .rescheduleTask taskType batchTicks => batchTicks = (s.tasks taskType).batchedTicks
  | .rescheduleTaskAtLeast taskType batchTicks =>
    batchTicks ≠ 0 ∧ batchTicks ≤ (s.tasks taskType).batchedTicks ∧
      s.accTime.toNat < (s.tasks taskType).nextUpdate.toNat + (s.tasks taskType).period.toNat
  | _ => False

/-- A call the delegate may make while the task `t` is being dispatched. -/
def Call.Faithful (t : TaskType) (s : Scheduler) (c : Call) : Prop :=
  if c.task = t then c.KeepsBatch s else
    c.Fits s ∧ ((c.result s).batchedTicks ≠ 0 →
      (s.tasks t).nextUpdate ≤ (c.result s).nextUpdate)

def CallsFaithful (t : TaskType) : Scheduler → List Call → Prop
  | _, [] => True
  | s, c :: cs => c.Faithful t s ∧ ∀ s', c.exec s = .ok s' → CallsFaithful t s' cs

/-- The delegate keeps the batch, and the batch it asks for next fits. -/
structure Reply.Faithful (s : Scheduler) (t : TaskType) (reply : Reply) : Prop where
  calls : CallsFaithful t s reply.calls
  fits : reply.batchTicks ≠ 0 →
    (s.tasks t).nextUpdate.toNat + reply.batchTicks.toNat * (s.tasks t).period.toNat < 2 ^ 64

def DueFrom (due : Time) (s : Scheduler) : Prop :=
  ∀ t, (s.tasks t).batchedTicks ≠ 0 → due ≤ (s.tasks t).nextUpdate

variable {g g' : Ledger} {s s' : Scheduler} {t x : TaskType} {c : Call} {due : Time}

section KeepsBatch

theorem toNat_accumulatedTicks (h : (s.tasks t).lastUpdate.toNat ≤ s.accTime.toNat) :
    (accumulatedTicks s t).toNat =
      (s.accTime.toNat - (s.tasks t).lastUpdate.toNat) / (s.tasks t).period.toNat := by
  rw [accumulatedTicks, toNat_udiv, toNat_sub_of_le h]

theorem accumulatedTicks_of_due (hex : (s.tasks t).Exact)
    (hdue : (s.tasks t).nextUpdate.toNat ≤ s.accTime.toNat)
    (hlate : s.accTime.toNat < (s.tasks t).nextUpdate.toNat + (s.tasks t).period.toNat) :
    (accumulatedTicks s t).toNat = (s.tasks t).batchedTicks.toNat := by
  have hd := hex.due
  rw [toNat_accumulatedTicks (by omega)]
  apply Nat.div_eq_of_lt_le
  · omega
  · grind

theorem atLeastTicks_of_due {batchTicks : Ticks} (hex : (s.tasks t).Exact)
    (hdue : (s.tasks t).nextUpdate.toNat ≤ s.accTime.toNat)
    (hle : batchTicks ≤ (s.tasks t).batchedTicks)
    (hlate : s.accTime.toNat < (s.tasks t).nextUpdate.toNat + (s.tasks t).period.toNat) :
    atLeastTicks s t batchTicks = (s.tasks t).batchedTicks := by
  have hacc := accumulatedTicks_of_due hex hdue hlate
  apply eq_of_toNat_eq
  rw [le_def] at hle
  rw [atLeastTicks]
  split
  · rw [toNat_setWidth, hacc, Nat.mod_eq_of_lt (s.tasks t).batchedTicks.isLt]
  · rename_i hlt
    rw [lt_def, toNat_setWidth_ticks, hacc] at hlt
    omega

theorem Task.Exact.nextUpdate_eq {task : Task} (h : task.Exact) :
    task.nextUpdate = task.lastUpdate + task.batchedTicks.setWidth 64 * task.period := by
  apply eq_of_toNat_eq
  rw [toNat_add_ticks (h.due ▸ task.nextUpdate.isLt), h.due]

theorem rescheduledTask_same (h0 : (s.tasks t).batchedTicks ≠ 0) (hex : (s.tasks t).Exact) :
    rescheduledTask s t (s.tasks t).batchedTicks = s.tasks t := by
  rw [rescheduledTask]
  simp only [h0, if_false]
  rw [← hex.nextUpdate_eq]

theorem Call.result_of_keepsBatch (h0 : (s.tasks c.task).batchedTicks ≠ 0)
    (hex : (s.tasks c.task).Exact)
    (hdue : (s.tasks c.task).nextUpdate.toNat ≤ s.accTime.toNat) (h : c.KeepsBatch s) :
    c.result s = s.tasks c.task := by
  cases c with
  | scheduleTask t period batchTicks => exact h.elim
  | rescheduleTask t batchTicks =>
    have hb : batchTicks = (s.tasks t).batchedTicks := h
    rw [Call.result, rescheduleResult, if_neg (hb ▸ h0), hb]
    exact rescheduledTask_same h0 hex
  | rescheduleTaskAtLeast t batchTicks =>
    obtain ⟨hb, hle, hlate⟩ := h
    have hticks : atLeastTicks s t batchTicks = (s.tasks t).batchedTicks :=
      atLeastTicks_of_due hex hdue hle hlate
    rw [Call.result, rescheduleResult, if_neg hb, if_pos rfl, hticks]
    exact rescheduledTask_same h0 hex
  | unscheduleTask t => exact h.elim

theorem Call.starts_of_keepsBatch (h0 : (s.tasks c.task).batchedTicks ≠ 0) (h : c.KeepsBatch s) :
    c.starts s = false := by
  cases c with
  | scheduleTask t period batchTicks => exact h.elim
  | rescheduleTask t batchTicks =>
    have hb : (s.tasks t).batchedTicks ≠ 0 := h0
    rw [Call.starts, decide_eq_false hb, Bool.and_false]
  | rescheduleTaskAtLeast t batchTicks =>
    have hb : (s.tasks t).batchedTicks ≠ 0 := h0
    rw [Call.starts, decide_eq_false hb, Bool.and_false]
  | unscheduleTask t => rfl

theorem Call.safe_of_keepsBatch (hex : (s.tasks c.task).Exact)
    (hdue : (s.tasks c.task).nextUpdate.toNat ≤ s.accTime.toNat) (h : c.KeepsBatch s) :
    c.Safe s := by
  cases c with
  | scheduleTask t period batchTicks => trivial
  | rescheduleTask t batchTicks => trivial
  | rescheduleTaskAtLeast t batchTicks =>
    intro _ hlt
    have hacc : (accumulatedTicks s t).toNat = (s.tasks t).batchedTicks.toNat :=
      accumulatedTicks_of_due hex hdue h.2.2
    have hticks := (s.tasks t).batchedTicks.isLt
    rw [hacc] at hlt ⊢
    exact Nat.not_dvd_of_pos_of_lt (by omega) hticks
  | unscheduleTask t => trivial

theorem Task.Exact.fits {task : Task} (h : task.Exact) : task.Fits :=
  fun _ => ⟨h.period, h.due ▸ task.nextUpdate.isLt⟩

theorem Call.fits_of_keepsBatch (h0 : (s.tasks c.task).batchedTicks ≠ 0)
    (hex : (s.tasks c.task).Exact)
    (hdue : (s.tasks c.task).nextUpdate.toNat ≤ s.accTime.toNat) (h : c.KeepsBatch s) :
    c.Fits s := by
  refine ⟨Call.safe_of_keepsBatch hex hdue h, ?_⟩
  rw [Call.result_of_keepsBatch h0 hex hdue h]
  exact hex.fits

end KeepsBatch

/-- The state inside a dispatch: the delegate was handed the batch of `t`, whose record
is still `task`. -/
structure InDispatch (t : TaskType) (task : Task) (accTime : Time) (g : Ledger) : Prop where
  sound : Sound g.scheduler
  self : g.scheduler.tasks t = task
  scheduled : task.batchedTicks ≠ 0
  time : g.scheduler.accTime = accTime
  overdue : task.nextUpdate.toNat ≤ accTime.toNat
  later : DueFrom task.nextUpdate g.scheduler
  ahead : task.nextUpdate.toNat = (g.start t).toNat + g.handed t * task.period.toNat
  balanced : ∀ x, x ≠ t → (g.scheduler.tasks x).lastUpdate.toNat =
    (g.start x).toNat + g.handed x * (g.scheduler.tasks x).period.toNat

section Dispatch
variable {task : Task} {accTime : Time}

theorem InDispatch.fits (h : InDispatch t task accTime g) (hc : c.Faithful t g.scheduler) :
    c.Fits g.scheduler := by
  by_cases ht : c.task = t
  · subst ht
    rw [Call.Faithful, if_pos rfl] at hc
    have hself := h.self
    have hex := h.sound.exact c.task (by rw [hself]; exact h.scheduled)
    exact Call.fits_of_keepsBatch (by rw [hself]; exact h.scheduled) hex
      (by rw [hself, h.time]; exact h.overdue) hc
  · grind [Call.Faithful]

theorem InDispatch.result_self (h : InDispatch t task accTime g) (hc : c.Faithful t g.scheduler)
    (ht : c.task = t) : c.result g.scheduler = task ∧ c.starts g.scheduler = false := by
  subst ht
  rw [Call.Faithful, if_pos rfl] at hc
  have hself := h.self
  have hne : (g.scheduler.tasks c.task).batchedTicks ≠ 0 := by
    rw [hself]
    exact h.scheduled
  refine ⟨?_, Call.starts_of_keepsBatch hne hc⟩
  rw [Call.result_of_keepsBatch hne (h.sound.exact c.task hne)
    (by rw [hself, h.time]; exact h.overdue) hc, hself]

section

variable (hs : c.exec g.scheduler = .ok s)

include hs

theorem Ledger.call_eq : g.call c = .ok (if c.starts g.scheduler then
      (g.setScheduler s).restart c.task (s.tasks c.task).lastUpdate else g.setScheduler s) := by
  rw [Ledger.call, hs]
  rfl

theorem Ledger.call_account (hg : g.call c = .ok g')
    (hx : ¬ (c.task = x ∧ c.starts g.scheduler = true)) :
    g'.start x = g.start x ∧ g'.handed x = g.handed x := by
  rw [Ledger.call_eq hs] at hg
  cases hg
  split
  · rename_i hst
    have hne : x ≠ c.task := fun e => hx ⟨e.symm, hst⟩
    exact ⟨Function.update_of_ne hne _ _, Function.update_of_ne hne _ _⟩
  · exact ⟨rfl, rfl⟩

theorem Ledger.call_start (hg : g.call c = .ok g') (hst : c.starts g.scheduler = true) :
    g'.start c.task = (s.tasks c.task).lastUpdate ∧ g'.handed c.task = 0 := by
  rw [Ledger.call_eq hs, if_pos hst] at hg
  cases hg
  exact ⟨Function.update_self _ _ _, Function.update_self _ _ _⟩

theorem Ledger.call_state (hg : g.call c = .ok g') : g'.scheduler = s ∧ g'.batches = g.batches := by
  rw [Ledger.call_eq hs] at hg
  cases hg
  split <;> exact ⟨rfl, rfl⟩

end

def Ledger.BalancedAt (g : Ledger) (x : TaskType) : Prop :=
  (g.scheduler.tasks x).lastUpdate.toNat =
    (g.start x).toNat + g.handed x * (g.scheduler.tasks x).period.toNat

theorem Ledger.call_balancedAt (hs : c.exec g.scheduler = .ok s) (hg : g.call c = .ok g')
    (h : g.BalancedAt x) : g'.BalancedAt x := by
  have hch := Call.exec_changed hs
  rw [Ledger.BalancedAt, (Ledger.call_state hs hg).1]
  by_cases hst : c.task = x ∧ c.starts g.scheduler = true
  · obtain ⟨rfl, hst⟩ := hst
    obtain ⟨hstart, hhanded⟩ := Ledger.call_start hs hg hst
    rw [hstart, hhanded, Nat.zero_mul, Nat.add_zero]
  obtain ⟨hstart, hhanded⟩ := Ledger.call_account hs hg hst
  rw [hstart, hhanded]
  by_cases hx : x = c.task
  · subst hx
    have hst : c.starts g.scheduler = false := by simpa using hst
    rwa [hch.self, (Call.result_of_not_starts hst).1, (Call.result_of_not_starts hst).2]
  · rwa [hch.other x hx]

theorem InDispatch.call (h : InDispatch t task accTime g) (hc : c.Faithful t g.scheduler) :
    ∃ g', g.call c = .ok g' ∧ InDispatch t task accTime g' ∧ g'.batches = g.batches ∧
      c.exec g.scheduler = .ok g'.scheduler ∧
      workload g'.scheduler ≤ workload g.scheduler := by
  have hfits := h.fits hc
  obtain ⟨s, hs, hsound, hch⟩ := Call.exec_sound h.sound hfits
  obtain ⟨hstate, hbatches⟩ := Ledger.call_state hs (Ledger.call_eq hs)
  have hself : s.tasks t = task := by
    by_cases ht : t = c.task
    · subst ht
      rw [hch.self]
      exact (h.result_self hc rfl).1
    · rw [hch.other t ht]
      exact h.self
  have haccount := Ledger.call_account (x := t) hs (Ledger.call_eq hs) (by
    rintro ⟨ht, hst⟩
    rw [(h.result_self hc ht).2] at hst
    cases hst)
  refine ⟨_, Ledger.call_eq hs, ?_, hbatches, by rw [hstate, hs], ?_⟩
  · constructor
    case sound => rwa [hstate]
    case self => rwa [hstate]
    case scheduled => exact h.scheduled
    case time => rw [hstate, hch.time, h.time]
    case overdue => exact h.overdue
    case later =>
      rw [hstate]
      intro x hx
      by_cases hxc : x = c.task
      · subst hxc
        rw [hch.self] at hx ⊢
        by_cases ht : c.task = t
        · rw [(h.result_self hc ht).1]
          exact BitVec.le_refl _
        · grind [Call.Faithful, h.self]
      · rw [hch.other x hxc] at hx ⊢
        exact h.later x hx
    case ahead => rw [haccount.1, haccount.2, h.ahead]
    case balanced =>
      intro x hx
      exact Ledger.call_balancedAt hs (Ledger.call_eq hs) (h.balanced x hx)
  · rw [hstate]
    exact hch.workload_le (Call.result_load hfits.fits)

theorem InDispatch.calls {cs : List Call} (h : InDispatch t task accTime g)
    (hc : CallsFaithful t g.scheduler cs) :
    ∃ g', cs.foldlM Ledger.call g = .ok g' ∧ InDispatch t task accTime g' ∧
      g'.batches = g.batches ∧ workload g'.scheduler ≤ workload g.scheduler := by
  induction cs generalizing g with
  | nil => exact ⟨g, rfl, h, rfl, le_refl _⟩
  | cons c cs ih =>
    obtain ⟨g1, hg1, h1, hb1, hs1, hw1⟩ := h.call hc.1
    obtain ⟨g2, hg2, h2, hb2, hw2⟩ := ih h1 (hc.2 _ hs1)
    refine ⟨g2, ?_, h2, hb2.trans hb1, hw2.trans hw1⟩
    rwa [List.foldlM_cons, hg1]

theorem rescheduleResult_advanced (hex : (s.tasks t).Exact) (h0 : (s.tasks t).batchedTicks ≠ 0)
    (batchTicks : Ticks) :
    rescheduleResult false (setTask s t { s.tasks t with lastUpdate :=
        (s.tasks t).lastUpdate + (s.tasks t).batchedTicks.setWidth 64 * (s.tasks t).period })
      t batchTicks =
    { batchedTicks := batchTicks
      period := (s.tasks t).period
      lastUpdate := (s.tasks t).nextUpdate
      nextUpdate := if batchTicks = 0 then (s.tasks t).nextUpdate else
        (s.tasks t).nextUpdate + batchTicks.setWidth 64 * (s.tasks t).period } := by
  rw [rescheduleResult, ← hex.nextUpdate_eq]
  split
  · rename_i hb
    rw [tasks_setTask_self, hb]
  · simp only [rescheduledTask, tasks_setTask_self, h0, if_false, Bool.false_eq_true]

theorem load_advanced {accTime : Time} {task : Task} (hex : task.Exact)
    (h0 : task.batchedTicks ≠ 0) (hdue : task.nextUpdate.toNat ≤ accTime.toNat)
    {task' : Task} (hp : task'.period = task.period) (hl : task'.lastUpdate = task.nextUpdate) :
    task'.load accTime < task.load accTime := by
  have hpos : 0 < task.batchedTicks.toNat := by
    rw [Nat.pos_iff_ne_zero]
    intro e
    exact h0 (eq_of_toNat_eq e)
  have hold : task.load accTime =
      (accTime.toNat - task.nextUpdate.toNat) / task.period.toNat + task.batchedTicks.toNat := by
    have hd := hex.due
    rw [Task.load, if_neg h0, ← Nat.add_mul_div_right _ _ hex.period]
    congr 1
    omega
  have hnew : task'.load accTime ≤
      (accTime.toNat - task.nextUpdate.toNat) / task.period.toNat := by
    rw [Task.load, hp, hl]
    split
    · simp
    · rfl
  omega

theorem InDispatch.finish (h : InDispatch t task accTime g) {batchTicks : Ticks}
    (hfits : batchTicks ≠ 0 →
      task.nextUpdate.toNat + batchTicks.toNat * task.period.toNat < 2 ^ 64) :
    ∃ s, finishDispatch g.scheduler t batchTicks = .ok s ∧ Sound s ∧
      (g.setScheduler s).Balanced ∧ s.accTime = accTime ∧ DueFrom task.nextUpdate s ∧
      workload s < workload g.scheduler := by
  have hself := h.self
  have hne : (g.scheduler.tasks t).batchedTicks ≠ 0 := by
    rw [hself]
    exact h.scheduled
  have hex := h.sound.exact t hne
  have hresult := rescheduleResult_advanced hex hne batchTicks
  set task1 := rescheduleResult false (setTask g.scheduler t
    { g.scheduler.tasks t with lastUpdate := (g.scheduler.tasks t).lastUpdate +
      (g.scheduler.tasks t).batchedTicks.setWidth 64 * (g.scheduler.tasks t).period })
    t batchTicks with htask1
  rw [hself] at hresult hex
  have hfit : task1.Fits := by
    rw [hresult]
    exact fun hb => ⟨hex.period, hfits hb⟩
  have hexact : task1.batchedTicks ≠ 0 → task1.Exact := by
    rw [hresult]
    intro hb
    refine ⟨hex.period, ?_⟩
    simp only [if_neg hb]
    exact toNat_add_ticks (hfits hb)
  obtain ⟨l, hl⟩ := h.sound.queue
  obtain ⟨s, hs, hinv⟩ := rescheduleTaskImpl_ok ((hl.but t).setTask _)
    (fun _ e => Bool.noConfusion e) hfit
  have hch := (rescheduleTaskImpl_changed hs).of_setTask
  rw [← htask1] at hch
  refine ⟨s, hs, hch.sound hinv (fun x _ => h.sound.exact x) hexact, ?_, hch.time.trans h.time,
    ?_, ?_⟩
  · intro x
    by_cases hx : x = t
    · subst hx
      rw [Ledger.setScheduler_scheduler, hch.self, hresult]
      exact h.ahead
    · rw [Ledger.setScheduler_scheduler, hch.other x hx]
      exact h.balanced x hx
  · intro x hx
    by_cases hxt : x = t
    · subst hxt
      rw [hch.self] at hx ⊢
      have hd := (hexact hx).due
      rw [hresult] at hd ⊢
      rw [le_def, hd]
      exact Nat.le_add_right _ _
    · rw [hch.other x hxt] at hx ⊢
      exact h.later x hx
  · refine hch.workload_lt ?_
    rw [hself, h.time]
    exact load_advanced hex h.scheduled h.overdue (by rw [hresult]) (by rw [hresult])

theorem inDispatch_hand (hsound : Sound g.scheduler) (hbal : g.Balanced)
    (h0 : (g.scheduler.tasks t).batchedTicks ≠ 0)
    (hdue : (g.scheduler.tasks t).nextUpdate.toNat ≤ g.scheduler.accTime.toNat)
    (hlater : DueFrom (g.scheduler.tasks t).nextUpdate g.scheduler) :
    InDispatch t (g.scheduler.tasks t) g.scheduler.accTime (g.hand t) where
  sound := hsound
  self := rfl
  scheduled := h0
  time := rfl
  overdue := hdue
  later := hlater
  ahead := by
    have hd := (hsound.exact t h0).due
    have hb := hbal t
    simp only [Ledger.hand, Function.update_self]
    rw [hd, hb, Nat.add_mul, Nat.add_assoc]
  balanced := by
    intro x hx
    simp only [Ledger.hand, Function.update_of_ne hx]
    exact hbal x

end Dispatch

end Cloudpilot.Uarm.Scheduling
