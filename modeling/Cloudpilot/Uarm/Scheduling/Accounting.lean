import Cloudpilot.Uarm.Scheduling.Dispatch

/-! # No tick is lost

As long as every dispatch is faithful and the time does not wrap, every `Advance` ends,
the ticks handed over are the ticks between the start and the last update of the task,
and the batches come in the order of their due times. A delegate that calls
`RescheduleTaskAtLeast` for the very task being dispatched, one period or more late,
loses the ticks in between.
-/
namespace Cloudpilot.Uarm.Scheduling
open Library.LinkedQueue BitVec List

/-- Each dispatch of an `Advance` is faithful in the state it is made in. -/
def RepliesFaithful : Scheduler → List Reply → Prop
  | _, [] => True
  | s, reply :: replies =>
    ∀ t, s.queue none = some t → ¬ s.accTime < (s.tasks t).nextUpdate →
      reply.Faithful s t ∧ ∀ s', dispatch s t reply = .ok s' → RepliesFaithful s' replies

/-- One `Advance`, with the replies of the delegate in the order it is called. -/
structure Step where
  cycles : Time
  cyclesPerSecond : Time
  delegate : ℕ → Reply

def Step.replies (a : Step) (n : ℕ) : List Reply := (List.range n).map a.delegate

structure Step.Faithful (s : Scheduler) (a : Step) : Prop where
  rate : a.cyclesPerSecond ≠ 0
  time : s.accTime.toNat + (a.cycles * oneSec / a.cyclesPerSecond).toNat < 2 ^ 64
  replies : ∀ n, RepliesFaithful (elapse s a.cycles a.cyclesPerSecond) (a.replies n)

/-- No queued task is due. -/
def Settled (s : Scheduler) : Prop :=
  ∃ l, QueueIs s l ∧ ∀ t ∈ l, s.accTime < (s.tasks t).nextUpdate

variable {g g' : Ledger} {s s' : Scheduler} {t x : TaskType} {due : Time}

structure InOrder (due : Time) (batches : List Batch) : Prop where
  from_due : ∀ b ∈ batches, due ≤ b.due
  not_early : ∀ b ∈ batches, b.due ≤ b.time
  sorted : batches.Pairwise fun a b => a.due ≤ b.due

theorem InOrder.cons {b : Batch} {batches : List Batch} (h : InOrder b.due batches)
    (hfrom : due ≤ b.due) (hearly : b.due ≤ b.time) : InOrder due (b :: batches) where
  from_due := by
    intro x hx
    rcases List.mem_cons.mp hx with rfl | hx
    · exact hfrom
    · exact BitVec.le_trans hfrom (h.from_due x hx)
  not_early := by
    intro x hx
    rcases List.mem_cons.mp hx with rfl | hx
    · exact hearly
    · exact h.not_early x hx
  sorted := List.pairwise_cons.mpr ⟨h.from_due, h.sorted⟩

theorem inOrder_nil (due : Time) : InOrder due [] where
  from_due := fun b hb => by cases hb
  not_early := fun b hb => by cases hb
  sorted := List.Pairwise.nil

theorem InOrder.append {time : Time} {batches later : List Batch} (h : InOrder due batches)
    (htime : ∀ b ∈ batches, b.time = time) (hlater : InOrder time later) (hle : due ≤ time) :
    InOrder due (batches ++ later) where
  from_due := by
    intro b hb
    rcases List.mem_append.mp hb with hb | hb
    · exact h.from_due b hb
    · exact BitVec.le_trans hle (hlater.from_due b hb)
  not_early := by
    intro b hb
    rcases List.mem_append.mp hb with hb | hb
    · exact h.not_early b hb
    · exact hlater.not_early b hb
  sorted := by
    refine List.pairwise_append.mpr ⟨h.sorted, hlater.sorted, ?_⟩
    intro a ha b hb
    have hat := h.not_early a ha
    rw [htime a ha] at hat
    exact BitVec.le_trans hat (hlater.from_due b hb)

theorem QueueIs.head_scheduled {l : List TaskType} (h : QueueIs s l)
    (hq : s.queue none = some t) : (s.tasks t).batchedTicks ≠ 0 :=
  (h.mem_iff t).mp (mem_of_link h.spells hq)

theorem QueueIs.head_dueFrom {l : List TaskType} (h : QueueIs s l)
    (hq : s.queue none = some t) : DueFrom (s.tasks t).nextUpdate s := by
  intro x hx
  have hmem := (h.mem_iff x).mpr hx
  cases l with
  | nil => cases hmem
  | cons y l =>
    have hy : s.queue none = some y := h.spells.1
    rw [hq] at hy
    cases hy
    rcases mem_cons.mp hmem with rfl | hxl
    · simp
    · exact (pairwise_cons.mp h.sorted).1 x hxl

theorem settled_of_head (h : QueueInv s)
    (hhead : ∀ t, s.queue none = some t → s.accTime < (s.tasks t).nextUpdate) : Settled s := by
  obtain ⟨l, hl⟩ := h
  refine ⟨l, hl, ?_⟩
  intro x hx
  cases l with
  | nil => cases hx
  | cons y l =>
    have hy : s.queue none = some y := hl.spells.1
    have hle := hl.head_dueFrom hy x ((hl.mem_iff x).mp hx)
    exact Nat.lt_of_lt_of_le (hhead y hy) hle

theorem Settled.updateNextUpdate (h : Settled s) : Settled (updateNextUpdate s) := by
  obtain ⟨l, hl, hdue⟩ := h
  exact ⟨l, hl.updateNextUpdate, hdue⟩

theorem Sound.updateNextUpdate (h : Sound s) : Sound (updateNextUpdate s) where
  queue := h.queue.imp fun _ hl => hl.updateNextUpdate
  exact := h.exact

/-- What an `Advance` leaves, where it began with no task due before `due`. -/
structure Accounts (due : Time) (g g' : Ledger) : Prop where
  sound : Sound g'.scheduler
  balanced : g'.Balanced
  settled : Settled g'.scheduler
  time : g'.scheduler.accTime = g.scheduler.accTime
  batches : ∃ bs, g'.batches = g.batches ++ bs ∧ InOrder due bs ∧
    ∀ b ∈ bs, b.time = g.scheduler.accTime

theorem Ledger.advanceLoop_not_due (replies : List Reply)
    (hhead : ∀ t, g.scheduler.queue none = some t →
      g.scheduler.accTime < (g.scheduler.tasks t).nextUpdate) :
    g.advanceLoop replies = .ok (g.setScheduler (updateNextUpdate g.scheduler)) := by
  rw [Ledger.advanceLoop]
  cases hq : g.scheduler.queue none with
  | none => rfl
  | some t => simp [hhead t hq]

theorem Ledger.advanceLoop_settled (replies : List Reply) (hsound : Sound g.scheduler)
    (hbal : g.Balanced)
    (hhead : ∀ t, g.scheduler.queue none = some t →
      g.scheduler.accTime < (g.scheduler.tasks t).nextUpdate) :
    ∃ g', g.advanceLoop replies = .ok g' ∧ Accounts due g g' := by
  refine ⟨_, Ledger.advanceLoop_not_due replies hhead, ?_⟩
  constructor
  case sound => exact hsound.updateNextUpdate
  case balanced => exact hbal
  case settled => exact (settled_of_head hsound.queue hhead).updateNextUpdate
  case time => rfl
  case batches => exact ⟨[], (append_nil _).symm, inOrder_nil due, fun b hb => by cases hb⟩

theorem Ledger.advanceLoop_dispatch {reply : Reply} {replies : List Reply}
    (hq : g.scheduler.queue none = some t)
    (hdue : ¬ g.scheduler.accTime < (g.scheduler.tasks t).nextUpdate)
    (hg : g.dispatch t reply = .ok g') :
    g.advanceLoop (reply :: replies) = g'.advanceLoop replies := by
  rw [Ledger.advanceLoop]
  simp only [hq, hdue, if_false, hg]
  rfl

theorem Ledger.dispatch_accounts {reply : Reply} (hsound : Sound g.scheduler)
    (hbal : g.Balanced) (hq : g.scheduler.queue none = some t)
    (hdue : ¬ g.scheduler.accTime < (g.scheduler.tasks t).nextUpdate)
    (hreply : reply.Faithful g.scheduler t) :
    ∃ g', g.dispatch t reply = .ok g' ∧ Sound g'.scheduler ∧ g'.Balanced ∧
      g'.scheduler.accTime = g.scheduler.accTime ∧
      DueFrom (g.scheduler.tasks t).nextUpdate g'.scheduler ∧
      workload g'.scheduler < workload g.scheduler ∧
      g'.batches = g.batches ++ [⟨t, (g.scheduler.tasks t).batchedTicks,
        (g.scheduler.tasks t).nextUpdate, g.scheduler.accTime⟩] := by
  obtain ⟨l, hl⟩ := hsound.queue
  have hhand := inDispatch_hand hsound hbal (hl.head_scheduled hq)
    (Nat.le_of_not_lt hdue) (hl.head_dueFrom hq)
  obtain ⟨g1, hg1, hin, hb1, hw1⟩ := hhand.calls hreply.calls
  obtain ⟨s, hs, hsound', hbal', htime, hfrom, hw⟩ := hin.finish hreply.fits
  refine ⟨g1.setScheduler s, ?_, hsound', hbal', htime, hfrom, lt_of_lt_of_le hw hw1, hb1⟩
  rw [Ledger.dispatch, hg1]
  simp only [bind, Except.bind, hs]
  rfl

/-- The delegate after its first reply. -/
def Step.tail (a : Step) : Step := { a with delegate := fun n => a.delegate (n + 1) }

theorem Step.replies_succ (a : Step) (n : ℕ) :
    a.replies (n + 1) = a.delegate 0 :: a.tail.replies n := by
  simp only [Step.replies, range_succ_eq_map, map_cons, map_map]
  rfl

theorem repliesFaithful_tail {a : Step} (hq : s.queue none = some t)
    (hdue : ¬ s.accTime < (s.tasks t).nextUpdate) (h : ∀ n, RepliesFaithful s (a.replies n)) :
    (a.delegate 0).Faithful s t ∧ ∀ s', dispatch s t (a.delegate 0) = .ok s' →
      ∀ n, RepliesFaithful s' (a.tail.replies n) := by
  constructor
  · have h1 := h 1
    exact (h1 t hq hdue).1
  · intro s' hs' n
    have hn := h (n + 1)
    rw [Step.replies_succ] at hn
    exact (hn t hq hdue).2 s' hs'

theorem Accounts.cons {b : Batch} {g1 : Ledger} (h : Accounts b.due g1 g')
    (htime : g1.scheduler.accTime = g.scheduler.accTime)
    (hbatches : g1.batches = g.batches ++ [b]) (hfrom : due ≤ b.due) (hearly : b.due ≤ b.time)
    (hb : b.time = g.scheduler.accTime) : Accounts due g g' where
  sound := h.sound
  balanced := h.balanced
  settled := h.settled
  time := h.time.trans htime
  batches := by
    obtain ⟨bs, hbs, horder, htimes⟩ := h.batches
    refine ⟨b :: bs, ?_, horder.cons hfrom hearly, ?_⟩
    · rw [hbs, hbatches, List.append_assoc, List.singleton_append]
    · intro x hx
      rcases List.mem_cons.mp hx with rfl | hx
      · exact hb
      · exact (htimes x hx).trans htime

/-- The loop of `Advance` ends: every dispatch takes its batch from the accumulated ticks. -/
theorem Ledger.advanceLoop_accounts (a : Step) (hsound : Sound g.scheduler) (hbal : g.Balanced)
    (hfrom : DueFrom due g.scheduler) (h : ∀ n, RepliesFaithful g.scheduler (a.replies n)) :
    ∃ n g', g.advanceLoop (a.replies n) = .ok g' ∧ Accounts due g g' := by
  induction hw : workload g.scheduler using Nat.strong_induction_on generalizing g a due with
  | _ w ih =>
    by_cases hhead : ∀ t, g.scheduler.queue none = some t →
        g.scheduler.accTime < (g.scheduler.tasks t).nextUpdate
    · exact ⟨0, Ledger.advanceLoop_settled _ hsound hbal hhead⟩
    push Not at hhead
    obtain ⟨t, hq, hdue⟩ := hhead
    obtain ⟨hreply, htail⟩ := repliesFaithful_tail hq hdue h
    obtain ⟨g1, hg1, hsound1, hbal1, htime1, hfrom1, hw1, hb1⟩ :=
      Ledger.dispatch_accounts hsound hbal hq hdue hreply
    have hs1 : Scheduling.dispatch g.scheduler t (a.delegate 0) = .ok g1.scheduler := by
      rw [← Ledger.dispatch_scheduler, hg1]
      rfl
    obtain ⟨n, g', hg', hacc⟩ := ih _ (hw ▸ hw1) a.tail hsound1 hbal1 hfrom1 (htail _ hs1) rfl
    obtain ⟨l, hl⟩ := hsound.queue
    refine ⟨n + 1, g', ?_, hacc.cons htime1 hb1 (hfrom t (hl.head_scheduled hq))
      (Nat.le_of_not_lt hdue) rfl⟩
    rw [Step.replies_succ, Ledger.advanceLoop_dispatch hq hdue hg1, hg']

/-- The `Advance` with enough replies of the delegate ends with no task due. -/
def Ledger.Completes (g : Ledger) (a : Step) (g' : Ledger) : Prop :=
  ∃ n, g.advance a.cycles a.cyclesPerSecond (a.replies n) = .ok g' ∧ Settled g'.scheduler

/-- The ledger when `Advance` looks at the queue. -/
def Ledger.elapse (g : Ledger) (a : Step) : Ledger :=
  g.setScheduler (Scheduling.elapse g.scheduler a.cycles a.cyclesPerSecond)

theorem Ledger.batches_elapse (a : Step) : (g.elapse a).batches = g.batches := by
  rw [Ledger.elapse, Ledger.setScheduler_batches]

theorem Ledger.sound_elapse {a : Step} (h : Sound g.scheduler) : Sound (g.elapse a).scheduler where
  queue := h.queue.setTime _
  exact := h.exact

theorem Ledger.dueFrom_elapse {a : Step} (h : DueFrom due g.scheduler) :
    DueFrom due (g.elapse a).scheduler :=
  fun t ht => h t ht

theorem Ledger.balanced_elapse {a : Step} (h : g.Balanced) : (g.elapse a).Balanced :=
  fun t => h t

theorem Ledger.advance_eq {a : Step} (h : a.cyclesPerSecond ≠ 0) (replies : List Reply) :
    g.advance a.cycles a.cyclesPerSecond replies =
      if (g.elapse a).scheduler.accTime < (g.elapse a).scheduler.nextUpdate then .ok (g.elapse a)
        else (g.elapse a).advanceLoop replies := by
  rw [Ledger.advance, if_neg h]
  rfl

theorem Ledger.advance_accounts {a : Step} (hsound : Sound g.scheduler) (hbal : g.Balanced)
    (hfrom : DueFrom due g.scheduler) (ha : a.Faithful g.scheduler) :
    ∃ g', g.Completes a g' ∧ Accounts due (g.elapse a) g' := by
  have hsound1 : Sound (g.elapse a).scheduler := Ledger.sound_elapse hsound
  have hbal1 : (g.elapse a).Balanced := Ledger.balanced_elapse hbal
  have hfrom1 : DueFrom due (g.elapse a).scheduler := Ledger.dueFrom_elapse hfrom
  have hreplies : ∀ n, RepliesFaithful (g.elapse a).scheduler (a.replies n) := ha.replies
  simp only [Ledger.Completes, Ledger.advance_eq ha.rate]
  generalize g.elapse a = g1 at hsound1 hbal1 hfrom1 hreplies ⊢
  by_cases hlt : g1.scheduler.accTime < g1.scheduler.nextUpdate
  · have hhead : ∀ t, g1.scheduler.queue none = some t →
        g1.scheduler.accTime < (g1.scheduler.tasks t).nextUpdate := by
      intro t ht
      obtain ⟨l, hl⟩ := hsound1.queue
      rwa [← hl.head t ht]
    have hsettled := settled_of_head hsound1.queue hhead
    exact ⟨g1, ⟨0, if_pos hlt, hsettled⟩, hsound1, hbal1, hsettled, rfl, [],
      (append_nil _).symm, inOrder_nil due, fun b hb => by cases hb⟩
  · obtain ⟨n, g', hg', hacc⟩ := Ledger.advanceLoop_accounts a hsound1 hbal1 hfrom1 hreplies
    exact ⟨g', ⟨n, (if_neg hlt).trans hg', hacc.settled⟩, hacc⟩

/-- A ledger after some run: calls from outside that fit, and faithful `Advance` calls. -/
inductive Reached : Ledger → Prop
  | init : Reached Ledger.init
  | call {g g' : Ledger} (c : Call) (h : Reached g) (hc : c.Fits g.scheduler)
      (hg : g.call c = .ok g') : Reached g'
  | advance {g g' : Ledger} (a : Step) (h : Reached g) (ha : a.Faithful g.scheduler)
      (hg : g.Completes a g') : Reached g'

theorem Ledger.call_balanced {c : Call} (hs : c.exec g.scheduler = .ok s)
    (hg : g.call c = .ok g') (h : g.Balanced) : g'.Balanced :=
  fun x => Ledger.call_balancedAt hs hg (h x)

theorem dueFrom_zero (s : Scheduler) : DueFrom 0 s := fun _ _ => Nat.zero_le _

theorem Settled.head (h : Settled s) (hq : s.queue none = some t) :
    s.accTime < (s.tasks t).nextUpdate := by
  obtain ⟨l, hl, hdue⟩ := h
  exact hdue t (mem_of_link hl.spells hq)

theorem Ledger.advanceLoop_append {replies : List Reply} (more : List Reply)
    (h : g.advanceLoop replies = .ok g') (hset : Settled g'.scheduler) :
    g.advanceLoop (replies ++ more) = .ok g' := by
  induction replies generalizing g with
  | nil =>
    by_cases hhead : ∀ t, g.scheduler.queue none = some t →
        g.scheduler.accTime < (g.scheduler.tasks t).nextUpdate
    · rw [Ledger.advanceLoop_not_due _ hhead] at h ⊢
      exact h
    · push Not at hhead
      obtain ⟨t, hq, hdue⟩ := hhead
      rw [Ledger.advanceLoop] at h
      simp only [hq, hdue, if_false] at h
      cases h
      exact absurd (hset.head hq) hdue
  | cons reply replies ih =>
    by_cases hhead : ∀ t, g.scheduler.queue none = some t →
        g.scheduler.accTime < (g.scheduler.tasks t).nextUpdate
    · rw [Ledger.advanceLoop_not_due _ hhead] at h ⊢
      exact h
    · push Not at hhead
      obtain ⟨t, hq, hdue⟩ := hhead
      rw [Ledger.advanceLoop] at h
      simp only [hq, hdue, if_false] at h
      cases hd : g.dispatch t reply with
      | error e =>
        rw [hd] at h
        cases h
      | ok g1 =>
        rw [hd] at h
        rw [List.cons_append, Ledger.advanceLoop_dispatch hq hdue hd]
        exact ih h

theorem Ledger.advance_append {cycles cyclesPerSecond : Time} {replies : List Reply}
    (more : List Reply) (h : g.advance cycles cyclesPerSecond replies = .ok g')
    (hset : Settled g'.scheduler) :
    g.advance cycles cyclesPerSecond (replies ++ more) = .ok g' := by
  rw [Ledger.advance] at h ⊢
  generalize Scheduling.elapse g.scheduler cycles cyclesPerSecond = s at h ⊢
  by_cases h0 : cyclesPerSecond = 0
  · grind
  rw [if_neg h0] at h ⊢
  by_cases hlt : s.accTime < s.nextUpdate
  · grind
  · simp only [hlt, if_false] at h ⊢
    exact Ledger.advanceLoop_append more h hset

theorem Step.replies_add (a : Step) (n m : ℕ) :
    ∃ more, a.replies (n + m) = a.replies n ++ more := by
  rw [Step.replies, range_add, map_append]
  exact ⟨_, rfl⟩

theorem Ledger.Completes.unique {a : Step} {g1 g2 : Ledger} (h1 : g.Completes a g1)
    (h2 : g.Completes a g2) : g1 = g2 := by
  obtain ⟨n1, hg1, hs1⟩ := h1
  obtain ⟨n2, hg2, hs2⟩ := h2
  obtain ⟨more1, hm1⟩ := a.replies_add n1 n2
  obtain ⟨more2, hm2⟩ := a.replies_add n2 n1
  have h1 := Ledger.advance_append more1 hg1 hs1
  have h2 := Ledger.advance_append more2 hg2 hs2
  rw [← hm1] at h1
  rw [← hm2, Nat.add_comm, h1] at h2
  exact Except.ok.inj h2

theorem Reached.invariant (h : Reached g) : Sound g.scheduler ∧ g.Balanced := by
  induction h with
  | init =>
    refine ⟨⟨⟨[], queueIs_init⟩, ?_⟩, ?_⟩
    · intro t ht
      exact absurd rfl ht
    · intro t
      rfl
  | call c _ hc hg ih =>
    obtain ⟨s, hs, hsound, -⟩ := Call.exec_sound ih.1 hc
    rw [(Ledger.call_state hs hg).1]
    exact ⟨hsound, Ledger.call_balanced hs hg ih.2⟩
  | advance a _ ha hg ih =>
    obtain ⟨g1, hg1, hacc⟩ := Ledger.advance_accounts ih.1 ih.2 (dueFrom_zero _) ha
    rw [hg.unique hg1]
    exact ⟨hacc.sound, hacc.balanced⟩

/-- A sequence of `Advance` calls, each of which ends. -/
inductive Advances : Ledger → List Step → Ledger → Prop
  | nil (g : Ledger) : Advances g [] g
  | cons {g g1 g' : Ledger} {a : Step} {steps : List Step} (h : g.Completes a g1)
      (hs : Advances g1 steps g') : Advances g (a :: steps) g'

/-- Each `Advance` of a sequence is faithful in the state it is made in. -/
def StepsFaithful : Scheduler → List Step → Prop
  | _, [] => True
  | s, a :: steps => a.Faithful s ∧ ∀ n s',
      advance s a.cycles a.cyclesPerSecond (a.replies n) = .ok s' → Settled s' →
        StepsFaithful s' steps

theorem Ledger.Completes.scheduler {a : Step} (h : g.Completes a g') :
    ∃ n, Scheduling.advance g.scheduler a.cycles a.cyclesPerSecond (a.replies n) =
        .ok g'.scheduler ∧
      Settled g'.scheduler := by
  obtain ⟨n, hg, hset⟩ := h
  refine ⟨n, ?_, hset⟩
  rw [← Ledger.advance_scheduler, hg]
  rfl

theorem Step.Faithful.accTime_le {a : Step} (h : a.Faithful g.scheduler) :
    g.scheduler.accTime ≤ (g.elapse a).scheduler.accTime := by
  have hacc : (g.elapse a).scheduler.accTime =
      g.scheduler.accTime + a.cycles * oneSec / a.cyclesPerSecond := rfl
  rw [hacc, le_def, toNat_add, Nat.mod_eq_of_lt h.time]
  exact Nat.le_add_right _ _

theorem Settled.dueFrom (h : Settled s) : DueFrom s.accTime s := by
  obtain ⟨l, hl, hdue⟩ := h
  intro t ht
  exact Nat.le_of_lt (hdue t ((hl.mem_iff t).mpr ht))

theorem advances_invariant {steps : List Step} (hsound : Sound g.scheduler) (hbal : g.Balanced)
    (hfrom : DueFrom due g.scheduler) (hpast : due ≤ g.scheduler.accTime)
    (h : StepsFaithful g.scheduler steps) :
    ∃ g', Advances g steps g' ∧ g'.Balanced ∧
      (∃ bs, g'.batches = g.batches ++ bs ∧ InOrder due bs) ∧
      (steps ≠ [] → Settled g'.scheduler) := by
  induction steps generalizing g due with
  | nil =>
    exact ⟨g, .nil g, hbal, ⟨[], (List.append_nil _).symm, inOrder_nil due⟩,
      fun hne => absurd rfl hne⟩
  | cons a steps ih =>
    obtain ⟨ha, hrest⟩ := h
    obtain ⟨g1, hg1, hacc⟩ := Ledger.advance_accounts hsound hbal hfrom ha
    obtain ⟨n, hn, hset⟩ := hg1.scheduler
    obtain ⟨g', hsteps, hbal', ⟨bs', hbs', horder'⟩, hset'⟩ :=
      ih hacc.sound hacc.balanced hset.dueFrom (BitVec.le_refl _) (hrest n _ hn hset)
    obtain ⟨bs, hbs, horder, htimes⟩ := hacc.batches
    refine ⟨g', .cons hg1 hsteps, hbal', ⟨bs ++ bs', ?_, ?_⟩, ?_⟩
    · rw [hbs', hbs, Ledger.batches_elapse, List.append_assoc]
    · rw [← hacc.time] at htimes
      refine horder.append htimes horder' (BitVec.le_trans hpast ?_)
      rw [hacc.time]
      exact ha.accTime_le
    · intro _
      cases hsteps with
      | nil => exact hset
      | cons _ _ => exact hset' (by simp)

theorem Ledger.Balanced.ticks (h : g.Balanced) (hp : (g.scheduler.tasks t).period ≠ 0) :
    (((g.scheduler.tasks t).lastUpdate - g.start t) / (g.scheduler.tasks t).period).toNat =
      g.handed t := by
  have hb := h t
  have hpos : 0 < (g.scheduler.tasks t).period.toNat := by
    rw [Nat.pos_iff_ne_zero]
    intro e
    exact hp (eq_of_toNat_eq e)
  have hle : g.start t ≤ (g.scheduler.tasks t).lastUpdate := by simp [le_def, hb]
  rw [toNat_udiv, toNat_sub_of_le hle, hb, Nat.add_sub_cancel_left,
    Nat.mul_div_cancel _ hpos]

/-- From every reached state, every sequence of faithful `Advance` calls ends. The ticks
handed over for a task since its start are the ticks between its start and its last update, no
batch was early, the batches came in the order of their due times, and no queued task is due. -/
theorem advances_account (hg : Reached g) (steps : List Step)
    (h : StepsFaithful g.scheduler steps) :
    ∃ g', Advances g steps g' ∧
      (∀ t, (g'.scheduler.tasks t).period ≠ 0 →
        g'.handed t = (((g'.scheduler.tasks t).lastUpdate - g'.start t) /
          (g'.scheduler.tasks t).period).toNat) ∧
      (∃ bs, g'.batches = g.batches ++ bs ∧ (∀ b ∈ bs, b.due ≤ b.time) ∧
        bs.Pairwise fun a b => a.due ≤ b.due) ∧
      (steps ≠ [] → Settled g'.scheduler) := by
  obtain ⟨hsound, hbal⟩ := hg.invariant
  obtain ⟨g', hsteps, hbal', ⟨bs, hbs, horder⟩, hset⟩ :=
    advances_invariant hsound hbal (dueFrom_zero _) (Nat.zero_le _) h
  exact ⟨g', hsteps, fun t hp => (hbal'.ticks hp).symm, ⟨bs, hbs, horder.not_early, horder.sorted⟩,
    hset⟩

instance (s : Scheduler) : (c : Call) → Decidable (c.KeepsBatch s)
  | .scheduleTask .. => isFalse id
  | .rescheduleTask .. => inferInstanceAs (Decidable (_ = _))
  | .rescheduleTaskAtLeast .. => inferInstanceAs (Decidable (_ ∧ _ ∧ _))
  | .unscheduleTask _ => isFalse id

instance (t : TaskType) (s : Scheduler) (c : Call) : Decidable (c.Faithful t s) :=
  inferInstanceAs (Decidable (if c.task = t then c.KeepsBatch s else
    c.Fits s ∧ ((c.result s).batchedTicks ≠ 0 →
      (s.tasks t).nextUpdate ≤ (c.result s).nextUpdate)))

instance decidableCallsFaithful (t : TaskType) :
    (s : Scheduler) → (cs : List Call) → Decidable (CallsFaithful t s cs)
  | _, [] => isTrue trivial
  | s, c :: cs =>
    have := fun s' => decidableCallsFaithful t s' cs
    inferInstanceAs (Decidable (c.Faithful t s ∧ ∀ s', c.exec s = .ok s' → CallsFaithful t s' cs))

instance (s : Scheduler) (t : TaskType) (reply : Reply) : Decidable (reply.Faithful s t) :=
  decidable_of_iff (CallsFaithful t s reply.calls ∧ (reply.batchTicks ≠ 0 →
      (s.tasks t).nextUpdate.toNat + reply.batchTicks.toNat * (s.tasks t).period.toNat < 2 ^ 64))
    ⟨fun h => ⟨h.1, h.2⟩, fun h => ⟨h.calls, h.fits⟩⟩

instance decidableLedgerEnds {P : Ledger → Prop} [∀ g, Decidable (P g)] :
    (r : Except Fault Ledger) → Decidable (∃ g, r = .ok g ∧ P g)
  | .ok g => decidable_of_iff (P g) (by simp)
  | .error _ => isFalse (by simp)

theorem repliesFaithful_of_not_due (replies : List Reply)
    (h : ∀ t, s.queue none = some t → s.accTime < (s.tasks t).nextUpdate) :
    RepliesFaithful s replies := by
  cases replies with
  | nil => trivial
  | cons reply replies => exact fun t hq hdue => absurd (h t hq) hdue

/-- A timer with a period of 100 ns, whose delegate asks for at least one tick again. -/
def wakingDelegate : ℕ → Reply := fun _ => ⟨[.rescheduleTaskAtLeast 0 1], 1⟩

theorem advances_account_waking :
    ∃ g, Ledger.init.call (.scheduleTask 0 100 1) = .ok g ∧ ∃ g',
      Advances g [⟨150, 1000000000, wakingDelegate⟩] g' ∧
      (∀ t, (g'.scheduler.tasks t).period ≠ 0 →
        g'.handed t = (((g'.scheduler.tasks t).lastUpdate - g'.start t) /
          (g'.scheduler.tasks t).period).toNat) ∧
      (∃ bs, g'.batches = g.batches ++ bs ∧ (∀ b ∈ bs, b.due ≤ b.time) ∧
        bs.Pairwise fun a b => a.due ≤ b.due) ∧
      Settled g'.scheduler := by
  have hrun : ∃ g, Ledger.init.call (.scheduleTask 0 100 1) = .ok g ∧
      (g.scheduler.accTime.toNat + (150 * oneSec / 1000000000 : Time).toNat < 2 ^ 64 ∧
        ∀ t, (elapse g.scheduler 150 1000000000).queue none = some t →
          (wakingDelegate 0).Faithful (elapse g.scheduler 150 1000000000) t ∧
          ∀ s', dispatch (elapse g.scheduler 150 1000000000) t (wakingDelegate 0) = .ok s' →
            ∀ x, s'.queue none = some x → s'.accTime < (s'.tasks x).nextUpdate) := by
    decide +kernel
  obtain ⟨g, hg, htime, hhead⟩ := hrun
  have hfaithful : StepsFaithful g.scheduler [⟨150, 1000000000, wakingDelegate⟩] := by
    refine ⟨⟨by decide, htime, ?_⟩, fun _ _ _ _ => trivial⟩
    intro n
    cases n with
    | zero => trivial
    | succ n =>
      rw [Step.replies_succ]
      intro t hq _
      exact ⟨(hhead t hq).1, fun s' hs' =>
        repliesFaithful_of_not_due _ ((hhead t hq).2 s' hs')⟩
  have hreached : Reached g := .call _ .init (by decide +kernel) hg
  obtain ⟨g', hsteps, hticks, hbatches, hset⟩ := advances_account hreached _ hfaithful
  exact ⟨g, hg, g', hsteps, hticks, hbatches, hset (by simp)⟩

/-- The same delegate 2.5 periods late: it is handed one tick, the batch becomes two
ticks under its hands, and the last update moves on by two. -/
theorem advance_loses_ticks :
    ∃ g, (Ledger.init.call (.scheduleTask 0 100 1) >>= fun g =>
        g.advance 250 1000000000 [wakingDelegate 0]) = .ok g ∧
      (∀ t, g.scheduler.queue none = some t →
        g.scheduler.accTime < (g.scheduler.tasks t).nextUpdate) ∧
      g.handed 0 = 1 ∧
      (((g.scheduler.tasks 0).lastUpdate - g.start 0) / (g.scheduler.tasks 0).period).toNat = 2 := by
  decide +kernel

end Cloudpilot.Uarm.Scheduling
