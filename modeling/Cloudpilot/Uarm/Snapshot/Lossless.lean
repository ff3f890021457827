import Cloudpilot.Uarm.Snapshot.Protocol

/-! # The phases of the snapshot protocol

No snapshot is in flight, one waits for the database, or its result waits for the emulator
thread. In each phase it is known which pages of the database are current.
-/

namespace Cloudpilot.Uarm.SnapshotProtocol

open Library Library.PagedArray DirtyPageTracker List

section

variable {count : Kind → ℕ} {crcCheck : Bool} {s s' : State} {taken : Kind → List Word}
  {snapshot : Snapshot} {success : Bool}

def storedPages (s : State) (k : Kind) : ℕ → List Word :=
  storedPage k (s.thread.database.image k).pages

def pagesOf (data : Kind → List Word) (k : Kind) (p : ℕ) : List Word := page k.pageSize p (data k)

def State.data (s : State) (k : Kind) : List Word := (s.worker.memory k).data

/-- The page is marked. There is nothing to be said of pages behind the last one. -/
def Marked (count : Kind → ℕ) (s : State) (k : Kind) (p : ℕ) : Prop :=
  p < count k → marked (s.worker.memory k).dirtyPages p

/-- What holds in every phase. -/
structure Consistent (count : Kind → ℕ) (s : State) : Prop where
  memory : ∀ k, (s.worker.memory k).WellFormed (k.config count)
  sound : ∀ k, Sound k (count k) (s.thread.database.image k).pages
  retained : ∀ k, Retained k (s.thread.retained k)

structure Idle (count : Kind → ℕ) (s : State) : Prop extends Consistent count s where
  pending : s.worker.snapshotPending = false
  toDatabase : s.toDatabase = []
  toWorker : s.toWorker = []
  ready : ∀ k, Ready (k.config count) (s.worker.tracker k)
  covered : ∀ k, Covered (storedPages s k) (pagesOf s.data k) (Marked count s k)

/-- A snapshot of arrays that the trackers have sent away. -/
structure InFlight (count : Kind → ℕ) (taken : Kind → List Word) (snapshot : Snapshot) (s : State) :
    Prop extends Consistent count s where
  pending : s.worker.snapshotPending = true
  size : ∀ k, (taken k).length = (k.config count).size
  carries : ∀ k, ∀ pages ∈ snapshot k, Carries (k.config count) (taken k) pages
  away : ∀ k, Away (k.config count) (snapshot k) (s.worker.tracker k)

/-- The snapshot waits for the database, which has all other pages. -/
structure Posted (count : Kind → ℕ) (taken : Kind → List Word) (snapshot : Snapshot) (s : State) :
    Prop extends InFlight count taken snapshot s where
  toDatabase : s.toDatabase = [snapshot]
  toWorker : s.toWorker = []
  rest : ∀ k, Covered (storedPages s k) (pagesOf taken k)
    fun p => p < count k → Scheduled (snapshot k) p
  covered : ∀ k, Covered (pagesOf taken k) (pagesOf s.data k) (Marked count s k)

/-- The result waits for the emulator thread. -/
structure Answered (count : Kind → ℕ) (taken : Kind → List Word) (snapshot : Snapshot)
    (success : Bool) (s : State) : Prop extends InFlight count taken snapshot s where
  toDatabase : s.toDatabase = []
  toWorker : s.toWorker = [(success, snapshot)]
  stored : success = true → ∀ k, ∀ p < count k, storedPages s k p = pagesOf taken k p
  covered : ∀ k, Covered (storedPages s k) (pagesOf s.data k) fun p => p < count k →
    marked (s.worker.memory k).dirtyPages p ∨ success = false ∧ Scheduled (snapshot k) p

inductive Phase (count : Kind → ℕ) (s : State) : Prop
  | idle (h : Idle count s)
  | posted (taken : Kind → List Word) (snapshot : Snapshot) (h : Posted count taken snapshot s)
  | answered (taken : Kind → List Word) (snapshot : Snapshot) (success : Bool)
      (h : Answered count taken snapshot success s)

theorem Phase.consistent (h : Phase count s) : Consistent count s := by
  cases h with
  | idle h => exact h.toConsistent
  | posted _ _ h => exact h.toConsistent
  | answered _ _ _ h => exact h.toConsistent

section Write

variable {k : Kind} {index : ℕ} {value : Word}

def written (count : Kind → ℕ) (s : State) (k : Kind) (index : ℕ) (value : Word) : State :=
  { s with worker := writeKind count s.worker k index value }

theorem written_page (h : Consistent count s) (k : Kind) (index : ℕ) (value : Word) (k' : Kind) :
    PageWritten (k'.config count) (s.worker.memory k')
      ((written count s k index value).worker.memory k') := by
  change PageWritten _ _ (Function.update s.worker.memory k _ k')
  by_cases hk : k' = k
  · subst hk
    rw [Function.update_self]
    exact write_pageWritten (h.memory k') index value
  · rw [Function.update_of_ne hk]
    exact .refl (h.memory k')

theorem Consistent.write (h : Consistent count s) :
    Consistent count (written count s k index value) :=
  ⟨fun k' => (written_page h k index value k').wellFormed, h.sound, h.retained⟩

theorem InFlight.write (h : InFlight count taken snapshot s) :
    InFlight count taken snapshot (written count s k index value) :=
  ⟨h.toConsistent.write, h.pending, h.size, h.carries, h.away⟩

theorem Idle.write (h : Idle count s) : Idle count (written count s k index value) := by
  refine ⟨h.toConsistent.write, h.pending, h.toDatabase, h.toWorker, h.ready, fun k' => ?_⟩
  have hpage := written_page h.toConsistent k index value k'
  exact (h.covered k').write (fun p hp hlt => hpage.marks p (hp hlt))
    fun p hp _ => hpage.changed p hp

theorem Posted.write (h : Posted count taken snapshot s) :
    Posted count taken snapshot (written count s k index value) := by
  refine ⟨h.toInFlight.write, h.toDatabase, h.toWorker, h.rest, fun k' => ?_⟩
  have hpage := written_page h.toConsistent k index value k'
  exact (h.covered k').write (fun p hp hlt => hpage.marks p (hp hlt))
    fun p hp _ => hpage.changed p hp

theorem Answered.write (h : Answered count taken snapshot success s) :
    Answered count taken snapshot success (written count s k index value) := by
  refine ⟨h.toInFlight.write, h.toDatabase, h.toWorker, h.stored, fun k' => ?_⟩
  have hpage := written_page h.toConsistent k index value k'
  exact (h.covered k').write (fun p hp hlt => (hp hlt).imp_left (hpage.marks p))
    fun p hp _ => .inl (hpage.changed p hp)

end Write

theorem step_trigger_pending (h : s.worker.snapshotPending = true) :
    step count crcCheck s .trigger = .ok s := by
  rw [step, triggerSnapshot, if_pos h]
  change Except.ok { s with toDatabase := s.toDatabase ++ [] } = _
  rw [append_nil]

theorem Idle.trigger (h : Idle count s) (crcCheck : Bool) :
    (∃ s', step count crcCheck s .trigger = .ok s' ∧ Idle count s') ∨
      ∃ s' snapshot, step count crcCheck s .trigger = .ok s' ∧ Posted count s.data snapshot s' := by
  obtain ⟨w, posted, snapshot, t, hrun, htriggered⟩ :=
    triggerSnapshot_spec h.memory h.ready h.pending crcCheck
  have hstep : step count crcCheck s .trigger =
      .ok { s with worker := w, toDatabase := s.toDatabase ++ posted.toList } := by
    rw [step, hrun]
    rfl
  have hdata : ∀ k, (w.memory k).data = s.data k := fun k => (htriggered.taken k).data
  have hmemory : ∀ k, (w.memory k).WellFormed (k.config count) :=
    fun k => (htriggered.taken k).wellFormed
  cases posted with
  | none =>
    obtain ⟨hnone, htracker, hpending⟩ := htriggered.none rfl
    refine .inl ⟨_, hstep, ⟨hmemory, h.sound, h.retained⟩, hpending,
      by rw [h.toDatabase]; rfl, h.toWorker, fun k => ?_, fun k => ?_⟩
    · rw [htracker]
      exact ((htriggered.taken k).none (hnone k)).2
    · have hno := ((htriggered.taken k).none (hnone k)).1
      intro p hp hlt
      have hsame : pagesOf s.data k p = page k.pageSize p (w.memory k).data := by
        rw [hdata]
        rfl
      exact absurd (h.covered k p (by rw [hsame]; exact hp) hlt) (hno p)
  | some posted =>
    obtain ⟨rfl, htracker, hpending⟩ := htriggered.some posted rfl
    refine .inr ⟨_, posted, hstep, ⟨⟨hmemory, h.sound, h.retained⟩, hpending, ?_, ?_, ?_⟩,
      by rw [h.toDatabase]; rfl, h.toWorker, fun k => ?_, fun k => ?_⟩
    · exact fun k => (h.memory k).data
    · exact fun k pages hpages => ((htriggered.taken k).some pages hpages).1
    · intro k
      rw [htracker]
      exact (htriggered.taken k).away
    · intro p hp hlt
      have hmarked := h.covered k p hp hlt
      cases hk : posted k with
      | none => exact absurd hmarked (((htriggered.taken k).none hk).1 p)
      | some pages => exact ⟨pages, rfl, (((htriggered.taken k).some pages hk).2.1 p).mp hmarked⟩
    · have hsame : pagesOf s.data k = pagesOf (fun k => (w.memory k).data) k := by simp [hdata]
      rw [hsame]
      exact covered_self _ _

theorem Posted.store (h : Posted count taken snapshot s) (crcCheck : Bool) (outcome : StoreOutcome) :
    ∃ s' success, step count crcCheck s (.store outcome) = .ok s' ∧
      Answered count taken snapshot success s' := by
  have hstored := storeSnapshot_stored h.sound h.retained h.size h.carries outcome
  set r := storeSnapshot s.thread snapshot outcome with hr
  refine ⟨⟨s.worker, [], r.1, [(r.2, snapshot)]⟩, r.2, ?_, ?_⟩
  · rw [step, h.toDatabase]
    rw [h.toWorker]
    rfl
  have hunscheduled : ∀ k, ∀ p < count k, ¬ Scheduled (snapshot k) p →
      storedPage k (r.1.database.image k).pages p = pagesOf taken k p := by
    intro k p hlt hp
    rcases (hstored.sent k).either p with hold | hnew
    · rw [hold]
      by_contra hne
      exact hp (h.rest k p hne hlt)
    · grind
  have hall : r.2 = true → ∀ k, ∀ p < count k,
      storedPage k (r.1.database.image k).pages p = pagesOf taken k p := by
    intro hsuccess k p hlt
    by_cases hp : Scheduled (snapshot k) p
    · exact hstored.complete hsuccess k p hp
    · grind
  refine ⟨⟨⟨h.memory, fun k => (hstored.sent k).sound, hstored.retained⟩, h.pending, h.size,
    h.carries, h.away⟩, rfl, rfl, hall, fun k p hp hlt => ?_⟩
  have hstoredTaken : storedPage k (r.1.database.image k).pages p = pagesOf taken k p →
      marked (s.worker.memory k).dirtyPages p :=
    fun heq => h.covered k p (fun hsame => hp (heq.trans hsame)) hlt
  cases hsuccess : r.2 with
  | true => exact .inl (hstoredTaken (hall hsuccess k p hlt))
  | false => grind

theorem Answered.done (h : Answered count taken snapshot success s) (crcCheck : Bool) :
    ∃ s', step count crcCheck s .done = .ok s' ∧ Idle count s' ∧
      (success = false → ∀ k p, Scheduled (snapshot k) p →
        marked (s'.worker.memory k).dirtyPages p) := by
  have hreturned : ∀ k, Returned (k.config count) (snapshot k) success (s.worker.memory k)
      ((snapshotDone count s.worker success snapshot).memory k)
      ((snapshotDone count s.worker success snapshot).tracker k) :=
    fun k => onSnapshotDone_returned (h.memory k) (h.away k) (h.carries k) success
  refine ⟨⟨snapshotDone count s.worker success snapshot, [], s.thread, []⟩, ?_, ?_, ?_⟩
  · rw [step, h.toWorker, ← h.toDatabase]
  · refine ⟨⟨fun k => (hreturned k).wellFormed, h.sound, h.retained⟩, rfl, rfl, rfl,
      fun k => (hreturned k).ready, fun k p hp hlt => ?_⟩
    have hsame : pagesOf s.data k p = page k.pageSize p
        ((snapshotDone count s.worker success snapshot).memory k).data := by
      rw [(hreturned k).data]
      rfl
    rcases h.covered k p (by rw [hsame]; exact hp) hlt with hmarked | ⟨hfailed, hsched⟩
    · exact (hreturned k).marks p hmarked
    · exact (hreturned k).remarked hfailed p hsched
  · exact fun hfailed k p hp => (hreturned k).remarked hfailed p hp

theorem step_store_nothing (h : s.toDatabase = []) (outcome : StoreOutcome) :
    step count crcCheck s (.store outcome) = .ok s := by
  rw [step, h]

theorem step_done_nothing (h : s.toWorker = []) : step count crcCheck s .done = .ok s := by
  rw [step, h]

theorem Phase.step (h : Phase count s) (crcCheck : Bool) (e : Event) :
    ∃ s', step count crcCheck s e = .ok s' ∧ Phase count s' := by
  cases e with
  | write k index value =>
    refine ⟨written count s k index value, rfl, ?_⟩
    cases h with
    | idle h => exact .idle h.write
    | posted taken snapshot h => exact .posted _ _ h.write
    | answered taken snapshot success h => exact .answered _ _ _ h.write
  | trigger =>
    cases h with
    | idle h =>
      rcases h.trigger crcCheck with ⟨s', hstep, h'⟩ | ⟨s', snapshot, hstep, h'⟩
      · exact ⟨s', hstep, .idle h'⟩
      · exact ⟨s', hstep, .posted _ _ h'⟩
    | posted taken snapshot h => exact ⟨s, step_trigger_pending h.pending, .posted _ _ h⟩
    | answered taken snapshot success h => exact ⟨s, step_trigger_pending h.pending, .answered _ _ _ h⟩
  | store outcome =>
    cases h with
    | idle h => exact ⟨s, step_store_nothing h.toDatabase outcome, .idle h⟩
    | posted taken snapshot h =>
      obtain ⟨s', success, hstep, h'⟩ := h.store crcCheck outcome
      exact ⟨s', hstep, .answered _ _ _ h'⟩
    | answered taken snapshot success h =>
      exact ⟨s, step_store_nothing h.toDatabase outcome, .answered _ _ _ h⟩
  | done =>
    cases h with
    | idle h => exact ⟨s, step_done_nothing h.toWorker, .idle h⟩
    | posted taken snapshot h => exact ⟨s, step_done_nothing h.toWorker, .posted _ _ h⟩
    | answered taken snapshot success h =>
      obtain ⟨s', hstep, h', -⟩ := h.done crcCheck
      exact ⟨s', hstep, .idle h'⟩

theorem run_cons {s' : State} (e : Event) (events : List Event)
    (h : step count crcCheck s e = .ok s') :
    run count crcCheck s (e :: events) = run count crcCheck s' events := by
  rw [run, foldlM_cons, h]
  rfl

theorem run_append {s' : State} {events events' : List Event}
    (h : run count crcCheck s events = .ok s') :
    run count crcCheck s (events ++ events') = run count crcCheck s' events' := by
  unfold run at h ⊢
  rw [foldlM_append, h]
  rfl

theorem Phase.run (h : Phase count s) (crcCheck : Bool) (events : List Event) :
    ∃ t, run count crcCheck s events = .ok t ∧ Phase count t := by
  induction events generalizing s with
  | nil => exact ⟨s, rfl, h⟩
  | cons e events ih =>
    obtain ⟨s', hstep, h'⟩ := h.step crcCheck e
    rw [run_cons e events hstep]
    exact ih h'

theorem Posted.run (h : Posted count taken snapshot s) (crcCheck : Bool) {events : List Event}
    (hevents : ∀ e ∈ events, ∀ outcome, e ≠ .store outcome) :
    ∃ t, SnapshotProtocol.run count crcCheck s events = .ok t ∧ Posted count taken snapshot t := by
  induction events generalizing s with
  | nil => exact ⟨s, rfl, h⟩
  | cons e events ih =>
    have hrest : ∀ e ∈ events, ∀ outcome, e ≠ .store outcome :=
      fun e he => hevents e (mem_cons_of_mem _ he)
    have hstep : ∃ s', SnapshotProtocol.step count crcCheck s e = .ok s' ∧
        Posted count taken snapshot s' := by
      cases e with
      | write k index value => exact ⟨_, rfl, h.write⟩
      | trigger => exact ⟨s, step_trigger_pending h.pending, h⟩
      | store outcome => exact absurd rfl (hevents _ mem_cons_self outcome)
      | done => exact ⟨s, step_done_nothing h.toWorker, h⟩
    obtain ⟨s', hstep, h'⟩ := hstep
    rw [run_cons e events hstep]
    exact ih h' hrest

end

open Library Library.TypedArray Library.PagedArray DirtyPageTracker

variable {count : Kind → ℕ} {crcCheck : Bool} {s : State} {db : Database}

theorem getContent_spec {k : Kind} (h : Sound k (count k) (db.image k).pages) (crcCheck : Bool) :
    ∃ content alerts, getContent k (count k) crcCheck db = .ok (content, alerts) ∧
      content.length = (k.config count).size ∧
      ∀ p < count k, page k.pageSize p content = storedPage k (db.image k).pages p := by
  obtain ⟨content, hread, hlength, hpages⟩ := getPagedData_spec h
  refine ⟨content, crcAlert k crcCheck (db.image k) content, ?_, hlength, hpages⟩
  rw [getContent, hread]
  rfl

theorem page_behind {k : Kind} {data : List Word} (hdata : data.length = (k.config count).size) {p : ℕ}
    (hp : count k ≤ p) : page k.pageSize p data = [] := by
  apply page_of_length_le
  rw [hdata, Nat.mul_comm p]
  exact Nat.mul_le_mul_left _ hp

theorem Phase.getContent (h : Phase count s) (k : Kind) (crcCheck : Bool) :
    ∃ content alerts,
      SnapshotProtocol.getContent k (count k) crcCheck s.thread.database = .ok (content, alerts) ∧
      content.length = (k.config count).size ∧
      ∀ p < count k, page k.pageSize p content = storedPages s k p :=
  getContent_spec (h.consistent.sound k) crcCheck

theorem Phase.marked_or_scheduled (h : Phase count s) (k : Kind) :
    Covered (storedPages s k) (pagesOf s.data k)
      fun p => p < count k → marked (s.worker.memory k).dirtyPages p ∨ s.Scheduled k p := by
  cases h with
  | idle h => exact (h.covered k).mono fun p hp hlt => .inl (hp hlt)
  | posted taken snapshot h =>
    intro p hne hlt
    by_cases hsame : storedPages s k p = pagesOf taken k p
    · exact .inl (h.covered k p (fun heq => hne (hsame.trans heq)) hlt)
    · have hmem : snapshot ∈ s.inFlight := by simp [State.inFlight, h.toDatabase]
      exact .inr ⟨snapshot, hmem, h.rest k p hsame hlt⟩
  | answered taken snapshot success h =>
    have hmem : snapshot ∈ s.inFlight := by simp [State.inFlight, h.toDatabase, h.toWorker]
    exact (h.covered k).mono fun p hp hlt => (hp hlt).imp_right fun hsched => ⟨snapshot, hmem, hsched.2⟩

theorem Phase.tracked (h : Phase count s) : Tracked count s := by
  constructor
  · cases h with
    | idle h => rw [State.inFlight, h.toDatabase, h.toWorker]; exact Nat.zero_le 1
    | posted _ _ h => rw [State.inFlight, h.toDatabase, h.toWorker]; exact le_rfl
    | answered _ _ _ h => rw [State.inFlight, h.toDatabase, h.toWorker]; exact le_rfl
  · intro k crcCheck
    obtain ⟨content, alerts, hread, hlength, hpages⟩ := h.getContent k crcCheck
    refine ⟨content, alerts, hread, fun p hne => ?_⟩
    by_cases hlt : p < count k
    · rw [hpages p hlt] at hne
      exact h.marked_or_scheduled k p hne hlt
    · rw [page_behind hlength (not_lt.mp hlt),
        page_behind (h.consistent.memory k).data (not_lt.mp hlt)] at hne
      exact absurd rfl hne

theorem Phase.remarks (h : Phase count s) (crcCheck : Bool) : Remarks count crcCheck s := by
  intro snapshot rest s' htoWorker hstep k p hsched
  cases h with
  | idle h => grind [h.toWorker]
  | posted _ _ h => grind [h.toWorker]
  | answered taken sent success h =>
    obtain ⟨s'', hdone, -, hremarked⟩ := h.done crcCheck
    obtain rfl := Except.ok.inj (hdone.symm.trans hstep)
    have hfailed : success = false := by grind [h.toWorker]
    obtain ⟨other, hmem, hp⟩ := hsched
    rw [State.inFlight, h.toDatabase, h.toWorker] at hmem
    obtain rfl := mem_singleton.mp hmem
    exact hremarked hfailed k p hp

theorem Answered.getContent {taken : Kind → List Word} {snapshot : Snapshot}
    (h : Answered count taken snapshot true s) (k : Kind) (crcCheck : Bool) :
    ∃ alerts, SnapshotProtocol.getContent k (count k) crcCheck s.thread.database =
      .ok (taken k, alerts) := by
  obtain ⟨content, alerts, hread, hlength, hpages⟩ := getContent_spec (h.sound k) crcCheck
  have hsame : content = taken k := by
    apply ext_page k.pageSize_pos
    intro p
    by_cases hlt : p < count k
    · rw [hpages p hlt]
      exact h.stored rfl k p hlt
    · rw [page_behind hlength (not_lt.mp hlt), page_behind (h.size k) (not_lt.mp hlt)]
  rw [hsame] at hread
  exact ⟨alerts, hread⟩

theorem Phase.storesTaken (h : Phase count s) (crcCheck : Bool) : StoresTaken count crcCheck s := by
  intro s₁ snapshot events outcome t htrigger hposted hevents hrun hanswer k crcCheck'
  have hcontra : s.worker.snapshotPending ≠ true := by
    intro hpending
    obtain rfl := Except.ok.inj ((step_trigger_pending hpending).symm.trans htrigger)
    exact absurd (congrArg List.length hposted) (by simp)
  cases h with
  | posted _ _ h => exact absurd h.pending hcontra
  | answered _ _ _ h => exact absurd h.pending hcontra
  | idle h =>
    rcases h.trigger crcCheck with ⟨s', hstep, h'⟩ | ⟨s', sent, hstep, h'⟩
    · grind [h'.toDatabase, h.toDatabase]
    · obtain rfl := Except.ok.inj (hstep.symm.trans htrigger)
      obtain ⟨s₂, hrun₂, h₂⟩ := h'.run crcCheck hevents
      obtain ⟨s₃, success, hstore, h₃⟩ := h₂.store crcCheck outcome
      have ht : t = s₃ := by
        rw [run_append hrun₂, run_cons _ _ hstore] at hrun
        exact (Except.ok.inj hrun).symm
      subst ht
      rw [h₃.toWorker, mem_singleton] at hanswer
      obtain rfl := congrArg Prod.fst hanswer
      exact h₃.getContent k crcCheck'

theorem putPagedData_sound (k : Kind) (n : ℕ) {data : List Word}
    (hdata : data.length = k.pageSize * n) {pages : ObjectStore ℕ StoredPage}
    (hput : putPagedData data k.pageSize k.emptyValue = .ok pages) : Sound k n pages := by
  rw [putPagedData, hdata, if_neg (by simp), Nat.mul_div_cancel_left _ k.pageSize_pos] at hput
  cases hput
  apply foldl_range (I := fun _ => Sound k n)
  · intro p v hget
    cases hget
  · intro i hi store hstore
    change Sound k n (if compressPage _ = _ then store else store.put (compressPage _) i)
    split_ifs
    · exact hstore
    · have hlength : (page k.pageSize i data).length = k.pageSize :=
        length_page_of_lt (show data.length = TrackerConfig.size ⟨k.pageSize, n, false⟩ from hdata) hi
      rw [subarray_page]
      exact hstore.put hi (by rw [compressPage_decode k.pageSize_pos hlength, hlength])

theorem boot_idle (h : ∀ k, Sound k (count k) (db.image k).pages) (crcCheck : Bool) :
    ∃ s, boot count crcCheck db = .ok s ∧ Idle count s ∧ s.thread.database = db := by
  have hread := fun k => getContent_spec (h k) crcCheck
  choose content alerts hcontent hlength hpages using hread
  have hkind : byKind (content .nand) (content .sd) (content .ram) = content := by
    funext k
    cases k <;> rfl
  refine ⟨⟨⟨fun k => ⟨content k, replicate (k.config count).dirtyPagesSize4 0, false⟩,
    fun k => create (k.config count), false⟩, [], ⟨db, fun _ => []⟩, []⟩, ?_, ?_, rfl⟩
  · rw [boot, hcontent]
    rw [hcontent]
    rw [hcontent]
    change Except.ok _ = _
    rw [hkind]
  · have hno : ∀ (n : ℕ) p, ¬ marked (replicate n 0) p := by
      intro n p
      rw [marked, getD_eq_getElem?_getD, getElem?_replicate]
      split_ifs <;> simp
    refine ⟨⟨fun k => ⟨k.pageSize_pos, hlength k, length_replicate, ?_, ?_⟩, h, ?_⟩, rfl, rfl,
      rfl, fun k => ⟨length_replicate, ?_, rfl⟩, fun k p hp hlt => ?_⟩
    · exact fun p hp => absurd hp (hno _ p)
    · grind
    · rintro k buffer hbuffer
      cases hbuffer
    · exact ⟨initialPagePoolPages, by decide, length_replicate⟩
    · exact absurd (hpages k p hlt).symm hp

theorem Written.sound (h : Written count db) (k : Kind) : Sound k (count k) (db.image k).pages := by
  induction h generalizing k with
  | fresh =>
    intro p v hget
    cases hget
  | @put count db db' put name n data _ hdata hput ih =>
    cases hpages : putPagedData data put.pageSize put.emptyValue with
    | error e =>
      rw [putContent, hpages] at hput
      cases hput
    | ok pages =>
      have hsound := putPagedData_sound put n hdata hpages
      have hothers : ∀ k, Sound k (Function.update count put n k)
          (Function.update db.image put ⟨pages, none⟩ k).pages := by grind
      rw [putContent, hpages] at hput
      cases put with
      | nand =>
        cases hput
        cases k with
        | ram =>
          intro p v hget
          cases hget
        | nand => exact hothers .nand
        | sd => exact hothers .sd
      | sd =>
        cases hput
        exact hothers k
      | ram =>
        cases hput
        exact hothers k
  | @session count db s t crcCheck events _ hboot hrun ih =>
    obtain ⟨s', hboot', hidle, -⟩ := boot_idle ih crcCheck
    obtain rfl := Except.ok.inj (hboot'.symm.trans hboot)
    obtain ⟨t', hrun', ht⟩ := (Phase.idle hidle).run crcCheck events
    obtain rfl := Except.ok.inj (hrun'.symm.trans hrun)
    exact ht.consistent.sound k

/-- An emulator starts on every database that exists, and in every run nothing is thrown, one
snapshot at most is in flight, every page that the database does not have is marked or in
flight, a failed snapshot marks its pages again, and what has been stored can be read. -/
theorem snapshots_lossless {count : Kind → ℕ} {db : Database} (h : Written count db) (crcCheck : Bool) :
    ∃ s, boot count crcCheck db = .ok s ∧ ∀ events, ∃ t, run count crcCheck s events = .ok t ∧
      Tracked count t ∧ Remarks count crcCheck t ∧ StoresTaken count crcCheck t := by
  obtain ⟨s, hboot, hidle, -⟩ := boot_idle h.sound crcCheck
  refine ⟨s, hboot, fun events => ?_⟩
  obtain ⟨t, hrun, ht⟩ := (Phase.idle hidle).run crcCheck events
  exact ⟨t, hrun, ht.tracked, ht.remarks crcCheck, ht.storesTaken crcCheck⟩

/-- One page of RAM. -/
theorem snapshots_lossless_page :
    ∃ db, putContent .ram "page" (List.replicate 128 5) ⟨fun _ => ⟨.empty, none⟩, none, none, none⟩ =
        .ok db ∧
      ∃ s, boot (Function.update (fun _ => 0) .ram 1) true db = .ok s ∧
        ∀ events, ∃ t, run (Function.update (fun _ => 0) .ram 1) true s events = .ok t ∧
          Tracked (Function.update (fun _ => 0) .ram 1) t ∧
          Remarks (Function.update (fun _ => 0) .ram 1) true t ∧
          StoresTaken (Function.update (fun _ => 0) .ram 1) true t := by
  have hlength : (replicate 128 (5 : Word)).length = Kind.ram.pageSize * 1 :=
    length_replicate
  have hput : ∃ db, putContent .ram "page" (replicate 128 5)
      ⟨fun _ => ⟨.empty, none⟩, none, none, none⟩ = .ok db := by
    rw [putContent, putPagedData, hlength, if_neg (by decide)]
    exact ⟨_, rfl⟩
  obtain ⟨db, hput⟩ := hput
  exact ⟨db, hput, snapshots_lossless (.put .ram "page" 1 .fresh hlength hput) true⟩

end Cloudpilot.Uarm.SnapshotProtocol
