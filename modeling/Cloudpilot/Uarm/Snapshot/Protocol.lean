import Cloudpilot.Uarm.Snapshot.Database
import Cloudpilot.Uarm.Snapshot.StorePages

/-! # The snapshot protocol of the emulator thread and the database thread

The emulator thread posts a snapshot and goes on; the database thread stores it and
posts the result back. Messages wait in two queues, in the order in which they were
posted.
-/

namespace Cloudpilot.Uarm.SnapshotProtocol

open Library DirtyPageTracker List

structure Worker where
  memory : Kind → Memory
  tracker : Kind → DirtyPageTracker
  snapshotPending : Bool

/-- Both threads and the messages between them. -/
structure State where
  worker : Worker
  toDatabase : List Snapshot
  thread : DatabaseThread
  toWorker : List (Bool × Snapshot)

def byKind {α : Type} (nand sd ram : α) : Kind → α
  | .nand => nand
  | .sd => sd
  | .ram => ram

section

variable (count : Kind → ℕ) (crcCheck : Bool)

/-- `takeSnapshot` of the tracker of one memory. -/
def takeKind (w : Worker) (k : Kind) : Except Fault (Worker × Option SnapshotPages) := do
  let ((t, m), pages) ← takeSnapshot (k.config count) crcCheck (w.tracker k) (w.memory k)
  .ok ({ w with
    tracker := Function.update w.tracker k t
    memory := Function.update w.memory k m }, pages)

/-- The second component is the message that is posted. -/
def triggerSnapshot (w : Worker) : Except Fault (Worker × Option Snapshot) :=
  if w.snapshotPending then .ok (w, none)
  else do
    let (w, snapshotNand) ← takeKind count crcCheck w .nand
    let (w, snapshotSd) ← takeKind count crcCheck w .sd
    let (w, snapshotRam) ← takeKind count crcCheck w .ram
    if snapshotNand.isNone ∧ snapshotSd.isNone ∧ snapshotRam.isNone then .ok (w, none)
    else .ok ({ w with tracker := fun k => detach (w.tracker k), snapshotPending := true },
      some (byKind snapshotNand snapshotSd snapshotRam))

def writeKind (w : Worker) (k : Kind) (index : ℕ) (value : Word) : Worker :=
  { w with memory := Function.update w.memory k ((w.memory k).write (k.config count) index value) }

def snapshotDone (w : Worker) (success : Bool) (snapshot : Snapshot) : Worker where
  tracker := fun k =>
    (onSnapshotDone (k.config count) success (snapshot k) (w.tracker k) (w.memory k)).1
  memory := fun k =>
    (onSnapshotDone (k.config count) success (snapshot k) (w.tracker k) (w.memory k)).2
  snapshotPending := false

/-- `store` is the database thread taking a message, `done` the emulator thread taking a
result. -/
inductive Event
  | write (k : Kind) (index : ℕ) (value : Word)
  | trigger
  | store (outcome : StoreOutcome)
  | done

def step (s : State) : Event → Except Fault State
  | .write k index value => .ok { s with worker := writeKind count s.worker k index value }
  | .trigger => do
    let (worker, posted) ← triggerSnapshot count crcCheck s.worker
    .ok { s with worker, toDatabase := s.toDatabase ++ posted.toList }
  | .store outcome =>
    match s.toDatabase with
    | [] => .ok s
    | snapshot :: rest =>
      let stored := storeSnapshot s.thread snapshot outcome
      .ok { s with
        toDatabase := rest
        thread := stored.1
        toWorker := s.toWorker ++ [(stored.2, snapshot)] }
  | .done =>
    match s.toWorker with
    | [] => .ok s
    | (success, snapshot) :: rest =>
      .ok { s with worker := snapshotDone count s.worker success snapshot, toWorker := rest }

def run (s : State) (events : List Event) : Except Fault State :=
  events.foldlM (step count crcCheck) s

/-- The memories are loaded from the database, and the emulator starts. -/
def boot (db : Database) : Except Fault State := do
  let (nand, _) ← getContent .nand (count .nand) crcCheck db
  let (sd, _) ← getContent .sd (count .sd) crcCheck db
  let (ram, _) ← getContent .ram (count .ram) crcCheck db
  let content := byKind nand sd ram
  .ok {
    worker := {
      memory := fun k =>
        ⟨content k, List.replicate (k.config count).dirtyPagesSize4 0, false⟩
      tracker := fun k => create (k.config count)
      snapshotPending := false }
    toDatabase := []
    thread := ⟨db, fun _ => []⟩
    toWorker := [] }

end

/-- The databases that exist: images are put into an empty one, and emulators run on it. -/
inductive Written : (Kind → ℕ) → Database → Prop
  | fresh : Written (fun _ => 0) ⟨fun _ => ⟨.empty, none⟩, none, none, none⟩
  | put {count : Kind → ℕ} {db db' : Database} (k : Kind) (name : String) (n : ℕ)
      {data : List Word} (h : Written count db) (hdata : data.length = k.pageSize * n)
      (hput : putContent k name data db = .ok db') : Written (Function.update count k n) db'
  | session {count : Kind → ℕ} {db : Database} {s t : State} {crcCheck : Bool}
      {events : List Event} (h : Written count db) (hboot : boot count crcCheck db = .ok s)
      (hrun : run count crcCheck s events = .ok t) : Written count t.thread.database

def State.inFlight (s : State) : List Snapshot := s.toDatabase ++ s.toWorker.map Prod.snd

/-- The page is scheduled in a snapshot that is in flight. -/
def State.Scheduled (s : State) (k : Kind) (p : ℕ) : Prop :=
  ∃ snapshot ∈ s.inFlight, ∃ pages ∈ snapshot k, p ∈ pages.pages

/-- What holds in every state: one snapshot at most is in flight, and whatever would not be
read from the database is marked or on its way. -/
structure Tracked (count : Kind → ℕ) (s : State) : Prop where
  alone : s.inFlight.length ≤ 1
  covered : ∀ k crcCheck, ∃ content alerts,
    getContent k (count k) crcCheck s.thread.database = .ok (content, alerts) ∧
      ∀ p, PagedArray.page k.pageSize p content ≠
          PagedArray.page k.pageSize p (s.worker.memory k).data →
        marked (s.worker.memory k).dirtyPages p ∨ s.Scheduled k p

/-- A failed snapshot marks its pages again. -/
def Remarks (count : Kind → ℕ) (crcCheck : Bool) (s : State) : Prop :=
  ∀ snapshot rest s', s.toWorker = (false, snapshot) :: rest → step count crcCheck s .done = .ok s' →
    ∀ k p, s.Scheduled k p → marked (s'.worker.memory k).dirtyPages p

/-- A snapshot that is stored successfully makes the database hold what the memories held
when it was taken, whatever has happened since. -/
def StoresTaken (count : Kind → ℕ) (crcCheck : Bool) (s : State) : Prop :=
  ∀ s₁ snapshot events outcome t, step count crcCheck s .trigger = .ok s₁ →
    s₁.toDatabase = s.toDatabase ++ [snapshot] → (∀ e ∈ events, ∀ outcome, e ≠ .store outcome) →
    run count crcCheck s₁ (events ++ [.store outcome]) = .ok t → (true, snapshot) ∈ t.toWorker →
    ∀ k crcCheck, ∃ alerts,
      getContent k (count k) crcCheck t.thread.database = .ok ((s.worker.memory k).data, alerts)

open Library Library.PagedArray DirtyPageTracker

variable {cfg : TrackerConfig} {m : Memory} {t : DirtyPageTracker} {p : ℕ}

theorem div_lt_dirtyPagesSize4 (hp : p < cfg.pageCount) : p / 32 < cfg.dirtyPagesSize4 := by
  rw [TrackerConfig.dirtyPagesSize4]
  split_ifs <;> omega

theorem isDirty_of_dirty (cfg : TrackerConfig) (h : m.dirty = true) : isDirty cfg m = true := by
  rw [isDirty, h, Bool.or_true]

theorem isDirty_setDirty (cfg : TrackerConfig) (m : Memory) : isDirty cfg (setDirty cfg m true) = true := by
  unfold isDirty setDirty
  split_ifs with h
  · grind
  · simp

/-- What a write changes: at most one page, which is marked. -/
structure PageWritten (cfg : TrackerConfig) (m m' : Memory) : Prop where
  wellFormed : m'.WellFormed cfg
  marks : ∀ p, marked m.dirtyPages p → marked m'.dirtyPages p
  changed : ∀ p, page cfg.pageSize p m'.data ≠ page cfg.pageSize p m.data → marked m'.dirtyPages p

theorem PageWritten.refl (h : m.WellFormed cfg) : PageWritten cfg m m :=
  ⟨h, fun _ => id, fun _ hne => absurd rfl hne⟩

theorem write_pageWritten (h : m.WellFormed cfg) (index : ℕ) (value : Word) :
    PageWritten cfg m (m.write cfg index value) := by
  rw [Memory.write]
  by_cases hindex : index < m.data.length
  swap
  · rw [if_neg hindex]
    exact .refl h
  have hpage : index / cfg.pageSize < cfg.pageCount := by
    rw [h.data] at hindex
    exact Nat.div_lt_of_lt_mul hindex
  have hword : index / cfg.pageSize / 32 < m.dirtyPages.length := by
    rw [h.dirtyPages]
    exact div_lt_dirtyPagesSize4 hpage
  rw [if_pos hindex]
  refine ⟨⟨h.pos, ?_, ?_, ?_, ?_⟩, ?_, ?_⟩
  · exact length_set.trans h.data
  · exact (length_markPage ..).trans h.dirtyPages
  · intro p hp
    rcases (marked_markPage hword).mp hp with rfl | hold
    · exact hpage
    · exact h.marks p hold
  · intro hclean
    rw [isDirty_of_dirty cfg rfl] at hclean
    cases hclean
  · exact fun p hp => (marked_markPage hword).mpr (.inr hp)
  · intro p hne
    apply (marked_markPage hword).mpr
    by_contra hother
    exact hne (page_set_of_ne fun heq => hother (.inl heq))

/-- The tracker has sent its buffers away, unless its memory is not part of the snapshot. -/
structure Away (cfg : TrackerConfig) (snapshot : Option SnapshotPages) (t : DirtyPageTracker) :
    Prop where
  none : snapshot = none → Ready cfg t
  some : ∀ pages, snapshot = some pages → t.scheduledPageCount = pages.scheduledPageCount

structure Returned (cfg : TrackerConfig) (snapshot : Option SnapshotPages) (success : Bool)
    (m m' : Memory) (t' : DirtyPageTracker) : Prop where
  ready : Ready cfg t'
  data : m'.data = m.data
  wellFormed : m'.WellFormed cfg
  marks : ∀ p, marked m.dirtyPages p → marked m'.dirtyPages p
  remarked : success = false → ∀ p, Scheduled snapshot p → marked m'.dirtyPages p

theorem remark_loop {data : List Word} {pages : SnapshotPages} (h : m.WellFormed cfg)
    (hcarries : Carries cfg data pages) (n : ℕ) (hn : n ≤ pages.scheduledPageCount) :
    let bits := (List.range n).foldl
      (fun bits i => markPage bits (pages.scheduledPages.getD i 0)) m.dirtyPages
    bits.length = m.dirtyPages.length ∧
      (∀ p, marked bits p ↔ marked m.dirtyPages p ∨ p ∈ pages.pages.take n) := by
  apply foldl_range (I := fun n (bits : List Word) => bits.length = m.dirtyPages.length ∧
    ∀ p, marked bits p ↔ marked m.dirtyPages p ∨ p ∈ pages.pages.take n)
  · simp
  · rintro i hi bits ⟨hlength, hbits⟩
    have hlt : i < pages.pages.length := by
      rw [hcarries.count]
      omega
    have hget : pages.scheduledPages.getD i 0 = pages.pages[i] := by
      have hsome := getElem?_eq_getElem hlt
      have hpages : pages.pages[i]? = pages.scheduledPages[i]? := getElem?_take_of_lt (by omega)
      rw [hpages] at hsome
      rw [getD_eq_getElem?_getD, hsome]
      rfl
    have hword : pages.pages[i] / 32 < bits.length := by
      rw [hlength, h.dirtyPages]
      exact div_lt_dirtyPagesSize4 (hcarries.bound _ (getElem_mem hlt))
    refine ⟨(length_markPage ..).trans hlength, fun p => ?_⟩
    rw [hget, marked_markPage hword, hbits, take_succ_eq_append_getElem hlt, mem_append,
      mem_singleton]
    tauto

theorem remarked {bits : List Word} {l : List ℕ} (h : m.WellFormed cfg)
    (hlength : bits.length = m.dirtyPages.length)
    (hbits : ∀ p, marked bits p ↔ marked m.dirtyPages p ∨ p ∈ l) (hbound : ∀ q ∈ l, q < cfg.pageCount) :
    let m' := setDirty cfg { m with dirtyPages := bits } true
    m'.data = m.data ∧ m'.WellFormed cfg ∧
      ∀ p, marked m'.dirtyPages p ↔ marked m.dirtyPages p ∨ p ∈ l := by
  intro m'
  obtain ⟨hdata, hdirtyPages⟩ := setDirty_fields cfg { m with dirtyPages := bits } true
  have hmarks : ∀ p, marked m'.dirtyPages p ↔ marked m.dirtyPages p ∨ p ∈ l := by grind
  refine ⟨hdata, ⟨h.pos, ?_, ?_, ?_, ?_⟩, hmarks⟩
  · exact (congrArg List.length hdata).trans h.data
  · exact (congrArg List.length hdirtyPages).trans (hlength.trans h.dirtyPages)
  · intro p hp
    rcases (hmarks p).mp hp with hold | hnew
    · exact h.marks p hold
    · grind
  · grind [isDirty_setDirty]

theorem onSnapshotDone_returned {snapshot : Option SnapshotPages} {data : List Word}
    (h : m.WellFormed cfg) (haway : Away cfg snapshot t)
    (hcarries : ∀ pages ∈ snapshot, Carries cfg data pages) (success : Bool) :
    Returned cfg snapshot success m (onSnapshotDone cfg success snapshot t m).2
      (onSnapshotDone cfg success snapshot t m).1 := by
  cases snapshot with
  | none =>
    refine ⟨haway.none rfl, rfl, h, fun _ => id, ?_⟩
    rintro - p ⟨pages, hpages, -⟩
    cases hpages
  | some pages =>
    have hpages := hcarries pages rfl
    obtain ⟨n, hpool, -⟩ := hpages.pool
    have hready : Ready cfg ⟨pages.scheduledPages, pages.pagePool, 0⟩ :=
      ⟨hpages.length, ⟨n, hpool⟩, rfl⟩
    cases success with
    | true => exact ⟨hready, rfl, h, fun _ => id, fun hfail => (nomatch hfail)⟩
    | false =>
      have hloop := remark_loop h hpages _ le_rfl
      rw [← haway.some pages rfl] at hloop
      obtain ⟨hlength, hbits⟩ := hloop
      have hall : pages.pages.take t.scheduledPageCount = pages.pages := by
        rw [take_of_length_le]
        rw [hpages.count, haway.some pages rfl]
      simp only [hall] at hbits
      obtain ⟨hdata, hm', hmarks⟩ := remarked h hlength hbits hpages.bound
      refine ⟨hready, hdata, hm', fun p hp => (hmarks p).mpr (.inl hp), ?_⟩
      rintro - p ⟨sp, hsp, hp⟩
      cases hsp
      exact (hmarks p).mpr (.inr hp)

section Take

variable {count : Kind → ℕ} {crcCheck : Bool} {w w' : Worker}

/-- Another memory is not touched. -/
def SameKind (w w' : Worker) (k : Kind) : Prop := w'.tracker k = w.tracker k ∧ w'.memory k = w.memory k

theorem takeKind_spec {k : Kind} (hm : (w.memory k).WellFormed (k.config count))
    (ht : Ready (k.config count) (w.tracker k)) (crcCheck : Bool) :
    ∃ w' pages, takeKind count crcCheck w k = .ok (w', pages) ∧
      SnapshotTaken (k.config count) (w.memory k) (w'.tracker k) (w'.memory k) pages ∧
      (∀ k' ≠ k, SameKind w w' k') ∧ w'.snapshotPending = w.snapshotPending := by
  obtain ⟨t', m', pages, hrun, htaken⟩ := takeSnapshot_spec hm ht crcCheck
  refine ⟨⟨Function.update w.memory k m', Function.update w.tracker k t', w.snapshotPending⟩, pages,
    ?_, ?_, ?_, rfl⟩
  · rw [takeKind, hrun]
    rfl
  · grind
  · exact fun k' hk => ⟨Function.update_of_ne hk _ _, Function.update_of_ne hk _ _⟩

/-- What `triggerSnapshot` does when no snapshot is pending. -/
structure Triggered (count : Kind → ℕ) (w w' : Worker) (posted : Option Snapshot)
    (snapshot : Snapshot) (t : Kind → DirtyPageTracker) : Prop where
  taken : ∀ k, SnapshotTaken (k.config count) (w.memory k) (t k) (w'.memory k) (snapshot k)
  none : posted = none → (∀ k, snapshot k = none) ∧ w'.tracker = t ∧ w'.snapshotPending = false
  some : ∀ s, posted = some s → s = snapshot ∧ w'.tracker = (fun k => detach (t k)) ∧
    w'.snapshotPending = true

theorem triggerSnapshot_spec (hm : ∀ k, (w.memory k).WellFormed (k.config count))
    (ht : ∀ k, Ready (k.config count) (w.tracker k)) (hidle : w.snapshotPending = false)
    (crcCheck : Bool) :
    ∃ w' posted snapshot t, triggerSnapshot count crcCheck w = .ok (w', posted) ∧
      Triggered count w w' posted snapshot t := by
  obtain ⟨w₁, nand, hnand, htaken₁, hsame₁, hpending₁⟩ := takeKind_spec (hm .nand) (ht .nand) crcCheck
  have hsd := hsame₁ .sd (by decide)
  have hram := hsame₁ .ram (by decide)
  obtain ⟨w₂, sd, hsdRun, htaken₂, hsame₂, hpending₂⟩ := takeKind_spec (w := w₁) (k := .sd)
    (by rw [hsd.2]; exact hm .sd) (by rw [hsd.1]; exact ht .sd) crcCheck
  have hnand₂ := hsame₂ .nand (by decide)
  have hram₂ := hsame₂ .ram (by decide)
  obtain ⟨w₃, ram, hramRun, htaken₃, hsame₃, hpending₃⟩ := takeKind_spec (w := w₂) (k := .ram)
    (by rw [hram₂.2, hram.2]; exact hm .ram) (by rw [hram₂.1, hram.1]; exact ht .ram) crcCheck
  have hnand₃ := hsame₃ .nand (by decide)
  have hsd₃ := hsame₃ .sd (by decide)
  rw [hsd.2] at htaken₂
  rw [hram₂.2, hram.2] at htaken₃
  rw [← hnand₂.1, ← hnand₂.2, ← hnand₃.1, ← hnand₃.2] at htaken₁
  rw [← hsd₃.1, ← hsd₃.2] at htaken₂
  have htaken : ∀ k, SnapshotTaken (k.config count) (w.memory k) (w₃.tracker k) (w₃.memory k)
      (byKind nand sd ram k) := by
    rintro (_ | _ | _)
    · exact htaken₁
    · exact htaken₂
    · exact htaken₃
  have hpending : w₃.snapshotPending = false := by rw [hpending₃, hpending₂, hpending₁, hidle]
  rw [triggerSnapshot, if_neg (by rw [hidle]; exact Bool.false_ne_true), hnand]
  change ∃ w' posted snapshot t, (takeKind count crcCheck w₁ .sd >>= _) = _ ∧ _
  rw [hsdRun]
  change ∃ w' posted snapshot t, (takeKind count crcCheck w₂ .ram >>= _) = _ ∧ _
  rw [hramRun]
  change ∃ w' posted snapshot t, (if nand.isNone ∧ sd.isNone ∧ ram.isNone then _ else _) = _ ∧ _
  by_cases hnone : nand.isNone = true ∧ sd.isNone = true ∧ ram.isNone = true
  · rw [if_pos hnone]
    refine ⟨w₃, none, byKind nand sd ram, w₃.tracker, rfl, htaken, fun _ => ⟨?_, rfl, hpending⟩,
      fun _ h => (nomatch h)⟩
    rintro (_ | _ | _)
    · exact Option.isNone_iff_eq_none.mp hnone.1
    · exact Option.isNone_iff_eq_none.mp hnone.2.1
    · exact Option.isNone_iff_eq_none.mp hnone.2.2
  · rw [if_neg hnone]
    exact ⟨_, some (byKind nand sd ram), byKind nand sd ram, w₃.tracker, rfl, htaken,
      fun h => (nomatch h), fun s hs => ⟨(Option.some.inj hs).symm, rfl, rfl⟩⟩

theorem SnapshotTaken.away {m' : Memory} {snapshot : Option SnapshotPages}
    (h : SnapshotTaken cfg m t m' snapshot) : Away cfg snapshot (detach t) := by
  constructor
  · intro hnone
    have hready := (h.none hnone).2
    rwa [detach, if_neg (by rw [hready.count]; exact lt_irrefl 0)]
  · intro pages hpages
    have hcount := (h.some pages hpages).2.2
    rw [detach, if_pos hcount.1]
    exact hcount.2

end Take

end Cloudpilot.Uarm.SnapshotProtocol
