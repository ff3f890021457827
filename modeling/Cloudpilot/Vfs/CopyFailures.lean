import Cloudpilot.Vfs.FatfsCalls
import Cloudpilot.Vfs.PasteContext

/-! # What a copy context reports of its failures

The answers to the writes and the removals of a run, and what the context reports in the end.
A failed write of data is classified a second time and ends as a full card; a failed removal is
forgotten when another one in the same call works.
-/

namespace Cloudpilot.Vfs

open List Option

/-- What happens while an entry is copied. -/
inductive CopyEvent where
  | wrote (data : Bytes) (result : Except FResult ℕ)
  | unread
  | removed (result : Except FResult Unit)
deriving DecidableEq

inductive Writes : ExtractStatus → List (Bytes × Except FResult ℕ) → ExtractStatus → Prop
  | nil (status : ExtractStatus) : Writes status [] status
  | complete {data : Bytes} {writes : List (Bytes × Except FResult ℕ)} {status : ExtractStatus}
      (hrest : Writes .ok writes status) : Writes .ok ((data, .ok data.length) :: writes) status
  | short {data : Bytes} {bytes : ℕ} (hshort : bytes ≠ data.length) :
      Writes .ok [(data, .ok bytes)] .cardFull
  | failed (data : Bytes) (res : FResult) :
      Writes .ok [(data, .error res)] (if data = [] then .ioError else .cardFull)

theorem Writes.trans {first last status : ExtractStatus} {ws ws' : List (Bytes × Except FResult ℕ)}
    (h : Writes first ws status) (h' : Writes status ws' last) : Writes first (ws ++ ws') last := by
  induction h with
  | nil status => exact h'
  | complete hrest ih => exact .complete (ih h')
  | short hshort =>
    cases h'
    exact .short hshort
  | failed data res =>
    have hne : (if data = [] then ExtractStatus.ioError else .cardFull) ≠ .ok := by grind
    generalize hstatus : (if data = [] then ExtractStatus.ioError else .cardFull) = status at h' hne
    cases h' with
    | nil =>
      rw [← hstatus]
      exact .failed data res
    | _ => exact absurd rfl hne

theorem Writes.short_of_cardFull {ws : List (Bytes × Except FResult ℕ)}
    (h : Writes .ok ws .cardFull) (hdata : ∀ data res, (data, .error res) ∈ ws → data = []) :
    ∃ data bytes, (data, .ok bytes) ∈ ws ∧ bytes ≠ data.length := by
  generalize hfirst : ExtractStatus.ok = first at h
  generalize hlast : ExtractStatus.cardFull = last at h
  induction h with
  | nil status => exact absurd (hfirst.trans hlast.symm) (by decide)
  | complete hrest ih => grind
  | @short data bytes hshort => exact ⟨data, bytes, mem_cons_self, hshort⟩
  | failed data res => grind

theorem Writes.ioError_of_error {status : ExtractStatus} {ws : List (Bytes × Except FResult ℕ)}
    (h : Writes .ok ws status) {res : FResult} (hmem : (([] : Bytes), .error res) ∈ ws) :
    status = .ioError := by
  generalize hfirst : ExtractStatus.ok = first at h
  induction h with
  | nil status => cases hmem
  | complete hrest ih => exact ih (by simpa using hmem) rfl
  | short hshort => exact absurd hmem (by simp)
  | failed data res' => grind

variable {N : Type} [DecidableEq N] {nm : Naming N}

/-- The write of a chunk, if there still is one. -/
def ExtractContext.write (data : Bytes) (context : ExtractContext N) (fs : Fs nm) :
    List (Bytes × Except FResult ℕ) :=
  if context.status ≠ .ok then [] else [(data, (f_write context.file data fs).1)]

theorem ExtractContext.onExtract_writes (data : Bytes) (context : ExtractContext N) (fs : Fs nm) :
    Writes context.status (context.write data fs) (context.onExtract data fs).1.status ∧
      (context.onExtract data fs).1.file = context.file := by
  rw [write, onExtract]
  by_cases hstatus : context.status ≠ .ok
  · rw [if_pos hstatus, if_pos hstatus]
    exact ⟨.nil _, rfl⟩
  · rw [if_neg hstatus, if_neg hstatus, not_not.mp hstatus]
    cases hcall : f_write context.file data fs with
    | mk res fs₁ =>
      cases res with
      | error res => exact ⟨.failed data res, rfl⟩
      | ok bytes =>
        simp only
        by_cases hshort : bytes ≠ data.length
        · rw [if_pos hshort]
          exact ⟨.short hshort, rfl⟩
        · rw [if_neg hshort, not_not.mp hstatus, not_not.mp hshort]
          exact ⟨.complete (.nil _), rfl⟩

/-- A source together with the answers to the calls that its hooks make. -/
structure TracedSource (nm : Naming N) (ι : Type) where
  source : CopySource nm ι
  writes : ι → ExtractContext N → Fs nm → List (Bytes × Except FResult ℕ)
  removal : ι → Fs nm → Option (Except FResult Unit)
  deleteFailed : ι → Bool
  writes_status : ∀ it context fs, Writes context.status (writes it context fs)
    (source.readCurrent ExtractContext.onExtract it context fs).2.1.status
  next_deleteFailed : ∀ it fs it' fs', source.next it fs = some (it', fs') →
    deleteFailed it' = deleteFailed it
  read_deleteFailed : ∀ it context fs,
    deleteFailed (source.readCurrent ExtractContext.onExtract it context fs).1 = deleteFailed it
  after_deleteFailed : ∀ it fs, deleteFailed (source.onAfterCopy it fs).1 =
    match removal it fs with
    | none => deleteFailed it
    | some result => PasteIterator.removalFails result

namespace ZipfileIterator

def feedWrites : List Bytes → ExtractContext N → Fs nm → List (Bytes × Except FResult ℕ)
  | [], _, _ => []
  | data :: chunks, context, fs =>
    context.write data fs ++
      feedWrites chunks (context.onExtract data fs).1 (context.onExtract data fs).2

theorem feed_writes (chunks : List Bytes) (context : ExtractContext N) (fs : Fs nm) :
    Writes context.status (feedWrites chunks context fs)
      (feed ExtractContext.onExtract chunks context fs).1.status := by
  induction chunks generalizing context fs with
  | nil => exact .nil _
  | cons data chunks ih => exact (context.onExtract_writes data fs).1.trans (ih _ _)

def traced (nm : Naming N) : TracedSource nm ZipfileIterator where
  source := source nm
  writes it context fs :=
    if it.zip = none ∨ it.state ≠ .valid then []
    else match it.opened with
      | none => []
      | some entry => feedWrites entry.chunks context fs
  removal _ _ := none
  deleteFailed _ := false
  writes_status it context fs := by
    simp only [source, readCurrent]
    split
    · exact .nil _
    · cases it.opened with
      | none => exact .nil _
      | some entry => exact feed_writes entry.chunks context fs
  next_deleteFailed _ _ _ _ _ := rfl
  read_deleteFailed _ _ _ := rfl
  after_deleteFailed _ _ := rfl

end ZipfileIterator

namespace RecursiveFsIterator

def readWrites : ℕ → Loc N × ℕ → ExtractContext N → Fs nm → List (Bytes × Except FResult ℕ)
  | 0, _, _, _ => []
  | reads + 1, file, context, fs =>
    match f_read file readBufferSize fs with
    | (.error _, _) => []
    | (.ok (bytes, file), fs) =>
      if bytes = [] then []
      else context.write bytes fs ++
        readWrites reads file (context.onExtract bytes fs).1 (context.onExtract bytes fs).2

theorem readLoop_writes (reads : ℕ) (file : Loc N × ℕ) (total : ℕ) (it : RecursiveFsIterator N)
    (context : ExtractContext N) (fs : Fs nm) :
    Writes context.status (readWrites reads file context fs)
      (readLoop ExtractContext.onExtract reads file total it context fs).2.1.status := by
  induction reads generalizing file total context fs with
  | zero => exact .nil _
  | succ reads ih =>
    rw [readWrites, readLoop]
    cases f_read file readBufferSize fs with
    | mk res fs₁ =>
      cases res with
      | error res => exact .nil _
      | ok read =>
        obtain ⟨bytes, file₁⟩ := read
        simp only
        by_cases hend : bytes = []
        · rw [if_pos hend, if_pos hend]
          exact .nil _
        · rw [if_neg hend, if_neg hend]
          exact (context.onExtract_writes bytes fs₁).1.trans (ih _ _ _ _)

end RecursiveFsIterator

namespace PasteIterator

def traced (nm : Naming N) (rounds : ℕ) : TracedSource nm (PasteIterator N) where
  source := source nm rounds
  writes p context fs :=
    if p.iterator.state ≠ .valid ∨ p.iterator.cleanup then []
    else match f_openRead p.iterator.entryFullPath fs with
      | (.error _, _) => []
      | (.ok file, fs) =>
        RecursiveFsIterator.readWrites ((contents fs.tree file.1).length + 1) file context fs
  removal p fs := if p.deleteAfterCopy then some (f_unlink p.iterator.entryFullPath fs).1 else none
  deleteFailed := deleteFailed
  writes_status p context fs := by
    simp only [source, RecursiveFsIterator.readCurrent]
    split
    · exact .nil _
    · cases f_openRead p.iterator.entryFullPath fs with
      | mk res fs₁ =>
        cases res with
        | error res => exact .nil _
        | ok file => exact RecursiveFsIterator.readLoop_writes _ _ _ _ _ _
  next_deleteFailed p fs p' fs' h := by
    obtain ⟨⟨it, fs₁⟩, -, heq⟩ := Option.map_eq_some_iff.mp h
    obtain ⟨rfl, -⟩ := Prod.mk.inj heq
    rfl
  read_deleteFailed _ _ _ := rfl
  after_deleteFailed p fs := by
    simp only [source, onAfterCopy]
    by_cases hdelete : p.deleteAfterCopy = true
    · rw [if_pos hdelete, if_pos hdelete]
    · rw [if_neg hdelete, if_neg hdelete]

end PasteIterator

namespace GenericCopyContext

variable {ι : Type} (T : TracedSource nm ι)

def copyCurrentEntryEvents (c : GenericCopyContext N ι) (fs : Fs nm) : List CopyEvent :=
  match f_stat c.currentPath fs with
  | (.error .noFile, fs) =>
    match f_openWrite c.currentPath fs with
    | (.ok file, fs) =>
      (T.writes c.iterator ⟨file, .ok⟩ fs).map (fun w => .wrote w.1 w.2) ++
        if T.source.getState
            (T.source.readCurrent ExtractContext.onExtract c.iterator ⟨file, .ok⟩ fs).1 = .error then
          [.unread]
        else []
    | _ => []
  | _ => []

def afterCopyEvents (c : GenericCopyContext N ι) (fs : Fs nm) : List CopyEvent :=
  if c.state = .more then (T.removal c.iterator fs).toList.map .removed else []

def copyEntryEvents (c : GenericCopyContext N ι) (fs : Fs nm) : List CopyEvent :=
  if T.source.skipCurrentEntry c.currentPath c.iterator then []
  else if T.source.isDirectory c.iterator then
    let (c, fs) := mkdirRecursive c.currentPath c fs
    afterCopyEvents T c fs
  else
    let (c, fs) := mkdirRecursive (dirname c.currentPath) c fs
    if c.state ≠ .more then []
    else
      copyCurrentEntryEvents T c fs ++
        let (c, fs) := copyCurrentEntry T.source c fs
        afterCopyEvents T c fs

def sliceEvents (c : GenericCopyContext N ι) (fs : Fs nm) : List CopyEvent :=
  if c.state ≠ .more then []
  else match c.deleteRecursiveContext with
    | some _ => []
    | none =>
      match T.source.getState c.iterator with
      | .valid => copyEntryEvents T (selectEntry T.source c) fs
      | _ => []

def slicesEvents (rounds : ℕ) : List ℕ → GenericCopyContext N ι → Fs nm → List CopyEvent
  | [], _, _ => []
  | batches :: slices, c, fs =>
    sliceEvents T c fs ++
      match executeSlice T.source rounds c fs batches with
      | none => []
      | some (c, fs) => slicesEvents rounds slices c fs

def continueEvents (rounds : ℕ) (slices : List ℕ) (c : GenericCopyContext N ι) (fs : Fs nm) :
    List CopyEvent :=
  match resume T.source c fs with
  | none => []
  | some (c, fs) => slicesEvents T rounds slices c fs

def overwriteEvents (rounds : ℕ) (slices : List ℕ) (c : GenericCopyContext N ι) (fs : Fs nm) :
    List CopyEvent :=
  if c.state = .collision then
    let (c, fs) := removeConflictingFile c fs
    if c.state ≠ .more then [] else continueEvents T rounds slices c fs
  else continueEvents T rounds slices (startDeletion c) fs

end GenericCopyContext

inductive CopyContext (N : Type) where
  | unzip (c : UnzipContext N)
  | paste (c : PasteContext N)

namespace CopyContext

/-- A context before its first call. -/
inductive Fresh (nm : Naming N) : CopyContext N → Prop
  | unzip (destination : Path) (zip : Option (List ZipEntry)) :
      Fresh nm (.unzip (UnzipContext.create nm destination zip))
  | paste (destination pathPrefix : Path) (paths : List Path) (deleteAfterCopy : Bool) :
      Fresh nm (.paste ((paths.foldl (fun c path => c.addFile path)
        (PasteContext.create nm destination pathPrefix)).setDeleteAfterCopy deleteAfterCopy))

/-- What `GetState` says; an `UnzipContext` calls an error of its iterator `zipfileError`. -/
def report : CopyContext N → CopyState
  | .unzip c => c.state
  | .paste c => c.getState

def call (rounds : ℕ) (c : CopyContext N) (fs : Fs nm) (action : CopyCall) :
    Option (CopyContext N × Fs nm) :=
  match c with
  | .unzip c => (c.call rounds fs action).map fun (c, fs) => (.unzip c, fs)
  | .paste c => (c.call rounds fs action).map fun (c, fs) => (.paste c, fs)

def callEvents (rounds : ℕ) (c : CopyContext N) (fs : Fs nm) (action : CopyCall) : List CopyEvent :=
  match c, action with
  | .unzip c, .proceed slices => c.continueEvents (ZipfileIterator.traced nm) rounds slices fs
  | .unzip c, .overwrite slices => c.overwriteEvents (ZipfileIterator.traced nm) rounds slices fs
  | .paste c, .proceed slices =>
    if c.iterator.deleteFailed then []
    else c.continueEvents (PasteIterator.traced nm rounds) rounds slices fs
  | .paste c, .overwrite slices =>
    if c.iterator.deleteFailed then []
    else if c.overParent then c.continueEvents (PasteIterator.traced nm rounds) rounds slices fs
    else c.overwriteEvents (PasteIterator.traced nm rounds) rounds slices fs

def run (rounds : ℕ) : List CopyCall → CopyContext N → Fs nm → Option (CopyContext N × Fs nm)
  | [], c, fs => some (c, fs)
  | action :: calls, c, fs => (c.call rounds fs action).bind fun (c, fs) => run rounds calls c fs

def runEvents (rounds : ℕ) : List CopyCall → CopyContext N → Fs nm → List CopyEvent
  | [], _, _ => []
  | action :: calls, c, fs =>
    c.callEvents rounds fs action ++
      match c.call rounds fs action with
      | none => []
      | some (c, fs) => runEvents rounds calls c fs

end CopyContext

/-- A write that failed and a removal that failed end as `ioError`, and a full card is one on which
a write was short. -/
structure Truthful (events : List CopyEvent) (report : CopyState) : Prop where
  writeError : ∀ data res, .wrote data (.error res) ∈ events → report = .ioError
  cardFull : report = .cardFull → ∃ data bytes, .wrote data (.ok bytes) ∈ events ∧ bytes ≠ data.length
  removal : ∀ result, .removed result ∈ events → PasteIterator.removalFails result = true →
    report = .ioError

/-- No write of data fails, none fails where the entry cannot be read either, and no removal works
after one that failed. -/
structure Unmasked (events : List CopyEvent) : Prop where
  writeError : ∀ data res, .wrote data (.error res) ∈ events → data = []
  unread : .unread ∈ events → ∀ data res, .wrote data (.error res) ∉ events
  removals : events.Pairwise fun earlier later => ∀ result result', earlier = .removed result →
    later = .removed result' → PasteIterator.removalFails result = true →
      PasteIterator.removalFails result' = true

theorem Unmasked.sublist {events events' : List CopyEvent} (h : Unmasked events')
    (hsub : events.Sublist events') : Unmasked events :=
  ⟨fun data res hmem => h.writeError data res (hsub.subset hmem),
    fun hunread data res hmem => h.unread (hsub.subset hunread) data res (hsub.subset hmem),
    h.removals.sublist hsub⟩

namespace GenericCopyContext

variable {ι : Type} {T : TracedSource nm ι} {c c' : GenericCopyContext N ι} {fs fs' : Fs nm}
variable {history : List CopyEvent}

structure Reports (T : TracedSource nm ι) (c : GenericCopyContext N ι) (history : List CopyEvent) :
    Prop where
  writeError : ∀ data res, .wrote data (.error res) ∈ history → c.state = .ioError
  cardFull : c.state = .cardFull → ∃ data bytes, .wrote data (.ok bytes) ∈ history ∧
    bytes ≠ data.length
  removal : ∀ result, .removed result ∈ history → PasteIterator.removalFails result = true →
    T.deleteFailed c.iterator = true

theorem Reports.congr (h : Reports T c history) (hstate : c'.state = c.state)
    (hflag : T.deleteFailed c'.iterator = T.deleteFailed c.iterator) : Reports T c' history :=
  ⟨hstate ▸ h.writeError, hstate ▸ h.cardFull, hflag ▸ h.removal⟩

theorem Reports.restart (h : Reports T c history) (hne : c.state ≠ .ioError)
    (hstate : c'.state ≠ .cardFull)
    (hflag : T.deleteFailed c'.iterator = T.deleteFailed c.iterator) : Reports T c' history :=
  ⟨fun data res hmem => absurd (h.writeError data res hmem) hne, fun hfull => absurd hfull hstate,
    hflag ▸ h.removal⟩

theorem Reports.quiet (h : Reports T c history) (hmore : c.state = .more)
    (hstate : c'.state ≠ .cardFull)
    (hflag : T.deleteFailed c'.iterator = T.deleteFailed c.iterator) : Reports T c' history :=
  h.restart (by rw [hmore]; decide) hstate hflag

theorem mkdirLoop_spec (paths : List Path) (c : GenericCopyContext N ι) (fs : Fs nm) :
    (mkdirLoop paths c fs).1.iterator = c.iterator ∧
      (c.state ≠ .cardFull → (mkdirLoop paths c fs).1.state ≠ .cardFull) := by
  induction paths generalizing c fs with
  | nil => exact ⟨rfl, id⟩
  | cons next rest ih =>
    have hvisit := fun fs => ih (c.visit next true) fs
    rw [mkdirLoop]
    cases c.visitedDirectories next with
    | some usable =>
      cases usable with
      | true => exact ih c fs
      | false => exact ⟨rfl, fun _ => by simp⟩
    | none =>
      simp only
      cases f_stat next fs with
      | mk res fs₁ =>
        cases res with
        | ok info =>
          simp only
          by_cases hdir : info.isDir = true
          · rw [if_pos hdir]
            exact hvisit fs₁
          · grind
        | error res =>
          cases res with
          | noFile => grind [visit]
          | _ => exact ⟨rfl, fun _ => by simp [visit]⟩

theorem mkdirRecursive_spec (path : Path) (c : GenericCopyContext N ι) (fs : Fs nm) :
    (mkdirRecursive path c fs).1.iterator = c.iterator ∧
      (mkdirRecursive path c fs).1.state ≠ .cardFull := by
  rw [mkdirRecursive]
  split
  · obtain ⟨hiterator, hstate⟩ := mkdirLoop_spec (directoriesOn path) { c with state := .more } fs
    grind
  · simp

theorem closeFile_fst (c : GenericCopyContext N ι) (fs : Fs nm) : (closeFile c fs).1 = c := by
  rw [closeFile]
  split <;> rfl

section

variable (h : Reports T c history)

include h

theorem Reports.extracted (hmore : c.state = .more) {it : ι} {status : ExtractStatus}
    {ws : List (Bytes × Except FResult ℕ)} {unread : List CopyEvent} (hws : Writes .ok ws status)
    (hunread : unread = if T.source.getState it = .error then
      [.unread] else []) (hflag : T.deleteFailed it = T.deleteFailed c.iterator)
    (hplain : Unmasked (history ++ (ws.map (fun w => .wrote w.1 w.2) ++ unread))) :
    Reports T { c with iterator := it, state := extractedState (T.source.getState it) status }
      (history ++ (ws.map (fun w => .wrote w.1 w.2) ++ unread)) := by
  have hmem : ∀ {data : Bytes} {result : Except FResult ℕ},
      .wrote data result ∈ history ++ (ws.map (fun w => .wrote w.1 w.2) ++ unread) ↔
        .wrote data result ∈ history ∨ (data, result) ∈ ws := by grind
  have hempty : ∀ data res, (data, .error res) ∈ ws → data = [] :=
    fun data res hw => hplain.writeError data res (hmem.mpr (.inr hw))
  constructor
  · intro data res hwrote
    rcases hmem.mp hwrote with hold | hw
    · have herror := h.writeError data res hold
      rw [hmore] at herror
      cases herror
    · obtain rfl := hempty data res hw
      have hread : T.source.getState it ≠ .error := by
        intro herror
        rw [if_pos herror] at hunread
        exact hplain.unread (by simp [hunread]) [] res hwrote
      simp [extractedState, if_neg hread, hws.ioError_of_error hw]
  · intro hfull
    have hread : T.source.getState it ≠ .error := by
      intro herror
      simp [extractedState, herror] at hfull
    have hstatus : status = .cardFull := by
      cases status <;> simp_all [extractedState]
    obtain ⟨data, bytes, hw, hne⟩ := (hstatus ▸ hws).short_of_cardFull hempty
    exact ⟨data, bytes, hmem.mpr (.inr hw), hne⟩
  · intro result hremoved hfails
    rw [hflag]
    refine h.removal result ?_ hfails
    rw [hunread] at hremoved
    by_cases herror : T.source.getState it = .error <;> simpa [herror] using hremoved

theorem copyCurrentEntry_reports (hmore : c.state = .more)
    (hplain : Unmasked (history ++ copyCurrentEntryEvents T c fs)) :
    Reports T (copyCurrentEntry T.source c fs).1 (history ++ copyCurrentEntryEvents T c fs) := by
  rw [copyCurrentEntryEvents] at hplain ⊢
  rw [copyCurrentEntry]
  cases hstat : f_stat c.currentPath fs with
  | mk res fs₁ =>
    rw [hstat] at hplain
    cases res with
    | ok info =>
      rw [append_nil]
      refine h.quiet hmore ?_ rfl
      simp only
      split <;> simp
    | error res =>
      cases res with
      | noFile =>
        simp only at hplain ⊢
        cases hopen : f_openWrite c.currentPath fs₁ with
        | mk res fs₂ =>
          rw [hopen] at hplain
          cases res with
          | error res =>
            rw [append_nil]
            cases res <;> exact h.quiet hmore (by simp) rfl
          | ok file =>
            simp only at hplain ⊢
            rw [closeFile_fst]
            exact h.extracted hmore (T.writes_status c.iterator ⟨file, .ok⟩ fs₂) rfl
              (T.read_deleteFailed c.iterator ⟨file, .ok⟩ fs₂) hplain
      | _ =>
        rw [append_nil]
        exact h.quiet hmore (by simp) rfl

theorem afterCopy_reports (hplain : Unmasked (history ++ afterCopyEvents T c fs)) :
    Reports T (afterCopy T.source c fs).1 (history ++ afterCopyEvents T c fs) := by
  rw [afterCopyEvents] at hplain ⊢
  rw [afterCopy]
  by_cases hmore : c.state = .more
  · rw [if_pos hmore] at hplain ⊢
    rw [if_pos hmore]
    have hflag := T.after_deleteFailed c.iterator fs
    cases hremoval : T.removal c.iterator fs with
    | none =>
      rw [hremoval] at hflag
      simp only [toList_none, map_nil, append_nil]
      exact h.congr rfl hflag
    | some result =>
      rw [hremoval] at hflag hplain
      simp only [toList_some, map_cons, map_nil] at hplain ⊢
      have hold : ∀ {data : Bytes} {written : Except FResult ℕ},
          .wrote data written ∈ history ++ [.removed result] ↔ .wrote data written ∈ history := by
        simp
      refine ⟨fun data res hmem => h.writeError data res (hold.mp hmem), ?_, ?_⟩
      · grind
      · intro result' hmem hfails
        refine hflag.trans ?_
        rcases mem_append.mp hmem with hbefore | hlast
        · exact (pairwise_append.mp hplain.removals).2.2 _ hbefore _ mem_cons_self _ _ rfl
            rfl hfails
        · grind
  · grind

theorem copyEntry_reports (hmore : c.state = .more)
    (hplain : Unmasked (history ++ copyEntryEvents T c fs)) :
    Reports T (copyEntry T.source c fs).1 (history ++ copyEntryEvents T c fs) := by
  rw [copyEntryEvents] at hplain ⊢
  rw [copyEntry]
  by_cases hskip : T.source.skipCurrentEntry c.currentPath c.iterator = true
  · grind
  · rw [if_neg hskip] at hplain ⊢
    rw [if_neg hskip]
    by_cases hdir : T.source.isDirectory c.iterator = true
    · rw [if_pos hdir] at hplain ⊢
      rw [if_pos hdir]
      obtain ⟨hiterator, hstate⟩ := mkdirRecursive_spec c.currentPath c fs
      cases hmkdir : mkdirRecursive c.currentPath c fs with
      | mk c₁ fs₁ =>
        rw [hmkdir] at hplain hiterator hstate
        exact afterCopy_reports (h.quiet hmore hstate (congrArg T.deleteFailed hiterator)) hplain
    · rw [if_neg hdir] at hplain ⊢
      rw [if_neg hdir]
      obtain ⟨hiterator, hstate⟩ := mkdirRecursive_spec (dirname c.currentPath) c fs
      cases hmkdir : mkdirRecursive (dirname c.currentPath) c fs with
      | mk c₁ fs₁ =>
        rw [hmkdir] at hplain hiterator hstate
        have h₁ : Reports T c₁ history :=
          h.quiet hmore hstate (congrArg T.deleteFailed hiterator)
        simp only at hplain ⊢
        by_cases hmore₁ : c₁.state = .more
        · rw [if_neg (not_not.mpr hmore₁)] at hplain ⊢
          rw [if_neg (not_not.mpr hmore₁)]
          rw [← append_assoc] at hplain ⊢
          have hcopied := copyCurrentEntry_reports h₁ hmore₁
            (hplain.sublist (sublist_append_left _ _))
          exact afterCopy_reports hcopied hplain
        · grind

theorem advance_reports (hadvance : advance T.source c fs = some (c', fs')) :
    Reports T c' history := by
  obtain ⟨⟨it, fs₁⟩, hnext, heq⟩ := map_eq_some_iff.mp hadvance
  obtain ⟨rfl, -⟩ := Prod.mk.inj heq
  exact h.congr rfl (T.next_deleteFailed c.iterator fs it fs₁ hnext)

theorem executeSlice_reports {rounds batches : ℕ}
    (hslice : executeSlice T.source rounds c fs batches = some (c', fs'))
    (hplain : Unmasked (history ++ sliceEvents T c fs)) :
    Reports T c' (history ++ sliceEvents T c fs) := by
  rw [sliceEvents] at hplain ⊢
  rw [executeSlice] at hslice
  by_cases hmore : c.state ≠ .more
  · grind
  · rw [if_neg hmore] at hslice hplain ⊢
    rw [not_not] at hmore
    cases hdelete : c.deleteRecursiveContext with
    | some d =>
      rw [hdelete] at hslice
      simp only at hslice ⊢
      rw [append_nil]
      rw [deleteSlice] at hslice
      obtain ⟨⟨d', fs₁⟩, -, heq⟩ := map_eq_some_iff.mp hslice
      simp only at heq
      split at heq <;>
      · cases heq
        exact h.quiet hmore (by simp [hmore]) rfl
    | none =>
      rw [hdelete] at hslice hplain
      simp only at hslice hplain ⊢
      cases hstate : T.source.getState c.iterator with
      | done =>
        simp only [hstate] at hslice ⊢
        cases hslice
        rw [append_nil]
        exact h.quiet hmore (by simp) rfl
      | error =>
        simp only [hstate] at hslice ⊢
        cases hslice
        rw [append_nil]
        exact h.quiet hmore (by simp) rfl
      | initial =>
        simp only [hstate] at hslice ⊢
        rw [append_nil]
        exact advance_reports h hslice
      | valid =>
        simp only [hstate] at hslice hplain ⊢
        have hselect : Reports T (selectEntry T.source c) history := h.congr rfl rfl
        have hcopied := copyEntry_reports hselect hmore hplain
        rw [skipIfCollision] at hslice
        split at hslice
        · grind
        · exact advance_reports hcopied hslice

theorem executeSlices_reports {rounds : ℕ} {slices : List ℕ}
    (hslices : executeSlices T.source rounds slices c fs = some (c', fs'))
    (hplain : Unmasked (history ++ slicesEvents T rounds slices c fs)) :
    Reports T c' (history ++ slicesEvents T rounds slices c fs) := by
  induction slices generalizing c fs history with
  | nil =>
    cases hslices
    rwa [slicesEvents, append_nil]
  | cons batches slices ih =>
    rw [executeSlices] at hslices
    obtain ⟨⟨c₁, fs₁⟩, hslice, hrest⟩ := bind_eq_some_iff.mp hslices
    rw [slicesEvents, hslice, ← append_assoc] at hplain ⊢
    exact ih (executeSlice_reports h hslice (hplain.sublist (sublist_append_left _ _))) hrest hplain

end

theorem resume_reports (h : Reports T c history) (hresume : resume T.source c fs = some (c', fs')) :
    Reports T c' history := by
  rw [resume] at hresume
  cases hstate : c.state with
  | done | iteratorError | ioError | cardFull => grind
  | collision | collisionWithDirectory =>
    simp only [hstate] at hresume
    obtain ⟨⟨c₁, fs₁⟩, hadvance, heq⟩ := map_eq_some_iff.mp hresume
    cases heq
    have h₁ := advance_reports h hadvance
    obtain ⟨⟨it, fs₂⟩, -, heq⟩ := map_eq_some_iff.mp hadvance
    cases heq
    exact h₁.restart (by rw [hstate]; decide) (by simp) rfl
  | more | invalidEntry =>
    simp only [hstate] at hresume
    cases hresume
    exact h.restart (by rw [hstate]; decide) (by simp) rfl

theorem continueSlices_reports {rounds : ℕ} {slices : List ℕ} (h : Reports T c history)
    (hcontinue : continueSlices T.source rounds slices c fs = some (c', fs'))
    (hplain : Unmasked (history ++ continueEvents T rounds slices c fs)) :
    Reports T c' (history ++ continueEvents T rounds slices c fs) := by
  rw [continueSlices] at hcontinue
  obtain ⟨⟨c₁, fs₁⟩, hresume, hslices⟩ := bind_eq_some_iff.mp hcontinue
  rw [continueEvents, hresume] at hplain ⊢
  exact executeSlices_reports (resume_reports h hresume) hslices hplain

theorem removeConflictingFile_spec (c : GenericCopyContext N ι) (fs : Fs nm) :
    (removeConflictingFile c fs).1.iterator = c.iterator ∧
      (removeConflictingFile c fs).1.state ≠ .cardFull := by
  rw [removeConflictingFile]
  cases f_unlink c.collisionPath fs with
  | mk res fs₁ => grind

theorem startDeletion_reports (h : Reports T c history) : Reports T (startDeletion c) history := by
  rw [startDeletion]
  by_cases hstate : c.state = .collisionWithDirectory
  · rw [if_pos hstate]
    exact h.restart (by rw [hstate]; decide) (by simp) rfl
  · grind

theorem continueWithOverwrite_reports {rounds : ℕ} {slices : List ℕ} (h : Reports T c history)
    (hcontinue : continueWithOverwrite T.source rounds slices c fs = some (c', fs'))
    (hplain : Unmasked (history ++ overwriteEvents T rounds slices c fs)) :
    Reports T c' (history ++ overwriteEvents T rounds slices c fs) := by
  rw [overwriteEvents] at hplain ⊢
  rw [continueWithOverwrite] at hcontinue
  by_cases hstate : c.state = .collision
  · rw [if_pos hstate] at hcontinue hplain ⊢
    obtain ⟨hiterator, hfull⟩ := removeConflictingFile_spec c fs
    cases hremove : removeConflictingFile c fs with
    | mk c₁ fs₁ =>
      rw [hremove] at hcontinue hplain hiterator hfull
      have h₁ : Reports T c₁ history :=
        h.restart (by rw [hstate]; decide) hfull (congrArg T.deleteFailed hiterator)
      simp only at hcontinue hplain ⊢
      by_cases hmore : c₁.state ≠ .more
      · grind
      · rw [if_neg hmore] at hcontinue hplain ⊢
        exact continueSlices_reports h₁ hcontinue hplain
  · rw [if_neg hstate] at hcontinue hplain ⊢
    exact continueSlices_reports (startDeletion_reports h) hcontinue hplain

end GenericCopyContext

namespace CopyContext

variable {rounds : ℕ} {c c' : CopyContext N} {fs fs' : Fs nm} {history : List CopyEvent}

open GenericCopyContext

def Remembers (nm : Naming N) (rounds : ℕ) (history : List CopyEvent) : CopyContext N → Prop
  | .unzip c => Reports (ZipfileIterator.traced nm) c history
  | .paste c => Reports (PasteIterator.traced nm rounds) c history

omit [DecidableEq N] in
theorem addFiles_state (paths : List Path) (c : PasteContext N) :
    (paths.foldl (fun c path => PasteContext.addFile path c) c).state = c.state := by
  induction paths generalizing c with
  | nil => rfl
  | cons path paths ih => exact ih (c.addFile path)

theorem Fresh.remembers (h : Fresh nm c) : c.Remembers nm rounds [] := by
  cases h with
  | unzip destination zip =>
    refine ⟨nofun, ?_, nofun⟩
    intro hfull
    rw [UnzipContext.create, create] at hfull
    simp only at hfull
    split at hfull <;> cases hfull
  | paste destination pathPrefix paths deleteAfterCopy =>
    refine ⟨nofun, ?_, nofun⟩
    intro hfull
    have hstate := addFiles_state paths (PasteContext.create nm destination pathPrefix)
    exact absurd (hstate.symm.trans hfull) (by simp [PasteContext.create, create, PasteIterator.source,
      RecursiveFsIterator.create])

theorem Remembers.truthful (h : c.Remembers nm rounds history) : Truthful history c.report := by
  cases c with
  | unzip c =>
    refine ⟨h.writeError, h.cardFull, ?_⟩
    intro result hmem hfails
    exact absurd (h.removal result hmem hfails) (by simp [ZipfileIterator.traced])
  | paste c =>
    refine ⟨?_, ?_, ?_⟩
    · intro data res hmem
      have herror := h.writeError data res hmem
      simp only [report, PasteContext.getState, herror]
      split <;> rfl
    · intro hfull
      refine h.cardFull ?_
      simp only [report, PasteContext.getState] at hfull
      cases hflag : c.iterator.deleteFailed with
      | true => simp [hflag] at hfull
      | false => grind
    · intro result hmem hfails
      have hflag : c.iterator.deleteFailed = true := h.removal result hmem hfails
      simp [report, PasteContext.getState, hflag]

theorem call_remembers {action : CopyCall} (h : c.Remembers nm rounds history)
    (hcall : c.call rounds fs action = some (c', fs'))
    (hplain : Unmasked (history ++ c.callEvents rounds fs action)) :
    c'.Remembers nm rounds (history ++ c.callEvents rounds fs action) := by
  cases c with
  | unzip c =>
    obtain ⟨⟨c₁, fs₁⟩, hinner, heq⟩ := map_eq_some_iff.mp hcall
    cases heq
    cases action with
    | proceed slices => exact continueSlices_reports h hinner hplain
    | overwrite slices => exact continueWithOverwrite_reports h hinner hplain
  | paste c =>
    obtain ⟨⟨c₁, fs₁⟩, hinner, heq⟩ := map_eq_some_iff.mp hcall
    cases heq
    cases action with
    | proceed slices =>
      simp only [callEvents] at hplain ⊢
      simp only [PasteContext.call] at hinner
      by_cases hflag : c.iterator.deleteFailed = true
      · grind
      · rw [if_neg hflag] at hinner hplain ⊢
        exact continueSlices_reports h hinner hplain
    | overwrite slices =>
      simp only [callEvents] at hplain ⊢
      simp only [PasteContext.call] at hinner
      by_cases hflag : c.iterator.deleteFailed = true
      · grind
      · rw [if_neg hflag] at hinner hplain ⊢
        by_cases hover : c.overParent = true
        · rw [if_pos hover] at hinner hplain ⊢
          exact continueSlices_reports h hinner hplain
        · rw [if_neg hover] at hinner hplain ⊢
          exact continueWithOverwrite_reports h hinner hplain

theorem run_remembers {calls : List CopyCall} (h : c.Remembers nm rounds history)
    (hrun : run rounds calls c fs = some (c', fs'))
    (hplain : Unmasked (history ++ runEvents rounds calls c fs)) :
    c'.Remembers nm rounds (history ++ runEvents rounds calls c fs) := by
  induction calls generalizing c fs history with
  | nil =>
    cases hrun
    rwa [runEvents, append_nil]
  | cons action calls ih =>
    rw [run] at hrun
    obtain ⟨⟨c₁, fs₁⟩, hcall, hrest⟩ := bind_eq_some_iff.mp hrun
    rw [runEvents, hcall, ← append_assoc] at hplain ⊢
    exact ih (call_remembers h hcall (hplain.sublist (sublist_append_left _ _))) hrest hplain

/-- In every run without a failure that gets masked, every state that is reached reports the
failures truthfully. -/
theorem run_truthful {calls : List CopyCall} (hfresh : Fresh nm c)
    (hrun : run rounds calls c fs = some (c', fs'))
    (hunmasked : Unmasked (runEvents rounds calls c fs)) :
    Truthful (runEvents rounds calls c fs) c'.report :=
  (run_remembers hfresh.remembers hrun hunmasked).truthful

def failingFs (tree : Tree asciiNaming) (call : ℕ) : Fs asciiNaming :=
  ⟨tree, 0, fun n => if n = call then some (.error ⟨.diskErr, rfl⟩) else none, 0, []⟩

def twoFiles : Tree asciiNaming :=
  (oneDirectory.add [.drive 0] (.name ['F']) (.file ⟨['f'], Eq.symm rfl⟩ [1])).add
    [.drive 0] (.name ['G']) (.file ⟨['g'], Eq.symm rfl⟩ [2])

/-- The two files, cut and pasted into the directory. -/
def pasteFiles : CopyContext Path :=
  .paste (([['f'], ['g']].foldl (fun c path => c.addFile path)
    (PasteContext.create asciiNaming ['/', 'd'] ['/'])).setDeleteAfterCopy true)

def unzipFile : CopyContext Path :=
  .unzip (UnzipContext.create asciiNaming ['/', 'd']
    (some [⟨some ['a'], false, [[1, 2]], true, true, true⟩]))

/-- A call ends with the file whose removal fails. -/
theorem run_truthful_pasteFiles : ∃ c' fs',
    run 20 [.proceed [1, 1], .proceed [1]] pasteFiles (failingFs twoFiles 8) = some (c', fs') ∧
      Truthful (runEvents 20 [.proceed [1, 1], .proceed [1]] pasteFiles (failingFs twoFiles 8))
        c'.report := by
  have hsome : (run 20 [.proceed [1, 1], .proceed [1]] pasteFiles (failingFs twoFiles 8)).isSome =
      true := by decide +kernel
  have hevents : runEvents 20 [.proceed [1, 1], .proceed [1]] pasteFiles (failingFs twoFiles 8) =
      [.wrote [2] (.ok 1), .removed (.error .diskErr)] := by decide +kernel
  obtain ⟨⟨c', fs'⟩, hrun⟩ := isSome_iff_exists.mp hsome
  refine ⟨c', fs', hrun, run_truthful (.paste _ _ _ _) hrun ?_⟩
  rw [hevents]
  refine ⟨by simp, by simp, ?_⟩
  simp

/-- A write of data that fails is reported as a full card, and a removal that fails is forgotten
when another file is copied in the same call. -/
theorem failures_masked :
    (∃ c' fs', run 20 [.proceed [1, 1, 1]] unzipFile (failingFs oneDirectory 3) = some (c', fs') ∧
      ¬ Truthful (runEvents 20 [.proceed [1, 1, 1]] unzipFile (failingFs oneDirectory 3))
        c'.report) ∧
    ∃ c' fs', run 20 [.proceed [1, 1, 1, 1]] pasteFiles (failingFs twoFiles 8) = some (c', fs') ∧
      ¬ Truthful (runEvents 20 [.proceed [1, 1, 1, 1]] pasteFiles (failingFs twoFiles 8))
        c'.report := by
  constructor
  · have hreport : (run 20 [.proceed [1, 1, 1]] unzipFile (failingFs oneDirectory 3)).map
        (fun result => result.1.report) = some .cardFull := by decide +kernel
    have hevents : runEvents 20 [.proceed [1, 1, 1]] unzipFile (failingFs oneDirectory 3) =
        [.wrote [1, 2] (.error .diskErr)] := by decide +kernel
    obtain ⟨⟨c', fs'⟩, hrun, hfull⟩ := map_eq_some_iff.mp hreport
    refine ⟨c', fs', hrun, ?_⟩
    intro h
    have herror := h.writeError [1, 2] .diskErr (hevents ▸ mem_cons_self)
    exact absurd (hfull.symm.trans herror) (by decide)
  · have hreport : (run 20 [.proceed [1, 1, 1, 1]] pasteFiles (failingFs twoFiles 8)).map
        (fun result => result.1.report) = some .done := by decide +kernel
    have hevents : runEvents 20 [.proceed [1, 1, 1, 1]] pasteFiles (failingFs twoFiles 8) =
        [.wrote [2] (.ok 1), .removed (.error .diskErr), .wrote [1] (.ok 1), .removed (.ok ())] := by
      decide +kernel
    obtain ⟨⟨c', fs'⟩, hrun, hdone⟩ := map_eq_some_iff.mp hreport
    refine ⟨c', fs', hrun, ?_⟩
    intro h
    have herror := h.removal (.error .diskErr) (hevents ▸ by simp) rfl
    exact absurd (hdone.symm.trans herror) (by decide)

end CopyContext

end Cloudpilot.Vfs
