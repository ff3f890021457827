import Cloudpilot.Vfs.Confinement
import Cloudpilot.Vfs.Fatfs
import Cloudpilot.Vfs.UnzipContext

/-! # Unzipping stays inside its destination

As long as no name of the archive leads out of the destination, everything an extraction
creates, overwrites or deletes is at or below the destination, or a directory on the way there.
-/
namespace Cloudpilot.Vfs

open Library List Option

variable {N : Type} [DecidableEq N] {nm : Naming N}

/-- Nothing but directories stands above the destination. -/
structure DestinationReady (destination : Path) (dest : Loc N) (fs : Fs nm) : Prop where
  denotes : denote nm fs.currVol destination = some dest
  above : ∀ loc, loc <+: dest → loc ≠ dest → fs.tree.get loc = none ∨ fs.tree.isDir loc = true

/-- The path is in the destination, on the way there, or a directory that exists. -/
def Walkable (dest : Loc N) (fs : Fs nm) (q : Path) : Prop :=
  ∀ loc, denote nm fs.currVol q = some loc →
    dest <+: loc ∨ loc <+: dest ∨ fs.tree.isDir loc = true

def entryPath (destination name : Path) : Path :=
  normalizePath (joinPath destination (normalizePath name))

/-- The directories an entry needs exist, or they are in the destination or on the way there;
and a file is in the destination. -/
def ConfinedEntry (destination : Path) (dest : Loc N) (fs : Fs nm) (entry : ZipEntry) : Prop :=
  ∀ name, entry.name = some name →
    (∀ q ∈ directoriesOn (if entry.isDir then entryPath destination name
        else dirname (entryPath destination name)), Walkable dest fs q) ∧
    (entry.isDir = false →
      ∀ loc, denote nm fs.currVol (entryPath destination name) = some loc → dest <+: loc)

variable {destination : Path} {dest : Loc N} {fs fs' : Fs nm}

theorem DestinationReady.stays (h : DestinationReady destination dest fs) (hstays : Stays dest fs fs') :
    DestinationReady destination dest fs' := by
  constructor
  · rw [hstays.currVol]
    exact h.denotes
  · intro loc habove hne
    have hout : ¬ dest <+: loc := fun hbelow => hne (habove.eq_of_length_le hbelow.length_le)
    rcases hstays.outside loc hout with hsame | ⟨-, hdir, -⟩
    · rw [hsame, isDir_congr hsame]
      exact h.above loc habove hne
    · grind

theorem Walkable.stays {q : Path} (h : Walkable dest fs q) (hstays : Stays dest fs fs') :
    Walkable dest fs' q := by
  intro loc hdenote
  rw [hstays.currVol] at hdenote
  rcases h loc hdenote with hbelow | habove | hdir
  · grind
  · grind
  · by_cases hout : dest <+: loc
    · grind
    · exact .inr (.inr (hstays.isDir hout hdir))

theorem Walkable.file {q : Path} {loc : Loc N} (hready : DestinationReady destination dest fs)
    (h : Walkable dest fs q) (hdenote : denote nm fs.currVol q = some loc)
    (hsome : fs.tree.get loc ≠ none) (hfile : fs.tree.isDir loc = false) : dest <+: loc := by
  have hnot : ¬ fs.tree.isDir loc = true := Bool.eq_false_iff.mp hfile
  rcases h loc hdenote with hbelow | habove | hdir
  · exact hbelow
  · by_cases heq : loc = dest
    · rw [heq]
    · exact absurd (hready.above loc habove heq) (not_or.mpr ⟨hsome, hnot⟩)
  · grind

theorem ConfinedEntry.stays {entry : ZipEntry} (h : ConfinedEntry destination dest fs entry)
    (hstays : Stays dest fs fs') : ConfinedEntry destination dest fs' entry := by
  intro name hname
  obtain ⟨hwalk, hfile⟩ := h name hname
  refine ⟨fun q hq => (hwalk q hq).stays hstays, ?_⟩
  rwa [hstays.currVol]

namespace ZipfileIterator

def AtEntry (it : ZipfileIterator) : Prop :=
  it.state = .valid → ∃ entry ∈ it.entries, ∃ name, it.opened = some entry ∧ entry.name = some name ∧
    it.currentEntry = normalizePath name

theorem create_atEntry (zip : Option (List ZipEntry)) : (create zip).AtEntry := by
  intro hvalid
  cases zip with
  | none => cases hvalid
  | some entries => grind [create]

theorem openNext_zip (it : ZipfileIterator) : it.openNext.zip = it.zip := by
  rw [openNext]
  split
  · rfl
  · grind

theorem openNext_atEntry (it : ZipfileIterator) : it.openNext.AtEntry := by
  rw [openNext]
  cases hentry : it.entries[it.currentEntryIndex]? with
  | none => exact fun h => IteratorState.noConfusion h
  | some entry =>
    simp only
    by_cases hopens : entry.opens = true
    · rw [if_pos hopens]
      cases hname : entry.name with
      | none => exact fun h => IteratorState.noConfusion h
      | some name =>
        intro _
        exact ⟨entry, mem_of_getElem? hentry, name, hentry, hname, rfl⟩
    · rw [if_neg hopens]
      exact fun h => IteratorState.noConfusion h

theorem next_zip (it : ZipfileIterator) : it.next.zip = it.zip := by
  rw [next]
  split_ifs
  · rfl
  · rfl
  · exact it.openNext_zip

theorem next_atEntry {it : ZipfileIterator} : it.next.AtEntry := by
  rw [next]
  split_ifs with hstop hclose
  · exact fun hvalid => absurd hvalid hstop.1
  · exact fun h => IteratorState.noConfusion h
  · exact it.openNext_atEntry

theorem readCurrent_iterator (cb : Bytes → ExtractContext N → Fs nm → ExtractContext N × Fs nm)
    (it : ZipfileIterator) (context : ExtractContext N) (fs : Fs nm) (h : it.AtEntry) :
    (it.readCurrent cb context fs).1.zip = it.zip ∧ (it.readCurrent cb context fs).1.AtEntry := by
  rw [readCurrent]
  split
  · exact ⟨rfl, h⟩
  · split
    · exact ⟨rfl, h⟩
    · simp only
      split
      · exact ⟨rfl, h⟩
      · exact ⟨rfl, fun h => IteratorState.noConfusion h⟩

end ZipfileIterator

namespace GenericCopyContext

/-- What is kept while an archive is extracted. -/
structure Confines (destination : Path) (dest : Loc N) (zip : Option (List ZipEntry))
    (c : UnzipContext N) (fs : Fs nm) : Prop where
  ready : DestinationReady destination dest fs
  same : c.destination = destination
  zip : c.iterator.zip = zip
  atEntry : c.iterator.AtEntry
  collision : c.state = .collision ∨ c.state = .collisionWithDirectory →
    ∃ loc, denote nm fs.currVol c.collisionPath = some loc ∧ dest <+: loc
  deletion : ∀ d, c.deleteRecursiveContext = some d →
    d.iterator.Sweeps nm fs.currVol dest

/-- What the work on an entry leaves behind. -/
def Keeps (destination : Path) (dest : Loc N) (zip : Option (List ZipEntry)) (c : UnzipContext N)
    (fs : Fs nm) (result : UnzipContext N × Fs nm) : Prop :=
  Stays dest fs result.2 ∧ Confines destination dest zip result.1 result.2 ∧
    result.1.currentPath = c.currentPath

variable {zip : Option (List ZipEntry)} {c c' : UnzipContext N}

section

variable (h : Confines destination dest zip c fs)

include h

theorem Confines.stays (hstays : Stays dest fs fs') : Confines destination dest zip c fs' := by
  refine ⟨h.ready.stays hstays, h.same, h.zip, h.atEntry, ?_, ?_⟩
  · rw [hstays.currVol]
    exact h.collision
  · rw [hstays.currVol]
    exact h.deletion

theorem Confines.setState (state : CopyState)
    (hstate : state ≠ .collision ∧ state ≠ .collisionWithDirectory) :
    Confines destination dest zip { c with state := state } fs :=
  ⟨h.ready, h.same, h.zip, h.atEntry,
    fun hcollision => by rcases hcollision with heq | heq
                         · exact absurd heq hstate.1
                         · exact absurd heq hstate.2, h.deletion⟩

theorem Confines.visit (path : Path) (usable : Bool) :
    Confines destination dest zip (c.visit path usable) fs :=
  ⟨h.ready, h.same, h.zip, h.atEntry, h.collision, h.deletion⟩

theorem mkdirLoop_keeps {qs : List Path} (hqs : ∀ q ∈ qs, Walkable dest fs q) :
    Keeps destination dest zip c fs (mkdirLoop qs c fs) := by
  induction qs generalizing c fs with
  | nil => exact ⟨.refl fs, h, rfl⟩
  | cons q qs ih =>
    have hq := hqs q mem_cons_self
    have hrest : ∀ p ∈ qs, Walkable dest fs p := fun p hp => hqs p (mem_cons_of_mem q hp)
    rw [mkdirLoop]
    cases hvisited : c.visitedDirectories q with
    | some usable =>
      cases usable with
      | true => exact ih h hrest
      | false => exact ⟨.refl fs, h.setState _ (by decide), rfl⟩
    | none =>
      have hsame := f_stat_sameTree q fs
      have hok := f_stat_ok q fs
      have hmissing := f_stat_noFile q fs
      simp only
      cases hstat : f_stat q fs with
      | mk res fs₁ =>
        rw [hstat] at hsame hok hmissing
        have hstays : Stays dest fs fs₁ := .of_sameTree hsame
        have h₁ := h.stays hstays
        cases res with
        | ok info =>
          obtain ⟨loc, hdenote, hsome, hdir⟩ := hok info rfl
          simp only
          by_cases hinfo : info.isDir = true
          · rw [if_pos hinfo]
            obtain ⟨hstays', hkeep, hcurrent⟩ := ih (h₁.visit q true) fun p hp => (hrest p hp).stays hstays
            exact ⟨hstays.trans hstays', hkeep, hcurrent⟩
          · rw [if_neg hinfo]
            have hbelow := hq.file h.ready hdenote hsome
              (hdir.symm.trans (Bool.eq_false_iff.mpr hinfo))
            refine ⟨hstays, ⟨h₁.ready, h₁.same, h₁.zip, h₁.atEntry, fun _ => ⟨loc, ?_, hbelow⟩,
              h₁.deletion⟩, rfl⟩
            rwa [hstays.currVol]
        | error res =>
          have hfail : Keeps destination dest zip c fs ({ c with state := .ioError }, fs₁) :=
            ⟨hstays, h₁.setState _ (by decide), rfl⟩
          cases res with
          | invalidName => exact ⟨hstays, (h₁.setState _ (by decide)).visit q false, rfl⟩
          | noFile =>
            obtain ⟨loc, hdenote, hnone⟩ := hmissing rfl
            have hnear : dest <+: loc ∨ loc <+: dest := by
              rcases hq loc hdenote with hbelow | habove | hdir
              · grind
              · grind
              · exact absurd hnone (FileTree.get_of_isDir hdir)
            have hmkdir := hstays.trans (stays_mkdir (by rw [hsame.currVol]; exact hdenote) hnear)
            simp only
            cases hcall : f_mkdir q fs₁ with
            | mk res fs₂ =>
              rw [hcall] at hmkdir
              have h₂ := h.stays hmkdir
              cases res with
              | ok done =>
                obtain ⟨hstays', hkeep, hcurrent⟩ :=
                  ih (h₂.visit q true) fun p hp => (hrest p hp).stays hmkdir
                exact ⟨hmkdir.trans hstays', hkeep, hcurrent⟩
              | error res =>
                cases res with
                | invalidName => exact ⟨hmkdir, (h₂.setState _ (by decide)).visit q false, rfl⟩
                | _ => exact ⟨hmkdir, h₂.setState _ (by decide), rfl⟩
          | _ => exact hfail

theorem mkdirRecursive_keeps {path : Path} (hqs : ∀ q ∈ directoriesOn path, Walkable dest fs q) :
    Keeps destination dest zip c fs (mkdirRecursive path c fs) := by
  rw [mkdirRecursive]
  split
  · exact mkdirLoop_keeps (h.setState _ (by decide)) hqs
  · exact ⟨.refl fs, h.setState _ (by decide), rfl⟩

end

theorem onExtract_stays {context : ExtractContext N} (hfile : dest <+: context.file) (data : Bytes)
    (fs : Fs nm) : Stays dest fs (context.onExtract data fs).2 ∧
      (context.onExtract data fs).1.file = context.file := by
  rw [ExtractContext.onExtract]
  split
  · exact ⟨.refl fs, rfl⟩
  · have hwrite := stays_write hfile data fs
    cases hcall : f_write context.file data fs with
    | mk res fs₁ => grind

theorem feed_stays {chunks : List Bytes} (context : ExtractContext N) (hfile : dest <+: context.file)
    (fs : Fs nm) :
    Stays dest fs (ZipfileIterator.feed ExtractContext.onExtract chunks context fs).2 := by
  induction chunks generalizing context fs with
  | nil => exact .refl fs
  | cons data chunks ih =>
    obtain ⟨hstays, hsame⟩ := onExtract_stays hfile data fs
    have hrest := ih (context.onExtract data fs).1 (by rw [hsame]; exact hfile)
      (context.onExtract data fs).2
    exact hstays.trans hrest

theorem readCurrent_stays (it : ZipfileIterator) (context : ExtractContext N)
    (hfile : dest <+: context.file) (fs : Fs nm) :
    Stays dest fs (it.readCurrent ExtractContext.onExtract context fs).2.2 := by
  rw [ZipfileIterator.readCurrent]
  split
  · exact .refl fs
  · split
    · exact .refl fs
    · exact feed_stays context hfile fs

theorem closeFile_keeps {loc : Loc N} (h : Confines destination dest zip c fs)
    (hdenote : denote nm fs.currVol c.currentPath = some loc) (hloc : dest <+: loc) :
    Keeps destination dest zip c fs (closeFile c fs) := by
  rw [closeFile]
  split
  · have hstays := stays_unlink hdenote hloc
    exact ⟨hstays, h.stays hstays, rfl⟩
  · exact ⟨.refl fs, h, rfl⟩

theorem extractedState_ne (it : IteratorState) (status : ExtractStatus) :
    ¬ (extractedState it status = .collision ∨ extractedState it status = .collisionWithDirectory) := by
  unfold extractedState
  grind

theorem copyCurrentEntry_keeps (h : Confines destination dest zip c fs)
    (hpath : ∀ loc, denote nm fs.currVol c.currentPath = some loc → dest <+: loc) :
    Keeps destination dest zip c fs (copyCurrentEntry (ZipfileIterator.source nm) c fs) := by
  rw [copyCurrentEntry]
  have hsame := f_stat_sameTree c.currentPath fs
  have hok := f_stat_ok c.currentPath fs
  have hmissing := f_stat_noFile c.currentPath fs
  cases hstat : f_stat c.currentPath fs with
  | mk res fs₁ =>
    rw [hstat] at hsame hok hmissing
    have hstays : Stays dest fs fs₁ := .of_sameTree hsame
    have h₁ := h.stays hstays
    cases res with
    | ok info =>
      obtain ⟨loc, hdenote, -, -⟩ := hok info rfl
      refine ⟨hstays, ⟨h₁.ready, h₁.same, h₁.zip, h₁.atEntry,
        fun _ => ⟨loc, ?_, hpath loc hdenote⟩, h₁.deletion⟩, rfl⟩
      rwa [hstays.currVol]
    | error res =>
      cases res with
      | noFile =>
        obtain ⟨loc, hdenote, -⟩ := hmissing rfl
        have hloc := hpath loc hdenote
        have hdenote₁ : denote nm fs₁.currVol c.currentPath = some loc := by grind [hstays.currVol]
        obtain ⟨hopen, hfile⟩ := stays_openWrite hdenote₁ hloc
        simp only
        cases hcall : f_openWrite c.currentPath fs₁ with
        | mk res fs₂ =>
          rw [hcall] at hopen hfile
          have hopened := hstays.trans hopen
          have h₂ := h.stays hopened
          cases res with
          | error res => cases res <;> exact ⟨hopened, h₂.setState _ (by decide), rfl⟩
          | ok file =>
            have hbelow := hfile file rfl
            have hread := readCurrent_stays c.iterator ⟨file, .ok⟩ hbelow fs₂
            obtain ⟨hzip, hentry⟩ := ZipfileIterator.readCurrent_iterator
              ExtractContext.onExtract c.iterator ⟨file, .ok⟩ fs₂ h.atEntry
            have hdone := hopened.trans hread
            have h₃ := h.stays hdone
            have hextracted : Confines destination dest zip
                { c with
                  iterator := (c.iterator.readCurrent ExtractContext.onExtract ⟨file, .ok⟩ fs₂).1
                  state := extractedState
                    (c.iterator.readCurrent ExtractContext.onExtract ⟨file, .ok⟩ fs₂).1.state
                    (c.iterator.readCurrent ExtractContext.onExtract ⟨file, .ok⟩ fs₂).2.1.status }
                (c.iterator.readCurrent ExtractContext.onExtract ⟨file, .ok⟩ fs₂).2.2 := by
              refine ⟨h₃.ready, h₃.same, hzip.trans h.zip, hentry, ?_, h₃.deletion⟩
              intro hcollision
              exact absurd hcollision (extractedState_ne _ _)
            obtain ⟨hstays', hkeep, hcurrent⟩ := closeFile_keeps hextracted
              (by rw [hdone.currVol]; exact hdenote) hloc
            exact ⟨hdone.trans hstays', hkeep, hcurrent⟩
      | _ => exact ⟨hstays, h₁.setState _ (by decide), rfl⟩

theorem afterCopy_confines (h : Confines destination dest zip c fs) :
    (afterCopy (ZipfileIterator.source nm) c fs).2 = fs ∧
      Confines destination dest zip (afterCopy (ZipfileIterator.source nm) c fs).1 fs := by
  rw [afterCopy]
  split
  · exact ⟨rfl, h.ready, h.same, h.zip, h.atEntry, h.collision, h.deletion⟩
  · exact ⟨rfl, h⟩

/-- A result that keeps the changes of a context confined. -/
def Within (destination : Path) (dest : Loc N) (zip : Option (List ZipEntry)) (fs : Fs nm)
    (result : UnzipContext N × Fs nm) : Prop :=
  Stays dest fs result.2 ∧ Confines destination dest zip result.1 result.2

theorem afterCopy_within {result : UnzipContext N × Fs nm}
    (h : Within destination dest zip fs result) :
    Within destination dest zip fs (afterCopy (ZipfileIterator.source nm) result.1 result.2) := by
  obtain ⟨hfs, hconfines⟩ := afterCopy_confines h.2
  rw [← hfs] at hconfines
  constructor
  · rw [hfs]
    exact h.1
  · grind

section

variable (h : Confines destination dest zip c fs)

include h

theorem copyEntry_within (hvalid : c.iterator.state = .valid)
    (hcurrentPath : c.currentPath = normalizePath (joinPath c.destination c.iterator.currentEntry))
    (hentries : ∀ entry ∈ zip.getD [], ConfinedEntry destination dest fs entry) :
    Within destination dest zip fs (copyEntry (ZipfileIterator.source nm) c fs) := by
  obtain ⟨entry, hmem, name, hopened, hname, hcurrent⟩ := h.atEntry hvalid
  have hzip : entry ∈ zip.getD [] := by
    rwa [← h.zip]
  obtain ⟨hwalk, hfile⟩ := hentries entry hzip name hname
  have hpath : c.currentPath = entryPath destination name := by
    rw [hcurrentPath, h.same, hcurrent]
    rfl
  have hisDir : (ZipfileIterator.source nm).isDirectory c.iterator = entry.isDir := by
    have hany : c.iterator.isDirectory = entry.isDir := by
      rw [ZipfileIterator.isDirectory, hopened]
      rfl
    exact hany
  have hskip : ¬ (ZipfileIterator.source nm).skipCurrentEntry c.currentPath c.iterator = true :=
    Bool.false_ne_true
  rw [copyEntry, if_neg hskip, hisDir, hpath]
  by_cases hdir : entry.isDir = true
  · rw [if_pos hdir] at hwalk ⊢
    obtain ⟨hstays, hkeep, -⟩ := mkdirRecursive_keeps h hwalk
    exact afterCopy_within ⟨hstays, hkeep⟩
  · rw [if_neg hdir] at hwalk ⊢
    obtain ⟨hstays, hkeep, hcurrent'⟩ := mkdirRecursive_keeps h hwalk
    simp only
    split
    · exact ⟨hstays, hkeep⟩
    · have hinside : ∀ loc, denote nm (mkdirRecursive (dirname (entryPath destination name)) c fs).2.currVol
          (mkdirRecursive (dirname (entryPath destination name)) c fs).1.currentPath = some loc →
          dest <+: loc := by
        rw [hstays.currVol, hcurrent', hpath]
        exact hfile (Bool.eq_false_iff.mpr hdir)
      obtain ⟨hstays', hkeep', -⟩ := copyCurrentEntry_keeps hkeep hinside
      exact afterCopy_within ⟨hstays.trans hstays', hkeep'⟩

theorem select_confines :
    Confines destination dest zip (selectEntry (ZipfileIterator.source nm) c) fs :=
  ⟨h.ready, h.same, h.zip, h.atEntry, h.collision, h.deletion⟩

theorem advance_within (hadvance : advance (ZipfileIterator.source nm) c fs = some (c', fs')) :
    Within destination dest zip fs (c', fs') := by
  cases hadvance
  exact ⟨.refl _, h.ready, h.same, c.iterator.next_zip.trans h.zip,
    ZipfileIterator.next_atEntry, h.collision, h.deletion⟩

theorem deleteSlice_within {rounds batches : ℕ} {d : DeleteRecursiveContext N}
    (hd : c.deleteRecursiveContext = some d)
    (hslice : deleteSlice rounds batches d c fs = some (c', fs')) :
    Within destination dest zip fs (c', fs') := by
  rw [deleteSlice] at hslice
  obtain ⟨result, hresult, hc⟩ := map_eq_some_iff.mp hslice
  obtain ⟨d', fs₁⟩ := result
  obtain ⟨hstays, hsweeps⟩ :=
    DeleteRecursiveContext.executeSteps_keeps (h.deletion d hd) hresult
  have h₁ := h.stays hstays
  rw [← hstays.currVol] at hsweeps
  have hgone : ∀ state, state ≠ .collision ∧ state ≠ .collisionWithDirectory →
      Confines destination dest zip { c with state := state, deleteRecursiveContext := none } fs₁ :=
    fun state hstate => ⟨h₁.ready, h₁.same, h₁.zip, h₁.atEntry, (h₁.setState state hstate).collision, nofun⟩
  cases hstate : d'.getState with
  | more =>
    simp only [hstate] at hc
    cases hc
    refine ⟨hstays, h₁.ready, h₁.same, h₁.zip, h₁.atEntry, h₁.collision, ?_⟩
    intro d₁ hd₁
    cases hd₁
    exact hsweeps
  | done =>
    simp only [hstate] at hc
    cases hc
    exact ⟨hstays, h₁.ready, h₁.same, h₁.zip, h₁.atEntry, h₁.collision, nofun⟩
  | initial =>
    simp only [hstate] at hc
    cases hc
    exact ⟨hstays, hgone .ioError (by decide)⟩
  | error =>
    simp only [hstate] at hc
    cases hc
    exact ⟨hstays, hgone .ioError (by decide)⟩

theorem executeSlice_within {rounds batches : ℕ}
    (hentries : ∀ entry ∈ zip.getD [], ConfinedEntry destination dest fs entry)
    (hslice : executeSlice (ZipfileIterator.source nm) rounds c fs batches = some (c', fs')) :
    Within destination dest zip fs (c', fs') := by
  rw [executeSlice] at hslice
  by_cases hmore : c.state = .more
  · rw [if_neg (not_not.mpr hmore)] at hslice
    cases hdelete : c.deleteRecursiveContext with
    | some d =>
      rw [hdelete] at hslice
      exact deleteSlice_within h hdelete hslice
    | none =>
      rw [hdelete] at hslice
      have hsource : (ZipfileIterator.source nm).getState c.iterator = c.iterator.state := rfl
      simp only [hsource] at hslice
      cases hstate : c.iterator.state with
      | done =>
        rw [hstate] at hslice
        cases hslice
        exact ⟨.refl _, h.ready, h.same, h.zip, h.atEntry,
          (h.setState .done (by decide)).collision, nofun⟩
      | error =>
        rw [hstate] at hslice
        cases hslice
        exact ⟨.refl _, h.ready, h.same, h.zip, h.atEntry,
          (h.setState .iteratorError (by decide)).collision, nofun⟩
      | initial =>
        rw [hstate] at hslice
        exact advance_within h hslice
      | valid =>
        rw [hstate] at hslice
        obtain ⟨hstays, hkeep⟩ := copyEntry_within (select_confines h) hstate rfl hentries
        simp only [skipIfCollision] at hslice
        split at hslice
        · cases hslice
          exact ⟨hstays, hkeep⟩
        · obtain ⟨hstays', hkeep'⟩ := advance_within hkeep hslice
          exact ⟨hstays.trans hstays', hkeep'⟩
  · rw [if_pos hmore] at hslice
    cases hslice
    exact ⟨.refl _, h⟩

theorem executeSlices_within {rounds : ℕ} {slices : List ℕ}
    (hentries : ∀ entry ∈ zip.getD [], ConfinedEntry destination dest fs entry)
    (hslices : executeSlices (ZipfileIterator.source nm) rounds slices c fs = some (c', fs')) :
    Within destination dest zip fs (c', fs') := by
  induction slices generalizing c fs with
  | nil =>
    cases hslices
    exact ⟨.refl _, h⟩
  | cons batches slices ih =>
    rw [executeSlices] at hslices
    obtain ⟨⟨c₁, fs₁⟩, hslice, hrest⟩ := bind_eq_some_iff.mp hslices
    obtain ⟨hstays, hkeep⟩ := executeSlice_within h hentries hslice
    obtain ⟨hstays', hkeep'⟩ := ih hkeep (fun e he => (hentries e he).stays hstays) hrest
    exact ⟨hstays.trans hstays', hkeep'⟩

theorem resume_within (hresume : resume (ZipfileIterator.source nm) c fs = some (c', fs')) :
    Within destination dest zip fs (c', fs') := by
  rw [resume] at hresume
  split at hresume
  case h_5 | h_6 =>
    obtain ⟨⟨c₁, fs₁⟩, hadvance, heq⟩ := map_eq_some_iff.mp hresume
    cases heq
    obtain ⟨hstays, hkeep⟩ := advance_within h hadvance
    exact ⟨hstays, hkeep.setState .more (by decide)⟩
  case h_7 | h_8 =>
    cases hresume
    exact ⟨.refl _, h.setState .more (by decide)⟩
  all_goals
    cases hresume
    exact ⟨.refl _, h⟩

theorem continueSlices_within {rounds : ℕ} {slices : List ℕ}
    (hentries : ∀ entry ∈ zip.getD [], ConfinedEntry destination dest fs entry)
    (hcontinue : continueSlices (ZipfileIterator.source nm) rounds slices c fs = some (c', fs')) :
    Within destination dest zip fs (c', fs') := by
  rw [continueSlices] at hcontinue
  obtain ⟨⟨c₁, fs₁⟩, hresume, hslices⟩ := bind_eq_some_iff.mp hcontinue
  obtain ⟨hstays, hkeep⟩ := resume_within h hresume
  obtain ⟨hstays', hkeep'⟩ :=
    executeSlices_within hkeep (fun e he => (hentries e he).stays hstays) hslices
  exact ⟨hstays.trans hstays', hkeep'⟩

theorem removeConflictingFile_within (hstate : c.state = .collision) :
    Within destination dest zip fs (removeConflictingFile c fs) := by
  obtain ⟨loc, hdenote, hloc⟩ := h.collision (.inl hstate)
  have hstays := stays_unlink hdenote hloc
  have h₁ := h.stays hstays
  rw [removeConflictingFile]
  cases hcall : f_unlink c.collisionPath fs with
  | mk res fs₁ =>
    rw [hcall] at hstays h₁
    cases res with
    | ok done => exact ⟨hstays, h₁.setState .more (by decide)⟩
    | error res =>
      cases res with
      | invalidName => exact ⟨hstays, h₁.setState .invalidEntry (by decide)⟩
      | _ => exact ⟨hstays, h₁.setState .ioError (by decide)⟩

theorem startDeletion_confines : Confines destination dest zip (startDeletion c) fs := by
  rw [startDeletion]
  split
  · rename_i hstate
    obtain ⟨loc, hdenote, hloc⟩ := h.collision (.inr hstate)
    refine ⟨h.ready, h.same, h.zip, h.atEntry, (h.setState .more (by decide)).collision, ?_⟩
    intro d hd
    cases hd
    exact DeleteRecursiveContext.sweeps_addFile hdenote hloc
  · exact h

theorem continueWithOverwrite_within {rounds : ℕ} {slices : List ℕ}
    (hentries : ∀ entry ∈ zip.getD [], ConfinedEntry destination dest fs entry)
    (hcontinue : continueWithOverwrite (ZipfileIterator.source nm) rounds slices c fs = some (c', fs'))
    : Within destination dest zip fs (c', fs') := by
  rw [continueWithOverwrite] at hcontinue
  split at hcontinue
  · rename_i hstate
    obtain ⟨hstays, hkeep⟩ := removeConflictingFile_within h hstate
    simp only at hcontinue
    split at hcontinue
    · cases hcontinue
      exact ⟨hstays, hkeep⟩
    · obtain ⟨hstays', hkeep'⟩ :=
        continueSlices_within hkeep (fun e he => (hentries e he).stays hstays) hcontinue
      exact ⟨hstays.trans hstays', hkeep'⟩
  · exact continueSlices_within (startDeletion_confines h) hentries hcontinue

end

end GenericCopyContext

namespace UnzipContext

open GenericCopyContext

variable {zip : Option (List ZipEntry)} {c c' : UnzipContext N}

theorem run_within {rounds : ℕ} {calls : List CopyCall} (h : Confines destination dest zip c fs)
    (hentries : ∀ entry ∈ zip.getD [], ConfinedEntry destination dest fs entry)
    (hrun : run rounds c fs calls = some (c', fs')) : Within destination dest zip fs (c', fs') := by
  induction calls generalizing c fs with
  | nil =>
    cases hrun
    exact ⟨.refl _, h⟩
  | cons next calls ih =>
    rw [run] at hrun
    obtain ⟨⟨c₁, fs₁⟩, hcall, hrest⟩ := bind_eq_some_iff.mp hrun
    have hwithin : Within destination dest zip fs (c₁, fs₁) := by
      cases next with
      | proceed slices => exact continueSlices_within h hentries hcall
      | overwrite slices => exact continueWithOverwrite_within h hentries hcall
    obtain ⟨hstays, hkeep⟩ := hwithin
    obtain ⟨hstays', hkeep'⟩ := ih hkeep (fun e he => (hentries e he).stays hstays) hrest
    exact ⟨hstays.trans hstays', hkeep'⟩

theorem create_confines (h : DestinationReady (normalizePath destination) dest fs)
    (zip : Option (List ZipEntry)) :
    Confines (normalizePath destination) dest zip (create nm destination zip) fs := by
  refine ⟨h, rfl, rfl, ZipfileIterator.create_atEntry zip, ?_, nofun⟩
  intro hcollision
  grind [create, GenericCopyContext.create]

/-- If no name leads out of the destination, whatever an extraction asks FatFs to create,
overwrite or delete is the destination, below it, or a directory made on the way to it. -/
theorem changes_confined (rounds : ℕ) (zip : Option (List ZipEntry)) (calls : List CopyCall)
    (hready : DestinationReady (normalizePath destination) dest fs)
    (hentries : ∀ entry ∈ zip.getD [], ConfinedEntry (normalizePath destination) dest fs entry)
    (hrun : run rounds (create nm destination zip) fs calls = some (c', fs')) :
    ∀ change ∈ fs'.changes, change ∈ fs.changes ∨ change.Confined nm fs.currVol dest :=
  (run_within (create_confines hready zip) hentries hrun).1.changes

def plainEntry : ZipEntry := ⟨some ['a', '/', 'b'], false, [[1, 2]], true, true, true⟩

theorem plainEntry_confined :
    ConfinedEntry ['/', 'd'] [.drive 0, .name ['D']] (freshFs oneDirectory) plainEntry := by
  intro name hname
  cases hname
  have hD : denote asciiNaming 0 ['/', 'd'] = some [.drive 0, .name ['D']] := by decide +kernel
  have hA : denote asciiNaming 0 ['/', 'd', '/', 'a'] =
      some [.drive 0, .name ['D'], .name ['A']] := by decide +kernel
  have hB : denote asciiNaming 0 ['/', 'd', '/', 'a', '/', 'b'] =
      some [.drive 0, .name ['D'], .name ['A'], .name ['B']] := by decide +kernel
  have hdirectories : directoriesOn (dirname (entryPath ['/', 'd'] ['a', '/', 'b'])) =
      [['/', 'd'], ['/', 'd', '/', 'a']] := by decide +kernel
  constructor
  · intro q hq
    have hq' : q ∈ [['/', 'd'], ['/', 'd', '/', 'a']] := hdirectories ▸ hq
    intro loc hdenote
    rcases mem_pair.mp hq' with rfl | rfl
    · obtain rfl := some.inj (hD.symm.trans hdenote)
      exact .inl (prefix_refl _)
    · obtain rfl := some.inj (hA.symm.trans hdenote)
      exact .inl ⟨[.name ['A']], rfl⟩
  · intro _ loc hdenote
    have hpath : entryPath ['/', 'd'] ['a', '/', 'b'] = ['/', 'd', '/', 'a', '/', 'b'] := by rfl
    rw [hpath] at hdenote
    obtain rfl := some.inj (hB.symm.trans hdenote)
    exact ⟨[.name ['A'], .name ['B']], rfl⟩

theorem oneDirectory_ready :
    DestinationReady (normalizePath ['/', 'd']) [.drive 0, .name ['D']] (freshFs oneDirectory) := by
  refine ⟨by decide +kernel, ?_⟩
  intro loc habove hne
  have hmem : loc ∈ ([.drive 0, .name ['D']] : Loc Path).inits := (mem_inits _ _).mpr habove
  rcases mem_cons.mp hmem with rfl | hmem
  · exact .inl FileTree.get_nil
  · rcases mem_cons.mp hmem with rfl | hmem
    · exact .inr (by decide +kernel)
    · grind

/-- An archive with a directory of its own, unpacked into the one directory of the card. -/
theorem changes_confined_plain : ∃ c' fs',
    run 1 (create asciiNaming ['/', 'd'] (some [plainEntry])) (freshFs oneDirectory)
      [.proceed [0, 0]] = some (c', fs') ∧ fs'.changes.length = 2 ∧
    ∀ change ∈ fs'.changes, change ∈ (freshFs oneDirectory).changes ∨
      change.Confined asciiNaming 0 [.drive 0, .name ['D']] := by
  have hlength : (run 1 (create asciiNaming ['/', 'd'] (some [plainEntry])) (freshFs oneDirectory)
      [.proceed [0, 0]]).map (fun r => r.2.changes.length) = some 2 := by decide +kernel
  obtain ⟨⟨c', fs'⟩, hrun, hchanges⟩ := map_eq_some_iff.mp hlength
  refine ⟨c', fs', hrun, hchanges, ?_⟩
  refine changes_confined 1 (some [plainEntry]) [.proceed [0, 0]] oneDirectory_ready ?_ hrun
  intro entry hmem
  obtain rfl := mem_singleton.mp hmem
  exact plainEntry_confined

/-- The file an entry names two dots away from the destination. -/
def leadingOut : ZipEntry := ⟨some ['.', '.', '/', 'x'], false, [], true, true, true⟩

/-- The destination is a directory of the card, and a file beside it is opened for writing. -/
theorem dots_lead_out :
    DestinationReady ['/', 'd'] [.drive 0, .name ['D']] (freshFs oneDirectory) ∧
    oneDirectory.isDir [.drive 0, .name ['D']] = true ∧ ∃ c' fs',
      run 1 (create asciiNaming ['/', 'd'] (some [leadingOut])) (freshFs oneDirectory)
        [.proceed [0, 0]] = some (c', fs') ∧
      ∃ change ∈ fs'.changes, ¬ change.Confined asciiNaming 0 [.drive 0, .name ['D']] := by
  refine ⟨oneDirectory_ready, by decide +kernel, ?_⟩
  have hchanges : (run 1 (create asciiNaming ['/', 'd'] (some [leadingOut])) (freshFs oneDirectory)
      [.proceed [0, 0]]).map (fun r => r.2.changes) =
      some [⟨.openWrite, ['/', 'd', '/', '.', '.', '/', 'x']⟩] := by decide +kernel
  have hdenote : denote asciiNaming 0 ['/', 'd', '/', '.', '.', '/', 'x'] =
      some [.drive 0, .name ['X']] := by decide +kernel
  obtain ⟨⟨c', fs'⟩, hrun, hmem⟩ := map_eq_some_iff.mp hchanges
  refine ⟨c', fs', hrun, _, hmem ▸ mem_singleton_self _, ?_⟩
  rintro ⟨loc, hloc, hinside⟩
  obtain rfl := some.inj (hdenote.symm.trans hloc)
  rcases hinside with hbelow | ⟨hmkdir, -⟩ <;> grind

end UnzipContext

end Cloudpilot.Vfs
