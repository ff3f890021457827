import Cloudpilot.Vfs.FatfsCalls
import Cloudpilot.Vfs.RecursiveFsIterator

/-! # Staying inside a directory

Changes are confined to a destination when they are at or below it; a directory may also be
made on the way to it. Confined calls leave everything else as it was.
-/

namespace Cloudpilot.Vfs

open Library List Option

section

variable {N : Type} [DecidableEq N] {nm : Naming N}

omit [DecidableEq N] in
/-- The path is the destination or below it, or it is on the way there and only created. -/
def Change.Confined (nm : Naming N) (currVol : ℕ) (dest : Loc N) (change : Change) : Prop :=
  ∃ loc, denote nm currVol change.path = some loc ∧
    (dest <+: loc ∨ change.access = .mkdir ∧ loc <+: dest)

/-- The changes between two states are confined. -/
structure Stays (dest : Loc N) (fs fs' : Fs nm) : Prop where
  currVol : fs'.currVol = fs.currVol
  changes : ∀ change ∈ fs'.changes, change ∈ fs.changes ∨ change.Confined nm fs.currVol dest
  outside : ∀ loc, ¬ dest <+: loc → fs'.tree.get loc = fs.tree.get loc ∨
    fs.tree.get loc = none ∧ fs'.tree.isDir loc = true ∧ loc <+: dest

variable {fs fs' fs'' : Fs nm} {dest : Loc N} {path : Path} {loc : Loc N}

theorem isDir_congr {t t' : Tree nm} (h : t'.get loc = t.get loc) : t'.isDir loc = t.isDir loc := by
  rw [FileTree.isDir, FileTree.isDir, h]

theorem Stays.of_sameTree (h : SameTree fs fs') : Stays dest fs fs' :=
  ⟨h.currVol, fun _ hmem => .inl (h.changes ▸ hmem), fun _ _ => .inl (by rw [h.tree])⟩

theorem Stays.refl (fs : Fs nm) : Stays dest fs fs := .of_sameTree ⟨⟨rfl, rfl, rfl⟩, rfl⟩

theorem Stays.trans (h : Stays dest fs fs') (h' : Stays dest fs' fs'') : Stays dest fs fs'' := by
  constructor
  · exact h'.currVol.trans h.currVol
  · intro change hmem
    rcases h'.changes change hmem with hmem | hconfined
    · exact h.changes change hmem
    · grind [h.currVol]
  · intro loc hout
    rcases h.outside loc hout with hsame | ⟨hnone, hdir, habove⟩
    · rcases h'.outside loc hout with hsame' | ⟨hnone', hdir', habove'⟩ <;> grind
    · rcases h'.outside loc hout with hsame' | ⟨hnone', -, -⟩
      · exact .inr ⟨hnone, (isDir_congr hsame').trans hdir, habove⟩
      · exact absurd hnone' (FileTree.get_of_isDir hdir)

theorem Stays.isDir (h : Stays dest fs fs') (hout : ¬ dest <+: loc) (hdir : fs.tree.isDir loc = true) :
    fs'.tree.isDir loc = true := by
  rcases h.outside loc hout with hsame | ⟨hnone, -, -⟩
  · exact (isDir_congr hsame).trans hdir
  · exact absurd hnone (FileTree.get_of_isDir hdir)

theorem changes_record {access : Access} (hrun : SameRun (fs.record access path) fs')
    (h : Change.Confined nm fs.currVol dest ⟨access, path⟩) :
    ∀ change ∈ fs'.changes, change ∈ fs.changes ∨ change.Confined nm fs.currVol dest := by
  intro change hmem
  rw [hrun.changes] at hmem
  rcases mem_cons.mp hmem with rfl | hmem
  · exact .inr h
  · grind

section

variable (hdenote : denote nm fs.currVol path = some loc)

include hdenote

theorem stays_mkdir (hloc : dest <+: loc ∨ loc <+: dest) : Stays dest fs (f_mkdir path fs).2 := by
  have hconfined : Change.Confined nm fs.currVol dest ⟨.mkdir, path⟩ :=
    ⟨loc, hdenote, hloc.imp_right fun h => ⟨rfl, h⟩⟩
  obtain ⟨hrun, ⟨-, htree⟩ | ⟨l, name, hfollow, -, htree⟩⟩ := f_mkdir_cases path fs
  · exact ⟨hrun.currVol, changes_record hrun hconfined, fun _ _ => .inl (by rw [htree])⟩
  · refine ⟨hrun.currVol, changes_record hrun hconfined, ?_⟩
    have hmatch := follow_matches hfollow
    have hl : l ++ [.name name.key] = loc := by
      have hsame := (follow_denote hfollow).symm.trans hdenote
      exact some.inj hsame
    intro m hout
    by_cases hm : m = l ++ [.name name.key]
    · subst hm
      have hself := FileTree.get_add_self (n := .dir (name.label l)) (.inr hmatch.1) hmatch.2
      refine .inr ⟨hmatch.2, ?_, ?_⟩
      · rw [FileTree.isDir, htree, hself]
        rfl
      · grind
    · exact .inl (by rw [htree, FileTree.get_add_ne hm])

theorem stays_openWrite (hloc : dest <+: loc) : Stays dest fs (f_openWrite path fs).2 ∧
      ∀ file, (f_openWrite path fs).1 = .ok file → dest <+: file := by
  have hconfined : Change.Confined nm fs.currVol dest ⟨.openWrite, path⟩ := ⟨loc, hdenote, .inl hloc⟩
  obtain ⟨hrun, ⟨⟨res, hres⟩, htree⟩ | ⟨l, name, hfollow, hok, htree⟩ | ⟨l, hfollow, -, hok, htree⟩⟩ :=
    f_openWrite_cases path fs
  · refine ⟨⟨hrun.currVol, changes_record hrun hconfined, fun _ _ => .inl (by rw [htree])⟩, ?_⟩
    intro file hfile
    rw [hres] at hfile
    cases hfile
  · have hl : l ++ [.name name.key] = loc :=
      some.inj ((follow_denote hfollow).symm.trans hdenote)
    refine ⟨⟨hrun.currVol, changes_record hrun hconfined, ?_⟩, ?_⟩
    · intro m hout
      have hm : m ≠ l ++ [.name name.key] := by grind
      exact .inl (by rw [htree, FileTree.get_add_ne hm])
    · grind
  · have hl : l = loc := some.inj ((follow_denote hfollow).symm.trans hdenote)
    subst hl
    refine ⟨⟨hrun.currVol, changes_record hrun hconfined, ?_⟩, ?_⟩
    · intro m hout
      have hm : m ≠ l := by grind
      exact .inl (by rw [htree, FileTree.get_rewrite_ne hm])
    · grind

theorem stays_unlink (hloc : dest <+: loc) : Stays dest fs (f_unlink path fs).2 := by
  have hconfined : Change.Confined nm fs.currVol dest ⟨.unlink, path⟩ := ⟨loc, hdenote, .inl hloc⟩
  obtain ⟨hrun, ⟨-, htree⟩ | ⟨l, hfollow, -, -, htree⟩⟩ := f_unlink_cases path fs
  · exact ⟨hrun.currVol, changes_record hrun hconfined, fun _ _ => .inl (by rw [htree])⟩
  · have hl : l = loc := some.inj ((follow_denote hfollow).symm.trans hdenote)
    subst hl
    refine ⟨hrun.currVol, changes_record hrun hconfined, ?_⟩
    intro m hout
    have hm : m ≠ l := by grind
    exact .inl (by rw [htree, FileTree.get_remove_ne hm])

end

theorem stays_write {file : Loc N} (hfile : dest <+: file) (data : Bytes) (fs : Fs nm) :
    Stays dest fs (f_write file data fs).2 := by
  obtain ⟨hrun, ⟨-, htree⟩ | ⟨bytes, -, -, htree⟩⟩ := f_write_cases file data fs
  · exact .of_sameTree ⟨hrun, htree⟩
  · refine ⟨hrun.currVol, fun _ hmem => .inl (hrun.changes ▸ hmem), ?_⟩
    intro m hout
    have hm : m ≠ file := by grind
    exact .inl (by rw [htree, FileTree.get_rewrite_ne hm])

end

variable {N : Type} [DecidableEq N] {nm : Naming N} {currVol : ℕ} {dest : Loc N}

omit [DecidableEq N] in
def Below (nm : Naming N) (currVol : ℕ) (dest : Loc N) (path : Path) : Prop :=
  ∃ rest loc, path = '/' :: rest ∧ denote nm currVol path = some loc ∧ dest <+: loc

omit [DecidableEq N] in
theorem Below.child {path name : Path} (h : Below nm currVol dest path) (hname : Proper name)
    (hsome : nm.name name ≠ none) : Below nm currVol dest (joinPath path name) := by
  obtain ⟨rest, loc, rfl, hdenote, hloc⟩ := h
  obtain ⟨below, hbelow⟩ := denote_child hname hsome hdenote
  exact ⟨rest ++ '/' :: name, loc ++ below, rfl, hbelow, hloc.trans (prefix_append _ _)⟩

theorem find_slash (rest : Path) : find ['/'] ('/' :: rest) = some 0 := by
  rw [find, if_pos]
  rfl

theorem normalizePath_rooted (rest : Path) : ∃ more, normalizePath ('/' :: rest) = '/' :: more := by
  rw [normalizePath]
  split
  · simp
  · exact ⟨collapse true rest, rfl⟩

/-- Paths that may wait to be looked at, and paths behind which something may have been found. -/
structure PathClass (nm : Naming N) (currVol : ℕ) where
  pending : Path → Prop
  met : Path → Prop
  meets : ∀ {path loc}, pending path → denote nm currVol path = some loc → met path
  child : ∀ {path name}, met path → Proper name → nm.name name ≠ none → met (joinPath path name)

namespace RecursiveFsIterator

structure Carries {currVol : ℕ} (C : PathClass nm currVol) (it : RecursiveFsIterator N) : Prop where
  pathPrefix : it.pathPrefix = ['/']
  files : ∀ path ∈ it.files, C.pending path
  directories : ∀ path ∈ it.directories, C.met path
  scanned : it.scanning = true → it.directoryIndex < it.directories.length ∧ it.dir.loc ≠ []

variable {it it' : RecursiveFsIterator N} {fs fs' : Fs nm} {C : PathClass nm currVol}

omit [DecidableEq N] in
theorem denote_amputatePrefix {rest : Path} {loc : Loc N} (hslash : it.pathPrefix = ['/'])
    (hdenote : denote nm currVol ('/' :: rest) = some loc) :
    denote nm currVol (it.amputatePrefix ('/' :: rest)) = some loc := by
  obtain ⟨more, hmore⟩ := normalizePath_rooted rest
  rw [amputatePrefix, hslash, hmore, find_slash]
  simp only [Nat.zero_add]
  split
  · exact hdenote
  · have hcolon : ':' ∉ visible rest := fun hmem =>
      no_colon_of_denote hdenote (mem_cons_of_mem _ hmem)
    have hdrop : ('/' :: rest).drop ['/'].length = rest := rfl
    rw [hdrop, denote_normalizePath hcolon]
    rwa [denote_slash hcolon] at hdenote

omit [DecidableEq N] in
theorem Carries.directory (h : it.Carries C) (hlt : it.directoryIndex < it.directories.length) :
    C.met it.directory := by
  refine h.directories it.directory ?_
  have hget : it.directory = it.directories[it.directoryIndex] := by
    grind [RecursiveFsIterator.directory]
  rw [hget]
  exact getElem_mem hlt

omit [DecidableEq N] in
theorem Carries.yieldEntry (h : it.Carries C) (path : Path) : (it.yieldEntry path).Carries C :=
  ⟨h.pathPrefix, h.files, h.directories, h.scanned⟩

omit [DecidableEq N] in
theorem Carries.fail (h : it.Carries C) (path : Path) : (it.fail path).Carries C :=
  ⟨h.pathPrefix, h.files, h.directories, h.scanned⟩

omit [DecidableEq N] in
theorem Carries.pushDirectory (h : it.Carries C) {path : Path} (hpath : C.met path) :
    Carries C { it with directories := it.directories ++ [path] } := by
  refine ⟨h.pathPrefix, h.files, ?_, ?_⟩
  · intro p hp
    rcases mem_append.mp hp with hp | hp
    · exact h.directories p hp
    · grind
  · intro hscan
    have hlt := h.scanned hscan
    exact ⟨hlt.1.trans_le (prefix_append _ _).length_le, hlt.2⟩

def RoundKeeps (C : PathClass nm currVol) (fs : Fs nm) (result : Bool × RecursiveFsIterator N × Fs nm) :
    Prop :=
  SameTree fs result.2.2 ∧ result.2.1.Carries C ∧
    (result.1 = false → result.2.1.state ≠ .done → result.2.1.state ≠ .error →
      ∃ path, C.met path ∧ result.2.1.currentEntry = result.2.1.amputatePrefix path)

section

variable (h : it.Carries C)

include h

theorem Carries.popFile (hvol : fs.currVol = currVol) {path : Path}
    (hlast : it.files.getLast? = some path) :
    RoundKeeps C fs (it.popFile (fun _ => false) path fs) := by
  have hpending := h.files path (mem_of_getLast? hlast)
  have hdrop : Carries C { it with files := it.files.dropLast } :=
    ⟨h.pathPrefix, fun p hp => h.files p (dropLast_subset _ hp), h.directories, h.scanned⟩
  have hsame := f_stat_sameTree path fs
  have hok := f_stat_ok path fs
  rw [RecursiveFsIterator.popFile]
  cases hstat : f_stat path fs with
  | mk res fs₁ =>
    rw [hstat] at hsame hok
    cases res with
    | error res =>
      have hfail : RoundKeeps C fs (false, { it with files := it.files.dropLast }.fail path, fs₁) :=
        ⟨hsame, hdrop.fail path, fun _ _ h => absurd rfl h⟩
      cases res with
      | noFile => exact ⟨hsame, hdrop, nofun⟩
      | _ => exact hfail
    | ok info =>
      obtain ⟨loc, hdenote, -, -⟩ := hok info rfl
      have hmet := C.meets hpending (hvol ▸ hdenote)
      have hinfo : Carries C { it with files := it.files.dropLast, filinfo := info } :=
        ⟨hdrop.pathPrefix, hdrop.files, hdrop.directories, hdrop.scanned⟩
      simp only
      split
      · exact ⟨hsame, hinfo.pushDirectory hmet, nofun⟩
      · exact ⟨hsame, hinfo.yieldEntry path, fun _ _ _ => ⟨path, hmet, rfl⟩⟩

theorem Carries.scanEntry (hscan : it.scanning = true) : RoundKeeps C fs (it.scanEntry fs) := by
  obtain ⟨hlt, hloc⟩ := h.scanned hscan
  have hdirectory := h.directory hlt
  have hsame := f_readdir_sameTree it.dir fs
  have hproper := fun info dir => f_readdir_proper it.dir fs info dir hloc
  have hkeep := f_readdir_ok it.dir fs
  rw [RecursiveFsIterator.scanEntry]
  cases hread : f_readdir it.dir fs with
  | mk res fs₁ =>
    rw [hread] at hsame hproper hkeep
    cases res with
    | error res => exact ⟨hsame, h.fail _, fun _ _ h => absurd rfl h⟩
    | ok entry =>
      obtain ⟨info, dir⟩ := entry
      obtain ⟨hdir, -⟩ := hkeep info dir rfl
      have hinfo : Carries C { it with filinfo := info, dir := dir } :=
        ⟨h.pathPrefix, h.files, h.directories, fun _ => ⟨hlt, by rw [hdir]; exact hloc⟩⟩
      simp only
      split
      · exact ⟨hsame, ⟨h.pathPrefix, h.files, h.directories, nofun⟩, nofun⟩
      · rename_i hname
        obtain ⟨hname, hsome⟩ := hproper info dir rfl hname
        have hmet := C.child hdirectory hname hsome
        split
        · exact ⟨hsame, hinfo.pushDirectory hmet, nofun⟩
        · exact ⟨hsame, hinfo.yieldEntry _, fun _ _ _ => ⟨_, hmet, rfl⟩⟩

theorem Carries.openDir (hlt : it.directoryIndex < it.directories.length) :
    RoundKeeps C fs (it.openDir fs) := by
  have hsame := f_opendir_sameTree it.directory fs
  have hloc := f_opendir_loc it.directory fs
  rw [RecursiveFsIterator.openDir]
  cases hopen : f_opendir it.directory fs with
  | mk res fs₁ =>
    rw [hopen] at hsame hloc
    cases res with
    | error res =>
      exact ⟨hsame, ⟨h.pathPrefix, h.files, h.directories, nofun⟩, fun _ _ h => absurd rfl h⟩
    | ok dir =>
      exact ⟨hsame, ⟨h.pathPrefix, h.files, h.directories, fun _ => ⟨hlt, hloc dir rfl⟩⟩, nofun⟩

theorem Carries.popDirectory (hscan : ¬ it.scanning = true) :
    RoundKeeps C fs (false, it.popDirectory, fs) := by
  rw [RecursiveFsIterator.popDirectory]
  cases hlast : it.directories.getLast? with
  | none =>
    exact ⟨⟨⟨rfl, rfl, rfl⟩, rfl⟩, ⟨h.pathPrefix, h.files, h.directories, h.scanned⟩,
      fun _ h => absurd rfl h⟩
  | some path =>
    refine ⟨⟨⟨rfl, rfl, rfl⟩, rfl⟩, ⟨h.pathPrefix, h.files, ?_, ?_⟩, ?_⟩
    · exact fun p hp => h.directories p (dropLast_subset _ hp)
    · exact fun hscan' => absurd hscan' hscan
    · exact fun _ _ _ => ⟨path, h.directories path (mem_of_getLast? hlast), rfl⟩

theorem Carries.round (hvol : fs.currVol = currVol) :
    RoundKeeps C fs (it.round (fun _ => false) fs) := by
  rw [RecursiveFsIterator.round]
  cases hlast : it.files.getLast? with
  | some path => exact h.popFile hvol hlast
  | none =>
    simp only
    by_cases hscan : it.scanning = true
    · rw [if_pos hscan]
      exact h.scanEntry hscan
    · rw [if_neg hscan]
      by_cases hclean : it.cleanup = true
      · rw [if_pos hclean]
        exact h.popDirectory hscan
      · rw [if_neg hclean]
        by_cases hend : it.directoryIndex ≥ it.directories.length
        · rw [if_pos hend]
          exact ⟨⟨⟨rfl, rfl, rfl⟩, rfl⟩, ⟨h.pathPrefix, h.files, h.directories, h.scanned⟩, nofun⟩
        · rw [if_neg hend]
          exact h.openDir (not_le.mp hend)

theorem Carries.loop {rounds : ℕ} (hvol : fs.currVol = currVol)
    (hloop : loop (fun _ => false) rounds it fs = some (it', fs')) :
    RoundKeeps C fs (false, it', fs') := by
  induction rounds generalizing it fs with
  | zero => exact absurd hloop (by simp [RecursiveFsIterator.loop])
  | succ rounds ih =>
    have hround := h.round hvol
    rw [RecursiveFsIterator.loop] at hloop
    cases hresult : it.round (fun _ => false) fs with
    | mk go rest =>
      obtain ⟨it₁, fs₁⟩ := rest
      rw [hresult] at hround hloop
      cases go with
      | false => grind
      | true =>
        obtain ⟨hsame, hcarries, -⟩ := hround
        obtain ⟨hsame', hkeep', hyield⟩ := ih hcarries (hsame.currVol.trans hvol) hloop
        exact ⟨hsame.trans hsame', hkeep', hyield⟩

theorem Carries.next {rounds : ℕ} (hvol : fs.currVol = currVol)
    (hmore : it.state = .initial ∨ it.state = .valid)
    (hnext : next (fun _ => false) rounds it fs = some (it', fs')) :
    RoundKeeps C fs (false, it', fs') := by
  rw [RecursiveFsIterator.next] at hnext
  have hstart : ∀ start : RecursiveFsIterator N,
      start = (if it.state = .initial then { it with state := .valid } else it) →
      start.state = .valid ∧ start.Carries C := by
    rintro start rfl
    rcases hmore with hinitial | hvalid
    · rw [if_pos hinitial]
      exact ⟨rfl, h.pathPrefix, h.files, h.directories, h.scanned⟩
    · grind
  obtain ⟨hvalid, hcarries⟩ := hstart _ rfl
  rw [if_neg (not_not.mpr hvalid)] at hnext
  exact hcarries.loop hvol hnext

end

/-- Everything the iterator may still yield is below a place. -/
structure Sweeps (nm : Naming N) (currVol : ℕ) (dest : Loc N) (it : RecursiveFsIterator N) : Prop where
  pathPrefix : it.pathPrefix = ['/']
  files : ∀ path ∈ it.files, ∃ rest, path = '/' :: rest ∧
    ∀ loc, denote nm currVol path = some loc → dest <+: loc
  directories : ∀ path ∈ it.directories, Below nm currVol dest path
  scanned : it.scanning = true → it.directoryIndex < it.directories.length ∧ it.dir.loc ≠ []

omit [DecidableEq N] in
def belowClass (nm : Naming N) (currVol : ℕ) (dest : Loc N) : PathClass nm currVol where
  pending path := ∃ rest, path = '/' :: rest ∧ ∀ loc, denote nm currVol path = some loc → dest <+: loc
  met := Below nm currVol dest
  meets h hdenote := by
    obtain ⟨rest, hrooted, hloc⟩ := h
    exact ⟨rest, _, hrooted, hdenote, hloc _ hdenote⟩
  child h := h.child

omit [DecidableEq N] in
theorem sweeps_iff : Sweeps nm currVol dest it ↔ it.Carries (belowClass nm currVol dest) :=
  ⟨fun h => ⟨h.pathPrefix, h.files, h.directories, h.scanned⟩,
    fun h => ⟨h.pathPrefix, h.files, h.directories, h.scanned⟩⟩

theorem Sweeps.next {rounds : ℕ} (h : Sweeps nm fs.currVol dest it)
    (hmore : it.state = .initial ∨ it.state = .valid)
    (hnext : next (fun _ => false) rounds it fs = some (it', fs')) :
    SameTree fs fs' ∧ Sweeps nm fs.currVol dest it' ∧ (it'.state ≠ .done → it'.state ≠ .error →
      ∃ loc, denote nm fs.currVol it'.currentEntry = some loc ∧ dest <+: loc) := by
  obtain ⟨hsame, hcarries, hyields⟩ := (sweeps_iff.mp h).next rfl hmore hnext
  refine ⟨hsame, sweeps_iff.mpr hcarries, fun hdone herror => ?_⟩
  obtain ⟨path, ⟨rest, loc, rfl, hdenote, hloc⟩, heq⟩ := hyields rfl hdone herror
  refine ⟨loc, ?_, hloc⟩
  simp only at heq
  rw [heq]
  exact denote_amputatePrefix hcarries.pathPrefix hdenote

end RecursiveFsIterator

namespace DeleteRecursiveContext

open RecursiveFsIterator

variable {d d' : DeleteRecursiveContext N} {fs fs' : Fs nm}

omit [DecidableEq N] in
theorem more_iff : d.more = true ↔
    d.failed = false ∧ (d.iterator.state = .initial ∨ d.iterator.state = .valid) := by
  rw [more, Bool.and_eq_true, Bool.not_eq_true', decide_eq_true_eq]

/-- What a deletion that started below a place leaves behind. -/
def StepKeeps (dest : Loc N) (fs : Fs nm) (result : DeleteRecursiveContext N × Fs nm) : Prop :=
  Stays dest fs result.2 ∧ Sweeps nm fs.currVol dest result.1.iterator

theorem executeStep_keeps {rounds : ℕ} (h : Sweeps nm fs.currVol dest d.iterator)
    (hmore : d.more = true) (hstep : d.executeStep rounds fs = some (d', fs')) :
    StepKeeps dest fs (d', fs') := by
  obtain ⟨-, hstate⟩ := more_iff.mp hmore
  rw [executeStep] at hstep
  cases hnext : d.iterator.next (fun _ => false) rounds fs with
  | none => grind
  | some yielded =>
    obtain ⟨it, fs₁⟩ := yielded
    obtain ⟨hsame, hsweeps, hyield⟩ := h.next hstate hnext
    have hstays : Stays dest fs fs₁ := .of_sameTree hsame
    rw [hnext] at hstep
    simp only [bind_eq_bind, bind_some] at hstep
    by_cases hgo : ({ d with iterator := it } : DeleteRecursiveContext N).more = true
    · rw [hgo] at hstep
      obtain ⟨-, hstate'⟩ := more_iff.mp hgo
      obtain ⟨loc, hdenote, hloc⟩ := hyield
        (by rcases hstate' with h | h <;> rw [h] <;> decide)
        (by rcases hstate' with h | h <;> rw [h] <;> decide)
      have hunlink := hstays.trans (stays_unlink (by rw [hsame.currVol]; exact hdenote) hloc)
      cases hcall : f_unlink it.currentEntry fs₁ with
      | mk res fs₂ =>
        rw [hcall] at hstep hunlink
        cases res <;>
        · cases hstep
          exact ⟨hunlink, hsweeps⟩
    · rw [Bool.not_eq_true] at hgo
      rw [hgo] at hstep
      cases hstep
      exact ⟨hstays, hsweeps⟩

theorem executeSteps_keeps {rounds steps : ℕ} (h : Sweeps nm fs.currVol dest d.iterator)
    (hsteps : executeSteps rounds steps d fs = some (d', fs')) : StepKeeps dest fs (d', fs') := by
  induction steps generalizing d fs with
  | zero =>
    obtain ⟨rfl, rfl⟩ := Prod.mk.inj (some.inj hsteps)
    exact ⟨.refl fs, h⟩
  | succ steps ih =>
    rw [executeSteps] at hsteps
    by_cases hmore : d.more = true
    · rw [if_pos hmore] at hsteps
      cases hstep : d.executeStep rounds fs with
      | none => grind
      | some done =>
        obtain ⟨d₁, fs₁⟩ := done
        obtain ⟨hstays, hsweeps⟩ := executeStep_keeps h hmore hstep
        rw [hstep] at hsteps
        have hvol : fs₁.currVol = fs.currVol := hstays.currVol
        obtain ⟨hstays', hsweeps'⟩ := ih (by rw [hvol]; exact hsweeps) hsteps
        rw [hvol] at hsweeps'
        exact ⟨hstays.trans hstays', hsweeps'⟩
    · rw [if_neg hmore] at hsteps
      obtain ⟨rfl, rfl⟩ := Prod.mk.inj (some.inj hsteps)
      exact ⟨.refl fs, h⟩

omit [DecidableEq N] in
theorem sweeps_addFile {currVol : ℕ} {path : Path} {loc : Loc N}
    (hdenote : denote nm currVol path = some loc) (hloc : dest <+: loc) :
    Sweeps nm currVol dest (create.addFile path).iterator := by
  refine ⟨rfl, ?_, nofun, nofun⟩
  intro p hp
  have hpath : p = normalizePath ('/' :: '/' :: path) := mem_singleton.mp hp
  obtain ⟨rest, hrest⟩ := normalizePath_rooted ('/' :: path)
  refine ⟨rest, hpath.trans hrest, ?_⟩
  rw [hpath]
  intro loc' h'
  have hsame : some loc' = some loc := (denote_rooted h').symm.trans hdenote
  rwa [some.inj hsame]

end DeleteRecursiveContext

end Cloudpilot.Vfs
