import Cloudpilot.Vfs.PasteContext
import Cloudpilot.Vfs.UndisturbedDeletion

/-! # Overwriting a directory

A copy that meets a directory in its way can be told to delete it and to put the entry in its
place. The path of the directory reaches the deletion behind a slash, so this works for paths
without a drive only, and only if the path does not run through what is deleted.
-/
namespace Cloudpilot.Vfs

open Library List Option

variable {N : Type} [DecidableEq N] {nm : Naming N} {fs fs' : Fs nm} {path p : Path} {loc : Loc N}

theorem follow_same (hvol : fs'.currVol = fs.currVol) (htree : fs'.tree = fs.tree) (p : Path) :
    fs'.follow p = fs.follow p := by
  rw [Fs.follow, Fs.follow, hvol, htree]

theorem stat_of_f_stat (path : Path) (fs : Fs nm) (info : FilInfo) (h : (f_stat path fs).1 = .ok info) :
    (f_stat path fs).2.stat path = .ok info := by
  have hsame := f_stat_sameTree path fs
  obtain heq | ⟨res, hres, -⟩ := f_stat_cases path fs
  · rw [Fs.stat, follow_same hsame.currVol hsame.tree, hsame.tree, ← Fs.stat, ← heq, h]
  · grind

namespace GenericCopyContext

variable {ι : Type} {src : CopySource nm ι} {c c' : GenericCopyContext N ι} {destination : Path}

def call (src : CopySource nm ι) (rounds : ℕ) (c : GenericCopyContext N ι) (fs : Fs nm) :
    CopyCall → Option (GenericCopyContext N ι × Fs nm)
  | .proceed slices => c.continueSlices src rounds slices fs
  | .overwrite slices => c.continueWithOverwrite src rounds slices fs

/-- Calls from outside, one after the other. -/
def run (src : CopySource nm ι) (rounds : ℕ) (c : GenericCopyContext N ι) (fs : Fs nm) :
    List CopyCall → Option (GenericCopyContext N ι × Fs nm)
  | [] => some (c, fs)
  | action :: calls => (c.call src rounds fs action).bind fun (c, fs) => run src rounds c fs calls

/-- A context that found a directory where its entry is to go. -/
structure Collided (src : CopySource nm ι) (dest : Path) (c : GenericCopyContext N ι)
    (fs : Fs nm) : Prop where
  destination : c.destination = dest
  iterator : src.getState c.iterator = .valid
  currentEntry : c.currentEntry = src.getCurrentEntry c.iterator
  currentPath : c.currentPath = normalizePath (joinPath dest (src.getCurrentEntry c.iterator))
  collisionPath : c.collisionPath = c.currentPath
  notSkipped : src.skipCurrentEntry c.currentPath c.iterator = false
  notDirectory : src.isDirectory c.iterator = false
  visited : ∀ q ∈ directoriesOn (dirname c.currentPath), c.visitedDirectories q = some true
  deletion : c.deleteRecursiveContext = none
  directory : ∃ info, fs.stat c.currentPath = .ok info ∧ info.isDir = true

/-- What `MkdirRecursive` leaves as it was, and what it knows when it succeeds. -/
structure MakesWay (qs : List Path) (c c' : GenericCopyContext N ι) : Prop where
  iterator : c'.iterator = c.iterator
  destination : c'.destination = c.destination
  currentEntry : c'.currentEntry = c.currentEntry
  currentPath : c'.currentPath = c.currentPath
  deletion : c'.deleteRecursiveContext = c.deleteRecursiveContext
  state : c.state ≠ .collisionWithDirectory → c'.state ≠ .collisionWithDirectory
  kept : c'.state = .more → ∀ q, c.visitedDirectories q = some true → c'.visitedDirectories q = some true
  visited : c'.state = .more → ∀ q ∈ qs, c'.visitedDirectories q = some true

omit [DecidableEq N] in
theorem MakesWay.stop {qs : List Path} {c' : GenericCopyContext N ι} (hiterator : c'.iterator = c.iterator)
    (hdestination : c'.destination = c.destination) (hentry : c'.currentEntry = c.currentEntry)
    (hpath : c'.currentPath = c.currentPath)
    (hdeletion : c'.deleteRecursiveContext = c.deleteRecursiveContext)
    (hstate : c'.state ≠ .collisionWithDirectory) (hmore : c'.state ≠ .more) : MakesWay qs c c' :=
  ⟨hiterator, hdestination, hentry, hpath, hdeletion, fun _ => hstate, fun h => absurd h hmore,
    fun h => absurd h hmore⟩

omit [DecidableEq N] in
theorem MakesWay.visit {qs : List Path} {next : Path} (h : MakesWay qs (c.visit next true) c') :
    MakesWay (next :: qs) c c' := by
  have hnext : (c.visit next true).visitedDirectories next = some true := Function.update_self ..
  refine ⟨h.iterator, h.destination, h.currentEntry, h.currentPath, h.deletion, h.state, ?_, ?_⟩
  · intro hmore q hq
    refine h.kept hmore q ?_
    by_cases heq : q = next
    · grind
    · exact (Function.update_of_ne heq _ _).trans hq
  · intro hmore q hq
    rcases mem_cons.mp hq with rfl | hq
    · exact h.kept hmore q hnext
    · exact h.visited hmore q hq

theorem mkdirLoop_makesWay (qs : List Path) (c : GenericCopyContext N ι) (fs : Fs nm) :
    MakesWay qs c (mkdirLoop qs c fs).1 := by
  induction qs generalizing c fs with
  | nil => exact ⟨rfl, rfl, rfl, rfl, rfl, id, fun _ _ hq => hq, nofun⟩
  | cons next rest ih =>
    have hvisit := fun fs => (ih (c.visit next true) fs).visit
    rw [mkdirLoop]
    cases hvisited : c.visitedDirectories next with
    | some usable =>
      cases usable with
      | true =>
        have h := ih c fs
        refine ⟨h.iterator, h.destination, h.currentEntry, h.currentPath, h.deletion, h.state, h.kept, ?_⟩
        intro hmore q hq
        rcases mem_cons.mp hq with rfl | hq
        · exact h.kept hmore q hvisited
        · exact h.visited hmore q hq
      | false => exact .stop rfl rfl rfl rfl rfl (by simp) (by simp)
    | none =>
      cases f_stat next fs with
      | mk res fs₁ =>
        cases res with
        | ok info =>
          simp only
          by_cases hdir : info.isDir = true
          · grind
          · rw [if_neg hdir]
            exact .stop rfl rfl rfl rfl rfl (by simp) (by simp)
        | error res =>
          cases res with
          | noFile =>
            simp only
            cases f_mkdir next fs₁ with
            | mk res fs₂ =>
              cases res with
              | ok done => exact hvisit fs₂
              | error res =>
                cases res <;> exact .stop rfl rfl rfl rfl rfl (by simp [visit]) (by simp [visit])
          | _ => exact .stop rfl rfl rfl rfl rfl (by simp [visit]) (by simp [visit])

theorem mkdirRecursive_makesWay (path : Path) (c : GenericCopyContext N ι) (fs : Fs nm) :
    MakesWay (directoriesOn path) c (mkdirRecursive path c fs).1 ∧
      (mkdirRecursive path c fs).1.state ≠ .collisionWithDirectory := by
  rw [mkdirRecursive]
  split
  · have h := mkdirLoop_makesWay (directoriesOn path) { c with state := .more } fs
    have hstate := h.state (by simp)
    exact ⟨⟨h.iterator, h.destination, h.currentEntry, h.currentPath, h.deletion, fun _ => hstate,
      h.kept, h.visited⟩, hstate⟩
  · exact ⟨.stop rfl rfl rfl rfl rfl (by simp) (by simp), by simp⟩

theorem afterCopy_frame (src : CopySource nm ι) (c : GenericCopyContext N ι) (fs : Fs nm) :
    (afterCopy src c fs).1.destination = c.destination ∧ (afterCopy src c fs).1.state = c.state ∧
      (c.state ≠ .more → afterCopy src c fs = (c, fs)) := by
  rw [afterCopy]
  split
  · grind
  · simp

theorem closeFile_context (c : GenericCopyContext N ι) (fs : Fs nm) : (closeFile c fs).1 = c := by
  rw [closeFile]
  split <;> rfl

theorem extractedState_ne_collisionWithDirectory (it : IteratorState) (status : ExtractStatus) :
    extractedState it status ≠ .collisionWithDirectory := by
  unfold extractedState
  split
  · decide
  · grind

theorem copyCurrentEntry_collides (src : CopySource nm ι) (c : GenericCopyContext N ι) (fs : Fs nm) :
    (copyCurrentEntry src c fs).1.destination = c.destination ∧
      ((copyCurrentEntry src c fs).1.state = .collisionWithDirectory →
        (copyCurrentEntry src c fs).1 =
          { c with state := .collisionWithDirectory, collisionPath := c.currentPath } ∧
        ∃ info, (copyCurrentEntry src c fs).2.stat c.currentPath = .ok info ∧ info.isDir = true) := by
  have hstat := stat_of_f_stat c.currentPath fs
  rw [copyCurrentEntry]
  cases hcall : f_stat c.currentPath fs with
  | mk res fs₁ =>
    cases res with
    | ok info => grind
    | error res =>
      cases res with
      | noFile =>
        simp only
        cases f_openWrite c.currentPath fs₁ with
        | mk res fs₂ =>
          cases res with
          | error res => cases res <;> exact ⟨rfl, fun h => absurd h (by simp)⟩
          | ok file =>
            rw [closeFile_context]
            exact ⟨rfl, fun h => absurd h (extractedState_ne_collisionWithDirectory _ _)⟩
      | _ => exact ⟨rfl, fun h => absurd h (by simp)⟩

theorem copyEntry_collides (src : CopySource nm ι) (c : GenericCopyContext N ι) (fs : Fs nm)
    (hstate : c.state ≠ .collisionWithDirectory) (hdeletion : c.deleteRecursiveContext = none)
    (hvalid : src.getState c.iterator = .valid) :
    (copyEntry src (selectEntry src c) fs).1.destination = c.destination ∧
      ((copyEntry src (selectEntry src c) fs).1.state = .collisionWithDirectory →
        Collided src c.destination (copyEntry src (selectEntry src c) fs).1
          (copyEntry src (selectEntry src c) fs).2) := by
  have hselected : (selectEntry src c).state ≠ .collisionWithDirectory := hstate
  rw [copyEntry]
  by_cases hskip : src.skipCurrentEntry (selectEntry src c).currentPath (selectEntry src c).iterator = true
  · rw [if_pos hskip]
    exact ⟨rfl, fun h => absurd h hselected⟩
  · rw [if_neg hskip]
    by_cases hdir : src.isDirectory (selectEntry src c).iterator = true
    · rw [if_pos hdir]
      obtain ⟨hway, hne⟩ := mkdirRecursive_makesWay (selectEntry src c).currentPath (selectEntry src c) fs
      cases hmkdir : mkdirRecursive (selectEntry src c).currentPath (selectEntry src c) fs with
      | mk c₁ fs₁ =>
        rw [hmkdir] at hway hne
        obtain ⟨hdestination, hsame, -⟩ := afterCopy_frame src c₁ fs₁
        exact ⟨hdestination.trans hway.destination, fun h => absurd (hsame.symm.trans h) hne⟩
    · rw [if_neg hdir]
      obtain ⟨hway, hne⟩ :=
        mkdirRecursive_makesWay (dirname (selectEntry src c).currentPath) (selectEntry src c) fs
      cases hmkdir : mkdirRecursive (dirname (selectEntry src c).currentPath) (selectEntry src c) fs with
      | mk c₁ fs₁ =>
        rw [hmkdir] at hway hne
        simp only
        by_cases hmore : c₁.state = .more
        · rw [if_neg (not_not.mpr hmore)]
          obtain ⟨hkeeps, hcollides⟩ := copyCurrentEntry_collides src c₁ fs₁
          cases hcopy : copyCurrentEntry src c₁ fs₁ with
          | mk c₂ fs₂ =>
            rw [hcopy] at hkeeps hcollides
            obtain ⟨hdestination, hsame, hquiet⟩ := afterCopy_frame src c₂ fs₂
            refine ⟨hdestination.trans (hkeeps.trans hway.destination), fun h => ?_⟩
            rw [hsame] at h
            obtain ⟨rfl, hdirectory⟩ := hcollides h
            have hiterator : c₁.iterator = c.iterator := hway.iterator
            have hpath : c₁.currentPath = (selectEntry src c).currentPath := hway.currentPath
            exact
              { destination := hway.destination
                iterator := (congrArg src.getState hiterator).trans hvalid
                currentEntry := hway.currentEntry.trans (congrArg src.getCurrentEntry hiterator.symm)
                currentPath := hpath.trans (congrArg
                  (fun it => normalizePath (joinPath c.destination (src.getCurrentEntry it)))
                  hiterator.symm)
                collisionPath := rfl
                notSkipped := (congrArg₂ src.skipCurrentEntry hpath hiterator).trans
                  (Bool.eq_false_iff.mpr hskip)
                notDirectory := (congrArg src.isDirectory hiterator).trans (Bool.eq_false_iff.mpr hdir)
                visited := fun q hq => hway.visited hmore q (hpath ▸ hq)
                deletion := hway.deletion.trans hdeletion
                directory := hdirectory }
        · rw [if_pos hmore]
          exact ⟨hway.destination, fun h => absurd h hne⟩

/-- A context keeps its destination, and a slice that ends at a directory has found it there. -/
def Collides (src : CopySource nm ι) (c c' : GenericCopyContext N ι) (fs' : Fs nm) : Prop :=
  c'.destination = c.destination ∧
    (c'.state = .collisionWithDirectory → Collided src c.destination c' fs')

theorem advance_frame (h : advance src c fs = some (c', fs')) :
    c'.destination = c.destination ∧ c'.state = c.state := by
  obtain ⟨⟨it, fs₁⟩, -, heq⟩ := map_eq_some_iff.mp h
  cases heq
  exact ⟨rfl, rfl⟩

variable {rounds : ℕ}

theorem executeSlice_collides {batches : ℕ} (hstate : c.state ≠ .collisionWithDirectory)
    (h : executeSlice src rounds c fs batches = some (c', fs')) : Collides src c c' fs' := by
  rw [executeSlice] at h
  by_cases hmore : c.state ≠ .more
  · rw [if_pos hmore] at h
    cases h
    exact ⟨rfl, fun hcollision => absurd hcollision hstate⟩
  · rw [if_neg hmore] at h
    cases hdeletion : c.deleteRecursiveContext with
    | some d =>
      rw [hdeletion] at h
      obtain ⟨⟨d', fs₁⟩, -, heq⟩ := map_eq_some_iff.mp h
      simp only at heq
      split at heq <;>
      · cases heq
        exact ⟨rfl, fun hcollision => absurd hcollision (by first | exact hstate | simp)⟩
    | none =>
      rw [hdeletion] at h
      cases hvalid : src.getState c.iterator with
      | done | error =>
        simp only [hvalid] at h
        cases h
        exact ⟨rfl, fun hcollision => absurd hcollision (by simp)⟩
      | initial =>
        simp only [hvalid] at h
        obtain ⟨hdestination, hsame⟩ := advance_frame h
        exact ⟨hdestination, fun hcollision => absurd (hsame.symm.trans hcollision) hstate⟩
      | valid =>
        simp only [hvalid] at h
        obtain ⟨hdestination, hcollided⟩ := copyEntry_collides src c fs hstate hdeletion hvalid
        cases hcopy : copyEntry src (selectEntry src c) fs with
        | mk c₁ fs₁ =>
          rw [skipIfCollision] at h
          split at h
          · cases h
            exact ⟨hdestination, hcollided⟩
          · rename_i hnone
            obtain ⟨hdestination', hsame⟩ := advance_frame h
            refine ⟨hdestination'.trans hdestination, fun hcollision => ?_⟩
            exact absurd (.inr (hsame.symm.trans hcollision)) hnone

theorem executeSlices_of_ne {slices : List ℕ} (h : c.state ≠ .more) :
    executeSlices src rounds slices c fs = some (c, fs) := by
  induction slices with
  | nil => rfl
  | cons batches slices ih => grind [executeSlices, executeSlice]

theorem executeSlices_collides {slices : List ℕ} (hstate : c.state ≠ .collisionWithDirectory)
    (h : executeSlices src rounds slices c fs = some (c', fs')) : Collides src c c' fs' := by
  induction slices generalizing c fs with
  | nil =>
    cases h
    exact ⟨rfl, fun hcollision => absurd hcollision hstate⟩
  | cons batches slices ih =>
    obtain ⟨⟨c₁, fs₁⟩, hslice, hrest⟩ := bind_eq_some_iff.mp h
    have hcollides := executeSlice_collides hstate hslice
    by_cases hcollision : c₁.state = .collisionWithDirectory
    · simp only at hrest
      rw [executeSlices_of_ne (by rw [hcollision]; decide)] at hrest
      cases hrest
      exact hcollides
    · obtain ⟨hdestination, hcollided⟩ := ih hcollision hrest
      rw [hcollides.1] at hdestination hcollided
      exact ⟨hdestination, hcollided⟩

theorem continueSlices_collides {slices : List ℕ}
    (h : continueSlices src rounds slices c fs = some (c', fs')) : Collides src c c' fs' := by
  obtain ⟨⟨c₁, fs₁⟩, hresume, hslices⟩ := bind_eq_some_iff.mp h
  have hresumed : c₁.destination = c.destination ∧ c₁.state ≠ .collisionWithDirectory := by
    rw [resume] at hresume
    cases hstate : c.state with
    | done | iteratorError | ioError | cardFull => grind
    | collision | collisionWithDirectory =>
      simp only [hstate] at hresume
      obtain ⟨⟨c₂, fs₂⟩, hadvance, heq⟩ := map_eq_some_iff.mp hresume
      cases heq
      exact ⟨(advance_frame hadvance).1, by simp⟩
    | more | invalidEntry => grind
  obtain ⟨hdestination, hcollided⟩ := executeSlices_collides hresumed.2 hslices
  rw [hresumed.1] at hdestination hcollided
  exact ⟨hdestination, hcollided⟩

omit [DecidableEq N] in
theorem startDeletion_destination (c : GenericCopyContext N ι) :
    (startDeletion c).destination = c.destination := by
  rw [startDeletion]
  split <;> rfl

theorem removeConflictingFile_frame (c : GenericCopyContext N ι) (fs : Fs nm) :
    (removeConflictingFile c fs).1.destination = c.destination ∧
      (removeConflictingFile c fs).1.state ≠ .collisionWithDirectory := by
  rw [removeConflictingFile]
  cases f_unlink c.collisionPath fs with
  | mk res fs₁ =>
    cases res with
    | ok done => exact ⟨rfl, by simp⟩
    | error res => cases res <;> exact ⟨rfl, by simp⟩

theorem continueWithOverwrite_collides {slices : List ℕ}
    (h : continueWithOverwrite src rounds slices c fs = some (c', fs')) :
    Collides src c c' fs' := by
  rw [continueWithOverwrite] at h
  split at h
  · obtain ⟨hdestination, hne⟩ := removeConflictingFile_frame c fs
    cases hremove : removeConflictingFile c fs with
    | mk c₁ fs₁ =>
      simp only at h hdestination hne
      split at h
      · cases h
        exact ⟨hdestination, fun hcollision => absurd hcollision hne⟩
      · have hcollides := continueSlices_collides h
        rwa [Collides, hdestination] at hcollides
  · have hcollides := continueSlices_collides h
    rwa [Collides, startDeletion_destination] at hcollides

theorem call_collides {action : CopyCall} (h : call src rounds c fs action = some (c', fs')) :
    Collides src c c' fs' := by
  cases action with
  | proceed slices => exact continueSlices_collides h
  | overwrite slices => exact continueWithOverwrite_collides h

theorem run_collides {calls : List CopyCall} (hdestination : c.destination = destination)
    (hstart : c.state = .collisionWithDirectory → Collided src destination c fs)
    (h : run src rounds c fs calls = some (c', fs')) (hstate : c'.state = .collisionWithDirectory) :
    Collided src destination c' fs' := by
  induction calls generalizing c fs with
  | nil =>
    cases h
    exact hstart hstate
  | cons action calls ih =>
    obtain ⟨⟨c₁, fs₁⟩, hfirst, hrest⟩ := bind_eq_some_iff.mp h
    have hcollides := call_collides hfirst
    rw [Collides, hdestination] at hcollides
    exact ih hcollides.1 hcollides.2 hrest

/-- The file that `CopyCurrentEntry` opens, if it gets so far. -/
def opensFile (c : GenericCopyContext N ι) (fs : Fs nm) : Option (Loc N × Fs nm) :=
  match f_stat c.currentPath fs with
  | (.error .noFile, fs) =>
    match f_openWrite c.currentPath fs with
    | (.ok file, fs) => some (file, fs)
    | _ => none
  | _ => none

/-- The rest of a slice, once the file is open. -/
def fillFile (src : CopySource nm ι) (file : Loc N) (c : GenericCopyContext N ι) (fs : Fs nm) :
    Option (GenericCopyContext N ι × Fs nm) :=
  let (iterator, context, fs) := src.readCurrent ExtractContext.onExtract c.iterator ⟨file, .ok⟩ fs
  let (c, fs) := closeFile { c with
    iterator := iterator
    state := extractedState (src.getState iterator) context.status } fs
  let (c, fs) := afterCopy src c fs
  skipIfCollision src c fs

/-- A slice puts the entry of a collision into a new file at a place. -/
structure PutsEntry (src : CopySource nm ι) (rounds batches : ℕ) (loc : Loc N)
    (c c₁ : GenericCopyContext N ι) (fs₁ : Fs nm) : Prop where
  iterator : c₁.iterator = c.iterator
  currentPath : c₁.currentPath = c.collisionPath
  writes : ∃ label fs₂, opensFile c₁ fs₁ = some (loc, fs₂) ∧ fs₂.tree.get loc = some (.file label []) ∧
    (∀ m, m ≠ loc → fs₂.tree.get m = fs₁.tree.get m) ∧
    executeSlice src rounds c₁ fs₁ batches = fillFile src loc c₁ fs₂

/-- `ContinueWithOverwrite`, and `Continue` after it. -/
def overwriteCalls : List (List ℕ) → List CopyCall
  | [] => []
  | slices :: more => .overwrite slices :: more.map .proceed

/-- If there is time for enough slices, then a slice comes before which exactly the tree at the
collision path was taken away, and this slice puts the entry in its place. -/
def Overwrites (src : CopySource nm ι) (c : GenericCopyContext N ι) (fs : Fs nm) : Prop :=
  ∃ loc, denote nm fs.currVol c.collisionPath = some loc ∧
    ∃ n, ∀ rounds ≥ n, ∀ calls : List (List ℕ), (∀ b ∈ calls.flatten, 0 < b) → n ≤ calls.flatten.length →
      ∃ earlier slices b rest later c₁ fs₁, calls = earlier ++ (slices ++ b :: rest) :: later ∧
        run src rounds c fs (overwriteCalls (earlier ++ [slices])) = some (c₁, fs₁) ∧
        DeletesExactly [loc] fs fs₁ ∧ PutsEntry src rounds b loc c c₁ fs₁

/-- The destination has no drive, the path leads to the directory past the directory, and a path
that is cut off at a control character leads to an empty one. -/
structure Overwritable (destination collisionPath : Path) (fs : Fs nm) : Prop where
  noDrive : destination[1]? ≠ some ':'
  direct : ∃ loc, denote nm fs.currVol collisionPath = some loc ∧
    Approaches nm loc [.drive fs.currVol] (segments (visible collisionPath)) ∧
    (visible collisionPath = collisionPath ∨ fs.tree.children loc = [])

/-- A context whose deletion is done. -/
def cleared (c : GenericCopyContext N ι) : GenericCopyContext N ι :=
  { c with state := .more, deleteRecursiveContext := none }

theorem executeSlices_append (slices more : List ℕ) (c : GenericCopyContext N ι) (fs : Fs nm) :
    executeSlices src rounds (slices ++ more) c fs =
      (executeSlices src rounds slices c fs).bind fun (c, fs) =>
        executeSlices src rounds more c fs := by
  induction slices generalizing c fs with
  | nil => rfl
  | cons batches slices ih =>
    rw [cons_append, executeSlices, executeSlices, bind_assoc]
    congr 1
    funext result
    exact ih result.1 result.2

theorem resume_of_more (h : c.state = .more) : resume src c fs = some (c, fs) := by
  rw [resume]
  simp only [h]
  rw [← h]

theorem continueSlices_of_more {slices : List ℕ} (h : c.state = .more) :
    continueSlices src rounds slices c fs = executeSlices src rounds slices c fs := by
  rw [continueSlices, resume_of_more h]
  rfl

theorem run_proceed {calls : List (List ℕ)} (hstate : c.state = .more)
    (h : executeSlices src rounds calls.flatten c fs = some (c', fs')) (hmore : c'.state = .more) :
    run src rounds c fs (calls.map .proceed) = some (c', fs') := by
  induction calls generalizing c fs with
  | nil => exact h
  | cons slices calls ih =>
    rw [flatten_cons, executeSlices_append] at h
    obtain ⟨⟨c₁, fs₁⟩, hfirst, hrest⟩ := bind_eq_some_iff.mp h
    have hstate₁ : c₁.state = .more := by
      by_contra hne
      simp only [executeSlices_of_ne hne] at hrest
      cases hrest
      exact hne hmore
    rw [map_cons, run, call, continueSlices_of_more hstate, hfirst]
    exact ih hstate₁ hrest

theorem run_overwriteCalls {slices : List ℕ} {calls : List (List ℕ)}
    (hstate : c.state = .collisionWithDirectory)
    (h : executeSlices src rounds (slices :: calls).flatten (startDeletion c) fs = some (c', fs'))
    (hmore : c'.state = .more) :
    run src rounds c fs (overwriteCalls (slices :: calls)) = some (c', fs') := by
  have hstart : (startDeletion c).state = .more := by grind [startDeletion]
  have hrun := run_proceed hstart h hmore
  rwa [overwriteCalls, run, call, continueWithOverwrite, if_neg (by rw [hstate]; decide)]

theorem cut_flatten {calls : List (List ℕ)} {before rest : List ℕ} {b : ℕ}
    (h : calls.flatten = before ++ b :: rest) :
    ∃ earlier slices rest' later, calls = earlier ++ (slices ++ b :: rest') :: later ∧
      (earlier ++ [slices]).flatten = before := by
  rcases flatten_eq_append_iff.mp h with ⟨as, bs, rfl, rfl, hbs⟩ | ⟨as, bs, x, cs, ds, rfl, rfl, hds⟩
  · obtain ⟨es, rest', later, rfl, hempty, -⟩ := flatten_eq_cons_iff.mp hbs.symm
    refine ⟨as ++ es, [], rest', later, by simp, ?_⟩
    rw [flatten_append, flatten_append, flatten_eq_nil_iff.mpr hempty]
    simp
  · grind

theorem executeSlices_deletes (src : CopySource nm ι) {slices : List ℕ}
    {d : DeleteRecursiveContext N} {fs₀ : Fs nm} {s : Sweep (Key N)} (hmore : c.state = .more)
    (hdeletion : c.deleteRecursiveContext = some d)
    (h : DeleteRecursiveContext.Deletes fs₀ (reachingRoutes fs₀ loc) [loc] d fs s)
    (hfree : FaultFree fs) (hthere : fs₀.tree.get loc ≠ none) (hrounds : s.weight fs₀.tree < rounds)
    (hslices : ∀ b ∈ slices, 0 < b) (hlength : s.weight fs₀.tree < slices.length) :
    ∃ before rest fs', slices = before ++ rest ∧ before.length ≤ s.weight fs₀.tree + 1 ∧
      executeSlices src rounds before c fs = some ({ c with deleteRecursiveContext := none }, fs') ∧
      DeletesExactly [loc] fs₀ fs' ∧ FaultFree fs' := by
  induction slices generalizing c d fs s with
  | nil => exact absurd hlength (Nat.not_lt_zero _)
  | cons b more ih =>
    obtain ⟨d', fs₁, hbatches, hfree₁, hcase⟩ :=
      h.continueBatches hfree hthere hrounds (hslices b mem_cons_self)
    have hslice : executeSlice src rounds c fs b = deleteSlice rounds b d c fs := by
      rw [executeSlice, if_neg (not_not.mpr hmore), hdeletion]
    rcases hcase with ⟨hgo, s', h', hless⟩ | ⟨hdone, hexact⟩
    · have hnext : executeSlice src rounds c fs b =
          some ({ c with deleteRecursiveContext := some d' }, fs₁) := by
        rw [hslice, deleteSlice, hbatches, map_some]
        simp [hgo]
      rw [length_cons] at hlength
      obtain ⟨before, rest, fs', rfl, hlong, hexecute, hrest⟩ := ih
        (c := { c with deleteRecursiveContext := some d' }) hmore rfl h' hfree₁ (by omega)
        (fun b' hb' => hslices b' (mem_cons_of_mem b hb')) (by omega)
      refine ⟨b :: before, rest, fs', rfl, by rw [length_cons]; omega, ?_, hrest⟩
      rwa [executeSlices, hnext]
    · have hnext : executeSlice src rounds c fs b =
          some ({ c with deleteRecursiveContext := none }, fs₁) := by
        rw [hslice, deleteSlice, hbatches, map_some]
        simp [hdone]
      refine ⟨[b], more, fs₁, rfl, by simp, ?_, hexact, hfree₁⟩
      rw [executeSlices, hnext]
      rfl

theorem mkdirLoop_visited {qs : List Path} (h : ∀ q ∈ qs, c.visitedDirectories q = some true) :
    mkdirLoop qs c fs = (c, fs) := by
  induction qs with
  | nil => rfl
  | cons next rest ih =>
    rw [mkdirLoop, h next mem_cons_self]
    exact ih fun q hq => h q (mem_cons_of_mem next hq)

theorem copyCurrentEntry_of_opensFile {file : Loc N} {fs₂ : Fs nm} (h : opensFile c fs = some (file, fs₂)) :
    (let (c', fs') := copyCurrentEntry src c fs
      let (c', fs') := afterCopy src c' fs'
      skipIfCollision src c' fs') = fillFile src file c fs₂ := by
  rw [opensFile] at h
  rw [copyCurrentEntry, fillFile]
  cases hstat : f_stat c.currentPath fs with
  | mk res fs₁ =>
    rw [hstat] at h
    cases res with
    | ok info => cases h
    | error res =>
      cases res with
      | noFile => grind
      | _ => cases h

theorem opensFile_of_missing {l : Loc N} {name : Name nm} (hfree : FaultFree fs)
    (hfollow : fs.follow c.currentPath = .ok (.missing l name)) :
    ∃ label fs₂, opensFile c fs = some (l ++ [.name name.key], fs₂) ∧
      fs₂.tree.get (l ++ [.name name.key]) = some (.file label []) ∧
      ∀ m, m ≠ l ++ [.name name.key] → fs₂.tree.get m = fs.tree.get m := by
  have hmatch := follow_matches hfollow
  have hsame := f_stat_sameTree c.currentPath fs
  have hstat : (f_stat c.currentPath fs).1 = .error .noFile := by
    rw [hfree.f_stat, Fs.stat, hfollow]
  cases hcall : f_stat c.currentPath fs with
  | mk res fs₁ =>
    rw [hcall] at hsame hstat
    obtain rfl : res = .error .noFile := hstat
    have hfree₁ : FaultFree (fs₁.record .openWrite c.currentPath) := hfree.congr hsame.outcomes
    have hfollow₁ : fs₁.follow c.currentPath = .ok (.missing l name) :=
      (follow_same hsame.currVol hsame.tree _).trans hfollow
    have hact : fs₁.openWrite c.currentPath = .ok (l ++ [.name name.key],
        fs₁.tree.add l (.name name.key) (.file (name.label l) [])) := by
      rw [Fs.openWrite, hfollow₁]
    obtain ⟨hok, htree⟩ := hfree₁.call (fs₁.openWrite c.currentPath)
    rw [hact] at hok htree
    refine ⟨name.label l, (f_openWrite c.currentPath fs₁).2, ?_, ?_, ?_⟩
    · rw [opensFile, hcall]
      simp only
      cases hopen : f_openWrite c.currentPath fs₁ with
      | mk res fs₂ =>
        have hres : res = (f_openWrite c.currentPath fs₁).1 := by rw [hopen]
        rw [f_openWrite, hact, hok] at hres
        rw [hres]
        rfl
    · rw [f_openWrite, hact, htree, hsame.tree]
      exact FileTree.get_add_self (.inr hmatch.1) hmatch.2
    · intro m hm
      rw [f_openWrite, hact, htree, hsame.tree]
      exact FileTree.get_add_ne hm

theorem slash_mem_dirname (path : Path) : '/' ∈ dirname path := by
  rcases dirname_spec path with heq | ⟨q, last, heq, -⟩ <;>
  · rw [heq]
    simp

theorem executeSlice_of_opensFile {batches : ℕ} {file : Loc N} {fs₀ fs₂ : Fs nm}
    (h : Collided src destination c fs₀) (hopens : opensFile c.cleared fs = some (file, fs₂)) :
    executeSlice src rounds c.cleared fs batches = fillFile src file c.cleared fs₂ := by
  have hselect : selectEntry src c.cleared = c.cleared := by
    have hpath := h.currentPath
    rw [← h.destination] at hpath
    rw [selectEntry, cleared]
    rw [← hpath, ← h.currentEntry]
  have hway : mkdirRecursive (dirname c.cleared.currentPath) c.cleared fs = (c.cleared, fs) := by
    rw [mkdirRecursive, if_pos (slash_mem_dirname _)]
    exact mkdirLoop_visited h.visited
  have hmore : c.cleared.state = .more := rfl
  have hdeletion : c.cleared.deleteRecursiveContext = none := rfl
  have hvalid : src.getState c.cleared.iterator = .valid := h.iterator
  have hskip : ¬ src.skipCurrentEntry c.cleared.currentPath c.cleared.iterator = true :=
    Bool.eq_false_iff.mp h.notSkipped
  have hdir : ¬ src.isDirectory c.cleared.iterator = true := Bool.eq_false_iff.mp h.notDirectory
  rw [executeSlice, if_neg (not_not.mpr hmore), hdeletion]
  simp only [hvalid]
  rw [hselect, copyEntry, if_neg hskip, if_neg hdir, hway]
  exact copyCurrentEntry_of_opensFile hopens

theorem normalizePath_noDrive {q : Path} (h : q[1]? ≠ some ':') : ∃ rest, normalizePath q = '/' :: rest := by
  rw [normalizePath, if_pos (.inr h)]
  exact ⟨_, rfl⟩

theorem Collided.rooted (h : Collided src (normalizePath destination) c fs)
    (hdrive : destination[1]? ≠ some ':') : ∃ rest, c.collisionPath = '/' :: rest := by
  obtain ⟨rest, hrest⟩ := normalizePath_noDrive hdrive
  rw [h.collisionPath, h.currentPath, hrest]
  exact normalizePath_rooted _

theorem Collided.found (h : Collided src destination c fs) (hfree : FaultFree fs) :
    ∃ r, fs.follow c.collisionPath = .ok r ∧ fs.tree.isDir r.loc = true := by
  obtain ⟨info, hstat, hdir⟩ := h.directory
  rw [← h.collisionPath] at hstat
  obtain ⟨loc, hdenote, -, hisDir⟩ := f_stat_ok c.collisionPath fs info ((hfree.f_stat _).trans hstat)
  cases hfollow : fs.follow c.collisionPath with
  | error res =>
    rw [Fs.stat, hfollow] at hstat
    cases hstat
  | ok r =>
    obtain rfl : r.loc = loc := some.inj ((follow_denote hfollow).symm.trans hdenote)
    exact ⟨r, rfl, hisDir.symm.trans hdir⟩

theorem overwrites_of_overwritable (h : Collided src (normalizePath destination) c fs)
    (hstate : c.state = .collisionWithDirectory) (hfree : FaultFree fs)
    (how : Overwritable destination c.collisionPath fs) : Overwrites src c fs := by
  obtain ⟨loc, hdenote, hpast, hplain⟩ := how.direct
  obtain ⟨rest, hrooted⟩ := h.rooted how.noDrive
  obtain ⟨r, hfollow, hdir⟩ := h.found hfree
  have hthere : fs.tree.get loc ≠ none := by
    obtain rfl : r.loc = loc := some.inj ((follow_denote hfollow).symm.trans hdenote)
    exact FileTree.get_of_isDir hdir
  refine ⟨loc, hdenote, (Sweep.start [loc]).weight fs.tree + 2, ?_⟩
  intro rounds hrounds calls hslices hlength
  have hdeletes : DeleteRecursiveContext.Deletes fs (reachingRoutes fs loc) [loc]
      (DeleteRecursiveContext.create.addFile c.collisionPath) fs (.start [loc]) := by
    rw [hrooted] at hpast hfollow hdenote hplain ⊢
    exact DeleteRecursiveContext.addFile_deletes hpast hfollow hdenote hplain
  have hstart : startDeletion c = { c with
      deleteRecursiveContext := some (DeleteRecursiveContext.create.addFile c.collisionPath)
      state := .more } := by grind [startDeletion]
  obtain ⟨before, more, fs₁, hsplit, hlong, hexecute, hexact, hfree₁⟩ :=
    executeSlices_deletes src (c := startDeletion c) (by rw [hstart]) (by rw [hstart]) hdeletes hfree
      hthere (Nat.lt_of_succ_lt hrounds) hslices (Nat.lt_of_succ_lt hlength)
  cases more with
  | nil => grind
  | cons b more =>
    obtain ⟨earlier, slices, rest', later, hcalls, hbefore⟩ := cut_flatten hsplit
    rw [hstart] at hexecute
    refine ⟨earlier, slices, b, rest', later, c.cleared, fs₁, hcalls, ?_, hexact, ?_⟩
    · obtain ⟨first, tail, hcons⟩ := exists_cons_of_ne_nil
        (show earlier ++ [slices] ≠ [] by simp)
      rw [hcons] at hbefore ⊢
      refine run_overwriteCalls hstate ?_ rfl
      rwa [hbefore, hstart]
    · refine ⟨rfl, h.collisionPath.symm, ?_⟩
      have hcolon : ':' ∉ visible c.collisionPath := by
        rw [hrooted] at hdenote ⊢
        exact no_colon_of_denote hdenote
      obtain ⟨l, name, hloc, hfollows⟩ := follow_past hpast hcolon hfollow
      have hgone : fs₁.tree.get loc = none :=
        hexact.gone loc mem_cons_self loc (prefix_refl loc)
      have helsewhere : SameElsewhere loc fs.tree fs₁.tree := fun m hm =>
        hexact.others m fun l' hl' => by rwa [mem_singleton.mp hl']
      have hmissing := hfollows fs₁ hexact.currVol helsewhere
      rw [if_pos hgone, h.collisionPath] at hmissing
      subst hloc
      obtain ⟨label, fs₂, hopens, hfile, hothers⟩ := opensFile_of_missing
        (c := c.cleared) hfree₁ hmissing
      exact ⟨label, fs₂, hopens, hfile, hothers, executeSlice_of_opensFile h hopens⟩

end GenericCopyContext

/-- As long as the tree is what it is, paths of the class are not found missing, and what they
lead to cannot be unlinked. -/
structure Blocks (C : PathClass nm fs.currVol) : Prop where
  stat : ∀ {p : Path} {fs' : Fs nm}, fs'.currVol = fs.currVol → fs'.tree = fs.tree → C.pending p →
    (f_stat p fs').1 ≠ .error .noFile
  unlink : ∀ {p : Path} {fs' : Fs nm} {it : RecursiveFsIterator N}, fs'.currVol = fs.currVol →
    fs'.tree = fs.tree → it.pathPrefix = ['/'] → C.met p →
    ∀ done, (f_unlink (it.amputatePrefix p) fs').1 ≠ .ok done

namespace RecursiveFsIterator

variable {it it' : RecursiveFsIterator N}

omit [DecidableEq N] in
/-- There is still something to look at or to yield. -/
def Occupied (it : RecursiveFsIterator N) : Prop := it.files ≠ [] ∨ it.directories ≠ []

theorem Occupied.round (h : it.Occupied) (hvalid : it.state = .valid)
    (hstat : ∀ path ∈ it.files, (f_stat path fs).1 ≠ .error .noFile) :
    ((it.round (fun _ => false) fs).1 = true → (it.round (fun _ => false) fs).2.1.Occupied ∧
        (it.round (fun _ => false) fs).2.1.state = .valid) ∧
      ((it.round (fun _ => false) fs).1 = false → (it.round (fun _ => false) fs).2.1.state ≠ .done) := by
  have hne : it.state ≠ .done := by grind
  rw [RecursiveFsIterator.round]
  cases hlast : it.files.getLast? with
  | some path =>
    have hfound := hstat path (mem_of_getLast? hlast)
    simp only
    rw [popFile]
    cases hcall : f_stat path fs with
    | mk res fs₁ =>
      cases res with
      | error res => grind [RecursiveFsIterator.fail]
      | ok info =>
        by_cases hdir : info.isDir = true
        · simp only [hdir, if_true, Bool.false_eq_true, if_false]
          exact ⟨fun _ => ⟨.inr (by simp), hvalid⟩, by rintro ⟨⟩⟩
        · simp only [hdir, Bool.false_eq_true, if_false]
          exact ⟨by rintro ⟨⟩, fun _ => hne⟩
  | none =>
    have hdirectories : it.directories ≠ [] :=
      h.resolve_left (not_not.mpr (getLast?_eq_none_iff.mp hlast))
    by_cases hscan : it.scanning = true
    · rw [if_pos hscan, scanEntry]
      cases f_readdir it.dir fs with
      | mk res fs₁ =>
        cases res with
        | error res => exact ⟨by rintro ⟨⟩, fun _ => by simp [RecursiveFsIterator.fail]⟩
        | ok read =>
          simp only
          split
          · exact ⟨fun _ => ⟨.inr hdirectories, hvalid⟩, by rintro ⟨⟩⟩
          · split
            · exact ⟨fun _ => ⟨.inr (by simp), hvalid⟩, by rintro ⟨⟩⟩
            · exact ⟨by rintro ⟨⟩, fun _ => hne⟩
    · rw [if_neg hscan]
      by_cases hcleanup : it.cleanup = true
      · rw [if_pos hcleanup, popDirectory]
        obtain ⟨path, hpath⟩ := ne_none_iff_exists'.mp (mt getLast?_eq_none_iff.mp hdirectories)
        rw [hpath]
        exact ⟨by rintro ⟨⟩, fun _ => hne⟩
      · rw [if_neg hcleanup]
        by_cases hend : it.directoryIndex ≥ it.directories.length
        · rw [if_pos hend]
          exact ⟨fun _ => ⟨.inr hdirectories, hvalid⟩, by rintro ⟨⟩⟩
        · rw [if_neg hend, openDir]
          cases f_opendir it.directory fs with
          | mk res fs₁ =>
            cases res with
            | error res => exact ⟨by rintro ⟨⟩, fun _ => by simp [RecursiveFsIterator.fail]⟩
            | ok dir => exact ⟨fun _ => ⟨.inr hdirectories, hvalid⟩, by rintro ⟨⟩⟩

theorem Occupied.loop {C : PathClass nm fs.currVol} {rounds : ℕ} {fs₁ : Fs nm} (hblocks : Blocks C)
    (h : it.Occupied) (hcarries : it.Carries C) (hvalid : it.state = .valid) (hsame : SameTree fs fs₁)
    (hloop : loop (fun _ => false) rounds it fs₁ = some (it', fs')) : it'.state ≠ .done := by
  induction rounds generalizing it fs₁ with
  | zero => exact absurd hloop (by simp [RecursiveFsIterator.loop])
  | succ rounds ih =>
    have hfound : ∀ path ∈ it.files, (f_stat path fs₁).1 ≠ .error .noFile := fun path hpath =>
      hblocks.stat hsame.currVol hsame.tree (hcarries.files path hpath)
    have hoccupied := h.round hvalid hfound
    obtain ⟨hsame', hcarries', -⟩ := hcarries.round hsame.currVol
    rw [RecursiveFsIterator.loop] at hloop
    cases hround : it.round (fun _ => false) fs₁ with
    | mk go rest =>
      obtain ⟨it₂, fs₂⟩ := rest
      rw [hround] at hloop hoccupied hsame' hcarries'
      cases go with
      | false => grind
      | true => exact ih (hoccupied.1 rfl).1 hcarries' (hoccupied.1 rfl).2 (hsame.trans hsame') hloop

end RecursiveFsIterator

namespace DeleteRecursiveContext

variable {d d' : DeleteRecursiveContext N} {rounds batches : ℕ}

theorem executeStep_blocked {C : PathClass nm fs.currVol} (hblocks : Blocks C)
    (hpending : C.pending (normalizePath (joinPath ['/'] path)))
    (h : executeStep rounds (create.addFile path) fs = some (d', fs')) :
    d'.getState = .error ∧ fs'.tree = fs.tree := by
  have hcarries : (create.addFile path).iterator.activate.Carries C := by
    refine ⟨rfl, ?_, nofun, nofun⟩
    intro p hp
    rwa [mem_singleton.mp hp]
  rw [executeStep] at h
  cases hnext : (create.addFile path).iterator.next (fun _ => false) rounds fs with
  | none => grind
  | some yielded =>
    obtain ⟨it, fs₁⟩ := yielded
    have hloop : RecursiveFsIterator.loop (fun _ => false) rounds
        (create.addFile path).iterator.activate fs = some (it, fs₁) := hnext
    obtain ⟨hsame, hkept, hyields⟩ := hcarries.loop rfl hloop
    have hundone : it.state ≠ .done := RecursiveFsIterator.Occupied.loop hblocks
      (.inl (cons_ne_nil _ _)) hcarries rfl ⟨⟨rfl, rfl, rfl⟩, rfl⟩ hloop
    have hfresh : (create.addFile path : DeleteRecursiveContext N).failed = false := rfl
    rw [hnext] at h
    simp only [bind_eq_bind, bind_some] at h
    by_cases herror : it.state = .error
    · have hmore : (⟨it, false⟩ : DeleteRecursiveContext N).more = false := by
        rw [more, herror]
        simp
      rw [hfresh, hmore] at h
      cases h
      refine ⟨?_, hsame.tree⟩
      rw [getState, herror]
      split <;> rfl
    · obtain ⟨p, hmet, heq⟩ := hyields rfl hundone herror
      have hmore : (⟨it, false⟩ : DeleteRecursiveContext N).more = true := by
        refine more_iff.mpr ⟨rfl, ?_⟩
        cases hstate : it.state with
        | initial => exact .inl rfl
        | valid => exact .inr rfl
        | done => exact absurd hstate hundone
        | error => exact absurd hstate herror
      have hfails := hblocks.unlink hsame.currVol hsame.tree hkept.pathPrefix hmet
      obtain ⟨-, hcases⟩ := f_unlink_cases it.currentEntry fs₁
      rw [hfresh, hmore] at h
      rw [← heq] at hfails
      cases hcall : f_unlink it.currentEntry fs₁ with
      | mk res fs₂ =>
        rw [hcall] at h hfails hcases
        cases res with
        | ok done => exact absurd rfl (hfails done)
        | error res =>
          cases h
          rcases hcases with ⟨-, htree⟩ | ⟨l, -, -, hok, -⟩
          · exact ⟨rfl, htree.trans hsame.tree⟩
          · grind

theorem continueBatches_blocked {C : PathClass nm fs.currVol} (hblocks : Blocks C)
    (hpending : C.pending (normalizePath (joinPath ['/'] path))) (hbatches : 0 < batches)
    (h : continueBatches rounds batches (create.addFile path) fs = some (d', fs')) :
    d'.getState = .error ∧ fs'.tree = fs.tree := by
  obtain ⟨steps, hsteps⟩ : ∃ steps, batches * batchSize = steps + 1 :=
    Nat.exists_eq_succ_of_ne_zero (Nat.mul_pos hbatches (by decide)).ne'
  have hfresh : (create.addFile path : DeleteRecursiveContext N).more = true := rfl
  rw [continueBatches, hsteps, executeSteps, if_pos hfresh] at h
  obtain ⟨⟨d₁, fs₁⟩, hstep, hrest⟩ := bind_eq_some_iff.mp h
  obtain ⟨herror, htree⟩ := executeStep_blocked hblocks hpending hstep
  have hmore : ¬ d₁.more = true := by
    intro hmore
    obtain ⟨hfailed, hstate⟩ := more_iff.mp hmore
    rcases hstate with hstate | hstate <;> simp [getState, hfailed, hstate] at herror
  have hstop : executeSteps rounds steps d₁ fs₁ = some (d₁, fs₁) := by
    cases steps with
    | zero => rfl
    | succ steps => rw [executeSteps, if_neg hmore]
  simp only [hstop] at hrest
  cases hrest
  exact ⟨herror, htree⟩

end DeleteRecursiveContext

namespace GenericCopyContext

variable {ι : Type} {src : CopySource nm ι} {c c' : GenericCopyContext N ι} {destination : Path}
variable {rounds : ℕ}

/-- The deletion has not begun, or it failed; nothing is gone. -/
def Stuck (path : Path) (fs : Fs nm) (c : GenericCopyContext N ι) (fs' : Fs nm) : Prop :=
  (c.state = .more ∧
      c.deleteRecursiveContext = some (DeleteRecursiveContext.create.addFile path) ∧ fs' = fs) ∨
    (c.state = .ioError ∧ fs'.tree = fs.tree)

theorem Stuck.tree (h : Stuck path fs c fs') : fs'.tree = fs.tree := by
  rcases h with ⟨-, -, rfl⟩ | ⟨-, htree⟩
  · rfl
  · exact htree

theorem Stuck.executeSlices {C : PathClass nm fs.currVol} {slices : List ℕ} {fs₁ : Fs nm}
    (hblocks : Blocks C) (hpending : C.pending (normalizePath (joinPath ['/'] path)))
    (h : Stuck path fs c fs₁) (hslices : ∀ b ∈ slices, 0 < b)
    (hexecute : executeSlices src rounds slices c fs₁ = some (c', fs')) : Stuck path fs c' fs' := by
  cases slices with
  | nil =>
    cases hexecute
    exact h
  | cons b more =>
    rcases h with ⟨hmore, hdeletion, rfl⟩ | ⟨hfailed, htree⟩
    · rw [GenericCopyContext.executeSlices, executeSlice, if_neg (not_not.mpr hmore), hdeletion] at hexecute
      obtain ⟨⟨c₁, fs₂⟩, hslice, hrest⟩ := bind_eq_some_iff.mp hexecute
      obtain ⟨⟨d', fs₃⟩, hbatches, heq⟩ := map_eq_some_iff.mp hslice
      obtain ⟨herror, htree⟩ := DeleteRecursiveContext.continueBatches_blocked hblocks hpending
        (hslices b mem_cons_self) hbatches
      simp only [herror] at heq
      cases heq
      simp only at hrest
      rw [executeSlices_of_ne (by simp)] at hrest
      cases hrest
      exact .inr ⟨rfl, htree⟩
    · rw [executeSlices_of_ne (by rw [hfailed]; decide)] at hexecute
      cases hexecute
      exact .inr ⟨hfailed, htree⟩

theorem Stuck.run {C : PathClass nm fs.currVol} {calls : List (List ℕ)} {fs₁ : Fs nm}
    (hblocks : Blocks C) (hpending : C.pending (normalizePath (joinPath ['/'] path)))
    (h : Stuck path fs c fs₁) (hslices : ∀ b ∈ calls.flatten, 0 < b)
    (hrun : run src rounds c fs₁ (calls.map .proceed) = some (c', fs')) : Stuck path fs c' fs' := by
  induction calls generalizing c fs₁ with
  | nil =>
    cases hrun
    exact h
  | cons slices calls ih =>
    rw [map_cons, GenericCopyContext.run] at hrun
    obtain ⟨⟨c₁, fs₂⟩, hfirst, hrest⟩ := bind_eq_some_iff.mp hrun
    have hresume : resume src c fs₁ = some (c, fs₁) := by
      rcases h with ⟨hmore, -, -⟩ | ⟨hfailed, -⟩
      · exact resume_of_more hmore
      · rw [resume, hfailed]
    rw [call, continueSlices, hresume] at hfirst
    refine ih (h.executeSlices hblocks hpending ?_ hfirst) ?_ hrest
    · exact fun b hb => hslices b (mem_append_left _ hb)
    · exact fun b hb => hslices b (mem_append_right _ hb)

theorem overwriteCalls_blocked {C : PathClass nm fs.currVol} {calls : List (List ℕ)}
    (hblocks : Blocks C) (hpending : C.pending (normalizePath (joinPath ['/'] c.collisionPath)))
    (hstate : c.state = .collisionWithDirectory) (hslices : ∀ b ∈ calls.flatten, 0 < b)
    (hrun : run src rounds c fs (overwriteCalls calls) = some (c', fs')) : fs'.tree = fs.tree := by
  cases calls with
  | nil =>
    cases hrun
    rfl
  | cons slices calls =>
    have hstuck : Stuck c.collisionPath fs (startDeletion c) fs := by
      rw [startDeletion, if_pos hstate]
      exact .inl ⟨rfl, rfl, rfl⟩
    rw [overwriteCalls, GenericCopyContext.run, call, continueWithOverwrite,
      if_neg (by rw [hstate]; decide)] at hrun
    have hproceed : GenericCopyContext.run src rounds (startDeletion c) fs
        ((slices :: calls).map .proceed) = some (c', fs') := hrun
    exact (hstuck.run hblocks hpending hslices hproceed).tree

omit [DecidableEq N] in
/-- Paths that lead nowhere, and nothing behind them. -/
def lostClass (nm : Naming N) (currVol : ℕ) : PathClass nm currVol where
  pending p := denote nm currVol p = none
  met _ := False
  meets h hdenote := absurd (h.symm.trans hdenote) (by simp)
  child h := h.elim

theorem lost_blocks (fs : Fs nm) : Blocks (lostClass nm fs.currVol) := by
  refine ⟨fun hvol _ hpending hstat => ?_, fun _ _ _ hmet => hmet.elim⟩
  obtain ⟨loc, hdenote, -⟩ := f_stat_noFile _ _ hstat
  rw [hvol] at hdenote
  have hnone : denote nm fs.currVol _ = none := hpending
  rw [hdenote] at hnone
  cases hnone

theorem normalizePath_drive {q : Path} (h : q[1]? = some ':') :
    ∃ x rest, normalizePath q = x :: ':' :: rest := by
  match q, h with
  | a :: b :: r, h =>
    obtain rfl : b = ':' := some.inj h
    rw [normalizePath, if_neg (by simp), collapse]
    by_cases ha : isSeparator a = true
    · rw [if_pos ha, if_neg (by decide)]
      exact ⟨'/', collapse false r, rfl⟩
    · rw [if_neg ha]
      exact ⟨a, collapse false r, rfl⟩

theorem Collided.lost (h : Collided src (normalizePath destination) c fs)
    (hdrive : destination[1]? = some ':') :
    denote nm fs.currVol (normalizePath (joinPath ['/'] c.collisionPath)) = none := by
  obtain ⟨x, rest, hpath⟩ : ∃ x rest, c.collisionPath = x :: ':' :: rest := by
    obtain ⟨x, rest, hrest⟩ := normalizePath_drive hdrive
    rw [h.collisionPath, h.currentPath, hrest]
    exact normalizePath_drive rfl
  have hx : ' ' ≤ x := by
    by_contra hx
    obtain ⟨info, hstat, -⟩ := h.directory
    have hvisible : visible c.collisionPath = [] := by
      rw [hpath, visible, takeWhile_cons, if_neg (by simpa using hx)]
    rw [← h.collisionPath, Fs.stat, follow_of_no_colon (by rw [hvisible]; exact not_mem_nil),
      hvisible] at hstat
    by_cases hmounted : fs.tree.isDir [.drive fs.currVol] = true
    · rw [if_pos hmounted] at hstat
      exact absurd hstat (by rintro ⟨⟩)
    · rw [if_neg hmounted] at hstat
      exact absurd hstat (by rintro ⟨⟩)
  cases hdenote : denote nm fs.currVol (normalizePath (joinPath ['/'] c.collisionPath)) with
  | none => rfl
  | some loc =>
    obtain ⟨more, hmore⟩ := normalizePath_rooted ('/' :: c.collisionPath)
    have hjoin : joinPath ['/'] c.collisionPath = '/' :: '/' :: c.collisionPath := rfl
    rw [hjoin, hmore] at hdenote
    have hcolon := no_colon_of_denote hdenote
    rw [← hmore, colon_mem_normalizePath, hpath] at hcolon
    refine absurd ?_ hcolon
    simp [visible, hx]

omit [DecidableEq N] in
/-- Paths that FatFs reads as it reads another one, and whose end it does not read. -/
structure CutTo (q p : Path) : Prop where
  rooted : ∃ rest, p = '/' :: rest
  cut : visible p ≠ p
  noColon : ':' ∉ visible p
  reads : segments (visible p) = segments (visible q)

theorem CutTo.child {q name : Path} (h : CutTo q p) : CutTo q (joinPath p name) := by
  have hsame : visible (joinPath p name) = visible p := visible_append h.cut _
  refine ⟨?_, fun hself => ?_, hsame ▸ h.noColon, hsame ▸ h.reads⟩
  · obtain ⟨rest, rfl⟩ := h.rooted
    exact ⟨_, rfl⟩
  · have hlength := congrArg List.length (hsame.symm.trans hself)
    have hle : (visible p).length ≤ p.length := ( takeWhile_prefix _).length_le
    rw [joinPath, length_append, length_cons] at hlength
    omega

omit [DecidableEq N] in
def cutClass (nm : Naming N) (currVol : ℕ) (q : Path) : PathClass nm currVol where
  pending := CutTo q
  met := CutTo q
  meets h _ := h
  child h _ _ := h.child

theorem cut_blocks {q : Path} {r : Followed nm} (hcolon : ':' ∉ visible q) (hfollow : fs.follow q = .ok r)
    (hdir : fs.tree.isDir r.loc = true) (hchildren : fs.tree.children r.loc ≠ []) :
    Blocks (cutClass nm fs.currVol q) := by
  have hfollows : ∀ {p : Path} {fs' : Fs nm}, fs'.currVol = fs.currVol → fs'.tree = fs.tree →
      CutTo q p → fs'.follow p = .ok r := by
    intro p fs' hvol htree hcut
    rw [follow_same hvol htree, follow_congr hcolon hcut.noColon hcut.reads, hfollow]
  constructor
  · intro p fs' hvol htree hpending hstat
    obtain ⟨l, name, hmissing⟩ := follow_of_noFile hstat
    have hfound := hfollows hvol htree hpending
    obtain rfl : r = .missing l name := Except.ok.inj (hfound.symm.trans hmissing)
    exact FileTree.get_of_isDir hdir (htree ▸ (follow_matches hmissing).2)
  · intro p fs' it hvol htree hslash hmet done hdone
    obtain ⟨rest, rfl⟩ := hmet.rooted
    have hfound := hfollows hvol htree hmet
    rw [← follow_amputatePrefix hslash (no_colon_of_follow hfound)] at hfound
    obtain ⟨-, ⟨⟨res, hres⟩, -⟩ | ⟨l, hplace, hempty, -, -⟩⟩ :=
      f_unlink_cases (it.amputatePrefix ('/' :: rest)) fs'
    · grind
    · obtain rfl : r = .found l := Except.ok.inj (hfound.symm.trans hplace)
      rw [htree] at hempty
      exact hchildren hempty

theorem visible_of_normalizePath {q : Path} (h : visible (normalizePath q) = normalizePath q) :
    visible q = q := by
  rw [visible, takeWhile_eq_self_iff] at h ⊢
  intro x hx
  by_cases hsep : isSeparator x = true
  · rcases of_decide_eq_true hsep with rfl | rfl <;> decide
  · refine h x ?_
    rw [Bool.not_eq_true] at hsep
    rw [normalizePath]
    split
    · exact mem_cons_of_mem _ ((mem_collapse hsep _ _).mpr hx)
    · exact (mem_collapse hsep _ _).mpr hx

theorem cutTo_joined {rest : Path} (hcut : visible ('/' :: rest) ≠ '/' :: rest)
    (hcolon : ':' ∉ visible ('/' :: rest)) :
    CutTo ('/' :: rest) (normalizePath (joinPath ['/'] ('/' :: rest))) := by
  have hvisible : visible (joinPath ['/'] ('/' :: rest)) = '/' :: '/' :: visible ('/' :: rest) := rfl
  refine ⟨normalizePath_rooted _, fun hself => hcut ?_, ?_, ?_⟩
  · have hjoined := visible_of_normalizePath hself
    exact (List.cons.inj (List.cons.inj hjoined).2).2
  · rw [colon_mem_normalizePath, hvisible]
    simpa using hcolon
  · rw [segments_visible_normalizePath, hvisible]
    rfl

theorem follow_of_opensFile {file : Loc N} {fs₂ : Fs nm} (h : opensFile c fs = some (file, fs₂)) :
    ∃ l name, fs.follow c.currentPath = .ok (.missing l name) := by
  refine follow_of_noFile ?_
  rw [opensFile] at h
  cases hstat : f_stat c.currentPath fs with
  | mk res fs₁ => grind

theorem overwritable_of_overwrites (h : Collided src (normalizePath destination) c fs)
    (hstate : c.state = .collisionWithDirectory) (hfree : FaultFree fs) (hover : Overwrites src c fs) :
    Overwritable destination c.collisionPath fs := by
  obtain ⟨loc, hdenote, n, hslices⟩ := hover
  obtain ⟨r, hfollow, hdir⟩ := h.found hfree
  obtain rfl : r.loc = loc := some.inj ((follow_denote hfollow).symm.trans hdenote)
  obtain ⟨earlier, slices, b, rest, later, c₁, fs₁, hcalls, hrun, hexact, hputs⟩ :=
    hslices n le_rfl [replicate n 1] (by simp) (by simp)
  have hpositive : ∀ b ∈ (earlier ++ [slices]).flatten, 0 < b := by
    have hones : ∀ b ∈ [replicate n 1].flatten, 0 < b := by simp
    rw [hcalls] at hones
    intro b hb
    refine hones b ?_
    simp only [flatten_append, flatten_cons, mem_append] at hb ⊢
    tauto
  have hgone : ∀ m, r.loc <+: m → fs₁.tree.get m = none := hexact.gone r.loc mem_cons_self
  have hunblocked : ∀ C : PathClass nm fs.currVol, Blocks C →
      ¬ C.pending (normalizePath (joinPath ['/'] c.collisionPath)) := by
    intro C hblocks hpending
    have htree := overwriteCalls_blocked hblocks hpending hstate hpositive hrun
    have hnone := hgone r.loc (prefix_refl _)
    rw [htree] at hnone
    exact FileTree.get_of_isDir hdir hnone
  have hdrive : destination[1]? ≠ some ':' := fun hdrive =>
    hunblocked _ (lost_blocks fs) (h.lost hdrive)
  obtain ⟨tail, hrooted⟩ := h.rooted hdrive
  have hcolon : ':' ∉ visible c.collisionPath := by
    rw [hrooted] at hdenote ⊢
    exact no_colon_of_denote hdenote
  refine ⟨hdrive, r.loc, hdenote, ?_, ?_⟩
  · obtain ⟨label, fs₂, hopens, -⟩ := hputs.writes
    obtain ⟨l, name, hmissing⟩ := follow_of_opensFile hopens
    rw [hputs.currentPath] at hmissing
    have hplace := follow_denote hmissing
    rw [hexact.currVol, hdenote] at hplace
    rw [follow_of_no_colon hcolon] at hmissing
    by_cases hmounted : fs₁.tree.isDir [.drive fs₁.currVol] = true
    · rw [if_pos hmounted] at hmissing
      have happroaches := approaches_of_missing hmounted hgone hmissing (some.inj hplace).symm
      rwa [hexact.currVol] at happroaches
    · grind
  · by_contra hplain
    obtain ⟨hcut, hchildren⟩ := not_or.mp hplain
    refine hunblocked _ (cut_blocks hcolon hfollow hdir hchildren) ?_
    rw [hrooted] at hcut hcolon ⊢
    exact cutTo_joined hcut hcolon

/-- In a run without failing calls, `ContinueWithOverwrite` and `Continue` put an entry in the
place of the directory it collides with exactly if the destination has no drive and the path
leads to the directory past it. -/
theorem overwrites_iff {iterator : ι} {fs₀ : Fs nm} {calls : List CopyCall}
    (hrun : run src rounds (create src destination iterator) fs₀ calls = some (c, fs))
    (hstate : c.state = .collisionWithDirectory) (hfree : FaultFree fs) :
    Overwrites src c fs ↔ Overwritable destination c.collisionPath fs := by
  have hcollided : Collided src (normalizePath destination) c fs := by
    refine run_collides rfl (fun hcollision => absurd hcollision ?_) hrun hstate
    rw [create]
    simp only
    split <;> decide
  exact ⟨overwritable_of_overwrites hcollided hstate hfree,
    overwrites_of_overwritable hcollided hstate hfree⟩

def archiveFile : ZipfileIterator := .create (some [⟨some ['d'], false, [[1, 2]], true, true, true⟩])

theorem overwrites_withoutDrive : ∃ (c : UnzipContext Path) (fs : Fs asciiNaming),
    run (ZipfileIterator.source asciiNaming) 0
      (create (ZipfileIterator.source asciiNaming) ['/'] archiveFile) (freshFs oneDirectory)
      [.proceed [1, 1]] = some (c, fs) ∧
    c.state = .collisionWithDirectory ∧ Overwrites (ZipfileIterator.source asciiNaming) c fs := by
  have hcollision : ∃ (c : UnzipContext Path) (fs : Fs asciiNaming),
      run (ZipfileIterator.source asciiNaming) 0
        (create (ZipfileIterator.source asciiNaming) ['/'] archiveFile) (freshFs oneDirectory)
        [.proceed [1, 1]] = some (c, fs) ∧ c.state = .collisionWithDirectory ∧
      c.collisionPath = ['/', 'd'] ∧ fs.outcomes = (fun _ => none) ∧ fs.currVol = 0 :=
    ⟨_, _, rfl, rfl, rfl, rfl, rfl⟩
  obtain ⟨c, fs, hrun, hstate, hpath, houtcomes, hvol⟩ := hcollision
  have hfree : FaultFree fs := by
    intro n res
    rw [houtcomes]
    exact nofun
  refine ⟨c, fs, hrun, hstate, (overwrites_iff hrun hstate hfree).mpr ⟨by decide, ?_⟩⟩
  rw [hpath, hvol]
  exact ⟨[.drive 0, .name ['D']], by decide +kernel, rfl, .inl rfl⟩

/-- The same directory is not deleted if the destination names its drive. -/
theorem withDrive_not_overwrites : ∃ (c : UnzipContext Path) (fs : Fs asciiNaming),
    run (ZipfileIterator.source asciiNaming) 0
      (create (ZipfileIterator.source asciiNaming) ['0', ':', '/'] archiveFile) (freshFs oneDirectory)
      [.proceed [1, 1]] = some (c, fs) ∧
    c.state = .collisionWithDirectory ∧ FaultFree fs ∧
    ¬ Overwrites (ZipfileIterator.source asciiNaming) c fs := by
  have hcollision : ∃ (c : UnzipContext Path) (fs : Fs asciiNaming),
      run (ZipfileIterator.source asciiNaming) 0
        (create (ZipfileIterator.source asciiNaming) ['0', ':', '/'] archiveFile)
        (freshFs oneDirectory) [.proceed [1, 1]] = some (c, fs) ∧
      c.state = .collisionWithDirectory ∧ fs.outcomes = fun _ => none := ⟨_, _, rfl, rfl, rfl⟩
  obtain ⟨c, fs, hrun, hstate, houtcomes⟩ := hcollision
  have hfree : FaultFree fs := by
    intro n res
    rw [houtcomes]
    exact nofun
  have hcollided : Collided (ZipfileIterator.source asciiNaming) (normalizePath ['0', ':', '/']) c fs :=
    run_collides rfl (fun hcollision => absurd hcollision (by decide)) hrun hstate
  refine ⟨c, fs, hrun, hstate, hfree, fun hover => ?_⟩
  exact (overwritable_of_overwrites hcollided hstate hfree hover).noDrive rfl

end GenericCopyContext

end Cloudpilot.Vfs
