import Cloudpilot.Library.TreeSweep
import Cloudpilot.Vfs.Confinement

/-! # What recursive deletion deletes

The recursive iterator sweeps the tree: its files are the places that wait, its directories are
those that were met, and what it yields is taken away. If the calls succeed, a deletion ends
after finitely many steps with exactly the selected subtrees gone.
-/
namespace Cloudpilot.Vfs

open Library List Option

variable {N : Type} [DecidableEq N] {nm : Naming N}

namespace RecursiveFsIterator

def roundSucceeds (it : RecursiveFsIterator N) (fs : Fs nm) : Bool :=
  match it.files.getLast? with
  | some fullPath => (f_stat fullPath fs).1.isOk
  | none =>
    if it.scanning then (f_readdir it.dir fs).1.isOk
    else it.cleanup || it.directoryIndex ≥ it.directories.length || (f_opendir it.directory fs).1.isOk

def loopSucceeds (skipDirectory : Path → Bool) : ℕ → RecursiveFsIterator N → Fs nm → Bool
  | 0, _, _ => true
  | rounds + 1, it, fs =>
    it.roundSucceeds fs &&
      match it.round skipDirectory fs with
      | (true, it, fs) => loopSucceeds skipDirectory rounds it fs
      | (false, _, _) => true

/-- The loop in `Next` goes on in the state `valid`. -/
def activate (it : RecursiveFsIterator N) : RecursiveFsIterator N :=
  if it.state = .initial then { it with state := .valid } else it

def nextSucceeds (skipDirectory : Path → Bool) (rounds : ℕ) (it : RecursiveFsIterator N)
    (fs : Fs nm) : Bool :=
  it.activate.state ≠ .valid || loopSucceeds skipDirectory rounds it.activate fs

end RecursiveFsIterator

/-- `f_unlink` succeeds, or there is nothing wrong but that the directory is not empty. -/
def unlinkSucceeds (path : Path) (fs : Fs nm) : Bool :=
  (f_unlink path fs).1.isOk ||
    match fs.follow path with
    | .ok (.found l) => !(fs.tree.children l).isEmpty
    | _ => false

namespace DeleteRecursiveContext

def stepSucceeds (rounds : ℕ) (d : DeleteRecursiveContext N) (fs : Fs nm) : Bool :=
  d.iterator.nextSucceeds (fun _ => false) rounds fs &&
    match d.iterator.next (fun _ => false) rounds fs with
    | none => true
    | some (iterator, fs) =>
      !({ d with iterator := iterator } : DeleteRecursiveContext N).more ||
        unlinkSucceeds iterator.currentEntry fs

def stepsSucceed (rounds : ℕ) : ℕ → DeleteRecursiveContext N → Fs nm → Bool
  | 0, _, _ => true
  | steps + 1, d, fs =>
    !d.more || d.stepSucceeds rounds fs &&
      match d.executeStep rounds fs with
      | none => true
      | some (d, fs) => stepsSucceed rounds steps d fs

/-- Calls of `Continue`, each with the number of batches for which its time suffices. -/
def continues (rounds : ℕ) : List ℕ → DeleteRecursiveContext N → Fs nm →
    Option (DeleteRecursiveContext N × Fs nm)
  | [], d, fs => some (d, fs)
  | batches :: more, d, fs => do
    let (d, fs) ← d.continueBatches rounds batches fs
    continues rounds more d fs

def continuesSucceed (rounds : ℕ) : List ℕ → DeleteRecursiveContext N → Fs nm → Bool
  | [], _, _ => true
  | batches :: more, d, fs =>
    stepsSucceed rounds (batches * batchSize) d fs &&
      match d.continueBatches rounds batches fs with
      | none => true
      | some (d, fs) => continuesSucceed rounds more d fs

end DeleteRecursiveContext

omit [DecidableEq N] in
structure Rooted (nm : Naming N) (currVol : ℕ) (p : Path) (l : Loc N) : Prop where
  rooted : ∃ rest, p = '/' :: rest
  plain : visible p = p
  denotes : denote nm currVol p = some l

/-- What is there after some places were taken away. -/
def Left (t : Tree nm) (removed : List (Loc N)) (t' : Tree nm) : Prop :=
  ∀ m, t'.get m = if m ∈ removed then none else t.get m

theorem Left.there {t t' : Tree nm} {removed : List (Loc N)} (h : Left t removed t') {m : Loc N}
    (hm : t'.get m ≠ none) : m ∉ removed ∧ t'.get m = t.get m := by
  have hget := h m
  by_cases hmem : m ∈ removed <;> grind

theorem Left.get {t t' : Tree nm} {removed : List (Loc N)} (h : Left t removed t') {m : Loc N}
    (hm : m ∉ removed) : t'.get m = t.get m := by
  rw [h m, if_neg hm]

theorem Left.get_ne_none_iff {t t' : Tree nm} {removed : List (Loc N)} (h : Left t removed t')
    {m : Loc N} : t'.get m ≠ none ↔ t.get m ≠ none ∧ m ∉ removed := by
  constructor
  · intro hm
    obtain ⟨hmem, hget⟩ := h.there hm
    exact ⟨hget ▸ hm, hmem⟩
  · rintro ⟨hm, hmem⟩
    rwa [h.get hmem]

theorem Left.remove {t t' : Tree nm} {removed : List (Loc N)} (h : Left t removed t') {l : Loc N}
    (hl : t'.children l = []) : Left t (l :: removed) (t'.remove l) := by
  intro m
  by_cases heq : m = l
  · rw [heq, FileTree.get_remove_self hl, if_pos mem_cons_self]
  · rw [FileTree.get_remove_ne heq, h m]
    simp [heq]

omit [DecidableEq N] in
theorem Rooted.entry {currVol : ℕ} {p : Path} {d : Loc N} (h : Rooted nm currVol p d)
    (hd : d ≠ []) {k : Key N} (sp : Spelling nm (d ++ [k])) :
    sp.val ≠ [] ∧ Rooted nm currVol (joinPath p sp.val) (d ++ [k]) := by
  obtain ⟨hproper, name, hname, rfl⟩ := spelling_name hd sp
  obtain ⟨rest, rfl⟩ := h.rooted
  exact ⟨hproper.nonempty, ⟨_, rfl⟩, visible_joinPath hproper h.plain,
    denote_joinPath hproper hname h.plain h.denotes⟩

/-- Which paths lead to which places: paths that were not looked at yet, and paths behind which
something was found. -/
structure Routes (nm : Naming N) (currVol : ℕ) (t : Tree nm) where
  pending : Path → Loc N → Prop
  met : Path → Loc N → Prop
  rooted : ∀ {p l}, met p l → ∃ rest, p = '/' :: rest
  denotes : ∀ {p l}, met p l → denote nm currVol p = some l
  meets : ∀ {p l l'}, pending p l → denote nm currVol p = some l' → l' = l ∧ met p l
  entry : ∀ {p d k} (sp : Spelling nm (d ++ [k])), met p d → t.get (d ++ [k]) ≠ none →
    sp.val ≠ [] ∧ met (joinPath p sp.val) (d ++ [k])

section

variable {α β : Type} {R : α → β → Prop}

theorem forall₂_getLast {as : List α} {bs : List β} (h : List.Forall₂ R as bs) {a : α}
    (ha : as.getLast? = some a) :
    ∃ bs' b, bs = bs' ++ [b] ∧ R a b ∧ List.Forall₂ R as.dropLast bs' := by
  have hsplit := dropLast_append_getLast? a ha
  rw [← hsplit] at h
  obtain ⟨b, bs', hb, hbs, hrev⟩ := forall₂_cons_left_iff.mp (by
    simpa using forall₂_reverse_iff.mpr h)
  refine ⟨bs'.reverse, b, ?_, hb, ?_⟩
  · simpa using congrArg reverse hrev
  · simpa using forall₂_reverse_iff.mpr hbs

theorem forall₂_getD {as : List α} {xs zs : List β} {y : β}
    (h : List.Forall₂ R as (xs ++ y :: zs)) (a : α) : R (as.getD xs.length a) y := by
  induction xs generalizing as with
  | nil =>
    obtain ⟨a', as', hR, -, rfl⟩ := forall₂_cons_right_iff.mp h
    exact hR
  | cons x xs ih =>
    obtain ⟨a', as', -, hrest, rfl⟩ := forall₂_cons_right_iff.mp h
    exact ih hrest

theorem forall₂_concat {as : List α} {bs : List β} (h : List.Forall₂ R as bs) {a : α} {b : β}
    (hR : R a b) : List.Forall₂ R (as ++ [a]) (bs ++ [b]) :=
  List.rel_append h (.cons hR .nil)

end

namespace RecursiveFsIterator

/-- The iterator stands where the sweep stands. -/
structure Follows {currVol : ℕ} {t : Tree nm} (R : Routes nm currVol t) (it : RecursiveFsIterator N)
    (s : Sweep (Key N)) : Prop where
  pathPrefix : it.pathPrefix = ['/']
  files : List.Forall₂ R.pending it.files s.pending
  directories : List.Forall₂ R.met it.directories s.directories
  scanning : it.scanning = s.scanning.isSome
  dir : ∀ d ks, s.scanning = some (d, ks) → it.dir = ⟨d, ks⟩
  cleanup : it.cleanup = s.cleanup
  index : s.cleanup = false → it.directoryIndex = s.scanned.length

/-- The iterator stopped at a place. -/
def Yields {currVol : ℕ} {t : Tree nm} (R : Routes nm currVol t) (it : RecursiveFsIterator N)
    (l : Loc N) : Prop :=
  ∃ path, R.met path l ∧ it.currentEntry = it.amputatePrefix path

variable {it it' : RecursiveFsIterator N} {currVol : ℕ} {t : Tree nm} {R : Routes nm currVol t}
variable {fs fs' : Fs nm} {roots : List (Loc N)} {s s' : Sweep (Key N)} {l : Loc N}

theorem Follows.denote_yields (h : it.Follows R s) (hyields : it.Yields R l) :
    denote nm currVol it.currentEntry = some l := by
  obtain ⟨path, hmet, heq⟩ := hyields
  obtain ⟨rest, rfl⟩ := R.rooted hmet
  rw [heq]
  exact denote_amputatePrefix h.pathPrefix (R.denotes hmet)

inductive Turned {currVol : ℕ} {t : Tree nm} (R : Routes nm currVol t) (s : Sweep (Key N))
    (it : RecursiveFsIterator N) : Bool → RecursiveFsIterator N → Prop
  | looks {it' : RecursiveFsIterator N} {s' : Sweep (Key N)} (hlooks : s.Looks t s')
      (hfollows : it'.Follows R s') (hstate : it'.state = it.state) : Turned R s it true it'
  | yields {it' : RecursiveFsIterator N} {l : Loc N} {s' : Sweep (Key N)} (hdrops : s.Drops t l s')
      (hfollows : it'.Follows R s') (hstate : it'.state = it.state) (hentry : it'.Yields R l) :
      Turned R s it false it'
  | done {it' : RecursiveFsIterator N} (hcleanup : s.cleanup = true) (hscanned : s.scanned = [])
      (hfollows : it'.Follows R s) (hstate : it'.state = .done) : Turned R s it false it'

theorem isOk_iff {α : Type} {r : Except FResult α} : r.isOk = true ↔ ∃ a, r = .ok a := by
  cases r with
  | error res => simp [Except.isOk, Except.toBool]
  | ok a => simp [Except.isOk, Except.toBool]

section

variable (h : it.Follows R s)

include h

theorem Follows.popFile (hvol : fs.currVol = currVol) (hleft : Left t s.removed fs.tree)
    {path : Path} (hlast : it.files.getLast? = some path) (hok : (f_stat path fs).1.isOk = true) :
    Turned R s it (it.popFile (fun _ => false) path fs).1
      (it.popFile (fun _ => false) path fs).2.1 := by
  obtain ⟨ls, l, hpending, hleads, hfiles⟩ := forall₂_getLast h.files hlast
  obtain ⟨info, hinfo⟩ := isOk_iff.mp hok
  obtain ⟨loc, hdenote, hget, hisDir⟩ := f_stat_ok path fs info hinfo
  rw [hvol] at hdenote
  obtain ⟨rfl, hmet⟩ := R.meets hleads hdenote
  obtain ⟨-, hsame⟩ := hleft.there hget
  have hdir : t.isDir loc = info.isDir := (isDir_congr hsame).symm.trans hisDir.symm
  rw [RecursiveFsIterator.popFile]
  cases hstat : f_stat path fs with
  | mk res fs₁ =>
    rw [hstat] at hinfo
    obtain rfl : res = .ok info := hinfo
    by_cases hinfoDir : info.isDir = true
    · simp only [hinfoDir, if_true, Bool.false_eq_true, if_false]
      refine .looks (.meet hpending (hdir.trans hinfoDir)) ?_ rfl
      refine ⟨h.pathPrefix, hfiles, ?_, h.scanning, h.dir, h.cleanup, h.index⟩
      rw [Sweep.directories_meet]
      exact forall₂_concat h.directories hmet
    · simp only [hinfoDir, Bool.false_eq_true, if_false]
      refine .yields (.file hpending (hsame ▸ hget) (hdir.trans (Bool.eq_false_iff.mpr hinfoDir))) ?_
        rfl ⟨path, hmet, rfl⟩
      exact ⟨h.pathPrefix, hfiles, h.directories, h.scanning, h.dir, h.cleanup, h.index⟩

theorem Follows.directory (hcleanup : s.cleanup = false) {d : Loc N} {more : List (Loc N)}
    (hd : s.directories = s.scanned ++ d :: more) : R.met it.directory d := by
  have hdirectories := h.directories
  rw [hd] at hdirectories
  rw [RecursiveFsIterator.directory, h.index hcleanup]
  exact forall₂_getD hdirectories []

theorem Follows.scanEntry (hs : s.Sound t roots) (hleft : Left t s.removed fs.tree)
    (hscan : it.scanning = true) (hok : (f_readdir it.dir fs).1.isOk = true) :
    Turned R s it (it.scanEntry fs).1 (it.scanEntry fs).2.1 := by
  rw [h.scanning] at hscan
  obtain ⟨⟨d, ks⟩, hscanning⟩ := isSome_iff_exists.mp hscan
  have hcleanup := Bool.eq_false_iff.mpr (hs.cleanup_of_scanning hscanning)
  have hdirectories : s.directories = s.scanned ++ d :: s.waiting := by
    rw [Sweep.directories, hscanning]
    simp
  have hmet := h.directory hcleanup hdirectories
  have hdir := h.dir d ks hscanning
  obtain ⟨⟨info, dir'⟩, hread⟩ := isOk_iff.mp hok
  obtain ⟨hdir', hinfo⟩ := f_readdir_ok it.dir fs info dir' hread
  rw [hdir] at hdir' hinfo
  rw [RecursiveFsIterator.scanEntry]
  cases hcall : f_readdir it.dir fs with
  | mk res fs₁ =>
    rw [hcall] at hread
    obtain rfl : res = .ok (info, dir') := hread
    cases ks with
    | nil =>
      subst hinfo
      refine .looks (.close hscanning) ?_ rfl
      refine ⟨h.pathPrefix, h.files, ?_, rfl, by rintro _ _ ⟨⟩, h.cleanup, ?_⟩
      · rw [Sweep.directories_close hscanning]
        exact h.directories
      · intro _
        rw [length_append]
        exact congrArg (· + 1) (h.index hcleanup)
    | cons k rest =>
      obtain ⟨hthere, hunseen⟩ := ((hs.scanning d _ hscanning).2 k).mp mem_cons_self
      have hget := hleft.get_ne_none_iff.mpr ⟨hthere, fun hmem => hunseen (.inr hmem)⟩
      obtain ⟨-, hsame⟩ := hleft.there hget
      cases hnode : fs.tree.get (d ++ [k]) with
      | none => exact absurd hnode hget
      | some node =>
        have hisDir : t.isDir (d ++ [k]) = node.isDir := by
          rw [FileTree.isDir, ← hsame, hnode]
          rfl
        simp only [nextEntry, hnode] at hdir' hinfo
        subst hdir' hinfo
        cases node with
        | dir label =>
          obtain ⟨hne, hentry⟩ := R.entry label hmet hthere
          simp only [fileInfo, hne, if_false, if_true]
          refine .looks (.enter hscanning hisDir) ?_ rfl
          refine ⟨h.pathPrefix, h.files, ?_, h.scanning.trans (by rw [hscanning]; rfl), ?_, h.cleanup, h.index⟩
          · rw [Sweep.directories_enter hscanning]
            exact forall₂_concat h.directories hentry
          · simp
        | file label data =>
          obtain ⟨hne, hentry⟩ := R.entry label hmet hthere
          simp only [fileInfo, hne, if_false, Bool.false_eq_true]
          refine .yields (.entry hscanning hisDir) ?_ rfl ⟨_, hentry, rfl⟩
          refine ⟨h.pathPrefix, h.files, ?_, h.scanning.trans (by rw [hscanning]; rfl), ?_, h.cleanup, h.index⟩
          · rw [Sweep.directories_entry hscanning]
            exact h.directories
          · rintro d' ks' heq
            cases heq
            rfl

theorem Follows.openDir (hvol : fs.currVol = currVol) (hleft : Left t s.removed fs.tree)
    (hscan : ¬ it.scanning = true) (hcleanup : s.cleanup = false)
    (hlt : it.directoryIndex < it.directories.length)
    (hok : (f_opendir it.directory fs).1.isOk = true) :
    Turned R s it (it.openDir fs).1 (it.openDir fs).2.1 := by
  rw [h.scanning, isSome_iff_ne_none, not_not] at hscan
  have hlength := h.directories.length_eq
  rw [h.index hcleanup, hlength, Sweep.directories, hscan] at hlt
  cases hwaiting : s.waiting with
  | nil => grind
  | cons d ls =>
    have hdirectories : s.directories = s.scanned ++ d :: ls := by
      rw [Sweep.directories, hscan, hwaiting]
      simp
    have hmet := h.directory hcleanup hdirectories
    obtain ⟨dir, hopen⟩ := isOk_iff.mp hok
    obtain ⟨loc, hdenote, rfl⟩ := f_opendir_ok it.directory fs dir hopen
    rw [hvol] at hdenote
    obtain rfl := some.inj (hdenote.symm.trans (R.denotes hmet))
    rw [RecursiveFsIterator.openDir]
    cases hcall : f_opendir it.directory fs with
    | mk res fs₁ =>
      rw [hcall] at hopen
      obtain rfl : res = .ok ⟨loc, fs.tree.children loc⟩ := hopen
      refine .looks (.list hscan hwaiting (fs.tree.children_nodup loc) ?_) ?_ rfl
      · intro k
        rw [FileTree.mem_children, hleft.get_ne_none_iff]
      · refine ⟨h.pathPrefix, h.files, ?_, rfl, ?_, h.cleanup, h.index⟩
        · rw [Sweep.directories_list hscan hwaiting]
          exact h.directories
        · simp

theorem Follows.popDirectory (hs : s.Sound t roots) (hcleanup : s.cleanup = true) :
    Turned R s it false it.popDirectory := by
  have hdirectories := h.directories
  rw [hs.directories_cleanup hcleanup] at hdirectories
  rw [RecursiveFsIterator.popDirectory]
  cases hlast : it.directories.getLast? with
  | none =>
    rw [getLast?_eq_none_iff] at hlast
    rw [hlast] at hdirectories
    refine .done hcleanup (forall₂_nil_left_iff.mp hdirectories) ?_ rfl
    exact ⟨h.pathPrefix, h.files, h.directories, h.scanning, h.dir, h.cleanup, h.index⟩
  | some path =>
    obtain ⟨ds, l, hscanned, hmet, hrest⟩ := forall₂_getLast hdirectories hlast
    refine .yields (.directory hcleanup hscanned) ?_ rfl ⟨path, hmet, rfl⟩
    refine ⟨h.pathPrefix, h.files, ?_, h.scanning, h.dir, h.cleanup, ?_⟩
    · rwa [(hs.seen_takeDirectory hcleanup hscanned).1]
    · grind

theorem Follows.round (hvol : fs.currVol = currVol) (hs : s.Sound t roots)
    (hleft : Left t s.removed fs.tree) (hok : it.roundSucceeds fs = true) :
    Turned R s it (it.round (fun _ => false) fs).1 (it.round (fun _ => false) fs).2.1 := by
  rw [roundSucceeds] at hok
  rw [RecursiveFsIterator.round]
  cases hlast : it.files.getLast? with
  | some path =>
    rw [hlast] at hok
    exact h.popFile hvol hleft hlast hok
  | none =>
    rw [hlast] at hok
    by_cases hscan : it.scanning = true
    · rw [if_pos hscan] at hok ⊢
      exact h.scanEntry hs hleft hscan hok
    · rw [if_neg hscan] at hok ⊢
      by_cases hcleanup : it.cleanup = true
      · rw [if_pos hcleanup]
        exact h.popDirectory hs (h.cleanup ▸ hcleanup)
      · have hcleanup' : s.cleanup = false := h.cleanup ▸ Bool.eq_false_iff.mpr hcleanup
        rw [if_neg hcleanup]
        by_cases hend : it.directoryIndex ≥ it.directories.length
        · rw [if_pos hend]
          rw [h.scanning, isSome_iff_ne_none, not_not] at hscan
          have hpending : s.pending = [] := by
            have hfiles := h.files
            rw [getLast?_eq_none_iff.mp hlast] at hfiles
            exact forall₂_nil_left_iff.mp hfiles
          have hwaiting : s.waiting = [] := by
            rw [h.index hcleanup', h.directories.length_eq, Sweep.directories, hscan] at hend
            simp only [toList_none, map_nil, append_nil, length_append,
              ge_iff_le] at hend
            exact length_eq_zero_iff.mp (by omega)
          refine .looks (.turn hpending hscan hwaiting hcleanup') ?_ rfl
          exact ⟨h.pathPrefix, h.files, h.directories, h.scanning, h.dir, rfl, by rintro ⟨⟩⟩
        · rw [if_neg hend]
          refine h.openDir hvol hleft hscan hcleanup' (not_le.mp hend) ?_
          simpa [hcleanup, hend] using hok

end

theorem popFile_sameTree (skipDirectory : Path → Bool) (path : Path) (it : RecursiveFsIterator N)
    (fs : Fs nm) : SameTree fs (it.popFile skipDirectory path fs).2.2 := by
  have hsame := f_stat_sameTree path fs
  rw [RecursiveFsIterator.popFile]
  cases hstat : f_stat path fs with
  | mk res fs₁ => grind

theorem scanEntry_sameTree (it : RecursiveFsIterator N) (fs : Fs nm) :
    SameTree fs (it.scanEntry fs).2.2 := by
  have hsame := f_readdir_sameTree it.dir fs
  rw [RecursiveFsIterator.scanEntry]
  cases hread : f_readdir it.dir fs with
  | mk res fs₁ => grind

theorem openDir_sameTree (it : RecursiveFsIterator N) (fs : Fs nm) :
    SameTree fs (it.openDir fs).2.2 := by
  have hsame := f_opendir_sameTree it.directory fs
  rw [RecursiveFsIterator.openDir]
  cases hopen : f_opendir it.directory fs with
  | mk res fs₁ => grind

theorem round_sameTree (skipDirectory : Path → Bool) (it : RecursiveFsIterator N) (fs : Fs nm) :
    SameTree fs (it.round skipDirectory fs).2.2 := by
  rw [RecursiveFsIterator.round]
  cases it.files.getLast? with
  | some path => exact popFile_sameTree skipDirectory path it fs
  | none =>
    simp only
    split
    · exact scanEntry_sameTree it fs
    · split
      · exact ⟨⟨rfl, rfl, rfl⟩, rfl⟩
      · split
        · exact ⟨⟨rfl, rfl, rfl⟩, rfl⟩
        · exact openDir_sameTree it fs

theorem loop_sameTree {skipDirectory : Path → Bool} {rounds : ℕ}
    (h : loop skipDirectory rounds it fs = some (it', fs')) : SameTree fs fs' := by
  induction rounds generalizing it fs with
  | zero => exact absurd h (by simp [RecursiveFsIterator.loop])
  | succ rounds ih =>
    have hsame := round_sameTree skipDirectory it fs
    rw [RecursiveFsIterator.loop] at h
    cases hround : it.round skipDirectory fs with
    | mk go rest =>
      rw [hround] at h hsame
      cases go with
      | false => grind
      | true => exact hsame.trans (ih h)

theorem next_sameTree {skipDirectory : Path → Bool} {rounds : ℕ}
    (h : next skipDirectory rounds it fs = some (it', fs')) : SameTree fs fs' := by
  have hnext : next skipDirectory rounds it fs = if it.activate.state ≠ .valid then
      some (it.activate, fs) else loop skipDirectory rounds it.activate fs := rfl
  rw [hnext] at h
  split at h
  · cases h
    exact ⟨⟨rfl, rfl, rfl⟩, rfl⟩
  · exact loop_sameTree h

/-- Where `Next` stops: at a place that goes, or at the end of the sweep. -/
inductive Stops {currVol : ℕ} {t : Tree nm} (R : Routes nm currVol t) (roots : List (Loc N))
    (s : Sweep (Key N)) (it' : RecursiveFsIterator N) : Prop
  | yields {l : Loc N} {s' : Sweep (Key N)} (hsound : s'.Sound t roots) (hfollows : it'.Follows R s')
      (hremoved : s'.removed = l :: s.removed)
      (hbelow : ∀ k, t.get (l ++ [k]) ≠ none → l ++ [k] ∈ s.removed)
      (hless : s'.weight t < s.weight t) (hstate : it'.state = .valid) (hentry : it'.Yields R l) :
      Stops R roots s it'
  | done {s' : Sweep (Key N)} (hsound : s'.Sound t roots) (hremoved : s'.removed = s.removed)
      (hcleanup : s'.cleanup = true) (hscanned : s'.scanned = []) (hstate : it'.state = .done) :
      Stops R roots s it'

theorem Follows.loop {rounds : ℕ} (hroots : Separate roots) (h : it.Follows R s)
    (hvol : fs.currVol = currVol) (hs : s.Sound t roots) (hleft : Left t s.removed fs.tree)
    (hvalid : it.state = .valid) (hrounds : s.weight t < rounds)
    (hok : loopSucceeds (fun _ => false) rounds it fs = true) :
    ∃ it' fs', loop (fun _ => false) rounds it fs = some (it', fs') ∧ SameTree fs fs' ∧
      Stops R roots s it' := by
  induction rounds generalizing it fs s with
  | zero => exact absurd hrounds (Nat.not_lt_zero _)
  | succ rounds ih =>
    rw [loopSucceeds, Bool.and_eq_true] at hok
    have hturned := h.round hvol hs hleft hok.1
    have hsame := round_sameTree (fun _ => false) it fs
    have hmore := hok.2
    rw [RecursiveFsIterator.loop]
    cases hround : it.round (fun _ => false) fs with
    | mk go rest =>
      obtain ⟨it₁, fs₁⟩ := rest
      rw [hround] at hturned hsame hmore
      simp only at hturned hsame hmore
      cases hturned with
      | @looks _ s₁ hlooks hfollows hstate =>
        have hless := hs.looks_lt hroots hlooks
        have hremoved := hlooks.removed
        obtain ⟨it', fs', hloop, hsame', hstops⟩ := ih hfollows (hsame.currVol.trans hvol)
          (hs.looks hroots hlooks) (by rw [hremoved, hsame.tree]; exact hleft)
          (hstate.trans hvalid) (by omega) hmore
        refine ⟨it', fs', hloop, hsame.trans hsame', ?_⟩
        cases hstops with
        | yields hsound hfollows hremoved' hbelow hless' hstate hentry =>
          exact .yields hsound hfollows (hremoved ▸ hremoved') (hremoved ▸ hbelow)
            (hless'.trans hless) hstate hentry
        | done hsound hremoved' hcleanup hscanned hstate =>
          exact .done hsound (hremoved'.trans hremoved) hcleanup hscanned hstate
      | @yields _ l s₁ hdrops hfollows hstate hentry =>
        refine ⟨it₁, fs₁, rfl, hsame, .yields (hs.drops hroots hdrops) hfollows hdrops.removed ?_
          (hs.drops_lt hroots hdrops) (hstate.trans hvalid) hentry⟩
        exact fun k hk => hs.below_removed hroots hdrops hk
      | done hcleanup hscanned hfollows hstate =>
        exact ⟨it₁, fs₁, rfl, hsame, .done hs rfl hcleanup hscanned hstate⟩

theorem Follows.activate (h : it.Follows R s) (hstate : it.state = .initial ∨ it.state = .valid) :
    it.activate.state = .valid ∧ it.activate.Follows R s := by
  rw [RecursiveFsIterator.activate]
  rcases hstate with hinitial | hvalid
  · rw [if_pos hinitial]
    exact ⟨rfl, h.pathPrefix, h.files, h.directories, h.scanning, h.dir, h.cleanup, h.index⟩
  · grind

theorem Follows.next {rounds : ℕ} (hroots : Separate roots) (h : it.Follows R s)
    (hvol : fs.currVol = currVol) (hs : s.Sound t roots) (hleft : Left t s.removed fs.tree)
    (hstate : it.state = .initial ∨ it.state = .valid) (hrounds : s.weight t < rounds)
    (hok : it.nextSucceeds (fun _ => false) rounds fs = true) :
    ∃ it' fs', next (fun _ => false) rounds it fs = some (it', fs') ∧ SameTree fs fs' ∧
      Stops R roots s it' := by
  obtain ⟨hvalid, hfollows⟩ := h.activate hstate
  have hnext : RecursiveFsIterator.next (fun _ => false) rounds it fs =
      RecursiveFsIterator.loop (fun _ => false) rounds it.activate fs :=
    if_neg (not_not.mpr hvalid)
  rw [hnext]
  refine hfollows.loop hroots hvol hs hleft hvalid hrounds ?_
  simpa [nextSucceeds, hvalid] using hok

end RecursiveFsIterator

/-- The unlinked places, the last one first, are those that the recorded calls are about. -/
def Unlinks (nm : Naming N) (currVol : ℕ) (calls : List Change) (places : List (Loc N)) : Prop :=
  List.Forall₂ (fun change l => change.access = .unlink ∧ denote nm currVol change.path = some l)
    calls places

/-- The selected subtrees are gone and nothing else is changed; nothing at or below a place was
unlinked after it. -/
structure DeletesExactly (selected : List (Loc N)) (fs fs' : Fs nm) : Prop where
  currVol : fs'.currVol = fs.currVol
  gone : ∀ l ∈ selected, ∀ m, l <+: m → fs'.tree.get m = none
  others : ∀ m, (∀ l ∈ selected, ¬ l <+: m) → fs'.tree.get m = fs.tree.get m
  unlinks : ∃ calls places, fs'.changes = calls ++ fs.changes ∧ Unlinks nm fs.currVol calls places ∧
    (∀ m, m ∈ places ↔ fs.tree.get m ≠ none ∧ ∃ l ∈ selected, l <+: m) ∧
    places.Pairwise fun later earlier => ¬ earlier <+: later

namespace DeleteRecursiveContext

open RecursiveFsIterator

variable {d d' : DeleteRecursiveContext N} {fs fs' fs₀ : Fs nm} {roots : List (Loc N)}
variable {s s' : Sweep (Key N)}

/-- A deletion under way. -/
structure Deletes (fs₀ : Fs nm) (R : Routes nm fs₀.currVol fs₀.tree) (roots : List (Loc N))
    (d : DeleteRecursiveContext N) (fs : Fs nm) (s : Sweep (Key N)) : Prop where
  failed : d.failed = false
  state : d.iterator.state = .initial ∨ d.iterator.state = .valid
  currVol : fs.currVol = fs₀.currVol
  sound : s.Sound fs₀.tree roots
  follows : d.iterator.Follows R s
  left : Left fs₀.tree s.removed fs.tree
  changes : ∃ calls, fs.changes = calls ++ fs₀.changes ∧ Unlinks nm fs₀.currVol calls s.removed

variable {R : Routes nm fs₀.currVol fs₀.tree}

theorem Deletes.more (h : Deletes fs₀ R roots d fs s) : d.more = true :=
  more_iff.mpr ⟨h.failed, h.state⟩

theorem unlink_of_empty {path : Path} {l : Loc N} (hdenote : denote nm fs.currVol path = some l)
    (hempty : fs.tree.children l = []) (hok : unlinkSucceeds path fs = true) :
    (f_unlink path fs).1 = .ok () ∧ (f_unlink path fs).2.tree = fs.tree.remove l := by
  have hcalled : ∃ a, (f_unlink path fs).1 = .ok a := by
    rw [unlinkSucceeds, Bool.or_eq_true] at hok
    refine isOk_iff.mp (hok.resolve_right ?_)
    intro hdenied
    cases hfollow : fs.follow path with
    | error res => grind
    | ok r =>
      rw [hfollow] at hdenied
      cases r with
      | found l' =>
        obtain rfl : l' = l := some.inj ((follow_denote hfollow).symm.trans hdenote)
        simp only [hempty] at hdenied
        cases hdenied
      | _ => cases hdenied
  obtain ⟨-, ⟨⟨res, hres⟩, -⟩ | ⟨l', hfollow, -, hok', htree⟩⟩ := f_unlink_cases path fs
  · grind
  · obtain rfl : l' = l := some.inj ((follow_denote hfollow).symm.trans hdenote)
    exact ⟨hok', htree⟩

theorem Deletes.exact (h : Deletes fs₀ R roots d fs s) (hs' : s'.Sound fs₀.tree roots)
    (hremoved : s'.removed = s.removed) (hcleanup : s'.cleanup = true) (hscanned : s'.scanned = [])
    (hsame : SameTree fs fs') : DeletesExactly roots fs₀ fs' := by
  have hiff := hs'.removed_iff hcleanup hscanned
  rw [hremoved] at hiff
  have hget := h.left
  rw [← hsame.tree] at hget
  refine ⟨hsame.currVol.trans h.currVol, ?_, ?_, ?_⟩
  · intro l hl m hlm
    by_contra hthere
    obtain ⟨hm, hnot⟩ := hget.get_ne_none_iff.mp hthere
    exact hnot ((hiff m).mpr ⟨hm, l, hl, hlm⟩)
  · intro m hm
    refine hget.get ?_
    intro hmem
    obtain ⟨-, l, hl, hlm⟩ := (hiff m).mp hmem
    exact hm l hl hlm
  · obtain ⟨calls, hchanges, hunlinks⟩ := h.changes
    exact ⟨calls, s.removed, hsame.changes.trans hchanges, hunlinks, hiff, h.sound.removed⟩

theorem Deletes.executeStep {rounds : ℕ} (hroots : Separate roots) (h : Deletes fs₀ R roots d fs s)
    (hrounds : s.weight fs₀.tree < rounds) (hok : d.stepSucceeds rounds fs = true) :
    ∃ d' fs', d.executeStep rounds fs = some (d', fs') ∧
      ((d'.iterator.state = .valid ∧ ∃ s', Deletes fs₀ R roots d' fs' s' ∧
          s'.weight fs₀.tree < s.weight fs₀.tree) ∨
        d'.getState = .done ∧ DeletesExactly roots fs₀ fs') := by
  rw [stepSucceeds, Bool.and_eq_true] at hok
  obtain ⟨hnextOk, hunlinkOk⟩ := hok
  obtain ⟨it, fs₁, hnext, hsame, hstops⟩ :=
    h.follows.next hroots h.currVol h.sound h.left h.state hrounds hnextOk
  rw [hnext] at hunlinkOk
  simp only at hunlinkOk
  rw [DeleteRecursiveContext.executeStep, hnext]
  simp only [bind_eq_bind, bind_some]
  cases hstops with
  | done hsound hremoved hcleanup hscanned hstate =>
    have hmore : ({ d with iterator := it } : DeleteRecursiveContext N).more = false := by
      rw [DeleteRecursiveContext.more, hstate]
      simp
    rw [hmore]
    refine ⟨_, _, rfl, .inr ⟨?_, h.exact hsound hremoved hcleanup hscanned hsame⟩⟩
    simp [getState, h.failed, hstate]
  | @yields l s₁ hsound hfollows hremoved hbelow hless hstate hentry =>
    have hmore : ({ d with iterator := it } : DeleteRecursiveContext N).more = true :=
      more_iff.mpr ⟨h.failed, .inr hstate⟩
    have hvol : fs₁.currVol = fs.currVol := hsame.currVol
    have hleft : Left fs₀.tree s.removed fs₁.tree := hsame.tree ▸ h.left
    have hempty : fs₁.tree.children l = [] := by
      rw [eq_nil_iff_forall_not_mem]
      intro k hk
      obtain ⟨hthere, hnot⟩ := hleft.get_ne_none_iff.mp (FileTree.mem_children.mp hk)
      exact hnot (hbelow k hthere)
    have hdenote := hfollows.denote_yields hentry
    rw [hmore] at hunlinkOk ⊢
    obtain ⟨hcall, htree⟩ := unlink_of_empty (by rw [hvol, h.currVol]; exact hdenote) hempty hunlinkOk
    obtain ⟨hrun, -⟩ := f_unlink_cases it.currentEntry fs₁
    cases hunlink : f_unlink it.currentEntry fs₁ with
    | mk res fs₂ =>
      rw [hunlink] at hcall htree hrun
      obtain rfl : res = .ok () := hcall
      have hvol₂ : fs₂.currVol = fs.currVol := hrun.currVol.trans hvol
      refine ⟨_, _, rfl, .inl ⟨hstate, s₁, ?_, hless⟩⟩
      refine ⟨rfl, .inr hstate, hvol₂.trans h.currVol, hsound, hfollows, ?_, ?_⟩
      · rw [hremoved, htree]
        exact hleft.remove hempty
      · obtain ⟨calls, hchanges, hunlinks⟩ := h.changes
        refine ⟨⟨.unlink, it.currentEntry⟩ :: calls, ?_, ?_⟩
        · exact hrun.changes.trans (congrArg _ (hsame.changes.trans hchanges))
        · rw [hremoved]
          exact .cons ⟨rfl, hdenote⟩ hunlinks

omit [DecidableEq N] in
theorem not_more_of_done (h : d.getState = .done) : ¬ d.more = true := by
  intro hmore
  obtain ⟨hfailed, hstate⟩ := more_iff.mp hmore
  rcases hstate with hstate | hstate <;> simp [getState, hfailed, hstate] at h

theorem executeSteps_done {rounds steps : ℕ} (h : d.getState = .done) :
    executeSteps rounds steps d fs = some (d, fs) := by
  cases steps with
  | zero => rfl
  | succ steps => rw [executeSteps, if_neg (not_more_of_done h)]

theorem Deletes.executeSteps {rounds steps : ℕ} (hroots : Separate roots)
    (h : Deletes fs₀ R roots d fs s) (hrounds : s.weight fs₀.tree < rounds)
    (hok : stepsSucceed rounds steps d fs = true) :
    ∃ d' fs', executeSteps rounds steps d fs = some (d', fs') ∧
      (((0 < steps → d'.iterator.state = .valid) ∧
          ∃ s', Deletes fs₀ R roots d' fs' s' ∧ s'.weight fs₀.tree + steps ≤ s.weight fs₀.tree) ∨
        d'.getState = .done ∧ DeletesExactly roots fs₀ fs') := by
  induction steps generalizing d fs s with
  | zero => exact ⟨d, fs, rfl, .inl ⟨nofun, s, h, le_refl _⟩⟩
  | succ steps ih =>
    rw [stepsSucceed, h.more, Bool.not_true, Bool.false_or, Bool.and_eq_true] at hok
    obtain ⟨d₁, fs₁, hstep, hcase⟩ := h.executeStep hroots hrounds hok.1
    have hmore := hok.2
    rw [hstep] at hmore
    rw [DeleteRecursiveContext.executeSteps, if_pos h.more, hstep]
    simp only [bind_eq_bind, bind_some] at hmore ⊢
    rcases hcase with ⟨hvalid, s₁, h₁, hless⟩ | ⟨hdone, hexact⟩
    · obtain ⟨d', fs', hsteps, hcase⟩ := ih h₁ (by omega) hmore
      refine ⟨d', fs', hsteps, hcase.imp_left ?_⟩
      rintro ⟨hvalid', s', h', hle⟩
      refine ⟨fun _ => ?_, s', h', by omega⟩
      cases steps with
      | zero =>
        cases hsteps
        exact hvalid
      | succ steps => exact hvalid' (Nat.succ_pos steps)
    · exact ⟨d₁, fs₁, executeSteps_done hdone, .inr ⟨hdone, hexact⟩⟩

theorem continues_done {rounds : ℕ} {batches : List ℕ} (h : d.getState = .done) :
    continues rounds batches d fs = some (d, fs) := by
  induction batches with
  | nil => rfl
  | cons b more ih =>
    rw [continues, continueBatches, executeSteps_done h]
    exact ih

theorem Deletes.continues {rounds : ℕ} {batches : List ℕ} (hroots : Separate roots)
    (h : Deletes fs₀ R roots d fs s) (hrounds : s.weight fs₀.tree < rounds)
    (hbatches : ∀ b ∈ batches, 0 < b) (hok : continuesSucceed rounds batches d fs = true)
    (hlength : s.weight fs₀.tree < batches.length) :
    ∃ d' fs', continues rounds batches d fs = some (d', fs') ∧ d'.getState = .done ∧
      DeletesExactly roots fs₀ fs' := by
  induction batches generalizing d fs s with
  | nil => exact absurd hlength (Nat.not_lt_zero _)
  | cons b more ih =>
    rw [continuesSucceed, Bool.and_eq_true] at hok
    obtain ⟨d₁, fs₁, hsteps, hcase⟩ := h.executeSteps hroots hrounds hok.1
    have hmore := hok.2
    have hbatch : d.continueBatches rounds b fs = some (d₁, fs₁) := hsteps
    rw [hbatch] at hmore
    rw [DeleteRecursiveContext.continues, hbatch]
    simp only [bind_eq_bind, bind_some] at hmore ⊢
    rcases hcase with ⟨-, s₁, h₁, hle⟩ | ⟨hdone, hexact⟩
    · have hb : 0 < b := hbatches b mem_cons_self
      have hlong : 0 < b * batchSize := Nat.mul_pos hb (by decide)
      rw [length_cons] at hlength
      exact ih h₁ (by omega) (fun b' hb' => hbatches b' (mem_cons_of_mem b hb')) hmore (by omega)
    · exact ⟨d₁, fs₁, continues_done hdone, hdone, hexact⟩

/-- A path, as far as FatFs reads it, to something that is there. -/
structure Existing (fs : Fs nm) (path : Path) (l : Loc N) : Prop where
  plain : visible path = path
  denotes : denote nm fs.currVol path = some l
  there : fs.tree.get l ≠ none

theorem visible_normalizePath {path : Path} (h : visible path = path) :
    visible (normalizePath path) = normalizePath path := by
  rw [normalizePath]
  split
  · have hcons : visible ('/' :: collapse true path) = '/' :: visible (collapse true path) := rfl
    rw [hcons, visible_collapse, h]
  · rw [visible_collapse, h]

end DeleteRecursiveContext

end Cloudpilot.Vfs
