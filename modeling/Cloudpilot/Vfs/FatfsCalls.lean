import Cloudpilot.Vfs.Fatfs

/-! # What a call can do

A call that succeeds has followed its path to the place the path denotes, and it changes the
tree nowhere else.
-/
namespace Cloudpilot.Vfs

open Library List

variable {N : Type} [DecidableEq N] {nm : Naming N} {fs fs' : Fs nm} {path : Path} {loc : Loc N}

theorem followPath_resolve {t : Tree nm} {cur : Loc N} {segs : List Path} {r : Followed nm}
    (h : followPath t cur segs = .ok r) : resolve nm cur segs = some r.loc := by
  fun_induction followPath t cur segs with
  | case1 cur =>
    cases h
    rfl
  | case2 cur seg hdot =>
    cases h
    rw [resolve, if_pos hdot]
    split <;> rfl
  | case3 cur seg rest hdot hlast ih => grind [resolve]
  | case5 cur seg hdot name hname =>
    cases h
    simp only [resolve, if_neg hdot, hname]
    split <;> rfl
  | case6 cur seg rest hdot name hname hlast hdir ih =>
    simp only [resolve, if_neg hdot, hname]
    exact ih h
  | _ => cases h

theorem follow_cases (fs : Fs nm) (path : Path) :
    (∃ d rest, getLdNumber fs.currVol path = some (d, rest) ∧ fs.tree.isDir [.drive d] = true ∧
      fs.follow path = followPath fs.tree [.drive d] (segments (visible rest))) ∨
    fs.follow path = .error .invalidDrive ∨ fs.follow path = .error .notEnabled := by
  rw [Fs.follow]
  cases getLdNumber fs.currVol path with
  | none => exact .inr (.inl rfl)
  | some drive => grind

theorem follow_ok {r : Followed nm} (h : fs.follow path = .ok r) :
    ∃ d rest, getLdNumber fs.currVol path = some (d, rest) ∧ fs.tree.isDir [.drive d] = true ∧
      followPath fs.tree [.drive d] (segments (visible rest)) = .ok r := by
  obtain ⟨d, rest, hdrive, hmounted, heq⟩ | heq | heq := follow_cases fs path <;> grind

theorem follow_denote {r : Followed nm} (h : fs.follow path = .ok r) :
    denote nm fs.currVol path = some r.loc := by
  obtain ⟨d, rest, hdrive, -, hfollow⟩ := follow_ok h
  rw [denote, hdrive]
  exact followPath_resolve hfollow

theorem dotTarget_isDir {t : Tree nm} {cur : Loc N} (h : t.isDir cur = true) (seg : Path) :
    t.isDir (dotTarget cur seg) = true := by
  rw [dotTarget]
  split
  · exact h
  · rw [up]
    split
    · exact h
    · rename_i hlong
      induction cur using reverseRecOn with
      | nil => exact h
      | append_singleton above k _ =>
        rw [dropLast_concat]
        rcases FileTree.parent_isDir (FileTree.get_of_isDir h) with hroot | hdir
        · grind
        · exact hdir

def Followed.Matches (t : Tree nm) : Followed nm → Prop
  | .origin l => t.isDir l = true
  | .dotEntry l => t.isDir l = true
  | .found l => t.get l ≠ none
  | .missing l name => t.isDir l = true ∧ t.get (l ++ [.name name.key]) = none

theorem followPath_matches {t : Tree nm} {cur : Loc N} {segs : List Path} {r : Followed nm}
    (hcur : t.isDir cur = true) (h : followPath t cur segs = .ok r) : r.Matches t := by
  fun_induction followPath t cur segs with
  | case1 cur =>
    cases h
    exact hcur
  | case2 cur seg hdot =>
    cases h
    split <;> exact dotTarget_isDir hcur seg
  | case3 cur seg rest hdot hlast ih => exact ih (dotTarget_isDir hcur seg) h
  | case5 cur seg hdot name hname =>
    cases h
    split
    · rename_i hnone
      exact ⟨hcur, hnone⟩
    · rename_i hsome
      exact hsome
  | case6 cur seg rest hdot name hname hlast hdir ih => exact ih hdir h
  | _ => cases h

theorem follow_matches {r : Followed nm} (h : fs.follow path = .ok r) : r.Matches fs.tree := by
  obtain ⟨d, rest, -, hmounted, hfollow⟩ := follow_ok h
  exact followPath_matches hmounted hfollow

theorem followPath_ne_noFile (t : Tree nm) (cur : Loc N) (segs : List Path) :
    followPath t cur segs ≠ .error .noFile := by
  fun_induction followPath t cur segs with
  | case3 cur seg rest hdot hlast ih => exact ih
  | case6 cur seg rest hdot name hname hlast hdir ih => exact ih
  | _ => exact nofun

theorem follow_ne_noFile : fs.follow path ≠ .error .noFile := by
  obtain ⟨d, rest, -, -, heq⟩ | heq | heq := follow_cases fs path
  · rw [heq]
    exact followPath_ne_noFile _ _ _
  · simp [heq]
  · simp [heq]

/-- Everything but the tree and the number of calls is as before. -/
structure SameRun (fs fs' : Fs nm) : Prop where
  currVol : fs'.currVol = fs.currVol
  outcomes : fs'.outcomes = fs.outcomes
  changes : fs'.changes = fs.changes

theorem call_cases {α : Type} (fs : Fs nm) (act : Except FResult (α × Tree nm)) :
    SameRun fs (fs.call act).2 ∧
      ((∃ res, (fs.call act).1 = .error res ∧ (fs.call act).2.tree = fs.tree ∧
          (act = .error res ∨ res.fromTree = false)) ∨
        ∃ a t, act = .ok (a, t) ∧ (fs.call act).1 = .ok a ∧ (fs.call act).2.tree = t) := by
  unfold Fs.call
  split
  · rename_i res _
    exact ⟨⟨rfl, rfl, rfl⟩, .inl ⟨res, rfl, rfl, .inr res.2⟩⟩
  · cases act with
    | error res => exact ⟨⟨rfl, rfl, rfl⟩, .inl ⟨res, rfl, rfl, .inl rfl⟩⟩
    | ok done => exact ⟨⟨rfl, rfl, rfl⟩, .inr ⟨done.1, done.2, rfl, rfl, rfl⟩⟩

theorem call_split {α : Type} {act : Except FResult (α × Tree nm)} {P : Prop}
    (h : ∀ a t, act = .ok (a, t) → (fs.call act).1 = .ok a → (fs.call act).2.tree = t → P) :
    SameRun fs (fs.call act).2 ∧
      (((∃ res, (fs.call act).1 = .error res) ∧ (fs.call act).2.tree = fs.tree) ∨ P) := by
  obtain ⟨hrun, ⟨res, hres, htree, -⟩ | ⟨a, t, hact, hok, htree⟩⟩ := call_cases fs act
  · exact ⟨hrun, .inl ⟨⟨res, hres⟩, htree⟩⟩
  · exact ⟨hrun, .inr (h a t hact hok htree)⟩

/-- Calls that only look. -/
structure SameTree (fs fs' : Fs nm) : Prop extends SameRun fs fs' where
  tree : fs'.tree = fs.tree

theorem SameTree.trans {fs'' : Fs nm} (h : SameTree fs fs') (h' : SameTree fs' fs'') :
    SameTree fs fs'' :=
  ⟨⟨h'.currVol.trans h.currVol, h'.outcomes.trans h.outcomes, h'.changes.trans h.changes⟩,
    h'.tree.trans h.tree⟩

theorem call_sameTree {α : Type} {act : Except FResult (α × Tree nm)}
    (h : ∀ a t, act = .ok (a, t) → t = fs.tree) : SameTree fs (fs.call act).2 := by
  obtain ⟨hrun, ⟨res, -, htree, -⟩ | ⟨a, t, hact, -, htree⟩⟩ := call_cases fs act
  · exact ⟨hrun, htree⟩
  · exact ⟨hrun, htree.trans (h a t hact)⟩

theorem f_stat_sameTree (path : Path) (fs : Fs nm) : SameTree fs (f_stat path fs).2 := by
  refine call_sameTree ?_
  intro a t hact
  cases hstat : fs.stat path with
  | error res =>
    rw [hstat] at hact
    exact absurd hact (by simp [Except.map])
  | ok info =>
    rw [hstat] at hact
    exact (Prod.mk.inj (Except.ok.inj hact)).2.symm

theorem f_stat_cases (path : Path) (fs : Fs nm) :
    (f_stat path fs).1 = fs.stat path ∨ ∃ res, (f_stat path fs).1 = .error res ∧ res.fromTree = false := by
  obtain ⟨-, ⟨res, hres, -, hact | hfault⟩ | ⟨a, t, hact, hok, -⟩⟩ :=
    call_cases fs ((fs.stat path).map (·, fs.tree))
  · left
    rw [f_stat, hres]
    cases hstat : fs.stat path <;> simp_all [Except.map]
  · exact .inr ⟨res, hres, hfault⟩
  · left
    rw [f_stat, hok]
    cases hstat : fs.stat path <;> simp_all [Except.map]

theorem f_stat_ok (path : Path) (fs : Fs nm) (info : FilInfo) (h : (f_stat path fs).1 = .ok info) :
    ∃ loc, denote nm fs.currVol path = some loc ∧ fs.tree.get loc ≠ none ∧
      info.isDir = fs.tree.isDir loc := by
  obtain heq | ⟨res, hres, -⟩ := f_stat_cases path fs
  · rw [heq, Fs.stat] at h
    cases hfollow : fs.follow path with
    | error res => grind
    | ok r =>
      have hmatch := follow_matches hfollow
      refine ⟨r.loc, follow_denote hfollow, ?_⟩
      rw [hfollow] at h
      cases r with
      | dotEntry l =>
        cases h
        exact ⟨FileTree.get_of_isDir hmatch, hmatch.symm⟩
      | found l =>
        obtain ⟨node, hnode⟩ := Option.ne_none_iff_exists'.mp hmatch
        simp only [hnode] at h
        cases h
        refine ⟨hmatch, ?_⟩
        rw [Followed.loc, FileTree.isDir, hnode]
        cases node <;> rfl
      | _ => cases h
  · grind

theorem follow_of_noFile (h : (f_stat path fs).1 = .error .noFile) :
    ∃ l name, fs.follow path = .ok (.missing l name) := by
  obtain heq | ⟨res, hres, hfault⟩ := f_stat_cases path fs
  · rw [heq, Fs.stat] at h
    cases hfollow : fs.follow path with
    | error res =>
      rw [hfollow] at h
      obtain rfl := Except.error.inj h
      exact absurd hfollow follow_ne_noFile
    | ok r => grind
  · obtain rfl := Except.error.inj (hres.symm.trans h)
    cases hfault

theorem f_stat_noFile (path : Path) (fs : Fs nm) (h : (f_stat path fs).1 = .error .noFile) :
    ∃ loc, denote nm fs.currVol path = some loc ∧ fs.tree.get loc = none := by
  obtain ⟨l, name, hfollow⟩ := follow_of_noFile h
  exact ⟨_, follow_denote hfollow, (follow_matches hfollow).2⟩

theorem f_mkdir_cases (path : Path) (fs : Fs nm) :
    SameRun (fs.record .mkdir path) (f_mkdir path fs).2 ∧
      (((∃ res, (f_mkdir path fs).1 = .error res) ∧ (f_mkdir path fs).2.tree = fs.tree) ∨
        ∃ l name, fs.follow path = .ok (.missing l name) ∧ (f_mkdir path fs).1 = .ok () ∧
          (f_mkdir path fs).2.tree = fs.tree.add l (.name name.key) (.dir (name.label l))) := by
  refine call_split fun a t hact hok htree => ?_
  rw [Fs.mkdir] at hact
  split at hact
  · cases hact
  · rename_i l name hfollow
    have heq := Prod.mk.inj (Except.ok.inj hact)
    exact ⟨l, name, hfollow, hok, htree.trans heq.2.symm⟩
  · cases hact

theorem f_openWrite_cases (path : Path) (fs : Fs nm) :
    SameRun (fs.record .openWrite path) (f_openWrite path fs).2 ∧
      (((∃ res, (f_openWrite path fs).1 = .error res) ∧ (f_openWrite path fs).2.tree = fs.tree) ∨
        (∃ l name, fs.follow path = .ok (.missing l name) ∧
          (f_openWrite path fs).1 = .ok (l ++ [.name name.key]) ∧
          (f_openWrite path fs).2.tree =
            fs.tree.add l (.name name.key) (.file (name.label l) [])) ∨
        ∃ l, fs.follow path = .ok (.found l) ∧ fs.tree.isDir l = false ∧
          (f_openWrite path fs).1 = .ok l ∧ (f_openWrite path fs).2.tree = fs.tree.rewrite l []) := by
  refine call_split fun a t hact hok htree => ?_
  rw [Fs.openWrite] at hact
  split at hact
  · cases hact
  · cases hact
  · cases hact
  · rename_i l name hfollow
    cases hact
    exact .inl ⟨l, name, hfollow, hok, htree⟩
  · rename_i l hfollow
    split at hact
    · cases hact
    · rename_i hdir
      obtain ⟨rfl, rfl⟩ := Prod.mk.inj (Except.ok.inj hact)
      exact .inr ⟨l, hfollow, Bool.eq_false_iff.mpr hdir, hok, htree⟩

theorem f_unlink_cases (path : Path) (fs : Fs nm) :
    SameRun (fs.record .unlink path) (f_unlink path fs).2 ∧
      (((∃ res, (f_unlink path fs).1 = .error res) ∧ (f_unlink path fs).2.tree = fs.tree) ∨
        ∃ l, fs.follow path = .ok (.found l) ∧ fs.tree.children l = [] ∧
          (f_unlink path fs).1 = .ok () ∧ (f_unlink path fs).2.tree = fs.tree.remove l) := by
  refine call_split fun a t hact hok htree => ?_
  rw [Fs.unlink] at hact
  split at hact
  · cases hact
  · cases hact
  · cases hact
  · cases hact
  · rename_i l hfollow
    split at hact
    · rename_i hempty
      have heq := Prod.mk.inj (Except.ok.inj hact)
      exact ⟨l, hfollow, hempty, hok, htree.trans heq.2.symm⟩
    · cases hact

theorem f_write_cases (file : Loc N) (data : Bytes) (fs : Fs nm) :
    SameRun fs (f_write file data fs).2 ∧
      (((∃ res, (f_write file data fs).1 = .error res) ∧ (f_write file data fs).2.tree = fs.tree) ∨
        ∃ bytes, bytes <+: data ∧ (f_write file data fs).1 = .ok bytes.length ∧
          (f_write file data fs).2.tree =
            fs.tree.rewrite file (contents fs.tree file ++ bytes)) := by
  refine call_split fun a t hact hok htree => ?_
  cases hact
  refine ⟨_, ?_, hok, htree⟩
  split
  · exact List.take_prefix _ _
  · exact List.prefix_rfl

theorem opendir_ok {dir : Dir N} {t : Tree nm} (h : fs.opendir path = .ok (dir, t)) :
    t = fs.tree ∧ ∃ loc, denote nm fs.currVol path = some loc ∧ dir = ⟨loc, fs.tree.children loc⟩ := by
  rw [Fs.opendir] at h
  cases hfollow : fs.follow path with
  | error res => grind
  | ok r =>
    have hdenote := follow_denote hfollow
    rw [hfollow] at h
    cases r with
    | origin l | dotEntry l =>
      cases h
      exact ⟨rfl, l, hdenote, rfl⟩
    | missing l name => cases h
    | found l =>
      simp only at h
      split at h
      · cases h
        exact ⟨rfl, l, hdenote, rfl⟩
      · grind

theorem f_opendir_sameTree (path : Path) (fs : Fs nm) : SameTree fs (f_opendir path fs).2 :=
  call_sameTree fun _ _ hact => (opendir_ok hact).1

theorem f_readdir_sameTree (dir : Dir N) (fs : Fs nm) : SameTree fs (f_readdir dir fs).2 := by
  refine call_sameTree ?_
  intro a t hact
  exact (Prod.mk.inj (Except.ok.inj hact)).2.symm

omit [DecidableEq N] in
theorem resolve_ne_nil {cur : Loc N} (hcur : cur ≠ []) {segs : List Path}
    (h : resolve nm cur segs = some loc) : loc ≠ [] := by
  fun_induction resolve nm cur segs with
  | case1 cur => grind
  | case2 cur seg rest hdot ih => grind [dotTarget, up, length_dropLast, length_nil]
  | case3 => cases h
  | case4 cur seg rest hdot name hname ih => exact ih (by simp) h

omit [DecidableEq N] in
theorem denote_ne_nil {currVol : ℕ} (h : denote nm currVol path = some loc) : loc ≠ [] := by
  rw [denote] at h
  cases hdrive : getLdNumber currVol path with
  | none => grind
  | some drive =>
    rw [hdrive] at h
    exact resolve_ne_nil (by simp) h

omit [DecidableEq N] in
theorem spelling_name {l : Loc N} {k : Key N} (hl : l ≠ []) (sp : Spelling nm (l ++ [k])) :
    Proper sp.val ∧ ∃ name : Name nm, nm.name sp.val = some name ∧ k = .name name.key := by
  have hspells := sp.property
  rw [Spells, getLast?_concat] at hspells
  cases k with
  | drive d =>
    have hlong : 0 < l.length := length_pos_of_ne_nil hl
    simp only [length_append, length_singleton] at hspells
    omega
  | name n =>
    exact ⟨(nm.stored hspells).1, _, (⟨n, sp.val, hspells⟩ : Name nm).name_spelling, rfl⟩

omit [DecidableEq N] in
theorem spelling_proper {l : Loc N} {k : Key N} (hl : l ≠ []) (sp : Spelling nm (l ++ [k])) :
    Proper sp.val ∧ nm.name sp.val ≠ none := by
  obtain ⟨hproper, name, hname, -⟩ := spelling_name hl sp
  exact ⟨hproper, by rw [hname]; exact Option.some_ne_none _⟩

theorem nextEntry_name (t : Tree nm) (loc : Loc N) (ks : List (Key N)) :
    (nextEntry t loc ks).1.fname = [] ∨
      ∃ k node, k ∈ ks ∧ t.get (loc ++ [k]) = some node ∧
        (nextEntry t loc ks).1 = fileInfo Subtype.val node := by
  induction ks with
  | nil => exact .inl rfl
  | cons k rest ih => grind [nextEntry]

theorem f_readdir_ok (dir : Dir N) (fs : Fs nm) (info : FilInfo) (dir' : Dir N)
    (h : (f_readdir dir fs).1 = .ok (info, dir')) :
    dir' = { dir with remaining := (nextEntry fs.tree dir.loc dir.remaining).2 } ∧
      info = (nextEntry fs.tree dir.loc dir.remaining).1 := by
  rw [f_readdir] at h
  obtain ⟨-, ⟨res, hres, -, -⟩ | ⟨a, t, hact, hok, -⟩⟩ := call_cases fs (.ok
    (((nextEntry fs.tree dir.loc dir.remaining).1,
      { dir with remaining := (nextEntry fs.tree dir.loc dir.remaining).2 }), fs.tree))
  · grind
  · grind

theorem f_readdir_proper (dir : Dir N) (fs : Fs nm) (info : FilInfo) (dir' : Dir N)
    (hloc : dir.loc ≠ []) (h : (f_readdir dir fs).1 = .ok (info, dir')) (hname : info.fname ≠ []) :
    Proper info.fname ∧ nm.name info.fname ≠ none := by
  obtain ⟨-, rfl⟩ := f_readdir_ok dir fs info dir' h
  rcases nextEntry_name fs.tree dir.loc dir.remaining with hnil | ⟨k, node, -, -, heq⟩
  · grind
  · rw [heq]
    cases node with
    | dir label => exact spelling_proper hloc label
    | file label data => exact spelling_proper hloc label

theorem f_opendir_ok (path : Path) (fs : Fs nm) (dir : Dir N) (h : (f_opendir path fs).1 = .ok dir) :
    ∃ loc, denote nm fs.currVol path = some loc ∧ dir = ⟨loc, fs.tree.children loc⟩ := by
  obtain ⟨-, ⟨res, hres, -, -⟩ | ⟨a, t, hact, hok, -⟩⟩ := call_cases fs (fs.opendir path)
  · exact absurd (hres.symm.trans h) (by simp)
  · obtain rfl := Except.ok.inj (hok.symm.trans h)
    exact (opendir_ok hact).2

theorem f_opendir_loc (path : Path) (fs : Fs nm) (dir : Dir N) (h : (f_opendir path fs).1 = .ok dir) :
    dir.loc ≠ [] := by
  obtain ⟨loc, hdenote, rfl⟩ := f_opendir_ok path fs dir h
  exact denote_ne_nil hdenote

end Cloudpilot.Vfs
