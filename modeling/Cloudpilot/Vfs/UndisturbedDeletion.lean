import Cloudpilot.Vfs.DeleteRecursive

/-! # Deletions that nothing disturbs

If no call fails for a reason of its own, a path is followed as the tree says. A path that does
not run through what it leads to is followed in the same way for as long as something is there,
and a deletion that starts from it comes to its end.
-/
namespace Cloudpilot.Vfs

open Library List

variable {N : Type} [DecidableEq N] {nm : Naming N} {fs fs' : Fs nm} {path p : Path} {loc : Loc N}

/-- No call fails for a reason of its own. -/
def FaultFree (fs : Fs nm) : Prop := ∀ n res, fs.outcomes n ≠ some (.error res)

theorem FaultFree.congr (h : FaultFree fs) (hrun : fs'.outcomes = fs.outcomes) : FaultFree fs' := by
  rwa [FaultFree, hrun]

theorem FaultFree.call {α : Type} (h : FaultFree fs) (act : Except FResult (α × Tree nm)) :
    (fs.call act).1 = act.map Prod.fst ∧
      (fs.call act).2.tree = match act with
        | .ok (_, t) => t
        | .error _ => fs.tree := by
  unfold Fs.call
  split
  · rename_i res hfault
    exact absurd hfault (h _ res)
  · cases act with
    | error res => exact ⟨rfl, rfl⟩
    | ok done => exact ⟨rfl, rfl⟩

theorem FaultFree.f_stat (h : FaultFree fs) (path : Path) : (f_stat path fs).1 = fs.stat path := by
  rw [Vfs.f_stat, (h.call _).1]
  cases fs.stat path <;> rfl

theorem f_stat_found (h : FaultFree fs) (hfollow : fs.follow path = .ok (.found loc)) :
    (f_stat path fs).1.isOk = true := by
  have hget := follow_matches hfollow
  obtain ⟨node, hnode⟩ := Option.ne_none_iff_exists'.mp hget
  rw [h.f_stat, Fs.stat, hfollow]
  simp only [hnode]
  rfl

theorem f_opendir_found (h : FaultFree fs) (hfollow : fs.follow path = .ok (.found loc))
    (hdir : fs.tree.isDir loc = true) : (f_opendir path fs).1.isOk = true := by
  rw [f_opendir, (h.call _).1, Fs.opendir, hfollow]
  simp only [hdir, if_true]
  rfl

theorem f_readdir_isOk (h : FaultFree fs) (dir : Dir N) : (f_readdir dir fs).1.isOk = true := by
  rw [f_readdir, (h.call _).1]
  rfl

theorem unlinkSucceeds_found (h : FaultFree fs) (hfollow : fs.follow path = .ok (.found loc)) :
    unlinkSucceeds path fs = true := by
  have hrecord : FaultFree (fs.record .unlink path) := h
  rw [unlinkSucceeds, f_unlink, (hrecord.call _).1, Fs.unlink, hfollow]
  by_cases hempty : fs.tree.children loc = []
  · simp [hempty, Except.map, Except.isOk, Except.toBool]
  · simp [hempty]

theorem follow_of_no_colon (h : ':' ∉ visible p) :
    fs.follow p = if fs.tree.isDir [.drive fs.currVol] then
      followPath fs.tree [.drive fs.currVol] (segments (visible p)) else .error .notEnabled := by
  have hdrive : getLdNumber fs.currVol p = some (fs.currVol, p) := by
    exact if_neg h
  rw [Fs.follow, hdrive]

theorem follow_congr {q : Path} (h : ':' ∉ visible p) (hq : ':' ∉ visible q)
    (hsegments : segments (visible q) = segments (visible p)) : fs.follow q = fs.follow p := by
  rw [follow_of_no_colon h, follow_of_no_colon hq, hsegments]

theorem follow_normalizePath (h : ':' ∉ visible p) : fs.follow (normalizePath p) = fs.follow p :=
  follow_congr h (mt (colon_mem_normalizePath p).mp h) (segments_visible_normalizePath p)

theorem follow_slash (h : ':' ∉ visible p) : fs.follow ('/' :: p) = fs.follow p := by
  have hcons : visible ('/' :: p) = '/' :: visible p := rfl
  refine follow_congr h ?_ (by rw [hcons]; rfl)
  rwa [hcons, mem_cons, or_iff_right (by decide)]

theorem follow_amputatePrefix {it : RecursiveFsIterator N} {rest : Path} (hslash : it.pathPrefix = ['/'])
    (h : ':' ∉ visible rest) :
    fs.follow (it.amputatePrefix ('/' :: rest)) = fs.follow ('/' :: rest) := by
  obtain ⟨more, hmore⟩ := normalizePath_rooted rest
  rw [RecursiveFsIterator.amputatePrefix, hslash, hmore, find_slash]
  simp only [Nat.zero_add]
  split
  · rfl
  · have hdrop : ('/' :: rest).drop ['/'].length = rest := rfl
    rw [hdrop, follow_normalizePath h, follow_slash h]

theorem no_colon_of_follow {r : Followed nm} (h : fs.follow ('/' :: p) = .ok r) :
    ':' ∉ visible p := fun hmem =>
  no_colon_of_denote (follow_denote h) (List.mem_cons_of_mem _ hmem)

/-- The segments lead to the place by directories that are neither the place nor below it. -/
def Approaches (nm : Naming N) (loc : Loc N) : Loc N → List Path → Prop
  | _, [] => False
  | cur, seg :: rest =>
    if isDot seg then rest ≠ [] ∧ ¬ loc <+: dotTarget cur seg ∧ Approaches nm loc (dotTarget cur seg) rest
    else match nm.name seg with
      | none => False
      | some name =>
        if rest = [] then cur ++ [.name name.key] = loc
        else ¬ loc <+: cur ++ [.name name.key] ∧ Approaches nm loc (cur ++ [.name name.key]) rest

def SameElsewhere (loc : Loc N) (t t' : Tree nm) : Prop := ∀ m, ¬ loc <+: m → t'.get m = t.get m

theorem SameElsewhere.isDir {t t' : Tree nm} (h : SameElsewhere loc t t') {m : Loc N} (hm : ¬ loc <+: m) :
    t'.isDir m = t.isDir m := isDir_congr (h m hm)

theorem Approaches.followPath {t : Tree nm} {cur : Loc N} {segs : List Path} {r : Followed nm}
    (h : Approaches nm loc cur segs) (hfollow : followPath t cur segs = .ok r) :
    ∃ l name, loc = l ++ [.name name.key] ∧ ∀ t', SameElsewhere loc t t' →
      Vfs.followPath t' cur segs =
        .ok (if t'.get loc = none then .missing l name else .found loc) := by
  fun_induction Vfs.followPath t cur segs with
  | case1 cur => exact absurd h id
  | case2 cur seg hdot => grind [Approaches]
  | case3 cur seg rest hdot hlast ih => grind [Approaches, Vfs.followPath]
  | case5 cur seg hdot name hname =>
    simp only [Approaches, if_neg hdot, hname, if_true] at h
    subst h
    refine ⟨cur, name, rfl, fun t' _ => ?_⟩
    simp [Vfs.followPath, if_neg hdot, hname]
  | case6 cur seg rest hdot name hname hlast hdir ih =>
    simp only [Approaches, if_neg hdot, hname, if_neg hlast] at h
    obtain ⟨l, last, hloc, hsame⟩ := ih h.2 hfollow
    refine ⟨l, last, hloc, fun t' ht' => ?_⟩
    simp only [Vfs.followPath, if_neg hdot, hname, if_neg hlast, (ht'.isDir h.1).trans hdir, if_true]
    exact hsame t' ht'
  | _ => cases hfollow

/-- If everything at and below the place is gone and the place is what is missing on the way,
then the way was past the place. -/
theorem approaches_of_missing {t : Tree nm} {cur l : Loc N} {segs : List Path} {name : Name nm}
    (hcur : t.isDir cur = true) (hgone : ∀ m, loc <+: m → t.get m = none)
    (hfollow : followPath t cur segs = .ok (.missing l name)) (hloc : l ++ [.name name.key] = loc) :
    Approaches nm loc cur segs := by
  have haway : ∀ m, t.isDir m = true → ¬ loc <+: m := fun m hm hbelow =>
    FileTree.get_of_isDir hm (hgone m hbelow)
  fun_induction followPath t cur segs with
  | case2 cur seg hdot => grind
  | case3 cur seg rest hdot hlast ih =>
    have hdir := dotTarget_isDir hcur seg
    rw [Approaches, if_pos hdot]
    exact ⟨hlast, haway _ hdir, ih hdir hfollow⟩
  | case5 cur seg hdot first hname =>
    simp only [Approaches, if_neg hdot, hname, if_true]
    have hkind := Except.ok.inj hfollow
    split at hkind
    · grind
    · cases hkind
  | case6 cur seg rest hdot first hname hlast hdir ih =>
    simp only [Approaches, if_neg hdot, hname, if_neg hlast]
    exact ⟨haway _ hdir, ih hdir hfollow⟩
  | _ => cases hfollow

theorem followPath_concat {t : Tree nm} {cur d : Loc N} {segs : List Path} {name : Path} {n : Name nm}
    (hfollow : followPath t cur segs = .ok (.found d)) (hdir : t.isDir d = true)
    (hdot : isDot name = false) (hn : nm.name name = some n)
    (hget : t.get (d ++ [.name n.key]) ≠ none) :
    followPath t cur (segs ++ [name]) = .ok (.found (d ++ [.name n.key])) := by
  have hmore : ∀ rest : List Path, rest ++ [name] ≠ [] := by simp
  fun_induction followPath t cur segs with
  | case2 cur seg hseg => grind
  | case3 cur seg rest hseg hlast ih => grind [cons_append, followPath]
  | case5 cur seg hseg first hname =>
    have hkind := Except.ok.inj hfollow
    split at hkind
    · cases hkind
    · obtain rfl := Followed.found.inj hkind
      simp [followPath, if_neg hseg, hname, hdir, hdot, hn, if_neg hget]
  | case6 cur seg rest hseg first hname hlast hfirst ih =>
    simp only [cons_append, followPath, if_neg hseg, hname, if_neg (hmore rest), hfirst, if_true]
    exact ih hfollow
  | _ => cases hfollow

theorem follow_joinPath {d : Loc N} {name : Path} {n : Name nm} (hname : Proper name)
    (hn : nm.name name = some n) (hself : visible ('/' :: p) = '/' :: p)
    (h : fs.follow ('/' :: p) = .ok (.found d)) (hget : fs.tree.get (d ++ [.name n.key]) ≠ none) :
    fs.follow (joinPath ('/' :: p) name) = .ok (.found (d ++ [.name n.key])) := by
  have hdenote := follow_denote h
  have hcolon := no_colon_of_denote hdenote
  have hjoined : ':' ∉ visible (joinPath ('/' :: p) name) :=
    no_colon_of_denote (denote_joinPath hname hn hself hdenote)
  have hdir : fs.tree.isDir d = true :=
    (FileTree.parent_isDir hget).resolve_left (denote_ne_nil hdenote)
  rw [follow_of_no_colon hcolon] at h
  rw [follow_of_no_colon hjoined, visible_joinPath hname hself, segments_joinPath,
    segments_plain hname.nonempty fun c hc => (hname.plain c hc).1]
  by_cases hdrive : fs.tree.isDir [.drive fs.currVol] = true
  · rw [if_pos hdrive] at h ⊢
    rw [hself] at h
    exact followPath_concat h hdir hname.notDot hn hget
  · grind

/-- What stands at the end of a path past a place, whatever becomes of the place. -/
theorem follow_past {r : Followed nm} (h : Approaches nm loc [.drive fs.currVol] (segments (visible p)))
    (hcolon : ':' ∉ visible p) (hfollow : fs.follow p = .ok r) :
    ∃ l name, loc = l ++ [.name name.key] ∧ ∀ fs' : Fs nm, fs'.currVol = fs.currVol →
      SameElsewhere loc fs.tree fs'.tree →
        fs'.follow p = .ok (if fs'.tree.get loc = none then .missing l name else .found loc) := by
  rw [follow_of_no_colon hcolon] at hfollow
  by_cases hdrive : fs.tree.isDir [.drive fs.currVol] = true
  · rw [if_pos hdrive] at hfollow
    obtain ⟨l, name, hloc, hsame⟩ := h.followPath hfollow
    refine ⟨l, name, hloc, fun fs' hvol helsewhere => ?_⟩
    have haway : ¬ loc <+: [.drive fs.currVol] := by
      rw [hloc]
      intro hprefix
      have hlength := hprefix.length_le
      simp only [length_append, length_singleton] at hlength
      obtain rfl : l = [] := length_eq_zero_iff.mp (by omega)
      simp at hprefix
    rw [follow_of_no_colon hcolon, hvol, helsewhere.isDir haway, if_pos hdrive]
    exact hsame fs'.tree helsewhere
  · grind

/-- A path that is followed to its place, whatever is gone at or below the deleted one. -/
structure Reaches (fs₀ : Fs nm) (loc : Loc N) (p : Path) (l : Loc N) : Prop where
  rooted : ∃ rest, p = '/' :: rest
  denotes : denote nm fs₀.currVol p = some l
  plain : visible p = p ∨ fs₀.tree.children l = []
  follows : ∀ fs : Fs nm, fs.currVol = fs₀.currVol → SameElsewhere loc fs₀.tree fs.tree →
    fs.tree.get l ≠ none → fs.follow p = .ok (.found l)

theorem Reaches.entry {fs₀ : Fs nm} {d : Loc N} {k : Key N} (h : Reaches fs₀ loc p d)
    (sp : Spelling nm (d ++ [k])) (hget : fs₀.tree.get (d ++ [k]) ≠ none) :
    sp.val ≠ [] ∧ Reaches fs₀ loc (joinPath p sp.val) (d ++ [k]) := by
  have hplain : visible p = p := h.plain.resolve_right fun hempty =>
    not_mem_nil (hempty ▸ FileTree.mem_children.mpr hget)
  have hd := denote_ne_nil h.denotes
  obtain ⟨hne, hrooted⟩ := Rooted.entry ⟨h.rooted, hplain, h.denotes⟩ hd sp
  refine ⟨hne, hrooted.rooted, hrooted.denotes, .inl hrooted.plain, ?_⟩
  intro fs hvol hsame hthere
  obtain ⟨rest, rfl⟩ := h.rooted
  obtain ⟨hproper, name, hname, rfl⟩ := spelling_name hd sp
  have hdir : fs.tree.isDir d = true := (FileTree.parent_isDir hthere).resolve_left hd
  exact follow_joinPath hproper hname hplain
    (h.follows fs hvol hsame (FileTree.get_of_isDir hdir)) hthere

theorem reaches_of_approaches {r : Followed nm} {rest : Path}
    (h : Approaches nm loc [.drive fs.currVol] (segments (visible ('/' :: rest))))
    (hfollow : fs.follow ('/' :: rest) = .ok r) (hdenote : denote nm fs.currVol ('/' :: rest) = some loc)
    (hplain : visible ('/' :: rest) = '/' :: rest ∨ fs.tree.children loc = []) :
    Reaches fs loc (normalizePath (joinPath ['/'] ('/' :: rest))) loc := by
  have hcolon := no_colon_of_denote hdenote
  have hone : ':' ∉ visible ('/' :: '/' :: rest) := fun hmem =>
    hcolon ((mem_cons.mp hmem).resolve_left (by decide))
  have htwo : ':' ∉ visible (joinPath ['/'] ('/' :: rest)) := fun hmem =>
    hone ((mem_cons.mp hmem).resolve_left (by decide))
  have hdirect : ∀ fs' : Fs nm,
      fs'.follow (normalizePath (joinPath ['/'] ('/' :: rest))) = fs'.follow ('/' :: rest) := by
    intro fs'
    have hjoin : joinPath ['/'] ('/' :: rest) = '/' :: '/' :: '/' :: rest := rfl
    rw [follow_normalizePath htwo, hjoin, follow_slash hone, follow_slash hcolon]
  obtain ⟨l, name, -, hpast⟩ := follow_past h hcolon hfollow
  refine ⟨normalizePath_rooted _, ?_, hplain.imp_left fun hself => ?_, ?_⟩
  · rw [follow_denote ((hdirect fs).trans hfollow), ← follow_denote hfollow, hdenote]
  · exact DeleteRecursiveContext.visible_normalizePath (congrArg (fun q => '/' :: '/' :: q) hself)
  · grind

def reachingRoutes (fs₀ : Fs nm) (loc : Loc N) : Routes nm fs₀.currVol fs₀.tree where
  pending := Reaches fs₀ loc
  met := Reaches fs₀ loc
  rooted h := h.rooted
  denotes h := h.denotes
  meets h hdenote := ⟨Option.some.inj (hdenote.symm.trans h.denotes), h⟩
  entry sp h hget := h.entry sp hget

theorem sameElsewhere_of_left {t t' : Tree nm} {s : Sweep (Key N)} (hs : s.Sound t [loc])
    (hleft : Left t s.removed t') : SameElsewhere loc t t' := by
  intro m hm
  refine hleft.get fun hmem => ?_
  obtain ⟨r, hr, hrm⟩ := hs.grown.below m (.inr hmem)
  rw [mem_singleton.mp hr] at hrm
  exact hm hrm

namespace RecursiveFsIterator

variable {it it' : RecursiveFsIterator N} {fs₀ : Fs nm} {s : Sweep (Key N)}

theorem Follows.roundSucceeds (h : it.Follows (reachingRoutes fs₀ loc) s) (hfree : FaultFree fs)
    (hvol : fs.currVol = fs₀.currVol) (hthere : fs₀.tree.get loc ≠ none)
    (hs : s.Sound fs₀.tree [loc]) (hleft : Left fs₀.tree s.removed fs.tree) :
    it.roundSucceeds fs = true := by
  have hsame := sameElsewhere_of_left hs hleft
  rw [RecursiveFsIterator.roundSucceeds]
  cases hlast : it.files.getLast? with
  | some path =>
    obtain ⟨ls, l, hpending, hreaches, -⟩ := forall₂_getLast h.files hlast
    obtain ⟨hroot, hunseen⟩ := hs.pending l (by rw [hpending]; simp)
    obtain rfl := mem_singleton.mp hroot
    have hget := hleft.get fun hmem => hunseen l (.inr hmem) (prefix_refl l)
    exact f_stat_found hfree (hreaches.follows fs hvol hsame (hget ▸ hthere))
  | none =>
    by_cases hscan : it.scanning = true
    · rw [if_pos hscan]
      exact f_readdir_isOk hfree it.dir
    · rw [if_neg hscan]
      by_cases hcleanup : it.cleanup = true
      · grind
      · by_cases hend : it.directoryIndex ≥ it.directories.length
        · simp [hend]
        · have hcleanup' : s.cleanup = false := h.cleanup ▸ Bool.eq_false_iff.mpr hcleanup
          rw [h.scanning, Option.isSome_iff_ne_none, not_not] at hscan
          have hlt : s.scanned.length < s.directories.length := by
            rw [← h.directories.length_eq, ← h.index hcleanup']
            exact not_le.mp hend
          cases hwaiting : s.waiting with
          | nil =>
            simp [Sweep.directories, hscan, hwaiting] at hlt
          | cons d ls =>
            have hdirectories : s.directories = s.scanned ++ d :: ls := by
              simp [Sweep.directories, hscan, hwaiting]
            have hmem : d ∈ s.directories := by grind
            have hreaches := h.directory hcleanup' hdirectories
            have hget := hleft.get fun hremoved => hs.apart d hremoved hmem
            have hdir := hs.isDir d hmem
            have hfollow := hreaches.follows fs hvol hsame (hget ▸ FileTree.get_of_isDir hdir)
            have hopen := f_opendir_found hfree hfollow ((isDir_congr hget).trans hdir)
            simp [hopen]

theorem Follows.loopSucceeds {rounds : ℕ} (h : it.Follows (reachingRoutes fs₀ loc) s)
    (hfree : FaultFree fs) (hvol : fs.currVol = fs₀.currVol) (hthere : fs₀.tree.get loc ≠ none)
    (hs : s.Sound fs₀.tree [loc]) (hleft : Left fs₀.tree s.removed fs.tree) :
    loopSucceeds (fun _ => false) rounds it fs = true := by
  have hroots : Separate [loc] := pairwise_singleton _ _
  induction rounds generalizing it fs s with
  | zero => rfl
  | succ rounds ih =>
    have hround := h.roundSucceeds hfree hvol hthere hs hleft
    have hturned := h.round hvol hs hleft hround
    have hsame := round_sameTree (fun _ => false) it fs
    rw [RecursiveFsIterator.loopSucceeds, hround, Bool.true_and]
    cases hresult : it.round (fun _ => false) fs with
    | mk go rest =>
      obtain ⟨it₁, fs₁⟩ := rest
      rw [hresult] at hturned hsame
      cases hturned with
      | looks hlooks hfollows hstate =>
        exact ih hfollows (hfree.congr hsame.outcomes) (hsame.currVol.trans hvol)
          (hs.looks hroots hlooks) (by rw [hlooks.removed, hsame.tree]; exact hleft)
      | yields hdrops hfollows hstate hentry => rfl
      | done hcleanup hscanned hfollows hstate => rfl

end RecursiveFsIterator

namespace DeleteRecursiveContext

open RecursiveFsIterator

variable {d d' : DeleteRecursiveContext N} {fs₀ : Fs nm} {s : Sweep (Key N)}

theorem Deletes.stepSucceeds {rounds : ℕ} (h : Deletes fs₀ (reachingRoutes fs₀ loc) [loc] d fs s)
    (hfree : FaultFree fs) (hthere : fs₀.tree.get loc ≠ none) (hrounds : s.weight fs₀.tree < rounds) :
    d.stepSucceeds rounds fs = true := by
  obtain ⟨-, hfollows⟩ := h.follows.activate h.state
  have hnextOk : d.iterator.nextSucceeds (fun _ => false) rounds fs = true := by
    rw [nextSucceeds, hfollows.loopSucceeds hfree h.currVol hthere h.sound h.left, Bool.or_true]
  obtain ⟨it, fs₁, hnext, hsame, hstops⟩ := h.follows.next (pairwise_singleton _ _) h.currVol
    h.sound h.left h.state hrounds hnextOk
  rw [DeleteRecursiveContext.stepSucceeds, hnextOk, hnext, Bool.true_and]
  simp only
  cases hstops with
  | done hsound hremoved hcleanup hscanned hstate =>
    simp [DeleteRecursiveContext.more, hstate]
  | @yields l s₁ hsound hfollows hremoved hbelow hless hstate hentry =>
    obtain ⟨path, hreaches, heq⟩ := hentry
    have hpairs := hsound.removed
    rw [hremoved, pairwise_cons] at hpairs
    have hmem : l ∈ s₁.removed := by grind
    have hunremoved : l ∉ s.removed := fun hl => hpairs.1 l hl (prefix_refl l)
    have hget : fs₁.tree.get l ≠ none := by
      rw [hsame.tree, h.left.get hunremoved]
      exact hsound.grown.there l (.inr hmem)
    have hfollow := hreaches.follows fs₁ (hsame.currVol.trans h.currVol)
      (hsame.tree ▸ sameElsewhere_of_left h.sound h.left) hget
    have hcalls : FaultFree fs₁ := hfree.congr hsame.outcomes
    obtain ⟨rest, rfl⟩ := hreaches.rooted
    rw [heq, unlinkSucceeds_found hcalls
      ((follow_amputatePrefix hfollows.pathPrefix (no_colon_of_follow hfollow)).trans hfollow),
      Bool.or_true]

theorem executeStep_outcomes {rounds : ℕ} (hstep : d.executeStep rounds fs = some (d', fs')) :
    fs'.outcomes = fs.outcomes := by
  rw [executeStep] at hstep
  cases hnext : d.iterator.next (fun _ => false) rounds fs with
  | none => grind
  | some yielded =>
    obtain ⟨it, fs₁⟩ := yielded
    have hsame := next_sameTree hnext
    rw [hnext] at hstep
    simp only [Option.bind_eq_bind, Option.bind_some] at hstep
    by_cases hmore : ({ d with iterator := it } : DeleteRecursiveContext N).more = true
    · obtain ⟨hrun, -⟩ := f_unlink_cases it.currentEntry fs₁
      rw [hmore] at hstep
      cases hcall : f_unlink it.currentEntry fs₁ with
      | mk res fs₂ =>
        rw [hcall] at hstep hrun
        cases res <;>
        · cases hstep
          exact hrun.outcomes.trans hsame.outcomes
    · rw [Bool.eq_false_iff.mpr hmore] at hstep
      cases hstep
      exact hsame.outcomes

theorem executeSteps_outcomes {rounds steps : ℕ} (hsteps : executeSteps rounds steps d fs = some (d', fs')) :
    fs'.outcomes = fs.outcomes := by
  induction steps generalizing d fs with
  | zero =>
    cases hsteps
    rfl
  | succ steps ih =>
    rw [executeSteps] at hsteps
    split at hsteps
    · obtain ⟨⟨d₁, fs₁⟩, hstep, hrest⟩ := Option.bind_eq_some_iff.mp hsteps
      exact (ih hrest).trans (executeStep_outcomes hstep)
    · grind

theorem Deletes.stepsSucceed {rounds steps : ℕ}
    (h : Deletes fs₀ (reachingRoutes fs₀ loc) [loc] d fs s) (hfree : FaultFree fs)
    (hthere : fs₀.tree.get loc ≠ none) (hrounds : s.weight fs₀.tree < rounds) :
    stepsSucceed rounds steps d fs = true := by
  induction steps generalizing d fs s with
  | zero => rfl
  | succ steps ih =>
    have hstep := h.stepSucceeds hfree hthere hrounds
    obtain ⟨d₁, fs₁, hexecute, hcase⟩ :=
      h.executeStep (pairwise_singleton _ _) hrounds hstep
    rw [DeleteRecursiveContext.stepsSucceed, h.more, hstep, hexecute, Bool.not_true, Bool.false_or,
      Bool.true_and]
    simp only
    rcases hcase with ⟨-, s₁, h₁, hless⟩ | ⟨hdone, -⟩
    · exact ih h₁ (hfree.congr (executeStep_outcomes hexecute)) (hless.trans hrounds)
    · cases steps with
      | zero => rfl
      | succ steps =>
        rw [DeleteRecursiveContext.stepsSucceed, Bool.eq_false_iff.mpr (not_more_of_done hdone),
          Bool.not_false, Bool.true_or]

theorem addFile_deletes {r : Followed nm} {rest : Path}
    (h : Approaches nm loc [.drive fs.currVol] (segments (visible ('/' :: rest))))
    (hfollow : fs.follow ('/' :: rest) = .ok r) (hdenote : denote nm fs.currVol ('/' :: rest) = some loc)
    (hplain : visible ('/' :: rest) = '/' :: rest ∨ fs.tree.children loc = []) :
    Deletes fs (reachingRoutes fs loc) [loc] (create.addFile ('/' :: rest)) fs (.start [loc]) := by
  refine ⟨rfl, .inl rfl, rfl, Sweep.sound_start (pairwise_singleton _ _), ?_, fun m => rfl, [],
    rfl, .nil⟩
  exact ⟨rfl, .cons (reaches_of_approaches h hfollow hdenote hplain) .nil, .nil, rfl, nofun, rfl,
    fun _ => rfl⟩

theorem Deletes.continueBatches {rounds batches : ℕ}
    (h : Deletes fs₀ (reachingRoutes fs₀ loc) [loc] d fs s) (hfree : FaultFree fs)
    (hthere : fs₀.tree.get loc ≠ none) (hrounds : s.weight fs₀.tree < rounds) (hbatches : 0 < batches) :
    ∃ d' fs', d.continueBatches rounds batches fs = some (d', fs') ∧ FaultFree fs' ∧
      ((d'.getState = .more ∧ ∃ s', Deletes fs₀ (reachingRoutes fs₀ loc) [loc] d' fs' s' ∧
          s'.weight fs₀.tree < s.weight fs₀.tree) ∨
        d'.getState = .done ∧ DeletesExactly [loc] fs₀ fs') := by
  have hsteps : 0 < batches * batchSize := Nat.mul_pos hbatches (by decide)
  obtain ⟨d', fs', hexecute, hcase⟩ := h.executeSteps (pairwise_singleton _ _) hrounds
    (h.stepsSucceed hfree hthere hrounds)
  refine ⟨d', fs', hexecute, hfree.congr (executeSteps_outcomes hexecute), hcase.imp_left ?_⟩
  rintro ⟨hvalid, s', h', hle⟩
  refine ⟨?_, s', h', by omega⟩
  simp [getState, h'.failed, hvalid hsteps]

end DeleteRecursiveContext

end Cloudpilot.Vfs
