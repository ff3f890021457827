import Mathlib.Data.List.Basic
import Mathlib.Data.List.TakeWhile
import Mathlib.Tactic

/-! # Path strings

Paths are strings of bytes. The segments of a path are what stands between its separators;
normalizing a path changes the separators only.
-/

namespace Cloudpilot.Vfs

open List

abbrev Path := List Char

def isSeparator (c : Char) : Bool := c = '/' ∨ c = '\\'

/-- Drop the separators that follow one, and turn the others into slashes. -/
def collapse : Bool → Path → Path
  | _, [] => []
  | slashes, c :: rest =>
    if isSeparator c then
      if slashes then collapse true rest else '/' :: collapse true rest
    else c :: collapse false rest

/-- A path without a colon in second place starts with a slash. -/
def normalizePath (path : Path) : Path :=
  if path.length < 2 ∨ path[1]? ≠ some ':' then '/' :: collapse true path else collapse false path

/-- Everything up to the last slash. -/
def dirname (path : Path) : Path :=
  match path.reverse.dropWhile (· ≠ '/') with
  | [] => ['/']
  | rest => rest.reverse

/-- `a + "/" + b` -/
def joinPath (a b : Path) : Path := a ++ '/' :: b

def isParentOf (parent child : Path) : Bool :=
  parent.isPrefixOf child && (child.length = parent.length ∨ child[parent.length]? = some '/')

def emitSegment (acc : Path) : List Path := if acc = [] then [] else [acc]

def segmentsFrom : Path → Path → List Path
  | acc, [] => emitSegment acc
  | acc, c :: rest =>
    if isSeparator c then emitSegment acc ++ segmentsFrom [] rest else segmentsFrom (acc ++ [c]) rest

/-- The nonempty strings between the separators. -/
def segments (path : Path) : List Path := segmentsFrom [] path

theorem segmentsFrom_collapse {slashes : Bool} {acc : Path} (h : slashes = true → acc = []) (path : Path) :
    segmentsFrom acc (collapse slashes path) = segmentsFrom acc path := by
  induction path generalizing slashes acc with
  | nil => rfl
  | cons c rest ih =>
    rw [collapse, segmentsFrom]
    by_cases hc : isSeparator c = true
    · rw [if_pos hc, if_pos hc]
      cases slashes with
      | true =>
        rw [if_pos rfl, h rfl, ih (fun _ => rfl)]
        rfl
      | false =>
        have hslash : isSeparator '/' = true := rfl
        rw [if_neg (by decide), segmentsFrom, if_pos hslash, ih (fun _ => rfl)]
    · grind [segmentsFrom]

theorem segmentsFrom_append {c : Char} (hc : isSeparator c = true) (acc a b : Path) :
    segmentsFrom acc (a ++ c :: b) = segmentsFrom acc a ++ segments b := by
  induction a generalizing acc with
  | nil =>
    rw [nil_append, segmentsFrom.eq_2, if_pos hc]
    rfl
  | cons d rest ih => grind [cons_append, segmentsFrom.eq_2]

theorem segments_joinPath (a b : Path) : segments (joinPath a b) = segments a ++ segments b :=
  segmentsFrom_append rfl [] a b

theorem segmentsFrom_plain {acc path : Path} (hacc : acc ++ path ≠ [])
    (h : ∀ c ∈ path, isSeparator c = false) : segmentsFrom acc path = [acc ++ path] := by
  induction path generalizing acc with
  | nil => grind [append_nil, segmentsFrom, emitSegment]
  | cons c rest ih =>
    have hc : ¬ isSeparator c = true := by grind
    rw [segmentsFrom, if_neg hc, ih (by simp) (fun d hd => h d (mem_cons_of_mem c hd)),
      append_assoc]
    rfl

theorem segments_plain {path : Path} (hne : path ≠ []) (h : ∀ c ∈ path, isSeparator c = false) :
    segments path = [path] := by
  rw [segments, segmentsFrom_plain (by simpa using hne) h, nil_append]

theorem dirname_spec (path : Path) : dirname path = ['/'] ∨
    ∃ q last, dirname path = q ++ ['/'] ∧ path = q ++ '/' :: last := by
  have hsplit := takeWhile_append_dropWhile (p := fun c : Char => decide (c ≠ '/'))
    (l := path.reverse)
  rw [dirname]
  cases hdrop : path.reverse.dropWhile (fun c => decide (c ≠ '/')) with
  | nil => exact .inl rfl
  | cons c cs =>
    right
    have hslash : c = '/' := by
      have hhead := head_dropWhile_not (fun c : Char => decide (c ≠ '/'))
        (l := path.reverse) (by rw [hdrop]; exact cons_ne_nil c cs)
      simp only [hdrop, head_cons] at hhead
      simpa using hhead
    subst hslash
    rw [hdrop] at hsplit
    have hrev := congrArg reverse hsplit
    rw [reverse_reverse, reverse_append, reverse_cons, append_assoc] at hrev
    exact ⟨cs.reverse, _, reverse_cons, hrev.symm⟩

/-- The part of a C string before the first terminator. -/
def visible (path : Path) : Path := path.takeWhile (' ' ≤ ·)

/-- The drive a path is about and the rest of the path. -/
def getLdNumber (currVol : ℕ) (path : Path) : Option (ℕ × Path) :=
  if ':' ∈ visible path then
    match path with
    | '0' :: ':' :: rest => some (0, rest)
    | '1' :: ':' :: rest => some (1, rest)
    | _ => none
  else some (currVol, path)

def isDot (seg : Path) : Bool := seg = ['.'] ∨ seg = ['.', '.']

/-- A name that is one plain segment of a path. -/
structure Proper (name : Path) : Prop where
  nonempty : name ≠ []
  plain : ∀ c ∈ name, isSeparator c = false ∧ c ≠ ':' ∧ ' ' ≤ c
  notDot : isDot name = false

/-- How FatFs reads names: the key under which a name is found, and the spelling with which a
new entry of that name is stored. Invalid names have neither. -/
structure Naming (N : Type) where
  createName : Path → Option (N × Path)
  stored : ∀ {seg n sp}, createName seg = some (n, sp) → Proper sp ∧ createName sp = some (n, sp)

variable {N : Type}

/-- An entry's name as it is stored. -/
structure Name (nm : Naming N) where
  key : N
  spelling : Path
  fixed : nm.createName spelling = some (key, spelling)

def Naming.name (nm : Naming N) (seg : Path) : Option (Name nm) :=
  match h : nm.createName seg with
  | none => none
  | some (key, spelling) => some ⟨key, spelling, (nm.stored h).2⟩

theorem Name.name_spelling {nm : Naming N} (name : Name nm) : nm.name name.spelling = some name := by
  rw [Naming.name]
  split
  · grind [name.fixed]
  · rename_i key spelling hsome
    rw [name.fixed] at hsome
    obtain ⟨rfl, rfl⟩ : name.key = key ∧ name.spelling = spelling := by simpa using hsome
    rfl

inductive Key (N : Type) where
  | drive (d : ℕ)
  | name (n : N)
deriving DecidableEq

/-- A place in the file tree: a drive, and the names from its root down. -/
abbrev Loc (N : Type) := List (Key N)

def up (cur : Loc N) : Loc N := if cur.length ≤ 1 then cur else cur.dropLast

/-- Where a dot segment leads. -/
def dotTarget (cur : Loc N) (seg : Path) : Loc N := if seg = ['.'] then cur else up cur

/-- The place that segments lead to, whether something is there or not. -/
def resolve (nm : Naming N) : Loc N → List Path → Option (Loc N)
  | cur, [] => some cur
  | cur, seg :: rest =>
    if isDot seg then resolve nm (dotTarget cur seg) rest
    else match nm.name seg with
      | none => none
      | some name => resolve nm (cur ++ [.name name.key]) rest

def denote (nm : Naming N) (currVol : ℕ) (path : Path) : Option (Loc N) :=
  match getLdNumber currVol path with
  | none => none
  | some (d, rest) => resolve nm [.drive d] (segments (visible rest))

variable {nm : Naming N} {currVol : ℕ} {cur loc : Loc N} {p q : Path}

theorem resolve_append (segs more : List Path) :
    resolve nm cur (segs ++ more) = (resolve nm cur segs).bind (resolve nm · more) := by
  induction segs generalizing cur with
  | nil => rfl
  | cons seg segs ih => grind [cons_append, resolve]

theorem visible_collapse (slashes : Bool) (path : Path) :
    visible (collapse slashes path) = collapse slashes (visible path) := by
  induction path generalizing slashes with
  | nil => rfl
  | cons c rest ih =>
    rw [collapse]
    by_cases hsep : isSeparator c = true
    · have hc : ' ' ≤ c := by
        rcases of_decide_eq_true hsep with rfl | rfl <;> decide
      have hcons : visible (c :: rest) = c :: visible rest := by
        grind [visible, takeWhile_cons]
      rw [if_pos hsep, hcons, collapse, if_pos hsep]
      cases slashes with
      | true => rw [if_pos rfl, if_pos rfl, ih]
      | false =>
        rw [if_neg (by decide), if_neg (by decide), ← ih]
        rfl
    · grind [visible, takeWhile_cons, collapse]

theorem mem_collapse {c : Char} (hc : isSeparator c = false) (slashes : Bool) (path : Path) :
    c ∈ collapse slashes path ↔ c ∈ path := by
  have hslash : c ≠ '/' := by
    rintro rfl
    cases hc
  induction path generalizing slashes with
  | nil => rfl
  | cons d rest ih =>
    rw [collapse]
    by_cases hd : isSeparator d = true <;> grind

theorem segments_visible_normalizePath (path : Path) :
    segments (visible (normalizePath path)) = segments (visible path) := by
  rw [normalizePath]
  split
  · have hcons : visible ('/' :: collapse true path) = '/' :: visible (collapse true path) := rfl
    rw [hcons, visible_collapse]
    exact segmentsFrom_collapse (fun _ => rfl) (visible path)
  · rw [visible_collapse]
    exact segmentsFrom_collapse (fun h => absurd h (by decide)) (visible path)

theorem colon_mem_normalizePath (path : Path) :
    ':' ∈ visible (normalizePath path) ↔ ':' ∈ visible path := by
  rw [normalizePath]
  split
  · have hcons : visible ('/' :: collapse true path) = '/' :: visible (collapse true path) := rfl
    rw [hcons, visible_collapse, mem_cons, or_iff_right (by decide), mem_collapse rfl]
  · rw [visible_collapse, mem_collapse rfl]

theorem denote_of_no_colon (h : ':' ∉ visible p) :
    denote nm currVol p = resolve nm [.drive currVol] (segments (visible p)) := by
  have hdrive : getLdNumber currVol p = some (currVol, p) := by
    exact if_neg h
  rw [denote, hdrive]

theorem denote_normalizePath (h : ':' ∉ visible p) :
    denote nm currVol (normalizePath p) = denote nm currVol p := by
  rw [denote_of_no_colon h, denote_of_no_colon (mt (colon_mem_normalizePath p).mp h),
    segments_visible_normalizePath]

theorem no_colon_of_denote (h : denote nm currVol ('/' :: p) = some loc) : ':' ∉ visible ('/' :: p) := by
  intro hcolon
  have hdrive : getLdNumber currVol ('/' :: p) = none := by grind [getLdNumber]
  rw [denote, hdrive] at h
  cases h

theorem denote_slash (h : ':' ∉ visible p) :
    denote nm currVol ('/' :: p) = denote nm currVol p := by
  have hcons : visible ('/' :: p) = '/' :: visible p := rfl
  have hcolon : ':' ∉ visible ('/' :: p) := by grind
  rw [denote_of_no_colon h, denote_of_no_colon hcolon, hcons]
  rfl

theorem denote_rooted (h : denote nm currVol (normalizePath ('/' :: '/' :: p)) = some loc) :
    denote nm currVol p = some loc := by
  have hrooted : normalizePath ('/' :: '/' :: p) = '/' :: collapse true p := by
    rfl
  have hcolon : ':' ∉ visible p := by
    rw [hrooted] at h
    have hnone := no_colon_of_denote h
    rw [← hrooted, colon_mem_normalizePath] at hnone
    exact fun hmem => hnone (mem_cons_of_mem _ (mem_cons_of_mem _ hmem))
  have hone : ':' ∉ visible ('/' :: p) := fun hmem =>
    hcolon ((mem_cons.mp hmem).resolve_left (by decide))
  have htwo : ':' ∉ visible ('/' :: '/' :: p) := fun hmem =>
    hone ((mem_cons.mp hmem).resolve_left (by decide))
  rwa [denote_normalizePath htwo, denote_slash hone, denote_slash hcolon] at h

theorem visible_joinPath {name : Path} (hname : Proper name) (hself : visible p = p) :
    visible (joinPath p name) = joinPath p name := by
  rw [visible, takeWhile_eq_self_iff] at hself ⊢
  intro c hc
  rcases mem_append.mp hc with hc | hc
  · grind
  · rcases mem_cons.mp hc with rfl | hc
    · decide
    · exact decide_eq_true (hname.plain c hc).2.2

theorem visible_append (hcut : visible p ≠ p) (more : Path) : visible (p ++ more) = visible p := by
  rw [visible, takeWhile_append, if_neg]
  · rfl
  · exact fun hlength => hcut (( takeWhile_prefix _).eq_of_length hlength)

theorem denote_joinPath {name : Path} {n : Name nm} (hname : Proper name) (hn : nm.name name = some n)
    (hself : visible ('/' :: p) = '/' :: p) (h : denote nm currVol ('/' :: p) = some loc) :
    denote nm currVol (joinPath ('/' :: p) name) = some (loc ++ [.name n.key]) := by
  have hcolon := no_colon_of_denote h
  rw [denote_of_no_colon hcolon, hself] at h
  have happend := visible_joinPath hname hself
  have hfree : ':' ∉ visible (joinPath ('/' :: p) name) := by
    rw [happend]
    intro hmem
    rcases mem_append.mp hmem with hmem | hmem
    · grind
    · rcases mem_cons.mp hmem with heq | hmem
      · grind
      · exact (hname.plain _ hmem).2.1 rfl
  rw [denote_of_no_colon hfree, happend, segments_joinPath,
    segments_plain hname.nonempty fun c hc => (hname.plain c hc).1, resolve_append, h]
  simp only [Option.bind_some, resolve, hname.notDot, hn]
  rfl

theorem denote_child {name : Path} (hname : Proper name) (hsome : nm.name name ≠ none)
    (h : denote nm currVol ('/' :: p) = some loc) :
    ∃ below, denote nm currVol ('/' :: p ++ '/' :: name) = some (loc ++ below) := by
  by_cases hself : visible ('/' :: p) = '/' :: p
  · obtain ⟨n, hn⟩ := Option.ne_none_iff_exists'.mp hsome
    exact ⟨[.name n.key], denote_joinPath hname hn hself h⟩
  · have hcut := visible_append hself ('/' :: name)
    have hcolon := no_colon_of_denote h
    rw [denote_of_no_colon hcolon] at h
    refine ⟨[], ?_⟩
    rw [denote_of_no_colon (hcut ▸ hcolon), hcut, h, append_nil]

theorem collapse_collapse {slashes slashes' : Bool} (h : slashes' = true → slashes = true)
    (path : Path) : collapse slashes' (collapse slashes path) = collapse slashes path := by
  induction path generalizing slashes slashes' with
  | nil => rfl
  | cons c rest ih =>
    by_cases hc : isSeparator c
    · cases slashes with
      | true => rw [collapse, if_pos hc, if_pos rfl, ih h]
      | false =>
        obtain rfl : slashes' = false := by grind
        rw [collapse, if_pos hc, if_neg Bool.false_ne_true, collapse, if_pos (by decide),
          if_neg Bool.false_ne_true, ih id]
    · rw [collapse, if_neg hc, collapse, if_neg hc, ih id]

/-- A path with a slash or a drive in front, and single slashes between its segments. -/
def IsNormal (path : Path) : Prop :=
  path.IsChain (fun a b => ¬(a = '/' ∧ b = '/')) ∧ '\\' ∉ path ∧
    (path[0]? = some '/' ∨ path[1]? = some ':')

theorem length_collapse_le (slashes : Bool) (path : Path) :
    (collapse slashes path).length ≤ path.length := by
  induction path generalizing slashes with
  | nil => rfl
  | cons c rest ih =>
    have htrue := ih true
    have hfalse := ih false
    rw [collapse]
    split_ifs <;> simp only [length_cons] <;> omega

theorem collapse_eq_self_iff (slashes : Bool) (path : Path) :
    collapse slashes path = path ↔
      (if slashes then '/' :: path else path).IsChain (fun a b => ¬(a = '/' ∧ b = '/')) ∧
        '\\' ∉ path := by
  induction path generalizing slashes with
  | nil => cases slashes <;> simp [collapse]
  | cons c rest ih =>
    rw [collapse]
    by_cases hc : isSeparator c
    · rw [if_pos hc]
      have hcases : c = '/' ∨ c = '\\' := of_decide_eq_true hc
      cases slashes with
      | true =>
        have hlength := length_collapse_le true rest
        refine iff_of_false (fun h => ?_) (fun h => ?_)
        · have := congrArg length h
          simp at this
          omega
        · rcases hcases with rfl | rfl <;> simp at h
      | false =>
        rcases hcases with rfl | rfl
        · simpa using ih true
        · simp
    · rw [if_neg hc, cons.injEq, and_iff_right rfl, ih]
      have hslash : c ≠ '/' := by
        rintro rfl
        exact hc rfl
      have hback : '\\' ≠ c := by
        rintro rfl
        exact hc rfl
      cases slashes <;> simp [hslash, hback, isChain_cons]

theorem normalizePath_eq_self_iff (path : Path) : normalizePath path = path ↔ IsNormal path := by
  rw [normalizePath]
  split_ifs with hdrive
  · rcases path with _ | ⟨c, rest⟩
    · simp [IsNormal]
    · have hnone : (c :: rest)[1]? ≠ some ':' := hdrive.elim (by rcases rest <;> simp) id
      rw [IsNormal, or_iff_left hnone, cons.injEq]
      by_cases hc : c = '/'
      · subst hc
        rw [collapse, if_pos (by decide), if_pos rfl, collapse_eq_self_iff]
        simp
      · simp [hc, Ne.symm hc]
  · have hcolon : path[1]? = some ':' := by_contra fun h => hdrive (.inr h)
    simp only [collapse_eq_self_iff, IsNormal, hcolon, or_true, and_true, Bool.false_eq_true,
      if_false]

theorem segments_normalizePath (path : Path) : segments (normalizePath path) = segments path := by
  rw [normalizePath]
  split_ifs
  · exact segmentsFrom_collapse (fun _ => rfl) path
  · exact segmentsFrom_collapse (fun h => absurd h (by decide)) path

theorem isNormal_normalizePath (path : Path) : IsNormal (normalizePath path) := by
  rw [normalizePath]
  split_ifs with hdrive
  · have h := (collapse_eq_self_iff true _).mp (collapse_collapse id path)
    exact ⟨h.1, by simpa using h.2, .inl rfl⟩
  · have h := (collapse_eq_self_iff false _).mp (collapse_collapse id path)
    refine ⟨h.1, h.2, .inr ?_⟩
    rcases path with _ | ⟨c, _ | ⟨d, rest⟩⟩
    · simp at hdrive
    · simp at hdrive
    · obtain rfl : d = ':' := by simpa using hdrive
      by_cases hc : isSeparator c <;> simp [collapse, hc, show isSeparator ':' = false by decide]

/-- Normalizing a path puts it into normal form without changing its segments, and leaves alone
exactly the paths in normal form. -/
theorem normalizePath_isNormal (path : Path) :
    IsNormal (normalizePath path) ∧ segments (normalizePath path) = segments path ∧
      (normalizePath path = path ↔ IsNormal path) :=
  ⟨isNormal_normalizePath path, segments_normalizePath path, normalizePath_eq_self_iff path⟩

end Cloudpilot.Vfs
