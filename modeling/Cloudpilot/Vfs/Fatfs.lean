import Mathlib.Data.List.DropRight
import Cloudpilot.Library.FileTree
import Cloudpilot.Vfs.Naming

/-! # FatFs as a file tree

The calls of FatFs follow a path through a file tree. A call answers what the tree says, or it
fails for a reason of its own (the card, the memory, the space) and has no effect. A write may
also stop before its end.
-/

namespace Cloudpilot.Vfs

open Library

section

inductive FResult where
  | diskErr | intErr | notReady | noFile | noPath | invalidName | denied | exist | invalidObject
  | writeProtected | invalidDrive | notEnabled | noFilesystem | mkfsAborted | timeout | locked
  | notEnoughCore | tooManyOpenFiles | invalidParameter
deriving DecidableEq

/-- What the tree itself decides. -/
def FResult.fromTree : FResult → Bool
  | noFile | noPath | invalidName | exist | invalidDrive => true
  | _ => false

inductive Fault where
  | error (res : {res : FResult // res.fromTree = false})
  | short (bytes : ℕ)

abbrev Bytes := List UInt8

variable {N : Type}

/-- The stored spelling of the name a place ends with; drives are nowhere but on top. -/
def Spells (nm : Naming N) (l : Loc N) (sp : Path) : Prop :=
  match l.getLast? with
  | some (.name n) => nm.createName sp = some (n, sp)
  | _ => l.length ≤ 1

abbrev Spelling (nm : Naming N) (l : Loc N) := {sp : Path // Spells nm l sp}

abbrev Tree [DecidableEq N] (nm : Naming N) := FileTree (Key N) (Spelling nm) Bytes

def Name.label {nm : Naming N} (name : Name nm) (l : Loc N) : Spelling nm (l ++ [.name name.key]) :=
  ⟨name.spelling, by
    rw [Spells, List.getLast?_concat]
    exact name.fixed⟩

inductive Access where
  | mkdir | openWrite | unlink
deriving DecidableEq

structure Change where
  access : Access
  path : Path
deriving DecidableEq

variable [DecidableEq N]

/-- The mounted volumes, the calls that will fail, and the changes asked for so far. -/
structure Fs (nm : Naming N) where
  tree : Tree nm
  currVol : ℕ
  outcomes : ℕ → Option Fault
  calls : ℕ
  changes : List Change

variable {nm : Naming N}

inductive Followed (nm : Naming N) where
  | origin (l : Loc N)
  | dotEntry (l : Loc N)
  | found (l : Loc N)
  | missing (l : Loc N) (name : Name nm)

def Followed.loc : Followed nm → Loc N
  | origin l => l
  | dotEntry l => l
  | found l => l
  | missing l name => l ++ [.name name.key]

def followPath (t : Tree nm) : Loc N → List Path → Except FResult (Followed nm)
  | cur, [] => .ok (.origin cur)
  | cur, seg :: rest =>
    if isDot seg then
      if rest = [] then
        .ok (if cur.length ≤ 1 then .origin (dotTarget cur seg) else .dotEntry (dotTarget cur seg))
      else followPath t (dotTarget cur seg) rest
    else match nm.name seg with
      | none => .error .invalidName
      | some name =>
        if rest = [] then
          .ok (if t.get (cur ++ [.name name.key]) = none then .missing cur name
            else .found (cur ++ [.name name.key]))
        else if t.isDir (cur ++ [.name name.key]) then followPath t (cur ++ [.name name.key]) rest
        else .error .noPath

def Fs.follow (fs : Fs nm) (path : Path) : Except FResult (Followed nm) :=
  match getLdNumber fs.currVol path with
  | none => .error .invalidDrive
  | some (d, rest) =>
    if fs.tree.isDir [.drive d] then followPath fs.tree [.drive d] (segments (visible rest))
    else .error .notEnabled

/-- One call: it fails if it is its turn to fail, and otherwise does what the tree says. -/
def Fs.call {α : Type} (fs : Fs nm) (act : Except FResult (α × Tree nm)) : Except FResult α × Fs nm :=
  let fs' := { fs with calls := fs.calls + 1 }
  match fs.outcomes fs.calls with
  | some (.error res) => (.error res, fs')
  | _ => match act with
    | .error res => (.error res, fs')
    | .ok (a, t) => (.ok a, { fs' with tree := t })

def Fs.record (fs : Fs nm) (access : Access) (path : Path) : Fs nm :=
  { fs with changes := ⟨access, path⟩ :: fs.changes }

structure FilInfo where
  isDir : Bool
  fname : Path
  fsize : ℕ

def fileInfo {L : Type} (spelling : L → Path) : Node L Bytes → FilInfo
  | .dir label => ⟨true, spelling label, 0⟩
  | .file label data => ⟨false, spelling label, data.length⟩

def Fs.stat (fs : Fs nm) (path : Path) : Except FResult FilInfo :=
  match fs.follow path with
  | .error res => .error res
  | .ok (.origin _) => .error .invalidName
  | .ok (.dotEntry _) => .ok ⟨true, [], 0⟩
  | .ok (.missing _ _) => .error .noFile
  | .ok (.found l) =>
    match fs.tree.get l with
    | none => .error .intErr
    | some node => .ok (fileInfo Subtype.val node)

def f_stat (path : Path) (fs : Fs nm) : Except FResult FilInfo × Fs nm :=
  fs.call ((fs.stat path).map (·, fs.tree))

def Fs.mkdir (fs : Fs nm) (path : Path) : Except FResult (Unit × Tree nm) :=
  match fs.follow path with
  | .error res => .error res
  | .ok (.missing l name) => .ok ((), fs.tree.add l (.name name.key) (.dir (name.label l)))
  | .ok _ => .error .exist

def f_mkdir (path : Path) (fs : Fs nm) : Except FResult Unit × Fs nm :=
  (fs.record .mkdir path).call (fs.mkdir path)

/-- `f_open` with `FA_WRITE | FA_CREATE_ALWAYS` -/
def Fs.openWrite (fs : Fs nm) (path : Path) : Except FResult (Loc N × Tree nm) :=
  match fs.follow path with
  | .error res => .error res
  | .ok (.origin _) => .error .invalidName
  | .ok (.dotEntry _) => .error .denied
  | .ok (.missing l name) =>
    .ok (l ++ [.name name.key], fs.tree.add l (.name name.key) (.file (name.label l) []))
  | .ok (.found l) =>
    if fs.tree.isDir l then .error .denied else .ok (l, fs.tree.rewrite l [])

def f_openWrite (path : Path) (fs : Fs nm) : Except FResult (Loc N) × Fs nm :=
  (fs.record .openWrite path).call (fs.openWrite path)

def contents (t : Tree nm) (l : Loc N) : Bytes :=
  match t.get l with
  | some (.file _ data) => data
  | _ => []

def f_write (file : Loc N) (data : Bytes) (fs : Fs nm) : Except FResult ℕ × Fs nm :=
  let bytes := match fs.outcomes fs.calls with
    | some (.short bytes) => data.take bytes
    | _ => data
  fs.call (.ok (bytes.length, fs.tree.rewrite file (contents fs.tree file ++ bytes)))

def Fs.unlink (fs : Fs nm) (path : Path) : Except FResult (Unit × Tree nm) :=
  match fs.follow path with
  | .error res => .error res
  | .ok (.origin _) => .error .invalidName
  | .ok (.dotEntry _) => .error .invalidName
  | .ok (.missing _ _) => .error .noFile
  | .ok (.found l) =>
    if fs.tree.children l = [] then .ok ((), fs.tree.remove l) else .error .denied

def f_unlink (path : Path) (fs : Fs nm) : Except FResult Unit × Fs nm :=
  (fs.record .unlink path).call (fs.unlink path)

/-- `f_open` with `FA_READ`, and the read pointer that goes with it -/
def Fs.openRead (fs : Fs nm) (path : Path) : Except FResult ((Loc N × ℕ) × Tree nm) :=
  match fs.follow path with
  | .error res => .error res
  | .ok (.origin _) => .error .invalidName
  | .ok (.dotEntry _) => .error .noFile
  | .ok (.missing _ _) => .error .noFile
  | .ok (.found l) => if fs.tree.isDir l then .error .noFile else .ok ((l, 0), fs.tree)

def f_openRead (path : Path) (fs : Fs nm) : Except FResult (Loc N × ℕ) × Fs nm :=
  fs.call (fs.openRead path)

def f_read (file : Loc N × ℕ) (size : ℕ) (fs : Fs nm) : Except FResult (Bytes × (Loc N × ℕ)) × Fs nm :=
  let bytes := ((contents fs.tree file.1).drop file.2).take size
  fs.call (.ok ((bytes, (file.1, file.2 + bytes.length)), fs.tree))

/-- An open directory: the names it had when it was opened that were not read yet. -/
structure Dir (N : Type) where
  loc : Loc N
  remaining : List (Key N)

def Fs.opendir (fs : Fs nm) (path : Path) : Except FResult (Dir N × Tree nm) :=
  let dir (l : Loc N) : Dir N × Tree nm := (⟨l, fs.tree.children l⟩, fs.tree)
  match fs.follow path with
  | .error res => .error res
  | .ok (.origin l) => .ok (dir l)
  | .ok (.dotEntry l) => .ok (dir l)
  | .ok (.missing _ _) => .error .noPath
  | .ok (.found l) => if fs.tree.isDir l then .ok (dir l) else .error .noPath

def f_opendir (path : Path) (fs : Fs nm) : Except FResult (Dir N) × Fs nm :=
  fs.call (fs.opendir path)

/-- The next entry that is still there; no name at the end of the directory. -/
def nextEntry (t : Tree nm) (loc : Loc N) : List (Key N) → FilInfo × List (Key N)
  | [] => (⟨false, [], 0⟩, [])
  | k :: rest =>
    match t.get (loc ++ [k]) with
    | none => nextEntry t loc rest
    | some node => (fileInfo Subtype.val node, rest)

def f_readdir (dir : Dir N) (fs : Fs nm) : Except FResult (FilInfo × Dir N) × Fs nm :=
  let (info, rest) := nextEntry fs.tree dir.loc dir.remaining
  fs.call (.ok ((info, { dir with remaining := rest }), fs.tree))

end

def snipOff (seg : Path) : Path := seg.rdropWhile fun c => c = ' ' ∨ c = '.'

def isLegal (c : Char) : Bool :=
  ' ' ≤ c && !isSeparator c && c ∉ ['*', ':', '<', '>', '|', '?', Char.ofNat 34, Char.ofNat 127]

def asciiCreateName (seg : Path) : Option (Path × Path) :=
  if seg.all isLegal ∧ seg.length ≤ 255 ∧ snipOff seg ≠ [] then
    some ((snipOff seg).map Char.toUpper, snipOff seg)
  else none

theorem snipOff_prefix (seg : Path) : snipOff seg <+: seg := List.rdropWhile_prefix _ seg

theorem snipOff_idem (seg : Path) : snipOff (snipOff seg) = snipOff seg :=
  List.rdropWhile_idempotent _ _

theorem snipOff_notDot (seg : Path) : isDot (snipOff seg) = false := by
  rw [isDot, decide_eq_false_iff_not]
  intro hdot
  have hidem := snipOff_idem seg
  rcases hdot with heq | heq <;>
  · rw [heq] at hidem
    cases hidem

def asciiNaming : Naming Path where
  createName := asciiCreateName
  stored := by
    intro seg n sp h
    rw [asciiCreateName] at h
    split at h
    · rename_i hlegal
      obtain ⟨hall, hlength, hne⟩ := hlegal
      obtain ⟨rfl, rfl⟩ := Prod.mk.inj (Option.some.inj h)
      have hsub := snipOff_prefix seg
      have hall' : (snipOff seg).all isLegal = true :=
        List.all_eq_true.mpr fun c hc => List.all_eq_true.mp hall c (hsub.subset hc)
      refine ⟨⟨hne, ?_, snipOff_notDot seg⟩, ?_⟩
      · intro c hc
        have hlegal := List.all_eq_true.mp hall' c hc
        rw [isLegal, Bool.and_eq_true, Bool.and_eq_true] at hlegal
        refine ⟨by simpa using hlegal.1.2, ?_, by simpa using hlegal.1.1⟩
        rintro rfl
        exact absurd hlegal.2 (by decide)
      · rw [asciiCreateName, snipOff_idem, if_pos ⟨hall', hsub.length_le.trans hlength, hne⟩]
    · exact absurd h (by simp)

open Library

def driveLabel (nm : Naming Path) (d : ℕ) : Spelling nm ([] ++ [.drive d]) :=
  ⟨[], by
    rw [Spells, List.getLast?_concat]
    exact le_refl 1⟩

def oneDirectory : Tree asciiNaming :=
  (FileTree.empty.add [] (.drive 0) (.dir (driveLabel asciiNaming 0))).add [.drive 0] (.name ['D'])
    (.dir ⟨['d'], rfl⟩)

/-- All calls succeed. -/
def freshFs (tree : Tree asciiNaming) : Fs asciiNaming := ⟨tree, 0, fun _ => none, 0, []⟩

end Cloudpilot.Vfs
