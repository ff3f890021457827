import Cloudpilot.Vfs.Fatfs

/-! # Recursive iteration

`RecursiveFsIterator` yields the files that were added, then the files of the directories it
meets, level by level, and last the directories themselves, the innermost first.
-/
namespace Cloudpilot.Vfs

inductive IteratorState where
  | initial | valid | done | error
deriving DecidableEq

structure RecursiveFsIterator (N : Type) where
  state : IteratorState
  pathPrefix : Path
  files : List Path
  directories : List Path
  directoryIndex : ℕ
  scanning : Bool
  cleanup : Bool
  currentEntry : Path
  entryFullPath : Path
  failingPath : Path
  dir : Dir N
  filinfo : FilInfo

/-- Where a substring starts. -/
def find (needle : Path) : Path → Option ℕ
  | [] => if needle = [] then some 0 else none
  | c :: rest => if needle.isPrefixOf (c :: rest) then some 0 else (find needle rest).map (· + 1)

namespace RecursiveFsIterator

variable {N : Type}

def create (pathPrefix : Path) : RecursiveFsIterator N :=
  { state := .initial
    pathPrefix := normalizePath pathPrefix
    files := []
    directories := []
    directoryIndex := 0
    scanning := false
    cleanup := false
    currentEntry := []
    entryFullPath := []
    failingPath := []
    dir := ⟨[], []⟩
    filinfo := ⟨false, [], 0⟩ }

def addFile (path : Path) (it : RecursiveFsIterator N) : RecursiveFsIterator N :=
  if it.state = .initial then
    { it with files := it.files ++ [normalizePath (joinPath it.pathPrefix path)] }
  else it

def amputatePrefix (it : RecursiveFsIterator N) (path : Path) : Path :=
  match find it.pathPrefix (normalizePath path) with
  | none => path
  | some pos =>
    if pos + it.pathPrefix.length ≥ (normalizePath path).length then path
    else normalizePath (path.drop (pos + it.pathPrefix.length))

def directory (it : RecursiveFsIterator N) : Path := it.directories.getD it.directoryIndex []

def fail (it : RecursiveFsIterator N) (path : Path) : RecursiveFsIterator N :=
  { it with state := .error, failingPath := it.amputatePrefix path }

def yieldEntry (it : RecursiveFsIterator N) (path : Path) : RecursiveFsIterator N :=
  { it with entryFullPath := path, currentEntry := it.amputatePrefix path }

variable [DecidableEq N] {nm : Naming N}

/-- Look at the last of the files that were added. -/
def popFile (skipDirectory : Path → Bool) (fullPath : Path) (it : RecursiveFsIterator N) (fs : Fs nm) :
    Bool × RecursiveFsIterator N × Fs nm :=
  let it := { it with files := it.files.dropLast }
  match f_stat fullPath fs with
  | (.error .noFile, fs) => (true, it, fs)
  | (.error _, fs) => (false, it.fail fullPath, fs)
  | (.ok info, fs) =>
    let it := { it with filinfo := info }
    if info.isDir then
      (true, if skipDirectory fullPath then it
        else { it with directories := it.directories ++ [fullPath] }, fs)
    else (false, it.yieldEntry fullPath, fs)

/-- Read an entry of the directory that is scanned. -/
def scanEntry (it : RecursiveFsIterator N) (fs : Fs nm) : Bool × RecursiveFsIterator N × Fs nm :=
  match f_readdir it.dir fs with
  | (.error _, fs) => (false, it.fail it.directory, fs)
  | (.ok (info, dir), fs) =>
    let it := { it with filinfo := info, dir := dir }
    if info.fname = [] then
      (true, { it with scanning := false, directoryIndex := it.directoryIndex + 1 }, fs)
    else if info.isDir then
      (true, { it with directories := it.directories ++ [joinPath it.directory info.fname] }, fs)
    else (false, it.yieldEntry (joinPath it.directory info.fname), fs)

/-- Yield the directories that were scanned, the last one first. -/
def popDirectory (it : RecursiveFsIterator N) : RecursiveFsIterator N :=
  match it.directories.getLast? with
  | some path => { it.yieldEntry path with directories := it.directories.dropLast }
  | none => { it with state := .done }

def openDir (it : RecursiveFsIterator N) (fs : Fs nm) : Bool × RecursiveFsIterator N × Fs nm :=
  match f_opendir it.directory fs with
  | (.error _, fs) => (false, { it.fail it.directory with scanning := false }, fs)
  | (.ok dir, fs) => (true, { it with dir := dir, scanning := true }, fs)

/-- One round of the loop in `Next`, and whether the loop goes on. -/
def round (skipDirectory : Path → Bool) (it : RecursiveFsIterator N) (fs : Fs nm) :
    Bool × RecursiveFsIterator N × Fs nm :=
  match it.files.getLast? with
  | some fullPath => it.popFile skipDirectory fullPath fs
  | none =>
    if it.scanning then it.scanEntry fs
    else if it.cleanup then (false, it.popDirectory, fs)
    else if it.directoryIndex ≥ it.directories.length then (true, { it with cleanup := true }, fs)
    else it.openDir fs

def loop (skipDirectory : Path → Bool) :
    ℕ → RecursiveFsIterator N → Fs nm → Option (RecursiveFsIterator N × Fs nm)
  | 0, _, _ => none
  | rounds + 1, it, fs =>
    match round skipDirectory it fs with
    | (true, it, fs) => loop skipDirectory rounds it fs
    | (false, it, fs) => some (it, fs)

/-- `Next`, when its loop takes no more than the given number of rounds. -/
def next (skipDirectory : Path → Bool) (rounds : ℕ) (it : RecursiveFsIterator N) (fs : Fs nm) :
    Option (RecursiveFsIterator N × Fs nm) :=
  let it := if it.state = .initial then { it with state := .valid } else it
  if it.state ≠ .valid then some (it, fs) else loop skipDirectory rounds it fs

end RecursiveFsIterator

inductive DeleteState where
  | initial | more | done | error
deriving DecidableEq

structure DeleteRecursiveContext (N : Type) where
  iterator : RecursiveFsIterator N
  failed : Bool

namespace DeleteRecursiveContext

variable {N : Type}

def create : DeleteRecursiveContext N := ⟨.create ['/'], false⟩

def addFile (path : Path) (d : DeleteRecursiveContext N) : DeleteRecursiveContext N :=
  { d with iterator := d.iterator.addFile path }

def getState (d : DeleteRecursiveContext N) : DeleteState :=
  if d.failed then .error
  else match d.iterator.state with
    | .initial => .initial
    | .valid => .more
    | .done => .done
    | .error => .error

def more (d : DeleteRecursiveContext N) : Bool :=
  !d.failed && (d.iterator.state = .initial ∨ d.iterator.state = .valid)

def batchSize : ℕ := 10

variable [DecidableEq N] {nm : Naming N}

def executeStep (rounds : ℕ) (d : DeleteRecursiveContext N) (fs : Fs nm) :
    Option (DeleteRecursiveContext N × Fs nm) := do
  let (iterator, fs) ← d.iterator.next (fun _ => false) rounds fs
  let d := { d with iterator := iterator }
  if !d.more then return (d, fs)
  match f_unlink iterator.currentEntry fs with
  | (.ok _, fs) => return ({ d with failed := false }, fs)
  | (.error _, fs) => return ({ d with failed := true }, fs)

/-- Up to the given number of steps, while there is more to do. -/
def executeSteps (rounds : ℕ) : ℕ → DeleteRecursiveContext N → Fs nm →
    Option (DeleteRecursiveContext N × Fs nm)
  | 0, d, fs => some (d, fs)
  | steps + 1, d, fs =>
    if d.more then do
      let (d, fs) ← executeStep rounds d fs
      executeSteps rounds steps d fs
    else some (d, fs)

/-- `Continue`, when the time suffices for the given number of batches. -/
def continueBatches (rounds batches : ℕ) (d : DeleteRecursiveContext N) (fs : Fs nm) :
    Option (DeleteRecursiveContext N × Fs nm) :=
  executeSteps rounds (batches * batchSize) d fs

end DeleteRecursiveContext

end Cloudpilot.Vfs
