import Cloudpilot.Vfs.RecursiveFsIterator

/-! # Copying

`GenericCopyContext` copies the entries of an iterator below a destination. It stops at
collisions, deletes what is in the way if it is told to, and goes on.
-/

namespace Cloudpilot.Vfs

section

inductive CopyState where
  | more | done | collision | invalidEntry | collisionWithDirectory | ioError | iteratorError | cardFull
deriving DecidableEq

inductive ExtractStatus where
  | ok | cardFull | ioError
deriving DecidableEq

/-- What the data of an entry is written to. -/
structure ExtractContext (N : Type) where
  file : Loc N
  status : ExtractStatus

variable {N : Type}

structure GenericCopyContext (N ι : Type) where
  currentEntry : Path
  currentPath : Path
  collisionPath : Path
  iterator : ι
  destination : Path
  entriesSuccess : ℕ
  state : CopyState
  visitedDirectories : Path → Option Bool
  deleteRecursiveContext : Option (DeleteRecursiveContext N)

/-- The values `next` takes in the loop of `MkdirRecursive`. -/
def mkdirTargets : Path → Path → Path → List Path
  | next, seg, [] => if seg = [] then [] else [joinPath next seg]
  | next, seg, c :: rest =>
    if c = '/' then joinPath next seg :: mkdirTargets (joinPath next seg) [] rest
    else mkdirTargets next (seg ++ [c]) rest

/-- The directories `MkdirRecursive` makes sure of. -/
def directoriesOn (path : Path) : List Path :=
  mkdirTargets (path.takeWhile (· ≠ '/')) [] (path.dropWhile (· ≠ '/')).tail

variable [DecidableEq N] {nm : Naming N}

def ExtractContext.onExtract (data : Bytes) (context : ExtractContext N) (fs : Fs nm) :
    ExtractContext N × Fs nm :=
  if context.status ≠ .ok then (context, fs)
  else match f_write context.file data fs with
    | (.error _, fs) => ({ context with status := if data = [] then .ioError else .cardFull }, fs)
    | (.ok bytesWritten, fs) =>
      (if bytesWritten ≠ data.length then { context with status := .cardFull } else context, fs)

/-- The iterator a context copies from, and the hooks of the class that extends it. -/
structure CopySource (nm : Naming N) (ι : Type) where
  getState : ι → IteratorState
  next : ι → Fs nm → Option (ι × Fs nm)
  getCurrentEntry : ι → Path
  isDirectory : ι → Bool
  readCurrent : (Bytes → ExtractContext N → Fs nm → ExtractContext N × Fs nm) →
    ι → ExtractContext N → Fs nm → ι × ExtractContext N × Fs nm
  onAfterCopy : ι → Fs nm → ι × Fs nm
  skipCurrentEntry : Path → ι → Bool

namespace GenericCopyContext

variable {ι : Type}

def create (src : CopySource nm ι) (destination : Path) (iterator : ι) : GenericCopyContext N ι :=
  { currentEntry := []
    currentPath := []
    collisionPath := []
    iterator := iterator
    destination := normalizePath destination
    entriesSuccess := 0
    state := if src.getState iterator = .error then .iteratorError else .more
    visitedDirectories := fun _ => none
    deleteRecursiveContext := none }

def visit (path : Path) (usable : Bool) (c : GenericCopyContext N ι) : GenericCopyContext N ι :=
  { c with visitedDirectories := Function.update c.visitedDirectories path (some usable) }

/-- The loop of `MkdirRecursive` -/
def mkdirLoop : List Path → GenericCopyContext N ι → Fs nm → GenericCopyContext N ι × Fs nm
  | [], c, fs => (c, fs)
  | next :: rest, c, fs =>
    match c.visitedDirectories next with
    | some true => mkdirLoop rest c fs
    | some false => ({ c with state := .invalidEntry }, fs)
    | none =>
      match f_stat next fs with
      | (.error .invalidName, fs) => ({ c with state := .invalidEntry }.visit next false, fs)
      | (.ok info, fs) =>
        if info.isDir then mkdirLoop rest (c.visit next true) fs
        else ({ c with state := .collision, collisionPath := next }, fs)
      | (.error .noFile, fs) =>
        match f_mkdir next fs with
        | (.error .invalidName, fs) => ({ c with state := .invalidEntry }.visit next false, fs)
        | (.ok _, fs) => mkdirLoop rest (c.visit next true) fs
        | (.error _, fs) => ({ c with state := .ioError }, fs)
      | (.error _, fs) => ({ c with state := .ioError }, fs)

def mkdirRecursive (path : Path) (c : GenericCopyContext N ι) (fs : Fs nm) :
    GenericCopyContext N ι × Fs nm :=
  if '/' ∈ path then mkdirLoop (directoriesOn path) { c with state := .more } fs
  else ({ c with state := .invalidEntry }, fs)

def closeFile (c : GenericCopyContext N ι) (fs : Fs nm) : GenericCopyContext N ι × Fs nm :=
  if c.state = .cardFull ∨ c.state = .iteratorError then (c, (f_unlink c.currentPath fs).2)
  else (c, fs)

def extractedState (iterator : IteratorState) (status : ExtractStatus) : CopyState :=
  if iterator = .error then .iteratorError
  else match status with
    | .ok => .more
    | .cardFull => .cardFull
    | .ioError => .ioError

def copyCurrentEntry (src : CopySource nm ι) (c : GenericCopyContext N ι) (fs : Fs nm) :
    GenericCopyContext N ι × Fs nm :=
  match f_stat c.currentPath fs with
  | (.error .invalidName, fs) => ({ c with state := .invalidEntry }, fs)
  | (.ok info, fs) =>
    ({ c with
        state := if info.isDir then .collisionWithDirectory else .collision
        collisionPath := c.currentPath }, fs)
  | (.error .noFile, fs) =>
    match f_openWrite c.currentPath fs with
    | (.error .invalidName, fs) => ({ c with state := .invalidEntry }, fs)
    | (.error _, fs) => ({ c with state := .ioError }, fs)
    | (.ok file, fs) =>
      let (iterator, context, fs) :=
        src.readCurrent ExtractContext.onExtract c.iterator ⟨file, .ok⟩ fs
      closeFile { c with
        iterator := iterator
        state := extractedState (src.getState iterator) context.status } fs
  | (.error _, fs) => ({ c with state := .ioError }, fs)

/-- An entry that was copied is counted. -/
def afterCopy (src : CopySource nm ι) (c : GenericCopyContext N ι) (fs : Fs nm) :
    GenericCopyContext N ι × Fs nm :=
  if c.state = .more then
    let (iterator, fs) := src.onAfterCopy c.iterator fs
    ({ c with iterator := iterator, entriesSuccess := c.entriesSuccess + 1 }, fs)
  else (c, fs)

def selectEntry (src : CopySource nm ι) (c : GenericCopyContext N ι) : GenericCopyContext N ι :=
  { c with
    currentEntry := src.getCurrentEntry c.iterator
    currentPath := normalizePath (joinPath c.destination (src.getCurrentEntry c.iterator)) }

def copyEntry (src : CopySource nm ι) (c : GenericCopyContext N ι) (fs : Fs nm) :
    GenericCopyContext N ι × Fs nm :=
  if src.skipCurrentEntry c.currentPath c.iterator then (c, fs)
  else if src.isDirectory c.iterator then
    let (c, fs) := mkdirRecursive c.currentPath c fs
    afterCopy src c fs
  else
    let (c, fs) := mkdirRecursive (dirname c.currentPath) c fs
    if c.state ≠ .more then (c, fs)
    else
      let (c, fs) := copyCurrentEntry src c fs
      afterCopy src c fs

/-- The iterator goes on, whatever became of its entry. -/
def advance (src : CopySource nm ι) (c : GenericCopyContext N ι) (fs : Fs nm) :
    Option (GenericCopyContext N ι × Fs nm) :=
  (src.next c.iterator fs).map fun (iterator, fs) => ({ c with iterator := iterator }, fs)

def skipIfCollision (src : CopySource nm ι) (c : GenericCopyContext N ι) (fs : Fs nm) :
    Option (GenericCopyContext N ι × Fs nm) :=
  if c.state = .collision ∨ c.state = .collisionWithDirectory then some (c, fs) else advance src c fs

def deleteSlice (rounds batches : ℕ) (d : DeleteRecursiveContext N) (c : GenericCopyContext N ι)
    (fs : Fs nm) : Option (GenericCopyContext N ι × Fs nm) :=
  (d.continueBatches rounds batches fs).map fun (d, fs) =>
    match d.getState with
    | .more => ({ c with deleteRecursiveContext := some d }, fs)
    | .done => ({ c with deleteRecursiveContext := none }, fs)
    | _ => ({ c with state := .ioError, deleteRecursiveContext := none }, fs)

/-- `ExecuteSlice`, with the number of batches there is time for if it deletes. -/
def executeSlice (src : CopySource nm ι) (rounds : ℕ) (c : GenericCopyContext N ι) (fs : Fs nm)
    (batches : ℕ) : Option (GenericCopyContext N ι × Fs nm) :=
  if c.state ≠ .more then some (c, fs)
  else match c.deleteRecursiveContext with
    | some d => deleteSlice rounds batches d c fs
    | none =>
      match src.getState c.iterator with
      | .done => some ({ c with state := .done }, fs)
      | .error => some ({ c with state := .iteratorError }, fs)
      | .initial => advance src c fs
      | .valid =>
        let (c, fs) := copyEntry src (selectEntry src c) fs
        skipIfCollision src c fs

/-- The slices there is time for; `ExecuteSlice` does nothing once the state is another. -/
def executeSlices (src : CopySource nm ι) (rounds : ℕ) :
    List ℕ → GenericCopyContext N ι → Fs nm → Option (GenericCopyContext N ι × Fs nm)
  | [], c, fs => some (c, fs)
  | batches :: slices, c, fs =>
    (executeSlice src rounds c fs batches).bind fun (c, fs) => executeSlices src rounds slices c fs

/-- The part of `Continue` before its loop. -/
def resume (src : CopySource nm ι) (c : GenericCopyContext N ι) (fs : Fs nm) :
    Option (GenericCopyContext N ι × Fs nm) :=
  match c.state with
  | .done | .iteratorError | .ioError | .cardFull => some (c, fs)
  | .collision | .collisionWithDirectory =>
    (advance src c fs).map fun (c, fs) => ({ c with state := .more }, fs)
  | .more | .invalidEntry => some ({ c with state := .more }, fs)

/-- `Continue`, with time for the given slices -/
def continueSlices (src : CopySource nm ι) (rounds : ℕ) (slices : List ℕ)
    (c : GenericCopyContext N ι) (fs : Fs nm) : Option (GenericCopyContext N ι × Fs nm) :=
  (resume src c fs).bind fun (c, fs) => executeSlices src rounds slices c fs

def removeConflictingFile (c : GenericCopyContext N ι) (fs : Fs nm) :
    GenericCopyContext N ι × Fs nm :=
  match f_unlink c.collisionPath fs with
  | (.error .invalidName, fs) => ({ c with state := .invalidEntry }, fs)
  | (.ok _, fs) => ({ c with state := .more }, fs)
  | (.error _, fs) => ({ c with state := .ioError }, fs)

def startDeletion (c : GenericCopyContext N ι) : GenericCopyContext N ι :=
  if c.state = .collisionWithDirectory then
    { c with
      deleteRecursiveContext := some (DeleteRecursiveContext.create.addFile c.collisionPath)
      state := .more }
  else c

def continueWithOverwrite (src : CopySource nm ι) (rounds : ℕ) (slices : List ℕ)
    (c : GenericCopyContext N ι) (fs : Fs nm) : Option (GenericCopyContext N ι × Fs nm) :=
  if c.state = .collision then
    let (c, fs) := removeConflictingFile c fs
    if c.state ≠ .more then some (c, fs) else continueSlices src rounds slices c fs
  else continueSlices src rounds slices (startDeletion c) fs

end GenericCopyContext

end

structure ZipEntry where
  name : Option Path
  isDir : Bool
  chunks : List Bytes
  opens : Bool
  extracts : Bool
  closes : Bool

structure ZipfileIterator where
  zip : Option (List ZipEntry)
  currentEntryIndex : ℕ
  openEntryPending : Bool
  state : IteratorState
  currentEntry : Path

namespace ZipfileIterator

def create (zip : Option (List ZipEntry)) : ZipfileIterator :=
  { zip := zip
    currentEntryIndex := 0
    openEntryPending := false
    state := match zip with
      | none => .error
      | some entries => if entries = [] then .done else .initial
    currentEntry := [] }

def entries (it : ZipfileIterator) : List ZipEntry := it.zip.getD []

def opened (it : ZipfileIterator) : Option ZipEntry := it.entries[it.currentEntryIndex - 1]?

def openNext (it : ZipfileIterator) : ZipfileIterator :=
  match it.entries[it.currentEntryIndex]? with
  | none => { it with state := .done }
  | some entry =>
    let it := { it with currentEntryIndex := it.currentEntryIndex + 1 }
    if entry.opens then
      match entry.name with
      | none => { it with openEntryPending := true, state := .error }
      | some name =>
        { it with openEntryPending := true, currentEntry := normalizePath name, state := .valid }
    else { it with state := .error }

def next (it : ZipfileIterator) : ZipfileIterator :=
  if it.state ≠ .valid ∧ it.state ≠ .initial then it
  else if it.openEntryPending ∧ it.opened.any (!·.closes) then { it with state := .error }
  else it.openNext

def isDirectory (it : ZipfileIterator) : Bool := it.opened.any (·.isDir)

variable {N : Type} [DecidableEq N] {nm : Naming N}

/-- The chunks of an entry go through the callback in order. -/
def feed (cb : Bytes → ExtractContext N → Fs nm → ExtractContext N × Fs nm) :
    List Bytes → ExtractContext N → Fs nm → ExtractContext N × Fs nm
  | [], context, fs => (context, fs)
  | data :: chunks, context, fs =>
    let (context, fs) := cb data context fs
    feed cb chunks context fs

def readCurrent (cb : Bytes → ExtractContext N → Fs nm → ExtractContext N × Fs nm)
    (it : ZipfileIterator) (context : ExtractContext N) (fs : Fs nm) :
    ZipfileIterator × ExtractContext N × Fs nm :=
  if it.zip = none ∨ it.state ≠ .valid then (it, context, fs)
  else match it.opened with
    | none => (it, context, fs)
    | some entry =>
      (if entry.extracts then it else { it with state := .error }, feed cb entry.chunks context fs)

def source (nm : Naming N) : CopySource nm ZipfileIterator :=
  { getState := state
    next := fun it fs => some (it.next, fs)
    getCurrentEntry := currentEntry
    isDirectory := isDirectory
    readCurrent := readCurrent
    onAfterCopy := fun it fs => (it, fs)
    skipCurrentEntry := fun _ _ => false }

end ZipfileIterator

/-- What the user of a context does next. -/
inductive CopyCall where
  | proceed (slices : List ℕ)
  | overwrite (slices : List ℕ)

abbrev UnzipContext (N : Type) := GenericCopyContext N ZipfileIterator

namespace UnzipContext

variable {N : Type} [DecidableEq N] {nm : Naming N}

def create (nm : Naming N) (destination : Path) (zip : Option (List ZipEntry)) : UnzipContext N :=
  GenericCopyContext.create (ZipfileIterator.source nm) destination (.create zip)

def call (rounds : ℕ) (c : UnzipContext N) (fs : Fs nm) : CopyCall → Option (UnzipContext N × Fs nm)
  | .proceed slices => c.continueSlices (ZipfileIterator.source nm) rounds slices fs
  | .overwrite slices => c.continueWithOverwrite (ZipfileIterator.source nm) rounds slices fs

/-- The calls of one extraction, one after the other. -/
def run (rounds : ℕ) (c : UnzipContext N) (fs : Fs nm) : List CopyCall → Option (UnzipContext N × Fs nm)
  | [] => some (c, fs)
  | callAction :: calls =>
    (c.call rounds fs callAction).bind fun (c, fs) => run rounds c fs calls

end UnzipContext

end Cloudpilot.Vfs
