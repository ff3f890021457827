import Cloudpilot.Vfs.UnzipContext

/-! # Pasting

`PasteContext` copies what a recursive iterator yields, reads the files through the file system,
and removes what was copied if the selection was cut.
-/

namespace Cloudpilot.Vfs

namespace RecursiveFsIterator

variable {N : Type} [DecidableEq N] {nm : Naming N}

def readBufferSize : ℕ := 1024

/-- The loop of `ReadCurrent`, for so many reads, from a read pointer on. -/
def readLoop (cb : Bytes → ExtractContext N → Fs nm → ExtractContext N × Fs nm) :
    ℕ → Loc N × ℕ → ℕ → RecursiveFsIterator N → ExtractContext N → Fs nm →
      RecursiveFsIterator N × ExtractContext N × Fs nm
  | 0, _, _, it, context, fs => (it, context, fs)
  | reads + 1, file, bytesReadTotal, it, context, fs =>
    match f_read file readBufferSize fs with
    | (.error _, fs) => ({ it with state := .error }, context, fs)
    | (.ok (bytes, file), fs) =>
      if bytes = [] then
        (if bytesReadTotal ≠ it.filinfo.fsize then { it with state := .error } else it, context, fs)
      else
        let (context, fs) := cb bytes context fs
        readLoop cb reads file (bytesReadTotal + bytes.length) it context fs

/-- `ReadCurrent`; every read but the last one takes a byte of the file at least. -/
def readCurrent (cb : Bytes → ExtractContext N → Fs nm → ExtractContext N × Fs nm)
    (it : RecursiveFsIterator N) (context : ExtractContext N) (fs : Fs nm) :
    RecursiveFsIterator N × ExtractContext N × Fs nm :=
  if it.state ≠ .valid ∨ it.cleanup then (it, context, fs)
  else match f_openRead it.entryFullPath fs with
    | (.error _, fs) => ({ it with state := .error }, context, fs)
    | (.ok file, fs) =>
      readLoop cb ((contents fs.tree file.1).length + 1) file 0 it context fs

end RecursiveFsIterator

/-- The iterator of a `PasteContext` with what else its hooks look at. -/
structure PasteIterator (N : Type) where
  iterator : RecursiveFsIterator N
  destination : Path
  deleteAfterCopy : Bool
  deleteFailed : Bool

namespace PasteIterator

variable {N : Type} [DecidableEq N] {nm : Naming N}

/-- A removal that was denied is no failure. -/
def removalFails : Except FResult Unit → Bool
  | .ok _ => false
  | .error .denied => false
  | .error _ => true

def onAfterCopy (p : PasteIterator N) (fs : Fs nm) : PasteIterator N × Fs nm :=
  if p.deleteAfterCopy then
    let (result, fs) := f_unlink p.iterator.entryFullPath fs
    ({ p with deleteFailed := removalFails result }, fs)
  else (p, fs)

/-- What a `PasteContext` copies from, when `Next` takes no more than the given rounds. -/
def source (nm : Naming N) (rounds : ℕ) : CopySource nm (PasteIterator N) :=
  { getState := fun p => p.iterator.state
    next := fun p fs => (p.iterator.next (fun path => isParentOf path p.destination) rounds fs).map
      fun (iterator, fs) => ({ p with iterator := iterator }, fs)
    getCurrentEntry := fun p => p.iterator.currentEntry
    isDirectory := fun p => p.iterator.cleanup
    readCurrent := fun cb p context fs =>
      let (iterator, context, fs) := p.iterator.readCurrent cb context fs
      ({ p with iterator := iterator }, context, fs)
    onAfterCopy := onAfterCopy
    skipCurrentEntry := fun currentPath p =>
      normalizePath currentPath = normalizePath p.iterator.entryFullPath }

end PasteIterator

abbrev PasteContext (N : Type) := GenericCopyContext N (PasteIterator N)

namespace PasteContext

variable {N : Type}

def addFile (path : Path) (c : PasteContext N) : PasteContext N :=
  { c with iterator := { c.iterator with iterator := c.iterator.iterator.addFile path } }

def setDeleteAfterCopy (deleteAfterCopy : Bool) (c : PasteContext N) : PasteContext N :=
  { c with iterator := { c.iterator with deleteAfterCopy := deleteAfterCopy } }

/-- The entry comes from below the place that it collides with. -/
def overParent (c : PasteContext N) : Bool :=
  isParentOf c.currentPath c.iterator.iterator.entryFullPath

/-- `GetState`; errors of the iterator are reported as `ioError`. -/
def getState (c : PasteContext N) : CopyState :=
  if c.iterator.deleteFailed then .ioError
  else match c.state with
    | .collisionWithDirectory => if c.overParent then .more else .collisionWithDirectory
    | .iteratorError => .ioError
    | state => state

variable [DecidableEq N] {nm : Naming N}

def create (nm : Naming N) (destination pathPrefix : Path) : PasteContext N :=
  GenericCopyContext.create (PasteIterator.source nm 0) destination
    ⟨.create (normalizePath pathPrefix), normalizePath destination, false, false⟩

def call (rounds : ℕ) (c : PasteContext N) (fs : Fs nm) : CopyCall → Option (PasteContext N × Fs nm)
  | .proceed slices =>
    if c.iterator.deleteFailed then some (c, fs)
    else c.continueSlices (PasteIterator.source nm rounds) rounds slices fs
  | .overwrite slices =>
    if c.iterator.deleteFailed then some (c, fs)
    else if c.overParent then c.continueSlices (PasteIterator.source nm rounds) rounds slices fs
    else c.continueWithOverwrite (PasteIterator.source nm rounds) rounds slices fs

def run (rounds : ℕ) (c : PasteContext N) (fs : Fs nm) :
    List CopyCall → Option (PasteContext N × Fs nm)
  | [] => some (c, fs)
  | callAction :: calls =>
    (c.call rounds fs callAction).bind fun (c, fs) => run rounds c fs calls

end PasteContext

end Cloudpilot.Vfs
