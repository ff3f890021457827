import Mathlib.Tactic

/-! # Zip archives

`CreateZipContext` hands the entries of an archive to the zip library, and `ZipfileWalker` takes
them back in order. The handle is cleared once the data is copied out, but the context stays in
the state of an open stream.
-/
namespace Cloudpilot.Common.Zip

/-- The zip library. Calls that change a handle return the changed one. -/
structure Library where
  Writer : Type
  Reader : Type
  Entry : Type
  Data : Type
  streamOpen (compressionLevel : ℤ) : Option Writer
  entryOpen : Writer → String → Bool × Writer
  entryWrite : Writer → List UInt8 → Bool × Writer
  entryClose : Writer → Bool × Writer
  streamCopy : Writer → Option (Data × ℕ) × Writer
  streamRead : Data → ℕ → Option Reader
  entriesTotal : Reader → ℤ
  entryOpenByIndex : Reader → ℕ → Option Entry
  entryIsDir : Entry → Bool
  entryName : Entry → Option String
  entrySize : Entry → ℕ
  entryRead : Entry → Option (List UInt8)

inductive State where
  | created
  | streamReady
  | entryPending
  | streamFinalized
  deriving DecidableEq

structure CreateZipContext (lib : Library) where
  zip : Option lib.Writer := none
  state : State := .created
  zipData : Option lib.Data := none
  zipDataSize : ℕ := 0
  lastError : String := "none"

namespace CreateZipContext

variable {lib : Library} (c : CreateZipContext lib)

def onHandle (call : lib.Writer → Bool × lib.Writer) : Bool × CreateZipContext lib :=
  match c.zip with
  | none => (false, c)
  | some zip => ((call zip).1, { c with zip := some (call zip).2 })

def fail (lastError : String) : Bool × CreateZipContext lib := (false, { c with lastError })

def initializeStream (compressionLevel : ℤ) : Bool × CreateZipContext lib :=
  if c.state ≠ .created then c.fail "already initialized"
  else match lib.streamOpen compressionLevel with
    | none =>
      { c with zip := none : CreateZipContext lib }.fail "failed to initialize zip stream"
    | some zip => (true, { c with zip := some zip, state := .streamReady })

def closePendingEntry : Bool × CreateZipContext lib :=
  if c.state ≠ .entryPending then (true, c)
  else match c.onHandle lib.entryClose with
    | (false, c) => c.fail "failed to close pending entry"
    | (true, c) => (true, { c with state := .streamReady })

def addEntry (name : String) : Bool × CreateZipContext lib :=
  match c.closePendingEntry with
  | (false, c) => (false, c)
  | (true, c) =>
    if c.state ≠ .streamReady then c.fail "cannot add entry: stream not ready"
    else match c.onHandle (lib.entryOpen · name) with
      | (false, c) => c.fail "failed to create entry"
      | (true, c) => (true, { c with state := .entryPending })

def writeData (data : List UInt8) : Bool × CreateZipContext lib :=
  if c.state ≠ .entryPending then c.fail "no pending entry"
  else match c.onHandle (lib.entryWrite · data) with
    | (false, c) => c.fail "failed to add data to entry"
    | (true, c) => (true, c)

def getZipData : Option lib.Data × CreateZipContext lib :=
  if c.state = .streamFinalized then (c.zipData, c)
  else match c.closePendingEntry with
    | (false, c) => (none, c)
    | (true, c) =>
      if c.state ≠ .streamReady then (none, { c with lastError := "stream not initialized" })
      else match c.zip.map lib.streamCopy with
        | some (some (zipData, zipDataSize), _) =>
          (some zipData, { c with zip := none, zipData := some zipData, zipDataSize })
        | some (none, zip) =>
          (none, { c with zip := some zip, lastError := "failed to copy out zip data" })
        | none => (none, { c with lastError := "failed to copy out zip data" })

end CreateZipContext

inductive Call where
  | initializeStream (compressionLevel : ℤ)
  | addEntry (name : String)
  | writeData (data : List UInt8)
  | getZipData

inductive Result (lib : Library) where
  | returned (ok : Bool)
  | data (zipData : Option (lib.Data × ℕ))

namespace CreateZipContext

variable {lib : Library} (c : CreateZipContext lib)

/-- `GetZipDataSize` is called after `GetZipData`. -/
def step : Call → Result lib × CreateZipContext lib
  | .initializeStream compressionLevel =>
    let (ok, c) := c.initializeStream compressionLevel
    (.returned ok, c)
  | .addEntry name =>
    let (ok, c) := c.addEntry name
    (.returned ok, c)
  | .writeData data =>
    let (ok, c) := c.writeData data
    (.returned ok, c)
  | .getZipData =>
    let (zipData, c) := c.getZipData
    (.data (zipData.map (·, c.zipDataSize)), c)

end CreateZipContext

structure ZipfileWalker (lib : Library) where
  zip : Option lib.Reader
  iNextEntry : ℕ := 0
  entriesTotal : ℤ := 0
  done : Bool := false
  entry : Option lib.Entry := none
  currentEntryContent : Option (List UInt8) := none

inductive WalkerState where
  | error
  | open
  | done
  deriving DecidableEq

namespace ZipfileWalker

variable {lib : Library} (w : ZipfileWalker lib)

def getState : WalkerState :=
  if w.zip.isNone ∨ w.entriesTotal < 0 then .error else if w.done then .done else .open

def next (w : ZipfileWalker lib) : ZipfileWalker lib :=
  if w.getState ≠ .open then w
  else if _ : w.entriesTotal ≤ w.iNextEntry then
    { w with currentEntryContent := none, done := true }
  else
    match w.zip.bind (lib.entryOpenByIndex · w.iNextEntry) with
    | none => next { w with currentEntryContent := none, iNextEntry := w.iNextEntry + 1 }
    | some entry =>
      if lib.entryIsDir entry then next { w with
        currentEntryContent := none
        iNextEntry := w.iNextEntry + 1
        entry := some entry }
      else { w with
        currentEntryContent := none
        iNextEntry := w.iNextEntry + 1
        entry := some entry }
termination_by (w.entriesTotal - w.iNextEntry).toNat
decreasing_by all_goals omega

def new (lib : Library) (bufferSize : ℕ) (buffer : lib.Data) : ZipfileWalker lib :=
  match lib.streamRead buffer bufferSize with
  | none => { zip := none }
  | some zip => next { zip := some zip, entriesTotal := lib.entriesTotal zip }

def getCurrentEntrySize : ℕ :=
  if w.getState = .open then (w.entry.map lib.entrySize).getD 0 else 0

def getCurrentEntryName : String :=
  if w.getState ≠ .open then "" else (w.entry.bind lib.entryName).getD ""

/-- The content is kept for the next call. -/
def getCurrentEntryContent : Option (List UInt8) × ZipfileWalker lib :=
  match w.currentEntryContent with
  | some content => (some content, w)
  | none =>
    let content := (w.entry.bind lib.entryRead).filter (·.length = w.getCurrentEntrySize)
    (content, { w with currentEntryContent := content })

/-- Up to the end, each entry is asked for its name and its content. -/
inductive Visits : ZipfileWalker lib → List (String × Option (List UInt8)) → Prop where
  | done {w : ZipfileWalker lib} (h : w.getState = .done) : Visits w []
  | entry {w : ZipfileWalker lib} {visits : List (String × Option (List UInt8))}
    (h : w.getState = .open) (hrest : Visits w.getCurrentEntryContent.2.next visits) :
    Visits w ((w.getCurrentEntryName, w.getCurrentEntryContent.1) :: visits)

end ZipfileWalker

abbrev File := String × List UInt8

def File.IsFile (file : File) : Prop := file.1.toList.getLast? ≠ some '/'

instance : DecidablePred File.IsFile := fun _ => inferInstanceAs (Decidable (_ ≠ _))

/-- The handle has these entries to read. -/
structure Reads (lib : Library) (zip : lib.Reader) (files : List File) : Prop where
  total : lib.entriesTotal zip = files.length
  entry : ∀ i file, files[i]? = some file → ∃ entry,
    lib.entryOpenByIndex zip i = some entry ∧ (lib.entryIsDir entry = true ↔ ¬file.IsFile) ∧
    lib.entryName entry = some file.1 ∧
    lib.entrySize entry = file.2.length ∧ (file.2 ≠ [] → lib.entryRead entry = some file.2)

/-- Entries are written and read back as they are; `view` are the closed ones and the open one. -/
structure Faithful (lib : Library) (view : lib.Writer → List File × Option File) : Prop where
  streamOpen {level : ℤ} {zip : lib.Writer} : lib.streamOpen level = some zip →
    view zip = ([], none)
  entryOpen {zip : lib.Writer} {files : List File} (name : String) : view zip = (files, none) →
    (lib.entryOpen zip name).1 = decide (name ≠ "") ∧ view (lib.entryOpen zip name).2 =
      (files, if name = "" then none else some (name, []))
  entryWrite {zip : lib.Writer} {files : List File} {name : String} {content : List UInt8}
    (data : List UInt8) : view zip = (files, some (name, content)) →
    (lib.entryWrite zip data).1 = true ∧
      view (lib.entryWrite zip data).2 = (files, some (name, content ++ data))
  entryClose {zip : lib.Writer} {files : List File} {file : File} :
    view zip = (files, some file) → (lib.entryClose zip).1 = true ∧
      view (lib.entryClose zip).2 = (files ++ [file], none)
  streamCopy {zip : lib.Writer} {files : List File} : view zip = (files, none) →
    ∃ data size reader, (lib.streamCopy zip).1 = some (data, size) ∧
      lib.streamRead data size = some reader ∧ Reads lib reader files

inductive Archive (lib : Library) where
  | created
  | building (files : List File) (pending : Option File)
  | finished (data : lib.Data × ℕ)

def Seen (file : File) (visit : String × Option (List UInt8)) : Prop :=
  visit.1 = file.1 ∧ (file.2 ≠ [] → visit.2 = some file.2)

/-- The walker visits the files of the archive, and no others. -/
def Holds (lib : Library) (data : lib.Data) (size : ℕ) (files : List File) : Prop :=
  ∃ visits, (ZipfileWalker.new lib size data).Visits visits ∧
    List.Forall₂ Seen (files.filter (·.IsFile)) visits

def Call.refused {lib : Library} : Call → Result lib
  | .getZipData => .data none
  | _ => .returned false

namespace Archive

variable {lib : Library}

/-- The last line is that of the calls out of order. -/
def Answers : Archive lib → Call → Result lib → Prop
  | .created, .initializeStream level, result => result = .returned (lib.streamOpen level).isSome
  | .building _ _, .addEntry name, result => result = .returned (name ≠ "")
  | .building _ (some _), .writeData _, result => result = .returned true
  | .building files pending, .getZipData, result => ∃ data size,
    result = .data (some (data, size)) ∧ Holds lib data size (files ++ pending.toList)
  | .finished data, .getZipData, result => result = .data (some data)
  | _, call, result => result = call.refused

def next : Archive lib → Call → Result lib → Archive lib
  | .created, .initializeStream _, .returned true => .building [] none
  | .building files pending, .addEntry name, .returned ok =>
    .building (files ++ pending.toList) (if ok then some (name, []) else none)
  | .building files (some (name, content)), .writeData data, _ =>
    .building files (some (name, content ++ data))
  | .building _ _, .getZipData, .data (some data) => .finished data
  | a, _, _ => a

end Archive

namespace ZipfileWalker

variable {lib : Library} {zip : lib.Reader} {files : List File} {w : ZipfileWalker lib}

/-- The walker goes on with the files behind the first ones. -/
structure At (zip : lib.Reader) (files : List File) (w : ZipfileWalker lib) : Prop where
  reads : Reads lib zip files
  zip : w.zip = some zip
  total : w.entriesTotal = files.length
  done : w.done = false
  next_le : w.iNextEntry ≤ files.length

theorem At.getState (h : At zip files w) : w.getState = .open := by
  have hpositive : ¬w.entriesTotal < 0 := by
    rw [h.total]
    omega
  simp [ZipfileWalker.getState, h.zip, h.done, hpositive]

theorem At.visits (h : At zip files w) : ∃ visits, w.next.Visits visits ∧
    List.Forall₂ Seen ((files.drop w.iNextEntry).filter (·.IsFile)) visits := by
  induction hrest : files.length - w.iNextEntry generalizing w with
  | zero =>
    have hle : w.entriesTotal ≤ w.iNextEntry := by
      rw [h.total]
      omega
    rw [next, if_neg (not_not.mpr h.getState), dif_pos hle,
      List.drop_eq_nil_of_le (by omega)]
    refine ⟨[], .done ?_, .nil⟩
    simp [ZipfileWalker.getState, h.zip, h.total]
  | succ rest ih =>
    have hlt : w.iNextEntry < files.length := by omega
    obtain ⟨entry, hopen, hdir, hname, hsize, hread⟩ :=
      h.reads.entry _ _ (List.getElem?_eq_getElem hlt)
    have hmore : ¬w.entriesTotal ≤ w.iNextEntry := by
      rw [h.total]
      omega
    have hbind : w.zip.bind (lib.entryOpenByIndex · w.iNextEntry) = some entry := by
      rw [h.zip]
      exact hopen
    let opened : ZipfileWalker lib := { w with
      currentEntryContent := none
      iNextEntry := w.iNextEntry + 1
      entry := some entry }
    have hat : At zip files opened := ⟨h.reads, h.zip, h.total, h.done, hlt⟩
    rw [next, if_neg (not_not.mpr h.getState), dif_neg hmore, hbind,
      List.drop_eq_getElem_cons hlt]
    dsimp only
    split
    · rename_i hisDir
      rw [List.filter_cons_of_neg (by simpa using hdir.mp hisDir)]
      exact ih hat (by change _ - (_ + 1) = _; omega)
    · rename_i hfile
      rw [List.filter_cons_of_pos (by simpa using mt hdir.mpr hfile)]
      have hcontent : At zip files opened.getCurrentEntryContent.2 :=
        ⟨h.reads, h.zip, h.total, h.done, hlt⟩
      obtain ⟨visits, hvisits, hseen⟩ := ih hcontent (by change _ - (_ + 1) = _; omega)
      refine ⟨_, .entry hat.getState hvisits, .cons ⟨?_, fun hsome => ?_⟩ hseen⟩
      · rw [getCurrentEntryName, if_neg (not_not.mpr hat.getState)]
        simp [hname]
      · simp [getCurrentEntryContent, getCurrentEntrySize, hat.getState, opened, hread hsome,
          hsize]

end ZipfileWalker

/-- The data of a finished archive is not taken again. -/
def Archive.First {lib : Library} (a : Archive lib) (call : Call) : Prop :=
  ∀ data, a = .finished data → call ≠ .getZipData

inductive Reached (lib : Library) : Archive lib → CreateZipContext lib → Prop where
  | new : Reached lib .created {}
  | step {a : Archive lib} {c : CreateZipContext lib} {call : Call} (h : Reached lib a c)
    (hfirst : a.First call) : Reached lib (a.next call (c.step call).1) (c.step call).2

section Runs

variable {lib : Library} {view : lib.Writer → List File × Option File} {a : Archive lib}
  {c : CreateZipContext lib} {files : List File} {pending : Option File}

def Tracks (view : lib.Writer → List File × Option File) (c : CreateZipContext lib) :
    Archive lib → Prop
  | .created => c.state = .created
  | .building files pending =>
    c.state = (if pending.isSome then .entryPending else .streamReady) ∧
      ∃ zip, c.zip = some zip ∧ view zip = (files, pending)
  | .finished _ => c.state = .streamReady ∧ c.zip = none

end Runs

/-- Archives are lists of their entries. -/
def listed : Library where
  Writer := List File × Option File
  Reader := List File
  Entry := File
  Data := List File
  streamOpen _ := some ([], none)
  entryOpen zip name := (name ≠ "", (zip.1, if name = "" then none else some (name, [])))
  entryWrite zip data := (zip.2.isSome, (zip.1, zip.2.map fun file => (file.1, file.2 ++ data)))
  entryClose zip := (zip.2.isSome, (zip.1 ++ zip.2.toList, none))
  streamCopy zip := (some (zip.1, zip.1.length), zip)
  streamRead data _ := some data
  entriesTotal zip := zip.length
  entryOpenByIndex zip i := zip[i]?
  entryIsDir file := ¬file.IsFile
  entryName file := some file.1
  entrySize file := file.2.length
  entryRead file := some file.2

def openStream : Call := .initializeStream 0

def opened : CreateZipContext listed := (CreateZipContext.step {} openStream).2

end Cloudpilot.Common.Zip
