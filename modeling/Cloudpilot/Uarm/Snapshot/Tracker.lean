import Cloudpilot.Common.Crc
import Cloudpilot.Library.Runs
import Cloudpilot.Library.TypedArray
import Cloudpilot.Library.Words

/-! # Dirty page trackers of the emulator thread

One tracker each for NAND, SD card and RAM copies the marked pages of its memory into a
pool. Arrays are arrays of 32 bit words, so sizes and offsets are in words.
-/
namespace Cloudpilot.Uarm.SnapshotProtocol
open Library Library.TypedArray

abbrev Word := BitVec 32

/-- What is thrown. -/
inductive Fault
  | error (message : String)
  | rangeError
  deriving DecidableEq, Repr

/-- The parameters of a tracker: pages, and whether its memory always counts as dirty. -/
structure TrackerConfig where
  pageSize : ℕ
  pageCount : ℕ
  alwaysDirty : Bool

def TrackerConfig.size (cfg : TrackerConfig) : ℕ := cfg.pageSize * cfg.pageCount

/-- Words of the bitmap. -/
def TrackerConfig.dirtyPagesSize4 (cfg : TrackerConfig) : ℕ :=
  if cfg.pageCount / 32 * 32 < cfg.pageCount then cfg.pageCount / 32 + 1 else cfg.pageCount / 32

def initialPagePoolPages : ℕ := 256

/-- A memory of the emulator with the bitmap of its dirty pages. -/
structure Memory where
  data : List Word
  dirtyPages : List Word
  dirty : Bool

/-- The fields of a tracker that change. -/
structure DirtyPageTracker where
  scheduledPages : List ℕ
  pagePool : List Word
  scheduledPageCount : ℕ

/-- What is sent to the database. -/
structure SnapshotPages where
  scheduledPageCount : ℕ
  scheduledPages : List ℕ
  pagePool : List Word
  crc : Option Word

def crc32 (data : List Word) : Word := Common.Crc.crc32 (data.flatMap LittleEndian.word)

namespace DirtyPageTracker

def create (cfg : TrackerConfig) : DirtyPageTracker where
  scheduledPages := List.replicate cfg.pageCount 0
  pagePool := List.replicate (initialPagePoolPages * cfg.pageSize) 0
  scheduledPageCount := 0

def isDirty (cfg : TrackerConfig) (m : Memory) : Bool := cfg.alwaysDirty || m.dirty

def setDirty (cfg : TrackerConfig) (m : Memory) (isDirty : Bool) : Memory :=
  if cfg.alwaysDirty then m else { m with dirty := isDirty }

/-- `Math.ceil(length * 1.5 / pageSize)`. -/
def grownPages (cfg : TrackerConfig) (length : ℕ) : ℕ :=
  (3 * length + 2 * cfg.pageSize - 1) / (2 * cfg.pageSize)

def growPagePool (cfg : TrackerConfig) (pagePool : List Word) : Except Fault (List Word) :=
  let newPagePool : List Word := List.replicate
    (min (grownPages cfg pagePool.length * cfg.pageSize) (cfg.pageCount * cfg.pageSize)) 0
  if newPagePool.length < pagePool.length then .error .rangeError
  else .ok (overwrite newPagePool 0 pagePool)

def poolFor (cfg : TrackerConfig) (pagePool : List Word) (pagePoolOffset : ℕ) :
    Except Fault (List Word) :=
  if pagePoolOffset ≥ pagePool.length then growPagePool cfg pagePool else .ok pagePool

/-- The variables of the loops of `takeSnapshot`. -/
structure Taking where
  iPage : ℕ
  page : ℕ
  scheduledPages : List ℕ
  pagePool : List Word
  dirtyPages : List Word

def takePage (cfg : TrackerConfig) (data : List Word) (s : Taking) : Except Fault Taking := do
  let scheduledPages := s.scheduledPages.set s.iPage s.page
  let pagePoolOffset := s.iPage * cfg.pageSize
  let dataOffset := s.page * cfg.pageSize
  let pagePool ← poolFor cfg s.pagePool pagePoolOffset
  match setView pagePool pagePoolOffset (pagePoolOffset + cfg.pageSize : ℕ)
      (subarray data dataOffset (dataOffset + cfg.pageSize : ℕ)) with
  | none => .error .rangeError
  | some pagePool =>
    .ok { s with scheduledPages, pagePool, iPage := s.iPage + 1, page := s.page + 1 }

def takeMask (cfg : TrackerConfig) (data : List Word) (pageSet8 : Word) (s : Taking) (k : ℕ) :
    Except Fault Taking :=
  if pageSet8 &&& (1#32 <<< k) = 0 then .ok { s with page := s.page + 1 }
  else takePage cfg data s

def takeByte (cfg : TrackerConfig) (data : List Word) (s : Word × Taking) (_ : ℕ) :
    Except Fault (Word × Taking) :=
  let pageSet8 := s.1 &&& 0xff
  let pageSet32 := s.1 >>> 8
  if pageSet8 = 0 then .ok (pageSet32, { s.2 with page := s.2.page + 8 })
  else do
    let t ← (List.range 8).foldlM (takeMask cfg data pageSet8) s.2
    .ok (pageSet32, t)

def takeWord (cfg : TrackerConfig) (data : List Word) (s : Taking) (i : ℕ) :
    Except Fault Taking :=
  let pageSet32 := s.dirtyPages.getD i 0
  if pageSet32 = 0 then .ok { s with page := s.page + 32 }
  else do
    let (_, t) ← (List.range 4).foldlM (takeByte cfg data) (pageSet32, s)
    .ok { t with dirtyPages := t.dirtyPages.set i 0 }

/-- Nothing is thrown away when a snapshot is still pending: the warning does not return. -/
def takeSnapshot (cfg : TrackerConfig) (crcCheck : Bool) (t : DirtyPageTracker) (m : Memory) :
    Except Fault ((DirtyPageTracker × Memory) × Option SnapshotPages) :=
  if ¬ isDirty cfg m then .ok ((t, m), none)
  else do
    let s ← (List.range m.dirtyPages.length).foldlM (takeWord cfg m.data)
      ⟨0, 0, t.scheduledPages, t.pagePool, m.dirtyPages⟩
    let t : DirtyPageTracker := ⟨s.scheduledPages, s.pagePool, s.iPage⟩
    let m := { m with dirtyPages := s.dirtyPages }
    if s.iPage > 0 then
      .ok ((t, setDirty cfg m false),
        some ⟨s.iPage, s.scheduledPages, s.pagePool, if crcCheck then some (crc32 m.data) else none⟩)
    else .ok ((t, m), none)

/-- The buffers are transferred with the message. -/
def detach (t : DirtyPageTracker) : DirtyPageTracker :=
  if t.scheduledPageCount > 0 then { t with scheduledPages := [], pagePool := [] } else t

def markPage (dirtyPages : List Word) (page : ℕ) : List Word :=
  dirtyPages.modify (page / 32) (· ||| 1#32 <<< (page % 32))

def onSnapshotDone (cfg : TrackerConfig) (success : Bool) (snapshot : Option SnapshotPages)
    (t : DirtyPageTracker) (m : Memory) : DirtyPageTracker × Memory :=
  match snapshot with
  | none => (t, m)
  | some pages =>
    let restored : DirtyPageTracker := ⟨pages.scheduledPages, pages.pagePool, 0⟩
    if success then (restored, m)
    else
      let dirtyPages := (List.range t.scheduledPageCount).foldl
        (fun dirtyPages i => markPage dirtyPages (restored.scheduledPages.getD i 0)) m.dirtyPages
      (restored, setDirty cfg { m with dirtyPages } true)

end DirtyPageTracker

def Memory.write (cfg : TrackerConfig) (m : Memory) (index : ℕ) (value : Word) : Memory :=
  if index < m.data.length then
    { data := m.data.set index value
      dirtyPages := DirtyPageTracker.markPage m.dirtyPages (index / cfg.pageSize)
      dirty := true }
  else m

def marked (dirtyPages : List Word) (page : ℕ) : Prop :=
  (dirtyPages.getD (page / 32) 0).getLsbD (page % 32) = true

instance (dirtyPages : List Word) : DecidablePred (marked dirtyPages) :=
  fun _ => inferInstanceAs (Decidable (_ = true))

section Marks

variable {dirtyPages : List Word} {p q : ℕ}

theorem length_markPage (dirtyPages : List Word) (p : ℕ) :
    (DirtyPageTracker.markPage dirtyPages p).length = dirtyPages.length :=
  List.length_modify ..

theorem marked_markPage (hp : p / 32 < dirtyPages.length) :
    marked (DirtyPageTracker.markPage dirtyPages p) q ↔ q = p ∨ marked dirtyPages q := by
  have hk : p % 32 < 32 := Nat.mod_lt _ (by decide)
  unfold marked DirtyPageTracker.markPage
  rw [List.getD_eq_getElem?_getD, List.getElem?_modify, List.getD_eq_getElem?_getD]
  by_cases hword : p / 32 = q / 32
  · rw [← hword, List.getElem?_eq_getElem hp]
    simp only [if_true, Option.map_eq_map, Option.map_some, Option.getD_some]
    rw [BitVec.getLsbD_or, BitTest.getLsbD_bit hk, Bool.or_eq_true, decide_eq_true_eq, or_comm]
    refine or_congr_left ⟨fun hbit => ?_, fun h => by rw [h]⟩
    omega
  · simp only [if_neg hword, Option.map_eq_map, Option.map_id']
    have hne : q ≠ p := fun h => hword (by rw [h])
    exact (or_iff_right hne).symm

end Marks

end Cloudpilot.Uarm.SnapshotProtocol
