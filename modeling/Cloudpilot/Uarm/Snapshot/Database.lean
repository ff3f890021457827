import Cloudpilot.Library.DirtyPages
import Cloudpilot.Library.ObjectStore
import Cloudpilot.Uarm.Snapshot.TakePages

/-! # The page stores of the database

NAND, SD card and RAM are kept in pages, and a page of one value as a number. A
transaction may fail between two requests, and then what was requested before may
still be committed.
-/
namespace Cloudpilot.Uarm.SnapshotProtocol
open Library Library.TypedArray Library.PagedArray

/-- The memories of the emulator that are stored. -/
inductive Kind
  | nand
  | sd
  | ram
  deriving DecidableEq, Repr

def Kind.pageSize : Kind → ℕ
  | nand => 528 * 8 / 4
  | sd => 8 * 1024 / 4
  | ram => 512 / 4

def Kind.emptyValue : Kind → Word
  | nand => 0xffffffff
  | sd => 0
  | ram => 0

def Kind.alwaysDirty : Kind → Bool
  | ram => true
  | _ => false

/-- The tracker of a memory of so many pages. -/
def Kind.config (k : Kind) (count : Kind → ℕ) : TrackerConfig := ⟨k.pageSize, count k, k.alwaysDirty⟩

theorem Kind.pageSize_pos (k : Kind) : 0 < k.pageSize := by
  cases k <;> decide

abbrev Snapshot := Kind → Option SnapshotPages

inductive StoredPage
  | number (value : Word)
  | words (page : List Word)
  deriving DecidableEq, Repr

structure ImageStore where
  pages : ObjectStore ℕ StoredPage
  crc : Option Word

/-- The page stores, and the names and the size that are kept with them. -/
structure Database where
  image : Kind → ImageStore
  nandName : Option String
  sdName : Option String
  sdSize : Option ℕ

/-- One record of the cursor. -/
def loadPage (pageSize pagesTotal : ℕ) (data : List Word) (r : ℕ × StoredPage) :
    Except Fault (List Word) :=
  let pageIndex := r.1
  if pageIndex > pagesTotal then .error (.error s!"page index {pageIndex} out of bounds")
  else match r.2 with
    | .number value => .ok
      (fillView data (pageIndex * pageSize : ℕ) ((pageIndex + 1) * pageSize : ℕ) value)
    | .words page =>
      match setView data (pageIndex * pageSize : ℕ) ((pageIndex + 1) * pageSize : ℕ) page with
      | none => .error .rangeError
      | some data => .ok data

def getPagedData (size pageSize : ℕ) (store : ObjectStore ℕ StoredPage) (emptyValue : Word) :
    Except Fault (List Word) :=
  if size % pageSize ≠ 0 then .error (.error "invalid size")
  else store.records.foldlM (loadPage pageSize (size / pageSize)) (List.replicate size emptyValue)

/-- The warning of a checksum that does not match. -/
def crcAlert (k : Kind) (crcCheck : Bool) (image : ImageStore) (content : List Word) :
    List String :=
  match image.crc with
  | none => []
  | some crc =>
    if crcCheck ∧ crc ≠ crc32 content then
      match k with
      | .nand => ["CRC mismatch on NAND load!"]
      | .sd => ["CRC mismatch on SD load!"]
      | .ram => ["CRC mismatch on RAM load!"]
    else []

/-- `getNand`, `getSd` and `getRam`: the content of a memory of `count` pages. -/
def getContent (k : Kind) (count : ℕ) (crcCheck : Bool) (db : Database) :
    Except Fault (List Word × List String) := do
  let content ← getPagedData (k.pageSize * count) k.pageSize (db.image k).pages k.emptyValue
  .ok (content, crcAlert k crcCheck (db.image k) content)

/-- An empty page does not occur. -/
def compressPage : List Word → StoredPage
  | [] => .words []
  | fst :: rest => if rest.all (· = fst) then .number fst else .words (fst :: rest)

/-- One page of `putPagedData`. -/
def putPage (pageSize : ℕ) (emptyValue : Word) (data : List Word)
    (store : ObjectStore ℕ StoredPage) (iPage : ℕ) : ObjectStore ℕ StoredPage :=
  let compressedPage := compressPage
    (subarray data (iPage * pageSize : ℕ) ((iPage + 1) * pageSize : ℕ))
  if compressedPage = .number emptyValue then store else store.put compressedPage iPage

def putPagedData (data : List Word) (pageSize : ℕ) (emptyValue : Word) :
    Except Fault (ObjectStore ℕ StoredPage) :=
  if data.length % pageSize ≠ 0 then .error (.error "invalid NAND size")
  else .ok ((List.range (data.length / pageSize)).foldl (putPage pageSize emptyValue data) .empty)

/-- `putNand`, `putSd` and `putRam`. A new NAND image comes with cleared RAM. -/
def putContent (k : Kind) (name : String) (data : List Word) (db : Database) :
    Except Fault Database := do
  let pages ← putPagedData data k.pageSize k.emptyValue
  let image := Function.update db.image k ⟨pages, none⟩
  match k with
  | .nand => .ok { db with
      image := Function.update image .ram ⟨.empty, none⟩
      nandName := some name }
  | .sd => .ok { db with image, sdName := some name, sdSize := some data.length }
  | .ram => .ok { db with image }

/-- The variables of `storeSnapshotPages`, and how many requests succeed before one fails. -/
structure Storing where
  store : ObjectStore ℕ StoredPage
  retainedPagePool : List (List Word)
  iPool : ℕ
  requests : ℕ

def Storing.put (s : Storing) (v : StoredPage) (key : ℕ) : Except Storing Storing :=
  if s.requests = 0 then .error s
  else .ok { s with store := s.store.put v key, requests := s.requests - 1 }

/-- One scheduled page. A buffer is pushed for every page, whether there is one or not. -/
def storePage (pageSize : ℕ) (snapshot : SnapshotPages) (s : Storing) (iPage : ℕ) :
    Except Storing Storing :=
  let key := snapshot.scheduledPages.getD iPage 0
  match compressPage (subarray snapshot.pagePool (iPage * pageSize : ℕ)
      ((iPage + 1) * pageSize : ℕ)) with
  | .number value => s.put (.number value) key
  | .words page =>
    let pool := if s.retainedPagePool.length ≥ s.iPool then
      s.retainedPagePool ++ [List.replicate pageSize 0] else s.retainedPagePool
    let buffer := pool.getD s.iPool []
    if buffer.length < page.length then .error { s with retainedPagePool := pool }
    else
      let pageBuffer := overwrite buffer 0 page
      ({ s with retainedPagePool := pool.set s.iPool pageBuffer, iPool := s.iPool + 1 } :
        Storing).put (.words pageBuffer) key

structure Transaction where
  image : Kind → ImageStore
  retained : Kind → List (List Word)
  requests : ℕ

def Transaction.update (tx : Transaction) (k : Kind) (s : Storing) (crc : Option Word) :
    Transaction where
  image := Function.update tx.image k ⟨s.store, crc⟩
  retained := Function.update tx.retained k s.retainedPagePool
  requests := s.requests

/-- The pages of one memory, and then its checksum. -/
def storeKind (snapshot : Snapshot) (tx : Transaction) (k : Kind) :
    Except Transaction Transaction :=
  match snapshot k with
  | none => .ok tx
  | some pages =>
    match (List.range pages.scheduledPageCount).foldlM (storePage k.pageSize pages)
        ⟨(tx.image k).pages, tx.retained k, 0, tx.requests⟩ with
    | .error s => .error (tx.update k s (tx.image k).crc)
    | .ok s =>
      if s.requests = 0 then .error (tx.update k s (tx.image k).crc)
      else .ok (tx.update k { s with requests := s.requests - 1 } pages.crc)

/-- How a transaction goes: whether this page holds the lock, how many requests succeed
before one throws, and whether what was requested is committed. -/
structure StoreOutcome where
  lock : Bool
  requests : ℕ
  commits : Bool

structure DatabaseThread where
  database : Database
  retained : Kind → List (List Word)

/-- The second component says whether the promise is fulfilled. -/
def storeSnapshot (t : DatabaseThread) (snapshot : Snapshot) (outcome : StoreOutcome) :
    DatabaseThread × Bool :=
  if ¬ outcome.lock then (t, false)
  else
    match [Kind.nand, Kind.sd, Kind.ram].foldlM (storeKind snapshot)
        ⟨t.database.image, t.retained, outcome.requests⟩ with
    | .error tx =>
      (⟨if outcome.commits then { t.database with image := tx.image } else t.database,
        tx.retained⟩, false)
    | .ok tx =>
      if outcome.commits then (⟨{ t.database with image := tx.image }, tx.retained⟩, true)
      else (⟨t.database, tx.retained⟩, false)

def StoredPage.decode (pageSize : ℕ) : StoredPage → List Word
  | .number value => List.replicate pageSize value
  | .words page => page

def storedPage (k : Kind) (store : ObjectStore ℕ StoredPage) (p : ℕ) : List Word :=
  (store.get p).elim (List.replicate k.pageSize k.emptyValue) (StoredPage.decode k.pageSize)

/-- All records are whole pages of the memory. -/
def Sound (k : Kind) (count : ℕ) (store : ObjectStore ℕ StoredPage) : Prop :=
  ∀ p v, store.get p = some v → p < count ∧ (v.decode k.pageSize).length = k.pageSize

section Read

variable {k : Kind} {count : ℕ} {store : ObjectStore ℕ StoredPage}

theorem foldlM_toOption {α β ε : Type} (f : β → α → Except ε β) (l : List α) (b : β) :
    (l.foldlM f b).toOption = l.foldlM (fun b a => (f b a).toOption) b := by
  induction l generalizing b with
  | nil => rfl
  | cons a l ih =>
    rw [List.foldlM_cons, List.foldlM_cons]
    cases hf : f b a with
    | error e => rfl
    | ok b' => exact ih b'

theorem loadPage_eq {data : List Word} (hdata : data.length = k.pageSize * count)
    {r : ℕ × StoredPage} (hr : r.1 < count)
    (hlength : (r.2.decode k.pageSize).length = k.pageSize) :
    loadPage k.pageSize count data r =
      .ok (overwrite data (r.1 * k.pageSize) (r.2.decode k.pageSize)) := by
  obtain ⟨p, v⟩ := r
  have hend : (p + 1) * k.pageSize ≤ data.length := by
    rw [hdata, Nat.mul_comm k.pageSize]
    exact Nat.mul_le_mul_right _ hr
  have hnext : (p + 1) * k.pageSize = p * k.pageSize + k.pageSize := Nat.succ_mul p k.pageSize
  rw [loadPage]
  rw [if_neg (by omega), hnext, Nat.cast_add]
  cases v with
  | number value =>
    dsimp only
    rw [fillView_natCast (by omega)]
    rfl
  | words page =>
    have hpage : page.length = k.pageSize := hlength
    dsimp only
    rw [← hpage, setView_natCast (by rw [hpage]; omega)]
    rfl

theorem getPagedData_spec (h : Sound k count store) :
    ∃ data, getPagedData (k.pageSize * count) k.pageSize store k.emptyValue = .ok data ∧
      data.length = k.pageSize * count ∧
      ∀ p < count, page k.pageSize p data = storedPage k store p := by
  have hpos := k.pageSize_pos
  have hrecords : ∀ r ∈ store.records, r.1 < count ∧ (r.2.decode k.pageSize).length = k.pageSize :=
    fun r hr => h r.1 r.2 (ObjectStore.get_eq_some.mpr hr)
  have hstart : (List.replicate (k.pageSize * count) k.emptyValue).length = k.pageSize * count :=
    List.length_replicate
  have hinside : ∀ p < count, p * k.pageSize + k.pageSize ≤ k.pageSize * count := by
    intro p hp
    rw [← Nat.succ_mul, Nat.mul_comm k.pageSize]
    exact Nat.mul_le_mul_right _ hp
  obtain ⟨data, hfold, hlength, hpages, hother⟩ := foldlM_pages (n := k.pageSize)
    (a := List.replicate (k.pageSize * count) k.emptyValue)
    (fun b r => (loadPage k.pageSize count b r).toOption) (fun _ v => v.decode k.pageSize)
    store.nodup (fun r hr => by
      have hin := hinside r.1 (hrecords r hr).1
      rw [hstart, (hrecords r hr).2]
      omega)
    (fun b hb r hr => by
      rw [loadPage_eq (hb.trans hstart) (hrecords r hr).1 (hrecords r hr).2]
      rfl)
  refine ⟨data, ?_, hlength.trans hstart, ?_⟩
  · rw [getPagedData, if_neg (by simp), Nat.mul_div_cancel_left _ hpos]
    rw [← foldlM_toOption] at hfold
    cases hrun : store.records.foldlM (loadPage k.pageSize count)
        (List.replicate (k.pageSize * count) k.emptyValue) with
    | error e => rw [hrun] at hfold; cases hfold
    | ok b =>
      rw [hrun] at hfold
      exact congrArg Except.ok (Option.some.inj hfold)
  · intro p hp
    rw [storedPage]
    cases hget : store.get p with
    | some v => exact hpages (p, v) (ObjectStore.get_eq_some.mp hget)
    | none =>
      rw [hother p, page_replicate]
      · have hin := hinside p hp
        rw [Nat.min_eq_left (by omega)]
        rfl
      · rintro ⟨p', v⟩ hr rfl
        rw [ObjectStore.get_eq_some.mpr hr] at hget
        cases hget

end Read

end Cloudpilot.Uarm.SnapshotProtocol
