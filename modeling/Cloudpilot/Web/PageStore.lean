import Mathlib.Data.Prod.Lex
import Mathlib.Data.String.Basic
import Cloudpilot.Common.Crc
import Cloudpilot.Library.DirtyPages
import Cloudpilot.Library.ObjectStore
import Cloudpilot.Library.TypedArray

/-! # The storage service of the web page

Sessions and cards in the object stores of a database. Memory is kept in pages of 1024
bytes and cards in pages of 8192 bytes, and a page of one value is kept as a number.
-/

namespace Cloudpilot.Web

open Library Library.TypedArray Library.LittleEndian List

abbrev Word := BitVec 32

/-- `x >>> k`. -/
def ushr (x k : ℕ) : ℕ := x % 2 ^ 32 / 2 ^ k

/-- The keys of pages are pairs. -/
abbrev Key := ℕ ×ₗ ℕ

def key (id iPage : ℕ) : Key := toLex (id, iPage)

inductive StoredPage
  | number (value : Word)
  | words (page : List Word)
  | bytes (page : List Byte)
  | undefined
  deriving DecidableEq, Repr

inductive StorageCardStatus
  | dirty
  | clean
  | unformatted
  | unfixable
  deriving DecidableEq, Repr

structure StorageCard where
  id : ℕ
  storageId : String
  size : ℕ
  name : String
  status : StorageCardStatus
  dontFsckAutomatically : Bool
  deriving DecidableEq, Repr

/-- A session with the fields that belong to the stores. -/
structure Session where
  id : ℕ
  rom : String
  name : String
  mountedCard : Option ℕ
  deriving DecidableEq, Repr

structure MemoryMetadata where
  sessionId : ℕ
  totalSize : ℕ
  crc32 : Option Word
  deriving DecidableEq, Repr

/-- The object stores, and the key generators of two of them. -/
structure Database where
  session : ObjectStore ℕ Session
  nextSession : ℕ
  rom : ObjectStore String (List Byte)
  state : ObjectStore ℕ (List Byte)
  memory : ObjectStore Key StoredPage
  memoryMeta : ObjectStore ℕ MemoryMetadata
  storageCard : ObjectStore ℕ StorageCard
  nextCard : ℕ
  storage : ObjectStore Key StoredPage

/-- A bitmap in an array of bytes. -/
structure PageBitmap where
  length : ℕ
  bytes : ℕ → Byte

/-- What is thrown. -/
inductive Fault
  | error (message : String)
  | rangeError
  | typeError
  deriving DecidableEq, Repr

inductive CardOwner
  | cloudpilot
  | fstools
  | vfs
  | none
  deriving DecidableEq, Repr

def CardOwner.value : CardOwner → String
  | cloudpilot => "cloudpilot"
  | fstools => "fstools"
  | vfs => "vfs"
  | none => "none"

/-- `getOwner` of the storage card context. -/
abbrev Ownership := ℕ → CardOwner

def ownershipMessage (actual owner : CardOwner) : String :=
  if owner = .none then "Card alread claimed for " ++ actual.value ++ "."
  else "Expected card ownership to be " ++ owner.value ++ ", but is " ++ actual.value ++ "."

def assertOwnership (ownership : Ownership) (cardId : ℕ) (owner : CardOwner) : Except Fault Unit :=
  if ownership cardId = owner then .ok ()
  else .error (.error (ownershipMessage (ownership cardId) owner))

/-- The loops of the two functions. -/
@[irreducible] def all (first last : ℕ) (test : ℕ → Bool) : Bool :=
  (List.range last).all fun i => i < first || test i

/-- The loop compares unsigned words with a probe that is a signed number. -/
def compressPage (page : List Word) : StoredPage :=
  let value := page.getD 0 0 &&& 0xff#32
  let probe := value ||| value <<< 8
  let probe := probe ||| probe <<< 16
  if all 0 256 fun i => page[i]?.map (fun w => (w.toNat : ℤ)) = some probe.toInt then .number value
  else .words page

def compressStoragePage (page : List Word) : StoredPage :=
  if all 1 2048 fun i => page[i]? = page[0]? then page[0]?.elim .undefined .number else .words page

/-- One page of `saveMemory`, with the page buffer that is used for all of them. -/
def saveMemoryPage (sessionId : ℕ) (memory8 : List Byte)
    (s : List Byte × ObjectStore Key StoredPage) (i : ℕ) :
    List Byte × ObjectStore Key StoredPage :=
  let page8 := overwrite s.1 0 (subarray memory8 (i * 1024 : ℕ) ((i + 1) * 1024 : ℕ))
  (page8, s.2.put (compressPage (wordsOf page8)) (key sessionId i))

def saveMemory (db : Database) (sessionId : ℕ) (memory8 : List Byte) : Database :=
  let pageCount := ushr memory8.length 10
  let memory := db.memory.deleteRange (key sessionId 0) (key (sessionId + 1) 0)
  { db with
    memoryMeta := db.memoryMeta.put ⟨sessionId, memory8.length, none⟩ sessionId
    memory := ((List.range pageCount).foldl (saveMemoryPage sessionId memory8)
      (List.replicate 1024 0#8, memory)).2 }

/-- One record of the cursor of `loadMemory`. -/
def loadMemoryPage (memory : List Word) (r : ℕ × StoredPage) : Option (List Word) :=
  let first : ℤ := (r.1 * 256 : ℕ)
  let last : ℤ := ((r.1 + 1) * 256 : ℕ)
  match r.2 with
  | .number value =>
    some (fillView memory first last (value ||| value <<< 8 ||| value <<< 16 ||| value <<< 24))
  | .words page => setView memory first last page
  | .bytes page =>
    if page.length = 1024 then setView memory first last (wordsOf page)
    else setView memory first last (page.map (BitVec.setWidth 32))
  | .undefined => none

/-- The pages of one session or card, in the order of the cursor. -/
def pagesOf (store : ObjectStore Key StoredPage) (id : ℕ) : List (ℕ × StoredPage) :=
  (store.range (key id 0) (key (id + 1) 0)).records.map fun r => ((ofLex r.1).2, r.2)

def loadMemory (debug : Bool) (db : Database) (sessionId : ℕ) (checkCrc : Bool) :
    Except Fault (Option (List Byte)) :=
  match db.memoryMeta.get sessionId with
  | none => .ok none
  | some metadata =>
    match (pagesOf db.memory sessionId).foldlM loadMemoryPage
        (List.replicate (ushr metadata.totalSize 2) 0#32) with
    | none => .error .rangeError
    | some words =>
      let memory := words.flatMap word
      if metadata.crc32.isSome ∧ checkCrc ∧ debug ∧
          metadata.crc32 ≠ some (Common.Crc.crc32 memory) then
        .error (.error "snapshot CRC mismatch")
      else .ok (some memory)

def addSession (md5 : List Byte → String) (db : Database) (session : Session) (rom : List Byte)
    (memory state : Option (List Byte)) : Database × Session :=
  let hash := md5 rom
  let db := if (db.rom.get hash).isSome then db else { db with rom := db.rom.put rom hash }
  let storedSession := { session with id := db.nextSession, rom := hash }
  let db := { db with
    session := db.session.put storedSession db.nextSession
    nextSession := db.nextSession + 1 }
  let db := memory.elim db (saveMemory db storedSession.id)
  let db := state.elim db fun state => { db with state := db.state.put state storedSession.id }
  (db, storedSession)

/-- The ROM, the memory and the state. -/
def loadSession (debug : Bool) (db : Database) (session : Session) (checkCrc : Bool) :
    Except Fault (Option (List Byte) × Option (List Byte) × Option (List Byte)) := do
  let memory ← loadMemory debug db session.id checkCrc
  .ok (db.rom.get session.rom, memory, db.state.get session.id)

/-- One page of `importStorageCard`. The last one is padded. -/
def importPage (id : ℕ) (data : List Word) (pageCount : ℕ) (store : ObjectStore Key StoredPage)
    (iPage : ℕ) : ObjectStore Key StoredPage :=
  let page := subarray data (iPage * 2048 : ℕ) ((iPage + 1) * 2048 : ℕ)
  let compressedPage := compressStoragePage
    (if iPage + 1 = pageCount then overwrite (List.replicate 2048 0#32) 0 page else page)
  if compressedPage = .number 0#32 then store else store.put compressedPage (key id iPage)

/-- Lengths are in words here and in bytes there. -/
def importStorageCard (db : Database) (card : StorageCard) (data : List Word) :
    Database × StorageCard :=
  let updatedCard := { card with id := db.nextCard }
  let pageCount := ushr card.size 13 + if data.length % 8192 = 0 then 0 else 1
  ({ db with
      storageCard := db.storageCard.put updatedCard db.nextCard
      nextCard := db.nextCard + 1
      storage := (List.range pageCount).foldl (importPage db.nextCard data pageCount) db.storage },
    updatedCard)

/-- An array that is put into a page of the target, without what is behind the end of it. -/
def clipPage (target : List Word) (iPage : ℕ) (page : List Word) : List Word :=
  if (iPage + 1) * 2048 > target.length then
    subarray page 0 (2048 - ((iPage + 1) * 2048 : ℕ) + (target.length : ℤ))
  else page

/-- One record of the cursor of `loadCardData`. -/
def loadCardPage (target : List Word) (r : ℕ × StoredPage) : Option (List Word) :=
  let first : ℤ := (r.1 * 2048 : ℕ)
  let last : ℤ := ((r.1 + 1) * 2048 : ℕ)
  match r.2 with
  | .number value => some (fillView target first last value)
  | .words page => setView target first last (clipPage target r.1 page)
  | .bytes page => setView target first last (clipPage target r.1 (page.map (BitVec.setWidth 32)))
  | .undefined => none

/-- What the target holds afterwards. -/
def loadCardData (ownership : Ownership) (db : Database) (id : ℕ) (target : List Word)
    (owner : CardOwner) : Except Fault (List Word) := do
  let target := List.replicate target.length 0#32
  assertOwnership ownership id owner
  match (pagesOf db.storage id).foldlM loadCardPage target with
  | none => .error .rangeError
  | some target => .ok target

def pagesTotal (size : ℕ) : ℕ := ushr size 13 + if size % 8192 > 0 then 1 else 0

def dirtyPagesSize (imageSize : ℕ) : ℕ :=
  ushr (pagesTotal imageSize) 3 + if pagesTotal imageSize % 8 > 0 then 1 else 0

def updatePage (id : ℕ) (data : List Word) (store : ObjectStore Key StoredPage) (iPage : ℕ) :
    Except Fault (ObjectStore Key StoredPage) :=
  .ok (store.put (.words (subarray data (iPage * 2048 : ℕ) ((iPage + 1) * 2048 : ℕ)))
    (key id iPage))

def updatePages (id total : ℕ) (data : List Word) (dirtyPages : PageBitmap)
    (store : ObjectStore Key StoredPage) : Except Fault (ℕ × ObjectStore Key StoredPage) :=
  (List.range dirtyPages.length).foldlM
    (fun s i => visitByte total (dirtyPages.bytes i) (updatePage id data) s) (0, store)

def updateCardData (ownership : Ownership) (db : Database) (id : ℕ) (data : List Word)
    (dirtyPages : PageBitmap) (owner : CardOwner) : Except Fault Database := do
  assertOwnership ownership id owner
  match db.storageCard.get id with
  | none => .error (.error s!"no card with ID {id}")
  | some card =>
    if data.length ≠ ushr card.size 2 then .error (.error "data size mismatch")
    else if dirtyPagesSize card.size ≠ dirtyPages.length then
      .error (.error "dirty pages size mismatch")
    else
      let (_, storage) ← updatePages card.id (pagesTotal card.size) data dirtyPages db.storage
      .ok { db with storage }

open Library Library.TypedArray Library.LittleEndian Library.PagedArray

theorem key_inj {id id' i i' : ℕ} : key id i = key id' i' ↔ id = id' ∧ i = i' := by
  rw [key, key, toLex_inj, Prod.mk.injEq]

theorem key_range {id : ℕ} {k : Key} :
    key id 0 ≤ k ∧ k < key (id + 1) 0 ↔ (ofLex k).1 = id := by
  rw [key, key, Prod.Lex.le_iff, Prod.Lex.lt_iff]
  simp only [ofLex_toLex]
  omega

theorem key_mem_range {id id' i : ℕ} :
    key id 0 ≤ key id' i ∧ key id' i < key (id + 1) 0 ↔ id' = id := by
  rw [key_range]
  rfl

section Records

variable {store : ObjectStore Key StoredPage} {id i : ℕ} {v : StoredPage}

theorem mem_pagesOf : (i, v) ∈ pagesOf store id ↔ store.get (key id i) = some v := by
  rw [pagesOf, mem_map]
  constructor
  · rintro ⟨⟨k, v'⟩, hmem, heq⟩
    obtain ⟨hget, hrange⟩ := ObjectStore.mem_range.mp hmem
    have hid := key_range.mp hrange
    rw [Prod.mk.injEq] at heq
    have hkey : k = key id i := by
      rw [← hid, ← heq.1]
      rfl
    rw [← hkey, hget]
    exact congrArg some heq.2
  · intro hget
    exact ⟨(key id i, v), ObjectStore.mem_range.mpr ⟨hget, key_mem_range.mpr rfl⟩, rfl⟩

theorem nodup_pagesOf (store : ObjectStore Key StoredPage) (id : ℕ) :
    ((pagesOf store id).map Prod.fst).Nodup := by
  rw [pagesOf, map_map]
  have hnodup := (store.range (key id 0) (key (id + 1) 0)).nodup
  rw [List.Nodup, pairwise_map] at hnodup ⊢
  apply hnodup.imp_of_mem
  intro r r' hr hr' hne hsame
  apply hne
  have hid := key_range.mp (ObjectStore.mem_range.mp hr).2
  have hid' := key_range.mp (ObjectStore.mem_range.mp hr').2
  have hpair : ofLex r.1 = ofLex r'.1 := Prod.ext (hid.trans hid'.symm) hsame
  exact ofLex_inj.mp hpair

end Records

/-- A size, the meaning of a record in a page of a length, the records that a page of a length
takes, and the reader. -/
structure PageFormat where
  size : ℕ
  decode : ℕ → StoredPage → List Word
  Fits : ℕ → StoredPage → Prop
  load : List Word → ℕ × StoredPage → Option (List Word)
  pos : 0 < size
  decode_length : ∀ {length v}, Fits length v → (decode length v).length = length
  load_eq : ∀ {target : List Word} {r : ℕ × StoredPage}, r.1 * size < target.length →
    Fits (min size (target.length - r.1 * size)) r.2 →
    load target r =
      some (overwrite target (r.1 * size) (decode (min size (target.length - r.1 * size)) r.2))

namespace PageFormat

variable (f : PageFormat)

/-- The length of a page of an array. -/
def viewLength (length i : ℕ) : ℕ := min f.size (length - i * f.size)

/-- A page of an array of zeros. -/
def zeros (length i : ℕ) : List Word := List.replicate (f.viewLength length i) 0#32

/-- What the reader makes of a page. -/
def stored (store : ObjectStore Key StoredPage) (id length i : ℕ) : List Word :=
  (store.get (key id i)).elim (f.zeros length i)
    (f.decode (f.viewLength length i))

/-- All records can be read. -/
def Sound (store : ObjectStore Key StoredPage) (id length : ℕ) : Prop :=
  ∀ i v, store.get (key id i) = some v → i * f.size < length ∧ f.Fits (f.viewLength length i) v

structure Holds (store : ObjectStore Key StoredPage) (id : ℕ) (a : List Word) : Prop where
  sound : f.Sound store id a.length
  stored : ∀ i, f.stored store id a.length i = page f.size i a

variable {f} {store store' : ObjectStore Key StoredPage} {id id' length i j : ℕ} {a b : List Word}
  {v : StoredPage}

theorem Sound.load (h : f.Sound store id length) :
    ∃ a, (pagesOf store id).foldlM f.load (List.replicate length 0#32) = some a ∧
      a.length = length ∧ ∀ i, page f.size i a = f.stored store id length i := by
  have hlength : (replicate length 0#32).length = length := length_replicate
  have hfits : ∀ r ∈ pagesOf store id,
      r.1 * f.size < length ∧ f.Fits (f.viewLength length r.1) r.2 :=
    fun r hr => h r.1 r.2 (mem_pagesOf.mp hr)
  obtain ⟨a, ha, halength, hpages, hother⟩ := foldlM_pages (a := replicate length 0#32)
    (n := f.size) f.load (fun i v => f.decode (f.viewLength length i) v) (nodup_pagesOf store id)
    (fun r hr => ⟨by rw [hlength]; exact (hfits r hr).1.le, by
      rw [hlength]
      exact f.decode_length (hfits r hr).2⟩)
    (fun b hb r hr => by
      rw [hlength] at hb
      have hi : r.1 * f.size < b.length := by
        rw [hb]
        exact (hfits r hr).1
      have hload := f.load_eq hi (by rw [hb]; exact (hfits r hr).2)
      rw [hb] at hload
      exact hload)
  refine ⟨a, ha, halength.trans hlength, ?_⟩
  intro i
  rw [stored]
  cases hget : store.get (key id i) with
  | none =>
    have hno : ∀ r ∈ pagesOf store id, r.1 ≠ i := by
      rintro ⟨i', v'⟩ hr rfl
      have hsome := mem_pagesOf.mp hr
      rw [hget] at hsome
      cases hsome
    rw [hother i hno, page_replicate]
    rfl
  | some v => exact hpages (i, v) (mem_pagesOf.mpr hget)

theorem Holds.load (h : f.Holds store id a) :
    (pagesOf store id).foldlM f.load (List.replicate a.length 0#32) = some a := by
  obtain ⟨b, hb, hlength, hpages⟩ := h.sound.load
  have hsame : b = a := ext_page f.pos fun i => (hpages i).trans (h.stored i)
  rw [hb, hsame]

theorem Sound.stored_of_le (h : f.Sound store id length) (hi : length ≤ i * f.size) :
    f.stored store id length i = [] := by
  have hview : f.viewLength length i = 0 := by
    rw [viewLength]
    omega
  rw [stored]
  cases hget : store.get (key id i) with
  | none => exact congrArg (replicate · 0#32) hview
  | some v => exact absurd (h i v hget).1 (not_lt.mpr hi)

theorem Sound.holds (h : f.Sound store id a.length)
    (hstored : ∀ i, i * f.size < a.length → f.stored store id a.length i = page f.size i a) :
    f.Holds store id a := by
  refine ⟨h, fun i => ?_⟩
  by_cases hi : i * f.size < a.length
  · grind
  · rw [h.stored_of_le (not_lt.mp hi), page_of_length_le (not_lt.mp hi)]

theorem sound_fresh (h : ∀ i, store.get (key id i) = none) (length : ℕ) :
    f.Sound store id length ∧
      ∀ i, f.stored store id length i = f.zeros length i := by
  constructor
  · intro i v hget
    rw [h i] at hget
    cases hget
  · grind [stored]

theorem holds_zeros (id length : ℕ) :
    f.Holds ObjectStore.empty id (List.replicate length 0#32) := by
  have hfresh : ∀ i, (ObjectStore.empty : ObjectStore Key StoredPage).get (key id i) = none :=
    fun _ => rfl
  obtain ⟨hsound, hstored⟩ := sound_fresh (f := f) hfresh length
  constructor
  · grind [length_replicate]
  · intro i
    rw [length_replicate, hstored i, page_replicate]
    rfl

theorem stored_put (store : ObjectStore Key StoredPage) (v : StoredPage) (id length i j : ℕ) :
    f.stored (store.put v (key id i)) id length j =
      if j = i then f.decode (f.viewLength length j) v else f.stored store id length j := by
  rw [stored, ObjectStore.get_put, stored]
  by_cases h : j = i
  · grind
  · rw [if_neg (fun hkey => h (key_inj.mp hkey).2), if_neg h]

theorem Sound.put (h : f.Sound store id length) (hi : i * f.size < length)
    (hv : f.Fits (f.viewLength length i) v) : f.Sound (store.put v (key id i)) id length := by
  intro j w hget
  rw [ObjectStore.get_put] at hget
  split_ifs at hget with hkey
  · obtain rfl := (key_inj.mp hkey).2
    cases hget
    exact ⟨hi, hv⟩
  · exact h j w hget

theorem stored_congr (h : ∀ i, store'.get (key id i) = store.get (key id i)) :
    f.stored store' id length i = f.stored store id length i := by
  rw [stored, h, stored]

theorem Sound.congr (hsound : f.Sound store id length)
    (h : ∀ i, store'.get (key id i) = store.get (key id i)) : f.Sound store' id length :=
  fun i v hget => hsound i v ((h i).symm.trans hget)

theorem Holds.congr (hholds : f.Holds store id a)
    (h : ∀ i, store'.get (key id i) = store.get (key id i)) : f.Holds store' id a :=
  ⟨hholds.sound.congr h, fun i => (stored_congr h).trans (hholds.stored i)⟩

theorem get_put_other (hid : id ≠ id') (i j : ℕ) :
    (store.put v (key id' j)).get (key id i) = store.get (key id i) :=
  ObjectStore.get_put_of_ne store v fun hkey => hid (key_inj.mp hkey).1

/-- The pages in front of a number are those of the new array, all others are the old ones. -/
structure Flushed (f : PageFormat) (old : ℕ → List Word) (new : List Word) (id p : ℕ)
    (store : ObjectStore Key StoredPage) : Prop where
  sound : f.Sound store id new.length
  stored : ∀ j, f.stored store id new.length j = if j < p then page f.size j new else old j

section Flushed

variable {old : ℕ → List Word} {new : List Word} {p : ℕ}

theorem Flushed.start (h : f.Sound store id new.length)
    (hold : ∀ j, f.stored store id new.length j = old j) : Flushed f old new id 0 store :=
  ⟨h, fun j => (hold j).trans (if_neg (Nat.not_lt_zero j)).symm⟩

section

variable (h : Flushed f old new id p store)

include h

theorem Flushed.succ (hsound : f.Sound store' id new.length)
    (hstored : ∀ j, f.stored store' id new.length j =
      if j = p then page f.size j new else f.stored store id new.length j) :
    Flushed f old new id (p + 1) store' := by
  refine ⟨hsound, fun j => ?_⟩
  rw [hstored j, h.stored j]
  by_cases hjp : j = p <;> grind

theorem Flushed.skip (hsame : old p = page f.size p new) : Flushed f old new id (p + 1) store := by
  apply h.succ h.sound
  intro j
  split_ifs with hjp
  · subst hjp
    rw [h.stored j, if_neg (lt_irrefl j), hsame]
  · rfl

theorem Flushed.put (hp : p * f.size < new.length) (hfits : f.Fits (f.viewLength new.length p) v)
    (hdecode : f.decode (f.viewLength new.length p) v = page f.size p new) :
    Flushed f old new id (p + 1) (store.put v (key id p)) := by
  apply h.succ (h.sound.put hp hfits)
  intro j
  rw [stored_put]
  by_cases hjp : j = p <;> grind

theorem Flushed.holds (hall : ∀ i, i * f.size < new.length → i < p) : f.Holds store id new := by
  apply h.sound.holds
  intro i hi
  rw [h.stored i, if_pos (hall i hi)]

end

end Flushed

end PageFormat

end Cloudpilot.Web
