import Cloudpilot.Web.StoredPages

/-! # Memory in the page store

A session is loaded as it was added: the ROM, the state, and the memory from its pages.
-/

namespace Cloudpilot.Web

open Library Library.TypedArray Library.LittleEndian Library.PagedArray List

theorem ushr_of_lt {x k : ℕ} (h : x < 2 ^ 32) : ushr x k = x / 2 ^ k := by
  rw [ushr, Nat.mod_eq_of_lt h]

theorem overwrite_all {α : Type} {a source : List α} (h : source.length = a.length) :
    overwrite a 0 source = source := by
  rw [overwrite, take_zero, nil_append, Nat.zero_add, h, drop_length,
    append_nil]

theorem overwrite_nil {α : Type} (a : List α) : overwrite a 0 [] = a := by
  simp [overwrite]

theorem take_overwrite_zero {α : Type} (a source : List α) :
    (overwrite a 0 source).take source.length = source := by
  rw [overwrite, take_zero, nil_append, take_left]

section Memory

variable {db : Database} {k : ℕ} {memory8 : List Byte}

theorem wordsOf_page (i : ℕ) (bytes : List Byte) :
    wordsOf (page 1024 i bytes) = page 256 i (wordsOf bytes) := by
  have hstart : i * 1024 = 4 * (i * 256) := by omega
  rw [page, page, hstart, ← wordsOf_drop]
  exact wordsOf_take _ 256

theorem saveMemoryPage_spec (sessionId : ℕ) {i : ℕ} {s : List Byte × ObjectStore Key StoredPage}
    (hlength : memory8.length = 1024 * k) (hi : i < k) (hpage8 : s.1.length = 1024) :
    (saveMemoryPage sessionId memory8 s i).1.length = 1024 ∧
      (saveMemoryPage sessionId memory8 s i).2 =
        s.2.put (compressPage (page 256 i (wordsOf memory8))) (key sessionId i) := by
  have hpage : (page 1024 i memory8).length = 1024 := by
    rw [length_page]
    omega
  rw [saveMemoryPage]
  rw [subarray_page, overwrite_all (hpage.trans hpage8.symm), wordsOf_page]
  exact ⟨hpage, rfl⟩

theorem saveMemory_holds (db : Database) (sessionId : ℕ) (hlength : memory8.length = 1024 * k)
    (hsize : memory8.length < 2 ^ 32) :
    memoryFormat.Holds (saveMemory db sessionId memory8).memory sessionId (wordsOf memory8) := by
  have hwords : (wordsOf memory8).length = 256 * k := length_wordsOf (by omega)
  have hcount : ushr memory8.length 10 = k := by
    rw [ushr_of_lt hsize]
    omega
  have hfresh : ∀ i, (db.memory.deleteRange (key sessionId 0) (key (sessionId + 1) 0)).get
      (key sessionId i) = none := by
    intro i
    rw [ObjectStore.get_deleteRange, if_pos (key_mem_range.mpr rfl)]
  obtain ⟨hsound, hzero⟩ :=
    PageFormat.sound_fresh (f := memoryFormat) hfresh (wordsOf memory8).length
  have hloop : ((List.range k).foldl (saveMemoryPage sessionId memory8) (replicate 1024 0#8,
        db.memory.deleteRange (key sessionId 0) (key (sessionId + 1) 0))).1.length = 1024 ∧
      memoryFormat.Flushed (memoryFormat.zeros (wordsOf memory8).length) (wordsOf memory8) sessionId k
        ((List.range k).foldl (saveMemoryPage sessionId memory8) (replicate 1024 0#8,
          db.memory.deleteRange (key sessionId 0) (key (sessionId + 1) 0))).2 := by
    apply foldl_range (I := fun i (s : List Byte × ObjectStore Key StoredPage) =>
      s.1.length = 1024 ∧ memoryFormat.Flushed (memoryFormat.zeros (wordsOf memory8).length) (wordsOf memory8) sessionId i s.2)
    · exact ⟨length_replicate, .start hsound hzero⟩
    · rintro i hi s ⟨hbuffer, hs⟩
      obtain ⟨hpage8, hput⟩ := saveMemoryPage_spec sessionId hlength hi hbuffer
      have hview : memoryFormat.viewLength (wordsOf memory8).length i = 256 := by
        rw [PageFormat.viewLength, hwords]
        exact Nat.min_eq_left (show 256 ≤ 256 * k - i * 256 by omega)
      have hpage : (page 256 i (wordsOf memory8)).length = 256 := by
        rw [length_page, hwords]
        omega
      have hinside : i * memoryFormat.size < (wordsOf memory8).length := by
        rw [hwords]
        exact show i * 256 < 256 * k by omega
      obtain ⟨hfits, hdecode⟩ := compressPage_decode hpage
      rw [hput]
      exact ⟨hpage8, hs.put hinside (by rw [hview]; exact hfits) (by rw [hview]; exact hdecode)⟩
  have hmemory : (saveMemory db sessionId memory8).memory =
      ((List.range k).foldl (saveMemoryPage sessionId memory8) (replicate 1024 0#8,
        db.memory.deleteRange (key sessionId 0) (key (sessionId + 1) 0))).2 := by
    rw [← hcount]
    rfl
  rw [hmemory]
  apply hloop.2.holds
  intro i hi
  rw [hwords] at hi
  exact Nat.lt_of_mul_lt_mul_right (show i * 256 < k * 256 by rw [Nat.mul_comm k]; exact hi)

theorem loadMemory_saveMemory (db : Database) (sessionId : ℕ) (debug checkCrc : Bool) (hlength : memory8.length = 1024 * k)
    (hsize : memory8.length < 2 ^ 32) :
    loadMemory debug (saveMemory db sessionId memory8) sessionId checkCrc = .ok (some memory8) := by
  have hmeta : (saveMemory db sessionId memory8).memoryMeta.get sessionId =
      some ⟨sessionId, memory8.length, none⟩ := ObjectStore.get_put_self _ _ _
  have hwords : (wordsOf memory8).length = ushr memory8.length 2 := by
    rw [length_wordsOf (k := 256 * k) (by omega), ushr_of_lt hsize]
    omega
  have hload := (saveMemory_holds db sessionId hlength hsize).load
  rw [hwords] at hload
  rw [loadMemory, hmeta]
  dsimp only
  rw [show loadMemoryPage = memoryFormat.load from rfl, hload]
  dsimp only
  rw [if_neg (fun h => Bool.noConfusion h.1), flatMap_word_wordsOf (k := 256 * k) (by omega)]

theorem get_addRom {md5 : List Byte → String} {rom : List Byte}
    (hrom : ∀ r, db.rom.get (md5 rom) = some r → r = rom) :
    (if (db.rom.get (md5 rom)).isSome then db else { db with rom := db.rom.put rom (md5 rom) }).rom.get
      (md5 rom) = some rom := by
  split_ifs with hknown
  · obtain ⟨r, hr⟩ := Option.isSome_iff_exists.mp hknown
    rw [hr, hrom r hr]
  · simp

theorem loadSession_eq {debug checkCrc : Bool} {session : Session}
    (memory : Option (List Byte)) (hmemory : loadMemory debug db session.id checkCrc = .ok memory) :
    loadSession debug db session checkCrc =
      .ok (db.rom.get session.rom, memory, db.state.get session.id) := by
  rw [loadSession, hmemory]
  rfl

theorem loadSession_addSession {md5 : List Byte → String} {session : Session} {rom : List Byte}
    {state : Option (List Byte)} (debug checkCrc : Bool) (hlength : memory8.length = 1024 * k)
    (hsize : memory8.length < 2 ^ 32) (hrom : ∀ r, db.rom.get (md5 rom) = some r → r = rom)
    (hstate : db.state.get db.nextSession = none) :
    loadSession debug (addSession md5 db session rom (some memory8) state).1
        (addSession md5 db session rom (some memory8) state).2 checkCrc =
      .ok (some rom, some memory8, state) := by
  have hstored := get_addRom hrom
  have hsame : ∀ b : Bool, (if b then db else { db with rom := db.rom.put rom (md5 rom) }).nextSession =
        db.nextSession ∧
      (if b then db else { db with rom := db.rom.put rom (md5 rom) }).state = db.state := by simp
  obtain ⟨hnext, hstates⟩ := hsame (db.rom.get (md5 rom)).isSome
  rw [addSession]
  generalize (if (db.rom.get (md5 rom)).isSome then db
    else { db with rom := db.rom.put rom (md5 rom) }) = db₁ at *
  have hload := loadMemory_saveMemory { db₁ with
      session := db₁.session.put { session with id := db₁.nextSession, rom := md5 rom }
        db₁.nextSession
      nextSession := db₁.nextSession + 1 } db₁.nextSession debug checkCrc hlength hsize
  cases state with
  | none =>
    have hnone : db₁.state.get db₁.nextSession = none := by grind
    apply (loadSession_eq (some memory8) hload).trans
    exact congrArg Except.ok (Prod.ext hstored (Prod.ext rfl hnone))
  | some state =>
    apply (loadSession_eq (some memory8) hload).trans
    exact congrArg Except.ok (Prod.ext hstored (Prod.ext rfl (ObjectStore.get_put_self _ _ _)))

end Memory

section Import

variable {store : ObjectStore Key StoredPage} {id i pageCount : ℕ} {data : List Word}

/-- What is compressed for a page: the page, or the last one with zeros behind it. -/
def importedPage (data : List Word) (pageCount iPage : ℕ) : List Word :=
  if iPage + 1 = pageCount then overwrite (List.replicate 2048 0#32) 0 (page 2048 iPage data)
  else page 2048 iPage data

theorem importPage_eq (store : ObjectStore Key StoredPage) (id : ℕ) (data : List Word)
    (pageCount iPage : ℕ) : importPage id data pageCount store iPage =
      if compressStoragePage (importedPage data pageCount iPage) = .number 0#32 then store
      else store.put (compressStoragePage (importedPage data pageCount iPage)) (key id iPage) := by
  rw [importPage, subarray_page]
  rfl

theorem importedPage_spec (hfull : i + 1 ≠ pageCount → (i + 1) * 2048 ≤ data.length) :
    (importedPage data pageCount i).length = 2048 ∧
      (importedPage data pageCount i).take (cardFormat.viewLength data.length i) =
        page 2048 i data := by
  have hlength : (page 2048 i data).length = cardFormat.viewLength data.length i :=
    length_page 2048 i data
  have hle : cardFormat.viewLength data.length i ≤ 2048 := Nat.min_le_left _ _
  rw [importedPage]
  split_ifs with hlast
  · constructor
    · rw [length_overwrite (by rw [hlength, length_replicate]; omega), length_replicate]
    · rw [← hlength]
      exact take_overwrite_zero _ _
  · have hview : cardFormat.viewLength data.length i = 2048 :=
      Nat.min_eq_left (show 2048 ≤ data.length - i * 2048 by have := hfull hlast; omega)
    refine ⟨hlength.trans hview, ?_⟩
    rw [← hlength, take_length]

theorem importPage_flushed {old : ℕ → List Word}
    (h : cardFormat.Flushed old data id i store)
    (hzero : old i = cardFormat.zeros data.length i)
    (hfull : i + 1 ≠ pageCount → (i + 1) * 2048 ≤ data.length) :
    cardFormat.Flushed old data id (i + 1) (importPage id data pageCount store i) := by
  obtain ⟨hlength, htake⟩ := importedPage_spec hfull
  have hle : cardFormat.viewLength data.length i ≤ 2048 := Nat.min_le_left _ _
  obtain ⟨hfits, hdecode⟩ := compressStoragePage_decode hlength hle
  rw [htake] at hdecode
  rw [importPage_eq]
  split_ifs with hnumber
  · apply h.skip
    rw [hzero]
    rwa [hnumber, decode_card_number] at hdecode
  · have hinside : i * cardFormat.size < data.length := by
      by_contra hbehind
      have hend : data.length ≤ i * 2048 := not_lt.mp hbehind
      have hempty : page 2048 i data = [] := page_of_length_le hend
      have hlast : i + 1 = pageCount := by omega
      have hpadded : importedPage data pageCount i = replicate 2048 0#32 := by
        rw [importedPage, if_pos hlast, hempty, overwrite_nil]
      exact hnumber ((congrArg compressStoragePage hpadded).trans
        (compressStoragePage_replicate 0#32))
    exact h.put hinside hfits hdecode

theorem importStorageCard_holds {db : Database} {card : StorageCard}
    (hcard : card.size = 4 * data.length) (hsize : card.size < 2 ^ 32)
    (hfresh : ∀ i, db.storage.get (key db.nextCard i) = none) :
    cardFormat.Holds (importStorageCard db card data).1.storage db.nextCard data := by
  obtain ⟨hsound, hzero⟩ := PageFormat.sound_fresh (f := cardFormat) hfresh data.length
  generalize hcount : ushr card.size 13 + (if data.length % 8192 = 0 then 0 else 1) = pageCount
  have hpages : ∀ i, i + 1 ≠ pageCount → i < pageCount → (i + 1) * 2048 ≤ data.length := by
    rw [ushr_of_lt hsize, hcard] at hcount
    split_ifs at hcount <;> omega
  have hall : ∀ i, i * 2048 < data.length → i < pageCount := by
    rw [ushr_of_lt hsize, hcard] at hcount
    split_ifs at hcount <;> omega
  have hloop : cardFormat.Flushed (cardFormat.zeros data.length) data db.nextCard pageCount
      ((List.range pageCount).foldl (importPage db.nextCard data pageCount) db.storage) := by
    apply foldl_range (I := fun i store => cardFormat.Flushed (cardFormat.zeros data.length) data db.nextCard i store)
    · exact .start hsound hzero
    · intro i hi store hstore
      exact importPage_flushed hstore rfl fun hlast => hpages i hlast hi
  have hstorage : (importStorageCard db card data).1.storage =
      (List.range pageCount).foldl (importPage db.nextCard data pageCount) db.storage := by
    rw [← hcount]
    rfl
  rw [hstorage]
  exact hloop.holds hall

end Import

section Update

variable {store : ObjectStore Key StoredPage} {id total : ℕ} {data data' : List Word}
  {dirtyPages : PageBitmap}

theorem updatePage_ok (i : ℕ) : updatePage id data store i =
    .ok (store.put (.words (page 2048 i data)) (key id i)) := by
  rw [updatePage, subarray_page]

theorem fits_page (i : ℕ) (data : List Word) :
    cardFormat.Fits (cardFormat.viewLength data.length i) (.words (page 2048 i data)) ∧
      cardFormat.decode (cardFormat.viewLength data.length i) (.words (page 2048 i data)) =
        page 2048 i data := by
  have hlength : (page 2048 i data).length = cardFormat.viewLength data.length i :=
    length_page 2048 i data
  have hle : cardFormat.viewLength data.length i ≤ 2048 := Nat.min_le_left _ _
  exact ⟨⟨hlength.ge, hlength.trans_le hle⟩, take_of_length_le hlength.le⟩

theorem updatePages_ensures (hlength : data'.length = data.length)
    (htotal : ∀ p, p < total ↔ p * 2048 < data'.length)
    (hbytes : total ≤ 8 * dirtyPages.length)
    (hcover : ∀ p, page 2048 p data' ≠ page 2048 p data → Bitmap.marked dirtyPages.bytes p)
    (hholds : cardFormat.Holds store id data) :
    Ensures (updatePages id total data' dirtyPages store)
      (fun s => cardFormat.Holds s.2 id data') fun _ => False := by
  have hskip : ∀ p s, ¬ (p < total ∧ Bitmap.marked dirtyPages.bytes p) →
      cardFormat.Flushed (fun i => page 2048 i data) data' id p s →
        cardFormat.Flushed (fun i => page 2048 i data) data' id (p + 1) s := by
    intro p s hno hs
    apply hs.skip
    by_cases hp : p < total
    · by_contra hne
      exact hno ⟨hp, hcover p (Ne.symm hne)⟩
    · have hle : data'.length ≤ p * 2048 := not_lt.mp fun hlt => hp ((htotal p).mpr hlt)
      exact (page_of_length_le (hlength.symm.trans_le hle)).trans (page_of_length_le hle).symm
  have hstart : cardFormat.Flushed (fun i => page 2048 i data) data' id 0 store := by
    apply PageFormat.Flushed.start
    · rw [hlength]
      exact hholds.sound
    · rw [hlength]
      exact hholds.stored
  have hloop : Ensures (updatePages id total data' dirtyPages store)
      (fun s => ReachedPage total (8 * dirtyPages.length) s.1 ∧
        cardFormat.Flushed (fun i => page 2048 i data) data' id (8 * dirtyPages.length) s.2)
      fun _ => False := by
    apply Ensures.foldlM_range (I := fun i (s : ℕ × ObjectStore Key StoredPage) =>
      ReachedPage total (8 * i) s.1 ∧
        cardFormat.Flushed (fun i => page 2048 i data) data' id (8 * i) s.2)
    · exact ⟨⟨le_rfl, min_le_left _ _⟩, hstart⟩
    · rintro i hi s ⟨hreached, hs⟩
      apply visitByte_ensures (I := fun p s =>
        cardFormat.Flushed (fun i => page 2048 i data) data' id p s) hreached hs hskip
      intro p s hp _ _ hs
      rw [updatePage_ok]
      exact hs.put ((htotal p).mp hp) (fits_page p data').1 (fits_page p data').2
  apply hloop.imp
  · rintro s ⟨-, hs⟩
    exact hs.holds fun i hi => lt_of_lt_of_le ((htotal i).mpr hi) hbytes
  · simp

theorem lt_pagesTotal {size length p : ℕ} (hsize : size = 4 * length) (hlt : size < 2 ^ 32) :
    p < pagesTotal size ↔ p * 2048 < length := by
  rw [pagesTotal, ushr_of_lt hlt]
  split_ifs <;> omega

theorem pagesTotal_le {size : ℕ} (hlt : size < 2 ^ 32) :
    pagesTotal size ≤ 8 * dirtyPagesSize size := by
  have htotal : pagesTotal size < 2 ^ 32 := by
    rw [pagesTotal, ushr_of_lt hlt]
    split_ifs <;> omega
  rw [dirtyPagesSize, ushr_of_lt htotal]
  split_ifs <;> omega

/-- A card in the store, with its record and its contents. -/
structure HasCard (db : Database) (id : ℕ) (data : List Word) : Prop where
  record : ∃ card, db.storageCard.get id = some card ∧ card.id = id ∧ card.size = 4 * data.length
  size : 4 * data.length < 2 ^ 32
  holds : cardFormat.Holds db.storage id data

/-- A call of `updateCardData`, and who makes it. -/
structure CardUpdate where
  ownership : Ownership
  owner : CardOwner
  data : List Word
  dirtyPages : PageBitmap

def CardUpdate.call (id : ℕ) (db : Database) (u : CardUpdate) : Except Fault Database :=
  updateCardData u.ownership db id u.data u.dirtyPages u.owner

/-- The update is made by the owner, for data of the same length, and marks what it changes. -/
structure CardUpdate.Covers (u : CardUpdate) (id : ℕ) (data : List Word) : Prop where
  owner : u.ownership id = u.owner
  length : u.data.length = data.length
  bitmap : u.dirtyPages.length = dirtyPagesSize (4 * data.length)
  marked : ∀ p, page 2048 p u.data ≠ page 2048 p data → Bitmap.marked u.dirtyPages.bytes p

theorem HasCard.update {db : Database} (h : HasCard db id data) {u : CardUpdate}
    (hu : u.Covers id data) : ∃ db', u.call id db = .ok db' ∧ HasCard db' id u.data := by
  obtain ⟨card, hget, hid, hsize⟩ := h.record
  have hlt : card.size < 2 ^ 32 := hsize.trans_lt h.size
  have hsize' : card.size = 4 * u.data.length := by rw [hsize, hu.length]
  have hwords : u.data.length = ushr card.size 2 := by
    rw [hsize', ushr_of_lt (hsize'.symm.trans_lt hlt)]
    omega
  have hbitmap : dirtyPagesSize card.size = u.dirtyPages.length := by rw [hu.bitmap, hsize]
  have hbytes : pagesTotal card.size ≤ 8 * u.dirtyPages.length := by
    rw [← hbitmap]
    exact pagesTotal_le hlt
  have hupdate := updatePages_ensures hu.length (fun p => lt_pagesTotal hsize' hlt) hbytes hu.marked
    h.holds
  rw [CardUpdate.call, updateCardData, assertOwnership, if_pos hu.owner, hget]
  simp only [bind, Except.bind]
  rw [if_neg (not_not.mpr hwords), if_neg (not_not.mpr hbitmap), hid]
  cases hpages : updatePages id (pagesTotal card.size) u.data u.dirtyPages db.storage with
  | error e => exact (hupdate.of_error hpages).elim
  | ok s =>
    exact ⟨_, rfl, ⟨card, hget, hid, hsize'⟩, hsize'.symm.trans_lt hlt, hupdate.of_ok hpages⟩

/-- Each update covers what it changes of the data behind the one before. -/
def Covering (id : ℕ) : List Word → List CardUpdate → Prop
  | _, [] => True
  | data, u :: us => u.Covers id data ∧ Covering id u.data us

def latest (data : List Word) (us : List CardUpdate) : List Word := us.foldl (fun _ u => u.data) data

theorem HasCard.updates {db : Database} {us : List CardUpdate} (h : HasCard db id data)
    (hus : Covering id data us) :
    ∃ db', us.foldlM (CardUpdate.call id) db = .ok db' ∧ HasCard db' id (latest data us) := by
  induction us generalizing db data with
  | nil => exact ⟨db, rfl, h⟩
  | cons u us ih =>
    obtain ⟨db₁, hcall, hcard⟩ := h.update hus.1
    obtain ⟨db', hrest, hlatest⟩ := ih hcard hus.2
    refine ⟨db', ?_, hlatest⟩
    rwa [foldlM_cons, hcall]

theorem HasCard.load {db : Database} (h : HasCard db id data) {ownership : Ownership}
    {owner : CardOwner} (howner : ownership id = owner) {target : List Word}
    (htarget : target.length = data.length) :
    loadCardData ownership db id target owner = .ok data := by
  have hload := h.holds.load
  rw [loadCardData, assertOwnership, if_pos howner, htarget,
    show loadCardPage = cardFormat.load from rfl]
  simp only [bind, Except.bind]
  rw [hload]

theorem importStorageCard_hasCard {db : Database} {card : StorageCard}
    (hcard : card.size = 4 * data.length) (hsize : card.size < 2 ^ 32)
    (hfresh : ∀ i, db.storage.get (key db.nextCard i) = none) :
    HasCard (importStorageCard db card data).1 (importStorageCard db card data).2.id data :=
  ⟨⟨_, ObjectStore.get_put_self _ _ _, rfl, hcard⟩, hcard.symm.trans_lt hsize,
    importStorageCard_holds hcard hsize hfresh⟩

end Update

/-- A session is loaded as it has been added, and a card as it was after its last update. -/
theorem pageStore_roundTrip {md5 : List Byte → String} {db db' : Database} {session : Session}
    {rom memory : List Byte} {state : Option (List Byte)} (debug checkCrc : Bool)
    (hmemory : memory.length % 1024 = 0) (hmemorySize : memory.length < 2 ^ 32)
    (hrom : ∀ r, db.rom.get (md5 rom) = some r → r = rom)
    (hstate : db.state.get db.nextSession = none) {card : StorageCard} {data target : List Word}
    {updates : List CardUpdate} {ownership : Ownership} {owner : CardOwner}
    (hcard : card.size = 4 * data.length) (hcardSize : card.size < 2 ^ 32)
    (hfresh : ∀ i, db'.storage.get (key db'.nextCard i) = none)
    (hupdates : Covering db'.nextCard data updates) (howner : ownership db'.nextCard = owner)
    (htarget : target.length = (latest data updates).length) :
    loadSession debug (addSession md5 db session rom (some memory) state).1
        (addSession md5 db session rom (some memory) state).2 checkCrc =
      .ok (some rom, some memory, state) ∧
    ∃ db'', updates.foldlM (CardUpdate.call db'.nextCard) (importStorageCard db' card data).1 =
        .ok db'' ∧
      loadCardData ownership db'' db'.nextCard target owner = .ok (latest data updates) := by
  constructor
  · obtain ⟨k, hk⟩ := Nat.dvd_of_mod_eq_zero hmemory
    exact loadSession_addSession debug checkCrc hk hmemorySize hrom hstate
  · obtain ⟨db'', hall, hlatest⟩ :=
      (importStorageCard_hasCard hcard hcardSize hfresh).updates hupdates
    exact ⟨db'', hall, hlatest.load howner htarget⟩

def emptyDatabase : Database where
  session := .empty
  nextSession := 1
  rom := .empty
  state := .empty
  memory := .empty
  memoryMeta := .empty
  storageCard := .empty
  nextCard := 1
  storage := .empty

theorem emptyDatabase_rom (hash : String) (rom : List Byte) :
    emptyDatabase.rom.get hash ≠ some rom := by
  intro h
  cases h

def smallCard : StorageCard where
  id := 0
  storageId := "a"
  size := 512
  name := "card"
  status := .clean
  dontFsckAutomatically := false

def overwritten : CardUpdate where
  ownership := fun _ => .vfs
  owner := .vfs
  data := List.replicate 128 5#32
  dirtyPages := ⟨1, fun _ => 1#8⟩

theorem overwritten_covers : overwritten.Covers 1 (List.replicate 128 7#32) := by
  refine ⟨rfl, ?_, ?_, ?_⟩
  · exact length_replicate
  · rw [length_replicate]
    rfl
  · intro p hp
    by_cases hzero : p = 0
    · subst hzero
      decide
    · have hnew : overwritten.data.length = 128 := length_replicate
      have hbehind : 128 ≤ p * 2048 := by omega
      exact absurd ((page_of_length_le (hnew.trans_le hbehind)).trans
        (page_of_length_le (length_replicate.trans_le hbehind)).symm) hp

theorem smallPageStore_roundTrip :
    loadSession false (addSession (fun _ => "d41d8cd98f00b204e9800998ecf8427e") emptyDatabase
        ⟨0, "", "session", none⟩ [] (some (List.replicate 2048 0x80#8)) none).1
      (addSession (fun _ => "d41d8cd98f00b204e9800998ecf8427e") emptyDatabase
        ⟨0, "", "session", none⟩ [] (some (List.replicate 2048 0x80#8)) none).2 true =
      .ok (some [], some (List.replicate 2048 0x80#8), none) ∧
    ∃ db'', [overwritten].foldlM (CardUpdate.call emptyDatabase.nextCard)
        (importStorageCard emptyDatabase smallCard (List.replicate 128 7#32)).1 = .ok db'' ∧
      loadCardData (fun _ => .cloudpilot) db'' emptyDatabase.nextCard (List.replicate 128 9#32)
        .cloudpilot = .ok (latest (List.replicate 128 7#32) [overwritten]) :=
  pageStore_roundTrip false true (by rw [List.length_replicate])
    (by rw [List.length_replicate]; decide) (fun r hr => absurd hr (emptyDatabase_rom _ r)) rfl
    (by rw [List.length_replicate]; rfl) (by decide) (fun _ => rfl) ⟨overwritten_covers, trivial⟩ rfl
    rfl

end Cloudpilot.Web
