import Cloudpilot.Web.SnapshotPages

/-! # One attempt at a snapshot

The synchronous part of an attempt loses no mark, also where it throws, and where it ends its
transaction holds the memory and the card as they are then.
-/
namespace Cloudpilot.Web
open Library Library.TypedArray Library.LittleEndian Library.PagedArray Option

def bitsOf (dirtyPages : Option PageBitmap) : ℕ → Byte :=
  dirtyPages.elim Bitmap.clear PageBitmap.bytes

/-- The memory and the card. -/
def Emulator.contents (e : Emulator) : List Word × Option (String × List Word) :=
  (e.memory, e.card.map fun card => (card.key, card.data))

/-- The sizes that memory and cards can have. -/
structure Emulator.Sized (e : Emulator) : Prop where
  pages : e.memory.length % 256 = 0
  memory : 4 * e.memory.length < 2 ^ 32
  card : ∀ card ∈ e.card, 4 * card.data.length < 2 ^ 32

/-- A page of which the database holds something else is marked by the emulator or elsewhere. -/
structure Keeps (db : Database) (id : ℕ) (e : Emulator) (dirtyPages cardDirtyPages : ℕ → Byte) :
    Prop where
  metadata : ∃ crc32, db.memoryMeta.get id = some ⟨id, 4 * e.memory.length, crc32⟩
  memory : memoryFormat.Keeps db.memory id e.memory fun p =>
    Bitmap.marked e.dirtyPages p ∨ Bitmap.marked dirtyPages p
  card : ∀ card ∈ e.card, ∃ r, db.cardOf card.key = some r ∧
    cardFormat.Keeps db.storage r.id card.data fun p =>
      Bitmap.marked card.dirtyPages p ∨ Bitmap.marked cardDirtyPages p

/-- The service works for a session and has the buffers that it needs. -/
structure Ready (id : ℕ) (service : SnapshotService) (e : Emulator) : Prop where
  session : service.sessionId = some id
  initialized : service.pages = none → service.dirtyPages = none
  pages : ∀ pool ∈ service.pages, MemoryPool (e.memory.length / 256) pool 0
  cardPagePool : CardPool service.cardPagePool 0

/-- What an attempt leaves behind, whether it throws or not. -/
structure Saves.Safe (db : Database) (id : ℕ) (e : Emulator) (c : Saves) : Prop where
  keeps : Keeps db id c.emulator (bitsOf c.service.dirtyPages) (bitsOf c.service.cardDirtyPages)
  ready : Ready id c.service c.emulator
  contents : c.emulator.contents = e.contents

structure HasMetadata (db : Database) (id : ℕ) (memory : List Word) : Prop where
  get : ∃ crc32, db.memoryMeta.get id = some ⟨id, 4 * memory.length, crc32⟩ ∧
    ∀ w ∈ crc32, w = Common.Crc.crc32 (memory.flatMap word)

/-- A database that holds the memory and the card as they are. -/
structure Images (db : Database) (id : ℕ) (ownership : Ownership) (e : Emulator) : Prop where
  memory : memoryFormat.Holds db.memory id e.memory
  metadata : HasMetadata db id e.memory
  card : ∀ card ∈ e.card, ∃ r, db.cardOf card.key = some r ∧ ownership r.id = .cloudpilot ∧
    cardFormat.Holds db.storage r.id card.data

section Contents

variable {db : Database} {id : ℕ} {ownership : Ownership} {e e' : Emulator}

theorem memory_eq (h : e'.contents = e.contents) : e'.memory = e.memory := congrArg Prod.fst h

theorem card_eq (h : e'.contents = e.contents) :
    e'.card.map (fun card => (card.key, card.data)) = e.card.map fun card => (card.key, card.data) :=
  congrArg Prod.snd h

theorem exists_card (h : e'.contents = e.contents) {card : MountedCard} (hcard : card ∈ e'.card) :
    ∃ card' ∈ e.card, card'.key = card.key ∧ card'.data = card.data := by
  have hmap := card_eq h
  rw [mem_def.mp hcard] at hmap
  obtain ⟨card', hcard', heq⟩ := map_eq_some_iff.mp hmap.symm
  rw [Prod.mk.injEq] at heq
  exact ⟨card', hcard', heq.1, heq.2⟩

theorem Emulator.Sized.congr (hsized : e.Sized) (h : e'.contents = e.contents) : e'.Sized := by
  refine ⟨?_, ?_, ?_⟩
  · rw [memory_eq h]
    exact hsized.pages
  · rw [memory_eq h]
    exact hsized.memory
  · intro card hcard
    obtain ⟨card', hcard', -, hdata⟩ := exists_card h hcard
    rw [← hdata]
    exact hsized.card card' hcard'

theorem Images.keeps (himages : Images db id ownership e) (h : e'.contents = e.contents)
    (dirtyPages cardDirtyPages : ℕ → Byte) : Keeps db id e' dirtyPages cardDirtyPages := by
  refine ⟨?_, ?_, ?_⟩
  · obtain ⟨crc32, hget, -⟩ := himages.metadata.get
    rw [memory_eq h]
    exact ⟨crc32, hget⟩
  · rw [memory_eq h]
    exact himages.memory.keeps _
  · intro card hcard
    obtain ⟨card', hcard', hkey, hdata⟩ := exists_card h hcard
    obtain ⟨r, hr, -, hholds⟩ := himages.card card' hcard'
    rw [hkey] at hr
    rw [hdata] at hholds
    exact ⟨r, hr, hholds.keeps _⟩

theorem cardOf_storageId {storageId : String} {r : StorageCard}
    (h : db.cardOf storageId = some r) : r.storageId = storageId := by
  rw [Database.cardOf] at h
  split_ifs at h with hempty
  obtain ⟨record, hfind, rfl⟩ := map_eq_some_iff.mp h
  simpa using List.find?_some hfind

theorem cardOf_congr {db' : Database} (h : db'.storageCard = db.storageCard) (storageId : String) :
    db'.cardOf storageId = db.cardOf storageId := by
  rw [Database.cardOf, Database.cardOf, h]

end Contents

section Memory

variable {db : Database} {id : ℕ} {e : Emulator} {c : Saves}

theorem allocate_safe (h : c.Safe db id e) : c.allocate.Safe db id e ∧
    (∃ dirtyPages, c.allocate.service.dirtyPages = some dirtyPages) ∧
    ∃ pages, c.allocate.service.pages = some pages := by
  rw [Saves.allocate]
  split_ifs with hinit
  · exact ⟨h, isSome_iff_exists.mp hinit.1, isSome_iff_exists.mp hinit.2⟩
  · have hclear : c.service.dirtyPages = none := by
      cases hpages : c.service.pages with
      | none => exact h.ready.initialized hpages
      | some pages =>
        cases hdirty : c.service.dirtyPages with
        | none => rfl
        | some dirtyPages => grind
    refine ⟨⟨⟨h.keeps.metadata, ?_, h.keeps.card⟩,
      ⟨h.ready.session, fun hnone => ?_, ?_, h.ready.cardPagePool⟩, h.contents⟩, ⟨_, rfl⟩, ⟨_, rfl⟩⟩
    · have hmemory := h.keeps.memory
      rwa [hclear] at hmemory
    · cases hnone
    · rintro pool hpool
      cases hpool
      refine ⟨List.length_replicate, fun buffer hbuffer => ?_⟩
      rw [List.eq_of_mem_replicate hbuffer, List.length_replicate]

theorem le_dirtyPagesLength {count : ℕ} (hcount : e.memory.length = 256 * count)
    (hsize : 4 * e.memory.length < 2 ^ 32) : count ≤ 8 * e.dirtyPagesLength := by
  rw [Emulator.dirtyPagesLength, ushr_of_lt hsize]
  split_ifs <;> omega

theorem Saves.Safe.afterMemory (h : c.Safe db id e) {dirtyPages : PageBitmap} {s₀ s : Saving}
    {i : ℕ} (hdirty : c.service.dirtyPages = some dirtyPages)
    (hbytes : s₀.dirtyPages = dirtyPages.bytes) (hemulator : s₀.emulator = c.emulator.dirtyPages)
    (hmerged : Merged s₀ i s) (hpool : MemoryPool (e.memory.length / 256) s.pool s.iPool)
    (tx : Database) (requests length : ℕ) :
    (Saves.afterMemory { c with tx, requests } length s).Safe db id e := by
  refine ⟨⟨h.keeps.metadata, ?_, h.keeps.card⟩,
    ⟨h.ready.session, fun hnone => ?_, ?_, h.ready.cardPagePool⟩, h.contents⟩
  · have hold := h.keeps.memory
    rw [hdirty] at hold
    apply hold.mono
    intro p hp
    apply hmerged.marked
    rwa [hbytes, hemulator]
  · cases hnone
  · rintro pool hpool'
    cases hpool'
    change MemoryPool (c.emulator.memory.length / 256) s.pool 0
    rwa [memory_eq h.contents]

theorem saveDirtyMemory_ensures (integrityCheck : Bool) (hsized : e.Sized)
    (h : c.Safe db id e) (htx : c.tx = db) :
    Ensures (saveDirtyMemory integrityCheck id c)
      (fun c' => c'.Safe db id e ∧ memoryFormat.Holds c'.tx.memory id e.memory ∧
        HasMetadata c'.tx id e.memory ∧ c'.tx.storage = db.storage ∧
        c'.tx.storageCard = db.storageCard)
      (Saves.Safe db id e) := by
  have hmemory : c.emulator.memory = e.memory := memory_eq h.contents
  have hsame : c.allocate.emulator = c.emulator ∧ c.allocate.tx = c.tx := by
    rw [Saves.allocate]
    split_ifs <;> simp
  have hcrc : ∀ w ∈ (if integrityCheck then some (Common.Crc.crc32 (e.memory.flatMap word))
      else none), w = Common.Crc.crc32 (e.memory.flatMap word) := by simp
  obtain ⟨hsafe, ⟨dirtyPages, hdirty⟩, ⟨pages, hpages⟩⟩ := allocate_safe h
  obtain ⟨hemulator, htx'⟩ := hsame
  rw [saveDirtyMemory]
  dsimp only
  rw [hmemory]
  generalize c.allocate = c' at hsafe hdirty hpages hemulator htx' ⊢
  generalize (if integrityCheck then some (Common.Crc.crc32 (e.memory.flatMap word))
    else none) = crc32 at hcrc ⊢
  split_ifs with hrequests
  · exact hsafe
  rw [hdirty, hpages]
  dsimp only
  obtain ⟨count, hcount⟩ := Nat.dvd_of_mod_eq_zero hsized.pages
  have hdiv : e.memory.length / 256 = count := by omega
  have hpool : MemoryPool count pages 0 := by
    rw [← hdiv, ← memory_eq hsafe.contents]
    exact hsafe.ready.pages pages hpages
  have hkeeps := hsafe.keeps.memory
  rw [hdirty, hemulator, hmemory] at hkeeps
  generalize hs₀ : Saving.mk dirtyPages.bytes pages 0 c'.emulator.dirtyPages c'.tx.memory
    (c'.requests - 1) = s₀
  have hloop : Ensures (saveDirtyPages pages.length c'.emulator.dirtyPagesLength
      (saveDirtyMemoryPage id e.memory) s₀)
      (fun s' => (∃ i, Merged s₀ i s'.2 ∧ MemoryPool count s'.2.pool s'.2.iPool) ∧
        memoryFormat.Holds s'.2.store id e.memory)
      fun s' => ∃ i, Merged s₀ i s' ∧ MemoryPool count s'.pool s'.iPool := by
    subst hs₀
    apply saveDirtyPages_ensures
    · intro p
      rw [hpool.1, hcount]
      exact show p < count ↔ p * 256 < 256 * count by omega
    · rw [hpool.1, hemulator]
      exact le_dirtyPagesLength (by rw [hmemory, hcount]) (by rw [hmemory]; exact hsized.memory)
    · exact saveDirtyMemoryPage_saves hcount
    · rwa [hemulator, htx', htx]
    · exact hpool
  rw [← hdiv] at hloop
  have hbytes : s₀.dirtyPages = dirtyPages.bytes := by rw [← hs₀]
  have hmarks : s₀.emulator = c'.emulator.dirtyPages := by rw [← hs₀]
  split
  · next heq =>
    obtain ⟨⟨i, hmerged, hpool'⟩, hholds⟩ := hloop.of_ok heq
    have hstorage : c'.tx.storage = db.storage := congrArg Database.storage (htx'.trans htx)
    have hcards : c'.tx.storageCard = db.storageCard :=
      congrArg Database.storageCard (htx'.trans htx)
    exact ⟨hsafe.afterMemory hdirty hbytes hmarks hmerged hpool' _ _ _, hholds,
      ⟨_, ObjectStore.get_put_self _ _ _, hcrc⟩, hstorage, hcards⟩
  · next heq =>
    obtain ⟨i, hmerged, hpool'⟩ := hloop.of_error heq
    exact hsafe.afterMemory hdirty hbytes hmarks hmerged hpool' _ _ _

end Memory

section Storage

variable {db : Database} {id : ℕ} {e : Emulator} {c : Saves} {ownership : Ownership}
  {card : StorageCard} {mounted : MountedCard}

theorem getCard_eq_some {storageId : String} :
    e.getCard storageId = some mounted ↔ e.card = some mounted ∧ mounted.key = storageId := by
  rw [Emulator.getCard, filter_eq_some_iff]
  exact and_congr_right fun _ => decide_eq_true_iff

theorem le_dirtyPagesSize {length : ℕ} (hsize : 4 * length < 2 ^ 32) :
    length / 2048 + (if length % 2048 > 0 then 1 else 0) ≤ 8 * dirtyPagesSize (4 * length) := by
  have htotal : length / 2048 + (if length % 2048 > 0 then 1 else 0) ≤ pagesTotal (4 * length) := by
    rw [pagesTotal, ushr_of_lt hsize]
    split_ifs <;> omega
  exact htotal.trans (pagesTotal_le hsize)

theorem Saves.Safe.afterStorage (h : c.Safe db id e) {s₀ s : Saving} {i : ℕ}
    (hmounted : c.emulator.card = some mounted)
    (hbytes : s₀.dirtyPages = bitsOf c.service.cardDirtyPages)
    (hemulator : s₀.emulator = mounted.dirtyPages) (hmerged : Merged s₀ i s)
    (hpool : CardPool s.pool s.iPool) (cardDirtyPages : Option PageBitmap) (length : ℕ) :
    (Saves.afterStorage { c with service := { c.service with cardDirtyPages } } mounted length
      s).Safe db id e := by
  refine ⟨⟨h.keeps.metadata, h.keeps.memory, ?_⟩,
    ⟨h.ready.session, h.ready.initialized, h.ready.pages, Nat.zero_le _, hpool.2⟩, ?_⟩
  · rintro card hcard
    cases hcard
    obtain ⟨r, hr, hkeeps⟩ := h.keeps.card mounted hmounted
    refine ⟨r, hr, hkeeps.mono fun p hp => ?_⟩
    apply hmerged.marked
    rwa [hbytes, hemulator]
  · rw [← h.contents]
    change (c.emulator.memory, _) = (c.emulator.memory, _)
    rw [hmounted]
    rfl

theorem saveDirtyStorage_ensures (hsized : e.Sized) (h : c.Safe db id e)
    (htx : c.tx.storage = db.storage)
    (hrecord : ∀ mounted, c.emulator.card = some mounted → mounted.key = card.storageId →
      db.cardOf mounted.key = some card) :
    Ensures (saveDirtyStorage ownership card c)
      (fun c' => c'.Safe db id e ∧ (∃ storage, c'.tx = { c.tx with storage }) ∧
        ∀ mounted, e.getCard card.storageId = some mounted →
          ownership card.id = .cloudpilot ∧ cardFormat.Holds c'.tx.storage card.id mounted.data)
      (Saves.Safe db id e) := by
  rw [saveDirtyStorage]
  split
  · next hnone =>
    refine ⟨h, ⟨c.tx.storage, rfl⟩, ?_⟩
    intro mounted hmounted
    obtain ⟨hcard, hkey⟩ := getCard_eq_some.mp hmounted
    obtain ⟨card', hcard', hkey', -⟩ := exists_card h.contents.symm hcard
    have hsome := getCard_eq_some.mpr ⟨hcard', hkey'.trans hkey⟩
    rw [hnone] at hsome
    cases hsome
  · next mounted hmounted =>
    obtain ⟨hcard, hkey⟩ := getCard_eq_some.mp hmounted
    have hlt : 4 * mounted.data.length < 2 ^ 32 := (hsized.congr h.contents).card mounted hcard
    have hsafe : ∀ length, Saves.Safe db id e { c with service := { c.service with
        cardDirtyPages := some (c.service.cardDirtyPages.getD ⟨length, Bitmap.clear⟩) } } := by
      intro length
      refine ⟨⟨h.keeps.metadata, h.keeps.memory, ?_⟩,
        ⟨h.ready.session, h.ready.initialized, h.ready.pages, h.ready.cardPagePool⟩, h.contents⟩
      have hcards := h.keeps.card
      cases hbits : c.service.cardDirtyPages <;>
        · rwa [hbits] at hcards
    have htotal : ∀ p, p < mounted.data.length / 2048 +
        (if mounted.data.length % 2048 > 0 then 1 else 0) ↔ p * 2048 < mounted.data.length := by
      split_ifs <;> omega
    have hbits : mounted.data.length / 2048 +
        (if mounted.data.length % 2048 > 0 then 1 else 0) ≤
          8 * dirtyPagesSize (4 * mounted.data.length) := le_dirtyPagesSize hlt
    dsimp only
    generalize mounted.data.length / 2048 +
      (if mounted.data.length % 2048 > 0 then 1 else 0) = total at htotal hbits ⊢
    split_ifs with howner hlength hbitmap
    · exact ⟨h.keeps, h.ready, h.contents⟩
    · exact h
    · exact hsafe _
    generalize hdirty : c.service.cardDirtyPages.getD ⟨dirtyPagesSize (4 * mounted.data.length),
      Bitmap.clear⟩ = cardDirtyPages at hbitmap ⊢
    have hold : cardDirtyPages.bytes = bitsOf c.service.cardDirtyPages := by
      rw [← hdirty]
      cases c.service.cardDirtyPages <;> rfl
    obtain ⟨r, hr, hkeeps⟩ := h.keeps.card mounted hcard
    have hsame : card = r := by grind
    generalize hs₀ : Saving.mk cardDirtyPages.bytes c.service.cardPagePool 0 mounted.dirtyPages
      c.tx.storage c.requests = s₀
    have hloop : Ensures (saveDirtyPages total (dirtyPagesSize (4 * mounted.data.length))
        (saveDirtyStoragePage card.id mounted.data) s₀)
        (fun s' => (∃ i, Merged s₀ i s'.2 ∧ CardPool s'.2.pool s'.2.iPool) ∧
          cardFormat.Holds s'.2.store card.id mounted.data)
        fun s' => ∃ i, Merged s₀ i s' ∧ CardPool s'.pool s'.iPool := by
      subst hs₀
      apply saveDirtyPages_ensures
      · exact htotal
      · exact hbits
      · exact saveDirtyStoragePage_saves
      · grind
      · exact h.ready.cardPagePool
    have hbytes : s₀.dirtyPages = bitsOf c.service.cardDirtyPages := by rw [← hs₀, ← hold]
    have hmarks : s₀.emulator = mounted.dirtyPages := by rw [← hs₀]
    split
    · next s heq =>
      obtain ⟨⟨i, hmerged, hpool⟩, hholds⟩ := hloop.of_ok heq
      refine ⟨h.afterStorage hcard hbytes hmarks hmerged hpool _ _, ⟨_, rfl⟩, ?_⟩
      intro mounted' hmounted'
      obtain ⟨hcard', -⟩ := getCard_eq_some.mp hmounted'
      obtain ⟨card', hsome, -, hdata⟩ := exists_card h.contents.symm hcard'
      rw [hcard] at hsome
      cases hsome
      rw [← hdata]
      exact ⟨not_not.mp howner, hholds⟩
    · next s heq =>
      obtain ⟨i, hmerged, hpool⟩ := hloop.of_error heq
      exact h.afterStorage hcard hbytes hmarks hmerged hpool _ _

end Storage

section All

variable {db : Database} {id : ℕ} {e : Emulator} {c : Saves} {ownership : Ownership}

theorem saveSession_ensures (h : c.Safe db id e) :
    Ensures (saveSession id c)
      (fun c' => c'.Safe db id e ∧ ∃ state, c'.tx = { c.tx with state })
      (Saves.Safe db id e) := by
  have hstate : ∀ state, Saves.Safe db id e { c with service := { c.service with state } } :=
    fun state => ⟨h.keeps, ⟨h.ready.session, h.ready.initialized, h.ready.pages,
      h.ready.cardPagePool⟩, h.contents⟩
  rw [saveSession]
  split
  · split_ifs
    · exact h
    · exact ⟨⟨h.keeps, h.ready, h.contents⟩, _, rfl⟩
  · dsimp only
    split_ifs
    · exact hstate _
    · exact hstate _
    · exact ⟨⟨h.keeps, ⟨h.ready.session, h.ready.initialized, h.ready.pages, h.ready.cardPagePool⟩,
        h.contents⟩, _, rfl⟩

theorem saveAll_ensures (integrityCheck : Bool) (ownership : Ownership) (requests : ℕ) (fatalError : Bool)
    {service : SnapshotService} (hsized : e.Sized)
    (hkeeps : Keeps db id e (bitsOf service.dirtyPages) (bitsOf service.cardDirtyPages))
    (hready : Ready id service e) :
    Ensures (saveAll integrityCheck ownership id (db.cardOf e.getMountedKey)
        ⟨service, e, db, requests, fatalError⟩)
      (fun c => c.Safe db id e ∧ c.tx.storageCard = db.storageCard ∧ Images c.tx id ownership e)
      (Saves.Safe db id e) := by
  have hstart : Saves.Safe db id e ⟨service, e, db, requests, fatalError⟩ :=
    ⟨hkeeps, hready, rfl⟩
  apply (saveDirtyMemory_ensures integrityCheck hsized hstart rfl).bind
  rintro c₁ ⟨hsafe₁, hmemory, hmetadata, hstorage, hcards⟩
  have hcard : Ensures ((db.cardOf e.getMountedKey).elim (Except.ok c₁)
      fun card => saveDirtyStorage ownership card c₁)
      (fun c₂ => c₂.Safe db id e ∧ (∃ storage, c₂.tx = { c₁.tx with storage }) ∧
        ∀ card ∈ e.card, ∃ r, db.cardOf card.key = some r ∧ ownership r.id = .cloudpilot ∧
          cardFormat.Holds c₂.tx.storage r.id card.data)
      (Saves.Safe db id e) := by
    cases hfound : db.cardOf e.getMountedKey with
    | none =>
      refine ⟨hsafe₁, ⟨c₁.tx.storage, rfl⟩, ?_⟩
      intro card hcard
      obtain ⟨r, hr, -⟩ := hkeeps.card card hcard
      rw [Emulator.getMountedKey, mem_def.mp hcard] at hfound
      rw [show db.cardOf card.key = none from hfound] at hr
      cases hr
    | some r =>
      have hid : r.storageId = e.getMountedKey := cardOf_storageId hfound
      apply (saveDirtyStorage_ensures hsized hsafe₁ hstorage ?_).imp
      · rintro c₂ ⟨hsafe₂, htx, hholds⟩
        refine ⟨hsafe₂, htx, ?_⟩
        intro card hcard
        have hkey : e.getMountedKey = card.key := by
          rw [Emulator.getMountedKey, mem_def.mp hcard]
          rfl
        rw [hkey] at hfound hid
        exact ⟨r, hfound, hholds card (getCard_eq_some.mpr ⟨hcard, hid.symm⟩)⟩
      · simp
      · grind
  apply hcard.bind
  rintro c₂ ⟨hsafe₂, ⟨storage, htx₂⟩, hholds⟩
  apply (saveSession_ensures hsafe₂).imp
  · rintro c₃ ⟨hsafe₃, state, htx₃⟩
    have hrecords : c₃.tx.storageCard = db.storageCard := by grind
    refine ⟨hsafe₃, hrecords, ⟨?_, ?_, ?_⟩⟩
    · grind
    · obtain ⟨crc32, hget, hcrc⟩ := hmetadata.get
      rw [htx₃, htx₂]
      exact ⟨crc32, hget, hcrc⟩
    · intro card hmounted
      obtain ⟨r, hr, howner, hstored⟩ := hholds card hmounted
      refine ⟨r, (cardOf_congr hrecords card.key).trans hr, howner, ?_⟩
      rwa [htx₃]
  · simp

end All

end Cloudpilot.Web
