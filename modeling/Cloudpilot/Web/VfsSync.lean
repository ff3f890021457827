import Cloudpilot.Web.CardRoundTrip

/-! # Operations of the virtual file system

An operation changes mounted images and then calls `sync` for the slots that it has changed.
Operations are not excluded from each other: any of them can run while another one waits.
-/

namespace Cloudpilot.Web

open Library Library.TypedArray Library.LittleEndian Library.PagedArray List

/-- A card in a slot, with the image and the bitmap of the file system. -/
structure VfsImage where
  card : StorageCard
  data : List Word
  dirtyPages : PageBitmap

def VfsImage.write (image : VfsImage) (index : ℕ) (value : Word) : VfsImage :=
  { image with
    data := image.data.set index value
    dirtyPages := { image.dirtyPages with
      bytes := Bitmap.mark image.dirtyPages.bytes (index / 2048) } }

/-- `dirtyPages.fill(0)`. -/
def VfsImage.fill (image : VfsImage) : VfsImage :=
  { image with dirtyPages := { image.dirtyPages with bytes := Bitmap.clear } }

/-- Where an operation waits. From `awaitingVfs` on it is inside of `sync` for the first of its
slots, and `clearing` is the time between the end of the transaction and `dirtyPages.fill(0)`. -/
inductive VfsStage
  | modifying
  | syncing
  | awaitingVfs
  | awaitingLock
  | awaitingCard
  | awaitingCompletion (tx : Database)
  | clearing
  | resolved
  | rejected

/-- The slots are those that the operation still has to synchronise. -/
structure VfsOperation where
  slots : List ℕ
  stage : VfsStage

structure VfsState where
  images : ℕ → Option VfsImage
  db : Database
  ownership : Ownership
  operations : List VfsOperation

/-- The transaction of `updateCardData` is open. -/
def VfsOperation.InTransaction (op : VfsOperation) : Prop :=
  match op.stage with
  | .awaitingCard => True
  | .awaitingCompletion _ => True
  | _ => False

/-- The pages have been selected, and their bits have not been cleared yet. -/
def VfsOperation.HasSelected (op : VfsOperation) : Prop :=
  match op.stage with
  | .awaitingCompletion _ => True
  | .clearing => True
  | _ => False

instance : DecidablePred VfsOperation.InTransaction := fun op => by
  unfold VfsOperation.InTransaction
  split <;> infer_instance

instance : DecidablePred VfsOperation.HasSelected := fun op => by
  unfold VfsOperation.HasSelected
  split <;> infer_instance

def VfsState.setOperation (s : VfsState) (i : ℕ) (op : VfsOperation) : VfsState :=
  { s with operations := s.operations.set i op }

def VfsState.setImage (s : VfsState) (slot : ℕ) (image : VfsImage) : VfsState :=
  { s with images := Function.update s.images slot (some image) }

/-- A call of an operation for some slots, a write of one that is still running, or the end of
what an operation waits for. -/
inductive VfsEvent
  | start (slots : List ℕ)
  | write (i slot index : ℕ) (value : Word)
  | callSync (i : ℕ)
  | vfsResolved (i : ℕ)
  | lockAcquired (i : ℕ)
  | cardRead (i : ℕ)
  | completed (i : ℕ)
  | resumed (i : ℕ)
  | failed (i : ℕ)

/-- The next slot, if a card is mounted in it. -/
def callSync (s : VfsState) (i : ℕ) : List ℕ → VfsState
  | [] => s.setOperation i ⟨[], .resolved⟩
  | slot :: slots =>
    if (s.images slot).isSome then s.setOperation i ⟨slot :: slots, .awaitingVfs⟩
    else s.setOperation i ⟨slots, .syncing⟩

/-- The page selection of `updateCardData`, with everything around it. -/
def onCardOfSync (s : VfsState) (i slot : ℕ) (slots : List ℕ) (image : VfsImage) : VfsState :=
  match updateCardData s.ownership s.db image.card.id image.data image.dirtyPages .vfs with
  | .ok tx => s.setOperation i ⟨slot :: slots, .awaitingCompletion tx⟩
  | .error _ => s.setOperation i ⟨slot :: slots, .rejected⟩

/-- Transactions of `updateCardData` exclude each other. -/
def vfsStep (s : VfsState) : VfsEvent → Option VfsState
  | .start slots => some { s with operations := s.operations ++ [⟨slots, .modifying⟩] }
  | .write i slot index value =>
    match s.operations[i]?, s.images slot with
    | some ⟨slots, .modifying⟩, some image =>
      if slot ∈ slots then some (s.setImage slot (image.write index value)) else none
    | _, _ => none
  | .callSync i =>
    match s.operations[i]? with
    | some ⟨slots, .modifying⟩ => some (callSync s i slots)
    | some ⟨slots, .syncing⟩ => some (callSync s i slots)
    | _ => none
  | .vfsResolved i =>
    match s.operations[i]? with
    | some ⟨slot :: slots, .awaitingVfs⟩ =>
      if (s.images slot).isSome then some (s.setOperation i ⟨slot :: slots, .awaitingLock⟩)
      else some (s.setOperation i ⟨slots, .syncing⟩)
    | _ => none
  | .lockAcquired i =>
    match s.operations[i]? with
    | some ⟨slots, .awaitingLock⟩ =>
      if ∃ op ∈ s.operations, op.InTransaction then none
      else some (s.setOperation i ⟨slots, .awaitingCard⟩)
    | _ => none
  | .cardRead i =>
    match s.operations[i]? with
    | some ⟨slot :: slots, .awaitingCard⟩ => (s.images slot).map (onCardOfSync s i slot slots)
    | _ => none
  | .completed i =>
    match s.operations[i]? with
    | some ⟨slots, .awaitingCompletion tx⟩ =>
      some ({ s with db := tx }.setOperation i ⟨slots, .clearing⟩)
    | _ => none
  | .resumed i =>
    match s.operations[i]? with
    | some ⟨slot :: slots, .clearing⟩ =>
      (s.images slot).map fun image => (s.setImage slot image.fill).setOperation i ⟨slots, .syncing⟩
    | _ => none
  | .failed i =>
    match s.operations[i]? with
    | some ⟨slots, .awaitingLock⟩ => some (s.setOperation i ⟨slots, .rejected⟩)
    | some ⟨slots, .awaitingCard⟩ => some (s.setOperation i ⟨slots, .rejected⟩)
    | some ⟨slots, .awaitingCompletion _⟩ => some (s.setOperation i ⟨slots, .rejected⟩)
    | _ => none

def vfsRun (s : VfsState) (events : List VfsEvent) : Option VfsState := events.foldlM vfsStep s

def AllResolved (s : VfsState) : Prop := ∀ op ∈ s.operations, op.stage = .resolved

def ImagesStored (s : VfsState) : Prop :=
  ∀ slot image, s.images slot = some image → ∀ target, target.length = image.data.length →
    loadCardData s.ownership s.db image.card.id target .vfs = .ok image.data

/-- No image is changed between the selection of its pages and the end of that `sync`. -/
def Undisturbed (s : VfsState) : VfsEvent → Prop
  | .write _ slot index value => ∀ image, s.images slot = some image →
      (image.write index value).data = image.data ∨
        ∀ op ∈ s.operations, op.HasSelected → op.slots.head? ≠ some slot
  | _ => True

def UndisturbedRun : VfsState → List VfsEvent → Prop
  | _, [] => True
  | s, event :: events => Undisturbed s event ∧ ∀ s', vfsStep s event = some s' → UndisturbedRun s' events

structure SameCard (db db' : Database) (id : ℕ) : Prop where
  record : db'.storageCard.get id = db.storageCard.get id
  pages : ∀ i, db'.storage.get (key id i) = db.storage.get (key id i)

section Frame

variable {db db' tx : Database} {id total : ℕ} {data : List Word} {dirtyPages : PageBitmap}
  {ownership : Ownership} {owner : CardOwner}

theorem HasCard.congr (h : HasCard db id data) (hsame : SameCard db db' id) :
    HasCard db' id data := by
  refine ⟨?_, h.size, h.holds.congr hsame.pages⟩
  rw [hsame.record]
  exact h.record

theorem updatePages_frame (id total : ℕ) (data : List Word) (dirtyPages : PageBitmap)
    (store : ObjectStore Key StoredPage) :
    Ensures (updatePages id total data dirtyPages store)
      (fun s => ∀ id' ≠ id, ∀ i, s.2.get (key id' i) = store.get (key id' i)) fun _ => True := by
  apply Ensures.imp (P := fun s => ReachedPage total (8 * dirtyPages.length) s.1 ∧
    ∀ id' ≠ id, ∀ i, s.2.get (key id' i) = store.get (key id' i)) (E := fun _ => True)
  · apply Ensures.foldlM_range (I := fun i (s : ℕ × ObjectStore Key StoredPage) =>
      ReachedPage total (8 * i) s.1 ∧ ∀ id' ≠ id, ∀ i, s.2.get (key id' i) = store.get (key id' i))
    · exact ⟨⟨le_rfl, min_le_left _ _⟩, fun _ _ _ => rfl⟩
    · rintro i - s ⟨hreached, hs⟩
      apply visitByte_ensures (I := fun _ s => ∀ id' ≠ id, ∀ i, s.get (key id' i) = store.get (key id' i))
        hreached hs
      · simp
      · intro p s _ _ _ hs id' hid i
        rw [PageFormat.get_put_other hid]
        exact hs id' hid i
  · simp
  · simp

theorem updateCardData_frame (hrecord : ∃ card, db.storageCard.get id = some card ∧ card.id = id)
    (hcall : updateCardData ownership db id data dirtyPages owner = .ok tx) {id' : ℕ}
    (hid : id' ≠ id) : SameCard db tx id' := by
  obtain ⟨card, hget, hcard⟩ := hrecord
  rw [updateCardData, assertOwnership, hget] at hcall
  simp only [bind, Except.bind] at hcall
  split_ifs at hcall
  · cases hpages : updatePages card.id (pagesTotal card.size) data dirtyPages db.storage with
    | error e => grind
    | ok s =>
      rw [hpages] at hcall
      cases hcall
      have hframe := (updatePages_frame _ _ _ _ _).of_ok hpages
      exact ⟨rfl, hframe id' (by rw [hcard]; exact hid)⟩

end Frame

/-- The database has the card, and the pages that are different are marked. -/
def VfsImage.Tracked (image : VfsImage) (db : Database) : Prop :=
  ∃ old, HasCard db image.card.id old ∧ image.data.length = old.length ∧
    ∀ p, page 2048 p image.data ≠ page 2048 p old → Bitmap.marked image.dirtyPages.bytes p

def VfsState.Stores (s : VfsState) (op : VfsOperation) : Prop :=
  match op.stage with
  | .awaitingCompletion tx => ∀ slot image, s.images slot = some image →
      (op.slots.head? = some slot → HasCard tx image.card.id image.data) ∧
        (op.slots.head? ≠ some slot → SameCard s.db tx image.card.id)
  | .clearing => ∀ slot image, s.images slot = some image → op.slots.head? = some slot →
      HasCard s.db image.card.id image.data
  | _ => True

/-- The operation still has to store a slot, or it has failed. -/
def VfsOperation.Owes (op : VfsOperation) (slot : ℕ) : Prop :=
  match op.stage with
  | .resolved => False
  | .rejected => True
  | _ => slot ∈ op.slots

structure VfsInvariant (s : VfsState) : Prop where
  tracked : ∀ slot image, s.images slot = some image → image.Tracked s.db
  owner : ∀ slot image, s.images slot = some image → s.ownership image.card.id = .vfs
  bitmap : ∀ slot image, s.images slot = some image →
    image.dirtyPages.length = dirtyPagesSize (4 * image.data.length)
  distinct : ∀ slot slot' image image', s.images slot = some image →
    s.images slot' = some image' → image.card.id = image'.card.id → slot = slot'
  stores : ∀ op ∈ s.operations, s.Stores op
  alone : ∀ (i j : ℕ) (op op' : VfsOperation), s.operations[i]? = some op → s.operations[j]? = some op' →
    op.InTransaction → op'.InTransaction → i = j
  owed : ∀ slot image, s.images slot = some image → HasCard s.db image.card.id image.data ∨
    ∃ op ∈ s.operations, op.Owes slot

section Steps

variable {s s' : VfsState} {i slot : ℕ} {op : VfsOperation} {image : VfsImage}

theorem VfsImage.tracked_of_hasCard {db : Database} (h : HasCard db image.card.id image.data) :
    image.Tracked db :=
  ⟨image.data, h, rfl, fun _ hne => absurd rfl hne⟩

theorem VfsInvariant.setOperation (h : VfsInvariant s) (hop : s.operations[i]? = some op)
    (op' : VfsOperation) (hstores : s.Stores op')
    (halone : op'.InTransaction → op.InTransaction ∨ ¬ ∃ op ∈ s.operations, op.InTransaction)
    (howes : ∀ slot image, s.images slot = some image → op.Owes slot →
      op'.Owes slot ∨ HasCard s.db image.card.id image.data) :
    VfsInvariant (s.setOperation i op') := by
  have hset : ∀ j, (s.setOperation i op').operations[j]? =
      if j = i then some op' else s.operations[j]? := by
    intro j
    change (s.operations.set i op')[j]? = _
    by_cases hj : j = i <;> grind
  refine ⟨h.tracked, h.owner, h.bitmap, h.distinct, ?_, ?_, ?_⟩
  · intro op₁ hop₁
    rcases List.mem_or_eq_of_mem_set hop₁ with hold | rfl
    · exact h.stores op₁ hold
    · exact hstores
  · intro j k op₁ op₂ hj hk hop₁ hop₂
    rw [hset] at hj hk
    split_ifs at hj hk with hji hki hki
    · rw [hji, hki]
    · cases hj
      rcases halone hop₁ with hold | hnobody
      · exact hji.trans (h.alone i k op op₂ hop hk hold hop₂)
      · grind
    · cases hk
      rcases halone hop₂ with hold | hnobody
      · exact (h.alone j i op₁ op hj hop hop₁ hold).trans hki.symm
      · exact absurd ⟨op₁, List.mem_of_getElem? hj, hop₁⟩ hnobody
    · exact h.alone j k op₁ op₂ hj hk hop₁ hop₂
  · intro slot image himage
    rcases h.owed slot image himage with hstored | ⟨op₁, hop₁, hslot⟩
    · exact .inl hstored
    · obtain ⟨j, hj⟩ := List.mem_iff_getElem?.mp hop₁
      by_cases hji : j = i
      · rw [hji, hop] at hj
        cases hj
        rcases howes slot image himage hslot with hnew | hstored
        · grind
        · exact .inl hstored
      · grind

theorem VfsInvariant.setImage (h : VfsInvariant s) (himage : s.images slot = some image)
    (image' : VfsImage) (hcard : image'.card = image.card) (hlength : image'.data.length = image.data.length)
    (hbitmap : image'.dirtyPages.length = image.dirtyPages.length) (htracked : image'.Tracked s.db)
    (hdata : image'.data = image.data ∨
      (∀ op ∈ s.operations, op.HasSelected → op.slots.head? ≠ some slot) ∧
        ∃ op ∈ s.operations, op.Owes slot) : VfsInvariant (s.setImage slot image') := by
  have hget : ∀ {slot₁ image₁}, (s.setImage slot image').images slot₁ = some image₁ →
      slot₁ = slot ∧ image₁ = image' ∨ slot₁ ≠ slot ∧ s.images slot₁ = some image₁ := by
    intro slot₁ image₁ hsome
    change Function.update s.images slot (some image') slot₁ = some image₁ at hsome
    by_cases hslot : slot₁ = slot <;> grind
  have hid : image'.card.id = image.card.id := by rw [hcard]
  refine ⟨?_, ?_, ?_, ?_, ?_, h.alone, ?_⟩
  · intro slot₁ image₁ hsome
    rcases hget hsome with ⟨-, rfl⟩ | ⟨-, hold⟩
    · exact htracked
    · exact h.tracked slot₁ image₁ hold
  · intro slot₁ image₁ hsome
    rcases hget hsome with ⟨-, rfl⟩ | ⟨-, hold⟩
    · rw [hid]
      exact h.owner slot image himage
    · exact h.owner slot₁ image₁ hold
  · intro slot₁ image₁ hsome
    rcases hget hsome with ⟨-, rfl⟩ | ⟨-, hold⟩
    · rw [hbitmap, hlength]
      exact h.bitmap slot image himage
    · exact h.bitmap slot₁ image₁ hold
  · intro slot₁ slot₂ image₁ image₂ h₁ h₂ hsame
    rcases hget h₁ with ⟨rfl, rfl⟩ | ⟨hne₁, hold₁⟩ <;> rcases hget h₂ with ⟨rfl, rfl⟩ | ⟨hne₂, hold₂⟩
    · rfl
    · exact h.distinct _ _ _ _ himage hold₂ (hid.symm.trans hsame)
    · exact h.distinct _ _ _ _ hold₁ himage (hsame.trans hid)
    · exact h.distinct _ _ _ _ hold₁ hold₂ hsame
  · intro op hop
    have hold := h.stores op hop
    rw [VfsState.Stores] at hold ⊢
    cases hstage : op.stage with
    | awaitingCompletion tx =>
      rw [hstage] at hold
      intro slot₁ image₁ hsome
      rcases hget hsome with ⟨rfl, rfl⟩ | ⟨-, hother⟩
      · rw [hid]
        refine ⟨fun hhead => ?_, (hold slot₁ image himage).2⟩
        rcases hdata with hsame | ⟨hidle, -⟩
        · rw [hsame]
          exact (hold slot₁ image himage).1 hhead
        · exact absurd hhead (hidle op hop (by rw [VfsOperation.HasSelected, hstage]; trivial))
      · exact hold slot₁ image₁ hother
    | clearing =>
      rw [hstage] at hold
      intro slot₁ image₁ hsome hhead
      rcases hget hsome with ⟨rfl, rfl⟩ | ⟨-, hother⟩
      · rw [hid]
        rcases hdata with hsame | ⟨hidle, -⟩
        · rw [hsame]
          exact hold slot₁ image himage hhead
        · exact absurd hhead (hidle op hop (by rw [VfsOperation.HasSelected, hstage]; trivial))
      · exact hold slot₁ image₁ hother hhead
    | modifying => trivial
    | syncing => trivial
    | awaitingVfs => trivial
    | awaitingLock => trivial
    | awaitingCard => trivial
    | resolved => trivial
    | rejected => trivial
  · intro slot₁ image₁ hsome
    rcases hget hsome with ⟨rfl, rfl⟩ | ⟨-, hold⟩
    · rcases hdata with hsame | ⟨-, howes⟩
      · rw [hsame, hid]
        exact h.owed slot₁ image himage
      · exact .inr howes
    · exact h.owed slot₁ image₁ hold

theorem VfsInvariant.start (h : VfsInvariant s) (slots : List ℕ) :
    VfsInvariant { s with operations := s.operations ++ [⟨slots, .modifying⟩] } := by
  have hget : ∀ {j : ℕ} {op : VfsOperation}, (s.operations ++ [⟨slots, .modifying⟩])[j]? = some op → op.InTransaction →
      s.operations[j]? = some op := by
    intro j op hop htx
    rw [getElem?_append] at hop
    split_ifs at hop with hlt
    · exact hop
    · rcases mem_singleton.mp (mem_of_getElem? hop) with rfl
      exact htx.elim
  refine ⟨h.tracked, h.owner, h.bitmap, h.distinct, ?_, ?_, ?_⟩
  · intro op hop
    rcases mem_append.mp hop with hold | hnew
    · exact h.stores op hold
    · rcases mem_singleton.mp hnew with rfl
      trivial
  · intro j k op op' hj hk hop hop'
    exact h.alone j k op op' (hget hj hop) (hget hk hop') hop hop'
  · intro slot image himage
    rcases h.owed slot image himage with hstored | ⟨op, hop, howes⟩ <;> grind

theorem VfsImage.Tracked.write {db : Database} (h : image.Tracked db) (index : ℕ) (value : Word) :
    (image.write index value).Tracked db := by
  obtain ⟨old, hcard, hlength, hmarked⟩ := h
  refine ⟨old, hcard, (length_set ..).trans hlength, ?_⟩
  intro p hp
  by_cases hpage : p = index / 2048
  · rw [hpage]
    exact Bitmap.marked_mark_self _ _
  · apply Bitmap.marked_mark_of_marked
    apply hmarked p
    rwa [← page_set_of_ne (v := value) hpage]

section

variable (h : VfsInvariant s)

include h

theorem VfsInvariant.write {slots : List ℕ} (hop : s.operations[i]? = some ⟨slots, .modifying⟩)
    (himage : s.images slot = some image) (hslot : slot ∈ slots) {index : ℕ} {value : Word}
    (hundisturbed : Undisturbed s (.write i slot index value)) :
    VfsInvariant (s.setImage slot (image.write index value)) := by
  apply h.setImage himage (image.write index value) rfl (length_set ..) rfl ((h.tracked slot image himage).write index value)
  rcases hundisturbed image himage with hsame | hidle
  · grind
  · exact .inr ⟨hidle, _, mem_of_getElem? hop, hslot⟩

theorem VfsInvariant.callSync {slots : List ℕ} (hop : s.operations[i]? = some op)
    (howes : ∀ slot, op.Owes slot → slot ∈ slots) : VfsInvariant (callSync s i slots) := by
  cases slots with
  | nil =>
    apply h.setOperation hop ⟨[], .resolved⟩ trivial (fun htx => htx.elim)
    intro slot image _ hslot
    exact absurd (howes slot hslot) not_mem_nil
  | cons first slots =>
    rw [Web.callSync]
    split_ifs with hmounted
    · apply h.setOperation hop ⟨first :: slots, .awaitingVfs⟩ trivial (fun htx => htx.elim)
      intro slot image _ hslot
      exact .inl (howes slot hslot)
    · apply h.setOperation hop ⟨slots, .syncing⟩ trivial (fun htx => htx.elim)
      intro slot image himage hslot
      rcases mem_cons.mp (howes slot hslot) with rfl | hlater
      · grind
      · exact .inl hlater

theorem VfsInvariant.update (himage : s.images slot = some image) :
    ∃ tx, updateCardData s.ownership s.db image.card.id image.data image.dirtyPages .vfs = .ok tx ∧
      HasCard tx image.card.id image.data ∧
      ∀ id ≠ image.card.id, SameCard s.db tx id := by
  obtain ⟨old, hcard, hlength, hmarked⟩ := h.tracked slot image himage
  have hcovers : (CardUpdate.mk s.ownership .vfs image.data image.dirtyPages).Covers image.card.id
      old := by
    refine ⟨h.owner slot image himage, hlength, ?_, hmarked⟩
    rw [← hlength]
    exact h.bitmap slot image himage
  obtain ⟨tx, hcall, hstored⟩ := hcard.update hcovers
  obtain ⟨card, hget, hid, -⟩ := hcard.record
  exact ⟨tx, hcall, hstored, fun id hne => updateCardData_frame ⟨card, hget, hid⟩ hcall hne⟩

theorem VfsInvariant.cardRead {slots : List ℕ}
    (hop : s.operations[i]? = some ⟨slot :: slots, .awaitingCard⟩)
    (himage : s.images slot = some image) : VfsInvariant (onCardOfSync s i slot slots image) := by
  obtain ⟨tx, hcall, hstored, hframe⟩ := h.update himage
  rw [onCardOfSync, hcall]
  apply h.setOperation hop ⟨slot :: slots, .awaitingCompletion tx⟩ _ (fun _ => .inl trivial)
    (fun slot image _ howes => .inl howes)
  intro slot' image' himage'
  constructor
  · grind
  · intro hhead
    apply hframe
    intro hsame
    exact hhead (congrArg some (h.distinct slot slot' image image' himage himage' hsame.symm))

theorem VfsInvariant.setDb (tx : Database) (hidle : ∀ op ∈ s.operations, ¬ op.InTransaction)
    (hcards : ∀ slot image, s.images slot = some image →
      HasCard tx image.card.id image.data ∨ SameCard s.db tx image.card.id) :
    VfsInvariant { s with db := tx } := by
  have hkeeps : ∀ slot image, s.images slot = some image →
      HasCard s.db image.card.id image.data → HasCard tx image.card.id image.data := by
    intro slot image himage hcard
    rcases hcards slot image himage with hstored | hsame
    · exact hstored
    · exact hcard.congr hsame
  refine ⟨?_, h.owner, h.bitmap, h.distinct, ?_, h.alone, ?_⟩
  · intro slot image himage
    rcases hcards slot image himage with hstored | hsame
    · exact VfsImage.tracked_of_hasCard hstored
    · obtain ⟨old, hcard, hold⟩ := h.tracked slot image himage
      exact ⟨old, hcard.congr hsame, hold⟩
  · intro op hop
    have hold := h.stores op hop
    have htx := hidle op hop
    rw [VfsOperation.InTransaction] at htx
    rw [VfsState.Stores] at hold ⊢
    cases hstage : op.stage with
    | awaitingCompletion tx => grind
    | clearing => grind
    | modifying => trivial
    | syncing => trivial
    | awaitingVfs => trivial
    | awaitingLock => trivial
    | awaitingCard => trivial
    | resolved => trivial
    | rejected => trivial
  · intro slot image himage
    rcases h.owed slot image himage with hstored | howes <;> grind

theorem VfsInvariant.completed {slots : List ℕ} {tx : Database}
    (hop : s.operations[i]? = some ⟨slots, .awaitingCompletion tx⟩) :
    VfsInvariant ({ s with db := tx }.setOperation i ⟨slots, .clearing⟩) := by
  have hstores := h.stores _ (List.mem_of_getElem? hop)
  obtain ⟨hi, -⟩ := List.getElem?_eq_some_iff.mp hop
  have hclosed : VfsInvariant (s.setOperation i ⟨slots, .syncing⟩) :=
    h.setOperation hop _ trivial (fun htx => htx.elim) fun _ _ _ howes => .inl howes
  have hidle : ∀ op ∈ (s.setOperation i ⟨slots, .syncing⟩).operations, ¬ op.InTransaction := by
    intro op hmem htx
    obtain ⟨j, hj⟩ := List.mem_iff_getElem?.mp hmem
    change (s.operations.set i ⟨slots, .syncing⟩)[j]? = some op at hj
    by_cases hji : j = i
    · rw [hji, List.getElem?_set_self hi] at hj
      cases hj
      exact htx
    · rw [List.getElem?_set_ne (Ne.symm hji)] at hj
      exact hji (h.alone j i op _ hj hop htx trivial)
  have hstored := hclosed.setDb tx hidle fun slot image himage => by
    by_cases hhead : slots.head? = some slot
    · exact .inl ((hstores slot image himage).1 hhead)
    · exact .inr ((hstores slot image himage).2 hhead)
  have hsyncing : (s.operations.set i ⟨slots, .syncing⟩)[i]? = some ⟨slots, .syncing⟩ :=
    List.getElem?_set_self hi
  have hnext := hstored.setOperation hsyncing ⟨slots, .clearing⟩
    (fun slot image himage hhead => (hstores slot image himage).1 hhead) (fun htx => htx.elim)
    fun _ _ _ howes => .inl howes
  change VfsInvariant { s with
    db := tx
    operations := (s.operations.set i ⟨slots, .syncing⟩).set i ⟨slots, .clearing⟩ } at hnext
  rwa [List.set_set] at hnext

theorem VfsInvariant.resumed {slots : List ℕ}
    (hop : s.operations[i]? = some ⟨slot :: slots, .clearing⟩) (himage : s.images slot = some image)
    : VfsInvariant ((s.setImage slot image.fill).setOperation i ⟨slots, .syncing⟩) := by
  have hstored : HasCard s.db image.card.id image.data :=
    h.stores _ (mem_of_getElem? hop) slot image himage rfl
  have htracked : image.fill.Tracked s.db := VfsImage.tracked_of_hasCard hstored
  have hfilled := h.setImage himage image.fill rfl rfl rfl htracked (.inl rfl)
  apply hfilled.setOperation hop ⟨slots, .syncing⟩ trivial (fun htx => htx.elim)
  intro slot' image' himage' howes
  rcases mem_cons.mp howes with rfl | hlater
  · right
    change Function.update s.images slot' (some image.fill) slot' = some image' at himage'
    rw [Function.update_self] at himage'
    cases himage'
    exact hstored
  · exact .inl hlater

theorem VfsInvariant.step {event : VfsEvent} (hevent : Undisturbed s event)
    (hstep : vfsStep s event = some s') : VfsInvariant s' := by
  cases event with
  | start slots =>
    cases hstep
    exact h.start slots
  | write i slot index value =>
    rw [vfsStep] at hstep
    split at hstep
    · split_ifs at hstep with hslot
      cases hstep
      next hop himage => exact h.write hop himage hslot hevent
    · cases hstep
  | callSync i =>
    rw [vfsStep] at hstep
    split at hstep <;> cases hstep
    · next hop => exact h.callSync hop fun _ howes => howes
    · next hop => exact h.callSync hop fun _ howes => howes
  | vfsResolved i =>
    rw [vfsStep] at hstep
    split at hstep
    · next slot slots hop =>
      split_ifs at hstep with hmounted
      · cases hstep
        exact h.setOperation hop _ trivial (fun htx => htx.elim) fun _ _ _ howes => .inl howes
      · cases hstep
        apply h.setOperation hop ⟨slots, .syncing⟩ trivial (fun htx => htx.elim)
        intro slot' image himage howes
        rcases mem_cons.mp howes with rfl | hlater
        · grind
        · exact .inl hlater
    · cases hstep
  | lockAcquired i =>
    rw [vfsStep] at hstep
    split at hstep
    · next slots hop =>
      split_ifs at hstep with hbusy
      cases hstep
      exact h.setOperation hop _ trivial (fun _ => .inr hbusy) fun _ _ _ howes => .inl howes
    · cases hstep
  | cardRead i =>
    rw [vfsStep] at hstep
    split at hstep
    · next slot slots hop =>
      obtain ⟨image, himage, rfl⟩ := Option.map_eq_some_iff.mp hstep
      exact h.cardRead hop himage
    · cases hstep
  | completed i =>
    rw [vfsStep] at hstep
    split at hstep <;> cases hstep
    next hop => exact h.completed hop
  | resumed i =>
    rw [vfsStep] at hstep
    split at hstep
    · next slot slots hop =>
      obtain ⟨image, himage, rfl⟩ := Option.map_eq_some_iff.mp hstep
      exact h.resumed hop himage
    · cases hstep
  | failed i =>
    rw [vfsStep] at hstep
    split at hstep <;> cases hstep
    · next slots hop =>
      exact h.setOperation hop ⟨slots, .rejected⟩ trivial (fun htx => htx.elim)
        fun _ _ _ _ => .inl trivial
    · next slots hop =>
      exact h.setOperation hop ⟨slots, .rejected⟩ trivial (fun htx => htx.elim)
        fun _ _ _ _ => .inl trivial
    · next slots tx hop =>
      exact h.setOperation hop ⟨slots, .rejected⟩ trivial (fun htx => htx.elim)
        fun _ _ _ _ => .inl trivial

theorem VfsInvariant.run {events : List VfsEvent} (hevents : UndisturbedRun s events)
    (hrun : vfsRun s events = some s') : VfsInvariant s' := by
  induction events generalizing s with
  | nil =>
    cases hrun
    exact h
  | cons event events ih =>
    obtain ⟨s₁, hstep, hrest⟩ := Option.bind_eq_some_iff.mp hrun
    exact ih (h.step hevents.1 hstep) (hevents.2 s₁ hstep) hrest

theorem VfsInvariant.imagesStored (hresolved : AllResolved s) : ImagesStored s := by
  intro slot image himage target htarget
  have hcard : HasCard s.db image.card.id image.data := by
    rcases h.owed slot image himage with hstored | ⟨op, hop, howes⟩
    · exact hstored
    · rw [VfsOperation.Owes, hresolved op hop] at howes
      exact howes.elim
  exact hcard.load (h.owner slot image himage) htarget

end

end Steps

open Library Library.TypedArray Library.LittleEndian Library.PagedArray List Option

/-- No operation has been called, and the database has the images. -/
structure VfsStart (s : VfsState) : Prop where
  operations : s.operations = []
  stored : ∀ slot image, s.images slot = some image → HasCard s.db image.card.id image.data
  owner : ∀ slot image, s.images slot = some image → s.ownership image.card.id = .vfs
  bitmap : ∀ slot image, s.images slot = some image →
    image.dirtyPages.length = dirtyPagesSize (4 * image.data.length)
  distinct : ∀ slot slot' image image', s.images slot = some image →
    s.images slot' = some image' → image.card.id = image'.card.id → slot = slot'

theorem VfsStart.invariant {s : VfsState} (h : VfsStart s) : VfsInvariant s := by
  refine ⟨?_, h.owner, h.bitmap, h.distinct, ?_, ?_, ?_⟩
  · intro slot image himage
    exact VfsImage.tracked_of_hasCard (h.stored slot image himage)
  · simp [h.operations]
  · simp [h.operations]
  · intro slot image himage
    exact .inl (h.stored slot image himage)

/-- Where no image is changed between the selection of its pages and the end of `sync`, all images
are stored when all operations have resolved. -/
theorem undisturbed_loses_no_update {s₀ s : VfsState} {events : List VfsEvent}
    (hstart : VfsStart s₀) (hevents : UndisturbedRun s₀ events) (hrun : vfsRun s₀ events = some s)
    (hresolved : AllResolved s) : ImagesStored s :=
  (hstart.invariant.run hevents hrun).imagesStored hresolved

def smallVfs : VfsState where
  images slot := if slot = 0 then some ⟨smallCard, List.replicate 128 0#32, ⟨1, Bitmap.clear⟩⟩ else none
  db := { emptyDatabase with storageCard := ObjectStore.empty.put smallCard 0 }
  ownership := fun _ => .vfs
  operations := []

def singleOperation : List VfsEvent :=
  [.start [0], .write 0 0 0 1#32, .callSync 0, .vfsResolved 0, .lockAcquired 0, .cardRead 0,
    .completed 0, .resumed 0, .callSync 0]

/-- The second operation changes a word while the transaction of the first one is pending. -/
def overlappingOperations : List VfsEvent :=
  [.start [0], .start [0], .write 0 0 0 1#32, .callSync 0, .vfsResolved 0, .lockAcquired 0,
    .cardRead 0, .write 1 0 1 2#32, .completed 0, .resumed 0, .callSync 0, .callSync 1,
    .vfsResolved 1, .lockAcquired 1, .cardRead 1, .completed 1, .resumed 1, .callSync 1]

theorem smallVfs_start : VfsStart smallVfs := by
  have hslot : ∀ {slot image}, smallVfs.images slot = some image →
      slot = 0 ∧ image = ⟨smallCard, replicate 128 0#32, ⟨1, Bitmap.clear⟩⟩ := by
    intro slot image himage
    rw [smallVfs] at himage
    dsimp only at himage
    split_ifs at himage with hzero
    exact ⟨hzero, (some.inj himage).symm⟩
  refine ⟨rfl, ?_, fun _ _ _ => rfl, ?_, ?_⟩
  · intro slot image himage
    obtain ⟨-, rfl⟩ := hslot himage
    refine ⟨⟨smallCard, rfl, rfl, ?_⟩, ?_, PageFormat.holds_zeros 0 128⟩
    · rw [length_replicate]
      rfl
    · rw [length_replicate]
      decide
  · intro slot image himage
    obtain ⟨-, rfl⟩ := hslot himage
    rw [length_replicate]
    rfl
  · intro slot slot' image image' himage himage' _
    rw [(hslot himage).1, (hslot himage').1]

theorem undisturbedRun_of_no_write {s : VfsState} {events : List VfsEvent}
    (h : ∀ event ∈ events, ∀ i slot index value, event ≠ .write i slot index value) :
    UndisturbedRun s events := by
  induction events generalizing s with
  | nil => trivial
  | cons event events ih =>
    constructor
    · cases event with
      | write i slot index value => exact absurd rfl (h _ mem_cons_self i slot index value)
      | _ => trivial
    · grind

theorem singleOperation_undisturbed : UndisturbedRun smallVfs singleOperation := by
  refine ⟨trivial, fun s₁ hstart => ⟨?_, fun s₂ _ => undisturbedRun_of_no_write ?_⟩⟩
  · cases hstart
    intro image _
    right
    intro op hop hselected
    rcases mem_singleton.mp hop with rfl
    exact hselected.elim
  · intro event hevent i slot index value hwrite
    subst hwrite
    simp at hevent

/-- What a run ends with: whether all operations have resolved, and whether the first word and the
second one are stored. -/
def outcome (s : VfsState) : Bool × Option (List Word) × Option (List Word) :=
  (s.operations.all fun op => match op.stage with
      | .resolved => true
      | _ => false,
    ((loadCardData s.ownership s.db 0 (List.replicate 128 0#32) .vfs).toOption.map (List.take 2)),
    (s.images 0).map fun image => image.data.take 2)

theorem outcome_single :
    (vfsRun smallVfs singleOperation).map outcome = some (true, some [1#32, 0#32], some [1#32, 0#32]) := by
  decide +kernel

theorem outcome_overlapping : (vfsRun smallVfs overlappingOperations).map outcome =
    some (true, some [1#32, 0#32], some [1#32, 2#32]) := by
  decide +kernel

theorem allResolved_of_outcome {s : VfsState} (h : (outcome s).1 = true) : AllResolved s := by
  intro op hop
  have hstage := List.all_eq_true.mp h op hop
  cases hcase : op.stage with
  | resolved => rfl
  | _ => grind

theorem singleOperation_loses_no_update :
    ∃ s, vfsRun smallVfs singleOperation = some s ∧ ImagesStored s := by
  obtain ⟨s, hrun, houtcome⟩ := map_eq_some_iff.mp outcome_single
  have hresolved : AllResolved s := allResolved_of_outcome (by rw [houtcome])
  exact ⟨s, hrun, undisturbed_loses_no_update smallVfs_start singleOperation_undisturbed hrun
    hresolved⟩

/-- The bit of the second word is cleared by the first operation, and the word is not stored. -/
theorem overlappingOperations_lose_update :
    ¬ ∀ s events s', VfsStart s → vfsRun s events = some s' → AllResolved s' → ImagesStored s' := by
  intro h
  obtain ⟨s, hrun, houtcome⟩ := map_eq_some_iff.mp outcome_overlapping
  have hresolved : AllResolved s := allResolved_of_outcome (by rw [houtcome])
  have hstored := h smallVfs overlappingOperations s smallVfs_start hrun hresolved
  rw [outcome, Prod.mk.injEq, Prod.mk.injEq] at houtcome
  obtain ⟨-, hloaded, himage⟩ := houtcome
  obtain ⟨image, himage, hwords⟩ := map_eq_some_iff.mp himage
  have hinvariant : image.card.id = 0 ∧ image.data.length = 128 := by
    have hkept := congrArg (Option.map fun s => (s.images 0).map fun image =>
      (image.card.id, image.data.length)) hrun
    rw [map_some, himage] at hkept
    have hcomputed : (vfsRun smallVfs overlappingOperations).map (fun s => (s.images 0).map
        fun image => (image.card.id, image.data.length)) = some (some (0, 128)) := by
      decide +kernel
    rw [hcomputed] at hkept
    have hpair := some.inj (some.inj hkept)
    rw [Prod.mk.injEq] at hpair
    exact ⟨hpair.1.symm, hpair.2.symm⟩
  have hload := hstored 0 image himage (replicate 128 0#32)
    (length_replicate.trans hinvariant.2.symm)
  rw [hinvariant.1] at hload
  rw [hload] at hloaded
  have htwo := some.inj hloaded
  rw [hwords] at htwo
  cases htwo

end Cloudpilot.Web
