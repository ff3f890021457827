import Cloudpilot.Web.StoredPages

/-! # The snapshot service

Every second the pages that the emulator has marked are put into a transaction, together with
those that an earlier attempt has left. The emulator runs on while the transaction is pending.
-/
namespace Cloudpilot.Web
open Library Library.TypedArray Library.LittleEndian

structure MountedCard where
  key : String
  data : List Word
  dirtyPages : ℕ → Byte

structure Emulator where
  memory : List Word
  dirtyPages : ℕ → Byte
  card : Option MountedCard
  suspended : Bool
  savestate : Option (List Byte)

/-- The length of `getDirtyPages`. -/
def Emulator.dirtyPagesLength (e : Emulator) : ℕ :=
  ushr (4 * e.memory.length) 13 + if 4 * e.memory.length % 8192 = 0 then 0 else 1

def Emulator.getMountedKey (e : Emulator) : String := e.card.elim "" MountedCard.key

/-- `getCardData` and `getCardDirtyPages`. -/
def Emulator.getCard (e : Emulator) (storageId : String) : Option MountedCard :=
  e.card.filter fun card => card.key = storageId

structure SnapshotService where
  sessionId : Option ℕ
  dirtyPages : Option PageBitmap
  pages : Option (List (List Word))
  state : Option (List Byte)
  cardPagePool : List (List Word)
  cardDirtyPages : Option PageBitmap
  consecutiveErrorCount : ℕ

/-- What the loops over pages change: the bitmaps of service and emulator, the page buffers, and
the records of the transaction. The requests of a transaction may start to fail at any point. -/
structure Saving where
  dirtyPages : ℕ → Byte
  pool : List (List Word)
  iPool : ℕ
  emulator : ℕ → Byte
  store : ObjectStore Key StoredPage
  requests : ℕ

def Saving.put (s : Saving) (v : StoredPage) (k : Key) : Except Saving Saving :=
  if s.requests = 0 then .error s
  else .ok { s with store := s.store.put v k, requests := s.requests - 1 }

/-- `this.dirtyPages[i] |= dirtyPages[i]; dirtyPages[i] = 0`. -/
def Saving.merge (s : Saving) (i : ℕ) : Saving :=
  { s with
    dirtyPages := Function.update s.dirtyPages i (s.dirtyPages i ||| s.emulator i)
    emulator := Function.update s.emulator i 0#8 }

def saveByte (total : ℕ) (savePage : Saving → ℕ → Except Saving Saving) (s : ℕ × Saving) (i : ℕ) :
    Except Saving (ℕ × Saving) :=
  let merged := s.2.merge i
  if merged.dirtyPages i = 0#8 then .ok (s.1 + 8, merged)
  else visitByte total (merged.dirtyPages i) savePage (s.1, merged)

/-- The loop of `saveDirtyMemory` and of `saveDirtyStorage`. -/
def saveDirtyPages (total length : ℕ) (savePage : Saving → ℕ → Except Saving Saving) (s : Saving) :
    Except Saving (ℕ × Saving) :=
  (List.range length).foldlM (saveByte total savePage) (0, s)

/-- A page of `saveDirtyMemory`. Pages that are no number go through a buffer of their own. -/
def saveDirtyMemoryPage (sessionId : ℕ) (memory : List Word) (s : Saving) (iPage : ℕ) :
    Except Saving Saving :=
  match compressPage (subarray memory (iPage * 256 : ℕ) ((iPage + 1) * 256 : ℕ)) with
  | .words compressedPage =>
    let page := overwrite (s.pool.getD iPage []) 0 compressedPage
    { s with pool := s.pool.set iPage page }.put (.words page) (key sessionId iPage)
  | compressedPage => s.put compressedPage (key sessionId iPage)

/-- A page of `saveDirtyStorage`. Buffers are taken from the pool in the order of the pages. -/
def saveDirtyStoragePage (id : ℕ) (data : List Word) (s : Saving) (iPage : ℕ) :
    Except Saving Saving :=
  let pool := if s.iPool ≥ s.pool.length then s.pool ++ [List.replicate 2048 0#32] else s.pool
  let page := overwrite (pool.getD s.iPool []) 0
    (subarray data (iPage * 2048 : ℕ) ((iPage + 1) * 2048 : ℕ))
  { s with pool := pool.set s.iPool page, iPool := s.iPool + 1 }.put (.words page) (key id iPage)

/-- What the synchronous part of an attempt works on. -/
structure Saves where
  service : SnapshotService
  emulator : Emulator
  tx : Database
  requests : ℕ
  fatalError : Bool

/-- The fields behind the loop of `saveDirtyMemory`, also where it throws. -/
def Saves.afterMemory (c : Saves) (length : ℕ) (s : Saving) : Saves :=
  { c with
    service := { c.service with dirtyPages := some ⟨length, s.dirtyPages⟩, pages := some s.pool }
    emulator := { c.emulator with dirtyPages := s.emulator }
    tx := { c.tx with memory := s.store }
    requests := s.requests }

/-- The bitmap and the buffers of the first snapshot. -/
def Saves.allocate (c : Saves) : Saves :=
  if c.service.dirtyPages.isSome ∧ c.service.pages.isSome then c
  else
    { c with
      service := { c.service with
        dirtyPages := some ⟨c.emulator.dirtyPagesLength, Bitmap.clear⟩
        pages := some (List.replicate (c.emulator.memory.length / 256) (List.replicate 256 0#32)) } }

def saveDirtyMemory (integrityCheck : Bool) (sessionId : ℕ) (c : Saves) : Except Saves Saves :=
  let memory := c.emulator.memory
  let c := c.allocate
  let crc32 := if integrityCheck then some (Common.Crc.crc32 (memory.flatMap word)) else none
  if c.requests = 0 then .error c
  else
    let c := { c with
      tx := { c.tx with
        memoryMeta := c.tx.memoryMeta.put ⟨sessionId, 4 * memory.length, crc32⟩ sessionId }
      requests := c.requests - 1 }
    match c.service.dirtyPages, c.service.pages with
    | some dirtyPages, some pages =>
      match saveDirtyPages pages.length c.emulator.dirtyPagesLength
          (saveDirtyMemoryPage sessionId memory)
          ⟨dirtyPages.bytes, pages, 0, c.emulator.dirtyPages, c.tx.memory, c.requests⟩ with
      | .ok (_, s) => .ok (c.afterMemory dirtyPages.length s)
      | .error s => .error (c.afterMemory dirtyPages.length s)
    | _, _ => .error c

/-- The fields behind the loop of `saveDirtyStorage`, also where it throws. -/
def Saves.afterStorage (c : Saves) (card : MountedCard) (length : ℕ) (s : Saving) : Saves :=
  { c with
    service := { c.service with
      cardDirtyPages := some ⟨length, s.dirtyPages⟩
      cardPagePool := s.pool }
    emulator := { c.emulator with card := some { card with dirtyPages := s.emulator } }
    tx := { c.tx with storage := s.store }
    requests := s.requests }

def saveDirtyStorage (ownership : Ownership) (card : StorageCard) (c : Saves) : Except Saves Saves :=
  match c.emulator.getCard card.storageId with
  | none => .ok c
  | some mounted =>
    let length := dirtyPagesSize (4 * mounted.data.length)
    if ownership card.id ≠ .cloudpilot then .error { c with fatalError := true }
    else if mounted.data.length ≠ ushr card.size 2 then .error c
    else
      let cardDirtyPages := c.service.cardDirtyPages.getD ⟨length, Bitmap.clear⟩
      let c := { c with service := { c.service with cardDirtyPages := some cardDirtyPages } }
      if cardDirtyPages.length ≠ length then .error c
      else
        let pagesTotal := mounted.data.length / 2048 +
          if mounted.data.length % 2048 > 0 then 1 else 0
        match saveDirtyPages pagesTotal length (saveDirtyStoragePage card.id mounted.data)
            ⟨cardDirtyPages.bytes, c.service.cardPagePool, 0, mounted.dirtyPages, c.tx.storage,
              c.requests⟩ with
        | .ok (_, s) => .ok (c.afterStorage mounted length s)
        | .error s => .error (c.afterStorage mounted length s)

/-- The state goes through one buffer, which has the length of the first state. -/
def saveSession (sessionId : ℕ) (c : Saves) : Except Saves Saves :=
  match c.emulator.savestate with
  | none =>
    if c.requests = 0 then .error c
    else .ok { c with
      tx := { c.tx with state := c.tx.state.delete sessionId }
      requests := c.requests - 1 }
  | some savestate =>
    let state := c.service.state.getD (List.replicate savestate.length 0#8)
    if savestate.length > state.length then .error { c with
      service := { c.service with state := some state } }
    else
      let state := overwrite state 0 savestate
      let c := { c with service := { c.service with state := some state } }
      if c.requests = 0 then .error c
      else .ok { c with
        tx := { c.tx with state := c.tx.state.put state sessionId }
        requests := c.requests - 1 }

def saveAll (integrityCheck : Bool) (ownership : Ownership) (sessionId : ℕ)
    (storageCard : Option StorageCard) (c : Saves) : Except Saves Saves := do
  let c ← saveDirtyMemory integrityCheck sessionId c
  let c ← storageCard.elim (.ok c) fun card => saveDirtyStorage ownership card c
  saveSession sessionId c

/-- How far an attempt has come: its transaction is requested, it has the page lock and looks up
the card, or all requests have been made. -/
inductive Attempt
  | requested
  | locked (storageId : String)
  | saved (tx : Database)

/-- `committing` is a transaction that has timed out too late to be aborted. -/
structure SnapshotState where
  service : SnapshotService
  emulator : Emulator
  db : Database
  ownership : Ownership
  currentSession : Option ℕ
  fatalError : Bool
  attempt : Option Attempt
  committing : Option Database

def maxConsecutiveErrors : ℕ := 3

/-- The end of a transaction: `oncomplete`. -/
def onComplete (s : SnapshotState) (tx : Database) : SnapshotState :=
  { s with
    db := tx
    service := { s.service with
      dirtyPages := s.service.dirtyPages.map fun b => { b with bytes := Bitmap.clear }
      cardDirtyPages := s.service.cardDirtyPages.map fun b => { b with bytes := Bitmap.clear } } }

/-- An attempt returns. -/
def succeed (s : SnapshotState) : SnapshotState :=
  { s with attempt := none, service := { s.service with consecutiveErrorCount := 0 } }

/-- An attempt throws: there is another one, or too many of them have failed. -/
def fail (s : SnapshotState) : SnapshotState :=
  let consecutiveErrorCount := s.service.consecutiveErrorCount + 1
  let s := { s with service := { s.service with consecutiveErrorCount } }
  if consecutiveErrorCount > maxConsecutiveErrors then
    { s with attempt := none, fatalError := true }
  else { s with attempt := some .requested }

/-- An attempt throws an error that ends the page. -/
def failFatally (s : SnapshotState) : SnapshotState := { s with attempt := none, fatalError := true }

def triggerSnapshot (s : SnapshotState) : SnapshotState :=
  if s.service.sessionId = none ∨ s.emulator.suspended then s
  else if s.attempt.isSome ∨ s.fatalError then s
  else { s with attempt := some .requested }

def Database.cardOf (db : Database) (storageId : String) : Option StorageCard :=
  if storageId = "" then none
  else (db.storageCard.records.find? fun r => r.2.storageId = storageId).map Prod.snd

/-- What `triggerSnapshotOnce` does when it has the card. -/
def onCardRead (integrityCheck : Bool) (s : SnapshotState) (storageId : String) (requests : ℕ) :
    SnapshotState :=
  if s.emulator.suspended then succeed s
  else
    match s.service.sessionId with
    | none => failFatally s
    | some sessionId =>
      if s.currentSession ≠ some sessionId then failFatally s
      else
        match saveAll integrityCheck s.ownership sessionId (s.db.cardOf storageId)
            ⟨s.service, s.emulator, s.db, requests, s.fatalError⟩ with
        | .ok c =>
          { s with service := c.service, emulator := c.emulator, attempt := some (.saved c.tx) }
        | .error c =>
          fail { s with service := c.service, emulator := c.emulator, fatalError := c.fatalError }

/-- What can happen next: the guest writes, the emulator is suspended or resumed, a snapshot is
triggered, or the database answers. -/
inductive SnapshotEvent
  | writeMemory (index : ℕ) (value : Word)
  | writeCard (index : ℕ) (value : Word)
  | setSuspended (suspended : Bool)
  | setSavestate (savestate : Option (List Byte))
  | trigger
  | lockAcquired
  | lockLost
  | requestFailed
  | cardRead (requests : ℕ)
  | completed
  | failed
  | timedOut (committing : Bool)
  | lateCompleted
  | lateFailed

def Emulator.writeMemory (e : Emulator) (index : ℕ) (value : Word) : Emulator :=
  { e with
    memory := e.memory.set index value
    dirtyPages := Bitmap.mark e.dirtyPages (index / 256) }

def MountedCard.write (card : MountedCard) (index : ℕ) (value : Word) : MountedCard :=
  { card with
    data := card.data.set index value
    dirtyPages := Bitmap.mark card.dirtyPages (index / 2048) }

def Emulator.writeCard (e : Emulator) (index : ℕ) (value : Word) : Emulator :=
  { e with card := e.card.map fun card => card.write index value }

/-- A transaction with stores in common with another one starts when that has ended. -/
def snapshotStep (integrityCheck : Bool) (s : SnapshotState) :
    SnapshotEvent → Option SnapshotState
  | .writeMemory index value => some { s with emulator := s.emulator.writeMemory index value }
  | .writeCard index value => some { s with emulator := s.emulator.writeCard index value }
  | .setSuspended suspended => some { s with emulator := { s.emulator with suspended } }
  | .setSavestate savestate => some { s with emulator := { s.emulator with savestate } }
  | .trigger => some (triggerSnapshot s)
  | .lockAcquired =>
    match s.attempt, s.committing with
    | some .requested, none =>
      some { s with attempt := some (.locked s.emulator.getMountedKey) }
    | _, _ => none
  | .lockLost =>
    match s.attempt, s.committing with
    | some .requested, none => some (failFatally s)
    | _, _ => none
  | .requestFailed =>
    match s.attempt with
    | some .requested => some (fail s)
    | some (.locked _) => some (fail s)
    | _ => none
  | .cardRead requests =>
    match s.attempt with
    | some (.locked storageId) => some (onCardRead integrityCheck s storageId requests)
    | _ => none
  | .completed =>
    match s.attempt with
    | some (.saved tx) => some (succeed (onComplete s tx))
    | _ => none
  | .failed =>
    match s.attempt with
    | some (.saved _) => some (fail s)
    | _ => none
  | .timedOut committing =>
    match s.attempt with
    | some (.saved tx) =>
      some (fail (if committing then { s with committing := some tx } else s))
    | _ => none
  | .lateCompleted =>
    match s.committing with
    | some tx => some { onComplete s tx with committing := none }
    | none => none
  | .lateFailed =>
    match s.committing with
    | some _ => some { s with committing := none }
    | none => none

def snapshotRun (integrityCheck : Bool) (s : SnapshotState) (events : List SnapshotEvent) :
    Option SnapshotState :=
  events.foldlM (snapshotStep integrityCheck) s

end Cloudpilot.Web
