import Cloudpilot.Emulator.Storage.Ownership
import Cloudpilot.Savestate.Savestate

/-! # Mounts that an image restores

`LoadImage` starts a new session, loads the savestate of the image, and remounts. The keys to
remount are kept from one session to the next, since `Save` and `Load` share them.
-/
namespace Cloudpilot.Emulator.Storage
open Cloudpilot.Library Cloudpilot.Savestate

/-- What `LoadImage` finds in an image. -/
structure SessionImage (w : ℕ) where
  device : Device
  /-- `Memory::Initialize` succeeds. -/
  memoryInitialized : Bool
  /-- One of `LoadMemoryV1`, `LoadMemoryV2` and `LoadMemoryV4` succeeds. -/
  memoryLoaded : Bool
  savestate : Savestate.Buffer w
  /-- No part of the savestate but the one of the external storage notifies an error. -/
  othersLoaded : Bool
  /-- The stack that `GetString` returns when the chunk is too small. -/
  uninitialized : List Byte

structure EmSession where
  isInitialized : Bool
  device : Device
  storage : ExternalStorage

/-- Without a device no image is supported. -/
def EmSession.start : EmSession := ⟨false, fun _ _ => false, .init⟩

variable {w : ℕ} {m m' : EmSession} {image : SessionImage w} {s s' : ExternalStorage} {ok : Bool}

namespace SessionImage

def mem (image : SessionImage w) : Mem := fun a => image.savestate.words.getD a 0

def getString (image : SessionImage w) (c : Chunk) (maxLength : ℕ) : Key × Chunk :=
  let (bytes, c) := getBuffer image.mem c (maxLength + 1)
  ((bytes.getD image.uninitialized).takeWhile (· ≠ 0), c)

/-- The two strings after the version. -/
def readKeys (image : SessionImage w) (c : Chunk) : (Slot → Key) × Chunk :=
  let (sdcard, c) := image.getString c maxKeyLength
  let (memorystick, c) := image.getString c maxKeyLength
  (fun slot => match slot with
    | .sdcard => sdcard
    | .memorystick => memorystick, c)

/-- `ExternalStorage::Load`, with whether there is no error. -/
def loadStorage (image : SessionImage w) (chunk : Option Chunk) (s : ExternalStorage) :
    Bool × ExternalStorage :=
  match chunk with
  | none => (true, s)
  | some c =>
    let (version, c) := get32 image.mem c.reset
    if version > 1 then (false, s)
    else
      let (keys, c) := image.readKeys c
      (!c.error, s.load keys)

/-- `EmSession::Load`. No result where parsing reads outside of the savestate. -/
def load (image : SessionImage w) (s : ExternalStorage) : Option (Bool × ExternalStorage) :=
  match parseSavestate image.savestate with
  | none => none
  | some parsed =>
    if parsed.accepted = false then some (false, s)
    else
      let chunkMap := loaderMap parsed.windows
      match chunkMap ChunkType.session.toWord with
      | none => some (false, s)
      | some c =>
        let (version, _) := get32 image.mem c.reset
        if version > 3 then some (false, s)
        else
          let (ok, s) := image.loadStorage (chunkMap ChunkType.externalStorage.toWord) s
          some (ok && image.othersLoaded, s)

end SessionImage

namespace EmSession

/-- `Initialize`, with `Deinitialize` for a session before it. -/
def initializeSession (m : EmSession) (device : Device) : EmSession where
  isInitialized := true
  device := device
  storage := if m.isInitialized then m.storage.unmountAll else m.storage

def loadImage (m : EmSession) (image : SessionImage w) : Option (Bool × EmSession) :=
  let m := m.initializeSession image.device
  if image.memoryInitialized = false then some (false, m)
  else if image.memoryLoaded = false then some (false, m)
  else if image.savestate.size > 0 then
    match image.load m.storage with
    | none => none
    | some (false, s) => some (false, { m with storage := s })
    | some (true, s) => some (true, { m with storage := s.remount })
  else some (true, { m with storage := m.storage.remount })

def call (m : EmSession) (call : Call) : EmSession :=
  { m with storage := m.storage.step m.device call }

/-- What can happen before. Only `LoadImage` loads. -/
inductive Reachable (w : ℕ) : EmSession → Prop
  | start : Reachable w .start
  | initialized {m : EmSession} (h : Reachable w m) (device : Device) : Reachable w (m.initializeSession device)
  | call {m : EmSession} (h : Reachable w m) (call : Call) (hcall : ∀ keys, call ≠ .load keys) :
      Reachable w (m.call call)
  | loadImage {m m' : EmSession} {ok : Bool} (h : Reachable w m) (image : SessionImage w)
      (hload : m.loadImage image = some (ok, m')) : Reachable w m'

end EmSession

namespace SessionImage

def storageChunk (image : SessionImage w) : Option Chunk :=
  if image.savestate.size = 0 then none
  else
    match parseSavestate image.savestate with
    | none => none
    | some parsed => loaderMap parsed.windows ChunkType.externalStorage.toWord

def recordedKeys (image : SessionImage w) : Slot → Key :=
  match image.storageChunk with
  | none => fun _ => []
  | some c => (image.readKeys (get32 image.mem c.reset).2).1

def restored (image : SessionImage w) (images : KeyMap Key CardImage) (slot : Slot) :
    Option MountedImage :=
  if image.recordedKeys slot = [] then none
  else (images.lookup (image.recordedKeys slot)).map fun stored => (image.recordedKeys slot, stored)

end SessionImage

structure Loads (image : SessionImage w) (s s' : ExternalStorage) : Prop where
  images : s'.images = s.images
  slots : s'.slots = s.slots
  keys : s'.mountedKeysFromSavestate =
    if image.storageChunk = none then s.mountedKeysFromSavestate else image.recordedKeys

theorem loadStorage_loads (h : (image.loadStorage image.storageChunk s).1 = true) :
    Loads image s (image.loadStorage image.storageChunk s).2 := by
  cases hchunk : image.storageChunk with
  | none =>
    refine ⟨rfl, rfl, ?_⟩
    rw [if_pos hchunk]
    rfl
  | some c =>
    rw [hchunk] at h
    have hkeys : image.recordedKeys = (image.readKeys (get32 image.mem c.reset).2).1 := by
      rw [SessionImage.recordedKeys, hchunk]
    rw [SessionImage.loadStorage] at h ⊢
    dsimp only at h ⊢
    split
    · grind
    · refine ⟨rfl, rfl, ?_⟩
      rw [if_neg (by rw [hchunk]; simp), hkeys]
      rfl

theorem load_loads (hsize : image.savestate.size > 0) (h : image.load s = some (true, s')) :
    Loads image s s' := by
  unfold SessionImage.load at h
  split at h
  · cases h
  · rename_i parsed hparsed
    have hchunk : loaderMap parsed.windows ChunkType.externalStorage.toWord = image.storageChunk := by
      have hne : image.savestate.size ≠ 0 := by omega
      rw [SessionImage.storageChunk, if_neg hne, hparsed]
    dsimp only at h
    rw [hchunk] at h
    split at h
    · cases h
    · split at h
      · cases h
      · split at h
        · cases h
        · obtain ⟨hok, rfl⟩ := Prod.ext_iff.mp (Option.some.inj h)
          rw [Bool.and_eq_true] at hok
          exact loadStorage_loads hok.1

/-- No image is mounted and no key is recorded. -/
structure Idle (s : ExternalStorage) : Prop where
  slots : s.slots = fun _ => none
  keys : s.mountedKeysFromSavestate = fun _ => []

namespace Idle

variable {slot : Slot} {key : Key}

theorem isMounted (h : Idle s) (slot : Slot) : s.isMounted slot = false := by
  rw [ExternalStorage.isMounted, h.slots]
  rfl

theorem getSlot (h : Idle s) (key : Key) : s.getSlot key = none := by
  rw [ExternalStorage.getSlot_eq_none, h.slots]
  intro slot image hslot
  cases hslot

theorem unmount (h : Idle s) (slot : Option Slot) : (s.unmount slot).2 = s := by
  unfold ExternalStorage.unmount
  split
  · rfl
  · simp [h.isMounted]

theorem unmountKey (h : Idle s) (key : Key) : (s.unmountKey key).2 = s := by
  rw [ExternalStorage.unmountKey, if_pos (h.getSlot key)]

theorem unmountAll (h : Idle s) : s.unmountAll = s := by
  have hkept (slot : Slot) : (if s.isMounted slot then (s.unmount (some slot)).2 else s) = s := by
    rw [h.isMounted]
    rfl
  rw [ExternalStorage.unmountAll, ExternalStorage.allSlots, List.foldl_cons, List.foldl_cons,
    List.foldl_nil, hkept, hkept]

theorem remount (h : Idle s) : Idle s.remount := by
  obtain ⟨-, hkeys, hslots⟩ := ExternalStorage.remount_spec s
  constructor
  · funext slot
    rw [hslots, ExternalStorage.mountFromSavestate, if_pos (by rw [h.keys]), h.slots]
    rfl
  · rw [hkeys, h.keys]

theorem step (h : Idle s) (call : Call) (hcall : ∀ keys, call ≠ .load keys) :
    Idle (s.step (fun _ _ => false) call) := by
  have hmount (key : Key) (slot : Option Slot) :
      (s.mountInSlot (fun _ _ => false) key slot).2 = s := by
    unfold ExternalStorage.mountInSlot
    split
    · simp
    · rfl
  cases call with
  | addImage key size =>
    change Idle (s.addImage key size).2
    unfold ExternalStorage.addImage
    split
    · exact h
    · exact ⟨h.slots, h.keys⟩
  | mountInSlot key slot =>
    change Idle (s.mountInSlot _ key slot).2
    rwa [hmount]
  | mount key =>
    change Idle (s.mount _ key).2
    unfold ExternalStorage.mount
    split
    · exact h
    · split
      · rwa [hmount]
      · exact h
  | unmount slot =>
    change Idle (s.unmount slot).2
    rwa [h.unmount]
  | unmountKey key =>
    change Idle (s.unmountKey key).2
    rwa [h.unmountKey]
  | unmountAll =>
    change Idle s.unmountAll
    rwa [h.unmountAll]
  | rekeyImage oldKey newKey =>
    change Idle (s.rekeyImage oldKey newKey)
    unfold ExternalStorage.rekeyImage
    split
    · exact h
    · refine ⟨?_, h.keys⟩
      rw [h.slots]
      rfl
  | removeImage key =>
    change Idle (s.removeImage key).2
    unfold ExternalStorage.removeImage
    split
    · exact h
    · rw [h.unmountKey]
      exact ⟨h.slots, h.keys⟩
  | clear =>
    change Idle s.clear
    rw [ExternalStorage.clear, h.unmountAll]
    exact ⟨h.slots, h.keys⟩
  | save =>
    refine ⟨h.slots, ?_⟩
    funext slot
    simp only [ExternalStorage.step, ExternalStorage.save, h.slots]
  | load keys => exact absurd rfl (hcall keys)
  | remount => exact h.remount

end Idle

theorem isInitialized_loadImage (h : m.loadImage image = some (ok, m')) : m'.isInitialized = true := by
  unfold EmSession.loadImage at h
  dsimp only at h
  split_ifs at h
  · cases h
    rfl
  · cases h
    rfl
  · split at h
    · cases h
    · cases h
      rfl
    · cases h
      rfl
  · cases h
    rfl

theorem EmSession.Reachable.idle (h : Reachable w m) (hfirst : m.isInitialized = false) :
    m.device = (fun _ _ => false) ∧ Idle m.storage := by
  induction h with
  | start => exact ⟨rfl, rfl, rfl⟩
  | initialized h device => cases hfirst
  | call h call hcall ih =>
    obtain ⟨hdevice, hidle⟩ := ih hfirst
    refine ⟨hdevice, ?_⟩
    rw [EmSession.call, hdevice]
    exact hidle.step call hcall
  | loadImage h image hload =>
    rw [isInitialized_loadImage hload] at hfirst
    cases hfirst

theorem slots_initializeSession (h : EmSession.Reachable w m) (device : Device) :
    (m.initializeSession device).storage.slots = (fun _ => none) ∧
      (m.initializeSession device).storage.images = m.storage.images ∧
      (m.initializeSession device).storage.mountedKeysFromSavestate =
        m.storage.mountedKeysFromSavestate := by
  unfold EmSession.initializeSession
  split
  · exact ⟨ExternalStorage.slots_unmountAll _, ExternalStorage.images_unmountAll _,
      ExternalStorage.keys_unmountAll _⟩
  · rename_i hfirst
    exact ⟨(h.idle (Bool.not_eq_true _ ▸ hfirst)).2.slots, rfl, rfl⟩

/-- After an image was loaded the mounted images are those that it records, exactly if it records
mounts or no key was recorded before for which there is an image. -/
theorem slots_loadImage_iff (h : EmSession.Reachable w m) (hload : m.loadImage image = some (true, m')) :
    m'.storage.slots = image.restored m'.storage.images ↔
      image.storageChunk ≠ none ∨ ∀ slot key, ¬ m.storage.Recorded slot key := by
  obtain ⟨hslots, himages, hkeys⟩ := slots_initializeSession h image.device
  obtain ⟨s, hloads, rfl⟩ : ∃ s, Loads image (m.initializeSession image.device).storage s ∧
      m' = { m.initializeSession image.device with storage := s.remount } := by
    unfold EmSession.loadImage at hload
    dsimp only at hload
    split_ifs at hload with hinit hmemory hsize
    · cases hload
    · cases hload
    · split at hload
      · cases hload
      · cases hload
      · rename_i s hs
        cases hload
        exact ⟨s, load_loads hsize hs, rfl⟩
    · cases hload
      have hnone : image.storageChunk = none := if_pos (by omega)
      refine ⟨_, ⟨rfl, rfl, ?_⟩, rfl⟩
      rw [if_pos hnone]
  obtain ⟨himages', -, hslots'⟩ := ExternalStorage.remount_spec s
  have hempty (slot : Slot) : s.slots slot = none := by
    rw [hloads.slots, hslots]
  have hmounts : s.remount.slots = s.mountFromSavestate := by grind
  rw [hmounts, himages']
  by_cases hchunk : image.storageChunk = none
  · have hkeys' : s.mountedKeysFromSavestate = m.storage.mountedKeysFromSavestate := by
      rw [hloads.keys, if_pos hchunk, hkeys]
    have hrecords : image.restored s.images = fun _ => none := by
      funext slot
      rw [SessionImage.restored, SessionImage.recordedKeys, hchunk, if_pos rfl]
    have hsame (slot : Slot) (key : Key) : s.Recorded slot key ↔ m.storage.Recorded slot key := by
      rw [ExternalStorage.Recorded, ExternalStorage.hasImage, hkeys', hloads.images, himages]
      rfl
    rw [hrecords]
    constructor
    · intro hnone
      refine Or.inr fun slot key hkey => ?_
      obtain ⟨stored, hstored⟩ := ExternalStorage.exists_mountFromSavestate ((hsame slot key).mpr hkey)
      rw [hnone] at hstored
      cases hstored
    · rintro (hsome | hnone)
      · grind
      · funext slot
        rw [Option.eq_none_iff_forall_ne_some]
        rintro ⟨key, stored⟩ hsome
        have hkey := (ExternalStorage.mountFromSavestate_eq_some.mp hsome).1
        exact hnone slot key ((hsame slot key).mp hkey)
  · have hkeys' : s.mountedKeysFromSavestate = image.recordedKeys := by grind [hloads.keys]
    refine iff_of_true ?_ (Or.inl hchunk)
    funext slot
    rw [ExternalStorage.mountFromSavestate, hkeys']
    rfl

def storedSession : EmSession :=
  (EmSession.start.initializeSession ExternalStorage.cardDevice).call (.addImage [1] 512)

def savedSession : EmSession := (storedSession.call (.mount [1])).call .save

theorem reachable_storedSession : EmSession.Reachable w storedSession :=
  (EmSession.Reachable.start.initialized _).call (.addImage [1] 512) nofun

theorem reachable_savedSession : EmSession.Reachable w savedSession :=
  (reachable_storedSession.call (.mount [1]) nofun).call .save nofun

def imageOf (words : List Savestate.Word) (hfits : 4 * words.length < 2 ^ 63) : SessionImage 64 where
  device := ExternalStorage.cardDevice
  memoryInitialized := true
  memoryLoaded := true
  savestate := ⟨words, 4 * words.length, by simp, hfits⟩
  othersLoaded := true
  uninitialized := []

/-- A savestate that records the key in the first slot. -/
def recordingImage : SessionImage 64 :=
  imageOf ([2, 0x30, 1, 0x1c0, 19, 3, 1, 1, 0, 0, 0, 0, 0, 0, 0, 0] ++ List.replicate 9 0) (by decide)

theorem slots_recordingImage : ∃ m', storedSession.loadImage recordingImage = some (true, m') ∧
    m'.storage.slots = recordingImage.restored m'.storage.images := by
  obtain ⟨m', hload⟩ : ∃ m', storedSession.loadImage recordingImage = some (true, m') := ⟨_, rfl⟩
  refine ⟨m', hload, (slots_loadImage_iff reachable_storedSession hload).mpr (Or.inl ?_)⟩
  decide

/-- An image without a savestate mounts what the session before had mounted. -/
theorem not_restored_plainImage : ∃ m m', EmSession.Reachable 64 m ∧
    m.loadImage (imageOf [] (by decide)) = some (true, m') ∧
      m'.storage.slots ≠ (imageOf [] (by decide)).restored m'.storage.images := by
  refine ⟨savedSession, _, reachable_savedSession, rfl, fun hsame => ?_⟩
  have hslot := congrFun hsame .sdcard
  revert hslot
  decide

end Cloudpilot.Emulator.Storage
