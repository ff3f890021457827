import Mathlib.Tactic
import Cloudpilot.Library.OwnedReferences

/-! # Card images

Images are stored under keys, and a slot refers to the image that is mounted in it. The
savestate records the keys in the slots, and `Remount` mounts them again. The handlers of the
device see mounts and unmounts, but they do not change any of this.
-/
namespace Cloudpilot.Emulator.Storage
open Cloudpilot.Library List Option

abbrev Key := List (BitVec 8)

/-- `EmHAL::Slot` without `none`. -/
inductive Slot where
  | sdcard
  | memorystick
  deriving DecidableEq

/-- `EmHAL::SupportsImageInSlot` of a device. -/
abbrev Device := Slot → ℕ → Bool

def blockSize : ℕ := 512

def maxKeyLength : ℕ := 32

/-- An image, with the number of images allocated before it as its identity. -/
structure CardImage where
  object : ℕ
  blocksTotal : ℕ
  deriving DecidableEq

abbrev MountedImage := Key × CardImage

structure ExternalStorage where
  images : KeyMap Key CardImage
  slots : Slot → Option MountedImage
  mountedKeysFromSavestate : Slot → Key
  remountFailed : Bool
  allocated : ℕ

def ExternalStorage.init : ExternalStorage where
  images := ∅
  slots := fun _ => none
  mountedKeysFromSavestate := fun _ => []
  remountFailed := false
  allocated := 0

namespace ExternalStorage

variable {s : ExternalStorage} {slot slot' : Slot} {key : Key} {image : CardImage}

def allSlots : List Slot := [.sdcard, .memorystick]

def hasImage (s : ExternalStorage) (key : Key) : Bool := key ∈ s.images

def addImage (s : ExternalStorage) (key : Key) (size : ℕ) : Bool × ExternalStorage :=
  if key.length > maxKeyLength ∨ size % blockSize ≠ 0 ∨ s.hasImage key then (false, s)
  else
    (true, { s with
      images := s.images.insert key ⟨s.allocated, size / blockSize⟩
      allocated := s.allocated + 1 })

def isMounted (s : ExternalStorage) (slot : Slot) : Bool := (s.slots slot).isSome

def getSlot (s : ExternalStorage) (key : Key) : Option Slot :=
  allSlots.find? fun slot => (s.slots slot).any fun mounted => mounted.1 = key

/-- `Mount` with a slot. -/
def mountInSlot (device : Device) (s : ExternalStorage) (key : Key) (slot : Option Slot) :
    Bool × ExternalStorage :=
  match slot, s.images.lookup key with
  | some slot, some image =>
    if s.isMounted slot ∨ s.getSlot key ≠ none ∨ ¬ device slot image.blocksTotal then (false, s)
    else (true, { s with slots := Function.update s.slots slot (some (key, image)) })
  | _, _ => (false, s)

/-- `Mount` without a slot: the first one that supports the image. -/
def mount (device : Device) (s : ExternalStorage) (key : Key) : Bool × ExternalStorage :=
  match s.images.lookup key with
  | none => (false, s)
  | some image =>
    match allSlots.find? fun slot => device slot image.blocksTotal with
    | some slot => s.mountInSlot device key (some slot)
    | none => (false, s)

def unmount (s : ExternalStorage) (slot : Option Slot) : Bool × ExternalStorage :=
  match slot with
  | none => (false, s)
  | some slot =>
    if s.isMounted slot then (true, { s with slots := Function.update s.slots slot none })
    else (false, s)

/-- `Unmount` with a key. -/
def unmountKey (s : ExternalStorage) (key : Key) : Bool × ExternalStorage :=
  if s.getSlot key = none then (false, s) else s.unmount (s.getSlot key)

/-- One slot of `Remount`. -/
def remountSlot (s : ExternalStorage) (slot : Slot) : ExternalStorage :=
  let key := s.mountedKeysFromSavestate slot
  if key = [] then s
  else
    match s.images.lookup key with
    | none => { s with remountFailed := true }
    | some image => { s with slots := Function.update s.slots slot (some (key, image)) }

def remount (s : ExternalStorage) : ExternalStorage :=
  allSlots.foldl remountSlot { s with remountFailed := false }

def rekeyImage (s : ExternalStorage) (oldKey newKey : Key) : ExternalStorage :=
  if newKey = oldKey ∨ ¬ s.hasImage oldKey ∨ newKey.length > maxKeyLength then s
  else
    { s with
      images := s.images.rekey oldKey newKey
      slots := fun slot => (s.slots slot).map (Owned.renamed oldKey newKey) }

def removeImage (s : ExternalStorage) (key : Key) : Bool × ExternalStorage :=
  if ¬ s.hasImage key then (false, s)
  else (true, { (s.unmountKey key).2 with images := (s.unmountKey key).2.images.erase key })

def unmountAll (s : ExternalStorage) : ExternalStorage :=
  allSlots.foldl (fun s slot => if s.isMounted slot then (s.unmount (some slot)).2 else s) s

def clear (s : ExternalStorage) : ExternalStorage := { s.unmountAll with images := ∅ }

/-- The keys that `Save` records. -/
def save (s : ExternalStorage) : ExternalStorage :=
  { s with mountedKeysFromSavestate := fun slot =>
      match s.slots slot with
      | some mounted => mounted.1
      | none => [] }

/-- The keys that `Load` reads. -/
def load (s : ExternalStorage) (keys : Slot → Key) : ExternalStorage :=
  { s with mountedKeysFromSavestate := keys }

theorem any_key_iff {mounted : Option MountedImage} :
    mounted.any (fun mounted => mounted.1 = key) = true ↔ ∃ image, mounted = some (key, image) := by
  cases mounted with
  | none => simp
  | some mounted => grind

theorem mem_allSlots (slot : Slot) : slot ∈ allSlots := by
  cases slot <;> simp [allSlots]

theorem getSlot_eq_none : s.getSlot key = none ↔ ∀ slot image, s.slots slot ≠ some (key, image) := by
  unfold getSlot
  rw [List.find?_eq_none]
  constructor
  · intro h slot image hslot
    exact h slot (mem_allSlots slot) (any_key_iff.mpr ⟨image, hslot⟩)
  · intro h slot _ hany
    obtain ⟨image, hslot⟩ := any_key_iff.mp hany
    exact h slot image hslot

theorem getSlot_eq_some (h : s.getSlot key = some slot) : ∃ image, s.slots slot = some (key, image) := by
  have hany := List.find?_some h
  exact any_key_iff.mp hany

theorem images_unmount (s : ExternalStorage) (slot : Option Slot) :
    (s.unmount slot).2.images = s.images := by
  unfold unmount
  split
  · rfl
  · grind

theorem slots_unmountAll (s : ExternalStorage) : s.unmountAll.slots = fun _ => none := by
  have hone (s : ExternalStorage) (slot : Slot) :
      (if s.isMounted slot then (s.unmount (some slot)).2 else s).slots =
        Function.update s.slots slot none := by
    unfold unmount
    by_cases hmounted : s.isMounted slot = true
    · grind
    · rw [if_neg hmounted]
      have hnone : s.slots slot = none := by
        rw [isMounted, Bool.not_eq_true, isSome_eq_false_iff, isNone_iff_eq_none]
          at hmounted
        exact hmounted
      rw [← hnone, Function.update_eq_self]
  unfold unmountAll allSlots
  rw [foldl_cons, foldl_cons, foldl_nil, hone, hone]
  funext slot
  cases slot <;> rfl

theorem images_unmountAll (s : ExternalStorage) : s.unmountAll.images = s.images := by
  have hone (s : ExternalStorage) (slot : Slot) :
      (if s.isMounted slot then (s.unmount (some slot)).2 else s).images = s.images := by
    split
    · exact images_unmount s _
    · rfl
  rw [unmountAll, allSlots, foldl_cons, foldl_cons, foldl_nil, hone, hone]

theorem keys_unmountAll (s : ExternalStorage) :
    s.unmountAll.mountedKeysFromSavestate = s.mountedKeysFromSavestate := by
  have hone (s : ExternalStorage) (slot : Slot) :
      (if s.isMounted slot then (s.unmount (some slot)).2 else s).mountedKeysFromSavestate =
        s.mountedKeysFromSavestate := by grind [unmount]
  rw [unmountAll, allSlots, foldl_cons, foldl_cons, foldl_nil, hone, hone]

def mountFromSavestate (s : ExternalStorage) (slot : Slot) : Option MountedImage :=
  if s.mountedKeysFromSavestate slot = [] then none
  else (s.images.lookup (s.mountedKeysFromSavestate slot)).map fun image =>
    (s.mountedKeysFromSavestate slot, image)

structure Remounts (s s' : ExternalStorage) (slot : Slot) : Prop where
  images : s'.images = s.images
  keys : s'.mountedKeysFromSavestate = s.mountedKeysFromSavestate
  slots : s'.slots = Function.update s.slots slot ((s.mountFromSavestate slot).or (s.slots slot))

theorem remountSlot_remounts (s : ExternalStorage) (slot : Slot) :
    Remounts s (s.remountSlot slot) slot := by
  unfold remountSlot
  dsimp only
  split
  · rename_i hempty
    refine ⟨rfl, rfl, ?_⟩
    rw [mountFromSavestate, if_pos hempty, none_or, Function.update_eq_self]
  · rename_i hkey
    split
    · rename_i hmissing
      refine ⟨rfl, rfl, ?_⟩
      rw [mountFromSavestate, if_neg hkey, hmissing, map_none, none_or,
        Function.update_eq_self]
    · rename_i image himage
      refine ⟨rfl, rfl, ?_⟩
      rw [mountFromSavestate, if_neg hkey, himage, map_some, some_or]

theorem mountFromSavestate_congr {s' : ExternalStorage} (himages : s'.images = s.images)
    (hkeys : s'.mountedKeysFromSavestate = s.mountedKeysFromSavestate) (slot : Slot) :
    s'.mountFromSavestate slot = s.mountFromSavestate slot := by
  rw [mountFromSavestate, himages, hkeys, mountFromSavestate]

theorem remount_spec (s : ExternalStorage) : s.remount.images = s.images ∧
    s.remount.mountedKeysFromSavestate = s.mountedKeysFromSavestate ∧
      ∀ slot, s.remount.slots slot = (s.mountFromSavestate slot).or (s.slots slot) := by
  let s₀ : ExternalStorage := { s with remountFailed := false }
  have hfirst := remountSlot_remounts s₀ .sdcard
  have hsecond := remountSlot_remounts (s₀.remountSlot .sdcard) .memorystick
  have hremount : s.remount = (s₀.remountSlot .sdcard).remountSlot .memorystick := rfl
  have himages : (s₀.remountSlot .sdcard).images = s.images := hfirst.images
  have hkeys : (s₀.remountSlot .sdcard).mountedKeysFromSavestate = s.mountedKeysFromSavestate :=
    hfirst.keys
  rw [hremount]
  refine ⟨hsecond.images.trans himages, hsecond.keys.trans hkeys, fun slot => ?_⟩
  rw [hsecond.slots, mountFromSavestate_congr himages hkeys]
  cases slot with
  | sdcard =>
    rw [Function.update_of_ne (by simp), hfirst.slots, Function.update_self]
    rfl
  | memorystick =>
    rw [Function.update_self, hfirst.slots, Function.update_of_ne (by simp)]

end ExternalStorage

end Cloudpilot.Emulator.Storage
