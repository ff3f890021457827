import Cloudpilot.Emulator.Storage.ExternalStorage

/-! # Ownership of mounted images

Any sequence of calls keeps every mounted image owned and mounted once, except for a rename
to a key that is in use and for a remount that brings a key into two slots.
-/
namespace Cloudpilot.Emulator.Storage
open Cloudpilot.Library Option

inductive Call where
  | addImage (key : Key) (size : ℕ)
  | mountInSlot (key : Key) (slot : Option Slot)
  | mount (key : Key)
  | unmount (slot : Option Slot)
  | unmountKey (key : Key)
  | unmountAll
  | rekeyImage (oldKey newKey : Key)
  | removeImage (key : Key)
  | clear
  | save
  | load (keys : Slot → Key)
  | remount

namespace ExternalStorage

variable {device : Device} {s : ExternalStorage} {slot : Slot} {key newKey : Key}
  {image : CardImage} {calls : List (Device × Call)}

def step (device : Device) (s : ExternalStorage) : Call → ExternalStorage
  | .addImage key size => (s.addImage key size).2
  | .mountInSlot key slot => (s.mountInSlot device key slot).2
  | .mount key => (s.mount device key).2
  | .unmount slot => (s.unmount slot).2
  | .unmountKey key => (s.unmountKey key).2
  | .unmountAll => s.unmountAll
  | .rekeyImage oldKey newKey => s.rekeyImage oldKey newKey
  | .removeImage key => (s.removeImage key).2
  | .clear => s.clear
  | .save => s.save
  | .load keys => s.load keys
  | .remount => s.remount

def OwnsMounted (s : ExternalStorage) : Prop := Owned s.images s.slots

section

variable (h : s.OwnsMounted)

include h

theorem addImage_owns (key : Key) (size : ℕ) : (s.addImage key size).2.OwnsMounted := by
  unfold addImage
  split
  · exact h
  · rename_i hnew
    apply h.insert
    simp only [hasImage, not_or, decide_eq_true_eq] at hnew
    exact hnew.2.2

theorem mountInSlot_owns (key : Key) (slot : Option Slot) :
    (s.mountInSlot device key slot).2.OwnsMounted := by
  unfold mountInSlot
  split
  · rename_i slot image himage
    split
    · exact h
    · rename_i hfree
      rw [not_or, not_or, not_not] at hfree
      apply h.put himage
      intro slot' _ image'
      exact getSlot_eq_none.mp hfree.2.1 slot' image'
  · exact h

theorem mount_owns (key : Key) : (s.mount device key).2.OwnsMounted := by
  unfold mount
  split
  · exact h
  · split
    · exact mountInSlot_owns h key _
    · exact h

theorem unmount_owns (slot : Option Slot) : (s.unmount slot).2.OwnsMounted := by
  unfold unmount
  split
  · exact h
  · rename_i slot
    split
    · exact h.clear slot
    · exact h

theorem unmountKey_owns (key : Key) : (s.unmountKey key).2.OwnsMounted := by
  unfold unmountKey
  split
  · exact h
  · exact unmount_owns h _

theorem unmountKey_free (key : Key) (slot : Slot) (image : CardImage) :
    (s.unmountKey key).2.slots slot ≠ some (key, image) := by
  unfold unmountKey
  split
  · rename_i hnone
    exact getSlot_eq_none.mp hnone slot image
  · rename_i hmounted
    obtain ⟨slot', hslot'⟩ := ne_none_iff_exists'.mp hmounted
    obtain ⟨image', himage'⟩ := getSlot_eq_some hslot'
    intro hslot
    rw [hslot', unmount, if_pos (by rw [isMounted, himage']; rfl)] at hslot
    change Function.update s.slots slot' none slot = _ at hslot
    by_cases hsame : slot = slot'
    · grind
    · rw [Function.update_of_ne hsame] at hslot
      exact hsame (h.single slot slot' key image image' hslot himage')

theorem removeImage_owns (key : Key) : (s.removeImage key).2.OwnsMounted := by
  unfold removeImage
  split
  · exact h
  · exact (unmountKey_owns h key).erase (unmountKey_free h key)

end

theorem unmountAll_owns (s : ExternalStorage) : s.unmountAll.OwnsMounted := by
  rw [OwnsMounted, slots_unmountAll]
  exact Owned.none _

theorem clear_owns (s : ExternalStorage) : s.clear.OwnsMounted := by
  rw [OwnsMounted, clear]
  rw [slots_unmountAll]
  exact Owned.none _

def stored (s : ExternalStorage) : Multiset CardImage := s.images.values

def RenameFree (s : ExternalStorage) (oldKey newKey : Key) : Prop :=
  newKey = oldKey ∨ ¬ s.hasImage oldKey ∨ newKey.length > maxKeyLength ∨ ¬ s.hasImage newKey

instance (s : ExternalStorage) (oldKey newKey : Key) : Decidable (s.RenameFree oldKey newKey) :=
  inferInstanceAs (Decidable (_ ∨ _ ∨ _ ∨ _))

theorem exists_lookup (h : s.hasImage key = true) : ∃ image, s.images.lookup key = some image :=
  Option.isSome_iff_exists.mp (AList.lookup_isSome.mpr (of_decide_eq_true h))

theorem rekeyImage_owns (h : s.OwnsMounted) (hfree : s.RenameFree key newKey) :
    (s.rekeyImage key newKey).OwnsMounted ∧ (s.rekeyImage key newKey).stored = s.stored := by
  unfold rekeyImage
  split
  · exact ⟨h, rfl⟩
  · rename_i hrenames
    rw [not_or, not_or, not_not] at hrenames
    obtain ⟨hne, hold, hlength⟩ := hrenames
    obtain ⟨image, himage⟩ := exists_lookup hold
    have hnew : newKey ∉ s.images := by
      obtain hsame | hmissing | hlong | hnew := hfree
      · grind
      · grind
      · omega
      · intro hmem
        exact hnew (decide_eq_true hmem)
    exact ⟨h.rekey himage hnew, KeyMap.values_rekey himage hnew⟩

theorem stored_rekeyImage (hused : ¬ s.RenameFree key newKey) :
    (s.rekeyImage key newKey).stored ≠ s.stored := by
  rw [RenameFree, not_or, not_or, not_or, not_not, not_not] at hused
  obtain ⟨hne, hold, hlength, hnew⟩ := hused
  obtain ⟨image, himage⟩ := exists_lookup hold
  have hvalues := KeyMap.values_rekey_used himage (of_decide_eq_true hnew)
  intro hkept
  have hrekey : (s.rekeyImage key newKey).images = s.images.rekey key newKey := by
    rw [rekeyImage, if_neg (by rw [not_or, not_or, not_not]; exact ⟨hne, hold, hlength⟩)]
  rw [stored, stored, hrekey, ← hvalues] at hkept
  have hcard := congrArg Multiset.card hkept
  rw [Multiset.card_cons] at hcard
  omega

def Recorded (s : ExternalStorage) (slot : Slot) (key : Key) : Prop :=
  s.mountedKeysFromSavestate slot = key ∧ key ≠ [] ∧ s.hasImage key

theorem mountFromSavestate_eq_some : s.mountFromSavestate slot = some (key, image) ↔
    s.Recorded slot key ∧ s.images.lookup key = some image := by
  unfold mountFromSavestate Recorded
  split
  · grind
  · rename_i hkey
    rw [map_eq_some_iff]
    constructor
    · rintro ⟨image', himage, heq⟩
      cases heq
      exact ⟨⟨rfl, hkey, decide_eq_true (KeyMap.mem_of_lookup himage)⟩, himage⟩
    · grind

theorem exists_mountFromSavestate (h : s.Recorded slot key) :
    ∃ image, s.mountFromSavestate slot = some (key, image) := by
  obtain ⟨image, himage⟩ := exists_lookup h.2.2
  exact ⟨image, mountFromSavestate_eq_some.mpr ⟨h, himage⟩⟩

/-- No key is recorded for one slot while it is recorded for the other one, or mounted there and left
in place. -/
def RemountApart (s : ExternalStorage) : Prop :=
  ∀ slot slot' key, slot ≠ slot' → s.Recorded slot key →
    ¬ s.Recorded slot' key ∧
      ((∃ image, s.slots slot' = some (key, image)) → ∃ key', s.Recorded slot' key')

theorem slots_remount (h : s.remount.slots slot = some (key, image)) :
    s.mountFromSavestate slot = some (key, image) ∨
      (∀ key', ¬ s.Recorded slot key') ∧ s.slots slot = some (key, image) := by
  rw [(remount_spec s).2.2 slot] at h
  cases hrecorded : s.mountFromSavestate slot with
  | none =>
    rw [hrecorded, none_or] at h
    refine Or.inr ⟨fun key' hkey' => ?_, h⟩
    obtain ⟨image', himage'⟩ := exists_mountFromSavestate hkey'
    rw [hrecorded] at himage'
    cases himage'
  | some mounted => grind

theorem remount_owns (h : s.OwnsMounted) (hapart : s.RemountApart) : s.remount.OwnsMounted := by
  constructor
  · intro slot key image hslot
    rw [(remount_spec s).1]
    obtain hrecorded | ⟨-, hkept⟩ := slots_remount hslot
    · exact (mountFromSavestate_eq_some.mp hrecorded).2
    · exact h.owned slot key image hkept
  · intro slot slot' key image image' hslot hslot'
    by_contra hne
    obtain hrecorded | ⟨hnone, hkept⟩ := slots_remount hslot
    · have hkey := (mountFromSavestate_eq_some.mp hrecorded).1
      obtain ⟨hother, hleft⟩ := hapart slot slot' key hne hkey
      obtain hrecorded' | ⟨hnone', hkept'⟩ := slots_remount hslot'
      · exact hother (mountFromSavestate_eq_some.mp hrecorded').1
      · obtain ⟨key', hkey'⟩ := hleft ⟨image', hkept'⟩
        exact hnone' key' hkey'
    · obtain hrecorded' | ⟨-, hkept'⟩ := slots_remount hslot'
      · have hkey' := (mountFromSavestate_eq_some.mp hrecorded').1
        obtain ⟨key', hkey⟩ := (hapart slot' slot key (Ne.symm hne) hkey').2 ⟨image, hkept⟩
        exact hnone key' hkey
      · exact hne (h.single slot slot' key image image' hkept hkept')

theorem remountApart_of_owns (h : s.remount.OwnsMounted) : s.RemountApart := by
  intro slot slot' key hne hkey
  obtain ⟨image, himage⟩ := exists_mountFromSavestate hkey
  have hslot : s.remount.slots slot = some (key, image) := by
    rw [(remount_spec s).2.2 slot, himage, some_or]
  constructor
  · intro hkey'
    obtain ⟨image', himage'⟩ := exists_mountFromSavestate hkey'
    have hslot' : s.remount.slots slot' = some (key, image') := by
      rw [(remount_spec s).2.2 slot', himage', some_or]
    exact hne (h.single slot slot' key image image' hslot hslot')
  · rintro ⟨image', hmounted⟩
    by_contra hnone
    have hrecorded : s.mountFromSavestate slot' = none := by
      rw [eq_none_iff_forall_ne_some]
      rintro ⟨key', image''⟩ hsome
      exact hnone ⟨key', (mountFromSavestate_eq_some.mp hsome).1⟩
    have hslot' : s.remount.slots slot' = some (key, image') := by
      rw [(remount_spec s).2.2 slot', hrecorded, none_or, hmounted]
    exact hne (h.single slot slot' key image image' hslot hslot')

def Harmless (s : ExternalStorage) : Call → Prop
  | .rekeyImage oldKey newKey => s.RenameFree oldKey newKey
  | .remount => s.RemountApart
  | _ => True

/-- A rename keeps all images. -/
def KeepsStored (s s' : ExternalStorage) : Call → Prop
  | .rekeyImage _ _ => s'.stored = s.stored
  | _ => True

theorem step_sound_iff (device : Device) (call : Call) (h : s.OwnsMounted) :
    (s.step device call).OwnsMounted ∧ KeepsStored s (s.step device call) call ↔
      s.Harmless call := by
  cases call with
  | addImage key size => exact iff_of_true ⟨addImage_owns h key size, trivial⟩ trivial
  | mountInSlot key slot => exact iff_of_true ⟨mountInSlot_owns h key slot, trivial⟩ trivial
  | mount key => exact iff_of_true ⟨mount_owns h key, trivial⟩ trivial
  | unmount slot => exact iff_of_true ⟨unmount_owns h slot, trivial⟩ trivial
  | unmountKey key => exact iff_of_true ⟨unmountKey_owns h key, trivial⟩ trivial
  | unmountAll => exact iff_of_true ⟨unmountAll_owns s, trivial⟩ trivial
  | removeImage key => exact iff_of_true ⟨removeImage_owns h key, trivial⟩ trivial
  | clear => exact iff_of_true ⟨clear_owns s, trivial⟩ trivial
  | save => exact iff_of_true ⟨h, trivial⟩ trivial
  | load keys => exact iff_of_true ⟨h, trivial⟩ trivial
  | rekeyImage oldKey newKey =>
    constructor
    · rintro ⟨-, hkept⟩
      by_contra hused
      exact stored_rekeyImage hused hkept
    · intro hfree
      exact rekeyImage_owns h hfree
  | remount =>
    constructor
    · rintro ⟨howns, -⟩
      exact remountApart_of_owns howns
    · intro hapart
      exact ⟨remount_owns h hapart, trivial⟩

/-- Every state of a run owns what is mounted, and no rename loses an image. -/
def RunSound (s : ExternalStorage) : List (Device × Call) → Prop
  | [] => s.OwnsMounted
  | (device, call) :: calls => s.OwnsMounted ∧ KeepsStored s (s.step device call) call ∧
      (s.step device call).RunSound calls

def RunHarmless (s : ExternalStorage) : List (Device × Call) → Prop
  | [] => True
  | (device, call) :: calls => s.Harmless call ∧ (s.step device call).RunHarmless calls

theorem runSound_owns (h : s.RunSound calls) : s.OwnsMounted := by
  cases calls with
  | nil => exact h
  | cons head calls => exact h.1

theorem runSound_iff_of_owns (h : s.OwnsMounted) : s.RunSound calls ↔ s.RunHarmless calls := by
  induction calls generalizing s with
  | nil => exact iff_of_true h trivial
  | cons head calls ih =>
    obtain ⟨device, call⟩ := head
    have hstep := step_sound_iff device call h
    constructor
    · rintro ⟨-, hkept, hrest⟩
      have howns := runSound_owns hrest
      exact ⟨hstep.mp ⟨howns, hkept⟩, (ih howns).mp hrest⟩
    · rintro ⟨hharmless, hrest⟩
      obtain ⟨howns, hkept⟩ := hstep.mpr hharmless
      exact ⟨h, hkept, (ih howns).mpr hrest⟩

/-- All calls from the start on, with any devices: the storage owns what is mounted and loses nothing
exactly if no rename is to a key in use and no remount brings a key into two slots. -/
theorem calls_runSound_iff (calls : List (Device × Call)) :
    init.RunSound calls ↔ init.RunHarmless calls :=
  runSound_iff_of_owns (Owned.none _)

def cardDevice : Device := fun slot _ => slot = .sdcard

/-- Two images, of which one is mounted and then renamed to the key of the other one. -/
def renamingCalls : List (Device × Call) :=
  [(cardDevice, .addImage [1] 512), (cardDevice, .addImage [2] 1024), (cardDevice, .mount [1]),
    (cardDevice, .rekeyImage [1] [2])]

theorem not_runSound_renamingCalls : ¬ init.RunSound renamingCalls := by
  rintro ⟨-, -, -, -, -, -, -, hkept, -⟩
  have hcard := congrArg Multiset.card hkept
  revert hcard
  decide

end ExternalStorage

end Cloudpilot.Emulator.Storage
