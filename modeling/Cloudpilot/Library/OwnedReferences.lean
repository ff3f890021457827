import Mathlib.Data.List.AList
import Mathlib.Data.Multiset.Basic
import Mathlib.Tactic

/-! # References into a map

Values that a map owns, and places that refer to them by key and value. The references stay
valid as long as every change of the map is followed by the places that it concerns.
-/
namespace Cloudpilot.Library

variable {σ κ ν : Type*} [DecidableEq κ]

abbrev KeyMap (κ ν : Type*) : Type _ := AList fun _ : κ => ν

namespace KeyMap

variable {m : KeyMap κ ν} {k key newKey : κ} {v : ν}

/-- The values, as often as they are stored. -/
def values (m : KeyMap κ ν) : Multiset ν := (m.entries.map Sigma.snd : List ν)

/-- The value is added unless the key is in use. -/
def emplace (m : KeyMap κ ν) (k : κ) (v : ν) : KeyMap κ ν := if k ∈ m then m else m.insert k v

def rekey (m : KeyMap κ ν) (key newKey : κ) : KeyMap κ ν :=
  match m.lookup key with
  | some v => (m.emplace newKey v).erase key
  | none => m

theorem mem_of_lookup (h : m.lookup k = some v) : k ∈ m :=
  AList.lookup_isSome.mp (by rw [h]; rfl)

theorem values_insert (h : k ∉ m) (v : ν) : values (m.insert k v) = v ::ₘ values m := by
  rw [values, AList.entries_insert_of_notMem h]
  rfl

theorem values_erase (h : m.lookup k = some v) : v ::ₘ values (m.erase k) = values m := by
  obtain ⟨w, first, last, hfirst, hentries, herase⟩ :=
    List.exists_of_kerase (AList.mem_keys.mp (mem_of_lookup h))
  have hmem : (⟨k, w⟩ : Sigma fun _ : κ => ν) ∈ m.entries := by grind
  have hw : w = v := by
    have hlookup : m.lookup k = some w := AList.mem_lookup_iff.mpr hmem
    rw [h] at hlookup
    exact (Option.some.inj hlookup).symm
  have herased : (m.erase k).entries = first ++ last := herase
  rw [values, values, hentries, herased, hw, List.map_append, List.map_append, List.map_cons,
    Multiset.cons_coe, Multiset.coe_eq_coe]
  exact List.perm_middle.symm

section

variable (h : m.lookup key = some v)

include h

theorem rekey_eq : m.rekey key newKey = (m.emplace newKey v).erase key := by
  rw [rekey, h]

theorem values_rekey (hnew : newKey ∉ m) : values (m.rekey key newKey) = values m := by
  have hne : key ≠ newKey := by
    rintro rfl
    exact hnew (mem_of_lookup h)
  have hlookup : (m.insert newKey v).lookup key = some v := by
    rw [AList.lookup_insert_ne hne, h]
  rw [rekey_eq h, emplace, if_neg hnew]
  rw [← Multiset.cons_inj_right v, values_erase hlookup, values_insert hnew]

theorem values_rekey_used (hused : newKey ∈ m) : v ::ₘ values (m.rekey key newKey) = values m := by
  rw [rekey_eq h, emplace, if_pos hused, values_erase h]

theorem lookup_rekey_self (hnew : newKey ∉ m) : (m.rekey key newKey).lookup newKey = some v := by
  have hne : newKey ≠ key := by
    rintro rfl
    exact hnew (mem_of_lookup h)
  rw [rekey_eq h, emplace, if_neg hnew, AList.lookup_erase_ne hne, AList.lookup_insert]

theorem lookup_rekey_ne (hkey : k ≠ key) (hnew : k ≠ newKey) :
    (m.rekey key newKey).lookup k = m.lookup k := by
  rw [rekey_eq h, emplace, AList.lookup_erase_ne hkey]
  split
  · rfl
  · exact AList.lookup_insert_ne hnew

end

end KeyMap

/-- Every reference is to a value that the map owns, and no key is referred to from two places. -/
structure Owned (m : KeyMap κ ν) (refs : σ → Option (κ × ν)) : Prop where
  owned : ∀ place k v, refs place = some (k, v) → m.lookup k = some v
  single : ∀ place place' k v v', refs place = some (k, v) → refs place' = some (k, v') →
    place = place'

namespace Owned

variable {m : KeyMap κ ν} {refs refs' : σ → Option (κ × ν)} {k key newKey : κ} {v : ν} {place : σ}

theorem none (m : KeyMap κ ν) : Owned m fun _ : σ => Option.none :=
  ⟨nofun, nofun⟩

theorem drop (h : Owned m refs)
    (hrefs : ∀ place k v, refs' place = some (k, v) → refs place = some (k, v)) : Owned m refs' := by
  constructor
  · intro place k v hplace
    exact h.owned place k v (hrefs place k v hplace)
  · intro place place' k v v' hplace hplace'
    exact h.single place place' k v v' (hrefs place k v hplace) (hrefs place' k v' hplace')

theorem clear [DecidableEq σ] (h : Owned m refs) (place : σ) :
    Owned m (Function.update refs place Option.none) := by
  apply h.drop
  intro place' k v hplace
  by_cases hsame : place' = place <;> grind

theorem put [DecidableEq σ] (h : Owned m refs) (hv : m.lookup k = some v)
    (hfree : ∀ place', place' ≠ place → ∀ v', refs place' ≠ some (k, v')) :
    Owned m (Function.update refs place (some (k, v))) := by
  constructor
  · intro place' k' v' hplace
    by_cases hsame : place' = place
    · grind
    · rw [Function.update_of_ne hsame] at hplace
      exact h.owned place' k' v' hplace
  · intro p p' k' v' w' hp hp'
    by_cases hsame : p = place
    · grind
    · rw [Function.update_of_ne hsame] at hp
      by_cases hsame' : p' = place
      · grind
      · rw [Function.update_of_ne hsame'] at hp'
        exact h.single p p' k' v' w' hp hp'

theorem insert (h : Owned m refs) (hnew : k ∉ m) (v : ν) : Owned (m.insert k v) refs := by
  refine ⟨fun place k' v' hplace => ?_, h.single⟩
  have hold := h.owned place k' v' hplace
  have hne : k' ≠ k := by
    rintro rfl
    exact hnew (KeyMap.mem_of_lookup hold)
  rw [AList.lookup_insert_ne hne, hold]

theorem erase (h : Owned m refs) (hfree : ∀ place v, refs place ≠ some (k, v)) :
    Owned (m.erase k) refs := by
  refine ⟨fun place k' v' hplace => ?_, h.single⟩
  have hne : k' ≠ k := by grind
  rw [AList.lookup_erase_ne hne, h.owned place k' v' hplace]

/-- The reference after its key got another name. -/
def renamed (key newKey : κ) (ref : κ × ν) : κ × ν := if ref.1 = key then (newKey, ref.2) else ref

theorem rekey (h : Owned m refs) (hv : m.lookup key = some v) (hnew : newKey ∉ m) :
    Owned (m.rekey key newKey) fun place => (refs place).map (renamed key newKey) := by
  have hunused (place : σ) (w : ν) : refs place ≠ some (newKey, w) := fun hplace =>
    hnew (KeyMap.mem_of_lookup (h.owned place newKey w hplace))
  constructor
  · intro place k w hplace
    obtain ⟨⟨k', w'⟩, hold, hrenamed⟩ := Option.map_eq_some_iff.mp hplace
    have howned := h.owned place k' w' hold
    unfold renamed at hrenamed
    split at hrenamed
    · rename_i hkey
      cases hrenamed
      change k' = key at hkey
      rw [hkey, hv] at howned
      rw [KeyMap.lookup_rekey_self hv hnew, howned]
    · rename_i hkey
      cases hrenamed
      have hne : k ≠ newKey := by grind
      rw [KeyMap.lookup_rekey_ne hv hkey hne, howned]
  · intro place place' k w w' hplace hplace'
    obtain ⟨⟨k₁, w₁⟩, hold, hrenamed⟩ := Option.map_eq_some_iff.mp hplace
    obtain ⟨⟨k₂, w₂⟩, hold', hrenamed'⟩ := Option.map_eq_some_iff.mp hplace'
    have hkeys : k₁ = k₂ := by grind [renamed]
    rw [hkeys] at hold
    exact h.single place place' k₂ w₁ w₂ hold hold'

end Owned

end Cloudpilot.Library
