import Mathlib.Order.Basic
import Mathlib.Tactic

/-! # Object stores

Records under keys, as a database keeps them: in the order of their keys, and at most one
for a key.
-/
namespace Cloudpilot.Library

open List

structure ObjectStore (κ ν : Type) [LinearOrder κ] where
  records : List (κ × ν)
  sorted : (records.map Prod.fst).Pairwise (· < ·)

namespace ObjectStore

variable {κ ν : Type} [LinearOrder κ] {s : ObjectStore κ ν} {k k' lower upper : κ} {v v' : ν}

def insert (k : κ) (v : ν) : List (κ × ν) → List (κ × ν)
  | [] => [(k, v)]
  | r :: rs =>
    if k < r.1 then (k, v) :: r :: rs
    else if k = r.1 then (k, v) :: rs
    else r :: insert k v rs

theorem mem_insert {r : κ × ν} {rs : List (κ × ν)} (h : (rs.map Prod.fst).Pairwise (· < ·)) :
    r ∈ insert k v rs ↔ r = (k, v) ∨ r ∈ rs ∧ r.1 ≠ k := by
  induction rs with
  | nil => simp [insert]
  | cons r' rs ih =>
    rw [map_cons, pairwise_cons] at h
    have hbehind : ∀ r ∈ rs, r'.1 < r.1 := fun r hr => h.1 r.1 (mem_map_of_mem hr)
    rw [insert]
    split_ifs with hlt heq <;> grind

theorem insert_sorted {rs : List (κ × ν)} (h : (rs.map Prod.fst).Pairwise (· < ·)) (k : κ) (v : ν) :
    ((insert k v rs).map Prod.fst).Pairwise (· < ·) := by
  induction rs with
  | nil => exact pairwise_singleton _ _
  | cons r rs ih =>
    have hsorted := h
    rw [map_cons, pairwise_cons] at h
    rw [insert]
    split_ifs with hlt heq
    · grind
    · grind
    · rw [map_cons, pairwise_cons]
      refine ⟨?_, ih h.2⟩
      intro k' hk'
      obtain ⟨r', hr', rfl⟩ := mem_map.mp hk'
      rcases (mem_insert h.2).mp hr' with rfl | ⟨hr', -⟩ <;> grind

def empty : ObjectStore κ ν := ⟨[], List.Pairwise.nil⟩

def get (s : ObjectStore κ ν) (k : κ) : Option ν := (s.records.find? fun r => r.1 = k).map Prod.snd

def put (s : ObjectStore κ ν) (v : ν) (k : κ) : ObjectStore κ ν :=
  ⟨insert k v s.records, insert_sorted s.sorted k v⟩

/-- Some of the records. -/
def filter (s : ObjectStore κ ν) (p : κ → Bool) : ObjectStore κ ν :=
  ⟨s.records.filter fun r => p r.1, s.sorted.sublist (List.filter_sublist.map _)⟩

def delete (s : ObjectStore κ ν) (k : κ) : ObjectStore κ ν := s.filter (· ≠ k)

def range (s : ObjectStore κ ν) (lower upper : κ) : ObjectStore κ ν :=
  s.filter fun k => lower ≤ k ∧ k < upper

def deleteRange (s : ObjectStore κ ν) (lower upper : κ) : ObjectStore κ ν :=
  s.filter fun k => ¬ (lower ≤ k ∧ k < upper)

theorem nodup (s : ObjectStore κ ν) : (s.records.map Prod.fst).Nodup := s.sorted.imp ne_of_lt

theorem get_eq_some : s.get k = some v ↔ (k, v) ∈ s.records := by
  constructor
  · intro h
    obtain ⟨⟨k', v'⟩, hfind, rfl⟩ := Option.map_eq_some_iff.mp h
    have hkey : k' = k := by simpa using List.find?_some hfind
    subst hkey
    exact mem_of_find?_eq_some hfind
  · intro hmem
    rw [get]
    cases hfind : s.records.find? fun r => r.1 = k with
    | none => simpa using List.find?_eq_none.mp hfind (k, v) hmem
    | some r =>
      have hkey : r.1 = k := by simpa using List.find?_some hfind
      have hsame := inj_on_of_nodup_map s.nodup (mem_of_find?_eq_some hfind) hmem hkey
      rw [hsame]
      rfl

theorem get_ext {s' : ObjectStore κ ν} (h : ∀ r, r ∈ s.records ∧ r.1 = k ↔ r ∈ s'.records ∧ r.1 = k) :
    s.get k = s'.get k := by
  apply Option.ext
  intro v
  rw [get_eq_some, get_eq_some]
  have hr := h (k, v)
  simpa using hr

@[simp] theorem get_put_self (s : ObjectStore κ ν) (v : ν) (k : κ) : (s.put v k).get k = some v :=
  get_eq_some.mpr ((mem_insert s.sorted).mpr (.inl rfl))

theorem get_put_of_ne (s : ObjectStore κ ν) (v : ν) (h : k' ≠ k) : (s.put v k).get k' = s.get k' := by
  apply get_ext
  intro r
  have hr := mem_insert (r := r) (k := k) (v := v) s.sorted
  change r ∈ insert k v s.records ∧ r.1 = k' ↔ _
  grind

theorem get_put (s : ObjectStore κ ν) (v : ν) (k k' : κ) :
    (s.put v k).get k' = if k' = k then some v else s.get k' := by
  split_ifs with h
  · simp [h]
  · exact get_put_of_ne s v h

theorem get_filter (s : ObjectStore κ ν) (p : κ → Bool) (k : κ) :
    (s.filter p).get k = if p k then s.get k else none := by
  apply Option.ext
  intro v
  rw [get_eq_some, filter, mem_filter]
  split_ifs with h
  · grind [get_eq_some]
  · simp [h]

theorem get_deleteRange (s : ObjectStore κ ν) :
    (s.deleteRange lower upper).get k = if lower ≤ k ∧ k < upper then none else s.get k := by
  rw [deleteRange, get_filter]
  split_ifs with h h' h' <;> simp_all

theorem mem_range : (k, v) ∈ (s.range lower upper).records ↔
    s.get k = some v ∧ lower ≤ k ∧ k < upper := by
  rw [get_eq_some, range, filter, mem_filter, decide_eq_true_eq]

end ObjectStore

end Cloudpilot.Library
