import Mathlib.Tactic

/-! # Extents

Intervals that lie one after the other in a window, and searches that try the last result
first.
-/
namespace Cloudpilot.Library

section Laid

variable {α : Type*} {start finish : α → ℕ} {lo lo' hi : ℕ} {l l' : List α} {r : α}

/-- The intervals lie between two bounds, in the order of the list. -/
def Laid (start finish : α → ℕ) (lo hi : ℕ) : List α → Prop
  | [] => lo ≤ hi
  | r :: l => lo ≤ start r ∧ start r ≤ finish r ∧ Laid start finish (finish r) hi l

section

variable (h : Laid start finish lo hi l)

include h

theorem Laid.le : lo ≤ hi := by
  induction l generalizing lo with
  | nil => exact h
  | cons r l ih => exact h.1.trans (h.2.1.trans (ih h.2.2))

theorem Laid.mono (hle : lo' ≤ lo) : Laid start finish lo' hi l := by
  cases l with
  | nil => exact hle.trans h
  | cons r l => exact ⟨hle.trans h.1, h.2⟩

theorem Laid.inside (hr : r ∈ l) : lo ≤ start r ∧ start r ≤ finish r ∧ finish r ≤ hi := by
  induction l generalizing lo with
  | nil => cases hr
  | cons head l ih =>
    obtain ⟨hstart, hle, hrest⟩ := h
    cases hr with
    | head => exact ⟨hstart, hle, hrest.le⟩
    | tail _ hr =>
      have hinside := ih hrest hr
      exact ⟨hstart.trans (hle.trans hinside.1), hinside.2⟩

theorem Laid.pairwise : l.Pairwise fun a b => finish a ≤ start b := by
  induction l generalizing lo with
  | nil => exact List.Pairwise.nil
  | cons head l ih =>
    apply List.Pairwise.cons
    · intro r hr
      exact (h.2.2.inside hr).1
    · exact ih h.2.2

end

theorem Laid.of_pairwise (hle : lo ≤ hi)
    (hinside : ∀ r ∈ l, lo ≤ start r ∧ start r ≤ finish r ∧ finish r ≤ hi)
    (h : l.Pairwise fun a b => finish a ≤ start b) : Laid start finish lo hi l := by
  induction l generalizing lo with
  | nil => exact hle
  | cons head l ih =>
    obtain ⟨hhead, hrest⟩ := List.pairwise_cons.mp h
    obtain ⟨hstart, hextent, hfinish⟩ := hinside head List.mem_cons_self
    refine ⟨hstart, hextent, ih hfinish (fun r hr => ⟨hhead r hr, ?_⟩) hrest⟩
    exact (hinside r (List.mem_cons_of_mem head hr)).2

theorem Laid.sublist (h : Laid start finish lo hi l) (hsub : l'.Sublist l) :
    Laid start finish lo hi l' := by
  induction hsub generalizing lo with
  | slnil => exact h
  | cons r hsub ih => exact ih (h.2.2.mono (h.1.trans h.2.1))
  | cons_cons r hsub ih => exact ⟨h.1, h.2.1, ih h.2.2⟩

end Laid

section Search

variable {α : Type*} {c : α → Bool} {l : List α} {i last : ℕ} {r : α}

/-- The first index with a property, after the index of the last search has been tried. -/
def search (c : α → Bool) (l : List α) (last : ℕ) : ℕ :=
  if l[last]?.any c then last else l.findIdx c

/-- At most one element has the property. -/
def Unambiguous (c : α → Bool) (l : List α) : Prop := l.Pairwise fun a b => ¬ (c a = true ∧ c b = true)

theorem findIdx_of_unambiguous (h : Unambiguous c l) (hr : l[i]? = some r) (hc : c r = true) :
    l.findIdx c = i := by
  obtain ⟨hi, rfl⟩ := List.getElem?_eq_some_iff.mp hr
  rw [List.findIdx_eq hi]
  refine ⟨hc, fun j hj => ?_⟩
  have happart := List.pairwise_iff_getElem.mp h j i (hj.trans hi) hi hj
  rw [not_and] at happart
  exact Bool.eq_false_iff.mpr fun hcj => happart hcj hc

theorem search_eq (h : Unambiguous c l) (last : ℕ) : search c l last = l.findIdx c := by
  unfold search
  split
  · rename_i hany
    cases hlast : l[last]? with
    | none => grind
    | some r =>
      rw [hlast] at hany
      exact (findIdx_of_unambiguous h hlast hany).symm
  · rfl

theorem getElem?_findIdx_eq_some (h : Unambiguous c l) :
    l[l.findIdx c]? = some r ↔ r ∈ l ∧ c r = true := by
  constructor
  · grind
  · rintro ⟨hr, hc⟩
    obtain ⟨i, hi⟩ := List.mem_iff_getElem?.mp hr
    rw [findIdx_of_unambiguous h hi hc, hi]

end Search

end Cloudpilot.Library
