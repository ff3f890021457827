import Mathlib.Data.List.Nodup
import Mathlib.Data.List.Pairwise
import Mathlib.Tactic

/-! # Singly linked queues kept in an array of links

A position is either the anchor before the first element (`none`) or the cell of
an element (`some x`). A link is the next element, or `none` at the end. Cells of
elements outside the queue hold arbitrary links. The lemmas describe a queue by
the list it spells and say which cells an update may touch.
-/
namespace Cloudpilot.Library.LinkedQueue

open List

variable {ι : Type*}

/-- The links from position `p` run through the elements of the list and then continue at `q`. -/
def Segment (links : Option ι → Option ι) : Option ι → List ι → Option ι → Prop
  | p, [], q => links p = q
  | p, x :: xs, q => links p = some x ∧ Segment links (some x) xs q

/-- The links from position `p` spell the list and end. -/
def Spells (links : Option ι → Option ι) (p : Option ι) (xs : List ι) : Prop :=
  Segment links p xs none

def LeadsTo (links : Option ι → Option ι) : Option ι → List ι → Prop
  | none, xs => xs = []
  | some x, xs => ∃ ys, xs = x :: ys ∧ Spells links (some x) ys

variable {links : Option ι → Option ι}

theorem spells_iff_leadsTo {p : Option ι} {xs : List ι} :
    Spells links p xs ↔ LeadsTo links (links p) xs := by
  cases xs with
  | nil =>
    cases h : links p with
    | none => simp [Spells, Segment, LeadsTo, h]
    | some x => simp [Spells, Segment, LeadsTo, h]
  | cons y ys =>
    cases h : links p with
    | none => simp [Spells, Segment, LeadsTo, h]
    | some x =>
      simp only [Spells, Segment, LeadsTo, h, Option.some.injEq, List.cons.injEq]
      constructor <;> grind

theorem segment_append {p q : Option ι} {xs ys : List ι} {x : ι} :
    Segment links p (xs ++ x :: ys) q ↔
      Segment links p xs (some x) ∧ Segment links (some x) ys q := by
  induction xs generalizing p with
  | nil => rfl
  | cons y xs ih => simp only [cons_append, Segment, ih, and_assoc]

theorem segment_congr {links' : Option ι → Option ι} {p q : Option ι} {xs : List ι}
    (hp : links' p = links p) (hxs : ∀ x ∈ xs, links' (some x) = links (some x)) :
    Segment links' p xs q ↔ Segment links p xs q := by
  induction xs generalizing p with
  | nil => simp only [Segment, hp]
  | cons x xs ih =>
    simp only [Segment, hp]
    rw [ih (hxs x (by simp)) fun y hy => hxs y (by simp [hy])]

theorem leadsTo_congr {links' : Option ι → Option ι} {q : Option ι} {xs : List ι}
    (hxs : ∀ x ∈ xs, links' (some x) = links (some x)) :
    LeadsTo links' q xs ↔ LeadsTo links q xs := by
  cases q with
  | none => rfl
  | some x =>
    refine exists_congr fun ys => and_congr_right fun h => ?_
    subst h
    exact segment_congr (hxs x (by simp)) fun y hy => hxs y (by simp [hy])

theorem spells_unique {p : Option ι} {xs ys : List ι} (hx : Spells links p xs)
    (hy : Spells links p ys) : xs = ys := by
  induction xs generalizing p ys with
  | nil =>
    cases ys with
    | nil => rfl
    | cons y ys => simp_all [Spells, Segment]
  | cons x xs ih =>
    cases ys with
    | nil => simp_all [Spells, Segment]
    | cons y ys =>
      obtain ⟨hlx, hx⟩ := hx
      obtain ⟨hly, hy⟩ := hy
      obtain rfl : x = y := Option.some.inj (hlx.symm.trans hly)
      rw [ih hx hy]

theorem mem_of_link {p : Option ι} {xs : List ι} {x : ι} (h : Spells links p xs)
    (hx : links p = some x) : x ∈ xs := by
  rw [spells_iff_leadsTo, hx] at h
  obtain ⟨ys, rfl, -⟩ := h
  exact mem_cons_self

/-- A queue that ends visits no element twice: from a repeated element the links
would spell two lists of different length. -/
theorem spells_nodup {p : Option ι} {xs : List ι} (h : Spells links p xs) : xs.Nodup := by
  induction xs generalizing p with
  | nil => exact nodup_nil
  | cons x xs ih =>
    refine nodup_cons.mpr ⟨fun hmem => ?_, ih h.2⟩
    obtain ⟨ys, zs, rfl⟩ := append_of_mem hmem
    have hz : Spells links (some x) zs := (segment_append.mp h.2).2
    have hlen := congrArg List.length (spells_unique h.2 hz)
    simp at hlen
    omega

theorem spells_split {p : Option ι} {xs : List ι} {t : ι} (h : Spells links p xs) (ht : t ∈ xs) :
    ∃ ys zs, xs = ys ++ t :: zs ∧ t ∉ ys ∧ t ∉ zs ∧ Segment links p ys (some t) ∧
      LeadsTo links (links (some t)) zs := by
  obtain ⟨ys, zs, rfl⟩ := append_of_mem ht
  have hn := spells_nodup h
  rw [nodup_middle, nodup_cons, mem_append, not_or] at hn
  obtain ⟨hseg, hrest⟩ := segment_append.mp h
  exact ⟨ys, zs, rfl, hn.1.1, hn.1.2, hseg, spells_iff_leadsTo.mp hrest⟩

/-- Rank-ordered insertion behind all elements of equal rank. -/
def insertByRank {α : Type*} [LinearOrder α] (rank : ι → α) (t : ι) : List ι → List ι
  | [] => [t]
  | x :: xs => if rank t < rank x then t :: x :: xs else x :: insertByRank rank t xs

section Rank
variable {α : Type*} [LinearOrder α] (rank : ι → α) (t : ι)

theorem mem_insertByRank {x : ι} {xs : List ι} :
    x ∈ insertByRank rank t xs ↔ x = t ∨ x ∈ xs := by
  induction xs with
  | nil => simp [insertByRank]
  | cons y ys ih => grind [insertByRank]

theorem pairwise_insertByRank {xs : List ι} (h : xs.Pairwise fun a b => rank a ≤ rank b) :
    (insertByRank rank t xs).Pairwise fun a b => rank a ≤ rank b := by
  induction xs with
  | nil => simp [insertByRank]
  | cons y ys ih =>
    rw [pairwise_cons] at h
    rw [insertByRank]
    split
    · rename_i hlt
      refine pairwise_cons.mpr ⟨fun b hb => ?_, pairwise_cons.mpr h⟩
      rcases mem_cons.mp hb with rfl | hb
      · exact hlt.le
      · grind
    · rename_i hle
      refine pairwise_cons.mpr ⟨fun b hb => ?_, ih h.2⟩
      rcases (mem_insertByRank rank t).mp hb with rfl | hb
      · grind
      · exact h.1 b hb

end Rank

end Cloudpilot.Library.LinkedQueue
