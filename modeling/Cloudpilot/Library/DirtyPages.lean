import Cloudpilot.Library.Runs
import Cloudpilot.Library.Words

/-! # Dirty pages

A bitmap with one bit for a page, eight pages for a byte, and the loop that visits the marked
pages of one byte. Above it the purpose of such a bitmap: a page of which the stored contents
differ from the current ones is marked.
-/
namespace Cloudpilot.Library

namespace Bitmap

variable {bitmap bitmap' : ℕ → BitVec 8} {page i k : ℕ}

def marked (bitmap : ℕ → BitVec 8) (page : ℕ) : Prop :=
  (bitmap (page / 8)).getLsbD (page % 8) = true

instance (bitmap : ℕ → BitVec 8) : DecidablePred (marked bitmap) :=
  fun _ => inferInstanceAs (Decidable (_ = true))

def mark (bitmap : ℕ → BitVec 8) (page : ℕ) : ℕ → BitVec 8 :=
  Function.update bitmap (page / 8) (bitmap (page / 8) ||| 1#8 <<< (page % 8))

def clear : ℕ → BitVec 8 := fun _ => 0#8

theorem not_marked_clear (page : ℕ) : ¬ marked clear page := by
  simp [marked, clear]

theorem marked_mark_self (bitmap : ℕ → BitVec 8) (page : ℕ) : marked (mark bitmap page) page := by
  have hk : page % 8 < 8 := Nat.mod_lt _ (by decide)
  rw [marked, mark, Function.update_self, BitVec.getLsbD_or, BitTest.getLsbD_bit hk]
  simp

theorem marked_mark_of_marked (h : marked bitmap i) (page : ℕ) : marked (mark bitmap page) i := by
  by_cases hi : i / 8 = page / 8
  · rw [marked, mark, hi, Function.update_self, BitVec.getLsbD_or, ← hi, show
      (bitmap (i / 8)).getLsbD (i % 8) = true from h, Bool.true_or]
  · rwa [marked, mark, Function.update_of_ne hi]

theorem marked_mark : marked (mark bitmap page) i ↔ marked bitmap i ∨ i = page := by
  constructor
  · intro h
    rcases eq_or_ne i page with heq | hne
    · exact .inr heq
    left
    by_cases hbyte : i / 8 = page / 8
    · have hbit : i % 8 ≠ page % 8 := by omega
      rw [marked, mark, hbyte, Function.update_self, BitVec.getLsbD_or,
        BitTest.getLsbD_bit (Nat.mod_lt _ (by decide)), decide_eq_false hbit, Bool.or_false] at h
      rwa [marked, hbyte]
    · rwa [marked, mark, Function.update_of_ne hbyte] at h
  · rintro (h | rfl)
    · exact marked_mark_of_marked h page
    · exact marked_mark_self bitmap i

theorem marked_or {a b : ℕ → BitVec 8} :
    marked (fun i => a i ||| b i) page ↔ marked a page ∨ marked b page := by
  rw [marked, BitVec.getLsbD_or, Bool.or_eq_true]
  rfl

theorem mask_ne_zero (bitmap : ℕ → BitVec 8) (hk : k < 8) :
    bitmap i &&& (1#8 <<< k) ≠ 0 ↔ marked bitmap (8 * i + k) := by
  have hbyte : (8 * i + k) / 8 = i := by omega
  have hbit : (8 * i + k) % 8 = k := by omega
  rw [BitTest.and_bit_ne_zero hk, marked, hbyte, hbit]

end Bitmap

section Visit

variable {σ ε : Type*}

/-- One mask: nothing behind the last page, and a visit if the bit is set. -/
def visitMask (total : ℕ) (byte : BitVec 8) (visit : σ → ℕ → Except ε σ) (s : ℕ × σ) (k : ℕ) :
    Except ε (ℕ × σ) :=
  if s.1 ≥ total then .ok s
  else if byte &&& (1#8 <<< k) ≠ 0 then do
    let s' ← visit s.2 s.1
    .ok (s.1 + 1, s')
  else .ok (s.1 + 1, s.2)

def visitByte (total : ℕ) (byte : BitVec 8) (visit : σ → ℕ → Except ε σ) (s : ℕ × σ) :
    Except ε (ℕ × σ) :=
  (List.range 8).foldlM (visitMask total byte visit) s

def ReachedPage (total p iPage : ℕ) : Prop := iPage ≤ p ∧ min p total ≤ iPage

theorem ReachedPage.eq {total p iPage : ℕ} (h : ReachedPage total p iPage) (hlt : iPage < total) :
    iPage = p := by
  have hle := h.1
  have hge := h.2
  omega

theorem visitByte_ensures {total i : ℕ} {bitmap : ℕ → BitVec 8} {visit : σ → ℕ → Except ε σ}
    {s : ℕ × σ} {I : ℕ → σ → Prop} {E : ε → Prop} (hpage : ReachedPage total (8 * i) s.1)
    (h : I (8 * i) s.2)
    (hskip : ∀ p s, ¬ (p < total ∧ Bitmap.marked bitmap p) → I p s → I (p + 1) s)
    (hvisit : ∀ p s, p < total → p / 8 = i → Bitmap.marked bitmap p → I p s →
      Ensures (visit s p) (I (p + 1)) E) :
    Ensures (visitByte total (bitmap i) visit s)
      (fun s' => ReachedPage total (8 * (i + 1)) s'.1 ∧ I (8 * (i + 1)) s'.2) E := by
  apply Ensures.foldlM_range
    (I := fun k (s : ℕ × σ) => ReachedPage total (8 * i + k) s.1 ∧ I (8 * i + k) s.2) ⟨hpage, h⟩
  rintro k hk ⟨iPage, s⟩ ⟨hreached, hs⟩
  have hle : iPage ≤ 8 * i + k := hreached.1
  rw [visitMask]
  split_ifs with hend hbit
  · refine ⟨⟨show iPage ≤ _ by omega, show min _ _ ≤ iPage by dsimp only at hend; omega⟩, ?_⟩
    exact hskip (8 * i + k) s (fun hlt => absurd hlt.1 (by dsimp only at hend; omega)) hs
  · have heq : iPage = 8 * i + k := hreached.eq (not_le.mp hend)
    subst heq
    apply (hvisit (8 * i + k) s (not_le.mp hend) (by omega) ((Bitmap.mask_ne_zero bitmap hk).mp hbit) hs).bind
    intro s' hs'
    exact ⟨⟨le_rfl, min_le_left _ _⟩, hs'⟩
  · have heq : iPage = 8 * i + k := hreached.eq (not_le.mp hend)
    subst heq
    refine ⟨⟨le_rfl, min_le_left _ _⟩, hskip _ s ?_ hs⟩
    rintro ⟨-, hmarked⟩
    exact hbit ((Bitmap.mask_ne_zero bitmap hk).mpr hmarked)

theorem visitByte_zero {total i : ℕ} {bitmap : ℕ → BitVec 8} {s : ℕ × σ} {I : ℕ → σ → Prop}
    (hpage : ReachedPage total (8 * i) s.1) (h : I (8 * i) s.2) (hzero : bitmap i = 0#8)
    (hskip : ∀ p s, ¬ (p < total ∧ Bitmap.marked bitmap p) → I p s → I (p + 1) s) :
    ReachedPage total (8 * (i + 1)) (s.1 + 8) ∧ I (8 * (i + 1)) s.2 := by
  have hle := hpage.1
  have hge := hpage.2
  refine ⟨⟨by omega, by omega⟩, ?_⟩
  have hall : ∀ k ≤ 8, I (8 * i + k) s.2 := by
    intro k hk
    induction k with
    | zero => exact h
    | succ k ih =>
      apply hskip _ _ _ (ih (by omega))
      rintro ⟨-, hmarked⟩
      apply (Bitmap.mask_ne_zero bitmap (by omega)).mpr hmarked
      rw [hzero]
      exact BitVec.zero_and
  exact hall 8 le_rfl

end Visit

section Covered

variable {ι π : Type*} {stored stored' current current' : ι → π} {marks marks' : ι → Prop}

def Covered (stored current : ι → π) (marks : ι → Prop) : Prop :=
  ∀ i, stored i ≠ current i → marks i

theorem covered_self (current : ι → π) (marks : ι → Prop) : Covered current current marks :=
  fun _ h => absurd rfl h

theorem Covered.mono (h : Covered stored current marks) (hmarks : ∀ i, marks i → marks' i) :
    Covered stored current marks' :=
  fun i hi => hmarks i (h i hi)

theorem Covered.write (h : Covered stored current marks) (hmarks : ∀ i, marks i → marks' i)
    (hwrite : ∀ i, current' i ≠ current i → marks' i) : Covered stored current' marks' := by
  intro i hi
  by_cases hsame : current' i = current i
  · apply hmarks i (h i _)
    rwa [← hsame]
  · grind

end Covered

end Cloudpilot.Library
