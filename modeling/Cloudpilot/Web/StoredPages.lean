import Cloudpilot.Web.PageStore

/-! # Pages of memory and of cards

The two formats, and what their compression does: a page that is put into a store is the
page that is read from it, whether it is stored as a number or not.
-/
namespace Cloudpilot.Web
open Library Library.TypedArray Library.LittleEndian Library.PagedArray List

section Views

variable {a page : List Word} {n i : ℕ}

theorem length_view (n i : ℕ) (a : List Word) :
    (subarray a (i * n : ℕ) ((i + 1) * n : ℕ)).length = min n (a.length - i * n) := by
  rw [subarray_page, length_page]

theorem setView_page (h : i * n < a.length) (hpage : page.length = min n (a.length - i * n)) :
    setView a (i * n : ℕ) ((i + 1) * n : ℕ) page = some (overwrite a (i * n) page) := by
  rw [setView, length_view, if_neg (by omega), relative_natCast, Nat.min_eq_left h.le]

theorem fillView_page (h : i * n < a.length) (v : Word) :
    fillView a (i * n : ℕ) ((i + 1) * n : ℕ) v =
      overwrite a (i * n) (List.replicate (min n (a.length - i * n)) v) := by
  rw [fillView, length_view, relative_natCast, Nat.min_eq_left h.le]

end Views

/-- A byte four times. -/
def spread (value : Word) : Word := value ||| value <<< 8 ||| value <<< 16 ||| value <<< 24

def decodeMemory (length : ℕ) : StoredPage → List Word
  | .number value => List.replicate length (spread value)
  | .words page => page
  | .bytes page => if page.length = 1024 then wordsOf page else page.map (BitVec.setWidth 32)
  | .undefined => []

def memoryFormat : PageFormat where
  size := 256
  decode := decodeMemory
  Fits length v := v ≠ .undefined ∧ (decodeMemory length v).length = length
  load := loadMemoryPage
  pos := by decide
  decode_length h := h.2
  load_eq := by
    rintro target ⟨i, v⟩ hi ⟨hundefined, hlength⟩
    dsimp only at hi hlength hundefined ⊢
    rw [loadMemoryPage]
    cases v with
    | number value => exact congrArg some (fillView_page hi (spread value))
    | words page => exact setView_page hi hlength
    | bytes page =>
      dsimp only [decodeMemory] at hlength ⊢
      split_ifs at hlength ⊢ with hold
      · exact setView_page hi hlength
      · exact setView_page hi hlength
    | undefined => exact absurd rfl hundefined

def decodeCard (length : ℕ) : StoredPage → List Word
  | .number value => List.replicate length value
  | .words page => page.take length
  | .bytes page => (page.map (BitVec.setWidth 32)).take length
  | .undefined => []

/-- Pages that are not longer than a page, and not shorter than what is read of them. -/
def FitsCard (length : ℕ) : StoredPage → Prop
  | .number _ => True
  | .words page => length ≤ page.length ∧ page.length ≤ 2048
  | .bytes page => length ≤ page.length ∧ page.length ≤ 2048
  | .undefined => False

theorem clipPage_eq {target page : List Word} {i : ℕ} (hi : i * 2048 < target.length)
    (hlower : min 2048 (target.length - i * 2048) ≤ page.length) (hupper : page.length ≤ 2048) :
    clipPage target i page = page.take (min 2048 (target.length - i * 2048)) := by
  rw [clipPage]
  split_ifs with hend
  · have hlast : (2048 - ((i + 1) * 2048 : ℕ) + (target.length : ℤ) : ℤ) =
        ((target.length - i * 2048 : ℕ) : ℤ) := by omega
    have hzero : (0 : ℤ) = ((0 : ℕ) : ℤ) := rfl
    rw [hlast, hzero, subarray_natCast (by omega), drop_zero,
      Nat.min_eq_right (by omega)]
  · grind

def cardFormat : PageFormat where
  size := 2048
  decode := decodeCard
  Fits := FitsCard
  load := loadCardPage
  pos := by decide
  decode_length := by
    intro length v h
    cases v with
    | number value => exact List.length_replicate
    | words page => exact List.length_take_of_le h.1
    | bytes page => exact List.length_take_of_le (by rw [List.length_map]; exact h.1)
    | undefined => exact h.elim
  load_eq := by
    rintro target ⟨i, v⟩ hi h
    dsimp only at hi h ⊢
    rw [loadCardPage]
    cases v with
    | number value => exact congrArg some (fillView_page hi value)
    | words page =>
      dsimp only [decodeCard]
      rw [clipPage_eq hi h.1 h.2]
      exact setView_page hi (List.length_take_of_le h.1)
    | bytes page =>
      dsimp only [decodeCard]
      have hlower : min 2048 (target.length - i * 2048) ≤
          (page.map (BitVec.setWidth 32)).length := by
        rw [List.length_map]
        exact h.1
      have hupper : (page.map (BitVec.setWidth 32)).length ≤ 2048 := by
        rw [List.length_map]
        exact h.2
      rw [clipPage_eq hi hlower hupper]
      exact setView_page hi (List.length_take_of_le hlower)
    | undefined => exact h.elim

theorem eq_spread {value w : Word}
    (h : (w.toNat : ℤ) = ((value ||| value <<< 8) ||| (value ||| value <<< 8) <<< 16).toInt) :
    w = spread value := by
  have hword : w = (value ||| value <<< 8) ||| (value ||| value <<< 8) <<< 16 := by
    apply BitVec.eq_of_toInt_eq
    rw [BitVec.toInt_eq_toNat_cond] at h
    rw [BitVec.toInt_eq_toNat_cond, BitVec.toInt_eq_toNat_cond]
    split_ifs at h ⊢ with hsmall hsmall' hsmall' <;> omega
  rw [hword, spread, BitVec.shiftLeft_or_distrib, ← BitVec.shiftLeft_add, BitVec.or_assoc,
    BitVec.or_assoc, BitVec.or_assoc]

theorem eq_replicate {page : List Word} {n : ℕ} {v : Word} (hlength : page.length = n)
    (h : ∀ i < n, page[i]? = some v) : page = List.replicate n v := by
  apply eq_replicate_iff.mpr
  refine ⟨hlength, ?_⟩
  intro w hw
  obtain ⟨i, hi, rfl⟩ := getElem_of_mem hw
  have hget := h i (by omega)
  rw [getElem?_eq_getElem hi] at hget
  exact Option.some.inj hget

theorem all_eq_true {first last : ℕ} {test : ℕ → Bool} :
    all first last test = true ↔ ∀ i < last, first ≤ i → test i = true := by
  simp only [all, List.all_eq_true, List.mem_range, Bool.or_eq_true, decide_eq_true_eq]
  constructor <;> grind

theorem compressPage_cases (page : List Word) : compressPage page = .words page ∨
    ∃ value, compressPage page = .number value ∧ ∀ i < 256, page[i]? = some (spread value) := by
  rw [compressPage]
  split_ifs with huniform
  · refine .inr ⟨_, rfl, fun i hi => ?_⟩
    have hword := all_eq_true.mp huniform i hi (Nat.zero_le i)
    obtain ⟨w, hget, hw⟩ := Option.map_eq_some_iff.mp (of_decide_eq_true hword)
    rw [hget, eq_spread hw]
  · simp

theorem compressStoragePage_cases {page : List Word} (hpage : page ≠ []) :
    compressStoragePage page = .words page ∨
      ∃ value, compressStoragePage page = .number value ∧ ∀ i < 2048, page[i]? = some value := by
  rw [compressStoragePage]
  split_ifs with huniform
  · obtain ⟨value, rest, rfl⟩ := exists_cons_of_ne_nil hpage
    refine .inr ⟨value, rfl, fun i hi => ?_⟩
    rcases Nat.eq_zero_or_pos i with rfl | hpos
    · rfl
    · exact of_decide_eq_true (all_eq_true.mp huniform i hi hpos)
  · simp

theorem compressStoragePage_replicate (v : Word) :
    compressStoragePage (List.replicate 2048 v) = .number v := by
  have hget : ∀ i < 2048, (replicate 2048 v)[i]? = some v := by grind
  have huniform : (all 1 2048 fun i =>
      (replicate 2048 v)[i]? = (replicate 2048 v)[0]?) = true := by
    apply all_eq_true.mpr
    intro i hi _
    rw [hget i hi, hget 0 (by omega)]
    exact decide_eq_true rfl
  rw [compressStoragePage, if_pos huniform, hget 0 (by omega)]
  rfl

theorem decode_card_number (length : ℕ) (value : Word) :
    cardFormat.decode length (.number value) = List.replicate length value := rfl

theorem compressPage_decode {page : List Word} (hlength : page.length = 256) :
    memoryFormat.Fits 256 (compressPage page) ∧
      memoryFormat.decode 256 (compressPage page) = page := by
  rcases compressPage_cases page with hwords | ⟨value, hnumber, hpage⟩
  · rw [hwords]
    exact ⟨⟨StoredPage.noConfusion, hlength⟩, rfl⟩
  · have hdecode : memoryFormat.decode 256 (.number value) = page := by
      exact (eq_replicate hlength hpage).symm
    rw [hnumber]
    exact ⟨⟨StoredPage.noConfusion, (congrArg List.length hdecode).trans hlength⟩, hdecode⟩

theorem compressStoragePage_decode {page : List Word} (hlength : page.length = 2048) {length : ℕ}
    (h : length ≤ 2048) :
    cardFormat.Fits length (compressStoragePage page) ∧
      cardFormat.decode length (compressStoragePage page) = page.take length := by
  have hne : page ≠ [] := by grind
  rcases compressStoragePage_cases hne with hwords | ⟨value, hnumber, hpage⟩
  · rw [hwords]
    exact ⟨⟨h.trans_eq hlength.symm, hlength.le⟩, rfl⟩
  · rw [hnumber, decode_card_number, eq_replicate hlength hpage, take_replicate,
      Nat.min_eq_left h]
    exact ⟨trivial, rfl⟩

end Cloudpilot.Web
