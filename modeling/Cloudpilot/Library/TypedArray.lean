import Mathlib.Tactic

/-! # Typed arrays

Arrays of a fixed length as JavaScript has them. Reads outside of the array are
undefined, writes there have no effect, and the ends of a view count from the back of the
array where they are negative.
-/

namespace Cloudpilot.Library.TypedArray

open List

variable {α : Type} {a b source : List α} {first last i j : ℕ} {v : α}

def get (a : List α) (i : ℤ) : Option α := if i < 0 then none else a[i.toNat]?

/-- The position that an end of a view names. -/
def relative (length : ℕ) (i : ℤ) : ℕ :=
  if i < 0 then (length + i).toNat else min i.toNat length

/-- `a.subarray(first, last)`, as the values that it shows. -/
def subarray (a : List α) (first last : ℤ) : List α :=
  (a.take (relative a.length last)).drop (relative a.length first)

/-- Overwrite the values from `i` on. -/
def overwrite (a : List α) (i : ℕ) (source : List α) : List α :=
  a.take i ++ source ++ a.drop (i + source.length)

/-- `a.subarray(first, last).set(source)`, a range error where the view is too short. -/
def setView (a : List α) (first last : ℤ) (source : List α) : Option (List α) :=
  if (subarray a first last).length < source.length then none
  else some (overwrite a (relative a.length first) source)

/-- `a.subarray(first, last).fill(v)`. -/
def fillView (a : List α) (first last : ℤ) (v : α) : List α :=
  overwrite a (relative a.length first) (List.replicate (subarray a first last).length v)

@[simp] theorem get_natCast (a : List α) (i : ℕ) : get a i = a[i]? := by
  simp [get]

theorem relative_natCast (length i : ℕ) : relative length i = min i length := by
  simp [relative]

theorem subarray_natCast (h : last ≤ a.length) :
    subarray a first last = (a.take last).drop first := by
  rw [subarray, relative_natCast, relative_natCast, Nat.min_eq_left h]
  by_cases hf : first ≤ a.length
  · grind
  · rw [Nat.min_eq_right (by omega), drop_eq_nil_of_le (by simp),
      drop_eq_nil_of_le (by simp; omega)]

theorem subarray_append (front part back : List α) :
    subarray (front ++ (part ++ back)) front.length (front.length + part.length) = part := by
  have hlast : ((front.length : ℤ) + part.length) = ((front.length + part.length : ℕ) : ℤ) := by simp
  rw [hlast, subarray_natCast (by simp)]
  simp [take_append]

theorem length_overwrite (h : i + source.length ≤ a.length) :
    (overwrite a i source).length = a.length := by
  simp [overwrite]
  omega

@[simp] theorem overwrite_nil (a : List α) (i : ℕ) : overwrite a i [] = a := by
  simp [overwrite]

theorem take_overwrite (h : i ≤ a.length) :
    (overwrite a i source).take (i + source.length) = a.take i ++ source := by
  rw [overwrite, take_append_of_le_length (by simp [h]), take_of_length_le]
  simp [h]

theorem length_subarray (h : last ≤ a.length) :
    (subarray a first last).length = last - first := by
  rw [subarray_natCast h]
  simp [h]

theorem setView_natCast (h : i + source.length ≤ a.length) :
    setView a i (i + source.length) source = some (overwrite a i source) := by
  have hlast : ((i : ℤ) + source.length) = ((i + source.length : ℕ) : ℤ) := by simp
  rw [hlast, setView, length_subarray h, if_neg (by omega), relative_natCast,
    Nat.min_eq_left (by omega)]

theorem fillView_natCast (h : i + j ≤ a.length) :
    fillView a i (i + j) v = overwrite a i (List.replicate j v) := by
  have hlast : ((i : ℤ) + j) = ((i + j : ℕ) : ℤ) := by simp
  rw [hlast, fillView, length_subarray h, relative_natCast,
    Nat.min_eq_left (by omega), Nat.add_sub_cancel_left]

theorem getElem?_overwrite_of_disjoint (h : i + source.length ≤ a.length)
    (hout : j < i ∨ i + source.length ≤ j) : (overwrite a i source)[j]? = a[j]? := by
  rcases hout with hbefore | hbehind
  · grind [overwrite, append_assoc]
  · have hwritten : (a.take i ++ source).length = i + source.length := by grind
    rw [overwrite, getElem?_append_right (by omega), hwritten, getElem?_drop]
    congr 1
    omega

theorem take_drop_append (front part back : List α) :
    ((front ++ (part ++ back)).drop front.length).take part.length = part := by
  simp

theorem take_set (h : i < a.length) : (a.set i v).take (i + 1) = a.take i ++ [v] := by
  rw [take_add_one, take_set_of_le le_rfl, getElem?_set_self h]
  rfl

end Cloudpilot.Library.TypedArray

namespace Cloudpilot.Library.PagedArray

open TypedArray

variable {α : Type} {n i j w : ℕ} {a b source : List α} {v : α}

def page (n i : ℕ) (a : List α) : List α := (a.drop (i * n)).take n

theorem subarray_page (n i : ℕ) (a : List α) :
    subarray a (i * n : ℕ) ((i + 1) * n : ℕ) = page n i a := by
  rw [subarray, relative_natCast, relative_natCast, page]
  apply List.ext_getElem?
  intro j
  simp only [List.getElem?_drop, List.getElem?_take, Nat.add_mul, Nat.one_mul]
  split_ifs with h h' h' <;> grind

theorem getElem?_page (n i : ℕ) (a : List α) (j : ℕ) :
    (page n i a)[j]? = if j < n then a[i * n + j]? else none := by
  rw [page, List.getElem?_take, List.getElem?_drop]

theorem length_page (n i : ℕ) (a : List α) : (page n i a).length = min n (a.length - i * n) := by
  rw [page, List.length_take, List.length_drop]

theorem page_of_length_le (h : a.length ≤ i * n) : page n i a = [] := by
  rw [page, List.drop_eq_nil_of_le h, List.take_nil]

theorem page_replicate (n i length : ℕ) (v : α) :
    page n i (List.replicate length v) = List.replicate (min n (length - i * n)) v := by
  rw [page, List.drop_replicate, List.take_replicate]

theorem ext_page (hn : 0 < n) (h : ∀ i, page n i a = page n i b) : a = b := by
  apply List.ext_getElem?
  intro k
  have hpage := congrArg (fun p => p[k % n]?) (h (k / n))
  have hk : k / n * n + k % n = k := Nat.div_add_mod' k n
  simpa only [getElem?_page, Nat.mod_lt k hn, if_true, hk] using hpage

theorem page_overwrite (hle : i * n ≤ a.length) (hlength : source.length = (page n i a).length)
    (j : ℕ) : page n j (overwrite a (i * n) source) = if j = i then source else page n j a := by
  rw [length_page] at hlength
  have hbound : i * n + source.length ≤ a.length := by omega
  have hfront : (a.take (i * n)).length = i * n := by grind
  apply List.ext_getElem?
  intro k
  rw [getElem?_page]
  by_cases hji : j = i
  · subst hji
    rw [if_pos rfl]
    by_cases hk : k < source.length
    · rw [if_pos (by omega), overwrite, List.append_assoc, List.getElem?_append_right (by omega),
        hfront, Nat.add_sub_cancel_left, List.getElem?_append_left hk]
    · rw [List.getElem?_eq_none (not_lt.mp hk)]
      split_ifs with hkn
      · rw [List.getElem?_eq_none]
        rw [length_overwrite hbound]
        omega
      · rfl
  · rw [if_neg hji, getElem?_page]
    split_ifs with hkn
    · apply getElem?_overwrite_of_disjoint hbound
      rcases Nat.lt_or_gt_of_ne hji with hlt | hgt
      · left
        have hmul := Nat.mul_le_mul_right n (Nat.succ_le_of_lt hlt)
        rw [Nat.succ_mul] at hmul
        omega
      · right
        have hmul := Nat.mul_le_mul_right n (Nat.succ_le_of_lt hgt)
        rw [Nat.succ_mul] at hmul
        omega
    · rfl

theorem page_set_of_ne (h : j ≠ w / n) : page n j (a.set w v) = page n j a := by
  apply List.ext_getElem?
  intro k
  rw [getElem?_page, getElem?_page]
  split_ifs with hk
  · apply List.getElem?_set_ne
    rintro rfl
    apply h
    rw [Nat.mul_comm, Nat.mul_add_div (by omega), Nat.div_eq_of_lt hk, Nat.add_zero]
  · rfl

section Load

variable {ν : Type} {records : List (ℕ × ν)} (load : List α → ℕ × ν → Option (List α))
  (decode : ℕ → ν → List α)

theorem foldlM_pages (hnodup : (records.map Prod.fst).Nodup)
    (hrange : ∀ r ∈ records, r.1 * n ≤ a.length ∧
      (decode r.1 r.2).length = min n (a.length - r.1 * n))
    (hload : ∀ b : List α, b.length = a.length → ∀ r ∈ records,
      load b r = some (overwrite b (r.1 * n) (decode r.1 r.2))) :
    ∃ b, records.foldlM load a = some b ∧ b.length = a.length ∧
      (∀ r ∈ records, page n r.1 b = decode r.1 r.2) ∧
      ∀ j, (∀ r ∈ records, r.1 ≠ j) → page n j b = page n j a := by
  induction records generalizing a with
  | nil => simp
  | cons r rs ih =>
    rw [List.map_cons, List.nodup_cons] at hnodup
    obtain ⟨hle, hdecode⟩ := hrange r List.mem_cons_self
    have hlength : (overwrite a (r.1 * n) (decode r.1 r.2)).length = a.length :=
      length_overwrite (by omega)
    have hpages := page_overwrite hle (hdecode.trans (length_page n r.1 a).symm)
    obtain ⟨b, hb, hblength, hbpages, hbother⟩ := ih (a := overwrite a (r.1 * n) (decode r.1 r.2))
      hnodup.2 (fun r' hr' => by rw [hlength]; exact hrange r' (List.mem_cons_of_mem _ hr'))
      (fun b hb r' hr' => hload b (hb.trans hlength) r' (List.mem_cons_of_mem _ hr'))
    refine ⟨b, ?_, hblength.trans hlength, ?_, ?_⟩
    · rwa [List.foldlM_cons, hload a rfl r List.mem_cons_self]
    · intro r' hr'
      rcases List.mem_cons.mp hr' with rfl | hr'
      · have hnot : ∀ r'' ∈ rs, r''.1 ≠ r'.1 := by grind
        rw [hbother r'.1 hnot, hpages, if_pos rfl]
      · grind
    · intro j hj
      rw [hbother j fun r' hr' => hj r' (List.mem_cons_of_mem _ hr'), hpages,
        if_neg (hj r List.mem_cons_self).symm]

end Load

end Cloudpilot.Library.PagedArray
