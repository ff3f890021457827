import Mathlib.Algebra.BigOperators.Group.Finset.Basic
import Cloudpilot.Savestate.Savestate

/-! # Parsing arbitrary data

The table of contents stays inside the buffer as long as `4 + chunkCount * 2` does not
wrap in `size_t`. Then every read is inside the buffer, and the windows of an accepted
buffer tile what follows the table. With 32 bits a chunk count from 2^31 - 2 on can
pass the check, and the loop reads behind the buffer unless an entry inside the buffer
is too large first.
-/
namespace Cloudpilot.Savestate

open List Nat

variable {w : ℕ} {b : Buffer w}

def tocSize (b : Buffer w) (k : ℕ) : ℕ := ((b.words[2 + 2 * k]?).getD 0).toNat

/-- The sum of the sizes of the first `k` entries. -/
def tocTotal (b : Buffer w) (k : ℕ) : ℕ := ∑ i ∈ Finset.range k, tocSize b i

theorem tocTotal_succ (b : Buffer w) (k : ℕ) : tocTotal b (k + 1) = tocTotal b k + tocSize b k :=
  Finset.sum_range_succ _ _

/-- The windows lie one behind the other from word `d` up to word `e`. -/
def Tiled : ℕ → List (Window w) → ℕ → Prop
  | d, [], e => d = e
  | d, x :: xs, e => x.buffer.toNat = 4 * d ∧ Tiled (d + x.chunkSize.toNat) xs e

section Tiled
variable {d e : ℕ} {xs : List (Window w)}

theorem Tiled.le (h : Tiled d xs e) : d ≤ e := by
  induction xs generalizing d with
  | nil => exact h.le
  | cons x xs ih => exact (le_add_right _ _).trans (ih h.2)

theorem Tiled.inside (h : Tiled d xs e) :
    ∀ x ∈ xs, 4 * d ≤ x.buffer.toNat ∧ x.buffer.toNat + 4 * x.chunkSize.toNat ≤ 4 * e := by
  induction xs generalizing d with
  | nil => simp
  | cons y xs ih =>
    obtain ⟨hy, hrest⟩ := h
    have hle := hrest.le
    intro x hx
    rcases mem_cons.mp hx with rfl | hx
    · omega
    · grind

theorem Tiled.pairwise (h : Tiled d xs e) :
    xs.Pairwise fun x y => x.buffer.toNat + 4 * x.chunkSize.toNat ≤ y.buffer.toNat := by
  induction xs generalizing d with
  | nil => exact List.Pairwise.nil
  | cons x xs ih =>
    obtain ⟨hx, hrest⟩ := h
    refine pairwise_cons.mpr ⟨fun y hy => ?_, ih hrest⟩
    have hy' := hrest.inside y hy
    omega

theorem Tiled.covers (h : Tiled d xs e) {a : ℕ} (hlo : 4 * d ≤ a) (hhi : a < 4 * e) :
    ∃ x ∈ xs, x.buffer.toNat ≤ a ∧ a < x.buffer.toNat + 4 * x.chunkSize.toNat := by
  induction xs generalizing d with
  | nil =>
    obtain rfl : d = e := h
    omega
  | cons x xs ih =>
    obtain ⟨hx, hrest⟩ := h
    by_cases ha : a < x.buffer.toNat + 4 * x.chunkSize.toNat <;> grind

end Tiled

section Loop
variable (hw : 32 ≤ w) (hn : b.words.length < 2 ^ (w - 3))

theorem toNat_setWidth_word (hw : 32 ≤ w) (v : Word) : (v.setWidth w).toNat = v.toNat := by
  rw [BitVec.toNat_setWidth, Nat.mod_eq_of_lt]
  exact lt_of_lt_of_le v.isLt (Nat.pow_le_pow_right (by norm_num) hw)

include hw hn

theorem offset_lt {j : ℕ} (hj : j ≤ b.words.length + 1) : 4 * j < 2 ^ w := by
  obtain ⟨hpow, -, hfour⟩ := two_pow_eq (show 5 ≤ w by omega)
  zify at hn hj ⊢
  omega

theorem readWord_toc {j : ℕ} (hj : j < b.words.length) :
    readWord b (BitVec.ofNat w (4 * j)) = some (b.words.get ⟨j, hj⟩) := by
  rw [readWord_ofNat b (offset_lt hw hn (by omega))]
  exact getElem?_eq_getElem hj

/-- One pass through the loop for an entry inside the buffer. -/
theorem parseLoop_step {k : ℕ} {d : ℤ} (count : ℕ) (windows : List (Window w))
    (hk : 2 + 2 * k < b.words.length) (hlo : -3 ≤ d) (hhi : d ≤ b.words.length) :
    ∃ x : Window w, b.words[1 + 2 * k]? = some x.type ∧ x.buffer = BitVec.ofInt w (4 * d) ∧
      x.chunkSize.toNat = tocSize b k ∧
      parseLoop b (BitVec.ofNat w b.words.length) (count + 1) (BitVec.ofNat w (4 * (1 + 2 * k)))
        (BitVec.ofInt w (4 * d)) windows =
      if (b.words.length : ℤ) < d + tocSize b k then some ⟨false, windows⟩
      else parseLoop b (BitVec.ofNat w b.words.length) count
        (BitVec.ofNat w (4 * (1 + 2 * (k + 1)))) (BitVec.ofInt w (4 * (d + tocSize b k)))
        (windows ++ [x]) := by
  set s : BitVec w := (b.words.get ⟨2 + 2 * k, hk⟩).setWidth w with hs
  have hsize : s.toNat = tocSize b k := by
    rw [hs, toNat_setWidth_word hw, tocSize, getElem?_eq_getElem hk]
    rfl
  have hrem := remaining_eq (show 5 ≤ w by omega) hn hlo hhi
  have hnext : BitVec.ofNat w (4 * (1 + 2 * k)) + 4 = BitVec.ofNat w (4 * (2 + 2 * k)) := by
    rw [show (4 : BitVec w) = BitVec.ofNat w 4 from rfl, ← BitVec.ofNat_add]
    congr 1
    ring
  have hentry : BitVec.ofNat w (4 * (1 + 2 * k)) + 8 = BitVec.ofNat w (4 * (1 + 2 * (k + 1))) := by
    rw [show (8 : BitVec w) = BitVec.ofNat w 8 from rfl, ← BitVec.ofNat_add]
    congr 1
  have hchunk : BitVec.ofInt w (4 * d) + 4 * s = BitVec.ofInt w (4 * (d + tocSize b k)) := by
    rw [mul_add, BitVec.ofInt_add, BitVec.ofInt_mul 4 (tocSize b k : ℤ), ← hsize,
      BitVec.ofInt_natCast, BitVec.ofNat_toNat, BitVec.setWidth_eq]
    rfl
  have hcheck : BitVec.ofNat w b.words.length - ptrDiff (BitVec.ofInt w (4 * d)) < s ↔
      (b.words.length : ℤ) < d + tocSize b k := by
    rw [BitVec.lt_def, hsize]
    omega
  refine ⟨⟨b.words.get ⟨1 + 2 * k, by omega⟩, BitVec.ofInt w (4 * d), s⟩,
    getElem?_eq_getElem _, rfl, hsize, ?_⟩
  rw [parseLoop, readWord_toc hw hn (show 1 + 2 * k < b.words.length by omega), hnext,
    readWord_toc hw hn hk]
  simp only [Option.bind_eq_bind, Option.bind_some, ← hs, hcheck, hentry, hchunk]

theorem parseLoop_outside {k count : ℕ} {nextChunk : BitVec w} {windows : List (Window w)}
    (hk : 2 * k < b.words.length) (hout : b.words.length ≤ 2 + 2 * k) :
    parseLoop b (BitVec.ofNat w b.words.length) (count + 1) (BitVec.ofNat w (4 * (1 + 2 * k)))
      nextChunk windows = none := by
  have hnext : BitVec.ofNat w (4 * (1 + 2 * k)) + 4 = BitVec.ofNat w (4 * (2 + 2 * k)) := by
    rw [show (4 : BitVec w) = BitVec.ofNat w 4 from rfl, ← BitVec.ofNat_add]
    congr 1
    ring
  rw [parseLoop, hnext, readWord_ofNat b (offset_lt hw hn (show 2 + 2 * k ≤ _ by omega)),
    getElem?_eq_none hout]
  cases readWord b (BitVec.ofNat w (4 * (1 + 2 * k))) <;> rfl

/-- A table inside the buffer is read to its end, or up to an entry that is too large.
The windows of an accepted buffer tile the rest. -/
theorem parseLoop_inside {k count d : ℕ} (windows : List (Window w))
    (htoc : 2 * (k + count) < b.words.length) (hd : d ≤ b.words.length) :
    ∃ r, parseLoop b (BitVec.ofNat w b.words.length) count (BitVec.ofNat w (4 * (1 + 2 * k)))
        (BitVec.ofInt w (4 * (d : ℤ))) windows = some r ∧
      (r.accepted = true → d + tocTotal b (k + count) = b.words.length + tocTotal b k ∧
        ∃ new, r.windows = windows ++ new ∧ new.length = count ∧
          Tiled d new b.words.length) := by
  have hw5 : 5 ≤ w := by omega
  induction count generalizing k d windows with
  | zero =>
    refine ⟨_, rfl, fun h => ?_⟩
    have hend := (ptrDiff_eq_size_iff (d := d) hw5 hn (by omega) (by exact_mod_cast hd)).mp
      (by simpa using h)
    have hend' : d = b.words.length := by exact_mod_cast hend
    exact ⟨by rw [add_zero, hend'], [], by simp, rfl, hend'⟩
  | succ count ih =>
    obtain ⟨x, -, hbuffer, hsize, hstep⟩ := parseLoop_step hw hn count windows
      (show 2 + 2 * k < b.words.length by omega) (show -3 ≤ (d : ℤ) by omega)
      (by exact_mod_cast hd)
    rw [hstep]
    split
    · grind
    · rename_i hfit
      have hd' : d + tocSize b k ≤ b.words.length := by
        zify
        omega
      obtain ⟨r, hr, hacc⟩ := ih (windows ++ [x])
        (show 2 * (k + 1 + count) < b.words.length by omega) hd'
      refine ⟨r, by exact_mod_cast hr, fun h => ?_⟩
      obtain ⟨hsum, new, hnew, hlen, htiled⟩ := hacc h
      rw [tocTotal_succ, show k + 1 + count = k + (count + 1) by ring] at hsum
      refine ⟨by omega, x :: new, by rw [hnew]; simp, by simp [hlen], ?_,
        by rw [hsize]; exact htiled⟩
      have hbound := offset_lt hw hn (show d ≤ b.words.length + 1 by omega)
      have hnat := toNat_ofInt_of_lt (w := w) (d := 4 * (d : ℤ)) (by omega) (by exact_mod_cast hbound)
      rw [hbuffer]
      omega

/-- A table that is longer than the buffer is read past its end, unless an entry inside
the buffer is too large. -/
theorem parseLoop_overrun {k count : ℕ} {d : ℤ} (windows : List (Window w))
    (hk : 2 * k < b.words.length) (hlong : b.words.length ≤ 2 * (k + count))
    (hlo : -3 ≤ d) (hhi : d + tocTotal b k ≤ b.words.length) :
    ((∀ i, k ≤ i → 2 + 2 * i < b.words.length → d + tocTotal b (i + 1) ≤ b.words.length) →
      parseLoop b (BitVec.ofNat w b.words.length) count (BitVec.ofNat w (4 * (1 + 2 * k)))
        (BitVec.ofInt w (4 * (d + tocTotal b k))) windows = none) ∧
    ((∃ i, k ≤ i ∧ 2 + 2 * i < b.words.length ∧ (b.words.length : ℤ) < d + tocTotal b (i + 1)) →
      ∃ ws, parseLoop b (BitVec.ofNat w b.words.length) count (BitVec.ofNat w (4 * (1 + 2 * k)))
        (BitVec.ofInt w (4 * (d + tocTotal b k))) windows = some ⟨false, ws⟩) := by
  induction count generalizing k windows with
  | zero => omega
  | succ count ih =>
    by_cases hin : 2 + 2 * k < b.words.length
    · obtain ⟨x, -, -, -, hstep⟩ := parseLoop_step hw hn count windows hin
        (show -3 ≤ d + (tocTotal b k : ℤ) by omega) hhi
      have htotal : d + (tocTotal b k : ℤ) + tocSize b k = d + tocTotal b (k + 1) := by
        rw [tocTotal_succ]
        push_cast
        ring
      rw [hstep, htotal]
      split
      · rename_i hbig
        exact ⟨fun h => absurd (h k le_rfl hin) (by omega), fun _ => ⟨_, rfl⟩⟩
      · rename_i hfit
        obtain ⟨hnone, hsome⟩ := ih (k := k + 1) (windows ++ [x]) (by omega) (by omega)
          (by omega)
        refine ⟨fun h => hnone fun i hi => h i (by omega), ?_⟩
        rintro ⟨i, hi, hin', hbig⟩
        refine hsome ⟨i, ?_, hin', hbig⟩
        rcases eq_or_lt_of_le hi with rfl | hi
        · omega
        · exact hi
    · refine ⟨fun _ => parseLoop_outside hw hn hk (by omega), ?_⟩
      rintro ⟨i, hi, hin', -⟩
      omega

end Loop

def chunkCount (b : Buffer w) : ℕ := ((b.words[0]?).getD 0).toNat

/-- The table and the windows lie inside the buffer, do not overlap and cover it. -/
structure Tiles (b : Buffer w) (windows : List (Window w)) : Prop where
  count : windows.length = chunkCount b
  table : 4 * (1 + 2 * chunkCount b) ≤ b.size
  inside : ∀ x ∈ windows, 4 * (1 + 2 * chunkCount b) ≤ x.buffer.toNat ∧
    x.buffer.toNat + 4 * x.chunkSize.toNat ≤ b.size
  disjoint : windows.Pairwise fun x y => x.buffer.toNat + 4 * x.chunkSize.toNat ≤ y.buffer.toNat
  covers : ∀ a, 4 * (1 + 2 * chunkCount b) ≤ a → a < b.size →
    ∃ x ∈ windows, x.buffer.toNat ≤ a ∧ a < x.buffer.toNat + 4 * x.chunkSize.toNat

/-- Parsing ends without a read outside the buffer, and accepts only what tiles it. -/
def ParseSafe (b : Buffer w) : Prop :=
  ∃ r, parseSavestate b = some r ∧ (r.accepted = true → Tiles b r.windows)

/-- The bound for the table wraps around `size_t` and ends up below the buffer size. -/
def TableWraps (b : Buffer w) : Prop :=
  4 ≤ b.size ∧ b.size % 4 = 0 ∧ 2 ^ w ≤ 4 + 2 * chunkCount b ∧
    (4 + 2 * chunkCount b) % 2 ^ w ≤ b.size / 4

/-- Up to an entry inside the buffer, the sizes sum to more than the words that the code
takes to be left behind the table. -/
def RejectedInside (b : Buffer w) : Prop :=
  ∃ i, 2 + 2 * i < b.size / 4 ∧
    ((b.size / 4 : ℕ) - 1 - 2 * (chunkCount b : ℤ)) % 2 ^ w < tocTotal b (i + 1)

theorem ofInt_add_mul_two_pow (x q : ℤ) : BitVec.ofInt w (x + 2 ^ w * q) = BitVec.ofInt w x := by
  apply BitVec.eq_of_toNat_eq
  rw [BitVec.toNat_ofInt, BitVec.toNat_ofInt]
  push_cast
  rw [Int.add_mul_emod_self_left]

section Whole
variable (hw : 32 ≤ w)

include hw

theorem words_length_lt (hsize : b.size % 4 = 0) :
    b.words.length = b.size / 4 ∧ b.words.length < 2 ^ (w - 3) := by
  have hlen := b.length_eq
  have hfits := b.fits
  rw [if_pos hsize, add_zero] at hlen
  obtain ⟨-, hhalf, -⟩ := two_pow_eq (show 5 ≤ w by omega)
  refine ⟨hlen, ?_⟩
  zify at hfits hlen ⊢
  omega

theorem parseSavestate_eq (h4 : 4 ≤ b.size) (hsize : b.size % 4 = 0) :
    parseSavestate b =
      if b.words.length < (4 + 2 * chunkCount b) % 2 ^ w then some ⟨false, []⟩
      else parseLoop b (BitVec.ofNat w b.words.length) (chunkCount b)
        (BitVec.ofNat w (4 * (1 + 2 * 0)))
        (BitVec.ofInt w (4 * (((4 + 2 * chunkCount b) % 2 ^ w : ℕ) - 3 : ℤ))) [] := by
  obtain ⟨hlen, hn⟩ := words_length_lt hw hsize
  have hpos : 0 < b.words.length := by omega
  have hread : readWord b 0 = some (b.words.get ⟨0, hpos⟩) := readWord_toc hw hn hpos
  have hcount : (b.words.get ⟨0, hpos⟩).toNat = chunkCount b := by
    rw [chunkCount, getElem?_eq_getElem hpos]
    rfl
  have hword : (b.words.get ⟨0, hpos⟩).setWidth w = BitVec.ofNat w (chunkCount b) := by
    rw [← hcount, BitVec.ofNat_toNat]
  have hbound : (4 + BitVec.ofNat w (chunkCount b) * 2 : BitVec w) =
      BitVec.ofNat w (4 + 2 * chunkCount b) := by
    rw [BitVec.ofNat_add, Nat.mul_comm, BitVec.ofNat_mul]
    rfl
  have hchunk : (4 + 4 * (2 * BitVec.ofNat w (chunkCount b)) : BitVec w) =
      BitVec.ofInt w (4 * (((4 + 2 * chunkCount b) % 2 ^ w : ℕ) - 3 : ℤ)) := by
    have hmod := Nat.mod_add_div (4 + 2 * chunkCount b) (2 ^ w)
    zify at hmod
    rw [← ofInt_add_mul_two_pow _ (4 * (((4 + 2 * chunkCount b) / 2 ^ w : ℕ) : ℤ))]
    have hsum : (4 * (((4 + 2 * chunkCount b) % 2 ^ w : ℕ) - 3 : ℤ) +
        2 ^ w * (4 * (((4 + 2 * chunkCount b) / 2 ^ w : ℕ) : ℤ))) =
        ((4 + 4 * (2 * chunkCount b) : ℕ) : ℤ) := by grind
    rw [hsum, BitVec.ofInt_natCast, BitVec.ofNat_add, BitVec.ofNat_mul, BitVec.ofNat_mul]
    rfl
  have hlt : chunkCount b < 2 ^ w := by
    exact lt_of_lt_of_le (BitVec.isLt _) (Nat.pow_le_pow_right (by norm_num) hw)
  have hcheck : BitVec.ofNat w b.words.length < BitVec.ofNat w (4 + 2 * chunkCount b) ↔
      b.words.length < (4 + 2 * chunkCount b) % 2 ^ w := by
    have hoff := offset_lt hw hn (show b.words.length ≤ b.words.length + 1 by omega)
    rw [BitVec.lt_def, BitVec.toNat_ofNat, BitVec.toNat_ofNat, Nat.mod_eq_of_lt (by omega)]
  rw [parseSavestate, if_neg (by omega), if_neg (by omega), hread]
  simp only [Option.bind_eq_bind, Option.bind_some, hword, hbound, hchunk, ← hlen, hcheck,
    BitVec.toNat_ofNat, Nat.mod_eq_of_lt hlt]
  rfl

theorem parseSafe_of_not_wraps (h4 : 4 ≤ b.size) (hsize : b.size % 4 = 0)
    (hwrap : 4 + 2 * chunkCount b < 2 ^ w) : ParseSafe b := by
  obtain ⟨hlen, hn⟩ := words_length_lt hw hsize
  rw [ParseSafe, parseSavestate_eq hw h4 hsize, mod_eq_of_lt hwrap]
  by_cases hsmall : b.words.length < 4 + 2 * chunkCount b
  · rw [if_pos hsmall]
    exact ⟨_, rfl, fun h => Bool.noConfusion h⟩
  · rw [if_neg hsmall]
    have hcursor : ((4 + 2 * chunkCount b : ℕ) - 3 : ℤ) = ((1 + 2 * chunkCount b : ℕ) : ℤ) := by
      push_cast
      ring
    rw [hcursor]
    obtain ⟨r, hr, hacc⟩ := parseLoop_inside hw hn [] (show 2 * (0 + chunkCount b) < _ by omega)
      (show 1 + 2 * chunkCount b ≤ b.words.length by omega)
    refine ⟨r, hr, fun h => ?_⟩
    obtain ⟨-, new, hnew, hcount, htiled⟩ := hacc h
    rw [hnew, nil_append]
    have hbytes : 4 * b.words.length = b.size := by omega
    exact ⟨hcount, by omega, fun x hx => hbytes ▸ htiled.inside x hx, htiled.pairwise,
      fun a hlo hhi => htiled.covers hlo (by omega)⟩

theorem accepted_total (h4 : 4 ≤ b.size) (hsize : b.size % 4 = 0)
    (hwrap : 4 + 2 * chunkCount b < 2 ^ w) {r : Parsed w} (hparse : parseSavestate b = some r)
    (hacc : r.accepted = true) :
    4 + 2 * chunkCount b ≤ b.words.length ∧
      1 + 2 * chunkCount b + tocTotal b (chunkCount b) = b.words.length := by
  obtain ⟨hlen, hn⟩ := words_length_lt hw hsize
  rw [parseSavestate_eq hw h4 hsize, mod_eq_of_lt hwrap] at hparse
  by_cases hsmall : b.words.length < 4 + 2 * chunkCount b
  · grind
  · rw [if_neg hsmall] at hparse
    have hcursor : ((4 + 2 * chunkCount b : ℕ) - 3 : ℤ) = ((1 + 2 * chunkCount b : ℕ) : ℤ) := by
      push_cast
      ring
    rw [hcursor] at hparse
    obtain ⟨r', hr', hsum⟩ := parseLoop_inside hw hn [] (show 2 * (0 + chunkCount b) < _ by omega)
      (show 1 + 2 * chunkCount b ≤ b.words.length by omega)
    rw [hr'] at hparse
    cases hparse
    have htotal := (hsum hacc).1
    rw [zero_add] at htotal
    exact ⟨by omega, htotal⟩

/-- With the wrap the table leaves the buffer, so only an early rejection is safe. -/
theorem parseSafe_iff_of_wraps (h : TableWraps b) : ParseSafe b ↔ RejectedInside b := by
  obtain ⟨h4, hsize, hwrap, hpass⟩ := h
  obtain ⟨hlen, hn⟩ := words_length_lt hw hsize
  obtain ⟨hpow, -, hfour⟩ := two_pow_eq (show 5 ≤ w by omega)
  set t := (4 + 2 * chunkCount b) % 2 ^ w with ht
  have hlong : b.words.length ≤ 2 * (0 + chunkCount b) := by grind
  have hleft : ((b.size / 4 : ℕ) - 1 - 2 * (chunkCount b : ℤ)) % 2 ^ w =
      b.words.length - ((t : ℤ) - 3) := by
    have hmod := mod_add_div (4 + 2 * chunkCount b) (2 ^ w)
    zify at hmod hn hpass
    have hsum : ((b.size / 4 : ℕ) - 1 - 2 * (chunkCount b : ℤ)) =
        (b.words.length - ((t : ℤ) - 3)) +
          2 ^ w * (-(((4 + 2 * chunkCount b) / 2 ^ w : ℕ) : ℤ)) := by grind
    rw [hsum, Int.add_mul_emod_self_left]
    exact Int.emod_eq_of_lt (by omega) (by omega)
  have hzero : tocTotal b 0 = 0 := rfl
  obtain ⟨hnone, hsome⟩ := parseLoop_overrun hw hn (d := (t : ℤ) - 3) [] (k := 0) (by omega) hlong
    (by omega) (by omega)
  rw [hzero, cast_zero, add_zero] at hnone hsome
  rw [ParseSafe, parseSavestate_eq hw h4 hsize, if_neg (by omega), RejectedInside, hleft, ← hlen]
  constructor
  · rintro ⟨r, hr, -⟩
    by_contra hno
    push Not at hno
    rw [hnone fun i _ hi => by linarith [hno i hi]] at hr
    cases hr
  · rintro ⟨i, hi, hbig⟩
    obtain ⟨ws, hws⟩ := hsome ⟨i, zero_le i, hi, by linarith⟩
    exact ⟨_, hws, fun h => Bool.noConfusion h⟩

end Whole

/-- For every buffer and both widths of `size_t`: parsing is safe exactly if the table
does not wrap, or an entry inside the buffer is rejected. -/
theorem parseSavestate_safe_iff (arch : Arch) (b : Buffer arch.width) :
    ParseSafe b ↔ ¬ TableWraps b ∨ RejectedInside b := by
  have hw : 32 ≤ arch.width := by cases arch <;> decide
  by_cases hwraps : TableWraps b
  · rw [parseSafe_iff_of_wraps hw hwraps]
    tauto
  · refine ⟨fun _ => .inl hwraps, fun _ => ?_⟩
    by_cases hshort : b.size < 4 ∨ b.size % 4 ≠ 0
    · refine ⟨⟨false, []⟩, ?_, fun h => Bool.noConfusion h⟩
      rw [parseSavestate]
      split_ifs <;> tauto
    · push Not at hshort
      by_cases hwrap : 4 + 2 * chunkCount b < 2 ^ arch.width
      · exact parseSafe_of_not_wraps hw hshort.1 hshort.2 hwrap
      · have hlen := (words_length_lt hw hshort.2).1
        refine ⟨⟨false, []⟩, ?_, fun h => Bool.noConfusion h⟩
        rw [parseSavestate_eq hw hshort.1 hshort.2, if_pos]
        by_contra hpass
        exact hwraps ⟨hshort.1, hshort.2, by omega, by omega⟩

/-- Four words: the chunk count 2^31 - 2, and an empty chunk. -/
def wrappingBuffer : Buffer Arch.bits32.width where
  words := [0x7FFFFFFE, 0x10, 0, 0]
  size := 16
  length_eq := rfl
  fits := by decide

/-- The check lets the buffer pass, and the second entry is read behind its end. -/
theorem parseSavestate_wrappingBuffer :
    parseSavestate wrappingBuffer = none ∧ ¬ ParseSafe wrappingBuffer := by
  have hnone : parseSavestate wrappingBuffer = none := by rfl
  refine ⟨hnone, ?_⟩
  rintro ⟨r, hr, -⟩
  cases hr

end Cloudpilot.Savestate
