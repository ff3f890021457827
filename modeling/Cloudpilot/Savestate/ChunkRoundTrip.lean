import Mathlib.Data.List.TakeWhile
import Cloudpilot.Savestate.Savestate

/-! # Reading a chunk back

Every item takes as many words as the probe counts, writes nothing outside of them, and
is read back from any memory that agrees on them.
-/
namespace Cloudpilot.Savestate

open BitVec List

section Pack
variable {k : ℕ}

theorem packStep_length (values : List (BitVec k)) (pack : BitVec 32 × ℕ) :
    (values.foldl packStep pack).2 = pack.2 + values.length := by
  induction values generalizing pack with
  | nil => rfl
  | cons v values ih =>
    rw [foldl_cons, ih, length_cons, packStep]
    omega

theorem shiftLeft_and_not_mask (x : BitVec 32) :
    (x <<< k) &&& ~~~BitVec.ofNat 32 (2 ^ k - 1) = x <<< k := by
  apply eq_of_getLsbD_eq
  intro i hi
  rw [getLsbD_and, getLsbD_not, getLsbD_shiftLeft, getLsbD_ofNat,
    Nat.testBit_two_pow_sub_one]
  by_cases h : i < k <;> simp [h, hi]

theorem packValue_snoc (values : List (BitVec k)) (v : BitVec k) :
    packValue (values ++ [v]) = (packValue values <<< k) ||| v.setWidth 32 := by
  rw [packValue, foldl_append, foldl_cons, foldl_nil, packStep]
  simp only [packStep_length, Nat.zero_add]
  split
  · rw [shiftLeft_and_not_mask]
    rfl
  · rename_i h
    obtain rfl : values = [] := eq_nil_of_length_eq_zero (by omega)
    simp [packValue]

theorem packValue_high {values : List (BitVec k)} {i : ℕ} (h : k * values.length ≤ i) :
    (packValue values).getLsbD i = false := by
  induction values using reverseRecOn generalizing i with
  | nil => simp [packValue]
  | append_singleton values v ih =>
    rw [length_append, length_singleton, Nat.mul_succ] at h
    rw [packValue_snoc, getLsbD_or, getLsbD_shiftLeft, getLsbD_setWidth,
      ih (by omega), getLsbD_of_ge v i (by omega)]
    simp

theorem unpack_packValue {values : List (BitVec k)} (h : k * values.length ≤ 32) :
    unpack k values.length (packValue values) = values := by
  induction values using reverseRecOn with
  | nil => rfl
  | append_singleton values v ih =>
    rw [length_append, length_singleton, Nat.mul_succ] at h
    have hrest : packValue (values ++ [v]) >>> k = packValue values := by
      apply eq_of_getLsbD_eq
      intro i hi
      rw [packValue_snoc, getLsbD_ushiftRight, getLsbD_or, getLsbD_shiftLeft,
        getLsbD_setWidth, getLsbD_of_ge v (k + i) (by omega), Nat.add_sub_cancel_left]
      by_cases hlow : k + i < 32
      · simp [hlow]
      · rw [packValue_high (by omega)]
        simp
    have hlast : (packValue (values ++ [v])).setWidth k = v := by
      apply eq_of_getLsbD_eq
      intro i hi
      rw [packValue_snoc, getLsbD_setWidth, getLsbD_or, getLsbD_shiftLeft,
        getLsbD_setWidth]
      simp [hi, show i < 32 by omega]
    rw [length_append, length_singleton, unpack, hrest, hlast, ih (by omega)]

end Pack

theorem getByte_ofBytes (f : ℕ → Byte) {j : ℕ} (hj : j < 4) : getByte (ofBytes f) j = f j := by
  apply eq_of_getLsbD_eq
  intro i hi
  simp only [getByte, ofBytes]
  interval_cases j <;> interval_cases i <;> simp

theorem wordSize_mul_four (size : ℕ) : size ≤ 4 * wordSize size := by
  rw [wordSize]
  split <;> omega

/-- Memories that agree on a range of words. -/
def Agree (m m' : Mem) (start count : ℕ) : Prop := ∀ a, start ≤ a → a < start + count → m a = m' a

theorem memcpyFrom_memcpyTo {m m' : Mem} {next : ℕ} {bytes : List Byte}
    (h : Agree m' (memcpyTo m next bytes) next (wordSize bytes.length)) :
    memcpyFrom m' next bytes.length = bytes := by
  have hwords := wordSize_mul_four bytes.length
  apply List.ext_getElem
  · simp [memcpyFrom]
  · intro i hi hi'
    simp only [memcpyFrom, List.getElem_map, List.getElem_range]
    rw [h (next + i / 4) (by omega) (by omega), memcpyTo, if_pos ⟨by omega, by omega⟩,
      getByte_ofBytes _ (Nat.mod_lt _ (by norm_num)), Nat.add_sub_cancel_left,
      Nat.div_add_mod, List.getElem?_eq_getElem hi', Option.getD_some]

theorem memcpyTo_of_outside {m : Mem} {next a : ℕ} {bytes : List Byte}
    (h : a < next ∨ next + wordSize bytes.length ≤ a) : memcpyTo m next bytes a = m a := by
  rw [memcpyTo, if_neg (by omega)]

theorem length_stringBuffer {str : List Byte} {maxLength : ℕ} (h : str.length ≤ maxLength) :
    (stringBuffer str maxLength).length = maxLength + 1 := by
  have hle := ( takeWhile_prefix (· ≠ (0 : Byte)) (l := str)).length_le
  simp only [stringBuffer, length_append, length_replicate]
  omega

theorem takeWhile_stringBuffer {str : List Byte} {maxLength : ℕ} (h : str.length ≤ maxLength)
    (hnul : 0 ∉ str) : (stringBuffer str maxLength).takeWhile (· ≠ 0) = str := by
  have hne : ∀ x ∈ str, decide (x ≠ (0 : Byte)) = true := by grind
  have hall : str.takeWhile (· ≠ (0 : Byte)) = str := List.takeWhile_eq_self_iff.mpr hne
  obtain ⟨n, hn⟩ : ∃ n, maxLength + 1 - str.length = n + 1 := ⟨maxLength - str.length, by omega⟩
  simp only [stringBuffer, hall]
  rw [hn, List.replicate_succ, List.takeWhile_append_of_pos hne]
  simp

/-- A chunk without error that has room for so many more words. -/
structure Chunk.Ready (c : Chunk) (n : ℕ) : Prop where
  error : c.error = false
  room : c.next - c.buffer + n ≤ c.chunkSize

def Chunk.advance (c : Chunk) (n : ℕ) : Chunk := { c with next := c.next + n }

section Primitives
variable {m : Mem} {c : Chunk}

theorem assertOkForSize_ready {n : ℕ} (h : c.Ready n) : assertOkForSize c n = (true, c) := by
  have hroom := h.room
  have hsmall : ¬ c.chunkSize - (c.next - c.buffer) < n := by omega
  rw [assertOkForSize, h.error]
  simp [hsmall]
  rw [← h.error]

theorem put32_ready (h : c.Ready 1) (v : BitVec 32) :
    put32 m c v = (Function.update m c.next v, c.advance 1) := by
  rw [put32, assertOkForSize_ready h]
  rfl

theorem get32_ready (h : c.Ready 1) : get32 m c = (m c.next, c.advance 1) := by
  rw [get32, assertOkForSize_ready h]
  rfl

theorem putBuffer_ready {bytes : List Byte} (h : c.Ready (wordSize bytes.length)) :
    putBuffer m c bytes = (memcpyTo m c.next bytes, c.advance (wordSize bytes.length)) := by
  rw [putBuffer, assertOkForSize_ready h]
  rfl

theorem getBuffer_ready {size : ℕ} (h : c.Ready (wordSize size)) :
    getBuffer m c size = (some (memcpyFrom m c.next size), c.advance (wordSize size)) := by
  rw [getBuffer, assertOkForSize_ready h]
  rfl

theorem Chunk.Ready.mono {n k : ℕ} (h : c.Ready n) (hk : k ≤ n) : c.Ready k :=
  ⟨h.error, by have := h.room; omega⟩

theorem Chunk.Ready.advance {n k : ℕ} (hb : c.buffer ≤ c.next) (h : c.Ready (n + k)) :
    (c.advance n).Ready k := by
  have hroom := h.room
  refine ⟨h.error, ?_⟩
  simp only [Chunk.advance]
  omega

theorem Chunk.advance_advance (n k : ℕ) : (c.advance n).advance k = c.advance (n + k) := by
  simp [Chunk.advance, Nat.add_assoc]

end Primitives

/-- The words `[start, start + item.probe)` hold the item: it can be read from any memory
that has the same words there. -/
def HoldsItem (m : Mem) (start : ℕ) (item : Item) : Prop :=
  ∀ m' c, Agree m' m start item.probe → c.next = start → c.buffer ≤ c.next → c.Ready item.probe →
    getItem m' c item.shape = (some item, c.advance item.probe)

/-- What a put does: it advances by the size the probe gives, leaves everything else
alone, and can be read back. -/
structure Puts (m : Mem) (c : Chunk) (item : Item) (m' : Mem) (c' : Chunk) : Prop where
  advance : c' = c.advance item.probe
  frame : ∀ a, a < c.next ∨ c.next + item.probe ≤ a → m' a = m a
  holds : HoldsItem m' c.next item

theorem puts_word {m : Mem} {c : Chunk} {item : Item} {v : BitVec 32} (hprobe : item.probe = 1)
    (hput : putItem m c item = put32 m c v) (hready : c.Ready item.probe)
    (hget : ∀ m' d, get32 m' d = (v, d.advance 1) →
      getItem m' d item.shape = (some item, d.advance 1)) :
    ∃ m' c', putItem m c item = (m', c') ∧ Puts m c item m' c' := by
  rw [hprobe] at hready
  refine ⟨_, _, hput.trans (put32_ready hready v), ?_⟩
  refine ⟨by rw [hprobe], fun a ha => ?_, fun m' d hagree hnext _ hd => ?_⟩
  · grind
  · rw [hprobe] at hagree hd ⊢
    apply hget
    rw [get32_ready hd, hnext, hagree c.next (by omega) (by omega), Function.update_self]

theorem join_halves (v : BitVec 64) :
    (v.setWidth 32).setWidth 64 ||| ((v >>> 32).setWidth 32).setWidth 64 <<< 32 = v := by
  apply eq_of_getLsbD_eq
  intro i hi
  by_cases h : i < 32
  · simp [h, hi]
  · simp [h, hi, show i - 32 < 64 by omega, show i - 32 < 32 by omega,
      show 32 + (i - 32) = i by omega]

theorem puts_double_word {m : Mem} {c : Chunk} {item : Item} {v : BitVec 64}
    (hprobe : item.probe = 2) (hput : putItem m c item = put64 m c v) (hb : c.buffer ≤ c.next)
    (hready : c.Ready item.probe)
    (hget : ∀ m' d, get64 m' d = (v, d.advance 2) →
      getItem m' d item.shape = (some item, d.advance 2)) :
    ∃ m' c', putItem m c item = (m', c') ∧ Puts m c item m' c' := by
  rw [hprobe] at hready
  have hsecond : (c.advance 1).Ready 1 := Chunk.Ready.advance hb hready
  have hrun : put64 m c v = (Function.update (Function.update m c.next (v.setWidth 32)) (c.next + 1)
      ((v >>> 32).setWidth 32), c.advance 2) := by
    rw [put64, put32_ready (hready.mono (by omega))]
    simp only
    rw [put32_ready hsecond]
    rfl
  refine ⟨_, _, hput.trans hrun, ?_⟩
  refine ⟨by rw [hprobe], fun a ha => ?_, fun m' d hagree hnext hdb hd => ?_⟩
  · grind
  · rw [hprobe] at hagree hd ⊢
    apply hget
    have hsecond' : (d.advance 1).Ready 1 := Chunk.Ready.advance hdb hd
    rw [get64, get32_ready (hd.mono (by omega))]
    simp only
    rw [get32_ready hsecond']
    simp only [Chunk.advance, hnext]
    rw [hagree c.next (by omega) (by omega), hagree (c.next + 1) (by omega) (by omega),
      Function.update_self, Function.update_of_ne (by omega), Function.update_self, join_halves]

theorem puts_bytes {m : Mem} {c : Chunk} {item : Item} {bytes : List Byte}
    (hprobe : item.probe = wordSize bytes.length) (hput : putItem m c item = putBuffer m c bytes)
    (hready : c.Ready item.probe)
    (hget : ∀ m' d, getBuffer m' d bytes.length = (some bytes, d.advance item.probe) →
      getItem m' d item.shape = (some item, d.advance item.probe)) :
    ∃ m' c', putItem m c item = (m', c') ∧ Puts m c item m' c' := by
  rw [hprobe] at hready
  refine ⟨_, _, hput.trans (putBuffer_ready hready), ?_⟩
  refine ⟨by rw [hprobe], fun a ha => ?_, fun m' d hagree hnext _ hd => ?_⟩
  · rw [hprobe] at ha
    exact memcpyTo_of_outside ha
  · apply hget
    rw [hprobe] at hagree hd ⊢
    rw [getBuffer_ready hd, hnext, memcpyFrom_memcpyTo hagree]

theorem putItem_puts {m : Mem} {c : Chunk} {item : Item} (hwf : item.WellFormed)
    (hb : c.buffer ≤ c.next) (hready : c.Ready item.probe) :
    ∃ m' c', putItem m c item = (m', c') ∧ Puts m c item m' c' := by
  cases item with
  | u8 v => exact puts_word rfl rfl hready fun m' d h => by simp [getItem, Item.shape, h]
  | u16 v => exact puts_word rfl rfl hready fun m' d h => by simp [getItem, Item.shape, h]
  | u32 v => exact puts_word rfl rfl hready fun m' d h => by simp [getItem, Item.shape, h]
  | u64 v => exact puts_double_word rfl rfl hb hready fun m' d h => by simp [getItem, Item.shape, h]
  | bool v =>
    refine puts_word rfl rfl hready fun m' d h => ?_
    cases v <;> simp [getItem, Item.shape, h]
  | double bits =>
    exact puts_double_word rfl rfl hb hready fun m' d h => by simp [getItem, Item.shape, h]
  | buffer bytes => exact puts_bytes rfl rfl hready fun m' d h => by simp [getItem, Item.shape, h]
  | string str maxLength =>
    have hlen := length_stringBuffer hwf.1
    have hput : putItem m c (.string str maxLength) = putBuffer m c (stringBuffer str maxLength) := by
      rw [putItem, putString, if_neg (by have := hwf.1; omega)]
    refine puts_bytes (by rw [hlen]; rfl) hput hready fun m' d h => ?_
    rw [hlen] at h
    simp only [getItem, Item.shape, h, Option.map_some, takeWhile_stringBuffer hwf.1 hwf.2]
  | pack8 values =>
    refine puts_word rfl rfl hready fun m' d h => ?_
    have hle : values.length ≤ 4 := hwf
    simp [getItem, Item.shape, h, unpack_packValue (show 8 * values.length ≤ 32 by omega)]
  | pack16 values =>
    refine puts_word rfl rfl hready fun m' d h => ?_
    have hle : values.length ≤ 2 := hwf
    simp [getItem, Item.shape, h, unpack_packValue (show 16 * values.length ≤ 32 by omega)]
  | boolPack values =>
    refine puts_word rfl rfl hready fun m' d h => ?_
    have hle : 1 * (values.map ofBool).length ≤ 32 := by
      rwa [length_map, Nat.one_mul]
    have hunpack := unpack_packValue hle
    rw [length_map] at hunpack
    have hbits : (fun v : Bool => decide (ofBool v ≠ 0)) = id := by grind
    simp only [getItem, Item.shape, h, hunpack, map_map, Function.comp_def, hbits, map_id]

def HoldsItems (m : Mem) (start : ℕ) (items : List Item) : Prop :=
  ∀ m' c, Agree m' m start (probeSize items) → c.next = start → c.buffer ≤ c.next →
    c.Ready (probeSize items) →
      getItems m' c (items.map Item.shape) = (items.map some, c.advance (probeSize items))

theorem probeSize_cons (item : Item) (items : List Item) :
    probeSize (item :: items) = item.probe + probeSize items := by
  simp [probeSize]

theorem HoldsItems.agree {m m' : Mem} {start : ℕ} {items : List Item} (h : HoldsItems m start items)
    (hagree : Agree m' m start (probeSize items)) : HoldsItems m' start items :=
  fun m'' c hc => h m'' c fun a ha ha' => (hc a ha ha').trans (hagree a ha ha')

theorem putItems_puts {m : Mem} {c : Chunk} {items : List Item}
    (hwf : ∀ item ∈ items, item.WellFormed) (hb : c.buffer ≤ c.next)
    (hready : c.Ready (probeSize items)) :
    ∃ m', putItems m c items = (m', c.advance (probeSize items)) ∧
      (∀ a, a < c.next ∨ c.next + probeSize items ≤ a → m' a = m a) ∧
      HoldsItems m' c.next items := by
  induction items generalizing m c with
  | nil => exact ⟨m, rfl, fun _ _ => rfl, fun m' d _ _ _ _ => rfl⟩
  | cons item items ih =>
    rw [probeSize_cons] at hready
    obtain ⟨m1, c1, hput, hadvance, hframe, hholds⟩ := putItem_puts (m := m)
      (hwf item (by simp)) hb (hready.mono (by omega))
    subst hadvance
    obtain ⟨m2, hrest, hframe2, hholds2⟩ := ih (m := m1) (c := c.advance item.probe)
      (fun x hx => hwf x (by simp [hx]))
      (show c.buffer ≤ c.next + item.probe by omega) (Chunk.Ready.advance hb hready)
    have hnext : (c.advance item.probe).next = c.next + item.probe := rfl
    refine ⟨m2, ?_, fun a ha => ?_, fun m' d hagree hdnext hdb hd => ?_⟩
    · simp [putItems, hput, hrest, Chunk.advance_advance, probeSize_cons]
    · rw [probeSize_cons] at ha
      rw [hframe2 a (by omega), hframe a (by omega)]
    · rw [probeSize_cons] at hagree hd ⊢
      have hfirst : Agree m' m1 c.next item.probe := by
        intro a ha ha'
        rw [hagree a ha (by omega), hframe2 a (by omega)]
      have hlater : Agree m' m2 (c.next + item.probe) (probeSize items) :=
        fun a ha ha' => hagree a (by omega) (by omega)
      rw [map_cons, getItems, hholds m' d hfirst hdnext hdb (hd.mono (by omega))]
      simp only
      rw [hholds2 m' (d.advance item.probe) hlater
        (show d.next + item.probe = c.next + item.probe by rw [hdnext])
        (show d.buffer ≤ d.next + item.probe by omega) (Chunk.Ready.advance hdb hd),
        Chunk.advance_advance, map_cons]

end Cloudpilot.Savestate
