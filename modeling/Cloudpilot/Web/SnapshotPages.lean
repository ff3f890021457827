import Cloudpilot.Web.CardRoundTrip
import Cloudpilot.Web.SnapshotService

/-! # Pages of a snapshot

What the loops over the marked pages do: the marks move from the emulator to the service, and the
transaction comes to hold the array, whatever it held of the pages that were not marked.
-/
namespace Cloudpilot.Web
open Library Library.TypedArray Library.LittleEndian Library.PagedArray List

section Keeps

variable {f : PageFormat} {store : ObjectStore Key StoredPage} {id w : ℕ} {a : List Word}
  {v : Word} {marks marks' : ℕ → Prop}

/-- All records can be read, and a page that differs from the array is marked. -/
structure PageFormat.Keeps (f : PageFormat) (store : ObjectStore Key StoredPage) (id : ℕ)
    (a : List Word) (marks : ℕ → Prop) : Prop where
  sound : f.Sound store id a.length
  covered : Covered (f.stored store id a.length) (fun i => page f.size i a) marks

theorem PageFormat.Holds.keeps (h : f.Holds store id a) (marks : ℕ → Prop) :
    f.Keeps store id a marks :=
  ⟨h.sound, fun i hi => absurd (h.stored i) hi⟩

theorem PageFormat.Keeps.mono (h : f.Keeps store id a marks) (hmarks : ∀ i, marks i → marks' i) :
    f.Keeps store id a marks' :=
  ⟨h.sound, h.covered.mono hmarks⟩

theorem PageFormat.Keeps.set (h : f.Keeps store id a marks) (hmarks : ∀ i, marks i → marks' i)
    (hwrite : marks' (w / f.size)) : f.Keeps store id (a.set w v) marks' := by
  constructor
  · rw [length_set]
    exact h.sound
  · rw [length_set]
    apply h.covered.write hmarks
    intro i hi
    by_cases hpage : i = w / f.size
    · grind
    · exact absurd (page_set_of_ne hpage) hi

end Keeps

/-- The bytes in front of a number have been merged. -/
structure Merged (s₀ : Saving) (i : ℕ) (s : Saving) : Prop where
  dirtyPages : ∀ j, s.dirtyPages j =
    if j < i then s₀.dirtyPages j ||| s₀.emulator j else s₀.dirtyPages j
  emulator : ∀ j, s.emulator j = if j < i then 0#8 else s₀.emulator j

namespace Merged

variable {s₀ s s' : Saving} {i p : ℕ}

theorem start (s₀ : Saving) : Merged s₀ 0 s₀ :=
  ⟨fun j => (if_neg (Nat.not_lt_zero j)).symm, fun j => (if_neg (Nat.not_lt_zero j)).symm⟩

theorem merge (h : Merged s₀ i s) : Merged s₀ (i + 1) (s.merge i) := by
  constructor
  · intro j
    change Function.update s.dirtyPages i (s.dirtyPages i ||| s.emulator i) j = _
    by_cases hj : j = i
    · grind [Function.update_self, h.dirtyPages, h.emulator]
    · rw [Function.update_of_ne hj, h.dirtyPages]
      by_cases hlt : j < i <;> grind
  · intro j
    change Function.update s.emulator i 0#8 j = _
    by_cases hj : j = i
    · grind
    · rw [Function.update_of_ne hj, h.emulator]
      by_cases hlt : j < i <;> grind

theorem congr (h : Merged s₀ i s) (hdirty : s'.dirtyPages = s.dirtyPages)
    (hemulator : s'.emulator = s.emulator) : Merged s₀ i s' := by
  constructor
  · rw [hdirty]
    exact h.dirtyPages
  · rw [hemulator]
    exact h.emulator

theorem marked (h : Merged s₀ i s)
    (hp : Bitmap.marked s₀.emulator p ∨ Bitmap.marked s₀.dirtyPages p) :
    Bitmap.marked s.emulator p ∨ Bitmap.marked s.dirtyPages p := by
  rw [Bitmap.marked, Bitmap.marked, h.emulator, h.dirtyPages]
  split_ifs with hlt
  · right
    rw [BitVec.getLsbD_or, Bool.or_eq_true]
    exact hp.symm
  · exact hp

end Merged

section Loop

variable {f : PageFormat} {id total length i : ℕ} {new : List Word}
  {Pool : List (List Word) → ℕ → Prop} {savePage : Saving → ℕ → Except Saving Saving}
  {s₀ : Saving}

/-- A body of the loop: it puts a record for the page, and keeps the buffers as they have to be. -/
def SavesPage (f : PageFormat) (id : ℕ) (new : List Word) (Pool : List (List Word) → ℕ → Prop)
    (savePage : Saving → ℕ → Except Saving Saving) : Prop :=
  ∀ s p, p * f.size < new.length → Pool s.pool s.iPool →
    Ensures (savePage s p)
      (fun s' => (s'.dirtyPages = s.dirtyPages ∧ s'.emulator = s.emulator ∧
          Pool s'.pool s'.iPool) ∧
        ∃ v, f.Fits (f.viewLength new.length p) v ∧
          f.decode (f.viewLength new.length p) v = page f.size p new ∧
          s'.store = s.store.put v (key id p))
      fun s' => s'.dirtyPages = s.dirtyPages ∧ s'.emulator = s.emulator ∧ Pool s'.pool s'.iPool

/-- What holds in front of a page. -/
structure Saves.Reached (f : PageFormat) (id : ℕ) (new : List Word)
    (Pool : List (List Word) → ℕ → Prop) (s₀ : Saving) (i p : ℕ) (s : Saving) : Prop where
  merged : Merged s₀ i s
  pool : Pool s.pool s.iPool
  flushed : f.Flushed (f.stored s₀.store id new.length) new id p s.store

theorem saveByte_ensures (htotal : ∀ p, p < total ↔ p * f.size < new.length)
    (hsave : SavesPage f id new Pool savePage)
    (hkeeps : f.Keeps s₀.store id new
      (Bitmap.marked fun i => s₀.dirtyPages i ||| s₀.emulator i))
    {s : ℕ × Saving} (hpage : ReachedPage total (8 * i) s.1)
    (h : Saves.Reached f id new Pool s₀ i (8 * i) s.2) :
    Ensures (saveByte total savePage s i)
      (fun s' => ReachedPage total (8 * (i + 1)) s'.1 ∧
        Saves.Reached f id new Pool s₀ (i + 1) (8 * (i + 1)) s'.2)
      fun s' => ∃ i, Merged s₀ i s' ∧ Pool s'.pool s'.iPool := by
  have hstart : ReachedPage total (8 * i) (s.1, s.2.merge i).1 := hpage
  have hmerged : Saves.Reached f id new Pool s₀ (i + 1) (8 * i) (s.1, s.2.merge i).2 :=
    ⟨h.merged.merge, h.pool, h.flushed⟩
  have hbyte : (s.2.merge i).dirtyPages i =
      (fun i => s₀.dirtyPages i ||| s₀.emulator i) i := by
    rw [hmerged.merged.dirtyPages, if_pos (Nat.lt_succ_self i)]
  have hskip : ∀ p s,
      ¬ (p < total ∧ Bitmap.marked (fun i => s₀.dirtyPages i ||| s₀.emulator i) p) →
        Saves.Reached f id new Pool s₀ (i + 1) p s →
          Saves.Reached f id new Pool s₀ (i + 1) (p + 1) s := by
    intro p s hno hs
    refine ⟨hs.merged, hs.pool, hs.flushed.skip ?_⟩
    by_cases hp : p < total
    · exact not_not.mp fun hne => hno ⟨hp, hkeeps.covered p hne⟩
    · have hbehind : new.length ≤ p * f.size := not_lt.mp fun hlt => hp ((htotal p).mpr hlt)
      rw [hkeeps.sound.stored_of_le hbehind, page_of_length_le hbehind]
  rw [saveByte]
  split_ifs with hzero
  · exact visitByte_zero hstart hmerged (hbyte.symm.trans hzero) hskip
  · rw [hbyte]
    apply visitByte_ensures hstart hmerged hskip
    intro p s hp _ _ hs
    have hinside : p * f.size < new.length := (htotal p).mp hp
    apply (hsave s p hinside hs.pool).imp
    · rintro s' ⟨⟨hdirty, hemulator, hpool⟩, v, hfits, hdecode, hstore⟩
      refine ⟨hs.merged.congr hdirty hemulator, hpool, ?_⟩
      rw [hstore]
      exact hs.flushed.put hinside hfits hdecode
    · rintro s' ⟨hdirty, hemulator, hpool⟩
      exact ⟨i + 1, hs.merged.congr hdirty hemulator, hpool⟩

/-- Whether the loop ends or throws, no mark is lost, and where it ends the array is stored. -/
theorem saveDirtyPages_ensures (htotal : ∀ p, p < total ↔ p * f.size < new.length)
    (hbytes : total ≤ 8 * length) (hsave : SavesPage f id new Pool savePage)
    (hkeeps : f.Keeps s₀.store id new fun p =>
      Bitmap.marked s₀.emulator p ∨ Bitmap.marked s₀.dirtyPages p)
    (hpool : Pool s₀.pool s₀.iPool) :
    Ensures (saveDirtyPages total length savePage s₀)
      (fun s' => (∃ i, Merged s₀ i s'.2 ∧ Pool s'.2.pool s'.2.iPool) ∧
        f.Holds s'.2.store id new)
      fun s' => ∃ i, Merged s₀ i s' ∧ Pool s'.pool s'.iPool := by
  have hmarks : f.Keeps s₀.store id new
      (Bitmap.marked fun i => s₀.dirtyPages i ||| s₀.emulator i) :=
    hkeeps.mono fun p hp => Bitmap.marked_or.mpr hp.symm
  have hloop : Ensures (saveDirtyPages total length savePage s₀)
      (fun s' => ReachedPage total (8 * length) s'.1 ∧
        Saves.Reached f id new Pool s₀ length (8 * length) s'.2)
      fun s' => ∃ i, Merged s₀ i s' ∧ Pool s'.pool s'.iPool := by
    apply Ensures.foldlM_range (I := fun i (s : ℕ × Saving) =>
      ReachedPage total (8 * i) s.1 ∧ Saves.Reached f id new Pool s₀ i (8 * i) s.2)
    · exact ⟨⟨le_rfl, min_le_left _ _⟩, .start s₀, hpool, .start hkeeps.sound fun _ => rfl⟩
    · rintro i - s ⟨hpage, hs⟩
      exact saveByte_ensures htotal hsave hmarks hpage hs
  apply hloop.imp
  · rintro s' ⟨-, hs⟩
    refine ⟨⟨length, hs.merged, hs.pool⟩, hs.flushed.holds ?_⟩
    intro i hi
    exact lt_of_lt_of_le ((htotal i).mpr hi) hbytes
  · simp

end Loop

section Page

variable {id count : ℕ} {a : List Word}

theorem Saving.put_ensures (s : Saving) (v : StoredPage) (k : Key) :
    Ensures (s.put v k)
      (fun s' => s' = { s with store := s.store.put v k, requests := s.requests - 1 })
      fun s' => s' = s := by
  rw [Saving.put]
  split_ifs <;> exact rfl

/-- One buffer for a page. -/
def MemoryPool (count : ℕ) (pool : List (List Word)) (_ : ℕ) : Prop :=
  pool.length = count ∧ ∀ buffer ∈ pool, buffer.length = 256

/-- As many buffers as have been needed. -/
def CardPool (pool : List (List Word)) (iPool : ℕ) : Prop :=
  iPool ≤ pool.length ∧ ∀ buffer ∈ pool, buffer.length = 2048

theorem length_getD {pool : List (List Word)} {n p : ℕ} (hpool : ∀ buffer ∈ pool, buffer.length = n)
    (hp : p < pool.length) : (pool.getD p []).length = n := by
  rw [getD_eq_getElem?_getD, getElem?_eq_getElem hp]
  exact hpool _ (getElem_mem hp)

theorem mem_set_length {pool : List (List Word)} {n p : ℕ} {b : List Word}
    (hpool : ∀ buffer ∈ pool, buffer.length = n) (hb : b.length = n) :
    ∀ buffer ∈ pool.set p b, buffer.length = n := by
  intro buffer hbuffer
  rcases mem_or_eq_of_mem_set hbuffer with hold | rfl
  · grind
  · exact hb

theorem saveDirtyMemoryPage_saves (ha : a.length = 256 * count) :
    SavesPage memoryFormat id a (MemoryPool count) (saveDirtyMemoryPage id a) := by
  rintro s p hp ⟨hcount, hbuffers⟩
  have hinside : p * 256 < a.length := hp
  have hview : memoryFormat.viewLength a.length p = 256 :=
    Nat.min_eq_left (show 256 ≤ a.length - p * 256 by omega)
  have hlength : (page 256 p a).length = 256 := (length_page 256 p a).trans hview
  obtain ⟨hfits, hdecode⟩ := compressPage_decode hlength
  rw [hview, saveDirtyMemoryPage, subarray_page]
  rcases compressPage_cases (page 256 p a) with hwords | ⟨value, hnumber, -⟩
  · rw [hwords] at hfits hdecode ⊢
    dsimp only
    have hbuffer : (s.pool.getD p []).length = 256 := length_getD hbuffers (by omega)
    rw [overwrite_all (hlength.trans hbuffer.symm)]
    apply (Saving.put_ensures _ _ _).imp
    · rintro _ rfl
      exact ⟨⟨rfl, rfl, (length_set ..).trans hcount, mem_set_length hbuffers hlength⟩, _, hfits,
        hdecode, rfl⟩
    · rintro _ rfl
      exact ⟨rfl, rfl, (length_set ..).trans hcount, mem_set_length hbuffers hlength⟩
  · rw [hnumber] at hfits hdecode ⊢
    apply (Saving.put_ensures _ _ _).imp
    · rintro _ rfl
      exact ⟨⟨rfl, rfl, hcount, hbuffers⟩, _, hfits, hdecode, rfl⟩
    · rintro _ rfl
      exact ⟨rfl, rfl, hcount, hbuffers⟩

theorem decode_buffer {buffer : List Word} (hbuffer : buffer.length = 2048) (p : ℕ) :
    (overwrite buffer 0 (page 2048 p a)).length = 2048 ∧
      cardFormat.Fits (cardFormat.viewLength a.length p)
        (.words (overwrite buffer 0 (page 2048 p a))) ∧
      cardFormat.decode (cardFormat.viewLength a.length p)
        (.words (overwrite buffer 0 (page 2048 p a))) = page 2048 p a := by
  have hview : (page 2048 p a).length = cardFormat.viewLength a.length p := length_page 2048 p a
  have hle : cardFormat.viewLength a.length p ≤ 2048 := Nat.min_le_left _ _
  have hlength : (overwrite buffer 0 (page 2048 p a)).length = 2048 := by
    rw [length_overwrite (by omega), hbuffer]
  refine ⟨hlength, ⟨hle.trans_eq hlength.symm, hlength.le⟩, ?_⟩
  rw [← hview]
  exact take_overwrite_zero _ _

theorem CardPool.grow {pool : List (List Word)} {iPool : ℕ} (h : CardPool pool iPool) :
    CardPool (if iPool ≥ pool.length then pool ++ [List.replicate 2048 0#32] else pool) iPool ∧
      iPool < (if iPool ≥ pool.length then pool ++ [List.replicate 2048 0#32] else pool).length := by
  obtain ⟨hle, hbuffers⟩ := h
  split_ifs with hfull
  · rw [CardPool, length_append, length_singleton]
    refine ⟨⟨by omega, ?_⟩, by omega⟩
    intro buffer hbuffer
    rcases mem_append.mp hbuffer with hold | hnew
    · exact hbuffers buffer hold
    · grind
  · exact ⟨⟨hle, hbuffers⟩, not_le.mp hfull⟩

theorem saveDirtyStoragePage_saves :
    SavesPage cardFormat id a CardPool (saveDirtyStoragePage id a) := by
  intro s p hp hpool
  obtain ⟨⟨-, hbuffers⟩, hlt⟩ := hpool.grow
  rw [saveDirtyStoragePage, subarray_page]
  generalize (if s.iPool ≥ s.pool.length then s.pool ++ [replicate 2048 0#32]
    else s.pool) = pool at hbuffers hlt ⊢
  obtain ⟨hlength, hfits, hdecode⟩ := decode_buffer (a := a) (length_getD hbuffers hlt) p
  have hnext : CardPool (pool.set s.iPool (overwrite (pool.getD s.iPool []) 0 (page 2048 p a)))
      (s.iPool + 1) :=
    ⟨hlt.trans_eq (length_set ..).symm, mem_set_length hbuffers hlength⟩
  apply (Saving.put_ensures _ _ _).imp
  · rintro _ rfl
    exact ⟨⟨rfl, rfl, hnext⟩, _, hfits, hdecode, rfl⟩
  · grind

end Page

end Cloudpilot.Web
