import Cloudpilot.Uarm.Memcpy.Transfers

/-!
# Copies inside the memory

A copy reads up to 4096 bytes before it writes them. As long as neither translations nor
stores to the destination move any address of the two ranges, what is behind an address
changes only by the stores to it.
-/

namespace Cloudpilot.Uarm.Memcpy

open Cloudpilot.Uarm.Cpu Cloudpilot.Uarm.MMU Cloudpilot.Uarm.Pace Cloudpilot.Uarm.PaceMode List
open Cloudpilot.Library

section

variable {δ : Type} (dev : Devices δ)

def InRange (start : Word) (size : ℕ) (a : Word) : Prop := ∃ i < size, a = start + BitVec.ofNat 32 i

/-- The addresses that a copy uses. -/
def Touched (dest src : Word) (size : ℕ) (a : Word) : Prop := InRange dest size a ∨ InRange src size a

/-- The states after some translations and stores of a copy. -/
inductive Copied (s : PaceState δ) (dest src : Word) (size : ℕ) : PaceState δ → Prop
  | refl : Copied s dest src size s
  | translate {t : PaceState δ} {a : Word} : Copied s dest src size t → Touched dest src size a →
      Copied s dest src size (translatedAt dev t a)
  | store {t : PaceState δ} {a pa : Word} (byte : Byte) : Copied s dest src size t →
      InRange dest size a → (translate dev t a false).1 = .ok pa → inRam t.mem pa →
      Copied s dest src size { t with mem := ramStore t.mem pa [byte] }

/-- The bytes from an offset on that go through the buffer together. -/
def leftInScratch (size i : ℕ) : ℕ := min size (i / scratchSize * scratchSize + scratchSize) - i

/-- A copy that meets no device, whose translations and stores move no address of the ranges, and
whose addresses are at different places. -/
structure CopyFits (s : PaceState δ) (dest src : Word) (size : ℕ) : Prop where
  translate : ∀ t, Copied dev s dest src size t → ∀ a, Touched dest src size a → ∀ b,
    Touched dest src size b → (translate dev (translatedAt dev t b) a false).1 = (translate dev t a false).1
  store : ∀ t, Copied dev s dest src size t → ∀ d, InRange dest size d → ∀ pa,
    (Pace.translate dev t d false).1 = .ok pa → inRam t.mem pa → ∀ byte a, Touched dest src size a →
      Undisturbed dev t (ramStore t.mem pa [byte]) a
  distinct : ∀ a, Touched dest src size a → ∀ b, Touched dest src size b → ∀ pa,
    (Pace.translate dev s a false).1 = .ok pa → (Pace.translate dev s b false).1 = .ok pa → a = b
  device : ∀ a, Touched dest src size a → ∀ pa, (Pace.translate dev s a false).1 = .ok pa →
    NoDevice dev s.mem pa
  unwrapped : ∀ i < size, ∀ a, a = dest + BitVec.ofNat 32 i ∨ a = src + BitVec.ofNat 32 i → ∀ pa,
    (Pace.translate dev s a false).1 = .ok pa → Unwrapped pa (leftInScratch size i)

/-- The byte behind an address. -/
def content (s : PaceState δ) (a : Word) : Option Byte := (readByte dev s a).1

end

variable {δ : Type} {dev : Devices δ} {s t u : PaceState δ} {mem : PhysicalMemory δ}
  {dest src a b pa : Word} {size n : ℕ}

theorem content_eq (s : PaceState δ) (a : Word) :
    content dev s a = match (translate dev s a false).1 with
      | .error _ => none
      | .ok pa => (memAccessRead dev s.mem pa 1).1.bind List.head? := by
  rw [content, readByte]
  cases (translate dev s a false).1 <;> rfl

theorem NoDevice.read (h : NoDevice dev mem pa) : (memAccessRead dev mem pa 1).2 = mem := by
  rcases h with hram | hrom | hunserved
  · have hin : regionContains mem.ram.pa mem.ram.sz pa = true := hram
    rw [memAccessRead, if_pos hin]
  · have hout : ¬ regionContains mem.ram.pa mem.ram.sz pa = true := hrom.1
    rw [memAccessRead, if_neg hout, if_pos hrom.2]
  · rw [hunserved.read_fails]

theorem NoDevice.ramStore (h : NoDevice dev mem pa) (place : Word) (data : List Byte) :
    NoDevice dev (ramStore mem place data) pa :=
  h.imp id (Or.imp id fun hunserved =>
    ⟨hunserved.ram, hunserved.rom, hunserved.read, hunserved.write⟩)

namespace Copied

theorem noDevice (h : Copied dev s dest src size t) (hdevice : NoDevice dev s.mem pa) :
    NoDevice dev t.mem pa := by
  induction h with
  | refl => exact hdevice
  | translate _ _ ih => exact ih
  | store _ _ _ _ _ ih => exact ih.ramStore _ _

end Copied

namespace CopyFits

section

variable (hfits : CopyFits dev s dest src size)

include hfits

theorem stable (h : Copied dev s dest src size t) (ha : Touched dest src size a) :
    (Pace.translate dev t a false).1 = (Pace.translate dev s a false).1 := by
  induction h with
  | refl => rfl
  | translate hcopied hb ih => rw [hfits.translate _ hcopied a ha _ hb, ih]
  | store byte hcopied hd hplace hram ih =>
    rw [(hfits.store _ hcopied _ hd _ hplace hram byte a ha).1, ih]

theorem content_translatedAt (h : Copied dev s dest src size t) (ha : Touched dest src size a)
    (hb : Touched dest src size b) : content dev (translatedAt dev t b) a = content dev t a := by
  rw [content_eq, content_eq, hfits.translate t h a ha b hb]
  rfl

theorem content_store (h : Copied dev s dest src size t) (hb : InRange dest size b)
    (hplace : (Pace.translate dev t b false).1 = .ok pa) (hram : inRam t.mem pa) (byte : Byte)
    (ha : Touched dest src size a) : content dev { t with mem := Pace.ramStore t.mem pa [byte] } a =
      if a = b then some byte else content dev t a := by
  have hone : (1 : ℕ) ∈ [1, 2, 4, 8, 16, 32, 64] := mem_cons_self
  rw [content_eq, content_eq, (hfits.store t h b hb pa hplace hram byte a ha).1]
  by_cases heq : a = b
  · subst heq
    have hin : inRam (Pace.ramStore t.mem pa [byte]) pa := hram
    rw [hplace, if_pos rfl]
    dsimp only
    rw [memAccessRead_ram hin hone, range_one, map_singleton, BitVec.add_zero, ramByte_ramStore,
      sub_self]
    rfl
  · rw [if_neg heq]
    cases hother : (Pace.translate dev t a false).1 with
    | error fsr => rfl
    | ok pa' =>
      have hne : pa' ≠ pa := by
        rintro rfl
        rw [hfits.stable h (.inl hb)] at hplace
        rw [hfits.stable h ha] at hother
        exact heq (hfits.distinct a ha b (.inl hb) pa' hother hplace)
      have hfar : (1 : ℕ) ≤ (pa' - pa).toNat := by
        rw [Nat.one_le_iff_ne_zero]
        intro hzero
        apply hne
        bv_omega
      dsimp only
      rcases h.noDevice (hfits.device a ha pa' (by rw [← hfits.stable h ha, hother])) with hr | hr | hr
      · have hin : inRam (Pace.ramStore t.mem pa [byte]) pa' := hr
        rw [memAccessRead_ram hin hone, memAccessRead_ram hr hone, range_one, map_singleton,
          map_singleton, BitVec.add_zero, ramByte_ramStore, getElem?_eq_none hfar]
        rfl
      · have hout : ¬ regionContains t.mem.ram.pa t.mem.ram.sz pa' = true := hr.1
        have hstored : memAccessRead dev (Pace.ramStore t.mem pa [byte]) pa' 1 =
            ((memAccessRead dev t.mem pa' 1).1, Pace.ramStore t.mem pa [byte]) := by
          rw [memAccessRead, memAccessRead, if_neg hout, if_pos hr.2]
          exact (if_neg hout).trans (if_pos hr.2)
        rw [hstored]
      · have hun : Unserved dev (Pace.ramStore t.mem pa [byte]) pa' := ⟨hr.ram, hr.rom, hr.read, hr.write⟩
        rw [hun.read_fails, hr.read_fails]

theorem noDevice_at (h : Copied dev s dest src size t) (ha : Touched dest src size a)
    (hplace : (Pace.translate dev t a false).1 = .ok pa) : NoDevice dev t.mem pa := by
  rw [hfits.stable h ha] at hplace
  exact h.noDevice (hfits.device a ha pa hplace)

end

/-- The places of a range admit a loop over it. -/
def RangeFits (dev : Devices δ) (s : PaceState δ) (start : Word) (n : ℕ) : Prop :=
  ∀ i < n, ∀ pa, (Pace.translate dev s (start + BitVec.ofNat 32 i) false).1 = .ok pa → Unwrapped pa (n - i)

theorem RangeFits.tail (h : RangeFits dev s a (n + 1)) : RangeFits dev s (a + 1#32) n := by
  intro i hi pa hpa
  rw [shift_succ] at hpa
  have hunwrapped := h (i + 1) (by omega) pa hpa
  rwa [Nat.add_sub_add_right] at hunwrapped

section

variable (hfits : CopyFits dev s dest src size)

include hfits

theorem writeByte_cases (h : Copied dev s dest src size t) (ha : InRange dest size a) (byte : Byte)
    : (∃ pa, (Pace.translate dev (translatedAt dev t a) a false).1 = .ok pa ∧
      inRam (translatedAt dev t a).mem pa ∧ writeByte dev false t a byte =
        (true, { translatedAt dev t a with mem := Pace.ramStore t.mem pa [byte] })) ∨
      writeByte dev false t a byte = (false, translatedAt dev t a) := by
  cases hplace : (Pace.translate dev t a false).1 with
  | error fsr =>
    right
    rw [writeByte, hplace]
    rfl
  | ok pa =>
    by_cases hram : inRam t.mem pa
    · left
      exact ⟨pa, (settled_translatedAt hplace).place, hram, writeByte_ram hplace hram byte⟩
    · right
      have hfails := (hfits.noDevice_at h (.inl ha) hplace).write_fails hram [byte]
      rw [writeByte, hplace]
      simp only [hfails]
      rfl

/-- A loop of reads gives what is behind the addresses, and leaves it there. -/
theorem readBytes_content (h : Copied dev s dest src size t)
    (htouched : ∀ i < n, Touched dest src size (a + BitVec.ofNat 32 i)) {bytes : List Byte}
    (hread : (readBytes dev t a n).1 = some bytes) :
    bytes.length = n ∧ (∀ i < n, bytes[i]? = content dev t (a + BitVec.ofNat 32 i)) ∧
      Copied dev s dest src size (readBytes dev t a n).2 ∧
      ∀ b, Touched dest src size b → content dev (readBytes dev t a n).2 b = content dev t b := by
  induction n generalizing t a bytes with
  | zero =>
    cases hread
    exact ⟨rfl, fun i hi => absurd hi (Nat.not_lt_zero i), h, fun b _ => rfl⟩
  | succ n ih =>
    have ha : Touched dest src size a := by simpa using htouched 0 (Nat.succ_pos n)
    have hstate : ∀ byte, (readByte dev t a).1 = some byte → readByte dev t a = (some byte, translatedAt dev t a) := by
      intro byte hbyte
      rw [readByte] at hbyte ⊢
      cases hplace : (Pace.translate dev t a false).1 with
      | error fsr => grind
      | ok pa =>
        rw [hplace] at hbyte
        dsimp only at hbyte ⊢
        rw [hbyte, (hfits.noDevice_at h ha hplace).read]
        rfl
    rw [readBytes] at hread ⊢
    cases hbyte : (readByte dev t a).1 with
    | none =>
      cases hresult : readByte dev t a with
      | mk result u =>
        rw [hresult] at hbyte hread
        cases hbyte
        cases hread
    | some byte =>
      rw [hstate byte hbyte] at hread ⊢
      obtain ⟨rest, hrest, rfl⟩ := Option.map_eq_some_iff.mp hread
      obtain ⟨hlength, hbytes, hcopied, hcontent⟩ := ih (h.translate ha)
        (fun i hi => by rw [shift_succ]; exact htouched (i + 1) (by omega)) hrest
      refine ⟨by rw [length_cons, hlength], fun i hi => ?_, hcopied, fun b hb => ?_⟩
      · cases i with
        | zero => simpa [content] using hbyte.symm
        | succ i =>
          rw [getElem?_cons_succ, hbytes i (by omega), shift_succ]
          exact hfits.content_translatedAt h (htouched (i + 1) hi) ha
      · rw [hcontent b hb]
        exact hfits.content_translatedAt h hb ha

theorem writeBytes_content (h : Copied dev s dest src size t) {data : List Byte}
    (hsize : a.toNat + data.length ≤ 2 ^ 32)
    (hin : ∀ i < data.length, InRange dest size (a + BitVec.ofNat 32 i))
    (hwrite : (writeBytes dev false t a data).1 = true) :
    Copied dev s dest src size (writeBytes dev false t a data).2 ∧
      ∀ b, Touched dest src size b → content dev (writeBytes dev false t a data).2 b =
        data[(b - a).toNat]?.or (content dev t b) := by
  induction data generalizing t a with
  | nil => exact ⟨h, fun b _ => rfl⟩
  | cons byte data ih =>
    rw [length_cons] at hsize hin
    have ha : InRange dest size a := by simpa using hin 0 (Nat.succ_pos _)
    rw [writeBytes] at hwrite ⊢
    rcases hfits.writeByte_cases h ha byte with ⟨pa, hplace, hram, hbyte⟩ | hbyte
    · have htranslated := h.translate (.inl ha)
      have hcopied := htranslated.store byte ha hplace hram
      rw [hbyte] at hwrite ⊢
      obtain ⟨hrest, hcontent⟩ := ih hcopied
        (by rw [BitVec.toNat_add]; change (a.toNat + 1) % 2 ^ 32 + _ ≤ _; omega)
        (fun i hi => by rw [shift_succ]; exact hin (i + 1) (by omega)) hwrite
      refine ⟨hrest, fun b hb => ?_⟩
      have hstored := hfits.content_store htranslated ha hplace hram byte hb
      apply (hcontent b hb).trans
      by_cases heq : b = a
      · subst heq
        have hlast : (b - (b + 1#32)).toNat = 2 ^ 32 - 1 := by simp
        rw [hlast, getElem?_eq_none (by omega), sub_self]
        exact hstored.trans (if_pos rfl)
      · have hnext : (b - a).toNat = (b - (a + 1#32)).toNat + 1 := by bv_omega
        rw [hnext, getElem?_cons_succ]
        congr 1
        exact (hstored.trans (if_neg heq)).trans (hfits.content_translatedAt h hb (.inl ha))
    · grind

end

end CopyFits

theorem offset_add (a : Word) (k i : ℕ) :
    a + BitVec.ofNat 32 k + BitVec.ofNat 32 i = a + BitVec.ofNat 32 (k + i) := by
  rw [add_assoc, ← BitVec.ofNat_add]

namespace CopyFits

/-- The bytes up to an offset have been copied, and the others are still at the source. -/
structure CopiedTo (dev : Devices δ) (s : PaceState δ) (dest src : Word) (size k : ℕ) (t : PaceState δ) :
    Prop where
  reached : Copied dev s dest src size t
  done : ∀ i < k, content dev t (dest + BitVec.ofNat 32 i) = content dev s (src + BitVec.ofNat 32 i)
  rest : ∀ i < size, k ≤ i →
    content dev t (src + BitVec.ofNat 32 i) = content dev s (src + BitVec.ofNat 32 i)

theorem round (hfits : CopyFits dev s dest src size) (hdest : dest.toNat + size ≤ 2 ^ 32)
    (hsrc : src.toNat + size ≤ 2 ^ 32)
    (hforward : src.toNat + size ≤ dest.toNat ∨ dest.toNat ≤ src.toNat) {k : ℕ}
    (hcopied : CopiedTo dev s dest src size k t) (hkn : k + n ≤ size) {bytes : List Byte}
    (hread : (readBytes dev t (src + BitVec.ofNat 32 k) n).1 = some bytes)
    (hwrite : (writeBytes dev false (readBytes dev t (src + BitVec.ofNat 32 k) n).2
      (dest + BitVec.ofNat 32 k) bytes).1 = true) :
    CopiedTo dev s dest src size (k + n)
      (writeBytes dev false (readBytes dev t (src + BitVec.ofNat 32 k) n).2
        (dest + BitVec.ofNat 32 k) bytes).2 := by
  have htouched : ∀ i < n, Touched dest src size (src + BitVec.ofNat 32 k + BitVec.ofNat 32 i) :=
    fun i hi => .inr ⟨k + i, by omega, offset_add src k i⟩
  obtain ⟨hlength, hbytes, hreached, hkept⟩ := hfits.readBytes_content hcopied.reached htouched hread
  rcases Nat.eq_zero_or_pos n with rfl | hn
  · obtain rfl : bytes = [] := length_eq_zero_iff.mp hlength
    refine ⟨hreached, fun i hi => ?_, fun i hi hki => ?_⟩
    · exact (hkept _ (.inl ⟨i, by omega, rfl⟩)).trans (hcopied.done i hi)
    · exact (hkept _ (.inr ⟨i, hi, rfl⟩)).trans (hcopied.rest i hi hki)
  have hstart : (dest + BitVec.ofNat 32 k).toNat = dest.toNat + k := by
    rw [BitVec.toNat_add, BitVec.toNat_ofNat]
    omega
  obtain ⟨hwritten, hcontent⟩ := hfits.writeBytes_content hreached
    (by rw [hstart, hlength]; omega)
    (fun i hi => ⟨k + i, by omega, offset_add dest k i⟩) hwrite
  have hdistance : ∀ b : Word, ∀ i, b.toNat = dest.toNat + k + i → i < n →
      (b - (dest + BitVec.ofNat 32 k)).toNat = i := by
    intro b i hb hi
    rw [BitVec.toNat_sub, hstart]
    omega
  have hfar : ∀ b : Word, (∀ i < n, b.toNat ≠ dest.toNat + k + i) →
      bytes[(b - (dest + BitVec.ofNat 32 k)).toNat]? = none := by
    intro b hb
    apply getElem?_eq_none
    by_contra hlt
    apply hb (b - (dest + BitVec.ofNat 32 k)).toNat (by omega)
    rw [BitVec.toNat_sub, hstart] at hlt ⊢
    omega
  have hindex : ∀ start : Word, start.toNat + size ≤ 2 ^ 32 → ∀ i < size,
      (start + BitVec.ofNat 32 i).toNat = start.toNat + i := by
    intro start hstart i hi
    rw [BitVec.toNat_add, BitVec.toNat_ofNat]
    omega
  refine ⟨hwritten, fun i hi => ?_, fun i hi hki => ?_⟩
  · have hin : Touched dest src size (dest + BitVec.ofNat 32 i) := .inl ⟨i, by omega, rfl⟩
    rw [hcontent _ hin]
    by_cases hold : i < k
    · rw [hfar _ (fun j hj => by rw [hindex dest hdest i (by omega)]; omega), Option.none_or, hkept _ hin]
      exact hcopied.done i hold
    · have hat := hdistance (dest + BitVec.ofNat 32 i) (i - k)
        (by rw [hindex dest hdest i (by omega)]; omega) (by omega)
      have hoffset : src + BitVec.ofNat 32 k + BitVec.ofNat 32 (i - k) = src + BitVec.ofNat 32 i := by
        rw [offset_add, Nat.add_sub_cancel' (by omega)]
      have hbyte := hbytes (i - k) (by omega)
      rw [hoffset, hcopied.rest i (by omega) (by omega)] at hbyte
      have hsome : ∃ byte, bytes[i - k]? = some byte :=
        ⟨_, getElem?_eq_getElem (by omega)⟩
      obtain ⟨byte, hsome⟩ := hsome
      rw [hat, hsome, Option.some_or, ← hbyte, hsome]
  · have hin : Touched dest src size (src + BitVec.ofNat 32 i) := .inr ⟨i, hi, rfl⟩
    rw [hcontent _ hin, hfar _ (fun j hj => by rw [hindex src hsrc i hi]; omega), Option.none_or,
      hkept _ hin]
    exact hcopied.rest i hi (by omega)

end CopyFits

end Cloudpilot.Uarm.Memcpy
