import Cloudpilot.Library.Words
import Cloudpilot.Uarm.Lcd.PxaLcd

/-! # Marks of writes to RAM

A write to RAM marks the pages that it touches for the next snapshot, and the framebuffer if
it reaches it. The RAM is allocated in pages of 512 bytes with one bit for each of them.
-/
namespace Cloudpilot.Uarm.Lcd
open Cpu Cloudpilot.Library Option Nat

def pageCount (size : ℕ) : ℕ := if size / 512 * 512 < size then size / 512 + 1 else size / 512

/-- The words of the bitmap. -/
def dirtyPageCount4 (size : ℕ) : ℕ :=
  if pageCount size / 32 * 32 < pageCount size then pageCount size / 32 + 1 else pageCount size / 32

def bufferSize (size : ℕ) : ℕ := pageCount size * 512

structure RamBuffer (size count4 : ℕ) where
  buffer : Vector Byte size
  dirtyPages : Vector Word count4

def ramBufferAllocate (size : ℕ) : RamBuffer (bufferSize size) (dirtyPageCount4 size) :=
  ⟨.replicate _ 0, .replicate _ 0⟩

namespace RamBuffer

variable {size count4 : ℕ} {buf buf' : RamBuffer size count4} {addr : Word} {page offset : ℕ} {bytes : List Byte}

/-- `RAM_BUFFER_MARK_DIRTY`. -/
def markDirty (buf : RamBuffer size count4) (addr : Word) : Option (RamBuffer size count4) :=
  let i := (addr >>> 14).toNat
  if h : i < count4 then
    some { buf with
      dirtyPages := buf.dirtyPages.set i
        (buf.dirtyPages[i] ||| 1#32 <<< ((addr >>> 9) &&& 0x1f).toNat) }
  else none

def store (buf : RamBuffer size count4) (offset : ℕ) (bytes : List Byte) : Option (RamBuffer size count4) :=
  if offset + bytes.length ≤ size then
    some { buf with
      buffer := Vector.ofFn fun k =>
        if offset ≤ k then bytes.getD (k - offset) buf.buffer[k] else buf.buffer[k] }
  else none

/-- The bit of a page is set. -/
def dirty (buf : RamBuffer size count4) (page : ℕ) : Prop :=
  ((buf.dirtyPages[page / 32]?).getD 0).getLsbD (page % 32) = true

theorem toNat_page (addr : Word) :
    (addr >>> 14).toNat = addr.toNat / 512 / 32 ∧
      ((addr >>> 9) &&& 0x1f).toNat = addr.toNat / 512 % 32 := by
  constructor
  · rw [BitVec.toNat_ushiftRight, shiftRight_eq_div_pow]
    omega
  · have hmask : ((addr >>> 9) &&& 0x1f).toNat = (addr >>> 9).toNat % 32 :=
      and_two_pow_sub_one_eq_mod _ 5
    rw [hmask, BitVec.toNat_ushiftRight, shiftRight_eq_div_pow]

theorem dirty_markDirty (h : buf.markDirty addr = some buf') :
    buf'.dirty page ↔ page = addr.toNat / 512 ∨ buf.dirty page := by
  obtain ⟨hword, hbit⟩ := toNat_page addr
  have hlt : addr.toNat / 512 % 32 < 32 := mod_lt _ (by decide)
  unfold markDirty at h
  dsimp only at h
  split at h
  · rename_i hinside
    cases h
    unfold dirty
    by_cases hsame : page / 32 = (addr >>> 14).toNat
    · rw [hsame, Vector.getElem?_set_self, Vector.getElem?_eq_getElem hinside, getD_some,
        getD_some, BitVec.getLsbD_or, Bool.or_eq_true, hbit, BitTest.getLsbD_bit hlt,
        decide_eq_true_iff, or_comm]
      have hpage : page % 32 = addr.toNat / 512 % 32 ↔ page = addr.toNat / 512 := by
        omega
      rw [hpage]
    · rw [Vector.getElem?_set_ne _ (Ne.symm hsame)]
      have hne : page ≠ addr.toNat / 512 := by omega
      simp [hne]
  · cases h

theorem dirty_store (h : buf.store offset bytes = some buf') : buf'.dirty page ↔ buf.dirty page := by
  unfold store at h
  split at h
  · cases h
    rfl
  · cases h

theorem length_store (h : buf.store offset bytes = some buf') :
    offset + bytes.length ≤ size := by
  unfold store at h
  split at h
  · assumption
  · cases h

end RamBuffer

structure Ram (size count4 : ℕ) where
  ram : ArmRam
  buf : RamBuffer size count4

namespace Ram

variable {size count4 : ℕ}

/-- Wide writes need not be aligned to their size, so that their last byte is marked as well. -/
def markLast (buf : RamBuffer size count4) (offset : Word) : ℕ → Option (RamBuffer size count4)
  | 64 => if offset &&& 0x3f ≠ 0 then buf.markDirty (offset + 0x3f) else some buf
  | 32 => if offset &&& 0x1f ≠ 0 then buf.markDirty (offset + 0x1f) else some buf
  | 16 => if offset &&& 0x0f ≠ 0 then buf.markDirty (offset + 0x0f) else some buf
  | _ => some buf

/-- The write accesses of `ramAccessF`, with the calls of `socSetFramebufferDirty`. None is for
sizes that are not supported and for accesses outside of the buffers. -/
def ramAccessF (m : Ram size count4) (pa : Word) (bytes : List Byte) : Option (Bool × Ram size count4) := do
  let offset := pa - m.ram.adr
  let buf ← m.buf.markDirty offset
  let start ← m.ram.startFor bytes.length
  let buf ← markLast buf offset bytes.length
  let buf ← buf.store offset.toNat bytes
  return (m.ram.marks offset start, { m with buf := buf })

variable {m m' : Ram size count4} {buf buf' : RamBuffer size count4} {addr pa offset start : Word}
  {bytes : List Byte} {calls : Bool} {page len k : ℕ}

theorem ramAccessF_eq_some : m.ramAccessF pa bytes = some (calls, m') ↔
    ∃ first start last stored, m.buf.markDirty (pa - m.ram.adr) = some first ∧
      m.ram.startFor bytes.length = some start ∧
      markLast first (pa - m.ram.adr) bytes.length = some last ∧
      last.store (pa - m.ram.adr).toNat bytes = some stored ∧
      calls = m.ram.marks (pa - m.ram.adr) start ∧ m' = { m with buf := stored } := by
  unfold ramAccessF
  simp only [bind_eq_bind, bind_eq_some_iff, pure_def, some.injEq,
    Prod.mk.injEq]
  constructor
  · rintro ⟨first, hfirst, start, hstart, last, hlast, stored, hstored, hcalls, hm⟩
    exact ⟨first, start, last, stored, hfirst, hstart, hlast, hstored, hcalls.symm, hm.symm⟩
  · rintro ⟨first, start, last, stored, hfirst, hstart, hlast, hstored, rfl, rfl⟩
    exact ⟨first, hfirst, start, hstart, last, hlast, stored, hstored, rfl, rfl⟩

theorem size_of_startFor {ram : ArmRam} (h : ram.startFor len = some start) :
    len = 1 ∨ len = 2 ∨ len = 4 ∨ len = 8 ∨ len = 16 ∨ len = 32 ∨ len = 64 := by
  unfold ArmRam.startFor at h
  split at h
  case h_8 => cases h
  all_goals simp

theorem markDirty_accepts (h : addr.toNat < 16384 * count4) : ∃ buf', buf.markDirty addr = some buf' := by
  have hword : (addr >>> 14).toNat < count4 := by
    rw [(RamBuffer.toNat_page addr).1]
    omega
  unfold RamBuffer.markDirty
  rw [dif_pos hword]
  exact ⟨_, rfl⟩

theorem ramAccessF_accepts (m : Ram size count4) (hstart : m.ram.startFor bytes.length = some start)
    (hfits : (pa - m.ram.adr).toNat + bytes.length ≤ size) (hsize : size ≤ 2 ^ 32)
    (hcount4 : size ≤ 16384 * count4) :
    ∃ m', m.ramAccessF pa bytes = some (m.ram.marks (pa - m.ram.adr) start, m') := by
  have hlen := size_of_startFor hstart
  have hadd (k : ℕ) (hk : k < bytes.length) :
      (pa - m.ram.adr + BitVec.ofNat 32 k).toNat < 16384 * count4 := by
    have hsmall : k < 2 ^ 32 := by omega
    rw [BitVec.toNat_add, BitVec.toNat_ofNat, mod_eq_of_lt hsmall]
    omega
  obtain ⟨first, hfirst⟩ : ∃ first, m.buf.markDirty (pa - m.ram.adr) = some first :=
    markDirty_accepts (by omega)
  obtain ⟨last, hlast⟩ : ∃ last, markLast first (pa - m.ram.adr) bytes.length = some last := by
    unfold markLast
    split
    · split
      · exact markDirty_accepts (hadd 0x3f (by omega))
      · simp
    · split
      · exact markDirty_accepts (hadd 0x1f (by omega))
      · simp
    · split
      · exact markDirty_accepts (hadd 0x0f (by omega))
      · simp
    · simp
  obtain ⟨stored, hstored⟩ : ∃ stored, last.store (pa - m.ram.adr).toNat bytes = some stored := by
    rw [RamBuffer.store, if_pos hfits]
    exact ⟨_, rfl⟩
  exact ⟨{ m with buf := stored },
    ramAccessF_eq_some.mpr ⟨first, start, last, stored, hfirst, hstart, hlast, hstored, rfl, rfl⟩⟩

theorem offset_mask (offset : Word) (k : ℕ) (hk : k < 32) :
    offset &&& BitVec.ofNat 32 (2 ^ k - 1) ≠ 0 ↔ offset.toNat % 2 ^ k ≠ 0 := by
  have hpow : 2 ^ k < 2 ^ 32 := Nat.pow_lt_pow_right (by decide) hk
  have hnat : (offset &&& BitVec.ofNat 32 (2 ^ k - 1)).toNat = offset.toNat % 2 ^ k := by
    rw [BitVec.toNat_and, BitVec.toNat_ofNat, Nat.mod_eq_of_lt (by omega),
      Nat.and_two_pow_sub_one_eq_mod]
  rw [← hnat, Ne, BitVec.toNat_eq]
  rfl

theorem markLast_spec (h : markLast buf offset len = some buf') :
    (∀ page, buf.dirty page → buf'.dirty page) ∧
      (len = 16 ∨ len = 32 ∨ len = 64 → offset.toNat % len ≠ 0 →
        buf'.dirty ((offset + BitVec.ofNat 32 (len - 1)).toNat / 512)) := by
  have hwide (mask : Word) (h : (if offset &&& mask ≠ 0 then buf.markDirty (offset + mask)
      else some buf) = some buf') : (∀ page, buf.dirty page → buf'.dirty page) ∧
        (offset &&& mask ≠ 0 → buf'.dirty ((offset + mask).toNat / 512)) := by
    split at h
    · constructor
      · intro page hpage
        exact (RamBuffer.dirty_markDirty h).mpr (Or.inr hpage)
      · intro _
        exact (RamBuffer.dirty_markDirty h).mpr (Or.inl rfl)
    · cases h
      exact ⟨fun page hpage => hpage, fun hmask => absurd hmask (by assumption)⟩
  unfold markLast at h
  split at h
  · obtain ⟨hkept, hlast⟩ := hwide _ h
    exact ⟨hkept, fun _ hmod => hlast ((offset_mask offset 6 (by decide)).mpr hmod)⟩
  · obtain ⟨hkept, hlast⟩ := hwide _ h
    exact ⟨hkept, fun _ hmod => hlast ((offset_mask offset 5 (by decide)).mpr hmod)⟩
  · obtain ⟨hkept, hlast⟩ := hwide _ h
    exact ⟨hkept, fun _ hmod => hlast ((offset_mask offset 4 (by decide)).mpr hmod)⟩
  · cases h
    rename_i h64 h32 h16
    refine ⟨fun page hpage => hpage, fun hlen => ?_⟩
    obtain hlen | hlen | hlen := hlen <;> grind

theorem dirty_of_written (h : m.ramAccessF pa bytes = some (calls, m')) (hsize : size ≤ 2 ^ 32)
    (haligned : (pa - m.ram.adr).toNat % min bytes.length 8 = 0) (hle : (pa - m.ram.adr).toNat ≤ k)
    (hlt : k < (pa - m.ram.adr).toNat + bytes.length) : m'.buf.dirty (k / 512) := by
  obtain ⟨first, start, last, stored, hfirst, hstart, hlast, hstored, -, rfl⟩ := ramAccessF_eq_some.mp h
  obtain ⟨hkept, hend⟩ := markLast_spec hlast
  have hfits := RamBuffer.length_store hstored
  have hlen := size_of_startFor hstart
  rw [RamBuffer.dirty_store hstored]
  by_cases hpage : k / 512 = (pa - m.ram.adr).toNat / 512
  · exact hkept _ ((RamBuffer.dirty_markDirty hfirst).mpr (Or.inl hpage))
  · generalize pa - m.ram.adr = offset at *
    have hlastByte : (offset + BitVec.ofNat 32 (bytes.length - 1)).toNat =
        offset.toNat + (bytes.length - 1) := by
      have hsmall : bytes.length - 1 < 2 ^ 32 := by omega
      rw [BitVec.toNat_add, BitVec.toNat_ofNat, mod_eq_of_lt hsmall]
      omega
    have hwide : bytes.length = 16 ∨ bytes.length = 32 ∨ bytes.length = 64 := by
      by_contra hnarrow
      have hmin : min bytes.length 8 = bytes.length := by omega
      rw [hmin] at haligned
      obtain heq | heq | heq | heq : bytes.length = 1 ∨ bytes.length = 2 ∨ bytes.length = 4 ∨
          bytes.length = 8 := by omega
      all_goals
        rw [heq] at haligned hlt
        omega
    have hmod : offset.toNat % bytes.length ≠ 0 := by
      obtain heq | heq | heq := hwide
      all_goals
        rw [heq] at hlt ⊢
        omega
    have hcrossed : k / 512 = (offset.toNat + (bytes.length - 1)) / 512 := by omega
    rw [hcrossed, ← hlastByte]
    exact hend hwide hmod

end Ram

/-- What `socSetFramebuffer` returns, and the RAM. -/
def socSetFramebuffer (ram : ArmRam) (start size : Word) : Bool × ArmRam :=
  (Screen.trackedSize start size ≠ 0, ramSetFramebuffer ram start (Screen.trackedSize start size))

namespace ArmRam

variable {ram : ArmRam} {base size start offset : Word} {len : ℕ}

/-- A write of some bytes reaches the framebuffer. -/
def Intersects (ram : ArmRam) (offset len : ℕ) : Prop :=
  ∃ k, (offset ≤ k ∧ k < offset + len) ∧
    ram.framebufferStart.toNat ≤ k ∧ k < ram.framebufferEnd.toNat

theorem startFor_ramSetFramebuffer (hsize : size > 0)
    (h : (ramSetFramebuffer ram base size).startFor len = some start) :
    start = (ramSetFramebuffer ram base size).framebufferStart -
      if len = 1 then 0 else BitVec.ofNat 32 len := by
  rw [ramSetFramebuffer, if_pos hsize] at h ⊢
  unfold startFor at h
  split at h
  case h_1 => grind
  case h_8 => cases h
  all_goals
    cases h
    rfl

theorem framebufferEnd_le (h : (socSetFramebuffer ram base size).1 = true) (hadr : ram.adr = ramBase) :
    Screen.trackedSize base size > 0 ∧
      (socSetFramebuffer ram base size).2.framebufferEnd ≤ deviceGetRamSize := by
  have hne : Screen.trackedSize base size ≠ 0 := of_decide_eq_true h
  have hpos : Screen.trackedSize base size > 0 := by
    have hnat : (Screen.trackedSize base size).toNat ≠ 0 := fun hzero =>
      hne (BitVec.eq_of_toNat_eq hzero)
    exact pos_of_ne_zero hnat
  refine ⟨hpos, ?_⟩
  have hend : (socSetFramebuffer ram base size).2.framebufferEnd =
      base - ramBase + Screen.trackedSize base size := by
    rw [socSetFramebuffer, ramSetFramebuffer, if_pos hpos, hadr]
  rw [hend]
  unfold Screen.trackedSize at hne ⊢
  split at hne
  · exact absurd rfl hne
  · rename_i hinside
    rw [if_neg hinside]
    exact BitVec.not_lt.mp (not_or.mp hinside).2

theorem marks_iff (h : ram.Intersects offset.toNat len) (hend : ram.framebufferEnd ≤ deviceGetRamSize)
    (hlen : len ≤ 64)
    (hstart : start = ram.framebufferStart - if len = 1 then 0 else BitVec.ofNat 32 len) :
    ram.marks offset start = true ↔ len = 1 ∨ len ≤ ram.framebufferStart.toNat := by
  obtain ⟨k, ⟨hle, hlt⟩, hafter, hbefore⟩ := h
  have hram : deviceGetRamSize.toNat = 16777216 := rfl
  rw [BitVec.le_def, hram] at hend
  rw [marks, decide_eq_true_iff, BitVec.lt_def, ge_iff_le, BitVec.le_def]
  by_cases hone : len = 1
  · have hsame : start = ram.framebufferStart := by
      rw [hstart, if_pos hone]
      exact BitVec.sub_zero _
    rw [hsame]
    omega
  · rw [if_neg hone] at hstart
    have hnat : start.toNat = (2 ^ 32 - len + ram.framebufferStart.toNat) % 2 ^ 32 := by
      have hsmall : len < 2 ^ 32 := by omega
      rw [hstart, BitVec.toNat_sub, BitVec.toNat_ofNat, mod_eq_of_lt hsmall]
    omega

end ArmRam

namespace Ram

abbrev Main : Type := Ram (bufferSize deviceGetRamSize.toNat) (dirtyPageCount4 deviceGetRamSize.toNat)

variable {m m' : Main} {start size pa : Word} {bytes : List Byte} {calls : Bool}

/-- The RAM with another framebuffer. -/
def withFramebuffer (m : Main) (start size : Word) : Main :=
  { m with ram := (socSetFramebuffer m.ram start size).2 }

/-- Every page with a byte of the write. -/
def PagesMarked (m : Main) (offset len : ℕ) : Prop :=
  ∀ k, offset ≤ k ∧ k < offset + len → m.buf.dirty (k / 512)

/-- A write marks what it reaches, except that the framebuffer is missed by writes of several bytes
if it starts less than their size into the RAM. -/
theorem write_marks_iff (hadr : m.ram.adr = ramBase)
    (haccepted : (socSetFramebuffer m.ram start size).1 = true)
    (haligned : (pa - ramBase).toNat % min bytes.length 8 = 0)
    (hwrite : (m.withFramebuffer start size).ramAccessF pa bytes = some (calls, m')) :
    (m'.PagesMarked (pa - ramBase).toNat bytes.length ∧
      (m'.ram.Intersects (pa - ramBase).toNat bytes.length → calls = true)) ↔
    (m'.ram.Intersects (pa - ramBase).toNat bytes.length →
      bytes.length = 1 ∨ bytes.length ≤ m'.ram.framebufferStart.toNat) := by
  have hadr' : (m.withFramebuffer start size).ram.adr = ramBase := by
    rw [← hadr]
    exact ramSetFramebuffer_adr ..
  have hpages : m'.PagesMarked (pa - ramBase).toNat bytes.length := by
    rintro k ⟨hle, hlt⟩
    rw [← hadr'] at haligned hle hlt
    exact dirty_of_written hwrite (by decide) haligned hle hlt
  obtain ⟨first, bound, last, stored, -, hbound, -, -, hcalls, rfl⟩ := ramAccessF_eq_some.mp hwrite
  obtain ⟨hpos, hend⟩ := ArmRam.framebufferEnd_le haccepted hadr
  have hbound' := ArmRam.startFor_ramSetFramebuffer hpos hbound
  have hlen : bytes.length ≤ 64 := by
    have hsizes := size_of_startFor hbound
    omega
  rw [hadr'] at hcalls
  have hiff (h : (m.withFramebuffer start size).ram.Intersects (pa - ramBase).toNat bytes.length) :=
    ArmRam.marks_iff h hend hlen hbound'
  rw [hcalls]
  constructor
  · rintro ⟨-, hmarks⟩ hreaches
    exact (hiff hreaches).mp (hmarks hreaches)
  · intro hsmall
    exact ⟨hpages, fun hreaches => (hiff hreaches).mpr (hsmall hreaches)⟩

/-- After the reset. -/
def init : Main := ⟨ramInit ramBase, ramBufferAllocate deviceGetRamSize.toNat⟩

theorem ram_of_ramAccessF (h : m.ramAccessF pa bytes = some (calls, m')) : m'.ram = m.ram := by
  obtain ⟨first, start, last, stored, -, -, -, -, -, rfl⟩ := ramAccessF_eq_some.mp h
  rfl

theorem accepts_word (m : Main) (pa : Word) (h : (pa - m.ram.adr).toNat + 4 ≤ deviceGetRamSize.toNat) :
    ∃ m', m.ramAccessF pa [1, 2, 3, 4] =
      some (m.ram.marks (pa - m.ram.adr) m.ram.framebufferStart_4, m') :=
  ramAccessF_accepts m rfl h (by decide) (by decide)

/-- A word at the start of a framebuffer in the middle of the RAM. -/
theorem write_marks_middle : ∃ m', (init.withFramebuffer 0xa0100000 0x25800).ramAccessF 0xa0100000
    [1, 2, 3, 4] = some (true, m') ∧ (m'.PagesMarked 0x100000 4 ∧
      (m'.ram.Intersects 0x100000 4 → true = true)) := by
  obtain ⟨m', hwrite⟩ := accepts_word (init.withFramebuffer 0xa0100000 0x25800) 0xa0100000 (by decide)
  refine ⟨m', hwrite, (write_marks_iff (m := init) rfl (by decide) (by decide) hwrite).mpr ?_⟩
  intro _
  rw [ram_of_ramAccessF hwrite]
  decide

/-- A word at the start of the RAM, where the framebuffer starts. -/
theorem not_marked_firstWord : ∃ m', (socSetFramebuffer init.ram ramBase 0x25800).1 = true ∧
    (init.withFramebuffer ramBase 0x25800).ramAccessF ramBase [1, 2, 3, 4] = some (false, m') ∧
      m'.ram.Intersects (ramBase - ramBase).toNat 4 := by
  obtain ⟨m', hwrite⟩ := accepts_word (init.withFramebuffer ramBase 0x25800) ramBase (by decide)
  refine ⟨m', by decide, hwrite, ?_⟩
  rw [ram_of_ramAccessF hwrite]
  exact ⟨0, by decide, by decide⟩

end Ram

end Cloudpilot.Uarm.Lcd
