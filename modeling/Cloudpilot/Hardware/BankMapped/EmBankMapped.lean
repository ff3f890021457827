import Cloudpilot.Library.Buffer
import Cloudpilot.Library.Extents

/-! # Host memory in the address space of the guest

Ranges of host memory are mapped into a window of the guest's addresses, first fit and with
the alignment of the host address. Lookups by host address and by guest address share one
cached iterator, which is an index here.
-/

namespace Cloudpilot.Hardware.BankMapped

open Cloudpilot.Library List

abbrev Byte := BitVec 8
abbrev Word := BitVec 32

structure MapRange where
  realAddress : ℕ
  mappedAddress : Word
  size : Word
  deriving DecidableEq

namespace MapRange

/-- `Contains` for an address of the host. -/
def containsReal (r : MapRange) (addr : ℕ) : Bool :=
  addr ≥ r.realAddress ∧ addr < r.realAddress + r.size.toNat

/-- `Contains` for an address of the guest. -/
def containsMapped (r : MapRange) (addr : Word) : Bool :=
  addr ≥ r.mappedAddress ∧ addr < r.mappedAddress + r.size

end MapRange

structure EmBankMapped where
  gMappedRanges : List MapRange
  gLastIter : ℕ

/-- `Initialize`. -/
def EmBankMapped.init : EmBankMapped := ⟨[], 0⟩

def kMemoryStart : Word := 0x13000000
def kMemoryFinish : Word := 0x18000000

/-- One round of the loop of `PrvEnsureAligned`. -/
def alignStep (addr : ℕ) (candidate : Word) : Word :=
  if candidate &&& 3 ≠ BitVec.ofNat 32 addr &&& 3 then candidate + 1 else candidate

/-- `PrvEnsureAligned`, whose loop ends after three rounds. -/
def prvEnsureAligned (candidate : Word) (addr : ℕ) : Word :=
  alignStep addr (alignStep addr (alignStep addr candidate))

/-- The loop of `MapPhysicalMemory`, with the index of the new range. -/
def insertRange (addr : ℕ) (size : Word) : Word → List MapRange → ℕ × List MapRange
  | candidate, [] => (0, [⟨addr, candidate, size⟩])
  | candidate, r :: rest =>
    if r.mappedAddress ≥ candidate + size then (0, ⟨addr, candidate, size⟩ :: r :: rest)
    else
      let (i, ranges) := insertRange addr size (prvEnsureAligned (r.mappedAddress + r.size) addr) rest
      (i + 1, r :: ranges)

namespace EmBankMapped

def mapPhysicalMemory (m : EmBankMapped) (addr : ℕ) (size : Word) : EmBankMapped :=
  if addr = 0 then m
  else
    let (i, ranges) := insertRange addr size (prvEnsureAligned kMemoryStart addr) m.gMappedRanges
    ⟨ranges, i⟩

/-- `PrvGetMappingInfo`. The end of the ranges is the index behind the last one. -/
def prvGetMappingInfo (m : EmBankMapped) (contains : MapRange → Bool) : ℕ × EmBankMapped :=
  let iter := search contains m.gMappedRanges m.gLastIter
  (iter, { m with gLastIter := iter })

def unmapPhysicalMemory (m : EmBankMapped) (addr : ℕ) : EmBankMapped :=
  if addr = 0 then m
  else
    let (iter, m) := m.prvGetMappingInfo (·.containsReal addr)
    if iter ≠ m.gMappedRanges.length then
      ⟨m.gMappedRanges.eraseIdx iter, (m.gMappedRanges.eraseIdx iter).length⟩
    else m

def getRealAddress (m : EmBankMapped) (address : Word) : Option ℕ × EmBankMapped :=
  let (iter, m) := m.prvGetMappingInfo (·.containsMapped address)
  match m.gMappedRanges[iter]? with
  | none => (none, m)
  | some r => (some (r.realAddress + (address - r.mappedAddress).toNat), m)

def getRealAddressForSize (m : EmBankMapped) (address size : Word) : Option ℕ × EmBankMapped :=
  let (iter, m) := m.prvGetMappingInfo (·.containsMapped address)
  match m.gMappedRanges[iter]? with
  | none => (none, m)
  | some r =>
    if size > r.size - (address - r.mappedAddress) then (none, m)
    else (some (r.realAddress + (address - r.mappedAddress).toNat), m)

/-- None where the assertion fails. -/
def getEmulatedAddress (m : EmBankMapped) (addr : ℕ) : Option Word × EmBankMapped :=
  let (iter, m) := m.prvGetMappingInfo (·.containsReal addr)
  match m.gMappedRanges[iter]? with
  | none => (none, m)
  | some r => (some (r.mappedAddress + BitVec.ofNat 32 (addr - r.realAddress)), m)

/-- The bytes of a value, most significant first. -/
def compose (bytes : List Byte) : Word :=
  bytes.foldl (fun value byte => value <<< 8 ||| byte.setWidth 32) 0

def byteOf (size : ℕ) (value : Word) (k : ℕ) : Byte := (value >>> (8 * (size - 1 - k))).setWidth 8

/-- Accesses of several bytes raise an address error and go on. -/
def addressError (size : ℕ) (address : Word) : Bool := size ≠ 1 ∧ address &&& 1 ≠ 0

structure Access (α : Type*) where
  addressError : Bool
  result : α
  bank : EmBankMapped

def get (size : ℕ) (host : ℕ → Byte) (m : EmBankMapped) (address : Word) : Access Word :=
  match m.getRealAddressForSize address (BitVec.ofNat 32 size) with
  | (none, m) => ⟨addressError size address, BitVec.allOnes 32, m⟩
  | (some p, m) =>
    ⟨addressError size address, compose ((List.range size).map fun k => host (p + k)), m⟩

def set (size : ℕ) (host : ℕ → Byte) (m : EmBankMapped) (address value : Word) : Access (ℕ → Byte) :=
  match m.getRealAddressForSize address (BitVec.ofNat 32 size) with
  | (none, m) => ⟨addressError size address, host, m⟩
  | (some p, m) => ⟨addressError size address, Buffer.copy host p (byteOf size value) size, m⟩

def getByte : (ℕ → Byte) → EmBankMapped → Word → Access Word := get 1
def getWord : (ℕ → Byte) → EmBankMapped → Word → Access Word := get 2
def getLong : (ℕ → Byte) → EmBankMapped → Word → Access Word := get 4
def setByte : (ℕ → Byte) → EmBankMapped → Word → Word → Access (ℕ → Byte) := set 1
def setWord : (ℕ → Byte) → EmBankMapped → Word → Word → Access (ℕ → Byte) := set 2
def setLong : (ℕ → Byte) → EmBankMapped → Word → Word → Access (ℕ → Byte) := set 4

end EmBankMapped

section

variable {addr lo hi : ℕ} {size candidate : Word} {ranges : List MapRange}

theorem toNat_and_three (x : Word) : (x &&& 3).toNat = x.toNat % 4 :=
  Nat.and_two_pow_sub_one_eq_mod x.toNat 2

theorem toNat_alignStep (addr : ℕ) (candidate : Word) : (alignStep addr candidate).toNat =
    if candidate.toNat % 4 = addr % 4 then candidate.toNat else (candidate.toNat + 1) % 2 ^ 32 := by
  have haddr : (BitVec.ofNat 32 addr &&& 3).toNat = addr % 4 := by
    rw [toNat_and_three, BitVec.toNat_ofNat]
    omega
  have hsame : candidate &&& 3 ≠ BitVec.ofNat 32 addr &&& 3 ↔ ¬ candidate.toNat % 4 = addr % 4 := by
    rw [Ne, BitVec.toNat_eq, toNat_and_three, haddr]
  unfold alignStep
  by_cases h : candidate.toNat % 4 = addr % 4
  · grind
  · rw [if_pos (hsame.mpr h), if_neg h, BitVec.toNat_add]
    rfl

theorem prvEnsureAligned_mod (candidate : Word) (addr : ℕ) :
    (prvEnsureAligned candidate addr).toNat % 4 = addr % 4 := by
  unfold prvEnsureAligned
  rw [toNat_alignStep, toNat_alignStep, toNat_alignStep]
  split_ifs <;> omega

theorem prvEnsureAligned_le (h : candidate.toNat + 3 < 2 ^ 32) (addr : ℕ) :
    candidate.toNat ≤ (prvEnsureAligned candidate addr).toNat ∧
      (prvEnsureAligned candidate addr).toNat ≤ candidate.toNat + 3 := by
  unfold prvEnsureAligned
  rw [toNat_alignStep, toNat_alignStep, toNat_alignStep]
  split_ifs <;> omega

namespace MapRange

def start (r : MapRange) : ℕ := r.mappedAddress.toNat

def finish (r : MapRange) : ℕ := r.start + r.size.toNat

theorem start_le_finish (r : MapRange) : r.start ≤ r.finish := Nat.le_add_right ..

end MapRange

/-- A range is added, and nothing else changes. -/
structure Inserts (addr : ℕ) (size : Word) (ranges : List MapRange)
    (inserted : ℕ × List MapRange) (front back : List MapRange) (address : Word) : Prop where
  before : ranges = front ++ back
  after : inserted.2 = front ++ ⟨addr, address, size⟩ :: back
  index : inserted.1 = front.length
  aligned : address.toNat % 4 = addr % 4

theorem insertRange_inserts (haligned : candidate.toNat % 4 = addr % 4) : ∃ front back address,
    Inserts addr size ranges (insertRange addr size candidate ranges) front back address := by
  induction ranges generalizing candidate with
  | nil => exact ⟨[], [], candidate, rfl, rfl, rfl, haligned⟩
  | cons r rest ih =>
    unfold insertRange
    split
    · exact ⟨[], r :: rest, candidate, rfl, rfl, rfl, haligned⟩
    · obtain ⟨front, back, address, hinserts⟩ :=
        ih (prvEnsureAligned_mod (r.mappedAddress + r.size) addr)
      refine ⟨r :: front, back, address, ?_, ?_, ?_, hinserts.aligned⟩
      · simp [hinserts.before]
      · simp [hinserts.after]
      · simp [hinserts.index]

/-- There is a place for a range between two bounds, aligned and apart from all other ranges. -/
def RoomBetween (lo hi addr : ℕ) (size : Word) (ranges : List MapRange) : Prop :=
  ∃ address, lo ≤ address ∧ address + size.toNat ≤ hi ∧ address % 4 = addr % 4 ∧
    ∀ r ∈ ranges, address + size.toNat ≤ r.start ∨ r.finish ≤ address

theorem insertRange_laid (h : Laid MapRange.start MapRange.finish lo hi ranges)
    (hroom : RoomBetween lo hi addr size ranges) (hhi : hi + 3 < 2 ^ 32)
    (hlo : lo ≤ candidate.toNat) (hnext : candidate.toNat ≤ lo + 3)
    (haligned : candidate.toNat % 4 = addr % 4) :
    Laid MapRange.start MapRange.finish lo hi (insertRange addr size candidate ranges).2 := by
  induction ranges generalizing lo candidate with
  | nil =>
    obtain ⟨address, hle, hfits, hmod, -⟩ := hroom
    refine ⟨hlo, MapRange.start_le_finish _, ?_⟩
    change candidate.toNat + size.toNat ≤ hi
    omega
  | cons r rest ih =>
    obtain ⟨address, hle, hfits, hmod, hapart⟩ := hroom
    obtain ⟨hstart, hextent, hrest⟩ := h
    have hsum : (candidate + size).toNat = candidate.toNat + size.toNat := by
      rw [BitVec.toNat_add, Nat.mod_eq_of_lt (by omega)]
    unfold insertRange
    split
    · rename_i hfront
      rw [ge_iff_le, BitVec.le_def, hsum] at hfront
      exact ⟨hlo, MapRange.start_le_finish _, hfront, hextent, hrest⟩
    · rename_i hfront
      rw [ge_iff_le, BitVec.le_def, hsum] at hfront
      have hbehind : r.finish ≤ address := by
        obtain hbelow | hbehind := hapart r mem_cons_self
        · have hstart' : r.start = r.mappedAddress.toNat := rfl
          omega
        · exact hbehind
      have hfinish : (r.mappedAddress + r.size).toNat = r.finish := by
        have hfinish' : r.finish = r.mappedAddress.toNat + r.size.toNat := rfl
        rw [BitVec.toNat_add, ← hfinish', Nat.mod_eq_of_lt (by omega)]
      have halign := prvEnsureAligned_le (show (r.mappedAddress + r.size).toNat + 3 < 2 ^ 32 by omega) addr
      rw [hfinish] at halign
      refine ⟨hstart, hextent, ih hrest ?_ halign.1 halign.2 (prvEnsureAligned_mod _ _)⟩
      exact ⟨address, hbehind, hfits, hmod, fun r' hr' => hapart r' (mem_cons_of_mem _ hr')⟩

theorem roomBetween_of_inserts {inserted : ℕ × List MapRange} {front back : List MapRange}
    {address : Word} (h : Inserts addr size ranges inserted front back address)
    (hlaid : Laid MapRange.start MapRange.finish lo hi inserted.2) :
    RoomBetween lo hi addr size ranges := by
  rw [h.after] at hlaid
  obtain ⟨hle, -, hfits⟩ := hlaid.inside (mem_append_right front mem_cons_self)
  refine ⟨address.toNat, hle, hfits, h.aligned, fun r hr => ?_⟩
  have hpairwise := pairwise_append.mp hlaid.pairwise
  rw [h.before, mem_append] at hr
  obtain hfront | hback := hr
  · exact Or.inr (hpairwise.2.2 r hfront _ mem_cons_self)
  · exact Or.inl (rel_of_pairwise_cons hpairwise.2.1 hback)

end

variable {m m' : EmBankMapped} {r : MapRange} {address : Word} {p size : ℕ}

def MapRange.realFinish (r : MapRange) : ℕ := r.realAddress + r.size.toNat

/-- Two ranges of the memory of the host. -/
def Apart (a b : MapRange) : Prop := a.realFinish ≤ b.realAddress ∨ b.realFinish ≤ a.realAddress

structure Mapped (m : EmBankMapped) : Prop where
  laid : Laid MapRange.start MapRange.finish kMemoryStart.toNat kMemoryFinish.toNat m.gMappedRanges
  aligned : ∀ r ∈ m.gMappedRanges, r.mappedAddress.toNat % 4 = r.realAddress % 4
  nonempty : ∀ r ∈ m.gMappedRanges, r.size ≠ 0
  apart : m.gMappedRanges.Pairwise Apart
  last : m.gLastIter ≤ m.gMappedRanges.length

namespace Mapped

theorem bounds (h : Mapped m) (hr : r ∈ m.gMappedRanges) :
    kMemoryStart.toNat ≤ r.start ∧ r.finish ≤ kMemoryFinish.toNat := by
  have hinside := h.laid.inside hr
  exact ⟨hinside.1, hinside.2.2⟩

theorem containsMapped_iff (h : Mapped m) (hr : r ∈ m.gMappedRanges) :
    r.containsMapped address = true ↔ r.start ≤ address.toNat ∧ address.toNat < r.finish := by
  have hbounds := (h.bounds hr).2
  have hfinish : (r.mappedAddress + r.size).toNat = r.finish := by
    have hsum : r.finish = r.mappedAddress.toNat + r.size.toNat := rfl
    rw [BitVec.toNat_add, ← hsum, Nat.mod_eq_of_lt (by omega)]
  rw [MapRange.containsMapped, decide_eq_true_iff, ge_iff_le, BitVec.le_def, BitVec.lt_def, hfinish]
  rfl

theorem unambiguous_mapped (h : Mapped m) (address : Word) :
    Unambiguous (·.containsMapped address) m.gMappedRanges := by
  apply h.laid.pairwise.imp_of_mem
  rintro a b ha hb happart ⟨hina, hinb⟩
  have hina := (h.containsMapped_iff ha).mp hina
  have hinb := (h.containsMapped_iff hb).mp hinb
  omega

theorem unambiguous_real (h : Mapped m) (p : ℕ) : Unambiguous (·.containsReal p) m.gMappedRanges := by
  apply h.apart.imp
  rintro a b happart ⟨hina, hinb⟩
  have hina : p ≥ a.realAddress ∧ p < a.realAddress + a.size.toNat := of_decide_eq_true hina
  have hinb : p ≥ b.realAddress ∧ p < b.realAddress + b.size.toNat := of_decide_eq_true hinb
  unfold Apart MapRange.realFinish at happart
  omega

end Mapped

theorem getElem?_search {c : MapRange → Bool} (h : Unambiguous c m.gMappedRanges) :
    m.gMappedRanges[search c m.gMappedRanges m.gLastIter]? = some r ↔
      r ∈ m.gMappedRanges ∧ c r = true := by
  rw [search_eq h]
  exact getElem?_findIdx_eq_some h

theorem getRealAddress_of_mem (h : Mapped m) (hr : r ∈ m.gMappedRanges) (hstart : r.start ≤ address.toNat)
    (hfinish : address.toNat < r.finish) :
    (m.getRealAddress address).1 = some (r.realAddress + (address.toNat - r.start)) := by
  have hfound := (getElem?_search (h.unambiguous_mapped address)).mpr
    ⟨hr, (h.containsMapped_iff hr).mpr ⟨hstart, hfinish⟩⟩
  have hoffset : (address - r.mappedAddress).toNat = address.toNat - r.start :=
    BitVec.toNat_sub_of_le (BitVec.le_def.mpr hstart)
  unfold EmBankMapped.getRealAddress EmBankMapped.prvGetMappingInfo
  dsimp only
  rw [hfound]
  dsimp only
  rw [hoffset]

theorem getEmulatedAddress_of_mem (h : Mapped m) (hr : r ∈ m.gMappedRanges) (hstart : r.realAddress ≤ p)
    (hfinish : p < r.realFinish) :
    (m.getEmulatedAddress p).1 = some (r.mappedAddress + BitVec.ofNat 32 (p - r.realAddress)) := by
  have hfound := (getElem?_search (h.unambiguous_real p)).mpr
    ⟨hr, decide_eq_true (show p ≥ r.realAddress ∧ p < _ from ⟨hstart, hfinish⟩)⟩
  unfold EmBankMapped.getEmulatedAddress EmBankMapped.prvGetMappingInfo
  dsimp only
  rw [hfound]

/-- A whole access lies in a range. -/
def Inside (r : MapRange) (address : Word) (size : ℕ) : Prop :=
  r.start ≤ address.toNat ∧ address.toNat + size ≤ r.finish

theorem getRealAddressForSize_of_inside (h : Mapped m) (hr : r ∈ m.gMappedRanges)
    (hin : Inside r address size) (hpos : 0 < size) (hsize : size ≤ 4) :
    (m.getRealAddressForSize address (BitVec.ofNat 32 size)).1 =
      some (r.realAddress + (address.toNat - r.start)) := by
  obtain ⟨hstart, hfinish⟩ := hin
  have hfound := (getElem?_search (h.unambiguous_mapped address)).mpr
    ⟨hr, (h.containsMapped_iff hr).mpr ⟨hstart, by omega⟩⟩
  have hoffset : (address - r.mappedAddress).toNat = address.toNat - r.start :=
    BitVec.toNat_sub_of_le (BitVec.le_def.mpr hstart)
  have hfits : ¬ BitVec.ofNat 32 size > r.size - (address - r.mappedAddress) := by
    have hsum : r.finish = r.start + r.size.toNat := rfl
    have hle : address - r.mappedAddress ≤ r.size := by
      rw [BitVec.le_def, hoffset]
      omega
    rw [gt_iff_lt, BitVec.not_lt, BitVec.le_def, BitVec.toNat_ofNat, BitVec.toNat_sub_of_le hle, hoffset]
    omega
  unfold EmBankMapped.getRealAddressForSize EmBankMapped.prvGetMappingInfo
  dsimp only
  rw [hfound]
  dsimp only
  rw [if_neg hfits, hoffset]

theorem getRealAddressForSize_of_outside (h : Mapped m) (hsize : size ≤ 4)
    (hout : ∀ r ∈ m.gMappedRanges, ¬ Inside r address size) :
    (m.getRealAddressForSize address (BitVec.ofNat 32 size)).1 = none := by
  unfold EmBankMapped.getRealAddressForSize EmBankMapped.prvGetMappingInfo
  dsimp only
  split
  · rfl
  · rename_i r hfound
    obtain ⟨hr, hcontains⟩ := (getElem?_search (h.unambiguous_mapped address)).mp hfound
    obtain ⟨hstart, hfinish⟩ := (h.containsMapped_iff hr).mp hcontains
    have hoffset : (address - r.mappedAddress).toNat = address.toNat - r.start :=
      BitVec.toNat_sub_of_le (BitVec.le_def.mpr hstart)
    have hsum : r.finish = r.start + r.size.toNat := rfl
    have hexceeds : BitVec.ofNat 32 size > r.size - (address - r.mappedAddress) := by
      have hle : address - r.mappedAddress ≤ r.size := by
        rw [BitVec.le_def, hoffset]
        omega
      have hnot := hout r hr
      rw [Inside, not_and] at hnot
      rw [gt_iff_lt, BitVec.lt_def, BitVec.toNat_ofNat, BitVec.toNat_sub_of_le hle, hoffset,
        Nat.mod_eq_of_lt (by omega)]
      omega
    rw [if_pos hexceeds]

end Cloudpilot.Hardware.BankMapped
