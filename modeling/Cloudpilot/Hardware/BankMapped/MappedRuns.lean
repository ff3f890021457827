import Cloudpilot.Hardware.BankMapped.EmBankMapped

/-! # Runs of maps and unmaps

From the start on, the mapping is sound in every state as long as the window has room for each
range that is mapped.
-/
namespace Cloudpilot.Hardware.BankMapped
open Cloudpilot.Library

variable {m m' : EmBankMapped} {r : MapRange} {address : Word} {addr p size : ℕ}

/-- No operation can tell two states apart. -/
structure SameResults (m m' : EmBankMapped) : Prop where
  map : ∀ addr size,
    (m.mapPhysicalMemory addr size).gMappedRanges = (m'.mapPhysicalMemory addr size).gMappedRanges
  unmap : ∀ addr,
    (m.unmapPhysicalMemory addr).gMappedRanges = (m'.unmapPhysicalMemory addr).gMappedRanges
  getRealAddress : ∀ address, (m.getRealAddress address).1 = (m'.getRealAddress address).1
  getEmulatedAddress : ∀ addr, (m.getEmulatedAddress addr).1 = (m'.getEmulatedAddress addr).1
  get : ∀ size host address, (m.get size host address).result = (m'.get size host address).result
  set : ∀ size host address value,
    (m.set size host address value).result = (m'.set size host address value).result

structure Sound (m : EmBankMapped) : Prop where
  sorted : m.gMappedRanges.Pairwise fun a b => a.finish ≤ b.start
  window : ∀ r ∈ m.gMappedRanges, kMemoryStart.toNat ≤ r.start ∧ r.finish ≤ kMemoryFinish.toNat
  /-- Every mapped byte of the host has an address of the guest. -/
  round : ∀ r ∈ m.gMappedRanges, ∀ p, r.realAddress ≤ p → p < r.realFinish →
    ∃ address, (m.getEmulatedAddress p).1 = some address ∧
      ((m.getEmulatedAddress p).2.getRealAddress address).1 = some p ∧ address.toNat % 4 = p % 4
  /-- Accesses inside of a range are accesses to the memory of the host. -/
  inside : ∀ size ∈ [1, 2, 4], ∀ host address, ∀ r ∈ m.gMappedRanges, Inside r address size →
    (m.get size host address).result = EmBankMapped.compose
      ((List.range size).map fun k => host (r.realAddress + (address.toNat - r.start) + k)) ∧
    ∀ value, (m.set size host address value).result =
      Buffer.copy host (r.realAddress + (address.toNat - r.start)) (EmBankMapped.byteOf size value) size
  /-- All other accesses read ones and change nothing. -/
  outside : ∀ size ∈ [1, 2, 4], ∀ host address, (∀ r ∈ m.gMappedRanges, ¬ Inside r address size) →
    (m.get size host address).result = BitVec.allOnes 32 ∧
      ∀ value, (m.set size host address value).result = host
  cached : ∀ last ≤ m.gMappedRanges.length, SameResults m { m with gLastIter := last }

theorem Mapped.withLast (h : Mapped m) {last : ℕ} (hlast : last ≤ m.gMappedRanges.length) :
    Mapped { m with gLastIter := last } :=
  ⟨h.laid, h.aligned, h.nonempty, h.apart, hlast⟩

theorem Mapped.searched (h : Mapped m) {c : MapRange → Bool} (hc : Unambiguous c m.gMappedRanges) :
    Mapped { m with gLastIter := search c m.gMappedRanges m.gLastIter } := by
  apply h.withLast
  rw [search_eq hc]
  exact List.findIdx_le_length

theorem Mapped.round (h : Mapped m) (hr : r ∈ m.gMappedRanges) (hstart : r.realAddress ≤ p)
    (hfinish : p < r.realFinish) : ∃ address, (m.getEmulatedAddress p).1 = some address ∧
      ((m.getEmulatedAddress p).2.getRealAddress address).1 = some p ∧ address.toNat % 4 = p % 4 := by
  have hbounds := (h.bounds hr).2
  have hsum : r.finish = r.start + r.size.toNat := rfl
  have hreal : r.realFinish = r.realAddress + r.size.toNat := rfl
  have haddress : (r.mappedAddress + BitVec.ofNat 32 (p - r.realAddress)).toNat =
      r.start + (p - r.realAddress) := by
    have hstart' : r.start = r.mappedAddress.toNat := rfl
    rw [BitVec.toNat_add, BitVec.toNat_ofNat, ← hstart', Nat.mod_eq_of_lt (a := p - _) (by omega)]
    omega
  have hafter : Mapped (m.getEmulatedAddress p).2 ∧
      (m.getEmulatedAddress p).2.gMappedRanges = m.gMappedRanges := by
    have hlast := h.searched (h.unambiguous_real p)
    unfold EmBankMapped.getEmulatedAddress EmBankMapped.prvGetMappingInfo
    split <;> grind
  refine ⟨_, getEmulatedAddress_of_mem h hr hstart hfinish, ?_, ?_⟩
  · have hr' : r ∈ (m.getEmulatedAddress p).2.gMappedRanges := by grind
    rw [getRealAddress_of_mem hafter.1 hr' (by omega) (by omega), haddress]
    congr 1
    omega
  · have haligned := h.aligned r hr
    have hstart' : r.start = r.mappedAddress.toNat := rfl
    omega

theorem get_eq (size : ℕ) (host : ℕ → Byte) (m : EmBankMapped) (address : Word) :
    (m.get size host address).result =
      match (m.getRealAddressForSize address (BitVec.ofNat 32 size)).1 with
      | none => BitVec.allOnes 32
      | some p => EmBankMapped.compose ((List.range size).map fun k => host (p + k)) := by
  unfold EmBankMapped.get
  split <;> grind

theorem set_eq (size : ℕ) (host : ℕ → Byte) (m : EmBankMapped) (address value : Word) :
    (m.set size host address value).result =
      match (m.getRealAddressForSize address (BitVec.ofNat 32 size)).1 with
      | none => host
      | some p => Buffer.copy host p (EmBankMapped.byteOf size value) size := by
  unfold EmBankMapped.set
  split <;> grind

theorem Mapped.sameResults (h : Mapped m) (last : ℕ) : SameResults m { m with gLastIter := last } := by
  have hmapped (address : Word) :
      search (·.containsMapped address) m.gMappedRanges last =
        search (·.containsMapped address) m.gMappedRanges m.gLastIter := by
    rw [search_eq (h.unambiguous_mapped address), search_eq (h.unambiguous_mapped address)]
  have hreal (p : ℕ) : search (·.containsReal p) m.gMappedRanges last =
      search (·.containsReal p) m.gMappedRanges m.gLastIter := by
    rw [search_eq (h.unambiguous_real p), search_eq (h.unambiguous_real p)]
  have hforSize (address size : Word) : (m.getRealAddressForSize address size).1 =
      (EmBankMapped.getRealAddressForSize { m with gLastIter := last } address size).1 := by
    unfold EmBankMapped.getRealAddressForSize EmBankMapped.prvGetMappingInfo
    rw [hmapped]
  refine ⟨fun addr size => ?_, fun addr => ?_, fun address => ?_, fun addr => ?_,
    fun size host address => ?_, fun size host address value => ?_⟩
  · grind [EmBankMapped.mapPhysicalMemory]
  · unfold EmBankMapped.unmapPhysicalMemory EmBankMapped.prvGetMappingInfo
    split
    · rfl
    · rw [hreal]
  · unfold EmBankMapped.getRealAddress EmBankMapped.prvGetMappingInfo
    rw [hmapped]
  · unfold EmBankMapped.getEmulatedAddress EmBankMapped.prvGetMappingInfo
    rw [hreal]
  · rw [get_eq, get_eq, hforSize]
  · rw [set_eq, set_eq, hforSize]

theorem Mapped.sound (h : Mapped m) : Sound m := by
  refine ⟨h.laid.pairwise, fun r hr => h.bounds hr, fun r hr p => h.round hr, ?_, ?_,
    fun last _ => h.sameResults last⟩
  · intro size hsize host address r hr hin
    have hsizes : size = 1 ∨ size = 2 ∨ size = 4 := by simpa using hsize
    have hfound := getRealAddressForSize_of_inside h hr hin (by omega) (by omega)
    constructor
    · rw [get_eq, hfound]
    · simp [set_eq, hfound]
  · intro size hsize host address hout
    have hsizes : size = 1 ∨ size = 2 ∨ size = 4 := by simpa using hsize
    have hfound := getRealAddressForSize_of_outside h (by omega) hout
    constructor
    · rw [get_eq, hfound]
    · simp [set_eq, hfound]

/-- The calls, with `access` for `Get` and `Set` of all sizes. -/
inductive Event where
  | map (addr : ℕ) (size : Word)
  | unmap (addr : ℕ)
  | getRealAddress (address : Word)
  | getEmulatedAddress (addr : ℕ)
  | access (address size : Word)

def EmBankMapped.step (m : EmBankMapped) : Event → EmBankMapped
  | .map addr size => m.mapPhysicalMemory addr size
  | .unmap addr => m.unmapPhysicalMemory addr
  | .getRealAddress address => (m.getRealAddress address).2
  | .getEmulatedAddress addr => (m.getEmulatedAddress addr).2
  | .access address size => (m.getRealAddressForSize address size).2

/-- The ranges that are mapped at a time are not empty and do not overlap on the host. -/
def WellFormed (m : EmBankMapped) : Event → Prop
  | .map addr size => addr ≠ 0 → size ≠ 0 ∧ ∀ r ∈ m.gMappedRanges, Apart ⟨addr, 0, size⟩ r
  | _ => True

/-- The window has room for a range that is mapped. -/
def Roomy (m : EmBankMapped) : Event → Prop
  | .map addr size =>
    addr ≠ 0 → RoomBetween kMemoryStart.toNat kMemoryFinish.toNat addr size m.gMappedRanges
  | _ => True

theorem Mapped.init : Mapped EmBankMapped.init :=
  ⟨show kMemoryStart.toNat ≤ kMemoryFinish.toNat by decide, nofun, nofun, List.Pairwise.nil,
    Nat.le_refl 0⟩

theorem insertRange_spec (addr : ℕ) (size : Word) (ranges : List MapRange) :
    ∃ front back address, Inserts addr size ranges
      (insertRange addr size (prvEnsureAligned kMemoryStart addr) ranges) front back address :=
  insertRange_inserts (prvEnsureAligned_mod kMemoryStart addr)

theorem mapPhysicalMemory_eq (haddr : addr ≠ 0) (size : Word) : m.mapPhysicalMemory addr size =
    ⟨(insertRange addr size (prvEnsureAligned kMemoryStart addr) m.gMappedRanges).2,
      (insertRange addr size (prvEnsureAligned kMemoryStart addr) m.gMappedRanges).1⟩ := by
  rw [EmBankMapped.mapPhysicalMemory, if_neg haddr]

theorem Mapped.map (h : Mapped m) {size : Word} (haddr : addr ≠ 0)
    (hnew : size ≠ 0 ∧ ∀ r ∈ m.gMappedRanges, Apart ⟨addr, 0, size⟩ r)
    (hroom : RoomBetween kMemoryStart.toNat kMemoryFinish.toNat addr size m.gMappedRanges) :
    Mapped (m.mapPhysicalMemory addr size) := by
  obtain ⟨front, back, address, hinserts⟩ := insertRange_spec addr size m.gMappedRanges
  have hfirst := prvEnsureAligned_le (show kMemoryStart.toNat + 3 < 2 ^ 32 by decide) addr
  have hlaid := insertRange_laid h.laid hroom (by decide) hfirst.1 hfirst.2 (prvEnsureAligned_mod _ _)
  have hmem (r : MapRange)
      (hr : r ∈ (insertRange addr size (prvEnsureAligned kMemoryStart addr) m.gMappedRanges).2) :
      r = ⟨addr, address, size⟩ ∨ r ∈ m.gMappedRanges := by
    grind [hinserts.after, List.mem_append, List.mem_cons, hinserts.before]
  rw [mapPhysicalMemory_eq haddr]
  refine ⟨hlaid, fun r hr => ?_, fun r hr => ?_, ?_, ?_⟩
  · obtain rfl | hold := hmem r hr
    · exact hinserts.aligned
    · exact h.aligned r hold
  · obtain rfl | hold := hmem r hr
    · exact hnew.1
    · exact h.nonempty r hold
  · rw [hinserts.after, List.pairwise_middle fun {_ _} happart => happart.symm, List.pairwise_cons,
      ← hinserts.before]
    exact ⟨hnew.2, h.apart⟩
  · simp [hinserts.index, hinserts.after, List.length_append]

theorem Mapped.unmap (h : Mapped m) (addr : ℕ) : Mapped (m.unmapPhysicalMemory addr) := by
  unfold EmBankMapped.unmapPhysicalMemory EmBankMapped.prvGetMappingInfo
  split
  · exact h
  · dsimp only
    split
    · have hsub := List.eraseIdx_sublist m.gMappedRanges
        (search (·.containsReal addr) m.gMappedRanges m.gLastIter)
      exact ⟨h.laid.sublist hsub, fun r hr => h.aligned r (hsub.subset hr),
        fun r hr => h.nonempty r (hsub.subset hr), h.apart.sublist hsub, Nat.le_refl _⟩
    · exact h.searched (h.unambiguous_real addr)

theorem Mapped.step (h : Mapped m) (event : Event) (hwf : WellFormed m event) (hroom : Roomy m event) :
    Mapped (m.step event) := by
  cases event with
  | map addr size =>
    by_cases haddr : addr = 0
    · grind [EmBankMapped.step, EmBankMapped.mapPhysicalMemory]
    · exact h.map haddr (hwf haddr) (hroom haddr)
  | unmap addr => exact h.unmap addr
  | getRealAddress address =>
    have hlast := h.searched (h.unambiguous_mapped address)
    unfold EmBankMapped.step EmBankMapped.getRealAddress EmBankMapped.prvGetMappingInfo
    dsimp only
    split <;> exact hlast
  | getEmulatedAddress addr =>
    have hlast := h.searched (h.unambiguous_real addr)
    unfold EmBankMapped.step EmBankMapped.getEmulatedAddress EmBankMapped.prvGetMappingInfo
    dsimp only
    split <;> exact hlast
  | access address size =>
    have hlast := h.searched (h.unambiguous_mapped address)
    unfold EmBankMapped.step EmBankMapped.getRealAddressForSize EmBankMapped.prvGetMappingInfo
    dsimp only
    split
    · exact hlast
    · grind

theorem roomy_of_sound {event : Event} (h : Sound (m.step event)) : Roomy m event := by
  cases event with
  | map addr size =>
    intro haddr
    obtain ⟨front, back, address, hinserts⟩ := insertRange_spec addr size m.gMappedRanges
    apply roomBetween_of_inserts hinserts
    rw [EmBankMapped.step, mapPhysicalMemory_eq haddr] at h
    apply Laid.of_pairwise (by decide) _ h.sorted
    intro r hr
    have hwindow := h.window r hr
    exact ⟨hwindow.1, r.start_le_finish, hwindow.2⟩
  | unmap addr => trivial
  | getRealAddress address => trivial
  | getEmulatedAddress addr => trivial
  | access address size => trivial

def RunWellFormed (m : EmBankMapped) : List Event → Prop
  | [] => True
  | event :: events => WellFormed m event ∧ RunWellFormed (m.step event) events

def RunRoomy (m : EmBankMapped) : List Event → Prop
  | [] => True
  | event :: events => Roomy m event ∧ RunRoomy (m.step event) events

def RunSound (m : EmBankMapped) : List Event → Prop
  | [] => Sound m
  | event :: events => Sound m ∧ RunSound (m.step event) events

theorem RunSound.sound {events : List Event} (h : RunSound m events) : Sound m := by
  cases events with
  | nil => exact h
  | cons event events => exact h.1

theorem runSound_iff_of_mapped (h : Mapped m) {events : List Event} (hwf : RunWellFormed m events) :
    RunSound m events ↔ RunRoomy m events := by
  induction events generalizing m with
  | nil => exact iff_of_true h.sound trivial
  | cons event events ih =>
    constructor
    · rintro ⟨-, hrest⟩
      have hroom := roomy_of_sound hrest.sound
      exact ⟨hroom, (ih (h.step event hwf.1 hroom) hwf.2).mp hrest⟩
    · rintro ⟨hroom, hrest⟩
      exact ⟨h.sound, (ih (h.step event hwf.1 hroom) hwf.2).mpr hrest⟩

/-- The mapping is sound in all states of a run exactly if the window has room for every range at the
time it is mapped. -/
theorem mapping_runSound_iff {events : List Event} (hwf : RunWellFormed .init events) :
    RunSound .init events ↔ RunRoomy .init events :=
  runSound_iff_of_mapped Mapped.init hwf

def twoMaps : List Event := [.map 0x1001 5, .map 0x2002 8, .unmap 0x1003]

theorem runSound_twoMaps : RunSound .init twoMaps := by
  apply (mapping_runSound_iff _).mpr
  · refine ⟨fun _ => ⟨0x13000001, by decide, by decide, by decide, nofun⟩,
      fun _ => ⟨0x13000006, by decide, by decide, by decide, ?_⟩, trivial, trivial⟩
    decide
  · refine ⟨fun _ => ⟨by decide, nofun⟩, fun _ => ⟨by decide, ?_⟩, trivial, trivial⟩
    unfold Apart
    decide

/-- A range that is larger than the window. -/
theorem not_runSound_largeMap : RunWellFormed .init [.map 0x1000 0x06000000] ∧
    ¬ RunSound .init [.map 0x1000 0x06000000] := by
  refine ⟨⟨fun _ => ⟨by decide, nofun⟩, trivial⟩, fun h => ?_⟩
  have hwindow := h.2.window ⟨0x1000, 0x13000000, 0x06000000⟩ (by decide)
  exact absurd hwindow.2 (by decide)

end Cloudpilot.Hardware.BankMapped
