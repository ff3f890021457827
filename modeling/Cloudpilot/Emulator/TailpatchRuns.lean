import Cloudpilot.Emulator.Tailpatches

/-!
# Runs of the tail patch bookkeeping

Which events keep the marks and the table in step with the pending calls. A reset and a load
clear the table before the marks are removed, so that the marks of pending calls stay behind.
-/

namespace Cloudpilot.Emulator.Tailpatches

open List

variable {τ : Type*} {entries : List (TailpatchType τ)} {entry : TailpatchType τ}
  {pending : Pending τ} {pc : Emuptr}

namespace EmPatchMgr

/-- The addresses at which the CPU loop has to stop. -/
def needed (mgr : EmPatchMgr τ) : Finset Emuptr :=
  (nextPCs mgr.gInstalledTailpatches).toFinset ∪ mgr.registeredCallbacks

/-- The marks are those of the entries and the callbacks, the entries have different addresses and
each counts at least one call. -/
structure Sound (mgr : EmPatchMgr τ) : Prop where
  marks : mgr.breakpoints = mgr.needed
  nodup : (nextPCs mgr.gInstalledTailpatches).Nodup
  counts : ∀ entry ∈ mgr.gInstalledTailpatches, 1 ≤ entry.fCount.toInt

end EmPatchMgr

/-- In every state the marks and the entries are sound, and every event calls the tail patch that is
due. -/
def RunSound (h : History τ) : List (Event τ) → Prop
  | [] => h.mgr.Sound
  | event :: events => h.mgr.Sound ∧ (h.mgr.step event).2 = h.pending.due event ∧
      RunSound (h.step event) events

/-- The saved entries have different addresses, each counts at least one call, and they or the
callbacks cover the calls that are pending. -/
structure Loadable (h : History τ) (saved : List (TailpatchType τ)) : Prop where
  nodup : (nextPCs saved).Nodup
  counts : ∀ entry ∈ saved, 1 ≤ entry.fCount.toInt
  covered : ∀ pc, h.pending pc ≠ [] → pc ∈ nextPCs saved ∨ pc ∈ h.mgr.registeredCallbacks

/-- The events that the bookkeeping survives: fewer than `2 ^ 31` calls return to an address, the
innermost call at an address has the tail patch of the outermost one, no callback is at the address of
the last call that returns or of a pending call when it is released, and whenever the list is cleared
the marks of the pending calls are those of callbacks or of loaded entries. -/
def Harmless (h : History τ) : Event τ → Prop
  | .systemCall context hp (some _) =>
    hp.getD .kExecuteROM = .kExecuteROM → (h.pending context.fNextPC).length + 1 < 2 ^ 31
  | .systemCall _ _ none => True
  | .execute pc => (h.pending pc).head?.join = (h.pending pc).getLast?.join ∧
      ((h.pending pc).length = 1 → pc ∉ h.mgr.registeredCallbacks)
  | .registerCallback _ => True
  | .releaseCallback callbackPtr => callbackPtr ∈ h.mgr.registeredCallbacks → h.pending callbackPtr = []
  | .reset => ∀ pc, h.pending pc ≠ [] → pc ∈ h.mgr.registeredCallbacks
  | .load none => True
  | .load (some chunk) => chunk.version = EmPatchMgr.savestateVersion → Loadable h chunk.tailpatches

def RunHarmless (h : History τ) : List (Event τ) → Prop
  | [] => True
  | event :: events => Harmless h event ∧ RunHarmless (h.step event) events

/-- What harmless events keep: the marks, and the entries of the pending calls. -/
structure Consistent (h : History τ) : Prop where
  marks : h.mgr.breakpoints = h.mgr.needed
  agrees : Agrees h.mgr.gInstalledTailpatches h.pending

theorem Consistent.sound {h : History τ} (hc : Consistent h) : h.mgr.Sound :=
  ⟨hc.marks, hc.agrees.nodup, fun _ hmem => hc.agrees.count_pos hmem⟩

/-- A step is sound exactly if its event is harmless, and a harmless event keeps the entries of the
pending calls. -/
structure StepExact (h : History τ) (event : Event τ) : Prop where
  harmless : (h.mgr.step event).2 = h.pending.due event → (h.step event).mgr.Sound → Harmless h event
  due : Harmless h event → (h.mgr.step event).2 = h.pending.due event
  consistent : Harmless h event → Consistent (h.step event)

@[simp] theorem breakpoints_install (mgr : EmPatchMgr τ) :
    mgr.installInstructionBreaks.breakpoints =
      mgr.breakpoints ∪ (nextPCs mgr.gInstalledTailpatches).toFinset :=
  foldl_insert_eq _ _

@[simp] theorem breakpoints_remove (mgr : EmPatchMgr τ) :
    mgr.removeInstructionBreaks.breakpoints =
      mgr.breakpoints \ (nextPCs mgr.gInstalledTailpatches).toFinset :=
  foldl_erase_eq _ _

variable {h : History τ} {calls : List (Option τ)}

theorem StepExact.of_quiet {event : Event τ} (hquiet : (h.mgr.step event).2 = none)
    (hdue : h.pending.due event = none)
    (hharmless : (h.step event).mgr.Sound → Harmless h event)
    (hconsistent : Harmless h event → Consistent (h.step event)) : StepExact h event :=
  ⟨fun _ => hharmless, fun _ => hquiet.trans hdue.symm, hconsistent⟩

theorem Counts.countUp_iff (tp : Option τ) (hcounts : Counts calls entry) :
    (1 ≤ entry.countUp.fCount.toInt ↔ calls.length + 1 < 2 ^ 31) ∧
      (calls.length + 1 < 2 ^ 31 → Counts (tp :: calls) entry.countUp) := by
  have hlt := BitVec.toInt_lt (x := entry.fCount)
  have hadd : entry.countUp.fCount.toInt = (entry.fCount.toInt + 1).bmod (2 ^ 32) := by
    simp [TailpatchType.countUp]
  rw [hcounts.1] at hadd hlt
  constructor
  · grind
  · intro hfits
    constructor
    · grind
    · obtain ⟨call, rest, rfl⟩ := exists_cons_of_ne_nil hcounts.ne_nil
      exact hcounts.2

theorem stepExact_setup_of_found {context : SystemCallContext} {hp : Option CallROMType} {tp : τ}
    (hc : Consistent h) (hp_rom : hp.getD .kExecuteROM = .kExecuteROM)
    (hfind : h.mgr.findEntry context.fNextPC = some entry) :
    StepExact h (.systemCall context hp (some tp)) := by
  have hstep : h.mgr.step (.systemCall context hp (some tp)) =
      ({ h.mgr with
        gInstalledTailpatches := EmPatchMgr.changeEntry context.fNextPC TailpatchType.countUp
          h.mgr.gInstalledTailpatches }, none) := by
    simp [EmPatchMgr.step, EmPatchMgr.handlePatches, hp_rom, EmPatchMgr.setupForTailpatch, hfind]
  have hdue : h.pending.due (.systemCall context hp (some tp)) = none := if_pos hp_rom
  obtain ⟨hpc, hperm, hchange⟩ := perm_of_find hfind
  have hagrees := hc.agrees.perm hperm
  have hcounts : Counts (h.pending context.fNextPC) entry := hpc ▸ hagrees.counts _ mem_cons_self
  obtain ⟨hpositive, hup⟩ := hcounts.countUp_iff (some tp)
  apply StepExact.of_quiet (by rw [hstep]) hdue
  · intro hsound _
    apply hpositive.mp
    apply hsound.counts
    simp only [History.step, hstep]
    exact (hchange _).mem_iff.mpr mem_cons_self
  · intro hharmless
    constructor
    · simp only [History.step, hstep, EmPatchMgr.needed]
      rw [nextPCs_changeEntry TailpatchType.countUp_nextPC]
      exact hc.marks
    · simp only [History.step, hstep, Pending.step, if_pos hp_rom]
      have hnext : entry.countUp.nextPC = context.fNextPC := hpc
      exact (hagrees.change hpc hnext (hup (hharmless hp_rom))).perm (hchange _).symm

theorem stepExact_setup_of_new {context : SystemCallContext} {hp : Option CallROMType} {tp : τ}
    (hc : Consistent h) (hp_rom : hp.getD .kExecuteROM = .kExecuteROM)
    (hfind : h.mgr.findEntry context.fNextPC = none) :
    StepExact h (.systemCall context hp (some tp)) := by
  have hstep : h.mgr.step (.systemCall context hp (some tp)) =
      (EmPatchMgr.installInstructionBreaks
        { h.mgr.removeInstructionBreaks with
          gInstalledTailpatches := h.mgr.gInstalledTailpatches ++ [⟨context, 1, some tp⟩] }, none) := by
    simp [EmPatchMgr.step, EmPatchMgr.handlePatches, hp_rom, EmPatchMgr.setupForTailpatch, hfind]
    rfl
  have hdue : h.pending.due (.systemCall context hp (some tp)) = none := if_pos hp_rom
  have hnew : context.fNextPC ∉ nextPCs h.mgr.gInstalledTailpatches := find_eq_none_iff.mp hfind
  have hnil := hc.agrees.others _ hnew
  apply StepExact.of_quiet (by rw [hstep]) hdue
  · intro _ _
    rw [hnil, length_nil]
    norm_num
  · intro _
    constructor
    · simp only [History.step, hstep, breakpoints_install, breakpoints_remove, hc.marks]
      ext pc
      simp [EmPatchMgr.needed, EmPatchMgr.installInstructionBreaks, EmPatchMgr.removeInstructionBreaks,
        nextPCs]
      grind
    · simp only [History.step, hstep, Pending.step, if_pos hp_rom, hnil]
      apply Agrees.perm (perm_append_singleton ..).symm
      apply (Agrees.cons_iff rfl).mpr
      rw [TailpatchType.nextPC, Function.update_self, Function.update_idem, ← hnil,
        Function.update_eq_self]
      exact ⟨hnew, by rw [hnil]; exact ⟨rfl, rfl⟩, hc.agrees⟩

theorem stepExact_systemCall (hc : Consistent h) (context : SystemCallContext)
    (hp : Option CallROMType) (tp : Option τ) : StepExact h (.systemCall context hp tp) := by
  cases tp with
  | none => exact ⟨fun _ _ => trivial, fun _ => (ite_self none).symm, fun _ => hc⟩
  | some tp =>
    by_cases hp_rom : hp.getD .kExecuteROM = .kExecuteROM
    · cases hfind : h.mgr.findEntry context.fNextPC with
      | none => exact stepExact_setup_of_new hc hp_rom hfind
      | some entry => exact stepExact_setup_of_found hc hp_rom hfind
    · have hstep : h.mgr.step (.systemCall context hp (some tp)) = (h.mgr, some tp) := if_neg hp_rom
      have hpending : h.pending.step (.systemCall context hp (some tp)) = h.pending := if_neg hp_rom
      refine ⟨fun _ _ hrom => absurd hrom hp_rom, fun _ => ?_, fun _ => ?_⟩
      · rw [hstep]
        exact (if_neg hp_rom).symm
      · rwa [History.step, hstep, hpending]

theorem Counts.countDown_eq_zero_iff (hcounts : Counts calls entry) :
    entry.countDown.fCount = 0 ↔ calls.length = 1 := by
  have hzero : entry.countDown.fCount = 0 ↔ entry.fCount = 1 := by
    simp only [TailpatchType.countDown]
    constructor <;> intro heq <;> bv_omega
  have hone : entry.fCount = 1 ↔ entry.fCount.toInt = 1 := by
    rw [← BitVec.toInt_inj]
    rfl
  rw [hzero, hone, hcounts.1]
  omega

theorem Counts.tail (hcounts : Counts calls entry) (hmore : calls.length ≠ 1) :
    Counts calls.tail entry.countDown := by
  have hlt := BitVec.toInt_lt (x := entry.fCount)
  have hpositive := length_pos_iff.mpr hcounts.ne_nil
  constructor
  · have hsub : entry.countDown.fCount.toInt = (entry.fCount.toInt - 1).bmod (2 ^ 32) := by
      simp [TailpatchType.countDown]
    rw [hcounts.1] at hsub hlt
    rw [hsub, Int.bmod_def, length_tail]
    omega
  · match calls, hmore, hcounts.2 with
    | _ :: call :: rest, _, hlast =>
      exact hlast

theorem stepExact_execute_of_new (hc : Consistent h) (hnew : pc ∉ nextPCs h.mgr.gInstalledTailpatches) :
    StepExact h (.execute pc) := by
  have hstep : h.mgr.step (.execute pc) = (h.mgr, none) := by
    have hfind : h.mgr.findEntry pc = none := find_eq_none_iff.mpr hnew
    simp [EmPatchMgr.step, EmPatchMgr.recoverFromTailpatch, hfind]
  have hnil := hc.agrees.others pc hnew
  have hpending : h.pending.step (.execute pc) = h.pending := by
    rw [Pending.step, hnil, tail_nil, ← hnil, Function.update_eq_self]
  have hdue : h.pending.due (.execute pc) = none := by
    rw [Pending.due, hnil]
    rfl
  apply StepExact.of_quiet (by rw [hstep]) hdue
  · simp [Harmless, hnil]
  · intro _
    rwa [History.step, hstep, hpending]

/-- The last pending call of an address returns: its entry goes, and with it the mark, also if a
callback is at the address. -/
theorem stepExact_execute_last (hc : Consistent h) (hmark : pc ∈ h.mgr.breakpoints)
    (hfind : h.mgr.findEntry pc = some entry) (hlast : (h.pending pc).length = 1) :
    StepExact h (.execute pc) := by
  obtain ⟨hpc, hperm, hchange⟩ := perm_of_find hfind
  have hagrees := hc.agrees.perm hperm
  obtain ⟨hnotMem, hcounts, hrest⟩ := (Agrees.cons_iff hpc).mp hagrees
  have herase := eraseP_changeEntry (@TailpatchType.countDown_nextPC τ) pc h.mgr.gInstalledTailpatches
  have hpcs := nextPCs_changeEntry (@TailpatchType.countDown_nextPC τ) pc h.mgr.gInstalledTailpatches
  set rest := h.mgr.gInstalledTailpatches.eraseP (fun entry => entry.nextPC = pc)
  have hstep : h.mgr.step (.execute pc) =
      (⟨rest, (h.mgr.breakpoints \ (nextPCs h.mgr.gInstalledTailpatches).toFinset) ∪
        (nextPCs rest).toFinset, h.mgr.registeredCallbacks⟩, entry.fTailpatch) := by
    simp only [EmPatchMgr.step, if_pos hmark, EmPatchMgr.recoverFromTailpatch, hfind]
    rw [if_pos (hcounts.countDown_eq_zero_iff.mpr hlast)]
    simp only [EmPatchMgr.installInstructionBreaks, EmPatchMgr.removeInstructionBreaks, foldl_erase_eq,
      foldl_insert_eq, herase, hpcs]
  have hmem : ∀ x, x ∈ nextPCs h.mgr.gInstalledTailpatches ↔ x = pc ∨ x ∈ nextPCs rest := by
    intro x
    rw [(nextPCs_perm hperm).mem_iff, nextPCs, map_cons, mem_cons, hpc]
    rfl
  have hdue : entry.fTailpatch = h.pending.due (.execute pc) := by
    obtain ⟨call, hcall⟩ := length_eq_one_iff.mp hlast
    have htp := hcounts.2
    rw [hcall] at htp
    rw [Pending.due, hcall]
    exact (Option.some.inj htp).symm
  constructor
  · intro _ hsound
    obtain ⟨call, hcall⟩ := length_eq_one_iff.mp hlast
    refine ⟨by rw [hcall]; rfl, fun _ hcallback => ?_⟩
    have hmarked : pc ∈ (h.step (.execute pc)).mgr.breakpoints := by
      rw [hsound.marks]
      simp only [History.step, hstep, EmPatchMgr.needed]
      exact Finset.mem_union_right _ hcallback
    simp only [History.step, hstep, Finset.mem_union, Finset.mem_sdiff, mem_toFinset, hmem] at hmarked
    rcases hmarked with hmarked | hmarked <;> grind
  · grind
  · intro hharmless
    have hapart := hharmless.2 hlast
    constructor
    · simp only [History.step, hstep, EmPatchMgr.needed, hc.marks]
      ext x
      simp only [Finset.mem_union, Finset.mem_sdiff, mem_toFinset, hmem]
      grind
    · obtain ⟨call, hcall⟩ := length_eq_one_iff.mp hlast
      simp only [History.step, hstep, Pending.step, hcall, tail_cons]
      exact hrest

theorem stepExact_execute_inner (hc : Consistent h) (hmark : pc ∈ h.mgr.breakpoints)
    (hfind : h.mgr.findEntry pc = some entry) (hmore : (h.pending pc).length ≠ 1) :
    StepExact h (.execute pc) := by
  obtain ⟨hpc, hperm, hchange⟩ := perm_of_find hfind
  have hagrees := hc.agrees.perm hperm
  obtain ⟨-, hcounts, -⟩ := (Agrees.cons_iff hpc).mp hagrees
  have hstep : h.mgr.step (.execute pc) =
      ({ h.mgr with
        gInstalledTailpatches := EmPatchMgr.changeEntry pc TailpatchType.countDown
          h.mgr.gInstalledTailpatches }, entry.fTailpatch) := by
    simp only [EmPatchMgr.step, if_pos hmark, EmPatchMgr.recoverFromTailpatch, hfind]
    rw [if_neg (mt hcounts.countDown_eq_zero_iff.mp hmore)]
  have hlast : (h.pending pc).getLast?.join = entry.fTailpatch := by
    rw [hcounts.2]
    rfl
  constructor
  · intro hdue _
    rw [hstep] at hdue
    exact ⟨hdue.symm.trans hlast.symm, fun hone => absurd hone hmore⟩
  · intro hharmless
    rw [hstep]
    exact (hharmless.1.trans hlast).symm
  · intro _
    constructor
    · simp only [History.step, hstep, EmPatchMgr.needed]
      rw [nextPCs_changeEntry TailpatchType.countDown_nextPC]
      exact hc.marks
    · have hnext : entry.countDown.nextPC = pc := hpc
      simp only [History.step, hstep, Pending.step]
      exact (hagrees.change hpc hnext (hcounts.tail hmore)).perm (hchange _).symm

theorem stepExact_execute (hc : Consistent h) (pc : Emuptr) : StepExact h (.execute pc) := by
  cases hfind : h.mgr.findEntry pc with
  | none => exact stepExact_execute_of_new hc (find_eq_none_iff.mp hfind)
  | some entry =>
    have hmark : pc ∈ h.mgr.breakpoints := by
      rw [hc.marks, EmPatchMgr.needed, Finset.mem_union, mem_toFinset]
      left
      by_contra hnotMem
      have hnone : h.mgr.findEntry pc = none := find_eq_none_iff.mpr hnotMem
      rw [hnone] at hfind
      cases hfind
    by_cases hlast : (h.pending pc).length = 1
    · exact stepExact_execute_last hc hmark hfind hlast
    · exact stepExact_execute_inner hc hmark hfind hlast

theorem stepExact_registerCallback (hc : Consistent h) (callbackPtr : Emuptr) :
    StepExact h (.registerCallback callbackPtr) := by
  refine ⟨fun _ _ => trivial, fun _ => rfl, fun _ => ?_⟩
  constructor
  · simp [History.step, EmPatchMgr.step, EmPatchMgr.registerCallback, EmPatchMgr.needed, hc.marks]
  · exact hc.agrees

theorem stepExact_releaseCallback (hc : Consistent h) (callbackPtr : Emuptr) :
    StepExact h (.releaseCallback callbackPtr) := by
  by_cases hregistered : callbackPtr ∈ h.mgr.registeredCallbacks
  · have hrelease : (h.step (.releaseCallback callbackPtr)).mgr =
        ⟨h.mgr.gInstalledTailpatches, h.mgr.breakpoints.erase callbackPtr,
          h.mgr.registeredCallbacks.erase callbackPtr⟩ := if_pos hregistered
    apply StepExact.of_quiet rfl rfl
    · intro hsound _
      by_contra hne
      have hmarked : callbackPtr ∈ (h.step (.releaseCallback callbackPtr)).mgr.breakpoints := by
        rw [hsound.marks, hrelease, EmPatchMgr.needed, Finset.mem_union, mem_toFinset]
        exact Or.inl (hc.agrees.ne_nil_iff.mp hne)
      rw [hrelease] at hmarked
      exact Finset.notMem_erase _ _ hmarked
    · intro hharmless
      have hnew : callbackPtr ∉ nextPCs h.mgr.gInstalledTailpatches :=
        fun hmem => hc.agrees.ne_nil_iff.mpr hmem (hharmless hregistered)
      constructor
      · rw [hrelease]
        simp only [EmPatchMgr.needed, hc.marks]
        rw [Finset.erase_union_distrib, Finset.erase_eq_of_notMem (by rwa [mem_toFinset])]
      · rw [hrelease]
        exact hc.agrees
  · have hrelease : (h.step (.releaseCallback callbackPtr)).mgr = h.mgr := if_neg hregistered
    apply StepExact.of_quiet rfl rfl
    · intro _ hmem
      exact absurd hmem hregistered
    · intro _
      constructor
      · rw [hrelease]
        exact hc.marks
      · rw [hrelease]
        exact hc.agrees

theorem stepExact_reset (hc : Consistent h) : StepExact h .reset := by
  apply StepExact.of_quiet rfl rfl
  · intro hsound pc hne
    have hmarked : pc ∈ h.mgr.breakpoints := by
      rw [hc.marks, EmPatchMgr.needed, Finset.mem_union, mem_toFinset]
      exact Or.inl (hc.agrees.ne_nil_iff.mp hne)
    have hmarks : h.mgr.breakpoints = ([] : List Emuptr).toFinset ∪ h.mgr.registeredCallbacks :=
      hsound.marks
    rw [hmarks] at hmarked
    simpa using hmarked
  · intro hharmless
    constructor
    · have hcover : (nextPCs h.mgr.gInstalledTailpatches).toFinset ⊆ h.mgr.registeredCallbacks := by
        intro pc hmem
        exact hharmless pc (hc.agrees.ne_nil_iff.mpr (mem_toFinset.mp hmem))
      have hmarks := hc.marks
      rw [EmPatchMgr.needed, Finset.union_eq_right.mpr hcover] at hmarks
      exact hmarks.trans (Finset.empty_union _).symm
    · exact ⟨nodup_nil, nofun, fun _ _ => rfl⟩

theorem agrees_pendingOf (hnodup : (nextPCs entries).Nodup)
    (hcounts : ∀ entry ∈ entries, 1 ≤ entry.fCount.toInt) : Agrees entries (pendingOf entries) := by
  refine ⟨hnodup, fun entry hmem => ?_, fun pc hpc => ?_⟩
  · have hfind : entries.find? (fun other => other.nextPC = entry.nextPC) = some entry := by
      cases hfound : entries.find? (fun other => other.nextPC = entry.nextPC) with
      | none => exact absurd (mem_map_of_mem hmem) (find_eq_none_iff.mp hfound)
      | some other =>
        have hsame : other.nextPC = entry.nextPC := (perm_of_find hfound).1
        rw [inj_on_of_nodup_map hnodup (mem_of_find?_eq_some hfound) hmem hsame]
    have hpositive := hcounts entry hmem
    rw [pendingOf, hfind]
    constructor
    · grind
    · rw [getLast?_replicate, if_neg (by omega)]
  · rw [pendingOf, find_eq_none_iff.mpr hpc]

theorem stepExact_load (hc : Consistent h) (chunk : Option (SavedTailpatches τ)) :
    StepExact h (.load chunk) := by
  cases chunk with
  | none => exact ⟨fun _ _ => trivial, fun _ => rfl, fun _ => hc⟩
  | some chunk =>
    by_cases hversion : chunk.version = EmPatchMgr.savestateVersion
    · have hload : (h.step (.load (some chunk))).mgr =
          ⟨chunk.tailpatches, h.mgr.breakpoints ∪ (nextPCs chunk.tailpatches).toFinset,
            h.mgr.registeredCallbacks⟩ := by
        simp only [History.step, EmPatchMgr.step, EmPatchMgr.load, hversion, ne_eq, not_true, if_false,
          EmPatchMgr.installInstructionBreaks, foldl_insert_eq]
        rfl
      have hpending : (h.step (.load (some chunk))).pending = pendingOf chunk.tailpatches :=
        if_neg (not_not.mpr hversion)
      apply StepExact.of_quiet rfl rfl
      · intro hsound _
        have hmarks := hsound.marks
        have hnodup := hsound.nodup
        have hcounts := hsound.counts
        simp only [hload, EmPatchMgr.needed] at hmarks hnodup hcounts
        refine ⟨hnodup, hcounts, fun pc hne => ?_⟩
        have hmarked : pc ∈ h.mgr.breakpoints ∪ (nextPCs chunk.tailpatches).toFinset := by
          rw [hc.marks, EmPatchMgr.needed]
          have hmem := hc.agrees.ne_nil_iff.mp hne
          simp [hmem]
        rwa [hmarks, Finset.mem_union, mem_toFinset] at hmarked
      · intro hharmless
        obtain ⟨hnodup, hcounts, hcovered⟩ := hharmless hversion
        constructor
        · rw [hload]
          simp only [EmPatchMgr.needed, hc.marks]
          ext pc
          have hpc := hcovered pc
          rw [hc.agrees.ne_nil_iff] at hpc
          simp only [Finset.mem_union, mem_toFinset]
          tauto
        · rw [hload, hpending]
          exact agrees_pendingOf hnodup hcounts
    · have hload : (h.step (.load (some chunk))) = h := by
        have hmgr : h.mgr.load (some chunk) = h.mgr := if_pos hversion
        have hpending : h.pending.step (.load (some chunk)) = h.pending := if_pos hversion
        rw [History.step, EmPatchMgr.step, hmgr, hpending]
      apply StepExact.of_quiet rfl rfl
      · intro _ hsame
        exact absurd hsame hversion
      · grind

theorem stepExact (hc : Consistent h) (event : Event τ) : StepExact h event := by
  cases event with
  | systemCall context hp tp => exact stepExact_systemCall hc context hp tp
  | execute pc => exact stepExact_execute hc pc
  | registerCallback callbackPtr => exact stepExact_registerCallback hc callbackPtr
  | releaseCallback callbackPtr => exact stepExact_releaseCallback hc callbackPtr
  | reset => exact stepExact_reset hc
  | load chunk => exact stepExact_load hc chunk

theorem RunSound.sound {h : History τ} {events : List (Event τ)} (hrun : RunSound h events) :
    h.mgr.Sound := by
  cases events with
  | nil => exact hrun
  | cons event events => exact hrun.1

theorem runSound_iff_of_consistent (hc : Consistent h) (events : List (Event τ)) :
    RunSound h events ↔ RunHarmless h events := by
  induction events generalizing h with
  | nil => exact iff_of_true hc.sound trivial
  | cons event events ih =>
    have hexact := stepExact hc event
    constructor
    · rintro ⟨-, hdue, hrest⟩
      have hharmless := hexact.harmless hdue hrest.sound
      exact ⟨hharmless, (ih (hexact.consistent hharmless)).mp hrest⟩
    · rintro ⟨hharmless, hrest⟩
      exact ⟨hc.sound, hexact.due hharmless, (ih (hexact.consistent hharmless)).mpr hrest⟩

theorem consistent_init : Consistent (History.init (τ := τ)) :=
  ⟨rfl, List.nodup_nil, nofun, fun _ _ => rfl⟩

/-- A run is sound exactly if all its events are harmless. -/
theorem tailpatches_runSound_iff (events : List (Event τ)) :
    RunSound .init events ↔ RunHarmless .init events :=
  runSound_iff_of_consistent consistent_init events

/-- A call of a function with a tail patch, and a reset before it returns. -/
def interruptedEvents : List (Event Unit) :=
  [.systemCall ⟨0x1000, 0x1004, 0xa09a, 0x9a, 0, true, false⟩ none (some ()), .reset]

/-- The reset leaves the mark behind. -/
theorem not_runSound_interruptedEvents : ¬ RunSound .init interruptedEvents := by
  rintro ⟨-, -, -, -, hsound⟩
  exact absurd hsound.marks (by decide)

end Cloudpilot.Emulator.Tailpatches
