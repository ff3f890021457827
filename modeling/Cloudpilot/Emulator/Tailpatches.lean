import Mathlib.Tactic

/-!
# The tail patches of pending system calls

A system call with a tail patch is entered under the address it returns to, with a count of
the calls that return there, and the address is marked so that the CPU loop stops at it.
The marks are shared with the callbacks. The pending calls themselves are kept beside the
table, as stacks of tail patches by return address.
-/

namespace Cloudpilot.Emulator.Tailpatches

open List

abbrev Emuptr := BitVec 32

inductive CallROMType where
  | kExecuteROM
  | kSkipROM
  deriving DecidableEq

structure SystemCallContext where
  fPC : Emuptr
  fNextPC : Emuptr
  fTrapWord : BitVec 16
  fTrapIndex : BitVec 16
  fExtra : Emuptr
  fViaTrap : Bool
  fViaJsrA1 : Bool

structure TailpatchType (τ : Type*) where
  fContext : SystemCallContext
  fCount : BitVec 32
  fTailpatch : Option τ

namespace TailpatchType

variable {τ : Type*}

def nextPC (entry : TailpatchType τ) : Emuptr := entry.fContext.fNextPC

def countUp (entry : TailpatchType τ) : TailpatchType τ := { entry with fCount := entry.fCount + 1 }

def countDown (entry : TailpatchType τ) : TailpatchType τ := { entry with fCount := entry.fCount - 1 }

@[simp] theorem countUp_nextPC (entry : TailpatchType τ) : entry.countUp.nextPC = entry.nextPC := rfl

@[simp] theorem countDown_nextPC (entry : TailpatchType τ) :
    entry.countDown.nextPC = entry.nextPC := rfl

end TailpatchType

/-- What a savestate holds. The tail patch of a saved entry is the one that the patch tables have
for its context when it is loaded. -/
structure SavedTailpatches (τ : Type*) where
  version : BitVec 32
  tailpatches : List (TailpatchType τ)

/-- The patch manager, the breakpoints of the CPU loop, and the registered callbacks. -/
structure EmPatchMgr (τ : Type*) where
  gInstalledTailpatches : List (TailpatchType τ)
  breakpoints : Finset Emuptr
  registeredCallbacks : Finset Emuptr

/-- A system call comes with the answer of its head patch, if it has one, and its tail patch. -/
inductive Event (τ : Type*) where
  | systemCall (context : SystemCallContext) (hp : Option CallROMType) (tp : Option τ)
  | execute (pc : Emuptr)
  | registerCallback (callbackPtr : Emuptr)
  | releaseCallback (callbackPtr : Emuptr)
  | reset
  | load (chunk : Option (SavedTailpatches τ))

variable {τ : Type*}

namespace EmPatchMgr

def init : EmPatchMgr τ := ⟨[], ∅, ∅⟩

def installInstructionBreaks (mgr : EmPatchMgr τ) : EmPatchMgr τ :=
  { mgr with
    breakpoints := mgr.gInstalledTailpatches.foldl (fun marks entry => insert entry.nextPC marks)
      mgr.breakpoints }

def removeInstructionBreaks (mgr : EmPatchMgr τ) : EmPatchMgr τ :=
  { mgr with
    breakpoints := mgr.gInstalledTailpatches.foldl (fun marks entry => marks.erase entry.nextPC)
      mgr.breakpoints }

def changeEntry (pc : Emuptr) (change : TailpatchType τ → TailpatchType τ) :
    List (TailpatchType τ) → List (TailpatchType τ)
  | [] => []
  | entry :: entries =>
    if entry.nextPC = pc then change entry :: entries else entry :: changeEntry pc change entries

def findEntry (mgr : EmPatchMgr τ) (pc : Emuptr) : Option (TailpatchType τ) :=
  mgr.gInstalledTailpatches.find? (fun entry => entry.nextPC = pc)

def setupForTailpatch (mgr : EmPatchMgr τ) (tp : τ) (context : SystemCallContext) : EmPatchMgr τ :=
  match mgr.findEntry context.fNextPC with
  | some _ =>
    { mgr with
      gInstalledTailpatches :=
        changeEntry context.fNextPC TailpatchType.countUp mgr.gInstalledTailpatches }
  | none =>
    let removed := mgr.removeInstructionBreaks
    installInstructionBreaks
      { removed with
        gInstalledTailpatches := removed.gInstalledTailpatches ++ [⟨context, 1, some tp⟩] }

def recoverFromTailpatch (mgr : EmPatchMgr τ) (patchPC : Emuptr) : EmPatchMgr τ × Option τ :=
  match mgr.findEntry patchPC with
  | none => (mgr, none)
  | some entry =>
    let counted : EmPatchMgr τ :=
      { mgr with
        gInstalledTailpatches :=
          changeEntry patchPC TailpatchType.countDown mgr.gInstalledTailpatches }
    if entry.countDown.fCount = 0 then
      let removed := counted.removeInstructionBreaks
      (installInstructionBreaks
        { removed with
          gInstalledTailpatches :=
            removed.gInstalledTailpatches.eraseP (fun entry => entry.nextPC = patchPC) },
        entry.fTailpatch)
    else (counted, entry.fTailpatch)

def handlePatches (mgr : EmPatchMgr τ) (context : SystemCallContext) (hp : Option CallROMType)
    (tp : Option τ) : EmPatchMgr τ × Option τ :=
  let handled := hp.getD .kExecuteROM
  match tp with
  | none => (mgr, none)
  | some patch =>
    if handled = .kExecuteROM then (mgr.setupForTailpatch patch context, none) else (mgr, some patch)

def registerCallback (mgr : EmPatchMgr τ) (callbackPtr : Emuptr) : EmPatchMgr τ :=
  { mgr with
    breakpoints := insert callbackPtr mgr.breakpoints
    registeredCallbacks := insert callbackPtr mgr.registeredCallbacks }

def releaseCallback (mgr : EmPatchMgr τ) (callbackPtr : Emuptr) : EmPatchMgr τ :=
  if callbackPtr ∈ mgr.registeredCallbacks then
    { mgr with
      breakpoints := mgr.breakpoints.erase callbackPtr
      registeredCallbacks := mgr.registeredCallbacks.erase callbackPtr }
  else mgr

def reset (mgr : EmPatchMgr τ) : EmPatchMgr τ := { mgr with gInstalledTailpatches := [] }

def savestateVersion : BitVec 32 := 1

def load (mgr : EmPatchMgr τ) : Option (SavedTailpatches τ) → EmPatchMgr τ
  | none => mgr
  | some chunk =>
    if chunk.version ≠ savestateVersion then mgr
    else
      let cleared := ({ mgr with gInstalledTailpatches := [] } : EmPatchMgr τ)
      let removed := cleared.removeInstructionBreaks
      installInstructionBreaks { removed with gInstalledTailpatches := chunk.tailpatches }

/-- One event, and the tail patch that it calls. The CPU loop stops only at a marked address. -/
def step (mgr : EmPatchMgr τ) : Event τ → EmPatchMgr τ × Option τ
  | .systemCall context hp tp => mgr.handlePatches context hp tp
  | .execute pc => if pc ∈ mgr.breakpoints then mgr.recoverFromTailpatch pc else (mgr, none)
  | .registerCallback callbackPtr => (mgr.registerCallback callbackPtr, none)
  | .releaseCallback callbackPtr => (mgr.releaseCallback callbackPtr, none)
  | .reset => (mgr.reset, none)
  | .load chunk => (mgr.load chunk, none)

end EmPatchMgr

/-- The tail patches of the calls that return to an address, the innermost one first. -/
abbrev Pending (τ : Type*) := Emuptr → List (Option τ)

/-- Each saved entry stands for as many calls as it counts. -/
def pendingOf (saved : List (TailpatchType τ)) : Pending τ := fun pc =>
  match saved.find? (fun entry => entry.nextPC = pc) with
  | none => []
  | some entry => List.replicate entry.fCount.toInt.toNat entry.fTailpatch

namespace Pending

def step (pending : Pending τ) : Event τ → Pending τ
  | .systemCall context hp (some tp) =>
    if hp.getD .kExecuteROM = .kExecuteROM then
      Function.update pending context.fNextPC (some tp :: pending context.fNextPC)
    else pending
  | .systemCall _ _ none => pending
  | .execute pc => Function.update pending pc (pending pc).tail
  | .registerCallback _ => pending
  | .releaseCallback _ => pending
  | .reset => fun _ => []
  | .load none => pending
  | .load (some chunk) =>
    if chunk.version ≠ EmPatchMgr.savestateVersion then pending else pendingOf chunk.tailpatches

/-- The tail patch due at an event: that of a call which its head patch has handled, or that of the
innermost call which returns. -/
def due (pending : Pending τ) : Event τ → Option τ
  | .systemCall _ hp tp => if hp.getD .kExecuteROM = .kExecuteROM then none else tp
  | .execute pc => (pending pc).head?.join
  | .registerCallback _ => none
  | .releaseCallback _ => none
  | .reset => none
  | .load _ => none

end Pending

structure History (τ : Type*) where
  mgr : EmPatchMgr τ
  pending : Pending τ

namespace History

def init : History τ := ⟨.init, fun _ => []⟩

def step (h : History τ) (event : Event τ) : History τ :=
  ⟨(h.mgr.step event).1, h.pending.step event⟩

end History

def nextPCs (entries : List (TailpatchType τ)) : List Emuptr := entries.map TailpatchType.nextPC

theorem foldl_insert_eq (entries : List (TailpatchType τ)) (marks : Finset Emuptr) :
    entries.foldl (fun marks entry => insert entry.nextPC marks) marks =
      marks ∪ (nextPCs entries).toFinset := by
  induction entries generalizing marks with
  | nil => simp [nextPCs]
  | cons entry entries ih => simp [foldl_cons, ih, nextPCs]

theorem foldl_erase_eq (entries : List (TailpatchType τ)) (marks : Finset Emuptr) :
    entries.foldl (fun marks entry => marks.erase entry.nextPC) marks =
      marks \ (nextPCs entries).toFinset := by
  induction entries generalizing marks with
  | nil => simp [nextPCs]
  | cons entry entries ih =>
    rw [foldl_cons, ih]
    ext pc
    simp [nextPCs]
    tauto

theorem nextPCs_changeEntry {change : TailpatchType τ → TailpatchType τ}
    (hchange : ∀ entry, (change entry).nextPC = entry.nextPC) (pc : Emuptr)
    (entries : List (TailpatchType τ)) :
    nextPCs (EmPatchMgr.changeEntry pc change entries) = nextPCs entries := by
  induction entries with
  | nil => rfl
  | cons entry entries ih =>
    simp only [EmPatchMgr.changeEntry]
    split
    · simp [nextPCs, hchange]
    · simpa [nextPCs] using ih

theorem perm_of_find {entries : List (TailpatchType τ)} {pc : Emuptr} {entry : TailpatchType τ}
    (hfind : entries.find? (fun entry => entry.nextPC = pc) = some entry) :
    entry.nextPC = pc ∧
      entries.Perm (entry :: entries.eraseP (fun entry => entry.nextPC = pc)) ∧
      ∀ change, (EmPatchMgr.changeEntry pc change entries).Perm
        (change entry :: entries.eraseP (fun entry => entry.nextPC = pc)) := by
  induction entries with
  | nil => cases hfind
  | cons first entries ih =>
    by_cases hfirst : first.nextPC = pc
    · simp only [List.find?_cons, hfirst, decide_true, Option.some.injEq] at hfind
      subst hfind
      simp [EmPatchMgr.changeEntry, hfirst]
    · simp only [List.find?_cons, hfirst, decide_false] at hfind
      obtain ⟨hpc, hperm, hchange⟩ := ih hfind
      simp [EmPatchMgr.changeEntry, hfirst]
      refine ⟨hpc, ?_, fun change => ?_⟩
      · exact (hperm.cons first).trans (List.Perm.swap ..)
      · exact ((hchange change).cons first).trans (List.Perm.swap ..)

theorem eraseP_changeEntry {change : TailpatchType τ → TailpatchType τ}
    (hchange : ∀ entry, (change entry).nextPC = entry.nextPC) (pc : Emuptr)
    (entries : List (TailpatchType τ)) :
    (EmPatchMgr.changeEntry pc change entries).eraseP (fun entry => entry.nextPC = pc) =
      entries.eraseP (fun entry => entry.nextPC = pc) := by
  induction entries with
  | nil => rfl
  | cons entry entries ih =>
    by_cases hentry : entry.nextPC = pc
    · simp [EmPatchMgr.changeEntry, hentry, hchange]
    · simp [EmPatchMgr.changeEntry, hentry, ih]

theorem find_eq_none_iff {entries : List (TailpatchType τ)} {pc : Emuptr} :
    entries.find? (fun entry => entry.nextPC = pc) = none ↔ pc ∉ nextPCs entries := by
  simp [nextPCs, List.find?_eq_none]

/-- An entry counts the pending calls of its address, and has the tail patch of the outermost one. -/
def Counts (pending : List (Option τ)) (entry : TailpatchType τ) : Prop :=
  entry.fCount.toInt = pending.length ∧ pending.getLast? = some entry.fTailpatch

/-- The entries have different addresses, count the calls of their addresses, and no other address
has pending calls. -/
structure Agrees (entries : List (TailpatchType τ)) (pending : Pending τ) : Prop where
  nodup : (nextPCs entries).Nodup
  counts : ∀ entry ∈ entries, Counts (pending entry.nextPC) entry
  others : ∀ pc ∉ nextPCs entries, pending pc = []

theorem Counts.ne_nil {calls : List (Option τ)} {entry : TailpatchType τ} (h : Counts calls entry) :
    calls ≠ [] := by
  rintro rfl
  cases h.2

variable {entries entries' : List (TailpatchType τ)} {entry : TailpatchType τ} {pending : Pending τ}
  {pc : Emuptr}

theorem nextPCs_perm (hperm : entries.Perm entries') : (nextPCs entries).Perm (nextPCs entries') :=
  hperm.map _

namespace Agrees

theorem perm (hperm : entries.Perm entries') (h : Agrees entries pending) :
    Agrees entries' pending := by
  refine ⟨(nextPCs_perm hperm).nodup_iff.mp h.nodup, fun entry hmem => ?_, fun pc hpc => ?_⟩
  · exact h.counts entry (hperm.mem_iff.mpr hmem)
  · exact h.others pc (by rwa [(nextPCs_perm hperm).mem_iff])

theorem cons_iff (hpc : entry.nextPC = pc) :
    Agrees (entry :: entries) pending ↔ pc ∉ nextPCs entries ∧ Counts (pending pc) entry ∧
      Agrees entries (Function.update pending pc []) := by
  subst hpc
  constructor
  · intro h
    have hnodup : entry.nextPC ∉ nextPCs entries ∧ (nextPCs entries).Nodup := nodup_cons.mp h.nodup
    refine ⟨hnodup.1, h.counts entry mem_cons_self, hnodup.2, fun other hmem => ?_,
      fun pc hpc => ?_⟩
    · have hne : other.nextPC ≠ entry.nextPC := fun heq => hnodup.1 (heq ▸ mem_map_of_mem hmem)
      rw [Function.update_of_ne hne]
      exact h.counts other (mem_cons_of_mem _ hmem)
    · by_cases heq : pc = entry.nextPC
      · grind
      · rw [Function.update_of_ne heq]
        exact h.others pc (by simpa [nextPCs, heq] using hpc)
  · rintro ⟨hnotMem, hcounts, h⟩
    refine ⟨nodup_cons.mpr ⟨hnotMem, h.nodup⟩, fun other hmem => ?_, fun pc hpc => ?_⟩
    · rcases mem_cons.mp hmem with rfl | hmem
      · exact hcounts
      · have hne : other.nextPC ≠ entry.nextPC := fun heq => hnotMem (heq ▸ mem_map_of_mem hmem)
        have hother := h.counts other hmem
        rwa [Function.update_of_ne hne] at hother
    · have hpc' : pc ≠ entry.nextPC ∧ pc ∉ nextPCs entries := by simpa [nextPCs] using hpc
      have hothers := h.others pc hpc'.2
      rwa [Function.update_of_ne hpc'.1] at hothers

theorem change {entry' : TailpatchType τ} {calls : List (Option τ)} (hpc : entry.nextPC = pc)
    (hpc' : entry'.nextPC = pc) (h : Agrees (entry :: entries) pending) (hcounts : Counts calls entry') :
    Agrees (entry' :: entries) (Function.update pending pc calls) := by
  obtain ⟨hnotMem, -, hrest⟩ := (cons_iff hpc).mp h
  apply (cons_iff hpc').mpr
  rw [Function.update_self, Function.update_idem]
  exact ⟨hnotMem, hcounts, hrest⟩

theorem ne_nil_iff (h : Agrees entries pending) : pending pc ≠ [] ↔ pc ∈ nextPCs entries := by
  constructor
  · intro hne
    by_contra hnotMem
    exact hne (h.others pc hnotMem)
  · intro hmem
    obtain ⟨entry, hentry, rfl⟩ := mem_map.mp hmem
    exact (h.counts entry hentry).ne_nil

theorem count_pos (h : Agrees entries pending) (hmem : entry ∈ entries) : 1 ≤ entry.fCount.toInt := by
  have hcounts := h.counts entry hmem
  have hlength := length_pos_iff.mpr hcounts.ne_nil
  rw [hcounts.1]
  exact_mod_cast hlength

end Agrees

end Cloudpilot.Emulator.Tailpatches
