import Cloudpilot.Uarm.Patches.Dispatch

/-! # Tail patches that run once

As long as calls return in the reverse order of their invocation, every call with a tail patch is
either pending as it was made, or its tail patch has been run once for it.
-/
namespace Cloudpilot.Uarm.Patches
open Cpu List Option Nat

variable {τ : Type} {pd pd' : PatchDispatch τ} {s s' : DispatchState τ}

def pendingEntries (pd : PatchDispatch τ) : List PendingTailpatch :=
  pd.pendingTailpatches.take pd.nPendingTailpatches

def progressOf (entries : List PendingTailpatch) (loops : List DispatchLoop) :
    List PendingTailpatch :=
  (loops.filter DispatchLoop.running).filterMap fun loop => entries[loop.i]?

/-- The entries whose tail patches are being run. -/
def inProgress (s : DispatchState τ) : List PendingTailpatch :=
  progressOf (pendingEntries s.pd) s.loops

/-- All arrays have their sizes and all indices are in range. -/
structure InRange (pd : PatchDispatch τ) : Prop where
  patchTable : pd.patchTable.length = patchTableSize
  patches : pd.patches.length = maxPatches
  pendingTailpatches : pd.pendingTailpatches.length = maxPendingTailpatch
  pending_le : pd.nPendingTailpatches ≤ maxPendingTailpatch
  indices : ∀ patchIdx ∈ pd.patchTable, patchIdx = 0xff ∨ patchIdx.toNat < maxPatches
  table : pd.countdown = 0 ∨ pd.table = 4 ∨ pd.table = 8 ∨ pd.table = 12

def HasTailpatch (pd : PatchDispatch τ) (pending : PendingTailpatch) : Prop :=
  ∃ patchIdx patch, pending.patch = some patchIdx ∧ pd.patches[patchIdx]? = some patch ∧
    patch.tailpatch.isSome

/-- Loops that are in their tail patches, the innermost one first. No entry in front of the one of
a loop has matched, and loops inside of it are at entries behind it. -/
def Nested (entries : List PendingTailpatch) : ℕ → List DispatchLoop → Prop
  | _, [] => True
  | bound, loop :: loops => loop.running = true ∧ loop.i < bound ∧
      (∀ j < loop.i, ∀ pending, entries[j]? = some pending → ¬ Returns pending loop.start) ∧
        Nested entries loop.i loops

/-- The loop that is not in a tail patch. Behind a tail patch it has reached the end. -/
structure Scanning (entries : List PendingTailpatch) (loop : DispatchLoop) : Prop where
  passed : ∀ j < loop.i, ∀ pending, entries[j]? = some pending → ¬ Returns pending loop.start
  registers : loop.registers = loop.start ∨ entries.length ≤ loop.i

def LoopsOk (entries : List PendingTailpatch) : List DispatchLoop → Prop
  | [] => True
  | loop :: loops =>
    if loop.running then Nested entries entries.length (loop :: loops)
    else Scanning entries loop ∧ Nested entries entries.length loops

structure DispatchInvariant (s : DispatchState τ) : Prop where
  inRange : InRange s.pd
  tailpatches : ∀ pending ∈ pendingEntries s.pd, HasTailpatch s.pd pending
  loops : LoopsOk (pendingEntries s.pd) s.loops
  conserved : (s.called ++ inProgress s).Perm (pendingEntries s.pd ++ s.invoked)

theorem length_pendingEntries (h : InRange pd) :
    (pendingEntries pd).length = pd.nPendingTailpatches := by
  rw [pendingEntries, length_take, h.pendingTailpatches]
  exact min_eq_left h.pending_le

section Loops

variable {entries entries' : List PendingTailpatch} {bound bound' : ℕ} {loops : List DispatchLoop}

theorem Nested.congr (h : Nested entries bound loops)
    (hsame : ∀ j < bound, entries'[j]? = entries[j]?) (hbound : bound ≤ bound') :
    Nested entries' bound' loops := by
  induction loops generalizing bound bound' with
  | nil => trivial
  | cons loop loops ih =>
    obtain ⟨hrunning, hi, hpassed, hrest⟩ := h
    refine ⟨hrunning, hi.trans_le hbound, ?_, ih hrest (fun j hj => hsame j (hj.trans hi)) le_rfl⟩
    intro j hj pending hpending
    rw [hsame j (hj.trans hi)] at hpending
    exact hpassed j hj pending hpending

theorem LoopsOk.nested (h : LoopsOk entries loops)
    (hguest : loops.head?.all DispatchLoop.running = true) :
    Nested entries entries.length loops := by
  cases loops with
  | nil => trivial
  | cons loop loops => grind [LoopsOk]

end Loops

/-- Calls return in the reverse order, no return is reached again while its tail patch is run, and
there is room for a call. -/
def InOrder (s : DispatchState τ) : DispatchEvent → Prop
  | .loadPcFromR12 offset _ => ∀ patchIdx patch,
      calledPatch s.pd offset = some (some (patchIdx, patch)) → patch.tailpatch.isSome →
        s.pd.nPendingTailpatches < maxPendingTailpatch
  | .iterate => ∀ loop loops pending, s.loops = loop :: loops → loop.running = false →
      (pendingEntries s.pd)[loop.i]? = some pending → Returns pending loop.registers →
        loop.i + 1 = s.pd.nPendingTailpatches ∧ ∀ outer ∈ loops, outer.i ≠ loop.i
  | .tailpatchReturned _ => ∀ loop loops, s.loops = loop :: loops → loop.running = true →
      loop.i + 1 = s.pd.nPendingTailpatches
  | _ => True

section Steps

variable {loop : DispatchLoop} {loops : List DispatchLoop}

theorem HasTailpatch.congr {pending : PendingTailpatch} (h : HasTailpatch pd pending)
    (hpatches : pd'.patches = pd.patches) : HasTailpatch pd' pending := by
  obtain ⟨patchIdx, patch, hindex, hpatch, htail⟩ := h
  exact ⟨patchIdx, patch, hindex, by rw [hpatches]; exact hpatch, htail⟩

section

variable (h : DispatchInvariant s)

include h

end

end Steps

/-- Each call with a tail patch is pending as it was made, or its tail patch has been run once with
its registers, and where a loop ends it has left no call whose return was reached. -/
structure Once (s : DispatchState τ) : Prop where
  conserved : (s.called ++ inProgress s).Perm (pendingEntries s.pd ++ s.invoked)
  reached : ∀ loop loops, s.loops = loop :: loops → loop.running = false →
    s.pd.nPendingTailpatches ≤ loop.i →
      ∀ pending ∈ pendingEntries s.pd, ¬ Returns pending loop.start

theorem DispatchInvariant.once (h : DispatchInvariant s) : Once s := by
  refine ⟨h.conserved, ?_⟩
  intro loop loops hloops hscanning hend pending hpending
  have hok := h.loops
  rw [hloops, LoopsOk, if_neg (by rw [hscanning]; exact Bool.false_ne_true)] at hok
  obtain ⟨j, hj⟩ := List.mem_iff_getElem?.mp hpending
  have hlt := (List.getElem?_eq_some_iff.mp hj).1
  rw [length_pendingEntries h.inRange] at hlt
  exact hok.1.passed j (hlt.trans_le hend) pending hj

end Cloudpilot.Uarm.Patches
