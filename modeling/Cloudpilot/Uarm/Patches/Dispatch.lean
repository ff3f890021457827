import Cloudpilot.Uarm.Cpu.State

/-! # Patches of system calls

A system call of the guest is two loads in a row, and a patch of it has a function that runs in
front of the call and one that runs when the call returns. The calls that have not returned are
kept in an array, in no order.
-/
namespace Cloudpilot.Uarm.Patches
open Cpu

abbrev Registers := Fin 16 → Word

/-- What may be run in front of a call, and the name `τ` of what is run behind it. -/
structure Patch (τ : Type) where
  syscall : Word
  headpatch : Option (Word → Registers → Registers)
  tailpatch : Option τ

/-- The pointer to the patch is null in entries that have not been used. -/
structure PendingTailpatch where
  registersAtInvocation : Registers
  returnAddress : Word
  patch : Option ℕ
  deriving DecidableEq

/-- `patchTable` has `0xff` where there is no patch. -/
structure PatchDispatch (τ : Type) where
  table : ℤ
  countdown : ℕ
  patchTable : List (BitVec 8)
  patches : List (Patch τ)
  nPatches : ℕ
  pendingTailpatches : List PendingTailpatch
  nPendingTailpatches : ℕ

def maxPendingTailpatch : ℕ := 32
def maxPatches : ℕ := 50
def patchTableSize : ℕ := 0xc00

variable {τ : Type}

/-- The entry of a call that has a patch, with the registers as the head patch leaves them. -/
def pendingOf (patchIdx : ℕ) (patch : Patch τ) (registers : Registers) : PendingTailpatch :=
  let registers := patch.headpatch.elim registers fun headpatch => headpatch patch.syscall registers
  ⟨registers, registers regNoLr &&& ~~~1, some patchIdx⟩

def calledPatch (pd : PatchDispatch τ) (offset : ℤ) : Option (Option (ℕ × Patch τ)) :=
  if pd.countdown ≠ 1 ∨ offset < 0 ∨ offset % 4 ≠ 0 ∨ offset > 0xfff then some none
  else do
    let key := ((BitVec.ofInt 32 (pd.table / 4 - 1)) <<< 10 ||| BitVec.ofInt 32 (offset / 4)).toNat
    let patchIdx ← pd.patchTable[key]?
    if patchIdx = 0xff then some none
    else do
      let patch ← pd.patches[patchIdx.toNat]?
      some (some (patchIdx.toNat, patch))

def Returns (pending : PendingTailpatch) (registers : Registers) : Prop :=
  pending.returnAddress = registers regNoPc ∧
    pending.registersAtInvocation regNoSp = registers regNoSp

instance (pending : PendingTailpatch) (registers : Registers) :
    Decidable (Returns pending registers) := inferInstanceAs (Decidable (_ ∧ _))

/-- The end of an iteration that has found a call: the entry is overwritten with the one at
`nPendingTailpatches`, which is counted in 32 bits. -/
def removePending (pd : PatchDispatch τ) (i : ℕ) : Option (PatchDispatch τ) :=
  let last := (pd.nPendingTailpatches + 2 ^ 32 - 1) % 2 ^ 32
  if i ≠ last then do
    let pending ← pd.pendingTailpatches[pd.nPendingTailpatches]?
    if i < pd.pendingTailpatches.length then
      some { pd with
        pendingTailpatches := pd.pendingTailpatches.set i pending
        nPendingTailpatches := last }
    else none
  else some { pd with nPendingTailpatches := last }

/-- A call of `patchOnBeforeExecute` in its loop: in front of iteration `i`, or in the tail patch
that this iteration calls. It has been started with some registers, and tail patches change them. -/
structure DispatchLoop where
  i : ℕ
  running : Bool
  start : Registers
  registers : Registers

/-- A tail patch can make system calls, so there may be loops inside of a loop. What has been called
and which tail patches have been run is the history. -/
structure DispatchState (τ : Type) where
  pd : PatchDispatch τ
  loops : List DispatchLoop
  called : List PendingTailpatch
  invoked : List PendingTailpatch

/-- The loads of a call, the start of a cycle, an iteration of the innermost loop, and the return of
a tail patch. -/
inductive DispatchEvent
  | loadR12FromR9 (offset : ℤ)
  | loadPcFromR12 (offset : ℤ) (registers : Registers)
  | beforeExecute (registers : Registers)
  | iterate
  | tailpatchReturned (registers : Registers)

def iterate (s : DispatchState τ) (loop : DispatchLoop) (loops : List DispatchLoop) :
    Option (DispatchState τ) :=
  if loop.i < s.pd.nPendingTailpatches then do
    let pending ← s.pd.pendingTailpatches[loop.i]?
    if ¬ Returns pending loop.registers then
      some { s with loops := { loop with i := loop.i + 1 } :: loops }
    else do
      let patchIdx ← pending.patch
      let patch ← s.pd.patches[patchIdx]?
      if patch.tailpatch.isSome then
        some { s with
          loops := { loop with running := true } :: loops
          invoked := s.invoked ++ [pending] }
      else do
        let pd ← removePending s.pd loop.i
        some { s with pd, loops := { loop with i := loop.i + 1 } :: loops }
  else some { s with loops }

end Cloudpilot.Uarm.Patches
