import Cloudpilot.Uarm.Cpu.State

/-! # Physical memory

The RAM and the ROM have fixed places and are looked up first; the devices follow
in the order of their registration. Instruction fetches from the ROM see its
peephole shadow, so `rom` holds the bytes of that buffer.
-/
namespace Cloudpilot.Uarm
open Cloudpilot.Uarm.Cpu

abbrev Byte := BitVec 8

structure ByteRegion where
  pa : Word
  sz : Word
  bytes : Word → Byte

/-- A region served by an access function. -/
structure DeviceRegion where
  pa : Word
  sz : Word
  aF : Word → ℕ → Option (List Byte)

structure ArmMem where
  ram : ByteRegion
  rom : ByteRegion
  regions : List DeviceRegion

/-- The test of an address against a region, in 32-bit arithmetic. -/
def regionContains (pa sz addr : Word) : Bool := pa ≤ addr ∧ pa + sz > addr

/-- The accesses that byte regions support. -/
def accessBytes (bytes : Word → Byte) (offset : Word) (size : ℕ) : Option (List Byte) :=
  if size ∈ [1, 2, 4, 8, 16, 32, 64] then
    some ((List.range size).map fun i => bytes (offset + BitVec.ofNat 32 i))
  else none

def memInstructionFetch (mem : ArmMem) (addr : Word) (size : ℕ) : Option (List Byte) :=
  if regionContains mem.ram.pa mem.ram.sz addr then
    accessBytes mem.ram.bytes (addr - mem.ram.pa) size
  else if regionContains mem.rom.pa mem.rom.sz addr then
    accessBytes mem.rom.bytes (addr - mem.rom.pa) size
  else
    (mem.regions.find? fun r => regionContains r.pa r.sz addr).bind fun r => r.aF addr size

end Cloudpilot.Uarm
