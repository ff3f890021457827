import Cloudpilot.Library.Words
import Cloudpilot.Uarm.MMU.Blocks
import Cloudpilot.Uarm.Memory

/-! # Memory accesses of the 68k interpreter

Every access translates its address, swaps bytes, and remembers the first fault until the
next instruction. RAM and ROM are arrays of bytes; all other addresses belong to devices.
-/

namespace Cloudpilot.Uarm.Pace

open Cloudpilot.Uarm.Cpu Cloudpilot.Uarm.MMU Cloudpilot.Library

/-- What the devices do with an access: it may fail, and it may change them. -/
structure Devices (δ : Type) where
  read : δ → Word → ℕ → Option (List Byte) × δ
  write : δ → Word → List Byte → Bool × δ

structure PhysicalMemory (δ : Type) where
  ram : ByteRegion
  rom : ByteRegion
  devices : δ

section Memory

variable {δ : Type} (dev : Devices δ)

/-- `memAccess` for a read. -/
def memAccessRead (mem : PhysicalMemory δ) (addr : Word) (size : ℕ) :
    Option (List Byte) × PhysicalMemory δ :=
  if regionContains mem.ram.pa mem.ram.sz addr then
    (accessBytes mem.ram.bytes (addr - mem.ram.pa) size, mem)
  else if regionContains mem.rom.pa mem.rom.sz addr then
    (accessBytes mem.rom.bytes (addr - mem.rom.pa) size, mem)
  else
    let r := dev.read mem.devices addr size
    (r.1, { mem with devices := r.2 })

def storeBytes (bytes : Word → Byte) (offset : Word) (data : List Byte) : Word → Byte :=
  fun a => (data[(a - offset).toNat]?).getD (bytes a)

def ramStore (mem : PhysicalMemory δ) (addr : Word) (data : List Byte) : PhysicalMemory δ :=
  { mem with ram := { mem.ram with bytes := storeBytes mem.ram.bytes (addr - mem.ram.pa) data } }

/-- `memAccess` for a write. -/
def memAccessWrite (mem : PhysicalMemory δ) (addr : Word) (data : List Byte) :
    Bool × PhysicalMemory δ :=
  if regionContains mem.ram.pa mem.ram.sz addr then
    if data.length ∈ [1, 2, 4, 8, 16, 32, 64] then (true, ramStore mem addr data) else (false, mem)
  else if regionContains mem.rom.pa mem.rom.sz addr then (false, mem)
  else
    let r := dev.write mem.devices addr data
    (r.1, { mem with devices := r.2 })

def walkReads (mem : PhysicalMemory δ) : MMU.Memory :=
  fun addr => (memAccessRead dev mem addr 4).1.map (LittleEndian.wordAt · 0)

end Memory

def htobe16 (value : BitVec 16) : BitVec 16 := value.setWidth 8 ++ (value >>> 8).setWidth 8

def htobe32 (value : Word) : Word :=
  value.setWidth 8 ++ (value >>> 8).setWidth 8 ++ (value >>> 16).setWidth 8 ++
    (value >>> 24).setWidth 8

/-- What a buffer holds after some bytes have been read into it. -/
def leWord (bytes : List Byte) (size : ℕ) : Word := LittleEndian.wordAt (bytes.take size) 0

def leBytes (value : Word) (size : ℕ) : List Byte := (LittleEndian.word value).take size

/-- C does not say what the builtin gives for zero. The instructions it compiles to count all
bits. -/
def builtinCtz (value : Word) : ℕ := ((List.range 32).find? (value.getLsbD ·)).getD 32

/-- The static variables of the file, with the memory behind them. -/
structure PaceState (δ : Type) where
  mem : PhysicalMemory δ
  mmu : ArmMmu
  priviledged : Bool
  fsr : Fsr
  lastAddr : Word
  wasWrite : Bool

section Access

variable {δ : Type} (dev : Devices δ)

def translate (s : PaceState δ) (addr : Word) (write : Bool) : Except Fsr Word × ArmMmu :=
  let r := mmuTranslate { s.mmu with mem := walkReads dev s.mem } addr s.priviledged write
  (translateResultOutcome r.1, r.2)

def paceGetLe (s : PaceState δ) (addr : Word) (size : ℕ) : Word × PaceState δ :=
  if s.fsr ≠ 0 then (0, s)
  else
    let r := translate dev s addr false
    let s := { s with lastAddr := addr, wasWrite := false, mmu := r.2 }
    match r.1 with
    | .error fsr => (0, { s with fsr })
    | .ok pa =>
      match memAccessRead dev s.mem pa size with
      | (none, mem) => (0, { s with mem, fsr := 10 })
      | (some bytes, mem) => (leWord bytes size, { s with mem })

def uaeGet8 (s : PaceState δ) (addr : Word) : Byte × PaceState δ :=
  let r := paceGetLe dev s addr 1
  (r.1.setWidth 8, r.2)

def uaeGet16 (s : PaceState δ) (addr : Word) : BitVec 16 × PaceState δ :=
  if s.fsr = 0 ∧ addr &&& 1#32 ≠ 0 then (0, { s with fsr := 10 })
  else
    let r := paceGetLe dev s addr 2
    (htobe16 (r.1.setWidth 16), r.2)

def uaeGet32Split (s : PaceState δ) (addr : Word) : Word × PaceState δ :=
  if addr &&& 0x3ff#32 ≤ 0x3ff#32 - 4#32 then
    if s.fsr ≠ 0 then (0, s)
    else
      let r := translate dev s addr false
      let s := { s with lastAddr := addr, wasWrite := false, mmu := r.2 }
      match r.1 with
      | .error fsr => (0, { s with fsr })
      | .ok pa =>
        match memAccessRead dev s.mem pa 2 with
        | (none, mem) => (0, { s with mem, fsr := 10 })
        | (some low, mem) =>
          match memAccessRead dev mem (pa + 2#32) 2 with
          | (none, mem) => (0, { s with mem, lastAddr := addr + 2#32, fsr := 10 })
          | (some high, mem) =>
            (htobe32 (leWord low 2 ||| leWord high 2 <<< 16), { s with mem, lastAddr := addr + 2#32 })
  else
    let low := paceGetLe dev s addr 2
    let high := paceGetLe dev low.2 (addr + 2#32) 2
    (htobe32 (low.1 ||| high.1 <<< 16), high.2)

def uaeGet32 (s : PaceState δ) (addr : Word) : Word × PaceState δ :=
  match builtinCtz addr with
  | 0 => (0, { s with fsr := 1, lastAddr := addr, wasWrite := false })
  | 1 => uaeGet32Split dev s addr
  | _ =>
    let r := paceGetLe dev s addr 4
    (htobe32 r.1, r.2)

def pacePutLe (s : PaceState δ) (addr value : Word) (size : ℕ) : PaceState δ :=
  if s.fsr ≠ 0 then s
  else
    let r := translate dev s addr true
    let s := { s with lastAddr := addr, wasWrite := true, mmu := r.2 }
    match r.1 with
    | .error fsr => { s with fsr }
    | .ok pa =>
      match memAccessWrite dev s.mem pa (leBytes value size) with
      | (false, mem) => { s with mem, fsr := 10 }
      | (true, mem) => { s with mem }

def uaePut8 (s : PaceState δ) (addr : Word) (value : Byte) : PaceState δ :=
  pacePutLe dev s addr (value.setWidth 32) 1

def uaePut16 (s : PaceState δ) (addr : Word) (value : BitVec 16) : PaceState δ :=
  if s.fsr = 0 ∧ addr &&& 1#32 ≠ 0 then { s with fsr := 1 }
  else pacePutLe dev s addr ((htobe16 value).setWidth 32) 2

/-- The translation of the first branch asks for a read. -/
def uaePut32Split (s : PaceState δ) (addr value : Word) : PaceState δ :=
  let value := htobe32 value
  if addr &&& 0x3ff#32 ≤ 0x3ff#32 - 4#32 then
    if s.fsr ≠ 0 then s
    else
      let r := translate dev s addr false
      let s := { s with lastAddr := addr, wasWrite := true, mmu := r.2 }
      match r.1 with
      | .error fsr => { s with fsr }
      | .ok pa =>
        match memAccessWrite dev s.mem pa (leBytes value 2) with
        | (false, mem) => { s with mem, fsr := 10 }
        | (true, mem) =>
          match memAccessWrite dev mem (pa + 2#32) (leBytes (value >>> 16) 2) with
          | (false, mem) => { s with mem, lastAddr := addr + 2#32, fsr := 10 }
          | (true, mem) => { s with mem, lastAddr := addr + 2#32 }
  else pacePutLe dev (pacePutLe dev s addr value 2) (addr + 2#32) (value >>> 16) 2

def uaePut32 (s : PaceState δ) (addr value : Word) : PaceState δ :=
  match builtinCtz addr with
  | 0 => { s with fsr := 1, lastAddr := addr, wasWrite := true }
  | 1 => uaePut32Split dev s addr value
  | _ => pacePutLe dev s addr (htobe32 value) 4

/-- The address, the direction and the status of the fault. -/
def paceGetMemeryFault (s : PaceState δ) : Word × Bool × Fsr := (s.lastAddr, s.wasWrite, s.fsr)

/-- The accesses of the 68k instructions. -/
inductive Access
  | get8 (addr : Word)
  | get16 (addr : Word)
  | get32 (addr : Word)
  | put8 (addr : Word) (value : Byte)
  | put16 (addr : Word) (value : BitVec 16)
  | put32 (addr value : Word)
  deriving DecidableEq, Repr

def perform (s : PaceState δ) : Access → Word × PaceState δ
  | .get8 addr => let r := uaeGet8 dev s addr; (r.1.setWidth 32, r.2)
  | .get16 addr => let r := uaeGet16 dev s addr; (r.1.setWidth 32, r.2)
  | .get32 addr => uaeGet32 dev s addr
  | .put8 addr value => (0, uaePut8 dev s addr value)
  | .put16 addr value => (0, uaePut16 dev s addr value)
  | .put32 addr value => (0, uaePut32 dev s addr value)

def run (s : PaceState δ) (accesses : List Access) : PaceState δ :=
  accesses.foldl (fun s a => (perform dev s a).2) s

end Access

open Cloudpilot.Uarm.Cpu Cloudpilot.Uarm.MMU Cloudpilot.Library Cloudpilot.Library.AlignedBlock

namespace Access

def addr : Access → Word
  | get8 addr | get16 addr | get32 addr | put8 addr _ | put16 addr _ | put32 addr _ => addr

def size : Access → ℕ
  | get8 _ | put8 _ _ => 1
  | get16 _ | put16 _ _ => 2
  | get32 _ | put32 _ _ => 4

def isWrite : Access → Bool
  | get8 _ | get16 _ | get32 _ => false
  | put8 _ _ | put16 _ _ | put32 _ _ => true

/-- The bytes that a write stores, most significant first. -/
def bytes : Access → List Byte
  | get8 _ => [0]
  | get16 _ => [0, 0]
  | get32 _ => [0, 0, 0, 0]
  | put8 _ value => [value]
  | put16 _ value => [(value >>> 8).setWidth 8, value.setWidth 8]
  | put32 _ value =>
    [(value >>> 24).setWidth 8, (value >>> 16).setWidth 8, (value >>> 8).setWidth 8, value.setWidth 8]

/-- Wide accesses to odd addresses are not aligned. -/
def Odd (a : Access) : Prop := a.size ≠ 1 ∧ a.addr &&& 1#32 ≠ 0

instance (a : Access) : Decidable a.Odd := inferInstanceAs (Decidable (_ ∧ _))

/-- A 32 bit access that consists of two halfwords. -/
def Split (a : Access) : Prop := a.size = 4 ∧ a.addr &&& 3#32 = 2#32

instance (a : Access) : Decidable a.Split := inferInstanceAs (Decidable (_ ∧ _))

end Access

def InBlock (addr : Word) (size : ℕ) : Prop := (addr &&& 0x3ff#32).toNat + size ≤ 1024

instance (addr : Word) (size : ℕ) : Decidable (InBlock addr size) :=
  inferInstanceAs (Decidable (_ ≤ _))

section

variable {δ : Type} (dev : Devices δ)

/-- Byte reads of one instruction. -/
def getBytes (s : PaceState δ) (addr : Word) : ℕ → List Byte × PaceState δ
  | 0 => ([], s)
  | n + 1 =>
    let r := uaeGet8 dev s addr
    let rest := getBytes r.2 (addr + 1#32) n
    (r.1 :: rest.1, rest.2)

def bigEndian (bytes : List Byte) : Word :=
  bytes.foldl (fun value byte => value <<< 8 ||| byte.setWidth 32) 0

def inRam (mem : PhysicalMemory δ) (pa : Word) : Prop := regionContains mem.ram.pa mem.ram.sz pa = true

def inRom (mem : PhysicalMemory δ) (pa : Word) : Prop :=
  ¬ inRam mem pa ∧ regionContains mem.rom.pa mem.rom.sz pa = true

/-- All bytes are in the RAM, or all in the ROM. -/
def Plain (mem : PhysicalMemory δ) (pa : Word) (size : ℕ) : Prop :=
  (∀ i < size, inRam mem (pa + BitVec.ofNat 32 i)) ∨ ∀ i < size, inRom mem (pa + BitVec.ofNat 32 i)

/-- A read that reaches RAM or ROM, unless its translation fails. -/
def OnMemory (s : PaceState δ) (addr : Word) (size : ℕ) : Prop :=
  ∀ pa, (translate dev s addr false).1 = .ok pa → Plain s.mem pa size

/-- Each block that the access meets is in RAM or ROM. -/
def ReadsMemory (s : PaceState δ) (a : Access) : Prop :=
  a.isWrite = false ∧ ¬ a.Odd ∧
    (InBlock a.addr a.size → OnMemory dev s a.addr a.size) ∧
    (¬ InBlock a.addr a.size → OnMemory dev s a.addr 2 ∧
      OnMemory dev { s with mmu := (translate dev s a.addr false).2 } (a.addr + 2#32) 2)

def physical (mem : PhysicalMemory δ) (write : Bool) (pa : Word) (data : List Byte) :
    Bool × PhysicalMemory δ :=
  if write then memAccessWrite dev mem pa data
  else ((memAccessRead dev mem pa data.length).1.isSome, (memAccessRead dev mem pa data.length).2)

/-- Accesses that follow each other behind one translation. -/
def chunks (s : PaceState δ) (write : Bool) (addr pa : Word) :
    List (List Byte) → Option (Word × Fsr) × PaceState δ
  | [] => (none, s)
  | data :: rest =>
    let r := physical dev s.mem write pa data
    let s := { s with mem := r.2 }
    if r.1 then
      chunks s write (addr + BitVec.ofNat 32 data.length) (pa + BitVec.ofNat 32 data.length) rest
    else (some (addr, 10), s)

/-- The accesses of one block, for which the direction of the access is what counts. -/
def block (s : PaceState δ) (write : Bool) (addr : Word) (data : List (List Byte)) :
    Option (Word × Fsr) × PaceState δ :=
  let r := translate dev s addr write
  let s := { s with mmu := r.2 }
  match r.1 with
  | .error fsr => (some (addr, fsr), s)
  | .ok pa => chunks dev s write addr pa data

/-- The fault of an access and the memory behind it. A write of which a part is refused
changes nothing. -/
def expected (s : PaceState δ) (a : Access) : Option (Word × Fsr) × PhysicalMemory δ :=
  if a.Odd then (some (a.addr, 1), s.mem)
  else if ¬ a.Split then
    let r := block dev s a.isWrite a.addr [a.bytes]
    (r.1, r.2.mem)
  else if InBlock a.addr 4 then
    let r := block dev s a.isWrite a.addr [a.bytes.take 2, a.bytes.drop 2]
    (r.1, r.2.mem)
  else
    let r := block dev s a.isWrite a.addr [a.bytes.take 2]
    if r.1.isSome then (r.1, r.2.mem)
    else
      let r' := block dev r.2 a.isWrite (a.addr + 2#32) [a.bytes.drop 2]
      let refused := (translate dev r.2 (a.addr + 2#32) a.isWrite).1.toOption.isNone
      (r'.1, if a.isWrite ∧ refused then s.mem else r'.2.mem)

/-- An access in an instruction without a fault so far. -/
structure Agrees (s : PaceState δ) (a : Access) : Prop where
  value : ReadsMemory dev s a → (perform dev s a).1 = bigEndian (getBytes dev s a.addr a.size).1
  fault : ∀ f, (expected dev s a).1 = some f →
    paceGetMemeryFault (perform dev s a).2 = (f.1, a.isWrite, f.2)
  success : (expected dev s a).1 = none → (perform dev s a).2.fsr = 0
  mem : (perform dev s a).2.mem = (expected dev s a).2

/-- Every access agrees as long as none has failed, and then the report stands and the memory
does not change. -/
structure InstructionAgrees (s : PaceState δ) (accesses : List Access) : Prop where
  agrees : ∀ done a rest, accesses = done ++ a :: rest → (run dev s done).fsr = 0 →
    Agrees dev (run dev s done) a
  stands : ∀ done more rest, accesses = done ++ more ++ rest → (run dev s done).fsr ≠ 0 →
    paceGetMemeryFault (run dev s (done ++ more)) = paceGetMemeryFault (run dev s done) ∧
      (run dev s (done ++ more)).mem = (run dev s done).mem

end

end Cloudpilot.Uarm.Pace
