import Cloudpilot.Uarm.PaceMode.StateArea

/-!
# Copies in memory and the plain loops they replace

A copy inside the emulated memory goes through a buffer of 4096 bytes on the host. The
plain loops translate every address for itself and move one byte behind it. The conditions
follow the loops: where no device is met, no address computation wraps, and no store moves
the next byte of its block, blocks and bytes are the same.
-/

namespace Cloudpilot.Uarm.Memcpy

open Cloudpilot.Uarm.Cpu Cloudpilot.Uarm.MMU Cloudpilot.Uarm.Pace Cloudpilot.Uarm.PaceMode BitVec List

section

variable {δ : Type} (dev : Devices δ)

/-- The size of the buffer on the host. -/
def scratchSize : ℕ := 4096

def translatedAt (s : PaceState δ) (addr : Word) : PaceState δ :=
  { s with mmu := (translate dev s addr false).2 }

def readByte (s : PaceState δ) (addr : Word) : Option Byte × PaceState δ :=
  match (translate dev s addr false).1 with
  | .error _ => (none, translatedAt dev s addr)
  | .ok pa =>
    let r := memAccessRead dev s.mem pa 1
    (r.1.bind List.head?, { translatedAt dev s addr with mem := r.2 })

def readBytes (s : PaceState δ) (addr : Word) : ℕ → Option (List Byte) × PaceState δ
  | 0 => (some [], s)
  | n + 1 =>
    match readByte dev s addr with
    | (none, s) => (none, s)
    | (some b, s) =>
      let r := readBytes s (addr + 1#32) n
      (r.1.map (b :: ·), r.2)

/-- A store of one byte, whose translation asks for a write or for a read. -/
def writeByte (write : Bool) (s : PaceState δ) (addr : Word) (b : Byte) : Bool × PaceState δ :=
  match (translate dev s addr write).1 with
  | .error _ => (false, { s with mmu := (translate dev s addr write).2 })
  | .ok pa =>
    let r := memAccessWrite dev s.mem pa [b]
    (r.1, { s with mmu := (translate dev s addr write).2, mem := r.2 })

def writeBytes (write : Bool) (s : PaceState δ) (addr : Word) : List Byte → Bool × PaceState δ
  | [] => (true, s)
  | b :: bytes =>
    match writeByte dev write s addr b with
    | (false, s) => (false, s)
    | (true, s) => writeBytes write s (addr + 1#32) bytes

/-- No region ends inside a block of 1024 bytes. -/
structure WholeBlocks (mem : PhysicalMemory δ) : Prop where
  ram : ∀ a b : Word, a >>> 10 = b >>> 10 → inRam mem a → inRam mem b
  rom : ∀ a b : Word, a >>> 10 = b >>> 10 → inRom mem a → inRom mem b

/-- A place outside of RAM and ROM at which no device answers. -/
structure Unserved (mem : PhysicalMemory δ) (pa : Word) : Prop where
  ram : ¬ inRam mem pa
  rom : ¬ regionContains mem.rom.pa mem.rom.sz pa = true
  read : ∀ size, dev.read mem.devices pa size = (none, mem.devices)
  write : ∀ data, dev.write mem.devices pa data = (false, mem.devices)

/-- A place in RAM, in ROM, or one with nothing behind it. -/
def NoDevice (mem : PhysicalMemory δ) (pa : Word) : Prop :=
  inRam mem pa ∨ inRom mem pa ∨ Unserved dev mem pa

/-- The sum of the place and the bytes still to copy fits into 32 bits, or they all lie in its
block. -/
def Unwrapped (pa : Word) (size : ℕ) : Prop := pa.toNat + size < 2 ^ 32 ∨ pa.toNat % 1024 + size ≤ 1024

/-- What the translation of an address says of the bytes from it on. -/
def FitsAt (s : PaceState δ) (addr : Word) (size : ℕ) : Prop :=
  ∀ pa, (translate dev s addr false).1 = .ok pa → NoDevice dev s.mem pa ∧ Unwrapped pa size

/-- A loop of reads that meets no device. -/
def ReadFits (s : PaceState δ) (addr : Word) : ℕ → Prop
  | 0 => True
  | n + 1 => FitsAt dev s addr (n + 1) ∧ ReadFits (translatedAt dev s addr) (addr + 1#32) n

/-- Another memory leaves the translation of an address, and what it caches, as they are. -/
def Undisturbed (s : PaceState δ) (mem : PhysicalMemory δ) (addr : Word) : Prop :=
  (translate dev { s with mem } addr false).1 = (translate dev s addr false).1 ∧
    (translate dev { s with mem } addr false).2 =
      { (translate dev s addr false).2 with mem := walkReads dev mem }

/-- A loop of writes that meets no device, in which no store moves the next byte of its block. -/
def WriteFits (s : PaceState δ) (addr : Word) : List Byte → Prop
  | [] => True
  | b :: bytes => FitsAt dev s addr (bytes.length + 1) ∧
      (bytes ≠ [] → (addr + 1#32) >>> 10 = addr >>> 10 →
        Undisturbed dev (translatedAt dev s addr) (writeByte dev false s addr b).2.mem (addr + 1#32)) ∧
      WriteFits (writeByte dev false s addr b).2 (addr + 1#32) bytes

end

open Cloudpilot.Library Cloudpilot.Library.AlignedBlock

variable {δ : Type} {dev : Devices δ} {s t : PaceState δ} {mem : PhysicalMemory δ} {a b pa : Word}
  {n size : ℕ}

/-- The table of cached translations holds addresses of whole blocks. -/
def BlockEntries (s : PaceState δ) : Prop := TlbHolds (fun pa => pa.toNat % 1024 = 0) s.mmu

theorem BlockEntries.translatedAt (h : BlockEntries s) (a : Word) :
    BlockEntries (translatedAt dev s a) := by
  have htables : TlbHolds (fun pa => pa.toNat % 1024 = 0) { s.mmu with mem := walkReads dev s.mem } := h
  exact htables.mmuTranslate fills_blockAligned a s.priviledged false

theorem shiftRight_eq_of_lt {i : ℕ} (h : a.toNat % 1024 + i < 1024) :
    (a + BitVec.ofNat 32 i) >>> 10 = a >>> 10 := by
  apply eq_of_toNat_eq
  rw [toNat_ushiftRight, toNat_ushiftRight, toNat_add, BitVec.toNat_ofNat,
    Nat.shiftRight_eq_div_pow, Nat.shiftRight_eq_div_pow]
  omega

theorem WholeBlocks.plain (h : WholeBlocks mem) (hpa : inRam mem pa ∨ inRom mem pa)
    (hn : pa.toNat % 1024 + n ≤ 1024) : Plain mem pa n := by
  rcases hpa with hram | hrom
  · exact .inl fun i hi => h.ram pa _ (shiftRight_eq_of_lt (by omega)).symm hram
  · exact .inr fun i hi => h.rom pa _ (shiftRight_eq_of_lt (by omega)).symm hrom

/-- The state with the memory that the table walks see brought up to date. No translation sees a
difference. -/
def refresh (dev : Devices δ) (s : PaceState δ) : PaceState δ :=
  { s with mmu := { s.mmu with mem := walkReads dev s.mem } }

theorem translate_refresh (s : PaceState δ) (a : Word) (w : Bool) :
    translate dev (refresh dev s) a w = translate dev s a w := rfl

theorem refresh_translatedAt (s : PaceState δ) (a : Word) :
    refresh dev (translatedAt dev s a) = translatedAt dev s a := by
  have hmem : (translatedAt dev s a).mmu.mem = walkReads dev s.mem := (translate_mmu dev s a false).1
  change { translatedAt dev s a with
    mmu := { (translatedAt dev s a).mmu with mem := walkReads dev s.mem } } = _
  rw [← hmem]

/-- An address is translated without a change of the table. -/
structure Settled (dev : Devices δ) (s : PaceState δ) (a pa : Word) : Prop where
  place : (translate dev s a false).1 = .ok pa
  table : translatedAt dev s a = refresh dev s

theorem Settled.block_of_eq (hplace : (translate dev s a false).1 = .ok pa)
    (htable : translatedAt dev s a = refresh dev t) (hmem : t.mem = s.mem)
    (hpriv : t.priviledged = s.priviledged) (hblock : b >>> 10 = a >>> 10) :
    Settled dev t b (pa + (b - a)) := by
  have hmmu : (refresh dev t).mmu = (translate dev s a false).2 := by
    rw [← htable]
    rfl
  obtain ⟨hnext, hsame⟩ := translate_again (t := refresh dev t) hblock hmem hpriv hmmu false
  rw [translate_refresh] at hnext hsame
  constructor
  · rw [hnext, hplace]
    rfl
  · rw [translatedAt, hsame]
    rfl

theorem Settled.block (h : Settled dev s a pa) (hblock : b >>> 10 = a >>> 10) :
    Settled dev s b (pa + (b - a)) :=
  .block_of_eq h.place h.table rfl rfl hblock

theorem settled_translatedAt (h : (translate dev s a false).1 = .ok pa) :
    Settled dev (translatedAt dev s a) a pa := by
  have hsettled := Settled.block_of_eq (t := translatedAt dev s a) (b := a) h
    (refresh_translatedAt s a).symm rfl rfl rfl
  rwa [sub_self, add_zero] at hsettled

theorem Settled.next (h : Settled dev s a pa) (hlow : a.toNat % 1024 + 1 < 1024) :
    Settled dev s (a + 1#32) (pa + 1#32) := by
  have hblock : (a + 1#32) >>> 10 = a >>> 10 := shiftRight_eq_of_lt (i := 1) hlow
  have hnext := h.block hblock
  rwa [add_sub_cancel_left] at hnext

end Cloudpilot.Uarm.Memcpy
