import Cloudpilot.Uarm.MMU.Lines
import Cloudpilot.Uarm.MMU.Translate
import Cloudpilot.Uarm.Memory

/-! # The instruction cache

Lines of 32 bytes, indexed by 17 bits of the virtual address. The tag of a line is
the ten bits above, but a fetch keeps and compares only eight of them, while the
invalidation of an address compares all ten. A line is live when it carries the
current revision.
-/

namespace Cloudpilot.Uarm.ICache

open Cloudpilot.Uarm.Cpu Cloudpilot.Uarm.MMU BitVec

abbrev Index := BitVec 17

def calculateIndex (va : Word) : Index := (va >>> 5).setWidth 17

def calculateTag (va : Word) : Word := va >>> 22

def calculateLineIndex (va : Word) : ℕ := (va &&& 0x1F#32).toNat

def maskLine (va : Word) : Word := va &&& 0xFFFFFFE0#32

def decodedBits : Word := 0x03
def decodedBitsArm : Word := 0x02
def decodedBitsThumb : Word := 0x03
def decodedBitsShift : ℕ := 2

structure Icacheline where
  data : List Byte
  decoded : ℕ → Word
  tag : BitVec 16
  revision : Word

structure Icache where
  mem : ArmMem
  mmu : ArmMmu
  revision : Word
  cache : Index → Icacheline

/-- The two instruction decoders, whose results the cache keeps beside the bytes. -/
structure Decoder where
  cpuDecodeArm : Word → Word
  cpuDecodeThumb : BitVec 16 → Word

def icacheInval (ic : Icache) : Icache :=
  if ic.revision + 1#32 = 0#32 then
    { ic with revision := 1, cache := fun i => { ic.cache i with revision := 0 } }
  else { ic with revision := ic.revision + 1 }

/-- Zeroed memory, then an invalidation. -/
def icacheInit (mem : ArmMem) (mmu : ArmMmu) : Icache :=
  icacheInval {
    mem, mmu, revision := 0
    cache := fun _ => ⟨List.replicate 32 0, fun _ => 0, 0, 0⟩ }

def icacheInvalAddr (ic : Icache) (va : Word) : Icache :=
  let i := calculateIndex va
  let line := ic.cache i
  if line.revision ≠ ic.revision ∨ line.tag.setWidth 32 ≠ calculateTag va then ic
  else { ic with cache := Function.update ic.cache i { line with revision := ic.revision - 1 } }

/-- The loop over the lines below `limit`; none when the rounds do not suffice. -/
def invalLines (limit : Word) : ℕ → Word → Icache → Option Icache
  | 0, _, _ => none
  | rounds + 1, line, ic =>
    if line < limit then invalLines limit rounds (line + 32#32) (icacheInvalAddr ic line)
    else some ic

/-- After `2 ^ 27` rounds the line is back where it began, and the loop never ends. -/
def icacheInvalRange (ic : Icache) (addr size : Word) : Option Icache :=
  invalLines (addr + size) (2 ^ 27 + 1) (maskLine addr) ic

/-- The two instances of the fetch template. -/
inductive FetchSize where
  | two | four
  deriving DecidableEq, Repr

def FetchSize.bytes : FetchSize → ℕ
  | .two => 2
  | .four => 4

def inst16 (bytes : List Byte) : BitVec 16 := bytes.getD 1 0 ++ bytes.getD 0 0

def inst32 (bytes : List Byte) : Word :=
  bytes.getD 3 0 ++ bytes.getD 2 0 ++ bytes.getD 1 0 ++ bytes.getD 0 0

def decode (dec : Decoder) : FetchSize → List Byte → Word
  | .two, buf => dec.cpuDecodeThumb (inst16 buf)
  | .four, buf => dec.cpuDecodeArm (inst32 buf)

def decodedBitsOf : FetchSize → Word
  | .two => decodedBitsThumb
  | .four => decodedBitsArm

structure Fetched where
  buf : List Byte
  decoded : Word
  deriving DecidableEq, Repr

/-- The tag as the fetch keeps it, in eight bits. -/
def fetchTag (va : Word) : BitVec 8 := (calculateTag va).setWidth 8

/-- The hit test of a fetch. -/
def cached (ic : Icache) (va : Word) : Bool :=
  let line := ic.cache (calculateIndex va)
  line.revision = ic.revision ∧ line.tag = (fetchTag va).setWidth 16

/-- New data for a line; the decoded instructions of changed words are dropped. -/
def fillLine (ic : Icache) (va : Word) (data : List Byte) : Icacheline :=
  let line := ic.cache (calculateIndex va)
  { data
    decoded := fun k =>
      if inst32 (data.drop (k / 2 * 4)) ≠ inst32 (line.data.drop (k / 2 * 4)) then 0
      else line.decoded k
    tag := (fetchTag va).setWidth 16
    revision := ic.revision }

/-- The end of a fetch: bytes and decoded instruction from the line of the address. -/
def fetchFromLine (dec : Decoder) (ic : Icache) (sz : FetchSize) (va : Word) : Fetched × Icache :=
  let i := calculateIndex va
  let line := ic.cache i
  let buf := (line.data.drop (calculateLineIndex va)).take sz.bytes
  let iInst := calculateLineIndex va / 2
  if line.decoded iInst &&& decodedBits ≠ decodedBitsOf sz then
    let decoded := decode dec sz buf
    let line' := { line with
      decoded := Function.update line.decoded iInst
        ((decoded <<< decodedBitsShift) ||| decodedBitsOf sz) }
    (⟨buf, decoded⟩, { ic with cache := Function.update ic.cache i line' })
  else (⟨buf, (line.decoded iInst).sshiftRight decodedBitsShift⟩, ic)

/-- Where a miss reads: the physical address and whether the line may be cached. -/
def translateFetch (ic : Icache) (va : Word) : Except Fsr (Word × Bool) :=
  if mmuIsOn ic.mmu then
    let result := (mmuTranslate ic.mmu va true false).1
    if mmuTranslateResultOk result then
      .ok (mmuTranslateResultPa result, mmuTranslateResultCacheable result)
    else .error (mmuTranslateResultFsr result)
  else .ok (va, false)

def afterTranslateFetch (ic : Icache) (va : Word) : Icache :=
  if mmuIsOn ic.mmu then { ic with mmu := (mmuTranslate ic.mmu va true false).2 } else ic

def fetchMiss (dec : Decoder) (ic : Icache) (sz : FetchSize) (va : Word) :
    Except Fsr Fetched × Icache :=
  let ic' := afterTranslateFetch ic va
  match translateFetch ic va with
  | .error fsr => (.error fsr, ic')
  | .ok (pa, false) =>
    match memInstructionFetch ic.mem pa sz.bytes with
    | none => (.error 0x0d, ic')
    | some buf => (.ok ⟨buf, decode dec sz buf⟩, ic')
  | .ok (pa, true) =>
    match memInstructionFetch ic.mem (maskLine pa) 32 with
    | none => (.error 0x0d, ic')
    | some data =>
      let filled := { ic' with
        cache := Function.update ic'.cache (calculateIndex va) (fillLine ic' va data) }
      let (fetched, ic'') := fetchFromLine dec filled sz va
      (.ok fetched, ic'')

def misaligned (sz : FetchSize) (va : Word) : Bool :=
  va &&& BitVec.ofNat 32 (sz.bytes - 1) ≠ 0

def icacheFetch (dec : Decoder) (ic : Icache) (sz : FetchSize) (va : Word) :
    Except Fsr Fetched × Icache :=
  if misaligned sz va then (.error 3, ic)
  else if cached ic va then
    let (fetched, ic') := fetchFromLine dec ic sz va
    (.ok fetched, ic')
  else fetchMiss dec ic sz va

/-- The calls into the cache, writes to the memory behind it, and calls into its MMU. -/
inductive Op where
  | fetch (sz : FetchSize) (va : Word)
  | inval
  | invalAddr (va : Word)
  | invalRange (addr size : Word)
  | memWrite (mem : ArmMem)
  | mmu (op : MMU.Op)

def step (dec : Decoder) (ic : Icache) : Op → Option Icache
  | .fetch sz va => some (icacheFetch dec ic sz va).2
  | .inval => some (icacheInval ic)
  | .invalAddr va => some (icacheInvalAddr ic va)
  | .invalRange addr size => icacheInvalRange ic addr size
  | .memWrite mem => some { ic with mem }
  | .mmu op => some { ic with mmu := MMU.step ic.mmu op }

def run (dec : Decoder) (ic : Icache) (ops : List Op) : Option Icache := ops.foldlM (step dec) ic

open Cloudpilot.Uarm.Cpu Cloudpilot.Uarm.MMU Cloudpilot.Library.AlignedBlock

def SameLine (a b : Word) : Prop := a >>> 5 = b >>> 5

instance (a b : Word) : Decidable (SameLine a b) := inferInstanceAs (Decidable (_ = _))

theorem SameLine.toNat_div {a b : Word} (h : SameLine a b) : a.toNat / 32 = b.toNat / 32 :=
  toNat_div_eq_of_shiftRight_eq (k := 5) h

theorem sameLine_of_toNat_div {a b : Word} (h : a.toNat / 32 = b.toNat / 32) : SameLine a b :=
  shiftRight_eq_of_toNat_div_eq (k := 5) h

/-- What the core would read at the translation of the address with no cache in between. -/
def uncachedFetch (ic : Icache) (sz : FetchSize) (va : Word) : Except Fsr (List Byte) :=
  if misaligned sz va then .error 3
  else
    match translateFetch ic va with
    | .error fsr => .error fsr
    | .ok (pa, _) =>
      match memInstructionFetch ic.mem pa sz.bytes with
      | none => .error 0x0d
      | some buf => .ok buf

/-- The whole line lies in the RAM, or the whole line lies in the ROM. -/
def InByteMemory (mem : ArmMem) (pa : Word) : Prop :=
  (∀ b, SameLine b pa → regionContains mem.ram.pa mem.ram.sz b = true) ∨
  (∀ b, SameLine b pa → regionContains mem.ram.pa mem.ram.sz b = false ∧
    regionContains mem.rom.pa mem.rom.sz b = true)

def lineBytes (data : List Byte) (sz : FetchSize) (va : Word) : List Byte :=
  (data.drop (calculateLineIndex va)).take sz.bytes

theorem toNat_calculateLineIndex (va : Word) : calculateLineIndex va = va.toNat % 32 :=
  toNat_lineOffset va

theorem toNat_maskLine (va : Word) : (maskLine va).toNat = va.toNat / 32 * 32 := toNat_line va

theorem maskLine_sameLine (va : Word) : SameLine (maskLine va) va := by
  apply sameLine_of_toNat_div
  rw [toNat_maskLine]
  omega

theorem maskLine_add (va : Word) : maskLine va + BitVec.ofNat 32 (calculateLineIndex va) = va := by
  rw [calculateLineIndex, ofNat_toNat, setWidth_eq]
  exact line_add_offset va

theorem SameLine.maskLine_eq {a b : Word} (h : SameLine a b) : maskLine a = maskLine b := by
  apply eq_of_toNat_eq
  rw [toNat_maskLine, toNat_maskLine, h.toNat_div]

theorem fetch_in_line {sz : FetchSize} {va : Word} (h : misaligned sz va = false) :
    calculateLineIndex va + sz.bytes ≤ 32 := by
  rw [toNat_calculateLineIndex]
  cases sz with
  | two =>
    have hlow : (va &&& 1#32).toNat = va.toNat % 2 ^ 1 := by simp
    have hzero : va &&& 1#32 = 0 := not_not.mp (of_decide_eq_false h)
    rw [hzero] at hlow
    simp only [FetchSize.bytes, ofNat_eq_ofNat, toNat_zero] at hlow ⊢
    omega
  | four =>
    have hlow : (va &&& 3#32).toNat = va.toNat % 2 ^ 2 := by
      exact Nat.and_two_pow_sub_one_eq_mod _ 2
    have hzero : va &&& 3#32 = 0 := not_not.mp (of_decide_eq_false h)
    rw [hzero] at hlow
    simp only [FetchSize.bytes, ofNat_eq_ofNat, toNat_zero] at hlow ⊢
    omega

theorem accessBytes_slice {bytes : Word → Byte} {start : Word} {data : List Byte} {off : ℕ}
    {sz : FetchSize} (h : accessBytes bytes start 32 = some data) (hoff : off + sz.bytes ≤ 32) :
    accessBytes bytes (start + BitVec.ofNat 32 off) sz.bytes =
      some ((data.drop off).take sz.bytes) := by
  have hdata : (List.range 32).map (fun i => bytes (start + BitVec.ofNat 32 i)) = data := by
    simpa [accessBytes] using h
  have hsz : sz.bytes ∈ [1, 2, 4, 8, 16, 32, 64] := by cases sz <;> decide
  rw [accessBytes, if_pos hsz, Option.some.injEq, ← hdata]
  apply List.ext_getElem
  · simp
    omega
  · simp [List.getElem_map, List.getElem_range, List.getElem_take, List.getElem_drop, BitVec.ofNat_add, add_assoc]

theorem memInstructionFetch_line {mem : ArmMem} {pa : Word} (h : InByteMemory mem pa) :
    ∃ data, memInstructionFetch mem (maskLine pa) 32 = some data ∧
      ∀ (b : Word) (sz : FetchSize), SameLine b pa → calculateLineIndex b + sz.bytes ≤ 32 →
        memInstructionFetch mem b sz.bytes = some (lineBytes data sz b) := by
  have hstart : ∀ b base : Word, SameLine b pa →
      b - base = (maskLine pa - base) + BitVec.ofNat 32 (calculateLineIndex b) := by
    intro b base hb
    rw [← hb.maskLine_eq]
    conv_lhs => rw [← maskLine_add b]
    ring
  rcases h with hram | hrom
  · refine ⟨_, by rw [memInstructionFetch, if_pos (hram _ (maskLine_sameLine pa))]; rfl, ?_⟩
    intro b sz hb hin
    rw [memInstructionFetch, if_pos (hram b hb), hstart b _ hb]
    exact accessBytes_slice rfl hin
  · obtain ⟨hno, hyes⟩ := hrom _ (maskLine_sameLine pa)
    refine ⟨_, by rw [memInstructionFetch, hno, if_neg Bool.false_ne_true, if_pos hyes]; rfl, ?_⟩
    intro b sz hb hin
    obtain ⟨hno', hyes'⟩ := hrom b hb
    rw [memInstructionFetch, hno', if_neg Bool.false_ne_true, if_pos hyes', hstart b _ hb]
    exact accessBytes_slice rfl hin

theorem translateFetch_line {ic : Icache} (hal : TlbAligned ic.mmu) {a b : Word}
    (h : SameLine b a) :
    translateFetch ic b = (translateFetch ic a).map fun r =>
      (maskLine r.1 + (b &&& 0x1F#32), r.2) := by
  by_cases hon : mmuIsOn ic.mmu = true
  · simp only [translateFetch, if_pos hon, mmuTranslate_read, readTranslation_line hal h]
    cases readTranslation ic.mmu a with
    | error fsr =>
      simp [Except.map, encodeTranslation, translateResultFault_ok]
    | ok r =>
      simp only [Except.map, encodeTranslation, translateResult_ok, translateResult_pa,
        translateResult_cacheable, if_true, maskLine]
  · have hline : maskLine a + (b &&& 0x1F#32) = b := by
      rw [← h.maskLine_eq]
      exact line_add_offset b
    simp [translateFetch, if_neg hon, Except.map, hline]

theorem uncachedFetch_line {ic : Icache} (hal : TlbAligned ic.mmu) {a b pa : Word} {c : Bool}
    (htranslate : translateFetch ic a = .ok (pa, c)) (hmem : InByteMemory ic.mem pa)
    {data : List Byte} (hdata : memInstructionFetch ic.mem (maskLine pa) 32 = some data)
    {sz : FetchSize} (hab : SameLine b a) (haligned : misaligned sz b = false) :
    uncachedFetch ic sz b = .ok (lineBytes data sz b) := by
  obtain ⟨data', hdata', hfetch⟩ := memInstructionFetch_line hmem
  have heq : data' = data := Option.some.inj (hdata'.symm.trans hdata)
  subst heq
  have hpb : (maskLine pa + (b &&& 0x1F#32)).toNat = pa.toNat / 32 * 32 + b.toNat % 32 := by
    rw [BitVec.toNat_add, toNat_maskLine, toNat_lineOffset]
    omega
  have hindex : calculateLineIndex (maskLine pa + (b &&& 0x1F#32)) = calculateLineIndex b := by
    simp [toNat_calculateLineIndex, hpb]
  have hsame : SameLine (maskLine pa + (b &&& 0x1F#32)) pa := by
    apply sameLine_of_toNat_div
    omega
  have hread := hfetch _ sz hsame (by rw [hindex]; exact fetch_in_line haligned)
  rw [uncachedFetch, if_neg (by simp [haligned]), translateFetch_line hal hab, htranslate]
  simp [Except.map, hread, lineBytes, hindex]

end Cloudpilot.Uarm.ICache
