import Cloudpilot.Hardware.MemoryStick.HostBounds
import Cloudpilot.Savestate.RoundTrip

/-! # The savestate of the memory stick

The stick and its host controller have a chunk each. The pointer to the output buffer is
saved as one byte: an offset into the register file, or a value for the prepared page.
-/
namespace Cloudpilot.Hardware.Stick
open Cloudpilot.Library Cloudpilot.Common List
open Cloudpilot.Savestate hiding Byte

def Operation.toByte : Operation → Byte
  | none => 0#8
  | readOne => 1#8
  | readMulti => 2#8
  | programOne => 3#8
  | programMulti => 4#8

def HostState.toByte : HostState → Byte
  | idle => 0#8
  | tpcWrite => 1#8
  | tpcRead => 2#8

/-- The byte that `Save` writes for the pointer. -/
def encodeBufferOut : BufferOut → Byte
  | .preparedPage => 0xff#8
  | .reg offset => if offset < sizeofRegisters then BitVec.ofNat 8 offset else 0#8
  | .null => 0#8

def bytes (buffer : ℕ → Byte) (count : ℕ) : List Byte :=
  (List.range count).map buffer

/-- The fields that every version of the stick's chunk has. -/
def stickFields (s : MemoryStick) : List Item :=
  [.buffer (bytes s.reg sizeofRegisters),
    .pack8 [s.readWindowStart, s.readWindowSize, s.writeWindowStart, s.writeWindowSize],
    .u32 (BitVec.ofNat 32 s.bufferOutSize), .buffer (bytes s.preparedPage 512),
    .pack8 [s.pagesPerBlock, s.segments, s.currentOperation.toByte, encodeBufferOut s.bufferOut]]

/-- What `MemoryStick::Save` puts into its chunk. -/
def stickItems (s : MemoryStick) : List Item :=
  .u32 2#32 :: (stickFields s ++ [.bool s.pagePending])

/-- The buffer of the FIFO in memory. -/
def fifoBytes (fifo : Fifo) : List Byte :=
  (List.range fifoCapacity).flatMap fun i =>
    [(fifo.buffer i).setWidth 8, (fifo.buffer i >>> 8).setWidth 8]

def hostFields (h : HostController) : List Item :=
  [.pack16 [h.mscmd, h.mscs], .pack16 [h.msics, h.msppcd],
    .pack8 [h.irqStat, h.state.toByte], .u32 (BitVec.ofNat 32 h.writeBufferSize),
    .u32 (BitVec.ofNat 32 h.readBufferIndex), .buffer (bytes h.writeBuffer sizeofWriteBuffer),
    .u32 (BitVec.ofNat 32 h.fifo.start), .u32 (BitVec.ofNat 32 h.fifo.size),
    .buffer (fifoBytes h.fifo)]

/-- What `EmRegsMB86189::DoSave` puts into its chunk. -/
def hostItems (h : HostController) : List Item :=
  .u32 1#32 :: hostFields h

def hostRequests (h : HostController) : List Request :=
  [⟨.memoryStick, stickItems h.memoryStick⟩, ⟨.regsMB86189, hostItems h⟩]

/-- The enumeration values of a byte; other values are not modelled. -/
def Operation.ofByte (byte : Byte) : Option Operation :=
  if byte = 0#8 then some .none
  else if byte = 1#8 then some .readOne
  else if byte = 2#8 then some .readMulti
  else if byte = 3#8 then some .programOne
  else if byte = 4#8 then some .programMulti
  else Option.none

def HostState.ofByte (byte : Byte) : Option HostState :=
  if byte = 0#8 then some .idle
  else if byte = 1#8 then some .tpcWrite
  else if byte = 2#8 then some .tpcRead
  else none

def decodeBufferOut (byte : Byte) : BufferOut :=
  if byte = 0#8 then .null
  else if byte.toNat < sizeofRegisters then .reg byte.toNat
  else .preparedPage

def bufferOfBytes (data : List Byte) (i : ℕ) : Byte := data.getD i 0#8

def stickShapes : List Shape :=
  [.buffer sizeofRegisters, .pack8 4, .u32, .buffer 512, .pack8 4]

/-- The state after the items of the first version have been read. -/
def loadStickItems (s : MemoryStick) : List (Option Item) → Option MemoryStick
  | [some (.buffer reg), some (.pack8 [readStart, readSize, writeStart, writeSize]),
      some (.u32 bufferOutSize), some (.buffer preparedPage),
      some (.pack8 [pagesPerBlock, segments, operation, encoded])] =>
    (Operation.ofByte operation).map fun currentOperation =>
      { s with
        reg := bufferOfBytes reg
        readWindowStart := readStart
        readWindowSize := readSize
        writeWindowStart := writeStart
        writeWindowSize := writeSize
        bufferOut := decodeBufferOut encoded
        bufferOutSize := bufferOutSize.toNat
        preparedPage := bufferOfBytes preparedPage
        pagesPerBlock := pagesPerBlock
        segments := segments
        currentOperation := currentOperation }
  | _ => none

/-- `MemoryStick::Load`. No result where the version is refused or the chunk is too small. -/
def loadStick (m : Mem) (chunk : Option Chunk) (s : MemoryStick) : Option MemoryStick :=
  match chunk with
  | none => some s
  | some c =>
    let (version, c) := get32 m c.reset
    if version > 2#32 then none
    else
      let (items, c) := getItems m c stickShapes
      (loadStickItems s items).bind fun s =>
        if version ≥ 2#32 then
          match getItem m c .bool with
          | (some (.bool pagePending), _) => some { s with pagePending := pagePending }
          | _ => none
        else some s

def fifoOfBytes (data : List Byte) (i : ℕ) : BitVec 16 :=
  bufferOfBytes data (2 * i + 1) ++ bufferOfBytes data (2 * i)

def hostShapes : List Shape :=
  [.pack16 2, .pack16 2, .pack8 2, .u32, .u32, .buffer sizeofWriteBuffer, .u32, .u32,
    .buffer (2 * fifoCapacity)]

def loadHostItems (h : HostController) : List (Option Item) → Option HostController
  | [some (.pack16 [mscmd, mscs]), some (.pack16 [msics, msppcd]),
      some (.pack8 [irqStat, stateByte]), some (.u32 writeBufferSize), some (.u32 readBufferIndex),
      some (.buffer writeBuffer), some (.u32 start), some (.u32 size), some (.buffer fifo)] =>
    (HostState.ofByte stateByte).map fun state =>
      { h with
        mscmd := mscmd
        mscs := mscs
        msics := msics
        msppcd := msppcd
        irqStat := irqStat
        state := state
        fifo := ⟨fifoOfBytes fifo, start.toNat, size.toNat⟩
        writeBuffer := bufferOfBytes writeBuffer
        writeBufferSize := writeBufferSize.toNat
        readBufferIndex := readBufferIndex.toNat }
  | _ => none

def loadController (m : Mem) (chunk : Option Chunk) (h : HostController) : Option HostController :=
  match chunk with
  | none => some h
  | some c =>
    let (version, c) := get32 m c.reset
    if version > 1#32 then none else loadHostItems h (getItems m c hostShapes).1

/-- `EmRegsMB86189::Load`, behind the parser of the savestate. -/
def loadHost {w : ℕ} (b : Buffer w) (h : HostController) : Option HostController :=
  (parseSavestate b).bind fun parsed =>
    if parsed.accepted then
      let m : Mem := fun a => b.words.getD a 0
      (loadStick m (loaderMap parsed.windows ChunkType.memoryStick.toWord) h.memoryStick).bind
        fun s =>
          loadController m (loaderMap parsed.windows ChunkType.regsMB86189.toWord)
            { h with memoryStick := s }
    else none

def hostRemount (h : HostController) (cardImage : Option CardImage) : HostController :=
  match cardImage with
  | none => hostUnmount h
  | some image => { h with memoryStick := remount h.memoryStick image }

theorem bufferOfBytes_end {data : List Byte} {i : ℕ} (hi : data.length ≤ i) :
    bufferOfBytes data i = 0#8 := by
  rw [bufferOfBytes, getD_eq_getElem?_getD, getElem?_eq_none hi]
  rfl

theorem bufferOfBytes_bytes {buffer : ℕ → Byte} {count : ℕ}
    (hend : ∀ i, count ≤ i → buffer i = 0#8) : bufferOfBytes (bytes buffer count) = buffer := by
  funext i
  rw [bufferOfBytes, bytes, getD_eq_getElem?_getD, getElem?_map]
  by_cases hi : i < count
  · rw [getElem?_range hi]
    rfl
  · rw [getElem?_eq_none (by simpa using hi)]
    exact (hend i (by omega)).symm

theorem Operation.ofByte_toByte (operation : Operation) :
    Operation.ofByte operation.toByte = some operation := by
  cases operation <;> rfl

theorem HostState.ofByte_toByte (state : HostState) :
    HostState.ofByte state.toByte = some state := by
  cases state <;> rfl

theorem fifoOfBytes_fifoBytes {fifo : Fifo} (hf : FifoBounds fifo) :
    fifoOfBytes (fifoBytes fifo) = fifo.buffer := by
  have hword : ∀ value : BitVec 16, (value >>> 8).setWidth 8 ++ value.setWidth 8 = value := by
    intro value
    apply BitVec.eq_of_getLsbD_eq
    intro i hi
    rw [BitVec.getLsbD_append]
    by_cases hlow : i < 8
    · simp [hlow]
    · simp [hlow, show i - 8 < 8 by omega, show 8 + (i - 8) = i by omega]
  funext i
  by_cases hi : i < fifoCapacity
  · have hbytes : ∀ i : ℕ, i < fifoCapacity →
        bufferOfBytes (fifoBytes fifo) (2 * i + 1) = (fifo.buffer i >>> 8).setWidth 8 ∧
          bufferOfBytes (fifoBytes fifo) (2 * i) = (fifo.buffer i).setWidth 8 := by
      intro i hi
      rw [fifoCapacity] at hi
      interval_cases i <;> exact ⟨rfl, rfl⟩
    rw [fifoOfBytes, (hbytes i hi).1, (hbytes i hi).2, hword]
  · rw [fifoCapacity] at hi
    have hlength : (fifoBytes fifo).length = 8 := rfl
    rw [fifoOfBytes, bufferOfBytes_end (by omega),
      bufferOfBytes_end (by omega), hf.buffer i (by rw [fifoCapacity]; omega)]
    rfl

theorem toNat_ofNat_small {n : ℕ} (hn : n ≤ 514) : (BitVec.ofNat 32 n).toNat = n := by
  rw [BitVec.toNat_ofNat, Nat.mod_eq_of_lt (by omega)]

theorem getItems_cons {m : Mem} {c c₂ : Chunk} {shape : Shape} {shapes : List Shape}
    {item : Option Item} {items : List (Option Item)}
    (h : getItems m c (shape :: shapes) = (item :: items, c₂)) :
    ∃ c₁, getItem m c shape = (item, c₁) ∧ getItems m c₁ shapes = (items, c₂) := by
  rw [getItems] at h
  rcases hfirst : getItem m c shape with ⟨item', c₁⟩
  rw [hfirst] at h
  rcases hrest : getItems m c₁ shapes with ⟨items', c'⟩
  simp only [hrest] at h
  cases h
  exact ⟨c₁, rfl, hrest⟩

theorem getItems_append {m : Mem} {c c₂ : Chunk} {shapes shapes' : List Shape}
    {items items' : List (Option Item)} (hlength : shapes.length = items.length)
    (h : getItems m c (shapes ++ shapes') = (items ++ items', c₂)) :
    ∃ c₁, getItems m c shapes = (items, c₁) ∧ getItems m c₁ shapes' = (items', c₂) := by
  induction shapes generalizing c items with
  | nil =>
    obtain rfl : items = [] := eq_nil_of_length_eq_zero hlength.symm
    exact ⟨c, rfl, h⟩
  | cons shape shapes ih =>
    cases items with
    | nil => cases hlength
    | cons item items =>
      obtain ⟨c₁, hfirst, hrest⟩ := getItems_cons h
      obtain ⟨c', hshapes, hlast⟩ := ih (Nat.succ.inj hlength) hrest
      refine ⟨c', ?_, hlast⟩
      rw [getItems, hfirst]
      simp [hshapes]

/-- The stick that `Load` makes of what `Save` wrote. -/
def restoredStick (s s₁ : MemoryStick) : MemoryStick :=
  { s with
    bufferOut := decodeBufferOut (encodeBufferOut s.bufferOut)
    cardImage := s₁.cardImage
    blockMap := s₁.blockMap
    blockMapDirtyPages := s₁.blockMapDirtyPages
    irqs := s₁.irqs }

theorem loadStickItems_saved {s : MemoryStick} (s₁ : MemoryStick) (hb : StickBounds s) :
    loadStickItems s₁ ((stickFields s).map some) =
      some { restoredStick s s₁ with pagePending := s₁.pagePending } := by
  simp only [stickFields, map_cons, map_nil, loadStickItems, Operation.ofByte_toByte,
    Option.map_some, bufferOfBytes_bytes hb.reg, bufferOfBytes_bytes hb.preparedPage]
  rw [toNat_ofNat_small (hb.bufferOutSize.trans (by decide))]
  rfl

theorem loadStick_saved {m : Mem} {c : Chunk} {s : MemoryStick} (s₁ : MemoryStick)
    (hb : StickBounds s) (hready : c.reset.Ready (probeSize (stickItems s)))
    (hholds : HoldsItems m c.buffer (stickItems s)) :
    loadStick m (some c) s₁ = some (restoredStick s s₁) := by
  have hget := hholds m c.reset (fun _ _ _ => rfl) rfl le_rfl hready
  have hshapes : (stickItems s).map Item.shape = .u32 :: (stickShapes ++ [.bool]) := by
    simp [stickItems, stickFields, stickShapes, Item.shape, bytes]
  have hvalues : (stickItems s).map some =
      some (.u32 2#32) :: ((stickFields s).map some ++ [some (.bool s.pagePending)]) := by
    rw [stickItems, map_cons, map_append]
    rfl
  rw [hshapes, hvalues] at hget
  obtain ⟨c₁, hversion, hrest⟩ := getItems_cons hget
  obtain ⟨c₂, hitems, hlast⟩ := getItems_append rfl hrest
  obtain ⟨c₃, hbool, -⟩ := getItems_cons hlast
  rcases hword : get32 m c.reset with ⟨version, c'⟩
  simp only [getItem, hword] at hversion
  cases hversion
  simp only [loadStick, hword, hitems, loadStickItems_saved s₁ hb, Option.bind_some, hbool]
  rfl

theorem loadHostItems_saved {h : HostController} (h₁ : HostController) (hb : HostBounds h) :
    loadHostItems h₁ ((hostFields h).map some) = some { h with memoryStick := h₁.memoryStick } := by
  have hsize := hb.writeBufferSize
  have hstart := hb.fifo.start
  have hfifo := hb.fifo.size
  rw [sizeofWriteBuffer] at hsize
  rw [fifoCapacity] at hstart hfifo
  simp only [hostFields, map_cons, map_nil, loadHostItems, HostState.ofByte_toByte,
    Option.map_some, bufferOfBytes_bytes hb.writeBuffer, fifoOfBytes_fifoBytes hb.fifo]
  rw [toNat_ofNat_small (by omega), toNat_ofNat_small hb.readBufferIndex,
    toNat_ofNat_small (by omega), toNat_ofNat_small (by omega)]

theorem loadController_saved {m : Mem} {c : Chunk} {h : HostController} (h₁ : HostController)
    (hb : HostBounds h) (hready : c.reset.Ready (probeSize (hostItems h)))
    (hholds : HoldsItems m c.buffer (hostItems h)) :
    loadController m (some c) h₁ = some { h with memoryStick := h₁.memoryStick } := by
  have hget := hholds m c.reset (fun _ _ _ => rfl) rfl le_rfl hready
  have hshapes : (hostItems h).map Item.shape = .u32 :: hostShapes := by
    simp [hostItems, hostFields, hostShapes, Item.shape, bytes, fifoBytes, fifoCapacity]
  rw [hshapes, hostItems, map_cons] at hget
  obtain ⟨c₁, hversion, hrest⟩ := getItems_cons hget
  rcases hword : get32 m c.reset with ⟨version, c'⟩
  simp only [getItem, hword] at hversion
  cases hversion
  simp only [loadController, hword, hrest, loadHostItems_saved h₁ hb]
  rfl

/-- The state behind saving `h`, loading into `h₁` and remounting the card. -/
def restored (h h₁ : HostController) : HostController :=
  hostRemount { h with memoryStick := restoredStick h.memoryStick h₁.memoryStick }
    h.memoryStick.cardImage

theorem loadHost_saved {arch : Arch} (t : Target arch) {h : HostController} (h₁ : HostController)
    (hb : HostBounds h) (hsub : hostRequests h ⊆ t.requests)
    (hsizes : ∀ r ∈ t.requests, probeSize r.items < 2 ^ 32) :
    ∃ s, save t.requests = (true, some s) ∧ ∃ hfits : s.size < 2 ^ (arch.width - 1),
      loadHost (bufferOf s hfits) h₁ =
        some { h with memoryStick := restoredStick h.memoryStick h₁.memoryStick } := by
  have hstick : (⟨.memoryStick, stickItems h.memoryStick⟩ : Request) ∈ t.requests :=
    hsub (by simp [hostRequests])
  have hhost : (⟨.regsMB86189, hostItems h⟩ : Request) ∈ t.requests :=
    hsub (by simp [hostRequests])
  have htotal : 3 ≤ (t.requests.map fun r => probeSize r.items).sum := by
    have hle := single_le_sum (fun _ _ => Nat.zero_le _) _
      (mem_map_of_mem (f := fun r : Request => probeSize r.items) hstick)
    have hsize : 3 ≤ probeSize (stickItems h.memoryStick) := by
      simp [probeSize, stickItems, stickFields, Item.probe]
      omega
    exact hsize.trans hle
  obtain ⟨s, hsave, hfits, windows, hparse, hchunks⟩ := loader_chunks t htotal hsizes
  obtain ⟨c, hc, hready, hholds⟩ := hchunks _ hstick
  obtain ⟨c', hc', hready', hholds'⟩ := hchunks _ hhost
  refine ⟨s, hsave, hfits, ?_⟩
  have hloadStick := loadStick_saved h₁.memoryStick hb.stick hready hholds
  have hloadHost := loadController_saved
    { h₁ with memoryStick := restoredStick h.memoryStick h₁.memoryStick } hb hready' hholds'
  simp only [loadHost, hparse, Option.bind_some, if_true, hc, hc', hloadStick, hloadHost]

end Cloudpilot.Hardware.Stick
