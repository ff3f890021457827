import Cloudpilot.Common.GzipContext
import Cloudpilot.Common.GzipStages

/-! # The constructor of `GunzipContext`

What the constructor finds in a file that `GzipContext` has written, provided that it gets
past the check of a member that is not set yet.
-/

namespace Cloudpilot.Common.GunzipContext

open Library.LittleEndian Library.Compression Crc List Nat
open GzipContext (header fileBytes length_header_le)

variable {τ : Type} {inflate : Codec τ} {c : GunzipContext τ} {w count index : ℕ}
  {filename data z : List Byte} {mtime : BitVec 32}

theorem read_eq (hcount : 0 < count) (hrange : index + count ≤ c.compressedSize)
    (hfits : c.compressedSize < 2 ^ w) :
    read w count index c = ((c.compressedData.drop index).take count, c) := by
  unfold compressedSize at hrange hfits
  rw [read, mod_eq_of_lt (by omega), if_neg (by unfold compressedSize; omega)]
  congr 1
  apply ext_getElem
  · simp
    omega
  · intro i hi hi'
    rw [length_map, length_range] at hi
    have hmod : (index + i) % 2 ^ w = index + i := mod_eq_of_lt (by omega)
    simp [hmod, show index + i < c.compressedData.length by omega]

theorem read_of_eq {front part back : List Byte} (hfile : c.compressedData = front ++ (part ++ back))
    (hindex : index = front.length) (hcount : count = part.length) (hpart : part ≠ [])
    (hfits : c.compressedSize < 2 ^ w) : read w count index c = (part, c) := by
  have hpos := length_pos_iff.mpr hpart
  rw [read_eq (by omega) _ hfits, hfile, hindex, hcount]
  · simp
  · rw [compressedSize, hfile, hindex, hcount]
    simp

theorem read8_of_eq (front : List Byte) {back : List Byte} {v : Byte}
    (hfile : c.compressedData = front ++ v :: back) (hindex : index = front.length) (hfits : c.compressedSize < 2 ^ w) :
    read8 w index c = (v, c) := by
  have hread : read w 1 index c = ([v], c) := read_of_eq hfile hindex rfl (by simp) hfits
  simp only [read8, bind, StateT.bind, hread]
  rfl

theorem read32_of_eq (front : List Byte) {back : List Byte} {v : BitVec 32}
    (hfile : c.compressedData = front ++ (word v ++ back)) (hindex : index = front.length)
    (hfits : c.compressedSize < 2 ^ w) : read32 w index c = (v, c) := by
  have hread : read w 4 index c = (word v, c) :=
    read_of_eq hfile hindex (length_word v).symm (by simp [word]) hfits
  simp only [read32, bind, StateT.bind, hread, wordAt_word]
  rfl

theorem read16_eq (hrange : index + 2 ≤ c.compressedSize) (hfits : c.compressedSize < 2 ^ w) :
    read16 w index c = ((wordAt ((c.compressedData.drop index).take 2) 0).setWidth 16, c) := by
  simp only [read16, bind, StateT.bind, read_eq (by omega : 0 < 2) hrange hfits]
  rfl

def flags (filename : List Byte) : Byte := if filename.length > 0 then 0x08 else 0x00

/-- The optional part of the header. -/
def nameField (filename : List Byte) : List Byte :=
  if filename.length > 0 then filename ++ [0] else []

theorem header_eq : header filename mtime =
    [0x1f, 0x8b, 0x08, flags filename] ++ word mtime ++ [0x04, 0x03] ++ nameField filename := rfl

theorem length_header : (header filename mtime).length = 10 + (nameField filename).length := by
  rw [header_eq]
  simp
  omega

theorem fileBytes_eq (back : List Byte) (hback : back = z ++ word (crc32 data) ++
      word (BitVec.ofNat 32 data.length)) :
    fileBytes (header filename mtime) data z =
      [0x1f, 0x8b, 0x08, flags filename] ++ (word mtime ++ (0x04 :: 0x03 ::
        (nameField filename ++ back))) := by
  rw [hback, fileBytes, header_eq]
  simp

theorem length_fileBytes : (fileBytes (header filename mtime) data z).length =
    (header filename mtime).length + z.length + 8 := by
  simp [fileBytes]
  omega

theorem footer_index {size n : ℕ} (hle : n ≤ size) (hfits : size < 2 ^ w) :
    (size + 2 ^ w - n) % 2 ^ w = size - n := by
  have hsum : size + 2 ^ w - n = (size - n) + 2 ^ w := by omega
  rw [hsum, add_mod_right, mod_eq_of_lt (by omega)]

theorem readFields_eq (hfile : c.compressedData = fileBytes (header filename mtime) data z)
    (hfits : c.compressedSize < 2 ^ w) :
    ∃ xlen, readFields w c.compressedSize c =
      (⟨magicGz, compressionTypeDeflate, flags filename, mtime, 0x04, 0x03, xlen, crc32 data,
        BitVec.ofNat 32 data.length⟩, c) := by
  obtain ⟨back, hfront⟩ : ∃ back, c.compressedData =
      [0x1f, 0x8b, 0x08, flags filename] ++ (word mtime ++ (0x04 :: 0x03 :: back)) :=
    ⟨_, hfile.trans (fileBytes_eq _ rfl)⟩
  have hsize : c.compressedSize = (header filename mtime).length + z.length + 8 := by
    rw [compressedSize, hfile, length_fileBytes]
  have hheader : (header filename mtime).length = 10 + (nameField filename).length := length_header
  have hmagic : read16 w 0 c = (magicGz, c) := by
    have hword : (wordAt [0x1f, 0x8b] 0).setWidth 16 = magicGz := by decide
    rw [read16_eq (by omega) hfits, hfront, ← hword]
    rfl
  have hmethod : read8 w 2 c = (compressionTypeDeflate, c) :=
    read8_of_eq [0x1f, 0x8b] hfront rfl hfits
  have hflags : read8 w 3 c = (flags filename, c) :=
    read8_of_eq [0x1f, 0x8b, 0x08] hfront rfl hfits
  have hmtime : read32 w 4 c = (mtime, c) :=
    read32_of_eq [0x1f, 0x8b, 0x08, flags filename] hfront rfl hfits
  have hxflags : read8 w 8 c = (0x04, c) :=
    read8_of_eq ([0x1f, 0x8b, 0x08, flags filename] ++ word mtime)
      (by rw [hfront, append_assoc]) rfl hfits
  have hos : read8 w 9 c = (0x03, c) :=
    read8_of_eq ([0x1f, 0x8b, 0x08, flags filename] ++ word mtime ++ [0x04])
      (by rw [hfront, append_assoc, append_assoc, singleton_append]) rfl hfits
  have hxlen : read16 w 10 c = _ := read16_eq (by omega) hfits
  have hlength : read32 w ((c.compressedSize + 2 ^ w - 4) % 2 ^ w) c =
      (BitVec.ofNat 32 data.length, c) := by
    rw [footer_index (by omega) hfits]
    have hback : c.compressedData = header filename mtime ++ z ++ word (crc32 data) ++
        (word (BitVec.ofNat 32 data.length) ++ []) := by
      rw [hfile, fileBytes, append_nil]
    have hindex : c.compressedSize - 4 =
        (header filename mtime ++ z ++ word (crc32 data)).length := by
      rw [hsize, length_append, length_append, length_word]
      omega
    exact read32_of_eq _ hback hindex hfits
  have hcrc : read32 w ((c.compressedSize + 2 ^ w - 8) % 2 ^ w) c = (crc32 data, c) := by
    rw [footer_index (by omega) hfits]
    have hback : c.compressedData = header filename mtime ++ z ++
        (word (crc32 data) ++ word (BitVec.ofNat 32 data.length)) := by
      rw [hfile, fileBytes, append_assoc]
    have hindex : c.compressedSize - 8 = (header filename mtime ++ z).length := by simp [hsize]
    exact read32_of_eq _ hback hindex hfits
  refine ⟨(wordAt ((c.compressedData.drop 10).take 2) 0).setWidth 16, ?_⟩
  simp only [readFields, bind, StateT.bind, hmagic, hmethod, hflags, hmtime, hxflags, hos, hxlen,
    hlength, hcrc]
  rfl

theorem takeWhile_filename {back : List Byte} (hzero : (0 : Byte) ∉ filename) :
    (filename ++ 0 :: back).takeWhile (· ≠ 0) = filename := by
  rw [takeWhile_append_of_pos]
  · simp
  · intro v hv
    simp only [ne_eq, decide_eq_true_eq]
    rintro rfl
    exact hzero hv

theorem skipOptionalFields_eq (hstate : c.state = .more)
    (hfile : c.compressedData = fileBytes (header filename mtime) data z)
    (hflags : c.headerFooter.flags = flags filename) (hstart : c.payloadStart = headerSize)
    (hzero : (0 : Byte) ∉ filename) :
    c.skipOptionalFields = { c with payloadStart := (header filename mtime).length } := by
  rw [length_header, skipOptionalFields, hflags]
  by_cases hname : filename.length > 0
  · have hextra : ¬flags filename &&& flagFextra ≠ 0 := by
      rw [flags, if_pos hname]
      decide
    have hfname : flags filename &&& flagFname ≠ 0 := by
      rw [flags, if_pos hname]
      decide
    have hcomment : ¬flags filename &&& flagFcomment ≠ 0 := by
      rw [flags, if_pos hname]
      decide
    have hcrc : ¬flags filename &&& flagFhcrc ≠ 0 := by
      rw [flags, if_pos hname]
      decide
    simp only [hextra, hcomment, hcrc, ↓reduceIte]
    rw [if_pos hfname]
    have hdrop : ∃ back, c.compressedData.drop headerSize = filename ++ 0 :: back := by
      rw [hfile, fileBytes_eq _ rfl, nameField, if_pos hname]
      simp [headerSize, word]
    obtain ⟨back, hback⟩ := hdrop
    have hinside : headerSize + filename.length < c.compressedSize := by
      have hlength := congrArg List.length hback
      rw [length_drop, length_append, length_cons] at hlength
      unfold compressedSize
      omega
    have hrunning : ¬c.state = .error := by
      rw [hstate]
      decide
    rw [skipZeroTerminatedString, if_neg hrunning, hstart, hback, takeWhile_filename hzero]
    simp only [hinside, ↓reduceIte]
    rw [nameField, if_pos hname]
    simp [headerSize, add_assoc]
  · have hnone : ∀ flag, ¬flags filename &&& flag ≠ 0 := by
      rw [flags, if_neg hname]
      simp
    simp only [hnone, ↓reduceIte]
    rw [nameField, if_neg hname]
    change c = { c with payloadStart := headerSize }
    rw [← hstart]

theorem new_rejects {memory : Memory} {sliceSize : ℕ} {file : List Byte}
    (hmemory : memory.uncompressedSize ≤ 18) :
    new w inflate memory file sliceSize =
      { fresh inflate memory file sliceSize with
        state := .error, errorDescription := "not enough input" } := by
  have herror : readHeaderFooter w (fresh inflate memory file sliceSize) =
      { fresh inflate memory file sliceSize with
        state := .error, errorDescription := "not enough input" } := by
    have hsmall : (fresh inflate memory file sliceSize).uncompressedSize ≤
        headerSize + footerSize := hmemory
    rw [readHeaderFooter, if_pos hsmall]
    rfl
  rw [new, herror]
  rfl

theorem new_eq {memory : Memory} {sliceSize : ℕ} (hmemory : 18 < memory.uncompressedSize)
    (hzero : (0 : Byte) ∉ filename) (hpayload : z ≠ [])
    (hdata : data.length < decompressedSizeLimit)
    (hfits : (fileBytes (header filename mtime) data z).length < 2 ^ w) :
    ∃ headerFooter : GzipHeaderFooter, headerFooter.crc = crc32 data ∧
      new w inflate memory (fileBytes (header filename mtime) data z) sliceSize =
        { fresh inflate memory (fileBytes (header filename mtime) data z) sliceSize with
          payloadStart := (header filename mtime).length
          payloadSize := z.length
          uncompressedSize := data.length
          headerFooter := headerFooter } := by
  have hlength : (fileBytes (header filename mtime) data z).length =
      (header filename mtime).length + z.length + 8 := length_fileBytes
  have hpositive := length_pos_iff.mpr hpayload
  generalize hfile : fileBytes (header filename mtime) data z = file at hfits hlength
  obtain ⟨xlen, hfields⟩ := readFields_eq (c := fresh inflate memory file sliceSize) hfile.symm hfits
  let headerFooter : GzipHeaderFooter := ⟨magicGz, compressionTypeDeflate, flags filename, mtime,
    0x04, 0x03, xlen, crc32 data, BitVec.ofNat 32 data.length⟩
  let read : GunzipContext τ := { fresh inflate memory file sliceSize with
    headerFooter := headerFooter, payloadStart := headerSize }
  have hskip : read.skipOptionalFields =
      { read with payloadStart := (header filename mtime).length } :=
    skipOptionalFields_eq rfl hfile.symm rfl rfl hzero
  have hread : readHeaderFooter w (fresh inflate memory file sliceSize) =
      { fresh inflate memory file sliceSize with
        headerFooter := headerFooter, payloadStart := (header filename mtime).length } := by
    have hmore : ¬(fresh inflate memory file sliceSize).uncompressedSize ≤
        headerSize + footerSize := by
      exact not_le.mpr hmemory
    rw [readHeaderFooter, if_neg hmore, hfields]
    simp only
    rw [if_neg (by simp [fresh]), hskip]
    apply if_neg
    change ¬(header filename mtime).length + 8 ≥ file.length
    omega
  have hsize : (BitVec.ofNat 32 data.length).toNat = data.length := by
    unfold decompressedSizeLimit at hdata
    rw [BitVec.toNat_ofNat, mod_eq_of_lt (by omega)]
  refine ⟨headerFooter, rfl, ?_⟩
  have hlimit : ¬data.length ≥ decompressedSizeLimit := not_le.mpr hdata
  have hpayloadSize : file.length - (header filename mtime).length - footerSize = z.length := by
    unfold footerSize
    omega
  rw [new, hread]
  simp [fresh, headerFooter, hsize, hlimit, hpayloadSize]

end Cloudpilot.Common.GunzipContext

namespace Cloudpilot.Common.GunzipContext
open Library.LittleEndian Library.Compression Library.Drive Crc

variable {τ : Type} {inflate : Codec τ} {c : GunzipContext τ} {data z u v : List Byte}

/-- In the middle of the stream: the decompressor has read `u` and written `v`. -/
structure Inflating (inflate : Codec τ) (data z u v : List Byte) (c : GunzipContext τ) : Prop where
  state : c.state = .more
  streamEnd : c.zipStreamEnd = false
  slice : 1 ≤ c.sliceSize
  payload : c.payload = z
  payloadSize : c.payloadSize = z.length
  uncompressedSize : c.uncompressedSize = data.length
  crc : c.headerFooter.crc = crc32 data
  reading : Reading inflate data z c.zipStream u v
  consumed : c.consumed = u.length
  rest : u ++ z.drop c.consumed = z
  inflated : c.inflated = v
  short : z.length < 2 ^ 32 ∧ data.length < 2 ^ 32

/-- At the end of the stream. -/
structure Inflated (data : List Byte) (c : GunzipContext τ) : Prop where
  state : c.state = .more
  streamEnd : c.zipStreamEnd = true
  uncompressedSize : c.uncompressedSize = data.length
  crc : c.headerFooter.crc = crc32 data
  inflated : c.inflated = data

inductive Stage (inflate : Codec τ) (data z : List Byte) (c : GunzipContext τ) : Prop
  | inflating (u v : List Byte) (h : Inflating inflate data z u v c)
  | inflated (h : Inflated data c)
  | done (h : c.state = .done) (hdata : c.uncompressedData = data)

/-- A bound of the calls that are still to come. -/
def measure (c : GunzipContext τ) : ℕ :=
  match c.state with
  | .more => if c.zipStreamEnd then 1 else c.payloadSize - c.consumed + 2
  | _ => 0

section

variable (h : Inflating inflate data z u v c)

include h

theorem Inflating.measure_eq : c.measure = z.length - c.consumed + 2 := by
  rw [measure, h.state, h.streamEnd, h.payloadSize]
  rfl

theorem Inflating.continue_eq : c.Continue inflate =
      if z.length - c.consumed ≤ c.sliceSize then
        c.afterInflate (inflate.call .finish c.zipStream (z.drop c.consumed)
          (data.length - v.length))
      else
        c.afterInflate (inflate.call .noFlush c.zipStream ((z.drop c.consumed).take c.sliceSize)
          (data.length - v.length)) := by
  have hle : c.consumed ≤ z.length := by
    have hlength := congrArg List.length h.rest
    rw [List.length_append, ← h.consumed] at hlength
    omega
  have hcall : ∀ flush availIn, availIn < 2 ^ 32 → c.callInflate inflate flush availIn =
      inflate.call flush c.zipStream ((z.drop c.consumed).take availIn)
        (data.length - v.length) := by
    intro flush availIn hlt
    have hshort := h.short.2
    rw [callInflate, h.payload, h.uncompressedSize, h.inflated, Nat.mod_eq_of_lt hlt,
      Nat.mod_eq_of_lt (by omega)]
  have hshort := h.short.1
  rw [Continue, if_neg (not_not.mpr h.state), h.streamEnd, h.payloadSize]
  simp only [Bool.false_eq_true, ↓reduceIte]
  rw [if_neg (by omega)]
  by_cases hlast : z.length - c.consumed ≤ c.sliceSize
  · have hrest : ((z.length : ℤ) - c.consumed).toNat = z.length - c.consumed := by omega
    rw [if_pos (by omega), if_pos hlast, hrest, hcall _ _ (by omega),
      List.take_of_length_le (by rw [List.length_drop])]
  · grind

theorem Inflating.step_finish (hinverse : Decompresses inflate data z)
    (hlast : z.length - c.consumed ≤ c.sliceSize) :
    Stage inflate data z (c.Continue inflate) ∧ (c.Continue inflate).measure < c.measure := by
  obtain ⟨hend, hout⟩ := hinverse.finish h.reading h.rest
  rw [h.continue_eq, if_pos hlast]
  generalize inflate.call .finish c.zipStream (z.drop c.consumed) (data.length - v.length) = result
    at hend hout
  have hinflated : Inflated data (c.afterInflate result) := by
    rw [afterInflate, hend]
    constructor
    · exact h.state
    · rfl
    · exact h.uncompressedSize
    · exact h.crc
    · simp only [h.inflated, hout]
  refine ⟨.inflated hinflated, ?_⟩
  grind [h.measure_eq, measure, hinflated.state, hinflated.streamEnd]

theorem Inflating.step_feed (hinverse : Decompresses inflate data z)
    (hmore : ¬z.length - c.consumed ≤ c.sliceSize) :
    Stage inflate data z (c.Continue inflate) ∧ (c.Continue inflate).measure < c.measure := by
  have hslice := h.slice
  have hsplit : u ++ ((z.drop c.consumed).take c.sliceSize ++ (z.drop c.consumed).drop c.sliceSize) =
      z := by simp [h.rest]
  have hlength : ((z.drop c.consumed).take c.sliceSize).length = c.sliceSize := by
    simp
    omega
  have hinput : (z.drop c.consumed).take c.sliceSize ≠ [] := by grind
  have hrest : (z.drop c.consumed).drop c.sliceSize ≠ [] := by grind [List.length_drop]
  obtain ⟨hok, hpos, htaken⟩ := hinverse.feed h.reading hsplit hinput hrest
  have hreading := h.reading.feed _ _ hsplit hinput hrest
  rw [h.continue_eq, if_neg hmore]
  generalize inflate.call .noFlush c.zipStream ((z.drop c.consumed).take c.sliceSize)
    (data.length - v.length) = result at hok hpos htaken hreading
  rw [hlength] at htaken
  rw [List.take_take, min_eq_left htaken] at hreading
  have hinflating : Inflating inflate data z (u ++ (z.drop c.consumed).take result.consumed)
      (v ++ result.out) (c.afterInflate result) := by
    rw [afterInflate, hok]
    constructor
    · exact h.state
    · exact h.streamEnd
    · exact h.slice
    · exact h.payload
    · exact h.payloadSize
    · exact h.uncompressedSize
    · exact h.crc
    · exact hreading
    · grind
    · simp [h.rest]
    · simp only [h.inflated]
    · exact h.short
  refine ⟨.inflating _ _ hinflating, ?_⟩
  rw [hinflating.measure_eq, h.measure_eq, afterInflate, hok]
  simp only
  omega

end

theorem Inflated.step (h : Inflated data c) :
    Stage inflate data z (c.Continue inflate) ∧ (c.Continue inflate).measure < c.measure := by
  have hdata : c.uncompressedData = data := by
    rw [uncompressedData, h.inflated, h.uncompressedSize, Nat.sub_self, List.replicate_zero,
      List.append_nil]
  have hcrc : crc32 { c with state := .done }.uncompressedData = c.headerFooter.crc := by
    change crc32 c.uncompressedData = _
    rw [hdata, h.crc]
  have hcontinue : c.Continue inflate = { c with state := .done } := by
    rw [Continue, if_neg (not_not.mpr h.state), if_pos h.streamEnd, validate]
    exact if_neg (not_not.mpr hcrc)
  rw [hcontinue]
  refine ⟨.done rfl hdata, ?_⟩
  rw [measure, measure, h.state, h.streamEnd]
  exact Nat.one_pos

theorem Stage.step (h : Stage inflate data z c) (hinverse : Decompresses inflate data z)
    (hrunning : c.running = true) :
    Stage inflate data z (c.Continue inflate) ∧ (c.Continue inflate).measure < c.measure := by
  cases h with
  | inflating u v hinflating =>
    by_cases hlast : z.length - c.consumed ≤ c.sliceSize
    · exact hinflating.step_finish hinverse hlast
    · exact hinflating.step_feed hinverse hlast
  | inflated hinflated => exact hinflated.step
  | done hstate hdata =>
    rw [running, hstate] at hrunning
    cases hrunning

end Cloudpilot.Common.GunzipContext

namespace Cloudpilot.Common
open Library.LittleEndian Library.Compression Library.Drive Crc
open GzipContext (started header fileBytes deflateBound)
open GunzipContext (Memory)

variable {σ τ : Type}

theorem gunzip_ends {inflate : Codec τ} {data z filename : List Byte} {mtime : BitVec 32} {w : ℕ}
    {sliceSize : ℕ} {memory : Memory} (hw : 32 ≤ w) (hinverse : Decompresses inflate data z)
    (hslice : 1 ≤ sliceSize) (hmemory : 18 < memory.uncompressedSize)
    (hname : filename.length ≤ maxFilenameLength) (hzero : (0 : Byte) ∉ filename)
    (hdata : data.length < maxGzipSize) (hz : z.length ≤ deflateBound data.length) :
    ∃ fuel c, drive (GunzipContext.Continue inflate) GunzipContext.running fuel
        (GunzipContext.new w inflate memory (fileBytes (header filename mtime) data z) sliceSize) =
          some c ∧ c.state = .done ∧ c.uncompressedData = data := by
  have hword : 2 ^ 32 ≤ 2 ^ w := Nat.pow_le_pow_right (by omega) hw
  have hheader : (header filename mtime).length ≤ 267 := GzipContext.length_header_le hname
  have hlength : (fileBytes (header filename mtime) data z).length =
      (header filename mtime).length + z.length + 8 := GunzipContext.length_fileBytes
  have hshort : z.length < 2 ^ 30 := by
    unfold maxGzipSize at hdata
    unfold deflateBound at hz
    omega
  have hfits : (fileBytes (header filename mtime) data z).length < 2 ^ w := by omega
  obtain ⟨headerFooter, hcrc, hnew⟩ := @GunzipContext.new_eq τ inflate w filename data z mtime
    memory sliceSize hmemory hzero hinverse.nonempty hdata hfits
  have hstart : GunzipContext.Stage inflate data z (GunzipContext.new w inflate memory
      (fileBytes (header filename mtime) data z) sliceSize) := by
    rw [hnew]
    apply GunzipContext.Stage.inflating [] []
    constructor
    · rfl
    · rfl
    · exact hslice
    · simp [GunzipContext.payload, GunzipContext.fresh, fileBytes]
    · rfl
    · rfl
    · exact hcrc
    · exact .start
    · rfl
    · rfl
    · rfl
    · unfold maxGzipSize at hdata
      omega
  obtain ⟨fuel, c, hdrive, hstage, hstopped⟩ := drive_ends GunzipContext.measure
    (fun _ h hrunning => h.step hinverse hrunning) hstart
  refine ⟨fuel, c, hdrive, ?_⟩
  cases hstage with
  | inflating u v h =>
    rw [GunzipContext.running, h.state] at hstopped
    cases hstopped
  | inflated h =>
    rw [GunzipContext.running, h.state] at hstopped
    cases hstopped
  | done hstate hout => exact ⟨hstate, hout⟩

/-- What is compressed comes back if and only if the size that was in the memory of the
`GunzipContext` is large enough. -/
theorem gzip_round_trip (w : ℕ) (hw : 32 ≤ w) (deflate : Codec σ) (inflate : Codec τ)
    (data : List Byte) (hdata : data ≠ []) (hsize : data.length < 512 * 1024 * 1024)
    (hcodec : Compressor deflate) (hbound : OutputBounded deflate data (deflateBound data.length))
    (hinverse : ∀ z, Complete deflate data z → Decompresses inflate data z)
    (filename : List Byte) (hname : filename.length ≤ 256) (hzero : (0 : Byte) ∉ filename)
    (mtime : BitVec 32) (gzipSlice gunzipSlice : ℕ) (hgzip : 1 ≤ gzipSlice)
    (hgunzip : 1 ≤ gunzipSlice) (memory : Memory) :
    ∃ fuel c, drive (GzipContext.Continue deflate) GzipContext.running fuel
        (started deflate data gzipSlice filename mtime) = some c ∧ c.state = .done ∧
      ((∃ fuel' c', drive (GunzipContext.Continue inflate) GunzipContext.running fuel'
          (GunzipContext.new w inflate memory c.gzipData gunzipSlice) = some c' ∧
          c'.state = .done ∧ c'.uncompressedData = data) ↔ 18 < memory.uncompressedSize) := by
  obtain ⟨fuel, c, z, hdrive, hstate, hcomplete, hwritten⟩ :
      ∃ fuel c z, drive (GzipContext.Continue deflate) GzipContext.running fuel
        (started deflate data gzipSlice filename mtime) = some c ∧ c.state = .done ∧
        Complete deflate data z ∧ c.gzipData = fileBytes (header filename mtime) data z :=
    GzipContext.gzip_ends hcodec hbound hdata hsize hgzip hname
  refine ⟨fuel, c, hdrive, hstate, ?_, ?_⟩
  · rintro ⟨fuel', c', hdrive', hstate', -⟩
    by_contra hmemory
    rw [GunzipContext.new_rejects (not_lt.mp hmemory)] at hdrive'
    rw [eq_of_drive_of_stopped rfl hdrive'] at hstate'
    cases hstate'
  · intro hmemory
    rw [hwritten]
    exact gunzip_ends hw (hinverse z hcomplete) hgunzip hmemory hname hzero hsize
      (hbound.complete hcomplete)

def shortData : List Byte := [1, 2, 3]

def shortStream : List Byte := [0x63, 0x64, 0x62, 0x06, 0x00]

/-- A compressor that holds its input back until it is asked to finish. -/
def shortDeflate : Codec Held := buffering fun _ => shortStream

/-- A decompressor that holds its input back until it is asked to finish. -/
def shortInflate : Codec Unit where
  start := ()
  call flush _ input _ :=
    match flush with
    | .noFlush => ⟨.ok, (), input.length, []⟩
    | .finish => ⟨.streamEnd, (), input.length, shortData⟩

theorem outputBounded_short : OutputBounded shortDeflate shortData (deflateBound 3) where
  session := by
    intro phase state x y input hsession _ _
    exact (buffering_session_length hsession).trans (by decide)
  complete := by
    intro z hcomplete
    rw [complete_buffering hcomplete]
    decide

theorem reading_short {z u v : List Byte} {state : Unit}
    (h : Reading shortInflate shortData z state u v) : v = [] := by
  induction h with
  | start => rfl
  | feed input rest h hz hinput hrest ih => simp [ih, shortInflate]

theorem decompresses_short {z : List Byte} (h : Complete shortDeflate shortData z) :
    Decompresses shortInflate shortData z where
  nonempty := by
    rw [complete_buffering h]
    decide
  feed := by
    intro state u v input rest _ _ hinput _
    exact ⟨rfl, List.length_pos_iff.mpr hinput, le_rfl⟩
  finish := by
    intro state u v input hreading _
    rw [reading_short hreading]
    exact ⟨rfl, rfl⟩

def memoryOf (uncompressedSize : ℕ) : Memory := ⟨uncompressedSize, ⟨0, 0, 0, 0, 0, 0, 0, 0, 0⟩⟩

theorem gzip_round_trip_short :
    (32 ≤ 64 ∧ shortData ≠ [] ∧ shortData.length < 512 * 1024 * 1024) ∧
      ∃ fuel c, drive (GzipContext.Continue shortDeflate) GzipContext.running fuel
          (started shortDeflate shortData 2 [0x61] 0x12345678) = some c ∧ c.state = .done ∧
        ((∃ fuel' c', drive (GunzipContext.Continue shortInflate) GunzipContext.running fuel'
            (GunzipContext.new 64 shortInflate (memoryOf 19) c.gzipData 2) = some c' ∧
            c'.state = .done ∧ c'.uncompressedData = shortData) ↔
          18 < (memoryOf 19).uncompressedSize) :=
  ⟨⟨by decide, by decide, by decide⟩,
    gzip_round_trip 64 (by decide) shortDeflate shortInflate shortData (by decide) (by decide)
      (compressor_buffering _) outputBounded_short (fun _ h => decompresses_short h) [0x61]
      (by decide) (by decide) 0x12345678 2 2 (by decide) (by decide) (memoryOf 19)⟩

/-- With cleared memory the reader rejects the file. -/
theorem gunzip_rejects_short :
    (drive (GzipContext.Continue shortDeflate) GzipContext.running 6
        (started shortDeflate shortData 2 [] 0)).map (fun c => (c.state, c.gzipData)) =
      some (.done, fileBytes (header [] 0) shortData shortStream) ∧
    (drive (GunzipContext.Continue shortInflate) GunzipContext.running 6
        (GunzipContext.new 64 shortInflate (memoryOf 0)
          (fileBytes (header [] 0) shortData shortStream) 2)).map
        (fun c => (c.state, c.errorDescription)) = some (.error, "not enough input") := by
  constructor <;> rfl

end Cloudpilot.Common
