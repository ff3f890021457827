import Cloudpilot.Emulator.SessionImage
import Cloudpilot.Library.Compression

/-! # Writing a session image

`Serialize` streams the header and the fields through the compressor into a buffer that
it grows by hand. `deflate` is a codec. The loops run on fuel; `none` means that it ran
out. `size_t` has `w` bits, which the product in `GrowSerializationBuffer` can exceed.
-/

namespace Cloudpilot.Emulator

open Library.LittleEndian Library.Compression List

section

def compressedImageGrowLimit : ℕ := 128 * 1024 * 1024
def uncompressedHeaderSize : ℕ := 12

/-- The fields of an image that is serialized. -/
structure Contents where
  deviceId : List Byte
  metadata : List Byte
  rom : List Byte
  ram : List Byte
  savestate : List Byte

variable {σ : Type}

/-- `serializationBuffer` and the `z_stream` that points into it. -/
structure Serializer (σ : Type) where
  buffer : List Byte
  state : σ
  availIn : List Byte
  nextOut : ℕ
  availOut : ℕ
  totalOut : ℕ

def overwrite (buffer : List Byte) (position : ℕ) (out : List Byte) : List Byte :=
  buffer.take position ++ out ++ buffer.drop (position + out.length)

/-- One call of `deflate`. -/
def Serializer.deflate (codec : Codec σ) (flush : Flush) (s : Serializer σ) :
    Status × Serializer σ :=
  let r := codec.call flush s.state s.availIn s.availOut
  (r.status, { s with
    buffer := overwrite s.buffer s.nextOut r.out
    state := r.state
    availIn := s.availIn.drop r.consumed
    nextOut := s.nextOut + r.out.length
    availOut := s.availOut - r.out.length
    totalOut := s.totalOut + r.out.length })

def growSerializationBuffer (w : ℕ) (s : Serializer σ) : Option (Serializer σ) :=
  if s.availOut + s.totalOut + uncompressedHeaderSize = compressedImageGrowLimit then none else
    let growTo := min ((s.totalOut + s.availOut + uncompressedHeaderSize) * 3 % 2 ^ w / 2)
      compressedImageGrowLimit
    some { s with
      buffer := overwrite (List.replicate growTo 0) 0
        (s.buffer.take (uncompressedHeaderSize + s.totalOut))
      nextOut := s.totalOut + uncompressedHeaderSize
      availOut := growTo - s.totalOut - uncompressedHeaderSize }

/-- The do/while loop of `AppendToSerializationStream`. -/
def appendLoop (w : ℕ) (codec : Codec σ) : ℕ → Serializer σ → Option (Bool × Serializer σ)
  | 0, _ => none
  | fuel + 1, s =>
    let (status, s) := s.deflate codec .noFlush
    let (status, s) := if status = .bufError then
        match growSerializationBuffer w s with
        | some s => (Status.ok, s)
        | none => (status, s)
      else (status, s)
    if s.availIn ≠ [] ∧ status = .ok then appendLoop w codec fuel s else some (status = .ok, s)

def appendToSerializationStream (w : ℕ) (codec : Codec σ) (fuel : ℕ) (s : Serializer σ)
    (bytes : List Byte) : Option (Bool × Serializer σ) :=
  appendLoop w codec fuel { s with availIn := bytes }

/-- Append the blobs that are not empty, one after the other, until one fails. -/
def appendAll (w : ℕ) (codec : Codec σ) (fuel : ℕ) :
    List (List Byte) → Serializer σ → Option (Bool × Serializer σ)
  | [], s => some (true, s)
  | blob :: blobs, s =>
    if blob.length > 0 then do
      let (ok, s) ← appendToSerializationStream w codec fuel s blob
      if ok then appendAll w codec fuel blobs s else return (false, s)
    else appendAll w codec fuel blobs s

def finishLoop (w : ℕ) (codec : Codec σ) : ℕ → Serializer σ → Option (Status × Serializer σ)
  | 0, _ => none
  | fuel + 1, s =>
    let (status, s) := s.deflate codec .finish
    if status = .ok ∨ status = .bufError then
      match growSerializationBuffer w s with
      | none => some (status, s)
      | some s => finishLoop w codec fuel s
    else some (status, s)

/-- The header of the compressed part. -/
def imageHeader (c : Contents) : List Byte :=
  word (BitVec.ofNat 32 c.deviceId.length) ++ word (BitVec.ofNat 32 c.metadata.length) ++
    word (BitVec.ofNat 32 c.rom.length) ++ word (BitVec.ofNat 32 c.ram.length) ++
    word (BitVec.ofNat 32 c.savestate.length)

def uncompressedSize (c : Contents) : ℕ :=
  20 + c.deviceId.length + c.rom.length + c.ram.length + c.savestate.length + c.metadata.length

/-- The header in front of the compressed part. -/
def fileHeader (c : Contents) : List Byte :=
  word magic ++ word (versionLatest ||| versionMask) ++ word (BitVec.ofNat 32 (uncompressedSize c))

def startSerializer (codec : Codec σ) (c : Contents) : Serializer σ :=
  let initialBufferSize := max 1024 (uncompressedSize c / 2)
  { buffer := overwrite (List.replicate (initialBufferSize + uncompressedHeaderSize) 0) 0
      (fileHeader c)
    state := codec.start
    availIn := []
    nextOut := uncompressedHeaderSize
    availOut := initialBufferSize
    totalOut := 0 }

/-- The result, and the bytes of `GetSerializedImage()` up to `GetSerializedImageSize()`. -/
def serialize (w : ℕ) (codec : Codec σ) (fuel : ℕ) (c : Contents) : Option (Bool × List Byte) := do
  let (ok, s) ← appendAll w codec fuel
    [imageHeader c, c.deviceId, c.metadata, c.rom, c.ram, c.savestate] (startSerializer codec c)
  if !ok then return (false, []) else
    let (status, s) ← finishLoop w codec fuel s
    if status ≠ .streamEnd then return (false, []) else
      return (true, s.buffer.take (s.totalOut + uncompressedHeaderSize))

end

variable {σ : Type} {codec : Codec σ} {w : ℕ} {s s' : Serializer σ} {phase : Phase}
  {header x y : List Byte}

/-- The buffer holds the header, the output so far and the room behind it. -/
structure Serializer.Holds (s : Serializer σ) (header y : List Byte) : Prop where
  headerLength : header.length = uncompressedHeaderSize
  written : s.buffer.take s.nextOut = header ++ y
  nextOut : s.nextOut = uncompressedHeaderSize + y.length
  totalOut : s.totalOut = y.length
  length : s.buffer.length = s.nextOut + s.availOut

theorem length_overwrite {buffer out : List Byte} {position : ℕ}
    (h : position + out.length ≤ buffer.length) :
    (overwrite buffer position out).length = buffer.length := by
  simp only [overwrite, length_append, length_take, length_drop]
  omega

theorem take_overwrite {buffer out : List Byte} {position : ℕ} (h : position ≤ buffer.length) :
    (overwrite buffer position out).take (position + out.length) = buffer.take position ++ out := by
  rw [overwrite, take_append_of_le_length, take_of_length_le]
  · simp
  · grind

theorem Serializer.Holds.deflate (h : s.Holds header y) (flush : Flush)
    (hroom : (codec.call flush s.state s.availIn s.availOut).out.length ≤ s.availOut) :
    (s.deflate codec flush).2.Holds header
      (y ++ (codec.call flush s.state s.availIn s.availOut).out) := by
  set out := (codec.call flush s.state s.availIn s.availOut).out with hout
  have hlen := h.length
  constructor
  case headerLength => exact h.headerLength
  case written =>
    simp only [Serializer.deflate, ← hout]
    rw [take_overwrite (by omega), h.written, append_assoc]
  case nextOut => grind [Serializer.deflate, h.nextOut, length_append, Nat.add_assoc]
  case totalOut => grind [Serializer.deflate, h.totalOut, length_append]
  case length =>
    simp only [Serializer.deflate, ← hout]
    rw [length_overwrite (by omega), h.length]
    omega

theorem Serializer.Holds.grow (hw : 32 ≤ w) (h : s.Holds header y) (hfull : s.availOut = 0)
    (hsmall : y.length + uncompressedHeaderSize < compressedImageGrowLimit) :
    ∃ s', growSerializationBuffer w s = some s' ∧ s'.Holds header y ∧ 0 < s'.availOut ∧
      s'.state = s.state ∧ s'.availIn = s.availIn := by
  have hne : s.availOut + s.totalOut + uncompressedHeaderSize ≠ compressedImageGrowLimit := by
    rw [hfull, h.totalOut]
    omega
  set growTo := min ((s.totalOut + s.availOut + uncompressedHeaderSize) * 3 % 2 ^ w / 2)
    compressedImageGrowLimit with hgrowTo
  have hbound : (s.totalOut + s.availOut + uncompressedHeaderSize) * 3 < 2 ^ w := by
    have hpow : 2 ^ 32 ≤ 2 ^ w := Nat.pow_le_pow_right (by norm_num) hw
    rw [hfull, h.totalOut]
    simp only [uncompressedHeaderSize, compressedImageGrowLimit] at hsmall ⊢
    omega
  have hmore : y.length + uncompressedHeaderSize < growTo := by
    rw [hgrowTo, Nat.mod_eq_of_lt hbound, hfull, h.totalOut]
    simp only [uncompressedHeaderSize] at hsmall ⊢
    omega
  have hcopied : (s.buffer.take (uncompressedHeaderSize + s.totalOut)) = header ++ y := by
    rw [h.totalOut, ← h.nextOut, h.written]
  refine ⟨_, if_neg hne, ?_, ?_, rfl, rfl⟩
  · have hlen : (header ++ y).length = uncompressedHeaderSize + y.length := by simp [h.headerLength]
    constructor
    case headerLength => exact h.headerLength
    case written =>
      simp only [hcopied, ← hgrowTo]
      rw [h.totalOut, Nat.add_comm, ← hlen, ← Nat.zero_add (header ++ y).length,
        take_overwrite (Nat.zero_le _), take_zero, nil_append]
    case nextOut =>
      simp only
      rw [h.totalOut, Nat.add_comm]
    case totalOut => exact h.totalOut
    case length =>
      simp only [hcopied, ← hgrowTo]
      rw [length_overwrite (by rw [length_replicate]; omega), length_replicate, h.totalOut]
      omega
  · grind [h.totalOut]

/-- The output of every session over a part of the image, with the file header, stays below the
limit. -/
def CompressesBelowLimit (codec : Codec σ) (image : List Byte) : Prop :=
  ∀ phase state x y, Session codec phase state x y → x <+: image →
    y.length + uncompressedHeaderSize < compressedImageGrowLimit

/-- A state of `Serialize` that has consumed `x` and written `y`. -/
structure Progress (codec : Codec σ) (header : List Byte) (phase : Phase) (s : Serializer σ)
    (x y : List Byte) : Prop where
  session : Session codec phase s.state x y
  holds : s.Holds header y

/-- Passes that the loops have left: at most one to fill the room, and one to grow, for each
byte below the limit. -/
def passesLeft (s : Serializer σ) (y : List Byte) : ℕ :=
  2 * (compressedImageGrowLimit - y.length) + if s.availOut = 0 then 1 else 0

theorem overwrite_nil (buffer : List Byte) (position : ℕ) :
    overwrite buffer position [] = buffer := by
  simp [overwrite]

theorem Serializer.deflate_full (hcodec : Compressor codec) (flush : Flush)
    (hfull : s.availOut = 0) : s.deflate codec flush = (.bufError, s) := by
  obtain ⟨buffer, state, availIn, nextOut, availOut, totalOut⟩ := s
  cases hfull
  simp [Serializer.deflate, hcodec.no_room, overwrite_nil]

section Loops
variable {image : List Byte}

theorem Progress.grow (hw : 32 ≤ w) (hsmall : CompressesBelowLimit codec image)
    (h : Progress codec header phase s x y) (hx : x <+: image) (hfull : s.availOut = 0) :
    ∃ s', growSerializationBuffer w s = some s' ∧ Progress codec header phase s' x y ∧
      s'.availIn = s.availIn ∧ passesLeft s' y < passesLeft s y := by
  obtain ⟨s', hs', hholds, hroom, hstate, hin⟩ :=
    h.holds.grow hw hfull (hsmall _ _ _ _ h.session hx)
  refine ⟨s', hs', ⟨hstate ▸ h.session, hholds⟩, hin, ?_⟩
  rw [passesLeft, passesLeft, if_pos hfull, if_neg (by omega)]
  omega

theorem Progress.passesLeft_filled (hsmall : CompressesBelowLimit codec image)
    (h : Progress codec header phase s x y) (hx : x <+: image) (hroom : 0 < s.availOut)
    {out : List Byte} (hout : out.length = s.availOut) :
    passesLeft s' (y ++ out) < passesLeft s y := by
  have hlt := hsmall _ _ _ _ h.session hx
  rw [passesLeft, passesLeft, length_append]
  split <;> split <;> omega

/-- The loop of `AppendToSerializationStream` consumes all of its input. -/
theorem appendLoop_ends (hw : 32 ≤ w) (hcodec : Compressor codec)
    (hsmall : CompressesBelowLimit codec image) (fuel : ℕ)
    (h : Progress codec header .feeding s x y) (hx : x ++ s.availIn <+: image)
    (hin : s.availIn ≠ []) (hfuel : passesLeft s y < fuel) :
    ∃ s' y', appendLoop w codec fuel s = some (true, s') ∧ s'.availIn = [] ∧
      Progress codec header .feeding s' (x ++ s.availIn) y' := by
  induction fuel generalizing s x y with
  | zero => omega
  | succ fuel ih =>
    have hx' : x <+: image := (prefix_append x _).trans hx
    rw [appendLoop]
    by_cases hfull : s.availOut = 0
    · obtain ⟨s1, hs1, h1, hin1, hpass⟩ := h.grow hw hsmall hx' hfull
      simp only [Serializer.deflate_full hcodec _ hfull, hs1, if_true, hin1, hin, ne_eq,
        not_false_eq_true, and_self]
      rw [← hin1]
      exact ih h1 (hin1 ▸ hx) (hin1 ▸ hin) (by omega)
    have hroom : 0 < s.availOut := Nat.pos_of_ne_zero hfull
    obtain ⟨hok, hle, hout, hprogress⟩ := hcodec.feed h.session hin hroom
    have hholds : (s.deflate codec .noFlush).2.Holds header _ := h.holds.deflate .noFlush hout
    have hsession := h.session.feed s.availIn s.availOut hok
    set r := codec.call .noFlush s.state s.availIn s.availOut with hr
    have hdeflate : s.deflate codec .noFlush = (.ok, (s.deflate codec .noFlush).2) := by
      rw [← hok]
      rfl
    set s1 := (s.deflate codec .noFlush).2 with hs1
    have hin1 : s1.availIn = s.availIn.drop r.consumed := rfl
    have h1 : Progress codec header .feeding s1 (x ++ s.availIn.take r.consumed) (y ++ r.out) :=
      ⟨hsession, hholds⟩
    have hsplit : x ++ s.availIn.take r.consumed ++ s1.availIn = x ++ s.availIn := by simp [hin1]
    simp only [hdeflate, reduceCtorEq, if_false, and_true, ne_eq]
    by_cases hrest : s1.availIn = []
    · grind
    · have hfilled : r.out.length = s.availOut := by grind
      have hpass : passesLeft s1 (y ++ r.out) < passesLeft s y :=
        h.passesLeft_filled hsmall hx' hroom hfilled
      simp only [hrest, not_false_eq_true, if_true]
      rw [← hsplit]
      exact ih h1 (hsplit ▸ hx) hrest (by omega)

theorem finishLoop_ends (hw : 32 ≤ w) (hcodec : Compressor codec)
    (hsmall : CompressesBelowLimit codec image) (fuel : ℕ)
    (h : Progress codec header phase s image y) (hoffers : phase.Offers [])
    (hin : s.availIn = []) (hfuel : passesLeft s y < fuel) :
    ∃ s' z, finishLoop w codec fuel s = some (.streamEnd, s') ∧ s'.Holds header z ∧
      Complete codec image z := by
  induction fuel generalizing s phase y with
  | zero => omega
  | succ fuel ih =>
    rw [finishLoop]
    by_cases hfull : s.availOut = 0
    · obtain ⟨s1, hs1, h1, hin1, hpass⟩ := h.grow hw hsmall (prefix_refl _) hfull
      simp only [Serializer.deflate_full hcodec _ hfull, hs1, or_true, if_true]
      exact ih h1 hoffers (hin1.trans hin) (by omega)
    have hroom : 0 < s.availOut := Nat.pos_of_ne_zero hfull
    obtain ⟨hout, hresult⟩ := hcodec.finish h.session hoffers hroom
    rw [← hin] at hout hresult
    have hholds : (s.deflate codec .finish).2.Holds header _ := h.holds.deflate .finish hout
    set r := codec.call .finish s.state s.availIn s.availOut with hr
    obtain ⟨s1, hdeflate, hs1⟩ : ∃ s1, s.deflate codec .finish = (r.status, s1) ∧
        s1 = (s.deflate codec .finish).2 := ⟨_, rfl, rfl⟩
    rw [← hs1] at hholds
    have hin1 : s1.availIn = [] := by
      rw [hs1]
      simp [Serializer.deflate, hin]
    have hroom1 : s1.availOut = s.availOut - r.out.length := by
      rw [hs1, hr]
      rfl
    have hstate1 : s1.state = r.state := by
      rw [hs1, hr]
      rfl
    simp only [hdeflate]
    rcases hresult with ⟨hend, -⟩ | ⟨hok, -, hfilled⟩
    · refine ⟨s1, y ++ r.out, by simp [hend], hholds, ?_⟩
      refine ⟨phase, s.state, image, y, s.availIn, s.availOut, h.session, ?_, hroom, ?_, ?_, rfl⟩
      · rwa [hin]
      · omega
      · grind
    have hsession := h.session.finish s.availIn s.availOut (by rwa [hin]) (by rw [← hr, hok])
    rw [← hr, hin, take_nil, append_nil, drop_nil, ← hstate1] at hsession
    have h1 : Progress codec header (.finishing []) s1 image (y ++ r.out) := ⟨hsession, hholds⟩
    have hpass : passesLeft s1 (y ++ r.out) < passesLeft s y :=
      h.passesLeft_filled hsmall (prefix_refl _) hroom hfilled
    obtain ⟨s2, hs2, h2, hin2, hpass2⟩ :=
      h1.grow hw hsmall (prefix_refl _) (by rw [hroom1, hfilled, Nat.sub_self])
    simp only [hok, true_or, if_true, hs2]
    exact ih h2 rfl (hin2.trans hin1) (by omega)

/-- Enough passes for every loop of one run. -/
def enoughFuel : ℕ := 2 * compressedImageGrowLimit + 2

theorem passesLeft_lt (s : Serializer σ) (y : List Byte) : passesLeft s y < enoughFuel := by
  rw [passesLeft, enoughFuel]
  split <;> omega

theorem Progress.setInput (h : Progress codec header phase s x y) (input : List Byte) :
    Progress codec header phase { s with availIn := input } x y :=
  ⟨h.session, ⟨h.holds.headerLength, h.holds.written, h.holds.nextOut, h.holds.totalOut,
    h.holds.length⟩⟩

theorem appendAll_ends (hw : 32 ≤ w) (hcodec : Compressor codec)
    (hsmall : CompressesBelowLimit codec image) {fuel : ℕ} (hfuel : enoughFuel ≤ fuel)
    {blobs : List (List Byte)} (h : Progress codec header .feeding s x y) (hin : s.availIn = [])
    (hx : x ++ blobs.flatten <+: image) :
    ∃ s' y', appendAll w codec fuel blobs s = some (true, s') ∧ s'.availIn = [] ∧
      Progress codec header .feeding s' (x ++ blobs.flatten) y' := by
  induction blobs generalizing s x y with
  | nil =>
    rw [flatten_nil, append_nil]
    exact ⟨s, y, rfl, hin, h⟩
  | cons blob blobs ih =>
    rw [flatten_cons, ← append_assoc] at hx ⊢
    rw [appendAll]
    by_cases hblob : blob = []
    · grind
    have hlength : blob.length > 0 := length_pos_iff.mpr hblob
    obtain ⟨s1, y1, hs1, hin1, h1⟩ := appendLoop_ends hw hcodec hsmall fuel (h.setInput blob)
      ((prefix_append _ _).trans hx) hblob (lt_of_lt_of_le (passesLeft_lt _ y) hfuel)
    obtain ⟨s2, y2, hs2, hin2, h2⟩ := ih h1 hin1 hx
    refine ⟨s2, y2, ?_, hin2, h2⟩
    simp only [hlength, if_true, appendToSerializationStream, hs1]
    exact hs2

end Loops

/-- What is compressed. -/
def imageBytes (c : Contents) : List Byte :=
  [imageHeader c, c.deviceId, c.metadata, c.rom, c.ram, c.savestate].flatten

theorem length_imageBytes (c : Contents) : (imageBytes c).length = uncompressedSize c := by
  simp [imageBytes, imageHeader, uncompressedSize]
  omega

theorem startSerializer_progress (codec : Codec σ) (c : Contents) :
    Progress codec (fileHeader c) .feeding (startSerializer codec c) [] [] := by
  refine ⟨.start, ?_⟩
  constructor
  case headerLength => rfl
  case written => rfl
  case nextOut => rfl
  case totalOut => rfl
  case length =>
    simp [startSerializer, length_overwrite, length_replicate, Nat.add_comm, fileHeader, uncompressedHeaderSize]

theorem startSerializer_availIn (codec : Codec σ) (c : Contents) :
    (startSerializer codec c).availIn = [] := by
  rw [startSerializer]

theorem serialize_ends (hw : 32 ≤ w) (hcodec : Compressor codec) {c : Contents}
    (hsmall : CompressesBelowLimit codec (imageBytes c)) {fuel : ℕ} (hfuel : enoughFuel ≤ fuel) :
    ∃ z, serialize w codec fuel c = some (true, fileHeader c ++ z) ∧
      Complete codec (imageBytes c) z := by
  have hx : [] ++ [imageHeader c, c.deviceId, c.metadata, c.rom, c.ram, c.savestate].flatten <+:
      imageBytes c := prefix_refl _
  obtain ⟨s, y, hs, hin, h⟩ := appendAll_ends hw hcodec hsmall hfuel
    (startSerializer_progress codec c) (startSerializer_availIn codec c) hx
  obtain ⟨s', z, hs', hholds, hcomplete⟩ := finishLoop_ends hw hcodec hsmall fuel
    h trivial hin (lt_of_lt_of_le (passesLeft_lt s y) hfuel)
  refine ⟨z, ?_, hcomplete⟩
  have hwritten := hholds.written
  rw [hholds.nextOut, Nat.add_comm, ← hholds.totalOut] at hwritten
  simp [serialize, hs, hs', hwritten]

end Cloudpilot.Emulator
