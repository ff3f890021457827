import Cloudpilot.Common.GzipContext
import Cloudpilot.Library.Runs

/-! # Driving `GzipContext`

The context is driven through four stages: in front of the header, in the middle of the
stream, at its end, and done. Every call of `Continue` either takes some input, fills the
buffer, makes it larger or enters the next stage.
-/
namespace Cloudpilot.Common.GzipContext
open Library.LittleEndian Library.Compression Library.Drive Crc List

variable {σ : Type} {deflate : Codec σ} {c : GzipContext σ} {front data x y z : List Byte}
  {phase phase' : Phase} {k : ℕ}

/-- In the middle of the stream: the compressor has taken `x` and written `y`. -/
structure Deflating (deflate : Codec σ) (front data : List Byte) (phase : Phase)
    (x y : List Byte) (c : GzipContext σ) : Prop where
  state : c.state = .more
  streamEnd : c.zipStreamEnd = false
  slice : 1 ≤ c.sliceSize
  input : c.uncompressedData = data
  session : Session deflate phase c.zipStream x y
  consumed : c.consumed = x.length
  rest : x ++ data.drop c.consumed = data
  written : c.gzipData = front ++ y
  offers : phase.Offers (data.drop c.consumed)
  last : phase ≠ .feeding → data.length - c.consumed ≤ c.sliceSize
  buffered : ∃ k, Buffered k c

/-- At the end of the stream `z`. -/
structure Deflated (deflate : Codec σ) (front data z : List Byte) (c : GzipContext σ) : Prop where
  state : c.state = .more
  streamEnd : c.zipStreamEnd = true
  input : c.uncompressedData = data
  complete : Complete deflate data z
  written : c.gzipData = front ++ z
  buffered : ∃ k, Buffered k c

def fileBytes (front data z : List Byte) : List Byte :=
  front ++ z ++ word (crc32 data) ++ word (BitVec.ofNat 32 data.length)

inductive Stage (deflate : Codec σ) (front data : List Byte) (c : GzipContext σ) : Prop
  | initial (h : c.state = .initial) (hinput : c.uncompressedData = data) (hnext : Deflating deflate front data .feeding [] []
      { c with state := .more }.writeHeader)
  | deflating (phase : Phase) (x y : List Byte) (h : Deflating deflate front data phase x y c)
  | deflated (z : List Byte) (h : Deflated deflate front data z c)
  | done (z : List Byte) (h : c.state = .done) (hcomplete : Complete deflate data z)
      (hwritten : c.gzipData = fileBytes front data z)

/-- The calls that are still to come in the middle of the stream, at most. -/
def callsLeft (c : GzipContext σ) : ℕ :=
  (c.uncompressedData.length - c.consumed) + 2 * (5 - c.gzipBufferSize / c.growStep) +
    if c.gzipIndex < c.gzipBufferSize then 1 else 0

/-- A bound of the calls that are still to come. -/
def measure (c : GzipContext σ) : ℕ :=
  match c.state with
  | .initial => c.uncompressedData.length + 20
  | .more => if c.zipStreamEnd then 1 else c.callsLeft + 2
  | _ => 0

theorem callsLeft_le (c : GzipContext σ) : c.callsLeft ≤ c.uncompressedData.length + 11 := by
  unfold callsLeft
  generalize c.gzipBufferSize / c.growStep = steps
  split <;> omega

theorem Buffered.div (h : Buffered k c) : c.gzipBufferSize / c.growStep = k := by
  have hpos := c.growStep_pos
  rw [h.size, Nat.mul_div_cancel _ (by omega)]

section

variable (h : Deflating deflate front data phase x y c)

include h

theorem Deflating.grow (hbuffered : Buffered k c) (hk : k < 5)
    (hfull : c.gzipIndex = c.gzipBufferSize) :
    Deflating deflate front data phase x y c.grow ∧ c.grow.callsLeft < c.callsLeft := by
  rw [hbuffered.grow hk]
  constructor
  · exact ⟨h.state, h.streamEnd, h.slice, h.input, h.session, h.consumed, h.rest, h.written,
      h.offers, h.last, k + 1, hbuffered.grown hk⟩
  · have hroom : ¬c.gzipIndex < c.gzipBufferSize := by omega
    rw [callsLeft, callsLeft, hbuffered.div, (hbuffered.grown hk).div, if_neg hroom]
    simp only
    split <;> omega

/-- The largest buffer is never full in the middle of the stream. -/
theorem Deflating.steps_lt (hbuffered : Buffered k c) (hfront : front.length ≤ 267)
    (hbound : OutputBounded deflate data (deflateBound data.length))
    (hfull : c.gzipIndex = c.gzipBufferSize) : k < 5 := by
  have hlength := hbound.session h.session h.offers h.rest
  have hfile := file_le_buffer hbuffered.input
  have hsize := hbuffered.size
  have hsteps := hbuffered.steps
  rw [h.input] at hfile
  rw [gzipIndex, h.written, length_append] at hfull
  by_contra hnot
  have hfive : k = 5 := by omega
  rw [hfive] at hsize
  omega

theorem Deflating.consumed_le : c.consumed ≤ data.length := by
  have hlength := congrArg List.length h.rest
  rw [length_append, ← h.consumed] at hlength
  omega

theorem Deflating.continue_eq : c.Continue deflate =
      if data.length - c.consumed ≤ c.sliceSize then
        c.afterDeflate (deflate.call .finish c.zipStream (data.drop c.consumed)
          (c.gzipBufferSize - c.gzipIndex))
      else
        c.afterDeflate (deflate.call .noFlush c.zipStream ((data.drop c.consumed).take c.sliceSize)
          (c.gzipBufferSize - c.gzipIndex)) := by
  obtain ⟨k, hbuffered⟩ := h.buffered
  have hle := h.consumed_le
  have hlength := hbuffered.input
  have hstep := growStep_lt hlength
  have hroom : (c.gzipBufferSize - c.gzipIndex) % 2 ^ 32 = c.gzipBufferSize - c.gzipIndex := by
    apply Nat.mod_eq_of_lt
    have hsteps := hbuffered.steps.2
    calc c.gzipBufferSize - c.gzipIndex ≤ k * c.growStep := by rw [hbuffered.size]; omega
      _ ≤ 5 * c.growStep := Nat.mul_le_mul_right _ hsteps
      _ < 2 ^ 32 := by omega
  unfold maxGzipSize at hlength
  rw [h.input] at hlength
  have hinitial : c.state ≠ .initial := by
    rw [h.state]
    decide
  have hcall : ∀ flush availIn, availIn < 2 ^ 32 → c.callDeflate deflate flush availIn =
      deflate.call flush c.zipStream ((data.drop c.consumed).take availIn)
        (c.gzipBufferSize - c.gzipIndex) := by
    intro flush availIn hlt
    rw [callDeflate, hroom, Nat.mod_eq_of_lt hlt, h.input]
  rw [Continue, if_neg hinitial, if_neg (not_not.mpr h.state), h.streamEnd, h.input]
  simp only [Bool.false_eq_true, ↓reduceIte]
  rw [if_neg (by omega)]
  by_cases hlast : data.length - c.consumed ≤ c.sliceSize
  · have hrest : ((data.length : ℤ) - c.consumed).toNat = data.length - c.consumed := by omega
    rw [if_pos (by omega), if_pos hlast, hrest, hcall _ _ (by omega),
      take_of_length_le (by rw [length_drop])]
  · rw [if_neg (by omega), if_neg hlast, hcall _ _ (by omega)]

end

theorem afterDeflate_full (c : GzipContext σ) :
    c.afterDeflate ⟨.bufError, c.zipStream, 0, []⟩ = c.grow := by
  simp [afterDeflate]

theorem Buffered.append {c' : GzipContext σ} {out : List Byte} (h : Buffered k c)
    (hout : out.length ≤ c.gzipBufferSize - c.gzipIndex)
    (hsize : c'.gzipBufferSize = c.gzipBufferSize)
    (hinput : c'.uncompressedData = c.uncompressedData)
    (hdata : c'.gzipData = c.gzipData ++ out) : Buffered k c' where
  steps := h.steps
  size := by rw [hsize, h.size, growStep, growStep, hinput]
  inside := by
    have hinside := h.inside
    rw [gzipIndex, hdata, List.length_append, hsize]
    unfold gzipIndex at hout hinside
    omega
  input := hinput ▸ h.input

theorem callsLeft_append {out : List Byte} {state : σ} {taken : ℕ}
    (hroom : c.gzipIndex < c.gzipBufferSize)
    (hle : c.consumed + taken ≤ c.uncompressedData.length)
    (hprogress : 0 < taken ∨ out.length = c.gzipBufferSize - c.gzipIndex) :
    { c with gzipData := c.gzipData ++ out, zipStream := state,
             consumed := c.consumed + taken }.callsLeft < c.callsLeft := by
  have hindex : (c.gzipData ++ out).length = c.gzipIndex + out.length := length_append
  unfold callsLeft growStep gzipIndex
  simp only [hindex]
  rw [gzipIndex] at hroom hprogress
  rw [if_pos hroom, gzipIndex]
  split <;> omega

section

variable (h : Deflating deflate front data phase x y c)

include h

theorem Deflating.measure_eq : c.measure = c.callsLeft + 2 := by
  rw [measure, h.state, h.streamEnd]
  rfl

theorem Deflating.step_full (hcodec : Compressor deflate) (hfront : front.length ≤ 267)
    (hbound : OutputBounded deflate data (deflateBound data.length))
    (hfull : c.gzipIndex = c.gzipBufferSize) :
    Stage deflate front data (c.Continue deflate) ∧ (c.Continue deflate).measure < c.measure := by
  obtain ⟨k, hbuffered⟩ := h.buffered
  have hroom : c.gzipBufferSize - c.gzipIndex = 0 := by omega
  have hcontinue : c.Continue deflate = c.grow := by
    simp [h.continue_eq, hroom, hcodec.no_room, afterDeflate_full, ite_self]
  obtain ⟨hgrown, hlt⟩ := h.grow hbuffered (h.steps_lt hbuffered hfront hbound hfull) hfull
  rw [hcontinue, hgrown.measure_eq, h.measure_eq]
  exact ⟨.deflating phase x y hgrown, by omega⟩

theorem Deflating.advance {result : Result σ} (hok : result.status = .ok)
    (hroom : c.gzipIndex < c.gzipBufferSize) (htaken : result.consumed ≤ data.length - c.consumed)
    (hout : result.out.length ≤ c.gzipBufferSize - c.gzipIndex)
    (hsession : Session deflate phase' result.state (x ++ (data.drop c.consumed).take result.consumed)
      (y ++ result.out)) (hoffers : phase'.Offers ((data.drop c.consumed).drop result.consumed))
    (hlast : phase' ≠ .feeding → data.length - c.consumed ≤ c.sliceSize)
    (hprogress : 0 < result.consumed ∨ result.out.length = c.gzipBufferSize - c.gzipIndex) :
    Stage deflate front data (c.afterDeflate result) ∧ (c.afterDeflate result).measure < c.measure := by
  obtain ⟨k, hbuffered⟩ := h.buffered
  have hle := h.consumed_le
  have hdeflating : Deflating deflate front data phase' (x ++ (data.drop c.consumed).take result.consumed)
      (y ++ result.out) (c.afterDeflate result) := by
    rw [afterDeflate, hok]
    constructor
    · exact h.state
    · exact h.streamEnd
    · exact h.slice
    · exact h.input
    · exact hsession
    · grind [h.consumed, length_append, length_take, length_drop]
    · simp [h.rest]
    · simp [h.written]
    · grind [drop_drop]
    · grind
    · exact ⟨k, hbuffered.append hout rfl rfl rfl⟩
  refine ⟨.deflating _ _ _ hdeflating, ?_⟩
  rw [hdeflating.measure_eq, h.measure_eq, afterDeflate, hok]
  apply Nat.add_lt_add_right
  apply callsLeft_append hroom _ hprogress
  rw [h.input]
  omega

theorem Deflating.step_finish (hcodec : Compressor deflate)
    (hlast : data.length - c.consumed ≤ c.sliceSize) (hroom : c.gzipIndex < c.gzipBufferSize) :
    Stage deflate front data (c.Continue deflate) ∧ (c.Continue deflate).measure < c.measure := by
  obtain ⟨k, hbuffered⟩ := h.buffered
  have hpos : 0 < c.gzipBufferSize - c.gzipIndex := by omega
  obtain ⟨hout, hresult⟩ := hcodec.finish h.session h.offers hpos
  have hfinish := h.session.finish (data.drop c.consumed) (c.gzipBufferSize - c.gzipIndex) h.offers
  rw [h.continue_eq, if_pos hlast]
  generalize hcall : deflate.call .finish c.zipStream (data.drop c.consumed)
    (c.gzipBufferSize - c.gzipIndex) = result at hout hresult hfinish
  rcases hresult with ⟨hend, -⟩ | ⟨hok, htaken, hfilled⟩
  · have hdeflated : Deflated deflate front data (y ++ result.out) (c.afterDeflate result) := by
      rw [afterDeflate, hend]
      constructor
      · exact h.state
      · rfl
      · exact h.input
      · refine ⟨phase, c.zipStream, x, y, data.drop c.consumed, _, h.session, h.offers, hpos, ?_,
          h.rest.symm, ?_⟩
        · grind
        · rw [hcall]
      · simp [h.written]
      · exact ⟨k, hbuffered.append hout rfl rfl rfl⟩
    refine ⟨.deflated _ hdeflated, ?_⟩
    rw [h.measure_eq, measure, hdeflated.state, hdeflated.streamEnd]
    simp only [↓reduceIte]
    omega
  · rw [length_drop] at htaken
    exact h.advance hok hroom htaken hout (hfinish hok) rfl (fun _ => hlast) (.inr hfilled)

theorem Deflating.step_feed (hcodec : Compressor deflate)
    (hmore : ¬data.length - c.consumed ≤ c.sliceSize) (hroom : c.gzipIndex < c.gzipBufferSize) :
    Stage deflate front data (c.Continue deflate) ∧ (c.Continue deflate).measure < c.measure := by
  have hpos : 0 < c.gzipBufferSize - c.gzipIndex := by omega
  have hslice := h.slice
  have hphase : phase = .feeding := by
    by_contra hfinishing
    exact hmore (h.last hfinishing)
  subst hphase
  have hlength : ((data.drop c.consumed).take c.sliceSize).length = c.sliceSize := by
    simp
    omega
  have hinput : (data.drop c.consumed).take c.sliceSize ≠ [] := by grind
  obtain ⟨hok, htaken, hout, hprogress⟩ := hcodec.feed h.session hinput hpos
  have hsession := h.session.feed _ _ hok
  rw [h.continue_eq, if_neg hmore]
  rw [hlength] at htaken hprogress
  rw [take_take, Nat.min_eq_left htaken] at hsession
  refine h.advance hok hroom (by omega) hout hsession trivial (absurd rfl) ?_
  exact hprogress.imp_left fun hall => by omega

theorem Deflating.step (hcodec : Compressor deflate) (hfront : front.length ≤ 267)
    (hbound : OutputBounded deflate data (deflateBound data.length)) :
    Stage deflate front data (c.Continue deflate) ∧ (c.Continue deflate).measure < c.measure := by
  obtain ⟨k, hbuffered⟩ := h.buffered
  have hinside := hbuffered.inside
  by_cases hfull : c.gzipIndex = c.gzipBufferSize
  · exact h.step_full hcodec hfront hbound hfull
  · have hroom : c.gzipIndex < c.gzipBufferSize := by omega
    by_cases hlast : data.length - c.consumed ≤ c.sliceSize
    · exact h.step_finish hcodec hlast hroom
    · exact h.step_feed hcodec hlast hroom

end

theorem Deflated.step (h : Deflated deflate front data z c) (hfront : front.length ≤ 267)
    (hbound : OutputBounded deflate data (deflateBound data.length)) :
    Stage deflate front data (c.Continue deflate) ∧ (c.Continue deflate).measure < c.measure := by
  obtain ⟨k, hbuffered⟩ := h.buffered
  have hlength := hbound.complete h.complete
  have hfile := file_le_buffer hbuffered.input
  rw [h.input] at hfile
  have hindex : c.gzipIndex = front.length + z.length := by
    rw [gzipIndex, h.written, length_append]
  have hinitial : c.state ≠ .initial := by
    rw [h.state]
    decide
  have hcontinue : c.Continue deflate = { c with state := .done }.writeFooter := by
    rw [Continue, if_neg hinitial, if_neg (not_not.mpr h.state), if_pos h.streamEnd]
  have hdone : Buffered k { c with state := .done } :=
    ⟨hbuffered.steps, hbuffered.size, hbuffered.inside, hbuffered.input⟩
  have hcrcRoom : gzipIndex { c with state := .done } + 4 ≤
      5 * growStep { c with state := .done } := by
    change c.gzipIndex + 4 ≤ 5 * c.growStep
    omega
  obtain ⟨k', hcrc, hbuffered'⟩ := hdone.write32 (by simp) (crc32 c.uncompressedData) hcrcRoom
  have hsizeRoom : (write32 { c with state := .done } (crc32 c.uncompressedData)).gzipIndex + 4 ≤
      5 * (write32 { c with state := .done } (crc32 c.uncompressedData)).growStep := by
    rw [hcrc]
    change (c.gzipData ++ word (crc32 c.uncompressedData)).length + 4 ≤ 5 * c.growStep
    rw [length_append, length_word]
    unfold gzipIndex at hindex
    omega
  have hnotError : (write32 { c with state := .done } (crc32 c.uncompressedData)).state ≠ .error := by
    rw [hcrc]
    simp
  obtain ⟨k'', hsize, -⟩ := hbuffered'.write32 hnotError
    (BitVec.ofNat 32 c.uncompressedData.length) hsizeRoom
  have hfooter : { c with state := .done }.writeFooter =
      (write32 { c with state := .done } (crc32 c.uncompressedData)).write32
        (BitVec.ofNat 32 c.uncompressedData.length) := by simp [writeFooter, hcrc]
  rw [hcontinue, hfooter, hsize, hcrc]
  constructor
  · refine .done z rfl h.complete ?_
    simp only [h.written, h.input, fileBytes, append_assoc]
  · simp [measure, h.state, h.streamEnd]

theorem Stage.step (h : Stage deflate front data c) (hcodec : Compressor deflate)
    (hfront : front.length ≤ 267)
    (hbound : OutputBounded deflate data (deflateBound data.length)) (hrunning : c.running = true) :
    Stage deflate front data (c.Continue deflate) ∧ (c.Continue deflate).measure < c.measure := by
  cases h with
  | initial hstate hinput hnext =>
    have hcontinue : c.Continue deflate = { c with state := .more }.writeHeader := by
      grind [Continue]
    rw [hcontinue]
    refine ⟨.deflating _ _ _ hnext, ?_⟩
    have hcalls := callsLeft_le { c with state := .more }.writeHeader
    rw [hnext.input] at hcalls
    have hlength : c.uncompressedData.length = data.length := by rw [hinput]
    rw [hnext.measure_eq, measure, hstate]
    simp only
    omega
  | deflating phase x y hdeflating => exact hdeflating.step hcodec hfront hbound
  | deflated z hdeflated => exact hdeflated.step hfront hbound
  | done z hstate hcomplete hwritten =>
    rw [running, hstate] at hrunning
    cases hrunning

def started (deflate : Codec σ) (data : List Byte) (sliceSize : ℕ) (filename : List Byte)
    (mtime : BitVec 32) : GzipContext σ :=
  ((new deflate data sliceSize).setFilename filename).setMtime mtime

theorem started_eq {sliceSize : ℕ} {filename : List Byte} {mtime : BitVec 32} (hdata : data ≠ [])
    (hname : filename.length ≤ maxFilenameLength) :
    started deflate data sliceSize filename mtime = {
      state := .initial
      sliceSize := sliceSize
      error := ""
      uncompressedData := data
      gzipData := []
      gzipBufferSize := min (max (data.length / 4) minimumGzipBufferSize) maxGzipSize
      filename := filename
      mtime := mtime
      zipStream := deflate.start
      consumed := 0
      zipStreamEnd := false } := by
  have hlength : data.length ≠ 0 := by simpa using hdata
  rw [started, new, if_neg hlength, setFilename, if_pos ⟨rfl, hname⟩, setMtime, if_pos rfl]

theorem started_stage {sliceSize : ℕ} {filename : List Byte} {mtime : BitVec 32}
    (hdata : data ≠ []) (hsize : data.length < maxGzipSize) (hslice : 1 ≤ sliceSize)
    (hname : filename.length ≤ maxFilenameLength) :
    Stage deflate (header filename mtime) data
      (started deflate data sliceSize filename mtime) := by
  have hbuffer : min (max (data.length / 4) minimumGzipBufferSize) maxGzipSize =
      max (data.length / 4) minimumGzipBufferSize := by grind [maxGzipSize, minimumGzipBufferSize]
  have hheader : (header filename mtime).length ≤ 267 := length_header_le hname
  have hmin : 2 ^ 19 ≤ max (data.length / 4) minimumGzipBufferSize := by
    exact le_max_right _ _
  rw [started_eq hdata hname, hbuffer]
  refine .initial rfl rfl ?_
  rw [writeHeader_eq (by simp) rfl (by simp only; omega)]
  constructor
  · rfl
  · rfl
  · exact hslice
  · rfl
  · exact .start
  · rfl
  · rfl
  · simp
  · trivial
  · simp
  · refine ⟨1, by omega, ?_, ?_, hsize⟩
    · rw [Nat.one_mul]
      rfl
    · grind [gzipIndex]

theorem gzip_ends {sliceSize : ℕ} {filename : List Byte} {mtime : BitVec 32}
    (hcodec : Compressor deflate) (hbound : OutputBounded deflate data (deflateBound data.length))
    (hdata : data ≠ []) (hsize : data.length < maxGzipSize) (hslice : 1 ≤ sliceSize)
    (hname : filename.length ≤ maxFilenameLength) :
    ∃ fuel c z, drive (Continue deflate) running fuel
        (started deflate data sliceSize filename mtime) = some c ∧ c.state = .done ∧
      Complete deflate data z ∧ c.gzipData = fileBytes (header filename mtime) data z := by
  have hfront : (header filename mtime).length ≤ 267 := length_header_le hname
  have hstart : Stage deflate (header filename mtime) data
      (started deflate data sliceSize filename mtime) :=
    started_stage hdata hsize hslice hname
  obtain ⟨fuel, c, hdrive, hstage, hstopped⟩ :=
    drive_ends measure (fun _ h hrunning => h.step hcodec hfront hbound hrunning) hstart
  refine ⟨fuel, c, ?_⟩
  cases hstage with
  | initial hstate =>
    rw [running, hstate] at hstopped
    cases hstopped
  | deflating phase x y h => grind [running, h.state]
  | deflated z h => grind [running, h.state]
  | done z hstate hcomplete hwritten => exact ⟨z, hdrive, hstate, hcomplete, hwritten⟩

end Cloudpilot.Common.GzipContext
