import Cloudpilot.Uarm.Session.Blocks

/-! # The scanner of `compress`

What has been written is the code of the bytes in front of the cursor and takes no more
room than these bytes, since a run is only written when it pays for its own header and for
the header of the copied bytes before it. The bytes behind the last run need one more
header, and that is the overhead the buffer has.
-/
namespace Cloudpilot.Uarm.Session
open Library.LittleEndian Library.TypedArray Common.Crc List

variable {data : List Byte} {i cursor stop : ℕ} {sink sink' : Sink} {s s' : Scan}

/-- The output buffer holds the code of the first bytes. -/
structure Encodes (data : List Byte) (cursor : ℕ) (sink : Sink) : Prop where
  length : sink.compressedData.length = data.length + maxOverhead
  inside : sink.compressedCursor ≤ sink.compressedData.length
  content : ∃ blocks : List Block, (∀ block ∈ blocks, block.Fits) ∧
    blocks.flatMap Block.bytes = data.take cursor ∧
    sink.content = word (BitVec.ofNat 32 data.length) ++ blocks.flatMap Block.encode

/-- What the variables of the scanner say about the bytes in front of position `i`. -/
def Phase (data : List Byte) (i : ℕ) (s : Scan) : Prop :=
  match s.state with
  | .first => i = 0 ∧ s.cursor = 0
  | .scanCopy => s.cursor < i ∧ s.lastValue = valueAt data (i - 1)
  | .scanRepeat => s.cursor ≤ s.repeatFirst ∧ s.repeatFirst + 2 ≤ i ∧
      ∀ j, s.repeatFirst ≤ j → j < i → valueAt data j = s.lastValue

/-- The invariant of the loop of `compress`. -/
structure Scanned (data : List Byte) (i : ℕ) (s : Scan) : Prop where
  crc : s.crc = (data.take i).foldl crc32Add crc32Start
  encodes : Encodes data s.cursor s.sink
  amortised : s.sink.compressedCursor ≤ 4 + s.cursor
  phase : Phase data i s

theorem take_append_slice (h : cursor ≤ stop) :
    data.take cursor ++ (data.take stop).drop cursor = data.take stop := by
  conv_rhs => rw [← take_append_drop cursor (data.take stop), take_take,
    Nat.min_eq_left h]

theorem valueAt_of_lt (h : i < data.length) : valueAt data i = (data.get ⟨i, h⟩).toNat := by
  simp [valueAt, h]

theorem valueAt_end : valueAt data data.length = 0xffff := by simp [valueAt]

theorem slice_eq_replicate {value : ℕ} (hstop : stop ≤ data.length)
    (hrun : ∀ j, cursor ≤ j → j < stop → valueAt data j = value) :
    (data.take stop).drop cursor = List.replicate (stop - cursor) (BitVec.ofNat 8 value) := by
  apply ext_getElem
  · simp [hstop]
  · intro k hk hk'
    rw [length_replicate] at hk'
    have hj := hrun (cursor + k) (by omega) (by omega)
    rw [valueAt_of_lt (by omega)] at hj
    simp [← hj]

theorem Encodes.append {block : Block} (h : Encodes data cursor sink)
    (happ : sink.Appends block.encode sink') (hfits : block.Fits)
    (hbytes : data.take cursor ++ block.bytes = data.take stop)
    (hroom : sink'.compressedCursor ≤ data.length + maxOverhead) : Encodes data stop sink' := by
  obtain ⟨blocks, hblocks, hdata, hcontent⟩ := h.content
  constructor
  · rw [happ.length, h.length]
  · rwa [happ.length, h.length]
  · refine ⟨blocks ++ [block], ?_, ?_, ?_⟩
    · grind
    · grind
    · rw [happ.content, hcontent]
      simp

theorem Encodes.putCopy (h : Encodes data cursor sink)
    (hbound : sink.compressedCursor ≤ 4 + cursor) (hsize : data.length ≤ maxBlockSize)
    (hle : cursor ≤ stop) (hstop : stop ≤ data.length) :
    ∃ sink', sink.putCopy data cursor stop = .ok sink' ∧ Encodes data stop sink' ∧
      sink'.compressedCursor ≤ maxOverhead + stop := by
  unfold maxBlockSize at hsize
  unfold maxOverhead
  by_cases heq : cursor = stop
  · grind [Sink.putCopy]
  · have hlen : (Sink.copyBlock data cursor stop).bytes.length = stop - cursor := by
      simp [Sink.copyBlock, Block.bytes]
      omega
    have hgroups : (lengthBytes (stop - cursor)).length ≤ 4 := length_lengthBytes_le (by omega)
    have hencode : (Sink.copyBlock data cursor stop).encode.length ≤ 5 + (stop - cursor) := by
      rw [Sink.copyBlock, Block.bytes] at hlen
      rw [Sink.copyBlock, Block.encode, length_cons, length_append, hlen]
      omega
    have hlength := h.length
    unfold maxOverhead at hlength
    have hroom : sink.compressedCursor + (Sink.copyBlock data cursor stop).encode.length ≤
        sink.compressedData.length := by
      omega
    obtain ⟨sink', hput, happ⟩ := Sink.putCopy_appends (by omega) hstop hroom
    have hcursor := happ.cursor
    refine ⟨sink', hput, h.append happ ?_ (take_append_slice hle) ?_, by omega⟩
    · unfold Block.Fits
      omega
    · unfold maxOverhead
      omega

theorem Encodes.putRepeat {value : ℕ} (h : Encodes data cursor sink)
    (hbound : sink.compressedCursor ≤ maxOverhead + cursor) (hsize : data.length ≤ maxBlockSize)
    (hle : cursor + repeatThreshold ≤ stop) (hstop : stop ≤ data.length)
    (hrun : ∀ j, cursor ≤ j → j < stop → valueAt data j = value) :
    Encodes data stop (sink.putRepeat (BitVec.ofNat 8 value) (stop - cursor)) ∧
      (sink.putRepeat (BitVec.ofNat 8 value) (stop - cursor)).compressedCursor ≤ 4 + stop := by
  unfold maxBlockSize at hsize
  have hgroups : (lengthBytes (stop - cursor)).length + 7 ≤ stop - cursor :=
    length_lengthBytes_run (by omega) (by omega)
  have hencode : (Block.run (BitVec.ofNat 8 value) (stop - cursor)).encode.length =
      2 + (lengthBytes (stop - cursor)).length := by
    simp [Block.encode]
    omega
  have hlength := h.length
  unfold maxOverhead at hbound hlength
  have hroom : sink.compressedCursor +
      (Block.run (BitVec.ofNat 8 value) (stop - cursor)).encode.length ≤
        sink.compressedData.length := by
    omega
  have happ := Sink.putRepeat_appends hroom
  have hcursor := happ.cursor
  refine ⟨h.append happ ?_ ?_ ?_, by omega⟩
  · simp [Block.Fits, Block.bytes]
    omega
  · rw [Block.bytes, ← slice_eq_replicate hstop hrun]
    exact take_append_slice (by omega)
  · unfold maxOverhead
    omega

theorem start_scanned : Scanned data 0 (Scan.start data) where
  crc := rfl
  encodes := by
    constructor
    · simp [Scan.start, overwrite, maxOverhead]
      omega
    · simp [Scan.start, overwrite, maxOverhead]
    · refine ⟨[], by simp, by simp [Scan.start], ?_⟩
      simp only [Sink.content, Scan.start, overwrite, List.take_zero, List.nil_append,
        List.flatMap_nil, List.append_nil]
      exact List.take_left' (length_word _)
  amortised := Nat.le_refl 4
  phase := ⟨rfl, rfl⟩

theorem addCrc_eq (h : s.crc = (data.take i).foldl crc32Add crc32Start) :
    s.addCrc data i = { s with crc := (data.take (i + 1)).foldl crc32Add crc32Start } := by
  rw [Scan.addCrc, take_add_one, foldl_append, ← h]
  cases data[i]? <;> rfl

theorem Encodes.endRun (h : Encodes data s.cursor s.sink)
    (hbound : s.sink.compressedCursor ≤ 4 + s.cursor) (hsize : data.length ≤ maxBlockSize)
    (hcursor : s.cursor ≤ s.repeatFirst) (hrepeat : s.repeatFirst ≤ i) (hi : i ≤ data.length)
    (hrun : ∀ j, s.repeatFirst ≤ j → j < i → valueAt data j = s.lastValue) :
    ∃ sink' cursor', s.endRun data i = .ok { s with sink := sink', cursor := cursor' } ∧
      Encodes data cursor' sink' ∧ sink'.compressedCursor ≤ 4 + cursor' ∧ cursor' ≤ i := by
  by_cases hlong : i - s.repeatFirst ≥ repeatThreshold
  · obtain ⟨sink', hput, hencodes, hbound'⟩ := h.putCopy hbound hsize hcursor (by omega)
    have hrepeated := hencodes.putRepeat hbound' hsize (by omega) hi hrun
    refine ⟨_, i, ?_, hrepeated.1, hrepeated.2, le_rfl⟩
    rw [Scan.endRun, if_pos hlong, hput]
    rfl
  · refine ⟨s.sink, s.cursor, ?_, h, hbound, by omega⟩
    rw [Scan.endRun, if_neg hlong]

/-- A round of the loop keeps the invariant, and does not fail. -/
theorem Scanned.step (h : Scanned data i s) (hsize : data.length ≤ maxBlockSize)
    (hi : i ≤ data.length) : ∃ s', s.step data i = .ok s' ∧ Scanned data (i + 1) s' := by
  have hphase := h.phase
  rw [Scan.step, addCrc_eq h.crc]
  cases hstate : s.state with
  | first =>
    simp only [Phase, hstate] at hphase
    refine ⟨_, rfl, rfl, h.encodes, h.amortised, ?_⟩
    simp only [Phase]
    exact ⟨by omega, rfl⟩
  | scanCopy =>
    simp only [Phase, hstate] at hphase
    by_cases hvalue : valueAt data i = s.lastValue
    · refine ⟨_, if_pos hvalue, rfl, h.encodes, h.amortised, ?_⟩
      refine ⟨by simp only; omega, by simp only; omega, ?_⟩
      intro j hle hlt
      rcases Nat.lt_or_ge j i with hbefore | hhere <;> grind
    · refine ⟨_, if_neg hvalue, rfl, h.encodes, h.amortised, ?_⟩
      simp only [Phase]
      exact ⟨by omega, rfl⟩
  | scanRepeat =>
    simp only [Phase, hstate] at hphase
    obtain ⟨hcursor, hrepeat, hrun⟩ := hphase
    by_cases hvalue : valueAt data i = s.lastValue
    · refine ⟨_, if_neg (not_not.mpr hvalue), rfl, h.encodes, h.amortised, ?_⟩
      simp only [Phase]
      refine ⟨hcursor, by omega, ?_⟩
      intro j hle hlt
      rcases Nat.lt_or_ge j i with hbefore | hhere <;> grind
    · simp only [ne_eq, hvalue, not_false_eq_true, ↓reduceIte]
      have hfirst : s.repeatFirst ≤ i := by omega
      obtain ⟨sink', cursor', hend, hencodes, hbound, hle⟩ :=
        Encodes.endRun (s := { s with
            state := .scanRepeat, crc := (data.take (i + 1)).foldl crc32Add crc32Start })
          h.encodes h.amortised hsize hcursor hfirst hi hrun
      rw [hend]
      refine ⟨_, rfl, rfl, hencodes, hbound, ?_⟩
      simp only [Phase]
      exact ⟨by omega, rfl⟩

theorem foldlM_step_scanned (hsize : data.length ≤ maxBlockSize) (hi : i ≤ data.length + 1) :
    ∃ s, (List.range i).foldlM (Scan.step data) (Scan.start data) = .ok s ∧ Scanned data i s := by
  induction i with
  | zero => exact ⟨_, rfl, start_scanned⟩
  | succ i ih =>
    obtain ⟨s, hrun, hscanned⟩ := ih (by omega)
    obtain ⟨s', hstep, hscanned'⟩ := hscanned.step hsize (by omega)
    refine ⟨s', ?_, hscanned'⟩
    rw [range_succ, foldlM_append, hrun]
    change (Scan.step data s i >>= pure) = _
    rw [hstep]
    rfl

theorem Scanned.state_eq (h : Scanned data (data.length + 1) s) : s.state = .scanCopy := by
  have hphase := h.phase
  cases hstate : s.state with
  | first =>
    simp only [Phase, hstate] at hphase
    omega
  | scanCopy => rfl
  | scanRepeat =>
    simp only [Phase, hstate] at hphase
    obtain ⟨hcursor, hrepeat, hrun⟩ := hphase
    have hlast := hrun data.length (by omega) (by omega)
    have hfirst := hrun s.repeatFirst le_rfl (by omega)
    rw [valueAt_end] at hlast
    rw [valueAt_of_lt (by omega), ← hlast] at hfirst
    omega

theorem Scanned.finish (h : Scanned data (data.length + 1) s)
    (hsize : data.length ≤ maxBlockSize) :
    ∃ sink', s.finish data = .ok { s with sink := sink' } ∧ Encodes data data.length sink' := by
  have hphase := h.phase
  simp only [Phase, h.state_eq] at hphase
  rw [Scan.finish, if_pos h.state_eq]
  by_cases hrest : s.cursor < data.length
  · obtain ⟨sink', hput, hencodes, -⟩ :=
      h.encodes.putCopy h.amortised hsize (by omega) le_rfl
    refine ⟨sink', ?_, hencodes⟩
    rw [if_pos hrest, hput]
    rfl
  · have hcursor : s.cursor = data.length := by omega
    exact ⟨s.sink, if_neg hrest, hcursor ▸ h.encodes⟩

theorem scan_encodes (hsize : data.length ≤ maxBlockSize) :
    ∃ s, scan data = .ok s ∧ Encodes data data.length s.sink ∧ crc32Finish s.crc = crc32 data := by
  obtain ⟨s, hrun, hscanned⟩ := foldlM_step_scanned hsize le_rfl
  obtain ⟨sink', hfinish, hencodes⟩ := hscanned.finish hsize
  refine ⟨{ s with sink := sink' }, ?_, hencodes, ?_⟩
  · rwa [scan, hrun]
  · grind [hscanned.crc, crc32Finish_foldl]

end Cloudpilot.Uarm.Session
