import Cloudpilot.Common.GzipHeader

/-! # Inflating slice by slice

A call of `mz_inflate` that finds bytes waiting in the window copies what there is room for. When
the declared size is too small, no room is left for them at some time, and every later call does
nothing. When it is too large, the zeros behind the data count as data.
-/

namespace Cloudpilot.Common.GunzipContext

open Library.LittleEndian Library.Compression Crc List Function

variable {τ : Type} {inflate : Codec τ} {waiting : τ → ℕ} {c : GunzipContext τ}

/-- What is relied upon of `mz_inflate`, with the number of bytes that wait in its window. While
bytes wait they are copied; otherwise a finishing call ends the stream or fails, and another
call that returns `MZ_OK` gets on. -/
structure Inflates (inflate : Codec τ) (waiting : τ → ℕ) : Prop where
  bounded : ∀ flush state input room,
    (inflate.call flush state input room).consumed ≤ input.length ∧
      (inflate.call flush state input room).out.length ≤ room
  copies : ∀ {phase state x y flush input}, Session inflate phase state x y → phase.Offers input →
    (flush = .finish ∨ phase = .feeding) → 0 < waiting state → ∀ room,
      (inflate.call flush state input room).consumed = 0 ∧
      (inflate.call flush state input room).out.length = min (waiting state) room ∧
      waiting (inflate.call flush state input room).state = waiting state - room ∧
      ((inflate.call flush state input room).status = .ok ∨
        (inflate.call flush state input room).status = .streamEnd ∧ waiting state ≤ room)
  finishes : ∀ {phase state x y input}, Session inflate phase state x y → phase.Offers input →
    waiting state = 0 → ∀ room, (inflate.call .finish state input room).status ≠ .ok
  feeds : ∀ {state x y}, Session inflate .feeding state x y → waiting state = 0 →
    ∀ input room, (inflate.call .noFlush state input room).status = .ok →
      0 < (inflate.call .noFlush state input room).consumed ∨
        (inflate.call .noFlush state input room).out ≠ [] ∨
        0 < waiting (inflate.call .noFlush state input room).state

/-- Bytes wait in the window, and the buffer is full. -/
def Stuck (waiting : τ → ℕ) (c : GunzipContext τ) : Prop :=
  c.state = .more ∧ c.zipStreamEnd = false ∧ 0 < waiting c.zipStream ∧
    c.inflated.length = c.uncompressedSize

/-- The stream has the declared size and checksum. -/
def Exact (c : GunzipContext τ) : Prop :=
  c.inflated.length = c.headerFooter.uncompressedSize.toNat ∧ crc32 c.inflated = c.headerFooter.crc

/-- Nothing has been inflated. -/
structure Unread (inflate : Codec τ) (data : List Byte) (c : GunzipContext τ) : Prop where
  compressedData : c.compressedData = data
  inflated : c.inflated = []
  zipStream : c.zipStream = inflate.start
  consumed : c.consumed = 0
  zipStreamEnd : c.zipStreamEnd = false

section Constructor

variable {data : List Byte}

section

variable (h : Unread inflate data c)

include h

theorem Unread.setError (description : String) : Unread inflate data (c.setError description) := by
  rw [GunzipContext.setError]
  split_ifs
  · exact h
  · exact { h with }

theorem Unread.readFields (w size : ℕ) : Unread inflate data (readFields w size c).2 := by
  rw [readFields_snd]
  induction readings w size generalizing c with
  | nil => exact h
  | cons r rs ih =>
    refine ih ?_
    change Unread inflate data (read w r.1 r.2 c).2
    rw [read]
    split_ifs
    · exact h.setError _
    · exact h

theorem Unread.skipString (flags flag : Byte) : Unread inflate data (skipString flags flag c) := by
  rw [GunzipContext.skipString, skipZeroTerminatedString]
  split_ifs
  · exact h
  · exact { h with }
  · exact h

theorem Unread.skipOptionalFields : Unread inflate data c.skipOptionalFields := by
  have hextra : Unread inflate data (skipExtra c.headerFooter.flags c) := by
    rw [skipExtra]
    split_ifs
    · exact { h with }
    · exact h
  have hnames := (hextra.skipString c.headerFooter.flags flagFname).skipString
    c.headerFooter.flags flagFcomment
  rw [skipOptionalFields_eq_stages, skipCrc]
  split_ifs
  · exact { hnames with }
  · exact hnames

theorem Unread.readHeaderFooter (w : ℕ) : Unread inflate data (readHeaderFooter w c) := by
  have hread := h.readFields w c.compressedSize
  rw [GunzipContext.readHeaderFooter]
  split_ifs
  · exact h.setError _
  · generalize GunzipContext.readFields w c.compressedSize c = result at hread ⊢
    obtain ⟨headerFooter, c'⟩ := result
    have hfields : Unread inflate data
        { c' with headerFooter := headerFooter, payloadStart := headerSize } := { hread with }
    dsimp only
    split_ifs
    · exact hfields
    · exact hfields.skipOptionalFields.setError _
    · exact hfields.skipOptionalFields

end

end Constructor

/-- A context that has been accepted, after some calls of `Continue`. Calls that finish offer all
that is left. -/
structure Running (inflate : Codec τ) (c : GunzipContext τ) : Prop where
  size : c.uncompressedSize = c.headerFooter.uncompressedSize.toNat
  small : c.uncompressedSize < 2 ^ 29
  payload : c.payload.length = c.payloadSize
  fits : c.inflated.length ≤ c.uncompressedSize
  consumed : c.consumed ≤ c.payloadSize
  session : c.state = .more → c.zipStreamEnd = false →
    ∃ phase x, Session inflate phase c.zipStream x c.inflated ∧ (phase = .feeding ∨
      c.payloadSize ≤ c.consumed + c.sliceSize ∧ phase = .finishing
        ((c.payload.drop c.consumed).take ((c.payloadSize - c.consumed) % 2 ^ 32)))

theorem continue_of_ended (hstate : c.state ≠ .more) : Continue inflate c = c := if_pos hstate

theorem continue_of_streamEnd (hstate : c.state = .more) (hend : c.zipStreamEnd = true) :
    Continue inflate c = { c with state := .done }.validate := by
  rw [Continue, if_neg (not_not.mpr hstate), if_pos hend]

theorem Running.continue_eq (h : Running inflate c) (hstate : c.state = .more)
    (hend : c.zipStreamEnd = false) : ∃ phase x flush input,
      Session inflate phase c.zipStream x c.inflated ∧ phase.Offers input ∧
      (flush = .finish ∧ input = (c.payload.drop c.consumed).take
          ((c.payloadSize - c.consumed) % 2 ^ 32) ∧ c.payloadSize ≤ c.consumed + c.sliceSize ∨
        flush = .noFlush ∧ phase = .feeding) ∧
      input.length ≤ c.payloadSize - c.consumed ∧
      Continue inflate c = c.afterInflate
        (inflate.call flush c.zipStream input (c.uncompressedSize - c.inflated.length)) := by
  obtain ⟨phase, x, hsession, hphase⟩ := h.session hstate hend
  have hlength : ∀ n, ((c.payload.drop c.consumed).take n).length ≤ c.payloadSize - c.consumed := by
    simp [h.payload]
  have hroom : (c.uncompressedSize - c.inflated.length) % 2 ^ 32 =
      c.uncompressedSize - c.inflated.length :=
    Nat.mod_eq_of_lt (lt_of_le_of_lt (Nat.sub_le _ _) (h.small.trans (by decide)))
  have hle := h.consumed
  have hremaining : ¬ ((c.payloadSize : ℤ) - c.consumed < 0) := by omega
  have hnat : ((c.payloadSize : ℤ) - c.consumed).toNat = c.payloadSize - c.consumed := by omega
  rw [Continue, if_neg (not_not.mpr hstate), if_neg (by rw [hend]; exact Bool.false_ne_true)]
  rw [if_neg hremaining]
  by_cases hlast : c.payloadSize ≤ c.consumed + c.sliceSize
  · refine ⟨phase, x, .finish, _, hsession, ?_, .inl ⟨rfl, rfl, hlast⟩, hlength _, ?_⟩
    · obtain rfl | ⟨-, rfl⟩ := hphase
      · trivial
      · rfl
    · rw [if_pos (by omega), callInflate, hroom, hnat]
  · obtain rfl | ⟨hlast', -⟩ := hphase
    · refine ⟨.feeding, x, .noFlush, _, hsession, trivial, .inr ⟨rfl, rfl⟩,
        hlength (c.sliceSize % 2 ^ 32), ?_⟩
      rw [if_neg (by omega), callInflate, hroom]
    · omega

theorem Running.afterInflate (h : Running inflate c) {result : Result τ}
    (hconsumed : result.consumed ≤ c.payloadSize - c.consumed)
    (hout : result.out.length ≤ c.uncompressedSize - c.inflated.length)
    (hsession : result.status = .ok → ∃ phase x,
      Session inflate phase result.state x (c.inflated ++ result.out) ∧ (phase = .feeding ∨
        c.payloadSize ≤ c.consumed + result.consumed + c.sliceSize ∧ phase = .finishing
          ((c.payload.drop (c.consumed + result.consumed)).take
            ((c.payloadSize - (c.consumed + result.consumed)) % 2 ^ 32)))) :
    Running inflate (c.afterInflate result) := by
  have hfits : (c.inflated ++ result.out).length ≤ c.uncompressedSize := by
    rw [length_append]
    exact Nat.add_le_of_le_sub' h.fits hout
  have hinput : c.consumed + result.consumed ≤ c.payloadSize :=
    Nat.add_le_of_le_sub' h.consumed hconsumed
  unfold GunzipContext.afterInflate
  cases hstatus : result.status with
  | ok => exact { h with fits := hfits, consumed := hinput, session := fun _ _ => hsession hstatus }
  | streamEnd =>
    exact { h with fits := hfits, consumed := hinput, session := by rintro _ ⟨⟩ }
  | bufError | failed =>
    dsimp only
    rw [GunzipContext.setError]
    split_ifs with herror
    · exact { h with
        fits := hfits
        consumed := hinput
        session := fun hmore => by cases herror.symm.trans hmore }
    · exact { h with fits := hfits, consumed := hinput, session := by rintro ⟨⟩ }

theorem Running.step (h : Running inflate c) (hinflates : Inflates inflate waiting) :
    Running inflate (Continue inflate c) := by
  by_cases hstate : c.state = .more
  case neg => rwa [continue_of_ended hstate]
  cases hend : c.zipStreamEnd with
  | true =>
    rw [continue_of_streamEnd hstate hend, validate, GunzipContext.setError]
    split_ifs
    · grind
    · exact { h with session := by rintro ⟨⟩ }
    · exact { h with session := by rintro ⟨⟩ }
  | false =>
    obtain ⟨phase, x, flush, input, hsession, hoffers, hflush, hinput, heq⟩ :=
      h.continue_eq hstate hend
    obtain ⟨hconsumed, hout⟩ := hinflates.bounded flush c.zipStream input
      (c.uncompressedSize - c.inflated.length)
    rw [heq]
    refine h.afterInflate (hconsumed.trans hinput) hout fun hok => ?_
    obtain ⟨rfl, rfl, hlast⟩ | ⟨rfl, rfl⟩ := hflush
    · have hwaits : 0 < waiting c.zipStream := Nat.pos_of_ne_zero fun hzero =>
        hinflates.finishes hsession hoffers hzero _ hok
      have hzero := (hinflates.copies hsession hoffers (.inl rfl) hwaits
        (c.uncompressedSize - c.inflated.length)).1
      have hfinish := hsession.finish _ _ hoffers hok
      rw [hzero, drop_zero] at hfinish
      rw [hzero, Nat.add_zero]
      exact ⟨_, _, hfinish, .inr ⟨hlast, rfl⟩⟩
    · exact ⟨_, _, hsession.feed _ _ hok, .inl rfl⟩

theorem Stuck.step (h : Stuck waiting c) (hrunning : Running inflate c)
    (hinflates : Inflates inflate waiting) : Stuck waiting (Continue inflate c) := by
  obtain ⟨hstate, hend, hwaits, hfull⟩ := h
  obtain ⟨phase, x, flush, input, hsession, hoffers, hflush, -, heq⟩ :=
    hrunning.continue_eq hstate hend
  obtain ⟨-, hout, hleft, hstatus⟩ := hinflates.copies hsession hoffers
    (hflush.imp And.left And.right) hwaits (c.uncompressedSize - c.inflated.length)
  have hok := hstatus.resolve_right fun hended => by omega
  rw [heq]
  simp only [Stuck, GunzipContext.afterInflate, hok, length_append]
  exact ⟨hstate, hend, by omega, by omega⟩

theorem Running.iterate (h : Running inflate c) (hinflates : Inflates inflate waiting) (n : ℕ) :
    Running inflate ((Continue inflate)^[n] c) := by
  induction n with
  | zero => exact h
  | succ n ih =>
    rw [iterate_succ_apply']
    exact ih.step hinflates

end Cloudpilot.Common.GunzipContext
