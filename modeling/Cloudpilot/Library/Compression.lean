import Cloudpilot.Library.Words

/-! # Streaming compressors

A codec is called with a part of the input and some room for the output, and says how
much it consumed and what it wrote. A session is the sequence of calls since the start,
with the input consumed and the output written so far. Once a call asked to finish,
later calls offer what that call left.
-/
namespace Cloudpilot.Library.Compression
open LittleEndian (Byte)

inductive Status where
  | ok
  | streamEnd
  | bufError
  | failed
  deriving DecidableEq

inductive Flush where
  | noFlush
  | finish
  deriving DecidableEq

structure Result (σ : Type*) where
  status : Status
  state : σ
  consumed : ℕ
  out : List Byte

/-- `call` gets the flush mode, the state, the input on offer and the room for the output. -/
structure Codec (σ : Type*) where
  start : σ
  call : Flush → σ → List Byte → ℕ → Result σ

/-- Whether a session was asked to finish, and the input that was not consumed then. -/
inductive Phase where
  | feeding
  | finishing (rest : List Byte)

/-- The input that a finishing call may offer. -/
def Phase.Offers : Phase → List Byte → Prop
  | .feeding, _ => True
  | .finishing rest, input => input = rest

variable {σ : Type*}

/-- `Session codec phase state x y`: the calls so far consumed `x` and wrote `y`. -/
inductive Session (codec : Codec σ) : Phase → σ → List Byte → List Byte → Prop
  | start : Session codec .feeding codec.start [] []
  | feed {state : σ} {x y : List Byte} (input : List Byte) (room : ℕ)
      (h : Session codec .feeding state x y)
      (hok : (codec.call .noFlush state input room).status = .ok) :
      Session codec .feeding (codec.call .noFlush state input room).state
        (x ++ input.take (codec.call .noFlush state input room).consumed)
        (y ++ (codec.call .noFlush state input room).out)
  | finish {phase : Phase} {state : σ} {x y : List Byte} (input : List Byte) (room : ℕ)
      (h : Session codec phase state x y) (hinput : phase.Offers input)
      (hok : (codec.call .finish state input room).status = .ok) :
      Session codec (.finishing (input.drop (codec.call .finish state input room).consumed))
        (codec.call .finish state input room).state
        (x ++ input.take (codec.call .finish state input room).consumed)
        (y ++ (codec.call .finish state input room).out)

/-- `z` is a complete stream for `x`: a session that ended. -/
def Complete (codec : Codec σ) (x z : List Byte) : Prop :=
  ∃ phase state x' y input room, Session codec phase state x' y ∧ phase.Offers input ∧
    0 < room ∧ (codec.call .finish state input room).status = .streamEnd ∧
    x = x' ++ input ∧ z = y ++ (codec.call .finish state input room).out

/-- How a compressor answers a call. Without room it does nothing. With room, it takes all
the input unless the output is full, and a finishing call ends the stream unless the
output is full. -/
structure Compressor (codec : Codec σ) : Prop where
  no_room : ∀ flush state input, codec.call flush state input 0 = ⟨.bufError, state, 0, []⟩
  feed : ∀ {state x y input room}, Session codec .feeding state x y → input ≠ [] → 0 < room →
    (codec.call .noFlush state input room).status = .ok ∧
    (codec.call .noFlush state input room).consumed ≤ input.length ∧
    (codec.call .noFlush state input room).out.length ≤ room ∧
    ((codec.call .noFlush state input room).consumed = input.length ∨
      (codec.call .noFlush state input room).out.length = room)
  finish : ∀ {phase state x y input room}, Session codec phase state x y → phase.Offers input →
    0 < room → (codec.call .finish state input room).out.length ≤ room ∧
    (((codec.call .finish state input room).status = .streamEnd ∧
        (codec.call .finish state input room).consumed = input.length) ∨
      ((codec.call .finish state input room).status = .ok ∧
        (codec.call .finish state input room).consumed ≤ input.length ∧
        (codec.call .finish state input room).out.length = room))

/-- The output for `x` takes no more than `bound` bytes, at any time. -/
structure OutputBounded (codec : Codec σ) (x : List Byte) (bound : ℕ) : Prop where
  session : ∀ {phase state x' y input}, Session codec phase state x' y → phase.Offers input →
    x' ++ input = x → y.length ≤ bound
  complete : ∀ {z}, Complete codec x z → z.length ≤ bound

/-- The states of a decompressor that reads the stream `z` of `x` slice by slice, with room for
all of the output that is still to come. The last slice is not among them. -/
inductive Reading (codec : Codec σ) (x z : List Byte) : σ → List Byte → List Byte → Prop
  | start : Reading codec x z codec.start [] []
  | feed {state : σ} {u v : List Byte} (input rest : List Byte) (h : Reading codec x z state u v)
      (hz : u ++ (input ++ rest) = z) (hinput : input ≠ []) (hrest : rest ≠ []) :
      Reading codec x z (codec.call .noFlush state input (x.length - v.length)).state
        (u ++ input.take (codec.call .noFlush state input (x.length - v.length)).consumed)
        (v ++ (codec.call .noFlush state input (x.length - v.length)).out)

/-- However a decompressor is fed with the stream `z`, it returns `x`. -/
structure Decompresses (codec : Codec σ) (x z : List Byte) : Prop where
  nonempty : z ≠ []
  feed : ∀ {state u v input rest}, Reading codec x z state u v → u ++ (input ++ rest) = z →
    input ≠ [] → rest ≠ [] →
    (codec.call .noFlush state input (x.length - v.length)).status = .ok ∧
    0 < (codec.call .noFlush state input (x.length - v.length)).consumed ∧
    (codec.call .noFlush state input (x.length - v.length)).consumed ≤ input.length
  finish : ∀ {state u v input}, Reading codec x z state u v → u ++ input = z →
    (codec.call .finish state input (x.length - v.length)).status = .streamEnd ∧
    v ++ (codec.call .finish state input (x.length - v.length)).out = x

section Buffering
variable (encode : List Byte → List Byte)

/-- The state of a compressor that holds its input back until it is asked to finish: the input
so far, and what is left to write once it knows. -/
abbrev Held := List Byte × Option (List Byte)

/-- What is left to write when a finishing call offers more input. -/
def pending (held : Held) (input : List Byte) : List Byte :=
  held.2.getD (encode (held.1 ++ input))

/-- The compressor that writes `encode x` when it is asked to finish. -/
def buffering : Codec Held where
  start := ([], none)
  call flush held input room :=
    if room = 0 then ⟨.bufError, held, 0, []⟩ else
      match flush with
      | .noFlush => ⟨.ok, (held.1 ++ input, held.2), input.length, []⟩
      | .finish =>
        if (pending encode held input).length ≤ room then
          ⟨.streamEnd, (held.1 ++ input, some []), input.length, pending encode held input⟩
        else ⟨.ok, (held.1 ++ input, some ((pending encode held input).drop room)), input.length,
          (pending encode held input).take room⟩

variable {encode} {held : Held} {x y input : List Byte} {room : ℕ}

theorem buffering_noFlush (hroom : 0 < room) :
    (buffering encode).call .noFlush held input room =
      ⟨.ok, (held.1 ++ input, held.2), input.length, []⟩ :=
  if_neg (Nat.pos_iff_ne_zero.mp hroom)

theorem buffering_finish_fits (hroom : 0 < room) (h : (pending encode held input).length ≤ room) :
    (buffering encode).call .finish held input room =
      ⟨.streamEnd, (held.1 ++ input, some []), input.length, pending encode held input⟩ :=
  (if_neg (Nat.pos_iff_ne_zero.mp hroom)).trans (if_pos h)

theorem buffering_finish_full (hroom : 0 < room) (h : ¬ (pending encode held input).length ≤ room) :
    (buffering encode).call .finish held input room =
      ⟨.ok, (held.1 ++ input, some ((pending encode held input).drop room)), input.length,
        (pending encode held input).take room⟩ :=
  (if_neg (Nat.pos_iff_ne_zero.mp hroom)).trans (if_neg h)

/-- What a session with the buffering compressor has held back and written. -/
def HeldBack (encode : List Byte → List Byte) : Phase → Held → List Byte → List Byte → Prop
  | .feeding, held, x, y => held = (x, none) ∧ y = []
  | .finishing rest, held, x, y => rest = [] ∧ ∃ left, held = (x, some left) ∧ y ++ left = encode x

theorem HeldBack.append_pending {phase : Phase} (h : HeldBack encode phase held x y)
    (hoffers : phase.Offers input) :
    y ++ pending encode held input = encode (x ++ input) ∧ held.1 = x := by
  cases phase with
  | feeding =>
    obtain ⟨rfl, rfl⟩ := h
    exact ⟨rfl, rfl⟩
  | finishing rest =>
    obtain ⟨rfl, left, rfl, hleft⟩ := h
    cases hoffers
    rw [List.append_nil]
    exact ⟨hleft, rfl⟩

theorem room_pos_of_ok {flush : Flush}
    (h : ((buffering encode).call flush held input room).status = .ok) : 0 < room := by
  rw [Nat.pos_iff_ne_zero]
  rintro rfl
  cases h

theorem buffering_session {phase : Phase} (h : Session (buffering encode) phase held x y) :
    HeldBack encode phase held x y := by
  induction h with
  | start => exact ⟨rfl, rfl⟩
  | feed input room h hok ih =>
    rw [buffering_noFlush (room_pos_of_ok hok)]
    obtain ⟨rfl, rfl⟩ := ih
    simp [HeldBack]
  | @finish _ state _ _ input room h hinput hok ih =>
    obtain ⟨hpending, hheld⟩ := ih.append_pending hinput
    by_cases hfits : (pending encode state input).length ≤ room
    · rw [buffering_finish_fits (room_pos_of_ok hok) hfits] at hok
      cases hok
    · rw [buffering_finish_full (room_pos_of_ok hok) hfits]
      simp only [HeldBack, List.drop_length, List.take_length, hheld, true_and]
      refine ⟨_, rfl, ?_⟩
      rw [List.append_assoc, List.take_append_drop, hpending]

theorem compressor_buffering (encode : List Byte → List Byte) :
    Compressor (buffering encode) where
  no_room := by
    intro flush state input
    simp [buffering]
  feed := by
    intro state x y input room _ _ hroom
    rw [buffering_noFlush hroom]
    simp
  finish := by
    intro phase state x y input room _ _ hroom
    by_cases hfits : (pending encode state input).length ≤ room
    · rw [buffering_finish_fits hroom hfits]
      exact ⟨hfits, .inl ⟨rfl, rfl⟩⟩
    · rw [buffering_finish_full hroom hfits]
      have hlen : ((pending encode state input).take room).length = room := by
        rw [List.length_take]
        omega
      exact ⟨hlen.le, .inr ⟨rfl, le_refl _, hlen⟩⟩

theorem complete_buffering {z : List Byte} (h : Complete (buffering encode) x z) :
    z = encode x := by
  obtain ⟨phase, state, x', y, input, room, hsession, hoffers, hroom, hend, rfl, rfl⟩ := h
  obtain ⟨hpending, -⟩ := (buffering_session hsession).append_pending hoffers
  by_cases hfits : (pending encode state input).length ≤ room
  · rw [buffering_finish_fits hroom hfits, hpending]
  · rw [buffering_finish_full hroom hfits] at hend
    cases hend

/-- A session never has more output than the stream of its input. -/
theorem buffering_session_length {phase : Phase} (h : Session (buffering encode) phase held x y) :
    y.length ≤ (encode x).length := by
  have hheld := buffering_session h
  cases phase with
  | feeding => simp [hheld.2]
  | finishing rest =>
    obtain ⟨-, left, -, hleft⟩ := hheld
    rw [← hleft, List.length_append]
    exact Nat.le_add_right _ _

end Buffering

end Cloudpilot.Library.Compression
