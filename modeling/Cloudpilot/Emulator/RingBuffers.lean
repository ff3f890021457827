import Mathlib.Data.Nat.ModEq
import Mathlib.Data.Vector.Basic

/-! # Ring buffers as bounded lists

`Fifo<T>` keeps the place of its first entry, `Queue<T>` the place behind its last one. Both
are the list of their entries, of which a push to a full buffer loses the first.
-/
namespace Cloudpilot.Emulator

open List

structure Fifo (α : Type) (capacity : ℕ) where
  buffer : List.Vector α capacity
  start : ℕ
  size : ℕ
  start_lt : start < capacity
  size_le : size ≤ capacity

namespace Fifo

variable {α : Type} {capacity : ℕ} {i j : ℕ}

/-- A place in the buffer, counted from the first entry. -/
def slot (f : Fifo α capacity) (i : ℕ) : Fin capacity :=
  ⟨(f.start + i) % capacity, Nat.mod_lt _ (Nat.zero_lt_of_lt f.start_lt)⟩

def new [Zero α] (capacity : ℕ) (pos : 0 < capacity) : Fifo α capacity where
  buffer := List.Vector.replicate capacity 0
  start := 0
  size := 0
  start_lt := pos
  size_le := Nat.zero_le _

/-- `Push`: a full FIFO loses its first entry. -/
def push (f : Fifo α capacity) (value : α) : Fifo α capacity :=
  if h : f.size < capacity then
    { f with
      buffer := f.buffer.set (f.slot f.size) value
      size := f.size + 1
      size_le := h }
  else
    { f with
      buffer := f.buffer.set (f.slot f.size) value
      start := (f.slot 1).val
      start_lt := (f.slot 1).isLt }

def dropFirst (f : Fifo α capacity) : Fifo α capacity :=
  { f with
    start := (f.slot 1).val
    size := f.size - 1
    start_lt := (f.slot 1).isLt
    size_le := Nat.le_trans (Nat.sub_le ..) f.size_le }

/-- `Pop`: an empty FIFO gives zero. -/
def pop [Zero α] (f : Fifo α capacity) : α × Fifo α capacity :=
  if f.size = 0 then (0, f) else (f.buffer.get ⟨f.start, f.start_lt⟩, f.dropFirst)

def clear (f : Fifo α capacity) : Fifo α capacity :=
  { f with
    start := 0
    size := 0
    start_lt := Nat.zero_lt_of_lt f.start_lt
    size_le := Nat.zero_le _ }

/-- The entries, the first one in front. -/
def contents (f : Fifo α capacity) : List α :=
  (List.range f.size).map fun i => f.buffer.get (f.slot i)

@[simp] theorem length_contents (f : Fifo α capacity) : f.contents.length = f.size := by
  simp [contents]

@[simp] theorem contents_clear (f : Fifo α capacity) : f.clear.contents = [] := rfl

theorem slot_injective (f : Fifo α capacity) (hi : i < capacity) (hj : j < capacity)
    (h : f.slot i = f.slot j) : i = j := by
  have hmod : f.start + i ≡ f.start + j [MOD capacity] := congrArg Fin.val h
  have hcancel := Nat.ModEq.add_left_cancel' f.start hmod
  rwa [Nat.ModEq, Nat.mod_eq_of_lt hi, Nat.mod_eq_of_lt hj] at hcancel

theorem contents_push {f : Fifo α capacity} (h : f.size < capacity) (value : α) :
    (f.push value).contents = f.contents ++ [value] := by
  rw [push, dif_pos h]
  change (List.range (f.size + 1)).map (fun i => (f.buffer.set (f.slot f.size) value).get
    (f.slot i)) = _
  rw [range_succ, map_append, map_singleton, List.Vector.get_set_same]
  congr 1
  apply map_congr_left
  intro i hi
  rw [List.mem_range] at hi
  apply List.Vector.get_set_of_ne
  intro heq
  have hsame := f.slot_injective h (by omega) heq
  omega

theorem size_push {f : Fifo α capacity} (h : f.size < capacity) (value : α) :
    (f.push value).size = f.size + 1 := by
  rw [push, dif_pos h]

@[simp] theorem pop_empty [Zero α] {f : Fifo α capacity} (h : f.size = 0) : f.pop = (0, f) :=
  if_pos h

theorem size_pop [Zero α] {f : Fifo α capacity} : f.pop.2.size = f.size - 1 := by
  rw [pop]
  split
  · simp [*]
  · rfl

theorem slot_dropFirst (f : Fifo α capacity) (i : ℕ) : f.dropFirst.slot i = f.slot (i + 1) := by
  apply Fin.ext
  change ((f.start + 1) % capacity + i) % capacity = (f.start + (i + 1)) % capacity
  rw [Nat.mod_add_mod, Nat.add_assoc, Nat.add_comm 1]

theorem contents_pop [Zero α] {f : Fifo α capacity} (h : f.size ≠ 0) :
    f.contents = f.pop.1 :: f.pop.2.contents := by
  have hfirst : f.slot 0 = ⟨f.start, f.start_lt⟩ := Fin.ext (Nat.mod_eq_of_lt f.start_lt)
  have hsize : f.size = f.dropFirst.size + 1 := (Nat.succ_pred_eq_of_ne_zero h).symm
  rw [pop, if_neg h, contents, contents, hsize, range_succ_eq_map, map_cons, map_map,
    hfirst]
  congr 1
  apply map_congr_left
  intro i _
  exact congrArg f.buffer.get (f.slot_dropFirst i).symm

end Fifo

variable {α β : Type} {capacity : ℕ}

inductive BufferOp (α : Type) where
  | push (value : α)
  | pop
  | size
  | clear

inductive Shown (α : Type) where
  | entry (value : α)
  | size (n : ℕ)

namespace BoundedList

def push (capacity : ℕ) (xs : List α) (value : α) : List α :=
  (if xs.length < capacity then xs else xs.tail) ++ [value]

/-- Nothing is shown by a pop from an empty list. -/
def step (capacity : ℕ) (xs : List α) : BufferOp α → List α × List (Shown α)
  | .push value => (push capacity xs value, [])
  | .pop => (xs.tail, (xs.head?.map .entry).toList)
  | .size => (xs, [.size xs.length])
  | .clear => ([], [])

def run (capacity : ℕ) : List α → List (BufferOp α) → List α × List (Shown α)
  | xs, [] => (xs, [])
  | xs, op :: ops =>
    let (xs, first) := step capacity xs op
    let (xs, rest) := run capacity xs ops
    (xs, first ++ rest)

end BoundedList

structure RingBuffer (α β : Type) where
  push : β → α → β
  pop : β → α × β
  size : β → ℕ
  clear : β → β

namespace RingBuffer

variable (b : RingBuffer α β)

def step (s : β) : BufferOp α → β × List (Shown α)
  | .push value => (b.push s value, [])
  | .pop => ((b.pop s).2, if b.size s = 0 then [] else [.entry (b.pop s).1])
  | .size => (s, [.size (b.size s)])
  | .clear => (b.clear s, [])

def run : β → List (BufferOp α) → β × List (Shown α)
  | s, [] => (s, [])
  | s, op :: ops =>
    let (s, first) := b.step s op
    let (s, rest) := run s ops
    (s, first ++ rest)

/-- The operations are those of the bounded list of the entries. -/
structure Refines (capacity : ℕ) (contents : β → List α) : Prop where
  push : ∀ s value, contents (b.push s value) = BoundedList.push capacity (contents s) value
  pop : ∀ s, b.size s ≠ 0 → contents s = (b.pop s).1 :: contents (b.pop s).2
  pop_empty : ∀ s, b.size s = 0 → contents (b.pop s).2 = []
  size : ∀ s, b.size s = (contents s).length
  clear : ∀ s, contents (b.clear s) = []

variable {b} {contents : β → List α}

theorem Refines.step (h : b.Refines capacity contents) (s : β) (op : BufferOp α) :
    BoundedList.step capacity (contents s) op = (contents (b.step s op).1, (b.step s op).2) := by
  cases op with
  | push value => exact congrArg (·, []) (h.push s value).symm
  | pop =>
    by_cases hs : b.size s = 0
    · have hempty : contents s = [] := length_eq_zero_iff.mp ((h.size s).symm.trans hs)
      simp [BoundedList.step, RingBuffer.step, hs, hempty, h.pop_empty s hs]
    · simp [BoundedList.step, RingBuffer.step, hs, h.pop s hs]
  | size => exact congrArg (fun n => (contents s, [Shown.size n])) (h.size s).symm
  | clear => exact congrArg (·, []) (h.clear s).symm

theorem Refines.run (h : b.Refines capacity contents) (s : β) (ops : List (BufferOp α)) :
    BoundedList.run capacity (contents s) ops = (contents (b.run s ops).1, (b.run s ops).2) := by
  induction ops generalizing s with
  | nil => rfl
  | cons op ops ih =>
    rw [BoundedList.run, h.step]
    simp only [ih]
    rfl

end RingBuffer

namespace Fifo

theorem contents_push_full {f : Fifo α capacity} (h : ¬f.size < capacity) (value : α) :
    (f.push value).contents = f.contents.tail ++ [value] := by
  have hsize : f.size = capacity := Nat.le_antisymm f.size_le (Nat.not_lt.mp h)
  have hpos : 0 < capacity := Nat.zero_lt_of_lt f.start_lt
  have hdropped : f.dropFirst.size < capacity := by
    change f.size - 1 < capacity
    omega
  have hpush : f.push value = f.dropFirst.push value := by
    have hslot : f.dropFirst.slot f.dropFirst.size = f.slot f.size := by
      rw [slot_dropFirst]
      exact congrArg f.slot (Nat.sub_add_cancel (by omega))
    rw [push, dif_neg h, push, dif_pos hdropped, hslot]
    simp only [dropFirst, mk.injEq, true_and]
    omega
  have hcontents : f.contents.tail = f.dropFirst.contents := by
    obtain ⟨n, hn⟩ : ∃ n, f.size = n + 1 := ⟨f.size - 1, by omega⟩
    have hdrop : f.dropFirst.size = n := by
      change f.size - 1 = n
      omega
    rw [contents, contents, hn, hdrop, range_succ_eq_map, map_cons, tail_cons, map_map]
    exact map_congr_left fun i _ => congrArg f.buffer.get (f.slot_dropFirst i).symm
  rw [hpush, contents_push hdropped, hcontents]

theorem contents_push_eq (f : Fifo α capacity) (value : α) :
    (f.push value).contents = BoundedList.push capacity f.contents value := by
  rw [BoundedList.push, length_contents]
  split
  · exact contents_push ‹_› value
  · exact contents_push_full ‹_› value

def ringBuffer [Zero α] : RingBuffer α (Fifo α capacity) := ⟨push, pop, size, clear⟩

theorem refines [Zero α] :
    (ringBuffer : RingBuffer α (Fifo α capacity)).Refines capacity contents where
  push := contents_push_eq
  pop _ h := contents_pop h
  pop_empty f h := length_eq_zero_iff.mp (by simp [ringBuffer, show f.size = 0 from h])
  size f := (length_contents f).symm
  clear := contents_clear

end Fifo

structure Queue (α : Type) (capacity : ℕ) where
  items : List.Vector α capacity
  size : ℕ
  next : ℕ
  size_le : size ≤ capacity
  next_lt : next < capacity

namespace Queue

/-- `item` is what the constructor of the vector fills it with. -/
def new (capacity : ℕ) (pos : 0 < capacity) (item : α) : Queue α capacity where
  items := .replicate capacity item
  size := 0
  next := 0
  size_le := Nat.zero_le _
  next_lt := pos

variable (q : Queue α capacity)

def push (item : α) : Queue α capacity where
  items := q.items.set ⟨q.next, q.next_lt⟩ item
  next := (q.next + 1) % capacity
  size := if q.size < capacity then q.size + 1 else q.size
  size_le := by
    split
    · assumption
    · exact q.size_le
  next_lt := Nat.mod_lt _ (Nat.zero_lt_of_lt q.next_lt)

/-- The index that `Pop` and `Peek` read. -/
def first : Fin capacity :=
  ⟨(q.next + capacity - q.size) % capacity, Nat.mod_lt _ (Nat.zero_lt_of_lt q.next_lt)⟩

def peek : α := q.items.get q.first

def pop : α × Queue α capacity :=
  (q.peek, { q with
    size := if 0 < q.size then q.size - 1 else q.size
    size_le := by
      have := q.size_le
      split <;> omega })

def clear : Queue α capacity := { q with size := 0, size_le := Nat.zero_le _ }

/-- The same entries at the same places. -/
def toFifo : Fifo α capacity := ⟨q.items, q.first, q.size, q.first.isLt, q.size_le⟩

theorem add_sub_mod (n k : ℕ) (h : k ≤ capacity) :
    (n % capacity + capacity - k) % capacity = (n + capacity - k) % capacity := by
  rw [Nat.add_sub_assoc h, Nat.add_sub_assoc h, Nat.mod_add_mod]

theorem toFifo_push (item : α) : (q.push item).toFifo = q.toFifo.push item := by
  have hle := q.size_le
  have hnext : q.toFifo.slot q.size = ⟨q.next, q.next_lt⟩ := Fin.ext <| by
    change ((q.next + capacity - q.size) % capacity + q.size) % capacity = q.next
    rw [Nat.mod_add_mod, Nat.sub_add_cancel (by omega), Nat.add_mod_right,
      Nat.mod_eq_of_lt q.next_lt]
  rw [Fifo.push]
  split
  · rename_i hfull
    have hroom : q.size < capacity := hfull
    simp only [toFifo, push, first, if_pos hroom, Fifo.mk.injEq, and_true]
    refine ⟨congrArg (q.items.set · item) hnext.symm, ?_⟩
    rw [add_sub_mod _ _ hroom]
    congr 1
    omega
  · rename_i hfull
    have hroom : ¬q.size < capacity := hfull
    have hsize : q.size = capacity := by omega
    simp only [toFifo, push, first, if_neg hroom, Fifo.mk.injEq, and_true]
    refine ⟨congrArg (q.items.set · item) hnext.symm, ?_⟩
    simp only [Fifo.slot, hsize, Nat.add_sub_cancel, Nat.mod_mod, Nat.mod_add_mod]

theorem toFifo_pop [Zero α] (h : q.size ≠ 0) : q.toFifo.pop = (q.pop.1, q.pop.2.toFifo) := by
  have hle := q.size_le
  rw [Fifo.pop, if_neg (by exact h)]
  simp only [pop, peek, toFifo, Fifo.dropFirst, Fifo.slot, first, Prod.mk.injEq, true_and,
    if_pos (Nat.pos_of_ne_zero h), Fifo.mk.injEq, and_true]
  rw [Nat.mod_add_mod]
  congr 1
  omega

def ringBuffer : RingBuffer α (Queue α capacity) := ⟨push, pop, size, clear⟩

theorem refines : (ringBuffer : RingBuffer α (Queue α capacity)).Refines capacity
    (·.toFifo.contents) where
  push q item := (congrArg Fifo.contents (q.toFifo_push item)).trans (Fifo.contents_push_eq _ item)
  pop q h := by
    let : Zero α := ⟨q.peek⟩
    rw [Fifo.contents_pop (f := q.toFifo) h, q.toFifo_pop h]
    rfl
  pop_empty q h := by
    have hsize : q.size = 0 := h
    exact length_eq_zero_iff.mp (by simp [ringBuffer, pop, toFifo, hsize])
  size q := (Fifo.length_contents q.toFifo).symm
  clear q := Fifo.contents_clear q.toFifo

theorem contents_head {v : α} (h : v ∈ q.toFifo.contents.head?) : q.peek = v := by
  have hsize : q.size ≠ 0 := fun hsize => by
    rw [length_eq_zero_iff.mp ((Fifo.length_contents q.toFifo).trans hsize)] at h
    cases h
  rw [refines.pop q hsize] at h
  exact Option.some.inj h

end Queue

/-- Over every run both buffers show what the bounded list shows and hold its entries, and the
sums of indices stay in 32 bits. That the indices lie in the storage is part of the types. -/
theorem run_ringBuffers [Zero α] (pos : 0 < capacity) (h : capacity < 2 ^ 31) (item : α)
    (ops : List (BufferOp α)) :
    let list := BoundedList.run capacity [] ops
    let fifo := Fifo.ringBuffer.run (.new capacity pos) ops
    let queue := Queue.ringBuffer.run (.new capacity pos item) ops
    (fifo.1.contents, fifo.2) = list ∧ (queue.1.toFifo.contents, queue.2) = list ∧
      (∀ v ∈ list.1.head?, queue.1.peek = v) ∧
      fifo.1.start + fifo.1.size < 2 ^ 32 ∧ queue.1.next + capacity < 2 ^ 32 := by
  intro list fifo queue
  have hfifo : list = (fifo.1.contents, fifo.2) := Fifo.refines.run (.new capacity pos) ops
  have hqueue : list = (queue.1.toFifo.contents, queue.2) :=
    Queue.refines.run (.new capacity pos item) ops
  refine ⟨hfifo.symm, hqueue.symm, fun v hv => ?_, ?_, ?_⟩
  · rw [hqueue] at hv
    exact queue.1.contents_head hv
  · have := fifo.1.start_lt
    have := fifo.1.size_le
    omega
  · have := queue.1.next_lt
    omega

theorem run_ringBuffers_overflow :
    (Queue.ringBuffer.run (.new 2 (by decide) 0) [.push 1, .push 2, .push 3, .pop, .size]).2 =
      [.entry 2, .size 1] :=
  (congrArg Prod.snd (run_ringBuffers (by decide) (by decide) 0
    [.push (1 : ℕ), .push 2, .push 3, .pop, .size]).2.1).trans rfl

namespace Queue

/-- `audioQueuePopChunk`. -/
def popChunk (q : Queue α capacity) : ℕ → List α × Queue α capacity
  | 0 => ([], q)
  | count + 1 =>
    if 0 < q.size then
      let chunk := popChunk q.pop.2 count
      (q.pop.1 :: chunk.1, chunk.2)
    else ([], q)

theorem popChunk_eq (q : Queue α capacity) (count : ℕ) :
    (q.popChunk count).1 = q.toFifo.contents.take count ∧
      (q.popChunk count).2.toFifo.contents = q.toFifo.contents.drop count := by
  induction count generalizing q with
  | zero => exact ⟨rfl, rfl⟩
  | succ count ih =>
    rw [popChunk]
    by_cases hsize : 0 < q.size
    · obtain ⟨hchunk, hrest⟩ := ih q.pop.2
      have hpop := refines.pop q hsize.ne'
      simp only [hpop, if_pos hsize, take_succ_cons, drop_succ_cons]
      exact ⟨congrArg _ hchunk, hrest⟩
    · have hempty : q.toFifo.contents = [] :=
        length_eq_zero_iff.mp ((Fifo.length_contents q.toFifo).trans (Nat.eq_zero_of_not_pos hsize))
      simp [if_neg hsize, hempty]

end Queue

theorem BoundedList.push_sublist (capacity : ℕ) (xs : List α) (value : α) :
    push capacity xs value <+ xs ++ [value] := by
  rw [push]
  split
  · exact .refl _
  · exact (tail_sublist xs).append_right _

/-- The samples that wait, were pushed and were played, and how many were overwritten or cleared. -/
structure AudioState (capacity : ℕ) where
  queue : Queue (BitVec 32) capacity
  pushed : List (BitVec 32)
  played : List (BitVec 32)
  lost : ℕ

inductive AudioEvent where
  | push (sample : BitVec 32)
  | popChunk (count : ℕ)
  | clear

namespace AudioState

def step (s : AudioState capacity) : AudioEvent → AudioState capacity
  | .push sample => { s with
      queue := s.queue.push sample
      pushed := s.pushed ++ [sample]
      lost := if s.queue.size < capacity then s.lost else s.lost + 1 }
  | .popChunk count => { s with
      queue := (s.queue.popChunk count).2
      played := s.played ++ (s.queue.popChunk count).1 }
  | .clear => { s with queue := s.queue.clear, lost := s.lost + s.queue.size }

/-- Samples that come out or wait, in the order in which they went in. -/
def InOrder (s : AudioState capacity) : Prop :=
  s.played ++ s.queue.toFifo.contents <+ s.pushed ∧
    (s.played ++ s.queue.toFifo.contents).length + s.lost = s.pushed.length

theorem InOrder.step {s : AudioState capacity} (h : s.InOrder) (event : AudioEvent) :
    (s.step event).InOrder := by
  obtain ⟨hsublist, hlength⟩ := h
  rw [length_append] at hlength
  cases event with
  | push sample =>
    have hpush : (s.queue.push sample).toFifo.contents = _ := Queue.refines.push s.queue sample
    have hsize : s.queue.size = s.queue.toFifo.contents.length := Queue.refines.size s.queue
    have hpos := Nat.zero_lt_of_lt s.queue.next_lt
    have hle := s.queue.size_le
    refine ⟨?_, ?_⟩
    · change s.played ++ (s.queue.push sample).toFifo.contents <+ s.pushed ++ [sample]
      rw [hpush]
      refine (append_sublist_append_left ..).mpr (BoundedList.push_sublist ..) |>.trans ?_
      rw [← append_assoc]
      exact hsublist.append_right _
    · simp only [AudioState.step, hpush, BoundedList.push, length_append, length_singleton]
      split <;> grind
  | popChunk count =>
    obtain ⟨hchunk, hrest⟩ := s.queue.popChunk_eq count
    rw [InOrder, AudioState.step, hchunk, hrest, append_assoc, take_append_drop, length_append]
    exact ⟨hsublist, hlength⟩
  | clear =>
    have hclear : s.queue.clear.toFifo.contents = [] := Queue.refines.clear s.queue
    have hsize : s.queue.size = s.queue.toFifo.contents.length := Queue.refines.size s.queue
    simp only [InOrder, AudioState.step, hclear, append_nil]
    exact ⟨(sublist_append_left ..).trans hsublist, by omega⟩

/-- Samples come out in the order in which they went in, none twice, and all of them unless one
was pushed to a full queue or cleared. -/
theorem run_inOrder (capacity : ℕ) (events : List AudioEvent) :
    let s := events.foldl step ⟨.new (capacity + 1) capacity.succ_pos 0, [], [], 0⟩
    s.played ++ s.queue.toFifo.contents <+ s.pushed ∧
      (s.lost = 0 → s.played ++ s.queue.toFifo.contents = s.pushed) := by
  intro s
  have hs : s.InOrder := by
    refine List.foldlRecOn events step ?_ fun s hs event _ => hs.step event
    exact ⟨.refl _, rfl⟩
  exact ⟨hs.1, fun hlost => hs.1.eq_of_length (by have := hs.2; omega)⟩

end AudioState

end Cloudpilot.Emulator
