import Mathlib.Data.BitVec
import Mathlib.Tactic

/-! # Flash memory

Cells that can be programmed and erased. Programming clears bits, and erasing sets all of them, so
that a cell holds the AND of what was programmed since it was erased. The latest stroke of a cell
comes first. A memory keeps the strokes of all cells, and the cells of which the value has changed.
-/

namespace Cloudpilot.Library.FlashMemory

inductive Stroke (w : ℕ) where
  | erase
  | program (b : BitVec w)
  deriving DecidableEq

variable {w : ℕ}

/-- What was programmed since the cell was erased. -/
def programmed : List (Stroke w) → List (BitVec w)
  | [] => []
  | .erase :: _ => []
  | .program b :: strokes => b :: programmed strokes

/-- The value that programming began with. -/
def base (initial : BitVec w) (strokes : List (Stroke w)) : BitVec w :=
  if .erase ∈ strokes then BitVec.allOnes w else initial

def value (initial : BitVec w) (strokes : List (Stroke w)) : BitVec w :=
  (programmed strokes).foldr (fun b acc => acc &&& b) (base initial strokes)

variable {initial b : BitVec w} {strokes : List (Stroke w)}

@[simp] theorem value_nil : value initial [] = initial := by
  simp [value, programmed, base]

@[simp] theorem value_erase : value initial (.erase :: strokes) = BitVec.allOnes w := by
  simp [value, programmed, base]

@[simp] theorem value_program :
    value initial (.program b :: strokes) = value initial strokes &&& b := by
  simp [value, programmed, base]

structure Memory (w : ℕ) where
  strokes : ℕ → List (Stroke w)
  changed : Set ℕ

namespace Memory

variable {content : ℕ → BitVec w} {m : Memory w} {hits : ℕ → Option (Stroke w)} {pos : ℕ}

def fresh : Memory w := ⟨fun _ => [], ∅⟩

def read (content : ℕ → BitVec w) (m : Memory w) (pos : ℕ) : BitVec w :=
  value (content pos) (m.strokes pos)

/-- Every cell may be hit once. -/
def strike (content : ℕ → BitVec w) (m : Memory w) (hits : ℕ → Option (Stroke w)) : Memory w :=
  let strokes := fun pos => (hits pos).toList ++ m.strokes pos
  { strokes := strokes
    changed := m.changed ∪ {pos | value (content pos) (strokes pos) ≠ m.read content pos} }

def forget (m : Memory w) : Memory w := { m with changed := ∅ }

@[simp] theorem read_fresh : fresh.read content pos = content pos := value_nil

theorem read_strike_none (h : hits pos = none) :
    (m.strike content hits).read content pos = m.read content pos := by
  simp [read, strike, h]

theorem read_strike_erase (h : hits pos = some .erase) :
    (m.strike content hits).read content pos = BitVec.allOnes w := by
  simp [read, strike, h]

theorem read_strike_program (h : hits pos = some (.program b)) :
    (m.strike content hits).read content pos = m.read content pos &&& b := by
  simp [read, strike, h]

theorem mem_changed_strike (h : pos ∈ (m.strike content hits).changed) :
    pos ∈ m.changed ∨ hits pos ≠ none := by
  rcases h with hold | hnew
  · grind
  · right
    intro hnone
    exact hnew (read_strike_none hnone)

end Memory

end Cloudpilot.Library.FlashMemory
