import Mathlib.Data.List.AList
import Mathlib.Tactic

/-! # File trees

Directories and files at the nodes of a tree. A node is named by the keys on the way to it;
it carries a label and, if it is a file, contents. Nothing stands below a file or below a
missing directory.
-/
namespace Cloudpilot.Library

inductive Node (L V : Type) where
  | dir (label : L)
  | file (label : L) (contents : V)

namespace Node

variable {L V : Type}

def isDir : Node L V → Bool
  | dir _ => true
  | file _ _ => false

end Node

structure FileTree (K : Type) (Label : List K → Type) (V : Type) [DecidableEq K] where
  nodes : AList fun l : List K => Node (Label l) V
  rooted : ∀ l k, l ++ [k] ∈ nodes → l = [] ∨ ∃ label, nodes.lookup l = some (.dir label)
  unnamed : [] ∉ nodes

namespace FileTree

variable {K : Type} {Label : List K → Type} {V : Type} [DecidableEq K]
variable {t : FileTree K Label V} {l m : List K} {k : K}

def get (t : FileTree K Label V) (l : List K) : Option (Node (Label l) V) := t.nodes.lookup l

def isDir (t : FileTree K Label V) (l : List K) : Bool := (t.get l).any Node.isDir

def empty : FileTree K Label V :=
  ⟨∅, fun _ _ h => absurd h (AList.notMem_empty _), AList.notMem_empty _⟩

/-- The keys one level below a node. -/
def children (t : FileTree K Label V) (l : List K) : List K :=
  t.nodes.keys.filterMap fun p => if p ≠ [] ∧ p.dropLast = l then p.getLast? else none

theorem isDir_iff : t.isDir l = true ↔ ∃ label, t.get l = some (.dir label) := by
  rw [isDir]
  cases h : t.get l with
  | none => simp
  | some n => cases n <;> simp [Node.isDir]

theorem get_of_isDir (h : t.isDir l = true) : t.get l ≠ none := by
  obtain ⟨label, hget⟩ := isDir_iff.mp h
  rw [hget]
  exact Option.some_ne_none _

theorem get_nil : t.get [] = none := AList.lookup_eq_none.mpr t.unnamed

theorem mem_nodes_iff : l ∈ t.nodes ↔ t.get l ≠ none := by
  rw [get, ne_eq, AList.lookup_eq_none, not_not]

theorem parent_isDir (h : t.get (l ++ [k]) ≠ none) : l = [] ∨ t.isDir l = true := by
  rcases t.rooted l k (mem_nodes_iff.mpr h) with hroot | hdir
  · grind
  · exact .inr (isDir_iff.mpr hdir)

theorem mem_children : k ∈ t.children l ↔ t.get (l ++ [k]) ≠ none := by
  rw [children, List.mem_filterMap, ← mem_nodes_iff, AList.mem_keys]
  constructor
  · rintro ⟨p, hp, hk⟩
    by_cases hlast : p ≠ [] ∧ p.dropLast = l
    · rw [if_pos hlast] at hk
      rwa [← hlast.2, List.dropLast_append_getLast? k hk]
    · grind
  · grind

theorem children_nodup (t : FileTree K Label V) (l : List K) : (t.children l).Nodup := by
  refine List.Nodup.filterMap ?_ t.nodes.keys_nodup
  intro p q k hp hq
  have hsplit : ∀ p : List K, k ∈ (if p ≠ [] ∧ p.dropLast = l then p.getLast? else none) →
      p = l ++ [k] := by
    intro p hp
    by_cases hlast : p ≠ [] ∧ p.dropLast = l
    · rw [if_pos hlast] at hp
      rw [← hlast.2, List.dropLast_append_getLast? k hp]
    · grind
  exact (hsplit p hp).trans (hsplit q hq).symm

theorem isDir_above {above below : List K} (hbelow : below ≠ []) (habove : above ≠ [])
    (h : t.get (above ++ below) ≠ none) : t.isDir above = true := by
  induction below using List.reverseRecOn with
  | nil => exact absurd rfl hbelow
  | append_singleton below k ih =>
    rw [← List.append_assoc] at h
    rcases parent_isDir h with hroot | hdir
    · exact absurd (List.append_eq_nil_iff.mp hroot).1 habove
    · by_cases hnil : below = []
      · grind
      · exact ih hnil (get_of_isDir hdir)

/-- A new node without anything below it. -/
def add (t : FileTree K Label V) (l : List K) (k : K) (n : Node (Label (l ++ [k])) V) :
    FileTree K Label V :=
  if h : (l = [] ∨ t.isDir l = true) ∧ t.get (l ++ [k]) = none then
    { nodes := t.nodes.insert (l ++ [k]) n
      rooted := by
        intro m j hmem
        rcases (AList.mem_insert _).mp hmem with heq | hold
        · obtain ⟨rfl, -⟩ := List.append_inj' heq rfl
          rcases h.1 with hroot | hdir
          · exact .inl hroot
          · have hne : m ≠ m ++ [k] := by simp
            rw [AList.lookup_insert_ne hne]
            exact .inr (isDir_iff.mp hdir)
        · rcases t.rooted m j hold with hroot | ⟨label, hget⟩
          · exact .inl hroot
          · have hne : m ≠ l ++ [k] := by
              rintro rfl
              rw [get, hget] at h
              exact absurd h.2 (by simp)
            rw [AList.lookup_insert_ne hne]
            exact .inr ⟨label, hget⟩
      unnamed := by
        intro hmem
        rcases (AList.mem_insert _).mp hmem with heq | hold
        · exact absurd heq (by simp)
        · exact t.unnamed hold }
  else t

/-- New contents of a file that is there. -/
def rewrite (t : FileTree K Label V) (l : List K) (v : V) : FileTree K Label V :=
  match h : t.get l with
  | some (.file label _) =>
    { nodes := t.nodes.insert l (.file label v)
      rooted := by
        intro m j hmem
        have hold : m ++ [j] ∈ t.nodes := by
          rcases (AList.mem_insert _).mp hmem with heq | hold
          · rw [heq, mem_nodes_iff, h]
            exact Option.some_ne_none _
          · exact hold
        rcases t.rooted m j hold with hroot | ⟨dirLabel, hget⟩
        · exact .inl hroot
        · have hne : m ≠ l := by
            rintro rfl
            rw [get, hget] at h
            exact absurd h (by simp)
          rw [AList.lookup_insert_ne hne]
          exact .inr ⟨dirLabel, hget⟩
      unnamed := by
        intro hmem
        rcases (AList.mem_insert _).mp hmem with heq | hold
        · subst heq
          rw [get_nil] at h
          exact absurd h (by simp)
        · exact t.unnamed hold }
  | _ => t

/-- Take away a node that has nothing below it. -/
def remove (t : FileTree K Label V) (l : List K) : FileTree K Label V :=
  if h : t.children l = [] then
    { nodes := t.nodes.erase l
      rooted := by
        intro m j hmem
        obtain ⟨hne, hold⟩ := AList.mem_erase.mp hmem
        rcases t.rooted m j hold with hroot | ⟨label, hget⟩
        · exact .inl hroot
        · have hml : m ≠ l := by
            rintro rfl
            have hchild := mem_children.mpr (mem_nodes_iff.mp hold)
            rw [h] at hchild
            exact absurd hchild (by simp)
          rw [AList.lookup_erase_ne hml]
          exact .inr ⟨label, hget⟩
      unnamed := fun hmem => t.unnamed (AList.mem_erase.mp hmem).2 }
  else t

theorem get_add_self {n : Node (Label (l ++ [k])) V} (hparent : l = [] ∨ t.isDir l = true)
    (hnone : t.get (l ++ [k]) = none) : (t.add l k n).get (l ++ [k]) = some n := by
  rw [add, dif_pos ⟨hparent, hnone⟩]
  exact AList.lookup_insert _

theorem get_add_ne {n : Node (Label (l ++ [k])) V} (h : m ≠ l ++ [k]) :
    (t.add l k n).get m = t.get m := by
  rw [add]
  split
  · exact AList.lookup_insert_ne h
  · rfl

theorem get_rewrite_ne {w : V} (h : m ≠ l) : (t.rewrite l w).get m = t.get m := by
  rw [rewrite]
  split
  · exact AList.lookup_insert_ne h
  · rfl

theorem get_remove_self (h : t.children l = []) : (t.remove l).get l = none := by
  rw [remove, dif_pos h]
  exact AList.lookup_erase _ _

theorem get_remove_ne (h : m ≠ l) : (t.remove l).get m = t.get m := by
  rw [remove]
  split
  · exact AList.lookup_erase_ne h
  · rfl

end FileTree

end Cloudpilot.Library
