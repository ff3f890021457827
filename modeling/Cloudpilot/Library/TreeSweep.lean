import Cloudpilot.Library.FileTree

/-! # Sweeping a file tree

Whole subtrees of a file tree are taken away node by node. The places to take away are looked at
first, then the directories are listed in the order in which they were met. A file goes as soon
as it is met, and the directories go at the end, the one met last first.
-/
namespace Cloudpilot.Library

open List

variable {K : Type} {Label : List K → Type} {V : Type} [DecidableEq K]

omit [DecidableEq K] in
/-- No place is at or below another one. -/
def Separate (roots : List (List K)) : Prop := roots.Pairwise fun a b => ¬ a <+: b ∧ ¬ b <+: a

omit [DecidableEq K] in
theorem Separate.eq_of_prefix {roots : List (List K)} (h : Separate roots) {a b : List K}
    (ha : a ∈ roots) (hb : b ∈ roots) (hab : a <+: b) : a = b := by
  have hsymm : Std.Symm fun a b : List K => ¬ a <+: b ∧ ¬ b <+: a := ⟨fun _ _ h => h.symm⟩
  by_contra hne
  exact (List.Pairwise.forall h ha hb hne).1 hab

omit [DecidableEq K] in
theorem Separate.nodup {roots : List (List K)} (h : Separate roots) : roots.Nodup := by
  refine List.Pairwise.imp ?_ h
  rintro a b ⟨hab, -⟩ rfl
  exact hab (prefix_refl a)

omit [DecidableEq K] in
theorem prefix_concat_cases {a b : List K} {k : K} (h : a <+: b ++ [k]) : a = b ++ [k] ∨ a <+: b :=
  List.prefix_concat_iff.mp h

structure Sweep (K : Type) where
  pending : List (List K)
  scanned : List (List K)
  scanning : Option (List K × List K)
  waiting : List (List K)
  cleanup : Bool
  removed : List (List K)

namespace Sweep

omit [DecidableEq K] in
def start (roots : List (List K)) : Sweep K := ⟨roots, [], none, [], false, []⟩

omit [DecidableEq K] in
/-- The directories that were met and are still there, in the order in which they were met. -/
def directories (s : Sweep K) : List (List K) :=
  s.scanned ++ s.scanning.toList.map Prod.fst ++ s.waiting

omit [DecidableEq K] in
def Seen (s : Sweep K) (l : List K) : Prop := l ∈ s.directories ∨ l ∈ s.removed

/-- The steps that take nothing away. -/
inductive Looks (t : FileTree K Label V) (s : Sweep K) : Sweep K → Prop
  | meet {ls : List (List K)} {l : List K} (hpending : s.pending = ls ++ [l])
      (hdir : t.isDir l = true) :
      Looks t s { s with pending := ls, waiting := s.waiting ++ [l] }
  | list {ls : List (List K)} {l ks : List K} (hscanning : s.scanning = none)
      (hwaiting : s.waiting = l :: ls) (hnodup : ks.Nodup)
      (hmem : ∀ k, k ∈ ks ↔ t.get (l ++ [k]) ≠ none ∧ l ++ [k] ∉ s.removed) :
      Looks t s { s with scanning := some (l, ks), waiting := ls }
  | enter {d ks : List K} {k : K} (hscanning : s.scanning = some (d, k :: ks))
      (hdir : t.isDir (d ++ [k]) = true) :
      Looks t s { s with scanning := some (d, ks), waiting := s.waiting ++ [d ++ [k]] }
  | close {d : List K} (hscanning : s.scanning = some (d, [])) :
      Looks t s { s with scanning := none, scanned := s.scanned ++ [d] }
  | turn (hpending : s.pending = []) (hscanning : s.scanning = none) (hwaiting : s.waiting = [])
      (hcleanup : s.cleanup = false) :
      Looks t s { s with cleanup := true }

/-- The steps that take a place away. -/
inductive Drops (t : FileTree K Label V) (s : Sweep K) : List K → Sweep K → Prop
  | file {ls : List (List K)} {l : List K} (hpending : s.pending = ls ++ [l])
      (hget : t.get l ≠ none) (hfile : t.isDir l = false) :
      Drops t s l { s with pending := ls, removed := l :: s.removed }
  | entry {d ks : List K} {k : K} (hscanning : s.scanning = some (d, k :: ks))
      (hfile : t.isDir (d ++ [k]) = false) :
      Drops t s (d ++ [k]) { s with scanning := some (d, ks), removed := (d ++ [k]) :: s.removed }
  | directory {ds : List (List K)} {l : List K} (hcleanup : s.cleanup = true)
      (hscanned : s.scanned = ds ++ [l]) :
      Drops t s l { s with scanned := ds, removed := l :: s.removed }

/-- A set of places that grows downwards from the roots. -/
structure Grown (t : FileTree K Label V) (roots : List (List K))
    (seen : List K → Prop) : Prop where
  there : ∀ m, seen m → t.get m ≠ none
  below : ∀ m, seen m → ∃ r ∈ roots, r <+: m
  upward : ∀ m, seen m → ∀ r ∈ roots, ∀ c, r <+: c → c <+: m → seen c

structure Sound (t : FileTree K Label V) (roots : List (List K)) (s : Sweep K) : Prop where
  grown : Grown t roots s.Seen
  covered : ∀ r ∈ roots, r ∈ s.pending ∨ s.Seen r
  pending : ∀ l ∈ s.pending, l ∈ roots ∧ ∀ m, s.Seen m → ¬ l <+: m
  pending_nodup : s.pending.Nodup
  isDir : ∀ d ∈ s.directories, t.isDir d = true
  ordered : s.directories.Pairwise fun earlier later => ¬ later <+: earlier
  scanned : ∀ d ∈ s.scanned, ∀ k, t.get (d ++ [k]) ≠ none → s.Seen (d ++ [k])
  scanning : ∀ d ks, s.scanning = some (d, ks) →
    ks.Nodup ∧ ∀ k, k ∈ ks ↔ t.get (d ++ [k]) ≠ none ∧ ¬ s.Seen (d ++ [k])
  waiting : ∀ d ∈ s.waiting, ∀ k, ¬ s.Seen (d ++ [k])
  apart : ∀ e ∈ s.removed, e ∉ s.directories
  removed : s.removed.Pairwise fun later earlier => ¬ earlier <+: later
  downward : ∀ e ∈ s.removed, ∀ m, e <+: m → t.get m ≠ none → m ∈ s.removed
  cleanup : s.cleanup = true → s.pending = [] ∧ s.scanning = none ∧ s.waiting = [] ∧
    ∀ r ∈ roots, ∀ m, r <+: m → t.get m ≠ none → s.Seen m

variable {t : FileTree K Label V} {roots : List (List K)} {s s' : Sweep K} {l : List K}

theorem sound_start (h : Separate roots) : Sound t roots (start roots) := by
  have hseen : ∀ m, ¬ (start roots).Seen m := by
    simp [Seen, directories, start]
  refine ⟨⟨fun m hm => absurd hm (hseen m), fun m hm => absurd hm (hseen m),
    fun m hm => absurd hm (hseen m)⟩, fun r hr => .inl hr, ?_, h.nodup, nofun, List.Pairwise.nil,
    nofun, nofun, nofun, nofun, List.Pairwise.nil, nofun, nofun⟩
  exact fun l hl => ⟨hl, fun m hm => absurd hm (hseen m)⟩

/-- A place that is met next: everything between it and its root was met before. -/
structure Fresh (t : FileTree K Label V) (roots : List (List K)) (s : Sweep K) (l : List K) : Prop where
  there : t.get l ≠ none
  below : ∃ r ∈ roots, r <+: l
  unseen : ¬ s.Seen l
  above : ∀ r ∈ roots, ∀ c, r <+: c → c <+: l → c ≠ l → s.Seen c

theorem Sound.fresh_pending (h : Sound t roots s) (hroots : Separate roots) (hl : l ∈ s.pending)
    (hget : t.get l ≠ none) : Fresh t roots s l := by
  obtain ⟨hroot, hpending⟩ := h.pending l hl
  refine ⟨hget, ⟨l, hroot, prefix_refl l⟩, fun hseen => hpending l hseen (prefix_refl l), ?_⟩
  intro r hr c hrc hcl hne
  obtain rfl := hroots.eq_of_prefix hr hroot (hrc.trans hcl)
  exact absurd (hcl.eq_of_length_le hrc.length_le) hne

omit [DecidableEq K] in
theorem seen_scanning {ks : List K} (h : s.scanning = some (l, ks)) : s.Seen l := by
  left
  rw [directories, h]
  simp

theorem Sound.fresh_entry (h : Sound t roots s) {d ks : List K} {k : K}
    (hscanning : s.scanning = some (d, k :: ks)) : Fresh t roots s (d ++ [k]) := by
  obtain ⟨hget, hunseen⟩ := ((h.scanning d _ hscanning).2 k).mp mem_cons_self
  have hd := seen_scanning hscanning
  obtain ⟨r, hr, hrd⟩ := h.grown.below d hd
  refine ⟨hget, ⟨r, hr, hrd.trans (prefix_append _ _)⟩, hunseen, ?_⟩
  intro r' hr' c hrc hcl hne
  exact h.grown.upward d hd r' hr' c hrc ((prefix_concat_cases hcl).resolve_left hne)

/-- What is seen after a place was met. -/
def Extends (s : Sweep K) (l : List K) (s' : Sweep K) : Prop := ∀ m, s'.Seen m ↔ s.Seen m ∨ m = l

theorem Fresh.grown (h : Fresh t roots s l) (hs : Sound t roots s) (hext : Extends s l s') :
    Grown t roots s'.Seen := by
  constructor
  · intro m hm
    rcases (hext m).mp hm with hm | rfl
    · exact hs.grown.there m hm
    · exact h.there
  · intro m hm
    rcases (hext m).mp hm with hm | rfl
    · exact hs.grown.below m hm
    · exact h.below
  · intro m hm r hr c hrc hcm
    rw [hext c]
    rcases (hext m).mp hm with hm | rfl
    · exact .inl (hs.grown.upward m hm r hr c hrc hcm)
    · by_cases hc : c = m
      · exact .inr hc
      · exact .inl (h.above r hr c hrc hcm hc)

theorem Fresh.not_prefix (h : Fresh t roots s l) (hs : Sound t roots s) {m : List K}
    (hm : s.Seen m) : ¬ l <+: m := by
  intro hlm
  obtain ⟨r, hr, hrl⟩ := h.below
  exact h.unseen (hs.grown.upward m hm r hr l hrl hlm)

theorem Sound.root_ne_entry (hs : Sound t roots s) (hroots : Separate roots) (hl : l ∈ roots)
    {d : List K} (hd : s.Seen d) (k : K) : d ++ [k] ≠ l := by
  rintro rfl
  obtain ⟨r, hr, hrd⟩ := hs.grown.below d hd
  have heq := hroots.eq_of_prefix hr hl (hrd.trans (prefix_append _ _))
  have hlength := hrd.length_le
  rw [heq, length_append, length_singleton] at hlength
  omega

omit [DecidableEq K] in
theorem seen_waiting {d : List K} (hd : d ∈ s.waiting) : s.Seen d :=
  .inl (List.mem_append_right _ hd)

omit [DecidableEq K] in
theorem extends_push (h : s'.directories = s.directories ++ [l]) (hremoved : s'.removed = s.removed) :
    Extends s l s' := by
  intro m
  rw [Seen, Seen, h, hremoved, mem_append, mem_singleton, or_right_comm]

omit [DecidableEq K] in
theorem extends_remove (h : s'.directories = s.directories) (hremoved : s'.removed = l :: s.removed) :
    Extends s l s' := by
  intro m
  rw [Seen, Seen, h, hremoved, mem_cons, or_comm (a := m = l), or_assoc]

theorem Sound.pending_extend (hs : Sound t roots s) (hext : Extends s l s')
    {p : List K} (hp : p ∈ s.pending) (hpl : ¬ p <+: l) :
    p ∈ roots ∧ ∀ m, s'.Seen m → ¬ p <+: m := by
  obtain ⟨hroot, hnot⟩ := hs.pending p hp
  refine ⟨hroot, ?_⟩
  intro m hm
  rcases (hext m).mp hm with hm | rfl
  · grind
  · exact hpl

theorem Fresh.ordered (h : Fresh t roots s l) (hs : Sound t roots s) :
    (s.directories ++ [l]).Pairwise fun earlier later => ¬ later <+: earlier := by
  rw [pairwise_append]
  refine ⟨hs.ordered, pairwise_singleton _ l, ?_⟩
  intro d hd m hm
  rw [mem_singleton.mp hm]
  exact h.not_prefix hs (.inl hd)

theorem Fresh.notMem_removed (h : Fresh t roots s l) : l ∉ s.removed := fun hmem => h.unseen (.inr hmem)

theorem Fresh.entry_unseen (h : Fresh t roots s l) (hs : Sound t roots s) (hext : Extends s l s')
    (k : K) : ¬ s'.Seen (l ++ [k]) := by
  intro hseen
  rcases (hext _).mp hseen with hseen | heq
  · exact h.not_prefix hs hseen (prefix_append l [k])
  · simp at heq

theorem Sound.removed_cons (hs : Sound t roots s) (hget : t.get l ≠ none) (hl : l ∉ s.removed) :
    (l :: s.removed).Pairwise fun later earlier => ¬ earlier <+: later := by
  rw [pairwise_cons]
  refine ⟨?_, hs.removed⟩
  exact fun e he hel => hl (hs.downward e he l hel hget)

theorem eq_of_file (hfile : t.isDir l = false) (hget : t.get l ≠ none) {m : List K} (hlm : l <+: m)
    (hm : t.get m ≠ none) : m = l := by
  obtain ⟨below, rfl⟩ := hlm
  by_cases hbelow : below = []
  · grind
  · have hne : l ≠ [] := by
      rintro rfl
      exact hget FileTree.get_nil
    rw [FileTree.isDir_above hbelow hne hm] at hfile
    cases hfile

omit [DecidableEq K] in
theorem directories_meet (s : Sweep K) (ls : List (List K)) (l : List K) :
    ({ s with pending := ls, waiting := s.waiting ++ [l] } : Sweep K).directories =
      s.directories ++ [l] := (List.append_assoc _ _ _).symm

omit [DecidableEq K] in
theorem directories_list {ls : List (List K)} (hscanning : s.scanning = none)
    (hwaiting : s.waiting = l :: ls) (ks : List K) :
    ({ s with scanning := some (l, ks), waiting := ls } : Sweep K).directories = s.directories := by
  simp [directories, hscanning, hwaiting]

omit [DecidableEq K] in
theorem directories_enter {d ks : List K} {k : K} (h : s.scanning = some (d, k :: ks)) (l : List K) :
    ({ s with scanning := some (d, ks), waiting := s.waiting ++ [l] } : Sweep K).directories =
      s.directories ++ [l] := by simp [directories, h]

omit [DecidableEq K] in
theorem directories_entry {d ks : List K} {k : K} (h : s.scanning = some (d, k :: ks)) (l : List K) :
    ({ s with scanning := some (d, ks), removed := l :: s.removed } : Sweep K).directories =
      s.directories := by
  rw [directories, directories, h]
  rfl

omit [DecidableEq K] in
theorem directories_close {d : List K} (h : s.scanning = some (d, [])) :
    ({ s with scanning := none, scanned := s.scanned ++ [d] } : Sweep K).directories =
      s.directories := by simp [directories, h]

omit [DecidableEq K] in
theorem nodup_init {α : Type} {ls : List α} {l : α} (h : (ls ++ [l]).Nodup) : ls.Nodup ∧ l ∉ ls :=
  ⟨h.of_append_left, fun hl => (List.nodup_append'.mp h).2.2 hl List.mem_cons_self⟩

section

variable (hs : Sound t roots s)

include hs

theorem Sound.pending_pop (hroots : Separate roots) {ls : List (List K)}
    (hpending : s.pending = ls ++ [l]) (hext : Extends s l s') :
    ∀ p ∈ ls, p ∈ roots ∧ ∀ m, s'.Seen m → ¬ p <+: m := by
  have hnodup := hs.pending_nodup
  rw [hpending] at hnodup
  have hl : l ∈ s.pending := hpending ▸ mem_append_right _ mem_cons_self
  intro p hp
  have hp' : p ∈ s.pending := hpending ▸ mem_append_left _ hp
  refine hs.pending_extend hext hp' ?_
  intro hpl
  have heq := hroots.eq_of_prefix (hs.pending p hp').1 (hs.pending l hl).1 hpl
  exact (nodup_init hnodup).2 (heq ▸ hp)

theorem Sound.covered_pop {ls : List (List K)} (hpending : s.pending = ls ++ [l])
    (hext : Extends s l s') : ∀ r ∈ roots, r ∈ ls ∨ s'.Seen r := by
  intro r hr
  rw [hext r]
  rcases hs.covered r hr with hr | hr <;> grind

theorem Sound.scanning_extend (hext : Extends s l s') (hscanning : s'.scanning = s.scanning)
    (hne : ∀ d, s.Seen d → ∀ k, d ++ [k] ≠ l) : ∀ d ks, s'.scanning = some (d, ks) →
      ks.Nodup ∧ ∀ k, k ∈ ks ↔ t.get (d ++ [k]) ≠ none ∧ ¬ s'.Seen (d ++ [k]) := by
  intro d ks h
  rw [hscanning] at h
  obtain ⟨hnodup, hmem⟩ := hs.scanning d ks h
  refine ⟨hnodup, ?_⟩
  intro k
  rw [hmem k, hext, not_or, and_iff_left (hne d (seen_scanning h) k)]

theorem Sound.scanning_pop {d ks : List K} {k : K} (h : s.scanning = some (d, k :: ks))
    (hext : Extends s (d ++ [k]) s') (h' : s'.scanning = some (d, ks)) :
    ∀ d' ks', s'.scanning = some (d', ks') →
      ks'.Nodup ∧ ∀ k', k' ∈ ks' ↔ t.get (d' ++ [k']) ≠ none ∧ ¬ s'.Seen (d' ++ [k']) := by
  intro d' ks' heq
  rw [h'] at heq
  cases heq
  obtain ⟨hnodup, hmem⟩ := hs.scanning d _ h
  obtain ⟨hk, hnodup'⟩ := nodup_cons.mp hnodup
  refine ⟨hnodup', ?_⟩
  intro k'
  rw [hext, not_or, ← and_assoc, ← hmem k', mem_cons, append_cancel_left_eq,
    singleton_inj]
  constructor <;> grind

theorem Sound.waiting_ne_entry {d ks : List K} {k : K} (h : s.scanning = some (d, ks)) {d' : List K}
    (hd' : d' ∈ s.waiting) (k' : K) : d' ++ [k'] ≠ d ++ [k] := by
  intro heq
  obtain ⟨rfl, -⟩ := append_inj' heq rfl
  have hordered := hs.ordered
  rw [directories, h, pairwise_append] at hordered
  exact hordered.2.2 d' (mem_append_right _ (by simp)) d' hd' (prefix_refl d')

theorem Sound.scanned_extend (hext : Extends s l s') :
    ∀ d ∈ s.scanned, ∀ k, t.get (d ++ [k]) ≠ none → s'.Seen (d ++ [k]) :=
  fun d hd k hk => (hext _).mpr (.inl (hs.scanned d hd k hk))

theorem Sound.waiting_extend (hext : Extends s l s') (hne : ∀ d ∈ s.waiting, ∀ k, d ++ [k] ≠ l) :
    ∀ d ∈ s.waiting, ∀ k, ¬ s'.Seen (d ++ [k]) := by
  intro d hd k hseen
  rcases (hext _).mp hseen with hseen | heq
  · exact hs.waiting d hd k hseen
  · grind

theorem Sound.cleanup_of_pending (hl : l ∈ s.pending) : ¬ s.cleanup = true := by
  intro hcleanup
  rw [(hs.cleanup hcleanup).1] at hl
  cases hl

theorem Sound.cleanup_of_scanning {ks : List K} (h : s.scanning = some (l, ks)) :
    ¬ s.cleanup = true := by
  intro hcleanup
  rw [(hs.cleanup hcleanup).2.1] at h
  cases h

theorem Sound.push (hfresh : Fresh t roots s l) (hdir : t.isDir l = true)
    (hdirectories : s'.directories = s.directories ++ [l])
    (hwaiting : s'.waiting = s.waiting ++ [l]) (hscanned : s'.scanned = s.scanned)
    (hremoved : s'.removed = s.removed) (hcleanup : ¬ s'.cleanup = true)
    (hne : ∀ d ∈ s.waiting, ∀ k, d ++ [k] ≠ l) (hcovered : ∀ r ∈ roots, r ∈ s'.pending ∨ s'.Seen r)
    (hpending : ∀ p ∈ s'.pending, p ∈ roots ∧ ∀ m, s'.Seen m → ¬ p <+: m)
    (hnodup : s'.pending.Nodup) (hscanning : ∀ d ks, s'.scanning = some (d, ks) →
      ks.Nodup ∧ ∀ k, k ∈ ks ↔ t.get (d ++ [k]) ≠ none ∧ ¬ s'.Seen (d ++ [k])) :
    Sound t roots s' := by
  have hext := extends_push hdirectories hremoved
  refine
    { grown := hfresh.grown hs hext
      covered := hcovered
      pending := hpending
      pending_nodup := hnodup
      isDir := ?_
      ordered := hdirectories ▸ hfresh.ordered hs
      scanned := hscanned ▸ hs.scanned_extend hext
      scanning := hscanning
      waiting := ?_
      apart := ?_
      removed := hremoved ▸ hs.removed
      downward := hremoved ▸ hs.downward
      cleanup := fun h => absurd h hcleanup }
  · intro d hd
    rw [hdirectories, mem_append, mem_singleton] at hd
    rcases hd with hd | rfl
    · exact hs.isDir d hd
    · exact hdir
  · intro d hd
    rw [hwaiting, mem_append, mem_singleton] at hd
    rcases hd with hd | rfl
    · exact hs.waiting_extend hext hne d hd
    · exact hfresh.entry_unseen hs hext
  · intro e he
    rw [hremoved] at he
    rw [hdirectories, mem_append, mem_singleton, not_or]
    exact ⟨hs.apart e he, fun heq => hfresh.notMem_removed (heq ▸ he)⟩

theorem Sound.take (hfresh : Fresh t roots s l) (hfile : t.isDir l = false)
    (hdirectories : s'.directories = s.directories) (hwaiting : s'.waiting = s.waiting)
    (hscanned : s'.scanned = s.scanned) (hremoved : s'.removed = l :: s.removed)
    (hcleanup : ¬ s'.cleanup = true) (hne : ∀ d ∈ s.waiting, ∀ k, d ++ [k] ≠ l)
    (hcovered : ∀ r ∈ roots, r ∈ s'.pending ∨ s'.Seen r)
    (hpending : ∀ p ∈ s'.pending, p ∈ roots ∧ ∀ m, s'.Seen m → ¬ p <+: m)
    (hnodup : s'.pending.Nodup) (hscanning : ∀ d ks, s'.scanning = some (d, ks) →
      ks.Nodup ∧ ∀ k, k ∈ ks ↔ t.get (d ++ [k]) ≠ none ∧ ¬ s'.Seen (d ++ [k])) :
    Sound t roots s' := by
  have hext := extends_remove hdirectories hremoved
  refine
    { grown := hfresh.grown hs hext
      covered := hcovered
      pending := hpending
      pending_nodup := hnodup
      isDir := hdirectories ▸ hs.isDir
      ordered := hdirectories ▸ hs.ordered
      scanned := hscanned ▸ hs.scanned_extend hext
      scanning := hscanning
      waiting := hwaiting ▸ hs.waiting_extend hext hne
      apart := ?_
      removed := hremoved ▸ hs.removed_cons hfresh.there hfresh.notMem_removed
      downward := ?_
      cleanup := fun h => absurd h hcleanup }
  · intro e he
    rw [hremoved, mem_cons] at he
    rw [hdirectories]
    rcases he with rfl | he
    · exact fun hmem => hfresh.unseen (.inl hmem)
    · exact hs.apart e he
  · intro e he m hem hm
    rw [hremoved, mem_cons] at he ⊢
    rcases he with rfl | he
    · exact .inl (eq_of_file hfile hfresh.there hem hm)
    · exact .inr (hs.downward e he m hem hm)

theorem Sound.pending_not_above (hroots : Separate roots) {p d : List K} (hp : p ∈ s.pending)
    (hd : s.Seen d) (k : K) : ¬ p <+: d ++ [k] := by
  intro habove
  rcases prefix_concat_cases habove with heq | habove
  · exact hs.root_ne_entry hroots (hs.pending p hp).1 hd k heq.symm
  · exact (hs.pending p hp).2 d hd habove

end

omit [DecidableEq K] in
theorem seen_congr (hdirectories : s'.directories = s.directories) (hremoved : s'.removed = s.removed) :
    s'.Seen = s.Seen := by
  funext m
  rw [Seen, Seen, hdirectories, hremoved]

section

variable (hs : Sound t roots s)

include hs

theorem Sound.rearrange (hdirectories : s'.directories = s.directories)
    (hremoved : s'.removed = s.removed) (hpending : s'.pending = s.pending)
    (hcleanup : ¬ s'.cleanup = true)
    (hscanned : ∀ d ∈ s'.scanned, ∀ k, t.get (d ++ [k]) ≠ none → s.Seen (d ++ [k]))
    (hscanning : ∀ d ks, s'.scanning = some (d, ks) →
      ks.Nodup ∧ ∀ k, k ∈ ks ↔ t.get (d ++ [k]) ≠ none ∧ ¬ s.Seen (d ++ [k]))
    (hwaiting : ∀ d ∈ s'.waiting, ∀ k, ¬ s.Seen (d ++ [k])) : Sound t roots s' := by
  have hseen := seen_congr hdirectories hremoved
  refine
    { grown := hseen ▸ hs.grown
      covered := hseen ▸ hpending ▸ hs.covered
      pending := hseen ▸ hpending ▸ hs.pending
      pending_nodup := hpending ▸ hs.pending_nodup
      isDir := hdirectories ▸ hs.isDir
      ordered := hdirectories ▸ hs.ordered
      scanned := hseen ▸ hscanned
      scanning := hseen ▸ hscanning
      waiting := hseen ▸ hwaiting
      apart := hdirectories ▸ hremoved ▸ hs.apart
      removed := hremoved ▸ hs.removed
      downward := hremoved ▸ hs.downward
      cleanup := fun h => absurd h hcleanup }

theorem Sound.complete (hpending : s.pending = []) (hscanning : s.scanning = none)
    (hwaiting : s.waiting = []) {r m : List K} (hr : r ∈ roots) (hrm : r <+: m)
    (hm : t.get m ≠ none) : s.Seen m := by
  have hroot : s.Seen r := by
    have hcovered := hs.covered r hr
    rw [hpending] at hcovered
    exact hcovered.resolve_left not_mem_nil
  obtain ⟨below, rfl⟩ := hrm
  induction below using reverseRecOn with
  | nil => rwa [append_nil]
  | append_singleton below k ih =>
    rw [← append_assoc] at hm ⊢
    have hparent : t.get (r ++ below) ≠ none := by
      rcases FileTree.parent_isDir hm with hnil | hdir
      · rw [(append_eq_nil_iff.mp hnil).1] at hroot
        exact absurd FileTree.get_nil (hs.grown.there [] hroot)
      · exact FileTree.get_of_isDir hdir
    rcases ih hparent with hmem | hmem
    · refine hs.scanned _ ?_ k hm
      rw [directories, hscanning, hwaiting] at hmem
      simpa using hmem
    · exact .inr (hs.downward _ hmem _ (prefix_append _ _) hm)

theorem Sound.looks (hroots : Separate roots) (h : Looks t s s') : Sound t roots s' := by
  cases h with
  | @meet ls l hpending hdir =>
    have hl : l ∈ s.pending := hpending ▸ mem_append_right _ mem_cons_self
    have hfresh := hs.fresh_pending hroots hl (FileTree.get_of_isDir hdir)
    have hdirectories := directories_meet s ls l
    have hext := extends_push hdirectories rfl
    have hne : ∀ d, s.Seen d → ∀ k, d ++ [k] ≠ l :=
      fun d hd => hs.root_ne_entry hroots (hs.pending l hl).1 hd
    have hnodup := hs.pending_nodup
    rw [hpending] at hnodup
    exact hs.push hfresh hdir hdirectories rfl rfl rfl (hs.cleanup_of_pending hl)
      (fun d hd => hne d (seen_waiting hd)) (hs.covered_pop hpending hext)
      (hs.pending_pop hroots hpending hext) (nodup_init hnodup).1 (hs.scanning_extend hext rfl hne)
  | @enter d ks k hscanning hdir =>
    have hfresh := hs.fresh_entry hscanning
    have hdirectories := directories_enter hscanning (d ++ [k])
    have hext := extends_push hdirectories rfl
    exact hs.push hfresh hdir hdirectories rfl rfl rfl (hs.cleanup_of_scanning hscanning)
      (fun d' hd' => hs.waiting_ne_entry hscanning hd')
      (fun r hr => (hs.covered r hr).imp_right fun h => (hext r).mpr (.inl h))
      (fun p hp => hs.pending_extend hext hp (hs.pending_not_above hroots hp (seen_scanning hscanning) k))
      hs.pending_nodup (hs.scanning_pop hscanning hext rfl)
  | @list ls l ks hscanning hwaiting hnodup hmem =>
    have hl : l ∈ s.waiting := hwaiting ▸ mem_cons_self
    have hcleanup : ¬ s.cleanup = true := by
      intro hcleanup
      rw [(hs.cleanup hcleanup).2.2.1] at hl
      cases hl
    refine hs.rearrange (directories_list hscanning hwaiting ks) rfl rfl hcleanup hs.scanned ?_ ?_
    · intro d ks' heq
      cases heq
      refine ⟨hnodup, ?_⟩
      intro k
      have hunseen := hs.waiting l hl k
      rw [hmem k, and_iff_left hunseen, and_iff_left fun hremoved => hunseen (.inr hremoved)]
    · exact fun d hd => hs.waiting d (hwaiting ▸ mem_cons_of_mem l hd)
  | @close d hscanning =>
    refine hs.rearrange (directories_close hscanning) rfl rfl (hs.cleanup_of_scanning hscanning) ?_
      nofun hs.waiting
    intro d' hd' k hk
    rcases mem_append.mp hd' with hd' | hd'
    · exact hs.scanned d' hd' k hk
    · rw [mem_singleton.mp hd'] at hk ⊢
      by_contra hunseen
      exact not_mem_nil (((hs.scanning d [] hscanning).2 k).mpr ⟨hk, hunseen⟩)
  | turn hpending hscanning hwaiting hcleanup =>
    exact ⟨hs.grown, hs.covered, hs.pending, hs.pending_nodup, hs.isDir, hs.ordered, hs.scanned,
      hs.scanning, hs.waiting, hs.apart, hs.removed, hs.downward,
      fun _ => ⟨hpending, hscanning, hwaiting, fun _ hr _ => hs.complete hpending hscanning hwaiting hr⟩⟩

theorem Sound.directories_cleanup (hcleanup : s.cleanup = true) : s.directories = s.scanned := by
  obtain ⟨-, hscanning, hwaiting, -⟩ := hs.cleanup hcleanup
  rw [directories, hscanning, hwaiting]
  simp

theorem Sound.seen_takeDirectory (hcleanup : s.cleanup = true) {ds : List (List K)}
    (hscanned : s.scanned = ds ++ [l]) :
    ({ s with scanned := ds, removed := l :: s.removed } : Sweep K).directories = ds ∧
      ({ s with scanned := ds, removed := l :: s.removed } : Sweep K).Seen = s.Seen := by
  obtain ⟨-, hscanning, hwaiting, -⟩ := hs.cleanup hcleanup
  have hleft : ({ s with scanned := ds, removed := l :: s.removed } : Sweep K).directories = ds := by
    rw [directories, hscanning, hwaiting]
    simp
  refine ⟨hleft, ?_⟩
  funext m
  rw [Seen, Seen, hleft, hs.directories_cleanup hcleanup, hscanned, mem_append,
    mem_singleton, mem_cons, or_assoc]

theorem Sound.takeDirectory (hcleanup : s.cleanup = true) {ds : List (List K)}
    (hscanned : s.scanned = ds ++ [l]) :
    Sound t roots { s with scanned := ds, removed := l :: s.removed } := by
  obtain ⟨hpending, hscanning, hwaiting, hcomplete⟩ := hs.cleanup hcleanup
  obtain ⟨hleft, hseen⟩ := hs.seen_takeDirectory hcleanup hscanned
  have hdirectories : s.directories = ds ++ [l] := (hs.directories_cleanup hcleanup).trans hscanned
  have hordered := hs.ordered
  rw [hdirectories, pairwise_append] at hordered
  have hlast : ∀ d ∈ ds, ¬ l <+: d := fun d hd => hordered.2.2 d hd l mem_cons_self
  have hl : l ∈ s.directories := hdirectories ▸ mem_append_right _ mem_cons_self
  have hsub : ∀ d ∈ ds, d ∈ s.directories := fun d hd => hdirectories ▸ mem_append_left _ hd
  refine
    { grown := hseen ▸ hs.grown
      covered := hseen ▸ hs.covered
      pending := hseen ▸ hs.pending
      pending_nodup := hs.pending_nodup
      isDir := fun d hd => hs.isDir d (hsub d (hleft ▸ hd))
      ordered := ?_
      scanned := fun d hd => hseen ▸ hs.scanned d (hscanned ▸ mem_append_left _ hd)
      scanning := hseen ▸ hs.scanning
      waiting := hseen ▸ hs.waiting
      apart := ?_
      removed := hs.removed_cons (hs.grown.there l (.inl hl)) fun hmem => hs.apart l hmem hl
      downward := ?_
      cleanup := fun _ => ⟨hpending, hscanning, hwaiting, hseen ▸ hcomplete⟩ }
  · grind
  · intro e he hmem
    rw [hleft] at hmem
    rcases mem_cons.mp he with rfl | he
    · exact hlast e hmem (prefix_refl e)
    · exact hs.apart e he (hsub e hmem)
  · intro e he m hem hm
    rcases mem_cons.mp he with rfl | he
    · obtain ⟨r, hr, hre⟩ := hs.grown.below e (.inl hl)
      rcases hcomplete r hr m (hre.trans hem) hm with hmem | hmem
      · rw [hdirectories, mem_append, mem_singleton] at hmem
        rcases hmem with hmem | rfl
        · grind
        · omega
      · grind
    · exact mem_cons_of_mem _ (hs.downward e he m hem hm)

theorem Sound.drops (hroots : Separate roots) (h : Drops t s l s') : Sound t roots s' := by
  cases h with
  | @file ls l hpending hget hfile =>
    have hl : l ∈ s.pending := hpending ▸ mem_append_right _ mem_cons_self
    have hfresh := hs.fresh_pending hroots hl hget
    have hext : Extends s l { s with pending := ls, removed := l :: s.removed } :=
      extends_remove rfl rfl
    have hne : ∀ d, s.Seen d → ∀ k, d ++ [k] ≠ l :=
      fun d hd => hs.root_ne_entry hroots (hs.pending l hl).1 hd
    have hnodup := hs.pending_nodup
    rw [hpending] at hnodup
    exact hs.take hfresh hfile rfl rfl rfl rfl (hs.cleanup_of_pending hl)
      (fun d hd => hne d (seen_waiting hd)) (hs.covered_pop hpending hext)
      (hs.pending_pop hroots hpending hext) (nodup_init hnodup).1 (hs.scanning_extend hext rfl hne)
  | @entry d ks k hscanning hfile =>
    have hfresh := hs.fresh_entry hscanning
    have hdirectories := directories_entry hscanning (d ++ [k])
    have hext := extends_remove hdirectories rfl
    exact hs.take hfresh hfile hdirectories rfl rfl rfl (hs.cleanup_of_scanning hscanning)
      (fun d' hd' => hs.waiting_ne_entry hscanning hd')
      (fun r hr => (hs.covered r hr).imp_right fun h => (hext r).mpr (.inl h))
      (fun p hp => hs.pending_extend hext hp (hs.pending_not_above hroots hp (seen_scanning hscanning) k))
      hs.pending_nodup (hs.scanning_pop hscanning hext rfl)
  | @directory ds l hcleanup hscanned =>
    exact hs.takeDirectory hcleanup hscanned

end

omit [DecidableEq K] in
theorem Drops.removed [DecidableEq K] {t : FileTree K Label V} (h : Drops t s l s') :
    s'.removed = l :: s.removed := by
  cases h <;> rfl

theorem Looks.removed (h : Looks t s s') : s'.removed = s.removed := by cases h <;> rfl

theorem Sound.below_removed (hs : Sound t roots s) (hroots : Separate roots) (h : Drops t s l s')
    {k : K} (hk : t.get (l ++ [k]) ≠ none) : l ++ [k] ∈ s.removed := by
  have hmem := (hs.drops hroots h).downward l (h.removed ▸ mem_cons_self) (l ++ [k])
    (prefix_append l [k]) hk
  rw [h.removed, mem_cons] at hmem
  exact hmem.resolve_left (by simp)

theorem Sound.removed_iff (hs : Sound t roots s) (hcleanup : s.cleanup = true)
    (hscanned : s.scanned = []) (m : List K) :
    m ∈ s.removed ↔ t.get m ≠ none ∧ ∃ r ∈ roots, r <+: m := by
  obtain ⟨-, hscanning, hwaiting, hcomplete⟩ := hs.cleanup hcleanup
  constructor
  · intro hm
    exact ⟨hs.grown.there m (.inr hm), hs.grown.below m (.inr hm)⟩
  · rintro ⟨hm, r, hr, hrm⟩
    refine (hcomplete r hr m hrm hm).resolve_left ?_
    rw [directories, hscanned, hscanning, hwaiting]
    simp

instance (s : Sweep K) : DecidablePred s.Seen := fun _ => inferInstanceAs (Decidable (_ ∨ _))

def unseen (t : FileTree K Label V) (s : Sweep K) : Finset (List K) :=
  t.nodes.keys.toFinset.filter fun m => ¬ s.Seen m

def weight (t : FileTree K Label V) (s : Sweep K) : ℕ :=
  4 * (s.unseen t).card + 3 * s.waiting.length + 2 * s.scanning.toList.length + s.scanned.length +
    (if s.cleanup then 0 else 1)

theorem unseen_lt (hext : Extends s l s') (hget : t.get l ≠ none) (hl : ¬ s.Seen l) :
    (s'.unseen t).card < (s.unseen t).card := by
  apply Finset.card_lt_card
  rw [Finset.ssubset_iff_of_subset]
  · refine ⟨l, ?_, ?_⟩
    · rw [unseen, Finset.mem_filter, mem_toFinset]
      exact ⟨AList.mem_keys.mp (FileTree.mem_nodes_iff.mpr hget), hl⟩
    · rw [unseen, Finset.mem_filter, not_and_not_right]
      exact fun _ => (hext l).mpr (.inr rfl)
  · intro m hm
    rw [unseen, Finset.mem_filter] at hm ⊢
    exact ⟨hm.1, fun hseen => hm.2 ((hext m).mpr (.inl hseen))⟩

theorem unseen_congr (h : s'.Seen = s.Seen) : s'.unseen t = s.unseen t := by
  simp [unseen, Finset.mem_filter, h]

theorem Sound.looks_lt (hs : Sound t roots s) (hroots : Separate roots) (h : Looks t s s') :
    s'.weight t < s.weight t := by
  cases h with
  | @meet ls l hpending hdir =>
    have hfresh := hs.fresh_pending hroots (hpending ▸ mem_append_right _ mem_cons_self)
      (FileTree.get_of_isDir hdir)
    have hdirectories := directories_meet s ls l
    have hlt := unseen_lt (t := t) (extends_push hdirectories rfl) hfresh.there hfresh.unseen
    simp only [weight, length_append, length_singleton]
    omega
  | @enter d ks k hscanning hdir =>
    have hfresh := hs.fresh_entry hscanning
    have hdirectories := directories_enter hscanning (d ++ [k])
    have hlt := unseen_lt (t := t) (extends_push hdirectories rfl) hfresh.there hfresh.unseen
    simp only [weight, hscanning, Option.toList_some, length_append, length_singleton]
    omega
  | @list ls l ks hscanning hwaiting hnodup hmem =>
    have hdirectories := directories_list hscanning hwaiting ks
    have hsame := unseen_congr (t := t) (seen_congr hdirectories rfl)
    simp [weight, hsame, hscanning, hwaiting]
    omega
  | @close d hscanning =>
    have hdirectories := directories_close hscanning
    have hsame := unseen_congr (t := t) (seen_congr hdirectories rfl)
    simp [weight, hsame, hscanning]
    omega
  | turn hpending hscanning hwaiting hcleanup =>
    have hsame : ({ s with cleanup := true } : Sweep K).unseen t = s.unseen t := unseen_congr rfl
    simp only [weight, hsame, hcleanup, if_true]
    simp

theorem Sound.drops_lt (hs : Sound t roots s) (hroots : Separate roots) (h : Drops t s l s') :
    s'.weight t < s.weight t := by
  cases h with
  | @file ls l hpending hget hfile =>
    have hfresh := hs.fresh_pending hroots (hpending ▸ mem_append_right _ mem_cons_self) hget
    have hext : Extends s l { s with pending := ls, removed := l :: s.removed } :=
      extends_remove rfl rfl
    have hlt := unseen_lt (t := t) hext hfresh.there hfresh.unseen
    simp only [weight]
    omega
  | @entry d ks k hscanning hfile =>
    have hfresh := hs.fresh_entry hscanning
    have hdirectories := directories_entry hscanning (d ++ [k])
    have hlt := unseen_lt (t := t) (extends_remove hdirectories rfl) hfresh.there hfresh.unseen
    simp only [weight, hscanning, Option.toList_some, length_singleton]
    omega
  | @directory ds l hcleanup hscanned =>
    have hsame := unseen_congr (t := t) (hs.seen_takeDirectory hcleanup hscanned).2
    simp only [weight, hsame, hscanned, length_append, length_singleton]
    omega

end Sweep

end Cloudpilot.Library
