import Cloudpilot.Savestate.ChunkRoundTrip
import Cloudpilot.Savestate.Savestate

/-! # The layout of a savestate

`AllocateBuffer` places the chunks one behind the other after the table. Saving fills
each chunk and leaves the table and the other chunks alone.
-/
namespace Cloudpilot.Savestate

open List

def totalSize (entries : List (ChunkType × ℕ)) : ℕ := (entries.map Prod.snd).sum

/-- Chunks one behind the other from word `d` on. -/
def place : ℕ → List (ChunkType × ℕ) → List (ChunkType × Chunk)
  | _, [] => []
  | d, (type, size) :: rest => (type, Chunk.new size d) :: place (d + size) rest

section Place
variable {d : ℕ} {entries : List (ChunkType × ℕ)} {type : ChunkType} {c : Chunk}

theorem totalSize_cons (entry : ChunkType × ℕ) (entries : List (ChunkType × ℕ)) :
    totalSize (entry :: entries) = entry.2 + totalSize entries := by
  simp [totalSize]

theorem place_types : (place d entries).map Prod.fst = entries.map Prod.fst := by
  induction entries generalizing d with
  | nil => rfl
  | cons entry entries ih => simp [place, ih]

theorem place_bounds (h : (type, c) ∈ place d entries) :
    d ≤ c.buffer ∧ c.buffer + c.chunkSize ≤ d + totalSize entries := by
  induction entries generalizing d with
  | nil => simp [place] at h
  | cons entry entries ih =>
    rw [totalSize_cons]
    rcases mem_cons.mp h with h | h
    · cases h
      simp [Chunk.new]
    · grind

theorem place_error (h : (type, c) ∈ place d entries) : c.error = false := by
  induction entries generalizing d with
  | nil => simp [place] at h
  | cons entry entries ih =>
    rcases mem_cons.mp h with h | h
    · cases h
      rfl
    · exact ih h

theorem exists_mem_place {size : ℕ} (h : (type, size) ∈ entries) :
    ∃ c, (type, c) ∈ place d entries ∧ c.chunkSize = size := by
  induction entries generalizing d with
  | nil => simp at h
  | cons entry entries ih =>
    rcases mem_cons.mp h with rfl | h
    · exact ⟨Chunk.new size d, by simp [place], rfl⟩
    · obtain ⟨c, hc, hsize⟩ := ih (d := d + entry.2) h
      exact ⟨c, by simp [place, hc], hsize⟩

theorem place_pairwise (d : ℕ) (entries : List (ChunkType × ℕ)) :
    (place d entries).Pairwise fun x y => x.2.buffer + x.2.chunkSize ≤ y.2.buffer := by
  induction entries generalizing d with
  | nil => exact List.Pairwise.nil
  | cons entry entries ih =>
    refine pairwise_cons.mpr ⟨?_, ih _⟩
    rintro ⟨type, c⟩ hc
    exact (place_bounds hc).1

/-- One chunk ends before the other begins. -/
def Apart (x y : ChunkType × Chunk) : Prop :=
  x.2.buffer + x.2.chunkSize ≤ y.2.buffer ∨ y.2.buffer + y.2.chunkSize ≤ x.2.buffer

instance : Std.Symm Apart := ⟨fun _ _ h => Or.symm h⟩

theorem place_disjoint {type' : ChunkType} {c' : Chunk} (h : (type, c) ∈ place d entries)
    (h' : (type', c') ∈ place d entries) (hne : type ≠ type') : Apart (type, c) (type', c') := by
  have hpair : (place d entries).Pairwise Apart := (place_pairwise d entries).imp Or.inl
  exact hpair.forall h h' fun e => hne (congrArg Prod.fst e)

end Place

section Allocate
variable {entries : List (ChunkType × ℕ)} {toc d : ℕ} {m : Mem}
  {chunkMap : ChunkType → Option Chunk}

theorem allocateLoop_of_notMem {type : ChunkType} (h : type ∉ entries.map Prod.fst) :
    (allocateLoop entries toc d m chunkMap).2 type = chunkMap type := by
  induction entries generalizing toc d m chunkMap with
  | nil => rfl
  | cons entry entries ih =>
    simp only [map_cons, mem_cons, not_or] at h
    rw [allocateLoop, ih h.2, Function.update_of_ne h.1]

theorem allocateLoop_chunkMap {type : ChunkType} {c : Chunk}
    (hnodup : (entries.map Prod.fst).Nodup) (h : (type, c) ∈ place d entries) :
    (allocateLoop entries toc d m chunkMap).2 type = some c := by
  induction entries generalizing toc d m chunkMap with
  | nil => simp [place] at h
  | cons entry entries ih =>
    rw [map_cons, nodup_cons] at hnodup
    rw [allocateLoop]
    rcases mem_cons.mp h with h | h
    · cases h
      rw [allocateLoop_of_notMem hnodup.1, Function.update_self]
    · grind

theorem allocateLoop_mem_below {a : ℕ} (h : a < toc) :
    (allocateLoop entries toc d m chunkMap).1 a = m a := by
  induction entries generalizing toc d m chunkMap with
  | nil => rfl
  | cons entry entries ih => grind [allocateLoop]

theorem allocateLoop_mem_entry {i : ℕ} {entry : ChunkType × ℕ} (h : entries[i]? = some entry) :
    (allocateLoop entries toc d m chunkMap).1 (toc + 2 * i) = entry.1.toWord ∧
      (allocateLoop entries toc d m chunkMap).1 (toc + 2 * i + 1) = BitVec.ofNat 32 entry.2 := by
  induction entries generalizing toc d m chunkMap i with
  | nil => simp at h
  | cons first entries ih =>
    cases i with
    | zero =>
      obtain rfl : first = entry := by simpa using h
      rw [allocateLoop, allocateLoop_mem_below (by omega), allocateLoop_mem_below (by omega)]
      simp [Function.update_of_ne]
    | succ i => grind [allocateLoop]

end Allocate

def Stored (chunks : List (ChunkType × Chunk)) (m : Mem) (r : Request) : Prop :=
  ∃ c, (r.type, c) ∈ chunks ∧ c.chunkSize = probeSize r.items ∧ HoldsItems m c.buffer r.items

/-- The chunks of a map are the placed ones, without error, wherever their cursors are. -/
def MapsTo {α : Type*} (key : ChunkType → α) (chunks : List (ChunkType × Chunk))
    (chunkMap : α → Option Chunk) : Prop :=
  ∀ type c, (type, c) ∈ chunks → ∃ c', chunkMap (key type) = some c' ∧ c'.buffer = c.buffer ∧
    c'.chunkSize = c.chunkSize ∧ c'.error = false

theorem MapsTo.update {α : Type*} [DecidableEq α] {key : ChunkType → α}
    {chunks : List (ChunkType × Chunk)} {chunkMap : α → Option Chunk} {type : ChunkType}
    {c c' : Chunk} (h : MapsTo key chunks chunkMap) (hkey : Function.Injective key)
    (hmem : (type, c) ∈ chunks) (hnodup : (chunks.map Prod.fst).Nodup)
    (hc : c'.buffer = c.buffer ∧ c'.chunkSize = c.chunkSize ∧ c'.error = false) :
    MapsTo key chunks (Function.update chunkMap (key type) (some c')) := by
  intro type' d hd
  by_cases heq : type' = type
  · subst heq
    obtain rfl : d = c := by
      have h := inj_on_of_nodup_map hnodup hd hmem rfl
      exact congrArg Prod.snd h
    exact ⟨c', Function.update_self _ _ _, hc⟩
  · obtain ⟨d', hd', hrest⟩ := h type' d hd
    exact ⟨d', by rw [Function.update_of_ne fun e => heq (hkey e), hd'], hrest⟩

/-- What saving keeps: no error, the placed chunks, and the words before the chunks. -/
structure SaveInv (d : ℕ) (entries : List (ChunkType × ℕ)) (m : Mem) (s : Saving) : Prop where
  error : s.error = false
  chunks : MapsTo id (place d entries) s.chunkMap
  table : ∀ a < d, s.mem a = m a

section Save
variable {d : ℕ} {entries : List (ChunkType × ℕ)} {m : Mem} {s : Saving} {r : Request}

theorem save_request (hinv : SaveInv d entries m s) (hnodup : (entries.map Prod.fst).Nodup)
    (hmem : (r.type, probeSize r.items) ∈ entries) (hwf : ∀ item ∈ r.items, item.WellFormed) :
    ∃ s', (∀ requests, saveLoop (r :: requests) s = saveLoop requests s') ∧
      s'.size = s.size ∧ SaveInv d entries m s' ∧ Stored (place d entries) s'.mem r ∧
      ∀ r', r'.type ≠ r.type → Stored (place d entries) s.mem r' →
        Stored (place d entries) s'.mem r' := by
  obtain ⟨c, hc, hsize⟩ := exists_mem_place (d := d) hmem
  obtain ⟨c', hc', hbuffer, hsize', herror⟩ := hinv.chunks r.type c hc
  have hready : c'.reset.Ready (probeSize r.items) := by
    refine ⟨rfl, ?_⟩
    simp only [Chunk.reset]
    omega
  obtain ⟨m', hput, hframe, hholds⟩ := putItems_puts (m := s.mem) hwf
    (show c'.reset.buffer ≤ c'.reset.next from le_rfl) hready
  have hnext : c'.reset.next = c.buffer := hbuffer
  rw [hnext] at hframe hholds
  have hkeep : ((place d entries).map Prod.fst).Nodup := by grind [place_types]
  refine ⟨⟨m', s.size, Function.update s.chunkMap r.type
    (some (c'.reset.advance (probeSize r.items))), s.error || c'.error⟩, fun requests => ?_, rfl,
    ⟨?_, ?_, ?_⟩, ⟨c, hc, hsize, hholds⟩, ?_⟩
  · rw [saveLoop, show s.chunkMap r.type = some c' from hc']
    simp [hput]
  · simp [hinv.error, herror]
  · exact hinv.chunks.update Function.injective_id hc hkeep ⟨hbuffer, hsize', rfl⟩
  · intro a ha
    have hbound := (place_bounds hc).1
    exact (hframe a (by omega)).trans (hinv.table a ha)
  · rintro r' hne ⟨e, he, hesize, hstored⟩
    refine ⟨e, he, hesize, hstored.agree fun a ha ha' => hframe a ?_⟩
    rcases place_disjoint he hc hne with hapart | hapart <;> grind

theorem saveLoop_spec {requests : List Request} (hinv : SaveInv d entries m s)
    (hnodup : (entries.map Prod.fst).Nodup) (honce : (requests.map Request.type).Nodup)
    (hmem : ∀ r ∈ requests, (r.type, probeSize r.items) ∈ entries)
    (hwf : ∀ r ∈ requests, ∀ item ∈ r.items, item.WellFormed) :
    (saveLoop requests s).size = s.size ∧ SaveInv d entries m (saveLoop requests s) ∧
      (∀ r ∈ requests, Stored (place d entries) (saveLoop requests s).mem r) ∧
      ∀ r', r'.type ∉ requests.map Request.type → Stored (place d entries) s.mem r' →
        Stored (place d entries) (saveLoop requests s).mem r' := by
  induction requests generalizing s with
  | nil => exact ⟨rfl, hinv, by simp, fun _ _ h => h⟩
  | cons r requests ih =>
    rw [map_cons, nodup_cons] at honce
    obtain ⟨s', hstep, hsize, hinv', hstored, hothers⟩ :=
      save_request hinv hnodup (hmem r (by simp)) (hwf r (by simp))
    obtain ⟨hsize', hrun, hall, hkeep⟩ := ih hinv' honce.2 (fun x hx => hmem x (by simp [hx]))
      (fun x hx => hwf x (by simp [hx]))
    rw [hstep]
    refine ⟨hsize'.trans hsize, hrun, ?_, ?_⟩
    · grind
    · intro r' hr' h
      rw [map_cons, mem_cons, not_or] at hr'
      exact hkeep r' hr'.2 (hothers r' hr'.1 h)

theorem chunkError_eq_false {types : List ChunkType} {chunkMap : ChunkType → Option Chunk}
    (hmap : MapsTo id (place d entries) chunkMap)
    (hmem : ∀ type ∈ types, type ∈ entries.map Prod.fst) : chunkError chunkMap types = false := by
  rw [chunkError, any_eq_false]
  intro type htype
  obtain ⟨⟨_, size⟩, hsize, rfl⟩ := mem_map.mp (hmem type htype)
  obtain ⟨c, hc, -⟩ := exists_mem_place (d := d) hsize
  obtain ⟨c', hc', -, -, herror⟩ := hmap _ c hc
  rw [id] at hc'
  simp [hc', hasError, herror]

end Save

theorem toWord_injective : Function.Injective ChunkType.toWord := by
  intro a b h
  cases a <;> cases b <;> first | rfl | cases h

theorem targetLoad_spec {chunks : List (ChunkType × Chunk)} {m : Mem} {requests : List Request}
    {chunkMap : BitVec 32 → Option Chunk} (hnodup : (chunks.map Prod.fst).Nodup)
    (hmap : MapsTo ChunkType.toWord chunks chunkMap) (hstored : ∀ r ∈ requests, Stored chunks m r) :
    ∃ chunkMap', targetLoad m (requests.map fun r => (r.type, r.items.map Item.shape)) chunkMap
        false = (requests.map fun r => r.items.map some, chunkMap', false) ∧
      MapsTo ChunkType.toWord chunks chunkMap' := by
  induction requests generalizing chunkMap with
  | nil => exact ⟨chunkMap, rfl, hmap⟩
  | cons r requests ih =>
    obtain ⟨c, hc, hsize, hholds⟩ := hstored r (by simp)
    obtain ⟨c', hc', hbuffer, hsize', herror⟩ := hmap r.type c hc
    have hready : c'.reset.Ready (probeSize r.items) := by
      refine ⟨rfl, ?_⟩
      simp only [Chunk.reset]
      omega
    have hget := hholds m c'.reset (fun _ _ _ => rfl) hbuffer le_rfl hready
    have hmap1 : MapsTo ChunkType.toWord chunks (Function.update chunkMap r.type.toWord
        (some (c'.reset.advance (probeSize r.items)))) :=
      hmap.update toWord_injective hc hnodup ⟨hbuffer, hsize', rfl⟩
    obtain ⟨chunkMap', hrun, hmap'⟩ := ih hmap1 fun x hx => hstored x (by simp [hx])
    refine ⟨chunkMap', ?_, hmap'⟩
    rw [map_cons, targetLoad, hc']
    simp [hget, herror, hrun]

end Cloudpilot.Savestate
