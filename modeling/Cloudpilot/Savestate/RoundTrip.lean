import Mathlib.Algebra.BigOperators.Group.List.Basic
import Cloudpilot.Savestate.Layout
import Cloudpilot.Savestate.LoaderSafety

/-! # Loading what was saved

Saving always succeeds. The loader wants three words more than the count and the table
take, so a savestate whose chunks have less than three words together is rejected. The
table keeps the sizes modulo 2^32.
-/
namespace Cloudpilot.Savestate

open List

/-- A target: each chunk is requested once, its items are well formed, and its savestate
is no larger than an object can be. -/
structure Target (arch : Arch) where
  requests : List Request
  once : (requests.map Request.type).Nodup
  wellFormed : ∀ r ∈ requests, ∀ item ∈ r.items, item.WellFormed
  fits : bufferSize requests < 2 ^ (arch.width - 1)

/-- What `GetBuffer()` and `GetSize()` give the loader. -/
def bufferOf {w : ℕ} (s : Saving) (h : s.size < 2 ^ (w - 1)) : Buffer w where
  words := (List.range (s.size / 4 + if s.size % 4 = 0 then 0 else 1)).map s.mem
  size := s.size
  length_eq := by simp
  fits := h

/-- Saving succeeds, and loading with the matching requests succeeds and gives back
every item. -/
def RoundTrips {arch : Arch} (t : Target arch) : Prop :=
  ∃ s, save t.requests = (true, some s) ∧ ∃ h : s.size < 2 ^ (arch.width - 1),
    load (bufferOf s h) (t.requests.map fun r => (r.type, r.items.map Item.shape)) =
      some ⟨true, t.requests.map fun r => r.items.map some⟩

section Probe
variable (requests : List Request)

theorem probeMap_perm :
    (probeMap requests).Perm (requests.map fun r => (r.type, probeSize r.items)) :=
  List.perm_insertionSort _ _

theorem mem_probeMap {r : Request} (h : r ∈ requests) :
    (r.type, probeSize r.items) ∈ probeMap requests :=
  (probeMap_perm requests).mem_iff.mpr (List.mem_map.mpr ⟨r, h, rfl⟩)

theorem nodup_probeMap (h : (requests.map Request.type).Nodup) :
    ((probeMap requests).map Prod.fst).Nodup := by
  rwa [((probeMap_perm requests).map Prod.fst).nodup_iff, map_map]

theorem totalSize_probeMap :
    totalSize (probeMap requests) = (requests.map fun r => probeSize r.items).sum := by
  rw [totalSize, ((probeMap_perm requests).map Prod.snd).sum_eq, map_map]
  rfl

theorem foldl_bufferSize (entries : List (ChunkType × ℕ)) (size : ℕ) :
    entries.foldl (fun size entry => size + entry.2 * 4 + 8) size =
      size + 4 * (2 * entries.length + totalSize entries) := by
  induction entries generalizing size with
  | nil => rfl
  | cons entry entries ih =>
    rw [foldl_cons, ih, totalSize_cons, length_cons]
    ring

theorem bufferSize_eq : bufferSize requests =
    4 * (1 + 2 * (probeMap requests).length + totalSize (probeMap requests)) := by
  rw [bufferSize, foldl_bufferSize]
  ring

theorem toWord_lt (type : ChunkType) : type.toWord.toNat < 512 := by
  cases type <;> decide

theorem length_probeMap_le (h : (requests.map Request.type).Nodup) :
    (probeMap requests).length ≤ 512 := by
  have hnodup := (nodup_probeMap requests h).map fun a b hab =>
    toWord_injective (BitVec.eq_of_toNat_eq hab)
  have hsub : (((probeMap requests).map Prod.fst).map fun t => t.toWord.toNat) ⊆ List.range 512 := by
    intro n hn
    obtain ⟨type, -, rfl⟩ := mem_map.mp hn
    exact List.mem_range.mpr (toWord_lt type)
  have hle := (hnodup.subperm hsub).length_le
  simpa using hle

end Probe

theorem save_spec {arch : Arch} (t : Target arch) :
    ∃ s, save t.requests = (true, some s) ∧ s.size = bufferSize t.requests ∧
      s.mem 0 = BitVec.ofNat 32 (probeMap t.requests).length ∧
      (∀ i entry, (probeMap t.requests)[i]? = some entry →
        s.mem (1 + 2 * i) = entry.1.toWord ∧ s.mem (2 + 2 * i) = BitVec.ofNat 32 entry.2) ∧
      ∀ r ∈ t.requests,
        Stored (place (1 + 2 * (probeMap t.requests).length) (probeMap t.requests)) s.mem r := by
  set entries := probeMap t.requests with hentries
  set d := 1 + 2 * entries.length with hd
  have hnodup := nodup_probeMap t.requests t.once
  set m0 : Mem := Function.update (fun _ => 0) 0 (BitVec.ofNat 32 entries.length)
  set start : Saving := ⟨(allocateLoop entries 1 d m0 fun _ => none).1, bufferSize t.requests,
    (allocateLoop entries 1 d m0 fun _ => none).2, false⟩ with hstart
  have halloc : allocateBuffer t.requests = some start := by
    rw [allocateBuffer, if_pos t.once]
  have hinv : SaveInv d entries start.mem start := by
    refine ⟨rfl, fun type c hc => ?_, fun _ _ => rfl⟩
    exact ⟨c, allocateLoop_chunkMap hnodup hc, rfl, rfl, place_error hc⟩
  obtain ⟨hsize, hfinal, hstored, -⟩ := saveLoop_spec hinv hnodup t.once
    (fun r hr => mem_probeMap t.requests hr) t.wellFormed
  have herror : chunkError (saveLoop t.requests start).chunkMap (entries.map Prod.fst) = false :=
    chunkError_eq_false hfinal.chunks fun _ h => h
  have hsave : save t.requests = (true, some { saveLoop t.requests start with error := false }) := by
    rw [save, halloc]
    simp only [← hentries, herror, hfinal.error, Bool.or_self, Bool.not_false]
  refine ⟨_, hsave, hsize, ?_, fun i entry h => ?_, hstored⟩
  · rw [hfinal.table 0 (by omega)]
    exact (allocateLoop_mem_below (by omega)).trans (Function.update_self _ _ _)
  · have hi : i < entries.length := (List.getElem?_eq_some_iff.mp h).1
    have hentry : (allocateLoop entries 1 d m0 fun _ => none).1 (1 + 2 * i) = _ ∧
        (allocateLoop entries 1 d m0 fun _ => none).1 (1 + 2 * i + 1) = _ :=
      allocateLoop_mem_entry h
    rw [hfinal.table (1 + 2 * i) (by omega), hfinal.table (2 + 2 * i) (by omega)]
    refine ⟨hentry.1, ?_⟩
    rw [show 2 + 2 * i = 1 + 2 * i + 1 by ring]
    exact hentry.2

structure TableOf {w : ℕ} (b : Buffer w) (entries : List (ChunkType × ℕ)) : Prop where
  size : b.size = 4 * (1 + 2 * entries.length + totalSize entries)
  count : chunkCount b = entries.length
  type : ∀ i entry, entries[i]? = some entry → b.words[1 + 2 * i]? = some entry.1.toWord
  tocSize : ∀ i entry, entries[i]? = some entry → tocSize b i = entry.2 % 2 ^ 32

theorem bufferOf_table {arch : Arch} (t : Target arch) {s : Saving}
    (h : s.size < 2 ^ (arch.width - 1)) (hsize : s.size = bufferSize t.requests)
    (hcount : s.mem 0 = BitVec.ofNat 32 (probeMap t.requests).length)
    (htable : ∀ i entry, (probeMap t.requests)[i]? = some entry →
      s.mem (1 + 2 * i) = entry.1.toWord ∧ s.mem (2 + 2 * i) = BitVec.ofNat 32 entry.2) :
    TableOf (bufferOf s h) (probeMap t.requests) ∧
      ∀ a < (bufferOf s h).words.length, (bufferOf s h).words[a]? = some (s.mem a) := by
  have hbytes := bufferSize_eq t.requests
  have hfew := length_probeMap_le t.requests t.once
  have hmod : s.size % 4 = 0 := by omega
  have hlen : (bufferOf s h).words.length = s.size / 4 := by
    simp [bufferOf, hmod]
  have hword : ∀ a < (bufferOf s h).words.length, (bufferOf s h).words[a]? = some (s.mem a) := by
    intro a ha
    rw [hlen] at ha
    simp [bufferOf, hmod, ha]
  refine ⟨⟨by rw [← hbytes, ← hsize]; rfl, ?_, fun i entry hi => ?_, fun i entry hi => ?_⟩, hword⟩
  · rw [chunkCount, hword 0 (by omega), Option.getD_some, hcount, BitVec.toNat_ofNat,
      Nat.mod_eq_of_lt (by omega)]
  · have hlt : i < (probeMap t.requests).length := (List.getElem?_eq_some_iff.mp hi).1
    rw [hword (1 + 2 * i) (by omega), (htable i entry hi).1]
  · have hlt : i < (probeMap t.requests).length := (List.getElem?_eq_some_iff.mp hi).1
    rw [tocSize, hword (2 + 2 * i) (by omega), Option.getD_some, (htable i entry hi).2,
      BitVec.toNat_ofNat]

def Window.entry {w : ℕ} (x : Window w) : BitVec 32 × Chunk :=
  (x.type, Chunk.new x.chunkSize.toNat (x.buffer.toNat / 4))

section Parse
variable {w : ℕ} {b : Buffer w} (hw : 32 ≤ w) (hn : b.words.length < 2 ^ (w - 3))

include hw hn

/-- A table whose sizes sum to what is left of the buffer is accepted, with the chunks
where `AllocateBuffer` placed them. -/
theorem parseLoop_place {entries : List (ChunkType × ℕ)} {k d : ℕ} (windows : List (Window w))
    (htype : ∀ i entry, entries[i]? = some entry → b.words[1 + 2 * (k + i)]? = some entry.1.toWord)
    (hsize : ∀ i entry, entries[i]? = some entry → tocSize b (k + i) = entry.2)
    (htoc : 2 * (k + entries.length) < b.words.length)
    (hsum : d + totalSize entries = b.words.length) :
    ∃ new, parseLoop b (BitVec.ofNat w b.words.length) entries.length
        (BitVec.ofNat w (4 * (1 + 2 * k))) (BitVec.ofInt w (4 * (d : ℤ))) windows =
          some ⟨true, windows ++ new⟩ ∧
      new.map Window.entry = (place d entries).map fun p => (p.1.toWord, p.2) := by
  induction entries generalizing k d windows with
  | nil =>
    obtain rfl : d = b.words.length := hsum
    refine ⟨[], ?_, rfl⟩
    rw [length_nil, parseLoop, append_nil]
    simp [(ptrDiff_eq_size_iff (d := (b.words.length : ℤ)) (show 5 ≤ w by omega) hn (by omega)
      le_rfl).mpr rfl]
  | cons entry entries ih =>
    rw [totalSize_cons] at hsum
    rw [length_cons] at htoc
    obtain ⟨x, hxtype, hxbuffer, hxsize, hstep⟩ := parseLoop_step hw hn entries.length windows
      (show 2 + 2 * k < b.words.length by omega) (show -3 ≤ (d : ℤ) by omega)
      (show (d : ℤ) ≤ b.words.length by omega)
    have hfirst : tocSize b k = entry.2 := hsize 0 entry rfl
    rw [hfirst] at hxsize hstep
    obtain ⟨new, hrun, hnew⟩ := ih (k := k + 1) (d := d + entry.2) (windows ++ [x])
      (fun i e hi => by
        rw [show k + 1 + i = k + (i + 1) by ring]
        exact htype (i + 1) e (by simpa using hi))
      (fun i e hi => by
        rw [show k + 1 + i = k + (i + 1) by ring]
        exact hsize (i + 1) e (by simpa using hi))
      (by omega) (by omega)
    refine ⟨x :: new, ?_, ?_⟩
    · grind
    · have hbound := offset_lt hw hn (show d ≤ b.words.length + 1 by omega)
      have hbuffer : x.buffer.toNat = 4 * d := by
        have hnat := toNat_ofInt_of_lt (w := w) (d := 4 * (d : ℤ)) (by omega)
          (by exact_mod_cast hbound)
        rw [hxbuffer]
        omega
      have htypes : x.type = entry.1.toWord := by
        have h0 := htype 0 entry rfl
        rw [Nat.add_zero, hxtype] at h0
        exact Option.some.inj h0
      rw [map_cons, hnew, place, map_cons, Window.entry, htypes, hxsize, hbuffer,
        Nat.mul_div_cancel_left d (by norm_num)]

end Parse

theorem find_entry {chunks : List (ChunkType × Chunk)} {type : ChunkType} {c : Chunk}
    (hnodup : (chunks.map Prod.fst).Nodup) (h : (type, c) ∈ chunks) :
    (chunks.map fun p => (p.1.toWord, p.2)).find? (fun entry => entry.1 = type.toWord) =
      some (type.toWord, c) := by
  induction chunks with
  | nil => simp at h
  | cons first chunks ih =>
    rw [map_cons, nodup_cons] at hnodup
    rw [map_cons]
    rcases mem_cons.mp h with rfl | h
    · simp
    · have hne : first.1.toWord ≠ type.toWord := by
        intro e
        exact hnodup.1 (toWord_injective e ▸ mem_map.mpr ⟨(type, c), h, rfl⟩)
      rw [List.find?_cons_of_neg (by simpa using hne)]
      exact ih hnodup.2 h

theorem loaderMap_mapsTo {w : ℕ} {windows : List (Window w)} {d : ℕ}
    {entries : List (ChunkType × ℕ)} (hnodup : (entries.map Prod.fst).Nodup)
    (h : windows.map Window.entry = (place d entries).map fun p => (p.1.toWord, p.2)) :
    MapsTo ChunkType.toWord (place d entries) (loaderMap windows) := by
  intro type c hc
  refine ⟨c, ?_, rfl, rfl, place_error hc⟩
  have hfind := find_entry (by rw [place_types]; exact hnodup) hc
  rw [loaderMap, show (windows.map fun x => (x.type, Chunk.new x.chunkSize.toNat
    (x.buffer.toNat / 4))) = windows.map Window.entry from rfl, h, hfind]
  rfl

section Accept
variable {w : ℕ} {b : Buffer w} {entries : List (ChunkType × ℕ)}

theorem TableOf.words_length (hw : 32 ≤ w) (h : TableOf b entries) :
    b.words.length = 1 + 2 * entries.length + totalSize entries ∧
      b.words.length < 2 ^ (w - 3) ∧ 4 ≤ b.size ∧ b.size % 4 = 0 := by
  have hsize := h.size
  have hmod : b.size % 4 = 0 := by omega
  obtain ⟨hlen, hn⟩ := words_length_lt hw hmod
  exact ⟨by omega, hn, by omega, hmod⟩

theorem TableOf.bound_lt (hw : 32 ≤ w) (h : TableOf b entries) (hfew : entries.length ≤ 512) :
    4 + 2 * chunkCount b < 2 ^ w := by
  have hpow : 2 ^ 32 ≤ 2 ^ w := Nat.pow_le_pow_right (by norm_num) hw
  rw [h.count]
  omega

theorem TableOf.parse (hw : 32 ≤ w) (h : TableOf b entries) (hfew : entries.length ≤ 512)
    (htotal : 3 ≤ totalSize entries) (hsmall : ∀ entry ∈ entries, entry.2 < 2 ^ 32) :
    ∃ windows, parseSavestate b = some ⟨true, windows⟩ ∧ windows.map Window.entry =
      (place (1 + 2 * entries.length) entries).map fun p => (p.1.toWord, p.2) := by
  obtain ⟨hlen, hn, h4, hmod⟩ := h.words_length hw
  obtain ⟨new, hrun, hnew⟩ := parseLoop_place hw hn (k := 0) (d := 1 + 2 * entries.length) []
    (fun i entry hi => by simpa using h.type i entry hi)
    (fun i entry hi => by
      rw [Nat.zero_add, h.tocSize i entry hi]
      exact Nat.mod_eq_of_lt (hsmall entry (mem_of_getElem? hi)))
    (by omega) (by omega)
  refine ⟨new, ?_, hnew⟩
  rw [parseSavestate_eq hw h4 hmod, Nat.mod_eq_of_lt (h.bound_lt hw hfew), h.count,
    if_neg (by omega)]
  rw [nil_append] at hrun
  rw [← hrun]
  congr 2
  push_cast
  ring

theorem TableOf.tocTotal_eq (h : TableOf b entries) {k : ℕ} (hk : k ≤ entries.length) :
    tocTotal b k = ((entries.take k).map fun entry => entry.2 % 2 ^ 32).sum := by
  induction k with
  | zero => rfl
  | succ k ih =>
    have hget : entries[k]? = some (entries.get ⟨k, hk⟩) := getElem?_eq_getElem hk
    rw [tocTotal_succ, ih (by omega), h.tocSize k _ hget, take_add_one, hget]
    simp only [Option.toList_some, map_append, map_cons, map_nil, sum_append,
      sum_cons, sum_nil, Nat.add_zero]

theorem sum_mod_eq_iff (sizes : List ℕ) :
    (sizes.map fun n => n % 2 ^ 32).sum = sizes.sum ↔ ∀ n ∈ sizes, n < 2 ^ 32 := by
  have hle : ∀ sizes : List ℕ, (sizes.map fun n => n % 2 ^ 32).sum ≤ sizes.sum := by
    intro sizes
    induction sizes with
    | nil => simp
    | cons n sizes ih => grind
  induction sizes with
  | nil => simp
  | cons n sizes ih =>
    have hrest := hle sizes
    simp only [map_cons, sum_cons, forall_mem_cons, ← ih]
    constructor <;> omega

theorem TableOf.of_accepted (hw : 32 ≤ w) (h : TableOf b entries) (hfew : entries.length ≤ 512)
    {r : Parsed w} (hparse : parseSavestate b = some r) (hacc : r.accepted = true) :
    3 ≤ totalSize entries ∧ ∀ entry ∈ entries, entry.2 < 2 ^ 32 := by
  obtain ⟨hlen, hn, h4, hmod⟩ := h.words_length hw
  obtain ⟨hroom, htotal⟩ := accepted_total hw h4 hmod (h.bound_lt hw hfew) hparse hacc
  rw [h.count] at hroom htotal
  rw [h.tocTotal_eq le_rfl, take_length] at htotal
  refine ⟨by omega, ?_⟩
  have hsum : ((entries.map Prod.snd).map fun n => n % 2 ^ 32).sum = (entries.map Prod.snd).sum := by
    rw [map_map]
    have hsame : totalSize entries = (entries.map Prod.snd).sum := rfl
    have hcomp : ((fun n => n % 2 ^ 32) ∘ Prod.snd : ChunkType × ℕ → ℕ) =
        fun entry => entry.2 % 2 ^ 32 := rfl
    rw [hcomp]
    omega
  intro entry hentry
  exact (sum_mod_eq_iff _).mp hsum entry.2 (mem_map.mpr ⟨entry, hentry, rfl⟩)

end Accept

theorem load_of_parse {arch : Arch} (t : Target arch) {s : Saving}
    {b : Buffer arch.width} (htable : TableOf b (probeMap t.requests))
    (hword : ∀ a < b.words.length, b.words[a]? = some (s.mem a))
    (hstored : ∀ r ∈ t.requests,
      Stored (place (1 + 2 * (probeMap t.requests).length) (probeMap t.requests)) s.mem r)
    {windows : List (Window arch.width)} (hparse : parseSavestate b = some ⟨true, windows⟩)
    (hwindows : windows.map Window.entry =
      (place (1 + 2 * (probeMap t.requests).length) (probeMap t.requests)).map
        fun p => (p.1.toWord, p.2)) :
    load b (t.requests.map fun r => (r.type, r.items.map Item.shape)) =
      some ⟨true, t.requests.map fun r => r.items.map some⟩ := by
  have hw : 32 ≤ arch.width := by cases arch <;> decide
  have hlen := (htable.words_length hw).1
  have hnodup := nodup_probeMap t.requests t.once
  set d := 1 + 2 * (probeMap t.requests).length with hd
  set entries := probeMap t.requests
  have hstored' : ∀ r ∈ t.requests, Stored (place d entries) (fun a => b.words.getD a 0) r := by
    intro r hr
    obtain ⟨c, hc, hsize, hholds⟩ := hstored r hr
    refine ⟨c, hc, hsize, hholds.agree fun a ha ha' => ?_⟩
    have hbound := (place_bounds hc).2
    rw [getD_eq_getElem?_getD, hword a (by omega), Option.getD_some]
  obtain ⟨chunkMap', hrun, hmap'⟩ := targetLoad_spec (by rw [place_types]; exact hnodup)
    (loaderMap_mapsTo hnodup hwindows) hstored'
  have hany : (windows.any fun x => hasError (chunkMap' x.type)) = false := by
    rw [any_eq_false]
    intro x hx
    have hentry : x.entry ∈ windows.map Window.entry := mem_map.mpr ⟨x, hx, rfl⟩
    rw [hwindows] at hentry
    obtain ⟨⟨type, c⟩, hc, heq⟩ := mem_map.mp hentry
    have htype : x.type = type.toWord := (congrArg Prod.fst heq).symm
    obtain ⟨c', hc', -, -, herror⟩ := hmap' type c hc
    rw [htype, hc', hasError, herror]
    exact Bool.false_ne_true
  rw [load, hparse]
  simp only [Bool.true_eq_false, if_false, hrun, hany, Bool.or_self, Bool.not_false]

/-- What a target finds when it loads: for every chunk that was saved, a chunk of its size
that holds its items. -/
theorem loader_chunks {arch : Arch} (t : Target arch)
    (htotal : 3 ≤ (t.requests.map fun r => probeSize r.items).sum)
    (hsizes : ∀ r ∈ t.requests, probeSize r.items < 2 ^ 32) :
    ∃ s, save t.requests = (true, some s) ∧ ∃ (hfits : s.size < 2 ^ (arch.width - 1))
      (windows : List (Window arch.width)),
      parseSavestate (bufferOf s hfits) = some ⟨true, windows⟩ ∧
        ∀ r ∈ t.requests, ∃ c, loaderMap windows r.type.toWord = some c ∧
          c.reset.Ready (probeSize r.items) ∧
          HoldsItems (fun a => (bufferOf s hfits).words.getD a 0) c.buffer r.items := by
  have hw : 32 ≤ arch.width := by cases arch <;> decide
  obtain ⟨s, hsave, hsize, hcount, htoc, hstored⟩ := save_spec t
  have hfits : s.size < 2 ^ (arch.width - 1) := hsize ▸ t.fits
  obtain ⟨htable, hword⟩ := bufferOf_table t hfits hsize hcount htoc
  have hlen := (htable.words_length hw).1
  rw [← totalSize_probeMap] at htotal
  have hsmall : ∀ entry ∈ probeMap t.requests, entry.2 < 2 ^ 32 := by
    intro entry hentry
    obtain ⟨r, hr, rfl⟩ := mem_map.mp ((probeMap_perm t.requests).mem_iff.mp hentry)
    exact hsizes r hr
  obtain ⟨windows, hparse, hwindows⟩ := htable.parse hw (length_probeMap_le t.requests t.once)
    htotal hsmall
  have hmap := loaderMap_mapsTo (nodup_probeMap t.requests t.once) hwindows
  refine ⟨s, hsave, hfits, windows, hparse, fun r hr => ?_⟩
  obtain ⟨c, hc, hcsize, hholds⟩ := hstored r hr
  obtain ⟨c', hc', hbuffer, hsize', -⟩ := hmap r.type c hc
  refine ⟨c', hc', ⟨rfl, ?_⟩, ?_⟩
  · simp only [Chunk.reset]
    omega
  · rw [hbuffer]
    apply hholds.agree
    intro a ha ha'
    have hbound := (place_bounds hc).2
    change (bufferOf s hfits).words.getD a 0 = s.mem a
    rw [getD_eq_getElem?_getD, hword a (by omega), Option.getD_some]

/-- Saving and loading gives back what was saved exactly if the chunks have three words
or more together and no chunk has 2^32 words. -/
theorem roundTrips_iff {arch : Arch} (t : Target arch) :
    RoundTrips t ↔ 3 ≤ (t.requests.map fun r => probeSize r.items).sum ∧
      ∀ r ∈ t.requests, probeSize r.items < 2 ^ 32 := by
  have hw : 32 ≤ arch.width := by cases arch <;> decide
  have hfew := length_probeMap_le t.requests t.once
  have hsmall : (∀ entry ∈ probeMap t.requests, entry.2 < 2 ^ 32) ↔
      ∀ r ∈ t.requests, probeSize r.items < 2 ^ 32 := by
    simp [(probeMap_perm t.requests).mem_iff]
  obtain ⟨s, hsave, hsize, hcount, htoc, hstored⟩ := save_spec t
  have hfits : s.size < 2 ^ (arch.width - 1) := hsize ▸ t.fits
  obtain ⟨htable, hword⟩ := bufferOf_table t hfits hsize hcount htoc
  rw [← totalSize_probeMap, ← hsmall]
  constructor
  · rintro ⟨s', hsave', hfits', hload⟩
    obtain rfl : s' = s := by grind
    cases hparse : parseSavestate (bufferOf s' hfits) with
    | none => simp [load, hparse] at hload
    | some parsed =>
      have hacc : parsed.accepted = true := by
        by_contra hno
        rw [Bool.not_eq_true] at hno
        simp [load, hparse, hno] at hload
      exact htable.of_accepted hw hfew hparse hacc
  · rintro ⟨htotal, hsizes⟩
    obtain ⟨windows, hparse, hwindows⟩ := htable.parse hw hfew htotal hsizes
    exact ⟨s, hsave, hfits, load_of_parse t htable hword hstored hparse hwindows⟩

def smallTarget : Target .bits64 where
  requests := [⟨.session, [.u32 42]⟩]
  once := by decide
  wellFormed := by simp [Item.WellFormed]
  fits := by decide

def smallSaving : Saving :=
  (save smallTarget.requests).2.getD ⟨fun _ => 0, 0, fun _ => none, false⟩

theorem smallSaving_fits : smallSaving.size < 2 ^ (Arch.bits64.width - 1) := by decide +kernel

/-- It is saved, and rejected when it is loaded. -/
theorem smallTarget_rejected :
    save smallTarget.requests = (true, some smallSaving) ∧
      (load (bufferOf smallSaving smallSaving_fits) [(.session, [.u32])]).map LoadResult.ok =
        some false ∧
      ¬ RoundTrips smallTarget := by
  have hsave : save smallTarget.requests = (true, some smallSaving) := by rfl
  have hload : (load (bufferOf smallSaving smallSaving_fits) [(.session, [.u32])]).map
      LoadResult.ok = some false := by decide +kernel
  refine ⟨hsave, hload, ?_⟩
  rintro ⟨s, hs, hfits, hrun⟩
  obtain rfl : smallSaving = s := Option.some.inj (congrArg Prod.snd hs)
  have heq : load (bufferOf smallSaving smallSaving_fits) [(.session, [.u32])] = _ := hrun
  rw [heq] at hload
  cases hload

end Cloudpilot.Savestate
