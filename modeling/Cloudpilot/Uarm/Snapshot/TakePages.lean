import Cloudpilot.Uarm.Snapshot.Tracker

/-! # Taking a snapshot of one memory

The three nested loops of `takeSnapshot` visit the bits of the bitmap in the order of
their pages. `Taken` says what they have done in front of a page.
-/
namespace Cloudpilot.Uarm.SnapshotProtocol
open Library Library.TypedArray Library.PagedArray DirtyPageTracker List Nat

variable {cfg : TrackerConfig} {data pool : List Word} {bits dirtyPages : List Word} {p : ℕ}
  {s : Taking}

/-- A memory of whole pages. Its bitmap has a bit for every page and marks no other, and
it marks none unless the memory counts as dirty. -/
structure Memory.WellFormed (cfg : TrackerConfig) (m : Memory) : Prop where
  pos : 0 < cfg.pageSize
  data : m.data.length = cfg.size
  dirtyPages : m.dirtyPages.length = cfg.dirtyPagesSize4
  marks : ∀ p, marked m.dirtyPages p → p < cfg.pageCount
  flag : isDirty cfg m = false → ∀ p, ¬ marked m.dirtyPages p

/-- A pool of whole pages, at least one. -/
def PoolSized (cfg : TrackerConfig) (pool : List Word) (n : ℕ) : Prop :=
  0 < n ∧ pool.length = n * cfg.pageSize

def markedPages (bits : List Word) (p : ℕ) : List ℕ := (List.range p).filter fun q => marked bits q

/-- What the loops have done in front of page `p`. -/
structure Taken (cfg : TrackerConfig) (data bits dirtyPages : List Word) (p : ℕ) (s : Taking) :
    Prop where
  page : s.page = p
  length : s.scheduledPages.length = cfg.pageCount
  count : s.iPage = (markedPages bits p).length
  scheduled : s.scheduledPages.take s.iPage = markedPages bits p
  pool : ∃ n, PoolSized cfg s.pagePool n ∧ s.iPage ≤ n
  pages : ∀ k q, (markedPages bits p)[k]? = some q →
    PagedArray.page cfg.pageSize k s.pagePool = PagedArray.page cfg.pageSize q data
  dirtyPages : s.dirtyPages = dirtyPages

theorem markedPages_succ (bits : List Word) (p : ℕ) :
    markedPages bits (p + 1) =
      if marked bits p then markedPages bits p ++ [p] else markedPages bits p := by
  rw [markedPages, range_succ, filter_append]
  split_ifs with h <;> simp [h, markedPages]

theorem length_markedPages_le (bits : List Word) (p : ℕ) : (markedPages bits p).length ≤ p :=
  (List.length_filter_le _ _).trans_eq List.length_range

theorem mem_markedPages {q : ℕ} : q ∈ markedPages bits p ↔ q < p ∧ marked bits q := by
  simp [markedPages]

theorem lt_grownPages {n : ℕ} (hn : 0 < n) (hpos : 0 < cfg.pageSize) :
    n < grownPages cfg (n * cfg.pageSize) := by
  rw [grownPages, lt_iff_add_one_le, le_div_iff_mul_le (by omega)]
  have h : (n + 1) * (2 * cfg.pageSize) = 2 * (n * cfg.pageSize) + 2 * cfg.pageSize := by ring
  have hle : 1 * cfg.pageSize ≤ n * cfg.pageSize := mul_le_mul_right _ hn
  omega

theorem growPagePool_spec {n : ℕ} (hpool : PoolSized cfg pool n) (hpos : 0 < cfg.pageSize)
    (hn : n < cfg.pageCount) :
    ∃ pool' n', growPagePool cfg pool = .ok pool' ∧ PoolSized cfg pool' n' ∧ n < n' ∧
      ∀ k < n, page cfg.pageSize k pool' = page cfg.pageSize k pool := by
  obtain ⟨hn0, hlength⟩ := hpool
  have hgrown := lt_grownPages hn0 hpos
  set n' := min (grownPages cfg (n * cfg.pageSize)) cfg.pageCount with hn'
  have hlt : n < n' := lt_min hgrown hn
  have hmin : min (grownPages cfg pool.length * cfg.pageSize) (cfg.pageCount * cfg.pageSize) =
      n' * cfg.pageSize := by
    rw [hlength, hn', Nat.mul_min_mul_right]
  have hle : n * cfg.pageSize ≤ n' * cfg.pageSize := Nat.mul_le_mul_right _ hlt.le
  have hbound : 0 + pool.length ≤ (replicate (n' * cfg.pageSize) (0 : Word)).length := by
    rwa [length_replicate, hlength, Nat.zero_add]
  refine ⟨overwrite (replicate (n' * cfg.pageSize) 0) 0 pool, n', ?_, ⟨by omega, ?_⟩, hlt, ?_⟩
  · rw [growPagePool, hmin]
    exact if_neg (by rw [length_replicate, hlength]; omega)
  · rw [length_overwrite hbound, length_replicate]
  · intro k hk
    have hend : (k + 1) * cfg.pageSize ≤ pool.length := by
      rw [hlength]
      exact Nat.mul_le_mul_right _ hk
    rw [Nat.succ_mul] at hend
    apply ext_getElem?
    intro j
    rw [getElem?_page, getElem?_page]
    split_ifs with hj
    · rw [overwrite, take_zero, nil_append, getElem?_append_left (by omega)]
    · rfl

theorem poolFor_spec {n k : ℕ} (hpool : PoolSized cfg pool n) (hpos : 0 < cfg.pageSize)
    (hle : k ≤ n) (hk : k < cfg.pageCount) :
    ∃ pool' n', poolFor cfg pool (k * cfg.pageSize) = .ok pool' ∧ PoolSized cfg pool' n' ∧
      k < n' ∧ ∀ j < k, page cfg.pageSize j pool' = page cfg.pageSize j pool := by
  rw [poolFor]
  split_ifs with hfull
  · have hn : n = k := by
      rw [hpool.2] at hfull
      exact le_antisymm (le_of_mul_le_mul_right hfull hpos) hle
    subst hn
    exact growPagePool_spec hpool hpos hk
  · grind [hpool.2, not_le]

theorem setView_pool {n k : ℕ} (hpool : PoolSized cfg pool n) (hk : k < n) {source : List Word}
    (hsource : source.length = cfg.pageSize) :
    setView pool (k * cfg.pageSize : ℕ) (k * cfg.pageSize + cfg.pageSize : ℕ) source =
      some (overwrite pool (k * cfg.pageSize) source) := by
  have hend : (k + 1) * cfg.pageSize ≤ pool.length := by
    rw [hpool.2]
    exact mul_le_mul_right _ hk
  rw [succ_mul] at hend
  rw [← hsource] at hend ⊢
  exact setView_natCast hend

theorem length_page_of_lt (hdata : data.length = cfg.size) (hp : p < cfg.pageCount) :
    (page cfg.pageSize p data).length = cfg.pageSize := by
  have hend : (p + 1) * cfg.pageSize ≤ data.length := by
    rw [hdata, TrackerConfig.size, mul_comm cfg.pageSize]
    exact mul_le_mul_right _ hp
  rw [succ_mul] at hend
  rw [length_page]
  omega

theorem takePage_taken (hpos : 0 < cfg.pageSize) (hdata : data.length = cfg.size)
    (hp : p < cfg.pageCount) (hmarked : marked bits p)
    (h : Taken cfg data bits dirtyPages p s) :
    Ensures (takePage cfg data s) (Taken cfg data bits dirtyPages (p + 1)) fun _ => False := by
  obtain ⟨iPage, page, scheduledPages, pagePool, dirty⟩ := s
  obtain ⟨hpage, hlength, hcount, hscheduled, ⟨n, hpool, hle⟩, hpages, hdirty⟩ := h
  dsimp only at hpage hlength hcount hscheduled hpool hle hpages hdirty
  subst hpage hdirty
  have hiPage : iPage < cfg.pageCount := by
    have := length_markedPages_le bits page
    omega
  have hsource : (PagedArray.page cfg.pageSize page data).length = cfg.pageSize :=
    length_page_of_lt hdata hp
  obtain ⟨pool', n', hgrow, hpool', hlt, hkept⟩ := poolFor_spec hpool hpos hle hiPage
  have hsub : subarray data (page * cfg.pageSize : ℕ) (page * cfg.pageSize + cfg.pageSize : ℕ) =
      PagedArray.page cfg.pageSize page data := by
    rw [← succ_mul, subarray_page]
  have hstart : iPage * cfg.pageSize ≤ pool'.length := by
    rw [hpool'.2]
    exact mul_le_mul_right _ hlt.le
  have hfits : (PagedArray.page cfg.pageSize iPage pool').length = cfg.pageSize := by
    have hend : (iPage + 1) * cfg.pageSize ≤ pool'.length := by
      rw [hpool'.2]
      exact mul_le_mul_right _ hlt
    rw [succ_mul] at hend
    rw [length_page]
    omega
  have hwritten := page_overwrite hstart (hsource.trans hfits.symm)
  unfold takePage
  dsimp only
  rw [hgrow]
  dsimp only [bind, Except.bind]
  rw [hsub, setView_pool hpool' hlt hsource]
  have hsucc : markedPages bits (page + 1) = markedPages bits page ++ [page] := by
    grind [markedPages_succ]
  refine ⟨rfl, (length_set ..).trans hlength, ?_, ?_, ⟨n', ⟨hpool'.1, ?_⟩, hlt⟩, ?_, rfl⟩
  · rw [hsucc, length_append, ← hcount]
    rfl
  · rw [take_set (by omega), hscheduled, hsucc]
  · rw [length_overwrite, hpool'.2]
    rw [hsource, ← succ_mul, hpool'.2]
    exact mul_le_mul_right _ hlt
  · intro k q hq
    rw [hwritten]
    rw [hsucc] at hq
    by_cases hk : k = iPage
    · grind
    · have hklt : k < iPage := by grind [length_append, length_singleton]
      rw [getElem?_append_left (by omega)] at hq
      rw [if_neg hk, hkept k hklt]
      exact hpages k q hq

theorem markedPages_skip {m : ℕ} (h : ∀ q, p ≤ q → q < p + m → ¬ marked bits q) :
    markedPages bits (p + m) = markedPages bits p := by
  induction m with
  | zero => rfl
  | succ m ih => grind [markedPages_succ]

theorem Taken.skip (h : Taken cfg data bits dirtyPages p s) {m : ℕ}
    (hno : ∀ q, p ≤ q → q < p + m → ¬ marked bits q) :
    Taken cfg data bits dirtyPages (p + m) { s with page := s.page + m } := by
  have hsame := markedPages_skip hno
  refine ⟨congrArg (· + m) h.page, h.length, ?_, ?_, h.pool, ?_, h.dirtyPages⟩
  · rw [hsame]
    exact h.count
  · rw [hsame]
    exact h.scheduled
  · rw [hsame]
    exact h.pages

section Loops

variable {i j k : ℕ}

/-- The bit of a page in the byte that the loop has reached. -/
theorem byte_bit (bits : List Word) (i j : ℕ) {k : ℕ} (hj : j < 4) (hk : k < 8) :
    ((bits.getD i 0 >>> (8 * j)) &&& 0xff).getLsbD k = true ↔ marked bits (32 * i + 8 * j + k) := by
  have hword : (32 * i + 8 * j + k) / 32 = i := by omega
  have hbit : (32 * i + 8 * j + k) % 32 = 8 * j + k := by omega
  have hff : (0xff : Word).getLsbD k = true := by
    interval_cases k <;> decide
  rw [marked, hword, hbit, BitVec.getLsbD_and, hff, Bool.and_true, BitVec.getLsbD_ushiftRight]

theorem takeMask_taken (hpos : 0 < cfg.pageSize) (hdata : data.length = cfg.size)
    (hmarks : ∀ q, marked bits q → q < cfg.pageCount) (hj : j < 4) (hk : k < 8)
    (h : Taken cfg data bits dirtyPages (32 * i + 8 * j + k) s) :
    Ensures (takeMask cfg data ((bits.getD i 0 >>> (8 * j)) &&& 0xff) s k)
      (Taken cfg data bits dirtyPages (32 * i + 8 * j + (k + 1))) fun _ => False := by
  have hbit := byte_bit bits i j hj hk
  rw [takeMask]
  split_ifs with hmask
  · rw [BitTest.and_bit_eq_zero (by omega : k < 32)] at hmask
    have hno : ∀ q, 32 * i + 8 * j + k ≤ q → q < 32 * i + 8 * j + k + 1 → ¬ marked bits q := by
      intro q hle hlt
      obtain rfl : q = 32 * i + 8 * j + k := by omega
      rw [← hbit, hmask]
      exact Bool.false_ne_true
    exact h.skip hno
  · have hmarked := hbit.mp ((BitTest.and_bit_ne_zero (by omega : k < 32)).mp hmask)
    exact takePage_taken hpos hdata (hmarks _ hmarked) hmarked h

theorem takeByte_taken (hpos : 0 < cfg.pageSize) (hdata : data.length = cfg.size)
    (hmarks : ∀ q, marked bits q → q < cfg.pageCount) (hj : j < 4) {w : Word}
    (hw : w = bits.getD i 0 >>> (8 * j)) (h : Taken cfg data bits dirtyPages (32 * i + 8 * j) s) :
    Ensures (takeByte cfg data (w, s) j)
      (fun s' => s'.1 = bits.getD i 0 >>> (8 * (j + 1)) ∧
        Taken cfg data bits dirtyPages (32 * i + 8 * (j + 1)) s'.2) fun _ => False := by
  subst hw
  have hshift : (bits.getD i 0 >>> (8 * j)) >>> 8 = bits.getD i 0 >>> (8 * (j + 1)) := by
    rfl
  rw [takeByte]
  split_ifs with hzero
  · have hnext : 32 * i + 8 * (j + 1) = 32 * i + 8 * j + 8 := by ring
    rw [hnext]
    refine ⟨hshift, h.skip ?_⟩
    intro q hle hlt hmarked
    have hq : q = 32 * i + 8 * j + (q - (32 * i + 8 * j)) := by omega
    rw [hq, ← byte_bit bits i j hj (by omega), hzero] at hmarked
    simp at hmarked
  · have hloop : Ensures ((List.range 8).foldlM
        (takeMask cfg data ((bits.getD i 0 >>> (8 * j)) &&& 0xff)) s)
        (Taken cfg data bits dirtyPages (32 * i + 8 * j + 8)) fun _ => False := by
      apply Ensures.foldlM_range (I := fun k => Taken cfg data bits dirtyPages (32 * i + 8 * j + k)) h
      intro k hk s hs
      exact takeMask_taken hpos hdata hmarks hj hk hs
    exact hloop.bind fun t ht => ⟨hshift, ht⟩

def cleared (bits : List Word) (i : ℕ) : List Word := List.replicate i 0 ++ bits.drop i

theorem getD_cleared (bits : List Word) (i : ℕ) : (cleared bits i).getD i 0 = bits.getD i 0 := by
  rw [cleared, getD_eq_getElem?_getD, getElem?_append_right (by simp), getElem?_drop]
  simp

theorem set_cleared (bits : List Word) (hi : i < bits.length) :
    (cleared bits i).set i 0 = cleared bits (i + 1) := by
  rw [cleared, set_append_right _ _ (by simp), length_replicate, Nat.sub_self,
    drop_eq_getElem_cons hi, set_cons_zero, cleared, replicate_succ',
    append_assoc]
  rfl

theorem cleared_succ (hi : i < bits.length) (hzero : bits.getD i 0 = 0) :
    cleared bits (i + 1) = cleared bits i := by
  have hget : bits[i] = 0 := by
    rwa [getD_eq_getElem?_getD, getElem?_eq_getElem hi] at hzero
  rw [cleared, cleared, drop_eq_getElem_cons hi, hget, replicate_succ', append_assoc]
  rfl

theorem takeWord_taken (hpos : 0 < cfg.pageSize) (hdata : data.length = cfg.size)
    (hmarks : ∀ q, marked bits q → q < cfg.pageCount) (hi : i < bits.length)
    (h : Taken cfg data bits (cleared bits i) (32 * i) s) :
    Ensures (takeWord cfg data s i) (Taken cfg data bits (cleared bits (i + 1)) (32 * (i + 1)))
      fun _ => False := by
  have hword : s.dirtyPages.getD i 0 = bits.getD i 0 := by
    rw [h.dirtyPages, getD_cleared]
  rw [takeWord, hword]
  split_ifs with hzero
  · have hnext : 32 * (i + 1) = 32 * i + 32 := by ring
    rw [cleared_succ hi hzero, hnext]
    refine h.skip ?_
    intro q hle hlt hmarked
    have hq : q / 32 = i := by omega
    rw [marked, hq, hzero] at hmarked
    simp at hmarked
  · have hloop : Ensures ((List.range 4).foldlM (takeByte cfg data) (bits.getD i 0, s))
        (fun s' => s'.1 = bits.getD i 0 >>> (8 * 4) ∧
          Taken cfg data bits (cleared bits i) (32 * i + 8 * 4) s'.2) fun _ => False := by
      apply Ensures.foldlM_range (I := fun j (s' : Word × Taking) =>
        s'.1 = bits.getD i 0 >>> (8 * j) ∧
          Taken cfg data bits (cleared bits i) (32 * i + 8 * j) s'.2)
      · exact ⟨rfl, h⟩
      · rintro j hj ⟨w, s'⟩ ⟨hw, hs'⟩
        exact takeByte_taken hpos hdata hmarks hj hw hs'
    apply hloop.bind
    rintro ⟨w, t⟩ ⟨-, ht⟩
    refine ⟨ht.page, ht.length, ht.count, ht.scheduled, ht.pool, ht.pages, ?_⟩
    rw [ht.dirtyPages, set_cleared bits hi]

end Loops

def SnapshotPages.pages (snapshot : SnapshotPages) : List ℕ :=
  snapshot.scheduledPages.take snapshot.scheduledPageCount

structure Carries (cfg : TrackerConfig) (data : List Word) (snapshot : SnapshotPages) : Prop where
  length : snapshot.scheduledPages.length = cfg.pageCount
  count : snapshot.pages.length = snapshot.scheduledPageCount
  pool : ∃ n, PoolSized cfg snapshot.pagePool n ∧ snapshot.scheduledPageCount ≤ n
  bound : ∀ q ∈ snapshot.pages, q < cfg.pageCount
  contents : ∀ k q, snapshot.pages[k]? = some q →
    page cfg.pageSize k snapshot.pagePool = page cfg.pageSize q data

structure Ready (cfg : TrackerConfig) (t : DirtyPageTracker) : Prop where
  length : t.scheduledPages.length = cfg.pageCount
  pool : ∃ n, PoolSized cfg t.pagePool n
  count : t.scheduledPageCount = 0

/-- What `takeSnapshot` leaves behind: all marks have gone to the snapshot. -/
structure SnapshotTaken (cfg : TrackerConfig) (m : Memory) (t' : DirtyPageTracker) (m' : Memory)
    (snapshot : Option SnapshotPages) : Prop where
  data : m'.data = m.data
  wellFormed : m'.WellFormed cfg
  unmarked : ∀ p, ¬ marked m'.dirtyPages p
  none : snapshot = none → (∀ p, ¬ marked m.dirtyPages p) ∧ Ready cfg t'
  some : ∀ pages, snapshot = some pages → Carries cfg m.data pages ∧
    (∀ p, marked m.dirtyPages p ↔ p ∈ pages.pages) ∧ 0 < t'.scheduledPageCount ∧
    t'.scheduledPageCount = pages.scheduledPageCount

theorem not_marked_cleared (bits : List Word) (p : ℕ) :
    ¬ marked (cleared bits bits.length) p := by
  rw [marked, cleared, drop_length, append_nil, getD_eq_getElem?_getD,
    getElem?_replicate]
  split_ifs <;> simp

theorem setDirty_fields (cfg : TrackerConfig) (m : Memory) (value : Bool) :
    (setDirty cfg m value).data = m.data ∧ (setDirty cfg m value).dirtyPages = m.dirtyPages := by
  unfold setDirty
  split <;> exact ⟨rfl, rfl⟩

/-- A memory without marks is well formed whatever its flag says. -/
theorem Memory.WellFormed.unmarked {m m' : Memory} (h : m.WellFormed cfg)
    (hdata : m'.data = m.data) (hlength : m'.dirtyPages.length = m.dirtyPages.length)
    (hno : ∀ p, ¬ marked m'.dirtyPages p) : m'.WellFormed cfg where
  pos := h.pos
  data := by rw [hdata]; exact h.data
  dirtyPages := hlength.trans h.dirtyPages
  marks := fun p hp => absurd hp (hno p)
  flag := fun _ => hno

theorem bits_lt_of_marked {m : Memory} {p : ℕ} (hp : marked m.dirtyPages p) :
    p < 32 * m.dirtyPages.length := by
  by_contra hge
  have hout : m.dirtyPages.length ≤ p / 32 := by omega
  rw [marked, getD_eq_getElem?_getD, getElem?_eq_none hout] at hp
  simp at hp

theorem takeSnapshot_spec {t : DirtyPageTracker} {m : Memory} (hm : m.WellFormed cfg)
    (ht : Ready cfg t) (crcCheck : Bool) :
    ∃ t' m' snapshot, takeSnapshot cfg crcCheck t m = .ok ((t', m'), snapshot) ∧
      SnapshotTaken cfg m t' m' snapshot := by
  rw [takeSnapshot]
  by_cases hdirty : isDirty cfg m = true
  swap
  · have hno := hm.flag (Bool.not_eq_true _ ▸ hdirty)
    rw [if_pos hdirty]
    exact ⟨t, m, .none, rfl, rfl, hm, hno, fun _ => ⟨hno, ht⟩, fun _ h => nomatch h⟩
  rw [if_neg (not_not.mpr hdirty)]
  have hstart : Taken cfg m.data m.dirtyPages (cleared m.dirtyPages 0) (32 * 0)
      ⟨0, 0, t.scheduledPages, t.pagePool, m.dirtyPages⟩ := by
    obtain ⟨n, hn⟩ := ht.pool
    exact ⟨rfl, ht.length, rfl, rfl, ⟨n, hn, zero_le n⟩, fun k q h => (nomatch h), rfl⟩
  have hloop : Ensures ((List.range m.dirtyPages.length).foldlM (takeWord cfg m.data)
      ⟨0, 0, t.scheduledPages, t.pagePool, m.dirtyPages⟩)
      (Taken cfg m.data m.dirtyPages (cleared m.dirtyPages m.dirtyPages.length)
        (32 * m.dirtyPages.length)) fun _ => False := by
    apply Ensures.foldlM_range (I := fun i =>
      Taken cfg m.data m.dirtyPages (cleared m.dirtyPages i) (32 * i)) hstart
    intro i hi s hs
    exact takeWord_taken hm.pos hm.data hm.marks hi hs
  cases hrun : (List.range m.dirtyPages.length).foldlM (takeWord cfg m.data)
      ⟨0, 0, t.scheduledPages, t.pagePool, m.dirtyPages⟩ with
  | error e =>
    rw [hrun] at hloop
    exact hloop.elim
  | ok s =>
    have hs := hloop.of_ok hrun
    have hall : ∀ p, p ∈ markedPages m.dirtyPages (32 * m.dirtyPages.length) ↔
        marked m.dirtyPages p :=
      fun p => mem_markedPages.trans (and_iff_right_of_imp bits_lt_of_marked)
    have hunmarked : ∀ p, ¬ marked s.dirtyPages p := by
      rw [hs.dirtyPages]
      exact not_marked_cleared m.dirtyPages
    have hlength : s.dirtyPages.length = m.dirtyPages.length := by
      rw [hs.dirtyPages, cleared, drop_length, append_nil, length_replicate]
    change ∃ t' m' snapshot, (if s.iPage > 0 then _ else _ : Except _ _) = _ ∧ _
    by_cases hsome : s.iPage > 0
    · rw [if_pos hsome]
      obtain ⟨hdata, hbits⟩ := setDirty_fields cfg { m with dirtyPages := s.dirtyPages } false
      have hno : ∀ p,
          ¬ marked (setDirty cfg { m with dirtyPages := s.dirtyPages } false).dirtyPages p := by
        grind
      refine ⟨_, _, _, rfl, hdata, hm.unmarked hdata (by rw [hbits]; exact hlength) hno, hno,
        fun h => (nomatch h), ?_⟩
      rintro pages ⟨⟩
      obtain ⟨n, hpool, hle⟩ := hs.pool
      refine ⟨⟨hs.length, ?_, ⟨n, hpool, hle⟩, ?_, ?_⟩, ?_, hsome, rfl⟩
      · exact (congrArg List.length hs.scheduled).trans hs.count.symm
      · intro q hq
        rw [SnapshotPages.pages, hs.scheduled, hall] at hq
        exact hm.marks q hq
      · intro k q hq
        rw [SnapshotPages.pages, hs.scheduled] at hq
        exact hs.pages k q hq
      · intro p
        rw [SnapshotPages.pages, hs.scheduled, hall]
    · rw [if_neg hsome]
      have hnone : s.iPage = 0 := by omega
      have hempty : markedPages m.dirtyPages (32 * m.dirtyPages.length) = [] := by
        rw [← length_eq_zero_iff, ← hs.count, hnone]
      have hno : ∀ p, ¬ marked m.dirtyPages p := by grind
      obtain ⟨n, hpool, -⟩ := hs.pool
      refine ⟨_, _, _, rfl, rfl, hm.unmarked rfl hlength hunmarked, hunmarked,
        fun _ => ⟨hno, hs.length, ⟨n, hpool⟩, hnone⟩, fun _ h => nomatch h⟩

end Cloudpilot.Uarm.SnapshotProtocol
