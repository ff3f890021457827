import Cloudpilot.Uarm.Snapshot.Database

/-! # Storing a snapshot

Whatever happens to a transaction, a page of the database is the page it was or the page
that was sent. After a transaction that completes, all pages that were sent are there.
-/
namespace Cloudpilot.Uarm.SnapshotProtocol
open Library Library.TypedArray Library.PagedArray List

variable {k : Kind} {count : Kind → ℕ} {store store' : ObjectStore ℕ StoredPage}
  {data : List Word} {pages : SnapshotPages} {p q : ℕ}

theorem compressPage_decode {n : ℕ} {page : List Word} (hn : 0 < n) (hpage : page.length = n) :
    (compressPage page).decode n = page := by
  cases page with
  | nil => rfl
  | cons fst rest =>
    rw [compressPage]
    split_ifs with hall
    · rw [StoredPage.decode, ← hpage]
      apply (eq_replicate_iff.mpr ⟨rfl, ?_⟩).symm
      intro w hw
      rcases mem_cons.mp hw with rfl | hw
      · rfl
      · grind
    · rfl

theorem storedPage_put (k : Kind) (store : ObjectStore ℕ StoredPage) (v : StoredPage) (q p : ℕ) :
    storedPage k (store.put v q) p = if p = q then v.decode k.pageSize else storedPage k store p := by
  rw [storedPage, ObjectStore.get_put, storedPage]
  split_ifs <;> rfl

theorem Sound.put {n : ℕ} (h : Sound k n store) {v : StoredPage} (hq : q < n)
    (hv : (v.decode k.pageSize).length = k.pageSize) : Sound k n (store.put v q) := by
  intro p w hget
  rw [ObjectStore.get_put] at hget
  split_ifs at hget with hp
  · grind
  · exact h p w hget

/-- Page buffers of the database thread. -/
def Retained (k : Kind) (pool : List (List Word)) : Prop := ∀ buffer ∈ pool, buffer.length = k.pageSize

/-- The buffers while pages are stored. -/
def Storing.Pooled (k : Kind) (s : Storing) : Prop :=
  Retained k s.retainedPagePool ∧ s.iPool ≤ s.retainedPagePool.length

theorem Storing.put_ensures (s : Storing) (v : StoredPage) (key : ℕ) :
    Ensures (s.put v key)
      (fun s' => s'.store = s.store.put v key ∧ s'.retainedPagePool = s.retainedPagePool ∧
        s'.iPool = s.iPool)
      fun s' => s' = s := by
  rw [Storing.put]
  split_ifs
  · rfl
  · exact ⟨rfl, rfl, rfl⟩

theorem pooled_push {s : Storing} (h : s.Pooled k) :
    Retained k (s.retainedPagePool ++ [List.replicate k.pageSize 0]) ∧
      s.iPool < (s.retainedPagePool ++ [List.replicate k.pageSize (0 : Word)]).length := by
  constructor
  · intro buffer hbuffer
    rcases mem_append.mp hbuffer with hold | hnew
    · exact h.1 buffer hold
    · rw [mem_singleton.mp hnew, length_replicate]
  · rw [length_append, length_singleton]
    exact Nat.lt_succ_of_le h.2

theorem overwrite_whole {buffer page : List Word} (h : buffer.length = page.length) :
    overwrite buffer 0 page = page := by
  rw [overwrite, take_zero, nil_append, Nat.zero_add, drop_eq_nil_of_le h.le,
    append_nil]

theorem storePage_ensures (hdata : data.length = (k.config count).size)
    (hcarries : Carries (k.config count) data pages) {s : Storing} (hs : s.Pooled k) {i : ℕ}
    (hq : pages.pages[i]? = some q) :
    Ensures (storePage k.pageSize pages s i)
      (fun s' => (∃ v : StoredPage, v.decode k.pageSize = page k.pageSize q data ∧
        s'.store = s.store.put v q) ∧ s'.Pooled k)
      fun s' => s'.store = s.store ∧ s'.Pooled k := by
  have hlt : q < count k := hcarries.bound q (List.mem_of_getElem? hq)
  have hkey : pages.scheduledPages.getD i 0 = q := by
    have hi := (List.getElem?_eq_some_iff.mp hq).1
    rw [hcarries.count] at hi
    rw [SnapshotPages.pages, List.getElem?_take_of_lt hi] at hq
    rw [List.getD_eq_getElem?_getD, hq]
    rfl
  have hlength : (page k.pageSize q data).length = k.pageSize :=
    length_page_of_lt hdata hlt
  have hdecode := compressPage_decode k.pageSize_pos hlength
  rw [storePage]
  have hcontents : page k.pageSize i pages.pagePool = page k.pageSize q data :=
    hcarries.contents i q hq
  rw [hkey, subarray_page, hcontents]
  cases hpage : compressPage (page k.pageSize q data) with
  | number value =>
    rw [hpage] at hdecode
    apply (s.put_ensures (.number value) q).imp
    · rintro s' ⟨hstore, hpool, hiPool⟩
      exact ⟨⟨_, hdecode, hstore⟩, by rw [Storing.Pooled, hpool, hiPool]; exact hs⟩
    · grind
  | words words =>
    rw [hpage] at hdecode
    have hwords : words = page k.pageSize q data := hdecode
    have hwlength : words.length = k.pageSize := by rw [hwords, hlength]
    obtain ⟨hretained, hiPool⟩ := pooled_push hs
    dsimp only
    rw [if_pos hs.2]
    set pool := s.retainedPagePool ++ [List.replicate k.pageSize 0] with hpool
    have hbuffer : (pool.getD s.iPool []).length = k.pageSize := by
      rw [List.getD_eq_getElem?_getD, List.getElem?_eq_getElem hiPool]
      exact hretained _ (List.getElem_mem hiPool)
    rw [if_neg (by omega), overwrite_whole (hbuffer.trans hwlength.symm)]
    have hset : Retained k (pool.set s.iPool words) := by
      intro buffer hmem
      rcases List.mem_or_eq_of_mem_set hmem with hold | rfl
      · exact hretained buffer hold
      · exact hwlength
    have hnext : s.iPool + 1 ≤ (pool.set s.iPool words).length := by grind
    apply (Storing.put_ensures _ (.words words) q).imp
    · rintro s' ⟨hstore, hpool', hiPool'⟩
      exact ⟨⟨_, hdecode, hstore⟩, by rw [Storing.Pooled, hpool', hiPool']; exact ⟨hset, hnext⟩⟩
    · rintro s' rfl
      exact ⟨rfl, hset, hnext⟩

def Scheduled (pages : Option SnapshotPages) (p : ℕ) : Prop := ∃ sp ∈ pages, p ∈ sp.pages

/-- A store before and after pages of an array have been sent to it. -/
structure Sent (k : Kind) (n : ℕ) (data : List Word) (pages : Option SnapshotPages)
    (store store' : ObjectStore ℕ StoredPage) : Prop where
  sound : Sound k n store'
  either : ∀ p, storedPage k store' p = storedPage k store p ∨
    Scheduled pages p ∧ storedPage k store' p = page k.pageSize p data

theorem Sent.refl (h : Sound k (count k) store) (data : List Word) (pages : Option SnapshotPages) :
    Sent k (count k) data pages store store := ⟨h, fun _ => .inl rfl⟩

theorem Sent.put {pages : Option SnapshotPages} (h : Sent k (count k) data pages store store')
    {v : StoredPage} (hdata : data.length = (k.config count).size) (hq : q < count k)
    (hsched : Scheduled pages q) (hv : v.decode k.pageSize = page k.pageSize q data) :
    Sent k (count k) data pages store (store'.put v q) := by
  have hlength : (v.decode k.pageSize).length = k.pageSize := by
    rw [hv]
    exact length_page_of_lt hdata hq
  refine ⟨h.sound.put hq hlength, fun p => ?_⟩
  rw [storedPage_put]
  by_cases hp : p = q
  · grind
  · rw [if_neg hp]
    exact h.either p

def FirstStored (k : Kind) (data : List Word) (pages : SnapshotPages)
    (store : ObjectStore ℕ StoredPage) (n : ℕ) : Prop :=
  ∀ j < n, ∀ q, pages.pages[j]? = some q → storedPage k store q = page k.pageSize q data

theorem storePages_ensures (hdata : data.length = (k.config count).size)
    (hcarries : Carries (k.config count) data pages) {s : Storing} (hs : s.Pooled k)
    (hsent : Sent k (count k) data (some pages) store s.store) :
    Ensures ((List.range pages.scheduledPageCount).foldlM (storePage k.pageSize pages) s)
      (fun s' => Sent k (count k) data (some pages) store s'.store ∧ s'.Pooled k ∧
        FirstStored k data pages s'.store pages.scheduledPageCount)
      fun s' => Sent k (count k) data (some pages) store s'.store ∧ s'.Pooled k := by
  apply Ensures.foldlM_range (I := fun n (s' : Storing) =>
    Sent k (count k) data (some pages) store s'.store ∧ s'.Pooled k ∧
      FirstStored k data pages s'.store n)
  · exact ⟨hsent, hs, fun j hj => absurd hj (Nat.not_lt_zero j)⟩
  · rintro i hi s ⟨hsent, hs, hfirst⟩
    have hlt : i < pages.pages.length := by
      rwa [hcarries.count]
    have hq := getElem?_eq_getElem hlt
    have hmem : pages.pages[i] ∈ pages.pages := getElem_mem hlt
    apply (storePage_ensures hdata hcarries hs hq).imp
    · rintro s' ⟨⟨v, hv, hstore⟩, hs'⟩
      rw [hstore]
      refine ⟨hsent.put hdata (hcarries.bound _ hmem) ⟨pages, rfl, hmem⟩ hv, hs', ?_⟩
      intro j hj q hjq
      rw [storedPage_put]
      split_ifs with hsame
      · rw [hsame, hv]
      · have hji : j ≠ i := by grind
        exact hfirst j (by omega) q hjq
    · grind

theorem FirstStored.all (h : FirstStored k data pages store pages.scheduledPageCount)
    (hcount : pages.pages.length = pages.scheduledPageCount) (hp : Scheduled (some pages) p) :
    storedPage k store p = page k.pageSize p data := by
  obtain ⟨sp, hsp, hmem⟩ := hp
  cases hsp
  obtain ⟨j, hj, hget⟩ := getElem_of_mem hmem
  apply h j (by omega) p
  rw [getElem?_eq_getElem hj, hget]

/-- What holds of a transaction that has completed the memories in `done`. -/
structure TransactionOk (count : Kind → ℕ) (data : Kind → List Word) (snapshot : Snapshot)
    (image : Kind → ImageStore) (done : Kind → Prop) (tx : Transaction) : Prop where
  sent : ∀ k, Sent k (count k) (data k) (snapshot k) (image k).pages (tx.image k).pages
  retained : ∀ k, Retained k (tx.retained k)
  done : ∀ k, done k → ∀ p, Scheduled (snapshot k) p →
    storedPage k (tx.image k).pages p = page k.pageSize p (data k)

variable {datas : Kind → List Word} {snapshot : Snapshot} {image : Kind → ImageStore}
  {done : Kind → Prop} {tx : Transaction}

theorem Transaction.update_self (tx : Transaction) (k : Kind) (s : Storing) (crc : Option Word) :
    ((tx.update k s crc).image k).pages = s.store ∧
      (tx.update k s crc).retained k = s.retainedPagePool :=
  ⟨congrArg ImageStore.pages (Function.update_self k _ tx.image), Function.update_self k _ tx.retained⟩

theorem Transaction.update_of_ne (tx : Transaction) {k k' : Kind} (h : k' ≠ k) (s : Storing)
    (crc : Option Word) : (tx.update k s crc).image k' = tx.image k' ∧
      (tx.update k s crc).retained k' = tx.retained k' :=
  ⟨Function.update_of_ne h _ tx.image, Function.update_of_ne h _ tx.retained⟩

theorem TransactionOk.update (h : TransactionOk count datas snapshot image done tx) {s : Storing}
    {crc : Option Word} (now : Prop)
    (hsent : Sent k (count k) (datas k) (snapshot k) (image k).pages s.store)
    (hretained : Retained k s.retainedPagePool)
    (hnow : now → ∀ p, Scheduled (snapshot k) p →
      storedPage k s.store p = page k.pageSize p (datas k)) :
    TransactionOk count datas snapshot image (fun k' => if k' = k then now else done k')
      (tx.update k s crc) := by
  refine ⟨fun k' => ?_, fun k' => ?_, fun k' => ?_⟩
  · by_cases hk : k' = k
    · subst hk
      rwa [(tx.update_self k' s crc).1]
    · rw [(tx.update_of_ne hk s crc).1]
      exact h.sent k'
  · by_cases hk : k' = k
    · subst hk
      rwa [(tx.update_self k' s crc).2]
    · rw [(tx.update_of_ne hk s crc).2]
      exact h.retained k'
  · by_cases hk : k' = k
    · subst hk
      rwa [if_pos rfl, (tx.update_self k' s crc).1]
    · rw [if_neg hk, (tx.update_of_ne hk s crc).1]
      exact h.done k'

theorem TransactionOk.mono {done' : Kind → Prop}
    (h : TransactionOk count datas snapshot image done tx) (hdone : ∀ k, done' k → done k) :
    TransactionOk count datas snapshot image done' tx :=
  ⟨h.sent, h.retained, fun k hk => h.done k (hdone k hk)⟩

theorem storeKind_ensures (hdata : ∀ k, (datas k).length = (k.config count).size)
    (hcarries : ∀ k, ∀ sp ∈ snapshot k, Carries (k.config count) (datas k) sp)
    (h : TransactionOk count datas snapshot image done tx) (k : Kind) :
    Ensures (storeKind snapshot tx k)
      (TransactionOk count datas snapshot image fun k' => k' = k ∨ done k')
      (TransactionOk count datas snapshot image fun _ => False) := by
  rw [storeKind]
  cases hk : snapshot k with
  | none =>
    refine ⟨h.sent, h.retained, fun k' hk' p hp => ?_⟩
    rcases hk' with rfl | hk'
    · rw [hk] at hp
      obtain ⟨sp, hsp, -⟩ := hp
      cases hsp
    · exact h.done k' hk' p hp
  | some pages =>
    have hloop := storePages_ensures (hdata k) (hcarries k pages hk)
      (s := ⟨(tx.image k).pages, tx.retained k, 0, tx.requests⟩)
      ⟨h.retained k, Nat.zero_le _⟩ (hk ▸ h.sent k)
    dsimp only
    cases hrun : (List.range pages.scheduledPageCount).foldlM (storePage k.pageSize pages)
        ⟨(tx.image k).pages, tx.retained k, 0, tx.requests⟩ with
    | error s =>
      obtain ⟨hsent, hpool⟩ := hloop.of_error hrun
      exact (h.update False (by rw [hk]; exact hsent) hpool.1 False.elim).mono
        fun _ => False.elim
    | ok s =>
      obtain ⟨hsent, hpool, hfirst⟩ := hloop.of_ok hrun
      have hall : ∀ p, Scheduled (snapshot k) p →
          storedPage k s.store p = page k.pageSize p (datas k) := by
        intro p hp
        rw [hk] at hp
        exact hfirst.all (hcarries k pages hk).count hp
      have hsent' : Sent k (count k) (datas k) (snapshot k) (image k).pages s.store := by grind
      dsimp only
      split_ifs
      · exact (h.update False hsent' hpool.1 False.elim).mono fun _ => False.elim
      · apply (h.update True (s := { s with requests := s.requests - 1 }) hsent' hpool.1
          fun _ => hall).mono
        intro k' hk'
        by_cases hsame : k' = k <;> grind

/-- What any transaction leaves in the database, and what a fulfilled promise means. -/
structure Stored (count : Kind → ℕ) (data : Kind → List Word) (snapshot : Snapshot)
    (t t' : DatabaseThread) (success : Bool) : Prop where
  sent : ∀ k, Sent k (count k) (data k) (snapshot k) (t.database.image k).pages
    (t'.database.image k).pages
  retained : ∀ k, Retained k (t'.retained k)
  complete : success = true → ∀ k p, Scheduled (snapshot k) p →
    storedPage k (t'.database.image k).pages p = page k.pageSize p (data k)

theorem storeSnapshot_stored {t : DatabaseThread}
    (hsound : ∀ k, Sound k (count k) (t.database.image k).pages)
    (hretained : ∀ k, Retained k (t.retained k))
    (hdata : ∀ k, (datas k).length = (k.config count).size)
    (hcarries : ∀ k, ∀ sp ∈ snapshot k, Carries (k.config count) (datas k) sp)
    (outcome : StoreOutcome) :
    Stored count datas snapshot t (storeSnapshot t snapshot outcome).1
      (storeSnapshot t snapshot outcome).2 := by
  have hself : ∀ k, Sent k (count k) (datas k) (snapshot k) (t.database.image k).pages
      (t.database.image k).pages := fun k => .refl (hsound k) _ _
  have hstart : TransactionOk count datas snapshot t.database.image (fun _ => False)
      ⟨t.database.image, t.retained, outcome.requests⟩ :=
    ⟨hself, hretained, fun _ => False.elim⟩
  have hall : Ensures ([Kind.nand, Kind.sd, Kind.ram].foldlM (storeKind snapshot)
      ⟨t.database.image, t.retained, outcome.requests⟩)
      (TransactionOk count datas snapshot t.database.image fun _ => True)
      (TransactionOk count datas snapshot t.database.image fun _ => False) := by
    simp only [foldlM_cons, foldlM_nil, bind_pure]
    apply (storeKind_ensures hdata hcarries hstart .nand).bind
    intro tx htx
    apply (storeKind_ensures hdata hcarries htx .sd).bind
    intro tx htx
    apply (storeKind_ensures hdata hcarries htx .ram).imp
    · intro tx htx
      apply htx.mono
      rintro (_ | _ | _) - <;> simp
    · simp
  rw [storeSnapshot]
  by_cases hlock : ¬ outcome.lock = true
  · rw [if_pos hlock]
    exact ⟨hself, hretained, fun h => (nomatch h)⟩
  rw [if_neg hlock]
  cases hrun : [Kind.nand, Kind.sd, Kind.ram].foldlM (storeKind snapshot)
      ⟨t.database.image, t.retained, outcome.requests⟩ with
  | error tx =>
    have htx := hall.of_error hrun
    cases hcommits : outcome.commits with
    | true => exact ⟨htx.sent, htx.retained, fun h => (nomatch h)⟩
    | false => exact ⟨hself, htx.retained, fun h => (nomatch h)⟩
  | ok tx =>
    have htx := hall.of_ok hrun
    cases hcommits : outcome.commits with
    | true => exact ⟨htx.sent, htx.retained, fun _ k => htx.done k trivial⟩
    | false => exact ⟨hself, htx.retained, fun h => (nomatch h)⟩

end Cloudpilot.Uarm.SnapshotProtocol
