import Cloudpilot.Uarm.ICache.History

/-! # Coherence of the instruction cache

What a fetch may return, for every run of the cache: bytes of its own line that no
invalidation followed, and exactly the bytes of an uncached fetch when every change
of a line is followed by an invalidation. Runs that meet the missing tag bits do
not have this; the others do.
-/

namespace Cloudpilot.Uarm.ICache

open Cloudpilot.Uarm.Cpu Cloudpilot.Uarm.MMU Cloudpilot.Library List

section

/-- What uncached fetches in the line of the address read has not changed since the snapshots,
and if the line is cached it is read from the RAM or the ROM. -/
structure Unchanged (snap : Word → Icache) (ic : Icache) (va : Word) : Prop where
  same : ∀ (sz : FetchSize) (b : Word), SameLine b va →
    uncachedFetch (snap b) sz b = uncachedFetch ic sz b
  bytes : ∀ pa, translateFetch ic va = .ok (pa, true) → InByteMemory ic.mem pa

/-- Every change to a line is followed by an invalidation of the line before its next fetch:
a fetch sees the memory and the translation of the last invalidation. -/
def Coherent (dec : Decoder) : (Word → Icache) → Icache → List Op → Prop
  | _, _, [] => True
  | snap, ic, op :: ops =>
    (match op with
      | .fetch _ va => Unchanged snap ic va
      | _ => True) ∧
    ∀ ic', step dec ic op = some ic' →
      Coherent dec (fun a => if op.covers a then ic' else snap a) ic' ops

/-- A fetch after the calls `done`. -/
structure FetchSound (dec : Decoder) (start : Icache) (done : List Op) (ic : Icache)
    (sz : FetchSize) (va : Word) : Prop where
  /-- A hit returns bytes of the line of the address, read by an earlier fetch in that line
  that no invalidation of the line followed. -/
  hit : misaligned sz va = false → cached ic va = true →
    ∃ before sz₀ va₀ after ic₀ pa data, done = before ++ .fetch sz₀ va₀ :: after ∧
      run dec start before = some ic₀ ∧ SameLine va₀ va ∧
      (∀ op ∈ after, op.covers va = false) ∧ translateFetch ic₀ va₀ = .ok (pa, true) ∧
      memInstructionFetch ic₀.mem (maskLine pa) 32 = some data ∧
      (icacheFetch dec ic sz va).1.map Fetched.buf = .ok (lineBytes data sz va)
  /-- The first fetch in a line after its invalidation goes to the memory. -/
  reread : ∀ before op after, done = before ++ op :: after → op.covers va = true →
    (∀ sz' va', Op.fetch sz' va' ∈ after → ¬ SameLine va' va) → misaligned sz va = false →
    icacheFetch dec ic sz va = fetchMiss dec ic sz va
  /-- With every change followed by an invalidation, the cache is invisible. -/
  coherent : Coherent dec (fun _ => start) start (done ++ [.fetch sz va]) →
    (icacheFetch dec ic sz va).1.map Fetched.buf = uncachedFetch ic sz va

variable {dec : Decoder} {start ic ic' : Icache} {done : List Op} {seen : List Word}

theorem Histories.hit (h : Histories dec start done seen ic) {sz : FetchSize} {va : Word}
    (hclear : ∀ a ∈ seen, (Op.fetch sz va).ClearOf a) (hcached : cached ic va = true) :
    ∃ before sz₀ va₀ after ic₀ pa, SameLine va₀ va ∧ FilledBy dec start done seen
      (ic.cache (calculateIndex va)) before sz₀ va₀ after ic₀ pa := by
  obtain ⟨hlive, htag⟩ := of_decide_eq_true hcached
  obtain ⟨before, sz₀, va₀, after, ic₀, pa, hindex, hfill⟩ := h.live (calculateIndex va) hlive
  have halias : Aliases va₀ va := aliases_of_index_tag hindex (hfill.tag.symm.trans htag)
  exact ⟨before, sz₀, va₀, after, ic₀, pa, hclear va₀ hfill.fetched halias, hfill⟩

theorem icacheFetch_hit_buf {sz : FetchSize} {va : Word} (haligned : misaligned sz va = false)
    (hcached : cached ic va = true) :
    (icacheFetch dec ic sz va).1.map Fetched.buf =
      .ok (lineBytes (ic.cache (calculateIndex va)).data sz va) := by
  rw [icacheFetch, if_neg (by simp [haligned]), if_pos hcached]
  simp [Except.map, fetchFromLine_buf]

theorem icacheFetch_miss {sz : FetchSize} {va : Word} (haligned : misaligned sz va = false)
    (hcached : cached ic va ≠ true) : icacheFetch dec ic sz va = fetchMiss dec ic sz va := by
  rw [icacheFetch, if_neg (by simp [haligned]), if_neg hcached]

theorem fetchMiss_buf (hal : TlbAligned ic.mmu) {sz : FetchSize} {va : Word}
    (haligned : misaligned sz va = false)
    (hbytes : ∀ pa, translateFetch ic va = .ok (pa, true) → InByteMemory ic.mem pa) :
    (fetchMiss dec ic sz va).1.map Fetched.buf = uncachedFetch ic sz va := by
  cases htranslate : translateFetch ic va with
  | error fsr => simp [fetchMiss, uncachedFetch, haligned, htranslate, Except.map]
  | ok r =>
    obtain ⟨pa, c⟩ := r
    cases c with
    | false =>
      cases hfetch : memInstructionFetch ic.mem pa sz.bytes with
      | none => simp [fetchMiss, uncachedFetch, haligned, htranslate, hfetch, Except.map]
      | some buf => simp [fetchMiss, uncachedFetch, haligned, htranslate, hfetch, Except.map]
    | true =>
      have hmem := hbytes pa htranslate
      obtain ⟨data, hdata, -⟩ := memInstructionFetch_line hmem
      rw [uncachedFetch_line hal htranslate hmem hdata rfl haligned]
      simp [fetchMiss, htranslate, hdata, Except.map, fetchFromLine_buf, fillLine]

theorem Coherent.of_append {snap : Word → Icache} {ops rest : List Op}
    (h : Coherent dec snap ic (ops ++ rest)) (hrun : run dec ic ops = some ic') :
    ∃ snap', Coherent dec snap' ic' rest ∧
      ∀ a, (∀ op ∈ ops, op.covers a = false) → snap' a = snap a := by
  induction ops generalizing snap ic with
  | nil =>
    cases hrun
    exact ⟨snap, h, fun _ _ => rfl⟩
  | cons op ops ih =>
    rw [run_cons, Option.bind_eq_some_iff] at hrun
    obtain ⟨ic₁, hstep, hrun⟩ := hrun
    obtain ⟨snap', hrest, hsnap⟩ := ih (h.2 ic₁ hstep) hrun
    refine ⟨snap', hrest, ?_⟩
    intro a ha
    rw [hsnap a fun op' hop' => ha op' (mem_cons_of_mem op hop'),
      ha op mem_cons_self, if_neg Bool.false_ne_true]

/-- A line filled since the last change still holds what uncached fetches read. -/
theorem coherent_hit {before after : List Op} {sz₀ sz : FetchSize} {va₀ va pa : Word}
    {ic₀ : Icache} (hal : TlbAligned start.mmu)
    (hfill : FilledBy dec start done seen (ic.cache (calculateIndex va)) before sz₀ va₀ after ic₀ pa)
    (hsame : SameLine va₀ va) (hrun : run dec start done = some ic)
    (haligned : misaligned sz va = false)
    (hcoherent : Coherent dec (fun _ => start) start (done ++ [.fetch sz va])) :
    uncachedFetch ic sz va = .ok (lineBytes (ic.cache (calculateIndex va)).data sz va) := by
  rw [hfill.split, append_assoc] at hcoherent
  obtain ⟨snap₀, hfetch₀, -⟩ := hcoherent.of_append hfill.reached
  have hrun₀ : run dec ic₀ (.fetch sz₀ va₀ :: after) = some ic := by
    grind [hfill.split, run_append, hfill.reached]
  obtain ⟨snap, hfetch, hsnap⟩ := Coherent.of_append hfetch₀ hrun₀
  have hkept : ∀ op ∈ Op.fetch sz₀ va₀ :: after, op.covers va = false := by
    intro op hop
    rcases mem_cons.mp hop with rfl | hop
    · rfl
    · rw [← hsame.covers_eq]
      exact hfill.kept op hop
  calc uncachedFetch ic sz va
      = uncachedFetch (snap va) sz va := (hfetch.1.same sz va rfl).symm
    _ = uncachedFetch (snap₀ va) sz va := by rw [hsnap va hkept]
    _ = uncachedFetch ic₀ sz va := hfetch₀.1.same sz va hsame.symm
    _ = .ok (lineBytes (ic.cache (calculateIndex va)).data sz va) :=
      uncachedFetch_line (run_aligned hal hfill.reached) hfill.translated
        (hfetch₀.1.bytes pa hfill.translated) hfill.data hsame.symm haligned

/-- A line is not live after its invalidation unless it was fetched again. -/
theorem Histories.not_cached_after (h : Histories dec start done seen ic) {sz : FetchSize} {va : Word}
    (hclear : ∀ a ∈ seen, (Op.fetch sz va).ClearOf a) {before after : List Op} {op : Op}
    (hsplit : done = before ++ op :: after) (hcovers : op.covers va = true)
    (hno : ∀ sz' va', Op.fetch sz' va' ∈ after → ¬ SameLine va' va) : cached ic va ≠ true := by
  intro hcached
  obtain ⟨before', sz₀, va₀, after', ic₀, pa, hsame, hfill⟩ := h.hit hclear hcached
  have hlists := hsplit.symm.trans hfill.split
  rcases append_eq_append_iff.mp hlists with ⟨mid, hbefore, hafter⟩ | ⟨mid, hbefore, hafter⟩
  · cases mid with
    | nil =>
      simp only [nil_append, List.cons.injEq] at hafter
      rw [hafter.1] at hcovers
      cases hcovers
    | cons op' mid => grind
  · cases mid with
    | nil =>
      simp only [nil_append, List.cons.injEq] at hafter
      rw [← hafter.1] at hcovers
      cases hcovers
    | cons op' mid =>
      simp only [cons_append, List.cons.injEq] at hafter
      have hkept := hfill.kept op (by simp [hafter.2])
      rw [hsame.covers_eq, hcovers] at hkept
      cases hkept

theorem Histories.fetch_eq_uncached (h : Histories dec start done seen ic)
    (hal : TlbAligned start.mmu) (hrun : run dec start done = some ic) {sz : FetchSize} {va : Word}
    (hclear : ∀ a ∈ seen, (Op.fetch sz va).ClearOf a)
    (hcoherent : Coherent dec (fun _ => start) start (done ++ [.fetch sz va])) :
    (icacheFetch dec ic sz va).1.map Fetched.buf = uncachedFetch ic sz va := by
  obtain ⟨snap, hfetch, -⟩ := hcoherent.of_append hrun
  by_cases haligned : misaligned sz va = true
  · simp [icacheFetch, uncachedFetch, haligned, Except.map]
  · rw [Bool.not_eq_true] at haligned
    by_cases hcached : cached ic va = true
    · obtain ⟨before, sz₀, va₀, after, ic₀, pa, hsame, hfill⟩ := h.hit hclear hcached
      rw [icacheFetch_hit_buf haligned hcached,
        coherent_hit hal hfill hsame hrun haligned hcoherent]
    · rw [icacheFetch_miss haligned hcached]
      exact fetchMiss_buf (run_aligned hal hrun) haligned hfetch.1.bytes

/-- Every fetch of a clear run is sound: it never returns bytes of another line, goes to the
memory after an invalidation, and cannot be told from an uncached fetch when every change is
followed by an invalidation. -/
theorem run_fetchSound (dec : Decoder) (mem : ArmMem) (tables : Memory) (xscaleMode : Bool)
    (done rest : List Op) (sz : FetchSize) (va : Word) (ic : Icache)
    (hclear : Clear [] (done ++ .fetch sz va :: rest))
    (hrun : run dec (icacheInit mem (mmuInit tables xscaleMode)) done = some ic) :
    FetchSound dec (icacheInit mem (mmuInit tables xscaleMode)) done ic sz va := by
  have hal : TlbAligned (icacheInit mem (mmuInit tables xscaleMode)).mmu :=
    mmuInit_aligned tables xscaleMode
  obtain ⟨seen, hhist, hrest⟩ := run_histories (icacheInit_histories dec mem _) rfl hclear hrun
  refine ⟨?_, ?_, ?_⟩
  · intro haligned hcached
    obtain ⟨before, sz₀, va₀, after, ic₀, pa, hsame, hfill⟩ := hhist.hit hrest.1 hcached
    refine ⟨before, sz₀, va₀, after, ic₀, pa, _, hfill.split, hfill.reached, hsame, ?_,
      hfill.translated, hfill.data, icacheFetch_hit_buf haligned hcached⟩
    intro op hop
    rw [← hsame.covers_eq]
    exact hfill.kept op hop
  · intro before op after hsplit hcovers hno haligned
    exact icacheFetch_miss haligned (hhist.not_cached_after hrest.1 hsplit hcovers hno)
  · exact hhist.fetch_eq_uncached hal hrun hrest.1

/-- A section for the first megabyte and another for all the rest, in the RAM. -/
def sectionTables : Memory := fun a => if a = 0x4000 then some 0xA0000C0A else some 0xA0100C0A

def sectionRam : ArmMem where
  ram := ⟨0xA0000000, 0x200000, fun offset => if offset < 0x100000 then 0x11 else 0x22⟩
  rom := ⟨0, 0, fun _ => 0⟩
  regions := []

def noDecoder : Decoder := ⟨fun _ => 0, fun _ => 0⟩

/-- A fetch, an invalidation of its line, and another fetch in the line. -/
theorem run_fetchSound_invalidated :
    ∃ ic, run noDecoder (icacheInit sectionRam (mmuInit sectionTables true))
        [.mmu (.setTTP 0x4000), .fetch .four 0x100, .invalAddr 0x104] = some ic ∧
      FetchSound noDecoder (icacheInit sectionRam (mmuInit sectionTables true))
        [.mmu (.setTTP 0x4000), .fetch .four 0x100, .invalAddr 0x104] ic .two 0x102 := by
  refine ⟨_, rfl, run_fetchSound noDecoder sectionRam sectionTables true
    [.mmu (.setTTP 0x4000), .fetch .four 0x100, .invalAddr 0x104] [] .two 0x102 _ ?_ rfl⟩
  simp [Clear, seenAfter, Op.ClearOf, Op.covers, SameLine]

/-- The lines at 0 and at 2^30 share an index and the kept bits of the tag: the fetch at 2^30
returns the bytes cached for 0. -/
theorem fetch_aliased :
    ¬ ∀ (dec : Decoder) (mem : ArmMem) (tables : Memory) (xscaleMode : Bool) (done : List Op)
      (sz : FetchSize) (va : Word) (ic : Icache),
      run dec (icacheInit mem (mmuInit tables xscaleMode)) done = some ic →
      FetchSound dec (icacheInit mem (mmuInit tables xscaleMode)) done ic sz va := by
  intro h
  obtain ⟨ic, hrun, hcached⟩ : ∃ ic, run noDecoder
      (icacheInit sectionRam (mmuInit sectionTables true))
      [.mmu (.setTTP 0x4000), .fetch .four 0] = some ic ∧ cached ic 0x40000000 = true :=
    ⟨_, rfl, by decide +kernel⟩
  obtain ⟨before, sz₀, va₀, after, ic₀, pa, data, hsplit, -, hsame, -⟩ :=
    (h _ _ _ _ _ .four 0x40000000 ic hrun).hit (by decide) hcached
  have hmem : Op.fetch sz₀ va₀ ∈ [Op.mmu (.setTTP 0x4000), .fetch .four 0] := by grind
  simp only [mem_cons, reduceCtorEq, Op.fetch.injEq, not_mem_nil, or_false, false_or] at hmem
  rw [hmem.2] at hsame
  cases hsame

end

end Cloudpilot.Uarm.ICache
