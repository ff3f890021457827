import Cloudpilot.Library.RevisionTable
import Cloudpilot.Uarm.ICache.Model

/-! # Histories of cached lines

A run is followed by the history of each live line: the fetch that filled it, and
that no invalidation of that fetch's line came after it. The histories are kept by
every step as long as no two fetched lines differ only in the two highest bits of
the address, which the tag of a fetch drops, and no line from 2^30 on has to be
invalidated by its address, which compares a tag that no line carries.
-/
namespace Cloudpilot.Uarm.ICache
open Cloudpilot.Uarm.Cpu Cloudpilot.Uarm.MMU Cloudpilot.Library BitVec

/-- The call asks for the line of the address to be invalidated. -/
def Op.covers : Op → Word → Bool
  | .inval, _ => true
  | .invalAddr a, va => SameLine a va
  | .invalRange addr size, va =>
    (maskLine addr).toNat ≤ (maskLine va).toNat ∧ (maskLine va).toNat < addr.toNat + size.toNat
  | _, _ => false

/-- The lines of the addresses agree in all bits below the two highest. -/
def Aliases (a b : Word) : Prop := (a >>> 5).setWidth 25 = (b >>> 5).setWidth 25

instance (a b : Word) : Decidable (Aliases a b) := inferInstanceAs (Decidable (_ = _))

/-- The call does not meet the missing tag bits of a line that was fetched at `seen`, nor the
wrapping end of a range. -/
def Op.ClearOf : Op → Word → Prop
  | .fetch _ va, seen => Aliases seen va → SameLine seen va
  | .invalAddr va, seen => SameLine va seen → seen.toNat < 2 ^ 30
  | .invalRange addr size, seen =>
    Op.covers (.invalRange addr size) seen = true →
      seen.toNat < 2 ^ 30 ∧ addr.toNat + size.toNat < 2 ^ 32
  | _, _ => True

/-- The addresses fetched and not invalidated since. -/
def seenAfter (seen : List Word) : Op → List Word
  | .fetch _ va => va :: seen
  | op => seen.filter fun a => !op.covers a

/-- Every call is clear of the lines fetched before it. -/
def Clear : List Word → List Op → Prop
  | _, [] => True
  | seen, op :: ops => (∀ a ∈ seen, op.ClearOf a) ∧ Clear (seenAfter seen op) ops

theorem toNat_calculateIndex (va : Word) : (calculateIndex va).toNat = va.toNat / 32 % 2 ^ 17 := by
  rw [calculateIndex, toNat_setWidth, toNat_ushiftRight, Nat.shiftRight_eq_div_pow]

theorem toNat_calculateTag (va : Word) : (calculateTag va).toNat = va.toNat / 2 ^ 22 := by
  rw [calculateTag, toNat_ushiftRight, Nat.shiftRight_eq_div_pow]

theorem toNat_lineTag (va : Word) :
    ((fetchTag va).setWidth 16).toNat = va.toNat / 2 ^ 22 % 2 ^ 8 := by
  rw [fetchTag, toNat_setWidth, toNat_setWidth, toNat_calculateTag]
  omega

theorem aliases_of_index_tag {a b : Word} (hindex : calculateIndex a = calculateIndex b)
    (htag : (fetchTag a).setWidth 16 = (fetchTag b).setWidth 16) : Aliases a b := by
  have hi := congrArg BitVec.toNat hindex
  have ht := congrArg BitVec.toNat htag
  rw [toNat_calculateIndex, toNat_calculateIndex] at hi
  rw [toNat_lineTag, toNat_lineTag] at ht
  apply BitVec.eq_of_toNat_eq
  rw [BitVec.toNat_setWidth, BitVec.toNat_setWidth, BitVec.toNat_ushiftRight,
    BitVec.toNat_ushiftRight, Nat.shiftRight_eq_div_pow, Nat.shiftRight_eq_div_pow]
  omega

theorem SameLine.calculateIndex_eq {a b : Word} (h : SameLine a b) :
    calculateIndex a = calculateIndex b := by
  simp [calculateIndex, show a >>> 5 = b >>> 5 from h]

theorem SameLine.calculateTag_eq {a b : Word} (h : SameLine a b) :
    calculateTag a = calculateTag b :=
  AlignedBlock.shiftRight_eq_of_le h (by decide : 5 ≤ 22)

theorem lineTag_of_lt {va : Word} (h : va.toNat < 2 ^ 30) :
    ((fetchTag va).setWidth 16).setWidth 32 = calculateTag va := by
  apply eq_of_toNat_eq
  rw [toNat_setWidth, toNat_lineTag, toNat_calculateTag]
  omega

theorem SameLine.covers_eq {a b : Word} (h : SameLine a b) (op : Op) : op.covers a = op.covers b := by
  cases op with
  | invalAddr va =>
    apply decide_eq_decide.mpr
    exact ⟨fun hva => Eq.trans hva h, fun hva => Eq.trans hva (Eq.symm h)⟩
  | invalRange addr size => simp only [Op.covers, h.maskLine_eq]
  | _ => rfl

variable {dec : Decoder} {start ic ic' ic'' : Icache} {done : List Op} {seen : List Word}

/-- Lines may have been discarded; those that stay live hold what they held. -/
structure Discards (ic ic' : Icache) : Prop where
  revision : ic'.revision = ic.revision
  tag : ∀ i, (ic'.cache i).tag = (ic.cache i).tag
  data : ∀ i, (ic'.cache i).data = (ic.cache i).data
  lines : ∀ i, (ic'.cache i).revision = (ic.cache i).revision ∨
    (ic'.cache i).revision = ic.revision - 1#32

/-- The line of the address is not live under the whole tag of the address. -/
def Dead (ic : Icache) (va : Word) : Prop :=
  (ic.cache (calculateIndex va)).revision = ic.revision →
    (ic.cache (calculateIndex va)).tag.setWidth 32 ≠ calculateTag va

theorem sub_one_ne (r : Word) : r - 1#32 ≠ r := by
  bv_omega

theorem discards_of_cache_eq (hrevision : ic'.revision = ic.revision) (hcache : ic'.cache = ic.cache) :
    Discards ic ic' := by
  refine ⟨hrevision, ?_, ?_, ?_⟩ <;> grind

theorem Discards.trans (h : Discards ic ic') (h' : Discards ic' ic'') : Discards ic ic'' := by
  refine ⟨h'.revision.trans h.revision, ?_, ?_, ?_⟩
  · intro i
    rw [h'.tag, h.tag]
  · intro i
    rw [h'.data, h.data]
  · intro i
    rcases h'.lines i with hi' | hi'
    · rw [hi']
      exact h.lines i
    · right
      rw [hi', h.revision]

theorem Dead.of_discards {va : Word} (h : Dead ic va) (hd : Discards ic ic') : Dead ic' va := by
  intro hlive
  rw [hd.revision] at hlive
  rw [hd.tag]
  rcases hd.lines (calculateIndex va) with hi | hi
  · exact h (hi.symm.trans hlive)
  · exact absurd (hi.symm.trans hlive) (sub_one_ne _)

theorem icacheInvalAddr_discards (ic : Icache) (va : Word) : Discards ic (icacheInvalAddr ic va) := by
  unfold icacheInvalAddr
  dsimp only
  split
  · exact discards_of_cache_eq rfl rfl
  · refine ⟨rfl, ?_, ?_, ?_⟩
    all_goals
      intro i
      by_cases hi : i = calculateIndex va
      · simp [hi]
      · simp [Function.update_of_ne hi]

theorem icacheInvalAddr_dead (ic : Icache) (va : Word) : Dead (icacheInvalAddr ic va) va := by
  unfold icacheInvalAddr
  dsimp only
  split
  case isTrue h =>
    intro hlive
    exact h.resolve_left (not_not.mpr hlive)
  case isFalse h =>
    intro hlive
    simp only [Function.update_self] at hlive
    exact absurd hlive (sub_one_ne _)

/-- The loop kills the line of every address that it counts through. -/
theorem invalLines_spec {limit : Word} {rounds : ℕ} {line : Word}
    (h : invalLines limit rounds line ic = some ic') :
    Discards ic ic' ∧ ∀ va : Word, va.toNat % 32 = line.toNat % 32 → line.toNat ≤ va.toNat →
      va.toNat < limit.toNat → Dead ic' va := by
  induction rounds generalizing line ic with
  | zero => cases h
  | succ rounds ih =>
    rw [invalLines] at h
    split at h
    · obtain ⟨hrest, hdead⟩ := ih h
      refine ⟨(icacheInvalAddr_discards ic line).trans hrest, ?_⟩
      intro va hmod hle hlt
      by_cases heq : va = line
      · subst heq
        exact (icacheInvalAddr_dead ic va).of_discards hrest
      · have hne : va.toNat ≠ line.toNat := fun hnat => heq (eq_of_toNat_eq hnat)
        have hnext : (line + 32#32).toNat = (line.toNat + 32) % 2 ^ 32 := toNat_add line 32#32
        exact hdead va (by omega) (by omega) hlt
    · cases h
      refine ⟨discards_of_cache_eq rfl rfl, ?_⟩
      rw [lt_def] at *
      omega

/-- A fetch at `va₀`, after the calls `before`, filled the line, and no invalidation of its line
is among the calls since. -/
structure FilledBy (dec : Decoder) (start : Icache) (done : List Op) (seen : List Word)
    (line : Icacheline) (before : List Op) (sz₀ : FetchSize) (va₀ : Word) (after : List Op)
    (ic₀ : Icache) (pa : Word) : Prop where
  split : done = before ++ .fetch sz₀ va₀ :: after
  reached : run dec start before = some ic₀
  fetched : va₀ ∈ seen
  tag : line.tag = (fetchTag va₀).setWidth 16
  kept : ∀ op ∈ after, op.covers va₀ = false
  translated : translateFetch ic₀ va₀ = .ok (pa, true)
  data : memInstructionFetch ic₀.mem (maskLine pa) 32 = some line.data

/-- The line at index `i` has a history. -/
def Filled (dec : Decoder) (start : Icache) (done : List Op) (seen : List Word) (i : Index)
    (line : Icacheline) : Prop :=
  ∃ before sz₀ va₀ after ic₀ pa, calculateIndex va₀ = i ∧
    FilledBy dec start done seen line before sz₀ va₀ after ic₀ pa

/-- Every live line has a history. -/
def Histories (dec : Decoder) (start : Icache) (done : List Op) (seen : List Word) (ic : Icache) :
    Prop :=
  RevisionTable.Sound (fun i => (ic.cache i).revision) ic.revision fun i =>
    Filled dec start done seen i (ic.cache i)

theorem mem_seenAfter {op : Op} {a : Word} (ha : a ∈ seen) (hop : op.covers a = false) :
    a ∈ seenAfter seen op := by
  cases op with
  | fetch sz va => exact List.mem_cons_of_mem va ha
  | _ => simpa [seenAfter, hop] using ha

theorem FilledBy.extend {line line' : Icacheline} {before after : List Op} {sz₀ : FetchSize}
    {va₀ : Word} {ic₀ : Icache} {pa : Word}
    (h : FilledBy dec start done seen line before sz₀ va₀ after ic₀ pa)
    (htag : line'.tag = line.tag) (hdata : line'.data = line.data) {op : Op}
    (hop : op.covers va₀ = false) :
    FilledBy dec start (done ++ [op]) (seenAfter seen op) line' before sz₀ va₀ (after ++ [op])
      ic₀ pa where
  split := by rw [h.split]; simp
  reached := h.reached
  fetched := mem_seenAfter h.fetched hop
  tag := htag.trans h.tag
  kept := by
    intro op' hop'
    rcases List.mem_append.mp hop' with hop' | hop'
    · exact h.kept op' hop'
    · rw [List.mem_singleton.mp hop', hop]
  translated := h.translated
  data := by rw [hdata, h.data]

/-- Calls that discard lines keep the histories of the others, provided those they ask to
invalidate are gone. -/
theorem Histories.discard (h : Histories dec start done seen ic) (hd : Discards ic ic') {op : Op}
    (hdead : ∀ va₀ ∈ seen, op.covers va₀ = true →
      (ic'.cache (calculateIndex va₀)).revision = ic'.revision →
      (ic'.cache (calculateIndex va₀)).tag ≠ (fetchTag va₀).setWidth 16) :
    Histories dec start (done ++ [op]) (seenAfter seen op) ic' := by
  unfold Histories
  rw [hd.revision]
  apply RevisionTable.Sound.change h
  intro i
  rcases hd.lines i with hi | hi
  · right
    right
    refine ⟨hi, ?_⟩
    rintro hlive ⟨before, sz₀, va₀, after, ic₀, pa, hindex, hfill⟩
    refine ⟨before, sz₀, va₀, after ++ [op], ic₀, pa, hindex, ?_⟩
    apply hfill.extend (hd.tag i) (hd.data i)
    by_contra hcovers
    have htag := hdead va₀ hfill.fetched (Bool.eq_true_of_not_eq_false hcovers)
    rw [hindex, hi, hd.tag, hd.revision] at htag
    exact htag hlive hfill.tag
  · left
    exact hi

theorem Histories.keep (h : Histories dec start done seen ic) (hd : Discards ic ic') {op : Op}
    (hop : ∀ va, op.covers va = false) :
    Histories dec start (done ++ [op]) (seenAfter seen op) ic' := by
  apply h.discard hd
  intro va₀ _ hcovers
  rw [hop] at hcovers
  cases hcovers

theorem icacheInval_revision (ic : Icache) :
    (icacheInval ic).revision = RevisionTable.nextRevision ic.revision := by
  by_cases h : ic.revision + 1#32 = 0#32 <;> simp [icacheInval, RevisionTable.nextRevision, h]

theorem icacheInval_tags (ic : Icache) :
    (fun i => ((icacheInval ic).cache i).revision) =
      RevisionTable.flushTags ic.revision fun i => (ic.cache i).revision := by
  by_cases h : ic.revision + 1#32 = 0#32 <;> simp [icacheInval, RevisionTable.flushTags, h]

theorem Histories.inval {done' : List Op} {seen' : List Word}
    (h : Histories dec start done seen ic) : Histories dec start done' seen' (icacheInval ic) := by
  rw [Histories, icacheInval_revision, icacheInval_tags]
  exact RevisionTable.Sound.flush h

theorem Dead.lineTag {va : Word} (h : Dead ic va) (hlt : va.toNat < 2 ^ 30)
    (hlive : (ic.cache (calculateIndex va)).revision = ic.revision) :
    (ic.cache (calculateIndex va)).tag ≠ (fetchTag va).setWidth 16 := by
  intro htag
  apply h hlive
  rw [htag, lineTag_of_lt hlt]

theorem Dead.sameLine {a b : Word} (h : Dead ic a) (hab : SameLine a b) : Dead ic b := by
  unfold Dead
  rwa [← hab.calculateIndex_eq, ← hab.calculateTag_eq]

theorem Histories.invalAddr (h : Histories dec start done seen ic) {va : Word}
    (hclear : ∀ a ∈ seen, (Op.invalAddr va).ClearOf a) :
    Histories dec start (done ++ [.invalAddr va]) (seenAfter seen (.invalAddr va))
      (icacheInvalAddr ic va) := by
  apply h.discard (icacheInvalAddr_discards ic va)
  intro va₀ hseen hcovers
  have hsame : SameLine va va₀ := of_decide_eq_true hcovers
  exact ((icacheInvalAddr_dead ic va).sameLine hsame).lineTag (hclear va₀ hseen hsame)

theorem Histories.invalRange (h : Histories dec start done seen ic) {addr size : Word}
    (hrange : icacheInvalRange ic addr size = some ic')
    (hclear : ∀ a ∈ seen, (Op.invalRange addr size).ClearOf a) :
    Histories dec start (done ++ [.invalRange addr size])
      (seenAfter seen (.invalRange addr size)) ic' := by
  obtain ⟨hd, hdead⟩ := invalLines_spec hrange
  apply h.discard hd
  intro va₀ hseen hcovers
  obtain ⟨hlt, hend⟩ := hclear va₀ hseen hcovers
  obtain ⟨hfrom, hto⟩ : (maskLine addr).toNat ≤ (maskLine va₀).toNat ∧
    (maskLine va₀).toNat < addr.toNat + size.toNat := of_decide_eq_true hcovers
  have hline : Dead ic' (maskLine va₀) := by
    apply hdead
    · simp [toNat_maskLine]
    · exact hfrom
    · rwa [toNat_add, Nat.mod_eq_of_lt hend]
  exact (hline.sameLine (maskLine_sameLine va₀)).lineTag hlt

theorem fetchFromLine_buf (dec : Decoder) (ic : Icache) (sz : FetchSize) (va : Word) :
    (fetchFromLine dec ic sz va).1.buf = lineBytes (ic.cache (calculateIndex va)).data sz va := by
  unfold fetchFromLine
  dsimp only
  split <;> rfl

def SameOutside (ic ic' : Icache) : Prop := ic'.mem = ic.mem ∧ ic'.mmu = ic.mmu

theorem fetchFromLine_outside (dec : Decoder) (ic : Icache) (sz : FetchSize) (va : Word) :
    SameOutside ic (fetchFromLine dec ic sz va).2 := by
  unfold fetchFromLine
  dsimp only
  split <;> exact ⟨rfl, rfl⟩

theorem fetchFromLine_discards (dec : Decoder) (ic : Icache) (sz : FetchSize) (va : Word) :
    Discards ic (fetchFromLine dec ic sz va).2 := by
  unfold fetchFromLine
  dsimp only
  split
  · refine ⟨rfl, ?_, ?_, ?_⟩
    all_goals
      intro i
      by_cases hi : i = calculateIndex va
      · simp [hi]
      · simp [Function.update_of_ne hi]
  · exact discards_of_cache_eq rfl rfl

theorem afterTranslateFetch_cache (ic : Icache) (va : Word) :
    (afterTranslateFetch ic va).cache = ic.cache ∧
      (afterTranslateFetch ic va).revision = ic.revision := by
  unfold afterTranslateFetch
  split <;> exact ⟨rfl, rfl⟩

/-- The cache with the line of the address read anew. -/
def filled (ic : Icache) (va : Word) (data : List Byte) : Icache :=
  { ic with cache := Function.update ic.cache (calculateIndex va) (fillLine ic va data) }

theorem icacheFetch_cases (dec : Decoder) (ic : Icache) (sz : FetchSize) (va : Word) :
    Discards ic (icacheFetch dec ic sz va).2 ∨
    ∃ pa data, translateFetch ic va = .ok (pa, true) ∧
      memInstructionFetch ic.mem (maskLine pa) 32 = some data ∧
      Discards (filled ic va data) (icacheFetch dec ic sz va).2 := by
  obtain ⟨hcache, hrevision⟩ := afterTranslateFetch_cache ic va
  have hafter : Discards ic (afterTranslateFetch ic va) := discards_of_cache_eq hrevision hcache
  unfold icacheFetch
  split
  · exact Or.inl (discards_of_cache_eq rfl rfl)
  split
  · exact Or.inl (fetchFromLine_discards dec ic sz va)
  unfold fetchMiss
  cases htranslate : translateFetch ic va with
  | error fsr => exact Or.inl hafter
  | ok r =>
    obtain ⟨pa, c⟩ := r
    cases c with
    | false =>
      left
      dsimp only
      split <;> exact hafter
    | true =>
      dsimp only
      cases hdata : memInstructionFetch ic.mem (maskLine pa) 32 with
      | none => exact Or.inl hafter
      | some data =>
        refine Or.inr ⟨pa, data, rfl, hdata, ?_⟩
        refine Discards.trans ?_ (fetchFromLine_discards dec _ sz va)
        apply discards_of_cache_eq
        · exact hrevision
        · simp [filled, fillLine, hcache, hrevision]

theorem icacheFetch_outside (dec : Decoder) (ic : Icache) (sz : FetchSize) (va : Word) :
    (icacheFetch dec ic sz va).2.mem = ic.mem ∧
      ((icacheFetch dec ic sz va).2.mmu = ic.mmu ∨
        (icacheFetch dec ic sz va).2.mmu = (mmuTranslate ic.mmu va true false).2) := by
  have hafter : (afterTranslateFetch ic va).mem = ic.mem ∧
      ((afterTranslateFetch ic va).mmu = ic.mmu ∨
        (afterTranslateFetch ic va).mmu = (mmuTranslate ic.mmu va true false).2) := by
    grind [afterTranslateFetch]
  unfold icacheFetch
  split
  · simp
  split
  · exact ⟨(fetchFromLine_outside dec ic sz va).1, Or.inl (fetchFromLine_outside dec ic sz va).2⟩
  unfold fetchMiss
  cases translateFetch ic va with
  | error fsr => exact hafter
  | ok r =>
    obtain ⟨pa, c⟩ := r
    cases c with
    | false =>
      dsimp only
      split <;> exact hafter
    | true =>
      dsimp only
      split
      · exact hafter
      · simpa only [(fetchFromLine_outside dec _ sz va).1, (fetchFromLine_outside dec _ sz va).2]
          using hafter

theorem Histories.fetch (h : Histories dec start done seen ic) (hrun : run dec start done = some ic)
    (sz : FetchSize) (va : Word) :
    Histories dec start (done ++ [.fetch sz va]) (va :: seen) (icacheFetch dec ic sz va).2 := by
  rcases icacheFetch_cases dec ic sz va with hd | ⟨pa, data, htranslate, hdata, hd⟩
  · exact h.keep hd fun _ => rfl
  · unfold Histories
    rw [hd.revision]
    apply RevisionTable.Sound.change h
    intro i
    rcases hd.lines i with hi | hi
    · right
      by_cases hindex : i = calculateIndex va
      · left
        subst hindex
        simp only [filled, Function.update_self, fillLine] at hi
        refine ⟨hi, done, sz, va, [], ic, pa, rfl, ?_⟩
        exact {
          split := rfl
          reached := hrun
          fetched := List.mem_cons_self
          tag := by simp only [hd.tag, filled, Function.update_self, fillLine]
          kept := by simp
          translated := htranslate
          data := by simp only [hd.data, filled, Function.update_self, fillLine, hdata] }
      · right
        have hsame : (filled ic va data).cache i = ic.cache i := Function.update_of_ne hindex _ _
        rw [hsame] at hi
        refine ⟨hi, ?_⟩
        rintro - ⟨before, sz₀, va₀, after, ic₀, pa₀, hindex₀, hfill⟩
        refine ⟨before, sz₀, va₀, after ++ [.fetch sz va], ic₀, pa₀, hindex₀, ?_⟩
        exact hfill.extend (by rw [hd.tag, hsame]) (by rw [hd.data, hsame]) rfl
    · left
      exact hi

theorem run_append {before after : List Op} :
    run dec start (before ++ after) = (run dec start before).bind fun ic => run dec ic after := by
  simp only [run, List.foldlM_append]
  rfl

theorem run_cons {op : Op} {ops : List Op} :
    run dec ic (op :: ops) = (step dec ic op).bind fun ic' => run dec ic' ops := by
  rfl

theorem step_histories (h : Histories dec start done seen ic)
    (hrun : run dec start done = some ic) {op : Op} (hclear : ∀ a ∈ seen, op.ClearOf a)
    (hstep : step dec ic op = some ic') :
    Histories dec start (done ++ [op]) (seenAfter seen op) ic' := by
  cases op with
  | fetch sz va =>
    cases hstep
    exact h.fetch hrun sz va
  | inval =>
    cases hstep
    exact h.inval
  | invalAddr va =>
    cases hstep
    exact h.invalAddr hclear
  | invalRange addr size => exact h.invalRange hstep hclear
  | memWrite mem =>
    cases hstep
    exact h.keep (discards_of_cache_eq rfl rfl) fun _ => rfl
  | mmu op =>
    cases hstep
    exact h.keep (discards_of_cache_eq rfl rfl) fun _ => rfl

theorem icacheInval_outside (ic : Icache) : SameOutside ic (icacheInval ic) := by
  unfold icacheInval
  split <;> exact ⟨rfl, rfl⟩

theorem icacheInvalAddr_outside (ic : Icache) (va : Word) :
    SameOutside ic (icacheInvalAddr ic va) := by
  unfold icacheInvalAddr
  dsimp only
  split <;> exact ⟨rfl, rfl⟩

theorem invalLines_outside {limit : Word} {rounds : ℕ} {line : Word}
    (h : invalLines limit rounds line ic = some ic') : SameOutside ic ic' := by
  induction rounds generalizing line ic with
  | zero => cases h
  | succ rounds ih =>
    rw [invalLines] at h
    split at h
    · obtain ⟨hmem, hmmu⟩ := icacheInvalAddr_outside ic line
      obtain ⟨hmem', hmmu'⟩ := ih h
      exact ⟨hmem'.trans hmem, hmmu'.trans hmmu⟩
    · cases h
      exact ⟨rfl, rfl⟩

theorem step_aligned (h : TlbAligned ic.mmu) {op : Op} (hstep : step dec ic op = some ic') :
    TlbAligned ic'.mmu := by
  cases op with
  | fetch sz va =>
    cases hstep
    rcases (icacheFetch_outside dec ic sz va).2 with hmmu | hmmu
    · grind
    · rw [hmmu]
      exact h.mmuTranslate va true false
  | inval =>
    cases hstep
    rwa [(icacheInval_outside ic).2]
  | invalAddr va =>
    cases hstep
    rwa [(icacheInvalAddr_outside ic va).2]
  | invalRange addr size =>
    rwa [(invalLines_outside hstep).2]
  | memWrite mem =>
    cases hstep
    exact h
  | mmu op =>
    cases hstep
    exact h.step op

theorem run_aligned {ops : List Op} (h : TlbAligned ic.mmu) (hrun : run dec ic ops = some ic') :
    TlbAligned ic'.mmu := by
  induction ops generalizing ic with
  | nil =>
    cases hrun
    exact h
  | cons op ops ih =>
    rw [run_cons, Option.bind_eq_some_iff] at hrun
    obtain ⟨ic₁, hstep, hrun⟩ := hrun
    exact ih (step_aligned h hstep) hrun

theorem run_histories {ops rest : List Op} (h : Histories dec start done seen ic)
    (hdone : run dec start done = some ic) (hclear : Clear seen (ops ++ rest))
    (hrun : run dec ic ops = some ic') :
    ∃ seen', Histories dec start (done ++ ops) seen' ic' ∧ Clear seen' rest := by
  induction ops generalizing done seen ic with
  | nil =>
    cases hrun
    exact ⟨seen, by simpa using h, hclear⟩
  | cons op ops ih =>
    rw [run_cons, Option.bind_eq_some_iff] at hrun
    obtain ⟨ic₁, hstep, hrun⟩ := hrun
    have hdone₁ : run dec start (done ++ [op]) = some ic₁ := by
      rw [run_append, hdone, Option.bind_some, run_cons, hstep]
      rfl
    obtain ⟨seen', h', hrest⟩ := ih (step_histories h hdone hclear.1 hstep) hdone₁ hclear.2 hrun
    exact ⟨seen', by simpa using h', hrest⟩

theorem icacheInit_histories (dec : Decoder) (mem : ArmMem) (mmu : ArmMmu) :
    Histories dec (icacheInit mem mmu) [] [] (icacheInit mem mmu) := by
  have hrevision : (icacheInit mem mmu).revision = 1#32 := rfl
  have htag : ∀ i, ((icacheInit mem mmu).cache i).revision = 0#32 := fun _ => rfl
  refine ⟨by simp [hrevision], by simp [htag], ?_⟩
  intro i hi
  simp [htag, hrevision] at hi

end Cloudpilot.Uarm.ICache
