import Cloudpilot.Library.Words
import Cloudpilot.Uarm.Cpu.State

/-! # The operating system timer

Four match registers against one counter. A single tick compares the new counter
for equality; a batch of ticks compares the distance from the old counter to the
match register with the length of the batch, and so takes a register that equals
the old counter for one that the batch reaches.
-/
namespace Cloudpilot.Uarm.Timr
open Cloudpilot.Uarm.Cpu Cloudpilot.Library Option

structure PxaTimr where
  OSMR : Fin 4 → Word
  OSCR : Word
  OIER : BitVec 8
  OWER : BitVec 8
  OSSR : BitVec 8

/-- A call of `socIcInt`. -/
structure SocIcIntCall where
  intNum : ℕ
  raise : Bool
  deriving DecidableEq, Repr

def pxaITimr0 : ℕ := 26

def pxaTimrPrvRaiseLowerInts (timr : PxaTimr) : List SocIcIntCall :=
  (List.range 4).map fun i => ⟨pxaITimr0 + i, timr.OSSR.getLsbD i⟩

/-- What a match does: the watchdog ends the emulator, an enabled interrupt is recorded. -/
def checkMatch (timr : PxaTimr) (idx : Fin 4) (isMatch : Bool) : Option PxaTimr :=
  let v : BitVec 8 := 1#8 <<< idx.val
  if isMatch then
    if idx = 3 ∧ timr.OWER ≠ 0 then none
    else if timr.OIER &&& v ≠ 0 then some { timr with OSSR := timr.OSSR ||| v }
    else some timr
  else some timr

def pxaTimrPrvCheckMatchSingleStep (timr : PxaTimr) (idx : Fin 4) : Option PxaTimr :=
  checkMatch timr idx (timr.OSCR = timr.OSMR idx)

def pxaTimrPrvCheckMatchMultiStep (oscrOld batchedTicks : Word) (timr : PxaTimr) (idx : Fin 4) :
    Option PxaTimr :=
  checkMatch timr idx (batchedTicks ≥ timr.OSMR idx - oscrOld)

def timers : List (Fin 4) := [0, 1, 2, 3]

def pxaTimrPrvUpdateSingleStep (timr : PxaTimr) : Option (PxaTimr × List SocIcIntCall) :=
  (timers.foldlM pxaTimrPrvCheckMatchSingleStep timr).map fun timr =>
    (timr, pxaTimrPrvRaiseLowerInts timr)

def pxaTimrPrvUpdateMultiStep (timr : PxaTimr) (oscrOld batchedTicks : Word) :
    Option (PxaTimr × List SocIcIntCall) :=
  (timers.foldlM (pxaTimrPrvCheckMatchMultiStep oscrOld batchedTicks) timr).map fun timr =>
    (timr, pxaTimrPrvRaiseLowerInts timr)

def pxaTimrTick (timr : PxaTimr) (batchedTicks : Word) : Option (PxaTimr × List SocIcIntCall) :=
  if batchedTicks = 1 then pxaTimrPrvUpdateSingleStep { timr with OSCR := timr.OSCR + 1 }
  else
    pxaTimrPrvUpdateMultiStep { timr with OSCR := timr.OSCR + batchedTicks } timr.OSCR batchedTicks

/-- Consecutive calls of `pxaTimrTick` with one tick each. -/
def singleTicks (timr : PxaTimr) : ℕ → Option PxaTimr
  | 0 => some timr
  | n + 1 => (singleTicks timr n).bind fun timr => (pxaTimrTick timr 1).map Prod.fst

/-- The status bits after a pass over some timers: those of enabled matches are added. -/
structure Updated (timr timr' : PxaTimr) (idxs : List (Fin 4)) (isMatch : Fin 4 → Bool) : Prop where
  OSMR : timr'.OSMR = timr.OSMR
  OSCR : timr'.OSCR = timr.OSCR
  OIER : timr'.OIER = timr.OIER
  OWER : timr'.OWER = timr.OWER
  status : ∀ idx : Fin 4, timr'.OSSR.getLsbD idx =
    (timr.OSSR.getLsbD idx || decide (idx ∈ idxs) && (timr.OIER.getLsbD idx && isMatch idx))
  rest : ∀ j, 4 ≤ j → timr'.OSSR.getLsbD j = timr.OSSR.getLsbD j

theorem checkMatch_updated (timr : PxaTimr) (idx : Fin 4) (isMatch : Fin 4 → Bool)
    (hquiet : timr.OWER ≠ 0 → idx = 3 → isMatch 3 = false) :
    ∃ timr', checkMatch timr idx (isMatch idx) = some timr' ∧ Updated timr timr' [idx] isMatch := by
  have hidx : idx.val < 8 := by omega
  cases hmatch : isMatch idx with
  | false =>
    refine ⟨timr, by simp [checkMatch], rfl, rfl, rfl, rfl, ?_, fun _ _ => rfl⟩
    intro i
    by_cases hi : i = idx
    · simp [hi, hmatch]
    · simp [hi]
  | true =>
    have hno : ¬ (idx = 3 ∧ timr.OWER ≠ 0) := by
      rintro ⟨rfl, hower⟩
      rw [hquiet hower rfl] at hmatch
      cases hmatch
    by_cases hoier : timr.OIER.getLsbD idx = true
    · refine ⟨{ timr with OSSR := timr.OSSR ||| (1#8 <<< idx.val) }, ?_, rfl, rfl, rfl, rfl, ?_, ?_⟩
      · rw [checkMatch, if_pos rfl, if_neg hno,
          if_pos ((BitTest.and_bit_ne_zero hidx).mpr hoier)]
      · intro i
        simp only [BitVec.getLsbD_or, BitTest.getLsbD_bit hidx, List.mem_singleton, Fin.ext_iff]
        by_cases hi : i.val = idx.val
        · simp [Fin.ext hi, hoier, hmatch]
        · simp [hi]
      · intro j hj
        have hne : j ≠ idx.val := by omega
        simp [BitTest.getLsbD_bit hidx, hne]
    · refine ⟨timr, ?_, rfl, rfl, rfl, rfl, ?_, fun _ _ => rfl⟩
      · rw [checkMatch, if_pos rfl, if_neg hno,
          if_neg (by rw [BitTest.and_bit_ne_zero hidx]; exact hoier)]
      · simp [hoier]

/-- A pass over match registers, whatever the matches are computed from. -/
theorem foldlM_updated {check : PxaTimr → Fin 4 → Option PxaTimr} {isMatch : Fin 4 → Bool}
    (idxs : List (Fin 4)) (timr : PxaTimr)
    (hquiet : timr.OWER ≠ 0 → 3 ∈ idxs → isMatch 3 = false)
    (hcheck : ∀ (t : PxaTimr) (idx : Fin 4), t.OSMR = timr.OSMR → t.OSCR = timr.OSCR →
      check t idx = checkMatch t idx (isMatch idx)) :
    ∃ timr', idxs.foldlM check timr = some timr' ∧ Updated timr timr' idxs isMatch := by
  induction idxs generalizing timr with
  | nil => exact ⟨timr, rfl, rfl, rfl, rfl, rfl, by simp, fun _ _ => rfl⟩
  | cons idx idxs ih =>
    obtain ⟨t, ht, hfirst⟩ := checkMatch_updated timr idx isMatch fun h hidx =>
      hquiet h (hidx ▸ List.mem_cons_self)
    have hcheck' : ∀ (t' : PxaTimr) (i : Fin 4), t'.OSMR = t.OSMR → t'.OSCR = t.OSCR →
        check t' i = checkMatch t' i (isMatch i) := by
      intro t' i hosmr hoscr
      exact hcheck t' i (hosmr.trans hfirst.OSMR) (hoscr.trans hfirst.OSCR)
    have hquiet' : t.OWER ≠ 0 → 3 ∈ idxs → isMatch 3 = false := by
      intro hower hmem
      exact hquiet (hfirst.OWER ▸ hower) (List.mem_cons_of_mem idx hmem)
    obtain ⟨timr', hrun, hrest⟩ := ih t hquiet' hcheck'
    refine ⟨timr', ?_, hrest.OSMR.trans hfirst.OSMR, hrest.OSCR.trans hfirst.OSCR,
      hrest.OIER.trans hfirst.OIER, hrest.OWER.trans hfirst.OWER, ?_, ?_⟩
    · rwa [List.foldlM_cons, hcheck timr idx rfl rfl, ht]
    · intro i
      rw [hrest.status, hfirst.status, hfirst.OIER]
      by_cases hi : i = idx
      · subst hi
        cases timr.OIER.getLsbD i <;> cases isMatch i <;> simp
      · simp [hi]
    · intro j hj
      rw [hrest.rest j hj, hfirst.rest j hj]

theorem mem_timers (idx : Fin 4) : idx ∈ timers := by
  fin_cases idx <;> decide

/-- The status after the counter has run through a set of matches. -/
structure Ticked (timr timr' : PxaTimr) (n : ℕ) (isMatch : Fin 4 → Bool) : Prop where
  OSMR : timr'.OSMR = timr.OSMR
  OSCR : timr'.OSCR = timr.OSCR + BitVec.ofNat 32 n
  OIER : timr'.OIER = timr.OIER
  OWER : timr'.OWER = timr.OWER
  status : ∀ idx : Fin 4, timr'.OSSR.getLsbD idx =
    (timr.OSSR.getLsbD idx || timr.OIER.getLsbD idx && isMatch idx)
  rest : ∀ j, 4 ≤ j → timr'.OSSR.getLsbD j = timr.OSSR.getLsbD j

theorem Updated.ticked {timr timr' : PxaTimr} {n : ℕ} {isMatch : Fin 4 → Bool}
    (h : Updated { timr with OSCR := timr.OSCR + BitVec.ofNat 32 n } timr' timers isMatch) :
    Ticked timr timr' n isMatch := by
  refine ⟨h.OSMR, h.OSCR, h.OIER, h.OWER, ?_, h.rest⟩
  intro idx
  simpa [mem_timers] using h.status idx

theorem checkMatchSingleStep_eq (timr t : PxaTimr) (idx : Fin 4)
    (hosmr : t.OSMR = timr.OSMR) (hoscr : t.OSCR = timr.OSCR + 1) :
    pxaTimrPrvCheckMatchSingleStep t idx =
      checkMatch t idx (timr.OSCR + 1 = timr.OSMR idx) := by
  simp [pxaTimrPrvCheckMatchSingleStep, hosmr, hoscr]

theorem pxaTimrTick_one (timr : PxaTimr)
    (hquiet : timr.OWER ≠ 0 → timr.OSCR + 1 ≠ timr.OSMR 3) :
    ∃ timr', (pxaTimrTick timr 1).map Prod.fst = some timr' ∧
      Ticked timr timr' 1 fun idx => timr.OSCR + 1 = timr.OSMR idx := by
  obtain ⟨timr', hrun, hupdated⟩ := foldlM_updated timers
    { timr with OSCR := timr.OSCR + 1 } (fun hower _ => decide_eq_false (hquiet hower))
    (checkMatchSingleStep_eq timr)
  refine ⟨timr', ?_, hupdated.ticked⟩
  rw [pxaTimrTick, if_pos rfl, pxaTimrPrvUpdateSingleStep, hrun]
  rfl

theorem pxaTimrTick_batch {timr : PxaTimr} (hower : timr.OWER = 0) {n : Word} (hn : n ≠ 1) :
    ∃ timr', (pxaTimrTick timr n).map Prod.fst = some timr' ∧
      Ticked timr timr' n.toNat fun idx => n ≥ timr.OSMR idx - timr.OSCR := by
  have hcheck : ∀ (t : PxaTimr) (idx : Fin 4), t.OSMR = timr.OSMR → t.OSCR = timr.OSCR + n →
      pxaTimrPrvCheckMatchMultiStep timr.OSCR n t idx =
        checkMatch t idx (n ≥ timr.OSMR idx - timr.OSCR) := by
    intro t idx hosmr _
    simp [pxaTimrPrvCheckMatchMultiStep, hosmr]
  obtain ⟨timr', hrun, hupdated⟩ := foldlM_updated timers
    { timr with OSCR := timr.OSCR + n } (fun h _ => absurd hower h) hcheck
  have hn' : BitVec.ofNat 32 n.toNat = n := by simp
  rw [← hn'] at hupdated
  refine ⟨timr', ?_, ?_⟩
  · rw [pxaTimrTick, if_neg hn, pxaTimrPrvUpdateMultiStep, hrun]
    rfl
  · have hticked := hupdated.ticked
    rwa [hn'] at hticked

/-- The counter reaches the match register within `n` ticks. -/
def Reaches (timr : PxaTimr) (n : ℕ) (idx : Fin 4) : Prop :=
  ∃ k, 1 ≤ k ∧ k ≤ n ∧ timr.OSCR + BitVec.ofNat 32 k = timr.OSMR idx

instance (timr : PxaTimr) (n : ℕ) (idx : Fin 4) : Decidable (Reaches timr n idx) :=
  decidable_of_iff (∃ k ∈ List.range (n + 1), 1 ≤ k ∧ timr.OSCR + BitVec.ofNat 32 k = timr.OSMR idx)
    ⟨fun ⟨k, hk, hpos, heq⟩ => ⟨k, hpos, Nat.lt_succ_iff.mp (List.mem_range.mp hk), heq⟩,
      fun ⟨k, hpos, hk, heq⟩ => ⟨k, List.mem_range.mpr (Nat.lt_succ_of_le hk), hpos, heq⟩⟩

theorem Reaches.mono {timr : PxaTimr} {m n : ℕ} {idx : Fin 4} (h : Reaches timr m idx)
    (hle : m ≤ n) : Reaches timr n idx := by
  obtain ⟨k, hpos, hk, heq⟩ := h
  exact ⟨k, hpos, hk.trans hle, heq⟩

theorem singleTicks_ticked (timr : PxaTimr) (n : ℕ)
    (hquiet : timr.OWER ≠ 0 → ¬ Reaches timr n 3) :
    ∃ timr', singleTicks timr n = some timr' ∧ Ticked timr timr' n fun idx => Reaches timr n idx := by
  induction n with
  | zero =>
    refine ⟨timr, rfl, rfl, by simp, rfl, rfl, ?_, fun _ _ => rfl⟩
    intro idx
    have hno : ¬ Reaches timr 0 idx := by
      rintro ⟨k, hpos, hk, -⟩
      omega
    simp [hno]
  | succ n ih =>
    obtain ⟨t, hrun, hticked⟩ := ih fun hower hreach => hquiet hower (hreach.mono n.le_succ)
    have hlast : t.OSCR + 1 = timr.OSCR + BitVec.ofNat 32 (n + 1) := by
      rw [hticked.OSCR, BitVec.ofNat_add, add_assoc]
      rfl
    obtain ⟨timr', htick, hone⟩ := pxaTimrTick_one t fun hower hmatch =>
      hquiet (hticked.OWER ▸ hower)
        ⟨n + 1, by omega, le_rfl, hlast ▸ (hticked.OSMR ▸ hmatch)⟩
    refine ⟨timr', by rw [singleTicks, hrun, bind_some, htick],
      hone.OSMR.trans hticked.OSMR, ?_, hone.OIER.trans hticked.OIER,
      hone.OWER.trans hticked.OWER, ?_, ?_⟩
    · rw [hone.OSCR, hticked.OSCR, BitVec.ofNat_add, add_assoc]
    · intro idx
      have hstep : Reaches timr (n + 1) idx ↔ Reaches timr n idx ∨ t.OSCR + 1 = t.OSMR idx := by
        rw [hlast, hticked.OSMR]
        constructor
        · rintro ⟨k, hpos, hk, heq⟩
          by_cases hkn : k = n + 1
          · exact Or.inr (hkn ▸ heq)
          · exact Or.inl ⟨k, hpos, by omega, heq⟩
        · rintro (⟨k, hpos, hk, heq⟩ | heq)
          · exact ⟨k, hpos, by omega, heq⟩
          · exact ⟨n + 1, by omega, le_refl _, heq⟩
      rw [hone.status, hticked.status, hticked.OIER]
      simp only [hstep, Bool.decide_or]
      cases timr.OIER.getLsbD idx <;> simp [Bool.or_assoc]
    · intro j hj
      rw [hone.rest j hj, hticked.rest j hj]

/-- Within fewer than 2^32 ticks the counter reaches a register exactly when the register is
ahead of it and near enough. -/
theorem reaches_iff (timr : PxaTimr) {n : ℕ} (hn : n < 2 ^ 32) (idx : Fin 4) :
    Reaches timr n idx ↔
      timr.OSMR idx ≠ timr.OSCR ∧ (timr.OSMR idx - timr.OSCR).toNat ≤ n := by
  constructor
  · rintro ⟨k, hpos, hk, heq⟩
    rw [← heq]
    have hk32 : (BitVec.ofNat 32 k).toNat = k := by
      rw [BitVec.toNat_ofNat, Nat.mod_eq_of_lt (by omega)]
    constructor
    · intro hsame
      have hzero : BitVec.ofNat 32 k = 0 := by simpa using hsame
      rw [hzero] at hk32
      simp at hk32
      omega
    · rwa [add_sub_cancel_left, hk32]
  · rintro ⟨hne, hle⟩
    refine ⟨(timr.OSMR idx - timr.OSCR).toNat, ?_, hle, ?_⟩
    · apply Nat.pos_of_ne_zero
      intro hzero
      apply hne
      apply sub_eq_zero.mp
      apply BitVec.eq_of_toNat_eq
      rw [hzero]
      rfl
    · rw [BitVec.ofNat_toNat, BitVec.setWidth_eq, add_sub_cancel]

/-- The match register equals the counter and its interrupt is enabled and not yet recorded. -/
def PendingAtStart (timr : PxaTimr) (idx : Fin 4) : Prop :=
  timr.OSMR idx = timr.OSCR ∧ timr.OIER.getLsbD idx = true ∧ timr.OSSR.getLsbD idx = false

/-- The part of the timer that the emulated software can observe of a tick. -/
def counterAndStatus (timr : PxaTimr) : Word × BitVec 8 :=
  (timr.OSCR, timr.OSSR)

theorem Ticked.counterAndStatus_eq_iff {timr t t' : PxaTimr} {n : ℕ} {m m' : Fin 4 → Bool}
    (h : Ticked timr t n m) (h' : Ticked timr t' n m') :
    counterAndStatus t = counterAndStatus t' ↔
      ∀ idx : Fin 4, timr.OIER.getLsbD idx = true → timr.OSSR.getLsbD idx = false →
        m idx = m' idx := by
  have hoscr : t.OSCR = t'.OSCR := h.OSCR.trans h'.OSCR.symm
  constructor
  · intro heq idx hoier hossr
    have hstatus : t.OSSR = t'.OSSR := congrArg Prod.snd heq
    have hbit := h.status idx
    rw [hstatus, h'.status idx] at hbit
    simpa [hoier, hossr] using hbit.symm
  · intro hmatch
    apply Prod.ext hoscr
    apply BitVec.eq_of_getLsbD_eq
    intro j _
    by_cases hj : j < 4
    · have hbit := h.status ⟨j, hj⟩
      have hbit' := h'.status ⟨j, hj⟩
      simp only [counterAndStatus]
      grind
    · have hrest : t.OSSR.getLsbD j = t'.OSSR.getLsbD j :=
        (h.rest j (by omega)).trans (h'.rest j (by omega)).symm
      exact hrest

/-- A batch of ticks leaves the counter and the status as the single ticks do, unless it is longer
than one tick and starts on an enabled match register. -/
theorem pxaTimrTick_eq_singleTicks_iff (timr : PxaTimr) (n : Word) (hower : timr.OWER = 0) :
    (pxaTimrTick timr n).map (fun r => counterAndStatus r.1) =
        (singleTicks timr n.toNat).map counterAndStatus ↔
      n = 1 ∨ ∀ idx : Fin 4, ¬ PendingAtStart timr idx := by
  by_cases hone : n = 1
  · simp only [hone, true_or, iff_true]
    show _ = (((some timr).bind fun timr => (pxaTimrTick timr 1).map Prod.fst)).map _
    rw [bind_some, map_map]
    rfl
  · obtain ⟨t, hbatch, hticked⟩ := pxaTimrTick_batch hower hone
    obtain ⟨t', hsingle, hticked'⟩ := singleTicks_ticked timr n.toNat fun h => absurd hower h
    have hmap : (pxaTimrTick timr n).map (fun r => counterAndStatus r.1) =
        ((pxaTimrTick timr n).map Prod.fst).map counterAndStatus := by
      rw [map_map]
      rfl
    rw [hmap, hbatch, hsingle, map_some, map_some, some_inj,
      hticked.counterAndStatus_eq_iff hticked']
    simp only [hone, false_or]
    apply forall_congr'
    intro idx
    have hreach := reaches_iff timr n.isLt idx
    have hle : n ≥ timr.OSMR idx - timr.OSCR ↔ (timr.OSMR idx - timr.OSCR).toNat ≤ n.toNat :=
      Iff.rfl
    have hsame : timr.OSMR idx = timr.OSCR → (timr.OSMR idx - timr.OSCR).toNat ≤ n.toNat := by
      intro heq
      simp [heq]
    simp only [PendingAtStart, decide_eq_decide, hreach, hle]
    tauto

theorem pxaTimrTick_eq_singleTicks_wraps :
    (pxaTimrTick ⟨fun _ => 1#32, 0xFFFFFFFE#32, 1#8, 0#8, 0#8⟩ 5#32).map
        (fun r => counterAndStatus r.1) =
      (singleTicks ⟨fun _ => 1#32, 0xFFFFFFFE#32, 1#8, 0#8, 0#8⟩ 5).map counterAndStatus :=
  (pxaTimrTick_eq_singleTicks_iff ⟨fun _ => 1#32, 0xFFFFFFFE#32, 1#8, 0#8, 0#8⟩ 5#32 rfl).mpr
    (Or.inr fun _ h => absurd (show (1#32 : Word) = 0xFFFFFFFE#32 from h.1) (by decide))

/-- Two ticks from a counter that sits on an enabled match register. -/
theorem pxaTimrTick_two_ne_singleTicks :
    (pxaTimrTick ⟨fun _ => 0#32, 0#32, 1#8, 0#8, 0#8⟩ 2#32).map (fun r => counterAndStatus r.1) ≠
      (singleTicks ⟨fun _ => 0#32, 0#32, 1#8, 0#8, 0#8⟩ 2).map counterAndStatus := by
  decide

end Cloudpilot.Uarm.Timr
