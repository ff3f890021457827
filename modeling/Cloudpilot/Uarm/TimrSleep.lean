import Cloudpilot.Uarm.PxaTimr

/-! # How long the timer may sleep

`pxaTimrTicksToNextInterrupt` is the distance to the next match that can raise an interrupt.
A channel whose register equals the counter is one full turn away, which is more than the
function can return; an interrupt that is pending already makes it return a single tick.
-/

namespace Cloudpilot.Uarm.Timr

open Cloudpilot.Uarm.Cpu Cloudpilot.Library List

/-- The loop of `pxaTimrTicksToNextInterrupt` over some channels. -/
def nextInterruptLoop (timr : PxaTimr) : List (Fin 4) → Word → Word
  | [], ticksToNextInterrupt => ticksToNextInterrupt
  | i :: idxs, ticksToNextInterrupt =>
    let v : BitVec 8 := 1#8 <<< i.val
    if timr.OIER &&& v = 0 then nextInterruptLoop timr idxs ticksToNextInterrupt
    else if timr.OSSR &&& v ≠ 0 then 1
    else
      let delta := timr.OSMR i - timr.OSCR
      nextInterruptLoop timr idxs
        (if delta < ticksToNextInterrupt ∧ delta ≠ 0 then delta else ticksToNextInterrupt)

def pxaTimrTicksToNextInterrupt (timr : PxaTimr) : Word := nextInterruptLoop timr timers (~~~0)

/-- The interrupt of a channel is enabled and recorded. -/
def Pending (timr : PxaTimr) (idx : Fin 4) : Prop :=
  timr.OIER.getLsbD idx = true ∧ timr.OSSR.getLsbD idx = true

/-- The interrupt of a channel is enabled and not recorded. -/
def Waits (timr : PxaTimr) (idx : Fin 4) : Prop :=
  timr.OIER.getLsbD idx = true ∧ timr.OSSR.getLsbD idx = false

/-- A status bit is set that is enabled and was clear. -/
def Sets (timr timr' : PxaTimr) (j : ℕ) : Prop :=
  timr.OIER.getLsbD j = true ∧ timr.OSSR.getLsbD j = false ∧ timr'.OSSR.getLsbD j = true

/-- The watchdog ends the emulator within `n` ticks. -/
def WatchdogFires (timr : PxaTimr) (n : ℕ) : Prop := timr.OWER ≠ 0 ∧ Reaches timr n 3

def delta (timr : PxaTimr) (idx : Fin 4) : Word := timr.OSMR idx - timr.OSCR

variable {timr timr' : PxaTimr} {idxs : List (Fin 4)} {i : Fin 4} {ticks : Word} {n : ℕ}

theorem nextInterruptLoop_disabled (h : timr.OIER.getLsbD i = false) :
    nextInterruptLoop timr (i :: idxs) ticks = nextInterruptLoop timr idxs ticks := by
  have hoff : timr.OIER &&& (1#8 <<< i.val) = 0 := by
    by_contra hne
    rw [← ne_eq, BitTest.and_bit_ne_zero (by omega), h] at hne
    cases hne
  rw [nextInterruptLoop, if_pos hoff]

theorem nextInterruptLoop_pending (h : Pending timr i) :
    nextInterruptLoop timr (i :: idxs) ticks = 1 := by
  rw [nextInterruptLoop, if_neg ((BitTest.and_bit_ne_zero (by omega)).mpr h.1),
    if_pos ((BitTest.and_bit_ne_zero (by omega)).mpr h.2)]

theorem nextInterruptLoop_waits (h : Waits timr i) :
    nextInterruptLoop timr (i :: idxs) ticks = nextInterruptLoop timr idxs
      (if delta timr i < ticks ∧ delta timr i ≠ 0 then delta timr i else ticks) := by
  have hclear : ¬ timr.OSSR &&& (1#8 <<< i.val) ≠ 0 := by
    rw [BitTest.and_bit_ne_zero (by omega), h.2]
    exact Bool.false_ne_true
  rw [nextInterruptLoop, if_neg ((BitTest.and_bit_ne_zero (by omega)).mpr h.1), if_neg hclear]
  rfl

theorem channel_cases (timr : PxaTimr) (i : Fin 4) :
    timr.OIER.getLsbD i = false ∨ Pending timr i ∨ Waits timr i := by
  cases hoier : timr.OIER.getLsbD i with
  | false => exact .inl rfl
  | true =>
    cases hossr : timr.OSSR.getLsbD i with
    | false => exact .inr (.inr ⟨hoier, hossr⟩)
    | true => exact .inr (.inl ⟨hoier, hossr⟩)

theorem nextInterruptLoop_of_pending (hi : i ∈ idxs) (h : Pending timr i) :
    nextInterruptLoop timr idxs ticks = 1 := by
  induction idxs generalizing ticks with
  | nil => cases hi
  | cons k idxs ih =>
    by_cases hk : Pending timr k
    · exact nextInterruptLoop_pending hk
    · have hmem : i ∈ idxs := by grind
      rcases channel_cases timr k with hoff | hpending | hwaits
      · rw [nextInterruptLoop_disabled hoff]
        exact ih hmem
      · grind
      · rw [nextInterruptLoop_waits hwaits]
        exact ih hmem

/-- Without a pending interrupt the loop returns the least distance, if there is one below the
number that it starts with. -/
structure IsNext (timr : PxaTimr) (idxs : List (Fin 4)) (ticks next : Word) : Prop where
  le : next ≤ ticks
  least : ∀ i ∈ idxs, Waits timr i → delta timr i ≠ 0 → next ≤ delta timr i
  attained : next = ticks ∨ ∃ i ∈ idxs, Waits timr i ∧ delta timr i ≠ 0 ∧ next = delta timr i

theorem nextInterruptLoop_isNext (ticks : Word) (h : ∀ i ∈ idxs, ¬ Pending timr i) :
    IsNext timr idxs ticks (nextInterruptLoop timr idxs ticks) := by
  induction idxs generalizing ticks with
  | nil => exact ⟨BitVec.le_refl ticks, by simp, .inl rfl⟩
  | cons k idxs ih =>
    rw [forall_mem_cons] at h
    rcases channel_cases timr k with hoff | hpending | hwaits
    · rw [nextInterruptLoop_disabled hoff]
      obtain ⟨hle, hleast, hattained⟩ := ih ticks h.2
      refine ⟨hle, forall_mem_cons.mpr ⟨fun hk => ?_, hleast⟩, hattained.imp_right ?_⟩
      · rw [hk.1] at hoff
        cases hoff
      · rintro ⟨i, hi, hnext⟩
        exact ⟨i, mem_cons_of_mem k hi, hnext⟩
    · grind
    · rw [nextInterruptLoop_waits hwaits]
      by_cases hnear : delta timr k < ticks ∧ delta timr k ≠ 0
      · rw [if_pos hnear]
        obtain ⟨hle, hleast, hattained⟩ := ih (delta timr k) h.2
        refine ⟨BitVec.le_trans hle (BitVec.le_of_lt hnear.1),
          forall_mem_cons.mpr ⟨fun _ _ => hle, hleast⟩, .inr ?_⟩
        rcases hattained with heq | ⟨i, hi, hnext⟩
        · exact ⟨k, mem_cons_self, hwaits, hnear.2, heq⟩
        · exact ⟨i, mem_cons_of_mem k hi, hnext⟩
      · rw [if_neg hnear]
        obtain ⟨hle, hleast, hattained⟩ := ih ticks h.2
        refine ⟨hle, forall_mem_cons.mpr ⟨fun _ hne => ?_, hleast⟩, hattained.imp_right ?_⟩
        · exact BitVec.le_trans hle (BitVec.not_lt.mp fun hlt => hnear ⟨hlt, hne⟩)
        · rintro ⟨i, hi, hnext⟩
          exact ⟨i, mem_cons_of_mem k hi, hnext⟩

theorem pxaTimrTick_one_eq_none (hower : timr.OWER ≠ 0) (hmatch : timr.OSCR + 1 = timr.OSMR 3) :
    pxaTimrTick timr 1 = none := by
  obtain ⟨t, hrun, hupdated⟩ := foldlM_updated [0, 1, 2]
    { timr with OSCR := timr.OSCR + 1 } (by simp) (checkMatchSingleStep_eq timr)
  have hlast : pxaTimrPrvCheckMatchSingleStep t 3 = none := by
    rw [checkMatchSingleStep_eq timr t 3 hupdated.OSMR hupdated.OSCR, checkMatch, if_pos (decide_eq_true hmatch),
      if_pos ⟨rfl, hupdated.OWER ▸ hower⟩]
  have hsplit : timers = [0, 1, 2] ++ [3] := rfl
  rw [pxaTimrTick, if_pos rfl, pxaTimrPrvUpdateSingleStep, hsplit, foldlM_append, hrun]
  change Option.map _ ((pxaTimrPrvCheckMatchSingleStep t 3).bind _) = none
  rw [hlast]
  rfl

theorem reaches_succ_iff {t : PxaTimr} {isMatch : Fin 4 → Bool} (h : Ticked timr t n isMatch) :
    Reaches timr (n + 1) i ↔ Reaches timr n i ∨ t.OSCR + 1 = t.OSMR i := by
  have hlast : t.OSCR + 1 = timr.OSCR + BitVec.ofNat 32 (n + 1) := by
    rw [h.OSCR, BitVec.ofNat_add, add_assoc]
    rfl
  rw [hlast, h.OSMR]
  constructor
  · rintro ⟨k, hpos, hk, heq⟩
    by_cases hkn : k = n + 1
    · exact .inr (hkn ▸ heq)
    · exact .inl ⟨k, hpos, by omega, heq⟩
  · rintro (hreach | heq)
    · exact hreach.mono n.le_succ
    · exact ⟨n + 1, by omega, le_rfl, heq⟩

theorem singleTicks_eq_none (h : WatchdogFires timr n) : singleTicks timr n = none := by
  induction n with
  | zero =>
    obtain ⟨-, k, hpos, hk, -⟩ := h
    omega
  | succ n ih =>
    by_cases hbefore : WatchdogFires timr n
    · grind [singleTicks]
    · have hquiet : timr.OWER ≠ 0 → ¬ Reaches timr n 3 := fun hower hreach =>
        hbefore ⟨hower, hreach⟩
      obtain ⟨t, hrun, hticked⟩ := singleTicks_ticked timr n hquiet
      have hmatch : t.OSCR + 1 = t.OSMR 3 :=
        ((reaches_succ_iff hticked).mp h.2).resolve_left (hquiet h.1)
      have hower : t.OWER ≠ 0 := hticked.OWER ▸ h.1
      rw [singleTicks, hrun, Option.bind_some, pxaTimrTick_one_eq_none hower hmatch]
      rfl

theorem ticked_of_singleTicks (h : singleTicks timr n = some timr') :
    Ticked timr timr' n fun idx => Reaches timr n idx := by
  have hquiet : timr.OWER ≠ 0 → ¬ Reaches timr n 3 := by
    intro hower hreach
    rw [singleTicks_eq_none ⟨hower, hreach⟩] at h
    cases h
  obtain ⟨t, hrun, hticked⟩ := singleTicks_ticked timr n hquiet
  rw [h] at hrun
  cases hrun
  exact hticked

theorem pos_pxaTimrTicksToNextInterrupt (timr : PxaTimr) :
    1 ≤ (pxaTimrTicksToNextInterrupt timr).toNat := by
  by_cases hpending : ∃ i, Pending timr i
  · obtain ⟨i, hi⟩ := hpending
    rw [pxaTimrTicksToNextInterrupt, nextInterruptLoop_of_pending (mem_timers i) hi]
    decide
  · have hnext : IsNext timr timers (~~~0) (pxaTimrTicksToNextInterrupt timr) :=
      nextInterruptLoop_isNext _ fun i _ hi => hpending ⟨i, hi⟩
    rcases hnext.attained with heq | ⟨i, -, -, hne, heq⟩
    · rw [heq]
      decide
    · rw [heq]
      apply Nat.pos_of_ne_zero
      intro hzero
      exact hne (BitVec.eq_of_toNat_eq hzero)

theorem Sets.reaches {j : ℕ} (h : singleTicks timr n = some timr') (hsets : Sets timr timr' j) :
    ∃ i : Fin 4, i.val = j ∧ Waits timr i ∧ Reaches timr n i := by
  have hticked := ticked_of_singleTicks h
  obtain ⟨hoier, hclear, hset⟩ := hsets
  by_cases hj : j < 4
  · use ⟨j, hj⟩
    have hstatus := hticked.status ⟨j, hj⟩
    simp only [hset, hclear, hoier, Bool.false_or, Bool.true_and] at hstatus
    exact ⟨rfl, ⟨hoier, hclear⟩, of_decide_eq_true hstatus.symm⟩
  · rw [hticked.rest j (by omega), hclear] at hset
    cases hset

theorem not_sets_before {m j : ℕ} (hm : m < (pxaTimrTicksToNextInterrupt timr).toNat)
    (h : singleTicks timr m = some timr') : ¬ Sets timr timr' j := by
  intro hsets
  obtain ⟨i, -, hwaits, hreach⟩ := hsets.reaches h
  obtain ⟨hne, hle⟩ := (reaches_iff timr (by omega) i).mp hreach
  by_cases hpending : ∃ k, Pending timr k
  · obtain ⟨k, hk⟩ := hpending
    rw [pxaTimrTicksToNextInterrupt, nextInterruptLoop_of_pending (mem_timers k) hk] at hm
    obtain ⟨count, hpos, hcount, -⟩ := hreach
    have hone : (1 : Word).toNat = 1 := rfl
    omega
  · have hnext : IsNext timr timers (~~~0) (pxaTimrTicksToNextInterrupt timr) :=
      nextInterruptLoop_isNext _ fun k _ hk => hpending ⟨k, hk⟩
    have hleast : (pxaTimrTicksToNextInterrupt timr).toNat ≤ (delta timr i).toNat :=
      hnext.least i (mem_timers i) hwaits (sub_ne_zero.mpr hne)
    have hdelta : (delta timr i).toNat ≤ m := hle
    omega

theorem exists_next (hpending : ∀ i, ¬ Pending timr i) (hwaits : Waits timr i)
    (hreach : Reaches timr (2 ^ 32 - 1) i) :
    ∃ k, Waits timr k ∧ delta timr k ≠ 0 ∧ delta timr k = pxaTimrTicksToNextInterrupt timr := by
  have hnext : IsNext timr timers (~~~0) (pxaTimrTicksToNextInterrupt timr) :=
    nextInterruptLoop_isNext _ fun k _ => hpending k
  have hne : delta timr i ≠ 0 :=
    sub_ne_zero.mpr ((reaches_iff timr (by omega) i).mp hreach).1
  rcases hnext.attained with heq | ⟨k, -, hk, hkne, heq⟩
  · refine ⟨i, hwaits, hne, BitVec.le_antisymm ?_ (hnext.least i (mem_timers i) hwaits hne)⟩
    have hones : (~~~0 : Word).toNat = 2 ^ 32 - 1 := by decide
    rw [heq, BitVec.le_def, hones]
    omega
  · exact ⟨k, hk, hkne, heq.symm⟩

theorem exists_sets (hpending : ∀ i, ¬ Pending timr i) (hwaits : Waits timr i)
    (hreach : Reaches timr (2 ^ 32 - 1) i)
    (hquiet : ¬ WatchdogFires timr (pxaTimrTicksToNextInterrupt timr).toNat) :
    ∃ t t', singleTicks timr ((pxaTimrTicksToNextInterrupt timr).toNat - 1) = some t ∧
      (pxaTimrTick t 1).map Prod.fst = some t' ∧ ∃ j, Sets timr t' j ∧ Sets t t' j := by
  obtain ⟨k, hk, hne, hdelta⟩ := exists_next hpending hwaits hreach
  have hpos := pos_pxaTimrTicksToNextInterrupt timr
  obtain ⟨m, hm⟩ : ∃ m, (pxaTimrTicksToNextInterrupt timr).toNat = m + 1 :=
    Nat.exists_eq_succ_of_ne_zero (by omega)
  have hbefore : m < (pxaTimrTicksToNextInterrupt timr).toNat := by omega
  have hmatch : Reaches timr (m + 1) k := by
    rw [reaches_iff timr (by omega), ← hm, ← hdelta]
    exact ⟨sub_ne_zero.mp hne, le_rfl⟩
  rw [hm] at hquiet ⊢
  obtain ⟨t', hrun', hticked'⟩ := singleTicks_ticked timr (m + 1)
    fun hower h => hquiet ⟨hower, h⟩
  obtain ⟨t, hrun, hticked⟩ := singleTicks_ticked timr m
    fun hower h => hquiet ⟨hower, h.mono m.le_succ⟩
  have htick : (pxaTimrTick t 1).map Prod.fst = some t' := by
    rwa [singleTicks, hrun, Option.bind_some] at hrun'
  have hset : t'.OSSR.getLsbD k = true := by
    rw [hticked'.status k, hk.1, decide_eq_true hmatch]
    exact Bool.or_true _
  have hclear : t.OSSR.getLsbD k = false := by
    by_contra hbit
    exact not_sets_before hbefore hrun ⟨hk.1, hk.2, Bool.eq_true_of_not_eq_false hbit⟩
  exact ⟨t, t', hrun, htick, k, ⟨hk.1, hk.2, hset⟩, ⟨hticked.OIER ▸ hk.1, hclear, hset⟩⟩

/-- The timer may sleep for as long as the function says: no interrupt is missed, and the last
tick raises the one that it waits for, unless the watchdog ends the emulator by then. -/
theorem pxaTimrTicksToNextInterrupt_spec (timr : PxaTimr) :
    1 ≤ (pxaTimrTicksToNextInterrupt timr).toNat ∧
      (∀ m < (pxaTimrTicksToNextInterrupt timr).toNat, ∀ timr',
        singleTicks timr m = some timr' → ∀ j, ¬ Sets timr timr' j) ∧
      ((∃ i, Waits timr i ∧ Reaches timr (2 ^ 32 - 1) i) → (∀ i, ¬ Pending timr i) →
        (WatchdogFires timr (pxaTimrTicksToNextInterrupt timr).toNat →
          singleTicks timr (pxaTimrTicksToNextInterrupt timr).toNat = none) ∧
        (¬ WatchdogFires timr (pxaTimrTicksToNextInterrupt timr).toNat →
          ∃ t t', singleTicks timr ((pxaTimrTicksToNextInterrupt timr).toNat - 1) = some t ∧
            (pxaTimrTick t 1).map Prod.fst = some t' ∧ ∃ j, Sets timr t' j ∧ Sets t t' j)) := by
  refine ⟨pos_pxaTimrTicksToNextInterrupt timr, fun m hm timr' h j => not_sets_before hm h, ?_⟩
  rintro ⟨i, hwaits, hreach⟩ hpending
  exact ⟨singleTicks_eq_none, exists_sets hpending hwaits hreach⟩

/-- Two ticks in front of a match of the first channel, with a watchdog that fires after one. -/
theorem watchdog_before_interrupt :
    ∃ timr : PxaTimr, (∃ i, Waits timr i ∧ Reaches timr (2 ^ 32 - 1) i) ∧
      (∀ i, ¬ Pending timr i) ∧
      ¬ ∃ t t', singleTicks timr ((pxaTimrTicksToNextInterrupt timr).toNat - 1) = some t ∧
        (pxaTimrTick t 1).map Prod.fst = some t' ∧ ∃ j, Sets t t' j := by
  use ⟨fun i => if i = 3 then 1 else 2, 0, 1, 1, 0⟩
  refine ⟨⟨0, ⟨rfl, rfl⟩, 2, by omega, by omega, by decide⟩, ?_, ?_⟩
  · rintro i ⟨-, hossr⟩
    simp at hossr
  · rintro ⟨t, t', hrun, -⟩
    cases hrun

end Cloudpilot.Uarm.Timr
