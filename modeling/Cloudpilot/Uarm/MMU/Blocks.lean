import Cloudpilot.Uarm.MMU.Lines

/-! # Translations inside one block of 1024 bytes

The smallest mapping has 1024 bytes, so one translation serves a whole block: the other
addresses of the block lie at the same distance behind it, and translating them changes
nothing more.
-/
namespace Cloudpilot.Uarm.MMU
open Cloudpilot.Uarm.Cpu Cloudpilot.Library Cloudpilot.Library.AlignedBlock

variable {mmu : ArmMmu} {a b : Word} {priviledged write : Bool}

/-- What the macros make of a result: a physical address or a fault status. -/
def translateResultOutcome (result : MMUTranslateResult) : Except Fsr Word :=
  if mmuTranslateResultOk result then .ok (mmuTranslateResultPa result)
  else .error (mmuTranslateResultFsr result)

theorem translateResultFault_fsr (fsr : Fsr) :
    mmuTranslateResultFsr (translateResultFault fsr) = fsr := by
  apply BitVec.eq_of_getLsbD_eq
  intro i hi
  have hff : (0xff#64).getLsbD i = true := by
    interval_cases i <;> decide
  simp only [mmuTranslateResultFsr, translateResultFault, BitVec.getLsbD_setWidth, BitVec.getLsbD_and,
    BitVec.getLsbD_ushiftRight, BitVec.getLsbD_or, BitVec.getLsbD_shiftLeft, hff]
  have hne : 32 + i - 63 = 0 := by omega
  have hlt : i < 64 := by omega
  simp [hne, hi, hlt, show 32 + i < 64 by omega, show 32 + i < 63 by omega,
    show ¬ 32 + i < 32 by omega]

theorem outcome_translateResult (pa : Word) (c : Bool) :
    translateResultOutcome (translateResult pa c) = .ok pa := by
  rw [translateResultOutcome, translateResult_ok, if_pos rfl, translateResult_pa]

theorem outcome_translateResultFault (fsr : Fsr) :
    translateResultOutcome (translateResultFault fsr) = .error fsr := by
  rw [translateResultOutcome, translateResultFault_ok, if_neg Bool.false_ne_true,
    translateResultFault_fsr]

/-- The permission check of an access. -/
def permitted (mmu : ArmMmu) (ap : BitVec 2) (domain : BitVec 4) (isSection priviledged write : Bool)
    (pa : Word) : Except Fsr Word :=
  let fsr := checkPermissionsForWrite mmu ap domain isSection priviledged
  if write = true ∧ fsr ≠ 0 then .error fsr else .ok pa

theorem outcome_translated (mmu : ArmMmu) (pa : Word) (ap : BitVec 2) (domain : BitVec 4)
    (isSection c priviledged write : Bool) :
    translateResultOutcome (translated mmu pa ap domain isSection c priviledged write) =
      permitted mmu ap domain isSection priviledged write pa := by
  rw [translated, permitted]
  split_ifs
  · exact outcome_translateResultFault _
  · exact outcome_translateResult pa c

/-- What a translation comes to. -/
def outcome (mmu : ArmMmu) (addr : Word) (priviledged write : Bool) : Except Fsr Word :=
  if mmu.transTablPA = mmuDisabledTTP then .ok addr
  else
    let e := mmu.tlb (tlbIndex addr)
    if e.revision ≠ mmu.revision then do
      let p ← walk mmu addr
      permitted mmu p.ap p.dom p.isSection priviledged write ((addr - p.va) + p.paPage)
    else permitted mmu e.ap e.domain e.isSection priviledged write ((addr &&& 0xfff#32) + e.pa)

theorem outcome_mmuTranslate (mmu : ArmMmu) (addr : Word) (priviledged write : Bool) :
    translateResultOutcome (mmuTranslate mmu addr priviledged write).1 =
      outcome mmu addr priviledged write := by
  rw [mmuTranslate, outcome]
  split_ifs with hoff
  · exact outcome_translateResult addr false
  · dsimp only
    split_ifs
    · rw [translateAndCache]
      cases walk mmu addr with
      | error fsr => exact outcome_translateResultFault fsr
      | ok p => exact outcome_translated mmu _ p.ap p.dom p.isSection p.c priviledged write
    · exact outcome_translated mmu _ _ _ _ _ priviledged write

theorem fsrInDomain_low (fsr : Fsr) (dom : BitVec 4) : fsrInDomain fsr dom &&& 0x0F#8 = fsr &&& 0x0F#8 := by
  apply BitVec.eq_of_getLsbD_eq
  intro i hi
  simp only [fsrInDomain, BitVec.getLsbD_and, BitVec.getLsbD_or, BitVec.getLsbD_shiftLeft]
  interval_cases i <;> simp

theorem fsrInDomain_ne {fsr other : Fsr} (h : fsr &&& 0x0F#8 ≠ other &&& 0x0F#8) (dom : BitVec 4) :
    fsrInDomain fsr dom ≠ other := by
  rintro rfl
  exact h (fsrInDomain_low fsr dom).symm

theorem checkPermissionsForWrite_ne (mmu : ArmMmu) (ap : BitVec 2) (domain : BitVec 4)
    (isSection priviledged : Bool) :
    checkPermissionsForWrite mmu ap domain isSection priviledged ≠ 10 := by
  unfold checkPermissionsForWrite
  dsimp only
  split_ifs <;> first | decide | exact fsrInDomain_ne (by decide) domain

theorem permitted_error {ap : BitVec 2} {domain : BitVec 4} {isSection : Bool} {pa : Word} {fsr : Fsr}
    (h : permitted mmu ap domain isSection priviledged write pa = .error fsr) :
    write = true ∧ fsr ≠ 0 ∧ fsr ≠ 10 := by
  rw [permitted] at h
  split_ifs at h with hfault
  · obtain rfl := Except.error.inj h
    exact ⟨hfault.1, hfault.2, checkPermissionsForWrite_ne mmu ap domain isSection priviledged⟩

theorem walk_error {fsr : Fsr} (h : walk mmu a = .error fsr) : fsr ≠ 0 := by
  have hpage : ∀ {coarse : Bool} {t : Word} {dom : BitVec 4},
      pageDescriptor mmu.xscale coarse a t dom = .error fsr → fsr ≠ 0 := by
    intro coarse t dom hpage
    unfold pageDescriptor at hpage
    split_ifs at hpage
    · obtain rfl := Except.error.inj hpage
      exact fsrInDomain_ne (by decide) dom
    · obtain rfl := Except.error.inj hpage
      decide
  have hsecond : ∀ {coarse : Bool} {slot : Word} {dom : BitVec 4},
      secondLevel mmu coarse slot a dom = .error fsr → fsr ≠ 0 := by
    intro coarse slot dom hsecond
    rw [secondLevel] at hsecond
    cases hmem : mmu.mem slot with
    | none =>
      rw [hmem] at hsecond
      obtain rfl := Except.error.inj hsecond
      exact fsrInDomain_ne (by decide) dom
    | some t =>
      rw [hmem] at hsecond
      exact hpage hsecond
  rw [walk] at h
  split_ifs at h with halign
  · obtain rfl := Except.error.inj h
    decide
  · cases hmem : mmu.mem (firstLevelSlot mmu a) with
    | none =>
      rw [hmem] at h
      obtain rfl := Except.error.inj h
      decide
    | some t =>
      rw [hmem] at h
      dsimp only [firstLevel] at h
      split_ifs at h
      · obtain rfl := Except.error.inj h
        decide
      · exact hsecond h
      · exact hsecond h

theorem outcome_error {fsr : Fsr} (h : outcome mmu a priviledged write = .error fsr) : fsr ≠ 0 := by
  rw [outcome] at h
  dsimp only at h
  split_ifs at h
  · cases hwalk : walk mmu a with
    | error fsr' =>
      rw [hwalk] at h
      obtain rfl := Except.error.inj h
      exact walk_error hwalk
    | ok p =>
      rw [hwalk] at h
      exact (permitted_error h).2.1
  · exact (permitted_error h).2.1

theorem outcome_write_or (mmu : ArmMmu) (a : Word) (priviledged : Bool) :
    outcome mmu a priviledged true = outcome mmu a priviledged false ∨
      ∃ pa fsr, outcome mmu a priviledged false = .ok pa ∧
        outcome mmu a priviledged true = .error fsr ∧ fsr ≠ 0 ∧ fsr ≠ 10 := by
  have hpermitted : ∀ ap domain isSection pa,
      permitted mmu ap domain isSection priviledged true pa =
        permitted mmu ap domain isSection priviledged false pa ∨
      ∃ pa' fsr, permitted mmu ap domain isSection priviledged false pa = .ok pa' ∧
        permitted mmu ap domain isSection priviledged true pa = .error fsr ∧ fsr ≠ 0 ∧ fsr ≠ 10 := by
    intro ap domain isSection pa
    cases hwrite : permitted mmu ap domain isSection priviledged true pa with
    | error fsr => exact .inr ⟨pa, fsr, rfl, rfl, (permitted_error hwrite).2⟩
    | ok pa' => grind [permitted]
  unfold outcome
  split_ifs with hoff
  · simp
  · dsimp only
    split_ifs
    · cases walk mmu a with
      | error fsr => exact .inl rfl
      | ok p => exact hpermitted p.ap p.dom p.isSection _
    · exact hpermitted _ _ _ _

theorem tlbIndex_congr (h : b >>> 10 = a >>> 10) : tlbIndex b = tlbIndex a := by
  rw [tlbIndex, tlbIndex, shiftRight_eq_of_le h (by decide : 10 ≤ 12)]

theorem pageOffset_sub (h : b >>> 10 = a >>> 10) :
    (b &&& 0xfff#32) = (a &&& 0xfff#32) + (b - a) := by
  have hblock := toNat_div_eq_of_shiftRight_eq h
  apply BitVec.eq_of_toNat_eq
  rw [BitVec.toNat_add, BitVec.toNat_sub, toNat_and_fff, toNat_and_fff]
  omega

theorem permitted_map (ap : BitVec 2) (domain : BitVec 4) (isSection : Bool) (pa d : Word) :
    permitted mmu ap domain isSection priviledged write (pa + d) =
      (permitted mmu ap domain isSection priviledged write pa).map (· + d) := by
  rw [permitted, permitted]
  split_ifs <;> rfl

theorem outcome_block (h : b >>> 10 = a >>> 10) (mmu : ArmMmu) (priviledged write : Bool) :
    outcome mmu b priviledged write = (outcome mmu a priviledged write).map (· + (b - a)) := by
  rw [outcome, outcome, tlbIndex_congr h, walk_congr h]
  dsimp only
  split_ifs
  · exact congrArg Except.ok (add_sub_cancel a b).symm
  · cases walk mmu a with
    | error fsr => rfl
    | ok p =>
      change permitted _ _ _ _ _ _ _ = (permitted _ _ _ _ _ _ _).map _
      rw [← permitted_map]
      congr 1
      ring
  · rw [← permitted_map, pageOffset_sub h]
    congr 1
    ring

theorem fillTlb_filled (mmu : ArmMmu) (p : Mapping) {n j : ℕ} (hj : j < n) {i : Page}
    (hi : i = tlbIndex (p.va + BitVec.ofNat 32 (j * 4096))) :
    ∃ j < n, i = tlbIndex (p.va + BitVec.ofNat 32 (j * 4096)) ∧
      fillTlb mmu p n i = p.entry mmu.revision (BitVec.ofNat 32 (j * 4096)) := by
  induction n with
  | zero => exact absurd hj (Nat.not_lt_zero j)
  | succ n ih =>
    by_cases hlast : i = tlbIndex (p.va + BitVec.ofNat 32 (n * 4096))
    · exact ⟨n, Nat.lt_succ_self n, hlast, by rw [fillTlb, hlast, Function.update_self]⟩
    · have hlt : j < n := by
        rcases Nat.lt_succ_iff_lt_or_eq.mp hj with hlt | rfl
        · exact hlt
        · exact absurd hi hlast
      obtain ⟨j', hj', hij, he⟩ := ih hlt
      exact ⟨j', Nat.lt_succ_of_lt hj', hij, by rw [fillTlb, Function.update_of_ne hlast, he]⟩

theorem walk_blockOf {p : Mapping} (h : walk mmu a = .ok p) (hsz : 1024 < p.sz) :
    ∃ k, BlockOf k a p := by
  rw [walk] at h
  split_ifs at h
  cases hd : mmu.mem (firstLevelSlot mmu a) with
  | none =>
    rw [hd] at h
    cases h
  | some d =>
    rw [hd] at h
    dsimp only [firstLevel] at h
    split_ifs at h
    · obtain ⟨t, -, hpage⟩ := secondLevel_ok h
      obtain ⟨k, hblock, -⟩ := pageDescriptor_block hpage hsz
      exact ⟨k, hblock⟩
    · cases h
      exact ⟨20, sectionMapping_block a d _⟩
    · obtain ⟨t, -, hpage⟩ := secondLevel_ok h
      obtain ⟨k, hblock, -⟩ := pageDescriptor_block hpage hsz
      exact ⟨k, hblock⟩

theorem cacheMapping_entry {p : Mapping} (h : walk mmu a = .ok p) (hsz : 1024 < p.sz)
    (hb : tlbIndex b = tlbIndex a) :
    ∃ offset, (cacheMapping mmu p).tlb (tlbIndex b) = p.entry mmu.revision offset ∧
      (b &&& 0xfff#32) + (p.paPage + offset) = (b - p.va) + p.paPage := by
  obtain ⟨k, hblock⟩ := walk_blockOf h hsz
  have hsize := hblock.sz
  have hva := hblock.va
  have hj : (a.toNat - p.va.toNat) / 4096 < p.sz.toNat / 4096 := by
    rcases hblock.size with rfl | rfl | rfl | rfl <;> omega
  have hi : tlbIndex b = tlbIndex (p.va + BitVec.ofNat 32 ((a.toNat - p.va.toNat) / 4096 * 4096)) := by
    rw [hb]
    apply BitVec.eq_of_toNat_eq
    rw [toNat_tlbIndex, toNat_tlbIndex, BitVec.toNat_add, BitVec.toNat_ofNat]
    rcases hblock.size with rfl | rfl | rfl | rfl <;> omega
  obtain ⟨j, hj, hij, he⟩ := fillTlb_filled mmu p hj hi
  obtain ⟨-, hdecomp⟩ := block_address hblock hj hij
  refine ⟨BitVec.ofNat 32 (j * 4096), ?_, ?_⟩
  · rwa [cacheMapping, if_pos hsz]
  · have hoffset : b - p.va = BitVec.ofNat 32 (j * 4096) + (b &&& 0xfff#32) := by
      rwa [sub_eq_iff_eq_add, add_comm]
    rw [hoffset]
    ring

theorem cacheMapping_fields (mmu : ArmMmu) (p : Mapping) :
    (cacheMapping mmu p).transTablPA = mmu.transTablPA ∧
      (cacheMapping mmu p).revision = mmu.revision ∧
      (cacheMapping mmu p).domainCfg = mmu.domainCfg := by
  rw [cacheMapping]
  split_ifs <;> exact ⟨rfl, rfl, rfl⟩

theorem cacheMapping_small {p : Mapping} (h : ¬ 1024 < p.sz) : cacheMapping mmu p = mmu :=
  if_neg h

/-- After the translation of an address, translating its block gives what it would have
given before, and changes nothing. -/
theorem mmuTranslate_again (h : b >>> 10 = a >>> 10) (mmu : ArmMmu) (pa wa pb wb : Bool) :
    outcome (mmuTranslate mmu a pa wa).2 b pb wb = outcome mmu b pb wb ∧
      (mmuTranslate (mmuTranslate mmu a pa wa).2 b pb wb).2 = (mmuTranslate mmu a pa wa).2 := by
  have hidx := tlbIndex_congr h
  by_cases hoff : mmu.transTablPA = mmuDisabledTTP
  · simp [mmuTranslate, if_pos hoff]
  by_cases hmiss : (mmu.tlb (tlbIndex a)).revision ≠ mmu.revision
  swap
  · have hmiss' : ¬ (mmu.tlb (tlbIndex b)).revision ≠ mmu.revision := by grind
    simp [mmuTranslate, if_neg hoff, if_neg hmiss, if_neg hmiss']
  have hfirst : (mmuTranslate mmu a pa wa).2 = (translateAndCache mmu a pa wa).2 := by
    grind [mmuTranslate]
  rw [hfirst, translateAndCache]
  have hwalkb := walk_congr h mmu
  have hmiss' : (mmu.tlb (tlbIndex b)).revision ≠ mmu.revision := by grind
  cases hwalk : walk mmu a with
  | error fsr =>
    refine ⟨rfl, ?_⟩
    rw [mmuTranslate, if_neg hoff]
    rw [if_pos hmiss', translateAndCache, hwalkb, hwalk]
  | ok p =>
    dsimp only
    by_cases hsz : 1024 < p.sz
    · obtain ⟨offset, hentry, haddr⟩ := cacheMapping_entry hwalk hsz hidx
      obtain ⟨http, hrev, hdom⟩ := cacheMapping_fields mmu p
      have hlive : ¬ ((cacheMapping mmu p).tlb (tlbIndex b)).revision ≠ (cacheMapping mmu p).revision := by
        rw [hentry, hrev]
        exact fun hne => hne rfl
      constructor
      · rw [outcome, outcome, http, if_neg hoff, if_neg hoff]
        rw [if_neg hlive, if_pos hmiss', hwalkb, hwalk, hentry]
        change permitted _ _ _ _ _ _ ((b &&& 0xfff#32) + (p.paPage + offset)) = permitted _ _ _ _ _ _ _
        rw [haddr, permitted, permitted, checkPermissionsForWrite, checkPermissionsForWrite, hdom]
        rfl
      · rw [mmuTranslate, http, if_neg hoff]
        rw [if_neg hlive]
    · rw [cacheMapping_small hsz]
      refine ⟨rfl, ?_⟩
      rw [mmuTranslate, if_neg hoff]
      rw [if_pos hmiss', translateAndCache, hwalkb, hwalk]
      exact cacheMapping_small hsz

end Cloudpilot.Uarm.MMU
