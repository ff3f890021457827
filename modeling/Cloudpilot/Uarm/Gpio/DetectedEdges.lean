import Cloudpilot.Uarm.Gpio.SocGpio

/-! # One event of the GPIO block

Which word each case of the two switches stands for, which pins its change moves,
and so what one event does: it succeeds exactly if it is harmless, and then it
detects the edges of its bank.
-/

namespace Cloudpilot.Uarm.Gpio

open Cpu InterruptController BitVec Option

section

variable {gpio gpio' : SocGpio}

def bankAddress (first : ℕ) (b : Fin 4) : ℕ := if b = 3 then first + 64 else first + b.val

theorem bankCase_address {pa first i : ℕ} (h : bankCase pa first (first + 64) = some i) :
    ∃ b : Fin 4, i = b.val ∧ pa = bankAddress first b := by
  unfold bankCase at h
  split_ifs at h with hfourth hbank
  · refine ⟨3, ?_, ?_⟩
    · simp at h ⊢
      omega
    · simpa [bankAddress] using hfourth
  · simp only [some.injEq] at h
    refine ⟨⟨i, by omega⟩, rfl, ?_⟩
    have hne : (⟨i, by omega⟩ : Fin 4) ≠ 3 := by grind
    rw [bankAddress, if_neg hne]
    simp only
    omega

/-- The bank and the word that go with a case of the switches. -/
def Decodes (pa : ℕ) : Register → Prop
  | .level i => ∃ b : Fin 4, i = b.val ∧ pa = bankAddress 0 b
  | .dir i => ∃ b : Fin 4, i = b.val ∧ pa = bankAddress 3 b
  | .latchSet i => ∃ b : Fin 4, i = b.val ∧ pa = bankAddress 6 b
  | .latchClear i => ∃ b : Fin 4, i = b.val ∧ pa = bankAddress 9 b
  | .riseDet i => ∃ b : Fin 4, i = b.val ∧ pa = bankAddress 12 b
  | .fallDet i => ∃ b : Fin 4, i = b.val ∧ pa = bankAddress 15 b
  | .detStatus i => ∃ b : Fin 4, i = b.val ∧ pa = bankAddress 18 b
  | .afr i => pa = 21 + i ∧ i ≤ 8

theorem bankRegister_decodes {pa : ℕ} {r : Register} (h : bankRegister pa = some r) :
    Decodes pa r := by
  simp only [bankRegister, orElse_eq_orElse, orElse_eq_or, or_eq_some_iff,
    map_eq_some_iff] at h
  rcases h with ⟨i, hi, rfl⟩ | ⟨-, ⟨i, hi, rfl⟩ | ⟨-, ⟨i, hi, rfl⟩ | ⟨-, ⟨i, hi, rfl⟩ |
    ⟨-, ⟨i, hi, rfl⟩ | ⟨-, ⟨i, hi, rfl⟩ | ⟨-, i, hi, rfl⟩⟩⟩⟩⟩⟩
  all_goals exact bankCase_address hi

theorem writeRegister_decodes {pa : ℕ} {r : Register} (h : writeRegister pa = some r) :
    Decodes pa r := by
  simp only [writeRegister, orElse_eq_orElse, orElse_eq_or, or_eq_some_iff] at h
  rcases h with hbank | ⟨-, hafr⟩
  · exact bankRegister_decodes hbank
  · split_ifs at hafr with hlabel
    obtain rfl : Register.afr (pa - 21) = r := by simpa using hafr
    exact ⟨by omega, by omega⟩

theorem readRegister_decodes {pa : ℕ} {r : Register} (h : readRegister pa = some r) :
    Decodes pa r ∧ r ≠ .afr 8 := by
  simp only [readRegister, orElse_eq_orElse, orElse_eq_or, or_eq_some_iff] at h
  rcases h with hbank | ⟨-, hafr⟩
  · refine ⟨bankRegister_decodes hbank, ?_⟩
    rintro rfl
    simp only [bankRegister, orElse_eq_orElse, orElse_eq_or, or_eq_some_iff,
      map_eq_some_iff] at hbank
    simp at hbank
  · split_ifs at hafr with hlabel
    obtain rfl : Register.afr (pa - 21) = r := by simpa using hafr
    refine ⟨⟨by omega, by omega⟩, ?_⟩
    simp only [ne_eq, Register.afr.injEq]
    omega

theorem seen_update_of_ne {b c : Fin 4} (hc : c ≠ b) (v : Word) :
    seen { gpio with dirs := Function.update gpio.dirs b v } c = seen gpio c ∧
    seen { gpio with latches := Function.update gpio.latches b v } c = seen gpio c ∧
    seen { gpio with inputs := Function.update gpio.inputs b v } c = seen gpio c := by
  simp [seen, Function.update_of_ne hc]

theorem prepared_dirs (h : Sound gpio) (b : Fin 4) (v : Word) :
    Prepared gpio { gpio with dirs := Function.update gpio.dirs b v } b :=
  ⟨rfl, rfl, rfl, rfl, rfl, fun _ hc => (seen_update_of_ne hc v).1, h.inputs⟩

theorem prepared_latches (h : Sound gpio) (b : Fin 4) (v : Word) :
    Prepared gpio { gpio with latches := Function.update gpio.latches b v } b :=
  ⟨rfl, rfl, rfl, rfl, rfl, fun _ hc => (seen_update_of_ne hc v).2.1, h.inputs⟩

theorem prepared_AFRs (h : Sound gpio) (b : Fin 4) (AFRs : Fin 8 → Word) :
    Prepared gpio { gpio with AFRs := AFRs } b :=
  ⟨rfl, rfl, rfl, rfl, rfl, fun _ _ => rfl, h.inputs⟩

theorem noMissingPin_congr {x y : Word} (h : ∀ i, 25 ≤ i → i < 32 → x.getLsbD i = y.getLsbD i) :
    NoMissingPin x ↔ NoMissingPin y := by
  rw [noMissingPin_iff, noMissingPin_iff]
  apply forall₂_congr
  intro i hi
  by_cases hlt : i < 32 <;> grind

theorem Sound.input_missing (h : Sound gpio) {i : ℕ} (hi : 25 ≤ i) :
    (gpio.inputs 3).getLsbD i = false :=
  (noMissingPin_iff _).mp h.inputs i hi

theorem Sound.level_missing (h : Sound gpio) {i : ℕ} (hi : 25 ≤ i) :
    (gpio.levels 3).getLsbD i = ((gpio.latches 3).getLsbD i && (gpio.dirs 3).getLsbD i) := by
  rw [h.levels 3, seen, getLsbD_or, getLsbD_and, getLsbD_and,
    h.input_missing hi, Bool.false_and, Bool.or_false]

theorem existing_dirs (h : Sound gpio) (v : Word) :
    Existing { gpio with dirs := Function.update gpio.dirs 3 v } 3 ↔
      NoMissingPin (gpio.latches 3 &&& (gpio.dirs 3 ^^^ v)) := by
  rw [Existing, forall_prop_of_true rfl]
  apply noMissingPin_congr
  intro i hi _
  simp [seen, Function.update_self, h.input_missing hi, h.level_missing hi]
  cases (gpio.latches 3).getLsbD i <;> cases (gpio.dirs 3).getLsbD i <;> cases v.getLsbD i <;> rfl

theorem existing_latches (h : Sound gpio) (latches : Word) {changed : Word}
    (hchanged : gpio.latches 3 ^^^ latches = changed) :
    Existing { gpio with latches := Function.update gpio.latches 3 latches } 3 ↔
      NoMissingPin (gpio.dirs 3 &&& changed) := by
  rw [Existing, forall_prop_of_true rfl, ← hchanged]
  apply noMissingPin_congr
  intro i hi _
  simp only [seen, Function.update_self, getLsbD_xor, getLsbD_or, getLsbD_not, getLsbD_and,
    h.input_missing hi, h.level_missing hi]
  cases (gpio.latches 3).getLsbD i <;> cases (gpio.dirs 3).getLsbD i <;>
    cases latches.getLsbD i <;> rfl

theorem existing_AFRs (h : Sound gpio) (AFRs : Fin 8 → Word) (b : Fin 4) :
    Existing { gpio with AFRs := AFRs } b := by
  intro _
  rw [noMissingPin_iff]
  simp only [h.levels 3, seen]
  simp

theorem existing_of_ne {b : Fin 4} (hb : b ≠ 3) : Existing gpio b := fun heq => absurd heq hb

theorem setState_mask_missing {gpioNum : ℕ} (hset : gpioNum / 32 = 3) (hnum : gpioNum < 121) {i : ℕ}
    (hi : 25 ≤ i) : ((1 : Word) <<< (gpioNum % 32)).getLsbD i = false := by
  have hbit := Library.BitTest.getLsbD_bit (w := 32) (k := gpioNum % 32) (by omega) i
  have hne : i ≠ gpioNum % 32 := by omega
  rw [show (1 : Word) = 1#32 from rfl, hbit]
  simp [hne]

theorem prepared_inputs (h : Sound gpio) (b : Fin 4) (v : Word) (hv : b = 3 → NoMissingPin v) :
    Prepared gpio { gpio with inputs := Function.update gpio.inputs b v } b := by
  refine ⟨rfl, rfl, rfl, rfl, rfl, fun _ hc => (seen_update_of_ne hc v).2.2, ?_⟩
  by_cases hb : b = 3
  · grind
  · have hkept : Function.update gpio.inputs b v 3 = gpio.inputs 3 :=
      Function.update_of_ne (Ne.symm hb) ..
    exact (congrArg NoMissingPin hkept).mpr h.inputs

theorem existing_inputs (h : Sound gpio) (b : Fin 4) (v : Word) (hv : b = 3 → NoMissingPin v) :
    Existing { gpio with inputs := Function.update gpio.inputs b v } b := by
  rintro rfl
  rw [noMissingPin_iff]
  intro i hi
  simp only [seen, Function.update_self, getLsbD_xor, getLsbD_or,
    getLsbD_and, (noMissingPin_iff v).mp (hv rfl) i hi, h.level_missing hi]
  simp

theorem setState_detects (h : Sound gpio) (gpioNum : ℕ) (on : Bool) :
    ∃ gpio', gpioStep gpio (.setState gpioNum on) = .ok gpio' ∧
      Detects gpio (.setState gpioNum on) gpio' := by
  by_cases hnum : gpioNum ≥ gpio.nGpios
  · refine ⟨gpio, ?_, detects_self h fun _ _ => rfl⟩
    simp [gpioStep, socGpioSetState, hnum, bind, Except.bind, pure, Except.pure]
  · have hcount := h.count
    obtain ⟨b, hb⟩ : ∃ b : Fin 4, b.val = gpioNum / 32 := ⟨⟨gpioNum / 32, by omega⟩, rfl⟩
    let v : Word := 1 <<< (gpioNum % 32)
    let p := if on then gpio.inputs b ||| v else gpio.inputs b &&& ~~~v
    have hp : b = 3 → NoMissingPin p := by
      rintro rfl
      rw [noMissingPin_iff]
      intro i hi
      have hmask : v.getLsbD i = false := setState_mask_missing (by omega) (by omega) hi
      cases on <;> simp [p, h.input_missing hi, hmask]
    obtain ⟨calls, hcalls⟩ := recalcValues_existing (existing_inputs h b p hp)
    refine ⟨_, ?_, (prepared_inputs h b p hp).detects h fun _ _ => rfl⟩
    simp only [gpioStep, socGpioSetState, if_neg hnum, ← hb, load_fin, store_fin, bind, Except.bind,
      pure, Except.pure]
    rw [hcalls]

theorem detects_detStatus (h : Sound gpio) {pa : Word} {buf : Word} {b : Fin 4}
    (hpa : registerIndex pa = bankAddress 18 b) :
    Detects gpio (.access pa 4 true buf)
      { gpio with detStatus := Function.update gpio.detStatus b (gpio.detStatus b &&& ~~~buf) } := by
  refine detects_of_levels h (by rfl) (by rfl) (by exact fun _ => rfl) (by rfl) ?_
  intro c i
  have hsame : (registerIndex pa = if c = 3 then 82 else 18 + c.val) ↔ c = b := by
    rw [hpa, bankAddress]
    fin_cases b <;> fin_cases c <;> decide
  by_cases hc : c = b
  · subst hc
    simp only [Function.update_self, clears, hsame, getLsbD_and, getLsbD_not]
    by_cases hi : i < 32
    · simp [hi]
    · grind
  · simp [clears, hsame, hc]

theorem clears_of_other {pa : Word} {size : ℕ} {write : Bool} {buf : Word}
    (h : ∀ b : Fin 4, registerIndex pa ≠ bankAddress 18 b) (c : Fin 4) (i : ℕ) :
    clears c i (.access pa size write buf) = false := by
  have hne := h c
  rw [bankAddress] at hne
  simp [clears, hne]

theorem bankAddress_ne {first : ℕ} (hfirst : first ≤ 15) (b c : Fin 4) :
    bankAddress first b ≠ bankAddress 18 c := by
  unfold bankAddress
  split_ifs <;> omega

theorem step_write (gpio : SocGpio) (pa buf : Word) : gpioStep gpio (.access pa 4 true buf) =
    (writeWord gpio buf (writeRegister (registerIndex pa))).map Prod.fst := by
  simp only [gpioStep, socGpioPrvMemAccessF, bind, Except.bind, pure, Except.pure]
  cases writeWord gpio buf (writeRegister (registerIndex pa)) <;> rfl

theorem recalc_detects (h : Sound gpio) {changed : SocGpio} {b : Fin 4}
    (hp : Prepared gpio changed b) (hexisting : Existing changed b) (dirsChanged : Bool)
    {event : GpioEvent} (hclears : ∀ c i, clears c i event = false) :
    ∃ gpio', (recalc changed b.val dirsChanged).map Prod.fst = .ok gpio' ∧
      Detects gpio event gpio' := by
  obtain ⟨calls, hcalls⟩ := recalc_existing hexisting dirsChanged
  exact ⟨_, by rw [hcalls]; rfl, hp.detects h hclears⟩

/-- A harmless word write succeeds, whatever register it reaches. -/
theorem write_detects (h : Sound gpio) {pa buf : Word}
    (hharmless : Harmless gpio (.access pa 4 true buf)) :
    ∃ gpio', gpioStep gpio (.access pa 4 true buf) = .ok gpio' ∧
      Detects gpio (.access pa 4 true buf) gpio' := by
  obtain ⟨hafr, hdir, hset, hclear⟩ := hharmless rfl rfl
  rw [step_write]
  cases hr : writeRegister (registerIndex pa) with
  | none =>
    refine ⟨gpio, rfl, detects_self h (clears_of_other ?_)⟩
    intro b heq
    rw [heq] at hr
    fin_cases b <;> revert hr <;> decide
  | some r =>
    have hdecodes := writeRegister_decodes hr
    cases r with
    | level i =>
      obtain ⟨b, rfl, hpa⟩ := hdecodes
      exact ⟨gpio, rfl, detects_self h
        (clears_of_other fun c => hpa ▸ bankAddress_ne (by omega) b c)⟩
    | dir i =>
      obtain ⟨b, rfl, hpa⟩ := hdecodes
      simp only [writeWord, store_fin, bind, Except.bind]
      refine recalc_detects h (prepared_dirs h b buf) ?_ true
        (clears_of_other fun c => hpa ▸ bankAddress_ne (by omega) b c)
      by_cases hb : b = 3
      · subst hb
        exact (existing_dirs h buf).mpr (hdir hpa)
      · exact existing_of_ne hb
    | latchSet i =>
      obtain ⟨b, rfl, hpa⟩ := hdecodes
      simp only [writeWord, load_fin, store_fin, bind, Except.bind]
      refine recalc_detects h (prepared_latches h b _) ?_ false
        (clears_of_other fun c => hpa ▸ bankAddress_ne (by omega) b c)
      by_cases hb : b = 3
      · subst hb
        exact (existing_latches h _ (by grind)).mpr (hset hpa)
      · exact existing_of_ne hb
    | latchClear i =>
      obtain ⟨b, rfl, hpa⟩ := hdecodes
      simp only [writeWord, load_fin, store_fin, bind, Except.bind]
      refine recalc_detects h (prepared_latches h b _) ?_ false
        (clears_of_other fun c => hpa ▸ bankAddress_ne (by omega) b c)
      by_cases hb : b = 3
      · subst hb
        exact (existing_latches h _ (by grind)).mpr (hclear hpa)
      · exact existing_of_ne hb
    | riseDet i | fallDet i =>
      obtain ⟨b, rfl, hpa⟩ := hdecodes
      simp only [writeWord, store_fin, bind, Except.bind]
      refine ⟨_, rfl, ?_⟩
      refine detects_of_levels h (by rfl) (by rfl) (by exact fun _ => rfl) (by rfl) ?_
      simp [clears_of_other fun c => hpa ▸ bankAddress_ne (by omega) b c]
    | detStatus i =>
      obtain ⟨b, rfl, hpa⟩ := hdecodes
      simp only [writeWord, load_fin, store_fin, bind, Except.bind]
      exact ⟨_, rfl, detects_detStatus h hpa⟩
    | afr i =>
      obtain ⟨hpa, hi⟩ := hdecodes
      have hbound : i < 8 := by omega
      have hstore := store_fin gpio.AFRs ⟨i, hbound⟩ buf
      obtain ⟨b, hb⟩ : ∃ b : Fin 4, b.val = i / 2 := ⟨⟨i / 2, by omega⟩, rfl⟩
      simp only [writeWord, hstore, bind, Except.bind, ← hb]
      refine recalc_detects h (prepared_AFRs h b _) (existing_AFRs h _ b) false
        (clears_of_other fun c heq => ?_)
      rw [hpa, bankAddress] at heq
      split_ifs at heq <;> omega

theorem readWord_ok (gpio : SocGpio) (pa : ℕ) :
    ∃ val, readWord gpio (readRegister pa) = .ok val := by
  cases hr : readRegister pa with
  | none => exact ⟨0, rfl⟩
  | some r =>
    obtain ⟨hdecodes, hne⟩ := readRegister_decodes hr
    cases r with
    | latchSet i => exact ⟨0, rfl⟩
    | latchClear i => exact ⟨0, rfl⟩
    | afr i =>
      have hi : i < 8 := by
        have hle := hdecodes.2
        have hi8 : i ≠ 8 := fun heq => hne (by rw [heq])
        omega
      exact ⟨_, load_fin gpio.AFRs ⟨i, hi⟩⟩
    | level i | dir i | riseDet i | fallDet i | detStatus i =>
      obtain ⟨b, rfl, -⟩ := hdecodes
      exact ⟨_, load_fin _ b⟩

theorem step_harmless (h : Sound gpio) {event : GpioEvent} (hharmless : Harmless gpio event) :
    ∃ gpio', gpioStep gpio event = .ok gpio' ∧ Detects gpio event gpio' := by
  cases event with
  | access pa size write buf =>
    cases write with
    | true =>
      by_cases hsize : size = 4
      · subst hsize
        exact write_detects h hharmless
      · refine ⟨gpio, ?_, detects_self h fun c i => by simp [clears, hsize]⟩
        simp [gpioStep, socGpioPrvMemAccessF, hsize, bind, Except.bind, pure, Except.pure]
    | false =>
      obtain ⟨val, hval⟩ := readWord_ok gpio (registerIndex pa)
      refine ⟨gpio, ?_, detects_self h fun c i => by simp [clears]⟩
      simp [gpioStep, socGpioPrvMemAccessF, hval, bind, Except.bind, pure, Except.pure]
  | setState gpioNum on => exact setState_detects h gpioNum on
  | setNotif gpioNum registered =>
    by_cases hnum : gpioNum ≥ gpio.nGpios
    · exact ⟨gpio, by simp only [gpioStep, if_pos hnum]; rfl, detects_self h fun _ _ => rfl⟩
    · have hcount := h.count
      have hstore := store_fin gpio.notifF ⟨gpioNum, by omega⟩ registered
      refine ⟨_, by simp only [gpioStep, if_neg hnum, hstore, bind, Except.bind]; rfl, ?_⟩
      refine detects_of_levels h (by rfl) (by rfl) (by exact fun _ => rfl) (by rfl) ?_
      intro c i
      exact (Bool.and_true _).symm
  | setDirsChangedNotif registered =>
    refine ⟨_, rfl, detects_of_levels h (by rfl) (by rfl) (by exact fun _ => rfl) (by rfl) ?_⟩
    intro c i
    exact (Bool.and_true _).symm

theorem step_harmful (h : Sound gpio) {event : GpioEvent} (hharmful : ¬ Harmless gpio event) :
    gpioStep gpio event = .error .outOfBounds := by
  cases event with
  | access pa size write buf =>
    cases write with
    | false => exact absurd (fun hwrite => nomatch hwrite) hharmful
    | true =>
      by_cases hsize : size = 4
      · subst hsize
        rw [step_write]
        by_cases hafr : registerIndex pa = 29
        · rw [hafr]
          rfl
        by_cases hdir : registerIndex pa = 67 ∧
            ¬ NoMissingPin (gpio.latches 3 &&& (gpio.dirs 3 ^^^ buf))
        · have hmissing := (existing_dirs h buf).not.mpr hdir.2
          have hstore := store_fin gpio.dirs 3 buf
          rw [hdir.1, show writeRegister 67 = some (.dir (3 : Fin 4).val) by decide, writeWord]
          simp only [hstore, bind, Except.bind, recalc_missing hmissing]
          rfl
        by_cases hset : registerIndex pa = 70 ∧
            ¬ NoMissingPin (gpio.dirs 3 &&& (buf &&& ~~~gpio.latches 3))
        · have hmissing := (existing_latches h (gpio.latches 3 ||| buf) (by grind)).not.mpr hset.2
          rw [hset.1, show writeRegister 70 = some (.latchSet (3 : Fin 4).val) by decide, writeWord]
          simp only [load_fin, store_fin, bind, Except.bind, recalc_missing hmissing]
          rfl
        by_cases hclear : registerIndex pa = 73 ∧
            ¬ NoMissingPin (gpio.dirs 3 &&& (gpio.latches 3 &&& buf))
        · have hmissing := (existing_latches h (gpio.latches 3 &&& ~~~buf) (by grind)).not.mpr hclear.2
          rw [hclear.1, show writeRegister 73 = some (.latchClear (3 : Fin 4).val) by decide,
            writeWord]
          simp only [load_fin, store_fin, bind, Except.bind, recalc_missing hmissing]
          rfl
        push Not at hdir hset hclear
        exact absurd (fun _ _ => ⟨hafr, hdir, hset, hclear⟩) hharmful
      · exact absurd (fun _ heq => absurd heq hsize) hharmful
  | setState gpioNum on => exact absurd trivial hharmful
  | setNotif gpioNum registered => exact absurd trivial hharmful
  | setDirsChangedNotif registered => exact absurd trivial hharmful

end

open Cpu

variable {gpio gpio' : SocGpio}

theorem gpioRun_cons {event : GpioEvent} (hstep : gpioStep gpio event = .ok gpio')
    (events : List GpioEvent) : gpioRun gpio (event :: events) = gpioRun gpio' events := by
  rw [gpioRun, List.foldlM_cons, hstep]
  rfl

theorem detectedSince_cons {event : GpioEvent} (hstep : gpioStep gpio event = .ok gpio')
    (events : List GpioEvent) (b : Fin 4) (i : ℕ) :
    DetectedSince gpio (event :: events) b i ↔
      (edge gpio gpio' b i = true ∧ ∀ e ∈ events, clears b i e = false) ∨
        DetectedSince gpio' events b i := by
  constructor
  · rintro ⟨pre, e, post, before, after, hsplit, hpre, he, hedge, hkept⟩
    cases pre with
    | nil =>
      obtain ⟨rfl, rfl⟩ := List.cons.inj hsplit
      obtain rfl : gpio = before := by simpa [gpioRun, pure, Except.pure] using hpre
      obtain rfl : gpio' = after := by simpa [hstep] using he
      exact Or.inl ⟨hedge, hkept⟩
    | cons first pre =>
      obtain ⟨rfl, hrest⟩ := List.cons.inj hsplit
      rw [gpioRun_cons hstep] at hpre
      exact Or.inr ⟨pre, e, post, before, after, hrest, hpre, he, hedge, hkept⟩
  · rintro (⟨hedge, hkept⟩ | ⟨pre, e, post, before, after, hsplit, hpre, he, hedge, hkept⟩)
    · exact ⟨[], event, events, gpio, gpio', rfl, rfl, hstep, hedge, hkept⟩
    · refine ⟨event :: pre, e, post, before, after, by rw [hsplit, List.cons_append], ?_, he, hedge,
        hkept⟩
      rwa [gpioRun_cons hstep]

theorem harmlessRun_detects (events : List GpioEvent) (h : Sound gpio)
    (hharmless : HarmlessRun gpio events) :
    ∃ gpio', gpioRun gpio events = .ok gpio' ∧ Sound gpio' ∧
      ∀ b i, (gpio'.detStatus b).getLsbD i = true ↔
        ((gpio.detStatus b).getLsbD i = true ∧ ∀ e ∈ events, clears b i e = false) ∨
          DetectedSince gpio events b i := by
  induction events generalizing gpio with
  | nil =>
    refine ⟨gpio, rfl, h, ?_⟩
    intro b i
    have hnone : ¬ DetectedSince gpio [] b i := by
      rintro ⟨pre, e, post, before, after, hsplit, -⟩
      simp at hsplit
    simp [hnone]
  | cons event events ih =>
    obtain ⟨next, hstep, hdetects⟩ := step_harmless h hharmless.1
    obtain ⟨gpio', hrun, hsound, hstatus⟩ := ih hdetects.sound (hharmless.2 next hstep)
    refine ⟨gpio', (gpioRun_cons hstep events).trans hrun, hsound, ?_⟩
    intro b i
    rw [hstatus b i, hdetects.status b i, detectedSince_cons hstep, List.forall_mem_cons,
      Bool.or_eq_true, Bool.and_eq_true, Bool.not_eq_true']
    tauto

theorem harmlessRun_of_ok (events : List GpioEvent) (h : Sound gpio)
    (hrun : gpioRun gpio events = .ok gpio') : HarmlessRun gpio events := by
  induction events generalizing gpio with
  | nil => exact trivial
  | cons event events ih =>
    by_cases hharmless : Harmless gpio event
    · obtain ⟨next, hstep, hdetects⟩ := step_harmless h hharmless
      refine ⟨hharmless, ?_⟩
      intro other hother
      obtain rfl : next = other := by simpa [hstep] using hother
      exact ih hdetects.sound ((gpioRun_cons hstep events).symm.trans hrun)
    · rw [gpioRun, List.foldlM_cons, step_harmful h hharmless] at hrun
      cases hrun

theorem socGpioInit_sound (socRev : Fin 3) : Sound (socGpioInit socRev) := by
  constructor
  · simp [socGpioInit, seen]
  · fin_cases socRev <;> decide
  · simp [socGpioInit, NoMissingPin]

/-- A run from initialization stays inside its arrays, with levels and status bits exact, if and
only if no event writes offset 0x74 or moves an output pin that does not exist. -/
theorem exact_iff_harmlessRun (socRev : Fin 3) (events : List GpioEvent) :
    Exact (socGpioInit socRev) events ↔ HarmlessRun (socGpioInit socRev) events := by
  constructor
  · rintro ⟨gpio', hrun, -⟩
    exact harmlessRun_of_ok events (socGpioInit_sound socRev) hrun
  · intro hharmless
    obtain ⟨gpio', hrun, hsound, hstatus⟩ :=
      harmlessRun_detects events (socGpioInit_sound socRev) hharmless
    refine ⟨gpio', hrun, hsound.levels, ?_⟩
    intro b i
    rw [hstatus b i]
    simp [socGpioInit]

/-- A word write to the register of the last alternate functions, and one output pin too many. -/
theorem not_always_exact :
    ¬ Exact (socGpioInit 2) [.access 0x40E00074 4 true 0] ∧
    ¬ Exact (socGpioInit 2)
      [.access 0x40E0010C 4 true 0x80000000, .access 0x40E00118 4 true 0x80000000] := by
  constructor
  all_goals
    rintro ⟨gpio', hrun, -⟩
    cases hrun

end Cloudpilot.Uarm.Gpio
