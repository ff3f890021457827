import Cloudpilot.Uarm.Peripherals.DmaInterrupts

/-! # Transfers and runs keep the interrupt status current

Within a transfer the channel that moves data may be ahead of its status bit, but
then the transfer knows it. All other channels stay current, although the transfer
may write their registers.
-/
namespace Cloudpilot.Uarm.Peripherals
open Cpu Scheduling Library Option

variable {ω : Type} {W : World ω} {rev : Fin 3} {soc soc' : Soc ω} {c : Fin 32}
  {t t' : Transfer ω} {f f' : Bool}

/-- The status is current but for the channel at work, and there too unless the flag is set. -/
structure Tracked (c : Fin 32) (soc : Soc ω) (irqUpdate : Bool) : Prop where
  line : soc.ints irqDma = decide (soc.dma.DINT ≠ 0)
  others : ∀ d, d ≠ c → ExactAt soc d
  self : irqUpdate = false → ExactAt soc c

/-- A stage of a transfer: it adds writes, and if all of them are harmless it keeps the track. -/
structure Carries (W : World ω) (rev : Fin 3) (c : Fin 32) (t : Transfer ω) (f : Bool)
    (t' : Transfer ω) (f' : Bool) : Prop where
  grows : ∀ w ∈ t.writes, w ∈ t'.writes
  tracked : AllHarmless W rev t'.writes → Tracked c t.soc f → Tracked c t'.soc f'

theorem carries_refl (t : Transfer ω) (f : Bool) : Carries W rev c t f t f :=
  ⟨fun _ hw => hw, fun _ h => h⟩

theorem Carries.trans {t'' : Transfer ω} {f'' : Bool} (h : Carries W rev c t f t' f')
    (h' : Carries W rev c t' f' t'' f'') : Carries W rev c t f t'' f'' where
  grows := fun w hw => h'.grows w (h.grows w hw)
  tracked := fun hharmless htracked =>
    h'.tracked hharmless (h.tracked (fun w hw => hharmless w (h'.grows w hw)) htracked)

theorem KeepsExact.carries (h : KeepsExact t.soc soc') : Carries W rev c t f { t with soc := soc' } f where
  grows := fun _ hw => hw
  tracked := fun _ htracked =>
    ⟨h.line htracked.line, fun d hd => h.bits d (htracked.others d hd),
      fun hf => h.bits c (htracked.self hf)⟩

theorem StatusOf.carries {p : Bool} (h : StatusOf c p t.soc soc') :
    Carries W rev c t f { t with soc := soc' } true where
  grows := fun _ hw => hw
  tracked := fun _ htracked => by
    refine ⟨?_, fun d hd => h.exactAt hd (htracked.others d hd), fun hf => by cases hf⟩
    rw [h.dint, h.line]
    exact htracked.line

theorem carries_modifyChannel {g : DmaChannel → DmaChannel}
    (hg : (g (t.channel c)).CSR = (t.channel c).CSR) :
    Carries W rev c t f (t.modifyChannel c g) f :=
  (statusKept_modifyChannel c (congrArg pending hg)).keepsExact.carries

theorem memWrite_carries {pa : Word} {size : ℕ} {val : Word} {a : BusAccess ω}
    (h : t.soc.memWrite W rev pa size val = some a) :
    Carries W rev c t f ⟨a.soc, t.writes ++ a.writes⟩ f where
  grows := fun _ hw => List.mem_append_left _ hw
  tracked := fun hharmless htracked =>
    have hkeeps := memWrite_keeps h fun w hw => hharmless w (List.mem_append_right _ hw)
    ⟨hkeeps.line htracked.line, fun d hd => hkeeps.bits d (htracked.others d hd),
      fun hf => hkeeps.bits c (htracked.self hf)⟩

theorem busError_carries (t : Transfer ω) (c : Fin 32) (f : Bool) :
    Carries W rev c t f (t.busError c) true :=
  (statusOf_modifyChannel t.soc c _).carries

/-- A loop of transfers, by induction on the transfers that are left. -/
theorem burstLoop_carries {each num : ℕ} {failed : Bool}
    (h : t.burstLoop W rev c each num = some (t', failed)) :
    Carries W rev c t f t' (f || failed) := by
  induction num generalizing t with
  | zero =>
    cases h
    rw [Bool.or_false]
    exact carries_refl _ f
  | succ num ih =>
    obtain ⟨read, hread, h⟩ := bind_eq_some_iff.mp h
    have hcarried : Carries W rev c t f ⟨read.soc, t.writes⟩ f :=
      (statusKept_memRead hread).1.keepsExact.carries
    split at h
    · cases h
      rw [Bool.or_true]
      exact hcarried.trans (busError_carries _ c f)
    obtain ⟨written, hwritten, h⟩ := bind_eq_some_iff.mp h
    have hboth := hcarried.trans (memWrite_carries (t := ⟨read.soc, t.writes⟩) hwritten)
    split at h
    · cases h
      rw [Bool.or_true]
      exact hboth.trans (busError_carries _ c f)
    · exact (hboth.trans (carries_modifyChannel rfl)).trans (ih h)

theorem checkForEnd_carries {update : Bool} (h : t.checkForEnd W rev c = some (t', update)) :
    Carries W rev c t f t' (f || update) := by
  unfold Transfer.checkForEnd at h
  dsimp only at h
  split at h
  · cases h
    rw [Bool.or_false]
    exact carries_refl _ f
  split at h
  · cases h
    rw [Bool.or_false]
    exact carries_refl _ f
  have hend : ∃ p, StatusOf c p t.soc (if (t.channel c).CR &&& 0x00200000 ≠ 0 then
      t.modifyChannel c fun ch => { ch with CSR := ch.CSR ||| 4 } else t).soc := by
    split
    · exact ⟨_, statusOf_modifyChannel t.soc c _⟩
    · exact ⟨_, (statusKept_refl t.soc).statusOf c⟩
  have hwrites : (if (t.channel c).CR &&& 0x00200000 ≠ 0 then
      t.modifyChannel c fun ch => { ch with CSR := ch.CSR ||| 4 } else t).writes = t.writes := by
    split <;> rfl
  generalize (if (t.channel c).CR &&& 0x00200000 ≠ 0 then
      t.modifyChannel c fun ch => { ch with CSR := ch.CSR ||| 4 } else t) = ended at h hend hwrites
  obtain ⟨p, hend⟩ := hend
  have hended : Carries W rev c t f ended true := by
    have hcarried : Carries W rev c t f { t with soc := ended.soc } true := hend.carries
    rwa [← hwrites] at hcarried
  split at h
  · cases h
    rw [Bool.or_true]
    exact hended.trans (statusOf_modifyChannel ended.soc c _).carries
  · obtain ⟨fetched, hfetch, h⟩ := bind_eq_some_iff.mp h
    cases h
    rw [Bool.or_true]
    obtain ⟨d, mid, -, hstatus⟩ := descrFetch_status hfetch
    exact hended.trans hstatus.carries

theorem doBurst_carries {update : Bool} (h : t.doBurst W rev c = some (t', update)) :
    Carries W rev c t f t' (f || update) := by
  unfold Transfer.doBurst at h
  dsimp only at h
  split at h
  · cases h
  split at h
  · cases h
  obtain ⟨⟨moved, failed⟩, hloop, h⟩ := bind_eq_some_iff.mp h
  have hmoved := burstLoop_carries (f := f) hloop
  dsimp only at h
  split at h
  · rename_i hfailed
    cases h
    rwa [hfailed] at hmoved
  · rename_i hfailed
    rw [Bool.not_eq_true] at hfailed
    rw [hfailed, Bool.or_false] at hmoved
    exact hmoved.trans (checkForEnd_carries h)

theorem workLoop_carries {justOne : Bool} {limit : ℕ}
    (h : Transfer.workLoop W rev c justOne limit t f = some (t', f')) :
    Carries W rev c t f t' f' := by
  induction limit generalizing t f with
  | zero => cases h
  | succ limit ih =>
    obtain ⟨⟨burst, update⟩, hburst, h⟩ := bind_eq_some_iff.mp h
    have hcarried := doBurst_carries (f := f) hburst
    dsimp only at h
    split at h
    · exact hcarried.trans (ih h)
    · cases h
      exact hcarried

theorem act_carries {limit : ℕ} (h : t.act W rev limit c f = some (t', f')) :
    Carries W rev c t f t' f' := by
  unfold Transfer.act at h
  dsimp only at h
  split at h
  · exact workLoop_carries h
  split at h
  · exact workLoop_carries h
  · cases h
    exact carries_refl _ f

/-- What a complete step does: it adds writes, and if all of them are harmless the status stays
current. -/
structure Keeps (W : World ω) (rev : Fin 3) (t t' : Transfer ω) : Prop where
  grows : ∀ w ∈ t.writes, w ∈ t'.writes
  exact : AllHarmless W rev t'.writes → DintExact t.soc → DintExact t'.soc

theorem keeps_refl (t : Transfer ω) : Keeps W rev t t := ⟨fun _ hw => hw, fun _ h => h⟩

theorem Keeps.trans {t'' : Transfer ω} (h : Keeps W rev t t') (h' : Keeps W rev t' t'') :
    Keeps W rev t t'' where
  grows := fun w hw => h'.grows w (h.grows w hw)
  exact := fun hharmless hexact =>
    h'.exact hharmless (h.exact (fun w hw => hharmless w (h'.grows w hw)) hexact)

theorem StatusKept.keeps (h : StatusKept t.soc soc') : Keeps W rev t { t with soc := soc' } where
  grows := fun _ hw => hw
  exact := fun _ hexact => h.keepsExact.dintExact hexact

theorem Carries.keeps (h : Carries W rev c t false t' false) : Keeps W rev t t' where
  grows := h.grows
  exact := fun hharmless hexact => by
    have htracked := h.tracked hharmless ⟨hexact.line, fun d _ => hexact.bits d,
      fun _ => hexact.bits c⟩
    refine ⟨?_, htracked.line⟩
    intro d
    by_cases hd : d = c
    · rw [hd]
      exact htracked.self rfl
    · exact htracked.others d hd

theorem irqRecalc_carries (h : t.soc.irqRecalc W c = some soc') :
    Carries W rev c t f { t with soc := soc' } false where
  grows := fun _ hw => hw
  tracked := fun _ htracked =>
    have hspec := irqRecalc_spec h
    ⟨hspec.line, fun d hd => hspec.others d hd (htracked.others d hd), fun _ => hspec.self⟩

theorem actIfNeeded_keeps {limit : ℕ} (h : t.actIfNeeded W rev limit c = some t') :
    Keeps W rev t t' := by
  unfold Transfer.actIfNeeded at h
  split at h
  · cases h
    exact keeps_refl t
  obtain ⟨⟨ended, update⟩, hend, h⟩ := bind_eq_some_iff.mp h
  obtain ⟨⟨worked, irqUpdate⟩, hwork, h⟩ := bind_eq_some_iff.mp h
  have hended : Carries W rev c t false ended update := by
    have hcarried := checkForEnd_carries (f := false) hend
    rwa [Bool.false_or] at hcarried
  have hworked : Carries W rev c t false worked irqUpdate := by
    split at hwork
    · exact hended.trans (act_carries hwork)
    · grind
  dsimp only at h
  split at h
  · obtain ⟨settled, hrecalc, h⟩ := bind_eq_some_iff.mp h
    cases h
    exact (hworked.trans (irqRecalc_carries hrecalc)).keeps
  · rename_i hupdate
    cases h
    rw [Bool.not_eq_true] at hupdate
    rw [hupdate] at hworked
    exact hworked.keeps

theorem dmaPeriodic_keeps {limit : ℕ} (h : t.dmaPeriodic W rev limit = some t') :
    Keeps W rev t t' := by
  apply PartialRun.foldlM_rel keeps_refl (fun h h' => h.trans h') _ h
  intro c _ s s' hstep
  exact actIfNeeded_keeps hstep

theorem statusKept_foldlM {α : Type} {step : Soc ω → α → Option (Soc ω)} {xs : List α}
    (hstep : ∀ a s s', step s a = some s' → StatusKept s s') (h : xs.foldlM step soc = some soc') :
    StatusKept soc soc' := by
  apply PartialRun.foldlM_rel statusKept_refl (fun h h' => h.trans h') _ h
  intro a _ s s' ha
  exact hstep a s s' ha

theorem socCycleBatch0_keeps {limit : ℕ} (h : socCycleBatch0 W rev limit t = some t') :
    Keeps W rev t t' := by
  obtain ⟨moved, hdma, h⟩ := bind_eq_some_iff.mp h
  obtain ⟨uarts, huarts, h⟩ := bind_eq_some_iff.mp h
  obtain ⟨ssps, hssps, h⟩ := bind_eq_some_iff.mp h
  obtain ⟨nand, hnand, h⟩ := bind_eq_some_iff.mp h
  cases h
  have hports := (statusKept_foldlM (fun _ _ _ => statusKept_uartProcess) huarts).trans
    (statusKept_foldlM (fun _ _ _ => statusKept_sspPeriodic) hssps)
  exact (dmaPeriodic_keeps hdma).trans (hports.trans (statusKept_nandPeriodic hnand)).keeps

theorem dispatchTicks_keeps {limit : ℕ} {task : TaskType} {ticks : Ticks}
    (h : dispatchTicks W rev limit t task = some (t', ticks)) : Keeps W rev t t' := by
  unfold dispatchTicks at h
  split at h
  · obtain ⟨cycled, hcycle, h⟩ := bind_eq_some_iff.mp h
    cases h
    exact socCycleBatch0_keeps hcycle
  · obtain ⟨absorbed, habsorb, h⟩ := bind_eq_some_iff.mp h
    cases h
    exact (statusKept_absorb habsorb).keeps

theorem statusKept_finishDispatch {task : TaskType} {ticks : Ticks}
    (h : finishDispatch soc task ticks = some soc') : StatusKept soc soc' := by
  obtain ⟨scheduler, -, rfl⟩ := map_eq_some_iff.mp h
  exact ⟨rfl, rfl, fun _ => rfl⟩

theorem advanceLoop_keeps {limit dispatches : ℕ}
    (h : advanceLoop W rev limit dispatches t = some t') : Keeps W rev t t' := by
  induction dispatches generalizing t with
  | zero => cases h
  | succ dispatches ih =>
    have hdone : Keeps W rev t { t with
        soc := { t.soc with scheduler := updateNextUpdate t.soc.scheduler } } :=
      StatusKept.keeps ⟨rfl, rfl, fun _ => rfl⟩
    unfold advanceLoop at h
    dsimp only at h
    split at h
    · grind
    split at h
    · cases h
      exact hdone
    · obtain ⟨⟨dispatched, ticks⟩, hdispatch, h⟩ := bind_eq_some_iff.mp h
      obtain ⟨finished, hfinish, h⟩ := bind_eq_some_iff.mp h
      exact ((dispatchTicks_keeps hdispatch).trans (statusKept_finishDispatch hfinish).keeps).trans
        (ih h)

theorem advance_keeps {limit : ℕ} {cycles cyclesPerSecond : Time}
    (h : advance W rev limit t cycles cyclesPerSecond = some t') : Keeps W rev t t' := by
  have htime (s : Scheduler) : Keeps W rev t { t with soc := { t.soc with scheduler := s } } :=
    StatusKept.keeps ⟨rfl, rfl, fun _ => rfl⟩
  unfold advance at h
  dsimp only at h
  split at h
  · cases h
  split at h
  · cases h
    exact htime _
  · exact (htime _).trans (advanceLoop_keeps h)

theorem socStep_keeps {limit : ℕ} {event : SocEvent ω}
    (h : socStep W rev limit t event = some t') : Keeps W rev t t' := by
  cases event with
  | access pa size write buf =>
    obtain ⟨a, haccess, h⟩ := bind_eq_some_iff.mp h
    cases h
    refine ⟨fun w hw => List.mem_append_left _ hw, ?_⟩
    intro hharmless hexact
    exact (memAccess_keeps haccess fun w hw =>
      hharmless w (List.mem_append_right _ hw)).dintExact hexact
  | advance cycles cyclesPerSecond => exact advance_keeps h
  | outside reaction =>
    obtain ⟨absorbed, habsorb, h⟩ := bind_eq_some_iff.mp h
    cases h
    exact (statusKept_absorb habsorb).keeps
  | dmaPeriodic => exact dmaPeriodic_keeps h

theorem socRun_keeps {limit : ℕ} {events : List (SocEvent ω)}
    (h : socRun W rev limit t events = some t') : Keeps W rev t t' := by
  apply PartialRun.foldlM_rel keeps_refl (fun h h' => h.trans h') _ h
  intro event _ s s' hstep
  exact socStep_keeps hstep

theorem socInit_exact {data : ℕ → Byte} {world : ω} (h : socInit rev data world = some soc) :
    DintExact soc := by
  cases h
  constructor
  · simp [ExactAt, SocDma.init, pending]
  · rfl

/-- In every state of a run whose register writes, those of the guest and those of transfers, are
all harmless, the status bits and the interrupt line are those of the channels. -/
theorem dintExact_of_allHarmless (W : World ω) (rev : Fin 3) (limit : ℕ) (data : ℕ → Byte)
    (world : ω) (events : List (SocEvent ω)) (hinit : socInit rev data world = some soc)
    (hrun : socRun W rev limit ⟨soc, []⟩ events = some t) (hharmless : AllHarmless W rev t.writes) :
    DintExact t.soc :=
  (socRun_keeps hrun).exact hharmless (socInit_exact hinit)

def bareWorld : World Unit where
  access _ _ _ _ buf := ⟨false, buf, ⟨(), [], []⟩⟩
  irq _ _ _ := ⟨(), [], []⟩
  ready _ _ := ⟨(), [], []⟩
  putchar _ _ _ := ()
  getchar _ _ := (uartCharNone, ())
  sspClients _ _ _ _ := 0
  dispatch _ _ _ := (⟨(), [], []⟩, 1)

def bareRun (events : List (SocEvent Unit)) : Option (Transfer Unit) :=
  (socInit 0 (fun _ => 0) ()).bind fun soc => socRun bareWorld 0 64 ⟨soc, []⟩ events

def plainEvents : List (SocEvent Unit) :=
  [.access 0x40000000 4 true 0x20000000, .access 0x40000204 4 true 0xA0000000, .advance 36 3686400]

def releasedEvents : List (SocEvent Unit) :=
  [.access 0x40000000 4 true 0x20000000, .access 0x40000200 4 true 0xA0000000]

theorem bareRun_cases (events : List (SocEvent Unit)) (h : (bareRun events).isSome = true) :
    ∃ soc t, socInit 0 (fun _ => 0) () = some soc ∧
      socRun bareWorld 0 64 ⟨soc, []⟩ events = some t ∧ bareRun events = some t := by
  obtain ⟨t, ht⟩ := isSome_iff_exists.mp h
  obtain ⟨soc, hinit, hrun⟩ := bind_eq_some_iff.mp ht
  exact ⟨soc, t, hinit, hrun, ht⟩

theorem dintExact_plainEvents : ∃ soc t, socInit 0 (fun _ => 0) () = some soc ∧
    socRun bareWorld 0 64 ⟨soc, []⟩ plainEvents = some t ∧ AllHarmless bareWorld 0 t.writes ∧
    DintExact t.soc := by
  obtain ⟨soc, t, hinit, hrun, ht⟩ := bareRun_cases plainEvents (by decide +kernel)
  have hharmless : AllHarmless bareWorld 0 t.writes := by
    have hall : (bareRun plainEvents).all
        (fun t => t.writes.all fun w => decide (w.Harmless bareWorld 0)) = true := by
      decide +kernel
    rw [ht] at hall
    intro w hw
    exact of_decide_eq_true (List.all_eq_true.mp hall w hw)
  exact ⟨soc, t, hinit, hrun, hharmless,
    dintExact_of_allHarmless bareWorld 0 64 (fun _ => 0) () plainEvents hinit hrun hharmless⟩

/-- The descriptor address takes the channel out of the stopped state, and its status bit stays. -/
theorem not_dintExact_releasedEvents : ∃ soc t, socInit 0 (fun _ => 0) () = some soc ∧
    socRun bareWorld 0 64 ⟨soc, []⟩ releasedEvents = some t ∧ ¬ DintExact t.soc := by
  obtain ⟨soc, t, hinit, hrun, ht⟩ := bareRun_cases releasedEvents (by decide +kernel)
  refine ⟨soc, t, hinit, hrun, ?_⟩
  intro hexact
  have hstale : (bareRun releasedEvents).all (fun t =>
      t.soc.dma.DINT.getLsbD 0 && !pending (t.soc.dma.channels 0).CSR) = true := by rfl
  rw [ht, all_some, Bool.and_eq_true, Bool.not_eq_true'] at hstale
  have hbit : t.soc.dma.DINT.getLsbD 0 = pending (t.soc.dma.channels 0).CSR := hexact.bits 0
  rw [hstale.1, hstale.2] at hbit
  cases hbit

end Cloudpilot.Uarm.Peripherals
