import Cloudpilot.Uarm.Peripherals.DmaInterrupts
import Cloudpilot.Uarm.Peripherals.DmaTransfers
import Cloudpilot.Uarm.Peripherals.Wakes

/-! # Runs keep the periodic task scheduled

A device may become busy only where it calls the hook, and the dispatch of the task, with the
number of ticks that `batch0Required` asks for, asks every device at its end. Everything else
leaves the devices as busy as they are or less, and the ticks of the task alone.
-/
namespace Cloudpilot.Uarm.Peripherals
open Cpu Scheduling Library

variable {ω : Type} {W : World ω} {rev : Fin 3} {soc soc' mid : Soc ω} {c : Fin 32}
  {t t' : Transfer ω}

def ticks (soc : Soc ω) : Ticks := (soc.scheduler.tasks aux1).batchedTicks

/-- The periodic task is scheduled if it is required. -/
def Awake (soc : Soc ω) : Prop := soc.batch0Required = true → ticks soc ≠ 0

/-- Nothing becomes busy, and the task stays scheduled if it was. -/
structure Calm (soc soc' : Soc ω) : Prop where
  required : soc'.batch0Required = true → soc.batch0Required = true
  ticks : ticks soc ≠ 0 → Peripherals.ticks soc' ≠ 0

theorem calm_refl (soc : Soc ω) : Calm soc soc := ⟨id, id⟩

theorem Calm.trans (h : Calm soc mid) (h' : Calm mid soc') : Calm soc soc' :=
  ⟨fun hr => h.required (h'.required hr), fun ht => h'.ticks (h.ticks ht)⟩

theorem Calm.awake (h : Calm soc soc') (ha : Awake soc) : Awake soc' :=
  fun hr => h.ticks (ha (h.required hr))

theorem batch0Required_iff (soc : Soc ω) : soc.batch0Required = true ↔
    (∃ c, (soc.dma.channels c).running = true) ∨
    (∃ i ssp, soc.ssp i = some ssp ∧ ssp.taskRequired = true) ∨
    soc.nand.taskRequired = true ∨
    ∃ i uart, soc.uarts i = some uart ∧ uart.taskRequired = true := by
  simp [Soc.batch0Required, SocDma.taskRequired, Option.any_eq_true, or_assoc]

theorem calm_modifyChannel {g : DmaChannel → DmaChannel}
    (hg : (g (soc.dma.channels c)).running = true → (soc.dma.channels c).running = true) :
    Calm soc (soc.modifyChannel c g) := by
  refine ⟨?_, id⟩
  rw [batch0Required_iff, batch0Required_iff]
  rintro (⟨d, hd⟩ | hrest)
  · left
    by_cases hdc : d = c
    · grind [channels_modifyChannel]
    · exact ⟨d, by simpa [Soc.modifyChannel, SocDma.modify, Function.update_of_ne hdc] using hd⟩
  · exact Or.inr hrest

theorem calm_request (soc : Soc ω) (req : Fin 75 × Bool) : Calm soc (soc.request req) := by
  by_cases hmapped : soc.dma.CMR req.1 &&& 0x80 ≠ 0
  · have heq : soc.request req = soc.modifyChannel _ _ :=
      congrArg (fun dma => { soc with dma := dma }) (if_pos hmapped)
    rw [heq]
    apply calm_modifyChannel
    cases req.2 with
    | true => exact (running_or_low _ (by decide) (by decide)).le
    | false => exact (running_takeBack _).le
  · have heq : soc.request req = soc :=
      congrArg (fun dma => { soc with dma := dma }) (if_neg hmapped)
    rw [heq]
    exact calm_refl soc

theorem eq_ok_of_toOption {ε α : Type} {r : Except ε α} {a : α} (h : r.toOption = some a) :
    r = .ok a := by
  cases r with
  | ok b => exact congrArg _ (Option.some.inj h)
  | error e => cases h

theorem calm_call {call : Call} (hcall : call.task ≠ aux1) (h : soc.call call = some soc') :
    Calm soc soc' := by
  obtain ⟨scheduler, hexec, rfl⟩ := Option.map_eq_some_iff.mp h
  refine ⟨id, ?_⟩
  have hok := eq_ok_of_toOption hexec
  intro ht
  rwa [ticks, (Call.exec_changed hok).other aux1 (Ne.symm hcall)]

theorem calm_requests (reqs : List (Fin 75 × Bool)) (soc : Soc ω) :
    Calm soc (reqs.foldl Soc.request soc) := by
  induction reqs generalizing soc with
  | nil => exact calm_refl soc
  | cons req reqs ih => exact (calm_request soc req).trans (ih (soc.request req))

theorem calm_absorb {r : Reaction ω} (h : soc.absorb r = some soc') : Calm soc soc' := by
  have hworld : Calm soc { soc with world := r.world } := ⟨id, id⟩
  apply (hworld.trans (calm_requests r.requests _)).trans
  apply PartialRun.foldlM_rel calm_refl (fun h h' => h.trans h') _ h
  intro call hmem s s' hcall
  obtain ⟨call, -, rfl⟩ := List.mem_map.mp hmem
  exact calm_call call.property hcall

theorem reschedule_ticks (h : soc.reschedule = some soc') :
    ticks soc' ≠ 0 ∧ soc'.batch0Required = soc.batch0Required := by
  obtain ⟨scheduler, hexec, rfl⟩ := Option.map_eq_some_iff.mp h
  refine ⟨?_, rfl⟩
  have hself := (Call.exec_changed (eq_ok_of_toOption hexec)).self
  change scheduler.tasks aux1 = _ at hself
  rw [ticks, hself, Call.result, rescheduleResult, if_neg (by decide)]
  exact (by decide : (1 : Ticks) ≠ 0)

theorem calm_reschedule (h : soc.reschedule = some soc') : Calm soc soc' :=
  ⟨fun hr => (reschedule_ticks h).2 ▸ hr, fun _ => (reschedule_ticks h).1⟩

theorem calm_effect {e : Effect} (h : soc.effect W e = some soc') : Calm soc soc' := by
  cases e with
  | irq intNum raise =>
    have hints : Calm soc { soc with ints := Function.update soc.ints intNum raise } := ⟨id, id⟩
    exact hints.trans (calm_absorb h)
  | dmaReq chNum requested =>
    obtain rfl : soc.request (chNum, requested) = soc' := by simpa [Soc.effect] using h
    exact calm_request soc _
  | reschedule => exact calm_reschedule h
  | ready isReady => exact calm_absorb h

theorem calm_effects {calls : List Effect} (h : soc.effects W calls = some soc') :
    Calm soc soc' := by
  apply PartialRun.foldlM_rel calm_refl (fun h h' => h.trans h') _ h
  intro e _ s s' hstep
  exact calm_effect hstep

theorem effects_ticks {calls : List Effect} (hhook : .reschedule ∈ calls)
    (h : soc.effects W calls = some soc') : ticks soc' ≠ 0 := by
  induction calls generalizing soc with
  | nil => cases hhook
  | cons e calls ih =>
    obtain ⟨mid, hstep, hrest⟩ := PartialRun.foldlM_cons_eq_some.mp h
    rcases List.mem_cons.mp hhook with rfl | hmem
    · exact (calm_effects (W := W) hrest).ticks (reschedule_ticks hstep).1
    · exact ih hmem hrest

theorem effects_awake {calls : List Effect} (ha : Awake soc)
    (hwake : mid.batch0Required = true → soc.batch0Required = true ∨ .reschedule ∈ calls)
    (hticks : ticks mid = ticks soc) (h : mid.effects W calls = some soc') : Awake soc' := by
  intro hr
  have hcalm := calm_effects (W := W) h
  rcases hwake (hcalm.required hr) with hbefore | hhook
  · exact hcalm.ticks (hticks ▸ ha hbefore)
  · exact effects_ticks hhook h

section Devices

variable {calls : List Effect}

theorem uart_awake {i : Fin 4} {uart uart' : SocUart} {world : ω} (ha : Awake soc)
    (hi : soc.uarts i = some uart)
    (hwake : uart'.taskRequired = true → uart.taskRequired = true ∨ .reschedule ∈ calls)
    (h : Soc.effects W { soc with
      uarts := Function.update soc.uarts i (some uart'), world := world } calls = some soc') :
    Awake soc' := by
  refine effects_awake ha ?_ (by rfl) h
  rw [batch0Required_iff, batch0Required_iff]
  rintro (hdma | hssp | hnand | ⟨j, other, hj, hbusy⟩)
  · grind
  · grind
  · grind
  · by_cases hji : j = i
    · grind
    · have hkept : soc.uarts j = some other := (Function.update_of_ne hji ..).symm.trans hj
      exact Or.inl (Or.inr (Or.inr (Or.inr ⟨j, other, hkept, hbusy⟩)))

theorem ssp_awake {i : Fin 3} {ssp ssp' : SocSsp} (ha : Awake soc) (hi : soc.ssp i = some ssp)
    (hwake : ssp'.taskRequired = true → ssp.taskRequired = true ∨ .reschedule ∈ calls)
    (h : Soc.effects W { soc with ssp := Function.update soc.ssp i (some ssp') } calls = some soc') :
    Awake soc' := by
  refine effects_awake ha ?_ (by rfl) h
  rw [batch0Required_iff, batch0Required_iff]
  rintro (hdma | ⟨j, other, hj, hbusy⟩ | hrest)
  · grind
  · grind
  · exact Or.inl (Or.inr (Or.inr hrest))

theorem nand_awake {nand : Nand} (ha : Awake soc)
    (hwake : nand.taskRequired = true → soc.nand.taskRequired = true ∨ .reschedule ∈ calls)
    (h : Soc.effects W { soc with nand := nand } calls = some soc') : Awake soc' := by
  refine effects_awake ha ?_ (by rfl) h
  rw [batch0Required_iff, batch0Required_iff]
  rintro (hdma | hssp | hnand | huart) <;> grind

end Devices

theorem findSome_target {n : ℕ} {xs : List (Fin n)} {at_ : Fin n → Option Target} {d : Target}
    (h : xs.findSome? at_ = some d) : ∃ i, at_ i = some d := by
  obtain ⟨i, -, hi⟩ := List.exists_of_findSome?_eq_some h
  exact ⟨i, hi⟩

theorem target_spec (rev : Fin 3) (soc : Soc ω) (pa : Word) :
    match soc.target rev pa with
    | .uart i uart => soc.uarts i = some uart
    | .ssp i ssp => soc.ssp i = some ssp
    | _ => True := by
  unfold Soc.target
  split_ifs
  · trivial
  · trivial
  · cases huart : (List.finRange 4).findSome? (soc.uartAt pa) with
    | some d =>
      obtain ⟨i, hi⟩ := findSome_target huart
      unfold Soc.uartAt at hi
      split_ifs at hi
      obtain ⟨uart, hsome, rfl⟩ := Option.map_eq_some_iff.mp hi
      exact hsome
    | none =>
      cases hssp : (List.finRange 3).findSome? (soc.sspAt rev pa) with
      | some d =>
        obtain ⟨i, hi⟩ := findSome_target hssp
        unfold Soc.sspAt at hi
        split_ifs at hi
        obtain ⟨ssp, hsome, rfl⟩ := Option.map_eq_some_iff.mp hi
        exact hsome
      | none => trivial

theorem deviceAccess_awake {pa : Word} {size : ℕ} {write : Bool} {buf : Word} {a : BusAccess ω}
    (h : soc.deviceAccess W rev pa size write buf = some a) (ha : Awake soc) : Awake a.soc := by
  have htarget := target_spec rev soc pa
  unfold Soc.deviceAccess at h
  split at h
  · rename_i i uart heq
    rw [heq] at htarget
    obtain ⟨done, hdone, h⟩ := Option.bind_eq_some_iff.mp h
    obtain ⟨soc', heffects, h⟩ := Option.bind_eq_some_iff.mp h
    cases h
    exact uart_awake ha htarget (SocUart.memAccessF_wakes hdone) heffects
  · rename_i i ssp heq
    rw [heq] at htarget
    obtain ⟨soc', heffects, h⟩ := Option.bind_eq_some_iff.mp h
    cases h
    exact ssp_awake ha htarget (SocSsp.memAccessF_wakes _ ssp _ _ _ _) heffects
  · obtain ⟨done, hdone, h⟩ := Option.bind_eq_some_iff.mp h
    obtain ⟨soc', heffects, h⟩ := Option.bind_eq_some_iff.mp h
    cases h
    exact nand_awake ha (Nand.memAccessF_wakes hdone) heffects
  all_goals
    obtain ⟨soc', habsorb, h⟩ := Option.bind_eq_some_iff.mp h
    cases h
    exact (calm_absorb habsorb).awake ha

theorem memRead_awake {pa : Word} {size : ℕ} {buf : Word} {a : BusAccess ω}
    (h : soc.memRead W rev pa size buf = some a) (ha : Awake soc) : Awake a.soc := by
  unfold Soc.memRead at h
  split_ifs at h
  · cases h
    exact ha
  · exact deviceAccess_awake h ha

theorem readDescriptor_awake {dar : Word} {r : Option Descriptor × Soc ω}
    (h : soc.readDescriptor W rev dar = some r) (ha : Awake soc) : Awake r.2 := by
  obtain ⟨nextD, hD, h⟩ := Option.bind_eq_some_iff.mp h
  have aD := memRead_awake hD ha
  split at h
  · cases h
    exact aD
  obtain ⟨nextS, hS, h⟩ := Option.bind_eq_some_iff.mp h
  have aS := memRead_awake hS aD
  split at h
  · cases h
    exact aS
  obtain ⟨nextT, hT, h⟩ := Option.bind_eq_some_iff.mp h
  have aT := memRead_awake hT aS
  split at h
  · cases h
    exact aT
  obtain ⟨nextC, hC, h⟩ := Option.bind_eq_some_iff.mp h
  have aC := memRead_awake hC aT
  split at h
  all_goals
    cases h
    exact aC

theorem descrFetch_awake (h : soc.descrFetch W rev c = some soc') (ha : Awake soc) :
    Awake soc' := by
  obtain ⟨⟨d, mid⟩, hread, h⟩ := Option.bind_eq_some_iff.mp h
  cases h
  exact (calm_modifyChannel (loadDescriptor_running _ d)).awake (readDescriptor_awake hread ha)

/-- Before a start: the task is scheduled unless the channel has just begun to run. -/
def AwakeBut (c : Fin 32) (prevCsr : Word) (soc : Soc ω) : Prop :=
  soc.batch0Required = true → ticks soc ≠ 0 ∨
    ((soc.dma.channels c).running = true ∧ DmaChannel.runningByCsrVal prevCsr = false)

theorem maybeStart_awake {prevCsr : Word} (h : soc.maybeStart W rev c prevCsr = some soc')
    (ha : AwakeBut c prevCsr soc) : Awake soc' := by
  unfold Soc.maybeStart at h
  dsimp only at h
  split at h
  · obtain ⟨mid, hhook, h⟩ := Option.bind_eq_some_iff.mp h
    have hmid : Awake mid := fun _ => (reschedule_ticks hhook).1
    have hstarted : Awake (mid.modifyChannel c Soc.startChannel) :=
      (calm_modifyChannel (startChannel_running _).le).awake hmid
    split at h
    · grind
    · exact descrFetch_awake h hstarted
  · rename_i hstart
    cases h
    intro hr
    rcases ha hr with hticks | ⟨hrunning, hprev⟩
    · exact hticks
    · grind

theorem awakeBut_modifyChannel (ha : Awake soc) (g : DmaChannel → DmaChannel) :
    AwakeBut c (soc.dma.channels c).CSR (soc.modifyChannel c g) := by
  intro hr
  by_cases hprev : (soc.dma.channels c).running = true
  · left
    exact ha ((batch0Required_iff soc).mpr (Or.inl ⟨c, hprev⟩))
  · by_cases hnow : (g (soc.dma.channels c)).running = true
    · grind [channels_modifyChannel, DmaChannel.running]
    · left
      exact (calm_modifyChannel fun hg => absurd hg hnow).awake ha hr

theorem irqRecalc_awake (h : soc.irqRecalc W c = some soc') (ha : Awake soc) : Awake soc' := by
  have hcalm : Calm soc { soc with
      dma := { soc.dma with DINT := soc.dma.recalculatedDint c }
      ints := Function.update soc.ints irqDma (decide (soc.dma.recalculatedDint c ≠ 0)) } :=
    ⟨id, id⟩
  exact (calm_absorb h).awake (hcalm.awake ha)

theorem writeCsr_awake {val : Word} (h : soc.writeCsr W rev c val = some soc') (ha : Awake soc) :
    Awake soc' := by
  obtain ⟨started, hstart, h⟩ := Option.bind_eq_some_iff.mp h
  have hstarted := maybeStart_awake hstart (awakeBut_modifyChannel ha _)
  split at h
  · apply irqRecalc_awake h
    apply (calm_modifyChannel _).awake hstarted
    intro hstop
    rw [stop_not_running] at hstop
    cases hstop
  · exact irqRecalc_awake h hstarted

theorem regWrite_awake {reg : DmaReg} {val : Word}
    (h : soc.regWrite W rev c reg val = some soc') (ha : Awake soc) : Awake soc' := by
  unfold Soc.regWrite at h
  split at h
  · exact writeCsr_awake h ha
  dsimp only at h
  split at h
  · apply maybeStart_awake h
    have hmerged : ((soc.modifyChannel c fun ch => Soc.writtenChannel ch reg val).modifyChannel c
        Soc.unstop) = soc.modifyChannel c fun ch => Soc.unstop (Soc.writtenChannel ch reg val) := by
      simp [Soc.modifyChannel, SocDma.modify]
    rw [hmerged]
    exact awakeBut_modifyChannel ha _
  · cases h
    apply (calm_modifyChannel _).awake ha
    rw [DmaChannel.running, pending_writtenChannel]
    exact id

theorem memWrite_awake {pa : Word} {size : ℕ} {val : Word} {a : BusAccess ω}
    (h : soc.memWrite W rev pa size val = some a) (ha : Awake soc) : Awake a.soc := by
  unfold Soc.memWrite at h
  split at h
  · unfold Soc.dmaWrite at h
    split at h
    · cases h
      exact ha
    split at h
    · cases h
      exact ha
    · cases h
      exact ha
    · grind
    · cases h
      exact ha
    · obtain ⟨soc', hwrite, rfl⟩ := Option.map_eq_some_iff.mp h
      exact regWrite_awake hwrite ha
  · exact deviceAccess_awake h ha

theorem memAccess_awake {pa : Word} {size : ℕ} {write : Bool} {buf : Word} {a : BusAccess ω}
    (h : soc.memAccess W rev pa size write buf = some a) (ha : Awake soc) : Awake a.soc := by
  unfold Soc.memAccess at h
  split at h
  · exact memWrite_awake h ha
  · exact memRead_awake h ha

open Option

variable {f f' : Bool}

theorem awake_modifyChannel {g : DmaChannel → DmaChannel}
    (hg : (g (t.channel c)).running = true → (t.channel c).running = true) (ha : Awake t.soc) :
    Awake (t.modifyChannel c g).soc :=
  (calm_modifyChannel hg).awake ha

theorem stopped_awake {g : DmaChannel → DmaChannel} (ha : Awake t.soc) :
    Awake (t.modifyChannel c fun ch => (g ch).stop).soc := by
  apply awake_modifyChannel _ ha
  intro hrunning
  rw [stop_not_running] at hrunning
  cases hrunning

theorem busError_awake (ha : Awake t.soc) : Awake (t.busError c).soc :=
  stopped_awake ha

/-- A loop of transfers, by induction on the transfers that are left. -/
theorem burstLoop_awake {each num : ℕ} {failed : Bool}
    (h : t.burstLoop W rev c each num = some (t', failed)) (ha : Awake t.soc) : Awake t'.soc := by
  induction num generalizing t with
  | zero =>
    cases h
    exact ha
  | succ num ih =>
    obtain ⟨read, hread, h⟩ := bind_eq_some_iff.mp h
    have aread : Awake read.soc := memRead_awake hread ha
    split at h
    · cases h
      exact busError_awake (t := ⟨read.soc, t.writes⟩) aread
    obtain ⟨written, hwritten, h⟩ := bind_eq_some_iff.mp h
    have awritten : Awake written.soc := memWrite_awake hwritten aread
    split at h
    · cases h
      exact busError_awake (t := ⟨written.soc, t.writes ++ written.writes⟩) awritten
    · apply ih h
      exact awake_modifyChannel (t := ⟨written.soc, t.writes ++ written.writes⟩) id awritten

theorem checkForEnd_awake {update : Bool} (h : t.checkForEnd W rev c = some (t', update))
    (ha : Awake t.soc) : Awake t'.soc := by
  unfold Transfer.checkForEnd at h
  dsimp only at h
  split at h
  · grind
  split at h
  · cases h
    exact ha
  have hended : Awake (if (t.channel c).CR &&& 0x00200000 ≠ 0 then
      t.modifyChannel c fun ch => { ch with CSR := ch.CSR ||| 4 } else t).soc := by
    split
    · exact awake_modifyChannel (running_or_low _ (by decide) (by decide)).le ha
    · exact ha
  generalize (if (t.channel c).CR &&& 0x00200000 ≠ 0 then
      t.modifyChannel c fun ch => { ch with CSR := ch.CSR ||| 4 } else t) = ended at h hended
  split at h
  · cases h
    exact stopped_awake (g := id) hended
  · obtain ⟨fetched, hfetch, h⟩ := bind_eq_some_iff.mp h
    cases h
    exact descrFetch_awake hfetch hended

theorem doBurst_awake {update : Bool} (h : t.doBurst W rev c = some (t', update))
    (ha : Awake t.soc) : Awake t'.soc := by
  unfold Transfer.doBurst at h
  dsimp only at h
  split at h
  · cases h
  split at h
  · cases h
  obtain ⟨⟨moved, failed⟩, hloop, h⟩ := bind_eq_some_iff.mp h
  have amoved : Awake moved.soc := burstLoop_awake hloop ha
  split at h
  · cases h
    exact amoved
  · exact checkForEnd_awake h amoved

theorem workLoop_awake {justOne : Bool} {limit : ℕ}
    (h : Transfer.workLoop W rev c justOne limit t f = some (t', f')) (ha : Awake t.soc) :
    Awake t'.soc := by
  induction limit generalizing t f with
  | zero => cases h
  | succ limit ih =>
    obtain ⟨⟨burst, update⟩, hburst, h⟩ := bind_eq_some_iff.mp h
    have aburst : Awake burst.soc := doBurst_awake hburst ha
    dsimp only at h
    split at h
    · exact ih h aburst
    · cases h
      exact aburst

theorem act_awake {limit : ℕ} (h : t.act W rev limit c f = some (t', f')) (ha : Awake t.soc) :
    Awake t'.soc := by
  unfold Transfer.act at h
  dsimp only at h
  split at h
  · exact workLoop_awake h ha
  split at h
  · exact workLoop_awake h ha
  · grind

theorem actIfNeeded_awake {limit : ℕ} (h : t.actIfNeeded W rev limit c = some t')
    (ha : Awake t.soc) : Awake t'.soc := by
  unfold Transfer.actIfNeeded at h
  split at h
  · grind
  obtain ⟨⟨ended, update⟩, hend, h⟩ := bind_eq_some_iff.mp h
  obtain ⟨⟨worked, irqUpdate⟩, hwork, h⟩ := bind_eq_some_iff.mp h
  have aended : Awake ended.soc := checkForEnd_awake hend ha
  have aworked : Awake worked.soc := by
    split at hwork
    · exact act_awake hwork aended
    · grind
  dsimp only at h
  split at h
  · obtain ⟨settled, hrecalc, h⟩ := bind_eq_some_iff.mp h
    cases h
    exact irqRecalc_awake hrecalc aworked
  · grind

theorem dmaPeriodic_awake {limit : ℕ} (h : t.dmaPeriodic W rev limit = some t')
    (ha : Awake t.soc) : Awake t'.soc := by
  have hstep : ∀ c ∈ List.finRange 32, ∀ s s', Awake s.soc →
      Transfer.actIfNeeded W rev limit s c = some s' → Awake s'.soc :=
    fun c _ s s' hs hact => actIfNeeded_awake hact hs
  exact @PartialRun.foldlM_invariant _ _ _ t t' (fun t => Awake t.soc) _ hstep ha h

theorem rescheduleResult_batchedTicks (s : Scheduler) (task : TaskType) (batchTicks : Ticks) :
    (rescheduleResult false s task batchTicks).batchedTicks = batchTicks := by
  rw [rescheduleResult]
  by_cases hzero : batchTicks = 0
  · rw [if_pos hzero]
    exact hzero.symm
  · rw [if_neg hzero]
    rfl

theorem finishDispatch_ticks {task : TaskType} {batchTicks : Ticks}
    (h : finishDispatch soc task batchTicks = some soc') :
    soc'.batch0Required = soc.batch0Required ∧
      ticks soc' = if task = aux1 then batchTicks else ticks soc := by
  obtain ⟨scheduler, hexec, rfl⟩ := map_eq_some_iff.mp h
  refine ⟨rfl, ?_⟩
  have hchanged := (rescheduleTaskImpl_changed (eq_ok_of_toOption hexec)).of_setTask
  by_cases htask : task = aux1
  · subst htask
    change (scheduler.tasks aux1).batchedTicks = batchTicks
    rw [hchanged.self, rescheduleResult_batchedTicks]
  · rw [if_neg htask, ticks, ticks]
    rw [hchanged.other aux1 (Ne.symm htask)]

/-- One dispatch: whatever became busy inside it, the periodic task stays scheduled. -/
theorem dispatch_awake {limit : ℕ} {task : TaskType} {batchTicks : Ticks}
    (h : dispatchTicks W rev limit t task = some (t', batchTicks)) (ha : Awake t.soc)
    (hfinish : finishDispatch t'.soc task batchTicks = some soc') : Awake soc' := by
  obtain ⟨hrequired, hticks⟩ := finishDispatch_ticks hfinish
  intro hr
  rw [hrequired] at hr
  unfold dispatchTicks at h
  split at h
  · rename_i htask
    obtain ⟨cycled, -, h⟩ := bind_eq_some_iff.mp h
    cases h
    rw [hticks, if_pos htask, if_pos hr]
    decide
  · rename_i htask
    obtain ⟨absorbed, habsorb, h⟩ := bind_eq_some_iff.mp h
    cases h
    rw [hticks, if_neg htask]
    exact (calm_absorb habsorb).awake ha hr

theorem advanceLoop_awake {limit dispatches : ℕ}
    (h : advanceLoop W rev limit dispatches t = some t') (ha : Awake t.soc) : Awake t'.soc := by
  induction dispatches generalizing t with
  | zero => cases h
  | succ dispatches ih =>
    have adone : Awake { t.soc with scheduler := updateNextUpdate t.soc.scheduler } :=
      Calm.awake ⟨id, id⟩ ha
    unfold advanceLoop at h
    dsimp only at h
    split at h
    · grind
    split at h
    · cases h
      exact adone
    · obtain ⟨⟨dispatched, batchTicks⟩, hdispatch, h⟩ := bind_eq_some_iff.mp h
      obtain ⟨finished, hfinish, h⟩ := bind_eq_some_iff.mp h
      exact ih h (dispatch_awake hdispatch ha hfinish)

theorem advance_awake {limit : ℕ} {cycles cyclesPerSecond : Time}
    (h : advance W rev limit t cycles cyclesPerSecond = some t') (ha : Awake t.soc) :
    Awake t'.soc := by
  have htime (accTime : Time) : Awake { t.soc with
      scheduler := { t.soc.scheduler with accTime := accTime } } := Calm.awake ⟨id, id⟩ ha
  unfold advance at h
  dsimp only at h
  split at h
  · cases h
  split at h
  · cases h
    exact htime _
  · exact advanceLoop_awake h (htime _)

theorem socStep_awake {limit : ℕ} {event : SocEvent ω}
    (h : socStep W rev limit t event = some t') (ha : Awake t.soc) : Awake t'.soc := by
  cases event with
  | access pa size write buf =>
    obtain ⟨a, haccess, h⟩ := bind_eq_some_iff.mp h
    cases h
    exact memAccess_awake haccess ha
  | advance cycles cyclesPerSecond => exact advance_awake h ha
  | outside reaction =>
    obtain ⟨absorbed, habsorb, h⟩ := bind_eq_some_iff.mp h
    cases h
    exact (calm_absorb habsorb).awake ha
  | dmaPeriodic => exact dmaPeriodic_awake h ha

theorem socInit_awake {data : ℕ → Byte} {world : ω} (h : socInit rev data world = some soc) :
    Awake soc := by
  unfold socInit at h
  obtain ⟨scheduler, hscheduler, h⟩ := bind_eq_some_iff.mp h
  cases h
  intro _
  have hticks : (Scheduling.run Scheduling.init [
      .call (.scheduleTask 0 (oneSec / 3686400) 1), .call (.scheduleTask 1 oneSec 1),
      .call (.scheduleTask 2 (oneSec / 11520) 1),
      .call (.scheduleTask aux1 (36 * oneSec / 3686400) 1),
      .call (.scheduleTask 4 (oneSec / 14700) 1),
      .call (.scheduleTask 6 (oneSec / 30) 1)]).toOption.all
        (fun s => decide ((s.tasks aux1).batchedTicks ≠ 0)) = true := by rfl
  rw [hscheduler] at hticks
  exact of_decide_eq_true hticks

/-- In every state of every run the periodic task is scheduled if a device needs it. -/
theorem scheduled_of_batch0Required (W : World ω) (rev : Fin 3) (limit : ℕ) (data : ℕ → Byte)
    (world : ω) (events : List (SocEvent ω)) (hinit : socInit rev data world = some soc)
    (hrun : socRun W rev limit ⟨soc, []⟩ events = some t) (hrequired : t.soc.batch0Required = true) :
    (t.soc.scheduler.tasks aux1).batchedTicks ≠ 0 := by
  have hawake : Awake t.soc := by
    apply PartialRun.foldlM_invariant (P := fun t : Transfer ω => Awake t.soc) _
      (socInit_awake hinit) hrun
    intro event _ s s' hs hstep
    exact socStep_awake hstep hs
  exact hawake hrequired

def busyEvents : List (SocEvent Unit) :=
  [.advance 40 3686400, .access 0x40000000 4 true 0xC0000000, .access 0x40000204 4 true 0xA0000000,
    .access 0x40000208 4 true 0x40000000, .access 0x4000020C 4 true 0x4010]

theorem scheduled_busyEvents : ∃ soc t, socInit 0 (fun _ => 0) () = some soc ∧
    socRun bareWorld 0 64 ⟨soc, []⟩ busyEvents = some t ∧ t.soc.batch0Required = true ∧
    (t.soc.scheduler.tasks aux1).batchedTicks ≠ 0 := by
  obtain ⟨soc, t, hinit, hrun, ht⟩ := bareRun_cases busyEvents (by decide +kernel)
  have hrequired : t.soc.batch0Required = true := by
    have hall : (bareRun busyEvents).all (fun t => t.soc.batch0Required) = true := by
      decide +kernel
    rwa [ht] at hall
  exact ⟨soc, t, hinit, hrun, hrequired,
    scheduled_of_batch0Required bareWorld 0 64 (fun _ => 0) () busyEvents hinit hrun hrequired⟩

end Cloudpilot.Uarm.Peripherals
