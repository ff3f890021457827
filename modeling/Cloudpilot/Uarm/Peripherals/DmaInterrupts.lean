import Cloudpilot.Uarm.Peripherals.DmaStatus

/-! # When the interrupt status of the DMA controller is current

A transfer notes whether a channel changed its interrupts, and recalculates the
status at its end. A write to the address, command or descriptor register takes a
channel out of the stopped state, and may fetch a descriptor, without that: it is
harmless if what it takes away it also brings.
-/
namespace Cloudpilot.Uarm.Peripherals
open Cpu Scheduling Library

variable {ω : Type} {W : World ω} {rev : Fin 3} {soc soc' mid : Soc ω} {c : Fin 32}

/-- A descriptor that cannot be read, or one that requests a start interrupt. -/
def descriptorInterrupts : Option Descriptor → Bool
  | none => true
  | some d => d.nextC &&& 0x00400000 ≠ 0

/-- `socDmaPrvChannelMaybeStart` fetches a descriptor that raises an interrupt. -/
def startInterrupts (W : World ω) (rev : Fin 3) (soc : Soc ω) (c : Fin 32) (prevCsr : Word) : Bool :=
  let ch := soc.dma.channels c
  if ch.running ∧ ¬ DmaChannel.runningByCsrVal prevCsr ∧ ¬ ch.noDescrFetch then
    ((soc.reschedule.bind fun soc =>
      (soc.modifyChannel c Soc.startChannel).readDescriptor W rev (Soc.startChannel ch).descrAddr).map
        fun r => descriptorInterrupts r.1).getD false
  else false

namespace RegWrite

def before (w : RegWrite ω) : DmaChannel := w.soc.dma.channels w.channel

def after (w : RegWrite ω) : DmaChannel := Soc.writtenChannel w.before w.reg w.val

/-- The state in which the write may start the channel. -/
def released (w : RegWrite ω) : Soc ω :=
  (w.soc.modifyChannel w.channel fun ch => Soc.writtenChannel ch w.reg w.val).modifyChannel w.channel
    Soc.unstop

/-- If the write may start a channel without an end, start or bus error interrupt, then the
channel has a stop interrupt exactly if its first descriptor raises an interrupt. -/
def Harmless (W : World ω) (rev : Fin 3) (w : RegWrite ω) : Prop :=
  Soc.mayStart w.after w.reg w.val = true → w.before.CSR &&& 7 = 0 →
    ((w.before.CSR &&& 8 ≠ 0 ∧ w.before.CSR &&& 0x20000000 ≠ 0) ↔
      startInterrupts W rev w.released w.channel w.before.CSR = true)

instance (W : World ω) (rev : Fin 3) (w : RegWrite ω) : Decidable (w.Harmless W rev) :=
  inferInstanceAs (Decidable (_ → _ → (_ ↔ _)))

end RegWrite

/-- Only the interrupts of one channel changed, and the status was not recalculated. -/
structure StatusOf (c : Fin 32) (p : Bool) (soc soc' : Soc ω) : Prop where
  dint : soc'.dma.DINT = soc.dma.DINT
  line : soc'.ints irqDma = soc.ints irqDma
  others : ∀ d, d ≠ c → pending (soc'.dma.channels d).CSR = pending (soc.dma.channels d).CSR
  self : pending (soc'.dma.channels c).CSR = p

theorem StatusKept.statusOf (h : StatusKept soc soc') (c : Fin 32) :
    StatusOf c (pending (soc.dma.channels c).CSR) soc soc' :=
  ⟨h.dint, h.line, fun d _ => h.interrupts d, h.interrupts c⟩

theorem StatusOf.trans {p q : Bool} (h : StatusOf c p soc mid) (h' : StatusOf c q mid soc') :
    StatusOf c q soc soc' where
  dint := h'.dint.trans h.dint
  line := h'.line.trans h.line
  others := fun d hd => (h'.others d hd).trans (h.others d hd)
  self := h'.self

theorem StatusOf.kept (h : StatusOf c (pending (soc.dma.channels c).CSR) soc soc') :
    StatusKept soc soc' := by
  refine ⟨h.dint, h.line, ?_⟩
  intro d
  by_cases hd : d = c
  · rw [hd]
    exact h.self
  · exact h.others d hd

theorem statusOf_modifyChannel (soc : Soc ω) (c : Fin 32) (f : DmaChannel → DmaChannel) :
    StatusOf c (pending (f (soc.dma.channels c)).CSR) soc (soc.modifyChannel c f) := by
  refine ⟨rfl, rfl, ?_, ?_⟩
  · intro d hd
    simp [Soc.modifyChannel, SocDma.modify, Function.update_of_ne hd]
  · simp [Soc.modifyChannel, SocDma.modify]

@[simp] theorem channels_modifyChannel (soc : Soc ω) (c : Fin 32) (f : DmaChannel → DmaChannel) :
    (soc.modifyChannel c f).dma.channels c = f (soc.dma.channels c) := by
  simp [Soc.modifyChannel, SocDma.modify]

theorem pending_of_bit0 {csr : Word} (h : csr.getLsbD 0 = true) : pending csr = true := by
  rw [pending_iff, h]
  rfl

theorem pending_loadDescriptor (ch : DmaChannel) (d : Option Descriptor) :
    pending (Soc.loadDescriptor ch d).CSR = (descriptorInterrupts d || pending ch.CSR) := by
  cases d with
  | none =>
    apply pending_of_bit0
    simp [Soc.loadDescriptor, DmaChannel.stop]
  | some d =>
    by_cases hstart : d.nextC &&& 0x00400000 ≠ 0
    · rw [Soc.loadDescriptor, if_pos hstart, descriptorInterrupts, decide_eq_true hstart,
        Bool.true_or, pending_iff]
      simp
    · rw [Soc.loadDescriptor, if_neg hstart, descriptorInterrupts, decide_eq_false hstart,
        Bool.false_or]

theorem pending_unstop (ch : DmaChannel) : pending (Soc.unstop ch).CSR = decide (ch.CSR &&& 7 ≠ 0) := by
  rw [pending_iff, Bool.eq_iff_iff, decide_eq_true_eq, and_seven]
  simp [Soc.unstop, or_assoc]

theorem pending_startChannel (ch : DmaChannel) :
    pending (Soc.startChannel ch).CSR = pending ch.CSR :=
  pending_takeBack ch.CSR

theorem statusKept_readDescriptor {dar : Word} {r : Option Descriptor × Soc ω}
    (h : soc.readDescriptor W rev dar = some r) : StatusKept soc r.2 := by
  obtain ⟨nextD, hD, h⟩ := Option.bind_eq_some_iff.mp h
  have kD := (statusKept_memRead hD).1
  split at h
  · cases h
    exact kD
  obtain ⟨nextS, hS, h⟩ := Option.bind_eq_some_iff.mp h
  have kS := kD.trans (statusKept_memRead hS).1
  split at h
  · grind
  obtain ⟨nextT, hT, h⟩ := Option.bind_eq_some_iff.mp h
  have kT := kS.trans (statusKept_memRead hT).1
  split at h
  · cases h
    exact kT
  obtain ⟨nextC, hC, h⟩ := Option.bind_eq_some_iff.mp h
  have kC := kT.trans (statusKept_memRead hC).1
  split at h
  all_goals
    cases h
    exact kC

theorem descrFetch_status (h : soc.descrFetch W rev c = some soc') :
    ∃ d mid, soc.readDescriptor W rev (soc.dma.channels c).descrAddr = some (d, mid) ∧
      StatusOf c (descriptorInterrupts d || pending (soc.dma.channels c).CSR) soc soc' := by
  obtain ⟨⟨d, mid⟩, hread, h⟩ := Option.bind_eq_some_iff.mp h
  cases h
  refine ⟨d, mid, hread, ?_⟩
  have hkept := statusKept_readDescriptor hread
  have hload := statusOf_modifyChannel mid c fun ch => Soc.loadDescriptor ch d
  rw [pending_loadDescriptor, hkept.interrupts c] at hload
  exact (hkept.statusOf c).trans hload

theorem statusKept_start (h : soc.reschedule = some mid) :
    StatusKept soc (mid.modifyChannel c Soc.startChannel) :=
  (statusKept_call h).trans (statusKept_modifyChannel c (pending_startChannel _))

theorem channels_reschedule (h : soc.reschedule = some mid) : mid.dma = soc.dma := by
  obtain ⟨scheduler, -, rfl⟩ := Option.map_eq_some_iff.mp h
  rfl

theorem maybeStart_status {prevCsr : Word} (h : soc.maybeStart W rev c prevCsr = some soc') :
    StatusOf c (startInterrupts W rev soc c prevCsr || pending (soc.dma.channels c).CSR) soc soc' := by
  unfold Soc.maybeStart at h
  unfold startInterrupts
  by_cases hstart : (soc.dma.channels c).running = true ∧
      ¬ DmaChannel.runningByCsrVal prevCsr = true
  · rw [if_pos hstart] at h
    obtain ⟨mid, hhook, h⟩ := Option.bind_eq_some_iff.mp h
    have hkept := statusKept_start (c := c) hhook
    by_cases hfetch : (soc.dma.channels c).noDescrFetch = true
    · rw [if_pos hfetch] at h
      cases h
      rw [if_neg (by simp [hfetch]), Bool.false_or]
      exact hkept.statusOf c
    · rw [if_neg hfetch] at h
      obtain ⟨d, after, hread, hstatus⟩ := descrFetch_status h
      rw [channels_modifyChannel, channels_reschedule hhook] at hread
      rw [if_pos ⟨hstart.1, hstart.2, hfetch⟩, hhook, Option.bind_some, hread]
      rw [hkept.interrupts c] at hstatus
      exact (hkept.statusOf c).trans hstatus
  · rw [if_neg hstart] at h
    cases h
    rw [if_neg (by tauto), Bool.false_or]
    exact (statusKept_refl soc).statusOf c

/-- What keeps the interrupt line current, and every status bit that was. -/
structure KeepsExact (soc soc' : Soc ω) : Prop where
  line : soc.ints irqDma = decide (soc.dma.DINT ≠ 0) → soc'.ints irqDma = decide (soc'.dma.DINT ≠ 0)
  bits : ∀ c, ExactAt soc c → ExactAt soc' c

theorem StatusKept.keepsExact (h : StatusKept soc soc') : KeepsExact soc soc' where
  line := by
    rw [h.dint, h.line]
    exact id
  bits := fun _ => h.exactAt

theorem KeepsExact.dintExact (h : KeepsExact soc soc') (hexact : DintExact soc) : DintExact soc' :=
  ⟨fun c => h.bits c (hexact.bits c), h.line hexact.line⟩

/-- A register that does not hold the interrupts leaves them alone, unless it releases the channel. -/
theorem pending_writtenChannel (ch : DmaChannel) (reg : DmaReg) (val : Word) :
    (Soc.writtenChannel ch reg val).CSR = ch.CSR := by
  cases reg <;> rfl

theorem regWrite_status {w : RegWrite ω} (hreg : w.reg ≠ .CSR)
    (h : w.soc.regWrite W rev w.channel w.reg w.val = some soc') :
    StatusOf w.channel (if Soc.mayStart w.after w.reg w.val then
      startInterrupts W rev w.released w.channel w.before.CSR || decide (w.before.CSR &&& 7 ≠ 0)
      else pending w.before.CSR) w.soc soc' := by
  have hwritten := statusOf_modifyChannel w.soc w.channel
    fun ch => Soc.writtenChannel ch w.reg w.val
  rw [pending_writtenChannel] at hwritten
  unfold Soc.regWrite at h
  rw [if_neg hreg] at h
  dsimp only at h
  rw [channels_modifyChannel] at h
  change (if Soc.mayStart w.after w.reg w.val = true then _ else _) = _ at h
  by_cases hstart : Soc.mayStart w.after w.reg w.val = true
  · rw [if_pos hstart] at h ⊢
    have hreleased := statusOf_modifyChannel (w.soc.modifyChannel w.channel
      fun ch => Soc.writtenChannel ch w.reg w.val) w.channel Soc.unstop
    have hstatus := maybeStart_status h
    have hcsr : pending (w.released.dma.channels w.channel).CSR = decide (w.before.CSR &&& 7 ≠ 0) := by
      rw [RegWrite.released, channels_modifyChannel, channels_modifyChannel, pending_unstop,
        pending_writtenChannel]
      rfl
    rw [← hcsr]
    exact (hwritten.trans hreleased).trans hstatus
  · rw [if_neg hstart] at h ⊢
    cases h
    exact hwritten

theorem harmless_iff_interrupts {w : RegWrite ω} (hreg : w.reg ≠ .CSR)
    (h : w.soc.regWrite W rev w.channel w.reg w.val = some soc') :
    w.Harmless W rev ↔ pending (soc'.dma.channels w.channel).CSR = pending w.before.CSR := by
  rw [(regWrite_status hreg h).self, RegWrite.Harmless]
  by_cases hstart : Soc.mayStart w.after w.reg w.val = true
  · rw [if_pos hstart, forall_prop_of_true hstart]
    by_cases hseven : w.before.CSR &&& 7 = 0
    · have hpending : pending w.before.CSR =
          decide (w.before.CSR &&& 8 ≠ 0 ∧ w.before.CSR &&& 0x20000000 ≠ 0) :=
        decide_eq_decide.mpr (or_iff_right (not_not.mpr hseven))
      constructor <;> grind
    · have hpending : pending w.before.CSR = true := decide_eq_true (Or.inl hseven)
      rw [decide_eq_true hseven, Bool.or_true, hpending]
      exact ⟨fun _ => rfl, fun _ hzero => absurd hzero hseven⟩
  · simp [hstart]

theorem statusKept_harmless {w : RegWrite ω} (hreg : w.reg ≠ .CSR) (hharmless : w.Harmless W rev)
    (h : w.soc.regWrite W rev w.channel w.reg w.val = some soc') : StatusKept w.soc soc' := by
  have hstatus := regWrite_status hreg h
  rw [← hstatus.self, (harmless_iff_interrupts hreg h).mp hharmless] at hstatus
  exact hstatus.kept

theorem getLsbD_ite_or (p : Prop) [Decidable p] (x bit : Word) (i : ℕ) :
    (if p then x ||| bit else x).getLsbD i = (x.getLsbD i || (decide p && bit.getLsbD i)) := by
  by_cases hp : p <;> simp [hp]

theorem recalculatedDint_bit (dma : SocDma) (c d : Fin 32) :
    (dma.recalculatedDint c).getLsbD d.val =
      if d = c then pending (dma.channels c).CSR else dma.DINT.getLsbD d.val := by
  have hbit : ((1 : Word) <<< c.val).getLsbD d.val = decide (d.val = c.val) :=
    BitTest.getLsbD_bit (w := 32) c.isLt d.val
  have hsplit (csr : Word) : pending csr = (decide (csr &&& 0x20000000 ≠ 0 ∧ csr &&& 8 ≠ 0) ||
      decide (csr &&& 4 ≠ 0) || decide (csr &&& 2 ≠ 0) || decide (csr &&& 1 ≠ 0)) := by
    rw [Bool.eq_iff_iff]
    simp only [pending, Bool.or_eq_true, decide_eq_true_eq, and_seven,
      and_bit csr (k := 2) (by decide) 4 rfl, and_bit csr (k := 1) (by decide) 2 rfl,
      and_bit csr (k := 0) (by decide) 1 rfl]
    tauto
  unfold SocDma.recalculatedDint
  simp only [getLsbD_ite_or, BitVec.getLsbD_and, BitVec.getLsbD_not, hbit, hsplit, d.isLt,
    decide_true, Bool.true_and]
  by_cases hd : d = c
  · subst hd
    simp
  · have hne : d.val ≠ c.val := fun heq => hd (Fin.ext heq)
    simp [hd, hne]

/-- A recalculation makes the status of its channel current, and the line. -/
structure Recalculates (c : Fin 32) (soc soc' : Soc ω) : Prop where
  line : soc'.ints irqDma = decide (soc'.dma.DINT ≠ 0)
  self : ExactAt soc' c
  others : ∀ d, d ≠ c → ExactAt soc d → ExactAt soc' d

theorem irqRecalc_spec (h : soc.irqRecalc W c = some soc') : Recalculates c soc soc' := by
  have hkept := statusKept_absorb h
  constructor
  · simp [hkept.line, hkept.dint]
  · rw [ExactAt, hkept.dint, hkept.interrupts c]
    exact (recalculatedDint_bit soc.dma c c).trans (if_pos rfl)
  · intro d hd hexact
    rw [ExactAt, hkept.dint, hkept.interrupts d]
    exact ((recalculatedDint_bit soc.dma c d).trans (if_neg hd)).trans hexact

theorem StatusOf.exactAt {p : Bool} (h : StatusOf c p soc soc') {d : Fin 32} (hd : d ≠ c)
    (hexact : ExactAt soc d) : ExactAt soc' d := by
  rwa [ExactAt, h.dint, h.others d hd]

theorem Recalculates.keepsExact {p : Bool} (hstatus : StatusOf c p soc mid)
    (h : Recalculates c mid soc') : KeepsExact soc soc' where
  line := fun _ => h.line
  bits := by
    intro d hexact
    by_cases hd : d = c
    · rw [hd]
      exact h.self
    · exact h.others d hd (hstatus.exactAt hd hexact)

theorem writeCsr_keeps {val : Word} (h : soc.writeCsr W rev c val = some soc') :
    KeepsExact soc soc' := by
  obtain ⟨started, hstart, h⟩ := Option.bind_eq_some_iff.mp h
  have hset := statusOf_modifyChannel soc c
    (SocDma.setCsr (DmaChannel.newCsr (soc.dma.channels c).CSR val))
  have hstatus := hset.trans (maybeStart_status hstart)
  split at h
  · exact (irqRecalc_spec h).keepsExact (hstatus.trans (statusOf_modifyChannel started c _))
  · exact (irqRecalc_spec h).keepsExact hstatus

theorem regWrite_keeps {w : RegWrite ω} (hharmless : w.Harmless W rev)
    (h : w.soc.regWrite W rev w.channel w.reg w.val = some soc') : KeepsExact w.soc soc' := by
  by_cases hreg : w.reg = .CSR
  · unfold Soc.regWrite at h
    rw [if_pos hreg] at h
    exact writeCsr_keeps h
  · exact (statusKept_harmless hreg hharmless h).keepsExact

def AllHarmless (W : World ω) (rev : Fin 3) (writes : List (RegWrite ω)) : Prop :=
  ∀ w ∈ writes, w.Harmless W rev

theorem dmaWrite_keeps {pa : Word} {size : ℕ} {val : Word} {a : BusAccess ω}
    (h : soc.dmaWrite W rev pa size val = some a) (hharmless : AllHarmless W rev a.writes) :
    KeepsExact soc a.soc := by
  have hsame (dma : SocDma) (hdint : dma.DINT = soc.dma.DINT)
      (hchannels : dma.channels = soc.dma.channels) : KeepsExact soc { soc with dma := dma } := by
    refine StatusKept.keepsExact ⟨hdint, rfl, ?_⟩
    intro c
    rw [← hchannels]
  unfold Soc.dmaWrite at h
  split at h
  · cases h
    exact hsame soc.dma rfl rfl
  split at h
  · cases h
    exact hsame soc.dma rfl rfl
  · grind
  · cases h
    exact hsame soc.dma rfl rfl
  · grind
  · obtain ⟨soc', hwrite, rfl⟩ := Option.map_eq_some_iff.mp h
    exact regWrite_keeps (hharmless _ (List.mem_singleton_self _)) hwrite

theorem memWrite_keeps {pa : Word} {size : ℕ} {val : Word} {a : BusAccess ω}
    (h : soc.memWrite W rev pa size val = some a) (hharmless : AllHarmless W rev a.writes) :
    KeepsExact soc a.soc := by
  unfold Soc.memWrite at h
  split at h
  · exact dmaWrite_keeps h hharmless
  · exact (statusKept_deviceAccess h).1.keepsExact

theorem memAccess_keeps {pa : Word} {size : ℕ} {write : Bool} {buf : Word} {a : BusAccess ω}
    (h : soc.memAccess W rev pa size write buf = some a) (hharmless : AllHarmless W rev a.writes) :
    KeepsExact soc a.soc := by
  unfold Soc.memAccess at h
  split at h
  · exact memWrite_keeps h hharmless
  · exact (statusKept_memRead h).1.keepsExact

end Cloudpilot.Uarm.Peripherals
