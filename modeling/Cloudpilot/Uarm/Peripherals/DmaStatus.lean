import Cloudpilot.Library.Runs
import Cloudpilot.Library.Words
import Cloudpilot.Uarm.Peripherals.Soc

/-! # The interrupt status of the DMA controller

`DintExact` is what the status register promises. Outside the controller nothing
changes it: other devices may at most set or take back a transfer request, which
is no interrupt.
-/
namespace Cloudpilot.Uarm.Peripherals
open Cpu Scheduling Library

/-- A channel has an interrupt: end, start or bus error, or it is stopped with the stop
interrupt enabled. -/
def pending (csr : Word) : Bool :=
  csr &&& 7 ≠ 0 ∨ (csr &&& 8 ≠ 0 ∧ csr &&& 0x20000000 ≠ 0)

variable {ω : Type} {W : World ω} {rev : Fin 3} {soc soc' : Soc ω}

def ExactAt (soc : Soc ω) (c : Fin 32) : Prop :=
  soc.dma.DINT.getLsbD c.val = pending (soc.dma.channels c).CSR

structure DintExact (soc : Soc ω) : Prop where
  bits : ∀ c, ExactAt soc c
  line : soc.ints irqDma = decide (soc.dma.DINT ≠ 0)

section Bits

variable {w : ℕ}

theorem and_bit (x : BitVec w) {k : ℕ} (hk : k < w) (m : BitVec w) (hm : m = 1#w <<< k) :
    x &&& m ≠ 0 ↔ x.getLsbD k = true := by
  rw [hm]
  exact BitTest.and_bit_ne_zero hk

theorem and_seven (csr : Word) : csr &&& 7 ≠ 0 ↔
    csr.getLsbD 0 = true ∨ csr.getLsbD 1 = true ∨ csr.getLsbD 2 = true := by
  rw [← and_bit csr (by decide) 1 rfl, ← and_bit csr (by decide) 2 rfl,
    ← and_bit csr (by decide) 4 rfl, show (7 : Word) = (1 ||| 2) ||| 4 from rfl]
  simp only [BitVec.and_or_distrib_left]
  have hor (x y : Word) : x ||| y ≠ 0 ↔ x ≠ 0 ∨ y ≠ 0 := by grind
  rw [hor, hor, or_assoc]

theorem pending_iff (csr : Word) : pending csr =
    (csr.getLsbD 0 || csr.getLsbD 1 || csr.getLsbD 2 || (csr.getLsbD 3 && csr.getLsbD 29)) := by
  rw [Bool.eq_iff_iff]
  simp only [pending, decide_eq_true_eq, and_seven, and_bit csr (k := 3) (by decide) 8 rfl,
    and_bit csr (k := 29) (by decide) 0x20000000 rfl, Bool.or_eq_true, Bool.and_eq_true]
  tauto

end Bits

theorem pending_congr {a b : Word} (h0 : a.getLsbD 0 = b.getLsbD 0)
    (h1 : a.getLsbD 1 = b.getLsbD 1) (h2 : a.getLsbD 2 = b.getLsbD 2)
    (h3 : a.getLsbD 3 = b.getLsbD 3) (h29 : a.getLsbD 29 = b.getLsbD 29) :
    pending a = pending b := by
  rw [pending_iff, pending_iff, h0, h1, h2, h3, h29]

@[simp] theorem pending_request (csr : Word) : pending (csr ||| 0x100) = pending csr := by
  apply pending_congr <;> simp

@[simp] theorem pending_takeBack (csr : Word) : pending (csr &&& ~~~0x100) = pending csr := by
  apply pending_congr <;> simp

/-- Nothing that concerns interrupts of the controller changed. -/
structure StatusKept (soc soc' : Soc ω) : Prop where
  dint : soc'.dma.DINT = soc.dma.DINT
  line : soc'.ints irqDma = soc.ints irqDma
  interrupts : ∀ c, pending (soc'.dma.channels c).CSR = pending (soc.dma.channels c).CSR

theorem statusKept_refl (soc : Soc ω) : StatusKept soc soc := ⟨rfl, rfl, fun _ => rfl⟩

theorem StatusKept.trans {soc'' : Soc ω} (h : StatusKept soc soc') (h' : StatusKept soc' soc'') :
    StatusKept soc soc'' where
  dint := h'.dint.trans h.dint
  line := h'.line.trans h.line
  interrupts := fun c => (h'.interrupts c).trans (h.interrupts c)

theorem StatusKept.exactAt (h : StatusKept soc soc') {c : Fin 32} (hc : ExactAt soc c) :
    ExactAt soc' c := by
  rwa [ExactAt, h.dint, h.interrupts c]

theorem statusKept_modifyChannel (c : Fin 32) {f : DmaChannel → DmaChannel}
    (hf : pending (f (soc.dma.channels c)).CSR = pending (soc.dma.channels c).CSR) :
    StatusKept soc (soc.modifyChannel c f) := by
  refine ⟨rfl, rfl, ?_⟩
  intro d
  by_cases hd : d = c
  · subst hd
    simpa [Soc.modifyChannel, SocDma.modify] using hf
  · simp [Soc.modifyChannel, SocDma.modify, Function.update_of_ne hd]

theorem statusKept_request (soc : Soc ω) (req : Fin 75 × Bool) :
    StatusKept soc (soc.request req) := by
  by_cases hmapped : soc.dma.CMR req.1 &&& 0x80 ≠ 0
  · have heq : soc.request req = soc.modifyChannel _ _ :=
      congrArg (fun dma => { soc with dma := dma }) (if_pos hmapped)
    rw [heq]
    apply statusKept_modifyChannel
    cases req.2 with
    | true => exact pending_request _
    | false => exact pending_takeBack _
  · have heq : soc.request req = soc :=
      congrArg (fun dma => { soc with dma := dma }) (if_neg hmapped)
    rw [heq]
    exact statusKept_refl soc

theorem statusKept_call {c : Call} (h : soc.call c = some soc') : StatusKept soc soc' := by
  obtain ⟨scheduler, -, rfl⟩ := Option.map_eq_some_iff.mp h
  exact ⟨rfl, rfl, fun _ => rfl⟩

theorem statusKept_requests (reqs : List (Fin 75 × Bool)) (soc : Soc ω) :
    StatusKept soc (reqs.foldl Soc.request soc) := by
  induction reqs generalizing soc with
  | nil => exact statusKept_refl soc
  | cons req reqs ih => exact (statusKept_request soc req).trans (ih (soc.request req))

theorem statusKept_absorb {r : Reaction ω} (h : soc.absorb r = some soc') :
    StatusKept soc soc' := by
  have hworld : StatusKept soc { soc with world := r.world } := ⟨rfl, rfl, fun _ => rfl⟩
  apply (hworld.trans (statusKept_requests r.requests _)).trans
  apply PartialRun.foldlM_rel statusKept_refl (fun h h' => h.trans h') _ h
  intro c _ s s' hcall
  exact statusKept_call hcall

/-- A call that leaves the interrupt line of the controller alone. -/
def Effect.OffDma : Effect → Prop
  | .irq intNum _ => intNum ≠ irqDma
  | _ => True

theorem statusKept_effect {e : Effect} (he : e.OffDma) (h : soc.effect W e = some soc') :
    StatusKept soc soc' := by
  cases e with
  | irq intNum raise =>
    have hints : StatusKept soc { soc with ints := Function.update soc.ints intNum raise } :=
      ⟨rfl, Function.update_of_ne (Ne.symm he) .., fun _ => rfl⟩
    exact hints.trans (statusKept_absorb h)
  | dmaReq chNum requested =>
    obtain rfl : soc.request (chNum, requested) = soc' := by simpa [Soc.effect] using h
    exact statusKept_request soc _
  | reschedule => exact statusKept_call h
  | ready isReady => exact statusKept_absorb h

theorem statusKept_effects {calls : List Effect} (hcalls : ∀ e ∈ calls, e.OffDma)
    (h : soc.effects W calls = some soc') : StatusKept soc soc' := by
  apply PartialRun.foldlM_rel statusKept_refl (fun h h' => h.trans h') _ h
  intro e he s s' hstep
  exact statusKept_effect (hcalls e he) hstep

theorem uartIrq_ne (i : Fin 4) : uartIrq i ≠ irqDma := by
  fin_cases i <;> decide

theorem sspPort_ne (rev : Fin 3) (i : Fin 3) : (sspPort rev i).irqNo ≠ irqDma := by
  fin_cases rev <;> fin_cases i <;> decide

theorem uart_finish_offDma (uart : SocUart) {irq : ℕ} (hirq : irq ≠ irqDma) (buf : Word)
    (hook recalcValues : Bool) : ∀ e ∈ (uart.finish irq buf hook recalcValues).effects,
      e.OffDma := by
  cases hook <;> cases recalcValues <;> simp [SocUart.finish, Effect.OffDma, hirq]

theorem uart_access_offDma {uart : SocUart} {irq size : ℕ} {ofst buf : Word} {write : Bool}
    {done : Done SocUart} (hirq : irq ≠ irqDma)
    (h : uart.memAccessF irq ofst size write buf = some done) : ∀ e ∈ done.effects, e.OffDma := by
  unfold SocUart.memAccessF at h
  split_ifs at h with hsize hwrite
  · cases h
    simp
  · obtain ⟨⟨uart', hook, recalcValues⟩, -, rfl⟩ := Option.map_eq_some_iff.mp h
    exact uart_finish_offDma uart' hirq buf hook recalcValues
  all_goals
    cases h
    exact uart_finish_offDma _ hirq _ false _

theorem ssp_rx_offDma {port : SspPort} (hport : port.irqNo ≠ irqDma) (ssp : SocSsp) :
    ∀ e ∈ (ssp.recalcRxFifoSta port).2, e.OffDma := by
  simp [SocSsp.recalcRxFifoSta, SocSsp.irqsUpdate, Effect.OffDma, hport]

theorem ssp_tx_offDma {port : SspPort} (hport : port.irqNo ≠ irqDma) (ssp : SocSsp) :
    ∀ e ∈ (ssp.recalcTxFifoSta port).2, e.OffDma := by
  simp [SocSsp.recalcTxFifoSta, SocSsp.irqsUpdate, Effect.OffDma, hport]

theorem ssp_fifoR_offDma {port : SspPort} (hport : port.irqNo ≠ irqDma) (ssp : SocSsp) :
    ∀ e ∈ (ssp.fifoR port).2.2, e.OffDma := by
  unfold SocSsp.fifoR
  cases ssp.rxFifo with
  | nil => simp
  | cons v rest => exact ssp_rx_offDma hport _

theorem ssp_fifoW_offDma {port : SspPort} (hport : port.irqNo ≠ irqDma) (ssp : SocSsp)
    (val : BitVec 16) : ∀ e ∈ (ssp.fifoW port val).2, e.OffDma := by
  unfold SocSsp.fifoW
  split_ifs with hfull
  · simp
  · intro e he
    rcases List.mem_append.mp he with he | he
    · exact ssp_tx_offDma hport _ e he
    · rw [List.mem_singleton.mp he]
      trivial

theorem ssp_access_offDma {port : SspPort} (hport : port.irqNo ≠ irqDma) (ssp : SocSsp)
    (ofst : Word) (size : ℕ) (write : Bool) (buf : Word) :
    ∀ e ∈ (ssp.memAccessF port ofst size write buf).effects, e.OffDma := by
  unfold SocSsp.memAccessF
  by_cases hsize : size ≠ 4
  · grind
  · rw [if_neg hsize]
    cases write <;> split
    all_goals first
      | exact ssp_fifoW_offDma hport ssp _
      | exact ssp_fifoR_offDma hport ssp
      | simp

theorem ssp_receive_offDma {port : SspPort} (hport : port.irqNo ≠ irqDma) (ssp : SocSsp)
    (ret : BitVec 16) : ∀ e ∈ (ssp.receive port ret).2, e.OffDma := by
  unfold SocSsp.receive
  split_ifs with hfull
  · simp
  · exact ssp_rx_offDma hport _

theorem ssp_periodic_offDma {port : SspPort} (hport : port.irqNo ≠ irqDma) (ssp : SocSsp)
    (clients : ℕ → BitVec 16 → BitVec 16) :
    ∀ e ∈ (ssp.periodic port clients).2, e.OffDma := by
  unfold SocSsp.periodic
  cases ssp.txFifo with
  | nil => simp
  | cons val rest =>
    intro e he
    rcases List.mem_append.mp he with he | he
    · exact ssp_tx_offDma hport _ e he
    · exact ssp_receive_offDma hport _ _ e he

/-- What an accepted cycle may call: nothing while the flash stays as busy as it is, or the ready
pin and the hook where it becomes busy. -/
def CycleCalls (nand : Nand) (r : NandResult) : Prop :=
  ∀ x, r = some x →
    (x.2 = [] ∧ x.1.busyCt = nand.busyCt) ∨ x.2 = [.ready false, .reschedule]

section CycleCalls

variable {specs : NandSpecs} {nand next : Nand} {r r' : NandResult}

theorem cycleCalls_none : CycleCalls nand none := by
  rintro x hx
  cases hx

theorem cycleCalls_accept (h : next.busyCt = nand.busyCt) : CycleCalls nand next.accept := by
  rintro x hx
  cases hx
  exact Or.inl ⟨rfl, h⟩

theorem cycleCalls_busy (count : ℕ) {f : Nand × List Effect → Nand × List Effect}
    (hf : ∀ r, (f r).2 = r.2) : CycleCalls nand ((next.busy count).map f) := by
  rintro x hx
  obtain ⟨r, hr, rfl⟩ := Option.map_eq_some_iff.mp hx
  unfold Nand.busy at hr
  split_ifs at hr
  cases hr
  exact Or.inr (hf _)

theorem cycleCalls_commit (count : ℕ) : CycleCalls nand (next.commit count) :=
  cycleCalls_busy count fun _ => rfl

theorem cycleCalls_bind {n : Option Nand} {f : Nand → NandResult}
    (h : ∀ next, n = some next → CycleCalls nand (f next)) : CycleCalls nand (n.bind f) := by
  rintro x hx
  obtain ⟨next, hn, hf⟩ := Option.bind_eq_some_iff.mp hx
  exact h next hn x hf

theorem cycleCalls_ite {p : Prop} [Decidable p] (h : CycleCalls nand r) (h' : CycleCalls nand r') :
    CycleCalls nand (if p then r else r') := by
  split_ifs
  · exact h
  · exact h'

theorem nand_command_calls (val : Byte) : CycleCalls nand (nand.command specs val) := by
  repeat' apply cycleCalls_ite
  all_goals first
    | exact cycleCalls_none
    | exact cycleCalls_accept rfl
    | exact cycleCalls_commit _
    | exact cycleCalls_bind fun _ _ => cycleCalls_commit _

theorem nand_address_calls (val : Byte) : CycleCalls nand (nand.address specs val) := by
  unfold Nand.address
  cases nand.state <;> dsimp only <;> repeat' apply cycleCalls_ite
  all_goals first
    | exact cycleCalls_none
    | exact cycleCalls_accept rfl
    | exact cycleCalls_busy _ fun _ => rfl

theorem acceptProgramData_busyCt (val : Byte) :
    (nand.acceptProgramData specs val).busyCt = nand.busyCt := by
  unfold Nand.acceptProgramData
  split_ifs <;> rfl

theorem leaveB_busyCt : nand.leaveB.busyCt = nand.busyCt := by
  unfold Nand.leaveB
  split_ifs <;> rfl

theorem startProgram_busyCt (h : nand.startProgram specs = some next) :
    next.busyCt = nand.busyCt := by
  unfold Nand.startProgram at h
  dsimp only at h
  split_ifs at h
  cases h
  exact leaveB_busyCt

theorem nand_dataWrite_calls (val : Byte) : CycleCalls nand (nand.dataWrite specs val) := by
  unfold Nand.dataWrite
  cases nand.state with
  | programAddrRxing =>
    apply cycleCalls_bind
    intro next hnext
    exact cycleCalls_accept ((acceptProgramData_busyCt val).trans (startProgram_busyCt hnext))
  | programDataRxing => exact cycleCalls_accept (acceptProgramData_busyCt val)
  | reset | readId | eraseAddrRxing | reading | statusReading => exact cycleCalls_none

theorem nand_write_calls (cle ale : Bool) (val : Byte) :
    CycleCalls nand (nand.write specs cle ale val) := by
  apply cycleCalls_ite (nand_command_calls val)
  apply cycleCalls_ite (nand_address_calls val)
  exact cycleCalls_ite (nand_dataWrite_calls val) cycleCalls_none

end CycleCalls

theorem nand_access_offDma {specs : NandSpecs} {nand : Nand} {pa buf : Word} {size : ℕ}
    {write : Bool} {done : Done Nand} (h : nand.memAccessF specs pa size write buf = some done) :
    ∀ e ∈ done.effects, e.OffDma := by
  unfold Nand.memAccessF at h
  dsimp only at h
  split_ifs at h
  · cases h
    simp
  · cases h
    simp
  · obtain ⟨r, hr, rfl⟩ := Option.map_eq_some_iff.mp h
    rcases nand_write_calls _ _ _ r hr with ⟨hcalls, -⟩ | hcalls
    · simp [hcalls]
    · simp [hcalls, Effect.OffDma]
  · obtain ⟨r, -, rfl⟩ := Option.map_eq_some_iff.mp h
    simp

theorem nand_periodic_offDma (nand : Nand) : ∀ e ∈ nand.periodic.2, e.OffDma := by
  unfold Nand.periodic
  split_ifs <;> simp [Effect.OffDma]

theorem statusKept_deviceAccess {pa : Word} {size : ℕ} {write : Bool} {buf : Word}
    {a : BusAccess ω} (h : soc.deviceAccess W rev pa size write buf = some a) :
    StatusKept soc a.soc ∧ a.writes = [] := by
  unfold Soc.deviceAccess at h
  split at h
  · obtain ⟨done, hdone, h⟩ := Option.bind_eq_some_iff.mp h
    obtain ⟨soc', heffects, h⟩ := Option.bind_eq_some_iff.mp h
    cases h
    have hkept := statusKept_effects (uart_access_offDma (uartIrq_ne _) hdone) heffects
    refine ⟨StatusKept.trans ?_ hkept, rfl⟩
    exact ⟨rfl, rfl, fun _ => rfl⟩
  · obtain ⟨soc', heffects, h⟩ := Option.bind_eq_some_iff.mp h
    cases h
    have hkept := statusKept_effects (ssp_access_offDma (sspPort_ne _ _) _ _ _ _ _) heffects
    refine ⟨StatusKept.trans ?_ hkept, rfl⟩
    exact ⟨rfl, rfl, fun _ => rfl⟩
  · obtain ⟨done, hdone, h⟩ := Option.bind_eq_some_iff.mp h
    obtain ⟨soc', heffects, h⟩ := Option.bind_eq_some_iff.mp h
    cases h
    have hkept := statusKept_effects (nand_access_offDma hdone) heffects
    refine ⟨StatusKept.trans ?_ hkept, rfl⟩
    exact ⟨rfl, rfl, fun _ => rfl⟩
  all_goals
    obtain ⟨soc', habsorb, h⟩ := Option.bind_eq_some_iff.mp h
    cases h
    exact ⟨statusKept_absorb habsorb, rfl⟩

theorem statusKept_memRead {pa : Word} {size : ℕ} {buf : Word} {a : BusAccess ω}
    (h : soc.memRead W rev pa size buf = some a) : StatusKept soc a.soc ∧ a.writes = [] := by
  unfold Soc.memRead at h
  split_ifs at h
  · cases h
    exact ⟨statusKept_refl soc, rfl⟩
  · exact statusKept_deviceAccess h

theorem statusKept_uartProcess {i : Fin 4} (h : soc.uartProcess W i = some soc') :
    StatusKept soc soc' := by
  unfold Soc.uartProcess at h
  split at h
  · cases h
    exact statusKept_refl soc
  · refine StatusKept.trans ?_ (statusKept_effects ?_ h)
    · exact ⟨rfl, rfl, fun _ => rfl⟩
    · simp [Effect.OffDma, uartIrq_ne i]

theorem statusKept_sspPeriodic {i : Fin 3} (h : soc.sspPeriodic W rev i = some soc') :
    StatusKept soc soc' := by
  unfold Soc.sspPeriodic at h
  split at h
  · cases h
    exact statusKept_refl soc
  · refine StatusKept.trans ?_ (statusKept_effects (ssp_periodic_offDma (sspPort_ne rev i) _ _) h)
    exact ⟨rfl, rfl, fun _ => rfl⟩

theorem statusKept_nandPeriodic (h : soc.nandPeriodic W = some soc') : StatusKept soc soc' := by
  refine StatusKept.trans ?_ (statusKept_effects (nand_periodic_offDma soc.nand) h)
  exact ⟨rfl, rfl, fun _ => rfl⟩

end Cloudpilot.Uarm.Peripherals
