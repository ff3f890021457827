import Cloudpilot.Uarm.Peripherals.DmaStatus

/-! # What makes a device busy

A register access makes a device busy only with the hook among its effects, and the
periodic task makes none busier.
-/
namespace Cloudpilot.Uarm.Peripherals
open Cpu Scheduling Library Option

theorem running_iff (csr : Word) : DmaChannel.runningByCsrVal csr = true ↔
    csr.getLsbD 31 = true ∧ csr.getLsbD 3 = false := by
  have hmask : (0x80000008 : Word) = 0x80000000 ||| 8 := rfl
  rw [DmaChannel.runningByCsrVal, decide_eq_true_eq]
  constructor
  · intro h
    have hbit (i : ℕ) := congrArg (fun x : Word => x.getLsbD i) h
    have h31 := hbit 31
    have h3 := hbit 3
    simpa using And.intro h31 h3
  · rintro ⟨h31, h3⟩
    apply BitVec.eq_of_getLsbD_eq
    intro i hi
    rw [BitVec.getLsbD_and]
    by_cases hi31 : i = 31
    · subst hi31
      rw [h31]
      rfl
    by_cases hi3 : i = 3
    · grind
    · have hfalse : (0x80000008 : Word).getLsbD i = false := by
        rw [hmask, BitVec.getLsbD_or]
        have hhigh : (0x80000000 : Word).getLsbD i = decide (i = 31) :=
          BitTest.getLsbD_bit (w := 32) (k := 31) (by decide) i
        have hlow : (8 : Word).getLsbD i = decide (i = 3) :=
          BitTest.getLsbD_bit (w := 32) (k := 3) (by decide) i
        rw [hhigh, hlow]
        simp [hi31, hi3]
      have hfalse' : (0x80000000 : Word).getLsbD i = decide (i = 31) :=
        BitTest.getLsbD_bit (w := 32) (k := 31) (by decide) i
      rw [hfalse, hfalse']
      simp [hi31]

theorem running_congr {a b : Word} (h31 : a.getLsbD 31 = b.getLsbD 31)
    (h3 : a.getLsbD 3 = b.getLsbD 3) :
    DmaChannel.runningByCsrVal a = DmaChannel.runningByCsrVal b := by
  rw [Bool.eq_iff_iff, running_iff, running_iff, h31, h3]

theorem stop_not_running (ch : DmaChannel) : ch.stop.running = false := by
  rw [← Bool.not_eq_true, DmaChannel.running, running_iff]
  simp [DmaChannel.stop]

theorem running_or_low (csr : Word) {m : Word} (h31 : m.getLsbD 31 = false)
    (h3 : m.getLsbD 3 = false) :
    DmaChannel.runningByCsrVal (csr ||| m) = DmaChannel.runningByCsrVal csr := by
  apply running_congr
  · rw [BitVec.getLsbD_or, h31, Bool.or_false]
  · rw [BitVec.getLsbD_or, h3, Bool.or_false]

theorem running_takeBack (csr : Word) :
    DmaChannel.runningByCsrVal (csr &&& ~~~0x100) = DmaChannel.runningByCsrVal csr := by
  apply running_congr <;> simp

theorem startChannel_running (ch : DmaChannel) : (Soc.startChannel ch).running = ch.running :=
  running_takeBack ch.CSR

theorem loadDescriptor_running (ch : DmaChannel) (d : Option Descriptor)
    (h : (Soc.loadDescriptor ch d).running = true) : ch.running = true := by
  cases d with
  | none =>
    rw [Soc.loadDescriptor, stop_not_running] at h
    cases h
  | some d =>
    rw [DmaChannel.running, Soc.loadDescriptor] at h
    split at h
    · rwa [running_or_low _ (by decide) (by decide)] at h
    · exact h

namespace SocUart

variable {uart uart' : SocUart}

theorem taskRequired_iff (uart : SocUart) :
    uart.taskRequired = true ↔ uart.LSR.getLsbD 6 = false := by
  rw [taskRequired, decide_eq_true_eq, ← Bool.not_eq_true,
    ← and_bit uart.LSR (k := 6) (by decide) lsrTemt rfl, not_not]

@[simp] theorem setLsr_LSR (uart : SocUart) (bits : BitVec 8) :
    (uart.setLsr bits).LSR = uart.LSR ||| bits := rfl

@[simp] theorem clearLsr_LSR (uart : SocUart) (bits : BitVec 8) :
    (uart.clearLsr bits).LSR = uart.LSR &&& ~~~bits := rfl

/-- The transmitter bit of the line status register. -/
def temt (uart : SocUart) : Bool := uart.LSR.getLsbD 6

theorem recalcCharBits_temt (uart : SocUart) (c : Char) :
    (uart.recalcCharBits c).temt = uart.temt := by
  unfold recalcCharBits temt
  split_ifs <;> simp [lsrBi, lsrFe, lsrPe]

@[simp] theorem setIir_temt (uart : SocUart) (bits : BitVec 8) :
    (uart.setIir bits).temt = uart.temt := rfl

theorem noteRxError_temt (uart : SocUart) : uart.noteRxError.temt = uart.temt := by
  unfold noteRxError
  split_ifs
  · simp [temt, setIir, lsrFifoe]
  · rfl

theorem noteRxChar_temt (uart : SocUart) : uart.noteRxChar.temt = uart.temt := by
  unfold noteRxChar
  split_ifs
  · exact recalcCharBits_temt uart _
  · rfl

theorem clearCauses_temt (uart : SocUart) : uart.clearCauses.temt = uart.temt := by
  simp [temt, clearCauses, lsrFifoe, lsrBi, lsrFe, lsrPe]

theorem findCause_temt (uart : SocUart) : uart.findCause.1.temt = uart.temt := by
  have hnoted := (noteRxChar_temt uart.noteRxError).trans (noteRxError_temt uart)
  have hsend : ∀ (u : SocUart) (errorSet : Bool), (u.recalcSend errorSet).1.temt = u.temt :=
    fun u errorSet => by
      unfold recalcSend
      split_ifs <;> rfl
  unfold findCause
  rw [hsend]
  split_ifs
  · unfold recalcFifo
    dsimp only
    split_ifs <;> simp only [setIir_temt, hnoted]
  · unfold recalcPolled
    dsimp only
    split_ifs <;> simp only [setIir_temt, recalcCharBits_temt]

theorem recalc_temt (uart : SocUart) : uart.recalc.1.temt = uart.temt := by
  have hcause : uart.clearCauses.findCause.1.temt = uart.temt :=
    (findCause_temt _).trans (clearCauses_temt uart)
  unfold recalc
  dsimp only
  split_ifs <;> simp only [setIir_temt, hcause]

theorem taskRequired_temt (uart : SocUart) : uart.taskRequired = true ↔ uart.temt = false :=
  taskRequired_iff uart

theorem sendChar_wakes (uart : SocUart) (v : Char) :
    uart.temt = false ∨ (uart.sendChar v).2 = true := by
  by_cases hidle : uart.LSR &&& lsrTemt ≠ 0
  · right
    rw [sendChar, if_pos hidle]
  · left
    rwa [and_bit uart.LSR (k := 6) (by decide) lsrTemt rfl, Bool.not_eq_true] at hidle

theorem writeIer_wakes {val : BitVec 8} (h : uart.writeIer val = some uart')
    (hbusy : uart'.temt = false) : uart.temt = false := by
  unfold writeIer at h
  dsimp only at h
  split_ifs at h
  · cases h
    simp [temt, idleLsr, lsrTemt, lsrTdrq] at hbusy
  · cases h
    exact hbusy

theorem writeFcr_wakes (uart : SocUart) (val : BitVec 8) (h : (uart.writeFcr val).temt = false) :
    uart.temt = false := by
  have hidle : idleLsr.getLsbD 6 = true := by decide
  unfold writeFcr temt at h
  split_ifs at h
  all_goals first
    | exact h
    | exact Bool.noConfusion (hidle.symm.trans h)

theorem writeLcr_wakes (uart : SocUart) (val : BitVec 8) (h : (uart.writeLcr val).1.temt = false) :
    uart.temt = false ∨ (uart.writeLcr val).2 = true := by
  unfold writeLcr at h ⊢
  split_ifs at h ⊢
  · exact sendChar_wakes uart _
  · exact Or.inl h

theorem writeRegister_wakes {pa : ℕ} {val : BitVec 8} {hook recalcValues : Bool}
    (h : uart.writeRegister pa val = some (uart', hook, recalcValues))
    (hbusy : uart'.temt = false) : uart.temt = false ∨ hook = true := by
  unfold writeRegister at h
  split at h
  · split at h
    · cases h
      exact Or.inl hbusy
    · cases h
      exact sendChar_wakes uart _
  · split at h
    · cases h
      exact Or.inl hbusy
    · obtain ⟨next, hnext, heq⟩ := map_eq_some_iff.mp h
      cases heq
      exact Or.inl (writeIer_wakes hnext hbusy)
  · cases h
    exact Or.inl (writeFcr_wakes uart val hbusy)
  · cases h
    exact writeLcr_wakes uart val hbusy
  all_goals
    cases h
    exact Or.inl hbusy

theorem readRbr_temt (uart : SocUart) : uart.readRbr.1.temt = uart.temt := by
  unfold readRbr temt
  dsimp only
  split_ifs <;> simp [lsrDr]

theorem readRegister_temt (uart : SocUart) (pa : ℕ) :
    (uart.readRegister pa).1.temt = uart.temt := by
  unfold readRegister
  split
  · split
    · rfl
    · exact readRbr_temt uart
  all_goals rfl

theorem finish_temt (uart : SocUart) (irq : ℕ) (buf : Word) (hook recalcValues : Bool) :
    (uart.finish irq buf hook recalcValues).device.temt = uart.temt := by
  cases recalcValues with
  | true => exact recalc_temt uart
  | false => rfl

theorem finish_hook (uart : SocUart) (irq : ℕ) (buf : Word) (recalcValues : Bool) :
    Effect.reschedule ∈ (uart.finish irq buf true recalcValues).effects := by
  cases recalcValues <;> simp [finish]

theorem memAccessF_wakes {irq size : ℕ} {ofst buf : Word} {write : Bool} {done : Done SocUart}
    (h : uart.memAccessF irq ofst size write buf = some done)
    (hbusy : done.device.taskRequired = true) :
    uart.taskRequired = true ∨ .reschedule ∈ done.effects := by
  rw [taskRequired_temt] at hbusy ⊢
  unfold memAccessF at h
  split at h
  · grind
  split at h
  · obtain ⟨⟨next, hook, recalcValues⟩, hwrite, rfl⟩ := map_eq_some_iff.mp h
    rw [finish_temt] at hbusy
    rcases writeRegister_wakes hwrite hbusy with hbefore | hhook
    · grind
    · subst hhook
      exact Or.inr (finish_hook next irq buf recalcValues)
  · grind [finish_temt, readRegister_temt]

end SocUart

namespace SocSsp

variable (port : SspPort)

def busy (ssp : SocSsp) : Bool := ssp.sr.getLsbD 4

theorem taskRequired_busy (ssp : SocSsp) : ssp.taskRequired = ssp.busy := by
  rw [Bool.eq_iff_iff, taskRequired, decide_eq_true_eq]
  exact and_bit ssp.sr (by decide) 0x10 rfl

theorem recalcRxFifoSta_busy (ssp : SocSsp) : (ssp.recalcRxFifoSta port).1.busy = ssp.busy := by
  unfold recalcRxFifoSta busy
  dsimp only
  split_ifs <;> simp

theorem fifoR_busy (ssp : SocSsp) : (ssp.fifoR port).1.busy = ssp.busy := by
  unfold fifoR
  cases ssp.rxFifo with
  | nil => rfl
  | cons v rest => exact recalcRxFifoSta_busy port _

theorem fifoW_wakes (ssp : SocSsp) (val : BitVec 16) (h : (ssp.fifoW port val).1.busy = true) :
    ssp.busy = true ∨ .reschedule ∈ (ssp.fifoW port val).2 := by
  unfold fifoW at h ⊢
  split_ifs at h ⊢ with hfull
  · exact Or.inl h
  · simp

theorem memAccessF_wakes (ssp : SocSsp) (ofst : Word) (size : ℕ) (write : Bool) (buf : Word)
    (h : (ssp.memAccessF port ofst size write buf).device.taskRequired = true) :
    ssp.taskRequired = true ∨
      .reschedule ∈ (ssp.memAccessF port ofst size write buf).effects := by
  rw [taskRequired_busy] at h ⊢
  unfold memAccessF at h ⊢
  by_cases hsize : size ≠ 4
  · grind
  rw [if_neg hsize] at h ⊢
  split at h
  · cases write <;> exact Or.inl h
  · cases write <;> exact Or.inl h
  · cases write with
    | true => grind [busy]
    | false => exact Or.inl h
  · cases write with
    | true => exact fifoW_wakes port ssp _ h
    | false => exact Or.inl ((fifoR_busy port ssp).symm.trans h)
  · exact Or.inl h

end SocSsp

namespace Nand

variable {specs : NandSpecs} {nand : Nand}

theorem startRead_busyCt {next : Nand} (h : nand.startRead specs = some next) :
    next.busyCt = nand.busyCt := by
  unfold startRead at h
  dsimp only at h
  split_ifs at h
  cases h
  exact leaveB_busyCt

theorem markRead_busyCt : (nand.markRead specs).busyCt = nand.busyCt := by
  unfold markRead
  split_ifs <;> rfl

theorem turnPage_busyCt : (nand.turnPage specs).busyCt = nand.busyCt := by
  unfold turnPage
  split_ifs <;> rfl

theorem dataRead_busyCt {r : Nand × Byte} (h : nand.dataRead specs = some r) :
    r.1.busyCt = nand.busyCt := by
  obtain ⟨next, hnext, h⟩ := bind_eq_some_iff.mp h
  have hbusy : next.busyCt = nand.busyCt := by
    unfold beginRead at hnext
    split_ifs at hnext
    · exact (startRead_busyCt hnext).trans markRead_busyCt
    · cases hnext
      exact markRead_busyCt
  split_ifs at h
  cases h
  exact turnPage_busyCt.trans hbusy

theorem read_busyCt {cle ale : Bool} {r : Nand × Byte} (h : nand.read specs cle ale = some r) :
    r.1.busyCt = nand.busyCt := by
  unfold read at h
  split at h
  · cases h
  split at h
  · split at h
    · cases h
    · obtain ⟨id, -, h⟩ := bind_eq_some_iff.mp h
      cases h
      rfl
  · cases h
    rfl
  · exact dataRead_busyCt h
  · cases h

theorem memAccessF_wakes {pa buf : Word} {size : ℕ} {write : Bool} {done : Done Nand}
    (h : nand.memAccessF specs pa size write buf = some done)
    (hbusy : done.device.taskRequired = true) :
    nand.taskRequired = true ∨ .reschedule ∈ done.effects := by
  unfold memAccessF at h
  dsimp only at h
  split_ifs at h
  · grind
  · cases h
    exact Or.inl hbusy
  · obtain ⟨r, hr, rfl⟩ := map_eq_some_iff.mp h
    rcases nand_write_calls _ _ _ r hr with ⟨-, hsame⟩ | hcalls
    · left
      rwa [taskRequired, hsame] at hbusy
    · grind
  · obtain ⟨r, hr, rfl⟩ := map_eq_some_iff.mp h
    left
    rwa [taskRequired, read_busyCt hr] at hbusy

end Nand

end Cloudpilot.Uarm.Peripherals
