import Cloudpilot.Hardware.EmRegsVZ.Spi1
import Mathlib.Tactic

/-! # The interrupt status of SPI unit 1

Flags, enables, pending bit and status are refreshed by `Spi1UpdateInterrupts`, which every
operation on a FIFO calls. A write to `spiIntCS` does not.
-/

namespace Cloudpilot.Hardware.EmRegsVZ.Spi1

variable {σ : Type} (slave : Slave σ)

def flags (m : Spi1 σ) : BitVec 8 :=
  (if m.spi1RxFifo.size = 8 then 0x20 else 0) ||| (if 4 ≤ m.spi1RxFifo.size then 0x10 else 0) |||
    (if 0 < m.spi1RxFifo.size then 0x08 else 0) ||| (if m.spi1TxFifo.size = 8 then 0x04 else 0) |||
    (if 4 ≤ m.spi1TxFifo.size then 0x02 else 0) ||| (if m.spi1TxFifo.size = 0 then 0x01 else 0)

/-- Accesses of two bytes, reads of one byte, which do the same, and writes of one byte. -/
inductive Access where
  | word (event : Event)
  | byteWrite (register : Register) (upper : Bool) (value : BitVec 8)

def Access.enables : Access → Option (BitVec 8)
  | .word (.write .spiIntCS value) => some ((value >>> 8).setWidth 8)
  | .byteWrite .spiIntCS true value => some value
  | _ => none

/-- A written byte reaches the handlers as a word. `spiIntCSWrite` takes the upper byte of the
word for the enables and stores its lower byte at the address. -/
def access (m : Spi1 σ) : Access → Option (Spi1 σ)
  | .word event => (m.step slave event).map Prod.snd
  | .byteWrite .spiIntCS upper _ => some { m with
      spiIntCS :=
        if upper then (m.spiIntCS &&& 0x00ff) <<< 8 ||| m.spiIntCS &&& 0x00ff else m.spiIntCS }
  | .byteWrite register _ value => (m.step slave (.write register (value.setWidth 16))).map Prod.snd

/-- The access operates on a FIFO, and so calls `Spi1UpdateInterrupts`. -/
def operates (m : Spi1 σ) : Event → Bool
  | .read .spiRxD => true
  | .write .spiTxD _ => m.spiCont1 &&& 0x0200 ≠ 0
  | .write .spiCont1 value => value &&& 0x0200 = 0 ∨ value &&& 0x0600 = 0x0600 ∧
      value &&& ~~~m.spiCont1 &&& 0x0100 ≠ 0 ∧ (m.spi1TransferInProgress ∨ 0 < m.spi1TxFifo.size)
  | .cycle systemCycles => ¬m.powerOffCached ∧ m.spi1TransferInProgress ∧
      (m.spi1Countdown - (systemCycles - m.systemCycles).setWidth 32).toInt ≤ 0
  | _ => false

def operatesBy (m : Spi1 σ) : Access → Bool
  | .word event => m.operates event
  | .byteWrite register _ value => m.operates (.write register (value.setWidth 16))

end Spi1

/-- The unit with the interrupt registers, and with what the guest last wrote as enables. -/
structure StatusRun (σ : Type) where
  spi : Spi1 σ
  intMaskHi : Word
  intStatusHi : Word
  enables : BitVec 8
  /-- A FIFO was operated on. -/
  started : Bool

namespace StatusRun

variable {σ : Type} (slave : Slave σ)

def start (s : σ) (intPendingHi intMaskHi intStatusHi : Word) (systemCycles : BitVec 64)
    (powerOffCached : Bool) : StatusRun σ :=
  ⟨.reset s intPendingHi systemCycles powerOffCached, intMaskHi, intStatusHi, 0, false⟩

def step (u : StatusRun σ) (a : Spi1.Access) : Option (StatusRun σ) :=
  (u.spi.access slave a).map fun spi => { u with
    spi
    intStatusHi :=
      if u.spi.operatesBy a then spi.intPendingHi &&& ~~~u.intMaskHi else u.intStatusHi
    enables := a.enables.getD u.enables
    started := u.spi.operatesBy a || u.started }

structure Current (u : StatusRun σ) : Prop where
  flags : u.spi.spiIntCS &&& 0x003f = u.spi.flags.setWidth 16
  enables : (u.spi.spiIntCS >>> 8).setWidth 8 = u.enables
  pending : u.spi.intPendingHi &&& 0x0020 ≠ 0 ↔ u.spi.flags &&& u.enables ≠ 0
  status : u.intStatusHi = u.spi.intPendingHi &&& ~~~u.intMaskHi

/-- A write of enables leaves open or closed whether a flag is enabled, and one of a byte writes
the lower byte of the register. -/
def Regular (u : StatusRun σ) : Spi1.Access → Prop
  | .word (.write .spiIntCS value) => u.started = true →
    (u.spi.flags &&& (value >>> 8).setWidth 8 ≠ 0 ↔ u.spi.flags &&& u.enables ≠ 0)
  | .byteWrite .spiIntCS true value => value = u.spi.spiIntCS.setWidth 8 ∧
    (u.started = true → (u.spi.flags &&& value ≠ 0 ↔ u.spi.flags &&& u.enables ≠ 0))
  | _ => True

inductive Reached : StatusRun σ → Prop where
  | start (s : σ) (intPendingHi intMaskHi intStatusHi : Word) (systemCycles : BitVec 64)
    (powerOffCached : Bool) :
    Reached (start s intPendingHi intMaskHi intStatusHi systemCycles powerOffCached)
  | step {u u' : StatusRun σ} {a : Spi1.Access} (h : Reached u) (ha : u.Regular a)
    (hstep : u.step slave a = some u') : Reached u'

end StatusRun

namespace Spi1

variable {σ : Type} {slave : Slave σ} {m m' m'' : Spi1 σ} {operated operated' : Bool}

def enableMask (m : Spi1 σ) : BitVec 8 := (m.spiIntCS >>> 8).setWidth 8

structure Fresh (m : Spi1 σ) : Prop where
  flags : m.spiIntCS &&& 0x003f = m.flags.setWidth 16
  pending : m.intPendingHi &&& 0x0020 ≠ 0 ↔ m.flags &&& m.enableMask ≠ 0

/-- The enables stay, an operation on a FIFO refreshes, and without one nothing changes. -/
structure Turns (m m' : Spi1 σ) (operated : Bool) : Prop where
  mask : m'.enableMask = m.enableMask
  fresh : operated = true → m'.Fresh
  kept : operated = false → m'.flags = m.flags ∧
    m'.spiIntCS &&& 0x003f = m.spiIntCS &&& 0x003f ∧ m'.intPendingHi = m.intPendingHi

theorem Turns.fresh_of (h : Turns m m' operated) (hm : m.Fresh) : m'.Fresh := by
  cases operated with
  | true => exact h.fresh rfl
  | false =>
    obtain ⟨hflags, hlow, hpending⟩ := h.kept rfl
    refine ⟨?_, ?_⟩
    · rw [hlow, hflags, hm.flags]
    · rw [hpending, hflags, h.mask, hm.pending]

theorem Turns.trans (h : Turns m m' operated) (h' : Turns m' m'' operated') :
    Turns m m'' (operated || operated') := by
  refine ⟨h'.mask.trans h.mask, fun hop => ?_, fun hop => ?_⟩
  · rcases Bool.or_eq_true_iff.mp hop with hop | hop
    · exact h'.fresh_of (h.fresh hop)
    · exact h'.fresh hop
  · obtain ⟨hop, hop'⟩ := Bool.or_eq_false_iff.mp hop
    obtain ⟨hflags, hlow, hpending⟩ := h.kept hop
    obtain ⟨hflags', hlow', hpending'⟩ := h'.kept hop'
    exact ⟨hflags'.trans hflags, hlow'.trans hlow, hpending'.trans hpending⟩

def view (m : Spi1 σ) : BitVec 8 × Word × Word := (m.flags, m.spiIntCS, m.intPendingHi)

theorem Turns.congr {n n' : Spi1 σ} (h : Turns m m' operated) (hn : n.view = m.view)
    (hn' : n'.view = m'.view) : Turns n n' operated := by
  simp only [view, Prod.mk.injEq] at hn hn'
  obtain ⟨hflags, hstatus, hpending⟩ := hn
  obtain ⟨hflags', hstatus', hpending'⟩ := hn'
  refine ⟨?_, fun hop => ⟨?_, ?_⟩, fun hop => ?_⟩
  · rw [enableMask, enableMask, hstatus, hstatus']
    exact h.mask
  · rw [hstatus', hflags']
    exact (h.fresh hop).flags
  · rw [enableMask, hstatus', hflags', hpending']
    exact (h.fresh hop).pending
  · rw [hflags, hflags', hstatus, hstatus', hpending, hpending']
    exact h.kept hop

theorem Turns.same (h : m'.view = m.view) : Turns m m' false :=
  Turns.congr (m := m) ⟨rfl, nofun, fun _ => ⟨rfl, rfl, rfl⟩⟩ rfl h

theorem upper_eq {status status' : Word} (h : status &&& 0xff00 = status' &&& 0xff00) :
    (status >>> 8).setWidth 8 = (status' >>> 8).setWidth 8 := by
  apply BitVec.eq_of_getLsbD_eq
  intro i hi
  have hbit := congrArg (·.getLsbD (8 + i)) h
  interval_cases i <;> simpa using hbit

theorem turns_update (hupper : m'.spiIntCS &&& 0xff00 = m.spiIntCS &&& 0xff00) :
    Turns m m'.spi1UpdateInterrupts true := by
  have hlow : m'.flags &&& 0x3f = m'.flags := by
    unfold flags
    split_ifs <;> rfl
  have hstatus : m'.spi1UpdateInterrupts.spiIntCS =
      m'.spiIntCS &&& 0xff00 ||| m'.flags.setWidth 16 := rfl
  have henables : m'.spi1UpdateInterrupts.enableMask = m'.enableMask := by
    refine upper_eq ?_
    rw [hstatus]
    apply BitVec.eq_of_getLsbD_eq
    intro i hi
    interval_cases i <;> simp
  refine ⟨henables.trans (upper_eq hupper), fun _ => ⟨?_, ?_⟩, nofun⟩
  · change m'.spi1UpdateInterrupts.spiIntCS &&& 0x003f = m'.flags.setWidth 16
    rw [hstatus, ← hlow]
    apply BitVec.eq_of_getLsbD_eq
    intro i hi
    interval_cases i <;> simp
  · rw [henables]
    change (if m'.flags &&& m'.enableMask ≠ 0 then m'.intPendingHi ||| 0x0020
      else m'.intPendingHi &&& ~~~(0x0020 : Word)) &&& 0x0020 ≠ 0 ↔ _
    split
    · rename_i hdue
      refine iff_of_true (fun h => ?_) hdue
      have hbit := congrArg (·.getLsbD 5) h
      simp at hbit
    · rename_i hnone
      refine iff_of_false (not_not.mpr ?_) hnone
      rw [BitVec.and_assoc]
      exact BitVec.and_zero

theorem exchangeWord_turns (slave : Slave σ) (m : Spi1 σ) :
    Turns m (m.exchangeWord slave).2 m.spi1TransferInProgress := by
  unfold exchangeWord
  cases m.spi1TransferInProgress with
  | true =>
    refine turns_update ?_
    split
    · simp [BitVec.and_or_distrib_right]
    · rfl
  | false => exact .same rfl

theorem nextWord_turns (m : Spi1 σ) : Turns m m.nextWord (0 < m.spi1TxFifo.size) := by
  unfold nextWord
  split
  · rename_i hmore
    let popped : Spi1 σ := { m with
      spi1TransferInProgress := true
      spi1TxWordPending := m.spi1TxFifo.pop.1
      spi1TxFifo := m.spi1TxFifo.pop.2 }
    have hupdate : Turns m popped.spi1UpdateInterrupts true := turns_update rfl
    rw [decide_eq_true hmore]
    exact hupdate.congr rfl rfl
  · rename_i hnone
    rw [decide_eq_false hnone]
    exact .same rfl

theorem spi1TransmitWord_turns (slave : Slave σ) (m : Spi1 σ) :
    Turns m (m.spi1TransmitWord slave).2
      (m.spi1TransferInProgress || decide (0 < m.spi1TxFifo.size)) := by
  have hnext := nextWord_turns (m.exchangeWord slave).2
  rw [exchangeWord_spi1TxFifo] at hnext
  exact (exchangeWord_turns slave m).trans hnext

theorem transmitLoop_turns {rounds : ℕ} {observed : List Observation}
    (h : transmitLoop slave rounds m = some (observed, m')) : Turns m m' m.due := by
  induction rounds generalizing m observed with
  | zero =>
    rw [transmitLoop] at h
    split at h
    · rename_i hdue
      cases h
      rw [Bool.not_eq_true _ |>.mp hdue]
      exact .same rfl
    · cases h
  | succ rounds ih =>
    rw [transmitLoop] at h
    split at h
    · rename_i hdue
      cases h
      rw [Bool.not_eq_true _ |>.mp hdue]
      exact .same rfl
    · rename_i hdue
      obtain ⟨⟨rest, last⟩, hrest, heq⟩ := Option.bind_eq_some_iff.mp h
      cases heq
      have hdue : m.due = true := not_not.mp hdue
      have hfirst := spi1TransmitWord_turns slave m
      rw [(Bool.and_eq_true_iff.mp hdue).1, Bool.true_or] at hfirst
      rw [hdue]
      exact hfirst.trans (ih hrest)

theorem cycle_turns {systemCycles : BitVec 64} {observed : List Observation}
    (h : m.cycle slave systemCycles = some (observed, m')) :
    Turns m m' (m.operates (.cycle systemCycles)) := by
  unfold cycle at h
  split at h
  · rename_i hoff
    cases h
    rw [operates, hoff]
    exact .same rfl
  · rename_i hoff
    obtain ⟨⟨first, last⟩, hloop, heq⟩ := Option.bind_eq_some_iff.mp h
    cases heq
    split at hloop
    · rename_i hprogress
      have hturns := transmitLoop_turns hloop
      have hdue : m.operates (.cycle systemCycles) = due { m with
          spi1Countdown := m.spi1Countdown - (systemCycles - m.systemCycles).setWidth 32 } := by
        simp [operates, due, hoff, hprogress]
      rw [hdue]
      exact hturns.congr rfl rfl
    · rename_i hprogress
      cases hloop
      simp only [operates, hprogress]
      rw [decide_eq_false (by simp)]
      exact .same rfl

theorem spiCont1Write_turns (slave : Slave σ) (m : Spi1 σ) (value : Word) :
    Turns m (m.spiCont1Write slave value).2 (m.operates (.write .spiCont1 value)) := by
  rw [spiCont1Write]
  by_cases hon : value &&& 0x0600 = 0x0600
  · have hbit : ¬value &&& 0x0200 = 0 := fun hoff => by
      have hbits : value &&& 0x0600 &&& 0x0200 = value &&& 0x0200 := BitVec.and_assoc ..
      rw [hon, hoff] at hbits
      cases hbits
    rw [if_neg (not_not.mpr hon)]
    simp only [if_neg hbit, exchangeWrite]
    by_cases hrises : value &&& ~~~m.spiCont1 &&& 0x0100 ≠ 0
    · have hop : m.operates (.write .spiCont1 value) =
          (m.spi1TransferInProgress || decide (0 < m.spi1TxFifo.size)) := by
        rw [Bool.eq_iff_iff, operates, decide_eq_true_iff, Bool.or_eq_true, decide_eq_true_iff]
        tauto
      have hsent := spi1TransmitWord_turns slave { m with spiCont1 := value, spi1Countdown := 0 }
      simp only [if_pos hrises, hop]
      split <;> exact hsent.congr rfl rfl
    · have hop : m.operates (.write .spiCont1 value) = false := decide_eq_false (by tauto)
      simp only [if_neg hrises, hop]
      split <;> exact .same rfl
  · rw [if_pos hon]
    by_cases hoff : value &&& 0x0200 = 0
    · have hop : m.operates (.write .spiCont1 value) = true := decide_eq_true (.inl hoff)
      simp only [if_pos hoff, hop]
      let cleared : Spi1 σ := { m with
        spiCont1 := value
        spi1TxFifo := m.spi1TxFifo.clear
        spi1RxFifo := m.spi1RxFifo.clear }
      have hupdate : Turns m cleared.spi1UpdateInterrupts true := turns_update rfl
      exact hupdate.congr rfl rfl
    · have hop : m.operates (.write .spiCont1 value) = false := decide_eq_false (by tauto)
      simp only [if_neg hoff, hop]
      exact .same rfl

theorem step_turns {event : Event} {observed : List Observation}
    (h : m.step slave event = some (observed, m')) (hevent : ∀ value, event ≠ .write .spiIntCS value) :
    Turns m m' (m.operates event) := by
  cases event with
  | read register =>
    cases register with
    | spiRxD =>
      cases h
      exact turns_update rfl
    | spiTxD =>
      cases h
      exact .same rfl
    | spiCont1 =>
      cases h
      exact .same rfl
    | spiIntCS =>
      cases h
      refine ⟨upper_eq ?_, nofun, fun _ => ⟨rfl, ?_, rfl⟩⟩
      · exact BitVec.and_assoc ..
      · exact BitVec.and_assoc ..
  | write register value =>
    cases register with
    | spiRxD =>
      cases h
      exact .same rfl
    | spiTxD =>
      cases h
      unfold spiTxDWrite
      split
      · rename_i hoff
        rw [operates, decide_eq_false (not_not.mpr hoff)]
        exact .same rfl
      · rename_i hon
        rw [operates, decide_eq_true hon]
        exact turns_update rfl
    | spiCont1 =>
      obtain rfl := congrArg Prod.snd (Option.some.inj h)
      exact spiCont1Write_turns slave m value
    | spiIntCS => exact absurd rfl (hevent value)
  | cycle systemCycles => exact cycle_turns h

end Spi1

namespace StatusRun

variable {σ : Type} {slave : Slave σ} {u u' : StatusRun σ} {a : Spi1.Access}

open Spi1

theorem written_bits (status value : Word) :
    (status &&& 0x00ff ||| value &&& 0xff00) &&& 0x003f = status &&& 0x003f ∧
      ((status &&& 0x00ff ||| value &&& 0xff00) >>> 8).setWidth 8 = (value >>> 8).setWidth 8 := by
  constructor <;>
  · apply BitVec.eq_of_getLsbD_eq
    intro i hi
    interval_cases i <;> simp

theorem doubled_bits (status : Word) :
    ((status &&& 0x00ff) <<< 8 ||| status &&& 0x00ff) &&& 0x003f = status &&& 0x003f ∧
      (((status &&& 0x00ff) <<< 8 ||| status &&& 0x00ff) >>> 8).setWidth 8 = status.setWidth 8 := by
  constructor <;>
  · apply BitVec.eq_of_getLsbD_eq
    intro i hi
    interval_cases i <;> simp

/-- What every regular run keeps. -/
structure Inv (u : StatusRun σ) : Prop where
  enables : u.spi.enableMask = u.enables
  fresh : u.started = true → u.spi.Fresh
  status : u.started = true → u.intStatusHi = u.spi.intPendingHi &&& ~~~u.intMaskHi

theorem Inv.turns (h : u.Inv) {spi : Spi1 σ} {operated : Bool} (ht : Turns u.spi spi operated) :
    Inv { u with
      spi
      intStatusHi := if operated then spi.intPendingHi &&& ~~~u.intMaskHi else u.intStatusHi
      started := operated || u.started } := by
  refine ⟨ht.mask.trans h.enables, fun hs => ?_, fun hs => ?_⟩
  · cases operated with
    | true => exact ht.fresh rfl
    | false => exact ht.fresh_of (h.fresh hs)
  · cases operated with
    | true => rfl
    | false =>
      rw [(ht.kept rfl).2.2]
      exact h.status hs

theorem Inv.enabled (h : u.Inv) {spiIntCS : Word} {enables : BitVec 8}
    (hlow : spiIntCS &&& 0x003f = u.spi.spiIntCS &&& 0x003f)
    (hupper : (spiIntCS >>> 8).setWidth 8 = enables)
    (hkeeps : u.started = true → (u.spi.flags &&& enables ≠ 0 ↔ u.spi.flags &&& u.enables ≠ 0)) :
    Inv { u with spi := { u.spi with spiIntCS }, enables } := by
  refine ⟨hupper, fun hs => ⟨hlow.trans (h.fresh hs).flags, ?_⟩, h.status⟩
  have hpending := (h.fresh hs).pending
  rw [h.enables] at hpending
  change _ ↔ u.spi.flags &&& (spiIntCS >>> 8).setWidth 8 ≠ 0
  rw [hupper]
  exact hpending.trans (hkeeps hs).symm

theorem Inv.step (h : u.Inv) (ha : u.Regular a) (hstep : u.step slave a = some u') : u'.Inv := by
  obtain ⟨spi, hspi, rfl⟩ := Option.map_eq_some_iff.mp hstep
  cases a with
  | word event =>
    obtain ⟨⟨observed, last⟩, hevent, rfl⟩ := Option.map_eq_some_iff.mp hspi
    by_cases hwrite : ∃ value, event = .write .spiIntCS value
    · obtain ⟨value, rfl⟩ := hwrite
      cases hevent
      have hbits := written_bits u.spi.spiIntCS value
      exact h.enabled hbits.1 hbits.2 ha
    · have hturns := step_turns hevent fun value heq => hwrite ⟨value, heq⟩
      have hnone : (Access.word event).enables = none := by
        cases event with
        | write register value =>
          cases register <;> first | rfl | exact absurd ⟨value, rfl⟩ hwrite
        | read => rfl
        | cycle => rfl
      rw [hnone]
      exact h.turns hturns
  | byteWrite register upper value =>
    by_cases hwrite : register = .spiIntCS
    · obtain rfl := hwrite
      cases upper with
      | false =>
        cases hspi
        exact h
      | true =>
        cases hspi
        obtain ⟨rfl, hkeeps⟩ := ha
        have hbits := doubled_bits u.spi.spiIntCS
        exact h.enabled hbits.1 hbits.2 hkeeps
    · have hword : (u.spi.step slave (.write register (value.setWidth 16))).map Prod.snd =
          some spi := by
        rw [← hspi]
        cases register <;> first | rfl | exact absurd rfl hwrite
      obtain ⟨⟨observed, last⟩, hevent, rfl⟩ := Option.map_eq_some_iff.mp hword
      have hturns := step_turns hevent fun value heq => hwrite (Event.write.inj heq).1
      have hnone : (Access.byteWrite register upper value).enables = none := by
        cases register <;> first | rfl | exact absurd rfl hwrite
      rw [hnone]
      exact h.turns hturns

theorem Reached.inv (h : Reached slave u) : u.Inv := by
  induction h with
  | start =>
    refine ⟨?_, nofun, nofun⟩
    change ((0 : Word) >>> 8).setWidth 8 = 0
    decide
  | step _ ha hstep ih => exact ih.step ha hstep

theorem reached_current (h : Reached slave u) (hs : u.started = true) : u.Current := by
  have hinv := h.inv
  exact ⟨(hinv.fresh hs).flags, hinv.enables, hinv.enables ▸ (hinv.fresh hs).pending,
    hinv.status hs⟩

def silent : Slave Unit := fun s _ _ => (0, s)

def begun : StatusRun Unit := start () 0 0xffff 0 0 false

/-- The receive register is read. -/
theorem read_current : ∃ u, begun.step silent (.word (.read .spiRxD)) = some u ∧ u.Current := by
  have hbegun : Reached silent begun := .start () 0 0xffff 0 0 false
  have hregular : begun.Regular (.word (.read .spiRxD)) := trivial
  exact ⟨_, rfl, reached_current (hbegun.step hregular rfl) rfl⟩

/-- The enable of the empty transmit FIFO is written after that. -/
theorem not_current_enabled : ¬∀ (accesses : List Spi1.Access) (u : StatusRun Unit),
    accesses.foldlM (fun u a => u.step silent a) begun = some u → u.started = true → u.Current := by
  intro h
  have hcurrent := h [.word (.read .spiRxD), .word (.write .spiIntCS 0x0100)] _ rfl rfl
  have hpending := hcurrent.pending.mpr (by decide)
  exact hpending (by decide)

end StatusRun

end Cloudpilot.Hardware.EmRegsVZ
