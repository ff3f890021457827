import Cloudpilot.Hardware.EmRegsVZ.Spi1
import Cloudpilot.Library.Words

/-! # SPI unit 1 over whole runs

As long as the guest leaves the unit enabled, lets bursts come to their end, and does not
overfill the FIFOs, the words it writes are the words the slave gets and the answers are
the words it reads.
-/
namespace Cloudpilot.Hardware.EmRegsVZ
open Emulator Library.BitTest

variable {σ : Type} {slave : Slave σ} {m m' : Spi1 σ} {event : Event} {events : List Event}

theorem exchangeBit_set (x : Word) : x &&& 0x0100 ≠ 0 ↔ x.getLsbD 8 = true :=
  and_bit_ne_zero (show 8 < 16 by decide)

theorem exchangeBit_clear (x : Word) : x &&& 0x0100 = 0 ↔ x.getLsbD 8 = false :=
  and_bit_eq_zero (show 8 < 16 by decide)

theorem newlySet_iff (old new : Word) :
    new &&& ~~~old &&& 0x0100 ≠ 0 ↔ new.getLsbD 8 = true ∧ old.getLsbD 8 = false := by
  rw [exchangeBit_set, BitVec.getLsbD_and, BitVec.getLsbD_not]
  simp

theorem newlyCleared_iff (old new : Word) :
    ~~~new &&& old &&& 0x0100 ≠ 0 ↔ new.getLsbD 8 = false ∧ old.getLsbD 8 = true := by
  rw [exchangeBit_set, BitVec.getLsbD_and, BitVec.getLsbD_not]
  simp

/-- The words that the guest writes to `spiTxD`. -/
def Event.words : Event → List Word
  | .write .spiTxD value => [value]
  | _ => []

/-- The unit stays enabled, no burst is cut short, and the transmit FIFO has room. -/
def Event.Allowed (m : Spi1 σ) : Event → Prop
  | .write .spiTxD _ => m.spi1TxFifo.size < 8
  | .write .spiCont1 value =>
    value &&& 0x0600 = 0x0600 ∧ (m.spiCont1 &&& 0x0100 ≠ 0 → value &&& 0x0100 ≠ 0)
  | _ => True

theorem spiRxDRead_kept (slave : Slave σ) (m : Spi1 σ) :
    Kept slave m [] m.spiRxDRead.1 m.spiRxDRead.2 := by
  unfold Spi1.spiRxDRead
  dsimp only
  by_cases hempty : m.spi1RxFifo.size = 0
  · rw [if_pos hempty, Fifo.pop_empty hempty]
    exact Kept.of_eq rfl rfl rfl
  · rw [if_neg hempty]
    refine ⟨List.append_nil _, fun _ => ?_, rfl⟩
    exact (List.append_nil _).trans (Fifo.contents_pop hempty)

theorem spiTxDWrite_kept (slave : Slave σ) (value : Word) (h : m.Enabled)
    (hroom : m.spi1TxFifo.size < 8) : Kept slave m [value] [] (m.spiTxDWrite value) := by
  have hon : m.spiCont1 &&& 0x0200 ≠ 0 := by
    intro hoff
    have hboth : m.spiCont1 &&& 0x0600 &&& 0x0200 = 0x0200 := by
      rw [h]
      rfl
    rw [BitVec.and_assoc] at hboth
    exact absurd (hoff.symm.trans hboth) (by decide)
  unfold Spi1.spiTxDWrite
  rw [if_neg hon]
  refine ⟨?_, fun _ => List.append_nil _, rfl⟩
  change _ = (if m.spi1TransferInProgress then [m.spi1TxWordPending] else []) ++
    (m.spi1TxFifo.push value).contents
  rw [Fifo.contents_push hroom, Spi1.waiting, List.append_assoc]

theorem exchangeWrite_quiet (slave : Slave σ) {valueOld value : Word} (hvalue : m.spiCont1 = value)
    (h : valueOld &&& 0x0100 = 0 → m.spi1TransferInProgress = false) :
    (m.exchangeWrite slave valueOld value).2.Quiet := by
  unfold Spi1.exchangeWrite
  dsimp only
  by_cases hcleared : ~~~value &&& valueOld &&& 0x0100 ≠ 0
  · rw [if_pos hcleared]
    intro _
    rfl
  rw [if_neg hcleared]
  by_cases hset : value &&& ~~~valueOld &&& 0x0100 ≠ 0
  · rw [if_pos hset]
    apply spi1TransmitWord_quiet
    rw [exchangeBit_set, hvalue]
    exact ((newlySet_iff _ _).mp hset).1
  · rw [if_neg hset]
    intro (hclear : m.spiCont1 &&& 0x0100 = 0)
    apply h
    rw [hvalue, exchangeBit_clear] at hclear
    rw [newlyCleared_iff, not_and, Bool.not_eq_true] at hcleared
    rw [exchangeBit_clear]
    exact hcleared hclear

theorem exchangeWrite_kept (slave : Slave σ) (m : Spi1 σ) {valueOld value : Word}
    (h : valueOld &&& 0x0100 ≠ 0 → value &&& 0x0100 ≠ 0) :
    Kept slave m [] (m.exchangeWrite slave valueOld value).1
      (m.exchangeWrite slave valueOld value).2 := by
  have hcleared : ¬ ~~~value &&& valueOld &&& 0x0100 ≠ 0 := by
    rw [newlyCleared_iff]
    rintro ⟨hnew, hold⟩
    rw [← exchangeBit_set] at hold
    rw [← exchangeBit_clear] at hnew
    exact h hold hnew
  unfold Spi1.exchangeWrite
  dsimp only
  split
  · have hkept := spi1TransmitWord_kept slave { m with spi1Countdown := 0 }
    exact ⟨hkept.sent, hkept.received, hkept.slave_eq⟩
  · exact Kept.refl slave m

theorem exchangeWrite_enabled (slave : Slave σ) (valueOld value : Word) (h : m.Enabled) :
    (m.exchangeWrite slave valueOld value).2.Enabled := by
  have hsent : (if value &&& ~~~valueOld &&& 0x0100 ≠ 0 then
      Spi1.spi1TransmitWord slave { m with spi1Countdown := 0 } else ([], m)).2.Enabled := by
    split
    · exact spi1TransmitWord_enabled slave h
    · exact h
  unfold Spi1.exchangeWrite
  dsimp only
  split <;> exact hsent

theorem spiCont1Write_quiet (slave : Slave σ) (value : Word) (h : m.Quiet) :
    (m.spiCont1Write slave value).2.Quiet := by
  unfold Spi1.spiCont1Write
  dsimp only
  split
  · intro _
    rfl
  · apply exchangeWrite_quiet
    · split <;> rfl
    · intro hclear
      have hkept := h hclear
      split <;> exact hkept

theorem spiCont1Write_enabled_eq (slave : Slave σ) (m : Spi1 σ) {value : Word}
    (hvalue : value &&& 0x0600 = 0x0600) : m.spiCont1Write slave value =
      Spi1.exchangeWrite slave { m with spiCont1 := value } m.spiCont1 value := by
  have hon : value &&& 0x0200 ≠ 0 := by
    intro hoff
    have hboth : value &&& 0x0600 &&& 0x0200 = 0x0200 := by grind
    rw [BitVec.and_assoc] at hboth
    exact absurd (hoff.symm.trans hboth) (by decide)
  unfold Spi1.spiCont1Write
  rw [if_neg (not_not.mpr hvalue), if_neg hon]

theorem cycle_spec (slave : Slave σ) (m : Spi1 σ) (systemCycles : BitVec 64) :
    ∃ observed m', m.cycle slave systemCycles = some (observed, m') ∧ Kept slave m [] observed m' ∧
      (m.Quiet → m'.Quiet) ∧ (m.Enabled → m'.Enabled) := by
  unfold Spi1.cycle
  by_cases hoff : m.powerOffCached = true
  · rw [if_pos hoff]
    exact ⟨[], m, rfl, Kept.refl slave m, id, id⟩
  rw [if_neg hoff]
  by_cases hprogress : m.spi1TransferInProgress = true
  · obtain ⟨observed, m', hloop, hkept, -, hquiet, henabled⟩ := transmitLoop_ends slave
      (m.spi1TxFifo.size + 1)
      { m with spi1Countdown := m.spi1Countdown - (systemCycles - m.systemCycles).setWidth 32 }
      (Nat.lt_succ_self _)
    refine ⟨observed, { m' with systemCycles := systemCycles }, ?_,
      ⟨hkept.sent, hkept.received, hkept.slave_eq⟩, hquiet, henabled⟩
    rw [if_pos hprogress, hloop]
    rfl
  · rw [if_neg hprogress]
    exact ⟨[], { m with systemCycles := systemCycles }, rfl, Kept.of_eq rfl rfl rfl, id, id⟩

theorem step_spec (slave : Slave σ) (m : Spi1 σ) (event : Event) :
    ∃ observed m', m.step slave event = some (observed, m') ∧ (m.Quiet → m'.Quiet) ∧
      (m.Enabled → event.Allowed m → Kept slave m event.words observed m' ∧ m'.Enabled) := by
  cases event with
  | read register =>
    cases register with
    | spiRxD => exact ⟨_, _, rfl, id, fun h _ => ⟨spiRxDRead_kept slave m, h⟩⟩
    | spiTxD => exact ⟨_, _, rfl, id, fun h _ => ⟨Kept.refl slave m, h⟩⟩
    | spiCont1 => exact ⟨_, _, rfl, id, fun h _ => ⟨Kept.refl slave m, h⟩⟩
    | spiIntCS => exact ⟨_, _, rfl, id, fun h _ => ⟨Kept.of_eq rfl rfl rfl, h⟩⟩
  | write register value =>
    cases register with
    | spiRxD => exact ⟨_, _, rfl, id, fun h _ => ⟨Kept.refl slave m, h⟩⟩
    | spiTxD =>
      refine ⟨_, _, rfl, ?_, fun h hroom => ⟨spiTxDWrite_kept slave value h hroom, ?_⟩⟩
      · intro h
        unfold Spi1.spiTxDWrite
        split <;> exact h
      · unfold Spi1.spiTxDWrite
        split <;> exact h
    | spiCont1 =>
      refine ⟨(m.spiCont1Write slave value).1, (m.spiCont1Write slave value).2, rfl,
        spiCont1Write_quiet slave value, fun h hallowed => ?_⟩
      obtain ⟨hvalue, hlonger⟩ := hallowed
      rw [spiCont1Write_enabled_eq slave m hvalue]
      have hkept := exchangeWrite_kept slave { m with spiCont1 := value } hlonger
      exact ⟨⟨hkept.sent, hkept.received, hkept.slave_eq⟩,
        exchangeWrite_enabled slave m.spiCont1 value hvalue⟩
    | spiIntCS => exact ⟨_, _, rfl, id, fun h _ => ⟨Kept.of_eq rfl rfl rfl, h⟩⟩
  | cycle systemCycles =>
    obtain ⟨observed, m', hcycle, hkept, hquiet, henabled⟩ := cycle_spec slave m systemCycles
    exact ⟨observed, m', hcycle, hquiet, fun h _ => ⟨hkept, henabled h⟩⟩

def AllAllowed (slave : Slave σ) : Spi1 σ → List Event → Prop
  | _, [] => True
  | m, event :: events => event.Allowed m ∧
    ∀ observed m', m.step slave event = some (observed, m') → AllAllowed slave m' events

theorem run_spec (slave : Slave σ) (m : Spi1 σ) (events : List Event) :
    ∃ observed m', m.run slave events = some (observed, m') ∧ (m.Quiet → m'.Quiet) ∧
      (m.Enabled → AllAllowed slave m events →
        Kept slave m (events.flatMap Event.words) observed m' ∧ m'.Enabled) := by
  induction events generalizing m with
  | nil => exact ⟨[], m, rfl, id, fun h _ => ⟨Kept.refl slave m, h⟩⟩
  | cons event events ih =>
    obtain ⟨first, m₁, hfirst, hquiet, hkept⟩ := step_spec slave m event
    obtain ⟨rest, m', hrest, hquiet', hkept'⟩ := ih m₁
    refine ⟨first ++ rest, m', ?_, fun h => hquiet' (hquiet h), fun henabled hallowed => ?_⟩
    · simp [Spi1.run, hfirst, hrest]
    · obtain ⟨hone, henabled₁⟩ := hkept henabled hallowed.1
      obtain ⟨hall, henabled'⟩ := hkept' henabled₁ (hallowed.2 first m₁ hfirst)
      exact ⟨hone.trans hall, henabled'⟩

theorem reset_quiet (state : σ) (intPendingHi : Word) (systemCycles : BitVec 64)
    (powerOffCached : Bool) : (Spi1.reset state intPendingHi systemCycles powerOffCached).Quiet :=
  fun _ => rfl

/-- From every state that accesses and cycles lead to after a reset. -/
theorem words_kept (slave : Slave σ) (state : σ) (intPendingHi : Word) (systemCycles : BitVec 64)
    (powerOffCached : Bool) {before events : List Event} {past : List Observation}
    (hbefore : (Spi1.reset state intPendingHi systemCycles powerOffCached).run slave before =
      some (past, m))
    (henabled : m.Enabled) (hallowed : AllAllowed slave m events) :
    m.Quiet ∧ ∃ observed m', m.run slave events = some (observed, m') ∧ m'.Quiet ∧
      m.waiting ++ events.flatMap Event.words = (calls observed).map Prod.snd ++ m'.waiting ∧
      (RoomToReceive observed →
        m.spi1RxFifo.contents ++ (slave.answers m.slave (calls observed)).1 =
          reads observed ++ m'.spi1RxFifo.contents) := by
  obtain ⟨past', start, hpast, hquiet, -⟩ := run_spec slave
    (Spi1.reset state intPendingHi systemCycles powerOffCached) before
  have hstart : start = m := congrArg Prod.snd (Option.some.inj (hpast.symm.trans hbefore))
  have hm : m.Quiet := by
    rw [← hstart]
    exact hquiet (reset_quiet state intPendingHi systemCycles powerOffCached)
  obtain ⟨observed, m', hrun, hquiet', hkept⟩ := run_spec slave m events
  obtain ⟨hall, -⟩ := hkept henabled hallowed
  exact ⟨hm, observed, m', hrun, hquiet' hm, hall.sent, hall.received⟩

def adder : Slave Word := fun sum _ dataOut => (sum + dataOut, sum + dataOut)

/-- The unit is enabled. -/
def idle : Spi1 Word := { Spi1.reset 0 0 0 false with spiCont1 := 0x0600 }

def burstEvents : List Event :=
  [.write .spiTxD 5, .write .spiTxD 7, .write .spiCont1 0x0700, .cycle 1000, .read .spiRxD]

theorem words_kept_burst : idle.Quiet ∧ ∃ observed m',
    idle.run adder burstEvents = some (observed, m') ∧ m'.Quiet ∧
      idle.waiting ++ burstEvents.flatMap Event.words =
        (calls observed).map Prod.snd ++ m'.waiting ∧
      (RoomToReceive observed →
        idle.spi1RxFifo.contents ++ (adder.answers idle.slave (calls observed)).1 =
          reads observed ++ m'.spi1RxFifo.contents) := by
  have hbefore : (Spi1.reset 0 0 0 false).run adder [.write .spiCont1 0x0600] = some ([], idle) :=
    rfl
  refine words_kept adder 0 0 0 false hbefore rfl ?_
  refine ⟨show idle.spi1TxFifo.size < 8 by decide, fun _ _ h => ?_⟩
  cases h
  refine ⟨show (idle.spiTxDWrite 5).spi1TxFifo.size < 8 by decide, fun _ _ h => ?_⟩
  cases h
  refine ⟨⟨by decide, fun _ => by decide⟩, fun _ _ _ => ?_⟩
  exact ⟨trivial, fun _ _ _ => ⟨trivial, fun _ _ _ => trivial⟩⟩

end Cloudpilot.Hardware.EmRegsVZ
