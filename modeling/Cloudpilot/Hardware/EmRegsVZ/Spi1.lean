import Mathlib.Data.BitVec
import Mathlib.Algebra.Group.Basic
import Cloudpilot.Emulator.RingBuffers

/-! # SPI unit 1 of the DragonBall VZ

The registers of the unit, its two FIFOs and the word that is being shifted out. Words
leave with the cycles of the CPU and with the write that starts a burst. The slave is a
parameter; a unit without one gets zeros.
-/

namespace Cloudpilot.Hardware.EmRegsVZ

open Emulator List

abbrev Word := BitVec 16

/-- The answer of a slave to a word, in terms of its state and of the control register. -/
abbrev Slave (σ : Type) := σ → Word → Word → Word × σ

structure Spi1 (σ : Type) where
  slave : σ
  spiTxD : Word
  spiCont1 : Word
  spiIntCS : Word
  intPendingHi : Word
  spi1RxFifo : Fifo Word 8
  spi1TxFifo : Fifo Word 8
  spi1Countdown : BitVec 32
  spi1TxWordPending : Word
  spi1TransferInProgress : Bool
  systemCycles : BitVec 64
  powerOffCached : Bool

/-- What the slave and the guest see: a word and its answer, with the number of words that the
receive FIFO held, and a word that was read from it. -/
inductive Observation where
  | exchange (control dataOut dataIn : Word) (held : ℕ)
  | read (word : Word)
  deriving DecidableEq, Repr

inductive Register where
  | spiRxD
  | spiTxD
  | spiCont1
  | spiIntCS
  deriving DecidableEq, Repr

inductive Event where
  | read (register : Register)
  | write (register : Register) (value : Word)
  | cycle (systemCycles : BitVec 64)
  deriving DecidableEq, Repr

namespace Spi1

variable {σ : Type}

theorem fifoSize_pos : 0 < 8 := by decide

def reset (slave : σ) (intPendingHi : Word) (systemCycles : BitVec 64) (powerOffCached : Bool) :
    Spi1 σ where
  slave := slave
  spiTxD := 0
  spiCont1 := 0
  spiIntCS := 0
  intPendingHi := intPendingHi
  spi1RxFifo := .new 8 fifoSize_pos
  spi1TxFifo := .new 8 fifoSize_pos
  spi1Countdown := 0
  spi1TxWordPending := 0
  spi1TransferInProgress := false
  systemCycles := systemCycles
  powerOffCached := powerOffCached

def spi1UpdateInterrupts (m : Spi1 σ) : Spi1 σ :=
  let flags : BitVec 8 :=
    (if m.spi1RxFifo.size = 8 then 0x20 else 0) ||| (if 4 ≤ m.spi1RxFifo.size then 0x10 else 0) |||
      (if 0 < m.spi1RxFifo.size then 0x08 else 0) ||| (if m.spi1TxFifo.size = 8 then 0x04 else 0) |||
      (if 4 ≤ m.spi1TxFifo.size then 0x02 else 0) ||| (if m.spi1TxFifo.size = 0 then 0x01 else 0)
  let mask : BitVec 8 := (m.spiIntCS >>> 8).setWidth 8
  { m with
    spiIntCS := (m.spiIntCS &&& 0xff00) ||| flags.setWidth 16
    intPendingHi :=
      if flags &&& mask ≠ 0 then m.intPendingHi ||| 0x0020 else m.intPendingHi &&& ~~~(0x0020 : Word) }

/-- The first half of `Spi1TransmitWord`: the word goes to the slave, the answer to the FIFO. -/
def exchangeWord (slave : Slave σ) (m : Spi1 σ) : List Observation × Spi1 σ :=
  if m.spi1TransferInProgress then
    let (dataIn, state) := slave m.slave m.spiCont1 m.spi1TxWordPending
    ([.exchange m.spiCont1 m.spi1TxWordPending dataIn m.spi1RxFifo.size],
      spi1UpdateInterrupts { m with
        slave := state
        spiIntCS := if m.spi1RxFifo.size = 0 then m.spiIntCS ||| 0x0040 else m.spiIntCS
        spi1RxFifo := m.spi1RxFifo.push dataIn })
  else ([], m)

def nextWord (m : Spi1 σ) : Spi1 σ :=
  if 0 < m.spi1TxFifo.size then
    let (word, fifo) := m.spi1TxFifo.pop
    let m := spi1UpdateInterrupts { m with
      spi1TransferInProgress := true
      spi1TxWordPending := word
      spi1TxFifo := fifo }
    { m with
      spi1Countdown := m.spi1Countdown +
        (((4 : BitVec 32) <<< ((m.spiCont1 >>> 13) &&& 0x07).toNat) *
          ((m.spiCont1 &&& 0x0f).setWidth 32 + 1)) }
  else { m with
    spi1TransferInProgress := false
    spiCont1 := m.spiCont1 &&& ~~~(0x0100 : Word) }

def spi1TransmitWord (slave : Slave σ) (m : Spi1 σ) : List Observation × Spi1 σ :=
  let (observed, m) := m.exchangeWord slave
  (observed, m.nextWord)

def due (m : Spi1 σ) : Bool := m.spi1TransferInProgress && m.spi1Countdown.toInt ≤ 0

/-- The loop of `Cycle`, with the number of rounds that it may take. -/
def transmitLoop (slave : Slave σ) : ℕ → Spi1 σ → Option (List Observation × Spi1 σ)
  | rounds, m =>
    if ¬ m.due then some ([], m)
    else match rounds with
      | 0 => none
      | rounds + 1 => do
        let (first, m) := m.spi1TransmitWord slave
        let (rest, m) ← transmitLoop slave rounds m
        return (first ++ rest, m)

/-- `Cycle`, with as many rounds as there are words to send. -/
def cycle (slave : Slave σ) (m : Spi1 σ) (systemCycles : BitVec 64) :
    Option (List Observation × Spi1 σ) :=
  if m.powerOffCached then some ([], m)
  else do
    let (observed, m) ←
      (if m.spi1TransferInProgress then
        transmitLoop slave (m.spi1TxFifo.size + 1) { m with
          spi1Countdown := m.spi1Countdown - (systemCycles - m.systemCycles).setWidth 32 }
      else some ([], m) : Option (List Observation × Spi1 σ))
    return (observed, { m with systemCycles := systemCycles })

def spiRxDRead (m : Spi1 σ) : List Observation × Spi1 σ :=
  let (result, fifo) := m.spi1RxFifo.pop
  (if m.spi1RxFifo.size = 0 then [] else [.read result],
    spi1UpdateInterrupts { m with spi1RxFifo := fifo })

def spiTxDWrite (m : Spi1 σ) (value : Word) : Spi1 σ :=
  if m.spiCont1 &&& 0x0200 = 0 then m
  else spi1UpdateInterrupts { m with spi1TxFifo := m.spi1TxFifo.push value }

def spiIntCSWrite (m : Spi1 σ) (value : Word) : Spi1 σ :=
  { m with spiIntCS := (m.spiIntCS &&& 0x00ff) ||| (value &&& 0xff00) }

def spiIntCSRead (m : Spi1 σ) : Spi1 σ :=
  { m with spiIntCS := m.spiIntCS &&& ~~~(0x0040 : Word) }

/-- The end of `spiCont1Write`, when the unit is enabled. -/
def exchangeWrite (slave : Slave σ) (m : Spi1 σ) (valueOld value : Word) :
    List Observation × Spi1 σ :=
  let (observed, m) :=
    if value &&& ~~~valueOld &&& 0x0100 ≠ 0 then
      spi1TransmitWord slave { m with spi1Countdown := 0 }
    else ([], m)
  (observed,
    if ~~~value &&& valueOld &&& 0x0100 ≠ 0 then { m with spi1TransferInProgress := false } else m)

def spiCont1Write (slave : Slave σ) (m : Spi1 σ) (value : Word) : List Observation × Spi1 σ :=
  let valueOld := m.spiCont1
  let m := { m with spiCont1 := value }
  let m :=
    if value &&& 0x0200 = 0 then
      spi1UpdateInterrupts { m with
        spi1TxFifo := m.spi1TxFifo.clear
        spi1RxFifo := m.spi1RxFifo.clear }
    else m
  if value &&& 0x0600 ≠ 0x0600 then
    ([], { m with spi1TransferInProgress := false, spiCont1 := value &&& ~~~(0x0100 : Word) })
  else m.exchangeWrite slave valueOld value

/-- Accesses by the guest, and the cycles of the CPU. -/
def step (slave : Slave σ) (m : Spi1 σ) : Event → Option (List Observation × Spi1 σ)
  | .read .spiRxD => some m.spiRxDRead
  | .read .spiTxD => some ([], m)
  | .read .spiCont1 => some ([], m)
  | .read .spiIntCS => some ([], m.spiIntCSRead)
  | .write .spiRxD _ => some ([], m)
  | .write .spiTxD value => some ([], m.spiTxDWrite value)
  | .write .spiCont1 value => some (m.spiCont1Write slave value)
  | .write .spiIntCS value => some ([], m.spiIntCSWrite value)
  | .cycle systemCycles => m.cycle slave systemCycles

def run (slave : Slave σ) : Spi1 σ → List Event → Option (List Observation × Spi1 σ)
  | m, [] => some ([], m)
  | m, event :: events => do
    let (first, m) ← m.step slave event
    let (rest, m) ← m.run slave events
    return (first ++ rest, m)

end Spi1

variable {σ : Type} {slave : Slave σ} {m m' m'' : Spi1 σ}
  {observed observed' : List Observation} {words words' : List Word} {event : Event}
  {events : List Event}

def calls (observed : List Observation) : List (Word × Word) :=
  observed.filterMap fun
    | .exchange control dataOut _ _ => some (control, dataOut)
    | .read _ => none

def reads (observed : List Observation) : List Word :=
  observed.filterMap fun
    | .exchange _ _ _ _ => none
    | .read word => some word

def RoomToReceive (observed : List Observation) : Prop :=
  ∀ control dataOut dataIn held, .exchange control dataOut dataIn held ∈ observed → held < 8

@[simp] theorem calls_append (observed observed' : List Observation) :
    calls (observed ++ observed') = calls observed ++ calls observed' := List.filterMap_append ..

@[simp] theorem reads_append (observed observed' : List Observation) :
    reads (observed ++ observed') = reads observed ++ reads observed' := List.filterMap_append ..

theorem RoomToReceive.left (h : RoomToReceive (observed ++ observed')) : RoomToReceive observed :=
  fun control dataOut dataIn held hmem => h control dataOut dataIn held (List.mem_append_left _ hmem)

theorem RoomToReceive.right (h : RoomToReceive (observed ++ observed')) : RoomToReceive observed' :=
  fun control dataOut dataIn held hmem => h control dataOut dataIn held (List.mem_append_right _ hmem)

/-- The answers of a slave to a sequence of calls, and its state behind them. -/
def Slave.answers (slave : Slave σ) : σ → List (Word × Word) → List Word × σ
  | state, [] => ([], state)
  | state, (control, dataOut) :: calls =>
    let (dataIn, state) := slave state control dataOut
    let (rest, state) := Slave.answers slave state calls
    (dataIn :: rest, state)

theorem Slave.answers_append (slave : Slave σ) (state : σ) (first rest : List (Word × Word)) :
    slave.answers state (first ++ rest) =
      ((slave.answers state first).1 ++ (slave.answers (slave.answers state first).2 rest).1,
        (slave.answers (slave.answers state first).2 rest).2) := by
  induction first generalizing state with
  | nil => rfl
  | cons call first ih =>
    simp only [cons_append, Slave.answers, ih]

/-- The words that wait to be sent, the pending one in front. -/
def Spi1.waiting (m : Spi1 σ) : List Word :=
  (if m.spi1TransferInProgress then [m.spi1TxWordPending] else []) ++ m.spi1TxFifo.contents

/-- What goes out, comes in and is read between two states, when the guest writes some words. -/
structure Kept (slave : Slave σ) (m : Spi1 σ) (words : List Word) (observed : List Observation)
    (m' : Spi1 σ) : Prop where
  sent : m.waiting ++ words = (calls observed).map Prod.snd ++ m'.waiting
  received : RoomToReceive observed →
    m.spi1RxFifo.contents ++ (slave.answers m.slave (calls observed)).1 =
      reads observed ++ m'.spi1RxFifo.contents
  slave_eq : m'.slave = (slave.answers m.slave (calls observed)).2

theorem Kept.refl (slave : Slave σ) (m : Spi1 σ) : Kept slave m [] [] m :=
  ⟨List.append_nil _, fun _ => List.append_nil _, rfl⟩

theorem Kept.trans (h : Kept slave m words observed m') (h' : Kept slave m' words' observed' m'') :
    Kept slave m (words ++ words') (observed ++ observed') m'' := by
  refine ⟨?_, fun hroom => ?_, ?_⟩
  · grind [calls_append, map_append, h.sent, append_assoc, h'.sent]
  · have hfirst := h.received hroom.left
    have hrest := h'.received hroom.right
    rw [h.slave_eq] at hrest
    rw [calls_append, slave.answers_append, reads_append, ← append_assoc, hfirst,
      append_assoc, hrest, append_assoc]
  · rw [calls_append, slave.answers_append, h'.slave_eq, h.slave_eq]

theorem Kept.of_eq (hwaiting : m'.waiting = m.waiting)
    (hreceived : m'.spi1RxFifo.contents = m.spi1RxFifo.contents) (hslave : m'.slave = m.slave) :
    Kept slave m [] [] m' := by
  refine ⟨?_, fun _ => ?_, hslave⟩
  · rw [hwaiting]
    exact append_nil _
  · rw [hreceived]
    exact append_nil _

/-- No transfer without the exchange bit. -/
def Spi1.Quiet (m : Spi1 σ) : Prop :=
  m.spiCont1 &&& 0x0100 = 0 → m.spi1TransferInProgress = false

def Spi1.Enabled (m : Spi1 σ) : Prop := m.spiCont1 &&& 0x0600 = 0x0600

theorem enabled_clear {control : Word} (h : control &&& 0x0600 = 0x0600) :
    control &&& ~~~(0x0100 : Word) &&& 0x0600 = 0x0600 := by
  rwa [BitVec.and_assoc]

theorem nextWord_kept (m : Spi1 σ) (h : m.spi1TransferInProgress = false) :
    Kept slave m [] [] m.nextWord := by
  unfold Spi1.nextWord
  by_cases hmore : 0 < m.spi1TxFifo.size
  · rw [if_pos hmore]
    apply Kept.of_eq
    · have hpop := Fifo.contents_pop hmore.ne'
      simp only [Spi1.waiting, h, hpop]
      rfl
    · rfl
    · rfl
  · rw [if_neg hmore]
    apply Kept.of_eq
    · simp [Spi1.waiting, h]
    · rfl
    · rfl

theorem exchangeWord_kept (slave : Slave σ) (m : Spi1 σ) :
    Kept slave m [] (m.exchangeWord slave).1
      { (m.exchangeWord slave).2 with spi1TransferInProgress := false } := by
  unfold Spi1.exchangeWord
  cases hprogress : m.spi1TransferInProgress with
  | false =>
    refine ⟨?_, fun _ => append_nil _, rfl⟩
    simp only [Spi1.waiting, hprogress]
    exact append_nil _
  | true =>
    refine ⟨?_, fun hroom => ?_, rfl⟩
    · simp only [Spi1.waiting, hprogress]
      exact append_nil _
    · have hheld : m.spi1RxFifo.size < 8 := hroom _ _ _ _ (mem_singleton_self _)
      exact (Fifo.contents_push hheld _).symm

theorem spi1TransmitWord_eq (slave : Slave σ) (m : Spi1 σ) : m.spi1TransmitWord slave =
    ((m.exchangeWord slave).1, (m.exchangeWord slave).2.nextWord) := rfl

theorem spi1TransmitWord_kept (slave : Slave σ) (m : Spi1 σ) :
    Kept slave m [] (m.spi1TransmitWord slave).1 (m.spi1TransmitWord slave).2 := by
  have hnext : Kept slave { (m.exchangeWord slave).2 with spi1TransferInProgress := false } [] []
      (m.exchangeWord slave).2.nextWord := by
    exact nextWord_kept _ rfl
  have hboth := (exchangeWord_kept slave m).trans hnext
  rwa [append_nil (m.exchangeWord slave).1] at hboth

theorem nextWord_quiet (m : Spi1 σ) (h : m.spiCont1 &&& 0x0100 ≠ 0) : m.nextWord.Quiet := by
  unfold Spi1.nextWord
  split
  · intro hclear
    exact absurd hclear h
  · intro _
    rfl

theorem exchangeWord_spiCont1 (slave : Slave σ) (m : Spi1 σ) :
    (m.exchangeWord slave).2.spiCont1 = m.spiCont1 := by
  unfold Spi1.exchangeWord
  split <;> rfl

theorem exchangeWord_spi1TxFifo (slave : Slave σ) (m : Spi1 σ) :
    (m.exchangeWord slave).2.spi1TxFifo = m.spi1TxFifo := by
  unfold Spi1.exchangeWord
  split <;> rfl

theorem nextWord_enabled (h : m.Enabled) : m.nextWord.Enabled := by
  unfold Spi1.nextWord
  split
  · exact h
  · exact enabled_clear h

theorem spi1TransmitWord_quiet (slave : Slave σ) (m : Spi1 σ) (h : m.spiCont1 &&& 0x0100 ≠ 0) :
    (m.spi1TransmitWord slave).2.Quiet := by
  rw [spi1TransmitWord_eq]
  apply nextWord_quiet
  rwa [exchangeWord_spiCont1]

theorem spi1TransmitWord_enabled (slave : Slave σ) (h : m.Enabled) :
    (m.spi1TransmitWord slave).2.Enabled := by
  rw [spi1TransmitWord_eq]
  apply nextWord_enabled
  rwa [Spi1.Enabled, exchangeWord_spiCont1]

theorem spi1TransmitWord_shrinks (slave : Slave σ) (m : Spi1 σ) :
    (m.spi1TransmitWord slave).2.spi1TransferInProgress = true →
      (m.spi1TransmitWord slave).2.spi1TxFifo.size + 1 = m.spi1TxFifo.size := by
  rw [spi1TransmitWord_eq]
  unfold Spi1.nextWord
  rw [exchangeWord_spi1TxFifo]
  split
  · rename_i hmore
    intro _
    change m.spi1TxFifo.pop.2.size + 1 = _
    rw [Fifo.size_pop]
    omega
  · simp

theorem transmitLoop_due (slave : Slave σ) (n : ℕ) (h : m.due = true) :
    Spi1.transmitLoop slave (n + 1) m =
      (Spi1.transmitLoop slave n (m.spi1TransmitWord slave).2).map fun rest =>
        ((m.spi1TransmitWord slave).1 ++ rest.1, rest.2) := by
  rw [Spi1.transmitLoop, if_neg (by simp [h])]
  change (Spi1.transmitLoop slave n (m.spi1TransmitWord slave).2 >>= _) = _
  cases Spi1.transmitLoop slave n (m.spi1TransmitWord slave).2 with
  | none => rfl
  | some rest => rfl

theorem transmitLoop_done (slave : Slave σ) (n : ℕ) (h : m.due = false) :
    Spi1.transmitLoop slave n m = some ([], m) := by
  unfold Spi1.transmitLoop
  exact if_pos (by simp [h])

theorem transmitLoop_ends (slave : Slave σ) (n : ℕ) (m : Spi1 σ) (hn : m.spi1TxFifo.size < n) :
    ∃ observed m', Spi1.transmitLoop slave n m = some (observed, m') ∧
      Kept slave m [] observed m' ∧ m'.due = false ∧ (m.Quiet → m'.Quiet) ∧
        (m.Enabled → m'.Enabled) := by
  induction n generalizing m with
  | zero => omega
  | succ n ih =>
    cases hdue : m.due with
    | false => exact ⟨[], m, transmitLoop_done slave _ hdue, Kept.refl slave m, hdue, id, id⟩
    | true =>
      rw [transmitLoop_due slave n hdue]
      have hprogress : m.spi1TransferInProgress = true := (Bool.and_eq_true_iff.mp hdue).1
      have hquiet (h : m.Quiet) : (m.spi1TransmitWord slave).2.Quiet := by
        apply spi1TransmitWord_quiet
        intro hclear
        exact Bool.false_ne_true ((h hclear).symm.trans hprogress)
      have hfirst := spi1TransmitWord_kept slave m
      by_cases hlast : (m.spi1TransmitWord slave).2.spi1TransferInProgress = true
      · have hsize := spi1TransmitWord_shrinks slave m hlast
        obtain ⟨rest, m', hrest, hkept, hended, hq, he⟩ := ih (m.spi1TransmitWord slave).2 (by omega)
        rw [hrest]
        exact ⟨_, m', rfl, hfirst.trans hkept, hended, fun h => hq (hquiet h),
          fun h => he (spi1TransmitWord_enabled slave h)⟩
      · have hdone : (m.spi1TransmitWord slave).2.due = false := by
          simp [Bool.not_eq_true, Spi1.due, hlast]
        rw [transmitLoop_done slave n hdone]
        exact ⟨_, (m.spi1TransmitWord slave).2, rfl, hfirst.trans (Kept.refl ..), hdone, hquiet,
          spi1TransmitWord_enabled slave⟩

end Cloudpilot.Hardware.EmRegsVZ
