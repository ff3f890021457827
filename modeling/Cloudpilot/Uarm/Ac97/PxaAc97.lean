import Mathlib.Tactic
import Cloudpilot.Emulator.RingBuffers
import Cloudpilot.Library.Words

/-! # The AC97 controller

Five channels with a FIFO of 16 words, a control and a status register each. The clients are
the codecs: what their register handlers answer is up to the event that calls them. Requests
to the DMA controller are left out, as they only set its request bits.
-/

namespace Cloudpilot.Uarm.Ac97

open Cloudpilot.Emulator

abbrev Byte := BitVec 8
abbrev Word := BitVec 32

/-- The FIFOs with a status register: those of the primary audio codec (PCM), the receive FIFO of the
secondary audio codec (microphone) and those of the primary modem. -/
inductive Channel where
  | pcmOut
  | pcmIn
  | mic
  | modemOut
  | modemIn
  deriving DecidableEq

def Channel.isRxFifo : Channel → Bool
  | .pcmOut => false
  | .pcmIn => true
  | .mic => true
  | .modemOut => false
  | .modemIn => true

inductive Codec where
  | primaryAudio
  | secondaryAudio
  | primaryModem
  | secondaryModem
  deriving DecidableEq

/-- The control registers `pocr`, `picr`, `mccr`, `mocr`, `micr` are `icr` of the channels, the status
registers `posr`, `pisr`, `mcsr`, `mosr`, `misr` are `isr`. -/
structure SocAC97 where
  icr : Channel → Byte
  isr : Channel → Byte
  car : Byte
  gcr : Word
  gsr : Word
  fifo : Channel → Fifo Word 16
  prevReadVal : Codec → BitVec 16
  /-- The level of `PXA_I_AC97`. -/
  line : Bool

/-- `socAC97Init`. -/
def SocAC97.init : SocAC97 where
  icr := fun _ => 0
  isr := fun _ => 0
  car := 0
  gcr := 0
  gsr := 0x100
  fifo := fun _ => Fifo.new 16 (by decide)
  prevReadVal := fun _ => 0
  line := false

namespace SocAC97

def withIcr (ac97 : SocAC97) (ch : Channel) (val : Byte) : SocAC97 :=
  { ac97 with icr := Function.update ac97.icr ch val }

def withIsr (ac97 : SocAC97) (ch : Channel) (val : Byte) : SocAC97 :=
  { ac97 with isr := Function.update ac97.isr ch val }

/-- The level that `socAC97prvIrqUpdate` computes. -/
def irq (ac97 : SocAC97) : Bool :=
  ac97.isr .pcmOut &&& ac97.icr .pcmOut <<< 1 &&& 0x14 ≠ 0 ||
    ac97.isr .pcmIn &&& ac97.icr .pcmIn <<< 1 &&& 0x14 ≠ 0 ||
    ac97.icr .mic &&& ac97.isr .mic <<< 1 &&& 0x14 ≠ 0 ||
    ac97.icr .modemOut &&& ac97.isr .modemOut <<< 1 &&& 0x14 ≠ 0 ||
    ac97.icr .modemIn &&& ac97.isr .modemIn <<< 1 &&& 0x14 ≠ 0 ||
    ac97.gcr &&& ac97.gsr &&& 0x300 ≠ 0 ||
    ac97.gsr &&& 0x000c0000 ≠ 0

def prvIrqUpdate (ac97 : SocAC97) : SocAC97 := { ac97 with line := ac97.irq }

/-- The condition for a service request. -/
def fifoReady (ch : Channel) (numItems : ℕ) : Bool := if ch.isRxFifo then numItems ≥ 8 else numItems < 8

/-- `socAC97PrvFifoDmaUpdate`. -/
def prvFifoDmaUpdate (ac97 : SocAC97) (ch : Channel) : SocAC97 :=
  if fifoReady ch (ac97.fifo ch).size then ac97.withIsr ch (ac97.isr ch ||| 4)
  else ac97.withIsr ch (ac97.isr ch &&& ~~~4)

/-- `socAC97PrvFifoAdd`. -/
def prvFifoAdd (ac97 : SocAC97) (ch : Channel) (val : Word) : Bool × SocAC97 :=
  if (ac97.fifo ch).size = 16 then
    (false, (ac97.withIsr ch (ac97.isr ch ||| 0x10)).prvFifoDmaUpdate ch)
  else
    (true, { ac97 with
      fifo := Function.update ac97.fifo ch ((ac97.fifo ch).push val) }.prvFifoDmaUpdate ch)

/-- `socAC97PrvFifoGet`, with the word that is stored at the destination. -/
def prvFifoGet (ac97 : SocAC97) (ch : Channel) : Bool × Word × SocAC97 :=
  if (ac97.fifo ch).size = 0 then
    (false, 0, (ac97.withIsr ch (ac97.isr ch ||| 0x10)).prvFifoDmaUpdate ch)
  else
    (true, (ac97.fifo ch).pop.1, { ac97 with
      fifo := Function.update ac97.fifo ch (ac97.fifo ch).pop.2 }.prvFifoDmaUpdate ch)

/-- Writes to the registers before those of the codecs, none where nothing is written. -/
def writeRegister (ac97 : SocAC97) (reg : ℕ) (val : Word) : Option SocAC97 :=
  match reg with
  | 0 => some (ac97.withIcr .pcmOut (val.setWidth 8 &&& 0x0e)).prvIrqUpdate
  | 1 => some (ac97.withIcr .pcmIn (val.setWidth 8 &&& 0x0a)).prvIrqUpdate
  | 2 => some (ac97.withIcr .mic (val.setWidth 8 &&& 0x0a)).prvIrqUpdate
  | 3 => some { ac97 with
      gcr := val &&& 0x000c033f
      gsr := (ac97.gsr &&& ~~~8) ||| (val &&& 8) }.prvIrqUpdate
  | 4 => some (ac97.withIsr .pcmOut (ac97.isr .pcmOut &&& ~~~(val.setWidth 8 &&& 0x10))).prvIrqUpdate
  | 5 => some (ac97.withIsr .pcmIn (ac97.isr .pcmIn &&& ~~~(val.setWidth 8 &&& 0x18))).prvIrqUpdate
  | 6 => some (ac97.withIsr .mic (ac97.isr .mic &&& ~~~(val.setWidth 8 &&& 0x18))).prvIrqUpdate
  | 7 => some { ac97 with gsr := ac97.gsr &&& ~~~(val &&& 0x000c8c01) }.prvIrqUpdate
  | 64 => some (ac97.withIcr .modemOut (val.setWidth 8 &&& 0x0a)).prvIrqUpdate
  | 66 => some (ac97.withIcr .modemIn (val.setWidth 8 &&& 0x0a)).prvIrqUpdate
  | 68 => some
      (ac97.withIsr .modemOut (ac97.isr .modemOut &&& ~~~(val.setWidth 8 &&& 0x10))).prvIrqUpdate
  | 70 => some
      (ac97.withIsr .modemIn (ac97.isr .modemIn &&& ~~~(val.setWidth 8 &&& 0x18))).prvIrqUpdate
  | _ => none

/-- Writes to the codec access register. -/
def writeCar (ac97 : SocAC97) (val : Word) : SocAC97 :=
  { ac97 with car := ac97.car &&& (0xfe ||| (val.setWidth 8 &&& 1)) }

def readRegister (ac97 : SocAC97) (reg : ℕ) : Word × SocAC97 :=
  match reg with
  | 0 => ((ac97.icr .pcmOut).setWidth 32, ac97)
  | 1 => ((ac97.icr .pcmIn).setWidth 32, ac97)
  | 2 => ((ac97.icr .mic).setWidth 32, ac97)
  | 3 => (ac97.gcr, ac97)
  | 4 => ((ac97.isr .pcmOut).setWidth 32, ac97)
  | 5 => ((ac97.isr .pcmIn).setWidth 32, ac97)
  | 6 => ((ac97.isr .mic).setWidth 32, ac97)
  | 7 => (ac97.gsr, ac97)
  | 8 => if ac97.car ≠ 0 then (1, ac97) else (0, { ac97 with car := 1 })
  | 64 => ((ac97.icr .modemOut).setWidth 32, ac97)
  | 66 => ((ac97.icr .modemIn).setWidth 32, ac97)
  | 68 => ((ac97.isr .modemOut).setWidth 32, ac97)
  | 70 => ((ac97.isr .modemIn).setWidth 32, ac97)
  | _ => (0, ac97)

def codecOf (reg : ℕ) : Option Codec :=
  if reg ≥ 0x080 ∧ reg < 0x0c0 then some .primaryAudio
  else if reg ≥ 0x0c0 ∧ reg < 0x100 then some .secondaryAudio
  else if reg ≥ 0x100 ∧ reg < 0x140 then some .primaryModem
  else if reg ≥ 0x140 ∧ reg < 0x180 then some .secondaryModem
  else none

/-- What the handler of a codec answers: whether it takes the access, and what a read leaves in
`prevReadVal`. Without a handler the answer is no and the value stays. -/
structure Answer where
  taken : Bool
  regVal : BitVec 16

def codecAccess (ac97 : SocAC97) (cd : Codec) (write : Bool) (answer : Answer) : Word × SocAC97 :=
  let readVal := ac97.prevReadVal cd
  let ac97 :=
    if write then
      if answer.taken then { ac97 with gsr := ac97.gsr ||| 0x00080000 } else ac97
    else
      let ac97 := { ac97 with prevReadVal := Function.update ac97.prevReadVal cd answer.regVal }
      if answer.taken then { ac97 with gsr := ac97.gsr ||| 0x00040000 } else ac97
  (readVal.setWidth 32, { ac97 with car := 0 }.prvIrqUpdate)

/-- The result, the bytes that are written to the buffer of the guest, and their value. -/
structure Access where
  ok : Bool
  written : ℕ
  val : Word
  ac97 : SocAC97

def pxaAc97Base : Word := 0x40500000

def register (pa : Word) : ℕ := ((pa - pxaAc97Base) >>> 2).toNat

/-- A guest reads words of FIFOs as 32 bits, whatever its buffer is. -/
def readFifo (ac97 : SocAC97) (ch : Channel) : Access :=
  let (ok, val, ac97) := ac97.prvFifoGet ch
  ⟨ok, 4, val, ac97⟩

def writeFifo (ac97 : SocAC97) (ch : Channel) (val : Word) : Access :=
  let (ok, ac97) := ac97.prvFifoAdd ch val
  ⟨ok, 0, val, ac97⟩

/-- Reads of `socAC97PrvMemAccessF` with two or four bytes. -/
def memRead (ac97 : SocAC97) (pa : Word) (size : ℕ) (answer : Answer) : Access :=
  match register pa with
  | 16 => ac97.readFifo .pcmIn
  | 24 => ac97.readFifo .mic
  | 80 => ac97.readFifo .modemIn
  | reg =>
    match codecOf reg with
    | some cd =>
      let (val, ac97) := ac97.codecAccess cd false answer
      ⟨true, size, val, ac97⟩
    | none =>
      let (val, ac97) := ac97.readRegister reg
      ⟨true, size, val, ac97⟩

/-- Writes of `socAC97PrvMemAccessF` with two or four bytes. -/
def memWrite (ac97 : SocAC97) (pa : Word) (size : ℕ) (val : Word) (answer : Answer) : Access :=
  let val := if size = 2 then val &&& 0xffff else val
  match register pa with
  | 8 => ⟨true, 0, val, ac97.writeCar val⟩
  | 16 => ac97.writeFifo .pcmOut val
  | 24 => ⟨false, 0, val, ac97⟩
  | 80 => ac97.writeFifo .modemOut val
  | reg =>
    match codecOf reg with
    | some cd => ⟨true, 0, val, (ac97.codecAccess cd true answer).2⟩
    | none => ⟨true, 0, val, (ac97.writeRegister reg val).getD ac97⟩

end SocAC97

open Cloudpilot.Emulator Cloudpilot.Library

variable {s s' : SocAC97} {ch ch' : Channel} {val : Word} {x y status : Byte} {failed : Bool}
  {numItems : ℕ}

/-- A service request or an error that is enabled. -/
def Raises (status control : Byte) : Prop :=
  status.getLsbD 2 = true ∧ control.getLsbD 1 = true ∨ status.getLsbD 4 = true ∧ control.getLsbD 3 = true

instance (status control : Byte) : Decidable (Raises status control) :=
  inferInstanceAs (Decidable (_ ∨ _))

namespace SocAC97

def ChannelRaises (s : SocAC97) (ch : Channel) : Prop := Raises (s.isr ch) (s.icr ch)

def GlobalRaises (s : SocAC97) : Prop := s.gcr &&& s.gsr &&& 0x300 ≠ 0 ∨ s.gsr &&& 0x000c0000 ≠ 0

/-- The interrupt is asked for. -/
def Raised (s : SocAC97) : Prop := (∃ ch, s.ChannelRaises ch) ∨ s.GlobalRaises

/-- By a PCM channel or the global status. -/
def PcmRaised (s : SocAC97) : Prop :=
  s.ChannelRaises .pcmOut ∨ s.ChannelRaises .pcmIn ∨ s.GlobalRaises

/-- The channels of the microphone and of the modem. -/
def OtherRaised (s : SocAC97) : Prop :=
  s.ChannelRaises .mic ∨ s.ChannelRaises .modemOut ∨ s.ChannelRaises .modemIn

/-- Only the microphone or the modem ask for the interrupt. -/
def Overlooked (s : SocAC97) : Prop := s.OtherRaised ∧ ¬ s.PcmRaised

/-- Their control registers have no other bits than the two enable bits. -/
def Masked (s : SocAC97) : Prop :=
  ∀ ch ∈ [Channel.mic, .modemOut, .modemIn],
    (s.icr ch).getLsbD 2 = false ∧ (s.icr ch).getLsbD 4 = false

theorem raised_iff (s : SocAC97) : s.Raised ↔ s.PcmRaised ∨ s.OtherRaised := by
  constructor
  · rintro (⟨ch, h⟩ | h)
    · cases ch with
      | pcmOut => exact Or.inl (Or.inl h)
      | pcmIn => exact Or.inl (Or.inr (Or.inl h))
      | mic => exact Or.inr (Or.inl h)
      | modemOut => exact Or.inr (Or.inr (Or.inl h))
      | modemIn => exact Or.inr (Or.inr (Or.inr h))
    · exact Or.inl (Or.inr (Or.inr h))
  · rintro ((h | h | h) | h | h | h)
    · exact Or.inl ⟨_, h⟩
    · exact Or.inl ⟨_, h⟩
    · exact Or.inr h
    · exact Or.inl ⟨_, h⟩
    · exact Or.inl ⟨_, h⟩
    · exact Or.inl ⟨_, h⟩

end SocAC97

theorem and_shift_ne_zero (x y : Byte) : x &&& y <<< 1 &&& 0x14 ≠ 0 ↔
    x.getLsbD 2 = true ∧ y.getLsbD 1 = true ∨ x.getLsbD 4 = true ∧ y.getLsbD 3 = true := by
  have hmask : (0x14 : Byte) = 1#8 <<< 2 ||| 1#8 <<< 4 := rfl
  have hbit (k : ℕ) (hk : k < 7) : (x &&& y <<< 1).getLsbD (k + 1) = true ↔
      x.getLsbD (k + 1) = true ∧ y.getLsbD k = true := by grind
  rw [hmask, BitTest.and_or_ne_zero, BitTest.and_bit_ne_zero (by decide),
    BitTest.and_bit_ne_zero (by decide), hbit 1 (by decide), hbit 3 (by decide)]

/-- The operands of three channels are exchanged, and so these channels are never seen. -/
theorem irq_iff (h : s.Masked) : s.irq = true ↔ s.PcmRaised := by
  have hunseen {ch : Channel} (hch : ch ∈ [Channel.mic, .modemOut, .modemIn]) :
      ¬ s.icr ch &&& s.isr ch <<< 1 &&& 0x14 ≠ 0 := by
    obtain ⟨h2, h4⟩ := h ch hch
    rw [and_shift_ne_zero, h2, h4]
    simp
  unfold SocAC97.irq SocAC97.PcmRaised SocAC97.GlobalRaises SocAC97.ChannelRaises Raises
  simp only [Bool.or_eq_true, decide_eq_true_eq, and_shift_ne_zero (s.isr _), or_assoc]
  have hmic := hunseen (show Channel.mic ∈ _ by simp)
  have hmodemOut := hunseen (show Channel.modemOut ∈ _ by simp)
  have hmodemIn := hunseen (show Channel.modemIn ∈ _ by simp)
  tauto

theorem prvIrqUpdate_exact (h : s.Masked) :
    (s.prvIrqUpdate.line = true ↔ s.prvIrqUpdate.Raised) ↔ ¬ s.Overlooked := by
  have hline : s.prvIrqUpdate.line = true ↔ s.PcmRaised := irq_iff h
  have hraised : s.prvIrqUpdate.Raised ↔ s.PcmRaised ∨ s.OtherRaised := s.raised_iff
  rw [hline, hraised]
  unfold SocAC97.Overlooked
  by_cases hpcm : s.PcmRaised <;> simp [hpcm]

def statusAfter (ch : Channel) (status : Byte) (failed : Bool) (numItems : ℕ) : Byte :=
  let status := if failed then status ||| 0x10 else status
  if SocAC97.fifoReady ch numItems then status ||| 4 else status &&& ~~~4

/-- What an operation on a FIFO changes. -/
structure FifoStep (s : SocAC97) (ch : Channel) (failed : Bool) (fifo : Fifo Word 16) (s' : SocAC97) :
    Prop where
  isr : s'.isr = Function.update s.isr ch (statusAfter ch (s.isr ch) failed fifo.size)
  fifo : s'.fifo = Function.update s.fifo ch fifo
  icr : s'.icr = s.icr
  gcr : s'.gcr = s.gcr
  gsr : s'.gsr = s.gsr
  line : s'.line = s.line

theorem prvFifoDmaUpdate_step (s : SocAC97) (ch : Channel) :
    FifoStep s ch false (s.fifo ch) (s.prvFifoDmaUpdate ch) := by
  unfold SocAC97.prvFifoDmaUpdate
  split
  · rename_i hready
    refine ⟨?_, (Function.update_eq_self ..).symm, rfl, rfl, rfl, rfl⟩
    rw [statusAfter, if_pos hready]
    rfl
  · rename_i hready
    refine ⟨?_, (Function.update_eq_self ..).symm, rfl, rfl, rfl, rfl⟩
    rw [statusAfter, if_neg hready]
    rfl

theorem failed_step (s : SocAC97) (ch : Channel) :
    FifoStep s ch true (s.fifo ch) ((s.withIsr ch (s.isr ch ||| 0x10)).prvFifoDmaUpdate ch) := by
  have hstep := prvFifoDmaUpdate_step (s.withIsr ch (s.isr ch ||| 0x10)) ch
  refine ⟨?_, hstep.fifo, hstep.icr, hstep.gcr, hstep.gsr, hstep.line⟩
  rw [hstep.isr]
  unfold SocAC97.withIsr
  dsimp only
  rw [Function.update_self, Function.update_idem]
  rfl

theorem stored_step (s : SocAC97) (ch : Channel) (fifo : Fifo Word 16) :
    FifoStep s ch false fifo
      (SocAC97.prvFifoDmaUpdate { s with fifo := Function.update s.fifo ch fifo } ch) := by
  have hstep := prvFifoDmaUpdate_step { s with fifo := Function.update s.fifo ch fifo } ch
  refine ⟨?_, ?_, hstep.icr, hstep.gcr, hstep.gsr, hstep.line⟩
  · simp [hstep.isr]
  · simp [hstep.fifo]

theorem statusAfter_two (ch : Channel) (status : Byte) (failed : Bool) (numItems : ℕ) :
    (statusAfter ch status failed numItems).getLsbD 2 = SocAC97.fifoReady ch numItems := by
  unfold statusAfter
  cases hready : SocAC97.fifoReady ch numItems <;> simp

theorem statusAfter_four (ch : Channel) (status : Byte) (failed : Bool) (numItems : ℕ) :
    (statusAfter ch status failed numItems).getLsbD 4 = (status.getLsbD 4 || failed) := by
  unfold statusAfter
  cases hready : SocAC97.fifoReady ch numItems
  · cases failed <;> simp
  · grind

/-- The interrupt is asked for by something else than a channel. -/
def SocAC97.RaisedBesides (s : SocAC97) (ch : Channel) : Prop :=
  (∃ ch' ≠ ch, s.ChannelRaises ch') ∨ s.GlobalRaises

theorem raised_iff_besides (s : SocAC97) (ch : Channel) :
    s.Raised ↔ s.RaisedBesides ch ∨ s.ChannelRaises ch := by
  constructor
  · rintro (⟨ch', h⟩ | h)
    · by_cases hsame : ch' = ch
      · grind
      · exact Or.inl (Or.inl ⟨ch', hsame, h⟩)
    · exact Or.inl (Or.inr h)
  · rintro ((⟨ch', -, h⟩ | h) | h)
    · exact Or.inl ⟨ch', h⟩
    · exact Or.inr h
    · exact Or.inl ⟨ch, h⟩

theorem FifoStep.besides {fifo : Fifo Word 16} (h : FifoStep s ch failed fifo s') :
    s'.RaisedBesides ch ↔ s.RaisedBesides ch := by
  have hother (ch' : Channel) (hne : ch' ≠ ch) : s'.ChannelRaises ch' ↔ s.ChannelRaises ch' := by
    rw [SocAC97.ChannelRaises, h.isr, h.icr, Function.update_of_ne hne]
    rfl
  have hglobal : s'.GlobalRaises ↔ s.GlobalRaises := by
    rw [SocAC97.GlobalRaises, h.gcr, h.gsr]
    rfl
  unfold SocAC97.RaisedBesides
  constructor <;> grind

/-- The level of the channel after an operation that leaves a number of words in its FIFO. -/
def SocAC97.RaisesAfter (s : SocAC97) (ch : Channel) (failed : Bool) (numItems : ℕ) : Prop :=
  fifoReady ch numItems = true ∧ (s.icr ch).getLsbD 1 = true ∨
    ((s.isr ch).getLsbD 4 = true ∨ failed = true) ∧ (s.icr ch).getLsbD 3 = true

/-- The operation does not change what the interrupt is asked for. -/
def SocAC97.LevelKept (s : SocAC97) (ch : Channel) (failed : Bool) (numItems : ℕ) : Prop :=
  s.RaisedBesides ch ∨ (s.RaisesAfter ch failed numItems ↔ s.ChannelRaises ch)

/-- No level is computed in a FIFO operation, so that the line stays as it is. -/
theorem FifoStep.exact {fifo : Fifo Word 16} (h : FifoStep s ch failed fifo s')
    (hline : s.line = true ↔ s.Raised) :
    (s'.line = true ↔ s'.Raised) ↔ s.LevelKept ch failed fifo.size := by
  have hchannel : s'.ChannelRaises ch ↔ s.RaisesAfter ch failed fifo.size := by
    unfold SocAC97.ChannelRaises SocAC97.RaisesAfter Raises
    rw [h.isr, h.icr, Function.update_self, statusAfter_two, statusAfter_four, Bool.or_eq_true]
  rw [h.line, hline, raised_iff_besides s ch, raised_iff_besides s' ch, h.besides, hchannel]
  unfold SocAC97.LevelKept
  by_cases hbesides : s.RaisedBesides ch <;> grind

end Cloudpilot.Uarm.Ac97
