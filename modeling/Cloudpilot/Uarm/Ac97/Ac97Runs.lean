import Cloudpilot.Uarm.Ac97.PxaAc97

/-! # Runs of the AC97 controller

Guest accesses and the transfers of the codecs, with what was put into each FIFO and taken out
of it so far.
-/
namespace Cloudpilot.Uarm.Ac97
open Cloudpilot.Emulator Cloudpilot.Library

variable {s s' t : SocAC97} {ch : Channel} {val : Word} {reg : ℕ}

/-- An access has four bytes or two. The codecs transfer on the channels with a FIFO for them:
`socAC97clientClientWantData` takes, `socAC97clientClientHaveData` adds. -/
inductive Event where
  | read (pa : Word) (wide : Bool) (answer : SocAC97.Answer)
  | write (pa : Word) (wide : Bool) (val : Word) (answer : SocAC97.Answer)
  | wantData (ch : Channel) (h : ch.isRxFifo = false)
  | haveData (ch : Channel) (h : ch.isRxFifo = true) (data : Word)

def accessSize (wide : Bool) : ℕ := if wide then 4 else 2

/-- The bytes that are written to the buffer of the guest, and the state. -/
def SocAC97.step (s : SocAC97) : Event → ℕ × SocAC97
  | .read pa wide answer =>
    ((s.memRead pa (accessSize wide) answer).written, (s.memRead pa (accessSize wide) answer).ac97)
  | .write pa wide val answer =>
    ((s.memWrite pa (accessSize wide) val answer).written,
      (s.memWrite pa (accessSize wide) val answer).ac97)
  | .wantData ch _ => (0, (s.prvFifoGet ch).2.2)
  | .haveData ch _ data => (0, (s.prvFifoAdd ch data).2)

def Event.bufferSize : Event → ℕ
  | .read _ wide _ => accessSize wide
  | .write _ wide _ _ => accessSize wide
  | _ => 0

/-- An operation on a FIFO. -/
inductive Use where
  | add (ch : Channel) (val : Word)
  | get (ch : Channel)

def Use.channel : Use → Channel
  | .add ch _ => ch
  | .get ch => ch

def Event.use : Event → Option Use
  | .read pa _ _ =>
    match SocAC97.register pa with
    | 16 => some (.get .pcmIn)
    | 24 => some (.get .mic)
    | 80 => some (.get .modemIn)
    | _ => none
  | .write pa wide val _ =>
    let val := if accessSize wide = 2 then val &&& 0xffff else val
    match SocAC97.register pa with
    | 16 => some (.add .pcmOut val)
    | 80 => some (.add .modemOut val)
    | _ => none
  | .wantData ch _ => some (.get ch)
  | .haveData ch _ data => some (.add ch data)

/-- The state with all words that went through the FIFOs. -/
structure History where
  ac97 : SocAC97
  used : Channel → Bool
  accepted : Channel → List Word
  delivered : Channel → List Word

namespace History

def init : History := ⟨.init, fun _ => false, fun _ => [], fun _ => []⟩

def step (h : History) (event : Event) : History where
  ac97 := (h.ac97.step event).2
  used := match event.use with
    | some use => Function.update h.used use.channel true
    | none => h.used
  accepted := match event.use with
    | some (.add ch val) =>
      if (h.ac97.prvFifoAdd ch val).1 then Function.update h.accepted ch (h.accepted ch ++ [val])
      else h.accepted
    | _ => h.accepted
  delivered := match event.use with
    | some (.get ch) =>
      if (h.ac97.prvFifoGet ch).1 then
        Function.update h.delivered ch (h.delivered ch ++ [(h.ac97.prvFifoGet ch).2.1])
      else h.delivered
    | _ => h.delivered

end History

/-- What an access that is no operation on a FIFO leaves alone. -/
structure RegisterStep (s s' : SocAC97) : Prop where
  fifo : s'.fifo = s.fifo
  request : ∀ ch, (s'.isr ch).getLsbD 2 = (s.isr ch).getLsbD 2
  masked : s.Masked → s'.Masked

theorem RegisterStep.refl (s : SocAC97) : RegisterStep s s := ⟨rfl, fun _ => rfl, fun h => h⟩

theorem withIcr_step (s : SocAC97) (ch : Channel) {mask val : Byte}
    (hmask : ch = .pcmOut ∨ mask.getLsbD 2 = false ∧ mask.getLsbD 4 = false) :
    RegisterStep s (s.withIcr ch (val &&& mask)) := by
  refine ⟨rfl, fun _ => rfl, fun h ch' hch' => ?_⟩
  change (Function.update s.icr ch (val &&& mask) ch').getLsbD 2 = false ∧
    (Function.update s.icr ch (val &&& mask) ch').getLsbD 4 = false
  by_cases hsame : ch' = ch
  · grind
  · rw [Function.update_of_ne hsame]
    exact h ch' hch'

theorem withIsr_step (s : SocAC97) (ch : Channel) {mask val : Byte} (hmask : mask.getLsbD 2 = false) :
    RegisterStep s (s.withIsr ch (s.isr ch &&& ~~~(val &&& mask))) := by
  refine ⟨rfl, fun ch' => ?_, fun h => h⟩
  change (Function.update s.isr ch (s.isr ch &&& ~~~(val &&& mask)) ch').getLsbD 2 = _
  by_cases hsame : ch' = ch <;> grind

/-- A step after which the level is computed. -/
structure Recomputed (s s' : SocAC97) : Prop extends RegisterStep s s' where
  line : s'.line = s'.irq

theorem RegisterStep.recomputed (h : RegisterStep s t) : Recomputed s t.prvIrqUpdate :=
  ⟨⟨h.fifo, h.request, h.masked⟩, rfl⟩

theorem writeRegister_recomputed (h : s.writeRegister reg val = some s') : Recomputed s s' := by
  unfold SocAC97.writeRegister at h
  split at h
  case h_13 => cases h
  all_goals
    cases h
    apply RegisterStep.recomputed
  · exact withIcr_step s _ (Or.inl rfl)
  · exact withIcr_step s _ (Or.inr (by decide))
  · exact withIcr_step s _ (Or.inr (by decide))
  · exact ⟨rfl, fun _ => rfl, fun h => h⟩
  · exact withIsr_step s _ (by decide)
  · exact withIsr_step s _ (by decide)
  · exact withIsr_step s _ (by decide)
  · exact ⟨rfl, fun _ => rfl, fun h => h⟩
  · exact withIcr_step s _ (Or.inr (by decide))
  · exact withIcr_step s _ (Or.inr (by decide))
  · exact withIsr_step s _ (by decide)
  · exact withIsr_step s _ (by decide)

theorem codecAccess_recomputed (s : SocAC97) (cd : Codec) (write : Bool) (answer : SocAC97.Answer) :
    Recomputed s (s.codecAccess cd write answer).2 := by
  apply RegisterStep.recomputed
  split
  all_goals
    split
    · exact ⟨rfl, fun _ => rfl, fun h => h⟩
    · exact ⟨rfl, fun _ => rfl, fun h => h⟩

/-- A step after which the level is not computed. -/
structure LineKept (s s' : SocAC97) : Prop extends RegisterStep s s' where
  line : s'.line = s.line
  raised : s'.Raised ↔ s.Raised

theorem readRegister_kept (s : SocAC97) (reg : ℕ) : LineKept s (s.readRegister reg).2 := by
  unfold SocAC97.readRegister
  split
  case h_9 =>
    split
    · exact ⟨RegisterStep.refl s, rfl, Iff.rfl⟩
    · exact ⟨⟨rfl, fun _ => rfl, fun h => h⟩, rfl, Iff.rfl⟩
  all_goals exact ⟨RegisterStep.refl s, rfl, Iff.rfl⟩

def computesLevel (reg : ℕ) : Bool := reg ∈ [0, 1, 2, 3, 4, 5, 6, 7, 64, 66, 68, 70]

theorem writeRegister_eq_none (h : computesLevel reg = false) : s.writeRegister reg val = none := by
  unfold SocAC97.writeRegister
  split
  case h_13 => rfl
  all_goals cases h

theorem exists_writeRegister (h : computesLevel reg = true) (s : SocAC97) (val : Word) :
    ∃ s', s.writeRegister reg val = some s' := by
  have hmem : reg ∈ [0, 1, 2, 3, 4, 5, 6, 7, 64, 66, 68, 70] := of_decide_eq_true h
  simp only [List.mem_cons, List.not_mem_nil, or_false] at hmem
  obtain rfl | rfl | rfl | rfl | rfl | rfl | rfl | rfl | rfl | rfl | rfl | rfl := hmem
  all_goals exact ⟨_, rfl⟩

/-- An event after which the level is computed. -/
def Event.recomputes : Event → Bool
  | .read pa _ _ => (SocAC97.codecOf (SocAC97.register pa)).isSome
  | .write pa _ _ _ =>
    (SocAC97.codecOf (SocAC97.register pa)).isSome || computesLevel (SocAC97.register pa)
  | _ => false

variable {event : Event} {h : History}

/-- An access that is no operation on a FIFO. -/
structure OtherAccess (s : SocAC97) (event : Event) : Prop where
  written : (s.step event).1 ≤ event.bufferSize
  recomputed : event.recomputes = true → Recomputed s (s.step event).2
  kept : event.recomputes = false → LineKept s (s.step event).2

theorem ne_fifo_of_use_eq_none {pa : Word} {wide : Bool} {answer : SocAC97.Answer}
    (huse : (Event.read pa wide answer).use = none) :
    SocAC97.register pa ≠ 16 ∧ SocAC97.register pa ≠ 24 ∧ SocAC97.register pa ≠ 80 := by
  refine ⟨fun hreg => ?_, fun hreg => ?_, fun hreg => ?_⟩
  all_goals
    rw [Event.use, hreg] at huse
    cases huse

theorem fifo_of_use_eq_get {pa : Word} {wide : Bool} {answer : SocAC97.Answer}
    (huse : (Event.read pa wide answer).use = some (.get ch)) :
    SocAC97.register pa = 16 ∧ ch = .pcmIn ∨ SocAC97.register pa = 24 ∧ ch = .mic ∨
      SocAC97.register pa = 80 ∧ ch = .modemIn := by
  rw [Event.use] at huse
  split at huse
  · grind
  · grind
  · grind
  · cases huse

theorem memRead_of_ne_fifo (s : SocAC97) {pa : Word} (size : ℕ) (answer : SocAC97.Answer)
    (hreg : SocAC97.register pa ≠ 16 ∧ SocAC97.register pa ≠ 24 ∧ SocAC97.register pa ≠ 80) :
    s.memRead pa size answer =
      match SocAC97.codecOf (SocAC97.register pa) with
      | some cd => ⟨true, size, (s.codecAccess cd false answer).1, (s.codecAccess cd false answer).2⟩
      | none => ⟨true, size, (s.readRegister (SocAC97.register pa)).1,
          (s.readRegister (SocAC97.register pa)).2⟩ := by
  unfold SocAC97.memRead
  split
  · omega
  · omega
  · omega
  · rfl

theorem read_other (pa : Word) (wide : Bool) (answer : SocAC97.Answer)
    (huse : (Event.read pa wide answer).use = none) : OtherAccess s (.read pa wide answer) := by
  have hread := memRead_of_ne_fifo s (accessSize wide) answer (ne_fifo_of_use_eq_none huse)
  cases hcodec : SocAC97.codecOf (SocAC97.register pa) with
  | some cd =>
    rw [hcodec] at hread
    refine ⟨?_, fun _ => ?_, fun hnot => ?_⟩
    · rw [SocAC97.step, hread]
      exact Nat.le_refl _
    · rw [SocAC97.step, hread]
      exact codecAccess_recomputed s cd false answer
    · rw [Event.recomputes, hcodec] at hnot
      cases hnot
  | none =>
    rw [hcodec] at hread
    refine ⟨?_, fun hrecomputes => ?_, fun _ => ?_⟩
    · rw [SocAC97.step, hread]
      exact Nat.le_refl _
    · rw [Event.recomputes, hcodec] at hrecomputes
      cases hrecomputes
    · rw [SocAC97.step, hread]
      exact readRegister_kept s _

theorem write_other (pa : Word) (wide : Bool) (val : Word) (answer : SocAC97.Answer)
    (huse : (Event.write pa wide val answer).use = none) :
    OtherAccess s (.write pa wide val answer) := by
  rw [Event.use] at huse
  split at huse
  · cases huse
  · cases huse
  · rename_i h16 h80
    have hnone {reg : ℕ} (hreg : SocAC97.register pa = reg) (hcodec : SocAC97.codecOf reg = none)
        (hlevel : computesLevel reg = false) :
        (Event.write pa wide val answer).recomputes = false := by
      rw [Event.recomputes, hreg, hcodec, hlevel]
      rfl
    refine ⟨?_, fun hrecomputes => ?_, fun hnot => ?_⟩
    · rw [SocAC97.step]
      unfold SocAC97.memWrite
      dsimp only
      split
      · simp
      · contradiction
      · simp
      · contradiction
      · grind
    · rw [SocAC97.step]
      unfold SocAC97.memWrite
      dsimp only
      split
      · rename_i hreg
        rw [hnone hreg rfl rfl] at hrecomputes
        cases hrecomputes
      · contradiction
      · rename_i hreg
        rw [hnone hreg rfl rfl] at hrecomputes
        cases hrecomputes
      · contradiction
      · split
        · exact codecAccess_recomputed s _ true answer
        · rename_i hcodec
          rw [Event.recomputes, hcodec, Option.isSome_none, Bool.false_or] at hrecomputes
          obtain ⟨s', hs'⟩ := exists_writeRegister hrecomputes s
            (if accessSize wide = 2 then val &&& 0xffff else val)
          rw [hs', Option.getD_some]
          exact writeRegister_recomputed hs'
    · rw [Event.recomputes, Bool.or_eq_false_iff] at hnot
      rw [SocAC97.step]
      unfold SocAC97.memWrite
      dsimp only
      split
      · exact ⟨⟨rfl, fun _ => rfl, fun h => h⟩, rfl, Iff.rfl⟩
      · contradiction
      · exact ⟨RegisterStep.refl s, rfl, Iff.rfl⟩
      · contradiction
      · split
        · grind
        · rw [writeRegister_eq_none hnot.2]
          exact ⟨RegisterStep.refl s, rfl, Iff.rfl⟩

theorem other_access (huse : event.use = none) : OtherAccess s event := by
  cases event with
  | read pa wide answer => exact read_other pa wide answer huse
  | write pa wide val answer => exact write_other pa wide val answer huse
  | wantData ch hch => cases huse
  | haveData ch hch data => cases huse

theorem step_add (huse : event.use = some (.add ch val)) :
    s.step event = (0, (s.prvFifoAdd ch val).2) := by
  cases event with
  | read pa wide answer => grind [Event.use]
  | write pa wide val' answer =>
    rw [Event.use] at huse
    rw [SocAC97.step]
    unfold SocAC97.memWrite
    split at huse
    · rename_i hreg
      cases huse
      rw [hreg]
      rfl
    · rename_i hreg
      cases huse
      rw [hreg]
      rfl
    · cases huse
  | wantData ch' hch => cases huse
  | haveData ch' hch data =>
    cases huse
    rfl

def Event.takesWord : Event → Prop
  | .read _ wide _ => wide = true
  | _ => True

theorem step_get (huse : event.use = some (.get ch)) :
    (s.step event).2 = (s.prvFifoGet ch).2.2 ∧
      ((s.step event).1 ≤ event.bufferSize ↔ event.takesWord) := by
  cases event with
  | read pa wide answer =>
    have hfits : 4 ≤ accessSize wide ↔ wide = true := by
      cases wide <;> decide
    rw [SocAC97.step, SocAC97.memRead]
    obtain ⟨hreg, rfl⟩ | ⟨hreg, rfl⟩ | ⟨hreg, rfl⟩ := fifo_of_use_eq_get huse
    all_goals
      rw [hreg]
      exact ⟨rfl, hfits⟩
  | write pa wide val answer => grind [Event.use]
  | wantData ch' hch =>
    cases huse
    exact ⟨rfl, iff_of_true (Nat.le_refl 0) trivial⟩
  | haveData ch' hch data => cases huse

theorem prvFifoAdd_step (s : SocAC97) (ch : Channel) (val : Word) :
    ∃ fifo, FifoStep s ch (decide ((s.fifo ch).size = 16)) fifo (s.prvFifoAdd ch val).2 ∧
      fifo.size = (if (s.fifo ch).size = 16 then 16 else (s.fifo ch).size + 1) ∧
      fifo.contents = (s.fifo ch).contents ++ if (s.prvFifoAdd ch val).1 then [val] else [] := by
  unfold SocAC97.prvFifoAdd
  by_cases hfull : (s.fifo ch).size = 16
  · refine ⟨s.fifo ch, ?_, ?_, ?_⟩
    · rw [if_pos hfull, decide_eq_true hfull]
      exact failed_step s ch
    · grind
    · rw [if_pos hfull]
      exact (List.append_nil _).symm
  · have hlt : (s.fifo ch).size < 16 := Nat.lt_of_le_of_ne (s.fifo ch).size_le hfull
    refine ⟨(s.fifo ch).push val, ?_, ?_, ?_⟩
    · rw [if_neg hfull, decide_eq_false hfull]
      exact stored_step s ch _
    · rw [if_neg hfull, Fifo.size_push hlt]
    · rw [if_neg hfull, Fifo.contents_push hlt]
      rfl

theorem prvFifoGet_step (s : SocAC97) (ch : Channel) :
    ∃ fifo, FifoStep s ch (decide ((s.fifo ch).size = 0)) fifo (s.prvFifoGet ch).2.2 ∧
      fifo.size = (s.fifo ch).size - 1 ∧
      (s.fifo ch).contents =
        (if (s.prvFifoGet ch).1 then [(s.prvFifoGet ch).2.1] else []) ++ fifo.contents := by
  unfold SocAC97.prvFifoGet
  by_cases hempty : (s.fifo ch).size = 0
  · refine ⟨s.fifo ch, ?_, ?_, ?_⟩
    · rw [if_pos hempty, decide_eq_true hempty]
      exact failed_step s ch
    · rw [hempty]
    · rw [if_pos hempty]
      rfl
  · refine ⟨(s.fifo ch).pop.2, ?_, Fifo.size_pop, ?_⟩
    · rw [if_neg hempty, decide_eq_false hempty]
      exact stored_step s ch _
    · rw [if_neg hempty, Fifo.contents_pop hempty]
      rfl

structure History.Sound (h : History) : Prop where
  line : h.ac97.line = true ↔ h.ac97.Raised
  request : ∀ ch, h.used ch = true →
    (h.ac97.isr ch).getLsbD 2 = SocAC97.fifoReady ch (h.ac97.fifo ch).size
  order : ∀ ch, h.delivered ch ++ (h.ac97.fifo ch).contents = h.accepted ch

def Harmless (s : SocAC97) (event : Event) : Prop :=
  match event.use with
  | some (.add ch _) => s.LevelKept ch (decide ((s.fifo ch).size = 16))
      (if (s.fifo ch).size = 16 then 16 else (s.fifo ch).size + 1)
  | some (.get ch) => event.takesWord ∧
      s.LevelKept ch (decide ((s.fifo ch).size = 0)) ((s.fifo ch).size - 1)
  | none => event.recomputes = true → ¬ (s.step event).2.Overlooked

theorem FifoStep.masked {fifo : Fifo Word 16} {failed : Bool} (h : FifoStep s ch failed fifo s')
    (hmask : s.Masked) : s'.Masked := by
  rwa [SocAC97.Masked, h.icr]

theorem fifo_sound_iff {h' : History} {failed : Bool} {fifo : Fifo Word 16} (hs : h.Sound)
    (hstep : FifoStep h.ac97 ch failed fifo h'.ac97) (hused : h'.used = Function.update h.used ch true)
    (horder : h'.delivered ch ++ fifo.contents = h'.accepted ch)
    (hothers : ∀ ch' ≠ ch, h'.delivered ch' = h.delivered ch' ∧ h'.accepted ch' = h.accepted ch') :
    h'.Sound ↔ h.ac97.LevelKept ch failed fifo.size := by
  rw [← hstep.exact hs.line]
  constructor
  · intro hsound
    exact hsound.line
  · intro hline
    refine ⟨hline, fun ch' hch' => ?_, fun ch' => ?_⟩
    · rw [hstep.isr, hstep.fifo]
      by_cases hsame : ch' = ch
      · rw [hsame, Function.update_self, Function.update_self, statusAfter_two]
      · rw [hused, Function.update_of_ne hsame] at hch'
        rw [Function.update_of_ne hsame, Function.update_of_ne hsame]
        exact hs.request ch' hch'
    · rw [hstep.fifo]
      by_cases hsame : ch' = ch
      · grind
      · rw [Function.update_of_ne hsame, (hothers ch' hsame).1, (hothers ch' hsame).2]
        exact hs.order ch'

theorem add_sound_iff (hs : h.Sound) (huse : event.use = some (.add ch val)) :
    (h.step event).Sound ↔ Harmless h.ac97 event := by
  obtain ⟨fifo, hstep, hsize, hcontents⟩ := prvFifoAdd_step h.ac97 ch val
  have hac97 : (h.step event).ac97 = (h.ac97.prvFifoAdd ch val).2 := by
    rw [History.step, step_add huse]
  have hused : (h.step event).used = Function.update h.used ch true := by
    rw [History.step, huse]
    rfl
  have hdelivered : (h.step event).delivered = h.delivered := by
    rw [History.step, huse]
  have haccepted : (h.step event).accepted = if (h.ac97.prvFifoAdd ch val).1 then
      Function.update h.accepted ch (h.accepted ch ++ [val]) else h.accepted := by
    rw [History.step, huse]
  rw [← hac97] at hstep
  rw [Harmless, huse]
  dsimp only
  rw [← hsize]
  apply fifo_sound_iff hs hstep hused
  · rw [hdelivered, haccepted, hcontents, ← List.append_assoc, hs.order]
    split <;> simp
  · intro ch' hne
    rw [hdelivered, haccepted]
    refine ⟨rfl, ?_⟩
    split
    · grind
    · rfl

theorem get_sound_iff (hs : h.Sound) (huse : event.use = some (.get ch)) :
    (h.ac97.step event).1 ≤ event.bufferSize ∧ (h.step event).Sound ↔ Harmless h.ac97 event := by
  obtain ⟨fifo, hstep, hsize, hcontents⟩ := prvFifoGet_step h.ac97 ch
  obtain ⟨hafter, hwritten⟩ := step_get (s := h.ac97) huse
  have hac97 : (h.step event).ac97 = (h.ac97.prvFifoGet ch).2.2 := hafter
  have hused : (h.step event).used = Function.update h.used ch true := by
    rw [History.step, huse]
    rfl
  have haccepted : (h.step event).accepted = h.accepted := by
    rw [History.step, huse]
  have hdelivered : (h.step event).delivered = if (h.ac97.prvFifoGet ch).1 then
      Function.update h.delivered ch (h.delivered ch ++ [(h.ac97.prvFifoGet ch).2.1])
        else h.delivered := by
    rw [History.step, huse]
  rw [← hac97] at hstep
  rw [Harmless, huse]
  dsimp only
  rw [hwritten, ← hsize]
  apply and_congr_right'
  apply fifo_sound_iff hs hstep hused
  · rw [haccepted, hdelivered, ← hs.order, hcontents]
    split
    · simp
    · rfl
  · intro ch' hne
    rw [haccepted, hdelivered]
    refine ⟨?_, rfl⟩
    split
    · grind
    · rfl

theorem other_sound_iff (hs : h.Sound) (hm : h.ac97.Masked) (huse : event.use = none) :
    (h.ac97.step event).1 ≤ event.bufferSize ∧ (h.step event).Sound ↔ Harmless h.ac97 event := by
  have haccess := other_access (s := h.ac97) huse
  have hhistory : h.step event = { h with ac97 := (h.ac97.step event).2 } := by
    rw [History.step, huse]
  have hregisters : RegisterStep h.ac97 (h.ac97.step event).2 := by
    cases hrecomputes : event.recomputes with
    | true => exact (haccess.recomputed hrecomputes).toRegisterStep
    | false => exact (haccess.kept hrecomputes).toRegisterStep
  have hsound : (h.step event).Sound ↔
      ((h.ac97.step event).2.line = true ↔ (h.ac97.step event).2.Raised) := by
    rw [hhistory]
    constructor
    · intro hsound
      exact hsound.line
    · intro hline
      refine ⟨hline, fun ch hch => ?_, fun ch => ?_⟩
      · rw [hregisters.request, hregisters.fifo]
        exact hs.request ch hch
      · rw [hregisters.fifo]
        exact hs.order ch
  rw [Harmless, huse, hsound]
  cases hrecomputes : event.recomputes with
  | true =>
    have hrecomputed := haccess.recomputed hrecomputes
    have hlevel := prvIrqUpdate_exact (hrecomputed.masked hm)
    have hsame : (h.ac97.step event).2.prvIrqUpdate = (h.ac97.step event).2 := by
      rw [SocAC97.prvIrqUpdate, ← hrecomputed.line]
    rw [hsame] at hlevel
    rw [hlevel]
    exact ⟨fun hboth _ => hboth.2, fun hnot => ⟨haccess.written, hnot rfl⟩⟩
  | false =>
    have hkept := haccess.kept hrecomputes
    rw [hkept.line, hkept.raised]
    exact iff_of_true ⟨haccess.written, hs.line⟩ nofun

theorem step_sound_iff (hs : h.Sound) (hm : h.ac97.Masked) (event : Event) :
    (h.ac97.step event).1 ≤ event.bufferSize ∧ (h.step event).Sound ↔ Harmless h.ac97 event := by
  match huse : event.use with
  | some (.add ch val) =>
    rw [add_sound_iff hs huse |>.symm, step_add huse]
    exact and_iff_right (Nat.zero_le _)
  | some (.get ch) => exact get_sound_iff hs huse
  | none => exact other_sound_iff hs hm huse

theorem step_masked (hm : h.ac97.Masked) (event : Event) : (h.step event).ac97.Masked := by
  change (h.ac97.step event).2.Masked
  match huse : event.use with
  | some (.add ch val) =>
    obtain ⟨fifo, hstep, -⟩ := prvFifoAdd_step h.ac97 ch val
    rw [step_add huse]
    exact hstep.masked hm
  | some (.get ch) =>
    obtain ⟨fifo, hstep, -⟩ := prvFifoGet_step h.ac97 ch
    rw [(step_get huse).1]
    exact hstep.masked hm
  | none =>
    have haccess := other_access (s := h.ac97) huse
    cases hrecomputes : event.recomputes with
    | true => exact (haccess.recomputed hrecomputes).masked hm
    | false => exact (haccess.kept hrecomputes).masked hm

/-- In every state the line is exact, the requests are those of the FIFOs and the words are in order,
and no access writes beyond its buffer. -/
def RunSound (h : History) : List Event → Prop
  | [] => h.Sound
  | event :: events => h.Sound ∧ (h.ac97.step event).1 ≤ event.bufferSize ∧
      RunSound (h.step event) events

def RunHarmless (h : History) : List Event → Prop
  | [] => True
  | event :: events => Harmless h.ac97 event ∧ RunHarmless (h.step event) events

theorem RunSound.sound {events : List Event} (hrun : RunSound h events) : h.Sound := by
  cases events with
  | nil => exact hrun
  | cons event events => exact hrun.1

theorem runSound_iff_of_sound (hs : h.Sound) (hm : h.ac97.Masked) (events : List Event) :
    RunSound h events ↔ RunHarmless h events := by
  induction events generalizing h with
  | nil => exact iff_of_true hs trivial
  | cons event events ih =>
    have hstep := step_sound_iff hs hm event
    constructor
    · rintro ⟨-, hwritten, hrest⟩
      exact ⟨hstep.mp ⟨hwritten, hrest.sound⟩, (ih hrest.sound (step_masked hm event)).mp hrest⟩
    · rintro ⟨hharmless, hrest⟩
      obtain ⟨hwritten, hnext⟩ := hstep.mpr hharmless
      exact ⟨hs, hwritten, (ih hnext (step_masked hm event)).mpr hrest⟩

theorem init_sound : History.init.Sound := by
  refine ⟨iff_of_false Bool.false_ne_true ?_, nofun, fun ch => rfl⟩
  rintro (⟨ch, h⟩ | h)
  · change Raises 0 0 at h
    revert h
    decide
  · revert h
    unfold SocAC97.GlobalRaises
    decide

/-- From the start on, a run is sound exactly if all its events are harmless. -/
theorem ac97_runSound_iff (events : List Event) :
    RunSound .init events ↔ RunHarmless .init events := by
  apply runSound_iff_of_sound init_sound
  intro ch _
  change (0#8).getLsbD 2 = false ∧ (0#8).getLsbD 4 = false
  decide

theorem RunSound.last {events : List Event} (hrun : RunSound h events) :
    (events.foldl History.step h).Sound := by
  induction events generalizing h with
  | nil => exact hrun
  | cons event events ih => exact ih hrun.2.2

/-- The service request of the microphone is enabled, eight words arrive, and the level is computed once
more. -/
def micEvents : List Event :=
  [.write 0x40500008 true 2 ⟨false, 0⟩] ++ List.replicate 8 (.haveData .mic rfl 0x1234) ++
    [.write 0x4050000c true 0 ⟨false, 0⟩]

theorem not_runSound_micEvents : ¬ RunSound .init micEvents := by
  intro hrun
  have hraised : (micEvents.foldl History.step .init).ac97.Raised := by
    refine Or.inl ⟨.mic, ?_⟩
    unfold SocAC97.ChannelRaises
    decide
  have hexact := hrun.last.line.mpr hraised
  cases hexact

end Cloudpilot.Uarm.Ac97
