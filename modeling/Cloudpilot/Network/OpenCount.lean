import Cloudpilot.Library.Runs

/-! # The open count of the network library

Applications open and close the library, and the first of them makes the emulator connect to
the proxy. The guest does not run while the emulator is suspended for the connection, but a reset
may come at any time.
-/

namespace Cloudpilot.Network

open Cloudpilot.Library.PartialRun Option

abbrev Err := BitVec 16

def netErrorClass : Err := 0x1200#16

def netErrNotOpen : Err := netErrorClass ||| 2#16

def netErrInternal : Err := netErrorClass ||| 17#16

/-- `SuspendContext::Kind`. -/
inductive SuspendKind
  | clipboardCopy
  | clipboardPaste
  | networkRpc
  | networkConnect
  | serialSync
  deriving DecidableEq, Repr

/-- The proxy, with the context of the suspend manager. -/
structure NetworkProxy where
  openCount : BitVec 32 := 0#32
  context : Option SuspendKind := none
  deriving DecidableEq, Repr

/-- What a call of the guest is answered with. -/
inductive Answer
  | opened (err : Err)
  | closed (err : Err)
  deriving DecidableEq, Repr

structure Outcome where
  proxy : NetworkProxy
  answer : Option Answer := none
  disconnected : Bool := false
  deriving DecidableEq, Repr

/-- The calls of the proxy, the two answers to a connect context, and the suspensions that
others begin and end. -/
inductive Action
  | openCall
  | connectSuccess
  | connectAbort
  | close
  | reset
  | suspend (kind : SuspendKind)
  | resume
  deriving DecidableEq, Repr

namespace NetworkProxy

def openCall (proxy : NetworkProxy) : Outcome :=
  if proxy.openCount > 0#32 then { proxy := proxy, answer := some (.opened 0#16) }
  else { proxy := { proxy with context := some .networkConnect } }

def connectSuccess (proxy : NetworkProxy) : Outcome :=
  { proxy := { openCount := proxy.openCount + 1#32, context := none },
    answer := some (.opened 0#16) }

def connectAbort (proxy : NetworkProxy) : Outcome :=
  { proxy := { proxy with context := none }, answer := some (.opened netErrInternal) }

def close (proxy : NetworkProxy) : Outcome :=
  if proxy.openCount = 0#32 then { proxy := proxy, answer := some (.closed netErrNotOpen) }
  else
    { proxy := { proxy with openCount := proxy.openCount - 1#32 },
      answer := some (.closed 0#16),
      disconnected := proxy.openCount - 1#32 = 0#32 }

/-- A network context is cancelled, which answers the call that waits in it. -/
def reset (proxy : NetworkProxy) : Outcome :=
  if proxy.openCount > 0#32 then
    match proxy.context with
    | some .networkRpc =>
      { proxy := { openCount := 0#32, context := none }, disconnected := true }
    | some .networkConnect =>
      { proxy := { openCount := 0#32, context := none },
        answer := some (.opened netErrInternal), disconnected := true }
    | _ => { proxy := { proxy with openCount := 0#32 }, disconnected := true }
  else { proxy := { proxy with openCount := 0#32 } }

/-- The guest calls while nothing is suspended, a context is answered while it is there, and a
remote call is made by an open library. -/
def step (proxy : NetworkProxy) : Action → Option Outcome
  | .openCall => if proxy.context = none then some proxy.openCall else none
  | .connectSuccess =>
    if proxy.context = some .networkConnect then some proxy.connectSuccess else none
  | .connectAbort => if proxy.context = some .networkConnect then some proxy.connectAbort else none
  | .close => if proxy.context = none then some proxy.close else none
  | .reset => some proxy.reset
  | .suspend kind =>
    if proxy.context = none ∧ kind ≠ .networkConnect ∧
        (kind = .networkRpc → proxy.openCount ≠ 0#32) then
      some { proxy := { proxy with context := some kind } }
    else none
  | .resume =>
    if proxy.context ≠ some .networkConnect then some { proxy := { proxy with context := none } }
    else none

end NetworkProxy

/-- How many calls of either kind were answered with 0 since the last reset. -/
structure Ledger where
  opens : ℕ := 0
  closes : ℕ := 0
  deriving DecidableEq, Repr

namespace Ledger

def count (ledger : Ledger) : ℤ := ledger.opens - ledger.closes

def record (ledger : Ledger) : Option Answer → Ledger
  | some (.opened err) => if err = 0#16 then { ledger with opens := ledger.opens + 1 } else ledger
  | some (.closed err) => if err = 0#16 then { ledger with closes := ledger.closes + 1 } else ledger
  | none => ledger

end Ledger

/-- The proxy with the answers that it has given. -/
structure Counted where
  proxy : NetworkProxy := {}
  ledger : Ledger := {}
  deriving DecidableEq, Repr

namespace Counted

variable {s s' : Counted} {action : Action} {outcome : Outcome}

def after (s : Counted) (action : Action) (outcome : Outcome) : Counted where
  proxy := outcome.proxy
  ledger := if action = .reset then {} else s.ledger.record outcome.answer

def next (s : Counted) (action : Action) : Option Counted :=
  (s.proxy.step action).map (s.after action)

/-- The open count after a step is the number of the ledger, which also decides about the
disconnect event and about the answer to a close. -/
structure Truthful (s : Counted) (action : Action) (outcome : Outcome) : Prop where
  openCount : (outcome.proxy.openCount.toNat : ℤ) = (s.after action outcome).ledger.count
  disconnected : outcome.disconnected = true ↔
    (action = .reset ∧ 0 < s.ledger.count) ∨
      (action ≠ .reset ∧ s.ledger.count = 1 ∧ (s.after action outcome).ledger.count = 0)
  notOpen : ∀ err, outcome.answer = some (.closed err) →
    (err = netErrNotOpen ↔ s.ledger.count = 0)

/-- A step is truthful if it can be made. -/
def Keeps (s : Counted) (action : Action) : Prop :=
  ∀ outcome, s.proxy.step action = some outcome → s.Truthful action outcome

/-- The library is opened when it is open already. -/
def Reopens (s : Counted) (action : Action) : Prop :=
  s.proxy.context = none ∧ action = .openCall ∧ s.proxy.openCount ≠ 0#32

instance (s : Counted) (action : Action) : Decidable (s.Reopens action) :=
  inferInstanceAs (Decidable (_ ∧ _ ∧ _))

/-- The count is right, and the emulator connects only when it is zero. -/
structure Inv (s : Counted) : Prop where
  openCount : (s.proxy.openCount.toNat : ℤ) = s.ledger.count
  connecting : s.proxy.context = some .networkConnect → s.proxy.openCount = 0#32

theorem toNat_pos {x : BitVec 32} (h : x ≠ 0#32) : 0 < x.toNat := by
  rw [Nat.pos_iff_ne_zero]
  intro hzero
  exact h (BitVec.eq_of_toNat_eq hzero)

theorem ledger_after_of_ne_reset (h : action ≠ .reset) :
    (s.after action outcome).ledger = s.ledger.record outcome.answer :=
  if_neg h

theorem ledger_after_reset : (s.after .reset outcome).ledger.count = 0 := rfl

theorem truthful_silent (h : s.Inv) (hreset : action ≠ .reset)
    (hcount : outcome.proxy.openCount = s.proxy.openCount) (hanswer : outcome.answer = none)
    (hevent : outcome.disconnected = false) : s.Truthful action outcome := by
  have hledger : (s.after action outcome).ledger = s.ledger := by
    rw [ledger_after_of_ne_reset hreset, hanswer]
    rfl
  constructor
  · rw [hcount, hledger, h.openCount]
  · grind
  · grind

theorem truthful_openCall (h : s.Inv) (hzero : s.proxy.openCount = 0#32) :
    s.Truthful .openCall s.proxy.openCall := by
  have hopen : s.proxy.openCall = { proxy := { s.proxy with context := some .networkConnect } } := by
    grind [NetworkProxy.openCall]
  rw [hopen]
  exact truthful_silent h (by simp) rfl rfl rfl

theorem truthful_connectSuccess (h : s.Inv) (hctx : s.proxy.context = some .networkConnect) :
    s.Truthful .connectSuccess s.proxy.connectSuccess := by
  have hzero := h.connecting hctx
  have hcount := h.openCount
  rw [hzero] at hcount
  have hafter : (s.after .connectSuccess s.proxy.connectSuccess).ledger.count =
      s.ledger.count + 1 := by
    grind [Counted.after, NetworkProxy.connectSuccess, Ledger.record, Ledger.count]
  constructor
  · rw [hafter, NetworkProxy.connectSuccess, hzero, ← hcount]
    rfl
  · rw [hafter, ← hcount]
    simp [NetworkProxy.connectSuccess]
  · simp [NetworkProxy.connectSuccess]

theorem truthful_connectAbort (h : s.Inv) : s.Truthful .connectAbort s.proxy.connectAbort := by
  have hafter : (s.after .connectAbort s.proxy.connectAbort).ledger = s.ledger := by rfl
  constructor
  · rw [hafter, ← h.openCount]
    rfl
  · rw [hafter]
    simp only [NetworkProxy.connectAbort]
    simp
    omega
  · simp [NetworkProxy.connectAbort]

theorem truthful_close (h : s.Inv) : s.Truthful .close s.proxy.close := by
  have hcount := h.openCount
  by_cases hzero : s.proxy.openCount = 0#32
  · have hclose : s.proxy.close = { proxy := s.proxy, answer := some (.closed netErrNotOpen) } :=
      if_pos hzero
    have hledger : (s.after .close s.proxy.close).ledger = s.ledger := by
      rw [hclose]
      rfl
    rw [hzero] at hcount
    constructor
    · rw [hledger, ← h.openCount, hclose]
    · rw [hledger, ← hcount, hclose]
      simp
    · intro err herr
      rw [hclose] at herr
      cases herr
      rw [← hcount]
      simp
  · have hclose : s.proxy.close =
        { proxy := { s.proxy with openCount := s.proxy.openCount - 1#32 },
          answer := some (.closed 0#16),
          disconnected := s.proxy.openCount - 1#32 = 0#32 } := if_neg hzero
    have hpos := toNat_pos hzero
    have hsub : (s.proxy.openCount - 1#32).toNat = s.proxy.openCount.toNat - 1 := by
      rw [BitVec.toNat_sub]
      simp only [BitVec.toNat_ofNat]
      omega
    have hafter : (s.after .close s.proxy.close).ledger.count = s.ledger.count - 1 := by
      rw [hclose]
      simp only [Counted.after, Ledger.record, Ledger.count]
      simp
      omega
    constructor
    · rw [hafter, hclose, ← hcount]
      rw [hsub]
      omega
    · rw [hafter, hclose, ← hcount, decide_eq_true_eq, ← BitVec.toNat_inj, hsub]
      simp
      omega
    · intro err herr
      rw [hclose] at herr
      cases herr
      simp only [netErrNotOpen, netErrorClass]
      simp
      omega

theorem truthful_reset (h : s.Inv) : s.Truthful .reset s.proxy.reset := by
  have hcount := h.openCount
  by_cases hpos : s.proxy.openCount > 0#32
  · have hpositive : 0 < s.ledger.count := by
      rw [← hcount]
      exact_mod_cast hpos
    constructor
    · grind [ledger_after_reset, NetworkProxy.reset]
    · rw [NetworkProxy.reset, if_pos hpos]
      split <;> simp [hpositive]
    · grind [NetworkProxy.reset]
  · have hreset : s.proxy.reset = { proxy := { s.proxy with openCount := 0#32 } } := if_neg hpos
    have hzero : s.proxy.openCount = 0#32 := by grind
    constructor
    · rw [ledger_after_reset, hreset]
      rfl
    · grind
    · grind

theorem truthful_of_not_reopens (h : s.Inv) (hnot : ¬ s.Reopens action)
    (hstep : s.proxy.step action = some outcome) : s.Truthful action outcome := by
  cases action with
  | openCall =>
    obtain ⟨hctx, ⟨⟩⟩ := ite_none_right_eq_some.mp hstep
    apply truthful_openCall h
    by_contra hzero
    exact hnot ⟨hctx, rfl, hzero⟩
  | connectSuccess =>
    obtain ⟨hctx, ⟨⟩⟩ := ite_none_right_eq_some.mp hstep
    exact truthful_connectSuccess h hctx
  | connectAbort =>
    obtain ⟨-, ⟨⟩⟩ := ite_none_right_eq_some.mp hstep
    exact truthful_connectAbort h
  | close =>
    obtain ⟨-, ⟨⟩⟩ := ite_none_right_eq_some.mp hstep
    exact truthful_close h
  | reset =>
    cases hstep
    exact truthful_reset h
  | suspend kind =>
    obtain ⟨-, ⟨⟩⟩ := ite_none_right_eq_some.mp hstep
    exact truthful_silent h (by simp) rfl rfl rfl
  | resume =>
    obtain ⟨-, ⟨⟩⟩ := ite_none_right_eq_some.mp hstep
    exact truthful_silent h (by simp) rfl rfl rfl

theorem not_truthful_of_reopens (h : s.Inv) (hopen : s.Reopens action) : ¬ s.Keeps action := by
  obtain ⟨hctx, rfl, hne⟩ := hopen
  intro hkeeps
  have hpos : s.proxy.openCount > 0#32 := toNat_pos hne
  have htruth := (hkeeps s.proxy.openCall (if_pos hctx)).openCount
  have hcall : s.proxy.openCall = { proxy := s.proxy, answer := some (.opened 0#16) } := if_pos hpos
  rw [hcall] at htruth
  have hcount := h.openCount
  simp only [Counted.after, Ledger.record, Ledger.count] at htruth hcount
  simp at htruth
  omega

theorem connecting_step (hstep : s.proxy.step action = some outcome)
    (hctx : outcome.proxy.context = some .networkConnect) : outcome.proxy.openCount = 0#32 := by
  cases action with
  | openCall =>
    obtain ⟨hnone, ⟨⟩⟩ := ite_none_right_eq_some.mp hstep
    rw [NetworkProxy.openCall] at hctx ⊢
    split_ifs at hctx ⊢ with hpos <;> grind
  | connectSuccess =>
    obtain ⟨-, ⟨⟩⟩ := ite_none_right_eq_some.mp hstep
    cases hctx
  | connectAbort =>
    obtain ⟨-, ⟨⟩⟩ := ite_none_right_eq_some.mp hstep
    cases hctx
  | close =>
    obtain ⟨hnone, ⟨⟩⟩ := ite_none_right_eq_some.mp hstep
    rw [NetworkProxy.close] at hctx
    split_ifs at hctx <;> simp [hnone] at hctx
  | reset =>
    cases hstep
    rw [NetworkProxy.reset]
    split_ifs
    · split <;> rfl
    · rfl
  | suspend kind =>
    obtain ⟨⟨-, hkind, -⟩, ⟨⟩⟩ := ite_none_right_eq_some.mp hstep
    exact absurd (some.inj hctx) hkind
  | resume =>
    obtain ⟨-, ⟨⟩⟩ := ite_none_right_eq_some.mp hstep
    cases hctx

theorem Keeps.inv (hkeeps : s.Keeps action) (hnext : s.next action = some s') : s'.Inv := by
  obtain ⟨outcome, hstep, rfl⟩ := map_eq_some_iff.mp hnext
  exact ⟨(hkeeps outcome hstep).openCount, connecting_step hstep⟩

theorem inv_initial : Inv {} := ⟨rfl, fun h => by cases h⟩

/-- The count is kept through a run exactly when the library is never opened again while it is
open. -/
theorem everyStep_keeps_iff (actions : List Action) :
    EveryStep next Keeps {} actions ↔
      EveryStep next (fun s action => ¬ s.Reopens action) {} actions := by
  constructor
  · intro hkeeps
    apply hkeeps.of_invariant _ inv_initial
    intro s action h hstep
    exact ⟨fun hopen => not_truthful_of_reopens h hopen hstep, fun s' => hstep.inv⟩
  · intro hnot
    apply hnot.of_invariant _ inv_initial
    intro s action h hstep
    have hkeeps : s.Keeps action := fun outcome => truthful_of_not_reopens h hstep
    exact ⟨hkeeps, fun s' => hkeeps.inv⟩

/-- Two applications open the library, and the first one closes it. -/
theorem second_open_not_counted :
    ¬ EveryStep next Keeps {} [.openCall, .connectSuccess, .openCall, .close] := by
  rw [everyStep_keeps_iff]
  decide

end Counted

end Cloudpilot.Network
