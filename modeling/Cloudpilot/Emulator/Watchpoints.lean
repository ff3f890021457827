import Mathlib.Data.BitVec
import Mathlib.Data.Finset.Basic
import Mathlib.Tactic

/-! # Watchpoints of the debugger

The debugger keeps the bytes of all watchpoints in two sets, those that are watched for reads
and those that are watched for writes. A run keeps the watchpoints themselves beside it.
-/

namespace Cloudpilot.Emulator.Watchpoints

abbrev Emuptr := BitVec 32

inductive WatchpointType where
  | read
  | write
  | readwrite
  deriving DecidableEq, Repr

inductive BreakState where
  | none
  | trapRead
  | trapWrite
  deriving DecidableEq, Repr

structure Debugger where
  enabled : Bool
  memoryAccess : Bool
  breakState : BreakState
  watchpointsRead : Finset Emuptr
  watchpointsWrite : Finset Emuptr
  watchpointAddress : Emuptr

namespace Debugger

variable (d : Debugger)

/-- An access of `width` bytes. -/
def notifyMemoryRead (width : ℕ) (address : Emuptr) : Debugger :=
  if !d.enabled || d.memoryAccess then d
  else if ∃ i < width, address + BitVec.ofNat 32 i ∈ d.watchpointsRead then
    { d with breakState := .trapRead, watchpointAddress := address }
  else d

def notifyMemoryWrite (width : ℕ) (address : Emuptr) : Debugger :=
  if !d.enabled || d.memoryAccess then d
  else if ∃ i < width, address + BitVec.ofNat 32 i ∈ d.watchpointsWrite then
    { d with breakState := .trapWrite, watchpointAddress := address }
  else d

/-- The body of both loops, which differ in what they do to a set. -/
def changeByte (change : Emuptr → Finset Emuptr → Finset Emuptr) (type : WatchpointType)
    (address : Emuptr) : Debugger :=
  match type with
  | .read => { d with watchpointsRead := change address d.watchpointsRead }
  | .write => { d with watchpointsWrite := change address d.watchpointsWrite }
  | .readwrite => { d with
      watchpointsRead := change address d.watchpointsRead
      watchpointsWrite := change address d.watchpointsWrite }

def changeBytes (change : Emuptr → Finset Emuptr → Finset Emuptr) (address : Emuptr)
    (type : WatchpointType) (len : ℕ) : Debugger :=
  (List.range len).foldl
    (fun d i => d.changeByte change type (address + BitVec.ofNat 32 i)) d

def setWatchpoint : Emuptr → WatchpointType → ℕ → Debugger := d.changeBytes insert

def clearWatchpoint : Emuptr → WatchpointType → ℕ → Debugger :=
  d.changeBytes fun address watchpoints => watchpoints.erase address

def getWatchpointType : WatchpointType :=
  if d.watchpointAddress ∈ d.watchpointsRead then
    if d.watchpointAddress ∈ d.watchpointsWrite then .readwrite else .read
  else .write

def getWatchpointAddress : Emuptr := d.watchpointAddress

end Debugger

structure Watchpoint where
  address : Emuptr
  type : WatchpointType
  len : ℕ
  deriving DecidableEq, Repr

inductive Kind where
  | read
  | write
  deriving DecidableEq, Repr

structure Access where
  kind : Kind
  width : ℕ
  address : Emuptr
  width_mem : width ∈ [1, 2, 4]

def WatchpointType.Matches : WatchpointType → Kind → Prop
  | .read, kind => kind = .read
  | .write, kind => kind = .write
  | .readwrite, _ => True

/-- The bytes from `address` on. -/
def Spans (address : Emuptr) (len : ℕ) (a : Emuptr) : Prop :=
  ∃ i < len, a = address + BitVec.ofNat 32 i

def Watchpoint.Covers (w : Watchpoint) (kind : Kind) (a : Emuptr) : Prop :=
  w.type.Matches kind ∧ Spans w.address w.len a

/-- The watchpoints that are set and not cleared, each as often as it was set. -/
abbrev Live := List Watchpoint

def Live.Covers (live : Live) (kind : Kind) (a : Emuptr) : Prop := ∃ w ∈ live, w.Covers kind a

namespace Debugger

variable (d : Debugger)

def notify (access : Access) : Debugger :=
  match access.kind with
  | .read => d.notifyMemoryRead access.width access.address
  | .write => d.notifyMemoryWrite access.width access.address

/-- The access stops a running target. -/
def Breaks (access : Access) : Prop :=
  ({ d with breakState := .none }.notify access).breakState ≠ .none

def watched : Kind → Finset Emuptr
  | .read => d.watchpointsRead
  | .write => d.watchpointsWrite

end Debugger

def Reported (live : Live) (access : Access) (type : WatchpointType) (a : Emuptr) : Prop :=
  Spans access.address access.width a ∧
    ∃ w ∈ live, w.type = type ∧ Spans w.address w.len a

/-- A byte of the access is covered by a live watchpoint of a matching kind. -/
def Hit (live : Live) (access : Access) : Prop :=
  ∃ a, Spans access.address access.width a ∧ live.Covers access.kind a

/-- An access breaks exactly if it hits a watchpoint, which is then reported. -/
def Exact (d : Debugger) (live : Live) (access : Access) : Prop :=
  (d.Breaks access ↔ Hit live access) ∧
    (d.Breaks access → Reported live access (d.notify access).getWatchpointType
      (d.notify access).getWatchpointAddress)

inductive Event where
  | set (w : Watchpoint)
  | clear (w : Watchpoint)
  | access (access : Access)

/-- Only a watchpoint that was set is cleared. -/
def step (d : Debugger) (live : Live) : Event → Option (Debugger × Live)
  | .set w => some (d.setWatchpoint w.address w.type w.len, w :: live)
  | .clear w =>
    if w ∈ live then some (d.clearWatchpoint w.address w.type w.len, live.erase w) else none
  | .access access => some (d.notify access, live)

/-- The first byte is covered, and if it is for reads and for writes, by one watchpoint. -/
def FirstCovered (live : Live) (a : Emuptr) : Prop :=
  (live.Covers .read a ∨ live.Covers .write a) ∧
    (live.Covers .read a → live.Covers .write a →
      ∃ w ∈ live, w.type = .readwrite ∧ Spans w.address w.len a)

/-- No other live watchpoint shares a byte and a kind with one that is cleared. -/
def Regular (live : Live) : Event → Prop
  | .clear w => ∀ kind a, w.Covers kind a → ¬Live.Covers (live.erase w) kind a
  | _ => True

/-- The states of a debugger that is enabled while the guest runs. -/
inductive Reached : Debugger → Live → Prop where
  | start (breakState : BreakState) (watchpointAddress : Emuptr) :
    Reached ⟨true, false, breakState, ∅, ∅, watchpointAddress⟩ []
  | step {d d' : Debugger} {live live' : Live} {e : Event} (h : Reached d live)
    (he : Regular live e) (hstep : step d live e = some (d', live')) : Reached d' live'

variable {d : Debugger} {live : Live} {kind : Kind} {a : Emuptr}

/-- The two sets hold the bytes of the live watchpoints. -/
structure Inv (d : Debugger) (live : Live) : Prop where
  enabled : d.enabled = true
  memoryAccess : d.memoryAccess = false
  mem_watched : ∀ kind a, a ∈ d.watched kind ↔ live.Covers kind a

theorem spans_succ {address : Emuptr} {len : ℕ} :
    Spans address (len + 1) a ↔ Spans address len a ∨ a = address + BitVec.ofNat 32 len := by
  simp only [Spans, Nat.lt_succ_iff_lt_or_eq, or_and_right, exists_or, exists_eq_left]

section Change

variable {change : Emuptr → Finset Emuptr → Finset Emuptr} {present : Prop}
  (hchange : ∀ b s a, a ∈ change b s ↔ a = b ∧ present ∨ a ≠ b ∧ a ∈ s)

include hchange

theorem changeByte_spec (type : WatchpointType) (address : Emuptr) :
    (d.changeByte change type address).enabled = d.enabled ∧
      (d.changeByte change type address).memoryAccess = d.memoryAccess ∧
      ∀ kind a, a ∈ (d.changeByte change type address).watched kind ↔
        (type.Matches kind ∧ a = address) ∧ present ∨
          ¬(type.Matches kind ∧ a = address) ∧ a ∈ d.watched kind := by
  refine ⟨by cases type <;> rfl, by cases type <;> rfl, fun kind a => ?_⟩
  cases type <;> cases kind <;>
    simp [Debugger.changeByte, Debugger.watched, WatchpointType.Matches, hchange]

theorem changeBytes_spec (address : Emuptr) (type : WatchpointType) (len : ℕ) :
    (d.changeBytes change address type len).enabled = d.enabled ∧
      (d.changeBytes change address type len).memoryAccess = d.memoryAccess ∧
      ∀ kind a, a ∈ (d.changeBytes change address type len).watched kind ↔
        (type.Matches kind ∧ Spans address len a) ∧ present ∨
          ¬(type.Matches kind ∧ Spans address len a) ∧ a ∈ d.watched kind := by
  induction len with
  | zero => simp [Debugger.changeBytes, Spans]
  | succ len ih =>
    have hlast : d.changeBytes change address type (len + 1) =
        (d.changeBytes change address type len).changeByte change type
          (address + BitVec.ofNat 32 len) := by
      simp [Debugger.changeBytes, List.range_succ]
    obtain ⟨henabled, haccess, hmem⟩ := ih
    obtain ⟨henabled', haccess', hmem'⟩ := changeByte_spec hchange
      (d := d.changeBytes change address type len) type (address + BitVec.ofNat 32 len)
    rw [hlast]
    refine ⟨henabled'.trans henabled, haccess'.trans haccess, fun kind a => ?_⟩
    rw [hmem', hmem, spans_succ]
    tauto

end Change

theorem Inv.set (h : Inv d live) (w : Watchpoint) :
    Inv (d.setWatchpoint w.address w.type w.len) (w :: live) := by
  have hinsert : ∀ (b : Emuptr) (s : Finset Emuptr) (a : Emuptr),
      a ∈ insert b s ↔ a = b ∧ True ∨ a ≠ b ∧ a ∈ s := fun b s a => by
    rw [Finset.mem_insert]
    tauto
  obtain ⟨henabled, haccess, hmem⟩ := changeBytes_spec (d := d) hinsert w.address w.type w.len
  refine ⟨henabled.trans h.enabled, haccess.trans h.memoryAccess, fun kind a => ?_⟩
  have hlive : Live.Covers (w :: live) kind a ↔ w.Covers kind a ∨ Live.Covers live kind a := by
    simp only [Live.Covers, List.mem_cons, exists_eq_or_imp]
  rw [Debugger.setWatchpoint, hmem, h.mem_watched, hlive]
  change w.Covers kind a ∧ True ∨ ¬w.Covers kind a ∧ Live.Covers live kind a ↔ _
  by_cases hcovers : w.Covers kind a
  · simp [hcovers]
  · simp [hcovers]

theorem Inv.clear (h : Inv d live) {w : Watchpoint} (hw : w ∈ live)
    (hregular : Regular live (.clear w)) :
    Inv (d.clearWatchpoint w.address w.type w.len) (live.erase w) := by
  have herase : ∀ (b : Emuptr) (s : Finset Emuptr) (a : Emuptr),
      a ∈ s.erase b ↔ a = b ∧ False ∨ a ≠ b ∧ a ∈ s := fun b s a => by
    rw [Finset.mem_erase]
    tauto
  obtain ⟨henabled, haccess, hmem⟩ := changeBytes_spec (d := d) herase w.address w.type w.len
  refine ⟨henabled.trans h.enabled, haccess.trans h.memoryAccess, fun kind a => ?_⟩
  have hlive : live.Covers kind a ↔ w.Covers kind a ∨ Live.Covers (live.erase w) kind a := by
    simp only [Live.Covers, (List.perm_cons_erase hw).mem_iff, List.mem_cons, exists_eq_or_imp]
  have hother : w.Covers kind a → ¬Live.Covers (live.erase w) kind a := hregular kind a
  rw [Debugger.clearWatchpoint, hmem, h.mem_watched, hlive]
  change w.Covers kind a ∧ False ∨ ¬w.Covers kind a ∧ _ ↔ _
  by_cases hcovers : w.Covers kind a
  · simp [hcovers, hother hcovers]
  · simp [hcovers]

theorem notify_eq (henabled : d.enabled = true) (haccess : d.memoryAccess = false)
    (access : Access) [Decidable (∃ a, Spans access.address access.width a ∧
      a ∈ d.watched access.kind)] : d.notify access =
      if ∃ a, Spans access.address access.width a ∧ a ∈ d.watched access.kind then
        { d with
          breakState := match access.kind with | .read => .trapRead | .write => .trapWrite
          watchpointAddress := access.address }
      else d := by
  have hspans (s : Finset Emuptr) : (∃ a, Spans access.address access.width a ∧ a ∈ s) ↔
      ∃ i < access.width, access.address + BitVec.ofNat 32 i ∈ s := by
    constructor
    · rintro ⟨_, ⟨i, hi, rfl⟩, ha⟩
      exact ⟨i, hi, ha⟩
    · rintro ⟨i, hi, ha⟩
      exact ⟨_, ⟨i, hi, rfl⟩, ha⟩
  obtain ⟨kind, width, address, hwidth⟩ := access
  cases kind <;>
    simp only [Debugger.notify, Debugger.notifyMemoryRead, Debugger.notifyMemoryWrite, henabled,
      haccess, Debugger.watched, hspans, Bool.not_true, Bool.or_self, Bool.false_eq_true, if_false]

theorem Inv.notify (h : Inv d live) (access : Access) : Inv (d.notify access) live := by
  classical
  rw [notify_eq h.enabled h.memoryAccess]
  split
  · exact ⟨h.enabled, h.memoryAccess, h.mem_watched⟩
  · exact h

theorem Reached.inv (h : Reached d live) : Inv d live := by
  induction h with
  | start breakState watchpointAddress =>
    exact ⟨rfl, rfl, fun kind a => by cases kind <;> simp [Debugger.watched, Live.Covers]⟩
  | step _ he hstep ih =>
    rename_i e _
    cases e with
    | set w =>
      cases hstep
      exact ih.set w
    | clear w =>
      obtain ⟨hw, hstep⟩ := Option.ite_none_right_eq_some.mp hstep
      cases hstep
      exact ih.clear hw he
    | access access =>
      cases hstep
      exact ih.notify access

theorem Inv.breaks_iff (h : Inv d live) (access : Access) :
    d.Breaks access ↔ Hit live access := by
  classical
  have hiff : Hit live access ↔
      ∃ a, Spans access.address access.width a ∧ a ∈ d.watched access.kind := by
    simp only [Hit, ← h.mem_watched]
  rw [hiff, Debugger.Breaks, notify_eq (d := { d with breakState := .none }) h.enabled
    h.memoryAccess]
  split
  · rename_i hhit
    refine iff_of_true ?_ hhit
    cases access.kind <;> nofun
  · rename_i hmiss
    exact iff_of_false (fun h => h rfl) hmiss

theorem Inv.reported_iff (h : Inv d live) {access : Access} (hhit : Hit live access) :
    Reported live access (d.notify access).getWatchpointType
      (d.notify access).getWatchpointAddress ↔ FirstCovered live access.address := by
  classical
  have hread := h.mem_watched .read access.address
  have hwrite := h.mem_watched .write access.address
  have hfirst : Spans access.address access.width access.address := by
    refine ⟨0, ?_, by simp⟩
    have := access.width_mem
    grind
  obtain ⟨b, hb, hcovers⟩ := hhit
  rw [notify_eq h.enabled h.memoryAccess, if_pos ⟨b, hb, (h.mem_watched _ _).mpr hcovers⟩]
  simp only [Debugger.getWatchpointType, Debugger.getWatchpointAddress, Reported, FirstCovered]
  simp only [Debugger.watched] at hread hwrite
  have hone : ∀ type, (∃ w ∈ live, w.type = type ∧ Spans w.address w.len access.address) →
      ∀ kind, type.Matches kind → live.Covers kind access.address := by
    rintro _ ⟨w, hw, rfl, hspans⟩ kind hmatches
    exact ⟨w, hw, hmatches, hspans⟩
  have hall : ∀ kind, live.Covers kind access.address → ∃ type : WatchpointType,
      type.Matches kind ∧ ∃ w ∈ live, w.type = type ∧ Spans w.address w.len access.address := by
    rintro kind ⟨w, hw, hmatches, hspans⟩
    exact ⟨_, hmatches, w, hw, rfl, hspans⟩
  simp only [hread, hwrite]
  by_cases hR : live.Covers .read access.address <;> by_cases hW : live.Covers .write access.address
  · simp [hR, hW, hfirst]
  · obtain ⟨type, hmatches, hw⟩ := hall .read hR
    cases type with
    | read => simpa [hR, hW, hfirst] using hw
    | write => cases hmatches
    | readwrite => exact absurd (hone _ hw .write trivial) hW
  · obtain ⟨type, hmatches, hw⟩ := hall .write hW
    cases type with
    | read => cases hmatches
    | write => simpa [hR, hW, hfirst] using hw
    | readwrite => exact absurd (hone _ hw .read trivial) hR
  · have hnone : ¬∃ w ∈ live, w.type = .write ∧ Spans w.address w.len access.address :=
      fun hw => hW (hone _ hw .write rfl)
    simpa [hR, hW, hfirst] using hnone

/-- In every state of a run that only clears watchpoints that share no byte and kind with
another one, an access is exact if and only if it misses or its first byte is covered. -/
theorem exact_iff (h : Reached d live) (access : Access) :
    Exact d live access ↔ (Hit live access → FirstCovered live access.address) := by
  have hbreaks := h.inv.breaks_iff access
  constructor
  · rintro ⟨-, hreported⟩ hhit
    exact (h.inv.reported_iff hhit).mp (hreported (hbreaks.mpr hhit))
  · intro hfirst
    refine ⟨hbreaks, fun hbreak => ?_⟩
    exact (h.inv.reported_iff (hbreaks.mp hbreak)).mpr (hfirst (hbreaks.mp hbreak))

def watching : Debugger := Debugger.setWatchpoint ⟨true, false, .none, ∅, ∅, 0⟩ 5 .read 1

theorem watching_exact : Exact watching [⟨5, .read, 1⟩] ⟨.read, 1, 5, by decide⟩ := by
  refine (exact_iff (.step (e := .set ⟨5, .read, 1⟩) (.start .none 0) trivial rfl) _).mpr fun _ => ?_
  have hfirst : Spans 5 1 (5 : Emuptr) := ⟨0, by decide, rfl⟩
  refine ⟨.inl ⟨_, List.mem_singleton_self _, rfl, hfirst⟩, ?_⟩
  rintro - ⟨w, hw, hmatches, -⟩
  cases List.mem_singleton.mp hw
  cases hmatches

/-- Of two watchpoints on one byte the first is cleared, and the second does not break. -/
theorem cleared_not_exact : ∃ d live,
    ((step ⟨true, false, .none, ∅, ∅, 0⟩ [] (.set ⟨5, .read, 1⟩)).bind fun (d, live) =>
      (step d live (.set ⟨5, .read, 2⟩)).bind fun (d, live) =>
        step d live (.clear ⟨5, .read, 1⟩)) = some (d, live) ∧
      ¬Exact d live ⟨.read, 1, 5, by decide⟩ := by
  refine ⟨_, _, rfl, fun h => ?_⟩
  have hhit : Hit [⟨5, .read, 2⟩] ⟨.read, 1, 5, by decide⟩ :=
    ⟨5, ⟨0, by decide, rfl⟩, _, List.mem_singleton_self _, rfl, 0, by decide, rfl⟩
  exact h.1.mpr hhit (by decide)

end Cloudpilot.Emulator.Watchpoints
