import Mathlib.Data.BitVec
import Mathlib.Tactic

/-! # The alarm of the real time clock

The clock of the host is a number of seconds that does not decrease; `Platform::GetTime` splits
the time of day. A run keeps beside the registers when `CycleSlowly` ran last and when the guest
last set or enabled the alarm.
-/

namespace Cloudpilot.Hardware.RtcAlarm

/-- `StdWrite` of `size` bytes at the byte `pos` of a register. What lies behind it is another one. -/
def stdWrite {w : ℕ} (register : BitVec w) (pos size : ℕ) (value : BitVec 32) : BitVec w :=
  let mask := BitVec.ofNat w (2 ^ (8 * size) - 1)
  if 8 * (pos + size) ≤ w then
    let shift := w - 8 * (pos + size)
    register &&& ~~~(mask <<< shift) ||| (value.setWidth w &&& mask) <<< shift
  else (value >>> (8 * (pos + size) - w)).setWidth w

structure Rtc where
  rtcAlarm : BitVec 32
  rtcControl : BitVec 16
  rtcIntEnable : BitVec 16
  rtcIntStatus : BitVec 16
  intPendingLo : BitVec 16
  lastRtcAlarmCheck : ℤ

def alarmBit : BitVec 16 := 0x0004

/-- The seconds, minutes, hours, alarm, stop watch and day bits of the two interrupt registers. -/
def bitsToCheck : BitVec 16 := 0x001f

/-- Hour, minute and second. -/
def getTime (now : ℕ) : ℕ × ℕ × ℕ := (now % 86400 / 3600, now % 3600 / 60, now % 60)

namespace Rtc

variable (rtc : Rtc)

def almInSeconds : ℕ :=
  ((rtc.rtcAlarm &&& 0x1f000000) >>> 24).toNat * 60 * 60 +
    ((rtc.rtcAlarm &&& 0x003f0000) >>> 16).toNat * 60 + (rtc.rtcAlarm &&& 0x0000003f).toNat

def updateRTCInterrupts : Rtc :=
  { rtc with
    intPendingLo :=
      if rtc.rtcControl &&& 0x80 ≠ 0 ∧ rtc.rtcIntStatus &&& rtc.rtcIntEnable &&& bitsToCheck ≠ 0 then
        rtc.intPendingLo ||| 0x0010
      else rtc.intPendingLo &&& ~~~(0x0010 : BitVec 16) }

def enabled : Bool := rtc.rtcIntEnable &&& alarmBit ≠ 0

def fired : Bool := rtc.rtcIntStatus &&& alarmBit ≠ 0

/-- The part of `CycleSlowly` that is about the alarm. -/
def cycleSlowly (now : ℕ) : Rtc :=
  if rtc.enabled ∧ ¬rtc.fired then
    let (hour, min, sec) := getTime now
    let nowInSeconds : ℕ := hour * 3600 + min * 60 + sec
    let rtc' :=
      if rtc.lastRtcAlarmCheck < rtc.almInSeconds ∧ rtc.almInSeconds ≤ nowInSeconds then
        updateRTCInterrupts { rtc with rtcIntStatus := rtc.rtcIntStatus ||| alarmBit }
      else rtc
    { rtc' with lastRtcAlarmCheck := nowInSeconds }
  else rtc

def rtcAlarmWrite (pos size : ℕ) (value : BitVec 32) : Rtc :=
  { rtc with rtcAlarm := stdWrite rtc.rtcAlarm pos size value }

def rtcIntEnableWrite (pos size : ℕ) (value : BitVec 32) : Rtc :=
  updateRTCInterrupts { rtc with rtcIntEnable := stdWrite rtc.rtcIntEnable pos size value }

def rtcIntStatusWrite (pos size : ℕ) (value : BitVec 32) : Rtc :=
  let value := if pos = 0 ∧ size = 1 then value <<< 8 else value
  updateRTCInterrupts { rtc with rtcIntStatus := rtc.rtcIntStatus &&& ~~~(value.setWidth 16) }

end Rtc

structure Run where
  rtc : Rtc
  now : ℕ
  /-- The previous call of `CycleSlowly`, or the start. -/
  checked : ℕ
  /-- The last write that set or enabled the alarm, or the start. -/
  armed : ℕ

inductive Event where
  | cycleSlowly
  | rtcAlarmWrite (pos size : ℕ) (value : BitVec 32)
  | rtcIntEnableWrite (pos size : ℕ) (value : BitVec 32)
  | rtcIntStatusWrite (pos size : ℕ) (value : BitVec 32)

namespace Run

variable (r : Run)

/-- An event at the time `now`. -/
def step (now : ℕ) : Event → Run
  | .cycleSlowly => { r with rtc := r.rtc.cycleSlowly now, now, checked := now }
  | .rtcAlarmWrite pos size value =>
    { r with rtc := r.rtc.rtcAlarmWrite pos size value, now, armed := now }
  | .rtcIntEnableWrite pos size value =>
    let rtc := r.rtc.rtcIntEnableWrite pos size value
    { r with rtc, now, armed := if rtc.enabled ∧ ¬r.rtc.enabled then now else r.armed }
  | .rtcIntStatusWrite pos size value =>
    { r with rtc := r.rtc.rtcIntStatusWrite pos size value, now }

/-- The register holds a time of day. -/
def ValidAlarm (rtcAlarm : BitVec 32) : Prop :=
  ((rtcAlarm &&& 0x1f000000) >>> 24).toNat < 24 ∧
    ((rtcAlarm &&& 0x003f0000) >>> 16).toNat < 60 ∧ (rtcAlarm &&& 0x0000003f).toNat < 60

/-- The states of a run in which the guest sets valid alarms. -/
inductive Reached : Run → Prop where
  | start (now : ℕ) (rtcControl intPendingLo : BitVec 16) :
    Reached ⟨⟨0, rtcControl, 0, 0, intPendingLo, -1⟩, now, now, now⟩
  | step {r : Run} {now : ℕ} {e : Event} (h : Reached r) (hnow : r.now ≤ now)
    (hcalls : e = .cycleSlowly → now < r.checked + 86400)
    (hvalid : ValidAlarm (r.step now e).rtc.rtcAlarm) : Reached (r.step now e)

/-- When the alarm was last looked at or armed. -/
def since : ℕ := max r.checked r.armed

/-- A call at the time `now` sets the bit exactly if the alarm time has passed. -/
def Exact (now : ℕ) : Prop :=
  (r.rtc.fired = false ∧ (r.rtc.cycleSlowly now).fired = true) ↔
    r.rtc.enabled = true ∧ r.rtc.fired = false ∧
      ∃ t, r.since < t ∧ t ≤ now ∧ t % 86400 = r.rtc.almInSeconds

/-- An alarm time of the day that is not ahead is later than `lastRtcAlarmCheck` exactly if it is
later than `since`. After midnight it is later than `lastRtcAlarmCheck`, and none that was ahead
at `since` is left on the day before. -/
def Timely (now : ℕ) : Prop :=
  r.rtc.enabled = true → r.rtc.fired = false →
    if r.since / 86400 = now / 86400 then
      r.rtc.almInSeconds ≤ now % 86400 →
        (r.rtc.lastRtcAlarmCheck < r.rtc.almInSeconds ↔ r.since % 86400 < r.rtc.almInSeconds)
    else r.rtc.almInSeconds ≤ r.since % 86400 ∧
      (r.rtc.almInSeconds ≤ now % 86400 → r.rtc.lastRtcAlarmCheck < r.rtc.almInSeconds)

variable {r}

structure Inv (r : Run) : Prop where
  checked : r.checked ≤ r.now
  armed : r.armed ≤ r.now
  valid : ValidAlarm r.rtc.rtcAlarm

theorem Reached.inv (h : Reached r) : Inv r := by
  induction h with
  | start now rtcControl intPendingLo => exact ⟨le_rfl, le_rfl, by simp [ValidAlarm]⟩
  | @step r now e _ hnow _ hvalid ih =>
    have hchecked := ih.checked.trans hnow
    have harmed := ih.armed.trans hnow
    cases e with
    | cycleSlowly => exact ⟨le_rfl, harmed, hvalid⟩
    | rtcAlarmWrite pos size value => exact ⟨hchecked, le_rfl, hvalid⟩
    | rtcIntEnableWrite pos size value =>
      refine ⟨hchecked, ?_, hvalid⟩
      simp only [Run.step]
      split
      · exact le_rfl
      · exact harmed
    | rtcIntStatusWrite pos size value => exact ⟨hchecked, harmed, hvalid⟩

theorem almInSeconds_lt (h : ValidAlarm r.rtc.rtcAlarm) : r.rtc.almInSeconds < 86400 := by
  obtain ⟨hhours, hminutes, hseconds⟩ := h
  rw [Rtc.almInSeconds]
  omega

theorem getTime_seconds (now : ℕ) :
    (getTime now).1 * 3600 + (getTime now).2.1 * 60 + (getTime now).2.2 = now % 86400 := by
  simp only [getTime]
  omega

theorem cycleSlowly_fired (rtc : Rtc) (now : ℕ) :
    (rtc.fired = false ∧ (rtc.cycleSlowly now).fired = true) ↔
      rtc.enabled = true ∧ rtc.fired = false ∧
        rtc.lastRtcAlarmCheck < rtc.almInSeconds ∧ rtc.almInSeconds ≤ now % 86400 := by
  have hset (status : BitVec 16) : (status ||| alarmBit) &&& alarmBit ≠ 0 := by
    intro h
    have := congrArg (·.getLsbD 2) h
    simp [alarmBit] at this
  have htime := getTime_seconds now
  rw [Rtc.cycleSlowly]
  by_cases harmed : rtc.enabled = true ∧ ¬rtc.fired = true
  · dsimp only
    rw [htime]
    by_cases hpassed : rtc.lastRtcAlarmCheck < rtc.almInSeconds ∧ rtc.almInSeconds ≤ now % 86400
    · simp_all [Rtc.fired, Rtc.updateRTCInterrupts]
    · rw [if_neg hpassed]
      simp_all [Rtc.fired]
  · rw [if_neg harmed]
    simp_all

/-- In every state of a run a call less than 24 hours after the previous one is exact if and
only if it is timely. -/
theorem exact_iff_timely (h : Reached r) {now : ℕ} (hnow : r.now ≤ now)
    (hcalls : now < r.checked + 86400) : r.Exact now ↔ r.Timely now := by
  obtain ⟨hchecked, harmed, hvalid⟩ := h.inv
  have halarm := almInSeconds_lt hvalid
  have hsince : r.since ≤ now := by
    rw [since]
    omega
  have hday : now < r.since + 86400 := by
    rw [since]
    omega
  have hpassed : (∃ t, r.since < t ∧ t ≤ now ∧ t % 86400 = r.rtc.almInSeconds) ↔
      if r.since / 86400 = now / 86400 then
        r.since % 86400 < r.rtc.almInSeconds ∧ r.rtc.almInSeconds ≤ now % 86400
      else r.since % 86400 < r.rtc.almInSeconds ∨ r.rtc.almInSeconds ≤ now % 86400 := by
    split
    · constructor
      · rintro ⟨t, hlow, hhigh, ht⟩
        omega
      · rintro ⟨hlow, hhigh⟩
        exact ⟨now / 86400 * 86400 + r.rtc.almInSeconds, by omega, by omega, by omega⟩
    · constructor
      · rintro ⟨t, hlow, hhigh, ht⟩
        omega
      · rintro (hlow | hhigh)
        · exact ⟨r.since / 86400 * 86400 + r.rtc.almInSeconds, by omega, by omega, by omega⟩
        · exact ⟨now / 86400 * 86400 + r.rtc.almInSeconds, by omega, by omega, by omega⟩
  rw [Exact, Timely, cycleSlowly_fired, hpassed]
  by_cases hsame : r.since / 86400 = now / 86400
  · simp only [if_pos hsame]
    tauto
  · have hbefore : r.since % 86400 < r.rtc.almInSeconds → ¬r.rtc.almInSeconds ≤ now % 86400 := by
      omega
    simp only [if_neg hsame, ← Nat.not_lt (a := r.since % 86400)]
    tauto

def setAtTen (value : BitVec 32) : Run :=
  (step ⟨⟨0, 0x80, 0, 0, 0, -1⟩, 36000, 36000, 36000⟩ 36000 (.rtcAlarmWrite 0 4 value)).step 36000
    (.rtcIntEnableWrite 0 2 0x0004)

theorem noon_exact : (setAtTen 0x0c000000).Exact 43200 := by
  have hset : Reached (step ⟨⟨0, 0x80, 0, 0, 0, -1⟩, 36000, 36000, 36000⟩ 36000
      (.rtcAlarmWrite 0 4 0x0c000000)) := by
    refine .step (.start _ _ _) le_rfl nofun ?_
    unfold ValidAlarm
    decide
  have hready : Reached (setAtTen 0x0c000000) := by
    refine .step hset le_rfl nofun ?_
    unfold ValidAlarm
    decide
  refine (exact_iff_timely hready (by decide) (by decide)).mpr ?_
  unfold Timely
  decide

/-- An alarm at eight, set and enabled at ten, fires a second later. -/
theorem eight_not_exact : ¬(setAtTen 0x08000000).Exact 36001 := by
  intro h
  obtain ⟨-, -, t, hlow, hhigh, ht⟩ := h.mp (by decide)
  change 36000 < t at hlow
  change t % 86400 = 28800 at ht
  omega

end Run

end Cloudpilot.Hardware.RtcAlarm
