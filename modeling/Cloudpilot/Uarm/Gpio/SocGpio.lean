import Cloudpilot.Uarm.InterruptController
import Cloudpilot.Uarm.PxaTimr

/-! # The GPIO block

Four banks of pins behind two switch statements, one for reads and one for writes,
that fold the registers of the fourth bank onto those of the first three. Array
accesses are checked: an access outside its array is a fault, and so is the
endless loop for a bank that does not exist.
-/

namespace Cloudpilot.Uarm.Gpio

open Cpu InterruptController Timr BitVec

section

structure SocGpio where
  nGpios : ℕ
  latches : Fin 4 → Word
  inputs : Fin 4 → Word
  levels : Fin 4 → Word
  dirs : Fin 4 → Word
  riseDet : Fin 4 → Word
  fallDet : Fin 4 → Word
  detStatus : Fin 4 → Word
  AFRs : Fin 8 → Word
  /-- Whether a callback is registered for the pin. -/
  notifF : Fin 121 → Bool
  dirNotifF : Bool

inductive GpioFault where
  | outOfBounds
  | halted
  deriving DecidableEq, Repr

/-- Calls that leave the block. No callback registered by a device of the emulator enters it again. -/
inductive GpioCall where
  | notif (num : ℕ) (oldState newState : Bool)
  | dirNotif
  | irq (call : SocIcIntCall)

variable {α : Type*} {n : ℕ}

def load (a : Fin n → α) (i : ℕ) : Except GpioFault α :=
  match readAt a i with
  | some v => .ok v
  | none => .error .outOfBounds

def store (a : Fin n → α) (i : ℕ) (v : α) : Except GpioFault (Fin n → α) :=
  match writeAt a i v with
  | some a => .ok a
  | none => .error .outOfBounds

/-- The set bits in the order in which `__builtin_clz` finds them. -/
def bitsFromTop (t : Word) : List ℕ := (List.range 32).reverse.filter fun bit => t.getLsbD bit

def notify (gpio : SocGpio) (which : ℕ) (oldVal newVal : Word) (calls : List GpioCall) (bit : ℕ) :
    Except GpioFault (List GpioCall) := do
  let num := 32 * which + bit
  if ← load gpio.notifF num then
    return calls ++ [.notif num (oldVal.getLsbD bit) (newVal.getLsbD bit)]
  return calls

def socGpioPrvRecalcValues (gpio : SocGpio) (which : ℕ) :
    Except GpioFault (SocGpio × List GpioCall) := do
  let oldVal ← load gpio.levels which
  if which ≥ 4 then .error .halted else
  let val ← load gpio.dirs which
  let newVal := ((← load gpio.latches which) &&& val) ||| ((← load gpio.inputs which) &&& ~~~val)
  let calls ← (bitsFromTop (newVal ^^^ oldVal)).foldlM (notify gpio which oldVal newVal) []
  let gpio := { gpio with levels := ← store gpio.levels which newVal }
  if newVal ≠ oldVal then
    let wentHi := newVal &&& ~~~oldVal
    let wentLo := oldVal &&& ~~~newVal
    let detected := (wentHi &&& (← load gpio.riseDet which)) |||
      (wentLo &&& (← load gpio.fallDet which))
    let detStatus ← store gpio.detStatus which ((← load gpio.detStatus which) ||| detected)
    return ({ gpio with detStatus := detStatus }, calls)
  return (gpio, calls)

def socGpioPrvRecalcIntrs (gpio : SocGpio) : List GpioCall :=
  [.irq ⟨10, gpio.detStatus 3 ≠ 0 ∨ gpio.detStatus 2 ≠ 0 ∨ gpio.detStatus 1 ≠ 0 ∨
      gpio.detStatus 0 &&& ~~~3 ≠ 0⟩,
    .irq ⟨9, gpio.detStatus 0 &&& 2 ≠ 0⟩,
    .irq ⟨8, gpio.detStatus 0 &&& 1 ≠ 0⟩]

/-- A register by its case label, with the array index its case computes. -/
inductive Register where
  | level (i : ℕ)
  | dir (i : ℕ)
  | latchSet (i : ℕ)
  | latchClear (i : ℕ)
  | riseDet (i : ℕ)
  | fallDet (i : ℕ)
  | detStatus (i : ℕ)
  | afr (i : ℕ)
  deriving DecidableEq, Repr

/-- Three consecutive words from `first` on, and one more that falls through to them. -/
def bankCase (pa first fourth : ℕ) : Option ℕ :=
  if pa = fourth then some (pa - 61 - first)
  else if first ≤ pa ∧ pa < first + 3 then some (pa - first)
  else none

def bankRegister (pa : ℕ) : Option Register :=
  (bankCase pa 0 64).map .level <|> (bankCase pa 3 67).map .dir <|>
  (bankCase pa 6 70).map .latchSet <|> (bankCase pa 9 73).map .latchClear <|>
  (bankCase pa 12 76).map .riseDet <|> (bankCase pa 15 79).map .fallDet <|>
  (bankCase pa 18 82).map .detStatus

/-- The switch of a write: the last label is 29. -/
def writeRegister (pa : ℕ) : Option Register :=
  bankRegister pa <|> if (21 ≤ pa ∧ pa ≤ 27) ∨ pa = 29 then some (.afr (pa - 21)) else none

/-- The switch of a read: the last label is 28. -/
def readRegister (pa : ℕ) : Option Register :=
  bankRegister pa <|> if 21 ≤ pa ∧ pa ≤ 28 then some (.afr (pa - 21)) else none

/-- The label `recalc` with the two that follow it. -/
def recalc (gpio : SocGpio) (which : ℕ) (dirsChanged : Bool) :
    Except GpioFault (SocGpio × List GpioCall) := do
  let (gpio, calls) ← socGpioPrvRecalcValues gpio which
  let calls := if dirsChanged ∧ gpio.dirNotifF then calls ++ [.dirNotif] else calls
  return (gpio, calls ++ socGpioPrvRecalcIntrs gpio)

def writeWord (gpio : SocGpio) (val : Word) :
    Option Register → Except GpioFault (SocGpio × List GpioCall)
  | some (.dir i) => do
    recalc { gpio with dirs := ← store gpio.dirs i val } i true
  | some (.latchSet i) => do
    recalc { gpio with latches := ← store gpio.latches i ((← load gpio.latches i) ||| val) } i false
  | some (.latchClear i) => do
    recalc { gpio with
      latches := ← store gpio.latches i ((← load gpio.latches i) &&& ~~~val) } i false
  | some (.riseDet i) => do
    return ({ gpio with riseDet := ← store gpio.riseDet i val }, [])
  | some (.fallDet i) => do
    return ({ gpio with fallDet := ← store gpio.fallDet i val }, [])
  | some (.detStatus i) => do
    let gpio := { gpio with
      detStatus := ← store gpio.detStatus i ((← load gpio.detStatus i) &&& ~~~val) }
    return (gpio, socGpioPrvRecalcIntrs gpio)
  | some (.afr i) => do
    recalc { gpio with AFRs := ← store gpio.AFRs i val } (i / 2) false
  | some (.level _) | none => return (gpio, [])

def readWord (gpio : SocGpio) : Option Register → Except GpioFault Word
  | some (.level i) => load gpio.levels i
  | some (.dir i) => load gpio.dirs i
  | some (.riseDet i) => load gpio.riseDet i
  | some (.fallDet i) => load gpio.fallDet i
  | some (.detStatus i) => load gpio.detStatus i
  | some (.afr i) => load gpio.AFRs i
  | some (.latchSet _) | some (.latchClear _) | none => return 0

/-- A transfer of `size` bytes into the buffer of the access. -/
def transfer (size : ℕ) (buf val : Word) : Word :=
  if size = 4 then val
  else if size = 2 then (buf &&& 0xFFFF0000) ||| (val &&& 0xFFFF)
  else if size = 1 then (buf &&& 0xFFFFFF00) ||| (val &&& 0xFF)
  else buf

def pxaGpioBase : Word := 0x40E00000

def registerIndex (pa : Word) : ℕ := ((pa - pxaGpioBase) >>> 2).toNat

/-- The outcome of an access: success, the buffer, the new state and the calls made. -/
structure GpioAccess where
  ok : Bool
  buf : Word
  gpio : SocGpio
  calls : List GpioCall

def socGpioPrvMemAccessF (gpio : SocGpio) (pa : Word) (size : ℕ) (write : Bool) (buf : Word) :
    Except GpioFault GpioAccess := do
  let paOfst := (pa &&& 3).toNat
  let pa := registerIndex pa
  if write then
    if size ≠ 4 then return ⟨false, buf, gpio, []⟩
    let (gpio, calls) ← writeWord gpio buf (writeRegister pa)
    return ⟨true, buf, gpio, calls⟩
  else
    let val ← readWord gpio (readRegister pa)
    return ⟨true, transfer size buf (val >>> (8 * paOfst)), gpio, []⟩

def socGpioInit (socRev : Fin 3) : SocGpio where
  nGpios := match socRev with
    | 0 => 85
    | 1 => 90
    | 2 => 121
  latches _ := 0
  inputs _ := 0
  levels _ := 0
  dirs _ := 0
  riseDet _ := 0
  fallDet _ := 0
  detStatus _ := 0
  AFRs _ := 0
  notifF _ := false
  dirNotifF := false

def socGpioSetState (gpio : SocGpio) (gpioNum : ℕ) (on : Bool) :
    Except GpioFault (SocGpio × List GpioCall) := do
  let set := gpioNum / 32
  let v : Word := 1 <<< (gpioNum % 32)
  if gpioNum ≥ gpio.nGpios then return (gpio, [])
  let p ← load gpio.inputs set
  let gpio := { gpio with inputs := ← store gpio.inputs set (if on then p ||| v else p &&& ~~~v) }
  let (gpio, calls) ← socGpioPrvRecalcValues gpio set
  return (gpio, calls ++ socGpioPrvRecalcIntrs gpio)

/-- What reaches the block from outside. -/
inductive GpioEvent where
  | access (pa : Word) (size : ℕ) (write : Bool) (buf : Word)
  | setState (gpioNum : ℕ) (on : Bool)
  | setNotif (gpioNum : ℕ) (registered : Bool)
  | setDirsChangedNotif (registered : Bool)

def gpioStep (gpio : SocGpio) : GpioEvent → Except GpioFault SocGpio
  | .access pa size write buf => do
    return (← socGpioPrvMemAccessF gpio pa size write buf).gpio
  | .setState gpioNum on => do return (← socGpioSetState gpio gpioNum on).1
  | .setNotif gpioNum registered =>
    if gpioNum ≥ gpio.nGpios then return gpio
    else do return { gpio with notifF := ← store gpio.notifF gpioNum registered }
  | .setDirsChangedNotif registered => return { gpio with dirNotifF := registered }

def gpioRun (gpio : SocGpio) (events : List GpioEvent) : Except GpioFault SocGpio :=
  events.foldlM gpioStep gpio

end

open Cpu InterruptController

/-- What the processor sees of a bank: driven pins by their latch, the others by their input. -/
def seen (gpio : SocGpio) (b : Fin 4) : Word :=
  (gpio.latches b &&& gpio.dirs b) ||| (gpio.inputs b &&& ~~~gpio.dirs b)

/-- The level of a pin changes in a direction that is enabled. -/
def edge (gpio gpio' : SocGpio) (b : Fin 4) (i : ℕ) : Bool :=
  let was := (gpio.levels b).getLsbD i
  let now := (gpio'.levels b).getLsbD i
  (now && !was && (gpio.riseDet b).getLsbD i) || (was && !now && (gpio.fallDet b).getLsbD i)

/-- The guest writes a one to the status bit of a pin. -/
def clears (b : Fin 4) (i : ℕ) : GpioEvent → Bool
  | .access pa size write buf =>
    write && size = 4 && registerIndex pa = (if b = 3 then 82 else 18 + b.val) && buf.getLsbD i
  | _ => false

/-- Some step of the run detected an edge of the pin and no later one cleared it. -/
def DetectedSince (gpio : SocGpio) (events : List GpioEvent) (b : Fin 4) (i : ℕ) : Prop :=
  ∃ pre event post before after, events = pre ++ event :: post ∧ gpioRun gpio pre = .ok before ∧
    gpioStep before event = .ok after ∧ edge before after b i = true ∧
    ∀ e ∈ post, clears b i e = false

/-- The run ends without a fault, with current levels and exact status bits. -/
def Exact (gpio : SocGpio) (events : List GpioEvent) : Prop :=
  ∃ gpio', gpioRun gpio events = .ok gpio' ∧ (∀ b, gpio'.levels b = seen gpio' b) ∧
    ∀ b i, (gpio'.detStatus b).getLsbD i = true ↔ DetectedSince gpio events b i

def NoMissingPin (x : Word) : Prop := x >>> 25 = 0

instance (x : Word) : Decidable (NoMissingPin x) := inferInstanceAs (Decidable (x >>> 25 = 0))

/-- The event is no word write to offset 0x74, and it changes no pin from 121 to 127 that is an
output before or after it. -/
def Harmless (gpio : SocGpio) : GpioEvent → Prop
  | .access pa size write buf => write = true → size = 4 →
    registerIndex pa ≠ 29 ∧
    (registerIndex pa = 67 → NoMissingPin (gpio.latches 3 &&& (gpio.dirs 3 ^^^ buf))) ∧
    (registerIndex pa = 70 → NoMissingPin (gpio.dirs 3 &&& (buf &&& ~~~gpio.latches 3))) ∧
    (registerIndex pa = 73 → NoMissingPin (gpio.dirs 3 &&& (gpio.latches 3 &&& buf)))
  | _ => True

instance (gpio : SocGpio) (event : GpioEvent) : Decidable (Harmless gpio event) := by
  cases event <;> unfold Harmless <;> infer_instance

def HarmlessRun (gpio : SocGpio) : List GpioEvent → Prop
  | [] => True
  | event :: events => Harmless gpio event ∧
    ∀ gpio', gpioStep gpio event = .ok gpio' → HarmlessRun gpio' events

theorem noMissingPin_iff (x : Word) : NoMissingPin x ↔ ∀ i, 25 ≤ i → x.getLsbD i = false := by
  constructor
  · intro h i hi
    have hbit := congrArg (fun y : Word => y.getLsbD (i - 25)) h
    rw [getLsbD_ushiftRight, show 25 + (i - 25) = i by omega] at hbit
    simpa using hbit
  · intro h
    apply eq_of_getLsbD_eq
    intro i _
    rw [getLsbD_ushiftRight, h (25 + i) (by omega)]
    simp

section Checked

variable {α : Type*} {n : ℕ} (a : Fin n → α)

@[simp] theorem load_fin (i : Fin n) : load a i.val = .ok (a i) := by
  simp [load, readAt]

@[simp] theorem store_fin (i : Fin n) (v : α) : store a i.val v = .ok (Function.update a i v) := by
  simp [store, writeAt]

theorem load_outside {i : ℕ} (h : n ≤ i) : load a i = .error .outOfBounds := by
  have hi : ¬ i < n := by omega
  simp [load, readAt, hi]

end Checked

variable {gpio gpio' changed : SocGpio}

/-- The bank after `socGpioPrvRecalcValues`. -/
def recalculated (gpio : SocGpio) (b : Fin 4) : SocGpio :=
  let wentHi := seen gpio b &&& ~~~gpio.levels b
  let wentLo := gpio.levels b &&& ~~~seen gpio b
  { gpio with
    levels := Function.update gpio.levels b (seen gpio b)
    detStatus := Function.update gpio.detStatus b
      (gpio.detStatus b ||| ((wentHi &&& gpio.riseDet b) ||| (wentLo &&& gpio.fallDet b))) }

/-- Every pin of the bank whose level changes exists. -/
def Existing (gpio : SocGpio) (b : Fin 4) : Prop :=
  b = 3 → NoMissingPin (seen gpio 3 ^^^ gpio.levels 3)

theorem notify_inside {which bit : ℕ} (h : 32 * which + bit < 121) (gpio : SocGpio)
    (oldVal newVal : Word) (calls : List GpioCall) :
    ∃ calls', notify gpio which oldVal newVal calls bit = .ok calls' := by
  have hload := load_fin gpio.notifF ⟨32 * which + bit, h⟩
  cases hnotif : gpio.notifF ⟨32 * which + bit, h⟩ with
  | true => exact ⟨calls ++ [.notif (32 * which + bit) (oldVal.getLsbD bit) (newVal.getLsbD bit)],
      by simp [notify, hload, hnotif, bind, Except.bind, pure, Except.pure]⟩
  | false => exact ⟨calls, by simp [notify, hload, hnotif, bind, Except.bind, pure, Except.pure]⟩

theorem notify_outside {which bit : ℕ} (h : 121 ≤ 32 * which + bit) (gpio : SocGpio)
    (oldVal newVal : Word) (calls : List GpioCall) :
    notify gpio which oldVal newVal calls bit = .error .outOfBounds := by
  simp [notify, load_outside gpio.notifF h, bind, Except.bind]

theorem notifications_inside {which : ℕ} (bits : List ℕ) (h : ∀ bit ∈ bits, 32 * which + bit < 121)
    (gpio : SocGpio) (oldVal newVal : Word) (calls : List GpioCall) :
    ∃ calls', bits.foldlM (notify gpio which oldVal newVal) calls = .ok calls' := by
  induction bits generalizing calls with
  | nil => exact ⟨calls, rfl⟩
  | cons bit bits ih =>
    obtain ⟨calls', hcalls⟩ := notify_inside (h bit (List.mem_cons_self ..)) gpio oldVal newVal calls
    rw [List.foldlM_cons, hcalls]
    exact ih (fun b hb => h b (List.mem_cons_of_mem bit hb)) calls'

theorem notifications_outside {which bit : ℕ} {bits : List ℕ} (hmem : bit ∈ bits)
    (h : 121 ≤ 32 * which + bit) (gpio : SocGpio) (oldVal newVal : Word) (calls : List GpioCall) :
    bits.foldlM (notify gpio which oldVal newVal) calls = .error .outOfBounds := by
  induction bits generalizing calls with
  | nil => simp at hmem
  | cons first bits ih =>
    rw [List.foldlM_cons]
    by_cases hfirst : 32 * which + first < 121
    · obtain ⟨calls', hcalls⟩ := notify_inside hfirst gpio oldVal newVal calls
      rw [hcalls]
      apply ih
      rcases List.mem_cons.mp hmem with heq | hrest
      · omega
      · exact hrest
    · rw [notify_outside (by omega)]
      rfl

theorem mem_bitsFromTop {t : Word} {bit : ℕ} :
    bit ∈ bitsFromTop t ↔ bit < 32 ∧ t.getLsbD bit = true := by
  simp [bitsFromTop]

theorem existing_iff (gpio : SocGpio) (b : Fin 4) : Existing gpio b ↔
    ∀ bit ∈ bitsFromTop (seen gpio b ^^^ gpio.levels b), 32 * b.val + bit < 121 := by
  simp only [Existing, noMissingPin_iff, mem_bitsFromTop]
  constructor
  · intro h bit hbit
    by_cases hb : b = 3
    · subst hb
      by_contra hpin
      have hfalse := h rfl bit (by simp at hpin; omega)
      rw [hfalse] at hbit
      simp at hbit
    · omega
  · intro h hb i hi
    subst hb
    by_contra hbit
    rw [Bool.not_eq_false] at hbit
    have hpin := h i ⟨lt_of_getLsbD hbit, hbit⟩
    omega

theorem recalcValues_existing {b : Fin 4} (h : Existing gpio b) :
    ∃ calls, socGpioPrvRecalcValues gpio b.val = .ok (recalculated gpio b, calls) := by
  obtain ⟨calls, hcalls⟩ := notifications_inside _ ((existing_iff gpio b).mp h) gpio (gpio.levels b)
    (seen gpio b) []
  refine ⟨calls, ?_⟩
  have hb : ¬ b.val ≥ 4 := by omega
  unfold socGpioPrvRecalcValues
  simp only [load_fin, store_fin, bind, Except.bind, if_neg hb]
  rw [show gpio.latches b &&& gpio.dirs b ||| gpio.inputs b &&& ~~~gpio.dirs b = seen gpio b from rfl,
    hcalls]
  by_cases hchange : seen gpio b = gpio.levels b
  · simp [hchange, ne_eq, not_true_eq_false, if_false, pure, Except.pure, recalculated]
  · simp only [ne_eq, hchange, not_false_eq_true, if_true, pure, Except.pure, recalculated]

theorem recalcValues_missing {b : Fin 4} (h : ¬ Existing gpio b) :
    socGpioPrvRecalcValues gpio b.val = .error .outOfBounds := by
  rw [existing_iff] at h
  push Not at h
  obtain ⟨bit, hmem, hbit⟩ := h
  have hb : ¬ b.val ≥ 4 := by omega
  unfold socGpioPrvRecalcValues
  simp only [load_fin, store_fin, bind, Except.bind, if_neg hb]
  rw [show gpio.latches b &&& gpio.dirs b ||| gpio.inputs b &&& ~~~gpio.dirs b = seen gpio b from rfl,
    notifications_outside hmem hbit]

theorem recalc_existing {b : Fin 4} (h : Existing gpio b) (dirsChanged : Bool) :
    ∃ calls, recalc gpio b.val dirsChanged = .ok (recalculated gpio b, calls) := by
  obtain ⟨calls, hcalls⟩ := recalcValues_existing h
  simp [recalc, hcalls, bind, Except.bind, pure, Except.pure]

theorem recalc_missing {b : Fin 4} (h : ¬ Existing gpio b) (dirsChanged : Bool) :
    recalc gpio b.val dirsChanged = .error .outOfBounds := by
  simp [recalc, recalcValues_missing h, bind, Except.bind]

structure Sound (gpio : SocGpio) : Prop where
  levels : ∀ b, gpio.levels b = seen gpio b
  count : gpio.nGpios ≤ 121
  inputs : NoMissingPin (gpio.inputs 3)

/-- The latches, directions or inputs of one bank were changed. -/
structure Prepared (gpio changed : SocGpio) (b : Fin 4) : Prop where
  count : changed.nGpios = gpio.nGpios
  levels : changed.levels = gpio.levels
  riseDet : changed.riseDet = gpio.riseDet
  fallDet : changed.fallDet = gpio.fallDet
  detStatus : changed.detStatus = gpio.detStatus
  others : ∀ c, c ≠ b → seen changed c = seen gpio c
  inputs : NoMissingPin (changed.inputs 3)

/-- The status bits after a step: an edge sets one, the guest clears one. -/
structure Detects (gpio : SocGpio) (event : GpioEvent) (gpio' : SocGpio) : Prop where
  sound : Sound gpio'
  status : ∀ c i, (gpio'.detStatus c).getLsbD i =
    (edge gpio gpio' c i || ((gpio.detStatus c).getLsbD i && !clears c i event))

theorem Prepared.sound {b : Fin 4} (hp : Prepared gpio changed b) (h : Sound gpio) :
    Sound (recalculated changed b) := by
  constructor
  · intro c
    by_cases hc : c = b
    · subst hc
      exact Function.update_self ..
    · have hold : (recalculated changed b).levels c = changed.levels c :=
        Function.update_of_ne hc ..
      rw [hold, hp.levels, h.levels c]
      exact (hp.others c hc).symm
  · exact hp.count.trans_le h.count
  · exact hp.inputs

theorem edge_self (c : Fin 4) (i : ℕ) (h : gpio'.levels c = gpio.levels c) :
    edge gpio gpio' c i = false := by
  simp [edge, h]

theorem Prepared.detects {b : Fin 4} (hp : Prepared gpio changed b) (h : Sound gpio)
    {event : GpioEvent} (hclears : ∀ c i, clears c i event = false) :
    Detects gpio event (recalculated changed b) := by
  refine ⟨hp.sound h, ?_⟩
  intro c i
  rw [hclears c i, Bool.not_false, Bool.and_true]
  by_cases hc : c = b
  · subst hc
    have hlevel : (recalculated changed c).levels c = seen changed c := Function.update_self ..
    have hstatus : (recalculated changed c).detStatus c = _ := Function.update_self ..
    rw [hstatus, edge, hlevel, hp.levels, hp.riseDet, hp.fallDet, hp.detStatus]
    simp only [getLsbD_or, getLsbD_and, getLsbD_not]
    by_cases hi : i < 32
    · simp only [hi, decide_true, Bool.true_and]
      exact Bool.or_comm ..
    · grind
  · have hlevel : (recalculated changed b).levels c = changed.levels c :=
      Function.update_of_ne hc ..
    have hstatus : (recalculated changed b).detStatus c = changed.detStatus c :=
      Function.update_of_ne hc ..
    rw [hstatus, hp.detStatus, edge_self c i (hlevel.trans (congrFun hp.levels c))]
    rfl

theorem detects_of_levels (h : Sound gpio) {event : GpioEvent}
    (hcount : gpio'.nGpios = gpio.nGpios) (hlevels : gpio'.levels = gpio.levels)
    (hseen : ∀ c, seen gpio' c = seen gpio c) (hinputs : gpio'.inputs = gpio.inputs)
    (hstatus : ∀ c i, (gpio'.detStatus c).getLsbD i =
      ((gpio.detStatus c).getLsbD i && !clears c i event)) :
    Detects gpio event gpio' := by
  constructor
  · constructor
    · intro c
      rw [hlevels, hseen, h.levels c]
    · exact hcount.trans_le h.count
    · rw [hinputs]
      exact h.inputs
  · intro c i
    rw [edge_self c i (congrFun hlevels c), hstatus c i, Bool.false_or]

theorem detects_self (h : Sound gpio) {event : GpioEvent}
    (hclears : ∀ c i, clears c i event = false) : Detects gpio event gpio := by
  apply detects_of_levels h rfl rfl (fun _ => rfl) rfl
  intro c i
  rw [hclears c i, Bool.not_false, Bool.and_true]

end Cloudpilot.Uarm.Gpio
