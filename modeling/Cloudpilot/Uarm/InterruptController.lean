import Cloudpilot.Uarm.Cpu.State

/-! # The PXA interrupt controller

Both register interfaces, the memory window and coprocessor 6, are embedded with
their folding of register pairs onto one case. Array accesses are checked: an
access outside the array has no result.
-/
namespace Cloudpilot.Uarm.InterruptController
open Cpu

structure SocIc where
  ICMR : Fin 2 → Word
  ICLR : Fin 2 → Word
  ICPR : Fin 2 → Word
  ICCR : Word
  prio : Fin 40 → BitVec 8
  wasIrq : Bool
  wasFiq : Bool
  gen2 : Bool

/-- The controller with the core it drives and the sleep state of the SoC around it. -/
structure SocState where
  cpu : ArmCpu
  ic : SocIc
  sleeping : Bool

/-- The outcome of an access: success, the transferred value, the new state and what was printed. -/
structure Access where
  ok : Bool
  val : Word
  soc : SocState
  log : List String

def readAt {α : Type*} {n : ℕ} (a : Fin n → α) (i : ℕ) : Option α :=
  if h : i < n then some (a ⟨i, h⟩) else none

def writeAt {α : Type*} {n : ℕ} (a : Fin n → α) (i : ℕ) (v : α) : Option (Fin n → α) :=
  if h : i < n then some (Function.update a ⟨i, h⟩ v) else none

def pxaIcBase : Word := 0x40D00000

/-- Report a level to the core if it differs from the one reported last. -/
def reportEdge (cpu : ArmCpu) (fiq was now : Bool) : ArmCpu × List String :=
  if now ≠ was then cpuIrq cpu fiq now else (cpu, [])

def nowFiq (ic : SocIc) : Bool :=
  ic.ICPR 0 &&& ic.ICMR 0 &&& ic.ICLR 0 ≠ 0 || ic.ICPR 1 &&& ic.ICMR 1 &&& ic.ICLR 1 ≠ 0

def nowIrq (ic : SocIc) : Bool :=
  ic.ICPR 0 &&& ic.ICMR 0 &&& ~~~ic.ICLR 0 ≠ 0 || ic.ICPR 1 &&& ic.ICMR 1 &&& ~~~ic.ICLR 1 ≠ 0

/-- Re-evaluate both lines and report an edge of each to the core. -/
def socIcPrvHandleChanges (soc : SocState) : SocState × List String :=
  let fiqEdge := reportEdge soc.cpu true soc.ic.wasFiq (nowFiq soc.ic)
  let irqEdge := reportEdge fiqEdge.1 false soc.ic.wasIrq (nowIrq soc.ic)
  ({ soc with
      cpu := irqEdge.1
      ic := { soc.ic with wasFiq := nowFiq soc.ic, wasIrq := nowIrq soc.ic } },
    fiqEdge.2 ++ irqEdge.2)

/-- One slot of the priority scan. -/
def calcHighestPrioStep (activeIrq activeFiq : Fin 2 → Word) (ret : Word) (prio : BitVec 8) :
    Option Word :=
  if prio &&& 0x80 ≠ 0 then do
    let periph := (prio &&& 0x3F).toNat
    let irq ← readAt activeIrq (periph / 32)
    let fiq ← readAt activeFiq (periph / 32)
    let ret := if ret &&& 0x80000000 = 0 ∧ (irq >>> (periph % 32)) &&& 1 ≠ 0 then
      ((ret ||| 0x80000000) &&& ~~~(0x001F0000 : Word)) ||| (BitVec.ofNat 32 periph <<< 16) else ret
    let ret := if ret &&& 0x8000 = 0 ∧ (fiq >>> (periph % 32)) &&& 1 ≠ 0 then
      ((ret ||| 0x8000) &&& ~~~(0x001F : Word)) ||| BitVec.ofNat 32 periph else ret
    return ret
  else some ret

def socIcPrvCalcHighestPrio (ic : SocIc) : Option Word :=
  (List.ofFn ic.prio).foldlM (calcHighestPrioStep
    (fun i => ic.ICPR i &&& ic.ICMR i &&& ~~~ic.ICLR i)
    (fun i => ic.ICPR i &&& ic.ICMR i &&& ic.ICLR i)) 0x001F001F

def socIcPrvGetIcip (ic : SocIc) (idx : ℕ) : Option Word := do
  return (← readAt ic.ICPR idx) &&& (← readAt ic.ICMR idx) &&& ~~~(← readAt ic.ICLR idx)

def socIcPrvGetIcfp (ic : SocIc) (idx : ℕ) : Option Word := do
  return (← readAt ic.ICPR idx) &&& (← readAt ic.ICMR idx) &&& (← readAt ic.ICLR idx)

/-- `return false` before anything is changed. -/
def refuse (soc : SocState) (buf : Word) : Option Access := some ⟨false, buf, soc, []⟩

/-- The common tail: a write re-evaluates the lines, a read returns `val`. -/
def finish (soc : SocState) (write : Bool) (buf val : Word) : Access :=
  if write then ⟨true, buf, (socIcPrvHandleChanges soc).1, (socIcPrvHandleChanges soc).2⟩
  else ⟨true, val, soc, []⟩

/-- Index of a register of a pair whose second member falls through to the case of
the first. The second member exists on the second generation only. -/
def pairIndex (gen2 : Bool) (pa second first : Word) : Option ℕ :=
  if pa = second then
    if gen2 then some (pa - second + first + 1 - first).toNat else none
  else some (pa - first).toNat

def socIcPrvMemAccessF (soc : SocState) (pa : Word) (size : ℕ) (write : Bool) (buf : Word) :
    Option Access :=
  if size ≠ 4 then refuse soc buf else
  let pa := (pa - pxaIcBase) >>> 2
  let ic := soc.ic
  if pa = 0x9C / 4 ∨ pa = 0x00 / 4 then
    match pairIndex ic.gen2 pa (0x9C / 4) (0x00 / 4) with
    | none => refuse soc buf
    | some i =>
      if write then some (finish soc write buf buf)
      else do return finish soc write buf (← socIcPrvGetIcip ic i)
  else if pa = 0xA0 / 4 ∨ pa = 0x04 / 4 then
    match pairIndex ic.gen2 pa (0xA0 / 4) (0x04 / 4) with
    | none => refuse soc buf
    | some i =>
      if write then do
        let ICMR ← writeAt ic.ICMR i buf
        return finish { soc with ic := { ic with ICMR := ICMR } } write buf buf
      else do return finish soc write buf (← readAt ic.ICMR i)
  else if pa = 0xA4 / 4 ∨ pa = 0x08 / 4 then
    match pairIndex ic.gen2 pa (0xA4 / 4) (0x08 / 4) with
    | none => refuse soc buf
    | some i =>
      if write then do
        let ICLR ← writeAt ic.ICLR i buf
        return finish { soc with ic := { ic with ICLR := ICLR } } write buf buf
      else do return finish soc write buf (← readAt ic.ICLR i)
  else if pa = 0xA8 / 4 ∨ pa = 0x0C / 4 then
    match pairIndex ic.gen2 pa (0xA8 / 4) (0x0C / 4) with
    | none => refuse soc buf
    | some i =>
      if write then some (finish soc write buf buf)
      else do return finish soc write buf (← socIcPrvGetIcfp ic i)
  else if pa = 0xAC / 4 ∨ pa = 0x10 / 4 then
    match pairIndex ic.gen2 pa (0xAC / 4) (0x10 / 4) with
    | none => refuse soc buf
    | some i =>
      if write then some (finish soc write buf buf)
      else do return finish soc write buf (← readAt ic.ICPR i)
  else if pa = 0x14 / 4 then
    if write then some (finish { soc with ic := { ic with ICCR := buf &&& 1 } } write buf buf)
    else some (finish soc write buf ic.ICCR)
  else if pa = 0x18 / 4 then
    if ¬ ic.gen2 then refuse soc buf
    else if write then some (finish soc write buf buf)
    else do return finish soc write buf (← socIcPrvCalcHighestPrio ic)
  else if (0xB0 / 4 ≤ pa ∧ pa ≤ 0xCC / 4) ∨ (0x1C / 4 ≤ pa ∧ pa ≤ 0x98 / 4) then
    let pa := if 0xB0 / 4 ≤ pa ∧ pa ≤ 0xCC / 4 then pa - 0xB0 / 4 + 0x98 / 4 + 1 else pa
    let i := (pa - 0x1C / 4).toNat
    if write then do
      let prio ← writeAt ic.prio i ((buf &&& 0x3F ||| ((buf >>> 24) &&& 0x80)).setWidth 8)
      return finish { soc with ic := { ic with prio := prio } } write buf buf
    else do
      let prio ← readAt ic.prio i
      return finish soc write buf ((prio &&& 0x3F).setWidth 32 |||
        (if prio &&& 0x80 ≠ 0 then 0x80000000 else 0))
  else refuse soc buf

/-- The transfer between a core register and the controller: a write takes `Rx`
before the case analysis, a read stores it at the end. -/
def pxa270icPrvCoprocAccess (soc : SocState) (two MRC : Bool) (op1 : BitVec 8) (Rx : Fin 16)
    (CRn CRm op2 : BitVec 8) : Option Access :=
  let write := !MRC
  let ic := soc.ic
  if CRm ≠ 0 ∨ op1 ≠ 0 ∨ op2 ≠ 0 ∨ two then refuse soc 0 else
  let val : Word := if write then cpuGetRegExternal soc.cpu Rx.val else 0
  let store : Word → Option Access := fun val => do
    let cpu ← cpuSetReg soc.cpu Rx.val val
    return finish { soc with cpu := cpu } write val val
  if CRn = 6 ∨ CRn = 0 then
    let CRn := if CRn = 6 then CRn - 5 else CRn
    if write then refuse soc val else do store (← socIcPrvGetIcip ic (CRn - 0).toNat)
  else if CRn = 7 ∨ CRn = 1 then
    let CRn := if CRn = 7 then CRn - 5 else CRn
    if write then do
      let ICMR ← writeAt ic.ICMR (CRn - 1).toNat val
      return finish { soc with ic := { ic with ICMR := ICMR } } write val val
    else do store (← readAt ic.ICMR (CRn - 1).toNat)
  else if CRn = 8 ∨ CRn = 2 then
    let CRn := if CRn = 8 then CRn - 5 else CRn
    if write then do
      let ICLR ← writeAt ic.ICLR (CRn - 2).toNat val
      return finish { soc with ic := { ic with ICLR := ICLR } } write val val
    else do store (← readAt ic.ICLR (CRn - 2).toNat)
  else if CRn = 9 ∨ CRn = 3 then
    let CRn := if CRn = 9 then CRn - 5 else CRn
    if write then refuse soc val else do store (← socIcPrvGetIcfp ic (CRn - 3).toNat)
  else if CRn = 10 ∨ CRn = 4 then
    let CRn := if CRn = 10 then CRn - 5 else CRn
    if write then refuse soc val else do store (← readAt ic.ICPR (CRn - 4).toNat)
  else if CRn = 5 then
    if write then refuse soc val else do store (← socIcPrvCalcHighestPrio ic)
  else refuse soc val

def socIcInit (cpu : ArmCpu) (sleeping : Bool) (socRev : ℕ) : SocState where
  cpu := cpu
  ic := ⟨fun _ => 0, fun _ => 0, fun _ => 0, 0, fun _ => 0, false, false, socRev = 2⟩
  sleeping := sleeping

/-- Wake the SoC and the core. The timer task it reschedules belongs to the scheduler model. -/
def socWakeup (soc : SocState) : SocState :=
  if soc.sleeping then { soc with sleeping := false, cpu := cpuWakeup soc.cpu } else soc

/-- An interrupt line of the emulated hardware changes its level. -/
def socIcInt (soc : SocState) (intNum : ℕ) (raise : Bool) : Option (SocState × List String) := do
  let i := intNum / 32
  let mask : Word := 1 <<< (intNum % 32)
  let old ← readAt soc.ic.ICPR i
  let new := if raise then old ||| mask else old &&& ~~~mask
  let ICPR ← writeAt soc.ic.ICPR i new
  let ICMR ← readAt soc.ic.ICMR i
  let wake := raise && (soc.ic.ICCR &&& 1 = 0 || ICMR &&& mask ≠ 0)
  let soc := { soc with ic := { soc.ic with ICPR := ICPR } }
  let soc := if wake then socWakeup soc else soc
  if (← readAt soc.ic.ICPR i) ≠ old then return socIcPrvHandleChanges soc
  return (soc, [])

end Cloudpilot.Uarm.InterruptController
