import Cloudpilot.Uarm.InterruptLine

/-! # What the interrupt controller leaves alone

A register access neither pends a source nor changes whether the SoC sleeps; the
mask registers change only by the write `maskWrite` names. `Masked` collects this
for the state after an access, `LineChanged` the effect of a hardware source.
-/
namespace Cloudpilot.Uarm.InterruptController
open Cpu

/-- The mask register an access writes, with its new value. -/
def maskWrite (soc : SocState) : IcOp → Option (Fin 2 × Word)
  | .mem pa size write buf =>
    if size = 4 ∧ write then
      if (pa - pxaIcBase) >>> 2 = 0x04 / 4 then some (0, buf)
      else if (pa - pxaIcBase) >>> 2 = 0xA0 / 4 ∧ soc.ic.gen2 then some (1, buf)
      else none
    else none
  | .coproc two MRC op1 Rx CRn CRm op2 =>
    if CRm = 0 ∧ op1 = 0 ∧ op2 = 0 ∧ two = false ∧ MRC = false then
      if CRn = 1 then some (0, cpuGetRegExternal soc.cpu Rx.val)
      else if CRn = 7 then some (1, cpuGetRegExternal soc.cpu Rx.val)
      else none
    else none
  | _ => none

/-- `soc'` has the mask registers `mask` and otherwise pends and sleeps as `soc`. -/
structure Masked (soc : SocState) (mask : Fin 2 → Word) (soc' : SocState) : Prop where
  pending : soc'.ic.ICPR = soc.ic.ICPR
  mask : soc'.ic.ICMR = mask
  sleeping : soc'.sleeping = soc.sleeping
  core : soc'.cpu.sleeping = soc.cpu.sleeping

theorem reportEdge_sleeping (cpu : ArmCpu) (fiq was now : Bool) :
    (reportEdge cpu fiq was now).1.sleeping = cpu.sleeping := by
  unfold reportEdge cpuIrq
  split_ifs <;> rfl

theorem handleChanges_masked (soc : SocState) :
    Masked soc soc.ic.ICMR (socIcPrvHandleChanges soc).1 := by
  refine ⟨rfl, rfl, rfl, ?_⟩
  exact (reportEdge_sleeping _ _ _ _).trans (reportEdge_sleeping _ _ _ _)

/-- Every result has `P`. -/
def Results {α : Type} (P : α → Prop) (r : Option α) : Prop := ∀ a ∈ r, P a

/-- Every result of an access leaves the SoC in a state with `P`. -/
abbrev AccessEnsures (P : SocState → Prop) (r : Option Access) : Prop :=
  Results (fun a => P a.soc) r

theorem refuse_ensures {P : SocState → Prop} {soc : SocState} (h : P soc) (buf : Word) :
    AccessEnsures P (refuse soc buf) := by
  rintro a ⟨⟩
  exact h

theorem bind_ensures {α β : Type} {P : β → Prop} {r : Option α} {f : α → Option β}
    (hf : ∀ v ∈ r, Results P (f v)) : Results P (r >>= f) := by
  cases r with
  | none => rintro a ⟨⟩
  | some v => exact hf v rfl

theorem ite_ensures {α : Type} {P : α → Prop} {c : Prop} [Decidable c] {a b : Option α}
    (ha : c → Results P a) (hb : ¬ c → Results P b) : Results P (if c then a else b) := by
  by_cases h : c <;> grind

theorem pair_ensures {P : SocState → Prop} {soc : SocState} (h : P soc) (buf : Word)
    (index : Option ℕ) {body : ℕ → Option Access} (hbody : ∀ n, AccessEnsures P (body n)) :
    AccessEnsures P (match index with
      | none => refuse soc buf
      | some n => body n) := by
  cases index with
  | none => exact refuse_ensures h buf
  | some n => exact hbody n

theorem finish_masked {soc soc' : SocState} {mask : Fin 2 → Word} (h : Masked soc mask soc')
    (write : Bool) (buf val : Word) :
    AccessEnsures (Masked soc mask) (some (finish soc' write buf val)) := by
  rintro a ⟨⟩
  cases write with
  | true =>
    have hc := handleChanges_masked soc'
    exact ⟨hc.pending.trans h.pending, hc.mask.trans h.mask, hc.sleeping.trans h.sleeping,
      hc.core.trans h.core⟩
  | false => exact h

theorem masked_self (soc : SocState) : Masked soc soc.ic.ICMR soc := ⟨rfl, rfl, rfl, rfl⟩

/-- The mask registers after an access. -/
def newMask (soc : SocState) (op : IcOp) : Fin 2 → Word :=
  match maskWrite soc op with
  | none => soc.ic.ICMR
  | some w => Function.update soc.ic.ICMR w.1 w.2

theorem newMask_mem (soc : SocState) (pa : Word) (size : ℕ) (write : Bool) (buf : Word) :
    newMask soc (.mem pa size write buf) =
      if size = 4 ∧ write then
        if (pa - pxaIcBase) >>> 2 = 0x04 / 4 then Function.update soc.ic.ICMR 0 buf
        else if (pa - pxaIcBase) >>> 2 = 0xA0 / 4 ∧ soc.ic.gen2 then
          Function.update soc.ic.ICMR 1 buf
        else soc.ic.ICMR
      else soc.ic.ICMR := by
  unfold newMask maskWrite
  dsimp only
  split_ifs <;> rfl

theorem update_masked (soc : SocState) (i : Fin 2) (buf : Word) :
    Masked soc (Function.update soc.ic.ICMR i buf)
      { soc with ic := { soc.ic with ICMR := Function.update soc.ic.ICMR i buf } } :=
  ⟨rfl, rfl, rfl, rfl⟩

theorem finish_other (soc : SocState) (ic : SocIc) (write : Bool) (buf val : Word)
    (hpend : ic.ICPR = soc.ic.ICPR) (hmask : ic.ICMR = soc.ic.ICMR) :
    AccessEnsures (Masked soc soc.ic.ICMR) (some (finish { soc with ic := ic } write buf val)) := by
  have h : Masked soc soc.ic.ICMR { soc with ic := ic } := ⟨hpend, hmask, rfl, rfl⟩
  exact finish_masked h write buf val

theorem maskPair_masked (soc : SocState) {pa : Word} (write : Bool) (buf : Word)
    (hpa : pa = 0xA0 / 4 ∨ pa = 0x04 / 4) :
    AccessEnsures (Masked soc
      (if (4 : ℕ) = 4 ∧ write then
        if pa = 0x04 / 4 then Function.update soc.ic.ICMR 0 buf
        else if pa = 0xA0 / 4 ∧ soc.ic.gen2 then Function.update soc.ic.ICMR 1 buf
        else soc.ic.ICMR
      else soc.ic.ICMR))
      (match pairIndex soc.ic.gen2 pa (0xA0 / 4) (0x04 / 4) with
      | none => refuse soc buf
      | some i =>
        if write then do
          let ICMR ← writeAt soc.ic.ICMR i buf
          return finish { soc with ic := { soc.ic with ICMR := ICMR } } write buf buf
        else do return finish soc write buf (← readAt soc.ic.ICMR i)) := by
  cases write with
  | false => exact pair_ensures (masked_self soc) buf _ fun i => bind_ensures fun v _ =>
      finish_masked (masked_self soc) false buf v
  | true =>
    rw [if_pos ⟨rfl, rfl⟩]
    rcases hpa with rfl | rfl
    · cases hgen2 : soc.ic.gen2 with
      | false => exact refuse_ensures (masked_self soc) buf
      | true =>
        exact finish_masked (update_masked soc 1 buf) true buf buf
    · exact finish_masked (update_masked soc 0 buf) true buf buf

theorem memAccess_masked (soc : SocState) (pa : Word) (size : ℕ) (write : Bool) (buf : Word) :
    AccessEnsures (Masked soc (newMask soc (.mem pa size write buf)))
      (socIcPrvMemAccessF soc pa size write buf) := by
  rw [newMask_mem]
  unfold socIcPrvMemAccessF
  by_cases hsize : size = 4
  swap
  · rw [if_pos hsize, if_neg fun h => hsize h.1]
    exact refuse_ensures (masked_self soc) buf
  subst hsize
  rw [if_neg (not_not.mpr rfl)]
  dsimp only
  generalize (pa - pxaIcBase) >>> 2 = pa
  by_cases hpa : pa = 0xA0 / 4 ∨ pa = 0x04 / 4
  · have hicip : ¬ (pa = 0x9C / 4 ∨ pa = 0x00 / 4) := by grind
    rw [if_neg hicip, if_pos hpa]
    exact maskPair_masked soc write buf hpa
  · have hmask : (if (4 : ℕ) = 4 ∧ write then
        if pa = 0x04 / 4 then Function.update soc.ic.ICMR 0 buf
        else if pa = 0xA0 / 4 ∧ soc.ic.gen2 then Function.update soc.ic.ICMR 1 buf
        else soc.ic.ICMR
      else soc.ic.ICMR) = soc.ic.ICMR := by grind
    rw [hmask, if_neg hpa]
    have hself := finish_masked (masked_self soc) write buf
    have hrefuse := refuse_ensures (masked_self soc) buf
    refine ite_ensures (fun _ => pair_ensures (masked_self soc) buf _ fun i => ?_) fun _ => ?_
    · exact ite_ensures (fun _ => hself buf) fun _ => bind_ensures fun v _ => hself v
    refine ite_ensures (fun _ => pair_ensures (masked_self soc) buf _ fun i => ?_) fun _ => ?_
    · refine ite_ensures (fun _ => bind_ensures fun a _ => ?_) fun _ =>
        bind_ensures fun v _ => hself v
      exact finish_other soc _ write buf buf rfl rfl
    refine ite_ensures (fun _ => pair_ensures (masked_self soc) buf _ fun i => ?_) fun _ => ?_
    · exact ite_ensures (fun _ => hself buf) fun _ => bind_ensures fun v _ => hself v
    refine ite_ensures (fun _ => pair_ensures (masked_self soc) buf _ fun i => ?_) fun _ => ?_
    · exact ite_ensures (fun _ => hself buf) fun _ => bind_ensures fun v _ => hself v
    refine ite_ensures (fun _ => ite_ensures (fun _ => ?_) fun _ => hself _) fun _ => ?_
    · exact finish_other soc _ write buf buf rfl rfl
    refine ite_ensures (fun _ => ite_ensures (fun _ => hrefuse) fun _ => ?_) fun _ => ?_
    · exact ite_ensures (fun _ => hself buf) fun _ => bind_ensures fun v _ => hself v
    refine ite_ensures (fun _ => ite_ensures (fun _ => ?_) fun _ => ?_) fun _ => hrefuse
    · exact bind_ensures fun a _ => finish_other soc _ write buf buf rfl rfl
    · exact bind_ensures fun v _ => hself _

theorem newMask_coproc (soc : SocState) (two MRC : Bool) (op1 : BitVec 8) (Rx : Fin 16)
    (CRn CRm op2 : BitVec 8) :
    newMask soc (.coproc two MRC op1 Rx CRn CRm op2) =
      if CRm = 0 ∧ op1 = 0 ∧ op2 = 0 ∧ two = false ∧ MRC = false then
        if CRn = 1 then Function.update soc.ic.ICMR 0 (cpuGetRegExternal soc.cpu Rx.val)
        else if CRn = 7 then Function.update soc.ic.ICMR 1 (cpuGetRegExternal soc.cpu Rx.val)
        else soc.ic.ICMR
      else soc.ic.ICMR := by
  unfold newMask maskWrite
  dsimp only
  split_ifs <;> rfl

theorem cpuSetReg_sleeping (cpu : ArmCpu) (r : Fin 16) (val : Word) :
    ∀ cpu' ∈ cpuSetReg cpu r.val val, cpu'.sleeping = cpu.sleeping := by
  have hcpsr : r.val ≠ armRegNumCpsr := by simp only [armRegNumCpsr]; omega
  intro cpu' h
  rw [cpuSetReg, if_neg hcpsr, dif_pos r.isLt] at h
  cases h
  unfold cpuPrvSetReg
  split <;> rfl

theorem store_masked (soc : SocState) (Rx : Fin 16) (write : Bool) (r : Option Word) :
    AccessEnsures (Masked soc soc.ic.ICMR) (r >>= fun val =>
      cpuSetReg soc.cpu Rx.val val >>= fun cpu =>
        pure (finish { soc with cpu := cpu } write val val)) := by
  refine bind_ensures fun val _ => bind_ensures fun cpu hcpu => ?_
  have h : Masked soc soc.ic.ICMR { soc with cpu := cpu } :=
    ⟨rfl, rfl, rfl, cpuSetReg_sleeping soc.cpu Rx val cpu hcpu⟩
  exact finish_masked h write val val

theorem coprocAccess_masked (soc : SocState) (two MRC : Bool) (op1 : BitVec 8) (Rx : Fin 16)
    (CRn CRm op2 : BitVec 8) :
    AccessEnsures (Masked soc (newMask soc (.coproc two MRC op1 Rx CRn CRm op2)))
      (pxa270icPrvCoprocAccess soc two MRC op1 Rx CRn CRm op2) := by
  rw [newMask_coproc]
  unfold pxa270icPrvCoprocAccess
  by_cases hop : CRm ≠ 0 ∨ op1 ≠ 0 ∨ op2 ≠ 0 ∨ two
  · have hmask : ¬ (CRm = 0 ∧ op1 = 0 ∧ op2 = 0 ∧ two = false ∧ MRC = false) := by grind
    rw [if_pos hop, if_neg hmask]
    exact refuse_ensures (masked_self soc) 0
  rw [if_neg hop]
  cases MRC with
  | true =>
    rw [if_neg fun h => Bool.noConfusion h.2.2.2.2]
    refine ite_ensures (fun _ => store_masked soc Rx _ _) fun _ => ?_
    refine ite_ensures (fun _ => store_masked soc Rx _ _) fun _ => ?_
    refine ite_ensures (fun _ => store_masked soc Rx _ _) fun _ => ?_
    refine ite_ensures (fun _ => store_masked soc Rx _ _) fun _ => ?_
    refine ite_ensures (fun _ => store_masked soc Rx _ _) fun _ => ?_
    exact ite_ensures (fun _ => store_masked soc Rx _ _) fun _ => refuse_ensures (masked_self soc) _
  | false =>
    have hall : CRm = 0 ∧ op1 = 0 ∧ op2 = 0 ∧ two = false ∧ false = false := by grind
    rw [if_pos hall]
    by_cases h1 : CRn = 1
    · subst h1
      exact finish_masked (update_masked soc 0 _) true _ _
    by_cases h7 : CRn = 7
    · subst h7
      exact finish_masked (update_masked soc 1 _) true _ _
    rw [if_neg h1, if_neg h7]
    refine ite_ensures (fun _ => refuse_ensures (masked_self soc) _) fun _ => ?_
    refine ite_ensures (fun h => absurd h (not_or.mpr ⟨h7, h1⟩)) fun _ => ?_
    refine ite_ensures (fun _ => bind_ensures fun a _ => ?_) fun _ => ?_
    · exact finish_other soc _ true _ _ rfl rfl
    refine ite_ensures (fun _ => refuse_ensures (masked_self soc) _) fun _ => ?_
    refine ite_ensures (fun _ => refuse_ensures (masked_self soc) _) fun _ => ?_
    exact ite_ensures (fun _ => refuse_ensures (masked_self soc) _) fun _ =>
      refuse_ensures (masked_self soc) _

def sourceMask (intNum : Fin 64) : Word := ((1 <<< (intNum.val % 32) : ℕ) : Word)

/-- The line change wakes a sleeping SoC. -/
def wakes (soc : SocState) (intNum : Fin 64) (raise : Bool) : Bool :=
  raise && (soc.ic.ICCR &&& 1 = 0 ||
    soc.ic.ICMR ⟨intNum.val / 32, by omega⟩ &&& sourceMask intNum ≠ 0)

def pendingWord (soc : SocState) (intNum : Fin 64) (raise : Bool) : Word :=
  let old := soc.ic.ICPR ⟨intNum.val / 32, by omega⟩
  if raise then old ||| sourceMask intNum else old &&& ~~~sourceMask intNum

structure LineChanged (soc : SocState) (intNum : Fin 64) (raise : Bool) (soc' : SocState) :
    Prop where
  pending : soc'.ic.ICPR =
    Function.update soc.ic.ICPR ⟨intNum.val / 32, by omega⟩ (pendingWord soc intNum raise)
  mask : soc'.ic.ICMR = soc.ic.ICMR
  sleeping : soc'.sleeping = (soc.sleeping && !wakes soc intNum raise)
  core : soc'.cpu.sleeping =
    if soc.sleeping && wakes soc intNum raise then false else soc.cpu.sleeping

theorem socWakeup_sleeping (soc : SocState) :
    (socWakeup soc).sleeping = false ∧
      (socWakeup soc).cpu.sleeping = if soc.sleeping then false else soc.cpu.sleeping := by
  unfold socWakeup
  cases h : soc.sleeping with
  | true => exact ⟨rfl, rfl⟩
  | false => exact ⟨h, rfl⟩

def setPending (soc : SocState) (i : Fin 2) (word : Word) : SocState :=
  { soc with ic := { soc.ic with ICPR := Function.update soc.ic.ICPR i word } }

/-- The line has changed and the SoC is awake if it has to be. -/
def woken (soc : SocState) (intNum : Fin 64) (raise : Bool) : SocState :=
  let raised := setPending soc ⟨intNum.val / 32, by omega⟩ (pendingWord soc intNum raise)
  if wakes soc intNum raise then socWakeup raised else raised

theorem woken_changed (soc : SocState) (intNum : Fin 64) (raise : Bool) :
    LineChanged soc intNum raise (woken soc intNum raise) := by
  unfold woken
  cases hw : wakes soc intNum raise with
  | true =>
    refine ⟨?_, ?_, ?_, ?_⟩
    · rw [if_pos rfl, socWakeup_ic]
      rfl
    · rw [if_pos rfl, socWakeup_ic]
      rfl
    · rw [if_pos rfl, (socWakeup_sleeping _).1, hw, Bool.not_true, Bool.and_false]
    · rw [if_pos rfl, (socWakeup_sleeping _).2, hw, Bool.and_true]
      rfl
  | false =>
    refine ⟨rfl, rfl, ?_, ?_⟩
    · rw [hw, Bool.not_false, Bool.and_true]
      rfl
    · rw [hw, Bool.and_false]
      rfl

theorem socIcInt_eq (soc : SocState) (intNum : Fin 64) (raise : Bool) :
    socIcInt soc intNum.val raise = some
      (if (woken soc intNum raise).ic.ICPR ⟨intNum.val / 32, by omega⟩ ≠
          soc.ic.ICPR ⟨intNum.val / 32, by omega⟩ then
        socIcPrvHandleChanges (woken soc intNum raise)
      else (woken soc intNum raise, [])) := by
  have hi : intNum.val / 32 < 2 := by omega
  simp only [socIcInt, readAt, writeAt, hi, dif_pos, Option.bind_eq_bind, Option.bind_some]
  exact (apply_ite some ((woken soc intNum raise).ic.ICPR ⟨intNum.val / 32, hi⟩ ≠
    soc.ic.ICPR ⟨intNum.val / 32, hi⟩) _ _).symm

theorem socIcInt_changed (soc : SocState) (intNum : Fin 64) (raise : Bool) :
    ∃ soc' log, socIcInt soc intNum.val raise = some (soc', log) ∧
      LineChanged soc intNum raise soc' := by
  have hw := woken_changed soc intNum raise
  rw [socIcInt_eq]
  split
  · have hm := handleChanges_masked (woken soc intNum raise)
    exact ⟨_, _, rfl, hm.pending.trans hw.pending, hm.mask.trans hw.mask,
      hm.sleeping.trans hw.sleeping, hm.core.trans hw.core⟩
  · grind

end Cloudpilot.Uarm.InterruptController
