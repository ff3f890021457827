import Cloudpilot.Library.Runs
import Cloudpilot.Uarm.Mmc.PxaMmc

/-! # Where the controller stays inside its buffers

The response buffers are always accessed in range, and so is the FIFO when it is
written. What the controller does not check is the offset at which the FIFO is read,
and whether there still is a card when a transfer that was started moves on.
-/
namespace Cloudpilot.Uarm.Mmc
open Cpu Library

inductive Event where
  | access (pa : Word) (size : ℕ) (write : Bool) (buf : Word)
  | initializeCard (sectors : ℕ) (data : ℕ → Byte)
  | resetCard
  | insert
  | eject

namespace Machine

def step (m : Machine) : Event → Except Fault Machine
  | .access pa size write buf => (m.memAccessF pa size write buf).map BusAccess.machine
  | .initializeCard sectors data => .ok { m with card := sdCardInitializeWithData sectors data }
  | .resetCard => .ok { m with card := .empty }
  | .insert => .ok m.socSdInsert
  | .eject => .ok m.socSdEject

def run (m : Machine) (events : List Event) : Except Fault Machine := events.foldlM step m

end Machine

/-- No access left an array and no card was called that is not there. -/
def Safe {α : Type} (r : Except Fault α) : Prop := Ensures r (fun _ => True) (· = .halt)

/-- A read that starts although there is neither a card nor a reply to wait for. -/
def PxaMmc.BlindStart (mmc : PxaMmc) (cmdat : Byte) : Prop :=
  mmc.vsd = false ∧ cmdat &&& 3 = 0 ∧ cmdat &&& 4 ≠ 0 ∧ cmdat &&& 8 = 0 ∧ mmc.blkLen ≠ 0 ∧
    mmc.numBlks ≠ 0

/-- The last byte of a block is written after the card was removed. -/
def PxaMmc.BlindWrite (mmc : PxaMmc) : Prop :=
  mmc.vsd = false ∧ mmc.dataXferOngoing = true ∧ mmc.fifoBytes + 1 = mmc.blkLen.toNat

/-- The last byte of a block is read after the card was removed, with more blocks to come. -/
def PxaMmc.BlindRead (mmc : PxaMmc) : Prop :=
  mmc.vsd = false ∧ mmc.dataXferOngoing = true ∧ mmc.fifoBytes = 1 ∧ mmc.numBlks ≠ 0

/-- Since a block was loaded last, 1024 bytes were read and there is another one to read. -/
def PxaMmc.ReadPastEnd (mmc : PxaMmc) : Prop := mmc.fifoBytes ≠ 0 ∧ 1024 ≤ mmc.fifoOfst

instance (mmc : PxaMmc) (cmdat : Byte) : Decidable (mmc.BlindStart cmdat) :=
  inferInstanceAs (Decidable (_ ∧ _))

instance (mmc : PxaMmc) : Decidable mmc.BlindWrite := inferInstanceAs (Decidable (_ ∧ _))

instance (mmc : PxaMmc) : Decidable mmc.BlindRead := inferInstanceAs (Decidable (_ ∧ _))

instance (mmc : PxaMmc) : Decidable mmc.ReadPastEnd := inferInstanceAs (Decidable (_ ∧ _))

def PxaMmc.HarmlessWrite (mmc : PxaMmc) (reg : ℕ) (val : Word) : Prop :=
  match reg with
  | 0 => val &&& 3 = 2 → mmc.cmdQueued = true → ¬ mmc.BlindStart mmc.cmdat
  | 4 => mmc.clockOn = true → ¬ mmc.BlindStart (val.setWidth 8)
  | 17 => ¬ mmc.BlindWrite
  | _ => True

def PxaMmc.HarmlessRead (mmc : PxaMmc) (reg : ℕ) : Prop :=
  match reg with
  | 16 => ¬ mmc.ReadPastEnd ∧ ¬ mmc.BlindRead
  | _ => True

/-- An event that meets none of the four. -/
def Event.Harmless (mmc : PxaMmc) : Event → Prop
  | .access pa size write buf =>
    let reg := ((pa - 0x41100000) >>> 2).toNat
    size = 4 → if write then mmc.HarmlessWrite reg buf else mmc.HarmlessRead reg
  | _ => True

def AllHarmless : Machine → List Event → Prop
  | _, [] => True
  | m, e :: events => e.Harmless m.mmc ∧ ∀ m', m.step e = .ok m' → AllHarmless m' events

/-- What the registers and the FIFO never exceed. -/
structure Bounded (m : Machine) : Prop where
  blkLen : m.mmc.blkLen.toNat < 1024
  fifoBytes : m.mmc.fifoBytes < 1024

/-- A step is safe, and keeps the bounds, exactly if it is harmless. -/
structure SafeIff (r : Except Fault Machine) (harmless : Prop) : Prop where
  keeps : harmless → Ensures r Bounded (· = .halt)
  unsafe_of_not : ¬ harmless → ¬ Safe r

variable {m m' : Machine} {p q : Prop}

theorem safe_of_ensures {α : Type} {r : Except Fault α} {P : α → Prop}
    (h : Ensures r P (· = .halt)) : Safe r :=
  h.imp (fun _ _ => trivial) fun _ he => he

theorem SafeIff.congr {r : Except Fault Machine} (h : SafeIff r p) (hpq : p ↔ q) : SafeIff r q :=
  ⟨fun hq => h.keeps (hpq.mpr hq), fun hq => h.unsafe_of_not fun hp => hq (hpq.mp hp)⟩

theorem safeIff_ok {r : Except Fault Machine} (h : Ensures r Bounded (· = .halt)) : SafeIff r True :=
  ⟨fun _ => h, fun hn => absurd trivial hn⟩

theorem safeIff_state (hb : Bounded m) : SafeIff (.ok m) True := safeIff_ok hb

theorem safeIff_error {e : Fault} (he : e ≠ .halt) : SafeIff (.error e) False :=
  ⟨False.elim, fun _ h => he h⟩

theorem safeIff_iff {r : Except Fault Machine} (h : SafeIff r p) : Safe r ↔ p := by
  constructor
  · intro hsafe
    by_contra hp
    exact h.unsafe_of_not hp hsafe
  · intro hp
    exact safe_of_ensures (h.keeps hp)

theorem SafeIff.map {r : Except Fault Machine} {f : Machine → Machine} (h : SafeIff r p)
    (hf : ∀ m, Bounded m → Bounded (f m)) : SafeIff (r.map f) p := by
  cases r with
  | ok a => exact ⟨fun hp => hf a (h.keeps hp), fun hp => h.unsafe_of_not hp⟩
  | error e => exact ⟨h.keeps, h.unsafe_of_not⟩

theorem bounded_modify {f : PxaMmc → PxaMmc} (hb : Bounded m)
    (hlen : (f m.mmc).blkLen = m.mmc.blkLen) (hbytes : (f m.mmc).fifoBytes < 1024) :
    Bounded (m.modify f) :=
  ⟨by rw [Machine.modify, hlen]; exact hb.blkLen, hbytes⟩

theorem dataXferBlockFromCard_length (vsd : Vsd) (card : SdCard) (blockSz : ℕ) :
    (vsd.dataXferBlockFromCard card blockSz).2.1.length ≤ 1024 := by
  grind [Vsd.dataXferBlockFromCard]

theorem nextBlockRead_safeIff (hb : Bounded m) :
    SafeIff m.nextBlockRead (m.mmc.dataXferOngoing = true → m.mmc.vsd = true) := by
  unfold Machine.nextBlockRead
  by_cases hongoing : m.mmc.dataXferOngoing = true
  · by_cases hvsd : m.mmc.vsd = true
    · rw [if_neg (by simp [hongoing]), if_neg (by simp [hvsd])]
      apply (safeIff_ok _).congr (by simp [hvsd])
      have hlength := dataXferBlockFromCard_length m.vsd m.card m.mmc.blkLen.toNat
      dsimp only
      rw [fillFifo, if_pos hlength]
      split
      · exact ⟨hb.blkLen, hb.fifoBytes⟩
      · exact ⟨hb.blkLen, hb.fifoBytes⟩
      · exact ⟨hb.blkLen, hb.fifoBytes⟩
      · exact ⟨hb.blkLen, hb.blkLen⟩
    · rw [if_neg (by simp [hongoing]), if_pos (by simp [hvsd])]
      exact (safeIff_error (by decide)).congr (by simp [hongoing, hvsd])
  · rw [if_pos hongoing]
    exact (safeIff_state hb).congr (by simp [hongoing])

theorem startBlock_safeIff (hb : Bounded m) (hongoing : m.mmc.dataXferOngoing = true) :
    SafeIff m.startBlock
      (m.mmc.blkLen ≠ 0 → m.mmc.numBlks ≠ 0 → m.mmc.cmdat &&& 8 = 0 → m.mmc.vsd = true) := by
  unfold Machine.startBlock
  by_cases hzero : m.mmc.blkLen = 0 ∨ m.mmc.numBlks = 0
  · rw [if_pos hzero]
    apply (safeIff_state hb).congr
    rcases hzero with h | h <;> simp [h]
  rw [if_neg hzero]
  by_cases hwrite : m.mmc.cmdat &&& 8 ≠ 0
  · rw [if_pos hwrite]
    have hcleared : Bounded (m.modify fun mmc => { mmc with fifoBytes := 0 }) :=
      ⟨hb.blkLen, Nat.zero_lt_succ _⟩
    apply (safeIff_state hcleared).congr
    exact ⟨fun _ _ _ hread => absurd hread hwrite, fun _ => trivial⟩
  · rw [if_neg hwrite]
    apply (nextBlockRead_safeIff hb).congr
    constructor
    · intro hvsd _ _ _
      exact hvsd hongoing
    · grind

theorem dataXferStart_safeIff (hb : Bounded m) : SafeIff m.dataXferStart
    (m.mmc.blkLen ≠ 0 → m.mmc.numBlks ≠ 0 → m.mmc.cmdat &&& 8 = 0 → m.mmc.vsd = true) :=
  startBlock_safeIff (m := m.modify _) ⟨hb.blkLen, hb.fifoBytes⟩ rfl

theorem blockToCard_safeIff (hb : Bounded m) : SafeIff m.blockToCard (m.mmc.vsd = true) := by
  unfold Machine.blockToCard
  by_cases hvsd : m.mmc.vsd = true
  · rw [if_neg (by simp [hvsd])]
    obtain ⟨ret, vsd, card⟩ := m.vsd.dataXferBlockToCard m.card (fifoBlock m.mmc.blockFifo)
      m.mmc.blkLen.toNat
    have hcalled : Bounded ⟨m.mmc, vsd, card⟩ := ⟨hb.blkLen, hb.fifoBytes⟩
    refine (safeIff_state (bounded_modify hcalled ?_ ?_)).congr (by simp [hvsd])
    · split_ifs <;> rfl
    · split_ifs
      · exact hb.fifoBytes
      · simp
      · simp
  · rw [if_pos hvsd]
    exact (safeIff_error (by decide)).congr (by simp [hvsd])

theorem bounded_recalc (hb : Bounded m) : Bounded (m.modify PxaMmc.recalc) :=
  ⟨hb.blkLen, hb.fifoBytes⟩

theorem map_snd_comp {α β : Type} (r : Except Fault β) (f : β → α × Machine) :
    (r.map f).map Prod.snd = r.map fun b => (f b).2 := by
  cases r <;> rfl

theorem filled_safeIff (hb : Bounded m) : SafeIff (m.filled.map Prod.snd)
    (¬ (m.mmc.vsd = false ∧ m.mmc.dataXferOngoing = true ∧
      m.mmc.fifoBytes = m.mmc.blkLen.toNat)) := by
  unfold Machine.filled
  by_cases hmore : m.mmc.fifoBytes ≠ m.mmc.blkLen.toNat
  · rw [if_pos hmore]
    exact (safeIff_state (bounded_recalc hb)).congr (by simp [hmore])
  rw [if_neg hmore]
  by_cases hongoing : m.mmc.dataXferOngoing = true
  · rw [if_neg (by simp [hongoing]), map_snd_comp]
    apply ((blockToCard_safeIff hb).map fun m hm => bounded_recalc hm).congr
    simp [hmore, hongoing]
  · rw [if_pos hongoing]
    exact (safeIff_state hb).congr (by simp [hongoing])

theorem dataFifoW_safeIff (hb : Bounded m) (val : Word) :
    SafeIff ((m.dataFifoW val).map Prod.snd) (¬ m.mmc.BlindWrite) := by
  unfold Machine.dataFifoW
  have hlen := hb.blkLen
  by_cases hfull : m.mmc.fifoBytes ≥ m.mmc.blkLen.toNat
  · rw [if_pos hfull]
    apply (safeIff_state hb).congr
    simp only [true_iff, PxaMmc.BlindWrite, not_and]
    omega
  · rw [if_neg hfull, if_neg (by omega)]
    have hput : m.mmc.fifoBytes + 1 < 1024 := by omega
    exact filled_safeIff (m := m.modify _) ⟨hlen, hput⟩

theorem emptied_safeIff (hb : Bounded m) : SafeIff m.emptied
    (¬ (m.mmc.vsd = false ∧ m.mmc.dataXferOngoing = true ∧ m.mmc.fifoBytes = 0 ∧
      m.mmc.numBlks ≠ 0)) := by
  unfold Machine.emptied
  by_cases hleft : m.mmc.fifoBytes ≠ 0
  · rw [if_pos hleft]
    exact (safeIff_state hb).congr (by simp [hleft])
  rw [if_neg hleft]
  rw [not_not] at hleft
  by_cases hmore : m.mmc.numBlks ≠ 0
  · rw [if_pos hmore]
    apply (nextBlockRead_safeIff hb).congr
    cases m.mmc.vsd with
    | true => simp
    | false => exact ⟨fun h hall => Bool.noConfusion (h hall.2.1),
        fun h hongoing => absurd ⟨rfl, hongoing, hleft, hmore⟩ h⟩
  · rw [if_neg hmore]
    have hdone : Bounded (m.modify fun mmc =>
        { mmc.setStat 0x0800 with dataXferOngoing := false }) := ⟨hb.blkLen, hb.fifoBytes⟩
    apply (safeIff_state hdone).congr
    exact ⟨fun _ hall => hmore hall.2.2.2, fun _ => trivial⟩

theorem dataFifoR_safeIff (hb : Bounded m) : SafeIff (m.dataFifoR.map Prod.snd)
    (¬ m.mmc.ReadPastEnd ∧ ¬ m.mmc.BlindRead) := by
  unfold Machine.dataFifoR
  by_cases hempty : m.mmc.fifoBytes = 0
  · rw [if_pos hempty]
    exact (safeIff_state hb).congr (by simp [PxaMmc.ReadPastEnd, PxaMmc.BlindRead, hempty])
  rw [if_neg hempty]
  by_cases hpast : m.mmc.fifoOfst ≥ 1024
  · rw [if_pos hpast]
    exact (safeIff_error (by decide)).congr (by simp [PxaMmc.ReadPastEnd, hempty, hpast])
  rw [if_neg hpast, map_snd_comp]
  have hbytes : m.mmc.fifoBytes - 1 < 1024 := Nat.lt_of_le_of_lt (Nat.sub_le _ _) hb.fifoBytes
  have htaken := emptied_safeIff (m := m.modify fun mmc => { mmc with
    fifoOfst := mmc.fifoOfst + 1
    fifoBytes := mmc.fifoBytes - 1 }) ⟨hb.blkLen, hbytes⟩
  apply (htaken.map fun m hm => bounded_recalc hm).congr
  have hlast : m.mmc.fifoBytes = 1 ↔ m.mmc.fifoBytes - 1 = 0 := by omega
  have hnotPast : ¬ m.mmc.ReadPastEnd := fun h => hpast h.2
  rw [and_iff_right hnotPast, PxaMmc.BlindRead, hlast]
  rfl

theorem expectedReply_length (cmdat : Byte) (replTyp : SdReplyType) :
    (expectedReply cmdat replTyp).1 < 17 := by
  cases replTyp <;> exact of_decide_eq_true rfl

theorem crcFails_ok (reply : Reply) {len : ℕ} (hlen : len < 17) :
    ∃ fails, crcFails reply len = .ok fails := by
  rw [crcFails, Vector.getElem?_eq_getElem hlen]
  exact ⟨_, rfl⟩

theorem responseWord_ok (reply : Reply) (respBuf : Vector (BitVec 16) 8) {i : ℕ} (hi : i < 8) :
    ∃ respBuf', responseWord reply respBuf i = .ok respBuf' := by
  rw [responseWord, Vector.getElem?_eq_getElem (by omega), Vector.getElem?_eq_getElem (by omega)]
  exact ⟨_, dif_pos hi⟩

theorem responseWords_ok {reply : Reply} {respBuf : Vector (BitVec 16) 8} {n : ℕ} (hn : n ≤ 8) :
    ∃ respBuf', (List.range n).foldlM (responseWord reply) respBuf = .ok respBuf' := by
  have hall : Ensures ((List.range n).foldlM (responseWord reply) respBuf) (fun _ => True)
      (fun _ => False) := by
    apply Ensures.foldlM_range (I := fun _ _ => True) trivial
    intro i hi respBuf _
    obtain ⟨respBuf', hword⟩ := responseWord_ok reply respBuf (show i < 8 by omega)
    rw [hword]
    trivial
  cases hrun : (List.range n).foldlM (responseWord reply) respBuf with
  | ok respBuf' => exact ⟨respBuf', rfl⟩
  | error e =>
    rw [hrun] at hall
    exact hall.elim

theorem storeResponse_ok (reply : Reply) (respBuf : Vector (BitVec 16) 8) {len : ℕ}
    (hlen : len < 17) : ∃ respBuf', storeResponse reply len respBuf = .ok respBuf' := by
  rw [storeResponse, dif_pos hlen]
  exact responseWords_ok (by omega)

theorem commandSwitch_halts (vsd : Vsd) (cmd : Byte) (param : Word) (reply : Reply)
    (wasAcmd : Bool) :
    Ensures (vsd.commandSwitch cmd param reply wasAcmd) (fun _ => True) (· = .halt) := by
  unfold Vsd.commandSwitch
  split
  case h_4 =>
    unfold Vsd.command6
    split_ifs
    · trivial
    · trivial
    · rfl
  all_goals trivial

theorem callCard_ensures (m : Machine) : Ensures m.callCard
    (fun answer => answer.2.2.mmc = m.mmc ∧ (m.mmc.vsd = false → answer.1 = .none))
    (fun e => e = .halt ∧ m.mmc.vsd = true) := by
  unfold Machine.callCard
  split
  · rename_i hvsd
    have hhalts := commandSwitch_halts { m.vsd with acmdShift := false } (m.mmc.cmdReg &&& 0x3f)
      m.mmc.arg ((Vector.replicate 17 0).set 0 (m.mmc.cmdReg &&& 0x3f)) m.vsd.acmdShift
    unfold Vsd.vsdCommand
    cases hswitch : Vsd.commandSwitch { m.vsd with acmdShift := false } (m.mmc.cmdReg &&& 0x3f)
      m.mmc.arg ((Vector.replicate 17 0).set 0 (m.mmc.cmdReg &&& 0x3f)) m.vsd.acmdShift with
    | ok answer => exact ⟨rfl, fun h => by rw [h] at hvsd; cases hvsd⟩
    | error e =>
      rw [hswitch] at hhalts
      exact ⟨hhalts, hvsd⟩
  · exact ⟨rfl, fun _ => rfl⟩

theorem takeReply_ensures (m : Machine) (ret : SdReplyType) (reply : Reply) :
    Ensures (m.takeReply ret reply) (fun taken => (Bounded m → Bounded taken.2) ∧
      (taken.2.mmc.vsd, taken.2.mmc.blkLen, taken.2.mmc.numBlks, taken.2.mmc.cmdat) =
        (m.mmc.vsd, m.mmc.blkLen, m.mmc.numBlks, m.mmc.cmdat) ∧
      taken.1 = (expectedReply m.mmc.cmdat ret).2.1) (fun _ => False) := by
  have hlen := expectedReply_length m.mmc.cmdat ret
  obtain ⟨fails, hfails⟩ := crcFails_ok reply hlen
  obtain ⟨respBuf, hstore⟩ := storeResponse_ok reply m.mmc.respBuf hlen
  unfold Machine.takeReply
  generalize expectedReply m.mmc.cmdat ret = expected at hlen hfails hstore ⊢
  obtain ⟨len, success, doCrcCheck⟩ := expected
  have hcheck : ∃ crcFail, (if success = true ∧ len ≠ 0 ∧ doCrcCheck = true then crcFails reply len
      else .ok false) = .ok crcFail := by grind
  obtain ⟨crcFail, hcheck⟩ := hcheck
  dsimp only at hstore ⊢
  rw [hcheck]
  cases success with
  | true =>
    dsimp only [bind, Except.bind]
    rw [if_pos rfl, hstore]
    exact ⟨fun hb => ⟨hb.blkLen, hb.fifoBytes⟩, rfl, rfl⟩
  | false => exact ⟨fun hb => ⟨hb.blkLen, hb.fifoBytes⟩, rfl, rfl⟩

theorem finished_safeIff {r : Except Fault Machine} {success : Bool} (h : SafeIff r p) :
    SafeIff (do
      let m ← r
      let m := if ¬ success = true ∨ ¬ m.mmc.writing = true then
        m.modify fun mmc => mmc.setStat 0x1000 else m
      return m.modify PxaMmc.recalc) p := by
  apply h.map
  intro m hm
  apply bounded_recalc
  split
  · exact ⟨hm.blkLen, hm.fifoBytes⟩
  · exact hm

theorem finishCommand_safeIff (hb : Bounded m) (success : Bool) : SafeIff (m.finishCommand success)
    (success = true → m.mmc.cmdat &&& 4 ≠ 0 → m.mmc.blkLen ≠ 0 → m.mmc.numBlks ≠ 0 →
      m.mmc.cmdat &&& 8 = 0 → m.mmc.vsd = true) := by
  unfold Machine.finishCommand
  by_cases hdata : success = true ∧ m.mmc.cmdat &&& 4 ≠ 0
  · rw [if_pos hdata]
    apply (finished_safeIff (dataXferStart_safeIff hb)).congr
    exact ⟨fun h _ _ => h, fun h => h hdata.1 hdata.2⟩
  · rw [if_neg hdata]
    apply (finished_safeIff (safeIff_state hb)).congr
    exact ⟨fun _ hs hc => absurd ⟨hs, hc⟩ hdata, fun _ => trivial⟩

theorem SafeIff.of_bind {α : Type} {r : Except Fault α} {P : α → Prop} {f : α → Except Fault Machine}
    (hr : Ensures r P fun e => e = .halt ∧ p) (hf : ∀ a, P a → SafeIff (f a) p) :
    SafeIff (r >>= f) p := by
  cases r with
  | ok a => exact hf a hr
  | error e => exact ⟨fun _ => hr.1, fun hn => absurd hr.2 hn⟩

/-- A command goes astray exactly if it is a blind start: with a card every call is answered,
and without one no reply is the only one. -/
theorem sendCommand_safeIff (hb : Bounded m) :
    SafeIff m.sendCommand (¬ m.mmc.BlindStart m.mmc.cmdat) := by
  apply SafeIff.of_bind ((callCard_ensures _).imp (fun _ h => h) _)
  · rintro ⟨ret, reply, called⟩ ⟨hmmc, hnone⟩
    have hcalled : Bounded called :=
      ⟨by rw [hmmc]; exact hb.blkLen, by rw [hmmc]; exact hb.fifoBytes⟩
    apply SafeIff.of_bind ((takeReply_ensures called ret reply).imp (fun _ h => h) fun _ h => h.elim)
    rintro ⟨success, taken⟩ ⟨hbounded, hsame, hsuccess⟩
    apply (finishCommand_safeIff (hbounded hcalled) success).congr
    dsimp only at hsame hsuccess ⊢
    rw [hmmc] at hsame hsuccess
    simp only [Prod.mk.injEq] at hsame
    obtain ⟨hvsd, hblkLen, hnumBlks, hcmdat⟩ := hsame
    rw [hvsd, hblkLen, hnumBlks, hcmdat, hsuccess]
    dsimp only [Machine.modify]
    constructor
    · intro h hblind
      have hnoReply : ret = .none := hnone hblind.1
      rw [hnoReply, hblind.1] at h
      have hcalls := h (decide_eq_true hblind.2.1) hblind.2.2.1 hblind.2.2.2.2.1 hblind.2.2.2.2.2
        hblind.2.2.2.1
      cases hcalls
    · intro hblind hs hdata hlen hnum hread
      by_contra hvsd
      rw [Bool.not_eq_true] at hvsd
      have hnoReply : ret = .none := hnone hvsd
      rw [hnoReply] at hs
      exact hblind ⟨hvsd, of_decide_eq_true hs, hdata, hread, hlen, hnum⟩
  · rintro e ⟨he, hvsd⟩
    refine ⟨he, fun hblind => ?_⟩
    have hno : m.mmc.vsd = false := hblind.1
    rw [show m.mmc.vsd = true from hvsd] at hno
    cases hno

theorem accept_safeIff (hb : Bounded m) (val : Word) :
    SafeIff ((m.accept val).map BusAccess.machine) True := safeIff_state hb

theorem refuse_safeIff (hb : Bounded m) : SafeIff (m.refuse.map BusAccess.machine) True :=
  safeIff_state hb

theorem bounded_irqUpdate (hb : Bounded m) : Bounded (m.modify PxaMmc.irqUpdate) :=
  ⟨hb.blkLen, hb.fifoBytes⟩

theorem accepted_safeIff {r : Except Fault Machine} (h : SafeIff r p) {f : Machine → Machine}
    (hf : ∀ m, Bounded m → Bounded (f m)) :
    SafeIff (Except.map BusAccess.machine (r >>= fun m => (f m).accept 0)) p := by
  have heq : Except.map BusAccess.machine (r >>= fun m => (f m).accept 0) = r.map f := by
    cases r <;> rfl
  rw [heq]
  exact h.map hf

theorem writeClock_safeIff (hb : Bounded m) (val : Word) :
    SafeIff ((m.writeClock val).map BusAccess.machine)
      (val &&& 3 = 2 → m.mmc.cmdQueued = true → ¬ m.mmc.BlindStart m.mmc.cmdat) := by
  have hcode (k : Word) (hk : val &&& 3 = k) (hne : k ≠ 2) : ¬ val &&& 3 = 2 :=
    fun h => hne (hk.symm.trans h)
  unfold Machine.writeClock
  split
  · rename_i hval
    apply (accept_safeIff (bounded_irqUpdate hb) 0).congr
    exact ⟨fun _ h => absurd h (hcode 0 (BitVec.eq_of_toNat_eq hval) (by decide)), fun _ => trivial⟩
  · rename_i hval
    apply (accept_safeIff (bounded_irqUpdate (bounded_modify hb rfl hb.fifoBytes)) 0).congr
    exact ⟨fun _ h => absurd h (hcode 1 (BitVec.eq_of_toNat_eq hval) (by decide)), fun _ => trivial⟩
  · rename_i hval
    have hstart : val &&& 3 = 2 := BitVec.eq_of_toNat_eq hval
    have hclock : Bounded (m.modify fun mmc =>
        PxaMmc.recalc { mmc.setStat 0x100 with clockOn := true }) := ⟨hb.blkLen, hb.fifoBytes⟩
    apply (accepted_safeIff (p := m.mmc.cmdQueued = true → ¬ m.mmc.BlindStart m.mmc.cmdat) _
      fun m hm => bounded_irqUpdate hm).congr ⟨fun h _ => h, fun h => h hstart⟩
    split
    · rename_i hqueued
      apply (sendCommand_safeIff hclock).congr
      exact ⟨fun h _ => h, fun h => h hqueued⟩
    · rename_i hqueued
      apply (safeIff_state hclock).congr
      exact ⟨fun _ h => absurd h hqueued, fun _ => trivial⟩
  · rename_i h0 h1 h2
    apply (refuse_safeIff (bounded_irqUpdate hb)).congr
    exact ⟨fun _ h => absurd (congrArg BitVec.toNat h) h2, fun _ => trivial⟩

theorem writeCmdat_safeIff (hb : Bounded m) (val : Word) :
    SafeIff ((m.writeCmdat val).map BusAccess.machine)
      (m.mmc.clockOn = true → ¬ m.mmc.BlindStart (val.setWidth 8)) := by
  have hset : Bounded (m.modify fun mmc => PxaMmc.recalc { mmc with
      cmdat := val.setWidth 8
      status := { mmc.status with stat := (mmc.status.stat &&& 0x100) ||| 0x40 } }) :=
    ⟨hb.blkLen, hb.fifoBytes⟩
  apply accepted_safeIff (f := id) _ fun m hm => hm
  split
  · rename_i hclock
    apply (sendCommand_safeIff hset).congr
    exact ⟨fun h _ => h, fun h => h hclock⟩
  · rename_i hclock
    have hqueued : Bounded (Machine.modify (m.modify fun mmc => PxaMmc.recalc { mmc with
        cmdat := val.setWidth 8
        status := { mmc.status with stat := (mmc.status.stat &&& 0x100) ||| 0x40 } })
        fun mmc => { mmc with cmdQueued := true }) := ⟨hb.blkLen, hb.fifoBytes⟩
    apply (safeIff_state hqueued).congr
    exact ⟨fun _ h => absurd h hclock, fun _ => trivial⟩

theorem map_machine {α : Type} {r : Except Fault (α × Machine)} {f : α × Machine → BusAccess}
    (h : ∀ x, (f x).machine = x.2) : (r.map f).map BusAccess.machine = r.map Prod.snd := by
  cases r with
  | error fault => rfl
  | ok x => exact congrArg Except.ok (h x)

theorem writeRegister_safeIff (hb : Bounded m) (reg : ℕ) (val : Word) :
    SafeIff ((m.writeRegister reg val).map BusAccess.machine) (m.mmc.HarmlessWrite reg val) := by
  unfold Machine.writeRegister
  split
  case h_1 => exact writeClock_safeIff hb val
  case h_3 =>
    split
    · exact refuse_safeIff hb
    · apply accept_safeIff
      exact ⟨hb.blkLen, hb.fifoBytes⟩
  case h_5 => exact writeCmdat_safeIff hb val
  case h_8 =>
    have hlen : ((val &&& 0x3ff).setWidth 16 : BitVec 16).toNat < 1024 := by
      have hmask : (val &&& 0x3ff).toNat ≤ 0x3ff := by
        exact Nat.and_le_right
      rw [BitVec.toNat_setWidth]
      omega
    apply accept_safeIff
    exact ⟨hlen, hb.fifoBytes⟩
  case h_15 =>
    rw [map_machine fun _ => rfl]
    exact dataFifoW_safeIff hb val
  case h_16 h0 _ _ _ h4 _ _ _ _ _ _ _ _ _ h17 =>
    have hharmless : m.mmc.HarmlessWrite reg val := by simp [PxaMmc.HarmlessWrite]
    exact (refuse_safeIff hb).congr (iff_of_true trivial hharmless)
  all_goals
    apply accept_safeIff
    exact ⟨hb.blkLen, hb.fifoBytes⟩

theorem readRegister_safeIff (hb : Bounded m) (reg : ℕ) :
    SafeIff ((m.readRegister reg).map BusAccess.machine) (m.mmc.HarmlessRead reg) := by
  unfold Machine.readRegister
  split
  case h_15 =>
    rw [map_machine fun _ => rfl]
    exact dataFifoR_safeIff hb
  case h_16 _ _ _ _ _ _ _ _ _ _ _ _ _ _ h16 =>
    have hharmless : m.mmc.HarmlessRead reg := by simp [PxaMmc.HarmlessRead]
    exact (refuse_safeIff hb).congr (iff_of_true trivial hharmless)
  all_goals
    apply accept_safeIff
    exact ⟨hb.blkLen, hb.fifoBytes⟩

theorem step_safeIff (hb : Bounded m) (e : Event) : SafeIff (m.step e) (e.Harmless m.mmc) := by
  cases e with
  | access pa size write buf =>
    unfold Machine.step Machine.memAccessF
    dsimp only [Event.Harmless]
    by_cases hsize : size ≠ 4
    · rw [if_pos hsize]
      exact (refuse_safeIff hb).congr (by simp [hsize])
    rw [if_neg hsize]
    rw [not_not] at hsize
    cases write with
    | true => exact (writeRegister_safeIff hb _ buf).congr (by simp [hsize])
    | false => exact (readRegister_safeIff hb _).congr (by simp [hsize])
  | initializeCard sectors data => exact safeIff_state ⟨hb.blkLen, hb.fifoBytes⟩
  | resetCard => exact safeIff_state ⟨hb.blkLen, hb.fifoBytes⟩
  | insert =>
    apply safeIff_state
    unfold Machine.socSdInsert
    split
    · exact hb
    · exact ⟨hb.blkLen, hb.fifoBytes⟩
  | eject => exact safeIff_state ⟨hb.blkLen, hb.fifoBytes⟩

/-- A run from within the bounds, by induction on its events. -/
theorem run_safe_iff (hb : Bounded m) (events : List Event) :
    Safe (m.run events) ↔ AllHarmless m events := by
  induction events generalizing m with
  | nil => exact iff_of_true trivial trivial
  | cons e events ih =>
    have hstep := step_safeIff hb e
    have hsafe := safeIff_iff hstep
    rw [AllHarmless, Machine.run, List.foldlM_cons]
    cases hnext : m.step e with
    | ok m' =>
      rw [hnext] at hsafe
      have hharmless : e.Harmless m.mmc := hsafe.mp trivial
      have hb' : Bounded m' := (hstep.keeps hharmless).of_ok hnext
      rw [and_iff_right hharmless]
      change Safe (m'.run events) ↔ _
      rw [ih hb']
      constructor <;> simp
    | error e' =>
      rw [hnext] at hsafe
      change Safe (.error e' : Except Fault Machine) ↔ _
      have hsame : Safe (.error e' : Except Fault Machine) ↔ e.Harmless m.mmc := hsafe
      rw [hsame]
      constructor <;> simp

theorem bounded_init : Bounded .init := ⟨by decide, by decide⟩

/-- Every access to the buffers is in range and every card that is called is there exactly if all
events of the run are harmless. -/
theorem safe_iff_allHarmless (events : List Event) :
    Safe (Machine.init.run events) ↔ AllHarmless .init events :=
  run_safe_iff bounded_init events

/-- Clock on, one block of one byte, and a command that expects no reply but reads data. -/
def blindEvents : List Event :=
  [.access 0x41100000 4 true 2, .access 0x4110001c 4 true 1, .access 0x41100020 4 true 1,
    .access 0x41100010 4 true 4]

theorem not_safe_blindEvents : ¬ Safe (Machine.init.run blindEvents) := by
  have hfault : (match Machine.init.run blindEvents with
      | .error .noCard => true
      | _ => false) = true := by decide +kernel
  intro h
  cases hrun : Machine.init.run blindEvents with
  | ok m => grind
  | error e =>
    rw [hrun] at h hfault
    cases h
    cases hfault

end Cloudpilot.Uarm.Mmc
