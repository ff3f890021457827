import Cloudpilot.Uarm.Mmc.CardState

/-! # Reading byte by byte

The FIFO holds the block of the byte that comes next, and the card is one block ahead.
Whether there still is a block to fetch is decided when the last byte of one is taken.
-/
namespace Cloudpilot.Uarm.Mmc
open Cpu

variable {m m' : Machine} {card : SdCard} {start : Vsd} {state : State}
  {blocks s room total i n : ℕ}

theorem offset_eq {sector : Word} (h : sector.toNat < 2 ^ 23) :
    SdCard.offset sector = 512 * sector.toNat :=
  Vsd.toNat_address h

theorem sdCardRead_some {sector : Word} (hroom : sector.toNat < card.sectorsTotal)
    (hwithin : sector.toNat < 2 ^ 23) :
    card.sdCardRead sector = some (card.disk.block sector.toNat) := by
  rw [SdCard.sdCardRead, if_neg (by omega), offset_eq hwithin]
  rfl

theorem sdCardRead_none {sector : Word} (hroom : card.sectorsTotal ≤ sector.toNat) :
    card.sdCardRead sector = none :=
  if_pos hroom

/-- The card is about to move a sector. -/
structure Offers (vsd : Vsd) (state : State) (sector : ℕ) : Prop where
  state : vsd.state = state
  curSec : vsd.curSec.toNat = sector
  bufIsData : vsd.bufIsData = true
  curBufLen : vsd.curBufLen = 512

/-- The card moves, or tries to, every block of a transfer from the sector on; the disk has room
for some of them. -/
structure Plan (start : Vsd) (state : State) (s room total : ℕ) : Prop where
  offers : ∀ f < total, f ≤ room → Offers (Vsd.nextBlock^[f] start) state (s + f)
  within : ∀ f < total, f < room → s + f < 2 ^ 23

theorem Plan.mono {total' : ℕ} (h : Plan start state s room total) (hle : total' ≤ total) :
    Plan start state s room total' :=
  ⟨fun f hf => h.offers f (by omega), fun f hf => h.within f (by omega)⟩

/-- A controller with a card, its clock and blocks of 512 bytes. -/
structure Engaged (m : Machine) : Prop where
  vsd : m.mmc.vsd = true
  clockOn : m.mmc.clockOn = true
  blkLen : m.mmc.blkLen = 512

/-- A block that could not be moved. -/
structure Failed (m : Machine) : Prop extends Engaged m where
  failed : m.failed = true

theorem nextBlockRead_ok {sector : ℕ} (he : Engaged m) (hongoing : m.mmc.dataXferOngoing = true)
    (hoffers : Offers m.vsd .data sector) (hroom : sector < m.card.sectorsTotal)
    (hwithin : sector < 2 ^ 23) :
    m.nextBlockRead = .ok { m with
      mmc := { m.mmc with
        blockFifo := fun i => (List.ofFn (m.card.disk.block sector)).getD i (m.mmc.blockFifo i)
        fifoBytes := m.mmc.blkLen.toNat
        fifoOfst := 0
        numBlks := m.mmc.numBlks - 1 }
      vsd := m.vsd.nextBlock } := by
  have hlen : m.mmc.blkLen.toNat = 512 := by rw [he.blkLen]; rfl
  have hread : m.vsd.dataXferBlockFromCard m.card m.mmc.blkLen.toNat =
      (.ok, List.ofFn (m.card.disk.block sector), m.vsd.nextBlock) := by
    rw [Vsd.dataXferBlockFromCard, if_neg (by simp [hoffers.state]),
      if_neg (by simp [hlen, hoffers.curBufLen]), if_pos hoffers.bufIsData,
      sdCardRead_some (by rw [hoffers.curSec]; exact hroom) (by rw [hoffers.curSec]; exact hwithin),
      hoffers.curSec]
  have hlength : (List.ofFn (m.card.disk.block sector)).length ≤ 1024 := by grind
  generalize List.ofFn (m.card.disk.block sector) = bytes at hread hlength ⊢
  rw [Machine.nextBlockRead, if_neg (by simp [hongoing]), if_neg (by simp [he.vsd]), hread]
  dsimp only
  rw [fillFifo, if_pos hlength]
  rfl

theorem nextBlockRead_fails {sector : ℕ} (he : Engaged m) (hongoing : m.mmc.dataXferOngoing = true)
    (hoffers : Offers m.vsd .data sector) (hroom : m.card.sectorsTotal ≤ sector) :
    m.nextBlockRead = .ok (m.modify fun mmc => mmc.setStat 0x0001) := by
  have hlen : m.mmc.blkLen.toNat = 512 := by rw [he.blkLen]; rfl
  have hread : m.vsd.dataXferBlockFromCard m.card m.mmc.blkLen.toNat =
      (.errBackingStore, [], m.vsd) := by
    rw [Vsd.dataXferBlockFromCard, if_neg (by simp [hoffers.state]),
      if_neg (by simp [hlen, hoffers.curBufLen]), if_pos hoffers.bufIsData,
      sdCardRead_none (by rw [hoffers.curSec]; exact hroom)]
  rw [Machine.nextBlockRead, if_neg (by simp [hongoing]), if_neg (by simp [he.vsd]), hread]
  rfl

/-- The number of blocks that have been fetched when some bytes have been read. -/
def fetched (blocks i : ℕ) : ℕ := min blocks (i / 512 + 1)

structure Loaded (m : Machine) (i : ℕ) (block : Block) : Prop where
  ongoing : m.mmc.dataXferOngoing = true
  fifoBytes : m.mmc.fifoBytes = 512 - i % 512
  fifoOfst : m.mmc.fifoOfst = i % 512
  blockFifo : ∀ j : Fin 512, m.mmc.blockFifo j = block j

/-- A transfer of which some bytes have been read. -/
structure ReadingAt (start : Vsd) (card : SdCard) (blocks s i : ℕ) (m : Machine) : Prop
    extends Engaged m where
  card_eq : m.card = card
  vsd_eq : m.vsd = Vsd.nextBlock^[fetched blocks i] start
  numBlks : m.mmc.numBlks.toNat = blocks - (i / 512 + 1)
  loaded : i < 512 * blocks → Loaded m i (card.disk.block (s + i / 512))
  sound : m.failed = false

/-- A transfer that came to the end of the disk. -/
structure ReadFailed (start : Vsd) (card : SdCard) (f : ℕ) (m : Machine) : Prop
    extends Failed m where
  card_eq : m.card = card
  vsd_eq : m.vsd = Vsd.nextBlock^[f] start

/-- What the next byte or the end of a fetch leaves: the transfer goes on as long as the disk has
room for what has been fetched. -/
def ReadingOrFailed (start : Vsd) (card : SdCard) (blocks s room i : ℕ) (m : Machine) : Prop :=
  (fetched blocks i ≤ room → ReadingAt start card blocks s i m) ∧
    (room < fetched blocks i → ReadFailed start card room m)

theorem toNat_pred {x : BitVec 16} (h : x ≠ 0) : (x - 1).toNat = x.toNat - 1 := by
  have hpos : x.toNat ≠ 0 := fun hzero => h (BitVec.eq_of_toNat_eq hzero)
  rw [BitVec.toNat_sub, show (1 : BitVec 16).toNat = 1 from rfl]
  omega

theorem getD_ofFn (block : Block) (f : ℕ → Byte) (j : Fin 512) :
    (List.ofFn block).getD j (f j) = block j := by
  rw [List.getD_eq_getElem?_getD, List.getElem?_ofFn]
  simp

theorem fetch_spec {b : ℕ} (he : Engaged m) (hongoing : m.mmc.dataXferOngoing = true)
    (hcard : m.card = card) (hroomEq : room = card.disk.room s) (hb : b < blocks)
    (hplan : Plan start .data s room (b + 1)) (hvsd : m.vsd = Vsd.nextBlock^[b] start)
    (hle : b ≤ room) (hnum : m.mmc.numBlks.toNat = blocks - b) (hsound : m.failed = false) :
    ∃ m', m.nextBlockRead = .ok m' ∧
      ReadingOrFailed start card blocks s room (512 * b) m' := by
  have hdiv : 512 * b / 512 = b := Nat.mul_div_cancel_left b (by decide)
  have hmod : 512 * b % 512 = 0 := Nat.mul_mod_right 512 b
  have hfetched : fetched blocks (512 * b) = b + 1 := by
    rw [fetched, hdiv]
    omega
  have hoffers := hplan.offers b (Nat.lt_succ_self b) hle
  rw [← hvsd] at hoffers
  have hsectors : card.disk.room s = m.card.sectorsTotal - s := by rw [hcard]; rfl
  by_cases hmore : b < room
  · refine ⟨_, nextBlockRead_ok he hongoing hoffers (by omega)
      (hplan.within b (Nat.lt_succ_self b) hmore), ?_⟩
    refine ⟨fun _ => ?_, fun hfew => absurd hfew (by omega)⟩
    refine ⟨⟨he.vsd, he.clockOn, he.blkLen⟩, hcard, ?_, ?_, ?_, hsound⟩
    · rw [hfetched, Function.iterate_succ_apply', ← hvsd]
    · have hne : m.mmc.numBlks ≠ 0 := by
        intro hzero
        rw [hzero] at hnum
        have hnone : (0 : BitVec 16).toNat = 0 := rfl
        omega
      rw [toNat_pred hne, hnum, hdiv]
      omega
    · intro _
      refine ⟨hongoing, ?_, hmod.symm, ?_⟩
      · rw [he.blkLen, hmod]
        rfl
      · intro j
        dsimp only
        rw [getD_ofFn, hdiv, hcard]
  · refine ⟨_, nextBlockRead_fails he hongoing hoffers (by omega), ?_⟩
    refine ⟨fun hfit => absurd hfit (by omega), fun _ => ?_⟩
    refine ⟨⟨⟨he.vsd, he.clockOn, he.blkLen⟩, ?_⟩, hcard, ?_⟩
    · exact decide_eq_true (setStat_failed m.mmc.status (by decide))
    · rwa [show room = b by omega]

theorem readingOrFailed_status {status : Status} (herrors : status.errors = m.mmc.status.errors)
    (h : ReadingOrFailed start card blocks s room i m) :
    ReadingOrFailed start card blocks s room i { m with mmc := { m.mmc with status := status } } := by
  have hfailed : Machine.failed { m with mmc := { m.mmc with status := status } } = m.failed :=
    failed_of_errors herrors
  constructor
  · intro hfit
    have hm := h.1 hfit
    refine ⟨⟨hm.vsd, hm.clockOn, hm.blkLen⟩, hm.card_eq, hm.vsd_eq, hm.numBlks, ?_,
      hfailed.trans hm.sound⟩
    intro hi
    have hl := hm.loaded hi
    exact ⟨hl.ongoing, hl.fifoBytes, hl.fifoOfst, hl.blockFifo⟩
  · intro hfew
    have hm := h.2 hfew
    exact ⟨⟨⟨hm.vsd, hm.clockOn, hm.blkLen⟩, hfailed.trans hm.failed⟩, hm.card_eq, hm.vsd_eq⟩

theorem readingOrFailed_recalc (h : ReadingOrFailed start card blocks s room i m) :
    ReadingOrFailed start card blocks s room i (m.modify PxaMmc.recalc) :=
  readingOrFailed_status (recalc_errors ..) h

/-- The controller when a byte has been taken from the FIFO. -/
def Machine.taken (m : Machine) : Machine :=
  m.modify fun mmc => { mmc with fifoOfst := mmc.fifoOfst + 1, fifoBytes := mmc.fifoBytes - 1 }

theorem emptied_spec (h : ReadingAt start card blocks s i m) (hi : i < 512 * blocks)
    (hroom : room = card.disk.room s) (hfit : fetched blocks i ≤ room)
    (hplan : Plan start .data s room (fetched blocks (i + 1))) :
    ∃ m', m.taken.emptied = .ok m' ∧ ReadingOrFailed start card blocks s room (i + 1) m' := by
  have hl := h.loaded hi
  have htaken : Engaged m.taken := ⟨h.vsd, h.clockOn, h.blkLen⟩
  have hbytes : m.taken.mmc.fifoBytes = 512 - i % 512 - 1 := by
    rw [← hl.fifoBytes]
    rfl
  unfold Machine.emptied
  by_cases hrest : m.taken.mmc.fifoBytes ≠ 0
  · have hdiv : (i + 1) / 512 = i / 512 := by omega
    have hmod : (i + 1) % 512 = i % 512 + 1 := by omega
    have hsame : fetched blocks (i + 1) = fetched blocks i := by rw [fetched, hdiv, fetched]
    rw [if_pos hrest]
    refine ⟨m.taken, rfl, fun _ => ?_, fun hfew => absurd hfew (by omega)⟩
    refine ⟨htaken, h.card_eq, ?_, ?_, ?_, h.sound⟩
    · rw [hsame]
      exact h.vsd_eq
    · rw [hdiv]
      exact h.numBlks
    · intro _
      refine ⟨hl.ongoing, by omega, ?_, ?_⟩
      · rw [hmod, ← hl.fifoOfst]
        rfl
      · rw [hdiv]
        exact hl.blockFifo
  have hdiv : (i + 1) / 512 = i / 512 + 1 := by omega
  have hstart : i + 1 = 512 * (i / 512 + 1) := by omega
  rw [if_neg hrest]
  have hnum : m.taken.mmc.numBlks.toNat = blocks - (i / 512 + 1) := h.numBlks
  have hfetched : fetched blocks i = i / 512 + 1 := by
    rw [fetched]
    omega
  by_cases hmore : m.taken.mmc.numBlks ≠ 0
  · rw [if_pos hmore, hstart]
    have hlt : i / 512 + 1 < blocks := by
      by_contra hlast
      apply hmore
      apply BitVec.eq_of_toNat_eq
      rw [hnum]
      exact Nat.sub_eq_zero_of_le (by omega)
    apply fetch_spec htaken hl.ongoing h.card_eq hroom hlt _ _ (by omega) hnum h.sound
    · apply hplan.mono
      rw [fetched, hdiv]
      omega
    · rw [← hfetched]
      exact h.vsd_eq
  · rw [if_neg hmore]
    rw [not_not] at hmore
    rw [hmore] at hnum
    have hlast : blocks ≤ i / 512 + 1 := Nat.le_of_sub_eq_zero hnum.symm
    have hsame : fetched blocks (i + 1) = fetched blocks i := by
      rw [hfetched, fetched, hdiv]
      omega
    refine ⟨_, rfl, fun _ => ?_, fun hfew => absurd hfew (by omega)⟩
    refine ⟨⟨h.vsd, h.clockOn, h.blkLen⟩, h.card_eq, ?_, ?_, fun hlt => absurd hlt (by omega), ?_⟩
    · rw [hsame]
      exact h.vsd_eq
    · refine (congrArg BitVec.toNat hmore).trans ?_
      exact (Nat.sub_eq_zero_of_le (by omega)).symm
    · rw [failed_of_errors (m := m) (setStat_errors _ _ (by decide))]
      exact h.sound

theorem readByte_spec (h : ReadingAt start card blocks s i m) (hi : i < 512 * blocks)
    (hroom : room = card.disk.room s) (hfit : fetched blocks i ≤ room)
    (hplan : Plan start .data s room (fetched blocks (i + 1))) :
    ∃ m', m.memAccessF 0x41100040 4 false 0 = .ok ⟨true, (card.disk.content s i).setWidth 32, m'⟩ ∧
      ReadingOrFailed start card blocks s room (i + 1) m' := by
  have hl := h.loaded hi
  obtain ⟨m', hemptied, hm'⟩ := emptied_spec h hi hroom hfit hplan
  refine ⟨m'.modify PxaMmc.recalc, ?_, readingOrFailed_recalc hm'⟩
  have hbyte : m.mmc.blockFifo m.mmc.fifoOfst = card.disk.content s i := by
    rw [hl.fifoOfst]
    exact hl.blockFifo (Fin.ofNat 512 i)
  have hread : m.dataFifoR = .ok (some (card.disk.content s i), m'.modify PxaMmc.recalc) := by
    have hbytes := hl.fifoBytes
    have hofst := hl.fifoOfst
    unfold Machine.dataFifoR
    rw [if_neg (by omega), if_neg (by omega), hbyte]
    change Except.map _ m.taken.emptied = _
    rw [hemptied]
    rfl
  have haccess : m.memAccessF 0x41100040 4 false 0 =
      m.dataFifoR.map fun x => ⟨x.1.isSome, (x.1.getD 0).setWidth 32, x.2⟩ := rfl
  rw [haccess, hread]
  rfl

theorem readBytes_failed (h : m.failed = true) (n : ℕ) : Machine.readBytes n m = .ok ([], m) := by
  cases n with
  | zero => rfl
  | succ n => rw [Machine.readBytes, if_pos h]

theorem setWidth_byte (byte : Byte) : (byte.setWidth 32).setWidth 8 = byte := by
  apply BitVec.eq_of_toNat_eq
  rw [BitVec.toNat_setWidth, BitVec.toNat_setWidth]
  omega

/-- The bytes of a transfer, by induction on those that are left. -/
theorem readBytes_spec (h : ReadingAt start card blocks s i m) (hi : i + n ≤ 512 * blocks)
    (hroom : room = card.disk.room s) (hfit : fetched blocks i ≤ room)
    (hplan : Plan start .data s room (fetched blocks (i + n))) :
    ∃ m', Machine.readBytes n m =
        .ok ((List.range' i (min (i + n) (512 * room) - i)).map (card.disk.content s), m') ∧
      ReadingOrFailed start card blocks s room (i + n) m' := by
  induction n generalizing i m with
  | zero =>
    refine ⟨m, ?_, fun _ => h, fun hfew => absurd hfew (Nat.not_lt.mpr hfit)⟩
    rw [show min (i + 0) (512 * room) - i = 0 by omega]
    rfl
  | succ n ih =>
    have hnext : fetched blocks (i + 1) ≤ fetched blocks (i + (n + 1)) := by grind [fetched]
    obtain ⟨m', hbyte, hm'⟩ := readByte_spec h (by omega) hroom hfit (hplan.mono hnext)
    have hstep (bytes : List Byte) (m'' : Machine) (hrest : Machine.readBytes n m' = .ok (bytes, m'')) :
        Machine.readBytes (n + 1) m = .ok (card.disk.content s i :: bytes, m'') := by
      rw [Machine.readBytes, if_neg (by simp [h.sound]), hbyte]
      change (Machine.readBytes n m' >>= _) = _
      rw [hrest]
      change Except.ok (((card.disk.content s i).setWidth 32).setWidth 8 :: bytes, m'') = _
      rw [setWidth_byte]
    have hinside : i < 512 * room := by
      rw [fetched] at hfit
      omega
    have hcons (k : ℕ) : (List.range' i (k + 1)).map (card.disk.content s) =
        card.disk.content s i :: (List.range' (i + 1) k).map (card.disk.content s) := by rfl
    by_cases hgoes : fetched blocks (i + 1) ≤ room
    · obtain ⟨m'', hrest, hm''⟩ := ih (hm'.1 hgoes) (by omega) hgoes (by
        rw [Nat.add_assoc, Nat.add_comm 1]
        exact hplan)
      rw [Nat.add_assoc, Nat.add_comm 1] at hrest hm''
      refine ⟨m'', ?_, hm''⟩
      rw [hstep _ _ hrest, ← hcons]
      congr 4
      omega
    · have hfailed := hm'.2 (by omega)
      refine ⟨m', ?_, fun hall => absurd hall (by omega), fun _ => hfailed⟩
      rw [hstep _ _ (readBytes_failed hfailed.failed n)]
      have hone : min (i + (n + 1)) (512 * room) - i = 0 + 1 := by
        rw [fetched] at hfit hgoes
        omega
      rw [hone, hcons]
      rfl

end Cloudpilot.Uarm.Mmc
