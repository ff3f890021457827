import Cloudpilot.Uarm.Mmc.BlockReads

/-! # Writing byte by byte

The FIFO holds the part of the current block that has been written to it. The last byte
of a block stores the block.
-/

namespace Cloudpilot.Uarm.Mmc

open Cpu Nat

section

variable {m m' : Machine} {card : SdCard} {start : Vsd} {disk : Disk} {data : ℕ → Byte}
  {blocks s room i n : ℕ}

theorem putBlock_disk (card : SdCard) (k : ℕ) (block : Block) :
    (fun n (j : Fin 512) => SdCard.putBlock card.data (512 * k) block (512 * n + j)) =
      Function.update card.disk.block k block := by
  funext n j
  by_cases hn : n = k
  · subst hn
    rw [Function.update_self, SdCard.putBlock, dif_pos (by omega)]
    congr 1
    apply Fin.ext
    exact Nat.add_sub_cancel_left ..
  · rw [Function.update_of_ne hn, SdCard.putBlock, dif_neg (by omega)]
    rfl

theorem markPage_disk (dirtyPages : ℕ → Word) (page : ℕ) :
    (fun p => (SdCard.markPage dirtyPages page (p / 32)).getLsbD (p % 32)) =
      Function.update (fun p => (dirtyPages (p / 32)).getLsbD (p % 32)) page true := by
  funext p
  have hbit : page % 32 < 32 := mod_lt _ (by decide)
  rw [SdCard.markPage]
  by_cases hp : p = page
  · subst hp
    simp [hbit]
  rw [Function.update_of_ne hp]
  by_cases hword : p / 32 = page / 32
  · rw [hword, Function.update_self, BitVec.getLsbD_or]
    have hclear : ((1 : Word) <<< (page % 32)).getLsbD (p % 32) = false := by
      simp
      omega
    rw [hclear, Bool.or_false]
  · rw [Function.update_of_ne hword]

theorem sdCardWrite_some (card : SdCard) {sector : Word} (hroom : sector.toNat < card.sectorsTotal)
    (hwithin : sector.toNat < 2 ^ 23) (block : Block) : ∃ card',
      card.sdCardWrite sector block = some card' ∧
        card'.disk = card.disk.write sector.toNat block := by
  refine ⟨_, if_neg (by omega), ?_⟩
  have hpage : (sector >>> 4).toNat = sector.toNat / 16 := by simp [shiftRight_eq_div_pow]
  rw [SdCard.disk, Disk.write]
  rw [offset_eq hwithin, putBlock_disk, hpage, markPage_disk]
  rfl

theorem sdCardWrite_none {sector : Word} (hroom : card.sectorsTotal ≤ sector.toNat) (block : Block) :
    card.sdCardWrite sector block = none :=
  if_pos hroom

structure Stored (m : Machine) (sector : ℕ) (m' : Machine) : Prop extends Engaged m' where
  disk : m'.card.disk = m.card.disk.write sector (fifoBlock m.mmc.blockFifo)
  vsd_eq : m'.vsd = m.vsd.nextBlock
  fifoBytes : m'.mmc.fifoBytes = 0
  numBlks : m'.mmc.numBlks = m.mmc.numBlks - 1
  ongoing : m'.mmc.numBlks ≠ 0 → m'.mmc.dataXferOngoing = m.mmc.dataXferOngoing
  failed : m'.failed = m.failed

theorem blockToCard_ok {sector : ℕ} (he : Engaged m) (hoffers : Offers m.vsd .rcv sector)
    (hroom : sector < m.card.sectorsTotal) (hwithin : sector < 2 ^ 23) :
    ∃ m', m.blockToCard = .ok m' ∧ Stored m sector m' := by
  have hlen : m.mmc.blkLen.toNat = 512 := by rw [he.blkLen]; rfl
  obtain ⟨card', hwrite, hdisk⟩ := sdCardWrite_some m.card
    (show m.vsd.curSec.toNat < _ by rw [hoffers.curSec]; exact hroom)
    (by rw [hoffers.curSec]; exact hwithin) (fifoBlock m.mmc.blockFifo)
  rw [hoffers.curSec] at hdisk
  have hmove : m.vsd.dataXferBlockToCard m.card (fifoBlock m.mmc.blockFifo) m.mmc.blkLen.toNat =
      (.ok, m.vsd.nextBlock, card') := by
    rw [Vsd.dataXferBlockToCard, if_neg (by simp [hoffers.state]),
      if_neg (by simp [hlen, hoffers.curBufLen]), if_neg (by simp [hoffers.bufIsData]), hwrite]
  rw [Machine.blockToCard, if_neg (by simp [he.vsd]), hmove]
  refine ⟨_, rfl, ?_⟩
  dsimp only [Machine.modify]
  rw [if_neg (not_not.mpr rfl)]
  split
  · rename_i hdone
    refine ⟨⟨he.vsd, he.clockOn, he.blkLen⟩, hdisk, rfl, rfl, hdone.symm, fun h => absurd rfl h, ?_⟩
    exact failed_of_errors (setStat_errors m.mmc.status _ (by decide))
  · exact ⟨⟨he.vsd, he.clockOn, he.blkLen⟩, hdisk, rfl, rfl, rfl, fun _ => rfl, rfl⟩

theorem blockToCard_fails {sector : ℕ} (he : Engaged m) (hoffers : Offers m.vsd .rcv sector)
    (hroom : m.card.sectorsTotal ≤ sector) :
    m.blockToCard = .ok (m.modify fun mmc => mmc.setStat 0x0004) := by
  have hlen : m.mmc.blkLen.toNat = 512 := by rw [he.blkLen]; rfl
  have hmove : m.vsd.dataXferBlockToCard m.card (fifoBlock m.mmc.blockFifo) m.mmc.blkLen.toNat =
      (.errBackingStore, m.vsd, m.card) := by
    rw [Vsd.dataXferBlockToCard, if_neg (by simp [hoffers.state]),
      if_neg (by simp [hlen, hoffers.curBufLen]), if_neg (by simp [hoffers.bufIsData]),
      sdCardWrite_none (by rw [hoffers.curSec]; exact hroom)]
  rw [Machine.blockToCard, if_neg (by simp [he.vsd]), hmove]
  rfl

structure Filling (m : Machine) (data : ℕ → Byte) (i : ℕ) : Prop where
  ongoing : m.mmc.dataXferOngoing = true
  fifoBytes : m.mmc.fifoBytes = i % 512
  blockFifo : ∀ j < i % 512, m.mmc.blockFifo j = data (512 * (i / 512) + j)

/-- A transfer of which some bytes have been written. -/
structure WritingAt (start : Vsd) (disk : Disk) (data : ℕ → Byte) (blocks s i : ℕ) (m : Machine) :
    Prop extends Engaged m where
  disk_eq : m.card.disk = disk.writeBlocks s data (i / 512)
  vsd_eq : m.vsd = Vsd.nextBlock^[i / 512] start
  numBlks : m.mmc.numBlks.toNat = blocks - i / 512
  filling : i < 512 * blocks → Filling m data i
  sound : m.failed = false

/-- A transfer that came to the end of the disk. -/
structure WriteFailed (start : Vsd) (disk : Disk) (data : ℕ → Byte) (s room : ℕ) (m : Machine) :
    Prop extends Failed m where
  disk_eq : m.card.disk = disk.writeBlocks s data room
  vsd_eq : m.vsd = Vsd.nextBlock^[room] start

def WritingOrFailed (start : Vsd) (disk : Disk) (data : ℕ → Byte) (blocks s room i : ℕ)
    (m : Machine) : Prop :=
  (i / 512 ≤ room → WritingAt start disk data blocks s i m) ∧
    (room < i / 512 → WriteFailed start disk data s room m)

theorem writingOrFailed_status {status : Status} (herrors : status.errors = m.mmc.status.errors)
    (h : WritingOrFailed start disk data blocks s room i m) :
    WritingOrFailed start disk data blocks s room i
      { m with mmc := { m.mmc with status := status } } := by
  have hfailed : Machine.failed { m with mmc := { m.mmc with status := status } } = m.failed :=
    failed_of_errors herrors
  constructor
  · intro hfit
    have hm := h.1 hfit
    refine ⟨⟨hm.vsd, hm.clockOn, hm.blkLen⟩, hm.disk_eq, hm.vsd_eq, hm.numBlks, ?_,
      hfailed.trans hm.sound⟩
    intro hi
    have hf := hm.filling hi
    exact ⟨hf.ongoing, hf.fifoBytes, hf.blockFifo⟩
  · intro hfew
    have hm := h.2 hfew
    exact ⟨⟨⟨hm.vsd, hm.clockOn, hm.blkLen⟩, hfailed.trans hm.failed⟩, hm.disk_eq, hm.vsd_eq⟩

theorem writingOrFailed_recalc (h : WritingOrFailed start disk data blocks s room i m) :
    WritingOrFailed start disk data blocks s room i (m.modify PxaMmc.recalc) :=
  writingOrFailed_status (recalc_errors ..) h

def Machine.put (m : Machine) (byte : Byte) : Machine :=
  m.modify fun mmc => { mmc with
    blockFifo := Function.update mmc.blockFifo mmc.fifoBytes ((byte.setWidth 32).setWidth 8)
    fifoBytes := mmc.fifoBytes + 1 }

theorem put_blockFifo (h : Filling m data i) {j : ℕ} (hj : j ≤ i % 512) :
    (m.put (data i)).mmc.blockFifo j = data (512 * (i / 512) + j) := by
  change Function.update m.mmc.blockFifo m.mmc.fifoBytes _ j = _
  rw [h.fifoBytes, setWidth_byte]
  by_cases hlast : j = i % 512
  · subst hlast
    rw [Function.update_self]
    congr 1
    exact (div_add_mod i 512).symm
  · rw [Function.update_of_ne hlast]
    exact h.blockFifo j (by omega)

theorem filled_spec (h : WritingAt start disk data blocks s i m) (hi : i < 512 * blocks)
    (hroom : room = disk.room s) (hfit : i / 512 ≤ room)
    (hplan : Plan start .rcv s room ((i + 1) / 512)) :
    ∃ m', (m.put (data i)).filled = .ok (true, m') ∧
      WritingOrFailed start disk data blocks s room (i + 1) m' := by
  have hf := h.filling hi
  have hput : Engaged (m.put (data i)) := ⟨h.vsd, h.clockOn, h.blkLen⟩
  have hlen : (m.put (data i)).mmc.blkLen.toNat = 512 := by rw [hput.blkLen]; rfl
  have hbytes : (m.put (data i)).mmc.fifoBytes = i % 512 + 1 := congrArg (· + 1) hf.fifoBytes
  unfold Machine.filled
  by_cases hmore : (m.put (data i)).mmc.fifoBytes ≠ (m.put (data i)).mmc.blkLen.toNat
  · have hdiv : (i + 1) / 512 = i / 512 := by omega
    rw [if_pos hmore]
    refine ⟨_, rfl, writingOrFailed_recalc ⟨fun _ => ?_, fun hfew => absurd hfew (by omega)⟩⟩
    refine ⟨hput, ?_, ?_, ?_, ?_, h.sound⟩
    · rw [hdiv]
      exact h.disk_eq
    · rw [hdiv]
      exact h.vsd_eq
    · rw [hdiv]
      exact h.numBlks
    · intro _
      refine ⟨hf.ongoing, by omega, ?_⟩
      intro j hj
      rw [hdiv]
      exact put_blockFifo hf (by omega)
  rw [if_neg hmore, if_neg (not_not.mpr (show (m.put (data i)).mmc.dataXferOngoing = true from hf.ongoing))]
  have hdiv : (i + 1) / 512 = i / 512 + 1 := by omega
  have hoffers : Offers (m.put (data i)).vsd .rcv (s + i / 512) := by
    have hat := hplan.offers (i / 512) (by omega) hfit
    rwa [← h.vsd_eq] at hat
  have hsectors : disk.room s = m.card.sectorsTotal - s := by
    have hkept := congrArg Disk.sectors h.disk_eq
    rw [Disk.writeBlocks_sectors] at hkept
    rw [Disk.room, ← hkept]
    rfl
  have hblock : fifoBlock (m.put (data i)).mmc.blockFifo = Disk.blockOf data (i / 512) := by
    funext j
    exact put_blockFifo hf (by omega)
  by_cases hinside : i / 512 < room
  · obtain ⟨m', hstore, hstored⟩ := blockToCard_ok hput hoffers
      (show s + i / 512 < m.card.sectorsTotal by omega) (hplan.within (i / 512) (by omega) hinside)
    rw [hstore]
    refine ⟨_, rfl, writingOrFailed_recalc ⟨fun _ => ?_, fun hfew => absurd hfew (by omega)⟩⟩
    have hne : m.mmc.numBlks ≠ 0 := by
      intro hzero
      have hnum := h.numBlks
      rw [hzero] at hnum
      have hnone : (0 : BitVec 16).toNat = 0 := rfl
      omega
    have hnum : m'.mmc.numBlks.toNat = blocks - (i + 1) / 512 := by
      rw [hstored.numBlks, hdiv]
      refine (toNat_pred hne).trans ?_
      rw [h.numBlks]
      omega
    refine ⟨hstored.toEngaged, ?_, ?_, hnum, ?_, hstored.failed.trans h.sound⟩
    · rw [hstored.disk, hblock, hdiv]
      change m.card.disk.write _ _ = _
      rw [h.disk_eq]
      rfl
    · rw [hstored.vsd_eq, hdiv, Function.iterate_succ_apply', ← h.vsd_eq]
      rfl
    · intro hlt
      have hmod : (i + 1) % 512 = 0 := by omega
      refine ⟨?_, ?_, fun j hj => absurd hj (by omega)⟩
      · rw [hstored.ongoing]
        · exact hf.ongoing
        · intro hzero
          rw [hzero] at hnum
          have hnone : (0 : BitVec 16).toNat = 0 := rfl
          omega
      · rw [hstored.fifoBytes, hmod]
  · rw [blockToCard_fails hput hoffers (show m.card.sectorsTotal ≤ s + i / 512 by omega)]
    refine ⟨_, rfl, writingOrFailed_recalc ⟨fun hall => absurd hall (by omega), fun _ => ?_⟩⟩
    have hlast : i / 512 = room := by omega
    refine ⟨⟨⟨h.vsd, h.clockOn, h.blkLen⟩, ?_⟩, ?_, ?_⟩
    · exact decide_eq_true (setStat_failed m.mmc.status (by decide))
    · rw [← hlast]
      exact h.disk_eq
    · rw [← hlast]
      exact h.vsd_eq

theorem writeByte_spec (h : WritingAt start disk data blocks s i m) (hi : i < 512 * blocks)
    (hroom : room = disk.room s) (hfit : i / 512 ≤ room)
    (hplan : Plan start .rcv s room ((i + 1) / 512)) :
    ∃ m', m.memAccessF 0x41100044 4 true ((data i).setWidth 32) =
        .ok ⟨true, (data i).setWidth 32, m'⟩ ∧
      WritingOrFailed start disk data blocks s room (i + 1) m' := by
  obtain ⟨m', hfilled, hm'⟩ := filled_spec h hi hroom hfit hplan
  refine ⟨m', ?_, hm'⟩
  have hwrite : m.dataFifoW ((data i).setWidth 32) = .ok (true, m') := by
    have hbytes := (h.filling hi).fifoBytes
    have hlen : m.mmc.blkLen.toNat = 512 := by rw [h.blkLen]; rfl
    unfold Machine.dataFifoW
    rwa [if_neg (by omega), if_neg (by omega)]
  have haccess : m.memAccessF 0x41100044 4 true ((data i).setWidth 32) =
      (m.dataFifoW ((data i).setWidth 32)).map fun x => ⟨x.1, (data i).setWidth 32, x.2⟩ := rfl
  rw [haccess, hwrite]
  rfl

theorem writeBytes_failed (h : m.failed = true) (bytes : List Byte) :
    Machine.writeBytes bytes m = .ok m := by
  cases bytes with
  | nil => rfl
  | cons byte bytes => rw [Machine.writeBytes, if_pos h]

/-- The bytes of a transfer, by induction on those that are left. -/
theorem writeBytes_spec (h : WritingAt start disk data blocks s i m) (hi : i + n ≤ 512 * blocks)
    (hroom : room = disk.room s) (hfit : i / 512 ≤ room)
    (hplan : Plan start .rcv s room ((i + n) / 512)) :
    ∃ m', Machine.writeBytes ((List.range' i n).map data) m = .ok m' ∧
      WritingOrFailed start disk data blocks s room (i + n) m' := by
  induction n generalizing i m with
  | zero => exact ⟨m, rfl, fun _ => h, fun hfew => absurd hfew (Nat.not_lt.mpr hfit)⟩
  | succ n ih =>
    have hnext : (i + 1) / 512 ≤ (i + (n + 1)) / 512 := Nat.div_le_div_right (by omega)
    obtain ⟨m', hbyte, hm'⟩ := writeByte_spec h (by omega) hroom hfit (hplan.mono hnext)
    have hstep : Machine.writeBytes ((List.range' i (n + 1)).map data) m =
        Machine.writeBytes ((List.range' (i + 1) n).map data) m' := by
      rw [List.range'_succ, List.map_cons, Machine.writeBytes, if_neg (by simp [h.sound]), hbyte]
      rfl
    rw [hstep]
    by_cases hgoes : (i + 1) / 512 ≤ room
    · obtain ⟨m'', hrest, hm''⟩ := ih (hm'.1 hgoes) (by omega) hgoes (by
        rw [Nat.add_assoc, Nat.add_comm 1]
        exact hplan)
      rw [Nat.add_assoc, Nat.add_comm 1] at hm''
      exact ⟨m'', hrest, hm''⟩
    · have hfailed := hm'.2 (by omega)
      exact ⟨m', writeBytes_failed hfailed.failed _, fun hall => absurd hall (by omega),
        fun _ => hfailed⟩

end

variable {m m' : Machine} {card : SdCard} {start : Vsd} {t : Transfer} {flags : Byte}
  {blocks s room : ℕ}

/-- The card when a transfer has been announced. -/
def announced (vsd : Vsd) : Option Word → Vsd
  | none => vsd
  | some count => vsd.expect count

theorem announce_spec (flags : Byte) (h : Ready m) (count : Option Word) :
    ∃ m', m.announce flags count = .ok m' ∧ Ready m' ∧ m'.card = m.card ∧
      m'.mmc.numBlks = m.mmc.numBlks ∧ m'.vsd = announced m.vsd count := by
  cases count with
  | none => exact ⟨m, rfl, h, rfl, rfl, rfl⟩
  | some count =>
    obtain ⟨answer, hshort, hcommand, hvsd⟩ := Vsd.commandSwitch_expect h.state h.acmdShift count
      ((Vector.replicate 17 0).set 0 23)
    obtain ⟨m', hsend, hkept, hm'⟩ := sdCommand_short flags h.vsd h.clockOn 23 count hshort
      hcommand
    have hafter : m'.vsd = m.vsd.expect count := hm'.trans hvsd
    refine ⟨m', hsend, ⟨?_, ?_, ?_, ?_, ?_⟩, hkept.card, hkept.numBlks, hafter⟩
    · rw [hafter]
      exact h.state
    · rw [hafter]
      rfl
    · rw [hkept.vsd, h.vsd]
    · rw [hkept.clockOn, h.clockOn]
    · rw [hkept.blkLen, h.blkLen]

/-- The card when a transfer starts. -/
def Transfer.begins (t : Transfer) (vsd : Vsd) : Vsd :=
  (announced vsd t.extent.count).begin t.sector t.direction.state t.extent.multi

/-- What a transfer finds when its command has been answered. -/
structure Begun (start : Vsd) (card : SdCard) (blocks : BitVec 16) (m : Machine) : Prop
    extends Engaged m where
  card_eq : m.card = card
  vsd_eq : m.vsd = start
  numBlks : m.mmc.numBlks = blocks
  sound : m.failed = false

theorem ok_bind {α β : Type} (a : α) (f : α → Except Fault β) :
    ((Except.ok a : Except Fault α) >>= f) = f a :=
  rfl

theorem startTransfer_announced {counted told : Machine}
    (hblocks : m.writeReg 8 (t.extent.blocks.setWidth 32) = .ok counted)
    (hannounce : Machine.announce flags counted t.extent.count = .ok told) :
    m.startTransfer flags t = told.sdCommand (Machine.transferCommand t) (told.address t.sector)
      (Machine.cmdat flags true t.direction.writes) := by
  rw [Machine.startTransfer, hblocks, ok_bind, hannounce, ok_bind]

theorem startTransfer_begun (flags : Byte) (h : Ready m) (haddress : t.Addressable m.vsd.hcCard) :
    ∃ begun, Begun (t.begins m.vsd) m.card t.extent.blocks begun ∧
      begun.mmc.cmdat = (Machine.cmdat flags true t.direction.writes).setWidth 8 ∧
      m.startTransfer flags t = begun.finishCommand true := by
  have hwidth : (t.extent.blocks.setWidth 32).setWidth 16 = t.extent.blocks := by simp
  have hblocks : m.writeReg 8 (t.extent.blocks.setWidth 32) =
      .ok (m.modify fun mmc => { mmc with numBlks := t.extent.blocks }) := by
    have hwrite : m.writeReg 8 (t.extent.blocks.setWidth 32) = .ok (m.modify fun mmc =>
        { mmc with numBlks := (t.extent.blocks.setWidth 32).setWidth 16 }) := rfl
    rw [hwrite, hwidth]
  have hready : Ready (m.modify fun mmc => { mmc with numBlks := t.extent.blocks }) :=
    ⟨h.state, h.acmdShift, h.vsd, h.clockOn, h.blkLen⟩
  obtain ⟨told, hannounce, htold, hcard, hnum, hvsd⟩ := announce_spec flags hready
    t.extent.count
  have hhc : told.vsd.hcCard = m.vsd.hcCard := by
    rw [hvsd]
    cases t.extent.count <;> rfl
  obtain ⟨answer, hshort, hcommand, hanswer⟩ := commandSwitch_begin htold.state htold.acmdShift t
    (by rw [hhc]; exact haddress) ((Vector.replicate 17 0).set 0
      ((0x40 ||| (Machine.transferCommand t &&& 0x3f).setWidth 8) &&& 0x3f))
  obtain ⟨status, respBuf, herrors, hsend⟩ := sendCommand_short
    (m := told.modify fun mmc => mmc.prepared (Machine.transferCommand t) (told.address t.sector)
      (Machine.cmdat flags true t.direction.writes)) htold.vsd
    (cmdat_reply flags true t.direction.writes) hshort hcommand
  refine ⟨⟨{ told.mmc.prepared (Machine.transferCommand t) (told.address t.sector)
      (Machine.cmdat flags true t.direction.writes) with
    cmdQueued := false, status := status, respBuf := respBuf }, answer.vsd, told.card⟩,
    ⟨⟨htold.vsd, htold.clockOn, htold.blkLen⟩, hcard, ?_, hnum, ?_⟩, rfl, ?_⟩
  · rw [hanswer, hvsd]
    rfl
  · rw [failed_eq]
    rw [herrors]
    exact decide_eq_false (not_not.mpr (prepared_errors ..))
  · rw [startTransfer_announced hblocks hannounce, sdCommand_eq htold.clockOn, hsend]
    rfl

theorem finishCommand_started {m' : Machine} (hdata : m.mmc.cmdat &&& 4 ≠ 0)
    (hstart : m.dataXferStart = .ok m') : ∃ status : Status, status.errors = m'.mmc.status.errors ∧
      m.finishCommand true = .ok { m' with mmc := { m'.mmc with status := status } } := by
  unfold Machine.finishCommand
  rw [if_pos ⟨rfl, hdata⟩, hstart]
  dsimp only [bind, Except.bind]
  split
  · exact ⟨_, (recalc_errors ..).trans (setStat_errors _ _ (by decide)), rfl⟩
  · exact ⟨_, recalc_errors .., rfl⟩

theorem begun_read {n : BitVec 16} (h : Begun start card n m)
    (hcmdat : m.mmc.cmdat = (Machine.cmdat flags true false).setWidth 8)
    (hroom : room = card.disk.room s) (hplan : Plan start .data s room (fetched n.toNat 0)) :
    ∃ m', m.finishCommand true = .ok m' ∧ ReadingOrFailed start card n.toNat s room 0 m' := by
  have hdata : m.mmc.cmdat &&& 4 ≠ 0 := by
    rw [hcmdat]
    exact (cmdat_data flags true false).mpr rfl
  have hread : ¬ m.mmc.cmdat &&& 8 ≠ 0 := by
    rw [hcmdat, cmdat_write]
    decide
  have hstarted : ∃ m', m.dataXferStart = .ok m' ∧ ReadingOrFailed start card n.toNat s room 0 m' := by
    have hlen : ¬ m.mmc.blkLen = 0 := by
      rw [h.blkLen]
      decide
    by_cases hnone : m.mmc.numBlks = 0
    · refine ⟨_, if_pos (Or.inr hnone), fun _ => ?_, fun hfew => absurd hfew ?_⟩
      · have hzero : n.toNat = 0 := by
          rw [← h.numBlks, hnone]
          rfl
        refine ⟨⟨h.vsd, h.clockOn, h.blkLen⟩, h.card_eq, ?_, ?_, fun hlt => absurd hlt (by omega),
          h.sound⟩
        · rw [fetched, hzero, zero_min]
          exact h.vsd_eq
        · rw [hzero]
          exact congrArg BitVec.toNat hnone
      · have hzero : n.toNat = 0 := by
          rw [← h.numBlks, hnone]
          rfl
        rw [fetched, hzero, zero_min]
        exact not_lt_zero _
    · have hpos : 0 < n.toNat := by
        rw [pos_iff_ne_zero]
        intro hzero
        rw [← h.numBlks] at hzero
        exact hnone (BitVec.eq_of_toNat_eq hzero)
      have hone : fetched n.toNat 0 = 0 + 1 := by
        rw [fetched]
        omega
      rw [hone] at hplan
      obtain ⟨m', hfetch, hm'⟩ := fetch_spec
        (m := m.modify fun mmc => { mmc with dataXferOngoing := true })
        ⟨h.vsd, h.clockOn, h.blkLen⟩ rfl h.card_eq hroom hpos hplan h.vsd_eq (zero_le _)
        (congrArg BitVec.toNat h.numBlks) h.sound
      refine ⟨m', ?_, hm'⟩
      rw [← hfetch]
      exact (if_neg (not_or.mpr ⟨hlen, hnone⟩)).trans (if_neg hread)
  obtain ⟨m', hstart, hm'⟩ := hstarted
  obtain ⟨status, herrors, hfinish⟩ := finishCommand_started hdata hstart
  exact ⟨_, hfinish, readingOrFailed_status herrors hm'⟩

theorem begun_write {n : BitVec 16} (h : Begun start card n m) (data : ℕ → Byte) (s room : ℕ)
    (hcmdat : m.mmc.cmdat = (Machine.cmdat flags true true).setWidth 8) :
    ∃ m', m.finishCommand true = .ok m' ∧ WritingOrFailed start card.disk data n.toNat s room 0 m' := by
  have hdata : m.mmc.cmdat &&& 4 ≠ 0 := by
    rw [hcmdat]
    exact (cmdat_data flags true true).mpr rfl
  have hwrite : m.mmc.cmdat &&& 8 ≠ 0 := by
    rw [hcmdat]
    exact (cmdat_write flags true true).mpr rfl
  have hstarted : ∃ m', m.dataXferStart = .ok m' ∧
      WritingOrFailed start card.disk data n.toNat s room 0 m' := by
    have hdisk : m.card.disk = card.disk := congrArg SdCard.disk h.card_eq
    have hnum : m.mmc.numBlks.toNat = n.toNat := congrArg BitVec.toNat h.numBlks
    have hlen : ¬ m.mmc.blkLen = 0 := by
      rw [h.blkLen]
      decide
    by_cases hnone : m.mmc.numBlks = 0
    · refine ⟨_, if_pos (Or.inr hnone), fun _ => ?_, fun hfew => absurd hfew (not_lt_zero _)⟩
      have hzero : n.toNat = 0 := by
        rw [← h.numBlks, hnone]
        rfl
      exact ⟨⟨h.vsd, h.clockOn, h.blkLen⟩, hdisk, h.vsd_eq, hnum,
        fun hlt => absurd hlt (by omega), h.sound⟩
    · refine ⟨_, (if_neg (not_or.mpr ⟨hlen, hnone⟩)).trans (if_pos hwrite), fun _ => ?_,
        fun hfew => absurd hfew (not_lt_zero _)⟩
      exact ⟨⟨h.vsd, h.clockOn, h.blkLen⟩, hdisk, h.vsd_eq, hnum,
        fun _ => ⟨rfl, rfl, fun j hj => absurd hj (not_lt_zero j)⟩, h.sound⟩
  obtain ⟨m', hstart, hm'⟩ := hstarted
  obtain ⟨status, herrors, hfinish⟩ := finishCommand_started hdata hstart
  exact ⟨_, hfinish, writingOrFailed_status herrors hm'⟩

end Cloudpilot.Uarm.Mmc
