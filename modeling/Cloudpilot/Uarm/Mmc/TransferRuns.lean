import Cloudpilot.Uarm.Mmc.BlockWrites

/-! # The card is a block device

A transfer from transfer state does to the image what it does to a disk, shows the
guest the same, and ends in transfer state. The one thing it depends on besides is what
the card still expects of an earlier count.
-/
namespace Cloudpilot.Uarm.Mmc
open Cpu Nat

variable {m m' : Machine} {t : Transfer} {ts : List Transfer} {flags : Byte} {f : ℕ}

theorem wanted_le_blocks (t : Transfer) : t.wanted ≤ t.extent.blocks.toNat := by
  have hbytes := t.extent.bytes_le
  unfold Transfer.wanted
  split <;> omega

theorem toNat_setWidth32 (x : BitVec 16) : (x.setWidth 32).toNat = x.toNat := by
  rw [BitVec.toNat_setWidth]
  omega

theorem left_expected {sector count : Word} {extent : Extent} {direction : Direction} {vsd : Vsd}
    (hmulti : extent.multi = true) (hcount : extent.count = some count) (hne : count ≠ 0) :
    (Transfer.begins ⟨sector, extent, direction⟩ vsd).left = count.toNat := by
  unfold Transfer.begins Vsd.left
  rw [hcount]
  have hcontinuous : ((announced vsd (some count)).begin sector direction.state
      extent.multi).bufContinuous = true := hmulti
  have hexpects : ((announced vsd (some count)).begin sector direction.state
      extent.multi).haveExpectedNumBlocks = true := by
    change (extent.multi && decide (count ≠ 0)) = true
    rw [hmulti, decide_eq_true hne]
    rfl
  rw [if_pos hcontinuous, if_pos ⟨hexpects, hne⟩]
  rfl

theorem left_counted {sector : Word} {blocks : BitVec 16} (pos : blocks ≠ 0) (direction : Direction)
    (vsd : Vsd) :
    (Transfer.begins ⟨sector, .counted blocks pos, direction⟩ vsd).left = blocks.toNat := by
  have hne : blocks.setWidth 32 ≠ (0 : Word) := by
    intro hzero
    apply pos
    apply BitVec.eq_of_toNat_eq
    rw [← toNat_setWidth32, hzero]
    rfl
  exact left_expected rfl rfl hne

theorem wanted_le_left (hlasting : t.extent.lasting = false) (vsd : Vsd) :
    t.wanted ≤ (t.begins vsd).left := by
  obtain ⟨sector, extent, direction⟩ := t
  cases extent with
  | single => exact wanted_le_blocks ⟨sector, .single, direction⟩
  | counted blocks pos =>
    rw [left_counted]
    exact wanted_le_blocks _
  | aborted count blocks bytes some_left enough within =>
    have hne : count ≠ 0 := by
      rintro rfl
      exact absurd some_left (not_lt_zero _)
    rw [left_expected rfl rfl hne]
    exact (wanted_le_blocks _).trans enough
  | untilStop blocks bytes within => cases hlasting

theorem moved_lt_left (h : t.Lasting m) (hlasting : t.extent.lasting = true) :
    t.moved m < (t.begins m.vsd).left := by
  have hblocks : t.moved m ≤ t.extent.blocks.toNat :=
    (min_le_left ..).trans (wanted_le_blocks t)
  have hcount := h.count hlasting
  obtain ⟨sector, extent, direction⟩ := t
  cases extent with
  | single => cases hlasting
  | counted blocks pos => cases hlasting
  | aborted count blocks bytes some_left enough within => cases hlasting
  | untilStop blocks bytes within =>
    by_cases hexpects : m.vsd.haveExpectedNumBlocks = true ∧ m.vsd.numBlocksExpected ≠ 0
    · have hleft : (Transfer.begins ⟨sector, .untilStop blocks bytes within, direction⟩ m.vsd).left =
          m.vsd.numBlocksExpected.toNat := (if_pos rfl).trans (if_pos hexpects)
      rw [hleft]
      exact hcount hexpects.1 hexpects.2
    · have hleft : (Transfer.begins ⟨sector, .untilStop blocks bytes within, direction⟩ m.vsd).left =
          2 ^ 32 := (if_pos rfl).trans (if_neg hexpects)
      omega

theorem lt_left (h : t.Lasting m) (hf : f < t.wanted) (hmoved : f ≤ t.moved m) :
    f < (t.begins m.vsd).left := by
  cases hlasting : t.extent.lasting with
  | false => exact lt_of_lt_of_le hf (wanted_le_left hlasting m.vsd)
  | true => exact lt_of_le_of_lt hmoved (moved_lt_left h hlasting)

theorem plan_begins (h : t.Lasting m) : Plan (t.begins m.vsd) t.direction.state t.sector.toNat
    (m.card.disk.room t.sector.toNat) t.wanted := by
  have hroom (f : ℕ) (hf : f < t.wanted) (hfit : f ≤ m.card.disk.room t.sector.toNat) :
      f ≤ t.moved m := le_min hf.le hfit
  refine ⟨fun f hf hfit => ?_, fun f hf hfit => ?_⟩
  · have hmoved := hroom f hf hfit
    rw [Vsd.iterate_nextBlock (lt_left h hf hmoved)]
    refine ⟨rfl, ?_, rfl, rfl⟩
    change (t.sector + BitVec.ofNat 32 f).toNat = _
    have hsum : t.sector.toNat + f < 2 ^ 32 := by
      by_cases hnone : t.moved m = 0
      · omega
      · have hwithin := h.within hnone
        omega
    rw [BitVec.toNat_add, BitVec.toNat_ofNat, add_mod_mod]
    exact mod_eq_of_lt hsum
  · have hmoved : f < t.moved m := lt_min hf hfit
    have hwithin := h.within (by omega)
    omega

/-- A transfer whose bytes have been moved. -/
structure Finished (m : Machine) (t : Transfer) (m' : Machine) : Prop extends Engaged m' where
  disk_eq : m'.card.disk = (m.card.disk.exec t).2
  vsd_eq : m'.vsd = Vsd.nextBlock^[t.moved m] (t.begins m.vsd)
  failed_eq : m'.failed = (m.card.disk.exec t).1.failed

theorem exec_failed (d : Disk) (t : Transfer) :
    (d.exec t).1.failed = decide (d.room t.sector.toNat < t.wanted) := by
  unfold Disk.exec
  cases t.direction <;> rfl

theorem read_finished (flags : Byte) (h : Ready m) (haddress : t.Addressable m.vsd.hcCard) (hlasts : t.Lasting m)
    (hread : t.direction = .read) : ∃ m',
      (m.startTransfer flags t >>= fun m => m.moveBytes t) = .ok ((m.card.disk.exec t).1.bytes, m') ∧
        Finished m t m' := by
  obtain ⟨begun, hbegun, hcmdat, hstart⟩ := startTransfer_begun flags h haddress
  have hplan := plan_begins hlasts
  have hwanted : fetched t.extent.blocks.toNat t.extent.bytes = t.wanted := by
    rw [Transfer.wanted, hread]
    rfl
  rw [hread] at hcmdat hplan
  rw [← hwanted] at hplan
  have hfirst : fetched t.extent.blocks.toNat 0 ≤ fetched t.extent.blocks.toNat t.extent.bytes := by
    simp [fetched]
  obtain ⟨m₁, hm₁, hreading⟩ := begun_read hbegun hcmdat rfl (hplan.mono hfirst)
  have hexec : m.card.disk.exec t =
      (⟨(List.range (min t.extent.bytes (512 * m.card.disk.room t.sector.toNat))).map
        (m.card.disk.content t.sector.toNat), m.card.disk.room t.sector.toNat < t.wanted, false⟩,
        m.card.disk) := by
    rw [Disk.exec, hread]
  have hmove (m : Machine) : m.moveBytes t = Machine.readBytes t.extent.bytes m := by
    rw [Machine.moveBytes, hread]
  have hbytes : ∃ m', Machine.readBytes t.extent.bytes m₁ = .ok
      ((List.range (min t.extent.bytes (512 * m.card.disk.room t.sector.toNat))).map
        (m.card.disk.content t.sector.toNat), m') ∧
      ReadingOrFailed (t.begins m.vsd) m.card t.extent.blocks.toNat t.sector.toNat
        (m.card.disk.room t.sector.toNat) t.extent.bytes m' := by
    by_cases hfit : fetched t.extent.blocks.toNat 0 ≤ m.card.disk.room t.sector.toNat
    · obtain ⟨m', hm', hafter⟩ := readBytes_spec (hreading.1 hfit) (n := t.extent.bytes)
        (by rw [Nat.zero_add]; exact t.extent.bytes_le) rfl hfit
        (by rw [Nat.zero_add]; exact hplan)
      rw [Nat.zero_add] at hm' hafter
      refine ⟨m', ?_, hafter⟩
      rw [hm', Nat.sub_zero, List.range_eq_range']
    · have hfailed := hreading.2 (by omega)
      refine ⟨m₁, ?_, fun hall => absurd hall (by omega), fun _ => hfailed⟩
      have hnone : m.card.disk.room t.sector.toNat = 0 := by grind [fetched]
      rw [readBytes_failed hfailed.failed, hnone, Nat.mul_zero, Nat.min_zero]
      rfl
  obtain ⟨m', hm', hafter⟩ := hbytes
  refine ⟨m', ?_, ?_⟩
  · rw [hstart, hm₁, hexec]
    exact (hmove m₁).trans hm'
  · rw [ReadingOrFailed, hwanted] at hafter
    by_cases hfit : t.wanted ≤ m.card.disk.room t.sector.toNat
    · have hreads := hafter.1 hfit
      have hmoved : t.moved m = t.wanted := Nat.min_eq_left hfit
      refine ⟨hreads.toEngaged, ?_, ?_, ?_⟩
      · rw [hreads.card_eq, hexec]
      · rw [hreads.vsd_eq, hwanted, hmoved]
      · grind [hreads.sound, exec_failed]
    · have hfails := hafter.2 (by omega)
      have hmoved : t.moved m = m.card.disk.room t.sector.toNat := Nat.min_eq_right (by omega)
      refine ⟨hfails.toEngaged, ?_, ?_, ?_⟩
      · rw [hfails.card_eq, hexec]
      · rw [hfails.vsd_eq, hmoved]
      · grind [hfails.failed, exec_failed]

theorem write_finished (flags : Byte) (h : Ready m) (haddress : t.Addressable m.vsd.hcCard) (hlasts : t.Lasting m)
    {data : ℕ → Byte} (hwrite : t.direction = .write data) : ∃ m',
      (m.startTransfer flags t >>= fun m => m.moveBytes t) = .ok ((m.card.disk.exec t).1.bytes, m') ∧
        Finished m t m' := by
  obtain ⟨begun, hbegun, hcmdat, hstart⟩ := startTransfer_begun flags h haddress
  have hplan := plan_begins hlasts
  have hwanted : t.extent.bytes / 512 = t.wanted := by rw [Transfer.wanted, hwrite]
  rw [hwrite] at hcmdat hplan
  rw [← hwanted] at hplan
  obtain ⟨m₁, hm₁, hwriting⟩ := begun_write hbegun data t.sector.toNat
    (m.card.disk.room t.sector.toNat) hcmdat
  have hexec : m.card.disk.exec t = (⟨[], m.card.disk.room t.sector.toNat < t.wanted, false⟩,
      m.card.disk.writeBlocks t.sector.toNat data (t.moved m)) := by
    rw [Disk.exec, hwrite]
    rfl
  obtain ⟨m', hm', hafter⟩ := writeBytes_spec (hwriting.1 (zero_le _)) (n := t.extent.bytes)
    (by rw [zero_add]; exact t.extent.bytes_le) rfl (zero_le _)
    (by rw [zero_add]; exact hplan)
  rw [zero_add] at hafter
  refine ⟨m', ?_, ?_⟩
  · rw [hstart, hm₁, hexec]
    change m₁.moveBytes t = _
    rw [Machine.moveBytes, hwrite]
    change Except.map _ (Machine.writeBytes ((List.range t.extent.bytes).map data) m₁) = _
    rw [List.range_eq_range', hm']
    rfl
  · rw [WritingOrFailed, hwanted] at hafter
    by_cases hfit : t.wanted ≤ m.card.disk.room t.sector.toNat
    · have hwrites := hafter.1 hfit
      have hmoved : t.moved m = t.wanted := min_eq_left hfit
      refine ⟨hwrites.toEngaged, ?_, ?_, ?_⟩
      · rw [hwrites.disk_eq, hwanted, hexec, hmoved]
      · rw [hwrites.vsd_eq, hwanted, hmoved]
      · grind [hwrites.sound, exec_failed]
    · have hfails := hafter.2 (by omega)
      have hmoved : t.moved m = m.card.disk.room t.sector.toNat := min_eq_right (by omega)
      refine ⟨hfails.toEngaged, ?_, ?_, ?_⟩
      · rw [hfails.disk_eq, hexec, hmoved]
      · rw [hfails.vsd_eq, hmoved]
      · grind [hfails.failed, exec_failed]

theorem transfer_finished (flags : Byte) (h : Ready m) (haddress : t.Addressable m.vsd.hcCard)
    (hlasts : t.Lasting m) : ∃ m',
      (m.startTransfer flags t >>= fun m => m.moveBytes t) = .ok ((m.card.disk.exec t).1.bytes, m') ∧
        Finished m t m' := by
  cases hdirection : t.direction with
  | read => exact read_finished flags h haddress hlasts hdirection
  | write data => exact write_finished flags h haddress hlasts hdirection

theorem begins_hcCard (t : Transfer) (vsd : Vsd) : (t.begins vsd).hcCard = vsd.hcCard := by
  unfold Transfer.begins
  cases t.extent.count <;> rfl

theorem state_cases (t : Transfer) (vsd : Vsd) (n : ℕ) :
    (Vsd.nextBlock^[n] (t.begins vsd)).state ∈ [State.data, .rcv, .tran] := by
  have hstate : (t.begins vsd).state = .data ∨ (t.begins vsd).state = .rcv := by
    change t.direction.state = _ ∨ t.direction.state = _
    cases t.direction with
    | read => exact Or.inl rfl
    | write data => exact Or.inr rfl
  rcases Vsd.iterate_state (t.begins vsd) n with hkept | hended <;> grind

theorem ended_of_count (hfinished : Finished m t m') (hstop : t.extent.stop = false)
    (hfit : t.wanted ≤ m.card.disk.room t.sector.toNat) : m'.vsd.state = .tran := by
  have hmoved : t.moved m = t.wanted := Nat.min_eq_left hfit
  have hleft : t.wanted = (t.begins m.vsd).left ∧ (t.begins m.vsd).left < 2 ^ 32 := by
    obtain ⟨sector, extent, direction⟩ := t
    cases extent with
    | single =>
      have hone : (Transfer.begins ⟨sector, .single, direction⟩ m.vsd).left = 1 := rfl
      rw [hone]
      refine ⟨?_, by decide⟩
      cases direction with
      | read => rfl
      | write data => exact Nat.div_self (Nat.succ_pos 511)
    | counted blocks pos =>
      rw [left_counted]
      refine ⟨?_, by omega⟩
      cases direction with
      | read =>
        change min blocks.toNat (512 * blocks.toNat / 512 + 1) = _
        omega
      | write data =>
        change 512 * blocks.toNat / 512 = _
        omega
    | aborted count blocks bytes some_left enough within => cases hstop
    | untilStop blocks bytes within => cases hstop
  rw [hfinished.vsd_eq, hmoved, hleft.1]
  exact Vsd.iterate_nextBlock_left hleft.2

theorem not_cut (hlasts : t.Lasting m) (hfinished : Finished m t m') :
    (t.extent.lasting && !m'.accepting) = false := by
  cases hlasting : t.extent.lasting with
  | false => rfl
  | true =>
    have hmoved := moved_lt_left hlasts hlasting
    have hstate : m'.vsd.state = t.direction.state := by
      rw [hfinished.vsd_eq, Vsd.iterate_nextBlock hmoved]
      rfl
    have haccepting : m'.accepting = true := by
      rw [Machine.accepting, hstate]
      cases t.direction with
      | read => rfl
      | write data => rfl
    rw [haccepting]
    rfl

theorem endTransfer_ready (flags : Byte) (hfinished : Finished m t m') : ∃ m'',
    m'.endTransfer flags t = .ok m'' ∧ Ready m'' ∧ m''.card = m'.card ∧
      m''.vsd.hcCard = m.vsd.hcCard := by
  have hhc : m'.vsd.hcCard = m.vsd.hcCard := by
    rw [hfinished.vsd_eq, Vsd.iterate_hcCard, begins_hcCard]
  unfold Machine.endTransfer
  by_cases hstop : (t.extent.stop || m'.failed) = true
  · rw [if_pos hstop]
    have hstate : m'.vsd.state = .data ∨ m'.vsd.state = .rcv ∨ m'.vsd.state = .tran := by
      have hcases := state_cases t m.vsd (t.moved m)
      rw [← hfinished.vsd_eq] at hcases
      simpa using hcases
    obtain ⟨answer, hshort, hcommand, hvsd⟩ := Vsd.commandSwitch_stop m'.vsd hstate
      ((Vector.replicate 17 0).set 0 12)
    obtain ⟨m'', hsend, hkept, hm''⟩ := sdCommand_short flags hfinished.vsd
      hfinished.clockOn 12 0 hshort hcommand
    have hafter := hm''.trans hvsd
    refine ⟨m'', hsend, ⟨?_, ?_, ?_, ?_, ?_⟩, hkept.card, ?_⟩
    · rw [hafter]
    · rw [hafter]
    · rw [hkept.vsd, hfinished.vsd]
    · rw [hkept.clockOn, hfinished.clockOn]
    · rw [hkept.blkLen, hfinished.blkLen]
    · rwa [hafter]
  · rw [if_neg hstop]
    rw [Bool.or_eq_true, not_or, Bool.not_eq_true, Bool.not_eq_true] at hstop
    have hfit : t.wanted ≤ m.card.disk.room t.sector.toNat := by
      grind [hfinished.failed_eq, exec_failed]
    refine ⟨m', rfl, ⟨ended_of_count hfinished hstop.1 hfit, ?_, hfinished.vsd, hfinished.clockOn,
      hfinished.blkLen⟩, rfl, hhc⟩
    rw [hfinished.vsd_eq, Vsd.iterate_acmdShift]
    rfl

theorem transfer_exec (flags : Byte) (h : Ready m) (haddress : t.Addressable m.vsd.hcCard)
    (hlasts : t.Lasting m) : ∃ m', m.transfer flags t = .ok ((m.card.disk.exec t).1, m') ∧
      m'.card.disk = (m.card.disk.exec t).2 ∧ Ready m' ∧ m'.vsd.hcCard = m.vsd.hcCard := by
  obtain ⟨m₁, hmoved, hfinished⟩ := transfer_finished flags h haddress hlasts
  obtain ⟨m', hended, hready, hcard, hhc⟩ := endTransfer_ready flags hfinished
  refine ⟨m', ?_, ?_, hready, hhc⟩
  · have houtcome : (⟨(m.card.disk.exec t).1.bytes, m₁.failed, t.extent.lasting && !m₁.accepting⟩ :
        Outcome) = (m.card.disk.exec t).1 := by
      rw [hfinished.failed_eq, not_cut hlasts hfinished]
      unfold Disk.exec
      cases t.direction <;> rfl
    have hchain : m.transfer flags t =
        ((m.startTransfer flags t >>= fun m => m.moveBytes t) >>= fun x => do
          let outcome : Outcome := ⟨x.1, x.2.failed, t.extent.lasting && !x.2.accepting⟩
          return (outcome, ← x.2.endTransfer flags t)) := by simp [Machine.transfer]
    rw [hchain, hmoved]
    change ((m₁.endTransfer flags t) >>= fun m => Except.ok (Outcome.mk _ _ _, m)) = _
    rw [hended, ← houtcome]
    rfl
  · rw [hcard]
    exact hfinished.disk_eq

/-- The run of a block device, by induction on the transfers. -/
theorem transfers_run (h : Ready m) (haddress : ∀ t ∈ ts, t.Addressable m.vsd.hcCard)
    (hlasts : AllLasting flags m ts) : ∃ m',
      m.transfers flags ts = .ok ((m.card.disk.run ts).1, m') ∧
        m'.card.disk = (m.card.disk.run ts).2 ∧ Ready m' := by
  induction ts generalizing m with
  | nil => exact ⟨m, rfl, rfl, h⟩
  | cons t ts ih =>
    obtain ⟨m₁, hfirst, hdisk, hready, hhc⟩ := transfer_exec flags h
      (haddress t (List.mem_cons_self ..)) hlasts.1
    obtain ⟨m', hrest, hdisk', hready'⟩ := ih hready
      (fun t ht => by rw [hhc]; exact haddress t (List.mem_cons_of_mem _ ht))
      (hlasts.2 _ _ hfirst)
    rw [hdisk] at hrest hdisk'
    refine ⟨m', ?_, hdisk', hready'⟩
    rw [Machine.transfers, hfirst]
    change (m₁.transfers flags ts >>= _) = _
    rw [hrest]
    rfl

theorem lasting_of_count (hlasting : t.extent.lasting = false)
    (hwithin : t.sector.toNat + t.wanted ≤ 2 ^ 23) : t.Lasting m := by
  refine ⟨fun _ => ?_, fun h => absurd (hlasting.symm.trans h) Bool.false_ne_true⟩
  have hle : t.moved m ≤ t.wanted := min_le_left ..
  omega

def smallCard : Machine where
  mmc := { PxaMmc.init with vsd := true, clockOn := true, blkLen := 512 }
  vsd := { Vsd.init.vsdReset 8 with state := .tran }
  card := sdCardInitializeWithData 8 fun k => BitVec.ofNat 8 k

theorem ready_smallCard : Ready smallCard := ⟨rfl, rfl, rfl, rfl, rfl⟩

def plainTransfers : List Transfer := [
  ⟨0, .untilStop 2 600 (by decide), .read⟩,
  ⟨3, .counted 2 (by decide), .write fun _ => 7⟩,
  ⟨8, .single, .read⟩]

theorem transfers_run_plainTransfers : ∃ m',
    smallCard.transfers 0 plainTransfers = .ok ((smallCard.card.disk.run plainTransfers).1, m') ∧
      m'.card.disk = (smallCard.card.disk.run plainTransfers).2 ∧ Ready m' := by
  apply transfers_run ready_smallCard
  · intro t ht
    right
    revert t
    decide
  · refine ⟨⟨fun _ => by decide, fun _ h => absurd h (by decide)⟩, fun _ _ _ => ?_⟩
    refine ⟨lasting_of_count rfl (by decide), fun _ _ _ => ?_⟩
    exact ⟨lasting_of_count rfl (by decide), fun _ _ _ => trivial⟩

def staleTransfers : List Transfer := [
  ⟨0, .aborted 2 2 0 (by decide) (by decide) (by decide), .read⟩,
  ⟨0, .untilStop 2 1024 (by decide), .read⟩]

/-- The count of the first transfer ends the second one. -/
theorem transfers_staleTransfers : ¬ ∃ m',
    smallCard.transfers 0 staleTransfers = .ok ((smallCard.card.disk.run staleTransfers).1, m') := by
  rintro ⟨m', hrun⟩
  have hcard : (smallCard.transfers 0 staleTransfers).toOption.map
      (fun result => result.1.map Outcome.failed) = some [false, true] := by
    decide +kernel
  rw [hrun] at hcard
  cases hcard

end Cloudpilot.Uarm.Mmc
