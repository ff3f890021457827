import Cloudpilot.Uarm.NandFlash.Accesses

/-! # Accesses of the NAND flash

Which cycles leave the arrays of the flash: erasing a block that is not in the content or that ends
with the bitmap, programming a page that was refused, and reading from a column behind the page or
over the end of the content.
-/

namespace Cloudpilot.Uarm.NandFlash

open Cpu Cloudpilot.Library Nat
open Peripherals (Byte K9nandState K9nandArea)

variable {g : Geometry} {nand nand' : NAND} {val : Byte}

/-- No access is outside of its array. -/
def Inside {α : Type} (r : Except Stop α) : Prop := r ≠ .error .outOfBounds

variable {α β : Type} {r : Except Stop α}

@[simp] theorem inside_ok (a : α) : Inside (.ok a : Except Stop α) := nofun

@[simp] theorem not_inside_outOfBounds : ¬ Inside (.error .outOfBounds : Except Stop α) :=
  fun h => h rfl

@[simp] theorem inside_hang : Inside (.error .hang : Except Stop α) := nofun

@[simp] theorem inside_accept (nand : NAND) : Inside (accept nand) := nofun

@[simp] theorem inside_refuse (nand : NAND) : Inside (refuse nand) := nofun

theorem inside_map {f : α → β} : Inside (f <$> r) ↔ Inside r := by
  cases r with
  | ok a => simp [Inside, Functor.map, Except.map]
  | error e => simp [Inside, Functor.map, Except.map]

theorem inside_ite {P : Prop} [Decidable P] {a : α} :
    Inside (if P then .ok a else .error .outOfBounds) ↔ P := by
  by_cases h : P <;> simp [h]

theorem readData_inside_iff (hg : g.Valid) (hC : nand.area = .C → g.viaAreas = true) :
    Inside (readData g nand) ↔ ReadInside g nand := by
  obtain ⟨k, hk⟩ : ∃ k, markRead g nand = { nand with addrBytesRxed := k } := ⟨_, markRead_eq g nand⟩
  rw [ReadInside, readData, hk]
  by_cases hstart : k = 0xfe
  · subst hstart
    rw [if_pos rfl, startRead_counter hg, startRead_eq hg]
    by_cases hpage : pageAddr g nand g.byteAddrBytes ≥ g.pages
    · rw [if_pos hpage]
      simp [bind, Except.bind, pure, Except.pure, not_lt.mpr hpage]
    · rw [if_neg hpage]
      by_cases hload : u32 (pageAddr g nand g.byteAddrBytes * g.bytesPerPage) + g.bytesPerPage ≤
          g.dataSize
      · rw [if_pos hload]
        change Inside (takeByte g (started g nand)) ↔ _
        rw [takeByte_eq hg _ fun h => hC (area_of_started h), inside_ite]
        constructor
        · intro hin
          exact ⟨fun _ _ => ⟨⟨hin.pos, hload⟩, hin⟩, nofun⟩
        · rintro ⟨h, -⟩
          exact (h rfl (not_le.mp hpage)).2
      · rw [if_neg hload]
        apply iff_of_false not_inside_outOfBounds
        rintro ⟨h, -⟩
        exact hload (h rfl (not_le.mp hpage)).1.2
  · rw [if_neg hstart]
    by_cases htaken : k = 0xff
    · subst htaken
      rw [if_pos rfl, takeByte_eq hg { nand with addrBytesRxed := 0xff } hC, inside_ite]
      simp
    · simp [pure, Except.pure, hstart, htaken]

def Harmless (g : Geometry) (nand : NAND) : Event → Prop
  | .write true false val =>
    (val = 0xd0 → nand.state = .eraseAddrRxing → nand.addrBytesRxed = 2 →
      pageAddr g nand 0 % 2 ^ g.pagesPerBlockLg2 = 0 → g.HoldsBlock (pageAddr g nand 0)) ∧
    (val = 0x10 → nand.state = .programDataRxing → g.Holds nand.pageNo)
  | .read false false => nand.state = .reading → ReadInside g nand
  | _ => True

theorem inside_commit (nand : NAND) (count : ℕ) :
    Inside (nandPrvBusy nand count >>= fun nand => accept (enter nand .reset)) := by
  rw [nandPrvBusy]
  split <;> nofun

theorem pageAddr_leaveB (addrOfst : ℕ) : pageAddr g (leaveB nand) addrOfst = pageAddr g nand addrOfst := by
  rw [leaveB_eq]
  rfl

theorem erase_inside_iff (hg : g.Valid) (nand : NAND) :
    Inside (nandCommand g nand 0xd0) ↔ (nand.state = .eraseAddrRxing → nand.addrBytesRxed = 2 →
      pageAddr g nand 0 % 2 ^ g.pagesPerBlockLg2 = 0 → g.HoldsBlock (pageAddr g nand 0)) := by
  have hstate : (leaveB nand).state = nand.state := by rw [leaveB_eq]
  have hrxed : (leaveB nand).addrBytesRxed = nand.addrBytesRxed := by rw [leaveB_eq]
  change Inside (if (leaveB nand).state ≠ .eraseAddrRxing ∨ (leaveB nand).addrBytesRxed ≠ 2 then _
    else nandPrvBlockErase g (leaveB nand) >>= _) ↔ _
  rw [hstate, hrxed]
  by_cases hready : nand.state = .eraseAddrRxing ∧ nand.addrBytesRxed = 2
  · rw [if_neg (by tauto), nandPrvBlockErase_eq hg, pageAddr_leaveB]
    by_cases haligned : pageAddr g nand 0 % 2 ^ g.pagesPerBlockLg2 = 0
    · rw [if_neg (not_not.mpr haligned)]
      by_cases hholds : g.HoldsBlock (pageAddr g nand 0)
      · rw [if_pos hholds]
        exact iff_of_true (inside_commit _ _) fun _ _ _ => hholds
      · rw [if_neg hholds]
        exact iff_of_false (fun h => h rfl) fun h => hholds (h hready.1 hready.2 haligned)
    · rw [if_pos haligned]
      exact iff_of_true (inside_refuse _) fun _ _ h => absurd h haligned
  · rw [if_pos (by tauto)]
    exact iff_of_true (inside_refuse _) fun h1 h2 => absurd ⟨h1, h2⟩ hready

theorem program_inside_iff (hg : g.Valid) (nand : NAND) :
    Inside (nandCommand g nand 0x10) ↔
      (nand.state = .programDataRxing → g.Holds nand.pageNo) := by
  have hstate : (leaveB nand).state = nand.state := by rw [leaveB_eq]
  have hpage : (leaveB nand).pageNo = nand.pageNo := by rw [leaveB_eq]
  change Inside (if (leaveB nand).state ≠ .programDataRxing then _
    else nandPrvPageProgram g (leaveB nand) >>= _) ↔ _
  rw [hstate, nandPrvPageProgram_eq hg, hpage]
  by_cases hready : nand.state = .programDataRxing
  · rw [if_neg (not_not.mpr hready)]
    by_cases hholds : g.Holds nand.pageNo
    · rw [if_pos hholds]
      exact iff_of_true (inside_commit _ _) fun _ => hholds
    · rw [if_neg hholds]
      exact iff_of_false (fun h => h rfl) fun h => hholds (h hready)
  · rw [if_pos hready]
    exact iff_of_true (inside_refuse _) fun h => absurd h hready

theorem command_inside (h1 : val ≠ 0xd0) (h2 : val ≠ 0x10) : Inside (nandCommand g nand val) := by
  rw [nandCommand]
  simp only [h1, h2, if_false]
  split_ifs <;> simp

theorem storeAddr_inside (nand : NAND) (h : nand.addrBytesRxed < 8) : Inside (storeAddr nand val) := by
  rw [storeAddr, access_ok h]
  nofun

theorem address_inside (hg : g.Valid) : Inside (nandAddress g nand val) := by
  have htotal : g.addrBytesTotal ≤ 8 := hg.addrBytes
  have haddr := hg.addrBytes
  rw [nandAddress]
  split
  · split
    · simp
    · exact storeAddr_inside nand (by omega)
  · split
    · simp
    · exact storeAddr_inside nand (by omega)
  · split
    · simp
    · exact storeAddr_inside nand (by omega)
  · split
    · simp
    · split
      · rw [nandPrvBusy]
        split
        · nofun
        · exact storeAddr_inside { nand with busyCt := 1 } (show nand.addrBytesRxed < 8 by omega)
      · exact storeAddr_inside nand (by omega)
  · simp

theorem acceptProgramData_inside : Inside (nandPrvAcceptProgramData g nand val) := by
  rw [nandPrvAcceptProgramData]
  split
  · simp
  · rw [access_ok (by omega)]
    nofun

theorem data_inside (hg : g.Valid) : Inside (nandData g nand val) := by
  rw [nandData]
  split
  · split
    · simp
    · rw [nandPrvGetPageAddr_byteAddrBytes hg]
      change Inside (if pageAddr g nand g.byteAddrBytes ≥ g.pages then _ else _)
      split
      · simp
      · rw [access_ok (by omega)]
        rw [selectColumn_eq hg]
        exact acceptProgramData_inside
  · exact acceptProgramData_inside
  · simp

theorem step_inside_iff (hg : g.Valid) (hC : nand.area = .C → g.viaAreas = true) (event : Event) :
    Inside (step g nand event) ↔ Harmless g nand event := by
  cases event with
  | write cle ale val =>
    rw [step, inside_map]
    cases cle with
    | true =>
      cases ale with
      | true => simp [nandWrite, Harmless]
      | false =>
        change Inside (nandCommand g nand val) ↔ _
        by_cases herase : val = 0xd0
        · subst herase
          rw [erase_inside_iff hg]
          simp [Harmless]
        · by_cases hprogram : val = 0x10
          · subst hprogram
            rw [program_inside_iff hg]
            simp [Harmless]
          · apply iff_of_true (command_inside herase hprogram)
            exact ⟨fun h => absurd h herase, fun h => absurd h hprogram⟩
    | false =>
      cases ale with
      | true => exact iff_of_true (address_inside hg) trivial
      | false => exact iff_of_true (data_inside hg) trivial
  | read cle ale =>
    rw [step, inside_map, nandRead]
    cases cle with
    | true => simp [Harmless, pure, Except.pure]
    | false =>
      cases ale with
      | true => simp [Harmless, pure, Except.pure]
      | false =>
        rw [if_neg (by decide), Harmless]
        cases hstate : nand.state with
        | reading => simpa using readData_inside_iff hg hC
        | readId =>
          apply iff_of_true _ nofun
          dsimp only
          split
          · nofun
          · split <;> nofun
        | statusReading => exact iff_of_true nofun nofun
        | reset => exact iff_of_true nofun nofun
        | programAddrRxing => exact iff_of_true nofun nofun
        | programDataRxing => exact iff_of_true nofun nofun
        | eraseAddrRxing => exact iff_of_true nofun nofun
  | periodic => exact iff_of_true (inside_ok _) trivial

/-- Area C is selected only by a flash that has areas. -/
def AreaKept (g : Geometry) (nand nand' : NAND) : Prop :=
  nand'.area = .C → nand.area = .C ∨ g.viaAreas = true

def Keeps {α : Type} (g : Geometry) (nand : NAND) (r : Except Stop (α × NAND)) : Prop :=
  Ensures r (fun result => AreaKept g nand result.2) fun _ => True

theorem areaKept_leaveB (nand : NAND) : AreaKept g nand (leaveB nand) := by
  rw [AreaKept, leaveB]
  split
  · rintro ⟨⟩
  · exact Or.inl

theorem keeps_refuse (h : AreaKept g nand nand') : Keeps g nand (refuse nand') := h

theorem keeps_commit (h : AreaKept g nand nand') (count : ℕ) :
    Keeps g nand (nandPrvBusy nand' count >>= fun nand => accept (enter nand .reset)) := by
  rw [nandPrvBusy]
  split
  · trivial
  · exact h

theorem erase_keeps (hg : g.Valid) : Keeps g nand (nandCommand g nand 0xd0) := by
  change Keeps g nand (if (leaveB nand).state ≠ .eraseAddrRxing ∨ (leaveB nand).addrBytesRxed ≠ 2
    then refuse (leaveB nand) else nandPrvBlockErase g (leaveB nand) >>= _)
  split
  · exact keeps_refuse (areaKept_leaveB nand)
  · rw [nandPrvBlockErase_eq hg]
    split
    · exact keeps_refuse (areaKept_leaveB nand)
    · split
      · have hkept : AreaKept g nand (erased g (leaveB nand) (pageAddr g (leaveB nand) 0)) :=
          areaKept_leaveB nand
        exact keeps_commit hkept 100
      · trivial

theorem program_keeps (hg : g.Valid) : Keeps g nand (nandCommand g nand 0x10) := by
  change Keeps g nand (if (leaveB nand).state ≠ .programDataRxing then refuse (leaveB nand)
    else nandPrvPageProgram g (leaveB nand) >>= _)
  split
  · exact keeps_refuse (areaKept_leaveB nand)
  · rw [nandPrvPageProgram_eq hg]
    split
    · have hkept : AreaKept g nand (programmed g (leaveB nand)) := areaKept_leaveB nand
      exact keeps_commit hkept 10
    · trivial

theorem command_keeps (hg : g.Valid) : Keeps g nand (nandCommand g nand val) := by
  by_cases herase : val = 0xd0
  · rw [herase]
    exact erase_keeps hg
  · by_cases hprogram : val = 0x10
    · rw [hprogram]
      exact program_keeps hg
    · rw [nandCommand]
      simp only [herase, hprogram, if_false]
      have hkept : AreaKept g nand nand := Or.inl
      split_ifs
      all_goals first | exact hkept | trivial | exact fun _ => Or.inr ‹g.viaAreas = true› | nofun

theorem storeAddr_keeps (nand : NAND) : Keeps g nand (storeAddr nand val) := by
  rw [storeAddr, access]
  split
  · exact Or.inl
  · trivial

theorem address_keeps : Keeps g nand (nandAddress g nand val) := by
  rw [nandAddress]
  split
  · split
    · exact Or.inl
    · exact storeAddr_keeps nand
  · split
    · exact Or.inl
    · exact storeAddr_keeps nand
  · split
    · exact Or.inl
    · exact storeAddr_keeps nand
  · split
    · exact Or.inl
    · split
      · rw [nandPrvBusy]
        split
        · trivial
        · exact storeAddr_keeps { nand with busyCt := 1 }
      · exact storeAddr_keeps nand
  · exact Or.inl

theorem acceptProgramData_keeps (h : AreaKept g nand nand') :
    Keeps g nand (nandPrvAcceptProgramData g nand' val) := by
  rw [nandPrvAcceptProgramData, access]
  split
  · exact h
  · split
    · exact h
    · trivial

theorem data_keeps (hg : g.Valid) : Keeps g nand (nandData g nand val) := by
  rw [nandData]
  split
  · split
    · exact Or.inl
    · rw [nandPrvGetPageAddr_byteAddrBytes hg]
      change Keeps g nand (if pageAddr g nand g.byteAddrBytes ≥ g.pages then _ else _)
      split
      · exact Or.inl
      · rw [access_ok (by omega)]
        rw [selectColumn_eq hg]
        exact acceptProgramData_keeps (areaKept_leaveB _)
  · exact acceptProgramData_keeps Or.inl
  · exact Or.inl

theorem takeByte_keeps (h : AreaKept g nand nand') : Keeps g nand (takeByte g nand') := by
  have hturned : Ensures (turnPage g nand') (AreaKept g nand) fun _ => True := by
    rw [turnPage]
    split
    · rw [loadPage_eq]
      by_cases hload : u32 (u32 (nand'.pageNo + 1) * g.bytesPerPage) + g.bytesPerPage ≤ g.dataSize
      · rwa [if_pos hload]
      · rw [if_neg hload]
        trivial
    · exact h
  apply hturned.bind
  intro nand'' hkept
  rw [access]
  split
  · exact hkept
  · trivial

theorem readData_keeps (hg : g.Valid) : Keeps g nand (readData g nand) := by
  rw [readData, markRead_eq]
  split
  · rw [startRead_counter hg, startRead_eq hg]
    dsimp only
    split
    · exact Or.inl
    · split
      · exact takeByte_keeps fun h => Or.inl (area_of_started h)
      · trivial
  · split
    · exact takeByte_keeps Or.inl
    · exact Or.inl

theorem read_keeps (hg : g.Valid) (cle ale : Bool) : Keeps g nand (nandRead g nand cle ale) := by
  have hkept : AreaKept g nand nand := Or.inl
  rw [nandRead]
  split
  · exact hkept
  · split
    · split
      · exact hkept
      · split <;> exact hkept
    · exact hkept
    · exact readData_keeps hg
    · exact hkept

theorem step_area (hg : g.Valid) (hC : nand.area = .C → g.viaAreas = true) (event : Event) :
    Ensures (step g nand event) (fun nand' => nand'.area = .C → g.viaAreas = true) fun _ => True := by
  have hresult : ∀ {α : Type} {r : Except Stop (α × NAND)}, Keeps g nand r →
      Ensures (Prod.snd <$> r) (fun nand' => nand'.area = .C → g.viaAreas = true)
        fun _ => True := by
    intro α r hkeeps
    cases r with
    | ok result => exact fun h => (hkeeps h).elim hC id
    | error e => trivial
  cases event with
  | write cle ale val =>
    apply hresult
    cases cle with
    | true =>
      cases ale with
      | true => exact Or.inl
      | false => exact command_keeps hg
    | false =>
      cases ale with
      | true => exact address_keeps
      | false => exact data_keeps hg
  | read cle ale => exact hresult (read_keeps hg cle ale)
  | periodic => exact hC

def RunHarmless (g : Geometry) (nand : NAND) : List Event → Prop
  | [] => True
  | event :: events => Harmless g nand event ∧
    match step g nand event with
    | .ok nand' => RunHarmless g nand' events
    | .error _ => True

instance (g : Geometry) (nand : NAND) : DecidablePred (Harmless g nand)
  | .write true false _ => inferInstanceAs (Decidable (_ ∧ _))
  | .write true true _ => isTrue trivial
  | .write false _ _ => isTrue trivial
  | .read false false => inferInstanceAs (Decidable (_ → _ ∧ _))
  | .read false true => isTrue trivial
  | .read true _ => isTrue trivial
  | .periodic => isTrue trivial

def decideRunHarmless (g : Geometry) (nand : NAND) :
    (events : List Event) → Decidable (RunHarmless g nand events)
  | [] => isTrue trivial
  | event :: events =>
    match hresult : step g nand event with
    | .ok nand' =>
      letI := decideRunHarmless g nand' events
      decidable_of_iff (Harmless g nand event ∧ RunHarmless g nand' events) (by
        rw [RunHarmless, hresult])
    | .error _ =>
      decidable_of_iff (Harmless g nand event) (by rw [RunHarmless, hresult, and_true])

instance (g : Geometry) (nand : NAND) : DecidablePred (RunHarmless g nand) := decideRunHarmless g nand

theorem run_inside_iff_of_valid (hg : g.Valid) (hC : nand.area = .C → g.viaAreas = true)
    (events : List Event) : Inside (run g nand events) ↔ RunHarmless g nand events := by
  induction events generalizing nand with
  | nil => exact iff_of_true (inside_ok _) trivial
  | cons event events ih =>
    have hstep := step_inside_iff hg hC event
    have harea := step_area hg hC event
    rw [run, List.foldlM_cons, RunHarmless, ← hstep]
    cases hresult : step g nand event with
    | ok nand' =>
      rw [hresult] at harea
      have hrest := ih harea
      simp only [inside_ok, true_and]
      exact hrest
    | error e =>
      simp [bind, Except.bind, Inside]

theorem log2_le {n k : ℕ} (h : n < 2 ^ (k + 1)) : Nat.log2 n ≤ k := by
  by_cases hzero : n = 0
  · subst hzero
    exact zero_le k
  · have hlt := (log2_lt hzero).mpr h
    omega

theorem toNat_sub_one {bytesPerPage : Word} (hpos : 0 < bytesPerPage.toNat) :
    (bytesPerPage - 1).toNat = bytesPerPage.toNat - 1 := by
  change (2 ^ 32 - 1 + bytesPerPage.toNat) % 2 ^ 32 = _
  omega

theorem two_le_log2 {bytesPerPage : Word} (hdvd : bytesPerPage.toNat % 528 = 0) :
    2 ≤ Nat.log2 (bytesPerPage - 1).toNat := by
  by_cases hpos : 0 < bytesPerPage.toNat
  · rw [toNat_sub_one hpos]
    exact (le_log2 (by omega)).mpr (by omega)
  · have hzero : bytesPerPage = 0 := BitVec.eq_of_toNat_eq (by simpa using hpos)
    subst hzero
    decide

theorem areaSize_lt {bytesPerPage : Word} (hdvd : bytesPerPage.toNat % 528 = 0)
    (hpos : 0 < bytesPerPage.toNat) :
    2 * (2 ^ (Nat.log2 (bytesPerPage - 1).toNat - 1) % 2 ^ 16) < bytesPerPage.toNat := by
  have hlog := two_le_log2 hdvd
  rw [toNat_sub_one hpos] at hlog ⊢
  have hle := Nat.log2_self_le (show bytesPerPage.toNat - 1 ≠ 0 by omega)
  have hpow : 2 ^ Nat.log2 (bytesPerPage.toNat - 1) =
      2 * 2 ^ (Nat.log2 (bytesPerPage.toNat - 1) - 1) := by
    rw [← Nat.pow_succ', Nat.succ_eq_add_one, Nat.sub_add_cancel (by omega)]
  omega

theorem nandInit_eq_some {content heap : ℕ → Byte} {nandSize : ℕ} {specs : NandSpecs}
    (h : nandInit content nandSize specs heap = some (g, nand)) :
    g.Valid ∧ nand.area = .A := by
  rw [nandInit] at h
  simp only [Option.ite_none_left_eq_some, Option.some.injEq, Prod.mk.injEq] at h
  obtain ⟨hblock, hpage, -, -, -, rfl, rfl⟩ := h
  have hlog := log2_le (specs.bytesPerPage - 1).isLt
  have htwo := two_le_log2 (not_not.mp hpage)
  have hpages := log2_le (k := 31) (n := u32 (u32 (specs.blocksPerDevice.toNat *
    2 ^ specs.pagesPerBlockLg2.toNat) + (2 ^ 32 - 1))) (mod_lt _ (by decide))
  refine ⟨⟨?_, ?_, ?_, specs.bytesPerPage.isLt, rfl, ?_, ?_, mod_lt _ (by decide),
    not_le.mp hblock, ?_⟩, rfl⟩
  · dsimp only
    split <;> omega
  · dsimp only
    omega
  · grind
  · dsimp only
    split <;> omega
  · intro hareas hpos
    dsimp only at hareas ⊢
    rw [hareas, if_pos rfl]
    exact areaSize_lt (not_not.mp hpage) hpos
  · intro hpos hle
    dsimp only at hpos hle ⊢
    have hcolumn := log2_le (k := 15) (n := specs.bytesPerPage.toNat - 1) (by omega)
    rw [toNat_sub_one hpos]
    omega

/-- From the start on, the accesses stay inside of the arrays exactly if all events are harmless. -/
theorem run_inside_iff {content heap : ℕ → Byte} {nandSize : ℕ} {specs : NandSpecs}
    (h : nandInit content nandSize specs heap = some (g, nand)) (events : List Event) :
    Inside (run g nand events) ↔ RunHarmless g nand events := by
  obtain ⟨hg, harea⟩ := nandInit_eq_some h
  apply run_inside_iff_of_valid hg
  rw [harea]
  nofun

def smallSpecs : NandSpecs := ⟨528, 128, 3, 1, [0xec, 0x75]⟩

def smallFlash : Geometry × NAND :=
  (nandInit (fun _ => 0xff) 540672 smallSpecs fun _ => 0).get (by decide)

def plainEvents : List Event :=
  [.periodic, .write true false 0x80, .write false true 3, .write false true 9, .write false true 0,
    .write false false 0x5a, .write true false 0x10] ++ List.replicate 10 .periodic ++
  [.write true false 0x00, .write false true 3, .write false true 9, .write false true 0,
    .read false false, .periodic, .write true false 0x60, .write false true 8, .write false true 0,
    .write true false 0xd0]

theorem smallFlash_init :
    nandInit (fun _ => 0xff) 540672 smallSpecs (fun _ => 0) = some (smallFlash.1, smallFlash.2) := by
  rw [Prod.mk.eta, smallFlash, Option.some_get]

theorem run_inside_plainEvents : Inside (run smallFlash.1 smallFlash.2 plainEvents) := by
  apply (run_inside_iff smallFlash_init plainEvents).mpr
  decide +kernel

/-- The flash of the Tungsten E2. -/
def tungstenSpecs : NandSpecs := ⟨528, 2048, 5, 1, [0xec, 0x75]⟩

def tungstenFlash : Geometry × NAND :=
  (nandInit (fun _ => 0xff) 34603008 tungstenSpecs fun _ => 0).get (by decide)

def lastBlockEvents : List Event :=
  [.periodic, .write true false 0x60, .write false true 0xe0, .write false true 0xff,
    .write true false 0xd0]

theorem tungstenFlash_init :
    nandInit (fun _ => 0xff) 34603008 tungstenSpecs (fun _ => 0) =
      some (tungstenFlash.1, tungstenFlash.2) := by
  rw [Prod.mk.eta, tungstenFlash, Option.some_get]

theorem not_inside_lastBlockEvents :
    ¬ Inside (run tungstenFlash.1 tungstenFlash.2 lastBlockEvents) := by
  obtain ⟨hg, harea⟩ := nandInit_eq_some tungstenFlash_init
  rw [run_inside_iff_of_valid hg fun h => by rw [harea] at h; cases h]
  decide +kernel

end Cloudpilot.Uarm.NandFlash
