import Cloudpilot.Uarm.Pace.Reads

/-! # The accesses of an instruction

Access by access, what the code leaves behind is compared with what it should, and from
that the run of all accesses of an instruction.
-/
namespace Cloudpilot.Uarm.Pace
open Cloudpilot.Uarm.Cpu Cloudpilot.Uarm.MMU Cloudpilot.Library Cloudpilot.Library.AlignedBlock BitVec

variable {δ : Type} {dev : Devices δ} {s : PaceState δ} {addr value : Word}

theorem leBytes_put8 (value : Byte) : leBytes (value.setWidth 32) 1 = [value] := by
  refine congrArg (fun b => [b]) ?_
  ext i hi
  simp

theorem append_byte {n : ℕ} (x : BitVec n) (b : Byte) : (x ++ b).setWidth 8 = b := by
  ext i hi
  simp [getLsbD_append, hi]

theorem append_shift {n : ℕ} (x : BitVec n) (b : Byte) (k : ℕ) :
    ((x ++ b) >>> (8 + k)).setWidth 8 = (x >>> k).setWidth 8 := by
  ext i hi
  grind

theorem shift_zero {n : ℕ} (x : BitVec n) : (x >>> 0).setWidth 8 = x.setWidth 8 := by
  rw [ushiftRight_zero]

theorem leBytes_put16 (value : BitVec 16) :
    leBytes ((htobe16 value).setWidth 32) 2 = (Access.put16 addr value).bytes := by
  have hlow : ((htobe16 value).setWidth 32).setWidth 8 = (value >>> 8).setWidth 8 :=
    (setWidth_setWidth_of_le _ (by decide)).trans (append_byte _ _)
  have hhigh : ((htobe16 value).setWidth 32 >>> 8).setWidth 8 = value.setWidth 8 := by
    have hwide : ((htobe16 value).setWidth 32 >>> 8).setWidth 8 = (htobe16 value >>> 8).setWidth 8 := by
      rfl
    exact hwide.trans ((append_shift _ _ 0).trans ((shift_zero _).trans (setWidth_eq _)))
  change [_, _] = [_, _]
  rw [hlow, hhigh]

theorem word_htobe32 (value : Word) :
    LittleEndian.word (htobe32 value) = (Access.put32 addr value).bytes := by
  have h₀ : (htobe32 value).setWidth 8 = (value >>> 24).setWidth 8 := append_byte _ _
  have h₁ : (htobe32 value >>> 8).setWidth 8 = (value >>> 16).setWidth 8 :=
    (append_shift _ _ 0).trans ((shift_zero _).trans (append_byte _ _))
  have h₂ : (htobe32 value >>> 16).setWidth 8 = (value >>> 8).setWidth 8 :=
    (append_shift _ _ 8).trans ((append_shift _ _ 0).trans ((shift_zero _).trans (append_byte _ _)))
  have h₃ : (htobe32 value >>> 24).setWidth 8 = value.setWidth 8 :=
    (append_shift _ _ 16).trans ((append_shift _ _ 8).trans ((append_shift _ _ 0).trans
      ((shift_zero _).trans (setWidth_eq _))))
  rw [LittleEndian.word, h₀, h₁, h₂, h₃, Access.bytes]
theorem leBytes_low (value : Word) :
    leBytes (htobe32 value) 2 = (Access.put32 addr value).bytes.take 2 := by
  rw [leBytes, word_htobe32]

theorem leBytes_high (value : Word) :
    leBytes (htobe32 value >>> 16) 2 = (Access.put32 addr value).bytes.drop 2 := by
  rw [← word_htobe32]
  change [_, _] = [_, _]
  rw [← shiftRight_add]

theorem leBytes_whole (value : Word) :
    leBytes (htobe32 value) 4 = (Access.put32 addr value).bytes :=
  word_htobe32 value

theorem agrees_of_reported {a : Access} {last : Word} {r : Option (Word × Fsr) × PaceState δ}
    (h : s.fsr = 0) (hperform : (perform dev s a).2 = reported a.isWrite last r)
    (hexpected : expected dev s a = (r.1, r.2.mem)) (hfsr : r.2.fsr = 0) : Agrees dev s a := by
  obtain ⟨fault, t⟩ := r
  refine ⟨perform_value h, fun f hf => ?_, fun hnone => ?_, ?_⟩
  · rw [hexpected] at hf
    obtain rfl : fault = some f := hf
    rw [hperform]
    rfl
  · rw [hexpected] at hnone
    obtain rfl : fault = none := hnone
    rwa [hperform]
  · rw [hexpected, hperform]
    cases fault <;> rfl

theorem expected_odd {a : Access} (h : a.Odd) : expected dev s a = (some (a.addr, 1), s.mem) :=
  if_pos h

theorem expected_block {a : Access} (hodd : ¬ a.Odd) (hsplit : ¬ a.Split) :
    expected dev s a = ((block dev s a.isWrite a.addr [a.bytes]).1,
      (block dev s a.isWrite a.addr [a.bytes]).2.mem) := by
  rw [expected, if_neg hodd, if_pos hsplit]

theorem expected_fast {a : Access} (hodd : ¬ a.Odd) (hsplit : a.Split) (hblock : InBlock a.addr 4) :
    expected dev s a = ((block dev s a.isWrite a.addr [a.bytes.take 2, a.bytes.drop 2]).1,
      (block dev s a.isWrite a.addr [a.bytes.take 2, a.bytes.drop 2]).2.mem) := by
  rw [expected, if_neg hodd, if_neg (not_not.mpr hsplit), if_pos hblock]

theorem agrees_block (h : s.fsr = 0) {a : Access} (hodd : ¬ a.Odd) (hsplit : ¬ a.Split)
    (hperform : (perform dev s a).2 = reported a.isWrite a.addr (block dev s a.isWrite a.addr [a.bytes])) :
    Agrees dev s a :=
  agrees_of_reported h hperform (expected_block hodd hsplit) ((block_fsr s _ _ _).trans h)

theorem not_odd_of_mod {a : Access} (h : a.addr.toNat % 2 = 0) : ¬ a.Odd :=
  fun hodd => hodd.2 (and_one_eq_zero.mpr h)

theorem not_split_of_mod {a : Access} (h : a.addr.toNat % 4 ≠ 2) : ¬ a.Split :=
  fun hsplit => h (and_three_eq_two.mp hsplit.2)

theorem get8_agrees (h : s.fsr = 0) (addr : Word) : Agrees dev s (.get8 addr) :=
  agrees_block h (fun hodd => hodd.1 rfl) (fun hsplit => (nomatch hsplit.1))
    (paceGetLe_reported h addr [0])

theorem put8_agrees (h : s.fsr = 0) (addr : Word) (value : Byte) : Agrees dev s (.put8 addr value) := by
  refine agrees_block h (fun hodd => hodd.1 rfl) (fun hsplit => (nomatch hsplit.1)) ?_
  change pacePutLe dev s addr (value.setWidth 32) 1 = _
  rw [pacePutLe_reported h, leBytes_put8]
  rfl

theorem get16_agrees_iff (h : s.fsr = 0) (addr : Word) :
    Agrees dev s (.get16 addr) ↔ Meets dev s (.get16 addr) := by
  have hmeets : Meets dev s (.get16 addr) ↔ addr &&& 1#32 = 0 := ⟨fun hm => hm h, fun heven _ => heven⟩
  rw [hmeets]
  by_cases heven : addr &&& 1#32 = 0
  · refine iff_of_true (agrees_block h (fun hodd => hodd.2 heven) (fun hsplit => (nomatch hsplit.1)) ?_) heven
    change (uaeGet16 dev s addr).2 = _
    rw [uaeGet16, if_neg fun hodd => hodd.2 heven]
    exact paceGetLe_reported h addr [0, 0]
  · refine iff_of_false (fun hagrees => ?_) heven
    have hexpected : expected dev s (.get16 addr) = (some (addr, 1), s.mem) :=
      expected_odd ⟨(by decide : 2 ≠ 1), heven⟩
    have hfault := hagrees.fault (addr, 1) (by rw [hexpected])
    change paceGetMemeryFault (uaeGet16 dev s addr).2 = _ at hfault
    rw [uaeGet16, if_pos ⟨h, heven⟩] at hfault
    exact absurd (congrArg (fun f => f.2.2) hfault) (by decide : (10 : Fsr) ≠ 1)

theorem put16_agrees_iff (h : s.fsr = 0) (addr : Word) (value : BitVec 16) :
    Agrees dev s (.put16 addr value) ↔ Meets dev s (.put16 addr value) := by
  have hmeets : Meets dev s (.put16 addr value) ↔
      (addr &&& 1#32 = 0 ∨ s.lastAddr = addr ∧ s.wasWrite = true) :=
    ⟨fun hm => hm h, fun hm _ => hm⟩
  rw [hmeets]
  by_cases heven : addr &&& 1#32 = 0
  · refine iff_of_true (agrees_block h (fun hodd => hodd.2 heven) (fun hsplit => (nomatch hsplit.1)) ?_)
      (.inl heven)
    change uaePut16 dev s addr value = _
    rw [uaePut16, if_neg fun hodd => hodd.2 heven, pacePutLe_reported h, leBytes_put16]
    rfl
  · have hexpected : expected dev s (.put16 addr value) = (some (addr, 1), s.mem) :=
      expected_odd ⟨(by decide : 2 ≠ 1), heven⟩
    have hperform : (perform dev s (.put16 addr value)).2 = { s with fsr := 1 } := by
      change uaePut16 dev s addr value = _
      rw [uaePut16, if_pos ⟨h, heven⟩]
    constructor
    · intro hagrees
      have hfault := hagrees.fault (addr, 1) (by rw [hexpected])
      rw [hperform] at hfault
      exact .inr ⟨congrArg Prod.fst hfault, congrArg (fun f => f.2.1) hfault⟩
    · rintro (heven' | ⟨rfl, hwrite⟩)
      · exact absurd heven' heven
      · refine ⟨perform_value h, fun f hf => ?_, fun hnone => ?_, ?_⟩
        · rw [hexpected] at hf
          cases hf
          rw [hperform, paceGetMemeryFault, hwrite]
          rfl
        · rw [hexpected] at hnone
          cases hnone
        · rw [hexpected, hperform]

theorem whole_cases {n : ℕ} (h : 1 < n) : ∃ k, n = k + 2 := by
  obtain ⟨k, rfl⟩ := Nat.exists_eq_add_of_lt h
  exact ⟨k, by omega⟩

theorem agrees_odd (h : s.fsr = 0) {a : Access} (hodd : a.Odd)
    (hperform : (perform dev s a).2 = { s with fsr := 1, lastAddr := a.addr, wasWrite := a.isWrite }) :
    Agrees dev s a := by
  refine ⟨perform_value h, fun f hf => ?_, fun hnone => ?_, ?_⟩
  · rw [expected_odd hodd] at hf
    cases hf
    rw [hperform]
    rfl
  · rw [expected_odd hodd] at hnone
    cases hnone
  · rw [expected_odd hodd, hperform]

def secondBlock (dev : Devices δ) (s : PaceState δ) (a : Access) : Option (Word × Fsr) × PaceState δ :=
  block dev (block dev s a.isWrite a.addr [a.bytes.take 2]).2 a.isWrite (a.addr + 2#32) [a.bytes.drop 2]

def secondRefused (dev : Devices δ) (s : PaceState δ) (a : Access) : Prop :=
  (translate dev (block dev s a.isWrite a.addr [a.bytes.take 2]).2 (a.addr + 2#32)
    a.isWrite).1.toOption.isNone = true

instance (a : Access) : Decidable (secondRefused dev s a) := inferInstanceAs (Decidable (_ = true))

theorem expected_first {a : Access} (hodd : ¬ a.Odd) (hsplit : a.Split) (hblock : ¬ InBlock a.addr 4)
    (hfault : (block dev s a.isWrite a.addr [a.bytes.take 2]).1.isSome = true) :
    expected dev s a = ((block dev s a.isWrite a.addr [a.bytes.take 2]).1,
      (block dev s a.isWrite a.addr [a.bytes.take 2]).2.mem) := by
  rw [expected, if_neg hodd, if_neg (not_not.mpr hsplit), if_neg hblock]
  exact if_pos hfault

theorem expected_second {a : Access} (hodd : ¬ a.Odd) (hsplit : a.Split) (hblock : ¬ InBlock a.addr 4)
    (hfault : (block dev s a.isWrite a.addr [a.bytes.take 2]).1 = none) :
    (expected dev s a).1 = (secondBlock dev s a).1 ∧
      (a.isWrite = true ∧ secondRefused dev s a → (expected dev s a).2 = s.mem) ∧
      (¬ (a.isWrite = true ∧ secondRefused dev s a) →
        (expected dev s a).2 = (secondBlock dev s a).2.mem) := by
  have hexpected : expected dev s a = ((secondBlock dev s a).1,
      if a.isWrite = true ∧ secondRefused dev s a then s.mem else (secondBlock dev s a).2.mem) := by
    rw [expected, if_neg hodd, if_neg (not_not.mpr hsplit), if_neg hblock]
    exact if_neg (by rw [hfault]; exact Bool.false_ne_true)
  rw [hexpected]
  exact ⟨rfl, fun hrefused => if_pos hrefused, fun hnot => if_neg hnot⟩

theorem slow_reported (second : PaceState δ → PaceState δ) {write : Bool} {low high : List Byte}
    (h : s.fsr = 0) (hfaulted : ∀ t : PaceState δ, t.fsr ≠ 0 → second t = t)
    (hsecond : ∀ t : PaceState δ, t.fsr = 0 →
      second t = reported write (addr + 2#32) (block dev t write (addr + 2#32) [high])) :
    second (reported write addr (block dev s write addr [low])) =
      match (block dev s write addr [low]).1 with
      | some _ => reported write addr (block dev s write addr [low])
      | none => reported write (addr + 2#32)
        (block dev (block dev s write addr [low]).2 write (addr + 2#32) [high]) := by
  cases hfirst : (block dev s write addr [low]).1 with
  | some f =>
    refine hfaulted _ ?_
    rw [reported, hfirst]
    exact block_fault hfirst
  | none =>
    have hreported : reported write addr (block dev s write addr [low]) =
        { (block dev s write addr [low]).2 with lastAddr := addr, wasWrite := write } := by
      rw [reported, hfirst]
    have hfsr : (block dev s write addr [low]).2.fsr = 0 := (block_fsr s write addr [low]).trans h
    refine (congrArg second hreported).trans ((hsecond
      { (block dev s write addr [low]).2 with lastAddr := addr, wasWrite := write } hfsr).trans ?_)
    exact reported_report _ _ _ _ _ _ _

/-- An access of two blocks agrees, unless the second is refused and the first has been
stored. -/
theorem slow_agrees_iff (h : s.fsr = 0) {a : Access} (hodd : ¬ a.Odd) (hsplit : a.Split)
    (hblock : ¬ InBlock a.addr 4)
    (hperform : (perform dev s a).2 =
      match (block dev s a.isWrite a.addr [a.bytes.take 2]).1 with
      | some _ => reported a.isWrite a.addr (block dev s a.isWrite a.addr [a.bytes.take 2])
      | none => reported a.isWrite (a.addr + 2#32) (secondBlock dev s a)) :
    Agrees dev s a ↔ ¬ (a.isWrite = true ∧ secondRefused dev s a ∧
      (block dev s a.isWrite a.addr [a.bytes.take 2]).1 = none ∧
      (block dev s a.isWrite a.addr [a.bytes.take 2]).2.mem ≠ s.mem) := by
  cases hfirst : (block dev s a.isWrite a.addr [a.bytes.take 2]).1 with
  | some f =>
    rw [hfirst] at hperform
    refine iff_of_true ?_ fun htorn => (nomatch htorn.2.2.1)
    exact agrees_of_reported h hperform
      (expected_first hodd hsplit hblock (by rw [hfirst]; rfl)) ((block_fsr s _ _ _).trans h)
  | none =>
    rw [hfirst] at hperform
    obtain ⟨hfault, hrefused, hallowed⟩ := expected_second hodd hsplit hblock hfirst
    have hfsr : (secondBlock dev s a).2.fsr = 0 :=
      (block_fsr _ _ _ _).trans ((block_fsr s _ _ _).trans h)
    by_cases hcase : a.isWrite = true ∧ secondRefused dev s a
    · obtain ⟨fsr, htranslate⟩ : ∃ fsr, (translate dev (block dev s a.isWrite a.addr [a.bytes.take 2]).2
          (a.addr + 2#32) a.isWrite).1 = .error fsr := by
        have hnone := hcase.2
        rw [secondRefused] at hnone
        cases htranslate : (translate dev (block dev s a.isWrite a.addr [a.bytes.take 2]).2
          (a.addr + 2#32) a.isWrite).1 with
        | error fsr => exact ⟨fsr, rfl⟩
        | ok pa =>
          rw [htranslate] at hnone
          cases hnone
      have hsecond := block_error htranslate [a.bytes.drop 2]
      have hmem : (perform dev s a).2.mem = (block dev s a.isWrite a.addr [a.bytes.take 2]).2.mem := by
        rw [hperform, secondBlock, hsecond]
        rfl
      constructor
      · rintro hagrees ⟨-, -, -, hne⟩
        have hsame := hagrees.mem
        rw [hrefused hcase, hmem] at hsame
        exact hne hsame
      · intro hnot
        have hsame : (block dev s a.isWrite a.addr [a.bytes.take 2]).2.mem = s.mem := by
          by_contra hne
          exact hnot ⟨hcase.1, hcase.2, rfl, hne⟩
        have hsecondMem : (secondBlock dev s a).2.mem = s.mem := by
          rwa [secondBlock, hsecond]
        refine agrees_of_reported h hperform (Prod.ext hfault ?_) hfsr
        rw [hrefused hcase, hsecondMem]
    · refine iff_of_true ?_ fun htorn => hcase ⟨htorn.1, htorn.2.1⟩
      exact agrees_of_reported h hperform (Prod.ext hfault (hallowed hcase)) hfsr

theorem get32_agrees (h : s.fsr = 0) (addr : Word) : Agrees dev s (.get32 addr) := by
  by_cases heven : addr &&& 1#32 = 0
  swap
  · refine agrees_odd h ⟨(by decide : 4 ≠ 1), heven⟩ ?_
    exact congrArg Prod.snd (uaeGet32_odd heven dev s)
  have hodd : ¬ (Access.get32 addr).Odd := fun hodd => hodd.2 heven
  have hperform : perform dev s (.get32 addr) = uaeGet32 dev s addr := rfl
  cases alignment addr with
  | odd hmod hctz =>
    have hzero := and_one_eq_zero.mp heven
    omega
  | whole hmod hctz =>
    obtain ⟨k, hk⟩ := whole_cases hctz
    refine agrees_block h hodd (not_split_of_mod (by change addr.toNat % 4 ≠ 2; omega)) ?_
    rw [hperform, uaeGet32, hk]
    exact paceGetLe_reported h addr [0, 0, 0, 0]
  | half hmod hctz =>
    have hsplit : (Access.get32 addr).Split := ⟨rfl, and_three_eq_two.mpr hmod⟩
    have hpath : perform dev s (.get32 addr) = uaeGet32Split dev s addr := by
      rw [hperform, uaeGet32, hctz]
      rfl
    by_cases hblock : InBlock addr 4
    · exact agrees_of_reported h ((congrArg Prod.snd hpath).trans (uaeGet32Split_fast h hmod hblock))
        (expected_fast hodd hsplit hblock) ((block_fsr s _ _ _).trans h)
    · refine (slow_agrees_iff h hodd hsplit hblock ?_).mpr fun htorn => by cases htorn.1
      rw [hpath, uaeGet32Split, if_neg fun hfast => hblock ((fast_iff hmod).mp hfast)]
      have hfirst : (paceGetLe dev s addr 2).2 = reported false addr (block dev s false addr [[0, 0]]) :=
        paceGetLe_reported h addr [0, 0]
      dsimp only
      rw [hfirst]
      exact slow_reported (fun t => (paceGetLe dev t (addr + 2#32) 2).2) h
        (fun t ht => congrArg Prod.snd (paceGetLe_faulted ht _ _))
        (fun t ht => paceGetLe_reported ht _ [0, 0])

theorem torn_iff (addr value : Word) :
    Torn dev s addr value ↔
      (block dev s true addr [(Access.put32 addr value).bytes.take 2]).1 = none ∧
      (block dev s true addr [(Access.put32 addr value).bytes.take 2]).2.mem ≠ s.mem ∧
      secondRefused dev s (.put32 addr value) := by
  have hrefused : secondRefused dev s (.put32 addr value) ↔
      ∃ fsr, (translate dev (block dev s true addr [(Access.put32 addr value).bytes.take 2]).2
        (addr + 2#32) true).1 = .error fsr := by
    change (translate dev (block dev s true addr [(Access.put32 addr value).bytes.take 2]).2
        (addr + 2#32) true).1.toOption.isNone = true ↔ _
    cases (translate dev (block dev s true addr [(Access.put32 addr value).bytes.take 2]).2
        (addr + 2#32) true).1 with
    | error fsr => exact iff_of_true rfl ⟨fsr, rfl⟩
    | ok pa => exact iff_of_false Bool.false_ne_true fun ⟨_, hsame⟩ => (nomatch hsame)
  rw [hrefused]
  cases htranslate : (translate dev s addr true).1 with
  | error fsr =>
    rw [block_error htranslate]
    refine iff_of_false ?_ fun hnone => (nomatch hnone.1)
    rintro ⟨pa, mem, hok, -⟩
    rw [htranslate] at hok
    cases hok
  | ok pa =>
    rw [block_ok htranslate]
    cases hwrite : memAccessWrite dev s.mem pa ((Access.put32 addr value).bytes.take 2) with
    | mk ok mem =>
      have hphysical : physical dev s.mem true pa ((Access.put32 addr value).bytes.take 2) = (ok, mem) :=
        hwrite
      cases ok with
      | false =>
        rw [chunks_failed (s := { s with mmu := (translate dev s addr true).2 }) hphysical]
        refine iff_of_false ?_ fun hnone => (nomatch hnone.1)
        rintro ⟨pa', mem', hok, hstored, -⟩
        obtain rfl := Except.ok.inj (htranslate.symm.trans hok)
        exact absurd (congrArg Prod.fst (hwrite.symm.trans hstored)) Bool.false_ne_true
      | true =>
        rw [chunks_stored (s := { s with mmu := (translate dev s addr true).2 }) hphysical]
        constructor
        · rintro ⟨pa', mem', hok, hstored, hne, hsecond⟩
          obtain rfl := Except.ok.inj (htranslate.symm.trans hok)
          obtain rfl := congrArg Prod.snd (hwrite.symm.trans hstored)
          exact ⟨rfl, hne, hsecond⟩
        · rintro ⟨-, hne, hsecond⟩
          exact ⟨pa, mem, htranslate, hwrite, hne, hsecond⟩

/-- With the permission to read, the fast path does as it should only where a write is
permitted, or a read is not. -/
theorem fast_agrees_iff (h : s.fsr = 0) (hmod : addr.toNat % 4 = 2) (hblock : InBlock addr 4)
    (hperform : (perform dev s (.put32 addr value)).2 = uaePut32Split dev s addr value) :
    Agrees dev s (.put32 addr value) ↔ WritesAsReads dev s addr := by
  have hodd : ¬ (Access.put32 addr value).Odd := not_odd_of_mod (by change addr.toNat % 2 = 0; omega)
  have hsplit : (Access.put32 addr value).Split := ⟨rfl, and_three_eq_two.mpr hmod⟩
  have hexpected : expected dev s (.put32 addr value) = _ := expected_fast hodd hsplit hblock
  rw [uaePut32Split_fast h hmod hblock, leBytes_low, leBytes_high] at hperform
  have hmmu := (translate_mmu dev s addr true).2
  rcases outcome_write_or { s.mmu with mem := walkReads dev s.mem } addr s.priviledged with
    hsame | ⟨pa, fsr, hread, hwrite, hne, hne'⟩
  · rw [← translate_fst, ← translate_fst] at hsame
    refine iff_of_true ?_ hsame
    cases htranslate : (translate dev s addr false).1 with
    | error fsr =>
      rw [htranslate] at hperform hsame
      refine agrees_of_reported h hperform ?_ h
      rw [hexpected]
      change ((block dev s true addr _).1, (block dev s true addr _).2.mem) = _
      rw [block_error hsame]
    | ok pa =>
      rw [htranslate] at hperform hsame
      refine agrees_of_reported h hperform ?_ ((chunks_fsr _ _ _ _ _).trans h)
      rw [hexpected]
      change ((block dev s true addr _).1, (block dev s true addr _).2.mem) = _
      rw [block_ok hsame, hmmu]
  · rw [← translate_fst] at hread hwrite
    refine iff_of_false (fun hagrees => ?_) fun hsame => ?_
    · have hfault := hagrees.fault (addr, fsr) (by
        rw [hexpected]
        change (block dev s true addr _).1 = _
        rw [block_error hwrite])
      rw [hperform, hread] at hfault
      have hstatus := congrArg (fun f => f.2.2) hfault
      dsimp only [paceGetMemeryFault, reported] at hstatus
      cases hchunks : (chunks dev { s with mmu := (translate dev s addr false).2 } true addr pa
          [(Access.put32 addr value).bytes.take 2, (Access.put32 addr value).bytes.drop 2]).1 with
      | none =>
        rw [hchunks] at hstatus
        exact hne (hstatus.symm.trans ((chunks_fsr _ _ _ _ _).trans h))
      | some f =>
        rw [hchunks] at hstatus
        exact hne' (hstatus.symm.trans (chunks_fault hchunks))
    · rw [WritesAsReads, hread, hwrite] at hsame
      cases hsame

theorem put32_agrees_iff (h : s.fsr = 0) (addr value : Word) :
    Agrees dev s (.put32 addr value) ↔ Meets dev s (.put32 addr value) := by
  have hmeets : Meets dev s (.put32 addr value) ↔ (addr &&& 3#32 = 2#32 →
      (InBlock addr 4 → WritesAsReads dev s addr) ∧ (¬ InBlock addr 4 → ¬ Torn dev s addr value)) :=
    ⟨fun hm => hm.2 h, fun hm => ⟨fun hne => absurd h hne, fun _ => hm⟩⟩
  rw [hmeets, and_three_eq_two]
  by_cases heven : addr &&& 1#32 = 0
  swap
  · refine iff_of_true (agrees_odd h ⟨(by decide : 4 ≠ 1), heven⟩ ?_) fun hhalf => ?_
    · exact uaePut32_odd heven dev s value
    · exact absurd (and_one_eq_zero.mpr (by omega)) heven
  have hodd : ¬ (Access.put32 addr value).Odd := fun hodd => hodd.2 heven
  have hperform : (perform dev s (.put32 addr value)).2 = uaePut32 dev s addr value := rfl
  cases alignment addr with
  | odd hmod hctz =>
    have hzero := and_one_eq_zero.mp heven
    omega
  | whole hmod hctz =>
    obtain ⟨k, hk⟩ := whole_cases hctz
    refine iff_of_true (agrees_block h hodd (not_split_of_mod (by change addr.toNat % 4 ≠ 2; omega)) ?_)
      fun hhalf => by omega
    rw [hperform, uaePut32, hk]
    rw [pacePutLe_reported h, leBytes_whole]
    rfl
  | half hmod hctz =>
    have hpath : (perform dev s (.put32 addr value)).2 = uaePut32Split dev s addr value := by
      rw [hperform, uaePut32, hctz]
      rfl
    have hsplit : (Access.put32 addr value).Split := ⟨rfl, and_three_eq_two.mpr hmod⟩
    by_cases hblock : InBlock addr 4
    · rw [fast_agrees_iff h hmod hblock hpath]
      exact ⟨fun hsame _ => ⟨fun _ => hsame, fun hnot => absurd hblock hnot⟩, fun hm => (hm hmod).1 hblock⟩
    · have hslow := slow_agrees_iff h hodd hsplit hblock (by
        rw [hpath, uaePut32Split]
        rw [if_neg fun hfast => hblock ((fast_iff hmod).mp hfast), pacePutLe_reported h, leBytes_low]
        exact slow_reported (fun t => pacePutLe dev t (addr + 2#32) (htobe32 value >>> 16) 2) h
          (fun t ht => pacePutLe_faulted ht _ _ _)
          (fun t ht => by rw [pacePutLe_reported ht, leBytes_high]))
      rw [hslow]
      constructor
      · refine fun hnot _ => ⟨fun hin => absurd hin hblock, fun _ htorn => hnot ?_⟩
        obtain ⟨hnone, hne, hrefused⟩ := (torn_iff addr value).mp htorn
        exact ⟨rfl, hrefused, hnone, hne⟩
      · rintro hm ⟨-, hrefused, hnone, hne⟩
        exact (hm hmod).2 hblock ((torn_iff addr value).mpr ⟨hnone, hne, hrefused⟩)

theorem agrees_iff (h : s.fsr = 0) (a : Access) : Agrees dev s a ↔ Meets dev s a := by
  cases a with
  | get8 addr => exact iff_of_true (get8_agrees h addr) trivial
  | put8 addr value => exact iff_of_true (put8_agrees h addr value) trivial
  | get16 addr => exact get16_agrees_iff h addr
  | put16 addr value => exact put16_agrees_iff h addr value
  | get32 addr => exact iff_of_true (get32_agrees h addr) fun hne => absurd h hne
  | put32 addr value => exact put32_agrees_iff h addr value

theorem run_append (s : PaceState δ) (done more : List Access) :
    run dev s (done ++ more) = run dev (run dev s done) more :=
  List.foldl_append

/-- The accesses of an instruction agree with their bytes, and the first fault is reported,
exactly where every access meets its condition. -/
theorem instructionAgrees_iff (dev : Devices δ) (s : PaceState δ) (accesses : List Access) :
    InstructionAgrees dev s accesses ↔
      ∀ done a rest, accesses = done ++ a :: rest → Meets dev (run dev s done) a := by
  constructor
  · intro h done a rest hsplit
    by_cases hfsr : (run dev s done).fsr = 0
    · exact (agrees_iff hfsr a).mp (h.agrees done a rest hsplit hfsr)
    · apply (stands_iff hfsr a).mp
      have hstands := h.stands done [a] rest (by rw [hsplit]; simp) hfsr
      rwa [run_append] at hstands
  · intro h
    refine ⟨fun done a rest hsplit hfsr => (agrees_iff hfsr a).mpr (h done a rest hsplit), ?_⟩
    intro done more rest hsplit hfsr
    induction more using List.reverseRecOn generalizing rest with
    | nil => simp
    | append_singleton more a ih =>
      obtain ⟨hreport, hmem⟩ := ih (a :: rest) (by rw [hsplit]; simp)
      have hfault : (run dev s (done ++ more)).fsr ≠ 0 := by
        rw [show (run dev s (done ++ more)).fsr = (run dev s done).fsr from
          congrArg (fun f => f.2.2) hreport]
        exact hfsr
      have hstands := (stands_iff hfault a).mpr (h (done ++ more) a rest (by rw [hsplit]; simp))
      have hlast : run dev s (done ++ (more ++ [a])) = (perform dev (run dev s (done ++ more)) a).2 := by
        rw [← List.append_assoc, run_append s (done ++ more) [a]]
        rfl
      rw [hlast]
      exact ⟨hstands.1.trans hreport, hstands.2.trans hmem⟩

def noDevices : Devices Unit where
  read := fun d _ _ => (none, d)
  write := fun d _ _ => (false, d)

def readOnlySection : PaceState Unit where
  mem := ⟨⟨0, 0x8000, fun a => if a = 0x4000 then 2 else 0⟩, ⟨0, 0, fun _ => 0⟩, ()⟩
  mmu := mmuSetDomainCfg (mmuSetTTP (mmuInit (fun _ => none) true) 0x4000) 1
  priviledged := false
  fsr := 0
  lastAddr := 0
  wasWrite := false

/-- The write goes through, and no fault is reported. -/
theorem protectedWrite_disagrees :
    readOnlySection.fsr = 0 ∧
      ¬ InstructionAgrees noDevices readOnlySection [.put32 2 0x01020304] ∧
      (translate noDevices readOnlySection 2 true).1 = .error 0x0D ∧
      (run noDevices readOnlySection [.put32 2 0x01020304]).fsr = 0 ∧
      (run noDevices readOnlySection [.put32 2 0x01020304]).mem.ram.bytes 2 = 1 := by
  have hrefused : (translate noDevices readOnlySection 2 true).1 = .error 0x0D := by decide +kernel
  refine ⟨rfl, fun hagrees => ?_, hrefused, by decide +kernel, by decide +kernel⟩
  have hagree := hagrees.agrees [] (.put32 2 0x01020304) [] rfl rfl
  have hfault := hagree.fault (2, 0x0D) (by decide +kernel)
  exact absurd (congrArg (fun f => f.2.2) hfault) (by decide +kernel)

end Cloudpilot.Uarm.Pace
