import Cloudpilot.Web.SnapshotSaves

/-! # Snapshots lose no page

An invariant of the snapshot service over every order of guest writes, attempts and answers of the
database, and what a transaction has stored when it completes.
-/

namespace Cloudpilot.Web

open Library Library.TypedArray Library.LittleEndian Library.PagedArray Option

section Writes

variable {db : Database} {id : ℕ} {e : Emulator} {dirtyPages cardDirtyPages : ℕ → Byte}

theorem Keeps.mono {dirtyPages' cardDirtyPages' : ℕ → Byte}
    (h : Keeps db id e dirtyPages cardDirtyPages)
    (hmemory : ∀ p, Bitmap.marked dirtyPages p → Bitmap.marked dirtyPages' p)
    (hcard : ∀ p, Bitmap.marked cardDirtyPages p → Bitmap.marked cardDirtyPages' p) :
    Keeps db id e dirtyPages' cardDirtyPages' := by
  refine ⟨h.metadata, h.memory.mono fun p => Or.imp_right (hmemory p), ?_⟩
  intro card hmounted
  obtain ⟨r, hr, hkeeps⟩ := h.card card hmounted
  exact ⟨r, hr, hkeeps.mono fun p => Or.imp_right (hcard p)⟩

theorem Keeps.of_clear (h : Keeps db id e Bitmap.clear Bitmap.clear)
    (dirtyPages cardDirtyPages : ℕ → Byte) : Keeps db id e dirtyPages cardDirtyPages :=
  h.mono (fun p hp => absurd hp (Bitmap.not_marked_clear p))
    fun p hp => absurd hp (Bitmap.not_marked_clear p)

theorem Keeps.writeMemory (h : Keeps db id e dirtyPages cardDirtyPages) (index : ℕ) (value : Word) :
    Keeps db id (e.writeMemory index value) dirtyPages cardDirtyPages := by
  refine ⟨?_, ?_, h.card⟩
  · obtain ⟨crc32, hget⟩ := h.metadata
    refine ⟨crc32, hget.trans ?_⟩
    rw [Emulator.writeMemory, List.length_set]
  · apply h.memory.set
    · intro p hp
      exact hp.imp_left fun hmarked => Bitmap.marked_mark_of_marked hmarked _
    · exact .inl (Bitmap.marked_mark_self _ _)

theorem Keeps.writeCard (h : Keeps db id e dirtyPages cardDirtyPages) (index : ℕ) (value : Word) :
    Keeps db id (e.writeCard index value) dirtyPages cardDirtyPages := by
  refine ⟨h.metadata, h.memory, ?_⟩
  intro card hcard
  obtain ⟨card', hcard', rfl⟩ := map_eq_some_iff.mp hcard
  obtain ⟨r, hr, hkeeps⟩ := h.card card' hcard'
  refine ⟨r, hr, hkeeps.set ?_ ?_⟩
  · intro p hp
    exact hp.imp_left fun hmarked => Bitmap.marked_mark_of_marked hmarked _
  · exact .inl (Bitmap.marked_mark_self _ _)

structure Emulator.SameShape (e e' : Emulator) : Prop where
  memory : e'.memory.length = e.memory.length
  key : e'.getMountedKey = e.getMountedKey
  card : ∀ card' ∈ e'.card, ∃ card ∈ e.card, card'.data.length = card.data.length

theorem sameShape_writeMemory (e : Emulator) (index : ℕ) (value : Word) :
    e.SameShape (e.writeMemory index value) :=
  ⟨List.length_set .., rfl, fun card hcard => ⟨card, hcard, rfl⟩⟩

theorem sameShape_writeCard (e : Emulator) (index : ℕ) (value : Word) :
    e.SameShape (e.writeCard index value) := by
  refine ⟨rfl, ?_, ?_⟩
  · rw [Emulator.getMountedKey, Emulator.getMountedKey, Emulator.writeCard]
    cases e.card <;> rfl
  · intro card' hcard'
    obtain ⟨card, hcard, rfl⟩ := map_eq_some_iff.mp hcard'
    exact ⟨card, hcard, List.length_set ..⟩

theorem sameShape_of_contents {e' : Emulator} (h : e'.contents = e.contents) : e.SameShape e' := by
  refine ⟨congrArg List.length (memory_eq h), ?_, ?_⟩
  · have hmap := congrArg (Option.elim · "" Prod.fst) (card_eq h)
    rw [Emulator.getMountedKey, Emulator.getMountedKey]
    cases hcard' : e'.card <;> cases hcard : e.card <;>
      first
        | rfl
        | rw [hcard, hcard'] at hmap; exact hmap
  · intro card' hcard'
    obtain ⟨card, hcard, -, hdata⟩ := exists_card h hcard'
    exact ⟨card, hcard, congrArg List.length hdata.symm⟩

theorem Emulator.Sized.of_sameShape {e' : Emulator} (hsized : e.Sized) (h : e.SameShape e') :
    e'.Sized := by
  refine ⟨?_, ?_, ?_⟩
  · rw [h.memory]
    exact hsized.pages
  · rw [h.memory]
    exact hsized.memory
  · intro card' hcard'
    obtain ⟨card, hcard, hlength⟩ := h.card card' hcard'
    rw [hlength]
    exact hsized.card card hcard

theorem Ready.of_sameShape {service : SnapshotService} {e' : Emulator} (hready : Ready id service e)
    (h : e.SameShape e') : Ready id service e' := by
  refine ⟨hready.session, hready.initialized, ?_, hready.cardPagePool⟩
  rw [h.memory]
  exact hready.pages

end Writes

/-- The transaction that may still complete. -/
def SnapshotState.pending (s : SnapshotState) : Option Database :=
  match s.attempt with
  | some (.saved tx) => some tx
  | _ => s.committing

/-- At most one transaction is pending, and an attempt looks for the card that is mounted. -/
structure InOrder (s : SnapshotState) : Prop where
  alone : s.committing.isSome → s.attempt = none ∨ s.attempt = some .requested
  locked : ∀ storageId, s.attempt = some (.locked storageId) →
    storageId = s.emulator.getMountedKey

/-- Pages that the database does not hold are marked, and pages that a pending transaction does
not hold are marked in the emulator. -/
structure Lossless (id : ℕ) (s : SnapshotState) : Prop where
  order : InOrder s
  sized : s.emulator.Sized
  ready : Ready id s.service s.emulator
  keeps : Keeps s.db id s.emulator (bitsOf s.service.dirtyPages) (bitsOf s.service.cardDirtyPages)
  pending : ∀ tx ∈ s.pending, Keeps tx id s.emulator Bitmap.clear Bitmap.clear

section Steps

variable {integrityCheck : Bool} {id : ℕ} {s s' : SnapshotState} {tx : Database}

theorem pending_of_attempt (h : s.attempt = none ∨ s.attempt = some .requested) :
    s.pending = s.committing := by
  rw [SnapshotState.pending]
  rcases h with h | h <;> rw [h]

theorem pending_saved (h : s.attempt = some (.saved tx)) : s.pending = some tx := by
  rw [SnapshotState.pending, h]

theorem InOrder.committing (h : InOrder s) (htx : tx ∈ s.committing) : s.pending = some tx := by
  have hattempt := h.alone (by rw [htx]; rfl)
  rw [pending_of_attempt hattempt, htx]

theorem InOrder.committing_eq_none (h : InOrder s)
    (hbusy : ¬ (s.attempt = none ∨ s.attempt = some .requested)) : s.committing = none := by
  by_contra hsome
  exact hbusy (h.alone (isSome_iff_ne_none.mpr hsome))

theorem Lossless.write (h : Lossless id s) {e : Emulator} (hshape : s.emulator.SameShape e)
    (hkeeps : ∀ {db dirtyPages cardDirtyPages}, Keeps db id s.emulator dirtyPages cardDirtyPages →
      Keeps db id e dirtyPages cardDirtyPages) : Lossless id { s with emulator := e } :=
  ⟨⟨h.order.alone, fun storageId hlocked => (h.order.locked storageId hlocked).trans hshape.key.symm⟩,
    h.sized.of_sameShape hshape, h.ready.of_sameShape hshape, hkeeps h.keeps,
    fun tx htx => hkeeps (h.pending tx htx)⟩

/-- An attempt ends, or there is another one. -/
structure Settles (s s' : SnapshotState) : Prop where
  attempt : s'.attempt = none ∨ s'.attempt = some .requested
  committing : s'.committing = s.committing
  emulator : s'.emulator = s.emulator
  db : s'.db = s.db
  service : ∃ n, s'.service = { s.service with consecutiveErrorCount := n }

theorem settles_succeed (s : SnapshotState) : Settles s (succeed s) :=
  ⟨.inl rfl, rfl, rfl, rfl, 0, rfl⟩

theorem settles_failFatally (s : SnapshotState) : Settles s (failFatally s) :=
  ⟨.inl rfl, rfl, rfl, rfl, s.service.consecutiveErrorCount, rfl⟩

theorem settles_fail (s : SnapshotState) : Settles s (fail s) := by
  rw [fail]
  split_ifs
  · exact ⟨.inl rfl, rfl, rfl, rfl, _, rfl⟩
  · exact ⟨.inr rfl, rfl, rfl, rfl, _, rfl⟩

section

variable (h : Lossless id s)

include h

theorem Lossless.settle (hs : Settles s s') : Lossless id s' := by
  obtain ⟨n, hservice⟩ := hs.service
  refine ⟨⟨fun _ => hs.attempt, ?_⟩, ?_, ?_, ?_, ?_⟩
  · rcases hs.attempt with hattempt | hattempt <;>
      · grind
  · rw [hs.emulator]
    exact h.sized
  · rw [hs.emulator, hservice]
    exact ⟨h.ready.session, h.ready.initialized, h.ready.pages, h.ready.cardPagePool⟩
  · rw [hs.db, hs.emulator, hservice]
    exact h.keeps
  · intro tx htx
    rw [pending_of_attempt hs.attempt, hs.committing] at htx
    rw [hs.emulator]
    exact h.pending tx (h.order.committing htx)

theorem Lossless.complete (htx : s.pending = some tx)
    (hs : Settles { onComplete s tx with committing := none } s') : Lossless id s' := by
  apply Lossless.settle _ hs
  refine ⟨⟨fun hsome => Bool.noConfusion hsome, h.order.locked⟩, h.sized, ?_, ?_, ?_⟩
  · refine ⟨h.ready.session, fun hnone => ?_, h.ready.pages, h.ready.cardPagePool⟩
    exact congrArg (Option.map _) (h.ready.initialized hnone)
  · exact (h.pending tx htx).of_clear _ _
  · intro tx' htx'
    apply h.pending
    rw [SnapshotState.pending] at htx' ⊢
    cases hattempt : s.attempt with
    | none =>
      rw [show (onComplete s tx).attempt = none from hattempt] at htx'
      cases htx'
    | some attempt =>
      rw [show (onComplete s tx).attempt = some attempt from hattempt] at htx'
      cases attempt with
      | requested => cases htx'
      | locked storageId => cases htx'
      | saved _ => exact htx'

theorem onCardRead_lossless {storageId : String} (hlocked : s.attempt = some (.locked storageId))
    (requests : ℕ) : Lossless id (onCardRead integrityCheck s storageId requests) := by
  have hkey : storageId = s.emulator.getMountedKey := h.order.locked storageId hlocked
  have hnone : s.committing = none := h.order.committing_eq_none (by rw [hlocked]; simp)
  rw [onCardRead, h.ready.session, hkey]
  dsimp only
  split_ifs with hsuspended hsession
  · exact h.settle (settles_succeed s)
  · exact h.settle (settles_failFatally s)
  have hsaves := saveAll_ensures integrityCheck s.ownership requests s.fatalError
    h.sized h.keeps h.ready
  split
  · next c hc =>
    obtain ⟨hsafe, -, himages⟩ := hsaves.of_ok hc
    have hshape := sameShape_of_contents hsafe.contents
    refine ⟨⟨fun hsome => ?_, fun storageId hsaved => ?_⟩, h.sized.of_sameShape hshape, hsafe.ready,
      hsafe.keeps, ?_⟩
    · grind
    · cases hsaved
    · rintro tx htx
      cases htx
      exact himages.keeps hsafe.contents _ _
  · next c hc =>
    have hsafe := hsaves.of_error hc
    have hshape := sameShape_of_contents hsafe.contents
    apply Lossless.settle _ (settles_fail _)
    refine ⟨⟨fun hsome => ?_, fun storageId hattempt => ?_⟩, h.sized.of_sameShape hshape,
      hsafe.ready, hsafe.keeps, ?_⟩
    · grind
    · exact (h.order.locked storageId hattempt).trans hshape.key.symm
    · grind [SnapshotState.pending]

theorem triggerSnapshot_lossless : Lossless id (triggerSnapshot s) := by
  rw [triggerSnapshot]
  split_ifs with hskip hbusy
  · exact h
  · exact h
  · exact h.settle ⟨.inr rfl, rfl, rfl, rfl, s.service.consecutiveErrorCount, rfl⟩

theorem snapshotStep_lossless {event : SnapshotEvent}
    (hstep : snapshotStep integrityCheck s event = some s') : Lossless id s' := by
  cases event with
  | writeMemory index value =>
    cases hstep
    exact h.write (sameShape_writeMemory _ _ _) fun hkeeps => hkeeps.writeMemory index value
  | writeCard index value =>
    cases hstep
    exact h.write (sameShape_writeCard _ _ _) fun hkeeps => hkeeps.writeCard index value
  | setSuspended suspended =>
    cases hstep
    exact h.write ⟨rfl, rfl, fun card hcard => ⟨card, hcard, rfl⟩⟩
      fun hkeeps => ⟨hkeeps.metadata, hkeeps.memory, hkeeps.card⟩
  | setSavestate savestate =>
    cases hstep
    exact h.write ⟨rfl, rfl, fun card hcard => ⟨card, hcard, rfl⟩⟩
      fun hkeeps => ⟨hkeeps.metadata, hkeeps.memory, hkeeps.card⟩
  | trigger =>
    cases hstep
    exact triggerSnapshot_lossless h
  | lockAcquired =>
    rw [snapshotStep] at hstep
    split at hstep <;> cases hstep
    next hrequested hnone =>
    refine ⟨⟨fun hsome => ?_, ?_⟩, h.sized, h.ready, h.keeps, ?_⟩
    · grind
    · simp
    · intro tx htx
      exact h.pending tx ((pending_of_attempt (.inr hrequested)).trans htx)
  | lockLost =>
    rw [snapshotStep] at hstep
    split at hstep <;> cases hstep
    exact h.settle (settles_failFatally s)
  | requestFailed =>
    rw [snapshotStep] at hstep
    split at hstep <;> cases hstep
    · exact h.settle (settles_fail s)
    · exact h.settle (settles_fail s)
  | cardRead requests =>
    rw [snapshotStep] at hstep
    split at hstep <;> cases hstep
    next hlocked => exact onCardRead_lossless h hlocked requests
  | completed =>
    rw [snapshotStep] at hstep
    split at hstep <;> cases hstep
    next tx hsaved =>
    have hnone : s.committing = none := h.order.committing_eq_none (by rw [hsaved]; simp)
    exact h.complete (pending_saved hsaved) ⟨.inl rfl, hnone, rfl, rfl, 0, rfl⟩
  | failed =>
    rw [snapshotStep] at hstep
    split at hstep <;> cases hstep
    exact h.settle (settles_fail s)
  | timedOut committing =>
    rw [snapshotStep] at hstep
    split at hstep <;> cases hstep
    next tx hsaved =>
    cases committing with
    | false => exact h.settle (settles_fail s)
    | true =>
      have hlate : Lossless id { s with attempt := none, committing := some tx } := by
        refine ⟨⟨fun _ => .inl rfl, fun storageId hlocked => ?_⟩, h.sized, h.ready, h.keeps, ?_⟩
        · cases hlocked
        · rintro tx' htx'
          cases htx'
          exact h.pending tx (pending_saved hsaved)
      have hs := settles_fail { s with committing := some tx }
      exact hlate.settle ⟨hs.attempt, hs.committing, hs.emulator, hs.db, hs.service⟩
  | lateCompleted =>
    rw [snapshotStep] at hstep
    split at hstep <;> cases hstep
    next tx hcommitting =>
    have hattempt := h.order.alone (by rw [hcommitting]; rfl)
    exact h.complete (h.order.committing hcommitting)
      ⟨hattempt, rfl, rfl, rfl, s.service.consecutiveErrorCount, rfl⟩
  | lateFailed =>
    rw [snapshotStep] at hstep
    split at hstep <;> cases hstep
    next tx hcommitting =>
    have hattempt := h.order.alone (by rw [hcommitting]; rfl)
    refine ⟨⟨fun hsome => Bool.noConfusion hsome, h.order.locked⟩, h.sized, h.ready, h.keeps, ?_⟩
    intro tx' htx'
    rw [pending_of_attempt (s := { s with committing := none }) hattempt] at htx'
    cases htx'

theorem snapshotRun_lossless {events : List SnapshotEvent}
    (hrun : snapshotRun integrityCheck s events = some s') : Lossless id s' := by
  induction events generalizing s with
  | nil =>
    cases hrun
    exact h
  | cons event events ih =>
    obtain ⟨s₁, hstep, hrest⟩ := bind_eq_some_iff.mp hrun
    exact ih (snapshotStep_lossless h hstep) hrest

end

theorem Settles.pending (hs : Settles s s') (h : InOrder s) :
    s'.pending = s.pending ∨ s'.pending = none := by
  rw [pending_of_attempt hs.attempt, hs.committing]
  cases hcommitting : s.committing with
  | none => exact .inr rfl
  | some tx => exact .inl (h.committing hcommitting).symm

theorem snapshotStep_pending (h : InOrder s) {event : SnapshotEvent}
    (hevent : ∀ requests, event ≠ .cardRead requests)
    (hstep : snapshotStep integrityCheck s event = some s') :
    s'.pending = s.pending ∨ s'.pending = none := by
  cases event with
  | writeMemory index value => cases hstep; exact .inl rfl
  | writeCard index value => cases hstep; exact .inl rfl
  | setSuspended suspended => cases hstep; exact .inl rfl
  | setSavestate savestate => cases hstep; exact .inl rfl
  | trigger =>
    cases hstep
    rw [triggerSnapshot]
    split_ifs with hskip hbusy
    · simp
    · simp
    · exact Settles.pending ⟨.inr rfl, rfl, rfl, rfl, s.service.consecutiveErrorCount, rfl⟩ h
  | lockAcquired =>
    rw [snapshotStep] at hstep
    split at hstep <;> cases hstep
    next hnone => exact .inr hnone
  | lockLost =>
    rw [snapshotStep] at hstep
    split at hstep <;> cases hstep
    exact (settles_failFatally s).pending h
  | requestFailed =>
    rw [snapshotStep] at hstep
    split at hstep <;> cases hstep
    · exact (settles_fail s).pending h
    · exact (settles_fail s).pending h
  | cardRead requests => exact absurd rfl (hevent requests)
  | completed =>
    rw [snapshotStep] at hstep
    split at hstep <;> cases hstep
    next tx hsaved => exact .inr (h.committing_eq_none (by rw [hsaved]; simp))
  | failed =>
    rw [snapshotStep] at hstep
    split at hstep <;> cases hstep
    exact (settles_fail s).pending h
  | timedOut committing =>
    rw [snapshotStep] at hstep
    split at hstep <;> cases hstep
    next tx hsaved =>
    cases committing with
    | false => exact (settles_fail s).pending h
    | true =>
      have hs := settles_fail { s with committing := some tx }
      left
      exact (pending_of_attempt hs.attempt).trans (hs.committing.trans (pending_saved hsaved).symm)
  | lateCompleted =>
    rw [snapshotStep] at hstep
    split at hstep <;> cases hstep
    next tx hcommitting =>
    exact .inr (pending_of_attempt (s := { onComplete s tx with committing := none })
      (h.alone (by rw [hcommitting]; rfl)))
  | lateFailed =>
    rw [snapshotStep] at hstep
    split at hstep <;> cases hstep
    next tx hcommitting =>
    exact .inr (pending_of_attempt (s := { s with committing := none })
      (h.alone (by rw [hcommitting]; rfl)))

theorem snapshotRun_pending (h : Lossless id s) {events : List SnapshotEvent}
    (hevents : ∀ event ∈ events, ∀ requests, event ≠ .cardRead requests)
    (hrun : snapshotRun integrityCheck s events = some s') :
    s'.pending = s.pending ∨ s'.pending = none := by
  induction events generalizing s with
  | nil =>
    cases hrun
    exact .inl rfl
  | cons event events ih =>
    obtain ⟨s₁, hstep, hrest⟩ := bind_eq_some_iff.mp hrun
    have hlossless := snapshotStep_lossless h hstep
    rcases ih hlossless (fun e he => hevents e (List.mem_cons_of_mem _ he)) hrest with hsame | hnone
    · rcases snapshotStep_pending h.order (hevents event List.mem_cons_self) hstep with hstart | hgone
      all_goals
        grind
    · grind

def Completes (event : SnapshotEvent) : Prop := event = .completed ∨ event = .lateCompleted

theorem snapshotStep_completes (h : InOrder s) {event : SnapshotEvent} (hevent : Completes event)
    (hstep : snapshotStep integrityCheck s event = some s') : s.pending = some s'.db := by
  rcases hevent with rfl | rfl
  · rw [snapshotStep] at hstep
    split at hstep <;> cases hstep
    next tx hsaved => exact pending_saved hsaved
  · rw [snapshotStep] at hstep
    split at hstep <;> cases hstep
    next tx hcommitting => exact h.committing hcommitting

theorem cardRead_images (h : Lossless id s) {requests : ℕ}
    (hstep : snapshotStep integrityCheck s (.cardRead requests) = some s')
    (hsaved : s'.attempt = some (.saved tx)) : Images tx id s.ownership s.emulator := by
  rw [snapshotStep] at hstep
  split at hstep <;> cases hstep
  next storageId hlocked =>
  rw [onCardRead, h.ready.session, h.order.locked storageId hlocked] at hsaved
  dsimp only at hsaved
  split_ifs at hsaved with hsuspended hsession
  · cases hsaved
  · cases hsaved
  have hsaves := saveAll_ensures integrityCheck s.ownership requests s.fatalError
    h.sized h.keeps h.ready
  split at hsaved
  · next c hc =>
    obtain ⟨-, -, himages⟩ := hsaves.of_ok hc
    cases hsaved
    exact himages
  · next c hc =>
    rcases (settles_fail { s with
        service := c.service
        emulator := c.emulator
        fatalError := c.fatalError }).attempt with hattempt | hattempt <;>
      · grind

end Steps

open Library Library.TypedArray Library.LittleEndian Library.PagedArray

section Load

variable {db : Database} {id : ℕ} {ownership : Ownership} {owner : CardOwner} {a target : List Word}
  {marks : ℕ → Prop}

theorem PageFormat.Keeps.load {f : PageFormat} {store : ObjectStore Key StoredPage}
    (h : f.Keeps store id a marks) :
    ∃ image, (pagesOf store id).foldlM f.load (List.replicate a.length 0#32) = some image ∧
      image.length = a.length ∧ Covered (fun p => page f.size p image) (fun p => page f.size p a) marks := by
  obtain ⟨image, himage, hlength, hpages⟩ := h.sound.load
  refine ⟨image, himage, hlength, ?_⟩
  intro p hp
  apply h.covered p
  rwa [← hpages p]

theorem loadMemory_ok {debug checkCrc : Bool} {crc32 : Option Word} (hsize : 4 * a.length < 2 ^ 32)
    (hget : db.memoryMeta.get id = some ⟨id, 4 * a.length, crc32⟩) {image : List Word}
    (hload : (pagesOf db.memory id).foldlM memoryFormat.load (List.replicate a.length 0#32) =
      some image)
    (hcrc : checkCrc = true → ∀ w ∈ crc32, w = Common.Crc.crc32 (image.flatMap word)) :
    loadMemory debug db id checkCrc = .ok (some (image.flatMap word)) := by
  have hwords : ushr (4 * a.length) 2 = a.length := by
    rw [ushr_of_lt hsize]
    omega
  rw [loadMemory, hget]
  dsimp only
  rw [hwords, show loadMemoryPage = memoryFormat.load from rfl, hload]
  dsimp only
  rw [if_neg]
  rintro ⟨hsome, hcheck, -, hne⟩
  obtain ⟨w, rfl⟩ := Option.isSome_iff_exists.mp hsome
  exact hne (congrArg some (hcrc hcheck w rfl))

theorem loadCardData_ok (howner : ownership id = owner) (htarget : target.length = a.length)
    {image : List Word}
    (hload : (pagesOf db.storage id).foldlM cardFormat.load (List.replicate a.length 0#32) =
      some image) : loadCardData ownership db id target owner = .ok image := by
  rw [loadCardData, assertOwnership, if_pos howner, htarget,
    show loadCardPage = cardFormat.load from rfl]
  simp only [bind, Except.bind]
  rw [hload]

end Load

/-- A page of the memory or the card that is not what the database has is marked in the emulator
or in the service. -/
def LosesNoPage (id : ℕ) (s : SnapshotState) : Prop :=
  (∃ image, (∀ debug, loadMemory debug s.db id false = .ok (some (image.flatMap word))) ∧
      image.length = s.emulator.memory.length ∧
      ∀ p, page 256 p image ≠ page 256 p s.emulator.memory →
        Bitmap.marked s.emulator.dirtyPages p ∨ Bitmap.marked (bitsOf s.service.dirtyPages) p) ∧
    ∀ card ∈ s.emulator.card, ∃ r, s.db.cardOf card.key = some r ∧
      ∃ image, (∀ ownership owner target, ownership r.id = owner →
          target.length = card.data.length →
            loadCardData ownership s.db r.id target owner = .ok image) ∧
        image.length = card.data.length ∧
        ∀ p, page 2048 p image ≠ page 2048 p card.data →
          Bitmap.marked card.dirtyPages p ∨ Bitmap.marked (bitsOf s.service.cardDirtyPages) p

def Loads (db : Database) (id : ℕ) (ownership : Ownership) (e : Emulator) : Prop :=
  (∀ debug checkCrc, loadMemory debug db id checkCrc = .ok (some (e.memory.flatMap word))) ∧
    ∀ card ∈ e.card, ∃ r, db.cardOf card.key = some r ∧
      ∀ target, target.length = card.data.length →
        loadCardData ownership db r.id target .cloudpilot = .ok card.data

section Stored

variable {db : Database} {integrityCheck : Bool} {id : ℕ} {s : SnapshotState} {e : Emulator}
  {ownership : Ownership}

theorem Lossless.losesNoPage (h : Lossless id s) : LosesNoPage id s := by
  constructor
  · obtain ⟨image, hload, hlength, hcovered⟩ := h.keeps.memory.load
    obtain ⟨crc32, hget⟩ := h.keeps.metadata
    exact ⟨image, fun debug => loadMemory_ok h.sized.memory hget hload Bool.noConfusion, hlength,
      hcovered⟩
  · intro card hcard
    obtain ⟨r, hr, hkeeps⟩ := h.keeps.card card hcard
    obtain ⟨image, hload, hlength, hcovered⟩ := hkeeps.load
    exact ⟨r, hr, image, fun ownership owner target howner htarget =>
      loadCardData_ok howner htarget hload, hlength, hcovered⟩

theorem Images.loads (h : Images db id ownership e) (hsized : e.Sized) :
    Loads db id ownership e := by
  constructor
  · intro debug checkCrc
    obtain ⟨crc32, hget, hcrc⟩ := h.metadata.get
    exact loadMemory_ok hsized.memory hget h.memory.load fun _ => hcrc
  · intro card hcard
    obtain ⟨r, hr, howner, hholds⟩ := h.card card hcard
    exact ⟨r, hr, fun target htarget => loadCardData_ok howner htarget hholds.load⟩

/-- The service has been initialized, and the database holds what the emulator does. -/
structure SnapshotStart (id : ℕ) (s : SnapshotState) : Prop where
  service : ∃ n, s.service = ⟨some id, none, none, none, [], none, n⟩
  attempt : s.attempt = none
  committing : s.committing = none
  sized : s.emulator.Sized
  metadata : ∃ crc32, s.db.memoryMeta.get id = some ⟨id, 4 * s.emulator.memory.length, crc32⟩
  memory : memoryFormat.Holds s.db.memory id s.emulator.memory
  card : ∀ card ∈ s.emulator.card, ∃ r, s.db.cardOf card.key = some r ∧
    cardFormat.Holds s.db.storage r.id card.data

theorem SnapshotStart.lossless (h : SnapshotStart id s) : Lossless id s := by
  obtain ⟨n, hservice⟩ := h.service
  refine ⟨⟨fun _ => .inl h.attempt, fun storageId hlocked => ?_⟩, h.sized, ?_, ?_, ?_⟩
  · grind [h.attempt]
  · rw [hservice]
    exact ⟨rfl, fun _ => rfl, fun pool hpool => (by cases hpool), Nat.zero_le _,
      fun buffer hbuffer => absurd hbuffer List.not_mem_nil⟩
  · refine ⟨h.metadata, h.memory.keeps _, ?_⟩
    intro card hcard
    obtain ⟨r, hr, hholds⟩ := h.card card hcard
    exact ⟨r, hr, hholds.keeps _⟩
  · intro tx htx
    rw [pending_of_attempt (.inl h.attempt), h.committing] at htx
    cases htx

end Stored

/-- Snapshots lose no page, and a transaction that completes has stored the memory and the card
as they were when its pages were put. -/
theorem snapshots_lose_no_page {integrityCheck : Bool} {id : ℕ} {s₀ s : SnapshotState}
    {events : List SnapshotEvent} (hstart : SnapshotStart id s₀)
    (hrun : snapshotRun integrityCheck s₀ events = some s) :
    LosesNoPage id s ∧
      ∀ requests s₁ tx later s₂ event s₃,
        snapshotStep integrityCheck s (.cardRead requests) = some s₁ →
        s₁.attempt = some (.saved tx) →
        (∀ event ∈ later, ∀ requests, event ≠ .cardRead requests) →
        snapshotRun integrityCheck s₁ later = some s₂ →
        Completes event → snapshotStep integrityCheck s₂ event = some s₃ →
        Loads s₃.db id s.ownership s.emulator := by
  have hlossless := snapshotRun_lossless hstart.lossless hrun
  refine ⟨hlossless.losesNoPage, ?_⟩
  intro requests s₁ tx later s₂ event s₃ hcardRead hsaved hlater hlaterRun hcompletes hcomplete
  have hsaving := snapshotStep_lossless hlossless hcardRead
  have hcompleted :=
    snapshotStep_completes (snapshotRun_lossless hsaving hlaterRun).order hcompletes hcomplete
  have htx : s₃.db = tx := by
    rcases snapshotRun_pending hsaving hlater hlaterRun with hsame | hnone
    · rw [hsame, pending_saved hsaved] at hcompleted
      exact (Option.some.inj hcompleted).symm
    · grind
  rw [htx]
  exact (cardRead_images hlossless hcardRead hsaved).loads hlossless.sized

/-- A session with a card, behind `initialize`. -/
def freshSnapshot (memory data : List Word) : SnapshotState where
  service := ⟨some 1, none, none, none, [], none, 0⟩
  emulator := ⟨memory, Bitmap.clear, some ⟨"a", data, Bitmap.clear⟩, false, none⟩
  db := { emptyDatabase with
    memoryMeta := ObjectStore.empty.put ⟨1, 1024, none⟩ 1
    storageCard := ObjectStore.empty.put smallCard 0 }
  ownership := fun _ => .cloudpilot
  currentSession := some 1
  fatalError := false
  attempt := none
  committing := none

def lockedSnapshot (memory data : List Word) : SnapshotState :=
  { freshSnapshot memory data with
    emulator := (freshSnapshot memory data).emulator.writeMemory 5 7#32
    attempt := some (.locked "a") }

theorem freshSnapshot_start {memory data : List Word} (hmemory : memory.length = 256)
    (hdata : data.length = 128) (hpages : memoryFormat.Holds ObjectStore.empty 1 memory)
    (hcard : cardFormat.Holds ObjectStore.empty 0 data) :
    SnapshotStart 1 (freshSnapshot memory data) := by
  refine ⟨⟨0, rfl⟩, rfl, rfl, ⟨?_, ?_, ?_⟩, ⟨none, ?_⟩, hpages, ?_⟩
  · exact congrArg (· % 256) hmemory
  · rw [freshSnapshot, hmemory]
    decide
  · rintro card hmounted
    cases hmounted
    rw [hdata]
    decide
  · rw [freshSnapshot, hmemory]
    rfl
  · rintro card hmounted
    cases hmounted
    exact ⟨smallCard, rfl, hcard⟩

theorem lockedSnapshot_run (memory data : List Word) :
    snapshotRun true (freshSnapshot memory data) [.writeMemory 5 7#32, .trigger, .lockAcquired] =
      some (lockedSnapshot memory data) := rfl

theorem lockedSnapshot_loses_no_page :
    LosesNoPage 1 (lockedSnapshot (List.replicate 256 0#32) (List.replicate 128 0#32)) ∧
      ∀ requests s₁ tx later s₂ event s₃,
        snapshotStep true (lockedSnapshot (List.replicate 256 0#32) (List.replicate 128 0#32))
          (.cardRead requests) = some s₁ →
        s₁.attempt = some (.saved tx) →
        (∀ event ∈ later, ∀ requests, event ≠ .cardRead requests) →
        snapshotRun true s₁ later = some s₂ →
        Completes event → snapshotStep true s₂ event = some s₃ →
        Loads s₃.db 1
          (lockedSnapshot (List.replicate 256 0#32) (List.replicate 128 0#32)).ownership
          (lockedSnapshot (List.replicate 256 0#32) (List.replicate 128 0#32)).emulator :=
  snapshots_lose_no_page (freshSnapshot_start List.length_replicate List.length_replicate
    (PageFormat.holds_zeros 1 256) (PageFormat.holds_zeros 0 128)) (lockedSnapshot_run _ _)

end Cloudpilot.Web
