import Cloudpilot.Emulator.SessionImage

/-! # Parsing untrusted session images

The sizes in the header of an image are added as `size_t` and compared with the size of
the buffer. The ranges of an accepted image tile the buffer exactly when that sum does
not wrap, which a 32 bit `size_t` does not exclude. A rejected image leaves the sizes
of its header beside the pointers the object had before.
-/
namespace Cloudpilot.Emulator
open Library.LittleEndian Nat

variable {w : ℕ} {uncompress : Uncompress} {image : SessionImage w} {heap : Heap}
  {bytes : List Byte}

/-- Two objects with the same pointers and sizes. -/
structure SamePairs (a b : SessionImage w) : Prop where
  metadata : a.metadata = b.metadata ∧ a.metadataSize = b.metadataSize
  romImage : a.romImage = b.romImage ∧ a.romSize = b.romSize
  ramImage : a.ramImage = b.ramImage ∧ a.ramSize = b.ramSize
  savestate : a.savestate = b.savestate ∧ a.savestateSize = b.savestateSize

theorem SamePairs.inBuffers_iff {a b : SessionImage w} (h : SamePairs a b) :
    a.InBuffers heap ↔ b.InBuffers heap := by
  obtain ⟨⟨hm, hms⟩, ⟨hr, hrs⟩, ⟨ha, has⟩, ⟨hs, hss⟩⟩ := h
  constructor
  all_goals
    rintro ⟨h1, h2, h3, h4⟩
    exact ⟨hm ▸ hms ▸ h1, hr ▸ hrs ▸ h2, ha ▸ has ▸ h3, hs ▸ hss ▸ h4⟩

theorem toNat_setWidth_of_le (hw : 32 ≤ w) (v : BitVec 32) : (v.setWidth w).toNat = v.toNat := by
  rw [BitVec.toNat_setWidth]
  exact Nat.mod_eq_of_lt (lt_of_lt_of_le v.isLt (Nat.pow_le_pow_right (by norm_num) hw))

theorem placed_rangeAt {buffer : Buffer} {offset offset' : ℕ} {size : BitVec w}
    (he : offset = offset') : Placed (rangeAt buffer offset size) size buffer offset' := by
  intro h
  rw [← he]
  exact if_pos (pos_of_ne_zero h)

theorem size_eq_sum_iff (hw : 32 ≤ w) {size headerSize : ℕ} (hsize : size < 2 ^ w)
    (a b c d e : BitVec 32) :
    BitVec.ofNat w size = BitVec.ofNat w headerSize + a.setWidth w + b.setWidth w +
        c.setWidth w + d.setWidth w + e.setWidth w ↔
      (headerSize + a.toNat + b.toNat + c.toNat + d.toNat + e.toNat) % 2 ^ w = size := by
  rw [← BitVec.toNat_inj]
  simp [BitVec.toNat_ofNat, toNat_setWidth_of_le hw, mod_eq_of_lt hsize]
  exact eq_comm

theorem add_mod_eq_iff {n m p : ℕ} (k : ℕ) (h : p + n < k) :
    (p + m) % k = p + n ↔ m % k = n := by
  rw [← mod_eq_of_lt h]
  constructor
  · intro hmod
    have hcancel : m % k = n % k := Nat.ModEq.add_left_cancel' p hmod
    rw [hcancel, mod_eq_of_lt (by omega)]
  · intro hmod
    apply Nat.ModEq.add_left p
    rw [Nat.ModEq, hmod, mod_eq_of_lt (by omega)]

theorem tiles_iff {h : Header} (hacc : h.Accepted w) (hsize : h.size < 2 ^ w)
    (hm : Placed image.metadata image.metadataSize h.buffer (h.headerSize + h.nameSize.toNat))
    (hr : Placed image.romImage image.romSize h.buffer
      (h.headerSize + h.nameSize.toNat + image.metadataSize.toNat))
    (ha : Placed image.ramImage image.ramSize h.buffer
      (h.headerSize + h.nameSize.toNat + image.metadataSize.toNat + image.romSize.toNat))
    (hs : Placed image.savestate image.savestateSize h.buffer
      (h.headerSize + h.nameSize.toNat + image.metadataSize.toNat + image.romSize.toNat +
        image.ramSize.toNat))
    (htotal : h.headerSize + h.nameSize.toNat + image.metadataSize.toNat + image.romSize.toNat +
      image.ramSize.toNat + image.savestateSize.toNat = h.total) :
    image.Tiles h ↔ h.total < 2 ^ w := by
  constructor
  · intro htiles
    rwa [← htotal, htiles.covers]
  · intro hlt
    refine ⟨hm, hr, ha, hs, ?_⟩
    rw [htotal, ← hacc.1, mod_eq_of_lt hlt]

/-- The body of `Deserialize`, for the header it reads. -/
inductive BodyResult (image : SessionImage w) (heap : Heap) (header : Option Header) :
    Bool × SessionImage w × Heap → Prop
  | noHeader (h : header = none) : BodyResult image heap header (false, image, heap)
  | rejected {h : Header} {image' : SessionImage w} (hh : header = some h)
      (hacc : ¬ h.Accepted w) (hsame : SamePairs image' (image.setSizes h)) :
      BodyResult image heap header (false, image', heap)
  | accepted {h : Header} {image' : SessionImage w} (hh : header = some h)
      (hacc : h.Accepted w) (htiles : image'.Tiles h ↔ h.total < 2 ^ w) (hothers : h.others ≠ none) :
      BodyResult image heap header (true, image', heap)

theorem deserializeBody_result (hw : 32 ≤ w) {buffer : Buffer} {offset : ℕ}
    (hlen : offset + bytes.length < 2 ^ w) :
    BodyResult image heap (scanBody image.version buffer offset bytes)
      (deserializeBody image heap buffer offset bytes) := by
  rw [deserializeBody, scanBody]
  by_cases hshort : bytes.length < headerSizeOf image.version
  · simp only [hshort, if_true]
    exact .noHeader rfl
  simp only [hshort, if_false]
  set saved := wordAt bytes (if hasFramebufferSize image.version then 20 else 16)
  set h : Header := ⟨buffer, offset + bytes.length, offset + headerSizeOf image.version,
    wordAt bytes 0, wordAt bytes 8, wordAt bytes 12, some (wordAt bytes 4, saved)⟩ with hh
  have htotal : h.total = offset + (headerSizeOf image.version + (wordAt bytes 0).toNat +
      (wordAt bytes 4).toNat + (wordAt bytes 8).toNat + (wordAt bytes 12).toNat +
      saved.toNat) := by
    simp [hh, Header.total, Header.metadataSize, Header.savestateSize]
    omega
  have hacc : h.Accepted w ↔ ¬ (BitVec.ofNat w bytes.length ≠
      BitVec.ofNat w (headerSizeOf image.version) + (wordAt bytes 0).setWidth w +
        (wordAt bytes 4).setWidth w + (wordAt bytes 8).setWidth w + (wordAt bytes 12).setWidth w +
        saved.setWidth w ∨ 16 < ((wordAt bytes 0).setWidth w).toNat) := by
    rw [ne_eq, size_eq_sum_iff hw (by omega), toNat_setWidth_of_le hw, Header.Accepted, htotal,
      add_mod_eq_iff _ hlen]
    simp [hh, not_or]
  by_cases hc : h.Accepted w
  · rw [if_neg (hacc.mp hc)]
    have hname : ((wordAt bytes 0).setWidth w).toNat = h.nameSize.toNat :=
      toNat_setWidth_of_le hw _
    refine .accepted rfl hc (tiles_iff hc hlen ?_ ?_ ?_ ?_ ?_) (by simp [hh])
    · exact placed_rangeAt (by rw [hname])
    · exact placed_rangeAt (by rw [hname])
    · exact placed_rangeAt (by rw [hname])
    · exact placed_rangeAt (by rw [hname])
    · rw [htotal, toNat_setWidth_of_le hw, toNat_setWidth_of_le hw, toNat_setWidth_of_le hw,
        toNat_setWidth_of_le hw]
      simp only [hh]
      omega
  · rw [if_pos (not_not.mp (fun hn => hc (hacc.mpr hn)))]
    exact .rejected rfl hc ⟨⟨rfl, rfl⟩, ⟨rfl, rfl⟩, ⟨rfl, rfl⟩, ⟨rfl, rfl⟩⟩

theorem size_eq_legacySum_iff (hw : 32 ≤ w) {size : ℕ} (hsize : size < 2 ^ w)
    (a b c : BitVec 32) :
    BitVec.ofNat w size = 16 + a.setWidth w + b.setWidth w + c.setWidth w ↔
      (16 + a.toNat + b.toNat + c.toNat) % 2 ^ w = size := by
  have h16 : (16 : BitVec w) = BitVec.ofNat w 16 := rfl
  rw [← BitVec.toNat_inj, h16]
  simp [BitVec.toNat_ofNat, toNat_setWidth_of_le hw, mod_eq_of_lt hsize]
  exact eq_comm

/-- A legacy image. The metadata and the savestate of the object stay as they were. -/
inductive LegacyResult (image : SessionImage w) (heap : Heap) (h : Header) :
    Bool × SessionImage w × Heap → Prop
  | rejected {image' : SessionImage w} (hacc : ¬ h.Accepted w)
      (hsame : SamePairs image' (image.setSizes h)) : LegacyResult image heap h (false, image', heap)
  | accepted {image' : SessionImage w} (hacc : h.Accepted w)
      (htiles : image'.Tiles h ↔ h.total < 2 ^ w ∧ image.metadataSize = 0 ∧
        image.savestateSize = 0) : LegacyResult image heap h (true, image', heap)

theorem toNat_eq_zero_iff {n : BitVec w} : n.toNat = 0 ↔ n = 0 := by
  rw [← BitVec.toNat_inj]
  simp

theorem deserializeLegacyImage_result (hw : 32 ≤ w) (hlen : bytes.length < 2 ^ w) :
    LegacyResult image heap
      ⟨.input, bytes.length, 16, wordAt bytes 4, wordAt bytes 8, wordAt bytes 12, none⟩
      (deserializeLegacyImage image heap bytes) := by
  set h : Header :=
    ⟨.input, bytes.length, 16, wordAt bytes 4, wordAt bytes 8, wordAt bytes 12, none⟩ with hh
  have htotal : h.total = 16 + (wordAt bytes 4).toNat + (wordAt bytes 8).toNat +
      (wordAt bytes 12).toNat := by rfl
  have hacc : h.Accepted w ↔ BitVec.ofNat w bytes.length = 16 + (wordAt bytes 4).setWidth w +
      (wordAt bytes 8).setWidth w + (wordAt bytes 12).setWidth w := by
    rw [size_eq_legacySum_iff hw hlen, Header.Accepted, htotal]
    simp [hh]
  rw [deserializeLegacyImage]
  by_cases hc : h.Accepted w
  · rw [if_neg (not_not.mpr (hacc.mp hc))]
    refine .accepted hc ⟨?_, ?_⟩
    · rintro ⟨-, -, -, -, hcovers⟩
      have hle := mod_le h.total (2 ^ w)
      have hmod : h.total % 2 ^ w = bytes.length := hc.1
      simp only [hh, toNat_setWidth_of_le hw] at hcovers
      rw [← toNat_eq_zero_iff, ← toNat_eq_zero_iff]
      omega
    · rintro ⟨hlt, hm, hs⟩
      have hname : ((wordAt bytes 4).setWidth w).toNat = h.nameSize.toNat :=
        toNat_setWidth_of_le hw _
      have hm0 : image.metadataSize.toNat = 0 := toNat_eq_zero_iff.mpr hm
      have hs0 : image.savestateSize.toNat = 0 := toNat_eq_zero_iff.mpr hs
      refine (tiles_iff hc hlen ?_ ?_ ?_ ?_ ?_).mpr hlt
      · exact fun hne => absurd hm0 hne
      · exact placed_rangeAt (by rw [hname, hm0, add_zero])
      · exact placed_rangeAt (by rw [hname, hm0, add_zero])
      · exact fun hne => absurd hs0 hne
      · rw [htotal, hm0, hs0, toNat_setWidth_of_le hw, toNat_setWidth_of_le hw]
        simp [hh]
  · rw [if_pos (fun e => hc (hacc.mpr e))]
    exact .rejected hc ⟨⟨rfl, rfl⟩, ⟨rfl, rfl⟩, ⟨rfl, rfl⟩, ⟨rfl, rfl⟩⟩

theorem scan_legacy (h : IsLegacy bytes) : scan uncompress bytes =
    some ⟨.input, bytes.length, 16, wordAt bytes 4, wordAt bytes 8, wordAt bytes 12, none⟩ :=
  if_pos h

theorem SamePairs.rfl {a : SessionImage w} : SamePairs a a :=
  ⟨⟨Eq.refl _, Eq.refl _⟩, ⟨Eq.refl _, Eq.refl _⟩, ⟨Eq.refl _, Eq.refl _⟩, ⟨Eq.refl _, Eq.refl _⟩⟩

/-- The object after its version was read. -/
def SessionImage.setVersion (image : SessionImage w) (version : BitVec 32) : SessionImage w :=
  { image with version := version }

theorem samePairs_setVersion (version : BitVec 32) : SamePairs (image.setVersion version) image :=
  ⟨⟨rfl, rfl⟩, ⟨rfl, rfl⟩, ⟨rfl, rfl⟩, ⟨rfl, rfl⟩⟩

theorem samePairs_setSizes_setVersion (version : BitVec 32) (h : Header) :
    SamePairs ((image.setVersion version).setSizes h) (image.setSizes h) :=
  ⟨⟨rfl, rfl⟩, ⟨rfl, rfl⟩, ⟨rfl, rfl⟩, ⟨rfl, rfl⟩⟩

section Paths

theorem deserialize_unreadable (hl : ¬ IsLegacy bytes) (hv : ¬ IsVersioned bytes) :
    ∃ image', deserialize uncompress image heap bytes = (false, image', heap) ∧
      SamePairs image' image := by
  rw [deserialize]
  by_cases hsize : bytes.length < 16
  · exact ⟨image, by rw [if_pos hsize], .rfl⟩
  rw [if_neg hsize]
  by_cases hmagic : wordAt bytes 0 = magic
  swap
  · exact ⟨image, by rw [if_pos hmagic], .rfl⟩
  rw [if_neg (not_not.mpr hmagic)]
  by_cases hlegacy : wordAt bytes 4 &&& versionMask = 0
  · exact absurd ⟨Nat.le_of_not_lt hsize, hmagic, hlegacy⟩ hl
  by_cases hversion : versionLatest < versionOf bytes
  · refine ⟨image.setVersion (versionOf bytes), ?_, samePairs_setVersion _⟩
    simp only [hlegacy, if_false]
    exact if_pos hversion
  · exact absurd ⟨Nat.le_of_not_lt hsize, hmagic, hlegacy, hversion⟩ hv

theorem deserialize_legacy (h : IsLegacy bytes) : deserialize uncompress image heap bytes =
    deserializeLegacyImage (image.setVersion (wordAt bytes 4)) heap bytes := by
  obtain ⟨hsize, hmagic, hlegacy⟩ := h
  rw [deserialize, if_neg (not_lt.mpr hsize), if_neg (not_not.mpr hmagic)]
  simp only [hlegacy, if_true]
  rfl

theorem deserialize_plain (h : IsVersioned bytes) (hv : ¬ 2 < versionOf bytes) :
    deserialize uncompress image heap bytes =
      deserializeBody (image.setVersion (versionOf bytes)) heap .input 8 (bytes.drop 8) := by
  obtain ⟨hsize, hmagic, hlegacy, hversion⟩ := h
  rw [deserialize, if_neg (not_lt.mpr hsize), if_neg (not_not.mpr hmagic)]
  simp only [hlegacy, if_false]
  exact (if_neg hversion).trans (if_neg hv)

theorem deserialize_compressed (h : IsCompressed bytes) :
    deserialize uncompress image heap bytes =
      match uncompress (bytes.drop 12) (wordAt bytes 8).toNat with
      | none => (false, image.setVersion (versionOf bytes), heapAfter heap bytes)
      | some out =>
        if out.length ≠ (wordAt bytes 8).toNat then
          (false, image.setVersion (versionOf bytes), heapAfter heap bytes) else
          deserializeBody (image.setVersion (versionOf bytes)) (heapAfter heap bytes)
            .decompressed 0 out := by
  have hheap : heapAfter heap bytes = heap.replace (wordAt bytes 8).toNat := if_pos h
  obtain ⟨⟨hsize, hmagic, hlegacy, hversion⟩, hv⟩ := h
  rw [deserialize, if_neg (not_lt.mpr hsize), if_neg (not_not.mpr hmagic), hheap]
  simp only [hlegacy, if_false]
  exact (if_neg hversion).trans (if_pos hv)

end Paths

theorem not_isVersioned_of_isLegacy (h : IsLegacy bytes) : ¬ IsVersioned bytes :=
  fun hv => hv.2.2.1 h.2.2

theorem BodyResult.safe_iff {version : BitVec 32} {result : Bool × SessionImage w × Heap}
    (hr : BodyResult (image.setVersion version) (heapAfter heap bytes) (scan uncompress bytes) result)
    (hbuffer : ∀ h, scan uncompress bytes = some h →
      heapAfter heap bytes h.buffer = some h.size) :
    ParsedSafely uncompress bytes result ↔ ParsesSafely uncompress image heap bytes := by
  cases hr with
  | noHeader hnone =>
    rw [ParsedSafely, ParsesSafely, hnone]
    exact (samePairs_setVersion version).inBuffers_iff
  | rejected hh hacc hsame =>
    rw [ParsedSafely, ParsesSafely, hh]
    simp only [hacc, if_false]
    exact hsame.inBuffers_iff.trans (samePairs_setSizes_setVersion version _).inBuffers_iff
  | accepted hh hacc htiles hothers =>
    rw [ParsedSafely, ParsesSafely, hh]
    simp only [hacc, if_true, Option.some.injEq, exists_eq_left', hbuffer _ hh, true_and, htiles]
    exact ⟨fun hlt => ⟨hlt, fun hn => absurd hn hothers⟩, fun h => h.1⟩

theorem LegacyResult.safe_iff {version : BitVec 32} {h : Header}
    {result : Bool × SessionImage w × Heap}
    (hr : LegacyResult (image.setVersion version) heap h result) (hothers : h.others = none)
    (hscan : scan uncompress bytes = some h) (hheap : heapAfter heap bytes = heap)
    (hbuffer : heap h.buffer = some h.size) :
    ParsedSafely uncompress bytes result ↔ ParsesSafely uncompress image heap bytes := by
  rw [ParsesSafely, hscan, hheap]
  cases hr with
  | rejected hacc hsame =>
    simp only [hacc, if_false]
    exact hsame.inBuffers_iff.trans (samePairs_setSizes_setVersion version h).inBuffers_iff
  | accepted hacc htiles =>
    rw [ParsedSafely, hscan]
    simp only [hacc, if_true, Option.some.injEq, exists_eq_left', hbuffer, true_and, htiles,
      hothers, forall_const]
    rfl

theorem scanBody_buffer {version : BitVec 32} {buffer : Buffer} {offset : ℕ} {h : Header}
    (hh : scanBody version buffer offset bytes = some h) :
    h.buffer = buffer ∧ h.size = offset + bytes.length := by
  rw [scanBody] at hh
  split at hh
  · cases hh
  · grind

theorem safe_iff_of_noHeader {version : BitVec 32} (hscan : scan uncompress bytes = none) :
    ParsedSafely uncompress bytes (false, image.setVersion version, heapAfter heap bytes) ↔
      ParsesSafely uncompress image heap bytes := by
  refine BodyResult.safe_iff (.noHeader hscan) ?_
  intro h hh
  rw [hscan] at hh
  cases hh

theorem safe_iff_of_body (hw : 32 ≤ w) {version : BitVec 32} {buffer : Buffer} {offset : ℕ}
    {body : List Byte} (hscan : scan uncompress bytes = scanBody version buffer offset body)
    (hlen : offset + body.length < 2 ^ w)
    (hbuffer : heapAfter heap bytes buffer = some (offset + body.length)) :
    ParsedSafely uncompress bytes
        (deserializeBody (image.setVersion version) (heapAfter heap bytes) buffer offset body) ↔
      ParsesSafely uncompress image heap bytes := by
  have hr : BodyResult (image.setVersion version) (heapAfter heap bytes)
      (scanBody version buffer offset body)
      (deserializeBody (image.setVersion version) (heapAfter heap bytes) buffer offset body) :=
    deserializeBody_result hw hlen
  rw [← hscan] at hr
  refine hr.safe_iff ?_
  intro h hh
  rw [hscan] at hh
  obtain ⟨hb, hs⟩ := scanBody_buffer hh
  rw [hb, hs, hbuffer]

theorem safe_iff_of_compressed (hw : 32 ≤ w) (hl : ¬ IsLegacy bytes) (hc : IsCompressed bytes) :
    ParsedSafely uncompress bytes (deserialize uncompress image heap bytes) ↔
      ParsesSafely uncompress image heap bytes := by
  have hheap : heapAfter heap bytes .decompressed = some (wordAt bytes 8).toNat := by
    rw [heapAfter, if_pos hc, Heap.replace, Function.update_self]
  rw [deserialize_compressed hc]
  cases hout : uncompress (bytes.drop 12) (wordAt bytes 8).toNat with
  | none =>
    have hscan : scan uncompress bytes = none := by
      rw [scan, if_neg hl, if_pos hc, hout]
    exact safe_iff_of_noHeader hscan
  | some out =>
    have hscan : scan uncompress bytes = if out.length ≠ (wordAt bytes 8).toNat then none else
        scanBody (versionOf bytes) .decompressed 0 out := by
      rw [scan, if_neg hl, if_pos hc, hout]
    by_cases hne : out.length = (wordAt bytes 8).toNat
    · have hlt : 0 + out.length < 2 ^ w := by
        rw [Nat.zero_add, hne]
        exact lt_of_lt_of_le (wordAt bytes 8).isLt (Nat.pow_le_pow_right (by norm_num) hw)
      simp only [hne, ne_eq, not_true_eq_false, if_false] at hscan ⊢
      exact safe_iff_of_body hw hscan hlt (by rw [hheap, Nat.zero_add, hne])
    · simp only [hne, ne_eq, not_false_eq_true, if_true] at hscan ⊢
      exact safe_iff_of_noHeader hscan

/-- `Deserialize` parses an image safely exactly when the condition on the image and the object
holds, for a `size_t` of 32 bits or more. -/
theorem deserialize_safe_iff (hw : 32 ≤ w) (uncompress : Uncompress) (image : SessionImage w)
    (heap : Heap) (bytes : List Byte) (hlen : bytes.length < 2 ^ w)
    (hinput : heap .input = some bytes.length) :
    ParsedSafely uncompress bytes (deserialize uncompress image heap bytes) ↔
      ParsesSafely uncompress image heap bytes := by
  by_cases hl : IsLegacy bytes
  · have hheap : heapAfter heap bytes = heap :=
      if_neg fun hc => not_isVersioned_of_isLegacy hl hc.1
    rw [deserialize_legacy hl]
    exact (deserializeLegacyImage_result hw hlen).safe_iff rfl (scan_legacy hl) hheap hinput
  by_cases hc : IsCompressed bytes
  · exact safe_iff_of_compressed hw hl hc
  have hheap : heapAfter heap bytes = heap := if_neg hc
  by_cases hv : IsVersioned bytes
  · have hplain : ¬ 2 < versionOf bytes := fun h => hc ⟨hv, h⟩
    have hdrop : 8 + (bytes.drop 8).length = bytes.length := by
      have hsize := hv.1
      rw [List.length_drop]
      omega
    have hscan : scan uncompress bytes = scanBody (versionOf bytes) .input 8 (bytes.drop 8) := by
      rw [scan, if_neg hl, if_neg hc, if_pos hv]
    rw [deserialize_plain hv hplain]
    nth_rewrite 1 [← hheap]
    exact safe_iff_of_body hw hscan (hdrop ▸ hlen) (by rw [hheap, hinput, hdrop])
  · have hscan : scan uncompress bytes = none := by grind [scan]
    obtain ⟨image', hrun, hsame⟩ : ∃ image', deserialize uncompress image heap bytes =
      (false, image', heap) ∧ SamePairs image' image := deserialize_unreadable hl hv
    rw [hrun, ParsedSafely, ParsesSafely, hscan, hheap]
    exact hsame.inBuffers_iff

def plainImage (metadataSize romSize : BitVec 32) : List Byte :=
  word magic ++ word (1#32 ||| versionMask) ++ word 0 ++ word metadataSize ++ word romSize ++
    word 0 ++ word 0

def imageHeap (size : ℕ) : Heap := fun buffer => if buffer = .input then some size else none

theorem deserialize_safe_plainImage :
    ParsedSafely (fun _ _ => none) (plainImage 0 0)
      (deserialize (fun _ _ => none) (SessionImage.fresh 32 0) (imageHeap 28) (plainImage 0 0)) := by
  refine (deserialize_safe_iff (le_refl 32) _ _ _ _ (by decide) rfl).mpr ?_
  have hscan : scan (fun _ _ => none) (plainImage 0 0) =
      some ⟨.input, 28, 28, 0, 0, 0, some (0, 0)⟩ := by decide +kernel
  rw [ParsesSafely, hscan]
  simp [Header.Accepted, Header.total, Header.metadataSize, Header.savestateSize]

/-- A metadata size and a ROM size of 2^31 each add up to nothing in 32 bits: the image of
28 bytes is accepted. -/
theorem deserialize_wrapped_not_safe :
    ¬ ParsedSafely (fun _ _ => none) (plainImage 0x80000000#32 0x80000000#32)
      (deserialize (fun _ _ => none) (SessionImage.fresh 32 0) (imageHeap 28)
        (plainImage 0x80000000#32 0x80000000#32)) := by
  have hmeta : (deserialize (fun _ _ => none) (SessionImage.fresh 32 0) (imageHeap 28)
      (plainImage 0x80000000#32 0x80000000#32)).2.1.metadataSize.toNat = 2 ^ 31 := by decide +kernel
  have hscan : scan (fun _ _ => none) (plainImage 0x80000000#32 0x80000000#32) =
      some ⟨.input, 28, 28, 0, 0x80000000#32, 0, some (0x80000000#32, 0)⟩ := by decide +kernel
  rintro ⟨h, hh, -, htiles⟩
  rw [hscan] at hh
  cases hh
  have hcovers := htiles.covers
  simp only at hcovers
  omega

end Cloudpilot.Emulator
