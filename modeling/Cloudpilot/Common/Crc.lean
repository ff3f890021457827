import Cloudpilot.Common.CardImage
import Cloudpilot.Library.Words

/-! # CRC32

The checksum is computed by two programs, each with a table of its own: `crc::CRC32` of
the emulator, over a whole buffer, and `crc.js` of the web page, byte by byte. Signed
and unsigned 32 bit numbers are the same bit patterns here.
-/
namespace Cloudpilot.Common.Crc
open Library.LittleEndian

/-- The table of `CPCrc.cpp`. -/
def crc32Table : List (BitVec 32) := [
  0x00000000, 0x77073096, 0xee0e612c, 0x990951ba, 0x076dc419, 0x706af48f, 0xe963a535, 0x9e6495a3,
  0x0edb8832, 0x79dcb8a4, 0xe0d5e91e, 0x97d2d988, 0x09b64c2b, 0x7eb17cbd, 0xe7b82d07, 0x90bf1d91,
  0x1db71064, 0x6ab020f2, 0xf3b97148, 0x84be41de, 0x1adad47d, 0x6ddde4eb, 0xf4d4b551, 0x83d385c7,
  0x136c9856, 0x646ba8c0, 0xfd62f97a, 0x8a65c9ec, 0x14015c4f, 0x63066cd9, 0xfa0f3d63, 0x8d080df5,
  0x3b6e20c8, 0x4c69105e, 0xd56041e4, 0xa2677172, 0x3c03e4d1, 0x4b04d447, 0xd20d85fd, 0xa50ab56b,
  0x35b5a8fa, 0x42b2986c, 0xdbbbc9d6, 0xacbcf940, 0x32d86ce3, 0x45df5c75, 0xdcd60dcf, 0xabd13d59,
  0x26d930ac, 0x51de003a, 0xc8d75180, 0xbfd06116, 0x21b4f4b5, 0x56b3c423, 0xcfba9599, 0xb8bda50f,
  0x2802b89e, 0x5f058808, 0xc60cd9b2, 0xb10be924, 0x2f6f7c87, 0x58684c11, 0xc1611dab, 0xb6662d3d,
  0x76dc4190, 0x01db7106, 0x98d220bc, 0xefd5102a, 0x71b18589, 0x06b6b51f, 0x9fbfe4a5, 0xe8b8d433,
  0x7807c9a2, 0x0f00f934, 0x9609a88e, 0xe10e9818, 0x7f6a0dbb, 0x086d3d2d, 0x91646c97, 0xe6635c01,
  0x6b6b51f4, 0x1c6c6162, 0x856530d8, 0xf262004e, 0x6c0695ed, 0x1b01a57b, 0x8208f4c1, 0xf50fc457,
  0x65b0d9c6, 0x12b7e950, 0x8bbeb8ea, 0xfcb9887c, 0x62dd1ddf, 0x15da2d49, 0x8cd37cf3, 0xfbd44c65,
  0x4db26158, 0x3ab551ce, 0xa3bc0074, 0xd4bb30e2, 0x4adfa541, 0x3dd895d7, 0xa4d1c46d, 0xd3d6f4fb,
  0x4369e96a, 0x346ed9fc, 0xad678846, 0xda60b8d0, 0x44042d73, 0x33031de5, 0xaa0a4c5f, 0xdd0d7cc9,
  0x5005713c, 0x270241aa, 0xbe0b1010, 0xc90c2086, 0x5768b525, 0x206f85b3, 0xb966d409, 0xce61e49f,
  0x5edef90e, 0x29d9c998, 0xb0d09822, 0xc7d7a8b4, 0x59b33d17, 0x2eb40d81, 0xb7bd5c3b, 0xc0ba6cad,
  0xedb88320, 0x9abfb3b6, 0x03b6e20c, 0x74b1d29a, 0xead54739, 0x9dd277af, 0x04db2615, 0x73dc1683,
  0xe3630b12, 0x94643b84, 0x0d6d6a3e, 0x7a6a5aa8, 0xe40ecf0b, 0x9309ff9d, 0x0a00ae27, 0x7d079eb1,
  0xf00f9344, 0x8708a3d2, 0x1e01f268, 0x6906c2fe, 0xf762575d, 0x806567cb, 0x196c3671, 0x6e6b06e7,
  0xfed41b76, 0x89d32be0, 0x10da7a5a, 0x67dd4acc, 0xf9b9df6f, 0x8ebeeff9, 0x17b7be43, 0x60b08ed5,
  0xd6d6a3e8, 0xa1d1937e, 0x38d8c2c4, 0x4fdff252, 0xd1bb67f1, 0xa6bc5767, 0x3fb506dd, 0x48b2364b,
  0xd80d2bda, 0xaf0a1b4c, 0x36034af6, 0x41047a60, 0xdf60efc3, 0xa867df55, 0x316e8eef, 0x4669be79,
  0xcb61b38c, 0xbc66831a, 0x256fd2a0, 0x5268e236, 0xcc0c7795, 0xbb0b4703, 0x220216b9, 0x5505262f,
  0xc5ba3bbe, 0xb2bd0b28, 0x2bb45a92, 0x5cb36a04, 0xc2d7ffa7, 0xb5d0cf31, 0x2cd99e8b, 0x5bdeae1d,
  0x9b64c2b0, 0xec63f226, 0x756aa39c, 0x026d930a, 0x9c0906a9, 0xeb0e363f, 0x72076785, 0x05005713,
  0x95bf4a82, 0xe2b87a14, 0x7bb12bae, 0x0cb61b38, 0x92d28e9b, 0xe5d5be0d, 0x7cdcefb7, 0x0bdbdf21,
  0x86d3d2d4, 0xf1d4e242, 0x68ddb3f8, 0x1fda836e, 0x81be16cd, 0xf6b9265b, 0x6fb077e1, 0x18b74777,
  0x88085ae6, 0xff0f6a70, 0x66063bca, 0x11010b5c, 0x8f659eff, 0xf862ae69, 0x616bffd3, 0x166ccf45,
  0xa00ae278, 0xd70dd2ee, 0x4e048354, 0x3903b3c2, 0xa7672661, 0xd06016f7, 0x4969474d, 0x3e6e77db,
  0xaed16a4a, 0xd9d65adc, 0x40df0b66, 0x37d83bf0, 0xa9bcae53, 0xdebb9ec5, 0x47b2cf7f, 0x30b5ffe9,
  0xbdbdf21c, 0xcabac28a, 0x53b39330, 0x24b4a3a6, 0xbad03605, 0xcdd70693, 0x54de5729, 0x23d967bf,
  0xb3667a2e, 0xc4614ab8, 0x5d681b02, 0x2a6f2b94, 0xb40bbe37, 0xc30c8ea1, 0x5a05df1b, 0x2d02ef8d]

/-- One byte of `crc::CRC32`. -/
def crc32Step (crc : BitVec 32) (byte : Byte) : BitVec 32 :=
  crc32Table[((crc ^^^ byte.setWidth 32) &&& 0xff#32).toNat]?.getD 0 ^^^ (crc >>> 8)

def crc32 (data : List Byte) : BitVec 32 := ~~~ data.foldl crc32Step (~~~ 0#32)

/-- The table of `crc.js`. -/
def crc32TableJs : List (BitVec 32) := [
  0x00000000, 0x77073096, 0xee0e612c, 0x990951ba, 0x076dc419, 0x706af48f, 0xe963a535, 0x9e6495a3,
  0x0edb8832, 0x79dcb8a4, 0xe0d5e91e, 0x97d2d988, 0x09b64c2b, 0x7eb17cbd, 0xe7b82d07, 0x90bf1d91,
  0x1db71064, 0x6ab020f2, 0xf3b97148, 0x84be41de, 0x1adad47d, 0x6ddde4eb, 0xf4d4b551, 0x83d385c7,
  0x136c9856, 0x646ba8c0, 0xfd62f97a, 0x8a65c9ec, 0x14015c4f, 0x63066cd9, 0xfa0f3d63, 0x8d080df5,
  0x3b6e20c8, 0x4c69105e, 0xd56041e4, 0xa2677172, 0x3c03e4d1, 0x4b04d447, 0xd20d85fd, 0xa50ab56b,
  0x35b5a8fa, 0x42b2986c, 0xdbbbc9d6, 0xacbcf940, 0x32d86ce3, 0x45df5c75, 0xdcd60dcf, 0xabd13d59,
  0x26d930ac, 0x51de003a, 0xc8d75180, 0xbfd06116, 0x21b4f4b5, 0x56b3c423, 0xcfba9599, 0xb8bda50f,
  0x2802b89e, 0x5f058808, 0xc60cd9b2, 0xb10be924, 0x2f6f7c87, 0x58684c11, 0xc1611dab, 0xb6662d3d,
  0x76dc4190, 0x01db7106, 0x98d220bc, 0xefd5102a, 0x71b18589, 0x06b6b51f, 0x9fbfe4a5, 0xe8b8d433,
  0x7807c9a2, 0x0f00f934, 0x9609a88e, 0xe10e9818, 0x7f6a0dbb, 0x086d3d2d, 0x91646c97, 0xe6635c01,
  0x6b6b51f4, 0x1c6c6162, 0x856530d8, 0xf262004e, 0x6c0695ed, 0x1b01a57b, 0x8208f4c1, 0xf50fc457,
  0x65b0d9c6, 0x12b7e950, 0x8bbeb8ea, 0xfcb9887c, 0x62dd1ddf, 0x15da2d49, 0x8cd37cf3, 0xfbd44c65,
  0x4db26158, 0x3ab551ce, 0xa3bc0074, 0xd4bb30e2, 0x4adfa541, 0x3dd895d7, 0xa4d1c46d, 0xd3d6f4fb,
  0x4369e96a, 0x346ed9fc, 0xad678846, 0xda60b8d0, 0x44042d73, 0x33031de5, 0xaa0a4c5f, 0xdd0d7cc9,
  0x5005713c, 0x270241aa, 0xbe0b1010, 0xc90c2086, 0x5768b525, 0x206f85b3, 0xb966d409, 0xce61e49f,
  0x5edef90e, 0x29d9c998, 0xb0d09822, 0xc7d7a8b4, 0x59b33d17, 0x2eb40d81, 0xb7bd5c3b, 0xc0ba6cad,
  0xedb88320, 0x9abfb3b6, 0x03b6e20c, 0x74b1d29a, 0xead54739, 0x9dd277af, 0x04db2615, 0x73dc1683,
  0xe3630b12, 0x94643b84, 0x0d6d6a3e, 0x7a6a5aa8, 0xe40ecf0b, 0x9309ff9d, 0x0a00ae27, 0x7d079eb1,
  0xf00f9344, 0x8708a3d2, 0x1e01f268, 0x6906c2fe, 0xf762575d, 0x806567cb, 0x196c3671, 0x6e6b06e7,
  0xfed41b76, 0x89d32be0, 0x10da7a5a, 0x67dd4acc, 0xf9b9df6f, 0x8ebeeff9, 0x17b7be43, 0x60b08ed5,
  0xd6d6a3e8, 0xa1d1937e, 0x38d8c2c4, 0x4fdff252, 0xd1bb67f1, 0xa6bc5767, 0x3fb506dd, 0x48b2364b,
  0xd80d2bda, 0xaf0a1b4c, 0x36034af6, 0x41047a60, 0xdf60efc3, 0xa867df55, 0x316e8eef, 0x4669be79,
  0xcb61b38c, 0xbc66831a, 0x256fd2a0, 0x5268e236, 0xcc0c7795, 0xbb0b4703, 0x220216b9, 0x5505262f,
  0xc5ba3bbe, 0xb2bd0b28, 0x2bb45a92, 0x5cb36a04, 0xc2d7ffa7, 0xb5d0cf31, 0x2cd99e8b, 0x5bdeae1d,
  0x9b64c2b0, 0xec63f226, 0x756aa39c, 0x026d930a, 0x9c0906a9, 0xeb0e363f, 0x72076785, 0x05005713,
  0x95bf4a82, 0xe2b87a14, 0x7bb12bae, 0x0cb61b38, 0x92d28e9b, 0xe5d5be0d, 0x7cdcefb7, 0x0bdbdf21,
  0x86d3d2d4, 0xf1d4e242, 0x68ddb3f8, 0x1fda836e, 0x81be16cd, 0xf6b9265b, 0x6fb077e1, 0x18b74777,
  0x88085ae6, 0xff0f6a70, 0x66063bca, 0x11010b5c, 0x8f659eff, 0xf862ae69, 0x616bffd3, 0x166ccf45,
  0xa00ae278, 0xd70dd2ee, 0x4e048354, 0x3903b3c2, 0xa7672661, 0xd06016f7, 0x4969474d, 0x3e6e77db,
  0xaed16a4a, 0xd9d65adc, 0x40df0b66, 0x37d83bf0, 0xa9bcae53, 0xdebb9ec5, 0x47b2cf7f, 0x30b5ffe9,
  0xbdbdf21c, 0xcabac28a, 0x53b39330, 0x24b4a3a6, 0xbad03605, 0xcdd70693, 0x54de5729, 0x23d967bf,
  0xb3667a2e, 0xc4614ab8, 0x5d681b02, 0x2a6f2b94, 0xb40bbe37, 0xc30c8ea1, 0x5a05df1b, 0x2d02ef8d]

def crc32Start : BitVec 32 := ~~~ 0#32

def crc32Add (crc : BitVec 32) (value : Byte) : BitVec 32 :=
  crc32TableJs[((crc ^^^ value.setWidth 32) &&& 0xff#32).toNat]?.getD 0 ^^^ (crc >>> 8)

def crc32Finish (value : BitVec 32) : BitVec 32 := ~~~ value

theorem crc32TableJs_eq : crc32TableJs = crc32Table := rfl

theorem crc32Finish_foldl (data : List Byte) :
    crc32Finish (data.foldl crc32Add crc32Start) = crc32 data := by
  rfl

def crc32Entry (i : ℕ) : BitVec 32 := crc32Table[i]?.getD 0

/-- A byte and the state enter a step only through their exclusive or. -/
def crc32Next (x : BitVec 32) : BitVec 32 := crc32Entry (x &&& 0xff#32).toNat ^^^ (x >>> 8)

theorem crc32Step_eq (crc : BitVec 32) (byte : Byte) :
    crc32Step crc byte = crc32Next (crc ^^^ byte.setWidth 32) := by
  have hbyte : byte.setWidth 32 >>> 8 = 0#32 := by
    ext i hi
    simp [BitVec.getLsbD_of_ge]
  rw [crc32Next, BitVec.ushiftRight_xor_distrib, hbyte, BitVec.xor_zero]
  rfl

theorem crc32Entry_top : ((List.range 256).map fun i => crc32Entry i >>> 24).Nodup := by
  decide +kernel

/-- The top byte of a state tells the table entry of the step to it. -/
theorem crc32Next_xor {x y : BitVec 32} (h : (crc32Next x ^^^ crc32Next y) >>> 24 = 0#32) :
    x ^^^ y = (crc32Next x ^^^ crc32Next y) <<< 8 := by
  have hlow : x &&& 0xff#32 = y &&& 0xff#32 := by
    have hmem (z : BitVec 32) : (z &&& 0xff#32).toNat ∈ List.range 256 :=
      List.mem_range.mpr (Nat.lt_succ_of_le Nat.and_le_right)
    have htop (z : BitVec 32) : crc32Next z >>> 24 = crc32Entry (z &&& 0xff#32).toNat >>> 24 := by
      rw [crc32Next, BitVec.ushiftRight_xor_distrib, ← BitVec.shiftRight_add,
        BitVec.ushiftRight_eq_zero (x := z) (by decide), BitVec.xor_zero]
    rw [BitVec.ushiftRight_xor_distrib, htop, htop] at h
    exact BitVec.eq_of_toNat_eq (List.inj_on_of_nodup_map crc32Entry_top (hmem x) (hmem y)
      (BitVec.xor_eq_zero_iff.mp h))
  have hbits (i : ℕ) (hi : i < 8) : x.getLsbD i = y.getLsbD i := by
    have := congrArg (·.getLsbD i) hlow
    simpa [show (255#32).getLsbD i = true by interval_cases i <;> rfl] using this
  rw [crc32Next, crc32Next, hlow]
  apply BitVec.eq_of_getLsbD_eq
  intro i hi
  by_cases h8 : i < 8
  · simp [hbits i h8, h8]
  · simp [h8, hi, show 8 + (i - 8) = i by omega]
    grind

/-- Runs that meet differ in front of their last bytes by no more than these bytes. -/
theorem crc32_meets {crc crc' : BitVec 32} {xs ys : List Byte} (hlength : xs.length = ys.length)
    (hshort : xs.length ≤ 4) (h : xs.foldl crc32Step crc = ys.foldl crc32Step crc') :
    (crc ^^^ crc') >>> (8 * xs.length) = 0#32 ∧ (crc = crc' → xs = ys) := by
  induction xs generalizing crc crc' ys with
  | nil =>
    obtain rfl := List.length_eq_zero_iff.mp hlength.symm
    exact ⟨by simp [show crc = crc' from h], fun _ => rfl⟩
  | cons x xs ih =>
    obtain ⟨y, ys, rfl⟩ := List.exists_cons_of_length_eq_add_one hlength.symm
    rw [List.length_cons] at hshort ⊢
    obtain ⟨hnext, hsame⟩ := ih (Nat.succ.inj hlength) (by omega) h
    rw [crc32Step_eq, crc32Step_eq] at hnext hsame
    have htop : (crc32Next (crc ^^^ x.setWidth 32) ^^^ crc32Next (crc' ^^^ y.setWidth 32)) >>> 24 =
        0#32 := by
      rw [show 24 = 8 * xs.length + (24 - 8 * xs.length) by omega, BitVec.shiftRight_add, hnext,
        BitVec.zero_ushiftRight]
    have hback (i : ℕ) := congrArg (·.getLsbD i) (crc32Next_xor htop)
    constructor
    · apply BitVec.eq_of_getLsbD_eq
      intro i hi
      have hnext' := congrArg (·.getLsbD i) hnext
      have hback' := hback (8 * (xs.length + 1) + i)
      have hhigh (z : Byte) : z.getLsbD (8 * (xs.length + 1) + i) = false :=
        BitVec.getLsbD_of_ge z _ (by omega)
      simp [hhigh, show 8 * (xs.length + 1) + i - 8 = 8 * xs.length + i by omega] at hnext' hback' ⊢
      grind
    · rintro rfl
      obtain rfl : x = y := by
        apply BitVec.eq_of_getLsbD_eq
        intro i hi
        have hback' := hback i
        simp [hi, show i < 32 by omega] at hback' ⊢
        grind
      rw [hsame rfl]

theorem foldl_crc32Step_inj {crc crc' : BitVec 32} {back : List Byte}
    (h : back.foldl crc32Step crc = back.foldl crc32Step crc') : crc = crc' := by
  induction back generalizing crc crc' with
  | nil => exact h
  | cons byte back ih =>
    have hnext := ih h
    rw [crc32Step_eq, crc32Step_eq] at hnext
    have hback := crc32Next_xor (x := crc ^^^ byte.setWidth 32) (y := crc' ^^^ byte.setWidth 32)
      (by rw [hnext, BitVec.xor_self, BitVec.zero_ushiftRight])
    rw [hnext, BitVec.xor_self, BitVec.zero_shiftLeft, BitVec.xor_eq_zero_iff] at hback
    exact (BitVec.xor_left_inj _).mp hback

/-- Data of one length that differ in at most four bytes in a row have different checksums. -/
theorem crc32_burst (front back : List Byte) {xs ys : List Byte} (hlength : xs.length = ys.length)
    (hshort : xs.length ≤ 4) (hne : xs ≠ ys) :
    crc32 (front ++ xs ++ back) ≠ crc32 (front ++ ys ++ back) := by
  rw [crc32, crc32, Ne, BitVec.not_inj]
  simp only [List.foldl_append]
  exact fun h => hne ((crc32_meets hlength hshort (foldl_crc32Step_inj h)).2 rfl)

theorem crc32_burst_bytes : crc32 ([1] ++ [2, 3] ++ [4]) ≠ crc32 ([1] ++ [2, 7] ++ [4]) :=
  crc32_burst [1] [4] rfl (by decide) (by decide)

end Cloudpilot.Common.Crc
