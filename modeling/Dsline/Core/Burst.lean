import Dsline.Core.Crc
import Dsline.Library.ShiftRegister
/-!
# Bursts

CRC-32 is a reflected shift register of 32 bits. A burst changes bits of a
string within 32 in a row; the checksum of what it leaves differs from the
checksum of what was there (`Burst.crc32_ne`).
-/

namespace Dsline

open ShiftRegister

/-- The reflected polynomial of CRC-32. -/
def crcPoly : BitVec 32 := 0xEDB88320#32

/-- The bits of a byte, the lowest first. -/
def byteBits (byte : UInt8) : List Bool := lowBits 8 (byte.toUInt32.toBitVec)

/-- The bits of a string, in the order the register takes them. -/
def bitsOf (bytes : Bytes) : List Bool := bytes.flatMap byteBits

/-- **A burst**: two strings that differ, and only within `n` bits in a
row. -/
def Burst (n : ℕ) (bytes bytes' : Bytes) : Prop :=
  ∃ before x y after, bitsOf bytes = before ++ x ++ after ∧ bitsOf bytes' = before ++ y ++ after ∧
    x.length = y.length ∧ x.length ≤ n ∧ x ≠ y

/-! ## The register -/

theorem crcPoly_top : crcPoly.getLsbD (32 - 1) = true := by decide

theorem and_one_eq_one_iff (crc : UInt32) : crc &&& 1 = 1 ↔ crc.toBitVec.getLsbD 0 = true := by
  have hone : (crc &&& 1).toBitVec =
      BitVec.setWidth 32 (BitVec.ofBool (crc.toBitVec.getLsbD 0)) := by
    rw [UInt32.toBitVec_and]
    exact BitVec.and_one_eq_setWidth_ofBool_getLsbD
  rw [← UInt32.toBitVec_inj, hone]
  cases crc.toBitVec.getLsbD 0 <;> decide

/-- A bit of the checksum is a shift of the register. -/
theorem toBitVec_crcBit (crc : UInt32) :
    (crcBit crc).toBitVec = ShiftRegister.step crcPoly crc.toBitVec := by
  unfold crcBit ShiftRegister.step
  by_cases h : crc &&& 1 = 1
  · rw [if_pos h, if_pos ((and_one_eq_one_iff crc).1 h)]
    rfl
  · rw [if_neg h, if_neg fun hb => h ((and_one_eq_one_iff crc).2 hb)]
    rfl

theorem toBitVec_repeat_crcBit (n : ℕ) (crc : UInt32) :
    (Nat.repeat crcBit n crc).toBitVec =
      Nat.repeat (ShiftRegister.step crcPoly) n crc.toBitVec := by
  induction n with
  | zero => rfl
  | succ n ih => rw [Nat.repeat, toBitVec_crcBit, ih, Nat.repeat]

/-- **A byte of the checksum feeds the register the byte's bits.** -/
theorem toBitVec_crcByte (crc : UInt32) (byte : UInt8) :
    (crcByte crc byte).toBitVec = ShiftRegister.run crcPoly crc.toBitVec (byteBits byte) := by
  have hhigh : byte.toUInt32.toBitVec >>> 8 = 0#32 := by
    refine BitVec.eq_of_toNat_eq ?_
    have hlt := byte.toNat_lt
    simp
    omega
  rw [crcByte, toBitVec_repeat_crcBit, UInt32.toBitVec_xor, repeat_step_xor, hhigh,
    BitVec.xor_zero, byteBits]

theorem toBitVec_foldl_crcByte (bytes : Bytes) (crc : UInt32) :
    (bytes.foldl crcByte crc).toBitVec = ShiftRegister.run crcPoly crc.toBitVec (bitsOf bytes) := by
  induction bytes generalizing crc with
  | nil => rfl
  | cons byte bytes ih =>
      rw [List.foldl_cons, ih, toBitVec_crcByte, bitsOf, bitsOf, List.flatMap_cons, run_append]

/-- Checksums agree where the register does. -/
theorem crc32_eq_iff {bytes bytes' : Bytes} : crc32 bytes = crc32 bytes' ↔
    ShiftRegister.run crcPoly (UInt32.toBitVec 0xFFFFFFFF) (bitsOf bytes) =
      ShiftRegister.run crcPoly (UInt32.toBitVec 0xFFFFFFFF) (bitsOf bytes') := by
  rw [crc32, crc32, UInt32.not_inj, ← UInt32.toBitVec_inj, toBitVec_foldl_crcByte,
    toBitVec_foldl_crcByte]

/-! ## Bursts -/

/-- **CRC-32 tells a burst.** -/
theorem Burst.crc32_ne {bytes bytes' : Bytes} (h : Burst 32 bytes bytes') :
    crc32 bytes ≠ crc32 bytes' := by
  obtain ⟨before, x, y, after, hx, hy, hlen, hle, hne⟩ := h
  intro heq
  rw [crc32_eq_iff, hx, hy, run_append, run_append, run_append, run_append] at heq
  exact hne (run_inj crcPoly_top hlen hle (run_state_inj crcPoly_top heq))

theorem bitsOf_append (bytes bytes' : Bytes) :
    bitsOf (bytes ++ bytes') = bitsOf bytes ++ bitsOf bytes' :=
  List.flatMap_append

theorem length_byteBits (byte : UInt8) : (byteBits byte).length = 8 := by
  rw [byteBits, lowBits, List.length_map, List.length_range]

theorem length_bitsOf (bytes : Bytes) : (bitsOf bytes).length = 8 * bytes.length := by
  induction bytes with
  | nil => rfl
  | cons byte bytes ih =>
      rw [bitsOf, List.flatMap_cons, ← bitsOf, List.length_append, length_byteBits, ih,
        List.length_cons]
      omega

theorem byteBits_inj {byte byte' : UInt8} (h : byteBits byte = byteBits byte') : byte = byte' := by
  refine UInt8.toBitVec_inj.1 (BitVec.eq_of_getLsbD_eq fun i hi => ?_)
  have hget : ∀ b : UInt8, (byteBits b)[i]? = some (b.toBitVec.getLsbD i) := by
    intro b
    rw [byteBits, lowBits, List.getElem?_map, List.getElem?_range hi, Option.map_some]
    simp [show i < 32 by omega]
  have hi' := hget byte
  rw [h, hget byte'] at hi'
  exact (Option.some.inj hi').symm

theorem bitsOf_inj : ∀ {bytes bytes' : Bytes}, bitsOf bytes = bitsOf bytes' → bytes = bytes' := by
  intro bytes
  induction bytes with
  | nil =>
      intro bytes' h
      have hlen := congrArg List.length h
      rw [length_bitsOf, length_bitsOf, List.length_nil] at hlen
      exact (List.length_eq_zero_iff.1 (by omega)).symm
  | cons byte bytes ih =>
      intro bytes' h
      cases bytes' with
      | nil =>
          have hlen := congrArg List.length h
          rw [length_bitsOf, length_bitsOf, List.length_nil, List.length_cons] at hlen
          omega
      | cons byte' bytes' =>
          rw [bitsOf, bitsOf, List.flatMap_cons, List.flatMap_cons] at h
          obtain ⟨hb, hbs⟩ := List.append_inj h (by rw [length_byteBits, length_byteBits])
          rw [byteBits_inj hb, ih hbs]

/-- **Up to four bytes in a row** that differ are a burst. -/
theorem burst_bytes {before x y after : Bytes} (hlen : x.length = y.length) (hle : x.length ≤ 4)
    (hne : x ≠ y) : Burst 32 (before ++ x ++ after) (before ++ y ++ after) := by
  refine ⟨bitsOf before, bitsOf x, bitsOf y, bitsOf after, ?_, ?_, ?_, ?_,
    fun h => hne (bitsOf_inj h)⟩
  · rw [bitsOf_append, bitsOf_append]
  · rw [bitsOf_append, bitsOf_append]
  · rw [length_bitsOf, length_bitsOf, hlen]
  · rw [length_bitsOf]
    omega

/-- A burst leaves as many bytes as there were. -/
theorem Burst.length_eq {n : ℕ} {bytes bytes' : Bytes} (h : Burst n bytes bytes') :
    bytes'.length = bytes.length := by
  obtain ⟨before, x, y, after, hx, hy, hlen, -, -⟩ := h
  have hx' := congrArg List.length hx
  have hy' := congrArg List.length hy
  rw [length_bitsOf, List.length_append, List.length_append] at hx' hy'
  omega

end Dsline
