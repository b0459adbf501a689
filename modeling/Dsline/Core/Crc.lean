import Dsline.Core.Frame
/-!
# CRC-32

The checksum the frame codec takes from its crate: CRC-32 (IEEE), reflected,
bit by bit. Most proofs hold of every checksum; those that need more of it
take `IsCrc32`, and runs on fixed inputs use this one.
-/

namespace Dsline

/-- One bit of the reflected CRC-32 register. -/
def crcBit (crc : UInt32) : UInt32 :=
  if crc &&& 1 = 1 then (crc >>> 1) ^^^ 0xEDB88320 else crc >>> 1

/-- One byte of the register. -/
def crcByte (crc : UInt32) (byte : UInt8) : UInt32 :=
  Nat.repeat crcBit 8 (crc ^^^ byte.toUInt32)

/-- CRC-32 (IEEE). -/
def crc32 (bytes : Bytes) : UInt32 := ~~~(bytes.foldl crcByte 0xFFFFFFFF)

example : crc32 ([0x31, 0x32, 0x33, 0x34, 0x35, 0x36, 0x37, 0x38, 0x39]) = 0xCBF43926 := by
  decide +kernel

/-- The checksum of the crate. -/
abbrev crc32Checksum : Checksum := ⟨crc32⟩

/-- What the crate documents of its checksum. -/
def IsCrc32 [Checksum] : Prop := ∀ bytes, checksum32 bytes = crc32 bytes

theorem isCrc32 : @IsCrc32 crc32Checksum := fun _ => rfl

end Dsline
