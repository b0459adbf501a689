import Dsline.Core.Error
import Dsline.Library.LittleEndian
/-!
# Frames

The wire format of one slot: a fixed 50-byte header, the metadata TLVs the
header length covers, and the payload. Encoding and decoding follow the
source field by field; an out-of-bounds index is a panic, so that "the
decoder never indexes out of bounds" is a statement about it.
-/

namespace Dsline

open LittleEndian

/-- The payload checksum. The source takes it from a CRC-32 crate and uses
nothing of it but that it is a function of the payload. -/
class Checksum where
  checksum32 : Bytes → UInt32

export Checksum (checksum32)

def FRAME_MAGIC : UInt32 := 0x44534c4e
def FRAME_VERSION : UInt16 := 2
abbrev FRAME_HEADER_LEN : ℕ := 50
abbrev TLV_HEADER_LEN : ℕ := 6
def FRAME_FLAG_CHUNKED : UInt16 := 1
def FRAME_FLAG_CHUNK_START : UInt16 := 2
def FRAME_FLAG_CHUNK_END : UInt16 := 4
def TLV_CHUNK_INDEX : UInt16 := 100
def TLV_CHUNK_TOTAL : UInt16 := 101
def TLV_CHUNK_MESSAGE_LEN : UInt16 := 102
abbrev CHUNK_METADATA_LEN : ℕ := (TLV_HEADER_LEN + 8) * 3

inductive FrameKind where
  | bytes
  | ndarray
  | arrow
  | control
  deriving DecidableEq, Repr

namespace FrameKind

/-- The discriminant, `kind as u16`. -/
def toUInt16 : FrameKind → UInt16
  | bytes => 1
  | ndarray => 2
  | arrow => 3
  | control => 4

/-- `FrameKind::try_from`. -/
def tryFrom (value : UInt16) : Except Failure FrameKind :=
  if value = 1 then .ok bytes
  else if value = 2 then .ok ndarray
  else if value = 3 then .ok arrow
  else if value = 4 then .ok control
  else .error (.ofProtocol (.invalidFrameKind value))

@[simp] theorem tryFrom_toUInt16 (kind : FrameKind) : tryFrom kind.toUInt16 = .ok kind := by
  cases kind <;> rfl

end FrameKind

structure FrameHeader where
  flags : UInt16
  kind : FrameKind
  headerLen : UInt32
  payloadLen : UInt64
  seq : UInt64
  timestampNs : UInt64
  schemaHash : UInt64
  checksum : UInt32
  deriving DecidableEq, Repr

structure Metadata where
  ty : UInt16
  value : Bytes
  deriving DecidableEq, Repr

structure Frame where
  header : FrameHeader
  metadata : List Metadata
  payload : Bytes
  deriving DecidableEq, Repr

/-! ## Encoding -/

def pushU16 (value : UInt16) : Bytes := leBytes 2 value.toNat
def pushU32 (value : UInt32) : Bytes := leBytes 4 value.toNat
def pushU64 (value : UInt64) : Bytes := leBytes 8 value.toNat

/-- The encoded length of the metadata, or `none` where it overflows. -/
def metadataLen (metadata : List Metadata) : Option ℕ :=
  metadata.foldlM (fun total item => do
    checkedAdd (← checkedAdd total TLV_HEADER_LEN) item.value.length) 0

/-- One metadata TLV. -/
def encodeMetadata (item : Metadata) : Bytes :=
  pushU16 item.ty ++ pushU32 (UInt32.ofNat item.value.length) ++ item.value

/-- The header bytes of a frame whose header takes `headerLen` bytes. -/
def headerBytes (kind : FrameKind) (flags : UInt16) (seq timestampNs schemaHash : UInt64)
    (checksum : UInt32) (payloadLen : ℕ) (headerLen : ℕ) (metadata : List Metadata) : Bytes :=
  pushU32 FRAME_MAGIC ++ pushU16 FRAME_VERSION ++ pushU16 flags ++ pushU16 kind.toUInt16 ++
    pushU32 (UInt32.ofNat headerLen) ++ pushU64 (UInt64.ofNat payloadLen) ++ pushU64 seq ++
    pushU64 timestampNs ++ pushU64 schemaHash ++ pushU32 checksum ++
    metadata.flatMap encodeMetadata

/-- `encode_frame_header`. -/
def encodeFrameHeader (kind : FrameKind) (flags : UInt16) (seq timestampNs schemaHash : UInt64)
    (checksum : UInt32) (payloadLen : ℕ) (metadata : List Metadata) : Except Failure Bytes :=
  match (metadataLen metadata).bind (checkedAdd FRAME_HEADER_LEN) with
  | none => .error (.ofProtocol .headerLengthOverflow)
  | some headerLen =>
      if headerLen < 2 ^ 32 ∧ payloadLen < 2 ^ 64 then
        .ok (headerBytes kind flags seq timestampNs schemaHash checksum payloadLen headerLen
          metadata)
      else .error (.ofProtocol .headerLengthOverflow)

/-- `encode_frame`. -/
def encodeFrame [Checksum] (kind : FrameKind) (flags : UInt16)
    (seq timestampNs schemaHash : UInt64) (metadata : List Metadata) (payload : Bytes) :
    Except Failure Bytes := do
  let header ← encodeFrameHeader kind flags seq timestampNs schemaHash (checksum32 payload)
    payload.length metadata
  return header ++ payload

/-! ## Decoding -/

/-- `bytes[start..stop]`, which panics out of bounds. -/
def slice (bytes : Bytes) (start stop : ℕ) : Except Failure Bytes :=
  if start ≤ stop ∧ stop ≤ bytes.length then .ok ((bytes.drop start).take (stop - start))
  else .error .panic

def readU16 (bytes : Bytes) (offset : ℕ) : Except Failure UInt16 := do
  return UInt16.ofNat (leNat (← slice bytes offset (offset + 2)))

def readU32 (bytes : Bytes) (offset : ℕ) : Except Failure UInt32 := do
  return UInt32.ofNat (leNat (← slice bytes offset (offset + 4)))

def readU64 (bytes : Bytes) (offset : ℕ) : Except Failure UInt64 := do
  return UInt64.ofNat (leNat (← slice bytes offset (offset + 8)))

/-- `decode_frame_header`: the header and the total frame length. -/
def decodeFrameHeader (bytes : Bytes) : Except Failure (FrameHeader × ℕ) := do
  if bytes.length < FRAME_HEADER_LEN then
    throw (.ofProtocol (.frameTooShort bytes.length FRAME_HEADER_LEN))
  let magic ← readU32 bytes 0
  if magic ≠ FRAME_MAGIC then
    throw (.ofProtocol (.invalidMagic magic))
  let version ← readU16 bytes 4
  if version ≠ FRAME_VERSION then
    throw (.ofProtocol (.unsupportedVersion version))
  let flags ← readU16 bytes 6
  let kind ← FrameKind.tryFrom (← readU16 bytes 8)
  let headerLen ← readU32 bytes 10
  if headerLen.toNat < FRAME_HEADER_LEN then
    throw (.ofProtocol (.invalidHeaderLength headerLen.toNat FRAME_HEADER_LEN))
  let payloadLen ← readU64 bytes 14
  let seq ← readU64 bytes 22
  let timestampNs ← readU64 bytes 30
  let schemaHash ← readU64 bytes 38
  let checksum ← readU32 bytes 46
  match checkedAdd headerLen.toNat payloadLen.toNat with
  | none => throw (.ofProtocol .headerLengthOverflow)
  | some totalLen =>
      return ({ flags, kind, headerLen, payloadLen, seq, timestampNs, schemaHash, checksum },
        totalLen)

/-- `decode_metadata` from `offset` on. Every TLV advances the offset by at
least its own header, so the header length bounds the number of rounds. -/
def decodeMetadataFrom (bytes : Bytes) (headerLen : ℕ) :
    ℕ → ℕ → Except Failure (List Metadata)
  | 0, _ => .ok []
  | rounds + 1, offset => do
      if headerLen ≤ offset then
        return []
      if headerLen - offset < TLV_HEADER_LEN then
        throw (.ofProtocol (.invalidMetadataLength offset (headerLen - offset)))
      let ty ← readU16 bytes offset
      let len ← readU32 bytes (offset + 2)
      let valueStart := offset + TLV_HEADER_LEN
      match checkedAdd valueStart len.toNat with
      | none => throw (.ofProtocol (.invalidMetadataLength offset len.toNat))
      | some valueEnd =>
          if headerLen < valueEnd then
            throw (.ofProtocol (.invalidMetadataLength offset len.toNat))
          let value ← slice bytes valueStart valueEnd
          return { ty, value } :: (← decodeMetadataFrom bytes headerLen rounds valueEnd)

/-- `decode_metadata`. -/
def decodeMetadata (bytes : Bytes) (headerLen : ℕ) : Except Failure (List Metadata) :=
  decodeMetadataFrom bytes headerLen headerLen FRAME_HEADER_LEN

/-- `decode_frame`. -/
def decodeFrame (bytes : Bytes) : Except Failure Frame := do
  let (header, _) ← decodeFrameHeader bytes
  let headerLen := header.headerLen.toNat
  let payloadLen := header.payloadLen.toNat
  if bytes.length < headerLen then
    throw (.ofProtocol (.frameTooShort bytes.length headerLen))
  let available := bytes.length - headerLen
  if available < payloadLen then
    throw (.ofProtocol (.invalidPayloadLength header.payloadLen available))
  let metadata ← decodeMetadata bytes headerLen
  let payload ← slice bytes headerLen (headerLen + payloadLen)
  return { header, metadata, payload }

end Dsline
