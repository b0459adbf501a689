import Dsline.Core.Config
import Dsline.Core.Frame
/-!
# Send plans and chunked messages

How a message is laid over slots: one slot where it fits, otherwise chunks
whose frames carry their index, the number of chunks and the length of the
whole message in the metadata.
-/

namespace Dsline

variable [Checksum]

structure ChunkInfo where
  index : ℕ
  total : ℕ
  messageLen : ℕ
  deriving DecidableEq, Repr

structure SendPlan where
  chunkPayloadSize : ℕ
  neededSlots : ℕ
  deriving DecidableEq, Repr

/-- `message_size_limits(config).max_message_size`. -/
def maxMessageSize (config : SpscConfig) : ℕ :=
  match checkedMul config.capacity ((checkedSub config.slotSize CHUNK_METADATA_LEN).getD 0) with
  | some chunkedSize => max chunkedSize config.slotSize
  | none => config.slotSize

/-- `send_plan`. -/
def sendPlan (config : SpscConfig) (len : ℕ) : Except Failure SendPlan :=
  let tooLarge : Except Failure SendPlan :=
    .error (.ofChannel (.messageTooLarge len (maxMessageSize config)))
  let overflow : Except Failure SendPlan :=
    .error (.ofChannel (.invalidConfig "message size overflow"))
  if len ≤ config.slotSize then
    .ok { chunkPayloadSize := config.slotSize, neededSlots := 1 }
  else
    match checkedSub config.slotSize CHUNK_METADATA_LEN with
    | none => tooLarge
    | some chunkPayloadSize =>
        if chunkPayloadSize = 0 then tooLarge
        else
          match checkedAdd len (chunkPayloadSize - 1) with
          | none => overflow
          | some padded =>
              let neededSlots := padded / chunkPayloadSize
              match checkedMul config.capacity chunkPayloadSize with
              | none => overflow
              | some maxChunkedMessageSize =>
                  if config.capacity < neededSlots ∨ maxChunkedMessageSize < len then tooLarge
                  else .ok { chunkPayloadSize, neededSlots }

/-- `usize_to_u64_bytes`. -/
def usizeToU64Bytes (value : ℕ) : Except Failure Bytes :=
  if value < 2 ^ 64 then .ok (pushU64 (UInt64.ofNat value))
  else .error (.ofChannel (.invalidConfig "chunk metadata overflow"))

/-- `chunk_metadata`. -/
def chunkMetadata (index total messageLen : ℕ) : Except Failure (List Metadata) := do
  return [⟨TLV_CHUNK_INDEX, ← usizeToU64Bytes index⟩,
    ⟨TLV_CHUNK_TOTAL, ← usizeToU64Bytes total⟩,
    ⟨TLV_CHUNK_MESSAGE_LEN, ← usizeToU64Bytes messageLen⟩]

/-- `chunk_flags`. -/
def chunkFlags (index total : ℕ) : UInt16 :=
  let flags := FRAME_FLAG_CHUNKED
  let flags := if index = 0 then flags ||| FRAME_FLAG_CHUNK_START else flags
  if index + 1 = total then flags ||| FRAME_FLAG_CHUNK_END else flags

/-- `metadata_usize`: the first item of the type, which must hold a `u64`. -/
def metadataUsize (frame : Frame) (ty : UInt16) : Except Failure ℕ :=
  match frame.metadata.find? fun item => item.ty = ty with
  | none => .error (.ofChannel .corruptedMessage)
  | some item =>
      if item.value.length = 8 then .ok (LittleEndian.leNat item.value)
      else .error (.ofChannel .corruptedMessage)

/-- `chunk_info`. -/
def chunkInfo (frame : Frame) : Except Failure ChunkInfo := do
  let index ← metadataUsize frame TLV_CHUNK_INDEX
  let total ← metadataUsize frame TLV_CHUNK_TOTAL
  let messageLen ← metadataUsize frame TLV_CHUNK_MESSAGE_LEN
  if total = 0 ∨ total ≤ index then
    throw (.ofChannel .corruptedMessage)
  return { index, total, messageLen }

/-- `validate_bytes_frame`. -/
def validateBytesFrame (frame : Frame) : Except Failure Unit :=
  if frame.header.kind ≠ .bytes ∨ checksum32 frame.payload ≠ frame.header.checksum then
    .error (.ofChannel .corruptedMessage)
  else .ok ()

/-- `is_chunked`. -/
def isChunked (frame : Frame) : Bool := frame.header.flags &&& FRAME_FLAG_CHUNKED != 0

/-- `sequence_precedes`. -/
def sequencePrecedes (left right : UInt64) : Bool :=
  left != right && (right - left).toNat < 2 ^ 63

/-- `bytes.chunks(size)`: consecutive pieces of `size` bytes, the last one
shorter. -/
def chunks (size : ℕ) (bytes : Bytes) : List Bytes :=
  (List.range ((bytes.length + (size - 1)) / size)).map fun i => (bytes.drop (i * size)).take size

/-- The frame of chunk `index`. -/
def encodeChunk (plan : SendPlan) (seq : UInt64) (messageLen index : ℕ) (chunk : Bytes) :
    Except Failure Bytes := do
  let metadata ← chunkMetadata index plan.neededSlots messageLen
  encodeFrame .bytes (chunkFlags index plan.neededSlots) seq 0 0 metadata chunk

/-- `encode_message_frames`. -/
def encodeMessageFrames (config : SpscConfig) (plan : SendPlan) (seq : UInt64) (bytes : Bytes) :
    Except Failure (List Bytes) :=
  if plan.neededSlots = 1 then do
    return [← encodeFrame .bytes 0 seq 0 0 [] bytes]
  else do
    let frames ← (chunks plan.chunkPayloadSize bytes).zipIdx.mapM fun (chunk, index) =>
      encodeChunk plan seq bytes.length index chunk
    if frames.length ≠ plan.neededSlots then
      throw (.ofChannel (.invalidConfig "chunk plan mismatch"))
    if frames.any fun frame => config.slotSize + FRAME_HEADER_LEN < frame.length then
      throw (.ofChannel (.invalidConfig "chunk frame exceeds slot size"))
    return frames

/-- `validate_chunk`. -/
def validateChunk (frame : Frame) (seq : UInt64) (expected : ChunkInfo) :
    Except Failure Unit := do
  validateBytesFrame frame
  if frame.header.seq ≠ seq ∨ ¬ isChunked frame then
    throw (.ofChannel .corruptedMessage)
  let info ← chunkInfo frame
  if info ≠ expected then
    throw (.ofChannel .corruptedMessage)
  let hasStart := frame.header.flags &&& FRAME_FLAG_CHUNK_START != 0
  let hasEnd := frame.header.flags &&& FRAME_FLAG_CHUNK_END != 0
  if hasStart ≠ decide (info.index = 0) ∨ hasEnd ≠ decide (info.index + 1 = info.total) then
    throw (.ofChannel .corruptedMessage)
  return ()

end Dsline
