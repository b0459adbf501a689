import Dsline.Shm.Plan
import Dsline.Shm.Slot
/-!
# Receiving a message

Both channels receive alike once they hold the tail slot's frame: decode and
check it, release the slot and advance, or reassemble the chunks behind it.
The steps they take on their own storage are the parameters here; each
channel's `recv_with_seq` and `recv_chunked_message` are these definitions
at its own steps.
-/

namespace Dsline

variable [Checksum] {σ : Type}

/-- The steps a receive takes on its channel. -/
structure TailOps (σ : Type) where
  /-- Read the next chunk's slot, pinning it. -/
  readNext : EStateM Failure σ SlotSnapshot
  /-- Release the pinned tail slot without advancing. -/
  releasePinned : EStateM Failure σ Unit
  /-- Release the pinned tail slot and advance the tail. -/
  advanceTailAfterRead : EStateM Failure σ Unit
  /-- Count one message as received. -/
  bumpExpected : EStateM Failure σ Unit
  /-- Record the last sequence received. -/
  setLastReceived : UInt64 → EStateM Failure σ Unit

/-- The chunk loop of `recv_chunked_message`: `remaining` chunks from
`index` on. -/
def recvChunks (ops : TailOps σ) (seq : UInt64) (first : ChunkInfo) :
    ℕ → ℕ → Bytes → EStateM Failure σ Bytes
  | 0, _, payload =>
      if payload.length ≠ first.messageLen then throw (.ofChannel .corruptedMessage)
      else pure payload
  | remaining + 1, index, payload => do
      let snapshot ← ops.readNext
      if snapshot.seq ≠ seq then
        ops.releasePinned
        throw (.ofChannel (.sequenceMismatch seq snapshot.seq))
      else
        match decodeFrame snapshot.data with
        | .error err => do
            ops.releasePinned
            throw err
        | .ok frame =>
            match validateChunk frame seq { first with index } with
            | .error err => do
                ops.releasePinned
                throw err
            | .ok () => do
                ops.advanceTailAfterRead
                recvChunks ops seq first remaining (index + 1) (payload ++ frame.payload)

/-- `recv_chunked_message`. The reassembly buffer is allocated up front, for
as many bytes as the first chunk announces. -/
def recvChunkedMessageWith (ops : TailOps σ) (seq : UInt64) (firstFrame : Frame) :
    EStateM Failure σ Bytes :=
  match chunkInfo firstFrame with
  | .error err => do
      ops.releasePinned
      throw err
  | .ok first =>
      if first.index ≠ 0 then do
        ops.releasePinned
        throw (.ofChannel .corruptedMessage)
      else if isizeMax < first.messageLen then throw .panic
      else do
        ops.advanceTailAfterRead
        recvChunks ops seq first (first.total - 1) 1 firstFrame.payload

/-- A damaged frame is released, skipped and counted. -/
def skipDamaged {α : Type} (ops : TailOps σ) (err : Failure) : EStateM Failure σ α := do
  ops.advanceTailAfterRead
  ops.bumpExpected
  throw err

/-- `recv_with_seq`, from the decoding of the pinned tail slot on. -/
def finishRecv (ops : TailOps σ) (snapshot : SlotSnapshot) :
    EStateM Failure σ ReceivedMessage :=
  match decodeFrame snapshot.data with
  | .error err => skipDamaged ops err
  | .ok frame =>
      match validateBytesFrame frame with
      | .error err => skipDamaged ops err
      | .ok () =>
          if snapshot.seq ≠ frame.header.seq then
            skipDamaged ops (.ofChannel (.sequenceMismatch snapshot.seq frame.header.seq))
          else do
            let payload ←
              if isChunked frame then recvChunkedMessageWith ops snapshot.seq frame
              else do
                ops.advanceTailAfterRead
                pure frame.payload
            ops.bumpExpected
            ops.setLastReceived frame.header.seq
            return { seq := frame.header.seq, payload }

end Dsline
