import Dsline.Shm.Channel
/-!
# The persistent channel: receiving

`recv_with_seq`, `try_recv`, `recv_view` and `reclaim_stale` of a consumer
handle.
-/

namespace Dsline

variable [Checksum]

namespace PersistentShmChannel

/-- `advance_tail_impl`. -/
def advanceTailImpl (releaseSlot : Bool) : ChannelM Unit := do
  let w ← get
  if releaseSlot then
    onRegion (Region.releasePinned w.chan.tail)
  modifyChan stepTail
  modify fun w => { w with region := w.region.fetchMaxTail w.chan.tailCursor }

/-- `advance_tail_after_read`. -/
def advanceTailAfterRead : ChannelM Unit := advanceTailImpl true

/-- `advance_tail_keep_pinned`. -/
def advanceTailKeepPinned : ChannelM Unit := advanceTailImpl false

/-- Count one message as received. -/
def bumpExpected : ChannelM Unit :=
  modifyChan fun c => { c with expectedRecvSeq := c.expectedRecvSeq + 1 }

/-- Read the slot at the tail, pinning it. -/
def readTail : ChannelM SlotSnapshot := do
  let w ← get
  onRegion (Region.readCommitted w.chan.tail)

/-- Read the next chunk's slot: a poll that gives up on a slot that is not
COMMITTED, then the read. -/
def readNextChunk : ChannelM SlotSnapshot := do
  if ← pollTailCommitted then readTail
  else throw (.ofChannel .bufferEmpty)

/-- The steps `recv_with_seq` and `recv_chunked_message` take. -/
def tailOps : TailOps World where
  readNext := readNextChunk
  releasePinned := do
    let w ← get
    onRegion (Region.releasePinned w.chan.tail)
  advanceTailAfterRead := advanceTailAfterRead
  bumpExpected := bumpExpected
  setLastReceived := fun seq => modifyChan fun c => { c with lastReceivedSeq := some seq }

/-- `ensure_tail_readable`: whether a sequence resync is pending. -/
def ensureTailReadable (host : Host) : ChannelM Bool := do
  refreshCursors
  let w ← get
  if w.chan.closed ∧ w.chan.len = 0 then
    throw (.ofChannel .closed)
  let resync := w.chan.resyncExpected
  modifyChan fun c => { c with resyncExpected := false }
  if ← pollTailCommitted then
    return resync
  if (← tryReclaimAtTail host) = 0 then
    modifyChan fun c => { c with resyncExpected := resync }
    throw (.ofChannel .bufferEmpty)
  if ← tailCommitted then
    return resync
  throw (.ofChannel .bufferEmpty)

/-- The sequence a read must find: adopted after a resync, enforced in
single-producer mode, free otherwise. -/
def checkSeq (resync : Bool) (seq : UInt64) : ChannelM Unit := do
  let w ← get
  if resync then
    modifyChan fun c => { c with expectedRecvSeq := seq }
  else if ¬ w.chan.config.multiProducer ∧ seq ≠ w.chan.expectedRecvSeq then
    throw (.ofChannel (.sequenceMismatch w.chan.expectedRecvSeq seq))

/-- `recv_with_seq`. -/
def recvWithSeq (host : Host) : ChannelM ReceivedMessage := do
  let resync ← ensureTailReadable host
  let snapshot ← readTail
  checkSeq resync snapshot.seq
  finishRecv tailOps snapshot

/-- `recv`. -/
def recv (host : Host) : ChannelM Bytes := do
  return (← recvWithSeq host).payload

/-- `try_recv`. -/
def tryRecv (host : Host) : ChannelM (Option Bytes) := do
  refreshCursors
  let w ← get
  if w.chan.closed ∧ w.chan.len = 0 then
    throw (.ofChannel .closed)
  if ← tailCommitted then
    return some (← recvWithSeq host).payload
  if (← tryReclaimAtTail host) = 0 then
    return none
  if ← tailCommitted then
    return some (← recvWithSeq host).payload
  return none

/-! ## Zero-copy views -/

/-- What `recv_view` checks of the frame header before it pins. -/
def checkViewHeader (header : FrameHeader) (slotSeq : UInt64) : Except Failure Unit :=
  if header.headerLen.toNat ≠ FRAME_HEADER_LEN ∨ header.flags ≠ 0 ∨ header.kind ≠ .bytes then
    .error (.ofChannel (.invalidConfig
      "zero-copy views require single-slot unchunked messages; use recv()"))
  else if header.seq ≠ slotSeq then
    .error (.ofChannel (.sequenceMismatch slotSeq header.seq))
  else .ok ()

/-- What `recv_view` checks of the payload, in place. -/
def checkViewPayload (header : FrameHeader) (frameLen : ℕ) (payload : Area) :
    Except Failure Unit :=
  if header.payloadLen.toNat ≠ frameLen - FRAME_HEADER_LEN then
    .error (.ofChannel .corruptedMessage)
  else if checksum32 (payload.read FRAME_HEADER_LEN header.payloadLen.toNat) ≠ header.checksum then
    .error (.ofChannel .corruptedMessage)
  else .ok ()

/-- An outcome computed without touching the channel. -/
def ofExcept {α : Type} : Except Failure α → ChannelM α
  | .ok a => pure a
  | .error err => throw err

/-- The last part of `recv_view`: pin the slot at the tail, lower the floor
to it, step over it. -/
def pinTail (host : Host) (seq : UInt64) (frameLen payloadLen : ℕ) : ChannelM ShmRecvView := do
  let w ← get
  let index := w.chan.tail
  let cursorValue := w.chan.tailCursor
  let stamp := w.chan.writer.stamp host w.chan.writerEpoch 1
  modifyRegion fun r => r.writePinnedHeader index seq frameLen stamp
  modifyRegion fun r => r.floorMin cursorValue
  advanceTailKeepPinned
  bumpExpected
  modifyChan fun c => { c with lastReceivedSeq := some seq }
  return { index, seq, payloadLen, cursorValue, released := false }

/-- What `recv_view` does at a readable tail: check, in place, then pin. -/
def viewTail (host : Host) (resync : Bool) : ChannelM ShmRecvView := do
  let w ← get
  let slot := w.region.slots w.chan.tail
  let frameLen := w.region.payloadLen w.chan.tail
  if frameLen < FRAME_HEADER_LEN then
    throw (.ofChannel .corruptedMessage)
  let (header, _) ← ofExcept (decodeFrameHeader (slot.payload.read 0 FRAME_HEADER_LEN))
  ofExcept (checkViewHeader header slot.header.seq)
  checkSeq resync slot.header.seq
  ofExcept (checkViewPayload header frameLen slot.payload)
  pinTail host slot.header.seq frameLen header.payloadLen.toNat

/-- `recv_view`. -/
def recvView (host : Host) : ChannelM ShmRecvView := do
  if (← get).chan.config.backpressure = .dropOldest then
    throw (.ofChannel (.invalidConfig
      "zero-copy views are incompatible with DropOldest: the drop may free a pinned slot"))
  let resync ← ensureTailReadable host
  viewTail host resync

/-! ## Owner cleanup -/

/-- The MPSC loop of `reclaim_stale`: `rounds` more reclaims at the tail. -/
def reclaimTailMpsc (host : Host) : ℕ → ChannelM ℕ
  | 0 => return 0
  | rounds + 1 => do
      let freed ← tryReclaimAtTailMpsc host
      if freed = 0 then
        return 0
      refreshCursors
      return freed + (← reclaimTailMpsc host rounds)

/-- `recompute_spsc_bias`. -/
def recomputeSpscBias : ChannelM ℕ := do
  let w ← get
  let cap := w.chan.config.capacity
  match cursorLen cap w.region.head w.region.tail with
  | none => throw inconsistentCursors
  | some depth => return (occupiedSlotHeaders w.region cap).length - depth

/-- Free what may be freed of one slot outside the window. -/
def reclaimSlot (host : Host) (index : ℕ) : RegionM ℕ := do
  let writing ← Region.reclaimDeadWriting host index
  let pinned ← Region.reclaimDeadPinned host index
  return (if writing then 1 else 0) + (if pinned then 1 else 0)

/-- The sum of a region call over a list of slots. -/
def sumOver (call : ℕ → RegionM ℕ) : List ℕ → RegionM ℕ
  | [] => return 0
  | index :: indices => do
      return (← call index) + (← sumOver call indices)

/-- `reclaim_stale`. -/
def reclaimStale (host : Host) : ChannelM ℕ := do
  refreshCursors
  let w ← get
  let cap := w.chan.config.capacity
  if w.chan.config.multiProducer then
    let freed ← reclaimTailMpsc host cap
    let unpinned ← onRegion (reclaimEach (Region.reclaimDeadPinned host) (List.range cap))
    let total := freed + unpinned
    if 0 < total then
      modifyChan fun c => { c with reclaimedSlots := c.reclaimedSlots + total }
      rebuildFloor
    return total
  else
    let covered := (List.range' w.region.tail (w.region.head - w.region.tail)).map (· % cap)
    let total ← onRegion
      (sumOver (reclaimSlot host) ((List.range cap).filter fun i => i ∉ covered))
    if 0 < total then
      modifyChan fun c =>
        { c with reclaimedSlots := c.reclaimedSlots + total, resyncExpected := true }
      let bias ← recomputeSpscBias
      modifyChan fun c => { c with recoveryBias := bias }
      refreshCursors
      rebuildFloor
    return total

end PersistentShmChannel

end Dsline
