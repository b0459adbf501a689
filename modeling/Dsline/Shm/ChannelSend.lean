import Dsline.Shm.Channel
/-!
# The persistent channel: sending

`send` in both modes with the four backpressure strategies, and the
zero-copy `alloc`, `publish` and `abort` of a producer handle.
-/

namespace Dsline

variable [Checksum]

namespace PersistentShmChannel

/-! ## Waiting and dropping -/

/-- `wait_for_space_until`, `polls` looks before the deadline. -/
def waitForSpaceUntil (neededSlots : ℕ) : ℕ → ChannelM Unit
  | 0 => throw (.ofChannel .bufferFull)
  | polls + 1 => do
      refreshCursors
      if (← get).chan.admits neededSlots then
        return ()
      waitForSpaceUntil neededSlots polls

/-- `wait_for_space`. -/
def waitForSpace (host : Host) (neededSlots : ℕ) : ChannelM Unit := do
  let w ← get
  if w.chan.admits neededSlots then
    return ()
  match w.chan.config.timeout with
  | none => throw (.ofChannel .bufferFull)
  | some _ => waitForSpaceUntil neededSlots host.polls

/-- How many slots the message whose first frame this is takes. -/
def slotsToDrop (frame : Frame) : Except Failure ℕ :=
  if isChunked frame then do
    let info ← chunkInfo frame
    if info.index ≠ 0 then
      throw (.ofChannel .corruptedMessage)
    return info.total
  else .ok 1

/-- The release loop of the SPSC `drop_oldest_message`. -/
def dropSlots : ℕ → ChannelM Unit
  | 0 => return ()
  | count + 1 => do
      let w ← get
      modifyRegion fun r => r.forceRelease w.chan.tail
      modifyChan stepTail
      modify fun w => { w with region := w.region.fetchMaxTail w.chan.tailCursor }
      dropSlots count

/-- `drop_oldest_message` in single-producer mode. -/
def dropOldestMessageSpsc : ChannelM Unit := do
  let w ← get
  if w.chan.len = 0 then
    return ()
  let snapshot ← onRegion (Region.peekCommitted w.chan.tail)
  match decodeFrame snapshot.data with
  | .error err => throw err
  | .ok frame =>
      match slotsToDrop frame with
      | .error err => throw err
      | .ok count => do
          dropSlots count
          modifyChan fun c => { c with expectedRecvSeq := c.expectedRecvSeq + 1 }

/-- The release loop of the MPSC drop: the exchange has moved the tail. -/
def dropSlotsMpsc : ℕ → ChannelM Unit
  | 0 => return ()
  | count + 1 => do
      let w ← get
      modifyRegion fun r => r.forceRelease w.chan.tail
      modifyChan fun c =>
        { c with
          tail := (c.tail + 1) % c.config.capacity
          tailCursor := wrappingAdd c.tailCursor 1
          len := c.len - 1 }
      dropSlotsMpsc count

/-- `drop_oldest_message_mpsc`: `waits` rounds without progress before the
deadline, `fuel` rounds in all. -/
def dropOldestMessageMpsc (host : Host) : ℕ → ℕ → ChannelM Unit
  | 0, _ => throw .diverges
  | fuel + 1, waits => do
      refreshCursors
      let w ← get
      if w.chan.len = 0 then
        return ()
      let tailCount := w.chan.tailCursor
      if ← pollTailCommitted then
        let slot := w.region.slots w.chan.tail
        let len := w.region.payloadLen w.chan.tail
        if w.region.frameCapacity < len then
          dropOldestMessageMpsc host fuel waits
        else
          match decodeFrame (slot.payload.read 0 len) with
          | .error _ => dropOldestMessageMpsc host fuel waits
          | .ok frame =>
              if isChunked frame then
                match chunkInfo frame with
                | .error _ => dropOldestMessageMpsc host fuel waits
                | .ok info =>
                    if info.index ≠ 0 then throw (.ofChannel .corruptedMessage)
                    else discard tailCount info.total
              else discard tailCount 1
      else if 0 < (← tryReclaimAtTail host) then
        dropOldestMessageMpsc host fuel waits
      else
        refreshCursors
        if (← get).chan.tailCursor = tailCount then
          match waits with
          | 0 => throw (.ofChannel .bufferFull)
          | waits + 1 => dropOldestMessageMpsc host fuel waits
        else dropOldestMessageMpsc host fuel waits
where
  /-- Move the tail past the message, then free its slots. -/
  discard (tailCount count : ℕ) : ChannelM Unit := do
    let w ← get
    let (region, ok) := w.region.compareExchangeTail tailCount (tailCount + count)
    set { w with region }
    if ok then
      dropSlotsMpsc count
      modifyChan fun c => { c with expectedRecvSeq := c.expectedRecvSeq + 1 }

/-- `drop_oldest_message`. -/
def dropOldestMessage (host : Host) : ChannelM Unit := do
  if (← get).chan.config.multiProducer then dropOldestMessageMpsc host host.fuel host.polls
  else dropOldestMessageSpsc

/-- The `DropOldest` loop. A round that drops nothing leaves the guard as it
was, so the loop that has not ended after `capacity` drops and one more
round never ends. -/
def dropUntilAdmitted (host : Host) (neededSlots : ℕ) : ℕ → ChannelM Unit
  | 0 => throw .diverges
  | fuel + 1 => do
      if (← get).chan.admits neededSlots then
        return ()
      dropOldestMessage host
      dropUntilAdmitted host neededSlots fuel

/-- `MessageTooLarge` for a message of more slots than the ring has. -/
def checkSlots (neededSlots : ℕ) : ChannelM Unit := do
  let w ← get
  if w.chan.config.capacity < neededSlots then
    throw (.ofChannel (.messageTooLarge neededSlots w.chan.config.capacity))

/-- `prepare_send_slots`: whether to go on. -/
def prepareSendSlots (host : Host) (neededSlots : ℕ) : ChannelM Bool := do
  checkSlots neededSlots
  let w ← get
  if w.chan.admits neededSlots then
    return true
  match w.chan.config.backpressure with
  | .raise => throw (.ofChannel .bufferFull)
  | .block => do
      waitForSpace host neededSlots
      return true
  | .dropNewest => return false
  | .dropOldest => do
      dropUntilAdmitted host neededSlots (w.chan.config.capacity + 1)
      return true

/-! ## Single-producer send -/

/-- The write loop of `send`: each frame into the slot at the head. -/
def writeFrames (seq : UInt64) (stamp : WriterIdentity) : List Bytes → ChannelM Unit
  | [] => return ()
  | frame :: frames => do
      let w ← get
      onRegion (Region.writeCommittedNoFlush w.chan.head seq frame stamp)
      modifyChan fun c =>
        { c with head := (c.head + 1) % c.config.capacity, len := c.len + 1 }
      writeFrames seq stamp frames

/-- Take the next sequence. -/
def takeSeq : ChannelM UInt64 := do
  let w ← get
  modifyChan fun c => { c with nextSeq := c.nextSeq + 1 }
  return w.chan.nextSeq

/-- `send` in single-producer mode, behind its plan. -/
def sendSpsc (host : Host) (bytes : Bytes) (plan : SendPlan) : ChannelM Unit := do
  if ← prepareSendSlots host plan.neededSlots then
    let seq ← takeSeq
    let w ← get
    match encodeMessageFrames w.chan.config plan seq bytes with
    | .error err => throw err
    | .ok frames => do
        writeFrames seq (w.chan.writer.stamp host w.chan.writerEpoch plan.neededSlots) frames
        modifyChan fun c => { c with headCursor := c.headCursor + frames.length }
        modify fun w => { w with region := w.region.storeHead w.chan.headCursor }

/-! ## Multi-producer send -/

/-- How one round of `reserve_slots` ends. -/
inductive Reservation where
  | won (start : ℕ)
  | lost
  | full
  deriving DecidableEq, Repr

/-- One round of `reserve_slots`: refresh, guard, exchange. -/
def reserveAttempt (neededSlots : ℕ) : ChannelM Reservation := do
  refreshCursors
  let w ← get
  if w.chan.admits neededSlots then
    let (region, ok) := w.region.compareExchangeHead w.chan.headCursor
      (w.chan.headCursor + neededSlots)
    set { w with region }
    return if ok then .won w.chan.headCursor else .lost
  else
    return .full

/-- The loop of `reserve_slots`. -/
def reserveLoop (host : Host) (neededSlots : ℕ) : ℕ → ChannelM (Option ℕ)
  | 0 => throw .diverges
  | fuel + 1 => do
      match ← reserveAttempt neededSlots with
      | .won start => return some start
      | .lost => reserveLoop host neededSlots fuel
      | .full =>
          let w ← get
          match w.chan.config.backpressure with
          | .raise => throw (.ofChannel .bufferFull)
          | .block =>
              match w.chan.config.timeout with
              | none => throw (.ofChannel .bufferFull)
              | some _ => do
                  waitForSpaceUntil neededSlots host.polls
                  reserveLoop host neededSlots fuel
          | .dropNewest => return none
          | .dropOldest => do
              dropUntilAdmitted host neededSlots host.fuel
              reserveLoop host neededSlots fuel

/-- `reserve_slots`. -/
def reserveSlots (host : Host) (neededSlots : ℕ) : ChannelM (Option ℕ) := do
  checkSlots neededSlots
  reserveLoop host neededSlots host.fuel

/-- `write_reserved_slot`: `waits` more tries while the slot is taken. -/
def writeReservedSlot (index : ℕ) (seq : UInt64) (frame : Bytes) (stamp : WriterIdentity) :
    ℕ → RegionM Unit
  | 0 => Region.writeCommittedNoFlush index seq frame stamp
  | waits + 1 => fun region =>
      match Region.writeCommittedNoFlush index seq frame stamp region with
      | .error (.error (.channel .bufferFull)) region =>
          writeReservedSlot index seq frame stamp waits region
      | result => result

/-- The write loop of `send_mpsc`: frame `k` into the slot of `start + k`. -/
def writeReserved (host : Host) (seq : UInt64) (stamp : WriterIdentity) :
    ℕ → List Bytes → ChannelM Unit
  | _, [] => return ()
  | cursor, frame :: frames => do
      let w ← get
      onRegion (writeReservedSlot (cursor % w.chan.config.capacity) seq frame stamp host.polls)
      writeReserved host seq stamp (cursor + 1) frames

/-- `send_mpsc`. -/
def sendMpsc (host : Host) (bytes : Bytes) (plan : SendPlan) : ChannelM Unit := do
  match ← reserveSlots host plan.neededSlots with
  | none => return ()
  | some start => do
      let seq ← takeSeq
      let w ← get
      match encodeMessageFrames w.chan.config plan seq bytes with
      | .error err => throw err
      | .ok frames => do
          writeReserved host seq (w.chan.writer.stamp host w.chan.writerEpoch plan.neededSlots)
            start frames
          modifyChan fun c =>
            { c with
              head := (start % c.config.capacity + frames.length) % c.config.capacity
              len := min (c.len + frames.length) c.config.capacity }

/-- `send`. -/
def send (host : Host) (bytes : Bytes) : ChannelM Unit := do
  if (← get).chan.closed then
    throw (.ofChannel .closed)
  refreshCursors
  let w ← get
  match sendPlan w.chan.config bytes.length with
  | .error err => throw err
  | .ok plan =>
      if w.chan.config.multiProducer then sendMpsc host bytes plan
      else sendSpsc host bytes plan

/-! ## Zero-copy leases -/

/-- `alloc`. -/
def alloc (host : Host) (size : ℕ) : ChannelM ShmWriteLease := do
  let w ← get
  if w.chan.closed then
    throw (.ofChannel .closed)
  if w.chan.config.multiProducer then
    throw (.ofChannel (.invalidConfig "zero-copy alloc requires single-producer mode"))
  if w.chan.config.backpressure = .dropOldest then
    throw (.ofChannel (.invalidConfig
      "zero-copy is incompatible with DropOldest: the drop may free a pinned slot"))
  if w.chan.config.slotSize < size then
    throw (.ofChannel (.messageTooLarge size w.chan.config.slotSize))
  match checkedAdd FRAME_HEADER_LEN size with
  | none => throw (.ofChannel (.invalidConfig "size overflow"))
  | some frameLen => do
      refreshCursors
      if ¬ (← prepareSendSlots host 1) then
        throw (.ofChannel .bufferFull)
      let w ← get
      let index := w.chan.head
      if w.region.state index ≠ .free then
        throw (.ofChannel .bufferFull)
      let seq ← takeSeq
      modifyRegion fun r => r.writeWritingHeader index seq frameLen
        (w.chan.writer.stamp host w.chan.writerEpoch 1)
      modifyChan fun c =>
        { c with head := (c.head + 1) % c.config.capacity, len := c.len + 1 }
      return { index, seq, payloadLen := size, isSealed := false }

/-- `publish`: the sequence, and the sealed lease. -/
def publish (lease : ShmWriteLease) : ChannelM (UInt64 × ShmWriteLease) := do
  let w ← get
  if w.chan.closed then
    throw (.ofChannel .closed)
  if lease.isSealed then
    throw (.ofChannel (.invalidConfig "buffer is already published"))
  if w.region.state lease.index ≠ .writing then
    throw (.ofChannel (.invalidConfig "buffer slot is not reserved"))
  let payload := (w.region.slots lease.index).payload.read FRAME_HEADER_LEN lease.payloadLen
  match encodeFrameHeader .bytes 0 lease.seq 0 0 (checksum32 payload) lease.payloadLen [] with
  | .error err => throw err
  | .ok header => do
      modifyRegion fun r => r.setPayload lease.index 0 header
      modifyRegion fun r => r.writeHeader lease.index .committed lease.seq
        (FRAME_HEADER_LEN + lease.payloadLen)
      modifyChan fun c => { c with headCursor := wrappingAdd c.headCursor 1 }
      modify fun w => { w with region := w.region.storeHead w.chan.headCursor }
      return (lease.seq, { lease with isSealed := true })

/-- `abort`. -/
def abort (lease : ShmWriteLease) : ChannelM Unit := do
  let w ← get
  if lease.isSealed then
    throw (.ofChannel (.invalidConfig "cannot abort a published buffer"))
  let lastReserved := (w.chan.head + w.chan.config.capacity - 1) % w.chan.config.capacity
  if lease.index ≠ lastReserved then
    throw (.ofChannel (.invalidConfig "only the newest unpublished buffer can be aborted"))
  modifyRegion fun r => r.forceRelease lease.index
  modifyChan fun c =>
    { c with head := lease.index, len := c.len - 1, nextSeq := lease.seq }

end PersistentShmChannel

end Dsline
