import Dsline.Shm.ChannelSend
/-!
# The in-memory channel

`ShmSpscChannel` over `MemorySlotStorage`: one flat byte array, a private
table of slot states beside it, and one handle that both sends and receives.
A length is kept whole here (`payload_len` is a `usize`), where the
persistent header keeps 32 bits of it.
-/

namespace Dsline

structure FixedSlot where
  state : SlotState
  seq : UInt64
  payloadLen : ℕ
  deriving DecidableEq, Repr

/-- `FixedSlot::default`. -/
def FixedSlot.default : FixedSlot := ⟨.free, 0, 0⟩

/-- `slot index out of range`. -/
def slotOutOfRange : Failure := .ofChannel (.invalidConfig "slot index out of range")

structure MemorySlotStorage where
  capacity : ℕ
  slotSize : ℕ
  data : Area

namespace MemorySlotStorage

/-- `MemorySlotStorage::new`. An allocation over `isize::MAX` panics. -/
def new (capacity slotSize : ℕ) : Except Failure MemorySlotStorage :=
  if capacity = 0 then
    .error (.ofChannel (.invalidConfig "capacity must be greater than zero"))
  else if slotSize = 0 then
    .error (.ofChannel (.invalidConfig "slot_size must be greater than zero"))
  else
    match checkedMul capacity slotSize with
    | none => .error (.ofChannel (.invalidConfig "storage size overflow"))
    | some totalLen =>
        if isizeMax < totalLen then .error .panic
        else .ok { capacity, slotSize, data := Area.zero }

/-- `offset`. -/
def offset (storage : MemorySlotStorage) (index : ℕ) : Except Failure ℕ :=
  if storage.capacity ≤ index then .error slotOutOfRange
  else
    match checkedMul index storage.slotSize with
    | none => .error (.ofChannel (.invalidConfig "slot offset overflow"))
    | some offset => .ok offset

/-- `write_slot`. -/
def writeSlot (storage : MemorySlotStorage) (index : ℕ) (bytes : Bytes) :
    Except Failure MemorySlotStorage :=
  if storage.slotSize < bytes.length then
    .error (.ofChannel (.messageTooLarge bytes.length storage.slotSize))
  else do
    let offset ← storage.offset index
    return { storage with data := storage.data.write offset bytes }

/-- `read_slot`. -/
def readSlot (storage : MemorySlotStorage) (index len : ℕ) : Except Failure Bytes :=
  if storage.slotSize < len then
    .error (.ofChannel (.messageTooLarge len storage.slotSize))
  else do
    let offset ← storage.offset index
    return storage.data.read offset len

/-- `clear_slot`. -/
def clearSlot (storage : MemorySlotStorage) (index : ℕ) : Except Failure MemorySlotStorage := do
  let offset ← storage.offset index
  return { storage with
    data := storage.data.write offset (List.replicate storage.slotSize 0) }

end MemorySlotStorage

structure FixedSlotRegion where
  storage : MemorySlotStorage
  /-- The slot table: as many entries as the storage has slots. -/
  slots : ℕ → FixedSlot

abbrev FixedM := EStateM Failure FixedSlotRegion

namespace FixedSlotRegion

/-- `FixedSlotRegion::with_storage`. -/
def withStorage (storage : MemorySlotStorage) : Except Failure FixedSlotRegion :=
  if storage.capacity = 0 then
    .error (.ofChannel (.invalidConfig "capacity must be greater than zero"))
  else if storage.slotSize = 0 then
    .error (.ofChannel (.invalidConfig "slot_size must be greater than zero"))
  else .ok { storage, slots := fun _ => .default }

/-- `slot`. -/
def slot (index : ℕ) : FixedM FixedSlot := do
  let region ← get
  if index < region.storage.capacity then
    return region.slots index
  throw slotOutOfRange

/-- Set a slot's entry of the table. -/
def setSlot (region : FixedSlotRegion) (index : ℕ) (slot : FixedSlot) : FixedSlotRegion :=
  { region with slots := fun i => if i = index then slot else region.slots i }

/-- A storage step that returns the storage it leaves. -/
def onStorage (op : MemorySlotStorage → Except Failure MemorySlotStorage) : FixedM Unit := do
  let region ← get
  match op region.storage with
  | .error err => throw err
  | .ok storage => set { region with storage }

/-- `write_committed`: WRITING, the frame, then COMMITTED. -/
def writeCommitted (index : ℕ) (seq : UInt64) (frame : Bytes) : FixedM Unit := do
  let region ← get
  if region.storage.slotSize < frame.length then
    throw (.ofChannel (.messageTooLarge frame.length region.storage.slotSize))
  if (← slot index).state ≠ .free then
    throw (.ofChannel .bufferFull)
  modify fun r => r.setSlot index ⟨.writing, seq, frame.length⟩
  onStorage fun storage => storage.writeSlot index frame
  modify fun r => r.setSlot index { r.slots index with state := .committed }

/-- `peek_committed`. -/
def peekCommitted (index : ℕ) : FixedM SlotSnapshot := do
  let entry ← slot index
  if entry.state ≠ .committed then
    throw (.ofChannel .bufferEmpty)
  let region ← get
  match region.storage.readSlot index entry.payloadLen with
  | .error err => throw err
  | .ok data => return { seq := entry.seq, data }

/-- `read_committed`: a peek that leaves the slot PINNED. -/
def readCommitted (index : ℕ) : FixedM SlotSnapshot := do
  let snapshot ← peekCommitted index
  modify fun r => r.setSlot index { r.slots index with state := .pinned }
  return snapshot

/-- `release_slot`. -/
def releaseSlot (index : ℕ) : FixedM Unit := do
  onStorage fun storage => storage.clearSlot index
  modify fun r => r.setSlot index ⟨.free, 0, 0⟩

/-- `release_pinned`. -/
def releasePinned (index : ℕ) : FixedM Unit := do
  if (← slot index).state ≠ .pinned then
    throw (.ofChannel (.invalidConfig "slot is not pinned"))
  releaseSlot index

/-- `release_committed`. -/
def releaseCommitted (index : ℕ) : FixedM Unit := do
  if (← slot index).state ≠ .committed then
    throw (.ofChannel (.invalidConfig "slot is not committed"))
  releaseSlot index

end FixedSlotRegion

structure ShmSpscChannel where
  config : SpscConfig
  region : FixedSlotRegion
  head : ℕ
  tail : ℕ
  len : ℕ
  nextSeq : UInt64
  expectedRecvSeq : UInt64
  lastReceivedSeq : Option UInt64
  closed : Bool

abbrev SpscM := EStateM Failure ShmSpscChannel

namespace ShmSpscChannel

/-- `ShmSpscChannel::with_storage`. -/
def withStorage (config : SpscConfig) (storage : MemorySlotStorage) :
    Except Failure ShmSpscChannel := do
  config.validate
  match checkedAdd config.slotSize FRAME_HEADER_LEN with
  | none => throw (.ofChannel (.invalidConfig "slot_size is too large"))
  | some minimumRegionSlotSize =>
      if storage.capacity ≠ config.capacity then
        throw (.ofChannel (.invalidConfig "storage capacity mismatch"))
      if storage.slotSize < minimumRegionSlotSize then
        throw (.ofChannel (.invalidConfig "storage slot_size is too small"))
      return {
        config
        region := ← FixedSlotRegion.withStorage storage
        head := 0
        tail := 0
        len := 0
        nextSeq := 0
        expectedRecvSeq := 0
        lastReceivedSeq := none
        closed := false }

/-- `ShmSpscChannel::new`. -/
def new (config : SpscConfig) : Except Failure ShmSpscChannel := do
  config.validate
  match checkedAdd config.slotSize FRAME_HEADER_LEN with
  | none => throw (.ofChannel (.invalidConfig "slot_size is too large"))
  | some regionSlotSize =>
      withStorage config (← MemorySlotStorage.new config.capacity regionSlotSize)

/-- Run a region operation. -/
def onRegion {α : Type} (op : FixedM α) : SpscM α := fun ch =>
  match op ch.region with
  | .ok a region => .ok a { ch with region }
  | .error err region => .error err { ch with region }

/-- Step the read index over one slot. -/
def stepTail (ch : ShmSpscChannel) : ShmSpscChannel :=
  { ch with tail := (ch.tail + 1) % ch.config.capacity, len := ch.len - 1 }

/-! ## Receiving -/

/-- `advance_tail_after_read`. -/
def advanceTailAfterRead : SpscM Unit := do
  onRegion (FixedSlotRegion.releasePinned (← get).tail)
  modify stepTail

/-- Read the slot at the tail, pinning it. -/
def readTail : SpscM SlotSnapshot := do
  onRegion (FixedSlotRegion.readCommitted (← get).tail)

/-- The steps `recv_with_seq` and `recv_chunked_message` take. -/
def tailOps : TailOps ShmSpscChannel where
  readNext := readTail
  releasePinned := do
    onRegion (FixedSlotRegion.releasePinned (← get).tail)
  advanceTailAfterRead := advanceTailAfterRead
  bumpExpected := modify fun ch => { ch with expectedRecvSeq := ch.expectedRecvSeq + 1 }
  setLastReceived := fun seq => modify fun ch => { ch with lastReceivedSeq := some seq }

variable [Checksum]

/-- `recv_with_seq`. -/
def recvWithSeq : SpscM ReceivedMessage := do
  let ch ← get
  if ch.closed ∧ ch.len = 0 then
    throw (.ofChannel .closed)
  if ch.len = 0 then
    throw (.ofChannel .bufferEmpty)
  let snapshot ← readTail
  -- A mismatch leaves the slot pinned: the next read finds nothing committed.
  if snapshot.seq ≠ ch.expectedRecvSeq then
    throw (.ofChannel (.sequenceMismatch ch.expectedRecvSeq snapshot.seq))
  finishRecv tailOps snapshot

/-! ## Sending -/

/-- `wait_for_space`. Only this handle makes room, so no look before the
deadline finds any that the first did not. -/
def waitForSpace (neededSlots : ℕ) : SpscM Unit := do
  let ch ← get
  if neededSlots ≤ ch.config.capacity - ch.len then
    return ()
  throw (.ofChannel .bufferFull)

/-- The release loop of `drop_oldest_message`. -/
def dropSlots : ℕ → SpscM Unit
  | 0 => return ()
  | count + 1 => do
      onRegion (FixedSlotRegion.releaseCommitted (← get).tail)
      modify stepTail
      dropSlots count

/-- `drop_oldest_message`. -/
def dropOldestMessage : SpscM Unit := do
  let ch ← get
  if ch.len = 0 then
    return ()
  let snapshot ← onRegion (FixedSlotRegion.peekCommitted ch.tail)
  match decodeFrame snapshot.data with
  | .error err => throw err
  | .ok frame =>
      match PersistentShmChannel.slotsToDrop frame with
      | .error err => throw err
      | .ok count => do
          dropSlots count
          modify fun ch => { ch with expectedRecvSeq := ch.expectedRecvSeq + 1 }

/-- The `DropOldest` loop. Each round drops a message, so the loop that has
not ended after `capacity` drops and one more round never ends. -/
def dropUntilRoom (neededSlots : ℕ) : ℕ → SpscM Unit
  | 0 => throw .diverges
  | fuel + 1 => do
      let ch ← get
      if neededSlots ≤ ch.config.capacity - ch.len then
        return ()
      dropOldestMessage
      dropUntilRoom neededSlots fuel

/-- `prepare_send_slots`: whether to go on. -/
def prepareSendSlots (neededSlots : ℕ) : SpscM Bool := do
  let ch ← get
  if ch.config.capacity < neededSlots then
    throw (.ofChannel (.messageTooLarge neededSlots ch.config.capacity))
  if neededSlots ≤ ch.config.capacity - ch.len then
    return true
  match ch.config.backpressure with
  | .raise => throw (.ofChannel .bufferFull)
  | .block => do
      waitForSpace neededSlots
      return true
  | .dropNewest => return false
  | .dropOldest => do
      dropUntilRoom neededSlots (ch.config.capacity + 1)
      return true

/-- The write loop of `send`: each frame into the slot at the head. -/
def writeFrames (seq : UInt64) : List Bytes → SpscM Unit
  | [] => return ()
  | frame :: frames => do
      onRegion (FixedSlotRegion.writeCommitted (← get).head seq frame)
      modify fun ch =>
        { ch with head := (ch.head + 1) % ch.config.capacity, len := ch.len + 1 }
      writeFrames seq frames

/-- `send`. -/
def send (bytes : Bytes) : SpscM Unit := do
  let ch ← get
  if ch.closed then
    throw (.ofChannel .closed)
  match sendPlan ch.config bytes.length with
  | .error err => throw err
  | .ok plan =>
      if ← prepareSendSlots plan.neededSlots then
        let ch ← get
        modify fun ch => { ch with nextSeq := ch.nextSeq + 1 }
        match encodeMessageFrames ch.config plan ch.nextSeq bytes with
        | .error err => throw err
        | .ok frames => writeFrames ch.nextSeq frames

/-- `close`. -/
def close : SpscM Unit := modify fun ch => { ch with closed := true }

end ShmSpscChannel

end Dsline
