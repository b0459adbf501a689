import Dsline.Library.Simulation
import Dsline.Shm.Liveness
import Dsline.Shm.SlotExchange
/-!
# The region's calls, over the bytes of its file

The rest of `PersistentSlotRegion`: the shared words and their atomic
accesses, the pin floor, peeks and reclaims, and what leases and views do
in place. `RegionCall` collects every access a handle makes to a region.
Each has two meanings, one over the bytes of the file and one over the
words and slots of `Region`.
-/

namespace Dsline

open LittleEndian

namespace SlotStorage

/-- `load_u64`. -/
def loadU64 (storage : SlotStorage) (offset : ℕ) : FileM ℕ := do
  let raw ← storage.readAt ⟨offset, 8⟩
  return leNat raw

/-- `store_u64`. -/
def storeU64 (storage : SlotStorage) (offset value : ℕ) : FileM Unit :=
  storage.writeAt offset (leBytes 8 value)

/-- `fetch_max_u64`. The file returns the word it left, the mapping the word
it found. -/
def fetchMaxU64 (storage : SlotStorage) (offset value : ℕ) : FileM ℕ := do
  let current ← storage.loadU64 offset
  match storage.backend with
  | .file =>
      if current < value then
        storage.storeU64 offset value
        return value
      return current
  | .mmap =>
      storage.storeU64 offset (max current value)
      return current

/-- `compare_exchange_u64`: a word, and whether it was exchanged. After an
exchange the file returns the new word, the mapping the old one. -/
def compareExchangeU64 (storage : SlotStorage) (offset expected new : ℕ) :
    FileM (ℕ × Bool) := do
  let current ← storage.loadU64 offset
  if current = expected then
    storage.storeU64 offset new
    match storage.backend with
    | .file => return (new, true)
    | .mmap => return (current, true)
  return (current, false)

end SlotStorage

namespace PersistentSlotRegion

/-! ## The shared words -/

/-- `load_head`. -/
def loadHead (region : PersistentSlotRegion) : FileM ℕ := region.storage.loadU64 CURSOR_HEAD_OFFSET

/-- `store_head`. -/
def storeHead (region : PersistentSlotRegion) (head : ℕ) : FileM Unit :=
  region.storage.storeU64 CURSOR_HEAD_OFFSET head

/-- `load_tail`. -/
def loadTail (region : PersistentSlotRegion) : FileM ℕ := region.storage.loadU64 CURSOR_TAIL_OFFSET

/-- `fetch_max_tail`. -/
def fetchMaxTail (region : PersistentSlotRegion) (tail : ℕ) : FileM ℕ :=
  region.storage.fetchMaxU64 CURSOR_TAIL_OFFSET tail

/-- `load_floor`. -/
def loadFloor (region : PersistentSlotRegion) : FileM ℕ := region.storage.loadU64 PIN_FLOOR_OFFSET

/-- `store_floor`. -/
def storeFloor (region : PersistentSlotRegion) (floor : ℕ) : FileM Unit :=
  region.storage.storeU64 PIN_FLOOR_OFFSET floor

/-- `compare_exchange_head`. -/
def compareExchangeHead (region : PersistentSlotRegion) (expected new : ℕ) : FileM (ℕ × Bool) :=
  region.storage.compareExchangeU64 CURSOR_HEAD_OFFSET expected new

/-- `compare_exchange_tail`. -/
def compareExchangeTail (region : PersistentSlotRegion) (expected new : ℕ) : FileM (ℕ × Bool) :=
  region.storage.compareExchangeU64 CURSOR_TAIL_OFFSET expected new

/-- The loop of `floor_min`: a lost exchange looks again. -/
def floorMinRounds (region : PersistentSlotRegion) (target : ℕ) : ℕ → FileM ℕ
  | 0 => region.loadFloor
  | rounds + 1 => do
      let current ← region.loadFloor
      if current ≠ PIN_FLOOR_NONE ∧ current ≤ target then
        return current
      let (_, ok) ← region.storage.compareExchangeU64 PIN_FLOOR_OFFSET current target
      if ok then
        return target
      floorMinRounds region target rounds

/-- `floor_min`. -/
def floorMin (region : PersistentSlotRegion) (target : ℕ) : FileM ℕ :=
  region.floorMinRounds target 32

/-- `floor_cas`. -/
def floorCas (region : PersistentSlotRegion) (expected target : ℕ) : FileM Bool := do
  let (_, ok) ← region.storage.compareExchangeU64 PIN_FLOOR_OFFSET expected target
  return ok

/-- `load_magic`. -/
def loadMagic (region : PersistentSlotRegion) : FileM UInt32 := do
  let raw ← region.storage.readAt ⟨MAGIC_OFFSET, 4⟩
  return .ofNat (leNat raw)

/-- `load_format`. -/
def loadFormat (region : PersistentSlotRegion) : FileM UInt32 := do
  let raw ← region.storage.readAt ⟨FORMAT_OFFSET, 4⟩
  return .ofNat (leNat raw)

/-- `publish_magic`: the format first. -/
def publishMagic (region : PersistentSlotRegion) (magic : UInt32) : FileM Unit := do
  region.storage.writeAt FORMAT_OFFSET (leBytes 4 REGION_FORMAT.toNat)
  region.storage.writeAt MAGIC_OFFSET (leBytes 4 magic.toNat)

/-! ## Slots -/

/-- `write_pinned_header`: the fields first, the identity magic last. -/
def writePinnedHeader (region : PersistentSlotRegion) (index : ℕ) (seq : UInt64)
    (payloadLen : ℕ) (identity : WriterIdentity) : FileM Unit := do
  region.storage.writeAt (region.slotOffset index)
    (encodeHeader .pinned seq payloadLen (some identity) false).image
  region.storage.writeAt (region.magicRange index).offset (leBytes 4 SLOT_IDENTITY_MAGIC.toNat)

/-- `peek_committed`. -/
def peekCommitted (region : PersistentSlotRegion) (index : ℕ) : FileM SlotSnapshot := do
  let header ← region.readHeader index
  if header.state ≠ .committed then
    throw (.ofChannel .bufferEmpty)
  let data ← region.readPayload index header.payloadLen.toNat
  return ⟨header.seq, data⟩

/-- `force_release_no_flush`. -/
def forceRelease (region : PersistentSlotRegion) (index : ℕ) : FileM Unit := do
  region.clearPayload index
  region.writeHeader index .free 0 0

/-- The decision `reclaim_dead_writing` and `reclaim_dead_pinned` share: two
header reads that agree, and an identity that is gone. -/
def reclaimDead (region : PersistentSlotRegion) (host : Host) (expected : SlotState)
    (index : ℕ) : FileM Bool := do
  let first ← region.readHeader index
  if first.state ≠ expected then
    return false
  match first.identity with
  | none => return false
  | some identity => do
      let second ← region.readHeader index
      if second.full ≠ first.full then
        return false
      if host.liveness identity.process ≠ .gone then
        return false
      region.forceRelease index
      return true

/-- `read_at`, and the window of `with_slice`, within a frame area. -/
def readFrame (region : PersistentSlotRegion) (index offset len : ℕ) : FileM Bytes :=
  region.storage.readAt (region.frameRange index offset len)

/-- `write_at` within a frame area. -/
def writeFrame (region : PersistentSlotRegion) (index offset : ℕ) (bytes : Bytes) : FileM Unit :=
  region.storage.writeAt (region.frameRange index offset bytes.length).offset bytes

/-! ## The pin floor -/

/-- The first of these cursors whose slot is PINNED, or the sentinel: the
loop of `scan_pin_floor` and of `unpin_floor`. -/
def firstPinned (region : PersistentSlotRegion) : List ℕ → FileM ℕ
  | [] => return PIN_FLOOR_NONE
  | cursor :: rest => do
      let header ← region.readHeader (cursor % region.storage.capacity)
      if header.state = .pinned then
        return cursor
      firstPinned region rest

/-- `scan_pin_floor`. -/
def scanPinFloor (region : PersistentSlotRegion) (tailC : ℕ) : FileM ℕ :=
  let lo := tailC - region.storage.capacity
  region.firstPinned (List.range' lo (tailC - lo))

/-- `unpin_floor`. -/
def unpinFloor (region : PersistentSlotRegion) (releasedCursor : ℕ) : FileM Unit := do
  let entryFloor ← region.loadFloor
  if entryFloor ≠ releasedCursor ∧ entryFloor ≠ PIN_FLOOR_NONE then
    return
  let tail ← region.loadTail
  let window := tail - region.storage.capacity
  let lo := if entryFloor = releasedCursor then releasedCursor + 1 else window
  let start := max lo window
  let next ← region.firstPinned (List.range' start (tail - start))
  if entryFloor ≠ next then
    let _ ← region.storage.compareExchangeU64 PIN_FLOOR_OFFSET entryFloor next

/-! ## Leases and views -/

/-- `ShmWriteLease::write`. -/
def writeLease (region : PersistentSlotRegion) (lease : ShmWriteLease) (offset : ℕ)
    (bytes : Bytes) : FileM Unit :=
  if lease.isSealed then
    throw (.ofChannel (.invalidConfig "buffer is sealed: publish() already committed it"))
  else if lease.payloadLen < offset ∨ lease.payloadLen - offset < bytes.length then
    throw (.ofChannel (.invalidConfig "write out of buffer bounds"))
  else region.writeFrame lease.index (FRAME_HEADER_LEN + offset) bytes

/-- `ShmRecvView::read`. -/
def readView (region : PersistentSlotRegion) (view : ShmRecvView) (offset len : ℕ) :
    FileM Bytes :=
  match view.checkUsable with
  | .error err => throw err
  | .ok () =>
      if view.payloadLen < offset ∨ view.payloadLen - offset < len then
        throw (.ofChannel (.invalidConfig "read out of view bounds"))
      else region.readFrame view.index (FRAME_HEADER_LEN + offset) len

/-- `ShmRecvView::read_all`. -/
def readAllView (region : PersistentSlotRegion) (view : ShmRecvView) : FileM Bytes :=
  match view.checkUsable with
  | .error err => throw err
  | .ok () => region.readFrame view.index FRAME_HEADER_LEN view.payloadLen

/-- `ShmRecvView::release`. -/
def releaseView (region : PersistentSlotRegion) (view : ShmRecvView) : FileM ShmRecvView :=
  match view.checkUsable with
  | .error err => throw err
  | .ok () => do
      region.releasePinned view.index
      region.unpinFloor view.cursorValue
      return { view with released := true }

/-- Dropping a view: errors of the release, and of the floor, are ignored. -/
def dropView (region : PersistentSlotRegion) (view : ShmRecvView) : FileM Unit := do
  if view.released then
    return
  let _ ← Simulation.attempt (region.releasePinned view.index)
  let _ ← Simulation.attempt (region.unpinFloor view.cursorValue)

end PersistentSlotRegion

/-! ## Every access a handle makes -/

/-- A call on a region. -/
inductive RegionCall where
  | loadHead
  | loadTail
  | loadFloor
  | loadMagic
  | loadFormat
  | storeHead (head : ℕ)
  | storeFloor (floor : ℕ)
  | fetchMaxTail (tail : ℕ)
  | compareExchangeHead (expected new : ℕ)
  | compareExchangeTail (expected new : ℕ)
  | floorMin (target : ℕ)
  | floorCas (expected target : ℕ)
  | publishMagic (magic : UInt32)
  | readHeader (index : ℕ)
  | writeHeader (index : ℕ) (state : SlotState) (seq : UInt64) (payloadLen : ℕ)
  | writeWritingHeader (index : ℕ) (seq : UInt64) (payloadLen : ℕ) (identity : WriterIdentity)
  | writePinnedHeader (index : ℕ) (seq : UInt64) (payloadLen : ℕ) (identity : WriterIdentity)
  | readFrame (index offset len : ℕ)
  | writeFrame (index offset : ℕ) (bytes : Bytes)
  | writeCommitted (index : ℕ) (seq : UInt64) (frame : Bytes) (stamp : WriterIdentity)
  | peekCommitted (index : ℕ)
  | readCommitted (index : ℕ)
  | releasePinned (index : ℕ)
  | forceRelease (index : ℕ)
  | reclaimDeadWriting (host : Host) (index : ℕ)
  | reclaimDeadPinned (host : Host) (index : ℕ)
  | scanPinFloor (tailC : ℕ)
  | unpinFloor (releasedCursor : ℕ)
  | writeLease (lease : ShmWriteLease) (offset : ℕ) (bytes : Bytes)
  | readView (view : ShmRecvView) (offset len : ℕ)
  | readAllView (view : ShmRecvView)
  | releaseView (view : ShmRecvView)
  | dropView (view : ShmRecvView)

/-- What a call returns. -/
inductive RegionAnswer where
  | done
  | word (value : ℕ)
  | flag (value : Bool)
  | exchange (found : ℕ) (exchanged : Bool)
  | header (header : SlotHeader)
  | bytes (bytes : Bytes)
  | snapshot (snapshot : SlotSnapshot)
  | view (view : ShmRecvView)
  deriving DecidableEq, Repr

namespace RegionCall

/-- **A call over the bytes of the file.** -/
def onFile (region : PersistentSlotRegion) : RegionCall → FileM RegionAnswer
  | loadHead => return .word (← region.loadHead)
  | loadTail => return .word (← region.loadTail)
  | loadFloor => return .word (← region.loadFloor)
  | loadMagic => return .word (← region.loadMagic).toNat
  | loadFormat => return .word (← region.loadFormat).toNat
  | storeHead head => do region.storeHead head; return .done
  | storeFloor floor => do region.storeFloor floor; return .done
  | fetchMaxTail tail => return .word (← region.fetchMaxTail tail)
  | compareExchangeHead expected new => do
      let (found, ok) ← region.compareExchangeHead expected new
      return .exchange found ok
  | compareExchangeTail expected new => do
      let (found, ok) ← region.compareExchangeTail expected new
      return .exchange found ok
  | floorMin target => return .word (← region.floorMin target)
  | floorCas expected target => return .flag (← region.floorCas expected target)
  | publishMagic magic => do region.publishMagic magic; return .done
  | readHeader index => return .header (← region.readHeader index)
  | writeHeader index state seq payloadLen => do
      region.writeHeader index state seq payloadLen; return .done
  | writeWritingHeader index seq payloadLen identity => do
      region.writeWritingHeader index seq payloadLen identity; return .done
  | writePinnedHeader index seq payloadLen identity => do
      region.writePinnedHeader index seq payloadLen identity; return .done
  | readFrame index offset len => return .bytes (← region.readFrame index offset len)
  | writeFrame index offset bytes => do region.writeFrame index offset bytes; return .done
  | writeCommitted index seq frame stamp => do
      region.writeCommitted index seq frame (some stamp); return .done
  | peekCommitted index => return .snapshot (← region.peekCommitted index)
  | readCommitted index => return .snapshot (← region.readCommitted index)
  | releasePinned index => do region.releasePinned index; return .done
  | forceRelease index => do region.forceRelease index; return .done
  | reclaimDeadWriting host index => return .flag (← region.reclaimDead host .writing index)
  | reclaimDeadPinned host index => return .flag (← region.reclaimDead host .pinned index)
  | scanPinFloor tailC => return .word (← region.scanPinFloor tailC)
  | unpinFloor releasedCursor => do region.unpinFloor releasedCursor; return .done
  | writeLease lease offset bytes => do region.writeLease lease offset bytes; return .done
  | readView view offset len => return .bytes (← region.readView view offset len)
  | readAllView view => return .bytes (← region.readAllView view)
  | releaseView view => return .view (← region.releaseView view)
  | dropView view => do region.dropView view; return .done

/-- A call that reads the region. -/
def reads (f : Region → RegionAnswer) : RegionM RegionAnswer := return f (← get)

/-- A call that changes the region. -/
def changes (f : Region → Region) : RegionM RegionAnswer := do modify f; return .done

/-- A call that returns a word and changes the region. -/
def updates (f : Region → ℕ) (g : Region → Region) : RegionM RegionAnswer := do
  let found := f (← get)
  modify g
  return .word found

/-- A call that exchanges a word, or returns what it found there. -/
def exchanges (f : Region → ℕ) (g : Region → Region × Bool) : RegionM RegionAnswer := do
  let region ← get
  set (g region).1
  return .exchange (f region) (g region).2

/-- Bytes read from the region, or a failure. -/
def computes (f : Region → Except Failure Bytes) : RegionM Bytes := do
  match f (← get) with
  | .ok bytes => return bytes
  | .error err => throw err

/-- **A call over the words and the slots.** -/
def onRegion : RegionCall → RegionM RegionAnswer
  | loadHead => reads fun r => .word r.head
  | loadTail => reads fun r => .word r.tail
  | loadFloor => reads fun r => .word r.pinFloor
  | loadMagic => reads fun r => .word r.magic.toNat
  | loadFormat => reads fun r => .word r.format.toNat
  | storeHead head => changes fun r => r.storeHead head
  | storeFloor floor => changes fun r => { r with pinFloor := floor }
  | fetchMaxTail tail => updates (fun r => r.tail) fun r => r.fetchMaxTail tail
  | compareExchangeHead expected new =>
      exchanges (fun r => r.head) fun r => r.compareExchangeHead expected new
  | compareExchangeTail expected new =>
      exchanges (fun r => r.tail) fun r => r.compareExchangeTail expected new
  | floorMin target =>
      updates (fun r => (r.floorMin target).pinFloor) fun r => r.floorMin target
  | floorCas expected target => do
      let region ← get
      set (region.floorCas expected target)
      return .flag (region.pinFloor = expected)
  | publishMagic magic => changes fun r => { r with format := REGION_FORMAT, magic }
  | readHeader index => reads fun r => .header (r.header index)
  | writeHeader index state seq payloadLen =>
      changes fun r => r.writeHeader index state seq payloadLen
  | writeWritingHeader index seq payloadLen identity =>
      changes fun r => r.writeWritingHeader index seq payloadLen identity
  | writePinnedHeader index seq payloadLen identity =>
      changes fun r => r.writePinnedHeader index seq payloadLen identity
  | readFrame index offset len => reads fun r => .bytes ((r.slots index).payload.read offset len)
  | writeFrame index offset bytes => changes fun r => r.setPayload index offset bytes
  | writeCommitted index seq frame stamp => do
      Region.writeCommittedNoFlush index seq frame stamp; return .done
  | peekCommitted index => return .snapshot (← Region.peekCommitted index)
  | readCommitted index => return .snapshot (← Region.readCommitted index)
  | releasePinned index => do Region.releasePinned index; return .done
  | forceRelease index => changes fun r => r.forceRelease index
  | reclaimDeadWriting host index => return .flag (← Region.reclaimDeadWriting host index)
  | reclaimDeadPinned host index => return .flag (← Region.reclaimDeadPinned host index)
  | scanPinFloor tailC => reads fun r => .word (r.scanPinFloor tailC)
  | unpinFloor releasedCursor => changes fun r => r.unpinFloor releasedCursor
  | writeLease lease offset bytes => do lease.write offset bytes; return .done
  | readView view offset len => return .bytes (← computes fun r => view.read r offset len)
  | readAllView view => return .bytes (← computes fun r => view.readAll r)
  | releaseView view => return .view (← view.release)
  | dropView view => changes fun r => view.drop r

/-- A run of calls, and what each of them returns or fails with. -/
def serve {σ : Type} (perform : RegionCall → EStateM Failure σ RegionAnswer)
    (calls : List RegionCall) : EStateM Failure σ (List (Except Failure RegionAnswer)) :=
  calls.mapM fun call => Simulation.attempt (perform call)

/-- **A call a handle can make**: a slot of the ring, words of 64 bits, and
bytes of the frame area. -/
def InRange (capacity frameCapacity : ℕ) : RegionCall → Prop
  | loadHead | loadTail | loadFloor | loadMagic | loadFormat | publishMagic _
  | scanPinFloor _ | unpinFloor _ => True
  | storeHead value | storeFloor value | fetchMaxTail value | compareExchangeHead _ value
  | compareExchangeTail _ value | floorMin value | floorCas _ value => value < wordCount
  | readHeader index | writeHeader index _ _ _ | writeWritingHeader index _ _ _
  | writePinnedHeader index _ _ _ | writeCommitted index _ _ _ | peekCommitted index
  | readCommitted index | releasePinned index | forceRelease index
  | reclaimDeadWriting _ index | reclaimDeadPinned _ index => index < capacity
  | readFrame index offset len => index < capacity ∧ offset + len ≤ frameCapacity
  | writeFrame index offset bytes => index < capacity ∧ offset + bytes.length ≤ frameCapacity
  | writeLease lease _ _ =>
      lease.index < capacity ∧ FRAME_HEADER_LEN + lease.payloadLen ≤ frameCapacity
  | readView view _ _ | readAllView view =>
      view.index < capacity ∧ FRAME_HEADER_LEN + view.payloadLen ≤ frameCapacity
  | releaseView view | dropView view => view.index < capacity

end RegionCall

end Dsline
