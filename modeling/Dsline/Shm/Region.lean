import Dsline.Core.Frame
import Dsline.Shm.Slot
/-!
# The persistent region

The shared words (head, tail, pin floor, magic, format) and the slots. A
flush has no effect on a coherent mapping, so an operation and its
`_no_flush` form are one definition here. Single writes are functions on
the region; the operations that check a state first run in `RegionM`.
-/

namespace Dsline

def REGION_FORMAT : UInt32 := 4
def REGION_MAGIC : UInt32 := 0x31534c44
def REGION_MAGIC_MPSC : UInt32 := 0x32534c44

/-- The `pin_floor` sentinel: no views are pinned. -/
def PIN_FLOOR_NONE : ℕ := wordCount - 1

/-- `region_magic`. -/
def regionMagic (multiProducer : Bool) : UInt32 :=
  if multiProducer then REGION_MAGIC_MPSC else REGION_MAGIC

structure Region where
  capacity : ℕ
  /-- Usable frame space of a slot. -/
  frameCapacity : ℕ
  head : ℕ
  tail : ℕ
  magic : UInt32
  format : UInt32
  pinFloor : ℕ
  slots : ℕ → Slot

abbrev RegionM := EStateM Failure Region

namespace Region

/-- `read_header_full`. -/
def header (region : Region) (index : ℕ) : SlotHeader := (region.slots index).header

/-- `state`. -/
def state (region : Region) (index : ℕ) : SlotState := (region.header index).state

/-- The bytes a header read announces, `payload_len as usize`. -/
def payloadLen (region : Region) (index : ℕ) : ℕ := (region.header index).payloadLen.toNat

/-- `read_payload`, where the length is within the frame capacity. -/
def payload (region : Region) (index len : ℕ) : Bytes := (region.slots index).payload.read 0 len

/-! ## Single writes -/

def setSlot (region : Region) (index : ℕ) (slot : Slot) : Region :=
  { region with slots := fun i => if i = index then slot else region.slots i }

/-- Write a header image. -/
def setHeader (region : Region) (index : ℕ) (header : SlotHeader) : Region :=
  region.setSlot index { region.slots index with header }

/-- Write into the frame area. -/
def setPayload (region : Region) (index offset : ℕ) (bytes : Bytes) : Region :=
  region.setSlot index
    { region.slots index with payload := (region.slots index).payload.write offset bytes }

/-- `clear_payload`. -/
def clearPayload (region : Region) (index : ℕ) : Region :=
  region.setSlot index
    { region.slots index with payload := (region.slots index).payload.clear region.frameCapacity }

/-- `write_header`: no identity. -/
def writeHeader (region : Region) (index : ℕ) (state : SlotState) (seq : UInt64)
    (payloadLen : ℕ) : Region :=
  region.setHeader index (encodeHeader state seq payloadLen none false)

/-- The last write of an identity header: its magic. -/
def publishIdentity (region : Region) (index : ℕ) : Region :=
  region.setHeader index { region.header index with identityMagic := SLOT_IDENTITY_MAGIC }

/-- `write_writing_header`: the fields first, then the magic. -/
def writeWritingHeader (region : Region) (index : ℕ) (seq : UInt64) (payloadLen : ℕ)
    (identity : WriterIdentity) : Region :=
  (region.setHeader index
    (encodeHeader .writing seq payloadLen (some identity) false)).publishIdentity index

/-- `write_pinned_header`. -/
def writePinnedHeader (region : Region) (index : ℕ) (seq : UInt64) (payloadLen : ℕ)
    (identity : WriterIdentity) : Region :=
  (region.setHeader index
    (encodeHeader .pinned seq payloadLen (some identity) false)).publishIdentity index

/-- `force_release_no_flush`: clear the frame area, then write FREE. -/
def forceRelease (region : Region) (index : ℕ) : Region :=
  (region.clearPayload index).writeHeader index .free 0 0

/-- `store_head`. -/
def storeHead (region : Region) (head : ℕ) : Region := { region with head }

/-- `fetch_max_tail`. -/
def fetchMaxTail (region : Region) (tail : ℕ) : Region :=
  { region with tail := max region.tail tail }

/-- `compare_exchange_head`. -/
def compareExchangeHead (region : Region) (expected new : ℕ) : Region × Bool :=
  if region.head = expected then ({ region with head := new }, true) else (region, false)

/-- `compare_exchange_tail`. -/
def compareExchangeTail (region : Region) (expected new : ℕ) : Region × Bool :=
  if region.tail = expected then ({ region with tail := new }, true) else (region, false)

/-- `floor_min`: with no other actor the first exchange succeeds. -/
def floorMin (region : Region) (target : ℕ) : Region :=
  if region.pinFloor ≠ PIN_FLOOR_NONE ∧ region.pinFloor ≤ target then region
  else { region with pinFloor := target }

/-- `floor_cas`. -/
def floorCas (region : Region) (expected target : ℕ) : Region :=
  if region.pinFloor = expected then { region with pinFloor := target } else region

/-- The first cursor of `[lo, hi)` whose slot is PINNED, or the sentinel. -/
def firstPinned (region : Region) (lo hi : ℕ) : ℕ :=
  ((List.range' lo (hi - lo)).find? fun cursor =>
    region.state (cursor % region.capacity) = .pinned).getD PIN_FLOOR_NONE

/-- `scan_pin_floor`. -/
def scanPinFloor (region : Region) (tailC : ℕ) : ℕ :=
  region.firstPinned (tailC - region.capacity) tailC

/-- `unpin_floor`: only the floor's owner rescans, from the next cursor on;
a floor raised over a live pin rescans the window. -/
def unpinFloor (region : Region) (releasedCursor : ℕ) : Region :=
  let entryFloor := region.pinFloor
  if entryFloor ≠ releasedCursor ∧ entryFloor ≠ PIN_FLOOR_NONE then region
  else
    let window := region.tail - region.capacity
    let lo := if entryFloor = releasedCursor then releasedCursor + 1 else window
    let next := region.firstPinned (max lo window) region.tail
    if entryFloor ≠ next then region.floorCas entryFloor next else region

/-! ## Checked operations -/

/-- `write_committed_no_flush`: WRITING with the stamp, the frame, then
COMMITTED. A frame over the frame capacity leaves the slot WRITING. -/
def writeCommittedNoFlush (index : ℕ) (seq : UInt64) (frame : Bytes) (stamp : WriterIdentity) :
    RegionM Unit := do
  let region ← get
  if region.state index ≠ .free then
    throw (.ofChannel .bufferFull)
  set (region.writeWritingHeader index seq frame.length stamp)
  if region.frameCapacity < frame.length then
    throw (.ofChannel (.messageTooLarge frame.length region.frameCapacity))
  modify fun r => r.setPayload index 0 frame
  modify fun r => r.writeHeader index .committed seq frame.length

/-- `peek_committed`. -/
def peekCommitted (index : ℕ) : RegionM SlotSnapshot := do
  let region ← get
  if region.state index ≠ .committed then
    throw (.ofChannel .bufferEmpty)
  let len := region.payloadLen index
  if region.frameCapacity < len then
    throw (.ofChannel (.messageTooLarge len region.frameCapacity))
  return { seq := (region.header index).seq, data := region.payload index len }

/-- `read_committed`: a peek that leaves the slot PINNED. -/
def readCommitted (index : ℕ) : RegionM SlotSnapshot := do
  let snapshot ← peekCommitted index
  modify fun r => r.writeHeader index .pinned snapshot.seq (r.payloadLen index)
  return snapshot

/-- `release_pinned`. -/
def releasePinned (index : ℕ) : RegionM Unit := do
  let region ← get
  if region.state index ≠ .pinned then
    throw (.ofChannel (.invalidConfig "slot is not pinned"))
  set (region.forceRelease index)

/-- The decision `reclaim_dead_writing` and `reclaim_dead_pinned` share: a
slot in the given state whose published identity is gone is freed. The two
header reads agree where nothing else runs. -/
def reclaimDead (host : Host) (expected : SlotState) (index : ℕ) : RegionM Bool := do
  let region ← get
  let first := region.header index
  if first.state ≠ expected then
    return false
  match first.identity with
  | none => return false
  | some identity =>
      if host.liveness identity.process ≠ .gone then
        return false
      set (region.forceRelease index)
      return true

/-- `reclaim_dead_writing`. -/
def reclaimDeadWriting (host : Host) (index : ℕ) : RegionM Bool := reclaimDead host .writing index

/-- `reclaim_dead_pinned`. -/
def reclaimDeadPinned (host : Host) (index : ℕ) : RegionM Bool := reclaimDead host .pinned index

end Region

/-! ## Zero-copy leases and views -/

/-- A producer's lease of one slot's payload area. -/
structure ShmWriteLease where
  index : ℕ
  seq : UInt64
  payloadLen : ℕ
  isSealed : Bool
  deriving DecidableEq, Repr

/-- `ShmWriteLease::write`. The payload area starts behind the frame header. -/
def ShmWriteLease.write (lease : ShmWriteLease) (offset : ℕ) (bytes : Bytes) : RegionM Unit :=
  if lease.isSealed then
    throw (.ofChannel (.invalidConfig "buffer is sealed: publish() already committed it"))
  else if lease.payloadLen < offset ∨ lease.payloadLen - offset < bytes.length then
    throw (.ofChannel (.invalidConfig "write out of buffer bounds"))
  else
    modify fun region => region.setPayload lease.index (FRAME_HEADER_LEN + offset) bytes

/-- A consumer's view of one pinned slot's payload. -/
structure ShmRecvView where
  index : ℕ
  seq : UInt64
  payloadLen : ℕ
  cursorValue : ℕ
  released : Bool
  deriving DecidableEq, Repr

namespace ShmRecvView

/-- `check_usable`. -/
def checkUsable (view : ShmRecvView) : Except Failure Unit :=
  if view.released then .error (.ofChannel (.invalidConfig "view is already released"))
  else .ok ()

/-- `ShmRecvView::read`. -/
def read (view : ShmRecvView) (region : Region) (offset len : ℕ) : Except Failure Bytes := do
  view.checkUsable
  if view.payloadLen < offset ∨ view.payloadLen - offset < len then
    throw (.ofChannel (.invalidConfig "read out of view bounds"))
  return (region.slots view.index).payload.read (FRAME_HEADER_LEN + offset) len

/-- `ShmRecvView::read_all`. -/
def readAll (view : ShmRecvView) (region : Region) : Except Failure Bytes := do
  view.checkUsable
  return (region.slots view.index).payload.read FRAME_HEADER_LEN view.payloadLen

/-- `ShmRecvView::release`. -/
def release (view : ShmRecvView) : RegionM ShmRecvView :=
  match view.checkUsable with
  | .error err => throw err
  | .ok () => do
      Region.releasePinned view.index
      modify fun region => region.unpinFloor view.cursorValue
      return { view with released := true }

/-- Dropping an unreleased view: the same release, its errors ignored. -/
def drop (view : ShmRecvView) (region : Region) : Region :=
  if view.released then region
  else
    let region := match Region.releasePinned view.index region with
      | .ok _ region => region
      | .error _ region => region
    region.unpinFloor view.cursorValue

end ShmRecvView

end Dsline
