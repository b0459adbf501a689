import Dsline.Shm.Receive
import Dsline.Shm.Region
/-!
# The persistent channel: handle, cursors, recovery

A handle keeps its own indices, mirrors of the shared words, and two
sequence counters. A call runs on the handle and the region together and
nothing else runs meanwhile, so a bounded poll sees the same header at
every look. Steps that several actors interleave are built from the same
pure parts (`withCursors`, `cursorLen`, `guardLen`).
-/

namespace Dsline

/-- `PERSISTENT_SLOT_HEADER_LEN`. -/
abbrev PERSISTENT_SLOT_HEADER_LEN : ℕ := 48

abbrev REGION_HEADER_LEN : ℕ := 32

abbrev POLL_LIMIT : ℕ := 256

structure PersistentShmChannel where
  config : SpscConfig
  /-- The producer's next write index. -/
  head : ℕ
  /-- The next read index. -/
  tail : ℕ
  len : ℕ
  headCursor : ℕ
  tailCursor : ℕ
  floorCursor : ℕ
  /-- Crash leftovers the cursors do not count. -/
  recoveryBias : ℕ
  writer : ProcessIdentity
  writerEpoch : UInt32
  reclaimedSlots : ℕ
  resyncExpected : Bool
  nextSeq : UInt64
  expectedRecvSeq : UInt64
  lastReceivedSeq : Option UInt64
  closed : Bool
  deriving DecidableEq, Repr

/-- A handle and the region it shares. -/
structure World where
  chan : PersistentShmChannel
  region : Region

abbrev ChannelM := EStateM Failure World

/-- `ProcessIdentity::stamp`. -/
def ProcessIdentity.stamp (host : Host) (identity : ProcessIdentity) (epoch : UInt32)
    (reservedSlots : ℕ) : WriterIdentity where
  pid := identity.pid
  startTime := identity.startTime
  epoch
  timestampNs := host.now
  reservedSlots := UInt32.ofNat reservedSlots

/-- Run a region operation. -/
def onRegion {α : Type} (op : RegionM α) : ChannelM α := fun w =>
  match op w.region with
  | .ok a region => .ok a { w with region }
  | .error err region => .error err { w with region }

def modifyChan (f : PersistentShmChannel → PersistentShmChannel) : ChannelM Unit :=
  modify fun w => { w with chan := f w.chan }

def modifyRegion (f : Region → Region) : ChannelM Unit :=
  modify fun w => { w with region := f w.region }

/-- The queue depth two cursors announce: head ahead, tail ahead (orphans),
or none where they are inconsistent. -/
def cursorLen (capacity head tail : ℕ) : Option ℕ :=
  let fwd := wrappingSub head tail
  let back := wrappingSub tail head
  if fwd ≤ capacity then some fwd else if back ≤ capacity then some 0 else none

/-- `ring cursors are inconsistent`. -/
def inconsistentCursors : Failure := .ofChannel (.invalidConfig "ring cursors are inconsistent")

namespace PersistentShmChannel

/-- Mirror the shared words. -/
def withCursors (chan : PersistentShmChannel) (head tail floor : ℕ) : PersistentShmChannel :=
  { chan with
    headCursor := head
    tailCursor := tail
    floorCursor := floor
    tail := tail % chan.config.capacity }

/-- `guard_len`. -/
def guardLen (chan : PersistentShmChannel) : ℕ :=
  let floorEff :=
    if chan.floorCursor = PIN_FLOOR_NONE then chan.tailCursor
    else min chan.floorCursor chan.tailCursor
  min (chan.headCursor - floorEff + chan.recoveryBias) chan.config.capacity

/-- `capacity - guard_len() >= needed_slots`. -/
def admits (chan : PersistentShmChannel) (neededSlots : ℕ) : Prop :=
  neededSlots ≤ chan.config.capacity - chan.guardLen

instance (chan : PersistentShmChannel) (neededSlots : ℕ) : Decidable (chan.admits neededSlots) :=
  inferInstanceAs (Decidable (_ ≤ _))

/-- A slot the handle just left behind was an orphan: the cursors did not
count it. -/
def orphan (chan : PersistentShmChannel) : Bool :=
  let fwd := wrappingSub chan.headCursor chan.tailCursor
  fwd = 0 || chan.config.capacity < fwd

/-- Step the read index and the mirrored tail over one slot. -/
def stepTail (chan : PersistentShmChannel) : PersistentShmChannel :=
  { chan with
    tail := (chan.tail + 1) % chan.config.capacity
    tailCursor := wrappingAdd chan.tailCursor 1
    len := chan.len - 1
    recoveryBias := if chan.orphan then chan.recoveryBias - 1 else chan.recoveryBias }

/-- A handle before its recovery scan. -/
def fresh (host : Host) (config : SpscConfig) : PersistentShmChannel where
  config
  head := 0
  tail := 0
  len := 0
  headCursor := 0
  tailCursor := 0
  floorCursor := PIN_FLOOR_NONE
  recoveryBias := 0
  writer := host.identity
  writerEpoch := host.epoch
  reclaimedSlots := 0
  resyncExpected := false
  nextSeq := 0
  expectedRecvSeq := 0
  lastReceivedSeq := none
  closed := false

/-! ## Cursors -/

/-- `refresh_cursors`. -/
def refreshCursors : ChannelM Unit := do
  let w ← get
  let chan := w.chan.withCursors w.region.head w.region.tail w.region.pinFloor
  set { w with chan }
  match cursorLen chan.config.capacity chan.headCursor chan.tailCursor with
  | none => throw inconsistentCursors
  | some depth =>
      modifyChan fun c => { c with len := min (depth + c.recoveryBias) c.config.capacity }

/-- `poll_tail_committed`, `rounds` looks. -/
def pollTailCommittedFor : ℕ → ChannelM Bool
  | 0 => return false
  | rounds + 1 => do
      let w ← get
      if w.region.state w.chan.tail = .committed then
        return true
      if w.chan.closed then
        throw (.ofChannel .closed)
      pollTailCommittedFor rounds

/-- `poll_tail_committed`. -/
def pollTailCommitted : ChannelM Bool := pollTailCommittedFor POLL_LIMIT

/-- `tail_committed`. -/
def tailCommitted : ChannelM Bool := do
  let w ← get
  return w.region.state w.chan.tail = .committed

/-! ## Reclaim at the tail -/

/-- The run of reclaimable WRITING slots from `index` on: how many were
freed. -/
def reclaimRun (host : Host) : ℕ → ℕ → RegionM ℕ
  | 0, _ => return 0
  | rounds + 1, index => do
      let region ← get
      if region.state index ≠ .writing then
        return 0
      if ← Region.reclaimDeadWriting host index then
        return 1 + (← reclaimRun host rounds ((index + 1) % region.capacity))
      else
        return 0

/-- `try_reclaim_at_tail_spsc`. -/
def tryReclaimAtTailSpsc (host : Host) : ChannelM ℕ := do
  let w ← get
  let cap := w.chan.config.capacity
  let fwd := wrappingSub w.chan.headCursor w.chan.tailCursor
  if fwd ≠ 0 ∧ fwd ≤ cap then
    return 0
  let freed ← onRegion (reclaimRun host cap w.chan.tail)
  if freed = 0 then
    return 0
  modifyChan fun c =>
    { c with
      recoveryBias := c.recoveryBias - freed
      reclaimedSlots := c.reclaimedSlots + freed
      resyncExpected := true
      len := c.len - freed }
  return freed

/-- A slot an extent may cross: never written, or WRITING by the same
process. -/
def crossable (identity : WriterIdentity) (header : SlotHeader) : Bool :=
  match header.state with
  | .free => true
  | .writing =>
      match header.identity with
      | some sid => sid.pid == identity.pid && sid.startTime == identity.startTime
      | none => false
  | _ => false

/-- Force-release `extent` slots from `index` on. -/
def releaseExtent : ℕ → ℕ → Region → Region
  | 0, _, region => region
  | extent + 1, index, region =>
      releaseExtent extent ((index + 1) % region.capacity) (region.forceRelease index)

/-- The extent `try_reclaim_at_tail_mpsc` may free: the reservation the tail
slot's own header records, where its writer is gone, it lies in the window,
and every slot of it may be crossed. -/
def reclaimExtent (host : Host) (w : World) : Option ℕ :=
  let cap := w.chan.config.capacity
  let window := wrappingSub w.chan.headCursor w.chan.tailCursor
  let first := w.region.header w.chan.tail
  if window = 0 ∨ cap < window then none
  else if first.state ≠ .writing then none
  else
    match first.identity with
    | none => none
    | some identity =>
        if host.liveness identity.process ≠ .gone then none
        else
          let extent := identity.reservedSlots.toNat
          if extent = 0 ∨ window < extent then none
          else if (List.range extent).all fun k =>
              crossable identity (w.region.header ((w.chan.tail + k) % cap)) then some extent
          else none

/-- `try_reclaim_at_tail_mpsc`. -/
def tryReclaimAtTailMpsc (host : Host) : ChannelM ℕ := do
  let w ← get
  match reclaimExtent host w with
  | none => return 0
  | some extent =>
      modifyRegion (releaseExtent extent w.chan.tail)
      let (region, ok) := (← get).region.compareExchangeTail w.chan.tailCursor
        (w.chan.tailCursor + extent)
      modifyRegion fun _ => region
      if ¬ ok then
        return 0
      modifyChan fun c =>
        { c with
          tailCursor := w.chan.tailCursor + extent
          tail := (w.chan.tailCursor + extent) % c.config.capacity
          reclaimedSlots := c.reclaimedSlots + extent
          resyncExpected := true
          len := c.len - extent }
      return extent

/-- `try_reclaim_at_tail`. -/
def tryReclaimAtTail (host : Host) : ChannelM ℕ := do
  if (← get).chan.config.multiProducer then tryReclaimAtTailMpsc host
  else tryReclaimAtTailSpsc host

/-! ## Recovery at open -/

/-- Reclaim every slot of the list that can be: how many were freed. -/
def reclaimEach (reclaim : ℕ → RegionM Bool) : List ℕ → RegionM ℕ
  | [] => return 0
  | index :: indices => do
      let freed ← reclaim index
      return (if freed then 1 else 0) + (← reclaimEach reclaim indices)

/-- Whether a header counts as occupied. -/
def isOccupied (state : SlotState) : Bool :=
  match state with
  | .committed | .pinned | .writing => true
  | _ => false

/-- `occupied_slot_headers`. -/
def occupiedSlotHeaders (region : Region) (capacity : ℕ) : List SlotHeader :=
  ((List.range capacity).map region.header).filter fun header => isOccupied header.state

/-- `infer_head_from_tail`, `rounds` slots from `head` on. -/
def inferHeadFrom (region : Region) (capacity tail : ℕ) : ℕ → ℕ → ℕ
  | 0, head => head
  | rounds + 1, head =>
      if region.state head = .free then head
      else
        let next := (head + 1) % capacity
        if next = tail then next else inferHeadFrom region capacity tail rounds next

/-- `infer_head_from_tail`. -/
def inferHeadFromTail (region : Region) (capacity tail : ℕ) : ℕ :=
  inferHeadFrom region capacity tail capacity tail

/-- Rebuild the floor word from the pins behind the tail. -/
def rebuildFloor : ChannelM Unit := do
  modifyRegion fun region =>
    let floor := region.scanPinFloor region.tail
    if region.pinFloor ≠ floor then region.floorCas region.pinFloor floor else region
  modify fun w => { w with chan := { w.chan with floorCursor := w.region.pinFloor } }

/-- Continue after the newest occupied sequence. -/
def continueSeq (nextSeq : UInt64) (occupied : List SlotHeader) : UInt64 :=
  occupied.foldl (fun next header =>
    if sequencePrecedes next (header.seq + 1) then header.seq + 1 else next) nextSeq

/-- The writers' part of `recover_from_storage`: dead WRITING slots are
freed in single-producer mode, before the scan. -/
def reclaimWriters (host : Host) : ChannelM Unit := do
  let w ← get
  if w.chan.config.multiProducer then
    return ()
  let freed ← onRegion
    (reclaimEach (Region.reclaimDeadWriting host) (List.range w.chan.config.capacity))
  modifyChan fun c =>
    { c with
      reclaimedSlots := c.reclaimedSlots + freed
      resyncExpected := c.resyncExpected || freed != 0 }

/-- The readers' part: dead pins are freed in both modes. -/
def reclaimReaders (host : Host) : ChannelM Unit := do
  let w ← get
  let freed ← onRegion
    (reclaimEach (Region.reclaimDeadPinned host) (List.range w.chan.config.capacity))
  modifyChan fun c => { c with reclaimedSlots := c.reclaimedSlots + freed }

/-- What the scan finds out about a region: the handle over it. -/
def rebuilt (region : Region) (depth : ℕ) (chan : PersistentShmChannel) :
    PersistentShmChannel :=
  let cap := chan.config.capacity
  let occupied := occupiedSlotHeaders region cap
  let tailIndex := region.tail % cap
  let pinnedCount := occupied.countP fun header => header.state = .pinned
  let biasPool :=
    if wrappingSub region.head region.tail ≤ cap then occupied.length - pinnedCount
    else occupied.length
  let bias := biasPool - depth
  let readable := occupied.any fun header => header.state != .writing
  { chan with
    headCursor := region.head
    tailCursor := region.tail
    tail := tailIndex
    head := inferHeadFromTail region cap tailIndex
    recoveryBias := bias
    len := min (depth + bias) cap
    nextSeq := continueSeq chan.nextSeq occupied
    expectedRecvSeq := if readable then (region.header tailIndex).seq else 0
    resyncExpected := chan.resyncExpected || !readable }

/-- `recover_from_storage`. -/
def recoverFromStorage (host : Host) : ChannelM Unit := do
  reclaimWriters host
  reclaimReaders host
  rebuildFloor
  let w ← get
  match cursorLen w.chan.config.capacity w.region.head w.region.tail with
  | none => throw inconsistentCursors
  | some depth => modifyChan (rebuilt w.region depth)

/-! ## Creating and opening -/

/-- `persistent_region_slot_size`. -/
def persistentRegionSlotSize (config : SpscConfig) : Except Failure ℕ :=
  match (checkedAdd config.slotSize FRAME_HEADER_LEN).bind
      fun v => checkedAdd v PERSISTENT_SLOT_HEADER_LEN with
  | some size => .ok size
  | none => .error (.ofChannel (.invalidConfig "slot_size is too large"))

/-- `PersistentSlotRegion::total_len`. -/
def totalLen (capacity slotSize : ℕ) : Except Failure ℕ :=
  match (checkedMul capacity slotSize).bind fun v => checkedAdd v REGION_HEADER_LEN with
  | some len => .ok len
  | none => .error (.ofChannel (.invalidConfig "storage size overflow"))

/-- `set_len` of the file behind a region: a file length is an `i64`. -/
def setLen (len : ℕ) : Except Failure Unit :=
  if isizeMax < len then .error (.ofChannel (.storageIo "resize mmap storage")) else .ok ()

/-- The zero-filled backing store of a region. -/
def storage (capacity slotSize : ℕ) : Region where
  capacity
  frameCapacity := slotSize - PERSISTENT_SLOT_HEADER_LEN
  head := 0
  tail := 0
  magic := 0
  format := 0
  pinFloor := 0
  slots := fun _ => .empty

/-- `initialize_region` on a store no one initialized. -/
def initializeRegion (config : SpscConfig) (region : Region) : Region :=
  let region := (List.range config.capacity).foldl (fun r i => r.writeHeader i .free 0 0) region
  { region with
    pinFloor := PIN_FLOOR_NONE
    format := REGION_FORMAT
    magic := regionMagic config.multiProducer }

/-- `PersistentShmChannel::create`, where the file can be had. -/
def create (host : Host) (config : SpscConfig) : Except Failure World := do
  config.validate
  let slotSize ← persistentRegionSlotSize config
  let len ← totalLen config.capacity slotSize
  setLen len
  return {
    chan := fresh host config
    region := initializeRegion config (storage config.capacity slotSize) }

/-- `wait_initialized` on a region whose creator is done. -/
def waitInitialized (region : Region) (expected : UInt32) : Except Failure Unit :=
  if region.magic = expected then
    if region.format ≠ REGION_FORMAT then
      .error (.ofChannel (.invalidConfig
        "unsupported region format (delete stale dsline region files)"))
    else .ok ()
  else if region.magic ≠ 0 then
    .error (.ofChannel (.invalidConfig
      "region channel mode mismatch (all processes must agree on multi_producer)"))
  else .error (.ofChannel (.invalidConfig "region is not initialized"))

/-- `PersistentShmChannel::open` of an existing region. The region an open
leaves counts even where the open fails. -/
def «open» (host : Host) (config : SpscConfig) (region : Region) :
    EStateM.Result Failure World Unit :=
  let w : World := { chan := fresh host config, region }
  match (do
    config.validate
    let slotSize ← persistentRegionSlotSize config
    let _ ← totalLen config.capacity slotSize
    waitInitialized region (regionMagic config.multiProducer)) with
  | .error err => .error err w
  | .ok () => recoverFromStorage host w

/-- `close`. -/
def close : ChannelM Unit := modifyChan fun c => { c with closed := true }

end PersistentShmChannel

end Dsline
