import Dsline.Core.Config
import Dsline.Core.Frame
import Dsline.Library.Effect
/-!
# The prototype ring

`SpscBytesRing`: a queue of whole frames, one for each message. One handle
sends and receives, so a wait for space sees the same ring at every look.
-/

namespace Dsline

variable [Checksum]

structure SpscBytesRing where
  config : SpscConfig
  /-- The queued frames, oldest first. -/
  queue : List Bytes
  nextSeq : UInt64
  closed : Bool

namespace SpscBytesRing

abbrev RingM := EStateM Failure SpscBytesRing

/-- `SpscBytesRing::new`. -/
def new (config : SpscConfig) : Except Failure SpscBytesRing := do
  config.validate
  return { config, queue := [], nextSeq := 0, closed := false }

/-- `wait_for_space`. -/
def waitForSpace : RingM Unit := do
  let ring ← get
  if ring.queue.length < ring.config.capacity then
    return ()
  throw (.ofChannel .bufferFull)

/-- The last part of `send`: encode and queue. -/
def pushBack (bytes : Bytes) : RingM Unit := do
  let seq := (← get).nextSeq
  modify fun ring => { ring with nextSeq := ring.nextSeq + 1 }
  match encodeFrame .bytes 0 seq 0 0 [] bytes with
  | .error err => throw err
  | .ok frame => modify fun ring => { ring with queue := ring.queue ++ [frame] }

/-- `send`. -/
def send (bytes : Bytes) : RingM Unit := do
  let ring ← get
  if ring.closed then
    throw (.ofChannel .closed)
  if ring.config.slotSize < bytes.length then
    throw (.ofChannel (.messageTooLarge bytes.length ring.config.slotSize))
  if ring.queue.length = ring.config.capacity then
    match ring.config.backpressure with
    | .raise => throw (.ofChannel .bufferFull)
    | .block => do
        waitForSpace
        pushBack bytes
    | .dropNewest => return ()
    | .dropOldest => do
        modify fun ring => { ring with queue := ring.queue.tail }
        pushBack bytes
  else pushBack bytes

/-- `recv`. -/
def recv : RingM Bytes := do
  let ring ← get
  if ring.closed ∧ ring.queue = [] then
    throw (.ofChannel .closed)
  match ring.queue with
  | [] => throw (.ofChannel .bufferEmpty)
  | slot :: queue => do
      set { ring with queue }
      match decodeFrame slot with
      | .error err => throw err
      | .ok frame =>
          if frame.header.kind ≠ .bytes ∨ checksum32 frame.payload ≠ frame.header.checksum then
            throw (.ofChannel .corruptedMessage)
          return frame.payload

/-- `close`. -/
def close : RingM Unit := modify fun ring => { ring with closed := true }

/-- `len`. -/
def len (ring : SpscBytesRing) : ℕ := ring.queue.length

end SpscBytesRing

end Dsline
