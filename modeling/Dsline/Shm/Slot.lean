import Dsline.Core.Error
import Dsline.Library.Area
/-!
# Slots

A slot of the persistent region: the header fields of its 48-byte image and
the frame area behind it. The writer-identity fields count only where the
identity magic is published, which the writer does last.
-/

namespace Dsline

inductive SlotState where
  | free
  | writing
  | committed
  | pinned
  | corrupted
  deriving DecidableEq, Repr

/-- A process identity: pid and platform start time. -/
structure ProcessIdentity where
  pid : UInt32
  startTime : UInt64
  deriving DecidableEq, Repr

inductive ProcessLiveness where
  | alive
  | gone
  | unknown
  deriving DecidableEq, Repr

structure WriterIdentity where
  pid : UInt32
  startTime : UInt64
  epoch : UInt32
  timestampNs : UInt64
  reservedSlots : UInt32
  deriving DecidableEq, Repr

namespace WriterIdentity

/-- The identity fields of a header written without an identity. -/
def unset : WriterIdentity := ⟨0, 0, 0, 0, 0⟩

/-- The process an identity names. -/
def process (identity : WriterIdentity) : ProcessIdentity := ⟨identity.pid, identity.startTime⟩

end WriterIdentity

def SLOT_IDENTITY_MAGIC : UInt32 := 0x31564957

/-- The fields of a header image. -/
structure SlotHeader where
  state : SlotState
  seq : UInt64
  payloadLen : UInt32
  fields : WriterIdentity
  identityMagic : UInt32
  deriving DecidableEq, Repr

namespace SlotHeader

/-- The identity a full header read reports: only behind the magic. -/
def identity (header : SlotHeader) : Option WriterIdentity :=
  if header.identityMagic = SLOT_IDENTITY_MAGIC then some header.fields else none

end SlotHeader

/-- `encode_header`. The payload length is cast to 32 bits. -/
def encodeHeader (state : SlotState) (seq : UInt64) (payloadLen : ℕ)
    (identity : Option WriterIdentity) (publishMagic : Bool) : SlotHeader where
  state
  seq
  payloadLen := UInt32.ofNat payloadLen
  fields := identity.getD .unset
  identityMagic := if identity.isSome && publishMagic then SLOT_IDENTITY_MAGIC else 0

/-- A slot: its header image and its frame area. -/
structure Slot where
  header : SlotHeader
  payload : Area

/-- A zeroed slot. -/
def Slot.empty : Slot := ⟨encodeHeader .free 0 0 none false, .zero⟩

structure SlotSnapshot where
  seq : UInt64
  data : Bytes
  deriving DecidableEq, Repr

structure ReceivedMessage where
  seq : UInt64
  payload : Bytes
  deriving DecidableEq, Repr

/-- **What the host answers during one call**: the calling process's
identity, the handle counter and the clock, the liveness probe, how often a
waiting loop looks again before its deadline, and how many rounds an
unbounded loop is granted before the call counts as not returning. -/
structure Host where
  identity : ProcessIdentity
  epoch : UInt32
  now : UInt64
  liveness : ProcessIdentity → ProcessLiveness
  polls : ℕ
  fuel : ℕ

end Dsline
