import Dsline.Library.Effect
import Dsline.Library.Run
import Dsline.Shm.ChannelRecv
import Dsline.Shm.ChannelSend
/-!
# The single-producer system

One producer handle and one consumer handle over a shared region, with the
leases the producer holds and the views the consumer holds. A step is one
whole call of one of them; a call's error changes what the call itself
changed before it failed. `accepted` and `got` record the messages a call
accepted and returned.
-/

namespace Dsline

open PersistentShmChannel Effect

variable [Checksum]

/-- A message a caller can hold: no slice is longer than `isize::MAX`. -/
abbrev Message : Type := { bytes : Bytes // bytes.length ≤ isizeMax }

/-- A view that was not released, and the region as `recv_view` left it. -/
structure LiveView where
  view : ShmRecvView
  made : Region

structure SpscState where
  region : Region
  producer : PersistentShmChannel
  consumer : Option PersistentShmChannel
  leases : List ShmWriteLease
  views : List LiveView
  accepted : List ReceivedMessage
  got : List ReceivedMessage

/-- A call, with what the host answers during it. Leases and views are named
by their place in the list. -/
inductive SpscOp where
  | send (host : Host) (message : Message)
  | alloc (host : Host) (size : ℕ)
  | write (lease offset : ℕ) (bytes : Bytes)
  | publish (lease : ℕ)
  | abort (lease : ℕ)
  | dropLease (lease : ℕ)
  | openConsumer (host : Host)
  | recv (host : Host)
  | tryRecv (host : Host)
  | recvView (host : Host)
  | release (view : ℕ)
  | dropView (view : ℕ)
  | reopenProducer (host : Host)

namespace SpscState

/-- The world a producer call runs in. -/
def atProducer (s : SpscState) : World := ⟨s.producer, s.region⟩

/-- What a producer call leaves. -/
def withProducer (s : SpscState) (w : World) : SpscState :=
  { s with producer := w.chan, region := w.region }

/-- What a consumer call leaves. -/
def withConsumer (s : SpscState) (w : World) : SpscState :=
  { s with consumer := some w.chan, region := w.region }

/-- The first state of a region: its creator is the producer. -/
def start (w : World) : SpscState := ⟨w.region, w.chan, none, [], [], [], []⟩

/-- `P.send`. The message was accepted where the published head moved. -/
def stepSend (s : SpscState) (host : Host) (message : Message) : SpscState :=
  let w := final (PersistentShmChannel.send host message.1 s.atProducer)
  { s.withProducer w with
    accepted :=
      if w.region.head ≠ s.region.head then s.accepted ++ [⟨s.producer.nextSeq, message.1⟩]
      else s.accepted }

/-- `P.alloc`. -/
def stepAlloc (s : SpscState) (host : Host) (size : ℕ) : SpscState :=
  match PersistentShmChannel.alloc host size s.atProducer with
  | .ok lease w => { s.withProducer w with leases := s.leases ++ [lease] }
  | .error _ w => s.withProducer w

/-- A write through a lease. -/
def stepWrite (s : SpscState) (k offset : ℕ) (bytes : Bytes) : SpscState :=
  match s.leases[k]? with
  | none => s
  | some lease => { s with region := final (lease.write offset bytes s.region) }

/-- `P.publish`. The lease stays, sealed. -/
def stepPublish (s : SpscState) (k : ℕ) : SpscState :=
  match s.leases[k]? with
  | none => s
  | some lease =>
      match PersistentShmChannel.publish lease s.atProducer with
      | .ok (seq, lease') w =>
          { s.withProducer w with
            leases := s.leases.set k lease'
            accepted := s.accepted ++ [⟨seq,
              (s.region.slots lease.index).payload.read FRAME_HEADER_LEN lease.payloadLen⟩] }
      | .error _ w => s.withProducer w

/-- `P.abort`, which consumes the lease. -/
def stepAbort (s : SpscState) (k : ℕ) : SpscState :=
  match s.leases[k]? with
  | none => s
  | some lease =>
      { s.withProducer (final (PersistentShmChannel.abort lease s.atProducer)) with
        leases := s.leases.eraseIdx k }

/-- A consumer is opened, where there is none. -/
def stepOpenConsumer (s : SpscState) (host : Host) : SpscState :=
  match s.consumer with
  | some _ => s
  | none =>
      match PersistentShmChannel.open host s.producer.config s.region with
      | .ok _ w => s.withConsumer w
      | .error _ w => { s with region := w.region }

/-- `C.recv_with_seq`. -/
def stepRecv (s : SpscState) (host : Host) : SpscState :=
  match s.consumer with
  | none => s
  | some c =>
      match recvWithSeq host ⟨c, s.region⟩ with
      | .ok message w => { s.withConsumer w with got := s.got ++ [message] }
      | .error _ w => s.withConsumer w

/-- `C.try_recv`. The sequence of what it returned is the handle's last. -/
def stepTryRecv (s : SpscState) (host : Host) : SpscState :=
  match s.consumer with
  | none => s
  | some c =>
      match PersistentShmChannel.tryRecv host ⟨c, s.region⟩ with
      | .ok (some payload) w =>
          { s.withConsumer w with got := s.got ++ [⟨w.chan.lastReceivedSeq.getD 0, payload⟩] }
      | .ok none w => s.withConsumer w
      | .error _ w => s.withConsumer w

/-- `C.recv_view`. -/
def stepRecvView (s : SpscState) (host : Host) : SpscState :=
  match s.consumer with
  | none => s
  | some c =>
      match PersistentShmChannel.recvView host ⟨c, s.region⟩ with
      | .ok view w =>
          { s.withConsumer w with
            views := ⟨view, w.region⟩ :: s.views
            got := s.got ++ [⟨view.seq,
              (w.region.slots view.index).payload.read FRAME_HEADER_LEN view.payloadLen⟩] }
      | .error _ w => s.withConsumer w

/-- A view is released, or dropped. -/
def stepRelease (s : SpscState) (k : ℕ) : SpscState :=
  match s.views[k]? with
  | none => s
  | some v =>
      match v.view.release s.region with
      | .ok _ region => { s with region, views := s.views.eraseIdx k }
      | .error _ region => { s with region }

def stepDropView (s : SpscState) (k : ℕ) : SpscState :=
  match s.views[k]? with
  | none => s
  | some v => { s with region := v.view.drop s.region, views := s.views.eraseIdx k }

/-- The producer is dropped, and a new one opened. -/
def stepReopenProducer (s : SpscState) (host : Host) : SpscState :=
  match PersistentShmChannel.open host s.producer.config s.region with
  | .ok _ w => s.withProducer w
  | .error _ w => { s with region := w.region }

/-- One call. -/
def step (s : SpscState) : SpscOp → SpscState
  | .send host message => s.stepSend host message
  | .alloc host size => s.stepAlloc host size
  | .write k offset bytes => s.stepWrite k offset bytes
  | .publish k => s.stepPublish k
  | .abort k => s.stepAbort k
  | .dropLease k => { s with leases := s.leases.eraseIdx k }
  | .openConsumer host => s.stepOpenConsumer host
  | .recv host => s.stepRecv host
  | .tryRecv host => s.stepTryRecv host
  | .recvView host => s.stepRecvView host
  | .release k => s.stepRelease k
  | .dropView k => s.stepDropView k
  | .reopenProducer host => s.stepReopenProducer host

end SpscState

/-! ## A region for runs on fixed inputs -/

/-- A host whose processes all live. -/
def sampleHost : Host := ⟨⟨7, 1⟩, 1, 0, fun _ => .alive, 0, 0⟩

/-- A message of one byte. -/
def sampleMessage (b : UInt8) : Message := ⟨[b], by show 1 ≤ isizeMax; decide⟩

/-- A single-producer configuration that raises where the ring is full. -/
def sampleConfig (capacity slotSize : ℕ) : SpscConfig := ⟨capacity, slotSize, .raise, none, false⟩

/-- The world `create` makes of a configuration it accepts. -/
def sampleWorld (config : SpscConfig) : World where
  chan := fresh sampleHost config
  region := initializeRegion config (storage config.capacity
    (config.slotSize + FRAME_HEADER_LEN + PERSISTENT_SLOT_HEADER_LEN))

end Dsline
