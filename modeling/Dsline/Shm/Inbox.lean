import Dsline.Library.Simulation
import Dsline.Shm.Receive
/-!
# The inbox a receive works on

What a receive needs of its channel is a list: the frames that can be read
from the tail on. An inbox is that list with the state of the tail slot;
the receive steps on it say what the steps on a channel are for. A channel
whose steps agree with the inbox's receives as the inbox does
(`Simulates.finishRecv`).
-/

namespace Dsline

open Simulation

/-- The state of the slot at the tail during a receive. -/
inductive Front where
  /-- As the queue has it. -/
  | clean
  /-- Read and not released. -/
  | pinned
  /-- Released without an advance. -/
  | hole
  deriving DecidableEq, Repr

/-- **The abstract channel of a receive**: the readable frames from the tail
on, how many were consumed, and the receive counters. -/
structure Inbox where
  frames : List SlotSnapshot
  front : Front
  consumed : ℕ
  expected : UInt64
  last : Option UInt64
  deriving DecidableEq, Repr

namespace Inbox

/-- A release of a slot that is not pinned. -/
def notPinned : Failure := .ofChannel (.invalidConfig "slot is not pinned")

/-- Read the frame at the tail, pinning it. -/
def readNext : EStateM Failure Inbox SlotSnapshot := fun inbox =>
  match inbox.front, inbox.frames with
  | .clean, frame :: _ => .ok frame { inbox with front := .pinned }
  | _, _ => .error (.ofChannel .bufferEmpty) inbox

/-- Release the pinned frame where it is. -/
def releasePinned : EStateM Failure Inbox Unit := fun inbox =>
  match inbox.front with
  | .pinned => .ok () { inbox with front := .hole }
  | _ => .error notPinned inbox

/-- Release the pinned frame and step over it. -/
def advance : EStateM Failure Inbox Unit := fun inbox =>
  match inbox.front with
  | .pinned =>
      .ok ()
        { inbox with frames := inbox.frames.tail, front := .clean, consumed := inbox.consumed + 1 }
  | _ => .error notPinned inbox

def bumpExpected : EStateM Failure Inbox Unit :=
  modify fun inbox => { inbox with expected := inbox.expected + 1 }

def setLastReceived (seq : UInt64) : EStateM Failure Inbox Unit :=
  modify fun inbox => { inbox with last := some seq }

/-- The receive steps on an inbox. -/
def ops : TailOps Inbox where
  readNext := readNext
  releasePinned := releasePinned
  advanceTailAfterRead := advance
  bumpExpected := bumpExpected
  setLastReceived := setLastReceived

section Steps

variable {frame : SlotSnapshot} {frames : List SlotSnapshot} {front : Front} {consumed : ℕ}
  {expected : UInt64} {last : Option UInt64}

theorem ops_readNext : ops.readNext ⟨frame :: frames, .clean, consumed, expected, last⟩ =
    .ok frame ⟨frame :: frames, .pinned, consumed, expected, last⟩ := rfl

theorem ops_advance :
    ops.advanceTailAfterRead ⟨frame :: frames, .pinned, consumed, expected, last⟩ =
      .ok () ⟨frames, .clean, consumed + 1, expected, last⟩ := rfl

theorem ops_bumpExpected : ops.bumpExpected ⟨frames, front, consumed, expected, last⟩ =
    .ok () ⟨frames, front, consumed, expected + 1, last⟩ := rfl

theorem ops_setLastReceived {seq : UInt64} :
    ops.setLastReceived seq ⟨frames, front, consumed, expected, last⟩ =
      .ok () ⟨frames, front, consumed, expected, some seq⟩ := rfl

end Steps

end Inbox

/-! ## Channels that receive alike -/

/-- The receive steps of two channels agree across a relation. -/
structure TailAgree {σ τ : Type} (R : σ → τ → Prop) (stuck : Failure → Prop) (ops : TailOps σ)
    (ops' : TailOps τ) : Prop where
  readNext : Agree R stuck ops.readNext ops'.readNext
  releasePinned : Agree R stuck ops.releasePinned ops'.releasePinned
  advance : Agree R stuck ops.advanceTailAfterRead ops'.advanceTailAfterRead
  bumpExpected : Agree R stuck ops.bumpExpected ops'.bumpExpected
  setLastReceived : ∀ seq, Agree R stuck (ops.setLastReceived seq) (ops'.setLastReceived seq)

section TailAgree

variable {σ τ : Type} {R : σ → τ → Prop} {stuck : Failure → Prop} {ops : TailOps σ}
  {ops' : TailOps τ}

theorem TailAgree.skipDamaged {α : Type} (h : TailAgree R stuck ops ops') (err : Failure) :
    Agree R stuck (skipDamaged ops err : EStateM Failure σ α) (skipDamaged ops' err) :=
  agree_bind h.advance fun _ => agree_bind h.bumpExpected fun _ => agree_throw err

/-- A failed chunk is released where it is. -/
theorem TailAgree.releaseThrow {α : Type} (h : TailAgree R stuck ops ops') (err : Failure) :
    Agree R stuck (ops.releasePinned >>= fun _ => throw err : EStateM Failure σ α)
      (ops'.releasePinned >>= fun _ => throw err) :=
  agree_bind h.releasePinned fun _ => agree_throw err

/-- The end of a receive: count the message and return it. -/
theorem TailAgree.complete (h : TailAgree R stuck ops ops') {seq : UInt64} {payload : Bytes} :
    Agree R stuck
      (ops.bumpExpected >>= fun _ => ops.setLastReceived seq >>= fun _ =>
        pure { seq, payload : ReceivedMessage })
      (ops'.bumpExpected >>= fun _ => ops'.setLastReceived seq >>= fun _ =>
        pure { seq, payload : ReceivedMessage }) :=
  agree_bind h.bumpExpected fun _ => agree_bind (h.setLastReceived seq) fun _ => agree_pure _

variable [Checksum]

theorem TailAgree.recvChunks (h : TailAgree R stuck ops ops') {seq : UInt64} {first : ChunkInfo}
    {remaining : ℕ} :
    ∀ {index : ℕ} {payload : Bytes},
      Agree R stuck (recvChunks ops seq first remaining index payload)
        (recvChunks ops' seq first remaining index payload) := by
  induction remaining with
  | zero =>
      intro index payload
      simp only [Dsline.recvChunks]
      split
      · exact agree_throw _
      · exact agree_pure _
  | succ remaining ih =>
      intro index payload
      simp only [Dsline.recvChunks]
      refine agree_bind h.readNext fun snapshot => ?_
      split
      · exact h.releaseThrow _
      · split
        · exact h.releaseThrow _
        · split
          · exact h.releaseThrow _
          · exact agree_bind h.advance fun _ => ih

theorem TailAgree.recvChunkedMessage (h : TailAgree R stuck ops ops') {seq : UInt64}
    {frame : Frame} :
    Agree R stuck (recvChunkedMessageWith ops seq frame)
      (recvChunkedMessageWith ops' seq frame) := by
  simp only [recvChunkedMessageWith]
  split
  · exact h.releaseThrow _
  · split
    · exact h.releaseThrow _
    · split
      · exact agree_throw _
      · exact agree_bind h.advance fun _ => h.recvChunks

/-- **Channels whose steps agree receive alike.** -/
theorem TailAgree.finishRecv (h : TailAgree R stuck ops ops') (snapshot : SlotSnapshot) :
    Agree R stuck (finishRecv ops snapshot) (finishRecv ops' snapshot) := by
  simp only [Dsline.finishRecv]
  split
  · exact h.skipDamaged _
  · split
    · exact h.skipDamaged _
    · split
      · exact h.skipDamaged _
      · split
        · exact agree_bind h.recvChunkedMessage fun _ => h.complete
        · exact agree_bind h.advance fun _ => agree_bind (agree_pure _) fun _ => h.complete

end TailAgree

/-- A step on an inbox that no receive takes: releasing what is not pinned. -/
def Inbox.Stuck (err : Failure) : Prop := err = Inbox.notPinned

/-- A channel's receive steps agree with the inbox's across a relation. -/
structure Simulates {σ : Type} (ops : TailOps σ) (R : σ → Inbox → Prop) : Prop where
  readNext : Agree R Inbox.Stuck ops.readNext Inbox.readNext
  releasePinned : Agree R Inbox.Stuck ops.releasePinned Inbox.releasePinned
  advance : Agree R Inbox.Stuck ops.advanceTailAfterRead Inbox.advance
  bumpExpected : Agree R Inbox.Stuck ops.bumpExpected Inbox.bumpExpected
  setLastReceived : ∀ seq, Agree R Inbox.Stuck (ops.setLastReceived seq) (Inbox.setLastReceived seq)

/-- **A channel whose steps agree with the inbox's receives as it does.** -/
theorem Simulates.finishRecv [Checksum] {σ : Type} {ops : TailOps σ} {R : σ → Inbox → Prop}
    (h : Simulates ops R) (snapshot : SlotSnapshot) :
    Agree R Inbox.Stuck (finishRecv ops snapshot) (finishRecv Inbox.ops snapshot) :=
  TailAgree.finishRecv
    ⟨h.readNext, h.releasePinned, h.advance, h.bumpExpected, h.setLastReceived⟩ snapshot

end Dsline
