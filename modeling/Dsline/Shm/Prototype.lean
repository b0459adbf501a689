import Dsline.Core.BytesRing
import Dsline.Shm.BoundedFifo
/-!
# The prototype ring and the slot channel

The ring of whole frames and the channel over a slot array were written for
one purpose. On messages of at most a slot both are the bounded FIFO, so
they answer every sequence of calls alike and hold as many messages.
-/

namespace Dsline

open Eviction

/-- A call either of them takes. -/
inductive QueueCall where
  | send (bytes : Bytes)
  | recv
  | close
  deriving DecidableEq, Repr

/-- What a call answers: nothing, a payload, or a failure. -/
abbrev Reply := Except Failure (Option Bytes)

namespace QueueCall

/-- The payload of a send is a slice of at most `slotSize` bytes. -/
def FitsSlot (slotSize : ℕ) : QueueCall → Prop
  | .send bytes => bytes.length ≤ slotSize ∧ bytes.length ≤ isizeMax
  | .recv | .close => True

instance (slotSize : ℕ) : (op : QueueCall) → Decidable (op.FitsSlot slotSize)
  | .send bytes => inferInstanceAs
      (Decidable (bytes.length ≤ slotSize ∧ bytes.length ≤ isizeMax))
  | .recv | .close => isTrue trivial

/-- The call, as the FIFO has it. -/
def onFifo : QueueCall → FifoCall
  | .send bytes => .send bytes
  | .recv => .recvWithSeq
  | .close => .close

end QueueCall

/-- The payload an answer returns. -/
def Answer.reply (answer : Answer) : Reply := (Option.map ReceivedMessage.payload) <$> answer

variable [Checksum]

/-- One call on a ring. -/
def SpscBytesRing.call (ring : SpscBytesRing) : QueueCall → Reply × SpscBytesRing
  | .send bytes => answer ((fun _ => none) <$> send bytes) ring
  | .recv => answer (some <$> recv) ring
  | .close => answer ((fun _ => none) <$> close) ring
where
  answer (x : RingM (Option Bytes)) (ring : SpscBytesRing) : Reply × SpscBytesRing :=
    (Effect.outcome (x ring), Effect.final (x ring))

/-- One call on a channel, `recv` being `recv_with_seq` without the
sequence. -/
def ShmSpscChannel.reply (ch : ShmSpscChannel) (op : QueueCall) : Reply × ShmSpscChannel :=
  let (answer, ch') := ch.call op.onFifo
  (answer.reply, ch')

variable {config : SpscConfig} {ring : SpscBytesRing} {q : BoundedFifo} {bytes : Bytes}
  {calls : List QueueCall}

namespace SpscBytesRing

/-! ## The ring is the FIFO -/

/-- The frame of a queued message. -/
def slotOf (message : ReceivedMessage) : Bytes := frameBytes 0 message.seq [] message.payload

/-- **The ring is the queue.** -/
structure Refines (config : SpscConfig) (ring : SpscBytesRing) (q : BoundedFifo) : Prop where
  geometry : ring.config = config
  pos : 0 < config.capacity
  queue : ring.queue = q.entries.map slotOf
  small : ∀ message ∈ q.entries,
    message.payload.length ≤ config.slotSize ∧ message.payload.length ≤ isizeMax
  bounded : q.entries.length ≤ config.capacity
  nextSeq : ring.nextSeq = UInt64.ofNat q.sent
  closed : ring.closed = q.closed

omit [Checksum] in
/-- Messages of at most a slot take one slot each. -/
theorem occupied_eq (h : ∀ message ∈ q.entries, message.payload.length ≤ config.slotSize) :
    q.occupied config = q.entries.length := by
  unfold BoundedFifo.occupied
  generalize q.entries = messages at h
  induction messages with
  | nil => rfl
  | cons m messages ih =>
      have hone : BoundedFifo.weight config m = 1 :=
        if_pos (h m List.mem_cons_self)
      rw [load_cons, hone, ih fun m' hm => h m' (List.mem_cons_of_mem m hm), List.length_cons]
      omega

theorem Refines.occupied (h : ring.Refines config q) :
    q.occupied config = q.entries.length :=
  occupied_eq fun m hm => (h.small m hm).1

/-- **A message with room is queued.** -/
theorem Refines.pushBack (h : ring.Refines config q)
    (hsmall : bytes.length ≤ config.slotSize ∧ bytes.length ≤ isizeMax)
    (hroom : q.entries.length < config.capacity) :
    ∃ ring', SpscBytesRing.pushBack bytes ring = .ok () ring' ∧
      ring'.Refines config (q.push bytes) := by
  have hword : bytes.length < 2 ^ 64 := by
    have hle := hsmall.2
    simp only [isizeMax] at hle
    omega
  have hencode : encodeFrame .bytes 0 ring.nextSeq 0 0 [] bytes =
      .ok (frameBytes 0 ring.nextSeq [] bytes) := encodeFrame_nil hword
  refine ⟨{ ring with
    nextSeq := ring.nextSeq + 1
    queue := ring.queue ++ [frameBytes 0 ring.nextSeq [] bytes] }, ?_, h.geometry, h.pos, ?_, ?_,
    ?_, ?_, h.closed⟩
  · rw [SpscBytesRing.pushBack, Effect.get_bind, Effect.modify_bind]
    simp only [hencode]
    rfl
  · show ring.queue ++ _ = (q.entries ++ [_]).map slotOf
    rw [List.map_append, h.queue, h.nextSeq]
    rfl
  · intro m hm
    rcases List.mem_append.1 hm with hm | hm
    · exact h.small m hm
    · obtain rfl := List.mem_singleton.1 hm
      exact hsmall
  · show (q.entries ++ [_]).length ≤ _
    rw [List.length_append, List.length_singleton]
    omega
  · show ring.nextSeq + 1 = UInt64.ofNat (q.sent + 1)
    rw [h.nextSeq]
    simp

/-- **A full ring drops its oldest message.** -/
theorem Refines.popFront (h : ring.Refines config q) :
    Refines config { ring with queue := ring.queue.tail } { q with entries := q.entries.tail } where
  geometry := h.geometry
  pos := h.pos
  queue := by
    show ring.queue.tail = q.entries.tail.map slotOf
    rw [h.queue, List.map_tail]
  small m hm := h.small m (List.mem_of_mem_tail hm)
  bounded := by
    have hle := h.bounded
    show q.entries.tail.length ≤ _
    rw [List.length_tail]
    omega
  nextSeq := h.nextSeq
  closed := h.closed

/-- The answer is the queue's, and the ring left is the queue left. -/
def Meets (config : SpscConfig) (result : Answer × BoundedFifo)
    (result' : Reply × SpscBytesRing) : Prop :=
  result'.1 = result.1.reply ∧ result'.2.Refines config result.2

/-- A full FIFO of single slots gives up its oldest message. -/
theorem Refines.trim_full (h : ring.Refines config q) (hfull : q.entries.length = config.capacity) :
    trim (BoundedFifo.weight config) (config.capacity - 1) q.entries = q.entries.tail := by
  have hpos := h.pos
  have hload := h.occupied
  unfold BoundedFifo.occupied at hload
  cases hq : q.entries with
  | nil =>
      rw [hq, List.length_nil] at hfull
      omega
  | cons m messages =>
      have htail : load (BoundedFifo.weight config) messages = messages.length := by
        have hs : ∀ m' ∈ messages, m'.payload.length ≤ config.slotSize := fun m' hm =>
          (h.small m' (hq ▸ List.mem_cons_of_mem m hm)).1
        exact occupied_eq (q := { q with entries := messages }) hs
      rw [hq, List.length_cons] at hfull
      rw [hq, List.length_cons] at hload
      rw [trim_cons_of_gt (by omega), trim_of_le (by omega), List.tail_cons]

/-- A send that succeeds answers nothing. -/
theorem meets_sent {ring' : SpscBytesRing} {q' : BoundedFifo}
    (hsend : SpscBytesRing.send bytes ring = .ok () ring') (h : ring'.Refines config q') :
    Meets config (.ok none, q')
      (call.answer ((fun _ => none) <$> SpscBytesRing.send bytes) ring) := by
  unfold call.answer
  rw [Effect.map_ok hsend]
  exact ⟨rfl, h⟩

/-- A send that fails leaves the ring. -/
theorem Refines.refused {err : Failure} (h : ring.Refines config q)
    (hsend : SpscBytesRing.send bytes ring = .error err ring) :
    Meets config (.error err, q)
      (call.answer ((fun _ => none) <$> SpscBytesRing.send bytes) ring) := by
  unfold call.answer
  rw [Effect.map_error hsend]
  exact ⟨rfl, h⟩

/-- A send that comes to pushing onto a ring with room. -/
theorem Refines.pushed {ring' : SpscBytesRing} (h : ring'.Refines config q)
    (hsmall : bytes.length ≤ config.slotSize ∧ bytes.length ≤ isizeMax)
    (hroom : q.entries.length < config.capacity)
    (hsend : SpscBytesRing.send bytes ring = SpscBytesRing.pushBack bytes ring') :
    Meets config (.ok none, q.push bytes)
      (call.answer ((fun _ => none) <$> SpscBytesRing.send bytes) ring) := by
  obtain ⟨ring'', hrun, h'⟩ := h.pushBack hsmall hroom
  exact meets_sent (hsend.trans hrun) h'

/-- **Sending is the queue's sending.** -/
theorem Refines.send (h : ring.Refines config q)
    (hsmall : bytes.length ≤ config.slotSize ∧ bytes.length ≤ isizeMax) :
    Meets config (q.send config bytes)
      (call.answer ((fun _ => none) <$> SpscBytesRing.send bytes) ring) := by
  have hocc := h.occupied
  have hbound := h.bounded
  have hpos := h.pos
  have hslots : slotsFor config.slotSize bytes.length = 1 := if_pos hsmall.1
  have hfit : ¬ Oversize config bytes.length := fun hover => by
    have hgt := hover.1
    omega
  have hlen : ring.queue.length = q.entries.length := by rw [h.queue, List.length_map]
  unfold BoundedFifo.send
  simp only [hslots, hocc]
  by_cases hclosed : q.closed = true
  · rw [if_pos hclosed]
    refine h.refused ?_
    rw [SpscBytesRing.send, Effect.get_bind, if_pos (h.closed.trans hclosed)]
    rfl
  have hopen : ¬ ring.closed = true := by rw [h.closed]; exact hclosed
  have hnarrow : ¬ ring.config.slotSize < bytes.length := by rw [h.geometry]; omega
  rw [if_neg hclosed, if_neg hfit]
  by_cases hfull : q.entries.length = config.capacity
  · -- Past its gates a send on a full ring follows the backpressure mode.
    have hgate : ring.queue.length = ring.config.capacity := by rw [hlen, h.geometry, hfull]
    have hmode' : ring.config.backpressure = config.backpressure := by rw [h.geometry]
    rw [if_neg (by omega)]
    cases hmode : config.backpressure with
    | raise =>
        refine h.refused ?_
        rw [SpscBytesRing.send, Effect.get_bind, if_neg hopen, if_neg hnarrow, if_pos hgate, hmode',
          hmode]
        rfl
    | block =>
        refine h.refused ?_
        rw [SpscBytesRing.send, Effect.get_bind, if_neg hopen, if_neg hnarrow, if_pos hgate, hmode',
          hmode]
        refine Effect.bind_error ?_
        rw [waitForSpace, Effect.get_bind, if_neg (by omega)]
        rfl
    | dropNewest =>
        refine meets_sent ?_ h
        rw [SpscBytesRing.send, Effect.get_bind, if_neg hopen, if_neg hnarrow, if_pos hgate, hmode',
          hmode]
        rfl
    | dropOldest =>
        simp only
        -- Every message takes one slot, so one dropped message makes the room.
        rw [h.trim_full hfull]
        refine h.popFront.pushed hsmall ?_ ?_
        · show q.entries.tail.length < _
          rw [List.length_tail]
          omega
        · rw [SpscBytesRing.send, Effect.get_bind, if_neg hopen, if_neg hnarrow, if_pos hgate,
            hmode', hmode]
          rfl
  · rw [if_pos (by omega)]
    refine h.pushed hsmall (by omega) ?_
    rw [SpscBytesRing.send, Effect.get_bind, if_neg hopen, if_neg hnarrow,
      if_neg (by rw [hlen, h.geometry]; exact hfull)]

/-- **Receiving is the queue's receiving.** -/
theorem Refines.recv (h : ring.Refines config q) :
    Meets config q.recvWithSeq (call.answer (some <$> SpscBytesRing.recv) ring) := by
  unfold BoundedFifo.recvWithSeq call.answer
  cases hq : q.entries with
  | nil =>
      have hempty : ring.queue = [] := by rw [h.queue, hq]; rfl
      have hrecv : SpscBytesRing.recv ring =
          .error (.ofChannel (if q.closed then .closed else .bufferEmpty)) ring := by
        rw [SpscBytesRing.recv, Effect.get_bind, h.closed]
        cases hclosed : q.closed with
        | true =>
            rw [if_pos ⟨rfl, hempty⟩]
            rfl
        | false =>
            rw [if_neg (by simp), hempty]
            rfl
      rw [Effect.map_error hrecv]
      exact ⟨rfl, h⟩
  | cons m messages =>
      have hqueue : ring.queue = slotOf m :: messages.map slotOf := by rw [h.queue, hq]; rfl
      have hdecode : decodeFrame (slotOf m) = .ok (frameOf 0 m.seq [] m.payload) :=
        decodeFrame_frameBytes m.seq 0 [] m.payload (by decide)
          (h.small m (hq ▸ List.mem_cons_self)).2
      have hrecv : SpscBytesRing.recv ring =
          .ok m.payload { ring with queue := messages.map slotOf } := by
        rw [SpscBytesRing.recv, Effect.get_bind, if_neg (by rw [hqueue]; simp), hqueue]
        simp only
        rw [Effect.set_bind, hdecode]
        simp only
        rw [if_neg (by simp [framed])]
        rfl
      rw [Effect.map_ok hrecv]
      refine ⟨rfl, h.geometry, h.pos, rfl, fun m' hm => ?_, ?_, h.nextSeq, h.closed⟩
      · exact h.small m' (hq ▸ List.mem_cons_of_mem m hm)
      · have hle := h.bounded
        rw [hq, List.length_cons] at hle
        show messages.length ≤ _
        omega

/-- **Every call is the queue's.** -/
theorem Refines.call (h : ring.Refines config q) {op : QueueCall}
    (hfits : op.FitsSlot config.slotSize) :
    Meets config (q.call config op.onFifo) (ring.call op) := by
  cases op with
  | send bytes => exact h.send hfits
  | recv => exact h.recv
  | close => exact ⟨rfl, h.geometry, h.pos, h.queue, h.small, h.bounded, h.nextSeq, rfl⟩

/-- A new ring is the empty queue. -/
theorem refines_new (hnew : SpscBytesRing.new config = .ok ring) :
    ring.Refines config .empty := by
  unfold SpscBytesRing.new at hnew
  cases hvalid : config.validate with
  | error err =>
      rw [hvalid] at hnew
      cases hnew
  | ok _ =>
      rw [hvalid] at hnew
      cases hnew
      exact ⟨rfl, (SpscConfig.validate_eq_ok.1 hvalid).1, rfl, fun m hm => (nomatch hm),
        Nat.zero_le _, rfl, rfl⟩

end SpscBytesRing

/-! ## They agree -/

/-- The ring and the channel are one queue. -/
def Agreeing (config : SpscConfig) (ring : SpscBytesRing) (ch : ShmSpscChannel) : Prop :=
  ∃ q, ring.Refines config q ∧ ch.Refines config q

theorem agreeing_bisimilar (config : SpscConfig) :
    Machine.Bisimilar (fun _ op => QueueCall.FitsSlot config.slotSize op) (Agreeing config)
      SpscBytesRing.call ShmSpscChannel.reply := by
  intro ring ch op ⟨q, hring, hch⟩ hfits
  obtain ⟨hout, hnext⟩ := hring.call hfits
  have hslice : op.onFifo.IsSlice := by
    cases op with
    | send bytes => exact hfits.2
    | recv => trivial
    | close => trivial
  obtain ⟨hout', hnext', -⟩ := hch.call hslice
  refine ⟨?_, _, hnext, hnext'⟩
  rw [hout]
  exact congrArg Answer.reply hout'.symm

theorem Agreeing.len {ch : ShmSpscChannel} (h : Agreeing config ring ch) : ring.len = ch.len := by
  obtain ⟨q, hring, hch⟩ := h
  rw [SpscBytesRing.len, hring.queue, List.length_map, hch.len, hring.occupied]

open Machine

/-- **The prototype ring and the slot channel agree** on messages of at most
a slot: every call is answered alike, and they hold as many messages. -/
theorem prototype_agrees {ch : ShmSpscChannel} (hring : SpscBytesRing.new config = .ok ring)
    (hch : ShmSpscChannel.new config = .ok ch)
    (hfits : ∀ op ∈ calls, op.FitsSlot config.slotSize) :
    outputs SpscBytesRing.call ring calls = outputs ShmSpscChannel.reply ch calls ∧
      (after SpscBytesRing.call ring calls).len =
        (after ShmSpscChannel.reply ch calls).len := by
  have hmeets := meets_of_forall (f := SpscBytesRing.call) (s := ring) hfits
  have h0 : Agreeing config ring ch :=
    ⟨_, SpscBytesRing.refines_new hring, ShmSpscChannel.refines_new hch⟩
  exact ⟨(agreeing_bisimilar config).outputs_eq hmeets h0,
    ((agreeing_bisimilar config).after hmeets h0).len⟩

omit [Checksum] in
/-- A ring of one slot that drops its oldest message. -/
theorem prototype_agrees_sample :
    outputs (@SpscBytesRing.call crc32Checksum) ⟨⟨1, 4, .dropOldest, none, false⟩, [], 0, false⟩
        [.send [1], .send [2], .recv, .close, .recv] =
      [.ok none, .ok none, .ok (some [2]), .ok none, .error (.ofChannel .closed)] :=
  (@prototype_agrees crc32Checksum ⟨1, 4, .dropOldest, none, false⟩ _
    [.send [1], .send [2], .recv, .close, .recv]
    (ShmSpscChannel.fresh ⟨1, 4, .dropOldest, none, false⟩ ⟨1, 54, Area.zero⟩) rfl rfl
    (by decide)).1.trans (by decide +kernel)

end Dsline
