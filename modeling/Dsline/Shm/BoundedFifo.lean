import Dsline.Core.Crc
import Dsline.Library.Eviction
import Dsline.Library.Machine
import Dsline.Shm.DropSpec
import Dsline.Shm.MemorySpec
import Dsline.Shm.Messages
/-!
# The in-memory channel is a bounded FIFO

`BoundedFifo` says what a channel is for: a queue of numbered messages whose
sizes, in slots, never add up to more than the capacity. `Refines` ties the
in-memory channel to it, the ring of its cells being the frames of the
queued messages in order, and every call keeps it.
-/

namespace Dsline

open Eviction

/-- A call on a channel handle. -/
inductive FifoCall where
  | send (bytes : Bytes)
  | recvWithSeq
  | close
  deriving DecidableEq, Repr

/-- The bytes of a call are a slice. -/
def FifoCall.IsSlice : FifoCall → Prop
  | .send bytes => bytes.length ≤ isizeMax
  | _ => True

instance : (op : FifoCall) → Decidable op.IsSlice
  | .send bytes => inferInstanceAs (Decidable (bytes.length ≤ isizeMax))
  | .recvWithSeq => isTrue trivial
  | .close => isTrue trivial

/-- What a call answers: nothing, a message, or a failure. -/
abbrev Answer := Except Failure (Option ReceivedMessage)

/-! ## The abstract queue -/

/-- The slots a message of `len` bytes takes: one where it fits, otherwise
as many as the payload space of a chunk divides it into, rounded up. -/
def slotsFor (slotSize len : ℕ) : ℕ :=
  if len ≤ slotSize then 1
  else (len + (slotSize - CHUNK_METADATA_LEN - 1)) / (slotSize - CHUNK_METADATA_LEN)

/-- No ring of this configuration holds a message of `len` bytes. -/
def Oversize (config : SpscConfig) (len : ℕ) : Prop :=
  config.slotSize < len ∧
    (config.slotSize ≤ CHUNK_METADATA_LEN ∨ config.capacity < slotsFor config.slotSize len)

instance (config : SpscConfig) (len : ℕ) : Decidable (Oversize config len) :=
  inferInstanceAs (Decidable (_ ∧ _))

/-- **A bounded FIFO of messages**: what is queued, how many messages were
taken, the sequence last received, and whether it is closed. -/
structure BoundedFifo where
  entries : List ReceivedMessage
  sent : ℕ
  last : Option UInt64
  closed : Bool
  deriving DecidableEq, Repr

namespace BoundedFifo

def empty : BoundedFifo := ⟨[], 0, none, false⟩

/-- The slots a message takes. -/
def weight (config : SpscConfig) (message : ReceivedMessage) : ℕ :=
  slotsFor config.slotSize message.payload.length

/-- The slots taken. -/
def occupied (config : SpscConfig) (q : BoundedFifo) : ℕ := load (weight config) q.entries

/-- Queue a message under the next number, modulo `2^64`. -/
def push (q : BoundedFifo) (bytes : Bytes) : BoundedFifo :=
  { q with entries := q.entries ++ [⟨UInt64.ofNat q.sent, bytes⟩], sent := q.sent + 1 }

/-- Send a message. -/
def send (config : SpscConfig) (q : BoundedFifo) (bytes : Bytes) : Answer × BoundedFifo :=
  let slots := slotsFor config.slotSize bytes.length
  if q.closed then (.error (.ofChannel .closed), q)
  else if Oversize config bytes.length then
    (.error (.ofChannel (.messageTooLarge bytes.length (maxMessageSize config))), q)
  else if q.occupied config + slots ≤ config.capacity then (.ok none, q.push bytes)
  else
    match config.backpressure with
    | .raise | .block => (.error (.ofChannel .bufferFull), q)
    | .dropNewest => (.ok none, q)
    | .dropOldest =>
        let kept := trim (weight config) (config.capacity - slots) q.entries
        (.ok none, push { q with entries := kept } bytes)

/-- A message with room is queued. -/
theorem send_room {config : SpscConfig} {q : BoundedFifo} {bytes : Bytes} (hopen : q.closed = false)
    (hfit : ¬ Oversize config bytes.length)
    (hroom : q.occupied config + slotsFor config.slotSize bytes.length ≤ config.capacity) :
    q.send config bytes = (.ok none, q.push bytes) := by
  rw [send, if_neg (by simp [hopen]), if_neg hfit, if_pos hroom]

/-- Receive the oldest message. -/
def recvWithSeq (q : BoundedFifo) : Answer × BoundedFifo :=
  match q.entries with
  | message :: rest => (.ok (some message), { q with entries := rest, last := some message.seq })
  | [] => (.error (.ofChannel (if q.closed then .closed else .bufferEmpty)), q)

/-- One call. -/
def call (config : SpscConfig) (q : BoundedFifo) : FifoCall → Answer × BoundedFifo
  | .send bytes => q.send config bytes
  | .recvWithSeq => q.recvWithSeq
  | .close => (.ok none, { q with closed := true })

end BoundedFifo

namespace ShmSpscChannel

variable [Checksum]

/-- One call on a handle. -/
def call (ch : ShmSpscChannel) : FifoCall → Answer × ShmSpscChannel
  | .send bytes => answer ((fun _ => none) <$> send bytes) ch
  | .recvWithSeq => answer (some <$> recvWithSeq) ch
  | .close => answer ((fun _ => none) <$> close) ch
where
  /-- A call's answer, and the channel it leaves. -/
  answer (x : SpscM (Option ReceivedMessage)) (ch : ShmSpscChannel) : Answer × ShmSpscChannel :=
    (Effect.outcome (x ch), Effect.final (x ch))

end ShmSpscChannel

/-! ## Plans -/

section Plans

variable {config : SpscConfig} {plan : SendPlan} {len : ℕ}

/-- An oversize message has no plan. -/
theorem sendPlan_oversize (hfits : config.capacity * config.slotSize ≤ isizeMax)
    (hcap : 0 < config.capacity) (hlen : len ≤ isizeMax) (h : Oversize config len) :
    sendPlan config len = .error (.ofChannel (.messageTooLarge len (maxMessageSize config))) := by
  obtain ⟨hbig, hno⟩ := h
  rw [sendPlan]
  simp only [if_neg (Nat.not_le.2 hbig), checkedSub]
  have hslot : config.slotSize ≤ config.capacity * config.slotSize :=
    Nat.le_mul_of_pos_left _ hcap
  simp only [isizeMax] at hfits hlen
  by_cases hle : CHUNK_METADATA_LEN ≤ config.slotSize
  · rw [if_pos hle]
    simp only
    by_cases hz : config.slotSize - CHUNK_METADATA_LEN = 0
    · rw [if_pos hz]
    · have hno := hno.resolve_left (by omega)
      rw [slotsFor, if_neg (Nat.not_le.2 hbig)] at hno
      have hmul : config.capacity * (config.slotSize - CHUNK_METADATA_LEN) ≤
          config.capacity * config.slotSize := Nat.mul_le_mul_left _ (Nat.sub_le _ _)
      rw [if_neg hz, checkedAdd, if_pos (by simp only [wordCount]; omega)]
      simp only
      rw [checkedMul, if_pos (by simp only [wordCount]; omega)]
      simp only
      rw [if_pos (.inl hno)]
  · rw [if_neg hle]

/-- Any other message has one, of its slots. -/
theorem sendPlan_fits (hfits : config.capacity * config.slotSize ≤ isizeMax)
    (hcap : 0 < config.capacity) (hlen : len ≤ isizeMax) (h : ¬ Oversize config len) :
    ∃ plan, sendPlan config len = .ok plan ∧ plan.neededSlots = slotsFor config.slotSize len := by
  rw [sendPlan, slotsFor]
  by_cases hbig : len ≤ config.slotSize
  · rw [if_pos hbig, if_pos hbig]
    exact ⟨_, rfl, rfl⟩
  · have hgt := Nat.not_le.1 hbig
    have hfew : CHUNK_METADATA_LEN < config.slotSize ∧
        slotsFor config.slotSize len ≤ config.capacity := by
      refine ⟨Nat.not_le.1 fun hle => h ⟨hgt, .inl hle⟩, Nat.not_lt.1 fun hlt => h ⟨hgt, .inr hlt⟩⟩
    rw [slotsFor, if_neg hbig] at hfew
    have hslot : config.slotSize ≤ config.capacity * config.slotSize :=
      Nat.le_mul_of_pos_left _ hcap
    have hmul : config.capacity * (config.slotSize - CHUNK_METADATA_LEN) ≤
        config.capacity * config.slotSize := Nat.mul_le_mul_left _ (Nat.sub_le _ _)
    simp only [isizeMax] at hfits hlen
    simp only [if_neg hbig, checkedSub, if_pos (Nat.le_of_lt hfew.1)]
    rw [if_neg (by omega), checkedAdd, if_pos (by simp only [wordCount]; omega)]
    simp only
    rw [checkedMul, if_pos (by simp only [wordCount]; omega)]
    simp only
    -- The message is no longer than its chunks together.
    have hroom : len ≤ config.capacity * (config.slotSize - CHUNK_METADATA_LEN) := by
      have hd := Nat.lt_div_mul_add
        (a := len + (config.slotSize - CHUNK_METADATA_LEN - 1))
        (b := config.slotSize - CHUNK_METADATA_LEN) (by omega)
      have hm := Nat.mul_le_mul_right (config.slotSize - CHUNK_METADATA_LEN) hfew.2
      omega
    rw [if_neg (by omega)]
    exact ⟨_, rfl, rfl⟩

/-- A plan takes the message's slots. -/
theorem neededSlots_eq (h : sendPlan config len = .ok plan) :
    plan.neededSlots = slotsFor config.slotSize len := by
  rw [slotsFor]
  rcases sendPlan_ok h with ⟨h1, rfl⟩ | ⟨h1, -, h3, h4, -⟩
  · rw [if_pos h1]
  · rw [if_neg (Nat.not_le.2 h1), h4, h3]

end Plans

/-! ## The refinement -/

/-- Messages numbered from `first` on, modulo `2^64`. -/
def CountsFrom : ℕ → List ReceivedMessage → Prop
  | _, [] => True
  | first, message :: rest => message.seq = UInt64.ofNat first ∧ CountsFrom (first + 1) rest

theorem countsFrom_append {first : ℕ} {messages rest : List ReceivedMessage} :
    CountsFrom first (messages ++ rest) ↔
      CountsFrom first messages ∧ CountsFrom (first + messages.length) rest := by
  induction messages generalizing first with
  | nil => simp [CountsFrom]
  | cons message messages ih =>
      have hadd : first + 1 + messages.length = first + (messages.length + 1) := by omega
      simp only [List.cons_append, CountsFrom, ih, and_assoc, List.length_cons, hadd]

variable [Checksum]

/-- A message's frames, as a reader of its slots finds them. -/
def snapshotsOf (config : SpscConfig) (message : ReceivedMessage) : List SlotSnapshot :=
  (framesOf config message).map fun data => ⟨message.seq, data⟩

/-- The cells of a message's frames. -/
def cellsFor (config : SpscConfig) (message : ReceivedMessage) : List Cell :=
  (snapshotsOf config message).map .committed

namespace ShmSpscChannel

/-- **The channel is the queue.** -/
structure Refines (config : SpscConfig) (ch : ShmSpscChannel) (q : BoundedFifo) : Prop where
  geometry : ch.config = config
  ring : ch.Ring (q.entries.flatMap (cellsFor config))
  taken : ∀ message ∈ q.entries, Taken config message
  queued : q.entries.length ≤ q.sent
  numbered : CountsFrom (q.sent - q.entries.length) q.entries
  nextSeq : ch.nextSeq = UInt64.ofNat q.sent
  expected : ch.expectedRecvSeq = UInt64.ofNat (q.sent - q.entries.length)
  last : ch.lastReceivedSeq = q.last
  closed : ch.closed = q.closed

variable {config : SpscConfig} {ch : ShmSpscChannel} {q : BoundedFifo} {message : ReceivedMessage}
  {messages : List ReceivedMessage} {seq : UInt64} {bytes : Bytes} {cells : List Cell}

theorem length_cellsFor (h : Taken config message) :
    (cellsFor config message).length = BoundedFifo.weight config message := by
  obtain ⟨⟨plan, hplan⟩, -⟩ := h
  rw [cellsFor, snapshotsOf, List.length_map, List.length_map, framesOf_eq _ hplan,
    length_messageFrames _ hplan, neededSlots_eq hplan]
  rfl

/-- The cells of the queue are as many as its slots. -/
theorem length_cells (h : ∀ m ∈ messages, Taken config m) :
    (messages.flatMap (cellsFor config)).length = load (BoundedFifo.weight config) messages := by
  induction messages with
  | nil => rfl
  | cons m messages ih =>
      rw [List.flatMap_cons, List.length_append, load_cons,
        ih fun m' hm => h m' (List.mem_cons_of_mem m hm),
        length_cellsFor (h m List.mem_cons_self)]

omit [Checksum] in
/-- A message takes at least one slot. -/
theorem weight_pos (h : Taken config message) : 0 < BoundedFifo.weight config message := by
  obtain ⟨⟨plan, hplan⟩, -⟩ := h
  have hpos := neededSlots_pos hplan
  rw [neededSlots_eq hplan] at hpos
  exact hpos

theorem Refines.len (h : ch.Refines config q) : ch.len = q.occupied config := by
  rw [h.ring.len, length_cells h.taken]
  rfl

/-- **The occupied slots never exceed the capacity.** -/
theorem Refines.bounded (h : ch.Refines config q) : q.occupied config ≤ config.capacity := by
  have hb := h.ring.bounded
  rwa [length_cells h.taken, h.geometry] at hb

theorem Refines.area (h : ch.Refines config q) :
    config.capacity * (config.slotSize + FRAME_HEADER_LEN) ≤ isizeMax := by
  have hfits := h.ring.fits
  unfold FixedSlotRegion.Fits at hfits
  rwa [h.ring.capacity, h.ring.slotSize, h.geometry] at hfits

theorem Refines.pos (h : ch.Refines config q) : 0 < config.capacity := by
  have hp := h.ring.pos
  rwa [h.geometry] at hp

/-- The ring is within the address space. -/
theorem Refines.space (h : ch.Refines config q) :
    config.capacity * config.slotSize ≤ isizeMax :=
  Nat.le_trans (Nat.mul_le_mul_left _ (Nat.le_add_right _ _)) h.area

theorem Refines.word (h : ch.Refines config q) : config.capacity < 2 ^ 64 := by
  have hle : config.capacity ≤ config.capacity * (config.slotSize + FRAME_HEADER_LEN) :=
    Nat.le_mul_of_pos_right _ (Nat.lt_of_lt_of_le (by decide) (Nat.le_add_left _ _))
  have harea := h.area
  simp only [isizeMax] at harea
  omega

/-! ## Sending -/

omit [Checksum] in
/-- **Frames go in behind the others.** -/
theorem Ring.writeFrames (seq : UInt64) (frames : List Bytes) (h : ch.Ring cells)
    (hroom : cells.length + frames.length ≤ ch.config.capacity)
    (hlen : ∀ frame ∈ frames, frame.length ≤ ch.config.slotSize + FRAME_HEADER_LEN) :
    ∃ region head len, writeFrames seq frames ch = .ok () { ch with region, head, len } ∧
      Ring { ch with region, head, len }
        (cells ++ frames.map fun data => .committed ⟨seq, data⟩) := by
  induction frames generalizing ch cells with
  | nil => exact ⟨_, _, _, rfl, by simpa using h⟩
  | cons frame frames ih =>
      rw [List.length_cons] at hroom
      obtain ⟨region, hwrite, hring⟩ := h.push seq (by omega)
        (hlen frame List.mem_cons_self)
      obtain ⟨region', head, len, hrest, hring'⟩ := ih hring
        (by rw [List.length_append, List.length_singleton]; show _ ≤ ch.config.capacity; omega)
        (fun f hf => hlen f (List.mem_cons_of_mem _ hf))
      refine ⟨region', head, len, ?_, ?_⟩
      · rw [ShmSpscChannel.writeFrames, Effect.get_bind]
        refine (Effect.bind_ok hwrite).trans ?_
        exact Effect.modify_bind.trans hrest
      · rwa [List.append_assoc] at hring'

/-- **A message with room is queued.** -/
theorem Refines.push (h : ch.Refines config q) {plan : SendPlan}
    (hplan : sendPlan config bytes.length = .ok plan) (hslice : bytes.length ≤ isizeMax)
    (hroom : q.occupied config + plan.neededSlots ≤ config.capacity) :
    ∃ ch', writeFrames ch.nextSeq (messageFrames plan ch.nextSeq bytes)
        { ch with nextSeq := ch.nextSeq + 1 } = .ok () ch' ∧ ch'.Refines config (q.push bytes) := by
  have hcells := length_cells h.taken
  have hnum := length_messageFrames ch.nextSeq hplan
  have hring : Ring { ch with nextSeq := ch.nextSeq + 1 } _ :=
    h.ring.of_same rfl rfl rfl rfl rfl
  obtain ⟨region, head, len, hwrite, hring'⟩ :=
    hring.writeFrames ch.nextSeq (messageFrames plan ch.nextSeq bytes)
    (by
      rw [hcells, hnum]
      show _ ≤ ch.config.capacity
      rw [h.geometry]
      exact hroom)
    (fun frame hf => by
      show _ ≤ ch.config.slotSize + _
      rw [h.geometry]
      exact length_le_of_mem_messageFrames hplan hf)
  have hsub : q.sent + 1 - (q.entries.length + 1) = q.sent - q.entries.length := by omega
  refine ⟨_, hwrite, h.geometry, ?_, ?_, ?_, ?_, ?_, ?_, h.last, h.closed⟩
  · simp only [BoundedFifo.push, List.flatMap_append, List.flatMap_singleton, cellsFor,
      snapshotsOf, List.map_map]
    rw [framesOf_eq _ hplan, ← h.nextSeq]
    exact hring'
  · intro m hm
    rcases List.mem_append.1 hm with hm | hm
    · exact h.taken m hm
    · rw [List.mem_singleton.1 hm]
      exact ⟨⟨plan, hplan⟩, hslice⟩
  · simp only [BoundedFifo.push, List.length_append, List.length_singleton]
    have := h.queued
    omega
  · simp only [BoundedFifo.push, List.length_append, List.length_singleton, hsub]
    refine countsFrom_append.2 ⟨h.numbered, ?_, trivial⟩
    rw [Nat.sub_add_cancel h.queued]
  · show ch.nextSeq + 1 = UInt64.ofNat (q.sent + 1)
    rw [h.nextSeq, UInt64.ofNat_add]
    rfl
  · simp only [BoundedFifo.push, List.length_append, List.length_singleton, hsub]
    exact h.expected

/-! ## Dropping -/

omit [Checksum] in
/-- Releasing committed cells steps over them. -/
theorem Ring.dropSlots {front : List SlotSnapshot}
    (h : ch.Ring (front.map .committed ++ cells)) :
    ∃ region tail len, dropSlots front.length ch = .ok () { ch with region, tail, len } ∧
      Ring { ch with region, tail, len } cells := by
  induction front generalizing ch with
  | nil => exact ⟨_, _, _, rfl, h⟩
  | cons snapshot front ih =>
      have h : ch.Ring (.committed snapshot :: (front.map .committed ++ cells)) := h
      obtain ⟨region, hrel, hsame, hshow⟩ :=
        FixedSlotRegion.releaseCommitted_ok h.fits h.index h.first
      have hnext := (h.setFirst hsame hshow).step
      obtain ⟨region', tail, len, hrest, hring⟩ := ih hnext
      refine ⟨region', tail, len, ?_, hring⟩
      have hon : onRegion (FixedSlotRegion.releaseCommitted ch.tail) ch =
          .ok () { ch with region } := by
        simp only [onRegion, hrel]
      rw [List.length_cons, ShmSpscChannel.dropSlots, Effect.get_bind]
      refine (Effect.bind_ok hon).trans ?_
      exact Effect.modify_bind.trans hrest

/-- The queue with these messages left of it, the oldest gone. -/
theorem Refines.behead (h : ch.Refines config q) (hq : q.entries = message :: messages)
    {ch' : ShmSpscChannel} {last : Option UInt64} (hconfig : ch'.config = ch.config)
    (hring : ch'.Ring (messages.flatMap (cellsFor config))) (hnext : ch'.nextSeq = ch.nextSeq)
    (hexpected : ch'.expectedRecvSeq = ch.expectedRecvSeq + 1) (hlast : ch'.lastReceivedSeq = last)
    (hclosed : ch'.closed = ch.closed) :
    ch'.Refines config { q with entries := messages, last } := by
  have hqueued := h.queued
  have hnumbered := h.numbered
  have hexp := h.expected
  rw [hq, List.length_cons] at hqueued hnumbered hexp
  have hsub : q.sent - messages.length = q.sent - (messages.length + 1) + 1 := by omega
  refine ⟨hconfig.trans h.geometry, hring, fun m hm => h.taken m (hq ▸ List.mem_cons_of_mem _ hm),
    Nat.le_of_succ_le hqueued, ?_, hnext.trans h.nextSeq, ?_, hlast, hclosed.trans h.closed⟩
  · show CountsFrom (q.sent - messages.length) messages
    rw [hsub]
    exact hnumbered.2
  · show ch'.expectedRecvSeq = UInt64.ofNat (q.sent - messages.length)
    rw [hexpected, hexp, hsub, UInt64.ofNat_add]
    rfl

/-- **The oldest message is dropped whole.** -/
theorem Refines.dropOldest (h : ch.Refines config q) (hq : q.entries = message :: messages) :
    ∃ ch', dropOldestMessage ch = .ok () ch' ∧
      ch'.Refines config { q with entries := messages } := by
  have htaken : Taken config message := h.taken message (hq ▸ List.mem_cons_self)
  obtain ⟨⟨plan, hplan⟩, hslice⟩ := htaken
  have hring := h.ring
  rw [hq, List.flatMap_cons] at hring
  have hlen : ch.len ≠ 0 := by
    rw [hring.len, List.length_append, length_cellsFor ⟨⟨plan, hplan⟩, hslice⟩]
    have hpos := weight_pos (h.taken message (hq ▸ List.mem_cons_self))
    omega
  obtain ⟨data, datas, frame, hframes, hdec, hcount⟩ :=
    messageFrames_head message.seq hplan h.word hslice
  have hcells : cellsFor config message =
      ((data :: datas).map fun d => (⟨message.seq, d⟩ : SlotSnapshot)).map .committed := by
    rw [cellsFor, snapshotsOf, framesOf_eq _ hplan, hframes]
  rw [hcells] at hring
  have hpeek : onRegion (FixedSlotRegion.peekCommitted ch.tail) ch =
      .ok ⟨message.seq, data⟩ ch := by
    have hfirst : ch.Ring (.committed ⟨message.seq, data⟩ :: _) := hring
    simp only [onRegion, FixedSlotRegion.peekCommitted_ok hring.fits hring.index hfirst.first]
  obtain ⟨region, tail, len, hdrop, hrest⟩ := Ring.dropSlots hring
  have hneeded : ((data :: datas).map fun d => (⟨message.seq, d⟩ : SlotSnapshot)).length =
      plan.neededSlots := by
    rw [List.length_map, ← hframes, length_messageFrames _ hplan]
  rw [hneeded] at hdrop
  refine ⟨{ ch with region, tail, len, expectedRecvSeq := ch.expectedRecvSeq + 1 }, ?_,
    h.behead hq rfl (hrest.of_same rfl rfl rfl rfl rfl) rfl rfl h.last rfl⟩
  rw [dropOldestMessage, Effect.get_bind, if_neg hlen]
  refine (Effect.bind_ok hpeek).trans ?_
  simp only [hdec, hcount]
  exact (Effect.bind_ok hdrop).trans rfl

/-- **The loop drops the fewest oldest messages that make room.** The
induction is on the queue: a round drops its oldest message. -/
theorem Refines.dropUntilRoom {needed : ℕ} (fuel : ℕ) (h : ch.Refines config q)
    (hneeded : needed ≤ config.capacity) (hfuel : q.entries.length < fuel) :
    ∃ ch', dropUntilRoom needed fuel ch = .ok () ch' ∧
      ch'.Refines config { q with
        entries := trim (BoundedFifo.weight config) (config.capacity - needed) q.entries } := by
  induction fuel generalizing ch q with
  | zero => omega
  | succ fuel ih =>
      have hlen := h.len
      have hbound := h.bounded
      unfold BoundedFifo.occupied at hlen hbound
      rw [ShmSpscChannel.dropUntilRoom, Effect.get_bind]
      by_cases hroom : needed ≤ config.capacity - load (BoundedFifo.weight config) q.entries
      · rw [if_pos (by rw [h.geometry, hlen]; exact hroom), trim_of_le (by omega)]
        exact ⟨ch, rfl, h⟩
      · rw [if_neg (by rw [h.geometry, hlen]; exact hroom)]
        cases hq : q.entries with
        | nil =>
            rw [hq, load_nil] at hroom
            omega
        | cons message messages =>
            rw [hq] at hfuel hroom
            rw [List.length_cons] at hfuel
            obtain ⟨ch', hdrop, hnext⟩ := h.dropOldest hq
            obtain ⟨ch'', hloop, hdone⟩ := ih hnext (show messages.length < fuel by omega)
            refine ⟨ch'', (Effect.bind_ok hdrop).trans hloop, ?_⟩
            rwa [trim_cons_of_gt (by omega)]

/-! ## The calls -/

omit [Checksum] in
theorem answer_ok {α : Type} {x : SpscM α} {f : α → Option ReceivedMessage} {a : α}
    {ch' : ShmSpscChannel} (h : x ch = .ok a ch') :
    call.answer (f <$> x) ch = (.ok (f a), ch') := by
  simp only [call.answer, Effect.map_ok h, Effect.outcome_ok, Effect.final_ok]

omit [Checksum] in
theorem answer_error {α : Type} {x : SpscM α} {f : α → Option ReceivedMessage} {err : Failure}
    {ch' : ShmSpscChannel} (h : x ch = .error err ch') :
    call.answer (f <$> x) ch = (.error err, ch') := by
  simp only [call.answer, Effect.map_error h, Effect.outcome_error, Effect.final_error]

/-- **A call does what the queue says**: it gives the queue's answer, leaves
the queue's state, and where it fails leaves the channel as it was. -/
def Meets (config : SpscConfig) (ch : ShmSpscChannel) (result : Answer × BoundedFifo)
    (result' : Answer × ShmSpscChannel) : Prop :=
  result'.1 = result.1 ∧ result'.2.Refines config result.2 ∧
    ∀ err, result'.1 = .error err → result'.2 = ch

/-- A failed call. -/
theorem Refines.failed (h : ch.Refines config q) (err : Failure) :
    Meets config ch (.error err, q) (.error err, ch) := ⟨rfl, h, fun _ _ => rfl⟩

/-- A send whose guard lets it go on queues its message. -/
theorem Refines.sent {q₁ : BoundedFifo} {ch₁ : ShmSpscChannel} {plan : SendPlan}
    (h : ch.Refines config q) (hopen : q.closed = false)
    (hplan : sendPlan config bytes.length = .ok plan) (hslice : bytes.length ≤ isizeMax)
    (hprep : prepareSendSlots plan.neededSlots ch = .ok true ch₁) (h₁ : ch₁.Refines config q₁)
    (hroom : q₁.occupied config + plan.neededSlots ≤ config.capacity) :
    Meets config ch (.ok none, q₁.push bytes)
      (call.answer ((fun _ => none) <$> ShmSpscChannel.send bytes) ch) := by
  obtain ⟨ch', hwrite, href⟩ := h₁.push hplan hslice hroom
  have hencode : encodeMessageFrames ch₁.config plan ch₁.nextSeq bytes =
      .ok (messageFrames plan ch₁.nextSeq bytes) := by
    rw [h₁.geometry]
    exact encodeMessageFrames_ok ch₁.nextSeq hplan h.word hslice
  have hsend : ShmSpscChannel.send bytes ch = .ok () ch' := by
    rw [ShmSpscChannel.send, Effect.get_bind, if_neg (by rw [h.closed, hopen]; simp), h.geometry,
      hplan]
    refine (Effect.bind_ok hprep).trans ?_
    rw [if_pos rfl, Effect.get_bind, Effect.modify_bind]
    simp only [hencode]
    exact hwrite
  rw [answer_ok hsend]
  exact ⟨rfl, href, fun _ he => by cases he⟩

/-- A send whose guard ends it changes nothing. -/
theorem Refines.refused {plan : SendPlan} {r : EStateM.Result Failure ShmSpscChannel Bool}
    {answer : Answer} (h : ch.Refines config q) (hopen : q.closed = false)
    (hplan : sendPlan config bytes.length = .ok plan)
    (hprep : prepareSendSlots plan.neededSlots ch = r)
    (hr : r = .ok false ch ∧ answer = .ok none ∨
      ∃ err, r = .error err ch ∧ answer = .error err) :
    Meets config ch (answer, q)
      (call.answer ((fun _ => none) <$> ShmSpscChannel.send bytes) ch) := by
  have hclosed : ¬ ch.closed = true := by
    rw [h.closed, hopen]
    simp
  rcases hr with ⟨rfl, rfl⟩ | ⟨err, rfl, rfl⟩
  · have hsend : ShmSpscChannel.send bytes ch = .ok () ch := by
      rw [ShmSpscChannel.send, Effect.get_bind, if_neg hclosed, h.geometry, hplan]
      exact (Effect.bind_ok hprep).trans rfl
    rw [answer_ok hsend]
    exact ⟨rfl, h, fun _ he => by cases he⟩
  · have hsend : ShmSpscChannel.send bytes ch = .error err ch := by
      rw [ShmSpscChannel.send, Effect.get_bind, if_neg hclosed, h.geometry, hplan]
      exact Effect.bind_error hprep
    rw [answer_error hsend]
    exact h.failed err

/-- **Sending is the queue's sending.** The cases are those of the queue:
closed, oversize, room, and then the four modes. -/
theorem Refines.send (h : ch.Refines config q) (hslice : bytes.length ≤ isizeMax) :
    Meets config ch (q.send config bytes)
      (call.answer ((fun _ => none) <$> ShmSpscChannel.send bytes) ch) := by
  have hbound := h.bounded
  have hlen := h.len
  unfold BoundedFifo.send
  simp only
  split
  · rename_i hclosed
    have hsend : ShmSpscChannel.send bytes ch = .error (.ofChannel .closed) ch := by
      rw [ShmSpscChannel.send, Effect.get_bind, if_pos (by rw [h.closed, hclosed])]
      rfl
    rw [answer_error hsend]
    exact h.failed _
  · rename_i hopen
    replace hopen : q.closed = false := Bool.eq_false_iff.2 hopen
    split
    · rename_i hover
      have hsend : ShmSpscChannel.send bytes ch =
          .error (.ofChannel (.messageTooLarge bytes.length (maxMessageSize config))) ch := by
        rw [ShmSpscChannel.send, Effect.get_bind, if_neg (by rw [h.closed, hopen]; simp),
          h.geometry, sendPlan_oversize h.space h.pos hslice hover]
        rfl
      rw [answer_error hsend]
      exact h.failed _
    · rename_i hfits
      obtain ⟨plan, hplan, hslots⟩ := sendPlan_fits h.space h.pos hslice hfits
      have hmost := neededSlots_le h.pos hplan
      have hprep : prepareSendSlots plan.neededSlots ch =
          (if plan.neededSlots ≤ config.capacity - q.occupied config then .ok true ch
          else match config.backpressure with
            | .raise | .block => .error (.ofChannel .bufferFull) ch
            | .dropNewest => .ok false ch
            | .dropOldest =>
                (ShmSpscChannel.dropUntilRoom plan.neededSlots (config.capacity + 1) >>= fun _ =>
                  pure true) ch) := by
        rw [prepareSendSlots, Effect.get_bind, if_neg (by rw [h.geometry]; omega), h.geometry, hlen]
        split
        · rfl
        · rename_i hfull
          cases config.backpressure with
          | raise => rfl
          | dropNewest => rfl
          | dropOldest => rfl
          | block =>
              have hwait : waitForSpace plan.neededSlots ch =
                  .error (.ofChannel .bufferFull) ch := by
                rw [waitForSpace, Effect.get_bind, h.geometry, hlen, if_neg hfull]
                rfl
              exact Effect.bind_error hwait
      rw [← hslots]
      split
      · rename_i hroom
        rw [if_pos (by omega)] at hprep
        exact h.sent hopen hplan hslice hprep h hroom
      · rename_i hfull
        rw [if_neg (by omega)] at hprep
        cases hmode : config.backpressure with
        | raise =>
            rw [hmode] at hprep
            exact h.refused hopen hplan hprep (.inr ⟨_, rfl, rfl⟩)
        | block =>
            rw [hmode] at hprep
            exact h.refused hopen hplan hprep (.inr ⟨_, rfl, rfl⟩)
        | dropNewest =>
            rw [hmode] at hprep
            exact h.refused hopen hplan hprep (.inl ⟨rfl, rfl⟩)
        | dropOldest =>
            rw [hmode] at hprep
            obtain ⟨ch₁, hloop, h₁⟩ := h.dropUntilRoom (config.capacity + 1) hmost
              (by
                have hmany : q.entries.length ≤ load (BoundedFifo.weight config) q.entries :=
                  length_le_load fun m hm => weight_pos (h.taken m hm)
                unfold BoundedFifo.occupied at hbound
                omega)
            have htrim := load_trim_le (BoundedFifo.weight config)
              (config.capacity - plan.neededSlots) q.entries
            refine h.sent hopen hplan hslice (hprep.trans (Effect.bind_ok hloop)) h₁ ?_
            show load _ (trim _ _ q.entries) + plan.neededSlots ≤ config.capacity
            omega

/-- **Receiving is the queue's receiving.** -/
theorem Refines.recvWithSeq (h : ch.Refines config q) :
    Meets config ch q.recvWithSeq (call.answer (some <$> ShmSpscChannel.recvWithSeq) ch) := by
  have hlen := h.len
  unfold BoundedFifo.recvWithSeq
  cases hq : q.entries with
  | nil =>
      rw [BoundedFifo.occupied, hq, load_nil] at hlen
      have hrecv : ShmSpscChannel.recvWithSeq ch =
          .error (.ofChannel (if q.closed then .closed else .bufferEmpty)) ch := by
        rw [ShmSpscChannel.recvWithSeq, Effect.get_bind]
        cases hclosed : q.closed with
        | true =>
            rw [if_pos ⟨h.closed.trans hclosed, hlen⟩]
            rfl
        | false =>
            rw [if_neg (fun hc => by rw [h.closed, hclosed] at hc; exact Bool.noConfusion hc.1),
              if_pos hlen]
            rfl
      rw [answer_error hrecv]
      exact h.failed _
  | cons message messages =>
      obtain ⟨⟨plan, hplan⟩, hslice⟩ := h.taken message (hq ▸ List.mem_cons_self)
      obtain ⟨data, datas, hframes, hdeliver⟩ : Delivers message.seq _ _ :=
        delivers_messageFrames hplan h.word hslice
      have hring := h.ring
      rw [hq, List.flatMap_cons] at hring
      have hcells : cellsFor config message =
          (((data :: datas).map fun d => (⟨message.seq, d⟩ : SlotSnapshot)).map .committed) := by
        rw [cellsFor, snapshotsOf, framesOf_eq _ hplan, hframes]
      rw [hcells] at hring
      have hlive : ch.len ≠ 0 := by
        rw [h.ring.len, hq, List.flatMap_cons, List.length_append, hcells]
        simp
      obtain ⟨region, hread, hpinned⟩ := readTail_ok
        (show ch.Ring (.committed ⟨message.seq, data⟩ :: _) from hring)
      -- The rest of the receive is the inbox's, from the pinned frame on.
      have hreading : Reading ch { ch with region }
          ⟨(messageFrames plan message.seq message.payload).map (⟨message.seq, ·⟩) ++
            messages.flatMap (snapshotsOf config), .pinned, 0, ch.expectedRecvSeq,
            ch.lastReceivedSeq⟩ := by
        refine ⟨?_, fun _ => by simp [hframes], rfl, rfl, rfl, rfl, rfl⟩
        rw [hframes]
        simp only [List.map_cons, List.cons_append, cellsOf, List.map_append, List.map_flatMap]
        exact hpinned
      obtain ⟨ch', hfinish, hdone⟩ :=
        ((simulates_tailOps ch).finishRecv ⟨message.seq, data⟩).ok hreading (hdeliver _ _ _ _)
      have hseq : message.seq = ch.expectedRecvSeq := by
        have hnumbered := h.numbered
        rw [hq] at hnumbered
        rw [h.expected, hq]
        exact hnumbered.1
      have hrecv : ShmSpscChannel.recvWithSeq ch = .ok message ch' := by
        rw [ShmSpscChannel.recvWithSeq, Effect.get_bind, if_neg fun hc => hlive hc.2, if_neg hlive]
        refine (Effect.bind_ok hread).trans ?_
        rw [if_neg fun hne => hne hseq]
        exact hfinish
      rw [answer_ok hrecv]
      have hring' : ch'.Ring (messages.flatMap (cellsFor config)) := by
        have hcells' := hdone.ring
        simp only [cellsOf, List.map_flatMap] at hcells'
        exact hcells'
      exact ⟨rfl, h.behead hq hdone.config hring' hdone.nextSeq hdone.expected hdone.last
        hdone.closed, fun _ he => by cases he⟩

/-- **A new channel is the empty queue.** -/
theorem refines_new (h : ShmSpscChannel.new config = .ok ch) : ch.Refines config .empty := by
  obtain ⟨hcap, hfits, rfl⟩ := new_ok h
  exact ⟨rfl, ring_fresh hcap hfits, fun m hm => (nomatch hm), Nat.le_refl 0, trivial, rfl, rfl,
    rfl, rfl⟩

/-- **Every call is the queue's.** -/
theorem Refines.call (h : ch.Refines config q) {op : FifoCall} (hslice : op.IsSlice) :
    Meets config ch (q.call config op) (ch.call op) := by
  cases op with
  | send bytes => exact h.send hslice
  | recvWithSeq => exact h.recvWithSeq
  | close =>
      have hclose : ShmSpscChannel.close ch = .ok () { ch with closed := true } := rfl
      unfold BoundedFifo.call ShmSpscChannel.call
      rw [answer_ok hclose]
      exact ⟨rfl, ⟨h.geometry, h.ring.of_same rfl rfl rfl rfl rfl, h.taken, h.queued, h.numbered,
        h.nextSeq, h.expected, h.last, rfl⟩, fun _ he => by cases he⟩

variable (config) in
/-- The channel and the queue answer alike and stay related. -/
theorem bisimilar : Machine.Bisimilar (fun _ op => op.IsSlice)
    (fun ch q => Refines config ch q) ShmSpscChannel.call (BoundedFifo.call config) :=
  fun _ _ _ h hslice => ⟨(h.call hslice).1, (h.call hslice).2.1⟩

end ShmSpscChannel

open ShmSpscChannel Machine

/-- **The in-memory channel is a bounded FIFO.** Whatever is called, the
channel answers as the queue does; the slots taken never exceed the
capacity; and a call that fails leaves the channel as it was. -/
theorem bounded_fifo {config : SpscConfig} {ch : ShmSpscChannel} {calls : List FifoCall}
    (hnew : ShmSpscChannel.new config = .ok ch) (hslices : ∀ op ∈ calls, op.IsSlice) :
    outputs call ch calls = outputs (BoundedFifo.call config) .empty calls ∧
      (after (BoundedFifo.call config) .empty calls).occupied config ≤ config.capacity ∧
      ∀ op err, op.IsSlice → (call (after call ch calls) op).1 = .error err →
        (call (after call ch calls) op).2 = after call ch calls := by
  have hmeets := meets_of_forall (f := call) (s := ch) hslices
  have hrefines := (bisimilar config).after hmeets (refines_new hnew)
  refine ⟨(bisimilar config).outputs_eq hmeets (refines_new hnew), hrefines.bounded, ?_⟩
  intro op err hop herr
  exact (hrefines.call hop).2.2 err herr

/-- A ring of three slots of 90 bytes. -/
def sampleFifo : SpscConfig := ⟨3, 90, .dropOldest, none, false⟩

/-- A chunked message, one that drops it, and a receive. -/
def sampleCalls : List FifoCall :=
  [.send (List.replicate 100 7), .send [1, 2], .recvWithSeq, .close, .recvWithSeq]

omit [Checksum] in
theorem bounded_fifo_sample :
    outputs (@call crc32Checksum) (fresh sampleFifo ⟨3, 140, Area.zero⟩) sampleCalls =
      [.ok none, .ok none, .ok (some ⟨1, [1, 2]⟩), .ok none, .error (.ofChannel .closed)] :=
  (@bounded_fifo crc32Checksum sampleFifo _ sampleCalls
    (rfl : ShmSpscChannel.new sampleFifo = .ok (fresh sampleFifo ⟨3, 140, Area.zero⟩))
    (by decide)).1.trans (by decide +kernel)

end Dsline
