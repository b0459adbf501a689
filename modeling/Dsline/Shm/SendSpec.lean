import Dsline.Shm.ChannelSend
import Dsline.Shm.Handle
/-!
# What the send calls do

The specifications of a single-producer `send` over a laid-out region: an
admitted message is appended to the contents (`sendSpsc_ok`), and a message the
guard does not admit changes nothing but the handle's mirrors
(`send_rejected`). The guard counts from the pin floor, so what it admits
lies behind every pin (`room_of_admits`).
-/

namespace Dsline

open PersistentShmChannel

/-- The floor word of a set of pins: the smallest, or the sentinel. -/
def FloorOf (pins : List ℕ) (floor : ℕ) : Prop :=
  (pins = [] ∧ floor = PIN_FLOOR_NONE) ∨ (floor ∈ pins ∧ ∀ cursor ∈ pins, floor ≤ cursor)

/-- What the messages' frames leave in the ring. -/
abbrev framesContents (seq : UInt64) (frames : List Bytes) : List Content :=
  frames.map fun frame => .committed ⟨seq, stored frame⟩

/-- What taking the next sequence and `n` slots, of which `published` are
counted at once, leaves as it was. -/
structure World.Sent (w : World) (n published : ℕ) (w' : World) : Prop where
  words : w.region.Words (w.region.head + published) w.region.tail w.region.pinFloor w'.region
  mirror : w'.chan.headCursor = w.region.head + published
  config : w'.chan.config = w.chan.config
  closed : w'.chan.closed = w.chan.closed
  head : w'.chan.head = (w.chan.head + n) % w.region.capacity
  nextSeq : w'.chan.nextSeq = w.chan.nextSeq + 1
  bias : w'.chan.recoveryBias = w.chan.recoveryBias
  writer : w'.chan.writer = w.chan.writer
  writerEpoch : w'.chan.writerEpoch = w.chan.writerEpoch
  expected : w'.chan.expectedRecvSeq = w.chan.expectedRecvSeq
  resync : w'.chan.resyncExpected = w.chan.resyncExpected

namespace PersistentShmChannel

open World

variable {w : World} {host : Host} {contents : List Content} {pins : List Pin} {seq : UInt64}
  {needed : ℕ}

/-! ## The guard -/

/-- What the guard counts from: the floor, or the tail where nothing is
pinned. -/
theorem guardLen_refreshed {d : ℕ} (hbias : w.chan.recoveryBias = 0) :
    (w.refreshed d).chan.guardLen =
      min (w.region.head -
        (if w.region.pinFloor = PIN_FLOOR_NONE then w.region.tail
          else min w.region.pinFloor w.region.tail)) w.chan.config.capacity := by
  simp only [guardLen, refreshed, withCursors, hbias, Nat.add_zero]

/-- **What the guard admits lies behind every pin.** -/
theorem room_of_admits {d : ℕ} (hs : w.Sound) (hbias : w.chan.recoveryBias = 0)
    (hfloor : FloorOf (pins.map Pin.cursor) w.region.pinFloor)
    (hpins : ∀ p ∈ pins, p.cursor < w.region.tail)
    (hadm : (w.refreshed d).chan.admits needed) (hpos : 0 < needed) :
    w.region.head + needed ≤ w.region.tail + w.region.capacity ∧
      ∀ p ∈ pins, w.region.head + needed ≤ p.cursor + w.region.capacity := by
  have hcap := hs.capacity
  have hword := hs.word
  have hord := hs.ordered
  simp only [admits, guardLen_refreshed hbias] at hadm
  have hconf : (w.refreshed d).chan.config.capacity = w.region.capacity := hcap
  rw [hconf, hcap] at hadm
  rcases hfloor with ⟨hnil, hf⟩ | ⟨hmem, hmin⟩
  · rw [if_pos hf] at hadm
    rw [List.map_eq_nil_iff] at hnil
    subst hnil
    exact ⟨by omega, by simp⟩
  · obtain ⟨q, hq, hqe⟩ := List.mem_map.1 hmem
    have hlt := hpins q hq
    have hne : w.region.pinFloor ≠ PIN_FLOOR_NONE := by
      simp only [PIN_FLOOR_NONE, wordCount] at hword ⊢
      omega
    rw [if_neg hne, Nat.min_eq_left (by omega)] at hadm
    refine ⟨by omega, fun p hp => ?_⟩
    have := hmin _ (List.mem_map_of_mem hp)
    omega

/-- Without pins the guard is the depth. -/
theorem admits_iff {d : ℕ} (hs : w.Sound) (hbias : w.chan.recoveryBias = 0)
    (hfloor : w.region.pinFloor = PIN_FLOOR_NONE) (hpos : 0 < needed) :
    (w.refreshed d).chan.admits needed ↔
      w.region.head + needed ≤ w.region.tail + w.region.capacity := by
  have hcap := hs.capacity
  have hord := hs.ordered
  have hconf : (w.refreshed d).chan.config.capacity = w.region.capacity := hcap
  simp only [admits, guardLen_refreshed hbias, if_pos hfloor, hconf, hcap]
  omega

theorem checkSlots_ok (h : needed ≤ w.chan.config.capacity) : checkSlots needed w = .ok () w := by
  rw [checkSlots, Effect.get_bind, if_neg (Nat.not_lt.2 h)]
  rfl

/-- An admitted message goes on. -/
theorem prepareSendSlots_admitted (hfit : needed ≤ w.chan.config.capacity)
    (hadm : w.chan.admits needed) : prepareSendSlots host needed w = .ok true w := by
  rw [prepareSendSlots, Effect.bind_ok (checkSlots_ok hfit), Effect.get_bind, if_pos hadm]
  rfl

/-- Waiting for space that nobody frees. -/
theorem waitForSpaceUntil_full {polls : ℕ} (hs : w.Sound)
    (hadm : ¬ (w.refreshed (w.region.head - w.region.tail)).chan.admits needed) :
    waitForSpaceUntil needed polls (w.refreshed (w.region.head - w.region.tail)) =
      .error (.ofChannel .bufferFull) (w.refreshed (w.region.head - w.region.tail)) := by
  have hcur : refreshCursors (w.refreshed (w.region.head - w.region.tail)) =
      .ok () (w.refreshed (w.region.head - w.region.tail)) :=
    refreshCursors_ok (w := w.refreshed (w.region.head - w.region.tail)) hs.cursorLen
  induction polls with
  | zero => rfl
  | succ polls ih =>
      rw [waitForSpaceUntil, Effect.bind_ok hcur, Effect.get_bind, if_neg hadm]
      exact ih

/-- How a message the guard does not admit is turned away, where the
backpressure does not drop old messages. -/
def turnedAway (backpressure : Backpressure) : Except Failure Bool :=
  match backpressure with
  | .dropNewest => .ok false
  | _ => .error (.ofChannel .bufferFull)

variable (host) in
/-- A message the guard does not admit is turned away. -/
theorem prepareSendSlots_full (hs : w.Sound) (hfit : needed ≤ w.chan.config.capacity)
    (hadm : ¬ (w.refreshed (w.region.head - w.region.tail)).chan.admits needed)
    (hdrop : w.chan.config.backpressure ≠ .dropOldest) :
    prepareSendSlots host needed (w.refreshed (w.region.head - w.region.tail)) =
      match turnedAway w.chan.config.backpressure with
      | .ok b => .ok b (w.refreshed (w.region.head - w.region.tail))
      | .error err => .error err (w.refreshed (w.region.head - w.region.tail)) := by
  have hconf : (w.refreshed (w.region.head - w.region.tail)).chan.config = w.chan.config := rfl
  rw [prepareSendSlots, Effect.bind_ok (checkSlots_ok (hconf ▸ hfit)), Effect.get_bind,
    if_neg hadm, hconf]
  cases hb : w.chan.config.backpressure with
  | raise => rfl
  | dropNewest => rfl
  | dropOldest => exact absurd hb hdrop
  | block =>
      have hwait : waitForSpace host needed (w.refreshed (w.region.head - w.region.tail)) =
          .error (.ofChannel .bufferFull) (w.refreshed (w.region.head - w.region.tail)) := by
        rw [waitForSpace, Effect.get_bind, if_neg hadm, hconf]
        cases w.chan.config.timeout with
        | none => rfl
        | some _ => exact waitForSpaceUntil_full hs hadm
      exact Effect.bind_error hwait

/-! ## Writing the frames -/

variable (seq) in
/-- **Writing frames appends their contents.** The induction is on the
frames; room behind the contents is what the next write needs. -/
theorem writeFrames_ok (stamp : WriterIdentity) (frames : List Bytes) :
    ∀ {w : World} {contents : List Content}, w.chan.config.capacity = w.region.capacity →
      Layout w.region contents pins → 0 < w.region.capacity →
      w.chan.head = (w.region.tail + contents.length) % w.region.capacity →
      contents.length + frames.length ≤ w.region.capacity →
      (∀ p ∈ pins, w.region.tail + contents.length + frames.length ≤ p.cursor + w.region.capacity) →
      (∀ frame ∈ frames, frame.length ≤ w.region.frameCapacity) →
      ∃ region', writeFrames seq stamp frames w =
          .ok ()
            { chan :=
                { w.chan with
                  head := (w.chan.head + frames.length) % w.region.capacity
                  len := w.chan.len + frames.length }
              region := region' } ∧
        Layout region' (contents ++ framesContents seq frames) pins ∧
        w.region.Words w.region.head w.region.tail w.region.pinFloor region' := by
  induction frames with
  | nil =>
      intro w contents hcap hl hpos hhead _ _ _
      refine ⟨w.region, ?_, by simpa using hl, .refl _⟩
      have hmod : w.chan.head % w.region.capacity = w.chan.head :=
        Nat.mod_eq_of_lt (hhead ▸ Nat.mod_lt _ hpos)
      simp only [List.length_nil, Nat.add_zero, hmod]
      rfl
  | cons frame frames ih =>
      intro w contents hcap hl hpos hhead hroom hpins hframe
      rw [List.length_cons] at hroom hpins
      have hfree : w.region.state (Layout.at' w.region contents.length) = .free := by
        exact hl.free _ (Nat.le_refl _) (by omega) fun p hp he => by
          have := hpins p hp
          omega
      have hfit := hframe frame List.mem_cons_self
      have hwrite := Region.writeCommittedNoFlush_ok seq stamp hfree hfit
      have hon : onRegion (Region.writeCommittedNoFlush w.chan.head seq frame stamp) w =
          .ok () ⟨w.chan, w.region.setSlot (Layout.at' w.region contents.length)
            ((w.region.slots (Layout.at' w.region contents.length)).committed seq frame)⟩ := by
        rw [onRegion, hhead, hwrite]
      have hl' := hl.push (by omega) hfree (Region.shows_committed _ _
        (w.region.slots (Layout.at' w.region contents.length)) seq hfit)
      rw [writeFrames, Effect.get_bind, Effect.bind_ok hon]
      obtain ⟨region', hrun, hl'', hwords⟩ := ih
        (w := { chan := { w.chan with
                  head := (w.chan.head + 1) % w.chan.config.capacity
                  len := w.chan.len + 1 }
                region := w.region.setSlot (Layout.at' w.region contents.length)
                  ((w.region.slots (Layout.at' w.region contents.length)).committed seq frame) })
        hcap hl' hpos
        (by
          simp only [List.length_append, List.length_singleton, Region.setSlot_tail,
            Region.setSlot_capacity, hcap, hhead]
          exact Window.mod_succ_mod _)
        (by simp only [List.length_append, List.length_singleton, Region.setSlot_capacity]; omega)
        (fun p hp => by
          have := hpins p hp
          simp only [List.length_append, List.length_singleton, Region.setSlot_tail,
            Region.setSlot_capacity]
          omega)
        (fun f hf => hframe f (List.mem_cons_of_mem _ hf))
      refine ⟨region', ?_, by simpa using hl'', ⟨hwords.capacity, hwords.frameCapacity,
        hwords.magic, hwords.format, hwords.head, hwords.tail, hwords.pinFloor⟩⟩
      refine Eq.trans hrun ?_
      simp only [Region.setSlot_capacity, hcap, Nat.mod_add_mod, List.length_cons, Nat.add_assoc,
        Nat.add_comm 1]

/-! ## Send -/

/-- Taking the next sequence. -/
theorem takeSeq_ok : takeSeq w =
    .ok w.chan.nextSeq ⟨{ w.chan with nextSeq := w.chan.nextSeq + 1 }, w.region⟩ := rfl

variable [Checksum] {bytes : Bytes} {plan : SendPlan}

/-- What every single-producer send starts with. -/
theorem send_start (hs : w.Sound) (hmode : w.chan.config.multiProducer = false) :
    send host bytes w =
      match sendPlan w.chan.config bytes.length with
      | .error err => .error err (w.refreshed (w.region.head - w.region.tail))
      | .ok plan => sendSpsc host bytes plan (w.refreshed (w.region.head - w.region.tail)) := by
  have hclosed : ¬ w.chan.closed = true := by simp [hs.opened]
  have hconf : (w.refreshed (w.region.head - w.region.tail)).chan.config = w.chan.config := rfl
  have hmulti : ¬ w.chan.config.multiProducer = true := by simp [hmode]
  rw [send, Effect.get_bind, if_neg hclosed]
  refine (Effect.bind_ok hs.refreshCursors).trans ?_
  rw [Effect.get_bind, hconf]
  cases sendPlan w.chan.config bytes.length with
  | error err => rfl
  | ok plan =>
      simp only [if_neg hmulti]

variable (host) in
/-- **A message that has no plan** is refused. -/
theorem send_unplanned {err : Failure} (hs : w.Sound)
    (hmode : w.chan.config.multiProducer = false)
    (hplan : sendPlan w.chan.config bytes.length = .error err) :
    send host bytes w = .error err (w.refreshed (w.region.head - w.region.tail)) := by
  rw [send_start hs hmode, hplan]

/-- **A message the guard does not admit** is turned away. -/
theorem send_rejected (hs : w.Sound) (hmode : w.chan.config.multiProducer = false)
    (hplan : sendPlan w.chan.config bytes.length = .ok plan)
    (hadm : ¬ (w.refreshed (w.region.head - w.region.tail)).chan.admits plan.neededSlots)
    (hdrop : w.chan.config.backpressure ≠ .dropOldest) :
    send host bytes w =
      match turnedAway w.chan.config.backpressure with
      | .ok _ => .ok () (w.refreshed (w.region.head - w.region.tail))
      | .error err => .error err (w.refreshed (w.region.head - w.region.tail)) := by
  have hfit := neededSlots_le (hs.capacity ▸ hs.pos) hplan
  have hprep := prepareSendSlots_full host hs hfit hadm hdrop
  rw [send_start hs hmode, hplan]
  simp only [sendSpsc]
  cases hb : w.chan.config.backpressure <;> rw [hb] at hprep <;>
    first | exact Effect.bind_error hprep | exact (Effect.bind_ok hprep).trans rfl

variable (host) in
/-- **Sending an admitted message** appends its frames to the contents. -/
theorem sendSpsc_ok {w₀ : World} (hcap : w.chan.config.capacity = w.region.capacity)
    (hpos : 0 < w.region.capacity) (hmirror : w.chan.headCursor = w.region.head)
    (hplan : sendPlan w.chan.config bytes.length = .ok plan)
    (hcapw : w.chan.config.capacity < 2 ^ 64) (hlen : bytes.length ≤ isizeMax)
    (hframe : w.region.frameCapacity = w.chan.config.slotSize + FRAME_HEADER_LEN)
    (hprep : prepareSendSlots host plan.neededSlots w₀ = .ok true w)
    (hl : Layout w.region contents pins)
    (hhead : w.chan.head = (w.region.tail + contents.length) % w.region.capacity)
    (hroom : contents.length + plan.neededSlots ≤ w.region.capacity)
    (hpins : ∀ p ∈ pins,
      w.region.tail + contents.length + plan.neededSlots ≤ p.cursor + w.region.capacity) :
    ∃ w', sendSpsc host bytes plan w₀ = .ok () w' ∧
      Layout w'.region
        (contents ++ framesContents w.chan.nextSeq (messageFrames plan w.chan.nextSeq bytes))
        pins ∧
      w.Sent plan.neededSlots plan.neededSlots w' := by
  have hnum := length_messageFrames w.chan.nextSeq hplan
  have henc := encodeMessageFrames_ok w.chan.nextSeq hplan hcapw hlen
  obtain ⟨region', hrun, hl', hwords⟩ := writeFrames_ok w.chan.nextSeq
    (w.chan.writer.stamp host w.chan.writerEpoch plan.neededSlots)
    (messageFrames plan w.chan.nextSeq bytes)
    (w := ⟨{ w.chan with nextSeq := w.chan.nextSeq + 1 }, w.region⟩) hcap hl hpos hhead
    (by rw [hnum]; exact hroom) (by rw [hnum]; exact hpins)
    (fun frame hf => hframe ▸ length_le_of_mem_messageFrames hplan hf)
  simp only [sendSpsc]
  rw [Effect.bind_ok hprep, if_pos rfl]
  rw [Effect.bind_ok takeSeq_ok, Effect.get_bind]
  simp only [henc]
  rw [Effect.bind_ok hrun]
  refine ⟨_, rfl, hl'.congr rfl rfl rfl rfl, ⟨⟨hwords.capacity, hwords.frameCapacity,
    hwords.magic, hwords.format, ?_, hwords.tail, hwords.pinFloor⟩, ?_, rfl, rfl, ?_, rfl, rfl,
    rfl, rfl, rfl, rfl⟩⟩
  · simp only [Region.storeHead, hnum, hmirror]
  · simp only [hnum, hmirror]
  · simp only [hnum]

end PersistentShmChannel

end Dsline
