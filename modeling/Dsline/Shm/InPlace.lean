import Dsline.Shm.FailedView
import Dsline.Shm.Leases
import Dsline.Shm.SpscReceive
/-!
# Messages that are not copied

A message is sent without a copy by leasing a slot, writing through the
lease and publishing it, and received without one by viewing the slot,
reading the view and releasing it. Where messages fit a slot, a call of
either kind returns what the call that copies returns and leaves the handle
and the region, byte for byte, as that call leaves them; so do whole runs,
whichever of its calls copy (`in_place_agrees`).
-/

namespace Dsline

open PersistentShmChannel Effect

variable [Checksum]

namespace PersistentShmChannel

/-- A message sent through a lease: `alloc`, one `write`, `publish`. -/
def sendInPlace (host : Host) (bytes : Bytes) : ChannelM Unit := do
  let lease ← alloc host bytes.length
  onRegion (lease.write 0 bytes)
  let _ ← publish lease

/-- A message received through a view: `recv_view`, `read_all`, `release`. -/
def recvInPlace (host : Host) : ChannelM ReceivedMessage := do
  let view ← recvView host
  let w ← get
  let payload ← ofExcept (view.readAll w.region)
  let _ ← onRegion view.release
  return ⟨view.seq, payload⟩

end PersistentShmChannel

/-! ## Sending -/

section Send

variable {w : World} {host : Host} {bytes : Bytes} {d : ℕ}

/-- The world once a message of one slot is sent. -/
def World.sentOne (w : World) (bytes : Bytes) : World where
  chan :=
    { w.chan with
      head := (w.chan.head + 1) % w.chan.config.capacity
      len := w.chan.len + 1
      nextSeq := w.chan.nextSeq + 1
      headCursor := w.chan.headCursor + 1 }
  region :=
    (w.region.setSlot w.chan.head ((w.region.slots w.chan.head).committed w.chan.nextSeq
      (frameBytes 0 w.chan.nextSeq [] bytes))).storeHead (w.chan.headCursor + 1)

/-- What a message of one slot needs to be sent from a refreshed handle. -/
structure MaySendOne (w : World) (bytes : Bytes) : Prop where
  sound : w.Sound
  mode : w.chan.config.multiProducer = false
  noDrop : w.chan.config.backpressure ≠ .dropOldest
  size : bytes.length ≤ w.chan.config.slotSize
  frame : w.chan.config.slotSize + FRAME_HEADER_LEN ≤ w.region.frameCapacity
  length : bytes.length ≤ isizeMax
  word : w.region.head + 1 < wordCount

omit [Checksum] in
theorem sendPlan_single {config : SpscConfig} {len : ℕ} (h : len ≤ config.slotSize) :
    sendPlan config len = .ok ⟨config.slotSize, 1⟩ :=
  if_pos h

omit [Checksum] in
theorem MaySendOne.capacity_pos (h : MaySendOne w bytes) : 1 ≤ w.chan.config.capacity :=
  h.sound.capacity ▸ h.sound.pos

omit [Checksum] in
theorem MaySendOne.fits (h : MaySendOne w bytes) :
    FRAME_HEADER_LEN + bytes.length ≤ w.region.frameCapacity := by
  have hsize := h.size
  have hframe := h.frame
  omega

theorem encodeFrameHeader_single (seq : UInt64) (hlen : bytes.length ≤ isizeMax) :
    encodeFrameHeader .bytes 0 seq 0 0 (checksum32 bytes) bytes.length [] =
      .ok (headerBytes .bytes 0 seq 0 0 (checksum32 bytes) bytes.length FRAME_HEADER_LEN []) := by
  have hm : (metadataLen []).bind (checkedAdd FRAME_HEADER_LEN) = some FRAME_HEADER_LEN := by
    decide
  have hword : bytes.length < 2 ^ 64 := Nat.lt_of_le_of_lt hlen (by decide)
  simp only [encodeFrameHeader, hm]
  exact if_pos ⟨by decide, hword⟩

theorem length_frameBytes_single (seq : UInt64) :
    (frameBytes 0 seq [] bytes).length = FRAME_HEADER_LEN + bytes.length := by
  rw [length_frameBytes]
  rfl

omit [Checksum] in
theorem writeFrames_single {seq : UInt64} {frame : Bytes} (stamp : WriterIdentity)
    (hfree : w.region.state w.chan.head = .free) (hfit : frame.length ≤ w.region.frameCapacity) :
    writeFrames seq stamp [frame] w =
      .ok ()
        { chan :=
            { w.chan with
              head := (w.chan.head + 1) % w.chan.config.capacity
              len := w.chan.len + 1 }
          region := w.region.setSlot w.chan.head
            ((w.region.slots w.chan.head).committed seq frame) } := by
  have hon : onRegion (Region.writeCommittedNoFlush w.chan.head seq frame stamp) w =
      .ok () ⟨w.chan, w.region.setSlot w.chan.head
        ((w.region.slots w.chan.head).committed seq frame)⟩ := by
    rw [onRegion, Region.writeCommittedNoFlush_ok seq stamp hfree hfit]
  rw [writeFrames, get_bind, bind_ok hon]
  rfl

variable (host) in
theorem sendSpsc_single {w₀ : World} {size : ℕ} (hprep : prepareSendSlots host 1 w₀ = .ok true w)
    (hlen : bytes.length ≤ isizeMax) (hfree : w.region.state w.chan.head = .free)
    (hfit : FRAME_HEADER_LEN + bytes.length ≤ w.region.frameCapacity) :
    sendSpsc host bytes ⟨size, 1⟩ w₀ = .ok () (w.sentOne bytes) := by
  have henc : encodeMessageFrames w.chan.config ⟨size, 1⟩ w.chan.nextSeq bytes =
      .ok [frameBytes 0 w.chan.nextSeq [] bytes] := by
    simp only [encodeMessageFrames, if_true, encodeFrame, encodeFrameHeader_single _ hlen]
    rfl
  have hwrite : writeFrames w.chan.nextSeq (w.chan.writer.stamp host w.chan.writerEpoch 1)
      [frameBytes 0 w.chan.nextSeq [] bytes]
        ⟨{ w.chan with nextSeq := w.chan.nextSeq + 1 }, w.region⟩ = _ :=
    writeFrames_single _ hfree (by
      rw [length_frameBytes_single]
      exact hfit)
  simp only [sendSpsc]
  rw [bind_ok hprep, if_pos rfl, bind_ok takeSeq_ok, get_bind]
  simp only [henc]
  rw [bind_ok hwrite]
  rfl

variable (host) in
/-- **A message of one slot that is copied.** -/
theorem send_single (h : MaySendOne w bytes)
    (hadm : (w.refreshed (depth w)).chan.admits 1) (hfree : w.region.state w.chan.head = .free) :
    send host bytes w = .ok () ((w.refreshed (depth w)).sentOne bytes) := by
  have hprep : prepareSendSlots host 1 (w.refreshed (depth w)) = .ok true (w.refreshed (depth w)) :=
    prepareSendSlots_admitted h.capacity_pos hadm
  rw [send_start h.sound h.mode, sendPlan_single h.size]
  exact sendSpsc_single host hprep h.length hfree h.fits

omit [Checksum] in
variable (host) in
/-- The slot at the head is leased. -/
theorem alloc_single (h : MaySendOne w bytes)
    (hadm : (w.refreshed (depth w)).chan.admits 1) (hfree : w.region.state w.chan.head = .free) :
    alloc host bytes.length w =
      .ok ⟨(w.refreshed (depth w)).chan.head, (w.refreshed (depth w)).chan.nextSeq, bytes.length,
        false⟩ ((w.refreshed (depth w)).leased host bytes.length) := by
  have hlen := h.length
  have hadd : checkedAdd FRAME_HEADER_LEN bytes.length = some (FRAME_HEADER_LEN + bytes.length) :=
    if_pos (by
      simp only [FRAME_HEADER_LEN, wordCount, isizeMax] at hlen ⊢
      omega)
  have hprep : prepareSendSlots host 1 (w.refreshed (depth w)) = .ok true (w.refreshed (depth w)) :=
    prepareSendSlots_admitted h.capacity_pos hadm
  rw [alloc, get_bind, if_neg (by simp [h.sound.opened]), if_neg (by simp [h.mode]),
    if_neg h.noDrop, if_neg (Nat.not_lt.2 h.size), hadd]
  simp only
  rw [bind_ok h.sound.refreshCursors, bind_ok hprep, if_neg (by simp), get_bind,
    if_neg (show ¬ (w.refreshed (depth w)).region.state (w.refreshed (depth w)).chan.head ≠ .free
      from not_not.2 hfree)]
  simp only [World.leased, ← Region.writeWritingHeader_eq]
  rfl

variable (w host bytes) in
/-- The world once a lease of the slot at the head is written. -/
def World.written : World where
  chan := (w.leased host bytes.length).chan
  region := (w.leased host bytes.length).region.setPayload w.chan.head FRAME_HEADER_LEN bytes

omit [Checksum] in
theorem leasePayload_written :
    leasePayload (w.written host bytes).region
      ⟨w.chan.head, w.chan.nextSeq, bytes.length, false⟩ = bytes := by
  simp [leasePayload, World.written, Region.setPayload]

variable (host) in
theorem written_mayPublish (hlen : bytes.length ≤ isizeMax) (hopen : w.chan.closed = false) :
    MayPublish (w.written host bytes) ⟨w.chan.head, w.chan.nextSeq, bytes.length, false⟩
      (headerBytes .bytes 0 w.chan.nextSeq 0 0 (checksum32 bytes) bytes.length FRAME_HEADER_LEN
        []) where
  opened := hopen
  unsealed := rfl
  writing := by
    simp [World.written, World.leased, Region.state, Region.header, Region.setPayload,
      Slot.identified, encodeHeader]
  header := by
    rw [leasePayload_written]
    exact encodeFrameHeader_single _ hlen

/-- **What is published is what is sent**: the payload was written behind the
header, and the header in front of it. -/
theorem published_written (hword : w.chan.headCursor + 1 < wordCount) :
    (w.written host bytes).published ⟨w.chan.head, w.chan.nextSeq, bytes.length, false⟩
      (headerBytes .bytes 0 w.chan.nextSeq 0 0 (checksum32 bytes) bytes.length FRAME_HEADER_LEN
        []) = w.sentOne bytes := by
  have hheader : (headerBytes .bytes 0 w.chan.nextSeq 0 0 (checksum32 bytes) bytes.length
      FRAME_HEADER_LEN []).length = FRAME_HEADER_LEN := length_headerBytes
  have harea := Area.write_append (w.region.slots w.chan.head).payload 0
    (headerBytes .bytes 0 w.chan.nextSeq 0 0 (checksum32 bytes) bytes.length FRAME_HEADER_LEN [])
    bytes
  rw [hheader, Nat.zero_add] at harea
  have hslot : (w.written host bytes).publishedSlot
      ⟨w.chan.head, w.chan.nextSeq, bytes.length, false⟩ (headerBytes .bytes 0 w.chan.nextSeq 0 0
        (checksum32 bytes) bytes.length FRAME_HEADER_LEN []) =
      (w.region.slots w.chan.head).committed w.chan.nextSeq
        (frameBytes 0 w.chan.nextSeq [] bytes) := by
    rw [Slot.committed, length_frameBytes_single]
    simp only [World.publishedSlot, World.written, World.leased, Region.setPayload,
      Region.setSlot_slots_self, Slot.identified, harea]
    rfl
  rw [World.published, hslot]
  have hnext : wrappingAdd w.chan.headCursor 1 = w.chan.headCursor + 1 := wrappingAdd_of_lt hword
  simp only [World.written, World.leased, World.sentOne, Region.setPayload, hnext,
    Region.setSlot_setSlot]

variable (host) in
/-- **A message of one slot that is not copied.** -/
theorem sendInPlace_single (h : MaySendOne w bytes)
    (hadm : (w.refreshed (depth w)).chan.admits 1) (hfree : w.region.state w.chan.head = .free) :
    sendInPlace host bytes w = .ok () ((w.refreshed (depth w)).sentOne bytes) := by
  have halloc := alloc_single host h hadm hfree
  have hopen : (w.refreshed (depth w)).chan.closed = false := h.sound.opened
  have hword : (w.refreshed (depth w)).chan.headCursor + 1 < wordCount := h.word
  generalize w.refreshed (depth w) = v at halloc hopen hword ⊢
  have hmay : MayWrite ⟨v.chan.head, v.chan.nextSeq, bytes.length, false⟩ 0 bytes :=
    ⟨rfl, Nat.zero_le _, Nat.le_refl _⟩
  have hwrite : onRegion (ShmWriteLease.write ⟨v.chan.head, v.chan.nextSeq, bytes.length, false⟩ 0
      bytes) (v.leased host bytes.length) = .ok () (v.written host bytes) := by
    rw [onRegion, write_ok hmay]
    rfl
  have hpub := publish_ok_any (written_mayPublish host h.length hopen)
  rw [published_written hword] at hpub
  rw [sendInPlace, bind_ok halloc, bind_ok hwrite, bind_ok hpub]
  rfl

/-- What a call reports that says so where a message is dropped. -/
def reportDropped (head : ℕ) :
    EStateM.Result Failure World Unit → EStateM.Result Failure World Unit
  | .ok () w => if w.region.head = head then .error (.ofChannel .bufferFull) w else .ok () w
  | .error err w => .error err w

variable (host) in
/-- **Sending without a copy is sending**, but that a message `DropNewest`
drops is reported. -/
theorem sendInPlace_eq (h : MaySendOne w bytes)
    (hfree : (w.refreshed (depth w)).chan.admits 1 → w.region.state w.chan.head = .free) :
    sendInPlace host bytes w = reportDropped w.region.head (send host bytes w) := by
  by_cases hadm : (w.refreshed (depth w)).chan.admits 1
  · rw [sendInPlace_single host h hadm (hfree hadm), send_single host h hadm (hfree hadm)]
    have hmoved : ((w.refreshed (depth w)).sentOne bytes).region.head = w.region.head + 1 := rfl
    rw [reportDropped, hmoved, if_neg (by omega)]
  · have hfull := prepareSendSlots_full host h.sound h.capacity_pos hadm h.noDrop
    have halloc : alloc host bytes.length w =
        .error (.ofChannel .bufferFull) (w.refreshed (depth w)) := by
      have hlen := h.length
      have hadd : checkedAdd FRAME_HEADER_LEN bytes.length =
          some (FRAME_HEADER_LEN + bytes.length) := if_pos (by
        simp only [FRAME_HEADER_LEN, wordCount, isizeMax] at hlen ⊢
        omega)
      rw [alloc, get_bind, if_neg (by simp [h.sound.opened]), if_neg (by simp [h.mode]),
        if_neg h.noDrop, if_neg (Nat.not_lt.2 h.size), hadd]
      simp only
      rw [bind_ok h.sound.refreshCursors]
      cases hb : w.chan.config.backpressure <;> rw [hb] at hfull <;>
        first | exact bind_error hfull | exact (bind_ok hfull).trans rfl
    rw [sendInPlace, bind_error halloc,
      send_rejected h.sound h.mode (sendPlan_single h.size) hadm h.noDrop]
    cases w.chan.config.backpressure with
    | dropNewest => exact (if_pos rfl).symm
    | block => rfl
    | dropOldest => rfl
    | raise => rfl

end Send

/-! ## Receiving -/

section Receive

variable {w : World} {host : Host} {seq : UInt64} {bytes : Bytes} {region : Region} {cursor : ℕ}

/-- What the slot of a message of one slot holds. -/
theorem shows_single
    (hshow : w.region.Shows w.chan.tail (.committed ⟨seq, frameBytes 0 seq [] bytes⟩)) :
    tailSeq w = seq ∧ w.region.payloadLen w.chan.tail = FRAME_HEADER_LEN + bytes.length ∧
      (w.region.slots w.chan.tail).payload.read 0 FRAME_HEADER_LEN =
        (frameBytes 0 seq [] bytes).take FRAME_HEADER_LEN ∧
      (w.region.slots w.chan.tail).payload.read FRAME_HEADER_LEN bytes.length = bytes := by
  obtain ⟨-, hseq, -, hdata⟩ := hshow
  simp only at hseq hdata
  have hpl : w.region.payloadLen w.chan.tail = FRAME_HEADER_LEN + bytes.length := by
    rw [← length_frameBytes_single seq, ← hdata, Region.payload, Area.length_read]
  rw [Region.payload, hpl] at hdata
  refine ⟨hseq, hpl, ?_, ?_⟩
  · rw [← hdata, Area.take_read (Nat.le_add_right _ _)]
  · have hdrop := congrArg (List.drop FRAME_HEADER_LEN) hdata
    rw [Area.drop_read (Nat.le_add_right _ _), Nat.zero_add, Nat.add_sub_cancel_left] at hdrop
    rw [hdrop, frameBytes]
    exact List.drop_left' length_headerBytes

/-- A view takes the header of a message of one slot. -/
theorem acceptedHeader_single (hlen : bytes.length ≤ isizeMax)
    (hshow : w.region.Shows w.chan.tail (.committed ⟨seq, frameBytes 0 seq [] bytes⟩)) :
    acceptedHeader w = some (frameOf 0 seq [] bytes).header := by
  obtain ⟨hseq, hpl, hread, -⟩ := shows_single hshow
  obtain ⟨⟨total, hdec⟩, -, -⟩ :=
    decodeFrame_ok (decodeFrame_frameBytes seq 0 [] bytes (by decide) hlen)
  have hcheck : checkViewHeader (frameOf 0 seq [] bytes).header
      (w.region.slots w.chan.tail).header.seq = .ok () := by
    rw [tailSeq, Region.header] at hseq
    rw [checkViewHeader, if_neg (by simp [framed, FRAME_HEADER_LEN]),
      if_neg (by simp [framed, hseq])]
  simp only [acceptedHeader]
  rw [if_neg (by omega), hread,
    decodeFrameHeader_take (Nat.le_refl _) (by rw [length_frameBytes_single]; omega), hdec]
  simp only [hcheck]

theorem payloadLen_frameOf (hlen : bytes.length ≤ isizeMax) :
    (frameOf 0 seq [] bytes).header.payloadLen.toNat = bytes.length := by
  have hword : bytes.length < 2 ^ 64 := Nat.lt_of_le_of_lt hlen (by decide)
  simp only [framed, UInt64.toNat_ofNat']
  exact Nat.mod_eq_of_lt hword

/-- And its payload. -/
theorem payloadCheck_single (hlen : bytes.length ≤ isizeMax)
    (hshow : w.region.Shows w.chan.tail (.committed ⟨seq, frameBytes 0 seq [] bytes⟩)) :
    payloadCheck w (frameOf 0 seq [] bytes).header = .ok () := by
  obtain ⟨-, hpl, -, hread⟩ := shows_single hshow
  rw [payloadCheck, checkViewPayload, payloadLen_frameOf hlen, hpl, Nat.add_sub_cancel_left, hread,
    if_neg (by simp), if_neg (by simp [framed])]

omit [Checksum] in
variable (region) in
/-- **The floor a view lowers its release raises again**, to where it was. -/
theorem unpinFloor_floorMin (hfloor : region.pinFloor = PIN_FLOOR_NONE ∨ region.pinFloor < cursor)
    (htail : region.tail = cursor) (hword : cursor + 1 < wordCount) :
    ((region.floorMin cursor).fetchMaxTail (cursor + 1)).unpinFloor cursor =
      region.fetchMaxTail (cursor + 1) := by
  have hnone : ∀ c ≤ cursor, c ≠ PIN_FLOOR_NONE := by
    intro c hc
    simp only [PIN_FLOOR_NONE, wordCount] at hword ⊢
    omega
  rcases hfloor with hfloor | hfloor
  · -- The view is the only one: the scan behind it is empty.
    have hlow : region.floorMin cursor = { region with pinFloor := cursor } := by
      rw [Region.floorMin, if_neg fun h => h.1 hfloor]
    have hscan : Region.firstPinned (({ region with pinFloor := cursor } : Region).fetchMaxTail
        (cursor + 1)) (max (cursor + 1) (max region.tail (cursor + 1) - region.capacity))
          (max region.tail (cursor + 1)) = PIN_FLOOR_NONE := by
      rw [Region.firstPinned, show max region.tail (cursor + 1) -
        max (cursor + 1) (max region.tail (cursor + 1) - region.capacity) = 0 by omega]
      rfl
    have hself := hnone cursor (Nat.le_refl _)
    rw [hlow, Region.unpinFloor]
    simp only [Region.fetchMaxTail, ne_eq, not_true_eq_false, false_and, if_false, if_true]
      at hscan ⊢
    rw [hscan, if_pos hself, Region.floorCas, if_pos rfl, ← hfloor]
  · have hlow : region.floorMin cursor = region := by
      rw [Region.floorMin, if_pos ⟨hnone _ (Nat.le_of_lt hfloor), Nat.le_of_lt hfloor⟩]
    rw [hlow, Region.unpinFloor]
    exact if_pos ⟨Nat.ne_of_lt hfloor, hnone _ (Nat.le_of_lt hfloor)⟩

/-- What a message of one slot needs to be received from a handle that
expects it. -/
structure MayReceiveOne (w : World) (seq : UInt64) (bytes : Bytes) (more : List Content)
    (pins : List Pin) : Prop where
  sound : w.Sound
  noDrop : w.chan.config.backpressure ≠ .dropOldest
  layout : Layout w.region (.committed ⟨seq, frameBytes 0 seq [] bytes⟩ :: more) pins
  length : bytes.length ≤ isizeMax
  word : w.region.tail + (1 + (World.readable more).length) < wordCount
  floor : w.region.pinFloor = PIN_FLOOR_NONE ∨ w.region.pinFloor < w.region.tail
  expects : w.chan.resyncExpected = true ∨ w.chan.config.multiProducer = true ∨
    w.chan.expectedRecvSeq = seq

variable {more : List Content} {pins : List Pin}

/-- The world a receive of a message of one slot leaves. -/
def World.receivedOne (w : World) (seq : UInt64) : World :=
  ((settled w seq).consume).counted ((settled w seq).chan.expectedRecvSeq + 1) (some seq)

variable (host) in
theorem recvWithSeq_single (h : MayReceiveOne w seq bytes more pins) :
    recvWithSeq host w = .ok ⟨seq, bytes⟩ (w.receivedOne seq) := by
  have hl : Layout w.region
      ([frameBytes 0 seq [] bytes].map (.committed ⟨seq, ·⟩) ++ more) pins := h.layout
  exact recvWithSeq_run host h.sound hl h.word (delivers_single h.length) h.expects

/-- The world a view of a message of one slot is taken in. -/
def World.viewedOne (host : Host) (w : World) (frameLen : ℕ) (seq : UInt64) : World where
  chan :=
    { w.chan.stepTail with
      expectedRecvSeq := w.chan.expectedRecvSeq + 1
      lastReceivedSeq := some seq }
  region := ((w.region.writePinnedHeader w.chan.tail seq frameLen
    (w.chan.writer.stamp host w.chan.writerEpoch 1)).floorMin w.chan.tailCursor).fetchMaxTail
      w.chan.stepTail.tailCursor

variable (host) in
theorem recvView_single (h : MayReceiveOne w seq bytes more pins) :
    recvView host w = .ok ⟨(settled w seq).chan.tail, seq, bytes.length,
      (settled w seq).chan.tailCursor, false⟩
        ((settled w seq).viewedOne host (FRAME_HEADER_LEN + bytes.length) seq) := by
  have hs := h.sound
  have hm := settled_mirrors seq hs
  have hshow := h.layout.holds.1
  have hshow' : (w.refreshed (depth w)).unsynced.region.Shows
      (w.refreshed (depth w)).unsynced.chan.tail
        (.committed ⟨seq, frameBytes 0 seq [] bytes⟩) := by
    rw [show (w.refreshed (depth w)).unsynced.chan.tail = _ from hm.index]
    exact hshow
  obtain ⟨hseq, hpl, -, -⟩ := shows_single hshow'
  have hview : viewTail host w.chan.resyncExpected (w.refreshed (depth w)).unsynced =
      .ok ⟨(settled w seq).chan.tail, seq, bytes.length, (settled w seq).chan.tailCursor, false⟩
        ((settled w seq).viewedOne host (FRAME_HEADER_LEN + bytes.length) seq) := by
    have hcheck := checkSeq_ok (w := (w.refreshed (depth w)).unsynced) h.expects
    rw [viewTail_accepted (acceptedHeader_single h.length hshow'), hseq, bind_ok hcheck,
      payloadCheck_single h.length hshow', payloadLen_frameOf h.length, hpl]
    rfl
  rw [recvView, get_bind, if_neg h.noDrop]
  exact (bind_ok (ensureTailReadable_committed hs hshow.state)).trans hview

omit [Checksum] in
variable (region cursor) in
theorem forceRelease_lowered (index limit : ℕ) :
    ((region.floorMin cursor).fetchMaxTail limit).forceRelease index =
      ((region.forceRelease index).floorMin cursor).fetchMaxTail limit := by
  simp only [Region.forceRelease_eq, Region.floorMin, Region.fetchMaxTail, Region.setSlot]
  split <;> rfl

omit [Checksum] in
variable (host seq) in
theorem capacity_viewedOne (frameLen : ℕ) :
    (w.viewedOne host frameLen seq).region.capacity = w.region.capacity := by
  simp only [World.viewedOne, Region.fetchMaxTail, Region.floorMin]
  split <;> rfl

omit [Checksum] in
variable (host seq) in
/-- **A view that was released leaves the region a receive leaves.** -/
theorem unpinned_viewedOne (frameLen : ℕ) (hm : w.Mirrors)
    (hfloor : w.region.pinFloor = PIN_FLOOR_NONE ∨ w.region.pinFloor < w.region.tail)
    (hword : w.region.tail + 1 < wordCount) :
    (w.viewedOne host frameLen seq).region.unpinned w.chan.tailCursor = w.consume.region := by
  have hnext : w.chan.stepTail.tailCursor = w.region.tail + 1 := by
    simp only [stepTail, hm.tail, wrappingAdd_of_lt hword]
  have hfreed : (w.region.writePinnedHeader w.chan.tail seq frameLen
      (w.chan.writer.stamp host w.chan.writerEpoch 1)).forceRelease w.chan.tail =
        w.region.forceRelease w.chan.tail := by
    simp only [Region.writePinnedHeader_eq, Region.forceRelease_eq, Region.setSlot_setSlot,
      Region.setSlot_slots_self]
    rfl
  rw [Region.unpinned, capacity_viewedOne, hm.tail, ← hm.index, World.viewedOne, hnext, hm.tail,
    forceRelease_lowered, hfreed, unpinFloor_floorMin (w.region.forceRelease w.chan.tail)
      hfloor rfl hword, World.consume, hnext]

omit [Checksum] in
variable (host seq) in
/-- The slot a view shows. -/
theorem slots_viewedOne (frameLen : ℕ) :
    (w.viewedOne host frameLen seq).region.slots w.chan.tail =
      (w.region.slots w.chan.tail).identified .pinned seq frameLen
        (w.chan.writer.stamp host w.chan.writerEpoch 1) := by
  simp only [World.viewedOne, Region.fetchMaxTail, slots_floorMin, Region.writePinnedHeader_eq,
    Region.setSlot_slots_self]

variable (host) in
/-- **A message of one slot that is not copied.** -/
theorem recvInPlace_single (h : MayReceiveOne w seq bytes more pins) :
    recvInPlace host w = .ok ⟨seq, bytes⟩ (w.receivedOne seq) := by
  have hm := settled_mirrors seq h.sound
  have hshow : (settled w seq).region.Shows (settled w seq).chan.tail
      (.committed ⟨seq, frameBytes 0 seq [] bytes⟩) := by
    rw [hm.index]
    exact h.layout.holds.1
  obtain ⟨-, -, -, hread⟩ := shows_single hshow
  have hview := recvView_single host h
  have hword : w.region.tail + 1 < wordCount := by
    have := h.word
    omega
  have hback := unpinned_viewedOne host seq (FRAME_HEADER_LEN + bytes.length) hm h.floor hword
  have hslot := slots_viewedOne host seq (w := settled w seq) (FRAME_HEADER_LEN + bytes.length)
  have hleft : w.receivedOne seq =
      ⟨((settled w seq).viewedOne host (FRAME_HEADER_LEN + bytes.length) seq).chan,
        (settled w seq).consume.region⟩ := rfl
  have hcap := capacity_viewedOne host seq (w := settled w seq) (FRAME_HEADER_LEN + bytes.length)
  generalize (settled w seq).viewedOne host (FRAME_HEADER_LEN + bytes.length) seq = v at *
  have hpay : ShmRecvView.readAll ⟨(settled w seq).chan.tail, seq, bytes.length,
      (settled w seq).chan.tailCursor, false⟩ v.region = .ok bytes := by
    have hpay' : (v.region.slots (settled w seq).chan.tail).payload.read FRAME_HEADER_LEN
        bytes.length = bytes := by
      rw [hslot]
      exact hread
    exact congrArg Except.ok hpay'
  have hrel : ShmRecvView.release ⟨(settled w seq).chan.tail, seq, bytes.length,
      (settled w seq).chan.tailCursor, false⟩ v.region = .ok ⟨(settled w seq).chan.tail, seq,
        bytes.length, (settled w seq).chan.tailCursor, true⟩
          (v.region.unpinned (settled w seq).chan.tailCursor) := by
    refine (release_ok rfl ?_ ?_).1
    · simp only [hcap, hm.index, hm.tail]
    · rw [Region.state, Region.header, hslot]
      rfl
  have hon : onRegion (ShmRecvView.release ⟨(settled w seq).chan.tail, seq, bytes.length,
      (settled w seq).chan.tailCursor, false⟩) v = .ok ⟨(settled w seq).chan.tail, seq,
        bytes.length, (settled w seq).chan.tailCursor, true⟩
          ⟨v.chan, (settled w seq).consume.region⟩ := by
    rw [onRegion, hrel, ← hback]
  rw [recvInPlace, bind_ok hview, get_bind, hpay, bind_ok (ofExcept_ok (w := v) rfl), bind_ok hon,
    hleft]
  rfl

variable (host) in
/-- An empty ring is found so. -/
theorem recvInPlace_empty (hs : w.Sound) (hdrop : w.chan.config.backpressure ≠ .dropOldest)
    (hc : w.region.state (w.region.tail % w.region.capacity) ≠ .committed)
    (hrec : tryReclaimAtTail host (w.refreshed (depth w)).unsynced =
      .ok 0 (w.refreshed (depth w)).unsynced) :
    recvInPlace host w = recvWithSeq host w := by
  have hview : recvView host w = .error (.ofChannel .bufferEmpty) (w.refreshed (depth w)) := by
    rw [recvView, get_bind, if_neg hdrop]
    exact bind_error (ensureTailReadable_empty hs hc hrec)
  rw [recvInPlace, bind_error hview, recvWithSeq_empty hs hc hrec]

end Receive

/-! ## In a run -/

/-- A call of the system, or one that does not copy. -/
inductive InPlaceOp where
  | call (op : SpscOp)
  | sendInPlace (host : Host) (message : Message)
  | recvInPlace (host : Host)

/-- The call that copies. -/
def InPlaceOp.copied : InPlaceOp → SpscOp
  | call op => op
  | sendInPlace host message => .send host message
  | recvInPlace host => .recv host

/-- A message that is sent fits a slot. -/
def SpscOp.FitsSlot (config : SpscConfig) : SpscOp → Prop
  | .send _ message => message.1.length ≤ config.slotSize
  | _ => True

namespace SpscState

/-- `P.alloc`, a write through the lease, `P.publish`. -/
def stepSendInPlace (s : SpscState) (host : Host) (message : Message) : SpscState :=
  let w := final (PersistentShmChannel.sendInPlace host message.1 s.atProducer)
  { s.withProducer w with
    accepted :=
      if w.region.head ≠ s.region.head then s.accepted ++ [⟨s.producer.nextSeq, message.1⟩]
      else s.accepted }

/-- `C.recv_view`, a read of the view, its release. -/
def stepRecvInPlace (s : SpscState) (host : Host) : SpscState :=
  match s.consumer with
  | none => s
  | some c =>
      match PersistentShmChannel.recvInPlace host ⟨c, s.region⟩ with
      | .ok message w => { s.withConsumer w with got := s.got ++ [message] }
      | .error _ w => s.withConsumer w

/-- One call, copying or not. -/
def stepInPlace (s : SpscState) : InPlaceOp → SpscState
  | .call op => s.step op
  | .sendInPlace host message => s.stepSendInPlace host message
  | .recvInPlace host => s.stepRecvInPlace host

variable {config : SpscConfig} {s : SpscState} {q : Queue} {host : Host} {synced : Prop}

/-- What a call needs: to be admissible, and a message that fits a slot. -/
def Suits (config : SpscConfig) (s : SpscState) (op : InPlaceOp) : Prop :=
  s.Admissible config op.copied ∧ op.copied.FitsSlot config

instance decidableFitsSlot : (op : SpscOp) → Decidable (op.FitsSlot config)
  | .send _ message => inferInstanceAs (Decidable (message.1.length ≤ config.slotSize))
  | .alloc .. | .write .. | .publish _ | .abort _ | .dropLease _ | .openConsumer _ | .recv _
  | .tryRecv _ | .recvView _ | .release _ | .dropView _ | .reopenProducer _ => isTrue trivial

instance {op : InPlaceOp} : Decidable (s.Suits config op) :=
  inferInstanceAs (Decidable (_ ∧ _))

/-- Every message of the queue is one of one slot. -/
def Whole (config : SpscConfig) (entries : List Entry) : Prop :=
  ∀ seq datas out, Entry.message seq datas out ∈ entries → ∃ bytes : Bytes,
    bytes.length ≤ config.slotSize ∧ datas = [frameBytes 0 seq [] bytes]

/-! Each call that does not copy is the call that does. -/

omit [Checksum] in
theorem final_reportDropped (head : ℕ) (r : EStateM.Result Failure World Unit) :
    final (reportDropped head r) = final r := by
  cases r with
  | ok u w =>
      rw [reportDropped]
      split <;> rfl
  | error err w => rfl

theorem Holds.maySendOne {message : Message} (h : s.Holds config synced q)
    (hdrop : config.backpressure ≠ .dropOldest)
    (hadm : s.Admissible config (.send host message)) (hsize : message.1.length ≤ config.slotSize) :
    MaySendOne s.atProducer message.1 where
  sound := h.producer_sound
  mode := h.producer.config ▸ h.mode
  noDrop := h.producer.config ▸ hdrop
  size := h.producer.config ▸ hsize
  frame := Nat.le_of_eq (h.producer.config ▸ h.ring.fits.frameCapacity.symm)
  length := message.2
  word := by
    have hword := (hadm _ (sendPlan_single hsize)).word
    simp only [atProducer] at hword ⊢
    omega

/-- **Sending without a copy is sending**, in every state of a run. -/
theorem Holds.sendInPlace_eq {message : Message} (h : s.Holds config synced q)
    (hdrop : config.backpressure ≠ .dropOldest)
    (hadm : s.Admissible config (.send host message)) (hsize : message.1.length ≤ config.slotSize) :
    PersistentShmChannel.sendInPlace host message.1 s.atProducer =
      reportDropped s.region.head (PersistentShmChannel.send host message.1 s.atProducer) := by
  have hplan := sendPlan_single hsize
  have hok := hadm _ hplan
  have hwriting := h.writing
  have hlen := length_contentsOf q.entries
  have hhead := h.ring.head
  refine Dsline.sendInPlace_eq host (h.maySendOne hdrop hadm hsize) fun hguard => ?_
  -- What the guard admits finds its slot FREE, behind the entries and no pin's.
  have hroom := room_of_admits (d := s.region.head - s.region.tail) h.producer_sound
    h.producer.bias h.ring.floor (fun p hp => (h.ring.layout.bound p hp).2) (hok.room hguard)
    (Nat.lt_of_lt_of_le Nat.one_pos (Nat.le_add_right _ _))
  simp only [atProducer] at hroom ⊢
  rw [h.producer.head]
  refine h.ring.layout.free _ (Nat.le_refl _) (by omega) fun p hp he => ?_
  have := hroom.2 p hp
  omega

/-- **Receiving without a copy is receiving**, in every state of a run whose
messages fit a slot. -/
theorem Holds.recvInPlace_eq {chan : PersistentShmChannel} (h : s.Holds config True q)
    (hdrop : config.backpressure ≠ .dropOldest) (hc : s.consumer = some chan)
    (halive : NoneGone host s.region)
    (hwhole : Whole config q.entries) :
    PersistentShmChannel.recvInPlace host ⟨chan, s.region⟩ = recvWithSeq host ⟨chan, s.region⟩ := by
  have hs := h.consumer_sound hc
  have hcons := h.consumer chan hc
  have hnone : chan.config.backpressure ≠ .dropOldest := hcons.config ▸ hdrop
  by_cases hfirst : ∀ seq datas out rest, q.entries ≠ .message seq datas out :: rest
  · refine recvInPlace_empty host hs hnone (h.state_tail_ne hfirst)
      (tryReclaimAtTail_none (hcons.config ▸ h.mode) ?_ halive)
    exact (World.mirrors_refreshed (depth ⟨chan, s.region⟩) hs.capacity).index ▸ Nat.mod_lt _ hs.pos
  simp only [not_forall, ne_eq, not_not] at hfirst
  obtain ⟨seq, datas, out, rest, hentries⟩ := hfirst
  obtain ⟨bytes, hsize, rfl⟩ := hwhole seq datas out (hentries ▸ List.mem_cons_self)
  have hl := h.ring.layout
  have hnum := h.numbered
  have hword := h.ring.word
  have hread := readable_le rest
  have hlen := length_contentsOf rest
  have hfits := h.ring.fits.slotSize_le
  rw [hentries] at hl hnum hword
  rw [contentsOf_cons, contents_message] at hl hword
  rw [List.length_append, List.length_map, List.length_singleton] at hword
  have hone : MayReceiveOne ⟨chan, s.region⟩ seq bytes (contentsOf rest)
      (s.views.map LiveView.pin) := by
    refine ⟨hs, hnone, hl, by omega, by simp only; omega, ?_, ?_⟩
    · refine h.ring.floor.imp (fun hf => hf.2) fun hf => ?_
      obtain ⟨p, hp, he⟩ := List.mem_map.1 hf.1
      exact he ▸ (h.ring.layout.bound p hp).2
    · exact .inr (.inr ((hcons.expected trivial).trans hnum.1.symm))
  rw [recvInPlace_single host hone, recvWithSeq_single host hone]

/-! ## Messages stay of one slot -/

/-- A call that neither sends nor publishes adds no message. -/
theorem whole_moves {op : SpscOp} {q' : Queue} (hm : Moves config s op q q')
    (hsend : ∀ host message, op ≠ .send host message) (hpub : ∀ k, op ≠ .publish k)
    (hwhole : Whole config q.entries) : Whole config q'.entries := by
  cases hm with
  | idle => exact hwhole
  | push => exact absurd rfl (hsend _ _)
  | publish => exact absurd rfl (hpub _)
  | claim =>
      intro seq datas out hmem
      rcases List.mem_append.1 hmem with hmem | hmem
      · exact hwhole seq datas out hmem
      · cases List.mem_singleton.1 hmem
  | takeBack hentries =>
      intro seq datas out hmem
      exact hwhole seq datas out (hentries ▸ List.mem_append_left _ hmem)
  | deliver _ hentries | skip _ hentries =>
      intro seq datas out hmem
      exact hwhole seq datas out (hentries ▸ List.mem_cons_of_mem _ hmem)

theorem stored_frameBytes (hslots : config.slotSize + FRAME_HEADER_LEN < 2 ^ 32) {bytes : Bytes}
    (seq : UInt64) (hsize : bytes.length ≤ config.slotSize) :
    stored (frameBytes 0 seq [] bytes) = frameBytes 0 seq [] bytes :=
  stored_of_lt (by rw [length_frameBytes_single]; omega)

/-- A message that is sent is one of one slot. -/
theorem whole_send {message : Message} (h : s.Holds config True q)
    (hdrop : config.backpressure ≠ .dropOldest)
    (hslots : config.slotSize + FRAME_HEADER_LEN < 2 ^ 32)
    (hadm : s.Admissible config (.send host message)) (hsize : message.1.length ≤ config.slotSize)
    (hwhole : Whole config q.entries) :
    ∃ q', (s.stepSend host message).Holds config True q' ∧ Whole config q'.entries := by
  have hplan := sendPlan_single hsize
  by_cases hguard : s.guard.admits 1
  · obtain ⟨w, datas, out, hrun, hhead, hdatas, -, hnext⟩ :=
      h.send_admitted host hplan (hadm _ hplan) hguard
    rw [← stepSend_of_pushed hrun (by rw [hhead]; exact Nat.succ_ne_self _)] at hnext
    refine ⟨_, hnext, ?_⟩
    intro seq datas' out' hmem
    rcases List.mem_append.1 hmem with hmem | hmem
    · exact hwhole seq datas' out' hmem
    · cases List.mem_singleton.1 hmem
      refine ⟨message.1, hsize, ?_⟩
      rw [hdatas, messageFrames, if_pos rfl, List.map_singleton, stored_frameBytes hslots _ hsize]
  · exact ⟨q, h.stepSend_full hdrop hplan hguard, hwhole⟩

/-- A lease that is published is a message of one slot. -/
theorem whole_publish {k : ℕ} (h : s.Holds config True q)
    (hslots : config.slotSize + FRAME_HEADER_LEN < 2 ^ 32) (hwhole : Whole config q.entries) :
    ∃ q', (s.stepPublish k).Holds config True q' ∧ Whole config q'.entries := by
  obtain ⟨q', hm, hnext⟩ : ∃ q', Moves config s (.publish k) q q' ∧
      (s.stepPublish k).Holds config True q' := h.stepPublish
  refine ⟨q', hnext, ?_⟩
  cases hm with
  | idle => exact hwhole
  | deliver hreceives => cases hreceives
  | skip hreceives => cases hreceives
  | @publish _ i lease header data payload out _ hk hsealed hat hout =>
      have hfits := h.ring.fits
      have hslot := hfits.slotSize_le
      have hle := hat.fits
      have hlen := length_contentsOf q.entries
      have hword := h.ring.word
      have hhead := h.ring.head
      have hcount : 0 < leasesOf q.entries := List.countP_pos_iff.2
        ⟨_, List.mem_of_getElem? hat.entry, rfl⟩
      have hpay : lease.payloadLen < 2 ^ 64 := by
        have hmax : isizeMax < 2 ^ 64 := by decide
        omega
      obtain ⟨region', hrun, hl, -⟩ := publish_ok lease (w := s.atProducer)
        h.producer.closed hsealed h.ring.layout (getElem?_contentsOf hat.entry) hat.index
        (by simp only [atProducer, hfits.frameCapacity]; omega) hpay h.producer.mirror
        (by simp only [atProducer]; omega)
      -- The slot shows the new message, and the frame that was published.
      have hl' := hnext.ring.layout
      rw [contentsOf_set hat.entry rfl] at hl'
      simp only [SpscState.stepPublish, hk, hrun] at hl'
      have hlt := (List.getElem?_eq_some_iff.1 (getElem?_contentsOf hat.entry)).1
      have hshow := hl.shows (k := offsetOf q.entries i) (by rwa [List.length_set])
      have hshow' := hl'.shows (k := offsetOf q.entries i) (by rwa [List.length_set])
      rw [List.getElem_set_self] at hshow hshow'
      obtain ⟨-, rfl⟩ := SlotSnapshot.mk.inj (hshow'.unique hshow)
      intro seq datas out' hmem
      rcases List.mem_or_eq_of_mem_set hmem with hmem | he
      · exact hwhole seq datas out' hmem
      · have hplen : (leasePayload s.region lease).length = lease.payloadLen := Area.length_read
        cases he
        rw [hat.seq]
        refine ⟨leasePayload s.region lease, hplen ▸ hle, ?_⟩
        rw [stored_frameBytes hslots _ (hplen ▸ hle)]
        rfl

/-- **Every call keeps the messages of one slot.** -/
theorem whole_step {op : SpscOp} (h : s.Holds config True q)
    (hdrop : config.backpressure ≠ .dropOldest)
    (hslots : config.slotSize + FRAME_HEADER_LEN < 2 ^ 32) (hadm : s.Admissible config op)
    (hsize : op.FitsSlot config) (hwhole : Whole config q.entries) :
    ∃ q', (s.step op).Holds config True q' ∧ Whole config q'.entries := by
  by_cases hsend : ∃ host message, op = .send host message
  · obtain ⟨host, message, rfl⟩ := hsend
    exact whole_send h hdrop hslots hadm hsize hwhole
  by_cases hpub : ∃ k, op = .publish k
  · obtain ⟨k, rfl⟩ := hpub
    exact whole_publish h hslots hwhole
  · obtain ⟨q', hm, hnext⟩ := h.step hdrop hadm
    exact ⟨q', hnext, whole_moves hm (fun host message he => hsend ⟨host, message, he⟩)
      (fun k he => hpub ⟨k, he⟩) hwhole⟩

/-- **One call, copying or not, is the call that copies.** -/
theorem stepInPlace_eq {op : InPlaceOp} (h : s.Holds config True q)
    (hdrop : config.backpressure ≠ .dropOldest) (hsuits : s.Suits config op)
    (hwhole : Whole config q.entries) : s.stepInPlace op = s.step op.copied := by
  obtain ⟨hadm, hsize⟩ := hsuits
  cases op with
  | call op => rfl
  | sendInPlace host message =>
      have hsend : final (PersistentShmChannel.sendInPlace host message.1 s.atProducer)
          = final (PersistentShmChannel.send host message.1 s.atProducer) := by
        rw [h.sendInPlace_eq hdrop hadm hsize, final_reportDropped]
      show s.stepSendInPlace host message = s.stepSend host message
      rw [stepSendInPlace, stepSend, hsend]
  | recvInPlace host =>
      show s.stepRecvInPlace host = s.stepRecv host
      rw [stepRecvInPlace, stepRecv]
      cases hc : s.consumer with
      | none => rfl
      | some chan =>
          have hrecv := h.recvInPlace_eq hdrop hc (h.noneGone hadm) hwhole
          cases hr : recvWithSeq host ⟨chan, s.region⟩ <;> simp only [hrecv, hr]

end SpscState

section Runs

variable {config : SpscConfig} {host : Host} {w : World} {ops : List InPlaceOp}

/-- What every state of a run stands for. -/
theorem inPlace_holds {s : SpscState} (hdrop : config.backpressure ≠ .dropOldest)
    (hslots : config.slotSize + FRAME_HEADER_LEN < 2 ^ 32) (op : InPlaceOp)
    (h : ∃ q, s.Holds config True q ∧ SpscState.Whole config q.entries)
    (hsuits : s.Suits config op) :
    ∃ q, (s.stepInPlace op).Holds config True q ∧ SpscState.Whole config q.entries := by
  obtain ⟨q, hq, hwhole⟩ := h
  rw [SpscState.stepInPlace_eq hq hdrop hsuits hwhole]
  exact SpscState.whole_step hq hdrop hslots hsuits.1 hsuits.2 hwhole

/-- In this state a call that does not copy does what the call that copies
does, but that it reports a message `DropNewest` drops. -/
structure CopiesAlike (config : SpscConfig) (s : SpscState) : Prop where
  send : ∀ host message, s.Suits config (.sendInPlace host message) →
    sendInPlace host message.1 s.atProducer =
      reportDropped s.region.head (PersistentShmChannel.send host message.1 s.atProducer)
  recv : ∀ host chan, s.consumer = some chan → s.Suits config (.recvInPlace host) →
    recvInPlace host ⟨chan, s.region⟩ = recvWithSeq host ⟨chan, s.region⟩

/-- **Copying is an implementation detail.** In every run of the system on a
channel whose slots hold its messages, calls that send through a lease and
receive through a view can stand for those that copy: the run ends in the
same state, region and handles included, with the same messages accepted and
returned, and from there either kind of call does the same. -/
theorem in_place_agrees (hw : create host config = .ok w) (hmode : config.multiProducer = false)
    (hdrop : config.backpressure ≠ .dropOldest)
    (hslots : config.slotSize + FRAME_HEADER_LEN < 2 ^ 32)
    (hops : Run.Meets SpscState.stepInPlace (SpscState.Suits config) (.start w) ops) :
    Run.exec SpscState.stepInPlace (.start w) ops =
        Run.exec SpscState.step (.start w) (ops.map InPlaceOp.copied) ∧
      CopiesAlike config (Run.exec SpscState.stepInPlace (.start w) ops) := by
  have hstart : ∃ q, (SpscState.start w).Holds config True q ∧
      SpscState.Whole config q.entries :=
    ⟨_, SpscState.holds_start hw hmode, fun _ _ _ hmem => by cases hmem⟩
  have hstep : ∀ (s : SpscState) (op : InPlaceOp),
      (∃ q, s.Holds config True q ∧ SpscState.Whole config q.entries) → s.Suits config op →
        ∃ q, (s.stepInPlace op).Holds config True q ∧ SpscState.Whole config q.entries :=
    fun s op => inPlace_holds hdrop hslots op
  obtain ⟨q, hq, hwhole⟩ := hops.invariant _ hstep hstart
  refine ⟨hops.exec_eq _ hstep ?_ hstart, fun host message hsuits => ?_,
    fun host chan hc hsuits => ?_⟩
  · rintro s op ⟨q, hq, hwhole⟩ hsuits
    exact SpscState.stepInPlace_eq hq hdrop hsuits hwhole
  · exact hq.sendInPlace_eq hdrop hsuits.1 hsuits.2
  · exact hq.recvInPlace_eq hdrop hc (hq.noneGone hsuits.1) hwhole

end Runs

/-- Two messages over a ring of two slots, one copied in and viewed, one
written in place and copied out. -/
def inPlaceOps : List InPlaceOp :=
  [.call (.openConsumer sampleHost), .call (.send sampleHost (sampleMessage 5)),
    .sendInPlace sampleHost (sampleMessage 6), .recvInPlace sampleHost, .call (.recv sampleHost)]

omit [Checksum] in
theorem in_place_agrees_two :
    Run.exec (@SpscState.stepInPlace crc32Checksum) (.start (sampleWorld (sampleConfig 2 1)))
        inPlaceOps =
      Run.exec (@SpscState.step crc32Checksum) (.start (sampleWorld (sampleConfig 2 1)))
        (inPlaceOps.map InPlaceOp.copied) ∧
      @CopiesAlike crc32Checksum (sampleConfig 2 1) (Run.exec (@SpscState.stepInPlace crc32Checksum)
        (.start (sampleWorld (sampleConfig 2 1))) inPlaceOps) :=
  @in_place_agrees crc32Checksum _ _ _ _ (rfl : create sampleHost (sampleConfig 2 1) = .ok _) rfl
    (by decide) (by decide) (by decide +kernel)

end Dsline
