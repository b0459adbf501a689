import Dsline.Shm.MessageCodec
import Dsline.Shm.SendSpec
/-!
# What the lease calls do

The specifications of `alloc`, a lease's `write`, `publish` and `abort` over
a laid-out region. A lease is a WRITING content of the queue: `alloc` puts
it behind the others (`alloc_cases`), a write leaves it (`write_layout`),
`publish` commits it where it stands (`publish_ok`), `abort` takes it back
(`abort_layout`).
-/

namespace Dsline

open PersistentShmChannel

variable {w : World} {host : Host} {contents : List Content} {pins : List Pin} {header : SlotHeader}
  {region : Region} {lease : ShmWriteLease} {size k : ℕ}

/-- A content of the queue takes its slot. -/
def Content.Busy (content : Content) : Prop := content.state ≠ .free

/-- A FREE slot behind the contents of a busy queue is outside the window
they take. -/
theorem Layout.length_lt_of_free (hl : Layout region contents pins)
    (hbusy : ∀ content ∈ contents, content.Busy) (hpos : 0 < region.capacity)
    (hfree : region.state (Layout.at' region contents.length) = .free) :
    contents.length < region.capacity := by
  refine Nat.lt_of_le_of_ne hl.fits fun he => ?_
  have h0 : 0 < contents.length := he ▸ hpos
  have hidx : Layout.at' region contents.length = Layout.at' region 0 := by
    rw [Layout.at', he, Nat.add_mod_right, Layout.at', Nat.add_zero]
  rw [hidx, (hl.shows h0).state] at hfree
  exact hbusy _ (List.getElem_mem h0) hfree

/-! ## Alloc -/

/-- The header a lease's slot gets. -/
def leaseHeader (host : Host) (chan : PersistentShmChannel) (size : ℕ) : SlotHeader :=
  { encodeHeader .writing chan.nextSeq (FRAME_HEADER_LEN + size)
      (some (chan.writer.stamp host chan.writerEpoch 1)) false with
    identityMagic := SLOT_IDENTITY_MAGIC }

theorem process_leaseHeader {chan : PersistentShmChannel} {identity : WriterIdentity}
    (h : (leaseHeader host chan size).identity = some identity) :
    identity.process = chan.writer := by
  rw [SlotHeader.identity, leaseHeader, if_pos rfl] at h
  cases h
  rfl

theorem layout_identified (seq : UInt64) (payloadLen : ℕ) (stamp : WriterIdentity)
    (hl : Layout region contents pins) (hlt : contents.length < region.capacity)
    (hfree : region.state (Layout.at' region contents.length) = .free) :
    Layout (region.writeWritingHeader (Layout.at' region contents.length) seq payloadLen stamp)
      (contents ++ [.writing
        { encodeHeader .writing seq payloadLen (some stamp) false with
          identityMagic := SLOT_IDENTITY_MAGIC }]) pins := by
  rw [Region.writeWritingHeader_eq]
  exact hl.push hlt hfree ⟨by simp [Region.header, Slot.identified], rfl⟩

variable (host size) in
/-- **A slot is leased, or nothing happens.** -/
theorem alloc_cases (hs : w.Sound) (hl : Layout w.region contents pins)
    (hbusy : ∀ content ∈ contents, content.Busy)
    (hhead : w.chan.head = Layout.at' w.region contents.length) :
    (∃ err w', alloc host size w = .error err w' ∧ w.Idle w') ∨
      (size ≤ w.chan.config.slotSize ∧ contents.length < w.region.capacity ∧
        ∃ w', alloc host size w = .ok ⟨w.chan.head, w.chan.nextSeq, size, false⟩ w' ∧
          Layout w'.region (contents ++ [.writing (leaseHeader host w.chan size)]) pins ∧
          w.Sent 1 0 w') := by
  have hconf : (w.refreshed (w.region.head - w.region.tail)).chan.config = w.chan.config := rfl
  rw [alloc, Effect.get_bind, if_neg (by simp [hs.opened])]
  by_cases hmode : w.chan.config.multiProducer = true
  · rw [if_pos hmode]
    exact .inl ⟨_, w, rfl, .inl rfl⟩
  rw [if_neg hmode]
  by_cases hdrop : w.chan.config.backpressure = .dropOldest
  · rw [if_pos hdrop]
    exact .inl ⟨_, w, rfl, .inl rfl⟩
  rw [if_neg hdrop]
  by_cases hsize : w.chan.config.slotSize < size
  · rw [if_pos hsize]
    exact .inl ⟨_, w, rfl, .inl rfl⟩
  rw [if_neg hsize]
  cases hadd : checkedAdd FRAME_HEADER_LEN size with
  | none => exact .inl ⟨_, w, rfl, .inl rfl⟩
  | some frameLen =>
      obtain rfl : FRAME_HEADER_LEN + size = frameLen := by
        simp only [checkedAdd] at hadd
        split at hadd
        · exact Option.some.inj hadd
        · cases hadd
      have hone : 1 ≤ w.chan.config.capacity := hs.capacity ▸ hs.pos
      simp only
      rw [Effect.bind_ok hs.refreshCursors]
      by_cases hadm : (w.refreshed (w.region.head - w.region.tail)).chan.admits 1
      · rw [Effect.bind_ok (prepareSendSlots_admitted
          (w := w.refreshed (w.region.head - w.region.tail)) hone hadm), if_neg (by simp),
          Effect.get_bind]
        by_cases hst : w.region.state w.chan.head = .free
        swap
        · refine .inl ⟨.ofChannel .bufferFull, w.refreshed (w.region.head - w.region.tail), ?_,
            .inr ⟨_, rfl⟩⟩
          rw [if_pos (show (w.refreshed (w.region.head - w.region.tail)).region.state
            (w.refreshed (w.region.head - w.region.tail)).chan.head ≠ .free from hst)]
          rfl
        rw [if_neg (show ¬ (w.refreshed (w.region.head - w.region.tail)).region.state
          (w.refreshed (w.region.head - w.region.tail)).chan.head ≠ .free from not_not.2 hst)]
        have hfree : w.region.state (Layout.at' w.region contents.length) = .free := hhead ▸ hst
        have hlt := hl.length_lt_of_free hbusy hs.pos hfree
        refine .inr ⟨Nat.not_lt.1 hsize, hlt, _, rfl, ?_, ?_⟩
        · have hl' := layout_identified w.chan.nextSeq (FRAME_HEADER_LEN + size)
            (w.chan.writer.stamp host w.chan.writerEpoch 1) hl hlt hfree
          rw [← hhead] at hl'
          exact hl'
        · refine ⟨?_, rfl, rfl, rfl, ?_, rfl, rfl, rfl, rfl, rfl, rfl⟩
          · exact ⟨rfl, rfl, rfl, rfl, rfl, rfl, rfl⟩
          · show (w.chan.head + 1) % w.chan.config.capacity = _
            rw [hs.capacity]
      · have hfull := prepareSendSlots_full host hs hone hadm hdrop
        refine .inl ?_
        cases hb : turnedAway w.chan.config.backpressure with
        | ok b =>
            rw [hb] at hfull
            have hb' : b = false := by
              cases hbp : w.chan.config.backpressure <;> rw [hbp] at hb <;> cases hb
              rfl
            subst hb'
            exact ⟨_, _, (Effect.bind_ok hfull).trans rfl, .inr ⟨_, rfl⟩⟩
        | error err =>
            rw [hb] at hfull
            exact ⟨_, _, Effect.bind_error hfull, .inr ⟨_, rfl⟩⟩

/-! ## Writing through a lease -/

variable (region lease) in
/-- A lease writes behind the header, or nothing. -/
theorem write_cases (offset : ℕ) (bytes : Bytes) :
    Effect.final (lease.write offset bytes region) = region ∨
      (lease.isSealed = false ∧ Effect.final (lease.write offset bytes region) =
        region.setPayload lease.index (FRAME_HEADER_LEN + offset) bytes) := by
  rw [ShmWriteLease.write]
  split
  · exact .inl rfl
  split
  · exact .inl rfl
  · rename_i hsealed _
    exact .inr ⟨by simpa using hsealed, rfl⟩

/-- A write to the frame area of a lease's slot leaves the lease. -/
theorem write_layout {offset : ℕ} {bytes : Bytes} (hl : Layout region contents pins)
    (hk : contents[k]? = some (.writing header)) :
    Layout (region.setPayload (Layout.at' region k) offset bytes) contents pins := by
  obtain ⟨hlt, hget⟩ := List.getElem?_eq_some_iff.1 hk
  have hshow := hl.shows hlt
  rw [hget] at hshow
  have hset := hl.setAt (.writing header) ({ region.slots (Layout.at' region k) with
      payload := (region.slots (Layout.at' region k)).payload.write offset bytes }) (k := k) hlt
    ⟨by simpa [Region.header] using hshow.1, hshow.2⟩
  rw [← hget, List.set_getElem_self] at hset
  exact hset

/-! ## Publish -/

section Publish

variable [Checksum]

/-- What a lease's slot delivers once it is published. -/
def leasePayload (region : Region) (lease : ShmWriteLease) : Bytes :=
  (region.slots lease.index).payload.read FRAME_HEADER_LEN lease.payloadLen

variable (lease) in
/-- A sealed lease, or one whose slot is not WRITING, is not published. -/
theorem publish_refused (hopen : w.chan.closed = false)
    (h : lease.isSealed = true ∨ w.region.state lease.index ≠ .writing) :
    ∃ err, publish lease w = .error err w := by
  rw [publish, Effect.get_bind, if_neg (by simp [hopen])]
  by_cases hsealed : lease.isSealed = true
  · rw [if_pos hsealed]
    exact ⟨_, rfl⟩
  · rw [if_neg hsealed, if_pos (h.resolve_left hsealed)]
    exact ⟨_, rfl⟩

variable (lease) in
/-- **Publishing commits the lease where it stands.** -/
theorem publish_ok (hopen : w.chan.closed = false) (hsealed : lease.isSealed = false)
    (hl : Layout w.region contents pins) (hk : contents[k]? = some (.writing header))
    (hidx : lease.index = Layout.at' w.region k)
    (hfit : FRAME_HEADER_LEN + lease.payloadLen ≤ w.region.frameCapacity)
    (hlen : lease.payloadLen < 2 ^ 64)
    (hmirror : w.chan.headCursor = w.region.head) (hword : w.region.head + 1 < wordCount) :
    ∃ region', publish lease w =
        .ok (lease.seq, { lease with isSealed := true })
          ⟨{ w.chan with headCursor := w.region.head + 1 }, region'⟩ ∧
      Layout region' (contents.set k (.committed
        ⟨lease.seq, stored (frameBytes 0 lease.seq [] (leasePayload w.region lease))⟩)) pins ∧
      w.region.Words (w.region.head + 1) w.region.tail w.region.pinFloor region' := by
  obtain ⟨hlt, hget⟩ := List.getElem?_eq_some_iff.1 hk
  have hshow := hl.shows hlt
  rw [hget] at hshow
  have hstate : w.region.state lease.index = .writing := hidx ▸ hshow.state
  have hplen : (leasePayload w.region lease).length = lease.payloadLen := Area.length_read
  have henc : encodeFrameHeader .bytes 0 lease.seq 0 0 (checksum32 (leasePayload w.region lease))
      lease.payloadLen [] = .ok (headerBytes .bytes 0 lease.seq 0 0
        (checksum32 (leasePayload w.region lease)) lease.payloadLen FRAME_HEADER_LEN []) := by
    have hm : (metadataLen []).bind (checkedAdd FRAME_HEADER_LEN) = some FRAME_HEADER_LEN := by
      decide
    simp only [encodeFrameHeader, hm]
    exact if_pos ⟨by decide, hlen⟩
  have hbytes : frameBytes 0 lease.seq [] (leasePayload w.region lease) =
      headerBytes .bytes 0 lease.seq 0 0 (checksum32 (leasePayload w.region lease))
        lease.payloadLen FRAME_HEADER_LEN [] ++ leasePayload w.region lease := by
    rw [frameBytes, hplen]
    rfl
  -- The slot is the one `writeCommittedNoFlush` would leave for the whole frame.
  have harea : ∀ i, i < FRAME_HEADER_LEN + lease.payloadLen →
      (w.region.slots lease.index).payload.write 0 (headerBytes .bytes 0 lease.seq 0 0
        (checksum32 (leasePayload w.region lease)) lease.payloadLen FRAME_HEADER_LEN []) i =
      (w.region.slots lease.index).payload.write 0
        (frameBytes 0 lease.seq [] (leasePayload w.region lease)) i := by
    intro i hi
    have hhl : (headerBytes .bytes 0 lease.seq 0 0 (checksum32 (leasePayload w.region lease))
        lease.payloadLen FRAME_HEADER_LEN []).length = FRAME_HEADER_LEN := by
      rw [length_headerBytes]
      rfl
    rw [hbytes]
    rcases Nat.lt_or_ge i FRAME_HEADER_LEN with h | h
    · simp only [Area.write, Nat.zero_le, if_true, Nat.sub_zero]
      rw [List.getElem?_append_left (by rw [hhl]; exact h)]
    · rw [Area.write_apply_of_ge (by rw [hhl]; omega)]
      simp only [Area.write, Nat.zero_le, if_true, Nat.sub_zero]
      rw [List.getElem?_append_right (by rw [hhl]; exact h), hhl, leasePayload, Area.read,
        List.getElem?_map, List.getElem?_range (by omega)]
      simp only [Option.map_some, Option.getD_some]
      congr 1
      omega
  have hflen : (frameBytes 0 lease.seq [] (leasePayload w.region lease)).length =
      FRAME_HEADER_LEN + lease.payloadLen := by
    rw [length_frameBytes, hplen]
    rfl
  have hpub : publish lease w = .ok (lease.seq, { lease with isSealed := true })
      ⟨{ w.chan with headCursor := wrappingAdd w.chan.headCursor 1 },
        (((w.region.setPayload lease.index 0 (headerBytes .bytes 0 lease.seq 0 0
          (checksum32 (leasePayload w.region lease)) lease.payloadLen FRAME_HEADER_LEN
            [])).writeHeader lease.index .committed lease.seq
              (FRAME_HEADER_LEN + lease.payloadLen)).storeHead
                (wrappingAdd w.chan.headCursor 1))⟩ := by
    rw [publish, Effect.get_bind, if_neg (by simp [hopen]), if_neg (by simp [hsealed]),
      if_neg (by simp [hstate])]
    have henc' := henc
    simp only [leasePayload] at henc'
    simp only [henc']
    rfl
  rw [hmirror, wrappingAdd_of_lt hword] at hpub
  refine ⟨_, hpub, ?_, ⟨rfl, rfl, rfl, rfl, rfl, rfl, rfl⟩⟩
  have hset := hl.setAt (.committed
      ⟨lease.seq, stored (frameBytes 0 lease.seq [] (leasePayload w.region lease))⟩)
    ⟨encodeHeader .committed lease.seq (FRAME_HEADER_LEN + lease.payloadLen) none false,
      (w.region.slots lease.index).payload.write 0 (headerBytes .bytes 0 lease.seq 0 0
        (checksum32 (leasePayload w.region lease)) lease.payloadLen FRAME_HEADER_LEN [])⟩
    (k := k) hlt ?_
  · refine hset.congr ?_ rfl rfl rfl
    rw [hidx]
    funext i
    simp only [Region.storeHead, Region.writeHeader, Region.setHeader, Region.setPayload,
      Region.setSlot]
    split <;> simp
  · have hshow' := Region.shows_committed w.region (Layout.at' w.region k)
      (w.region.slots lease.index) lease.seq (hflen ▸ hfit)
    obtain ⟨h1, h2, h3, h4⟩ := hshow'
    simp only [Region.state, Region.header, Region.payloadLen, Region.payload, Slot.committed,
      Region.setSlot_slots_self, Region.setSlot_frameCapacity, hflen] at h1 h2 h3 h4
    refine ⟨by simp [Region.state, Region.header, encodeHeader],
      by simp [Region.header, encodeHeader], ?_, ?_⟩
    · simpa [Region.payloadLen, Region.header] using h3
    · simp only [Region.payload, Region.payloadLen, Region.header, Region.setSlot_slots_self]
      rw [← h4]
      refine Area.read_congr fun i _ hi => harea i ?_
      have hmod : (encodeHeader .committed lease.seq (FRAME_HEADER_LEN + lease.payloadLen) none
          false).payloadLen.toNat ≤ FRAME_HEADER_LEN + lease.payloadLen := by
        simp only [encodeHeader]
        exact UInt32.toNat_ofNat' ▸ Nat.mod_le _ _
      omega

end Publish

/-! ## Abort -/

variable (lease) in
/-- **Only the newest lease is taken back.** -/
theorem abort_cases :
    (∃ err, abort lease w = .error err w) ∨
      (lease.isSealed = false ∧
        lease.index = (w.chan.head + w.chan.config.capacity - 1) % w.chan.config.capacity ∧
        abort lease w = .ok ()
          ⟨{ w.chan with head := lease.index, len := w.chan.len - 1, nextSeq := lease.seq },
            w.region.forceRelease lease.index⟩) := by
  rw [abort, Effect.get_bind]
  by_cases hsealed : lease.isSealed = true
  · rw [if_pos hsealed]
    exact .inl ⟨_, rfl⟩
  rw [if_neg hsealed]
  by_cases hidx : lease.index =
      (w.chan.head + w.chan.config.capacity - 1) % w.chan.config.capacity
  · refine .inr ⟨by simpa using hsealed, hidx, ?_⟩
    simp only [not_not.2 hidx, if_false]
    rfl
  · refine .inl
      ⟨.ofChannel (.invalidConfig "only the newest unpublished buffer can be aborted"), ?_⟩
    simp only [ne_eq, hidx, not_false_eq_true, if_true]
    rfl

/-- Taking the last lease back. -/
theorem abort_layout (hl : Layout region (contents ++ [.writing header]) pins) :
    Layout (region.forceRelease (Layout.at' region contents.length)) contents pins := by
  rw [Region.forceRelease_eq]
  exact hl.pop rfl

end Dsline
