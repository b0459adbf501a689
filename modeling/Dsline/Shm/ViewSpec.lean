import Dsline.Shm.OpenSpec
import Dsline.Shm.RecvSpec
/-!
# What the view calls do

The specifications of `recv_view` and of a view's release over a laid-out
region. A view turns the first content into a pin and lowers the floor to it
(`recvView_cases`); a release removes the pin and raises the floor to the
smallest one left (`release_ok`). What a view shows is what a receive would
have delivered (`Viewable.delivers`).
-/

namespace Dsline

open PersistentShmChannel World

variable {w : World} {host : Host} {contents : List Content} {pins : List Pin} {region : Region}

/-! ## The floor -/

/-- Lowering the floor to a pin behind all others keeps it theirs. -/
theorem floorMin_floorOf {cursors : List ℕ} {cursor : ℕ}
    (hfloor : FloorOf cursors region.pinFloor) (hlt : ∀ c ∈ cursors, c < cursor)
    (hword : cursor < wordCount) :
    FloorOf (cursor :: cursors) (region.floorMin cursor).pinFloor := by
  rcases hfloor with ⟨rfl, hf⟩ | ⟨hmem, hmin⟩
  · rw [Region.floorMin, if_neg fun h => h.1 hf]
    exact .inr ⟨List.mem_cons_self, by simp⟩
  · have hc := hlt _ hmem
    have hne : region.pinFloor ≠ PIN_FLOOR_NONE := by
      simp only [PIN_FLOOR_NONE, wordCount] at hword ⊢
      omega
    rw [Region.floorMin, if_pos ⟨hne, Nat.le_of_lt hc⟩]
    refine .inr ⟨List.mem_cons_of_mem _ hmem, fun c h => ?_⟩
    rcases List.mem_cons.1 h with rfl | h
    · exact Nat.le_of_lt hc
    · exact hmin c h

variable (region) in
theorem words_floorMin (cursor : ℕ) :
    region.Words region.head region.tail (region.floorMin cursor).pinFloor
      (region.floorMin cursor) := by
  rw [Region.floorMin]
  split <;> exact ⟨rfl, rfl, rfl, rfl, rfl, rfl, rfl⟩

theorem pinFloor_floorMin {cursor : ℕ} : (region.floorMin cursor).pinFloor =
    if region.pinFloor ≠ PIN_FLOOR_NONE ∧ region.pinFloor ≤ cursor then region.pinFloor
    else cursor := by
  rw [Region.floorMin]
  split <;> rfl

variable (region) in
theorem slots_floorMin (cursor : ℕ) : (region.floorMin cursor).slots = region.slots := by
  rw [Region.floorMin]
  split <;> rfl

/-! ## What a view shows -/

/-- The checks a view makes of the frame it shows. -/
structure Viewable [Checksum] (snapshot : SlotSnapshot) (header : FrameHeader) : Prop where
  decodes : ∃ total, decodeFrameHeader (snapshot.data.take FRAME_HEADER_LEN) = .ok (header, total)
  length : FRAME_HEADER_LEN ≤ snapshot.data.length
  accepted : checkViewHeader header snapshot.seq = .ok ()
  payloadLen : header.payloadLen.toNat = snapshot.data.length - FRAME_HEADER_LEN
  checksum : checksum32 (snapshot.data.drop FRAME_HEADER_LEN) = header.checksum

section Viewable

variable [Checksum] {snapshot : SlotSnapshot} {header : FrameHeader} {data : Bytes}
  {datas : List Bytes} {seq : UInt64} {out : Except Failure Bytes}

omit [Checksum] in
theorem checkViewHeader_ok (h : checkViewHeader header seq = .ok ()) :
    header.headerLen.toNat = FRAME_HEADER_LEN ∧ header.flags = 0 ∧ header.kind = .bytes ∧
      header.seq = seq := by
  simp only [checkViewHeader] at h
  split at h
  · cases h
  rename_i h1
  split at h
  · cases h
  rename_i h2
  rw [not_or, not_or, not_not, not_not, not_not] at h1
  exact ⟨h1.1, h1.2.1, h1.2.2, not_not.1 h2⟩

/-- A frame a view accepts decodes to its payload. -/
theorem Viewable.decodeFrame (h : Viewable snapshot header) :
    Dsline.decodeFrame snapshot.data =
      .ok ⟨header, [], snapshot.data.drop FRAME_HEADER_LEN⟩ := by
  obtain ⟨total, hdec⟩ := h.decodes
  have hlen := h.length
  rw [decodeFrameHeader_take (Nat.le_refl _) hlen] at hdec
  obtain ⟨hhl, -, -, -⟩ := checkViewHeader_ok h.accepted
  have hpl := h.payloadLen
  have hmeta : decodeMetadata snapshot.data FRAME_HEADER_LEN = .ok [] := by
    rw [decodeMetadata]
    rfl
  have hslice : slice snapshot.data FRAME_HEADER_LEN
      (FRAME_HEADER_LEN + header.payloadLen.toNat) =
        .ok (snapshot.data.drop FRAME_HEADER_LEN) := by
    rw [slice, if_pos ⟨Nat.le_add_right _ _, by omega⟩, Nat.add_sub_cancel_left, hpl,
      List.take_of_length_le (by rw [List.length_drop])]
  simp only [Dsline.decodeFrame, hdec, bind, Except.bind, hhl, hmeta, hslice]
  rw [if_neg (by omega), if_neg (by omega)]
  rfl

/-- **A view shows what a receive delivers.** -/
theorem Viewable.delivers (h : Viewable ⟨seq, data⟩ header)
    (hdel : Delivers seq (data :: datas) out) :
    datas = [] ∧ out = .ok (data.drop FRAME_HEADER_LEN) := by
  obtain ⟨-, hflags, hkind, hseq⟩ := checkViewHeader_ok h.accepted
  have hval : validateBytesFrame ⟨header, [], data.drop FRAME_HEADER_LEN⟩ = .ok () := by
    rw [validateBytesFrame, if_neg]
    rw [not_or, not_not, not_not]
    exact ⟨hkind, h.checksum⟩
  have hplain : ¬ isChunked ⟨header, [], data.drop FRAME_HEADER_LEN⟩ = true := by
    rw [isChunked, hflags]
    decide
  obtain ⟨d, datas', he, hrun⟩ := hdel
  obtain ⟨rfl, rfl⟩ := List.cons.inj he
  have hr := hrun [] 0 0 none
  rw [finishRecv_of_valid h.decodeFrame hval hseq.symm, if_neg hplain, List.map_cons,
    List.cons_append, Effect.bind_ok Inbox.ops_advance, Effect.bind_ok Inbox.ops_bumpExpected,
    Effect.bind_ok Inbox.ops_setLastReceived] at hr
  cases out with
  | error err => simp [pure, EStateM.pure] at hr
  | ok payload =>
      simp only [pure, EStateM.pure, EStateM.Result.ok.injEq, ReceivedMessage.mk.injEq,
        Inbox.mk.injEq, List.length_cons] at hr
      obtain ⟨⟨-, hp⟩, -, -, hc, -⟩ := hr
      exact ⟨List.eq_nil_of_length_eq_zero (by omega), by rw [hp]⟩

end Viewable

/-! ## Taking a view -/

/-- What a `recv_view` that fails leaves: the region, and the handle but for
its mirrors and its sequence. -/
structure World.Looked (w : World) (contents : List Content) (w' : World) : Prop where
  region : w'.region = w.region
  config : w'.chan.config = w.chan.config
  closed : w'.chan.closed = w.chan.closed
  writer : w'.chan.writer = w.chan.writer
  expected : w'.chan.expectedRecvSeq = w.chan.expectedRecvSeq ∨
    ∃ snapshot more, contents = .committed snapshot :: more ∧
      w'.chan.expectedRecvSeq = snapshot.seq

/-- What a `recv_view` of a slot leaves. -/
structure World.Viewed (w : World) (w' : World) : Prop where
  words : w.region.Words w.region.head (w.region.tail + 1)
    (w.region.floorMin w.region.tail).pinFloor w'.region
  config : w'.chan.config = w.chan.config
  closed : w'.chan.closed = w.chan.closed
  writer : w'.chan.writer = w.chan.writer

theorem ofExcept_ok {α : Type} {a : α} {x : Except Failure α} (h : x = .ok a) :
    ofExcept x w = .ok a w := by
  rw [h]
  rfl

variable (host) in
/-- **Pinning the first content.** -/
theorem pinTail_ok {content : Content} {more : List Content} (seq : UInt64)
    (frameLen payloadLen : ℕ) (hm : w.Mirrors) (hl : Layout w.region (content :: more) pins)
    (hword : w.region.tail + 1 < wordCount) :
    ∃ w', pinTail host seq frameLen payloadLen w =
        .ok ⟨w.region.tail % w.region.capacity, seq, payloadLen, w.region.tail, false⟩ w' ∧
      Layout w'.region more
        (⟨w.region.tail, w'.region.slots (w.region.tail % w.region.capacity)⟩ :: pins) ∧
      w'.region.slots (w.region.tail % w.region.capacity) =
        (w.region.slots (w.region.tail % w.region.capacity)).identified .pinned seq frameLen
          (w.chan.writer.stamp host w.chan.writerEpoch 1) ∧
      w.Viewed w' ∧ w'.chan.expectedRecvSeq = w.chan.expectedRecvSeq + 1 := by
  have hstep : w.chan.stepTail.tailCursor = w.region.tail + 1 := by
    simp only [stepTail, hm.tail, wrappingAdd_of_lt hword]
  have hidx := hm.index
  have hslots := slots_floorMin (w.region.writePinnedHeader w.chan.tail seq frameLen
    (w.chan.writer.stamp host w.chan.writerEpoch 1)) w.chan.tailCursor
  have hwords := words_floorMin (w.region.writePinnedHeader w.chan.tail seq frameLen
    (w.chan.writer.stamp host w.chan.writerEpoch 1)) w.chan.tailCursor
  rw [Region.writePinnedHeader_eq, hidx, hm.tail] at hslots hwords
  have hmax : max w.region.tail (w.region.tail + 1) = w.region.tail + 1 :=
    Nat.max_eq_right (Nat.le_succ _)
  refine ⟨⟨{ w.chan.stepTail with
      expectedRecvSeq := w.chan.expectedRecvSeq + 1
      lastReceivedSeq := some seq },
    ((w.region.writePinnedHeader w.chan.tail seq frameLen
      (w.chan.writer.stamp host w.chan.writerEpoch 1)).floorMin
        w.chan.tailCursor).fetchMaxTail w.chan.stepTail.tailCursor⟩, ?_, ?_, ?_, ?_, rfl⟩
  · rw [← hidx, ← hm.tail]
    rfl
  all_goals rw [Region.writePinnedHeader_eq, hstep, hidx, hm.tail]
  · have hpin := hl.pin ((w.region.slots (w.region.tail % w.region.capacity)).identified
      .pinned seq frameLen (w.chan.writer.stamp host w.chan.writerEpoch 1)) rfl
    simp only [Region.fetchMaxTail, hslots, Region.setSlot_slots_self]
    exact hpin.congr rfl hwords.capacity hwords.frameCapacity
      ((congrArg (max · _) hwords.tail).trans hmax)
  · simp only [Region.fetchMaxTail, hslots, Region.setSlot_slots_self]
  · refine ⟨⟨hwords.capacity, hwords.frameCapacity, hwords.magic, hwords.format, hwords.head,
      (congrArg (max · _) hwords.tail).trans hmax, hwords.pinFloor.trans ?_⟩, rfl, rfl, rfl⟩
    rw [pinFloor_floorMin, pinFloor_floorMin, Region.setSlot_pinFloor]

variable [Checksum]

theorem checkViewPayload_ok {header : FrameHeader} {frameLen : ℕ} {payload : Area}
    (h : checkViewPayload header frameLen payload = .ok ()) :
    header.payloadLen.toNat = frameLen - FRAME_HEADER_LEN ∧
      checksum32 (payload.read FRAME_HEADER_LEN header.payloadLen.toNat) = header.checksum := by
  simp only [checkViewPayload] at h
  split at h
  · cases h
  rename_i h1
  split at h
  · cases h
  rename_i h2
  exact ⟨not_not.1 h1, not_not.1 h2⟩

variable (host) in
/-- What a view checks before it pins. -/
theorem viewTail_cases {snapshot : SlotSnapshot} {more : List Content} (resync : Bool)
    (hm : w.Mirrors) (hmode : w.chan.config.multiProducer = false)
    (hl : Layout w.region (.committed snapshot :: more) pins)
    (hword : w.region.tail + 1 < wordCount) :
    (∃ err w', viewTail host resync w = .error err w' ∧
      w.Looked (.committed snapshot :: more) w') ∨
      ∃ header w', Viewable snapshot header ∧
        viewTail host resync w = .ok ⟨w.region.tail % w.region.capacity, snapshot.seq,
          snapshot.data.length - FRAME_HEADER_LEN, w.region.tail, false⟩ w' ∧
        Layout w'.region more
          (⟨w.region.tail, w'.region.slots (w.region.tail % w.region.capacity)⟩ :: pins) ∧
        (w.region.slots (w.region.tail % w.region.capacity)).payload.read FRAME_HEADER_LEN
          (snapshot.data.length - FRAME_HEADER_LEN) = snapshot.data.drop FRAME_HEADER_LEN ∧
        (∃ stamp, stamp.process = w.chan.writer ∧
          w'.region.slots (w.region.tail % w.region.capacity) =
            (w.region.slots (w.region.tail % w.region.capacity)).identified .pinned snapshot.seq
              snapshot.data.length stamp) ∧
        w.Viewed w' ∧ w'.chan.expectedRecvSeq = snapshot.seq + 1 := by
  have hidx := hm.index
  obtain ⟨-, hseq, hfit, hdata⟩ := hl.holds.1
  have hlen : w.region.payloadLen (w.region.tail % w.region.capacity) = snapshot.data.length := by
    rw [← hdata, Region.payload, Area.length_read]
  have hsame : w.Looked (.committed snapshot :: more) w := ⟨rfl, rfl, rfl, rfl, .inl rfl⟩
  rw [Region.header] at hseq
  rw [viewTail, Effect.get_bind, hidx]
  simp only [hlen, hseq]
  by_cases hshort : snapshot.data.length < FRAME_HEADER_LEN
  · simp only [if_pos hshort]
    exact .inl ⟨_, _, rfl, hsame⟩
  simp only [if_neg hshort]
  have htake : (w.region.slots (w.region.tail % w.region.capacity)).payload.read 0
      FRAME_HEADER_LEN = snapshot.data.take FRAME_HEADER_LEN := by
    rw [← hdata, Region.payload, Area.take_read (by omega)]
  have hdrop : (w.region.slots (w.region.tail % w.region.capacity)).payload.read FRAME_HEADER_LEN
      (snapshot.data.length - FRAME_HEADER_LEN) = snapshot.data.drop FRAME_HEADER_LEN := by
    have hread : (w.region.slots (w.region.tail % w.region.capacity)).payload.read 0
        snapshot.data.length = snapshot.data := by
      rw [← hlen]
      exact hdata
    conv_rhs => rw [← hread]
    rw [Area.drop_read (by omega), Nat.zero_add]
  rw [htake]
  cases hdec : decodeFrameHeader (snapshot.data.take FRAME_HEADER_LEN) with
  | error err =>
      exact .inl ⟨_, _, Effect.bind_error rfl, hsame⟩
  | ok decoded =>
      obtain ⟨header, total⟩ := decoded
      rw [Effect.bind_ok (ofExcept_ok (w := w) rfl)]
      simp only
      cases hacc : checkViewHeader header snapshot.seq with
      | error err => exact .inl ⟨_, _, Effect.bind_error rfl, hsame⟩
      | ok u =>
          rw [Effect.bind_ok (ofExcept_ok (w := w) rfl)]
          by_cases hexp : resync = true ∨ w.chan.config.multiProducer = true ∨
              w.chan.expectedRecvSeq = snapshot.seq
          swap
          · exact .inl ⟨_, _, Effect.bind_error (checkSeq_mismatch hexp), hsame⟩
          rw [Effect.bind_ok (checkSeq_ok hexp)]
          have hadopt : (if resync = true then snapshot.seq else w.chan.expectedRecvSeq) =
              snapshot.seq := by
            split
            · rfl
            · rename_i hno
              exact (hexp.resolve_left hno).resolve_left (by simp [hmode])
          rw [hadopt]
          cases hpay : checkViewPayload header snapshot.data.length
              (w.region.slots (w.region.tail % w.region.capacity)).payload with
          | error err =>
              exact .inl ⟨_, _, Effect.bind_error rfl, ⟨rfl, rfl, rfl, rfl,
                .inr ⟨snapshot, more, rfl, rfl⟩⟩⟩
          | ok u =>
              obtain ⟨hplen, hsum⟩ := checkViewPayload_ok hpay
              obtain ⟨w', hrun, hl', hslot, hview, hexp'⟩ :=
                pinTail_ok host snapshot.seq snapshot.data.length header.payloadLen.toNat
                  (w := w.expecting snapshot.seq)
                ⟨hm.capacity, hm.head, hm.tail, hm.floor, hm.index⟩ hl hword
              refine .inr ⟨header, w', ⟨⟨total, hdec⟩, by omega, hacc, hplen, ?_⟩, ?_, hl', hdrop,
                ⟨_, rfl, hslot⟩, ⟨hview.words, hview.config, hview.closed, hview.writer⟩, hexp'⟩
              · rw [← hdrop, ← hplen]
                exact hsum
              · rw [← hplen]
                exact (Effect.bind_ok (ofExcept_ok rfl)).trans hrun

variable (host) in
/-- **A view is taken of the first content, or nothing happens.** -/
theorem recvView_cases (hs : w.Sound) (hmode : w.chan.config.multiProducer = false)
    (halive : NoneGone host w.region) (hl : Layout w.region contents pins)
    (hword : w.region.tail + contents.length < wordCount) :
    (∃ err w', recvView host w = .error err w' ∧ w.Looked contents w') ∨
      ∃ snapshot more header w', contents = .committed snapshot :: more ∧
        Viewable snapshot header ∧
        recvView host w = .ok ⟨w.region.tail % w.region.capacity, snapshot.seq,
          snapshot.data.length - FRAME_HEADER_LEN, w.region.tail, false⟩ w' ∧
        Layout w'.region more
          (⟨w.region.tail, w'.region.slots (w.region.tail % w.region.capacity)⟩ :: pins) ∧
        (w.region.slots (w.region.tail % w.region.capacity)).payload.read FRAME_HEADER_LEN
          (snapshot.data.length - FRAME_HEADER_LEN) = snapshot.data.drop FRAME_HEADER_LEN ∧
        (∃ stamp, stamp.process = w.chan.writer ∧
          w'.region.slots (w.region.tail % w.region.capacity) =
            (w.region.slots (w.region.tail % w.region.capacity)).identified .pinned snapshot.seq
              snapshot.data.length stamp) ∧
        w.Viewed w' ∧ w'.chan.expectedRecvSeq = snapshot.seq + 1 := by
  have hsame : w.Looked contents w := ⟨rfl, rfl, rfl, rfl, .inl rfl⟩
  rw [recvView, Effect.get_bind]
  by_cases hdrop : w.chan.config.backpressure = .dropOldest
  · simp only [if_pos hdrop]
    exact .inl ⟨_, w, rfl, hsame⟩
  simp only [if_neg hdrop]
  by_cases hc : w.region.state (w.region.tail % w.region.capacity) = .committed
  swap
  · refine .inl ⟨_, _, Effect.bind_error (ensureTailReadable_empty hs hc
      (tryReclaimAtTail_none hmode ?_ halive)), ⟨rfl, rfl, rfl, rfl, .inl rfl⟩⟩
    exact (mirrors_refreshed (depth w) hs.capacity).index ▸ Nat.mod_lt _ hs.pos
  obtain ⟨snapshot, more, rfl⟩ : ∃ snapshot more, contents = .committed snapshot :: more := by
    cases contents with
    | nil => exact absurd hc (state_tail_ne hl hs.pos (by simp))
    | cons content more =>
        cases content with
        | committed snapshot => exact ⟨snapshot, more, rfl⟩
        | free => exact absurd hc (state_tail_ne hl hs.pos (by simp [Content.state]))
        | writing header => exact absurd hc (state_tail_ne hl hs.pos (by simp [Content.state]))
  have hm := mirrors_refreshed (depth w) (w := w) hs.capacity
  rw [Effect.bind_ok (ensureTailReadable_committed hs hc)]
  rcases viewTail_cases host w.chan.resyncExpected (w := (w.refreshed (depth w)).unsynced)
    ⟨hm.capacity, hm.head, hm.tail, hm.floor, hm.index⟩
      hmode hl (Nat.lt_of_le_of_lt (Nat.add_le_add_left (Nat.le_add_left 1 more.length) _) hword)
    with ⟨err, w', hrun, hlook⟩ | ⟨header, w', hview, hrun, hl', hread, hslot, hwords, he⟩
  · exact .inl ⟨err, w', hrun, ⟨hlook.region, hlook.config, hlook.closed, hlook.writer,
      hlook.expected⟩⟩
  · exact .inr ⟨snapshot, more, header, w', rfl, hview, hrun, hl', hread, hslot,
      ⟨hwords.words, hwords.config, hwords.closed, hwords.writer⟩, he⟩

/-! ## Releasing a view -/

section Release

variable {k : ℕ} {view : ShmRecvView}

/-- The region once a pin is released. -/
def Region.unpinned (region : Region) (cursor : ℕ) : Region :=
  (region.forceRelease (cursor % region.capacity)).unpinFloor cursor

omit [Checksum] in
theorem slots_unpinFloor {cursor : ℕ} : (region.unpinFloor cursor).slots = region.slots := by
  simp only [Region.unpinFloor, Region.floorCas]
  split_ifs <;> rfl

variable (region) in
omit [Checksum] in
theorem words_unpinFloor (cursor : ℕ) :
    region.Words region.head region.tail (region.unpinFloor cursor).pinFloor
      (region.unpinFloor cursor) := by
  simp only [Region.unpinFloor, Region.floorCas]
  split_ifs <;> exact ⟨rfl, rfl, rfl, rfl, rfl, rfl, rfl⟩

variable (region) in
omit [Checksum] in
/-- The owner of the floor raises it to what the scan behind it finds. -/
theorem pinFloor_unpinFloor_self :
    (region.unpinFloor region.pinFloor).pinFloor =
      region.firstPinned (max (region.pinFloor + 1) (region.tail - region.capacity))
        region.tail := by
  simp only [Region.unpinFloor, Region.floorCas, ne_eq, not_true_eq_false, false_and, if_false,
    if_true]
  split_ifs with h
  · exact h
  · rfl

omit [Checksum] in
/-- **Releasing a pin** leaves the others, and the floor theirs. -/
theorem unpinned_layout (hl : Layout region contents pins)
    (hfloor : FloorOf (pins.map Pin.cursor) region.pinFloor) (hk : k < pins.length)
    (hword : region.tail < wordCount) :
    Layout (region.unpinned pins[k].cursor) contents (pins.eraseIdx k) ∧
      FloorOf ((pins.eraseIdx k).map Pin.cursor) (region.unpinned pins[k].cursor).pinFloor ∧
      region.Words region.head region.tail (region.unpinned pins[k].cursor).pinFloor
        (region.unpinned pins[k].cursor) := by
  have hmem : pins[k] ∈ pins := List.getElem_mem hk
  have hl' : Layout (region.forceRelease (pins[k].cursor % region.capacity)) contents
      (pins.eraseIdx k) := by
    rw [Region.forceRelease_eq]
    exact hl.unpin hk rfl
  have hw :=
    words_unpinFloor (region.forceRelease (pins[k].cursor % region.capacity)) pins[k].cursor
  have hother : ∀ c ∈ (pins.eraseIdx k).map Pin.cursor, c ∈ pins.map Pin.cursor ∧
      c ≠ pins[k].cursor := by
    intro c hc
    obtain ⟨q, hq, rfl⟩ := List.mem_map.1 hc
    obtain ⟨i, hi, hik, rfl⟩ := List.mem_eraseIdx_iff_getElem.1 hq
    refine ⟨List.mem_map_of_mem (List.getElem_mem hi), fun he => hik ?_⟩
    have hinj := List.nodup_iff_injective_getElem.1 hl.distinct
    have := @hinj ⟨i, by simpa using hi⟩ ⟨k, by simpa using hk⟩ (by simpa using he)
    simpa using this
  refine ⟨hl'.congr slots_unpinFloor hw.capacity hw.frameCapacity hw.tail, ?_,
    ⟨hw.capacity, hw.frameCapacity, hw.magic, hw.format, hw.head, hw.tail, rfl⟩⟩
  obtain ⟨hfm, hmin⟩ := hfloor.resolve_left fun h => by
    have hnil := congrArg List.length h.1
    simp only [List.length_map, List.length_nil] at hnil
    omega
  obtain ⟨q, hq, hqe⟩ := List.mem_map.1 hfm
  have hpf : (region.forceRelease (pins[k].cursor % region.capacity)).pinFloor =
      region.pinFloor := rfl
  by_cases heq : region.pinFloor = pins[k].cursor
  · -- The floor's owner rescans from the next cursor on: all other pins lie there.
    have hscan := firstPinned_floorOf (max (pins[k].cursor + 1)
      (region.tail - region.capacity)) hl' (Nat.le_max_right _ _)
    have hall : ((pins.eraseIdx k).map Pin.cursor).filter
        (max (pins[k].cursor + 1) (region.tail - region.capacity) ≤ ·) =
          (pins.eraseIdx k).map Pin.cursor := by
      rw [List.filter_eq_self]
      intro c hc
      obtain ⟨hc', hne⟩ := hother c hc
      have hle := hmin c hc'
      obtain ⟨p, hp, rfl⟩ := List.mem_map.1 hc'
      have hb := (hl.bound p hp).1
      rw [decide_eq_true_eq, Nat.max_le]
      omega
    rw [hall] at hscan
    have hself := pinFloor_unpinFloor_self (region.forceRelease (pins[k].cursor % region.capacity))
    rw [hpf, heq] at hself
    rw [Region.unpinned, hself]
    exact hscan
  · -- Another pin holds the floor, and stays.
    have hne : region.pinFloor ≠ PIN_FLOOR_NONE := by
      have := (hl.bound q hq).2
      simp only [PIN_FLOOR_NONE, wordCount] at hword ⊢
      omega
    have hkeep : (region.unpinned pins[k].cursor).pinFloor = region.pinFloor := by
      simp only [Region.unpinned, Region.unpinFloor, hpf]
      rw [if_pos ⟨heq, hne⟩]
      rfl
    rw [hkeep]
    refine .inr ⟨?_, fun c hc => hmin c (hother c hc).1⟩
    obtain ⟨i, hi, rfl⟩ := List.getElem_of_mem hq
    refine List.mem_map.2 ⟨_, List.mem_eraseIdx_iff_getElem.2 ⟨i, hi, fun hik => ?_, rfl⟩, hqe⟩
    subst hik
    exact heq hqe.symm

omit [Checksum] in
/-- **A live view is released**, by `release` as by dropping it. -/
theorem release_ok (hlive : view.released = false)
    (hidx : view.index = view.cursorValue % region.capacity)
    (hpin : region.state view.index = .pinned) :
    view.release region = .ok { view with released := true } (region.unpinned view.cursorValue) ∧
      view.drop region = region.unpinned view.cursorValue := by
  have hrel := Region.releasePinned_ok hpin
  constructor
  · have huse : view.checkUsable = .ok () := by
      rw [ShmRecvView.checkUsable, hlive]
      rfl
    rw [ShmRecvView.release, huse]
    refine (Effect.bind_ok hrel).trans ?_
    rw [Region.unpinned, ← hidx]
    rfl
  · rw [ShmRecvView.drop, if_neg (by simp [hlive]), hrel, Region.unpinned, ← hidx]

end Release

end Dsline
