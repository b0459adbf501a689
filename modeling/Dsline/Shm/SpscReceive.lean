import Dsline.Shm.SpscMoves
/-!
# What a consumer's calls do to the queue

A receive takes the first message, or finds none; a view takes it and keeps
its slot; releasing the view gives the slot back. With these every call of
the system is covered: `Holds.step` says that an admissible call keeps the
invariant and moves the queue as its kind can.
-/

namespace Dsline

open PersistentShmChannel World

variable [Checksum] {config : SpscConfig} {synced : Prop} {s : SpscState} {q : Queue}
  {host : Host}

namespace SpscState

/-! ## Taking the first message -/

/-- What a first message's slots leave to the others once they are taken. -/
theorem Holds.advance {seq : UInt64} {datas : List Bytes} {out : Except Failure Bytes}
    {rest : List Entry} {region' : Region} {pins' : List Pin} {floor : ℕ}
    (h : s.Holds config synced q) (hentries : q.entries = .message seq datas out :: rest)
    (hl : Layout region' (contentsOf rest) pins')
    (hw : s.region.Words s.region.head (s.region.tail + datas.length) floor region')
    (hfloor : FloorOf (pins'.map Pin.cursor) floor) (got : List ReceivedMessage) :
    Ring config s.producer.writer region' rest pins' ∧ Numbered (q.base + 1) rest ∧
      Produces config region' { q with base := q.base + 1, entries := rest, got } s.producer ∧
      ∀ lease ∈ s.leases, lease.isSealed = false →
        ∃ i header, LeaseAt config region' rest lease i header := by
  have hlen : (contentsOf q.entries).length = datas.length + (contentsOf rest).length := by
    rw [hentries, contentsOf_cons, List.length_append, contents_message, List.length_map]
  have hpub : publishedOf q.entries = datas.length + publishedOf rest := by
    rw [hentries, publishedOf_cons, published_message]
  have hhead := h.ring.head
  have hword := h.ring.word
  have hnum := h.numbered
  rw [hentries] at hnum
  refine ⟨⟨h.ring.fits.words hw, hl, ?_, ?_, fun entry he => h.ring.good entry ?_, ?_⟩, hnum.2,
    ⟨h.producer.config, h.producer.closed, h.producer.bias, h.producer.mirror.trans hw.head.symm,
      ?_, ?_⟩, ?_⟩
  · rw [hw.head, hw.tail]
    omega
  · rw [hw.tail]
    omega
  · rw [hentries]
    exact List.mem_cons_of_mem _ he
  · rw [hw.pinFloor]
    exact hfloor
  · rw [h.producer.head, Layout.at', Layout.at', hw.tail, hw.capacity, hlen, Nat.add_assoc]
  · rw [h.producer.nextSeq, hentries, List.length_cons, Nat.add_assoc, Nat.add_comm 1]
  · intro lease hm hu
    obtain ⟨i, header, hat⟩ := h.leases lease hm hu
    have hentry := hat.entry
    rw [hentries] at hentry
    cases i with
    | zero => cases hentry
    | succ i =>
        refine ⟨i, header, hat.transfer (by simpa using hentry) hw.capacity ?_⟩
        rw [hw.tail, hentries, offsetOf_cons_succ, contents_message, List.length_map, Nat.add_assoc]

/-- The state a receive that took the first message leaves. -/
theorem Holds.received {chan : PersistentShmChannel} {seq : UInt64} {datas : List Bytes}
    {out : Except Failure Bytes} {rest : List Entry} {w : World} (h : s.Holds config synced q)
    (hc : s.consumer = some chan) (hentries : q.entries = .message seq datas out :: rest)
    (hl : Layout w.region (contentsOf rest) (s.views.map LiveView.pin))
    (hrec : World.Received ⟨chan, s.region⟩ datas.length w)
    (hexp : w.chan.expectedRecvSeq = UInt64.ofNat (q.base + 1)) (got : List ReceivedMessage) :
    ({ s.withConsumer w with got } : SpscState).Holds config True
      { q with base := q.base + 1, entries := rest, got } := by
  obtain ⟨hring, hnum, hprod, hleases⟩ := h.advance hentries hl hrec.words h.ring.floor got
  have hcons := h.consumer chan hc
  refine ⟨h.mode, hring, hnum, hprod, ?_, fun _ hnone => (by cases hnone), hleases, h.distinct,
    ?_, h.accepted, rfl⟩
  · intro c hc'
    obtain rfl : w.chan = c := Option.some.inj hc'
    exact ⟨hrec.config.trans hcons.config, hrec.closed.trans hcons.closed, fun _ => hexp⟩
  · intro v hv
    have hview := h.views v hv
    obtain ⟨c, hc', howner⟩ := hview.owner
    obtain rfl : chan = c := Option.some.inj (hc.symm.trans hc')
    exact ⟨hview.live, hview.index.trans (congrArg _ hrec.words.capacity.symm), w.chan, rfl,
      fun identity hid => (howner identity hid).trans hrec.writer.symm⟩

/-- The first content of a queue is readable exactly where its first entry
is a message. -/
theorem Holds.state_tail_ne (h : s.Holds config synced q)
    (hfirst : ∀ seq datas out rest, q.entries ≠ .message seq datas out :: rest) :
    s.region.state (s.region.tail % s.region.capacity) ≠ .committed := by
  refine World.state_tail_ne (w := s.atProducer) h.ring.layout h.ring.fits.pos fun content hc => ?_
  cases he : q.entries with
  | nil => rw [he] at hc; cases hc
  | cons entry rest =>
      cases entry with
      | message seq datas out => exact absurd he (hfirst seq datas out rest)
      | lease header =>
          rw [he] at hc
          cases hc
          simp [Content.state]

variable (host) in
/-- **What `recv_with_seq` does**: it returns the first message, or skips it
where it is damaged, or finds an empty ring. -/
theorem Holds.recv_cases {chan : PersistentShmChannel} (h : s.Holds config synced q)
    (hc : s.consumer = some chan) (halive : NoneGone host s.region)
    (hsync : chan.resyncExpected = true ∨ chan.expectedRecvSeq = UInt64.ofNat q.base) :
    ((∀ seq datas out rest, q.entries ≠ .message seq datas out :: rest) ∧
      recvWithSeq host ⟨chan, s.region⟩ = .error (.ofChannel .bufferEmpty)
        (World.refreshed ⟨chan, s.region⟩ (depth ⟨chan, s.region⟩))) ∨
    (∃ seq datas payload rest w, q.entries = .message seq datas (.ok payload) :: rest ∧
      recvWithSeq host ⟨chan, s.region⟩ = .ok ⟨seq, payload⟩ w ∧
      w.chan.lastReceivedSeq = some seq ∧ w.chan.tailCursor = w.region.tail ∧
      ∀ got, ({ s.withConsumer w with got } : SpscState).Holds config True
        { q with base := q.base + 1, entries := rest, got }) ∨
    (∃ seq datas err rest w, q.entries = .message seq datas (.error err) :: rest ∧
      recvWithSeq host ⟨chan, s.region⟩ = .error err w ∧
      (s.withConsumer w).Holds config True { q with base := q.base + 1, entries := rest }) := by
  have hs := h.consumer_sound hc
  have hcons := h.consumer chan hc
  have hmode : chan.config.multiProducer = false := hcons.config ▸ h.mode
  by_cases hfirst : ∀ seq datas out rest, q.entries ≠ .message seq datas out :: rest
  · refine .inl ⟨hfirst, recvWithSeq_empty hs (h.state_tail_ne hfirst)
      (tryReclaimAtTail_none hmode ?_ halive)⟩
    exact (mirrors_refreshed (depth ⟨chan, s.region⟩) hs.capacity).index ▸
      Nat.mod_lt _ hs.pos
  simp only [not_forall, ne_eq, not_not] at hfirst
  obtain ⟨seq, datas, out, rest, hentries⟩ := hfirst
  have hl := h.ring.layout
  have hnum := h.numbered
  obtain ⟨hdel, hstuck⟩ := h.ring.good (.message seq datas out) (hentries ▸ List.mem_cons_self)
  have hword := h.ring.word
  have hread := readable_le rest
  have hlen := length_contentsOf rest
  rw [hentries] at hl hnum hword
  have hseq : seq = UInt64.ofNat q.base := hnum.1
  rw [contentsOf_cons, contents_message] at hl hword
  rw [List.length_append, List.length_map] at hword
  have hword' : s.region.tail + (datas.length + (readable (contentsOf rest)).length) <
      wordCount := by omega
  have hsync' : chan.resyncExpected = true ∨ chan.config.multiProducer = true ∨
      chan.expectedRecvSeq = seq := hsync.imp id fun he => .inr (he.trans hseq.symm)
  have hadopt : (if chan.resyncExpected = true then seq else chan.expectedRecvSeq) + 1 =
      UInt64.ofNat (q.base + 1) := by
    rw [ofNat_succ, ← hseq]
    split
    · rfl
    · rename_i hno
      rw [hsync.resolve_left hno, hseq]
  refine .inr ?_
  cases out with
  | ok payload =>
      obtain ⟨w, hrun, hl', hrec, hlast, hexp⟩ := recvWithSeq_ok host hs hl hword' hdel
        hsync'
      exact .inl ⟨seq, datas, payload, rest, w, hentries, hrun, hlast, hrec.mirror, fun got =>
        h.received hc hentries hl' hrec (hexp.trans hadopt) got⟩
  | error err =>
      obtain ⟨w, hrun, hl', hrec, -, hexp⟩ := recvWithSeq_fails host hs hl hword' hdel
        (hstuck err rfl) hsync'
      refine .inr ⟨seq, datas, err, rest, w, hentries, hrun, ?_⟩
      have hnext := h.received hc hentries hl' hrec (hexp.trans hadopt) s.got
      rw [h.got] at hnext
      exact { hnext with got := h.got }

/-- A receive that found nothing leaves the mirrors alone refreshed. -/
theorem Holds.consumerRefreshed {chan : PersistentShmChannel} {d : ℕ}
    (h : s.Holds config synced q) (hc : s.consumer = some chan) :
    (s.withConsumer (World.refreshed ⟨chan, s.region⟩ d)).Holds config synced q :=
  h.consumerIdle hc rfl rfl rfl (h.consumer chan hc).expected

/-- **`recv_with_seq` takes the first message, or leaves the queue.** -/
theorem Holds.stepRecv (h : s.Holds config True q) (halive : NoneGone host s.region) :
    ∃ q', Moves config s (.recv host) q q' ∧ (s.stepRecv host).Holds config True q' := by
  rw [SpscState.stepRecv]
  cases hc : s.consumer with
  | none => exact ⟨q, .idle, h⟩
  | some chan =>
      simp only
      rcases h.recv_cases _ hc halive (.inr ((h.consumer chan hc).expected trivial)) with
        ⟨-, hrun⟩ | ⟨seq, datas, payload, rest, w, hentries, hrun, -, -, hnext⟩ |
          ⟨seq, datas, err, rest, w, hentries, hrun, hnext⟩
      · rw [hrun]
        exact ⟨q, .idle, h.consumerRefreshed hc⟩
      · rw [hrun]
        refine ⟨_, .deliver rfl hentries, ?_⟩
        rw [← h.got]
        exact hnext _
      · rw [hrun]
        exact ⟨_, .skip rfl hentries, hnext⟩

variable (host) in
/-- **`try_recv`** does what `recv_with_seq` does, and reports an empty ring
as such. -/
theorem Holds.tryRecv_cases {chan : PersistentShmChannel} (h : s.Holds config synced q)
    (hc : s.consumer = some chan) (halive : NoneGone host s.region)
    (hsync : chan.resyncExpected = true ∨ chan.expectedRecvSeq = UInt64.ofNat q.base) :
    ((∀ seq datas out rest, q.entries ≠ .message seq datas out :: rest) ∧
      PersistentShmChannel.tryRecv host ⟨chan, s.region⟩ =
        .ok none (World.refreshed ⟨chan, s.region⟩ (depth ⟨chan, s.region⟩))) ∨
    (∃ seq datas payload rest w, q.entries = .message seq datas (.ok payload) :: rest ∧
      PersistentShmChannel.tryRecv host ⟨chan, s.region⟩ = .ok (some payload) w ∧
      w.chan.lastReceivedSeq = some seq ∧ w.chan.tailCursor = w.region.tail ∧
      ∀ got, ({ s.withConsumer w with got } : SpscState).Holds config True
        { q with base := q.base + 1, entries := rest, got }) ∨
    (∃ seq datas err rest w, q.entries = .message seq datas (.error err) :: rest ∧
      PersistentShmChannel.tryRecv host ⟨chan, s.region⟩ = .error err w ∧
      (s.withConsumer w).Holds config True { q with base := q.base + 1, entries := rest }) := by
  have hs := h.consumer_sound hc
  have hmode : chan.config.multiProducer = false := (h.consumer chan hc).config ▸ h.mode
  have hidx : (World.refreshed ⟨chan, s.region⟩ (depth ⟨chan, s.region⟩)).chan.tail <
      s.region.capacity :=
    (mirrors_refreshed (depth ⟨chan, s.region⟩) hs.capacity).index ▸ Nat.mod_lt _ hs.pos
  have h' := h.consumerRefreshed (d := depth ⟨chan, s.region⟩) hc
  by_cases hcommitted : s.region.state (s.region.tail % s.region.capacity) = .committed
  · rcases h'.recv_cases host rfl halive hsync with
      ⟨hfirst, -⟩ | ⟨seq, datas, payload, rest, w, hentries, hrun, hlast, hmirror, hnext⟩ |
        ⟨seq, datas, err, rest, w, hentries, hrun, hnext⟩
    · exact absurd hcommitted (h.state_tail_ne hfirst)
    · exact .inr (.inl ⟨seq, datas, payload, rest, w, hentries, tryRecv_ok hs hcommitted hrun,
        hlast, hmirror, hnext⟩)
    · exact .inr (.inr ⟨seq, datas, err, rest, w, hentries, tryRecv_error hs hcommitted hrun,
        hnext⟩)
  · refine .inl ⟨fun seq datas out rest hentries => hcommitted ?_,
      tryRecv_empty hs hcommitted (tryReclaimAtTail_none hmode hidx halive)⟩
    have hl := h.ring.layout
    have hgood := h.ring.good (.message seq datas out) (hentries ▸ List.mem_cons_self)
    obtain ⟨data, datas', rfl⟩ := List.exists_cons_of_ne_nil hgood.ne_nil
    rw [hentries] at hl
    exact hl.holds.1.state

/-- **`try_recv` takes the first message, or leaves the queue.** -/
theorem Holds.stepTryRecv (h : s.Holds config True q) (halive : NoneGone host s.region) :
    ∃ q', Moves config s (.tryRecv host) q q' ∧ (s.stepTryRecv host).Holds config True q' := by
  rw [SpscState.stepTryRecv]
  cases hc : s.consumer with
  | none => exact ⟨q, .idle, h⟩
  | some chan =>
      simp only
      rcases h.tryRecv_cases _ hc halive (.inr ((h.consumer chan hc).expected trivial)) with
        ⟨-, hrun⟩ | ⟨seq, datas, payload, rest, w, hentries, hrun, hlast, -, hnext⟩ |
          ⟨seq, datas, err, rest, w, hentries, hrun, hnext⟩
      · rw [hrun]
        exact ⟨q, .idle, h.consumerRefreshed hc⟩
      · rw [hrun]
        refine ⟨_, .deliver rfl hentries, ?_⟩
        simp only [hlast, Option.getD_some]
        rw [← h.got]
        exact hnext _
      · rw [hrun]
        exact ⟨_, .skip rfl hentries, hnext⟩

/-! ## Views -/

/-- A readable first content is the first frame of a first message. -/
theorem Holds.first_message {snapshot : SlotSnapshot} {more : List Content}
    (h : s.Holds config synced q) (hc : contentsOf q.entries = .committed snapshot :: more) :
    ∃ datas out rest, q.entries = .message snapshot.seq (snapshot.data :: datas) out :: rest ∧
      more = datas.map (.committed ⟨snapshot.seq, ·⟩) ++ contentsOf rest ∧
      snapshot.seq = UInt64.ofNat q.base := by
  have hnum := h.numbered
  have hgood := h.ring.good
  cases he : q.entries with
  | nil => rw [he] at hc; cases hc
  | cons entry rest =>
      rw [he] at hc hnum hgood
      cases entry with
      | lease header => cases hc
      | message seq datas out =>
          obtain ⟨data, datas', rfl⟩ := List.exists_cons_of_ne_nil
            (hgood _ List.mem_cons_self).ne_nil
          rw [contentsOf_cons, contents_message, List.map_cons, List.cons_append] at hc
          obtain ⟨hs, rfl⟩ := List.cons.inj hc
          cases hs
          exact ⟨datas', out, rest, rfl, rfl, hnum.1⟩

/-- **`recv_view` takes the first message and keeps its slot, or leaves the
queue.** -/
theorem Holds.stepRecvView (h : s.Holds config True q) (halive : NoneGone host s.region) :
    ∃ q', Moves config s (.recvView host) q q' ∧ (s.stepRecvView host).Holds config True q' := by
  rw [SpscState.stepRecvView]
  cases hc : s.consumer with
  | none => exact ⟨q, .idle, h⟩
  | some chan =>
  have hcons := h.consumer chan hc
  have hmode : chan.config.multiProducer = false := hcons.config ▸ h.mode
  have hs := h.consumer_sound hc
  simp only
  rcases recvView_cases host (w := ⟨chan, s.region⟩) hs hmode halive
      h.ring.layout h.ring.word with ⟨err, w, hrun, hlook⟩ |
    ⟨snapshot, more, header, w, hcontents, hview, hrun, hl, hread, ⟨stamp, hstamp, hslot⟩, hw, hexp⟩
  · rw [hrun]
    refine ⟨q, .idle, ?_⟩
    have hregion : w = ⟨w.chan, s.region⟩ := by
      rw [← show w.region = s.region from hlook.region]
    simp only
    rw [hregion]
    refine h.consumerIdle hc hlook.config hlook.closed hlook.writer fun _ => ?_
    rcases hlook.expected with he | ⟨snapshot, more, hcontents, he⟩
    · exact he.trans (hcons.expected trivial)
    · obtain ⟨-, -, -, -, -, hseq⟩ := h.first_message hcontents
      exact he.trans hseq
  obtain ⟨datas, out, rest, hentries, rfl, hseq⟩ := h.first_message hcontents
  obtain ⟨hdel, -⟩ := h.ring.good _ (hentries ▸ List.mem_cons_self)
  obtain ⟨rfl, rfl⟩ := hview.delivers hdel
  rw [hrun]
  refine ⟨_, .deliver rfl hentries, ?_⟩
  have hpayload : (w.region.slots (s.region.tail % s.region.capacity)).payload.read
      FRAME_HEADER_LEN (snapshot.data.length - FRAME_HEADER_LEN) =
        snapshot.data.drop FRAME_HEADER_LEN := by
    rw [hslot]
    exact hread
  have hlt : ∀ c ∈ (s.views.map LiveView.pin).map Pin.cursor, c < s.region.tail := fun c hc => by
    obtain ⟨p, hp, rfl⟩ := List.mem_map.1 hc
    exact (h.ring.layout.bound p hp).2
  have htail : s.region.tail < wordCount := Nat.lt_of_le_of_lt h.ring.window.1 h.ring.window.2.2
  obtain ⟨hring, hnum, hprod, hleases⟩ := h.advance hentries hl hw.words
    (floorMin_floorOf h.ring.floor hlt htail) (s.got ++ [⟨snapshot.seq,
    snapshot.data.drop FRAME_HEADER_LEN⟩])
  refine ⟨h.mode, hring, hnum, ?_, ?_, fun _ hnone => (by cases hnone), hleases, h.distinct, ?_,
    h.accepted, ?_⟩
  · exact ⟨hprod.config, hprod.closed, hprod.bias, hprod.mirror, hprod.head, hprod.nextSeq⟩
  · intro c hc'
    obtain rfl : w.chan = c := Option.some.inj hc'
    refine ⟨hw.config.trans hcons.config, hw.closed.trans hcons.closed, fun _ => ?_⟩
    rw [hexp, ofNat_succ, hseq]
  · intro v hv
    rcases List.mem_cons.1 hv with rfl | hv
    · refine ⟨rfl, congrArg (s.region.tail % ·) hw.words.capacity.symm, w.chan, rfl,
        fun identity hid => ?_⟩
      simp only [Region.header, hslot, Slot.identified, SlotHeader.identity, encodeHeader, if_true,
        Option.getD_some, Option.some.injEq] at hid
      rw [← hid, hstamp]
      exact hw.writer.symm
    · have hview' := h.views v hv
      obtain ⟨c, hc', howner⟩ := hview'.owner
      obtain rfl : chan = c := Option.some.inj (hc.symm.trans hc')
      exact ⟨hview'.live, hview'.index.trans (congrArg _ hw.words.capacity.symm), w.chan, rfl,
        fun identity hid => (howner identity hid).trans hw.writer.symm⟩
  · show s.got ++ _ = q.got ++ _
    rw [h.got, hpayload]

/-- **A view given back leaves the queue.** -/
theorem Holds.unpinned {k : ℕ} {v : LiveView} (h : s.Holds config synced q)
    (hk : s.views[k]? = some v) :
    ({ s with
        region := s.region.unpinned v.view.cursorValue
        views := s.views.eraseIdx k } : SpscState).Holds config synced q := by
  obtain ⟨hlt, hget⟩ := List.getElem?_eq_some_iff.1 hk
  have hlt' : k < (s.views.map LiveView.pin).length := by rwa [List.length_map]
  have hpin : (s.views.map LiveView.pin)[k].cursor = v.view.cursorValue := by
    rw [List.getElem_map, hget]
    rfl
  have htail : s.region.tail < wordCount := Nat.lt_of_le_of_lt h.ring.window.1 h.ring.window.2.2
  obtain ⟨hl, hfloor, hw⟩ := unpinned_layout h.ring.layout h.ring.floor hlt' htail
  rw [hpin] at hl hfloor hw
  rw [List.eraseIdx_map] at hl hfloor
  refine ⟨h.mode, ⟨h.ring.fits.words hw, hl, ?_, ?_, h.ring.good, hfloor⟩, h.numbered, ?_,
    h.consumer, h.unread, ?_, h.distinct, ?_, h.accepted, h.got⟩
  · show (s.region.unpinned _).head = (s.region.unpinned _).tail + _
    rw [hw.head, hw.tail]
    exact h.ring.head
  · show (s.region.unpinned _).tail + _ < _
    rw [hw.tail]
    exact h.ring.word
  · refine ⟨h.producer.config, h.producer.closed, h.producer.bias,
      h.producer.mirror.trans hw.head.symm, ?_, h.producer.nextSeq⟩
    show s.producer.head = ((s.region.unpinned _).tail + _) % (s.region.unpinned _).capacity
    rw [hw.tail, hw.capacity]
    exact h.producer.head
  · intro lease hm hu
    obtain ⟨i, header, hat⟩ := h.leases lease hm hu
    exact ⟨i, header, hat.transfer hat.entry hw.capacity (congrArg (· + _) hw.tail)⟩
  · exact fun v' hv => (h.views v' (List.mem_of_mem_eraseIdx hv)).transfer hw.capacity

/-- A live view can be given back. -/
theorem Holds.releasable {k : ℕ} {v : LiveView} (h : s.Holds config synced q)
    (hk : s.views[k]? = some v) :
    v.view.release s.region =
        .ok { v.view with released := true } (s.region.unpinned v.view.cursorValue) ∧
      v.view.drop s.region = s.region.unpinned v.view.cursorValue := by
  have hmem := List.mem_of_getElem? hk
  have hview := h.views v hmem
  refine release_ok hview.live hview.index ?_
  rw [hview.index]
  exact h.ring.layout.state_pin (p := v.pin) (List.mem_map_of_mem hmem)

theorem Holds.stepRelease {k : ℕ} (h : s.Holds config synced q) :
    (s.stepRelease k).Holds config synced q := by
  rw [SpscState.stepRelease]
  cases hk : s.views[k]? with
  | none => exact h
  | some v =>
      simp only [(h.releasable hk).1]
      exact h.unpinned hk

theorem Holds.stepDropView {k : ℕ} (h : s.Holds config synced q) :
    (s.stepDropView k).Holds config synced q := by
  rw [SpscState.stepDropView]
  cases hk : s.views[k]? with
  | none => exact h
  | some v =>
      simp only [(h.releasable hk).2]
      exact h.unpinned hk

/-! ## Opening a consumer -/

variable (host) in
/-- What a handle opened on the queue expects: the first entry, or, where
nothing can be read, whatever comes. -/
theorem Holds.recovered_expected {d : ℕ} (h : s.Holds config synced q) (hviews : s.views = []) :
    ((recovered host config s.region d).resyncExpected = false ∧
      (recovered host config s.region d).expectedRecvSeq = UInt64.ofNat q.base) ∨
    ((recovered host config s.region d).resyncExpected = true ∧
      (recovered host config s.region d).expectedRecvSeq = 0) := by
  have hl := h.ring.layout
  have hcap := h.ring.fits.capacity
  by_cases hread : (occupiedSlotHeaders s.region config.capacity).any
      fun header => header.state != .writing
  swap
  · refine .inr ⟨?_, if_neg hread⟩
    show (false || !((occupiedSlotHeaders s.region config.capacity).any
      fun header => header.state != .writing)) = true
    rw [Bool.not_eq_true] at hread
    rw [hread]
    rfl
  refine .inl ⟨?_, ?_⟩
  · show (false || !((occupiedSlotHeaders s.region config.capacity).any
      fun header => header.state != .writing)) = false
    rw [hread]
    rfl
  refine (if_pos hread).trans ?_
  show (s.region.header (s.region.tail % config.capacity)).seq = _
  rw [← hcap]
  have hnum := h.numbered
  have hgood := h.ring.good
  rw [hviews] at hl
  cases he : q.entries with
  | nil =>
      rw [he] at hl
      obtain ⟨header, hmem, -⟩ := List.any_eq_true.1 hread
      obtain ⟨hmem, hocc⟩ := List.mem_filter.1 hmem
      obtain ⟨index, hidx, rfl⟩ := List.mem_map.1 hmem
      obtain ⟨cursor, h1, h2, rfl⟩ := Window.exists_cursor s.region.tail (List.mem_range.1 hidx)
      have hfree := hl.free cursor h1 (hcap ▸ h2) (by simp)
      rw [hcap] at hfree
      simp only [isOccupied, show (s.region.header (cursor % config.capacity)).state = .free
        from hfree] at hocc
      cases hocc
  | cons entry rest =>
      rw [he] at hl hnum hgood
      cases entry with
      | message seq datas out =>
          obtain ⟨data, datas', rfl⟩ := List.exists_cons_of_ne_nil
            (hgood _ List.mem_cons_self).ne_nil
          exact hl.holds.1.2.1.trans hnum.1
      | lease header =>
          rw [hl.holds.1.1]
          exact hnum.1

theorem Holds.views_nil (h : s.Holds config synced q) (hc : s.consumer = none) :
    s.views = [] := by
  refine List.eq_nil_iff_forall_not_mem.2 fun v hv => ?_
  obtain ⟨chan, hchan, -⟩ := (h.views v hv).owner
  rw [hc] at hchan
  cases hchan

/-- **A consumer is opened**, whatever the queue holds. -/
theorem Holds.opened (h : s.Holds config synced q) (halive : NoneGone host s.region) :
    «open» host config s.region = .ok ()
      ⟨recovered host config s.region (s.region.head - s.region.tail), s.region⟩ := by
  have hs := h.producer_sound
  exact open_ok h.ring.fits halive (scanPinFloor_eq h.ring.layout h.ring.floor)
    (h.producer.config ▸ hs.cursorLen)

theorem Holds.stepOpenConsumer (h : s.Holds config True q) (halive : NoneGone host s.region) :
    (s.stepOpenConsumer host).Holds config True q := by
  rw [SpscState.stepOpenConsumer]
  cases hc : s.consumer with
  | some chan => exact h
  | none =>
      have hviews := h.views_nil hc
      simp only [h.producer.config, h.opened halive]
      refine { h with
        consumer := fun c hc' => ?_
        unread := fun _ hnone => by cases hnone
        views := fun v hv => by
          have hv' : v ∈ s.views := hv
          rw [hviews] at hv'
          cases hv' }
      obtain rfl := Option.some.inj hc'
      refine ⟨rfl, rfl, fun _ => ?_⟩
      rcases h.recovered_expected host (d := s.region.head - s.region.tail) hviews with
        ⟨-, he⟩ | ⟨-, he⟩
      · exact he
      · rw [h.unread trivial hc]
        exact he

/-! ## Every call -/

/-- What a call needs of the state it is made in: a send, that its slots are
counted and FREE and its frames keep their length (`SendOk`); `alloc`, that
its slot is counted; a call that looks for dead processes, that neither
handle's is. -/
def Admissible (config : SpscConfig) (s : SpscState) : SpscOp → Prop
  | .send _ message =>
      ∀ plan, sendPlan config message.1.length = .ok plan → s.SendOk message plan
  | .alloc _ _ => s.region.head + s.writing + 1 < wordCount
  | .openConsumer host | .recv host | .tryRecv host | .recvView host => s.Alive host
  | .reopenProducer _ => False
  | _ => True

instance {message : Message} {plan : SendPlan} : Decidable (s.SendOk message plan) :=
  decidable_of_iff
    (s.region.head + s.writing + plan.neededSlots < wordCount ∧
      (s.guard.admits plan.neededSlots →
        plan.neededSlots + s.writing ≤ s.producer.config.capacity - s.guard.guardLen) ∧
      (message.1.length ≤ s.producer.config.slotSize ∨
        min message.1.length s.producer.config.slotSize + FRAME_HEADER_LEN < 2 ^ 32))
    ⟨fun h => ⟨h.1, h.2.1, h.2.2⟩, fun h => ⟨h.word, h.room, h.frames⟩⟩

instance : Decidable (s.Alive host) :=
  match hc : s.consumer with
  | none => decidable_of_iff (host.liveness s.producer.writer ≠ .gone) (by simp [Alive, hc])
  | some chan =>
      decidable_of_iff (host.liveness s.producer.writer ≠ .gone ∧ host.liveness chan.writer ≠ .gone)
        (by simp [Alive, hc])

/-- A condition on the plan of a message, where it has one. -/
instance decidablePlanned {len : ℕ} {p : SendPlan → Prop} [DecidablePred p] :
    Decidable (∀ plan, sendPlan config len = .ok plan → p plan) :=
  match h : sendPlan config len with
  | .ok plan => decidable_of_iff (p plan) (by simp)
  | .error _ => isTrue (by simp)

instance decidableAdmissible : (op : SpscOp) → Decidable (s.Admissible config op)
  | .send _ message => inferInstanceAs (Decidable
      (∀ plan, sendPlan config message.1.length = .ok plan → s.SendOk message plan))
  | .alloc _ _ => inferInstanceAs (Decidable (_ < _))
  | .openConsumer host | .recv host | .tryRecv host | .recvView host =>
      inferInstanceAs (Decidable (s.Alive host))
  | .reopenProducer _ => isFalse id
  | .write .. | .publish _ | .abort _ | .dropLease _ | .release _ | .dropView _ => isTrue trivial

/-- **What one call does**: it keeps the invariant, and moves the queue as
its kind can. -/
theorem Holds.step {op : SpscOp} (h : s.Holds config True q)
    (hdrop : config.backpressure ≠ .dropOldest) (hadm : s.Admissible config op) :
    ∃ q', Moves config s op q q' ∧ (s.step op).Holds config True q' := by
  cases op with
  | send host message => exact h.stepSend hdrop hadm
  | alloc host size => exact h.stepAlloc hadm
  | write k offset bytes => exact ⟨q, .idle, h.stepWrite⟩
  | publish k => exact h.stepPublish
  | abort k => exact h.stepAbort
  | dropLease k => exact ⟨q, .idle, h.dropLease⟩
  | openConsumer host => exact ⟨q, .idle, h.stepOpenConsumer (h.noneGone hadm)⟩
  | recv host => exact h.stepRecv (h.noneGone hadm)
  | tryRecv host => exact h.stepTryRecv (h.noneGone hadm)
  | recvView host => exact h.stepRecvView (h.noneGone hadm)
  | release k => exact ⟨q, .idle, h.stepRelease⟩
  | dropView k => exact ⟨q, .idle, h.stepDropView⟩
  | reopenProducer host => exact hadm.elim

/-- **A created region** stands for the empty queue. -/
theorem holds_start {w : World} (hw : create host config = .ok w)
    (hmode : config.multiProducer = false) : (start w).Holds config True ⟨0, [], [], []⟩ := by
  obtain ⟨hchan, hfits, hl, hhead, htail, hfloor⟩ := create_ok hw
  refine ⟨hmode, ⟨hfits, hl, ?_, ?_, by simp, .inl ⟨rfl, hfloor⟩⟩, trivial, ?_, nofun,
    fun _ _ => rfl, nofun, List.Pairwise.nil, nofun, rfl, rfl⟩
  · exact hhead.trans htail.symm
  · show w.region.tail + 0 < wordCount
    rw [htail]
    decide
  · show Produces config w.region ⟨0, [], [], []⟩ w.chan
    rw [hchan]
    refine ⟨rfl, rfl, rfl, hhead.symm, ?_, rfl⟩
    show 0 = (w.region.tail + 0) % w.region.capacity
    rw [htail, Nat.zero_mod]

end SpscState


end Dsline
