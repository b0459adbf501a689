import Dsline.Shm.SpscInv
/-!
# What a call does to the queue

Every call of the single-producer system leaves the queue, or moves it in
the one way its kind can (`Moves`): a send appends a message, `alloc` a
lease, `publish` turns a lease into a message where it stands, `abort` takes
the last lease back, and a receive takes the first message. The step lemmas
show that each call keeps the invariant and moves the queue so.
-/

namespace Dsline

open PersistentShmChannel World

variable [Checksum] {config : SpscConfig} {synced : Prop} {s : SpscState} {q : Queue}
  {host : Host}

/-- A call that can take the first message. -/
def SpscOp.receives : SpscOp → Bool
  | .recv _ | .tryRecv _ | .recvView _ => true
  | _ => false

/-- **What a call can do to the queue.** -/
inductive Moves (config : SpscConfig) (s : SpscState) : SpscOp → Queue → Queue → Prop where
  | idle {op : SpscOp} {q : Queue} : Moves config s op q q
  | push {host : Host} {message : Message} {plan : SendPlan} {datas : List Bytes}
      {out : Except Failure Bytes} {q : Queue}
      (plan_eq : sendPlan config message.1.length = .ok plan)
      (out_eq : FramesFit config message.1.length → out = .ok message.1) :
      Moves config s (.send host message) q
        { q with
          entries := q.entries ++ [.message s.producer.nextSeq datas out]
          accepted := q.accepted ++ [⟨s.producer.nextSeq, message.1⟩] }
  | claim {host : Host} {size : ℕ} {header : SlotHeader} {q : Queue} :
      Moves config s (.alloc host size) q { q with entries := q.entries ++ [.lease header] }
  | publish {k i : ℕ} {lease : ShmWriteLease} {header : SlotHeader} {data payload : Bytes}
      {out : Except Failure Bytes} {q : Queue} (lease_eq : s.leases[k]? = some lease)
      (unsealed : lease.isSealed = false)
      (place : LeaseAt config s.region q.entries lease i header)
      (out_eq : FRAME_HEADER_LEN + lease.payloadLen < 2 ^ 32 → out = .ok payload) :
      Moves config s (.publish k) q
        { q with
          entries := q.entries.set i (.message header.seq [data] out)
          accepted := q.accepted ++ [⟨header.seq, payload⟩] }
  | takeBack {k : ℕ} {entries : List Entry} {header : SlotHeader} {q : Queue}
      (entries_eq : q.entries = entries ++ [.lease header]) :
      Moves config s (.abort k) q { q with entries := entries }
  | deliver {op : SpscOp} {seq : UInt64} {datas : List Bytes} {payload : Bytes}
      {rest : List Entry} {q : Queue} (receives : op.receives = true)
      (entries_eq : q.entries = .message seq datas (.ok payload) :: rest) :
      Moves config s op q
        { q with base := q.base + 1, entries := rest, got := q.got ++ [⟨seq, payload⟩] }
  | skip {op : SpscOp} {seq : UInt64} {datas : List Bytes} {err : Failure}
      {rest : List Entry} {q : Queue} (receives : op.receives = true)
      (entries_eq : q.entries = .message seq datas (.error err) :: rest) :
      Moves config s op q { q with base := q.base + 1, entries := rest }

namespace SpscState

/-- The producer's guard, as the next send finds it. -/
def guard (s : SpscState) : PersistentShmChannel :=
  s.producer.withCursors s.region.head s.region.tail s.region.pinFloor

/-- The slots leased and not published. -/
def writing (s : SpscState) : ℕ :=
  (List.range s.region.capacity).countP fun index => s.region.state index = .writing

theorem Holds.writing (h : s.Holds config synced q) : s.writing = leasesOf q.entries := by
  rw [SpscState.writing,
    h.ring.layout.countP_state (fun state => decide (state = .writing)) rfl rfl]
  generalize q.entries = entries
  induction entries with
  | nil => rfl
  | cons entry entries ih =>
      rw [contentsOf_cons, List.countP_append, ih, leasesOf_cons, Nat.add_comm]
      congr 1
      cases entry with
      | message seq datas out =>
          simp [List.countP_map, Function.comp_def, Content.state]
      | lease header => simp [Content.state]

/-! ## Calls that leave the queue -/

/-- A producer call that changed nothing but its mirrors. -/
theorem Holds.producerIdle {w : World} (h : s.Holds config synced q) (hw : s.atProducer.Idle w) :
    (s.withProducer w).Holds config synced q := by
  rcases hw with rfl | ⟨depth, rfl⟩
  · exact h
  · exact { h with
      producer := ⟨h.producer.config, h.producer.closed, h.producer.bias, rfl, h.producer.head,
        h.producer.nextSeq⟩ }

/-- A consumer call that left the region and what the consumer expects. -/
theorem Holds.consumerIdle {chan chan' : PersistentShmChannel} (h : s.Holds config synced q)
    (hc : s.consumer = some chan) (hconf : chan'.config = chan.config)
    (hclosed : chan'.closed = chan.closed) (hwriter : chan'.writer = chan.writer)
    (hexp : synced → chan'.expectedRecvSeq = UInt64.ofNat q.base) :
    (s.withConsumer ⟨chan', s.region⟩).Holds config synced q :=
  { h with
    consumer := fun c hc' => by
      obtain rfl : chan' = c := Option.some.inj hc'
      have hcons := h.consumer chan hc
      exact ⟨hconf.trans hcons.config, hclosed.trans hcons.closed, hexp⟩
    views := fun v hv => by
      have hview := h.views v hv
      obtain ⟨c, hc', howner⟩ := hview.owner
      obtain rfl : chan = c := Option.some.inj (hc.symm.trans hc')
      exact ⟨hview.live, hview.index, chan', rfl, fun identity hid =>
        (howner identity hid).trans hwriter.symm⟩
    unread := fun _ hnone => by cases hnone }

/-! ## Send -/

/-- What a send needs of the state: the slots it takes are counted in a
word, a message the guard admits finds them FREE, and a chunked message's
frames keep their length. -/
structure SendOk (s : SpscState) (message : Message) (plan : SendPlan) : Prop where
  word : s.region.head + s.writing + plan.neededSlots < wordCount
  room : s.guard.admits plan.neededSlots →
    plan.neededSlots + s.writing ≤ s.producer.config.capacity - s.guard.guardLen
  frames : message.1.length ≤ s.producer.config.slotSize ∨
    FramesFit s.producer.config message.1.length

variable (host) in
/-- **A message that finds its room is appended.** The room was made, or
found, from the world `w₀` on. -/
theorem Holds.push {message : Message} {plan : SendPlan} {w₀ : World}
    (h : s.Holds config synced q) (hplan : sendPlan config message.1.length = .ok plan)
    (hword : s.region.head + s.writing + plan.neededSlots < wordCount)
    (hframes : message.1.length ≤ config.slotSize ∨ FramesFit config message.1.length)
    (hroom : (contentsOf q.entries).length + plan.neededSlots ≤ s.region.capacity)
    (hpins : ∀ p ∈ s.views.map LiveView.pin,
      s.region.tail + (contentsOf q.entries).length + plan.neededSlots ≤
        p.cursor + s.region.capacity)
    (hprep : prepareSendSlots host plan.neededSlots w₀ = .ok true s.atProducer) :
    ∃ w datas out, sendSpsc host message.1 plan w₀ = .ok () w ∧
      w.region.head = s.region.head + plan.neededSlots ∧
      datas = (messageFrames plan s.producer.nextSeq message.1).map stored ∧
      (out = .ok message.1 ↔ FramesFit config message.1.length) ∧
      ({ s.withProducer w with
          accepted := s.accepted ++ [⟨s.producer.nextSeq, message.1⟩] } : SpscState).Holds
        config synced
        { q with
          entries := q.entries ++ [.message s.producer.nextSeq datas out]
          accepted := q.accepted ++ [⟨s.producer.nextSeq, message.1⟩] } := by
  have hs := h.producer_sound
  have hconf := h.producer.config
  have hfits := h.ring.fits
  have hwriting := h.writing
  have hlen := length_contentsOf q.entries
  have hhead := h.ring.head
  obtain ⟨w, hrun, hl, hsent⟩ := sendSpsc_ok host (w := s.atProducer) hs.capacity
    hfits.pos h.producer.mirror (hconf ▸ hplan) (hconf ▸ hfits.capacity_lt) message.2
    (hconf ▸ hfits.frameCapacity) hprep h.ring.layout h.producer.head hroom hpins
  obtain ⟨out, hdel, hstuck, hout⟩ := exists_delivers s.producer.nextSeq hplan
    hfits.capacity_lt message.2 hframes
  have hcontents : contentsOf (q.entries ++ [.message s.producer.nextSeq
      ((messageFrames plan s.producer.nextSeq message.1).map stored) out]) =
        contentsOf q.entries ++ framesContents s.producer.nextSeq
          (messageFrames plan s.producer.nextSeq message.1) := by
    rw [contentsOf_append, contentsOf_cons, contents_message, List.map_map]
    exact congrArg _ (List.append_nil _)
  have hn : (messageFrames plan s.producer.nextSeq message.1).length = plan.neededSlots :=
    length_messageFrames _ hplan
  have hw := hsent.words
  simp only [atProducer] at hw
  refine ⟨w, _, out, hrun, hw.head, rfl, hout, h.mode, ?_, ?_, ?_, ?_, h.unread, ?_, h.distinct, ?_,
    ?_, h.got⟩
  · refine ⟨hfits.words hw, hcontents ▸ hl, ?_, ?_, ?_, ?_⟩
    · show w.region.head = w.region.tail + _
      rw [hw.head, hw.tail, publishedOf_append _ _, hhead]
      simp [publishedOf, hn, Nat.add_assoc]
    · show w.region.tail + _ < _
      rw [hw.tail, hcontents, List.length_append, List.length_map, hn]
      omega
    · intro entry he
      show entry.Good w.chan.writer
      rw [show w.chan.writer = s.producer.writer from hsent.writer]
      rcases List.mem_append.1 he with he | he
      · exact h.ring.good entry he
      · obtain rfl := List.mem_singleton.1 he
        exact ⟨hdel, hstuck⟩
    · show FloorOf _ w.region.pinFloor
      rw [hw.pinFloor]
      exact h.ring.floor
  · exact numbered_append.2 ⟨h.numbered, h.producer.nextSeq, trivial⟩
  · refine ⟨hsent.config.trans hconf, hsent.closed.trans h.producer.closed,
      hsent.bias.trans h.producer.bias, hsent.mirror.trans hw.head.symm, ?_, ?_⟩
    · show w.chan.head = (w.region.tail + _) % w.region.capacity
      rw [hsent.head, hw.tail, hw.capacity, hcontents, List.length_append, List.length_map, hn]
      simp only [atProducer, h.producer.head, Layout.at', Nat.mod_add_mod, Nat.add_assoc]
    · show w.chan.nextSeq = UInt64.ofNat (q.base + (q.entries ++ [_]).length)
      rw [hsent.nextSeq]
      simp only [atProducer, h.producer.nextSeq, List.length_append, List.length_singleton]
      exact (ofNat_succ _).symm
  · intro chan hc
    exact h.consumer chan hc
  · intro lease hm hsealed
    obtain ⟨i, header, hat⟩ := h.leases lease hm hsealed
    have hi := (List.getElem?_eq_some_iff.1 hat.entry).1
    refine ⟨i, header, hat.transfer ?_ hw.capacity ?_⟩
    · rw [List.getElem?_append_left hi]
      exact hat.entry
    · show w.region.tail + _ = _
      rw [hw.tail, offsetOf_append (Nat.le_of_lt hi)]
  · exact fun v hv => (h.views v hv).transfer hw.capacity
  · show s.accepted ++ _ = q.accepted ++ _
    rw [h.accepted]

variable (host) in
/-- A message the guard admits is appended. -/
theorem Holds.send_admitted {message : Message} {plan : SendPlan} (h : s.Holds config synced q)
    (hplan : sendPlan config message.1.length = .ok plan) (hok : s.SendOk message plan)
    (hadm : s.guard.admits plan.neededSlots) :
    ∃ w datas out, PersistentShmChannel.send host message.1 s.atProducer = .ok () w ∧
      w.region.head = s.region.head + plan.neededSlots ∧
      datas = (messageFrames plan s.producer.nextSeq message.1).map stored ∧
      (out = .ok message.1 ↔ FramesFit config message.1.length) ∧
      ({ s.withProducer w with
          accepted := s.accepted ++ [⟨s.producer.nextSeq, message.1⟩] } : SpscState).Holds
        config synced
        { q with
          entries := q.entries ++ [.message s.producer.nextSeq datas out]
          accepted := q.accepted ++ [⟨s.producer.nextSeq, message.1⟩] } := by
  have hs := h.producer_sound
  have hconf := h.producer.config
  have hwriting := h.writing
  have hlen := length_contentsOf q.entries
  have hhead := h.ring.head
  have hroom := room_of_admits (d := s.region.head - s.region.tail) hs h.producer.bias
    h.ring.floor (fun p hp => (h.ring.layout.bound p hp).2) (hok.room hadm)
    (Nat.lt_of_lt_of_le (neededSlots_pos hplan) (Nat.le_add_right _ _))
  simp only [atProducer] at hroom
  have h' := h.producerIdle (w := s.atProducer.refreshed (s.region.head - s.region.tail))
    (.inr ⟨_, rfl⟩)
  have hfit : plan.neededSlots ≤ s.producer.config.capacity :=
    neededSlots_le (hs.capacity ▸ hs.pos) (hconf ▸ hplan)
  obtain ⟨w, datas, out, hrun, hrest⟩ := h'.push host hplan hok.word (hconf ▸ hok.frames)
    (by simp only [withProducer, refreshed, atProducer]; omega)
    (fun p hp => by
      have := hroom.2 p hp
      simp only [withProducer, refreshed, atProducer]
      omega)
    (prepareSendSlots_admitted (w := s.atProducer.refreshed (s.region.head - s.region.tail)) hfit
      hadm)
  refine ⟨w, datas, out, ?_, hrest⟩
  rw [send_start hs (hconf ▸ h.mode), show s.atProducer.chan.config = config from hconf, hplan]
  exact hrun

/-- A send that left the region is not an accepted one. -/
theorem stepSend_of_idle {message : Message}
    (hw : s.atProducer.Idle
      (Effect.final (PersistentShmChannel.send host message.1 s.atProducer))) :
    s.stepSend host message =
      s.withProducer (Effect.final (PersistentShmChannel.send host message.1 s.atProducer)) := by
  have hregion : (Effect.final
      (PersistentShmChannel.send host message.1 s.atProducer)).region = s.region := by
    rcases hw with hw | ⟨depth, hw⟩ <;> rw [hw] <;> rfl
  simp only [stepSend, hregion, ne_eq, not_true_eq_false, if_false]
  rfl

theorem Holds.stepSend_idle {message : Message} (h : s.Holds config synced q)
    (hw : s.atProducer.Idle
      (Effect.final (PersistentShmChannel.send host message.1 s.atProducer))) :
    (s.stepSend host message).Holds config synced q := by
  rw [stepSend_of_idle hw]
  exact h.producerIdle hw

/-- A send whose message was appended is an accepted one. -/
theorem stepSend_of_pushed {message : Message} {w : World}
    (hrun : PersistentShmChannel.send host message.1 s.atProducer = .ok () w)
    (hhead : w.region.head ≠ s.region.head) :
    s.stepSend host message =
      { s.withProducer w with
        accepted := s.accepted ++ [⟨s.producer.nextSeq, message.1⟩] } := by
  simp only [SpscState.stepSend, hrun, Effect.final_ok]
  rw [if_pos hhead]

/-- A message that has no plan leaves the queue. -/
theorem Holds.stepSend_unplanned {message : Message} {err : Failure} (h : s.Holds config synced q)
    (hplan : sendPlan config message.1.length = .error err) :
    (s.stepSend host message).Holds config synced q := by
  have hconf := h.producer.config
  refine h.stepSend_idle (.inr ⟨s.region.head - s.region.tail, ?_⟩)
  rw [send_unplanned _ h.producer_sound (hconf ▸ h.mode) (hconf ▸ hplan)]
  rfl

/-- A message the guard does not admit leaves the queue. -/
theorem Holds.stepSend_full {message : Message} {plan : SendPlan} (h : s.Holds config synced q)
    (hdrop : config.backpressure ≠ .dropOldest)
    (hplan : sendPlan config message.1.length = .ok plan)
    (hadm : ¬ s.guard.admits plan.neededSlots) :
    (s.stepSend host message).Holds config synced q := by
  have hconf := h.producer.config
  refine h.stepSend_idle (.inr ⟨s.region.head - s.region.tail, ?_⟩)
  rw [send_rejected h.producer_sound (hconf ▸ h.mode) (hconf ▸ hplan) hadm (hconf ▸ hdrop)]
  cases turnedAway s.atProducer.chan.config.backpressure <;> rfl

/-- **A send appends its message, or leaves the queue.** -/
theorem Holds.stepSend {message : Message} (h : s.Holds config synced q)
    (hdrop : config.backpressure ≠ .dropOldest)
    (hok : ∀ plan, sendPlan config message.1.length = .ok plan → s.SendOk message plan) :
    ∃ q', Moves config s (.send host message) q q' ∧
      (s.stepSend host message).Holds config synced q' := by
  cases hplan : sendPlan config message.1.length with
  | error err =>
      exact ⟨q, .idle, h.stepSend_unplanned hplan⟩
  | ok plan =>
      by_cases hadm : s.guard.admits plan.neededSlots
      · obtain ⟨w, datas, out, hrun, hhead, -, hout, hnext⟩ :=
          h.send_admitted host hplan (hok plan hplan) hadm
        have hpos := neededSlots_pos hplan
        rw [← stepSend_of_pushed hrun (by omega)] at hnext
        exact ⟨_, .push hplan hout.2, hnext⟩
      · exact ⟨q, .idle, h.stepSend_full hdrop hplan hadm⟩

/-! ## Leases -/

/-- **`alloc` appends a lease, or leaves the queue.** -/
theorem Holds.stepAlloc {size : ℕ} (h : s.Holds config synced q)
    (hword : s.region.head + s.writing + 1 < wordCount) :
    ∃ q', Moves config s (.alloc host size) q q' ∧
      (s.stepAlloc host size).Holds config synced q' := by
  have hs := h.producer_sound
  have hwriting := h.writing
  have hlen := length_contentsOf q.entries
  have hhead := h.ring.head
  rcases alloc_cases host size hs h.ring.layout contentsOf_busy
    h.producer.head with ⟨err, w, hrun, hw⟩ | ⟨hsize, hlt, w, hrun, hl, hsent⟩
  · refine ⟨q, .idle, ?_⟩
    simp only [SpscState.stepAlloc, hrun]
    exact h.producerIdle hw
  refine ⟨{ q with entries := q.entries ++ [.lease (leaseHeader host s.producer size)] }, .claim,
    ?_⟩
  simp only [SpscState.stepAlloc, hrun]
  have hw := hsent.words
  have hcap : s.region.capacity < 2 ^ 64 := h.ring.fits.capacity ▸ h.ring.fits.capacity_lt
  have hle := length_le_contentsOf _ h.ring.good
  have hfits := h.ring.layout.fits
  simp only [atProducer, Nat.add_zero] at hw hlt hsize
  have hcontents : contentsOf (q.entries ++ [.lease (leaseHeader host s.producer size)]) =
      contentsOf q.entries ++ [.writing (leaseHeader host s.producer size)] := by
    rw [contentsOf_append]
    rfl
  have hseq : (leaseHeader host s.producer size).seq =
      UInt64.ofNat (q.base + q.entries.length) := h.producer.nextSeq
  refine ⟨h.mode, ?_, ?_, ?_, h.consumer, h.unread, ?_, ?_, ?_, h.accepted, h.got⟩
  · refine ⟨h.ring.fits.words hw, hcontents ▸ hl, ?_, ?_, ?_, ?_⟩
    · show w.region.head = w.region.tail + _
      rw [hw.head, hw.tail, publishedOf_append _ _, hhead]
      rfl
    · show w.region.tail + _ < _
      rw [hw.tail, hcontents, List.length_append, List.length_singleton]
      omega
    · intro entry he
      show entry.Good w.chan.writer
      rw [show w.chan.writer = s.producer.writer from hsent.writer]
      rcases List.mem_append.1 he with he | he
      · exact h.ring.good entry he
      · obtain rfl := List.mem_singleton.1 he
        exact ⟨rfl, fun identity hid => process_leaseHeader hid⟩
    · show FloorOf _ w.region.pinFloor
      rw [hw.pinFloor]
      exact h.ring.floor
  · exact numbered_append.2 ⟨h.numbered, hseq, trivial⟩
  · refine ⟨hsent.config.trans h.producer.config, hsent.closed.trans h.producer.closed,
      hsent.bias.trans h.producer.bias, hsent.mirror.trans hw.head.symm, ?_, ?_⟩
    · show w.chan.head = (w.region.tail + _) % w.region.capacity
      rw [hsent.head, hw.tail, hw.capacity, hcontents, List.length_append, List.length_singleton]
      simp only [atProducer, h.producer.head, Layout.at', Nat.mod_add_mod, Nat.add_assoc]
    · show w.chan.nextSeq = UInt64.ofNat (q.base + (q.entries ++ [_]).length)
      rw [hsent.nextSeq]
      simp only [atProducer, h.producer.nextSeq, List.length_append, List.length_singleton]
      exact (ofNat_succ _).symm
  · intro lease hm hsealed
    rcases List.mem_append.1 hm with hm | hm
    · obtain ⟨i, header, hat⟩ := h.leases lease hm hsealed
      have hi := (List.getElem?_eq_some_iff.1 hat.entry).1
      refine ⟨i, header, hat.transfer ?_ hw.capacity ?_⟩
      · rw [List.getElem?_append_left hi]
        exact hat.entry
      · show w.region.tail + _ = _
        rw [hw.tail, offsetOf_append (Nat.le_of_lt hi)]
    · obtain rfl := List.mem_singleton.1 hm
      refine ⟨q.entries.length, leaseHeader host s.producer size, ?_, rfl, ?_, ?_⟩
      · rw [List.getElem?_append_right (Nat.le_refl _), Nat.sub_self]
        rfl
      · show s.producer.head = (w.region.tail + _) % w.region.capacity
        rw [offsetOf_append (Nat.le_refl _), offsetOf_length, hw.tail, hw.capacity]
        exact h.producer.head
      · exact h.producer.config ▸ hsize
  · refine List.pairwise_append.2 ⟨h.distinct, List.pairwise_singleton _ _, ?_⟩
    intro a ha b hb hsealed _
    obtain rfl := List.mem_singleton.1 hb
    obtain ⟨i, header, hat⟩ := h.leases a ha hsealed
    have hi := (List.getElem?_eq_some_iff.1 hat.entry).1
    have hnum := numbered_getElem h.numbered hat.entry
    rw [← hat.seq]
    show header.seq ≠ s.producer.nextSeq
    rw [h.producer.nextSeq, show header.seq = _ from hnum]
    exact ofNat_ne (by omega) (by omega)
  · exact fun v hv => (h.views v hv).transfer hw.capacity

/-- A region rewritten in place, with the same contents and words. -/
theorem Holds.rewritten {region : Region} (h : s.Holds config synced q)
    (hl : Layout region (contentsOf q.entries) (s.views.map LiveView.pin))
    (hw : s.region.Words s.region.head s.region.tail s.region.pinFloor region) :
    ({ s with region } : SpscState).Holds config synced q := by
  refine ⟨h.mode, ⟨h.ring.fits.words hw, hl, ?_, ?_, h.ring.good, ?_⟩, h.numbered, ?_, h.consumer,
    h.unread, ?_, h.distinct, ?_, h.accepted, h.got⟩
  · show region.head = region.tail + _
    rw [hw.head, hw.tail]
    exact h.ring.head
  · show region.tail + _ < _
    rw [hw.tail]
    exact h.ring.word
  · show FloorOf _ region.pinFloor
    rw [hw.pinFloor]
    exact h.ring.floor
  · refine ⟨h.producer.config, h.producer.closed, h.producer.bias,
      h.producer.mirror.trans hw.head.symm, ?_, h.producer.nextSeq⟩
    show s.producer.head = (region.tail + _) % region.capacity
    rw [hw.tail, hw.capacity]
    exact h.producer.head
  · intro lease hm hsealed
    obtain ⟨i, header, hat⟩ := h.leases lease hm hsealed
    exact ⟨i, header, hat.transfer hat.entry hw.capacity (congrArg (· + _) hw.tail)⟩
  · exact fun v hv => (h.views v hv).transfer hw.capacity

/-- **A write through a lease leaves the queue.** -/
theorem Holds.stepWrite {k offset : ℕ} {bytes : Bytes} (h : s.Holds config synced q) :
    (s.stepWrite k offset bytes).Holds config synced q := by
  rw [SpscState.stepWrite]
  cases hk : s.leases[k]? with
  | none => exact h
  | some lease =>
      simp only
      rcases write_cases s.region lease offset bytes with hsame | ⟨hsealed, hwrite⟩
      · rw [hsame]
        exact h
      · obtain ⟨i, header, hat⟩ := h.leases lease (List.mem_of_getElem? hk) hsealed
        rw [hwrite, hat.index]
        exact h.rewritten (write_layout h.ring.layout (getElem?_contentsOf hat.entry))
          ⟨rfl, rfl, rfl, rfl, rfl, rfl, rfl⟩

/-- Two unsealed leases are two sequences. -/
theorem Holds.lease_ne {a b : ShmWriteLease} {j k : ℕ} (h : s.Holds config synced q)
    (ha : s.leases[j]? = some a) (hb : s.leases[k]? = some b) (hne : j ≠ k)
    (hua : a.isSealed = false) (hub : b.isSealed = false) : a.seq ≠ b.seq := by
  obtain ⟨hj, rfl⟩ := List.getElem?_eq_some_iff.1 ha
  obtain ⟨hk, rfl⟩ := List.getElem?_eq_some_iff.1 hb
  have hpair := List.pairwise_iff_getElem.1 h.distinct
  rcases Nat.lt_or_gt_of_ne hne with hlt | hlt
  · exact hpair j k hj hk hlt hua hub
  · exact (hpair k j hk hj hlt hub hua).symm

section Publish

variable {i k : ℕ} {lease : ShmWriteLease} {header : SlotHeader} {data : Bytes}
  {out : Except Failure Bytes} {region : Region}

variable (data out) in
omit [Checksum] in
/-- A message where a lease stood lies where the lease lay. -/
theorem contentsOf_publish {entries : List Entry} (hat : entries[i]? = some (.lease header)) :
    contentsOf (entries.set i (.message header.seq [data] out)) =
        (contentsOf entries).set (offsetOf entries i) (.committed ⟨header.seq, data⟩) ∧
      ∀ j, offsetOf (entries.set i (.message header.seq [data] out)) j = offsetOf entries j := by
  refine ⟨contentsOf_set hat rfl, fun j => offsetOf_set fun old ho => ?_⟩
  rw [hat] at ho
  cases ho
  rfl

variable (data out) in
omit [Checksum] in
/-- It is one lease less. -/
theorem leasesOf_publish {entries : List Entry} (hat : entries[i]? = some (.lease header)) :
    leasesOf (entries.set i (.message header.seq [data] out)) + 1 = leasesOf entries := by
  obtain ⟨hi, hget⟩ := List.getElem?_eq_some_iff.1 hat
  have hcount : 0 < leasesOf entries := List.countP_pos_iff.2
    ⟨_, List.mem_of_getElem? hat, rfl⟩
  rw [leasesOf, leasesOf, List.countP_set hi, hget, isLease_lease, isLease_message]
  simp only [if_true, Bool.false_eq_true, if_false, Nat.add_zero]
  exact Nat.sub_add_cancel hcount

/-- The ring with a lease published. -/
theorem Holds.ring_publish (h : s.Holds config synced q)
    (hat : q.entries[i]? = some (.lease header))
    (hgood : (Entry.message header.seq [data] out).Good s.producer.writer)
    (hl : Layout region ((contentsOf q.entries).set (offsetOf q.entries i)
      (.committed ⟨header.seq, data⟩)) (s.views.map LiveView.pin))
    (hw : s.region.Words (s.region.head + 1) s.region.tail s.region.pinFloor region) :
    Ring config s.producer.writer region (q.entries.set i (.message header.seq [data] out))
      (s.views.map LiveView.pin) := by
  obtain ⟨hset, -⟩ := contentsOf_publish data out hat
  refine ⟨h.ring.fits.words hw, hset ▸ hl, ?_, ?_, fun entry he => ?_, ?_⟩
  · have hlen := length_contentsOf q.entries
    have hlen' := length_contentsOf (q.entries.set i (.message header.seq [data] out))
    have hcount := leasesOf_publish data out hat
    have hhead := h.ring.head
    rw [hset, List.length_set] at hlen'
    rw [hw.head, hw.tail]
    omega
  · rw [hw.tail, hset, List.length_set]
    exact h.ring.word
  · rcases List.mem_or_eq_of_mem_set he with he | rfl
    · exact h.ring.good entry he
    · exact hgood
  · rw [hw.pinFloor]
    exact h.ring.floor

/-- The other leases stay where they are. -/
theorem Holds.leases_publish (h : s.Holds config synced q) (hk : s.leases[k]? = some lease)
    (hsealed : lease.isSealed = false) (hat : LeaseAt config s.region q.entries lease i header)
    (hcap : region.capacity = s.region.capacity) (htail : region.tail = s.region.tail)
    {other : ShmWriteLease} (hm : other ∈ s.leases.set k { lease with isSealed := true })
    (hu : other.isSealed = false) :
    ∃ i' header', LeaseAt config region (q.entries.set i (.message header.seq [data] out)) other
      i' header' := by
  obtain ⟨j, hj⟩ := List.getElem?_of_mem hm
  rw [List.getElem?_set] at hj
  split at hj
  · split at hj
    · cases hj
      cases hu
    · cases hj
  · rename_i hne
    obtain ⟨i', header', hat'⟩ := h.leases other (List.mem_of_getElem? hj) hu
    have hseq := h.lease_ne hk hj hne hsealed hu
    have hii : i ≠ i' := fun he => hseq (by
      have hsame := hat'.entry
      rw [← he, hat.entry] at hsame
      cases hsame
      rw [← hat.seq, ← hat'.seq])
    refine ⟨i', header', hat'.transfer ?_ hcap ?_⟩
    · rw [List.getElem?_set_ne hii]
      exact hat'.entry
    · rw [(contentsOf_publish _ _ hat.entry).2, htail]

/-- Sealing a lease leaves the sequences of the others distinct. -/
theorem Holds.distinct_publish (h : s.Holds config synced q) :
    (s.leases.set k { lease with isSealed := true }).Pairwise
      fun a b => a.isSealed = false → b.isSealed = false → a.seq ≠ b.seq := by
  rw [List.pairwise_iff_getElem]
  intro a b ha hb hab hua hub
  simp only [List.getElem_set] at hua hub ⊢
  rw [List.length_set] at ha hb
  split at hua
  · cases hua
  split at hub
  · cases hub
  rename_i h1 h2
  rw [if_neg h1, if_neg h2]
  exact List.pairwise_iff_getElem.1 h.distinct a b ha hb hab hua hub

/-- **`publish` turns a lease into a message where it stands.** -/
theorem Holds.stepPublish (h : s.Holds config synced q) :
    ∃ q', Moves config s (.publish k) q q' ∧ (s.stepPublish k).Holds config synced q' := by
  rw [SpscState.stepPublish]
  cases hk : s.leases[k]? with
  | none => exact ⟨q, .idle, h⟩
  | some lease =>
  simp only
  cases hsealed : lease.isSealed with
  | true =>
      obtain ⟨err, hrun⟩ := publish_refused lease (w := s.atProducer)
        h.producer.closed (.inl hsealed)
      rw [hrun]
      exact ⟨q, .idle, h⟩
  | false =>
  obtain ⟨i, header, hat⟩ := h.leases lease (List.mem_of_getElem? hk) hsealed
  have hfits := h.ring.fits
  have hslot := hfits.slotSize_le
  have hle := hat.fits
  have hlen := length_contentsOf q.entries
  have hcount : 0 < leasesOf q.entries := List.countP_pos_iff.2
    ⟨_, List.mem_of_getElem? hat.entry, rfl⟩
  have hword := h.ring.word
  have hhead := h.ring.head
  have hpay : lease.payloadLen ≤ isizeMax := by
    simp only [FRAME_HEADER_LEN] at hslot
    omega
  obtain ⟨region, hrun, hl, hw⟩ := publish_ok lease (w := s.atProducer)
    h.producer.closed hsealed h.ring.layout (getElem?_contentsOf hat.entry) hat.index
    (by simp only [atProducer, hfits.frameCapacity]; omega)
    (Nat.lt_of_le_of_lt hpay (by decide)) h.producer.mirror (by simp only [atProducer]; omega)
  obtain ⟨out, hdel, hstuck, hout⟩ := delivers_stored_single lease.seq
    (leasePayload s.region lease) (by rw [leasePayload, Area.length_read]; exact hpay)
  simp only [atProducer] at hw hl
  rw [← hat.seq] at hdel hl
  rw [hrun]
  obtain ⟨hset, -⟩ := contentsOf_publish
    (stored (frameBytes 0 header.seq [] (leasePayload s.region lease))) out hat.entry
  refine ⟨_, .publish hk hsealed hat fun hlt => hout.2 ?_, h.mode,
    h.ring_publish hat.entry ⟨hdel, hstuck⟩ hl hw, ?_, ?_, h.consumer, h.unread,
    fun other hm hu => h.leases_publish hk hsealed hat hw.capacity hw.tail hm hu,
    h.distinct_publish, fun v hv => (h.views v hv).transfer hw.capacity, ?_, h.got⟩
  · rw [length_frameBytes, leasePayload, Area.length_read]
    exact hlt
  · refine numbered_set h.numbered fun old ho => ?_
    rw [hat.entry] at ho
    cases ho
    rfl
  · refine ⟨h.producer.config, h.producer.closed, h.producer.bias, hw.head.symm, ?_, ?_⟩
    · show s.producer.head = (region.tail + _) % region.capacity
      rw [hw.tail, hw.capacity, hset, List.length_set]
      exact h.producer.head
    · show s.producer.nextSeq = UInt64.ofNat (q.base + _)
      rw [List.length_set]
      exact h.producer.nextSeq
  · show s.accepted ++ _ = q.accepted ++ _
    rw [h.accepted, hat.seq]
    rfl

end Publish

/-- A lease that goes out of its owner's hands is in nobody's. -/
theorem Holds.dropLease {k : ℕ} (h : s.Holds config synced q) :
    ({ s with leases := s.leases.eraseIdx k } : SpscState).Holds config synced q :=
  { h with
    leases := fun lease hm => h.leases lease (List.mem_of_mem_eraseIdx hm)
    distinct := h.distinct.sublist (List.eraseIdx_sublist _ _) }

/-- The slot `abort` asks for is the last entry's, where it is a lease's. -/
theorem Holds.last_lease {lease : ShmWriteLease} {i : ℕ} {header : SlotHeader}
    (h : s.Holds config synced q) (hat : LeaseAt config s.region q.entries lease i header)
    (hlast : lease.index = (s.producer.head + s.producer.config.capacity - 1) %
      s.producer.config.capacity) : q.entries = q.entries.take i ++ [.lease header] := by
  have hpos := h.ring.fits.pos
  have hfits := h.ring.layout.fits
  obtain ⟨hi, hget⟩ := List.getElem?_eq_some_iff.1 hat.entry
  have hk := (List.getElem?_eq_some_iff.1 (getElem?_contentsOf hat.entry)).1
  have hidx := hat.index
  rw [hlast, h.producer.head, h.producer.config, ← h.ring.fits.capacity, Layout.at', Layout.at',
    Window.mod_pred_mod hpos (by omega)] at hidx
  have heq := Window.eq_of_mod_eq (t := s.region.tail) (by omega) (by omega) (by omega) (by omega)
    hidx
  have hsplit : q.entries = q.entries.take i ++ .lease header :: q.entries.drop (i + 1) := by
    rw [← hget, ← List.drop_eq_getElem_cons hi, List.take_append_drop]
  have hrest : q.entries.drop (i + 1) = [] := by
    have hlen := congrArg (fun es => (contentsOf es).length) hsplit
    simp only [contentsOf_append, contentsOf_cons, contents_lease, List.length_append,
      List.length_singleton] at hlen
    have hle := length_le_contentsOf (q.entries.drop (i + 1)) fun e he =>
      h.ring.good e (List.mem_of_mem_drop he)
    rw [offsetOf] at heq hk
    exact List.eq_nil_of_length_eq_zero (by omega)
  rwa [hrest] at hsplit

/-- **`abort` takes the last lease back, or leaves the queue.** -/
theorem Holds.stepAbort {k : ℕ} (h : s.Holds config synced q) :
    ∃ q', Moves config s (.abort k) q q' ∧ (s.stepAbort k).Holds config synced q' := by
  rw [SpscState.stepAbort]
  cases hk : s.leases[k]? with
  | none => exact ⟨q, .idle, h⟩
  | some lease =>
  simp only
  rcases abort_cases lease (w := s.atProducer) with
    ⟨err, hrun⟩ | ⟨hsealed, hlast, hrun⟩
  · rw [hrun]
    exact ⟨q, .idle, h.dropLease⟩
  obtain ⟨i, header, hat⟩ := h.leases lease (List.mem_of_getElem? hk) hsealed
  have hentries := h.last_lease hat hlast
  have hi : (q.entries.take i).length = i :=
    List.length_take_of_le (Nat.le_of_lt (List.getElem?_eq_some_iff.1 hat.entry).1)
  rw [hrun]
  refine ⟨_, .takeBack hentries, ?_⟩
  have hcontents : contentsOf q.entries =
      contentsOf (q.entries.take i) ++ [.writing header] := by
    conv_lhs => rw [hentries]
    rw [contentsOf_append]
    rfl
  have hidx : lease.index = Layout.at' s.region (contentsOf (q.entries.take i)).length := hat.index
  have hl := h.ring.layout
  rw [hcontents] at hl
  have hword := h.ring.word
  rw [hcontents, List.length_append, List.length_singleton] at hword
  have hpub : publishedOf q.entries = publishedOf (q.entries.take i) := by
    conv_lhs => rw [hentries]
    rw [publishedOf_append _ _]
    rfl
  have hnum := h.numbered
  rw [hentries, numbered_append] at hnum
  refine ⟨h.mode, ?_, hnum.1, ?_, h.consumer, h.unread, ?_, ?_,
    fun v hv => (h.views v hv).transfer rfl, h.accepted, h.got⟩
  · refine ⟨h.ring.fits.words ⟨rfl, rfl, rfl, rfl, rfl, rfl, rfl⟩, ?_, ?_, ?_, ?_, h.ring.floor⟩
    · show Layout (s.region.forceRelease lease.index) _ _
      rw [hidx]
      exact abort_layout hl
    · exact h.ring.head.trans (congrArg _ hpub)
    · exact Nat.lt_of_succ_lt hword
    · exact fun entry he => h.ring.good entry (List.mem_of_mem_take he)
  · refine ⟨h.producer.config, h.producer.closed, h.producer.bias, h.producer.mirror, hidx, ?_⟩
    show lease.seq = UInt64.ofNat (q.base + (q.entries.take i).length)
    rw [hi, ← hat.seq]
    exact numbered_getElem h.numbered hat.entry
  · intro other hm hu
    obtain ⟨j, hjk, hj⟩ := List.mem_eraseIdx_iff_getElem?.1 hm
    obtain ⟨i', header', hat'⟩ := h.leases other (List.mem_of_getElem? hj) hu
    have hseq := h.lease_ne hj hk hjk hu hsealed
    have hlt := (List.getElem?_eq_some_iff.1 hat'.entry).1
    have hne : i' ≠ i := fun he => hseq (by
      have hsame := hat'.entry
      rw [he, hat.entry] at hsame
      cases hsame
      rw [← hat.seq, ← hat'.seq])
    have hle : i' < i := by
      rw [hentries, List.length_append, hi, List.length_singleton] at hlt
      omega
    refine ⟨i', header', hat'.transfer ?_ rfl ?_⟩
    · rw [List.getElem?_take_of_lt hle]
      exact hat'.entry
    · show s.region.tail + _ = _
      rw [offsetOf, offsetOf, List.take_take, Nat.min_eq_left (Nat.le_of_lt hle)]
  · exact h.distinct.sublist (List.eraseIdx_sublist _ _)

end SpscState

end Dsline
