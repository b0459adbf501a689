import Dsline.Library.Eviction
import Dsline.Shm.SpscReceive
/-!
# What dropping does

`drop_oldest_message` consumes the slots of the first message, and the loop
of a `DropOldest` send drops messages until the new one fits: what stays is
the longest suffix of the queue that leaves it room
(`Holds.dropUntilAdmitted`).
-/

namespace Dsline

open PersistentShmChannel World Eviction

/-! ## One message -/

section Drop

variable {w : World} {host : Host} {n : ℕ} {snapshot : SlotSnapshot} {frame : Frame}

theorem consume_consumed : (w.consume).consumed n = w.consumed (n + 1) := by
  induction n with
  | zero => rfl
  | succ n ih => exact congrArg World.consume ih

/-- Dropping slots consumes them. -/
theorem dropSlots_ok : dropSlots n w = .ok () (w.consumed n) := by
  induction n generalizing w with
  | zero => rfl
  | succ n ih =>
      rw [← consume_consumed]
      exact ih (w := w.consume)

theorem consumed_len : (w.consumed n).chan.len = w.chan.len - n := by
  induction n with
  | zero => rfl
  | succ n ih => exact (congrArg (· - 1) ih).trans (Nat.sub_sub _ _ _)

theorem consumed_bias (h : w.chan.recoveryBias = 0) : (w.consumed n).chan.recoveryBias = 0 := by
  induction n with
  | zero => exact h
  | succ n ih =>
      show (if _ then (w.consumed n).chan.recoveryBias - 1
        else (w.consumed n).chan.recoveryBias) = 0
      rw [ih]
      split <;> rfl

/-- The world a handle leaves that dropped a message of `n` slots. -/
def World.dropped (w : World) (n : ℕ) : World :=
  (w.consumed n).counted ((w.consumed n).chan.expectedRecvSeq + 1)
    (w.consumed n).chan.lastReceivedSeq

variable (host) in
/-- **Dropping the first message** consumes its slots and counts it. -/
theorem dropOldestMessage_ok (hmode : w.chan.config.multiProducer = false) (hlen : w.chan.len ≠ 0)
    (hshow : w.region.Shows w.chan.tail (.committed snapshot))
    (hdec : decodeFrame snapshot.data = .ok frame) (hcount : slotsToDrop frame = .ok n) :
    dropOldestMessage host w = .ok () (w.dropped n) := by
  have hpeek : onRegion (Region.peekCommitted w.chan.tail) w = .ok snapshot w := by
    simp only [onRegion, Region.peekCommitted_ok hshow]
  rw [dropOldestMessage, Effect.get_bind, if_neg (by simp [hmode]), dropOldestMessageSpsc,
    Effect.get_bind, if_neg hlen]
  refine (Effect.bind_ok hpeek).trans ?_
  simp only [hdec, hcount]
  exact (Effect.bind_ok dropSlots_ok).trans rfl

variable [Checksum] {config : SpscConfig} {plan : SendPlan} {bytes : Bytes} {seq : UInt64}

variable (seq) in
/-- The first frame of a message says how many slots the message takes. -/
theorem messageFrames_head (hplan : sendPlan config bytes.length = .ok plan)
    (hcap : config.capacity < 2 ^ 64) (hlen : bytes.length ≤ isizeMax) :
    ∃ data datas frame, messageFrames plan seq bytes = data :: datas ∧
      decodeFrame data = .ok frame ∧ slotsToDrop frame = .ok plan.neededSlots := by
  unfold messageFrames
  rcases sendPlan_ok hplan with ⟨-, rfl⟩ | ⟨h1, h2, h3, h4, h5⟩
  · rw [if_pos rfl]
    refine ⟨_, _, _, rfl, decodeFrame_frameBytes _ _ _ _ (by decide) hlen, ?_⟩
    rw [slotsToDrop, if_neg]
    rw [isChunked_frameOf_zero]
    exact Bool.false_ne_true
  · have hmany := one_lt_neededSlots hplan h1
    have hn : (chunks plan.chunkPayloadSize bytes).length = plan.neededSlots := by
      rw [length_chunks, h4]
    rw [if_neg (by omega)]
    cases hc : chunks plan.chunkPayloadSize bytes with
    | nil => rw [hc, List.length_nil] at hn; omega
    | cons piece pieces =>
        have hpiece : piece.length ≤ bytes.length := by
          have hflat := flatten_chunks plan.chunkPayloadSize bytes (by omega)
          rw [hc, List.flatten_cons] at hflat
          rw [← hflat, List.length_append]
          omega
        have hinfo := chunkInfo_frameOf seq 0 plan.neededSlots bytes.length piece (by omega)
          (by omega)
          (by simp only [isizeMax] at hlen; omega)
        rw [List.zipIdx_cons, List.map_cons]
        refine ⟨_, _, _, rfl, decodeFrame_frameBytes _ _ _ _ (by rw [length_chunkTlvs]; decide)
          (by omega), ?_⟩
        have hchunk : isChunked (frameOf (chunkFlags 0 plan.neededSlots) seq
            (chunkTlvs 0 plan.neededSlots bytes.length) piece) = true := chunkFlags_chunked
        simp only [slotsToDrop, if_pos hchunk, hinfo, bind, Except.bind, ne_eq, not_true_eq_false,
          if_false]
        rfl

end Drop

/-! ## The loop -/

namespace SpscState

variable [Checksum] {config : SpscConfig} {s : SpscState} {q : Queue} {host : Host}
  {needed : ℕ}

/-- The producer's mirrors are the words, and its depth is theirs. -/
structure Mirrored (s : SpscState) : Prop where
  mirrors : s.atProducer.Mirrors
  len : s.producer.len = s.region.head - s.region.tail

/-- **The first message is dropped.** -/
theorem Holds.dropped {seq : UInt64} {datas : List Bytes} {out : Except Failure Bytes}
    {rest : List Entry} (h : s.Holds config False q) (hm : s.Mirrored)
    (hentries : q.entries = .message seq datas out :: rest) :
    (s.withProducer (s.atProducer.dropped datas.length)).Holds config False
        { q with base := q.base + 1, entries := rest } ∧
      (s.withProducer (s.atProducer.dropped datas.length)).Mirrored ∧
      (s.atProducer.dropped datas.length).region.head = s.region.head ∧
      (s.atProducer.dropped datas.length).region.capacity = s.region.capacity := by
  have hl := h.ring.layout
  have hword := h.ring.word
  rw [hentries, contentsOf_cons, contents_message] at hl hword
  have hlen : (datas.map (Content.committed ⟨seq, ·⟩)).length = datas.length := List.length_map _
  rw [List.length_append, hlen] at hword
  obtain ⟨hl', hm', hw⟩ := hm.mirrors.consumed
    (by rw [hlen]; simp only [atProducer]; omega) hl
  rw [hlen] at hl' hm' hw
  obtain ⟨hring, hnum, hprod, hleases⟩ := h.advance hentries hl' hw h.ring.floor q.got
  have hwriter : ((s.atProducer.consumed datas.length).chan).writer = s.producer.writer :=
    consumed_field (·.writer) fun _ => rfl
  refine ⟨⟨h.mode, ?_, hnum, ?_, ?_, fun h => h.elim, hleases, h.distinct, ?_, h.accepted, h.got⟩,
    ⟨?_, ?_⟩, hw.head, hw.capacity⟩
  · show Ring config ((s.atProducer.consumed datas.length).chan).writer _ _ _
    rw [hwriter]
    exact hring
  · refine ⟨(consumed_field (w := s.atProducer) (k := datas.length) (·.config) fun _ => rfl).trans
        hprod.config, (consumed_field (w := s.atProducer) (k := datas.length) (·.closed)
          fun _ => rfl).trans hprod.closed, consumed_bias h.producer.bias, hm'.head, ?_, ?_⟩
    · exact (consumed_field (w := s.atProducer) (k := datas.length) (·.head) fun _ => rfl).trans
        hprod.head
    · exact (consumed_field (w := s.atProducer) (k := datas.length) (·.nextSeq) fun _ => rfl).trans
        hprod.nextSeq
  · intro chan hc
    have hcons := h.consumer chan hc
    exact ⟨hcons.config, hcons.closed, fun h => h.elim⟩
  · exact fun v hv => (h.views v hv).transfer hw.capacity
  · exact ⟨hm'.capacity, hm'.head, hm'.tail, hm'.floor, hm'.index⟩
  · show (s.atProducer.consumed datas.length).chan.len = _
    rw [consumed_len]
    show s.producer.len - _ = (s.atProducer.consumed datas.length).region.head -
      (s.atProducer.consumed datas.length).region.tail
    rw [hw.head, hw.tail, hm.len, Nat.sub_sub]
    rfl

/-- What an entry takes of the ring. -/
def weightOf (entry : Entry) : ℕ := entry.contents.length

/-- A message as it was sent: its frames say how many they are. -/
def Sent (config : SpscConfig) (entry : Entry) : Prop :=
  ∃ seq payload plan, entry = .message seq (messageFrames plan seq payload) (.ok payload) ∧
    sendPlan config payload.length = .ok plan ∧ payload.length ≤ isizeMax

omit [Checksum] in
theorem load_weightOf {entries : List Entry} :
    load weightOf entries = (contentsOf entries).length := length_contentsOf_eq_sum.symm

/-- Without leases every slot is published. -/
theorem leasesOf_eq_zero {entries : List Entry} (h : ∀ e ∈ entries, SpscState.Sent config e) :
    leasesOf entries = 0 := by
  refine List.countP_eq_zero.2 fun e he => ?_
  obtain ⟨seq, payload, plan, rfl, -⟩ := h e he
  exact Bool.false_ne_true

/-- What the guard of a mirrored producer admits, where nothing is pinned. -/
theorem Holds.admits_iff (h : s.Holds config False q) (hm : s.Mirrored) (hviews : s.views = [])
    (hsent : ∀ e ∈ q.entries, SpscState.Sent config e) (hpos : 0 < needed) :
    s.producer.admits needed ↔ load weightOf q.entries + needed ≤ s.region.capacity := by
  have hnone : s.region.pinFloor = PIN_FLOOR_NONE := by
    rcases h.ring.floor with ⟨-, hf⟩ | ⟨hmem, -⟩
    · exact hf
    · rw [hviews] at hmem
      cases hmem
  have hlen := length_contentsOf q.entries
  rw [leasesOf_eq_zero hsent] at hlen
  have hhead := h.ring.head
  have hfits := h.ring.layout.fits
  have hfloor : s.producer.floorCursor = PIN_FLOOR_NONE := hm.mirrors.floor.trans hnone
  have h1 : s.producer.headCursor = s.region.head := hm.mirrors.head
  have h2 : s.producer.tailCursor = s.region.tail := hm.mirrors.tail
  have h3 : s.producer.config.capacity = s.region.capacity := hm.mirrors.capacity
  rw [admits, guardLen, if_pos hfloor, h1, h2, h3, h.producer.bias, load_weightOf]
  omega

variable (host) in
/-- **The loop drops what it must**: what stays of the queue is the longest
suffix that leaves the message its room. The induction is on the queue; each
round drops its first message. -/
theorem Holds.dropUntilAdmitted (hneed : 0 < needed) :
    ∀ (entries : List Entry) {s : SpscState} {q : Queue} (fuel : ℕ), q.entries = entries →
      s.Holds config False q → s.Mirrored → s.views = [] →
      (∀ e ∈ entries, SpscState.Sent config e) → needed ≤ s.region.capacity →
      entries.length < fuel →
      ∃ w k, dropUntilAdmitted host needed fuel s.atProducer = .ok () w ∧
        k ≤ entries.length ∧ entries.drop k = trim weightOf (s.region.capacity - needed) entries ∧
        (s.withProducer w).Holds config False
          { q with base := q.base + k, entries := entries.drop k } ∧
        w.region.head = s.region.head ∧ w.region.capacity = s.region.capacity := by
  intro entries
  induction entries with
  | nil =>
      intro s q fuel he h hm hviews hsent hfit hfuel
      obtain ⟨fuel, rfl⟩ : ∃ f, fuel = f + 1 := ⟨fuel - 1, by omega⟩
      have hadm : s.atProducer.chan.admits needed :=
        (h.admits_iff hm hviews (by rw [he]; exact hsent) hneed).2 (by rw [he]; simpa using hfit)
      refine ⟨s.atProducer, 0, ?_, Nat.zero_le _, rfl, he ▸ h, rfl, rfl⟩
      rw [PersistentShmChannel.dropUntilAdmitted, Effect.get_bind, if_pos hadm]
      rfl
  | cons entry rest ih =>
      intro s q fuel he h hm hviews hsent hfit hfuel
      obtain ⟨fuel, rfl⟩ : ∃ f, fuel = f + 1 := ⟨fuel - 1, by omega⟩
      have hiff := h.admits_iff hm hviews (by rw [he]; exact hsent) hneed
      rw [he] at hiff
      by_cases hadm : s.atProducer.chan.admits needed
      · refine ⟨s.atProducer, 0, ?_, Nat.zero_le _, ?_, ?_, rfl, rfl⟩
        · rw [PersistentShmChannel.dropUntilAdmitted, Effect.get_bind, if_pos hadm]
          rfl
        · rw [List.drop_zero, trim_of_le]
          have := hiff.1 hadm
          omega
        · rw [List.drop_zero, ← he]
          exact h
      · have hgt : s.region.capacity - needed < load weightOf (entry :: rest) := by
          refine Nat.lt_of_not_le fun hle => hadm (hiff.2 ?_)
          omega
        obtain ⟨seq, payload, plan, rfl, hplan, hlen⟩ := hsent _ List.mem_cons_self
        obtain ⟨data, datas, frame, hframes, hdec, hcount⟩ := messageFrames_head seq hplan
          h.ring.fits.capacity_lt hlen
        have hn := length_messageFrames seq hplan
        have hl := h.ring.layout
        rw [he, contentsOf_cons, contents_message, hframes] at hl
        have hidx : s.producer.tail = s.region.tail % s.region.capacity := hm.mirrors.index
        have hshow := hl.holds.1
        rw [← hidx] at hshow
        have hdepth : s.atProducer.chan.len ≠ 0 := by
          have hhead := h.ring.head
          have hcount' := length_contentsOf q.entries
          rw [leasesOf_eq_zero (he ▸ hsent), ← load_weightOf, he] at hcount'
          rw [he] at hhead
          show s.producer.len ≠ 0
          rw [hm.len]
          omega
        have hdrop := dropOldestMessage_ok host (w := s.atProducer)
          (h.producer.config ▸ h.mode) hdepth hshow hdec hcount
        obtain ⟨hnext, hm', hhead', hcap'⟩ := h.dropped hm he
        rw [hn] at hnext hm' hhead' hcap'
        obtain ⟨w, k, hrun, hkle, hk, hholds, hhead, hcap⟩ := ih fuel rfl hnext hm' hviews
          (fun e hm => hsent e (List.mem_cons_of_mem _ hm)) (hcap' ▸ hfit)
          (by simp only [List.length_cons] at hfuel; omega)
        refine ⟨w, k + 1, ?_, Nat.succ_le_succ hkle, ?_, ?_, hhead.trans hhead', hcap.trans hcap'⟩
        · rw [PersistentShmChannel.dropUntilAdmitted, Effect.get_bind, if_neg hadm]
          exact (Effect.bind_ok hdrop).trans hrun
        · rw [trim_cons_of_gt hgt, List.drop_succ_cons, hk]
          exact congrArg (trim weightOf · rest) (congrArg (· - needed) hcap')
        · rw [Nat.add_right_comm] at hholds
          exact hholds

end SpscState

end Dsline
