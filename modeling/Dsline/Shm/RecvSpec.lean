import Dsline.Shm.Handle
/-!
# What the receive calls do

The specifications of `recv_with_seq` and `try_recv` over a laid-out region:
a message at the tail is returned (`recvWithSeq_ok`), a damaged one is
skipped (`recvWithSeq_fails`), and a tail that is not readable is an empty
ring (`recvWithSeq_empty`). Every other proof about receiving cites these.
-/

namespace Dsline

open PersistentShmChannel

namespace World

variable {w w' : World} {k : ℕ}

/-- The world with no resync pending. -/
def unsynced (w : World) : World := { w with chan := { w.chan with resyncExpected := false } }

/-- The world expecting a sequence. -/
def expecting (w : World) (seq : UInt64) : World :=
  { w with chan := { w.chan with expectedRecvSeq := seq } }

/-- A field that stepping the tail does not touch is the same after any
number of consumed slots. -/
theorem consumed_field {α : Type} (field : PersistentShmChannel → α)
    (h : ∀ chan, field chan.stepTail = field chan) :
    field (w.consumed k).chan = field w.chan := by
  induction k with
  | zero => rfl
  | succ k ih => exact (h _).trans ih

theorem Sound.refreshed (hs : w.Sound) {d : ℕ} : (w.refreshed d).Sound :=
  ⟨hs.capacity, hs.pos, hs.ordered, hs.window, hs.word, hs.opened⟩

theorem Sound.not_closed (hs : w.Sound) {d : ℕ} :
    ¬ ((w.refreshed d).chan.closed ∧ (w.refreshed d).chan.len = 0) := fun h => by
  have hclosed : w.chan.closed = true := h.1
  rw [hs.opened] at hclosed
  cases hclosed

/-- What a receive that consumed `n` slots leaves as it was. -/
structure Received (w : World) (n : ℕ) (w' : World) : Prop where
  words : w.region.Words w.region.head (w.region.tail + n) w.region.pinFloor w'.region
  config : w'.chan.config = w.chan.config
  closed : w'.chan.closed = w.chan.closed
  head : w'.chan.head = w.chan.head
  nextSeq : w'.chan.nextSeq = w.chan.nextSeq
  writer : w'.chan.writer = w.chan.writer
  writerEpoch : w'.chan.writerEpoch = w.chan.writerEpoch
  resync : w'.chan.resyncExpected = false
  mirror : w'.chan.tailCursor = w'.region.tail

end World

namespace PersistentShmChannel

open World

variable {w : World} {host : Host} {contents more : List Content} {pins : List Pin} {seq : UInt64}
  {datas : List Bytes} {payload : Bytes} {err : Failure}

/-- The depth a refresh finds. -/
abbrev depth (w : World) : ℕ := w.region.head - w.region.tail

/-! ## Before the read -/

theorem ensureTailReadable_committed (hs : w.Sound)
    (hc : w.region.state (w.region.tail % w.region.capacity) = .committed) :
    ensureTailReadable host w = .ok w.chan.resyncExpected (w.refreshed (depth w)).unsynced := by
  have hidx : (w.refreshed (depth w)).chan.tail = w.region.tail % w.region.capacity :=
    (mirrors_refreshed _ hs.capacity).index
  have hpoll : pollTailCommitted (w.refreshed (depth w)).unsynced =
      .ok true (w.refreshed (depth w)).unsynced :=
    pollTailCommitted_true (by
      show w.region.state (w.refreshed (depth w)).chan.tail = .committed
      rw [hidx, hc])
  rw [ensureTailReadable, Effect.bind_ok hs.refreshCursors, Effect.get_bind, if_neg hs.not_closed]
  exact (Effect.bind_ok hpoll).trans rfl

theorem ensureTailReadable_empty (hs : w.Sound)
    (hc : w.region.state (w.region.tail % w.region.capacity) ≠ .committed)
    (hrec : tryReclaimAtTail host (w.refreshed (depth w)).unsynced =
      .ok 0 (w.refreshed (depth w)).unsynced) :
    ensureTailReadable host w = .error (.ofChannel .bufferEmpty) (w.refreshed (depth w)) := by
  have hidx : (w.refreshed (depth w)).chan.tail = w.region.tail % w.region.capacity :=
    (mirrors_refreshed _ hs.capacity).index
  have hpoll : pollTailCommitted (w.refreshed (depth w)).unsynced =
      .ok false (w.refreshed (depth w)).unsynced :=
    pollTailCommitted_false (by
      show w.region.state (w.refreshed (depth w)).chan.tail ≠ .committed
      rw [hidx]
      exact hc) hs.opened
  rw [ensureTailReadable, Effect.bind_ok hs.refreshCursors, Effect.get_bind, if_neg hs.not_closed]
  refine (Effect.bind_ok hpoll).trans ?_
  exact (Effect.bind_ok hrec).trans rfl

/-- The sequence check of a read that adopts, or expects, what it finds. -/
theorem checkSeq_ok {resync : Bool}
    (h : resync = true ∨ w.chan.config.multiProducer = true ∨ w.chan.expectedRecvSeq = seq) :
    checkSeq resync seq w =
      .ok () (w.expecting (if resync then seq else w.chan.expectedRecvSeq)) := by
  rw [checkSeq, Effect.get_bind]
  cases resync with
  | true => rfl
  | false =>
      have hno : ¬ (¬ w.chan.config.multiProducer = true ∧ seq ≠ w.chan.expectedRecvSeq) := by
        rintro ⟨h1, h2⟩
        rcases h with h | h | h
        · cases h
        · exact h1 h
        · exact h2 h.symm
      rw [if_neg Bool.false_ne_true, if_neg hno]
      rfl

/-- A sequence that is neither adopted nor expected is refused. -/
theorem checkSeq_mismatch {resync : Bool}
    (h : ¬ (resync = true ∨ w.chan.config.multiProducer = true ∨ w.chan.expectedRecvSeq = seq)) :
    checkSeq resync seq w =
      .error (.ofChannel (.sequenceMismatch w.chan.expectedRecvSeq seq)) w := by
  rw [not_or, not_or] at h
  rw [checkSeq, Effect.get_bind, if_neg h.1, if_pos ⟨h.2.1, fun he => h.2.2 he.symm⟩]
  rfl

/-! ## The read -/

/-- The world a receive works on: refreshed, with the sequence settled. -/
def settled (w : World) (seq : UInt64) : World :=
  ((w.refreshed (depth w)).unsynced).expecting
    (if w.chan.resyncExpected then seq else w.chan.expectedRecvSeq)

variable (seq) in
theorem settled_mirrors (hs : w.Sound) : (settled w seq).Mirrors :=
  let h := mirrors_refreshed (depth w) hs.capacity
  ⟨h.capacity, h.head, h.tail, h.floor, h.index⟩

/-- A read at a committed tail gets to the frame. -/
theorem recvWithSeq_committed [Checksum] {snapshot : SlotSnapshot} (hs : w.Sound)
    (hshow : w.region.Shows (w.region.tail % w.region.capacity) (.committed snapshot))
    (hseq : w.chan.resyncExpected = true ∨ w.chan.config.multiProducer = true ∨
      w.chan.expectedRecvSeq = snapshot.seq) :
    recvWithSeq host w =
      finishRecv tailOps snapshot ((settled w snapshot.seq).atFront .pinned) := by
  have hidx : (w.refreshed (depth w)).chan.tail = w.region.tail % w.region.capacity :=
    (mirrors_refreshed _ hs.capacity).index
  rw [recvWithSeq, Effect.bind_ok (ensureTailReadable_committed hs hshow.state)]
  refine (Effect.bind_ok (readTail_ok (w := (w.refreshed (depth w)).unsynced) (by
    show w.region.Shows (w.refreshed (depth w)).chan.tail (.committed snapshot)
    rw [hidx]
    exact hshow))).trans ?_
  exact (Effect.bind_ok (checkSeq_ok
    (w := ((w.refreshed (depth w)).unsynced).atFront .pinned) hseq)).trans rfl

/-- The message at the tail, and what is readable behind it. -/
theorem settled_offers (hs : w.Sound)
    (hl : Layout w.region (datas.map (.committed ⟨seq, ·⟩) ++ more) pins)
    (hword : w.region.tail + (datas.length + (readable more).length) < wordCount) :
    (settled w seq).Offers (datas.map (⟨seq, ·⟩) ++ readable more) := by
  have hcontents : datas.map (Content.committed ⟨seq, ·⟩) ++ more =
      (datas.map (SlotSnapshot.mk seq)).map Content.committed ++ more := by
    rw [List.map_map]; rfl
  rw [hcontents] at hl
  have hread := readable_append (datas.map (SlotSnapshot.mk seq)) more
  rw [← hread]
  refine (settled_mirrors _ hs).offers hs.pos hs.opened ?_ hl
  rw [hread, List.length_append, List.length_map]
  exact hword

/-- The world a receive that consumed the message leaves. -/
theorem received_consumed (hs : w.Sound) (expected : UInt64) (last : Option UInt64)
    (hl : Layout w.region (datas.map (.committed ⟨seq, ·⟩) ++ more) pins)
    (hword : w.region.tail + datas.length < wordCount) :
    Layout (((settled w seq).consumed datas.length).counted expected last).region more pins ∧
      w.Received datas.length
        (((settled w seq).consumed datas.length).counted expected last) := by
  have hlen : (datas.map (Content.committed ⟨seq, ·⟩)).length = datas.length := List.length_map _
  obtain ⟨hl', hm', hwords⟩ := (settled_mirrors seq hs).consumed
    (by rw [hlen]; exact hword) hl
  rw [hlen] at hl' hm' hwords
  refine ⟨hl', ⟨hwords, ?_, ?_, ?_, ?_, ?_, ?_, ?_, hm'.tail⟩⟩
  · exact consumed_field (·.config) fun _ => rfl
  · exact consumed_field (·.closed) fun _ => rfl
  · exact consumed_field (·.head) fun _ => rfl
  · exact consumed_field (·.nextSeq) fun _ => rfl
  · exact consumed_field (·.writer) fun _ => rfl
  · exact consumed_field (·.writerEpoch) fun _ => rfl
  · exact consumed_field (·.resyncExpected) fun _ => rfl

variable [Checksum]

variable (payload err) in
theorem shows_head (hdel : Delivers seq datas (.ok payload) ∨ Delivers seq datas (.error err))
    (hl : Layout w.region (datas.map (.committed ⟨seq, ·⟩) ++ more) pins) :
    ∃ data, datas.head? = some data ∧
      w.region.Shows (w.region.tail % w.region.capacity) (.committed ⟨seq, data⟩) := by
  obtain ⟨data, datas', rfl⟩ : ∃ data datas', datas = data :: datas' := by
    rcases hdel with ⟨data, datas', h, -⟩ | ⟨data, datas', h, -⟩ <;> exact ⟨data, datas', h⟩
  exact ⟨data, rfl, hl.holds.1⟩

variable (host) in
/-- A message at the tail is returned, and its slots are consumed. -/
theorem recvWithSeq_run (hs : w.Sound)
    (hl : Layout w.region (datas.map (.committed ⟨seq, ·⟩) ++ more) pins)
    (hword : w.region.tail + (datas.length + (readable more).length) < wordCount)
    (hdel : Delivers seq datas (.ok payload))
    (hseq : w.chan.resyncExpected = true ∨ w.chan.config.multiProducer = true ∨
      w.chan.expectedRecvSeq = seq) :
    recvWithSeq host w = .ok ⟨seq, payload⟩ (((settled w seq).consumed datas.length).counted
      ((settled w seq).chan.expectedRecvSeq + 1) (some seq)) := by
  obtain ⟨data, hhead, hshow⟩ := shows_head _ .panic (.inl hdel) hl
  rw [recvWithSeq_committed hs hshow hseq]
  exact finishRecv_delivers (settled_offers hs hl hword) hdel hhead

variable (host) in
/-- **Receiving a message.** -/
theorem recvWithSeq_ok (hs : w.Sound)
    (hl : Layout w.region (datas.map (.committed ⟨seq, ·⟩) ++ more) pins)
    (hword : w.region.tail + (datas.length + (readable more).length) < wordCount)
    (hdel : Delivers seq datas (.ok payload))
    (hseq : w.chan.resyncExpected = true ∨ w.chan.config.multiProducer = true ∨
      w.chan.expectedRecvSeq = seq) :
    ∃ w', recvWithSeq host w = .ok ⟨seq, payload⟩ w' ∧ Layout w'.region more pins ∧
      w.Received datas.length w' ∧ w'.chan.lastReceivedSeq = some seq ∧
        w'.chan.expectedRecvSeq =
          (if w.chan.resyncExpected then seq else w.chan.expectedRecvSeq) + 1 := by
  obtain ⟨hl', hrec⟩ := received_consumed hs ((settled w seq).chan.expectedRecvSeq + 1)
    (some seq) hl (by omega)
  exact ⟨_, recvWithSeq_run host hs hl hword hdel hseq, hl', hrec, rfl, rfl⟩

variable (host) in
/-- **Skipping a damaged message.** -/
theorem recvWithSeq_fails (hs : w.Sound)
    (hl : Layout w.region (datas.map (.committed ⟨seq, ·⟩) ++ more) pins)
    (hword : w.region.tail + (datas.length + (readable more).length) < wordCount)
    (hdel : Delivers seq datas (.error err)) (hstuck : ¬ Inbox.Stuck err)
    (hseq : w.chan.resyncExpected = true ∨ w.chan.config.multiProducer = true ∨
      w.chan.expectedRecvSeq = seq) :
    ∃ w', recvWithSeq host w = .error err w' ∧ Layout w'.region more pins ∧
      w.Received datas.length w' ∧ w'.chan.lastReceivedSeq = w.chan.lastReceivedSeq ∧
        w'.chan.expectedRecvSeq =
          (if w.chan.resyncExpected then seq else w.chan.expectedRecvSeq) + 1 := by
  obtain ⟨data, hhead, hshow⟩ := shows_head [] _ (.inr hdel) hl
  obtain ⟨hl', hrec⟩ := received_consumed hs ((settled w seq).chan.expectedRecvSeq + 1)
    ((settled w seq).chan.lastReceivedSeq) hl (by omega)
  refine ⟨_, ?_, hl', hrec, rfl, rfl⟩
  rw [recvWithSeq_committed hs hshow hseq]
  exact finishRecv_fails (settled_offers hs hl hword) hdel hhead hstuck

/-- **A tail that is not readable is an empty ring**, and the call leaves
what it found. -/
theorem recvWithSeq_empty (hs : w.Sound)
    (hc : w.region.state (w.region.tail % w.region.capacity) ≠ .committed)
    (hrec : tryReclaimAtTail host (w.refreshed (depth w)).unsynced =
      .ok 0 (w.refreshed (depth w)).unsynced) :
    recvWithSeq host w = .error (.ofChannel .bufferEmpty) (w.refreshed (depth w)) := by
  rw [recvWithSeq, Effect.bind_error (ensureTailReadable_empty hs hc hrec)]

/-! ## The polling receive -/

theorem tryRecv_committed (hs : w.Sound)
    (hc : w.region.state (w.region.tail % w.region.capacity) = .committed) :
    tryRecv host w =
      match recvWithSeq host (w.refreshed (depth w)) with
      | .ok message w' => .ok (some message.payload) w'
      | .error err w' => .error err w' := by
  have hidx : (w.refreshed (depth w)).chan.tail = w.region.tail % w.region.capacity :=
    (mirrors_refreshed _ hs.capacity).index
  have htail : tailCommitted (w.refreshed (depth w)) = .ok true (w.refreshed (depth w)) := by
    rw [tailCommitted, Effect.get_bind, hidx]
    simp only [refreshed, hc, decide_true]
    rfl
  rw [tryRecv, Effect.bind_ok hs.refreshCursors, Effect.get_bind, if_neg hs.not_closed]
  refine (Effect.bind_ok htail).trans ?_
  rw [if_pos rfl]
  cases hr : recvWithSeq host (w.refreshed (depth w)) with
  | ok message w' => exact Effect.bind_ok hr
  | error err w' => exact Effect.bind_error hr

theorem tryRecv_ok {message : ReceivedMessage} {w' : World} (hs : w.Sound)
    (hc : w.region.state (w.region.tail % w.region.capacity) = .committed)
    (hrun : recvWithSeq host (w.refreshed (depth w)) = .ok message w') :
    tryRecv host w = .ok (some message.payload) w' := by
  rw [tryRecv_committed hs hc, hrun]

theorem tryRecv_error {w' : World} (hs : w.Sound)
    (hc : w.region.state (w.region.tail % w.region.capacity) = .committed)
    (hrun : recvWithSeq host (w.refreshed (depth w)) = .error err w') :
    tryRecv host w = .error err w' := by
  rw [tryRecv_committed hs hc, hrun]

/-- **Polling an unreadable tail** returns nothing. -/
theorem tryRecv_empty (hs : w.Sound)
    (hc : w.region.state (w.region.tail % w.region.capacity) ≠ .committed)
    (hrec : tryReclaimAtTail host (w.refreshed (depth w)) = .ok 0 (w.refreshed (depth w))) :
    tryRecv host w = .ok none (w.refreshed (depth w)) := by
  have hidx : (w.refreshed (depth w)).chan.tail = w.region.tail % w.region.capacity :=
    (mirrors_refreshed _ hs.capacity).index
  have htail : tailCommitted (w.refreshed (depth w)) = .ok false (w.refreshed (depth w)) := by
    rw [tailCommitted, Effect.get_bind, hidx]
    simp only [refreshed, hc, decide_false]
    rfl
  rw [tryRecv, Effect.bind_ok hs.refreshCursors, Effect.get_bind, if_neg hs.not_closed]
  refine (Effect.bind_ok htail).trans ?_
  rw [if_neg Bool.false_ne_true]
  exact (Effect.bind_ok hrec).trans rfl

end PersistentShmChannel

end Dsline
