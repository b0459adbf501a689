import Dsline.Shm.BoundedFifo
/-!
# One handle on a persistent channel

A created channel used through the handle that created it, as sender and
receiver at once, is the bounded FIFO as well, as long as its frames keep
their lengths in the slot headers (`Sole`). It then answers as the in-memory
channel does.
-/

namespace Dsline

open Simulation Eviction

namespace PersistentShmChannel

variable [Checksum]

/-- One call on a handle, at a moment of its host. -/
def call (w : World) : Host × FifoCall → Answer × World
  | (host, .send bytes) => answer ((fun _ => none) <$> send host bytes) w
  | (host, .recvWithSeq) => answer (some <$> recvWithSeq host) w
  | (_, .close) => answer ((fun _ => none) <$> close) w
where
  /-- A call's answer, and the world it leaves. -/
  answer (x : ChannelM (Option ReceivedMessage)) (w : World) : Answer × World :=
    (Effect.outcome (x w), Effect.final (x w))

end PersistentShmChannel

/-! ## A closed handle -/

/-- The world whose handle is closed. -/
def World.shut (w : World) : World := { w with chan := { w.chan with closed := true } }

section Closed

open PersistentShmChannel

/-- What a region call returns does not depend on the handle. -/
theorem agree_onRegion {α : Type} (op : ℕ → RegionM α) :
    Agree (fun s t : World => s = t.shut) (fun _ => True)
      (get >>= fun w => onRegion (op w.chan.tail))
      (get >>= fun w => onRegion (op w.chan.tail)) := by
  rintro _ t rfl
  rw [Effect.get_bind, Effect.get_bind]
  have hrun : onRegion (op t.chan.tail) t.shut = match onRegion (op t.chan.tail) t with
      | .ok a t' => .ok a t'.shut
      | .error err t' => .error err t'.shut := by
    simp only [onRegion, World.shut]
    cases op t.chan.tail t.region <;> rfl
  rw [show t.shut.chan.tail = t.chan.tail from rfl, hrun]
  cases onRegion (op t.chan.tail) t with
  | ok a t' => exact ⟨_, rfl, rfl⟩
  | error err t' => exact .inl trivial

/-- **A closed handle receives what an open one does.** -/
theorem tailAgree_shut : TailAgree (fun s t : World => s = t.shut) (fun _ => True) tailOps
    tailOps where
  readNext := by
    rintro _ t rfl
    by_cases hc : t.region.state t.chan.tail = .committed
    · have h1 : tailOps.readNext t = readTail t := Effect.bind_ok (pollTailCommitted_true hc)
      have h2 : tailOps.readNext t.shut = readTail t.shut :=
        Effect.bind_ok (pollTailCommitted_true (w := t.shut) hc)
      rw [h1, h2]
      exact agree_onRegion Region.readCommitted _ _ rfl
    · cases hclosed : t.chan.closed with
      | false =>
          have h1 : tailOps.readNext t = .error (.ofChannel .bufferEmpty) t :=
            readNextChunk_empty hc hclosed
          rw [h1]
          exact .inl trivial
      | true =>
          have hpoll : pollTailCommitted t = .error (.ofChannel .closed) t := by
            rw [pollTailCommitted, pollTailCommittedFor_succ, if_neg hc, if_pos hclosed]
          have h1 : tailOps.readNext t = .error (.ofChannel .closed) t := Effect.bind_error hpoll
          rw [h1]
          exact .inl trivial
  releasePinned := agree_onRegion Region.releasePinned
  advance := by
    have hrel := agree_onRegion Region.releasePinned
    refine agree_bind (x := get >>= fun w => onRegion (Region.releasePinned w.chan.tail))
      (y := get >>= fun w => onRegion (Region.releasePinned w.chan.tail)) hrel fun _ => ?_
    rintro _ t rfl
    exact ⟨_, rfl, rfl⟩
  bumpExpected := by
    rintro _ t rfl
    exact ⟨_, rfl, rfl⟩
  setLastReceived := by
    rintro seq _ t rfl
    exact ⟨_, rfl, rfl⟩

end Closed

open PersistentShmChannel World

section Shut

variable {w : World} {n : ℕ} {expected : UInt64} {last : Option UInt64}

theorem shut_consumed : (w.consumed n).shut = w.shut.consumed n := by
  induction n with
  | zero => rfl
  | succ n ih =>
      show (w.consumed n).shut.consume = (w.shut.consumed n).consume
      rw [ih]

/-- The world whose handle is open. -/
def World.opened (w : World) : World := { w with chan := { w.chan with closed := false } }

theorem opened_shut (h : w.chan.closed = true) : w.opened.shut = w := by
  obtain ⟨chan, region⟩ := w
  obtain ⟨⟩ := chan
  simp only at h
  rw [h]
  rfl

theorem opened_of_open (h : w.chan.closed = false) : w.opened = w := by
  obtain ⟨chan, region⟩ := w
  obtain ⟨⟩ := chan
  simp only at h
  rw [h]
  rfl

variable [Checksum] {seq : UInt64} {data payload : Bytes} {datas : List Bytes}
  {rest : List SlotSnapshot} {out : Except Failure Bytes}

/-- **A message is received whether or not the handle is closed.** -/
theorem finishRecv_delivers_any (hoff : w.opened.Offers (datas.map (⟨seq, ·⟩) ++ rest))
    (hdel : Delivers seq datas (.ok payload)) (hhead : datas.head? = some data) :
    finishRecv tailOps ⟨seq, data⟩ (w.atFront .pinned) =
      .ok ⟨seq, payload⟩
        ((w.consumed datas.length).counted (w.chan.expectedRecvSeq + 1) (some seq)) := by
  have hopen := finishRecv_delivers hoff hdel hhead
  cases hc : w.chan.closed with
  | false =>
      rw [opened_of_open hc] at hopen
      exact hopen
  | true =>
      obtain ⟨w', hrun, rfl⟩ := (tailAgree_shut.finishRecv ⟨seq, data⟩).ok
        (s := (w.opened.atFront .pinned).shut) rfl hopen
      have hfront : (w.opened.atFront .pinned).shut = w.atFront .pinned := by
        show w.opened.shut.atFront .pinned = _
        rw [opened_shut hc]
      have hdone : (((w.opened.consumed datas.length).counted (w.opened.chan.expectedRecvSeq + 1)
          (some seq)).shut) =
          (w.consumed datas.length).counted (w.chan.expectedRecvSeq + 1) (some seq) := by
        show ((w.opened.consumed datas.length).shut).counted _ _ = _
        rw [shut_consumed, opened_shut hc]
        rfl
      rw [hfront, hdone] at hrun
      exact hrun

end Shut

/-! ## The refinement -/

variable [Checksum]

/-- The contents of a message's frames. -/
def contentsFor (config : SpscConfig) (message : ReceivedMessage) : List Content :=
  (snapshotsOf config message).map .committed

/-- **A channel with one handle is the queue.** -/
structure Sole (config : SpscConfig) (w : World) (q : BoundedFifo) : Prop where
  geometry : w.chan.config = config
  mode : config.multiProducer = false
  fits : Fits config w.region
  mirrors : w.Mirrors
  bias : w.chan.recoveryBias = 0
  resync : w.chan.resyncExpected = false
  floor : w.region.pinFloor = PIN_FLOOR_NONE
  layout : Layout w.region (q.entries.flatMap (contentsFor config)) []
  depth : w.region.head = w.region.tail + q.occupied config
  word : w.region.head < wordCount
  index : w.chan.head = w.region.head % config.capacity
  len : w.chan.len = q.occupied config
  taken : ∀ message ∈ q.entries, Taken config message
  queued : q.entries.length ≤ q.sent
  numbered : CountsFrom (q.sent - q.entries.length) q.entries
  nextSeq : w.chan.nextSeq = UInt64.ofNat q.sent
  expected : w.chan.expectedRecvSeq = UInt64.ofNat (q.sent - q.entries.length)
  last : w.chan.lastReceivedSeq = q.last
  closed : w.chan.closed = q.closed

variable {config : SpscConfig} {w : World} {q : BoundedFifo} {message : ReceivedMessage}
  {messages : List ReceivedMessage} {bytes : Bytes} {plan : SendPlan} {host : Host} {needed : ℕ}

theorem contents_eq : messages.flatMap (contentsFor config) =
    (messages.flatMap (snapshotsOf config)).map .committed := by
  rw [List.map_flatMap]
  rfl

theorem length_contentsFor (h : Taken config message) :
    (contentsFor config message).length = BoundedFifo.weight config message := by
  have hcells := ShmSpscChannel.length_cellsFor h
  rw [cellsFor, List.length_map] at hcells
  rw [contentsFor, List.length_map, hcells]

theorem length_contents (h : ∀ m ∈ messages, Taken config m) :
    (messages.flatMap (contentsFor config)).length = load (BoundedFifo.weight config) messages := by
  have hcells := ShmSpscChannel.length_cells h
  simp only [cellsFor, List.length_flatMap, List.length_map] at hcells
  rw [← hcells, contents_eq, List.length_map, List.length_flatMap]

namespace Sole

theorem pos (h : Sole config w q) : 0 < config.capacity := h.fits.capacity ▸ h.fits.pos

theorem space (h : Sole config w q) : config.capacity * config.slotSize ≤ isizeMax := by
  have harea := h.fits.area
  have hle := Nat.mul_le_mul_left config.capacity
    (show config.slotSize ≤ config.slotSize + FRAME_HEADER_LEN + PERSISTENT_SLOT_HEADER_LEN by
      omega)
  omega

theorem bounded (h : Sole config w q) : q.occupied config ≤ config.capacity := by
  have hfits := h.layout.fits
  rwa [length_contents h.taken, h.fits.capacity] at hfits

theorem sound (h : Sole config w q) (hopen : q.closed = false) : w.Sound where
  capacity := h.mirrors.capacity
  pos := h.fits.pos
  ordered := by rw [h.depth]; exact Nat.le_add_right _ _
  window := by
    have hbound := h.bounded
    rw [h.depth, h.fits.capacity]
    omega
  word := h.word
  opened := h.closed.trans hopen

theorem cursorLen (h : Sole config w q) :
    cursorLen w.chan.config.capacity w.region.head w.region.tail = some (q.occupied config) := by
  have hbound := h.bounded
  have hsub := wrappingSub_of_le (show w.region.tail ≤ w.region.head by rw [h.depth]; omega)
  simp only [Dsline.cursorLen, hsub, h.geometry]
  rw [if_pos (by rw [h.depth]; omega), h.depth, Nat.add_sub_cancel_left]

/-- A refresh leaves the queue. -/
theorem refreshed (h : Sole config w q) : Sole config (w.refreshed (q.occupied config)) q :=
  have hbound := h.bounded
  { h with
    mirrors := mirrors_refreshed _ h.mirrors.capacity
    len := by
      show min (q.occupied config + w.chan.recoveryBias) w.chan.config.capacity = _
      rw [h.bias, h.geometry]
      omega }

/-- **The oldest message is consumed.** -/
theorem consume (h : Sole config w q) (hq : q.entries = message :: messages)
    (last : Option UInt64) :
    Sole config ((w.consumed (BoundedFifo.weight config message)).counted
      (w.chan.expectedRecvSeq + 1) last) { q with entries := messages, last } := by
  have htaken := h.taken message (hq ▸ List.mem_cons_self)
  have hn := length_contentsFor htaken
  have hl := h.layout
  have hdepth := h.depth
  have hword := h.word
  have hlen := h.len
  have hqueued := h.queued
  have hnumbered := h.numbered
  have hexp := h.expected
  unfold BoundedFifo.occupied at hdepth hlen
  rw [hq, load_cons] at hdepth hlen
  rw [hq, List.flatMap_cons] at hl
  rw [hq, List.length_cons] at hqueued hnumbered hexp
  obtain ⟨hl', hm', hw'⟩ := h.mirrors.consumed (by rw [hn]; omega) hl
  rw [hn] at hl' hm' hw'
  have hsub : q.sent - messages.length = q.sent - (messages.length + 1) + 1 := by omega
  refine
    { geometry := (consumed_field (·.config) fun _ => rfl).trans h.geometry
      mode := h.mode
      fits := h.fits.words hw'
      mirrors := ⟨hm'.capacity, hm'.head, hm'.tail, hm'.floor, hm'.index⟩
      bias := consumed_bias h.bias
      resync := (consumed_field (·.resyncExpected) fun _ => rfl).trans h.resync
      floor := hw'.pinFloor.trans h.floor
      layout := hl'
      depth := ?_
      word := ?_
      index := ?_
      len := ?_
      taken := fun m hm => h.taken m (hq ▸ List.mem_cons_of_mem _ hm)
      queued := Nat.le_of_succ_le hqueued
      numbered := ?_
      nextSeq := (consumed_field (·.nextSeq) fun _ => rfl).trans h.nextSeq
      expected := ?_
      last := rfl
      closed := (consumed_field (·.closed) fun _ => rfl).trans h.closed }
  · show (w.consumed _).region.head = (w.consumed _).region.tail + load _ messages
    rw [hw'.head, hw'.tail, hdepth, Nat.add_assoc]
  · show (w.consumed _).region.head < _
    rw [hw'.head]
    exact hword
  · show (w.consumed _).chan.head = (w.consumed _).region.head % _
    rw [consumed_field (·.head) fun _ => rfl, hw'.head, h.index]
  · show (w.consumed _).chan.len = load _ messages
    rw [consumed_len, hlen]
    omega
  · show CountsFrom (q.sent - messages.length) messages
    rw [hsub]
    exact hnumbered.2
  · show w.chan.expectedRecvSeq + 1 = UInt64.ofNat (q.sent - messages.length)
    rw [hexp, hsub, UInt64.ofNat_add]
    rfl

/-! ## Sending -/

/-- The guard counts what is queued. -/
theorem admits_iff (h : Sole config w q) (hpos : 0 < needed) :
    w.chan.admits needed ↔ q.occupied config + needed ≤ config.capacity := by
  have hfloor : w.chan.floorCursor = PIN_FLOOR_NONE := h.mirrors.floor.trans h.floor
  rw [admits, guardLen, if_pos hfloor, h.mirrors.head, h.mirrors.tail, h.bias, h.geometry, h.depth]
  omega

variable (host) in
/-- **A message with room is queued**, from the world `w₀` in which the room
was made. -/
theorem push {w₀ : World} (h : Sole config w q) (hplan : sendPlan config bytes.length = .ok plan)
    (hslice : bytes.length ≤ isizeMax) (hfit : FramesFit config bytes.length)
    (hword : w.region.head + plan.neededSlots < wordCount)
    (hroom : q.occupied config + plan.neededSlots ≤ config.capacity)
    (hprep : prepareSendSlots host plan.neededSlots w₀ = .ok true w) :
    ∃ w', sendSpsc host bytes plan w₀ = .ok () w' ∧ Sole config w' (q.push bytes) := by
  have hcontents := length_contents h.taken
  have hnum := length_messageFrames w.chan.nextSeq hplan
  have hencode : encodeMessageFrames w.chan.config plan w.chan.nextSeq bytes =
      .ok (messageFrames plan w.chan.nextSeq bytes) := by
    rw [h.geometry]
    exact encodeMessageFrames_ok _ hplan h.fits.capacity_lt hslice
  obtain ⟨region', hrun, hl, hw⟩ := writeFrames_ok w.chan.nextSeq
    (w.chan.writer.stamp host w.chan.writerEpoch plan.neededSlots)
    (messageFrames plan w.chan.nextSeq bytes)
    (w := ⟨{ w.chan with nextSeq := w.chan.nextSeq + 1 }, w.region⟩) h.mirrors.capacity h.layout
    h.fits.pos
    (by
      show w.chan.head = (w.region.tail + _) % w.region.capacity
      rw [hcontents, h.index, h.depth, h.fits.capacity]
      rfl)
    (by
      show _ ≤ w.region.capacity
      rw [hcontents, hnum, h.fits.capacity]
      exact hroom)
    (fun p hp => (nomatch hp))
    (fun frame hf => by
      show _ ≤ w.region.frameCapacity
      rw [h.fits.frameCapacity]
      exact length_le_of_mem_messageFrames hplan hf)
  have hsub : q.sent + 1 - (q.entries.length + 1) = q.sent - q.entries.length := by omega
  have hslots : BoundedFifo.weight config ⟨UInt64.ofNat q.sent, bytes⟩ = plan.neededSlots :=
    (neededSlots_eq hplan).symm
  replace hw : w.region.Words w.region.head w.region.tail w.region.pinFloor region' := hw
  have hwtail : region'.tail = w.region.tail := hw.tail
  refine ⟨⟨{ w.chan with
      nextSeq := w.chan.nextSeq + 1
      head := (w.chan.head + (messageFrames plan w.chan.nextSeq bytes).length) % w.region.capacity
      len := w.chan.len + (messageFrames plan w.chan.nextSeq bytes).length
      headCursor := w.chan.headCursor + (messageFrames plan w.chan.nextSeq bytes).length },
    region'.storeHead
      (w.chan.headCursor + (messageFrames plan w.chan.nextSeq bytes).length)⟩, ?_, h.geometry,
    h.mode, h.fits.words
      ⟨hw.capacity, hw.frameCapacity, hw.magic, hw.format, rfl, hw.tail, hw.pinFloor⟩,
    ?_, h.bias, h.resync, hw.pinFloor.trans h.floor, ?_, ?_,
    ?_, ?_, ?_, ?_, ?_, ?_, ?_, ?_, h.last, h.closed⟩
  · rw [sendSpsc, Effect.bind_ok hprep, if_pos rfl]
    refine (Effect.bind_ok takeSeq_ok).trans ?_
    rw [Effect.get_bind]
    simp only [hencode]
    exact (Effect.bind_ok hrun).trans rfl
  · have hm := h.mirrors
    refine ⟨hm.capacity.trans hw.capacity.symm, rfl, hm.tail.trans hwtail.symm,
      hm.floor.trans hw.pinFloor.symm, ?_⟩
    show w.chan.tail = region'.tail % region'.capacity
    rw [hwtail, hw.capacity]
    exact hm.index
  · simp only [BoundedFifo.push, List.flatMap_append, List.flatMap_singleton]
    have hframes : contentsFor config ⟨UInt64.ofNat q.sent, bytes⟩ =
        framesContents w.chan.nextSeq (messageFrames plan w.chan.nextSeq bytes) := by
      rw [contentsFor, snapshotsOf, framesOf_eq _ hplan, ← h.nextSeq,
        ← stored_messageFrames hplan hfit, List.map_map, List.map_map, framesContents,
        stored_messageFrames hplan hfit]
      rfl
    rw [hframes]
    exact hl.congr rfl rfl rfl rfl
  · show w.chan.headCursor + _ = region'.tail + load _ (q.entries ++ [_])
    rw [h.mirrors.head, hnum, load_append, load_cons, load_nil, hslots, hwtail, h.depth]
    exact Nat.add_assoc _ _ _
  · show w.chan.headCursor + _ < _
    rw [h.mirrors.head, hnum]
    exact hword
  · show (w.chan.head + _) % w.region.capacity = (w.chan.headCursor + _) % config.capacity
    rw [h.index, h.mirrors.head, h.fits.capacity, Nat.mod_add_mod]
  · show w.chan.len + _ = load _ (q.entries ++ [_])
    rw [h.len, hnum, load_append, load_cons, load_nil, hslots]
    rfl
  · intro m hm
    rcases List.mem_append.1 hm with hm | hm
    · exact h.taken m hm
    · rw [List.mem_singleton.1 hm]
      exact ⟨⟨plan, hplan⟩, hslice⟩
  · simp only [BoundedFifo.push, List.length_append, List.length_singleton]
    have := h.queued
    omega
  · simp only [BoundedFifo.push, List.length_append, List.length_singleton, hsub]
    refine countsFrom_append.2 ⟨h.numbered, ?_, trivial⟩
    rw [Nat.sub_add_cancel h.queued]
  · show w.chan.nextSeq + 1 = UInt64.ofNat (q.sent + 1)
    rw [h.nextSeq, UInt64.ofNat_add]
    rfl
  · simp only [BoundedFifo.push, List.length_append, List.length_singleton, hsub]
    exact h.expected

variable (host) in
/-- **The oldest message is dropped whole.** -/
theorem dropOldest (h : Sole config w q) (hq : q.entries = message :: messages) :
    ∃ w', dropOldestMessage host w = .ok () w' ∧ w'.region.head = w.region.head ∧
      Sole config w' { q with entries := messages } := by
  have htaken := h.taken message (hq ▸ List.mem_cons_self)
  obtain ⟨⟨plan, hplan⟩, hslice⟩ := htaken
  obtain ⟨data, datas, frame, hframes, hdec, hcount⟩ :=
    messageFrames_head message.seq hplan h.fits.capacity_lt hslice
  have hslots : BoundedFifo.weight config message = plan.neededSlots := (neededSlots_eq hplan).symm
  have hl := h.layout
  rw [hq, List.flatMap_cons, contentsFor, snapshotsOf, framesOf_eq _ hplan, hframes] at hl
  have hshow := hl.holds.1
  rw [← h.mirrors.index] at hshow
  have hlen : w.chan.len ≠ 0 := by
    have hpos := neededSlots_pos hplan
    rw [h.len, BoundedFifo.occupied, hq, load_cons, hslots]
    omega
  have hdrop := dropOldestMessage_ok host (by rw [h.geometry]; exact h.mode) hlen hshow hdec hcount
  have hlast : (w.consumed plan.neededSlots).chan.lastReceivedSeq = q.last :=
    (consumed_field (·.lastReceivedSeq) fun _ => rfl).trans h.last
  have hexp : (w.consumed plan.neededSlots).chan.expectedRecvSeq = w.chan.expectedRecvSeq :=
    consumed_field (·.expectedRecvSeq) fun _ => rfl
  have hnext := h.consume hq q.last
  rw [hslots] at hnext
  have hhead : (w.consumed plan.neededSlots).region.head = w.region.head := by
    have hc := length_contentsFor (h.taken message (hq ▸ List.mem_cons_self))
    have hl := h.layout
    have hword := h.word
    have hdepth := h.depth
    rw [BoundedFifo.occupied, hq, load_cons] at hdepth
    rw [hq, List.flatMap_cons] at hl
    obtain ⟨-, -, hw'⟩ := h.mirrors.consumed (by rw [hc]; omega) hl
    rw [hc, hslots] at hw'
    exact hw'.head
  refine ⟨_, hdrop, hhead, ?_⟩
  rw [World.dropped, hexp, hlast]
  exact hnext

variable (host) in
/-- **The loop drops the fewest oldest messages that make room.** -/
theorem dropUntilAdmitted (fuel : ℕ) (h : Sole config w q) (hpos : 0 < needed)
    (hneeded : needed ≤ config.capacity) (hfuel : q.entries.length < fuel) :
    ∃ w', dropUntilAdmitted host needed fuel w = .ok () w' ∧ w'.region.head = w.region.head ∧
      Sole config w' { q with
        entries := trim (BoundedFifo.weight config) (config.capacity - needed) q.entries } := by
  induction fuel generalizing w q with
  | zero => omega
  | succ fuel ih =>
      have hiff := h.admits_iff hpos
      unfold BoundedFifo.occupied at hiff
      rw [PersistentShmChannel.dropUntilAdmitted, Effect.get_bind]
      by_cases hadm : w.chan.admits needed
      · have hle := hiff.1 hadm
        rw [if_pos hadm, trim_of_le (by omega)]
        exact ⟨w, rfl, rfl, h⟩
      · rw [if_neg hadm]
        have hroom : ¬ load (BoundedFifo.weight config) q.entries + needed ≤ config.capacity :=
          fun hle => hadm (hiff.2 hle)
        cases hq : q.entries with
        | nil =>
            rw [hq, load_nil] at hroom
            omega
        | cons message messages =>
            rw [hq] at hfuel hroom
            rw [List.length_cons] at hfuel
            obtain ⟨w', hdrop, hhead, hnext⟩ := h.dropOldest host hq
            obtain ⟨w'', hloop, hhead', hdone⟩ :=
              ih hnext (show messages.length < fuel by omega)
            refine ⟨w'', (Effect.bind_ok hdrop).trans hloop, hhead'.trans hhead, ?_⟩
            rwa [trim_cons_of_gt (by omega)]

/-! ## The calls -/

/-- A call does what the queue says. -/
def Agrees (config : SpscConfig) (result : Answer × BoundedFifo) (result' : Answer × World) :
    Prop :=
  result'.1 = result.1 ∧ Sole config result'.2 result.2

omit [Checksum] in
theorem answer_ok {α : Type} {x : ChannelM α} {f : α → Option ReceivedMessage} {a : α} {w' : World}
    (h : x w = .ok a w') : call.answer (f <$> x) w = (.ok (f a), w') := by
  simp only [call.answer, Effect.map_ok h, Effect.outcome_ok, Effect.final_ok]

omit [Checksum] in
theorem answer_error {α : Type} {x : ChannelM α} {f : α → Option ReceivedMessage} {err : Failure}
    {w' : World} (h : x w = .error err w') : call.answer (f <$> x) w = (.error err, w') := by
  simp only [call.answer, Effect.map_error h, Effect.outcome_error, Effect.final_error]

/-- **Sending is the queue's sending.** -/
theorem send (h : Sole config w q) (host : Host) (hslice : bytes.length ≤ isizeMax)
    (hfits : ∀ plan, w.chan.closed = false → sendPlan w.chan.config bytes.length = .ok plan →
      w.chan.admits plan.neededSlots ∨ w.chan.config.backpressure = .dropOldest →
        FramesFit w.chan.config bytes.length ∧
          w.region.head + plan.neededSlots < wordCount) :
    Agrees config (q.send config bytes)
      (call.answer ((fun _ => none) <$> PersistentShmChannel.send host bytes) w) := by
  unfold BoundedFifo.send
  simp only
  split
  · rename_i hclosed
    have hsend : PersistentShmChannel.send host bytes w = .error (.ofChannel .closed) w := by
      rw [PersistentShmChannel.send, Effect.get_bind, if_pos (h.closed.trans hclosed)]
      rfl
    rw [answer_error hsend]
    exact ⟨rfl, h⟩
  · rename_i hopen
    replace hopen : q.closed = false := Bool.eq_false_iff.2 hopen
    have hs := h.sound hopen
    have hmode : w.chan.config.multiProducer = false := h.geometry ▸ h.mode
    have hdepth : w.region.head - w.region.tail = q.occupied config := by
      rw [h.depth, Nat.add_sub_cancel_left]
    have href := h.refreshed
    rw [← hdepth] at href
    split
    · rename_i hover
      have hplan : sendPlan w.chan.config bytes.length =
          .error (.ofChannel (.messageTooLarge bytes.length (maxMessageSize config))) := by
        rw [h.geometry]
        exact sendPlan_oversize h.space h.pos hslice hover
      rw [answer_error (send_unplanned host hs hmode hplan)]
      exact ⟨rfl, href⟩
    · rename_i hfit
      obtain ⟨plan, hplan, hslots⟩ := sendPlan_fits h.space h.pos hslice hfit
      have hpos := neededSlots_pos hplan
      have hmost := neededSlots_le h.pos hplan
      have hplan' : sendPlan w.chan.config bytes.length = .ok plan := h.geometry ▸ hplan
      have hstart : PersistentShmChannel.send host bytes w = _ := send_start hs hmode
      rw [hplan'] at hstart
      have hiff := href.admits_iff hpos
      rw [← hslots]
      split
      · rename_i hroom
        obtain ⟨hframes, hword⟩ := hfits plan (h.closed.trans hopen) hplan'
          (.inl ((h.admits_iff hpos).2 hroom))
        obtain ⟨w', hrun, hdone⟩ := href.push host hplan hslice (h.geometry ▸ hframes) hword
          hroom (prepareSendSlots_admitted
            (show _ ≤ w.chan.config.capacity by rw [h.geometry]; exact hmost) (hiff.2 hroom))
        rw [answer_ok (hstart.trans hrun)]
        exact ⟨rfl, hdone⟩
      · rename_i hfull
        have hadm := fun hadm => hfull (hiff.1 hadm)
        have hreject (hdrop) : PersistentShmChannel.send host bytes w = _ :=
          send_rejected hs hmode hplan' hadm hdrop
        rw [h.geometry] at hreject
        cases hback : config.backpressure with
        | raise =>
            rw [hback] at hreject
            rw [answer_error (hreject fun h => by cases h)]
            exact ⟨rfl, href⟩
        | block =>
            rw [hback] at hreject
            rw [answer_error (hreject fun h => by cases h)]
            exact ⟨rfl, href⟩
        | dropNewest =>
            rw [hback] at hreject
            rw [answer_ok (hreject fun h => by cases h)]
            exact ⟨rfl, href⟩
        | dropOldest =>
            have hmany : q.entries.length ≤ load (BoundedFifo.weight config) q.entries :=
              length_le_load fun m hm => ShmSpscChannel.weight_pos (h.taken m hm)
            have hbound := h.bounded
            unfold BoundedFifo.occupied at hbound
            obtain ⟨hframes, hword⟩ := hfits plan (h.closed.trans hopen) hplan'
              (.inr (by rw [h.geometry]; exact hback))
            obtain ⟨w₁, hloop, hhead, h₁⟩ := href.dropUntilAdmitted host
              (config.capacity + 1) hpos hmost (by omega)
            have hprep : prepareSendSlots host plan.neededSlots
                (w.refreshed (w.region.head - w.region.tail)) = .ok true w₁ := by
              have hconf : (w.refreshed (w.region.head - w.region.tail)).chan.config = config :=
                h.geometry
              have hcheck : checkSlots plan.neededSlots
                  (w.refreshed (w.region.head - w.region.tail)) = .ok () _ :=
                checkSlots_ok (by rw [hconf]; exact hmost)
              rw [prepareSendSlots, Effect.bind_ok hcheck, Effect.get_bind, if_neg hadm, hconf,
                hback]
              exact (Effect.bind_ok hloop).trans rfl
            have htrim := load_trim_le (BoundedFifo.weight config)
              (config.capacity - plan.neededSlots) q.entries
            obtain ⟨w', hrun, hdone⟩ := h₁.push host hplan hslice (h.geometry ▸ hframes)
              (by rw [hhead]; exact hword)
              (by
                show load _ (trim _ _ q.entries) + plan.neededSlots ≤ config.capacity
                omega) hprep
            rw [answer_ok (hstart.trans hrun)]
            exact ⟨rfl, hdone⟩

/-- The tail slot of an empty queue is FREE. -/
theorem tail_free (h : Sole config w q) (hq : q.entries = []) {i : ℕ} (hi : i < w.region.capacity) :
    w.region.state i = .free := by
  have hl := h.layout
  rw [hq] at hl
  obtain ⟨c, hc1, hc2, rfl⟩ := Window.exists_cursor w.region.tail hi
  exact hl.free c (by simpa using hc1) hc2 fun p hp => (nomatch hp)

/-- **Receiving from an empty queue.** -/
theorem recv_empty (h : Sole config w q) (host : Host) (hq : q.entries = []) :
    recvWithSeq host w = .error (.ofChannel (if q.closed then .closed else .bufferEmpty))
      (w.refreshed (q.occupied config)) := by
  have hocc : q.occupied config = 0 := by rw [BoundedFifo.occupied, hq, load_nil]
  cases hclosed : q.closed with
  | true =>
      have hensure : ensureTailReadable host w =
          .error (.ofChannel .closed) (w.refreshed (q.occupied config)) := by
        rw [ensureTailReadable, Effect.bind_ok (refreshCursors_ok h.cursorLen), Effect.get_bind,
          if_pos ⟨h.closed.trans hclosed, h.refreshed.len.trans hocc⟩]
        rfl
      exact Effect.bind_error hensure
  | false =>
      have hs := h.sound hclosed
      have htail : w.region.tail % w.region.capacity < w.region.capacity := Nat.mod_lt _ hs.pos
      have hfree := h.tail_free hq htail
      have hdepth : w.region.head - w.region.tail = q.occupied config := by
        rw [h.depth, Nat.add_sub_cancel_left]
      rw [← hdepth]
      refine recvWithSeq_empty hs (by rw [hfree]; exact SlotState.noConfusion) ?_
      refine tryReclaimAtTail_none (h.geometry ▸ h.mode) ?_ ?_
      · exact lt_of_eq_of_lt
          (mirrors_refreshed (w.region.head - w.region.tail) hs.capacity).index htail
      · intro i hi identity _ hstate
        have hi : w.region.state i = .free := h.tail_free hq hi
        rcases hstate with hstate | hstate
        · exact absurd (hi.symm.trans hstate) (by decide)
        · exact absurd (hi.symm.trans hstate) (by decide)

/-- **Receiving the oldest message**, closed or not. -/
theorem recv_message (h : Sole config w q) (host : Host) (hq : q.entries = message :: messages) :
    ∃ w', recvWithSeq host w = .ok message w' ∧
      Sole config w' { q with entries := messages, last := some message.seq } := by
  have htaken := h.taken message (hq ▸ List.mem_cons_self)
  obtain ⟨⟨plan, hplan⟩, hslice⟩ := htaken
  have hdel : Delivers message.seq _ _ := delivers_messageFrames hplan h.fits.capacity_lt hslice
  have hslots : BoundedFifo.weight config message = plan.neededSlots := (neededSlots_eq hplan).symm
  have hnum := length_messageFrames message.seq hplan
  have hcontents : q.entries.flatMap (contentsFor config) =
      ((messageFrames plan message.seq message.payload).map (SlotSnapshot.mk message.seq) ++
        messages.flatMap (snapshotsOf config)).map .committed := by
    rw [contents_eq, hq, List.flatMap_cons, snapshotsOf, framesOf_eq _ hplan]
  have hl := h.layout
  have hbound := h.bounded
  have hlen := h.len
  rw [BoundedFifo.occupied, hq, load_cons, hslots] at hlen
  have hpos := neededSlots_pos hplan
  -- The call refreshes its mirrors, which were the words already.
  have href := h.refreshed
  generalize hw : w.refreshed (q.occupied config) = v at href
  have hcur : refreshCursors w = .ok () v := hw ▸ refreshCursors_ok h.cursorLen
  have hregion : v.region = w.region := by rw [← hw]; rfl
  obtain ⟨data, datas, hframes, -⟩ := hdel
  have hshow : v.region.Shows v.chan.tail (.committed ⟨message.seq, data⟩) := by
    rw [hcontents, hframes] at hl
    rw [href.mirrors.index, hregion]
    exact hl.holds.1
  have hensure : ensureTailReadable host w = .ok false v := by
    have hvlen := href.len
    rw [BoundedFifo.occupied, hq, load_cons, hslots] at hvlen
    have hv : ({ v with chan := { v.chan with resyncExpected := false } } : World) = v := by
      obtain ⟨chan, region⟩ := v
      have hres := href.resync
      obtain ⟨⟩ := chan
      simp only at hres
      rw [hres]
    rw [ensureTailReadable, Effect.bind_ok hcur, Effect.get_bind, if_neg fun hc => by omega]
    refine Effect.modify_bind.trans ?_
    rw [href.resync, hv]
    exact (Effect.bind_ok (pollTailCommitted_true hshow.state)).trans rfl
  have hseq : v.chan.expectedRecvSeq = message.seq := by
    have hnumbered := h.numbered
    rw [hq] at hnumbered
    rw [href.expected, hq]
    exact hnumbered.1.symm
  have hcheck : checkSeq false message.seq (v.atFront .pinned) = .ok () (v.atFront .pinned) := by
    have hno : ¬ (¬ (v.atFront .pinned).chan.config.multiProducer = true ∧
        message.seq ≠ (v.atFront .pinned).chan.expectedRecvSeq) := fun hc => hc.2 hseq.symm
    rw [checkSeq, Effect.get_bind, if_neg Bool.false_ne_true, if_neg hno]
    rfl
  have hoff : v.opened.Offers
      ((messageFrames plan message.seq message.payload).map (SlotSnapshot.mk message.seq) ++
        messages.flatMap (snapshotsOf config)) := by
    have hread := readable_append
      ((messageFrames plan message.seq message.payload).map (SlotSnapshot.mk message.seq) ++
        messages.flatMap (snapshotsOf config)) []
    rw [List.append_nil, ← hcontents, show readable [] = [] from rfl, List.append_nil] at hread
    rw [← hread]
    have hm := href.mirrors
    refine Mirrors.offers (w := v.opened) ⟨hm.capacity, hm.head, hm.tail, hm.floor, hm.index⟩
      href.fits.pos rfl ?_ href.layout
    rw [hread]
    have hsize := length_contents h.taken
    rw [hcontents, List.length_map] at hsize
    rw [hsize]
    have hdepth := href.depth
    have hword := href.word
    show v.region.tail + q.occupied config < wordCount
    omega
  refine ⟨(v.consumed (messageFrames plan message.seq message.payload).length).counted
    (v.chan.expectedRecvSeq + 1) (some message.seq), ?_, ?_⟩
  · rw [recvWithSeq, Effect.bind_ok hensure, Effect.bind_ok (readTail_ok hshow)]
    refine (Effect.bind_ok hcheck).trans ?_
    exact finishRecv_delivers_any hoff
      (delivers_messageFrames hplan h.fits.capacity_lt hslice) (by rw [hframes]; rfl)
  · rw [hnum, ← hslots]
    exact href.consume hq _

end Sole

/-- The condition under which the two channels agree: a message that the
guard lets in has frames shorter than `2^32` bytes. The slots used are
counted in a word. -/
def LengthsKept (w : World) : Host × FifoCall → Prop
  | (_, .send bytes) => bytes.length ≤ isizeMax ∧
      ∀ plan, w.chan.closed = false → sendPlan w.chan.config bytes.length = .ok plan →
        w.chan.admits plan.neededSlots ∨ w.chan.config.backpressure = .dropOldest →
          FramesFit w.chan.config bytes.length ∧ w.region.head + plan.neededSlots < wordCount
  | _ => True

instance decidableLengthsKept (w : World) : (op : Host × FifoCall) → Decidable (LengthsKept w op)
  | (_, .send bytes) =>
      match h : sendPlan w.chan.config bytes.length with
      | .error _ => decidable_of_iff (bytes.length ≤ isizeMax) (by simp [LengthsKept, h])
      | .ok plan =>
          decidable_of_iff (bytes.length ≤ isizeMax ∧ (w.chan.closed = false →
            w.chan.admits plan.neededSlots ∨ w.chan.config.backpressure = .dropOldest →
              min bytes.length w.chan.config.slotSize + FRAME_HEADER_LEN < 2 ^ 32 ∧
                w.region.head + plan.neededSlots < wordCount))
            (by simp [LengthsKept, FramesFit, h])
  | (_, .recvWithSeq) | (_, .close) => isTrue trivial

/-- **Every call is the queue's.** -/
theorem Sole.call (h : Sole config w q) {op : Host × FifoCall} (hop : LengthsKept w op) :
    Sole.Agrees config (q.call config op.2) (PersistentShmChannel.call w op) := by
  obtain ⟨host, op⟩ := op
  cases op with
  | send bytes => exact h.send host hop.1 hop.2
  | close =>
      have hclose : PersistentShmChannel.close w = .ok () w.shut := rfl
      unfold BoundedFifo.call PersistentShmChannel.call
      rw [Sole.answer_ok hclose]
      have hm := h.mirrors
      exact ⟨rfl, { h with
        mirrors := ⟨hm.capacity, hm.head, hm.tail, hm.floor, hm.index⟩
        closed := rfl }⟩
  | recvWithSeq =>
      show Sole.Agrees config q.recvWithSeq
        (PersistentShmChannel.call.answer (some <$> recvWithSeq host) w)
      unfold BoundedFifo.recvWithSeq
      cases hq : q.entries with
      | nil =>
          rw [Sole.answer_error (h.recv_empty host hq)]
          exact ⟨rfl, h.refreshed⟩
      | cons message messages =>
          obtain ⟨w', hrun, hdone⟩ := h.recv_message host hq
          rw [Sole.answer_ok hrun]
          exact ⟨rfl, hdone⟩

/-- **A created channel is the empty queue.** -/
theorem sole_create (hcreate : create host config = .ok w)
    (hmode : config.multiProducer = false) : Sole config w .empty := by
  obtain ⟨hchan, hfits, hl, hhead, htail, hfloor⟩ := create_ok hcreate
  obtain ⟨chan, region⟩ := w
  simp only at hchan hfits hl hhead htail hfloor
  subst hchan
  refine ⟨rfl, hmode, hfits, ⟨hfits.capacity.symm, hhead.symm, htail.symm, hfloor.symm, ?_⟩, rfl,
    rfl, hfloor, hl, hhead.trans htail.symm, ?_, ?_, rfl, fun m hm => (nomatch hm), Nat.le_refl 0,
    trivial, rfl, rfl, rfl, rfl⟩
  · show 0 = region.tail % region.capacity
    rw [htail, Nat.zero_mod]
  · show region.head < wordCount
    rw [hhead]
    decide
  · show 0 = region.head % config.capacity
    rw [hhead, Nat.zero_mod]

/-- What a handle reports: `len`, `next_sequence`, `expected_recv_sequence`,
`last_received_sequence`. -/
abbrev Report := ℕ × UInt64 × UInt64 × Option UInt64

def PersistentShmChannel.report (chan : PersistentShmChannel) : Report :=
  (chan.len, chan.nextSeq, chan.expectedRecvSeq, chan.lastReceivedSeq)

def ShmSpscChannel.report (ch : ShmSpscChannel) : Report :=
  (ch.len, ch.nextSeq, ch.expectedRecvSeq, ch.lastReceivedSeq)

open Machine

/-- **The persistent channel agrees with the in-memory channel.** -/
theorem same_channel {ch : ShmSpscChannel} {calls : List (Host × FifoCall)}
    (hcreate : create host config = .ok w) (hnew : ShmSpscChannel.new config = .ok ch)
    (hmode : config.multiProducer = false)
    (hkept : Meets LengthsKept PersistentShmChannel.call w calls) :
    outputs PersistentShmChannel.call w calls = outputs (fun ch op => ch.call op.2) ch calls ∧
      (after PersistentShmChannel.call w calls).chan.report =
        (after (fun ch (op : Host × FifoCall) => ch.call op.2) ch calls).report := by
  -- Both are the queue, and are told apart from it by the same condition.
  have hbis : Bisimilar LengthsKept
      (fun w ch => ∃ q, Sole config w q ∧ ShmSpscChannel.Refines config ch q)
      PersistentShmChannel.call (fun ch op => ch.call op.2) := by
    rintro w ch ⟨host, op⟩ ⟨q, hw, hch⟩ hop
    have hslice : op.IsSlice := by
      cases op with
      | send bytes => exact hop.1
      | recvWithSeq => trivial
      | close => trivial
    have h1 := hw.call hop
    have h2 := hch.call hslice
    exact ⟨h1.1.trans h2.1.symm, _, h1.2, h2.2.1⟩
  have hstart : ∃ q, Sole config w q ∧ ShmSpscChannel.Refines config ch q :=
    ⟨_, sole_create hcreate hmode, ShmSpscChannel.refines_new hnew⟩
  refine ⟨hbis.outputs_eq hkept hstart, ?_⟩
  obtain ⟨q, hw, hch⟩ := hbis.after hkept hstart
  simp only [PersistentShmChannel.report, ShmSpscChannel.report, hw.len, hch.len, hw.nextSeq,
    hch.nextSeq, hw.expected, hch.expected, hw.last, hch.last]

/-- On a ring of three slots: a message of two chunks, then one that wraps,
one for which there is no room, and receives past the close. -/
def hostedCalls : List (Host × FifoCall) :=
  [(sampleHost, .send (List.replicate 86 7)), (sampleHost, .recvWithSeq),
    (sampleHost, .send (List.replicate 86 8)), (sampleHost, .send (List.replicate 86 9)),
    (sampleHost, .send [5]), (sampleHost, .recvWithSeq), (sampleHost, .close),
    (sampleHost, .send [6]), (sampleHost, .recvWithSeq), (sampleHost, .recvWithSeq)]

omit [Checksum] in
theorem same_channel_sample :
    outputs (@PersistentShmChannel.call crc32Checksum) (sampleWorld (sampleConfig 3 85))
        hostedCalls =
      outputs (fun ch (op : Host × FifoCall) => @ShmSpscChannel.call crc32Checksum ch op.2)
        (ShmSpscChannel.fresh (sampleConfig 3 85) ⟨3, 135, Area.zero⟩) hostedCalls :=
  (@same_channel crc32Checksum _ _ sampleHost _ _
    (rfl : create sampleHost (sampleConfig 3 85) = .ok _)
    (rfl : ShmSpscChannel.new (sampleConfig 3 85) = .ok _) rfl (by decide +kernel)).1

/-! ## Frames that are too long -/

variable (host) in
/-- **A frame too long for its slot header is lost**: the send takes it and
the receive does not return it. -/
theorem Sole.lost (h : Sole config w q) (hq : q.entries = []) (hopen : q.closed = false)
    (hplan : sendPlan config bytes.length = .ok plan) (hslice : bytes.length ≤ isizeMax)
    (hsingle : bytes.length ≤ config.slotSize) (hfit : ¬ FramesFit config bytes.length)
    (hword : w.region.head + plan.neededSlots + 1 < wordCount) :
    ∃ answer, outputs PersistentShmChannel.call w [(host, .send bytes), (host, .recvWithSeq)] =
      [.ok none, answer] ∧ answer ≠ .ok (some ⟨w.chan.nextSeq, bytes⟩) := by
  have hs := h.sound hopen
  have hmode : w.chan.config.multiProducer = false := h.geometry ▸ h.mode
  have hpos := neededSlots_pos hplan
  have hmost := neededSlots_le h.pos hplan
  have hocc : q.occupied config = 0 := by rw [BoundedFifo.occupied, hq, load_nil]
  have hl := h.layout
  rw [hq] at hl
  have href := h.refreshed
  rw [show q.occupied config = w.region.head - w.region.tail by
    rw [h.depth, Nat.add_sub_cancel_left]] at href
  have hstart : PersistentShmChannel.send host bytes w = _ := send_start hs hmode
  rw [h.geometry, hplan] at hstart
  obtain ⟨w', hrun, hl', hsent⟩ := sendSpsc_ok host
    (w := w.refreshed (w.region.head - w.region.tail)) hs.capacity hs.pos rfl
    (show sendPlan w.chan.config bytes.length = .ok plan by rw [h.geometry]; exact hplan)
    (show w.chan.config.capacity < 2 ^ 64 by rw [h.geometry]; exact h.fits.capacity_lt) hslice
    (show w.region.frameCapacity = w.chan.config.slotSize + _ by
      rw [h.geometry]; exact h.fits.frameCapacity)
    (prepareSendSlots_admitted (show _ ≤ w.chan.config.capacity by rw [h.geometry]; exact hmost)
      ((href.admits_iff hpos).2 (by rw [hocc]; omega)))
    (show Layout w.region [] [] from hl)
    (by
      show w.chan.head = (w.region.tail + 0) % w.region.capacity
      rw [h.index, h.depth, hocc, h.fits.capacity])
    (by rw [List.length_nil, Nat.zero_add]; exact h.fits.capacity ▸ hmost)
    (fun p hp => by cases hp)
  have hw := hsent.words
  have hsend : PersistentShmChannel.call w (host, .send bytes) = (.ok none, w') :=
    Sole.answer_ok (hstart.trans hrun)
  have hhead : w'.region.head = w.region.head + plan.neededSlots := hw.head
  have htail : w'.region.tail = w.region.tail := hw.tail
  have hdepth := h.depth
  rw [hocc] at hdepth
  have hcap : w'.region.capacity = config.capacity := hw.capacity.trans h.fits.capacity
  have hconf : w'.chan.config = config := hsent.config.trans h.geometry
  have hs' : w'.Sound := ⟨by rw [hconf, hcap], by rw [hcap]; exact h.pos, by omega, by omega,
    by omega, hsent.closed.trans (h.closed.trans hopen)⟩
  obtain ⟨out, hdel, hstuck, hout⟩ := exists_delivers w.chan.nextSeq hplan h.fits.capacity_lt hslice
    (.inl hsingle)
  have hnum := length_messageFrames w.chan.nextSeq hplan
  have hl'' : Layout w'.region (((messageFrames plan w.chan.nextSeq bytes).map stored).map
      (.committed ⟨w.chan.nextSeq, ·⟩) ++ []) [] := by
    rw [List.append_nil, List.map_map]
    exact hl'
  have hseq : w'.chan.resyncExpected = true ∨ w'.chan.config.multiProducer = true ∨
      w'.chan.expectedRecvSeq = w.chan.nextSeq := by
    refine .inr (.inr (hsent.expected.trans ?_))
    show w.chan.expectedRecvSeq = _
    rw [h.expected, h.nextSeq, hq]
    rfl
  have hwords : w'.region.tail + (((messageFrames plan w.chan.nextSeq bytes).map stored).length +
      (readable []).length) < wordCount := by
    rw [List.length_map, hnum, htail]
    show _ + (_ + 0) < _
    omega
  cases out with
  | ok payload =>
      obtain ⟨w'', hrecv, -⟩ := recvWithSeq_ok host hs' hl'' hwords hdel hseq
      have hcall : PersistentShmChannel.call w' (host, .recvWithSeq) =
          (.ok (some ⟨w.chan.nextSeq, payload⟩), w'') := Sole.answer_ok hrecv
      refine ⟨.ok (some ⟨w.chan.nextSeq, payload⟩), by simp only [outputs, hsend, hcall],
        fun he => hfit (hout.1 ?_)⟩
      rw [Except.ok.injEq, Option.some.injEq, ReceivedMessage.mk.injEq] at he
      rw [he.2]
  | error err =>
      obtain ⟨w'', hrecv, -⟩ :=
        recvWithSeq_fails host hs' hl'' hwords hdel (hstuck err rfl) hseq
      have hcall : PersistentShmChannel.call w' (host, .recvWithSeq) = (.error err, w'') :=
        Sole.answer_error hrecv
      exact ⟨.error err, by simp only [outputs, hsend, hcall], fun he => by cases he⟩

/-- The in-memory channel returns such a message, so the two differ. -/
theorem differs_of_long {ch : ShmSpscChannel} (hcreate : create host config = .ok w)
    (hnew : ShmSpscChannel.new config = .ok ch) (hmode : config.multiProducer = false)
    (hslice : bytes.length ≤ isizeMax) (hsingle : bytes.length ≤ config.slotSize)
    (hfit : ¬ FramesFit config bytes.length) :
    outputs PersistentShmChannel.call w [(host, .send bytes), (host, .recvWithSeq)] ≠
      outputs (fun ch op => ch.call op.2) ch [(host, .send bytes), (host, .recvWithSeq)] := by
  have hsole := sole_create hcreate hmode
  have hfifo := ShmSpscChannel.refines_new hnew
  have hplan : sendPlan config bytes.length = .ok ⟨config.slotSize, 1⟩ := by
    rw [sendPlan, if_pos hsingle]
  have hslots : slotsFor config.slotSize bytes.length = 1 := if_pos hsingle
  have hhead : w.region.head = 0 := (create_ok hcreate).2.2.2.1
  obtain ⟨answer, hlost, hne⟩ := hsole.lost host rfl rfl hplan hslice hsingle hfit
    (by
      rw [hhead]
      show 0 + 1 + 1 < wordCount
      decide)
  have hqueue : BoundedFifo.empty.send config bytes = (.ok none, BoundedFifo.empty.push bytes) :=
    BoundedFifo.send_room rfl (fun h => Nat.not_le.2 h.1 hsingle) (by
      have hpos := hsole.pos
      rw [hslots]
      show 0 + 1 ≤ _
      omega)
  have hsent := hfifo.send hslice
  rw [hqueue] at hsent
  have hgot := hsent.2.1.recvWithSeq
  intro heq
  rw [hlost] at heq
  obtain ⟨-, hrest⟩ := List.cons.inj heq
  obtain ⟨hanswer, -⟩ := List.cons.inj hrest
  refine hne (hanswer.trans (hgot.1.trans ?_))
  rw [hsole.nextSeq]
  rfl

omit [Checksum] in
/-- A slot that holds 4 GiB: the in-memory channel returns the message, the
persistent one does not. -/
theorem same_channel_truncated :
    outputs (@PersistentShmChannel.call crc32Checksum) (sampleWorld (sampleConfig 1 (2 ^ 32)))
        [(sampleHost, .send (List.replicate (2 ^ 32) 0)), (sampleHost, .recvWithSeq)] ≠
      outputs (fun ch (op : Host × FifoCall) => @ShmSpscChannel.call crc32Checksum ch op.2)
        (ShmSpscChannel.fresh (sampleConfig 1 (2 ^ 32)) ⟨1, 2 ^ 32 + 50, Area.zero⟩)
        [(sampleHost, .send (List.replicate (2 ^ 32) 0)), (sampleHost, .recvWithSeq)] := by
  have hlen : (List.replicate (2 ^ 32) (0 : UInt8)).length = 2 ^ 32 := List.length_replicate
  refine @differs_of_long crc32Checksum _ _ _ sampleHost _
    (rfl : create sampleHost (sampleConfig 1 (2 ^ 32)) = .ok _)
    (rfl : ShmSpscChannel.new (sampleConfig 1 (2 ^ 32)) = .ok _) rfl ?_ ?_ ?_
  · rw [hlen]
    decide
  · rw [hlen]
    decide
  · rw [hlen]
    show ¬ min (2 ^ 32) (2 ^ 32) + FRAME_HEADER_LEN < 2 ^ 32
    decide

end Dsline
