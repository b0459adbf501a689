import Dsline.Core.FrameFormat
import Dsline.Shm.Backend
import Dsline.Shm.TryRecv
/-!
# Receiving from damaged memory

`recv_with_seq` and `recv_view` over arbitrary slots, with everything that
could panic: the reassembly buffer is allocated before any other chunk is
looked at, for as many bytes as the first chunk announces, and a
multi-producer reclaim adds its extent to the tail cursor. The length of the
frame header in place is checked by the range check of the mapping.
-/

namespace Dsline

open PersistentShmChannel Effect

/-! ## Calls with their traps -/

section

variable [Checksum] {σ : Type}

/-- `recv_chunked_message` where the host grants no buffer of more than
`grant` bytes. -/
def recvChunkedMessageGranting (grant : ℕ) (ops : TailOps σ) (seq : UInt64) (firstFrame : Frame) :
    EStateM Failure σ Bytes :=
  match chunkInfo firstFrame with
  | .error err => do
      ops.releasePinned
      throw err
  | .ok first =>
      if first.index ≠ 0 then do
        ops.releasePinned
        throw (.ofChannel .corruptedMessage)
      else if grant < first.messageLen then throw .panic
      else do
        ops.advanceTailAfterRead
        recvChunks ops seq first (first.total - 1) 1 firstFrame.payload

/-- `finish_recv` over a way to reassemble. -/
def finishRecvVia (chunked : UInt64 → Frame → EStateM Failure σ Bytes) (ops : TailOps σ)
    (snapshot : SlotSnapshot) : EStateM Failure σ ReceivedMessage :=
  match decodeFrame snapshot.data with
  | .error err => skipDamaged ops err
  | .ok frame =>
      match validateBytesFrame frame with
      | .error err => skipDamaged ops err
      | .ok () =>
          if snapshot.seq ≠ frame.header.seq then
            skipDamaged ops (.ofChannel (.sequenceMismatch snapshot.seq frame.header.seq))
          else do
            let payload ←
              if isChunked frame then chunked snapshot.seq frame
              else do
                ops.advanceTailAfterRead
                pure frame.payload
            ops.bumpExpected
            ops.setLastReceived frame.header.seq
            return { seq := frame.header.seq, payload }

/-- The receive of the model grants what an address space can hold. -/
theorem finishRecv_eq (ops : TailOps σ) (snapshot : SlotSnapshot) :
    finishRecv ops snapshot =
      finishRecvVia (recvChunkedMessageGranting isizeMax ops) ops snapshot := rfl

end

namespace PersistentShmChannel

/-- `try_reclaim_at_tail_mpsc` with its addition of machine words. -/
def tryReclaimAtTailMpscTrapping (host : Host) : ChannelM ℕ := do
  let w ← get
  match reclaimExtent host w with
  | none => return 0
  | some extent =>
      modifyRegion (releaseExtent extent w.chan.tail)
      if wordCount ≤ w.chan.tailCursor + extent then
        throw .panic
      let (region, ok) := (← get).region.compareExchangeTail w.chan.tailCursor
        (w.chan.tailCursor + extent)
      modifyRegion fun _ => region
      if ¬ ok then
        return 0
      modifyChan fun c =>
        { c with
          tailCursor := w.chan.tailCursor + extent
          tail := (w.chan.tailCursor + extent) % c.config.capacity
          reclaimedSlots := c.reclaimedSlots + extent
          resyncExpected := true
          len := c.len - extent }
      return extent

/-- `try_reclaim_at_tail`. -/
def tryReclaimAtTailTrapping (host : Host) : ChannelM ℕ := do
  if (← get).chan.config.multiProducer then tryReclaimAtTailMpscTrapping host
  else tryReclaimAtTailSpsc host

/-- `ensure_tail_readable` over a way to reclaim. -/
def ensureTailReadableVia (reclaim : ChannelM ℕ) : ChannelM Bool := do
  refreshCursors
  let w ← get
  if w.chan.closed ∧ w.chan.len = 0 then
    throw (.ofChannel .closed)
  let resync := w.chan.resyncExpected
  modifyChan fun c => { c with resyncExpected := false }
  if ← pollTailCommitted then
    return resync
  if (← reclaim) = 0 then
    modifyChan fun c => { c with resyncExpected := resync }
    throw (.ofChannel .bufferEmpty)
  if ← tailCommitted then
    return resync
  throw (.ofChannel .bufferEmpty)

theorem ensureTailReadable_eq (host : Host) :
    ensureTailReadable host = ensureTailReadableVia (tryReclaimAtTail host) := rfl

variable [Checksum]

/-- `recv_with_seq`. -/
def recvWithSeqTrapping (grant : ℕ) (host : Host) : ChannelM ReceivedMessage := do
  let resync ← ensureTailReadableVia (tryReclaimAtTailTrapping host)
  let snapshot ← readTail
  checkSeq resync snapshot.seq
  finishRecvVia (recvChunkedMessageGranting grant tailOps) tailOps snapshot

/-- What `recv_view` does at a readable tail of a mapping. -/
def viewTailMapped (storage : SlotStorage) (host : Host) (resync : Bool) :
    ChannelM ShmRecvView := do
  let w ← get
  let slot := w.region.slots w.chan.tail
  let frameLen := w.region.payloadLen w.chan.tail
  let frameOffset := regionSlotOffset w.chan.tail storage.slotSize + PERSISTENT_SLOT_HEADER_LEN
  if frameLen < FRAME_HEADER_LEN then
    throw (.ofChannel .corruptedMessage)
  ofExcept (storage.validateRange ⟨frameOffset, FRAME_HEADER_LEN⟩)
  let (header, _) ← ofExcept (decodeFrameHeader (slot.payload.read 0 FRAME_HEADER_LEN))
  ofExcept (checkViewHeader header slot.header.seq)
  checkSeq resync slot.header.seq
  if header.payloadLen.toNat ≠ frameLen - FRAME_HEADER_LEN then
    throw (.ofChannel .corruptedMessage)
  ofExcept (storage.validateRange ⟨frameOffset + FRAME_HEADER_LEN, header.payloadLen.toNat⟩)
  ofExcept (checkViewPayload header frameLen slot.payload)
  pinTail host slot.header.seq frameLen header.payloadLen.toNat

/-- `recv_view`. -/
def recvViewTrapping (storage : SlotStorage) (host : Host) : ChannelM ShmRecvView := do
  if (← get).chan.config.backpressure = .dropOldest then
    throw (.ofChannel (.invalidConfig
      "zero-copy views are incompatible with DropOldest: the drop may free a pinned slot"))
  let resync ← ensureTailReadableVia (tryReclaimAtTailTrapping host)
  viewTailMapped storage host resync

end PersistentShmChannel

/-! ## What can go wrong -/

namespace World

/-- The handle reclaims a dead reservation at the tail. -/
def ReclaimsExtent (host : Host) (w : World) (d extent : ℕ) : Prop :=
  cursorLen w.chan.config.capacity w.region.head w.region.tail = some d ∧
    ¬ ClosedEmpty (w.refreshed d) ∧ ¬ AtCommitted (w.refreshed d) ∧ w.chan.closed = false ∧
      w.chan.config.multiProducer = true ∧ reclaimExtent host (w.refreshed d) = some extent

/-- A dead reservation at the tail ends beyond the last cursor. -/
def Overruns (host : Host) (w : World) : Prop :=
  ∃ d extent, w.ReclaimsExtent host d extent ∧ wordCount ≤ w.region.tail + extent

/-- The receive finds the slot to read at the tail: of this world, or of the
one behind a dead reservation. -/
def Reads (host : Host) (w v : World) : Prop :=
  (∃ d, cursorLen w.chan.config.capacity w.region.head w.region.tail = some d ∧
    ¬ ClosedEmpty (w.refreshed d) ∧ AtCommitted (w.refreshed d) ∧ v = (w.refreshed d).unsynced) ∨
  ∃ d extent, w.ReclaimsExtent host d extent ∧ v = (w.refreshed d).extentFreed extent ∧
    AtCommitted v

variable [Checksum]

/-- **The message at the tail announces more than `bound` bytes**: its first
chunk is intact, and the handle takes its sequence. -/
def Announces (host : Host) (w : World) (bound : ℕ) : Prop :=
  ∃ v, w.Reads host v ∧ ∃ snapshot frame first,
    v.region.Shows v.chan.tail (.committed snapshot) ∧ w.Expects snapshot.seq ∧
    decodeFrame snapshot.data = .ok frame ∧ validateBytesFrame frame = .ok () ∧
    snapshot.seq = frame.header.seq ∧ isChunked frame = true ∧ chunkInfo frame = .ok first ∧
    first.index = 0 ∧ bound < first.messageLen

/-- **Receives return**: no panic, and no buffer of more than the frames of
the region can hold. -/
def ReceivesSafely (host : Host) (storage : SlotStorage) (w : World) : Prop :=
  outcome (recvWithSeqTrapping (w.region.capacity * w.region.frameCapacity) host w) ≠
      .error .panic ∧
    outcome (recvViewTrapping storage host w) ≠ .error .panic

end World

namespace PersistentShmChannel

open World

variable {host : Host} {w v : World} {extent d grant : ℕ}

/-- A call that does not panic. -/
abbrev NoPanic {α : Type} (x : ChannelM α) : Prop := FailsOnly (· ≠ Failure.panic) x

theorem noPanic_ofExcept {α : Type} {x : Except Failure α} (h : x ≠ .error .panic) :
    NoPanic (ofExcept x) := by
  cases x with
  | ok a => exact failsOnly_pure a
  | error err => exact failsOnly_throw fun he => h (congrArg Except.error he)

theorem noPanic_pollTailCommitted : NoPanic pollTailCommitted := by
  intro s e s' h
  rw [pollTailCommitted, pollTailCommittedFor_succ] at h
  split at h
  · cases h
  · split at h
    · cases h
      exact fun he => by cases he
    · cases h

theorem noPanic_onRegion {α : Type} {op : RegionM α} (h : FailsOnly (· ≠ Failure.panic) op) :
    NoPanic (onRegion op) := by
  intro s e s' he
  unfold onRegion at he
  split at he
  · cases he
  · rename_i heq
    cases he
    exact h _ _ _ heq

theorem noPanic_readTail : NoPanic readTail := by
  refine FailsOnly.bind failsOnly_get fun w => noPanic_onRegion ?_
  refine FailsOnly.bind (FailsOnly.bind failsOnly_get fun region => ?_) fun snapshot =>
    FailsOnly.bind failsOnly_modify fun _ => failsOnly_pure _
  split
  · exact failsOnly_throw fun he => nomatch he
  dsimp only
  split
  · exact failsOnly_throw fun he => nomatch he
  · exact failsOnly_pure _

theorem noPanic_releasePinned : NoPanic tailOps.releasePinned := by
  refine FailsOnly.bind failsOnly_get fun w => noPanic_onRegion ?_
  refine FailsOnly.bind failsOnly_get fun region => ?_
  split
  · exact failsOnly_throw fun he => nomatch he
  · exact fun _ _ _ h => nomatch h

theorem noPanic_advance (releaseSlot : Bool) : NoPanic (advanceTailImpl releaseSlot) := by
  refine FailsOnly.bind failsOnly_get fun w => ?_
  have hrest : NoPanic (modifyChan stepTail >>= fun _ =>
      modify fun w : World => { w with region := w.region.fetchMaxTail w.chan.tailCursor }) :=
    FailsOnly.bind failsOnly_modify fun _ => failsOnly_modify
  split
  · refine FailsOnly.bind (noPanic_onRegion (FailsOnly.bind failsOnly_get fun region => ?_))
      fun _ => hrest
    split
    · exact failsOnly_throw fun he => nomatch he
    · exact fun _ _ _ h => nomatch h
  · exact hrest

/-- The receive steps do not panic. -/
theorem noPanic_tailOps : TailHas (fun x => NoPanic x) tailOps where
  readNext := by
    refine FailsOnly.bind noPanic_pollTailCommitted fun committed => ?_
    split
    · exact noPanic_readTail
    · exact failsOnly_throw fun he => nomatch he
  releasePinned := noPanic_releasePinned
  advance := noPanic_advance true
  bumpExpected := failsOnly_modify
  setLastReceived _ := failsOnly_modify

theorem noPanic_checkSeq (resync : Bool) (seq : UInt64) : NoPanic (checkSeq resync seq) := by
  refine FailsOnly.bind failsOnly_get fun w => ?_
  split
  · exact failsOnly_modify
  split
  · exact failsOnly_throw fun he => nomatch he
  · exact failsOnly_pure _

/-! ## Checks of a frame -/

variable {frame : Frame} {seq : UInt64} {first : ChunkInfo} {snapshot : SlotSnapshot}

theorem bind_no_panic {α β : Type} {x : Except Failure α} {f : α → Except Failure β}
    (hx : x ≠ .error .panic) (hf : ∀ a, f a ≠ .error .panic) : (x >>= f) ≠ .error .panic := by
  cases x with
  | ok a => exact hf a
  | error err => exact fun h => hx (congrArg Except.error (Except.error.inj h))

theorem metadataUsize_no_panic (ty : UInt16) : metadataUsize frame ty ≠ .error .panic := by
  unfold metadataUsize
  split
  · exact fun h => nomatch h
  · split <;> exact fun h => nomatch h

theorem chunkInfo_no_panic : chunkInfo frame ≠ .error .panic := by
  refine bind_no_panic (metadataUsize_no_panic _) fun index => ?_
  refine bind_no_panic (metadataUsize_no_panic _) fun total => ?_
  refine bind_no_panic (metadataUsize_no_panic _) fun messageLen => ?_
  split <;> exact fun h => nomatch h

variable [Checksum]

theorem validateBytesFrame_no_panic : validateBytesFrame frame ≠ .error .panic := by
  unfold validateBytesFrame
  split <;> exact fun h => nomatch h

theorem validateChunk_no_panic : validateChunk frame seq first ≠ .error .panic := by
  refine bind_no_panic validateBytesFrame_no_panic fun _ => ?_
  split
  · exact fun h => nomatch h
  refine bind_no_panic chunkInfo_no_panic fun info => ?_
  split
  · exact fun h => nomatch h
  dsimp only
  split <;> exact fun h => nomatch h

/-! ## The reassembly -/

theorem noPanic_recvChunks {remaining : ℕ} : ∀ {index : ℕ} {payload : Bytes},
    NoPanic (recvChunks tailOps seq first remaining index payload) := by
  have hrefuse {err : Failure} (herr : err ≠ .panic) :
      NoPanic (tailOps.releasePinned >>= fun _ => throw err : ChannelM Bytes) :=
    noPanic_releasePinned.bind fun _ => failsOnly_throw herr
  induction remaining with
  | zero =>
      intro index payload
      unfold recvChunks
      split
      · exact failsOnly_throw fun he => by cases he
      · exact failsOnly_pure _
  | succ remaining ih =>
      intro index payload
      unfold recvChunks
      refine noPanic_tailOps.readNext.bind fun snapshot => ?_
      split
      · exact hrefuse fun he => by cases he
      split
      · rename_i err hdec
        exact hrefuse fun he => decodeFrame_no_panic (he ▸ hdec)
      split
      · rename_i err hval
        exact hrefuse fun he => validateChunk_no_panic (he ▸ hval)
      · exact noPanic_tailOps.advance.bind fun _ => ih

/-- **A reassembly does not panic** where its buffer is granted. -/
theorem noPanic_recvChunkedMessage
    (h : ∀ first, chunkInfo frame = .ok first → first.index = 0 → first.messageLen ≤ grant) :
    NoPanic (recvChunkedMessageGranting grant tailOps seq frame) := by
  have hrefuse {err : Failure} (herr : err ≠ .panic) :
      NoPanic (tailOps.releasePinned >>= fun _ => throw err : ChannelM Bytes) :=
    noPanic_releasePinned.bind fun _ => failsOnly_throw herr
  unfold recvChunkedMessageGranting
  split
  · rename_i err hinfo
    exact hrefuse fun he => chunkInfo_no_panic (he ▸ hinfo)
  rename_i first hinfo
  split
  · exact hrefuse fun he => nomatch he
  rename_i hindex
  rw [if_neg (Nat.not_lt.2 (h first hinfo (not_not.1 hindex)))]
  exact noPanic_tailOps.advance.bind fun _ => noPanic_recvChunks

/-- The frame at the tail, if it is the intact first chunk of a message,
announces no more than is granted. -/
def Granted (grant : ℕ) (snapshot : SlotSnapshot) : Prop :=
  ∀ frame first, decodeFrame snapshot.data = .ok frame → validateBytesFrame frame = .ok () →
    snapshot.seq = frame.header.seq → isChunked frame = true → chunkInfo frame = .ok first →
      first.index = 0 → first.messageLen ≤ grant

/-- **A receive does not panic on its frame** where the buffer is granted. -/
theorem noPanic_finishRecv (h : Granted grant snapshot) :
    NoPanic (finishRecvVia (recvChunkedMessageGranting grant tailOps) tailOps snapshot) := by
  have hskip {err : Failure} (herr : err ≠ .panic) :
      NoPanic (skipDamaged tailOps err : ChannelM ReceivedMessage) :=
    noPanic_tailOps.advance.bind fun _ => noPanic_tailOps.bumpExpected.bind fun _ =>
      failsOnly_throw herr
  have hcomplete (seq : UInt64) (payload : Bytes) :
      NoPanic (tailOps.bumpExpected >>= fun _ => tailOps.setLastReceived seq >>= fun _ =>
        pure { seq, payload : ReceivedMessage }) :=
    noPanic_tailOps.bumpExpected.bind fun _ =>
      (noPanic_tailOps.setLastReceived seq).bind fun _ => failsOnly_pure _
  unfold finishRecvVia
  split
  · rename_i err hdec
    exact hskip fun he => decodeFrame_no_panic (he ▸ hdec)
  rename_i frame hdec
  split
  · rename_i err hval
    exact hskip fun he => validateBytesFrame_no_panic (he ▸ hval)
  rename_i hval
  split
  · exact hskip fun he => nomatch he
  rename_i hseq
  split
  · rename_i hchunk
    refine FailsOnly.bind (noPanic_recvChunkedMessage fun first hinfo hindex => ?_)
      fun _ => hcomplete _ _
    exact h frame first hdec hval (not_not.1 hseq) hchunk hinfo hindex
  · exact noPanic_tailOps.advance.bind fun _ => FailsOnly.bind (failsOnly_pure _) fun _ =>
      hcomplete _ _

/-- A first chunk that announces more panics, before anything changes. -/
theorem finishRecv_panics (hdec : decodeFrame snapshot.data = .ok frame)
    (hval : validateBytesFrame frame = .ok ()) (hseq : snapshot.seq = frame.header.seq)
    (hchunk : isChunked frame = true) (hinfo : chunkInfo frame = .ok first)
    (hindex : first.index = 0) (hlen : grant < first.messageLen) :
    finishRecvVia (recvChunkedMessageGranting grant tailOps) tailOps snapshot w =
      .error .panic w := by
  have hpanic : recvChunkedMessageGranting grant tailOps snapshot.seq frame w =
      .error .panic w := by
    simp only [recvChunkedMessageGranting, hinfo, hindex, ne_eq, not_true_eq_false, if_false,
      if_pos hlen]
    rfl
  simp only [finishRecvVia, hdec, hval, ← hseq, ne_eq, not_true_eq_false, if_false, hchunk, if_true]
  exact bind_error hpanic

/-! ## The gate -/

omit [Checksum] in
/-- A reclaim whose sum fits is the reclaim of the model. -/
theorem tryReclaimAtTailTrapping_eq (h : ∀ extent, w.chan.config.multiProducer = true →
    reclaimExtent host w = some extent → w.chan.tailCursor + extent < wordCount) :
    tryReclaimAtTailTrapping host w = tryReclaimAtTail host w := by
  rw [tryReclaimAtTailTrapping, tryReclaimAtTail, get_bind, get_bind]
  cases hmode : w.chan.config.multiProducer with
  | false => rfl
  | true =>
      rw [if_pos rfl, if_pos rfl, tryReclaimAtTailMpscTrapping, tryReclaimAtTailMpsc, get_bind,
        get_bind]
      cases hext : reclaimExtent host w with
      | none => rfl
      | some extent =>
          simp only
          rw [if_neg (Nat.not_le.2 (h extent hmode hext))]

omit [Checksum] in
/-- A reclaim whose sum does not fit panics. -/
theorem tryReclaimAtTailTrapping_panics (hmode : w.chan.config.multiProducer = true)
    (hext : reclaimExtent host w = some extent) (h : wordCount ≤ w.chan.tailCursor + extent) :
    ∃ w', tryReclaimAtTailTrapping host w = .error .panic w' := by
  rw [tryReclaimAtTailTrapping, get_bind, if_pos hmode, tryReclaimAtTailMpscTrapping, get_bind,
    hext]
  simp only
  rw [if_pos h]
  exact ⟨_, rfl⟩

omit [Checksum] in
/-- The gate up to its reclaim. -/
theorem ensureTailReadableVia_cases (reclaim : ChannelM ℕ)
    (hd : cursorLen w.chan.config.capacity w.region.head w.region.tail = some d) :
    ensureTailReadableVia reclaim w =
      if ClosedEmpty (w.refreshed d) then .error (.ofChannel .closed) (w.refreshed d)
      else if AtCommitted (w.refreshed d) then
        .ok w.chan.resyncExpected (w.refreshed d).unsynced
      else if w.chan.closed then .error (.ofChannel .closed) (w.refreshed d).unsynced
      else (reclaim >>= fun freed => do
        if freed = 0 then
          modifyChan fun c => { c with resyncExpected := w.chan.resyncExpected }
          throw (.ofChannel .bufferEmpty)
        if ← tailCommitted then
          return w.chan.resyncExpected
        throw (.ofChannel .bufferEmpty) : ChannelM Bool) (w.refreshed d).unsynced := by
  rw [ensureTailReadableVia, bind_ok (refreshCursors_ok hd), get_bind]
  by_cases hclosed : ClosedEmpty (w.refreshed d)
  · rw [if_pos hclosed, if_pos hclosed]
    rfl
  rw [if_neg hclosed, if_neg hclosed]
  have hpoll : pollTailCommitted (w.refreshed d).unsynced =
      if AtCommitted (w.refreshed d) then .ok true (w.refreshed d).unsynced
      else if w.chan.closed then .error (.ofChannel .closed) (w.refreshed d).unsynced
      else .ok false (w.refreshed d).unsynced := pollTailCommittedFor_succ
  by_cases hstate : AtCommitted (w.refreshed d)
  · rw [if_pos hstate] at hpoll ⊢
    exact (bind_ok hpoll).trans rfl
  rw [if_neg hstate] at hpoll ⊢
  cases hopen : w.chan.closed with
  | true =>
      rw [hopen, if_pos rfl] at hpoll
      rw [if_pos rfl]
      exact (bind_error hpoll).trans rfl
  | false =>
      rw [hopen] at hpoll
      rw [if_neg Bool.false_ne_true] at hpoll ⊢
      exact (bind_ok hpoll).trans rfl

omit [Checksum] in
/-- **The gate is that of the model** where no sum overruns. -/
theorem gate_eq (h : ¬ w.Overruns host) :
    ensureTailReadableVia (tryReclaimAtTailTrapping host) w = ensureTailReadable host w := by
  rw [ensureTailReadable_eq]
  cases hd : cursorLen w.chan.config.capacity w.region.head w.region.tail with
  | none =>
      rw [ensureTailReadableVia, ensureTailReadableVia, bind_error (refreshCursors_none hd),
        bind_error (refreshCursors_none hd)]
  | some d =>
      rw [ensureTailReadableVia_cases _ hd, ensureTailReadableVia_cases _ hd]
      split
      · rfl
      rename_i hempty
      split
      · rfl
      rename_i hstate
      split
      · rfl
      rename_i hopen
      have hreclaim : tryReclaimAtTailTrapping host (w.refreshed d).unsynced =
          tryReclaimAtTail host (w.refreshed d).unsynced := by
        refine tryReclaimAtTailTrapping_eq fun extent hmode hext => Nat.lt_of_not_le fun hle => ?_
        exact h ⟨d, extent, ⟨hd, hempty, hstate, Bool.eq_false_of_not_eq_true hopen, hmode, hext⟩,
          hle⟩
      cases hr : tryReclaimAtTail host (w.refreshed d).unsynced with
      | ok freed v => rw [bind_ok (hreclaim.trans hr), bind_ok hr]
      | error err v => rw [bind_error (hreclaim.trans hr), bind_error hr]

omit [Checksum] in
theorem gate_panics (h : w.Overruns host) :
    ∃ w', ensureTailReadableVia (tryReclaimAtTailTrapping host) w = .error .panic w' := by
  obtain ⟨d, extent, ⟨hd, hempty, hstate, hopen, hmode, hext⟩, hle⟩ := h
  obtain ⟨w', hpanic⟩ : ∃ w', tryReclaimAtTailTrapping host (w.refreshed d).unsynced =
      .error .panic w' := tryReclaimAtTailTrapping_panics hmode hext hle
  rw [ensureTailReadableVia_cases _ hd, if_neg hempty, if_neg hstate, hopen,
    if_neg Bool.false_ne_true, bind_error hpanic]
  exact ⟨w', rfl⟩

omit [Checksum] in
/-- What a receive reads, where a refresh finds `d` slots. -/
theorem reads_iff (hd : cursorLen w.chan.config.capacity w.region.head w.region.tail = some d) :
    w.Reads host v ↔
      (¬ ClosedEmpty (w.refreshed d) ∧ AtCommitted (w.refreshed d) ∧
        v = (w.refreshed d).unsynced) ∨
      ∃ extent, w.ReclaimsExtent host d extent ∧ v = (w.refreshed d).extentFreed extent ∧
        AtCommitted v := by
  constructor
  · rintro (⟨d', hd', h⟩ | ⟨d', extent, h, hrest⟩)
    · cases hd.symm.trans hd'
      exact .inl h
    · cases hd.symm.trans h.1
      exact .inr ⟨extent, h, hrest⟩
  · rintro (h | ⟨extent, h⟩)
    · exact .inl ⟨d, hd, h⟩
    · exact .inr ⟨d, extent, h⟩

omit [Checksum] in
/-- **What the gate lets through**: it fails, without a panic, on a world that
offers no slot to read, or leaves the world the slot is read in. -/
theorem gate_cases (host : Host) (w : World) :
    (∃ err w', ensureTailReadable host w = .error err w' ∧ err ≠ .panic ∧
      ∀ v, ¬ w.Reads host v) ∨
    ∃ v, ensureTailReadable host w = .ok w.chan.resyncExpected v ∧
      (∀ v', w.Reads host v' ↔ v' = v) ∧
      v.chan.config = w.chan.config ∧ v.chan.expectedRecvSeq = w.chan.expectedRecvSeq := by
  cases hd : cursorLen w.chan.config.capacity w.region.head w.region.tail with
  | none =>
      left
      have hgate : ensureTailReadable host w = .error inconsistentCursors _ :=
        bind_error (refreshCursors_none hd)
      refine ⟨_, _, hgate, (fun he => nomatch he), ?_⟩
      · rintro v (⟨d, hd', -⟩ | ⟨d, extent, ⟨hd', -⟩, -⟩)
        · exact nomatch hd.symm.trans hd'
        · exact nomatch hd.symm.trans hd'
  | some d =>
      simp only [reads_iff hd]
      have hcurrent := current_refreshed hd
      -- Without an extent to free, only a COMMITTED tail slot is read.
      have hnone (hno : ∀ extent, ¬ w.ReclaimsExtent host d extent)
          (hfirst : ¬ (¬ ClosedEmpty (w.refreshed d) ∧ AtCommitted (w.refreshed d))) (v : World) :
          ¬ ((¬ ClosedEmpty (w.refreshed d) ∧ AtCommitted (w.refreshed d) ∧
              v = (w.refreshed d).unsynced) ∨
            ∃ extent, w.ReclaimsExtent host d extent ∧ v = (w.refreshed d).extentFreed extent ∧
              AtCommitted v) := by
        rintro (⟨hempty, hstate, -⟩ | ⟨extent, h, -⟩)
        · exact hfirst ⟨hempty, hstate⟩
        · exact hno extent h
      by_cases hext : ∃ extent, w.ReclaimsExtent host d extent
      · obtain ⟨extent, h⟩ := hext
        obtain ⟨-, hempty, hstate, hopen, hmode, hextent⟩ := id h
        have hcases := ensureTailReadable_cases hd (reclaims_extent hmode hcurrent hextent)
        rw [if_neg hempty, if_neg hstate, hopen, if_neg Bool.false_ne_true,
          if_neg (Nat.ne_of_gt (reclaimExtent_window hextent).1)] at hcases
        by_cases hafter : AtCommitted ((w.refreshed d).extentFreed extent)
        · rw [if_pos hafter] at hcases
          refine .inr ⟨_, hcases, fun v' => ?_, rfl, rfl⟩
          constructor
          · rintro (⟨-, hstate', -⟩ | ⟨extent', h', hv, -⟩)
            · exact absurd hstate' hstate
            · cases hextent.symm.trans h'.2.2.2.2.2
              exact hv
          · rintro rfl
            exact .inr ⟨extent, h, rfl, hafter⟩
        · rw [if_neg hafter] at hcases
          refine .inl ⟨_, _, hcases, (fun he => nomatch he), ?_⟩
          rintro v (⟨-, hstate', -⟩ | ⟨extent', h', rfl, hv⟩)
          · exact hstate hstate'
          · cases hextent.symm.trans h'.2.2.2.2.2
            exact hafter hv
      · obtain ⟨freed, w', hrec⟩ := exists_reclaims host hcurrent
        have hno : ∀ extent, ¬ w.ReclaimsExtent host d extent := not_exists.1 hext
        have hcases := ensureTailReadable_cases hd hrec
        by_cases hempty : ClosedEmpty (w.refreshed d)
        · rw [if_pos hempty] at hcases
          exact .inl ⟨_, _, hcases, (fun he => nomatch he), hnone hno fun h => h.1 hempty⟩
        rw [if_neg hempty] at hcases
        by_cases hstate : AtCommitted (w.refreshed d)
        · rw [if_pos hstate] at hcases
          refine .inr ⟨_, hcases, fun v' => ?_, rfl, rfl⟩
          constructor
          · rintro (⟨-, -, hv⟩ | ⟨extent, h, -⟩)
            · exact hv
            · exact absurd h (hno extent)
          · exact fun hv => .inl ⟨hempty, hstate, hv⟩
        rw [if_neg hstate] at hcases
        have hrest := hnone hno fun h => hstate h.2
        split at hcases
        · exact .inl ⟨_, _, hcases, (fun he => nomatch he), hrest⟩
        rename_i hopen
        split at hcases
        · exact .inl ⟨_, _, hcases, (fun he => nomatch he), hrest⟩
        rename_i hpos
        rw [if_neg] at hcases
        · exact .inl ⟨_, _, hcases, (fun he => nomatch he), hrest⟩
        · -- What a reclaim uncovers lies behind an extent.
          intro hafter
          obtain ⟨hmode, extent, hextent, -⟩ := hrec.uncovers.1 ⟨Nat.pos_of_ne_zero hpos, hafter⟩
          exact hno extent ⟨hd, hempty, hstate, Bool.eq_false_of_not_eq_true hopen, hmode, hextent⟩

/-! ## The receives -/

/-- A receive that gets to the slot at its tail. -/
theorem recvWithSeqTrapping_eq (h : ¬ w.Overruns host) :
    recvWithSeqTrapping grant host w = (ensureTailReadable host >>= fun resync => do
      let snapshot ← readTail
      checkSeq resync snapshot.seq
      finishRecvVia (recvChunkedMessageGranting grant tailOps) tailOps snapshot) w := by
  have hgate := gate_eq h
  rw [recvWithSeqTrapping]
  cases hr : ensureTailReadable host w with
  | ok resync v => rw [bind_ok (hgate.trans hr), bind_ok hr]
  | error err v => rw [bind_error (hgate.trans hr), bind_error hr]

/-- **`recv_with_seq` panics exactly** where a sum overruns or the message
announces more than is granted. -/
theorem recvWithSeqTrapping_panics_iff :
    outcome (recvWithSeqTrapping grant host w) = .error .panic ↔
      w.Overruns host ∨ w.Announces host grant := by
  by_cases hover : w.Overruns host
  · obtain ⟨w', hpanic⟩ := gate_panics hover
    rw [recvWithSeqTrapping, bind_error hpanic]
    exact iff_of_true rfl (.inl hover)
  simp only [hover, false_or]
  rw [recvWithSeqTrapping_eq hover]
  rcases gate_cases host w with ⟨err, w', hgate, hne, hno⟩ | ⟨v, hgate, hreads, hconfig, hexp⟩
  · rw [bind_error hgate]
    exact iff_of_false (fun h => hne (Except.error.inj h)) fun ⟨v, hv, _⟩ => hno v hv
  rw [bind_ok hgate]
  have hstate : AtCommitted v := by
    rcases (hreads v).2 rfl with ⟨d, -, -, hstate, rfl⟩ | ⟨d, extent, -, -, hstate⟩
    · exact hstate
    · exact hstate
  rcases shows_or_tooLong hstate with ⟨snapshot, hshow⟩ | hlong
  · rw [bind_ok (readTail_ok hshow)]
    by_cases htakes : w.Expects snapshot.seq
    · have htakes' : w.chan.resyncExpected = true ∨
          (v.atFront .pinned).chan.config.multiProducer = true ∨
          (v.atFront .pinned).chan.expectedRecvSeq = snapshot.seq := by
        show _ ∨ v.chan.config.multiProducer = true ∨ v.chan.expectedRecvSeq = snapshot.seq
        rw [hconfig, hexp]
        exact htakes
      rw [bind_ok (checkSeq_ok htakes')]
      by_cases hgranted : Granted grant snapshot
      · refine iff_of_false (fun h => ?_) ?_
        · cases hr :
            finishRecvVia (recvChunkedMessageGranting grant tailOps) tailOps snapshot _ with
          | ok message v' => rw [hr] at h; cases h
          | error err v' =>
              rw [hr] at h
              exact noPanic_finishRecv hgranted _ _ _ hr (Except.error.inj h)
        · rintro ⟨v', hv', snapshot', frame, first, hshow', -, hdec, hval, hseq, hchunk, hinfo,
            hindex, hlen⟩
          obtain rfl := (hreads v').1 hv'
          obtain rfl := hshow'.unique hshow
          exact absurd (hgranted frame first hdec hval hseq hchunk hinfo hindex)
            (Nat.not_le.2 hlen)
      · simp only [Granted, not_forall, Nat.not_le] at hgranted
        obtain ⟨frame, first, hdec, hval, hseq, hchunk, hinfo, hindex, hlen⟩ := hgranted
        rw [finishRecv_panics hdec hval hseq hchunk hinfo hindex hlen]
        exact iff_of_true rfl ⟨v, (hreads v).2 rfl, snapshot, frame, first, hshow, htakes, hdec,
          hval, hseq, hchunk, hinfo, hindex, hlen⟩
    · have hrefused : ¬ (w.chan.resyncExpected = true ∨
          (v.atFront .pinned).chan.config.multiProducer = true ∨
          (v.atFront .pinned).chan.expectedRecvSeq = snapshot.seq) := by
        show ¬ (_ ∨ v.chan.config.multiProducer = true ∨ v.chan.expectedRecvSeq = snapshot.seq)
        rw [hconfig, hexp]
        exact htakes
      rw [bind_error (checkSeq_mismatch hrefused)]
      refine iff_of_false (fun h => nomatch h) ?_
      rintro ⟨v', hv', snapshot', frame, first, hshow', htakes', -⟩
      obtain rfl := (hreads v').1 hv'
      obtain rfl := hshow'.unique hshow
      exact htakes htakes'
  · rw [bind_error (readTail_tooLong hstate hlong)]
    refine iff_of_false (fun h => nomatch h) ?_
    rintro ⟨v', hv', snapshot', frame, first, hshow', -⟩
    obtain rfl := (hreads v').1 hv'
    exact absurd hshow'.2.2.1 (Nat.not_le.2 hlong)

/-! ## The view -/

omit [Checksum] in
theorem validateRange_no_panic (storage : SlotStorage) (range : ByteRange) :
    storage.validateRange range ≠ .error .panic := by
  unfold SlotStorage.validateRange
  split
  · split
    · exact fun h => nomatch h
    · split <;> exact fun h => nomatch h
  · split <;> exact fun h => nomatch h

omit [Checksum] in
theorem checkViewHeader_no_panic (header : FrameHeader) (seq : UInt64) :
    checkViewHeader header seq ≠ .error .panic := by
  unfold checkViewHeader
  split
  · exact fun h => nomatch h
  · split <;> exact fun h => nomatch h

theorem checkViewPayload_no_panic (header : FrameHeader) (frameLen : ℕ) (payload : Area) :
    checkViewPayload header frameLen payload ≠ .error .panic := by
  unfold checkViewPayload
  split
  · exact fun h => nomatch h
  · split <;> exact fun h => nomatch h

omit [Checksum] in
theorem noPanic_pinTail (seq : UInt64) (frameLen payloadLen : ℕ) :
    NoPanic (pinTail host seq frameLen payloadLen) := by
  refine failsOnly_get.bind fun w =>
    failsOnly_modify.bind fun _ => failsOnly_modify.bind fun _ => ?_
  exact (noPanic_advance false).bind fun _ => failsOnly_modify.bind fun _ =>
    failsOnly_modify.bind fun _ => failsOnly_pure _

/-- **A view of a readable tail does not panic**, whatever its slot holds. -/
theorem noPanic_viewTailMapped (storage : SlotStorage) (resync : Bool) :
    NoPanic (viewTailMapped storage host resync) := by
  refine failsOnly_get.bind fun w => ?_
  dsimp only
  split
  · exact failsOnly_throw fun he => nomatch he
  refine (noPanic_ofExcept (validateRange_no_panic _ _)).bind fun _ => ?_
  refine (noPanic_ofExcept decodeFrameHeader_no_panic).bind fun read => ?_
  refine (noPanic_ofExcept (checkViewHeader_no_panic _ _)).bind fun _ => ?_
  refine (noPanic_checkSeq _ _).bind fun _ => ?_
  split
  · exact failsOnly_throw fun he => nomatch he
  refine (noPanic_ofExcept (validateRange_no_panic _ _)).bind fun _ => ?_
  refine (noPanic_ofExcept (checkViewPayload_no_panic _ _ _)).bind fun _ => ?_
  exact noPanic_pinTail _ _ _

/-- **`recv_view` panics only** where a sum overruns. -/
theorem recvViewTrapping_no_panic (storage : SlotStorage) (h : ¬ w.Overruns host) :
    outcome (recvViewTrapping storage host w) ≠ .error .panic := by
  rw [recvViewTrapping, get_bind]
  split
  · exact fun he => nomatch he
  dsimp only
  have hgate := gate_eq h
  intro hout
  rcases gate_cases host w with ⟨err, w', hr, hne, -⟩ | ⟨v, hr, -⟩
  · rw [bind_error (hgate.trans hr)] at hout
    exact hne (Except.error.inj hout)
  · rw [bind_ok (hgate.trans hr)] at hout
    cases hview : viewTailMapped storage host w.chan.resyncExpected v with
    | ok view v' => rw [hview] at hout; cases hout
    | error err v' =>
        rw [hview] at hout
        exact noPanic_viewTailMapped storage _ _ _ _ hview (Except.error.inj hout)

end PersistentShmChannel

/-- **Receives return, and ask for no more than the region can hold, exactly
where** no dead reservation at the tail ends beyond the last cursor and the
message at the tail does not announce more. -/
theorem receives_safely_iff [Checksum] (host : Host) (storage : SlotStorage) (w : World) :
    w.ReceivesSafely host storage ↔
      ¬ w.Overruns host ∧ ¬ w.Announces host (w.region.capacity * w.region.frameCapacity) := by
  rw [World.ReceivesSafely, ne_eq, recvWithSeqTrapping_panics_iff, not_or]
  exact ⟨fun h => h.1, fun h => ⟨h, recvViewTrapping_no_panic storage h.1⟩⟩

/-- The first of two chunks, of a message of `2 ^ 62` bytes. -/
def hugeChunk : Bytes :=
  match (do
    let metadata ← chunkMetadata 0 2 (2 ^ 62)
    @encodeFrame crc32Checksum .bytes (chunkFlags 0 2) 0 0 0 metadata [5]) with
  | .ok frame => frame
  | .error _ => []

/-- A ring of one slot of 114 bytes for the frame, which holds that chunk. -/
def damagedWorld : World where
  chan := fresh sampleHost ⟨1, 64, .raise, none, false⟩
  region :=
    { capacity := 1
      frameCapacity := 114
      head := 1
      tail := 0
      magic := REGION_MAGIC
      format := REGION_FORMAT
      pinFloor := PIN_FLOOR_NONE
      slots := fun _ =>
        ⟨encodeHeader .committed 0 hugeChunk.length none false, Area.zero.write 0 hugeChunk⟩ }

/-- **Its receive asks for `2 ^ 62` bytes.** -/
theorem receives_huge :
    ¬ ∀ (host : Host) (storage : SlotStorage) (w : World) (d : ℕ),
      cursorLen w.chan.config.capacity w.region.head w.region.tail = some d →
        @World.ReceivesSafely crc32Checksum host storage w := by
  intro hall
  have hcursors : cursorLen damagedWorld.chan.config.capacity damagedWorld.region.head
      damagedWorld.region.tail = some 1 := by decide
  have hpanic : outcome (@recvWithSeqTrapping crc32Checksum 114 sampleHost damagedWorld) =
      .error .panic := by decide +kernel
  exact (hall sampleHost ⟨.mmap, 1, 162, 194⟩ damagedWorld 1 hcursors).1 hpanic

end Dsline
