import Dsline.Shm.TryRecv
/-!
# A `recv_view` that fails

The next `recv_with_seq` after a `recv_view` that failed, against the one
that would have come in its place. The prologue of `recv_view` takes the
resync flag; a message it refuses at its frame header leaves the flag taken
and the sequence not adopted, so a read that would have adopted it refuses
it.
-/

namespace Dsline

open PersistentShmChannel World Effect

/-- No slot is stamped by a process that is gone. -/
def Region.CrashFree (host : Host) (region : Region) : Prop :=
  ∀ index identity, (region.header index).identity = some identity →
    host.liveness identity.process ≠ .gone

/-- **A failed `recv_view` is invisible**: it leaves the region, and the next
`recv_with_seq` does what it would have done without it. -/
def FailedViewInvisible [Checksum] (host : Host) (w : World) : Prop :=
  ∀ err w', recvView host w = .error err w' →
    w'.region = w.region ∧ recvWithSeq host w' = recvWithSeq host w

/-- The frame header of the slot at the tail, where `recv_view` accepts it. -/
def acceptedHeader (w : World) : Option FrameHeader :=
  let slot := w.region.slots w.chan.tail
  if w.region.payloadLen w.chan.tail < FRAME_HEADER_LEN then none
  else
    match decodeFrameHeader (slot.payload.read 0 FRAME_HEADER_LEN) with
    | .error _ => none
    | .ok (header, _) =>
        match checkViewHeader header slot.header.seq with
        | .error _ => none
        | .ok () => some header

/-- What `recv_view` finds of the payload behind a header. -/
def payloadCheck [Checksum] (w : World) (header : FrameHeader) : Except Failure Unit :=
  checkViewPayload header (w.region.payloadLen w.chan.tail) (w.region.slots w.chan.tail).payload

/-- The sequence of the slot at the tail. -/
def tailSeq (w : World) : UInt64 := (w.region.header w.chan.tail).seq

/-- The view is refused at the frame header of a slot a read would look at,
or at the payload of one no read looks at. -/
def RefusedEarly [Checksum] (w : World) : Prop :=
  if w.region.frameCapacity < w.region.payloadLen w.chan.tail then
    ∃ header, acceptedHeader w = some header ∧ payloadCheck w header ≠ .ok ()
  else acceptedHeader w = none

/-- **A failed `recv_view` loses a resync**: one is pending at a COMMITTED
slot of another sequence than the expected one, and the view is refused at
the frame header. (Where the slot announces more bytes than it has, no
receive gets to the sequence, and the view loses the resync when it is
refused at the payload.) -/
def LosesResync [Checksum] (w : World) : Prop :=
  w.chan.config.backpressure ≠ .dropOldest ∧
    ∃ d, cursorLen w.chan.config.capacity w.region.head w.region.tail = some d ∧
      ¬ ClosedEmpty (w.refreshed d) ∧ AtCommitted (w.refreshed d) ∧
        w.chan.resyncExpected = true ∧ tailSeq (w.refreshed d) ≠ w.chan.expectedRecvSeq ∧
          RefusedEarly (w.refreshed d)

namespace PersistentShmChannel

variable {w v : World} {host : Host} {header : FrameHeader} {snapshot : SlotSnapshot}
  {resync : Bool} {d : ℕ}

/-! ## The prologue of a crash-free run -/

/-- **The prologue**, where no reclaim frees a slot. -/
theorem ensureTailReadable_crashFree (hmode : w.chan.config.multiProducer = false)
    (hfree : w.region.CrashFree host)
    (hd : cursorLen w.chan.config.capacity w.region.head w.region.tail = some d) :
    ensureTailReadable host w =
      if ClosedEmpty (w.refreshed d) then .error (.ofChannel .closed) (w.refreshed d)
      else if AtCommitted (w.refreshed d) then
        .ok w.chan.resyncExpected (w.refreshed d).unsynced
      else if w.chan.closed then .error (.ofChannel .closed) (w.refreshed d).unsynced
      else .error bufferEmpty (w.refreshed d) := by
  have hrec : Reclaims host (w.refreshed d) 0 ((w.refreshed d).resyncing true) :=
    reclaims_none (current_refreshed hd) fun resync =>
      tryReclaimAtTail_alive hmode fun identity hid _ => hfree _ identity hid
  rw [ensureTailReadable_cases hd hrec]
  simp only [if_true]

/-! ## The view of a COMMITTED slot -/

/-- Pinning the tail does not fail. -/
theorem pinTail_ok (host : Host) (seq : UInt64) (frameLen payloadLen : ℕ) (w : World) :
    ∃ view w', pinTail host seq frameLen payloadLen w = .ok view w' := ⟨_, _, rfl⟩

theorem tailSeq_of_shows (h : w.region.Shows w.chan.tail (.committed snapshot)) :
    tailSeq w = snapshot.seq := h.2.1

/-- An error is a mismatch with this sequence, or no mismatch. -/
def MismatchOf (seq : UInt64) (err : Failure) : Prop :=
  ∀ expected actual, err = .ofChannel (.sequenceMismatch expected actual) → expected = seq

theorem failsOnly_onRegion {α : Type} {P : Failure → Prop} {op : RegionM α}
    (h : FailsOnly P op) : FailsOnly P (onRegion op) := by
  intro w err w' he
  unfold onRegion at he
  split at he
  · cases he
  · rename_i region hop
    cases he
    exact h _ _ _ hop

theorem failsOnly_readCommitted (seq : UInt64) (index : ℕ) :
    FailsOnly (MismatchOf seq) (Region.readCommitted index) := by
  refine FailsOnly.bind ?_ fun _ => failsOnly_modify.bind fun _ => failsOnly_pure _
  refine failsOnly_get.bind fun region => ?_
  split
  · exact failsOnly_throw fun _ _ h => nomatch h
  dsimp only
  split
  · exact failsOnly_throw fun _ _ h => nomatch h
  · exact failsOnly_pure _

theorem failsOnly_releasePinned (seq : UInt64) (index : ℕ) :
    FailsOnly (MismatchOf seq) (Region.releasePinned index) := by
  refine failsOnly_get.bind fun region => ?_
  split
  · exact failsOnly_throw fun _ _ h => nomatch h
  · exact fun _ _ _ h => nomatch h

theorem failsOnly_poll (seq : UInt64) : FailsOnly (MismatchOf seq) pollTailCommitted := by
  intro w err w' h
  rw [pollTailCommitted, pollTailCommittedFor_succ] at h
  split at h
  · cases h
  split at h
  · cases h
    exact fun _ _ h => by cases h
  · cases h

/-- The receive steps compare no sequences. -/
theorem tailOps_mismatch (seq : UInt64) :
    TailHas (fun x => FailsOnly (MismatchOf seq) x) tailOps where
  readNext := by
    refine (failsOnly_poll seq).bind fun committed => ?_
    split
    · exact failsOnly_get.bind fun _ => failsOnly_onRegion (failsOnly_readCommitted seq _)
    · exact failsOnly_throw fun _ _ h => nomatch h
  releasePinned := failsOnly_get.bind fun _ => failsOnly_onRegion (failsOnly_releasePinned seq _)
  advance := by
    refine failsOnly_get.bind fun w => ?_
    rw [if_pos rfl]
    exact (failsOnly_onRegion (failsOnly_releasePinned seq _)).bind fun _ =>
      failsOnly_modify.bind fun _ => failsOnly_modify
  bumpExpected := failsOnly_modify
  setLastReceived _ := failsOnly_modify

/-- **A receive that has its first frame** reports mismatches with the
sequence of its own slot only. -/
theorem finishRecv_mismatch [Checksum] (snapshot : SlotSnapshot) :
    FailsOnly (MismatchOf snapshot.seq) (finishRecv tailOps snapshot) := by
  refine (tailOps_mismatch snapshot.seq).finishRecv (failsOnly_composes _) ⟨?_, ?_⟩
  · intro err hbad expected actual he
    subst he
    cases hbad
  · intro actual expected actual' he
    cases he
    rfl

variable [Checksum]

variable (host resync) in
/-- A view that is refused at the header changes nothing. -/
theorem viewTail_refused (h : acceptedHeader w = none) :
    ∃ err, viewTail host resync w = .error err w := by
  unfold acceptedHeader at h
  by_cases hlen : w.region.payloadLen w.chan.tail < FRAME_HEADER_LEN
  · refine ⟨.ofChannel .corruptedMessage, ?_⟩
    rw [viewTail, get_bind]
    exact congrFun (if_pos hlen) w
  rw [if_neg hlen] at h
  cases hdec : decodeFrameHeader ((w.region.slots w.chan.tail).payload.read 0 FRAME_HEADER_LEN) with
  | error err =>
      refine ⟨err, ?_⟩
      rw [viewTail, get_bind]
      refine (congrFun (if_neg hlen) w).trans ?_
      simp only [hdec]
      rfl
  | ok result =>
      obtain ⟨header, total⟩ := result
      simp only [hdec] at h
      cases hcheck : checkViewHeader header (w.region.slots w.chan.tail).header.seq with
      | ok =>
          rw [hcheck] at h
          cases h
      | error err =>
          refine ⟨err, ?_⟩
          rw [viewTail, get_bind]
          refine (congrFun (if_neg hlen) w).trans ?_
          simp only [hdec, ofExcept, pure_bind, hcheck]
          rfl

/-- A view whose header is accepted goes on to the sequence. -/
theorem viewTail_accepted (h : acceptedHeader w = some header) :
    viewTail host resync w =
      (do
        checkSeq resync (tailSeq w)
        ofExcept (payloadCheck w header)
        pinTail host (tailSeq w) (w.region.payloadLen w.chan.tail) header.payloadLen.toNat :
          ChannelM ShmRecvView) w := by
  unfold acceptedHeader at h
  by_cases hlen : w.region.payloadLen w.chan.tail < FRAME_HEADER_LEN
  · rw [if_pos hlen] at h
    cases h
  rw [if_neg hlen] at h
  cases hdec : decodeFrameHeader ((w.region.slots w.chan.tail).payload.read 0 FRAME_HEADER_LEN) with
  | error err =>
      simp only [hdec] at h
      cases h
  | ok result =>
      obtain ⟨header', total⟩ := result
      simp only [hdec] at h
      cases hcheck : checkViewHeader header' (w.region.slots w.chan.tail).header.seq with
      | error err =>
          rw [hcheck] at h
          cases h
      | ok =>
          rw [hcheck] at h
          cases h
          rw [viewTail, get_bind]
          refine (congrFun (if_neg hlen) w).trans ?_
          simp only [hdec, ofExcept, pure_bind, hcheck]
          rfl

/-! ## What the next read makes of it -/

/-- **A read that does not find the flag** does the same unless the flag had
it adopt another sequence than the expected one. -/
theorem readMessage_flag (hmode : w.chan.config.multiProducer = false)
    (hshow : w.region.Shows w.chan.tail (.committed snapshot)) :
    readMessage false w = readMessage true w ↔ snapshot.seq = w.chan.expectedRecvSeq := by
  have hadopt : readMessage true w = _ := readMessage_expected hshow (.inl rfl)
  by_cases hseq : snapshot.seq = w.chan.expectedRecvSeq
  · have hexpect : readMessage false w = _ :=
      readMessage_expected hshow (.inr (.inr hseq.symm))
    refine iff_of_true ?_ hseq
    rw [hadopt, hexpect, if_pos rfl, if_neg Bool.false_ne_true, hseq]
  · have hrefuse : readMessage false w = _ := readMessage_mismatch hshow (by
      rintro (h | h | h)
      · cases h
      · exact Bool.false_ne_true (hmode.symm.trans h)
      · exact hseq h.symm)
    refine iff_of_false (fun heq => ?_) hseq
    rw [hadopt, hrefuse] at heq
    exact hseq (finishRecv_mismatch snapshot _ _ _ heq.symm _ _ rfl).symm

/-- The world an accepted sequence is adopted in. -/
abbrev adopting (w : World) (resync : Bool) : World :=
  w.expecting (if resync then tailSeq w else w.chan.expectedRecvSeq)

/-- **A view refused at the payload** has adopted the sequence as the read
would have. -/
theorem readMessage_adopting (hshow : w.region.Shows w.chan.tail (.committed snapshot))
    (hexp : resync = true ∨ w.chan.config.multiProducer = true ∨
      w.chan.expectedRecvSeq = snapshot.seq) :
    readMessage false (adopting w resync) = readMessage resync w := by
  have hseq := tailSeq_of_shows hshow
  have hadopt := readMessage_expected hshow hexp
  have hshow' : (adopting w resync).region.Shows (adopting w resync).chan.tail
    (.committed snapshot) := hshow
  have hexp' : false = true ∨ (adopting w resync).chan.config.multiProducer = true ∨
      (adopting w resync).chan.expectedRecvSeq = snapshot.seq := by
    cases resync with
    | true => exact .inr (.inr hseq)
    | false => exact hexp
  rw [hadopt, readMessage_expected hshow' hexp', if_neg Bool.false_ne_true]
  simp only [World.expecting, hseq]

/-! ## The view and the read -/

/-- What the call leaves is read as the world before it would have been. -/
def ReadsAlike (host : Host) (w : World) (r : EStateM.Result Failure World ShmRecvView) : Prop :=
  ∀ err w', r = .error err w' → w'.region = w.region ∧ recvWithSeq host w' = recvWithSeq host w

theorem readsAlike_error {err : Failure} {w' : World} (hregion : w'.region = w.region) :
    ReadsAlike host w (.error err w') ↔ recvWithSeq host w' = recvWithSeq host w := by
  constructor
  · exact fun h => (h err w' rfl).2
  · intro h err' w'' heq
    cases heq
    exact ⟨hregion, h⟩

/-- The part of `recv_view` behind its prologue, and the read in its place. -/
theorem recvView_committed (hmode : w.chan.config.multiProducer = false)
    (hfree : w.region.CrashFree host) (hdrop : w.chan.config.backpressure ≠ .dropOldest)
    (hd : cursorLen w.chan.config.capacity w.region.head w.region.tail = some d)
    (hopen : ¬ ClosedEmpty (w.refreshed d)) (hstate : AtCommitted (w.refreshed d)) :
    recvView host w = viewTail host w.chan.resyncExpected (w.refreshed d).unsynced ∧
      recvWithSeq host w = readMessage w.chan.resyncExpected (w.refreshed d).unsynced := by
  have hensure := ensureTailReadable_crashFree hmode hfree hd
  rw [if_neg hopen, if_pos hstate] at hensure
  refine ⟨?_, ?_⟩
  · rw [recvView, get_bind, if_neg hdrop]
    exact bind_ok hensure
  · rw [recvWithSeq_eq, bind_ok hensure]

/-- The next read, once the flag is taken and a sequence is set. -/
theorem recvWithSeq_unsynced (hmode : w.chan.config.multiProducer = false)
    (hfree : w.region.CrashFree host)
    (hd : cursorLen w.chan.config.capacity w.region.head w.region.tail = some d)
    (hopen : ¬ ClosedEmpty (w.refreshed d)) (hstate : AtCommitted (w.refreshed d))
    (expected : UInt64) :
    recvWithSeq host ((w.refreshed d).unsynced.expecting expected) =
      readMessage false ((w.refreshed d).unsynced.expecting expected) := by
  have hensure : ensureTailReadable host ((w.refreshed d).unsynced.expecting expected) =
      .ok false ((w.refreshed d).unsynced.expecting expected) := by
    rw [ensureTailReadable_crashFree (w := (w.refreshed d).unsynced.expecting expected)
      (d := d) hmode hfree hd]
    exact (if_neg hopen).trans (if_pos hstate)
  rw [recvWithSeq_eq, bind_ok hensure]

/-- A view refused at the header leaves the flag taken. -/
theorem readsAlike_refused (hmode : w.chan.config.multiProducer = false) (hstate : AtCommitted w)
    (hacc : acceptedHeader w = none) :
    readMessage false w = readMessage resync w ↔
      ¬ (resync = true ∧ tailSeq w ≠ w.chan.expectedRecvSeq ∧ RefusedEarly w) := by
  cases resync with
  | false => exact iff_of_true rfl fun h => nomatch h.1
  | true =>
      rcases shows_or_tooLong hstate with ⟨snapshot, hshow⟩ | hlong
      · have hearly : RefusedEarly w := by
          rw [RefusedEarly, if_neg (Nat.not_lt.2 hshow.2.2.1)]
          exact hacc
        rw [readMessage_flag hmode hshow, tailSeq_of_shows hshow]
        simp only [hearly, true_and, and_true, not_not]
      · refine iff_of_true ?_ ?_
        · rw [readMessage_tooLong _ hstate hlong, readMessage_tooLong _ hstate hlong]
        · rintro ⟨-, -, h⟩
          rw [RefusedEarly, if_pos hlong] at h
          obtain ⟨header, hsome, -⟩ := h
          exact nomatch hacc.symm.trans hsome

/-- A view refused at the payload has adopted the sequence. -/
theorem readsAlike_payload (hstate : AtCommitted w) (hacc : acceptedHeader w = some header)
    (hpayload : payloadCheck w header ≠ .ok ())
    (hexp : resync = true ∨ w.chan.config.multiProducer = true ∨
      w.chan.expectedRecvSeq = tailSeq w) :
    readMessage false (adopting w resync) = readMessage resync w ↔
      ¬ (resync = true ∧ tailSeq w ≠ w.chan.expectedRecvSeq ∧ RefusedEarly w) := by
  rcases shows_or_tooLong hstate with ⟨snapshot, hshow⟩ | hlong
  · rw [tailSeq_of_shows hshow] at hexp
    refine iff_of_true (readMessage_adopting hshow hexp) ?_
    rintro ⟨-, -, h⟩
    rw [RefusedEarly, if_neg (Nat.not_lt.2 hshow.2.2.1)] at h
    exact nomatch hacc.symm.trans h
  -- No read gets past the announced length, so an adopted sequence stays.
  · have hearly : RefusedEarly w := by
      rw [RefusedEarly, if_pos hlong]
      exact ⟨header, hacc, hpayload⟩
    rw [readMessage_tooLong _ hstate hlong,
      readMessage_tooLong (w := adopting w resync) _ hstate hlong]
    cases resync with
    | false => exact iff_of_true rfl fun h => nomatch h.1
    | true =>
        simp only [hearly, true_and, and_true, not_not]
        constructor
        · intro h
          injection h with _ hworld
          exact congrArg (fun v => v.chan.expectedRecvSeq) hworld
        · intro h
          simp only [adopting, if_true, h]
          rfl

/-- **Behind the prologue** a failed view is invisible unless it loses the
resync. -/
theorem viewTail_readsAlike {u : World} (hmode : u.chan.config.multiProducer = false)
    (hstate : AtCommitted u)
    (hnext : ∀ expected,
      recvWithSeq host (u.expecting expected) = readMessage false (u.expecting expected))
    (hread : recvWithSeq host w = readMessage resync u) (hregion : u.region = w.region) :
    ReadsAlike host w (viewTail host resync u) ↔
      ¬ (resync = true ∧ tailSeq u ≠ u.chan.expectedRecvSeq ∧ RefusedEarly u) := by
  cases hacc : acceptedHeader u with
  | none =>
      obtain ⟨err, hview⟩ := viewTail_refused host resync hacc
      have hsame : recvWithSeq host u = readMessage false u := hnext u.chan.expectedRecvSeq
      rw [hview, readsAlike_error hregion, hsame, hread]
      exact readsAlike_refused hmode hstate hacc
  | some header =>
      rw [viewTail_accepted hacc]
      by_cases hexp : resync = true ∨ u.chan.config.multiProducer = true ∨
          u.chan.expectedRecvSeq = tailSeq u
      · have hcheck : checkSeq resync (tailSeq u) u = .ok () (adopting u resync) :=
          checkSeq_ok hexp
        rw [bind_ok hcheck]
        cases hpayload : payloadCheck u header with
        | ok =>
            -- Both checks pass: the view succeeds, and no refusal was early.
            obtain ⟨view, w', hpin⟩ := pinTail_ok host (tailSeq u)
              (u.region.payloadLen u.chan.tail) header.payloadLen.toNat (adopting u resync)
            have hview : (ofExcept (.ok () : Except Failure Unit) >>= fun _ =>
                pinTail host (tailSeq u) (u.region.payloadLen u.chan.tail)
                  header.payloadLen.toNat) (adopting u resync) = .ok view w' := hpin
            rw [hview]
            refine iff_of_true (fun err w'' h => nomatch h) ?_
            rintro ⟨-, -, h⟩
            unfold RefusedEarly at h
            split at h
            · obtain ⟨header', hsome, hbad⟩ := h
              cases hacc.symm.trans hsome
              exact hbad hpayload
            · exact nomatch hacc.symm.trans h
        | error err =>
            have hview : (ofExcept (.error err : Except Failure Unit) >>= fun _ =>
                pinTail host (tailSeq u) (u.region.payloadLen u.chan.tail)
                  header.payloadLen.toNat) (adopting u resync) =
                .error err (adopting u resync) := rfl
            -- Refused at the payload, after the sequence was adopted.
            have hkept : (adopting u resync).region = w.region := hregion
            rw [hview, readsAlike_error hkept, hnext, hread]
            exact readsAlike_payload hstate hacc (fun h => nomatch hpayload.symm.trans h) hexp
      · have hcheck : checkSeq resync (tailSeq u) u = .error (.ofChannel
            (.sequenceMismatch u.chan.expectedRecvSeq (tailSeq u))) u := checkSeq_mismatch hexp
        -- The sequence is refused before the flag was used.
        have hflag : resync = false := by
          cases resync with
          | false => rfl
          | true => exact absurd (.inl rfl) hexp
        have hsame : recvWithSeq host u = readMessage false u := hnext u.chan.expectedRecvSeq
        rw [bind_error hcheck, readsAlike_error hregion, hsame, hread, hflag]
        exact iff_of_true rfl fun h => nomatch h.1

/-- A prologue that fails as it would have failed the read, and changes
nothing a second prologue sees, is invisible. -/
theorem readsAlike_prologue {err : Failure} {w' : World}
    (hdrop : w.chan.config.backpressure ≠ .dropOldest)
    (hfails : ensureTailReadable host w = .error err w')
    (hagain : ensureTailReadable host w' = .error err w') (hregion : w'.region = w.region) :
    ReadsAlike host w (recvView host w) := by
  have hview : recvView host w = .error err w' := by
    rw [recvView, get_bind, if_neg hdrop]
    exact bind_error hfails
  rw [hview, readsAlike_error hregion, recvWithSeq_eq, bind_error hfails, bind_error hagain]

/-- On inconsistent cursors the view and the read fail at their refresh. -/
theorem readsAlike_inconsistent (hdrop : w.chan.config.backpressure ≠ .dropOldest)
    (hd : cursorLen w.chan.config.capacity w.region.head w.region.tail = none) :
    ReadsAlike host w (recvView host w) := by
  have hrefresh {v : World}
      (hv : cursorLen v.chan.config.capacity v.region.head v.region.tail = none) :
      ensureTailReadable host v = .error inconsistentCursors
        { v with chan := v.chan.withCursors v.region.head v.region.tail v.region.pinFloor } :=
    bind_error (refreshCursors_none hv)
  exact readsAlike_prologue hdrop (hrefresh hd) (hrefresh hd) rfl

/-- Nothing to read: the view and the read fail in the prologue alike. -/
theorem readsAlike_unreadable (hmode : w.chan.config.multiProducer = false)
    (hfree : w.region.CrashFree host) (hdrop : w.chan.config.backpressure ≠ .dropOldest)
    (hd : cursorLen w.chan.config.capacity w.region.head w.region.tail = some d)
    (hempty : ¬ ClosedEmpty (w.refreshed d)) (hstate : ¬ AtCommitted (w.refreshed d)) :
    ReadsAlike host w (recvView host w) := by
  have hensure := ensureTailReadable_crashFree hmode hfree hd
  rw [if_neg hempty, if_neg hstate] at hensure
  cases hclosed : w.chan.closed with
  | true =>
      have hagain := ensureTailReadable_crashFree (w := (w.refreshed d).unsynced) (d := d)
        hmode hfree hd
      rw [hclosed, if_pos rfl] at hensure
      refine readsAlike_prologue hdrop hensure (hagain.trans ?_) rfl
      exact (if_neg hempty).trans ((if_neg hstate).trans (if_pos hclosed))
  | false =>
      have hagain := ensureTailReadable_crashFree (w := w.refreshed d) (d := d) hmode hfree hd
      rw [hclosed, if_neg Bool.false_ne_true] at hensure
      have hopen : ¬ w.chan.closed = true := by
        rw [hclosed]
        exact Bool.false_ne_true
      refine readsAlike_prologue hdrop hensure (hagain.trans ?_) rfl
      exact (if_neg hempty).trans ((if_neg hstate).trans (if_neg hopen))

theorem losesResync_of_len (hdrop : w.chan.config.backpressure ≠ .dropOldest)
    (hd : cursorLen w.chan.config.capacity w.region.head w.region.tail = some d) :
    LosesResync w ↔ ¬ ClosedEmpty (w.refreshed d) ∧ AtCommitted (w.refreshed d) ∧
      w.chan.resyncExpected = true ∧ tailSeq (w.refreshed d) ≠ w.chan.expectedRecvSeq ∧
        RefusedEarly (w.refreshed d) := by
  constructor
  · rintro ⟨-, d', hd', h⟩
    cases hd.symm.trans hd'
    exact h
  · exact fun h => ⟨hdrop, d, hd, h⟩

end PersistentShmChannel

/-- **When a failed `recv_view` is invisible**: in a crash-free run, exactly
where it does not lose a resync. -/
theorem failedView_invisible_iff [Checksum] {host : Host} {w : World}
    (hmode : w.chan.config.multiProducer = false) (hfree : w.region.CrashFree host) :
    FailedViewInvisible host w ↔ ¬ LosesResync w := by
  by_cases hdrop : w.chan.config.backpressure = .dropOldest
  · have hview : ∃ err, recvView host w = .error err w := by
      rw [recvView, get_bind, if_pos hdrop]
      exact ⟨_, rfl⟩
    obtain ⟨err, hview⟩ := hview
    refine iff_of_true (fun err' w' h => ?_) fun h => h.1 hdrop
    rw [hview] at h
    cases h
    exact ⟨rfl, rfl⟩
  cases hd : cursorLen w.chan.config.capacity w.region.head w.region.tail with
  | none =>
      refine iff_of_true (readsAlike_inconsistent hdrop hd) ?_
      rintro ⟨-, d, hd', -⟩
      cases hd.symm.trans hd'
  | some d =>
      rw [losesResync_of_len hdrop hd]
      by_cases hempty : ClosedEmpty (w.refreshed d)
      · have hensure := ensureTailReadable_crashFree hmode hfree hd
        have hagain := ensureTailReadable_crashFree (w := w.refreshed d) (d := d) hmode hfree hd
        rw [if_pos hempty] at hensure
        refine iff_of_true ?_ fun h => h.1 hempty
        exact readsAlike_prologue hdrop hensure (hagain.trans (if_pos hempty)) rfl
      by_cases hstate : AtCommitted (w.refreshed d)
      · obtain ⟨hview, hread⟩ := recvView_committed hmode hfree hdrop hd hempty hstate
        have halike := viewTail_readsAlike (u := (w.refreshed d).unsynced) hmode hstate
          (recvWithSeq_unsynced hmode hfree hd hempty hstate) hread rfl
        rw [← hview] at halike
        refine halike.trans (not_congr ?_)
        exact ⟨fun h => ⟨hempty, hstate, h⟩, fun h => h.2.2⟩
      refine iff_of_true ?_ fun h => hstate h.2.1
      exact readsAlike_unreadable hmode hfree hdrop hd hempty hstate

/-- Every process of the sample host lives. -/
theorem sampleHost_crashFree (region : Region) : region.CrashFree sampleHost :=
  fun _ _ _ h => nomatch h

theorem sampleMessage_fits : (List.replicate 86 (7 : UInt8)).length ≤ isizeMax := by decide

/-- A consumer opens over an empty ring, and a message of two chunks is sent:
a resync is pending, and the tail is COMMITTED. -/
def pendingChunked : SpscState :=
  Run.exec (@SpscState.step crc32Checksum)
    (SpscState.start (sampleWorld ⟨2, CHUNK_METADATA_LEN + 43, .raise, none, false⟩))
    [.openConsumer sampleHost, .send sampleHost ⟨List.replicate 86 7, sampleMessage_fits⟩]

/-- The consumer's world there. -/
def pendingChunkedWorld : World where
  chan := pendingChunked.consumer.getD pendingChunked.producer
  region := pendingChunked.region

/-- Whether `recv_view` fails there. -/
def sampleRefuses : Bool :=
  match @recvView crc32Checksum sampleHost pendingChunkedWorld with
  | .ok _ _ => false
  | .error _ _ => true

/-- The view is refused, but the sequence is the expected one. -/
theorem failedView_invisible_chunked :
    sampleRefuses = true ∧ pendingChunkedWorld.chan.resyncExpected = true ∧
      @FailedViewInvisible crc32Checksum sampleHost pendingChunkedWorld := by
  refine ⟨by decide +kernel, by decide +kernel,
    (@failedView_invisible_iff crc32Checksum sampleHost pendingChunkedWorld (by decide +kernel)
      (sampleHost_crashFree _)).2 ?_⟩
  rintro ⟨-, d, hd, -, -, -, hseq, -⟩
  have htwo : cursorLen pendingChunkedWorld.chan.config.capacity pendingChunkedWorld.region.head
      pendingChunkedWorld.region.tail = some 2 := by
    decide +kernel
  obtain rfl : 2 = d := Option.some.inj (htwo.symm.trans hd)
  exact hseq (by decide +kernel)

/-- One message is sent and received; the consumer is dropped and opened
again over the empty ring; a message of two chunks is sent. -/
def sampleRestarted : SpscState :=
  let step := @SpscState.step crc32Checksum
  let config : SpscConfig := ⟨2, CHUNK_METADATA_LEN + 43, .raise, none, false⟩
  let s := Run.exec step (SpscState.start (sampleWorld config))
    [.openConsumer sampleHost, .send sampleHost (sampleMessage 1), .recv sampleHost]
  Run.exec step { s with consumer := none }
    [.openConsumer sampleHost, .send sampleHost ⟨List.replicate 86 7, sampleMessage_fits⟩]

/-- The consumer's world there. -/
def sampleRestartedWorld : World where
  chan := sampleRestarted.consumer.getD sampleRestarted.producer
  region := sampleRestarted.region

/-- Whether the next call there answers otherwise after a failed `recv_view`. -/
def sampleShows : Bool :=
  match @recvView crc32Checksum sampleHost sampleRestartedWorld with
  | .ok _ _ => false
  | .error _ w' =>
      !@decide (outcome (@recvWithSeq crc32Checksum sampleHost w') =
        outcome (@recvWithSeq crc32Checksum sampleHost sampleRestartedWorld))
          (decidableEqExcept _ _)

/-- **A failed `recv_view` shows**: it refuses the chunked message and tells
the caller to use `recv`, and the `recv` that would have returned the
message now refuses its sequence. -/
theorem failedView_visible :
    sampleRestarted.consumer = some sampleRestartedWorld.chan ∧
      sampleRestartedWorld.chan.config.multiProducer = false ∧
        sampleRestartedWorld.region.CrashFree sampleHost ∧
          ¬ @FailedViewInvisible crc32Checksum sampleHost sampleRestartedWorld := by
  refine ⟨?_, by decide +kernel, sampleHost_crashFree _, fun h => ?_⟩
  · have hsome : sampleRestarted.consumer.isSome = true := by decide +kernel
    obtain ⟨c, hc⟩ := Option.isSome_iff_exists.1 hsome
    simp only [sampleRestartedWorld, hc, Option.getD_some]
  · have hfails : sampleShows = true := by decide +kernel
    rw [sampleShows] at hfails
    cases hview : @recvView crc32Checksum sampleHost sampleRestartedWorld with
    | ok view w' =>
        rw [hview] at hfails
        cases hfails
    | error err w' =>
        rw [hview] at hfails
        have hdiffers := @of_decide_eq_false _ (decidableEqExcept _ _)
          (Eq.mp (Bool.not_eq_true' _) hfails)
        exact hdiffers (congrArg outcome (h err w' hview).2)

end Dsline
