import Dsline.Core.Crc
import Dsline.Shm.DropSpec
import Dsline.Shm.ReclaimSpec
import Dsline.Shm.Spsc
/-!
# Polling and receiving

`try_recv` against `recv`, over any region and any handle. They agree on a
tail slot that is COMMITTED, unless the message breaks off at a chunk whose
slot is not: `try_recv` hands that `BufferEmpty` on as an error. On another
tail slot they agree where the handle is open and the reclaim does not
uncover a message.
-/

namespace Dsline

open PersistentShmChannel Effect

/-! ## What a receive has of its steps -/

section Has

variable [Checksum] {σ : Type} {Φ : ∀ {α : Type}, EStateM Failure σ α → Prop}
  {P : Failure → Prop} {ops : TailOps σ} {seq : UInt64}

/-- The receive steps of a channel have a property. -/
structure TailHas (Φ : ∀ {α : Type}, EStateM Failure σ α → Prop) (ops : TailOps σ) : Prop where
  readNext : Φ ops.readNext
  releasePinned : Φ ops.releasePinned
  advance : Φ ops.advanceTailAfterRead
  bumpExpected : Φ ops.bumpExpected
  setLastReceived : ∀ seq, Φ (ops.setLastReceived seq)

/-- The errors a receive of this sequence adds to those of its steps. -/
def AllowsReceive (P : Failure → Prop) (seq : UInt64) : Prop :=
  (∀ err, BadFrame err → P err) ∧ ∀ actual, P (.ofChannel (.sequenceMismatch seq actual))

theorem TailHas.recvChunks (h : TailHas Φ ops) (hΦ : Composes Φ P) (hP : AllowsReceive P seq)
    {first : ChunkInfo} {remaining : ℕ} :
    ∀ {index : ℕ} {payload : Bytes}, Φ (recvChunks ops seq first remaining index payload) := by
  have hthrow {err : Failure} (herr : P err) :
      Φ (ops.releasePinned >>= fun _ => throw err : EStateM Failure σ Bytes) :=
    hΦ.bind h.releasePinned fun _ => hΦ.throw herr
  induction remaining with
  | zero =>
      intro index payload
      unfold Dsline.recvChunks
      split
      · exact hΦ.throw (hP.1 _ .corrupted)
      · exact hΦ.pure _
  | succ remaining ih =>
      intro index payload
      unfold Dsline.recvChunks
      refine hΦ.bind h.readNext fun snapshot => ?_
      split
      · exact hthrow (hP.2 _)
      split
      · rename_i err hdec
        exact hthrow (hP.1 err (checksFrame_decodeFrame err hdec))
      split
      · rename_i err hval
        exact hthrow (hP.1 err (checksFrame_validateChunk err hval))
      · exact hΦ.bind h.advance fun _ => ih

theorem TailHas.recvChunkedMessage (h : TailHas Φ ops) (hΦ : Composes Φ P)
    (hP : AllowsReceive P seq) {frame : Frame} : Φ (recvChunkedMessageWith ops seq frame) := by
  unfold recvChunkedMessageWith
  split
  · rename_i err hinfo
    exact hΦ.bind h.releasePinned fun _ =>
      hΦ.throw (hP.1 err (checksFrame_chunkInfo err hinfo))
  split
  · exact hΦ.bind h.releasePinned fun _ => hΦ.throw (hP.1 _ .corrupted)
  split
  · exact hΦ.throw (hP.1 _ .panic)
  · exact hΦ.bind h.advance fun _ => h.recvChunks hΦ hP

/-- **A receive has what its steps have**, where the property composes. -/
theorem TailHas.finishRecv (h : TailHas Φ ops) (hΦ : Composes Φ P) {snapshot : SlotSnapshot}
    (hP : AllowsReceive P snapshot.seq) : Φ (finishRecv ops snapshot) := by
  have hskip {err : Failure} (herr : P err) :
      Φ (skipDamaged ops err : EStateM Failure σ ReceivedMessage) :=
    hΦ.bind h.advance fun _ => hΦ.bind h.bumpExpected fun _ => hΦ.throw herr
  have hcomplete (seq : UInt64) (payload : Bytes) :
      Φ (ops.bumpExpected >>= fun _ => ops.setLastReceived seq >>= fun _ =>
        pure { seq, payload : ReceivedMessage }) :=
    hΦ.bind h.bumpExpected fun _ => hΦ.bind (h.setLastReceived seq) fun _ => hΦ.pure _
  unfold Dsline.finishRecv
  split
  · rename_i err hdec
    exact hskip (hP.1 err (checksFrame_decodeFrame err hdec))
  split
  · rename_i err hval
    exact hskip (hP.1 err (checksFrame_validateBytesFrame err hval))
  split
  · exact hskip (hP.2 _)
  split
  · exact hΦ.bind (h.recvChunkedMessage hΦ hP) fun _ => hcomplete _ _
  · exact hΦ.bind h.advance fun _ => hΦ.bind (hΦ.pure _) fun _ => hcomplete _ _

end Has

namespace PersistentShmChannel

variable {γ : Type} {field : PersistentShmChannel → γ}

theorem keeps_onRegion {α : Type} (op : RegionM α) :
    Keeps (fun w : World => field w.chan) (onRegion op) := by
  intro w
  unfold onRegion
  split <;> rfl

theorem keeps_pollTailCommitted : Keeps (fun w : World => field w.chan) pollTailCommitted := by
  intro w
  rw [pollTailCommitted, pollTailCommittedFor_succ]
  split
  · rfl
  · split <;> rfl

theorem keeps_readTail : Keeps (fun w : World => field w.chan) readTail :=
  keeps_get.bind fun _ => keeps_onRegion _

theorem keeps_advanceTail (hstep : ∀ chan, field chan.stepTail = field chan) :
    Keeps (fun w : World => field w.chan) advanceTailAfterRead := by
  refine keeps_get.bind fun w => ?_
  rw [if_pos rfl]
  exact (keeps_onRegion _).bind fun _ =>
    (keeps_modify fun w => hstep w.chan).bind fun _ => keeps_modify fun _ => rfl

/-- The receive steps keep a field that stepping the tail and the receive
counters leave alone. -/
theorem tailOps_keeps (hstep : ∀ chan, field chan.stepTail = field chan)
    (hexpected : ∀ chan seq, field { chan with expectedRecvSeq := seq } = field chan)
    (hlast : ∀ chan last, field { chan with lastReceivedSeq := last } = field chan) :
    TailHas (fun x => Keeps (fun w : World => field w.chan) x) tailOps where
  readNext := by
    refine keeps_pollTailCommitted.bind fun committed => ?_
    split
    · exact keeps_readTail
    · exact keeps_throw _
  releasePinned := keeps_get.bind fun _ => keeps_onRegion _
  advance := keeps_advanceTail hstep
  bumpExpected := keeps_modify fun _ => hexpected _ _
  setLastReceived _ := keeps_modify fun _ => hlast _ _

variable [Checksum]

/-- The part of `recv_with_seq` behind its prologue. -/
def readMessage (resync : Bool) : ChannelM ReceivedMessage := do
  let snapshot ← readTail
  checkSeq resync snapshot.seq
  finishRecv tailOps snapshot

variable (field) in
theorem keeps_readMessage (hstep : ∀ chan, field chan.stepTail = field chan)
    (hexpected : ∀ chan seq, field { chan with expectedRecvSeq := seq } = field chan)
    (hlast : ∀ chan last, field { chan with lastReceivedSeq := last } = field chan)
    (resync : Bool) : Keeps (fun w : World => field w.chan) (readMessage resync) := by
  refine keeps_readTail.bind fun snapshot => Keeps.bind ?_ fun _ =>
    (tailOps_keeps hstep hexpected hlast).finishRecv (keeps_composes _)
      ⟨fun _ _ => trivial, fun _ => trivial⟩
  refine keeps_get.bind fun w => ?_
  split
  · exact keeps_modify fun _ => hexpected _ _
  split
  · exact keeps_throw _
  · exact keeps_pure _

end PersistentShmChannel

/-! ## A message that breaks off -/

theorem Region.Shows.unique {region : Region} {i : ℕ} {snapshot snapshot' : SlotSnapshot}
    (h : region.Shows i (.committed snapshot)) (h' : region.Shows i (.committed snapshot')) :
    snapshot = snapshot' := by
  obtain ⟨-, hseq, -, hdata⟩ := h
  obtain ⟨-, hseq', -, hdata'⟩ := h'
  cases snapshot
  cases snapshot'
  simp only at hseq hdata hseq' hdata'
  rw [← hseq, ← hseq', ← hdata, ← hdata']

namespace World

variable [Checksum]

/-- The handle takes a message of this sequence. -/
def Expects (w : World) (seq : UInt64) : Prop :=
  w.chan.resyncExpected = true ∨ w.chan.config.multiProducer = true ∨
    w.chan.expectedRecvSeq = seq

/-- The slot at the tail holds chunk `index` of a message. -/
def HoldsChunk (w : World) (seq : UInt64) (first : ChunkInfo) (index : ℕ) : Prop :=
  ∃ snapshot frame, w.region.Shows w.chan.tail (.committed snapshot) ∧ snapshot.seq = seq ∧
    decodeFrame snapshot.data = .ok frame ∧ validateChunk frame seq { first with index } = .ok ()

/-- Of the `remaining` chunks from the tail on, one has a slot that is not
COMMITTED when the handle has consumed the chunks before it. -/
def BreaksOff (w : World) (seq : UInt64) (first : ChunkInfo) (remaining index : ℕ) : Prop :=
  ∃ k < remaining, (∀ j < k, (w.consumed j).HoldsChunk seq first (index + j)) ∧
    (w.consumed k).region.state (w.consumed k).chan.tail ≠ .committed

/-- The snapshot is the first chunk of a message that breaks off. -/
def StartsCutOff (w : World) (snapshot : SlotSnapshot) : Prop :=
  ∃ frame first, decodeFrame snapshot.data = .ok frame ∧ validateBytesFrame frame = .ok () ∧
    snapshot.seq = frame.header.seq ∧ isChunked frame = true ∧ chunkInfo frame = .ok first ∧
      first.index = 0 ∧ first.messageLen ≤ isizeMax ∧
        w.consume.BreaksOff snapshot.seq first (first.total - 1) 1

/-- **The message at the tail is cut off**: the handle is open and takes it,
and it breaks off behind its first chunk. -/
def CutOff (w : World) : Prop :=
  w.chan.closed = false ∧ ∃ snapshot, w.region.Shows w.chan.tail (.committed snapshot) ∧
    w.Expects snapshot.seq ∧ w.StartsCutOff snapshot

variable {w : World} {seq : UInt64} {first : ChunkInfo} {remaining index : ℕ}
  {snapshot : SlotSnapshot}

/-- A slot that is not COMMITTED breaks a message off. -/
theorem breaksOff_of_state (h : w.region.state w.chan.tail ≠ .committed) :
    w.BreaksOff seq first (remaining + 1) index :=
  ⟨0, Nat.succ_pos _, fun _ hj => absurd hj (Nat.not_lt_zero _), h⟩

/-- A message goes on behind a chunk that is there. -/
theorem breaksOff_succ (h : w.HoldsChunk seq first index) :
    w.BreaksOff seq first (remaining + 1) index ↔
      w.consume.BreaksOff seq first remaining (index + 1) := by
  constructor
  · rintro ⟨k, hk, hchunks, hstate⟩
    cases k with
    | zero =>
        obtain ⟨snapshot, frame, hshow, -⟩ := h
        exact absurd hshow.state hstate
    | succ k =>
        refine ⟨k, by omega, fun j hj => ?_, ?_⟩
        · have := hchunks (j + 1) (by omega)
          rwa [← consume_consumed, ← Nat.add_assoc, Nat.add_right_comm] at this
        · rwa [← consume_consumed] at hstate
  · rintro ⟨k, hk, hchunks, hstate⟩
    refine ⟨k + 1, by omega, fun j hj => ?_, ?_⟩
    · cases j with
      | zero => exact h
      | succ j =>
          have := hchunks j (by omega)
          rwa [consume_consumed, Nat.add_right_comm, Nat.add_assoc] at this
    · rwa [consume_consumed] at hstate

/-- A COMMITTED slot that holds something else does not break a message off:
the receive fails on it. -/
theorem not_breaksOff (hstate : w.region.state w.chan.tail = .committed)
    (h : ¬ w.HoldsChunk seq first index) : ¬ w.BreaksOff seq first remaining index := by
  rintro ⟨k, -, hchunks, hlast⟩
  cases k with
  | zero => exact hlast hstate
  | succ k => exact h (hchunks 0 (Nat.succ_pos k))

end World

namespace PersistentShmChannel

open World

variable {w w' : World} {host : Host} {snapshot : SlotSnapshot} {seq : UInt64}
  {first : ChunkInfo} {remaining index : ℕ} {payload : Bytes}

/-- `ChannelError::BufferEmpty`. -/
abbrev bufferEmpty : Failure := .ofChannel .bufferEmpty

theorem BadFrame.not_bufferEmpty {err : Failure} (h : BadFrame err) : err ≠ bufferEmpty := by
  intro he
  cases h <;> cases he

/-- A slot whose frame is longer than its area is refused. -/
theorem readTail_tooLong (hstate : w.region.state w.chan.tail = .committed)
    (hlong : w.region.frameCapacity < w.region.payloadLen w.chan.tail) :
    readTail w = .error (.ofChannel (.messageTooLarge (w.region.payloadLen w.chan.tail)
      w.region.frameCapacity)) w := by
  have hpeek : Region.peekCommitted w.chan.tail w.region =
      .error (.ofChannel (.messageTooLarge (w.region.payloadLen w.chan.tail)
        w.region.frameCapacity)) w.region := by
    simp only [Region.peekCommitted, get_bind, hstate, ne_eq, not_true_eq_false, if_false,
      if_pos hlong]
    rfl
  simp only [readTail, get_bind, onRegion, Region.readCommitted, bind_error hpeek]

/-- A COMMITTED slot is read, or its frame is too long. -/
theorem shows_or_tooLong (hstate : w.region.state w.chan.tail = .committed) :
    (∃ snapshot, w.region.Shows w.chan.tail (.committed snapshot)) ∨
      w.region.frameCapacity < w.region.payloadLen w.chan.tail := by
  rcases Nat.lt_or_ge w.region.frameCapacity (w.region.payloadLen w.chan.tail) with hlong | hfit
  · exact .inr hlong
  · exact .inl ⟨⟨_, _⟩, hstate, rfl, hfit, rfl⟩

theorem readNextChunk_closed (hstate : w.region.state w.chan.tail ≠ .committed)
    (hclosed : w.chan.closed = true) :
    readNextChunk w = .error (.ofChannel .closed) w := by
  have hpoll : pollTailCommitted w = .error (.ofChannel .closed) w := by
    rw [pollTailCommitted, pollTailCommittedFor_succ, if_neg hstate, if_pos hclosed]
  rw [readNextChunk, bind_error hpoll]

/-- A chunk that is refused is released where it is. -/
theorem release_throw {α : Type} (err : Failure) :
    (tailOps.releasePinned >>= fun _ => throw err : ChannelM α) (w.atFront .pinned) =
      .error err (w.atFront .hole) :=
  bind_ok releasePinned_pinned

theorem advance_pinned : tailOps.advanceTailAfterRead (w.atFront .pinned) = .ok () w.consume :=
  advanceTailAfterRead_pinned

/-- What a reassembly that ran out returns, the receive returns. -/
theorem complete_bufferEmpty {x : ChannelM Bytes} {v : World} :
    outcome ((x >>= fun payload => tailOps.bumpExpected >>= fun _ =>
        tailOps.setLastReceived seq >>= fun _ =>
          pure { seq, payload : ReceivedMessage } : ChannelM ReceivedMessage) v) =
        .error bufferEmpty ↔
      outcome (x v) = .error bufferEmpty := by
  cases hx : x v with
  | ok payload v' =>
      rw [bind_ok hx]
      exact iff_of_false (fun h => nomatch h) fun h => nomatch h
  | error err v' =>
      rw [bind_error hx]
      simp only [outcome_error, Except.error.injEq]

/-- A damaged frame fails with its own error. -/
theorem skipDamaged_outcome {α : Type} (err : Failure) :
    outcome (skipDamaged tailOps err (w.atFront .pinned) : EStateM.Result Failure World α) =
      .error err := by
  rw [skipDamaged, bind_ok advance_pinned]
  rfl

theorem consumed_resyncing {resync : Bool} {k : ℕ} :
    (w.resyncing resync).consumed k = (w.consumed k).resyncing resync := by
  induction k with
  | zero => rfl
  | succ k ih => exact congrArg World.consume ih

theorem consumed_expecting {k : ℕ} :
    (w.expecting seq).consumed k = (w.consumed k).expecting seq := by
  induction k with
  | zero => rfl
  | succ k ih => exact congrArg World.consume ih

theorem current_refreshed {d : ℕ}
    (hd : cursorLen w.chan.config.capacity w.region.head w.region.tail = some d) :
    (w.refreshed d).Current :=
  ⟨rfl, rfl, rfl, d, hd⟩

/-- The tail slot of the handle is COMMITTED. -/
abbrev AtCommitted (w : World) : Prop := w.region.state w.chan.tail = .committed

/-- The handle is closed and finds nothing. -/
abbrev ClosedEmpty (w : World) : Prop := w.chan.closed = true ∧ w.chan.len = 0

/-- **`ensure_tail_readable`** of a handle that a refresh accepts. -/
theorem ensureTailReadable_cases {d freed : ℕ}
    (hd : cursorLen w.chan.config.capacity w.region.head w.region.tail = some d)
    (hrec : Reclaims host (w.refreshed d) freed w') :
    ensureTailReadable host w =
      if ClosedEmpty (w.refreshed d) then .error (.ofChannel .closed) (w.refreshed d)
      else if AtCommitted (w.refreshed d) then
        .ok w.chan.resyncExpected (w.refreshed d).unsynced
      else if w.chan.closed then .error (.ofChannel .closed) (w.refreshed d).unsynced
      else if freed = 0 then .error bufferEmpty (w.refreshed d)
      else if AtCommitted w' then .ok w.chan.resyncExpected w'
      else .error bufferEmpty w' := by
  rw [ensureTailReadable, bind_ok (refreshCursors_ok hd), get_bind]
  by_cases hclosed : ClosedEmpty (w.refreshed d)
  · rw [if_pos hclosed, if_pos hclosed]
    rfl
  rw [if_neg hclosed, if_neg hclosed]
  have hpoll : pollTailCommitted (w.refreshed d).unsynced =
      if AtCommitted (w.refreshed d) then .ok true (w.refreshed d).unsynced
      else if w.chan.closed then .error (.ofChannel .closed) (w.refreshed d).unsynced
      else .ok false (w.refreshed d).unsynced := pollTailCommittedFor_succ
  by_cases hstate : AtCommitted (w.refreshed d)
  · rw [if_pos hstate] at hpoll ⊢
    exact (bind_ok hpoll).trans rfl
  rw [if_neg hstate] at hpoll ⊢
  cases hopen : w.chan.closed with
  | true =>
      rw [hopen, if_pos rfl] at hpoll
      rw [if_pos rfl]
      exact (bind_error hpoll).trans rfl
  | false =>
      rw [hopen] at hpoll
      rw [if_neg Bool.false_ne_true] at hpoll ⊢
      refine (bind_ok hpoll).trans ?_
      have hcall := hrec.call false
      by_cases hzero : freed = 0
      · rw [if_pos hzero] at hcall ⊢
        subst hzero
        exact (bind_ok hcall).trans rfl
      · rw [if_neg hzero] at hcall ⊢
        refine (bind_ok hcall).trans ?_
        rw [if_neg hzero]
        have htail : tailCommitted w' = .ok (decide (AtCommitted w')) w' := rfl
        refine (bind_ok htail).trans ?_
        by_cases hafter : AtCommitted w'
        · rw [if_pos hafter, decide_eq_true hafter]
          rfl
        · rw [if_neg hafter, decide_eq_false hafter]
          rfl

/-- A result of `recv_with_seq` as `try_recv` hands it on. -/
def someResult : EStateM.Result Failure World ReceivedMessage →
    EStateM.Result Failure World (Option Bytes)
  | .ok message w => .ok (some message.payload) w
  | .error err w => .error err w

theorem final_someResult (r : EStateM.Result Failure World ReceivedMessage) :
    final (someResult r) = final r := by
  cases r <;> rfl

/-- What `try_recv` should make of what `recv` returns: `BufferEmpty` is
nothing to read, and the rest is handed on. -/
def polled : EStateM.Result Failure World Bytes → EStateM.Result Failure World (Option Bytes)
  | .ok payload w => .ok (some payload) w
  | .error err w => if err = bufferEmpty then .ok none w else .error err w

theorem final_polled (r : EStateM.Result Failure World Bytes) : final (polled r) = final r := by
  cases r with
  | ok payload w => rfl
  | error err w =>
      unfold polled
      simp only
      split <;> rfl

theorem polled_error {err : Failure} (h : err ≠ bufferEmpty) :
    polled (.error err w) = .error err w := if_neg h

variable [Checksum]

/-- **The chunk loop runs dry** exactly where the message breaks off. -/
theorem recvChunks_bufferEmpty :
    outcome (recvChunks tailOps seq first remaining index payload w) = .error bufferEmpty ↔
      w.chan.closed = false ∧ w.BreaksOff seq first remaining index := by
  induction remaining generalizing w index payload with
  | zero =>
      constructor
      · intro h
        unfold recvChunks at h
        split at h <;> cases h
      · rintro ⟨-, k, hk, -⟩
        exact absurd hk (Nat.not_lt_zero k)
  | succ remaining ih =>
      rw [recvChunks]
      by_cases hstate : w.region.state w.chan.tail = .committed
      · rcases shows_or_tooLong hstate with ⟨snapshot, hshow⟩ | hlong
        · have hread : tailOps.readNext w = .ok snapshot (w.atFront .pinned) :=
            readNextChunk_ok hshow
          rw [bind_ok hread]
          -- A chunk that is there and is refused is an error of its own.
          have hrefused (hno : ¬ w.HoldsChunk seq first index) (err : Failure)
              (herr : err ≠ bufferEmpty) :
              outcome ((tailOps.releasePinned >>= fun _ => throw err : ChannelM Bytes)
                  (w.atFront .pinned)) = .error bufferEmpty ↔
                w.chan.closed = false ∧ w.BreaksOff seq first (remaining + 1) index := by
            rw [release_throw]
            exact iff_of_false (fun h => herr (Except.error.inj h))
              fun h => not_breaksOff hstate hno h.2
          by_cases hseq : snapshot.seq = seq
          · rw [if_neg (not_not.2 hseq)]
            cases hdec : decodeFrame snapshot.data with
            | error err =>
                refine hrefused ?_ err (BadFrame.not_bufferEmpty (checksFrame_decodeFrame err hdec))
                rintro ⟨snapshot', frame, hshow', -, hdec', -⟩
                rw [← hshow.unique hshow', hdec] at hdec'
                cases hdec'
            | ok frame =>
                cases hval : validateChunk frame seq { first with index } with
                | error err =>
                    simp only [hval]
                    refine hrefused ?_ err
                      (BadFrame.not_bufferEmpty (checksFrame_validateChunk err hval))
                    rintro ⟨snapshot', frame', hshow', -, hdec', hval'⟩
                    rw [← hshow.unique hshow', hdec] at hdec'
                    cases hdec'
                    rw [hval] at hval'
                    cases hval'
                | ok =>
                    simp only [hval]
                    rw [bind_ok advance_pinned, ih,
                      breaksOff_succ ⟨snapshot, frame, hshow, hseq, hdec, hval⟩]
                    rfl
          · rw [if_pos hseq]
            refine hrefused ?_ _ (fun h => by cases h)
            rintro ⟨snapshot', frame, hshow', hseq', -⟩
            rw [← hshow.unique hshow'] at hseq'
            exact hseq hseq'
        · have hnext : tailOps.readNext w = .error (.ofChannel (.messageTooLarge
              (w.region.payloadLen w.chan.tail) w.region.frameCapacity)) w :=
            (bind_ok (pollTailCommitted_true hstate)).trans (readTail_tooLong hstate hlong)
          rw [bind_error hnext]
          refine iff_of_false (fun h => by cases h) fun h => not_breaksOff hstate ?_ h.2
          rintro ⟨snapshot, frame, hshow, -⟩
          exact absurd hshow.2.2.1 (Nat.not_le.2 hlong)
      · cases hclosed : w.chan.closed with
        | true =>
            have hnext : tailOps.readNext w = .error (.ofChannel .closed) w :=
              readNextChunk_closed hstate hclosed
            rw [bind_error hnext]
            exact iff_of_false (fun h => by cases h) fun h => by cases h.1
        | false =>
            have hnext : tailOps.readNext w = .error bufferEmpty w :=
              readNextChunk_empty hstate hclosed
            rw [bind_error hnext]
            exact iff_of_true rfl ⟨rfl, breaksOff_of_state hstate⟩

theorem recvChunkedMessage_bufferEmpty {frame : Frame} :
    outcome (recvChunkedMessageWith tailOps seq frame (w.atFront .pinned)) =
        .error bufferEmpty ↔
      ∃ first, chunkInfo frame = .ok first ∧ first.index = 0 ∧ first.messageLen ≤ isizeMax ∧
        w.chan.closed = false ∧ w.consume.BreaksOff seq first (first.total - 1) 1 := by
  unfold recvChunkedMessageWith
  cases hinfo : chunkInfo frame with
  | error err =>
      simp only
      rw [release_throw]
      refine iff_of_false (fun h => ?_) fun ⟨_, h, _⟩ => nomatch h
      exact BadFrame.not_bufferEmpty (checksFrame_chunkInfo err hinfo) (Except.error.inj h)
  | ok first =>
      simp only [Except.ok.injEq, exists_eq_left']
      by_cases hindex : first.index = 0
      · rw [if_neg (not_not.2 hindex)]
        by_cases hlen : first.messageLen ≤ isizeMax
        · rw [if_neg (Nat.not_lt.2 hlen), bind_ok advance_pinned, recvChunks_bufferEmpty]
          exact ⟨fun h => ⟨hindex, hlen, h⟩, fun h => h.2.2⟩
        · rw [if_pos (Nat.lt_of_not_le hlen)]
          exact iff_of_false (fun h => nomatch h) fun h => hlen h.2.1
      · rw [if_pos hindex, release_throw]
        exact iff_of_false (fun h => nomatch h) fun h => hindex h.1

/-- **A receive that holds its first frame runs dry** exactly where the
message is cut off. -/
theorem finishRecv_bufferEmpty :
    outcome (finishRecv tailOps snapshot (w.atFront .pinned)) = .error bufferEmpty ↔
      w.chan.closed = false ∧ w.StartsCutOff snapshot := by
  have hskip (err : Failure) (herr : err ≠ bufferEmpty) (hno : ¬ w.StartsCutOff snapshot) :
      outcome (skipDamaged tailOps err (w.atFront .pinned) :
          EStateM.Result Failure World ReceivedMessage) = .error bufferEmpty ↔
        w.chan.closed = false ∧ w.StartsCutOff snapshot := by
    rw [skipDamaged_outcome]
    exact iff_of_false (fun h => herr (Except.error.inj h)) fun h => hno h.2
  cases hdec : decodeFrame snapshot.data with
  | error err =>
      simp only [finishRecv, hdec]
      refine hskip err (BadFrame.not_bufferEmpty (checksFrame_decodeFrame err hdec)) ?_
      rintro ⟨frame, first, hdec', -⟩
      cases hdec.symm.trans hdec'
  | ok frame =>
      cases hval : validateBytesFrame frame with
      | error err =>
          simp only [finishRecv, hdec, hval]
          refine hskip err (BadFrame.not_bufferEmpty (checksFrame_validateBytesFrame err hval)) ?_
          rintro ⟨frame', first, hdec', hval', -⟩
          cases hdec.symm.trans hdec'
          cases hval.symm.trans hval'
      | ok =>
          by_cases hseq : snapshot.seq = frame.header.seq
          · rw [finishRecv_of_valid hdec hval hseq]
            cases hchunk : isChunked frame with
            | false =>
                rw [if_neg Bool.false_ne_true, bind_ok advance_pinned]
                refine iff_of_false (fun h => by cases h) ?_
                rintro ⟨-, frame', first, hdec', -, -, hchunk', -⟩
                cases hdec.symm.trans hdec'
                cases hchunk.symm.trans hchunk'
            | true =>
                rw [if_pos rfl, complete_bufferEmpty, recvChunkedMessage_bufferEmpty]
                constructor
                · rintro ⟨first, hinfo, hindex, hlen, hclosed, hbreak⟩
                  exact ⟨hclosed, frame, first, hdec, hval, hseq, hchunk, hinfo, hindex, hlen,
                    hbreak⟩
                · rintro ⟨hclosed, frame', first, hdec', -, -, -, hinfo, hindex, hlen, hbreak⟩
                  cases hdec.symm.trans hdec'
                  exact ⟨first, hinfo, hindex, hlen, hclosed, hbreak⟩
          · simp only [finishRecv, hdec, hval, ne_eq, hseq, not_false_eq_true, if_true]
            refine hskip _ (fun h => by cases h) ?_
            rintro ⟨frame', first, hdec', -, hseq', -⟩
            cases hdec.symm.trans hdec'
            exact hseq hseq'

/-! ## The sequence check and the flag -/

/-- Worlds that consume the same slots cut the same messages off. -/
theorem startsCutOff_congr {v : World}
    (h : ∀ k, (v.consumed k).region = (w.consumed k).region ∧
      (v.consumed k).chan.tail = (w.consumed k).chan.tail) :
    v.StartsCutOff snapshot ↔ w.StartsCutOff snapshot := by
  simp only [StartsCutOff, BreaksOff, HoldsChunk, consume_consumed, (h _).1, (h _).2]

/-- A slot that announces more bytes than it has is not read. -/
theorem readMessage_tooLong (resync : Bool) (hstate : w.region.state w.chan.tail = .committed)
    (hlong : w.region.frameCapacity < w.region.payloadLen w.chan.tail) :
    readMessage resync w = .error (.ofChannel (.messageTooLarge
      (w.region.payloadLen w.chan.tail) w.region.frameCapacity)) w :=
  bind_error (readTail_tooLong hstate hlong)

/-- A read whose sequence is adopted, or expected, gets to the frame. -/
theorem readMessage_expected {resync : Bool}
    (hshow : w.region.Shows w.chan.tail (.committed snapshot))
    (hexp : resync = true ∨ w.chan.config.multiProducer = true ∨
      w.chan.expectedRecvSeq = snapshot.seq) :
    readMessage resync w = finishRecv tailOps snapshot
      ((w.expecting
        (if resync then snapshot.seq else w.chan.expectedRecvSeq)).atFront .pinned) := by
  rw [readMessage, bind_ok (readTail_ok hshow)]
  exact bind_ok (checkSeq_ok (w := w.atFront .pinned) hexp)

/-- A read whose sequence is refused leaves the slot PINNED. -/
theorem readMessage_mismatch {resync : Bool}
    (hshow : w.region.Shows w.chan.tail (.committed snapshot))
    (hexp : ¬ (resync = true ∨ w.chan.config.multiProducer = true ∨
      w.chan.expectedRecvSeq = snapshot.seq)) :
    readMessage resync w = .error (.ofChannel
      (.sequenceMismatch w.chan.expectedRecvSeq snapshot.seq)) (w.atFront .pinned) := by
  rw [readMessage, bind_ok (readTail_ok hshow)]
  exact bind_error (checkSeq_mismatch (w := w.atFront .pinned) hexp)

/-- **`recv_with_seq` runs dry behind its prologue** exactly where the
message at the tail is cut off. -/
theorem readMessage_bufferEmpty (hstate : w.region.state w.chan.tail = .committed) :
    outcome (readMessage w.chan.resyncExpected w.unsynced) = .error bufferEmpty ↔ w.CutOff := by
  rcases shows_or_tooLong hstate with ⟨snapshot, hshow⟩ | hlong
  · have hshow' : w.unsynced.region.Shows w.unsynced.chan.tail (.committed snapshot) := hshow
    by_cases hexp : w.Expects snapshot.seq
    · have hsame (expected : UInt64) (k : ℕ) : ((w.unsynced.expecting expected).consumed k).region =
            (w.consumed k).region ∧
          ((w.unsynced.expecting expected).consumed k).chan.tail = (w.consumed k).chan.tail := by
        rw [consumed_expecting, show w.unsynced = w.resyncing false from rfl, consumed_resyncing]
        exact ⟨rfl, rfl⟩
      rw [readMessage_expected hshow' hexp, finishRecv_bufferEmpty,
        startsCutOff_congr (hsame _)]
      constructor
      · rintro ⟨hclosed, hcut⟩
        exact ⟨hclosed, snapshot, hshow, hexp, hcut⟩
      · rintro ⟨hclosed, snapshot', hshow', -, hcut⟩
        rw [← hshow.unique hshow'] at hcut
        exact ⟨hclosed, hcut⟩
    · rw [readMessage_mismatch hshow' hexp]
      refine iff_of_false (fun h => nomatch h) ?_
      rintro ⟨-, snapshot', hshow', hexp', -⟩
      rw [← hshow.unique hshow'] at hexp'
      exact hexp hexp'
  · rw [readMessage_tooLong (w := w.unsynced) _ hstate hlong]
    refine iff_of_false (fun h => nomatch h) ?_
    rintro ⟨-, snapshot, hshow, -⟩
    exact absurd hshow.2.2.1 (Nat.not_le.2 hlong)

/-! ## The two calls -/

theorem someResult_eq (host : Host) (w : World) :
    (recvWithSeq host >>= fun message => pure (some message.payload) : ChannelM (Option Bytes)) w =
      someResult (recvWithSeq host w) := by
  cases h : recvWithSeq host w with
  | ok message w' => exact bind_ok h
  | error err w' => exact bind_error h

/-- **`try_recv`** of a handle that a refresh accepts. -/
theorem tryRecv_cases {d freed : ℕ}
    (hd : cursorLen w.chan.config.capacity w.region.head w.region.tail = some d)
    (hrec : Reclaims host (w.refreshed d) freed w') :
    tryRecv host w =
      if ClosedEmpty (w.refreshed d) then .error (.ofChannel .closed) (w.refreshed d)
      else if AtCommitted (w.refreshed d) then someResult (recvWithSeq host (w.refreshed d))
      else if freed = 0 then .ok none (w.refreshed d)
      else if AtCommitted w' then someResult (recvWithSeq host w')
      else .ok none w' := by
  rw [tryRecv, bind_ok (refreshCursors_ok hd), get_bind]
  by_cases hclosed : ClosedEmpty (w.refreshed d)
  · rw [if_pos hclosed, if_pos hclosed]
    rfl
  rw [if_neg hclosed, if_neg hclosed]
  have htail (v : World) : tailCommitted v = .ok (decide (AtCommitted v)) v := rfl
  refine (bind_ok (htail (w.refreshed d))).trans ?_
  by_cases hstate : AtCommitted (w.refreshed d)
  · rw [if_pos hstate, decide_eq_true hstate, if_pos rfl]
    exact someResult_eq host (w.refreshed d)
  rw [if_neg hstate, decide_eq_false hstate, if_neg Bool.false_ne_true]
  have hcall := hrec.call w.chan.resyncExpected
  by_cases hzero : freed = 0
  · rw [if_pos hzero] at hcall ⊢
    subst hzero
    exact (bind_ok hcall).trans rfl
  · rw [if_neg hzero] at hcall ⊢
    refine (bind_ok hcall).trans ?_
    rw [if_neg hzero]
    refine (bind_ok (htail w')).trans ?_
    by_cases hafter : AtCommitted w'
    · rw [if_pos hafter, decide_eq_true hafter, if_pos rfl]
      exact someResult_eq host w'
    · rw [if_neg hafter, decide_eq_false hafter]
      rfl

/-! ## What is left of the flag and of the counter -/

theorem recvWithSeq_eq : recvWithSeq host = ensureTailReadable host >>= readMessage := rfl

variable (host) in
/-- **`recv_with_seq` at a COMMITTED tail**. -/
theorem recvWithSeq_atCommitted (hw : w.Current) (hstate : AtCommitted w) :
    ∃ d, cursorLen w.chan.config.capacity w.region.head w.region.tail = some d ∧
      recvWithSeq host w =
        if ClosedEmpty (w.refreshed d) then .error (.ofChannel .closed) (w.refreshed d)
        else readMessage w.chan.resyncExpected (w.refreshed d).unsynced := by
  obtain ⟨d, hd⟩ := hw.depth
  obtain ⟨freed, w', hrec⟩ := exists_reclaims host (current_refreshed hd)
  have hcommitted : AtCommitted (w.refreshed d) := by
    have hindex : (w.refreshed d).chan.tail = w.chan.tail := hw.index.symm
    rw [AtCommitted, hindex]
    exact hstate
  have hensure := ensureTailReadable_cases hd hrec
  refine ⟨d, hd, ?_⟩
  rw [recvWithSeq_eq]
  by_cases hclosed : ClosedEmpty (w.refreshed d)
  · rw [if_pos hclosed] at hensure ⊢
    exact bind_error hensure
  · rw [if_neg hclosed, if_pos hcommitted] at hensure
    rw [if_neg hclosed]
    exact bind_ok hensure

theorem readMessage_resync (resync : Bool) (w : World) :
    (final (readMessage resync w)).chan.resyncExpected = w.chan.resyncExpected :=
  keeps_readMessage PersistentShmChannel.resyncExpected (fun _ => rfl) (fun _ _ => rfl)
    (fun _ _ => rfl) resync w

theorem readMessage_reclaimed (resync : Bool) (w : World) :
    (final (readMessage resync w)).chan.reclaimedSlots = w.chan.reclaimedSlots :=
  keeps_readMessage PersistentShmChannel.reclaimedSlots (fun _ => rfl) (fun _ _ => rfl)
    (fun _ _ => rfl) resync w

/-- A receive at a COMMITTED tail reclaims nothing. -/
theorem recvWithSeq_reclaimed (hw : w.Current) (hstate : AtCommitted w) :
    (final (recvWithSeq host w)).chan.reclaimedSlots = w.chan.reclaimedSlots := by
  obtain ⟨d, -, heq⟩ := recvWithSeq_atCommitted host hw hstate
  rw [heq]
  split
  · rfl
  · exact readMessage_reclaimed _ _

/-- A receive at a COMMITTED tail takes the flag of an open handle. -/
theorem recvWithSeq_resync (hw : w.Current) (hstate : AtCommitted w)
    (hopen : w.chan.closed = false) :
    (final (recvWithSeq host w)).chan.resyncExpected = false := by
  obtain ⟨d, -, heq⟩ := recvWithSeq_atCommitted host hw hstate
  have hnot : ¬ ClosedEmpty (w.refreshed d) := by
    rintro ⟨hclosed, -⟩
    exact Bool.false_ne_true (hopen.symm.trans hclosed)
  rw [heq, if_neg hnot]
  exact readMessage_resync _ _

/-! ## Agreement -/

theorem recv_eq (host : Host) (w : World) :
    recv host w =
      match recvWithSeq host w with
      | .ok message w' => .ok message.payload w'
      | .error err w' => .error err w' := by
  cases h : recvWithSeq host w with
  | ok message w' => exact bind_ok h
  | error err w' => exact bind_error h

theorem final_recv (host : Host) (w : World) :
    final (recv host w) = final (recvWithSeq host w) := by
  rw [recv_eq]
  cases recvWithSeq host w <;> rfl

/-- Both hand on the same unless a receive ran dry. -/
theorem someResult_eq_polled (h : outcome (recvWithSeq host w) ≠ .error bufferEmpty) :
    someResult (recvWithSeq host w) = polled (recv host w) := by
  rw [recv_eq]
  cases hr : recvWithSeq host w with
  | ok message w' => rfl
  | error err w' =>
      rw [hr] at h
      exact (if_neg fun he => h (congrArg Except.error he)).symm

/-- **When polling agrees with receiving**: the handle is closed and finds
nothing; or the tail slot is COMMITTED and the message behind it is not cut
off; or the slot is not, the handle is open, and a reclaim uncovers
nothing. -/
def PollsAlike (host : Host) (w : World) : Prop :=
  ∀ d, cursorLen w.chan.config.capacity w.region.head w.region.tail = some d →
    ClosedEmpty (w.refreshed d) ∨
      (AtCommitted (w.refreshed d) ∧ ¬ (w.refreshed d).CutOff) ∨
        (¬ AtCommitted (w.refreshed d) ∧ w.chan.closed = false ∧
          ¬ Uncovers host (w.refreshed d))

theorem pollsAlike_of_len {d : ℕ}
    (hd : cursorLen w.chan.config.capacity w.region.head w.region.tail = some d) :
    PollsAlike host w ↔ ClosedEmpty (w.refreshed d) ∨
      (AtCommitted (w.refreshed d) ∧ ¬ (w.refreshed d).CutOff) ∨
        (¬ AtCommitted (w.refreshed d) ∧ w.chan.closed = false ∧
          ¬ Uncovers host (w.refreshed d)) := by
  constructor
  · exact fun h => h d hd
  · intro h d' hd'
    cases hd.symm.trans hd'
    exact h

/-- On inconsistent cursors both calls fail at their refresh. -/
theorem agree_inconsistent
    (hd : cursorLen w.chan.config.capacity w.region.head w.region.tail = none) :
    tryRecv host w = polled (recv host w) := by
  have hrefresh := refreshCursors_none hd
  have htry : tryRecv host w = .error inconsistentCursors
      { w with chan := w.chan.withCursors w.region.head w.region.tail w.region.pinFloor } :=
    bind_error hrefresh
  have hreceive : recvWithSeq host w = .error inconsistentCursors
      { w with chan := w.chan.withCursors w.region.head w.region.tail w.region.pinFloor } :=
    bind_error (bind_error hrefresh)
  have hne : inconsistentCursors ≠ bufferEmpty := fun h => nomatch h
  rw [htry, recv_eq, hreceive]
  exact (polled_error hne).symm

/-- A closed handle that finds nothing fails both calls alike. -/
theorem agree_closed {d freed : ℕ}
    (hd : cursorLen w.chan.config.capacity w.region.head w.region.tail = some d)
    (hrec : Reclaims host (w.refreshed d) freed w') (hempty : ClosedEmpty (w.refreshed d)) :
    tryRecv host w = polled (recv host w) := by
  have hensure := ensureTailReadable_cases hd hrec
  rw [if_pos hempty] at hensure
  rw [tryRecv_cases hd hrec, if_pos hempty, recv_eq, recvWithSeq_eq, bind_error hensure]
  rfl

/-- At a COMMITTED tail the calls differ where the message is cut off. -/
theorem agree_committed {d freed : ℕ}
    (hd : cursorLen w.chan.config.capacity w.region.head w.region.tail = some d)
    (hrec : Reclaims host (w.refreshed d) freed w') (hopen : ¬ ClosedEmpty (w.refreshed d))
    (hstate : AtCommitted (w.refreshed d)) :
    tryRecv host w = polled (recv host w) ↔ ¬ (w.refreshed d).CutOff := by
  have hensure (v : World) (hv : v = w ∨ v = w.refreshed d) :
      recvWithSeq host v = readMessage w.chan.resyncExpected (w.refreshed d).unsynced := by
    have hensure : ensureTailReadable host v =
        .ok w.chan.resyncExpected (w.refreshed d).unsynced := by
      rcases hv with rfl | rfl
      · rw [ensureTailReadable_cases hd hrec, if_neg hopen, if_pos hstate]
      · rw [ensureTailReadable_cases (w := w.refreshed d) hd hrec]
        exact (if_neg hopen).trans (if_pos hstate)
    rw [recvWithSeq_eq, bind_ok hensure]
  have hsame : recvWithSeq host (w.refreshed d) = recvWithSeq host w :=
    (hensure _ (.inr rfl)).trans (hensure _ (.inl rfl)).symm
  have hdry : outcome (recvWithSeq host w) = .error bufferEmpty ↔ (w.refreshed d).CutOff := by
    rw [hensure w (.inl rfl)]
    exact readMessage_bufferEmpty hstate
  rw [tryRecv_cases hd hrec, if_neg hopen, if_pos hstate, hsame, ← hdry]
  constructor
  · intro heq hempty
    rw [recv_eq] at heq
    cases hr : recvWithSeq host w with
    | ok message w' =>
        rw [hr] at hempty
        cases hempty
    | error err w' =>
        rw [hr] at hempty heq
        cases hempty
        cases heq
  · exact someResult_eq_polled

/-- A closed handle with a depth differs where the tail is not COMMITTED:
`recv` fails on the flag before it looks for a reclaim. -/
theorem disagree_closed {d freed : ℕ}
    (hd : cursorLen w.chan.config.capacity w.region.head w.region.tail = some d)
    (hrec : Reclaims host (w.refreshed d) freed w') (hopen : ¬ ClosedEmpty (w.refreshed d))
    (hstate : ¬ AtCommitted (w.refreshed d)) (hclosed : w.chan.closed = true) :
    tryRecv host w ≠ polled (recv host w) := by
  have hrecv : polled (recv host w) = .error (.ofChannel .closed) (w.refreshed d).unsynced := by
    have hensure := ensureTailReadable_cases hd hrec
    rw [if_neg hopen, if_neg hstate, if_pos hclosed] at hensure
    rw [recv_eq, recvWithSeq_eq, bind_error hensure]
    exact polled_error fun h => nomatch h
  rw [hrecv, tryRecv_cases hd hrec, if_neg hopen, if_neg hstate]
  by_cases hzero : freed = 0
  · rw [if_pos hzero]
    exact fun h => nomatch h
  rw [if_neg hzero]
  by_cases hafter : AtCommitted w'
  · rw [if_pos hafter]
    intro h
    -- The reclaim that only `try_recv` came to shows in the counter.
    have hfinal := congrArg (fun r => (final r).chan.reclaimedSlots) h
    simp only [final_someResult, final_error] at hfinal
    rw [recvWithSeq_reclaimed hrec.current hafter, hrec.counted] at hfinal
    have hkept : (w.refreshed d).unsynced.chan.reclaimedSlots =
      (w.refreshed d).chan.reclaimedSlots := rfl
    omega
  · rw [if_neg hafter]
    exact fun h => nomatch h

/-- An open handle at a tail that is not COMMITTED differs where a reclaim
uncovers a message: `recv` leaves the flag for the next one. -/
theorem agree_reclaim {d freed : ℕ}
    (hd : cursorLen w.chan.config.capacity w.region.head w.region.tail = some d)
    (hrec : Reclaims host (w.refreshed d) freed w') (hopen : ¬ ClosedEmpty (w.refreshed d))
    (hstate : ¬ AtCommitted (w.refreshed d)) (hclosed : w.chan.closed = false) :
    tryRecv host w = polled (recv host w) ↔ ¬ Uncovers host (w.refreshed d) := by
  have hensure := ensureTailReadable_cases hd hrec
  rw [if_neg hopen, if_neg hstate, hclosed, if_neg Bool.false_ne_true] at hensure
  rw [tryRecv_cases hd hrec, if_neg hopen, if_neg hstate]
  rw [← hrec.uncovers]
  by_cases hzero : freed = 0
  · rw [if_pos hzero] at hensure ⊢
    refine iff_of_true ?_ (fun h => by omega)
    rw [recv_eq, recvWithSeq_eq, bind_error hensure]
    rfl
  rw [if_neg hzero] at hensure ⊢
  by_cases hafter : AtCommitted w'
  · rw [if_pos hafter] at hensure ⊢
    refine iff_of_false (fun h => ?_) (not_not.2 ⟨by omega, hafter⟩)
    -- `recv` cleared the flag before the reclaim set it; `try_recv` used it up.
    have hfinal := congrArg (fun r => (final r).chan.resyncExpected) h
    have hreceived : recvWithSeq host w = readMessage w.chan.resyncExpected w' := by
      rw [recvWithSeq_eq, bind_ok hensure]
    simp only [final_someResult, final_polled, final_recv, hreceived, readMessage_resync,
      hrec.resync] at hfinal
    rw [recvWithSeq_resync hrec.current hafter (hrec.closed.trans hclosed)] at hfinal
    cases hfinal
  · rw [if_neg hafter] at hensure ⊢
    refine iff_of_true ?_ (fun h => hafter h.2)
    rw [recv_eq, recvWithSeq_eq, bind_error hensure]
    rfl

end PersistentShmChannel

open PersistentShmChannel World

/-- **Polling agrees with receiving** exactly where the handle is closed and
finds nothing, the tail slot is COMMITTED and its message whole, or the slot
is not, the handle is open and no reclaim uncovers a message. -/
theorem tryRecv_agrees_iff [Checksum] (host : Host) (w : World) :
    tryRecv host w = polled (recv host w) ↔ PollsAlike host w := by
  cases hd : cursorLen w.chan.config.capacity w.region.head w.region.tail with
  | none =>
      exact iff_of_true (agree_inconsistent hd) fun d hd' => nomatch hd.symm.trans hd'
  | some d =>
      obtain ⟨freed, w', hrec⟩ := exists_reclaims host (current_refreshed hd)
      rw [pollsAlike_of_len hd]
      by_cases hempty : ClosedEmpty (w.refreshed d)
      · exact iff_of_true (agree_closed hd hrec hempty) (.inl hempty)
      by_cases hstate : AtCommitted (w.refreshed d)
      · rw [agree_committed hd hrec hempty hstate]
        constructor
        · exact fun hwhole => .inr (.inl ⟨hstate, hwhole⟩)
        · rintro (h | ⟨-, hwhole⟩ | ⟨h, -⟩)
          · exact absurd h hempty
          · exact hwhole
          · exact absurd hstate h
      cases hclosed : w.chan.closed with
      | true =>
          refine iff_of_false (disagree_closed hd hrec hempty hstate hclosed) ?_
          rintro (h | ⟨h, -⟩ | ⟨-, h, -⟩)
          · exact hempty h
          · exact hstate h
          · cases h
      | false =>
          rw [agree_reclaim hd hrec hempty hstate hclosed]
          constructor
          · exact fun hcovered => .inr (.inr ⟨hstate, rfl, hcovered⟩)
          · rintro (h | ⟨h, -⟩ | ⟨-, -, hcovered⟩)
            · exact absurd h hempty
            · exact absurd h hstate
            · exact hcovered

/-- A multi-producer ring of one slot that a live producer has reserved and
not yet written, under a handle that was closed. -/
def sampleClosed : World where
  chan := { (sampleWorld ⟨1, 1, .raise, none, true⟩).chan with closed := true }
  region := { (sampleWorld ⟨1, 1, .raise, none, true⟩).region with head := 1 }

/-- **`recv` fails with `Closed` where `try_recv` finds nothing yet.** -/
theorem tryRecv_closed_differs :
    ¬ ∀ (host : Host) (w : World),
      @tryRecv crc32Checksum host w = polled (@recv crc32Checksum host w) := by
  intro h
  have hd : cursorLen sampleClosed.chan.config.capacity sampleClosed.region.head
      sampleClosed.region.tail = some 1 := by decide +kernel
  obtain ⟨freed, w', hrec⟩ := exists_reclaims sampleHost (current_refreshed hd)
  exact @disagree_closed sampleClosed w' sampleHost crc32Checksum 1 freed hd hrec
    (by decide +kernel) (by decide +kernel) rfl (h sampleHost sampleClosed)

end Dsline
