import Dsline.Shm.ChannelRecv
import Dsline.Shm.Inbox
import Dsline.Shm.MessageCodec
import Dsline.Shm.Ring
/-!
# Consuming slots

A receive consumes slots one at a time from the tail on. `World.consumed`
is the world after that, and the persistent channel's receive steps agree
with the inbox's along it, so a receive at a tail that offers the frames of
a message returns the message and leaves the world with exactly those slots
consumed (`finishRecv_delivers`).
-/

namespace Dsline

open Simulation PersistentShmChannel

namespace World

/-- The world once the slot at the tail is consumed. -/
def consume (w : World) : World where
  chan := w.chan.stepTail
  region := (w.region.forceRelease w.chan.tail).fetchMaxTail w.chan.stepTail.tailCursor

/-- The world once `k` slots are consumed. -/
def consumed (w : World) : ℕ → World
  | 0 => w
  | k + 1 => (w.consumed k).consume

/-- The world with the slot at the tail as a receive has it. -/
def atFront (w : World) : Front → World
  | .clean => w
  | .pinned =>
      { w with region := w.region.setSlot w.chan.tail (w.region.slots w.chan.tail).pinned }
  | .hole => { w with region := w.region.forceRelease w.chan.tail }

/-- The world with its receive counters. -/
def counted (w : World) (expected : UInt64) (last : Option UInt64) : World :=
  { w with chan := { w.chan with expectedRecvSeq := expected, lastReceivedSeq := last } }

/-- From the tail on the region offers these frames, and no more. -/
def Offers (w : World) (frames : List SlotSnapshot) : Prop :=
  w.chan.closed = false ∧
  (∀ k (hk : k < frames.length),
    (w.consumed k).region.Shows (w.consumed k).chan.tail (.committed frames[k])) ∧
  (w.consumed frames.length).region.state (w.consumed frames.length).chan.tail ≠ .committed

/-- A world in the middle of a receive from `w`, and the inbox that says
where it is. -/
def Reading (w : World) (frames : List SlotSnapshot) (w' : World) (inbox : Inbox) : Prop :=
  inbox.consumed ≤ frames.length ∧ inbox.frames = frames.drop inbox.consumed ∧
  (inbox.front = .pinned → inbox.consumed < frames.length) ∧
  w' = ((w.consumed inbox.consumed).atFront inbox.front).counted inbox.expected inbox.last

variable {w w' : World} {frames : List SlotSnapshot} {inbox : Inbox} {k : ℕ}

@[simp] theorem consume_config : w.consume.chan.config = w.chan.config := rfl
@[simp] theorem consume_closed : w.consume.chan.closed = w.chan.closed := rfl

@[simp] theorem consumed_config : (w.consumed k).chan.config = w.chan.config := by
  induction k with
  | zero => rfl
  | succ k ih => simpa [consumed] using ih

@[simp] theorem consumed_closed : (w.consumed k).chan.closed = w.chan.closed := by
  induction k with
  | zero => rfl
  | succ k ih => simpa [consumed] using ih

end World

namespace PersistentShmChannel

variable {w w' : World} {frames : List SlotSnapshot} {snapshot : SlotSnapshot} {rounds : ℕ}

/-! ## The steps -/

/-- A poll sees one header. -/
theorem pollTailCommittedFor_succ :
    pollTailCommittedFor (rounds + 1) w =
      if w.region.state w.chan.tail = .committed then .ok true w
      else if w.chan.closed then .error (.ofChannel .closed) w
      else .ok false w := by
  induction rounds with
  | zero =>
      rw [pollTailCommittedFor, Effect.get_bind]
      split
      · rfl
      · split <;> rfl
  | succ rounds ih =>
      rw [pollTailCommittedFor, Effect.get_bind]
      split
      · rfl
      · rename_i hs
        split
        · rfl
        · rename_i hc
          exact ih.trans (by rw [if_neg hs, if_neg hc])

theorem pollTailCommitted_true (h : w.region.state w.chan.tail = .committed) :
    pollTailCommitted w = .ok true w := by
  rw [pollTailCommitted, pollTailCommittedFor_succ, if_pos h]

theorem pollTailCommitted_false (h : w.region.state w.chan.tail ≠ .committed)
    (hc : w.chan.closed = false) : pollTailCommitted w = .ok false w := by
  rw [pollTailCommitted, pollTailCommittedFor_succ, if_neg h, if_neg (by simp [hc])]

theorem readTail_ok (h : w.region.Shows w.chan.tail (.committed snapshot)) :
    readTail w = .ok snapshot (w.atFront .pinned) := by
  simp only [readTail, Effect.get_bind, onRegion, Region.readCommitted_ok h]
  rfl

theorem readNextChunk_ok (h : w.region.Shows w.chan.tail (.committed snapshot)) :
    readNextChunk w = .ok snapshot (w.atFront .pinned) := by
  rw [readNextChunk, Effect.bind_ok (pollTailCommitted_true h.state), if_pos rfl, readTail_ok h]

theorem readNextChunk_empty (h : w.region.state w.chan.tail ≠ .committed)
    (hc : w.chan.closed = false) :
    readNextChunk w = .error (.ofChannel .bufferEmpty) w := by
  rw [readNextChunk, Effect.bind_ok (pollTailCommitted_false h hc)]
  rfl

/-- Advancing over the pinned tail slot consumes it. -/
theorem advanceTailAfterRead_pinned :
    advanceTailAfterRead (w.atFront .pinned) = .ok () w.consume := by
  have hrel : Region.releasePinned w.chan.tail (w.atFront .pinned).region =
      .ok () ((w.atFront .pinned).region.forceRelease w.chan.tail) :=
    Region.releasePinned_ok (by simp [World.atFront, Region.state, Region.header])
  have hon : onRegion (Region.releasePinned (w.atFront .pinned).chan.tail) (w.atFront .pinned) =
      .ok () { w with region := w.region.forceRelease w.chan.tail } := by
    simp only [onRegion, World.atFront] at hrel ⊢
    rw [hrel]
    simp [Region.forceRelease_eq]
  rw [advanceTailAfterRead, advanceTailImpl, Effect.get_bind, if_pos rfl, Effect.bind_ok hon]
  rfl

theorem releasePinned_pinned :
    tailOps.releasePinned (w.atFront .pinned) = .ok () (w.atFront .hole) := by
  have hrel : Region.releasePinned w.chan.tail (w.atFront .pinned).region =
      .ok () ((w.atFront .pinned).region.forceRelease w.chan.tail) :=
    Region.releasePinned_ok (by simp [World.atFront, Region.state, Region.header])
  simp only [tailOps, Effect.get_bind, onRegion, World.atFront] at hrel ⊢
  rw [hrel]
  simp [Region.forceRelease_eq]

/-! ## The steps agree with the inbox's -/

/-- **A persistent channel receives as an inbox does**, from a world that
offers the inbox's frames on. -/
theorem simulates (hoff : w.Offers frames) : Simulates tailOps (w.Reading frames) where
  readNext := by
    rintro w' ⟨fs, front, k, expected, last⟩ ⟨hk, hfs, hpin, rfl⟩
    simp only at hk hfs hpin
    have hc : ((w.consumed k).atFront front |>.counted expected last).chan.closed = false := by
      cases front <;> exact World.consumed_closed.trans hoff.1
    cases front with
    | clean =>
        rcases Nat.lt_or_eq_of_le hk with hlt | rfl
        · rw [hfs, List.drop_eq_getElem_cons hlt]
          exact ⟨_, readNextChunk_ok (w := (w.consumed k).counted expected last) (hoff.2.1 k hlt),
            hk, List.drop_eq_getElem_cons hlt |>.symm, fun _ => hlt, rfl⟩
        · rw [hfs, List.drop_length]
          exact .inr ⟨_, readNextChunk_empty
            (w := (w.consumed frames.length).counted expected last) hoff.2.2 hc,
            hk, (List.drop_length).symm, (fun h => by cases h), rfl⟩
    | pinned =>
        refine .inr ⟨_, readNextChunk_empty ?_ hc, hk, hfs, hpin, rfl⟩
        simp [World.atFront, World.counted, Region.state, Region.header]
    | hole =>
        refine .inr ⟨_, readNextChunk_empty ?_ hc, hk, hfs, hpin, rfl⟩
        simp [World.atFront, World.counted, Region.state, Region.header, Region.forceRelease_eq]
  releasePinned := by
    rintro w' ⟨fs, front, k, expected, last⟩ ⟨hk, hfs, hpin, rfl⟩
    simp only at hk hfs hpin
    cases front with
    | pinned =>
        exact ⟨_, releasePinned_pinned (w := (w.consumed k).counted expected last), hk, hfs,
          (fun h => by cases h), rfl⟩
    | clean => exact .inl rfl
    | hole => exact .inl rfl
  advance := by
    rintro w' ⟨fs, front, k, expected, last⟩ ⟨hk, hfs, hpin, rfl⟩
    simp only at hk hfs hpin
    cases front with
    | pinned =>
        have hlt := hpin rfl
        refine ⟨_, advanceTailAfterRead_pinned (w := (w.consumed k).counted expected last), hlt, ?_,
          (fun h => by cases h), rfl⟩
        rw [hfs, List.tail_drop]
    | clean => exact .inl rfl
    | hole => exact .inl rfl
  bumpExpected := by
    rintro w' ⟨fs, front, k, expected, last⟩ ⟨hk, hfs, hpin, rfl⟩
    exact ⟨_, rfl, hk, hfs, hpin, rfl⟩
  setLastReceived := by
    rintro seq w' ⟨fs, front, k, expected, last⟩ ⟨hk, hfs, hpin, rfl⟩
    exact ⟨_, rfl, hk, hfs, hpin, rfl⟩

/-- The start of a receive. -/
theorem reading_start (hne : 0 < frames.length) :
    w.Reading frames (w.atFront .pinned)
      ⟨frames, .pinned, 0, w.chan.expectedRecvSeq, w.chan.lastReceivedSeq⟩ :=
  ⟨Nat.zero_le _, rfl, fun _ => hne, rfl⟩

variable [Checksum] {seq : UInt64} {data : Bytes} {datas : List Bytes}
  {rest : List SlotSnapshot} {payload : Bytes} {err : Failure}

/-- **Receiving a message.** From a tail that offers frames which deliver a
payload, the receive returns it with exactly those slots consumed. -/
theorem finishRecv_delivers
    (hoff : w.Offers (datas.map (⟨seq, ·⟩) ++ rest)) (hdel : Delivers seq datas (.ok payload))
    (hhead : datas.head? = some data) :
    finishRecv tailOps ⟨seq, data⟩ (w.atFront .pinned) =
      .ok ⟨seq, payload⟩
        ((w.consumed datas.length).counted (w.chan.expectedRecvSeq + 1) (some seq)) := by
  obtain ⟨first, datas', rfl, hrun⟩ := hdel
  obtain rfl : first = data := by simpa using hhead
  have hpos : 0 < ((first :: datas').map (SlotSnapshot.mk seq) ++ rest).length := by simp
  obtain ⟨w', hw', hR⟩ := ((simulates hoff).finishRecv ⟨seq, first⟩).ok (reading_start hpos)
    (hrun rest 0 w.chan.expectedRecvSeq w.chan.lastReceivedSeq)
  rw [hw', hR.2.2.2, Nat.zero_add]
  rfl

/-- **Skipping a damaged message.** Frames that deliver an error cost their
own slots and one sequence number. -/
theorem finishRecv_fails
    (hoff : w.Offers (datas.map (⟨seq, ·⟩) ++ rest)) (hdel : Delivers seq datas (.error err))
    (hhead : datas.head? = some data) (hstuck : ¬ Inbox.Stuck err) :
    finishRecv tailOps ⟨seq, data⟩ (w.atFront .pinned) =
      .error err
        ((w.consumed datas.length).counted (w.chan.expectedRecvSeq + 1)
          w.chan.lastReceivedSeq) := by
  obtain ⟨first, datas', rfl, hrun⟩ := hdel
  obtain rfl : first = data := by simpa using hhead
  have hpos : 0 < ((first :: datas').map (SlotSnapshot.mk seq) ++ rest).length := by simp
  obtain ⟨w', hw', hR⟩ := ((simulates hoff).finishRecv ⟨seq, first⟩).error
    (reading_start hpos) (hrun rest 0 w.chan.expectedRecvSeq w.chan.lastReceivedSeq) hstuck
  rw [hw', hR.2.2.2, Nat.zero_add]
  rfl

end PersistentShmChannel

end Dsline
