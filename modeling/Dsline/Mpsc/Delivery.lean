import Dsline.Core.Crc
import Dsline.Mpsc.Reclaim
import Dsline.Shm.Entries
import Dsline.Shm.Spsc
/-!
# Delivery while messages are written

A send of a multi-producer region reserves its slots with one exchange of
the head and then commits them one by one; the consumer may call
`recv_with_seq` between any two of these. The messages lie in the ring in
the order of their reservations, each committed up to some frame. A receive
that finds the first of them committed as a whole, or not at all, delivers
it or leaves it; one that finds it committed in part loses its frames.
-/

namespace Dsline

open PersistentShmChannel

/-- A send behind its reservation. -/
structure Outgoing where
  start : ℕ
  neededSlots : ℕ
  seq : UInt64
  bytes : Bytes
  frames : List Bytes
  stamp : WriterIdentity
  /-- How many slots are committed. -/
  written : ℕ
  deriving DecidableEq, Repr

namespace Outgoing

def message (m : Outgoing) : ReceivedMessage := ⟨m.seq, m.bytes⟩

/-- The send has returned. -/
def Complete (m : Outgoing) : Prop := m.written = m.neededSlots

/-- The cursors reserved. -/
def Covers (m : Outgoing) (cursor : ℕ) : Prop :=
  m.start ≤ cursor ∧ cursor < m.start + m.neededSlots

instance (m : Outgoing) : Decidable m.Complete := inferInstanceAs (Decidable (_ = _))

instance (m : Outgoing) (cursor : ℕ) : Decidable (m.Covers cursor) :=
  inferInstanceAs (Decidable (_ ∧ _))

/-- What the reservation holds: the committed frames, then FREE slots. -/
def contents (m : Outgoing) : List Content :=
  (m.frames.take m.written).map (fun frame => .committed ⟨m.seq, stored frame⟩) ++
    List.replicate (m.neededSlots - m.written) .free

end Outgoing

structure FlightState where
  region : Region
  producers : ℕ → PersistentShmChannel
  consumer : PersistentShmChannel
  /-- The sends, in the order of their reservations. -/
  sends : List Outgoing
  /-- What the consumer's calls returned, and the errors they failed with. -/
  got : List ReceivedMessage
  errors : List Failure

section

variable [Checksum]

inductive FlightStep where
  /-- The head exchange of a send succeeds. -/
  | reserve (p : ℕ) (host : Host) (message : Message)
  /-- The next slot of a send is committed. -/
  | commit (send : ℕ)
  | recv (host : Host)

namespace FlightState

/-- `send` up to its reservation. -/
def stepReserve (s : FlightState) (p : ℕ) (host : Host) (bytes : Bytes) : FlightState :=
  let chan := s.producers p
  match sendPlan chan.config bytes.length with
  | .error _ => s
  | .ok plan =>
      -- What the guard and the exchange promise.
      if s.region.head + plan.neededSlots ≤ s.region.tail + s.region.capacity then
        { s with
          region := s.region.storeHead (wrappingAdd s.region.head plan.neededSlots)
          producers := fun i => if i = p then { chan with nextSeq := chan.nextSeq + 1 }
            else s.producers i
          sends := s.sends ++ [{
            start := s.region.head
            neededSlots := plan.neededSlots
            seq := chan.nextSeq
            bytes
            frames := match encodeMessageFrames chan.config plan chan.nextSeq bytes with
              | .ok frames => frames
              | .error _ => []
            stamp := chan.writer.stamp host chan.writerEpoch plan.neededSlots
            written := 0 }] }
      else s

/-- `write_reserved_slot` for the next frame. -/
def stepCommit (s : FlightState) (k : ℕ) : FlightState :=
  match s.sends[k]? with
  | none => s
  | some m =>
      match m.frames[m.written]? with
      | none => s
      | some frame =>
          match Region.writeCommittedNoFlush ((m.start + m.written) % s.region.capacity) m.seq
            frame m.stamp s.region with
          | .ok _ region =>
              { s with region, sends := s.sends.set k { m with written := m.written + 1 } }
          | .error _ region => { s with region }

/-- `recv_with_seq`. -/
def stepRecv (s : FlightState) (host : Host) : FlightState :=
  match recvWithSeq host ⟨s.consumer, s.region⟩ with
  | .ok message w => { s with region := w.region, consumer := w.chan, got := s.got ++ [message] }
  | .error err w => { s with region := w.region, consumer := w.chan, errors := s.errors ++ [err] }

def step (s : FlightState) : FlightStep → FlightState
  | .reserve p host message => s.stepReserve p host message.1
  | .commit k => s.stepCommit k
  | .recv host => s.stepRecv host

/-- A created multi-producer region, and the handles on it. -/
structure Initial (config : SpscConfig) (s : FlightState) : Prop where
  mode : config.multiProducer = true
  created : ∃ host w, create host config = .ok w ∧ s.region = w.region
  consumer : s.consumer.config = config ∧ s.consumer.closed = false
  producers : ∀ p, (s.producers p).config = config
  sends : s.sends = []
  got : s.got = []
  errors : s.errors = []

/-- **Delivery**: what was received are the first messages, each once,
intact and in the order of the reservations; no receive failed but on an
empty ring; and the next message is received as soon as its send has
returned, and all behind it as theirs have. -/
structure Delivers (s : FlightState) : Prop where
  received : s.got = (s.sends.take s.got.length).map Outgoing.message
  errors : ∀ err ∈ s.errors, err = .ofChannel .bufferEmpty
  drains : ∀ (host : Host) (n : ℕ), s.got.length + n ≤ s.sends.length →
    (∀ m ∈ s.sends.take (s.got.length + n), m.Complete) →
      (Run.exec step s (List.replicate n (.recv host))).got =
        (s.sends.take (s.got.length + n)).map Outgoing.message

/-- Frames keep their length in 32 bits, fewer than `2^64` slots are taken,
and no receive finds the message at the tail committed in part. -/
def Whole (s : FlightState) : FlightStep → Prop
  | .reserve p _ message =>
      match sendPlan (s.producers p).config message.1.length with
      | .error _ => True
      | .ok plan => FramesFit (s.producers p).config message.1.length ∧
          s.region.head + plan.neededSlots < wordCount
  | .commit _ => True
  | .recv _ => ∀ m ∈ s.sends, m.Covers s.region.tail → m.written = 0 ∨ m.Complete

instance (config : SpscConfig) (len : ℕ) : Decidable (FramesFit config len) :=
  inferInstanceAs (Decidable (_ < _))

instance (s : FlightState) : (a : FlightStep) → Decidable (s.Whole a)
  | .reserve p _ message =>
      match hplan : sendPlan (s.producers p).config message.1.length with
      | .error _ => isTrue (by simp only [Whole, hplan])
      | .ok plan =>
          decidable_of_iff (FramesFit (s.producers p).config message.1.length ∧
            s.region.head + plan.neededSlots < wordCount) (by simp only [Whole, hplan])
  | .commit _ => isTrue trivial
  | .recv _ => inferInstanceAs (Decidable (∀ _ ∈ _, _ → _))

/-! ## The invariant -/

/-- The messages not received yet. -/
def queue (s : FlightState) : List Outgoing := s.sends.drop s.got.length

def contentsOf (queue : List Outgoing) : List Content := queue.flatMap Outgoing.contents

/-- The reservations lie one behind the other from a cursor on. -/
def From : ℕ → List Outgoing → Prop
  | _, [] => True
  | cursor, m :: rest => m.start = cursor ∧ From (cursor + m.neededSlots) rest

/-- A send of a message that delivers. -/
structure Good (config : SpscConfig) (m : Outgoing) : Prop where
  needed : m.frames.length = m.neededSlots
  pos : 0 < m.neededSlots
  written : m.written ≤ m.neededSlots
  fits : ∀ frame ∈ m.frames, frame.length ≤ config.slotSize + FRAME_HEADER_LEN
  delivers : Dsline.Delivers m.seq (m.frames.map stored) (.ok m.bytes)

structure Inv (config : SpscConfig) (s : FlightState) : Prop where
  mode : config.multiProducer = true
  fits : Fits config s.region
  consumer : s.consumer.config = config ∧ s.consumer.closed = false
  producers : ∀ p, (s.producers p).config = config
  layout : Layout s.region (contentsOf s.queue) []
  head : s.region.head = s.region.tail + (contentsOf s.queue).length
  word : s.region.head < wordCount
  starts : From s.region.tail s.queue
  good : ∀ m ∈ s.sends, Good config m
  done : ∀ m ∈ s.sends.take s.got.length, m.Complete
  received : s.got = (s.sends.take s.got.length).map Outgoing.message
  errors : ∀ err ∈ s.errors, err = .ofChannel .bufferEmpty

variable {config : SpscConfig} {s : FlightState} {m : Outgoing} {queue queue' : List Outgoing}

theorem Initial.inv (h : Initial config s) : Inv config s := by
  obtain ⟨host, w, hcreate, hregion⟩ := h.created
  obtain ⟨-, hfits, hl, hhead, htail, -⟩ := create_ok hcreate
  have hqueue : s.queue = [] := by
    rw [FlightState.queue, h.sends, h.got]
    rfl
  refine ⟨h.mode, hregion ▸ hfits, h.consumer, h.producers, ?_, ?_, ?_, ?_, ?_, ?_, ?_, ?_⟩
  · rw [hqueue, hregion]
    exact hl
  · rw [hqueue, hregion, hhead, htail]
    rfl
  · rw [hregion, hhead]
    decide
  · rw [hqueue]
    trivial
  · intro m hm
    rw [h.sends] at hm
    cases hm
  · intro m hm
    rw [h.sends, List.take_nil] at hm
    cases hm
  · rw [h.got, h.sends]
    rfl
  · intro err he
    rw [h.errors] at he
    cases he

/-! ## The queue -/

section

variable {cursor : ℕ} {frame : Bytes} {region : Region} {contents : List Content}

theorem Good.length_contents (h : Good config m) : m.contents.length = m.neededSlots := by
  have hw := h.written
  rw [Outgoing.contents, List.length_append, List.length_map, List.length_take,
    List.length_replicate, h.needed]
  omega

omit [Checksum] in
theorem contentsOf_append : contentsOf (queue ++ queue') = contentsOf queue ++ contentsOf queue' :=
  List.flatMap_append

omit [Checksum] in
theorem contentsOf_cons : contentsOf (m :: queue) = m.contents ++ contentsOf queue := rfl

theorem from_append (hgood : ∀ m ∈ queue, Good config m) :
    From cursor (queue ++ queue') ↔
      From cursor queue ∧ From (cursor + (contentsOf queue).length) queue' := by
  induction queue generalizing cursor with
  | nil => exact ⟨fun h => ⟨trivial, h⟩, fun h => h.2⟩
  | cons m queue ih =>
      rw [List.cons_append, From, From, ih fun x hx => hgood x (List.mem_cons_of_mem m hx),
        contentsOf_cons, List.length_append, (hgood m List.mem_cons_self).length_contents,
        and_assoc, Nat.add_assoc]

/-- **Committing a frame** turns the FREE content behind the committed ones
into one. -/
theorem Good.contents_commit (h : Good config m) (hframe : m.frames[m.written]? = some frame) :
    m.contents[m.written]? = some .free ∧
      Outgoing.contents { m with written := m.written + 1 } =
        m.contents.set m.written (.committed ⟨m.seq, stored frame⟩) := by
  obtain ⟨hlt, hget⟩ := List.getElem?_eq_some_iff.1 hframe
  have hneeded := h.needed
  have hlen : ((m.frames.take m.written).map
      (fun frame => Content.committed ⟨m.seq, stored frame⟩)).length = m.written := by
    rw [List.length_map, List.length_take]
    omega
  have hrest : m.neededSlots - m.written = (m.neededSlots - (m.written + 1)) + 1 := by omega
  constructor
  · rw [Outgoing.contents, List.getElem?_append_right (by omega), hlen, Nat.sub_self, hrest]
    rfl
  · rw [Outgoing.contents, Outgoing.contents, List.set_append_right _ _ (by omega), hlen,
      Nat.sub_self, hrest, List.replicate_succ, List.set_cons_zero, List.take_add_one, hframe,
      List.map_append, List.append_assoc]
    rfl

omit [Checksum] in
/-- Reserving slots appends FREE contents. -/
theorem layout_reserve (h : Layout region contents []) (n : ℕ)
    (hroom : contents.length + n ≤ region.capacity) :
    Layout region (contents ++ List.replicate n .free) [] := by
  induction n with
  | zero => simpa using h
  | succ n ih =>
      have hl := ih (by omega)
      have hlen : (contents ++ List.replicate n Content.free).length = contents.length + n := by
        rw [List.length_append, List.length_replicate]
      rw [List.replicate_succ', ← List.append_assoc]
      refine hl.reserve (by omega) ?_
      exact h.free _ (by omega) (by omega) nofun

end

theorem Inv.got_le (h : Inv config s) : s.got.length ≤ s.sends.length := by
  have hlen := congrArg List.length h.received
  rw [List.length_map, List.length_take] at hlen
  omega

theorem Inv.queue_good (h : Inv config s) : ∀ m ∈ s.queue, Good config m :=
  fun m hm => h.good m (List.mem_of_mem_drop hm)

theorem Inv.sound (h : Inv config s) : World.Sound ⟨s.consumer, s.region⟩ where
  capacity := by
    rw [h.consumer.1]
    exact h.fits.capacity.symm
  pos := h.fits.pos
  ordered := by
    have := h.head
    show s.region.tail ≤ s.region.head
    omega
  window := by
    have := h.head
    have := h.layout.fits
    show s.region.head ≤ s.region.tail + s.region.capacity
    omega
  word := h.word
  opened := h.consumer.2

/-! ## The steps -/

/-- **Reserving** queues a message of which nothing is committed. -/
theorem Inv.reserve (h : Inv config s) (p : ℕ) (host : Host) (message : Message)
    (hwhole : s.Whole (.reserve p host message)) :
    Inv config (s.step (.reserve p host message)) := by
  show Inv config (s.stepReserve p host message.1)
  unfold stepReserve
  cases hplan : sendPlan (s.producers p).config message.1.length with
  | error err =>
      simp only [hplan]
      exact h
  | ok plan =>
  simp only [Whole, hplan] at hwhole ⊢
  obtain ⟨hfit, hword⟩ := hwhole
  rw [h.producers p] at hplan hfit
  split
  swap
  · exact h
  rename_i hroom
  have hcap : config.capacity < 2 ^ 64 := h.fits.capacity_lt
  have henc := encodeMessageFrames_ok (s.producers p).nextSeq hplan hcap message.2
  have hgot := h.got_le
  rw [h.producers p, henc, wrappingAdd_of_lt hword]
  simp only
  generalize hm : Outgoing.mk s.region.head plan.neededSlots (s.producers p).nextSeq message.1
    (messageFrames plan (s.producers p).nextSeq message.1)
    ((s.producers p).writer.stamp host (s.producers p).writerEpoch plan.neededSlots) 0 = m
  have hgood : Good config m := by
    subst hm
    exact
      { needed := length_messageFrames _ hplan
        pos := by
          rcases sendPlan_ok hplan with ⟨-, rfl⟩ | ⟨hlt, -⟩
          · exact Nat.zero_lt_one
          · exact Nat.lt_of_succ_lt (one_lt_neededSlots hplan hlt)
        written := Nat.zero_le _
        fits := fun frame hf => length_le_of_mem_messageFrames hplan hf
        delivers := delivers_stored hplan hcap message.2 hfit }
  have hcontents : m.contents = List.replicate m.neededSlots .free := by
    subst hm
    rfl
  have hdrop : (s.sends ++ [m]).drop s.got.length = s.queue ++ [m] :=
    List.drop_append_of_le_length hgot
  have htake : (s.sends ++ [m]).take s.got.length = s.sends.take s.got.length :=
    List.take_append_of_le_length hgot
  have hstart : m.start = s.region.tail + (contentsOf s.queue).length := by
    subst hm
    exact h.head
  have hneeded : plan.neededSlots = m.neededSlots := by
    subst hm
    rfl
  have hall : contentsOf (s.queue ++ [m]) =
      contentsOf s.queue ++ List.replicate m.neededSlots .free := by
    rw [contentsOf_append, contentsOf_cons, hcontents]
    exact congrArg _ (List.append_nil _)
  have hhead := h.head
  exact
    { mode := h.mode
      fits := ⟨h.fits.valid, h.fits.slotSize, h.fits.totalLen, h.fits.capacity,
        h.fits.frameCapacity, h.fits.magic, h.fits.format⟩
      consumer := h.consumer
      producers := by
        intro i
        show (if i = p then _ else s.producers i).config = config
        split
        · rfl
        · exact h.producers i
      layout := by
        show Layout (s.region.storeHead _) (contentsOf ((s.sends ++ [m]).drop s.got.length)) []
        rw [hdrop, hall]
        exact (layout_reserve h.layout m.neededSlots (by omega)).congr rfl rfl rfl rfl
      head := by
        show s.region.head + plan.neededSlots =
          s.region.tail + (contentsOf ((s.sends ++ [m]).drop s.got.length)).length
        rw [hdrop, hall, List.length_append, List.length_replicate]
        omega
      word := hword
      starts := by
        show From s.region.tail ((s.sends ++ [m]).drop s.got.length)
        rw [hdrop, from_append h.queue_good]
        exact ⟨h.starts, hstart, trivial⟩
      good := by
        intro m' hm'
        rcases List.mem_append.1 hm' with hm' | hm'
        · exact h.good m' hm'
        · rw [List.mem_singleton.1 hm']
          exact hgood
      done := by
        show ∀ m' ∈ (s.sends ++ [m]).take s.got.length, m'.Complete
        rw [htake]
        exact h.done
      received := by
        show s.got = ((s.sends ++ [m]).take s.got.length).map Outgoing.message
        rw [htake]
        exact h.received
      errors := h.errors }

/-- A message that has a frame left to commit is in the queue. -/
theorem Inv.queued (h : Inv config s) {k : ℕ} {frame : Bytes} (hk : s.sends[k]? = some m)
    (hframe : m.frames[m.written]? = some frame) :
    ∃ before behind, s.queue = before ++ m :: behind ∧
      ∀ m', (s.sends.set k m').drop s.got.length = before ++ m' :: behind ∧
        (s.sends.set k m').take s.got.length = s.sends.take s.got.length := by
  obtain ⟨hlt, hget⟩ := List.getElem?_eq_some_iff.1 hk
  obtain ⟨hwritten, -⟩ := List.getElem?_eq_some_iff.1 hframe
  have hgood := h.good m (List.mem_of_getElem? hk)
  have hge : s.got.length ≤ k := by
    by_contra hlt'
    have hmem : m ∈ s.sends.take s.got.length := by
      rw [← hget]
      exact List.mem_take_iff_getElem.2 ⟨k, by omega, rfl⟩
    have hdone : m.written = m.neededSlots := h.done m hmem
    have := hgood.needed
    omega
  have hat : s.queue[k - s.got.length]? = some m := by
    rw [FlightState.queue, List.getElem?_drop, Nat.add_sub_of_le hge]
    exact hk
  obtain ⟨hlt', hget'⟩ := List.getElem?_eq_some_iff.1 hat
  refine ⟨s.queue.take (k - s.got.length), s.queue.drop (k - s.got.length + 1), ?_, fun m' => ?_⟩
  · rw [← hget', ← List.drop_eq_getElem_cons hlt', List.take_append_drop]
  · constructor
    · rw [List.drop_set, if_neg (by omega), List.set_eq_take_append_cons_drop]
      exact if_pos hlt'
    · rw [List.take_set, List.set_eq_of_length_le (by rw [List.length_take]; omega)]

/-- **Committing** the next slot of a send. -/
theorem Inv.commit (h : Inv config s) (k : ℕ) : Inv config (s.step (.commit k)) := by
  show Inv config (s.stepCommit k)
  unfold stepCommit
  split
  · exact h
  rename_i m hk
  split
  · exact h
  rename_i frame hframe
  obtain ⟨before, behind, hqueue, hset⟩ := h.queued hk hframe
  obtain ⟨hdrop, htake⟩ := hset { m with written := m.written + 1 }
  have hgood := h.good m (List.mem_of_getElem? hk)
  obtain ⟨hfree, hcommit⟩ := hgood.contents_commit hframe
  obtain ⟨hwritten, -⟩ := List.getElem?_eq_some_iff.1 hframe
  have hneeded := hgood.needed
  have hlen := hgood.length_contents
  have hl := h.layout
  have hbefore : ∀ m' ∈ before, Good config m' := fun m' hm' =>
    h.queue_good m' (by rw [hqueue]; exact List.mem_append_left _ hm')
  have hstarts := h.starts
  rw [hqueue, from_append hbefore] at hstarts
  obtain ⟨hfirst, hstart, hrest⟩ := hstarts
  have hparts : contentsOf s.queue =
      contentsOf before ++ (m.contents ++ contentsOf behind) := by
    rw [hqueue, contentsOf_append, contentsOf_cons]
  -- The slot of the next frame, as a content of the queue.
  have hindex : (m.start + m.written) % s.region.capacity =
      Layout.at' s.region ((contentsOf before).length + m.written) := by
    rw [hstart, Nat.add_assoc]
  have hat : (contentsOf s.queue)[(contentsOf before).length + m.written]? = some .free := by
    rw [hparts, List.getElem?_append_right (Nat.le_add_right _ _), Nat.add_sub_cancel_left,
      List.getElem?_append_left (by omega)]
    exact hfree
  obtain ⟨hlt, hget⟩ := List.getElem?_eq_some_iff.1 hat
  have hshow := hl.shows hlt
  rw [hget] at hshow
  have hstate : s.region.state (Layout.at' s.region ((contentsOf before).length + m.written)) =
    .free := hshow
  have hfit : frame.length ≤ s.region.frameCapacity := by
    rw [h.fits.frameCapacity]
    exact hgood.fits frame (List.mem_of_getElem? hframe)
  have hl' := hl.setAt (.committed ⟨m.seq, stored frame⟩)
    ((s.region.slots (Layout.at' s.region ((contentsOf before).length + m.written))).committed
      m.seq frame) hlt (Region.shows_committed _ _ _ _ hfit)
  have hcontents : (contentsOf s.queue).set ((contentsOf before).length + m.written)
      (.committed ⟨m.seq, stored frame⟩) =
        contentsOf (before ++ { m with written := m.written + 1 } :: behind) := by
    rw [hparts, contentsOf_append, contentsOf_cons, hcommit,
      List.set_append_right _ _ (Nat.le_add_right _ _), Nat.add_sub_cancel_left,
      List.set_append_left _ _ (by omega)]
  rw [hindex, Region.writeCommittedNoFlush_ok m.seq m.stamp hstate hfit]
  rw [hcontents] at hl'
  exact
    { mode := h.mode
      fits := ⟨h.fits.valid, h.fits.slotSize, h.fits.totalLen, h.fits.capacity,
        h.fits.frameCapacity, h.fits.magic, h.fits.format⟩
      consumer := h.consumer
      producers := h.producers
      layout := by
        show Layout _ (contentsOf ((s.sends.set k _).drop s.got.length)) []
        rw [hdrop]
        exact hl'
      head := by
        show s.region.head = s.region.tail +
          (contentsOf ((s.sends.set k _).drop s.got.length)).length
        rw [hdrop, ← hcontents, List.length_set]
        exact h.head
      word := h.word
      starts := by
        show From s.region.tail ((s.sends.set k _).drop s.got.length)
        rw [hdrop, from_append hbefore]
        exact ⟨hfirst, hstart, hrest⟩
      good := by
        intro m' hm'
        rcases List.mem_or_eq_of_mem_set hm' with hm' | rfl
        · exact h.good m' hm'
        · exact ⟨hgood.needed, hgood.pos, by show m.written + 1 ≤ m.neededSlots; omega, hgood.fits,
            hgood.delivers⟩
      done := by
        show ∀ m' ∈ (s.sends.set k _).take s.got.length, m'.Complete
        rw [htake]
        exact h.done
      received := by
        show s.got = ((s.sends.set k _).take s.got.length).map Outgoing.message
        rw [htake]
        exact h.received
      errors := h.errors }

/-- A handle's mirrors do not matter to the ring. -/
theorem Inv.emptied (h : Inv config s) (err : Failure) (herr : err = .ofChannel .bufferEmpty)
    (depth : ℕ) :
    Inv config { s with
      consumer := (World.refreshed ⟨s.consumer, s.region⟩ depth).chan
      errors := s.errors ++ [err] } :=
  { h with
    consumer := h.consumer
    errors := by
      intro err' he
      rcases List.mem_append.1 he with he | he
      · exact h.errors err' he
      · rw [List.mem_singleton.1 he, herr] }

/-- **A receive at a FREE tail** finds an empty ring. -/
theorem Inv.recv_free (h : Inv config s) (host : Host)
    (hfree : s.region.state (s.region.tail % s.region.capacity) = .free) :
    recvWithSeq host ⟨s.consumer, s.region⟩ = .error (.ofChannel .bufferEmpty)
      (World.refreshed ⟨s.consumer, s.region⟩ (depth ⟨s.consumer, s.region⟩)) := by
  refine recvWithSeq_empty h.sound (by rw [hfree]; decide) ?_
  have hmode : s.consumer.config.multiProducer = true := by
    rw [h.consumer.1]
    exact h.mode
  have hindex : s.region.tail % s.consumer.config.capacity = s.region.tail % s.region.capacity :=
    congrArg _ h.sound.capacity
  generalize hw :
    (World.refreshed ⟨s.consumer, s.region⟩ (depth ⟨s.consumer, s.region⟩)).unsynced = w
  have hmulti : w.chan.config.multiProducer = true := by
    rw [← hw]
    exact hmode
  have hstate : w.region.state w.chan.tail = .free := by
    rw [← hw, ← hfree, ← hindex]
    rfl
  rw [tryReclaimAtTail, Effect.get_bind, if_pos hmulti]
  refine CrashState.tryReclaimAtTailMpsc_none ?_
  -- There is no WRITING header to take an extent from.
  cases hext : reclaimExtent host w with
  | none => rfl
  | some extent =>
      obtain ⟨stamp, he⟩ := CrashState.reclaimExtent_some.1 hext
      cases hstate.symm.trans he.state

/-- **A receive at a message committed as a whole** returns it. -/
theorem Inv.recv_complete (h : Inv config s) (host : Host) {rest : List Outgoing}
    (hqueue : s.queue = m :: rest) (hdone : m.Complete) :
    (∃ w, recvWithSeq host ⟨s.consumer, s.region⟩ = .ok m.message w) ∧
      Inv config (s.step (.recv host)) ∧ (s.step (.recv host)).got = s.got ++ [m.message] ∧
      (s.step (.recv host)).sends = s.sends := by
  have hgood := h.queue_good m (by rw [hqueue]; exact List.mem_cons_self)
  have hlen : m.frames.length = m.neededSlots := hgood.needed
  have hcontents : m.contents = (m.frames.map stored).map (Content.committed ⟨m.seq, ·⟩) := by
    replace hdone : m.written = m.neededSlots := hdone
    rw [Outgoing.contents, hdone, ← hlen, List.take_length, Nat.sub_self, List.map_map]
    exact List.append_nil _
  have hl := h.layout
  have hhead := h.head
  have hword := h.word
  rw [hqueue, contentsOf_cons, hcontents] at hl
  rw [hqueue, contentsOf_cons, List.length_append, hgood.length_contents] at hhead
  have hread : (World.readable (contentsOf rest)).length ≤ (contentsOf rest).length := by
    obtain ⟨others, he, -⟩ := World.exists_readable (contentsOf rest)
    have := congrArg List.length he
    rw [List.length_append, List.length_map] at this
    omega
  obtain ⟨w, hrun, hl', hrec, -, -⟩ := recvWithSeq_ok host h.sound hl
    (by
      rw [List.length_map]
      show s.region.tail + _ < wordCount
      omega)
    hgood.delivers
    (.inr (.inl (by
      show s.consumer.config.multiProducer = true
      rw [h.consumer.1]
      exact h.mode)))
  have hstep : s.step (.recv host) =
      { s with region := w.region, consumer := w.chan, got := s.got ++ [m.message] } := by
    show s.stepRecv host = _
    rw [stepRecv, hrun]
    rfl
  have hwords := hrec.words
  rw [List.length_map, hlen] at hwords
  replace hwords : s.region.Words s.region.head (s.region.tail + m.neededSlots) s.region.pinFloor
    w.region := hwords
  have hat : s.sends[s.got.length]? = some m := by
    have : s.queue[0]? = some m := by rw [hqueue]; rfl
    rwa [FlightState.queue, List.getElem?_drop, Nat.add_zero] at this
  obtain ⟨hlt, hget⟩ := List.getElem?_eq_some_iff.1 hat
  have hdrop : s.sends.drop (s.got.length + 1) = rest := by
    have : s.queue = s.sends[s.got.length] :: s.sends.drop (s.got.length + 1) :=
      List.drop_eq_getElem_cons hlt
    rw [hqueue] at this
    exact (List.cons.inj this).2.symm
  have htake : s.sends.take (s.got.length + 1) = s.sends.take s.got.length ++ [m] := by
    rw [List.take_add_one, hat]
    rfl
  have hgot : (s.got ++ [m.message]).length = s.got.length + 1 := List.length_append
  have hstarts := h.starts
  rw [hqueue] at hstarts
  refine ⟨⟨w, hrun⟩, ?_, by rw [hstep], by rw [hstep]⟩
  rw [hstep]
  exact
    { mode := h.mode
      fits := ⟨h.fits.valid, h.fits.slotSize, h.fits.totalLen,
        hwords.capacity.trans h.fits.capacity, hwords.frameCapacity.trans h.fits.frameCapacity,
        hwords.magic.trans h.fits.magic, hwords.format.trans h.fits.format⟩
      consumer := ⟨hrec.config.trans h.consumer.1, hrec.closed.trans h.consumer.2⟩
      producers := h.producers
      layout := by
        show Layout w.region (contentsOf (s.sends.drop (s.got ++ [m.message]).length)) []
        rw [hgot, hdrop]
        exact hl'
      head := by
        show w.region.head =
          w.region.tail + (contentsOf (s.sends.drop (s.got ++ [m.message]).length)).length
        rw [hgot, hdrop, hwords.head, hwords.tail]
        omega
      word := by
        show w.region.head < wordCount
        rw [hwords.head]
        exact hword
      starts := by
        show From w.region.tail (s.sends.drop (s.got ++ [m.message]).length)
        rw [hgot, hdrop, hwords.tail]
        exact hstarts.2
      good := h.good
      done := by
        show ∀ m' ∈ s.sends.take (s.got ++ [m.message]).length, m'.Complete
        rw [hgot, htake]
        intro m' hm'
        rcases List.mem_append.1 hm' with hm' | hm'
        · exact h.done m' hm'
        · rw [List.mem_singleton.1 hm']
          exact hdone
      received := by
        show s.got ++ [m.message] =
          (s.sends.take (s.got ++ [m.message]).length).map Outgoing.message
        rw [hgot, htake, List.map_append, ← h.received]
        rfl
      errors := h.errors }

/-- **Receiving** keeps the invariant, where the message at the tail is not
committed in part. -/
theorem Inv.recv (h : Inv config s) (host : Host) (hwhole : s.Whole (.recv host)) :
    Inv config (s.step (.recv host)) := by
  have idle (hfree : s.region.state (s.region.tail % s.region.capacity) = .free) :
      Inv config (s.step (.recv host)) := by
    show Inv config (s.stepRecv host)
    rw [stepRecv, h.recv_free host hfree]
    exact h.emptied _ rfl _
  have hl := h.layout
  cases hqueue : s.queue with
  | nil =>
      rw [hqueue] at hl
      exact idle (hl.free _ (Nat.le_refl _) (Nat.lt_add_of_pos_right h.fits.pos) nofun)
  | cons m rest =>
      have hmem : m ∈ s.queue := by
        rw [hqueue]
        exact List.mem_cons_self
      have hgood := h.queue_good m hmem
      have hpos := hgood.pos
      have hstarts := h.starts
      rw [hqueue] at hstarts hl
      rcases hwhole m (List.mem_of_mem_drop hmem)
        ⟨Nat.le_of_eq hstarts.1, by rw [hstarts.1]; omega⟩ with hzero | hdone
      · -- Nothing of the message is committed: its first slot is FREE.
        refine idle ?_
        have hcontents : m.contents = .free :: List.replicate (m.neededSlots - 1) .free := by
          rw [Outgoing.contents, hzero, Nat.sub_zero, ← List.replicate_succ,
            Nat.sub_add_cancel hpos]
          rfl
        rw [contentsOf_cons, hcontents] at hl
        exact hl.holds.1
      · exact (h.recv_complete host hqueue hdone).2.1

/-- **Every step keeps the invariant.** -/
theorem Inv.step (h : Inv config s) (a : FlightStep) (hwhole : s.Whole a) :
    Inv config (s.step a) := by
  cases a with
  | reserve p host message => exact h.reserve p host message hwhole
  | commit k => exact h.commit k
  | recv host => exact h.recv host hwhole

/-! ## Delivery -/

/-- **Completed messages drain in order.** -/
theorem Inv.drains (h : Inv config s) (host : Host) (n : ℕ)
    (hn : s.got.length + n ≤ s.sends.length)
    (hdone : ∀ m ∈ s.sends.take (s.got.length + n), m.Complete) :
    (Run.exec FlightState.step s (List.replicate n (.recv host))).got =
      (s.sends.take (s.got.length + n)).map Outgoing.message := by
  induction n generalizing s with
  | zero => exact h.received
  | succ n ih =>
      have hlt : s.got.length < s.sends.length := by omega
      have hqueue : s.queue = s.sends[s.got.length] :: s.sends.drop (s.got.length + 1) :=
        List.drop_eq_getElem_cons hlt
      have hfirst : (s.sends[s.got.length]).Complete :=
        hdone _ (List.mem_take_iff_getElem.2 ⟨s.got.length, by omega, rfl⟩)
      obtain ⟨-, hinv, hgot, hsends⟩ := h.recv_complete host hqueue hfirst
      have hlen : (s.step (.recv host)).got.length + n = s.got.length + (n + 1) := by
        rw [hgot, List.length_append, List.length_singleton]
        omega
      have := ih hinv (by rw [hlen, hsends]; exact hn) (by rw [hlen, hsends]; exact hdone)
      rw [List.replicate_succ, Run.exec_cons, this, hlen, hsends]

theorem Inv.delivers (h : Inv config s) : s.Delivers :=
  ⟨h.received, h.errors, fun host n => h.drains host n⟩

end FlightState

open FlightState

/-- **A multi-producer region delivers** every message once, intact and in
the order of the reservations, in a run whose receives find no message
committed in part. -/
theorem mpsc_delivery {config : SpscConfig} {s : FlightState} {acts : List FlightStep}
    (hinit : Initial config s) (hwhole : Run.Meets FlightState.step Whole s acts) :
    (Run.exec FlightState.step s acts).Delivers :=
  (hwhole.invariant (FlightState.Inv config) (fun _ a h hc => h.step a hc) hinit.inv).delivers

end

open FlightState

/-- A multi-producer configuration of two slots, with chunks of 43 bytes. -/
def sampleFlightConfig : SpscConfig := ⟨2, CHUNK_METADATA_LEN + 43, .raise, none, true⟩

def sampleFlightStart : FlightState where
  region := (sampleWorld sampleFlightConfig).region
  producers _ := fresh sampleHost sampleFlightConfig
  consumer := fresh sampleHost sampleFlightConfig
  sends := []
  got := []
  errors := []

theorem sampleFlightStart_initial : Initial sampleFlightConfig sampleFlightStart :=
  ⟨rfl, ⟨sampleHost, sampleWorld sampleFlightConfig, rfl, rfl⟩, ⟨rfl, rfl⟩, fun _ => rfl, rfl, rfl,
    rfl⟩

/-- A message of two chunks. -/
def sampleChunked : Message := ⟨List.replicate 86 7, by decide⟩

/-- A receive before the first commit, the two commits, and a receive. -/
def sampleFlight : List FlightStep :=
  [.reserve 0 sampleHost sampleChunked, .recv sampleHost, .commit 0, .commit 0, .recv sampleHost]

theorem mpsc_delivery_sample :
    (Run.exec (@FlightState.step crc32Checksum) sampleFlightStart sampleFlight).got =
        [⟨0, sampleChunked.1⟩] ∧
      @FlightState.Delivers crc32Checksum
        (Run.exec (@FlightState.step crc32Checksum) sampleFlightStart sampleFlight) :=
  ⟨by decide +kernel,
    @mpsc_delivery crc32Checksum _ _ _ sampleFlightStart_initial (by decide +kernel)⟩

/-- A receive between the two commits of the message. -/
def sampleFlightPart : List FlightStep :=
  [.reserve 0 sampleHost sampleChunked, .commit 0, .recv sampleHost, .commit 0, .recv sampleHost]

/-- **Failing input**: the receive between the commits consumes the first
chunk, and the second alone is a corrupted message. -/
theorem mpsc_delivery_lost :
    Initial sampleFlightConfig sampleFlightStart ∧
      ¬ @FlightState.Delivers crc32Checksum
        (Run.exec (@FlightState.step crc32Checksum) sampleFlightStart sampleFlightPart) := by
  have herrors : (Run.exec (@FlightState.step crc32Checksum) sampleFlightStart
      sampleFlightPart).errors =
        [.ofChannel .bufferEmpty, .ofChannel .corruptedMessage] := by
    decide +kernel
  refine ⟨sampleFlightStart_initial, fun h => ?_⟩
  have := @Delivers.errors crc32Checksum _ h (.ofChannel .corruptedMessage)
    (by rw [herrors]; exact .tail _ (.head _))
  cases this

end Dsline
