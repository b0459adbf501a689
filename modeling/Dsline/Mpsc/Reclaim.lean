import Dsline.Mpsc.Reserve
import Dsline.Shm.Handle
/-!
# Reclaiming a dead reservation

Producers reserve and write slot by slot, and may die between any two of
their writes; a consumer consumes what is committed at the tail and calls
`try_reclaim_at_tail_mpsc`. The extent a reclaim frees is what the header of
the tail slot records, which is the whole reservation: it is right where the
tail is at the reservation's first cursor, and it is there to be read where
the producer died inside its first slot.
-/

namespace Dsline

open PersistentShmChannel ReserveState

/-- How far a producer is with its next slot. -/
inductive WriteStage where
  | idle
  /-- The WRITING header is there, its identity not yet published. -/
  | stamped
  | published
  deriving DecidableEq, Repr

/-- A message on its way into its reservation. -/
structure Sending where
  stamp : WriterIdentity
  seq : UInt64
  written : ℕ
  stage : WriteStage
  deriving DecidableEq, Repr

structure CrashState where
  region : Region
  /-- What was reserved, oldest first. -/
  reserved : List Reservation
  /-- The message in the reservation with this start. -/
  sends : ℕ → Sending
  /-- The processes that died. -/
  gone : List ProcessIdentity
  consumer : PersistentShmChannel

inductive CrashStep where
  /-- A head exchange that succeeds. -/
  | reserve (writer : ProcessIdentity) (epoch : UInt32) (timestampNs seq : UInt64) (needed : ℕ)
  /-- The next write into the reservation: the WRITING header, its identity
  magic, or the frame and the COMMITTED header. -/
  | write (start : ℕ) (frame : Bytes)
  | die (writer : ProcessIdentity)
  /-- A receive reads the slot at the tail, frees it and steps over it. -/
  | consume
  /-- A receive reads a chunk at the tail that is not the one it needs (a
  message read from its middle on), frees the slot and stays. -/
  | refuse
  /-- A receive that finds nothing, or `reclaim_stale`, reclaims. -/
  | reclaim
  deriving DecidableEq, Repr

namespace CrashState

/-- A host that knows who is gone. -/
def host (s : CrashState) : Host where
  identity := ⟨0, 0⟩
  epoch := 0
  now := 0
  liveness identity := if identity ∈ s.gone then .gone else .alive
  polls := 0
  fuel := 0

/-- `refresh_cursors`, then `try_reclaim_at_tail_mpsc`. -/
def reclaimCall (s : CrashState) : EStateM.Result Failure World ℕ :=
  (do
    refreshCursors
    tryReclaimAtTailMpsc s.host : ChannelM ℕ) ⟨s.consumer, s.region⟩

def setSend (s : CrashState) (start : ℕ) (sending : Sending) : CrashState :=
  { s with sends := fun i => if i = start then sending else s.sends i }

def Dead (s : CrashState) (r : Reservation) : Prop := (s.sends r.start).stamp.process ∈ s.gone

def Incomplete (s : CrashState) (r : Reservation) : Prop :=
  (s.sends r.start).written < r.neededSlots

instance (s : CrashState) (r : Reservation) : Decidable (s.Dead r) :=
  inferInstanceAs (Decidable (_ ∈ _))

instance (s : CrashState) (r : Reservation) : Decidable (s.Incomplete r) :=
  inferInstanceAs (Decidable (_ < _))

/-- The next write into a slot, with the message behind it. -/
def writeSlot (sending : Sending) (index : ℕ) (frame : Bytes) (region : Region) :
    Region × Sending :=
  match sending.stage with
  | .idle =>
      -- A slot that is not FREE yet is waited for.
      if region.state index = .free then
        (region.setHeader index
            (encodeHeader .writing sending.seq frame.length (some sending.stamp) false),
          { sending with stage := .stamped })
      else (region, sending)
  | .stamped => (region.publishIdentity index, { sending with stage := .published })
  | .published =>
      ((region.setPayload index 0 frame).writeHeader index .committed sending.seq frame.length,
        { sending with written := sending.written + 1, stage := .idle })

def step (s : CrashState) : CrashStep → CrashState
  | .reserve writer epoch timestampNs seq needed =>
      -- What the guard and the exchange promise.
      if writer ∉ s.gone ∧ 0 < needed ∧
          s.region.head + needed ≤ s.region.tail + s.region.capacity then
        { s.setSend s.region.head
            ⟨⟨writer.pid, writer.startTime, epoch, timestampNs, UInt32.ofNat needed⟩, seq, 0, .idle⟩
          with
          region := s.region.storeHead (wrappingAdd s.region.head needed)
          reserved := s.reserved ++ [⟨s.region.head, needed, s.region.tail⟩] }
      else s
  | .write start frame =>
      match s.reserved.find? (fun r => r.start = start) with
      | none => s
      | some r =>
          if ¬ s.Dead r ∧ s.Incomplete r then
            let sending := s.sends r.start
            let (region, sending') := writeSlot sending
              ((r.start + sending.written) % s.region.capacity) frame s.region
            { s.setSend r.start sending' with region }
          else s
  | .die writer => { s with gone := writer :: s.gone }
  | .consume =>
      let index := s.region.tail % s.region.capacity
      if s.region.state index = .committed then
        { s with
          region := (s.region.forceRelease index).fetchMaxTail (wrappingAdd s.region.tail 1) }
      else s
  | .refuse =>
      let index := s.region.tail % s.region.capacity
      if s.region.state index = .committed then
        { s with region := s.region.forceRelease index }
      else s
  | .reclaim =>
      let w := Effect.final s.reclaimCall
      { s with region := w.region, consumer := w.chan }

/-- A created multi-producer region with one handle open on it. -/
structure Initial (s : CrashState) : Prop where
  capacity : s.consumer.config.capacity = s.region.capacity
  pos : 0 < s.region.capacity
  opened : s.consumer.closed = false
  head : s.region.head = 0
  tail : s.region.tail = 0
  free : ∀ i, s.region.state i = .free
  reserved : s.reserved = []

/-- **A reclaim crosses no live reservation**: what it moves the tail over
belongs to dead producers. -/
def Spares (s : CrashState) : CrashStep → Prop
  | .reclaim => ∀ c < (s.step .reclaim).region.tail, s.region.tail ≤ c →
      ∃ r ∈ s.reserved, r.Covers c ∧ s.Dead r
  | _ => True

/-- Fewer than `2^64` slots are reserved. -/
def Counted (s : CrashState) : CrashStep → Prop
  | .reserve _ _ _ _ needed => s.region.head + needed < wordCount
  | _ => True

/-- The slot at the tail is WRITING, and shows who writes it. -/
def Published (s : CrashState) : Prop :=
  s.region.state (s.region.tail % s.region.capacity) = .writing ∧
    (s.region.header (s.region.tail % s.region.capacity)).identity ≠ none

instance (s : CrashState) : Decidable s.Published := inferInstanceAs (Decidable (_ ∧ _))

/-- A reclaim does not run inside a dead reservation that was partly
consumed, with a published identity in the slot at the tail. -/
def Unconsumed (s : CrashState) : CrashStep → Prop
  | .reclaim => s.Published → ∀ r ∈ s.reserved, r.Covers s.region.tail → s.Dead r →
      s.Incomplete r → s.region.tail = r.start
  | _ => True

/-- **A reclaim completes**: where the tail is inside an incomplete
reservation of a dead producer, the call frees slots and leaves the tail
behind the reservation. -/
def Completes (s : CrashState) : Prop :=
  ∀ r ∈ s.reserved, r.Covers s.region.tail → s.Dead r → s.Incomplete r →
    ∃ freed w, s.reclaimCall = .ok freed w ∧ 0 < freed ∧ w.region.tail = r.stop

/-- A producer dies only inside its first slot, its identity published, and
with a reservation whose length the header can record. -/
def DiesEarly (s : CrashState) : CrashStep → Prop
  | .die writer => ∀ r ∈ s.reserved, (s.sends r.start).stamp.process = writer → s.Incomplete r →
      (s.sends r.start).written = 0 ∧ (s.sends r.start).stage = .published ∧
        r.neededSlots < 2 ^ 32
  | _ => True

instance (s : CrashState) : (a : CrashStep) → Decidable (s.Spares a)
  | .reclaim => inferInstanceAs (Decidable (∀ _ < _, _ → _))
  | .reserve _ _ _ _ _ | .write _ _ | .die _ | .consume | .refuse => isTrue trivial

instance (s : CrashState) : (a : CrashStep) → Decidable (s.Counted a)
  | .reserve _ _ _ _ _ => inferInstanceAs (Decidable (_ < _))
  | .write _ _ | .die _ | .consume | .refuse | .reclaim => isTrue trivial

instance (s : CrashState) : (a : CrashStep) → Decidable (s.Unconsumed a)
  | .reclaim => inferInstanceAs (Decidable (_ → ∀ _ ∈ _, _ → _ → _ → _))
  | .reserve _ _ _ _ _ | .write _ _ | .die _ | .consume | .refuse => isTrue trivial

instance (s : CrashState) : (a : CrashStep) → Decidable (s.DiesEarly a)
  | .die _ => inferInstanceAs (Decidable (∀ _ ∈ _, _ → _ → _))
  | .reserve _ _ _ _ _ | .write _ _ | .consume | .refuse | .reclaim => isTrue trivial

/-! ## What a reclaim does -/

/-- What the extent check accepts of the slot at the tail. -/
structure Extent (host : Host) (w : World) (extent : ℕ) (stamp : WriterIdentity) : Prop where
  state : (w.region.header w.chan.tail).state = .writing
  identity : (w.region.header w.chan.tail).identity = some stamp
  gone : host.liveness stamp.process = .gone
  recorded : extent = stamp.reservedSlots.toNat
  pos : 0 < extent
  window : extent ≤ wrappingSub w.chan.headCursor w.chan.tailCursor
  lap : wrappingSub w.chan.headCursor w.chan.tailCursor ≤ w.chan.config.capacity
  crossable : ∀ k < extent,
    crossable stamp (w.region.header ((w.chan.tail + k) % w.chan.config.capacity)) = true

theorem reclaimExtent_some {host : Host} {w : World} {extent : ℕ} :
    reclaimExtent host w = some extent ↔ ∃ stamp, Extent host w extent stamp := by
  unfold reclaimExtent
  simp only
  constructor
  · intro h
    split at h
    · cases h
    rename_i hlap
    split at h
    · cases h
    rename_i hstate
    split at h
    · cases h
    rename_i stamp hid
    split at h
    · cases h
    rename_i hgone
    split at h
    · cases h
    rename_i hext
    split at h
    · rename_i hall
      obtain rfl := Option.some.inj h
      simp only [List.all_eq_true, List.mem_range] at hall
      exact ⟨stamp, by simpa using hstate, hid, by simpa using hgone, rfl, by omega, by omega,
        by omega, hall⟩
    · cases h
  · rintro ⟨stamp, h⟩
    have hpos := h.pos
    have hwin := h.window
    have hlap := h.lap
    have hrec := h.recorded
    have hall := h.crossable
    rw [hrec] at hall
    rw [if_neg (by omega), if_neg (by simp [h.state]), h.identity]
    simp only [h.gone, ne_eq, not_true_eq_false, if_false]
    rw [if_neg (by omega), if_pos (by simpa only [List.all_eq_true, List.mem_range] using hall),
      hrec]

/-- A reclaim that finds no extent changes nothing. -/
theorem tryReclaimAtTailMpsc_none {host : Host} {w : World} (h : reclaimExtent host w = none) :
    tryReclaimAtTailMpsc host w = .ok 0 w := by
  rw [tryReclaimAtTailMpsc, Effect.get_bind, h]
  rfl

/-- **A reclaim that finds its extent frees it** and moves the tail over it. -/
theorem tryReclaimAtTailMpsc_some {host : Host} {w : World} {extent : ℕ}
    (h : reclaimExtent host w = some extent) (htail : w.chan.tailCursor = w.region.tail)
    (hindex : w.chan.tail = w.region.tail % w.region.capacity) :
    ∃ w', tryReclaimAtTailMpsc host w = .ok extent w' ∧
      w'.region = { releaseExtent extent (w.region.tail % w.region.capacity) w.region with
        tail := w.region.tail + extent } ∧
      w'.chan.config = w.chan.config ∧ w'.chan.closed = w.chan.closed := by
  have hwords := releaseExtent_words extent (w.region.tail % w.region.capacity) w.region
  rw [tryReclaimAtTailMpsc, Effect.get_bind, h]
  simp only [modifyRegion, modifyChan, Effect.modify_bind, Effect.get_bind, hindex,
    Region.compareExchangeTail, hwords.tail, htail, if_true, not_true_eq_false, if_false]
  exact ⟨_, rfl, rfl, rfl, rfl⟩

/-! ## The invariant -/

/-- What a slot shows of its reservation: COMMITTED, or freed by a receive
that refused it, up to the slot being written, FREE behind it. -/
def SlotOk (sending : Sending) (r : Reservation) (c : ℕ) (header : SlotHeader) : Prop :=
  if c < r.start + sending.written then header.state = .committed ∨ header.state = .free
  else if c = r.start + sending.written then
    match sending.stage with
    | .idle => header.state = .free
    | .stamped => header.state = .writing ∧ header.fields = sending.stamp ∧ header.identity = none
    | .published => header.state = .writing ∧ header.identity = some sending.stamp
  else header.state = .free

structure Inv (s : CrashState) : Prop where
  capacity : s.consumer.config.capacity = s.region.capacity
  pos : 0 < s.region.capacity
  opened : s.consumer.closed = false
  tiles : Tiles 0 s.reserved s.region.head
  ordered : s.region.tail ≤ s.region.head
  window : s.region.head ≤ s.region.tail + s.region.capacity
  word : s.region.head < wordCount
  nonempty : ∀ r ∈ s.reserved, 0 < r.neededSlots
  recorded : ∀ r ∈ s.reserved,
    (s.sends r.start).stamp.reservedSlots = UInt32.ofNat r.neededSlots
  free : ∀ c, s.region.head ≤ c → c < s.region.tail + s.region.capacity →
    s.region.state (c % s.region.capacity) = .free
  slots : ∀ r ∈ s.reserved, ∀ c, r.Covers c → s.region.tail ≤ c →
    SlotOk (s.sends r.start) r c (s.region.header (c % s.region.capacity))
  live : ∀ r ∈ s.reserved, ¬ s.Dead r → s.Incomplete r →
    s.region.tail ≤ r.start + (s.sends r.start).written

variable {s : CrashState} {r : Reservation}

theorem Inv.sound (h : Inv s) : World.Sound ⟨s.consumer, s.region⟩ :=
  ⟨h.capacity, h.pos, h.ordered, h.window, h.word, h.opened⟩

theorem Initial.inv (h : Initial s) : Inv s where
  capacity := h.capacity
  pos := h.pos
  opened := h.opened
  tiles := by
    rw [h.reserved, h.head]
    rfl
  ordered := by
    rw [h.tail]
    exact Nat.zero_le _
  window := by
    rw [h.head]
    exact Nat.zero_le _
  word := by
    rw [h.head]
    decide
  nonempty r hr := by
    rw [h.reserved] at hr
    cases hr
  recorded r hr := by
    rw [h.reserved] at hr
    cases hr
  free c _ _ := h.free _
  slots r hr := by
    rw [h.reserved] at hr
    cases hr
  live r hr := by
    rw [h.reserved] at hr
    cases hr

/-! ## The call on the region -/

/-- What a reclaim finds at the tail of the region. -/
structure Frees (s : CrashState) (extent : ℕ) (stamp : WriterIdentity) : Prop where
  state : s.region.state (s.region.tail % s.region.capacity) = .writing
  identity : (s.region.header (s.region.tail % s.region.capacity)).identity = some stamp
  gone : stamp.process ∈ s.gone
  recorded : extent = stamp.reservedSlots.toNat
  pos : 0 < extent
  window : s.region.tail + extent ≤ s.region.head
  crossable : ∀ k < extent,
    crossable stamp (s.region.header ((s.region.tail + k) % s.region.capacity)) = true

/-- The world the extent is looked for in. -/
def lookedAt (s : CrashState) : World :=
  World.refreshed ⟨s.consumer, s.region⟩ (s.region.head - s.region.tail)

theorem liveness_gone {process : ProcessIdentity} :
    s.host.liveness process = .gone ↔ process ∈ s.gone := by
  show (if process ∈ s.gone then ProcessLiveness.gone else .alive) = .gone ↔ _
  split
  · rename_i h
    exact ⟨fun _ => h, fun _ => rfl⟩
  · rename_i h
    exact ⟨fun he => (nomatch he), fun he => absurd he h⟩

theorem Inv.frees_iff (h : Inv s) {extent : ℕ} :
    reclaimExtent s.host s.lookedAt = some extent ↔ ∃ stamp, Frees s extent stamp := by
  have hcap : s.lookedAt.chan.config.capacity = s.region.capacity := h.capacity
  have hindex : s.lookedAt.chan.tail = s.region.tail % s.region.capacity := by
    show s.region.tail % s.consumer.config.capacity = _
    rw [h.capacity]
  have hsub : wrappingSub s.lookedAt.chan.headCursor s.lookedAt.chan.tailCursor =
      s.region.head - s.region.tail := wrappingSub_of_le h.ordered
  have hle := h.ordered
  have hwin := h.window
  rw [reclaimExtent_some]
  refine exists_congr fun stamp => ⟨fun he => ?_, fun he => ?_⟩
  · have hw := he.window
    have hall := he.crossable
    have hstate := he.state
    have hid := he.identity
    have hpos := he.pos
    rw [hsub] at hw
    rw [hindex] at hstate hid hall
    simp only [hcap, Nat.mod_add_mod] at hall
    exact ⟨hstate, hid, liveness_gone.1 he.gone, he.recorded, hpos, by omega, hall⟩
  · have hw := he.window
    refine ⟨?_, ?_, liveness_gone.2 he.gone, he.recorded, he.pos, ?_, ?_, ?_⟩
    · rw [hindex]
      exact he.state
    · rw [hindex]
      exact he.identity
    · rw [hsub]
      omega
    · rw [hsub, hcap]
      omega
    · intro k hk
      rw [hindex, hcap, Nat.mod_add_mod]
      exact he.crossable k hk

/-- **A reclaim that finds nothing** leaves the region as it is. -/
theorem Inv.reclaimCall_none (h : Inv s) (hno : ¬ ∃ extent stamp, Frees s extent stamp) :
    s.reclaimCall = .ok 0 s.lookedAt := by
  rw [reclaimCall, Effect.bind_ok h.sound.refreshCursors]
  refine tryReclaimAtTailMpsc_none ?_
  cases hext : reclaimExtent s.host s.lookedAt with
  | none => exact hext
  | some extent => exact absurd ⟨extent, h.frees_iff.1 hext⟩ hno

/-- **A reclaim that finds an extent** frees it. -/
theorem Inv.reclaimCall_some (h : Inv s) {extent : ℕ} {stamp : WriterIdentity}
    (hf : Frees s extent stamp) :
    ∃ w, s.reclaimCall = .ok extent w ∧
      w.region = { releaseExtent extent (s.region.tail % s.region.capacity) s.region with
        tail := s.region.tail + extent } ∧
      w.chan.config = s.consumer.config ∧ w.chan.closed = s.consumer.closed := by
  rw [reclaimCall, Effect.bind_ok h.sound.refreshCursors]
  have hindex : s.lookedAt.chan.tail = s.region.tail % s.region.capacity := by
    show s.region.tail % s.consumer.config.capacity = _
    rw [h.capacity]
  exact tryReclaimAtTailMpsc_some (w := s.lookedAt) (h.frees_iff.2 ⟨stamp, hf⟩) rfl hindex

/-! ## Facts of the invariant -/

/-- The reservation at a start is one. -/
theorem Inv.eq_of_start (h : Inv s) {r' : Reservation} (hr : r ∈ s.reserved)
    (hr' : r' ∈ s.reserved) (hstart : r.start = r'.start) : r = r' := by
  have hpos := h.nonempty r hr
  have hpos' := h.nonempty r' hr'
  have hc : r.Covers r.start := ⟨Nat.le_refl _, Nat.lt_add_of_pos_right hpos⟩
  exact h.tiles.unique hr hr' hc ⟨Nat.le_of_eq hstart.symm, by unfold Reservation.stop; omega⟩

theorem Inv.stop_le (h : Inv s) (hr : r ∈ s.reserved) : r.stop ≤ s.region.head :=
  (h.tiles.pairwise.2.1 r hr).2

/-- The slot an incomplete reservation is at is one of its own. -/
theorem covers_next (hinc : s.Incomplete r) : r.Covers (r.start + (s.sends r.start).written) :=
  ⟨Nat.le_add_right _ _, Nat.add_lt_add_left hinc _⟩

/-- A COMMITTED slot is one that was written. -/
theorem SlotOk.lt_of_committed {sending : Sending} {c : ℕ} {header : SlotHeader}
    (h : SlotOk sending r c header) (hstate : header.state = .committed) :
    c < r.start + sending.written := by
  unfold SlotOk at h
  split at h
  · assumption
  · split at h
    · split at h
      · rw [hstate] at h
        cases h
      · rw [hstate] at h
        exact nomatch h.1
      · rw [hstate] at h
        exact nomatch h.1
    · rw [hstate] at h
      cases h

/-- A WRITING slot with an identity is the one being written. -/
theorem SlotOk.eq_of_writing {sending : Sending} {c : ℕ} {header : SlotHeader}
    {stamp : WriterIdentity} (h : SlotOk sending r c header) (hstate : header.state = .writing)
    (hid : header.identity = some stamp) :
    c = r.start + sending.written ∧ stamp = sending.stamp := by
  unfold SlotOk at h
  split at h
  · rw [hstate] at h
    rcases h with h | h <;> cases h
  · split at h
    · refine ⟨by assumption, ?_⟩
      split at h
      · rw [hstate] at h
        cases h
      · rw [h.2.2] at hid
        cases hid
      · rw [h.2] at hid
        exact (Option.some.inj hid).symm
    · rw [hstate] at h
      cases h

/-- **What a reclaim finds is a dead reservation**, where it stands. -/
theorem Inv.dead_of_frees (h : Inv s) {extent : ℕ} {stamp : WriterIdentity}
    (hf : Frees s extent stamp) :
    ∃ r ∈ s.reserved, r.Covers s.region.tail ∧ s.Dead r ∧ s.Incomplete r ∧
      extent = r.neededSlots % 2 ^ 32 := by
  have hwin := hf.window
  have hpos := hf.pos
  obtain ⟨r, hr, hc⟩ := h.tiles.covered (Nat.zero_le _) (show s.region.tail < _ by omega)
  obtain ⟨hat, hstamp⟩ :=
    (h.slots r hr _ hc (Nat.le_refl _)).eq_of_writing hf.state hf.identity
  have hlast := hc.2
  unfold Reservation.stop at hlast
  refine ⟨r, hr, hc, ?_, ?_, ?_⟩
  · unfold Dead
    rw [← hstamp]
    exact hf.gone
  · unfold Incomplete
    omega
  · rw [hf.recorded, hstamp, h.recorded r hr, UInt32.toNat_ofNat']

/-! ## The steps -/

theorem setSend_sends {start i : ℕ} {sending : Sending} (h : i ≠ start) :
    (s.setSend start sending).sends i = s.sends i := if_neg h

theorem setSend_same {start : ℕ} : s.setSend start (s.sends start) = s := by
  have hsame : (fun i => if i = start then s.sends start else s.sends i) = s.sends := by
    funext i
    split
    · rename_i he
      rw [he]
    · rfl
  unfold setSend
  rw [hsame]

theorem setSend_sends_self {start : ℕ} {sending : Sending} :
    (s.setSend start sending).sends start = sending := if_pos rfl

/-- **Reserving** keeps the invariant: what is taken was FREE. -/
theorem Inv.reserve (h : Inv s) (writer : ProcessIdentity) (epoch : UInt32)
    (timestampNs seq : UInt64) (needed : ℕ)
    (hword : s.Counted (.reserve writer epoch timestampNs seq needed)) :
    Inv (s.step (.reserve writer epoch timestampNs seq needed)) := by
  simp only [Counted] at hword
  simp only [step]
  split
  · rename_i hok
    obtain ⟨-, hneeded, hroom⟩ := hok
    rw [wrappingAdd_of_lt hword]
    have hle := h.ordered
    have hold (r : Reservation) (hr : r ∈ s.reserved) : r.start ≠ s.region.head := by
      have := h.stop_le hr
      have := h.nonempty r hr
      unfold Reservation.stop at *
      omega
    exact
      { capacity := h.capacity
        pos := h.pos
        opened := h.opened
        tiles := tiles_append h.tiles rfl
        ordered := Nat.le_trans hle (Nat.le_add_right _ _)
        window := hroom
        word := hword
        nonempty := by
          intro r hr
          rcases List.mem_append.1 hr with hr | hr
          · exact h.nonempty r hr
          · rw [List.mem_singleton.1 hr]
            exact hneeded
        recorded := by
          intro r hr
          show ((s.setSend _ _).sends r.start).stamp.reservedSlots = _
          rcases List.mem_append.1 hr with hr | hr
          · rw [setSend_sends (hold r hr)]
            exact h.recorded r hr
          · rw [List.mem_singleton.1 hr, setSend_sends_self]
        free := fun c hc hc' => h.free c (Nat.le_trans (Nat.le_add_right _ _) hc) hc'
        slots := by
          intro r hr c hc hct
          show SlotOk ((s.setSend _ _).sends r.start) r c (s.region.header _)
          rcases List.mem_append.1 hr with hr | hr
          · rw [setSend_sends (hold r hr)]
            exact h.slots r hr c hc hct
          · obtain rfl := List.mem_singleton.1 hr
            obtain ⟨hfirst, hlast⟩ := hc
            replace hfirst : s.region.head ≤ c := hfirst
            replace hlast : c < s.region.head + needed := hlast
            have hfree : (s.region.header (c % s.region.capacity)).state = .free :=
              h.free c hfirst (by omega)
            rw [setSend_sends_self]
            unfold SlotOk
            rw [if_neg (by show ¬ c < s.region.head + 0; omega)]
            split
            · exact hfree
            · exact hfree
        live := by
          intro r hr hdead hinc
          replace hdead : ¬ ((s.setSend s.region.head _).sends r.start).stamp.process ∈ s.gone :=
            hdead
          replace hinc : ((s.setSend s.region.head _).sends r.start).written < r.neededSlots :=
            hinc
          show s.region.tail ≤ r.start + ((s.setSend _ _).sends r.start).written
          rcases List.mem_append.1 hr with hr | hr
          · rw [setSend_sends (hold r hr)] at hdead hinc ⊢
            exact h.live r hr hdead hinc
          · rw [List.mem_singleton.1 hr]
            exact Nat.le_trans hle (Nat.le_add_right _ _) }
  · exact h

/-- **A write into a slot in front of the tail** keeps the invariant, where
the slot shows what the send says of it afterwards. -/
theorem Inv.setSlot (h : Inv s) (hr : r ∈ s.reserved) {c₀ : ℕ} (hcov : r.Covers c₀)
    (htail : s.region.tail ≤ c₀) {slot : Slot} {sending : Sending}
    (hstamp : sending.stamp = (s.sends r.start).stamp)
    (hlive : ¬ s.Dead r → sending.written < r.neededSlots →
      s.region.tail ≤ r.start + sending.written)
    (hat : SlotOk sending r c₀ slot.header)
    (hother : ∀ c header, c ≠ c₀ → SlotOk (s.sends r.start) r c header →
      SlotOk sending r c header) :
    Inv { s.setSend r.start sending with
      region := s.region.setSlot (c₀ % s.region.capacity) slot } := by
  have hstop := h.stop_le hr
  have hwin := h.window
  have hlt : c₀ < s.region.head := Nat.lt_of_lt_of_le hcov.2 hstop
  have hkept (c : ℕ) (hc : s.region.tail ≤ c) (hc' : c < s.region.tail + s.region.capacity)
      (hne : c ≠ c₀) :
      (s.region.setSlot (c₀ % s.region.capacity) slot).header (c % s.region.capacity) =
        s.region.header (c % s.region.capacity) := by
    rw [Region.header, Region.setSlot_slots_of_ne
      (Window.mod_ne hc hc' htail (by omega) hne), Region.header]
  have hsame (r' : Reservation) (hr' : r' ∈ s.reserved) :
      r' = r ∨ r' ≠ r ∧ (s.setSend r.start sending).sends r'.start = s.sends r'.start := by
    by_cases he : r' = r
    · exact .inl he
    · exact .inr ⟨he, setSend_sends fun hs => he (h.eq_of_start hr' hr hs)⟩
  exact
    { capacity := h.capacity
      pos := h.pos
      opened := h.opened
      tiles := h.tiles
      ordered := h.ordered
      window := h.window
      word := h.word
      nonempty := h.nonempty
      recorded := by
        intro r' hr'
        show ((s.setSend r.start sending).sends r'.start).stamp.reservedSlots = _
        rcases hsame r' hr' with rfl | ⟨-, he⟩
        · rw [setSend_sends_self, hstamp]
          exact h.recorded _ hr'
        · rw [he]
          exact h.recorded r' hr'
      free := by
        intro c hc hc'
        replace hc : s.region.head ≤ c := hc
        replace hc' : c < s.region.tail + s.region.capacity := hc'
        have hfree := h.free c hc hc'
        rw [Region.state] at hfree ⊢
        rwa [Region.setSlot_capacity,
          hkept c (Nat.le_trans h.ordered hc) hc' (by omega : c ≠ c₀)]
      slots := by
        intro r' hr' c hc hct
        show SlotOk ((s.setSend r.start sending).sends r'.start) r' c
          ((s.region.setSlot (c₀ % s.region.capacity) slot).header (c % s.region.capacity))
        have hlast := h.stop_le hr'
        have hc' : c < s.region.tail + s.region.capacity :=
          Nat.lt_of_lt_of_le hc.2 (Nat.le_trans hlast hwin)
        by_cases hcc : c = c₀
        · subst hcc
          obtain rfl : r' = r := h.tiles.unique hr' hr hc hcov
          rw [setSend_sends_self, Region.header, Region.setSlot_slots_self]
          exact hat
        · rw [hkept c hct hc' hcc]
          have hold := h.slots r' hr' c hc hct
          rcases hsame r' hr' with rfl | ⟨-, he⟩
          · rw [setSend_sends_self]
            exact hother c _ hcc hold
          · rwa [he]
      live := by
        intro r' hr' hdead' hinc'
        replace hdead' : ¬ ((s.setSend r.start sending).sends r'.start).stamp.process ∈ s.gone :=
          hdead'
        replace hinc' : ((s.setSend r.start sending).sends r'.start).written < r'.neededSlots :=
          hinc'
        show s.region.tail ≤ r'.start + ((s.setSend r.start sending).sends r'.start).written
        rcases hsame r' hr' with rfl | ⟨-, he⟩
        · rw [setSend_sends_self] at hdead' hinc' ⊢
          refine hlive (fun hdead => hdead' ?_) hinc'
          rwa [hstamp]
        · rw [he] at hdead' hinc' ⊢
          exact h.live r' hr' hdead' hinc' }

/-- **A write into the slot a live send is at** keeps the invariant. -/
theorem Inv.writeAt (h : Inv s) (hr : r ∈ s.reserved) (hdead : ¬ s.Dead r)
    (hinc : s.Incomplete r) {slot : Slot} {sending : Sending}
    (hstamp : sending.stamp = (s.sends r.start).stamp)
    (hwritten : (s.sends r.start).written ≤ sending.written)
    (hat : SlotOk sending r (r.start + (s.sends r.start).written) slot.header)
    (hother : ∀ c header, c ≠ r.start + (s.sends r.start).written →
      SlotOk (s.sends r.start) r c header → SlotOk sending r c header) :
    Inv { s.setSend r.start sending with
      region := s.region.setSlot
        ((r.start + (s.sends r.start).written) % s.region.capacity) slot } := by
  have htail := h.live r hr hdead hinc
  exact h.setSlot hr (covers_next hinc) htail hstamp
    (fun _ _ => Nat.le_trans htail (Nat.add_le_add_left hwritten _)) hat hother

/-- **A write** keeps the invariant. -/
theorem Inv.write (h : Inv s) (start : ℕ) (frame : Bytes) : Inv (s.step (.write start frame)) := by
  simp only [step]
  split
  · exact h
  rename_i r hfind
  have hr := List.mem_of_find?_eq_some hfind
  split
  · rename_i hok
    obtain ⟨hdead, hinc⟩ := hok
    have hcov := covers_next hinc
    have htail := h.live r hr hdead hinc
    have hslot := h.slots r hr _ hcov htail
    have hat : ¬ r.start + (s.sends r.start).written < r.start + (s.sends r.start).written :=
      Nat.lt_irrefl _
    unfold SlotOk at hslot
    rw [if_neg hat, if_pos rfl] at hslot
    unfold writeSlot
    -- The stage says which of the three writes comes next.
    split
    · rename_i hstage
      rw [hstage] at hslot
      have hfree : s.region.state ((r.start + (s.sends r.start).written) % s.region.capacity) =
        .free := hslot
      rw [if_pos hfree]
      refine h.writeAt hr hdead hinc rfl (Nat.le_refl _) ?_ ?_
      · unfold SlotOk
        rw [if_neg hat, if_pos rfl]
        exact ⟨rfl, rfl, rfl⟩
      · intro c header hne hold
        unfold SlotOk at hold ⊢
        rwa [if_neg hne] at hold ⊢
    · rename_i hstage
      rw [hstage] at hslot
      refine h.writeAt hr hdead hinc rfl (Nat.le_refl _) ?_ ?_
      · unfold SlotOk
        rw [if_neg hat, if_pos rfl]
        refine ⟨hslot.1, ?_⟩
        rw [← hslot.2.1]
        rfl
      · intro c header hne hold
        unfold SlotOk at hold ⊢
        rwa [if_neg hne] at hold ⊢
    · have hset : ((s.region.setPayload ((r.start + (s.sends r.start).written) %
            s.region.capacity) 0 frame).writeHeader ((r.start + (s.sends r.start).written) %
            s.region.capacity) .committed (s.sends r.start).seq frame.length) =
          s.region.setSlot ((r.start + (s.sends r.start).written) % s.region.capacity)
            ((s.region.slots ((r.start + (s.sends r.start).written) % s.region.capacity)).committed
              (s.sends r.start).seq frame) := by
        simp [Region.setPayload, Region.writeHeader, Region.setHeader, Slot.committed]
      rw [hset]
      refine h.writeAt hr hdead hinc rfl (Nat.le_succ _) ?_ ?_
      · unfold SlotOk
        rw [if_pos (by show _ < r.start + ((s.sends r.start).written + 1); omega)]
        exact .inl rfl
      · intro c header hne hold
        unfold SlotOk at hold ⊢
        rw [if_neg hne] at hold
        show if c < r.start + ((s.sends r.start).written + 1) then
            header.state = .committed ∨ header.state = .free
          else if c = r.start + ((s.sends r.start).written + 1) then header.state = .free
          else header.state = .free
        split
        · rwa [if_pos (by omega)] at hold
        · rw [if_neg (by omega)] at hold
          split <;> exact hold
  · exact h

/-- **A death** keeps the invariant: what is live gets less. -/
theorem Inv.die (h : Inv s) (writer : ProcessIdentity) : Inv (s.step (.die writer)) :=
  ⟨h.capacity, h.pos, h.opened, h.tiles, h.ordered, h.window, h.word, h.nonempty, h.recorded,
    h.free, h.slots, fun r hr hdead hinc =>
      h.live r hr (fun hgone => hdead (List.mem_cons_of_mem writer hgone)) hinc⟩

/-- The slots behind a moved tail: those of before, where they are not
freed, and FREE ones. -/
theorem Inv.advance (h : Inv s) {region : Region} {consumer : PersistentShmChannel} {n : ℕ}
    (hwords : s.region.Words s.region.head (s.region.tail + n) s.region.pinFloor region)
    (hconfig : consumer.config = s.consumer.config) (hopened : consumer.closed = s.consumer.closed)
    (hn : s.region.tail + n ≤ s.region.head)
    (hfreed : ∀ k < n, region.state ((s.region.tail + k) % s.region.capacity) = .free)
    (hkept : ∀ c, s.region.tail + n ≤ c → c < s.region.tail + s.region.capacity →
      region.slots (c % s.region.capacity) = s.region.slots (c % s.region.capacity))
    (hlive : ∀ r ∈ s.reserved, ¬ s.Dead r → s.Incomplete r →
      s.region.tail + n ≤ r.start + (s.sends r.start).written) :
    Inv { s with region, consumer } where
  capacity := by
    show consumer.config.capacity = region.capacity
    rw [hconfig, hwords.capacity]
    exact h.capacity
  pos := by
    show 0 < region.capacity
    rw [hwords.capacity]
    exact h.pos
  opened := by
    show consumer.closed = false
    rw [hopened]
    exact h.opened
  tiles := by
    show Tiles 0 s.reserved region.head
    rw [hwords.head]
    exact h.tiles
  ordered := by
    show region.tail ≤ region.head
    rw [hwords.tail, hwords.head]
    exact hn
  window := by
    have := h.window
    show region.head ≤ region.tail + region.capacity
    rw [hwords.tail, hwords.head, hwords.capacity]
    omega
  word := by
    show region.head < wordCount
    rw [hwords.head]
    exact h.word
  nonempty := h.nonempty
  recorded := h.recorded
  free := by
    intro c hc hc'
    replace hc : region.head ≤ c := hc
    replace hc' : c < region.tail + region.capacity := hc'
    show region.state (c % region.capacity) = .free
    rw [hwords.head] at hc
    rw [hwords.tail, hwords.capacity] at hc'
    rw [hwords.capacity]
    rcases Nat.lt_or_ge c (s.region.tail + s.region.capacity) with hlt | hge
    · rw [Region.state, Region.header, hkept c (by omega) hlt]
      exact h.free c hc hlt
    · -- A lap behind, these are the slots that were freed.
      have hk := hfreed (c - (s.region.tail + s.region.capacity)) (by omega)
      have he : s.region.tail + (c - (s.region.tail + s.region.capacity)) + s.region.capacity = c :=
        by omega
      rwa [← Window.add_length_mod, he] at hk
  slots := by
    intro r hr c hc hct
    replace hct : region.tail ≤ c := hct
    show SlotOk (s.sends r.start) r c (region.header (c % region.capacity))
    have hlast := h.stop_le hr
    have hwin := h.window
    have hlt := hc.2
    rw [hwords.tail] at hct
    rw [hwords.capacity, Region.header, hkept c hct (by omega)]
    exact h.slots r hr c hc (by omega)
  live := by
    intro r hr hdead hinc
    show region.tail ≤ r.start + (s.sends r.start).written
    rw [hwords.tail]
    exact hlive r hr hdead hinc

/-- What is consumed was written. -/
theorem Inv.written_of_committed (h : Inv s)
    (hstate : s.region.state (s.region.tail % s.region.capacity) = .committed) :
    ∃ r ∈ s.reserved, r.Covers s.region.tail ∧
      s.region.tail < r.start + (s.sends r.start).written := by
  have hlt : s.region.tail < s.region.head := by
    by_contra hge
    have := h.free s.region.tail (by omega) (Nat.lt_add_of_pos_right h.pos)
    rw [hstate] at this
    cases this
  obtain ⟨r, hr, hc⟩ := h.tiles.covered (Nat.zero_le _) hlt
  exact ⟨r, hr, hc, (h.slots r hr _ hc (Nat.le_refl _)).lt_of_committed hstate⟩

/-- An incomplete reservation that is not behind the tail is not passed by a
step over a written slot. -/
theorem Inv.consume_passes (h : Inv s) (hr : r ∈ s.reserved) (hinc : s.Incomplete r)
    (hstate : s.region.state (s.region.tail % s.region.capacity) = .committed)
    (hat : s.region.tail ≤ r.start + (s.sends r.start).written) :
    s.region.tail + 1 ≤ r.start + (s.sends r.start).written := by
  obtain ⟨r', hr', hc', hlt⟩ := h.written_of_committed hstate
  by_contra hge
  have he : s.region.tail = r.start + (s.sends r.start).written := by omega
  obtain rfl := h.tiles.unique hr' hr hc' (he ▸ covers_next hinc)
  omega

/-- **Consuming** keeps the invariant. -/
theorem Inv.consume (h : Inv s) : Inv (s.step .consume) := by
  simp only [step]
  split
  · rename_i hstate
    obtain ⟨r, hr, hc, hlt⟩ := h.written_of_committed hstate
    have hstop := h.stop_le hr
    have hlast := hc.2
    have hword := h.word
    rw [Region.forceRelease_eq, wrappingAdd_of_lt (by omega)]
    refine h.advance (n := 1) ⟨rfl, rfl, rfl, rfl, rfl, ?_, rfl⟩ rfl rfl (by omega) ?_ ?_ ?_
    · exact Nat.max_eq_right (Nat.le_succ _)
    · intro k hk
      obtain rfl : k = 0 := by omega
      show ((s.region.setSlot _ _).slots (s.region.tail % s.region.capacity)).header.state = _
      rw [Region.setSlot_slots_self]
      rfl
    · intro c hc hc'
      exact Region.setSlot_slots_of_ne
        (Window.mod_ne (by omega) hc' (Nat.le_refl _) (Nat.lt_add_of_pos_right h.pos) (by omega))
    · exact fun r' hr' hdead hinc =>
        h.consume_passes hr' hinc hstate (h.live r' hr' hdead hinc)
  · exact h

/-- **Refusing** keeps the invariant: the slot at the tail was written. -/
theorem Inv.refuse (h : Inv s) : Inv (s.step .refuse) := by
  simp only [step]
  split
  · rename_i hstate
    obtain ⟨r, hr, hc, hlt⟩ := h.written_of_committed hstate
    have hfreed : SlotOk (s.sends r.start) r s.region.tail
        ((s.region.slots (s.region.tail % s.region.capacity)).released
          s.region.frameCapacity).header := by
      unfold SlotOk
      rw [if_pos hlt]
      exact .inr rfl
    have hkept := h.setSlot hr hc (Nat.le_refl _) rfl (h.live r hr) hfreed fun _ _ _ hold => hold
    rw [setSend_same] at hkept
    rw [Region.forceRelease_eq]
    exact hkept
  · exact h

/-- **A reclaim at the first cursor of its reservation** stays inside it. -/
theorem Inv.extent_le (h : Inv s) (hwhole : s.Unconsumed .reclaim) {extent : ℕ}
    {stamp : WriterIdentity} (hf : Frees s extent stamp) :
    ∃ r ∈ s.reserved, s.Dead r ∧ s.region.tail = r.start ∧ s.region.tail + extent ≤ r.stop := by
  obtain ⟨r, hr, hc, hdead, hinc, hext⟩ := h.dead_of_frees hf
  have hshown : s.Published := ⟨hf.state, by rw [hf.identity]; exact Option.some_ne_none _⟩
  have hstart := hwhole hshown r hr hc hdead hinc
  have := Nat.mod_le r.neededSlots (2 ^ 32)
  exact ⟨r, hr, hdead, hstart, by unfold Reservation.stop; omega⟩

/-- **Reclaiming** keeps the invariant, where it runs at the first cursor of
its reservation. -/
theorem Inv.reclaim (h : Inv s) (hwhole : s.Unconsumed .reclaim) : Inv (s.step .reclaim) := by
  by_cases hfrees : ∃ extent stamp, Frees s extent stamp
  · obtain ⟨extent, stamp, hf⟩ := hfrees
    obtain ⟨w, hw, hregion, hconfig, hopened⟩ := h.reclaimCall_some hf
    obtain ⟨r, hr, hdead, hstart, hext⟩ := h.extent_le hwhole hf
    have hwin := hf.window
    have hwords := releaseExtent_words extent (s.region.tail % s.region.capacity) s.region
    simp only [step, hw, Effect.final_ok]
    rw [hregion]
    refine h.advance (n := extent)
      ⟨hwords.capacity, hwords.frameCapacity, hwords.magic, hwords.format, hwords.head, rfl,
        hwords.pinFloor⟩ hconfig hopened hwin ?_ ?_ ?_
    · exact fun k hk => releaseExtent_free _ hk
    · intro c hc hc'
      rcases releaseExtent_slots (n := extent) (c := s.region.tail) (j := c % s.region.capacity)
        s.region with hsame | ⟨⟨k, hk, hj⟩, -⟩
      · exact hsame
      · have := h.window
        exact absurd hj (Window.mod_ne (by omega) hc' (Nat.le_add_right _ _) (by omega) (by omega))
    · -- A live send between the tail and the end of the dead reservation
      -- would be inside of it.
      intro r' hr' hdead' hinc'
      have hlive := h.live r' hr' hdead' hinc'
      by_contra hlt
      have hc : r.Covers (r'.start + (s.sends r'.start).written) := ⟨by omega, by omega⟩
      obtain rfl := h.tiles.unique hr hr' hc (covers_next hinc')
      exact hdead' hdead
  · simp only [step, h.reclaimCall_none hfrees, Effect.final_ok]
    exact h.advance (n := 0) (.refl _) rfl rfl h.ordered (fun k hk => absurd hk (Nat.not_lt_zero k))
      (fun c _ _ => rfl) h.live

/-- **Every step keeps the invariant.** -/
theorem Inv.step (h : Inv s) (a : CrashStep) (hword : s.Counted a) (hwhole : s.Unconsumed a) :
    Inv (s.step a) := by
  cases a with
  | reserve writer epoch timestampNs seq needed =>
      exact h.reserve writer epoch timestampNs seq needed hword
  | write start frame => exact h.write start frame
  | die writer => exact h.die writer
  | consume => exact h.consume
  | refuse => exact h.refuse
  | reclaim => exact h.reclaim hwhole

/-- **Such a reclaim spares the living.** -/
theorem Inv.spares (h : Inv s) (a : CrashStep) (hwhole : s.Unconsumed a) : s.Spares a := by
  cases a with
  | reclaim =>
      intro c hc hct
      by_cases hfrees : ∃ extent stamp, Frees s extent stamp
      · obtain ⟨extent, stamp, hf⟩ := hfrees
        obtain ⟨w, hw, hregion, -, -⟩ := h.reclaimCall_some hf
        obtain ⟨r, hr, hdead, hstart, hext⟩ := h.extent_le hwhole hf
        simp only [CrashState.step, hw, Effect.final_ok, hregion] at hc
        exact ⟨r, hr, ⟨by omega, by omega⟩, hdead⟩
      · simp only [CrashState.step, h.reclaimCall_none hfrees, Effect.final_ok] at hc
        exact absurd hc (Nat.not_lt.2 hct)
  | reserve | write | die | consume | refuse => trivial

/-! ## Deaths inside the first slot -/

/-- The invariant where producers die early: what a dead send left is the
published header of its first slot, and no incomplete reservation was
entered by the tail beyond what was written of it. -/
structure EarlyInv (s : CrashState) : Prop extends Inv s where
  early : ∀ r ∈ s.reserved, s.Dead r → s.Incomplete r →
    (s.sends r.start).written = 0 ∧ (s.sends r.start).stage = .published ∧ r.neededSlots < 2 ^ 32
  entered : ∀ r ∈ s.reserved, s.Incomplete r →
    s.region.tail ≤ r.start + (s.sends r.start).written ∨ r.stop ≤ s.region.tail

/-- The tail is then at the first cursor of the dead reservation. -/
theorem EarlyInv.tail_eq (h : EarlyInv s) (hr : r ∈ s.reserved) (hc : r.Covers s.region.tail)
    (hdead : s.Dead r) (hinc : s.Incomplete r) : s.region.tail = r.start := by
  obtain ⟨hzero, -, -⟩ := h.early r hr hdead hinc
  have hlow := hc.1
  have hhigh := hc.2
  rcases h.entered r hr hinc with hle | hge
  · omega
  · omega

theorem EarlyInv.unconsumed (h : EarlyInv s) (a : CrashStep) : s.Unconsumed a := by
  cases a with
  | reclaim => exact fun _ r hr hc hdead hinc => h.tail_eq hr hc hdead hinc
  | reserve | write | die | consume | refuse => trivial

/-- **There the reclaim finds the whole reservation.** -/
theorem EarlyInv.frees (h : EarlyInv s) (hr : r ∈ s.reserved) (hc : r.Covers s.region.tail)
    (hdead : s.Dead r) (hinc : s.Incomplete r) :
    Frees s r.neededSlots (s.sends r.start).stamp := by
  obtain ⟨hzero, hstage, hlen⟩ := h.early r hr hdead hinc
  have hstart := h.tail_eq hr hc hdead hinc
  have hstop := h.stop_le hr
  have hfirst := h.slots r hr _ hc (Nat.le_refl _)
  unfold SlotOk at hfirst
  rw [if_neg (by omega), if_pos (by omega), hstage] at hfirst
  obtain ⟨hstate, hid⟩ := hfirst
  refine ⟨hstate, hid, hdead, ?_, h.nonempty r hr, ?_, ?_⟩
  · rw [h.recorded r hr, UInt32.toNat_ofNat', Nat.mod_eq_of_lt hlen]
  · rw [hstart]
    exact hstop
  · intro k hk
    unfold PersistentShmChannel.crossable
    cases k with
    | zero =>
        rw [Nat.add_zero, hstate, hid]
        simp
    | succ k =>
        -- Behind the first slot nothing was written.
        have hslot := h.slots r hr (s.region.tail + (k + 1))
          ⟨by omega, by unfold Reservation.stop; omega⟩ (Nat.le_add_right _ _)
        unfold SlotOk at hslot
        rw [if_neg (by omega), if_neg (by omega)] at hslot
        rw [hslot]

theorem EarlyInv.completes (h : EarlyInv s) : s.Completes := by
  intro r hr hc hdead hinc
  obtain ⟨w, hw, hregion, -, -⟩ := h.reclaimCall_some (h.frees hr hc hdead hinc)
  refine ⟨_, w, hw, h.nonempty r hr, ?_⟩
  rw [hregion, h.tail_eq hr hc hdead hinc]
  rfl

/-- What reserving leaves of the sends and adds to them. -/
theorem Inv.reserve_sends (h : Inv s) {writer : ProcessIdentity} {epoch : UInt32}
    {timestampNs seq : UInt64} {needed : ℕ}
    (hr : r ∈ (s.step (.reserve writer epoch timestampNs seq needed)).reserved) :
    (r ∈ s.reserved ∧ (s.step (.reserve writer epoch timestampNs seq needed)).sends r.start =
        s.sends r.start) ∨
      (writer ∉ s.gone ∧ r.start = s.region.head ∧
        ((s.step (.reserve writer epoch timestampNs seq needed)).sends r.start).stamp.process =
          writer) := by
  simp only [CrashState.step] at hr ⊢
  split at hr
  · rename_i hok
    rw [if_pos hok]
    rcases List.mem_append.1 hr with hr | hr
    · refine .inl ⟨hr, setSend_sends ?_⟩
      have := h.stop_le hr
      have := h.nonempty r hr
      unfold Reservation.stop at *
      omega
    · obtain rfl := List.mem_singleton.1 hr
      exact .inr ⟨hok.1, rfl, by rw [setSend_sends_self]; rfl⟩
  · rename_i hno
    rw [if_neg hno]
    exact .inl ⟨hr, rfl⟩

/-- What a write leaves of the sends: it is a live one's, and moves on. -/
theorem Inv.write_sends (h : Inv s) (start : ℕ) (frame : Bytes) (hr : r ∈ s.reserved) :
    (s.step (.write start frame)).sends r.start = s.sends r.start ∨
      ¬ s.Dead r ∧ ((s.step (.write start frame)).sends r.start).stamp = (s.sends r.start).stamp ∧
        (s.sends r.start).written ≤ ((s.step (.write start frame)).sends r.start).written := by
  simp only [CrashState.step]
  split
  · exact .inl rfl
  rename_i r' hfind
  have hr' := List.mem_of_find?_eq_some hfind
  split
  · rename_i hok
    by_cases he : r.start = r'.start
    · obtain rfl := h.eq_of_start hr hr' he
      refine .inr ⟨hok.1, ?_⟩
      rw [setSend_sends_self]
      unfold writeSlot
      split
      · split
        · exact ⟨rfl, Nat.le_refl _⟩
        · exact ⟨rfl, Nat.le_refl _⟩
      · exact ⟨rfl, Nat.le_refl _⟩
      · exact ⟨rfl, Nat.le_succ _⟩
    · exact .inl (setSend_sends he)
  · exact .inl rfl

theorem write_kept (s : CrashState) (start : ℕ) (frame : Bytes) :
    (s.step (.write start frame)).reserved = s.reserved ∧
      (s.step (.write start frame)).gone = s.gone ∧
        (s.step (.write start frame)).region.tail = s.region.tail := by
  simp only [CrashState.step]
  split
  · exact ⟨rfl, rfl, rfl⟩
  split
  · refine ⟨rfl, rfl, ?_⟩
    unfold writeSlot
    split
    · split
      · rfl
      · rfl
    · rfl
    · rfl
  · exact ⟨rfl, rfl, rfl⟩

theorem refuse_kept (s : CrashState) :
    (s.step .refuse).reserved = s.reserved ∧ (s.step .refuse).gone = s.gone ∧
      (s.step .refuse).sends = s.sends ∧ (s.step .refuse).region.tail = s.region.tail := by
  simp only [CrashState.step]
  split
  · exact ⟨rfl, rfl, rfl, by rw [Region.forceRelease_eq]; rfl⟩
  · exact ⟨rfl, rfl, rfl, rfl⟩

/-- What an early death leaves is there after every step. -/
theorem EarlyInv.early_step (h : EarlyInv s) (a : CrashStep) (hdie : s.DiesEarly a) :
    ∀ r ∈ (s.step a).reserved, (s.step a).Dead r → (s.step a).Incomplete r →
      ((s.step a).sends r.start).written = 0 ∧ ((s.step a).sends r.start).stage = .published ∧
        r.neededSlots < 2 ^ 32 := by
  intro r hr hdead hinc
  cases a with
  | reserve writer epoch timestampNs seq needed =>
      have hgone : (s.step (.reserve writer epoch timestampNs seq needed)).gone = s.gone := by
        simp only [CrashState.step]
        split <;> rfl
      unfold Dead at hdead
      unfold Incomplete at hinc
      rw [hgone] at hdead
      rcases h.reserve_sends hr with ⟨hr, he⟩ | ⟨hlive, -, hproc⟩
      · rw [he] at hdead hinc ⊢
        exact h.early r hr hdead hinc
      · rw [hproc] at hdead
        exact absurd hdead hlive
  | write start frame =>
      obtain ⟨hres, hgone, -⟩ := write_kept s start frame
      unfold Dead at hdead
      unfold Incomplete at hinc
      rw [hres] at hr
      rw [hgone] at hdead
      rcases h.write_sends start frame hr with he | ⟨hlive, hstamp, -⟩
      · rw [he] at hdead hinc ⊢
        exact h.early r hr hdead hinc
      · rw [hstamp] at hdead
        exact absurd hdead hlive
  | die writer =>
      rcases List.mem_cons.1 hdead with he | hgone
      · exact hdie r hr he hinc
      · exact h.early r hr hgone hinc
  | consume =>
      have hkept : (s.step .consume).reserved = s.reserved ∧ (s.step .consume).gone = s.gone ∧
          (s.step .consume).sends = s.sends := by
        simp only [CrashState.step]
        split <;> exact ⟨rfl, rfl, rfl⟩
      unfold Dead at hdead
      unfold Incomplete at hinc
      rw [hkept.1] at hr
      rw [hkept.2.1, hkept.2.2] at hdead
      rw [hkept.2.2] at hinc ⊢
      exact h.early r hr hdead hinc
  | refuse =>
      obtain ⟨hres, hgone, hsends, -⟩ := refuse_kept s
      unfold Dead at hdead
      unfold Incomplete at hinc
      rw [hres] at hr
      rw [hgone, hsends] at hdead
      rw [hsends] at hinc ⊢
      exact h.early r hr hdead hinc
  | reclaim => exact h.early r hr hdead hinc

/-- No step enters an incomplete reservation beyond what was written. -/
theorem EarlyInv.entered_step (h : EarlyInv s) (a : CrashStep) :
    ∀ r ∈ (s.step a).reserved, (s.step a).Incomplete r →
      (s.step a).region.tail ≤ r.start + ((s.step a).sends r.start).written ∨
        r.stop ≤ (s.step a).region.tail := by
  intro r hr hinc
  cases a with
  | reserve writer epoch timestampNs seq needed =>
      have htail : (s.step (.reserve writer epoch timestampNs seq needed)).region.tail =
          s.region.tail := by
        simp only [CrashState.step]
        split <;> rfl
      have hle := h.ordered
      unfold Incomplete at hinc
      rw [htail]
      rcases h.reserve_sends hr with ⟨hr, he⟩ | ⟨-, hstart, -⟩
      · rw [he] at hinc ⊢
        exact h.entered r hr hinc
      · exact .inl (by omega)
  | write start frame =>
      obtain ⟨hres, -, htail⟩ := write_kept s start frame
      unfold Incomplete at hinc
      rw [hres] at hr
      rw [htail]
      rcases h.write_sends start frame hr with he | ⟨-, -, hle⟩
      · rw [he] at hinc ⊢
        exact h.entered r hr hinc
      · rcases h.entered r hr (Nat.lt_of_le_of_lt hle hinc) with hat | hbehind
        · exact .inl (by omega)
        · exact .inr hbehind
  | die writer => exact h.entered r hr hinc
  | consume =>
      simp only [CrashState.step] at hr hinc ⊢
      split
      · rename_i hstate
        rw [if_pos hstate] at hr hinc
        have htail : ((s.region.forceRelease (s.region.tail % s.region.capacity)).fetchMaxTail
            (wrappingAdd s.region.tail 1)).tail = s.region.tail + 1 := by
          obtain ⟨r', hr', hc', -⟩ := h.written_of_committed hstate
          have hstop := h.stop_le hr'
          have hword := h.word
          have hlast := hc'.2
          rw [Region.forceRelease_eq, wrappingAdd_of_lt (by omega)]
          exact Nat.max_eq_right (Nat.le_succ _)
        show Region.tail _ ≤ _ ∨ _ ≤ Region.tail _
        rw [htail]
        rcases h.entered r hr hinc with hat | hbehind
        · exact .inl (h.consume_passes hr hinc hstate hat)
        · exact .inr (Nat.le_succ_of_le hbehind)
      · rename_i hstate
        rw [if_neg hstate] at hr hinc
        exact h.entered r hr hinc
  | refuse =>
      obtain ⟨hres, -, hsends, htail⟩ := refuse_kept s
      unfold Incomplete at hinc
      rw [hres] at hr
      rw [hsends] at hinc
      rw [hsends, htail]
      exact h.entered r hr hinc
  | reclaim =>
      replace hinc : s.Incomplete r := hinc
      have hold := h.entered r hr hinc
      by_cases hfrees : ∃ extent stamp, Frees s extent stamp
      · obtain ⟨extent, stamp, hf⟩ := hfrees
        obtain ⟨w, hw, hregion, -, -⟩ := h.reclaimCall_some hf
        obtain ⟨r', hr', hc', hdead', hinc', hext⟩ := h.dead_of_frees hf
        obtain ⟨-, -, hlen⟩ := h.early r' hr' hdead' hinc'
        have hstart := h.tail_eq hr' hc' hdead' hinc'
        rw [Nat.mod_eq_of_lt hlen] at hext
        have htail : (s.step .reclaim).region.tail = r'.stop := by
          simp only [CrashState.step, hw, Effect.final_ok, hregion]
          unfold Reservation.stop
          omega
        rw [htail]
        show r'.stop ≤ r.start + (s.sends r.start).written ∨ r.stop ≤ r'.stop
        -- What lies between the old tail and the new one is the dead
        -- reservation.
        rcases hold with hat | hbehind
        · rcases Nat.lt_or_ge (r.start + (s.sends r.start).written) r'.stop with hlt | hge
          · obtain rfl := h.tiles.unique hr hr' (covers_next hinc) ⟨by omega, hlt⟩
            exact .inr (Nat.le_refl _)
          · exact .inl hge
        · have := hc'.2
          exact .inr (by omega)
      · have htail : (s.step .reclaim).region.tail = s.region.tail := by
          simp only [CrashState.step, h.reclaimCall_none hfrees, Effect.final_ok]
          rfl
        rw [htail]
        exact hold

/-- **Every step keeps it** while producers die early. -/
theorem EarlyInv.step (h : EarlyInv s) (a : CrashStep) (hword : s.Counted a)
    (hdie : s.DiesEarly a) : EarlyInv (s.step a) :=
  ⟨h.toInv.step a hword (h.unconsumed a), h.early_step a hdie, h.entered_step a⟩

theorem Initial.earlyInv (h : Initial s) : EarlyInv s where
  toInv := h.inv
  early r hr := by
    rw [h.reserved] at hr
    cases hr
  entered r hr := by
    rw [h.reserved] at hr
    cases hr

end CrashState

open CrashState

/-- **A run whose reclaims start where a dead reservation starts spares
every live reservation.** -/
theorem reclaim_spares {s : CrashState} {acts : List CrashStep} (hinit : Initial s)
    (hwhole : Run.Meets CrashState.step (fun s a => s.Counted a ∧ s.Unconsumed a) s acts) :
    Run.Meets CrashState.step Spares s acts :=
  hwhole.of_invariant CrashState.Inv (fun _ a h hc => h.step a hc.1 hc.2)
    (fun _ a h hc => h.spares a hc.2) hinit.inv

/-- A created multi-producer region of four slots, and a consumer on it. -/
def sampleCrashStart : CrashState where
  region := ⟨4, 64, 0, 0, REGION_MAGIC_MPSC, REGION_FORMAT, PIN_FLOOR_NONE, fun _ => .empty⟩
  reserved := []
  sends _ := ⟨.unset, 0, 0, .idle⟩
  gone := []
  consumer := .fresh ⟨⟨7, 1⟩, 1, 0, fun _ => .alive, 0, 0⟩ ⟨4, 64, .raise, none, true⟩

theorem sampleCrashStart_initial : Initial sampleCrashStart :=
  ⟨rfl, by decide, rfl, rfl, rfl, fun _ => rfl, rfl⟩

/-- A producer dies with the first header of its two slots published; a live
one sends behind it, then a message of two slots. The receive that is there
before the second slot gives up, and the next one refuses that slot. -/
def sampleCrash : List CrashStep :=
  [.reserve ⟨1, 1⟩ 1 0 0 2, .reserve ⟨2, 1⟩ 1 0 5 1, .write 0 [1], .write 0 [1], .write 2 [9],
    .die ⟨1, 1⟩, .reclaim, .write 2 [9], .write 2 [9], .consume, .reserve ⟨2, 1⟩ 1 0 6 2] ++
    List.replicate 3 (.write 3 [1]) ++ .consume :: List.replicate 3 (.write 3 [2]) ++
    [.refuse, .reclaim]

theorem reclaim_spares_sample :
    (Run.exec CrashState.step sampleCrashStart sampleCrash).region.tail = 4 ∧
      Run.Meets CrashState.step Spares sampleCrashStart sampleCrash :=
  ⟨by decide +kernel, reclaim_spares sampleCrashStart_initial (by decide +kernel)⟩

/-- The first of the two slots is consumed before the producer dies in the
second; the header there still records two. -/
def sampleCrashConsumed : List CrashStep :=
  [.reserve ⟨1, 1⟩ 1 0 0 2, .reserve ⟨2, 1⟩ 1 0 5 1, .write 0 [1], .write 0 [1], .write 0 [1],
    .consume, .write 0 [1], .write 0 [1], .die ⟨1, 1⟩, .reclaim]

/-- **Failing input**: the reclaim moves the tail over the slot the live
producer reserved. -/
theorem reclaim_crosses_live :
    Initial sampleCrashStart ∧
      (Run.exec CrashState.step sampleCrashStart sampleCrashConsumed).region.tail = 3 ∧
      (Run.exec CrashState.step sampleCrashStart sampleCrashConsumed).gone = [⟨1, 1⟩] ∧
      ¬ Run.Meets CrashState.step Spares sampleCrashStart sampleCrashConsumed :=
  ⟨sampleCrashStart_initial, by decide +kernel, by decide +kernel, by decide +kernel⟩

/-- **Where producers die only inside their first slot, its identity
published, every reclaim at a dead reservation completes.** -/
theorem reclaim_completes {s : CrashState} {acts : List CrashStep} (hinit : Initial s)
    (hdie : Run.Meets CrashState.step (fun s a => s.Counted a ∧ s.DiesEarly a) s acts) :
    (Run.exec CrashState.step s acts).Completes :=
  (hdie.invariant EarlyInv (fun _ a h hc => h.step a hc.1 hc.2) hinit.earlyInv).completes

theorem reclaim_completes_sample :
    (Run.exec CrashState.step sampleCrashStart (sampleCrash.take 6)).Completes :=
  reclaim_completes sampleCrashStart_initial (by decide +kernel)

/-- **Failing input**: a producer dies behind its head exchange, before its
first header. The reclaim frees nothing, and the tail stays inside its
reservation. -/
theorem reclaim_stuck :
    ∃ s, s = Run.exec CrashState.step sampleCrashStart [.reserve ⟨1, 1⟩ 1 0 0 2, .die ⟨1, 1⟩] ∧
      Initial sampleCrashStart ∧ ¬ s.Completes := by
  refine ⟨_, rfl, sampleCrashStart_initial, fun h => ?_⟩
  obtain ⟨freed, w, hw, hpos, -⟩ := h ⟨0, 2, 0⟩ (by decide +kernel) (by decide +kernel)
    (by decide +kernel) (by decide +kernel)
  have hnone : Effect.outcome (Run.exec CrashState.step sampleCrashStart
      [.reserve ⟨1, 1⟩ 1 0 0 2, .die ⟨1, 1⟩]).reclaimCall = .ok 0 := by
    decide +kernel
  rw [hw, Effect.outcome_ok] at hnone
  cases hnone
  omega

end Dsline
