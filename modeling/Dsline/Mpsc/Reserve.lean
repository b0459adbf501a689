import Dsline.Library.Run
import Dsline.Library.Window
import Dsline.Shm.Channel
/-!
# Reserving slots

`reserve_slots` of any number of producers, one atomic access at a time:
three loads of the shared words, the guard, and one exchange of the head.
The tail may be advanced and the floor set by anyone between any two
accesses. What the winners take tiles the cursors up to the head, and never
reaches a lap past the tail.
-/

namespace Dsline

open PersistentShmChannel

/-- Where a producer stands in `reserve_slots`. -/
inductive ReservePhase where
  | idle
  /-- At the top of the loop. -/
  | looping (neededSlots : ℕ)
  | headLoaded (neededSlots head : ℕ)
  | tailLoaded (neededSlots head tail : ℕ)
  /-- `refresh_cursors` is done: the guard and the exchange come next. -/
  | refreshed (neededSlots : ℕ)
  /-- The guard said no: the backpressure mode decides what comes next. -/
  | refused (neededSlots : ℕ)
  deriving DecidableEq, Repr

structure Producer where
  chan : PersistentShmChannel
  phase : ReservePhase
  deriving DecidableEq, Repr

/-- What a successful `reserve_slots` returned: the range, and where the
shared tail was when its exchange succeeded. -/
structure Reservation where
  start : ℕ
  neededSlots : ℕ
  tail : ℕ
  deriving DecidableEq, Repr

namespace Reservation

/-- The cursor behind the range. -/
def stop (r : Reservation) : ℕ := r.start + r.neededSlots

/-- The cursors of the range. -/
def Covers (r : Reservation) (cursor : ℕ) : Prop := r.start ≤ cursor ∧ cursor < r.stop

instance (r : Reservation) (cursor : ℕ) : Decidable (r.Covers cursor) :=
  inferInstanceAs (Decidable (_ ∧ _))

end Reservation

/-- The shared words, the producers, and what was reserved, oldest first. -/
structure ReserveState where
  head : ℕ
  tail : ℕ
  pinFloor : ℕ
  producers : ℕ → Producer
  reserved : List Reservation

/-- One atomic step. -/
inductive ReserveStep where
  /-- `reserve_slots` is called. -/
  | call (p neededSlots : ℕ)
  /-- The next load of `refresh_cursors`. -/
  | load (p : ℕ)
  /-- The guard, and the exchange where it lets the producer go on. -/
  | attempt (p : ℕ)
  /-- A refused producer waited, or dropped, and tries again. -/
  | retry (p : ℕ)
  /-- A refused producer, or one whose refresh failed, returns. -/
  | giveUp (p : ℕ)
  /-- `fetch_max_tail` of anyone. -/
  | fetchMaxTail (cursor : ℕ)
  /-- `compare_exchange_tail` of anyone: a drop or a reclaim of `count` slots. -/
  | exchangeTail (expected count : ℕ)
  /-- A store to the floor, by a view or by its release. -/
  | setFloor (cursor : ℕ)
  deriving DecidableEq, Repr

namespace ReserveState

/-- Put a producer. -/
def put (s : ReserveState) (p : ℕ) (producer : Producer) : ReserveState :=
  { s with producers := fun i => if i = p then producer else s.producers i }

/-- Move a producer on. -/
def goTo (s : ReserveState) (p : ℕ) (phase : ReservePhase) : ReserveState :=
  s.put p { s.producers p with phase }

/-- `reserve_slots`, its first check. -/
def call (s : ReserveState) (p neededSlots : ℕ) : ReserveState :=
  match (s.producers p).phase with
  | .idle =>
      if (s.producers p).chan.config.capacity < neededSlots then s
      else s.goTo p (.looping neededSlots)
  | _ => s

/-- `refresh_cursors`: head, tail, floor, in this order; the mirrors are set
with the last. Cursors that are inconsistent end the call. -/
def load (s : ReserveState) (p : ℕ) : ReserveState :=
  let producer := s.producers p
  match producer.phase with
  | .looping neededSlots => s.goTo p (.headLoaded neededSlots s.head)
  | .headLoaded neededSlots head => s.goTo p (.tailLoaded neededSlots head s.tail)
  | .tailLoaded neededSlots head tail =>
      let chan := producer.chan.withCursors head tail s.pinFloor
      match cursorLen chan.config.capacity head tail with
      | none => s.put p { chan, phase := .idle }
      | some depth =>
          s.put p {
            chan := { chan with len := min (depth + chan.recoveryBias) chan.config.capacity }
            phase := .refreshed neededSlots }
  | _ => s

/-- The guard and the exchange of the head. -/
def attempt (s : ReserveState) (p : ℕ) : ReserveState :=
  let producer := s.producers p
  match producer.phase with
  | .refreshed neededSlots =>
      if producer.chan.admits neededSlots then
        -- `compare_exchange_head(head_c, head_c + needed)`
        if s.head = producer.chan.headCursor then
          { s.goTo p .idle with
            head := wrappingAdd producer.chan.headCursor neededSlots
            reserved := s.reserved ++ [⟨producer.chan.headCursor, neededSlots, s.tail⟩] }
        else s.goTo p (.looping neededSlots)
      else s.goTo p (.refused neededSlots)
  | _ => s

def retry (s : ReserveState) (p : ℕ) : ReserveState :=
  match (s.producers p).phase with
  | .refused neededSlots => s.goTo p (.looping neededSlots)
  | _ => s

def giveUp (s : ReserveState) (p : ℕ) : ReserveState :=
  match (s.producers p).phase with
  | .refused _ => s.goTo p .idle
  | _ => s

/-- One step. A step that is not enabled does nothing. -/
def step (s : ReserveState) : ReserveStep → ReserveState
  | .call p neededSlots => s.call p neededSlots
  | .load p => s.load p
  | .attempt p => s.attempt p
  | .retry p => s.retry p
  | .giveUp p => s.giveUp p
  | .fetchMaxTail cursor => { s with tail := max s.tail cursor }
  | .exchangeTail expected count =>
      if s.tail = expected then { s with tail := expected + count } else s
  | .setFloor cursor => { s with pinFloor := cursor }

/-- A created region of `capacity` slots, and handles on it. -/
structure Initial (capacity : ℕ) (s : ReserveState) : Prop where
  head : s.head = 0
  tail : s.tail = 0
  reserved : s.reserved = []
  idle : ∀ p, (s.producers p).phase = .idle
  config : ∀ p, (s.producers p).chan.config.capacity = capacity

/-- The slots a producer at the exchange is after. -/
def wanted : ReservePhase → ℕ
  | .refreshed neededSlots => neededSlots
  | _ => 0

/-- Fewer than `2^64` slots are taken. -/
def Counted (s : ReserveState) : ReserveStep → Prop
  | .attempt p => s.head + wanted (s.producers p).phase < wordCount
  | _ => True

instance (s : ReserveState) : (a : ReserveStep) → Decidable (s.Counted a)
  | .attempt _ => inferInstanceAs (Decidable (_ < _))
  | .call _ _ | .load _ | .retry _ | .giveUp _ | .fetchMaxTail _ | .exchangeTail _ _ |
    .setFloor _ => isTrue trivial

/-! ## The invariant -/

/-- The ranges lie one behind the other, from `first` up to `last`. -/
def Tiles : ℕ → List Reservation → ℕ → Prop
  | first, [], last => first = last
  | first, r :: rest, last => r.start = first ∧ Tiles r.stop rest last

/-- What a producer has loaded was there: the words only grow. -/
def Loaded (s : ReserveState) (producer : Producer) : Prop :=
  match producer.phase with
  | .headLoaded _ head => head ≤ s.head
  | .tailLoaded _ head tail => head ≤ s.head ∧ tail ≤ s.tail
  | .refreshed _ => producer.chan.headCursor ≤ s.head ∧ producer.chan.tailCursor ≤ s.tail
  | _ => True

structure Inv (capacity : ℕ) (s : ReserveState) : Prop where
  tiles : Tiles 0 s.reserved s.head
  window : s.head ≤ s.tail + capacity
  room : ∀ r ∈ s.reserved, r.stop ≤ r.tail + capacity
  loaded : ∀ p, s.Loaded (s.producers p)
  config : ∀ p, (s.producers p).chan.config.capacity = capacity

variable {capacity : ℕ} {s : ReserveState} {p : ℕ}

theorem tiles_append {first last : ℕ} {rs : List Reservation} {r : Reservation}
    (h : Tiles first rs last) (hr : r.start = last) : Tiles first (rs ++ [r]) r.stop := by
  induction rs generalizing first with
  | nil =>
      obtain rfl : first = last := h
      exact ⟨hr, rfl⟩
  | cons x rs ih => exact ⟨h.1, ih h.2⟩

/-- A load that was right stays right while the words grow. -/
theorem Loaded.mono {s' : ReserveState} {producer : Producer} (h : s.Loaded producer)
    (hhead : s.head ≤ s'.head) (htail : s.tail ≤ s'.tail) : s'.Loaded producer := by
  unfold Loaded at h ⊢
  split at h
  · omega
  · omega
  · omega
  · trivial

/-- **What the guard lets go on fits the lap behind the tail it saw.** A
tail ahead of a stale head only makes the guard count less than there is
room for. -/
theorem room_of_admits {chan : PersistentShmChannel} {needed : ℕ} (h : chan.admits needed)
    (hneeded : 0 < needed) :
    chan.headCursor + needed ≤ chan.tailCursor + chan.config.capacity := by
  unfold PersistentShmChannel.admits PersistentShmChannel.guardLen at h
  simp only at h
  split at h
  · omega
  · omega

/-- Moving a producer on keeps the invariant where what it has loaded is
there. -/
theorem Inv.put (h : Inv capacity s) {producer : Producer} (hloaded : s.Loaded producer)
    (hconfig : producer.chan.config.capacity = capacity) : Inv capacity (s.put p producer) where
  tiles := h.tiles
  window := h.window
  room := h.room
  loaded i := by
    show s.Loaded (if i = p then producer else s.producers i)
    split
    · exact hloaded
    · exact h.loaded i
  config i := by
    show (if i = p then producer else s.producers i).chan.config.capacity = capacity
    split
    · exact hconfig
    · exact h.config i

theorem Inv.goTo (h : Inv capacity s) {phase : ReservePhase}
    (hloaded : s.Loaded { s.producers p with phase }) : Inv capacity (s.goTo p phase) :=
  h.put hloaded (h.config p)

theorem Inv.call (h : Inv capacity s) (needed : ℕ) : Inv capacity (s.call p needed) := by
  unfold ReserveState.call
  split
  · split
    · exact h
    · exact h.goTo trivial
  · exact h

theorem Inv.load (h : Inv capacity s) : Inv capacity (s.load p) := by
  have hp := h.loaded p
  unfold ReserveState.load
  unfold Loaded at hp
  simp only
  split
  · exact h.goTo (Nat.le_refl _)
  · rename_i hphase
    rw [hphase] at hp
    exact h.goTo ⟨hp, Nat.le_refl _⟩
  · rename_i hphase
    rw [hphase] at hp
    split
    · exact h.put trivial (h.config p)
    · exact h.put hp (h.config p)
  · exact h

/-- **A producer that wins takes the next range.** -/
theorem Inv.attempt (h : Inv capacity s) (hword : s.Counted (.attempt p)) :
    Inv capacity (s.attempt p) := by
  have hp := h.loaded p
  have hconfig := h.config p
  unfold ReserveState.attempt
  unfold Loaded at hp
  replace hword : s.head + wanted (s.producers p).phase < wordCount := hword
  simp only
  split
  · rename_i needed hphase
    rw [hphase] at hp hword
    simp only [wanted] at hword
    split
    · rename_i hadm
      split
      · rename_i hwon
        have hsum : wrappingAdd (s.producers p).chan.headCursor needed =
            (s.producers p).chan.headCursor + needed := wrappingAdd_of_lt (by omega)
        -- The guard was computed from an older tail; the tail only grew.
        have hroom : s.head + needed ≤ s.tail + capacity := by
          rcases Nat.eq_zero_or_pos needed with hz | hpos
          · have := h.window
            omega
          · have := room_of_admits hadm hpos
            omega
        have hmoved : Inv capacity (s.goTo p .idle) := h.goTo trivial
        rw [hsum]
        exact
          { tiles := tiles_append h.tiles hwon.symm
            window := by
              show (s.producers p).chan.headCursor + needed ≤ s.tail + capacity
              omega
            room := by
              intro r hr
              rcases List.mem_append.1 hr with hr | hr
              · exact h.room r hr
              · rw [List.mem_singleton.1 hr]
                show (s.producers p).chan.headCursor + needed ≤ s.tail + capacity
                omega
            loaded := fun i => (hmoved.loaded i).mono
              (by
                show s.head ≤ (s.producers p).chan.headCursor + needed
                omega)
              (Nat.le_refl _)
            config := hmoved.config }
      · exact h.goTo trivial
    · exact h.goTo trivial
  · exact h

/-- **Every step keeps the invariant.** -/
theorem Inv.step (h : Inv capacity s) (a : ReserveStep) (hword : s.Counted a) :
    Inv capacity (s.step a) := by
  have advance (tail : ℕ) (hle : s.tail ≤ tail) : Inv capacity { s with tail } :=
    { tiles := h.tiles
      window := by
        have := h.window
        show s.head ≤ tail + capacity
        omega
      room := h.room
      loaded := fun i => (h.loaded i).mono (Nat.le_refl _) hle
      config := h.config }
  cases a with
  | call p needed => exact h.call needed
  | load p => exact h.load
  | attempt p => exact h.attempt hword
  | retry p =>
      show Inv capacity (s.retry p)
      unfold ReserveState.retry
      split
      · exact h.goTo trivial
      · exact h
  | giveUp p =>
      show Inv capacity (s.giveUp p)
      unfold ReserveState.giveUp
      split
      · exact h.goTo trivial
      · exact h
  | fetchMaxTail cursor => exact advance _ (Nat.le_max_left _ _)
  | exchangeTail expected count =>
      show Inv capacity (if s.tail = expected then { s with tail := expected + count } else s)
      split
      · rename_i hexp
        exact advance _ (by omega)
      · exact h
  | setFloor cursor => exact ⟨h.tiles, h.window, h.room, h.loaded, h.config⟩

theorem Initial.inv (h : Initial capacity s) : Inv capacity s where
  tiles := by
    rw [h.reserved, h.head]
    rfl
  window := by
    rw [h.head]
    exact Nat.zero_le _
  room r hr := by
    rw [h.reserved] at hr
    cases hr
  loaded p := by
    unfold Loaded
    rw [h.idle p]
    trivial
  config := h.config

/-! ## Reservation safety -/

/-- The ranges come one behind the other. -/
theorem Tiles.pairwise {first last : ℕ} {rs : List Reservation} (h : Tiles first rs last) :
    rs.Pairwise (fun r r' => r.stop ≤ r'.start) ∧ (∀ r ∈ rs, first ≤ r.start ∧ r.stop ≤ last) ∧
      first ≤ last := by
  induction rs generalizing first with
  | nil => exact ⟨.nil, fun r hr => (nomatch hr), Nat.le_of_eq h⟩
  | cons r rs ih =>
      obtain ⟨hpair, hbound, hle⟩ := ih h.2
      have hstart := h.1
      have hstop : r.start ≤ r.stop := Nat.le_add_right _ _
      refine ⟨.cons (fun r' hr' => (hbound r' hr').1) hpair, fun r' hr' => ?_, by omega⟩
      rcases List.mem_cons.1 hr' with rfl | hr'
      · exact ⟨Nat.le_of_eq hstart.symm, hle⟩
      · have := hbound r' hr'
        omega

/-- Every cursor of the tiled stretch is covered. -/
theorem Tiles.covered {first last cursor : ℕ} {rs : List Reservation} (h : Tiles first rs last)
    (hlow : first ≤ cursor) (hhigh : cursor < last) : ∃ r ∈ rs, r.Covers cursor := by
  induction rs generalizing first with
  | nil =>
      obtain rfl : first = last := h
      omega
  | cons r rs ih =>
      have hstart := h.1
      rcases Nat.lt_or_ge cursor r.stop with hlt | hge
      · exact ⟨r, List.mem_cons_self, by omega, hlt⟩
      · obtain ⟨r', hr', hc⟩ := ih h.2 hge
        exact ⟨r', List.mem_cons_of_mem r hr', hc⟩

/-- No cursor is covered twice. -/
theorem Tiles.unique {first last cursor : ℕ} {rs : List Reservation} {r r' : Reservation}
    (h : Tiles first rs last) (hr : r ∈ rs) (hr' : r' ∈ rs) (hc : r.Covers cursor)
    (hc' : r'.Covers cursor) : r = r' := by
  induction rs generalizing first with
  | nil => cases hr
  | cons x rs ih =>
      obtain ⟨-, hbound, -⟩ := Tiles.pairwise h.2
      obtain ⟨h1, h2⟩ := hc
      obtain ⟨h3, h4⟩ := hc'
      rcases List.mem_cons.1 hr with rfl | hmem
      · rcases List.mem_cons.1 hr' with rfl | hmem'
        · rfl
        · have := hbound r' hmem'
          omega
      · rcases List.mem_cons.1 hr' with rfl | hmem'
        · have := hbound r hmem
          omega
        · exact ih h.2 hmem hmem'

/-- **Reservation safety.** The ranges are pairwise disjoint and tile the
cursors below the head; each lay within the lap behind the tail when it was
taken; and two of them never name one slot with cursors still outstanding,
those the tail has not passed. -/
structure Safe (capacity : ℕ) (s : ReserveState) : Prop where
  disjoint : s.reserved.Pairwise fun r r' => r.stop ≤ r'.start
  tile : ∀ cursor, cursor < s.head ↔ ∃ r ∈ s.reserved, r.Covers cursor
  room : ∀ r ∈ s.reserved, r.start + r.neededSlots ≤ r.tail + capacity
  distinct : s.reserved.Pairwise fun r r' => ∀ cursor cursor', r.Covers cursor →
    r'.Covers cursor' → s.tail ≤ cursor → s.tail ≤ cursor' →
      cursor % capacity ≠ cursor' % capacity

theorem Inv.safe (h : Inv capacity s) : Safe capacity s := by
  obtain ⟨hpair, hbound, -⟩ := h.tiles.pairwise
  have hwindow := h.window
  refine ⟨hpair, fun cursor => ⟨h.tiles.covered (Nat.zero_le _), ?_⟩, h.room, ?_⟩
  · rintro ⟨r, hr, hc⟩
    exact Nat.lt_of_lt_of_le hc.2 (hbound r hr).2
  · refine List.Pairwise.imp_of_mem (fun {r r'} hr hr' hle cursor cursor' hc hc' ht ht' => ?_) hpair
    have h1 := (hbound r hr).2
    have h2 := (hbound r' hr').2
    obtain ⟨hc1, hc2⟩ := hc
    obtain ⟨hc1', hc2'⟩ := hc'
    exact Window.mod_ne ht (by omega) ht' (by omega) (by omega)

end ReserveState

open ReserveState

/-- **Reservations are safe in every run**, whoever runs when and however
old the words are that a producer works from. -/
theorem reservation_safety {capacity : ℕ} {s : ReserveState} {acts : List ReserveStep}
    (hinit : Initial capacity s) (hword : Run.Meets ReserveState.step Counted s acts) :
    Safe capacity (Run.exec ReserveState.step s acts) :=
  (hword.invariant (Inv capacity) (fun _ a hinv hc => hinv.step a hc) hinit.inv).safe

/-- Two producers on a ring of four slots: the second loses its exchange,
refreshes and takes the slot that is left. -/
def sampleReserve : List ReserveStep :=
  [.call 0 3, .call 1 1, .load 0, .load 1, .load 0, .load 1, .load 0, .load 1, .attempt 0,
    .attempt 1, .load 1, .load 1, .load 1, .attempt 1]

/-- A created multi-producer ring of four slots. -/
def sampleReserveStart : ReserveState where
  head := 0
  tail := 0
  pinFloor := PIN_FLOOR_NONE
  producers _ := ⟨.fresh ⟨⟨7, 1⟩, 1, 0, fun _ => .alive, 0, 0⟩ ⟨4, 1, .raise, none, true⟩, .idle⟩
  reserved := []

theorem reservation_safety_two :
    (Run.exec ReserveState.step sampleReserveStart sampleReserve).reserved =
        [⟨0, 3, 0⟩, ⟨3, 1, 0⟩] ∧
      Safe 4 (Run.exec ReserveState.step sampleReserveStart sampleReserve) :=
  ⟨by decide +kernel, reservation_safety ⟨rfl, rfl, rfl, fun _ => rfl, fun _ => rfl⟩
    (by decide +kernel)⟩

end Dsline
