import Dsline.Mpsc.Reserve
/-!
# Dropping the oldest, by several producers

Any number of `DropOldest` producers on one region: each access of
`reserve_slots`, of the slot writes behind it and of
`drop_oldest_message_mpsc` is a step of its own. A drop looks only at the
slot at the tail, decodes how many slots the message takes, and moves the
tail over them. What it decoded is the message at the tail where its frame was
written for that cursor and its last slot is written by then; it can as well
be the first chunk of a message still being written, or a frame of the last
lap that another drop has yet to free.
-/

namespace Dsline

open PersistentShmChannel ReserveState

/-- A COMMITTED frame: the cursor it was written for, which no one can read,
and what decoding tells. A message of one slot is not chunked. -/
structure SlotFrame where
  cursor : ℕ
  index : ℕ
  total : ℕ
  deriving DecidableEq, Repr

/-- Where a `DropOldest` producer stands. -/
inductive DropPhase where
  | idle
  /-- At the top of the loop of `reserve_slots`. -/
  | reserving (needed : ℕ)
  | headLoaded (needed head : ℕ)
  /-- The guard and the exchange come next. -/
  | refreshed (needed head tail : ℕ)
  | writing (start needed next : ℕ)
  /-- At the top of the loop of the drop. -/
  | dropping (needed : ℕ)
  | dropHeadLoaded (needed head : ℕ)
  /-- The look at the slot at the tail comes next. -/
  | dropRefreshed (needed head tail : ℕ)
  /-- It was not COMMITTED: the second refresh, and the deadline. -/
  | dropBlocked (needed tail : ℕ)
  | dropBlockedHead (needed head tail : ℕ)
  | peeked (needed head tail count : ℕ)
  | releasing (needed head next stop : ℕ)
  deriving DecidableEq, Repr

structure DropState where
  head : ℕ
  tail : ℕ
  /-- The frame of a COMMITTED slot. -/
  slots : ℕ → Option SlotFrame
  producers : ℕ → DropPhase
  /-- The crash leftovers a handle counts. -/
  bias : ℕ → ℕ
  /-- What was reserved and what was dropped, oldest first. -/
  reserved : List Reservation
  drops : List Reservation
  /-- The cursors whose slots their producers have written. -/
  wrote : ℕ → Bool

inductive DropStep where
  | send (p needed : ℕ)
  /-- The next access of a producer. -/
  | advance (p : ℕ)
  /-- The deadline has passed of a write that waits for its slot, or of a drop
  that waits for the tail. -/
  | giveUp (p : ℕ)
  deriving DecidableEq, Repr

namespace DropState

variable (capacity : ℕ)

def goTo (s : DropState) (p : ℕ) (phase : DropPhase) : DropState :=
  { s with producers := fun i => if i = p then phase else s.producers i }

def setSlot (s : DropState) (index : ℕ) (frame : Option SlotFrame) : DropState :=
  { s with slots := fun i => if i = index then frame else s.slots i }

/-- `guard_len` of a handle with these mirrors; nothing is pinned. -/
def guardLen (s : DropState) (p head tail : ℕ) : ℕ := min (head - tail + s.bias p) capacity

/-- Back in the `DropOldest` loop of `reserve_slots`: another drop, or the
next attempt. -/
def afterDrop (s : DropState) (p needed head tail : ℕ) : DropPhase :=
  if capacity - s.guardLen capacity p head tail < needed then .dropping needed
  else .reserving needed

/-- The next access of a producer. -/
def advance (s : DropState) (p : ℕ) : DropState :=
  match s.producers p with
  | .idle => s
  | .reserving needed => s.goTo p (.headLoaded needed s.head)
  | .headLoaded needed head =>
      match cursorLen capacity head s.tail with
      | none => s.goTo p .idle
      | some _ => s.goTo p (.refreshed needed head s.tail)
  | .refreshed needed head tail =>
      if needed ≤ capacity - s.guardLen capacity p head tail then
        if s.head = head then
          { s.goTo p (.writing head needed head) with
            head := wrappingAdd head needed
            reserved := s.reserved ++ [⟨head, needed, s.tail⟩] }
        else s.goTo p (.reserving needed)
      else s.goTo p (.dropping needed)
  | .writing start needed next =>
      -- The slot of the last lap may not be freed yet: the write waits.
      if s.slots (next % capacity) = none then
        { (s.setSlot (next % capacity) (some ⟨next, next - start, needed⟩)).goTo p
            (if next + 1 = start + needed then .idle else .writing start needed (next + 1)) with
          wrote := fun c => if c = next then true else s.wrote c }
      else s
  | .dropping needed => s.goTo p (.dropHeadLoaded needed s.head)
  | .dropHeadLoaded needed head =>
      match cursorLen capacity head s.tail with
      | none => s.goTo p .idle
      | some depth =>
          if min (depth + s.bias p) capacity = 0 then
            s.goTo p (s.afterDrop capacity p needed head s.tail)
          else s.goTo p (.dropRefreshed needed head s.tail)
  | .dropRefreshed needed head tail =>
      match s.slots (tail % capacity) with
      | none => s.goTo p (.dropBlocked needed tail)
      | some frame =>
          -- `corrupted message`: the send fails.
          if 1 < frame.total ∧ frame.index ≠ 0 then s.goTo p .idle
          else s.goTo p (.peeked needed head tail frame.total)
  | .dropBlocked needed tail => s.goTo p (.dropBlockedHead needed s.head tail)
  | .dropBlockedHead needed head _ =>
      match cursorLen capacity head s.tail with
      | none => s.goTo p .idle
      | some _ => s.goTo p (.dropping needed)
  | .peeked needed head tail count =>
      if s.tail = tail then
        { s.goTo p (.releasing needed head tail (tail + count)) with
          tail := wrappingAdd tail count
          drops := s.drops ++ [⟨tail, count, tail⟩] }
      else s.goTo p (s.afterDrop capacity p needed head tail)
  | .releasing needed head next stop =>
      (s.setSlot (next % capacity) none).goTo p
        (if next + 1 = stop then s.afterDrop capacity p needed head stop
        else .releasing needed head (next + 1) stop)

def step (s : DropState) : DropStep → DropState
  | .send p needed =>
      match s.producers p with
      | .idle => if 0 < needed ∧ needed ≤ capacity then s.goTo p (.reserving needed) else s
      | _ => s
  | .advance p => s.advance capacity p
  | .giveUp p =>
      match s.producers p with
      | .writing _ _ _ => s.goTo p .idle
      | .dropBlockedHead needed head tail =>
          -- The drop fails where its second refresh finds the tail unchanged.
          match cursorLen capacity head s.tail with
          | none => s.goTo p .idle
          | some _ => s.goTo p (if s.tail = tail then .idle else .dropping needed)
      | _ => s

/-- A created region, and handles on it. -/
def created (bias : ℕ → ℕ) : DropState where
  head := 0
  tail := 0
  slots _ := none
  producers _ := .idle
  bias
  reserved := []
  drops := []
  wrote _ := false

/-- **The look of a drop is right**: what it finds COMMITTED at the tail was
written for that cursor, and the last slot of its message is written. -/
def LooksRight (s : DropState) (tail : ℕ) : Prop :=
  s.tail = tail → ∀ frame ∈ s.slots (tail % capacity),
    frame.cursor = tail ∧ s.wrote (frame.cursor + (frame.total - frame.index) - 1) = true

/-- A drop looks right, and the head stays below `2 ^ 64`. -/
def CarefulAt (s : DropState) : DropPhase → Prop
  | .dropRefreshed _ _ tail => s.LooksRight capacity tail
  | .refreshed needed head _ => head + needed < wordCount
  | _ => True

def Careful (s : DropState) : DropStep → Prop
  | .advance p => s.CarefulAt capacity (s.producers p)
  | _ => True

instance (s : DropState) (tail : ℕ) : Decidable (s.LooksRight capacity tail) :=
  inferInstanceAs (Decidable (_ → _))

instance (s : DropState) : (phase : DropPhase) → Decidable (s.CarefulAt capacity phase)
  | .dropRefreshed _ _ tail => inferInstanceAs (Decidable (s.LooksRight capacity tail))
  | .refreshed _ _ _ => inferInstanceAs (Decidable (_ < _))
  | .idle | .reserving _ | .headLoaded _ _ | .writing _ _ _ | .dropping _ | .dropHeadLoaded _ _ |
    .dropBlocked _ _ | .dropBlockedHead _ _ _ | .peeked _ _ _ _ | .releasing _ _ _ _ =>
      isTrue trivial

instance (s : DropState) : (a : DropStep) → Decidable (s.Careful capacity a)
  | .advance _ => inferInstanceAs (Decidable (s.CarefulAt capacity _))
  | .send _ _ | .giveUp _ => isTrue trivial

/-- **Drops discard whole committed messages, each once.** Every drop took
exactly the range of one reservation, all of it written by its own producer;
no two of them overlap; the tail is not past the head; and with every
operation finished no slot is COMMITTED but those of `[tail, head)`. -/
structure Sound (s : DropState) : Prop where
  whole : ∀ d ∈ s.drops, ∃ r ∈ s.reserved, r.start = d.start ∧ r.neededSlots = d.neededSlots ∧
    ∀ c, r.Covers c → s.wrote c = true
  once : s.drops.Pairwise fun d d' => d.stop ≤ d'.start
  window : s.tail ≤ s.head
  quiet : (∀ p, s.producers p = .idle) → ∀ i frame, s.slots i = some frame →
    i = frame.cursor % capacity ∧ s.tail ≤ frame.cursor ∧ frame.cursor < s.head

/-! ## The invariant -/

/-- What a phase knows of the shared words, which only grow. -/
def Knows (s : DropState) : DropPhase → Prop
  | .headLoaded _ head | .dropHeadLoaded _ head => head ≤ s.head
  | .refreshed _ head tail => head ≤ s.head ∧ tail ≤ s.tail
  | .dropRefreshed _ _ tail => tail ≤ s.tail
  | .writing start needed next =>
      start ≤ next ∧ next < start + needed ∧
        (∃ r ∈ s.reserved, r.start = start ∧ r.neededSlots = needed) ∧
        (∀ c, next ≤ c → c < start + needed → s.wrote c = false) ∧
        ∀ c, start ≤ c → c < next → s.wrote c = true
  | .peeked _ _ tail count =>
      tail ≤ s.tail ∧ (s.tail = tail → ∃ r ∈ s.reserved, r.start = tail ∧ r.neededSlots = count ∧
        ∀ c, r.Covers c → s.wrote c = true)
  | .releasing _ _ next stop =>
      next < stop ∧ stop ≤ s.tail ∧ ∀ c, next ≤ c → c < stop →
        ∃ frame, s.slots (c % capacity) = some frame ∧ frame.cursor = c
  | .idle | .reserving _ | .dropping _ | .dropBlocked _ _ | .dropBlockedHead _ _ _ => True

/-- The cursors a phase has to itself: those still to be written, or to be
freed. -/
def Owns : DropPhase → ℕ → Prop
  | .writing start needed next, c => next ≤ c ∧ c < start + needed
  | .releasing _ _ next stop, c => next ≤ c ∧ c < stop
  | _, _ => False

/-- The slots a phase is after. -/
def asked : DropPhase → ℕ
  | .idle => 1
  | .reserving needed | .headLoaded needed _ | .refreshed needed _ _ | .writing _ needed _ |
    .dropping needed | .dropHeadLoaded needed _ | .dropRefreshed needed _ _ |
    .dropBlocked needed _ | .dropBlockedHead needed _ _ | .peeked needed _ _ _ |
    .releasing needed _ _ _ => needed

/-- A phase is about to free the slot of this cursor. -/
def Frees : DropPhase → ℕ → Prop
  | .releasing _ _ next stop, c => next ≤ c ∧ c < stop
  | _, _ => False

structure Inv (s : DropState) : Prop where
  tiles : Tiles 0 s.reserved s.head
  nonempty : ∀ r ∈ s.reserved, 0 < r.neededSlots
  lap : s.head ≤ s.tail + capacity
  window : s.tail ≤ s.head
  word : s.head < wordCount
  /-- The tail is between two reservations. -/
  aligned : ∀ r ∈ s.reserved, r.stop ≤ s.tail ∨ s.tail ≤ r.start
  /-- A message is written slot after slot. -/
  ordered : ∀ r ∈ s.reserved, ∀ c, r.Covers c → s.wrote c = true →
    ∀ c', r.start ≤ c' → c' ≤ c → s.wrote c' = true
  asks : ∀ p, 0 < asked (s.producers p)
  knows : ∀ p, s.Knows capacity (s.producers p)
  owns : ∀ p q, p ≠ q → ∀ c, Owns (s.producers p) c → ¬ Owns (s.producers q) c
  taken : ∀ c, s.wrote c = true → c < s.head
  passed : ∀ c, c < s.tail → s.wrote c = true
  frames : ∀ i frame, s.slots i = some frame → i = frame.cursor % capacity ∧
    s.wrote frame.cursor = true ∧ ∃ r ∈ s.reserved, r.Covers frame.cursor ∧
      frame.cursor = r.start + frame.index ∧ frame.total = r.neededSlots
  held : ∀ c, s.tail ≤ c → s.wrote c = true →
    ∃ frame, s.slots (c % capacity) = some frame ∧ frame.cursor = c
  stale : ∀ i frame, s.slots i = some frame → frame.cursor < s.tail →
    ∃ p, Frees (s.producers p) frame.cursor
  whole : ∀ d ∈ s.drops, ∃ r ∈ s.reserved, r.start = d.start ∧ r.neededSlots = d.neededSlots ∧
    ∀ c, r.Covers c → s.wrote c = true
  behind : ∀ d ∈ s.drops, d.stop ≤ s.tail
  once : s.drops.Pairwise fun d d' => d.stop ≤ d'.start

variable {capacity : ℕ} {s s' : DropState} {p : ℕ} {phase : DropPhase}

theorem Inv.sound (h : Inv capacity s) : Sound capacity s where
  whole := h.whole
  once := h.once
  window := h.window
  quiet hidle i frame hi := by
    obtain ⟨hmod, hwrote, -⟩ := h.frames i frame hi
    refine ⟨hmod, ?_, h.taken _ hwrote⟩
    by_contra hlt
    obtain ⟨q, hq⟩ := h.stale i frame hi (by omega)
    rw [hidle q] at hq
    exact hq

/-! ### What outlives every step -/

/-- The words grow, and reservations and writes stay. -/
structure Grows (s s' : DropState) : Prop where
  head : s.head ≤ s'.head
  tail : s.tail ≤ s'.tail
  reserved : ∀ r ∈ s.reserved, r ∈ s'.reserved
  wrote : ∀ c, s.wrote c = true → s'.wrote c = true

/-- What a phase knows outlives a step of another producer: one that writes
no cursor of its own and frees no slot of its own. -/
theorem Knows.grow (h : s.Knows capacity phase) (hg : Grows s s')
    (hwrote : ∀ c, Owns phase c → s'.wrote c = s.wrote c)
    (hslots : ∀ c, Frees phase c → s'.slots (c % capacity) = s.slots (c % capacity)) :
    s'.Knows capacity phase := by
  have hhead := hg.head
  have htail := hg.tail
  cases phase with
  | idle | reserving | dropping | dropBlocked | dropBlockedHead => trivial
  | headLoaded needed head => exact Nat.le_trans h hhead
  | dropHeadLoaded needed head => exact Nat.le_trans h hhead
  | refreshed needed head tail => exact ⟨Nat.le_trans h.1 hhead, Nat.le_trans h.2 htail⟩
  | dropRefreshed needed head tail => exact Nat.le_trans h htail
  | writing start needed next =>
      obtain ⟨h1, h2, ⟨r, hr, hrs⟩, h4, h5⟩ := h
      refine ⟨h1, h2, ⟨r, hg.reserved r hr, hrs⟩, fun c hc hc' => ?_, fun c hc hc' =>
        hg.wrote c (h5 c hc hc')⟩
      rw [hwrote c ⟨hc, hc'⟩]
      exact h4 c hc hc'
  | peeked needed head tail count =>
      obtain ⟨h1, h2⟩ := h
      refine ⟨Nat.le_trans h1 htail, fun he => ?_⟩
      obtain ⟨r, hr, hrs, hrn, hw⟩ := h2 (by omega)
      exact ⟨r, hg.reserved r hr, hrs, hrn, fun c hc => hg.wrote c (hw c hc)⟩
  | releasing needed head next stop =>
      obtain ⟨h1, h2, h3⟩ := h
      refine ⟨h1, Nat.le_trans h2 htail, fun c hc hc' => ?_⟩
      rw [hslots c ⟨hc, hc'⟩]
      exact h3 c hc hc'

/-- Who asks for slots asks for some, whoever moves on. -/
theorem Inv.asks_goTo (h : Inv capacity s) (hasks : 0 < asked phase) (q : ℕ) :
    0 < asked ((s.goTo p phase).producers q) := by
  show 0 < asked (if q = p then phase else s.producers q)
  split
  · exact hasks
  · exact h.asks q

/-- A slot that someone is about to free is one after a producer moves on,
where that one still frees it. -/
theorem frees_goTo {c : ℕ} (h : ∃ q, Frees (s.producers q) c)
    (hfrees : Frees (s.producers p) c → Frees phase c) :
    ∃ q, Frees ((s.goTo p phase).producers q) c := by
  obtain ⟨q, hq⟩ := h
  refine ⟨q, ?_⟩
  show Frees (if q = p then phase else s.producers q) c
  split
  next he => exact hfrees (he ▸ hq)
  next => exact hq

/-- A producer moves on to a phase that owns nothing it did not own, and
frees what it freed. -/
theorem Inv.goTo (h : Inv capacity s) (hasks : 0 < asked phase)
    (hknows : s.Knows capacity phase)
    (howns : ∀ c, Owns phase c → Owns (s.producers p) c)
    (hfrees : ∀ c, Frees (s.producers p) c → Frees phase c) : Inv capacity (s.goTo p phase) where
  tiles := h.tiles
  nonempty := h.nonempty
  lap := h.lap
  window := h.window
  word := h.word
  aligned := h.aligned
  ordered := h.ordered
  asks := h.asks_goTo hasks
  knows q := by
    show s.Knows capacity (if q = p then phase else s.producers q)
    split
    · exact hknows
    · exact h.knows q
  owns q q' hne c hc hc' := by
    have hsub (q : ℕ) (hq : Owns (if q = p then phase else s.producers q) c) :
        Owns (s.producers q) c := by
      split at hq
      next he => exact he ▸ howns c hq
      next => exact hq
    exact h.owns q q' hne c (hsub q hc) (hsub q' hc')
  taken := h.taken
  passed := h.passed
  frames := h.frames
  held := h.held
  stale i frame hi hlt := frees_goTo (h.stale i frame hi hlt) (hfrees _)
  whole := h.whole
  behind := h.behind
  once := h.once

/-- A producer moves on to a phase that owns nothing. -/
theorem Inv.goTo_free (h : Inv capacity s) (hasks : 0 < asked phase)
    (hknows : s.Knows capacity phase) (hnone : ∀ c, ¬ Owns phase c)
    (hfree : ∀ c, ¬ Frees (s.producers p) c) : Inv capacity (s.goTo p phase) :=
  h.goTo hasks hknows (fun c hc => (hnone c hc).elim) fun c hc => (hfree c hc).elim

/-- The phase behind a drop owns nothing and knows nothing. -/
theorem afterDrop_free (capacity : ℕ) (s s' : DropState) (p needed head tail : ℕ) :
    asked (s.afterDrop capacity p needed head tail) = needed ∧
      s'.Knows capacity (s.afterDrop capacity p needed head tail) ∧
      (∀ c, ¬ Owns (s.afterDrop capacity p needed head tail) c) ∧
      ∀ c, ¬ Frees (s.afterDrop capacity p needed head tail) c := by
  unfold afterDrop
  split <;> exact ⟨rfl, trivial, fun _ => id, fun _ => id⟩

/-! ### The four exchanges and writes -/

/-- What the guard lets go on fits the lap behind the tail it saw. -/
theorem room_of_guard {needed head tail : ℕ} (hneeded : 0 < needed)
    (h : needed ≤ capacity - s.guardLen capacity p head tail) :
    head + needed ≤ tail + capacity := by
  unfold guardLen at h
  omega

/-- What another producer knows outlives a step. -/
theorem Inv.knows_other (h : Inv capacity s) (hg : Grows s s') {q : ℕ}
    (hsame : s'.producers q = s.producers q)
    (hwrote : ∀ c, Owns (s.producers q) c → s'.wrote c = s.wrote c)
    (hslots : ∀ c, Frees (s.producers q) c → s'.slots (c % capacity) = s.slots (c % capacity)) :
    s'.Knows capacity (s'.producers q) := by
  rw [hsame]
  exact (h.knows q).grow hg hwrote hslots

/-- What is owned stays apart where the new phase keeps apart from the
others. -/
theorem Inv.owns_goTo (h : Inv capacity s) (phase : DropPhase)
    (hnew : ∀ q, q ≠ p → ∀ c, Owns phase c → ¬ Owns (s.producers q) c) (q q' : ℕ) (hne : q ≠ q')
    (c : ℕ) (hc : Owns ((s.goTo p phase).producers q) c) :
    ¬ Owns ((s.goTo p phase).producers q') c := by
  intro hc'
  change Owns (if q = p then phase else s.producers q) c at hc
  change Owns (if q' = p then phase else s.producers q') c at hc'
  split at hc
  next he =>
    rw [if_neg (fun he' => hne (he.trans he'.symm))] at hc'
    exact hnew q' (fun he' => hne (he.trans he'.symm)) c hc hc'
  next hqp =>
    split at hc'
    next => exact hnew q hqp c hc' hc
    next => exact h.owns q q' hne c hc hc'

/-- What a producer has to itself was reserved. -/
theorem Inv.lt_head_of_owns (h : Inv capacity s) {q c : ℕ} (hc : Owns (s.producers q) c) :
    c < s.head := by
  have hk := h.knows q
  have hwindow := h.window
  revert hc hk
  cases s.producers q with
  | writing start need next =>
      rintro ⟨-, hc⟩ ⟨-, -, ⟨r, hr, rfl, rfl⟩, -⟩
      exact Nat.lt_of_lt_of_le hc (h.tiles.pairwise.2.1 r hr).2
  | releasing need head next stop =>
      rintro ⟨-, hc⟩ ⟨-, hle, -⟩
      omega
  | idle | reserving | headLoaded | refreshed | dropping | dropHeadLoaded | dropRefreshed |
    dropBlocked | dropBlockedHead | peeked => exact fun hc => hc.elim

/-- What is written and not dropped no producer has to itself. -/
theorem Inv.not_owns_of_wrote (h : Inv capacity s) {q c : ℕ} (htail : s.tail ≤ c)
    (hwrote : s.wrote c = true) : ¬ Owns (s.producers q) c := by
  have hk := h.knows q
  revert hk
  cases s.producers q with
  | writing start need next =>
      rintro ⟨-, -, -, hpending, -⟩ ⟨hc, hc'⟩
      rw [hpending c hc hc'] at hwrote
      cases hwrote
  | releasing need head next stop =>
      rintro ⟨-, hle, -⟩ ⟨-, hc⟩
      omega
  | idle | reserving | headLoaded | refreshed | dropping | dropHeadLoaded | dropRefreshed |
    dropBlocked | dropBlockedHead | peeked => exact fun _ hc => hc.elim

/-- **A reservation.** Its cursors are new: no one has written them. -/
theorem Inv.reserve (h : Inv capacity s) {needed tail : ℕ}
    (hphase : s.producers p = .refreshed needed s.head tail)
    (hguard : needed ≤ capacity - s.guardLen capacity p s.head tail)
    (hword : s.head + needed < wordCount) :
    Inv capacity
      { s.goTo p (.writing s.head needed s.head) with
        head := s.head + needed
        reserved := s.reserved ++ [⟨s.head, needed, s.tail⟩] } := by
  have hpos : 0 < needed := by
    have := h.asks p
    rwa [hphase] at this
  have htail : tail ≤ s.tail := by
    have hk := h.knows p
    rw [hphase] at hk
    exact hk.2
  have hroom := room_of_guard hpos hguard
  have hlap := h.lap
  have hwindow := h.window
  have hnew (c : ℕ) (hc : s.head ≤ c) : s.wrote c = false := by
    rw [← Bool.not_eq_true]
    intro hw
    have := h.taken c hw
    omega
  have hkeep {P : Reservation → Prop} (hex : ∃ r ∈ s.reserved, P r) :
      ∃ r ∈ s.reserved ++ [⟨s.head, needed, s.tail⟩], P r := by
    obtain ⟨r, hr, hp⟩ := hex
    exact ⟨r, List.mem_append_left _ hr, hp⟩
  have hgrow : Grows s
      { s.goTo p (.writing s.head needed s.head) with
        head := s.head + needed
        reserved := s.reserved ++ [⟨s.head, needed, s.tail⟩] } :=
    ⟨Nat.le_add_right _ _, Nat.le_refl _, fun r hr => List.mem_append_left _ hr, fun _ hw => hw⟩
  exact
    { tiles := tiles_append h.tiles rfl
      nonempty := by
        intro r hr
        rcases List.mem_append.1 hr with hr | hr
        · exact h.nonempty r hr
        · rw [List.mem_singleton.1 hr]
          exact hpos
      lap := by
        show s.head + needed ≤ s.tail + capacity
        omega
      window := by
        show s.tail ≤ s.head + needed
        omega
      word := hword
      aligned := fun r hr => by
        rcases List.mem_append.1 hr with hr | hr
        · exact h.aligned r hr
        · rw [List.mem_singleton.1 hr]
          exact .inr hwindow
      ordered := fun r hr c hc hw => by
        rcases List.mem_append.1 hr with hr | hr
        · exact h.ordered r hr c hc hw
        · rw [List.mem_singleton.1 hr] at hc
          exact absurd ((hnew c hc.1).symm.trans hw) Bool.false_ne_true
      asks := h.asks_goTo hpos
      knows := fun q => by
        by_cases hqp : q = p
        · rw [hqp]
          show DropState.Knows capacity _ (if p = p then _ else s.producers p)
          rw [if_pos rfl]
          exact ⟨Nat.le_refl _, by omega, ⟨_, List.mem_append_right _ (List.mem_singleton.2 rfl),
            rfl, rfl⟩, fun c hc _ => hnew c hc, fun c hc hc' => absurd hc' (Nat.not_lt.2 hc)⟩
        · exact h.knows_other hgrow (if_neg hqp) (fun _ _ => rfl) fun _ _ => rfl
      owns := h.owns_goTo _ fun q _ c hc hq =>
        absurd (h.lt_head_of_owns hq) (Nat.not_lt.2 hc.1)
      taken := fun c hc => Nat.lt_of_lt_of_le (h.taken c hc) (Nat.le_add_right _ _)
      passed := h.passed
      frames := fun i frame hi => by
        obtain ⟨hmod, hw, hr⟩ := h.frames i frame hi
        exact ⟨hmod, hw, hkeep hr⟩
      held := h.held
      stale := fun i frame hi hlt => frees_goTo (h.stale i frame hi hlt) fun hq => by
        rw [hphase] at hq
        exact hq.elim
      whole := fun d hd => hkeep (h.whole d hd)
      behind := h.behind
      once := h.once }

section Write

variable {start needed next c i : ℕ} {frame : SlotFrame}

/-- The state behind a write. -/
def written (capacity : ℕ) (s : DropState) (p start needed next : ℕ) : DropState :=
  { (s.setSlot (next % capacity) (some ⟨next, next - start, needed⟩)).goTo p
      (if next + 1 = start + needed then .idle else .writing start needed (next + 1)) with
    wrote := fun c => if c = next then true else s.wrote c }

theorem written_wrote : (s.written capacity p start needed next).wrote c = true ↔
    c = next ∨ s.wrote c = true := by
  show (if c = next then true else s.wrote c) = true ↔ _
  split <;> simp [*]

theorem written_wrote_ne (h : c ≠ next) :
    (s.written capacity p start needed next).wrote c = s.wrote c := if_neg h

theorem written_grows : Grows s (s.written capacity p start needed next) :=
  ⟨Nat.le_refl _, Nat.le_refl _, fun _ hr => hr, fun _ hw => written_wrote.2 (.inr hw)⟩

/-- The slot was FREE, so it held no frame of the last lap. -/
theorem written_slots (hfree : s.slots (next % capacity) = none) (hi : s.slots i = some frame) :
    (s.written capacity p start needed next).slots i = some frame := by
  refine (if_neg ?_).trans hi
  rintro rfl
  rw [hfree] at hi
  cases hi

/-- What lies in a slot was written now, or lay there before. -/
theorem of_written_slots (hi : (s.written capacity p start needed next).slots i = some frame) :
    (i = next % capacity ∧ frame = ⟨next, next - start, needed⟩) ∨ s.slots i = some frame := by
  change (if i = next % capacity then _ else s.slots i) = some frame at hi
  split at hi
  next he => exact .inl ⟨he, (Option.some.inj hi).symm⟩
  next => exact .inr hi

/-- A producer that writes knows its reservation, and the tail has not
passed what it has yet to write. -/
theorem Inv.writing (h : Inv capacity s) (hphase : s.producers p = .writing start needed next) :
    start ≤ next ∧ next < start + needed ∧ next < s.head ∧ s.tail ≤ next ∧
      ∃ r ∈ s.reserved, r.start = start ∧ r.neededSlots = needed := by
  have hk := h.knows p
  rw [hphase] at hk
  obtain ⟨hle, hlt, ⟨r, hr, rfl, rfl⟩, hpending, -⟩ := hk
  refine ⟨hle, hlt, Nat.lt_of_lt_of_le hlt (h.tiles.pairwise.2.1 r hr).2, ?_, r, hr, rfl, rfl⟩
  by_contra hpassed
  have hnot := hpending next (Nat.le_refl _) hlt
  rw [h.passed next (by omega)] at hnot
  cases hnot

/-- No one else owns the cursor that is written. -/
theorem Inv.write_owns (h : Inv capacity s) (hphase : s.producers p = .writing start needed next)
    {q : ℕ} (hqp : q ≠ p) (hc : Owns (s.producers q) c) : c ≠ next := by
  obtain ⟨-, hlt, -⟩ := h.writing hphase
  rintro rfl
  refine h.owns q p hqp c hc ?_
  rw [hphase]
  exact ⟨Nat.le_refl _, hlt⟩

theorem Inv.write_knows (h : Inv capacity s) (hphase : s.producers p = .writing start needed next)
    (hfree : s.slots (next % capacity) = none) (q : ℕ) :
    (s.written capacity p start needed next).Knows capacity
      ((s.written capacity p start needed next).producers q) := by
  have hk := h.knows p
  rw [hphase] at hk
  obtain ⟨hle, hlt, hr, hpending, hdone⟩ := hk
  by_cases hqp : q = p
  · show DropState.Knows capacity _ (if q = p then _ else s.producers q)
    rw [if_pos hqp]
    split
    · trivial
    · refine ⟨by omega, by omega, hr, fun c hc hc' => ?_, fun c hc hc' => written_wrote.2 ?_⟩
      · rw [written_wrote_ne (by omega)]
        exact hpending c (by omega) hc'
      · rcases Nat.lt_or_ge c next with hlt | hge
        · exact .inr (hdone c hc hlt)
        · exact .inl (by omega)
  · refine h.knows_other written_grows (if_neg hqp)
      (fun c hc => written_wrote_ne (h.write_owns hphase hqp hc)) fun c hc => ?_
    -- What another drop is about to free is not FREE.
    have hkq := h.knows q
    revert hc hkq
    cases hq : s.producers q with
    | releasing need head cur stop =>
        rintro ⟨hc, hc'⟩ ⟨-, -, hheld⟩
        obtain ⟨frame, hf, -⟩ := hheld c hc hc'
        exact (written_slots hfree hf).trans hf.symm
    | idle | reserving | headLoaded | refreshed | writing | dropping | dropHeadLoaded |
      dropRefreshed | dropBlocked | dropBlockedHead | peeked => exact fun hc => hc.elim

theorem Inv.write_ordered (h : Inv capacity s)
    (hphase : s.producers p = .writing start needed next) {r : Reservation} (hr : r ∈ s.reserved)
    (hc : r.Covers c) (hw : (s.written capacity p start needed next).wrote c = true) {c' : ℕ}
    (hle : r.start ≤ c') (hle' : c' ≤ c) :
    (s.written capacity p start needed next).wrote c' = true := by
  have hk := h.knows p
  rw [hphase] at hk
  obtain ⟨hstart, hlt, ⟨r', hr', rfl, rfl⟩, -, hdone⟩ := hk
  rcases written_wrote.1 hw with rfl | hw
  · obtain rfl := h.tiles.unique hr hr' hc ⟨hstart, hlt⟩
    rcases Nat.eq_or_lt_of_le hle' with heq | hless
    · exact written_wrote.2 (.inl heq)
    · exact written_wrote.2 (.inr (hdone c' hle hless))
  · exact written_wrote.2 (.inr (h.ordered r hr c hc hw c' hle hle'))

theorem Inv.write_frames (h : Inv capacity s)
    (hphase : s.producers p = .writing start needed next)
    (hi : (s.written capacity p start needed next).slots i = some frame) :
    i = frame.cursor % capacity ∧
      (s.written capacity p start needed next).wrote frame.cursor = true ∧
        ∃ r ∈ s.reserved, r.Covers frame.cursor ∧ frame.cursor = r.start + frame.index ∧
          frame.total = r.neededSlots := by
  rcases of_written_slots hi with ⟨hmod, rfl⟩ | hi
  · obtain ⟨hle, hlt, -, -, r, hr, rfl, rfl⟩ := h.writing hphase
    have hindex : next = r.start + (next - r.start) := by omega
    exact ⟨hmod, written_wrote.2 (.inl rfl), r, hr, ⟨hle, hlt⟩, hindex, rfl⟩
  · obtain ⟨hmod, hw, hr⟩ := h.frames i frame hi
    exact ⟨hmod, written_wrote.2 (.inr hw), hr⟩

theorem Inv.write_stale (h : Inv capacity s)
    (hphase : s.producers p = .writing start needed next)
    (hi : (s.written capacity p start needed next).slots i = some frame)
    (hlt : frame.cursor < s.tail) :
    ∃ q, Frees ((s.written capacity p start needed next).producers q) frame.cursor := by
  rcases of_written_slots hi with ⟨-, rfl⟩ | hi
  · obtain ⟨-, -, -, htail, -⟩ := h.writing hphase
    exact absurd hlt (Nat.not_lt.2 htail)
  · refine frees_goTo (h.stale i frame hi hlt) fun hq => ?_
    change Frees (s.producers p) frame.cursor at hq
    rw [hphase] at hq
    exact hq.elim

/-- **A write.** -/
theorem Inv.write (h : Inv capacity s) (hphase : s.producers p = .writing start needed next)
    (hfree : s.slots (next % capacity) = none) :
    Inv capacity (s.written capacity p start needed next) := by
  obtain ⟨hle, hlt, hhead, htail, -⟩ := h.writing hphase
  have hpos : 0 < needed := by
    have := h.asks p
    rwa [hphase] at this
  exact
    { tiles := h.tiles
      nonempty := h.nonempty
      lap := h.lap
      window := h.window
      word := h.word
      aligned := h.aligned
      ordered := fun r hr c hc hw c' hle hle' => h.write_ordered hphase hr hc hw hle hle'
      asks := h.asks_goTo (by
        split
        · exact Nat.one_pos
        · exact hpos)
      knows := h.write_knows hphase hfree
      owns := by
        refine h.owns_goTo (if next + 1 = start + needed then .idle
          else .writing start needed (next + 1)) fun q hqp c hc hq => ?_
        split at hc
        · exact hc
        · refine h.owns q p hqp c hq ?_
          rw [hphase]
          exact ⟨Nat.le_of_succ_le hc.1, hc.2⟩
      taken := fun c hc => by
        rcases written_wrote.1 hc with rfl | hc
        · exact hhead
        · exact h.taken c hc
      passed := fun c hc => written_wrote.2 (.inr (h.passed c hc))
      frames := fun i frame hi => h.write_frames hphase hi
      held := fun c hc hw => by
        rcases written_wrote.1 hw with rfl | hw
        · exact ⟨_, if_pos rfl, rfl⟩
        · obtain ⟨frame, hf, hfc⟩ := h.held c hc hw
          exact ⟨frame, written_slots hfree hf, hfc⟩
      stale := fun i frame hi hlt => h.write_stale hphase hi hlt
      whole := fun d hd => by
        obtain ⟨r, hr, h1, h2, h3⟩ := h.whole d hd
        exact ⟨r, hr, h1, h2, fun c hc => written_wrote.2 (.inr (h3 c hc))⟩
      behind := h.behind
      once := h.once }

end Write

/-- **A drop.** What was decoded is the message at the tail, all of it
written: its slots go over to the dropper. -/
theorem Inv.drop (h : Inv capacity s) {needed head count : ℕ}
    (hphase : s.producers p = .peeked needed head s.tail count) :
    Inv capacity
      { s.goTo p (.releasing needed head s.tail (s.tail + count)) with
        tail := s.tail + count
        drops := s.drops ++ [⟨s.tail, count, s.tail⟩] } := by
  have hk := h.knows p
  rw [hphase] at hk
  obtain ⟨r, hr, hstart, rfl, hwritten⟩ := hk.2 rfl
  have hpos := h.nonempty r hr
  have hstop := (h.tiles.pairwise.2.1 r hr).2
  have hlap := h.lap
  unfold Reservation.stop at hstop
  have hcovers (c : ℕ) (h1 : s.tail ≤ c) (h2 : c < s.tail + r.neededSlots) : r.Covers c :=
    ⟨by omega, by unfold Reservation.stop; omega⟩
  have hgrow : Grows s
      { s.goTo p (.releasing needed head s.tail (s.tail + r.neededSlots)) with
        tail := s.tail + r.neededSlots
        drops := s.drops ++ [⟨s.tail, r.neededSlots, s.tail⟩] } :=
    ⟨Nat.le_refl _, Nat.le_add_right _ _, fun _ hr => hr, fun _ hw => hw⟩
  exact
    { tiles := h.tiles
      nonempty := h.nonempty
      lap := by
        show s.head ≤ s.tail + r.neededSlots + capacity
        omega
      window := by
        show s.tail + r.neededSlots ≤ s.head
        omega
      word := h.word
      aligned := fun r' hr' => by
        show r'.stop ≤ s.tail + r.neededSlots ∨ s.tail + r.neededSlots ≤ r'.start
        by_cases he : r' = r
        · subst he
          exact .inl (by unfold Reservation.stop; omega)
        · -- Another reservation lies before this one or behind it.
          have hpos' := h.nonempty r' hr'
          rcases h.aligned r' hr' with hle | hge
          · exact .inl (by omega)
          · refine .inr (Nat.le_of_not_lt fun hlt => he ?_)
            exact h.tiles.unique hr' hr ⟨Nat.le_refl _, by unfold Reservation.stop; omega⟩
              (hcovers r'.start hge hlt)
      ordered := h.ordered
      asks := h.asks_goTo (by
        have hp := h.asks p
        rwa [hphase] at hp)
      knows := fun q => by
        by_cases hqp : q = p
        · rw [hqp]
          show DropState.Knows capacity _ (if p = p then _ else s.producers p)
          rw [if_pos rfl]
          exact ⟨by omega, Nat.le_refl _,
            fun c hc hc' => h.held c hc (hwritten c (hcovers c hc hc'))⟩
        · exact h.knows_other hgrow (if_neg hqp) (fun _ _ => rfl) fun _ _ => rfl
      owns := h.owns_goTo _ fun q _ c hc =>
        h.not_owns_of_wrote hc.1 (hwritten c (hcovers c hc.1 hc.2))
      taken := h.taken
      passed := fun c hc => by
        change c < s.tail + r.neededSlots at hc
        rcases Nat.lt_or_ge c s.tail with hlt | hge
        · exact h.passed c hlt
        · exact hwritten c (hcovers c hge hc)
      frames := h.frames
      held := fun c hc hw => by
        change s.tail + r.neededSlots ≤ c at hc
        exact h.held c (by omega) hw
      stale := fun i frame hi hlt => by
        change frame.cursor < s.tail + r.neededSlots at hlt
        rcases Nat.lt_or_ge frame.cursor s.tail with hlt' | hge
        · refine frees_goTo (h.stale i frame hi hlt') fun hq => ?_
          rw [hphase] at hq
          exact hq.elim
        · refine ⟨p, ?_⟩
          show Frees (if p = p then _ else s.producers p) frame.cursor
          rw [if_pos rfl]
          exact ⟨hge, hlt⟩
      whole := fun d hd => by
        rcases List.mem_append.1 hd with hd | hd
        · exact h.whole d hd
        · rw [List.mem_singleton.1 hd]
          exact ⟨r, hr, hstart, rfl, hwritten⟩
      behind := fun d hd => by
        show d.stop ≤ s.tail + r.neededSlots
        rcases List.mem_append.1 hd with hd | hd
        · have := h.behind d hd
          omega
        · rw [List.mem_singleton.1 hd]
          exact Nat.le_refl _
      once := by
        refine List.pairwise_append.2 ⟨h.once, List.pairwise_singleton _ _, fun d hd d' hd' => ?_⟩
        rw [List.mem_singleton.1 hd']
        exact h.behind d hd }

/-- The end of a message that is dropped is no more than the head. -/
theorem Inv.drop_word (h : Inv capacity s) {needed head count : ℕ}
    (hphase : s.producers p = .peeked needed head s.tail count) :
    wrappingAdd s.tail count = s.tail + count := by
  have hk := h.knows p
  rw [hphase] at hk
  obtain ⟨r, hr, hstart, rfl, -⟩ := hk.2 rfl
  have hstop := (h.tiles.pairwise.2.1 r hr).2
  have hword := h.word
  unfold Reservation.stop at hstop
  exact wrappingAdd_of_lt (by omega)

section Release

variable {needed head next stop c i : ℕ} {frame : SlotFrame}

/-- The state behind a release. -/
def released (capacity : ℕ) (s : DropState) (p needed head next stop : ℕ) : DropState :=
  (s.setSlot (next % capacity) none).goTo p
    (if next + 1 = stop then s.afterDrop capacity p needed head stop
      else .releasing needed head (next + 1) stop)

theorem released_grows : Grows s (s.released capacity p needed head next stop) :=
  ⟨Nat.le_refl _, Nat.le_refl _, fun _ hr => hr, fun _ hw => hw⟩

/-- What lies in a slot behind a release lay there before, and elsewhere. -/
theorem of_released_slots
    (hi : (s.released capacity p needed head next stop).slots i = some frame) :
    i ≠ next % capacity ∧ s.slots i = some frame := by
  change (if i = next % capacity then none else s.slots i) = some frame at hi
  split at hi
  next => cases hi
  next hne => exact ⟨hne, hi⟩

/-- A slot that holds the frame of another cursor is another slot. -/
theorem Inv.release_slots (h : Inv capacity s)
    (hphase : s.producers p = .releasing needed head next stop)
    (hslot : s.slots (c % capacity) = some frame) (hcursor : frame.cursor = c) (hc : c ≠ next) :
    (s.released capacity p needed head next stop).slots (c % capacity) = some frame := by
  have hk := h.knows p
  rw [hphase] at hk
  obtain ⟨hlt, -, hheld⟩ := hk
  obtain ⟨frame₀, hslot₀, hcursor₀⟩ := hheld next (Nat.le_refl _) hlt
  refine (if_neg fun he => ?_).trans hslot
  rw [he, hslot₀] at hslot
  cases hslot
  omega

theorem Inv.release_knows (h : Inv capacity s)
    (hphase : s.producers p = .releasing needed head next stop) (q : ℕ) :
    (s.released capacity p needed head next stop).Knows capacity
      ((s.released capacity p needed head next stop).producers q) := by
  have hk := h.knows p
  rw [hphase] at hk
  obtain ⟨hlt, hle, hheld⟩ := hk
  by_cases hqp : q = p
  · show DropState.Knows capacity _ (if q = p then _ else s.producers q)
    rw [if_pos hqp]
    split
    · exact (afterDrop_free capacity s _ p needed head stop).2.1
    · refine ⟨by omega, hle, fun c hc hc' => ?_⟩
      obtain ⟨frame, hf, hfc⟩ := hheld c (by omega) hc'
      exact ⟨frame, h.release_slots hphase hf hfc (by omega), hfc⟩
  · refine h.knows_other released_grows (if_neg hqp) (fun _ _ => rfl) fun c hc => ?_
    -- Another drop frees other cursors, and their frames lie elsewhere.
    have hkq := h.knows q
    have hdisj := h.owns q p hqp c
    revert hc hkq hdisj
    cases s.producers q with
    | releasing need head' cur stop' =>
        rintro ⟨hc, hc'⟩ ⟨-, -, hheld'⟩ hdisj
        obtain ⟨frame, hf, hfc⟩ := hheld' c hc hc'
        refine (h.release_slots hphase hf hfc ?_).trans hf.symm
        rintro rfl
        refine hdisj ⟨hc, hc'⟩ ?_
        rw [hphase]
        exact ⟨Nat.le_refl _, hlt⟩
    | idle | reserving | headLoaded | refreshed | writing | dropping | dropHeadLoaded |
      dropRefreshed | dropBlocked | dropBlockedHead | peeked => exact fun hc => hc.elim

/-- A frame of the same drop that is still to be freed is a later one. -/
theorem Inv.release_stale (h : Inv capacity s)
    (hphase : s.producers p = .releasing needed head next stop)
    (hi : (s.released capacity p needed head next stop).slots i = some frame)
    (hlt : frame.cursor < s.tail) :
    ∃ q, Frees ((s.released capacity p needed head next stop).producers q) frame.cursor := by
  obtain ⟨hinext, hi⟩ := of_released_slots hi
  refine frees_goTo (h.stale i frame hi hlt) fun hq => ?_
  have hmod := (h.frames i frame hi).1
  change Frees (s.producers p) frame.cursor at hq
  rw [hphase] at hq
  obtain ⟨hge, hlast⟩ := hq
  have hc : frame.cursor ≠ next := by
    rintro hc
    rw [hc] at hmod
    exact hinext hmod
  rw [if_neg (by omega)]
  exact ⟨by omega, hlast⟩

/-- **A release.** The slot still holds the frame that was dropped. -/
theorem Inv.release (h : Inv capacity s)
    (hphase : s.producers p = .releasing needed head next stop) :
    Inv capacity (s.released capacity p needed head next stop) := by
  have hk := h.knows p
  rw [hphase] at hk
  obtain ⟨hlt, hle, -⟩ := hk
  have hpos : 0 < needed := by
    have := h.asks p
    rwa [hphase] at this
  obtain ⟨hasked, -, howns, -⟩ := afterDrop_free capacity s s p needed head stop
  exact
    { tiles := h.tiles
      nonempty := h.nonempty
      lap := h.lap
      window := h.window
      word := h.word
      aligned := h.aligned
      ordered := h.ordered
      asks := h.asks_goTo (by
        split
        · rw [hasked]
          exact hpos
        · exact hpos)
      knows := h.release_knows hphase
      owns := by
        refine h.owns_goTo (if next + 1 = stop then s.afterDrop capacity p needed head stop
          else .releasing needed head (next + 1) stop) fun q hqp c hc hq => ?_
        split at hc
        · exact howns c hc
        · refine h.owns q p hqp c hq ?_
          rw [hphase]
          exact ⟨Nat.le_of_succ_le hc.1, hc.2⟩
      taken := h.taken
      passed := h.passed
      frames := fun i frame hi => h.frames i frame (of_released_slots hi).2
      held := fun c hc hw => by
        obtain ⟨frame, hf, hfc⟩ := h.held c hc hw
        change s.tail ≤ c at hc
        exact ⟨frame, h.release_slots hphase hf hfc (by omega), hfc⟩
      stale := fun i frame hi hlt => h.release_stale hphase hi hlt
      whole := h.whole
      behind := h.behind
      once := h.once }

end Release

/-- **The look at the tail.** The frame there begins a reservation, which is
written to its last slot and so as a whole. -/
theorem Inv.peek (h : Inv capacity s) {needed head tail : ℕ} {frame : SlotFrame}
    (hphase : s.producers p = .dropRefreshed needed head tail)
    (hslot : s.slots (tail % capacity) = some frame) (hright : s.LooksRight capacity tail) :
    s.Knows capacity (.peeked needed head tail frame.total) := by
  have hk := h.knows p
  rw [hphase] at hk
  refine ⟨hk, fun htail => ?_⟩
  obtain ⟨hcursor, hlast⟩ := hright htail frame hslot
  obtain ⟨-, -, r, hr, hcovers, hindex, htotal⟩ := h.frames _ frame hslot
  have hpos := h.nonempty r hr
  have hstop : r.stop = r.start + r.neededSlots := rfl
  obtain ⟨hle, hlt⟩ := hcovers
  have hstart : r.start = tail := by
    rcases h.aligned r hr with hbefore | hbehind <;> omega
  have hlast' : r.Covers (frame.cursor + (frame.total - frame.index) - 1) := by
    constructor <;> omega
  refine ⟨r, hr, hstart, htotal.symm, fun c hc => ?_⟩
  obtain ⟨hge, hless⟩ := hc
  exact h.ordered r hr _ hlast' hlast c hge (by omega)

theorem Inv.advance (h : Inv capacity s) (hright : s.CarefulAt capacity (s.producers p)) :
    Inv capacity (s.advance capacity p) := by
  have hasks := h.asks p
  have hk := h.knows p
  have hafter (needed head tail : ℕ) (hpos : 0 < needed)
      (hfree : ∀ c, ¬ Frees (s.producers p) c) :
      Inv capacity (s.goTo p (s.afterDrop capacity p needed head tail)) := by
    obtain ⟨hasked, hknows, howns, -⟩ :=
      afterDrop_free capacity s s p needed head tail
    exact h.goTo_free (by rw [hasked]; exact hpos) hknows howns hfree
  unfold DropState.advance
  split
  next => exact h
  next needed hphase =>
    rw [hphase] at hasks
    exact h.goTo_free hasks (Nat.le_refl _) (fun _ => id) (by rw [hphase]; exact fun _ => id)
  next needed head hphase =>
    rw [hphase] at hasks hk
    split
    · exact h.goTo_free Nat.one_pos trivial (fun _ => id) (by rw [hphase]; exact fun _ => id)
    · exact h.goTo_free hasks ⟨hk, Nat.le_refl _⟩ (fun _ => id) (by rw [hphase]; exact fun _ => id)
  next needed head tail hphase =>
    rw [hphase] at hasks
    split
    next hguard =>
      split
      next hwon =>
        subst hwon
        rw [hphase] at hright
        rw [wrappingAdd_of_lt hright]
        exact h.reserve hphase hguard hright
      next => exact h.goTo_free hasks trivial (fun _ => id) (by rw [hphase]; exact fun _ => id)
    next => exact h.goTo_free hasks trivial (fun _ => id) (by rw [hphase]; exact fun _ => id)
  next start needed next hphase =>
    split
    next hfree => exact h.write hphase hfree
    next => exact h
  next needed hphase =>
    rw [hphase] at hasks
    exact h.goTo_free hasks (Nat.le_refl _) (fun _ => id) (by rw [hphase]; exact fun _ => id)
  next needed head hphase =>
    rw [hphase] at hasks
    split
    · exact h.goTo_free Nat.one_pos trivial (fun _ => id) (by rw [hphase]; exact fun _ => id)
    · split
      · exact hafter _ _ _ hasks (by rw [hphase]; exact fun _ => id)
      · exact h.goTo_free hasks (Nat.le_refl _) (fun _ => id) (by rw [hphase]; exact fun _ => id)
  next needed head tail hphase =>
    rw [hphase] at hasks
    split
    next => exact h.goTo_free hasks trivial (fun _ => id) (by rw [hphase]; exact fun _ => id)
    next frame hslot =>
      split
      · exact h.goTo_free Nat.one_pos trivial (fun _ => id) (by rw [hphase]; exact fun _ => id)
      · rw [hphase] at hright
        exact h.goTo_free hasks (h.peek hphase hslot hright) (fun _ => id)
          (by rw [hphase]; exact fun _ => id)
  next needed tail hphase =>
    rw [hphase] at hasks
    exact h.goTo_free hasks trivial (fun _ => id) (by rw [hphase]; exact fun _ => id)
  next needed head _ hphase =>
    rw [hphase] at hasks
    split
    · exact h.goTo_free Nat.one_pos trivial (fun _ => id) (by rw [hphase]; exact fun _ => id)
    · exact h.goTo_free hasks trivial (fun _ => id) (by rw [hphase]; exact fun _ => id)
  next needed head tail count hphase =>
    rw [hphase] at hasks
    split
    next hwon =>
      subst hwon
      rw [h.drop_word hphase]
      exact h.drop hphase
    next => exact hafter _ _ _ hasks (by rw [hphase]; exact fun _ => id)
  next needed head next stop hphase => exact h.release hphase

/-- **Every careful step keeps the invariant.** -/
theorem Inv.step (h : Inv capacity s) (a : DropStep) (hcare : s.Careful capacity a) :
    Inv capacity (s.step capacity a) := by
  cases a with
  | send p needed =>
      simp only [DropState.step]
      split
      next hphase =>
        split
        next hneeded =>
          exact h.goTo_free hneeded.1 trivial (fun _ => id) (by rw [hphase]; exact fun _ => id)
        next => exact h
      next => exact h
  | advance p => exact h.advance hcare
  | giveUp p =>
      simp only [DropState.step]
      split
      next hphase =>
        exact h.goTo_free Nat.one_pos trivial (fun _ => id) (by rw [hphase]; exact fun _ => id)
      next needed head tail hphase =>
        have hasks := h.asks p
        rw [hphase] at hasks
        split
        · exact h.goTo_free Nat.one_pos trivial (fun _ => id) (by rw [hphase]; exact fun _ => id)
        · split
          · exact h.goTo_free Nat.one_pos trivial (fun _ => id) (by rw [hphase]; exact fun _ => id)
          · exact h.goTo_free hasks trivial (fun _ => id) (by rw [hphase]; exact fun _ => id)
      next => exact h

theorem created_inv (capacity : ℕ) (bias : ℕ → ℕ) : Inv capacity (created bias) where
  tiles := rfl
  nonempty _ h := nomatch h
  lap := Nat.zero_le _
  window := Nat.le_refl _
  word := by show 0 < wordCount; decide
  aligned _ h := nomatch h
  ordered _ h := nomatch h
  asks _ := Nat.one_pos
  knows _ := trivial
  owns _ _ _ _ h := h.elim
  taken _ h := nomatch h
  passed _ h := absurd h (Nat.not_lt_zero _)
  frames _ _ h := nomatch h
  held _ _ h := nomatch h
  stale _ _ h := nomatch h
  whole _ h := nomatch h
  behind _ h := nomatch h
  once := .nil

end DropState

open DropState

/-- **Drops discard whole committed messages, each once,** in every run in
which what a drop finds COMMITTED at the tail was written for that cursor, and
to the last slot of its message. -/
theorem drops_whole {capacity : ℕ} {bias : ℕ → ℕ} {acts : List DropStep}
    (hcare : Run.Meets (DropState.step capacity) (Careful capacity) (created bias) acts) :
    Sound capacity (Run.exec (DropState.step capacity) (created bias) acts) :=
  (hcare.invariant (DropState.Inv capacity) (fun _ a hinv hc => hinv.step a hc)
    (created_inv capacity bias)).sound

/-- A ring of four slots: a message of two slots is written; a second
producer needs three and drops it. -/
def sampleDrops : List DropStep :=
  .send 0 2 :: List.replicate 5 (.advance 0) ++ .send 1 3 :: List.replicate 13 (.advance 1)

theorem drops_whole_sample :
    (Run.exec (DropState.step 4) (created fun _ => 0) sampleDrops).drops = [⟨0, 2, 0⟩] ∧
      Sound 4 (Run.exec (DropState.step 4) (created fun _ => 0) sampleDrops) :=
  ⟨by decide +kernel, drops_whole (by decide +kernel)⟩

/-- The same, but the first producer has written only its first slot. -/
def hastyDrops : List DropStep :=
  .send 0 2 :: List.replicate 4 (.advance 0) ++ .send 1 3 :: List.replicate 8 (.advance 1)

/-- **A drop takes a message that is still being written.** -/
theorem drops_unwritten :
    (Run.exec (DropState.step 4) (created fun _ => 0) hastyDrops).drops = [⟨0, 2, 0⟩] ∧
      (Run.exec (DropState.step 4) (created fun _ => 0) hastyDrops).wrote 1 = false ∧
      ¬ Sound 4 (Run.exec (DropState.step 4) (created fun _ => 0) hastyDrops) := by
  have hdrops : (Run.exec (DropState.step 4) (created fun _ => 0) hastyDrops).drops =
      [⟨0, 2, 0⟩] := by decide +kernel
  have hwrote : (Run.exec (DropState.step 4) (created fun _ => 0) hastyDrops).wrote 1 = false := by
    decide +kernel
  refine ⟨hdrops, hwrote, fun hsound => ?_⟩
  obtain ⟨r, -, hstart, hcount, hwritten⟩ := hsound.whole ⟨0, 2, 0⟩ (by rw [hdrops]; simp)
  have hcovers : r.Covers 1 := ⟨by simp only at hstart; omega, by
    simp only at hstart hcount
    unfold Reservation.stop
    omega⟩
  rw [hwritten 1 hcovers] at hwrote
  cases hwrote

end Dsline
