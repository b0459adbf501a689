import Dsline.Library.Run
import Dsline.Mpsc.Reserve
/-!
# The cursors a refresh mixes

`refresh_cursors` loads the head, then the tail, then the floor, and judges
the pair it holds. Between the loads every other handle runs: a pair of a
head and a tail is never one state of the ring, only a head the tail may
have left behind. A ring slot that is sent and received while a handle sits
between its two loads moves the tail one past the head it holds, and past
`capacity` of them the refresh rejects a ring that is in order. The tail itself
may pass the head: a drop that reads a stale frame moves it over slots no one
has reserved.
-/

namespace Dsline

open PersistentShmChannel

/-- Where a handle stands in `refresh_cursors`. -/
inductive RefreshPhase where
  | idle
  | headLoaded (head : ℕ)
  | tailLoaded (head tail : ℕ)
  /-- It returned `Ok`: the mirrors may be used. -/
  | refreshed
  /-- It returned `ring cursors are inconsistent`. -/
  | inconsistent
  deriving DecidableEq, Repr

/-- A handle on the region, a producer's or the consumer's. -/
structure Refresher where
  chan : PersistentShmChannel
  phase : RefreshPhase
  deriving DecidableEq, Repr

/-- The shared words and the handles. -/
structure RefreshState where
  head : ℕ
  tail : ℕ
  pinFloor : ℕ
  handles : ℕ → Refresher

/-- One atomic step. -/
inductive RefreshStep where
  /-- The next load of `refresh_cursors`; with the floor comes the verdict. -/
  | load (p : ℕ)
  /-- `reserve_slots` after its refresh: the guard, and the exchange of the
  head where it says yes. -/
  | reserve (p neededSlots : ℕ)
  /-- `recv` steps its tail over a slot: `fetch_max_tail`. -/
  | consume (p : ℕ)
  /-- `drop_oldest_message_mpsc`: the exchange of the tail over a message. -/
  | discard (p slotsToDrop : ℕ)
  /-- A store to the floor, by a view or by its release. -/
  | setFloor (cursor : ℕ)
  deriving DecidableEq, Repr

namespace RefreshState

/-- Put a handle. -/
def put (s : RefreshState) (p : ℕ) (handle : Refresher) : RefreshState :=
  { s with handles := fun i => if i = p then handle else s.handles i }

/-- Move a handle on. -/
def goTo (s : RefreshState) (p : ℕ) (phase : RefreshPhase) : RefreshState :=
  s.put p { s.handles p with phase }

/-- `refresh_cursors`. A call that is over is followed by the next one. -/
def load (s : RefreshState) (p : ℕ) : RefreshState :=
  let handle := s.handles p
  match handle.phase with
  | .idle | .refreshed | .inconsistent => s.goTo p (.headLoaded s.head)
  | .headLoaded head => s.goTo p (.tailLoaded head s.tail)
  | .tailLoaded head tail =>
      let chan := handle.chan.withCursors head tail s.pinFloor
      match cursorLen chan.config.capacity head tail with
      | none => s.put p { chan, phase := .inconsistent }
      | some depth =>
          s.put p {
            chan := { chan with len := min (depth + chan.recoveryBias) chan.config.capacity }
            phase := .refreshed }

/-- The guard and the exchange of the head. -/
def reserve (s : RefreshState) (p neededSlots : ℕ) : RefreshState :=
  let handle := s.handles p
  match handle.phase with
  | .refreshed =>
      if handle.chan.admits neededSlots then
        -- `compare_exchange_head(head_c, head_c + needed)`
        if s.head = handle.chan.headCursor then
          { s.goTo p .idle with head := wrappingAdd handle.chan.headCursor neededSlots }
        else s.goTo p .idle
      else s.goTo p .idle
  | _ => s

/-- The tail steps over the slot the handle read. -/
def consume (s : RefreshState) (p : ℕ) : RefreshState :=
  let handle := s.handles p
  match handle.phase with
  | .refreshed =>
      let chan := handle.chan.stepTail
      { s.put p { handle with chan } with tail := max s.tail chan.tailCursor }
  | _ => s

/-- The exchange of the tail. -/
def discard (s : RefreshState) (p slotsToDrop : ℕ) : RefreshState :=
  let handle := s.handles p
  match handle.phase with
  | .refreshed =>
      -- `compare_exchange_tail(tail_count, tail_count + slots_to_drop)`
      if s.tail = handle.chan.tailCursor then
        { s.goTo p .idle with tail := wrappingAdd handle.chan.tailCursor slotsToDrop }
      else s.goTo p .idle
  | _ => s

/-- One step. A step that is not enabled does nothing. -/
def step (s : RefreshState) : RefreshStep → RefreshState
  | .load p => s.load p
  | .reserve p neededSlots => s.reserve p neededSlots
  | .consume p => s.consume p
  | .discard p slotsToDrop => s.discard p slotsToDrop
  | .setFloor cursor => { s with pinFloor := cursor }

/-- A created region of `capacity` slots, and handles on it. -/
structure Initial (capacity : ℕ) (s : RefreshState) : Prop where
  head : s.head = 0
  tail : s.tail = 0
  idle : ∀ p, (s.handles p).phase = .idle
  config : ∀ p, (s.handles p).chan.config.capacity = capacity
  capacity : capacity < wordCount

/-- The words stay less than `2^64` by more than a lap. -/
def Below (s : RefreshState) : RefreshStep → Prop
  | .reserve p neededSlots =>
      s.head + neededSlots + (s.handles p).chan.config.capacity < wordCount
  | .consume p => (s.handles p).chan.tailCursor + 1 + (s.handles p).chan.config.capacity < wordCount
  | .discard p slotsToDrop =>
      (s.handles p).chan.tailCursor + slotsToDrop + (s.handles p).chan.config.capacity < wordCount
  | .load _ | .setFloor _ => True

instance (s : RefreshState) : (a : RefreshStep) → Decidable (s.Below a)
  | .reserve _ _ | .consume _ | .discard _ _ => inferInstanceAs (Decidable (_ < _))
  | .load _ | .setFloor _ => isTrue trivial

/-- A handle in this phase may load `tail`: it has not gone more than a lap
past the head the handle holds. -/
def NearTail (capacity tail : ℕ) : RefreshPhase → Prop
  | .headLoaded head => tail ≤ head + capacity
  | .idle | .tailLoaded _ _ | .refreshed | .inconsistent => True

instance {capacity tail : ℕ} : (phase : RefreshPhase) → Decidable (NearTail capacity tail phase)
  | .headLoaded _ => inferInstanceAs (Decidable (_ ≤ _))
  | .idle | .tailLoaded _ _ | .refreshed | .inconsistent => isTrue trivial

/-- **Near**: when a handle loads the tail, the tail has not gone more than a
lap past the head that the handle loaded before. -/
def Near (s : RefreshState) : RefreshStep → Prop
  | .load p => NearTail (s.handles p).chan.config.capacity s.tail (s.handles p).phase
  | .reserve _ _ | .consume _ | .discard _ _ | .setFloor _ => True

instance (s : RefreshState) : (a : RefreshStep) → Decidable (s.Near a)
  | .load _ => inferInstanceAs (Decidable (NearTail _ _ _))
  | .reserve _ _ | .consume _ | .discard _ _ | .setFloor _ => isTrue trivial

/-- No handle was told that the cursors are inconsistent. -/
def Consistent (s : RefreshState) : Prop := ∀ p, (s.handles p).phase ≠ .inconsistent

/-! ## The verdict -/

/-- A head at most a lap ahead of the tail, and a tail anywhere: the pair is
rejected exactly where the tail is more than a lap ahead. -/
theorem cursorLen_eq_none {capacity head tail : ℕ} (hhead : head ≤ tail + capacity)
    (htail : tail + capacity < wordCount) :
    cursorLen capacity head tail = none ↔ head + capacity < tail := by
  unfold cursorLen
  simp only
  rcases Nat.lt_or_ge head tail with hlt | hge
  · have hback : wrappingSub tail head = tail - head := wrappingSub_of_le (by omega)
    have hfwd : wrappingSub head tail = wordCount - (tail - head) := if_neg (by omega)
    rw [hback, hfwd, if_neg (by omega)]
    split <;> simp <;> omega
  · have hfwd : wrappingSub head tail = head - tail := wrappingSub_of_le hge
    rw [hfwd, if_pos (by omega)]
    simp
    omega

/-! ## The invariant -/

/-- What a handle has loaded was there: the words only grow. -/
def Loaded (s : RefreshState) (handle : Refresher) : Prop :=
  match handle.phase with
  | .headLoaded head => head ≤ s.head
  | .tailLoaded head tail =>
      head ≤ s.head ∧ tail ≤ s.tail ∧ head ≤ tail + handle.chan.config.capacity
  | .refreshed => handle.chan.headCursor ≤ s.head ∧ handle.chan.tailCursor ≤ s.tail
  | .idle | .inconsistent => True

structure Inv (capacity : ℕ) (s : RefreshState) : Prop where
  window : s.head ≤ s.tail + capacity
  headWord : s.head + capacity < wordCount
  tailWord : s.tail + capacity < wordCount
  loaded : ∀ p, s.Loaded (s.handles p)
  config : ∀ p, (s.handles p).chan.config.capacity = capacity

variable {capacity : ℕ} {s : RefreshState} {p : ℕ}

/-- A load that was right stays right while the words grow. -/
theorem Loaded.mono {s' : RefreshState} {handle : Refresher} (h : s.Loaded handle)
    (hhead : s.head ≤ s'.head) (htail : s.tail ≤ s'.tail) : s'.Loaded handle := by
  unfold Loaded at h ⊢
  split at h
  · omega
  · omega
  · omega
  · trivial
  · trivial

/-- Moving a handle on keeps the invariant where what it has loaded is
there. -/
theorem Inv.put (h : Inv capacity s) {handle : Refresher} (hloaded : s.Loaded handle)
    (hconfig : handle.chan.config.capacity = capacity) : Inv capacity (s.put p handle) where
  window := h.window
  headWord := h.headWord
  tailWord := h.tailWord
  loaded i := by
    unfold RefreshState.put
    simp only
    split
    · exact hloaded
    · exact h.loaded i
  config i := by
    unfold RefreshState.put
    simp only
    split
    · exact hconfig
    · exact h.config i

theorem Inv.goTo (h : Inv capacity s) {phase : RefreshPhase}
    (hloaded : s.Loaded { s.handles p with phase }) : Inv capacity (s.goTo p phase) :=
  h.put hloaded (h.config p)

/-- Words that grow keep the invariant, where they stay a lap apart. -/
theorem Inv.grow (h : Inv capacity s) {head tail : ℕ} (hhead : s.head ≤ head)
    (htail : s.tail ≤ tail) (hwindow : head ≤ tail + capacity)
    (hheadWord : head + capacity < wordCount) (htailWord : tail + capacity < wordCount) :
    Inv capacity { s with head, tail } where
  window := hwindow
  headWord := hheadWord
  tailWord := htailWord
  loaded i := (h.loaded i).mono hhead htail
  config := h.config

theorem Inv.load (h : Inv capacity s) : Inv capacity (s.load p) := by
  have hp := h.loaded p
  have hconfig := h.config p
  unfold RefreshState.load
  unfold Loaded at hp
  simp only
  split
  · exact h.goTo (Nat.le_refl _)
  · exact h.goTo (Nat.le_refl _)
  · exact h.goTo (Nat.le_refl _)
  · rename_i head hphase
    rw [hphase] at hp
    have hwindow := h.window
    have hlap : head ≤ s.tail + (s.handles p).chan.config.capacity := by
      simp only at hp
      omega
    exact h.goTo ⟨hp, Nat.le_refl _, hlap⟩
  · rename_i hphase
    rw [hphase] at hp
    split
    · exact h.put trivial hconfig
    · exact h.put ⟨hp.1, hp.2.1⟩ hconfig

/-- **A head that is exchanged stays within a lap of the tail.** -/
theorem Inv.reserve (h : Inv capacity s) {needed : ℕ} (hbelow : s.Below (.reserve p needed)) :
    Inv capacity (s.reserve p needed) := by
  have hp := h.loaded p
  have hconfig := h.config p
  have hwindow := h.window
  have hidle : Inv capacity (s.goTo p .idle) := h.goTo trivial
  replace hbelow : s.head + needed + (s.handles p).chan.config.capacity < wordCount := hbelow
  unfold RefreshState.reserve
  unfold Loaded at hp
  simp only
  split
  · rename_i hphase
    rw [hphase] at hp
    split
    · rename_i hadm
      split
      · rename_i hwon
        have hsum : wrappingAdd (s.handles p).chan.headCursor needed = s.head + needed := by
          rw [← hwon]
          exact wrappingAdd_of_lt (by omega)
        -- The guard was computed from an older tail; the tail only grew.
        have hroom : s.head + needed ≤ s.tail + capacity := by
          rcases Nat.eq_zero_or_pos needed with hz | hpos
          · omega
          · have := ReserveState.room_of_admits hadm hpos
            omega
        rw [hsum]
        exact hidle.grow (Nat.le_add_right _ _) (Nat.le_refl _) hroom (by omega) h.tailWord
      · exact hidle
    · exact hidle
  · exact h

theorem Inv.consume (h : Inv capacity s) (hbelow : s.Below (.consume p)) :
    Inv capacity (s.consume p) := by
  have hp := h.loaded p
  have hconfig := h.config p
  have hwindow := h.window
  have htailWord := h.tailWord
  replace hbelow : (s.handles p).chan.tailCursor + 1 + (s.handles p).chan.config.capacity <
    wordCount := hbelow
  unfold RefreshState.consume
  unfold Loaded at hp
  simp only
  split
  · rename_i hphase
    rw [hphase] at hp
    have hcursor : (s.handles p).chan.stepTail.tailCursor = (s.handles p).chan.tailCursor + 1 :=
      wrappingAdd_of_lt (by omega)
    have hgrown := h.grow (Nat.le_refl s.head)
      (Nat.le_max_left s.tail (s.handles p).chan.stepTail.tailCursor) (by omega) h.headWord
      (by omega)
    refine hgrown.put ?_ hconfig
    unfold Loaded
    rw [hphase]
    exact ⟨hp.1, Nat.le_max_right _ _⟩
  · exact h

theorem Inv.discard (h : Inv capacity s) {count : ℕ} (hbelow : s.Below (.discard p count)) :
    Inv capacity (s.discard p count) := by
  have hconfig := h.config p
  have hwindow := h.window
  have hidle : Inv capacity (s.goTo p .idle) := h.goTo trivial
  replace hbelow : (s.handles p).chan.tailCursor + count + (s.handles p).chan.config.capacity <
    wordCount := hbelow
  unfold RefreshState.discard
  simp only
  split
  · split
    · rename_i hwon
      have hsum : wrappingAdd (s.handles p).chan.tailCursor count = s.tail + count := by
        rw [← hwon] at hbelow ⊢
        exact wrappingAdd_of_lt (by omega)
      rw [hsum]
      exact hidle.grow (Nat.le_refl s.head) (Nat.le_add_right _ _)
        (Nat.le_trans hwindow (by omega)) h.headWord (by omega)
    · exact hidle
  · exact h

/-- **Every step keeps the invariant.** -/
theorem Inv.step (h : Inv capacity s) (a : RefreshStep) (hbelow : s.Below a) :
    Inv capacity (s.step a) := by
  cases a with
  | load p => exact h.load
  | reserve p needed => exact h.reserve hbelow
  | consume p => exact h.consume hbelow
  | discard p count => exact h.discard hbelow
  | setFloor cursor => exact ⟨h.window, h.headWord, h.tailWord, h.loaded, h.config⟩

theorem Initial.inv (h : Initial capacity s) : Inv capacity s where
  window := by
    rw [h.head]
    exact Nat.zero_le _
  headWord := by
    rw [h.head, Nat.zero_add]
    exact h.capacity
  tailWord := by
    rw [h.tail, Nat.zero_add]
    exact h.capacity
  loaded p := by
    unfold Loaded
    rw [h.idle p]
    trivial
  config := h.config

/-! ## Runs whose loads are near -/

/-- No handle holds a pair that the verdict rejects, and none was
rejected. -/
structure Sound (s : RefreshState) : Prop where
  consistent : s.Consistent
  pairs : ∀ p head tail, (s.handles p).phase = .tailLoaded head tail →
    tail ≤ head + (s.handles p).chan.config.capacity

theorem Initial.sound (h : Initial capacity s) : Sound s where
  consistent p hp := by
    rw [h.idle p] at hp
    cases hp
  pairs p head tail hp := by
    rw [h.idle p] at hp
    cases hp

/-- A handle that moves on keeps the others sound. -/
theorem Sound.put (h : Sound s) {handle : Refresher} (hphase : handle.phase ≠ .inconsistent)
    (hpair : ∀ head tail, handle.phase = .tailLoaded head tail →
      tail ≤ head + handle.chan.config.capacity) : Sound (s.put p handle) where
  consistent i hi := by
    unfold RefreshState.put at hi
    simp only at hi
    split at hi
    · exact hphase hi
    · exact h.consistent i hi
  pairs i head tail hi := by
    unfold RefreshState.put at hi ⊢
    simp only at hi ⊢
    split at hi
    · rename_i hp
      rw [if_pos hp]
      exact hpair head tail hi
    · rename_i hp
      rw [if_neg hp]
      exact h.pairs i head tail hi

/-- Soundness does not speak of the words. -/
theorem Sound.words (h : Sound s) {s' : RefreshState} (heq : s'.handles = s.handles) :
    Sound s' where
  consistent p := by
    rw [heq]
    exact h.consistent p
  pairs p := by
    rw [heq]
    exact h.pairs p

theorem Sound.idle (h : Sound s) : Sound (s.goTo p .idle) :=
  h.put (fun hphase => nomatch hphase) (fun _ _ hphase => nomatch hphase)

theorem Sound.load (h : Sound s) (hinv : Inv capacity s) (hnear : s.Near (.load p)) :
    Sound (s.load p) := by
  have hstart : Sound (s.goTo p (.headLoaded s.head)) :=
    h.put (fun hphase => nomatch hphase) (fun _ _ hphase => nomatch hphase)
  have hp := hinv.loaded p
  have hpair := h.pairs p
  replace hnear : NearTail _ _ _ := hnear
  unfold Loaded at hp
  unfold RefreshState.load
  simp only
  split
  · exact hstart
  · exact hstart
  · exact hstart
  · rename_i head hphase
    rw [hphase] at hnear
    refine h.put (fun hphase => nomatch hphase) (fun head' tail' heq => ?_)
    cases heq
    exact hnear
  · rename_i head tail hphase
    rw [hphase] at hp
    have hlap := hpair head tail hphase
    split
    · rename_i hnone
      have htailWord := hinv.tailWord
      have hconfig := hinv.config p
      have := (cursorLen_eq_none hp.2.2 (by omega)).1 hnone
      omega
    · exact h.put (fun hphase => nomatch hphase) (fun _ _ hphase => nomatch hphase)

theorem Sound.step (h : Sound s) (hinv : Inv capacity s) (a : RefreshStep) (hnear : s.Near a) :
    Sound (s.step a) := by
  cases a with
  | load p => exact h.load hinv hnear
  | reserve p needed =>
      simp only [RefreshState.step, RefreshState.reserve]
      split
      · split
        · split
          · exact h.idle.words rfl
          · exact h.idle
        · exact h.idle
      · exact h
  | consume p =>
      simp only [RefreshState.step, RefreshState.consume]
      split
      · rename_i hphase
        have hput : Sound (s.put p { s.handles p with chan := (s.handles p).chan.stepTail }) := by
          refine h.put (h.consistent p) (fun head tail heq => ?_)
          rw [hphase] at heq
          cases heq
        exact hput.words rfl
      · exact h
  | discard p count =>
      simp only [RefreshState.step, RefreshState.discard]
      split
      · split
        · exact h.idle.words rfl
        · exact h.idle
      · exact h
  | setFloor cursor => exact h.words rfl

/-! ## A load that is not near -/

@[simp] theorem put_handles_self (handle : Refresher) : (s.put p handle).handles p = handle :=
  if_pos rfl

/-- A handle that holds a pair is told what the verdict says. -/
theorem load_inconsistent {head tail : ℕ} (hphase : (s.handles p).phase = .tailLoaded head tail) :
    ((s.load p).handles p).phase = .inconsistent ↔
      cursorLen (s.handles p).chan.config.capacity head tail = none := by
  unfold RefreshState.load
  simp only [hphase, withCursors]
  split
  · rename_i hnone
    simp [hnone]
  · rename_i hsome
    simp [hsome]

theorem load_tail {head : ℕ} (hphase : (s.handles p).phase = .headLoaded head) :
    s.load p = s.goTo p (.tailLoaded head s.tail) := by
  unfold RefreshState.load
  simp only [hphase]

/-- **A refresh between its two loads** fails exactly where the tail is more
than a lap past the head it holds. -/
theorem Inv.load_load (h : Inv capacity s) {head : ℕ}
    (hphase : (s.handles p).phase = .headLoaded head) :
    (((s.load p).load p).handles p).phase = .inconsistent ↔ head + capacity < s.tail := by
  have hp := h.loaded p
  have hwindow := h.window
  have htailWord := h.tailWord
  unfold Loaded at hp
  rw [hphase] at hp
  have hloaded : (s.goTo p (.tailLoaded head s.tail)).handles p =
      { s.handles p with phase := .tailLoaded head s.tail } := put_handles_self _
  rw [load_tail hphase, load_inconsistent (congrArg Refresher.phase hloaded), hloaded]
  simp only [h.config p]
  exact cursorLen_eq_none (Nat.le_trans hp hwindow) (by omega)

end RefreshState

open RefreshState

/-- **When a refresh does not reject the ring.** In every run whose tail loads
are near, no handle is ever told that the cursors are inconsistent; and a
handle that is about to load the tail is told so exactly where that load is
not near. Reservations, receives and drops of any handle run in between, and
drops may move the tail past the head. -/
theorem refresh_consistent {capacity : ℕ} {s : RefreshState} {acts : List RefreshStep}
    (hinit : Initial capacity s) (hbelow : Run.Meets RefreshState.step Below s acts) :
    (Run.Meets RefreshState.step Near s acts → (Run.exec RefreshState.step s acts).Consistent) ∧
      ∀ p head, ((Run.exec RefreshState.step s acts).handles p).phase = .headLoaded head →
        (((Run.exec RefreshState.step s (acts ++ [.load p, .load p])).handles p).phase =
            .inconsistent ↔
          head + capacity < (Run.exec RefreshState.step s acts).tail) := by
  have hinv : Inv capacity (Run.exec RefreshState.step s acts) :=
    hbelow.invariant (Inv capacity) (fun _ a hinv hc => hinv.step a hc) hinit.inv
  refine ⟨fun hnear => ?_, fun p head hphase => ?_⟩
  · have hboth : Run.Meets RefreshState.step (fun s a => s.Below a ∧ s.Near a) s acts :=
      hbelow.and hnear
    have hsound := hboth.invariant (fun s => Inv capacity s ∧ Sound s)
      (fun _ a h hc => ⟨h.1.step a hc.1, h.2.step h.1 a hc.2⟩) ⟨hinit.inv, hinit.sound⟩
    exact hsound.2.consistent
  · rw [Run.exec_append]
    exact hinv.load_load hphase

/-- A created multi-producer ring. -/
def sampleRefreshStart (capacity : ℕ) : RefreshState where
  head := 0
  tail := 0
  pinFloor := PIN_FLOOR_NONE
  handles _ :=
    ⟨.fresh ⟨⟨7, 1⟩, 1, 0, fun _ => .alive, 0, 0⟩ ⟨capacity, 1, .raise, none, true⟩, .idle⟩

theorem sampleRefreshStart_initial {capacity : ℕ} (h : capacity < wordCount) :
    Initial capacity (sampleRefreshStart capacity) :=
  ⟨rfl, rfl, fun _ => rfl, fun _ => rfl, h⟩

/-- Handle 0 loads the head, producer 1 sends a message of one slot, and a drop
of handle 2 reads a stale frame of two: the tail passes the head. -/
def sampleStaleDrop : List RefreshStep :=
  [.load 0, .load 1, .load 1, .load 1, .reserve 1 1, .load 2, .load 2, .load 2, .discard 2 2]

theorem refresh_consistent_past :
    (Run.exec RefreshState.step (sampleRefreshStart 2)
        (sampleStaleDrop ++ [.load 0, .load 0])).Consistent ∧
      (Run.exec RefreshState.step (sampleRefreshStart 2) sampleStaleDrop).head = 1 ∧
      (Run.exec RefreshState.step (sampleRefreshStart 2) sampleStaleDrop).tail = 2 :=
  ⟨(refresh_consistent (sampleRefreshStart_initial (by decide)) (by decide +kernel)).1
      (by decide +kernel),
    by decide +kernel, by decide +kernel⟩

/-- Producer 1 sends a message of one slot and consumer 2 receives it. -/
def sampleDelivery : List RefreshStep :=
  [.load 1, .load 1, .load 1, .reserve 1 1, .load 2, .load 2, .load 2, .consume 2]

/-- Whoever moves the tail moves it over slots that hold a message, so not
past the head. -/
def RefreshState.Orderly (s : RefreshState) : RefreshStep → Prop
  | .consume p => (s.handles p).chan.tailCursor < s.head
  | .discard p slotsToDrop => (s.handles p).chan.tailCursor + slotsToDrop ≤ s.head
  | .load _ | .reserve _ _ | .setFloor _ => True

instance (s : RefreshState) : (a : RefreshStep) → Decidable (s.Orderly a)
  | .consume _ => inferInstanceAs (Decidable (_ < _))
  | .discard _ _ => inferInstanceAs (Decidable (_ ≤ _))
  | .load _ | .reserve _ _ | .setFloor _ => isTrue trivial

/-- **A refresh rejects a ring that is in order**: handle 0 loads the head,
two messages are sent and received, and handle 0 loads the tail, which is
two past a head on a ring of one slot. -/
theorem refresh_lapped_inconsistent :
    ¬ ∀ (capacity : ℕ) (s : RefreshState) (acts : List RefreshStep), Initial capacity s →
      Run.Meets RefreshState.step Below s acts → Run.Meets RefreshState.step Orderly s acts →
        (Run.exec RefreshState.step s acts).Consistent := by
  intro h
  refine h 1 (sampleRefreshStart 1)
    (.load 0 :: sampleDelivery ++ sampleDelivery ++ [.load 0, .load 0])
    (sampleRefreshStart_initial (by decide)) (by decide +kernel) (by decide +kernel) 0 ?_
  decide +kernel

end Dsline
