import Dsline.Library.Run
import Dsline.Library.Window
import Dsline.Shm.Region
/-!
# The pin floor, access by access

One consumer pins what it receives, its earlier views are released from any
thread, and openers rebuild the floor, all one atomic region access at a
time. Pinning lowers the floor only where it is not low enough already;
releases and openers raise it by one exchange against the value they read
before their scan. The scan misses what is pinned behind the tail it loaded,
and the exchange does not notice: the floor's value need not have changed.
-/

namespace Dsline

/-- Where the consumer stands in the pin of `recv_view`. -/
inductive PinPhase where
  | idle
  /-- Before a load of `floor_min`, with the rounds left to it. With none
  left the load is the one it surrenders with. -/
  | loading (cursor rounds : ℕ)
  | exchanging (cursor rounds current : ℕ)
  /-- The floor is seen to: the tail comes next. -/
  | advancing (cursor : ℕ)
  deriving DecidableEq, Repr

/-- Where a rebuild of the floor stands, with the floor and the tail it
loaded. -/
inductive Rebuild where
  | scanning (entry tail cursor : ℕ)
  | exchanging (entry tail next : ℕ)
  | done
  deriving DecidableEq, Repr

/-- Where a view stands, by its cursor value. -/
inductive ViewPhase where
  | none
  | live
  /-- The release wrote the FREE header. -/
  | freed
  /-- `unpin_floor` loaded the floor and goes on. -/
  | entered (entry : ℕ)
  | rebuilding (rebuild : Rebuild)
  | released
  deriving DecidableEq, Repr

inductive OpenPhase where
  | idle
  | tailLoaded (tail : ℕ)
  | rebuilding (rebuild : Rebuild)
  deriving DecidableEq, Repr

/-- The rebuild a release is in. -/
def ViewPhase.rebuild : ViewPhase → Rebuild
  | .rebuilding r => r
  | _ => .done

/-- The rebuild an opener is in. -/
def OpenPhase.rebuild : OpenPhase → Rebuild
  | .rebuilding r => r
  | _ => .done

structure PinState where
  tail : ℕ
  pinFloor : ℕ
  slots : ℕ → SlotState
  pin : PinPhase
  views : ℕ → ViewPhase
  openers : ℕ → OpenPhase

/-- One access of whoever is next. -/
inductive PinStep where
  /-- A producer commits into a FREE slot. -/
  | commit (index : ℕ)
  | consumer
  /-- The release of the view with this cursor. -/
  | view (cursor : ℕ)
  | opener (i : ℕ)
  deriving DecidableEq, Repr

namespace PinState

variable (capacity : ℕ)

def setSlot (s : PinState) (index : ℕ) (state : SlotState) : PinState :=
  { s with slots := fun i => if i = index then state else s.slots i }

def setView (s : PinState) (cursor : ℕ) (phase : ViewPhase) : PinState :=
  { s with views := fun w => if w = cursor then phase else s.views w }

def setOpener (s : PinState) (i : ℕ) (phase : OpenPhase) : PinState :=
  { s with openers := fun j => if j = i then phase else s.openers j }

/-- The pin of `recv_view`: the PINNED header, `floor_min`, the tail. -/
def consumer (s : PinState) : PinState :=
  match s.pin with
  | .idle =>
      if s.slots (s.tail % capacity) = .committed then
        { s.setSlot (s.tail % capacity) .pinned with pin := .loading s.tail 32 }
      else s
  | .loading cursor 0 => { s with pin := .advancing cursor }
  | .loading cursor (rounds + 1) =>
      -- "Already at least as low as the new pin": nothing is written.
      if s.pinFloor ≠ PIN_FLOOR_NONE ∧ s.pinFloor ≤ cursor then
        { s with pin := .advancing cursor }
      else { s with pin := .exchanging cursor rounds s.pinFloor }
  | .exchanging cursor rounds current =>
      if s.pinFloor = current then { s with pinFloor := cursor, pin := .advancing cursor }
      else { s with pin := .loading cursor rounds }
  | .advancing cursor =>
      { s.setView cursor .live with
        tail := max s.tail (wrappingAdd cursor 1)
        pin := .idle }

/-- One access of a rebuild, a header of the scan or the exchange: what the
floor is after it, and where the rebuild stands. -/
def rebuild (s : PinState) : Rebuild → ℕ × Rebuild
  | .scanning entry tail cursor =>
      if cursor < tail then
        if s.slots (cursor % capacity) = .pinned then (s.pinFloor, .exchanging entry tail cursor)
        else (s.pinFloor, .scanning entry tail (cursor + 1))
      else (s.pinFloor, .exchanging entry tail PIN_FLOOR_NONE)
  | .exchanging entry _ next =>
      if entry ≠ next ∧ s.pinFloor = entry then (next, .done) else (s.pinFloor, .done)
  | .done => (s.pinFloor, .done)

/-- `release`: the FREE header, then `unpin_floor`. -/
def release (s : PinState) (cursor : ℕ) : PinState :=
  match s.views cursor with
  | .none | .released => s
  | .live => (s.setSlot (cursor % capacity) .free).setView cursor .freed
  | .freed =>
      -- A lower pin still owns the floor: nothing is scanned.
      if s.pinFloor ≠ cursor ∧ s.pinFloor ≠ PIN_FLOOR_NONE then s.setView cursor .released
      else s.setView cursor (.entered s.pinFloor)
  | .entered entry =>
      let lo := if entry = cursor then cursor + 1 else s.tail - capacity
      s.setView cursor (.rebuilding (.scanning entry s.tail (max lo (s.tail - capacity))))
  | .rebuilding .done => s.setView cursor .released
  | .rebuilding r =>
      let (pinFloor, r') := s.rebuild capacity r
      { s.setView cursor (.rebuilding r') with pinFloor }

/-- The floor's part of `recover_from_storage`. -/
def reopen (s : PinState) (i : ℕ) : PinState :=
  match s.openers i with
  | .idle => s.setOpener i (.tailLoaded s.tail)
  | .tailLoaded tail =>
      s.setOpener i (.rebuilding (.scanning s.pinFloor tail (tail - capacity)))
  | .rebuilding .done => s.setOpener i .idle
  | .rebuilding r =>
      let (pinFloor, r') := s.rebuild capacity r
      { s.setOpener i (.rebuilding r') with pinFloor }

def step (s : PinState) : PinStep → PinState
  | .commit index => if s.slots index = .free then s.setSlot index .committed else s
  | .consumer => s.consumer capacity
  | .view cursor => s.release capacity cursor
  | .opener i => s.reopen capacity i

/-- A created region. -/
def created : PinState where
  tail := 0
  pinFloor := PIN_FLOOR_NONE
  slots _ := .free
  pin := .idle
  views _ := .none
  openers _ := .idle

/-- A view the floor has been seen to for: its pin is past `floor_min`, and
its release has not begun. -/
def Secured (s : PinState) (cursor : ℕ) : Prop :=
  s.views cursor = .live ∨ s.pin = .advancing cursor

instance (s : PinState) (cursor : ℕ) : Decidable (s.Secured cursor) :=
  inferInstanceAs (Decidable (_ ∨ _))

/-- **The floor is at most the cursor of every view** whose pin has
completed and whose release has not begun. -/
def FloorBelow (s : PinState) : Prop := ∀ cursor, s.views cursor = .live → s.pinFloor ≤ cursor

/-- Where the exchange of a rebuild takes the floor away, no view has been
secured since the rebuild loaded the tail. -/
def Undisturbed (s : PinState) : Rebuild → Prop
  | .exchanging entry tail next =>
      entry ≠ next → s.pinFloor = entry → next = PIN_FLOOR_NONE →
        ∀ cursor ≤ s.tail, s.Secured cursor → cursor < tail
  | _ => True

/-- `floor_min` that surrenders leaves a floor that is low enough, and fewer
than `2^64` views are received. -/
def Settled (s : PinState) : PinPhase → Prop
  | .loading cursor 0 => s.pinFloor ≤ cursor
  | .advancing cursor => cursor + 1 < wordCount
  | _ => True

/-- The condition on a step. -/
def Careful (s : PinState) : PinStep → Prop
  | .commit _ => True
  | .consumer => s.Settled s.pin
  | .view cursor => s.Undisturbed (s.views cursor).rebuild
  | .opener i => s.Undisturbed (s.openers i).rebuild

instance (s : PinState) : (r : Rebuild) → Decidable (s.Undisturbed r)
  | .exchanging _ _ _ => inferInstanceAs (Decidable (_ → _ → _ → ∀ _ ≤ _, _ → _))
  | .scanning _ _ _ | .done => isTrue trivial

instance (s : PinState) : (phase : PinPhase) → Decidable (s.Settled phase)
  | .loading _ 0 => inferInstanceAs (Decidable (_ ≤ _))
  | .advancing _ => inferInstanceAs (Decidable (_ < _))
  | .idle | .loading _ (_ + 1) | .exchanging _ _ _ => isTrue trivial

instance (s : PinState) : (a : PinStep) → Decidable (s.Careful a)
  | .commit _ => isTrue trivial
  | .consumer => inferInstanceAs (Decidable (s.Settled _))
  | .view _ | .opener _ => inferInstanceAs (Decidable (s.Undisturbed _))

/-! ## The invariant -/

/-- The consumer is pinning this cursor. -/
def Pinning (s : PinState) (cursor : ℕ) : Prop :=
  match s.pin with
  | .idle => False
  | .loading c _ | .exchanging c _ _ | .advancing c => cursor = c

/-- What a rebuild has established: every secured view is at or past the
cursor the scan has come to, and past what it found. -/
def Scanned (s : PinState) : Rebuild → Prop
  | .scanning _ tail cursor =>
      cursor ≤ tail ∧ tail ≤ s.tail ∧ ∀ w, s.Secured w → cursor ≤ w
  | .exchanging _ tail next =>
      (next = PIN_FLOOR_NONE ∨ next < tail) ∧ tail ≤ s.tail ∧
        ∀ w, s.Secured w → w < tail → next ≤ w
  | .done => True

def ViewOk (s : PinState) (cursor : ℕ) : ViewPhase → Prop
  | .entered entry => entry = cursor → ∀ w, s.Secured w → cursor < w
  | .rebuilding r => s.Scanned r
  | _ => True

def OpenOk (s : PinState) : OpenPhase → Prop
  | .idle => True
  | .tailLoaded tail => tail ≤ s.tail
  | .rebuilding r => s.Scanned r

structure Inv (s : PinState) : Prop where
  pos : 0 < capacity
  word : s.tail < wordCount
  taken : ∀ w, s.views w ≠ .none → w < s.tail
  pinning : ∀ c, s.Pinning c → c = s.tail
  lap : ∀ w, s.views w = .live → s.tail ≤ w + capacity
  apart : ∀ c, s.Pinning c → ∀ w, s.views w = .live → c < w + capacity
  held : ∀ w, s.views w = .live → s.slots (w % capacity) = .pinned
  heldPin : ∀ c, s.Pinning c → s.slots (c % capacity) = .pinned
  /-- An exchange is tried only where the floor was too high. -/
  high : ∀ c rounds current, s.pin = .exchanging c rounds current →
    current = PIN_FLOOR_NONE ∨ c < current
  floor : ∀ w, s.Secured w → s.pinFloor ≤ w
  views : ∀ w, s.ViewOk w (s.views w)
  openers : ∀ i, s.OpenOk (s.openers i)

variable {capacity : ℕ} {s s' : PinState} {w i : ℕ}

theorem Secured.lap (hinv : Inv capacity s) (h : s.Secured w) : s.tail ≤ w + capacity := by
  rcases h with h | h
  · exact hinv.lap w h
  · have := hinv.pinning w (by
      unfold Pinning
      rw [h])
    omega

theorem Secured.le_tail (hinv : Inv capacity s) (h : s.Secured w) : w ≤ s.tail := by
  rcases h with h | h
  · have := hinv.taken w (by
      rw [h]
      exact nofun)
    omega
  · have := hinv.pinning w (by
      unfold Pinning
      rw [h])
    omega

/-! ### What rebuilds know outlives every step

The tail only grows, and what gets secured is at the tail or past it. -/

structure Grows (s s' : PinState) : Prop where
  tail : s.tail ≤ s'.tail
  secured : ∀ w, s'.Secured w → s.Secured w ∨ s.tail ≤ w

theorem Scanned.grow {r : Rebuild} (h : s.Scanned r) (hg : Grows s s') : s'.Scanned r := by
  have htail := hg.tail
  cases r with
  | scanning entry tail cursor =>
      obtain ⟨hle, hle', hsec⟩ := h
      refine ⟨hle, by omega, fun w hw => ?_⟩
      rcases hg.secured w hw with hw | hw
      · exact hsec w hw
      · omega
  | exchanging entry tail next =>
      obtain ⟨hnext, hle, hsec⟩ := h
      refine ⟨hnext, by omega, fun w hw hlt => ?_⟩
      rcases hg.secured w hw with hw | hw
      · exact hsec w hw hlt
      · omega
  | done => trivial

theorem ViewOk.grow {phase : ViewPhase} (h : s.ViewOk w phase) (hlt : w < s.tail)
    (hg : Grows s s') : s'.ViewOk w phase := by
  cases phase with
  | entered entry =>
      intro hentry v hv
      rcases hg.secured v hv with hv | hv
      · exact h hentry v hv
      · omega
  | rebuilding r => exact Scanned.grow h hg
  | none | live | freed | released => trivial

theorem OpenOk.grow {phase : OpenPhase} (h : s.OpenOk phase) (hg : Grows s s') :
    s'.OpenOk phase := by
  cases phase with
  | idle => trivial
  | tailLoaded tail => exact Nat.le_trans h hg.tail
  | rebuilding r => exact Scanned.grow h hg

/-- What is known of the views and the openers outlives a step that leaves
them where they are. -/
theorem Inv.views_grow (h : Inv capacity s) (hg : Grows s s') (hviews : s'.views w = s.views w) :
    s'.ViewOk w (s'.views w) := by
  rw [hviews]
  by_cases hnone : s.views w = .none
  · rw [hnone]
    trivial
  · exact (h.views w).grow (h.taken w hnone) hg

theorem Inv.openers_grow (h : Inv capacity s) (hg : Grows s s')
    (hopeners : s'.openers i = s.openers i) : s'.OpenOk (s'.openers i) := by
  rw [hopeners]
  exact (h.openers i).grow hg

/-! ### The moves -/

/-- A slot of no pin may change. -/
theorem Inv.setSlot (h : Inv capacity s) {state : SlotState}
    (hview : ∀ w, s.views w = .live → w % capacity ≠ i)
    (hpin : ∀ c, s.Pinning c → c % capacity ≠ i) : Inv capacity (s.setSlot i state) where
  pos := h.pos
  word := h.word
  taken := h.taken
  pinning := h.pinning
  lap := h.lap
  apart := h.apart
  held w hw := (if_neg (hview w hw)).trans (h.held w hw)
  heldPin c hc := (if_neg (hpin c hc)).trans (h.heldPin c hc)
  high := h.high
  floor := h.floor
  views := h.views
  openers := h.openers

/-- The floor may move to where it is still low enough. -/
theorem Inv.setFloor (h : Inv capacity s) {pinFloor : ℕ}
    (hfloor : ∀ w, s.Secured w → pinFloor ≤ w) : Inv capacity { s with pinFloor } :=
  { h with floor := hfloor }

theorem Inv.setOpener (h : Inv capacity s) {phase : OpenPhase} (hok : s.OpenOk phase) :
    Inv capacity (s.setOpener i phase) where
  pos := h.pos
  word := h.word
  taken := h.taken
  pinning := h.pinning
  lap := h.lap
  apart := h.apart
  held := h.held
  heldPin := h.heldPin
  high := h.high
  floor := h.floor
  views := h.views
  openers j := by
    show s.OpenOk (if j = i then phase else s.openers j)
    split
    · exact hok
    · exact h.openers j

/-- A view moves on, to a phase in which it is not live. -/
theorem Inv.setView (h : Inv capacity s) {phase : ViewPhase} (hlt : w < s.tail)
    (hdead : phase ≠ .live) (hok : s.ViewOk w phase) : Inv capacity (s.setView w phase) := by
  have hlive (v : ℕ) (hv : (s.setView w phase).views v = .live) : s.views v = .live := by
    unfold PinState.setView at hv
    simp only at hv
    split at hv
    · exact absurd hv hdead
    · exact hv
  have hsec (v : ℕ) (hv : (s.setView w phase).Secured v) : s.Secured v := hv.imp (hlive v) id
  have hgrow : Grows s (s.setView w phase) := ⟨Nat.le_refl _, fun v hv => .inl (hsec v hv)⟩
  refine
    { pos := h.pos
      word := h.word
      taken := fun v hv => ?_
      pinning := h.pinning
      lap := fun v hv => h.lap v (hlive v hv)
      apart := fun c hc v hv => h.apart c hc v (hlive v hv)
      held := fun v hv => h.held v (hlive v hv)
      heldPin := h.heldPin
      high := h.high
      floor := fun v hv => h.floor v (hsec v hv)
      views := fun v => ?_
      openers := fun j => h.openers_grow hgrow rfl }
  · by_cases hvw : v = w
    · rw [hvw]
      exact hlt
    · refine h.taken v ?_
      unfold PinState.setView at hv
      simp only [if_neg hvw] at hv
      exact hv
  · by_cases hvw : v = w
    · subst hvw
      have he : (s.setView v phase).views v = phase := if_pos rfl
      rw [he]
      exact hok.grow hlt hgrow
    · exact h.views_grow hgrow (if_neg hvw)

/-- The consumer moves on within its pin: what is live stays live, and what
gets secured is what it is pinning. -/
theorem Inv.setPin (h : Inv capacity s) {pin : PinPhase}
    (hsame : ∀ c, ({ s with pin } : PinState).Pinning c → s.Pinning c)
    (hhigh : ∀ c rounds current, pin = .exchanging c rounds current →
      current = PIN_FLOOR_NONE ∨ c < current)
    (hfloor : ∀ c, pin = .advancing c → s.pinFloor ≤ c) : Inv capacity { s with pin } := by
  have hgrow : Grows s { s with pin } := by
    refine ⟨Nat.le_refl _, fun v hv => ?_⟩
    rcases hv with hv | hv
    · exact .inl (.inl hv)
    · have := h.pinning v (hsame v (by
        unfold Pinning
        rw [hv]))
      omega
  exact
    { pos := h.pos
      word := h.word
      taken := h.taken
      pinning := fun c hc => h.pinning c (hsame c hc)
      lap := h.lap
      apart := fun c hc => h.apart c (hsame c hc)
      held := h.held
      heldPin := fun c hc => h.heldPin c (hsame c hc)
      high := hhigh
      floor := fun v hv => hv.elim (fun hv => h.floor v (.inl hv)) (hfloor v)
      views := fun v => h.views_grow hgrow rfl
      openers := fun j => h.openers_grow hgrow rfl }

/-- The slot at the tail is COMMITTED, so no live view is a lap behind. -/
theorem Inv.apart_of_committed (h : Inv capacity s)
    (hcom : s.slots (s.tail % capacity) = .committed) (hlive : s.views w = .live) :
    s.tail < w + capacity ∧ w % capacity ≠ s.tail % capacity := by
  have hlap := h.lap w hlive
  have hheld := h.held w hlive
  have hlt := h.taken w (by
    rw [hlive]
    exact nofun)
  have hapart : s.tail < w + capacity := by
    rcases Nat.lt_or_ge s.tail (w + capacity) with hlt | hge
    · exact hlt
    · rw [show s.tail = w + capacity from by omega, Window.add_length_mod, hheld] at hcom
      exact absurd hcom nofun
  exact ⟨hapart, Window.mod_ne (n := capacity) (Nat.le_refl w) (by omega) (Nat.le_of_lt hlt) hapart
    (by omega)⟩

/-- **The PINNED header.** -/
theorem Inv.pinHeader (h : Inv capacity s) (hcom : s.slots (s.tail % capacity) = .committed) :
    Inv capacity { s.setSlot (s.tail % capacity) .pinned with pin := .loading s.tail 32 } := by
  have hsec (v : ℕ) (hv : s.views v = .live ∨ PinPhase.loading s.tail 32 = .advancing v) :
      s.Secured v := hv.elim .inl nofun
  exact
    { pos := h.pos
      word := h.word
      taken := h.taken
      pinning := fun c hc => hc
      lap := h.lap
      apart := by
        rintro c rfl v hv
        exact (h.apart_of_committed hcom hv).1
      held := fun v hv =>
        (if_neg (h.apart_of_committed hcom hv).2).trans (h.held v hv)
      heldPin := by
        rintro c rfl
        exact if_pos rfl
      high := nofun
      floor := fun v hv => h.floor v (hsec v hv)
      views := fun v => h.views_grow ⟨Nat.le_refl _, fun v hv => .inl (hsec v hv)⟩ rfl
      openers := fun j => h.openers_grow ⟨Nat.le_refl _, fun v hv => .inl (hsec v hv)⟩ rfl }

/-- A floor that is too high for the cursor at the tail secures nothing. -/
theorem Inv.not_secured_of_exchanging (h : Inv capacity s) {cursor rounds : ℕ}
    (hpin : s.pin = .exchanging cursor rounds s.pinFloor) : ¬ s.Secured w := by
  intro hw
  have hfloor := h.floor w hw
  have hword := h.word
  have htail := h.pinning cursor (by
    unfold Pinning
    rw [hpin])
  rcases hw with hw | hw
  · have hlt := h.taken w (by
      rw [hw]
      exact nofun)
    rcases h.high _ _ _ hpin with hhigh | hhigh
    · unfold PIN_FLOOR_NONE at hhigh
      omega
    · omega
  · rw [hpin] at hw
    cases hw

/-- **The tail moves over the pinned slot**, and its view is live. -/
theorem Inv.pinned (h : Inv capacity s) {cursor : ℕ} (hpin : s.pin = .advancing cursor)
    (hword : cursor + 1 < wordCount) :
    Inv capacity { s.setView cursor .live with tail := cursor + 1, pin := .idle } := by
  have hpos := h.pos
  have hpinning : s.Pinning cursor := by
    unfold Pinning
    rw [hpin]
  have htail := h.pinning cursor hpinning
  have hview (v : ℕ) (hv : (if v = cursor then ViewPhase.live else s.views v) = .live) :
      v = cursor ∨ s.views v = .live := by
    split at hv
    next he => exact .inl he
    next => exact .inr hv
  have hsec (v : ℕ) (hv : v = cursor ∨ s.views v = .live) : s.Secured v :=
    hv.symm.imp_right fun (he : v = cursor) => he ▸ hpin
  have hgrow : Grows s { s.setView cursor .live with tail := cursor + 1, pin := .idle } :=
    ⟨by show s.tail ≤ cursor + 1; omega,
      fun v hv => .inl (hsec v (hv.elim (hview v) nofun))⟩
  exact
    { pos := h.pos
      word := hword
      taken := fun v hv => by
        show v < cursor + 1
        by_cases he : v = cursor
        · omega
        · have := h.taken v ((if_neg he).symm.trans_ne hv)
          omega
      pinning := fun c hc => hc.elim
      lap := fun v hv => by
        show cursor + 1 ≤ v + capacity
        rcases hview v hv with rfl | hv
        · omega
        · have := h.apart cursor hpinning v hv
          omega
      apart := fun c hc => hc.elim
      held := fun v hv => by
        rcases hview v hv with rfl | hv
        · exact h.heldPin v hpinning
        · exact h.held v hv
      heldPin := fun c hc => hc.elim
      high := nofun
      floor := fun v hv => h.floor v (hsec v (hv.elim (hview v) nofun))
      views := fun v => by
        by_cases he : v = cursor
        · have : (if v = cursor then ViewPhase.live else s.views v) = .live := if_pos he
          show PinState.ViewOk _ v (if v = cursor then ViewPhase.live else s.views v)
          rw [this]
          trivial
        · exact h.views_grow hgrow (if_neg he)
      openers := fun j => h.openers_grow hgrow rfl }

/-- **An access of the consumer** keeps the invariant. -/
theorem Inv.consumer (h : Inv capacity s) (hset : s.Settled s.pin) :
    Inv capacity (s.consumer capacity) := by
  unfold PinState.consumer
  split
  next hpin =>
    split
    next hcom => exact h.pinHeader hcom
    next => exact h
  next cursor hpin =>
    -- The surrender: whatever the load says, the pin goes on.
    rw [hpin] at hset
    refine h.setPin (fun c hc => ?_) nofun (fun c hc => ?_)
    · unfold Pinning
      rw [hpin]
      exact hc
    · cases hc
      exact hset
  next cursor rounds hpin =>
    have hsame (c : ℕ) (hc : c = cursor) : s.Pinning c := by
      unfold Pinning
      rw [hpin]
      exact hc
    split
    next hlow =>
      refine h.setPin (fun c hc => hsame c hc) nofun (fun c hc => ?_)
      cases hc
      exact hlow.2
    next hhigh =>
      refine h.setPin (fun c hc => hsame c hc) (fun c _ current hc => ?_) nofun
      cases hc
      rcases Nat.lt_or_ge cursor s.pinFloor with hlt | hge
      · exact .inr hlt
      · exact .inl (not_not.1 fun hne => hhigh ⟨hne, hge⟩)
  next cursor rounds current hpin =>
    have hsame (c : ℕ) (hc : c = cursor) : s.Pinning c := by
      unfold Pinning
      rw [hpin]
      exact hc
    split
    next hcur =>
      subst hcur
      have hlow : Inv capacity { s with pinFloor := cursor } :=
        h.setFloor fun v hv => (h.not_secured_of_exchanging hpin hv).elim
      refine hlow.setPin (fun c hc => hsame c hc) nofun (fun c hc => ?_)
      cases hc
      exact Nat.le_refl _
    next => exact h.setPin (fun c hc => hsame c hc) nofun nofun
  next cursor hpin =>
    rw [hpin] at hset
    have htail := h.pinning cursor (by
      unfold Pinning
      rw [hpin])
    have hsum : max s.tail (wrappingAdd cursor 1) = cursor + 1 := by
      rw [wrappingAdd_of_lt hset]
      omega
    rw [hsum]
    exact h.pinned hpin hset

/-- **One access of a rebuild** leaves the floor low enough, and what it
says is found is found. -/
theorem Inv.rebuild (h : Inv capacity s) {r : Rebuild} (hr : s.Scanned r)
    (hund : s.Undisturbed r) :
    (∀ w, s.Secured w → (s.rebuild capacity r).1 ≤ w) ∧
      s.Scanned (s.rebuild capacity r).2 := by
  cases r with
  | scanning entry tail cursor =>
      obtain ⟨hle, hle', hsec⟩ := hr
      simp only [PinState.rebuild]
      split
      next hlt =>
        split
        next => exact ⟨h.floor, .inr hlt, hle', fun w hw _ => hsec w hw⟩
        next hfree =>
          refine ⟨h.floor, hlt, hle', fun w hw => ?_⟩
          have hge := hsec w hw
          -- The slot that was read is pinned where its cursor is secured.
          have hne : cursor ≠ w := by
            rintro rfl
            rcases hw with hw | hw
            · exact hfree (h.held cursor hw)
            · refine hfree (h.heldPin cursor ?_)
              unfold Pinning
              rw [hw]
          omega
      next hge =>
        refine ⟨h.floor, .inl rfl, hle', fun w hw hlt => ?_⟩
        have := hsec w hw
        omega
  | exchanging entry tail next =>
      obtain ⟨hnext, hle, hsec⟩ := hr
      simp only [PinState.rebuild]
      split
      next hwon =>
        refine ⟨fun w hw => ?_, trivial⟩
        rcases Nat.lt_or_ge w tail with hlt | hge
        · exact hsec w hw hlt
        · rcases hnext with hnone | hnext
          · have := hund hwon.1 hwon.2 hnone w (hw.le_tail h) hw
            omega
          · show next ≤ w
            omega
      next => exact ⟨h.floor, trivial⟩
  | done => exact ⟨h.floor, trivial⟩

theorem Inv.release (h : Inv capacity s) (hund : s.Undisturbed (s.views w).rebuild) :
    Inv capacity (s.release capacity w) := by
  have hlt (hne : s.views w ≠ .none) : w < s.tail := h.taken w hne
  have hok := h.views w
  unfold PinState.release
  split
  next => exact h
  next => exact h
  next hview =>
    -- The view is no longer live: its slot may go.
    replace hlt := hlt (by rw [hview]; exact nofun)
    have hlap := h.lap w hview
    have hfreed : Inv capacity (s.setView w .freed) := h.setView hlt nofun trivial
    refine hfreed.setSlot (fun v hv => ?_) (fun c hc => ?_)
    · unfold PinState.setView at hv
      simp only at hv
      split at hv
      next => cases hv
      next hne =>
        have h1 := h.taken v (by
          rw [hv]
          exact nofun)
        have h2 := h.lap v hv
        exact Window.mod_ne (n := capacity) (Nat.sub_le_of_le_add h2) (by omega)
          (Nat.sub_le_of_le_add hlap) (by omega) hne
    · have htail := h.pinning c hc
      have hapart := h.apart c hc w hview
      exact (Window.mod_ne (n := capacity) (Nat.le_refl w) (by omega) (by omega) hapart
        (by omega)).symm
  next hview =>
    replace hlt := hlt (by rw [hview]; exact nofun)
    split
    next => exact h.setView hlt nofun trivial
    next hentry =>
      refine h.setView hlt nofun fun he v hv => ?_
      -- The floor is this view's own cursor, which nothing secured is at.
      have hfloor := h.floor v hv
      have hne : v ≠ w := by
        rintro rfl
        rcases hv with hv | hv
        · rw [hview] at hv
          cases hv
        · have := h.pinning v (by
            unfold Pinning
            rw [hv])
          omega
      omega
  next entry hview =>
    replace hlt := hlt (by rw [hview]; exact nofun)
    rw [hview] at hok
    refine h.setView hlt nofun ⟨?_, Nat.le_refl _, fun v hv => ?_⟩
    · split <;> omega
    · have hlap := hv.lap h
      split
      next he =>
        have := hok he v hv
        omega
      next => omega
  next hview =>
    exact h.setView (hlt (by rw [hview]; exact nofun)) nofun trivial
  next r _ hview =>
    replace hlt := hlt (by rw [hview]; exact nofun)
    rw [hview] at hok hund
    obtain ⟨hfloor, hscan⟩ := h.rebuild hok hund
    exact (h.setFloor hfloor).setView hlt nofun hscan

theorem Inv.reopen (h : Inv capacity s) (hund : s.Undisturbed (s.openers i).rebuild) :
    Inv capacity (s.reopen capacity i) := by
  have hok := h.openers i
  unfold PinState.reopen
  split
  next => exact h.setOpener (Nat.le_refl _)
  next tail hopen =>
    rw [hopen] at hok
    replace hok : tail ≤ s.tail := hok
    -- A secured view is never a whole lap behind.
    refine h.setOpener ⟨Nat.sub_le _ _, hok, fun v hv => ?_⟩
    have := hv.lap h
    omega
  next => exact h.setOpener trivial
  next r _ hopen =>
    rw [hopen] at hok hund
    obtain ⟨hfloor, hscan⟩ := h.rebuild hok hund
    exact (h.setFloor hfloor).setOpener hscan

/-- **Every careful step keeps the invariant.** -/
theorem Inv.step (h : Inv capacity s) (a : PinStep) (hcare : s.Careful a) :
    Inv capacity (s.step capacity a) := by
  cases a with
  | commit index =>
      show Inv capacity (if s.slots index = .free then s.setSlot index .committed else s)
      split
      next hfree =>
        refine h.setSlot (fun v hv he => ?_) (fun c hc he => ?_)
        · have := h.held v hv
          rw [he, hfree] at this
          cases this
        · have := h.heldPin c hc
          rw [he, hfree] at this
          cases this
      next => exact h
  | consumer => exact h.consumer hcare
  | view cursor => exact h.release hcare
  | opener i => exact h.reopen hcare

theorem created_inv (hpos : 0 < capacity) : Inv capacity created where
  pos := hpos
  word := by decide
  taken _ h := (h rfl).elim
  pinning _ h := h.elim
  lap _ h := nomatch h
  apart _ h := h.elim
  held _ h := nomatch h
  heldPin _ h := h.elim
  high := nofun
  floor _ h := h.elim nofun nofun
  views _ := trivial
  openers _ := trivial

end PinState

open PinState

/-- **The pin floor stays at or below every live view** in every run in which
no rebuild takes the floor away from a view secured after the rebuild loaded
the tail, and no pin gives up on a floor that is too high. -/
theorem pin_floor_below {capacity : ℕ} (hpos : 0 < capacity) {acts : List PinStep}
    (hcare : Run.Meets (PinState.step capacity) Careful created acts) :
    FloorBelow (Run.exec (PinState.step capacity) created acts) := by
  intro cursor hlive
  have hinv : Inv capacity (Run.exec (PinState.step capacity) created acts) :=
    hcare.invariant (Inv capacity) (fun _ a hinv hc => hinv.step a hc) (created_inv hpos)
  exact hinv.floor cursor (.inl hlive)

/-- Two views on a ring of two slots; the first is released while the second
is pinned, and an opener looks on. -/
def samplePins : List PinStep :=
  [.commit 0, .commit 1] ++ List.replicate 8 .consumer ++
    [.opener 0, .view 0, .opener 0, .view 0, .view 0, .view 0, .opener 0, .opener 0, .view 0]

theorem pin_floor_below_two :
    (Run.exec (PinState.step 2) created samplePins).views 1 = .live ∧
      (Run.exec (PinState.step 2) created samplePins).pinFloor = 1 ∧
      FloorBelow (Run.exec (PinState.step 2) created samplePins) :=
  ⟨by decide +kernel, by decide +kernel, pin_floor_below (by decide) (by decide +kernel)⟩

/-- The first view is released: its scan up to the tail finds nothing. Then
the second is pinned, whose floor step finds the first view's floor low
enough; and then the release takes that floor away. -/
def racingPins : List PinStep :=
  [.commit 0, .commit 1] ++ List.replicate 4 .consumer ++
    [.view 0, .view 0, .view 0, .view 0] ++ List.replicate 3 .consumer ++ [.view 0]

/-- **A release takes the floor away from a live view.** -/
theorem pin_floor_taken :
    (Run.exec (PinState.step 2) created racingPins).views 1 = .live ∧
      (Run.exec (PinState.step 2) created racingPins).pinFloor = PIN_FLOOR_NONE ∧
      ¬ FloorBelow (Run.exec (PinState.step 2) created racingPins) := by
  have hlive : (Run.exec (PinState.step 2) created racingPins).views 1 = .live := by
    decide +kernel
  have hnone : (Run.exec (PinState.step 2) created racingPins).pinFloor = PIN_FLOOR_NONE := by
    decide +kernel
  refine ⟨hlive, hnone, fun h => ?_⟩
  have hle := h 1 hlive
  rw [hnone] at hle
  exact absurd hle (by decide)

end Dsline
