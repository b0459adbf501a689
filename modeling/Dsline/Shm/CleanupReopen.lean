import Dsline.Shm.Accounting
import Dsline.Shm.OpenSpec
/-!
# Explicit cleanup and reopen

`reclaim_stale` and a fresh open both rebuild the bias, the floor and the
depth of a single-producer handle from the slots. The open leaves PINNED
slots out of the bias, and frees dead WRITING slots inside the window too;
the cleanup does neither. So they agree where the cursors count all that the
cleanup leaves, or where it leaves no PINNED slot and no dead WRITING one.
-/

namespace Dsline

open PersistentShmChannel Effect

/-- Two searches, one of them for less, find the same exactly where what the
other finds first is among it. -/
theorem find?_getD_eq_iff {α : Type} {p q : α → Bool} {xs : List α} {default : α}
    (hqp : ∀ x, q x = true → p x = true) (hdefault : default ∉ xs) :
    (xs.find? p).getD default = (xs.find? q).getD default ↔
      ∀ x, xs.find? p = some x → q x = true := by
  induction xs with
  | nil => exact iff_of_true rfl fun x h => nomatch h
  | cons x xs ih =>
      rw [List.mem_cons, not_or] at hdefault
      cases hq : q x with
      | true =>
          rw [List.find?_cons_of_pos (hqp x hq), List.find?_cons_of_pos hq]
          refine iff_of_true rfl fun y hy => ?_
          rwa [← Option.some.inj hy]
      | false =>
          have hq' : ¬ q x = true := by rw [hq]; exact Bool.false_ne_true
          rw [List.find?_cons_of_neg hq']
          by_cases hp : p x = true
          · rw [List.find?_cons_of_pos hp]
            refine iff_of_false (fun he => ?_) fun h => hq' (h x rfl)
            -- What the narrower search finds is another element.
            cases hfind : xs.find? q with
            | none =>
                rw [hfind] at he
                exact hdefault.1 he.symm
            | some y =>
                have hxy : x = y := by rw [hfind] at he; exact he
                exact hq' (hxy ▸ List.find?_some hfind)
          · rw [List.find?_cons_of_neg hp]
            exact ih hdefault.2

namespace Region

variable {host : Host} {region : Region} {among among' : SlotState → Bool} {i index : ℕ}
  {indices : List ℕ}

/-- A freed slot is FREE. -/
theorem state_freeDead_of_dead (hfree : among .free = false) (hi : i ∈ indices)
    (h : region.dead host among i = true) :
    (region.freeDead host among indices).state i = .free := by
  induction indices generalizing region with
  | nil => cases hi
  | cons index indices ih =>
      by_cases hindex : i = index
      · subst hindex
        have hone : region.freeOne host among i = region.forceRelease i := by
          rw [freeOne, h, if_pos rfl]
        have hfreed : (region.freeOne host among i).state i = .free := by
          rw [hone, forceRelease_free (.inr rfl)]
        have halive : (region.freeOne host among i).dead host among i = false :=
          dead_freeOne hfree fun _ h => h
        exact (congrArg SlotHeader.state (header_freeDead_of_alive halive)).trans hfreed
      · rcases List.mem_cons.1 hi with rfl | hi
        · exact absurd rfl hindex
        · refine ih hi ?_
          rw [dead_congr (header_freeOne_of_ne hindex), h]

/-- **The slots behind a sweep.** -/
theorem state_freeDead (hfree : among .free = false) :
    (region.freeDead host among indices).state i =
      if i ∈ indices ∧ region.dead host among i = true then .free else region.state i := by
  split
  · rename_i h
    exact state_freeDead_of_dead hfree h.1 h.2
  · rename_i h
    refine congrArg SlotHeader.state ?_
    by_cases hi : i ∈ indices
    · exact header_freeDead_of_alive (Bool.eq_false_of_not_eq_true fun hdead => h ⟨hi, hdead⟩)
    · exact header_freeDead_of_not_mem hi

/-- **What is dead behind a sweep** was dead before, and was not freed. -/
theorem dead_freeDead_iff (hfree : among .free = false) (hfree' : among' .free = false) :
    (region.freeDead host among indices).dead host among' i = true ↔
      region.dead host among' i = true ∧ ¬ (i ∈ indices ∧ region.dead host among i = true) := by
  by_cases h : i ∈ indices ∧ region.dead host among i = true
  · refine iff_of_false (fun hdead => ?_) fun hdead => hdead.2 h
    have hstate := dead_state hdead
    rw [state_freeDead_of_dead hfree h.1 h.2, hfree'] at hstate
    cases hstate
  · have hsame : (region.freeDead host among indices).header i = region.header i := by
      by_cases hi : i ∈ indices
      · exact header_freeDead_of_alive (Bool.eq_false_of_not_eq_true fun hdead => h ⟨hi, hdead⟩)
      · exact header_freeDead_of_not_mem hi
    rw [dead_congr hsame]
    exact ⟨fun hdead => ⟨hdead, h⟩, And.left⟩

/-- The occupied slots, counted. -/
theorem length_occupied (region : Region) (capacity : ℕ) :
    (occupiedSlotHeaders region capacity).length =
      (List.range capacity).countP fun i => isOccupied (region.state i) := by
  rw [occupiedSlotHeaders, ← List.countP_eq_length_filter, List.countP_map]
  rfl

/-- A COMMITTED or WRITING slot. -/
def isUnread (state : SlotState) : Bool :=
  match state with
  | .committed | .writing => true
  | _ => false

theorem filter_occupied (headers : List SlotHeader) :
    (headers.filter fun header => isOccupied header.state).length =
      (headers.filter fun header => isOccupied header.state).countP
          (fun header => header.state = .pinned) +
        headers.countP fun header => isUnread header.state := by
  rw [List.length_eq_countP_add_countP fun header : SlotHeader =>
    decide (header.state = .pinned)]
  refine congrArg _ ?_
  rw [List.countP_filter]
  refine List.countP_congr fun header _ => ?_
  cases header.state <;> decide

/-- The bias pool of an open: the occupied slots less the PINNED ones. -/
theorem length_unread (region : Region) (capacity : ℕ) :
    (occupiedSlotHeaders region capacity).length -
        (occupiedSlotHeaders region capacity).countP (fun header => header.state = .pinned) =
      (List.range capacity).countP fun i => isUnread (region.state i) := by
  have hsplit := filter_occupied ((List.range capacity).map region.header)
  rw [List.countP_map] at hsplit
  rw [occupiedSlotHeaders, hsplit, Nat.add_sub_cancel_left]
  rfl

end Region

/-! ## What the cleanup leaves -/

namespace World

variable {host : Host} {w v : World} {i n : ℕ}

/-- The state of a slot once every dead slot outside the window is freed. -/
def kept (host : Host) (w : World) (i : ℕ) : SlotState :=
  if i ∈ w.uncovered ∧ w.region.dead host Region.isStale i = true then .free else w.region.state i

/-- The occupied slots among these. -/
def keptSlots (host : Host) (w : World) : ℕ :=
  (List.range w.chan.config.capacity).countP fun i => isOccupied (w.kept host i)

/-- The first cursor behind the tail on a PINNED slot among these. -/
def keptPin (host : Host) (w : World) : Option ℕ :=
  let lo := w.region.tail - w.region.capacity
  (List.range' lo (w.region.tail - lo)).find? fun cursor =>
    w.kept host (cursor % w.region.capacity) = .pinned

/-- The slots a guard counts: from the floor, or the tail below it, to the
head, and the bias. -/
def booked (w : World) (floor bias : ℕ) : ℕ :=
  let floorEff := if floor = PIN_FLOOR_NONE then w.region.tail else min floor w.region.tail
  min (w.region.head - floorEff + bias) w.chan.config.capacity

/-- The slots the cursors count. -/
def depth (w : World) : ℕ := wrappingSub w.region.head w.region.tail

/-- **When cleanup and reopen agree.** -/
structure CleansExactly (host : Host) (w : World) : Prop where
  /-- The cursors count all that is left, or no PINNED slot is left and no
  dead WRITING slot lies in the window. -/
  slots : w.keptSlots host ≤ w.depth ∨
    ∀ i < w.chan.config.capacity, w.kept host i ≠ .pinned ∧
      ¬ (w.kept host i = .writing ∧ w.region.dead host Region.isWriting i = true)
  /-- The first PINNED slot left is not dead. -/
  pin : ∀ cursor, w.keptPin host = some cursor →
    w.region.dead host Region.isPinned (cursor % w.region.capacity) = false
  /-- The bias and the floor before the cleanup count the freed slots, and
  else what the slots left count. -/
  guard : w.booked w.region.pinFloor w.chan.recoveryBias =
    w.booked ((w.keptPin host).getD PIN_FLOOR_NONE) (w.keptSlots host - w.depth) + w.stale host

/-- **The cleanup agrees with a fresh open** of the region it leaves, and its
send guard admits the freed slots on top of what it admitted before. -/
structure AgreesWithOpen (host : Host) (w : World) (n : ℕ) (v : World) : Prop where
  reopened : ∃ u, «open» host w.chan.config v.region = .ok () u ∧
    v.chan.recoveryBias = u.chan.recoveryBias ∧ v.chan.floorCursor = u.chan.floorCursor ∧
      v.chan.len = u.chan.len
  guard : v.chan.config.capacity - v.chan.guardLen =
    w.chan.config.capacity - (w.refreshed w.depth).chan.guardLen + n

end World

namespace PersistentShmChannel

open World

variable {host : Host} {w v : World} {d n : ℕ}

/-- A rebuilt floor is the first PINNED slot behind the tail. -/
theorem floorRebuilt_pinFloor :
    (floorRebuilt w).region.pinFloor = w.region.scanPinFloor w.region.tail := by
  simp only [floorRebuilt, Region.floorCas]
  split
  · rw [if_pos trivial]
  · rename_i h
    exact not_not.1 h

theorem swept_state (i : ℕ) : (swept host w d).region.state i = w.kept host i := by
  rw [kept, ← Region.state_freeDead rfl, Region.state, Region.state,
    (swept_settled host w d).2.2.1]

theorem kept_eq : (fun i => (w.region.freeDead host Region.isStale w.uncovered).state i) =
    w.kept host :=
  funext fun _ => Region.state_freeDead rfl

theorem swept_floor : (swept host w d).chan.floorCursor =
    (w.keptPin host).getD PIN_FLOOR_NONE := by
  obtain ⟨-, htail, -, hcapacity⟩ :=
    Region.freeDead_words host Region.isStale w.uncovered w.region
  refine floorRebuilt_pinFloor.trans ?_
  show Region.scanPinFloor (w.region.freeDead host Region.isStale w.uncovered)
    (w.region.freeDead host Region.isStale w.uncovered).tail = _
  rw [htail, Region.scanPinFloor, Region.firstPinned, hcapacity, keptPin, ← kept_eq]

theorem swept_bias : (swept host w d).chan.recoveryBias = w.keptSlots host - d := by
  rw [keptSlots, ← kept_eq]
  exact congrArg (· - d) (Region.length_occupied _ _)

/-! ## What an open leaves -/

/-- The region once an open freed the dead slots. -/
def scrubbed (host : Host) (capacity : ℕ) (region : Region) : Region :=
  (region.freeDead host Region.isWriting (List.range capacity)).freeDead host Region.isPinned
    (List.range capacity)

theorem scrubbed_words (host : Host) (capacity : ℕ) (region : Region) :
    (scrubbed host capacity region).head = region.head ∧
      (scrubbed host capacity region).tail = region.tail ∧
      (scrubbed host capacity region).pinFloor = region.pinFloor ∧
      (scrubbed host capacity region).capacity = region.capacity := by
  obtain ⟨h1, h2, h3, h4⟩ :=
    Region.freeDead_words host Region.isWriting (List.range capacity) region
  obtain ⟨h1', h2', h3', h4'⟩ := Region.freeDead_words host Region.isPinned (List.range capacity)
    (region.freeDead host Region.isWriting (List.range capacity))
  exact ⟨h1'.trans h1, h2'.trans h2, h3'.trans h3, h4'.trans h4⟩

theorem reclaimWriters_ok (host : Host) (hmode : w.chan.config.multiProducer = false) :
    ∃ chan, reclaimWriters host w = .ok () ⟨chan, w.region.freeDead host Region.isWriting
      (List.range w.chan.config.capacity)⟩ ∧ chan.config = w.chan.config := by
  rw [reclaimWriters, get_bind, hmode, if_neg Bool.false_ne_true]
  have hsweep := onRegion_ok (w := w) (Region.reclaimEach_eq host .writing
    (List.nodup_range (n := w.chan.config.capacity)))
  exact ⟨_, (bind_ok hsweep).trans rfl, rfl⟩

theorem reclaimReaders_ok (host : Host) :
    ∃ chan, reclaimReaders host w = .ok () ⟨chan, w.region.freeDead host Region.isPinned
      (List.range w.chan.config.capacity)⟩ ∧ chan.config = w.chan.config := by
  have hsweep := onRegion_ok (w := w) (Region.reclaimEach_eq host .pinned
    (List.nodup_range (n := w.chan.config.capacity)))
  exact ⟨_, (bind_ok hsweep).trans rfl, rfl⟩

/-- **What a fresh open finds** in a region whose cursors are consistent. -/
theorem open_scrubs (host : Host) {config : SpscConfig} {region : Region}
    (hfit : Fits config region)
    (hmode : config.multiProducer = false)
    (hd : cursorLen config.capacity region.head region.tail = some d)
    (hahead : wrappingSub region.head region.tail ≤ config.capacity) :
    ∃ u, «open» host config region = .ok () u ∧
      u.chan.recoveryBias = ((List.range config.capacity).countP fun i =>
        Region.isUnread ((scrubbed host config.capacity region).state i)) - d ∧
      u.chan.floorCursor = (scrubbed host config.capacity region).scanPinFloor region.tail ∧
      u.chan.len = min (d + u.chan.recoveryBias) config.capacity := by
  obtain ⟨len, -, hlen⟩ := hfit.totalLen
  have hwait : waitInitialized region (regionMagic config.multiProducer) = .ok () := by
    simp only [waitInitialized, hfit.magic, hfit.format, if_true, ne_eq, not_true_eq_false,
      if_false]
  have hopen : «open» host config region = recoverFromStorage host ⟨fresh host config, region⟩ := by
    simp only [«open», hfit.valid, hfit.slotSize, hlen, hwait, bind, Except.bind]
  obtain ⟨chan, hwriters, hconfig⟩ := reclaimWriters_ok host
    (w := ⟨fresh host config, region⟩) hmode
  obtain ⟨chan', hreaders, hconfig'⟩ := reclaimReaders_ok host
    (w := ⟨chan, region.freeDead host Region.isWriting (List.range config.capacity)⟩)
  have hconfig₂ : chan'.config = config := hconfig'.trans hconfig
  have hscrubbed : (region.freeDead host Region.isWriting (List.range config.capacity)).freeDead
      host Region.isPinned (List.range chan.config.capacity) =
        scrubbed host config.capacity region := by
    rw [hconfig]
    rfl
  set v : World := floorRebuilt ⟨chan', scrubbed host config.capacity region⟩ with hv
  obtain ⟨hhead, htail, hheader, -⟩ := floorRebuilt_region
    (w := ⟨chan', scrubbed host config.capacity region⟩)
  obtain ⟨hhead', htail', -, -⟩ := scrubbed_words host config.capacity region
  have hcursors : cursorLen v.chan.config.capacity v.region.head v.region.tail = some d := by
    rw [show v.chan.config = config from hconfig₂, hhead.trans hhead', htail.trans htail', hd]
  have hrecover : recoverFromStorage host ⟨fresh host config, region⟩ =
      .ok () { v with chan := rebuilt v.region d v.chan } := by
    refine (bind_ok hwriters).trans ((bind_ok hreaders).trans ?_)
    rw [hscrubbed]
    refine (bind_ok rebuildFloor_eq).trans ?_
    rw [get_bind]
    simp only [← hv, hcursors]
    rfl
  refine ⟨_, hopen.trans hrecover, ?_, ?_, ?_⟩
  · have hfwd : wrappingSub v.region.head v.region.tail ≤ v.chan.config.capacity := by
      rw [show v.chan.config = config from hconfig₂, hhead.trans hhead', htail.trans htail']
      exact hahead
    have hstate : v.region.state = (scrubbed host config.capacity region).state :=
      funext fun i => congrArg SlotHeader.state (congrFun hheader i)
    rw [← hstate, ← Region.length_unread, ← hconfig₂]
    simp only [rebuilt, if_pos hfwd]
    rfl
  · refine (floorRebuilt_pinFloor (w := ⟨chan', scrubbed host config.capacity region⟩)).trans ?_
    rw [htail']
  · rw [rebuilt]
    simp only [show v.chan.config = config from hconfig₂]

/-! ## Agreement -/

theorem countP_eq_iff {α : Type} {p q : α → Bool} {xs : List α}
    (hqp : ∀ x ∈ xs, q x = true → p x = true) :
    xs.countP p = xs.countP q ↔ ∀ x ∈ xs, p x = true → q x = true := by
  induction xs with
  | nil => exact iff_of_true rfl fun x hx => nomatch hx
  | cons x xs ih =>
      have hle := List.countP_mono_left fun y hy => hqp y (List.mem_cons_of_mem x hy)
      have ih := ih fun y hy => hqp y (List.mem_cons_of_mem x hy)
      rw [List.forall_mem_cons, ← ih, List.countP_cons, List.countP_cons]
      cases hq : q x with
      | true => simp [hqp x List.mem_cons_self hq]
      | false =>
          cases hp : p x with
          | true => exact iff_of_false (fun he => by simp at he; omega) fun h => nomatch h.1 rfl
          | false => simp

/-- What is dead behind the cleanup was dead before, and is kept. -/
theorem swept_dead {among : SlotState → Bool} (hfree : among .free = false) (i : ℕ) :
    (swept host w d).region.dead host among i = true ↔
      w.region.dead host among i = true ∧ among (w.kept host i) = true := by
  rw [Region.dead_congr (congrFun (swept_settled host w d).2.2.1 i),
    Region.dead_freeDead_iff rfl hfree, kept]
  by_cases hfreed : i ∈ w.uncovered ∧ w.region.dead host Region.isStale i = true
  · rw [if_pos hfreed, hfree]
    exact iff_of_false (fun h => h.2 hfreed) fun h => nomatch h.2
  · rw [if_neg hfreed]
    exact ⟨fun h => ⟨h.1, Region.dead_state h.1⟩, fun h => ⟨h.1, hfreed⟩⟩

/-- The slots behind an open. -/
theorem scrubbed_state {capacity i : ℕ} {region : Region} (hi : i < capacity) :
    (scrubbed host capacity region).state i =
      if region.dead host Region.isWriting i = true ∨ region.dead host Region.isPinned i = true
      then .free else region.state i := by
  have hmem := List.mem_range.2 hi
  rw [scrubbed, Region.state_freeDead rfl, Region.state_freeDead rfl]
  by_cases hwriting : region.dead host Region.isWriting i = true
  · have hnot : ¬ (region.freeDead host Region.isWriting (List.range capacity)).dead host
        Region.isPinned i = true := fun h =>
      ((Region.dead_freeDead_iff rfl rfl).1 h).2 ⟨hmem, hwriting⟩
    rw [if_neg fun h => hnot h.2, if_pos ⟨hmem, hwriting⟩, if_pos (.inl hwriting)]
  · have hsame : (region.freeDead host Region.isWriting (List.range capacity)).dead host
        Region.isPinned i = region.dead host Region.isPinned i := by
      rw [Bool.eq_iff_iff, Region.dead_freeDead_iff rfl rfl]
      exact ⟨And.left, fun h => ⟨h, fun hfreed => hwriting hfreed.2⟩⟩
    have hkept : ¬ (i ∈ List.range capacity ∧ region.dead host Region.isWriting i = true) :=
      fun h => hwriting h.2
    rw [hsame, if_neg hkept]
    by_cases hpinned : region.dead host Region.isPinned i = true
    · rw [if_pos ⟨hmem, hpinned⟩, if_pos (.inr hpinned)]
    · rw [if_neg fun h => hpinned h.2, if_neg fun h => h.elim hwriting hpinned]

/-- The region a cleanup leaves fits the configuration. -/
theorem fits_swept (hfit : Fits w.chan.config w.region) :
    Fits w.chan.config (swept host w d).region := by
  have hfreed (indices : List ℕ) (region : Region) (h : Fits w.chan.config region) :
      Fits w.chan.config (region.freeDead host Region.isStale indices) := by
    induction indices generalizing region with
    | nil => exact h
    | cons i indices ih =>
        refine ih (region.freeOne host Region.isStale i) ?_
        unfold Region.freeOne
        split
        · exact ⟨h.valid, h.slotSize, h.totalLen, h.capacity, h.frameCapacity, h.magic, h.format⟩
        · exact h
  obtain ⟨h1, h2, h3, h4, h5, h6, h7⟩ := hfreed w.uncovered w.region hfit
  simp only [swept, floorRebuilt, Region.floorCas]
  split
  · split
    · exact ⟨h1, h2, h3, h4, h5, h6, h7⟩
    · exact ⟨h1, h2, h3, h4, h5, h6, h7⟩
  · exact ⟨h1, h2, h3, h4, h5, h6, h7⟩

/-- A slot is unread behind the open where it was kept unread and is not
dead. -/
theorem unread_scrubbed {capacity i : ℕ} (hi : i < capacity) :
    Region.isUnread ((scrubbed host capacity (swept host w d).region).state i) = true ↔
      Region.isUnread (w.kept host i) = true ∧
        ¬ (w.kept host i = .writing ∧ w.region.dead host Region.isWriting i = true) := by
  rw [scrubbed_state hi, swept_state]
  have hwriting : (swept host w d).region.dead host Region.isWriting i = true ↔
      w.region.dead host Region.isWriting i = true ∧ Region.isWriting (w.kept host i) = true :=
    swept_dead rfl i
  have hpinned : (swept host w d).region.dead host Region.isPinned i = true ↔
      w.region.dead host Region.isPinned i = true ∧ Region.isPinned (w.kept host i) = true :=
    swept_dead rfl i
  simp only [hwriting, hpinned]
  generalize w.region.dead host Region.isWriting i = writing
  generalize w.region.dead host Region.isPinned i = pinned
  cases w.kept host i <;> cases writing <;> cases pinned <;> decide

/-- A slot is PINNED behind the open where it was kept PINNED and is not
dead. -/
theorem pinned_scrubbed {capacity i : ℕ} (hi : i < capacity) :
    (scrubbed host capacity (swept host w d).region).state i = .pinned ↔
      w.kept host i = .pinned ∧ w.region.dead host Region.isPinned i = false := by
  rw [scrubbed_state hi, swept_state]
  have hwriting : (swept host w d).region.dead host Region.isWriting i = true ↔
      w.region.dead host Region.isWriting i = true ∧ Region.isWriting (w.kept host i) = true :=
    swept_dead rfl i
  have hpinned : (swept host w d).region.dead host Region.isPinned i = true ↔
      w.region.dead host Region.isPinned i = true ∧ Region.isPinned (w.kept host i) = true :=
    swept_dead rfl i
  simp only [hwriting, hpinned]
  generalize w.region.dead host Region.isWriting i = writing
  generalize w.region.dead host Region.isPinned i = pinned
  cases w.kept host i <;> cases writing <;> cases pinned <;> decide

/-- **The biases agree** where the cursors count all that is left, or
nothing is left that the open does not count. -/
theorem bias_agrees_iff (host : Host) (w : World) :
    w.keptSlots host - w.depth =
        ((List.range w.chan.config.capacity).countP fun i =>
          Region.isUnread ((scrubbed host w.chan.config.capacity
            (swept host w d).region).state i)) - w.depth ↔
      w.keptSlots host ≤ w.depth ∨ ∀ i < w.chan.config.capacity, w.kept host i ≠ .pinned ∧
        ¬ (w.kept host i = .writing ∧ w.region.dead host Region.isWriting i = true) := by
  have hqp : ∀ i ∈ List.range w.chan.config.capacity,
      Region.isUnread ((scrubbed host w.chan.config.capacity (swept host w d).region).state i) =
        true → isOccupied (w.kept host i) = true := by
    intro i hi hunread
    have hkept := ((unread_scrubbed (List.mem_range.1 hi)).1 hunread).1
    revert hkept
    cases w.kept host i <;> decide
  have heq := countP_eq_iff hqp
  have hle := List.countP_mono_left hqp
  have hall : (∀ i ∈ List.range w.chan.config.capacity, isOccupied (w.kept host i) = true →
      Region.isUnread ((scrubbed host w.chan.config.capacity (swept host w d).region).state i) =
        true) ↔
      ∀ i < w.chan.config.capacity, w.kept host i ≠ .pinned ∧
        ¬ (w.kept host i = .writing ∧ w.region.dead host Region.isWriting i = true) := by
    refine forall_congr' fun i => ?_
    rw [List.mem_range]
    refine imp_congr_right fun hi => ?_
    rw [unread_scrubbed hi]
    generalize w.region.dead host Region.isWriting i = writing
    cases w.kept host i <;> cases writing <;> decide
  rw [← hall, ← heq]
  rw [keptSlots]
  omega

/-- **The floors agree** where the first PINNED slot left is not dead. -/
theorem floor_agrees_iff (host : Host) (hfit : Fits w.chan.config w.region)
    (htail : w.region.tail < wordCount) :
    (w.keptPin host).getD PIN_FLOOR_NONE =
        (scrubbed host w.chan.config.capacity (swept host w d).region).scanPinFloor w.region.tail ↔
      ∀ cursor, w.keptPin host = some cursor →
        w.region.dead host Region.isPinned (cursor % w.region.capacity) = false := by
  obtain ⟨-, -, -, hcapacity⟩ := scrubbed_words host w.chan.config.capacity (swept host w d).region
  have hcap : (scrubbed host w.chan.config.capacity (swept host w d).region).capacity =
      w.region.capacity :=
    hcapacity.trans ((fits_swept hfit).capacity.trans hfit.capacity.symm)
  have hslot (cursor : ℕ) : cursor % w.region.capacity < w.chan.config.capacity := by
    rw [← hfit.capacity]
    exact Nat.mod_lt _ hfit.pos
  rw [Region.scanPinFloor, Region.firstPinned, hcap, keptPin]
  rw [find?_getD_eq_iff]
  · refine forall_congr' fun cursor => imp_congr_right fun hfirst => ?_
    have hkept : w.kept host (cursor % w.region.capacity) = .pinned := by
      simpa using List.find?_some hfirst
    rw [decide_eq_true_eq, pinned_scrubbed (hslot cursor), and_iff_right hkept]
  · intro cursor hcursor
    rw [decide_eq_true_eq, pinned_scrubbed (hslot cursor)] at hcursor
    exact decide_eq_true hcursor.1
  · intro hmem
    have hlt := (List.mem_range'_1.1 hmem).2
    have hnone : PIN_FLOOR_NONE = wordCount - 1 := rfl
    omega

/-- The guard of a handle behind the cleanup. -/
theorem guardLen_swept : (swept host w d).chan.guardLen =
    w.booked ((w.keptPin host).getD PIN_FLOOR_NONE) (w.keptSlots host - d) := by
  have hhead : (swept host w d).chan.headCursor = w.region.head :=
    (Region.freeDead_words host Region.isStale w.uncovered w.region).1
  have htail : (swept host w d).chan.tailCursor = w.region.tail :=
    (Region.freeDead_words host Region.isStale w.uncovered w.region).2.1
  rw [guardLen, swept_floor, swept_bias, hhead, htail]
  rfl

theorem swept_of_ok (hmode : w.chan.config.multiProducer = false)
    (hd : cursorLen w.chan.config.capacity w.region.head w.region.tail = some d)
    (hcall : reclaimStale host w = .ok n v) (hpos : 0 < n) :
    n = w.stale host ∧ v = swept host w d := by
  rw [reclaimStale_spsc host hmode hd] at hcall
  split at hcall
  · obtain ⟨hn, hv⟩ := EStateM.Result.ok.inj hcall
    exact ⟨hn.symm, hv.symm⟩
  · exact absurd (EStateM.Result.ok.inj hcall).1 (by omega)

end PersistentShmChannel

/-- **When an explicit cleanup leaves what a fresh open would find**, and
its guard the freed slots. -/
theorem cleanup_agrees_iff (host : Host) (w v : World) (n : ℕ)
    (hmode : w.chan.config.multiProducer = false) (hfit : Fits w.chan.config w.region)
    (htail : w.region.tail < wordCount) (hahead : w.depth ≤ w.chan.config.capacity)
    (hcall : reclaimStale host w = .ok n v) (hpos : 0 < n) :
    w.AgreesWithOpen host n v ↔ w.CleansExactly host := by
  have hd : cursorLen w.chan.config.capacity w.region.head w.region.tail = some w.depth :=
    if_pos hahead
  obtain ⟨rfl, rfl⟩ := swept_of_ok hmode hd hcall hpos
  obtain ⟨hhead, htail', -, -⟩ := swept_settled host w w.depth
  have hd' : cursorLen w.chan.config.capacity (swept host w w.depth).region.head
      (swept host w w.depth).region.tail = some w.depth := by
    rw [hhead, htail', hd]
  have hahead' : wrappingSub (swept host w w.depth).region.head
      (swept host w w.depth).region.tail ≤ w.chan.config.capacity := by
    rw [hhead, htail']
    exact hahead
  obtain ⟨u, hopen, hbias, hfloor, hlen⟩ :=
    open_scrubs host (fits_swept hfit) hmode hd' hahead'
  rw [htail'] at hfloor
  have hslots := bias_agrees_iff (d := w.depth) host w
  rw [← hbias, ← swept_bias] at hslots
  have hpin := floor_agrees_iff (d := w.depth) host hfit htail
  rw [← hfloor, ← swept_floor] at hpin
  have hdepth : (swept host w w.depth).chan.len =
      min (w.depth + (swept host w w.depth).chan.recoveryBias) w.chan.config.capacity := rfl
  have hguard : w.chan.config.capacity - (swept host w w.depth).chan.guardLen =
      w.chan.config.capacity - (w.refreshed w.depth).chan.guardLen + w.stale host ↔
        w.booked w.region.pinFloor w.chan.recoveryBias =
          w.booked ((w.keptPin host).getD PIN_FLOOR_NONE) (w.keptSlots host - w.depth) +
            w.stale host := by
    rw [guardLen_swept, show (w.refreshed w.depth).chan.guardLen =
      w.booked w.region.pinFloor w.chan.recoveryBias from rfl]
    have h1 : w.booked w.region.pinFloor w.chan.recoveryBias ≤ w.chan.config.capacity :=
      Nat.min_le_right _ _
    have h2 : w.booked ((w.keptPin host).getD PIN_FLOOR_NONE) (w.keptSlots host - w.depth) ≤
        w.chan.config.capacity := Nat.min_le_right _ _
    omega
  constructor
  · rintro ⟨⟨u', hopen', hb, hf, -⟩, hg⟩
    have hu : u' = u := (EStateM.Result.ok.inj (hopen'.symm.trans hopen)).2
    subst hu
    exact ⟨hslots.1 hb, hpin.1 hf, hguard.1 hg⟩
  · rintro ⟨hb, hf, hg⟩
    refine ⟨⟨u, hopen, hslots.2 hb, hpin.2 hf, ?_⟩, hguard.2 hg⟩
    rw [hdepth, hlen, hslots.2 hb]

/-- A host on which process 7 lives and every other is gone. -/
def survivor : Host :=
  { sampleHost with liveness := fun process => if process.pid = 7 then .alive else .gone }

/-- A ring of three slots with one published slot, in this state, and the
slot behind it WRITING, left by a process that is gone. -/
def leftover (tail floor : ℕ) (state : SlotState) : World where
  chan := { fresh sampleHost ⟨3, 8, .raise, none, false⟩ with recoveryBias := 1 }
  region :=
    { capacity := 3
      frameCapacity := 58
      head := 1
      tail
      magic := REGION_MAGIC
      format := REGION_FORMAT
      pinFloor := floor
      slots := fun i =>
        if i = 0 then ⟨encodeHeader state 0 54 (some ⟨7, 1, 1, 1, 1⟩) true, .zero⟩
        else if i = 1 then ⟨encodeHeader .writing 1 54 (some ⟨9, 1, 1, 1, 1⟩) true, .zero⟩
        else .empty }

theorem fits_leftover (tail floor : ℕ) (state : SlotState) :
    Fits (leftover tail floor state).chan.config (leftover tail floor state).region :=
  ⟨rfl, rfl, ⟨3 * 106 + REGION_HEADER_LEN, by decide, rfl⟩, rfl, rfl, rfl, rfl⟩

/-- The cleanup of such a ring frees the one slot. -/
theorem cleans_leftover {tail floor : ℕ} {state : SlotState}
    (h : outcome (reclaimStale survivor (leftover tail floor state)) = .ok 1) :
    reclaimStale survivor (leftover tail floor state) =
      .ok 1 (final (reclaimStale survivor (leftover tail floor state))) :=
  eq_ok_of_outcome h

/-- With a COMMITTED slot before it the cleanup agrees. -/
theorem cleanup_agrees_committed :
    (leftover 0 PIN_FLOOR_NONE .committed).AgreesWithOpen survivor 1
      (final (reclaimStale survivor (leftover 0 PIN_FLOOR_NONE .committed))) := by
  refine (cleanup_agrees_iff survivor _ _ 1 rfl (fits_leftover _ _ _) (by decide) (by decide)
    (cleans_leftover (by decide +kernel)) (by decide)).2 ⟨.inl (by decide), ?_, by decide⟩
  have hnone : (leftover 0 PIN_FLOOR_NONE .committed).keptPin survivor = none := by decide
  rw [hnone]
  exact fun cursor h => nomatch h

/-- **Behind a live view it does not**: the cleanup counts the view's slot
in the bias, and the floor counts it again. -/
theorem cleanup_counts_view_twice :
    ¬ ∀ (host : Host) (w v : World) (n : ℕ), w.chan.config.multiProducer = false →
      Fits w.chan.config w.region → w.region.tail < wordCount →
        w.depth ≤ w.chan.config.capacity → reclaimStale host w = .ok n v → 0 < n →
          w.AgreesWithOpen host n v := by
  intro hall
  obtain ⟨⟨u, hopen, hbias, -⟩, -⟩ := hall survivor (leftover 1 0 .pinned) _ 1 rfl
    (fits_leftover _ _ _) (by decide) (by decide) (cleans_leftover (by decide +kernel)) (by decide)
  have hcleaned : (final (reclaimStale survivor (leftover 1 0 .pinned))).chan.recoveryBias = 1 := by
    decide +kernel
  have hopened : (final («open» survivor (leftover 1 0 .pinned).chan.config
      (final (reclaimStale survivor (leftover 1 0 .pinned))).region)).chan.recoveryBias = 0 := by
    decide +kernel
  rw [hopen] at hopened
  exact absurd (hcleaned.symm.trans (hbias.trans hopened)) (by decide)

end Dsline
