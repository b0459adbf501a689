import Dsline.Shm.SendSpec
/-!
# What creating and opening do

A created region is an empty ring (`create_layout`). Opening a region none
of whose writers or readers is gone reads it and changes nothing in it
(`open_ok`); what the handle recovers is `recovered`.
-/

namespace Dsline

open PersistentShmChannel

/-- **A region made for a configuration**, as `create` makes it. -/
structure Fits (config : SpscConfig) (region : Region) : Prop where
  valid : config.validate = .ok ()
  slotSize : persistentRegionSlotSize config =
    .ok (config.slotSize + FRAME_HEADER_LEN + PERSISTENT_SLOT_HEADER_LEN)
  totalLen : ∃ len ≤ isizeMax, PersistentShmChannel.totalLen config.capacity
    (config.slotSize + FRAME_HEADER_LEN + PERSISTENT_SLOT_HEADER_LEN) = .ok len
  capacity : region.capacity = config.capacity
  frameCapacity : region.frameCapacity = config.slotSize + FRAME_HEADER_LEN
  magic : region.magic = regionMagic config.multiProducer
  format : region.format = REGION_FORMAT

namespace Fits

variable {config : SpscConfig} {region region' : Region}

theorem pos (h : Fits config region) : 0 < region.capacity :=
  h.capacity ▸ (SpscConfig.validate_eq_ok.1 h.valid).1

/-- The whole region is smaller than the address space. -/
theorem small (h : Fits config region) : region.capacity * 98 < wordCount := by
  obtain ⟨len, -, hlen⟩ := h.totalLen
  rw [h.capacity]
  simp only [PersistentShmChannel.totalLen, checkedMul] at hlen
  split at hlen
  · rename_i heq
    split at heq
    · rename_i hlt
      have h98 : 98 ≤ config.slotSize + FRAME_HEADER_LEN + PERSISTENT_SLOT_HEADER_LEN := by
        simp only [FRAME_HEADER_LEN, PERSISTENT_SLOT_HEADER_LEN]
        omega
      exact Nat.lt_of_le_of_lt (Nat.mul_le_mul_left _ h98) hlt
    · cases heq
  · cases hlen

/-- The whole region is a file. -/
theorem area (h : Fits config region) :
    config.capacity * (config.slotSize + FRAME_HEADER_LEN + PERSISTENT_SLOT_HEADER_LEN) +
      REGION_HEADER_LEN ≤ isizeMax := by
  obtain ⟨len, hle, hlen⟩ := h.totalLen
  simp only [PersistentShmChannel.totalLen, checkedMul] at hlen
  split at hlen
  · rename_i heq
    split at heq
    · simp only [Option.bind_some, checkedAdd] at heq
      split at heq
      · cases heq
        cases hlen
        exact hle
      · cases heq
    · cases heq
  · cases hlen

/-- A slot is no longer than a slice can be. -/
theorem slotSize_le (h : Fits config region) : config.slotSize + FRAME_HEADER_LEN ≤ isizeMax := by
  have harea := h.area
  have hle := Nat.le_mul_of_pos_left
    (config.slotSize + FRAME_HEADER_LEN + PERSISTENT_SLOT_HEADER_LEN) (h.capacity ▸ h.pos)
  omega

theorem capacity_lt (h : Fits config region) : config.capacity < 2 ^ 64 := by
  have := h.small
  rw [h.capacity] at this
  simp only [wordCount] at this
  omega

/-- The shape is all that counts. -/
theorem words (h : Fits config region) {head tail floor : ℕ}
    (hw : region.Words head tail floor region') : Fits config region' :=
  ⟨h.valid, h.slotSize, h.totalLen, hw.capacity.trans h.capacity,
    hw.frameCapacity.trans h.frameCapacity, hw.magic.trans h.magic, hw.format.trans h.format⟩

end Fits

/-! ## Creating -/

section Create

variable {host : Host} {config : SpscConfig} {w : World}

theorem state_foldl_free (indices : List ℕ) (region : Region)
    (h : ∀ i, region.state i = .free) (i : ℕ) :
    (indices.foldl (fun r i => r.writeHeader i .free 0 0) region).state i = .free := by
  induction indices generalizing region with
  | nil => exact h i
  | cons j indices ih =>
      refine ih _ fun k => ?_
      simp only [Region.writeHeader, Region.setHeader, Region.state, Region.header, Region.setSlot]
      split
      · rfl
      · exact h k

theorem words_foldl_free (indices : List ℕ) (region : Region) :
    region.Words region.head region.tail region.pinFloor
      (indices.foldl (fun r i => r.writeHeader i .free 0 0) region) := by
  induction indices generalizing region with
  | nil => exact .refl _
  | cons j indices ih =>
      have h := ih (region.writeHeader j .free 0 0)
      exact ⟨h.capacity, h.frameCapacity, h.magic, h.format, h.head, h.tail, h.pinFloor⟩

/-- **A created region is an empty ring**, and its handle is fresh. -/
theorem create_ok (h : create host config = .ok w) :
    w.chan = fresh host config ∧ Fits config w.region ∧ Layout w.region [] [] ∧
      w.region.head = 0 ∧ w.region.tail = 0 ∧ w.region.pinFloor = PIN_FLOOR_NONE := by
  simp only [create, bind, Except.bind, pure, Except.pure] at h
  split at h
  · cases h
  rename_i hv
  split at h
  · cases h
  rename_i size hs
  split at h
  · cases h
  rename_i len hl
  split at h
  · cases h
  rename_i hset
  have hlen : len ≤ isizeMax := by
    simp only [setLen] at hset
    split at hset
    · cases hset
    · omega
  cases h
  have hsize : size = config.slotSize + FRAME_HEADER_LEN + PERSISTENT_SLOT_HEADER_LEN := by
    simp only [persistentRegionSlotSize, checkedAdd] at hs
    split at hs
    · rename_i heq
      cases hs
      split at heq
      · simp only [Option.bind_some] at heq
        split at heq
        · exact (Option.some.inj heq).symm
        · cases heq
      · cases heq
    · cases hs
  subst hsize
  have hw := words_foldl_free (List.range config.capacity) (storage config.capacity
      (config.slotSize + FRAME_HEADER_LEN + PERSISTENT_SLOT_HEADER_LEN))
  have hfree := state_foldl_free (List.range config.capacity) (storage config.capacity
      (config.slotSize + FRAME_HEADER_LEN + PERSISTENT_SLOT_HEADER_LEN)) fun _ => rfl
  refine ⟨rfl, ⟨hv, hs, ⟨len, hlen, hl⟩, hw.capacity, hw.frameCapacity, rfl, rfl⟩,
    ⟨Nat.zero_le _, trivial, ?_, ?_, List.nodup_nil, fun cursor _ _ _ => hfree _⟩, hw.head, hw.tail,
    rfl⟩
  · simp
  · simp

end Create

/-! ## The floor behind the tail -/

section Floor

variable {region : Region} {contents : List Content} {pins : List Pin} {lo : ℕ}

/-- Within the lap before the tail the PINNED slots are those of the pins. -/
theorem state_eq_pinned_iff (hl : Layout region contents pins) (cursor : ℕ)
    (h1 : region.tail - region.capacity ≤ cursor) (h2 : cursor < region.tail) :
    region.state (cursor % region.capacity) = .pinned ↔ cursor ∈ pins.map Pin.cursor := by
  have hmod : cursor % region.capacity = (cursor + region.capacity) % region.capacity :=
    (Nat.add_mod_right _ _).symm
  constructor
  · intro hst
    rw [hmod] at hst
    rcases Nat.lt_or_ge (cursor + region.capacity) (region.tail + contents.length) with hlt | hge
    · obtain ⟨k, hk⟩ : ∃ k, cursor + region.capacity = region.tail + k :=
        ⟨cursor + region.capacity - region.tail, by omega⟩
      rw [hk] at hst
      have hshow := hst.symm.trans (hl.shows (k := k) (by omega)).state
      cases hc : contents[k] <;> rw [hc] at hshow <;> cases hshow
    · rcases hl.state_rest _ hge (by omega) with hfree | ⟨p, hp, he, -⟩
      · rw [hfree] at hst
        cases hst
      · exact List.mem_map.2 ⟨p, hp, by omega⟩
  · intro hmem
    obtain ⟨p, hp, rfl⟩ := List.mem_map.1 hmem
    exact hl.state_pin hp

variable (lo) in
/-- **The scan finds the smallest pin** from its start on. -/
theorem firstPinned_floorOf (hl : Layout region contents pins)
    (hlo : region.tail - region.capacity ≤ lo) :
    FloorOf ((pins.map Pin.cursor).filter (lo ≤ ·)) (region.firstPinned lo region.tail) := by
  simp only [Region.firstPinned]
  cases hf : (List.range' lo (region.tail - lo)).find? fun cursor =>
      region.state (cursor % region.capacity) = .pinned with
  | none =>
      refine .inl ⟨List.filter_eq_nil_iff.2 fun cursor hc hle => ?_, rfl⟩
      obtain ⟨p, hp, rfl⟩ := List.mem_map.1 hc
      have hb := (hl.bound p hp).2
      have hle' : lo ≤ p.cursor := by simpa using hle
      have hno := List.find?_eq_none.1 hf p.cursor (by rw [List.mem_range'_1]; omega)
      exact hno (by simpa using hl.state_pin hp)
  | some cursor =>
      obtain ⟨hst, as, bs, hsplit, hbefore⟩ := List.find?_eq_some_iff_append.1 hf
      have hmem : cursor ∈ List.range' lo (region.tail - lo) := by rw [hsplit]; simp
      rw [List.mem_range'_1] at hmem
      have hin := (state_eq_pinned_iff hl cursor (by omega) (by omega)).1
        (by simpa using hst)
      refine .inr ⟨List.mem_filter.2 ⟨hin, by simpa using hmem.1⟩, fun c hc => ?_⟩
      obtain ⟨hc, hle⟩ := List.mem_filter.1 hc
      obtain ⟨p, hp, rfl⟩ := List.mem_map.1 hc
      have hb := (hl.bound p hp).2
      have hle' : lo ≤ p.cursor := by simpa using hle
      simp only [Option.getD_some]
      refine Nat.le_of_not_lt fun hlt => ?_
      have hpos : p.cursor ∈ as := by
        have hmem' : p.cursor ∈ List.range' lo (region.tail - lo) := by
          rw [List.mem_range'_1]; omega
        rw [hsplit] at hmem'
        rcases List.mem_append.1 hmem' with h | h
        · exact h
        · rcases List.mem_cons.1 h with h | h
          · omega
          · have hsorted := List.pairwise_lt_range' 1 (s := lo) (n := region.tail - lo)
            rw [hsplit] at hsorted
            have := (List.pairwise_cons.1 (List.pairwise_append.1 hsorted).2.1).1 _ h
            omega
      have := hbefore _ hpos
      simp [hl.state_pin hp] at this

/-- There is one floor of a set of pins. -/
theorem FloorOf.unique {pins : List ℕ} {floor floor' : ℕ} (h : FloorOf pins floor)
    (h' : FloorOf pins floor') : floor = floor' := by
  rcases h with ⟨rfl, rfl⟩ | ⟨hm, hmin⟩
  · rcases h' with ⟨-, rfl⟩ | ⟨hm, -⟩
    · rfl
    · cases hm
  · rcases h' with ⟨rfl, -⟩ | ⟨hm', hmin'⟩
    · cases hm
    · exact Nat.le_antisymm (hmin _ hm') (hmin' _ hm)

/-- A floor that is kept up to date is what the scan finds. -/
theorem scanPinFloor_eq (hl : Layout region contents pins)
    (hfloor : FloorOf (pins.map Pin.cursor) region.pinFloor) :
    region.scanPinFloor region.tail = region.pinFloor := by
  have h := firstPinned_floorOf _ hl (Nat.le_refl _)
  have hall : (pins.map Pin.cursor).filter (region.tail - region.capacity ≤ ·) =
      pins.map Pin.cursor := by
    rw [List.filter_eq_self]
    intro c hc
    obtain ⟨p, hp, rfl⟩ := List.mem_map.1 hc
    have := hl.bound p hp
    simp only [decide_eq_true_eq]
    omega
  rw [hall] at h
  exact h.unique hfloor

end Floor

/-! ## Opening -/

/-- No writer and no reader that a slot names is gone. -/
def NoneGone (host : Host) (region : Region) : Prop :=
  ∀ index < region.capacity, ∀ identity, (region.header index).identity = some identity →
    region.state index = .writing ∨ region.state index = .pinned →
      host.liveness identity.process ≠ .gone

/-- What a handle recovers from a region it changes nothing in. -/
def recovered (host : Host) (config : SpscConfig) (region : Region) (depth : ℕ) :
    PersistentShmChannel :=
  rebuilt region depth { fresh host config with floorCursor := region.pinFloor }

section Open

variable {host : Host} {config : SpscConfig} {region : Region} {depth : ℕ}

theorem reclaimDead_false {state : SlotState} {index : ℕ}
    (h : ∀ identity, (region.header index).identity = some identity →
      region.state index = state → host.liveness identity.process ≠ .gone) :
    Region.reclaimDead host state index region = .ok false region := by
  rw [Region.reclaimDead, Effect.get_bind]
  by_cases hst : (region.header index).state = state
  · simp only [ne_eq, hst, not_true_eq_false, if_false]
    cases hid : (region.header index).identity with
    | none => rfl
    | some identity =>
        simp only [if_pos (h identity hid hst)]
        rfl
  · simp only [ne_eq, hst, not_false_eq_true, if_true]
    rfl

theorem reclaimEach_none (reclaim : ℕ → RegionM Bool) {indices : List ℕ}
    (h : ∀ index ∈ indices, reclaim index region = .ok false region) :
    reclaimEach reclaim indices region = .ok 0 region := by
  induction indices with
  | nil => rfl
  | cons index indices ih =>
      rw [reclaimEach, Effect.bind_ok (h index List.mem_cons_self),
        Effect.bind_ok (ih fun i hi => h i (List.mem_cons_of_mem _ hi))]
      rfl

/-- Nothing is reclaimed at the tail where the writer of its slot is not
gone. -/
theorem tryReclaimAtTail_alive {w : World} (hmode : w.chan.config.multiProducer = false)
    (halive : ∀ identity, (w.region.header w.chan.tail).identity = some identity →
      w.region.state w.chan.tail = .writing → host.liveness identity.process ≠ .gone) :
    tryReclaimAtTail host w = .ok 0 w := by
  have hrun : ∀ rounds, reclaimRun host rounds w.chan.tail w.region = .ok 0 w.region := by
    intro rounds
    cases rounds with
    | zero => rfl
    | succ rounds =>
        rw [reclaimRun, Effect.get_bind]
        split
        · rfl
        · exact (Effect.bind_ok (reclaimDead_false halive)).trans rfl
  have hon : onRegion (reclaimRun host w.chan.config.capacity w.chan.tail) w = .ok 0 w := by
    simp only [onRegion, hrun]
  rw [tryReclaimAtTail, Effect.get_bind, if_neg (by simp [hmode]), tryReclaimAtTailSpsc,
    Effect.get_bind]
  by_cases hcur : wrappingSub w.chan.headCursor w.chan.tailCursor ≠ 0 ∧
      wrappingSub w.chan.headCursor w.chan.tailCursor ≤ w.chan.config.capacity
  · simp only [if_pos hcur]
    rfl
  · simp only [if_neg hcur]
    exact (Effect.bind_ok hon).trans rfl

/-- Nothing is reclaimed at the tail where no writer is gone. -/
theorem tryReclaimAtTail_none {w : World} (hmode : w.chan.config.multiProducer = false)
    (hidx : w.chan.tail < w.region.capacity) (halive : NoneGone host w.region) :
    tryReclaimAtTail host w = .ok 0 w :=
  tryReclaimAtTail_alive hmode fun identity hid hst => halive _ hidx identity hid (.inl hst)

/-- **Opening a region none of whose processes is gone** changes nothing in
it. -/
theorem open_ok (hfit : Fits config region) (halive : NoneGone host region)
    (hfloor : region.scanPinFloor region.tail = region.pinFloor)
    (hcur : cursorLen config.capacity region.head region.tail = some depth) :
    «open» host config region = .ok () ⟨recovered host config region depth, region⟩ := by
  obtain ⟨len, -, hlen⟩ := hfit.totalLen
  have hwait : waitInitialized region (regionMagic config.multiProducer) = .ok () := by
    simp only [waitInitialized, hfit.magic, hfit.format, if_true, ne_eq, not_true_eq_false,
      if_false]
  have hlt : ∀ index ∈ List.range config.capacity, index < region.capacity := fun index hi =>
    hfit.capacity ▸ List.mem_range.1 hi
  have hw := reclaimEach_none (Region.reclaimDeadWriting host) fun index hi =>
    reclaimDead_false fun identity hid hst => halive index (hlt index hi) identity hid (.inl hst)
  have hp := reclaimEach_none (Region.reclaimDeadPinned host) fun index hi =>
    reclaimDead_false fun identity hid hst => halive index (hlt index hi) identity hid (.inr hst)
  have hrec : recoverFromStorage host ⟨fresh host config, region⟩ =
      .ok () ⟨recovered host config region depth, region⟩ := by
    have hwriters : reclaimWriters host ⟨fresh host config, region⟩ =
        .ok () ⟨fresh host config, region⟩ := by
      rw [reclaimWriters, Effect.get_bind]
      split
      · rfl
      · have hon : onRegion (reclaimEach (Region.reclaimDeadWriting host)
            (List.range config.capacity)) ⟨fresh host config, region⟩ =
              .ok 0 ⟨fresh host config, region⟩ := by
          simp only [onRegion, hw]
        exact (Effect.bind_ok hon).trans rfl
    have hreaders : reclaimReaders host ⟨fresh host config, region⟩ =
        .ok () ⟨fresh host config, region⟩ := by
      have hon : onRegion (reclaimEach (Region.reclaimDeadPinned host)
          (List.range config.capacity)) ⟨fresh host config, region⟩ =
            .ok 0 ⟨fresh host config, region⟩ := by
        simp only [onRegion, hp]
      rw [reclaimReaders, Effect.get_bind]
      exact (Effect.bind_ok hon).trans rfl
    have hfloor' : rebuildFloor ⟨fresh host config, region⟩ =
        .ok () ⟨{ fresh host config with floorCursor := region.pinFloor }, region⟩ := by
      simp only [rebuildFloor, modifyRegion, Effect.modify_bind, hfloor, ne_eq, not_true_eq_false,
        if_false]
      rfl
    rw [recoverFromStorage, Effect.bind_ok hwriters, Effect.bind_ok hreaders,
      Effect.bind_ok hfloor', Effect.get_bind]
    have hcur' : cursorLen (fresh host config).config.capacity region.head region.tail =
        some depth := hcur
    simp only [hcur']
    rfl
  simp only [«open», hfit.valid, hfit.slotSize, hlen, hwait, bind, Except.bind]
  exact hrec

end Open

end Dsline
