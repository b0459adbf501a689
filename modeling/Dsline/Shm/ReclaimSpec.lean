import Dsline.Shm.RecvSpec
/-!
# What a reclaim at the tail does

`try_reclaim_at_tail` over any region and any handle whose mirrors are
current. In single-producer mode it frees the run of dead slots at the tail
and leaves the tail on a FREE slot; in multi-producer mode it frees the dead
reservation at the tail and steps over it, and only so can it uncover a
COMMITTED slot. Either way the handle expects a resync once a slot was freed.
-/

namespace Dsline

open PersistentShmChannel

namespace World

/-- The handle's cursors are the region's, and a refresh accepts them. -/
structure Current (w : World) : Prop where
  head : w.chan.headCursor = w.region.head
  tail : w.chan.tailCursor = w.region.tail
  index : w.chan.tail = w.region.tail % w.chan.config.capacity
  depth : ∃ depth, cursorLen w.chan.config.capacity w.region.head w.region.tail = some depth

/-- The world with the resync flag set to a value. -/
def resyncing (w : World) (resync : Bool) : World :=
  { w with chan := { w.chan with resyncExpected := resync } }

/-- The world once a multi-producer reclaim freed a reservation. -/
def extentFreed (w : World) (extent : ℕ) : World where
  chan :=
    { w.chan with
      tailCursor := w.chan.tailCursor + extent
      tail := (w.chan.tailCursor + extent) % w.chan.config.capacity
      reclaimedSlots := w.chan.reclaimedSlots + extent
      resyncExpected := true
      len := w.chan.len - extent }
  region :=
    { releaseExtent extent w.chan.tail w.region with tail := w.chan.tailCursor + extent }

/-- The world once a single-producer reclaim freed a run of slots. -/
def runFreed (w : World) (freed : ℕ) (region : Region) : World where
  chan :=
    { w.chan with
      recoveryBias := w.chan.recoveryBias - freed
      reclaimedSlots := w.chan.reclaimedSlots + freed
      resyncExpected := true
      len := w.chan.len - freed }
  region

/-- The reclaim at the tail frees a reservation, and the slot behind it is
COMMITTED. -/
def Uncovers (host : Host) (w : World) : Prop :=
  w.chan.config.multiProducer = true ∧ ∃ extent, reclaimExtent host w = some extent ∧
    (releaseExtent extent w.chan.tail w.region).state
      ((w.chan.tailCursor + extent) % w.chan.config.capacity) = .committed

end World

namespace PersistentShmChannel

open World

variable {host : Host} {w w' : World} {extent freed : ℕ} {region : Region} {index : ℕ}

/-- **What a reclaim at the tail did**: the slots it freed, and the world it
left. It does not look at the resync flag. -/
structure Reclaims (host : Host) (w : World) (freed : ℕ) (w' : World) : Prop where
  call : ∀ resync, tryReclaimAtTail host (w.resyncing resync) =
    .ok freed (if freed = 0 then w.resyncing resync else w')
  resync : w'.chan.resyncExpected = true
  counted : w'.chan.reclaimedSlots = w.chan.reclaimedSlots + freed
  closed : w'.chan.closed = w.chan.closed
  current : w'.Current
  uncovers : 0 < freed ∧ w'.region.state w'.chan.tail = .committed ↔ Uncovers host w

/-! ## Multi-producer mode -/

/-- A reservation that is freed has slots, and lies in the window. -/
theorem reclaimExtent_window (h : reclaimExtent host w = some extent) :
    0 < extent ∧ extent ≤ wrappingSub w.chan.headCursor w.chan.tailCursor ∧
      wrappingSub w.chan.headCursor w.chan.tailCursor ≤ w.chan.config.capacity := by
  unfold reclaimExtent at h
  simp only at h
  split at h
  · cases h
  split at h
  · cases h
  split at h
  · cases h
  split at h
  · cases h
  split at h
  · cases h
  rename_i hwindow _ _ _ _ hextent
  split at h
  · cases h
    omega
  · cases h

/-- A tail that moves inside the window leaves the cursors in order. -/
theorem cursorLen_step {capacity head tail n : ℕ} (hn : n ≤ wrappingSub head tail)
    (hwindow : wrappingSub head tail ≤ capacity) :
    ∃ depth, cursorLen capacity head (tail + n) = some depth := by
  have hfwd : wrappingSub head (tail + n) ≤ capacity := by
    unfold wrappingSub at hn hwindow ⊢
    split at hn <;> split at hwindow <;> split <;> omega
  exact ⟨_, if_pos hfwd⟩

theorem tryReclaimAtTail_extent (hmode : w.chan.config.multiProducer = true) (hw : w.Current)
    (h : reclaimExtent host w = some extent) :
    tryReclaimAtTail host w = .ok extent (w.extentFreed extent) := by
  have hwords := releaseExtent_words extent w.chan.tail w.region
  rw [tryReclaimAtTail, Effect.get_bind, if_pos hmode, tryReclaimAtTailMpsc, Effect.get_bind, h]
  simp only [modifyRegion, modifyChan, Effect.modify_bind, Effect.get_bind,
    Region.compareExchangeTail, hwords.tail, hw.tail, if_true, not_true_eq_false, if_false]
  simp only [Effect.pure_apply, extentFreed, hw.tail]

theorem reclaims_extent (hmode : w.chan.config.multiProducer = true) (hw : w.Current)
    (h : reclaimExtent host w = some extent) :
    Reclaims host w extent (w.extentFreed extent) where
  call resync := by
    have hpos := (reclaimExtent_window h).1
    rw [if_neg (by omega)]
    exact tryReclaimAtTail_extent (w := w.resyncing resync) hmode
      ⟨hw.head, hw.tail, hw.index, hw.depth⟩ h
  resync := rfl
  counted := rfl
  closed := rfl
  current := by
    obtain ⟨-, hle, hwindow⟩ := reclaimExtent_window h
    have hwords := releaseExtent_words extent w.chan.tail w.region
    rw [hw.head, hw.tail] at hle hwindow
    refine ⟨hw.head.trans hwords.head.symm, rfl, rfl, ?_⟩
    obtain ⟨depth, hdepth⟩ := cursorLen_step hle hwindow
    refine ⟨depth, ?_⟩
    simp only [extentFreed, hwords.head, hw.tail]
    exact hdepth
  uncovers := by
    constructor
    · exact fun ⟨_, hcommitted⟩ => ⟨hmode, extent, h, hcommitted⟩
    · rintro ⟨-, extent', h', hcommitted⟩
      rw [h] at h'
      cases h'
      exact ⟨(reclaimExtent_window h).1, hcommitted⟩

theorem reclaims_none (hw : w.Current) (h : ∀ resync, tryReclaimAtTail host (w.resyncing resync) =
    .ok 0 (w.resyncing resync)) : Reclaims host w 0 (w.resyncing true) where
  call := h
  resync := rfl
  counted := rfl
  closed := rfl
  current := ⟨hw.head, hw.tail, hw.index, hw.depth⟩
  uncovers := by
    refine iff_of_false (fun hpos => Nat.lt_irrefl 0 hpos.1) ?_
    rintro ⟨hmulti, extent, hext, -⟩
    have hnone : tryReclaimAtTail host w = .ok 0 w := h w.chan.resyncExpected
    have hpos := (reclaimExtent_window hext).1
    rw [tryReclaimAtTail_extent hmulti hw hext] at hnone
    injection hnone with hzero
    omega

/-! ## Single-producer mode -/

/-- A slot that is FREE is FREE once another is released. -/
theorem forceRelease_free {i : ℕ} (h : region.state i = .free ∨ i = index) :
    (region.forceRelease index).state i = .free := by
  rw [Region.forceRelease_eq]
  by_cases hi : i = index
  · subst hi
    simp [Region.state, Region.header]
  · simp only [Region.state, Region.header, Region.setSlot_slots_of_ne hi]
    exact h.resolve_right hi

/-- A slot whose process is gone is freed; another is left as it is. -/
theorem reclaimDead_cases (host : Host) (expected : SlotState) (index : ℕ) (region : Region) :
    Region.reclaimDead host expected index region = .ok false region ∨
      Region.reclaimDead host expected index region = .ok true (region.forceRelease index) := by
  rw [Region.reclaimDead, Effect.get_bind]
  by_cases hstate : (region.header index).state ≠ expected
  · exact .inl (congrFun (if_pos hstate) region)
  · cases hid : (region.header index).identity with
    | none =>
        refine .inl ((congrFun (if_neg hstate) region).trans ?_)
        simp only [Effect.pure_apply]
    | some identity =>
        by_cases hgone : host.liveness identity.process ≠ .gone
        · refine .inl ((congrFun (if_neg hstate) region).trans ?_)
          simp only
          exact congrFun (if_pos hgone) region
        · refine .inr ((congrFun (if_neg hstate) region).trans ?_)
          simp only
          exact congrFun (if_neg hgone) region

/-- **The run at the tail**: it leaves the words, it makes no slot occupied,
and the first slot is FREE if any slot was freed. -/
theorem reclaimRun_ok (host : Host) (rounds index : ℕ) (region : Region) :
    ∃ freed region', reclaimRun host rounds index region = .ok freed region' ∧
      region'.head = region.head ∧ region'.tail = region.tail ∧
      (freed = 0 → region' = region) ∧ (0 < freed → region'.state index = .free) ∧
        ∀ i, region.state i = .free → region'.state i = .free := by
  induction rounds generalizing index region with
  | zero => exact ⟨0, region, rfl, rfl, rfl, fun _ => rfl, nofun, fun _ h => h⟩
  | succ rounds ih =>
      have hnone : ∃ freed region', (pure 0 : RegionM ℕ) region = .ok freed region' ∧
          region'.head = region.head ∧ region'.tail = region.tail ∧
          (freed = 0 → region' = region) ∧ (0 < freed → region'.state index = .free) ∧
            ∀ i, region.state i = .free → region'.state i = .free :=
        ⟨0, region, rfl, rfl, rfl, fun _ => rfl, nofun, fun _ h => h⟩
      rw [reclaimRun, Effect.get_bind]
      split
      · exact hnone
      · have hdead : Region.reclaimDeadWriting host index region = .ok false region ∨
            Region.reclaimDeadWriting host index region = .ok true (region.forceRelease index) :=
          reclaimDead_cases host .writing index region
        rcases hdead with hdead | hdead
        · rw [Effect.bind_ok hdead]
          exact hnone
        · obtain ⟨freed, region', hrun, hhead, htail, -, -, hkeep⟩ :=
            ih ((index + 1) % region.capacity) (region.forceRelease index)
          rw [Effect.bind_ok hdead]
          refine ⟨1 + freed, region', ?_, hhead, htail, by omega, fun _ => ?_, fun i hi => ?_⟩
          · exact (Effect.bind_ok hrun).trans rfl
          · exact hkeep index (forceRelease_free (.inr rfl))
          · exact hkeep i (forceRelease_free (.inl hi))

/-- **A reclaim at the tail.** -/
theorem reclaims_spsc (hmode : w.chan.config.multiProducer = false) (hw : w.Current) :
    ∃ freed w', Reclaims host w freed w' := by
  have hspsc (resync : Bool) : tryReclaimAtTail host (w.resyncing resync) =
      tryReclaimAtTailSpsc host (w.resyncing resync) := by
    rw [tryReclaimAtTail, Effect.get_bind, if_neg]
    exact fun hmulti => Bool.false_ne_true (hmode.symm.trans hmulti)
  -- A single-producer reclaim looks only where the cursors count no slot.
  by_cases hcounted : wrappingSub w.chan.headCursor w.chan.tailCursor ≠ 0 ∧
      wrappingSub w.chan.headCursor w.chan.tailCursor ≤ w.chan.config.capacity
  · refine ⟨0, _, reclaims_none hw fun resync => ?_⟩
    rw [hspsc, tryReclaimAtTailSpsc, Effect.get_bind]
    exact congrFun (if_pos hcounted) (w.resyncing resync)
  · obtain ⟨freed, region', hrun, hhead, htail, hkept, hfree, -⟩ :=
      reclaimRun_ok host w.chan.config.capacity w.chan.tail w.region
    have hon (resync : Bool) : onRegion (reclaimRun host w.chan.config.capacity w.chan.tail)
        (w.resyncing resync) = .ok freed { w.resyncing resync with region := region' } := by
      simp only [onRegion, resyncing, hrun]
    have hcall (resync : Bool) : tryReclaimAtTail host (w.resyncing resync) =
        (if freed = 0 then pure 0
        else do
          modifyChan fun c =>
            { c with
              recoveryBias := c.recoveryBias - freed
              reclaimedSlots := c.reclaimedSlots + freed
              resyncExpected := true
              len := c.len - freed }
          pure freed : ChannelM ℕ) { w.resyncing resync with region := region' } := by
      rw [hspsc, tryReclaimAtTailSpsc, Effect.get_bind]
      exact (congrFun (if_neg hcounted) (w.resyncing resync)).trans (Effect.bind_ok (hon resync))
    rcases Nat.eq_zero_or_pos freed with hzero | hpos
    · subst hzero
      refine ⟨0, _, reclaims_none hw fun resync => ?_⟩
      rw [hcall, hkept rfl]
      rfl
    · refine ⟨freed, w.runFreed freed region', ?_, rfl, rfl, rfl, ?_, ?_⟩
      · intro resync
        rw [hcall, if_neg (by omega), if_neg (by omega)]
        rfl
      · refine ⟨hw.head.trans hhead.symm, hw.tail.trans htail.symm, ?_, ?_⟩
        · simp only [runFreed, htail]
          exact hw.index
        · simp only [runFreed, hhead, htail]
          exact hw.depth
      · constructor
        -- The first slot of the run is FREE now, so nothing is uncovered.
        · rintro ⟨-, hcommitted⟩
          have hstate := hfree hpos
          rw [show (w.runFreed freed region').region.state (w.runFreed freed region').chan.tail =
            region'.state w.chan.tail from rfl, hstate] at hcommitted
          cases hcommitted
        · rintro ⟨hmulti, -⟩
          exact absurd (hmode.symm.trans hmulti) Bool.false_ne_true

/-- **A reclaim at the tail**, in either mode. -/
theorem exists_reclaims (host : Host) (hw : w.Current) : ∃ freed w', Reclaims host w freed w' := by
  cases hmode : w.chan.config.multiProducer with
  | false => exact reclaims_spsc hmode hw
  | true =>
      cases hext : reclaimExtent host w with
      | some extent => exact ⟨extent, _, reclaims_extent hmode hw hext⟩
      | none =>
          refine ⟨0, _, reclaims_none hw fun resync => ?_⟩
          have hnone : reclaimExtent host (w.resyncing resync) = none := hext
          rw [tryReclaimAtTail, Effect.get_bind]
          refine (congrFun (if_pos hmode) (w.resyncing resync)).trans ?_
          rw [tryReclaimAtTailMpsc, Effect.get_bind, hnone]
          rfl

end PersistentShmChannel

end Dsline
