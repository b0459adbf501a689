import Dsline.Shm.Consume
import Dsline.Shm.Layout
import Mathlib.Data.List.Induction
/-!
# A handle over a laid-out region

What a handle's receive calls do where the region is laid out as a list of
contents: a message at the tail is returned and its contents dropped, a tail
that is not readable is an empty ring. The facts are stated on the region
before the call; the handle's own mirrors are refreshed by the call itself.
-/

namespace Dsline

open PersistentShmChannel

/-! ## Mirrors -/

/-- The handle's mirrors are the region's words. -/
structure World.Mirrors (w : World) : Prop where
  capacity : w.chan.config.capacity = w.region.capacity
  head : w.chan.headCursor = w.region.head
  tail : w.chan.tailCursor = w.region.tail
  floor : w.chan.floorCursor = w.region.pinFloor
  index : w.chan.tail = w.region.tail % w.region.capacity

/-- The cursor words of a region are consistent, and the region was made for
the handle's configuration. -/
structure World.Sound (w : World) : Prop where
  capacity : w.chan.config.capacity = w.region.capacity
  pos : 0 < w.region.capacity
  ordered : w.region.tail ≤ w.region.head
  window : w.region.head ≤ w.region.tail + w.region.capacity
  word : w.region.head < wordCount
  opened : w.chan.closed = false

namespace World

variable {w : World} {content : Content} {contents more : List Content} {pins : List Pin} {k : ℕ}

/-- The world after a refresh that found `depth` slots. -/
def refreshed (w : World) (depth : ℕ) : World where
  chan :=
    { w.chan.withCursors w.region.head w.region.tail w.region.pinFloor with
      len := min (depth + w.chan.recoveryBias) w.chan.config.capacity }
  region := w.region

/-- A call that changed nothing but, at most, the mirrors. -/
def Idle (w w' : World) : Prop := w' = w ∨ ∃ depth, w' = w.refreshed depth

/-- **A refresh mirrors the words** where they are consistent. -/
theorem refreshCursors_ok {depth : ℕ}
    (h : cursorLen w.chan.config.capacity w.region.head w.region.tail = some depth) :
    refreshCursors w = .ok () (w.refreshed depth) := by
  rw [PersistentShmChannel.refreshCursors, Effect.get_bind, Effect.set_bind]
  simp only [withCursors, h]
  rfl

/-- Where they are not, a refresh fails with its mirrors taken. -/
theorem refreshCursors_none
    (h : cursorLen w.chan.config.capacity w.region.head w.region.tail = none) :
    refreshCursors w = .error inconsistentCursors
      { w with chan := w.chan.withCursors w.region.head w.region.tail w.region.pinFloor } := by
  rw [PersistentShmChannel.refreshCursors, Effect.get_bind, Effect.set_bind]
  simp only [withCursors, h]
  rfl

theorem Sound.cursorLen (h : w.Sound) :
    cursorLen w.chan.config.capacity w.region.head w.region.tail =
      some (w.region.head - w.region.tail) := by
  have := h.window
  have hw := wrappingSub_of_le h.ordered
  simp only [Dsline.cursorLen, hw]
  rw [if_pos (by have := h.capacity; omega)]

theorem Sound.refreshCursors (h : w.Sound) :
    refreshCursors w = .ok () (w.refreshed (w.region.head - w.region.tail)) :=
  refreshCursors_ok h.cursorLen

theorem mirrors_refreshed (depth : ℕ) (h : w.chan.config.capacity = w.region.capacity) :
    (w.refreshed depth).Mirrors :=
  ⟨h, rfl, rfl, rfl, by simp [refreshed, withCursors, h]⟩

/-- Consuming the slot at the tail, on the region. -/
theorem Mirrors.consume_region (h : w.Mirrors) (hw : w.region.tail + 1 < wordCount) :
    w.consume.region =
      { w.region.setSlot (w.region.tail % w.region.capacity)
          ((w.region.slots (w.region.tail % w.region.capacity)).released
            w.region.frameCapacity) with
        tail := w.region.tail + 1 } := by
  simp only [World.consume, Region.fetchMaxTail, stepTail, h.tail, h.index,
    Region.forceRelease_eq, Region.setSlot_tail, wrappingAdd_of_lt hw,
    Nat.max_eq_right (Nat.le_succ _)]

/-- **Consuming the first content.** -/
theorem Mirrors.consume (h : w.Mirrors) (hw : w.region.tail + 1 < wordCount)
    (hl : Layout w.region (content :: more) pins) :
    Layout w.consume.region more pins ∧ w.consume.Mirrors ∧
      w.region.Words w.region.head (w.region.tail + 1) w.region.pinFloor w.consume.region := by
  have hr := h.consume_region hw
  refine ⟨hr ▸ hl.consume, ⟨?_, ?_, ?_, ?_, ?_⟩, ?_⟩
  · rw [hr]
    exact h.capacity
  · rw [hr]
    exact h.head
  · rw [hr]
    simp only [World.consume, stepTail, h.tail, wrappingAdd_of_lt hw]
  · rw [hr]
    exact h.floor
  · rw [hr]
    simp only [World.consume, stepTail, h.index, h.capacity, Region.setSlot_capacity]
    exact Window.mod_succ_mod _
  · rw [hr]
    exact ⟨rfl, rfl, rfl, rfl, rfl, rfl, rfl⟩

/-- **Consuming the first contents** leaves the others, and moves nothing
but the tail. -/
theorem Mirrors.consumed (h : w.Mirrors) (hw : w.region.tail + contents.length < wordCount)
    (hl : Layout w.region (contents ++ more) pins) :
    Layout (w.consumed contents.length).region more pins ∧
      (w.consumed contents.length).Mirrors ∧
      w.region.Words w.region.head (w.region.tail + contents.length) w.region.pinFloor
        (w.consumed contents.length).region := by
  induction contents using List.reverseRecOn generalizing more with
  | nil => exact ⟨hl, h, .refl _⟩
  | append_singleton contents content ih =>
      rw [List.length_append, List.length_singleton] at hw ⊢
      rw [List.append_assoc, List.singleton_append] at hl
      obtain ⟨hl', hm', hr'⟩ := ih (by omega) hl
      obtain ⟨hl'', hm'', hr''⟩ := hm'.consume (by rw [hr'.tail]; omega) hl'
      rw [hr'.tail, hr'.head, hr'.pinFloor] at hr''
      exact ⟨hl'', hm'', hr'.trans hr''⟩

/-- The contents that can be read from the tail on. -/
def readable : List Content → List SlotSnapshot
  | .committed snapshot :: contents => snapshot :: readable contents
  | _ => []

theorem readable_append (frames : List SlotSnapshot) (contents : List Content) :
    readable (frames.map .committed ++ contents) = frames ++ readable contents := by
  induction frames with
  | nil => rfl
  | cons frame frames ih => simp [readable, ih]

/-- Behind the readable contents stands one that is not. -/
theorem exists_readable (contents : List Content) :
    ∃ others, contents = (readable contents).map .committed ++ others ∧
      ∀ content, others.head? = some content → content.state ≠ .committed := by
  induction contents with
  | nil => exact ⟨[], rfl, by simp⟩
  | cons content contents ih =>
      cases content with
      | committed snapshot =>
          obtain ⟨others, he, ho⟩ := ih
          exact ⟨others, by simp [readable, ← he], ho⟩
      | free => exact ⟨.free :: contents, rfl, by simp [Content.state]⟩
      | writing header => exact ⟨.writing header :: contents, rfl, by simp [Content.state]⟩

/-- The tail slot of a region whose first content is not readable. -/
theorem state_tail_ne (hl : Layout w.region contents pins) (hpos : 0 < w.region.capacity)
    (hhead : ∀ content, contents.head? = some content → content.state ≠ .committed) :
    w.region.state (w.region.tail % w.region.capacity) ≠ .committed := by
  cases contents with
  | nil =>
      rcases hl.state_rest w.region.tail (Nat.le_refl _)
        (Nat.lt_add_of_pos_right hpos) with h | ⟨_, _, _, h⟩ <;>
        (rw [h]; decide)
  | cons content contents =>
      rw [hl.holds.1.state]
      exact hhead content rfl

/-- **A laid-out region offers its readable contents.** -/
theorem Mirrors.offers (h : w.Mirrors) (hpos : 0 < w.region.capacity)
    (hclosed : w.chan.closed = false)
    (hw : w.region.tail + (readable contents).length < wordCount)
    (hl : Layout w.region contents pins) : w.Offers (readable contents) := by
  obtain ⟨others, he, hothers⟩ := exists_readable contents
  generalize readable contents = frames at he hw ⊢
  subst he
  refine ⟨hclosed, fun k hk => ?_, ?_⟩
  · have hsplit : frames.map Content.committed ++ others =
        (frames.take k).map Content.committed ++
          (.committed frames[k] :: ((frames.drop (k + 1)).map Content.committed ++ others)) := by
      rw [← List.cons_append, ← List.map_cons, ← List.drop_eq_getElem_cons hk,
        ← List.append_assoc, ← List.map_append, List.take_append_drop]
    rw [hsplit] at hl
    have hlen : ((frames.take k).map Content.committed).length = k := by
      rw [List.length_map, List.length_take]; omega
    obtain ⟨hl', hm', -⟩ := h.consumed (by rw [hlen]; omega) hl
    rw [hlen] at hl' hm'
    rw [hm'.index]
    exact hl'.holds.1
  · have hlen : (frames.map Content.committed).length = frames.length := List.length_map _
    obtain ⟨hl', hm', hr'⟩ := h.consumed (by rw [hlen]; omega) hl
    rw [hlen] at hl' hm' hr'
    rw [hm'.index]
    exact state_tail_ne hl' (hr'.capacity ▸ hpos) hothers

end World

/-! ## What releasing an extent does -/

namespace PersistentShmChannel

variable {n c j : ℕ}

theorem releaseExtent_words (n index : ℕ) (region : Region) :
    region.Words region.head region.tail region.pinFloor (releaseExtent n index region) := by
  induction n generalizing index region with
  | zero => exact .refl _
  | succ n ih =>
      have h := ih ((index + 1) % region.capacity) (region.forceRelease index)
      rw [releaseExtent]
      rw [Region.forceRelease_eq] at h ⊢
      exact ⟨h.capacity, h.frameCapacity, h.magic, h.format, h.head, h.tail, h.pinFloor⟩

/-- An extent frees its own slots and leaves the others as they are. -/
theorem releaseExtent_slots (region : Region) :
    (releaseExtent n (c % region.capacity) region).slots j = region.slots j ∨
      (∃ k < n, j = (c + k) % region.capacity) ∧
        (releaseExtent n (c % region.capacity) region).state j = .free := by
  induction n generalizing c region with
  | zero => exact .inl rfl
  | succ n ih =>
      have h := ih (c := c + 1) (region.forceRelease (c % region.capacity))
      rw [releaseExtent, Window.mod_succ_mod]
      simp only [Region.forceRelease_eq, Region.setSlot_capacity] at h ⊢
      rcases h with h | ⟨⟨k, hk, hj⟩, hfree⟩
      · by_cases hjc : j = c % region.capacity
        · refine .inr ⟨⟨0, Nat.succ_pos n, by rw [hjc, Nat.add_zero]⟩, ?_⟩
          rw [Region.state, Region.header, h, hjc, Region.setSlot_slots_self]
          rfl
        · rw [h, Region.setSlot_slots_of_ne hjc]
          exact .inl rfl
      · exact .inr ⟨⟨k + 1, by omega, by rw [hj]; congr 1; omega⟩, hfree⟩

theorem releaseExtent_free (region : Region) {k : ℕ} (hk : k < n) :
    (releaseExtent n (c % region.capacity) region).state ((c + k) % region.capacity) = .free := by
  induction n generalizing c k region with
  | zero => omega
  | succ n ih =>
      have hfree (k : ℕ) (hk : k < n) :=
        ih (c := c + 1) (region.forceRelease (c % region.capacity)) hk
      have hkept := releaseExtent_slots (n := n) (c := c + 1) (j := (c + k) % region.capacity)
        (region.forceRelease (c % region.capacity))
      rw [releaseExtent, Window.mod_succ_mod]
      simp only [Region.forceRelease_eq, Region.setSlot_capacity] at hfree hkept ⊢
      rcases hkept with hsame | ⟨-, h⟩
      · cases k with
        | zero =>
            rw [Region.state, Region.header, hsame, Nat.add_zero, Region.setSlot_slots_self]
            rfl
        | succ k =>
            have := hfree k (by omega)
            rwa [Nat.add_assoc, Nat.add_comm 1] at this
      · exact h

end PersistentShmChannel

end Dsline
