import Dsline.Shm.Ring
/-!
# The layout of a region

A region is laid out as a list of contents with some pins when the cursors
from the tail on hold the contents, and the rest of the lap is FREE but for
the pins: slots behind the tail whose views are still live. Each operation
on a region changes the layout in one way: a reservation appends a free
content, a write replaces one content, consuming drops the first, a view
turns the first into a pin, a release removes a pin.
-/

namespace Dsline

/-- A slot behind the tail that a view keeps: its cursor, and the slot. -/
structure Pin where
  cursor : ℕ
  slot : Slot

structure Layout (region : Region) (contents : List Content) (pins : List Pin) : Prop where
  fits : contents.length ≤ region.capacity
  holds : region.Holds region.tail contents
  /-- The pins lie behind the tail, within the lap the contents leave. -/
  bound : ∀ p ∈ pins, region.tail + contents.length ≤ p.cursor + region.capacity ∧
    p.cursor < region.tail
  pinned : ∀ p ∈ pins, region.slots (p.cursor % region.capacity) = p.slot ∧
    p.slot.header.state = .pinned
  distinct : (pins.map Pin.cursor).Nodup
  free : ∀ cursor, region.tail + contents.length ≤ cursor →
    cursor < region.tail + region.capacity → (∀ p ∈ pins, p.cursor + region.capacity ≠ cursor) →
      region.state (cursor % region.capacity) = .free

namespace Layout

variable {region : Region} {contents contents' : List Content} {content content' : Content}
  {pins : List Pin} {p : Pin} {slot : Slot} {k : ℕ}

/-- The index of the cursor `k` behind the tail. -/
abbrev at' (region : Region) (k : ℕ) : ℕ := (region.tail + k) % region.capacity

/-- Words other than the tail do not change a layout. -/
theorem congr {region' : Region} (h : Layout region contents pins)
    (hslots : region'.slots = region.slots) (hcap : region'.capacity = region.capacity)
    (hfit : region'.frameCapacity = region.frameCapacity) (htail : region'.tail = region.tail) :
    Layout region' contents pins where
  fits := hcap ▸ h.fits
  holds := by
    rw [htail]
    exact h.holds.congr hcap hfit fun k _ => by rw [hslots]
  bound p hp := by
    rw [htail, hcap]
    exact h.bound p hp
  pinned p hp := by
    rw [hslots, hcap]
    exact h.pinned p hp
  distinct := h.distinct
  free cursor h1 h2 h3 := by
    rw [htail] at h1 h2
    rw [hcap] at h2 h3 ⊢
    rw [← h.free cursor h1 h2 h3, Region.state, Region.header, hslots]
    rfl

theorem shows (h : Layout region contents pins) {k : ℕ} (hk : k < contents.length) :
    region.Shows (at' region k) contents[k] :=
  h.holds.get hk

/-- The slot of a pin. -/
theorem state_pin (h : Layout region contents pins) (hp : p ∈ pins) :
    region.state (p.cursor % region.capacity) = .pinned := by
  rw [Region.state, Region.header, (h.pinned p hp).1]
  exact (h.pinned p hp).2

/-- The slot of a cursor behind the contents is FREE, or a pin's. -/
theorem state_rest (h : Layout region contents pins) (cursor : ℕ)
    (h1 : region.tail + contents.length ≤ cursor) (h2 : cursor < region.tail + region.capacity) :
    region.state (cursor % region.capacity) = .free ∨
      ∃ p ∈ pins, p.cursor + region.capacity = cursor ∧
        region.state (cursor % region.capacity) = .pinned := by
  by_cases hc : ∃ p ∈ pins, p.cursor + region.capacity = cursor
  · obtain ⟨p, hp, rfl⟩ := hc
    refine .inr ⟨p, hp, rfl, ?_⟩
    rw [Nat.add_mod_right]
    exact h.state_pin hp
  · exact .inl (h.free cursor h1 h2 fun p hp he => hc ⟨p, hp, he⟩)

/-- **Reserving** the next cursor, where its slot is FREE. -/
theorem reserve (h : Layout region contents pins) (hlt : contents.length < region.capacity)
    (hfree : region.state (at' region contents.length) = .free) :
    Layout region (contents ++ [.free]) pins where
  fits := by
    rw [List.length_append, List.length_singleton]
    exact hlt
  holds := Region.Holds.append.2 ⟨h.holds, hfree, trivial⟩
  bound p hp := by
    have hb := h.bound p hp
    have hne : p.cursor + region.capacity ≠ region.tail + contents.length := fun he => by
      have hst := h.state_pin hp
      rw [← Nat.add_mod_right, he, hfree] at hst
      cases hst
    rw [List.length_append, List.length_singleton]
    omega
  pinned := h.pinned
  distinct := h.distinct
  free cursor h1 h2 h3 := by
    rw [List.length_append] at h1
    exact h.free cursor (by omega) h2 h3

/-- Giving the last cursor back, where its slot is FREE. -/
theorem unreserve (h : Layout region (contents ++ [.free]) pins) :
    Layout region contents pins where
  fits := by
    have := h.fits
    rw [List.length_append] at this
    omega
  holds := (Region.Holds.append.1 h.holds).1
  bound p hp := by
    have := h.bound p hp
    rw [List.length_append] at this
    omega
  pinned := h.pinned
  distinct := h.distinct
  free cursor h1 h2 h3 := by
    have hlen : (contents ++ [Content.free]).length = contents.length + 1 := by simp
    rcases Nat.eq_or_lt_of_le h1 with rfl | h1
    · exact (Region.Holds.append.1 h.holds).2.1
    · exact h.free cursor (by omega) h2 h3

variable (slot) in
/-- A write to the slot of one cursor of the lap leaves the slots of the
others. -/
theorem other_slots {c d : ℕ} (h1 : region.tail ≤ c) (h2 : c < region.tail + region.capacity)
    (h3 : region.tail ≤ d) (h4 : d < region.tail + region.capacity) (hne : d ≠ c) :
    (region.setSlot (c % region.capacity) slot).slots (d % region.capacity) =
      region.slots (d % region.capacity) :=
  Region.setSlot_slots_of_ne (Window.mod_ne h3 h4 h1 h2 hne)

variable (slot) in
/-- The slot of a pin, as a cursor of the lap from the tail on. -/
theorem other_pin {c : ℕ} (h : Layout region contents pins) (h1 : region.tail ≤ c)
    (h2 : c < region.tail + region.capacity) (hp : p ∈ pins)
    (hne : p.cursor + region.capacity ≠ c) :
    (region.setSlot (c % region.capacity) slot).slots (p.cursor % region.capacity) =
      region.slots (p.cursor % region.capacity) := by
  have hb := h.bound p hp
  have := other_slots slot h1 h2 (d := p.cursor + region.capacity) (by omega) (by omega)
    hne
  rwa [Nat.add_mod_right] at this

variable (content slot) in
/-- **Rewriting** the slot of one cursor of the contents. -/
theorem setAt (h : Layout region contents pins) (hk : k < contents.length)
    (hs : (region.setSlot (at' region k) slot).Shows (at' region k) content) :
    Layout (region.setSlot (at' region k) slot) (contents.set k content) pins where
  fits := by simpa using h.fits
  holds := by
    have hfits := h.fits
    have hsplit : contents.set k content =
        contents.take k ++ content :: contents.drop (k + 1) := by
      rw [List.set_eq_take_append_cons_drop, if_pos hk]
    have hparts : region.Holds region.tail
        (contents.take k ++ contents[k] :: contents.drop (k + 1)) := by
      rw [← List.drop_eq_getElem_cons hk, List.take_append_drop]
      exact h.holds
    have hlt : (contents.take k).length = k := by rw [List.length_take]; omega
    obtain ⟨h1, -, h3⟩ := Region.Holds.append.1 hparts
    rw [hlt] at h3
    rw [hsplit, Region.Holds.append, hlt, Region.setSlot_tail]
    refine ⟨h1.congr rfl rfl fun i hi => other_slots _ (by omega) (by omega) (by omega) (by omega)
      (by omega), hs, h3.congr rfl rfl fun i hi => other_slots _ (by omega) (by omega) (by omega)
        ?_ (by omega)⟩
    rw [List.length_drop] at hi
    omega
  bound p hp := by simpa using h.bound p hp
  pinned p hp := by
    have hb := h.bound p hp
    rw [Region.setSlot_capacity, h.other_pin _ (by omega) (by have := h.fits; omega) hp (by omega)]
    exact h.pinned p hp
  distinct := h.distinct
  free cursor h1 h2 h3 := by
    simp only [List.length_set, Region.setSlot_tail, Region.setSlot_capacity] at h1 h2 h3 ⊢
    rw [← h.free cursor h1 h2 h3, Region.state, Region.header,
      other_slots _ (by omega) (by omega) (by omega) h2 (by omega)]
    rfl

/-- A write behind the contents: reserve the cursor, then write its slot. -/
theorem push (h : Layout region contents pins) (hlt : contents.length < region.capacity)
    (hfree : region.state (at' region contents.length) = .free)
    (hs : (region.setSlot (at' region contents.length) slot).Shows
      (at' region contents.length) content) :
    Layout (region.setSlot (at' region contents.length) slot) (contents ++ [content]) pins := by
  have hset := (h.reserve hlt hfree).setAt _ _ (k := contents.length) (by simp) hs
  rwa [List.set_append_right _ _ (Nat.le_refl _), Nat.sub_self, List.set_cons_zero] at hset

/-- Taking the last content back. -/
theorem pop (h : Layout region (contents ++ [content]) pins)
    (hs : slot.header.state = .free) :
    Layout (region.setSlot (at' region contents.length) slot) contents pins := by
  have hset := h.setAt .free slot (k := contents.length) (by simp)
    (by simpa [Region.Shows, Region.state, Region.header] using hs)
  rw [List.set_append_right _ _ (Nat.le_refl _), Nat.sub_self, List.set_cons_zero] at hset
  exact hset.unreserve

/-- **Stepping the tail** over a free first content. -/
theorem shift (h : Layout region (.free :: contents) pins) :
    Layout { region with tail := region.tail + 1 } contents pins where
  fits := Nat.le_of_succ_le h.fits
  holds := h.holds.2.congr rfl rfl fun _ _ => rfl
  bound p hp := by
    have hb := h.bound p hp
    simp only [List.length_cons] at hb ⊢
    omega
  pinned := h.pinned
  distinct := h.distinct
  free cursor h1 h2 h3 := by
    simp only at h1 h2 h3 ⊢
    have hlen : (Content.free :: contents).length = contents.length + 1 := rfl
    rcases Nat.lt_or_ge cursor (region.tail + region.capacity) with hlt | hge
    · exact h.free cursor (by omega) hlt h3
    · obtain rfl : cursor = region.tail + region.capacity := by omega
      rw [Nat.add_mod_right]
      exact h.holds.1

/-- **Consuming** the first content. -/
theorem consume (h : Layout region (content :: contents) pins) :
    Layout
      { region.setSlot (region.tail % region.capacity)
          ((region.slots (region.tail % region.capacity)).released region.frameCapacity) with
        tail := region.tail + 1 } contents pins := by
  have hs := h.setAt .free
    ((region.slots (region.tail % region.capacity)).released region.frameCapacity) (k := 0)
    (Nat.zero_lt_succ _)
    (by simp [Region.Shows, Region.state, Region.header])
  rw [List.set_cons_zero] at hs
  exact hs.shift

/-- **A view** turns the first content into a pin. -/
theorem pin (h : Layout region (content :: contents) pins) (slot : Slot)
    (hs : slot.header.state = .pinned) :
    Layout { region.setSlot (region.tail % region.capacity) slot with tail := region.tail + 1 }
      contents (⟨region.tail, slot⟩ :: pins) := by
  have hfits := h.fits
  have hbound := h.bound
  simp only [List.length_cons] at hfits hbound
  have hother : ∀ c, region.tail < c → c < region.tail + region.capacity →
      (region.setSlot (region.tail % region.capacity) slot).slots (c % region.capacity) =
        region.slots (c % region.capacity) := fun c h1 h2 =>
    other_slots _ (Nat.le_refl _) (by omega) (by omega) h2 (by omega)
  refine ⟨by simp only [Region.setSlot_capacity]; omega,
    h.holds.2.congr rfl rfl fun k hk => hother _ (by omega) (by omega), ?_, ?_, ?_, ?_⟩
  · intro p hp
    simp only [Region.setSlot_capacity]
    rcases List.mem_cons.1 hp with rfl | hp
    · exact ⟨by simp only; omega, Nat.lt_succ_self _⟩
    · have := hbound p hp
      omega
  · intro p hp
    rcases List.mem_cons.1 hp with rfl | hp
    · exact ⟨Region.setSlot_slots_self, hs⟩
    · have hb := hbound p hp
      have := h.other_pin slot (Nat.le_refl region.tail) (by omega) hp (by omega)
      exact ⟨this.trans (h.pinned p hp).1, (h.pinned p hp).2⟩
  · rw [List.map_cons, List.nodup_cons]
    refine ⟨fun hmem => ?_, h.distinct⟩
    obtain ⟨p, hp, he⟩ := List.mem_map.1 hmem
    have hlt := (hbound p hp).2
    simp only at he
    omega
  · intro cursor h1 h2 h3
    simp only [Region.setSlot_capacity] at h1 h2 h3 ⊢
    have hne := h3 _ List.mem_cons_self
    simp only at hne
    have hfree := h.free cursor (by simp only [List.length_cons]; omega) (by omega)
      fun p hp => h3 p (List.mem_cons_of_mem _ hp)
    have hslot := hother cursor (by omega) (by omega)
    rw [← hfree]
    simp only [Region.state, Region.header, hslot]

/-- **Releasing a pin.** -/
theorem unpin (h : Layout region contents pins) (hk : k < pins.length)
    (hs : slot.header.state = .free) :
    Layout (region.setSlot (pins[k].cursor % region.capacity) slot) contents
      (pins.eraseIdx k) := by
  have hfits := h.fits
  have hmem := List.getElem_mem hk
  have hb := h.bound _ hmem
  have hidx : pins[k].cursor % region.capacity =
      (pins[k].cursor + region.capacity) % region.capacity := (Nat.add_mod_right _ _).symm
  have hother : ∀ c, region.tail ≤ c → c < region.tail + region.capacity →
      c ≠ pins[k].cursor + region.capacity →
        (region.setSlot (pins[k].cursor % region.capacity) slot).slots (c % region.capacity) =
          region.slots (c % region.capacity) := fun c h1 h2 hne => by
    rw [hidx]
    exact other_slots _ (by omega) (by omega) h1 h2 hne
  have hdist : ∀ q ∈ pins.eraseIdx k, q.cursor ≠ pins[k].cursor := by
    intro q hq he
    obtain ⟨i, hi, hik, rfl⟩ := List.mem_eraseIdx_iff_getElem.1 hq
    have hinj := List.nodup_iff_injective_getElem.1 h.distinct
    have := @hinj ⟨i, by simpa using hi⟩ ⟨k, by simpa using hk⟩ (by simpa using he)
    exact hik (by simpa using this)
  refine ⟨hfits, h.holds.congr rfl rfl fun i hi => hother _ (by omega) (by omega) (by omega),
    fun q hq => h.bound q (List.mem_of_mem_eraseIdx hq), fun q hq => ?_, ?_,
    fun cursor h1 h2 h3 => ?_⟩
  · have hq' := List.mem_of_mem_eraseIdx hq
    have hbq := h.bound q hq'
    have hne := hdist q hq
    have := hother (q.cursor + region.capacity) (by omega) (by omega) (by omega)
    rw [Nat.add_mod_right] at this
    exact ⟨this.trans (h.pinned q hq').1, (h.pinned q hq').2⟩
  · rw [← List.eraseIdx_map]
    exact h.distinct.eraseIdx k
  · simp only [Region.setSlot_tail, Region.setSlot_capacity] at h1 h2 h3 ⊢
    by_cases he : cursor = pins[k].cursor + region.capacity
    · subst he
      rw [Nat.add_mod_right]
      simpa [Region.state, Region.header] using hs
    · have hfree := h.free cursor h1 h2 fun q hq hqe => by
        obtain ⟨i, hi, rfl⟩ := List.getElem_of_mem hq
        by_cases hik : i = k
        · subst hik
          exact he hqe.symm
        · exact h3 _ (List.mem_eraseIdx_iff_getElem.2 ⟨i, hi, hik, rfl⟩) hqe
      rw [← hfree]
      simp only [Region.state, Region.header, hother cursor (by omega) h2 he]

/-- **Counting slots by state is counting contents.** -/
theorem countP_state
    (hl : Layout region contents pins) (p : SlotState → Bool) (hfree : p .free = false)
    (hpin : p .pinned = false) :
    ((List.range region.capacity).countP fun index => p (region.state index)) =
      contents.countP fun content => p content.state := by
  have hfits := hl.fits
  rw [Window.countP_range region.tail]
  obtain ⟨rest, hrest⟩ : ∃ rest, region.capacity = contents.length + rest :=
    ⟨region.capacity - contents.length, by omega⟩
  have hin : ((List.range contents.length).countP fun k =>
      p (region.state ((region.tail + k) % region.capacity))) =
        contents.countP fun content => p content.state := by
    have hmap : (List.range contents.length).map
        (fun k => region.state ((region.tail + k) % region.capacity)) =
          contents.map Content.state := by
      refine List.ext_getElem (by simp) fun k h1 h2 => ?_
      simp only [List.getElem_map, List.getElem_range]
      exact (hl.shows (by simpa using h2)).state
    have := congrArg (List.countP p) hmap
    simpa only [List.countP_map, Function.comp_def] using this
  have hout : (((List.range rest).map (contents.length + ·)).countP fun k =>
      p (region.state ((region.tail + k) % region.capacity))) = 0 := by
    rw [List.countP_eq_zero]
    intro k hk
    obtain ⟨j, hj, rfl⟩ := List.mem_map.1 hk
    rw [List.mem_range] at hj
    rcases hl.state_rest (region.tail + (contents.length + j)) (by omega) (by omega)
      with h | ⟨_, _, _, h⟩ <;> simp [h, hfree, hpin]
  have hsplit : List.range region.capacity =
      List.range contents.length ++ (List.range rest).map (contents.length + ·) := by
    rw [hrest, List.range_add]
  conv_lhs => rw [hsplit]
  rw [List.countP_append, hin, hout, Nat.add_zero]

end Layout

end Dsline
