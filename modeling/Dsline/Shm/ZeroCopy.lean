import Dsline.Core.Crc
import Dsline.Library.Run
import Dsline.Shm.SpscReceive
/-!
# Zero-copy safety

What holds of leases and views over whole runs: the pin floor is the
smallest live view, exactly the live views' slots are PINNED, and a live view
reads what it read when it was taken (`pin_safety`). A send that finds the
slots it was admitted for leased out burns a sequence number; the receive
that misses it leaves its slot PINNED (`pin_safety_burned`).
-/

namespace Dsline

open PersistentShmChannel SpscState

variable [Checksum] {config : SpscConfig} {host : Host} {w : World} {ops : List SpscOp}
  {s : SpscState} {q : Queue} {synced : Prop}

/-! ## Pins -/

/-- **Views are safe**: the floor is their smallest cursor, their slots are
the PINNED ones, and their bytes stay. -/
structure PinSafe (s : SpscState) : Prop where
  floor : (s.views = [] ∧ s.region.pinFloor = PIN_FLOOR_NONE) ∨
    ((∃ v ∈ s.views, v.view.cursorValue = s.region.pinFloor) ∧
      ∀ v ∈ s.views, s.region.pinFloor ≤ v.view.cursorValue)
  pinned : ∀ index < s.region.capacity,
    s.region.state index = .pinned ↔ ∃ v ∈ s.views, v.view.index = index
  reads : ∀ v ∈ s.views, ∀ offset len,
    v.view.read s.region offset len = v.view.read v.made offset len

/-- The invariant keeps views safe. -/
theorem SpscState.Holds.pinSafe (h : s.Holds config synced q) : PinSafe s where
  floor := by
    rcases h.ring.floor with ⟨hnil, hf⟩ | ⟨hmem, hmin⟩
    · rw [List.map_map, List.map_eq_nil_iff] at hnil
      exact .inl ⟨hnil, hf⟩
    · rw [List.map_map] at hmem hmin
      obtain ⟨v, hv, he⟩ := List.mem_map.1 hmem
      exact .inr ⟨⟨v, hv, he⟩, fun u hu => hmin _ (List.mem_map_of_mem hu)⟩
  pinned index hlt := by
    have hfits := h.ring.layout.fits
    constructor
    · intro hst
      obtain ⟨cursor, h1, h2, rfl⟩ := Window.exists_cursor s.region.tail hlt
      rcases Nat.lt_or_ge cursor (s.region.tail + (contentsOf q.entries).length) with hin | hout
      · obtain ⟨k, rfl⟩ : ∃ k, cursor = s.region.tail + k := ⟨cursor - s.region.tail, by omega⟩
        have hshow := (h.ring.layout.shows (k := k) (by omega)).state
        rw [hst] at hshow
        cases hc : (contentsOf q.entries)[k] <;> rw [hc] at hshow <;> cases hshow
      · rcases h.ring.layout.state_rest _ hout h2 with hfree | ⟨p, hp, rfl, -⟩
        · rw [hfree] at hst
          cases hst
        · obtain ⟨v, hv, rfl⟩ := List.mem_map.1 hp
          refine ⟨v, hv, ?_⟩
          rw [Nat.add_mod_right]
          exact (h.views v hv).index
    · rintro ⟨v, hv, rfl⟩
      rw [(h.views v hv).index]
      exact h.ring.layout.state_pin (p := v.pin) (List.mem_map_of_mem hv)
  reads v hv offset len := by
    have hslot := (h.ring.layout.pinned v.pin (List.mem_map_of_mem hv)).1
    simp only [LiveView.pin, ← (h.views v hv).index] at hslot
    simp only [ShmRecvView.read, hslot]

/-- **Pin safety.** In every run whose calls are admissible — a message the
guard admits finds its slots FREE, whatever is leased — the floor, the
PINNED slots and the bytes are those of the live views. -/
theorem pin_safety (hw : create host config = .ok w) (hmode : config.multiProducer = false)
    (hdrop : config.backpressure ≠ .dropOldest)
    (hrun : Run.Meets SpscState.step (fun s op => s.Admissible config op) (start w) ops) :
    PinSafe (Run.exec SpscState.step (start w) ops) := by
  have hinv : ∃ q, (Run.exec SpscState.step (start w) ops).Holds config True q :=
    hrun.invariant (fun s => ∃ q, s.Holds config True q)
      (fun s op ⟨q, h⟩ hadm => by
        obtain ⟨q', -, h'⟩ := h.step hdrop hadm
        exact ⟨q', h'⟩)
      ⟨_, holds_start hw hmode⟩
  obtain ⟨q, h⟩ := hinv
  exact h.pinSafe

/-- Two views of a ring of two slots, the older one released first. -/
def viewOps : List SpscOp :=
  [.openConsumer sampleHost, .alloc sampleHost 1, .write 0 0 [5], .publish 0,
    .send sampleHost (sampleMessage 6), .recvView sampleHost, .recvView sampleHost, .release 1]

omit [Checksum] in
theorem pin_safety_two_views :
    PinSafe (Run.exec (@SpscState.step crc32Checksum) (start (sampleWorld (sampleConfig 2 1)))
      viewOps) :=
  @pin_safety crc32Checksum _ _ _ _ (rfl : create sampleHost (sampleConfig 2 1) = .ok _) rfl
    (by decide) (by decide +kernel)

/-- A lease is out while a message is sent into the same slot: the send is
admitted, takes a sequence number and fails. -/
def burnOps : List SpscOp :=
  [.openConsumer sampleHost, .alloc sampleHost 1, .send sampleHost (sampleMessage 5), .publish 0,
    .recv sampleHost, .send sampleHost (sampleMessage 6), .recv sampleHost]

omit [Checksum] in
/-- The next message's slot stays PINNED, with no view of it. -/
theorem pin_safety_burned :
    ¬ PinSafe (Run.exec (@SpscState.step crc32Checksum)
      (start (sampleWorld (sampleConfig 1 1))) burnOps) := fun h => by
  have hpin : (Run.exec (@SpscState.step crc32Checksum)
      (start (sampleWorld (sampleConfig 1 1))) burnOps).region.state 0 = .pinned := by
    decide +kernel
  obtain ⟨v, hv, -⟩ := (h.pinned 0 (by decide +kernel)).1 hpin
  have hnone : (Run.exec (@SpscState.step crc32Checksum)
      (start (sampleWorld (sampleConfig 1 1))) burnOps).views.length = 0 := by
    decide +kernel
  rw [List.eq_nil_of_length_eq_zero hnone] at hv
  cases hv

end Dsline
