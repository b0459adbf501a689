import Dsline.Shm.Liveness
import Dsline.Shm.RegionFile
/-!
# The recovery of an open, call by call

`recover_from_storage` as the calls it makes on the mapping, in order, each
with what the ones before it found: the reclaims of dead writers and dead
readers, the scan of the headers, the cursors, the pin floor, and the first
free slot behind the tail. Others write in between. It stores into the region
alone, and it is over after a number of calls the capacity bounds, whatever
it reads.
-/

namespace Dsline

open LittleEndian PersistentShmChannel

/-! ## The file -/

/-- A write of a handle: within the file, and neither the magic nor the
format. -/
def InRegion (file : RegionFile) (offset : ℕ) (bytes : Bytes) : Prop :=
  offset + bytes.length ≤ file.len ∧
    (offset + bytes.length ≤ MAGIC_OFFSET ∨ PIN_FLOOR_OFFSET ≤ offset)

instance (file : RegionFile) (offset : ℕ) (bytes : Bytes) :
    Decidable (InRegion file offset bytes) :=
  inferInstanceAs (Decidable (_ ∧ (_ ∨ _)))

/-- `total_len`, where the sizes do not overflow. -/
def needLen (config : SpscConfig) : ℕ :=
  REGION_HEADER_LEN + config.capacity * regionSlotSize config

/-- `read_header_full` of a handle of this slot size. -/
def RegionFile.readHeader (file : RegionFile) (index slotSize : ℕ) : SlotHeader :=
  .parse (file.bytes.read (regionSlotOffset index slotSize) PERSISTENT_SLOT_HEADER_LEN)

/-- The image of a FREE header. -/
abbrev freeImage : Bytes := (encodeHeader .free 0 0 none false).image

/-- `write_header` of a FREE slot. -/
def RegionFile.writeFree (file : RegionFile) (index slotSize : ℕ) : RegionFile :=
  file.write (regionSlotOffset index slotSize) freeImage

/-! ## The calls -/

/-- The next call of `reclaim_dead_writing` or `reclaim_dead_pinned`. -/
inductive ReclaimAccess where
  | first
  /-- The second read, and the probe of the identity behind it. -/
  | second (header : SlotHeader)
  | clear
  | free
  | flush

/-- What a recovery has read of the ring. -/
structure Seen where
  readable : Bool
  head : ℕ
  tail : ℕ

/-- The next call of `recover_from_storage`. -/
inductive RecoveryCall where
  | reclaiming (expected : SlotState) (index : ℕ) (call : ReclaimAccess)
  /-- `occupied_slot_headers`: whether a slot before this one is readable. -/
  | occupied (index : ℕ) (readable : Bool)
  | loadingHead (readable : Bool)
  | loadingTail (readable : Bool) (head : ℕ)
  | loadingFloor (seen : Seen)
  /-- `scan_pin_floor`. -/
  | scanning (seen : Seen) (floorBefore cursor : ℕ)
  /-- `floor_cas`. -/
  | exchanging (seen : Seen) (floorBefore floor : ℕ)
  | reloading (seen : Seen)
  /-- `infer_head_from_tail`: the slot it looks at, and the slots left. -/
  | inferring (seen : Seen) (head left : ℕ)
  /-- The sequence number of the slot at the tail. -/
  | readingTail

/-- How a recovery goes on behind a call. -/
inductive RecoveryResult where
  | call (next : RecoveryCall)
  | done
  /-- "ring cursors are inconsistent" -/
  | inconsistent
  /-- "flush mmap storage" -/
  | unflushed

namespace RecoveryCall

/-- The scan of the headers, from a slot on. -/
def occupiedFrom (config : SpscConfig) (index : ℕ) (readable : Bool) : RecoveryCall :=
  if index < config.capacity then occupied index readable else loadingHead readable

/-- The reclaims of dead readers, from a slot on. -/
def pinnedFrom (config : SpscConfig) (index : ℕ) : RecoveryCall :=
  if index < config.capacity then reclaiming .pinned index .first else occupiedFrom config 0 false

/-- The reclaims of dead writers, from a slot on. -/
def writingFrom (config : SpscConfig) (index : ℕ) : RecoveryCall :=
  if index < config.capacity then reclaiming .writing index .first else pinnedFrom config 0

/-- The first call: a single producer's writers are reclaimed here. -/
def start (config : SpscConfig) : RecoveryCall :=
  if config.multiProducer then pinnedFrom config 0 else writingFrom config 0

/-- The next slot of a reclaiming loop. -/
def reclaimFrom (config : SpscConfig) (expected : SlotState) (index : ℕ) : RecoveryCall :=
  if expected = .writing then writingFrom config index else pinnedFrom config index

/-- Behind the scan: an exchange where the floor has to change. -/
def scanned (seen : Seen) (floorBefore floor : ℕ) : RecoveryCall :=
  if floorBefore ≠ floor then exchanging seen floorBefore floor else reloading seen

/-- `scan_pin_floor`, from a cursor on. -/
def scanFrom (seen : Seen) (floorBefore cursor : ℕ) : RecoveryCall :=
  if cursor < seen.tail then scanning seen floorBefore cursor
  else scanned seen floorBefore PIN_FLOOR_NONE

/-- Behind the loops: the sequence number at the tail, where a slot is
readable. -/
def inferred (seen : Seen) : RecoveryResult := if seen.readable then .call readingTail else .done

/-- `infer_head_from_tail`, with so many slots left. -/
def inferFrom (seen : Seen) (head left : ℕ) : RecoveryResult :=
  if 0 < left then .call (inferring seen head left) else inferred seen

/-- **What follows a call**: what the file holds decides, and, behind the
second read of a reclaim, whether the identity is of a process that is gone. -/
def next (config : SpscConfig) (file : RegionFile) (gone flushFails : Bool) :
    RecoveryCall → RecoveryResult
  | reclaiming expected index .first =>
      let header := file.readHeader index (regionSlotSize config)
      if header.state = expected ∧ header.identity.isSome then
        .call (reclaiming expected index (.second header))
      else .call (reclaimFrom config expected (index + 1))
  | reclaiming expected index (.second first) =>
      if (file.readHeader index (regionSlotSize config)).full = first.full ∧ gone then
        .call (reclaiming expected index .clear)
      else .call (reclaimFrom config expected (index + 1))
  | reclaiming expected index .clear => .call (reclaiming expected index .free)
  | reclaiming expected index .free => .call (reclaiming expected index .flush)
  | reclaiming expected index .flush =>
      if flushFails then .unflushed else .call (reclaimFrom config expected (index + 1))
  | occupied index readable =>
      let state := (file.readHeader index (regionSlotSize config)).state
      .call (occupiedFrom config (index + 1)
        (readable || state == .committed || state == .pinned))
  | loadingHead readable => .call (loadingTail readable (file.word CURSOR_HEAD_OFFSET 8))
  | loadingTail readable head =>
      .call (loadingFloor ⟨readable, head, file.word CURSOR_TAIL_OFFSET 8⟩)
  | loadingFloor seen =>
      .call (scanFrom seen (file.word PIN_FLOOR_OFFSET 8) (seen.tail - config.capacity))
  | scanning seen floorBefore cursor =>
      if (file.readHeader (cursor % config.capacity) (regionSlotSize config)).state = .pinned then
        .call (scanned seen floorBefore cursor)
      else .call (scanFrom seen floorBefore (cursor + 1))
  | exchanging seen _ _ => .call (reloading seen)
  | reloading seen =>
      match cursorLen config.capacity seen.head seen.tail with
      | none => .inconsistent
      | some _ => inferFrom seen (seen.tail % config.capacity) config.capacity
  | inferring seen head left =>
      let ahead := (head + 1) % config.capacity
      if (file.readHeader head (regionSlotSize config)).state = .free ∨
          ahead = seen.tail % config.capacity then
        inferred seen
      else inferFrom seen ahead (left - 1)
  | readingTail => .done

/-- **What a call stores**: zeros over the frame area of a slot, its FREE
header, and the pin floor where it is still the one read. -/
def stores (config : SpscConfig) (file : RegionFile) : RecoveryCall → List (ℕ × Bytes)
  | reclaiming _ index .clear =>
      [(regionSlotOffset index (regionSlotSize config) + PERSISTENT_SLOT_HEADER_LEN,
        List.replicate (config.slotSize + FRAME_HEADER_LEN) 0)]
  | reclaiming _ index .free => [(regionSlotOffset index (regionSlotSize config), freeImage)]
  | exchanging _ floorBefore floor =>
      if file.word PIN_FLOOR_OFFSET 8 = floorBefore then [(PIN_FLOOR_OFFSET, leBytes 8 floor)]
      else []
  | _ => []

/-- A call is within the ring: the slots it names, and the cursors left to
scan. -/
def Within (capacity : ℕ) : RecoveryCall → Prop
  | reclaiming expected index _ =>
      index < capacity ∧ (expected = .writing ∨ expected = .pinned)
  | occupied index _ => index < capacity
  | scanning seen _ cursor => cursor < seen.tail ∧ seen.tail ≤ cursor + capacity
  | inferring _ _ left => 0 < left ∧ left ≤ capacity
  | _ => True

/-- The calls of a reclaim that are left, at most. -/
def reclaimLeft : ReclaimAccess → ℕ
  | .first => 5
  | .second _ => 4
  | .clear => 3
  | .free => 2
  | .flush => 1

/-- How many calls are left, at most. -/
def left (capacity : ℕ) : RecoveryCall → ℕ
  | reclaiming .writing index call =>
      5 * (capacity - (index + 1)) + reclaimLeft call + (8 * capacity + 6)
  | reclaiming _ index call => 5 * (capacity - (index + 1)) + reclaimLeft call + (3 * capacity + 6)
  | occupied index _ => capacity - index + (2 * capacity + 6)
  | loadingHead _ => 2 * capacity + 6
  | loadingTail _ _ => 2 * capacity + 5
  | loadingFloor _ => 2 * capacity + 4
  | scanning seen _ cursor => seen.tail - cursor + (capacity + 3)
  | exchanging _ _ _ => capacity + 3
  | reloading _ => capacity + 2
  | inferring _ _ left => left + 1
  | readingTail => 1

end RecoveryCall

/-- The calls of a recovery, at most: two reclaims of five calls a slot, three
reads of every header, and six on the shared words and the tail. -/
def recoveryCalls (capacity : ℕ) : ℕ := 13 * capacity + 6

/-- What `total_len` returns is the length a geometry needs. -/
theorem needLen_eq {config : SpscConfig} {len : ℕ} (h : fileLen config = .ok len) :
    needLen config = len := by
  have htotal := (fileLen_eq_ok h).2
  simp only [totalLen, checkedMul, checkedAdd] at htotal
  split at htotal
  · rename_i heq
    split at heq
    · simp only [Option.bind_some] at heq
      split at heq
      · rw [needLen, Nat.add_comm, ← Except.ok.inj htotal]
        exact Option.some.inj heq
      · cases heq
    · cases heq
  · cases htotal

/-! ## A recovery ends -/

namespace RecoveryCall

variable {config : SpscConfig} {file : RegionFile} {capacity index cursor bound : ℕ}

/-- A call within the ring, with at most so many left. -/
def Bounded (capacity bound : ℕ) (call : RecoveryCall) : Prop :=
  call.Within capacity ∧ call.left capacity ≤ bound

/-- The recovery goes on within a bound, if it goes on. -/
def Continues (capacity bound : ℕ) : RecoveryResult → Prop
  | .call next => next.Bounded capacity bound
  | .done | .inconsistent | .unflushed => True

theorem Bounded.mono {call : RecoveryCall} {bound' : ℕ} (h : call.Bounded capacity bound)
    (hle : bound ≤ bound') : call.Bounded capacity bound' :=
  ⟨h.1, Nat.le_trans h.2 hle⟩

theorem Continues.mono {result : RecoveryResult} {bound' : ℕ} (h : Continues capacity bound result)
    (hle : bound ≤ bound') : Continues capacity bound' result := by
  cases result with
  | call next => exact Bounded.mono h hle
  | done | inconsistent | unflushed => trivial

theorem occupiedFrom_bounded (config : SpscConfig) (index : ℕ) (readable : Bool) :
    (occupiedFrom config index readable).Bounded config.capacity
      (config.capacity - index + (2 * config.capacity + 6)) := by
  rw [occupiedFrom]
  split
  · exact ⟨‹_›, Nat.le_refl _⟩
  · exact ⟨trivial, Nat.le_add_left _ _⟩

theorem pinnedFrom_bounded (config : SpscConfig) (index : ℕ) :
    (pinnedFrom config index).Bounded config.capacity
      (5 * (config.capacity - index) + (3 * config.capacity + 6)) := by
  rw [pinnedFrom]
  split
  · refine ⟨⟨‹_›, .inr rfl⟩, ?_⟩
    simp only [left, reclaimLeft]
    omega
  · exact (occupiedFrom_bounded config 0 false).mono (by omega)

theorem writingFrom_bounded (config : SpscConfig) (index : ℕ) :
    (writingFrom config index).Bounded config.capacity
      (5 * (config.capacity - index) + (8 * config.capacity + 6)) := by
  rw [writingFrom]
  split
  · refine ⟨⟨‹_›, .inl rfl⟩, ?_⟩
    simp only [left, reclaimLeft]
    omega
  · exact (pinnedFrom_bounded config 0).mono (by omega)

theorem start_bounded (config : SpscConfig) :
    (start config).Bounded config.capacity (recoveryCalls config.capacity) := by
  rw [start, recoveryCalls]
  split
  · exact (pinnedFrom_bounded config 0).mono (by omega)
  · exact (writingFrom_bounded config 0).mono (by omega)

theorem reclaimFrom_bounded {expected : SlotState} (call : ReclaimAccess)
    (h : expected = .writing ∨ expected = .pinned) :
    (reclaimFrom config expected (index + 1)).Bounded config.capacity
      (left config.capacity (reclaiming expected index call) - 1) := by
  have hcall : 1 ≤ reclaimLeft call := by cases call <;> simp only [reclaimLeft] <;> omega
  rcases h with rfl | rfl
  · rw [reclaimFrom, if_pos rfl]
    refine (writingFrom_bounded config (index + 1)).mono ?_
    simp only [left]
    omega
  · rw [reclaimFrom, if_neg (by decide)]
    refine (pinnedFrom_bounded config (index + 1)).mono ?_
    simp only [left]
    omega

theorem scanned_bounded (seen : Seen) (floorBefore floor : ℕ) :
    (scanned seen floorBefore floor).Bounded capacity (capacity + 3) := by
  rw [scanned]
  split
  · exact ⟨trivial, Nat.le_refl _⟩
  · exact ⟨trivial, Nat.le_succ _⟩

theorem scanFrom_bounded {seen : Seen} (floorBefore : ℕ) (h : seen.tail ≤ cursor + capacity) :
    (scanFrom seen floorBefore cursor).Bounded capacity
      (seen.tail - cursor + (capacity + 3)) := by
  rw [scanFrom]
  split
  · exact ⟨⟨‹_›, h⟩, Nat.le_refl _⟩
  · exact (scanned_bounded seen floorBefore PIN_FLOOR_NONE).mono (Nat.le_add_left _ _)

theorem inferred_continues (seen : Seen) : Continues capacity 1 (inferred seen) := by
  rw [inferred]
  split
  · exact ⟨trivial, Nat.le_refl _⟩
  · trivial

theorem inferFrom_continues (seen : Seen) (head : ℕ) {slots : ℕ} (h : slots ≤ capacity) :
    Continues capacity (slots + 1) (inferFrom seen head slots) := by
  rw [inferFrom]
  split
  · exact ⟨⟨‹_›, h⟩, Nat.le_refl _⟩
  · exact (inferred_continues seen).mono (Nat.le_add_left _ _)

/-- **Every call leaves one call less**, whatever it reads. -/
theorem next_continues {call : RecoveryCall} (file : RegionFile) (gone flushFails : Bool)
    (h : call.Within config.capacity) :
    Continues config.capacity (call.left config.capacity - 1)
      (call.next config file gone flushFails) := by
  cases call with
  | reclaiming expected index call =>
      have hnext : (reclaimFrom config expected (index + 1)).Bounded config.capacity
          (left config.capacity (reclaiming expected index call) - 1) :=
        reclaimFrom_bounded call h.2
      have hstays : ∀ call', reclaimLeft call' + 1 = reclaimLeft call →
          (reclaiming expected index call').Bounded config.capacity
            (left config.capacity (reclaiming expected index call) - 1) := by
        intro call' hleft
        refine ⟨h, ?_⟩
        rcases h.2 with rfl | rfl <;>
          · simp only [left]
            omega
      cases call with
      | first =>
          dsimp only [next]
          split
          · exact hstays _ rfl
          · exact hnext
      | second first =>
          dsimp only [next]
          split
          · exact hstays _ rfl
          · exact hnext
      | clear => exact hstays _ rfl
      | free => exact hstays _ rfl
      | flush =>
          dsimp only [next]
          split
          · trivial
          · exact hnext
  | occupied index readable =>
      have hindex : index < config.capacity := h
      refine (occupiedFrom_bounded config (index + 1) _).mono ?_
      simp only [left]
      omega
  | loadingHead readable => exact ⟨trivial, Nat.le_refl _⟩
  | loadingTail readable head => exact ⟨trivial, Nat.le_refl _⟩
  | loadingFloor seen =>
      refine (scanFrom_bounded _ (by omega)).mono ?_
      simp only [left]
      omega
  | scanning seen floorBefore cursor =>
      obtain ⟨hlt, hle⟩ := h
      dsimp only [next]
      split
      · refine (scanned_bounded seen floorBefore cursor).mono ?_
        simp only [left]
        omega
      · refine (scanFrom_bounded floorBefore (by omega)).mono ?_
        simp only [left]
        omega
  | exchanging seen floorBefore floor => exact ⟨trivial, Nat.le_refl _⟩
  | reloading seen =>
      dsimp only [next]
      split
      · trivial
      · exact inferFrom_continues seen _ (Nat.le_refl _)
  | inferring seen head slots =>
      obtain ⟨hpos, hle⟩ := h
      dsimp only [next]
      split
      · exact (inferred_continues seen).mono hpos
      · exact (inferFrom_continues seen _ (by omega)).mono (by simp only [left]; omega)
  | readingTail => trivial

theorem left_le {call : RecoveryCall} (h : call.Within capacity) :
    call.left capacity ≤ recoveryCalls capacity := by
  rw [recoveryCalls]
  cases call with
  | reclaiming expected index call =>
      obtain ⟨hindex, hexpected⟩ := h
      have hcall : reclaimLeft call ≤ 5 := by cases call <;> simp only [reclaimLeft] <;> omega
      rcases hexpected with rfl | rfl <;>
        · simp only [left]
          omega
  | scanning seen floorBefore cursor =>
      obtain ⟨hlt, hle⟩ := h
      simp only [left]
      omega
  | inferring seen head slots =>
      obtain ⟨hpos, hle⟩ := h
      simp only [left]
      omega
  | occupied _ _ | loadingHead _ | loadingTail _ _ | loadingFloor _ | exchanging _ _ _
  | reloading _ | readingTail =>
      simp only [left]
      omega

theorem left_pos (capacity : ℕ) (call : RecoveryCall) : 0 < call.left capacity := by
  cases call with
  | reclaiming expected index call =>
      have hcall : 0 < reclaimLeft call := by cases call <;> simp only [reclaimLeft] <;> omega
      cases expected <;> simp only [left] <;> omega
  | occupied _ _ | loadingHead _ | loadingTail _ _ | loadingFloor _ | scanning _ _ _
  | exchanging _ _ _ | reloading _ | inferring _ _ _ | readingTail =>
      simp only [left]
      omega

/-- A call goes on where its flush does not fail. -/
theorem next_flushed (call : RecoveryCall) (config : SpscConfig) (file : RegionFile) (gone : Bool) :
    call.next config file gone false ≠ .unflushed := by
  have hinferred : ∀ seen, inferred seen ≠ .unflushed := by
    intro seen h
    rw [inferred] at h
    split at h <;> cases h
  have hinfer : ∀ seen head slots, inferFrom seen head slots ≠ .unflushed := by
    intro seen head slots h
    rw [inferFrom] at h
    split at h
    · cases h
    · exact hinferred seen h
  intro h
  cases call with
  | reclaiming expected index call =>
      cases call with
      | first | second _ =>
          dsimp only [next] at h
          split at h <;> cases h
      | clear | free | flush => cases h
  | scanning seen floorBefore cursor =>
      dsimp only [next] at h
      split at h <;> cases h
  | reloading seen =>
      dsimp only [next] at h
      split at h
      · cases h
      · exact hinfer _ _ _ h
  | inferring seen head slots =>
      dsimp only [next] at h
      split at h
      · exact hinferred seen h
      · exact hinfer _ _ _ h
  | occupied _ _ | loadingHead _ | loadingTail _ _ | loadingFloor _ | exchanging _ _ _
  | readingTail => cases h

/-! ## A recovery stores into the region -/

theorem slot_within (h : index < config.capacity) :
    regionSlotOffset index (regionSlotSize config) + regionSlotSize config ≤ needLen config := by
  have hmul : (index + 1) * regionSlotSize config ≤ config.capacity * regionSlotSize config :=
    Nat.mul_le_mul_right _ h
  rw [Nat.add_mul, Nat.one_mul] at hmul
  rw [regionSlotOffset, needLen]
  omega

/-- **What a recovery stores is in the region.** -/
theorem stores_inRegion {call : RecoveryCall} {w : ℕ × Bytes} (h : call.Within config.capacity)
    (hlen : needLen config ≤ file.len) (hw : w ∈ call.stores config file) :
    InRegion file w.1 w.2 := by
  have hslot : ∀ offset, REGION_HEADER_LEN ≤ offset → PIN_FLOOR_OFFSET ≤ offset := fun offset =>
    Nat.le_trans (by decide)
  cases call with
  | reclaiming expected index call =>
      have hle := slot_within h.1
      cases call with
      | clear =>
          obtain rfl := List.mem_singleton.1 hw
          refine ⟨?_, .inr (hslot _ (Nat.le_trans (Nat.le_add_right _ _) (Nat.le_add_right _ _)))⟩
          rw [List.length_replicate]
          rw [regionSlotSize] at hle ⊢
          omega
      | free =>
          obtain rfl := List.mem_singleton.1 hw
          refine ⟨?_, .inr (hslot _ (Nat.le_add_right _ _))⟩
          rw [SlotHeader.length_image]
          rw [regionSlotSize] at hle ⊢
          omega
      | first | second _ | flush => exact absurd hw List.not_mem_nil
  | exchanging seen floorBefore floor =>
      rw [stores] at hw
      split at hw
      · obtain rfl := List.mem_singleton.1 hw
        refine ⟨?_, .inr (Nat.le_refl _)⟩
        have hheader : PIN_FLOOR_OFFSET + 8 ≤ needLen config :=
          Nat.le_trans (by decide) (Nat.le_add_right _ _)
        rw [length_leBytes]
        exact Nat.le_trans hheader hlen
      · exact absurd hw List.not_mem_nil
  | occupied _ _ | loadingHead _ | loadingTail _ _ | loadingFloor _ | scanning _ _ _ | reloading _
  | inferring _ _ _ | readingTail => exact absurd hw List.not_mem_nil

end RecoveryCall

end Dsline
