import Dsline.Shm.Flush
/-!
# The region through its storage backend

`PersistentSlotRegion` over the bytes of its file. Each access passes the
range check of the backend, and the two backends check against their own
notion of the total size: the mapping against the length the region asked
for, the file against `capacity * slot_size`, which leaves out the region
header. So the last bytes of the last slot are out of bounds on the file.
-/

namespace Dsline

inductive StorageBackend where
  /-- `FileSlotStorage`. -/
  | file
  /-- `MmapSlotStorage`. -/
  | mmap
  deriving DecidableEq, Repr

/-- A backend as it was created. -/
structure SlotStorage where
  backend : StorageBackend
  capacity : ℕ
  slotSize : ℕ
  totalLen : ℕ
  deriving DecidableEq, Repr

/-- Calls that read and write the file behind a region. -/
abbrev FileM := EStateM Failure RegionFile

namespace SlotStorage

/-- `validate_range` of each backend. -/
def validateRange (storage : SlotStorage) (range : ByteRange) : Except Failure Unit :=
  match storage.backend with
  | .file =>
      match checkedMul storage.capacity storage.slotSize with
      | none => .error (.ofChannel (.invalidConfig "storage size overflow"))
      | some total =>
          if total < range.offset ∨ total - range.offset < range.len then
            .error (.ofChannel (.invalidConfig "file storage range out of bounds"))
          else .ok ()
  | .mmap =>
      if storage.totalLen < range.offset ∨ storage.totalLen - range.offset < range.len then
        .error (.ofChannel (.invalidConfig "mmap storage range out of bounds"))
      else .ok ()

/-- `set_len` of a new file, under the text of each backend. -/
def resize (backend : StorageBackend) (len : ℕ) : Except Failure Unit :=
  match backend with
  | .file =>
      if isizeMax < len then .error (.ofChannel (.storageIo "resize file storage")) else .ok ()
  | .mmap => PersistentShmChannel.setLen len

/-- `create` of each backend. -/
def create (backend : StorageBackend) (capacity slotSize totalLen : ℕ) :
    Except Failure (SlotStorage × RegionFile) := do
  if capacity = 0 then
    .error (.ofChannel (.invalidConfig "capacity must be greater than zero"))
  if slotSize = 0 then
    .error (.ofChannel (.invalidConfig "slot_size must be greater than zero"))
  resize backend totalLen
  return (⟨backend, capacity, slotSize, totalLen⟩, .zero totalLen)

/-- `read_at`. -/
def readAt (storage : SlotStorage) (range : ByteRange) : FileM Bytes := fun file =>
  match storage.validateRange range with
  | .error err => .error err file
  | .ok () => .ok (file.bytes.read range.offset range.len) file

/-- `write_at`. -/
def writeAt (storage : SlotStorage) (offset : ℕ) (bytes : Bytes) : FileM Unit := fun file =>
  match storage.validateRange ⟨offset, bytes.length⟩ with
  | .error err => .error err file
  | .ok () => .ok () (file.write offset bytes)

/-- `clear_at`. -/
def clearAt (storage : SlotStorage) (range : ByteRange) : FileM Unit :=
  storage.writeAt range.offset (List.replicate range.len 0)

end SlotStorage

structure PersistentSlotRegion where
  storage : SlotStorage
  /-- Usable frame space after subtracting the header. -/
  frameCapacity : ℕ
  deriving DecidableEq, Repr

namespace PersistentSlotRegion

/-- `PersistentSlotRegion::create`. -/
def create (backend : StorageBackend) (capacity slotSize : ℕ) :
    Except Failure (PersistentSlotRegion × RegionFile) := do
  if slotSize ≤ PERSISTENT_SLOT_HEADER_LEN then
    .error (.ofChannel (.invalidConfig "slot_size must be greater than persistent header size"))
  let len ← PersistentShmChannel.totalLen capacity slotSize
  let (storage, file) ← SlotStorage.create backend capacity slotSize len
  return (⟨storage, slotSize - PERSISTENT_SLOT_HEADER_LEN⟩, file)

/-! ## The byte ranges it touches -/

/-- `slot_offset`. -/
def slotOffset (region : PersistentSlotRegion) (index : ℕ) : ℕ :=
  REGION_HEADER_LEN + index * region.storage.slotSize

/-- The 48 bytes of a slot's header. -/
def headerRange (region : PersistentSlotRegion) (index : ℕ) : ByteRange :=
  ⟨region.slotOffset index, PERSISTENT_SLOT_HEADER_LEN⟩

/-- The identity magic inside a slot's header. -/
def magicRange (region : PersistentSlotRegion) (index : ℕ) : ByteRange :=
  ⟨region.slotOffset index + SlotHeader.ID_MAGIC_OFFSET, 4⟩

/-- Bytes of a slot's frame area. -/
def frameRange (region : PersistentSlotRegion) (index offset len : ℕ) : ByteRange :=
  ⟨region.slotOffset index + PERSISTENT_SLOT_HEADER_LEN + offset, len⟩

/-- **An access of the region**: to a slot's header, its identity magic, a
part of its frame area, all of that area to clear it, or a shared word. -/
inductive Access where
  | header (index : ℕ)
  | identityMagic (index : ℕ)
  | frame (index offset len : ℕ)
  | clear (index : ℕ)
  | head
  | tail
  | magic
  | format
  | floor
  deriving DecidableEq, Repr

/-- Where an access falls: the region header, or a slot. -/
inductive Place where
  | regionHeader
  | slot (index : ℕ)
  deriving DecidableEq, Repr

namespace Access

def range (region : PersistentSlotRegion) : Access → ByteRange
  | header index => region.headerRange index
  | identityMagic index => region.magicRange index
  | frame index offset len => region.frameRange index offset len
  | clear index => region.frameRange index 0 region.frameCapacity
  | head => ⟨CURSOR_HEAD_OFFSET, 8⟩
  | tail => ⟨CURSOR_TAIL_OFFSET, 8⟩
  | magic => ⟨MAGIC_OFFSET, 4⟩
  | format => ⟨FORMAT_OFFSET, 4⟩
  | floor => ⟨PIN_FLOOR_OFFSET, 8⟩

def place : Access → Place
  | header index | identityMagic index | frame index _ _ | clear index => .slot index
  | head | tail | magic | format | floor => .regionHeader

/-- An access the region makes: a slot index below the capacity, and bytes
of the frame area. -/
def Made (region : PersistentSlotRegion) : Access → Prop
  | header index | identityMagic index | clear index => index < region.storage.capacity
  | frame index offset len =>
      index < region.storage.capacity ∧ offset + len ≤ region.frameCapacity
  | head | tail | magic | format | floor => True

/-- Where in its slot an access to a slot ends. -/
def slotEnd (region : PersistentSlotRegion) : Access → ℕ
  | header _ => PERSISTENT_SLOT_HEADER_LEN
  | identityMagic _ => SlotHeader.ID_MAGIC_OFFSET + 4
  | frame _ offset len => PERSISTENT_SLOT_HEADER_LEN + offset + len
  | clear _ => PERSISTENT_SLOT_HEADER_LEN + region.frameCapacity
  | head | tail | magic | format | floor => 0

/-- The access is to the last slot, and ends in the last bytes of it: as
many as the region header has. -/
def InLastBytes (region : PersistentSlotRegion) (access : Access) : Prop :=
  access.place = .slot (region.storage.capacity - 1) ∧
    region.storage.slotSize < access.slotEnd region + REGION_HEADER_LEN

end Access

/-- The bytes of a place. -/
def Place.range (region : PersistentSlotRegion) : Place → ByteRange
  | regionHeader => ⟨0, REGION_HEADER_LEN⟩
  | slot index => ⟨region.slotOffset index, region.storage.slotSize⟩

/-- **An access in bounds, and of its own place alone**: the backend lets it
pass, its bytes are of its place and of no other, and a write through it
leaves every byte of another place as it was. -/
structure Contained (region : PersistentSlotRegion) (access : Access) : Prop where
  passes : region.storage.validateRange (access.range region) = .ok ()
  inside : ∀ p, (access.range region).Has p → (access.place.range region).Has p
  apart : ∀ place, place ≠ access.place → ∀ p, (access.place.range region).Has p →
    ¬ (place.range region).Has p
  untouched : ∀ (file : RegionFile) (bytes : Bytes),
    bytes.length = (access.range region).len → ∀ place, place ≠ access.place →
      ∀ p, (place.range region).Has p →
        (file.write (access.range region).offset bytes).bytes p = file.bytes p

/-! ## Created regions -/

/-- What `create` leaves of its arguments. -/
structure Created (backend : StorageBackend) (capacity slotSize : ℕ)
    (region : PersistentSlotRegion) : Prop where
  storage : region.storage = ⟨backend, capacity, slotSize, capacity * slotSize + REGION_HEADER_LEN⟩
  frameCapacity : region.frameCapacity = slotSize - PERSISTENT_SLOT_HEADER_LEN
  capacity_pos : 0 < capacity
  header_lt : PERSISTENT_SLOT_HEADER_LEN < slotSize
  len_le : capacity * slotSize + REGION_HEADER_LEN ≤ isizeMax

variable {backend : StorageBackend} {capacity slotSize : ℕ} {region : PersistentSlotRegion}
  {file : RegionFile}

theorem create_ok (h : create backend capacity slotSize = .ok (region, file)) :
    Created backend capacity slotSize region := by
  simp only [create, bind, Except.bind] at h
  split at h
  · cases h
  rename_i hheader
  split at h
  · cases h
  rename_i len hlen
  have htotal : len = capacity * slotSize + REGION_HEADER_LEN := by
    simp only [PersistentShmChannel.totalLen, checkedMul, checkedAdd] at hlen
    split at hlen
    · rename_i heq
      cases hlen
      split at heq
      · simp only [Option.bind_some] at heq
        split at heq
        · exact (Option.some.inj heq).symm
        · cases heq
      · cases heq
    · cases hlen
  split at h
  · cases h
  rename_i created hcreate
  simp only [SlotStorage.create, bind, Except.bind] at hcreate
  split at hcreate
  · cases hcreate
  rename_i hcapacity
  split at hcreate
  · cases hcreate
  split at hcreate
  · cases hcreate
  rename_i hresize
  have hle : len ≤ isizeMax := by
    refine Nat.not_lt.1 fun hgt => ?_
    cases backend <;> simp [SlotStorage.resize, PersistentShmChannel.setLen, hgt] at hresize
  cases hcreate
  cases h
  subst htotal
  exact ⟨rfl, rfl, Nat.pos_of_ne_zero hcapacity, Nat.not_le.1 hheader, hle⟩

namespace Created

/-- **The file passes what ends within `capacity * slot_size`.** -/
theorem passes_file (h : Created .file capacity slotSize region) (range : ByteRange) :
    region.storage.validateRange range = .ok () ↔
      range.offset + range.len ≤ capacity * slotSize := by
  have hmul : checkedMul capacity slotSize = some (capacity * slotSize) := by
    have hlt : isizeMax < wordCount := by decide
    exact if_pos (Nat.lt_of_le_of_lt (Nat.le_trans (Nat.le_add_right _ _) h.len_le) hlt)
  simp only [SlotStorage.validateRange, h.storage, hmul]
  split
  · exact iff_of_false (fun h => nomatch h) (by omega)
  · exact iff_of_true rfl (by omega)

/-- **The mapping passes what ends within the length of the region.** -/
theorem passes_mmap (h : Created .mmap capacity slotSize region) (range : ByteRange) :
    region.storage.validateRange range = .ok () ↔
      range.offset + range.len ≤ capacity * slotSize + REGION_HEADER_LEN := by
  simp only [SlotStorage.validateRange, h.storage]
  split
  · exact iff_of_false (fun h => nomatch h) (by omega)
  · exact iff_of_true rfl (by omega)

theorem slotOffset_eq (h : Created backend capacity slotSize region) (index : ℕ) :
    region.slotOffset index = REGION_HEADER_LEN + index * slotSize := by
  rw [slotOffset, h.storage]

theorem slotSize_eq (h : Created backend capacity slotSize region) :
    region.storage.slotSize = PERSISTENT_SLOT_HEADER_LEN + region.frameCapacity := by
  rw [h.frameCapacity, h.storage]
  exact (Nat.add_sub_of_le (Nat.le_of_lt h.header_lt)).symm

/-- Slots are one behind the other, behind the region header. -/
theorem places_apart (h : Created backend capacity slotSize region) {a b : Place} (hab : b ≠ a)
    {p : ℕ} (ha : (a.range region).Has p) : ¬ (b.range region).Has p := by
  have hslots (i j : ℕ) (hij : i < j) (hi : ((Place.slot i).range region).Has p) :
      ¬ ((Place.slot j).range region).Has p := by
    have hmul := Nat.mul_le_mul_right slotSize hij
    rw [Nat.succ_mul] at hmul
    simp only [ByteRange.Has, Place.range, h.slotOffset_eq, h.storage] at hi ⊢
    omega
  cases a with
  | regionHeader =>
      cases b with
      | regionHeader => exact absurd rfl hab
      | slot j =>
          simp only [ByteRange.Has, Place.range, h.slotOffset_eq] at ha ⊢
          omega
  | slot i =>
      cases b with
      | regionHeader =>
          simp only [ByteRange.Has, Place.range, h.slotOffset_eq] at ha ⊢
          omega
      | slot j =>
          rcases Nat.lt_trichotomy i j with hij | rfl | hji
          · exact hslots i j hij ha
          · exact absurd rfl hab
          · exact fun hj => hslots j i hji hj ha

end Created

namespace Access

variable {access : Access}

/-- An access to a slot ends where its slot does, or before. -/
theorem of_slot (h : Created backend capacity slotSize region) (hmade : access.Made region)
    {index : ℕ} (hplace : access.place = .slot index) :
    index < capacity ∧ region.slotOffset index ≤ (access.range region).offset ∧
      (access.range region).offset + (access.range region).len =
        region.slotOffset index + access.slotEnd region ∧
      access.slotEnd region ≤ slotSize := by
  have hheader := h.header_lt
  have hframe : slotSize = PERSISTENT_SLOT_HEADER_LEN + region.frameCapacity := by
    rw [← h.slotSize_eq, h.storage]
  have h48 : PERSISTENT_SLOT_HEADER_LEN = 48 := rfl
  have h41 : SlotHeader.ID_MAGIC_OFFSET = 41 := rfl
  cases access with
  | header i =>
      cases hplace
      simp only [Made, h.storage] at hmade
      exact ⟨hmade, Nat.le_refl _, rfl, Nat.le_of_lt hheader⟩
  | identityMagic i | clear i =>
      cases hplace
      simp only [Made, h.storage] at hmade
      refine ⟨hmade, ?_⟩
      simp only [range, slotEnd, magicRange, frameRange]
      omega
  | frame i offset len =>
      cases hplace
      simp only [Made, h.storage] at hmade
      refine ⟨hmade.1, ?_⟩
      simp only [range, slotEnd, frameRange]
      omega
  | head | tail | magic | format | floor => cases hplace

/-- A shared word lies in the region header. -/
theorem of_regionHeader (region : PersistentSlotRegion) (hplace : access.place = .regionHeader) :
    (access.range region).offset + (access.range region).len ≤ REGION_HEADER_LEN := by
  cases access with
  | header | identityMagic | clear | frame => cases hplace
  | head | tail | magic | format | floor => exact Nat.le_of_ble_eq_true rfl

/-- The bytes of an access are of its place. -/
theorem range_inside (h : Created backend capacity slotSize region) (hmade : access.Made region)
    {p : ℕ} (hp : (access.range region).Has p) : (access.place.range region).Has p := by
  cases hplace : access.place with
  | regionHeader =>
      have hend := of_regionHeader region hplace
      simp only [ByteRange.Has, Place.range] at hp ⊢
      omega
  | slot index =>
      obtain ⟨-, hstart, hend, hle⟩ := of_slot h hmade hplace
      simp only [ByteRange.Has, Place.range, h.storage] at hp ⊢
      omega

/-- **An access passes the backend**, but in the last bytes of a file. -/
theorem passes_iff (h : Created backend capacity slotSize region) (hmade : access.Made region) :
    region.storage.validateRange (access.range region) = .ok () ↔
      ¬ (backend = .file ∧ access.InLastBytes region) := by
  have hheader := h.header_lt
  have h48 : PERSISTENT_SLOT_HEADER_LEN = 48 := rfl
  have h32 : REGION_HEADER_LEN = 32 := rfl
  have hcap : region.storage.capacity = capacity := by rw [h.storage]
  have hsize : region.storage.slotSize = slotSize := by rw [h.storage]
  have hone := Nat.mul_le_mul_right slotSize h.capacity_pos
  rw [Nat.succ_mul, Nat.zero_mul, Nat.zero_add] at hone
  cases hplace : access.place with
  | regionHeader =>
      have hend := of_regionHeader region hplace
      have hlast : ¬ access.InLastBytes region := fun hlast => by
        rw [InLastBytes, hplace] at hlast
        cases hlast.1
      refine iff_of_true ?_ fun hbad => hlast hbad.2
      cases backend with
      | file => exact (h.passes_file _).2 (by omega)
      | mmap => exact (h.passes_mmap _).2 (by omega)
  | slot index =>
      obtain ⟨hindex, hstart, hend, hle⟩ := of_slot h hmade hplace
      have hmul := Nat.mul_le_mul_right slotSize hindex
      rw [Nat.succ_mul] at hmul
      rw [h.slotOffset_eq] at hend
      cases backend with
      | mmap =>
          refine iff_of_true ((h.passes_mmap _).2 (by omega)) ?_
          rintro ⟨hfile, -⟩
          cases hfile
      | file =>
          rw [h.passes_file, hend]
          simp only [InLastBytes, hplace, hcap, hsize, true_and, not_and, Nat.not_lt,
            Place.slot.injEq]
          rcases Nat.lt_or_ge (index + 1) capacity with hinner | hlast
          · -- An inner slot has another one behind it.
            have htwo := Nat.mul_le_mul_right slotSize hinner
            rw [Nat.succ_mul, Nat.succ_mul] at htwo
            constructor
            · intro _ heq
              omega
            · intro _
              omega
          · have heq : capacity = index + 1 := by omega
            subst heq
            rw [Nat.succ_mul]
            constructor
            · intro hle' _
              omega
            · intro hle'
              have := hle' (by omega)
              omega

/-- **Where an access passes, it is of its own place alone.** -/
theorem contained_of_passes (h : Created backend capacity slotSize region)
    (hmade : access.Made region)
    (hpasses : region.storage.validateRange (access.range region) = .ok ()) :
    Contained region access where
  passes := hpasses
  inside _ hp := range_inside h hmade hp
  apart _ hne _ hp := h.places_apart hne hp
  untouched file bytes hlen place hne p hp := by
    have hout : ¬ (access.range region).Has p := fun hin =>
      h.places_apart hne (range_inside h hmade hin) hp
    simp only [ByteRange.Has, not_and, Nat.not_lt] at hout
    rcases Nat.lt_or_ge p (access.range region).offset with hlt | hge
    · exact Area.write_apply_of_lt hlt
    · exact Area.write_apply_of_ge (by rw [hlen]; exact hout hge)

end Access

end PersistentSlotRegion

open PersistentSlotRegion

/-- **An access is in bounds, and of its own slot or of the region header
alone, exactly where it is not in the last bytes of a file**: of as many as
the region header has, at the end of the last slot. -/
theorem access_contained_iff {backend : StorageBackend} {capacity slotSize : ℕ}
    {region : PersistentSlotRegion} {file : RegionFile}
    (hcreate : PersistentSlotRegion.create backend capacity slotSize = .ok (region, file))
    {access : Access} (hmade : access.Made region) :
    Contained region access ↔ ¬ (backend = .file ∧ access.InLastBytes region) := by
  have h := PersistentSlotRegion.create_ok hcreate
  rw [← Access.passes_iff h hmade]
  exact ⟨fun hcontained => hcontained.passes, Access.contained_of_passes h hmade⟩

/-- A region of one slot of 100 bytes on the file. -/
def sampleFileRegion : PersistentSlotRegion := ⟨⟨.file, 1, 100, 132⟩, 52⟩

/-- The header of its slot is in bounds. -/
theorem access_contained_header :
    PersistentSlotRegion.create .file 1 100 = .ok (sampleFileRegion, .zero 132) ∧
      Contained sampleFileRegion (.header 0) := by
  have hcreate : PersistentSlotRegion.create .file 1 100 = .ok (sampleFileRegion, .zero 132) := rfl
  refine ⟨hcreate, (access_contained_iff hcreate
    (show (Access.header 0).Made sampleFileRegion from Nat.zero_lt_one)).2 fun hbad => ?_⟩
  exact absurd hbad.2.2 (by decide)

/-- **The frame area of that slot cannot be cleared.** -/
theorem access_not_contained :
    ¬ ∀ (backend : StorageBackend) (capacity slotSize : ℕ) (region : PersistentSlotRegion)
      (file : RegionFile),
      PersistentSlotRegion.create backend capacity slotSize = .ok (region, file) →
        ∀ access : Access, access.Made region → Contained region access := by
  intro hall
  have hcontained := hall .file 1 100 sampleFileRegion (.zero 132) rfl (.clear 0) Nat.zero_lt_one
  exact nomatch hcontained.passes

end Dsline
