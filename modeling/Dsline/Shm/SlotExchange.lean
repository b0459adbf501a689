import Dsline.Shm.Backend
/-!
# Writing, reading and releasing one slot

`write_committed`, `read_committed` and `release_pinned` over the bytes of
the file. The header keeps 32 bits of the frame's length, so a frame of
`2 ^ 32` bytes or more is read back short; and the file backend never lets
the last slot be cleared.
-/

namespace Dsline

open LittleEndian

namespace PersistentSlotRegion

/-- `read_header` and `read_header_full`. -/
def readHeader (region : PersistentSlotRegion) (index : ℕ) : FileM SlotHeader := do
  let raw ← region.storage.readAt (region.headerRange index)
  return .parse raw

/-- `write_header`. -/
def writeHeader (region : PersistentSlotRegion) (index : ℕ) (state : SlotState) (seq : UInt64)
    (payloadLen : ℕ) : FileM Unit :=
  region.storage.writeAt (region.slotOffset index)
    (encodeHeader state seq payloadLen none false).image

/-- `write_writing_header`: the fields first, the identity magic last. -/
def writeWritingHeader (region : PersistentSlotRegion) (index : ℕ) (seq : UInt64)
    (payloadLen : ℕ) (identity : WriterIdentity) : FileM Unit := do
  region.storage.writeAt (region.slotOffset index)
    (encodeHeader .writing seq payloadLen (some identity) false).image
  region.storage.writeAt (region.magicRange index).offset (leBytes 4 SLOT_IDENTITY_MAGIC.toNat)

/-- `write_payload`. -/
def writePayload (region : PersistentSlotRegion) (index : ℕ) (frame : Bytes) : FileM Unit := do
  if region.frameCapacity < frame.length then
    throw (.ofChannel (.messageTooLarge frame.length region.frameCapacity))
  region.storage.writeAt (region.frameRange index 0 frame.length).offset frame

/-- `read_payload`. -/
def readPayload (region : PersistentSlotRegion) (index len : ℕ) : FileM Bytes := do
  if region.frameCapacity < len then
    throw (.ofChannel (.messageTooLarge len region.frameCapacity))
  region.storage.readAt (region.frameRange index 0 len)

/-- `clear_payload`. -/
def clearPayload (region : PersistentSlotRegion) (index : ℕ) : FileM Unit :=
  region.storage.clearAt (region.frameRange index 0 region.frameCapacity)

/-- The first phase of `write_committed_no_flush`: the WRITING header, with
the writer's identity where one is given. -/
def markWriting (region : PersistentSlotRegion) (index : ℕ) (seq : UInt64) (payloadLen : ℕ)
    (stamp : Option WriterIdentity) : FileM Unit :=
  match stamp with
  | some identity => region.writeWritingHeader index seq payloadLen identity
  | none => region.writeHeader index .writing seq payloadLen

/-- `write_committed`; its flush changes no byte. -/
def writeCommitted (region : PersistentSlotRegion) (index : ℕ) (seq : UInt64) (frame : Bytes)
    (stamp : Option WriterIdentity) : FileM Unit := do
  let header ← region.readHeader index
  if header.state ≠ .free then
    throw (.ofChannel .bufferFull)
  region.markWriting index seq frame.length stamp
  region.writePayload index frame
  region.writeHeader index .committed seq frame.length

/-- `read_committed`. -/
def readCommitted (region : PersistentSlotRegion) (index : ℕ) : FileM SlotSnapshot := do
  let header ← region.readHeader index
  if header.state ≠ .committed then
    throw (.ofChannel .bufferEmpty)
  let data ← region.readPayload index header.payloadLen.toNat
  region.writeHeader index .pinned header.seq header.payloadLen.toNat
  return ⟨header.seq, data⟩

/-- `release_pinned`; its flush changes no byte. -/
def releasePinned (region : PersistentSlotRegion) (index : ℕ) : FileM Unit := do
  let header ← region.readHeader index
  if header.state ≠ .pinned then
    throw (.ofChannel (.invalidConfig "slot is not pinned"))
  region.clearPayload index
  region.writeHeader index .free 0 0

/-- The bytes of a slot. -/
def slotBytes (region : PersistentSlotRegion) (index : ℕ) (file : RegionFile) : Bytes :=
  file.bytes.read (region.slotOffset index) region.storage.slotSize

/-- The header of a slot. -/
def headerAt (region : PersistentSlotRegion) (index : ℕ) (file : RegionFile) : SlotHeader :=
  .parse (file.bytes.read (region.slotOffset index) PERSISTENT_SLOT_HEADER_LEN)

/-- **The round trip of a slot**: the WRITING header carries the stamp
exactly if one was given, what is read is what was written, and the release
leaves the image of a FREE slot. -/
structure RoundTrips (region : PersistentSlotRegion) (index : ℕ) (seq : UInt64) (frame : Bytes)
    (stamp : Option WriterIdentity) (file : RegionFile) : Prop where
  stamped : ∃ writing, region.markWriting index seq frame.length stamp file = .ok () writing ∧
    (region.headerAt index writing).state = .writing ∧
    (region.headerAt index writing).identity = stamp
  exchanged : ∃ written read released, region.writeCommitted index seq frame stamp file =
      .ok () written ∧
    region.readCommitted index written = .ok ⟨seq, frame⟩ read ∧
    region.releasePinned index read = .ok () released ∧
    region.slotBytes index released = List.replicate region.storage.slotSize 0

/-! ## The writes, where they pass -/

variable {backend : StorageBackend} {capacity slotSize : ℕ} {region : PersistentSlotRegion}
  {index : ℕ} {seq : UInt64} {frame : Bytes} {stamp : Option WriterIdentity}
  {file file' : RegionFile}

/-- Every access to the slot passes. -/
def SlotPasses (region : PersistentSlotRegion) (index : ℕ) : Prop :=
  ∀ access : Access, access.Made region → access.place = .slot index →
    region.storage.validateRange (access.range region) = .ok ()

/-- A slot of a region whose clear passes is passed by every access. -/
theorem slotPasses_of (h : Created backend capacity slotSize region)
    (hinner : ¬ (backend = .file ∧ index + 1 = capacity)) : SlotPasses region index := by
  intro access hmade hplace
  refine (Access.passes_iff h hmade).2 fun hbad => hinner ⟨hbad.1, ?_⟩
  have hlast := hbad.2.1
  rw [hplace, h.storage] at hlast
  injection hlast with hlast
  have := h.capacity_pos
  have hlast' : index = capacity - 1 := hlast
  omega

theorem writeAt_ok {storage : SlotStorage} {offset : ℕ} {bytes : Bytes}
    (h : storage.validateRange ⟨offset, bytes.length⟩ = .ok ()) :
    storage.writeAt offset bytes file = .ok () (file.write offset bytes) := by
  rw [SlotStorage.writeAt, h]

theorem readAt_ok {storage : SlotStorage} {range : ByteRange}
    (h : storage.validateRange range = .ok ()) :
    storage.readAt range file = .ok (file.bytes.read range.offset range.len) file := by
  rw [SlotStorage.readAt, h]

section

variable (hslot : SlotPasses region index) (hindex : index < region.storage.capacity)

include hslot hindex

theorem readHeader_ok : region.readHeader index file = .ok (region.headerAt index file) file :=
  Effect.bind_ok (readAt_ok (hslot (.header index) hindex rfl))

theorem writeImage_ok (header : SlotHeader) :
    region.storage.writeAt (region.slotOffset index) header.image file =
      .ok () (file.write (region.slotOffset index) header.image) := by
  refine writeAt_ok ?_
  rw [SlotHeader.length_image]
  exact hslot (.header index) hindex rfl

theorem writeFrame_ok (hfits : frame.length ≤ region.frameCapacity) :
    region.storage.writeAt (region.frameRange index 0 frame.length).offset frame file =
      .ok () (file.write (region.slotOffset index + PERSISTENT_SLOT_HEADER_LEN) frame) :=
  writeAt_ok (hslot (.frame index 0 frame.length) ⟨hindex, by omega⟩ rfl)

theorem writePayload_ok (hfits : frame.length ≤ region.frameCapacity) :
    region.writePayload index frame file =
      .ok () (file.write (region.slotOffset index + PERSISTENT_SLOT_HEADER_LEN) frame) := by
  rw [writePayload, if_neg (Nat.not_lt.2 hfits)]
  exact writeFrame_ok hslot hindex hfits

theorem readPayload_ok {len : ℕ} (hfits : len ≤ region.frameCapacity) :
    region.readPayload index len file =
      .ok (file.bytes.read (region.slotOffset index + PERSISTENT_SLOT_HEADER_LEN) len) file := by
  rw [readPayload, if_neg (Nat.not_lt.2 hfits)]
  exact readAt_ok (hslot (.frame index 0 len) ⟨hindex, by omega⟩ rfl)

theorem clearPayload_ok :
    region.clearPayload index file = .ok () (file.write
      (region.slotOffset index + PERSISTENT_SLOT_HEADER_LEN)
      (List.replicate region.frameCapacity 0)) := by
  refine writeAt_ok ?_
  rw [List.length_replicate]
  exact hslot (.clear index) hindex rfl

end

/-! ## What is read back -/

/-- A written image is read back. -/
theorem headerAt_write (header : SlotHeader) :
    region.headerAt index (file.write (region.slotOffset index) header.image) = header := by
  have hread : (file.write (region.slotOffset index) header.image).bytes.read
      (region.slotOffset index) PERSISTENT_SLOT_HEADER_LEN = header.image := by
    rw [← SlotHeader.length_image header]
    exact Area.read_write
  rw [headerAt, hread, SlotHeader.parse_image]

/-- The image with the magic is the one without it, but for the magic. -/
theorem image_magic (identity : WriterIdentity) (len : ℕ) :
    (encodeHeader .writing seq len (some identity) true).image =
      (encodeHeader .writing seq len (some identity) false).image.take 41 ++
        (leBytes 4 SLOT_IDENTITY_MAGIC.toNat ++
          (encodeHeader .writing seq len (some identity) false).image.drop 45) := by
  -- Every field begins where the ones before it end.
  simp (disch := simp) [SlotHeader.image, encodeHeader, List.take_append, List.drop_append,
    List.take_of_length_le, List.drop_of_length_le]

/-- **The identity magic completes the image.** -/
theorem headerAt_write_magic (identity : WriterIdentity) (len : ℕ) :
    region.headerAt index
        ((file.write (region.slotOffset index)
          (encodeHeader .writing seq len (some identity) false).image).write
            (region.magicRange index).offset (leBytes 4 SLOT_IDENTITY_MAGIC.toNat)) =
      encodeHeader .writing seq len (some identity) true := by
  set image := (encodeHeader .writing seq len (some identity) false).image with himage
  set magic := leBytes 4 SLOT_IDENTITY_MAGIC.toNat with hmagic
  set fields := (file.write (region.slotOffset index) image).bytes with hfields
  have hlen : image.length = 41 + (4 + 3) := SlotHeader.length_image _
  have hmlen : magic.length = 4 := length_leBytes 4 _
  have hfront : fields.read (region.slotOffset index) 41 = image.take 41 :=
    Area.read_write_prefix (by omega)
  have hback : fields.read (region.slotOffset index + 41 + 4) 3 = image.drop 45 := by
    have hall : fields.read (region.slotOffset index) (41 + (4 + 3)) = image := by
      rw [← hlen]
      exact Area.read_write
    rw [← hall, Area.drop_read (by decide)]
  have hread : (fields.write (region.slotOffset index + 41) magic).read
      (region.slotOffset index) (41 + (4 + 3)) = image.take 41 ++ (magic ++ image.drop 45) := by
    have hmid : (fields.write (region.slotOffset index + 41) magic).read
        (region.slotOffset index + 41) 4 = magic := by
      rw [← hmlen]
      exact Area.read_write
    rw [Area.read_add, Area.read_add, hmid, Area.read_write_disjoint (.inl (Nat.le_refl _)),
      Area.read_write_disjoint (.inr (by rw [hmlen])), hfront, hback]
  show SlotHeader.parse ((fields.write (region.slotOffset index + 41) magic).read
    (region.slotOffset index) (41 + (4 + 3))) = _
  rw [hread, ← SlotHeader.parse_image (encodeHeader .writing seq len (some identity) true),
    image_magic]

/-- A file whose slot carries this header, with its frame area as in the
other. -/
structure Marked (region : PersistentSlotRegion) (index : ℕ) (header : SlotHeader)
    (file file' : RegionFile) : Prop where
  header : region.headerAt index file' = header
  frame : ∀ len, file'.bytes.read (region.slotOffset index + PERSISTENT_SLOT_HEADER_LEN) len =
    file.bytes.read (region.slotOffset index + PERSISTENT_SLOT_HEADER_LEN) len

theorem marked_write (header : SlotHeader) :
    Marked region index header file (file.write (region.slotOffset index) header.image) where
  header := headerAt_write header
  frame _ := Area.read_write_disjoint (.inr (by rw [SlotHeader.length_image]))

/-- **Marking a slot WRITING**: its header carries the stamp, if one is
given, behind the identity magic. -/
theorem markWriting_ok (hslot : SlotPasses region index)
    (hindex : index < region.storage.capacity) (len : ℕ) :
    ∃ writing, region.markWriting index seq len stamp file = .ok () writing ∧
      region.headerAt index writing = encodeHeader .writing seq len stamp true := by
  cases stamp with
  | none => exact ⟨_, writeImage_ok hslot hindex _, headerAt_write _⟩
  | some identity =>
      have hmagic {fields : RegionFile} : region.storage.writeAt (region.magicRange index).offset
          (leBytes 4 SLOT_IDENTITY_MAGIC.toNat) fields = .ok () (fields.write
            (region.magicRange index).offset (leBytes 4 SLOT_IDENTITY_MAGIC.toNat)) := by
        refine writeAt_ok ?_
        rw [length_leBytes]
        exact hslot (.identityMagic index) hindex rfl
      exact ⟨_, (Effect.bind_ok (writeImage_ok hslot hindex _)).trans hmagic,
        headerAt_write_magic identity len⟩

/-- The identity a WRITING header reports. -/
theorem identity_writing (len : ℕ) :
    (encodeHeader .writing seq len stamp true).identity = stamp := by
  cases stamp with
  | none => exact if_neg (show (0 : UInt32) ≠ SLOT_IDENTITY_MAGIC by decide)
  | some identity => exact if_pos rfl

/-! ## The three calls -/

section

variable (hslot : SlotPasses region index) (hindex : index < region.storage.capacity)

include hslot hindex

/-- **A write to a FREE slot** leaves a COMMITTED header and the frame. -/
theorem writeCommitted_ok (hfree : (region.headerAt index file).state = .free)
    (hfits : frame.length ≤ region.frameCapacity) :
    ∃ written, region.writeCommitted index seq frame stamp file = .ok () written ∧
      region.headerAt index written = encodeHeader .committed seq frame.length none false ∧
      written.bytes.read (region.slotOffset index + PERSISTENT_SLOT_HEADER_LEN) frame.length =
        frame := by
  obtain ⟨writing, hwriting, -⟩ : ∃ writing,
      region.markWriting index seq frame.length stamp file = .ok () writing ∧ _ :=
    markWriting_ok hslot hindex frame.length
  set filled := writing.write (region.slotOffset index + PERSISTENT_SLOT_HEADER_LEN) frame
    with hfilled
  have hpayload : region.writePayload index frame writing = .ok () filled :=
    writePayload_ok hslot hindex hfits
  have hmarked : Marked region index (encodeHeader .committed seq frame.length none false)
      filled _ := marked_write _
  refine ⟨_, ?_, hmarked.header, ?_⟩
  · rw [writeCommitted, Effect.bind_ok (readHeader_ok hslot hindex), if_neg (not_not.2 hfree)]
    exact (Effect.bind_ok hwriting).trans ((Effect.bind_ok hpayload).trans
      (writeImage_ok hslot hindex _))
  · rw [hmarked.frame]
    exact Area.read_write

/-- **A read of a COMMITTED slot** returns as many bytes as its header says
and leaves it PINNED. -/
theorem readCommitted_ok (hstate : (region.headerAt index file).state = .committed)
    (hfits : (region.headerAt index file).payloadLen.toNat ≤ region.frameCapacity) :
    ∃ read, region.readCommitted index file =
        .ok ⟨(region.headerAt index file).seq, file.bytes.read
          (region.slotOffset index + PERSISTENT_SLOT_HEADER_LEN)
          (region.headerAt index file).payloadLen.toNat⟩ read ∧
      (region.headerAt index read).state = .pinned := by
  set header := region.headerAt index file with hheader
  refine ⟨file.write (region.slotOffset index)
    (encodeHeader .pinned header.seq header.payloadLen.toNat none false).image, ?_,
    congrArg SlotHeader.state (headerAt_write _)⟩
  rw [readCommitted, Effect.bind_ok (readHeader_ok hslot hindex), if_neg (not_not.2 hstate)]
  exact (Effect.bind_ok (readPayload_ok hslot hindex hfits)).trans
    (Effect.bind_ok (writeImage_ok hslot hindex _))

/-- **A release of a PINNED slot** leaves the image of a FREE one. -/
theorem releasePinned_ok (hstate : (region.headerAt index file).state = .pinned)
    (hsize : region.storage.slotSize = PERSISTENT_SLOT_HEADER_LEN + region.frameCapacity) :
    ∃ released, region.releasePinned index file = .ok () released ∧
      region.slotBytes index released = List.replicate region.storage.slotSize 0 := by
  set cleared := file.write (region.slotOffset index + PERSISTENT_SLOT_HEADER_LEN)
    (List.replicate region.frameCapacity 0) with hcleared
  have hmarked : Marked region index (encodeHeader .free 0 0 none false) cleared _ :=
    marked_write _
  refine ⟨cleared.write (region.slotOffset index) (encodeHeader .free 0 0 none false).image,
    ?_, ?_⟩
  · rw [releasePinned, Effect.bind_ok (readHeader_ok hslot hindex), if_neg (not_not.2 hstate)]
    exact (Effect.bind_ok (clearPayload_ok hslot hindex)).trans (writeImage_ok hslot hindex _)
  · have hheader : (cleared.write (region.slotOffset index)
        (encodeHeader .free 0 0 none false).image).bytes.read (region.slotOffset index)
          PERSISTENT_SLOT_HEADER_LEN = List.replicate PERSISTENT_SLOT_HEADER_LEN 0 := by
      have hzeros : (encodeHeader .free 0 0 none false).image =
          List.replicate PERSISTENT_SLOT_HEADER_LEN 0 := by decide
      rw [hzeros]
      nth_rewrite 2 [← List.length_replicate (n := PERSISTENT_SLOT_HEADER_LEN) (a := (0 : UInt8))]
      exact Area.read_write
    have hframe : cleared.bytes.read (region.slotOffset index + PERSISTENT_SLOT_HEADER_LEN)
        region.frameCapacity = List.replicate region.frameCapacity 0 := by
      nth_rewrite 1 [← List.length_replicate (n := region.frameCapacity) (a := (0 : UInt8))]
      exact Area.read_write
    rw [slotBytes, hsize, Area.read_add, hheader, hmarked.frame, hframe,
      List.replicate_append_replicate]

end

/-- What is read is shorter than `2 ^ 32` bytes: its header says how long
it is. -/
theorem length_readCommitted {snapshot : SlotSnapshot}
    (h : region.readCommitted index file = .ok snapshot file') :
    snapshot.data.length < 2 ^ 32 := by
  cases hheader : region.readHeader index file with
  | error => rw [readCommitted, Effect.bind_error hheader] at h; cases h
  | ok header file =>
      rw [readCommitted, Effect.bind_ok hheader] at h
      split at h
      · cases h
      dsimp only at h
      cases hdata : region.readPayload index header.payloadLen.toNat file with
      | error => rw [Effect.bind_error hdata] at h; cases h
      | ok data file =>
          rw [Effect.bind_ok hdata] at h
          have hlen : data.length = header.payloadLen.toNat := by
            rw [readPayload] at hdata
            split at hdata
            · cases hdata
            dsimp only at hdata
            rw [SlotStorage.readAt] at hdata
            split at hdata
            · cases hdata
            · cases hdata
              exact Area.length_read
          cases hpinned :
            region.writeHeader index .pinned header.seq header.payloadLen.toNat file with
          | error => rw [Effect.bind_error hpinned] at h; cases h
          | ok _ file =>
              rw [Effect.bind_ok hpinned] at h
              cases h
              rw [hlen]
              exact header.payloadLen.toNat_lt

/-- A slot that is released can be cleared. -/
theorem passes_of_releasePinned (h : region.releasePinned index file = .ok () file') :
    region.storage.validateRange ((Access.clear index).range region) = .ok () := by
  cases hheader : region.readHeader index file with
  | error => rw [releasePinned, Effect.bind_error hheader] at h; cases h
  | ok header file =>
      rw [releasePinned, Effect.bind_ok hheader] at h
      split at h
      · cases h
      dsimp only at h
      cases hclear : region.clearPayload index file with
      | error => rw [Effect.bind_error hclear] at h; cases h
      | ok _ file =>
          rw [clearPayload, SlotStorage.clearAt, SlotStorage.writeAt] at hclear
          split at hclear
          · cases hclear
          · rename_i hpasses
            rw [List.length_replicate] at hpasses
            exact hpasses

end PersistentSlotRegion

open PersistentSlotRegion

/-- **A slot's round trip succeeds exactly where the frame is shorter than
`2 ^ 32` bytes**, and the slot is not the last one of a file. -/
theorem slot_round_trip_iff {backend : StorageBackend} {capacity slotSize : ℕ}
    {region : PersistentSlotRegion} {created : RegionFile}
    (hcreate : PersistentSlotRegion.create backend capacity slotSize = .ok (region, created))
    {index : ℕ} (hindex : index < capacity) (seq : UInt64) {frame : Bytes}
    (stamp : Option WriterIdentity) (hfits : frame.length ≤ region.frameCapacity)
    {file : RegionFile} (hfree : (region.headerAt index file).state = .free) :
    RoundTrips region index seq frame stamp file ↔
      frame.length < 2 ^ 32 ∧ ¬ (backend = .file ∧ index + 1 = capacity) := by
  have h := PersistentSlotRegion.create_ok hcreate
  have hcap : index < region.storage.capacity := by
    rw [h.storage]
    exact hindex
  constructor
  · rintro ⟨-, written, read, released, -, hread, hreleased, -⟩
    refine ⟨length_readCommitted hread, fun hlast => ?_⟩
    have hmade : (Access.clear index).Made region := hcap
    refine (Access.passes_iff h hmade).1 (passes_of_releasePinned hreleased) ⟨hlast.1, ?_, ?_⟩
    · rw [h.storage]
      exact congrArg Place.slot (Nat.eq_sub_of_add_eq hlast.2)
    · show region.storage.slotSize < PERSISTENT_SLOT_HEADER_LEN + region.frameCapacity + _
      rw [h.slotSize_eq]
      exact Nat.lt_add_of_pos_right (by decide)
  · rintro ⟨hshort, hinner⟩
    have hslot : SlotPasses region index := slotPasses_of h hinner
    have hlen : (UInt32.ofNat frame.length).toNat = frame.length := by
      rw [UInt32.toNat_ofNat', Nat.mod_eq_of_lt hshort]
    obtain ⟨writing, hwriting, hmarked⟩ : ∃ writing,
        region.markWriting index seq frame.length stamp file = .ok () writing ∧ _ :=
      markWriting_ok hslot hcap frame.length
    obtain ⟨written, hwritten, hheader, hframe⟩ : ∃ written,
        region.writeCommitted index seq frame stamp file = .ok () written ∧ _ :=
      writeCommitted_ok hslot hcap hfree hfits
    have hread' : (region.headerAt index written).payloadLen.toNat ≤ region.frameCapacity := by
      rw [hheader]
      exact Nat.le_trans (Nat.le_of_eq hlen) hfits
    obtain ⟨read, hread, hpinned⟩ :=
      readCommitted_ok hslot hcap (congrArg SlotHeader.state hheader) hread'
    obtain ⟨released, hreleased, hzeros⟩ := releasePinned_ok hslot hcap hpinned h.slotSize_eq
    refine ⟨⟨writing, hwriting, congrArg SlotHeader.state hmarked, ?_⟩,
      written, read, released, hwritten, ?_, hreleased, hzeros⟩
    · rw [hmarked, identity_writing]
    · rw [hread, hheader]
      show EStateM.Result.ok (⟨seq, written.bytes.read _ (UInt32.ofNat frame.length).toNat⟩ :
        SlotSnapshot) read = _
      rw [hlen, hframe]

/-- A region of one slot of 100 bytes in a mapping. -/
def sampleMapping : PersistentSlotRegion := ⟨⟨.mmap, 1, 100, 132⟩, 52⟩

/-- Three bytes written under a stamp. -/
theorem slot_round_trip_three :
    RoundTrips sampleMapping 0 9 [1, 2, 3] (some ⟨7, 1, 2, 3, 1⟩) (.zero 132) :=
  (slot_round_trip_iff (show PersistentSlotRegion.create .mmap 1 100 =
      .ok (sampleMapping, .zero 132) from rfl) Nat.zero_lt_one 9 (some ⟨7, 1, 2, 3, 1⟩)
    (by decide) (by decide)).2 ⟨by decide, by decide⟩

/-- A region of one slot whose frame area has `2 ^ 32` bytes. -/
def largeMapping : PersistentSlotRegion := ⟨⟨.mmap, 1, 2 ^ 32 + 48, 2 ^ 32 + 80⟩, 2 ^ 32⟩

/-- **A frame that fills it is read back empty.** -/
theorem slot_round_trip_truncated :
    ¬ ∀ (backend : StorageBackend) (capacity slotSize : ℕ) (region : PersistentSlotRegion)
      (created : RegionFile),
      PersistentSlotRegion.create backend capacity slotSize = .ok (region, created) →
        ∀ (index : ℕ) (seq : UInt64) (frame : Bytes) (stamp : Option WriterIdentity)
          (file : RegionFile), index < capacity → frame.length ≤ region.frameCapacity →
            (region.headerAt index file).state = .free →
              RoundTrips region index seq frame stamp file := by
  intro hall
  have hcreate : PersistentSlotRegion.create .mmap 1 (2 ^ 32 + 48) =
      .ok (largeMapping, .zero (2 ^ 32 + 80)) := rfl
  have hlen : (List.replicate (2 ^ 32) (0 : UInt8)).length = 2 ^ 32 := List.length_replicate
  obtain ⟨-, written, read, released, -, hread, -⟩ := hall _ _ _ _ _ hcreate 0 0
    (List.replicate (2 ^ 32) 0) none (.zero 0) Nat.zero_lt_one (Nat.le_of_eq hlen) (by decide)
  exact Nat.lt_irrefl _ (hlen ▸ length_readCommitted hread)

end Dsline
