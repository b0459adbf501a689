import Dsline.Library.LittleEndian
import Dsline.Shm.OpenSpec
/-!
# The file behind a region

Slot headers and shared words as the bytes of a memory-mapped file, and
`create`, `open` and `create_or_open` on that file. A handle reads the file
under the geometry of its own configuration. The file records its length,
its mode and its format, and nothing of the geometry it was created with:
an open that expects no more bytes than there are reads whatever it finds
there as slots.
-/

namespace Dsline

open LittleEndian

/-! ## Slot headers as bytes -/

namespace SlotState

/-- `state as u8`. A corrupted state is only ever read. -/
def toByte : SlotState → UInt8
  | .free => 0
  | .writing => 1
  | .committed => 2
  | .pinned => 3
  | .corrupted => 255

/-- `SlotState::from_byte`. -/
def fromByte (raw : UInt8) : SlotState :=
  if raw = 0 then .free
  else if raw = 1 then .writing
  else if raw = 2 then .committed
  else if raw = 3 then .pinned
  else .corrupted

end SlotState

namespace SlotHeader

abbrev ID_SEQ_OFFSET : ℕ := 1
abbrev ID_PAYLOAD_LEN_OFFSET : ℕ := 9
abbrev ID_PID_OFFSET : ℕ := 13
abbrev ID_START_TIME_OFFSET : ℕ := 17
abbrev ID_EPOCH_OFFSET : ℕ := 25
abbrev ID_TIMESTAMP_OFFSET : ℕ := 29
abbrev ID_RESERVED_SLOTS_OFFSET : ℕ := 37
abbrev ID_MAGIC_OFFSET : ℕ := 41

/-- The header image `encode_header` builds: the state, the fields one
behind the other, and zeros up to the header length. -/
def image (header : SlotHeader) : Bytes :=
  header.state.toByte :: leBytes 8 header.seq.toNat ++ leBytes 4 header.payloadLen.toNat ++
    leBytes 4 header.fields.pid.toNat ++ leBytes 8 header.fields.startTime.toNat ++
    leBytes 4 header.fields.epoch.toNat ++ leBytes 8 header.fields.timestampNs.toNat ++
    leBytes 4 header.fields.reservedSlots.toNat ++ leBytes 4 header.identityMagic.toNat ++
    [0, 0, 0]

/-- A field of a raw header. -/
def word (raw : Bytes) (offset width : ℕ) : ℕ := leNat ((raw.drop offset).take width)

/-- `parse_header_full`. -/
def parse (raw : Bytes) : SlotHeader where
  state := .fromByte (raw.headD 0)
  seq := .ofNat (word raw ID_SEQ_OFFSET 8)
  payloadLen := .ofNat (word raw ID_PAYLOAD_LEN_OFFSET 4)
  fields :=
    { pid := .ofNat (word raw ID_PID_OFFSET 4)
      startTime := .ofNat (word raw ID_START_TIME_OFFSET 8)
      epoch := .ofNat (word raw ID_EPOCH_OFFSET 4)
      timestampNs := .ofNat (word raw ID_TIMESTAMP_OFFSET 8)
      reservedSlots := .ofNat (word raw ID_RESERVED_SLOTS_OFFSET 4) }
  identityMagic := .ofNat (word raw ID_MAGIC_OFFSET 4)

theorem length_image (header : SlotHeader) :
    header.image.length = PERSISTENT_SLOT_HEADER_LEN := by
  simp [image]

/-- **Parsing an image gives the header back**, whatever state a writer
writes. -/
theorem parse_image (header : SlotHeader) : parse header.image = header := by
  have hstate (s : SlotState) : SlotState.fromByte s.toByte = s := by cases s <;> decide
  have hword (v : UInt32) : UInt32.ofNat (leNat (leBytes 4 v.toNat)) = v := by
    rw [leNat_leBytes_of_lt v.toNat_lt, UInt32.ofNat_toNat]
  have hlong (v : UInt64) : UInt64.ofNat (leNat (leBytes 8 v.toNat)) = v := by
    rw [leNat_leBytes_of_lt v.toNat_lt, UInt64.ofNat_toNat]
  -- Every field begins where the ones before it end.
  simp (disch := simp) [parse, image, word, List.drop_append, List.drop_of_length_le, hstate,
    hword, hlong]

/-- A header of zeros is that of a FREE slot no one has written. -/
theorem parse_zero : parse (Area.zero.read 0 PERSISTENT_SLOT_HEADER_LEN) =
    encodeHeader .free 0 0 none false := by
  decide

end SlotHeader

/-! ## The file -/

structure RegionFile where
  len : ℕ
  bytes : Area

abbrev CURSOR_HEAD_OFFSET : ℕ := 0
abbrev CURSOR_TAIL_OFFSET : ℕ := 8
abbrev MAGIC_OFFSET : ℕ := 16
abbrev FORMAT_OFFSET : ℕ := 20
abbrev PIN_FLOOR_OFFSET : ℕ := 24

/-- `region_slot_offset`. -/
def regionSlotOffset (index slotSize : ℕ) : ℕ := REGION_HEADER_LEN + index * slotSize

/-- The bytes of the shared words. -/
def Region.words (region : Region) : Bytes :=
  leBytes 8 region.head ++ leBytes 8 region.tail ++ leBytes 4 region.magic.toNat ++
    leBytes 4 region.format.toNat ++ leBytes 8 region.pinFloor

namespace RegionFile

/-- `set_len` of a new file. -/
def zero (len : ℕ) : RegionFile := ⟨len, .zero⟩

/-- `write_at`. -/
def write (file : RegionFile) (offset : ℕ) (bytes : Bytes) : RegionFile :=
  { file with bytes := file.bytes.write offset bytes }

/-- A shared word. -/
def word (file : RegionFile) (offset width : ℕ) : ℕ := leNat (file.bytes.read offset width)

/-- The file as a handle of this geometry reads it. -/
def region (file : RegionFile) (capacity slotSize : ℕ) : Region where
  capacity
  frameCapacity := slotSize - PERSISTENT_SLOT_HEADER_LEN
  head := file.word CURSOR_HEAD_OFFSET 8
  tail := file.word CURSOR_TAIL_OFFSET 8
  magic := .ofNat (file.word MAGIC_OFFSET 4)
  format := .ofNat (file.word FORMAT_OFFSET 4)
  pinFloor := file.word PIN_FLOOR_OFFSET 8
  slots index :=
    { header := .parse
        (file.bytes.read (regionSlotOffset index slotSize) PERSISTENT_SLOT_HEADER_LEN)
      payload := fun k =>
        file.bytes (regionSlotOffset index slotSize + PERSISTENT_SLOT_HEADER_LEN + k) }

/-- The file after a handle of this geometry has left the region so: the
shared words, and the slots whose header it wrote. A recovery writes a
slot's frame area only together with its header. -/
def store (file : RegionFile) (capacity slotSize : ℕ) (region : Region) : RegionFile :=
  { file with
    bytes := fun p =>
      if p < REGION_HEADER_LEN then (region.words[p]?).getD 0
      else
        let index := (p - REGION_HEADER_LEN) / slotSize
        let k := (p - REGION_HEADER_LEN) % slotSize
        if index < capacity ∧
            region.header index ≠ (file.region capacity slotSize).header index then
          if k < PERSISTENT_SLOT_HEADER_LEN then ((region.header index).image[k]?).getD 0
          else (region.slots index).payload (k - PERSISTENT_SLOT_HEADER_LEN)
        else file.bytes p }

end RegionFile

namespace PersistentShmChannel

/-- The length of the file a configuration asks for. -/
def fileLen (config : SpscConfig) : Except Failure ℕ := do
  let slotSize ← persistentRegionSlotSize config
  totalLen config.capacity slotSize

/-- The slot size a configuration asks for, where the sizes do not
overflow. -/
abbrev regionSlotSize (config : SpscConfig) : ℕ :=
  config.slotSize + FRAME_HEADER_LEN + PERSISTENT_SLOT_HEADER_LEN

/-- `create` on the memory-mapped backend: the file it leaves. -/
def createFile (config : SpscConfig) : Except Failure RegionFile := do
  config.validate
  let len ← fileLen config
  setLen len
  let file := RegionFile.zero len
  let slotSize := regionSlotSize config
  return file.store config.capacity slotSize
    (initializeRegion config (file.region config.capacity slotSize))

/-- `MmapSlotStorage::open`: the file must be long enough. -/
def openStorage (file : RegionFile) (len : ℕ) : Except Failure Unit :=
  if file.len < len then
    .error (.ofChannel (.invalidConfig "file storage is smaller than expected"))
  else .ok ()

/-- `PersistentShmChannel::open` on the memory-mapped backend: its result,
and the file it leaves. -/
def openFile (host : Host) (config : SpscConfig) (file : RegionFile) :
    Except Failure World × RegionFile :=
  match (do
    config.validate
    openStorage file (← fileLen config)) with
  | .error err => (.error err, file)
  | .ok () =>
      let slotSize := regionSlotSize config
      match «open» host config (file.region config.capacity slotSize) with
      | .ok () w => (.ok w, file.store config.capacity slotSize w.region)
      | .error err w => (.error err, file.store config.capacity slotSize w.region)

/-- `PersistentShmChannel::create_or_open` where the file exists: the
exclusive create fails, and it is opened. -/
def createOrOpenFile (host : Host) (config : SpscConfig) (file : RegionFile) :
    Except Failure World × RegionFile :=
  match (do
    config.validate
    fileLen config) with
  | .error err => (.error err, file)
  | .ok _ => openFile host config file

/-- What a region created under a configuration can hold: its creator's
file, and whatever handles write into it that leaves the magic and the
format alone, as every handle does. -/
inductive Written (config : SpscConfig) : RegionFile → Prop
  | created {file : RegionFile} : createFile config = .ok file → Written config file
  | write {file : RegionFile} {offset : ℕ} {bytes : Bytes} : Written config file →
      offset + bytes.length ≤ file.len →
      offset + bytes.length ≤ MAGIC_OFFSET ∨ PIN_FLOOR_OFFSET ≤ offset →
      Written config (file.write offset bytes)

/-- The mismatch is rejected: both calls fail and leave the file as it is. -/
def Rejected (host : Host) (config : SpscConfig) (file : RegionFile) : Prop :=
  (∃ err, openFile host config file = (.error err, file)) ∧
    ∃ err, createOrOpenFile host config file = (.error err, file)

section

variable {host : Host} {config : SpscConfig} {file : RegionFile} {len : ℕ}

/-! ## What an open under another geometry sees -/

theorem header_foldl_free {header : SlotHeader} (indices : List ℕ) (region : Region)
    (hfree : encodeHeader .free 0 0 none false = header) (h : ∀ i, region.header i = header)
    (i : ℕ) :
    (indices.foldl (fun r i => r.writeHeader i .free 0 0) region).header i = header := by
  induction indices generalizing region with
  | nil => exact h i
  | cons j indices ih =>
      refine ih _ fun k => ?_
      show (if k = j then (⟨encodeHeader .free 0 0 none false, _⟩ : Slot)
        else region.slots k).header = header
      split
      · exact hfree
      · exact h k

theorem fileLen_eq_ok (h : fileLen config = .ok len) :
    persistentRegionSlotSize config = .ok (regionSlotSize config) ∧
      totalLen config.capacity (regionSlotSize config) = .ok len := by
  simp only [fileLen, bind, Except.bind] at h
  split at h
  · cases h
  rename_i size hs
  have hsize : size = regionSlotSize config := by
    simp only [persistentRegionSlotSize, checkedAdd] at hs
    split at hs
    · rename_i heq
      cases hs
      split at heq
      · simp only [Option.bind_some] at heq
        split at heq
        · exact (Option.some.inj heq).symm
        · cases heq
      · cases heq
    · cases hs
  subst hsize
  exact ⟨hs, h⟩

/-- The region behind the shared words of a created file: all zeros. -/
def blank (multiProducer : Bool) : Area := fun p =>
  if p < REGION_HEADER_LEN then
    ((leBytes 8 0 ++ leBytes 8 0 ++ leBytes 4 (regionMagic multiProducer).toNat ++
      leBytes 4 REGION_FORMAT.toNat ++ leBytes 8 PIN_FLOOR_NONE)[p]?).getD 0
  else 0

/-- **A created file is zeros behind its shared words**, and says nothing of
the geometry but its length. -/
theorem createFile_eq (hvalid : config.validate = .ok ()) (hlen : fileLen config = .ok len)
    (hle : len ≤ isizeMax) :
    createFile config = .ok ⟨len, blank config.multiProducer⟩ := by
  have hset : setLen len = .ok () := if_neg (Nat.not_lt.2 hle)
  simp only [createFile, hvalid, hlen, hset, bind, Except.bind, pure, Except.pure]
  refine congrArg Except.ok ?_
  have hzero (i : ℕ) : ((RegionFile.zero len).region config.capacity
      (regionSlotSize config)).header i = encodeHeader .free 0 0 none false :=
    SlotHeader.parse_zero
  have hheader (i : ℕ) : (initializeRegion config ((RegionFile.zero len).region config.capacity
      (regionSlotSize config))).header i = encodeHeader .free 0 0 none false :=
    header_foldl_free _ _ rfl hzero i
  have hw := words_foldl_free (List.range config.capacity)
    ((RegionFile.zero len).region config.capacity (regionSlotSize config))
  have hwords : (initializeRegion config ((RegionFile.zero len).region config.capacity
      (regionSlotSize config))).words =
        leBytes 8 0 ++ leBytes 8 0 ++ leBytes 4 (regionMagic config.multiProducer).toNat ++
          leBytes 4 REGION_FORMAT.toNat ++ leBytes 8 PIN_FLOOR_NONE := by
    have hhead : ((RegionFile.zero len).region config.capacity
        (regionSlotSize config)).head = 0 :=
      show leNat (Area.zero.read CURSOR_HEAD_OFFSET 8) = 0 by decide
    have htail : ((RegionFile.zero len).region config.capacity
        (regionSlotSize config)).tail = 0 :=
      show leNat (Area.zero.read CURSOR_TAIL_OFFSET 8) = 0 by decide
    simp only [Region.words, initializeRegion, hw.head, hw.tail, hhead, htail]
  simp only [RegionFile.store, hheader, hzero, ne_eq, not_true_eq_false, and_false, if_false,
    hwords]
  rfl

/-- The empty region of a geometry. -/
def emptyRegion (multiProducer : Bool) (capacity slotSize : ℕ) : Region where
  capacity
  frameCapacity := slotSize - PERSISTENT_SLOT_HEADER_LEN
  head := 0
  tail := 0
  magic := regionMagic multiProducer
  format := REGION_FORMAT
  pinFloor := PIN_FLOOR_NONE
  slots _ := .empty

/-- **Under any geometry a created file reads as an empty region.** -/
theorem region_blank (multiProducer : Bool) (capacity slotSize : ℕ) :
    (RegionFile.mk len (blank multiProducer)).region capacity slotSize =
      emptyRegion multiProducer capacity slotSize := by
  have hbehind (p : ℕ) (hp : REGION_HEADER_LEN ≤ p) : blank multiProducer p = 0 :=
    if_neg (Nat.not_lt.2 hp)
  have hslot (i : ℕ) : REGION_HEADER_LEN ≤ regionSlotOffset i slotSize := Nat.le_add_right _ _
  have hheader (i : ℕ) : (blank multiProducer).read (regionSlotOffset i slotSize)
      PERSISTENT_SLOT_HEADER_LEN = Area.zero.read 0 PERSISTENT_SLOT_HEADER_LEN :=
    List.map_congr_left fun k _ => hbehind _ (Nat.le_trans (hslot i) (Nat.le_add_right _ _))
  have hpayload (i : ℕ) : (fun k => blank multiProducer (regionSlotOffset i slotSize +
      PERSISTENT_SLOT_HEADER_LEN + k)) = Area.zero := by
    funext k
    have := hslot i
    exact hbehind _ (by omega)
  have hhead : leNat ((blank multiProducer).read CURSOR_HEAD_OFFSET 8) = 0 := by
    cases multiProducer <;> decide +kernel
  have htail : leNat ((blank multiProducer).read CURSOR_TAIL_OFFSET 8) = 0 := by
    cases multiProducer <;> decide +kernel
  have hmagic : UInt32.ofNat (leNat ((blank multiProducer).read MAGIC_OFFSET 4)) =
      regionMagic multiProducer := by
    cases multiProducer <;> decide +kernel
  have hformat : UInt32.ofNat (leNat ((blank multiProducer).read FORMAT_OFFSET 4)) =
      REGION_FORMAT := by
    cases multiProducer <;> decide +kernel
  have hfloor : leNat ((blank multiProducer).read PIN_FLOOR_OFFSET 8) = PIN_FLOOR_NONE := by
    cases multiProducer <;> decide +kernel
  simp only [RegionFile.region, RegionFile.word, hheader, SlotHeader.parse_zero, hpayload, hhead,
    htail, hmagic, hformat, hfloor]
  rfl

/-! ## Which mismatches are rejected -/

/-- What is written into a region leaves the length of its file. -/
theorem Written.len_eq (h : Written config file) (hvalid : config.validate = .ok ())
    (hlen : fileLen config = .ok len) (hle : len ≤ isizeMax) : file.len = len := by
  induction h with
  | created hcreate =>
      rw [createFile_eq hvalid hlen hle] at hcreate
      cases hcreate
      rfl
  | write _ _ _ ih => exact ih

/-- **A file that is too short is rejected**, whatever it holds. -/
theorem rejected_of_short (hvalid : config.validate = .ok ())
    (hshort : ∀ need, fileLen config = .ok need → file.len < need) : Rejected host config file := by
  cases hneed : fileLen config with
  | error err =>
      refine ⟨⟨err, ?_⟩, err, ?_⟩
      · simp only [openFile, hvalid, hneed, bind, Except.bind]
      · simp only [createOrOpenFile, hvalid, hneed, bind, Except.bind]
  | ok need =>
      have hlt := hshort need hneed
      have hopen : openFile host config file = (.error (.ofChannel
          (.invalidConfig "file storage is smaller than expected")), file) := by
        simp only [openFile, openStorage, hvalid, hneed, bind, Except.bind, if_pos hlt]
      refine ⟨⟨_, hopen⟩, _, Eq.trans ?_ hopen⟩
      simp only [createOrOpenFile, hvalid, hneed, bind, Except.bind]

variable (host) in
/-- **A created file that is long enough is opened**, under whatever
geometry. -/
theorem openFile_blank (hvalid : config.validate = .ok ()) {need : ℕ}
    (hneed : fileLen config = .ok need) (hle : need ≤ len) (hlen : len ≤ isizeMax) :
    ∃ w file', openFile host config ⟨len, blank config.multiProducer⟩ = (.ok w, file') := by
  obtain ⟨hsize, htotal⟩ := fileLen_eq_ok hneed
  have hfit : Fits config (emptyRegion config.multiProducer config.capacity
      (regionSlotSize config)) :=
    ⟨hvalid, hsize, ⟨need, Nat.le_trans hle hlen, htotal⟩, rfl, Nat.add_sub_cancel _ _, rfl, rfl⟩
  have hfloor : (emptyRegion config.multiProducer config.capacity
      (regionSlotSize config)).scanPinFloor 0 = PIN_FLOOR_NONE := by
    simp [Region.scanPinFloor, Region.firstPinned, emptyRegion]
  have halive : NoneGone host (emptyRegion config.multiProducer config.capacity
      (regionSlotSize config)) := fun _ _ _ h => by cases h
  have hopen := open_ok hfit halive hfloor rfl
  have hstorage : openStorage ⟨len, blank config.multiProducer⟩ need = .ok () :=
    if_neg (Nat.not_lt.2 hle)
  simp only [openFile, hvalid, hneed, hstorage, bind, Except.bind, region_blank, hopen]
  exact ⟨_, _, rfl⟩

end

end PersistentShmChannel

open PersistentShmChannel

/-- **A geometry mismatch is rejected exactly where the file is too short**
for the geometry it is opened with (or that geometry overflows). -/
theorem mismatch_rejected_iff (host : Host) {created opened : SpscConfig} {len : ℕ}
    (hcreated : created.validate = .ok ()) (hlen : fileLen created = .ok len)
    (hle : len ≤ isizeMax) (hopened : opened.validate = .ok ())
    (hmode : created.multiProducer = opened.multiProducer) :
    (∀ file, Written created file → Rejected host opened file) ↔
      ∀ need, fileLen opened = .ok need → len < need := by
  constructor
  · intro hall need hneed
    rcases Nat.lt_or_ge len need with hlt | hge
    · exact hlt
    · obtain ⟨err, herr⟩ := (hall _ (.created (createFile_eq hcreated hlen hle))).1
      obtain ⟨w, file', hok⟩ := openFile_blank host hopened hneed hge hle
      rw [hmode, hok] at herr
      cases herr
  · intro hshort file hfile
    refine rejected_of_short hopened fun need hneed => ?_
    rw [hfile.len_eq hcreated hlen hle]
    exact hshort need hneed

/-- A host of which every process is alive. -/
def sampleOpener : Host := ⟨⟨7, 1⟩, 1, 0, fun _ => .alive, 0, 0⟩

/-- A region of four slots opened with five. -/
theorem mismatch_rejected_larger :
    ∃ file, Written ⟨4, 16, .raise, none, false⟩ file ∧
      Rejected sampleOpener ⟨5, 16, .raise, none, false⟩ file := by
  have hlen : fileLen ⟨4, 16, .raise, none, false⟩ = .ok 488 := by decide
  have hneed : fileLen ⟨5, 16, .raise, none, false⟩ = .ok 602 := by decide
  have hopened : (⟨5, 16, .raise, none, false⟩ : SpscConfig).validate = .ok () := rfl
  have hcreated := createFile_eq rfl hlen (by decide)
  refine ⟨_, .created hcreated, (mismatch_rejected_iff sampleOpener rfl hlen (by decide) hopened
    rfl).2 (fun need h => ?_) _ (.created hcreated)⟩
  rw [hneed] at h
  cases h
  decide

/-- **A region of four slots opened with two is accepted.** -/
theorem mismatch_accepted :
    ∃ file, Written ⟨4, 16, .raise, none, false⟩ file ∧
      (∃ w file', openFile sampleOpener ⟨2, 16, .raise, none, false⟩ file = (.ok w, file')) ∧
      ¬ Rejected sampleOpener ⟨2, 16, .raise, none, false⟩ file := by
  have hlen : fileLen ⟨4, 16, .raise, none, false⟩ = .ok 488 := by decide
  have hneed : fileLen ⟨2, 16, .raise, none, false⟩ = .ok 260 := by decide
  obtain ⟨w, file', hok⟩ := openFile_blank sampleOpener rfl hneed
    (show 260 ≤ 488 by decide) (by decide)
  refine ⟨_, .created (createFile_eq rfl hlen (by decide)), ⟨w, file', hok⟩, fun hrej => ?_⟩
  obtain ⟨err, herr⟩ := hrej.1
  cases hok.symm.trans herr

end Dsline
