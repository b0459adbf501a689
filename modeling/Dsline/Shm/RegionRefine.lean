import Dsline.Shm.RegionBytes
import Dsline.Shm.Ring
/-!
# The bytes show the region

A file shows a region where its words, its slot headers and its frame areas
are those of the region. Every call of `RegionCall` over the bytes then
returns what it returns over the words and the slots, and leaves a file that
shows what that call leaves: a write of one place touches no other.
-/

namespace Dsline

open LittleEndian Simulation

namespace SlotHeader

/-- A field within the front of a raw header. -/
theorem word_append {front : Bytes} (back : Bytes) {offset width : ℕ}
    (hfits : offset + width ≤ front.length) :
    word (front ++ back) offset width = word front offset width := by
  rw [word, word, List.drop_append_of_le_length (by omega),
    List.take_append_of_le_length (by rw [List.length_drop]; omega)]

/-- **Replacing the four bytes of the magic replaces the magic.** -/
theorem parse_replace {front magic magic' rest : Bytes} (hfront : front.length = 41)
    (hmagic' : magic'.length = 4) :
    parse (front ++ (magic' ++ rest)) =
      { parse (front ++ (magic ++ rest)) with identityMagic := .ofNat (leNat magic') } := by
  have hlast : word (front ++ (magic' ++ rest)) ID_MAGIC_OFFSET 4 = leNat magic' := by
    rw [word, List.drop_append_of_le_length (Nat.le_of_eq hfront.symm),
      List.drop_of_length_le (Nat.le_of_eq hfront), List.nil_append,
      List.take_append_of_le_length (Nat.le_of_eq hmagic'.symm),
      List.take_of_length_le (Nat.le_of_eq hmagic')]
  have hfirst (back : Bytes) : (front ++ back).headD 0 = front.headD 0 := by
    cases front with
    | nil => cases hfront
    | cons b front => rfl
  have hfield (back : Bytes) {offset width : ℕ} (hfits : offset + width ≤ 41) :
      word (front ++ back) offset width = word front offset width :=
    word_append back (hfront.symm ▸ hfits)
  simp (disch := decide) only [parse, hlast, hfirst, hfield]

end SlotHeader

namespace PersistentSlotRegion

/-! ## What a file shows -/

/-- A shared word of a region. -/
def wordOf (r : Region) : Access → ℕ
  | .head => r.head
  | .tail => r.tail
  | .magic => r.magic.toNat
  | .format => r.format.toNat
  | .floor => r.pinFloor
  | .header _ | .identityMagic _ | .frame _ _ _ | .clear _ => 0

/-- A region with one shared word replaced. -/
def setWord (access : Access) (value : ℕ) (r : Region) : Region :=
  match access with
  | .head => { r with head := value }
  | .tail => { r with tail := value }
  | .magic => { r with magic := .ofNat value }
  | .format => { r with format := .ofNat value }
  | .floor => { r with pinFloor := value }
  | .header _ | .identityMagic _ | .frame _ _ _ | .clear _ => r

/-- The file shows one place of the region. -/
def ShowsAt (region : PersistentSlotRegion) (file : RegionFile) (r : Region) : Place → Prop
  | .regionHeader => ∀ access : Access, access.place = .regionHeader →
      leNat (file.bytes.read (access.range region).offset (access.range region).len) =
        wordOf r access
  | .slot index => region.headerAt index file = r.header index ∧
      ∀ k < region.frameCapacity,
        file.bytes (region.slotOffset index + PERSISTENT_SLOT_HEADER_LEN + k) =
          (r.slots index).payload k

/-- **The file shows the region**: its shared words, and the slots of the
ring with their frame areas. -/
structure Shows (region : PersistentSlotRegion) (file : RegionFile) (r : Region) : Prop where
  capacity : r.capacity = region.storage.capacity
  frameCapacity : r.frameCapacity = region.frameCapacity
  words : ShowsAt region file r .regionHeader
  slots : ∀ index < region.storage.capacity, ShowsAt region file r (.slot index)

/-- Two regions agree at a place. -/
def SameAt (r' r : Region) : Place → Prop
  | .regionHeader => ∀ access, wordOf r' access = wordOf r access
  | .slot index => r'.slots index = r.slots index

/-- A call over the bytes does what a call over the region does. -/
abbrev Tracks (region : PersistentSlotRegion) {α : Type} (x : FileM α) (y : RegionM α) : Prop :=
  Agree (Shows region) (fun _ => False) x y

section

variable {capacity slotSize : ℕ} {region : PersistentSlotRegion} {file file' : RegionFile}
  {r r' : Region} {access : Access} {bytes : Bytes} {index : ℕ}

/-- The word of a file is that of the region it is read as. -/
theorem shows_region (h : Created .mmap capacity slotSize region) (file : RegionFile) :
    Shows region file (file.region capacity slotSize) where
  capacity := by rw [h.storage]; rfl
  frameCapacity := h.frameCapacity.symm
  words access hplace := by
    have hfour (p : ℕ) : (UInt32.ofNat (leNat (file.bytes.read p 4))).toNat =
        leNat (file.bytes.read p 4) := by
      have hlt := leNat_lt (file.bytes.read p 4)
      rw [Area.length_read] at hlt
      exact UInt32.toNat_ofNat'.trans (Nat.mod_eq_of_lt hlt)
    cases access with
    | header | identityMagic | frame | clear => cases hplace
    | head | tail | floor => rfl
    | magic | format => exact (hfour _).symm
  slots index _ := by
    have hoff : regionSlotOffset index slotSize = region.slotOffset index :=
      (h.slotOffset_eq index).symm
    refine ⟨?_, fun k _ => ?_⟩
    · show SlotHeader.parse _ = SlotHeader.parse (file.bytes.read (regionSlotOffset _ _) _)
      rw [hoff]
    · show file.bytes _ = file.bytes (regionSlotOffset _ _ + _ + k)
      rw [hoff]

/-- A place is shown by its own bytes. -/
theorem ShowsAt.congr (h : Created .mmap capacity slotSize region) {place : Place}
    (hshows : ShowsAt region file r place)
    (hfile : ∀ p, (place.range region).Has p → file'.bytes p = file.bytes p)
    (hsame : SameAt r' r place) : ShowsAt region file' r' place := by
  have hsize := h.slotSize_eq
  cases place with
  | regionHeader =>
      intro access hplace
      have hend := Access.of_regionHeader region hplace
      rw [hsame access, ← hshows access hplace]
      refine congrArg leNat (Area.read_congr fun p hlo hhi => hfile p ⟨Nat.zero_le p, ?_⟩)
      show p < 0 + REGION_HEADER_LEN
      omega
  | slot index =>
      have hhas (p : ℕ) (hlo : region.slotOffset index ≤ p)
          (hhi : p < region.slotOffset index + PERSISTENT_SLOT_HEADER_LEN + region.frameCapacity) :
          file'.bytes p = file.bytes p := by
        refine hfile p ⟨hlo, ?_⟩
        show p < region.slotOffset index + region.storage.slotSize
        omega
      have hslot : r'.slots index = r.slots index := hsame
      refine ⟨?_, fun k hk => ?_⟩
      · show SlotHeader.parse _ = (r'.slots index).header
        rw [hslot]
        refine Eq.trans (congrArg SlotHeader.parse (Area.read_congr fun p hlo hhi => ?_)) hshows.1
        exact hhas p hlo (by omega)
      · rw [hslot, ← hshows.2 k hk]
        exact hhas _ (by omega) (by omega)

/-- Every access of the region is in bounds of a mapping, and of its own
place alone. -/
theorem contained (h : Created .mmap capacity slotSize region) (hmade : access.Made region) :
    Contained region access := by
  refine Access.contained_of_passes h hmade ((Access.passes_iff h hmade).2 ?_)
  rintro ⟨hfile, -⟩
  cases hfile

variable (access) in
/-- **A write of one place shows what it showed at every other.** -/
theorem Shows.write (h : Created .mmap capacity slotSize region) (hmade : access.Made region)
    (hshows : Shows region file r) (hlen : bytes.length = (access.range region).len)
    (hcap : r'.capacity = r.capacity) (hframe : r'.frameCapacity = r.frameCapacity)
    (hsame : ∀ place, place ≠ access.place → SameAt r' r place)
    (hself : ShowsAt region (file.write (access.range region).offset bytes) r' access.place) :
    Shows region (file.write (access.range region).offset bytes) r' := by
  have hother (place : Place) (hne : place ≠ access.place) (hwas : ShowsAt region file r place) :
      ShowsAt region (file.write (access.range region).offset bytes) r' place :=
    hwas.congr h ((contained h hmade).untouched file bytes hlen place hne) (hsame place hne)
  refine ⟨hcap.trans hshows.capacity, hframe.trans hshows.frameCapacity, ?_, fun index hindex => ?_⟩
  · by_cases hplace : Place.regionHeader = access.place
    · exact hplace ▸ hself
    · exact hother _ hplace hshows.words
  · by_cases hplace : Place.slot index = access.place
    · exact hplace ▸ hself
    · exact hother _ hplace (hshows.slots index hindex)

/-! ## The shared words -/

/-- The call that reads a word. -/
def askWord (access : Access) : RegionM ℕ := fun r => .ok (wordOf r access) r

/-- The call that exchanges a word. -/
def exchangeWord (access : Access) (expected new : ℕ) : RegionM (ℕ × Bool) := fun r =>
  .ok (wordOf r access, decide (wordOf r access = expected))
    (if wordOf r access = expected then setWord access new r else r)

theorem wordOf_setWord (hplace : access.place = .regionHeader) {value : ℕ}
    (hvalue : value < 256 ^ (access.range region).len) :
    wordOf (setWord access value r) access = value := by
  cases access with
  | header | identityMagic | frame | clear => cases hplace
  | head | tail | floor => rfl
  | magic | format => exact (UInt32.toNat_ofNat').trans (Nat.mod_eq_of_lt hvalue)

theorem wordOf_setWord_ne {other : Access} (hne : other ≠ access) (value : ℕ) :
    wordOf (setWord access value r) other = wordOf r other := by
  cases access <;> cases other <;> first | rfl | exact absurd rfl hne

/-- The shared words are apart. -/
theorem words_apart {other : Access} (hplace : access.place = .regionHeader)
    (hother : other.place = .regionHeader) (hne : other ≠ access) :
    (other.range region).offset + (other.range region).len ≤ (access.range region).offset ∨
      (access.range region).offset + (access.range region).len ≤ (other.range region).offset := by
  cases access with
  | header | identityMagic | frame | clear => cases hplace
  | head | tail | magic | format | floor =>
      cases other with
      | header | identityMagic | frame | clear => cases hother
      | head | tail | magic | format | floor =>
          first
            | exact absurd rfl hne
            | exact .inl (Nat.le_of_ble_eq_true rfl)
            | exact .inr (Nat.le_of_ble_eq_true rfl)

theorem made_of_regionHeader (hplace : access.place = .regionHeader) : access.Made region := by
  cases access with
  | header | identityMagic | frame | clear => cases hplace
  | head | tail | magic | format | floor => trivial

/-- Writing a shared word. -/
theorem tracks_storeWord (h : Created .mmap capacity slotSize region)
    (hplace : access.place = .regionHeader) {value : ℕ}
    (hvalue : value < 256 ^ (access.range region).len) :
    Tracks region
      (region.storage.writeAt (access.range region).offset
        (leBytes (access.range region).len value))
      (modify (setWord access value)) := by
  intro file r hshows
  have hmade : access.Made region := made_of_regionHeader hplace
  have hlen := length_leBytes (access.range region).len value
  have hsame : (setWord access value r).slots = r.slots ∧
      (setWord access value r).capacity = r.capacity ∧
      (setWord access value r).frameCapacity = r.frameCapacity := by
    cases access <;> exact ⟨rfl, rfl, rfl⟩
  refine ⟨_, writeAt_ok ?_, hshows.write access h hmade hlen hsame.2.1 hsame.2.2 ?_ ?_⟩
  · rw [hlen]
    exact (contained h hmade).passes
  · intro place hne
    cases place with
    | regionHeader => exact absurd hplace.symm hne
    | slot index => exact congrFun hsame.1 index
  · rw [hplace]
    intro other hother
    by_cases hself : other = access
    · subst hself
      rw [wordOf_setWord hplace hvalue]
      exact (congrArg leNat (Area.read_write_of_length hlen)).trans (leNat_leBytes_of_lt hvalue)
    · rw [wordOf_setWord_ne hself, ← hshows.words other hother]
      refine congrArg leNat (Area.read_write_disjoint ?_)
      rw [hlen]
      exact words_apart hplace hother hself

section

variable {offset : ℕ} (h : Created .mmap capacity slotSize region)
  (hplace : access.place = .regionHeader) (hrange : access.range region = ⟨offset, 8⟩)

include h hplace hrange

/-- Loading a shared word. -/
theorem loadU64_shows (hshows : Shows region file r) :
    region.storage.loadU64 offset file = .ok (wordOf r access) file := by
  have hread : region.storage.readAt ⟨offset, 8⟩ file = .ok (file.bytes.read offset 8) file :=
    readAt_ok (hrange ▸ (contained h (made_of_regionHeader hplace)).passes)
  have hword := hshows.words access hplace
  rw [hrange] at hword
  rw [SlotStorage.loadU64, Effect.bind_ok hread, hword]
  rfl

theorem tracks_loadU64 : Tracks region (region.storage.loadU64 offset) (askWord access) :=
  fun file _ hshows => ⟨file, loadU64_shows h hplace hrange hshows, hshows⟩

theorem tracks_storeU64 {value : ℕ} (hvalue : value < wordCount) :
    Tracks region (region.storage.storeU64 offset value) (modify (setWord access value)) := by
  have hstore : Tracks region
      (region.storage.writeAt (access.range region).offset
        (leBytes (access.range region).len value))
      (modify (setWord access value)) := tracks_storeWord h hplace (by rwa [hrange])
  rwa [hrange] at hstore

omit h in
/-- A word read from a file has 64 bits. -/
theorem askWord_lt {r' : Region} {found : ℕ} (hshows : Shows region file r)
    (hask : askWord access r = .ok found r') : found < wordCount := by
  cases hask
  have hlt := leNat_lt (file.bytes.read (access.range region).offset (access.range region).len)
  rw [Area.length_read, hshows.words access hplace, hrange] at hlt
  exact hlt

theorem tracks_fetchMaxU64 {value : ℕ} (hvalue : value < wordCount) :
    Tracks region (region.storage.fetchMaxU64 offset value) (do
      let found ← askWord access
      modify (setWord access (max found value))
      return found) := by
  have hmmap : region.storage.backend = .mmap := by rw [h.storage]
  rw [SlotStorage.fetchMaxU64, hmmap]
  refine agree_bind_of (tracks_loadU64 h hplace hrange)
    (fun file r found r' hshows hask => askWord_lt hplace hrange hshows hask) fun found hlt => ?_
  refine agree_bind (tracks_storeU64 h hplace hrange (Nat.max_lt.2 ⟨hlt, hvalue⟩)) fun _ => ?_
  exact agree_pure found

theorem tracks_compareExchangeU64 {expected new : ℕ} (hnew : new < wordCount) :
    Tracks region (region.storage.compareExchangeU64 offset expected new)
      (exchangeWord access expected new) := by
  have hmmap : region.storage.backend = .mmap := by rw [h.storage]
  rw [SlotStorage.compareExchangeU64, hmmap]
  refine Agree.congr (agree_bind (tracks_loadU64 h hplace hrange) fun found =>
    agree_ite (fun _ => agree_bind (tracks_storeU64 h hplace hrange hnew) fun _ =>
      agree_pure (found, true)) fun _ => agree_pure (found, false)) fun file r _ => ?_
  have hask : askWord access r = .ok (wordOf r access) r := rfl
  rw [Effect.bind_ok hask, exchangeWord]
  by_cases hfound : wordOf r access = expected
  · rw [if_pos hfound, if_pos hfound, decide_eq_true hfound]
    rfl
  · rw [if_neg hfound, if_neg hfound, decide_eq_false hfound]
    rfl

end

/-! ## Slots -/

/-- The call that reads a header. -/
def askHeader (index : ℕ) : RegionM SlotHeader := fun r => .ok (r.header index) r

/-- The call that reads bytes of a frame area. -/
def askFrame (index offset len : ℕ) : RegionM Bytes := fun r =>
  .ok ((r.slots index).payload.read offset len) r

section

variable (h : Created .mmap capacity slotSize region) (hindex : index < capacity)

include h hindex

theorem passes_slot : SlotPasses region index ∧ index < region.storage.capacity := by
  refine ⟨slotPasses_of h ?_, ?_⟩
  · rintro ⟨hfile, -⟩
    cases hfile
  · rw [h.storage]
    exact hindex

/-- Reading a header. -/
theorem readHeader_shows (hshows : Shows region file r) :
    region.readHeader index file = .ok (r.header index) file := by
  obtain ⟨hslot, hcap⟩ := passes_slot h hindex
  rw [readHeader_ok hslot hcap, (hshows.slots index hcap).1]

theorem tracks_readHeader : Tracks region (region.readHeader index) (askHeader index) :=
  fun file _ hshows => ⟨file, readHeader_shows h hindex hshows, hshows⟩

omit hindex in
variable (access) in
/-- A write to a slot. -/
theorem Shows.writeSlot (hplace : access.place = .slot index) (hmade : access.Made region)
    (hshows : Shows region file r) (hlen : bytes.length = (access.range region).len) {slot : Slot}
    (hheader : region.headerAt index (file.write (access.range region).offset bytes) =
      slot.header)
    (hframe : ∀ k < region.frameCapacity,
      (file.write (access.range region).offset bytes).bytes
        (region.slotOffset index + PERSISTENT_SLOT_HEADER_LEN + k) = slot.payload k) :
    Shows region (file.write (access.range region).offset bytes) (r.setSlot index slot) := by
  refine hshows.write access h hmade hlen rfl rfl (fun place hne => ?_) ?_
  · rw [hplace] at hne
    cases place with
    | regionHeader =>
        intro other
        cases other <;> rfl
    | slot j => exact Region.setSlot_slots_of_ne fun hj => hne (congrArg Place.slot hj)
  · rw [hplace]
    show _ = ((r.setSlot index slot).slots index).header ∧ _
    rw [Region.setSlot_slots_self]
    exact ⟨hheader, hframe⟩

/-- Writing a header image. -/
theorem tracks_writeImage (header : SlotHeader) :
    Tracks region (region.storage.writeAt (region.slotOffset index) header.image)
      (modify fun r => r.setHeader index header) := by
  intro file r hshows
  obtain ⟨hslot, hcap⟩ := passes_slot h hindex
  have hlen := SlotHeader.length_image header
  refine ⟨_, writeImage_ok hslot hcap header, ?_⟩
  refine hshows.writeSlot (.header index) h rfl hcap hlen (headerAt_write header)
    fun k hk => ?_
  rw [← (hshows.slots index hcap).2 k hk]
  refine Area.write_apply_of_ge ?_
  rw [hlen]
  exact Nat.le_add_right _ _

/-- Writing into a frame area. -/
theorem tracks_writeFrame {offset : ℕ} (hfits : offset + bytes.length ≤ region.frameCapacity) :
    Tracks region (region.writeFrame index offset bytes)
      (modify fun r => r.setPayload index offset bytes) := by
  intro file r hshows
  obtain ⟨hslot, hcap⟩ := passes_slot h hindex
  have hmade : (Access.frame index offset bytes.length).Made region := ⟨hcap, hfits⟩
  refine ⟨_, writeAt_ok (hslot _ hmade rfl), ?_⟩
  refine hshows.writeSlot (.frame index offset bytes.length) h rfl hmade rfl ?_
    fun k hk => ?_
  · refine Eq.trans (congrArg SlotHeader.parse (Area.read_write_disjoint (.inl ?_)))
      (hshows.slots index hcap).1
    exact Nat.le_add_right _ _
  · exact Area.write_shifted ((hshows.slots index hcap).2 k hk)

theorem tracks_readFrame {offset len : ℕ} (hfits : offset + len ≤ region.frameCapacity) :
    Tracks region (region.readFrame index offset len) (askFrame index offset len) := by
  intro file r hshows
  obtain ⟨hslot, hcap⟩ := passes_slot h hindex
  have hmade : (Access.frame index offset len).Made region := ⟨hcap, hfits⟩
  refine ⟨file, (readAt_ok (hslot _ hmade rfl)).trans ?_, hshows⟩
  refine congrArg (EStateM.Result.ok · file) (List.map_congr_left fun k hk => ?_)
  have hk' : k < len := List.mem_range.1 hk
  exact (congrArg file.bytes (Nat.add_assoc _ offset k)).trans
    ((hshows.slots index hcap).2 (offset + k) (by omega))

/-- `clear_payload` writes zeros. -/
theorem tracks_clearPayload : Tracks region (region.clearPayload index)
    (modify fun r => r.clearPayload index) := by
  have hlen : (List.replicate region.frameCapacity (0 : UInt8)).length = region.frameCapacity :=
    List.length_replicate
  have hwrite : Tracks region (region.writeFrame index 0 (List.replicate region.frameCapacity 0))
      (modify fun r => r.setPayload index 0 (List.replicate region.frameCapacity 0)) :=
    tracks_writeFrame h hindex (by rw [hlen, Nat.zero_add])
  refine Agree.congr hwrite fun file r hshows => ?_
  show EStateM.Result.ok PUnit.unit (r.clearPayload index) =
    EStateM.Result.ok PUnit.unit (r.setPayload index 0 (List.replicate region.frameCapacity 0))
  rw [Region.clearPayload, Region.setPayload, Area.write_replicate, hshows.frameCapacity]

/-- Writing the identity magic. -/
theorem tracks_publishIdentity : Tracks region
    (region.storage.writeAt (region.magicRange index).offset
      (leBytes 4 SLOT_IDENTITY_MAGIC.toNat))
    (modify fun r => r.publishIdentity index) := by
  intro file r hshows
  obtain ⟨hslot, hcap⟩ := passes_slot h hindex
  have hlen : (leBytes 4 SLOT_IDENTITY_MAGIC.toNat).length = 4 := length_leBytes 4 _
  refine ⟨_, writeAt_ok ?_, ?_⟩
  · rw [hlen]
    exact hslot (.identityMagic index) hcap rfl
  refine hshows.writeSlot (.identityMagic index) h rfl hcap hlen ?_ fun k hk => ?_
  · have hwas := (hshows.slots index hcap).1
    set o := region.slotOffset index with ho
    have hraw : file.bytes.read o 48 =
        file.bytes.read o 41 ++ (file.bytes.read (o + 41) 4 ++ file.bytes.read (o + 45) 3) := by
      rw [← Area.read_add, ← Area.read_add]
    have hnew : (file.bytes.write (o + 41) (leBytes 4 SLOT_IDENTITY_MAGIC.toNat)).read o 48 =
        file.bytes.read o 41 ++
          (leBytes 4 SLOT_IDENTITY_MAGIC.toNat ++ file.bytes.read (o + 45) 3) := by
      show Area.read _ o (41 + (4 + 3)) = _
      rw [Area.read_add, Area.read_add, Area.read_write_of_length hlen,
        Area.read_write_disjoint (.inl (Nat.le_refl _)),
        Area.read_write_disjoint (.inr (by rw [hlen]))]
    show SlotHeader.parse ((file.bytes.write (o + 41) _).read o 48) =
      { r.header index with identityMagic := SLOT_IDENTITY_MAGIC }
    rw [← hwas]
    show _ = { SlotHeader.parse (file.bytes.read o 48) with identityMagic := SLOT_IDENTITY_MAGIC }
    rw [hnew, hraw, SlotHeader.parse_replace Area.length_read hlen]
    rfl
  · rw [← (hshows.slots index hcap).2 k hk]
    refine Area.write_apply_of_ge ?_
    rw [hlen]
    show region.slotOffset index + 41 + 4 ≤ region.slotOffset index + 48 + k
    omega

end

end

end PersistentSlotRegion

end Dsline
