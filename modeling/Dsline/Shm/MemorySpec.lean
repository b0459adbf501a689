import Dsline.Library.Window
import Dsline.Shm.Inbox
import Dsline.Shm.Memory
/-!
# What the in-memory region's operations do

A slot shows a cell: nothing, a frame to read, or a frame being read. Each
region operation changes the cell of one slot and no other, and the channel
around it is a ring of cells from the tail on (`Ring`). The receive steps on
such a ring are the inbox's (`simulates_tailOps`).
-/

namespace Dsline

open Simulation

/-- What a slot of the in-memory region shows. -/
inductive Cell where
  | free
  | committed (snapshot : SlotSnapshot)
  | pinned

/-- What a storage is made of. -/
theorem MemorySlotStorage.new_ok {capacity slotSize : ℕ} {storage : MemorySlotStorage}
    (h : MemorySlotStorage.new capacity slotSize = .ok storage) :
    storage = ⟨capacity, slotSize, Area.zero⟩ ∧ 0 < slotSize ∧ capacity * slotSize ≤ isizeMax := by
  unfold MemorySlotStorage.new at h
  split at h
  · cases h
  · split at h
    · cases h
    · rename_i hsize
      split at h
      · cases h
      · rename_i totalLen htotal
        split at h
        · cases h
        · rename_i hfits
          unfold checkedMul at htotal
          split at htotal
          · cases htotal
            exact ⟨(Except.ok.inj h).symm, Nat.pos_of_ne_zero hsize, Nat.le_of_not_lt hfits⟩
          · cases htotal

namespace FixedSlotRegion

/-- The slot shows the cell. -/
def Shows (region : FixedSlotRegion) (index : ℕ) : Cell → Prop
  | .free => (region.slots index).state = .free
  | .committed snapshot =>
      region.slots index = ⟨.committed, snapshot.seq, snapshot.data.length⟩ ∧
        snapshot.data.length ≤ region.storage.slotSize ∧
        region.storage.data.read (index * region.storage.slotSize) snapshot.data.length =
          snapshot.data
  | .pinned => (region.slots index).state = .pinned

/-- Only the slot at `index` differs. -/
structure SameBut (index : ℕ) (region region' : FixedSlotRegion) : Prop where
  capacity : region'.storage.capacity = region.storage.capacity
  slotSize : region'.storage.slotSize = region.storage.slotSize
  slots : ∀ i, i ≠ index → region'.slots i = region.slots i
  data : ∀ i, i ≠ index → ∀ n ≤ region.storage.slotSize,
    region'.storage.data.read (i * region.storage.slotSize) n =
      region.storage.data.read (i * region.storage.slotSize) n

/-- The region's places are within the address space. -/
def Fits (region : FixedSlotRegion) : Prop :=
  region.storage.capacity * region.storage.slotSize ≤ isizeMax

variable {region region' : FixedSlotRegion} {index i : ℕ} {cell : Cell} {snapshot : SlotSnapshot}
  {seq : UInt64} {frame : Bytes}

/-- **Another slot shows what it showed.** -/
theorem SameBut.shows (h : SameBut index region region') (hi : i ≠ index)
    (hs : region.Shows i cell) : region'.Shows i cell := by
  cases cell with
  | free => rwa [Shows, h.slots i hi]
  | pinned => rwa [Shows, h.slots i hi]
  | committed snapshot =>
      obtain ⟨hslot, hlen, hdata⟩ := hs
      refine ⟨(h.slots i hi).trans hslot, by rw [h.slotSize]; exact hlen, ?_⟩
      rw [h.slotSize, h.data i hi _ hlen, hdata]

/-- Changing a table entry changes one slot. -/
theorem sameBut_setSlot (entry : FixedSlot) : SameBut index region (region.setSlot index entry) :=
  ⟨rfl, rfl, fun _ hi => if_neg hi, fun _ _ _ _ => rfl⟩

/-- A write within a slot's bytes changes one slot. -/
theorem sameBut_write {bytes : Bytes} (hlen : bytes.length ≤ region.storage.slotSize) :
    SameBut index region { region with storage := { region.storage with
      data := region.storage.data.write (index * region.storage.slotSize) bytes } } := by
  refine ⟨rfl, rfl, fun _ _ => rfl, fun i hi n hn => Area.read_write_disjoint ?_⟩
  rcases Nat.lt_or_gt_of_ne hi with h | h
  · have hle := Nat.mul_le_mul_right region.storage.slotSize (Nat.succ_le_of_lt h)
    rw [Nat.succ_mul] at hle
    omega
  · have hle := Nat.mul_le_mul_right region.storage.slotSize (Nat.succ_le_of_lt h)
    rw [Nat.succ_mul] at hle
    omega

theorem SameBut.trans {region'' : FixedSlotRegion} (h : SameBut index region region')
    (h' : SameBut index region' region'') : SameBut index region region'' where
  capacity := h'.capacity.trans h.capacity
  slotSize := h'.slotSize.trans h.slotSize
  slots i hi := (h'.slots i hi).trans (h.slots i hi)
  data i hi n hn := by
    have hd := h'.data i hi n (by rw [h.slotSize]; exact hn)
    rw [h.slotSize] at hd
    rw [hd, h.data i hi n hn]

theorem slot_ok (hi : index < region.storage.capacity) :
    slot index region = .ok (region.slots index) region := by
  rw [slot, Effect.get_bind, if_pos hi]
  rfl

/-- A slot's offset is within the address space. -/
theorem offset_ok (hfits : region.Fits) (hi : index < region.storage.capacity) :
    region.storage.offset index = .ok (index * region.storage.slotSize) := by
  have hle := Nat.mul_le_mul_right region.storage.slotSize (Nat.le_of_lt hi)
  unfold Fits at hfits
  simp only [isizeMax] at hfits
  rw [MemorySlotStorage.offset, if_neg (Nat.not_le.2 hi), checkedMul,
    if_pos (by simp only [wordCount]; omega)]

/-- A storage step that succeeds. -/
theorem onStorage_ok {op : MemorySlotStorage → Except Failure MemorySlotStorage}
    {storage : MemorySlotStorage} (h : op region.storage = .ok storage) :
    onStorage op region = .ok () { region with storage } := by
  rw [onStorage, Effect.get_bind, h]
  rfl

/-- The region with bytes written over a slot's. -/
def stored (region : FixedSlotRegion) (index : ℕ) (bytes : Bytes) : FixedSlotRegion :=
  { region with storage := { region.storage with
    data := region.storage.data.write (index * region.storage.slotSize) bytes } }

theorem writeSlot_ok (hfits : region.Fits) (hi : index < region.storage.capacity)
    (hlen : frame.length ≤ region.storage.slotSize) :
    onStorage (fun storage => storage.writeSlot index frame) region =
      .ok () (region.stored index frame) := by
  refine onStorage_ok ?_
  rw [MemorySlotStorage.writeSlot, if_neg (Nat.not_lt.2 hlen), offset_ok hfits hi]
  rfl

theorem clearSlot_ok (hfits : region.Fits) (hi : index < region.storage.capacity) :
    onStorage (fun storage => storage.clearSlot index) region =
      .ok () (region.stored index (List.replicate region.storage.slotSize 0)) := by
  refine onStorage_ok ?_
  rw [MemorySlotStorage.clearSlot, offset_ok hfits hi]
  rfl

variable (seq) in
/-- **A write of a frame into a FREE slot commits it.** -/
theorem writeCommitted_ok (hfits : region.Fits) (hi : index < region.storage.capacity)
    (hfree : region.Shows index .free) (hlen : frame.length ≤ region.storage.slotSize) :
    ∃ region', writeCommitted index seq frame region = .ok () region' ∧
      SameBut index region region' ∧ region'.Shows index (.committed ⟨seq, frame⟩) := by
  have hstate : (region.slots index).state = .free := hfree
  let r1 := region.setSlot index ⟨.writing, seq, frame.length⟩
  let r2 := r1.stored index frame
  have hstore : onStorage (fun storage => storage.writeSlot index frame) r1 = .ok () r2 :=
    writeSlot_ok (show r1.Fits from hfits) hi hlen
  refine ⟨r2.setSlot index { r2.slots index with state := .committed }, ?_, ?_, ?_⟩
  · rw [writeCommitted, Effect.get_bind, if_neg (Nat.not_lt.2 hlen)]
    refine (Effect.bind_ok (slot_ok hi)).trans ?_
    rw [if_neg (by simp [hstate])]
    refine Effect.modify_bind.trans ?_
    exact (Effect.bind_ok hstore).trans rfl
  · have h1 : SameBut index region r1 := sameBut_setSlot _
    have h2 : SameBut index r1 r2 := sameBut_write hlen
    exact (h1.trans h2).trans (sameBut_setSlot _)
  · refine ⟨?_, hlen, Area.read_write⟩
    simp [setSlot, stored, r2, r1]

theorem peekCommitted_ok (hfits : region.Fits) (hi : index < region.storage.capacity)
    (hshow : region.Shows index (.committed snapshot)) :
    peekCommitted index region = .ok snapshot region := by
  obtain ⟨hslot, hlen, hdata⟩ := hshow
  rw [peekCommitted, Effect.bind_ok (slot_ok hi), hslot, if_neg (by simp)]
  refine (Effect.get_bind).trans ?_
  rw [MemorySlotStorage.readSlot, if_neg (Nat.not_lt.2 hlen), offset_ok hfits hi]
  show EStateM.Result.ok (⟨snapshot.seq, region.storage.data.read _ _⟩ : SlotSnapshot) region = _
  rw [hdata]

/-- **A read of a committed slot pins it.** -/
theorem readCommitted_ok (hfits : region.Fits) (hi : index < region.storage.capacity)
    (hshow : region.Shows index (.committed snapshot)) :
    ∃ region', readCommitted index region = .ok snapshot region' ∧
      SameBut index region region' ∧ region'.Shows index .pinned := by
  refine ⟨region.setSlot index { region.slots index with state := .pinned }, ?_,
    sameBut_setSlot _, by simp [Shows, setSlot]⟩
  rw [readCommitted, Effect.bind_ok (peekCommitted_ok hfits hi hshow)]
  rfl

/-- A slot that is not committed is not read. -/
theorem readCommitted_empty (hi : index < region.storage.capacity)
    (hstate : (region.slots index).state ≠ .committed) :
    readCommitted index region = .error (.ofChannel .bufferEmpty) region := by
  have hpeek : peekCommitted index region = .error (.ofChannel .bufferEmpty) region := by
    rw [peekCommitted, Effect.bind_ok (slot_ok hi), if_pos hstate]
    rfl
  exact Effect.bind_error hpeek

theorem releaseSlot_ok (hfits : region.Fits) (hi : index < region.storage.capacity) :
    ∃ region', releaseSlot index region = .ok () region' ∧
      SameBut index region region' ∧ region'.Shows index .free := by
  have h1 : SameBut index region
      (region.stored index (List.replicate region.storage.slotSize 0)) :=
    sameBut_write (Nat.le_of_eq List.length_replicate)
  refine ⟨_, ?_, h1.trans (sameBut_setSlot ⟨.free, 0, 0⟩), by simp [Shows, setSlot]⟩
  exact (Effect.bind_ok (clearSlot_ok hfits hi)).trans rfl

/-- **A release frees the slot.** -/
theorem releasePinned_ok (hfits : region.Fits) (hi : index < region.storage.capacity)
    (hshow : region.Shows index .pinned) :
    ∃ region', releasePinned index region = .ok () region' ∧
      SameBut index region region' ∧ region'.Shows index .free := by
  have hstate : (region.slots index).state = .pinned := hshow
  rw [releasePinned, Effect.bind_ok (slot_ok hi), if_neg (by simp [hstate])]
  exact releaseSlot_ok hfits hi

theorem releaseCommitted_ok (hfits : region.Fits) (hi : index < region.storage.capacity)
    (hshow : region.Shows index (.committed snapshot)) :
    ∃ region', releaseCommitted index region = .ok () region' ∧
      SameBut index region region' ∧ region'.Shows index .free := by
  rw [releaseCommitted, Effect.bind_ok (slot_ok hi), hshow.1, if_neg (by simp)]
  exact releaseSlot_ok hfits hi

end FixedSlotRegion

namespace ShmSpscChannel

open FixedSlotRegion

/-- **The ring of cells from the tail on.** The channel's slots show these
cells from the tail on, and nothing behind them. -/
structure Ring (ch : ShmSpscChannel) (cells : List Cell) : Prop where
  fits : ch.region.Fits
  capacity : ch.region.storage.capacity = ch.config.capacity
  slotSize : ch.region.storage.slotSize = ch.config.slotSize + FRAME_HEADER_LEN
  tail : ch.tail < ch.config.capacity
  len : ch.len = cells.length
  bounded : cells.length ≤ ch.config.capacity
  head : ch.head = (ch.tail + cells.length) % ch.config.capacity
  shows : ∀ k < ch.config.capacity,
    ch.region.Shows ((ch.tail + k) % ch.config.capacity) (cells[k]?.getD .free)

variable {ch ch' : ShmSpscChannel} {cell cell' : Cell} {cells : List Cell}
  {region : FixedSlotRegion} {snapshot : SlotSnapshot} {seq : UInt64} {frame : Bytes}

theorem Ring.pos (h : ch.Ring cells) : 0 < ch.config.capacity := Nat.zero_lt_of_lt h.tail

/-- The counters are no part of the ring. -/
theorem Ring.of_same (h : ch.Ring cells) (hconfig : ch'.config = ch.config)
    (hregion : ch'.region = ch.region) (hhead : ch'.head = ch.head) (htail : ch'.tail = ch.tail)
    (hlen : ch'.len = ch.len) : ch'.Ring cells where
  fits := by rw [hregion]; exact h.fits
  capacity := by rw [hregion, hconfig]; exact h.capacity
  slotSize := by rw [hregion, hconfig]; exact h.slotSize
  tail := by rw [htail, hconfig]; exact h.tail
  len := hlen.trans h.len
  bounded := by rw [hconfig]; exact h.bounded
  head := by rw [hhead, htail, hconfig]; exact h.head
  shows := by rw [hregion, htail, hconfig]; exact h.shows

theorem Ring.first (h : ch.Ring (cell :: cells)) : ch.region.Shows ch.tail cell := by
  have hk := h.shows 0 h.pos
  rwa [Nat.add_zero, Nat.mod_eq_of_lt h.tail] at hk

theorem Ring.first_free (h : ch.Ring []) : ch.region.Shows ch.tail .free := by
  have hk := h.shows 0 h.pos
  rwa [Nat.add_zero, Nat.mod_eq_of_lt h.tail] at hk

theorem Ring.index (h : ch.Ring cells) : ch.tail < ch.region.storage.capacity := by
  rw [h.capacity]
  exact h.tail

theorem Ring.fits_of_same (h : ch.Ring cells) {index : ℕ} (hsame : SameBut index ch.region region) :
    region.Fits := by
  unfold Fits
  rw [hsame.capacity, hsame.slotSize]
  exact h.fits

/-- The cell of one place is replaced. -/
theorem Ring.replace (h : ch.Ring cells) {k : ℕ} {cells' : List Cell} (hk : k < ch.config.capacity)
    (hsame : SameBut ((ch.tail + k) % ch.config.capacity) ch.region region)
    (hshow : region.Shows ((ch.tail + k) % ch.config.capacity) (cells'[k]?.getD .free))
    (hcells : ∀ j, j ≠ k → cells'[j]?.getD .free = cells[j]?.getD .free) :
    ∀ j < ch.config.capacity,
      region.Shows ((ch.tail + j) % ch.config.capacity) (cells'[j]?.getD .free) := by
  intro j hj
  rcases Nat.lt_trichotomy j k with hlt | rfl | hgt
  · rw [hcells j (by omega)]
    exact hsame.shows (Window.mod_ne (t := ch.tail) (by omega) (by omega) (by omega) (by omega)
      (by omega)) (h.shows j hj)
  · exact hshow
  · rw [hcells j (by omega)]
    exact hsame.shows (Window.mod_ne (t := ch.tail) (by omega) (by omega) (by omega) (by omega)
      (by omega)) (h.shows j hj)

/-- The cell at the tail is replaced. -/
theorem Ring.setFirst (h : ch.Ring (cell :: cells)) (hsame : SameBut ch.tail ch.region region)
    (hshow : region.Shows ch.tail cell') : Ring { ch with region } (cell' :: cells) where
  fits := h.fits_of_same hsame
  capacity := hsame.capacity.trans h.capacity
  slotSize := hsame.slotSize.trans h.slotSize
  tail := h.tail
  len := h.len
  bounded := h.bounded
  head := h.head
  shows := by
    have ht : (ch.tail + 0) % ch.config.capacity = ch.tail := Nat.mod_eq_of_lt h.tail
    refine h.replace h.pos (by rw [ht]; exact hsame) (by rw [ht]; exact hshow) fun j hj => ?_
    cases j with
    | zero => exact absurd rfl hj
    | succ j => rfl

/-- The tail steps over a freed slot. -/
theorem Ring.step (h : ch.Ring (.free :: cells)) : ch.stepTail.Ring cells where
  fits := h.fits
  capacity := h.capacity
  slotSize := h.slotSize
  tail := Nat.mod_lt _ h.pos
  len := by
    have hlen := h.len
    rw [List.length_cons] at hlen
    show ch.len - 1 = cells.length
    omega
  bounded := Nat.le_of_succ_le h.bounded
  head := by
    show ch.head = ((ch.tail + 1) % ch.config.capacity + cells.length) % ch.config.capacity
    rw [h.head, List.length_cons, Nat.mod_add_mod, Nat.add_assoc, Nat.add_comm 1]
  shows := by
    intro k hk
    replace hk : k < ch.config.capacity := hk
    show ch.region.Shows (((ch.tail + 1) % ch.config.capacity + k) % ch.config.capacity) _
    have hplace : ((ch.tail + 1) % ch.config.capacity + k) % ch.config.capacity =
        (ch.tail + (k + 1)) % ch.config.capacity := by
      rw [Nat.mod_add_mod, Nat.add_assoc, Nat.add_comm 1]
    rw [hplace]
    rcases Nat.lt_or_ge (k + 1) ch.config.capacity with hlt | hge
    · exact h.shows (k + 1) hlt
    · -- The last place behind the new tail is the one it stepped over.
      have hlen := h.bounded
      rw [List.length_cons] at hlen
      have heq : k + 1 = ch.config.capacity := by omega
      have hnone : cells[k]? = none := List.getElem?_eq_none (by omega)
      rw [heq, Window.add_length_mod, Nat.mod_eq_of_lt h.tail, hnone]
      exact h.first

variable (seq) in
/-- **A frame goes in behind the others.** -/
theorem Ring.push (h : ch.Ring cells) (hroom : cells.length < ch.config.capacity)
    (hlen : frame.length ≤ ch.config.slotSize + FRAME_HEADER_LEN) :
    ∃ region, onRegion (writeCommitted ch.head seq frame) ch = .ok () { ch with region } ∧
      Ring { ch with region, head := (ch.head + 1) % ch.config.capacity, len := ch.len + 1 }
        (cells ++ [.committed ⟨seq, frame⟩]) := by
  have hi : ch.head < ch.region.storage.capacity := by
    rw [h.head, h.capacity]
    exact Nat.mod_lt _ h.pos
  have hnone : cells[cells.length]? = none := List.getElem?_eq_none (Nat.le_refl _)
  have hfree := h.shows cells.length hroom
  rw [hnone, ← h.head] at hfree
  obtain ⟨region, hwrite, hsame, hshow⟩ :=
    writeCommitted_ok seq h.fits hi hfree (by rw [h.slotSize]; exact hlen)
  have hlast : (cells ++ [Cell.committed ⟨seq, frame⟩])[cells.length]? =
      some (.committed ⟨seq, frame⟩) := by simp
  refine ⟨region, by simp only [onRegion, hwrite], ?_⟩
  rw [h.head] at hsame hshow
  exact
    { fits := h.fits_of_same hsame
      capacity := hsame.capacity.trans h.capacity
      slotSize := hsame.slotSize.trans h.slotSize
      tail := h.tail
      len := by simp [h.len]
      bounded := by rw [List.length_append]; exact hroom
      head := by
        show (ch.head + 1) % _ = _
        rw [h.head, Window.mod_succ_mod, List.length_append, Nat.add_assoc]
        rfl
      shows := by
        refine h.replace hroom hsame (by rw [hlast]; exact hshow) fun j hj => ?_
        rcases Nat.lt_or_gt_of_ne hj with hlt | hgt
        · rw [List.getElem?_append_left hlt]
        · rw [List.getElem?_eq_none (by rw [List.length_append]; exact hgt),
            List.getElem?_eq_none (by omega)] }

/-- A fresh handle over a storage. -/
def fresh (config : SpscConfig) (storage : MemorySlotStorage) : ShmSpscChannel where
  config
  region := { storage, slots := fun _ => .default }
  head := 0
  tail := 0
  len := 0
  nextSeq := 0
  expectedRecvSeq := 0
  lastReceivedSeq := none
  closed := false

/-- What a new channel is made of. -/
theorem new_ok {config : SpscConfig} (h : new config = .ok ch) :
    0 < config.capacity ∧
      config.capacity * (config.slotSize + FRAME_HEADER_LEN) ≤ isizeMax ∧
      ch = fresh config ⟨config.capacity, config.slotSize + FRAME_HEADER_LEN, Area.zero⟩ := by
  unfold new at h
  cases hvalid : config.validate with
  | error err =>
      simp only [hvalid, bind, Except.bind] at h
      cases h
  | ok =>
      have hcap := (SpscConfig.validate_eq_ok.1 hvalid).1
      simp only [hvalid, bind, Except.bind] at h
      cases hsize : checkedAdd config.slotSize FRAME_HEADER_LEN with
      | none =>
          rw [hsize] at h
          cases h
      | some size =>
          have hsum : size = config.slotSize + FRAME_HEADER_LEN := by
            unfold checkedAdd at hsize
            split at hsize
            · exact (Option.some.inj hsize).symm
            · cases hsize
          rw [hsize] at h
          simp only at h
          cases hstore : MemorySlotStorage.new config.capacity size with
          | error err =>
              rw [hstore] at h
              cases h
          | ok storage =>
              obtain ⟨rfl, hpos, hfits⟩ := MemorySlotStorage.new_ok hstore
              subst hsum
              rw [hstore] at h
              simp only [withStorage, hvalid, hsize, bind, Except.bind, ne_eq, not_true_eq_false,
                if_false, Nat.lt_irrefl, FixedSlotRegion.withStorage, if_neg (Nat.ne_of_gt hcap),
                if_neg (Nat.ne_of_gt hpos)] at h
              exact ⟨hcap, hfits, (Except.ok.inj h).symm⟩

/-- **A fresh handle's ring is empty.** -/
theorem ring_fresh {config : SpscConfig} (hcap : 0 < config.capacity)
    (hfits : config.capacity * (config.slotSize + FRAME_HEADER_LEN) ≤ isizeMax) :
    (fresh config ⟨config.capacity, config.slotSize + FRAME_HEADER_LEN, Area.zero⟩).Ring [] where
  fits := hfits
  capacity := rfl
  slotSize := rfl
  tail := hcap
  len := rfl
  bounded := Nat.zero_le _
  head := (Nat.zero_mod _).symm
  shows _ _ := rfl

/-! ## The receive steps -/

theorem readTail_ok (h : ch.Ring (.committed snapshot :: cells)) :
    ∃ region, readTail ch = .ok snapshot { ch with region } ∧
      Ring { ch with region } (.pinned :: cells) := by
  obtain ⟨region, hread, hsame, hshow⟩ := readCommitted_ok h.fits h.index h.first
  refine ⟨region, ?_, h.setFirst hsame hshow⟩
  rw [readTail, Effect.get_bind]
  simp only [onRegion, hread]

theorem readTail_empty (hi : ch.tail < ch.region.storage.capacity)
    (hstate : (ch.region.slots ch.tail).state ≠ .committed) :
    readTail ch = .error (.ofChannel .bufferEmpty) ch := by
  rw [readTail, Effect.get_bind]
  simp only [onRegion, readCommitted_empty hi hstate]

theorem releaseTail_ok (h : ch.Ring (.pinned :: cells)) :
    ∃ region, onRegion (releasePinned ch.tail) ch = .ok () { ch with region } ∧
      Ring { ch with region } (.free :: cells) := by
  obtain ⟨region, hrel, hsame, hshow⟩ := releasePinned_ok h.fits h.index h.first
  exact ⟨region, by simp only [onRegion, hrel], h.setFirst hsame hshow⟩

/-- The cells of an inbox. -/
def cellsOf : Front → List SlotSnapshot → List Cell
  | .clean, frames => frames.map .committed
  | .pinned, _ :: frames => .pinned :: frames.map .committed
  | .hole, _ :: frames => .free :: frames.map .committed
  | _, [] => []

/-- A channel in the middle of a receive that began at `base`, and the inbox
that says where it is. -/
structure Reading (base ch : ShmSpscChannel) (inbox : Inbox) : Prop where
  ring : ch.Ring (cellsOf inbox.front inbox.frames)
  busy : inbox.front ≠ .clean → inbox.frames ≠ []
  expected : ch.expectedRecvSeq = inbox.expected
  last : ch.lastReceivedSeq = inbox.last
  config : ch.config = base.config
  nextSeq : ch.nextSeq = base.nextSeq
  closed : ch.closed = base.closed

variable {base : ShmSpscChannel} {frames : List SlotSnapshot} {consumed : ℕ} {expected : UInt64}
  {last : Option UInt64}

/-- No committed cell comes first where the inbox reads nothing. -/
theorem Reading.not_committed {front : Front}
    (h : Reading base ch ⟨frames, front, consumed, expected, last⟩)
    (hno : front = .clean → frames = []) : (ch.region.slots ch.tail).state ≠ .committed := by
  have hring := h.ring
  cases front with
  | clean =>
      obtain rfl := hno rfl
      have hfree : (ch.region.slots ch.tail).state = .free := hring.first_free
      rw [hfree]
      exact SlotState.noConfusion
  | pinned =>
      cases frames with
      | nil => exact absurd rfl (h.busy (by simp))
      | cons frame frames =>
          have hpin : (ch.region.slots ch.tail).state = .pinned := hring.first
          rw [hpin]
          exact SlotState.noConfusion
  | hole =>
      cases frames with
      | nil => exact absurd rfl (h.busy (by simp))
      | cons frame frames =>
          have hfree : (ch.region.slots ch.tail).state = .free := hring.first
          rw [hfree]
          exact SlotState.noConfusion

/-- **The receive steps are the inbox's.** -/
theorem simulates_tailOps (base : ShmSpscChannel) : Simulates tailOps (Reading base) where
  readNext := by
    intro ch ⟨frames, front, consumed, expected, last⟩ h
    have hempty (hno : front = .clean → frames = []) :
        tailOps.readNext ch = .error (.ofChannel .bufferEmpty) ch :=
      readTail_empty h.ring.index (h.not_committed hno)
    cases front with
    | clean =>
        cases frames with
        | nil => exact .inr ⟨ch, hempty fun _ => rfl, h⟩
        | cons frame frames =>
            obtain ⟨region, hread, hring⟩ := readTail_ok (show ch.Ring (.committed frame ::
              frames.map .committed) from h.ring)
            exact ⟨_, hread, hring, fun _ => List.cons_ne_nil _ _, h.expected, h.last, h.config,
              h.nextSeq, h.closed⟩
    | pinned => exact .inr ⟨ch, hempty fun hc => (nomatch hc), h⟩
    | hole => exact .inr ⟨ch, hempty fun hc => (nomatch hc), h⟩
  releasePinned := by
    intro ch ⟨frames, front, consumed, expected, last⟩ h
    cases front with
    | clean => exact .inl rfl
    | hole => exact .inl rfl
    | pinned =>
        cases frames with
        | nil => exact absurd rfl (h.busy (by simp))
        | cons frame frames =>
            obtain ⟨region, hrel, hring⟩ := releaseTail_ok (show ch.Ring (.pinned ::
              frames.map .committed) from h.ring)
            exact ⟨_, hrel, hring, fun _ => List.cons_ne_nil _ _, h.expected, h.last, h.config,
              h.nextSeq, h.closed⟩
  advance := by
    intro ch ⟨frames, front, consumed, expected, last⟩ h
    cases front with
    | clean => exact .inl rfl
    | hole => exact .inl rfl
    | pinned =>
        cases frames with
        | nil => exact absurd rfl (h.busy (by simp))
        | cons frame frames =>
            obtain ⟨region, hrel, hring⟩ := releaseTail_ok (show ch.Ring (.pinned ::
              frames.map .committed) from h.ring)
            refine ⟨stepTail { ch with region }, ?_, hring.step, fun hne => absurd rfl hne,
              h.expected, h.last, h.config, h.nextSeq, h.closed⟩
            exact (Effect.bind_ok hrel).trans rfl
  bumpExpected := by
    intro ch ⟨frames, front, consumed, expected, last⟩ h
    exact ⟨_, rfl, h.ring.of_same rfl rfl rfl rfl rfl, h.busy, congrArg (· + 1) h.expected, h.last,
      h.config, h.nextSeq,
      h.closed⟩
  setLastReceived := by
    intro seq ch ⟨frames, front, consumed, expected, last⟩ h
    exact ⟨_, rfl, h.ring.of_same rfl rfl rfl rfl rfl, h.busy, h.expected, rfl, h.config,
      h.nextSeq, h.closed⟩

end ShmSpscChannel

end Dsline
