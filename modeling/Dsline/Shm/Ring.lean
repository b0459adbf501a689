import Dsline.Library.Effect
import Dsline.Library.Window
import Dsline.Shm.Region
/-!
# What the ring holds

A region seen through its cursors: what each slot shows, and the list of
contents a run of cursors holds. Every operation on a region rewrites one
slot and moves words, so what a run holds changes where that slot is in the
run and nowhere else.
-/

namespace Dsline

/-! ## One slot -/

namespace Slot

/-- A released slot. -/
def released (slot : Slot) (frameCapacity : ℕ) : Slot :=
  ⟨encodeHeader .free 0 0 none false, slot.payload.clear frameCapacity⟩

/-- A slot a reader has read. -/
def pinned (slot : Slot) : Slot :=
  { slot with header :=
      encodeHeader .pinned slot.header.seq slot.header.payloadLen.toNat none false }

/-- A slot a frame was committed to. -/
def committed (slot : Slot) (seq : UInt64) (frame : Bytes) : Slot :=
  ⟨encodeHeader .committed seq frame.length none false, slot.payload.write 0 frame⟩

/-- A slot an identity header was written to. -/
def identified (slot : Slot) (state : SlotState) (seq : UInt64) (payloadLen : ℕ)
    (identity : WriterIdentity) : Slot :=
  { slot with header :=
      { encodeHeader state seq payloadLen (some identity) false with
        identityMagic := SLOT_IDENTITY_MAGIC } }

@[simp] theorem released_state {slot : Slot} {n : ℕ} : (slot.released n).header.state = .free := rfl

@[simp] theorem pinned_state {slot : Slot} : slot.pinned.header.state = .pinned := rfl

@[simp] theorem committed_state {slot : Slot} {seq : UInt64} {frame : Bytes} :
    (slot.committed seq frame).header.state = .committed := rfl

@[simp] theorem released_pinned {slot : Slot} {n : ℕ} :
    slot.pinned.released n = slot.released n := rfl

@[simp] theorem released_released {slot : Slot} {n : ℕ} :
    (slot.released n).released n = slot.released n := by
  simp only [released, Slot.mk.injEq, true_and]
  funext i
  simp only [Area.clear]
  split <;> rfl

end Slot

/-- What reading a committed frame back gives: the header holds the low 32
bits of its length. -/
def stored (frame : Bytes) : Bytes := frame.take (frame.length % 2 ^ 32)

theorem stored_of_lt {frame : Bytes} (h : frame.length < 2 ^ 32) : stored frame = frame := by
  rw [stored, Nat.mod_eq_of_lt h, List.take_length]

theorem stored_of_ge {frame : Bytes} (h : 2 ^ 32 ≤ frame.length) :
    ∃ m, m < frame.length ∧ stored frame = frame.take m :=
  ⟨_, Nat.lt_of_lt_of_le (Nat.mod_lt _ (by decide)) h, rfl⟩

namespace Region

variable {region region' : Region} {index j : ℕ} {slot slot' : Slot} {seq : UInt64}
  {frame : Bytes} {stamp : WriterIdentity}

/-! ## Writes, slot by slot -/

@[simp] theorem setSlot_slots_self : (region.setSlot index slot).slots index = slot := by
  simp [setSlot]

theorem setSlot_slots_of_ne (h : j ≠ index) :
    (region.setSlot index slot).slots j = region.slots j := by
  simp [setSlot, h]

@[simp] theorem setSlot_setSlot :
    (region.setSlot index slot).setSlot index slot' = region.setSlot index slot' := by
  simp only [setSlot, Region.mk.injEq, true_and]
  funext i
  split <;> rfl

@[simp] theorem setSlot_head : (region.setSlot index slot).head = region.head := rfl
@[simp] theorem setSlot_tail : (region.setSlot index slot).tail = region.tail := rfl
@[simp] theorem setSlot_pinFloor : (region.setSlot index slot).pinFloor = region.pinFloor := rfl
@[simp] theorem setSlot_capacity : (region.setSlot index slot).capacity = region.capacity := rfl
@[simp] theorem setSlot_frameCapacity :
    (region.setSlot index slot).frameCapacity = region.frameCapacity := rfl
@[simp] theorem setSlot_magic : (region.setSlot index slot).magic = region.magic := rfl
@[simp] theorem setSlot_format : (region.setSlot index slot).format = region.format := rfl

/-- A region of the same shape, with these cursor words. -/
structure Words (region : Region) (head tail pinFloor : ℕ) (region' : Region) : Prop where
  capacity : region'.capacity = region.capacity
  frameCapacity : region'.frameCapacity = region.frameCapacity
  magic : region'.magic = region.magic
  format : region'.format = region.format
  head : region'.head = head
  tail : region'.tail = tail
  pinFloor : region'.pinFloor = pinFloor

theorem Words.refl (region : Region) :
    region.Words region.head region.tail region.pinFloor region :=
  ⟨rfl, rfl, rfl, rfl, rfl, rfl, rfl⟩

/-- The shape is kept along a chain of steps; the last words count. -/
theorem Words.trans {region'' : Region} {head tail pinFloor head' tail' pinFloor' : ℕ}
    (h : region.Words head tail pinFloor region')
    (h' : region'.Words head' tail' pinFloor' region'') :
    region.Words head' tail' pinFloor' region'' :=
  ⟨h'.capacity.trans h.capacity, h'.frameCapacity.trans h.frameCapacity, h'.magic.trans h.magic,
    h'.format.trans h.format, h'.head, h'.tail, h'.pinFloor⟩

theorem forceRelease_eq : region.forceRelease index =
    region.setSlot index ((region.slots index).released region.frameCapacity) := by
  simp [forceRelease, clearPayload, writeHeader, setHeader, Slot.released]

theorem writeHeader_pinned : region.writeHeader index .pinned (region.header index).seq
    (region.payloadLen index) = region.setSlot index (region.slots index).pinned := rfl

theorem writeWritingHeader_eq {payloadLen : ℕ} :
    region.writeWritingHeader index seq payloadLen stamp =
      region.setSlot index ((region.slots index).identified .writing seq payloadLen stamp) := by
  simp [writeWritingHeader, publishIdentity, setHeader, Slot.identified, header]

theorem writePinnedHeader_eq {payloadLen : ℕ} :
    region.writePinnedHeader index seq payloadLen stamp =
      region.setSlot index ((region.slots index).identified .pinned seq payloadLen stamp) := by
  simp [writePinnedHeader, publishIdentity, setHeader, Slot.identified, header]

variable (seq stamp) in
/-- **Committing a frame to a FREE slot.** -/
theorem writeCommittedNoFlush_ok (hfree : region.state index = .free)
    (hfit : frame.length ≤ region.frameCapacity) :
    writeCommittedNoFlush index seq frame stamp region =
      .ok () (region.setSlot index ((region.slots index).committed seq frame)) := by
  simp only [writeCommittedNoFlush, Effect.get_bind, hfree, ne_eq, not_true_eq_false, if_false,
    Effect.set_bind, if_neg (Nat.not_lt.2 hfit), Effect.modify_bind, Effect.modify_apply]
  simp [writeWritingHeader_eq, setPayload, writeHeader, setHeader, Slot.committed,
    Slot.identified]

theorem releasePinned_ok (h : region.state index = .pinned) :
    releasePinned index region = .ok () (region.forceRelease index) := by
  simp only [releasePinned, Effect.get_bind, h, ne_eq, not_true_eq_false, if_false,
    Effect.set_apply]

end Region

/-! ## Contents -/

/-- What a cursor of the window holds. -/
inductive Content where
  | free
  | writing (header : SlotHeader)
  | committed (snapshot : SlotSnapshot)
  deriving DecidableEq, Repr

/-- The state of a slot of a content. -/
def Content.state : Content → SlotState
  | .free => .free
  | .writing _ => .writing
  | .committed _ => .committed

namespace Region

variable {region region' : Region} {index cursor : ℕ} {slot : Slot} {content : Content}
  {contents contents' : List Content} {snapshot : SlotSnapshot} {seq : UInt64} {frame : Bytes}

/-- A slot shows a content. -/
def Shows (region : Region) (index : ℕ) : Content → Prop
  | .free => region.state index = .free
  | .writing header => region.header index = header ∧ header.state = .writing
  | .committed snapshot =>
      region.state index = .committed ∧ (region.header index).seq = snapshot.seq ∧
        region.payloadLen index ≤ region.frameCapacity ∧
          region.payload index (region.payloadLen index) = snapshot.data

/-- The slots of the cursors from `cursor` on hold the contents. -/
def Holds (region : Region) : ℕ → List Content → Prop
  | _, [] => True
  | cursor, content :: contents =>
      region.Shows (cursor % region.capacity) content ∧ region.Holds (cursor + 1) contents

/-- A content depends on its slot alone. -/
theorem Shows.congr (h : region.Shows index content)
    (hslot : region'.slots index = region.slots index)
    (hfit : region'.frameCapacity = region.frameCapacity) : region'.Shows index content := by
  cases content <;>
    simpa only [Shows, state, header, payloadLen, payload, hslot, hfit] using h

/-- The state of a slot is that of its content. -/
theorem Shows.state (h : region.Shows index content) : region.state index = content.state := by
  cases content with
  | free => exact h
  | writing header =>
      obtain ⟨hh, hs⟩ := h
      rw [Region.state, hh, hs]
      rfl
  | committed snapshot => exact h.1

theorem Holds.append :
    region.Holds cursor (contents ++ contents') ↔
      region.Holds cursor contents ∧ region.Holds (cursor + contents.length) contents' := by
  induction contents generalizing cursor with
  | nil => simp [Holds]
  | cons content contents ih =>
      simp only [List.cons_append, Holds, ih, List.length_cons, and_assoc, Nat.add_assoc,
        Nat.add_comm 1]

/-- The slot of one cursor of the run. -/
theorem Holds.get (h : region.Holds cursor contents) {k : ℕ} (hk : k < contents.length) :
    region.Shows ((cursor + k) % region.capacity) contents[k] := by
  induction contents generalizing cursor k with
  | nil => simp at hk
  | cons content contents ih =>
      cases k with
      | zero => exact h.1
      | succ k =>
          have := ih h.2 (k := k) (by simpa using hk)
          rwa [Nat.add_assoc, Nat.add_comm 1] at this

/-- What a run holds depends on its slots alone. -/
theorem Holds.congr (h : region.Holds cursor contents)
    (hcap : region'.capacity = region.capacity)
    (hfit : region'.frameCapacity = region.frameCapacity)
    (hslots : ∀ k < contents.length, region'.slots ((cursor + k) % region.capacity) =
      region.slots ((cursor + k) % region.capacity)) : region'.Holds cursor contents := by
  induction contents generalizing cursor with
  | nil => trivial
  | cons content contents ih =>
      refine ⟨?_, ih h.2 fun k hk => ?_⟩
      · rw [hcap]
        exact h.1.congr (hslots 0 (by simp)) hfit
      · have := hslots (k + 1) (by simpa using hk)
        rwa [← Nat.add_assoc, Nat.add_right_comm] at this

variable (region index slot seq) in
/-- A frame committed to a slot reads back as stored. -/
theorem shows_committed (hfit : frame.length ≤ region.frameCapacity) :
    (region.setSlot index (slot.committed seq frame)).Shows index
      (.committed ⟨seq, stored frame⟩) := by
  have hlen : (UInt32.ofNat frame.length).toNat = frame.length % 2 ^ 32 := UInt32.toNat_ofNat'
  refine ⟨by simp [state, header], by simp [header, Slot.committed, encodeHeader], ?_, ?_⟩
  · simp only [payloadLen, header, setSlot_slots_self, Slot.committed, encodeHeader, hlen,
      setSlot_frameCapacity]
    exact Nat.le_trans (Nat.mod_le _ _) hfit
  · simp only [payloadLen, payload, header, setSlot_slots_self, Slot.committed, encodeHeader, hlen,
      stored]
    exact Area.read_write_prefix (Nat.mod_le _ _)

theorem peekCommitted_ok (h : region.Shows index (.committed snapshot)) :
    peekCommitted index region = .ok snapshot region := by
  obtain ⟨hstate, hseq, hfit, hdata⟩ := h
  simp only [peekCommitted, Effect.get_bind, hstate, ne_eq, not_true_eq_false, if_false,
    if_neg (Nat.not_lt.2 hfit), hseq, hdata]
  rfl

/-- **Reading a committed slot** returns its content and pins it. -/
theorem readCommitted_ok (h : region.Shows index (.committed snapshot)) :
    readCommitted index region =
      .ok snapshot (region.setSlot index (region.slots index).pinned) := by
  rw [readCommitted, Effect.bind_ok (peekCommitted_ok h), Effect.modify_bind, ← h.2.1,
    writeHeader_pinned]
  rfl

end Region

end Dsline
