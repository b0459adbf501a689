import Dsline.Shm.LeaseSpec
import Dsline.Shm.Tidy
import Mathlib.Logic.Function.Basic
/-!
# The leases of a handle

The zero-copy calls of one producer handle, over any region and not only a
laid-out one, with the leases named by the callers who hold them. In every
state of a single-producer run without a crash and without drops, an unsealed
lease holds a WRITING slot of its own, and FREE slots are zeroed
(`SpscState.Tidy`).
-/

namespace Dsline

open PersistentShmChannel Effect

/-! ## What the calls do -/

namespace World

variable {w : World} {host : Host} {size : ℕ} {lease : ShmWriteLease} {header : Bytes}

/-- The world once the slot at the head is leased. -/
def leased (host : Host) (size : ℕ) (w : World) : World where
  chan :=
    { w.chan with
      head := (w.chan.head + 1) % w.chan.config.capacity
      len := w.chan.len + 1
      nextSeq := w.chan.nextSeq + 1 }
  region := w.region.setSlot w.chan.head
    ((w.region.slots w.chan.head).identified .writing w.chan.nextSeq (FRAME_HEADER_LEN + size)
      (w.chan.writer.stamp host w.chan.writerEpoch 1))

/-- The slot of a published lease. -/
def publishedSlot (w : World) (lease : ShmWriteLease) (header : Bytes) : Slot where
  header := encodeHeader .committed lease.seq (FRAME_HEADER_LEN + lease.payloadLen) none false
  payload := (w.region.slots lease.index).payload.write 0 header

/-- The world once a lease is published. -/
def published (w : World) (lease : ShmWriteLease) (header : Bytes) : World where
  chan := { w.chan with headCursor := wrappingAdd w.chan.headCursor 1 }
  region :=
    (w.region.setSlot lease.index (w.publishedSlot lease header)).storeHead
      (wrappingAdd w.chan.headCursor 1)

/-- The world once a lease is taken back. -/
def aborted (w : World) (lease : ShmWriteLease) : World where
  chan := { w.chan with head := lease.index, len := w.chan.len - 1, nextSeq := lease.seq }
  region := w.region.forceRelease lease.index

/-! Each call rewrites one slot. -/

theorem state_of_slots {region region' : Region} {i : ℕ}
    (h : region'.slots i = region.slots i) : region'.state i = region.state i := by
  rw [Region.state, Region.header, h]
  rfl

section Slots

variable {d i : ℕ}

theorem slots_leased_of_ne (h : i ≠ w.chan.head) :
    ((w.refreshed d).leased host size).region.slots i = w.region.slots i :=
  Region.setSlot_slots_of_ne h

theorem state_leased :
    ((w.refreshed d).leased host size).region.state w.chan.head = .writing := by
  rw [Region.state, Region.header, leased]
  exact congrArg (fun slot : Slot => slot.header.state) Region.setSlot_slots_self

/-- A release of the leased slot clears what a release cleared before. -/
theorem released_leased {n : ℕ} :
    (((w.refreshed d).leased host size).region.slots i).released n =
      (w.region.slots i).released n := by
  by_cases hi : i = w.chan.head
  · show ((w.region.setSlot w.chan.head _).slots i).released n = _
    rw [hi, Region.setSlot_slots_self]
    rfl
  · rw [slots_leased_of_ne hi]

theorem slots_published_of_ne (h : i ≠ lease.index) :
    (w.published lease header).region.slots i = w.region.slots i :=
  Region.setSlot_slots_of_ne h

theorem state_published : (w.published lease header).region.state lease.index = .committed := by
  rw [Region.state, Region.header, published]
  exact congrArg (fun slot : Slot => slot.header.state) Region.setSlot_slots_self

theorem slots_aborted_of_ne (h : i ≠ lease.index) :
    (w.aborted lease).region.slots i = w.region.slots i := by
  rw [aborted, Region.forceRelease_eq]
  exact Region.setSlot_slots_of_ne h

end Slots

end World

section Calls

variable {w w' : World} {host : Host} {size : ℕ} {lease : ShmWriteLease} {header : Bytes}

/-- What `alloc` asks before it looks at the slot. -/
structure MayLease (size : ℕ) (w : World) : Prop where
  opened : w.chan.closed = false
  mode : w.chan.config.multiProducer = false
  noDrop : w.chan.config.backpressure ≠ .dropOldest
  fits : size ≤ w.chan.config.slotSize
  word : FRAME_HEADER_LEN + size < wordCount
  slots : 1 ≤ w.chan.config.capacity
  admits : ∃ d, cursorLen w.chan.config.capacity w.region.head w.region.tail = some d ∧
    (w.refreshed d).chan.admits 1

/-- The call moved mirrors only. -/
structure Still (w w' : World) : Prop where
  refreshed : w'.refreshed 0 = w.refreshed 0
  ready : w.Ready → w'.Ready

theorem Still.refl (w : World) : Still w w := ⟨rfl, id⟩

theorem still_refreshed (w : World) (d : ℕ) : Still w (w.refreshed d) :=
  ⟨rfl, fun h => ⟨rfl, h.head⟩⟩

theorem Still.region (h : Still w w') : w'.region = w.region := by
  have hregion := congrArg World.region h.refreshed
  exact hregion

theorem Still.config (h : Still w w') : w'.chan.config = w.chan.config := by
  have hconf := congrArg (fun v : World => v.chan.config) h.refreshed
  exact hconf

theorem Still.onward (h : Still w w') : w.Onward w' :=
  ⟨by rw [h.region]; exact .refl _, h.config, h.ready⟩

variable (host) in
/-- Waiting for space that nobody frees, whatever the words are. -/
theorem prepareSendSlots_turned {d : ℕ}
    (hd : cursorLen w.chan.config.capacity w.region.head w.region.tail = some d)
    (hadm : ¬ (w.refreshed d).chan.admits 1)
    (hdrop : w.chan.config.backpressure ≠ .dropOldest) (hone : 1 ≤ w.chan.config.capacity) :
    prepareSendSlots host 1 (w.refreshed d) = .ok false (w.refreshed d) ∨
      ∃ err, prepareSendSlots host 1 (w.refreshed d) = .error err (w.refreshed d) := by
  have hcur : refreshCursors (w.refreshed d) = .ok () (w.refreshed d) :=
    World.refreshCursors_ok (w := w.refreshed d) hd
  -- Each poll finds the words as they were, so the wait times out.
  have huntil : ∀ polls, waitForSpaceUntil 1 polls (w.refreshed d) =
      .error (.ofChannel .bufferFull) (w.refreshed d) := by
    intro polls
    induction polls with
    | zero => rfl
    | succ polls ih =>
        rw [waitForSpaceUntil, bind_ok hcur, get_bind, if_neg hadm]
        exact ih
  have hconf : (w.refreshed d).chan.config = w.chan.config := rfl
  rw [prepareSendSlots, bind_ok (checkSlots_ok (hconf ▸ hone)), get_bind, if_neg hadm, hconf]
  cases hb : w.chan.config.backpressure with
  | raise => exact .inr ⟨_, rfl⟩
  | dropNewest => exact .inl rfl
  | dropOldest => exact absurd hb hdrop
  | block =>
      have hwait : waitForSpace host 1 (w.refreshed d) =
          .error (.ofChannel .bufferFull) (w.refreshed d) := by
        rw [waitForSpace, get_bind, if_neg hadm, hconf]
        cases w.chan.config.timeout with
        | none => rfl
        | some _ => exact huntil _
      exact .inr ⟨_, bind_error hwait⟩

variable (host) in
/-- **A slot is leased** where `alloc` may and the slot at the head is FREE. -/
theorem alloc_ok (h : MayLease size w) (hfree : w.region.state w.chan.head = .free) :
    ∃ d, alloc host size w =
      .ok ⟨w.chan.head, w.chan.nextSeq, size, false⟩ ((w.refreshed d).leased host size) := by
  obtain ⟨d, hd, hadm⟩ := h.admits
  have hconf : (w.refreshed d).chan.config = w.chan.config := rfl
  refine ⟨d, ?_⟩
  rw [alloc, get_bind, if_neg (by simp [h.opened]), if_neg (by simp [h.mode]), if_neg h.noDrop,
    if_neg (Nat.not_lt.2 h.fits)]
  have hadd : checkedAdd FRAME_HEADER_LEN size = some (FRAME_HEADER_LEN + size) := if_pos h.word
  rw [hadd]
  dsimp only
  rw [bind_ok (World.refreshCursors_ok hd),
    bind_ok (prepareSendSlots_admitted (w := w.refreshed d) (hconf ▸ h.slots) hadm),
    if_neg (by simp), get_bind,
    if_neg (show ¬ (w.refreshed d).region.state (w.refreshed d).chan.head ≠ .free from
      not_not.2 hfree)]
  simp only [World.leased, ← Region.writeWritingHeader_eq]
  rfl

variable (host) in
/-- **Otherwise nothing is leased.** -/
theorem alloc_refused_still (h : ¬ (MayLease size w ∧ w.region.state w.chan.head = .free)) :
    ∃ err w', alloc host size w = .error err w' ∧ Still w w' := by
  rw [alloc, get_bind]
  by_cases hopen : w.chan.closed = true
  · rw [if_pos hopen]
    exact ⟨_, w, rfl, .refl w⟩
  rw [if_neg hopen]
  by_cases hmode : w.chan.config.multiProducer = true
  · rw [if_pos hmode]
    exact ⟨_, w, rfl, .refl w⟩
  rw [if_neg hmode]
  by_cases hdrop : w.chan.config.backpressure = .dropOldest
  · rw [if_pos hdrop]
    exact ⟨_, w, rfl, .refl w⟩
  rw [if_neg hdrop]
  by_cases hsize : w.chan.config.slotSize < size
  · rw [if_pos hsize]
    exact ⟨_, w, rfl, .refl w⟩
  rw [if_neg hsize]
  cases hadd : checkedAdd FRAME_HEADER_LEN size with
  | none => exact ⟨_, w, rfl, .refl w⟩
  | some frameLen =>
      have hword : FRAME_HEADER_LEN + size < wordCount := by
        unfold checkedAdd at hadd
        split at hadd
        · assumption
        · cases hadd
      dsimp only
      rcases refreshCursors_cases w with ⟨d, hd, hr⟩ | ⟨-, hr⟩
      · rw [bind_ok hr]
        by_cases hone : 1 ≤ w.chan.config.capacity
        · by_cases hadm : (w.refreshed d).chan.admits 1
          · have hmay : MayLease size w := ⟨by simpa using hopen, by simpa using hmode, hdrop,
              Nat.not_lt.1 hsize, hword, hone, d, hd, hadm⟩
            -- All checks passed: it is the slot that is not FREE.
            have hstate : w.region.state w.chan.head ≠ .free := fun hf => h ⟨hmay, hf⟩
            rw [bind_ok (prepareSendSlots_admitted (w := w.refreshed d) hone hadm),
              if_neg (by simp), get_bind,
              if_pos (show (w.refreshed d).region.state (w.refreshed d).chan.head ≠ .free from
                hstate)]
            exact ⟨_, w.refreshed d, rfl, still_refreshed w d⟩
          · rcases prepareSendSlots_turned host hd hadm hdrop hone with hp | ⟨err, hp⟩
            · rw [bind_ok hp]
              exact ⟨_, w.refreshed d, rfl, still_refreshed w d⟩
            · rw [bind_error hp]
              exact ⟨_, w.refreshed d, rfl, still_refreshed w d⟩
        · have hslots : checkSlots 1 (w.refreshed d) =
              .error (.ofChannel (.messageTooLarge 1 w.chan.config.capacity))
                (w.refreshed d) := by
            rw [checkSlots, get_bind]
            exact congrFun (if_pos (Nat.lt_of_not_le hone)) _
          have hp : prepareSendSlots host 1 (w.refreshed d) = _ := bind_error hslots
          rw [bind_error hp]
          exact ⟨_, w.refreshed d, rfl, still_refreshed w d⟩
      · rw [bind_error hr]
        exact ⟨_, _, rfl, rfl, fun hw => ⟨rfl, hw.head⟩⟩

/-- A write through a lease is in bounds. -/
def MayWrite (lease : ShmWriteLease) (offset : ℕ) (bytes : Bytes) : Prop :=
  lease.isSealed = false ∧ offset ≤ lease.payloadLen ∧
    bytes.length ≤ lease.payloadLen - offset

theorem write_ok {region : Region} {offset : ℕ} {bytes : Bytes} (h : MayWrite lease offset bytes) :
    lease.write offset bytes region =
      .ok () (region.setPayload lease.index (FRAME_HEADER_LEN + offset) bytes) := by
  obtain ⟨hsealed, hoffset, hlen⟩ := h
  rw [ShmWriteLease.write, if_neg (by simp [hsealed]), if_neg (by omega)]
  rfl

theorem write_error (region : Region) {offset : ℕ} {bytes : Bytes}
    (h : ¬ MayWrite lease offset bytes) :
    ∃ err, lease.write offset bytes region = .error err region := by
  rw [ShmWriteLease.write]
  split
  · exact ⟨_, rfl⟩
  split
  · exact ⟨_, rfl⟩
  · rename_i hsealed hin
    exact absurd ⟨by simpa using hsealed, by omega, by omega⟩ h

variable [Checksum]

/-- A lease can be published, with this frame header. -/
structure MayPublish (w : World) (lease : ShmWriteLease) (header : Bytes) : Prop where
  opened : w.chan.closed = false
  unsealed : lease.isSealed = false
  writing : w.region.state lease.index = .writing
  header : encodeFrameHeader .bytes 0 lease.seq 0 0
    (checksum32 (leasePayload w.region lease)) lease.payloadLen [] = .ok header

theorem publish_ok_any (h : MayPublish w lease header) :
    publish lease w =
      .ok (lease.seq, { lease with isSealed := true }) (w.published lease header) := by
  have henc := h.header
  unfold leasePayload at henc
  rw [publish, get_bind, if_neg (by simp [h.opened]), if_neg (by simp [h.unsealed]),
    if_neg (by simp [h.writing])]
  simp only [henc]
  have hslot : (w.region.setPayload lease.index 0 header).writeHeader lease.index .committed
      lease.seq (FRAME_HEADER_LEN + lease.payloadLen) =
        w.region.setSlot lease.index (w.publishedSlot lease header) := by
    simp [Region.setPayload, Region.writeHeader, Region.setHeader, World.publishedSlot]
  simp only [World.published, ← hslot]
  rfl

theorem publish_error (h : ¬ ∃ header, MayPublish w lease header) :
    ∃ err, publish lease w = .error err w := by
  rw [publish, get_bind]
  by_cases hopen : w.chan.closed = true
  · rw [if_pos hopen]
    exact ⟨_, rfl⟩
  rw [if_neg hopen]
  by_cases hsealed : lease.isSealed = true
  · rw [if_pos hsealed]
    exact ⟨_, rfl⟩
  rw [if_neg hsealed]
  by_cases hwriting : w.region.state lease.index ≠ .writing
  · rw [if_pos hwriting]
    exact ⟨_, rfl⟩
  rw [if_neg hwriting]
  dsimp only
  cases henc : encodeFrameHeader .bytes 0 lease.seq 0 0
      (checksum32 ((w.region.slots lease.index).payload.read FRAME_HEADER_LEN lease.payloadLen))
      lease.payloadLen [] with
  | error err => exact ⟨_, rfl⟩
  | ok header =>
      have hmay : MayPublish w lease header :=
        ⟨by simpa using hopen, by simpa using hsealed, not_not.1 hwriting, henc⟩
      exact absurd ⟨header, hmay⟩ h

omit [Checksum] in
/-- A lease is the newest of the handle. -/
def Newest (w : World) (lease : ShmWriteLease) : Prop :=
  lease.isSealed = false ∧
    lease.index = (w.chan.head + w.chan.config.capacity - 1) % w.chan.config.capacity

omit [Checksum] in
theorem abort_ok (h : Newest w lease) : abort lease w = .ok () (w.aborted lease) := by
  obtain ⟨hsealed, hindex⟩ := h
  rw [abort, get_bind, if_neg (by simp [hsealed])]
  dsimp only
  rw [if_neg (not_not.2 hindex)]
  rfl

omit [Checksum] in
theorem abort_error (h : ¬ Newest w lease) : ∃ err, abort lease w = .error err w := by
  rcases abort_cases (w := w) lease with herr | ⟨hsealed, hindex, -⟩
  · exact herr
  · exact absurd ⟨hsealed, hindex⟩ h

end Calls

/-! ## Leases by name -/

/-- A handle and its region, with the leases its callers hold, by name. -/
structure LeaseState where
  world : World
  leases : ℕ → Option ShmWriteLease

/-- A zero-copy call. -/
inductive LeaseCall where
  | alloc (host : Host) (name size : ℕ)
  | write (name offset : ℕ) (bytes : Bytes)
  | publish (name : ℕ)
  | abort (name : ℕ)

/-- The lease a call is about. -/
def LeaseCall.name : LeaseCall → ℕ
  | .alloc _ name _ | .write name _ _ | .publish name | .abort name => name

namespace LeaseState

/-- The state with one name's lease replaced. -/
def put (s : LeaseState) (name : ℕ) (lease : Option ShmWriteLease) (w : World) : LeaseState :=
  ⟨w, Function.update s.leases name lease⟩

variable [Checksum]

/-- One call: whether it was accepted, and what it left. Without a lease
there is no call to make. `abort` takes the lease, accepted or not. -/
def call (s : LeaseState) : LeaseCall → Bool × LeaseState
  | .alloc host name size =>
      match PersistentShmChannel.alloc host size s.world with
      | .ok lease w => (true, s.put name (some lease) w)
      | .error _ w => (false, ⟨w, s.leases⟩)
  | .write name offset bytes =>
      match s.leases name with
      | none => (false, s)
      | some lease =>
          match lease.write offset bytes s.world.region with
          | .ok _ region => (true, ⟨⟨s.world.chan, region⟩, s.leases⟩)
          | .error _ region => (false, ⟨⟨s.world.chan, region⟩, s.leases⟩)
  | .publish name =>
      match s.leases name with
      | none => (false, s)
      | some lease =>
          match PersistentShmChannel.publish lease s.world with
          | .ok (_, lease') w => (true, s.put name (some lease') w)
          | .error _ w => (false, ⟨w, s.leases⟩)
  | .abort name =>
      match s.leases name with
      | none => (false, s)
      | some lease =>
          match PersistentShmChannel.abort lease s.world with
          | .ok _ w => (true, s.put name none w)
          | .error _ w => (false, s.put name none w)

/-- The call is accepted. -/
def accepts (s : LeaseState) (c : LeaseCall) : Bool := (s.call c).1

/-- What the call leaves. -/
def next (s : LeaseState) (c : LeaseCall) : LeaseState := (s.call c).2

variable {s : LeaseState} {host : Host} {name size offset : ℕ} {bytes : Bytes}
  {lease : ShmWriteLease}

omit [Checksum] in
@[simp] theorem put_leases_self {w : World} {l : Option ShmWriteLease} :
    (s.put name l w).leases name = l := Function.update_self ..

omit [Checksum] in
theorem put_leases_of_ne {w : World} {l : Option ShmWriteLease} {n : ℕ} (h : n ≠ name) :
    (s.put name l w).leases n = s.leases n := Function.update_of_ne h ..

theorem call_alloc_ok (host : Host) (name : ℕ) (hmay : MayLease size s.world)
    (hfree : s.world.region.state s.world.chan.head = .free) :
    ∃ d, s.call (.alloc host name size) =
      (true, s.put name (some ⟨s.world.chan.head, s.world.chan.nextSeq, size, false⟩)
        ((s.world.refreshed d).leased host size)) := by
  obtain ⟨d, hd⟩ := alloc_ok host hmay hfree
  refine ⟨d, ?_⟩
  simp only [call, hd]

theorem call_write_ok (hl : s.leases name = some lease) (h : MayWrite lease offset bytes) :
    s.call (.write name offset bytes) = (true, ⟨⟨s.world.chan,
      s.world.region.setPayload lease.index (FRAME_HEADER_LEN + offset) bytes⟩, s.leases⟩) := by
  simp only [call, hl, write_ok h]

theorem call_publish_ok {header : Bytes} (hl : s.leases name = some lease)
    (h : MayPublish s.world lease header) :
    s.call (.publish name) =
      (true, s.put name (some { lease with isSealed := true })
        (s.world.published lease header)) := by
  simp only [call, hl, publish_ok_any h]

theorem call_abort_ok (hl : s.leases name = some lease) (h : Newest s.world lease) :
    s.call (.abort name) = (true, s.put name none (s.world.aborted lease)) := by
  simp only [call, hl, abort_ok h]

/-- **`alloc` by name.** -/
theorem call_alloc :
    (∃ d, MayLease size s.world ∧ s.world.region.state s.world.chan.head = .free ∧
      s.call (.alloc host name size) =
        (true, s.put name (some ⟨s.world.chan.head, s.world.chan.nextSeq, size, false⟩)
          ((s.world.refreshed d).leased host size))) ∨
    (∃ w, Still s.world w ∧ s.call (.alloc host name size) = (false, ⟨w, s.leases⟩)) := by
  by_cases h : MayLease size s.world ∧ s.world.region.state s.world.chan.head = .free
  · obtain ⟨d, hd⟩ := call_alloc_ok host name h.1 h.2
    exact .inl ⟨d, h.1, h.2, hd⟩
  · obtain ⟨err, w, hw, hstill⟩ := alloc_refused_still host h
    refine .inr ⟨w, hstill, ?_⟩
    simp only [call, hw]

/-- **A write by name.** -/
theorem call_write :
    (∃ lease, s.leases name = some lease ∧ MayWrite lease offset bytes ∧
      s.call (.write name offset bytes) = (true, ⟨⟨s.world.chan,
        s.world.region.setPayload lease.index (FRAME_HEADER_LEN + offset) bytes⟩, s.leases⟩)) ∨
    s.call (.write name offset bytes) = (false, s) := by
  cases hl : s.leases name with
  | none =>
      refine .inr ?_
      simp only [call, hl]
  | some lease =>
      by_cases h : MayWrite lease offset bytes
      · exact .inl ⟨lease, rfl, h, call_write_ok hl h⟩
      · obtain ⟨err, herr⟩ := write_error s.world.region h
        refine .inr ?_
        simp only [call, hl, herr]

/-- **`publish` by name.** -/
theorem call_publish :
    (∃ lease header, s.leases name = some lease ∧ MayPublish s.world lease header ∧
      s.call (.publish name) =
        (true, s.put name (some { lease with isSealed := true })
          (s.world.published lease header))) ∨
    s.call (.publish name) = (false, s) := by
  cases hl : s.leases name with
  | none =>
      refine .inr ?_
      simp only [call, hl]
  | some lease =>
      by_cases h : ∃ header, MayPublish s.world lease header
      · obtain ⟨header, hmay⟩ := h
        exact .inl ⟨lease, header, rfl, hmay, call_publish_ok hl hmay⟩
      · obtain ⟨err, herr⟩ := publish_error h
        refine .inr ?_
        simp only [call, hl, herr]

/-- **`abort` by name.** -/
theorem call_abort :
    (∃ lease, s.leases name = some lease ∧ Newest s.world lease ∧
      s.call (.abort name) = (true, s.put name none (s.world.aborted lease))) ∨
    ((∀ lease, s.leases name = some lease → ¬ Newest s.world lease) ∧
      s.call (.abort name) = (false, s.put name none s.world)) := by
  cases hl : s.leases name with
  | none =>
      have hput : s.put name none s.world = s := by rw [put, ← hl, Function.update_eq_self]
      refine .inr ⟨(fun _ h => nomatch h), ?_⟩
      simp only [call, hl, hput]
  | some lease =>
      by_cases h : Newest s.world lease
      · exact .inl ⟨lease, rfl, h, call_abort_ok hl h⟩
      · obtain ⟨err, herr⟩ := abort_error h
        refine .inr ⟨fun lease' h' => by cases h'; exact h, ?_⟩
        simp only [call, hl, herr]

theorem next_config (s : LeaseState) (c : LeaseCall) :
    (s.next c).world.chan.config = s.world.chan.config := by
  unfold next
  cases c with
  | alloc host name size =>
      rcases s.call_alloc with ⟨d, -, -, hcall⟩ | ⟨w, hstill, hcall⟩
      · rw [hcall]
        rfl
      · rw [hcall]
        exact hstill.config
  | write name offset bytes =>
      rcases s.call_write with ⟨lease, -, -, hcall⟩ | hcall
      · rw [hcall]
      · rw [hcall]
  | publish name =>
      rcases s.call_publish with ⟨lease, header, -, -, hcall⟩ | hcall
      · rw [hcall]
        rfl
      · rw [hcall]
  | abort name =>
      rcases s.call_abort with ⟨lease, -, -, hcall⟩ | ⟨-, hcall⟩
      · rw [hcall]
        rfl
      · rw [hcall]
        rfl

/-! ## What holds of the leases -/

omit [Checksum] in
/-- **The leases are in order**: an unsealed lease holds a WRITING slot of
its own, and FREE slots are zeroed. -/
structure Tidy (s : LeaseState) : Prop where
  ready : s.world.Ready
  zeroed : ∀ i, s.world.region.Zeroed i
  fits : FRAME_HEADER_LEN + s.world.chan.config.slotSize ≤ s.world.region.frameCapacity
  owned : ∀ n lease, s.leases n = some lease → lease.isSealed = false →
    s.world.region.state lease.index = .writing ∧ lease.index < s.world.chan.config.capacity
  distinct : ∀ m n a b, s.leases m = some a → s.leases n = some b → a.isSealed = false →
    b.isSealed = false → a.index = b.index → m = n

section Kept

variable {w : World}

omit [Checksum] in
/-- A call that spares the leased slots. -/
theorem Tidy.onward (h : s.Tidy) (hw : s.world.Onward w) : LeaseState.Tidy ⟨w, s.leases⟩ where
  ready := hw.ready h.ready
  zeroed i := hw.spares.zeroed i (h.zeroed i)
  fits := by
    rw [hw.config, hw.spares.frameCapacity]
    exact h.fits
  owned n lease hl hu := by
    obtain ⟨hstate, hlt⟩ := h.owned n lease hl hu
    refine ⟨?_, hw.config ▸ hlt⟩
    show (w.region.slots lease.index).header.state = .writing
    rw [hw.spares.leased _ hstate]
    exact hstate
  distinct := h.distinct

omit [Checksum] in
/-- The leases under other names. -/
theorem Tidy.rename {leases : ℕ → Option ShmWriteLease} (h : s.Tidy) (f : ℕ → ℕ)
    (hf : ∀ m n, f m = f n → m = n)
    (hleases : ∀ n lease, leases n = some lease → s.leases (f n) = some lease) :
    LeaseState.Tidy ⟨s.world, leases⟩ where
  ready := h.ready
  zeroed := h.zeroed
  fits := h.fits
  owned n lease hl := h.owned (f n) lease (hleases n lease hl)
  distinct m n a b ha hb hua hub he :=
    hf m n (h.distinct (f m) (f n) a b (hleases m a ha) (hleases n b hb) hua hub he)

omit [Checksum] in
/-- A lease given up, or sealed. -/
theorem Tidy.giveUp {l : Option ShmWriteLease} (h : s.Tidy)
    (hl : ∀ lease, l = some lease → lease.isSealed = true) : (s.put name l s.world).Tidy where
  ready := h.ready
  zeroed := h.zeroed
  fits := h.fits
  owned n lease hn hu := by
    by_cases hname : n = name
    · subst hname
      rw [put_leases_self] at hn
      exact absurd (hu.symm.trans (hl lease hn)) Bool.false_ne_true
    · rw [put_leases_of_ne hname] at hn
      exact h.owned n lease hn hu
  distinct m n a b ha hb hua hub he := by
    have hnot {k : ℕ} {c : ShmWriteLease} (hk : (s.put name l s.world).leases k = some c)
        (hc : c.isSealed = false) : k ≠ name := by
      rintro rfl
      rw [put_leases_self] at hk
      exact Bool.false_ne_true (hc.symm.trans (hl c hk))
    rw [put_leases_of_ne (hnot ha hua)] at ha
    rw [put_leases_of_ne (hnot hb hub)] at hb
    exact h.distinct m n a b ha hb hua hub he

omit [Checksum] in
/-- The slot of an unsealed lease is rewritten. -/
theorem Tidy.move {leases : ℕ → Option ShmWriteLease} (h : s.Tidy)
    (hlease : s.leases name = some lease) (hunsealed : lease.isSealed = false)
    (hothers : ∀ n, n ≠ name → leases n = s.leases n)
    (hname : ∀ lease', leases name = some lease' → lease'.isSealed = false →
      lease' = lease ∧ w.region.state lease.index = .writing)
    (hready : w.Ready) (hconf : w.chan.config = s.world.chan.config)
    (hfit : w.region.frameCapacity = s.world.region.frameCapacity)
    (hslots : ∀ i, i ≠ lease.index → w.region.slots i = s.world.region.slots i)
    (hzeroed : w.region.Zeroed lease.index) : LeaseState.Tidy ⟨w, leases⟩ where
  ready := hready
  zeroed i := by
    by_cases hi : i = lease.index
    · exact hi ▸ hzeroed
    · intro hfree
      have hold := h.zeroed i
      simp only [Region.Zeroed, Region.state, Region.header] at hfree hold ⊢
      rw [hslots i hi] at hfree ⊢
      rw [hfit]
      exact hold hfree
  fits := by
    rw [hconf, hfit]
    exact h.fits
  owned n lease' hn hu := by
    have hlt := (h.owned name lease hlease hunsealed).2
    by_cases hname' : n = name
    · subst hname'
      obtain ⟨rfl, hstate⟩ := hname lease' hn hu
      exact ⟨hstate, hconf ▸ hlt⟩
    · simp only [hothers n hname'] at hn
      obtain ⟨hstate, hlt'⟩ := h.owned n lease' hn hu
      refine ⟨?_, hconf ▸ hlt'⟩
      have hne : lease'.index ≠ lease.index := fun he =>
        hname' (h.distinct n name lease' lease hn hlease hu hunsealed he)
      show (w.region.slots lease'.index).header.state = .writing
      rw [hslots _ hne]
      exact hstate
  distinct m n a b ha hb hua hub he := by
    have hold {k : ℕ} {c : ShmWriteLease} (hk : leases k = some c) (hc : c.isSealed = false) :
        s.leases k = some c := by
      by_cases hk' : k = name
      · subst hk'
        rw [(hname c hk hc).1]
        exact hlease
      · rw [← hothers k hk']
        exact hk
    exact h.distinct m n a b (hold ha hua) (hold hb hub) hua hub he

omit [Checksum] in
/-- A slot that is not WRITING is no unsealed lease's. -/
theorem Tidy.index_ne {n i : ℕ} {a : ShmWriteLease} (h : s.Tidy) (ha : s.leases n = some a)
    (hu : a.isSealed = false) (hi : s.world.region.state i ≠ .writing) : a.index ≠ i := by
  rintro rfl
  exact hi (h.owned n a ha hu).1

omit [Checksum] in
/-- A FREE slot is leased under a name. -/
theorem Tidy.alloc {host : Host} {name size d : ℕ} (h : s.Tidy)
    (hfree : s.world.region.state s.world.chan.head = .free) :
    (s.put name (some ⟨s.world.chan.head, s.world.chan.nextSeq, size, false⟩)
      ((s.world.refreshed d).leased host size)).Tidy := by
  have hpos : 0 < s.world.chan.config.capacity :=
    Nat.lt_of_le_of_lt (Nat.zero_le _) h.ready.head
  have hnot : s.world.region.state s.world.chan.head ≠ .writing := by
    rw [hfree]
    exact fun hw => nomatch hw
  have hspares : s.world.region.Spares ((s.world.refreshed d).leased host size).region :=
    Region.spares_setSlot hnot fun hstate => nomatch hstate
  have hkept := h.onward ⟨hspares, rfl, fun _ => ⟨rfl, Nat.mod_lt _ hpos⟩⟩
  refine ⟨hkept.ready, hkept.zeroed, hkept.fits, fun n a ha hu => ?_,
    fun m n a b ha hb hua hub he => ?_⟩
  · by_cases hn : n = name
    · subst hn
      rw [put_leases_self, Option.some.injEq] at ha
      subst ha
      exact ⟨World.state_leased, h.ready.head⟩
    · rw [put_leases_of_ne hn] at ha
      exact hkept.owned n a ha hu
  · by_cases hm : m = name <;> by_cases hn : n = name
    · rw [hm, hn]
    -- The new lease and an old one: the old one's slot is WRITING, the new one's was FREE.
    · subst hm
      rw [put_leases_self, Option.some.injEq] at ha
      rw [put_leases_of_ne hn] at hb
      subst ha
      exact absurd he.symm (h.index_ne hb hub hnot)
    · subst hn
      rw [put_leases_of_ne hm] at ha
      rw [put_leases_self, Option.some.injEq] at hb
      subst hb
      exact absurd he (h.index_ne ha hua hnot)
    · rw [put_leases_of_ne hm] at ha
      rw [put_leases_of_ne hn] at hb
      exact h.distinct m n a b ha hb hua hub he

omit [Checksum] in
/-- Bytes are written through a lease. -/
theorem Tidy.write {name offset : ℕ} {bytes : Bytes} (h : s.Tidy)
    (hlease : s.leases name = some lease) (hunsealed : lease.isSealed = false) :
    LeaseState.Tidy ⟨⟨s.world.chan, s.world.region.setPayload lease.index offset bytes⟩,
      s.leases⟩ := by
  have hwriting := (h.owned name lease hlease hunsealed).1
  have hstate : (s.world.region.setPayload lease.index offset bytes).state lease.index =
      .writing := by
    simp only [Region.setPayload, Region.state, Region.header, Region.setSlot_slots_self]
    exact hwriting
  refine h.move hlease hunsealed (fun _ _ => rfl) (fun lease' h' _ => ?_)
    ⟨h.ready.mirror, h.ready.head⟩ rfl rfl
    (fun i hi => Region.setSlot_slots_of_ne hi) fun hfree => ?_
  · rw [hlease] at h'
    cases h'
    exact ⟨rfl, hstate⟩
  · cases hstate.symm.trans hfree

omit [Checksum] in
/-- A lease is published, and sealed. -/
theorem Tidy.publish {name : ℕ} {header : Bytes} (h : s.Tidy)
    (hlease : s.leases name = some lease) (hunsealed : lease.isSealed = false) :
    (s.put name (some { lease with isSealed := true }) (s.world.published lease header)).Tidy := by
  refine h.move hlease hunsealed (fun n hn => Function.update_of_ne hn ..)
    (fun lease' h' hu => ?_) ⟨rfl, h.ready.head⟩ rfl rfl
    (fun i hi => World.slots_published_of_ne hi) fun hfree => ?_
  · rw [Function.update_self, Option.some.injEq] at h'
    rw [← h'] at hu
    cases hu
  · exact nomatch World.state_published.symm.trans hfree

omit [Checksum] in
/-- A lease is taken back: its slot is FREE, and zeroed. -/
theorem Tidy.abort {name : ℕ} (h : s.Tidy) (hlease : s.leases name = some lease)
    (hunsealed : lease.isSealed = false) :
    (s.put name none (s.world.aborted lease)).Tidy := by
  have hlt := (h.owned name lease hlease hunsealed).2
  refine h.move hlease hunsealed (fun n hn => Function.update_of_ne hn ..)
    (fun lease' h' _ => ?_) ⟨h.ready.mirror, hlt⟩ rfl rfl
    (fun i hi => World.slots_aborted_of_ne hi) fun _ => ?_
  · rw [Function.update_self] at h'
    cases h'
  · simp only [World.aborted, Region.forceRelease_eq, Region.setSlot_slots_self,
      Region.setSlot_frameCapacity, Slot.released_released]

/-- **A call keeps the leases in order.** -/
theorem Tidy.next (h : s.Tidy) (c : LeaseCall) : (s.next c).Tidy := by
  unfold LeaseState.next
  cases c with
  | alloc host name size =>
      rcases s.call_alloc with ⟨d, -, hfree, hcall⟩ | ⟨w, hstill, hcall⟩
      · rw [hcall]
        exact h.alloc hfree
      · rw [hcall]
        exact h.onward hstill.onward
  | write name offset bytes =>
      rcases s.call_write with ⟨lease, hlease, hmay, hcall⟩ | hcall
      · rw [hcall]
        exact h.write hlease hmay.1
      · rw [hcall]
        exact h
  | publish name =>
      rcases s.call_publish with ⟨lease, header, hlease, hmay, hcall⟩ | hcall
      · rw [hcall]
        exact h.publish hlease hmay.unsealed
      · rw [hcall]
        exact h
  | abort name =>
      rcases s.call_abort with ⟨lease, hlease, hnewest, hcall⟩ | ⟨-, hcall⟩
      · rw [hcall]
        exact h.abort hlease hnewest.1
      · rw [hcall]
        exact h.giveUp fun _ h' => nomatch h'

end Kept

end LeaseState

/-! ## In every state of a run -/

namespace SpscState

variable {s s' : SpscState} {config : SpscConfig} {host : Host} {op : SpscOp}

/-- The producer with the leases it gave out, named by their places. -/
def leaseState (s : SpscState) : LeaseState := ⟨s.atProducer, fun k => s.leases[k]?⟩

/-- No process that stamped a slot is gone when the call is made. -/
def CrashFree (s : SpscState) : SpscOp → Prop
  | .send host _ | .alloc host _ | .openConsumer host | .recv host | .tryRecv host
  | .recvView host | .reopenProducer host => s.region.CrashFree host
  | _ => True

/-- **The leases are in order in every state** of a single-producer run that
drops nothing. -/
structure Tidy (config : SpscConfig) (s : SpscState) : Prop where
  mode : config.multiProducer = false
  noDrop : config.backpressure ≠ .dropOldest
  leases : s.leaseState.Tidy
  producer : s.producer.config = config
  consumer : ∀ chan, s.consumer = some chan → chan.config = config

theorem onward_of_reads {region : Region} (h : s.region.Reads region) :
    s.atProducer.Onward ⟨s.producer, region⟩ :=
  ⟨h.spares, rfl, fun hready => ⟨hready.mirror.trans h.head.symm, hready.head⟩⟩

/-- A call of the consumer, or on a view. -/
theorem Tidy.of_reads (h : s.Tidy config) (hreads : s.region.Reads s'.region)
    (hprod : s'.producer = s.producer) (hleases : s'.leases = s.leases)
    (hcons : ∀ chan, s'.consumer = some chan → chan.config = config) : s'.Tidy config where
  mode := h.mode
  noDrop := h.noDrop
  leases := by
    have hkept := h.leases.onward (onward_of_reads hreads)
    simp only [leaseState, atProducer, hprod, hleases] at hkept ⊢
    exact hkept
  producer := hprod ▸ h.producer
  consumer := hcons

/-- A call of the producer that makes no lease. -/
theorem Tidy.of_onward {w : World} (h : s.Tidy config) (hw : s.atProducer.Onward w)
    (hs' : s'.atProducer = w) (hleases : s'.leases = s.leases)
    (hcons : s'.consumer = s.consumer) : s'.Tidy config where
  mode := h.mode
  noDrop := h.noDrop
  leases := by
    have hkept := h.leases.onward hw
    simp only [leaseState, hs', hleases] at hkept ⊢
    exact hkept
  producer := by
    have hconf := hw.config
    rw [← hs'] at hconf
    exact hconf.trans h.producer
  consumer chan hc := h.consumer chan (hcons ▸ hc)

variable [Checksum]

theorem Tidy.stepSend {message : Message} (h : s.Tidy config) :
    (s.stepSend host message).Tidy config := by
  have hmode : s.atProducer.chan.config.multiProducer = false := h.producer ▸ h.mode
  have hdrop : s.atProducer.chan.config.backpressure ≠ .dropOldest := h.producer ▸ h.noDrop
  exact h.of_onward (send_onward hmode hdrop) rfl rfl rfl

omit [Checksum] in
/-- A call of the consumer. -/
theorem Tidy.of_consumer {chan : PersistentShmChannel} {w : World} (h : s.Tidy config)
    (hc : s.consumer = some chan) (hw : ReadsRegion ⟨chan, s.region⟩ w)
    (hregion : s'.region = w.region) (hcons : s'.consumer = some w.chan)
    (hprod : s'.producer = s.producer) (hleases : s'.leases = s.leases) : s'.Tidy config := by
  refine h.of_reads (hregion ▸ hw.reads) hprod hleases fun chan' hc' => ?_
  rw [hcons] at hc'
  cases hc'
  exact hw.config.trans (h.consumer chan hc)

omit [Checksum] in
theorem Tidy.consumer_mode {chan : PersistentShmChannel} (h : s.Tidy config)
    (hc : s.consumer = some chan) : chan.config.multiProducer = false :=
  h.consumer chan hc ▸ h.mode

theorem Tidy.stepRecv (h : s.Tidy config) (hfree : s.region.CrashFree host) :
    (s.stepRecv host).Tidy config := by
  unfold SpscState.stepRecv
  cases hc : s.consumer with
  | none => exact h
  | some chan =>
      have hw := recvWithSeq_reads (w := ⟨chan, s.region⟩) (h.consumer_mode hc) hfree
      dsimp only
      cases hr : recvWithSeq host ⟨chan, s.region⟩ <;> rw [hr] at hw <;>
        exact h.of_consumer hc hw rfl rfl rfl rfl

theorem Tidy.stepTryRecv (h : s.Tidy config) (hfree : s.region.CrashFree host) :
    (s.stepTryRecv host).Tidy config := by
  unfold SpscState.stepTryRecv
  cases hc : s.consumer with
  | none => exact h
  | some chan =>
      have hw := tryRecv_reads (w := ⟨chan, s.region⟩) (h.consumer_mode hc) hfree
      dsimp only
      cases hr : tryRecv host ⟨chan, s.region⟩ with
      | ok payload w =>
          rw [hr] at hw
          cases payload <;> exact h.of_consumer hc hw rfl rfl rfl rfl
      | error err w =>
          rw [hr] at hw
          exact h.of_consumer hc hw rfl rfl rfl rfl

theorem Tidy.stepRecvView (h : s.Tidy config) (hfree : s.region.CrashFree host) :
    (s.stepRecvView host).Tidy config := by
  unfold SpscState.stepRecvView
  cases hc : s.consumer with
  | none => exact h
  | some chan =>
      have hw := recvView_reads (w := ⟨chan, s.region⟩) (h.consumer_mode hc) hfree
      dsimp only
      cases hr : recvView host ⟨chan, s.region⟩ <;> rw [hr] at hw <;>
        exact h.of_consumer hc hw rfl rfl rfl rfl

omit [Checksum] in
theorem Tidy.stepRelease {k : ℕ} (h : s.Tidy config) : (s.stepRelease k).Tidy config := by
  unfold SpscState.stepRelease
  cases hv : s.views[k]? with
  | none => exact h
  | some v =>
      have hreads := v.view.within_release s.region
      dsimp only
      cases hr : v.view.release s.region <;> rw [hr] at hreads <;>
        exact h.of_reads hreads rfl rfl h.consumer

omit [Checksum] in
theorem Tidy.stepDropView {k : ℕ} (h : s.Tidy config) : (s.stepDropView k).Tidy config := by
  unfold SpscState.stepDropView
  cases hv : s.views[k]? with
  | none => exact h
  | some v => exact h.of_reads (v.view.reads_drop s.region) rfl rfl h.consumer

omit [Checksum] in
theorem Tidy.stepOpenConsumer (h : s.Tidy config) (hfree : s.region.CrashFree host) :
    (s.stepOpenConsumer host).Tidy config := by
  unfold SpscState.stepOpenConsumer
  cases hc : s.consumer with
  | some chan => exact h
  | none =>
      obtain ⟨hreads, hok⟩ := open_reads s.producer.config hfree
      dsimp only
      cases hr : PersistentShmChannel.open host s.producer.config s.region with
      | ok _ w =>
          rw [hr] at hreads
          refine h.of_reads hreads rfl rfl fun chan hchan => ?_
          cases hchan
          exact (hok w hr).1.trans h.producer
      | error err w =>
          rw [hr] at hreads
          refine h.of_reads hreads rfl rfl fun chan hchan => ?_
          cases hchan

omit [Checksum] in
theorem Tidy.stepReopenProducer (h : s.Tidy config) (hfree : s.region.CrashFree host) :
    (s.stepReopenProducer host).Tidy config := by
  unfold SpscState.stepReopenProducer
  obtain ⟨hreads, hok⟩ := open_reads s.producer.config hfree
  cases hr : PersistentShmChannel.open host s.producer.config s.region with
  | ok _ w =>
      rw [hr] at hreads
      obtain ⟨hconf, hready⟩ := hok w hr
      have hpos : 0 < s.producer.config.capacity :=
        Nat.lt_of_le_of_lt (Nat.zero_le _) h.leases.ready.head
      exact h.of_onward (w := w) ⟨hreads.spares, hconf, fun _ => hready hpos⟩ rfl rfl rfl
  | error err w =>
      rw [hr] at hreads
      exact h.of_reads hreads rfl rfl h.consumer

/-- A zero-copy call of the producer. -/
theorem Tidy.of_next (h : s.Tidy config) (c : LeaseCall)
    (hs' : s'.leaseState = s.leaseState.next c) (hcons : s'.consumer = s.consumer) :
    s'.Tidy config where
  mode := h.mode
  noDrop := h.noDrop
  leases := hs' ▸ h.leases.next c
  producer := by
    have hconf := s.leaseState.next_config c
    rw [← hs'] at hconf
    exact hconf.trans h.producer
  consumer chan hc := h.consumer chan (hcons ▸ hc)

omit [Checksum] in
theorem getElem?_concat_update (leases : List ShmWriteLease) (lease : ShmWriteLease) :
    (fun k => (leases ++ [lease])[k]?) =
      Function.update (fun k => leases[k]?) leases.length (some lease) := by
  funext k
  rw [Function.update_apply]
  split
  · rename_i hk
    rw [hk, List.getElem?_concat_length]
  · rename_i hk
    rcases Nat.lt_or_ge k leases.length with hlt | hge
    · exact List.getElem?_append_left hlt
    · rw [List.getElem?_eq_none hge, List.getElem?_eq_none]
      rw [List.length_append, List.length_singleton]
      omega

omit [Checksum] in
theorem getElem?_set_update {leases : List ShmWriteLease} {k : ℕ} {old : ShmWriteLease}
    (lease : ShmWriteLease) (h : leases[k]? = some old) :
    (fun n => (leases.set k lease)[n]?) =
      Function.update (fun n => leases[n]?) k (some lease) := by
  funext n
  obtain ⟨hlt, -⟩ := List.getElem?_eq_some_iff.1 h
  rw [Function.update_apply, List.getElem?_set]
  by_cases hn : n = k
  · rw [if_pos hn, if_pos hn.symm, if_pos hlt]
  · rw [if_neg hn, if_neg (Ne.symm hn)]

theorem Tidy.stepAlloc {size : ℕ} (h : s.Tidy config) : (s.stepAlloc host size).Tidy config := by
  refine h.of_next (.alloc host s.leases.length size) ?_ ?_
  · simp only [SpscState.stepAlloc, LeaseState.next, LeaseState.call]
    rw [show s.leaseState.world = s.atProducer from rfl]
    cases hr : PersistentShmChannel.alloc host size s.atProducer with
    | ok lease w =>
        simp only [leaseState, SpscState.withProducer, atProducer, LeaseState.put,
          getElem?_concat_update]
    | error err w => rfl
  · simp only [SpscState.stepAlloc]
    split <;> rfl

theorem Tidy.stepWrite {k offset : ℕ} {bytes : Bytes} (h : s.Tidy config) :
    (s.stepWrite k offset bytes).Tidy config := by
  refine h.of_next (.write k offset bytes) ?_ ?_
  · simp only [SpscState.stepWrite, LeaseState.next, LeaseState.call]
    rw [show s.leaseState.leases k = s.leases[k]? from rfl]
    cases hl : s.leases[k]? with
    | none => rfl
    | some lease =>
        rw [show s.leaseState.world.region = s.region from rfl]
        dsimp only
        cases hr : lease.write offset bytes s.region <;> rfl
  · simp only [SpscState.stepWrite]
    split <;> rfl

theorem Tidy.stepPublish {k : ℕ} (h : s.Tidy config) : (s.stepPublish k).Tidy config := by
  refine h.of_next (.publish k) ?_ ?_
  · simp only [SpscState.stepPublish, LeaseState.next, LeaseState.call]
    rw [show s.leaseState.leases k = s.leases[k]? from rfl]
    cases hl : s.leases[k]? with
    | none => rfl
    | some lease =>
        rw [show s.leaseState.world = s.atProducer from rfl]
        dsimp only
        cases hr : PersistentShmChannel.publish lease s.atProducer with
        | ok result w =>
            simp only [leaseState, SpscState.withProducer, atProducer, LeaseState.put,
              getElem?_set_update _ hl]
        | error err w => rfl
  · simp only [SpscState.stepPublish]
    split
    · rfl
    · split <;> rfl

omit [Checksum] in
/-- A lease is dropped, or taken back. -/
theorem Tidy.erase {k : ℕ} {t : LeaseState} (h : t.Tidy) (hl : ∀ n, n ≠ k →
    t.leases n = s.leases[n]?) : LeaseState.Tidy ⟨t.world, fun n => (s.leases.eraseIdx k)[n]?⟩ := by
  refine h.rename (fun n => if n < k then n else n + 1) (fun m n he => ?_) fun n lease hn => ?_
  · split at he <;> split at he <;> omega
  · rw [List.getElem?_eraseIdx] at hn
    by_cases hk : n < k
    · rw [if_pos hk] at hn
      rw [if_pos hk, hl n (by omega)]
      exact hn
    · rw [if_neg hk] at hn
      rw [if_neg hk, hl (n + 1) (by omega)]
      exact hn

theorem Tidy.stepAbort {k : ℕ} (h : s.Tidy config) : (s.stepAbort k).Tidy config := by
  have hnext := h.leases.next (.abort k)
  have hconf := s.leaseState.next_config (.abort k)
  unfold SpscState.stepAbort
  simp only [LeaseState.next, LeaseState.call] at hnext hconf
  rw [show s.leaseState.leases k = s.leases[k]? from rfl,
    show s.leaseState.world = s.atProducer from rfl] at hnext hconf
  cases hl : s.leases[k]? with
  | none => exact h
  | some lease =>
      simp only [hl] at hnext hconf
      dsimp only
      cases hr : PersistentShmChannel.abort lease s.atProducer <;>
        simp only [hr] at hnext hconf <;>
        exact ⟨h.mode, h.noDrop, Tidy.erase hnext fun n hn => Function.update_of_ne hn ..,
          hconf.trans h.producer, h.consumer⟩

omit [Checksum] in
theorem Tidy.dropLease {k : ℕ} (h : s.Tidy config) :
    SpscState.Tidy config { s with leases := s.leases.eraseIdx k } :=
  ⟨h.mode, h.noDrop, Tidy.erase h.leases fun _ _ => rfl, h.producer, h.consumer⟩

/-- **Every call keeps the leases in order.** -/
theorem Tidy.step (h : s.Tidy config) (hop : s.CrashFree op) : (s.step op).Tidy config := by
  cases op with
  | send host message => exact h.stepSend
  | alloc host size => exact h.stepAlloc
  | write k offset bytes => exact h.stepWrite
  | publish k => exact h.stepPublish
  | abort k => exact h.stepAbort
  | dropLease k => exact h.dropLease
  | openConsumer host => exact h.stepOpenConsumer hop
  | recv host => exact h.stepRecv hop
  | tryRecv host => exact h.stepTryRecv hop
  | recvView host => exact h.stepRecvView hop
  | release k => exact h.stepRelease
  | dropView k => exact h.stepDropView
  | reopenProducer host => exact h.stepReopenProducer hop

/-! ## The first state -/

omit [Checksum] in
/-- A created region is zeroed. -/
theorem create_zeroed {w : World} (hw : create host config = .ok w) (i : ℕ) :
    w.region.slots i = .empty := by
  have hfree : ∀ (indices : List ℕ) (region : Region), region.slots i = .empty →
      (indices.foldl (fun r i => r.writeHeader i .free 0 0) region).slots i = .empty := by
    intro indices
    induction indices with
    | nil => exact fun _ h => h
    | cons j indices ih =>
        intro region h
        refine ih _ ?_
        simp only [Region.writeHeader, Region.setHeader, Region.setSlot]
        split
        · rename_i hi
          rw [← hi, h]
          rfl
        · exact h
  simp only [create, bind, Except.bind, pure, Except.pure] at hw
  split at hw
  · cases hw
  split at hw
  · cases hw
  split at hw
  · cases hw
  split at hw
  · cases hw
  cases hw
  exact hfree _ _ rfl

omit [Checksum] in
theorem tidy_start {w : World} (hw : create host config = .ok w)
    (hmode : config.multiProducer = false) (hdrop : config.backpressure ≠ .dropOldest) :
    (start w).Tidy config := by
  obtain ⟨hchan, hfits, -, hhead, -, -⟩ := create_ok hw
  have hconf : w.chan.config = config := by
    rw [hchan]
    rfl
  refine ⟨hmode, hdrop, ⟨⟨?_, ?_⟩, fun i hfree => ?_, ?_, ?_, ?_⟩, hconf, fun _ h => by cases h⟩
  · show w.chan.headCursor = w.region.head
    rw [hchan, hhead]
    rfl
  · show w.chan.head < w.chan.config.capacity
    rw [hconf, hchan, ← hfits.capacity]
    exact hfits.pos
  · show w.region.slots i = (w.region.slots i).released w.region.frameCapacity
    rw [create_zeroed hw, Slot.released, Slot.empty]
    simp only [Slot.mk.injEq, true_and]
    funext j
    simp only [Area.clear, Area.zero, ite_self]
  · show FRAME_HEADER_LEN + w.chan.config.slotSize ≤ w.region.frameCapacity
    rw [hfits.frameCapacity, hconf, Nat.add_comm]
  · exact fun _ _ h => by cases h
  · exact fun _ _ _ _ h => by cases h

/-- **The leases are in order in every reachable state** of a single-producer
channel that drops nothing, where no process is gone. -/
theorem tidy_reachable {w : World} {ops : List SpscOp} (hw : create host config = .ok w)
    (hmode : config.multiProducer = false) (hdrop : config.backpressure ≠ .dropOldest)
    (hops : Run.Meets SpscState.step SpscState.CrashFree (start w) ops) :
    (Run.exec SpscState.step (start w) ops).Tidy config :=
  hops.invariant (SpscState.Tidy config) (fun _ _ h hop => h.step hop)
    (tidy_start hw hmode hdrop)

end SpscState

end Dsline
