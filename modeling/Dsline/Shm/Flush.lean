import Dsline.Core.Crc
import Dsline.Shm.MessageCodec
import Dsline.Shm.RegionFile
import Dsline.Shm.Spsc
/-!
# What a publishing call flushes

Where mappings are not coherent, another process sees what was flushed. The
calls that publish write slots and the head word and then flush ranges of
the region; the trace of a call is those writes and flushes in their order.
A single flush from the start of the region misses the slots of a batch
that wraps, and `publish` never flushes the head word.
-/

namespace Dsline

/-! ## Traces -/

structure ByteRange where
  offset : ℕ
  len : ℕ
  deriving DecidableEq, Repr

namespace ByteRange

/-- The byte at `p` is in the range. -/
def Has (range : ByteRange) (p : ℕ) : Prop :=
  range.offset ≤ p ∧ p < range.offset + range.len

instance (range : ByteRange) (p : ℕ) : Decidable (range.Has p) :=
  inferInstanceAs (Decidable (_ ∧ _))

end ByteRange

/-- What a call does to the storage. -/
inductive StorageOp where
  | write (range : ByteRange)
  | flush (range : ByteRange)
  deriving DecidableEq, Repr

/-- **Every byte written is flushed.** -/
def AllFlushed (trace : List StorageOp) : Prop :=
  ∀ p, (∃ range, .write range ∈ trace ∧ range.Has p) → ∃ range, .flush range ∈ trace ∧ range.Has p

/-- The bytes of a slot in the region, `persistent_region_slot_size`. -/
def regionSlotSize (config : SpscConfig) : ℕ :=
  config.slotSize + FRAME_HEADER_LEN + PERSISTENT_SLOT_HEADER_LEN

/-- `MAX_SINGLE_FLUSH`. -/
abbrev MAX_SINGLE_FLUSH : ℕ := 8 * 4096

/-- The head cursor word. -/
def headWord : ByteRange := ⟨CURSOR_HEAD_OFFSET, 8⟩

/-- The slot of frame `k` of a batch. -/
def batchSlot (config : SpscConfig) (firstIndex k : ℕ) : ℕ :=
  regionSlotOffset ((firstIndex + k) % config.capacity) (regionSlotSize config)

/-- `write_committed_no_flush`: the WRITING header, the frame, the COMMITTED
header. -/
def writeCommittedOps (offset : ℕ) (frame : Bytes) : List StorageOp :=
  [.write ⟨offset, PERSISTENT_SLOT_HEADER_LEN⟩,
    .write ⟨offset + PERSISTENT_SLOT_HEADER_LEN, frame.length⟩,
    .write ⟨offset, PERSISTENT_SLOT_HEADER_LEN⟩]

/-- The write loop of a batch. -/
def batchWrites (config : SpscConfig) (frames : List Bytes) (firstIndex : ℕ) : List StorageOp :=
  frames.zipIdx.flatMap fun (frame, k) => writeCommittedOps (batchSlot config firstIndex k) frame

/-- `last_offset`: where the last slot of the batch ends. -/
def batchEnd (config : SpscConfig) (frames : List Bytes) (firstIndex : ℕ) : ℕ :=
  if frames.isEmpty then regionSlotOffset firstIndex (regionSlotSize config)
  else batchSlot config firstIndex (frames.length - 1) + PERSISTENT_SLOT_HEADER_LEN +
    (frames.getLast?.map List.length).getD 0

/-- `publish_batch`. -/
def publishBatch (config : SpscConfig) (frames : List Bytes) (firstIndex : ℕ) : List StorageOp :=
  if batchEnd config frames firstIndex ≤ MAX_SINGLE_FLUSH then
    [.flush ⟨0, batchEnd config frames firstIndex⟩]
  else
    (frames.zipIdx.map fun (frame, k) =>
        .flush ⟨batchSlot config firstIndex k, PERSISTENT_SLOT_HEADER_LEN + frame.length⟩) ++
      [.flush ⟨0, REGION_HEADER_LEN⟩]

/-- A call that publishes: what it sends, and where in the ring. -/
inductive PublishingCall where
  /-- `send` in single-producer mode, at the handle's head. -/
  | send (message : Message) (seq : UInt64) (head : ℕ)
  /-- `send_mpsc`, at the head count it reserved. -/
  | sendMpsc (message : Message) (seq : UInt64) (start : UInt64)
  | publish (lease : ShmWriteLease)

namespace PublishingCall

variable [Checksum]

/-- The trace of a batch and of the head word, in single-producer mode. -/
def sendTrace (config : SpscConfig) (frames : List Bytes) (head : ℕ) : List StorageOp :=
  batchWrites config frames head ++ [.write headWord] ++ publishBatch config frames head

/-- In multi-producer mode the reservation moves the head word first. -/
def sendMpscTrace (config : SpscConfig) (frames : List Bytes) (start : ℕ) : List StorageOp :=
  let firstIndex := start % config.capacity
  [.write headWord, .flush ⟨0, REGION_HEADER_LEN⟩] ++ batchWrites config frames firstIndex ++
    publishBatch config frames firstIndex

/-- `publish`: the frame header, the COMMITTED header, the head word, and
one flush over the slot. -/
def publishTrace (config : SpscConfig) (lease : ShmWriteLease) : List StorageOp :=
  let offset := regionSlotOffset lease.index (regionSlotSize config)
  [.write ⟨offset + PERSISTENT_SLOT_HEADER_LEN, FRAME_HEADER_LEN⟩,
    .write ⟨offset, PERSISTENT_SLOT_HEADER_LEN⟩, .write headWord,
    .flush ⟨offset, PERSISTENT_SLOT_HEADER_LEN + FRAME_HEADER_LEN + lease.payloadLen⟩]

/-- The frames of a message, where it has a plan. -/
def framesFor (config : SpscConfig) (message : Message) (seq : UInt64) : List Bytes :=
  match sendPlan config message.1.length with
  | .error _ => []
  | .ok plan =>
      match encodeMessageFrames config plan seq message.1 with
      | .error _ => []
      | .ok frames => frames

/-- What the call does to the storage. -/
def trace (config : SpscConfig) : PublishingCall → List StorageOp
  | send message seq head => sendTrace config (framesFor config message seq) head
  | sendMpsc message seq start => sendMpscTrace config (framesFor config message seq) start.toNat
  | publish lease => publishTrace config lease

/-- A call the channel makes: the message has a plan, and the handle's head
is a slot of the ring. -/
def Made (config : SpscConfig) : PublishingCall → Prop
  | send message _ head => (∃ plan, sendPlan config message.1.length = .ok plan) ∧
      head < config.capacity ∧ config.capacity < 2 ^ 64
  | sendMpsc message _ _ => (∃ plan, sendPlan config message.1.length = .ok plan) ∧
      0 < config.capacity ∧ config.capacity < 2 ^ 64
  | publish _ => True

/-- A batch that does not wrap past the last slot, or that ends beyond what
a single flush may cover. -/
def Flushable (config : SpscConfig) (frames : List Bytes) (firstIndex : ℕ) : Prop :=
  firstIndex + frames.length ≤ config.capacity ∨
    MAX_SINGLE_FLUSH < batchEnd config frames firstIndex

/-- **When a call flushes all it wrote**: a send of a flushable batch. -/
def Flushes (config : SpscConfig) : PublishingCall → Prop
  | send message seq head => Flushable config (framesFor config message seq) head
  | sendMpsc message seq start =>
      Flushable config (framesFor config message seq) (start.toNat % config.capacity)
  | publish _ => False

end PublishingCall

/-! ## Batches -/

section Batch

variable {config : SpscConfig} {frames : List Bytes} {firstIndex p : ℕ} {range : ByteRange}

theorem write_mem_batchWrites : StorageOp.write range ∈ batchWrites config frames firstIndex ↔
    ∃ k frame, frames[k]? = some frame ∧
      (range = ⟨batchSlot config firstIndex k, PERSISTENT_SLOT_HEADER_LEN⟩ ∨
        range = ⟨batchSlot config firstIndex k + PERSISTENT_SLOT_HEADER_LEN, frame.length⟩) := by
  unfold batchWrites
  rw [List.mem_flatMap]
  constructor
  · rintro ⟨⟨frame, k⟩, hmem, hop⟩
    refine ⟨k, frame, List.mem_zipIdx_iff_getElem?.1 hmem, ?_⟩
    simpa [writeCommittedOps, or_comm, or_left_comm, or_assoc] using hop
  · rintro ⟨k, frame, hget, hrange⟩
    refine ⟨⟨frame, k⟩, List.mem_zipIdx_iff_getElem?.2 hget, ?_⟩
    rcases hrange with rfl | rfl
    · simp [writeCommittedOps]
    · simp [writeCommittedOps]

theorem flush_notMem_batchWrites :
    StorageOp.flush range ∉ batchWrites config frames firstIndex := by
  unfold batchWrites
  rw [List.mem_flatMap]
  rintro ⟨⟨frame, k⟩, -, hop⟩
  simp [writeCommittedOps] at hop

theorem write_notMem_publishBatch :
    StorageOp.write range ∉ publishBatch config frames firstIndex := by
  unfold publishBatch
  split <;> simp

/-- The last slot of a batch that does not wrap is behind the others. -/
theorem slot_le_batchEnd (hfits : ∀ frame ∈ frames,
      PERSISTENT_SLOT_HEADER_LEN + frame.length ≤ regionSlotSize config)
    (hroom : firstIndex + frames.length ≤ config.capacity) {k : ℕ} {frame : Bytes}
    (hk : frames[k]? = some frame) :
    batchSlot config firstIndex k + PERSISTENT_SLOT_HEADER_LEN + frame.length ≤
      batchEnd config frames firstIndex := by
  obtain ⟨hlt, -⟩ := List.getElem?_eq_some_iff.1 hk
  have hne : ¬ frames.isEmpty = true := by
    intro he
    rw [List.isEmpty_iff] at he
    rw [he] at hlt
    exact absurd hlt (Nat.not_lt_zero _)
  rw [batchEnd, if_neg hne]
  unfold batchSlot regionSlotOffset
  rw [Nat.mod_eq_of_lt (by omega), Nat.mod_eq_of_lt (by omega)]
  -- A slot before the last ends where the next one starts; the last ends the batch.
  rcases Nat.lt_or_ge k (frames.length - 1) with hless | hlast
  · have hmul : (firstIndex + k + 1) * regionSlotSize config ≤
        (firstIndex + (frames.length - 1)) * regionSlotSize config :=
      Nat.mul_le_mul_right _ (by omega)
    have hlen := hfits frame (List.mem_of_getElem? hk)
    rw [Nat.add_mul, Nat.one_mul] at hmul
    omega
  · obtain rfl : k = frames.length - 1 := by omega
    have hgl : frames.getLast? = some frame := by rw [List.getLast?_eq_getElem?, hk]
    rw [hgl, Option.map_some, Option.getD_some]

/-- **A flushable batch is flushed**, and the head word with it. -/
theorem flushed_of_flushable (hfits : ∀ frame ∈ frames,
      PERSISTENT_SLOT_HEADER_LEN + frame.length ≤ regionSlotSize config)
    (hne : frames ≠ []) (h : PublishingCall.Flushable config frames firstIndex)
    (hp : headWord.Has p ∨
      ∃ range, .write range ∈ batchWrites config frames firstIndex ∧ range.Has p) :
    ∃ range, .flush range ∈ publishBatch config frames firstIndex ∧ range.Has p := by
  have hpos : 0 < frames.length := List.length_pos_of_ne_nil hne
  have hempty : ¬ frames.isEmpty = true := fun he => hne (List.isEmpty_iff.1 he)
  have hheader : REGION_HEADER_LEN ≤ batchEnd config frames firstIndex := by
    rw [batchEnd, if_neg hempty]
    unfold batchSlot regionSlotOffset
    omega
  unfold publishBatch
  by_cases hend : batchEnd config frames firstIndex ≤ MAX_SINGLE_FLUSH
  · rw [if_pos hend]
    refine ⟨_, List.mem_singleton.2 rfl, Nat.zero_le _, ?_⟩
    show p < 0 + batchEnd config frames firstIndex
    rcases hp with ⟨-, hlt⟩ | ⟨range, hmem, -, hlt⟩
    · simp only [headWord, CURSOR_HEAD_OFFSET] at hlt
      simp only [REGION_HEADER_LEN] at hheader
      omega
    · obtain ⟨k, frame, hk, hrange⟩ := write_mem_batchWrites.1 hmem
      have hle := slot_le_batchEnd hfits (h.resolve_right (Nat.not_lt.2 hend)) hk
      rcases hrange with rfl | rfl
      · simp only at hlt
        omega
      · simp only at hlt
        omega
  · rw [if_neg hend]
    rcases hp with ⟨-, hlt⟩ | ⟨range, hmem, hge, hlt⟩
    · refine ⟨_, List.mem_append_right _ (List.mem_singleton.2 rfl), Nat.zero_le _, ?_⟩
      simp only [headWord, CURSOR_HEAD_OFFSET] at hlt
      simp only [REGION_HEADER_LEN]
      omega
    · obtain ⟨k, frame, hk, hrange⟩ := write_mem_batchWrites.1 hmem
      refine ⟨_, List.mem_append_left _ (List.mem_map.2
        ⟨⟨frame, k⟩, List.mem_zipIdx_iff_getElem?.2 hk, rfl⟩), ?_⟩
      unfold ByteRange.Has
      rcases hrange with rfl | rfl
      · simp only at hge hlt ⊢
        omega
      · simp only at hge hlt ⊢
        omega

/-- **A batch that wraps within a single flush leaves its first slot out**:
the flush ends with the last slot, which lies before it. -/
theorem unflushed_of_wraps (hfits : ∀ frame ∈ frames,
      PERSISTENT_SLOT_HEADER_LEN + frame.length ≤ regionSlotSize config)
    (hfirst : firstIndex < config.capacity) (hmost : frames.length ≤ config.capacity)
    (h : ¬ PublishingCall.Flushable config frames firstIndex) :
    (∃ range, .write range ∈ batchWrites config frames firstIndex ∧
        range.Has (batchSlot config firstIndex 0)) ∧
      REGION_HEADER_LEN ≤ batchSlot config firstIndex 0 ∧
      publishBatch config frames firstIndex = [.flush ⟨0, batchEnd config frames firstIndex⟩] ∧
      batchEnd config frames firstIndex ≤ batchSlot config firstIndex 0 := by
  unfold PublishingCall.Flushable at h
  rw [not_or, Nat.not_le, Nat.not_lt] at h
  obtain ⟨hwraps, hend⟩ := h
  have hpos : 0 < frames.length := by omega
  have hempty : ¬ frames.isEmpty = true := by
    intro he
    rw [List.isEmpty_iff.1 he] at hpos
    exact absurd hpos (Nat.lt_irrefl 0)
  refine ⟨⟨_, write_mem_batchWrites.2 ⟨0, _, List.getElem?_eq_getElem hpos, .inl rfl⟩,
    Nat.le_refl _, Nat.lt_add_of_pos_right (Nat.zero_lt_succ 47)⟩, Nat.le_add_right _ _,
    by rw [publishBatch, if_pos hend], ?_⟩
  have hlast : (frames.getLast?.map List.length).getD 0 + PERSISTENT_SLOT_HEADER_LEN ≤
      regionSlotSize config := by
    cases hgl : frames.getLast? with
    | none =>
        rw [List.getLast?_eq_none_iff] at hgl
        rw [hgl] at hpos
        exact absurd hpos (Nat.lt_irrefl 0)
    | some frame =>
        have hle := hfits frame (List.mem_of_getLast? hgl)
        rw [Option.map_some, Option.getD_some]
        omega
  rw [batchEnd, if_neg hempty]
  unfold batchSlot regionSlotOffset
  -- The last slot wrapped, so it lies before the first one.
  have hindex : (firstIndex + (frames.length - 1)) % config.capacity + 1 ≤
      (firstIndex + 0) % config.capacity := by
    have hstart : (firstIndex + 0) % config.capacity = firstIndex := Nat.mod_eq_of_lt hfirst
    rw [hstart, Nat.mod_eq_sub_mod (by omega), Nat.mod_eq_of_lt (by omega)]
    omega
  have hmul := Nat.mul_le_mul_right (regionSlotSize config) hindex
  rw [Nat.add_mul, Nat.one_mul] at hmul
  omega

end Batch

/-! ## The calls -/

namespace PublishingCall

variable [Checksum] {config : SpscConfig} {message : Message} {seq : UInt64} {call : PublishingCall}

variable (seq) in
/-- The frames of a message with a plan: not none, not too many, and each
within a slot. -/
theorem framesFor_ok (hplan : ∃ plan, sendPlan config message.1.length = .ok plan)
    (hpos : 0 < config.capacity) (hcap : config.capacity < 2 ^ 64) :
    framesFor config message seq ≠ [] ∧
      (framesFor config message seq).length ≤ config.capacity ∧
      ∀ frame ∈ framesFor config message seq,
        PERSISTENT_SLOT_HEADER_LEN + frame.length ≤ regionSlotSize config := by
  obtain ⟨plan, hplan⟩ := hplan
  have hframes : framesFor config message seq = messageFrames plan seq message.1 := by
    simp only [framesFor, hplan, encodeMessageFrames_ok seq hplan hcap message.2]
  rw [hframes]
  have hnum := length_messageFrames seq hplan
  have hneed := neededSlots_pos hplan
  refine ⟨fun he => ?_, by rw [hnum]; exact neededSlots_le hpos hplan, fun frame hf => ?_⟩
  · rw [he, List.length_nil] at hnum
    omega
  · have hle := length_le_of_mem_messageFrames hplan hf
    simp only [regionSlotSize]
    omega

omit [Checksum] in
theorem allFlushed_sendTrace {frames : List Bytes} {head : ℕ} (hne : frames ≠ [])
    (hfits : ∀ frame ∈ frames,
      PERSISTENT_SLOT_HEADER_LEN + frame.length ≤ regionSlotSize config)
    (hfirst : head < config.capacity) (hmost : frames.length ≤ config.capacity) :
    AllFlushed (sendTrace config frames head) ↔ Flushable config frames head := by
  have hwrite : ∀ range, .write range ∈ sendTrace config frames head ↔
      .write range ∈ batchWrites config frames head ∨ range = headWord := by
    intro range
    simp [sendTrace, write_notMem_publishBatch]
  have hflush : ∀ range, .flush range ∈ sendTrace config frames head ↔
      .flush range ∈ publishBatch config frames head := by
    intro range
    simp [sendTrace, flush_notMem_batchWrites]
  constructor
  · intro hall
    by_contra hno
    obtain ⟨⟨range, hmem, hhas⟩, -, hbatch, hend⟩ := unflushed_of_wraps hfits hfirst hmost hno
    obtain ⟨range', hmem', -, hlt⟩ := hall _ ⟨range, (hwrite range).2 (.inl hmem), hhas⟩
    rw [hflush, hbatch, List.mem_singleton] at hmem'
    cases hmem'
    simp only at hlt
    omega
  · rintro h p ⟨range, hmem, hhas⟩
    obtain ⟨range', hmem', hhas'⟩ := flushed_of_flushable hfits hne h (p := p) <| by
      rcases (hwrite range).1 hmem with hmem | rfl
      · exact .inr ⟨range, hmem, hhas⟩
      · exact .inl hhas
    exact ⟨range', (hflush range').2 hmem', hhas'⟩

omit [Checksum] in
theorem allFlushed_sendMpscTrace {frames : List Bytes} {start : ℕ} (hne : frames ≠ [])
    (hfits : ∀ frame ∈ frames,
      PERSISTENT_SLOT_HEADER_LEN + frame.length ≤ regionSlotSize config)
    (hpos : 0 < config.capacity) (hmost : frames.length ≤ config.capacity) :
    AllFlushed (sendMpscTrace config frames start) ↔
      Flushable config frames (start % config.capacity) := by
  have hwrite : ∀ range, .write range ∈ sendMpscTrace config frames start ↔
      .write range ∈ batchWrites config frames (start % config.capacity) ∨ range = headWord := by
    intro range
    simp [sendMpscTrace, write_notMem_publishBatch, or_comm]
  have hflush : ∀ range, .flush range ∈ sendMpscTrace config frames start ↔
      .flush range ∈ publishBatch config frames (start % config.capacity) ∨
        range = ⟨0, REGION_HEADER_LEN⟩ := by
    intro range
    simp [sendMpscTrace, flush_notMem_batchWrites, or_comm]
  constructor
  · intro hall
    by_contra hno
    obtain ⟨⟨range, hmem, hhas⟩, hbehind, hbatch, hend⟩ :=
      unflushed_of_wraps hfits (Nat.mod_lt _ hpos) hmost hno
    obtain ⟨range', hmem', -, hlt⟩ := hall _ ⟨range, (hwrite range).2 (.inl hmem), hhas⟩
    rw [hflush, hbatch, List.mem_singleton] at hmem'
    rcases hmem' with hmem' | rfl
    · cases hmem'
      simp only at hlt
      omega
    · simp only at hlt
      omega
  · rintro h p ⟨range, hmem, hhas⟩
    obtain ⟨range', hmem', hhas'⟩ := flushed_of_flushable hfits hne h (p := p) <| by
      rcases (hwrite range).1 hmem with hmem | rfl
      · exact .inr ⟨range, hmem, hhas⟩
      · exact .inl hhas
    exact ⟨range', (hflush range').2 (.inl hmem'), hhas'⟩

omit [Checksum] in
/-- `publish` flushes its slot, which lies behind the head word. -/
theorem not_allFlushed_publishTrace (lease : ShmWriteLease) :
    ¬ AllFlushed (publishTrace config lease) := by
  intro hall
  obtain ⟨range, hmem, hge, -⟩ := hall 0 ⟨headWord, by simp [publishTrace], by decide⟩
  simp only [publishTrace, List.mem_cons, StorageOp.flush.injEq, reduceCtorEq, List.not_mem_nil,
    or_false, false_or] at hmem
  subst hmem
  simp only [regionSlotOffset, REGION_HEADER_LEN] at hge
  omega

end PublishingCall

open PublishingCall

/-- **When publishing flushes everything it wrote**: a send does where its
batch does not wrap past the last slot or ends beyond what a single flush
may cover; `publish` never does, leaving out the head word. -/
theorem publishing_flushes [Checksum] {config : SpscConfig} {call : PublishingCall}
    (h : call.Made config) : AllFlushed (call.trace config) ↔ call.Flushes config := by
  cases call with
  | send message seq head =>
      obtain ⟨hplan, hhead, hcap⟩ := h
      obtain ⟨hne, hmost, hfits⟩ := framesFor_ok seq hplan (by omega) hcap
      exact allFlushed_sendTrace hne hfits hhead hmost
  | sendMpsc message seq start =>
      obtain ⟨hplan, hpos, hcap⟩ := h
      obtain ⟨hne, hmost, hfits⟩ := framesFor_ok seq hplan hpos hcap
      exact allFlushed_sendMpscTrace hne hfits hpos hmost
  | publish lease => exact iff_of_false (not_allFlushed_publishTrace lease) id

/-- A multi-producer send of three chunks that reserved the cursors 7 to 9. -/
def chunkedSend : PublishingCall := .sendMpsc ⟨List.replicate 97 5, by decide⟩ 0 7

/-- In a ring of five slots these are the last three. -/
theorem publishing_flushes_chunked :
    AllFlushed (@trace crc32Checksum (sampleConfig 5 90) chunkedSend) :=
  (@publishing_flushes crc32Checksum (sampleConfig 5 90) chunkedSend
    ⟨⟨⟨48, 3⟩, by decide⟩, by decide, by decide⟩).2 (.inl (by decide +kernel))

/-- A message of two chunks, sent at the last slot of two. -/
def wrappingSend : PublishingCall := .send ⟨List.replicate 96 5, by decide⟩ 0 1

/-- **Failing input**: the slot the batch begins in is not flushed. -/
theorem publishing_wrap_unflushed :
    ¬ AllFlushed (@trace crc32Checksum (sampleConfig 2 90) wrappingSend) := by
  intro h
  have hnone : (@trace crc32Checksum (sampleConfig 2 90) wrappingSend).all (fun op =>
      match op with
      | .write _ => true
      | .flush range => decide ¬ range.Has 220) = true := by
    decide +kernel
  obtain ⟨range, hmem, hhas⟩ := h 220 ⟨⟨220, 48⟩, by decide +kernel, by decide⟩
  exact of_decide_eq_true (List.all_eq_true.1 hnone _ hmem) hhas

end Dsline
