import Dsline.Core.FrameCodec
import Dsline.Shm.Inbox
import Mathlib.Data.List.TakeDrop
import Mathlib.Tactic.SplitIfs
/-!
# The message codec

What a sender lays into slots, a receiver reads back as one message: the
frames of `encodeMessageFrames` deliver the message's bytes
(`delivers_encodeMessageFrames`), whatever frames follow them. A frame cut
short delivers an error and nothing else (`delivers_take`), and costs its
reader exactly its own slot.
-/

namespace Dsline

open LittleEndian

/-! ## Send plans -/

section Plan

variable {config : SpscConfig} {plan : SendPlan} {len : ℕ}

/-- **What a plan is.** One slot for a message that fits, otherwise as many
chunks of the payload a chunk's frame leaves room for as the message needs. -/
theorem sendPlan_ok (h : sendPlan config len = .ok plan) :
    (len ≤ config.slotSize ∧ plan = ⟨config.slotSize, 1⟩) ∨
      (config.slotSize < len ∧ CHUNK_METADATA_LEN < config.slotSize ∧
        plan.chunkPayloadSize = config.slotSize - CHUNK_METADATA_LEN ∧
        plan.neededSlots = (len + (plan.chunkPayloadSize - 1)) / plan.chunkPayloadSize ∧
        plan.neededSlots ≤ config.capacity) := by
  unfold sendPlan at h
  simp only [checkedSub, checkedAdd, checkedMul] at h
  by_cases h1 : len ≤ config.slotSize
  · rw [if_pos h1] at h
    exact .inl ⟨h1, (Except.ok.inj h).symm⟩
  · rw [if_neg h1] at h
    right
    by_cases h2 : CHUNK_METADATA_LEN ≤ config.slotSize
    · rw [if_pos h2] at h
      simp only at h
      split at h
      · cases h
      · rename_i h3
        split at h
        · cases h
        · rename_i padded hp
          split at hp
          · cases hp
            split at h
            · cases h
            · split at h
              · cases h
              · rename_i hfit
                cases h
                exact ⟨by omega, by omega, rfl, rfl, Nat.le_of_not_lt fun hc => hfit (.inl hc)⟩
          · cases hp
    · rw [if_neg h2] at h
      cases h

/-- A plan takes at least one slot and at most the ring. -/
theorem neededSlots_pos (h : sendPlan config len = .ok plan) : 0 < plan.neededSlots := by
  rcases sendPlan_ok h with ⟨-, rfl⟩ | ⟨h1, h2, h3, h4, -⟩
  · exact Nat.one_pos
  · rw [h4]
    exact Nat.div_pos (by omega) (by omega)

theorem neededSlots_le (hcap : 0 < config.capacity) (h : sendPlan config len = .ok plan) :
    plan.neededSlots ≤ config.capacity := by
  rcases sendPlan_ok h with ⟨-, rfl⟩ | ⟨-, -, -, -, h5⟩
  · exact hcap
  · exact h5

/-- A message over the slot size takes several chunks. -/
theorem one_lt_neededSlots (h : sendPlan config len = .ok plan) (hlen : config.slotSize < len) :
    1 < plan.neededSlots := by
  rcases sendPlan_ok h with ⟨h1, -⟩ | ⟨h1, h2, h3, h4, -⟩
  · omega
  · rw [h4]
    have hp : 0 < plan.chunkPayloadSize := by omega
    have : plan.chunkPayloadSize * 2 ≤ len + (plan.chunkPayloadSize - 1) := by omega
    exact (Nat.le_div_iff_mul_le hp).2 (by omega)

end Plan

/-! ## Chunks -/

section Chunks

variable {size : ℕ} {bytes : Bytes}

theorem length_chunks : (chunks size bytes).length = (bytes.length + (size - 1)) / size := by
  simp [chunks]

theorem getElem_chunks {i : ℕ} (h : i < (chunks size bytes).length) :
    (chunks size bytes)[i] = (bytes.drop (i * size)).take size := by
  simp [chunks]

theorem length_le_of_mem_chunks {chunk : Bytes} (h : chunk ∈ chunks size bytes) :
    chunk.length ≤ size := by
  obtain ⟨i, -, rfl⟩ := List.mem_map.1 h
  exact List.length_take_le _ _

/-- The chunks from `i` on are the bytes from `i * size` on. -/
theorem flatten_drop_chunks (hs : 0 < size) :
    ∀ n i, i + n = (chunks size bytes).length →
      ((chunks size bytes).drop i).flatten = bytes.drop (i * size) := by
  intro n
  induction n with
  | zero =>
      intro i hi
      have hlen : bytes.length ≤ i * size := by
        rw [Nat.add_zero, length_chunks] at hi
        have := Nat.div_mul_le_self (bytes.length + (size - 1)) size
        have hlt := Nat.lt_div_mul_add (a := bytes.length + (size - 1)) hs
        rw [← hi] at hlt
        omega
      rw [List.drop_eq_nil_of_le (by omega), List.drop_eq_nil_of_le hlen, List.flatten_nil]
  | succ n ih =>
      intro i hi
      have hlt : i < (chunks size bytes).length := by omega
      rw [List.drop_eq_getElem_cons hlt, List.flatten_cons, ih (i + 1) (by omega),
        getElem_chunks, Nat.succ_mul, ← List.drop_drop, List.take_append_drop]

variable (size bytes) in
/-- **Reassembling the chunks gives the bytes.** -/
theorem flatten_chunks (hs : 0 < size) : (chunks size bytes).flatten = bytes := by
  simpa using flatten_drop_chunks hs _ 0 (Nat.zero_add _)

end Chunks

/-! ## The frames of a message -/

section Encode

/-- The metadata of chunk `index`. -/
def chunkTlvs (index total messageLen : ℕ) : List Metadata :=
  [⟨TLV_CHUNK_INDEX, pushU64 (UInt64.ofNat index)⟩, ⟨TLV_CHUNK_TOTAL, pushU64 (UInt64.ofNat total)⟩,
    ⟨TLV_CHUNK_MESSAGE_LEN, pushU64 (UInt64.ofNat messageLen)⟩]

theorem length_chunkTlvs {index total messageLen : ℕ} :
    ((chunkTlvs index total messageLen).flatMap encodeMetadata).length = CHUNK_METADATA_LEN := by
  simp [chunkTlvs, length_encodeMetadata, CHUNK_METADATA_LEN, TLV_HEADER_LEN]

theorem chunkMetadata_ok {index total messageLen : ℕ} (hi : index < 2 ^ 64) (ht : total < 2 ^ 64)
    (hm : messageLen < 2 ^ 64) :
    chunkMetadata index total messageLen = .ok (chunkTlvs index total messageLen) := by
  simp only [chunkMetadata, usizeToU64Bytes, if_pos hi, if_pos ht, if_pos hm]
  rfl

theorem mapM_ok {α β ε : Type} {f : α → Except ε β} {g : α → β} {xs : List α}
    (h : ∀ x ∈ xs, f x = .ok (g x)) : xs.mapM f = .ok (xs.map g) := by
  induction xs with
  | nil => rfl
  | cons x xs ih =>
      rw [List.mapM_cons, h x List.mem_cons_self,
        ih fun y hy => h y (List.mem_cons_of_mem x hy)]
      rfl

variable [Checksum]

/-- An encoded frame: the header for the payload, and the payload. -/
def frameBytes (flags : UInt16) (seq : UInt64) (metadata : List Metadata) (payload : Bytes) :
    Bytes :=
  headerBytes .bytes flags seq 0 0 (checksum32 payload) payload.length
    (FRAME_HEADER_LEN + (metadata.flatMap encodeMetadata).length) metadata ++ payload

theorem length_frameBytes {flags : UInt16} {seq : UInt64} {metadata : List Metadata}
    {payload : Bytes} :
    (frameBytes flags seq metadata payload).length =
      FRAME_HEADER_LEN + (metadata.flatMap encodeMetadata).length + payload.length := by
  rw [frameBytes, List.length_append, length_headerBytes]

theorem encodeFrame_nil {flags : UInt16} {seq : UInt64} {payload : Bytes}
    (h : payload.length < 2 ^ 64) :
    encodeFrame .bytes flags seq 0 0 [] payload = .ok (frameBytes flags seq [] payload) := by
  have hm : (metadataLen []).bind (checkedAdd FRAME_HEADER_LEN) = some FRAME_HEADER_LEN := by
    decide
  simp only [encodeFrame, encodeFrameHeader, hm]
  rw [if_pos ⟨by decide, h⟩]
  rfl

theorem encodeFrame_chunk {flags : UInt16} {seq : UInt64} {index total messageLen : ℕ}
    {payload : Bytes} (h : payload.length < 2 ^ 64) :
    encodeFrame .bytes flags seq 0 0 (chunkTlvs index total messageLen) payload =
      .ok (frameBytes flags seq (chunkTlvs index total messageLen) payload) := by
  have hm : (metadataLen (chunkTlvs index total messageLen)).bind (checkedAdd FRAME_HEADER_LEN) =
      some (FRAME_HEADER_LEN + CHUNK_METADATA_LEN) := by
    simp only [metadataLen, chunkTlvs, List.foldlM_cons, List.foldlM_nil, length_pushU64]
    rfl
  simp only [encodeFrame, encodeFrameHeader, hm]
  rw [if_pos ⟨by decide, h⟩, frameBytes, length_chunkTlvs]
  rfl

/-- The frames of a message under a plan. -/
def messageFrames (plan : SendPlan) (seq : UInt64) (bytes : Bytes) : List Bytes :=
  if plan.neededSlots = 1 then [frameBytes 0 seq [] bytes]
  else (chunks plan.chunkPayloadSize bytes).zipIdx.map fun (chunk, index) =>
    frameBytes (chunkFlags index plan.neededSlots) seq
      (chunkTlvs index plan.neededSlots bytes.length) chunk

variable {config : SpscConfig} {plan : SendPlan} {seq : UInt64} {bytes : Bytes}

variable (seq) in
/-- **Encoding a planned message succeeds.** -/
theorem encodeMessageFrames_ok (hplan : sendPlan config bytes.length = .ok plan)
    (hcap : config.capacity < 2 ^ 64) (hlen : bytes.length ≤ isizeMax) :
    encodeMessageFrames config plan seq bytes = .ok (messageFrames plan seq bytes) := by
  simp only [isizeMax] at hlen
  rcases sendPlan_ok hplan with ⟨-, rfl⟩ | ⟨h1, h2, h3, h4, h5⟩
  · have h64 : bytes.length < 2 ^ 64 := by omega
    simp only [encodeMessageFrames, messageFrames, if_true, encodeFrame_nil h64]
    rfl
  · have hone : plan.neededSlots ≠ 1 := Nat.ne_of_gt (one_lt_neededSlots hplan h1)
    have hn : (chunks plan.chunkPayloadSize bytes).length = plan.neededSlots := by
      rw [length_chunks, h4]
    have hmap : ((chunks plan.chunkPayloadSize bytes).zipIdx.mapM fun (chunk, index) =>
        encodeChunk plan seq bytes.length index chunk) = .ok (messageFrames plan seq bytes) := by
      rw [messageFrames, if_neg hone]
      refine mapM_ok fun ⟨chunk, index⟩ hx => ?_
      obtain ⟨hi, hc⟩ := List.mk_mem_zipIdx_iff_getElem?.1 hx |> List.getElem?_eq_some_iff.1
      have hcl : chunk.length ≤ plan.chunkPayloadSize :=
        length_le_of_mem_chunks (hc ▸ List.getElem_mem hi)
      simp only [encodeChunk, chunkMetadata_ok (show index < 2 ^ 64 by omega)
        (show plan.neededSlots < 2 ^ 64 by omega) (show bytes.length < 2 ^ 64 by omega)]
      exact encodeFrame_chunk (by omega)
    have hfit : ((messageFrames plan seq bytes).any fun frame =>
        config.slotSize + FRAME_HEADER_LEN < frame.length) = false := by
      rw [List.any_eq_false]
      intro frame hf
      rw [messageFrames, if_neg hone] at hf
      obtain ⟨⟨chunk, index⟩, hx, rfl⟩ := List.mem_map.1 hf
      obtain ⟨hi, hc⟩ := List.mk_mem_zipIdx_iff_getElem?.1 hx |> List.getElem?_eq_some_iff.1
      have hcl : chunk.length ≤ plan.chunkPayloadSize :=
        length_le_of_mem_chunks (hc ▸ List.getElem_mem hi)
      simp only [length_frameBytes, length_chunkTlvs, decide_eq_true_eq]
      omega
    have hnum : (messageFrames plan seq bytes).length = plan.neededSlots := by
      rw [messageFrames, if_neg hone, List.length_map, List.length_zipIdx, hn]
    simp only [encodeMessageFrames, if_neg hone, hmap, hnum, hfit, bind, Except.bind, pure,
      Except.pure]
    simp

variable (seq) in
/-- A planned message takes as many frames as the plan says. -/
theorem length_messageFrames (hplan : sendPlan config bytes.length = .ok plan) :
    (messageFrames plan seq bytes).length = plan.neededSlots := by
  unfold messageFrames
  split
  · rename_i h
    rw [h]
    rfl
  · rename_i h
    rcases sendPlan_ok hplan with ⟨-, rfl⟩ | ⟨-, -, -, h4, -⟩
    · exact absurd rfl h
    · rw [List.length_map, List.length_zipIdx, length_chunks, h4]

/-- Every frame of a planned message fits a slot. -/
theorem length_le_of_mem_messageFrames (hplan : sendPlan config bytes.length = .ok plan)
    {frame : Bytes} (h : frame ∈ messageFrames plan seq bytes) :
    frame.length ≤ config.slotSize + FRAME_HEADER_LEN := by
  unfold messageFrames at h
  rcases sendPlan_ok hplan with ⟨h1, rfl⟩ | ⟨h1, h2, h3, -, -⟩
  · rw [if_pos rfl, List.mem_singleton] at h
    rw [h, length_frameBytes]
    simp only [List.flatMap_nil, List.length_nil]
    omega
  · rw [if_neg (Nat.ne_of_gt (one_lt_neededSlots hplan h1))] at h
    obtain ⟨⟨chunk, index⟩, hx, rfl⟩ := List.mem_map.1 h
    obtain ⟨hi, hc⟩ := List.mk_mem_zipIdx_iff_getElem?.1 hx |> List.getElem?_eq_some_iff.1
    have hcl : chunk.length ≤ plan.chunkPayloadSize :=
      length_le_of_mem_chunks (hc ▸ List.getElem_mem hi)
    simp only [length_frameBytes, length_chunkTlvs]
    omega

end Encode

/-! ## Receiving encoded frames -/

section Flags

variable {index total : ℕ}

theorem chunkFlags_chunked : (chunkFlags index total &&& FRAME_FLAG_CHUNKED != 0) = true := by
  simp only [chunkFlags]
  split <;> split <;> decide

theorem chunkFlags_start :
    (chunkFlags index total &&& FRAME_FLAG_CHUNK_START != 0) = decide (index = 0) := by
  simp only [chunkFlags]
  split <;> split <;> simp [*] <;> decide

theorem chunkFlags_end :
    (chunkFlags index total &&& FRAME_FLAG_CHUNK_END != 0) = decide (index + 1 = total) := by
  simp only [chunkFlags]
  by_cases h : index + 1 = total
  · rw [decide_eq_true h, if_pos h]
    split <;> decide
  · rw [decide_eq_false h, if_neg h]
    split <;> decide

end Flags

section BadFrame

/-- What the checks of a frame fail with. -/
inductive BadFrame : Failure → Prop
  | protocol (err : ProtocolError) : BadFrame (.ofProtocol err)
  | corrupted : BadFrame (.ofChannel .corruptedMessage)
  | panic : BadFrame .panic

/-- A computation that fails as a check of a frame does. -/
def ChecksFrame {α : Type} (x : Except Failure α) : Prop := ∀ err, x = .error err → BadFrame err

theorem checksFrame_ok {α : Type} {a : α} : ChecksFrame (.ok a : Except Failure α) :=
  fun _ h => nomatch h

theorem checksFrame_error {α : Type} {err : Failure} (h : BadFrame err) :
    ChecksFrame (.error err : Except Failure α) := by
  intro e he
  cases he
  exact h

theorem ChecksFrame.bind {α β : Type} {x : Except Failure α} {f : α → Except Failure β}
    (hx : ChecksFrame x) (hf : ∀ a, ChecksFrame (f a)) : ChecksFrame (x >>= f) := by
  cases x with
  | error err => exact fun e he => hx e (congrArg Except.error (Except.error.inj he))
  | ok a => exact hf a

theorem checksFrame_slice {bytes : Bytes} {start stop : ℕ} :
    ChecksFrame (slice bytes start stop) := by
  unfold slice
  split
  · exact checksFrame_ok
  · exact checksFrame_error .panic

theorem checksFrame_readU16 {bytes : Bytes} {i : ℕ} : ChecksFrame (readU16 bytes i) :=
  checksFrame_slice.bind fun _ => checksFrame_ok

theorem checksFrame_readU32 {bytes : Bytes} {i : ℕ} : ChecksFrame (readU32 bytes i) :=
  checksFrame_slice.bind fun _ => checksFrame_ok

theorem checksFrame_readU64 {bytes : Bytes} {i : ℕ} : ChecksFrame (readU64 bytes i) :=
  checksFrame_slice.bind fun _ => checksFrame_ok

theorem checksFrame_tryFrom {value : UInt16} : ChecksFrame (FrameKind.tryFrom value) := by
  unfold FrameKind.tryFrom
  split_ifs <;> first | exact checksFrame_ok | exact checksFrame_error (.protocol _)

theorem checksFrame_decodeFrameHeader {bytes : Bytes} : ChecksFrame (decodeFrameHeader bytes) := by
  unfold decodeFrameHeader
  split
  · exact checksFrame_error (.protocol _)
  refine checksFrame_readU32.bind fun magic => ?_
  split
  · exact checksFrame_error (.protocol _)
  refine checksFrame_readU16.bind fun version => ?_
  split
  · exact checksFrame_error (.protocol _)
  refine checksFrame_readU16.bind fun flags => checksFrame_readU16.bind fun kind =>
    checksFrame_tryFrom.bind fun _ => checksFrame_readU32.bind fun headerLen => ?_
  split
  · exact checksFrame_error (.protocol _)
  refine checksFrame_readU64.bind fun _ => checksFrame_readU64.bind fun _ =>
    checksFrame_readU64.bind fun _ => checksFrame_readU64.bind fun _ =>
    checksFrame_readU32.bind fun _ => ?_
  split
  · exact checksFrame_error (.protocol _)
  · exact checksFrame_ok

theorem checksFrame_decodeMetadataFrom {bytes : Bytes} {headerLen : ℕ} :
    ∀ {rounds offset : ℕ}, ChecksFrame (decodeMetadataFrom bytes headerLen rounds offset) := by
  intro rounds
  induction rounds with
  | zero => exact checksFrame_ok
  | succ rounds ih =>
      intro offset
      unfold decodeMetadataFrom
      split
      · exact checksFrame_ok
      split
      · exact checksFrame_error (.protocol _)
      refine checksFrame_readU16.bind fun _ => checksFrame_readU32.bind fun len => ?_
      simp only
      split
      · exact checksFrame_error (.protocol _)
      split
      · exact checksFrame_error (.protocol _)
      · exact checksFrame_slice.bind fun _ => ih.bind fun _ => checksFrame_ok

theorem checksFrame_decodeFrame {bytes : Bytes} : ChecksFrame (decodeFrame bytes) := by
  unfold decodeFrame
  refine checksFrame_decodeFrameHeader.bind fun header => ?_
  simp only
  split
  · exact checksFrame_error (.protocol _)
  split
  · exact checksFrame_error (.protocol _)
  · exact checksFrame_decodeMetadataFrom.bind fun _ => checksFrame_slice.bind fun _ =>
      checksFrame_ok

theorem checksFrame_metadataUsize {frame : Frame} {ty : UInt16} :
    ChecksFrame (metadataUsize frame ty) := by
  unfold metadataUsize
  split
  · exact checksFrame_error .corrupted
  · split
    · exact checksFrame_ok
    · exact checksFrame_error .corrupted

theorem checksFrame_chunkInfo {frame : Frame} : ChecksFrame (chunkInfo frame) := by
  unfold chunkInfo
  refine checksFrame_metadataUsize.bind fun _ => checksFrame_metadataUsize.bind fun _ =>
    checksFrame_metadataUsize.bind fun _ => ?_
  split
  · exact checksFrame_error .corrupted
  · exact checksFrame_ok

theorem checksFrame_validateBytesFrame [Checksum] {frame : Frame} :
    ChecksFrame (validateBytesFrame frame) := by
  unfold validateBytesFrame
  split
  · exact checksFrame_error .corrupted
  · exact checksFrame_ok

theorem checksFrame_validateChunk [Checksum] {frame : Frame} {seq : UInt64} {first : ChunkInfo} :
    ChecksFrame (validateChunk frame seq first) := by
  unfold validateChunk
  refine checksFrame_validateBytesFrame.bind fun _ => ?_
  split
  · exact checksFrame_error .corrupted
  refine checksFrame_chunkInfo.bind fun info => ?_
  split
  · exact checksFrame_error .corrupted
  simp only
  split
  · exact checksFrame_error .corrupted
  · exact checksFrame_ok

/-- No decoder error is a release of what is not pinned. -/
theorem decodeFrame_not_stuck {bytes : Bytes} {err : Failure}
    (h : decodeFrame bytes = .error err) : ¬ Inbox.Stuck err := by
  intro hstuck
  rw [Inbox.Stuck, Inbox.notPinned] at hstuck
  rw [hstuck] at h
  exact nomatch checksFrame_decodeFrame _ h

end BadFrame

section Deliver

variable [Checksum]

/-- **The frames `datas`, found at the tail under `seq`, deliver `out`**: a
receive that has read the first of them returns `out`, consumes exactly
them, counts one message, and leaves what follows untouched. -/
def Delivers (seq : UInt64) (datas : List Bytes) (out : Except Failure Bytes) : Prop :=
  ∃ data datas', datas = data :: datas' ∧ ∀ rest consumed expected last,
    finishRecv Inbox.ops ⟨seq, data⟩
        ⟨datas.map (⟨seq, ·⟩) ++ rest, .pinned, consumed, expected, last⟩ =
      match out with
      | .ok payload =>
          .ok ⟨seq, payload⟩ ⟨rest, .clean, consumed + datas.length, expected + 1, some seq⟩
      | .error err => .error err ⟨rest, .clean, consumed + datas.length, expected + 1, last⟩

variable {seq : UInt64} {config : SpscConfig} {plan : SendPlan} {bytes : Bytes}

/-- What the frame of a payload decodes to. -/
abbrev frameOf (flags : UInt16) (seq : UInt64) (metadata : List Metadata) (payload : Bytes) :
    Frame :=
  framed .bytes flags seq 0 0 (checksum32 payload) metadata payload

variable (seq) in
theorem decodeFrame_frameBytes (flags : UInt16) (metadata : List Metadata) (payload : Bytes)
    (hhdr : FRAME_HEADER_LEN + (metadata.flatMap encodeMetadata).length < 2 ^ 32)
    (hlen : payload.length ≤ isizeMax) :
    decodeFrame (frameBytes flags seq metadata payload) =
      .ok (frameOf flags seq metadata payload) := by
  have h := decodeFrame_encoded .bytes flags seq 0 0 (checksum32 payload) [] hhdr hlen
  rwa [List.append_nil] at h

theorem validateBytesFrame_frameOf {flags : UInt16} {metadata : List Metadata}
    {payload : Bytes} : validateBytesFrame (frameOf flags seq metadata payload) = .ok () := by
  simp [validateBytesFrame, framed]

variable (seq) in
theorem chunkInfo_frameOf (index total messageLen : ℕ) (payload : Bytes) (hi : index < total)
    (ht : total < 2 ^ 64) (hm : messageLen < 2 ^ 64) :
    chunkInfo (frameOf (chunkFlags index total) seq (chunkTlvs index total messageLen) payload) =
      .ok ⟨index, total, messageLen⟩ := by
  have hw : ∀ n < 2 ^ 64, leNat (pushU64 (UInt64.ofNat n)) = n := fun n hn => by
    have h64 : (UInt64.ofNat n).toNat = n := by rw [UInt64.toNat_ofNat']; omega
    rw [pushU64, h64, leNat_leBytes_of_lt (by simpa using hn)]
  have h1 : metadataUsize (frameOf (chunkFlags index total) seq
      (chunkTlvs index total messageLen) payload) TLV_CHUNK_INDEX = .ok index := by
    simp [metadataUsize, framed, chunkTlvs, hw index (by omega)]
  have h2 : metadataUsize (frameOf (chunkFlags index total) seq
      (chunkTlvs index total messageLen) payload) TLV_CHUNK_TOTAL = .ok total := by
    simp [metadataUsize, framed, chunkTlvs, List.find?, hw total ht, TLV_CHUNK_INDEX,
      TLV_CHUNK_TOTAL]
  have h3 : metadataUsize (frameOf (chunkFlags index total) seq
      (chunkTlvs index total messageLen) payload) TLV_CHUNK_MESSAGE_LEN = .ok messageLen := by
    simp [metadataUsize, framed, chunkTlvs, List.find?, hw messageLen hm, TLV_CHUNK_INDEX,
      TLV_CHUNK_TOTAL, TLV_CHUNK_MESSAGE_LEN]
  simp only [chunkInfo, h1, h2, h3, bind, Except.bind, pure, Except.pure]
  rw [if_neg (by omega)]

variable (seq) in
theorem validateChunk_frameOf (index total messageLen : ℕ) (payload : Bytes) (hi : index < total)
    (ht : total < 2 ^ 64) (hm : messageLen < 2 ^ 64) :
    validateChunk (frameOf (chunkFlags index total) seq (chunkTlvs index total messageLen) payload)
      seq ⟨index, total, messageLen⟩ = .ok () := by
  have hc : isChunked (frameOf (chunkFlags index total) seq (chunkTlvs index total messageLen)
      payload) = true := chunkFlags_chunked
  simp only [validateChunk, validateBytesFrame_frameOf, chunkInfo_frameOf _ _ _ _ _ hi ht hm, bind,
    Except.bind, pure, Except.pure, hc]
  simp [framed, chunkFlags_start, chunkFlags_end]

variable (seq) in
/-- **The chunk loop reassembles.** The induction is on the chunks left:
each round reads the next frame of the inbox and appends its payload. -/
theorem recvChunks_encoded {total messageLen : ℕ} (ht : total < 2 ^ 64)
    (hm : messageLen ≤ isizeMax) (rest : List SlotSnapshot) (expected : UInt64)
    (last : Option UInt64) (pieces : List Bytes) :
    ∀ (index consumed : ℕ) (payload : Bytes), index + pieces.length = total →
      (payload ++ pieces.flatten).length = messageLen →
      recvChunks Inbox.ops seq ⟨0, total, messageLen⟩ pieces.length index payload
          ⟨((pieces.zipIdx index).map fun (piece, i) =>
              ⟨seq, frameBytes (chunkFlags i total) seq (chunkTlvs i total messageLen) piece⟩) ++
            rest, .clean, consumed, expected, last⟩ =
        .ok (payload ++ pieces.flatten)
          ⟨rest, .clean, consumed + pieces.length, expected, last⟩ := by
  simp only [isizeMax] at hm
  induction pieces with
  | nil =>
      intro index consumed payload hi hlen
      simp only [List.flatten_nil, List.append_nil] at hlen ⊢
      simp [recvChunks, hlen]
  | cons piece pieces ih =>
      intro index consumed payload hi hlen
      rw [List.length_cons] at hi
      have hpl : piece.length ≤ isizeMax := by
        simp only [List.flatten_cons, List.length_append] at hlen
        simp only [isizeMax]
        omega
      have hdec := decodeFrame_frameBytes seq (chunkFlags index total)
        (chunkTlvs index total messageLen) piece
        (by rw [length_chunkTlvs]; decide) hpl
      have hval := validateChunk_frameOf seq index total messageLen piece (by omega) ht (by omega)
      have hnext := ih (index + 1) (consumed + 1) (payload ++ piece) (by omega)
        (by simpa only [List.flatten_cons, List.append_assoc] using hlen)
      simp only [List.length_cons, List.zipIdx_cons, List.map_cons, List.cons_append, recvChunks]
      refine (Effect.bind_ok Inbox.ops_readNext).trans ?_
      simp only [ne_eq, not_true_eq_false, if_false, hdec, hval]
      refine (Effect.bind_ok Inbox.ops_advance).trans ?_
      refine hnext.trans ?_
      simp only [List.flatten_cons, List.append_assoc, Nat.add_assoc, Nat.add_comm 1]

theorem isChunked_frameOf_zero {metadata : List Metadata} {payload : Bytes} :
    isChunked (frameOf 0 seq metadata payload) = false := by
  show ((0 : UInt16) &&& FRAME_FLAG_CHUNKED != 0) = false
  decide

/-- A receive of a frame that decodes, passes the checks and carries the
slot's sequence. -/
theorem finishRecv_of_valid {σ : Type} {ops : TailOps σ} {snapshot : SlotSnapshot}
    {frame : Frame} (hdec : decodeFrame snapshot.data = .ok frame)
    (hval : validateBytesFrame frame = .ok ()) (hseq : snapshot.seq = frame.header.seq) :
    finishRecv ops snapshot =
      if isChunked frame then
        recvChunkedMessageWith ops snapshot.seq frame >>= fun payload =>
          ops.bumpExpected >>= fun _ => ops.setLastReceived frame.header.seq >>= fun _ =>
            pure { seq := frame.header.seq, payload }
      else
        ops.advanceTailAfterRead >>= fun _ =>
          ops.bumpExpected >>= fun _ => ops.setLastReceived frame.header.seq >>= fun _ =>
            pure { seq := frame.header.seq, payload := frame.payload } := by
  simp only [finishRecv, hdec, hval, hseq, ne_eq, not_true_eq_false, if_false]
  rfl

/-- The frame of a message of one slot delivers its bytes. -/
theorem delivers_single (hlen : bytes.length ≤ isizeMax) :
    Delivers seq [frameBytes 0 seq [] bytes] (.ok bytes) := by
  refine ⟨_, [], rfl, fun rest consumed expected last => ?_⟩
  have hdec : decodeFrame (SlotSnapshot.mk seq (frameBytes 0 seq [] bytes)).data =
      .ok (frameOf 0 seq [] bytes) := decodeFrame_frameBytes _ _ _ _ (by decide) hlen
  have hplain : ¬ isChunked (frameOf 0 seq [] bytes) = true := by
    rw [isChunked_frameOf_zero]
    exact Bool.false_ne_true
  rw [finishRecv_of_valid hdec validateBytesFrame_frameOf rfl, if_neg hplain]
  refine (Effect.bind_ok Inbox.ops_advance).trans ?_
  refine (Effect.bind_ok Inbox.ops_bumpExpected).trans ?_
  exact (Effect.bind_ok Inbox.ops_setLastReceived).trans rfl

/-- The frames of consecutive chunks deliver the bytes the chunks make up. -/
theorem delivers_pieces {piece : Bytes} {pieces : List Bytes} {total : ℕ}
    (hn : pieces.length + 1 = total) (ht : total < 2 ^ 64) (hlen : bytes.length ≤ isizeMax)
    (hflat : (piece :: pieces).flatten = bytes) :
    Delivers seq ((piece :: pieces).zipIdx.map fun (piece, i) =>
      frameBytes (chunkFlags i total) seq (chunkTlvs i total bytes.length) piece) (.ok bytes) := by
  have hbl : piece.length ≤ bytes.length := by
    rw [← hflat, List.flatten_cons, List.length_append]; omega
  have hdec : decodeFrame (SlotSnapshot.mk seq (frameBytes (chunkFlags 0 total) seq
      (chunkTlvs 0 total bytes.length) piece)).data =
        .ok (frameOf (chunkFlags 0 total) seq (chunkTlvs 0 total bytes.length) piece) :=
    decodeFrame_frameBytes _ _ _ _ (by rw [length_chunkTlvs]; decide) (by omega)
  have hinfo := chunkInfo_frameOf seq 0 total bytes.length piece (by omega) ht
    (by simp only [isizeMax] at hlen; omega)
  have hchunk : isChunked (frameOf (chunkFlags 0 total) seq (chunkTlvs 0 total bytes.length)
      piece) = true := chunkFlags_chunked
  have htotal : total - 1 = pieces.length := by omega
  refine ⟨_, _, rfl, fun rest consumed expected last => ?_⟩
  have hloop := recvChunks_encoded seq ht hlen rest expected last pieces 1
    (consumed + 1) piece (by omega) (by rw [← List.flatten_cons, hflat])
  rw [← List.flatten_cons, hflat] at hloop
  simp only [List.zipIdx_cons, List.map_cons, List.cons_append, List.map_map]
  rw [finishRecv_of_valid hdec validateBytesFrame_frameOf rfl, if_pos hchunk]
  refine (Effect.bind_ok (show _ = EStateM.Result.ok bytes
    ⟨rest, .clean, consumed + 1 + pieces.length, expected, last⟩ from ?_)).trans ?_
  · simp only [recvChunkedMessageWith, hinfo, ne_eq, not_true_eq_false, if_false,
      if_neg (Nat.not_lt.2 hlen), htotal]
    exact (Effect.bind_ok Inbox.ops_advance).trans hloop
  · refine (Effect.bind_ok Inbox.ops_bumpExpected).trans ?_
    refine (Effect.bind_ok Inbox.ops_setLastReceived).trans ?_
    simp only [List.length_cons, List.length_map, List.length_zipIdx, Nat.add_assoc,
      Nat.add_comm 1]
    rfl

/-- **The frames of a message deliver its bytes.** -/
theorem delivers_messageFrames (hplan : sendPlan config bytes.length = .ok plan)
    (hcap : config.capacity < 2 ^ 64) (hlen : bytes.length ≤ isizeMax) :
    Delivers seq (messageFrames plan seq bytes) (.ok bytes) := by
  unfold messageFrames
  rcases sendPlan_ok hplan with ⟨-, rfl⟩ | ⟨h1, h2, h3, h4, h5⟩
  · rw [if_pos rfl]
    exact delivers_single hlen
  · have hmany := one_lt_neededSlots hplan h1
    have hn : (chunks plan.chunkPayloadSize bytes).length = plan.neededSlots := by
      rw [length_chunks, h4]
    have hflat : (chunks plan.chunkPayloadSize bytes).flatten = bytes :=
      flatten_chunks _ _ (by omega)
    rw [if_neg (by omega)]
    cases hc : chunks plan.chunkPayloadSize bytes with
    | nil => rw [hc, List.length_nil] at hn; omega
    | cons piece pieces =>
        rw [hc] at hn hflat
        exact delivers_pieces hn (by omega) hlen hflat

variable (seq) in
/-- **A frame cut short delivers an error**, and its reader steps over its
one slot. -/
theorem delivers_take {frame : Bytes} {decoded : Frame} {m : ℕ}
    (hdec : decodeFrame frame = .ok decoded)
    (hm : m < decoded.header.headerLen.toNat + decoded.header.payloadLen.toNat) :
    ∃ err, Delivers seq [frame.take m] (.error err) ∧ ¬ Inbox.Stuck err := by
  obtain ⟨err, herr⟩ := decodeFrame_take_error hdec hm
  refine ⟨err, ⟨_, [], rfl, fun rest consumed expected last => ?_⟩,
    decodeFrame_not_stuck herr⟩
  simp only [finishRecv, herr, skipDamaged]
  refine (Effect.bind_ok Inbox.ops_advance).trans ?_
  exact (Effect.bind_ok Inbox.ops_bumpExpected).trans rfl

end Deliver

end Dsline
