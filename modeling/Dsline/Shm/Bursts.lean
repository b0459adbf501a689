import Dsline.Core.Burst
import Dsline.Shm.Chunking
import Dsline.Shm.MemorySpec
import Dsline.Shm.RecvSpec
import Dsline.Shm.Spsc
/-!
# Bursts in stored messages

A frame whose payload changed while it was stored decodes as before, to
another payload; its checksum is the one of the payload that was sent. Where
the checksum tells the two apart in any frame of a message, neither channel
returns the message (`finishRecv_altered`). CRC-32 tells every burst of up
to 32 bits.
-/

namespace Dsline

open PersistentShmChannel World

/-- A stored frame whose payload took a burst. -/
def Struck (sent stored : SlotSnapshot) : Prop :=
  stored.seq = sent.seq ∧ ∃ frame payload, decodeFrame sent.data = .ok frame ∧
    Burst 32 frame.payload payload ∧
      stored.data = sent.data.take frame.header.headerLen.toNat ++ payload

/-- A stored frame whose payload is not the one its checksum is of. -/
def Altered [Checksum] (sent stored : SlotSnapshot) : Prop :=
  stored.seq = sent.seq ∧ ∃ frame payload, decodeFrame sent.data = .ok frame ∧
    checksum32 payload ≠ checksum32 frame.payload ∧
      decodeFrame stored.data = .ok { frame with payload }

/-! ## The frame -/

section Sent

variable [Checksum] {plan : SendPlan} {seq : UInt64} {bytes : Bytes} {sent : SlotSnapshot}

/-- A frame of a message: the encoded header, and a piece of the message. -/
theorem exists_frameBytes (hlen : bytes.length ≤ isizeMax)
    (hsent : sent ∈ sentFrames plan seq bytes) :
    ∃ flags metadata piece, sent.data = frameBytes flags seq metadata piece ∧
      FRAME_HEADER_LEN + (metadata.flatMap encodeMetadata).length < 2 ^ 32 ∧
        piece.length ≤ isizeMax := by
  unfold sentFrames messageFrames at hsent
  split at hsent
  · rw [List.map_singleton, List.mem_singleton] at hsent
    subst hsent
    exact ⟨0, [], bytes, rfl, by decide, hlen⟩
  · rw [List.map_map, List.mem_map] at hsent
    obtain ⟨⟨chunk, index⟩, hx, rfl⟩ := hsent
    have hchunk := length_chunk_le (List.mk_mem_zipIdx_iff_getElem?.1 hx)
    exact ⟨_, _, chunk, rfl, by rw [length_chunkTlvs]; decide, by omega⟩

/-- **Another piece of the same length behind a header** decodes as it did. -/
theorem decodeFrame_payload {frame : Frame} {payload : Bytes} (hlen : bytes.length ≤ isizeMax)
    (hsent : sent ∈ sentFrames plan seq bytes) (hdec : decodeFrame sent.data = .ok frame)
    (hsame : payload.length = frame.payload.length) :
    decodeFrame (sent.data.take frame.header.headerLen.toNat ++ payload) =
      .ok { frame with payload } := by
  obtain ⟨flags, metadata, piece, hdata, hlt, hpiece⟩ := exists_frameBytes hlen hsent
  rw [hdata, decodeFrame_frameBytes seq flags metadata piece hlt hpiece] at hdec
  obtain rfl : frameOf flags seq metadata piece = frame := Except.ok.inj hdec
  have hword : (frameOf flags seq metadata piece).header.headerLen.toNat =
      FRAME_HEADER_LEN + (metadata.flatMap encodeMetadata).length := UInt32.toNat_ofNat_of_lt' hlt
  have hpayload : payload.length = piece.length := hsame
  have hdecode : _ = Except.ok (framed .bytes flags seq 0 0 (checksum32 piece) metadata payload) :=
    decodeFrame_encoded .bytes flags seq 0 0 (checksum32 piece) [] hlt (by omega)
  rw [List.append_nil] at hdecode
  rw [hdata, frameBytes, hword, List.take_left' length_headerBytes, ← hpayload, hdecode]
  simp only [framed, hpayload]

end Sent

variable [Checksum]

/-- **A burst alters a frame**: CRC-32 tells it. -/
theorem Struck.altered {plan : SendPlan} {seq : UInt64} {bytes : Bytes} {sent stored : SlotSnapshot}
    (hcrc : IsCrc32) (h : Struck sent stored) (hlen : bytes.length ≤ isizeMax)
    (hsent : sent ∈ sentFrames plan seq bytes) : Altered sent stored := by
  obtain ⟨hseq, frame, payload, hdec, hburst, hdata⟩ := h
  refine ⟨hseq, frame, payload, hdec, ?_, ?_⟩
  · rw [hcrc, hcrc]
    exact hburst.crc32_ne.symm
  · rw [hdata]
    exact decodeFrame_payload hlen hsent hdec hburst.length_eq

/-- A frame that passed its check and was altered does not pass it. -/
theorem validateBytesFrame_altered {frame : Frame} {payload : Bytes}
    (hvalid : validateBytesFrame frame = .ok ())
    (hne : checksum32 payload ≠ checksum32 frame.payload) :
    validateBytesFrame { frame with payload } = .error (.ofChannel .corruptedMessage) := by
  unfold validateBytesFrame at hvalid ⊢
  split at hvalid
  · cases hvalid
  · rename_i h
    rw [not_or, not_not, not_not] at h
    rw [if_pos (.inr fun heq => hne (heq.trans h.2.symm))]

theorem validateChunk_altered {frame : Frame} {payload : Bytes} {seq : UInt64} {info : ChunkInfo}
    (hvalid : validateBytesFrame frame = .ok ())
    (hne : checksum32 payload ≠ checksum32 frame.payload) :
    validateChunk { frame with payload } seq info = .error (.ofChannel .corruptedMessage) := by
  rw [validateChunk, validateBytesFrame_altered hvalid hne]
  rfl

/-! ## The message -/

section Message

variable {config : SpscConfig} {plan : SendPlan} {seq : UInt64} {bytes : Bytes}
  {stored rest : List SlotSnapshot}

/-- A stored chunk that is in order, or altered. -/
def ChunkAt (seq : UInt64) (info : ChunkInfo) (snapshot : SlotSnapshot) : Prop :=
  snapshot.seq = seq ∧ ∃ frame, decodeFrame snapshot.data = .ok frame ∧
    validateChunk frame seq info = .ok ()

def AlteredAt (seq : UInt64) (info : ChunkInfo) (snapshot : SlotSnapshot) : Prop :=
  snapshot.seq = seq ∧ ∃ frame, decodeFrame snapshot.data = .ok frame ∧
    validateChunk frame seq info = .error (.ofChannel .corruptedMessage)

/-- **The chunk loop stops at the first altered chunk.** -/
theorem recvChunks_altered {first : ChunkInfo} {chunks : List SlotSnapshot} :
    ∀ {index : ℕ} {payload : Bytes} {inbox : Inbox}, inbox.front = .clean →
      inbox.frames = chunks ++ rest →
      (∀ j (hj : j < chunks.length), ChunkAt seq { first with index := index + j } chunks[j] ∨
        AlteredAt seq { first with index := index + j } chunks[j]) →
      (∃ j, ∃ hj : j < chunks.length, AlteredAt seq { first with index := index + j } chunks[j]) →
        ∃ left, recvChunks Inbox.ops seq first chunks.length index payload inbox =
          .error (.ofChannel .corruptedMessage) left := by
  induction chunks with
  | nil =>
      rintro index payload inbox - - - ⟨j, hj, -⟩
      cases hj
  | cons snapshot chunks ih =>
      rintro index payload ⟨frames, front, consumed, expected, last⟩ rfl hframes hall hbad
      obtain rfl : frames = snapshot :: (chunks ++ rest) := hframes
      rw [List.length_cons, recvChunks, Effect.bind_ok Inbox.ops_readNext]
      rcases hall 0 (Nat.succ_pos _) with ⟨hseq, frame, hdec, hval⟩ | ⟨hseq, frame, hdec, hval⟩
      · -- in order: it is consumed, and the altered one is behind it
        simp only [Nat.add_zero, List.getElem_cons_zero] at hseq hdec hval
        rw [if_neg (not_not.2 hseq), hdec]
        simp only [hval]
        rw [Effect.bind_ok Inbox.ops_advance]
        refine ih rfl rfl (fun j hj => ?_) ?_
        · have hnext := hall (j + 1) (Nat.succ_lt_succ hj)
          rw [List.getElem_cons_succ, ← Nat.add_assoc, Nat.add_right_comm] at hnext
          exact hnext
        · obtain ⟨j, hj, hbad⟩ := hbad
          cases j with
          | zero =>
              obtain ⟨-, frame', hdec', hval'⟩ := hbad
              simp only [Nat.add_zero, List.getElem_cons_zero] at hdec' hval'
              rw [hdec] at hdec'
              cases hdec'
              rw [hval] at hval'
              cases hval'
          | succ j =>
              rw [List.getElem_cons_succ, ← Nat.add_assoc, Nat.add_right_comm] at hbad
              exact ⟨j, Nat.lt_of_succ_lt_succ hj, hbad⟩
      · simp only [Nat.add_zero, List.getElem_cons_zero] at hseq hdec hval
        rw [if_neg (not_not.2 hseq), hdec]
        simp only [hval]
        exact ⟨_, rfl⟩

/-- A stored frame of a chunked message. -/
theorem chunkAt_or_altered (hplan : sendPlan config bytes.length = .ok plan)
    (hcap : config.capacity < wordCount) (hlen : bytes.length ≤ isizeMax)
    (hmany : 1 < plan.neededSlots) {i : ℕ} {sent : SlotSnapshot}
    (hi : (sentFrames plan seq bytes)[i]? = some sent) (snapshot : SlotSnapshot) :
    (snapshot = sent → ChunkAt seq ⟨i, plan.neededSlots, bytes.length⟩ snapshot) ∧
      (Altered sent snapshot → AlteredAt seq ⟨i, plan.neededSlots, bytes.length⟩ snapshot) := by
  obtain ⟨hseq, frame, hdec, hget⟩ := decode_sentFrames hlen hi
  obtain ⟨-, hchunk⟩ := decodedFrames_chunk hplan hcap hlen hmany hget
  constructor
  · rintro rfl
    exact ⟨hseq, frame, hdec, hchunk.chunk⟩
  · rintro ⟨hseq', frame', payload, hdec', hne, hnew⟩
    obtain rfl : frame = frame' := Except.ok.inj (hdec.symm.trans hdec')
    exact ⟨hseq'.trans hseq, _, hnew, validateChunk_altered hchunk.valid hne⟩

/-- Every frame of a message passes its check. -/
theorem validateBytesFrame_decoded {i : ℕ} {frame : Frame}
    (hi : (decodedFrames plan seq bytes)[i]? = some frame) :
    validateBytesFrame frame = .ok () ∧ frame.header.seq = seq := by
  unfold decodedFrames at hi
  split at hi
  · cases i with
    | zero =>
        cases hi
        exact ⟨validateBytesFrame_frameOf, rfl⟩
    | succ i => cases hi
  · rw [List.getElem?_map, Option.map_eq_some_iff] at hi
    obtain ⟨chunk, -, rfl⟩ := hi
    exact ⟨validateBytesFrame_frameOf, rfl⟩

/-- The frames a channel has stored of a message: each as it was sent, or
altered. -/
def StoredAs (sent stored : List SlotSnapshot) : Prop :=
  List.Forall₂ (fun sent stored => stored = sent ∨ Altered sent stored) sent stored

theorem StoredAs.exists_altered {sent stored : List SlotSnapshot} (h : StoredAs sent stored)
    (hne : stored ≠ sent) :
    ∃ (j : ℕ) (s s' : SlotSnapshot), sent[j]? = some s ∧ stored[j]? = some s' ∧ Altered s s' := by
  induction h with
  | nil => exact absurd rfl hne
  | @cons s s' sent stored hhead _ ih =>
      rcases hhead with rfl | haltered
      · have htail : stored ≠ sent := fun he => hne (by rw [he])
        obtain ⟨j, t, t', h, h', ht⟩ := ih htail
        exact ⟨j + 1, t, t', h, h', ht⟩
      · exact ⟨0, s, s', rfl, rfl, haltered⟩

theorem StoredAs.getElem? {sent stored : List SlotSnapshot} (h : StoredAs sent stored) {j : ℕ}
    {s' : SlotSnapshot} (hj : stored[j]? = some s') :
    ∃ s, sent[j]? = some s ∧ (s' = s ∨ Altered s s') := by
  induction h generalizing j with
  | nil => cases hj
  | cons hhead _ ih =>
      cases j with
      | zero =>
          cases hj
          exact ⟨_, rfl, hhead⟩
      | succ j => exact ih hj

/-- A first frame that was altered costs its own slot. -/
theorem finishRecv_first_altered {sent first : SlotSnapshot} {frames : List SlotSnapshot}
    {frame : Frame} (hdec : decodeFrame sent.data = .ok frame)
    (hvalid : validateBytesFrame frame = .ok ()) (haltered : Altered sent first) (consumed : ℕ)
    (expected : UInt64) (last : Option UInt64) :
    ∃ left, finishRecv Inbox.ops first ⟨first :: frames, .pinned, consumed, expected, last⟩ =
      .error (.ofChannel .corruptedMessage) left := by
  obtain ⟨-, frame', payload, hdec', hne, hnew⟩ := haltered
  obtain rfl : frame = frame' := Except.ok.inj (hdec.symm.trans hdec')
  simp only [finishRecv, hnew, validateBytesFrame_altered hvalid hne, skipDamaged]
  rw [Effect.bind_ok Inbox.ops_advance, Effect.bind_ok Inbox.ops_bumpExpected]
  exact ⟨_, rfl⟩

/-- **An altered message is not returned.** -/
theorem finishRecv_altered (hplan : sendPlan config bytes.length = .ok plan)
    (hcap : config.capacity < wordCount) (hlen : bytes.length ≤ isizeMax)
    (hstored : StoredAs (sentFrames plan seq bytes) stored)
    (hne : stored ≠ sentFrames plan seq bytes) (rest : List SlotSnapshot) (consumed : ℕ)
    (expected : UInt64) (last : Option UInt64) :
    ∃ first left, stored.head? = some first ∧
      finishRecv Inbox.ops first ⟨stored ++ rest, .pinned, consumed, expected, last⟩ =
        .error (.ofChannel .corruptedMessage) left := by
  have hcount : stored.length = plan.neededSlots :=
    hstored.length_eq.symm.trans (length_sentFrames hplan)
  have hpos := neededSlots_pos hplan
  obtain ⟨j, s, s', hs, hs', haltered⟩ := hstored.exists_altered hne
  obtain ⟨first, more, rfl⟩ : ∃ first more, stored = first :: more :=
    List.exists_cons_of_length_pos (by omega)
  obtain ⟨sent, hsent, hfirst⟩ := hstored.getElem? (j := 0) rfl
  obtain ⟨hseq, frame, hdec, hget⟩ := decode_sentFrames hlen hsent
  obtain ⟨hvalid, hnumber⟩ := validateBytesFrame_decoded hget
  refine ⟨first, ?_⟩
  rw [exists_and_left]
  refine ⟨rfl, ?_⟩
  by_cases halt : Altered sent first
  · exact finishRecv_first_altered hdec hvalid halt consumed expected last
  obtain rfl := hfirst.resolve_right halt
  -- the first frame is in order, so the altered one is a chunk behind it
  cases j with
  | zero =>
      rw [hsent] at hs
      cases hs
      cases hs'
      exact absurd haltered halt
  | succ j =>
      rw [List.getElem?_cons_succ] at hs'
      have hj := (List.getElem?_eq_some_iff.1 hs').1
      rw [List.length_cons] at hcount
      have hmany : 1 < plan.neededSlots := by omega
      obtain ⟨-, hchunk⟩ := decodedFrames_chunk hplan hcap hlen hmany hget
      obtain ⟨hchunked, hinfo⟩ := validateChunk_ok hchunk.chunk
      rw [finishRecv_of_valid hdec hvalid (hseq.trans hnumber.symm), if_pos hchunked,
        recvChunkedMessageWith, hinfo]
      simp only [ne_eq, not_true_eq_false, if_false, if_neg (Nat.not_lt.2 hlen)]
      have hmore : plan.neededSlots - 1 = more.length := by omega
      have hall : ∀ i (hi : i < more.length),
          ChunkAt seq ⟨1 + i, plan.neededSlots, bytes.length⟩ more[i] ∨
            AlteredAt seq ⟨1 + i, plan.neededSlots, bytes.length⟩ more[i] := by
        intro i hi
        obtain ⟨t, ht, hstate⟩ := hstored.getElem? (List.getElem?_eq_getElem (Nat.succ_lt_succ hi))
        obtain ⟨hsame, hother⟩ := chunkAt_or_altered hplan hcap hlen hmany ht more[i]
        rw [Nat.add_comm 1 i]
        exact hstate.imp hsame hother
      have hbad : AlteredAt seq ⟨1 + j, plan.neededSlots, bytes.length⟩ more[j] := by
        rw [Nat.add_comm 1 j, (List.getElem?_eq_some_iff.1 hs').2]
        exact (chunkAt_or_altered hplan hcap hlen hmany hs s').2 haltered
      have hrun : ∃ left, recvChunks Inbox.ops seq ⟨0, plan.neededSlots, bytes.length⟩ more.length 1
          frame.payload ⟨more ++ rest, .clean, consumed + 1, expected, last⟩ =
            .error (.ofChannel .corruptedMessage) left :=
        recvChunks_altered rfl rfl hall ⟨j, hj, hbad⟩
      obtain ⟨left, hloop⟩ := hrun
      rw [hmore, hseq]
      exact ⟨left, Effect.bind_error ((Effect.bind_ok Inbox.ops_advance).trans hloop)⟩

/-- The frames a channel has stored of a message carry its sequence. -/
theorem StoredAs.seq_eq (h : StoredAs (sentFrames plan seq bytes) stored)
    (hlen : bytes.length ≤ isizeMax) : ∀ s ∈ stored, s.seq = seq := by
  intro s' hs'
  obtain ⟨j, hj⟩ := List.getElem?_of_mem hs'
  obtain ⟨s, hs, hstored⟩ := h.getElem? hj
  have hseq := (decode_sentFrames hlen hs).1
  rcases hstored with rfl | haltered
  · exact hseq
  · exact haltered.1.trans hseq

/-- A persistent channel does not return it. -/
theorem PersistentShmChannel.recvWithSeq_altered (host : Host) {w : World} {more : List Content}
    {pins : List Pin} (hplan : sendPlan config bytes.length = .ok plan)
    (hcap : config.capacity < wordCount) (hlen : bytes.length ≤ isizeMax)
    (hstored : StoredAs (sentFrames plan seq bytes) stored)
    (hne : stored ≠ sentFrames plan seq bytes) (hs : w.Sound)
    (hl : Layout w.region (stored.map .committed ++ more) pins)
    (hword : w.region.tail + (stored.length + (readable more).length) < wordCount)
    (hexp : w.chan.resyncExpected = true ∨ w.chan.config.multiProducer = true ∨
      w.chan.expectedRecvSeq = seq) :
    ∃ w', recvWithSeq host w = .error (.ofChannel .corruptedMessage) w' := by
  have hseqs := hstored.seq_eq hlen
  have hdatas : stored = (stored.map SlotSnapshot.data).map (⟨seq, ·⟩) := by
    rw [List.map_map]
    conv_lhs => rw [← List.map_id stored]
    refine List.map_congr_left fun s hs => ?_
    rw [Function.comp_apply, ← hseqs s hs]
    rfl
  obtain ⟨first, left, hhead, hrun⟩ := finishRecv_altered hplan hcap hlen hstored hne
    (readable more) 0 (settled w seq).chan.expectedRecvSeq (settled w seq).chan.lastReceivedSeq
  obtain ⟨others, hothers⟩ : ∃ others, stored = first :: others := by
    cases stored with
    | nil => cases hhead
    | cons s others =>
        cases hhead
        exact ⟨others, rfl⟩
  have hfirst : first.seq = seq := hseqs first (by rw [hothers]; exact List.mem_cons_self)
  have hshow : w.region.Shows (w.region.tail % w.region.capacity) (.committed first) := by
    have hholds := hl.holds
    rw [hothers] at hholds
    exact hholds.1
  have hoffers : (settled w seq).Offers (stored ++ readable more) := by
    have hcommitted : (stored.map SlotSnapshot.data).map (Content.committed ⟨seq, ·⟩) =
        stored.map .committed := by
      conv_rhs => rw [hdatas]
      simp only [List.map_map]
      rfl
    rw [← hcommitted] at hl
    rw [hdatas]
    exact settled_offers hs hl (by rw [List.length_map]; exact hword)
  have hpos : 0 < (stored ++ readable more).length := by
    rw [hothers]
    exact Nat.succ_pos _
  rw [recvWithSeq_committed hs hshow (by rw [hfirst]; exact hexp), hfirst]
  obtain ⟨w', hw', -⟩ := ((simulates hoffers).finishRecv first).error (reading_start hpos) hrun
    (fun h => by cases h)
  exact ⟨w', hw'⟩

/-- Nor does the in-memory channel. -/
theorem ShmSpscChannel.recvWithSeq_altered {ch : ShmSpscChannel}
    (hplan : sendPlan config bytes.length = .ok plan) (hcap : config.capacity < wordCount)
    (hlen : bytes.length ≤ isizeMax) (hstored : StoredAs (sentFrames plan seq bytes) stored)
    (hne : stored ≠ sentFrames plan seq bytes)
    (hring : ch.Ring ((stored ++ rest).map .committed)) (hexp : ch.expectedRecvSeq = seq) :
    ∃ ch', recvWithSeq ch = .error (.ofChannel .corruptedMessage) ch' := by
  obtain ⟨first, left, hhead, hrun⟩ := finishRecv_altered hplan hcap hlen hstored hne rest 0
    ch.expectedRecvSeq ch.lastReceivedSeq
  obtain ⟨others, rfl⟩ : ∃ others, stored = first :: others := by
    cases stored with
    | nil => cases hhead
    | cons s others =>
        cases hhead
        exact ⟨others, rfl⟩
  have hseq : first.seq = seq := hstored.seq_eq hlen first List.mem_cons_self
  have hlive : ch.len ≠ 0 := by
    rw [hring.len]
    simp
  obtain ⟨region, hread, hpinned⟩ := readTail_ok hring
  have hreading : Reading ch { ch with region } ⟨first :: others ++ rest, .pinned, 0,
      ch.expectedRecvSeq, ch.lastReceivedSeq⟩ :=
    ⟨hpinned, fun _ => List.cons_ne_nil _ _, rfl, rfl, rfl, rfl, rfl⟩
  obtain ⟨ch', hfinish, -⟩ := ((simulates_tailOps ch).finishRecv first).error hreading hrun
    (fun h => by cases h)
  refine ⟨ch', ?_⟩
  rw [ShmSpscChannel.recvWithSeq, Effect.get_bind, if_neg fun hc => hlive hc.2, if_neg hlive]
  refine (Effect.bind_ok hread).trans ?_
  rw [if_neg fun h => h (hseq.trans hexp.symm)]
  exact hfinish

end Message

/-- **No burst gets through.** Where payloads of a message's stored frames
took bursts of up to 32 bits, one or any number of them, neither channel
returns the message: the receive that reaches it fails with
`CorruptedMessage`. -/
theorem bursts_detected (hcrc : IsCrc32) {config : SpscConfig} {plan : SendPlan} {seq : UInt64}
    {bytes : Bytes} {stored : List SlotSnapshot}
    (hplan : sendPlan config bytes.length = .ok plan) (hcap : config.capacity < wordCount)
    (hlen : bytes.length ≤ isizeMax)
    (hstored : List.Forall₂ (fun sent stored => stored = sent ∨ Struck sent stored)
      (sentFrames plan seq bytes) stored)
    (hne : stored ≠ sentFrames plan seq bytes) :
    (∀ (host : Host) (w : World) (more : List Content) (pins : List Pin), w.Sound →
        Layout w.region (stored.map .committed ++ more) pins →
        w.region.tail + (stored.length + (readable more).length) < wordCount →
        (w.chan.resyncExpected = true ∨ w.chan.config.multiProducer = true ∨
          w.chan.expectedRecvSeq = seq) →
        ∃ w', recvWithSeq host w = .error (.ofChannel .corruptedMessage) w') ∧
      ∀ (ch : ShmSpscChannel) (rest : List SlotSnapshot),
        ch.Ring ((stored ++ rest).map .committed) → ch.expectedRecvSeq = seq →
        ∃ ch', ShmSpscChannel.recvWithSeq ch = .error (.ofChannel .corruptedMessage) ch' := by
  have haltered : StoredAs (sentFrames plan seq bytes) stored :=
    ((List.forall₂_and_left _ _).2 ⟨fun _ hsent => hsent, hstored⟩).imp
      fun _ _ h => h.2.imp_right fun hstruck => hstruck.altered hcrc hlen h.1
  exact ⟨fun host w more pins hs hl hword hexp =>
      PersistentShmChannel.recvWithSeq_altered host hplan hcap hlen haltered hne hs hl hword hexp,
    fun ch rest hring hexp =>
      ShmSpscChannel.recvWithSeq_altered hplan hcap hlen haltered hne hring hexp⟩

/-! ## A message of two chunks, struck in the second -/

def struckConfig : SpscConfig := ⟨2, CHUNK_METADATA_LEN + 43, .raise, none, false⟩

def struckMessage : Bytes := List.replicate 86 7

/-- The frame of a chunk, its payload given. -/
def struckFrame (index : ℕ) (chunk : Bytes) : Bytes :=
  (@frameBytes crc32Checksum (chunkFlags index 2) 0 (chunkTlvs index 2 86)
    (List.replicate 43 7)).take (FRAME_HEADER_LEN + CHUNK_METADATA_LEN) ++ chunk

/-- What the channels store: the last byte of the second chunk is another. -/
def struckFrames : List SlotSnapshot :=
  [⟨0, struckFrame 0 (List.replicate 43 7)⟩, ⟨0, struckFrame 1 (List.replicate 42 7 ++ [8])⟩]

omit [Checksum] in
theorem struckFrames_struck :
    List.Forall₂ (fun sent stored => stored = sent ∨ Struck sent stored)
      (@sentFrames crc32Checksum ⟨43, 2⟩ 0 struckMessage) struckFrames := by
  have hsent : @sentFrames crc32Checksum ⟨43, 2⟩ 0 struckMessage =
      [⟨0, struckFrame 0 (List.replicate 43 7)⟩, ⟨0, struckFrame 1 (List.replicate 43 7)⟩] := by
    decide +kernel
  have hdec : decodeFrame (struckFrame 1 (List.replicate 43 7)) =
      .ok (@frameOf crc32Checksum (chunkFlags 1 2) 0 (chunkTlvs 1 2 86) (List.replicate 43 7)) := by
    have hframe : struckFrame 1 (List.replicate 43 7) = @frameBytes crc32Checksum
        (chunkFlags 1 2) 0 (chunkTlvs 1 2 86) (List.replicate 43 7) := by
      decide +kernel
    rw [hframe]
    exact @decodeFrame_frameBytes crc32Checksum 0 (chunkFlags 1 2) (chunkTlvs 1 2 86)
      (List.replicate 43 7) (by decide) (by decide)
  have hburst : Burst 32 (List.replicate 43 7) (List.replicate 42 7 ++ [8]) := by
    have hrow : List.replicate 43 (7 : UInt8) = List.replicate 42 7 ++ [7] ++ [] := by
      decide +kernel
    rw [hrow, ← List.append_nil (List.replicate 42 7 ++ [8])]
    exact burst_bytes rfl (by decide) (by decide)
  rw [hsent]
  exact .cons (.inl rfl)
    (.cons (.inr ⟨rfl, _, List.replicate 42 7 ++ [8], hdec, hburst, by decide +kernel⟩) .nil)

/-- The shared ring that holds them, and its consumer. -/
def struckWorld : World where
  chan := (sampleWorld struckConfig).chan
  region := (((sampleWorld struckConfig).region.setSlot 0
    (Slot.empty.committed 0 (struckFrame 0 (List.replicate 43 7)))).setSlot 1
      (Slot.empty.committed 0 (struckFrame 1 (List.replicate 42 7 ++ [8])))).storeHead 2

/-- The in-memory ring that holds them. -/
def struckChannel : ShmSpscChannel where
  config := struckConfig
  region :=
    { storage := ⟨2, 135, (Area.zero.write 0 (struckFrame 0 (List.replicate 43 7))).write 135
        (struckFrame 1 (List.replicate 42 7 ++ [8]))⟩
      slots := fun _ => ⟨.committed, 0, 135⟩ }
  head := 0
  tail := 0
  len := 2
  nextSeq := 1
  expectedRecvSeq := 0
  lastReceivedSeq := none
  closed := false

omit [Checksum] in
theorem struckWorld_layout : Layout struckWorld.region (struckFrames.map .committed ++ []) [] where
  fits := by decide
  holds := by
    refine ⟨⟨?_, ?_, ?_, ?_⟩, ⟨?_, ?_, ?_, ?_⟩, trivial⟩
    all_goals decide +kernel
  bound p hp := nomatch hp
  pinned p hp := nomatch hp
  distinct := .nil
  free cursor hle hlt := by
    change 0 + 2 ≤ cursor at hle
    change cursor < 0 + 2 at hlt
    omega

omit [Checksum] in
theorem struckChannel_ring : struckChannel.Ring ((struckFrames ++ []).map .committed) := by
  refine ⟨show 2 * 135 ≤ isizeMax by decide, rfl, rfl, by decide, rfl, by decide, rfl, ?_⟩
  intro k hk
  change k < 2 at hk
  obtain rfl | rfl : k = 0 ∨ k = 1 := by omega
  · exact ⟨by decide +kernel, by decide +kernel, by decide +kernel⟩
  · exact ⟨by decide +kernel, by decide +kernel, by decide +kernel⟩

omit [Checksum] in
/-- Neither channel takes the struck message for the one that was sent. -/
theorem bursts_detected_chunk :
    (∃ w', @recvWithSeq crc32Checksum sampleHost struckWorld =
        .error (.ofChannel .corruptedMessage) w') ∧
      ∃ ch', @ShmSpscChannel.recvWithSeq crc32Checksum struckChannel =
        .error (.ofChannel .corruptedMessage) ch' := by
  have hplan : sendPlan struckConfig struckMessage.length = .ok ⟨43, 2⟩ := by decide
  have hdetected := @bursts_detected crc32Checksum isCrc32 struckConfig ⟨43, 2⟩ 0 struckMessage
    struckFrames hplan (by decide) (by decide) struckFrames_struck (by decide +kernel)
  exact ⟨hdetected.1 sampleHost struckWorld [] [] ⟨rfl, by decide, by decide, by decide, by decide,
      rfl⟩ struckWorld_layout (by decide) (.inr (.inr rfl)),
    hdetected.2 struckChannel [] struckChannel_ring rfl⟩

end Dsline
