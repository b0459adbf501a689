import Dsline.Core.Crc
import Dsline.Shm.MessageCodec
/-!
# Chunked messages, there and back

The frames of a planned message are as many as the plan says, fit their
slots, and decode to chunks whose payloads make up the message. A receive
takes a list of stored frames as one message only where they are all the
frames of that message, in order (`chunks_round_trip`).
-/

namespace Dsline

variable [Checksum]

/-- A list of stored frames passes as one message: a receive that has read
the first takes all of them. -/
def Reassembles (snapshots : List SlotSnapshot) (message : ReceivedMessage) : Prop :=
  ∃ first rest left, snapshots = first :: rest ∧
    finishRecv Inbox.ops first ⟨snapshots, .pinned, 0, 0, none⟩ = .ok message left ∧
      left.frames = []

/-- The frames of a message as slots hold them. -/
def sentFrames (plan : SendPlan) (seq : UInt64) (bytes : Bytes) : List SlotSnapshot :=
  (messageFrames plan seq bytes).map (⟨seq, ·⟩)

/-- What the frames of a message decode to. -/
def decodedFrames (plan : SendPlan) (seq : UInt64) (bytes : Bytes) : List Frame :=
  if plan.neededSlots = 1 then [frameOf 0 seq [] bytes]
  else (chunks plan.chunkPayloadSize bytes).zipIdx.map fun (chunk, index) =>
    frameOf (chunkFlags index plan.neededSlots) seq
      (chunkTlvs index plan.neededSlots bytes.length) chunk

/-- The frame of chunk `index` of a message: it passes the checks a receive
makes of it, and its flags mark the first chunk and the last. -/
structure IsChunk (frame : Frame) (seq : UInt64) (info : ChunkInfo) : Prop where
  kind : frame.header.kind = .bytes
  sequence : frame.header.seq = seq
  valid : validateBytesFrame frame = .ok ()
  chunk : validateChunk frame seq info = .ok ()
  start : (frame.header.flags &&& FRAME_FLAG_CHUNK_START != 0) = decide (info.index = 0)
  stop : (frame.header.flags &&& FRAME_FLAG_CHUNK_END != 0) = decide (info.index + 1 = info.total)

section Decode

variable {config : SpscConfig} {plan : SendPlan} {seq : UInt64} {bytes : Bytes}

omit [Checksum] in
theorem mapM_map_ok {α β γ ε : Type} {f : β → Except ε γ} {e : α → β} {g : α → γ} {xs : List α}
    (h : ∀ x ∈ xs, f (e x) = .ok (g x)) : (xs.map e).mapM f = .ok (xs.map g) := by
  induction xs with
  | nil => rfl
  | cons x xs ih =>
      rw [List.map_cons, List.mapM_cons, h x List.mem_cons_self,
        ih fun y hy => h y (List.mem_cons_of_mem x hy)]
      rfl

omit [Checksum] in
/-- A chunk is no longer than the message. -/
theorem length_chunk_le {size i : ℕ} {chunk : Bytes} (h : (chunks size bytes)[i]? = some chunk) :
    chunk.length ≤ bytes.length := by
  obtain ⟨hi, rfl⟩ := List.getElem?_eq_some_iff.1 h
  rw [getElem_chunks, List.length_take, List.length_drop]
  omega

variable (seq) in
/-- **The frames of a message decode**, each to its chunk. -/
theorem mapM_decodeFrame (plan : SendPlan) (hlen : bytes.length ≤ isizeMax) :
    (messageFrames plan seq bytes).mapM decodeFrame = .ok (decodedFrames plan seq bytes) := by
  unfold messageFrames decodedFrames
  by_cases hone : plan.neededSlots = 1
  · rw [if_pos hone, if_pos hone, List.mapM_cons,
      decodeFrame_frameBytes seq 0 [] bytes (by decide) hlen]
    rfl
  · rw [if_neg hone, if_neg hone]
    refine mapM_map_ok fun ⟨chunk, index⟩ hx => ?_
    have hchunk := length_chunk_le (List.mk_mem_zipIdx_iff_getElem?.1 hx)
    exact decodeFrame_frameBytes _ _ _ _ (by rw [length_chunkTlvs]; decide) (by omega)

/-- **The payloads make up the message.** -/
theorem flatten_decodedFrames (hplan : sendPlan config bytes.length = .ok plan) :
    ((decodedFrames plan seq bytes).map Frame.payload).flatten = bytes := by
  unfold decodedFrames
  rcases sendPlan_ok hplan with ⟨-, rfl⟩ | ⟨h1, h2, h3, -, -⟩
  · rw [if_pos rfl]
    exact List.append_nil bytes
  · rw [if_neg (Nat.ne_of_gt (one_lt_neededSlots hplan h1)), List.map_map]
    have hpayload : (Frame.payload ∘ fun x : Bytes × ℕ => frameOf
        (chunkFlags x.2 plan.neededSlots) seq (chunkTlvs x.2 plan.neededSlots bytes.length) x.1) =
          Prod.fst := rfl
    rw [hpayload, List.zipIdx_map_fst]
    exact flatten_chunks _ _ (by omega)

/-- **A frame of a chunked message is its chunk.** -/
theorem decodedFrames_chunk (hplan : sendPlan config bytes.length = .ok plan)
    (hcap : config.capacity < wordCount) (hlen : bytes.length ≤ isizeMax)
    (hmany : 1 < plan.neededSlots) {i : ℕ} {frame : Frame}
    (hi : (decodedFrames plan seq bytes)[i]? = some frame) :
    i < plan.neededSlots ∧ IsChunk frame seq ⟨i, plan.neededSlots, bytes.length⟩ := by
  rcases sendPlan_ok hplan with ⟨-, rfl⟩ | ⟨-, -, -, h4, h5⟩
  · exact absurd hmany (Nat.lt_irrefl 1)
  have htotal : plan.neededSlots < 2 ^ 64 := Nat.lt_of_le_of_lt h5 hcap
  have hbytes : bytes.length < 2 ^ 64 := Nat.lt_of_le_of_lt hlen (by decide)
  have hn : (chunks plan.chunkPayloadSize bytes).length = plan.neededSlots := by
    rw [length_chunks, h4]
  rw [decodedFrames, if_neg (Nat.ne_of_gt hmany), List.getElem?_map, List.getElem?_zipIdx,
    Option.map_map, Option.map_eq_some_iff] at hi
  obtain ⟨chunk, hchunk, rfl⟩ := hi
  have hlt : i < plan.neededSlots := hn ▸ (List.getElem?_eq_some_iff.1 hchunk).1
  refine ⟨hlt, ?_⟩
  simp only [Function.comp_apply, Nat.zero_add]
  exact ⟨rfl, rfl, validateBytesFrame_frameOf,
    validateChunk_frameOf seq i plan.neededSlots bytes.length chunk hlt htotal hbytes,
    chunkFlags_start, chunkFlags_end⟩

/-- The stored frames of a message, one by one. -/
theorem decode_sentFrames (hlen : bytes.length ≤ isizeMax) {i : ℕ} {snapshot : SlotSnapshot}
    (hi : (sentFrames plan seq bytes)[i]? = some snapshot) :
    snapshot.seq = seq ∧ ∃ frame, decodeFrame snapshot.data = .ok frame ∧
      (decodedFrames plan seq bytes)[i]? = some frame := by
  unfold sentFrames messageFrames at hi
  unfold decodedFrames
  by_cases hone : plan.neededSlots = 1
  · rw [if_pos hone] at hi ⊢
    cases i with
    | zero =>
        cases hi
        exact ⟨rfl, _, decodeFrame_frameBytes seq 0 [] bytes (by decide) hlen, rfl⟩
    | succ i => cases hi
  · rw [if_neg hone, List.map_map, List.getElem?_map, Option.map_eq_some_iff] at hi
    obtain ⟨⟨chunk, index⟩, hx, rfl⟩ := hi
    have hchunk := length_chunk_le
      (List.mk_mem_zipIdx_iff_getElem?.1 (List.mem_of_getElem? hx))
    refine ⟨rfl, _, decodeFrame_frameBytes _ _ _ _ (by rw [length_chunkTlvs]; decide)
      (by omega), ?_⟩
    rw [if_neg hone, List.getElem?_map, hx]
    rfl

theorem length_sentFrames (hplan : sendPlan config bytes.length = .ok plan) :
    (sentFrames plan seq bytes).length = plan.neededSlots := by
  rw [sentFrames, List.length_map, length_messageFrames seq hplan]

end Decode

/-! ## What a receive takes -/

section Taken

variable {seq : UInt64} {first : ChunkInfo} {message : ReceivedMessage}
  {snapshot : SlotSnapshot} {frames : List SlotSnapshot}

/-- **What the chunk loop has taken** where it returns: as many frames as
it was to take, each of the chunk that was due. -/
theorem recvChunks_taken {remaining : ℕ} :
    ∀ {index : ℕ} {payload out : Bytes} {inbox left : Inbox}, inbox.front = .clean →
      recvChunks Inbox.ops seq first remaining index payload inbox = .ok out left →
      left.frames = inbox.frames.drop remaining ∧ remaining ≤ inbox.frames.length ∧
        ∀ j < remaining, ∃ snapshot frame, inbox.frames[j]? = some snapshot ∧
          snapshot.seq = seq ∧ decodeFrame snapshot.data = .ok frame ∧
            validateChunk frame seq { first with index := index + j } = .ok () := by
  induction remaining with
  | zero =>
      intro index payload out inbox left _ h
      unfold recvChunks at h
      split at h
      · cases h
      · cases h
        exact ⟨rfl, Nat.zero_le _, fun j hj => absurd hj (Nat.not_lt_zero j)⟩
  | succ remaining ih =>
      intro index payload out inbox left hfront h
      obtain ⟨frames, front, consumed, expected, last⟩ := inbox
      subst hfront
      cases frames with
      | nil => cases h
      | cons snapshot frames =>
          rw [recvChunks, Effect.bind_ok Inbox.ops_readNext] at h
          split at h
          · cases h
          rename_i hseq
          cases hdec : decodeFrame snapshot.data with
          | error err =>
              rw [hdec] at h
              cases h
          | ok frame =>
              simp only [hdec] at h
              cases hval : validateChunk frame seq { first with index } with
              | error err =>
                  simp only [hval] at h
                  cases h
              | ok =>
                  simp only [hval] at h
                  rw [Effect.bind_ok Inbox.ops_advance] at h
                  obtain ⟨hleft, hle, htaken⟩ := ih rfl h
                  refine ⟨hleft, Nat.succ_le_succ hle, fun j hj => ?_⟩
                  cases j with
                  | zero => exact ⟨snapshot, frame, rfl, not_not.1 hseq, hdec, hval⟩
                  | succ j =>
                      have hnext := htaken j (Nat.lt_of_succ_lt_succ hj)
                      rw [Nat.add_assoc, Nat.add_comm 1 j] at hnext
                      exact hnext

/-- **What a receive has taken** where it returns: one frame, or the chunks
that the first frame announces. -/
theorem finishRecv_taken {left : Inbox}
    (h : finishRecv Inbox.ops snapshot ⟨snapshot :: frames, .pinned, 0, 0, none⟩ =
      .ok message left) :
    ∃ frame, decodeFrame snapshot.data = .ok frame ∧
      ((isChunked frame = false ∧ left.frames = frames) ∨
        (isChunked frame = true ∧ ∃ info, chunkInfo frame = .ok info ∧ info.index = 0 ∧
          left.frames = frames.drop (info.total - 1) ∧ info.total - 1 ≤ frames.length ∧
            ∀ j < info.total - 1, ∃ next frame', frames[j]? = some next ∧
              next.seq = snapshot.seq ∧ decodeFrame next.data = .ok frame' ∧
                validateChunk frame' snapshot.seq { info with index := 1 + j } = .ok ())) := by
  have hskip {err : Failure} : (skipDamaged Inbox.ops err : EStateM Failure Inbox _)
      ⟨snapshot :: frames, .pinned, 0, 0, none⟩ ≠ .ok message left := fun h => nomatch h
  cases hdec : decodeFrame snapshot.data with
  | error err =>
      rw [finishRecv, hdec] at h
      exact absurd h hskip
  | ok frame =>
  refine ⟨frame, rfl, ?_⟩
  cases hval : validateBytesFrame frame with
  | error err =>
      simp only [finishRecv, hdec, hval] at h
      exact absurd h hskip
  | ok =>
  by_cases hseq : snapshot.seq = frame.header.seq
  swap
  · simp only [finishRecv, hdec, hval, if_pos hseq] at h
    exact absurd h hskip
  rw [finishRecv_of_valid hdec hval hseq] at h
  cases hchunked : isChunked frame with
  | false =>
      refine .inl ⟨rfl, ?_⟩
      rw [if_neg (by rw [hchunked]; exact Bool.false_ne_true)] at h
      cases h
      rfl
  | true =>
      refine .inr ⟨rfl, ?_⟩
      rw [if_pos hchunked, recvChunkedMessageWith] at h
      cases hinfo : chunkInfo frame with
      | error err =>
          simp only [hinfo] at h
          cases h
      | ok info =>
          simp only [hinfo] at h
          split at h
          · cases h
          rename_i hindex
          split at h
          · cases h
          have hrun : (Inbox.ops.advanceTailAfterRead >>= fun _ =>
              recvChunks Inbox.ops snapshot.seq info (info.total - 1) 1 frame.payload)
                ⟨snapshot :: frames, .pinned, 0, 0, none⟩ =
              recvChunks Inbox.ops snapshot.seq info (info.total - 1) 1 frame.payload
                ⟨frames, .clean, 1, 0, none⟩ := Effect.bind_ok Inbox.ops_advance
          -- The rest of the call returns what the chunk loop returned.
          cases hloop : recvChunks Inbox.ops snapshot.seq info (info.total - 1) 1 frame.payload
              ⟨frames, .clean, 1, 0, none⟩ with
          | error err inbox =>
              rw [Effect.bind_error (hrun.trans hloop)] at h
              cases h
          | ok payload inbox =>
              rw [Effect.bind_ok (hrun.trans hloop)] at h
              obtain ⟨hrest, hle, htaken⟩ := recvChunks_taken rfl hloop
              refine ⟨info, rfl, not_not.1 hindex, ?_, hle, htaken⟩
              cases h
              exact hrest

end Taken

/-! ## One message, whole and in order -/

/-- A stored frame that is no chunk of a message of this total and length. -/
def Foreign (total messageLen : ℕ) (snapshot : SlotSnapshot) : Prop :=
  ∀ frame, decodeFrame snapshot.data = .ok frame →
    ∀ seq i, validateChunk frame seq ⟨i, total, messageLen⟩ ≠ .ok ()

section Whole

variable {config config' : SpscConfig} {plan plan' : SendPlan} {seq seq' : UInt64}
  {bytes bytes' : Bytes} {snapshots : List SlotSnapshot} {message : ReceivedMessage}

/-- A chunk that passes announces what was expected. -/
theorem validateChunk_ok {frame : Frame} {info : ChunkInfo}
    (h : validateChunk frame seq info = .ok ()) :
    isChunked frame = true ∧ chunkInfo frame = .ok info := by
  simp only [validateChunk, bind, Except.bind] at h
  split at h
  · cases h
  split at h
  · cases h
  rename_i hseq
  split at h
  · cases h
  rename_i hinfo
  split at h
  · cases h
  rename_i hsame
  refine ⟨?_, (not_not.1 hsame) ▸ hinfo⟩
  by_contra hplain
  exact hseq (.inr hplain)

/-- The frames of a message of another total or length are foreign. -/
theorem foreign_of_ne (hplan' : sendPlan config' bytes'.length = .ok plan')
    (hcap' : config'.capacity < wordCount) (hlen' : bytes'.length ≤ isizeMax)
    (hne : plan'.neededSlots ≠ plan.neededSlots ∨ bytes'.length ≠ bytes.length)
    {snapshot : SlotSnapshot} (h : snapshot ∈ sentFrames plan' seq' bytes') :
    Foreign plan.neededSlots bytes.length snapshot := by
  intro frame hdec seq i hval
  obtain ⟨hchunked, hinfo⟩ := validateChunk_ok hval
  obtain ⟨k, hk⟩ := List.getElem?_of_mem h
  obtain ⟨-, frame', hdec', hget⟩ := decode_sentFrames hlen' hk
  obtain rfl : frame' = frame := Except.ok.inj (hdec'.symm.trans hdec)
  rcases Nat.lt_or_ge 1 plan'.neededSlots with hmany | hfew
  · obtain ⟨-, hchunk⟩ := decodedFrames_chunk hplan' hcap' hlen' hmany hget
    have hsame := Except.ok.inj ((validateChunk_ok hchunk.chunk).2.symm.trans hinfo)
    simp only [ChunkInfo.mk.injEq] at hsame
    rcases hne with hne | hne
    · exact hne hsame.2.1
    · exact hne hsame.2.2
  · -- The frame of a message of one slot is no chunk.
    have hpos := neededSlots_pos hplan'
    rw [decodedFrames, if_pos (by omega)] at hget
    obtain rfl := List.mem_singleton.1 (List.mem_of_getElem? hget)
    rw [isChunked_frameOf_zero] at hchunked
    cases hchunked

/-- **A list that starts like a message, and holds no chunk of another that
could pass for one of its own, is the message's frames.** -/
theorem reassembles_eq (hplan : sendPlan config bytes.length = .ok plan)
    (hcap : config.capacity < wordCount) (hlen : bytes.length ≤ isizeMax)
    (hpass : Reassembles snapshots message)
    (hfirst : ∀ s, snapshots.head? = some s → s ∈ sentFrames plan seq bytes)
    (hrest : ∀ s ∈ snapshots,
      s ∈ sentFrames plan seq bytes ∨ Foreign plan.neededSlots bytes.length s) :
    snapshots = sentFrames plan seq bytes := by
  obtain ⟨first, rest, left, rfl, hrun, hnil⟩ := hpass
  obtain ⟨k, hk⟩ := List.getElem?_of_mem (hfirst first rfl)
  obtain ⟨hseq, frame, hdec, hget⟩ := decode_sentFrames hlen hk
  obtain ⟨frame', hdec', htaken⟩ := finishRecv_taken hrun
  obtain rfl : frame' = frame := Except.ok.inj (hdec'.symm.trans hdec)
  have hcount := @length_sentFrames _ config plan seq bytes hplan
  rcases Nat.lt_or_ge 1 plan.neededSlots with hmany | hfew
  · obtain ⟨-, hchunk⟩ := decodedFrames_chunk hplan hcap hlen hmany hget
    obtain ⟨hchunked, hinfo⟩ := validateChunk_ok hchunk.chunk
    rcases htaken with ⟨hplain, -⟩ | ⟨-, info, hinfo', hzero, hleft, hle, hloop⟩
    · rw [hchunked] at hplain
      cases hplain
    obtain rfl := Except.ok.inj (hinfo.symm.trans hinfo')
    obtain rfl : k = 0 := hzero
    have hdrop : rest.drop (plan.neededSlots - 1) = [] := hleft.symm.trans hnil
    have hlength : rest.length ≤ plan.neededSlots - 1 := List.drop_eq_nil_iff.1 hdrop
    replace hle : plan.neededSlots - 1 ≤ rest.length := hle
    refine List.ext_getElem? fun i => ?_
    cases i with
    | zero => exact hk.symm
    | succ j =>
        rw [List.getElem?_cons_succ]
        rcases Nat.lt_or_ge j (plan.neededSlots - 1) with hj | hj
        · obtain ⟨next, next', hnext, -, hdecn, hvaln⟩ := hloop j hj
          rcases hrest next (List.mem_cons_of_mem _ (List.mem_of_getElem? hnext)) with hown | hfor
          · -- The chunk that was due is the one of its own index.
            obtain ⟨m, hm⟩ := List.getElem?_of_mem hown
            obtain ⟨-, other, hdeco, hgeto⟩ := decode_sentFrames hlen hm
            obtain rfl : other = next' := Except.ok.inj (hdeco.symm.trans hdecn)
            obtain ⟨-, hchunkn⟩ := decodedFrames_chunk hplan hcap hlen hmany hgeto
            have hsame := Except.ok.inj
              ((validateChunk_ok hchunkn.chunk).2.symm.trans (validateChunk_ok hvaln).2)
            have hindex : m = 1 + j := congrArg ChunkInfo.index hsame
            rw [hnext, ← hm, hindex, Nat.add_comm 1 j]
          · exact absurd hvaln (hfor next' hdecn _ _)
        · rw [List.getElem?_eq_none (by omega), List.getElem?_eq_none (by omega)]
  · -- A message of one slot is one frame, which is no chunk.
    have hpos := neededSlots_pos hplan
    have hone : plan.neededSlots = 1 := by omega
    rw [decodedFrames, if_pos hone] at hget
    obtain rfl := List.mem_singleton.1 (List.mem_of_getElem? hget)
    rcases htaken with ⟨-, hleft⟩ | ⟨hchunked, -⟩
    · obtain rfl : rest = [] := hleft.symm.trans hnil
      have hk0 : k = 0 := by
        have hlt := (List.getElem?_eq_some_iff.1 hk).1
        omega
      subst hk0
      obtain ⟨only, honly⟩ := List.length_eq_one_iff.1 (hcount.trans hone)
      rw [honly] at hk ⊢
      cases hk
      rfl
    · rw [isChunked_frameOf_zero] at hchunked
      cases hchunked

/-- **The frames of a message pass**, as the message. -/
theorem reassembles_sentFrames (hplan : sendPlan config bytes.length = .ok plan)
    (hcap : config.capacity < wordCount) (hlen : bytes.length ≤ isizeMax) :
    Reassembles (sentFrames plan seq bytes) ⟨seq, bytes⟩ := by
  obtain ⟨data, datas, hdatas, hrun⟩ := @delivers_messageFrames _ seq config plan bytes hplan hcap
    hlen
  have hall := hrun [] 0 0 none
  rw [List.append_nil] at hall
  refine ⟨⟨seq, data⟩, datas.map (⟨seq, ·⟩), _, ?_, hall, rfl⟩
  rw [sentFrames, hdatas]
  rfl

end Whole

/-- **Chunking round-trips.** An accepted message is encoded into as many
frames as its plan says, each of which fits a slot and, of several, decodes
to its chunk; the payloads make up the message. A receive takes the frames as
the message, and nothing else that is made of them, or of them and the
frames of a message of another total or length, but that message's. -/
theorem chunks_round_trip {config : SpscConfig} {plan : SendPlan} {bytes : Bytes}
    (seq : UInt64) (hcap : config.capacity < wordCount) (hlen : bytes.length ≤ isizeMax)
    (hplan : sendPlan config bytes.length = .ok plan) :
    ∃ frames decoded, encodeMessageFrames config plan seq bytes = .ok frames ∧
      frames.length = plan.neededSlots ∧
      (∀ frame ∈ frames, frame.length ≤ config.slotSize + FRAME_HEADER_LEN) ∧
      frames.mapM decodeFrame = .ok decoded ∧
      (decoded.map Frame.payload).flatten = bytes ∧
      (1 < plan.neededSlots → ∀ i frame, decoded[i]? = some frame →
        IsChunk frame seq ⟨i, plan.neededSlots, bytes.length⟩) ∧
      Reassembles (frames.map (⟨seq, ·⟩)) ⟨seq, bytes⟩ ∧
      (∀ snapshots message, (∀ s ∈ snapshots, s ∈ frames.map (⟨seq, ·⟩)) →
        Reassembles snapshots message → snapshots = frames.map (⟨seq, ·⟩)) ∧
      ∀ (config' : SpscConfig) (plan' : SendPlan) (seq' : UInt64) (bytes' : Bytes)
        (frames' : List Bytes), config'.capacity < wordCount → bytes'.length ≤ isizeMax →
        sendPlan config' bytes'.length = .ok plan' →
        encodeMessageFrames config' plan' seq' bytes' = .ok frames' →
        (plan'.neededSlots ≠ plan.neededSlots ∨ bytes'.length ≠ bytes.length) →
        ∀ snapshots message,
          (∀ s ∈ snapshots, s ∈ frames.map (⟨seq, ·⟩) ∨ s ∈ frames'.map (⟨seq', ·⟩)) →
          Reassembles snapshots message →
          snapshots = frames.map (⟨seq, ·⟩) ∨ snapshots = frames'.map (⟨seq', ·⟩) := by
  refine ⟨_, _, encodeMessageFrames_ok seq hplan hcap hlen, length_messageFrames seq hplan,
    fun frame hframe => length_le_of_mem_messageFrames hplan hframe,
    mapM_decodeFrame seq plan hlen, flatten_decodedFrames hplan,
    fun hmany i frame hi => (decodedFrames_chunk hplan hcap hlen hmany hi).2,
    reassembles_sentFrames hplan hcap hlen, fun snapshots message hown hpass => ?_, ?_⟩
  · exact reassembles_eq hplan hcap hlen hpass
      (fun s hs => hown s (List.mem_of_head? hs)) fun s hs => .inl (hown s hs)
  · intro config' plan' seq' bytes' frames' hcap' hlen' hplan' henc hne snapshots message hmix
      hpass
    obtain rfl := Except.ok.inj
      ((encodeMessageFrames_ok seq' hplan' hcap' hlen').symm.trans henc)
    have hne' := hne.imp Ne.symm Ne.symm
    obtain ⟨first, rest, left, rfl, hrun⟩ := id hpass
    -- Whichever message the first frame is of, the others of the list must be of it too.
    rcases hmix first List.mem_cons_self with hown | hother
    · refine .inl (reassembles_eq hplan hcap hlen hpass (fun s hs => ?_) fun s hs => ?_)
      · cases hs
        exact hown
      · exact (hmix s hs).imp_right (foreign_of_ne hplan' hcap' hlen' hne)
    · refine .inr (reassembles_eq hplan' hcap' hlen' hpass (fun s hs => ?_) fun s hs => ?_)
      · cases hs
        exact hother
      · exact (hmix s hs).symm.imp_right (foreign_of_ne hplan hcap hlen hne')

omit [Checksum] in
/-- A message of seven chunks. -/
theorem chunks_round_trip_seven :
    ∃ frames, @encodeMessageFrames crc32Checksum ⟨8, 50, .raise, none, false⟩ ⟨8, 7⟩ 3
        (List.replicate 51 1) = .ok frames ∧ frames.length = 7 := by
  obtain ⟨frames, -, henc, hlength, -⟩ := @chunks_round_trip crc32Checksum
    ⟨8, 50, .raise, none, false⟩ ⟨8, 7⟩ (List.replicate 51 1) 3 (by decide) (by decide) (by decide)
  exact ⟨frames, henc, hlength⟩

end Dsline
