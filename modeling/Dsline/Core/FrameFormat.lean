import Dsline.Core.Crc
import Dsline.Core.FrameCodec
import Mathlib.Tactic.NormNum
/-!
# The frame format

The decoder accepts exactly what the encoder writes, with anything behind
it: the bytes it reads are the fixed header, the TLVs the header length
covers and the payload, and each of them is the encoder's. What follows the
frame is not looked at.
-/

namespace Dsline

open LittleEndian

/-! ## Words -/

section Words

variable {bytes a : Bytes} {i j : ℕ}

theorem slice_ok (hij : i ≤ j) (hj : j ≤ bytes.length) :
    slice bytes i j = .ok ((bytes.drop i).take (j - i)) := if_pos ⟨hij, hj⟩

theorem slice_eq (h : slice bytes i j = .ok a) : a = (bytes.drop i).take (j - i) := by
  unfold slice at h
  split_ifs at h
  exact (Except.ok.inj h).symm

theorem readU16_ok (h : i + 2 ≤ bytes.length) : ∃ v, readU16 bytes i = .ok v := by
  rw [readU16, slice_ok (by omega) h]
  exact ⟨_, rfl⟩

theorem readU32_ok (h : i + 4 ≤ bytes.length) : ∃ v, readU32 bytes i = .ok v := by
  rw [readU32, slice_ok (by omega) h]
  exact ⟨_, rfl⟩

theorem readU64_ok (h : i + 8 ≤ bytes.length) : ∃ v, readU64 bytes i = .ok v := by
  rw [readU64, slice_ok (by omega) h]
  exact ⟨_, rfl⟩

/-- The bytes of a slice are those of its little-endian value. -/
theorem leBytes_of_slice {n : ℕ} {a : Bytes} (h : slice bytes i (i + n) = .ok a) :
    i + n ≤ bytes.length ∧ leNat a < 256 ^ n ∧
      (bytes.drop i).take n = leBytes n (leNat a) := by
  obtain ⟨hle, hlen⟩ := length_of_slice h
  have ha := slice_eq h
  rw [Nat.add_sub_cancel_left] at ha hlen
  have hlt := leNat_lt a
  rw [hlen] at hlt
  refine ⟨hle, hlt, ha.symm.trans ?_⟩
  conv_rhs => rw [← hlen]
  exact (leBytes_leNat a).symm

/-- **A word that was read is written there.** -/
theorem pushU16_of_read {v : UInt16} (h : readU16 bytes i = .ok v) :
    i + 2 ≤ bytes.length ∧ (bytes.drop i).take 2 = pushU16 v := by
  cases hs : slice bytes i (i + 2) with
  | error err =>
      rw [readU16, hs] at h
      cases h
  | ok a =>
      obtain ⟨hle, hlt, htake⟩ := leBytes_of_slice hs
      rw [readU16, hs] at h
      obtain rfl : UInt16.ofNat (leNat a) = v := Except.ok.inj h
      rw [pushU16, UInt16.toNat_ofNat', Nat.mod_eq_of_lt (by norm_num at hlt ⊢; exact hlt)]
      exact ⟨hle, htake⟩

theorem pushU32_of_read {v : UInt32} (h : readU32 bytes i = .ok v) :
    i + 4 ≤ bytes.length ∧ (bytes.drop i).take 4 = pushU32 v := by
  cases hs : slice bytes i (i + 4) with
  | error err =>
      rw [readU32, hs] at h
      cases h
  | ok a =>
      obtain ⟨hle, hlt, htake⟩ := leBytes_of_slice hs
      rw [readU32, hs] at h
      obtain rfl : UInt32.ofNat (leNat a) = v := Except.ok.inj h
      rw [pushU32, UInt32.toNat_ofNat', Nat.mod_eq_of_lt (by norm_num at hlt ⊢; exact hlt)]
      exact ⟨hle, htake⟩

theorem pushU64_of_read {v : UInt64} (h : readU64 bytes i = .ok v) :
    i + 8 ≤ bytes.length ∧ (bytes.drop i).take 8 = pushU64 v := by
  cases hs : slice bytes i (i + 8) with
  | error err =>
      rw [readU64, hs] at h
      cases h
  | ok a =>
      obtain ⟨hle, hlt, htake⟩ := leBytes_of_slice hs
      rw [readU64, hs] at h
      obtain rfl : UInt64.ofNat (leNat a) = v := Except.ok.inj h
      rw [pushU64, UInt64.toNat_ofNat', Nat.mod_eq_of_lt (by norm_num at hlt ⊢; exact hlt)]
      exact ⟨hle, htake⟩

end Words

/-! ## What the decoder read -/

section Read

variable {bytes : Bytes} {header : FrameHeader} {total headerLen : ℕ} {items : List Metadata}

theorem toUInt16_of_tryFrom {value : UInt16} {kind : FrameKind}
    (h : FrameKind.tryFrom value = .ok kind) : kind.toUInt16 = value := by
  unfold FrameKind.tryFrom at h
  split_ifs at h with h1 h2 h3 h4 <;> cases h <;> simp only [FrameKind.toUInt16, *]

/-- **The fixed header that was read is written there.** -/
theorem headerBytes_of_decode (h : decodeFrameHeader bytes = .ok (header, total)) :
    bytes.take FRAME_HEADER_LEN = headerBytes header.kind header.flags header.seq
        header.timestampNs header.schemaHash header.checksum header.payloadLen.toNat
        header.headerLen.toNat [] ∧
      FRAME_HEADER_LEN ≤ header.headerLen.toNat := by
  have hlen := length_of_decodeFrameHeader h
  simp only [decodeFrameHeader, if_neg (Nat.not_lt.2 hlen), bind, Except.bind, pure,
    Except.pure] at h
  split at h
  · cases h
  rename_i magic hmagic
  split_ifs at h with hm
  split at h
  · cases h
  rename_i version hversion
  split_ifs at h with hv
  split at h
  · cases h
  rename_i flags hflags
  split at h
  · cases h
  rename_i kindWord hkindWord
  split at h
  · cases h
  rename_i kind hkind
  split at h
  · cases h
  rename_i headerLen hheaderLen
  split_ifs at h with hmin
  split at h
  · cases h
  rename_i payloadLen hpayloadLen
  split at h
  · cases h
  rename_i seq hseq
  split at h
  · cases h
  rename_i timestampNs htimestampNs
  split at h
  · cases h
  rename_i schemaHash hschemaHash
  split at h
  · cases h
  rename_i checksum hchecksum
  split at h
  · cases h
  cases h
  simp only [not_not] at hm hv
  refine ⟨?_, Nat.le_of_not_lt hmin⟩
  -- The ten fields lie one behind the other.
  have hsplit : bytes.take FRAME_HEADER_LEN =
      (bytes.drop 0).take 4 ++ (bytes.drop 4).take 2 ++ (bytes.drop 6).take 2 ++
        (bytes.drop 8).take 2 ++ (bytes.drop 10).take 4 ++ (bytes.drop 14).take 8 ++
        (bytes.drop 22).take 8 ++ (bytes.drop 30).take 8 ++ (bytes.drop 38).take 8 ++
        (bytes.drop 46).take 4 := by
    simp only [List.drop_zero, ← List.take_add, Nat.reduceAdd]
  rw [hsplit, (pushU32_of_read hmagic).2, (pushU16_of_read hversion).2,
    (pushU16_of_read hflags).2, (pushU16_of_read hkindWord).2, (pushU32_of_read hheaderLen).2,
    (pushU64_of_read hpayloadLen).2, (pushU64_of_read hseq).2, (pushU64_of_read htimestampNs).2,
    (pushU64_of_read hschemaHash).2, (pushU32_of_read hchecksum).2]
  simp only [headerBytes, List.flatMap_nil, List.append_nil, UInt32.ofNat_toNat,
    UInt64.ofNat_toNat, toUInt16_of_tryFrom hkind, hm, hv]

/-- **The TLVs that were read are written there.** The induction is on the
rounds; each takes the TLV at its offset off the front. -/
theorem encodeMetadata_of_decode :
    ∀ {rounds offset : ℕ} {items : List Metadata}, headerLen ≤ offset + rounds →
      offset ≤ headerLen → decodeMetadataFrom bytes headerLen rounds offset = .ok items →
      items.flatMap encodeMetadata = (bytes.drop offset).take (headerLen - offset) := by
  intro rounds
  induction rounds with
  | zero =>
      intro offset items hrounds hoff h
      obtain rfl : [] = items := Except.ok.inj h
      rw [show headerLen - offset = 0 by omega]
      rfl
  | succ rounds ih =>
      intro offset items hrounds hoff h
      simp only [decodeMetadataFrom, bind, Except.bind, pure, Except.pure] at h
      split_ifs at h with hend hshort
      · obtain rfl : [] = items := Except.ok.inj h
        rw [show headerLen - offset = 0 by omega]
        rfl
      · split at h
        · cases h
        rename_i ty hty
        split at h
        · cases h
        rename_i len hlenRead
        split at h
        · cases h
        rename_i valueEnd hadd
        split_ifs at h with hover
        split at h
        · cases h
        rename_i value hvalue
        split at h
        · cases h
        rename_i rest hrest
        cases h
        obtain rfl : offset + TLV_HEADER_LEN + len.toNat = valueEnd := by
          unfold checkedAdd at hadd
          split_ifs at hadd
          exact Option.some.inj hadd
        simp only [TLV_HEADER_LEN] at *
        have hrec := ih (by omega) (by omega) hrest
        obtain ⟨-, hvlen⟩ := length_of_slice hvalue
        have hval := slice_eq hvalue
        rw [List.flatMap_cons, hrec, encodeMetadata, hvlen, ← (pushU16_of_read hty).2]
        have hn : offset + 6 + len.toNat - (offset + 6) = len.toNat := by omega
        rw [hn] at hval ⊢
        rw [UInt32.ofNat_toNat, ← (pushU32_of_read hlenRead).2, hval]
        have hsplit : headerLen - offset =
            2 + 4 + len.toNat + (headerLen - (offset + 6 + len.toNat)) := by omega
        rw [hsplit, List.take_add, List.take_add, List.take_add, List.drop_drop, List.drop_drop,
          List.drop_drop]
        simp only [Nat.reduceAdd, ← Nat.add_assoc]

end Read

/-! ## No read out of bounds -/

section Bounds

variable {bytes : Bytes}

theorem decodeFrameHeader_no_panic : decodeFrameHeader bytes ≠ .error .panic := by
  intro h
  unfold decodeFrameHeader at h
  split at h
  · cases h
  rename_i hlen
  have h16 : ∀ i, i + 2 ≤ FRAME_HEADER_LEN → ∃ v, readU16 bytes i = .ok v :=
    fun i hi => readU16_ok (by omega)
  have h32 : ∀ i, i + 4 ≤ FRAME_HEADER_LEN → ∃ v, readU32 bytes i = .ok v :=
    fun i hi => readU32_ok (by omega)
  have h64 : ∀ i, i + 8 ≤ FRAME_HEADER_LEN → ∃ v, readU64 bytes i = .ok v :=
    fun i hi => readU64_ok (by omega)
  obtain ⟨magic, h0⟩ := h32 0 (by decide)
  obtain ⟨version, h4⟩ := h16 4 (by decide)
  obtain ⟨flags, h6⟩ := h16 6 (by decide)
  obtain ⟨kindWord, h8⟩ := h16 8 (by decide)
  obtain ⟨headerLen, h10⟩ := h32 10 (by decide)
  obtain ⟨payloadLen, h14⟩ := h64 14 (by decide)
  obtain ⟨seq, h22⟩ := h64 22 (by decide)
  obtain ⟨timestampNs, h30⟩ := h64 30 (by decide)
  obtain ⟨schemaHash, h38⟩ := h64 38 (by decide)
  obtain ⟨checksum, h46⟩ := h32 46 (by decide)
  simp only [h0, h4, h6, h8, h10, h14, h22, h30, h38, h46, bind, Except.bind, pure,
    Except.pure] at h
  by_cases hmagic : magic ≠ FRAME_MAGIC
  · rw [if_pos hmagic] at h
    cases h
  rw [if_neg hmagic] at h
  by_cases hversion : version ≠ FRAME_VERSION
  · simp only [if_pos hversion] at h
    cases h
  simp only [if_neg hversion] at h
  cases hkind : FrameKind.tryFrom kindWord with
  | error err =>
      rw [hkind] at h
      unfold FrameKind.tryFrom at hkind
      split_ifs at hkind
      cases hkind
      cases h
  | ok kind =>
      rw [hkind] at h
      by_cases hmin : headerLen.toNat < FRAME_HEADER_LEN
      · simp only [if_pos hmin] at h
        cases h
      · simp only [if_neg hmin] at h
        split at h
        · cases h
        · cases h

theorem decodeMetadataFrom_no_panic {headerLen : ℕ} (hle : headerLen ≤ bytes.length) :
    ∀ {rounds offset : ℕ}, decodeMetadataFrom bytes headerLen rounds offset ≠ .error .panic := by
  intro rounds
  induction rounds with
  | zero => exact fun h => by cases h
  | succ rounds ih =>
      intro offset h
      rw [decodeMetadataFrom] at h
      split at h
      · cases h
      rename_i hin
      split at h
      · cases h
      rename_i hroom
      simp only [TLV_HEADER_LEN] at *
      obtain ⟨ty, hty⟩ : ∃ v, readU16 bytes offset = .ok v := readU16_ok (by omega)
      obtain ⟨len, hlen⟩ : ∃ v, readU32 bytes (offset + 2) = .ok v := readU32_ok (by omega)
      simp only [hty, hlen, bind, Except.bind, pure, Except.pure] at h
      split at h
      · cases h
      rename_i valueEnd hadd
      split at h
      · cases h
      rename_i hend
      obtain rfl : offset + 6 + len.toNat = valueEnd := by
        unfold checkedAdd at hadd
        split_ifs at hadd
        exact Option.some.inj hadd
      rw [slice_ok (by omega) (by omega)] at h
      simp only at h
      split at h
      · rename_i err hrest
        cases h
        exact ih hrest
      · cases h

/-- **No input makes the decoder index out of bounds.** -/
theorem decodeFrame_no_panic : decodeFrame bytes ≠ .error .panic := by
  intro h
  simp only [decodeFrame, bind, Except.bind, pure, Except.pure] at h
  split at h
  · rename_i err hdr
    cases h
    exact decodeFrameHeader_no_panic hdr
  rename_i read hdr
  by_cases hshort : bytes.length < read.1.headerLen.toNat
  · simp only [if_pos hshort] at h
    cases h
  by_cases hpayload : bytes.length - read.1.headerLen.toNat < read.1.payloadLen.toNat
  · simp only [if_neg hshort, if_pos hpayload] at h
    cases h
  simp only [if_neg hshort, if_neg hpayload] at h
  split at h
  · rename_i err hmeta
    cases h
    exact decodeMetadataFrom_no_panic (Nat.le_of_not_lt hshort) hmeta
  rw [slice_ok (by omega) (by omega)] at h
  cases h

end Bounds

/-! ## The format -/

/-- What a frame is made of. -/
structure FrameParts where
  kind : FrameKind
  flags : UInt16
  seq : UInt64
  timestampNs : UInt64
  schemaHash : UInt64
  checksum : UInt32
  metadata : List Metadata
  payload : Bytes
  deriving DecidableEq, Repr

namespace FrameParts

/-- The bytes the TLVs take. -/
def tlvLen (metadata : List Metadata) : ℕ :=
  (metadata.map fun item => TLV_HEADER_LEN + item.value.length).sum

/-- The header the encoder writes for the parts. -/
def header (p : FrameParts) : Except Failure Bytes :=
  encodeFrameHeader p.kind p.flags p.seq p.timestampNs p.schemaHash p.checksum p.payload.length
    p.metadata

/-- The frame of the parts. -/
def frame (p : FrameParts) : Frame where
  header :=
    { flags := p.flags, kind := p.kind,
      headerLen := UInt32.ofNat (FRAME_HEADER_LEN + tlvLen p.metadata),
      payloadLen := UInt64.ofNat p.payload.length, seq := p.seq, timestampNs := p.timestampNs,
      schemaHash := p.schemaHash, checksum := p.checksum }
  metadata := p.metadata
  payload := p.payload

/-- The parts a frame records. -/
def ofFrame (frame : Frame) : FrameParts where
  kind := frame.header.kind
  flags := frame.header.flags
  seq := frame.header.seq
  timestampNs := frame.header.timestampNs
  schemaHash := frame.header.schemaHash
  checksum := frame.header.checksum
  metadata := frame.metadata
  payload := frame.payload

/-- **The bytes begin with the encoded parts**, and `rest` is behind them. -/
def Begin (p : FrameParts) (bytes rest : Bytes) : Prop :=
  FRAME_HEADER_LEN + tlvLen p.metadata < 2 ^ 32 ∧
    ∃ header, p.header = .ok header ∧ bytes = header ++ p.payload ++ rest

end FrameParts

section Format

open FrameParts

variable {p p' : FrameParts} {bytes rest rest' : Bytes} {frame : Frame}

theorem tlvLen_eq (metadata : List Metadata) :
    tlvLen metadata = (metadata.flatMap encodeMetadata).length := by
  induction metadata with
  | nil => rfl
  | cons item items ih =>
      rw [length_flatMap_cons, ← ih]
      rfl

/-- The encoder's sum of the TLVs. -/
theorem metadataLen_from (metadata : List Metadata) :
    ∀ total n : ℕ, metadata.foldlM (fun total item => do
        checkedAdd (← checkedAdd total TLV_HEADER_LEN) item.value.length) total = some n ↔
      n = total + tlvLen metadata ∧ (metadata = [] ∨ n < wordCount) := by
  induction metadata with
  | nil =>
      intro total n
      simp [tlvLen, eq_comm]
  | cons item items ih =>
      intro total n
      have hcons : tlvLen (item :: items) = TLV_HEADER_LEN + item.value.length + tlvLen items :=
        rfl
      rw [List.foldlM_cons]
      simp only [checkedAdd, Option.bind_eq_bind]
      by_cases h1 : total + TLV_HEADER_LEN < wordCount
      · rw [if_pos h1, Option.bind_some]
        by_cases h2 : total + TLV_HEADER_LEN + item.value.length < wordCount
        · rw [if_pos h2, Option.bind_some]
          have hrec := ih (total + TLV_HEADER_LEN + item.value.length) n
          simp only [checkedAdd, Option.bind_eq_bind] at hrec
          rw [hrec]
          simp only [reduceCtorEq, false_or]
          constructor
          · rintro ⟨hn, rfl | hw⟩
            · have hz : tlvLen ([] : List Metadata) = 0 := rfl
              exact ⟨by omega, by omega⟩
            · exact ⟨by omega, hw⟩
          · rintro ⟨hn, hw⟩
            exact ⟨by omega, .inr hw⟩
        · rw [if_neg h2]
          simp only [Option.bind_none, reduceCtorEq, false_or, false_iff]
          omega
      · rw [if_neg h1]
        simp only [Option.bind_none, reduceCtorEq, false_or, false_iff]
        omega

/-- **What the encoder accepts, and what it writes.** -/
theorem header_eq_ok {header : Bytes} :
    p.header = .ok header ↔
      FRAME_HEADER_LEN + tlvLen p.metadata < 2 ^ 32 ∧ p.payload.length < 2 ^ 64 ∧
        header = headerBytes p.kind p.flags p.seq p.timestampNs p.schemaHash p.checksum
          p.payload.length (FRAME_HEADER_LEN + tlvLen p.metadata) p.metadata := by
  unfold FrameParts.header encodeFrameHeader
  cases hm : metadataLen p.metadata with
  | none =>
      simp only [Option.bind_none, reduceCtorEq, false_iff]
      rintro ⟨hlt, -, -⟩
      have hsome := (metadataLen_from p.metadata 0 (tlvLen p.metadata)).2
        ⟨by omega, .inr (by simp only [wordCount]; omega)⟩
      unfold metadataLen at hm
      rw [hm] at hsome
      cases hsome
  | some n =>
      obtain ⟨hn, -⟩ := (metadataLen_from p.metadata 0 n).1 hm
      rw [Nat.zero_add] at hn
      subst hn
      rw [Option.bind_some, checkedAdd]
      by_cases hw : FRAME_HEADER_LEN + tlvLen p.metadata < wordCount
      · rw [if_pos hw]
        simp only
        by_cases hlt : FRAME_HEADER_LEN + tlvLen p.metadata < 2 ^ 32 ∧ p.payload.length < 2 ^ 64
        · rw [if_pos hlt]
          simp only [Except.ok.injEq, hlt, true_and, eq_comm]
        · rw [if_neg hlt]
          simp only [reduceCtorEq, false_iff]
          exact fun h => hlt ⟨h.1, h.2.1⟩
      · rw [if_neg hw]
        simp only [reduceCtorEq, false_iff]
        rintro ⟨hlt, -, -⟩
        simp only [wordCount] at hw
        omega

/-- The frame the codec has for the parts. -/
theorem frame_eq : p.frame = framed p.kind p.flags p.seq p.timestampNs p.schemaHash p.checksum
    p.metadata p.payload := by
  rw [FrameParts.frame, framed, tlvLen_eq]

/-- **What begins with encoded parts decodes to them.** -/
theorem FrameParts.Begin.decode (h : p.Begin bytes rest) (hb : bytes.length ≤ isizeMax) :
    decodeFrame bytes = .ok p.frame := by
  obtain ⟨hlt, header, hheader, rfl⟩ := h
  obtain ⟨-, -, rfl⟩ := header_eq_ok.1 hheader
  rw [List.length_append, List.length_append] at hb
  rw [tlvLen_eq] at hlt ⊢
  rw [List.append_assoc, frame_eq]
  exact decodeFrame_encoded p.kind p.flags p.seq p.timestampNs p.schemaHash p.checksum rest hlt
    (by omega)

/-- **What decodes begins with the encoded parts of what it decodes to.** -/
theorem begin_of_decode (h : decodeFrame bytes = .ok frame) (hb : bytes.length ≤ isizeMax) :
    (ofFrame frame).Begin bytes
        (bytes.drop (frame.header.headerLen.toNat + frame.header.payloadLen.toNat)) ∧
      frame = (ofFrame frame).frame := by
  simp only [decodeFrame, bind, Except.bind, pure, Except.pure] at h
  split at h
  · cases h
  rename_i read hdr
  obtain ⟨header, total⟩ := read
  simp only at h
  split_ifs at h with hshort hpayload
  split at h
  · cases h
  rename_i metadata hmeta
  split at h
  · cases h
  rename_i payload hslice
  cases h
  obtain ⟨hfixed, hmin⟩ := headerBytes_of_decode hdr
  obtain ⟨hend, hlen⟩ := length_of_slice hslice
  have hpay := slice_eq hslice
  rw [Nat.add_sub_cancel_left] at hlen hpay
  have htlvs := encodeMetadata_of_decode (Nat.le_add_left _ _) hmin hmeta
  have htlv : tlvLen metadata = header.headerLen.toNat - FRAME_HEADER_LEN := by
    rw [tlvLen_eq, htlvs, List.length_take, List.length_drop]
    omega
  have hheader : FRAME_HEADER_LEN + tlvLen metadata = header.headerLen.toNat := by omega
  have h32 := header.headerLen.toNat_lt
  refine ⟨⟨by show FRAME_HEADER_LEN + tlvLen metadata < _; omega, _, header_eq_ok.2 ⟨?_, ?_, rfl⟩,
    ?_⟩, ?_⟩
  · show FRAME_HEADER_LEN + tlvLen metadata < _
    omega
  · show payload.length < _
    simp only [isizeMax] at hb
    omega
  · -- The fixed header, the TLVs and the payload are the first bytes, in turn.
    show bytes = headerBytes header.kind header.flags header.seq header.timestampNs
      header.schemaHash header.checksum payload.length (FRAME_HEADER_LEN + tlvLen metadata)
      metadata ++ payload ++ _
    have hsplit : headerBytes header.kind header.flags header.seq header.timestampNs
        header.schemaHash header.checksum payload.length (FRAME_HEADER_LEN + tlvLen metadata)
        metadata = headerBytes header.kind header.flags header.seq header.timestampNs
          header.schemaHash header.checksum payload.length
          (FRAME_HEADER_LEN + tlvLen metadata) [] ++ metadata.flatMap encodeMetadata := by
      simp only [headerBytes, List.flatMap_nil, List.append_nil]
    rw [hsplit, htlvs, hheader, hlen, ← hfixed, hpay]
    have htake : bytes.take FRAME_HEADER_LEN ++
        (bytes.drop FRAME_HEADER_LEN).take (header.headerLen.toNat - FRAME_HEADER_LEN) =
          bytes.take header.headerLen.toNat := by
      rw [← List.take_add, Nat.add_sub_cancel' hmin]
    rw [htake, ← List.take_add, List.take_append_drop]
  · show (⟨header, metadata, payload⟩ : Frame) = _
    simp only [FrameParts.frame, ofFrame, hheader, hlen, UInt32.ofNat_toNat, UInt64.ofNat_toNat]

/-- **The decoder accepts exactly the encoder's format.** Bytes decode to a
frame where they begin with the encoded parts of it, which are then the only
ones they begin with; what was encoded decodes to what it was; and nothing
makes the decoder read out of bounds. -/
theorem decodeFrame_format [Checksum] (hb : bytes.length ≤ isizeMax) :
    (∀ frame, decodeFrame bytes = .ok frame ↔
        ∃ p rest, FrameParts.Begin p bytes rest ∧ frame = p.frame) ∧
      (∀ p rest p' rest', FrameParts.Begin p bytes rest → FrameParts.Begin p' bytes rest' →
        p = p' ∧ rest = rest') ∧
      (∀ kind flags seq timestampNs schemaHash metadata payload,
        encodeFrame kind flags seq timestampNs schemaHash metadata payload = .ok bytes →
          decodeFrame bytes = .ok (FrameParts.frame
            ⟨kind, flags, seq, timestampNs, schemaHash, checksum32 payload, metadata, payload⟩)) ∧
      (∀ frame, decodeFrame bytes = .ok frame → ∃ header, (ofFrame frame).header = .ok header ∧
        header ++ frame.payload =
          bytes.take (frame.header.headerLen.toNat + frame.header.payloadLen.toNat)) ∧
      decodeFrame bytes ≠ .error .panic := by
  refine ⟨fun frame => ⟨fun h => ?_, ?_⟩, ?_, ?_, ?_, decodeFrame_no_panic⟩
  · obtain ⟨hbegin, hframe⟩ := begin_of_decode h hb
    exact ⟨_, _, hbegin, hframe⟩
  · rintro ⟨p, rest, hbegin, rfl⟩
    exact hbegin.decode hb
  · intro p rest p' rest' h h'
    -- Both decode to one frame, which has the parts; the header then fixes the rest.
    have hframe : p.frame = p'.frame := Except.ok.inj ((h.decode hb).symm.trans (h'.decode hb))
    obtain rfl : p = p' := congrArg ofFrame hframe
    obtain ⟨-, header, hheader, hbytes⟩ := h
    obtain ⟨-, header', hheader', hbytes'⟩ := h'
    obtain rfl := Except.ok.inj (hheader.symm.trans hheader')
    exact ⟨rfl, List.append_cancel_left (hbytes.symm.trans hbytes')⟩
  · intro kind flags seq timestampNs schemaHash metadata payload h
    let p : FrameParts :=
      ⟨kind, flags, seq, timestampNs, schemaHash, checksum32 payload, metadata, payload⟩
    show decodeFrame bytes = .ok p.frame
    simp only [encodeFrame, bind, Except.bind, pure, Except.pure] at h
    split at h
    · cases h
    rename_i header hheader
    obtain rfl := Except.ok.inj h
    have hbegin : p.Begin (header ++ payload) [] :=
      ⟨(header_eq_ok (p := p).1 hheader).1, header, hheader, (List.append_nil _).symm⟩
    exact hbegin.decode hb
  · intro frame h
    obtain ⟨⟨-, header, hheader, hbytes⟩, -⟩ := begin_of_decode h hb
    refine ⟨header, hheader, ?_⟩
    have hsplit := List.take_append_drop
      (frame.header.headerLen.toNat + frame.header.payloadLen.toNat) bytes
    exact List.append_cancel_right (hbytes.symm.trans hsplit.symm)

/-- A frame with one TLV. -/
def sampleParts : FrameParts := ⟨.bytes, 0, 7, 1, 2, 3, [⟨100, [1]⟩], [5, 6]⟩

/-- The frame, and a byte behind it. -/
def sampleFrame : Bytes :=
  headerBytes .bytes 0 7 1 2 3 2 57 [⟨100, [1]⟩] ++ [5, 6] ++ [9]

theorem decodeFrame_format_sample : decodeFrame sampleFrame = .ok sampleParts.frame :=
  ((@decodeFrame_format sampleFrame crc32Checksum (by decide)).1 _).2
    ⟨sampleParts, [9], ⟨by decide, _, rfl, rfl⟩, rfl⟩

end Format

end Dsline
