import Dsline.Core.Frame
import Mathlib.Tactic.SplitIfs
/-!
# The frame codec

An encoded frame decodes to what was encoded, whatever bytes follow it
(`decodeFrame_encoded`), and no proper prefix of a frame decodes
(`decodeFrame_take_error`): the header announces the whole length, and the
decoder compares it with what it was given. The second fact is what a
reader of a slot with a truncated length meets.
-/

namespace Dsline

open LittleEndian

/-! ## Slices -/

section Slice

variable {a b bytes : Bytes} {i j m start stop : ℕ}

theorem slice_append_right (h : a.length ≤ i) (hij : i ≤ j) :
    slice (a ++ b) i j = slice b (i - a.length) (j - a.length) := by
  unfold slice
  have hlen : j ≤ (a ++ b).length ↔ j - a.length ≤ b.length := by
    rw [List.length_append]; omega
  have hsub : j - a.length - (i - a.length) = j - i := by omega
  simp only [hlen, hij, show i - a.length ≤ j - a.length by omega, true_and, hsub,
    List.drop_append, List.drop_eq_nil_of_le h, List.nil_append]

theorem slice_append_left (h : j = a.length) : slice (a ++ b) 0 j = .ok a := by
  subst h
  simp [slice]

/-- A slice that ends inside a prefix is a slice of the prefix. -/
theorem slice_take (hij : i ≤ j) (hj : j ≤ m) (hm : m ≤ bytes.length) :
    slice (bytes.take m) i j = slice bytes i j := by
  unfold slice
  have h1 : j ≤ (bytes.take m).length := by rw [List.length_take]; omega
  simp only [hij, h1, show j ≤ bytes.length by omega, and_self, if_true, List.drop_take,
    List.take_take, show min (j - i) (m - i) = j - i by omega]

theorem length_of_slice (h : slice bytes start stop = .ok a) :
    stop ≤ bytes.length ∧ a.length = stop - start := by
  unfold slice at h
  split_ifs at h with hc
  cases h
  refine ⟨hc.2, ?_⟩
  rw [List.length_take, List.length_drop]
  omega

end Slice

@[simp] theorem length_pushU16 (v : UInt16) : (pushU16 v).length = 2 := length_leBytes 2 _
@[simp] theorem length_pushU32 (v : UInt32) : (pushU32 v).length = 4 := length_leBytes 4 _
@[simp] theorem length_pushU64 (v : UInt64) : (pushU64 v).length = 8 := length_leBytes 8 _

theorem uInt16_leNat_pushU16 (v : UInt16) : UInt16.ofNat (leNat (pushU16 v)) = v := by
  have hv : v.toNat < 256 ^ 2 := v.toNat_lt
  rw [pushU16, leNat_leBytes_of_lt hv, UInt16.ofNat_toNat]

theorem uInt32_leNat_pushU32 (v : UInt32) : UInt32.ofNat (leNat (pushU32 v)) = v := by
  have hv : v.toNat < 256 ^ 4 := v.toNat_lt
  rw [pushU32, leNat_leBytes_of_lt hv, UInt32.ofNat_toNat]

theorem uInt64_leNat_pushU64 (v : UInt64) : UInt64.ofNat (leNat (pushU64 v)) = v := by
  have hv : v.toNat < 256 ^ 8 := v.toNat_lt
  rw [pushU64, leNat_leBytes_of_lt hv, UInt64.ofNat_toNat]

/-! ## The fixed header -/

section Header

variable {kind : FrameKind} {flags : UInt16} {seq timestampNs schemaHash : UInt64}
  {checksum : UInt32} {payloadLen headerLen : ℕ} {metadata : List Metadata} {rest : Bytes}

theorem length_headerBytes :
    (headerBytes kind flags seq timestampNs schemaHash checksum payloadLen headerLen
      metadata).length = FRAME_HEADER_LEN + (metadata.flatMap encodeMetadata).length := by
  simp only [headerBytes, List.length_append, length_pushU16, length_pushU32, length_pushU64]

variable (kind flags seq timestampNs schemaHash checksum payloadLen metadata rest) in
/-- **The fixed header reads back**, whatever follows it. -/
theorem decodeFrameHeader_headerBytes (hmin : FRAME_HEADER_LEN ≤ headerLen)
    (hhdr : headerLen < 2 ^ 32) (hsum : headerLen + payloadLen < wordCount) :
    decodeFrameHeader (headerBytes kind flags seq timestampNs schemaHash checksum payloadLen
        headerLen metadata ++ rest) =
      .ok ({ flags, kind, headerLen := UInt32.ofNat headerLen,
             payloadLen := UInt64.ofNat payloadLen, seq, timestampNs, schemaHash, checksum },
        headerLen + payloadLen) := by
  have hlen : ¬ (headerBytes kind flags seq timestampNs schemaHash checksum payloadLen
      headerLen metadata ++ rest).length < FRAME_HEADER_LEN := by
    rw [List.length_append, length_headerBytes]; omega
  have h32 : (UInt32.ofNat headerLen).toNat = headerLen := by
    rw [UInt32.toNat_ofNat']; omega
  have h64 : (UInt64.ofNat payloadLen).toNat = payloadLen := by
    rw [UInt64.toNat_ofNat']; simp only [wordCount] at hsum; omega
  simp only [decodeFrameHeader, if_neg hlen]
  simp (disch := simp) only [headerBytes, readU16, readU32, readU64, List.append_assoc,
    slice_append_right, slice_append_left, length_pushU16, length_pushU32, length_pushU64,
    Nat.reduceSub, Nat.reduceAdd, Nat.sub_self]
  simp only [bind, Except.bind, pure, Except.pure, uInt16_leNat_pushU16, uInt32_leNat_pushU32,
    uInt64_leNat_pushU64, FrameKind.tryFrom_toUInt16, ne_eq, not_true_eq_false, if_false, h32, h64,
    checkedAdd, hsum, if_true, Nat.not_lt.2 hmin]

end Header

/-! ## The metadata -/

theorem length_encodeMetadata (item : Metadata) :
    (encodeMetadata item).length = TLV_HEADER_LEN + item.value.length := by
  simp only [encodeMetadata, List.length_append, length_pushU16, length_pushU32]

theorem length_flatMap_cons (item : Metadata) (items : List Metadata) :
    ((item :: items).flatMap encodeMetadata).length =
      TLV_HEADER_LEN + item.value.length + (items.flatMap encodeMetadata).length := by
  rw [List.flatMap_cons, List.length_append, length_encodeMetadata]

/-- **The metadata reads back.** The induction is on the TLVs: each round
reads the one at its offset, and the offset is where the rest begins. -/
theorem decodeMetadataFrom_encoded (metadata : List Metadata) :
    ∀ (front rest : Bytes) (rounds headerLen : ℕ),
      headerLen = front.length + (metadata.flatMap encodeMetadata).length →
      headerLen < 2 ^ 32 → metadata.length ≤ rounds →
      decodeMetadataFrom (front ++ (metadata.flatMap encodeMetadata ++ rest)) headerLen rounds
        front.length = .ok metadata := by
  induction metadata with
  | nil =>
      intro front rest rounds headerLen hh _ _
      cases rounds with
      | zero => rfl
      | succ n => simp [decodeMetadataFrom, hh, pure, Except.pure]
  | cons item items ih =>
      intro front rest rounds headerLen hh hlt hr
      obtain ⟨n, rfl⟩ : ∃ n, rounds = n + 1 :=
        ⟨rounds - 1, by rw [List.length_cons] at hr; omega⟩
      rw [length_flatMap_cons] at hh
      have h32 : (UInt32.ofNat item.value.length).toNat = item.value.length := by
        rw [UInt32.toNat_ofNat']; omega
      have hnext := ih (front ++ encodeMetadata item) rest n headerLen
        (by rw [List.length_append, length_encodeMetadata]; omega) hlt
        (by rw [List.length_cons] at hr; omega)
      rw [List.append_assoc, List.length_append, length_encodeMetadata] at hnext
      have hty : readU16 (front ++ ((item :: items).flatMap encodeMetadata ++ rest))
          front.length = .ok item.ty := by
        simp (disch := simp) only [readU16, List.flatMap_cons, encodeMetadata, List.append_assoc,
          slice_append_right, slice_append_left, Nat.sub_self, Nat.add_sub_cancel_left]
        simp [pure, Except.pure, bind, Except.bind, uInt16_leNat_pushU16]
      have hln : readU32 (front ++ ((item :: items).flatMap encodeMetadata ++ rest))
          (front.length + 2) = .ok (UInt32.ofNat item.value.length) := by
        simp (disch := simp) only [readU32, List.flatMap_cons, encodeMetadata, List.append_assoc,
          slice_append_right, slice_append_left, length_pushU16, Nat.sub_self,
          Nat.add_sub_cancel_left, Nat.add_assoc, Nat.reduceAdd, Nat.reduceSub]
        simp [pure, Except.pure, bind, Except.bind, uInt32_leNat_pushU32]
      have hval : slice (front ++ ((item :: items).flatMap encodeMetadata ++ rest))
          (front.length + TLV_HEADER_LEN) (front.length + TLV_HEADER_LEN + item.value.length) =
            .ok item.value := by
        simp only [List.flatMap_cons, encodeMetadata, List.append_assoc]
        rw [slice_append_right (by omega) (by omega), Nat.add_assoc, Nat.add_sub_cancel_left,
          Nat.add_sub_cancel_left,
          slice_append_right (by simp [TLV_HEADER_LEN]) (by omega),
          slice_append_right (by simp [TLV_HEADER_LEN])
            (by simp only [length_pushU16, TLV_HEADER_LEN]; omega)]
        refine slice_append_left ?_
        simp only [length_pushU16, length_pushU32, TLV_HEADER_LEN]
        omega
      have hadd : checkedAdd (front.length + TLV_HEADER_LEN) item.value.length =
          some (front.length + TLV_HEADER_LEN + item.value.length) :=
        if_pos (by simp only [wordCount]; omega)
      rw [decodeMetadataFrom]
      simp only [hty, hln, bind, Except.bind, h32, hadd, hval, pure, Except.pure,
        if_neg (show ¬ headerLen ≤ front.length by simp only [TLV_HEADER_LEN] at hh; omega),
        if_neg (show ¬ headerLen - front.length < TLV_HEADER_LEN by
          simp only [TLV_HEADER_LEN] at hh ⊢; omega),
        if_neg (show ¬ headerLen < front.length + TLV_HEADER_LEN + item.value.length by omega)]
      rw [List.flatMap_cons, List.append_assoc, Nat.add_assoc, hnext]

/-! ## Whole frames -/

section Frame

variable {kind : FrameKind} {flags : UInt16} {seq timestampNs schemaHash : UInt64}
  {checksum : UInt32} {metadata : List Metadata} {payload rest : Bytes}

/-- The frame a header for `payload` and the payload decode to. -/
def framed (kind : FrameKind) (flags : UInt16) (seq timestampNs schemaHash : UInt64)
    (checksum : UInt32) (metadata : List Metadata) (payload : Bytes) : Frame where
  header :=
    { flags, kind,
      headerLen := UInt32.ofNat (FRAME_HEADER_LEN + (metadata.flatMap encodeMetadata).length),
      payloadLen := UInt64.ofNat payload.length, seq, timestampNs, schemaHash, checksum }
  metadata
  payload

variable (rest seq timestampNs schemaHash checksum flags kind) in
/-- **Encoded frames decode**, whatever bytes follow. -/
theorem decodeFrame_encoded
    (hhdr : FRAME_HEADER_LEN + (metadata.flatMap encodeMetadata).length < 2 ^ 32)
    (hlen : payload.length ≤ isizeMax) :
    decodeFrame (headerBytes kind flags seq timestampNs schemaHash checksum payload.length
        (FRAME_HEADER_LEN + (metadata.flatMap encodeMetadata).length) metadata ++
          (payload ++ rest)) =
      .ok (framed kind flags seq timestampNs schemaHash checksum metadata payload) := by
  have h32 : (UInt32.ofNat (FRAME_HEADER_LEN +
      (metadata.flatMap encodeMetadata).length)).toNat =
        FRAME_HEADER_LEN + (metadata.flatMap encodeMetadata).length := by
    rw [UInt32.toNat_ofNat']; omega
  have h64 : (UInt64.ofNat payload.length).toNat = payload.length := by
    rw [UInt64.toNat_ofNat']; simp only [isizeMax] at hlen; omega
  have hmeta : decodeMetadata (headerBytes kind flags seq timestampNs schemaHash checksum
      payload.length (FRAME_HEADER_LEN + (metadata.flatMap encodeMetadata).length) metadata ++
        (payload ++ rest)) (FRAME_HEADER_LEN + (metadata.flatMap encodeMetadata).length) =
          .ok metadata := by
    have hcount : metadata.length ≤ (metadata.flatMap encodeMetadata).length := by
      clear h32 h64 hhdr
      induction metadata with
      | nil => simp
      | cons item items ih =>
          rw [length_flatMap_cons, List.length_cons]
          simp only [TLV_HEADER_LEN]
          omega
    have hrd := decodeMetadataFrom_encoded metadata
      (headerBytes kind flags seq timestampNs schemaHash checksum payload.length
        (FRAME_HEADER_LEN + (metadata.flatMap encodeMetadata).length) [])
      (payload ++ rest) (FRAME_HEADER_LEN + (metadata.flatMap encodeMetadata).length)
      (FRAME_HEADER_LEN + (metadata.flatMap encodeMetadata).length)
      (by rw [length_headerBytes]; simp) hhdr (by omega)
    rw [length_headerBytes] at hrd
    simpa only [decodeMetadata, headerBytes, List.flatMap_nil, List.append_nil, List.length_nil,
      Nat.add_zero, List.append_assoc] using hrd
  have hpay : slice (headerBytes kind flags seq timestampNs schemaHash checksum payload.length
      (FRAME_HEADER_LEN + (metadata.flatMap encodeMetadata).length) metadata ++
        (payload ++ rest)) (FRAME_HEADER_LEN + (metadata.flatMap encodeMetadata).length)
      (FRAME_HEADER_LEN + (metadata.flatMap encodeMetadata).length + payload.length) =
        .ok payload := by
    rw [slice_append_right (Nat.le_of_eq length_headerBytes) (by omega), length_headerBytes,
      Nat.sub_self, Nat.add_sub_cancel_left]
    exact slice_append_left rfl
  have hdr := decodeFrameHeader_headerBytes kind flags seq timestampNs schemaHash checksum
    payload.length metadata (payload ++ rest)
    (Nat.le_add_right FRAME_HEADER_LEN (metadata.flatMap encodeMetadata).length) hhdr
    (by simp only [isizeMax, wordCount] at *; omega)
  unfold decodeFrame
  simp only [hdr, bind, Except.bind, h32, h64, hmeta, hpay, pure, Except.pure, framed]
  rw [if_neg (by simp only [List.length_append, length_headerBytes]; omega),
    if_neg (by simp only [List.length_append, length_headerBytes]; omega)]

variable {bytes : Bytes} {frame : Frame}

/-- What a decoded frame was read from holds its header and its payload. -/
theorem decodeFrame_ok (h : decodeFrame bytes = .ok frame) :
    (∃ total, decodeFrameHeader bytes = .ok (frame.header, total)) ∧
      frame.header.headerLen.toNat + frame.header.payloadLen.toNat ≤ bytes.length ∧
      frame.payload.length = frame.header.payloadLen.toNat := by
  simp only [decodeFrame, bind, Except.bind, pure, Except.pure] at h
  split at h
  · cases h
  rename_i header hdr
  obtain ⟨header, total⟩ := header
  simp only at h
  split_ifs at h with h1 h2
  split at h
  · cases h
  split at h
  · cases h
  rename_i payload hslice
  cases h
  obtain ⟨hs, hp⟩ := length_of_slice hslice
  exact ⟨⟨total, hdr⟩, hs, by rw [hp, Nat.add_sub_cancel_left]⟩

theorem length_of_decodeFrameHeader {header : FrameHeader} {total : ℕ}
    (h : decodeFrameHeader bytes = .ok (header, total)) : FRAME_HEADER_LEN ≤ bytes.length := by
  refine Nat.le_of_not_lt fun hc => ?_
  simp only [decodeFrameHeader, if_pos hc] at h
  cases h

/-- The fixed header of a prefix that holds it is the fixed header. -/
theorem decodeFrameHeader_take {m : ℕ} (hm : FRAME_HEADER_LEN ≤ m) (hb : m ≤ bytes.length) :
    decodeFrameHeader (bytes.take m) = decodeFrameHeader bytes := by
  have h1 : ¬ (bytes.take m).length < FRAME_HEADER_LEN := by rw [List.length_take]; omega
  have h2 : ¬ bytes.length < FRAME_HEADER_LEN := by omega
  have h16 : ∀ i, i + 2 ≤ FRAME_HEADER_LEN → readU16 (bytes.take m) i = readU16 bytes i :=
    fun i hi => by rw [readU16, readU16, slice_take (by omega) (by omega) hb]
  have h32 : ∀ i, i + 4 ≤ FRAME_HEADER_LEN → readU32 (bytes.take m) i = readU32 bytes i :=
    fun i hi => by rw [readU32, readU32, slice_take (by omega) (by omega) hb]
  have h64 : ∀ i, i + 8 ≤ FRAME_HEADER_LEN → readU64 (bytes.take m) i = readU64 bytes i :=
    fun i hi => by rw [readU64, readU64, slice_take (by omega) (by omega) hb]
  unfold decodeFrameHeader
  rw [if_neg h1, if_neg h2, h32 0 (by decide), h16 4 (by decide), h16 6 (by decide),
    h16 8 (by decide), h32 10 (by decide), h64 14 (by decide), h64 22 (by decide),
    h64 30 (by decide), h64 38 (by decide), h32 46 (by decide)]

/-- **No proper prefix of a frame decodes.** -/
theorem decodeFrame_take_error {m : ℕ} (h : decodeFrame bytes = .ok frame)
    (hm : m < frame.header.headerLen.toNat + frame.header.payloadLen.toNat) :
    ∃ err, decodeFrame (bytes.take m) = .error err := by
  obtain ⟨⟨total, hdr⟩, hlen, -⟩ := decodeFrame_ok h
  cases hd : decodeFrame (bytes.take m) with
  | error err => exact ⟨err, rfl⟩
  | ok frame' =>
      obtain ⟨⟨total', hdr'⟩, hlen', -⟩ := decodeFrame_ok hd
      have h50 := length_of_decodeFrameHeader hdr'
      rw [List.length_take] at hlen' h50
      rw [decodeFrameHeader_take (by omega) (by omega), hdr] at hdr'
      have heq : frame.header = frame'.header := (Prod.mk.inj (Except.ok.inj hdr')).1
      rw [← heq] at hlen'
      omega

end Frame

end Dsline
