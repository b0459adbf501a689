import Dsline.Shm.DropReturns
import Dsline.Shm.DropSpec
import Dsline.Shm.MemorySpec
/-!
# What a drop releases

`drop_oldest_message` takes the number of slots from the frame at the tail,
and none of its three forms compares it with the queue. A single-producer
drop checks all it checks before it frees a slot; the multi-producer one may
reclaim first and fail behind that; the in-memory one checks slot after slot
as it frees them.
-/

namespace Dsline

open PersistentShmChannel Effect

namespace World

variable {w v : World} {d n k : ℕ} {host : Host}

/-- **A handle that counts its queue**: it has just refreshed, and counts no
more slots than the ring has. -/
structure Queued (w : World) (d : ℕ) : Prop where
  fits : Fits w.chan.config w.region
  cursors : cursorLen w.chan.config.capacity w.region.head w.region.tail = some d
  refreshed : w.refreshed d = w
  len : w.chan.len = d + w.chan.recoveryBias
  head : w.region.head < wordCount
  tail : w.region.tail < wordCount

/-- **The tail steps over `n` slots** and no other slot changes; a refresh
still succeeds, and finds the queue these shorter. -/
structure Advances (w : World) (n : ℕ) (v : World) : Prop where
  config : v.chan.config = w.chan.config
  head : v.region.head = w.region.head
  tail : v.region.tail = w.region.tail + n
  mirror : v.chan.tailCursor = v.region.tail
  slots : ∀ i, (∀ j < n, i ≠ (w.region.tail + j) % w.chan.config.capacity) →
    v.region.slots i = w.region.slots i
  len : v.chan.len = w.chan.len - n
  refresh : ∃ d, cursorLen w.chan.config.capacity v.region.head v.region.tail = some d ∧
    (v.refreshed d).chan.len = w.chan.len - n

/-- No slot, cursor or sequence counter has changed. -/
structure Untouched (w v : World) : Prop where
  slots : v.region.slots = w.region.slots
  words : v.region.head = w.region.head ∧ v.region.tail = w.region.tail ∧
    v.region.pinFloor = w.region.pinFloor
  cursors : v.chan.headCursor = w.chan.headCursor ∧ v.chan.tailCursor = w.chan.tailCursor ∧
    v.chan.head = w.chan.head ∧ v.chan.tail = w.chan.tail
  counters : v.chan.nextSeq = w.chan.nextSeq ∧ v.chan.expectedRecvSeq = w.chan.expectedRecvSeq ∧
    v.chan.lastReceivedSeq = w.chan.lastReceivedSeq

theorem Untouched.refl (w : World) : Untouched w w :=
  ⟨rfl, ⟨rfl, rfl, rfl⟩, ⟨rfl, rfl, rfl, rfl⟩, rfl, rfl, rfl⟩

/-- The slots the tail is ahead of the head. -/
def passed (w : World) : ℕ :=
  if wrappingSub w.region.head w.region.tail ≤ w.chan.config.capacity then 0
  else wrappingSub w.region.tail w.region.head

/-- The slots the cursors count. -/
def cursorCount (w : World) : ℕ :=
  (cursorLen w.chan.config.capacity w.region.head w.region.tail).getD 0

/-- **The call stays inside the queue**: it steps over no more slots than
the queue has, the tail does not pass the head, and an error leaves it
alone. -/
def StaysInside (w : World) : EStateM.Result Failure World Unit → Prop
  | .ok _ v => ∃ n ≤ w.chan.len, w.Advances n v ∧ v.passed ≤ w.passed
  | .error err v => err = .diverges ∨ w.Untouched v

/-- The message at the tail announces no more slots than the cursors count,
nor so many that the word wraps. -/
def AnnouncesInside (w : World) : Prop :=
  ∀ k, w.region.announces w.chan.tail = some k → w.chan.len ≠ 0 →
    k ≤ w.cursorCount ∧ w.region.tail + k < wordCount

theorem Queued.cursorCount_eq (hq : w.Queued d) : w.cursorCount = d := by
  rw [World.cursorCount, hq.cursors]
  rfl

/-- **The regimes of the cursors**: the head ahead of the tail, or the tail
ahead of the head, on either side of the words' wrap. -/
theorem Queued.regimes (hq : w.Queued d) :
    (d ≤ w.chan.config.capacity ∧ w.passed = 0 ∧ wrappingSub w.region.head w.region.tail = d) ∨
    (d = 0 ∧ 0 < w.passed ∧ w.passed ≤ w.chan.config.capacity ∧
      wrappingSub w.region.tail w.region.head = w.passed ∧
        w.chan.config.capacity < wrappingSub w.region.head w.region.tail) := by
  have hcursors := hq.cursors
  rw [cursorLen] at hcursors
  by_cases hfwd : wrappingSub w.region.head w.region.tail ≤ w.chan.config.capacity
  · rw [if_pos hfwd] at hcursors
    cases hcursors
    exact .inl ⟨hfwd, if_pos hfwd, rfl⟩
  · rw [if_neg hfwd] at hcursors
    split at hcursors
    · rename_i hback
      cases hcursors
      have hpassed : w.passed = wrappingSub w.region.tail w.region.head := if_neg hfwd
      refine .inr ⟨rfl, ?_, hpassed ▸ hback, hpassed.symm, Nat.lt_of_not_le hfwd⟩
      rw [hpassed]
      have hhead := hq.head
      unfold wrappingSub at hfwd ⊢
      split_ifs at * <;> omega
    · cases hcursors

/-- The cursors `k` slots on, in either regime. -/
theorem Queued.advanced (hq : w.Queued d) (hk : k ≤ w.chan.config.capacity)
    (hword : w.region.tail + k < wordCount) :
    (w.passed = 0 → k ≤ d → wrappingSub w.region.head (w.region.tail + k) = d - k) ∧
    (0 < w.passed ∨ d < k → w.passed + k ≤ w.chan.config.capacity + w.chan.config.capacity →
      w.chan.config.capacity < wrappingSub w.region.head (w.region.tail + k) ∧
      wrappingSub (w.region.tail + k) w.region.head = w.passed + k - d) := by
  have hsmall := hq.fits.small
  rw [hq.fits.capacity] at hsmall
  have hhead := hq.head
  have htail := hq.tail
  rcases hq.regimes with ⟨hd, hpassed, hfwd⟩ | ⟨hd, hpos, hpassed, hback, hfwd⟩
  · rw [hpassed]
    unfold wrappingSub at hfwd ⊢
    split_ifs at * <;> omega
  · unfold wrappingSub at hback hfwd ⊢
    split_ifs at * <;> omega

/-- **The tail stays behind the head** exactly where it steps over slots the
cursors count. -/
theorem Queued.passed_le_iff (hq : w.Queued d) (hn : n ≤ w.chan.config.capacity)
    (hword : w.region.tail + n < wordCount) (h : w.Advances n v) : v.passed ≤ w.passed ↔ n ≤ d := by
  obtain ⟨hin, hout⟩ := hq.advanced hn hword
  rw [passed, h.config, h.head, h.tail]
  rcases hq.regimes with ⟨hd, hpassed, -⟩ | ⟨hd, hpos, hpassed, -, -⟩
  · rcases Nat.lt_or_ge d n with hlt | hle
    · obtain ⟨hfwd, hback⟩ := hout (.inr hlt) (by omega)
      rw [if_neg (Nat.not_le.2 hfwd), hback]
      omega
    · have hfwd := hin hpassed hle
      rw [hfwd, if_pos (by omega)]
      omega
  · obtain ⟨hfwd, hback⟩ := hout (.inl hpos) (by omega)
    rw [if_neg (Nat.not_le.2 hfwd), hback]
    omega

end World

namespace PersistentShmChannel

open World

variable {w v : World} {d n k : ℕ} {host : Host}

/-- Chunk metadata is 64 bits wide. -/
theorem metadataUsize_lt {frame : Frame} {ty : UInt16} (h : metadataUsize frame ty = .ok n) :
    n < wordCount := by
  unfold metadataUsize at h
  split at h
  · cases h
  split at h
  · rename_i item _ hlen
    cases h
    have hlt := LittleEndian.leNat_lt item.value
    rw [hlen] at hlt
    exact hlt
  · cases h

theorem chunkInfo_bounds {frame : Frame} {info : ChunkInfo} (h : chunkInfo frame = .ok info) :
    0 < info.total ∧ info.total < wordCount := by
  unfold chunkInfo at h
  cases hindex : metadataUsize frame TLV_CHUNK_INDEX with
  | error err => simp only [hindex, bind, Except.bind] at h; cases h
  | ok index =>
      cases htotal : metadataUsize frame TLV_CHUNK_TOTAL with
      | error err => simp only [hindex, htotal, bind, Except.bind] at h; cases h
      | ok total =>
          cases hlen : metadataUsize frame TLV_CHUNK_MESSAGE_LEN with
          | error err => simp only [hindex, htotal, hlen, bind, Except.bind] at h; cases h
          | ok len =>
              simp only [hindex, htotal, hlen, bind, Except.bind] at h
              split at h
              · cases h
              · rename_i hpos
                cases h
                exact ⟨Nat.pos_of_ne_zero fun h0 => hpos (.inl h0), metadataUsize_lt htotal⟩

theorem slotsToDrop_bounds {frame : Frame} (h : slotsToDrop frame = .ok n) :
    0 < n ∧ n < wordCount := by
  unfold slotsToDrop at h
  split at h
  · cases hinfo : chunkInfo frame with
    | error err => simp only [hinfo, bind, Except.bind] at h; cases h
    | ok info =>
        simp only [hinfo, bind, Except.bind] at h
        split at h
        · cases h
        · cases h
          exact chunkInfo_bounds hinfo
  · cases h
    decide

theorem announces_bounds {region : Region} {index : ℕ} (h : region.announces index = some k) :
    0 < k ∧ k < wordCount := by
  unfold Region.announces at h
  split at h
  · split at h
    · cases h
    · split at h
      · cases h
      · rename_i hcount
        cases h
        exact slotsToDrop_bounds hcount
  · cases h

/-! ## Single-producer mode -/

theorem checksFrame_slotsToDrop {frame : Frame} : ChecksFrame (slotsToDrop frame) := by
  unfold slotsToDrop
  split
  · refine checksFrame_chunkInfo.bind fun info => ?_
    split
    · exact checksFrame_error .corrupted
    · exact checksFrame_ok
  · exact checksFrame_ok

theorem BadFrame.not_diverges {err : Failure} (h : BadFrame err) : err ≠ .diverges := by
  rintro rfl
  cases h

theorem spsc_call (hmode : w.chan.config.multiProducer = false) :
    dropOldestMessage host w = dropOldestMessageSpsc w := by
  rw [dropOldestMessage, get_bind, hmode]
  rfl

/-- **What a single-producer drop does**: it drops what is announced, or
fails with nothing changed. -/
theorem dropSpsc_eq (hlen : w.chan.len ≠ 0) :
    (∃ k, w.region.announces w.chan.tail = some k ∧
      dropOldestMessageSpsc w = .ok () (w.dropped k)) ∨
    (w.region.announces w.chan.tail = none ∧
      ∃ err, err ≠ .diverges ∧ dropOldestMessageSpsc w = .error err w) := by
  rw [dropOldestMessageSpsc, get_bind, if_neg hlen]
  by_cases hread : w.region.state w.chan.tail = .committed ∧
      w.region.payloadLen w.chan.tail ≤ w.region.frameCapacity
  · have hpeek : onRegion (Region.peekCommitted w.chan.tail) w =
        .ok ⟨(w.region.header w.chan.tail).seq, w.region.payload w.chan.tail
          (w.region.payloadLen w.chan.tail)⟩ w := by
      simp only [onRegion, Region.peekCommitted, get_bind, if_neg (not_not.2 hread.1),
        if_neg (Nat.not_lt.2 hread.2)]
      rfl
    rw [bind_ok hpeek, Region.announces, if_pos hread]
    cases hdec : decodeFrame (w.region.payload w.chan.tail (w.region.payloadLen w.chan.tail)) with
    | error err =>
        exact .inr ⟨rfl, err, BadFrame.not_diverges (checksFrame_decodeFrame err hdec), rfl⟩
    | ok frame =>
        dsimp only
        cases hcount : slotsToDrop frame with
        | error err =>
            exact .inr ⟨rfl, err, BadFrame.not_diverges (checksFrame_slotsToDrop err hcount), rfl⟩
        | ok count => exact .inl ⟨count, rfl, (bind_ok dropSlots_ok).trans rfl⟩
  · have hpeek : ∃ err, err ≠ .diverges ∧
        onRegion (Region.peekCommitted w.chan.tail) w = .error err w := by
      simp only [onRegion, Region.peekCommitted, get_bind]
      by_cases hstate : w.region.state w.chan.tail = .committed
      · have hlong : w.region.frameCapacity < w.region.payloadLen w.chan.tail :=
          Nat.lt_of_not_le fun hle => hread ⟨hstate, hle⟩
        rw [if_neg (not_not.2 hstate), if_pos hlong]
        exact ⟨.ofChannel (.messageTooLarge _ _), (fun h => by cases h), rfl⟩
      · rw [if_pos hstate]
        exact ⟨.ofChannel .bufferEmpty, (fun h => by cases h), rfl⟩
    obtain ⟨err, hne, hpeek⟩ := hpeek
    exact .inr ⟨by rw [Region.announces, if_neg hread], err, hne, bind_error hpeek⟩

/-- **The depth behind a drop**, and the orphans it steps over. -/
theorem advanced_depth (hq : w.Queued d) (hk : k ≤ w.chan.config.capacity)
    (hword : w.region.tail + k < wordCount) (hpassed : w.passed + k ≤ w.chan.config.capacity) :
    cursorLen w.chan.config.capacity w.region.head (w.region.tail + k) = some (d - k) ∧
      ((wrappingSub w.region.head (w.region.tail + k) = 0 ∨
        w.chan.config.capacity < wrappingSub w.region.head (w.region.tail + k)) ↔ d ≤ k) := by
  obtain ⟨hin, hout⟩ := hq.advanced hk hword
  rw [cursorLen]
  by_cases hpast : 0 < w.passed ∨ d < k
  · obtain ⟨hfwd, hback⟩ := hout hpast (by omega)
    have hdk : d ≤ k := by
      rcases hq.regimes with ⟨-, h0, -⟩ | ⟨h0, -⟩ <;> omega
    rw [if_neg (Nat.not_le.2 hfwd), hback, if_pos (by omega), Nat.sub_eq_zero_of_le hdk]
    exact ⟨rfl, iff_of_true (.inr hfwd) hdk⟩
  · have hfwd := hin (by omega) (by omega)
    have hd : d ≤ w.chan.config.capacity := by
      rcases hq.regimes with ⟨hle, -⟩ | ⟨h0, -⟩ <;> omega
    rw [hfwd, if_pos (by omega)]
    refine ⟨rfl, ?_⟩
    omega

/-- The mirrors of a handle that has just refreshed. -/
theorem queued_mirrors (hq : w.Queued d) : w.chan.headCursor = w.region.head ∧
    w.chan.tailCursor = w.region.tail ∧ w.chan.tail = w.region.tail % w.chan.config.capacity ∧
      w.chan.len ≤ w.chan.config.capacity := by
  have h := congrArg World.chan hq.refreshed
  exact ⟨(congrArg PersistentShmChannel.headCursor h).symm,
    (congrArg PersistentShmChannel.tailCursor h).symm, (congrArg PersistentShmChannel.tail h).symm,
    (congrArg PersistentShmChannel.len h) ▸ Nat.min_le_right _ _⟩

/-- **The words and the slots `k` steps on**, wherever the tail gets. -/
structure Stepped (w : World) (k : ℕ) (v : World) : Prop where
  config : v.chan.config = w.chan.config
  headCursor : v.chan.headCursor = w.region.head
  head : v.region.head = w.region.head
  tailCursor : v.chan.tailCursor = (w.region.tail + k) % wordCount
  tail : w.region.tail + k < wordCount → v.region.tail = w.region.tail + k
  index : v.chan.tail = (w.region.tail + k) % w.chan.config.capacity
  far : wordCount ≤ w.region.tail + k → wordCount - 1 ≤ v.region.tail
  slots : ∀ i, (∀ j < k, i ≠ (w.region.tail + j) % w.chan.config.capacity) →
    v.region.slots i = w.region.slots i

theorem consumed_stepped (hq : w.Queued d) (k : ℕ) : Stepped w k (w.consumed k) := by
  obtain ⟨hhead, htail, hindex, -⟩ := queued_mirrors hq
  induction k with
  | zero =>
      refine ⟨rfl, hhead, rfl, ?_, fun _ => rfl, hindex, fun h => ?_, fun _ _ => rfl⟩
      · rw [Nat.add_zero, Nat.mod_eq_of_lt hq.tail]
        exact htail
      · exact absurd hq.tail (Nat.not_lt.2 h)
  | succ k ih =>
      set v := w.consumed k with hv
      have hcursor : (w.consumed (k + 1)).chan.tailCursor =
          (w.region.tail + (k + 1)) % wordCount := by
        show wrappingAdd v.chan.tailCursor 1 = _
        rw [ih.tailCursor, wrappingAdd, Nat.mod_add_mod, Nat.add_assoc]
      have hword : (w.consumed (k + 1)).region.tail =
          max v.region.tail ((w.region.tail + (k + 1)) % wordCount) := by
        rw [← hcursor]
        rfl
      refine ⟨ih.config, ih.headCursor, ih.head, hcursor, fun h => ?_, ?_, fun h => ?_,
        fun i hi => ?_⟩
      · rw [hword, ih.tail (by omega), Nat.mod_eq_of_lt h]
        omega
      · show (v.chan.tail + 1) % v.chan.config.capacity = _
        rw [ih.config, ih.index, Window.mod_succ_mod, Nat.add_assoc]
      · rw [hword]
        rcases Nat.lt_or_ge (w.region.tail + k) wordCount with hlt | hge
        · rw [ih.tail hlt]
          omega
        · have := ih.far hge
          omega
      · have hne : i ≠ v.chan.tail := by
          rw [ih.index]
          exact hi k (Nat.lt_succ_self k)
        have hsame : (w.consumed (k + 1)).region.slots i = v.region.slots i := by
          show ((v.region.forceRelease v.chan.tail).fetchMaxTail _).slots i = _
          rw [Region.forceRelease_eq]
          exact Region.setSlot_slots_of_ne hne
        exact hsame.trans (ih.slots i fun j hj => hi j (Nat.lt_succ_of_lt hj))

/-- Whether the slot `k` on is an orphan. -/
theorem orphan_consumed (hq : w.Queued d) (hword : w.region.tail + k < wordCount) :
    (w.consumed k).chan.orphan = true ↔
      wrappingSub w.region.head (w.region.tail + k) = 0 ∨
        w.chan.config.capacity < wrappingSub w.region.head (w.region.tail + k) := by
  have hstep := consumed_stepped hq k
  rw [orphan, hstep.headCursor, hstep.tailCursor, Nat.mod_eq_of_lt hword, hstep.config]
  simp only [Bool.or_eq_true, decide_eq_true_eq]

/-- The bias retires one credit for each orphan. -/
theorem consumed_bias_eq
    (horphan : ∀ j < k, ((w.consumed j).chan.orphan = true ↔ d ≤ j)) :
    (w.consumed k).chan.recoveryBias = w.chan.recoveryBias - (k - d) := by
  induction k with
  | zero => rw [Nat.zero_sub, Nat.sub_zero]; rfl
  | succ k ih =>
      have ih := ih fun j hj => horphan j (Nat.lt_succ_of_lt hj)
      have hiff := horphan k (Nat.lt_succ_self k)
      show (if (w.consumed k).chan.orphan then (w.consumed k).chan.recoveryBias - 1
        else (w.consumed k).chan.recoveryBias) = _
      by_cases hdk : d ≤ k
      · rw [if_pos (hiff.2 hdk), ih]
        omega
      · rw [if_neg fun h => hdk (hiff.1 h), ih]
        omega

/-- Nothing dropped is a step over no slot. -/
theorem advances_zero (hq : w.Queued d) : w.Advances 0 w := by
  obtain ⟨-, htail, -, -⟩ := queued_mirrors hq
  refine ⟨rfl, rfl, rfl, htail, fun _ _ => rfl, rfl, d, hq.cursors, ?_⟩
  rw [hq.refreshed, Nat.sub_zero]

/-- The slots the cursors count are queued, and on the ring. -/
theorem queued_bounds (hq : w.Queued d) (hpos : 0 < k) (hk : k ≤ d) :
    k ≤ w.chan.len ∧ k ≤ w.chan.config.capacity ∧ w.passed + k ≤ w.chan.config.capacity := by
  have hlen := hq.len
  rcases hq.regimes with ⟨hd, hpassed, -⟩ | ⟨hd, -⟩ <;> omega

/-- **A drop of what the cursors count stays inside.** -/
theorem dropped_advances (hq : w.Queued d) (hpos : 0 < k) (hk : k ≤ d)
    (hword : w.region.tail + k < wordCount) : w.Advances k (w.dropped k) := by
  have hlen := (queued_mirrors hq).2.2.2
  have hstep := consumed_stepped hq k
  obtain ⟨hqueued, hcap, hpassed⟩ := queued_bounds hq hpos hk
  have hbias : (w.consumed k).chan.recoveryBias = w.chan.recoveryBias - (k - d) :=
    consumed_bias_eq fun j hj => (orphan_consumed hq (by omega)).trans
      (advanced_depth hq (by omega) (by omega) (by omega)).2
  obtain ⟨hdepth, -⟩ := advanced_depth hq hcap hword hpassed
  have htail : (w.dropped k).region.tail = w.region.tail + k := hstep.tail hword
  refine ⟨hstep.config, hstep.head, htail, ?_, hstep.slots, consumed_len, d - k, ?_, ?_⟩
  · rw [htail]
    exact hstep.tailCursor.trans (Nat.mod_eq_of_lt hword)
  · rw [htail, show (w.dropped k).region.head = w.region.head from hstep.head, hdepth]
  · show min (d - k + (w.consumed k).chan.recoveryBias) (w.consumed k).chan.config.capacity = _
    have hq' := hq.len
    rw [hbias, hstep.config]
    omega

/-- What stays inside is a drop of what the cursors count. -/
theorem inside_of_advances (hq : w.Queued d) (hn : n ≤ w.chan.len) (hk : k < wordCount)
    (h : w.Advances n (w.dropped k)) (hpassed : (w.dropped k).passed ≤ w.passed) :
    k ≤ d ∧ w.region.tail + k < wordCount := by
  have hlen := (queued_mirrors hq).2.2.2
  have hstep := consumed_stepped hq k
  have htail : (w.consumed k).region.tail = w.region.tail + n := h.tail
  have hcursor : (w.region.tail + k) % wordCount = w.region.tail + n := by
    rw [← hstep.tailCursor, ← htail]
    exact h.mirror
  have hword : w.region.tail + k < wordCount := by
    refine Nat.lt_of_not_le fun hge => ?_
    have hfar := hstep.far hge
    have hmod : (w.region.tail + k) % wordCount = w.region.tail + k - wordCount := by
      rw [Nat.mod_eq_sub_mod hge, Nat.mod_eq_of_lt]
      have := hq.tail
      omega
    have := hq.tail
    omega
  rw [Nat.mod_eq_of_lt hword] at hcursor
  have hnk : n = k := by omega
  subst hnk
  exact ⟨(hq.passed_le_iff (hn.trans hlen) hword h).1 hpassed, hword⟩

/-- **A single-producer drop stays inside the queue** exactly where the
message at the tail announces no more than the cursors count. -/
theorem spsc_stays_iff (hq : w.Queued d) :
    w.StaysInside (dropOldestMessageSpsc w) ↔ w.AnnouncesInside := by
  by_cases hlen : w.chan.len = 0
  · have hcall : dropOldestMessageSpsc w = .ok () w := by
      rw [dropOldestMessageSpsc, get_bind, if_pos hlen]
      rfl
    rw [hcall]
    exact iff_of_true ⟨0, Nat.zero_le _, advances_zero hq, Nat.le_refl _⟩
      fun k _ hne => absurd hlen hne
  rcases dropSpsc_eq hlen with ⟨k, hannounces, hcall⟩ | ⟨hannounces, err, -, hcall⟩
  · rw [hcall]
    constructor
    · rintro ⟨n, hn, h, hpassed⟩ k' hk' -
      cases Option.some.inj (hannounces.symm.trans hk')
      rw [hq.cursorCount_eq]
      exact inside_of_advances hq hn (announces_bounds hannounces).2 h hpassed
    · intro h
      obtain ⟨hle, hword⟩ := h k hannounces hlen
      rw [hq.cursorCount_eq] at hle
      have hpos := (announces_bounds hannounces).1
      obtain ⟨hqueued, hcap, -⟩ := queued_bounds hq hpos hle
      have hadvances := dropped_advances hq hpos hle hword
      exact ⟨k, hqueued, hadvances, (hq.passed_le_iff hcap hword hadvances).2 hle⟩
  · rw [hcall]
    refine iff_of_true (.inr (.refl w)) fun k hk => ?_
    cases hannounces.symm.trans hk

end PersistentShmChannel

/-! ## Multi-producer mode -/

namespace World

variable {w v u : World} {d m n k extent : ℕ} {host : Host}

/-- Neither word is within a ring of its wrap. -/
def Low (w : World) : Prop :=
  w.region.head + w.chan.config.capacity < wordCount ∧
    w.region.tail + w.chan.config.capacity < wordCount

/-- The drop fails at this slot: its message starts in the middle, or it is
neither COMMITTED nor a dead reservation's, and the handle is open. -/
def FailsAt (host : Host) (w : World) : Prop :=
  (AtCommitted w ∧ ¬ Damaged w ∧ w.region.announces w.chan.tail = none) ∨
    (¬ AtCommitted w ∧ w.chan.closed = false ∧ reclaimExtent host w = none)

/-- Behind the dead reservations at the tail, the message announces no more
slots than the cursors count; and the drop fails there only where there was
no dead reservation before it. -/
structure ClearsInside (host : Host) (w : World) : Prop where
  announced : ∀ v d k, Clears host w v → v.Round d →
    v.region.announces (v.refreshed d).chan.tail = some k → k ≤ d
  fails : ∀ v d, Clears host w v → v.Round d → FailsAt host (v.refreshed d) →
    v.region.tail = w.region.tail

/-- **What the reclaims before a drop leave**: `m` slots are freed and
stepped over, and nothing else is changed. -/
structure Cleared (w : World) (m : ℕ) (v : World) : Prop where
  config : v.chan.config = w.chan.config
  bias : v.chan.recoveryBias = w.chan.recoveryBias
  closed : v.chan.closed = w.chan.closed
  capacity : v.region.capacity = w.region.capacity
  head : v.region.head = w.region.head
  tail : v.region.tail = w.region.tail + m
  window : m = 0 ∨ w.region.tail + m ≤ w.region.head
  same : m = 0 → v = w
  opened : w.chan.closed = true → m = 0
  slots : ∀ i, (∀ j < m, i ≠ (w.region.tail + j) % w.chan.config.capacity) →
    v.region.slots i = w.region.slots i

theorem Cleared.refl (w : World) : Cleared w 0 w :=
  ⟨rfl, rfl, rfl, rfl, rfl, rfl, .inl rfl, fun _ => rfl, fun _ => rfl, fun _ _ => rfl⟩

/-- **Reclaims free what they step over.** -/
theorem Clears.cleared (h : Clears host w v) (hcap : w.region.capacity = w.chan.config.capacity)
    (hhead : w.region.head + w.chan.config.capacity < wordCount)
    (htail : w.region.tail + w.chan.config.capacity < wordCount) : ∃ m, Cleared w m v := by
  induction h with
  | refl w => exact ⟨0, .refl w⟩
  | @step w v d extent hround hstate hopen hext hrest ih =>
      obtain ⟨hpos, hle, hwindow⟩ := reclaimExtent_window hext
      have hinside : w.region.tail + extent ≤ w.region.head := by
        have hle' : extent ≤ wrappingSub w.region.head w.region.tail := hle
        have hwindow' : wrappingSub w.region.head w.region.tail ≤ w.chan.config.capacity := hwindow
        unfold wrappingSub at hle' hwindow'
        split at hle' <;> split at hwindow' <;> omega
      have hwords := releaseExtent_words extent (w.refreshed d).chan.tail w.region
      obtain ⟨m, hrest⟩ := ih (hwords.capacity.trans hcap)
        (by rw [show ((w.refreshed d).extentFreed extent).region.head = w.region.head
            from hwords.head]; exact hhead)
        (show w.region.tail + extent + w.chan.config.capacity < wordCount by omega)
      have htail' : v.region.tail = w.region.tail + extent + m := hrest.tail
      have hhead' : v.region.head = w.region.head := hrest.head.trans hwords.head
      refine ⟨extent + m, hrest.config, hrest.bias, hrest.closed,
        hrest.capacity.trans hwords.capacity, hhead', ?_, .inr ?_, fun h0 => ?_,
        fun hclosed => ?_, fun i hi => ?_⟩
      · rw [htail', Nat.add_assoc]
      · rcases hrest.window with h0 | hle'
        · omega
        · have hle'' : w.region.tail + extent + m ≤ w.region.head := hwords.head ▸ hle'
          omega
      · omega
      · rw [hopen] at hclosed
        cases hclosed
      · have hfirst : ((w.refreshed d).extentFreed extent).region.slots i = w.region.slots i := by
          show (releaseExtent extent (w.region.tail % w.chan.config.capacity) w.region).slots i = _
          rw [← hcap]
          rcases releaseExtent_slots (n := extent) (c := w.region.tail) (j := i) w.region with
            hsame | ⟨⟨j, hj, hplace⟩, -⟩
          · exact hsame
          · rw [hcap] at hplace
            exact absurd hplace (hi j (by omega))
        refine (hrest.slots i fun j hj => ?_).trans hfirst
        show i ≠ (w.region.tail + extent + j) % w.chan.config.capacity
        rw [Nat.add_assoc]
        exact hi (extent + j) (by omega)

end World

namespace World

variable {w v u : World} {d m n k extent fuel waits : ℕ} {host : Host}

/-- One more reservation. -/
theorem Clears.snoc (h : Clears host w v) (hround : v.Round d)
    (hstate : ¬ AtCommitted (v.refreshed d)) (hopen : v.chan.closed = false)
    (hext : reclaimExtent host (v.refreshed d) = some extent) :
    Clears host w ((v.refreshed d).extentFreed extent) := by
  induction h with
  | refl w => exact .step hround hstate hopen hext (.refl _)
  | step hr hs ho he _ ih => exact .step hr hs ho he (ih hround hstate hopen hext)

end World

namespace PersistentShmChannel

open World

variable {w v : World} {d m n k extent fuel waits : ℕ} {host : Host} {again : ℕ → ChannelM Unit}

variable (waits) in
/-- Enough rounds get a drop behind the reservations. -/
theorem drop_clears (hmode : w.chan.config.multiProducer = true) (h : Clears host w v) :
    ∃ rounds, ∀ fuel, dropOldestMessageMpsc host (fuel + rounds) waits w =
      dropOldestMessageMpsc host fuel waits v := by
  induction h with
  | refl w => exact ⟨0, fun _ => rfl⟩
  | step hround hstate hopen hext hrest ih =>
      obtain ⟨rounds, hrounds⟩ := ih hmode
      refine ⟨rounds + 1, fun fuel => ?_⟩
      rw [← Nat.add_assoc, drop_succ, dropRound_reclaims hmode hround hstate hopen hext, hrounds]

/-- A round refreshes anyway. -/
theorem dropRound_refreshed (hround : v.Round d) :
    dropRound (dropOps host) again waits (v.refreshed d) =
      dropRound (dropOps host) again waits v := by
  have hrefresh : refreshCursors (v.refreshed d) = .ok () (v.refreshed d) :=
    refreshCursors_ok hround.cursors
  rw [dropRound.eq_def, bind_ok hrefresh, bind_ok (refreshCursors_ok hround.cursors)]

/-- **A round at an intact slot** drops what is announced, or fails with
nothing changed. -/
theorem dropRound_reads (host : Host) (again : ℕ → ChannelM Unit) (waits : ℕ)
    (hround : v.Round d) (hstate : AtCommitted (v.refreshed d)) (h : ¬ Damaged (v.refreshed d)) :
    (∃ k, v.region.announces (v.refreshed d).chan.tail = some k ∧
      dropRound (dropOps host) again waits v =
        dropOldestMessageMpsc.discard (v.refreshed d).chan.tailCursor k (v.refreshed d)) ∨
    (v.region.announces (v.refreshed d).chan.tail = none ∧
      dropRound (dropOps host) again waits v =
        .error (.ofChannel .corruptedMessage) (v.refreshed d)) :=
  dropRound_intact (dropOps host) again waits hround hstate h

theorem dropSlotsMpsc_stepped {u : World} (k : ℕ) : ∀ {j : ℕ} {w : World},
    w.chan.config = u.chan.config → w.chan.tail = (u.region.tail + j) % u.chan.config.capacity →
    w.chan.tailCursor = (u.region.tail + j) % wordCount →
      ∃ v, dropSlotsMpsc k w = .ok () v ∧ v.chan.config = u.chan.config ∧
        v.chan.tailCursor = (u.region.tail + (j + k)) % wordCount ∧
        v.chan.recoveryBias = w.chan.recoveryBias ∧ v.chan.len = w.chan.len - k ∧
        v.region.head = w.region.head ∧ v.region.tail = w.region.tail ∧
        v.region.pinFloor = w.region.pinFloor ∧
        ∀ i, (∀ n < k, i ≠ (u.region.tail + (j + n)) % u.chan.config.capacity) →
          v.region.slots i = w.region.slots i := by
  induction k with
  | zero => exact fun hconfig _ hcursor =>
      ⟨_, rfl, hconfig, hcursor, rfl, rfl, rfl, rfl, rfl, fun _ _ => rfl⟩
  | succ k ih =>
      intro j w hconfig hindex hcursor
      let w₁ : World :=
        { chan := { w.chan with
            tail := (w.chan.tail + 1) % w.chan.config.capacity
            tailCursor := wrappingAdd w.chan.tailCursor 1
            len := w.chan.len - 1 }
          region := w.region.forceRelease w.chan.tail }
      have hindex₁ : w₁.chan.tail = (u.region.tail + (j + 1)) % u.chan.config.capacity := by
        show (w.chan.tail + 1) % w.chan.config.capacity = _
        rw [hconfig, hindex, Window.mod_succ_mod, Nat.add_assoc]
      have hcursor₁ : w₁.chan.tailCursor = (u.region.tail + (j + 1)) % wordCount := by
        show wrappingAdd w.chan.tailCursor 1 = _
        rw [hcursor, wrappingAdd, Nat.mod_add_mod, Nat.add_assoc]
      obtain ⟨v, hdrop, hv, hcursor', hbias, hlen, hhead, htail, hfloor, hslots⟩ :=
        @ih (j + 1) w₁ hconfig hindex₁ hcursor₁
      refine ⟨v, hdrop, hv, ?_, hbias, ?_, hhead, htail, hfloor, fun i hi => ?_⟩
      · rw [hcursor', show j + 1 + k = j + (k + 1) by omega]
      · rw [hlen]
        exact (Nat.sub_sub _ _ _).trans (congrArg _ (Nat.add_comm 1 k))
      · have hne : i ≠ w.chan.tail := hindex ▸ hi 0 k.succ_pos
        have hrest := hslots i fun n hn => by
          rw [show j + 1 + n = j + (n + 1) by omega]
          exact hi (n + 1) (Nat.succ_lt_succ hn)
        refine hrest.trans ?_
        show (w.region.forceRelease w.chan.tail).slots i = _
        rw [Region.forceRelease_eq]
        exact Region.setSlot_slots_of_ne hne

/-- **What a multi-producer drop discards**: the announced slots, counted by
the head or not. -/
theorem discard_eq (hcursor : w.chan.tailCursor = w.region.tail)
    (hindex : w.chan.tail = w.region.tail % w.chan.config.capacity)
    (htail : w.region.tail < wordCount) (k : ℕ) :
    ∃ v, dropOldestMessageMpsc.discard w.chan.tailCursor k w = .ok () v ∧
      v.chan.config = w.chan.config ∧ v.chan.tailCursor = (w.region.tail + k) % wordCount ∧
      v.chan.recoveryBias = w.chan.recoveryBias ∧ v.chan.len = w.chan.len - k ∧
      v.region.head = w.region.head ∧ v.region.tail = w.region.tail + k ∧
      ∀ i, (∀ j < k, i ≠ (w.region.tail + j) % w.chan.config.capacity) →
        v.region.slots i = w.region.slots i := by
  obtain ⟨v, hdrop, hconfig, hcursor', hbias, hlen, hhead, htail', -, hslots⟩ :=
    @dropSlotsMpsc_stepped w k 0 { w with region := { w.region with tail := w.region.tail + k } }
      rfl hindex (by rw [Nat.add_zero, Nat.mod_eq_of_lt htail]; exact hcursor)
  refine ⟨{ v with chan := { v.chan with expectedRecvSeq := v.chan.expectedRecvSeq + 1 } }, ?_,
    hconfig, ?_, hbias, hlen, hhead, htail', fun i hi => hslots i fun n hn => ?_⟩
  · rw [dropOldestMessageMpsc.discard, get_bind, Region.compareExchangeTail, hcursor, if_pos rfl]
    exact (bind_ok hdrop).trans rfl
  · rw [hcursor', Nat.zero_add]
  · rw [Nat.zero_add]
    exact hi n hn

section Mpsc

variable {u : World}

theorem cleared_counted (hq : w.Queued d) (hlow : Low w) (hc : Cleared w m v) :
    m ≤ d ∧ w.passed + m ≤ w.chan.config.capacity := by
  obtain ⟨hhead, htail⟩ := hlow
  rcases hq.regimes with ⟨hd, hpassed, hfwd⟩ | ⟨hd, hpos, hpassed, hback, hfwd⟩
  · rcases hc.window with h0 | hle
    · omega
    · unfold wrappingSub at hfwd
      split at hfwd <;> omega
  · rcases hc.window with h0 | hle
    · omega
    · unfold wrappingSub at hback hfwd
      split at hback <;> split at hfwd <;> omega

/-- The depth behind the reclaims. -/
theorem cleared_depth (hq : w.Queued d) (hlow : Low w) (hc : Cleared w m v) :
    cursorLen v.chan.config.capacity v.region.head v.region.tail = some (d - m) := by
  obtain ⟨hmd, hpassed⟩ := cleared_counted hq hlow hc
  have hword : w.region.tail + m < wordCount := by
    have := hlow.2
    omega
  rw [hc.config, hc.head, hc.tail]
  exact (advanced_depth hq (by omega) hword hpassed).1

/-- The queue behind the reclaims. -/
theorem cleared_len (hq : w.Queued d) (hlow : Low w) (hc : Cleared w m v) :
    (v.refreshed (d - m)).chan.len = w.chan.len - m := by
  obtain ⟨hmd, -⟩ := cleared_counted hq hlow hc
  have hlen := (queued_mirrors hq).2.2.2
  show min (d - m + v.chan.recoveryBias) v.chan.config.capacity = _
  rw [hc.bias, hc.config]
  have hq' := hq.len
  omega

/-- **Reclaims stay inside the queue.** -/
theorem cleared_advances (hq : w.Queued d) (hlow : Low w) (hc : Cleared w m v) :
    w.Advances m (v.refreshed (d - m)) := by
  have hlen := cleared_len hq hlow hc
  have hdepth := cleared_depth hq hlow hc
  refine ⟨hc.config, hc.head, hc.tail, rfl, hc.slots, hlen, d - m, ?_, hlen⟩
  rw [← hc.config]
  exact hdepth

/-- Within a ring of a low word no step wraps. -/
theorem low_passed_le_iff (hq : w.Queued d) (hlow : Low w) (hn : n ≤ w.chan.len)
    (h : w.Advances n u) : u.passed ≤ w.passed ↔ n ≤ d := by
  have hlen := (queued_mirrors hq).2.2.2
  refine hq.passed_le_iff (hn.trans hlen) ?_ h
  have := hlow.2
  omega

/-- **So does a drop of what the cursors count behind them.** -/
theorem discard_advances (hq : w.Queued d) (hlow : Low w) (hc : Cleared w m v) (hpos : 0 < k)
    (hk : k ≤ d - m) :
    ∃ u, dropOldestMessageMpsc.discard (v.refreshed (d - m)).chan.tailCursor k
      (v.refreshed (d - m)) = .ok () u ∧ w.Advances (m + k) u := by
  have hd : w.passed = 0 ∧ d ≤ w.chan.config.capacity := by
    rcases hq.regimes with ⟨hle, h0, -⟩ | ⟨h0, -⟩ <;> omega
  have hword : w.region.tail + (m + k) < wordCount := by
    have := hlow.2
    omega
  obtain ⟨u, hcall, hconfig, hcursor, hbias, hlen, hhead, htail, hslots⟩ :=
    discard_eq (w := v.refreshed (d - m)) rfl rfl
      (show v.region.tail < wordCount by rw [hc.tail]; omega) k
  have htail' : u.region.tail = w.region.tail + (m + k) := by
    rw [htail, show (v.refreshed (d - m)).region.tail = w.region.tail + m from hc.tail,
      Nat.add_assoc]
  have hdepth := (advanced_depth hq (k := m + k) (by omega) hword (by omega)).1
  refine ⟨u, hcall, hconfig.trans hc.config, hhead.trans hc.head, htail', ?_, fun i hi => ?_, ?_,
    d - (m + k), ?_, ?_⟩
  · rw [hcursor, htail', show (v.refreshed (d - m)).region.tail = w.region.tail + m from hc.tail,
      Nat.add_assoc, Nat.mod_eq_of_lt hword]
  · refine (hslots i fun j hj => ?_).trans (hc.slots i fun j hj => hi j (by omega))
    show i ≠ (v.region.tail + j) % v.chan.config.capacity
    rw [hc.tail, hc.config, Nat.add_assoc]
    exact hi (m + j) (by omega)
  · rw [hlen, cleared_len hq hlow hc, Nat.sub_sub]
  · rw [hhead.trans hc.head, htail', hdepth]
  · show min (d - (m + k) + u.chan.recoveryBias) u.chan.config.capacity = _
    rw [hbias, hconfig, show (v.refreshed (d - m)).chan.recoveryBias = w.chan.recoveryBias
      from hc.bias, show (v.refreshed (d - m)).chan.config = w.chan.config from hc.config]
    have hq' := hq.len
    have hle := (queued_mirrors hq).2.2.2
    omega

/-- What stays inside behind the reclaims is a drop of what the cursors
count there. -/
theorem counted_of_advances (hq : w.Queued d) (hlow : Low w) (hc : Cleared w m v)
    (htail : u.region.tail = v.region.tail + k) (hn : n ≤ w.chan.len) (h : w.Advances n u)
    (hpassed : u.passed ≤ w.passed) : k ≤ d - m := by
  have hnk : n = m + k := by
    have := h.tail
    have := hc.tail
    omega
  have hnd := (low_passed_le_iff hq hlow hn h).1 hpassed
  omega

/-- **A multi-producer drop stays inside the queue** where what it comes to
does. -/
theorem mpsc_stays (hmode : w.chan.config.multiProducer = true) (hq : w.Queued d) (hlow : Low w)
    (h : w.ClearsInside host) (fuel : ℕ) : ∀ {waits m : ℕ} {v : World}, Clears host w v →
      Cleared w m v → w.StaysInside (dropOldestMessageMpsc host fuel waits v) := by
  induction fuel with
  | zero => exact fun _ _ => .inl rfl
  | succ fuel ih =>
      intro waits m v hclears hc
      have hmode' : v.chan.config.multiProducer = true := by rw [hc.config, hmode]
      have hdepth := cleared_depth hq hlow hc
      have hsame (h0 : v.region.tail = w.region.tail) : w.Untouched (v.refreshed (d - m)) := by
        have hm : m = 0 := by
          have := hc.tail
          omega
        rw [hc.same hm, hm, Nat.sub_zero, hq.refreshed]
        exact .refl w
      rw [drop_succ]
      by_cases hlen : (v.refreshed (d - m)).chan.len = 0
      · rw [dropRound_nothing hdepth hlen]
        have hadvances := cleared_advances hq hlow hc
        have hmd := (cleared_counted hq hlow hc).1
        have hm : m ≤ w.chan.len := by
          have := hq.len
          omega
        exact ⟨m, hm, hadvances, (low_passed_le_iff hq hlow hm hadvances).2 hmd⟩
      have hround : v.Round (d - m) := ⟨hdepth, hlen⟩
      have hagain (waits' : ℕ) :
          w.StaysInside (dropOldestMessageMpsc host fuel waits' (v.refreshed (d - m))) := by
        cases fuel with
        | zero => exact .inl rfl
        | succ fuel =>
            have hsucc : w.StaysInside (dropOldestMessageMpsc host (fuel + 1) waits' v) :=
              ih hclears hc
            rw [drop_succ] at hsucc ⊢
            rwa [dropRound_refreshed hround]
      by_cases hstate : AtCommitted (v.refreshed (d - m))
      · by_cases hdamaged : Damaged (v.refreshed (d - m))
        · rw [dropRound_damaged hround hdamaged]
          exact hagain waits
        rcases dropRound_reads host _ _ hround hstate hdamaged with
          ⟨k, hk, hcall⟩ | ⟨hnone, hcall⟩
        · obtain ⟨u, hdiscard, hadvances⟩ := discard_advances hq hlow hc
            (announces_bounds hk).1 (h.announced v _ k hclears hround hk)
          have hkd := h.announced v _ k hclears hround hk
          have hmd := (cleared_counted hq hlow hc).1
          have hn : m + k ≤ w.chan.len := by
            have := hq.len
            omega
          rw [hcall, hdiscard]
          exact ⟨m + k, hn, hadvances, (low_passed_le_iff hq hlow hn hadvances).2 (by omega)⟩
        · rw [hcall]
          exact .inr (hsame (h.fails v _ hclears hround (.inl ⟨hstate, hdamaged, hnone⟩)))
      cases hopen : v.chan.closed with
      | true =>
          have hm : m = 0 := hc.opened (hc.closed ▸ hopen)
          rw [dropRound_shut hround hstate hopen]
          exact .inr (hsame (by rw [hc.tail, hm, Nat.add_zero]))
      | false =>
          cases hext : reclaimExtent host (v.refreshed (d - m)) with
          | some extent =>
              rw [dropRound_reclaims hmode' hround hstate hopen hext]
              have hnext := hclears.snoc hround hstate hopen hext
              obtain ⟨m', hc'⟩ := hnext.cleared hq.fits.capacity hlow.1 hlow.2
              exact ih hnext hc'
          | none =>
              rw [dropRound_waits hmode' hround hstate hopen hext]
              cases waits with
              | zero => exact .inr (hsame (h.fails v _ hclears hround (.inr ⟨hstate, hopen, hext⟩)))
              | succ waits => exact hagain waits

/-- A slot that stays as it is is waited for until the deadline. -/
theorem drop_waits : ∀ {v : World}, v.chan.config.multiProducer = true → v.Round d →
    ¬ AtCommitted (v.refreshed d) → v.chan.closed = false →
      reclaimExtent host (v.refreshed d) = none →
        dropOldestMessageMpsc host (waits + 1) waits v =
          .error (.ofChannel .bufferFull) (v.refreshed d) := by
  induction waits with
  | zero =>
      intro v hmode hround hstate hopen hext
      rw [drop_succ, dropRound_waits hmode hround hstate hopen hext]
  | succ waits ih =>
      intro v hmode hround hstate hopen hext
      rw [drop_succ, dropRound_waits hmode hround hstate hopen hext]
      exact ih (v := v.refreshed d) hmode ⟨hround.cursors, hround.len⟩ hstate hopen hext

/-- **Where it does not**, enough rounds show it. -/
theorem clearsInside_of_stays (hmode : w.chan.config.multiProducer = true) (hq : w.Queued d)
    (hlow : Low w)
    (h : ∀ fuel, w.StaysInside (dropOldestMessageMpsc host fuel waits w)) :
    w.ClearsInside host where
  announced v d' k hclears hround hk := by
    obtain ⟨m, hc⟩ := hclears.cleared hq.fits.capacity hlow.1 hlow.2
    obtain rfl : d' = d - m :=
      Option.some.inj (hround.cursors.symm.trans (cleared_depth hq hlow hc))
    obtain ⟨rounds, hrounds⟩ := drop_clears waits hmode hclears
    have hstays := h (1 + rounds)
    rw [hrounds, drop_succ] at hstays
    obtain ⟨hstate, hintact⟩ := announces_intact (w := v.refreshed (d - m)) hk
    rcases dropRound_reads host _ _ hround hstate hintact with ⟨k', hk', hcall⟩ | ⟨hnone, -⟩
    · cases Option.some.inj (hk.symm.trans hk')
      have hlow' : v.region.tail < wordCount := by
        have := cleared_counted hq hlow hc
        have := hlow.2
        have := hc.tail
        omega
      obtain ⟨u, hdiscard, -, -, -, -, -, htail, -⟩ :=
        discard_eq (w := v.refreshed (d - m)) rfl rfl hlow' k
      rw [hcall, hdiscard] at hstays
      obtain ⟨n, hn, hadvances, hpassed⟩ := hstays
      exact counted_of_advances hq hlow hc htail hn hadvances hpassed
    · cases hk.symm.trans hnone
  fails v d' hclears hround hfails := by
    have hclosed {err : Failure} {u : World} (hstays : w.StaysInside (.error err u))
        (hne : err ≠ .diverges) : u.region.tail = w.region.tail := by
      rcases hstays with herr | hsame
      · exact absurd herr hne
      · exact hsame.words.2.1
    obtain ⟨m, hc⟩ := hclears.cleared hq.fits.capacity hlow.1 hlow.2
    have hmode' : v.chan.config.multiProducer = true := by rw [hc.config, hmode]
    obtain ⟨rounds, hrounds⟩ := drop_clears waits hmode hclears
    rcases hfails with ⟨hstate, hintact, hnone⟩ | ⟨hstate, hopen, hext⟩
    · have hstays := h (1 + rounds)
      rw [hrounds, drop_succ] at hstays
      rcases dropRound_reads host _ _ hround hstate hintact with ⟨k, hk, -⟩ | ⟨-, hcall⟩
      · cases hk.symm.trans hnone
      · rw [hcall] at hstays
        exact hclosed (u := v.refreshed d') hstays fun he => nomatch he
    · have hstays := h (waits + 1 + rounds)
      rw [hrounds, drop_waits hmode' hround hstate hopen hext] at hstays
      exact hclosed (u := v.refreshed d') hstays fun he => nomatch he

/-- **A multi-producer drop stays inside the queue** exactly where what it
comes to does. -/
theorem mpsc_stays_iff (hmode : w.chan.config.multiProducer = true) (hq : w.Queued d)
    (hlow : Low w) :
    (∀ fuel, w.StaysInside (dropOldestMessageMpsc host fuel waits w)) ↔ w.ClearsInside host :=
  ⟨clearsInside_of_stays hmode hq hlow, fun h fuel =>
    mpsc_stays hmode hq hlow h fuel (.refl w) (.refl w)⟩

end Mpsc

end PersistentShmChannel

/-! ## The in-memory channel -/

/-- The slots the message at this slot announces, where a drop can read it. -/
def FixedSlotRegion.announces (region : FixedSlotRegion) (index : ℕ) : Option ℕ :=
  match peekCommitted index region with
  | .error _ _ => none
  | .ok snapshot _ =>
      match decodeFrame snapshot.data with
      | .error _ => none
      | .ok frame =>
          match slotsToDrop frame with
          | .error _ => none
          | .ok count => some count

namespace ShmSpscChannel

open FixedSlotRegion

variable {ch ch' : ShmSpscChannel} {cell : Cell} {cells : List Cell} {k n : ℕ}

/-- **The tail steps over `n` slots** and no other slot changes. -/
structure Advances (ch : ShmSpscChannel) (n : ℕ) (ch' : ShmSpscChannel) : Prop where
  head : ch'.head = ch.head
  tail : ch'.tail = (ch.tail + n) % ch.config.capacity
  slots : ∀ i, (∀ j < n, i ≠ (ch.tail + j) % ch.config.capacity) →
    ch'.region.slots i = ch.region.slots i
  len : ch'.len = ch.len - n

/-- **The call stays inside the queue**: it steps over no more slots than
the queue has, and an error changes nothing. -/
def StaysInside (ch : ShmSpscChannel) : EStateM.Result Failure ShmSpscChannel Unit → Prop
  | .ok _ ch' => ∃ n ≤ ch.len, ch.Advances n ch'
  | .error _ ch' => ch' = ch

/-- The message at the tail announces no more slots than are queued, and
every one of them is COMMITTED. -/
def AnnouncesInside (ch : ShmSpscChannel) : Prop :=
  ∀ k, ch.region.announces ch.tail = some k → ch.len ≠ 0 →
    k ≤ ch.len ∧ ∀ j < k, (ch.region.slots ((ch.tail + j) % ch.config.capacity)).state = .committed

/-- The cell is one to read. -/
def IsCommitted (cell : Option Cell) : Prop := ∃ snapshot, cell = some (.committed snapshot)

/-- The slots of a ring, by their cells. -/
theorem Ring.committed_iff (h : ch.Ring cells) (hk : k < ch.config.capacity) :
    (ch.region.slots ((ch.tail + k) % ch.config.capacity)).state = .committed ↔
      IsCommitted cells[k]? := by
  have hshow := h.shows k hk
  cases hcell : cells[k]? with
  | none =>
      rw [hcell] at hshow
      refine iff_of_false (fun hstate => ?_) fun ⟨_, he⟩ => nomatch he
      cases hstate.symm.trans hshow
  | some cell =>
      rw [hcell] at hshow
      cases cell with
      | free =>
          refine iff_of_false (fun hstate => ?_) fun ⟨_, he⟩ => nomatch he
          cases hstate.symm.trans hshow
      | pinned =>
          refine iff_of_false (fun hstate => ?_) fun ⟨_, he⟩ => nomatch he
          cases hstate.symm.trans hshow
      | committed snapshot =>
          exact iff_of_true (by rw [hshow.1]) ⟨snapshot, rfl⟩

/-- **A step of the release loop** frees the first cell. -/
theorem Ring.dropSlots_succ {snapshot : SlotSnapshot}
    (h : ch.Ring (.committed snapshot :: cells)) :
    ∃ region, ShmSpscChannel.dropSlots (k + 1) ch =
        ShmSpscChannel.dropSlots k (stepTail { ch with region }) ∧
      (stepTail { ch with region }).Ring cells ∧ SameBut ch.tail ch.region region := by
  obtain ⟨region, hrelease, hsame, hshow⟩ := releaseCommitted_ok h.fits h.index h.first
  have hon : onRegion (releaseCommitted ch.tail) ch = .ok () { ch with region } := by
    rw [onRegion, hrelease]
  refine ⟨region, ?_, (h.setFirst hsame hshow).step, hsame⟩
  rw [ShmSpscChannel.dropSlots, get_bind]
  exact (bind_ok hon).trans rfl

/-- Where the first cell is not COMMITTED the loop fails. -/
theorem Ring.dropSlots_fails (h : ch.Ring cells) (hnot : ¬ IsCommitted cells[0]?) :
    ∃ err, ShmSpscChannel.dropSlots (k + 1) ch = .error err ch := by
  have hstate : (ch.region.slots ch.tail).state ≠ .committed := by
    have hiff := h.committed_iff h.pos
    rw [Nat.add_zero, Nat.mod_eq_of_lt h.tail] at hiff
    exact fun hc => hnot (hiff.1 hc)
  have hrelease : releaseCommitted ch.tail ch.region =
      .error (.ofChannel (.invalidConfig "slot is not committed")) ch.region := by
    rw [releaseCommitted, bind_ok (slot_ok h.index), if_pos hstate]
    rfl
  have hon : onRegion (releaseCommitted ch.tail) ch =
      .error (.ofChannel (.invalidConfig "slot is not committed")) ch := by
    rw [onRegion, hrelease]
  exact ⟨_, (bind_error hon).trans rfl⟩

/-- The loop never counts more. -/
theorem dropSlots_len (k : ℕ) (ch : ShmSpscChannel) : (final (dropSlots k ch)).len ≤ ch.len := by
  induction k generalizing ch with
  | zero => exact Nat.le_refl _
  | succ k ih =>
      rw [dropSlots, get_bind]
      cases hrelease : releaseCommitted ch.tail ch.region with
      | error err region =>
          have hon : onRegion (releaseCommitted ch.tail) ch = .error err { ch with region } := by
            rw [onRegion, hrelease]
          rw [bind_error hon]
          exact Nat.le_refl _
      | ok _ region =>
          have hon : onRegion (releaseCommitted ch.tail) ch = .ok () { ch with region } := by
            rw [onRegion, hrelease]
          rw [bind_ok hon]
          exact (ih (stepTail { ch with region })).trans (Nat.sub_le _ _)

theorem isCommitted_cons (h : IsCommitted cells[0]?) :
    ∃ snapshot rest, cells = .committed snapshot :: rest := by
  obtain ⟨snapshot, h⟩ := h
  cases cells with
  | nil => cases h
  | cons cell rest => exact ⟨snapshot, rest, congrArg (· :: rest) (Option.some.inj h)⟩

/-- **Over COMMITTED cells the loop succeeds.** -/
theorem Ring.dropSlots_ok (h : ch.Ring cells) (hall : ∀ j < k, IsCommitted cells[j]?) :
    ∃ ch', ShmSpscChannel.dropSlots k ch = .ok () ch' ∧ ch.Advances k ch' := by
  induction k generalizing ch cells with
  | zero => exact ⟨ch, rfl, rfl, (Nat.mod_eq_of_lt h.tail).symm, fun _ _ => rfl, rfl⟩
  | succ k ih =>
      obtain ⟨snapshot, rest, rfl⟩ := isCommitted_cons (hall 0 k.succ_pos)
      obtain ⟨region, hstep, hring, hsame⟩ := h.dropSlots_succ (k := k)
      obtain ⟨ch', hrest, hhead, htail, hslots, hlen⟩ :=
        ih hring fun j hj => hall (j + 1) (Nat.succ_lt_succ hj)
      have hplace (j : ℕ) : ((ch.tail + 1) % ch.config.capacity + j) % ch.config.capacity =
          (ch.tail + (j + 1)) % ch.config.capacity := by
        rw [Nat.mod_add_mod, Nat.add_assoc, Nat.add_comm 1]
      refine ⟨ch', hstep.trans hrest, hhead, htail.trans (hplace k), fun i hi => ?_, ?_⟩
      · have hother : ∀ j < k, i ≠ ((ch.tail + 1) % ch.config.capacity + j) % ch.config.capacity :=
          fun j hj => hplace j ▸ hi (j + 1) (Nat.succ_lt_succ hj)
        have hfirst : i ≠ ch.tail := by
          have hzero := hi 0 k.succ_pos
          rwa [Nat.add_zero, Nat.mod_eq_of_lt h.tail] at hzero
        exact (hslots i hother).trans (hsame.slots i hfirst)
      · rw [hlen, Nat.add_comm k]
        exact Nat.sub_sub _ _ _

/-- Over others it fails. -/
theorem Ring.dropSlots_error (h : ch.Ring cells) (hnot : ¬ ∀ j < k, IsCommitted cells[j]?) :
    ∃ err ch', ShmSpscChannel.dropSlots k ch = .error err ch' := by
  induction k generalizing ch cells with
  | zero => exact absurd (fun j hj => absurd hj (Nat.not_lt_zero j)) hnot
  | succ k ih =>
      by_cases hfirst : IsCommitted cells[0]?
      · obtain ⟨snapshot, rest, rfl⟩ := isCommitted_cons hfirst
        obtain ⟨region, hstep, hring, -⟩ := h.dropSlots_succ (k := k)
        obtain ⟨err, ch', hrest⟩ := ih hring fun hall => hnot fun j hj => by
          cases j with
          | zero => exact hfirst
          | succ j => exact hall j (Nat.lt_of_succ_lt_succ hj)
        exact ⟨err, ch', hstep.trans hrest⟩
      · obtain ⟨err, hfails⟩ := h.dropSlots_fails (k := k) hfirst
        exact ⟨err, ch, hfails⟩

/-- What is announced inside the queue, by the cells. -/
theorem Ring.inside_iff (h : ch.Ring cells) :
    (k ≤ ch.len ∧ ∀ j < k, (ch.region.slots ((ch.tail + j) % ch.config.capacity)).state =
      .committed) ↔ ∀ j < k, IsCommitted cells[j]? := by
  constructor
  · rintro ⟨hk, hall⟩ j hj
    have hcap : j < ch.config.capacity := by
      have := h.len
      have := h.bounded
      omega
    exact (h.committed_iff hcap).1 (hall j hj)
  · intro hall
    have hlt (j : ℕ) (hj : j < k) : j < cells.length := by
      obtain ⟨snapshot, hcell⟩ := hall j hj
      exact (List.getElem?_eq_some_iff.1 hcell).1
    refine ⟨?_, fun j hj =>
      (h.committed_iff (Nat.lt_of_lt_of_le (hlt j hj) h.bounded)).2 (hall j hj)⟩
    rw [h.len]
    rcases Nat.eq_zero_or_pos k with rfl | hpos
    · exact Nat.zero_le _
    · have := hlt (k - 1) (by omega)
      omega

/-- A look at a slot changes nothing. -/
theorem peekCommitted_final (index : ℕ) (region : FixedSlotRegion) :
    final (peekCommitted index region) = region := by
  have hslot : Keeps (fun r : FixedSlotRegion => r) (slot index) := by
    refine keeps_get.bind fun region => ?_
    split
    · exact keeps_pure _
    · exact keeps_throw _
  have hpeek : Keeps (fun r : FixedSlotRegion => r) (peekCommitted index) := by
    refine hslot.bind fun entry => ?_
    split
    · exact keeps_throw _
    refine keeps_get.bind fun region => ?_
    split
    · exact keeps_throw _
    · exact keeps_pure _
  exact hpeek region

/-- Drop this many slots and count the message. -/
def dropAnnounced (count : ℕ) : SpscM Unit := do
  dropSlots count
  modify fun ch => { ch with expectedRecvSeq := ch.expectedRecvSeq + 1 }

/-- **What an in-memory drop does**: it runs the release loop over what is
announced, or fails with nothing changed. -/
theorem dropOldestMessage_eq (hlen : ch.len ≠ 0) :
    (∃ k, ch.region.announces ch.tail = some k ∧ dropOldestMessage ch = dropAnnounced k ch) ∨
    (ch.region.announces ch.tail = none ∧ ∃ err, dropOldestMessage ch = .error err ch) := by
  have hsame := peekCommitted_final ch.tail ch.region
  rw [dropOldestMessage, get_bind, if_neg hlen, FixedSlotRegion.announces]
  cases hpeek : peekCommitted ch.tail ch.region with
  | error err region =>
      rw [hpeek, final_error] at hsame
      have hon : onRegion (peekCommitted ch.tail) ch = .error err ch := by
        rw [onRegion, hpeek, hsame]
      exact .inr ⟨rfl, err, bind_error hon⟩
  | ok snapshot region =>
      rw [hpeek, final_ok] at hsame
      have hon : onRegion (peekCommitted ch.tail) ch = .ok snapshot ch := by
        rw [onRegion, hpeek, hsame]
      rw [bind_ok hon]
      dsimp only
      cases hdec : decodeFrame snapshot.data with
      | error err => exact .inr ⟨rfl, err, rfl⟩
      | ok frame =>
          dsimp only
          cases hcount : slotsToDrop frame with
          | error err => exact .inr ⟨rfl, err, rfl⟩
          | ok count => exact .inl ⟨count, rfl, rfl⟩

/-- A message that announces slots is at a COMMITTED one. -/
theorem Ring.announces_first (h : ch.Ring cells) (hk : ch.region.announces ch.tail = some k) :
    0 < k ∧ IsCommitted cells[0]? := by
  unfold FixedSlotRegion.announces at hk
  split at hk
  · cases hk
  rename_i snapshot region hpeek
  split at hk
  · cases hk
  split at hk
  · cases hk
  rename_i hcount
  cases hk
  refine ⟨(slotsToDrop_bounds hcount).1, ?_⟩
  have hiff := h.committed_iff h.pos
  rw [Nat.add_zero, Nat.mod_eq_of_lt h.tail] at hiff
  refine hiff.1 (not_not.1 fun hstate => ?_)
  rw [peekCommitted, bind_ok (slot_ok h.index), if_pos hstate] at hpeek
  cases hpeek

/-- **An in-memory drop stays inside the queue** exactly where the message
at the tail announces COMMITTED slots of it only. -/
theorem memory_stays_iff (h : ch.Ring cells) :
    ch.StaysInside (dropOldestMessage ch) ↔ ch.AnnouncesInside := by
  by_cases hlen : ch.len = 0
  · have hcall : dropOldestMessage ch = .ok () ch := by
      rw [dropOldestMessage, get_bind, if_pos hlen]
      rfl
    rw [hcall]
    refine iff_of_true ⟨0, Nat.zero_le _, rfl, ?_, fun _ _ => rfl, rfl⟩ fun k _ hne =>
      absurd hlen hne
    exact (Nat.mod_eq_of_lt h.tail).symm
  rcases dropOldestMessage_eq hlen with ⟨k, hannounces, hcall⟩ | ⟨hannounces, err, hcall⟩
  · have hinside : ch.AnnouncesInside ↔ ∀ j < k, IsCommitted cells[j]? := by
      rw [← h.inside_iff]
      constructor
      · exact fun hall => hall k hannounces hlen
      · intro hk k' hk' _
        cases Option.some.inj (hannounces.symm.trans hk')
        exact hk
    rw [hinside, hcall]
    by_cases hall : ∀ j < k, IsCommitted cells[j]?
    · obtain ⟨ch', hdrop, hhead, htail, hslots, hlen'⟩ := h.dropSlots_ok hall
      rw [show dropAnnounced k ch = .ok () _ from bind_ok hdrop]
      exact iff_of_true ⟨k, (h.inside_iff.2 hall).1, hhead, htail, hslots, hlen'⟩ hall
    · refine iff_of_false ?_ hall
      obtain ⟨hpos, hfirst⟩ := h.announces_first hannounces
      obtain ⟨snapshot, rest, rfl⟩ := isCommitted_cons hfirst
      obtain ⟨k, rfl⟩ : ∃ k', k = k' + 1 := ⟨k - 1, by omega⟩
      obtain ⟨region, hstep, hring, -⟩ := h.dropSlots_succ (k := k)
      obtain ⟨err, ch', hfails⟩ := h.dropSlots_error hall
      have hless : ch'.len ≤ ch.len - 1 := by
        have hle := dropSlots_len k (stepTail { ch with region })
        rw [← hstep, hfails] at hle
        exact hle
      rw [show dropAnnounced (k + 1) ch = .error err ch' from bind_error hfails]
      intro hsame
      rw [show ch' = ch from hsame] at hless
      omega
  · rw [hcall]
    refine iff_of_true rfl fun k hk => ?_
    cases hannounces.symm.trans hk

end ShmSpscChannel

/-- **When a drop stays inside the queue**: in memory, in single-producer
mode and in multi-producer mode. -/
theorem drops_inside_iff (host : Host) (ch : ShmSpscChannel) (w : World) :
    (∀ cells : List Cell, ch.Ring cells →
      (ch.StaysInside ch.dropOldestMessage ↔ ch.AnnouncesInside)) ∧
    (∀ d, w.chan.config.multiProducer = false → w.Queued d →
      (w.StaysInside (dropOldestMessage host w) ↔ w.AnnouncesInside)) ∧
    ∀ waits d, w.chan.config.multiProducer = true → w.Queued d → w.Low →
      ((∀ fuel, w.StaysInside (dropOldestMessageMpsc host fuel waits w)) ↔
        w.ClearsInside host) := by
  refine ⟨fun cells h => ShmSpscChannel.memory_stays_iff h, fun d hmode hq => ?_,
    fun waits d => mpsc_stays_iff⟩
  rw [spsc_call hmode]
  exact spsc_stays_iff hq

/-- The first chunk of a message of three. -/
def chunkOfThree : Bytes :=
  match (do
    let metadata ← chunkMetadata 0 3 1
    @encodeFrame crc32Checksum .bytes (chunkFlags 0 3) 0 0 0 metadata [5]) with
  | .ok frame => frame
  | .error _ => []

/-- A ring of four slots that all hold that chunk, so many of them counted. -/
def chunkRing (multiProducer : Bool) (head : ℕ) : World :=
  World.refreshed
    { chan := fresh sampleHost ⟨4, 64, .dropOldest, none, multiProducer⟩
      region :=
        { capacity := 4
          frameCapacity := 114
          head
          tail := 0
          magic := regionMagic multiProducer
          format := REGION_FORMAT
          pinFloor := PIN_FLOOR_NONE
          slots := fun _ => ⟨encodeHeader .committed 0 chunkOfThree.length none false,
            Area.zero.write 0 chunkOfThree⟩ } }
    head

theorem fits_chunkRing (multiProducer : Bool) (head : ℕ) :
    Fits (chunkRing multiProducer head).chan.config (chunkRing multiProducer head).region := by
  have hlayout : totalLen 4 162 = .ok (4 * 162 + REGION_HEADER_LEN) := by decide
  exact ⟨rfl, rfl, ⟨_, by decide, hlayout⟩, rfl, rfl, rfl, rfl⟩

theorem announces_chunkRing (multiProducer : Bool) (head : ℕ) :
    (chunkRing multiProducer head).region.announces 0 = some 3 := by
  have hsame : (chunkRing multiProducer head).region.announces 0 =
      (chunkRing false 0).region.announces 0 := Region.announces_congr rfl rfl
  rw [hsame]
  decide +kernel

theorem queued_three (multiProducer : Bool) : (chunkRing multiProducer 3).Queued 3 :=
  ⟨fits_chunkRing _ _, by decide +revert, rfl, by decide +revert, by decide +revert,
    by decide +revert⟩

/-- A new in-memory channel of one slot. -/
def memoryOfOne : ShmSpscChannel :=
  ShmSpscChannel.fresh ⟨1, 8, .dropOldest, none, false⟩ ⟨1, 58, Area.zero⟩

/-- With three slots counted the drop of three stays inside. -/
theorem drops_inside_three :
    memoryOfOne.StaysInside memoryOfOne.dropOldestMessage ∧
    (chunkRing false 3).StaysInside (dropOldestMessage sampleHost (chunkRing false 3)) ∧
    ∀ fuel, (chunkRing true 3).StaysInside
      (dropOldestMessageMpsc sampleHost fuel 0 (chunkRing true 3)) := by
  have hcommitted : AtCommitted (chunkRing true 3) := by decide
  obtain ⟨hmemory, hsingle, -⟩ := drops_inside_iff sampleHost memoryOfOne (chunkRing false 3)
  obtain ⟨-, -, hmulti⟩ := drops_inside_iff sampleHost memoryOfOne (chunkRing true 3)
  refine ⟨(hmemory [] (ShmSpscChannel.ring_fresh (by decide) (by decide))).2 ?_,
    (hsingle 3 rfl (queued_three false)).2 ?_,
    (hmulti 0 3 rfl (queued_three true) ⟨by decide, by decide⟩).2 ⟨?_, ?_⟩⟩
  · exact fun k _ hlen => absurd rfl hlen
  · intro k hk _
    cases Option.some.inj (hk.symm.trans (announces_chunkRing false 3))
    decide
  · intro v d k hclears hround hk
    cases hclears with
    | refl =>
        cases Option.some.inj (hk.symm.trans (announces_chunkRing true 3))
        cases Option.some.inj (hround.cursors.symm.trans (queued_three true).cursors)
        exact Nat.le_refl 3
    | step hr hstate => exact absurd hcommitted hstate
  · intro v d hclears _ _
    cases hclears with
    | refl => rfl
    | step hr hstate => exact absurd hcommitted hstate

/-- **With one slot counted it moves the tail past the head.** -/
theorem drops_past_head :
    ¬ ∀ (host : Host) (w : World) (d : ℕ), w.chan.config.multiProducer = false → w.Queued d →
      w.StaysInside (dropOldestMessage host w) := by
  intro hall
  have hqueued : (chunkRing false 1).Queued 1 :=
    ⟨fits_chunkRing _ _, by decide, rfl, by decide, by decide, by decide⟩
  have hstays := hall sampleHost (chunkRing false 1) 1 rfl hqueued
  have htail : (final (dropOldestMessage sampleHost (chunkRing false 1))).region.tail = 3 := by
    decide +kernel
  have hok : outcome (dropOldestMessage sampleHost (chunkRing false 1)) = .ok () := by
    decide +kernel
  cases hcall : dropOldestMessage sampleHost (chunkRing false 1) with
  | error err v =>
      rw [hcall] at hok
      cases hok
  | ok _ v =>
      rw [hcall] at hstays htail
      obtain ⟨n, hn, hadvances, -⟩ := hstays
      have hmoved : v.region.tail = 0 + n := hadvances.tail
      have hlen : (chunkRing false 1).chan.len = 1 := by decide
      have hthree : v.region.tail = 3 := htail
      omega

end Dsline
