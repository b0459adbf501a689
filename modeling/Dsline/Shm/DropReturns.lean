import Dsline.Shm.Damaged
/-!
# Whether a multi-producer drop returns

`drop_oldest_message_mpsc` over any region. A WRITING tail is reclaimed or
waited for, and only the wait consults the deadline. A COMMITTED tail whose
length, frame or chunk metadata is damaged is taken for one that another
drop is releasing, and looked at again: with no other drop the loop never
ends. Where a reclaim or a drop adds up more than a word it panics.
-/

namespace Dsline

open PersistentShmChannel Effect LittleEndian

/-- The slots the message at this slot announces, where a drop can read it. -/
def Region.announces (region : Region) (index : ℕ) : Option ℕ :=
  if region.state index = .committed ∧ region.payloadLen index ≤ region.frameCapacity then
    match decodeFrame (region.payload index (region.payloadLen index)) with
    | .error _ => none
    | .ok frame =>
        match slotsToDrop frame with
        | .error _ => none
        | .ok count => some count
  else none

/-- What a slot announces is in its bytes. -/
theorem Region.announces_congr {r s : Region} {i j : ℕ} (hslot : r.slots i = s.slots j)
    (hframe : r.frameCapacity = s.frameCapacity) : r.announces i = s.announces j := by
  simp only [Region.announces, Region.state, Region.payloadLen, Region.payload, Region.header,
    hslot, hframe]
  rfl

namespace World

/-- A refresh finds `d` slots, and the handle something to drop. -/
structure Round (w : World) (d : ℕ) : Prop where
  cursors : cursorLen w.chan.config.capacity w.region.head w.region.tail = some d
  len : (w.refreshed d).chan.len ≠ 0

/-- The world once the dead reservations at its tail are reclaimed, one after
the other, by an open handle. -/
inductive Clears (host : Host) : World → World → Prop
  | refl (w : World) : Clears host w w
  | step {w v : World} {d extent : ℕ} : w.Round d → ¬ AtCommitted (w.refreshed d) →
      w.chan.closed = false → reclaimExtent host (w.refreshed d) = some extent →
        Clears host ((w.refreshed d).extentFreed extent) v → Clears host w v

/-- **The COMMITTED slot at the tail is damaged**: it announces more bytes
than it has, its frame does not decode, or its chunk metadata is no chunk's. -/
def Damaged (w : World) : Prop :=
  AtCommitted w ∧
    (w.region.frameCapacity < w.region.payloadLen w.chan.tail ∨
      (∃ err, decodeFrame (w.region.payload w.chan.tail (w.region.payloadLen w.chan.tail)) =
        .error err) ∨
      ∃ frame err, decodeFrame
          (w.region.payload w.chan.tail (w.region.payloadLen w.chan.tail)) = .ok frame ∧
        isChunked frame = true ∧ chunkInfo frame = .error err)

/-- The drop comes to a damaged slot. -/
def DropsDamaged (host : Host) (w : World) : Prop :=
  ∃ v d, Clears host w v ∧ v.Round d ∧ Damaged (v.refreshed d)

/-- **What is dropped or reclaimed at the tail ends beyond the last cursor**,
or is more than the handle can count. -/
def OverrunsAt (host : Host) (w : World) : Prop :=
  (∃ k, w.region.announces w.chan.tail = some k ∧ wordCount ≤ w.chan.tailCursor + k) ∨
    (¬ AtCommitted w ∧ w.chan.closed = false ∧ ∃ extent, reclaimExtent host w = some extent ∧
      (wordCount ≤ w.chan.tailCursor + extent ∨ wordCount ≤ w.chan.reclaimedSlots + extent))

/-- The drop comes to such a sum. -/
def DropOverruns (host : Host) (w : World) : Prop :=
  ∃ v d, Clears host w v ∧ v.Round d ∧ OverrunsAt host (v.refreshed d)

end World

namespace PersistentShmChannel

open World

variable {host : Host} {w v : World} {d extent fuel waits : ℕ}

theorem reclaim_some (hmode : w.chan.config.multiProducer = true) (hw : w.Current)
    (h : reclaimExtent host w = some extent) :
    tryReclaimAtTail host w = .ok extent (w.extentFreed extent) :=
  tryReclaimAtTail_extent hmode hw h

theorem reclaim_none (hmode : w.chan.config.multiProducer = true)
    (h : reclaimExtent host w = none) : tryReclaimAtTail host w = .ok 0 w := by
  rw [tryReclaimAtTail, get_bind, if_pos hmode, tryReclaimAtTailMpsc, get_bind, h]
  rfl

/-! ## One round -/

/-- How a drop reclaims at the tail, and how it discards a message. -/
structure DropOps where
  reclaim : ChannelM ℕ
  discard : ℕ → ℕ → ChannelM Unit

/-- The drop of the model. -/
def dropOps (host : Host) : DropOps := ⟨tryReclaimAtTail host, dropOldestMessageMpsc.discard⟩

/-- `try_reclaim_at_tail` with its additions of machine words: to the tail,
and to the slots the handle has reclaimed. -/
def reclaimTrapping (host : Host) : ChannelM ℕ := do
  let w ← get
  let freed ← tryReclaimAtTailTrapping host
  if 0 < freed ∧ wordCount ≤ w.chan.reclaimedSlots + freed then
    throw .panic
  return freed

/-- The discard of a drop with its addition of machine words. -/
def discardTrapping (tailCount count : ℕ) : ChannelM Unit :=
  if wordCount ≤ tailCount + count then throw .panic
  else dropOldestMessageMpsc.discard tailCount count

/-- The drop with its additions of machine words. -/
def dropOpsTrapping (host : Host) : DropOps := ⟨reclaimTrapping host, discardTrapping⟩

/-- One round of the drop, and what goes on behind it. -/
def dropRound (ops : DropOps) (again : ℕ → ChannelM Unit) (waits : ℕ) : ChannelM Unit := do
  refreshCursors
  let w ← get
  if w.chan.len = 0 then
    return ()
  let tailCount := w.chan.tailCursor
  if ← pollTailCommitted then
    let slot := w.region.slots w.chan.tail
    let len := w.region.payloadLen w.chan.tail
    if w.region.frameCapacity < len then
      again waits
    else
      match decodeFrame (slot.payload.read 0 len) with
      | .error _ => again waits
      | .ok frame =>
          if isChunked frame then
            match chunkInfo frame with
            | .error _ => again waits
            | .ok info =>
                if info.index ≠ 0 then throw (.ofChannel .corruptedMessage)
                else ops.discard tailCount info.total
          else ops.discard tailCount 1
  else if 0 < (← ops.reclaim) then
    again waits
  else
    refreshCursors
    if (← get).chan.tailCursor = tailCount then
      match waits with
      | 0 => throw (.ofChannel .bufferFull)
      | waits + 1 => again waits
    else again waits

/-- `drop_oldest_message_mpsc` with its additions of machine words. -/
def dropOldestMessageMpscTrapping (host : Host) : ℕ → ℕ → ChannelM Unit
  | 0, _ => throw .diverges
  | fuel + 1, waits =>
      dropRound (dropOpsTrapping host) (dropOldestMessageMpscTrapping host fuel) waits

/-- The drop is neither lost in its loop nor in a panic. -/
def Returned (r : EStateM.Result Failure World Unit) : Prop :=
  outcome r ≠ .error .diverges ∧ outcome r ≠ .error .panic

end PersistentShmChannel

/-- **The drop returns**: some number of rounds is enough. -/
def World.DropReturns (host : Host) (waits : ℕ) (w : World) : Prop :=
  ∃ fuel, Returned (dropOldestMessageMpscTrapping host fuel waits w)

namespace PersistentShmChannel

open World

variable {host : Host} {w v : World} {d k extent fuel waits : ℕ}

theorem drop_succ : dropOldestMessageMpsc host (fuel + 1) waits =
    dropRound (dropOps host) (dropOldestMessageMpsc host fuel) waits := by
  cases waits <;> rfl

theorem dropTrapping_succ : dropOldestMessageMpscTrapping host (fuel + 1) waits =
    dropRound (dropOpsTrapping host) (dropOldestMessageMpscTrapping host fuel) waits := rfl

theorem dropSlotsMpsc_ok (count : ℕ) : ∀ w, ∃ w', dropSlotsMpsc count w = .ok () w' := by
  induction count with
  | zero => exact fun w => ⟨w, rfl⟩
  | succ count ih => exact fun w => ih _

theorem discard_ok (tailCount count : ℕ) (w : World) :
    ∃ w', dropOldestMessageMpsc.discard tailCount count w = .ok () w' := by
  rw [dropOldestMessageMpsc.discard, get_bind]
  dsimp only
  rw [set_bind]
  split
  · obtain ⟨w', hdrop⟩ := dropSlotsMpsc_ok count
      { w with region := (w.region.compareExchangeTail tailCount (tailCount + count)).1 }
    rw [bind_ok hdrop]
    exact ⟨_, rfl⟩
  · exact ⟨_, rfl⟩

variable {ops : DropOps} {again : ℕ → ChannelM Unit}

/-- A refresh that fails ends the drop. -/
theorem dropRound_inconsistent
    (hd : cursorLen w.chan.config.capacity w.region.head w.region.tail = none) :
    ∃ v, dropRound ops again waits w = .error inconsistentCursors v := by
  rw [dropRound.eq_def, bind_error (refreshCursors_none hd)]
  exact ⟨_, rfl⟩

/-- So does a round that counts nothing. -/
theorem dropRound_nothing
    (hd : cursorLen w.chan.config.capacity w.region.head w.region.tail = some d)
    (hlen : (w.refreshed d).chan.len = 0) :
    dropRound ops again waits w = .ok () (w.refreshed d) := by
  rw [dropRound.eq_def, bind_ok (refreshCursors_ok hd), get_bind, if_pos hlen]
  rfl

/-- What a round makes of a committed slot. -/
def dropRead (ops : DropOps) (again : ℕ → ChannelM Unit) (waits : ℕ) (region : Region)
    (tail tailCursor : ℕ) : ChannelM Unit :=
  if region.frameCapacity < region.payloadLen tail then again waits
  else match decodeFrame (region.payload tail (region.payloadLen tail)) with
    | .error _ => again waits
    | .ok frame =>
        if isChunked frame then
          match chunkInfo frame with
          | .error _ => again waits
          | .ok info =>
              if info.index ≠ 0 then throw (.ofChannel .corruptedMessage)
              else ops.discard tailCursor info.total
        else ops.discard tailCursor 1

theorem dropRound_committed (hround : w.Round d) (hstate : AtCommitted (w.refreshed d)) :
    dropRound ops again waits w = dropRead ops again waits w.region (w.refreshed d).chan.tail
      (w.refreshed d).chan.tailCursor (w.refreshed d) := by
  rw [dropRound.eq_def, bind_ok (refreshCursors_ok hround.cursors), get_bind, if_neg hround.len]
  exact (bind_ok (pollTailCommitted_true hstate)).trans rfl

/-- A damaged slot leads to another round. -/
theorem dropRound_damaged (hround : w.Round d) (h : Damaged (w.refreshed d)) :
    dropRound ops again waits w = again waits (w.refreshed d) := by
  obtain ⟨hstate, hdamaged⟩ := h
  have hread : dropRead ops again waits w.region (w.refreshed d).chan.tail
      (w.refreshed d).chan.tailCursor = again waits := by
    rw [dropRead]
    rcases hdamaged with hlong | ⟨err, hdec⟩ | ⟨frame, err, hdec, hchunk, hinfo⟩
    · exact if_pos hlong
    · split
      · rfl
      · rw [show decodeFrame (w.region.payload (w.refreshed d).chan.tail
          (w.region.payloadLen (w.refreshed d).chan.tail)) = .error err from hdec]
    · split
      · rfl
      · rw [show decodeFrame (w.region.payload (w.refreshed d).chan.tail
          (w.region.payloadLen (w.refreshed d).chan.tail)) = .ok frame from hdec]
        simp only [hchunk, if_true, hinfo]
  rw [dropRound_committed hround hstate, hread]

/-- **A round at an intact slot** drops what is announced, or fails with
nothing changed. -/
theorem dropRound_intact (ops : DropOps) (again : ℕ → ChannelM Unit) (waits : ℕ)
    (hround : v.Round d) (hstate : AtCommitted (v.refreshed d)) (h : ¬ Damaged (v.refreshed d)) :
    (∃ k, v.region.announces (v.refreshed d).chan.tail = some k ∧ dropRound ops again waits v =
      ops.discard (v.refreshed d).chan.tailCursor k (v.refreshed d)) ∨
    (v.region.announces (v.refreshed d).chan.tail = none ∧
      dropRound ops again waits v = .error (.ofChannel .corruptedMessage) (v.refreshed d)) := by
  have hshort : ¬ v.region.frameCapacity < v.region.payloadLen (v.refreshed d).chan.tail :=
    fun hlong => h ⟨hstate, .inl hlong⟩
  have hround' : ∀ r, dropRead ops again waits v.region (v.refreshed d).chan.tail
      (v.refreshed d).chan.tailCursor (v.refreshed d) = r → dropRound ops again waits v = r :=
    fun r hr => (dropRound_committed hround hstate).trans hr
  have hread : v.region.state (v.refreshed d).chan.tail = .committed ∧
      v.region.payloadLen (v.refreshed d).chan.tail ≤ v.region.frameCapacity :=
    ⟨hstate, Nat.le_of_not_lt hshort⟩
  rw [Region.announces, if_pos hread]
  unfold dropRead at hround'
  rw [if_neg hshort] at hround'
  cases hdec : decodeFrame (v.region.payload (v.refreshed d).chan.tail
      (v.region.payloadLen (v.refreshed d).chan.tail)) with
  | error err => exact absurd ⟨hstate, .inr (.inl ⟨err, hdec⟩)⟩ h
  | ok frame =>
      simp only [hdec] at hround' ⊢
      cases hchunk : isChunked frame with
      | false =>
          refine .inl ⟨1, ?_, hround' _ ?_⟩
          · rw [slotsToDrop, hchunk]
            rfl
          · rw [hchunk]
            rfl
      | true =>
          rw [hchunk, if_pos rfl] at hround'
          cases hinfo : chunkInfo frame with
          | error err => exact absurd ⟨hstate, .inr (.inr ⟨frame, err, hdec, hchunk, hinfo⟩)⟩ h
          | ok info =>
              simp only [hinfo] at hround'
              by_cases hindex : info.index = 0
              · refine .inl ⟨info.total, ?_, hround' _ (by rw [if_neg (not_not.2 hindex)])⟩
                simp only [slotsToDrop, hchunk, if_true, hinfo, bind, Except.bind, hindex, ne_eq,
                  not_true_eq_false, if_false]
                rfl
              · refine .inr ⟨?_, hround' _ (by rw [if_pos hindex]; rfl)⟩
                simp only [slotsToDrop, hchunk, if_true, hinfo, bind, Except.bind, hindex, ne_eq,
                  not_false_eq_true]
                rfl

/-- A message that announces slots is intact. -/
theorem announces_intact (hk : w.region.announces w.chan.tail = some k) :
    AtCommitted w ∧ ¬ Damaged w := by
  unfold Region.announces at hk
  split at hk
  · rename_i hread
    refine ⟨hread.1, ?_⟩
    rintro ⟨-, hlong | ⟨err, hdec⟩ | ⟨frame, err, hdec, hchunk, hinfo⟩⟩
    · exact absurd hread.2 (Nat.not_le.2 hlong)
    · rw [hdec] at hk
      cases hk
    · have hnone : slotsToDrop frame = .error err := by
        rw [slotsToDrop, if_pos hchunk, hinfo]
        rfl
      simp only [hdec, hnone] at hk
      cases hk
  · cases hk

/-- A closed handle gives up. -/
theorem dropRound_shut (hround : w.Round d) (hstate : ¬ AtCommitted (w.refreshed d))
    (hclosed : w.chan.closed = true) :
    dropRound ops again waits w = .error (.ofChannel .closed) (w.refreshed d) := by
  have hpoll : pollTailCommitted (w.refreshed d) =
      .error (.ofChannel .closed) (w.refreshed d) := by
    rw [pollTailCommitted, pollTailCommittedFor_succ, if_neg hstate]
    exact if_pos hclosed
  rw [dropRound.eq_def, bind_ok (refreshCursors_ok hround.cursors), get_bind, if_neg hround.len]
  exact (bind_error hpoll).trans rfl

/-- A dead reservation that is freed: the drop looks again. -/
theorem dropRound_freed (hround : w.Round d) (hstate : ¬ AtCommitted (w.refreshed d))
    (hopen : w.chan.closed = false) (hpos : 0 < extent)
    (hreclaim : ops.reclaim (w.refreshed d) = .ok extent v) :
    dropRound ops again waits w = again waits v := by
  rw [dropRound.eq_def, bind_ok (refreshCursors_ok hround.cursors), get_bind, if_neg hround.len]
  refine (bind_ok (pollTailCommitted_false hstate hopen)).trans ?_
  rw [if_neg Bool.false_ne_true]
  refine (bind_ok hreclaim).trans ?_
  rw [if_pos hpos]

/-- A reclaim that fails ends the drop. -/
theorem dropRound_fails {err : Failure} (hround : w.Round d)
    (hstate : ¬ AtCommitted (w.refreshed d)) (hopen : w.chan.closed = false)
    (hreclaim : ops.reclaim (w.refreshed d) = .error err v) :
    dropRound ops again waits w = .error err v := by
  rw [dropRound.eq_def, bind_ok (refreshCursors_ok hround.cursors), get_bind, if_neg hround.len]
  refine (bind_ok (pollTailCommitted_false hstate hopen)).trans ?_
  rw [if_neg Bool.false_ne_true]
  exact bind_error hreclaim

/-- A slot that can not be reclaimed is waited for, until the deadline. -/
theorem dropRound_kept (hround : w.Round d) (hstate : ¬ AtCommitted (w.refreshed d))
    (hopen : w.chan.closed = false)
    (hreclaim : ops.reclaim (w.refreshed d) = .ok 0 (w.refreshed d)) :
    dropRound ops again waits w =
      match waits with
      | 0 => .error (.ofChannel .bufferFull) (w.refreshed d)
      | waits + 1 => again waits (w.refreshed d) := by
  rw [dropRound.eq_def, bind_ok (refreshCursors_ok hround.cursors), get_bind, if_neg hround.len]
  refine (bind_ok (pollTailCommitted_false hstate hopen)).trans ?_
  rw [if_neg Bool.false_ne_true]
  refine (bind_ok hreclaim).trans ?_
  rw [if_neg (Nat.lt_irrefl 0)]
  have hagain : refreshCursors (w.refreshed d) = .ok () (w.refreshed d) :=
    refreshCursors_ok hround.cursors
  refine (bind_ok hagain).trans ?_
  rw [get_bind, if_pos rfl]
  cases waits <;> rfl

theorem dropRound_reclaims (hmode : w.chan.config.multiProducer = true) (hround : w.Round d)
    (hstate : ¬ AtCommitted (w.refreshed d)) (hopen : w.chan.closed = false)
    (hext : reclaimExtent host (w.refreshed d) = some extent) :
    dropRound (dropOps host) again waits w = again waits ((w.refreshed d).extentFreed extent) :=
  have hmode' : (w.refreshed d).chan.config.multiProducer = true := hmode
  dropRound_freed hround hstate hopen (reclaimExtent_window hext).1
    (reclaim_some hmode' (current_refreshed hround.cursors) hext)

theorem dropRound_waits (hmode : w.chan.config.multiProducer = true) (hround : w.Round d)
    (hstate : ¬ AtCommitted (w.refreshed d)) (hopen : w.chan.closed = false)
    (hext : reclaimExtent host (w.refreshed d) = none) :
    dropRound (dropOps host) again waits w =
      match waits with
      | 0 => .error (.ofChannel .bufferFull) (w.refreshed d)
      | waits + 1 => again waits (w.refreshed d) :=
  have hmode' : (w.refreshed d).chan.config.multiProducer = true := hmode
  dropRound_kept hround hstate hopen (reclaim_none hmode' hext)

/-! ### With the additions of machine words -/

theorem reclaimTrapping_none (hmode : w.chan.config.multiProducer = true)
    (hext : reclaimExtent host w = none) : reclaimTrapping host w = .ok 0 w := by
  have heq : tryReclaimAtTailTrapping host w = tryReclaimAtTail host w :=
    tryReclaimAtTailTrapping_eq fun extent _ h => by
      rw [hext] at h
      cases h
  rw [reclaimTrapping, get_bind, bind_ok (heq.trans (reclaim_none hmode hext))]
  rfl

/-- Where no sum overruns a reclaim is that of the model. -/
theorem reclaimTrapping_some (hmode : w.chan.config.multiProducer = true) (hw : w.Current)
    (hext : reclaimExtent host w = some extent) (htail : w.chan.tailCursor + extent < wordCount)
    (hcount : w.chan.reclaimedSlots + extent < wordCount) :
    reclaimTrapping host w = .ok extent (w.extentFreed extent) := by
  have heq : tryReclaimAtTailTrapping host w = tryReclaimAtTail host w :=
    tryReclaimAtTailTrapping_eq fun extent' _ h => by
      rw [hext] at h
      rwa [← Option.some.inj h]
  rw [reclaimTrapping, get_bind, bind_ok (heq.trans (reclaim_some hmode hw hext))]
  dsimp only
  rw [if_neg fun h => absurd h.2 (Nat.not_le.2 hcount)]
  rfl

/-- Where a sum overruns it panics. -/
theorem reclaimTrapping_panics (hmode : w.chan.config.multiProducer = true) (hw : w.Current)
    (hext : reclaimExtent host w = some extent)
    (h : wordCount ≤ w.chan.tailCursor + extent ∨ wordCount ≤ w.chan.reclaimedSlots + extent) :
    ∃ v, reclaimTrapping host w = .error .panic v := by
  rw [reclaimTrapping, get_bind]
  rcases Nat.lt_or_ge (w.chan.tailCursor + extent) wordCount with hlt | hge
  · have heq : tryReclaimAtTailTrapping host w = tryReclaimAtTail host w :=
      tryReclaimAtTailTrapping_eq fun extent' _ h' => by
        rw [hext] at h'
        rwa [← Option.some.inj h']
    have hcount : wordCount ≤ w.chan.reclaimedSlots + extent :=
      h.resolve_left (Nat.not_le.2 hlt)
    rw [bind_ok (heq.trans (reclaim_some hmode hw hext))]
    dsimp only
    rw [if_pos ⟨(reclaimExtent_window hext).1, hcount⟩]
    exact ⟨_, rfl⟩
  · obtain ⟨v, hpanic⟩ := tryReclaimAtTailTrapping_panics hmode hext hge
    exact ⟨v, bind_error hpanic⟩

theorem discardTrapping_returned {tailCount count : ℕ} (h : tailCount + count < wordCount) :
    Returned (discardTrapping tailCount count w) := by
  obtain ⟨v, hv⟩ := discard_ok tailCount count w
  rw [discardTrapping, if_neg (Nat.not_le.2 h), hv]
  exact ⟨(fun he => nomatch he), fun he => nomatch he⟩

/-! ## All rounds -/

/-- **The drop of the model never ends** where it comes to a damaged slot. -/
theorem drop_diverges (hmode : w.chan.config.multiProducer = true) (hclears : Clears host w v)
    (hround : v.Round d) (h : Damaged (v.refreshed d)) :
    outcome (dropOldestMessageMpsc host fuel waits w) = .error .diverges := by
  induction fuel generalizing w v with
  | zero => rfl
  | succ fuel ih =>
      rw [drop_succ]
      cases hclears with
      | refl =>
          rw [dropRound_damaged hround h]
          -- The next round starts where this one did.
          exact ih (v := w.refreshed d) hmode (.refl _) ⟨hround.cursors, hround.len⟩ h
      | step hr hstate hopen hext hrest =>
          rw [dropRound_reclaims hmode hr hstate hopen hext]
          exact ih hmode hrest hround h

/-- **A drop that comes to a damaged slot, or to a sum beyond a word, never
returns.** -/
theorem drop_lost (hmode : w.chan.config.multiProducer = true) (hclears : Clears host w v)
    (hround : v.Round d) (h : Damaged (v.refreshed d) ∨ OverrunsAt host (v.refreshed d)) :
    ¬ Returned (dropOldestMessageMpscTrapping host fuel waits w) := by
  induction fuel generalizing w v waits with
  | zero => exact fun hr => hr.1 rfl
  | succ fuel ih =>
      rw [dropTrapping_succ]
      have hpanics : ∀ {x : World} {r : EStateM.Result Failure World Unit}, r = .error .panic x →
          ¬ Returned r := by
        rintro x r rfl hr
        exact hr.2 rfl
      cases hclears with
      | refl =>
          rcases h with hdamaged | ⟨k, hk, hle⟩ | ⟨hstate, hopen, extent, hext, hle⟩
          · rw [dropRound_damaged hround hdamaged]
            exact ih hmode (.refl _) ⟨hround.cursors, hround.len⟩ (.inl hdamaged)
          · obtain ⟨hstate, hintact⟩ := announces_intact hk
            rcases dropRound_intact (dropOpsTrapping host) _ _ hround hstate hintact with
              ⟨k', hk', hcall⟩ | ⟨hnone, -⟩
            · cases Option.some.inj (hk.symm.trans hk')
              exact hpanics (hcall.trans (congrFun (if_pos hle) _))
            · cases hk.symm.trans hnone
          · have hmode' : (w.refreshed d).chan.config.multiProducer = true := hmode
            obtain ⟨x, hpanic⟩ := reclaimTrapping_panics hmode' (current_refreshed hround.cursors)
              hext hle
            exact hpanics (dropRound_fails hround hstate hopen hpanic)
      | @step _ _ d' extent hr hstate hopen hext hrest =>
          have hmode' : (w.refreshed d').chan.config.multiProducer = true := hmode
          have hcurrent := current_refreshed hr.cursors
          by_cases hle : wordCount ≤ (w.refreshed d').chan.tailCursor + extent ∨
              wordCount ≤ (w.refreshed d').chan.reclaimedSlots + extent
          · obtain ⟨x, hpanic⟩ := reclaimTrapping_panics hmode' hcurrent hext hle
            exact hpanics (dropRound_fails hr hstate hopen hpanic)
          · obtain ⟨htail, hcount⟩ := not_or.1 hle
            rw [dropRound_freed hr hstate hopen (reclaimExtent_window hext).1
              (reclaimTrapping_some hmode' hcurrent hext (Nat.lt_of_not_le htail)
                (Nat.lt_of_not_le hcount))]
            exact ih hmode hrest hround h

/-- What is left to do: the slots counted at the tail, and the waits. -/
def dropBudget (w : World) (waits : ℕ) : ℕ := wrappingSub w.region.head w.region.tail + waits

/-- A reclaim leaves fewer slots to do. -/
theorem dropBudget_reclaims (hext : reclaimExtent host (w.refreshed d) = some extent) :
    dropBudget ((w.refreshed d).extentFreed extent) waits < dropBudget w waits := by
  obtain ⟨hpos, hle, -⟩ := reclaimExtent_window hext
  have hwords := releaseExtent_words extent (w.refreshed d).chan.tail (w.refreshed d).region
  have hle' : extent ≤ wrappingSub w.region.head w.region.tail := hle
  have hfreed : wrappingSub ((w.refreshed d).extentFreed extent).region.head
      ((w.refreshed d).extentFreed extent).region.tail =
        wrappingSub w.region.head (w.region.tail + extent) :=
    congrArg (fun head => wrappingSub head (w.region.tail + extent)) hwords.head
  have hless : wrappingSub w.region.head (w.region.tail + extent) <
      wrappingSub w.region.head w.region.tail := by
    unfold wrappingSub at hle' ⊢
    split at hle' <;> split <;> omega
  simp only [dropBudget, hfreed]
  omega

/-- What a drop comes to behind a refresh it comes to before it. -/
theorem comes_refreshed {P : World → Prop} (hround : w.Round d)
    (h : ∃ v d', Clears host (w.refreshed d) v ∧ v.Round d' ∧ P (v.refreshed d')) :
    ∃ v d', Clears host w v ∧ v.Round d' ∧ P (v.refreshed d') := by
  obtain ⟨v, d', hclears, hround', hp⟩ := h
  cases hclears with
  | refl =>
      cases hround.cursors.symm.trans hround'.cursors
      exact ⟨w, d, .refl w, hround, hp⟩
  | step hr hno hopen hext hrest =>
      cases hround.cursors.symm.trans hr.cursors
      exact ⟨v, d', .step hround hno hopen hext hrest, hround', hp⟩

/-- A round that leads to another one returns if that one does. -/
theorem dropReturns_of_round {waits' : ℕ}
    (hround : ∀ again : ℕ → ChannelM Unit,
      dropRound (dropOpsTrapping host) again waits w = again waits' v)
    (h : v.DropReturns host waits') : w.DropReturns host waits := by
  obtain ⟨fuel, hfuel⟩ := h
  refine ⟨fuel + 1, ?_⟩
  rw [dropTrapping_succ, hround]
  exact hfuel

/-- A round that ends the drop. -/
theorem dropReturns_of_ends
    (hround : Returned (dropRound (dropOpsTrapping host) (dropOldestMessageMpscTrapping host 0)
      waits w)) : w.DropReturns host waits := ⟨1, hround⟩

theorem returned_error {err : Failure} (hdiverges : err ≠ .diverges) (hpanic : err ≠ .panic) :
    Returned (.error err w) :=
  ⟨fun he => hdiverges (Except.error.inj he), fun he => hpanic (Except.error.inj he)⟩

/-- **A drop that comes to neither returns.** The slots counted at the tail
and the waits are what it has left. -/
theorem drop_returns (budget : ℕ) : ∀ {w : World} {waits : ℕ}, dropBudget w waits ≤ budget →
    w.chan.config.multiProducer = true → ¬ w.DropsDamaged host → ¬ w.DropOverruns host →
      w.DropReturns host waits := by
  induction budget using Nat.strong_induction_on with
  | _ budget ih =>
      intro w waits hbudget hmode hdamaged hover
      cases hd : cursorLen w.chan.config.capacity w.region.head w.region.tail with
      | none =>
          obtain ⟨v, hv⟩ := dropRound_inconsistent hd
          exact dropReturns_of_ends (hv ▸ returned_error (by decide) (by decide))
      | some d =>
          by_cases hlen : (w.refreshed d).chan.len = 0
          · refine dropReturns_of_ends (dropRound_nothing hd hlen ▸ ?_)
            exact ⟨(fun he => nomatch he), fun he => nomatch he⟩
          have hround : w.Round d := ⟨hd, hlen⟩
          have hfits : ¬ OverrunsAt host (w.refreshed d) :=
            fun h => hover ⟨w, d, .refl w, hround, h⟩
          by_cases hstate : AtCommitted (w.refreshed d)
          · have hintact : ¬ Damaged (w.refreshed d) := fun h =>
              hdamaged ⟨w, d, .refl w, hround, h⟩
            rcases dropRound_intact (dropOpsTrapping host) (dropOldestMessageMpscTrapping host 0)
              waits hround hstate hintact with ⟨k, hk, hcall⟩ | ⟨-, hcall⟩
            · refine dropReturns_of_ends (hcall ▸ discardTrapping_returned ?_)
              exact Nat.lt_of_not_le fun hle => hfits (.inl ⟨k, hk, hle⟩)
            · exact dropReturns_of_ends (hcall ▸ returned_error (by decide) (by decide))
          cases hopen : w.chan.closed with
          | true =>
              exact dropReturns_of_ends (dropRound_shut hround hstate hopen ▸
                returned_error (by decide) (by decide))
          | false =>
              have hmode' : (w.refreshed d).chan.config.multiProducer = true := hmode
              cases hext : reclaimExtent host (w.refreshed d) with
              | some extent =>
                  have hlt : ∀ n, ¬ wordCount ≤ n → n < wordCount := fun _ => Nat.lt_of_not_le
                  have hreclaim := reclaimTrapping_some hmode' (current_refreshed hd) hext
                    (hlt _ fun hle => hfits (.inr ⟨hstate, hopen, extent, hext, .inl hle⟩))
                    (hlt _ fun hle => hfits (.inr ⟨hstate, hopen, extent, hext, .inr hle⟩))
                  refine dropReturns_of_round (fun again => dropRound_freed hround hstate hopen
                    (reclaimExtent_window hext).1 hreclaim) ?_
                  refine ih _ (Nat.lt_of_lt_of_le (dropBudget_reclaims hext) hbudget)
                    (Nat.le_refl _) hmode ?_ ?_
                  · rintro ⟨v, d', hclears, h⟩
                    exact hdamaged ⟨v, d', .step hround hstate hopen hext hclears, h⟩
                  · rintro ⟨v, d', hclears, h⟩
                    exact hover ⟨v, d', .step hround hstate hopen hext hclears, h⟩
              | none =>
                  have hkept := reclaimTrapping_none hmode' hext
                  cases waits with
                  | zero =>
                      have hcall : dropRound (dropOpsTrapping host)
                          (dropOldestMessageMpscTrapping host 0) 0 w =
                            .error (.ofChannel .bufferFull) (w.refreshed d) :=
                        dropRound_kept hround hstate hopen hkept
                      exact dropReturns_of_ends (hcall ▸ returned_error (by decide) (by decide))
                  | succ waits =>
                      refine dropReturns_of_round (fun again =>
                        dropRound_kept hround hstate hopen hkept) ?_
                      refine ih _ (Nat.lt_of_lt_of_le ?_ hbudget) (Nat.le_refl _) hmode
                        (fun h => hdamaged (comes_refreshed hround h))
                        fun h => hover (comes_refreshed hround h)
                      exact Nat.lt_succ_self (dropBudget w waits)

end PersistentShmChannel

/-- **A multi-producer drop returns exactly where** the first slot behind the
dead reservations at the tail is not COMMITTED and damaged, and nothing
reclaimed or dropped on the way ends beyond the last cursor. -/
theorem drop_returns_iff (host : Host) (waits : ℕ) (w : World)
    (hmode : w.chan.config.multiProducer = true) :
    w.DropReturns host waits ↔ ¬ w.DropsDamaged host ∧ ¬ w.DropOverruns host := by
  constructor
  · rintro ⟨fuel, hfuel⟩
    refine ⟨?_, ?_⟩
    · rintro ⟨v, d, hclears, hround, hdamaged⟩
      exact drop_lost hmode hclears hround (.inl hdamaged) hfuel
    · rintro ⟨v, d, hclears, hround, hover⟩
      exact drop_lost hmode hclears hround (.inr hover) hfuel
  · rintro ⟨hdamaged, hover⟩
    exact drop_returns (dropBudget w waits) (Nat.le_refl _) hmode hdamaged hover

/-- A ring of two slots: a WRITING one of a process that is gone, and behind
it a message. -/
def halfDead : World :=
  let message := @frameBytes crc32Checksum 0 0 [] [5]
  { chan := fresh sampleHost ⟨2, 8, .dropOldest, none, true⟩
    region :=
      { capacity := 2
        frameCapacity := 58
        head := 2
        tail := 0
        magic := REGION_MAGIC_MPSC
        format := REGION_FORMAT
        pinFloor := PIN_FLOOR_NONE
        slots := fun i =>
          if i = 0 then ⟨encodeHeader .writing 0 51 (some ⟨9, 1, 1, 0, 1⟩) true, .zero⟩
          else ⟨encodeHeader .committed 1 message.length none false, Area.zero.write 0 message⟩ } }

/-- The process is gone. -/
def mourner : Host := { sampleHost with liveness := fun p => if p.pid = 9 then .gone else .alive }

/-- The drop frees the dead slot and takes the message behind it. -/
theorem drop_returns_behind : halfDead.DropReturns mourner 0 := by
  have hround : halfDead.Round 2 := ⟨by decide, by decide⟩
  have hwriting : ¬ AtCommitted (halfDead.refreshed 2) := by decide
  have hextent : reclaimExtent mourner (halfDead.refreshed 2) = some 1 := by decide
  have hnext : ((halfDead.refreshed 2).extentFreed 1).Round 1 := ⟨by decide, by decide⟩
  have hmessage : (((halfDead.refreshed 2).extentFreed 1).refreshed 1).region.announces
      (((halfDead.refreshed 2).extentFreed 1).refreshed 1).chan.tail = some 1 := by
    decide +kernel
  obtain ⟨hcommitted, hintact⟩ := announces_intact hmessage
  have hcomes : ∀ v d, World.Clears mourner halfDead v → v.Round d →
      v.refreshed d = halfDead.refreshed 2 ∨
        v.refreshed d = ((halfDead.refreshed 2).extentFreed 1).refreshed 1 := by
    intro v d hclears hv
    cases hclears with
    | refl =>
        cases Option.some.inj (hv.cursors.symm.trans hround.cursors)
        exact .inl rfl
    | step hr hstate hopen hext hrest =>
        cases Option.some.inj (hr.cursors.symm.trans hround.cursors)
        cases Option.some.inj (hext.symm.trans hextent)
        cases hrest with
        | refl =>
            cases Option.some.inj (hv.cursors.symm.trans hnext.cursors)
            exact .inr rfl
        | step hr' hstate' =>
            cases Option.some.inj (hr'.cursors.symm.trans hnext.cursors)
            exact absurd hcommitted hstate'
  refine (drop_returns_iff _ 0 halfDead rfl).2 ⟨?_, ?_⟩
  · rintro ⟨v, d, hclears, hv, hdamaged⟩
    rcases hcomes v d hclears hv with h | h
    · exact hwriting (h ▸ hdamaged).1
    · exact hintact (h ▸ hdamaged)
  · rintro ⟨v, d, hclears, hv, hover⟩
    rcases hcomes v d hclears hv with h | h
    · rw [h] at hover
      rcases hover with ⟨k, hk, -⟩ | ⟨-, -, extent, hext, hle⟩
      · exact hwriting (announces_intact hk).1
      · cases Option.some.inj (hext.symm.trans hextent)
        revert hle
        decide
    · rw [h] at hover
      rcases hover with ⟨k, hk, hle⟩ | ⟨hstate, -⟩
      · cases Option.some.inj (hk.symm.trans hmessage)
        revert hle
        decide
      · exact hstate hcommitted

/-- A multi-producer ring of one slot, whose COMMITTED header announces a
frame of this length. -/
def announcing (head len : ℕ) : World where
  chan := fresh sampleHost ⟨1, 8, .dropOldest, none, true⟩
  region :=
    { capacity := 1
      frameCapacity := 58
      head
      tail := 0
      magic := REGION_MAGIC_MPSC
      format := REGION_FORMAT
      pinFloor := PIN_FLOOR_NONE
      slots := fun _ => ⟨encodeHeader .committed 0 len none false, .zero⟩ }

/-- **On a slot that announces more than it has it does not.** -/
theorem drop_never_returns :
    ¬ ∀ (host : Host) (waits : ℕ) (w : World), w.chan.config.multiProducer = true →
      w.DropReturns host waits := by
  intro hall
  obtain ⟨fuel, hfuel⟩ := hall sampleHost 0 (announcing 1 59) rfl
  exact drop_lost (v := announcing 1 59) rfl (.refl _)
    (show (announcing 1 59).Round 1 from ⟨by decide, by decide⟩)
    (.inl ⟨by decide, .inl (by decide)⟩) hfuel

end Dsline
