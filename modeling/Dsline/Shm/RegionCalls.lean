import Dsline.Shm.RegionRefine
/-!
# Every run of calls over the bytes

Each call over the bytes is the call over the region, built from the reads
and writes that are. So is a run of calls, by any number of handles to one
mapping and in any order: the same answers, and a file that shows the same
region.
-/

namespace Dsline

open LittleEndian Simulation

namespace Region

variable (region : Region) (expected new : ℕ)

theorem compareExchangeHead_eq : region.compareExchangeHead expected new =
    (if region.head = expected then { region with head := new } else region,
      decide (region.head = expected)) := by
  rw [compareExchangeHead]
  split <;> simp [*]

theorem compareExchangeTail_eq : region.compareExchangeTail expected new =
    (if region.tail = expected then { region with tail := new } else region,
      decide (region.tail = expected)) := by
  rw [compareExchangeTail]
  split <;> simp [*]

end Region

namespace PersistentSlotRegion

variable {capacity slotSize : ℕ} {region : PersistentSlotRegion} {file : RegionFile} {r : Region}
  {index : ℕ} {seq : UInt64} {payloadLen : ℕ} {identity : WriterIdentity} {frame : Bytes}

/-! ## Words -/

section

variable (h : Created .mmap capacity slotSize region)

include h

theorem tracks_loadHead : Tracks region region.loadHead (askWord .head) :=
  tracks_loadU64 h rfl rfl

theorem tracks_loadTail : Tracks region region.loadTail (askWord .tail) :=
  tracks_loadU64 h rfl rfl

theorem tracks_loadFloor : Tracks region region.loadFloor (askWord .floor) :=
  tracks_loadU64 h rfl rfl

/-- Nothing runs between a load of the floor and an exchange, so the
exchange succeeds. -/
theorem exchangeFloor_shows (hshows : Shows region file r) {new : ℕ} (hnew : new < wordCount) :
    ∃ file', region.storage.compareExchangeU64 PIN_FLOOR_OFFSET r.pinFloor new file =
        .ok (r.pinFloor, true) file' ∧ Shows region file' { r with pinFloor := new } := by
  have hask : exchangeWord .floor r.pinFloor new r =
      .ok (r.pinFloor, true) { r with pinFloor := new } := by
    simp [exchangeWord, wordOf, setWord]
  exact (tracks_compareExchangeU64 h (show Access.floor.place = .regionHeader from rfl) rfl
    hnew).ok hshows hask

theorem tracks_floorMin {target : ℕ} (htarget : target < wordCount) :
    Tracks region (region.floorMin target) (do
      let found ← get
      set (found.floorMin target)
      return (found.floorMin target).pinFloor) := by
  intro file r hshows
  have hload : region.loadFloor file = .ok r.pinFloor file :=
    loadU64_shows h (show Access.floor.place = .regionHeader from rfl) rfl hshows
  rw [floorMin, floorMinRounds, Effect.bind_ok hload, Effect.get_bind, Effect.set_bind,
    Region.floorMin]
  by_cases hlow : r.pinFloor ≠ PIN_FLOOR_NONE ∧ r.pinFloor ≤ target
  · rw [if_pos hlow, if_pos hlow]
    exact ⟨file, rfl, hshows⟩
  · obtain ⟨file', hcas, hshows'⟩ := exchangeFloor_shows h hshows htarget
    rw [if_neg hlow, if_neg hlow, Effect.bind_ok hcas]
    exact ⟨file', rfl, hshows'⟩

theorem tracks_floorCas {expected target : ℕ} (htarget : target < wordCount) :
    Tracks region (region.floorCas expected target) (do
      let found ← get
      set (found.floorCas expected target)
      return decide (found.pinFloor = expected)) :=
  Agree.congr (agree_bind (tracks_compareExchangeU64 h
    (show Access.floor.place = .regionHeader from rfl) rfl htarget) fun found =>
      agree_pure found.2) fun _ _ _ => rfl

theorem tracks_publishMagic (magic : UInt32) : Tracks region (region.publishMagic magic)
    (modify fun r => { r with format := REGION_FORMAT, magic }) := by
  have hformat : Tracks region
      (region.storage.writeAt FORMAT_OFFSET (leBytes 4 REGION_FORMAT.toNat))
      (modify (setWord .format REGION_FORMAT.toNat)) :=
    tracks_storeWord h (show Access.format.place = .regionHeader from rfl) REGION_FORMAT.toNat_lt
  have hmagic : Tracks region (region.storage.writeAt MAGIC_OFFSET (leBytes 4 magic.toNat))
      (modify (setWord .magic magic.toNat)) :=
    tracks_storeWord h (show Access.magic.place = .regionHeader from rfl) magic.toNat_lt
  refine Agree.congr (agree_bind hformat fun _ => hmagic) fun file r _ => ?_
  show EStateM.Result.ok PUnit.unit _ = EStateM.Result.ok PUnit.unit _
  simp only [setWord, UInt32.ofNat_toNat]

variable {access : Access} {offset : ℕ}

/-- Loading a word of 32 bits. -/
theorem loadShort_shows (hshows : Shows region file r) (hplace : access.place = .regionHeader)
    (hrange : access.range region = ⟨offset, 4⟩) {value : UInt32}
    (hvalue : wordOf r access = value.toNat) :
    (do
      let raw ← region.storage.readAt ⟨offset, 4⟩
      return UInt32.ofNat (leNat raw) : FileM UInt32) file = .ok value file := by
  have hread : region.storage.readAt ⟨offset, 4⟩ file = .ok (file.bytes.read offset 4) file :=
    readAt_ok (hrange ▸ (contained h (made_of_regionHeader hplace)).passes)
  have hword := hshows.words access hplace
  rw [hrange, hvalue] at hword
  rw [Effect.bind_ok hread, hword, UInt32.ofNat_toNat]
  rfl

theorem tracks_loadMagic : Tracks region region.loadMagic (fun r => .ok r.magic r) :=
  fun file _ hshows => ⟨file,
    loadShort_shows h hshows (show Access.magic.place = .regionHeader from rfl) rfl rfl, hshows⟩

theorem tracks_loadFormat : Tracks region region.loadFormat (fun r => .ok r.format r) :=
  fun file _ hshows => ⟨file,
    loadShort_shows h hshows (show Access.format.place = .regionHeader from rfl) rfl rfl, hshows⟩

end

/-! ## Slots -/

section

variable (h : Created .mmap capacity slotSize region) (hindex : index < capacity)

include h hindex

theorem tracks_writeHeader (state : SlotState) :
    Tracks region (region.writeHeader index state seq payloadLen)
      (modify fun r => r.writeHeader index state seq payloadLen) :=
  tracks_writeImage h hindex _

/-- A header with an identity: the fields, then the magic. -/
theorem tracks_identityHeader (header : SlotHeader) :
    Tracks region (do
      region.storage.writeAt (region.slotOffset index) header.image
      region.storage.writeAt (region.magicRange index).offset
        (leBytes 4 SLOT_IDENTITY_MAGIC.toNat))
      (modify fun r => (r.setHeader index header).publishIdentity index) :=
  agree_bind (tracks_writeImage h hindex header) fun _ => tracks_publishIdentity h hindex

theorem tracks_forceRelease : Tracks region (region.forceRelease index)
    (modify fun r => r.forceRelease index) :=
  agree_bind (tracks_clearPayload h hindex) fun _ => tracks_writeHeader h hindex .free

theorem tracks_writePayload : Tracks region (region.writePayload index frame) (do
    if region.frameCapacity < frame.length then
      throw (.ofChannel (.messageTooLarge frame.length region.frameCapacity))
    modify fun r => r.setPayload index 0 frame) :=
  agree_ite (fun _ => agree_throw _) fun hfits =>
    tracks_writeFrame h hindex (by rw [Nat.zero_add]; exact Nat.not_lt.1 hfits)

theorem tracks_readPayload {len : ℕ} : Tracks region (region.readPayload index len) (do
    if region.frameCapacity < len then
      throw (.ofChannel (.messageTooLarge len region.frameCapacity))
    askFrame index 0 len) :=
  agree_ite (fun _ => agree_throw _) fun hfits =>
    tracks_readFrame h hindex (by rw [Nat.zero_add]; exact Nat.not_lt.1 hfits)

theorem tracks_writeCommitted (stamp : WriterIdentity) :
    Tracks region (region.writeCommitted index seq frame (some stamp))
      (Region.writeCommittedNoFlush index seq frame stamp) := by
  refine Agree.congr (agree_bind (tracks_readHeader h hindex) fun header =>
    agree_ite (fun _ => agree_throw _) fun _ =>
      agree_bind (tracks_identityHeader h hindex _) fun _ =>
        agree_bind (tracks_writePayload h hindex) fun _ =>
          tracks_writeHeader h hindex .committed) fun file r hshows => ?_
  have hask : askHeader index r = .ok (r.header index) r := rfl
  rw [Region.writeCommittedNoFlush, ← hshows.frameCapacity, Effect.bind_ok hask, Effect.get_bind,
    Region.state]
  dsimp only
  split
  · rfl
  · split <;> rfl

theorem tracks_peekCommitted :
    Tracks region (region.peekCommitted index) (Region.peekCommitted index) := by
  refine Agree.congr (agree_bind (tracks_readHeader h hindex) fun header =>
    agree_ite (fun _ => agree_throw _) fun _ =>
      agree_bind (tracks_readPayload h hindex) fun data =>
        agree_pure (⟨header.seq, data⟩ : SlotSnapshot)) fun file r hshows => ?_
  have hask : askHeader index r = .ok (r.header index) r := rfl
  rw [Region.peekCommitted, ← hshows.frameCapacity, Effect.bind_ok hask, Effect.get_bind,
    Region.state, Region.payloadLen]
  dsimp only
  split
  · rfl
  · split <;> rfl

theorem tracks_readCommitted :
    Tracks region (region.readCommitted index) (Region.readCommitted index) := by
  refine Agree.congr (agree_bind (tracks_readHeader h hindex) fun header =>
    agree_ite (fun _ => agree_throw _) fun _ =>
      agree_bind (tracks_readPayload h hindex) fun data =>
        agree_bind (tracks_writeHeader h hindex .pinned) fun _ =>
          agree_pure (⟨header.seq, data⟩ : SlotSnapshot)) fun file r hshows => ?_
  have hask : askHeader index r = .ok (r.header index) r := rfl
  rw [Region.readCommitted, ← hshows.frameCapacity, Effect.bind_ok hask]
  by_cases hstate : (r.header index).state ≠ .committed
  · have hpeek : Region.peekCommitted index r = .error (.ofChannel .bufferEmpty) r := by
      rw [Region.peekCommitted, Effect.get_bind, Region.state, if_pos hstate]
      rfl
    rw [Effect.bind_error hpeek, if_pos hstate]
    rfl
  by_cases hbig : r.frameCapacity < (r.header index).payloadLen.toNat
  · have hpeek : Region.peekCommitted index r = .error (.ofChannel
        (.messageTooLarge (r.header index).payloadLen.toNat r.frameCapacity)) r := by
      rw [Region.peekCommitted, Effect.get_bind, Region.state, if_neg hstate, Region.payloadLen,
        if_pos hbig]
      rfl
    rw [Effect.bind_error hpeek, if_neg hstate, if_pos hbig]
    rfl
  · have hpeek : Region.peekCommitted index r = .ok ⟨(r.header index).seq,
        r.payload index (r.header index).payloadLen.toNat⟩ r := by
      rw [Region.peekCommitted, Effect.get_bind, Region.state, if_neg hstate, Region.payloadLen,
        if_neg hbig]
      rfl
    rw [Effect.bind_ok hpeek, if_neg hstate, if_neg hbig]
    rfl

theorem tracks_releasePinned :
    Tracks region (region.releasePinned index) (Region.releasePinned index) := by
  refine Agree.congr (agree_bind (tracks_readHeader h hindex) fun header =>
    agree_ite (fun _ => agree_throw _) fun _ =>
      tracks_forceRelease h hindex) fun file r hshows => ?_
  have hask : askHeader index r = .ok (r.header index) r := rfl
  rw [Region.releasePinned, Effect.bind_ok hask, Effect.get_bind, Region.state]
  dsimp only
  split <;> rfl

theorem tracks_reclaimDead (host : Host) (expected : SlotState) :
    Tracks region (region.reclaimDead host expected index)
      (Region.reclaimDead host expected index) := by
  intro file r hshows
  have hread := readHeader_shows h hindex hshows
  rw [reclaimDead, Effect.bind_ok hread, Region.reclaimDead, Effect.get_bind]
  split
  · exact ⟨file, rfl, hshows⟩
  cases (r.header index).identity with
  | none => exact ⟨file, rfl, hshows⟩
  | some identity =>
      dsimp only
      rw [Effect.bind_ok hread, if_neg (not_not.2 rfl)]
      split
      · exact ⟨file, rfl, hshows⟩
      · obtain ⟨file', hrelease, hshows'⟩ := (tracks_forceRelease h hindex).ok hshows rfl
        rw [Effect.bind_ok hrelease]
        exact ⟨file', rfl, hshows'⟩

end

/-! ## The pin floor -/

section

variable (h : Created .mmap capacity slotSize region)

include h

/-- The first PINNED slot of a list of cursors. -/
theorem firstPinned_shows (hshows : Shows region file r) (cursors : List ℕ) :
    region.firstPinned cursors file =
      .ok ((cursors.find? fun cursor =>
        r.state (cursor % r.capacity) = .pinned).getD PIN_FLOOR_NONE) file := by
  have hcap : r.capacity = capacity := by rw [hshows.capacity, h.storage]
  have hstorage : region.storage.capacity = capacity := by rw [h.storage]
  induction cursors with
  | nil => rfl
  | cons cursor cursors ih =>
      have hindex := Nat.mod_lt cursor h.capacity_pos
      have hread := readHeader_shows h hindex hshows
      rw [firstPinned, hstorage, Effect.bind_ok hread, hcap, List.find?_cons]
      rw [hcap] at ih
      by_cases hpinned : (r.header (cursor % capacity)).state = .pinned
      · rw [if_pos hpinned, Region.state, decide_eq_true hpinned]
        rfl
      · rw [if_neg hpinned, Region.state, decide_eq_false hpinned]
        exact ih

theorem scanPinFloor_shows (hshows : Shows region file r) (tailC : ℕ) :
    region.scanPinFloor tailC file = .ok (r.scanPinFloor tailC) file := by
  rw [scanPinFloor, firstPinned_shows h hshows, Region.scanPinFloor, Region.firstPinned,
    hshows.capacity]

omit h in
/-- A floor found below a word is a word. -/
theorem firstPinned_lt {lo hi : ℕ} (hhi : hi < wordCount) : r.firstPinned lo hi < wordCount := by
  rw [Region.firstPinned]
  cases hfind : (List.range' lo (hi - lo)).find? fun cursor =>
      r.state (cursor % r.capacity) = .pinned with
  | none => exact Nat.sub_lt (by decide) Nat.one_pos
  | some cursor =>
      have hmem := List.mem_range'_1.1 (List.mem_of_find?_eq_some hfind)
      show cursor < wordCount
      omega

theorem tracks_unpinFloor (releasedCursor : ℕ) :
    Tracks region (region.unpinFloor releasedCursor)
      (modify fun r => r.unpinFloor releasedCursor) := by
  intro file r hshows
  have hfloor : region.loadFloor file = .ok r.pinFloor file :=
    loadU64_shows h (show Access.floor.place = .regionHeader from rfl) rfl hshows
  have htail : region.loadTail file = .ok r.tail file :=
    loadU64_shows h (show Access.tail.place = .regionHeader from rfl) rfl hshows
  have htailC : r.tail < wordCount :=
    askWord_lt (show Access.tail.place = .regionHeader from rfl) rfl hshows rfl
  show ∃ file', region.unpinFloor releasedCursor file = .ok () file' ∧
    Shows region file' (r.unpinFloor releasedCursor)
  rw [unpinFloor, Effect.bind_ok hfloor, Region.unpinFloor]
  by_cases hkeep : r.pinFloor ≠ releasedCursor ∧ r.pinFloor ≠ PIN_FLOOR_NONE
  · rw [if_pos hkeep, if_pos hkeep]
    exact ⟨file, rfl, hshows⟩
  rw [if_neg hkeep, if_neg hkeep, Effect.bind_ok htail, ← hshows.capacity]
  dsimp only
  set window := r.tail - r.capacity with hwindow
  set start := max (if r.pinFloor = releasedCursor then releasedCursor + 1 else window) window
    with hstart
  have hscan : region.firstPinned (List.range' start (r.tail - start)) file =
      .ok (r.firstPinned start r.tail) file := firstPinned_shows h hshows _
  rw [Effect.bind_ok hscan]
  by_cases hraise : r.pinFloor ≠ r.firstPinned start r.tail
  · rw [if_pos hraise, if_pos hraise]
    obtain ⟨file', hcas, hshows'⟩ := exchangeFloor_shows h hshows (firstPinned_lt htailC)
    rw [Region.floorCas, if_pos rfl]
    exact ⟨file', Effect.bind_ok hcas, hshows'⟩
  · rw [if_neg hraise, if_neg hraise]
    exact ⟨file, rfl, hshows⟩

/-! ## Leases and views -/

theorem tracks_writeLease {lease : ShmWriteLease} (hindex : lease.index < capacity)
    (hfits : FRAME_HEADER_LEN + lease.payloadLen ≤ region.frameCapacity) (offset : ℕ)
    (bytes : Bytes) : Tracks region (region.writeLease lease offset bytes)
      (lease.write offset bytes) := by
  refine agree_ite (fun _ => agree_throw _) fun _ =>
    agree_ite (fun _ => agree_throw _) fun hin => ?_
  exact tracks_writeFrame h hindex (by omega)

theorem tracks_releaseView {view : ShmRecvView} (hindex : view.index < capacity) :
    Tracks region (region.releaseView view) view.release := by
  rw [releaseView, ShmRecvView.release]
  cases view.checkUsable with
  | error err => exact agree_throw err
  | ok _ =>
      refine agree_bind (tracks_releasePinned h hindex) fun _ => ?_
      refine agree_bind (tracks_unpinFloor h view.cursorValue) fun _ => ?_
      exact agree_pure _

theorem tracks_dropView {view : ShmRecvView} (hindex : view.index < capacity) :
    Tracks region (region.dropView view) (modify fun r => view.drop r) := by
  have hnone (err : Failure) : ¬ False := id
  refine Agree.congr (agree_ite (fun _ => agree_pure ()) fun _ =>
    agree_bind ((tracks_releasePinned h hindex).attempt hnone) fun _ =>
      agree_bind ((tracks_unpinFloor h view.cursorValue).attempt hnone) fun _ =>
        agree_pure ()) fun file r hshows => ?_
  show EStateM.Result.ok () (view.drop r) = _
  rw [ShmRecvView.drop]
  split
  · rfl
  cases hrelease : Region.releasePinned view.index r with
  | ok _ r' =>
      have hattempt : attempt (Region.releasePinned view.index) r = .ok (.ok ()) r' := by
        rw [attempt, hrelease]
      rw [Effect.bind_ok hattempt]
      rfl
  | error err r' =>
      have hattempt : attempt (Region.releasePinned view.index) r = .ok (.error err) r' := by
        rw [attempt, hrelease]
      rw [Effect.bind_ok hattempt]
      rfl

omit h in
theorem computes_ok {f : Region → Except Failure Bytes} {bytes : Bytes} (hf : f r = .ok bytes) :
    RegionCall.computes f r = .ok bytes r := by
  rw [RegionCall.computes, Effect.get_bind, hf]
  rfl

omit h in
theorem computes_error {f : Region → Except Failure Bytes} {err : Failure}
    (hf : f r = .error err) : RegionCall.computes f r = .error err r := by
  rw [RegionCall.computes, Effect.get_bind, hf]
  rfl

theorem tracks_readView {view : ShmRecvView} (hindex : view.index < capacity)
    (hfits : FRAME_HEADER_LEN + view.payloadLen ≤ region.frameCapacity) (offset len : ℕ) :
    Tracks region (region.readView view offset len)
      (RegionCall.computes fun r => view.read r offset len) := by
  intro file r hshows
  rw [readView]
  cases husable : view.checkUsable with
  | error err =>
      have hread : view.read r offset len = .error err := by
        rw [ShmRecvView.read, husable]
        rfl
      rw [computes_error hread]
      exact .inr ⟨file, rfl, hshows⟩
  | ok _ =>
      dsimp only
      by_cases hout : view.payloadLen < offset ∨ view.payloadLen - offset < len
      · have hread : view.read r offset len =
            .error (.ofChannel (.invalidConfig "read out of view bounds")) := by
          simp only [ShmRecvView.read, husable, if_pos hout]
          rfl
        rw [computes_error hread, if_pos hout]
        exact .inr ⟨file, rfl, hshows⟩
      · have hread : view.read r offset len =
            .ok ((r.slots view.index).payload.read (FRAME_HEADER_LEN + offset) len) := by
          simp only [ShmRecvView.read, husable, if_neg hout]
          rfl
        rw [computes_ok hread, if_neg hout]
        exact tracks_readFrame h hindex (by omega) file r hshows

theorem tracks_readAllView {view : ShmRecvView} (hindex : view.index < capacity)
    (hfits : FRAME_HEADER_LEN + view.payloadLen ≤ region.frameCapacity) :
    Tracks region (region.readAllView view) (RegionCall.computes fun r => view.readAll r) := by
  intro file r hshows
  rw [readAllView]
  cases husable : view.checkUsable with
  | error err =>
      have hread : view.readAll r = .error err := by
        rw [ShmRecvView.readAll, husable]
        rfl
      rw [computes_error hread]
      exact .inr ⟨file, rfl, hshows⟩
  | ok _ =>
      have hread : view.readAll r =
          .ok ((r.slots view.index).payload.read FRAME_HEADER_LEN view.payloadLen) := by
        rw [ShmRecvView.readAll, husable]
        rfl
      rw [computes_ok hread]
      exact tracks_readFrame h hindex hfits file r hshows

/-! ## Any call -/

/-- **A call over the bytes is the call over the region.** -/
theorem tracks_call {call : RegionCall} (hrange : call.InRange capacity region.frameCapacity) :
    Tracks region (call.onFile region) call.onRegion := by
  have hone {α : Type} {x : FileM α} {y : RegionM α} (hxy : Tracks region x y)
      (f : α → RegionAnswer) : Tracks region (do return f (← x)) (do return f (← y)) :=
    agree_bind hxy fun a => agree_pure (f a)
  cases call with
  | loadHead => exact hone (tracks_loadHead h) .word
  | loadTail => exact hone (tracks_loadTail h) .word
  | loadFloor => exact hone (tracks_loadFloor h) .word
  | loadMagic => exact hone (tracks_loadMagic h) fun magic => .word magic.toNat
  | loadFormat => exact hone (tracks_loadFormat h) fun format => .word format.toNat
  | storeHead head =>
      exact hone (tracks_storeU64 h (show Access.head.place = .regionHeader from rfl) rfl hrange)
        fun _ => .done
  | storeFloor floor =>
      exact hone (tracks_storeU64 h (show Access.floor.place = .regionHeader from rfl) rfl hrange)
        fun _ => .done
  | fetchMaxTail tail =>
      exact hone (tracks_fetchMaxU64 h (show Access.tail.place = .regionHeader from rfl) rfl
        hrange) .word
  | compareExchangeHead expected new =>
      refine Agree.congr (hone (tracks_compareExchangeU64 h
        (show Access.head.place = .regionHeader from rfl) rfl hrange)
        fun found => .exchange found.1 found.2) fun file r _ => ?_
      rw [RegionCall.onRegion, RegionCall.exchanges, Effect.get_bind,
        Region.compareExchangeHead_eq]
      rfl
  | compareExchangeTail expected new =>
      refine Agree.congr (hone (tracks_compareExchangeU64 h
        (show Access.tail.place = .regionHeader from rfl) rfl hrange)
        fun found => .exchange found.1 found.2) fun file r _ => ?_
      rw [RegionCall.onRegion, RegionCall.exchanges, Effect.get_bind,
        Region.compareExchangeTail_eq]
      rfl
  | floorMin target => exact hone (tracks_floorMin h hrange) .word
  | floorCas expected target => exact hone (tracks_floorCas h hrange) .flag
  | publishMagic magic => exact hone (tracks_publishMagic h magic) fun _ => .done
  | readHeader index => exact hone (tracks_readHeader h hrange) .header
  | writeHeader index state seq payloadLen =>
      exact hone (tracks_writeHeader h hrange state) fun _ => .done
  | writeWritingHeader index seq payloadLen identity =>
      exact hone (tracks_identityHeader h hrange
        (encodeHeader .writing seq payloadLen (some identity) false)) fun _ => .done
  | writePinnedHeader index seq payloadLen identity =>
      exact hone (tracks_identityHeader h hrange
        (encodeHeader .pinned seq payloadLen (some identity) false)) fun _ => .done
  | readFrame index offset len => exact hone (tracks_readFrame h hrange.1 hrange.2) .bytes
  | writeFrame index offset bytes =>
      exact hone (tracks_writeFrame h hrange.1 hrange.2) fun _ => .done
  | writeCommitted index seq frame stamp =>
      exact hone (tracks_writeCommitted h hrange stamp) fun _ => .done
  | peekCommitted index => exact hone (tracks_peekCommitted h hrange) .snapshot
  | readCommitted index => exact hone (tracks_readCommitted h hrange) .snapshot
  | releasePinned index => exact hone (tracks_releasePinned h hrange) fun _ => .done
  | forceRelease index => exact hone (tracks_forceRelease h hrange) fun _ => .done
  | reclaimDeadWriting host index => exact hone (tracks_reclaimDead h hrange host .writing) .flag
  | reclaimDeadPinned host index => exact hone (tracks_reclaimDead h hrange host .pinned) .flag
  | scanPinFloor tailC =>
      have hscan : Tracks region (region.scanPinFloor tailC)
          (fun r => .ok (r.scanPinFloor tailC) r) :=
        fun file r hshows => ⟨file, scanPinFloor_shows h hshows tailC, hshows⟩
      exact hone hscan .word
  | unpinFloor releasedCursor =>
      exact hone (tracks_unpinFloor h releasedCursor) fun _ => .done
  | writeLease lease offset bytes =>
      exact hone (tracks_writeLease h hrange.1 hrange.2 offset bytes) fun _ => .done
  | readView view offset len =>
      exact hone (tracks_readView h hrange.1 hrange.2 offset len) .bytes
  | readAllView view => exact hone (tracks_readAllView h hrange.1 hrange.2) .bytes
  | releaseView view => exact hone (tracks_releaseView h hrange) .view
  | dropView view => exact hone (tracks_dropView h hrange) fun _ => .done

/-- **So is a run of calls.** -/
theorem tracks_serve {calls : List RegionCall}
    (hcalls : ∀ call ∈ calls, call.InRange capacity region.frameCapacity) :
    Tracks region (RegionCall.serve (RegionCall.onFile region) calls)
      (RegionCall.serve RegionCall.onRegion calls) :=
  agree_mapM fun call hmem => (tracks_call h (hcalls call hmem)).attempt fun _ => id

end

end PersistentSlotRegion

open PersistentSlotRegion

/-- No run of calls on a region fails as a whole. -/
theorem serve_ok {σ : Type} (perform : RegionCall → EStateM Failure σ RegionAnswer)
    (calls : List RegionCall) (s : σ) :
    ∃ answers s', RegionCall.serve perform calls s = .ok answers s' := by
  induction calls generalizing s with
  | nil => exact ⟨[], s, rfl⟩
  | cons call calls ih =>
      obtain ⟨answer, s₁, hone⟩ : ∃ answer s₁, attempt (perform call) s = .ok answer s₁ := by
        rw [attempt]
        cases perform call s with
        | ok a s' => exact ⟨_, _, rfl⟩
        | error e s' => exact ⟨_, _, rfl⟩
      obtain ⟨answers, s₂, hrest⟩ := ih s₁
      refine ⟨answer :: answers, s₂, ?_⟩
      rw [RegionCall.serve, List.mapM_cons, Effect.bind_ok hone]
      exact Effect.bind_ok hrest

/-- **The bytes of a mapping do what the region does.** Whatever the mapping
holds, and whatever calls its handles make, one at a time in whatever order,
each returns or fails with what it does over the words and slots the bytes
were read as, and what is left in the end is the same. -/
theorem region_calls_agree {capacity slotSize : ℕ} {region : PersistentSlotRegion}
    {created : RegionFile}
    (hcreate : PersistentSlotRegion.create .mmap capacity slotSize = .ok (region, created))
    (file : RegionFile) {calls : List RegionCall}
    (hcalls : ∀ call ∈ calls, call.InRange capacity region.frameCapacity) :
    ∃ answers file' r,
      RegionCall.serve (RegionCall.onFile region) calls file = .ok answers file' ∧
        RegionCall.serve RegionCall.onRegion calls (file.region capacity slotSize) =
          .ok answers r ∧
        Shows region file' r := by
  have h := PersistentSlotRegion.create_ok hcreate
  obtain ⟨answers, r, hregion⟩ :=
    serve_ok RegionCall.onRegion calls (file.region capacity slotSize)
  obtain ⟨file', hfile, hshows⟩ := (tracks_serve h hcalls).ok (shows_region h file) hregion
  exact ⟨answers, file', r, hfile, hregion, hshows⟩

/-- A frame is committed to the only slot, read, and released, and the slot
is looked at again. -/
theorem region_calls_agree_exchange :
    ∃ answers file' r,
      RegionCall.serve (RegionCall.onFile sampleMapping)
          [.writeCommitted 0 9 [1, 2, 3] ⟨7, 1, 2, 3, 1⟩, .storeHead 1, .readCommitted 0,
            .fetchMaxTail 1, .releasePinned 0, .peekCommitted 0] (.zero 132) =
          .ok answers file' ∧
        RegionCall.serve RegionCall.onRegion
            [.writeCommitted 0 9 [1, 2, 3] ⟨7, 1, 2, 3, 1⟩, .storeHead 1, .readCommitted 0,
              .fetchMaxTail 1, .releasePinned 0, .peekCommitted 0]
            ((RegionFile.zero 132).region 1 100) =
          .ok answers r ∧
        Shows sampleMapping file' r :=
  region_calls_agree (show PersistentSlotRegion.create .mmap 1 100 =
    .ok (sampleMapping, .zero 132) from rfl) (.zero 132) (by simp [RegionCall.InRange])

end Dsline
