import Dsline.Shm.FailedView
/-!
# What a call leaves of the leased slots

In single-producer mode, where no process is gone and nothing is dropped, a
call moves a slot on only from FREE, from COMMITTED or from PINNED: a WRITING
slot is its lease's (`Region.Spares`). A slot that becomes FREE is zeroed.
The producer's mirror of the head is the head word, and its write index is
in the ring (`World.Ready`).
-/

namespace Dsline

open PersistentShmChannel Effect

namespace Region

variable {region region' region'' : Region} {index : ℕ} {slot : Slot} {seq : UInt64}

/-- A FREE slot has a zeroed frame area. -/
def Zeroed (region : Region) (index : ℕ) : Prop :=
  region.state index = .free →
    region.slots index = (region.slots index).released region.frameCapacity

/-- **A call spares the leased slots**, and zeroes what it frees. -/
structure Spares (region region' : Region) : Prop where
  frameCapacity : region'.frameCapacity = region.frameCapacity
  leased : ∀ i, region.state i = .writing → region'.slots i = region.slots i
  zeroed : ∀ i, region.Zeroed i → region'.Zeroed i

theorem Spares.trans (h : region.Spares region') (h' : region'.Spares region'') :
    region.Spares region'' where
  frameCapacity := h'.frameCapacity.trans h.frameCapacity
  leased i hi := by
    have hsame := h.leased i hi
    have hi' : region'.state i = .writing := by
      rw [state, header, hsame]
      exact hi
    exact (h'.leased i hi').trans hsame
  zeroed i hi := h'.zeroed i (h.zeroed i hi)

/-- A region with the same slots. -/
theorem spares_of_slots (hfit : region'.frameCapacity = region.frameCapacity)
    (hslots : region'.slots = region.slots) : region.Spares region' where
  frameCapacity := hfit
  leased i _ := congrFun hslots i
  zeroed i hi := by
    intro hfree
    simp only [state, header, hslots, hfit] at hfree ⊢
    exact hi hfree

theorem Spares.refl (region : Region) : region.Spares region := spares_of_slots rfl rfl

/-- One slot that was not WRITING is rewritten. -/
theorem spares_setSlot (hstate : region.state index ≠ .writing)
    (hslot : slot.header.state = .free → slot = slot.released region.frameCapacity) :
    region.Spares (region.setSlot index slot) where
  frameCapacity := rfl
  leased i hi := setSlot_slots_of_ne fun he => hstate (he ▸ hi)
  zeroed i hi := by
    intro hfree
    by_cases he : i = index
    · subst he
      simp only [state, header, setSlot_slots_self, setSlot_frameCapacity] at hfree ⊢
      exact hslot hfree
    · simp only [state, header, setSlot_slots_of_ne he, setSlot_frameCapacity] at hfree ⊢
      exact hi hfree

theorem spares_forceRelease (hstate : region.state index ≠ .writing) :
    region.Spares (region.forceRelease index) := by
  rw [forceRelease_eq]
  exact spares_setSlot hstate fun _ => Slot.released_released.symm

/-- A call that spares the leased slots and leaves the head word. -/
structure Reads (region region' : Region) : Prop where
  spares : region.Spares region'
  head : region'.head = region.head

theorem Reads.trans (h : region.Reads region') (h' : region'.Reads region'') :
    region.Reads region'' :=
  ⟨h.spares.trans h'.spares, h'.head.trans h.head⟩

theorem Reads.refl (region : Region) : region.Reads region := ⟨.refl _, rfl⟩

theorem within_readCommitted : Within Reads (readCommitted index) := by
  intro region
  unfold readCommitted peekCommitted
  rw [bind_assoc, get_bind]
  by_cases hstate : region.state index ≠ .committed
  · rw [if_pos hstate]
    exact .refl _
  rw [if_neg hstate]
  dsimp only
  by_cases hlong : region.frameCapacity < region.payloadLen index
  · rw [if_pos hlong]
    exact .refl _
  rw [if_neg hlong]
  refine ⟨spares_setSlot ?_ (fun h => nomatch h), rfl⟩
  rw [not_not.1 hstate]
  decide

variable (index) in
theorem within_releasePinned : Within Reads (releasePinned index) := by
  intro region
  by_cases hstate : region.state index = .pinned
  · rw [releasePinned_ok hstate]
    refine ⟨spares_forceRelease ?_, by rw [final_ok, forceRelease_eq]; rfl⟩
    rw [hstate]
    decide
  · rw [releasePinned, get_bind]
    simp only [ne_eq, hstate, not_false_eq_true, if_true]
    exact .refl _

/-- A frame goes into a FREE slot. -/
theorem within_writeCommittedNoFlush {frame : Bytes} {stamp : WriterIdentity} :
    Within Reads (writeCommittedNoFlush index seq frame stamp) := by
  intro region
  by_cases hfree : region.state index = .free
  · have hne : region.state index ≠ .writing := by
      rw [hfree]
      decide
    by_cases hfit : frame.length ≤ region.frameCapacity
    · rw [writeCommittedNoFlush_ok seq stamp hfree hfit]
      exact ⟨spares_setSlot hne (fun h => by cases h), rfl⟩
    · have hlong : region.frameCapacity < frame.length := Nat.lt_of_not_le hfit
      have herr : writeCommittedNoFlush index seq frame stamp region =
          .error (.ofChannel (.messageTooLarge frame.length region.frameCapacity))
            (region.writeWritingHeader index seq frame.length stamp) := by
        simp only [writeCommittedNoFlush, get_bind, hfree, ne_eq, not_true_eq_false, if_false,
          set_bind, hlong, if_true]
        rfl
      rw [herr, final_error, writeWritingHeader_eq]
      exact ⟨spares_setSlot hne (fun h => by cases h), rfl⟩
  · rw [writeCommittedNoFlush, get_bind]
    simp only [ne_eq, hfree, not_false_eq_true, if_true]
    exact .refl _

theorem reads_unpinFloor (cursor : ℕ) : region.Reads (region.unpinFloor cursor) :=
  have hwords := words_unpinFloor region cursor
  ⟨spares_of_slots hwords.frameCapacity slots_unpinFloor, hwords.head⟩

end Region

/-! ## A view given back -/

namespace ShmRecvView

theorem within_release (view : ShmRecvView) : Within Region.Reads view.release := by
  have hcomp : Composes (fun {α} (x : RegionM α) => Within Region.Reads x) (fun _ => True) :=
    within_composes Region.Reads.refl Region.Reads.trans
  unfold release
  split
  · exact hcomp.throw trivial
  · exact hcomp.bind (Region.within_releasePinned _) fun _ =>
      hcomp.bind (fun region => Region.reads_unpinFloor _) fun _ => hcomp.pure _

theorem reads_drop (view : ShmRecvView) (region : Region) : region.Reads (view.drop region) := by
  unfold drop
  split
  · exact .refl _
  · have hrelease := Region.within_releasePinned view.index region
    cases hr : Region.releasePinned view.index region <;> rw [hr] at hrelease <;>
      exact hrelease.trans (Region.reads_unpinFloor _)

end ShmRecvView

namespace PersistentShmChannel

variable {host : Host} {w w' : World} {config : SpscConfig} {region : Region}

/-! ## Receiving -/

/-- A consumer's call: what it does to the region and to its handle. -/
structure ReadsRegion (w w' : World) : Prop where
  reads : w.region.Reads w'.region
  config : w'.chan.config = w.chan.config

theorem ReadsRegion.trans {w'' : World} (h : ReadsRegion w w') (h' : ReadsRegion w' w'') :
    ReadsRegion w w'' :=
  ⟨h.reads.trans h'.reads, h'.config.trans h.config⟩

theorem readsRegion_of_eq (h : w'.region = w.region)
    (hconf : w'.chan.config = w.chan.config) : ReadsRegion w w' := by
  refine ⟨?_, hconf⟩
  rw [h]
  exact .refl _

theorem readsRegion_composes :
    Composes (fun {α} (x : ChannelM α) => Within ReadsRegion x) (fun _ => True) :=
  within_composes (fun _ => readsRegion_of_eq rfl rfl) ReadsRegion.trans

theorem within_onRegion {α : Type} {op : RegionM α} (h : Within Region.Reads op) :
    Within ReadsRegion (onRegion op) := by
  intro w
  have hop := h w.region
  unfold onRegion
  cases hr : op w.region <;> rw [hr] at hop <;> exact ⟨hop, rfl⟩

theorem within_poll : Within ReadsRegion pollTailCommitted := by
  intro w
  rw [pollTailCommitted, pollTailCommittedFor_succ]
  split
  · exact readsRegion_of_eq rfl rfl
  · split <;> exact readsRegion_of_eq rfl rfl

theorem within_modifyChan {f : PersistentShmChannel → PersistentShmChannel}
    (hf : ∀ chan, (f chan).config = chan.config) : Within ReadsRegion (modifyChan f) :=
  fun _ => readsRegion_of_eq rfl (hf _)

theorem within_get : Within ReadsRegion (get : ChannelM World) := fun _ => readsRegion_of_eq rfl rfl

theorem within_readTail : Within ReadsRegion readTail :=
  readsRegion_composes.bind within_get fun _ => within_onRegion Region.within_readCommitted

theorem within_advanceTail (releaseSlot : Bool) :
    Within ReadsRegion (advanceTailImpl releaseSlot) := by
  have hcomp := readsRegion_composes
  have hstep : Within ReadsRegion (modifyChan stepTail >>= fun _ =>
      modify fun w => { w with region := w.region.fetchMaxTail w.chan.tailCursor } :
        ChannelM PUnit) :=
    fun _ => ⟨⟨Region.spares_of_slots rfl rfl, rfl⟩, rfl⟩
  refine hcomp.bind within_get fun w => ?_
  cases releaseSlot with
  | true =>
      exact hcomp.bind (within_onRegion (Region.within_releasePinned _)) fun _ => hstep
  | false => exact hstep

theorem tailOps_reads : TailHas (fun x => Within ReadsRegion x) tailOps where
  readNext := by
    refine readsRegion_composes.bind within_poll fun committed => ?_
    split
    · exact within_readTail
    · exact readsRegion_composes.throw trivial
  releasePinned :=
    readsRegion_composes.bind within_get fun _ => within_onRegion (Region.within_releasePinned _)
  advance := within_advanceTail true
  bumpExpected := fun _ => readsRegion_of_eq rfl rfl
  setLastReceived _ := fun _ => readsRegion_of_eq rfl rfl

theorem within_checkSeq (resync : Bool) (seq : UInt64) :
    Within ReadsRegion (checkSeq resync seq) := by
  refine readsRegion_composes.bind within_get fun w => ?_
  split
  · exact within_modifyChan fun _ => rfl
  split
  · exact readsRegion_composes.throw trivial
  · exact readsRegion_composes.pure _

variable [Checksum]

theorem within_readMessage (resync : Bool) : Within ReadsRegion (readMessage resync) :=
  have hcomp := readsRegion_composes
  hcomp.bind within_readTail fun _ => hcomp.bind (within_checkSeq _ _) fun _ =>
    tailOps_reads.finishRecv hcomp ⟨fun _ _ => trivial, fun _ => trivial⟩

omit [Checksum] in
/-- A refresh moves mirrors only. -/
theorem refreshCursors_cases (w : World) :
    (∃ d, cursorLen w.chan.config.capacity w.region.head w.region.tail = some d ∧
      refreshCursors w = .ok () (w.refreshed d)) ∨
    (cursorLen w.chan.config.capacity w.region.head w.region.tail = none ∧
      refreshCursors w = .error inconsistentCursors
        { w with chan := w.chan.withCursors w.region.head w.region.tail w.region.pinFloor }) := by
  cases hd : cursorLen w.chan.config.capacity w.region.head w.region.tail with
  | some d => exact .inl ⟨d, rfl, World.refreshCursors_ok hd⟩
  | none => exact .inr ⟨rfl, World.refreshCursors_none hd⟩

omit [Checksum] in
/-- **The prologue of a receive** leaves the region; it goes on at a COMMITTED
tail only. -/
theorem ensureTailReadable_region (hmode : w.chan.config.multiProducer = false)
    (hfree : w.region.CrashFree host) :
    (final (ensureTailReadable host w)).region = w.region ∧
      (final (ensureTailReadable host w)).chan.config = w.chan.config ∧
      ∀ resync w', ensureTailReadable host w = .ok resync w' → AtCommitted w' := by
  rcases refreshCursors_cases w with ⟨d, hd, -⟩ | ⟨-, hrefresh⟩
  · rw [ensureTailReadable_crashFree hmode hfree hd]
    split
    · exact ⟨rfl, rfl, fun _ _ h => by cases h⟩
    split
    · rename_i hstate
      refine ⟨rfl, rfl, fun resync w' h => ?_⟩
      cases h
      exact hstate
    split
    · exact ⟨rfl, rfl, fun _ _ h => by cases h⟩
    · exact ⟨rfl, rfl, fun _ _ h => by cases h⟩
  · rw [ensureTailReadable, bind_error hrefresh]
    exact ⟨rfl, rfl, fun _ _ h => by cases h⟩

theorem recvWithSeq_reads (hmode : w.chan.config.multiProducer = false)
    (hfree : w.region.CrashFree host) : ReadsRegion w (final (recvWithSeq host w)) := by
  rw [recvWithSeq_eq]
  obtain ⟨hregion, hconf, -⟩ := ensureTailReadable_region hmode hfree
  exact within_bind_at ReadsRegion.trans (readsRegion_of_eq hregion hconf) within_readMessage

theorem tryRecv_reads (hmode : w.chan.config.multiProducer = false)
    (hfree : w.region.CrashFree host) : ReadsRegion w (final (tryRecv host w)) := by
  rcases refreshCursors_cases w with ⟨d, hd, -⟩ | ⟨-, hrefresh⟩
  · have hrec : Reclaims host (w.refreshed d) 0 ((w.refreshed d).resyncing true) :=
      reclaims_none (current_refreshed hd) fun resync =>
        tryReclaimAtTail_alive hmode fun identity hid _ => hfree _ identity hid
    rw [tryRecv_cases hd hrec]
    split
    · exact readsRegion_of_eq rfl rfl
    split
    · have hidle : ReadsRegion w (w.refreshed d) := readsRegion_of_eq rfl rfl
      have hrecv := hidle.trans (recvWithSeq_reads (w := w.refreshed d) hmode hfree)
      rw [← someResult_eq]
      exact final_bind (P := ReadsRegion w) (fun e s' hr => by rw [hr] at hrecv; exact hrecv)
        fun a s' hr => by rw [hr] at hrecv; exact hrecv
    · exact readsRegion_of_eq rfl rfl
  · rw [tryRecv, bind_error hrefresh]
    exact readsRegion_of_eq rfl rfl

omit [Checksum] in
variable (host) in
/-- A COMMITTED slot is pinned. -/
theorem pinTail_reads (seq : UInt64) (frameLen payloadLen : ℕ) (hstate : AtCommitted w) :
    ReadsRegion w (final (pinTail host seq frameLen payloadLen w)) := by
  have hne : w.region.state w.chan.tail ≠ .writing := by
    rw [show w.region.state w.chan.tail = .committed from hstate]
    decide
  have hpin : w.region.Reads (w.region.writePinnedHeader w.chan.tail seq frameLen
      (w.chan.writer.stamp host w.chan.writerEpoch 1)) := by
    rw [Region.writePinnedHeader_eq]
    exact ⟨Region.spares_setSlot hne (fun h => nomatch h), rfl⟩
  have hwords := words_floorMin (w.region.writePinnedHeader w.chan.tail seq frameLen
    (w.chan.writer.stamp host w.chan.writerEpoch 1)) w.chan.tailCursor
  exact ⟨hpin.trans ⟨(Region.spares_of_slots hwords.frameCapacity
    (slots_floorMin _ _)).trans (Region.spares_of_slots rfl rfl), hwords.head⟩, rfl⟩

variable (host) in
/-- The sequence check leaves the tail slot. -/
theorem viewTail_reads (resync : Bool) (hstate : AtCommitted w) :
    ReadsRegion w (final (viewTail host resync w)) := by
  cases hacc : acceptedHeader w with
  | none =>
      obtain ⟨err, hview⟩ := viewTail_refused host resync hacc
      rw [hview]
      exact readsRegion_of_eq rfl rfl
  | some header =>
      rw [viewTail_accepted hacc]
      have hcheck : Within (fun w w' : World => w'.region = w.region ∧
          w'.chan.tail = w.chan.tail ∧ w'.chan.config = w.chan.config)
          (checkSeq resync (tailSeq w)) := by
        intro v
        rw [checkSeq, get_bind]
        split
        · exact ⟨rfl, rfl, rfl⟩
        split <;> exact ⟨rfl, rfl, rfl⟩
      have hsame := hcheck w
      refine final_bind (P := ReadsRegion w) (fun e v hr => ?_) fun _ v hr => ?_
      · rw [hr] at hsame
        exact readsRegion_of_eq hsame.1 hsame.2.2
      rw [hr] at hsame
      obtain ⟨hregion, htail, hconf⟩ := hsame
      simp only [final_ok] at hregion htail hconf
      have hv : AtCommitted v := by
        show v.region.state v.chan.tail = .committed
        rw [hregion, htail]
        exact hstate
      have hpin : ReadsRegion w (final (pinTail host (tailSeq w) (w.region.payloadLen w.chan.tail)
          header.payloadLen.toNat v)) := by
        have h := pinTail_reads host (tailSeq w) (w.region.payloadLen w.chan.tail)
          header.payloadLen.toNat hv
        exact (readsRegion_of_eq hregion hconf).trans h
      cases hpay : payloadCheck w header with
      | ok => exact hpin
      | error err => exact readsRegion_of_eq hregion hconf

theorem recvView_reads (hmode : w.chan.config.multiProducer = false)
    (hfree : w.region.CrashFree host) : ReadsRegion w (final (recvView host w)) := by
  obtain ⟨hregion, hconf, hcommitted⟩ := ensureTailReadable_region hmode hfree
  rw [recvView, get_bind]
  split
  · exact readsRegion_of_eq rfl rfl
  refine final_bind (P := ReadsRegion w) (fun e v hr => ?_) fun resync v hr => ?_
  · rw [hr] at hregion hconf
    exact readsRegion_of_eq hregion hconf
  · rw [hr] at hregion hconf
    exact (readsRegion_of_eq hregion hconf).trans
      (viewTail_reads host resync (hcommitted resync v hr))

end PersistentShmChannel

/-! ## The producer -/

namespace World

variable {w w' w'' : World}

/-- The mirror of the head is the head word, and the write index is in the
ring. -/
structure Ready (w : World) : Prop where
  mirror : w.chan.headCursor = w.region.head
  head : w.chan.head < w.chan.config.capacity

/-- What a producer's call does to the region and to its handle. -/
structure Onward (w w' : World) : Prop where
  spares : w.region.Spares w'.region
  config : w'.chan.config = w.chan.config
  ready : w.Ready → w'.Ready

theorem Onward.refl (w : World) : w.Onward w := ⟨.refl _, rfl, id⟩

theorem Onward.trans (h : w.Onward w') (h' : w'.Onward w'') : w.Onward w'' :=
  ⟨h.spares.trans h'.spares, h'.config.trans h.config, fun hw => h'.ready (h.ready hw)⟩

end World

namespace PersistentShmChannel

variable {host : Host} {w : World} {config : SpscConfig} {region : Region}

theorem onward_composes :
    Composes (fun {α} (x : ChannelM α) => Within World.Onward x) (fun _ => True) :=
  within_composes World.Onward.refl World.Onward.trans

theorem onward_get : Within World.Onward (get : ChannelM World) := World.Onward.refl

theorem onward_withCursors {chan : PersistentShmChannel}
    (hchan : chan = w.chan.withCursors w.region.head w.region.tail w.region.pinFloor) :
    w.Onward { w with chan } := by
  subst hchan
  exact ⟨.refl _, rfl, fun h => ⟨rfl, h.head⟩⟩

theorem onward_refreshCursors : Within World.Onward refreshCursors := by
  intro w
  rcases refreshCursors_cases w with ⟨d, -, hr⟩ | ⟨-, hr⟩
  · rw [hr]
    exact ⟨.refl _, rfl, fun h => ⟨rfl, h.head⟩⟩
  · rw [hr]
    exact onward_withCursors rfl

theorem onward_waitForSpace (neededSlots : ℕ) :
    Within World.Onward (waitForSpace host neededSlots) := by
  have hcomp := onward_composes
  have huntil : ∀ polls, Within World.Onward (waitForSpaceUntil neededSlots polls) := by
    intro polls
    induction polls with
    | zero => exact hcomp.throw trivial
    | succ polls ih =>
        refine hcomp.bind onward_refreshCursors fun _ => hcomp.bind onward_get fun v => ?_
        split
        · exact hcomp.pure _
        · exact ih
  refine hcomp.bind onward_get fun v => ?_
  split
  · exact hcomp.pure _
  split
  · exact hcomp.throw trivial
  · exact huntil _

theorem onward_checkSlots (neededSlots : ℕ) : Within World.Onward (checkSlots neededSlots) := by
  refine onward_composes.bind onward_get fun v => ?_
  split
  · exact onward_composes.throw trivial
  · exact onward_composes.pure _

variable [Checksum]

omit [Checksum] in
/-- **Making room**, where nothing is dropped. -/
theorem onward_prepareSendSlots {neededSlots : ℕ}
    (hdrop : w.chan.config.backpressure ≠ .dropOldest) :
    w.Onward (final (prepareSendSlots host neededSlots w)) := by
  have hcheck := onward_checkSlots neededSlots w
  have hsame : final (checkSlots neededSlots w) = w := by
    rw [checkSlots, get_bind]
    split <;> rfl
  refine final_bind (P := w.Onward) (fun e v hr => by rw [hr] at hcheck; exact hcheck)
    fun _ v hr => ?_
  obtain rfl : v = w := by
    rw [hr] at hsame
    exact hsame
  rw [get_bind]
  split
  · exact .refl _
  cases hbp : v.chan.config.backpressure with
  | raise => exact .refl _
  | block =>
      exact within_bind_at World.Onward.trans (onward_waitForSpace neededSlots v)
        fun _ => onward_composes.pure _
  | dropNewest => exact .refl _
  | dropOldest => exact absurd hbp hdrop

omit [Checksum] in
theorem onward_writeFrames (seq : UInt64) (stamp : WriterIdentity) (frames : List Bytes) :
    Within World.Onward (writeFrames seq stamp frames) := by
  have hcomp := onward_composes
  induction frames with
  | nil => exact hcomp.pure _
  | cons frame frames ih =>
      refine hcomp.bind onward_get fun v => hcomp.bind ?_ fun _ => hcomp.bind ?_ fun _ => ih
      · intro u
        have hwrite : u.region.Reads
            (final (Region.writeCommittedNoFlush v.chan.head seq frame stamp u.region)) :=
          Region.within_writeCommittedNoFlush u.region
        unfold onRegion
        cases hr : Region.writeCommittedNoFlush v.chan.head seq frame stamp u.region <;>
          rw [hr] at hwrite <;>
          exact ⟨hwrite.spares, rfl, fun h => ⟨h.mirror.trans hwrite.head.symm, h.head⟩⟩
      · exact fun u => ⟨.refl _, rfl, fun h =>
          ⟨h.mirror, Nat.mod_lt _ (Nat.lt_of_le_of_lt (Nat.zero_le _) h.head)⟩⟩

/-- **A send** spares the leased slots. -/
theorem send_onward {bytes : Bytes} (hmode : w.chan.config.multiProducer = false)
    (hdrop : w.chan.config.backpressure ≠ .dropOldest) :
    w.Onward (final (send host bytes w)) := by
  have hcomp := onward_composes
  rw [send, get_bind]
  split
  · exact .refl _
  have hrefresh := onward_refreshCursors w
  refine final_bind (P := w.Onward) (fun e v hr => by rw [hr] at hrefresh; exact hrefresh)
    fun _ v hr => ?_
  rw [hr] at hrefresh
  have hconf : v.chan.config = w.chan.config := hrefresh.config
  refine hrefresh.trans ?_
  rw [get_bind, final_ok]
  cases hplan : sendPlan v.chan.config bytes.length with
  | error err => exact .refl _
  | ok plan =>
  dsimp only
  rw [if_neg (by rw [hconf, hmode]; exact Bool.false_ne_true)]
  refine within_bind_at World.Onward.trans (onward_prepareSendSlots (hconf ▸ hdrop)) fun go => ?_
  split
  · refine hcomp.bind ?_ fun seq => hcomp.bind onward_get fun u => ?_
    · exact fun u => ⟨.refl _, rfl, fun h => ⟨h.mirror, h.head⟩⟩
    split
    · exact hcomp.throw trivial
    · exact hcomp.bind (onward_writeFrames _ _ _) fun _ u =>
        ⟨Region.spares_of_slots rfl rfl, rfl, fun h => ⟨rfl, h.head⟩⟩
  · exact hcomp.pure _

end PersistentShmChannel

/-! ## Opening -/

namespace PersistentShmChannel

variable {host : Host} {w : World} {config : SpscConfig} {region : Region}

theorem inferHeadFrom_lt {capacity tail rounds head : ℕ} (h : head < capacity) :
    inferHeadFrom region capacity tail rounds head < capacity := by
  have hpos : 0 < capacity := Nat.lt_of_le_of_lt (Nat.zero_le _) h
  induction rounds generalizing head with
  | zero => exact h
  | succ rounds ih =>
      unfold inferHeadFrom
      dsimp only
      split
      · exact h
      split
      · exact Nat.mod_lt _ hpos
      · exact ih (Nat.mod_lt _ hpos)

/-- **Opening** a region no process of which is gone reads it. The handle is
ready. -/
theorem open_reads (config : SpscConfig) (hfree : region.CrashFree host) :
    region.Reads (final («open» host config region)).region ∧
      ∀ w, «open» host config region = .ok () w →
        w.chan.config = config ∧ (0 < config.capacity → w.Ready) := by
  have hdead (state : SlotState) : reclaimEach (Region.reclaimDead host state)
      (List.range config.capacity) region = .ok 0 region :=
    reclaimEach_none _ fun index _ => reclaimDead_false fun identity hid _ =>
      hfree index identity hid
  have hon (state : SlotState) (chan : PersistentShmChannel) :
      onRegion (reclaimEach (Region.reclaimDead host state) (List.range config.capacity))
        ⟨chan, region⟩ = .ok 0 ⟨chan, region⟩ := by
    simp only [onRegion, hdead]
  -- Neither sweep finds a slot of a process that is gone.
  have hwriters : ∃ chan, reclaimWriters host ⟨fresh host config, region⟩ =
      .ok () ⟨chan, region⟩ ∧ chan.config = config := by
    rw [reclaimWriters, get_bind]
    split
    · exact ⟨_, rfl, rfl⟩
    · exact ⟨_, (bind_ok (hon .writing (fresh host config))).trans rfl, rfl⟩
  obtain ⟨chan, hwriters, hconf⟩ := hwriters
  have hreaders : ∃ chan', reclaimReaders host ⟨chan, region⟩ = .ok () ⟨chan', region⟩ ∧
      chan'.config = config := by
    rw [reclaimReaders, get_bind]
    dsimp only
    rw [hconf]
    exact ⟨_, (bind_ok (hon .pinned chan)).trans rfl, hconf⟩
  obtain ⟨chan', hreaders, hconf'⟩ := hreaders
  -- The rebuild writes the floor word and no slot.
  have hrebuild : ∃ chan'' region', rebuildFloor ⟨chan', region⟩ = .ok () ⟨chan'', region'⟩ ∧
      chan''.config = config ∧ region.Reads region' := by
    refine ⟨_, _, rfl, hconf', ?_⟩
    simp only [Region.floorCas]
    split_ifs <;> exact ⟨Region.spares_of_slots rfl rfl, rfl⟩
  obtain ⟨chan'', region', hrebuild, hconf'', hreads⟩ := hrebuild
  have hrecover :
      region.Reads (final (recoverFromStorage host ⟨fresh host config, region⟩)).region ∧
      ∀ w, recoverFromStorage host ⟨fresh host config, region⟩ = .ok () w →
        w.chan.config = config ∧ (0 < config.capacity → w.Ready) := by
    rw [recoverFromStorage, bind_ok hwriters, bind_ok hreaders, bind_ok hrebuild, get_bind]
    dsimp only
    cases hd : cursorLen chan''.config.capacity region'.head region'.tail with
    | none => exact ⟨hreads, fun _ h => by cases h⟩
    | some depth =>
        refine ⟨hreads, fun w h => ?_⟩
        cases h
        refine ⟨hconf'', fun hpos => ⟨rfl, ?_⟩⟩
        have hpos' : 0 < chan''.config.capacity := hconf'' ▸ hpos
        exact inferHeadFrom_lt (Nat.mod_lt _ hpos')
  unfold «open»
  dsimp only
  split
  · exact ⟨.refl _, fun _ h => by cases h⟩
  · exact hrecover

end PersistentShmChannel

end Dsline
