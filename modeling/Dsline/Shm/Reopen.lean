import Dsline.Core.Crc
import Dsline.Shm.DropOldest
/-!
# Opening a second consumer

A handle opened on a single-producer region takes the place of a consumer
that was there since the region was created. Two runs are compared: one in
which the old handle goes on receiving, one in which the new one does. They
answer alike where the new handle was opened with no lease outstanding, and
with a readable tail or no live view: a WRITING slot counts into the new
handle's recovery bias, and a pin with nothing behind it makes it expect the
sequence of a FREE slot.
-/

namespace Dsline

open PersistentShmChannel SpscState

variable [Checksum] {config : SpscConfig} {s s₁ s₂ : SpscState} {q : Queue} {synced : Prop}
  {host : Host} {base : ℕ} {chan : PersistentShmChannel}

/-! ## The two runs -/

/-- A call of the continuation: of the producer, of a lease or a view, or a
receive. -/
def SpscOp.Continues : SpscOp → Prop
  | .send _ _ | .alloc _ _ | .write _ _ _ | .publish _ | .abort _ | .dropLease _ | .recv _
  | .release _ | .dropView _ => True
  | .openConsumer _ | .tryRecv _ | .recvView _ | .reopenProducer _ => False

instance : (op : SpscOp) → Decidable op.Continues
  | .send _ _ | .alloc _ _ | .write _ _ _ | .publish _ | .abort _ | .dropLease _ | .recv _
  | .release _ | .dropView _ => isTrue trivial
  | .openConsumer _ | .tryRecv _ | .recvView _ | .reopenProducer _ => isFalse id

namespace SpscState

/-- The state with a handle opened in the consumer's place. -/
def reopened (host : Host) (config : SpscConfig) (s : SpscState) : SpscState :=
  match PersistentShmChannel.open host config s.region with
  | .ok _ w => s.withConsumer w
  | .error _ w => { s with region := w.region }

/-- A frame that is sent or published keeps its length. -/
def KeepsLength (config : SpscConfig) (s : SpscState) : SpscOp → Prop
  | .send _ message => FramesFit config message.1.length
  | .publish k => ∀ lease, s.leases[k]? = some lease →
      FRAME_HEADER_LEN + lease.payloadLen < 2 ^ 32
  | _ => True

/-- What a call needs of the state it is made in: where the channel drops
its oldest messages, that it is timely; elsewhere that it is admissible and
its frames keep their length. -/
def InStep (config : SpscConfig) (s : SpscState) (op : SpscOp) : Prop :=
  if config.backpressure = .dropOldest then s.Timely config op
  else s.Admissible config op ∧ s.KeepsLength config op

/-- The region a handle may be opened on: no slot is WRITING, and either the
tail can be read or no slot is PINNED. -/
def Settled (s : SpscState) : Prop :=
  (∀ index < s.region.capacity, s.region.state index ≠ .writing) ∧
    (s.region.state (s.region.tail % s.region.capacity) = .committed ∨
      ∀ index < s.region.capacity, s.region.state index ≠ .pinned)

/-- **The new handle is as good as the old one**: a receive is answered
alike and never by a mismatch, and a refresh counts what lies between the
cursors. -/
def Alike (host : Host) (s₁ s₂ : SpscState) : Prop :=
  ∀ c₁ c₂, s₁.consumer = some c₁ → s₂.consumer = some c₂ →
    Effect.outcome (recvWithSeq host ⟨c₂, s₂.region⟩) =
        Effect.outcome (recvWithSeq host ⟨c₁, s₁.region⟩) ∧
      (∀ expected actual, Effect.outcome (recvWithSeq host ⟨c₂, s₂.region⟩) ≠
        .error (.ofChannel (.sequenceMismatch expected actual))) ∧
      ∃ w, refreshCursors ⟨c₂, s₂.region⟩ = .ok () w ∧ w.region = s₂.region ∧
        w.chan.len = s₂.region.head - s₂.region.tail

instance (s : SpscState) : (op : SpscOp) → Decidable (s.KeepsLength config op)
  | .send _ message => inferInstanceAs (Decidable
      (min message.1.length config.slotSize + FRAME_HEADER_LEN < 2 ^ 32))
  | .publish k =>
      match h : s.leases[k]? with
      | none => isTrue fun lease he => by rw [h] at he; cases he
      | some lease => decidable_of_iff (FRAME_HEADER_LEN + lease.payloadLen < 2 ^ 32)
          ⟨fun hlt lease' he => by rw [h] at he; cases he; exact hlt, fun hall => hall lease h⟩
  | .alloc _ _ | .write _ _ _ | .abort _ | .dropLease _ | .openConsumer _ | .recv _ | .tryRecv _
  | .recvView _ | .release _ | .dropView _ | .reopenProducer _ => isTrue trivial

instance (s : SpscState) (op : SpscOp) : Decidable (s.InStep config op) :=
  inferInstanceAs (Decidable (if config.backpressure = .dropOldest then s.Timely config op
    else s.Admissible config op ∧ s.KeepsLength config op))

instance (s : SpscState) : Decidable s.Settled := inferInstanceAs (Decidable (_ ∧ (_ ∨ _)))

/-! ## What a handle reads -/

/-- A handle that reads the queue from its first message on. -/
structure Reads (config : SpscConfig) (base : ℕ) (chan : PersistentShmChannel) : Prop where
  config : chan.config = config
  closed : chan.closed = false
  sync : chan.resyncExpected = true ∨ chan.expectedRecvSeq = UInt64.ofNat base

/-- Every message of the queue delivers its bytes. -/
def Clean (entries : List Entry) : Prop :=
  ∀ seq datas err, Entry.message seq datas (.error err) ∉ entries

/-- What a receive answers. -/
def firstOf : List Entry → Except Failure ReceivedMessage
  | .message seq _ (.ok payload) :: _ => .ok ⟨seq, payload⟩
  | _ => .error (.ofChannel .bufferEmpty)

omit [Checksum] in
theorem firstOf_ne_mismatch {entries : List Entry} (expected actual : UInt64) :
    firstOf entries ≠ .error (.ofChannel (.sequenceMismatch expected actual)) := by
  unfold firstOf
  split
  · intro h
    cases h
  · intro h
    cases h

/-- The handle a receive of `n` slots leaves. -/
def handed (w : World) (seq : UInt64) (n : ℕ) : World :=
  ((settled w seq).consumed n).counted ((settled w seq).chan.expectedRecvSeq + 1) (some seq)

variable (host) in
/-- **What a handle that reads the queue receives.** -/
theorem Holds.reads (h : s.Holds config synced q) (hclean : Clean q.entries)
    (halive : NoneGone host s.region) (hchan : Reads config q.base chan) :
    ((∀ seq datas out rest, q.entries ≠ .message seq datas out :: rest) ∧
        firstOf q.entries = .error (.ofChannel .bufferEmpty) ∧
        recvWithSeq host ⟨chan, s.region⟩ = .error (.ofChannel .bufferEmpty)
          (World.refreshed ⟨chan, s.region⟩ (depth ⟨chan, s.region⟩))) ∨
      ∃ seq datas payload rest, q.entries = .message seq datas (.ok payload) :: rest ∧
        seq = UInt64.ofNat q.base ∧ firstOf q.entries = .ok ⟨seq, payload⟩ ∧
        recvWithSeq host ⟨chan, s.region⟩ =
          .ok ⟨seq, payload⟩ (handed ⟨chan, s.region⟩ seq datas.length) := by
  have hs := h.ring.sound hchan.config hchan.closed
  have hmode : chan.config.multiProducer = false := hchan.config ▸ h.mode
  by_cases hfirst : ∀ seq datas out rest, q.entries ≠ .message seq datas out :: rest
  · refine .inl ⟨hfirst, ?_, recvWithSeq_empty hs (h.state_tail_ne hfirst)
      (tryReclaimAtTail_none hmode ?_ halive)⟩
    · unfold firstOf
      split
      · rename_i hentries
        exact absurd hentries (hfirst _ _ _ _)
      · rfl
    · exact (World.mirrors_refreshed (depth ⟨chan, s.region⟩) hs.capacity).index ▸
        Nat.mod_lt _ hs.pos
  simp only [not_forall, ne_eq, not_not] at hfirst
  obtain ⟨seq, datas, out, rest, hentries⟩ := hfirst
  have hl := h.ring.layout
  have hnum := h.numbered
  obtain ⟨hdel, -⟩ := h.ring.good (.message seq datas out) (hentries ▸ List.mem_cons_self)
  have hword := h.ring.word
  have hread := readable_le rest
  have hlen := length_contentsOf rest
  rw [hentries] at hl hnum hword
  have hseq : seq = UInt64.ofNat q.base := hnum.1
  rw [contentsOf_cons, contents_message] at hl hword
  rw [List.length_append, List.length_map] at hword
  cases out with
  | error err => exact absurd (hentries ▸ List.mem_cons_self) (hclean seq datas err)
  | ok payload =>
      refine .inr ⟨seq, datas, payload, rest, hentries, hseq, by rw [hentries]; rfl, ?_⟩
      exact recvWithSeq_run host hs hl (by show s.region.tail + _ < _; omega) hdel
        (hchan.sync.imp id fun he => .inr (he.trans hseq.symm))

omit [Checksum] in
/-- A receive leaves a handle that reads from the next message on. -/
theorem Reads.handed {region : Region} {seq : UInt64} (h : Reads config base chan)
    (hseq : seq = UInt64.ofNat base) (n : ℕ) :
    Reads config (base + 1) (SpscState.handed ⟨chan, region⟩ seq n).chan := by
  refine ⟨?_, ?_, .inr ?_⟩
  · exact (World.consumed_field (w := settled ⟨chan, region⟩ seq) (k := n) (·.config)
      fun _ => rfl).trans h.config
  · exact (World.consumed_field (w := settled ⟨chan, region⟩ seq) (k := n) (·.closed)
      fun _ => rfl).trans h.closed
  · show (if chan.resyncExpected then seq else chan.expectedRecvSeq) + 1 = _
    rw [ofNat_succ, hseq]
    split
    · rfl
    · rename_i hno
      rw [h.sync.resolve_left hno]

omit [Checksum] in
/-- A receive recovers no bias. -/
theorem handed_bias {w : World} {seq : UInt64} (h : w.chan.recoveryBias = 0) (n : ℕ) :
    (handed w seq n).chan.recoveryBias = 0 := by
  show ((settled w seq).consumed n).chan.recoveryBias = 0
  induction n with
  | zero => exact h
  | succ n ih =>
      show (if _ then ((settled w seq).consumed n).chan.recoveryBias - 1
        else ((settled w seq).consumed n).chan.recoveryBias) = 0
      rw [ih, Nat.zero_sub, ite_self]

omit [Checksum] in
/-- What a receive leaves of the region does not depend on the handle. -/
theorem handed_region {region : Region} {c₁ c₂ : PersistentShmChannel} {seq : UInt64}
    (hcap : c₁.config.capacity = c₂.config.capacity) (n : ℕ) :
    (handed ⟨c₁, region⟩ seq n).region = (handed ⟨c₂, region⟩ seq n).region := by
  have hsame : ((settled ⟨c₁, region⟩ seq).consumed n).region =
        ((settled ⟨c₂, region⟩ seq).consumed n).region ∧
      ((settled ⟨c₁, region⟩ seq).consumed n).chan.tail =
        ((settled ⟨c₂, region⟩ seq).consumed n).chan.tail ∧
      ((settled ⟨c₁, region⟩ seq).consumed n).chan.tailCursor =
        ((settled ⟨c₂, region⟩ seq).consumed n).chan.tailCursor ∧
      ((settled ⟨c₁, region⟩ seq).consumed n).chan.config.capacity =
        ((settled ⟨c₂, region⟩ seq).consumed n).chan.config.capacity := by
    induction n with
    | zero =>
        refine ⟨rfl, ?_, rfl, hcap⟩
        show region.tail % c₁.config.capacity = region.tail % c₂.config.capacity
        rw [hcap]
    | succ n ih =>
        obtain ⟨hregion, htail, hcursor, hcapacity⟩ := ih
        simp only [World.consumed, World.consume, stepTail, hregion, htail, hcursor, hcapacity,
          and_self]
  exact hsame.1

/-- A refresh of a handle with no bias counts what lies between the cursors. -/
theorem Holds.refresh_len (h : s.Holds config synced q) (hchan : Reads config base chan)
    (hbias : chan.recoveryBias = 0) :
    ∃ w, refreshCursors ⟨chan, s.region⟩ = .ok () w ∧ w.region = s.region ∧
      w.chan.len = s.region.head - s.region.tail := by
  have hs := h.ring.sound hchan.config hchan.closed
  have hwin := hs.window
  have hcap := hs.capacity
  refine ⟨_, hs.refreshCursors, rfl, ?_⟩
  show min (s.region.head - s.region.tail + chan.recoveryBias) chan.config.capacity = _
  replace hwin : s.region.head ≤ s.region.tail + s.region.capacity := hwin
  replace hcap : chan.config.capacity = s.region.capacity := hcap
  rw [hbias, hcap]
  omega

/-! ## Opening -/

variable (host) in
/-- **A handle opened on a settled region reads the queue**, with no bias. -/
theorem Holds.recovered_reads (h : s.Holds config synced q) (hsettled : s.Settled) :
    Reads config q.base (recovered host config s.region (s.region.head - s.region.tail)) := by
  obtain ⟨-, htail⟩ := hsettled
  refine ⟨rfl, rfl, ?_⟩
  have hcap := h.ring.fits.capacity
  by_cases hcommitted : s.region.state (s.region.tail % s.region.capacity) = .committed
  · -- The tail is readable: the handle expects its sequence.
    refine .inr ?_
    obtain ⟨seq, datas, out, rest, hentries⟩ :
        ∃ seq datas out rest, q.entries = .message seq datas out :: rest := by
      by_contra hno
      simp only [not_exists] at hno
      exact h.state_tail_ne hno hcommitted
    have hl := h.ring.layout
    have hnum := h.numbered
    have hgood := h.ring.good
    rw [hentries] at hl hnum hgood
    obtain ⟨data, datas', rfl⟩ := List.exists_cons_of_ne_nil (hgood _ List.mem_cons_self).ne_nil
    have hread : (occupiedSlotHeaders s.region config.capacity).any
        fun header => header.state != .writing := by
      refine List.any_eq_true.2 ⟨s.region.header (s.region.tail % s.region.capacity), ?_, ?_⟩
      · refine List.mem_filter.2 ⟨List.mem_map.2 ⟨_, List.mem_range.2 ?_, rfl⟩, ?_⟩
        · rw [← hcap]
          exact Nat.mod_lt _ h.ring.fits.pos
        · rw [show (s.region.header (s.region.tail % s.region.capacity)).state = .committed
            from hcommitted]
          rfl
      · rw [show (s.region.header (s.region.tail % s.region.capacity)).state = .committed
          from hcommitted]
        rfl
    refine (if_pos hread).trans ?_
    show (s.region.header (s.region.tail % config.capacity)).seq = _
    rw [← hcap]
    exact hl.holds.1.2.1.trans hnum.1
  · have hnone := htail.resolve_left hcommitted
    have hviews : s.views = [] := by
      refine List.eq_nil_iff_forall_not_mem.2 fun v hv => ?_
      have hpin := h.ring.layout.state_pin (p := v.pin) (List.mem_map_of_mem hv)
      exact hnone _ (Nat.mod_lt _ h.ring.fits.pos) hpin
    rcases h.recovered_expected host (d := s.region.head - s.region.tail) hviews with
      ⟨-, he⟩ | ⟨hr, -⟩
    · exact .inr he
    · exact .inl hr

variable (host) in
theorem Holds.recovered_bias (h : s.Holds config synced q) (hsettled : s.Settled) :
    (recovered host config s.region (s.region.head - s.region.tail)).recoveryBias = 0 := by
  obtain ⟨hwriting, -⟩ := hsettled
  have hcap := h.ring.fits.capacity
  obtain ⟨hordered, hwindow, -⟩ := h.ring.window
  have hleases : leasesOf q.entries = 0 := by
    rw [← h.writing, SpscState.writing, List.countP_eq_zero]
    intro index hi
    simpa using hwriting index (List.mem_range.1 hi)
  have hlen := length_contentsOf q.entries
  have hhead := h.ring.head
  -- What is occupied and not PINNED is COMMITTED, and lies in the window.
  have hcount : (occupiedSlotHeaders s.region config.capacity).length -
      ((occupiedSlotHeaders s.region config.capacity).countP fun header =>
        header.state = .pinned) ≤ s.region.head - s.region.tail := by
    have hsplit := List.length_eq_countP_add_countP (fun header : SlotHeader =>
      decide (header.state = .pinned)) (l := occupiedSlotHeaders s.region config.capacity)
    have hrest : (occupiedSlotHeaders s.region config.capacity).countP (fun header =>
        decide ¬ (decide (header.state = .pinned)) = true) ≤
          (List.range s.region.capacity).countP fun index =>
            decide (s.region.state index = .committed) := by
      rw [occupiedSlotHeaders, List.countP_filter, List.countP_map, ← hcap]
      refine List.countP_mono_left fun index hi hocc => ?_
      have hno := hwriting index (List.mem_range.1 hi)
      have hfact : ∀ state : SlotState, state ≠ .pinned → isOccupied state = true →
          state ≠ .writing → state = .committed := by
        intro state
        cases state <;> simp [isOccupied]
      simp only [Function.comp_apply, Bool.and_eq_true, decide_eq_true_eq] at hocc ⊢
      exact hfact _ hocc.1 hocc.2 hno
    have hwin := h.ring.layout.countP_state (fun state => decide (state = .committed)) rfl rfl
    have hle := List.countP_le_length (p := fun content : Content =>
      decide (content.state = .committed)) (l := contentsOf q.entries)
    omega
  show (if wrappingSub s.region.head s.region.tail ≤ config.capacity then
      (occupiedSlotHeaders s.region config.capacity).length -
        ((occupiedSlotHeaders s.region config.capacity).countP fun header =>
          header.state = .pinned)
    else (occupiedSlotHeaders s.region config.capacity).length) -
      (s.region.head - s.region.tail) = 0
  rw [wrappingSub_of_le hordered, if_pos (by omega)]
  omega

/-! ## The twin runs -/

/-- The state of the run with the new handle, beside the one with the old. -/
inductive Twin (config : SpscConfig) : SpscState → SpscState → Prop where
  /-- The same region, and a new handle that reads it. -/
  | same {s : SpscState} {q : Queue} {c₂ : PersistentShmChannel}
      (mode : config.backpressure ≠ .dropOldest) (holds : s.Holds config True q)
      (clean : Clean q.entries) (opened : s.consumer.isSome) (reads : Reads config q.base c₂)
      (bias : c₂.recoveryBias = 0) : Twin config s { s with consumer := some c₂ }
  /-- Two regions that retain the same messages. -/
  | drops {s₁ s₂ : SpscState} {base₁ base₂ : ℕ} {a : DropQueue} {c₂ : PersistentShmChannel}
      (first : Refines config base₁ s₁ a) (second : Refines config base₂ s₂ a)
      (consumer : s₂.consumer = some c₂) (bias : c₂.recoveryBias = 0) : Twin config s₁ s₂

/-- A call that does not receive does not ask who consumes. -/
theorem step_consumer {op : SpscOp} (hop : op.Continues) (hrecv : op.receives = false)
    (c : Option PersistentShmChannel) :
    ({ s with consumer := c } : SpscState).step op = { s.step op with consumer := c } := by
  cases op with
  | send host message => rfl
  | alloc host size =>
      show stepAlloc _ host size = _
      simp only [SpscState.step, stepAlloc, atProducer]
      split <;> rfl
  | write k offset bytes =>
      show stepWrite _ k offset bytes = _
      simp only [SpscState.step, stepWrite]
      split <;> rfl
  | publish k =>
      show stepPublish _ k = _
      simp only [SpscState.step, stepPublish, atProducer]
      split
      · rfl
      · split <;> rfl
  | abort k =>
      show stepAbort _ k = _
      simp only [SpscState.step, stepAbort, atProducer]
      split <;> rfl
  | dropLease k => rfl
  | release k =>
      show stepRelease _ k = _
      simp only [SpscState.step, stepRelease]
      split
      · rfl
      · split <;> rfl
  | dropView k =>
      show stepDropView _ k = _
      simp only [SpscState.step, stepDropView]
      split <;> rfl
  | recv host => cases hrecv
  | openConsumer host => exact hop.elim
  | tryRecv host => exact hop.elim
  | recvView host => exact hop.elim
  | reopenProducer host => exact hop.elim

theorem consumer_step {op : SpscOp} (hop : op.Continues) (hrecv : op.receives = false) :
    (s.step op).consumer = s.consumer := by
  have h := congrArg SpscState.consumer (step_consumer (s := s) hop hrecv s.consumer)
  exact h

omit [Checksum] in
/-- A queue whose messages deliver stays one, and a call that does not
receive leaves its first number. -/
theorem Clean.moves {op : SpscOp} {q' : Queue} (h : Clean q.entries)
    (hmoves : Moves config s op q q') (hlen : s.KeepsLength config op) :
    Clean q'.entries ∧ (op.receives = false → q'.base = q.base) := by
  cases hmoves with
  | idle => exact ⟨h, fun _ => rfl⟩
  | push plan_eq out_eq =>
      refine ⟨fun seq datas err he => ?_, fun _ => rfl⟩
      rcases List.mem_append.1 he with he | he
      · exact h seq datas err he
      · cases (List.mem_singleton.1 he).trans (congrArg _ (out_eq hlen))
  | claim =>
      refine ⟨fun seq datas err he => ?_, fun _ => rfl⟩
      rcases List.mem_append.1 he with he | he
      · exact h seq datas err he
      · cases List.mem_singleton.1 he
  | publish lease_eq unsealed place out_eq =>
      refine ⟨fun seq datas err he => ?_, fun _ => rfl⟩
      rcases List.mem_or_eq_of_mem_set he with he | he
      · exact h seq datas err he
      · cases he.trans (congrArg _ (out_eq (hlen _ lease_eq)))
  | takeBack entries_eq =>
      exact ⟨fun seq datas err he => h seq datas err
        (entries_eq ▸ List.mem_append_left _ he), fun _ => rfl⟩
  | deliver receives entries_eq =>
      refine ⟨fun seq datas err he => h seq datas err
        (entries_eq ▸ List.mem_cons_of_mem _ he), fun hrecv => ?_⟩
      rw [receives] at hrecv
      cases hrecv
  | skip receives entries_eq =>
      refine ⟨fun seq datas err he => h seq datas err
        (entries_eq ▸ List.mem_cons_of_mem _ he), fun hrecv => ?_⟩
      rw [receives] at hrecv
      cases hrecv

/-- A handle of the consumer's, as the invariant has it. -/
theorem Holds.consumer_reads (h : s.Holds config True q) (hc : s.consumer = some chan) :
    Reads config q.base chan :=
  ⟨(h.consumer chan hc).config, (h.consumer chan hc).closed,
    .inr ((h.consumer chan hc).expected trivial)⟩

/-- A current handle of a ring that drops its oldest messages. -/
theorem refines_reads {a : DropQueue} (h : Refines config base s a) (hc : s.consumer = some chan)
    (hcur : s.Current) : Reads config base chan :=
  ⟨(h.holds.consumer chan hc).config, (h.holds.consumer chan hc).closed, h.sync hc hcur⟩

theorem clean_entryOf (messages : List ReceivedMessage) :
    Clean (messages.map (entryOf config)) := by
  intro seq datas err he
  obtain ⟨m, -, hm⟩ := List.mem_map.1 he
  cases hm

/-- **A receive keeps the runs together**, where the regions are the same. -/
theorem Holds.twin_recv {c₂ : PersistentShmChannel} (h : s.Holds config True q)
    (hdrop : config.backpressure ≠ .dropOldest) (hclean : Clean q.entries)
    (halive : NoneGone host s.region) (hc : s.consumer = some chan)
    (hreads : Reads config q.base c₂) (hbias : c₂.recoveryBias = 0) :
    Twin config (s.stepRecv host) (SpscState.stepRecv { s with consumer := some c₂ } host) := by
  have hreads₁ := h.consumer_reads hc
  rcases h.recv_cases host hc halive hreads₁.sync with
    ⟨hfirst, hrun⟩ | ⟨seq, datas, payload, rest, w, hentries, hrun, -, -, hnext⟩ |
      ⟨seq, datas, err, rest, w, hentries, -⟩
  · rcases h.reads host hclean halive hreads with
      ⟨-, -, hrun₂⟩ | ⟨seq, datas, payload, rest, hentries, -⟩
    · have e₁ : s.stepRecv host =
          s.withConsumer (World.refreshed ⟨chan, s.region⟩ (depth ⟨chan, s.region⟩)) := by
        rw [SpscState.stepRecv, hc]
        simp only [hrun]
      have e₂ : SpscState.stepRecv { s with consumer := some c₂ } host =
          { s.withConsumer (World.refreshed ⟨chan, s.region⟩ (depth ⟨chan, s.region⟩)) with
            consumer :=
              some (World.refreshed ⟨c₂, s.region⟩ (depth ⟨c₂, s.region⟩)).chan } := by
        simp only [SpscState.stepRecv, hrun₂]
        rfl
      rw [e₁, e₂]
      exact .same hdrop (h.consumerRefreshed hc) hclean rfl
        ⟨hreads.config, hreads.closed, hreads.sync⟩ hbias
    · exact absurd hentries (hfirst _ _ _ _)
  · have hmem : ∀ seq datas err, Entry.message seq datas (.error err) ∉ rest :=
      fun seq datas err he => hclean seq datas err (hentries ▸ List.mem_cons_of_mem _ he)
    -- Both handles take the first message off the same region.
    rcases h.reads host hclean halive hreads₁ with
      ⟨hfirst, -⟩ | ⟨seq₁, datas₁, payload₁, rest₁, hentries₁, hseq, -, hrun₁⟩
    · exact absurd hentries (hfirst _ _ _ _)
    rcases h.reads host hclean halive hreads with
      ⟨hfirst, -⟩ | ⟨seq₂, datas₂, payload₂, rest₂, hentries₂, -, -, hrun₂⟩
    · exact absurd hentries (hfirst _ _ _ _)
    rw [hentries] at hentries₁ hentries₂
    cases hentries₁
    cases hentries₂
    obtain rfl : w = handed ⟨chan, s.region⟩ seq datas.length := by
      rw [hrun] at hrun₁
      cases hrun₁
      rfl
    have hcap : chan.config.capacity = c₂.config.capacity := by
      rw [hreads₁.config, hreads.config]
    have hregion : (handed ⟨chan, s.region⟩ seq datas.length).region =
        (handed ⟨c₂, s.region⟩ seq datas.length).region := handed_region hcap datas.length
    have e₁ : s.stepRecv host =
        { s.withConsumer (handed ⟨chan, s.region⟩ seq datas.length) with
          got := s.got ++ [⟨seq, payload⟩] } := by
      rw [SpscState.stepRecv, hc]
      simp only [hrun]
    have e₂ : SpscState.stepRecv { s with consumer := some c₂ } host =
        { s.withConsumer (handed ⟨chan, s.region⟩ seq datas.length) with
          got := s.got ++ [⟨seq, payload⟩]
          consumer := some (handed ⟨c₂, s.region⟩ seq datas.length).chan } := by
      simp only [SpscState.stepRecv, hrun₂, withConsumer, hregion]
    rw [e₁, e₂]
    exact .same hdrop (hnext _) hmem rfl (hreads.handed hseq _) (handed_bias hbias _)
  · exact absurd (hentries ▸ List.mem_cons_self) (hclean seq datas err)

/-- **Every step keeps the runs together.** -/
theorem Twin.step {op : SpscOp} (h : Twin config s₁ s₂) (hop : op.Continues)
    (h₁ : s₁.InStep config op) (h₂ : s₂.InStep config op) :
    Twin config (s₁.step op) (s₂.step op) := by
  cases h with
  | same mode holds clean opened reads bias =>
      rename_i q c₂
      rw [InStep, if_neg mode] at h₁
      obtain ⟨hadm, hlen⟩ := h₁
      by_cases hrecv : op.receives = true
      · cases op with
        | recv host =>
            obtain ⟨chan, hc⟩ := Option.isSome_iff_exists.1 opened
            exact holds.twin_recv mode clean (holds.noneGone hadm) hc reads bias
        | tryRecv host => exact hop.elim
        | recvView host => exact hop.elim
        | _ => cases hrecv
      · rw [Bool.not_eq_true] at hrecv
        obtain ⟨q', hmoves, hnext⟩ := holds.step mode hadm
        obtain ⟨hclean, hbase⟩ := clean.moves hmoves hlen
        rw [step_consumer hop hrecv (some c₂)]
        refine .same mode hnext hclean ?_ (by rw [hbase hrecv]; exact reads) bias
        rw [consumer_step hop hrecv]
        exact opened
  | drops first second consumer bias =>
      rename_i base₁ base₂ a c₂
      rw [InStep, if_pos first.mode] at h₁ h₂
      obtain ⟨base₁', hnext₁⟩ := first.step h₁
      obtain ⟨base₂', hnext₂⟩ := second.step h₂
      by_cases hrecv : op.receives = true
      · cases op with
        | recv host =>
            have hreads := refines_reads second consumer h₂
            rcases second.holds.reads host (clean_entryOf _) second.noneGone hreads with
              ⟨-, -, hrun⟩ | ⟨seq, datas, payload, rest, -, -, -, hrun⟩
            · have hbias : (World.refreshed ⟨c₂, s₂.region⟩
                  (depth ⟨c₂, s₂.region⟩)).chan.recoveryBias = 0 := bias
              refine .drops hnext₁ hnext₂ ?_ hbias
              show (s₂.stepRecv host).consumer = _
              rw [stepRecv, consumer]
              simp only [hrun]
              rfl
            · have hbias : (handed ⟨c₂, s₂.region⟩ seq datas.length).chan.recoveryBias = 0 :=
                handed_bias bias _
              refine .drops hnext₁ hnext₂ ?_ hbias
              show (s₂.stepRecv host).consumer = _
              rw [stepRecv, consumer]
              simp only [hrun]
              rfl
        | tryRecv host => exact hop.elim
        | recvView host => exact hop.elim
        | _ => cases hrecv
      · rw [Bool.not_eq_true] at hrecv
        exact .drops hnext₁ hnext₂ ((consumer_step hop hrecv).trans consumer) bias

theorem Twin.run {ops : List SpscOp} (h : Twin config s₁ s₂) (hops : ∀ op ∈ ops, op.Continues)
    (h₁ : Run.Meets SpscState.step (fun s op => s.InStep config op) s₁ ops)
    (h₂ : Run.Meets SpscState.step (fun s op => s.InStep config op) s₂ ops) :
    Twin config (Run.exec SpscState.step s₁ ops) (Run.exec SpscState.step s₂ ops) := by
  induction ops generalizing s₁ s₂ with
  | nil => exact h
  | cons op ops ih =>
      exact ih (h.step (hops op List.mem_cons_self) h₁.1 h₂.1)
        (fun op' hop => hops op' (List.mem_cons_of_mem op hop)) h₁.2 h₂.2

variable (host) in
/-- Every handle that reads the queue is answered by its first message. -/
theorem Holds.outcome_reads (h : s.Holds config synced q) (hclean : Clean q.entries)
    (halive : NoneGone host s.region) (hchan : Reads config q.base chan) :
    Effect.outcome (recvWithSeq host ⟨chan, s.region⟩) = firstOf q.entries := by
  rcases h.reads host hclean halive hchan with
    ⟨-, hfirst, hrun⟩ | ⟨seq, datas, payload, rest, -, -, hfirst, hrun⟩
  · rw [hrun, hfirst]
    rfl
  · rw [hrun, hfirst]
    rfl

/-- **Twins are alike.** -/
theorem Twin.alike (h : Twin config s₁ s₂) (h₁ : s₁.InStep config (.recv host))
    (h₂ : s₂.InStep config (.recv host)) : Alike host s₁ s₂ := by
  intro c₁ c₂ hc₁ hc₂
  cases h with
  | same mode holds clean opened reads bias =>
      rw [InStep, if_neg mode] at h₁
      obtain rfl := Option.some.inj hc₂
      have halive := holds.noneGone h₁.1
      have hout := holds.outcome_reads host clean halive reads
      refine ⟨hout.trans (holds.outcome_reads host clean halive (holds.consumer_reads hc₁)).symm,
        fun expected actual => ?_, holds.refresh_len reads bias⟩
      rw [hout]
      exact firstOf_ne_mismatch _ _
  | drops first second consumer bias =>
      rw [InStep, if_pos first.mode] at h₁ h₂
      obtain rfl := Option.some.inj (consumer.symm.trans hc₂)
      have hreads := refines_reads second hc₂ h₂
      have hout := second.holds.outcome_reads host (clean_entryOf _) second.noneGone hreads
      have hout₁ := first.holds.outcome_reads host (clean_entryOf _) first.noneGone
        (refines_reads first hc₁ h₁)
      refine ⟨hout.trans hout₁.symm, fun expected actual => ?_,
        second.holds.refresh_len hreads bias⟩
      rw [hout]
      exact firstOf_ne_mismatch _ _

/-! ## Before the new handle -/

/-- What holds of the run before. -/
def Before (config : SpscConfig) (s : SpscState) : Prop :=
  if config.backpressure = .dropOldest then ∃ base a, Refines config base s a
  else ∃ q, s.Holds config True q ∧ Clean q.entries

theorem before_start {w : World} (hw : create host config = .ok w)
    (hmode : config.multiProducer = false) : Before config (start w) := by
  unfold Before
  split
  · rename_i hdrop
    exact ⟨0, _, refines_start hw hmode hdrop⟩
  · exact ⟨_, holds_start hw hmode, nofun⟩

theorem Before.step {op : SpscOp} (h : Before config s) (hop : s.InStep config op) :
    Before config (s.step op) := by
  unfold Before at h ⊢
  unfold InStep at hop
  split at h
  · rename_i hdrop
    rw [if_pos hdrop] at hop ⊢
    obtain ⟨base, a, h⟩ := h
    obtain ⟨base', h'⟩ := h.step hop
    exact ⟨base', _, h'⟩
  · rename_i hdrop
    rw [if_neg hdrop] at hop ⊢
    obtain ⟨q, h, hclean⟩ := h
    obtain ⟨q', hmoves, h'⟩ := h.step hdrop hop.1
    exact ⟨q', h', (hclean.moves hmoves hop.2).1⟩

/-- **Opening on a settled region starts a twin run.** -/
theorem Before.twin (h : Before config s) (hopen : s.consumer.isSome) (halive : s.Alive host)
    (hsettled : s.Settled) : Twin config s (s.reopened host config) := by
  unfold Before at h
  split at h
  · obtain ⟨base, a, h⟩ := h
    have hrun := h.holds.opened (h.noneGone : NoneGone host s.region)
    have hreads := h.holds.recovered_reads host hsettled
    have hbias := h.holds.recovered_bias host hsettled
    have hstate : s.reopened host config = { s with
        consumer := some (recovered host config s.region (s.region.head - s.region.tail)) } := by
      rw [reopened, hrun]
      rfl
    rw [hstate]
    refine .drops h ⟨h.mode, ?_, h.next, h.taken, h.leases, h.views, ?_, ?_, ?_⟩ rfl hbias
    · refine { h.holds with
        consumer := fun c hc => ?_
        unread := fun hs => hs.elim
        views := fun v hv => ?_ }
      · obtain rfl := Option.some.inj hc
        exact ⟨hreads.config, hreads.closed, fun hs => hs.elim⟩
      · have hv' : v ∈ s.views := hv
        rw [h.views] at hv'
        cases hv'
    · rw [h.opened, hopen]
      rfl
    · intro c hc
      obtain rfl := Option.some.inj hc
      exact Nat.le_refl _
    · intro c hc
      obtain rfl := Option.some.inj hc
      exact hreads.sync.imp id fun he _ => he
  · rename_i hdrop
    obtain ⟨q, h, hclean⟩ := h
    have hrun := h.opened (h.noneGone halive)
    have hstate : s.reopened host config = { s with
        consumer := some (recovered host config s.region (s.region.head - s.region.tail)) } := by
      rw [reopened, hrun]
      rfl
    rw [hstate]
    exact .same hdrop h hclean hopen (h.recovered_reads host hsettled)
      (h.recovered_bias host hsettled)

end SpscState

/-- **Reopening a consumer is transparent** where it is opened on a settled
region: in every continuation the new handle receives what the old one
would have, and counts what lies between the cursors. -/
theorem reopened_alike {creator opener : Host} {w : World} {before after : List SpscOp}
    (hw : create creator config = .ok w) (hmode : config.multiProducer = false)
    (hbefore : Run.Meets SpscState.step (fun s op => s.InStep config op) (start w) before)
    (hs : Run.exec SpscState.step (start w) before = s) (hopen : s.consumer.isSome)
    (halive : s.Alive opener) (hsettled : s.Settled) (hafter : ∀ op ∈ after, op.Continues)
    (h₁ : Run.Meets SpscState.step (fun s op => s.InStep config op) s (after ++ [.recv host]))
    (h₂ : Run.Meets SpscState.step (fun s op => s.InStep config op) (s.reopened opener config)
      (after ++ [.recv host])) :
    Alike host (Run.exec SpscState.step s after)
      (Run.exec SpscState.step (s.reopened opener config) after) := by
  have hinv : Before config s := by
    rw [← hs]
    exact hbefore.invariant (Before config) (fun _ _ h hop => h.step hop) (before_start hw hmode)
  rw [Run.meets_append] at h₁ h₂
  exact ((hinv.twin hopen halive hsettled).run hafter h₁.1 h₂.1).alike h₁.2.1 h₂.2.1

/-- C opens, two messages are sent, C holds a view of the first. -/
def reopenBefore : List SpscOp :=
  [.openConsumer sampleHost, .send sampleHost (sampleMessage 5),
    .send sampleHost (sampleMessage 6), .recvView sampleHost]

/-- The view is released, and a message sent and received. -/
def reopenAfter : List SpscOp :=
  [.recv sampleHost, .release 0, .send sampleHost ⟨[7], by decide⟩]

omit [Checksum] in
/-- A handle opened beside a live view, with a message at the tail. -/
theorem reopened_alike_view :
    ∃ s : SpscState, s.Settled ∧ s.views.length = 1 ∧
      @Alike crc32Checksum sampleHost (Run.exec (@SpscState.step crc32Checksum) s reopenAfter)
        (Run.exec (@SpscState.step crc32Checksum)
          (s.reopened sampleHost (sampleConfig 2 1)) reopenAfter) :=
  ⟨_, by decide +kernel, by decide +kernel,
    @reopened_alike crc32Checksum (sampleConfig 2 1) _ sampleHost sampleHost sampleHost _
      reopenBefore reopenAfter (rfl : create sampleHost (sampleConfig 2 1) = .ok _) rfl
      (by decide +kernel) rfl (by decide +kernel) (by decide +kernel) (by decide +kernel)
      (by decide) (by decide +kernel) (by decide +kernel)⟩

/-- The state in which C holds a view of all that was sent. -/
def reopenDrained : SpscState :=
  Run.exec (@SpscState.step crc32Checksum) (start (sampleWorld (sampleConfig 2 1)))
    [.openConsumer sampleHost, .send sampleHost (sampleMessage 5), .recvView sampleHost]

/-- The runs behind it: the old handle's, and the new one's. -/
def reopenOld : SpscState :=
  Run.exec (@SpscState.step crc32Checksum) reopenDrained [.send sampleHost (sampleMessage 6)]

def reopenNew : SpscState :=
  Run.exec (@SpscState.step crc32Checksum)
    (reopenDrained.reopened sampleHost (sampleConfig 2 1)) [.send sampleHost (sampleMessage 6)]

omit [Checksum] in
/-- **Failing input**: the new handle expects the sequence of the FREE slot
at the tail, and refuses the next message. -/
theorem reopened_mismatch : ¬ @Alike crc32Checksum sampleHost reopenOld reopenNew := by
  intro h
  obtain ⟨c₁, hc₁⟩ := Option.isSome_iff_exists.1
    (show reopenOld.consumer.isSome = true by decide +kernel)
  obtain ⟨c₂, hc₂⟩ := Option.isSome_iff_exists.1
    (show reopenNew.consumer.isSome = true by decide +kernel)
  have hfails : reopenNew.consumer.all (fun c => decide
      (Effect.outcome (@recvWithSeq crc32Checksum sampleHost ⟨c, reopenNew.region⟩) =
        .error (.ofChannel (.sequenceMismatch 0 1)))) = true := by
    decide +kernel
  rw [hc₂, Option.all_some, decide_eq_true_eq] at hfails
  exact (h c₁ c₂ hc₁ hc₂).2.1 0 1 hfails

end Dsline
