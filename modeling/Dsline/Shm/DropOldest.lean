import Dsline.Core.Crc
import Dsline.Shm.DropSpec
import Dsline.Shm.Messages
/-!
# Dropping the oldest

A `DropOldest` region, as its users see it: a queue that always takes a
message and forgets its oldest ones where it must (`DropQueue`). A producer
and a consumer that each work on their own handle keep to it as long as
every receive is current (`drop_oldest`): the producer that drops a message
counts it in its own handle only, so the consumer's next receive misses the
sequence and leaves the slot PINNED (`drop_oldest_mismatch`).
-/

namespace Dsline

open PersistentShmChannel SpscState Eviction World

/-! ## The queue -/

/-- **What the users see**: the messages retained, those received, and how
many were numbered. -/
structure DropQueue where
  next : ℕ
  retained : List ReceivedMessage
  got : List ReceivedMessage
  opened : Bool

namespace DropQueue

/-- A message of admissible size is taken; the oldest make room for it. -/
def send (config : SpscConfig) (a : DropQueue) (bytes : Bytes) : DropQueue :=
  match sendPlan config bytes.length with
  | .ok plan =>
      { a with
        next := a.next + 1
        retained := trim (slotsOf config) (config.capacity - plan.neededSlots) a.retained ++
          [⟨UInt64.ofNat a.next, bytes⟩] }
  | .error _ => a

/-- The oldest retained message is received. -/
def recv (a : DropQueue) : DropQueue :=
  match a.opened, a.retained with
  | true, message :: rest => { a with retained := rest, got := a.got ++ [message] }
  | _, _ => a

theorem recv_of_nil {a : DropQueue} (h : a.retained = []) : a.recv = a := by
  rw [recv, h]
  cases a.opened <;> rfl

theorem recv_of_closed {a : DropQueue} (h : a.opened = false) : a.recv = a := by
  rw [recv, h]

def step (config : SpscConfig) (a : DropQueue) : SpscOp → DropQueue
  | .send _ message => a.send config message.1
  | .openConsumer _ => { a with opened := true }
  | .recv _ | .tryRecv _ => a.recv
  | _ => a

end DropQueue

variable [Checksum] {config : SpscConfig} {host : Host} {s : SpscState} {a : DropQueue}
  {base : ℕ} {messages : List ReceivedMessage} {plan : SendPlan}

theorem weightOf_entryOf {message : ReceivedMessage} (h : Taken config message) :
    weightOf (entryOf config message) = slotsOf config message := by
  obtain ⟨⟨plan, hplan⟩, -⟩ := h
  rw [slotsOf_eq _ hplan, weightOf, entryOf, contents_message, List.length_map, framesOf_eq _ hplan,
    length_messageFrames _ hplan]

theorem sent_entryOf (h : ∀ m ∈ messages, Taken config m) :
    ∀ e ∈ messages.map (entryOf config), SpscState.Sent config e := by
  intro e he
  obtain ⟨m, hm, rfl⟩ := List.mem_map.1 he
  obtain ⟨⟨plan, hplan⟩, hlen⟩ := h m hm
  exact ⟨m.seq, m.payload, plan, by rw [entryOf, framesOf_eq _ hplan], hplan, hlen⟩

theorem load_entryOf (h : ∀ m ∈ messages, Taken config m) :
    load weightOf (messages.map (entryOf config)) = load (slotsOf config) messages := by
  rw [load_map]
  exact load_congr fun m hm => weightOf_entryOf (h m hm)

theorem trim_entryOf {room : ℕ} (h : ∀ m ∈ messages, Taken config m) :
    trim weightOf room (messages.map (entryOf config)) =
      (trim (slotsOf config) room messages).map (entryOf config) := by
  rw [trim_map]
  exact congrArg _ (trim_congr fun m hm => weightOf_entryOf (h m hm))

/-! ## The refinement -/

/-- C reads what it finds, or its mirror of the tail is current: P dropped
nothing since C's last call. -/
def SpscState.Current (s : SpscState) : Prop :=
  ∀ chan, s.consumer = some chan →
    chan.resyncExpected = true ∨ chan.tailCursor = s.region.tail

/-- What a call needs of the state it is made in: a send, that its frames
keep their length and its slots are counted; a receive, that C is current. -/
def SpscState.Timely (config : SpscConfig) (s : SpscState) : SpscOp → Prop
  | .send _ message =>
      FramesFit config message.1.length ∧
        s.region.head + slotsOf config ⟨0, message.1⟩ < wordCount
  | .recv _ | .tryRecv _ => s.Current
  | .reopenProducer _ => False
  | _ => True

instance : Decidable s.Current :=
  match hc : s.consumer with
  | none => isTrue (by simp [SpscState.Current, hc])
  | some chan =>
      decidable_of_iff (chan.resyncExpected = true ∨ chan.tailCursor = s.region.tail)
        (by simp [SpscState.Current, hc])

instance decidableTimely : (op : SpscOp) → Decidable (s.Timely config op)
  | .send _ message => inferInstanceAs (Decidable
      (min message.1.length config.slotSize + FRAME_HEADER_LEN < 2 ^ 32 ∧
        s.region.head + slotsOf config ⟨0, message.1⟩ < wordCount))
  | .recv _ | .tryRecv _ => inferInstanceAs (Decidable s.Current)
  | .reopenProducer _ => isFalse id
  | .alloc .. | .write .. | .publish _ | .abort _ | .dropLease _ | .openConsumer _ | .recvView _
  | .release _ | .dropView _ => isTrue trivial

/-- **A state and the queue its users see**; `base` messages were received
or dropped. -/
structure Refines (config : SpscConfig) (base : ℕ) (s : SpscState) (a : DropQueue) : Prop where
  mode : config.backpressure = .dropOldest
  holds : s.Holds config False ⟨base, a.retained.map (entryOf config), s.accepted, a.got⟩
  next : base + a.retained.length = a.next
  taken : ∀ m ∈ a.retained, Taken config m
  leases : s.leases = []
  views : s.views = []
  opened : a.opened = s.consumer.isSome
  behind : ∀ chan, s.consumer = some chan → chan.tailCursor ≤ s.region.tail
  expected : ∀ chan, s.consumer = some chan → chan.resyncExpected = true ∨
    (chan.tailCursor = s.region.tail → chan.expectedRecvSeq = UInt64.ofNat base)

namespace Refines

/-- The published head is behind the tail by what is retained. -/
theorem head (h : Refines config base s a) :
    s.region.head = s.region.tail + load (slotsOf config) a.retained := by
  have hlen := length_contentsOf (a.retained.map (entryOf config))
  rw [leasesOf_eq_zero (sent_entryOf h.taken), ← load_weightOf, load_entryOf h.taken] at hlen
  rw [hlen]
  exact h.holds.ring.head

theorem noneGone (h : Refines config base s a) : NoneGone host s.region := by
  refine h.holds.ring.noneGone (fun header he => ?_) fun p hp => ?_
  · obtain ⟨m, -, hm⟩ := List.mem_map.1 he
    cases hm
  · rw [h.views] at hp
    cases hp

/-- Every retained message takes a slot at least. -/
theorem length_le (h : Refines config base s a) : a.retained.length ≤ s.region.capacity := by
  have hlen := length_le_contentsOf (a.retained.map (entryOf config))
    fun e he => h.holds.ring.good e he
  rw [List.length_map] at hlen
  exact hlen.trans h.holds.ring.layout.fits

/-- A state that differs in its region's mirrors only. -/
theorem idle (h : Refines config base s a) {w : World} (hw : s.atProducer.Idle w) :
    Refines config base (s.withProducer w) a := by
  have hregion : w.region = s.region := by
    rcases hw with rfl | ⟨d, rfl⟩ <;> rfl
  refine ⟨h.mode, h.holds.producerIdle hw, h.next, h.taken, h.leases, h.views, h.opened, ?_, ?_⟩
  · intro chan hc
    show _ ≤ w.region.tail
    rw [hregion]
    exact h.behind chan hc
  · intro chan hc
    show _ ∨ (_ = w.region.tail → _)
    rw [hregion]
    exact h.expected chan hc

/-! ### Sending -/

variable (host) in
omit [Checksum] in
/-- Where the backpressure drops, the loop makes the room. -/
theorem prepareSendSlots_dropOldest {w w' : World} {needed : ℕ}
    (hfit : needed ≤ w.chan.config.capacity) (hmode : w.chan.config.backpressure = .dropOldest)
    (hrun : dropUntilAdmitted host needed (w.chan.config.capacity + 1) w = .ok () w') :
    prepareSendSlots host needed w = .ok true w' := by
  rw [prepareSendSlots, Effect.bind_ok (checkSlots_ok hfit), Effect.get_bind]
  by_cases hadm : w.chan.admits needed
  · rw [dropUntilAdmitted, Effect.get_bind, if_pos hadm] at hrun
    cases hrun
    rw [if_pos hadm]
    rfl
  · rw [if_neg hadm, hmode]
    exact (Effect.bind_ok hrun).trans rfl

/-- Every message dropped moves the tail. -/
theorem tail_dropped {w : World} {k : ℕ} (h : Refines config base s a)
    (hhead : w.region.head = s.region.head)
    (hring : w.region.head = w.region.tail +
      publishedOf ((a.retained.map (entryOf config)).drop k))
    (hk : k ≤ a.retained.length) :
    s.region.tail + k ≤ w.region.tail ∧ (k = 0 → w.region.tail = s.region.tail) := by
  have hfirst : s.region.head = s.region.tail + publishedOf (a.retained.map (entryOf config)) :=
    h.holds.ring.head
  have hsplit := publishedOf_append ((a.retained.map (entryOf config)).take k)
    ((a.retained.map (entryOf config)).drop k)
  rw [List.take_append_drop] at hsplit
  have hsent := sent_entryOf h.taken
  have hpos := length_le_contentsOf ((a.retained.map (entryOf config)).take k)
    fun e he => h.holds.ring.good e (List.mem_of_mem_take he)
  rw [length_contentsOf _, leasesOf_eq_zero fun e he => hsent e (List.mem_of_mem_take he),
    List.length_take, List.length_map, Nat.min_eq_left hk] at hpos
  refine ⟨by omega, ?_⟩
  rintro rfl
  rw [List.drop_zero] at hring
  omega

/-- The producer behind a refresh counts what is retained. -/
theorem mirrored (h : Refines config base s a) :
    (s.withProducer (s.atProducer.refreshed (s.region.head - s.region.tail))).Mirrored := by
  have hs := h.holds.producer_sound
  refine ⟨mirrors_refreshed _ hs.capacity, ?_⟩
  have hwin := hs.window
  have hc : s.producer.config.capacity = s.region.capacity := hs.capacity
  show min (s.region.head - s.region.tail + s.producer.recoveryBias)
    s.producer.config.capacity = _
  rw [h.holds.producer.bias, hc]
  simp only [atProducer, withProducer, refreshed] at hwin ⊢
  omega

variable (host) in
/-- **The oldest make room**: those that must, and no more. -/
theorem makesRoom {needed : ℕ} (h : Refines config base s a) (hneed : 0 < needed)
    (hfit : needed ≤ config.capacity) :
    ∃ w k, prepareSendSlots host needed
          (s.atProducer.refreshed (s.region.head - s.region.tail)) = .ok true w ∧
      k ≤ a.retained.length ∧
      (a.retained.map (entryOf config)).drop k =
        trim weightOf (config.capacity - needed) (a.retained.map (entryOf config)) ∧
      (s.withProducer w).Holds config False
        ⟨base + k, (a.retained.map (entryOf config)).drop k, s.accepted, a.got⟩ ∧
      w.region.head = s.region.head ∧ w.region.capacity = s.region.capacity := by
  have hconf := h.holds.producer.config
  have hcapacity := h.holds.ring.fits.capacity
  have h₁ := h.idle (w := s.atProducer.refreshed (s.region.head - s.region.tail)) (.inr ⟨_, rfl⟩)
  have hlen := h.length_le
  obtain ⟨w, k, hrun, hk, hdrop, hholds, hhead, hcap⟩ := Holds.dropUntilAdmitted
    host hneed (a.retained.map (entryOf config)) (config.capacity + 1) rfl h₁.holds h.mirrored
    h.views (sent_entryOf h.taken) (show needed ≤ s.region.capacity by omega)
    (by rw [List.length_map]; omega)
  have hprep := prepareSendSlots_dropOldest host
    (w := s.atProducer.refreshed (s.region.head - s.region.tail))
    (show needed ≤ s.producer.config.capacity from hconf ▸ hfit)
    (show s.producer.config.backpressure = _ from hconf ▸ h.mode)
    (show _ = EStateM.Result.ok () w by
      show PersistentShmChannel.dropUntilAdmitted host _ (s.producer.config.capacity + 1) _ = _
      rw [hconf]
      exact hrun)
  rw [List.length_map] at hk
  rw [← hcapacity]
  exact ⟨w, k, hprep, hk, hdrop, hholds, hhead, hcap⟩

variable (host) in
/-- **A message of admissible size is taken**, and the oldest make room. -/
theorem send {message : Message} (h : Refines config base s a)
    (hplan : sendPlan config message.1.length = .ok plan)
    (hframes : FramesFit config message.1.length)
    (hword : s.region.head + plan.neededSlots < wordCount) :
    ∃ w base', PersistentShmChannel.send host message.1 s.atProducer = .ok () w ∧
      w.region.head ≠ s.region.head ∧
      Refines config base' ({ s.withProducer w with
          accepted := s.accepted ++ [⟨s.producer.nextSeq, message.1⟩] } : SpscState)
        (a.send config message.1) := by
  have hs := h.holds.producer_sound
  have hconf := h.holds.producer.config
  have hneed := neededSlots_pos hplan
  have hfit : plan.neededSlots ≤ config.capacity :=
    neededSlots_le (h.holds.ring.fits.capacity ▸ hs.pos) hplan
  have hcapacity := h.holds.ring.fits.capacity
  have hsent := sent_entryOf h.taken
  obtain ⟨w, k, hprep, hk, hdrop, hholds, hhead, hcap⟩ := h.makesRoom host hneed hfit
  have hwriting := hholds.writing
  rw [leasesOf_eq_zero fun e he => hsent e (List.mem_of_mem_drop he)] at hwriting
  have hload : load weightOf ((a.retained.map (entryOf config)).drop k) ≤
      config.capacity - plan.neededSlots := by
    rw [hdrop]
    exact load_trim_le _ _ _
  rw [load_weightOf] at hload
  obtain ⟨w', datas, out, hrun', hhead', rfl, hout, hnext⟩ := hholds.push host
    hplan
    (by
      show w.region.head + _ + _ < _
      rw [hhead, hwriting]
      exact hword)
    (.inr hframes)
    (by
      show _ + _ ≤ w.region.capacity
      rw [hcap]
      dsimp only
      omega)
    (fun p hp => by
      have hnil : p ∈ s.views.map LiveView.pin := hp
      rw [h.views] at hnil
      cases hnil)
    hprep
  obtain rfl := hout.2 hframes
  have hseq : w.chan.nextSeq = UInt64.ofNat a.next := by
    refine hholds.producer.nextSeq.trans (congrArg _ ?_)
    simp only [List.length_drop, List.length_map]
    have := h.next
    omega
  have hseq₀ : s.producer.nextSeq = w.chan.nextSeq := by
    rw [hseq, h.holds.producer.nextSeq, ← h.next, List.length_map]
  have hkept : (trim (slotsOf config) (config.capacity - plan.neededSlots) a.retained).map
      (entryOf config) = (a.retained.map (entryOf config)).drop k := by
    rw [hdrop, trim_entryOf h.taken]
  have hsend : a.send config message.1 =
      { a with
        next := a.next + 1
        retained := trim (slotsOf config) (config.capacity - plan.neededSlots) a.retained ++
          [⟨UInt64.ofNat a.next, message.1⟩] } := by
    rw [DropQueue.send, hplan]
  have hnew : entryOf config ⟨UInt64.ofNat a.next, message.1⟩ = .message w.chan.nextSeq
      ((messageFrames plan w.chan.nextSeq message.1).map stored) (.ok message.1) := by
    rw [entryOf, framesOf_eq ⟨UInt64.ofNat a.next, message.1⟩ hplan,
      stored_messageFrames hplan hframes, hseq]
  have htail := h.tail_dropped hhead hholds.ring.head hk
  have hhead₂ : w'.region.head = w.region.head + plan.neededSlots := hhead'
  have htail₂ : w'.region.tail = w.region.tail := by
    have h₂ : w.region.head = w.region.tail + publishedOf _ := hholds.ring.head
    have h₃ : w'.region.head = w'.region.tail + publishedOf (_ ++ [_]) := hnext.ring.head
    rw [publishedOf_append _ _, publishedOf_cons, published_message, List.length_map,
      length_messageFrames _ hplan] at h₃
    simp only [publishedOf, List.map_nil, List.sum_nil] at h₂ h₃
    omega
  refine ⟨w', base + k, ?_, ?_, ?_⟩
  · rw [send_start hs (hconf ▸ h.holds.mode), show s.atProducer.chan.config = config from hconf,
      hplan]
    exact hrun'
  · rw [hhead₂, show w.region.head = s.region.head from hhead]
    omega
  rw [hsend]
  refine ⟨h.mode, ?_, ?_, ?_, h.leases, h.views, h.opened, ?_, ?_⟩
  · rw [List.map_append, hkept, List.map_singleton, hnew, hseq₀]
    exact hnext
  · have hlen := congrArg List.length hkept
    rw [List.length_map, List.length_drop, List.length_map] at hlen
    have := h.next
    show base + k + _ = a.next + 1
    rw [List.length_append, hlen, List.length_singleton]
    omega
  · intro m hm
    rcases List.mem_append.1 hm with hm | hm
    · exact h.taken m (trim_suffix.subset hm)
    · obtain rfl := List.mem_singleton.1 hm
      exact ⟨⟨plan, hplan⟩, message.2⟩
  · intro chan hc
    show _ ≤ w'.region.tail
    have := h.behind chan hc
    omega
  · intro chan hc
    refine (h.expected chan hc).imp id fun hexp hcur => ?_
    have hcur' : chan.tailCursor = w'.region.tail := hcur
    have := h.behind chan hc
    obtain rfl : k = 0 := by omega
    exact hexp (by omega)

/-! ### Receiving -/

/-- A receive that took the oldest message. -/
theorem received {chan : PersistentShmChannel} {m : ReceivedMessage} {rest : List ReceivedMessage}
    {w : World} (h : Refines config base s a) (hc : s.consumer = some chan)
    (hretained : a.retained = m :: rest) (hmirror : w.chan.tailCursor = w.region.tail)
    (hholds : ({ s.withConsumer w with got := s.got ++ [m] } : SpscState).Holds config True
      ⟨base + 1, rest.map (entryOf config), s.accepted, s.got ++ [m]⟩) :
    Refines config (base + 1) ({ s.withConsumer w with got := s.got ++ [m] } : SpscState)
      a.recv := by
  have hopened : a.opened = true := by rw [h.opened, hc]; rfl
  have hrecv : a.recv = { a with retained := rest, got := a.got ++ [m] } := by
    rw [DropQueue.recv, hopened, hretained]
  have hgot : s.got = a.got := h.holds.got
  rw [hrecv]
  refine ⟨h.mode, ?_, ?_, ?_, h.leases, h.views, hopened, ?_, ?_⟩
  · show SpscState.Holds config False _ ⟨_, _, _, a.got ++ [m]⟩
    rw [← hgot]
    exact hholds.mono fun _ => trivial
  · have := h.next
    rw [hretained, List.length_cons] at this
    show base + 1 + rest.length = a.next
    omega
  · exact fun m' hm => h.taken m' (hretained ▸ List.mem_cons_of_mem _ hm)
  · intro c hc'
    obtain rfl : w.chan = c := Option.some.inj hc'
    exact hmirror.le
  · intro c hc'
    exact .inr fun _ => (hholds.consumer c hc').expected trivial

/-- A receive that found nothing. -/
theorem refreshed {chan : PersistentShmChannel} {d : ℕ} (h : Refines config base s a)
    (hc : s.consumer = some chan) (hcur : s.Current) :
    Refines config base (s.withConsumer (World.refreshed ⟨chan, s.region⟩ d)) a := by
  refine ⟨h.mode, ?_, h.next, h.taken, h.leases, h.views, ?_, ?_, ?_⟩
  · exact h.holds.consumerRefreshed hc
  · rw [h.opened, hc]
    rfl
  · intro c hc'
    obtain rfl := Option.some.inj hc'
    exact Nat.le_refl _
  · intro c hc'
    obtain rfl := Option.some.inj hc'
    rcases hcur chan hc with hr | ht
    · exact .inl hr
    · exact (h.expected chan hc).imp id fun hexp _ => hexp ht

/-- What a current consumer expects. -/
theorem sync {chan : PersistentShmChannel} (h : Refines config base s a)
    (hc : s.consumer = some chan) (hcur : s.Current) :
    chan.resyncExpected = true ∨ chan.expectedRecvSeq = UInt64.ofNat base := by
  rcases hcur chan hc with hr | ht
  · exact .inl hr
  · exact (h.expected chan hc).imp id fun hexp => hexp ht

variable (host) in
/-- **A current receive returns the oldest retained message**, or finds
nothing retained. -/
theorem recv {chan : PersistentShmChannel} (h : Refines config base s a)
    (hc : s.consumer = some chan) (hcur : s.Current) :
    (a.retained = [] ∧ recvWithSeq host ⟨chan, s.region⟩ = .error (.ofChannel .bufferEmpty)
      (World.refreshed ⟨chan, s.region⟩ (depth ⟨chan, s.region⟩))) ∨
    ∃ m rest w, a.retained = m :: rest ∧ recvWithSeq host ⟨chan, s.region⟩ = .ok m w ∧
      Refines config (base + 1) ({ s.withConsumer w with got := s.got ++ [m] } : SpscState)
        a.recv := by
  rcases h.holds.recv_cases host hc h.noneGone (h.sync hc hcur) with
    ⟨hfirst, hrun⟩ | ⟨seq, datas, payload, rest, w, hentries, hrun, -, hmirror, hnext⟩ |
      ⟨seq, datas, err, rest, w, hentries, -⟩
  · exact .inl ⟨map_entryOf_nil hfirst, hrun⟩
  · obtain ⟨m, rest, hretained, he, rfl⟩ := List.map_eq_cons_iff.1 hentries
    cases he
    exact .inr ⟨m, rest, w, hretained, hrun, h.received hc hretained hmirror (hnext _)⟩
  · obtain ⟨m, rest, hretained, he, rfl⟩ := List.map_eq_cons_iff.1 hentries
    cases he

variable (host) in
/-- **A current poll** does the same. -/
theorem tryRecv {chan : PersistentShmChannel} (h : Refines config base s a)
    (hc : s.consumer = some chan) (hcur : s.Current) :
    (a.retained = [] ∧ PersistentShmChannel.tryRecv host ⟨chan, s.region⟩ =
      .ok none (World.refreshed ⟨chan, s.region⟩ (depth ⟨chan, s.region⟩))) ∨
    ∃ m rest w, a.retained = m :: rest ∧
      PersistentShmChannel.tryRecv host ⟨chan, s.region⟩ = .ok (some m.payload) w ∧
      w.chan.lastReceivedSeq = some m.seq ∧
      Refines config (base + 1) ({ s.withConsumer w with got := s.got ++ [m] } : SpscState)
        a.recv := by
  rcases h.holds.tryRecv_cases host hc h.noneGone (h.sync hc hcur) with
    ⟨hfirst, hrun⟩ | ⟨seq, datas, payload, rest, w, hentries, hrun, hlast, hmirror, hnext⟩ |
      ⟨seq, datas, err, rest, w, hentries, -⟩
  · exact .inl ⟨map_entryOf_nil hfirst, hrun⟩
  · obtain ⟨m, rest, hretained, he, rfl⟩ := List.map_eq_cons_iff.1 hentries
    cases he
    exact .inr ⟨m, rest, w, hretained, hrun, hlast, h.received hc hretained hmirror (hnext _)⟩
  · obtain ⟨m, rest, hretained, he, rfl⟩ := List.map_eq_cons_iff.1 hentries
    cases he

/-! ### Every call -/

/-- A `DropOldest` handle has no leases. -/
theorem alloc_refused {size : ℕ} (h : Refines config base s a) :
    PersistentShmChannel.alloc host size s.atProducer =
      .error (.ofChannel (.invalidConfig
        "zero-copy is incompatible with DropOldest: the drop may free a pinned slot"))
        s.atProducer := by
  have hconf : s.atProducer.chan.config = config := h.holds.producer.config
  have hclosed : s.atProducer.chan.closed = false := h.holds.producer.closed
  rw [PersistentShmChannel.alloc, Effect.get_bind, hconf, hclosed, h.holds.mode, h.mode]
  rfl

/-- A `DropOldest` handle has no views. -/
theorem recvView_refused {chan : PersistentShmChannel} (h : Refines config base s a)
    (hc : s.consumer = some chan) :
    PersistentShmChannel.recvView host ⟨chan, s.region⟩ =
      .error (.ofChannel (.invalidConfig
        "zero-copy views are incompatible with DropOldest: the drop may free a pinned slot"))
        ⟨chan, s.region⟩ := by
  have hconf : chan.config = config := (h.holds.consumer chan hc).config
  rw [PersistentShmChannel.recvView, Effect.get_bind, hconf, h.mode]
  rfl

/-- A consumer is opened on what is retained. -/
theorem openConsumer (h : Refines config base s a) :
    Refines config base (s.stepOpenConsumer host) { a with opened := true } := by
  rw [stepOpenConsumer]
  cases hc : s.consumer with
  | some chan =>
      have hopened : a.opened = true := by rw [h.opened, hc]; rfl
      rw [← hopened]
      exact h
  | none =>
      simp only [h.holds.producer.config, h.holds.opened h.noneGone]
      refine ⟨h.mode, ?_, h.next, h.taken, h.leases, h.views, rfl, ?_, ?_⟩
      · exact { h.holds with
          consumer := fun c hc' => by
            obtain rfl := Option.some.inj hc'
            exact ⟨rfl, rfl, fun h => h.elim⟩
          unread := fun h => h.elim
          views := fun v hv => by
            have hv' : v ∈ s.views := hv
            rw [h.views] at hv'
            cases hv' }
      · intro c hc'
        obtain rfl := Option.some.inj hc'
        exact Nat.le_refl _
      · intro c hc'
        obtain rfl := Option.some.inj hc'
        rcases h.holds.recovered_expected host (d := s.region.head - s.region.tail)
          h.views with ⟨-, he⟩ | ⟨hr, -⟩
        · exact .inr fun _ => he
        · exact .inl hr

/-- **Every timely call refines the queue's.** -/
theorem step {op : SpscOp} (h : Refines config base s a) (ht : s.Timely config op) :
    ∃ base', Refines config base' (s.step op) (a.step config op) := by
  have hconf := h.holds.producer.config
  cases op with
  | send host message =>
      show ∃ base', Refines config base' (s.stepSend host message) (a.send config message.1)
      cases hplan : sendPlan config message.1.length with
      | ok plan =>
          have hword := ht.2
          rw [slotsOf_eq ⟨0, message.1⟩ hplan] at hword
          obtain ⟨w, base', hrun, hhead, hnext⟩ := h.send host hplan ht.1 hword
          refine ⟨base', ?_⟩
          rw [stepSend_of_pushed hrun hhead]
          exact hnext
      | error err =>
          have hidle : s.atProducer.Idle (Effect.final
              (PersistentShmChannel.send host message.1 s.atProducer)) := by
            rw [send_unplanned _ h.holds.producer_sound (hconf ▸ h.holds.mode) (hconf ▸ hplan)]
            exact .inr ⟨_, rfl⟩
          refine ⟨base, ?_⟩
          rw [stepSend_of_idle hidle, DropQueue.send, hplan]
          exact h.idle hidle
  | recv host =>
      show ∃ base', Refines config base' (s.stepRecv host) a.recv
      rw [stepRecv]
      cases hc : s.consumer with
      | none =>
          have hopened : a.opened = false := by rw [h.opened, hc]; rfl
          refine ⟨base, ?_⟩
          rw [DropQueue.recv_of_closed hopened]
          exact h
      | some chan =>
          rcases h.recv host hc ht with ⟨hnil, hrun⟩ | ⟨m, rest, w, -, hrun, hnext⟩
          · refine ⟨base, ?_⟩
            simp only [hrun]
            rw [DropQueue.recv_of_nil hnil]
            exact h.refreshed hc ht
          · simp only [hrun]
            exact ⟨base + 1, hnext⟩
  | tryRecv host =>
      show ∃ base', Refines config base' (s.stepTryRecv host) a.recv
      rw [stepTryRecv]
      cases hc : s.consumer with
      | none =>
          have hopened : a.opened = false := by rw [h.opened, hc]; rfl
          refine ⟨base, ?_⟩
          rw [DropQueue.recv_of_closed hopened]
          exact h
      | some chan =>
          rcases h.tryRecv host hc ht with
            ⟨hnil, hrun⟩ | ⟨m, rest, w, -, hrun, hlast, hnext⟩
          · refine ⟨base, ?_⟩
            simp only [hrun]
            rw [DropQueue.recv_of_nil hnil]
            exact h.refreshed hc ht
          · simp only [hrun, hlast, Option.getD_some]
            exact ⟨base + 1, hnext⟩
  | openConsumer host => exact ⟨base, h.openConsumer⟩
  | reopenProducer host => exact ht.elim
  | alloc host size =>
      show ∃ base', Refines config base' (s.stepAlloc host size) a
      rw [stepAlloc, h.alloc_refused]
      exact ⟨base, h⟩
  | recvView host =>
      show ∃ base', Refines config base' (s.stepRecvView host) a
      rw [stepRecvView]
      cases hc : s.consumer with
      | none => exact ⟨base, h⟩
      | some chan =>
          have hstate : s.withConsumer ⟨chan, s.region⟩ = s := by rw [withConsumer, ← hc]
          simp only [h.recvView_refused hc, hstate]
          exact ⟨base, h⟩
  | write k offset bytes =>
      refine ⟨base, ?_⟩
      rw [SpscState.step, stepWrite, h.leases]
      exact h
  | publish k =>
      refine ⟨base, ?_⟩
      rw [SpscState.step, stepPublish, h.leases]
      exact h
  | abort k =>
      refine ⟨base, ?_⟩
      rw [SpscState.step, stepAbort, h.leases]
      exact h
  | dropLease k =>
      refine ⟨base, ?_⟩
      have hstate : ({ s with leases := s.leases.eraseIdx k } : SpscState) = s := by
        rw [h.leases, List.eraseIdx_nil, ← h.leases]
      rw [SpscState.step, hstate]
      exact h
  | release k =>
      refine ⟨base, ?_⟩
      rw [SpscState.step, stepRelease, h.views]
      exact h
  | dropView k =>
      refine ⟨base, ?_⟩
      rw [SpscState.step, stepDropView, h.views]
      exact h

end Refines

/-! ## The claim over runs -/

/-- What holds of a state: the ring holds what is retained and nothing else,
and what was received is what the queue gave. -/
structure Retains (config : SpscConfig) (s : SpscState) (a : DropQueue) : Prop where
  ring : Layout s.region
    (a.retained.flatMap fun m => (framesOf config m).map fun data => .committed ⟨m.seq, data⟩) []
  head : s.region.head = s.region.tail + load (slotsOf config) a.retained
  got : s.got = a.got

/-- The messages left of a queue that made room for `needed` slots: the
longest suffix that leaves it. -/
structure Longest (config : SpscConfig) (needed : ℕ) (retained kept : List ReceivedMessage) :
    Prop where
  suffix : kept <:+ retained
  fits : load (slotsOf config) kept + needed ≤ config.capacity
  longest : ∀ other, other <:+ retained → load (slotsOf config) other + needed ≤ config.capacity →
    other <:+ kept

/-- What a call answers: a send of admissible size succeeds, and a receive
returns the oldest retained message, or finds an empty ring where nothing is
retained. -/
def Answers (config : SpscConfig) (s : SpscState) (a : DropQueue) : SpscOp → Prop
  | .send host message => ∀ plan, sendPlan config message.1.length = .ok plan →
      Effect.outcome (PersistentShmChannel.send host message.1 s.atProducer) = .ok () ∧
        ∃ kept, Longest config plan.neededSlots a.retained kept ∧
          (a.send config message.1).retained = kept ++ [⟨UInt64.ofNat a.next, message.1⟩]
  | .recv host => ∀ chan, s.consumer = some chan →
      Effect.outcome (recvWithSeq host ⟨chan, s.region⟩) =
        match a.retained with
        | [] => .error (.ofChannel .bufferEmpty)
        | message :: _ => .ok message
  | .tryRecv host => ∀ chan, s.consumer = some chan →
      Effect.outcome (PersistentShmChannel.tryRecv host ⟨chan, s.region⟩) =
        .ok (a.retained.head?.map ReceivedMessage.payload)
  | _ => True

omit [Checksum] in
theorem longest_trim {needed : ℕ} {retained : List ReceivedMessage}
    (hfit : needed ≤ config.capacity) :
    Longest config needed retained
      (trim (slotsOf config) (config.capacity - needed) retained) where
  suffix := trim_suffix
  fits := by
    have := load_trim_le (slotsOf config) (config.capacity - needed) retained
    omega
  longest other hs hload := suffix_trim hs (by omega)

theorem Refines.retains (h : Refines config base s a) : Retains config s a where
  ring := by
    have hl := h.holds.ring.layout
    have hviews := h.views
    rw [hviews, contentsOf, List.flatMap_map] at hl
    exact hl
  head := h.head
  got := h.holds.got

theorem Refines.answers {op : SpscOp} (h : Refines config base s a) (ht : s.Timely config op) :
    Answers config s a op := by
  cases op with
  | send host message =>
      intro plan hplan
      have hword := ht.2
      rw [slotsOf_eq ⟨0, message.1⟩ hplan] at hword
      obtain ⟨w, base', hrun, -, -⟩ := h.send host hplan ht.1 hword
      have hfit : plan.neededSlots ≤ config.capacity :=
        neededSlots_le (h.holds.ring.fits.capacity ▸ h.holds.ring.fits.pos) hplan
      refine ⟨by rw [hrun]; rfl, _, longest_trim hfit, ?_⟩
      rw [DropQueue.send, hplan]
  | recv host =>
      intro chan hc
      rcases h.recv host hc ht with ⟨hnil, hrun⟩ | ⟨m, rest, w, hretained, hrun, -⟩
      · rw [hrun, hnil]
        rfl
      · rw [hrun, hretained]
        rfl
  | tryRecv host =>
      intro chan hc
      rcases h.tryRecv host hc ht with
        ⟨hnil, hrun⟩ | ⟨m, rest, w, hretained, hrun, -, -⟩
      · rw [hrun, hnil]
        rfl
      · rw [hrun, hretained]
        rfl
  | _ => trivial

theorem refines_start {w : World} (hw : create host config = .ok w)
    (hmode : config.multiProducer = false) (hdrop : config.backpressure = .dropOldest) :
    Refines config 0 (start w) ⟨0, [], [], false⟩ :=
  ⟨hdrop, (holds_start hw hmode).mono fun _ => trivial, rfl, nofun, rfl, rfl, rfl, nofun, nofun⟩

/-- The run rule, for the state and its queue together. -/
theorem refines_run {ops : List SpscOp} (h : Refines config base s a)
    (hrun : Run.Meets SpscState.step (fun s op => s.Timely config op) s ops) :
    ∃ base', Refines config base' (Run.exec SpscState.step s ops)
      (Run.exec (DropQueue.step config) a ops) := by
  induction ops generalizing s a base with
  | nil => exact ⟨base, h⟩
  | cons op ops ih =>
      obtain ⟨base', h'⟩ := h.step hrun.1
      exact ih h' hrun.2

/-- **Dropping the oldest.** In every run whose receives are current and
whose frames keep their length, the ring holds the messages the queue
retains, and every such call is answered as the queue answers it. -/
theorem drop_oldest {w : World} {ops : List SpscOp} (hw : create host config = .ok w)
    (hmode : config.multiProducer = false) (hdrop : config.backpressure = .dropOldest)
    (hrun : Run.Meets SpscState.step (fun s op => s.Timely config op) (start w) ops) :
    Retains config (Run.exec SpscState.step (start w) ops)
        (Run.exec (DropQueue.step config) ⟨0, [], [], false⟩ ops) ∧
      ∀ op, (Run.exec SpscState.step (start w) ops).Timely config op →
        Answers config (Run.exec SpscState.step (start w) ops)
          (Run.exec (DropQueue.step config) ⟨0, [], [], false⟩ ops) op := by
  obtain ⟨base, h⟩ := refines_run (refines_start hw hmode hdrop) hrun
  exact ⟨h.retains, fun op ht => h.answers ht⟩

/-- A ring of one slot that drops its oldest message. -/
def dropConfig : SpscConfig := { sampleConfig 1 1 with backpressure := .dropOldest }

/-- P's second message drops the first before C, who joined between them,
receives. -/
def dropOps : List SpscOp :=
  [.send sampleHost (sampleMessage 5), .openConsumer sampleHost,
    .send sampleHost (sampleMessage 6)]

omit [Checksum] in
/-- Where C joins behind the drop, it receives the second message. -/
theorem drop_oldest_joined :
    @Answers crc32Checksum dropConfig
      (Run.exec (@SpscState.step crc32Checksum) (start (sampleWorld dropConfig))
        [.send sampleHost ⟨[5], by decide⟩, .send sampleHost ⟨[6], by decide⟩,
          .openConsumer sampleHost])
      (Run.exec (DropQueue.step dropConfig) ⟨0, [], [], false⟩
        [.send sampleHost ⟨[5], by decide⟩, .send sampleHost ⟨[6], by decide⟩,
          .openConsumer sampleHost]) (.recv sampleHost) :=
  (@drop_oldest crc32Checksum _ _ _ _ (rfl : create sampleHost dropConfig = .ok _) rfl rfl
    (by decide +kernel)).2 _ (by decide +kernel)

omit [Checksum] in
/-- The drop makes C's receive fail, and leaves the slot PINNED. -/
theorem drop_oldest_mismatch :
    ¬ @Answers crc32Checksum dropConfig
      (Run.exec (@SpscState.step crc32Checksum) (start (sampleWorld dropConfig)) dropOps)
      (Run.exec (DropQueue.step dropConfig) ⟨0, [], [], false⟩ dropOps) (.recv sampleHost) ∧
    (Run.exec (@SpscState.step crc32Checksum) (start (sampleWorld dropConfig))
      (dropOps ++ [.recv sampleHost])).region.state 0 = .pinned := by
  refine ⟨fun h => ?_, by decide +kernel⟩
  obtain ⟨chan, hchan⟩ := Option.isSome_iff_exists.1 (show
    (Run.exec (@SpscState.step crc32Checksum) (start (sampleWorld dropConfig))
      dropOps).consumer.isSome = true by decide +kernel)
  have hfails : (Run.exec (@SpscState.step crc32Checksum) (start (sampleWorld dropConfig))
      dropOps).consumer.all (fun c => !(Effect.outcome (@recvWithSeq crc32Checksum sampleHost
        ⟨c, (Run.exec (@SpscState.step crc32Checksum) (start (sampleWorld dropConfig))
          dropOps).region⟩)).isOk) = true := by decide +kernel
  have hretained : (Run.exec (DropQueue.step dropConfig) ⟨0, [], [], false⟩ dropOps).retained =
      [⟨1, [6]⟩] := by decide +kernel
  have hanswer := h chan hchan
  rw [hretained] at hanswer
  rw [hchan, Option.all_some, hanswer] at hfails
  cases hfails

end Dsline
