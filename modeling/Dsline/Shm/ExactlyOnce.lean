import Dsline.Core.Crc
import Dsline.Shm.Messages
/-!
# Exactly once, in order

A producer that sends and a consumer that receives, each on its own handle:
what was received is a prefix of what was accepted, the accepted messages
are numbered in order, and every call is answered by what is queued
(`exactly_once`). A frame whose length does not fit the slot header's 32 bits
is accepted and lost (`exactly_once_truncated`).
-/

namespace Dsline

open PersistentShmChannel SpscState World

variable [Checksum] {config : SpscConfig} {host : Host} {s : SpscState} {op : SpscOp}
  {pending : List ReceivedMessage} {plan : SendPlan}

/-! ## The claim -/

/-- What holds of a state: what was received is a prefix of what was
accepted, the accepted messages are numbered in order, the slots between the
cursors are COMMITTED and the others FREE, and P writes at the head. -/
structure ExactlyOnce (s : SpscState) : Prop where
  received : s.got <+: s.accepted
  numbered : ∀ i message, s.accepted[i]? = some message → message.seq = UInt64.ofNat i
  committed : ∀ cursor, s.region.tail ≤ cursor → cursor < s.region.head →
    s.region.state (cursor % s.region.capacity) = .committed
  free : ∀ cursor, s.region.head ≤ cursor → cursor < s.region.tail + s.region.capacity →
    s.region.state (cursor % s.region.capacity) = .free
  head : s.producer.head = s.region.head % s.region.capacity

/-- What a call answers: a message is accepted exactly where its slots are at
most those that are not queued, and a receive returns the first accepted
message that is outstanding. -/
def Replies (config : SpscConfig) (s : SpscState) : SpscOp → Prop
  | .send host message =>
      let result := PersistentShmChannel.send host message.1 s.atProducer
      match sendPlan config message.1.length with
      | .error err => Effect.outcome result = .error err ∧ (Effect.final result).region = s.region
      | .ok plan =>
          if plan.neededSlots ≤ config.capacity - (s.region.head - s.region.tail) then
            Effect.outcome result = .ok () ∧ (s.stepSend host message).accepted =
              s.accepted ++ [⟨UInt64.ofNat s.accepted.length, message.1⟩]
          else
            Effect.outcome result =
                (if config.backpressure = .dropNewest then .ok ()
                else .error (.ofChannel .bufferFull)) ∧
              (Effect.final result).region = s.region ∧
              (Effect.final result).chan.nextSeq = s.producer.nextSeq ∧
              (s.stepSend host message).accepted = s.accepted
  | .recv host => ∀ chan, s.consumer = some chan →
      Effect.outcome (recvWithSeq host ⟨chan, s.region⟩) =
        match s.accepted[s.got.length]? with
        | none => .error (.ofChannel .bufferEmpty)
        | some message => .ok message
  | .tryRecv host => ∀ chan, s.consumer = some chan →
      Effect.outcome (PersistentShmChannel.tryRecv host ⟨chan, s.region⟩) =
        .ok (s.accepted[s.got.length]?.map ReceivedMessage.payload)
  | _ => True

/-- The calls of a run: sends, opening the consumer and receives. A send's
frames keep their length, and its slots are counted. -/
def Copying (config : SpscConfig) (s : SpscState) : SpscOp → Prop
  | .send _ message =>
      FramesFit config message.1.length ∧
        s.region.head + slotsOf config ⟨0, message.1⟩ < wordCount
  | .openConsumer _ | .recv _ | .tryRecv _ => True
  | _ => False

instance decidableCopying : (op : SpscOp) → Decidable (Copying config s op)
  | .send _ message => inferInstanceAs (Decidable
      (min message.1.length config.slotSize + FRAME_HEADER_LEN < 2 ^ 32 ∧
        s.region.head + slotsOf config ⟨0, message.1⟩ < wordCount))
  | .openConsumer _ | .recv _ | .tryRecv _ => isTrue trivial
  | .alloc .. | .write .. | .publish _ | .abort _ | .dropLease _ | .recvView _
  | .release _ | .dropView _ | .reopenProducer _ => isFalse id

/-! ## The invariant -/

/-- What is accepted and not received stands in the ring, in order. -/
structure Queued (config : SpscConfig) (s : SpscState) (pending : List ReceivedMessage) :
    Prop where
  mode : config.backpressure ≠ .dropOldest
  holds : s.Holds config True
    ⟨s.got.length, pending.map (entryOf config), s.accepted, s.got⟩
  accepted : s.accepted = s.got ++ pending
  numbered : ∀ i message, s.accepted[i]? = some message → message.seq = UInt64.ofNat i
  leases : s.leases = []
  views : s.views = []

namespace Queued

theorem noneGone (h : Queued config s pending) : NoneGone host s.region := by
  refine h.holds.ring.noneGone (fun header he => ?_) fun p hp => ?_
  · obtain ⟨m, -, hm⟩ := List.mem_map.1 he
    cases hm
  · rw [h.views] at hp
    cases hp

/-- The ring holds what is queued and nothing else. -/
theorem layout (h : Queued config s pending) :
    Layout s.region (contentsOf (pending.map (entryOf config))) [] := by
  have hl := h.holds.ring.layout
  rw [h.views] at hl
  exact hl

/-- All that is queued is published. -/
theorem length (h : Queued config s pending) :
    s.region.head = s.region.tail + (contentsOf (pending.map (entryOf config))).length := by
  have hhead := h.holds.ring.head
  rw [length_contentsOf, leasesOf_entryOf]
  exact hhead

theorem writing (h : Queued config s pending) : s.writing = 0 :=
  h.holds.writing.trans leasesOf_entryOf

/-- The next message to be received. -/
theorem next (h : Queued config s pending) : s.accepted[s.got.length]? = pending.head? := by
  rw [h.accepted, List.getElem?_append_right (Nat.le_refl _), Nat.sub_self, List.head?_eq_getElem?]

theorem nextSeq (h : Queued config s pending) :
    s.producer.nextSeq = UInt64.ofNat s.accepted.length := by
  rw [h.holds.producer.nextSeq, h.accepted, List.length_append, List.length_map]

/-- **The claim's state, read off the invariant.** -/
theorem exactlyOnce (h : Queued config s pending) : ExactlyOnce s where
  received := ⟨pending, h.accepted.symm⟩
  numbered := h.numbered
  committed cursor h1 h2 := by
    have hlen := h.length
    obtain ⟨k, rfl⟩ : ∃ k, cursor = s.region.tail + k := ⟨cursor - s.region.tail, by omega⟩
    have hk : k < (contentsOf (pending.map (entryOf config))).length := by omega
    refine (h.layout.shows hk).state.trans ?_
    obtain ⟨entry, he, hc⟩ := List.mem_flatMap.1 (List.getElem_mem hk)
    obtain ⟨m, -, rfl⟩ := List.mem_map.1 he
    obtain ⟨data, -, hd⟩ := List.mem_map.1 hc
    exact hd ▸ rfl
  free cursor h1 h2 := by
    have hlen := h.length
    rcases h.layout.state_rest cursor (by omega) h2 with hfree | ⟨p, hp, -⟩
    · exact hfree
    · cases hp
  head := by
    have hlen := h.length
    rw [h.holds.producer.head, Layout.at', hlen]

/-- What the guard admits is what is not queued. -/
theorem admits_iff (h : Queued config s pending) {message : Message}
    (hplan : sendPlan config message.1.length = .ok plan) :
    s.guard.admits plan.neededSlots ↔
      plan.neededSlots ≤ config.capacity - (s.region.head - s.region.tail) := by
  have hs := h.holds.producer_sound
  have hfloor : s.region.pinFloor = PIN_FLOOR_NONE := by
    have hf := h.holds.ring.floor
    rw [h.views] at hf
    rcases hf with ⟨-, hf⟩ | ⟨hmem, -⟩
    · exact hf
    · cases hmem
  have hiff := PersistentShmChannel.admits_iff (w := s.atProducer)
    (d := s.region.head - s.region.tail) hs h.holds.producer.bias hfloor (neededSlots_pos hplan)
  refine hiff.trans ?_
  have hcap := h.holds.ring.fits.capacity
  have hord := hs.ordered
  have hwin := hs.window
  simp only [atProducer] at hord hwin ⊢
  have hpos := neededSlots_pos hplan
  omega

/-! ### Every call -/

variable (host) in
/-- **A message there is room for is accepted.** -/
theorem send {message : Message} (h : Queued config s pending)
    (hplan : sendPlan config message.1.length = .ok plan)
    (hframes : FramesFit config message.1.length)
    (hword : s.region.head + plan.neededSlots < wordCount)
    (hroom : plan.neededSlots ≤ config.capacity - (s.region.head - s.region.tail)) :
    Effect.outcome (PersistentShmChannel.send host message.1 s.atProducer) = .ok () ∧
      (s.stepSend host message).accepted =
        s.accepted ++ [⟨UInt64.ofNat s.accepted.length, message.1⟩] ∧
      Queued config (s.stepSend host message)
        (pending ++ [⟨UInt64.ofNat s.accepted.length, message.1⟩]) := by
  have hadm := (h.admits_iff hplan).2 hroom
  have hwriting := h.writing
  have hconf := h.holds.producer.config
  have hpos := neededSlots_pos hplan
  obtain ⟨w, datas, out, hrun, hhead, rfl, hout, hnext⟩ := h.holds.send_admitted host hplan
    ⟨by omega, fun hadm => by rw [hwriting]; exact hadm, .inr (hconf ▸ hframes)⟩ hadm
  obtain rfl := hout.2 hframes
  have hstep : s.stepSend host message = { s.withProducer w with
      accepted := s.accepted ++ [⟨UInt64.ofNat s.accepted.length, message.1⟩] } := by
    rw [stepSend_of_pushed hrun (by omega), h.nextSeq]
  rw [h.nextSeq] at hnext
  rw [hstep, hrun]
  refine ⟨rfl, rfl, ⟨h.mode, ?_, ?_, ?_, h.leases, h.views⟩⟩
  · rw [List.map_append, List.map_singleton,
      entryOf_eq ⟨UInt64.ofNat s.accepted.length, message.1⟩ plan hplan hframes]
    exact hnext
  · show s.accepted ++ _ = s.got ++ (pending ++ _)
    rw [h.accepted, List.append_assoc]
  · intro i m hm
    rcases Nat.lt_or_ge i s.accepted.length with hlt | hge
    · rw [List.getElem?_append_left hlt] at hm
      exact h.numbered i m hm
    · rw [List.getElem?_append_right hge] at hm
      obtain ⟨hi, rfl⟩ := List.getElem?_eq_some_iff.1 hm
      rw [List.length_singleton] at hi
      obtain rfl : i = s.accepted.length := by omega
      simp

variable (host) in
/-- **A message there is no room for** changes nothing. -/
theorem send_full {message : Message} (h : Queued config s pending)
    (hplan : sendPlan config message.1.length = .ok plan)
    (hroom : ¬ plan.neededSlots ≤ config.capacity - (s.region.head - s.region.tail)) :
    Effect.outcome (PersistentShmChannel.send host message.1 s.atProducer) =
        (if config.backpressure = .dropNewest then .ok () else .error (.ofChannel .bufferFull)) ∧
      Effect.final (PersistentShmChannel.send host message.1 s.atProducer) =
        s.atProducer.refreshed (s.region.head - s.region.tail) := by
  have hadm := mt (h.admits_iff hplan).1 hroom
  have hconf : s.atProducer.chan.config = config := h.holds.producer.config
  have hmode := h.mode
  rw [send_rejected h.holds.producer_sound (hconf ▸ h.holds.mode) (hconf ▸ hplan) hadm
    (hconf ▸ hmode), hconf]
  cases hb : config.backpressure with
  | dropOldest => exact absurd hb hmode
  | _ => exact ⟨rfl, rfl⟩

/-- A call that leaves the handle's mirrors refreshed. -/
theorem idle {w : World} (h : Queued config s pending) (hw : s.atProducer.Idle w) :
    Queued config (s.withProducer w) pending :=
  ⟨h.mode, h.holds.producerIdle hw, h.accepted, h.numbered, h.leases, h.views⟩

/-- A receive that took the first message. -/
theorem received {m : ReceivedMessage} {rest : List ReceivedMessage} {w : World}
    (h : Queued config s (m :: rest))
    (hholds : ({ s.withConsumer w with got := s.got ++ [m] } : SpscState).Holds config True
      ⟨s.got.length + 1, rest.map (entryOf config), s.accepted, s.got ++ [m]⟩) :
    Queued config ({ s.withConsumer w with got := s.got ++ [m] } : SpscState) rest := by
  refine ⟨h.mode, ?_, ?_, h.numbered, h.leases, h.views⟩
  · rw [← List.length_singleton (a := m), ← List.length_append] at hholds
    exact hholds
  · show s.accepted = s.got ++ [m] ++ rest
    rw [h.accepted, List.append_assoc]
    rfl

theorem refreshed {chan : PersistentShmChannel} {d : ℕ} (h : Queued config s pending)
    (hc : s.consumer = some chan) :
    Queued config (s.withConsumer (World.refreshed ⟨chan, s.region⟩ d)) pending :=
  ⟨h.mode, h.holds.consumerRefreshed hc, h.accepted, h.numbered, h.leases, h.views⟩

variable (host) in
/-- **A receive returns the first message**, or finds nothing queued. -/
theorem recv {chan : PersistentShmChannel} (h : Queued config s pending)
    (hc : s.consumer = some chan) :
    (pending = [] ∧ recvWithSeq host ⟨chan, s.region⟩ = .error (.ofChannel .bufferEmpty)
      (World.refreshed ⟨chan, s.region⟩ (depth ⟨chan, s.region⟩))) ∨
    ∃ m rest w, pending = m :: rest ∧ recvWithSeq host ⟨chan, s.region⟩ = .ok m w ∧
      Queued config ({ s.withConsumer w with got := s.got ++ [m] } : SpscState) rest := by
  rcases h.holds.recv_cases host hc h.noneGone (.inr ((h.holds.consumer chan hc).expected trivial))
    with ⟨hfirst, hrun⟩ | ⟨seq, datas, payload, rest, w, hentries, hrun, -, -, hnext⟩ |
      ⟨seq, datas, err, rest, w, hentries, -⟩
  · exact .inl ⟨map_entryOf_nil hfirst, hrun⟩
  · obtain ⟨m, rest, rfl, he, rfl⟩ := List.map_eq_cons_iff.1 hentries
    cases he
    exact .inr ⟨m, rest, w, rfl, hrun, h.received (hnext _)⟩
  · obtain ⟨m, rest, -, he, rfl⟩ := List.map_eq_cons_iff.1 hentries
    cases he

variable (host) in
/-- **A poll** does the same. -/
theorem tryRecv {chan : PersistentShmChannel} (h : Queued config s pending)
    (hc : s.consumer = some chan) :
    (pending = [] ∧ PersistentShmChannel.tryRecv host ⟨chan, s.region⟩ =
      .ok none (World.refreshed ⟨chan, s.region⟩ (depth ⟨chan, s.region⟩))) ∨
    ∃ m rest w, pending = m :: rest ∧
      PersistentShmChannel.tryRecv host ⟨chan, s.region⟩ = .ok (some m.payload) w ∧
      w.chan.lastReceivedSeq = some m.seq ∧
      Queued config ({ s.withConsumer w with got := s.got ++ [m] } : SpscState) rest := by
  rcases h.holds.tryRecv_cases host hc h.noneGone
      (.inr ((h.holds.consumer chan hc).expected trivial))
    with ⟨hfirst, hrun⟩ | ⟨seq, datas, payload, rest, w, hentries, hrun, hlast, -, hnext⟩ |
      ⟨seq, datas, err, rest, w, hentries, -⟩
  · exact .inl ⟨map_entryOf_nil hfirst, hrun⟩
  · obtain ⟨m, rest, rfl, he, rfl⟩ := List.map_eq_cons_iff.1 hentries
    cases he
    exact .inr ⟨m, rest, w, rfl, hrun, hlast, h.received (hnext _)⟩
  · obtain ⟨m, rest, -, he, rfl⟩ := List.map_eq_cons_iff.1 hentries
    cases he

/-- A consumer is opened, whatever is queued. -/
theorem openConsumer (h : Queued config s pending) :
    Queued config (s.stepOpenConsumer host) pending := by
  have hnext : (s.stepOpenConsumer host).Holds config True _ :=
    h.holds.stepOpenConsumer h.noneGone
  rw [stepOpenConsumer] at hnext ⊢
  cases hc : s.consumer with
  | some chan => exact h
  | none =>
      have halive : NoneGone host s.region := h.noneGone
      have hopened := h.holds.opened halive
      simp only [hc, h.holds.producer.config, hopened] at hnext ⊢
      exact ⟨h.mode, hnext, h.accepted, h.numbered, h.leases, h.views⟩

/-- **Every such call keeps the invariant**, and is answered by what is
queued. -/
theorem step (h : Queued config s pending) (hop : Copying config s op) :
    (∃ pending', Queued config (s.step op) pending') ∧ Replies config s op := by
  have hconf := h.holds.producer.config
  cases op with
  | send host message =>
      show (∃ pending', Queued config (s.stepSend host message) pending') ∧ _
      cases hplan : sendPlan config message.1.length with
      | ok plan =>
          have hword := hop.2
          rw [slotsOf_eq ⟨0, message.1⟩ hplan] at hword
          simp only [Replies, hplan]
          by_cases hroom : plan.neededSlots ≤ config.capacity - (s.region.head - s.region.tail)
          · obtain ⟨hout, haccepted, hnext⟩ := h.send host hplan hop.1 hword hroom
            rw [if_pos hroom]
            exact ⟨⟨_, hnext⟩, hout, haccepted⟩
          · obtain ⟨hout, hfinal⟩ := h.send_full host hplan hroom
            have hidle : s.atProducer.Idle (Effect.final
                (PersistentShmChannel.send host message.1 s.atProducer)) := .inr ⟨_, hfinal⟩
            rw [if_neg hroom, stepSend_of_idle hidle, hfinal]
            exact ⟨⟨pending, h.idle (.inr ⟨_, rfl⟩)⟩, hout, rfl, rfl, rfl⟩
      | error err =>
          have hrun := send_unplanned host h.holds.producer_sound (hconf ▸ h.holds.mode)
            (hconf ▸ hplan)
          simp only [Replies, hplan, hrun]
          refine ⟨⟨pending, ?_⟩, rfl, rfl⟩
          rw [stepSend_of_idle (by rw [hrun]; exact .inr ⟨_, rfl⟩), hrun]
          exact h.idle (.inr ⟨_, rfl⟩)
  | openConsumer host => exact ⟨⟨pending, h.openConsumer⟩, trivial⟩
  | recv host =>
      show (∃ pending', Queued config (s.stepRecv host) pending') ∧ _
      rw [stepRecv]
      cases hc : s.consumer with
      | none => exact ⟨⟨pending, h⟩, fun c hc' => by rw [hc] at hc'; cases hc'⟩
      | some chan =>
          simp only [Replies, h.next, hc, Option.some.injEq, forall_eq']
          rcases h.recv host hc with ⟨rfl, hrun⟩ | ⟨m, rest, w, rfl, hrun, hnext⟩
          · rw [hrun]
            exact ⟨⟨[], h.refreshed hc⟩, rfl⟩
          · rw [hrun]
            exact ⟨⟨rest, hnext⟩, rfl⟩
  | tryRecv host =>
      show (∃ pending', Queued config (s.stepTryRecv host) pending') ∧ _
      rw [stepTryRecv]
      cases hc : s.consumer with
      | none => exact ⟨⟨pending, h⟩, fun c hc' => by rw [hc] at hc'; cases hc'⟩
      | some chan =>
          simp only [Replies, h.next, hc, Option.some.injEq, forall_eq']
          rcases h.tryRecv host hc with ⟨rfl, hrun⟩ | ⟨m, rest, w, rfl, hrun, hlast, hnext⟩
          · rw [hrun]
            exact ⟨⟨[], h.refreshed hc⟩, rfl⟩
          · rw [hrun]
            simp only [hlast, Option.getD_some]
            exact ⟨⟨rest, hnext⟩, rfl⟩
  | alloc | write | publish | abort | dropLease | recvView | release | dropView
    | reopenProducer => exact hop.elim

end Queued

theorem queued_start {w : World} (hw : create host config = .ok w)
    (hmode : config.multiProducer = false) (hdrop : config.backpressure ≠ .dropOldest) :
    Queued config (start w) [] :=
  ⟨hdrop, holds_start hw hmode, rfl, nofun, rfl, rfl⟩

/-- **Exactly once, in order.** In every run of sends and receives whose
frames keep their length, what C received is a prefix of the accepted
messages numbered in order, the ring holds exactly what is outstanding, and
every call is answered by it. -/
theorem exactly_once {w : World} {ops : List SpscOp} (hw : create host config = .ok w)
    (hmode : config.multiProducer = false) (hdrop : config.backpressure ≠ .dropOldest)
    (hrun : Run.Meets SpscState.step (Copying config) (start w) ops) :
    ExactlyOnce (Run.exec SpscState.step (start w) ops) ∧
      ∀ op, Copying config (Run.exec SpscState.step (start w) ops) op →
        Replies config (Run.exec SpscState.step (start w) ops) op := by
  have hinv : ∃ pending, Queued config (Run.exec SpscState.step (start w) ops) pending :=
    hrun.invariant (fun s => ∃ pending, Queued config s pending)
      (fun s op ⟨pending, h⟩ hop => (h.step hop).1) ⟨[], queued_start hw hmode hdrop⟩
  obtain ⟨pending, h⟩ := hinv
  exact ⟨h.exactlyOnce, fun op hop => (h.step hop).2⟩

/-- A message of two chunks in slots of 85 bytes. -/
def wideMessage (b : UInt8) : Message :=
  ⟨List.replicate 86 b, by rw [List.length_replicate]; decide⟩

/-- On a ring of three slots: a message of two chunks is sent and received,
then one that wraps and a short one behind it. -/
def copyOps : List SpscOp :=
  [.openConsumer sampleHost, .send sampleHost (wideMessage 7), .recv sampleHost,
    .send sampleHost (wideMessage 8), .send sampleHost (sampleMessage 5),
    .recv sampleHost, .tryRecv sampleHost]

omit [Checksum] in
theorem exactly_once_wrapped :
    (Run.exec (@SpscState.step crc32Checksum) (start (sampleWorld (sampleConfig 3 85)))
        copyOps).got = [⟨0, List.replicate 86 7⟩, ⟨1, List.replicate 86 8⟩, ⟨2, [5]⟩] ∧
      ExactlyOnce (Run.exec (@SpscState.step crc32Checksum)
        (start (sampleWorld (sampleConfig 3 85))) copyOps) :=
  ⟨by decide +kernel,
    (@exactly_once crc32Checksum _ _ _ _ (rfl : create sampleHost (sampleConfig 3 85) = .ok _) rfl
      (by decide) (by decide +kernel)).1⟩

/-! ## Frames that are too long -/

/-- **A frame too long for its slot header is accepted and lost.** -/
theorem Queued.lost {chan : PersistentShmChannel} {message : Message}
    (h : Queued config s []) (hc : s.consumer = some chan)
    (hplan : sendPlan config message.1.length = .ok plan)
    (hsingle : message.1.length ≤ config.slotSize) (hfit : ¬ FramesFit config message.1.length)
    (hword : s.region.head + plan.neededSlots < wordCount)
    (hroom : plan.neededSlots ≤ config.capacity - (s.region.head - s.region.tail)) :
    ¬ Replies config (s.stepSend host message) (.recv host) := by
  intro hreplies
  have hadm := (h.admits_iff hplan).2 hroom
  have hwriting := h.writing
  have hconf := h.holds.producer.config
  have hpos := neededSlots_pos hplan
  obtain ⟨w, datas, out, hrun, hhead, -, hout, hnext⟩ := h.holds.send_admitted host hplan
    ⟨by omega, fun hadm => by rw [hwriting]; exact hadm, .inl (hconf ▸ hsingle)⟩ hadm
  have hstep := stepSend_of_pushed hrun (by omega)
  rw [← hstep] at hnext
  have hchan : (s.stepSend host message).consumer = some chan := by rw [hstep]; exact hc
  have haccepted : (s.stepSend host message).accepted[(s.stepSend host message).got.length]? =
      some ⟨s.producer.nextSeq, message.1⟩ := by
    have hnil := h.accepted
    rw [List.append_nil] at hnil
    rw [hstep]
    show (s.accepted ++ [_])[s.got.length]? = _
    rw [hnil, List.getElem?_append_right (Nat.le_refl _), Nat.sub_self]
    rfl
  have hanswer := hreplies chan hchan
  rw [haccepted] at hanswer
  have halive : NoneGone host (s.stepSend host message).region := by
    refine hnext.ring.noneGone (fun header he => ?_) fun p hp => ?_
    · cases List.mem_singleton.1 he
    · rw [hstep] at hp
      rw [show ({ s.withProducer w with accepted := _ } : SpscState).views = [] from h.views] at hp
      cases hp
  rcases hnext.recv_cases host hchan halive (.inr ((hnext.consumer chan hchan).expected trivial))
    with ⟨hfirst, -⟩ | ⟨seq, datas, payload, rest, w, hentries, hrun, -⟩ |
      ⟨seq, datas, err, rest, w, hentries, hrun, -⟩
  · exact hfirst _ _ _ _ rfl
  · rw [hrun] at hanswer
    cases hanswer
    obtain ⟨he, -⟩ := List.cons.inj hentries
    cases he
    exact hfit (hout.1 rfl)
  · rw [hrun] at hanswer
    cases hanswer

/-- A message of 4 GiB. -/
def longMessage : Message :=
  ⟨List.replicate (2 ^ 32) 0, by rw [List.length_replicate]; decide⟩

omit [Checksum] in
/-- A slot that holds 4 GiB takes the message, and the receive fails. -/
theorem exactly_once_truncated :
    ¬ @Replies crc32Checksum (sampleConfig 1 (2 ^ 32))
      (Run.exec (@SpscState.step crc32Checksum) (start (sampleWorld (sampleConfig 1 (2 ^ 32))))
        [.openConsumer sampleHost, .send sampleHost longMessage]) (.recv sampleHost) := by
  have hlen : longMessage.1.length = 2 ^ 32 := List.length_replicate
  have hq : @Queued crc32Checksum (sampleConfig 1 (2 ^ 32))
      (@stepOpenConsumer (start (sampleWorld (sampleConfig 1 (2 ^ 32)))) sampleHost) [] :=
    @Queued.openConsumer crc32Checksum _ _ _ _ (@queued_start crc32Checksum _ sampleHost _
      (rfl : create sampleHost (sampleConfig 1 (2 ^ 32)) = .ok _) rfl (by decide))
  obtain ⟨chan, hchan⟩ := Option.isSome_iff_exists.1 (show
    (@stepOpenConsumer (start (sampleWorld (sampleConfig 1 (2 ^ 32))))
      sampleHost).consumer.isSome = true by decide +kernel)
  rw [Run.exec_cons, Run.exec_cons, Run.exec_nil]
  refine @Queued.lost crc32Checksum _ _ _ ⟨2 ^ 32, 1⟩ chan longMessage hq hchan ?_ ?_ ?_ ?_ ?_
  · rw [hlen]
    decide
  · rw [hlen]
    decide
  · rw [hlen]
    show ¬ min (2 ^ 32) (2 ^ 32) + FRAME_HEADER_LEN < 2 ^ 32
    decide
  · decide +kernel
  · decide +kernel

end Dsline
