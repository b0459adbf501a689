import Dsline.Shm.DropOldest
/-!
# The committed prefix

The slots between the cursors are COMMITTED as long as the published
messages stand before the leases in the ring: a send waits until no lease is
out, and leases are published in the order they were taken
(`committed_prefix`). A send behind a lease moves the head over the lease's
WRITING slot (`committed_prefix_lease`).
-/

namespace Dsline

open PersistentShmChannel SpscState

variable [Checksum] {config : SpscConfig} {host : Host} {s : SpscState} {q q' : Queue}
  {op : SpscOp} {entries : List Entry} {synced : Prop}

/-- **The committed prefix**: what lies between the cursors is COMMITTED, so
a published depth is a readable tail. -/
structure CommittedPrefix (s : SpscState) : Prop where
  committed : ∀ cursor, s.region.tail ≤ cursor → cursor < s.region.head →
    s.region.state (cursor % s.region.capacity) = .committed
  readable : s.region.tail < s.region.head →
    s.region.state (s.region.tail % s.region.capacity) = .committed

/-- Messages first, leases behind them. -/
structure Prefixed (entries messages leases : List Entry) : Prop where
  split : entries = messages ++ leases
  messages : ∀ e ∈ messages, e.isLease = false
  leases : ∀ e ∈ leases, e.isLease = true

/-- What a call needs, besides being admissible, to keep the messages first:
a send that the guard admits finds no lease out, and a lease that is
published is the oldest one. -/
def InOrder (config : SpscConfig) (s : SpscState) : SpscOp → Prop
  | .send _ message => ∀ plan, sendPlan config message.1.length = .ok plan →
      s.region.head + s.writing + plan.neededSlots < wordCount ∧
        (message.1.length ≤ config.slotSize ∨ FramesFit config message.1.length) ∧
        (s.guard.admits plan.neededSlots → s.writing = 0)
  | .publish k => ∀ lease, s.leases[k]? = some lease → lease.isSealed = false →
      lease.index = s.region.head % s.region.capacity
  | op => s.Admissible config op

/-- What a call needs: under `DropOldest`, that receives are current. -/
def Prompt (config : SpscConfig) (s : SpscState) (op : SpscOp) : Prop :=
  if config.backpressure = .dropOldest then s.Timely config op else InOrder config s op

section Prefixed

omit [Checksum]

variable {messages leases : List Entry}

theorem leases_only (h : ∀ e ∈ leases, e.isLease = true) :
    publishedOf leases = 0 ∧ leasesOf leases = leases.length := by
  refine ⟨List.sum_eq_zero fun n hn => ?_, List.countP_eq_length.2 h⟩
  obtain ⟨e, he, rfl⟩ := List.mem_map.1 hn
  cases e with
  | message seq datas out => exact absurd (h _ he) Bool.false_ne_true
  | lease header => rfl

theorem messages_only (h : ∀ e ∈ messages, e.isLease = false) : leasesOf messages = 0 :=
  List.countP_eq_zero.2 fun e he => by simp [h e he]

theorem Prefixed.leases_nil (h : Prefixed entries messages leases) (hn : leasesOf entries = 0) :
    leases = [] := by
  rw [h.split, leasesOf_append, (leases_only h.leases).2] at hn
  exact List.eq_nil_of_length_eq_zero (by omega)

theorem Prefixed.published (h : Prefixed entries messages leases) :
    publishedOf entries = (contentsOf messages).length := by
  rw [h.split, publishedOf_append, (leases_only h.leases).1, length_contentsOf messages,
    messages_only h.messages]

/-- **A lease at the published head is the oldest one.** -/
theorem Prefixed.oldest (h : Prefixed entries messages leases) {i : ℕ} {header : SlotHeader}
    (hi : entries[i]? = some (.lease header))
    (hoff : offsetOf entries i = publishedOf entries) :
    ∃ rest, leases = .lease header :: rest ∧ i = messages.length := by
  have hge : messages.length ≤ i := by
    refine Nat.le_of_not_lt fun hlt => ?_
    rw [h.split, List.getElem?_append_left hlt] at hi
    exact absurd (h.messages _ (List.mem_of_getElem? hi)) (by simp)
  have htake : entries.take i = messages ++ leases.take (i - messages.length) := by
    rw [h.split, List.take_append, List.take_of_length_le hge]
  have hskipped := leases_only fun e he =>
    h.leases e (List.mem_of_mem_take (i := i - messages.length) he)
  have hlt := (List.getElem?_eq_some_iff.1 hi).1
  rw [h.split, List.length_append] at hlt
  rw [h.published, offsetOf, htake, contentsOf_append, List.length_append,
    length_contentsOf (leases.take _), hskipped.1, hskipped.2, List.length_take] at hoff
  obtain rfl : i = messages.length := by omega
  rw [h.split, List.getElem?_append_right (Nat.le_refl _), Nat.sub_self] at hi
  cases leases with
  | nil => cases hi
  | cons first rest =>
      obtain rfl : first = .lease header := by simpa using hi
      exact ⟨rest, rfl, rfl⟩

/-- A first message taken leaves the others first. -/
theorem Prefixed.tail {seq : UInt64} {datas : List Bytes} {out : Except Failure Bytes}
    {rest : List Entry} (h : Prefixed (.message seq datas out :: rest) messages leases) :
    ∃ messages', Prefixed rest messages' leases := by
  cases messages with
  | nil =>
      have hmem : Entry.message seq datas out ∈ leases := by
        rw [← List.nil_append leases, ← h.split]
        exact List.mem_cons_self
      exact absurd (h.leases _ hmem) Bool.false_ne_true
  | cons first messages =>
      obtain ⟨-, hrest⟩ := List.cons.inj h.split
      exact ⟨messages, hrest, fun e he => h.messages e (List.mem_cons_of_mem _ he), h.leases⟩

/-- The newest lease taken back leaves the others behind. -/
theorem Prefixed.init {header : SlotHeader} {rest : List Entry}
    (h : Prefixed (rest ++ [.lease header]) messages leases) :
    ∃ leases', Prefixed rest messages leases' := by
  rcases List.eq_nil_or_concat leases with rfl | ⟨init, last, rfl⟩
  · have hmem : Entry.lease header ∈ messages := by
      rw [← List.append_nil messages, ← h.split]
      exact List.mem_append_right _ List.mem_cons_self
    exact absurd (h.messages _ hmem) (by simp)
  · have hsplit := h.split
    rw [List.concat_eq_append, ← List.append_assoc] at hsplit
    obtain ⟨hrest, -⟩ := List.append_inj' hsplit rfl
    exact ⟨init, hrest, h.messages, fun e he => h.leases e (by simp [he])⟩

end Prefixed

/-- **What a call in order does to the queue** keeps the messages first. -/
theorem prefixed_moves (h : s.Holds config synced q) (hm : Moves config s op q q')
    (hsend : ∀ host message, op = .send host message → s.writing = 0)
    (hpub : ∀ k, op = .publish k → InOrder config s (.publish k))
    (hp : ∃ messages leases, Prefixed q.entries messages leases) :
    ∃ messages leases, Prefixed q'.entries messages leases := by
  obtain ⟨messages, leases, hp⟩ := hp
  cases hm with
  | idle => exact ⟨messages, leases, hp⟩
  | @push host message plan datas out _ plan_eq out_eq =>
      obtain rfl := hp.leases_nil (h.writing.symm.trans (hsend host message rfl))
      refine ⟨messages ++ [.message s.producer.nextSeq datas out], [], ?_, ?_, nofun⟩
      · rw [List.append_nil, hp.split, List.append_nil]
      · exact List.forall_mem_append.2 ⟨hp.messages, by simp⟩
  | @claim _ _ header =>
      refine ⟨messages, leases ++ [.lease header], ?_, hp.messages, ?_⟩
      · rw [hp.split, List.append_assoc]
      · exact List.forall_mem_append.2 ⟨hp.leases, by simp⟩
  | @publish k i lease header data payload out _ lease_eq unsealed place out_eq =>
      have hindex := hpub k rfl lease lease_eq unsealed
      have hoff : offsetOf q.entries i = publishedOf q.entries := by
        have hlt := (List.getElem?_eq_some_iff.1 (getElem?_contentsOf place.entry)).1
        have hpos : 0 < leasesOf q.entries :=
          List.countP_pos_iff.2 ⟨_, List.mem_of_getElem? place.entry, rfl⟩
        have hlen := length_contentsOf q.entries
        have hfits := h.ring.layout.fits
        have hplace := place.index.symm.trans hindex
        rw [h.ring.head, Layout.at'] at hplace
        have := Window.eq_of_mod_eq (t := s.region.tail) (by omega) (by omega) (by omega)
          (by omega) hplace
        omega
      obtain ⟨rest, rfl, rfl⟩ := hp.oldest place.entry hoff
      refine ⟨messages ++ [.message header.seq [data] out], rest, ?_, ?_, ?_⟩
      · rw [hp.split, List.set_append_right _ _ (Nat.le_refl _), Nat.sub_self, List.set_cons_zero,
          List.append_assoc, List.singleton_append]
      · exact List.forall_mem_append.2 ⟨hp.messages, by simp⟩
      · exact fun e he => hp.leases e (List.mem_cons_of_mem _ he)
  | @takeBack k rest header _ entries_eq =>
      obtain ⟨leases', hp'⟩ := (entries_eq ▸ hp).init
      exact ⟨messages, leases', hp'⟩
  | @deliver _ seq datas payload rest _ receives entries_eq =>
      obtain ⟨messages', hp'⟩ := (entries_eq ▸ hp).tail
      exact ⟨messages', leases, hp'⟩
  | @skip _ seq datas err rest _ receives entries_eq =>
      obtain ⟨messages', hp'⟩ := (entries_eq ▸ hp).tail
      exact ⟨messages', leases, hp'⟩

/-- **A call in order keeps the messages first.** -/
theorem prefixed_step (h : s.Holds config True q) (hdrop : config.backpressure ≠ .dropOldest)
    (hop : InOrder config s op) (hp : ∃ messages leases, Prefixed q.entries messages leases) :
    ∃ q', (s.step op).Holds config True q' ∧
      ∃ messages leases, Prefixed q'.entries messages leases := by
  by_cases hsend : ∀ host message, op = .send host message → s.writing = 0
  · have hadm : s.Admissible config op := by
      cases op with
      | send host message =>
          intro plan hplan
          obtain ⟨hword, hframes, -⟩ := hop plan hplan
          have hw := hsend host message rfl
          refine ⟨hword, fun hadm => ?_, h.producer.config ▸ hframes⟩
          rw [hw]
          exact hadm
      | publish k => trivial
      | _ => exact hop
    obtain ⟨q', hm, h'⟩ := h.step hdrop hadm
    refine ⟨q', h', prefixed_moves h hm hsend (fun k hk => hk ▸ hop) hp⟩
  · simp only [not_forall] at hsend
    obtain ⟨host, message, rfl, hw⟩ := hsend
    refine ⟨q, ?_, hp⟩
    show (s.stepSend host message).Holds config True q
    cases hplan : sendPlan config message.1.length with
    | error err => exact h.stepSend_unplanned hplan
    | ok plan => exact h.stepSend_full hdrop hplan fun hadm => hw ((hop plan hplan).2.2 hadm)

/-- **The committed prefix, read off the queue.** -/
theorem committedPrefix (h : s.Holds config synced q)
    (hp : ∃ messages leases, Prefixed q.entries messages leases) : CommittedPrefix s := by
  obtain ⟨messages, leases, hp⟩ := hp
  have hhead := h.ring.head
  rw [hp.published] at hhead
  have hcommitted : ∀ cursor, s.region.tail ≤ cursor → cursor < s.region.head →
      s.region.state (cursor % s.region.capacity) = .committed := by
    intro cursor h1 h2
    obtain ⟨k, rfl⟩ : ∃ k, cursor = s.region.tail + k := ⟨cursor - s.region.tail, by omega⟩
    have hl := h.ring.layout
    rw [hp.split, contentsOf_append] at hl
    have hk : k < (contentsOf messages ++ contentsOf leases).length := by
      rw [List.length_append]
      omega
    refine (hl.shows hk).state.trans ?_
    rw [List.getElem_append_left (by omega)]
    obtain ⟨e, he, hc⟩ := List.mem_flatMap.1
      (List.getElem_mem (l := contentsOf messages) (n := k) (by omega))
    cases e with
    | message seq datas out =>
        obtain ⟨data, -, hd⟩ := List.mem_map.1 hc
        exact hd ▸ rfl
    | lease header => exact absurd (hp.messages _ he) (by simp)
  exact ⟨hcommitted, fun hlt => hcommitted _ (Nat.le_refl _) hlt⟩

/-- **The committed prefix.** In every run whose calls are in order, every
slot between the cursors is COMMITTED. -/
theorem committed_prefix {w : World} {ops : List SpscOp} (hw : create host config = .ok w)
    (hmode : config.multiProducer = false)
    (hrun : Run.Meets SpscState.step (Prompt config) (start w) ops) :
    CommittedPrefix (Run.exec SpscState.step (start w) ops) := by
  by_cases hdrop : config.backpressure = .dropOldest
  · obtain ⟨base, h⟩ := refines_run (refines_start hw hmode hdrop) (hrun.mono fun s op hop => by
      rwa [Prompt, if_pos hdrop] at hop)
    refine committedPrefix h.holds ⟨_, [], (List.append_nil _).symm, fun e he => ?_, nofun⟩
    obtain ⟨m, -, rfl⟩ := List.mem_map.1 he
    rfl
  · have hinv : ∃ q, (Run.exec SpscState.step (start w) ops).Holds config True q ∧
        ∃ messages leases, Prefixed q.entries messages leases :=
      hrun.invariant
        (fun s => ∃ q, s.Holds config True q ∧
          ∃ messages leases, Prefixed q.entries messages leases)
        (fun s op ⟨q, h, hp⟩ hop => prefixed_step h hdrop (by rwa [Prompt, if_neg hdrop] at hop) hp)
        ⟨_, holds_start hw hmode, [], [], rfl, nofun, nofun⟩
    obtain ⟨q, h, hp⟩ := hinv
    exact committedPrefix h hp

/-- A lease written and published, then a message. -/
def orderedOps : List SpscOp :=
  [.openConsumer sampleHost, .alloc sampleHost 1, .write 0 0 [5], .publish 0,
    .send sampleHost (sampleMessage 6), .recv sampleHost]

instance decidableInOrder : (op : SpscOp) → Decidable (InOrder config s op)
  | .send _ message => inferInstanceAs (Decidable (∀ plan,
      sendPlan config message.1.length = .ok plan →
        s.region.head + s.writing + plan.neededSlots < wordCount ∧
          (message.1.length ≤ config.slotSize ∨
            min message.1.length config.slotSize + FRAME_HEADER_LEN < 2 ^ 32) ∧
          (s.guard.admits plan.neededSlots → s.writing = 0)))
  | .publish k =>
      match h : s.leases[k]? with
      | none => isTrue (by simp [InOrder, h])
      | some lease =>
          decidable_of_iff
            (lease.isSealed = false → lease.index = s.region.head % s.region.capacity)
            (by simp [InOrder, h])
  | .alloc host size => inferInstanceAs (Decidable (s.Admissible config (.alloc host size)))
  | .write k offset bytes =>
      inferInstanceAs (Decidable (s.Admissible config (.write k offset bytes)))
  | .abort k => inferInstanceAs (Decidable (s.Admissible config (.abort k)))
  | .dropLease k => inferInstanceAs (Decidable (s.Admissible config (.dropLease k)))
  | .openConsumer host => inferInstanceAs (Decidable (s.Admissible config (.openConsumer host)))
  | .recv host => inferInstanceAs (Decidable (s.Admissible config (.recv host)))
  | .tryRecv host => inferInstanceAs (Decidable (s.Admissible config (.tryRecv host)))
  | .recvView host => inferInstanceAs (Decidable (s.Admissible config (.recvView host)))
  | .release k => inferInstanceAs (Decidable (s.Admissible config (.release k)))
  | .dropView k => inferInstanceAs (Decidable (s.Admissible config (.dropView k)))
  | .reopenProducer host => inferInstanceAs (Decidable (s.Admissible config (.reopenProducer host)))

instance decidablePrompt : Decidable (Prompt config s op) :=
  inferInstanceAs (Decidable (ite _ _ _))

omit [Checksum] in
theorem committed_prefix_ordered :
    CommittedPrefix (Run.exec (@SpscState.step crc32Checksum)
      (start (sampleWorld (sampleConfig 2 1))) orderedOps) := by
  have hprompt : Run.Meets (@SpscState.step crc32Checksum) (Prompt (sampleConfig 2 1))
      (start (sampleWorld (sampleConfig 2 1))) orderedOps := by decide +kernel
  let _ := crc32Checksum
  exact committed_prefix (rfl : create sampleHost (sampleConfig 2 1) = .ok _) rfl hprompt

omit [Checksum] in
/-- A message sent while a lease is out puts the lease's WRITING slot between
the cursors. -/
theorem committed_prefix_lease :
    ¬ CommittedPrefix (Run.exec (@SpscState.step crc32Checksum)
      (start (sampleWorld (sampleConfig 2 1)))
      [.alloc sampleHost 1, .send sampleHost ⟨[6], by decide⟩]) := fun h => by
  have hstate : (Run.exec (@SpscState.step crc32Checksum)
      (start (sampleWorld (sampleConfig 2 1)))
      [.alloc sampleHost 1, .send sampleHost ⟨[6], by decide⟩]).region.state 0 = .writing := by
    decide +kernel
  have hread := h.committed 0 (by decide +kernel) (by decide +kernel)
  rw [Nat.zero_mod, hstate] at hread
  cases hread

end Dsline
