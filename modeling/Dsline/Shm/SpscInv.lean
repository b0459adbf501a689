import Dsline.Shm.Entries
import Dsline.Shm.LeaseSpec
import Dsline.Shm.Spsc
import Dsline.Shm.ViewSpec
/-!
# The invariant of the single-producer system

A state stands for a queue: the messages received so far are `base` many,
the entries lie behind the tail, and the pins are those of the live views.
`Holds` ties the handles to it: the producer writes behind the last entry,
the consumer expects the first, each unsealed lease is an entry and each
live view a pin.
-/

namespace Dsline

open PersistentShmChannel

/-! ## Places in the queue -/

/-- How far behind the tail an entry's contents start. -/
def offsetOf (entries : List Entry) (i : ℕ) : ℕ := (contentsOf (entries.take i)).length

section Places

variable {entries more : List Entry} {entry : Entry} {header : SlotHeader} {i j base : ℕ}

theorem length_contentsOf_eq_sum :
    (contentsOf entries).length = (entries.map fun entry => entry.contents.length).sum :=
  List.length_flatMap

theorem offsetOf_length : offsetOf entries entries.length = (contentsOf entries).length := by
  rw [offsetOf, List.take_length]

/-- An entry behind the others does not move them. -/
theorem offsetOf_append (h : i ≤ entries.length) :
    offsetOf (entries ++ more) i = offsetOf entries i := by
  rw [offsetOf, List.take_append_of_le_length h, offsetOf]

/-- An entry replaced by one of the same length does not move the others. -/
theorem offsetOf_set (h : ∀ old, entries[i]? = some old →
    entry.contents.length = old.contents.length) :
    offsetOf (entries.set i entry) j = offsetOf entries j := by
  simp only [offsetOf, length_contentsOf_eq_sum, List.map_take, List.map_set]
  congr 2
  refine List.ext_getElem? fun k => ?_
  rw [List.getElem?_set]
  split
  · rename_i hik
    subst hik
    split
    · rename_i hlt
      rw [List.length_map] at hlt
      rw [List.getElem?_map, List.getElem?_eq_getElem hlt, Option.map_some,
        h _ (List.getElem?_eq_getElem hlt)]
    · rename_i hge
      exact (List.getElem?_eq_none (by omega)).symm
  · rfl

theorem offsetOf_cons_succ :
    offsetOf (entry :: entries) (i + 1) = entry.contents.length + offsetOf entries i := by
  simp [offsetOf]

/-- The content of a lease, where its offset says. -/
theorem getElem?_contentsOf (h : entries[i]? = some (.lease header)) :
    (contentsOf entries)[offsetOf entries i]? = some (.writing header) := by
  obtain ⟨hlt, hget⟩ := List.getElem?_eq_some_iff.1 h
  have hsplit : entries = entries.take i ++ .lease header :: entries.drop (i + 1) := by
    rw [← hget, ← List.drop_eq_getElem_cons hlt, List.take_append_drop]
  have hcontents : contentsOf entries =
      contentsOf (entries.take i) ++ (.writing header :: contentsOf (entries.drop (i + 1))) := by
    conv_lhs => rw [hsplit]
    rw [contentsOf_append, contentsOf_cons, contents_lease, List.singleton_append]
  rw [hcontents, offsetOf, List.getElem?_append_right (Nat.le_refl _), Nat.sub_self]
  rfl

/-- Replacing an entry of one content by another. -/
theorem contentsOf_set {content : Content} (h : entries[i]? = some (.lease header))
    (he : entry.contents = [content]) :
    contentsOf (entries.set i entry) = (contentsOf entries).set (offsetOf entries i) content := by
  obtain ⟨hlt, hget⟩ := List.getElem?_eq_some_iff.1 h
  have hsplit : entries = entries.take i ++ .lease header :: entries.drop (i + 1) := by
    rw [← hget, ← List.drop_eq_getElem_cons hlt, List.take_append_drop]
  have hcontents : contentsOf entries =
      contentsOf (entries.take i) ++ (.writing header :: contentsOf (entries.drop (i + 1))) := by
    conv_lhs => rw [hsplit]
    rw [contentsOf_append, contentsOf_cons, contents_lease, List.singleton_append]
  rw [List.set_eq_take_append_cons_drop, if_pos hlt, hcontents, offsetOf,
    List.set_append_right _ _ (Nat.le_refl _), Nat.sub_self, List.set_cons_zero, contentsOf_append,
    contentsOf_cons, he, List.singleton_append]

theorem numbered_getElem (h : Numbered base entries) (hi : entries[i]? = some entry) :
    entry.seq = UInt64.ofNat (base + i) := by
  induction entries generalizing base i with
  | nil => cases hi
  | cons first entries ih =>
      cases i with
      | zero =>
          obtain rfl : first = entry := by simpa using hi
          exact h.1
      | succ i =>
          rw [ih h.2 (by simpa using hi)]
          congr 1
          omega

/-- Numbers follow one another whatever the entries of one number are. -/
theorem numbered_set (h : Numbered base entries)
    (hseq : ∀ old, entries[i]? = some old → entry.seq = old.seq) :
    Numbered base (entries.set i entry) := by
  induction entries generalizing base i with
  | nil => trivial
  | cons first entries ih =>
      cases i with
      | zero => exact ⟨(hseq first rfl).trans h.1, h.2⟩
      | succ i => exact ⟨h.1, ih h.2 fun old ho => hseq old (by simpa using ho)⟩

/-- Every content of a queue takes its slot. -/
theorem contentsOf_busy : ∀ content ∈ contentsOf entries, content.Busy := by
  intro content hc
  obtain ⟨entry, -, he⟩ := List.mem_flatMap.1 hc
  cases entry with
  | message seq datas out =>
      obtain ⟨data, -, rfl⟩ := List.mem_map.1 he
      simp [Content.Busy, Content.state]
  | lease header =>
      obtain rfl := List.mem_singleton.1 he
      simp [Content.Busy, Content.state]

variable (entries) in
/-- Every entry takes a slot at least. -/
theorem length_le_contentsOf [Checksum] {writer : ProcessIdentity}
    (h : ∀ entry ∈ entries, entry.Good writer) : entries.length ≤ (contentsOf entries).length := by
  induction entries with
  | nil => exact Nat.zero_le _
  | cons entry entries ih =>
      have htail := ih fun e he => h e (List.mem_cons_of_mem _ he)
      have hpos : 0 < entry.contents.length := by
        cases entry with
        | message seq datas out =>
            rw [contents_message, List.length_map]
            exact List.length_pos_iff.2 (h _ List.mem_cons_self).ne_nil
        | lease header => exact Nat.zero_lt_one
      rw [contentsOf_cons, List.length_append, List.length_cons]
      omega

end Places

theorem ofNat_succ (n : ℕ) : UInt64.ofNat (n + 1) = UInt64.ofNat n + 1 := UInt64.ofNat_add _ _

/-- Two numbers of one lap of sequences are two sequences. -/
theorem ofNat_ne {a b : ℕ} (h : a < b) (hlap : b < a + 2 ^ 64) :
    UInt64.ofNat a ≠ UInt64.ofNat b := by
  intro he
  have hmod := congrArg UInt64.toNat he
  rw [UInt64.toNat_ofNat', UInt64.toNat_ofNat'] at hmod
  have := Window.eq_of_mod_eq (t := a) (Nat.le_refl _) (by omega) (Nat.le_of_lt h) hlap hmod
  omega

/-! ## The invariant -/

/-- The pin a live view keeps. -/
def LiveView.pin (v : LiveView) : Pin := ⟨v.view.cursorValue, v.made.slots v.view.index⟩

/-- What a state stands for. -/
structure Queue where
  base : ℕ
  entries : List Entry
  accepted : List ReceivedMessage
  got : List ReceivedMessage

/-- A producer handle that writes behind the last entry. -/
structure Produces (config : SpscConfig) (region : Region) (q : Queue)
    (chan : PersistentShmChannel) : Prop where
  config : chan.config = config
  closed : chan.closed = false
  bias : chan.recoveryBias = 0
  mirror : chan.headCursor = region.head
  head : chan.head = Layout.at' region (contentsOf q.entries).length
  nextSeq : chan.nextSeq = UInt64.ofNat (q.base + q.entries.length)

/-- A consumer handle; one that is synced expects the first entry. -/
structure Consumes (config : SpscConfig) (synced : Prop) (base : ℕ)
    (chan : PersistentShmChannel) : Prop where
  config : chan.config = config
  closed : chan.closed = false
  expected : synced → chan.expectedRecvSeq = UInt64.ofNat base

/-- An unsealed lease is an entry. -/
structure LeaseAt (config : SpscConfig) (region : Region) (entries : List Entry)
    (lease : ShmWriteLease) (i : ℕ) (header : SlotHeader) : Prop where
  entry : entries[i]? = some (.lease header)
  seq : header.seq = lease.seq
  index : lease.index = Layout.at' region (offsetOf entries i)
  fits : lease.payloadLen ≤ config.slotSize

/-- A lease stays where its entry stays. -/
theorem LeaseAt.transfer {config : SpscConfig} {region region' : Region}
    {entries entries' : List Entry} {lease : ShmWriteLease} {i j : ℕ} {header : SlotHeader}
    (h : LeaseAt config region entries lease i header)
    (hentry : entries'[j]? = some (.lease header)) (hcap : region'.capacity = region.capacity)
    (hplace : region'.tail + offsetOf entries' j = region.tail + offsetOf entries i) :
    LeaseAt config region' entries' lease j header :=
  ⟨hentry, h.seq, h.index.trans (by rw [Layout.at', Layout.at', hplace, hcap]), h.fits⟩

/-- A live view, held by a consumer. -/
structure ViewOf (region : Region) (consumer : Option PersistentShmChannel) (v : LiveView) :
    Prop where
  live : v.view.released = false
  index : v.view.index = v.view.cursorValue % region.capacity
  owner : ∃ chan, consumer = some chan ∧ ∀ identity,
    (v.made.header v.view.index).identity = some identity → identity.process = chan.writer

theorem ViewOf.transfer {region region' : Region} {consumer : Option PersistentShmChannel}
    {v : LiveView} (h : ViewOf region consumer v) (hcap : region'.capacity = region.capacity) :
    ViewOf region' consumer v :=
  ⟨h.live, h.index.trans (congrArg _ hcap.symm), h.owner⟩

/-- **The invariant.** -/
structure SpscState.Holds [Checksum] (config : SpscConfig) (synced : Prop) (s : SpscState)
    (q : Queue) : Prop where
  mode : config.multiProducer = false
  ring : Ring config s.producer.writer s.region q.entries (s.views.map LiveView.pin)
  numbered : Numbered q.base q.entries
  producer : Produces config s.region q s.producer
  consumer : ∀ chan, s.consumer = some chan → Consumes config synced q.base chan
  unread : synced → s.consumer = none → q.base = 0
  leases : ∀ lease ∈ s.leases, lease.isSealed = false →
    ∃ i header, LeaseAt config s.region q.entries lease i header
  distinct : s.leases.Pairwise fun a b => a.isSealed = false → b.isSealed = false → a.seq ≠ b.seq
  views : ∀ v ∈ s.views, ViewOf s.region s.consumer v
  accepted : s.accepted = q.accepted
  got : s.got = q.got

namespace Ring

variable [Checksum] {config : SpscConfig} {writer : ProcessIdentity} {region : Region}
  {entries : List Entry} {pins : List Pin}

theorem window (h : Ring config writer region entries pins) :
    region.tail ≤ region.head ∧ region.head ≤ region.tail + region.capacity ∧
      region.head < wordCount := by
  have hlen := length_contentsOf entries
  have hfits := h.layout.fits
  have hword := h.word
  have hhead := h.head
  exact ⟨by omega, by omega, by omega⟩

/-- A handle over the region is in order. -/
theorem sound (h : Ring config writer region entries pins) {chan : PersistentShmChannel}
    (hconf : chan.config = config) (hopen : chan.closed = false) :
    World.Sound ⟨chan, region⟩ where
  capacity := hconf ▸ h.fits.capacity.symm
  pos := h.fits.pos
  ordered := h.window.1
  window := h.window.2.1
  word := h.window.2.2
  opened := hopen

/-- No writer of a live lease, and no reader of a live view, is gone. -/
theorem noneGone (h : Ring config writer region entries pins) {host : Host}
    (hleases : ∀ header, Entry.lease header ∈ entries → ∀ identity,
      header.identity = some identity → host.liveness identity.process ≠ .gone)
    (hpins : ∀ p ∈ pins, ∀ identity, p.slot.header.identity = some identity →
      host.liveness identity.process ≠ .gone) : NoneGone host region := by
  intro index hlt identity hid hstate
  obtain ⟨cursor, h1, h2, rfl⟩ := Window.exists_cursor region.tail hlt
  rcases Nat.lt_or_ge cursor (region.tail + (contentsOf entries).length) with hin | hout
  · obtain ⟨k, rfl⟩ : ∃ k, cursor = region.tail + k := ⟨cursor - region.tail, by omega⟩
    have hk : k < (contentsOf entries).length := by omega
    have hshow := h.layout.shows hk
    have hmem := List.getElem_mem hk
    generalize (contentsOf entries)[k] = content at hshow hmem
    obtain ⟨entry, he, hmem⟩ := List.mem_flatMap.1 hmem
    cases entry with
    | message seq datas out =>
        obtain ⟨data, -, rfl⟩ := List.mem_map.1 hmem
        have hst : region.state ((region.tail + k) % region.capacity) = .committed := hshow.state
        rw [hst] at hstate
        rcases hstate with h | h <;> cases h
    | lease header =>
        obtain rfl := List.mem_singleton.1 hmem
        have hheader : region.header ((region.tail + k) % region.capacity) = header := hshow.1
        rw [hheader] at hid
        exact hleases header he identity hid
  · rcases h.layout.state_rest _ hout h2 with hfree | ⟨p, hp, rfl, -⟩
    · rw [hfree] at hstate
      rcases hstate with h | h <;> cases h
    · rw [Nat.add_mod_right, Region.header, (h.layout.pinned p hp).1] at hid
      exact hpins p hp identity hid

end Ring

namespace SpscState

variable [Checksum] {config : SpscConfig} {synced synced' : Prop} {s : SpscState} {q : Queue}
  {host : Host}

/-- Neither handle's process is gone. -/
def Alive (host : Host) (s : SpscState) : Prop :=
  host.liveness s.producer.writer ≠ .gone ∧
    ∀ chan, s.consumer = some chan → host.liveness chan.writer ≠ .gone

theorem Holds.noneGone (h : s.Holds config synced q) (halive : s.Alive host) :
    NoneGone host s.region := by
  refine h.ring.noneGone (fun header he identity hid => ?_) fun p hp identity hid => ?_
  · rw [(h.ring.good _ he).2 identity hid]
    exact halive.1
  obtain ⟨v, hv, rfl⟩ := List.mem_map.1 hp
  obtain ⟨chan, hchan, howner⟩ := (h.views v hv).owner
  rw [howner identity hid]
  exact halive.2 chan hchan

theorem Holds.producer_sound (h : s.Holds config synced q) : s.atProducer.Sound :=
  h.ring.sound h.producer.config h.producer.closed

theorem Holds.consumer_sound (h : s.Holds config synced q) {chan : PersistentShmChannel}
    (hc : s.consumer = some chan) : World.Sound ⟨chan, s.region⟩ :=
  h.ring.sound (h.consumer chan hc).config (h.consumer chan hc).closed

theorem Holds.mono (h : s.Holds config synced q) (hs : synced' → synced) :
    s.Holds config synced' q :=
  { h with
    consumer := fun chan hc =>
      ⟨(h.consumer chan hc).config, (h.consumer chan hc).closed, fun h' =>
        (h.consumer chan hc).expected (hs h')⟩
    unread := fun h' => h.unread (hs h') }

end SpscState

end Dsline
