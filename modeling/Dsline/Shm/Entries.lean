import Dsline.Shm.OpenSpec
import Dsline.Shm.RecvSpec
/-!
# The queue behind the tail

A single-producer ring holds a queue of entries: messages, and leases the
producer has not published. `Ring` ties a region to its entries: the
contents are theirs in order, the published head counts the messages'
slots, every message delivers, and the floor is the smallest pin. Sequence
numbers are those of the entries' places in the history (`Numbered`).
-/

namespace Dsline

inductive Entry where
  /-- A message: its sequence, its frames as they read back, and what they
  deliver. -/
  | message (seq : UInt64) (datas : List Bytes) (out : Except Failure Bytes)
  /-- A slot leased and not published: its header. -/
  | lease (header : SlotHeader)

namespace Entry

def seq : Entry → UInt64
  | message seq _ _ => seq
  | lease header => header.seq

/-- What an entry leaves in the ring. -/
def contents : Entry → List Content
  | message seq datas _ => datas.map fun data => .committed ⟨seq, data⟩
  | lease header => [.writing header]

/-- The slots the published head counts. -/
def published : Entry → ℕ
  | message _ datas _ => datas.length
  | lease _ => 0

def isLease : Entry → Bool
  | message .. => false
  | lease _ => true

/-- An entry is as its kind is: a message delivers, a lease is WRITING. -/
def Good [Checksum] (writer : ProcessIdentity) : Entry → Prop
  | message seq datas out => Delivers seq datas out ∧ ∀ err, out = .error err → ¬ Inbox.Stuck err
  | lease header => header.state = .writing ∧
      ∀ identity, header.identity = some identity → identity.process = writer

end Entry

/-- The contents of a queue. -/
abbrev contentsOf (entries : List Entry) : List Content := entries.flatMap Entry.contents

/-- The slots of a queue the published head counts. -/
def publishedOf (entries : List Entry) : ℕ := (entries.map Entry.published).sum

/-- The leases of a queue. -/
def leasesOf (entries : List Entry) : ℕ := entries.countP Entry.isLease

/-- Sequence numbers follow one another from `base` on. -/
def Numbered : ℕ → List Entry → Prop
  | _, [] => True
  | base, entry :: entries => entry.seq = UInt64.ofNat base ∧ Numbered (base + 1) entries

/-- **A region and its queue.** -/
structure Ring [Checksum] (config : SpscConfig) (writer : ProcessIdentity) (region : Region)
    (entries : List Entry) (pins : List Pin) : Prop where
  fits : Fits config region
  layout : Layout region (contentsOf entries) pins
  head : region.head = region.tail + publishedOf entries
  word : region.tail + (contentsOf entries).length < wordCount
  good : ∀ entry ∈ entries, entry.Good writer
  floor : FloorOf (pins.map Pin.cursor) region.pinFloor

section Queue

variable {entries entries' : List Entry} {entry : Entry} {base : ℕ} {writer : ProcessIdentity}
  {seq : UInt64} {datas : List Bytes} {out : Except Failure Bytes} {header : SlotHeader}

theorem contentsOf_append : contentsOf (entries ++ entries') =
    contentsOf entries ++ contentsOf entries' := List.flatMap_append

@[simp] theorem contentsOf_cons :
    contentsOf (entry :: entries) = entry.contents ++ contentsOf entries := rfl

variable (entries entries') in
theorem publishedOf_append : publishedOf (entries ++ entries') =
    publishedOf entries + publishedOf entries' := by
  simp [publishedOf]

@[simp] theorem publishedOf_cons :
    publishedOf (entry :: entries) = entry.published + publishedOf entries := by
  simp [publishedOf]

theorem leasesOf_append : leasesOf (entries ++ entries') =
    leasesOf entries + leasesOf entries' := List.countP_append

@[simp] theorem leasesOf_cons :
    leasesOf (entry :: entries) = leasesOf entries + if entry.isLease then 1 else 0 :=
  List.countP_cons

@[simp] theorem contents_message :
    (Entry.message seq datas out).contents =
      datas.map (Content.committed ⟨seq, ·⟩) := rfl

@[simp] theorem contents_lease : (Entry.lease header).contents = [.writing header] := rfl

@[simp] theorem published_message : (Entry.message seq datas out).published = datas.length := rfl

@[simp] theorem published_lease : (Entry.lease header).published = 0 := rfl

@[simp] theorem isLease_message : (Entry.message seq datas out).isLease = false := rfl

@[simp] theorem isLease_lease : (Entry.lease header).isLease = true := rfl

variable (entries) in
/-- The contents are the published slots and one slot for each lease. -/
theorem length_contentsOf : (contentsOf entries).length =
    publishedOf entries + leasesOf entries := by
  induction entries with
  | nil => rfl
  | cons entry entries ih =>
      rw [contentsOf_cons, List.length_append, ih, publishedOf_cons, leasesOf_cons]
      cases entry with
      | message seq datas out => simp; omega
      | lease header => simp; omega

theorem numbered_append : Numbered base (entries ++ entries') ↔
    Numbered base entries ∧ Numbered (base + entries.length) entries' := by
  induction entries generalizing base with
  | nil => simp [Numbered]
  | cons entry entries ih =>
      simp only [List.cons_append, Numbered, ih, List.length_cons, and_assoc, Nat.add_assoc,
        Nat.add_comm 1]

variable (entries) in
/-- What can be read from the tail on is published. -/
theorem readable_le : (World.readable (contentsOf entries)).length ≤ publishedOf entries := by
  induction entries with
  | nil => exact Nat.le_refl _
  | cons entry entries ih =>
      cases entry with
      | message seq datas out =>
          have h : contentsOf (.message seq datas out :: entries) =
              (datas.map (SlotSnapshot.mk seq)).map Content.committed ++ contentsOf entries := by
            rw [contentsOf_cons, contents_message, List.map_map]
            rfl
          rw [h, World.readable_append, List.length_append, List.length_map, publishedOf_cons]
          simpa using ih
      | lease header => exact Nat.zero_le _

theorem Entry.Good.ne_nil [Checksum] (h : (Entry.message seq datas out).Good writer) :
    datas ≠ [] := by
  obtain ⟨⟨data, datas', rfl, -⟩, -⟩ := h
  simp

end Queue

/-! ## What a message's frames deliver -/

section Stored

variable {config : SpscConfig} {plan : SendPlan} {seq : UInt64} {bytes : Bytes}

/-- Every frame of a message of this length keeps its length in 32 bits. -/
def FramesFit (config : SpscConfig) (len : ℕ) : Prop :=
  min len config.slotSize + FRAME_HEADER_LEN < 2 ^ 32

variable [Checksum]

theorem length_frames_lt (hplan : sendPlan config bytes.length = .ok plan)
    (hfit : FramesFit config bytes.length) {frame : Bytes}
    (h : frame ∈ messageFrames plan seq bytes) : frame.length < 2 ^ 32 := by
  have hle := length_le_of_mem_messageFrames hplan h
  simp only [FramesFit] at hfit
  rcases sendPlan_ok hplan with ⟨h1, rfl⟩ | ⟨h1, -⟩
  · rw [messageFrames, if_pos rfl, List.mem_singleton] at h
    rw [h, length_frameBytes]
    simp only [List.flatMap_nil, List.length_nil]
    omega
  · omega

theorem stored_messageFrames (hplan : sendPlan config bytes.length = .ok plan)
    (hfit : FramesFit config bytes.length) :
    (messageFrames plan seq bytes).map stored = messageFrames plan seq bytes := by
  refine (List.map_congr_left fun frame hf => ?_).trans (List.map_id _)
  exact stored_of_lt (length_frames_lt hplan hfit hf)

/-- **What is sent is what is delivered**, where the frames fit. -/
theorem delivers_stored (hplan : sendPlan config bytes.length = .ok plan)
    (hcap : config.capacity < 2 ^ 64) (hlen : bytes.length ≤ isizeMax)
    (hfit : FramesFit config bytes.length) :
    Delivers seq ((messageFrames plan seq bytes).map stored) (.ok bytes) := by
  rw [stored_messageFrames hplan hfit]
  exact delivers_messageFrames hplan hcap hlen

variable (seq bytes) in
/-- The frame of one slot delivers its payload, or an error where it does
not fit. -/
theorem delivers_stored_single (hlen : bytes.length ≤ isizeMax) :
    ∃ out, Delivers seq [stored (frameBytes 0 seq [] bytes)] out ∧
      (∀ err, out = .error err → ¬ Inbox.Stuck err) ∧
      (out = .ok bytes ↔ (frameBytes 0 seq [] bytes).length < 2 ^ 32) := by
  rcases Nat.lt_or_ge (frameBytes 0 seq [] bytes).length (2 ^ 32) with hlt | hge
  · rw [stored_of_lt hlt]
    exact ⟨.ok bytes, delivers_single hlen, by simp, fun _ => hlt, fun _ => rfl⟩
  · obtain ⟨m, hm, he⟩ := stored_of_ge hge
    have hdec : decodeFrame (frameBytes 0 seq [] bytes) = .ok (frameOf 0 seq [] bytes) :=
      decodeFrame_frameBytes _ _ _ _ (by decide) hlen
    have hlen' : (frameOf 0 seq [] bytes).header.headerLen.toNat +
        (frameOf 0 seq [] bytes).header.payloadLen.toNat = (frameBytes 0 seq [] bytes).length := by
      obtain ⟨-, hle, hpay⟩ := decodeFrame_ok hdec
      rw [length_frameBytes]
      have hp : (frameOf 0 seq [] bytes).header.payloadLen.toNat = bytes.length := hpay.symm
      rw [hp]
      rfl
    obtain ⟨err, hdel, hstuck⟩ := delivers_take seq hdec (m := m) (by omega)
    rw [he]
    exact ⟨.error err, hdel, fun e h => by cases h; exact hstuck, nofun, fun h => by omega⟩

variable (seq) in
/-- What the frames of any message deliver: the message, or, in one slot, an
error where they do not fit. -/
theorem exists_delivers (hplan : sendPlan config bytes.length = .ok plan)
    (hcap : config.capacity < 2 ^ 64) (hlen : bytes.length ≤ isizeMax)
    (hfit : bytes.length ≤ config.slotSize ∨ FramesFit config bytes.length) :
    ∃ out, Delivers seq ((messageFrames plan seq bytes).map stored) out ∧
      (∀ err, out = .error err → ¬ Inbox.Stuck err) ∧
      (out = .ok bytes ↔ FramesFit config bytes.length) := by
  by_cases h : FramesFit config bytes.length
  · exact ⟨_, delivers_stored hplan hcap hlen h, by simp, by simp [h]⟩
  · rcases sendPlan_ok hplan with ⟨hle, rfl⟩ | ⟨hlt, -⟩
    · obtain ⟨out, hdel, hstuck, hout⟩ := delivers_stored_single seq bytes hlen
      refine ⟨out, hdel, hstuck, hout.trans ?_⟩
      rw [length_frameBytes, FramesFit, Nat.min_eq_left hle]
      simp only [List.flatMap_nil, List.length_nil]
      omega
    · exact absurd (hfit.resolve_left (by omega)) h

end Stored

end Dsline
