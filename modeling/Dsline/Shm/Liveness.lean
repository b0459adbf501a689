import Dsline.Library.Run
import Dsline.Shm.Slot
/-!
# Reclaiming by identity

Processes come and go and pids are used again; a handle records the identity
of its process when it is made and stamps it into the headers it writes; and
any number of reclaimers run `reclaim_dead_writing` and
`reclaim_dead_pinned`, one access at a time, from wherever they are called.
The platform probe answers truthfully about a pid, or fails. A probe that
fails where the identity is recorded leaves a start time of zero behind, and
the probe that answers later finds another.
-/

namespace Dsline

/-! ## The probe -/

/-- What the platform answers about a pid. -/
inductive Probe where
  | failed
  | absent
  | present (startTime : UInt64)
  deriving DecidableEq, Repr

/-- `current_process_identity`: a probe of the own process that fails counts
as a start time of zero. -/
def currentProcessIdentity (pid : UInt32) (own : Probe) : ProcessIdentity where
  pid
  startTime := match own with
    | .present startTime => startTime
    | .failed | .absent => 0

/-- `process_liveness`. -/
def processLiveness (probe : UInt32 → Probe) (identity : ProcessIdentity) : ProcessLiveness :=
  if identity.pid = 0 then .unknown
  else match probe identity.pid with
    | .absent => .gone
    | .present startTime => if startTime = identity.startTime then .alive else .gone
    | .failed => .unknown

/-! ## The system -/

/-- A handle: the process it lives in, and the identity it recorded. -/
structure Recorded where
  process : ℕ
  writer : ProcessIdentity
  deriving DecidableEq, Repr

/-- A slot header, and the handle that wrote it, which no one can read. -/
structure Stamped where
  header : SlotHeader
  owner : Option ℕ

/-- What a full header read reports. -/
def SlotHeader.full (header : SlotHeader) : SlotState × UInt64 × UInt32 × Option WriterIdentity :=
  (header.state, header.seq, header.payloadLen, header.identity)

/-- Where a reclaimer stands, with the owner of the header its second read
saw. -/
inductive ReclaimPhase where
  | idle
  | firstRead (index : ℕ) (first : SlotHeader)
  /-- Both reads agree: the probe comes next. -/
  | agreed (index : ℕ) (first : SlotHeader) (owner : Option ℕ)
  /-- The identity is gone: `force_release` comes next. -/
  | verified (index : ℕ) (owner : Option ℕ)
  /-- The frame area is cleared: the FREE header comes next. -/
  | cleared (index : ℕ) (owner : Option ℕ)

structure ReclaimState where
  /-- The processes that were started, with their true identities. -/
  processes : ℕ → Option ProcessIdentity
  /-- Which process runs under a pid. -/
  live : UInt32 → Option ℕ
  handles : ℕ → Option Recorded
  slots : ℕ → Stamped
  reclaimers : ℕ → ReclaimPhase

inductive ReclaimStep where
  | start (i : ℕ) (identity : ProcessIdentity)
  | exit (pid : UInt32)
  /-- A handle is made; the probe of its own process may fail. -/
  | handle (h i : ℕ) (fails : Bool)
  /-- The first write of a WRITING or PINNED header with an identity. -/
  | stamp (h index : ℕ) (state : SlotState) (seq : UInt64) (payloadLen : ℕ)
      (epoch : UInt32) (timestampNs : UInt64) (reservedSlots : UInt32)
  /-- The second write: the identity magic. -/
  | publish (index : ℕ)
  /-- A header without an identity: COMMITTED, FREE, or PINNED by a copying
  receive. -/
  | write (h index : ℕ) (state : SlotState) (seq : UInt64) (payloadLen : ℕ)
  /-- `reclaim_dead_writing` or `reclaim_dead_pinned` is called: its first
  header read. -/
  | reclaim (r : ℕ) (expected : SlotState) (index : ℕ)
  /-- The next access of a reclaimer; where it is the probe, it may fail. -/
  | advance (r : ℕ) (fails : Bool)
  deriving DecidableEq, Repr

namespace ReclaimState

/-- The process is running. -/
def Alive (s : ReclaimState) (i : ℕ) : Prop :=
  ((s.processes i).bind fun identity => s.live identity.pid) = some i

instance (s : ReclaimState) (i : ℕ) : Decidable (s.Alive i) :=
  inferInstanceAs (Decidable (_ = _))

/-- The probe, where it does not fail: the truth. -/
def probe (s : ReclaimState) (fails : Bool) (pid : UInt32) : Probe :=
  if fails then .failed
  else match (s.live pid).bind s.processes with
    | some identity => .present identity.startTime
    | none => .absent

def setSlot (s : ReclaimState) (index : ℕ) (slot : Stamped) : ReclaimState :=
  { s with slots := fun i => if i = index then slot else s.slots i }

def setReclaimer (s : ReclaimState) (r : ℕ) (phase : ReclaimPhase) : ReclaimState :=
  { s with reclaimers := fun i => if i = r then phase else s.reclaimers i }

/-- The next access of `reclaim_dead_*`. -/
def advance (s : ReclaimState) (r : ℕ) (fails : Bool) : ReclaimState :=
  match s.reclaimers r with
  | .idle => s
  | .firstRead index first =>
      let second := s.slots index
      if second.header.full = first.full then
        s.setReclaimer r (.agreed index first second.owner)
      else s.setReclaimer r .idle
  | .agreed index first owner =>
      if processLiveness (s.probe fails) first.fields.process = .gone then
        s.setReclaimer r (.verified index owner)
      else s.setReclaimer r .idle
  | .verified index owner => s.setReclaimer r (.cleared index owner)
  | .cleared index _ =>
      (s.setSlot index ⟨encodeHeader .free 0 0 none false, none⟩).setReclaimer r .idle

/-- One step. Headers are written by whoever runs, into whatever slot: the
guards of the writers are left out. -/
def step (s : ReclaimState) : ReclaimStep → ReclaimState
  | .start i identity =>
      if s.processes i = none ∧ s.live identity.pid = none ∧ identity.pid ≠ 0 ∧
          identity.startTime ≠ 0 then
        { s with
          processes := fun j => if j = i then some identity else s.processes j
          live := fun pid => if pid = identity.pid then some i else s.live pid }
      else s
  | .exit pid => { s with live := fun p => if p = pid then none else s.live p }
  | .handle h i fails =>
      match s.processes i with
      | some identity =>
          if s.Alive i ∧ s.handles h = none then
            let writer := currentProcessIdentity identity.pid (s.probe fails identity.pid)
            { s with handles := fun k => if k = h then some ⟨i, writer⟩ else s.handles k }
          else s
      | none => s
  | .stamp h index state seq payloadLen epoch timestampNs reservedSlots =>
      match s.handles h with
      | some handle =>
          if s.Alive handle.process then
            let identity : WriterIdentity :=
              ⟨handle.writer.pid, handle.writer.startTime, epoch, timestampNs, reservedSlots⟩
            s.setSlot index ⟨encodeHeader state seq payloadLen (some identity) false, some h⟩
          else s
      | none => s
  | .publish index =>
      let slot := s.slots index
      s.setSlot index
        { slot with header := { slot.header with identityMagic := SLOT_IDENTITY_MAGIC } }
  | .write h index state seq payloadLen =>
      match s.handles h with
      | some _ => s.setSlot index ⟨encodeHeader state seq payloadLen none false, some h⟩
      | none => s
  | .reclaim r expected index =>
      match s.reclaimers r with
      | .idle =>
          let first := (s.slots index).header
          if first.state = expected ∧ first.identity.isSome then
            s.setReclaimer r (.firstRead index first)
          else s
      | _ => s
  | .advance r fails => s.advance r fails

/-- A created region before any process has a handle on it. -/
def created : ReclaimState where
  processes _ := none
  live _ := none
  handles _ := none
  slots _ := ⟨encodeHeader .free 0 0 none false, none⟩
  reclaimers _ := .idle

/-- The handle's process is running. -/
def OwnerAlive (s : ReclaimState) (owner : Option ℕ) : Prop :=
  (owner.bind s.handles).any (fun handle => s.Alive handle.process) = true

instance (s : ReclaimState) (owner : Option ℕ) : Decidable (s.OwnerAlive owner) :=
  inferInstanceAs (Decidable (_ = _))

/-- The slot is held under a stamp. -/
def Held (s : ReclaimState) (index : ℕ) : Prop :=
  (s.slots index).header.state = .writing ∨ (s.slots index).header.state = .pinned

instance (s : ReclaimState) (index : ℕ) : Decidable (s.Held index) :=
  inferInstanceAs (Decidable (_ ∨ _))

/-- **A reclaimer releases no live owner's slot**: where its next access is a
write, the process that stamped the slot is not running. -/
def Spares (s : ReclaimState) : ReclaimPhase → Prop
  | .verified index _ | .cleared index _ =>
      s.Held index → ¬ s.OwnerAlive (s.slots index).owner
  | .idle | .firstRead _ _ | .agreed _ _ _ => True

def Harmless (s : ReclaimState) : ReclaimStep → Prop
  | .advance r _ => s.Spares (s.reclaimers r)
  | _ => True

/-- The condition on a reclaimer's next access: no probe answers about a
running process whose identity was recorded while the probe failed; and when
the slot is written, whoever holds it is who held it at the second read. -/
def Certain (s : ReclaimState) (fails : Bool) : ReclaimPhase → Prop
  | .agreed _ first owner => first.fields.startTime = 0 → fails = false → ¬ s.OwnerAlive owner
  | .verified index owner | .cleared index owner => s.Held index → (s.slots index).owner = owner
  | .idle | .firstRead _ _ => True

def Careful (s : ReclaimState) : ReclaimStep → Prop
  | .advance r fails => s.Certain fails (s.reclaimers r)
  | _ => True

instance (s : ReclaimState) : (phase : ReclaimPhase) → Decidable (s.Spares phase)
  | .verified _ _ | .cleared _ _ => inferInstanceAs (Decidable (_ → _))
  | .idle | .firstRead _ _ | .agreed _ _ _ => isTrue trivial

instance (s : ReclaimState) (fails : Bool) :
    (phase : ReclaimPhase) → Decidable (s.Certain fails phase)
  | .agreed _ _ _ => inferInstanceAs (Decidable (_ → _ → _))
  | .verified _ _ | .cleared _ _ => inferInstanceAs (Decidable (_ → _))
  | .idle | .firstRead _ _ => isTrue trivial

instance (s : ReclaimState) : (a : ReclaimStep) → Decidable (s.Harmless a)
  | .advance _ _ => inferInstanceAs (Decidable (s.Spares _))
  | .start _ _ | .exit _ | .handle _ _ _ | .stamp _ _ _ _ _ _ _ _ | .publish _ |
    .write _ _ _ _ _ | .reclaim _ _ _ => isTrue trivial

instance (s : ReclaimState) : (a : ReclaimStep) → Decidable (s.Careful a)
  | .advance _ fails => inferInstanceAs (Decidable (s.Certain fails _))
  | .start _ _ | .exit _ | .handle _ _ _ | .stamp _ _ _ _ _ _ _ _ | .publish _ |
    .write _ _ _ _ _ | .reclaim _ _ _ => isTrue trivial

/-! ## The invariant -/

/-- An identity field is unset, or what the handle recorded. -/
def StampOk (s : ReclaimState) (fields : WriterIdentity) (owner : Option ℕ) : Prop :=
  ∀ h, owner = some h → ∃ handle, s.handles h = some handle ∧
    (fields = .unset ∨ fields.process = handle.writer)

/-- Who held the slot is gone. -/
def OwnerGone (s : ReclaimState) (owner : Option ℕ) : Prop :=
  ∀ h, owner = some h → ∃ handle, s.handles h = some handle ∧ ¬ s.Alive handle.process

def PhaseOk (s : ReclaimState) : ReclaimPhase → Prop
  | .idle => True
  | .firstRead _ first => first.identity.isSome
  | .agreed _ first owner => s.StampOk first.fields owner
  | .verified _ owner | .cleared _ owner => s.OwnerGone owner

structure Inv (s : ReclaimState) : Prop where
  live : ∀ pid i, s.live pid = some i → ∃ identity, s.processes i = some identity ∧
    identity.pid = pid
  started : ∀ i identity, s.processes i = some identity →
    identity.pid ≠ 0 ∧ identity.startTime ≠ 0
  recorded : ∀ h handle, s.handles h = some handle →
    ∃ identity, s.processes handle.process = some identity ∧
      handle.writer.pid = identity.pid ∧
      (handle.writer.startTime = identity.startTime ∨ handle.writer.startTime = 0)
  slots : ∀ i, s.StampOk (s.slots i).header.fields (s.slots i).owner
  reclaimers : ∀ r, s.PhaseOk (s.reclaimers r)

variable {s s' : ReclaimState} {r index i h : ℕ} {phase : ReclaimPhase} {slot : Stamped}

theorem alive_iff {identity : ProcessIdentity} (hi : s.processes i = some identity) :
    s.Alive i ↔ s.live identity.pid = some i := by
  unfold Alive
  rw [hi]
  rfl

theorem Alive.of_live (halive : s'.Alive i) (hproc : s'.processes = s.processes)
    (hlive : ∀ pid j, s'.live pid = some j → s.live pid = some j) : s.Alive i := by
  unfold Alive at halive ⊢
  rw [hproc] at halive
  obtain ⟨identity, hid, hp⟩ := Option.bind_eq_some_iff.1 halive
  exact Option.bind_eq_some_iff.2 ⟨identity, hid, hlive _ _ hp⟩

theorem not_ownerAlive {owner : Option ℕ} (hgone : s.OwnerGone owner) : ¬ s.OwnerAlive owner := by
  intro halive
  unfold OwnerAlive at halive
  cases owner with
  | none => cases halive
  | some h =>
      obtain ⟨handle, hh, hdead⟩ := hgone h rfl
      rw [Option.bind_some, hh] at halive
      exact hdead (of_decide_eq_true halive)

/-! ### What no step takes back

Processes and handles stay what they are, and a process that is not running
never runs again. -/

structure Later (s s' : ReclaimState) : Prop where
  handles : ∀ h handle, s.handles h = some handle → s'.handles h = some handle
  dead : ∀ h handle, s.handles h = some handle → ¬ s.Alive handle.process →
    ¬ s'.Alive handle.process

theorem StampOk.later {fields : WriterIdentity} {owner : Option ℕ} (h : s.StampOk fields owner)
    (hl : Later s s') : s'.StampOk fields owner := by
  intro k hk
  obtain ⟨handle, hh, hf⟩ := h k hk
  exact ⟨handle, hl.handles k handle hh, hf⟩

theorem OwnerGone.later {owner : Option ℕ} (h : s.OwnerGone owner) (hl : Later s s') :
    s'.OwnerGone owner := by
  intro k hk
  obtain ⟨handle, hh, hd⟩ := h k hk
  exact ⟨handle, hl.handles k handle hh, hl.dead k handle hh hd⟩

theorem PhaseOk.later (h : s.PhaseOk phase) (hl : Later s s') : s'.PhaseOk phase := by
  cases phase with
  | idle => trivial
  | firstRead index first => exact h
  | agreed index first owner => exact StampOk.later h hl
  | verified index owner => exact OwnerGone.later h hl
  | cleared index owner => exact OwnerGone.later h hl

/-! ### The moves -/

theorem Inv.setSlot (hinv : Inv s) (hok : s.StampOk slot.header.fields slot.owner) :
    Inv (s.setSlot index slot) where
  live := hinv.live
  started := hinv.started
  recorded := hinv.recorded
  slots j := by
    show s.StampOk (if j = index then slot else s.slots j).header.fields
      (if j = index then slot else s.slots j).owner
    split
    · exact hok
    · exact hinv.slots j
  reclaimers := hinv.reclaimers

theorem Inv.setReclaimer (hinv : Inv s) (hok : s.PhaseOk phase) :
    Inv (s.setReclaimer r phase) where
  live := hinv.live
  started := hinv.started
  recorded := hinv.recorded
  slots := hinv.slots
  reclaimers j := by
    show s.PhaseOk (if j = r then phase else s.reclaimers j)
    split
    · exact hok
    · exact hinv.reclaimers j

/-- **Gone means gone.** The probe tells the truth, so where it finds an
identity gone that was recorded with its start time, the process is not
running. -/
theorem Inv.ownerGone (hinv : Inv s) {fails : Bool} {fields : WriterIdentity}
    {owner : Option ℕ} (hstamp : s.StampOk fields owner)
    (hgone : processLiveness (s.probe fails) fields.process = .gone)
    (hcare : fields.startTime = 0 → fails = false → ¬ s.OwnerAlive owner) :
    s.OwnerGone owner := by
  intro h hh
  obtain ⟨handle, hhandle, hfields⟩ := hstamp h hh
  refine ⟨handle, hhandle, fun halive => ?_⟩
  obtain ⟨identity, hproc, hpid, hstart⟩ := hinv.recorded h handle hhandle
  have hlive : s.live identity.pid = some handle.process := (alive_iff hproc).1 halive
  unfold processLiveness at hgone
  split at hgone
  · cases hgone
  rename_i hpid0
  cases fails with
  | true => cases hgone
  | false =>
      rcases hfields with rfl | hfields
      · exact hpid0 rfl
      · have hprobe : s.probe false fields.process.pid = .present identity.startTime := by
          rw [hfields, hpid]
          simp only [probe, hlive, Option.bind_some, hproc, Bool.false_eq_true, if_false]
        rw [hprobe] at hgone
        simp only at hgone
        split at hgone
        · cases hgone
        rename_i hne
        rw [hfields] at hne
        rcases hstart with hstart | hstart
        · exact hne hstart.symm
        · refine hcare ?_ rfl ?_
          · have : fields.startTime = handle.writer.startTime := congrArg (·.startTime) hfields
            rw [this, hstart]
          · unfold OwnerAlive
            rw [hh, Option.bind_some, hhandle]
            exact decide_eq_true halive

theorem Inv.advance (hinv : Inv s) {fails : Bool} (hcare : s.Certain fails (s.reclaimers r)) :
    Inv (s.advance r fails) := by
  have hr := hinv.reclaimers r
  unfold ReclaimState.advance
  split
  next => exact hinv
  next index first hphase =>
    rw [hphase] at hr
    simp only
    split
    next hsame =>
      -- The second read agrees, identity and all: its owner stamped it.
      refine hinv.setReclaimer ?_
      have hid : (s.slots index).header.identity = first.identity :=
        congrArg (fun full => full.2.2.2) hsame
      have hfields : (s.slots index).header.fields = first.fields := by
        replace hr : first.identity.isSome := hr
        unfold SlotHeader.identity at hid hr
        split at hid
        next =>
          split at hid
          next => exact Option.some.inj hid
          next hno =>
            rw [if_neg hno] at hr
            cases hr
        next =>
          split at hid
          next => cases hid
          next hno =>
            rw [if_neg hno] at hr
            cases hr
      show s.StampOk first.fields (s.slots index).owner
      rw [← hfields]
      exact hinv.slots index
    next => exact hinv.setReclaimer trivial
  next index first owner hphase =>
    rw [hphase] at hr hcare
    split
    next hgone => exact hinv.setReclaimer (hinv.ownerGone hr hgone hcare)
    next => exact hinv.setReclaimer trivial
  next index owner hphase =>
    rw [hphase] at hr
    exact hinv.setReclaimer hr
  next index owner hphase =>
    refine Inv.setReclaimer (hinv.setSlot ?_) trivial
    intro _ h
    cases h

theorem Inv.start (hinv : Inv s) (identity : ProcessIdentity) :
    Inv (s.step (.start i identity)) := by
  simp only [ReclaimState.step]
  split
  next hnew =>
    obtain ⟨hfresh, hpid, hpid0, hstart0⟩ := hnew
    have hkeep (j : ℕ) (id : ProcessIdentity) (hj : s.processes j = some id) :
        (if j = i then some identity else s.processes j) = some id := by
      have hji : j ≠ i := by
        rintro rfl
        rw [hfresh] at hj
        cases hj
      rw [if_neg hji, hj]
    have hlater : Later s
        { s with
          processes := fun j => if j = i then some identity else s.processes j
          live := fun pid => if pid = identity.pid then some i else s.live pid } := by
      refine ⟨fun _ _ hh => hh, fun h handle hh hdead halive => hdead ?_⟩
      obtain ⟨id, hid, -⟩ := hinv.recorded h handle hh
      have hlive := (alive_iff (hkeep _ id hid)).1 halive
      refine (alive_iff hid).2 ?_
      -- The pid now runs the new process, which is not this one.
      change (if id.pid = identity.pid then some i else s.live id.pid) =
        some handle.process at hlive
      split at hlive
      next =>
        have := Option.some.inj hlive
        subst this
        rw [hfresh] at hid
        cases hid
      next => exact hlive
    exact
      { live := fun pid j hj => by
          change (if pid = identity.pid then some i else s.live pid) = some j at hj
          split at hj
          next he =>
            cases hj
            exact ⟨identity, if_pos rfl, he.symm⟩
          next =>
            obtain ⟨id, hid, hp⟩ := hinv.live pid j hj
            exact ⟨id, hkeep j id hid, hp⟩
        started := fun j id hj => by
          change (if j = i then some identity else s.processes j) = some id at hj
          split at hj
          next =>
            cases hj
            exact ⟨hpid0, hstart0⟩
          next => exact hinv.started j id hj
        recorded := fun h handle hh => by
          obtain ⟨id, hid, hw⟩ := hinv.recorded h handle hh
          exact ⟨id, hkeep _ id hid, hw⟩
        slots := fun j => (hinv.slots j).later hlater
        reclaimers := fun r => (hinv.reclaimers r).later hlater }
  next => exact hinv

theorem Inv.exit (hinv : Inv s) (pid : UInt32) : Inv (s.step (.exit pid)) := by
  have hsub {p : UInt32} {j : ℕ} (h : (if p = pid then none else s.live p) = some j) :
      s.live p = some j := by
    split at h
    next => cases h
    next => exact h
  have hlater : Later s { s with live := fun p => if p = pid then none else s.live p } := by
    exact ⟨fun _ _ hh => hh, fun h handle hh hdead halive =>
      hdead (halive.of_live rfl fun _ _ hp => hsub hp)⟩
  exact
    { live := fun p j hj => hinv.live p j (hsub hj)
      started := hinv.started
      recorded := hinv.recorded
      slots := fun j => (hinv.slots j).later hlater
      reclaimers := fun r => (hinv.reclaimers r).later hlater }

theorem Inv.handle (hinv : Inv s) (fails : Bool) : Inv (s.step (.handle h i fails)) := by
  simp only [ReclaimState.step]
  split
  next identity hproc =>
    split
    next hnew =>
      obtain ⟨halive, hfree⟩ := hnew
      have hlater : Later s { s with
          handles := fun k =>
            if k = h then
              some ⟨i, currentProcessIdentity identity.pid (s.probe fails identity.pid)⟩
            else s.handles k } := by
        refine ⟨fun k handle hk => ?_, fun _ _ _ hdead => hdead⟩
        have hkh : k ≠ h := by
          rintro rfl
          rw [hfree] at hk
          cases hk
        exact (if_neg hkh).trans hk
      refine ⟨hinv.live, hinv.started, fun k handle hk => ?_, fun j => (hinv.slots j).later hlater,
        fun r => (hinv.reclaimers r).later hlater⟩
      change (if k = h then some (Recorded.mk i (currentProcessIdentity identity.pid
        (s.probe fails identity.pid))) else s.handles k) = some handle at hk
      split at hk
      next =>
        cases hk
        refine ⟨identity, hproc, rfl, ?_⟩
        -- The own probe finds the process, or fails.
        cases fails with
        | true => exact .inr rfl
        | false =>
            have hprobe : s.probe false identity.pid = .present identity.startTime := by
              simp only [probe, (alive_iff hproc).1 halive, Option.bind_some, hproc,
                Bool.false_eq_true, if_false]
            rw [hprobe]
            exact .inl rfl
      next => exact hinv.recorded k handle hk
    next => exact hinv
  next => exact hinv

/-- **Every careful step keeps the invariant.** -/
theorem Inv.step (hinv : Inv s) (a : ReclaimStep) (hcare : s.Careful a) : Inv (s.step a) := by
  cases a with
  | start i identity => exact hinv.start identity
  | exit pid => exact hinv.exit pid
  | handle h i fails => exact hinv.handle fails
  | stamp h index state seq payloadLen epoch timestampNs reservedSlots =>
      simp only [ReclaimState.step]
      split
      next handle hh =>
        split
        next =>
          refine hinv.setSlot fun k hk => ?_
          cases hk
          exact ⟨handle, hh, .inr rfl⟩
        next => exact hinv
      next => exact hinv
  | publish index => exact hinv.setSlot (hinv.slots index)
  | write h index state seq payloadLen =>
      simp only [ReclaimState.step]
      split
      next handle hh =>
        refine hinv.setSlot fun k hk => ?_
        cases hk
        exact ⟨handle, hh, .inl rfl⟩
      next => exact hinv
  | reclaim r expected index =>
      simp only [ReclaimState.step]
      split
      next =>
        split
        next hread => exact hinv.setReclaimer hread.2
        next => exact hinv
      next => exact hinv
  | advance r fails => exact hinv.advance hcare

theorem created_inv : Inv created where
  live _ _ h := nomatch h
  started _ _ h := nomatch h
  recorded _ _ h := nomatch h
  slots _ _ h := nomatch h
  reclaimers _ := trivial

/-- **A careful access of a reclaimer is harmless.** -/
theorem Inv.spares (hinv : Inv s) {fails : Bool} (hcare : s.Certain fails (s.reclaimers r)) :
    s.Spares (s.reclaimers r) := by
  have hr := hinv.reclaimers r
  cases hphase : s.reclaimers r with
  | idle | firstRead index first | agreed index first owner => trivial
  | verified index owner | cleared index owner =>
      rw [hphase] at hr hcare
      intro hheld
      rw [hcare hheld]
      exact not_ownerAlive hr

theorem Inv.harmless (hinv : Inv s) (a : ReclaimStep) (hcare : s.Careful a) : s.Harmless a := by
  cases a with
  | advance r fails => exact hinv.spares hcare
  | start | exit | handle | stamp | publish | write | reclaim => trivial

end ReclaimState

open ReclaimState

/-- A producer stamps slot 0 and dies; its pid is used again, and the new
process reclaims the slot. -/
def sampleReclaim : List ReclaimStep :=
  [.start 0 ⟨7, 100⟩, .handle 0 0 false, .stamp 0 0 .writing 0 58 1 0 1, .publish 0, .exit 7,
    .start 1 ⟨7, 200⟩, .handle 1 1 false, .reclaim 0 .writing 0, .advance 0 false,
    .advance 0 false, .advance 0 false, .advance 0 false]

/-- The probe fails while the producer's handle is made, and answers when the
slot is looked at. -/
def unprobedReclaim : List ReclaimStep :=
  [.start 0 ⟨7, 100⟩, .handle 0 0 true, .stamp 0 0 .writing 0 58 1 0 1, .publish 0,
    .start 1 ⟨8, 200⟩, .handle 1 1 false, .reclaim 0 .writing 0, .advance 0 false,
    .advance 0 false]

end Dsline
