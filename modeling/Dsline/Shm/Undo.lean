import Dsline.Shm.Leases
/-!
# A lease taken back

`abort` undoes `alloc`: the run in which a lease is made, written and taken
back is followed beside the run without it. While the lease is out the handle
stands one slot and one sequence further on than without it, and so do the
leases made behind it (`Beside`); once one of these is published the lease
cannot be taken back any more (`Past`).
-/

namespace Dsline

open PersistentShmChannel Effect

/-! ## What the two runs share -/

namespace World

/-- What of a world does not say where the handle writes next, what the slots
hold, or how far the mirrors are. -/
def erased (w : World) : World where
  chan :=
    { w.chan with
      head := 0
      tail := 0
      len := 0
      headCursor := 0
      tailCursor := 0
      floorCursor := 0
      nextSeq := 0 }
  region := { w.region with slots := fun _ => .empty }

/-- A refreshed world from its parts. -/
def restored (e : World) (depth head : ℕ) (seq : UInt64) (slots : ℕ → Slot) : World where
  chan := { (e.refreshed depth).chan with head, nextSeq := seq }
  region := { e.region with slots }

variable {w w' : World}

theorem refreshed_eq_restored (depth : ℕ) :
    w.refreshed depth = w.erased.restored depth w.chan.head w.chan.nextSeq w.region.slots := rfl

/-- Worlds that agree on all parts refresh to one. -/
theorem refreshed_congr (h : w'.erased = w.erased) (hhead : w'.chan.head = w.chan.head)
    (hseq : w'.chan.nextSeq = w.chan.nextSeq) (hslots : w'.region.slots = w.region.slots)
    (depth : ℕ) : w'.refreshed depth = w.refreshed depth := by
  rw [refreshed_eq_restored, refreshed_eq_restored, h, hhead, hseq, hslots]

theorem erased_config (h : w'.erased = w.erased) : w'.chan.config = w.chan.config := by
  have hconf := congrArg (fun v : World => v.chan.config) h
  exact hconf

theorem erased_frameCapacity (h : w'.erased = w.erased) :
    w'.region.frameCapacity = w.region.frameCapacity := by
  have hfit := congrArg (fun v : World => v.region.frameCapacity) h
  exact hfit

theorem erased_head (h : w'.erased = w.erased) : w'.region.head = w.region.head := by
  have hhead := congrArg (fun v : World => v.region.head) h
  exact hhead

theorem erased_published {lease lease' : ShmWriteLease} {header header' : Bytes}
    (h : w'.erased = w.erased) (hw : w.Ready) (hw' : w'.Ready) :
    (w'.published lease' header').erased = (w.published lease header).erased := by
  have hcursor : w'.chan.headCursor = w.chan.headCursor :=
    hw'.mirror.trans ((erased_head h).trans hw.mirror.symm)
  have hput := congrArg (fun v : World => ({ v with region :=
    { v.region with head := wrappingAdd w.chan.headCursor 1 } } : World)) h
  simp only [published, hcursor]
  exact hput

end World

section Shared

variable {w w' : World} {size : ℕ}

theorem Still.erased (h : Still w w') : w'.erased = w.erased := by
  have hsame := congrArg World.erased h.refreshed
  exact hsame

theorem mayLease_erased : MayLease size w.erased ↔ MayLease size w :=
  ⟨fun h => ⟨h.1, h.2, h.3, h.4, h.5, h.6, h.7⟩, fun h => ⟨h.1, h.2, h.3, h.4, h.5, h.6, h.7⟩⟩

theorem Still.head (h : Still w w') : w'.chan.head = w.chan.head := by
  have hhead := congrArg (fun v : World => v.chan.head) h.refreshed
  exact hhead

theorem Still.nextSeq (h : Still w w') : w'.chan.nextSeq = w.chan.nextSeq := by
  have hseq := congrArg (fun v : World => v.chan.nextSeq) h.refreshed
  exact hseq

end Shared

namespace LeaseState

variable [Checksum] {s left right : LeaseState} {name k : ℕ} {lease : ShmWriteLease}
  {c : LeaseCall}

/-! ## The runs -/

/-- The calls of a run that are accepted and are not about this lease. -/
def kept (name : ℕ) : LeaseState → List LeaseCall → List LeaseCall
  | _, [] => []
  | s, c :: calls =>
      if s.accepts c ∧ c.name ≠ name then c :: kept name (s.next c) calls
      else kept name (s.next c) calls

/-- The call makes no lease under this name. -/
def LeavesName (name : ℕ) : LeaseCall → Prop
  | .alloc _ n _ => n ≠ name
  | _ => True

/-- How many of the slots leased behind a lease stay so, one call on. -/
def reservedNext (s : LeaseState) (c : LeaseCall) (k : ℕ) : ℕ :=
  if s.accepts c then
    match c with
    | .alloc .. => k + 1
    | .abort _ => k - 1
    | _ => k
  else k

/-- How many of the slots a run leases it does not give back, counted from
`k` on. -/
def reserved : LeaseState → List LeaseCall → ℕ → ℕ
  | _, [], k => k
  | s, c :: calls, k => reserved (s.next c) calls (s.reservedNext c k)

/-! ## Writes into the frame area -/

section Payload

variable {region : Region} {index offset i : ℕ} {bytes : Bytes}

omit [Checksum] in
theorem state_setPayload :
    (region.setPayload index offset bytes).state i = region.state i := by
  simp only [Region.setPayload, Region.state, Region.header, Region.setSlot]
  split
  · rename_i he
    rw [he]
  · rfl

omit [Checksum] in
/-- A release clears what was written. -/
theorem released_setPayload {n : ℕ} (h : offset + bytes.length ≤ n) :
    ((region.setPayload index offset bytes).slots i).released n =
      (region.slots i).released n := by
  simp only [Region.setPayload, Region.setSlot]
  split
  · rename_i he
    rw [he]
    simp only [Slot.released, Area.clear_write h]
  · rfl

omit [Checksum] in
/-- A lease writes into the frame area. -/
theorem Tidy.write_fits {a : ShmWriteLease} (ht : s.Tidy)
    (hsmall : a.payloadLen ≤ s.world.chan.config.slotSize) (hmay : MayWrite a offset bytes) :
    FRAME_HEADER_LEN + offset + bytes.length ≤ s.world.region.frameCapacity := by
  obtain ⟨-, hoffset, hlen⟩ := hmay
  have hfits := ht.fits
  omega

end Payload

/-! ## The slots behind a lease -/

omit [Checksum] in
/-- **The handle stands `k` slots behind the lease**, and those are taken. -/
structure Ahead (name : ℕ) (lease : ShmWriteLease) (k : ℕ) (s : LeaseState) : Prop where
  held : s.leases name = some lease
  unsealed : lease.isSealed = false
  room : k < s.world.chan.config.capacity
  head : s.world.chan.head = (lease.index + (k + 1)) % s.world.chan.config.capacity
  taken : ∀ j ≤ k, s.world.region.state
    ((lease.index + j) % s.world.chan.config.capacity) ≠ .free

omit [Checksum] in
/-- The slots of two places behind a lease. -/
theorem Ahead.place_ne (h : Ahead name lease k s) {i j : ℕ} (hi : i ≤ k) (hj : j ≤ k)
    (hne : i ≠ j) : (lease.index + i) % s.world.chan.config.capacity ≠
      (lease.index + j) % s.world.chan.config.capacity := by
  have hroom := h.room
  exact Window.mod_ne (t := lease.index) (by omega) (by omega) (by omega) (by omega) (by omega)

omit [Checksum] in
/-- The place of a lease is its index. -/
theorem Ahead.place_zero (h : Ahead name lease k s) (ht : s.Tidy) :
    (lease.index + 0) % s.world.chan.config.capacity = lease.index :=
  Nat.mod_eq_of_lt (ht.owned name lease h.held h.unsealed).2

omit [Checksum] in
/-- The newest lease is at the last place. -/
theorem Ahead.newest_index {a : ShmWriteLease} (h : Ahead name lease k s)
    (ha : Newest s.world a) :
    a.index = (lease.index + k) % s.world.chan.config.capacity := by
  have hroom := h.room
  rw [ha.2, h.head]
  have hpred := Window.mod_pred_mod (n := s.world.chan.config.capacity)
    (c := lease.index + (k + 1)) (by omega) (by omega)
  rw [hpred]
  rfl

omit [Checksum] in
/-- Another lease is the newest only with slots behind the lease. -/
theorem Ahead.pos_of_newest {a : ShmWriteLease} {n : ℕ} (h : Ahead name lease k s) (ht : s.Tidy)
    (hn : n ≠ name) (hl : s.leases n = some a) (ha : Newest s.world a) : 0 < k := by
  refine Nat.pos_of_ne_zero fun hk => hn ?_
  subst hk
  have hidx := h.newest_index ha
  rw [h.place_zero ht] at hidx
  exact ht.distinct n name a lease hl h.held ha.1 h.unsealed hidx

/-- **One call**, as long as the lease stays out. -/
theorem Ahead.step (h : Ahead name lease k s) (ht : s.Tidy) (hc : LeavesName name c)
    (hheld : (s.next c).leases name = some lease) :
    Ahead name lease (s.reservedNext c k) (s.next c) := by
  have hroom := h.room
  unfold reservedNext accepts
  unfold LeaseState.next at hheld ⊢
  cases c with
  | alloc host n size =>
      rcases s.call_alloc with ⟨d, -, hfree, hcall⟩ | ⟨w, hstill, hcall⟩
      · rw [hcall] at hheld ⊢
        -- The head would be back at the lease, whose slot is not FREE.
        have hlast : k + 1 < s.world.chan.config.capacity := by
          refine Nat.lt_of_le_of_ne hroom fun he => h.taken 0 (Nat.zero_le _) ?_
          rw [h.head, he, Nat.add_mod_right] at hfree
          exact hfree
        refine ⟨hheld, h.unsealed, hlast, ?_, fun j hj => ?_⟩
        · show (s.world.chan.head + 1) % s.world.chan.config.capacity = _
          rw [h.head, Window.mod_succ_mod]
          rfl
        · have hj' : j ≤ k + 1 := hj
          by_cases he : (lease.index + j) % s.world.chan.config.capacity = s.world.chan.head
          · have hstate : ((s.world.refreshed d).leased host size).region.state
                s.world.chan.head = .writing := World.state_leased
            rw [← he] at hstate
            intro hf
            cases hstate.symm.trans hf
          · have hjk : j ≤ k := by
              refine Nat.lt_succ_iff.1 (Nat.lt_of_le_of_ne hj' fun hlast' => he ?_)
              rw [hlast', h.head]
            exact fun hf => h.taken j hjk
              ((World.state_of_slots (World.slots_leased_of_ne he)).symm.trans hf)
      · rw [hcall] at hheld ⊢
        refine ⟨hheld, h.unsealed, ?_, ?_, ?_⟩
        · show k < w.chan.config.capacity
          rw [hstill.config]
          exact hroom
        · show w.chan.head = (lease.index + (k + 1)) % w.chan.config.capacity
          rw [hstill.config, hstill.head]
          exact h.head
        · show ∀ j ≤ k, w.region.state ((lease.index + j) % w.chan.config.capacity) ≠ .free
          rw [hstill.config, hstill.region]
          exact h.taken
  | write n offset bytes =>
      rcases s.call_write with ⟨a, ha, hmay, hcall⟩ | hcall
      · rw [hcall] at hheld ⊢
        refine ⟨hheld, h.unsealed, hroom, h.head, fun j hj => ?_⟩
        rw [state_setPayload]
        exact h.taken j hj
      · rw [hcall]
        exact h
  | publish n =>
      rcases s.call_publish with ⟨a, header, ha, hmay, hcall⟩ | hcall
      · rw [hcall] at hheld ⊢
        refine ⟨hheld, h.unsealed, hroom, h.head, fun j hj => ?_⟩
        simp only [put, World.published, Region.storeHead, Region.state, Region.header,
          Region.setSlot]
        split
        · exact fun hf => by cases hf
        · exact h.taken j hj
      · rw [hcall]
        exact h
  | abort n =>
      rcases s.call_abort with ⟨a, ha, hnewest, hcall⟩ | ⟨-, hcall⟩
      · rw [hcall] at hheld ⊢
        have hn : n ≠ name := by
          rintro rfl
          simp only [put_leases_self] at hheld
          cases hheld
        have hpos := h.pos_of_newest ht hn ha hnewest
        have hidx := h.newest_index hnewest
        refine ⟨hheld, h.unsealed, ?_, ?_, fun j hj => ?_⟩
        · show k - 1 < s.world.chan.config.capacity
          omega
        · show a.index = (lease.index + (k - 1 + 1)) % s.world.chan.config.capacity
          rw [hidx, Nat.sub_add_cancel hpos]
        · have hjk : j ≤ k - 1 := hj
          have hne : (lease.index + j) % s.world.chan.config.capacity ≠ a.index := by
            rw [hidx]
            exact h.place_ne (by omega) (Nat.le_refl _) (by omega)
          exact fun hf => h.taken j (by omega)
            ((World.state_of_slots (World.slots_aborted_of_ne hne)).symm.trans hf)
      · rw [hcall] at hheld ⊢
        exact ⟨hheld, h.unsealed, hroom, h.head, h.taken⟩

omit [Checksum] in
/-- The lease that may be taken back: nothing is reserved behind it. -/
theorem Ahead.newest (h : Ahead name lease 0 s) (ht : s.Tidy) : Newest s.world lease := by
  have hroom := h.room
  refine ⟨h.unsealed, ?_⟩
  have hpred := Window.mod_pred_mod (n := s.world.chan.config.capacity)
    (c := lease.index + (0 + 1)) (by omega) (by omega)
  rw [h.head, hpred]
  exact (h.place_zero ht).symm

/-! ## A lease that cannot be taken back -/

omit [Checksum] in
/-- The lease was published or given up, or a slot behind it is published. -/
def Past (name : ℕ) (lease : ShmWriteLease) (s : LeaseState) : Prop :=
  (∀ a, s.leases name = some a → a.isSealed = true) ∨
    ∃ k j, Ahead name lease k s ∧ 1 ≤ j ∧ j ≤ k ∧
      s.world.region.state ((lease.index + j) % s.world.chan.config.capacity) = .committed

/-- It is not taken back. -/
theorem Past.not_accepts (h : Past name lease s) : s.accepts (.abort name) = false := by
  unfold accepts
  rcases s.call_abort with ⟨a, ha, hnewest, hcall⟩ | ⟨-, hcall⟩
  · rw [hcall]
    rcases h with h | ⟨k, j, hahead, h1, hk, -⟩
    · exact absurd (hnewest.1.symm.trans (h a ha)) Bool.false_ne_true
    · rw [hahead.held, Option.some.injEq] at ha
      subst ha
      have hidx := hahead.newest_index hnewest
      have hne := hahead.place_ne (Nat.zero_le k) (Nat.le_refl k) (by omega)
      -- The index of a lease is a place of the ring.
      have hmod : lease.index % s.world.chan.config.capacity = lease.index := by
        rw [hidx, Nat.mod_mod]
      rw [Nat.add_zero, hmod] at hne
      exact absurd hidx hne
  · rw [hcall]

/-- What a call does to the lease of a name: nothing, or it publishes it, or
it gives it up. -/
theorem leases_next (hc : LeavesName name c) :
    (s.next c).leases name = s.leases name ∨
      ∀ a, (s.next c).leases name = some a → a.isSealed = true := by
  unfold LeaseState.next
  cases c with
  | alloc host n size =>
      rcases s.call_alloc with ⟨d, -, -, hcall⟩ | ⟨w, -, hcall⟩
      · rw [hcall]
        exact .inl (put_leases_of_ne (Ne.symm hc))
      · rw [hcall]
        exact .inl rfl
  | write n offset bytes =>
      rcases s.call_write with ⟨a, -, -, hcall⟩ | hcall
      · rw [hcall]
        exact .inl rfl
      · rw [hcall]
        exact .inl rfl
  | publish n =>
      rcases s.call_publish with ⟨a, header, -, -, hcall⟩ | hcall
      · rw [hcall]
        by_cases hn : name = n
        · subst hn
          refine .inr fun b hb => ?_
          rw [put_leases_self] at hb
          cases hb
          rfl
        · exact .inl (put_leases_of_ne hn)
      · rw [hcall]
        exact .inl rfl
  | abort n =>
      have hput (w : World) : (s.put n none w).leases name = s.leases name ∨
          ∀ b, (s.put n none w).leases name = some b → b.isSealed = true := by
        by_cases hn : name = n
        · subst hn
          refine .inr fun b hb => ?_
          rw [put_leases_self] at hb
          cases hb
        · exact .inl (put_leases_of_ne hn)
      rcases s.call_abort with ⟨a, -, -, hcall⟩ | ⟨-, hcall⟩
      · rw [hcall]
        exact hput _
      · rw [hcall]
        exact hput _

/-- A lease that was published or given up stays so. -/
theorem sealed_step (h : ∀ a, s.leases name = some a → a.isSealed = true)
    (hc : LeavesName name c) : ∀ a, (s.next c).leases name = some a → a.isSealed = true := by
  rcases leases_next hc with hsame | hsealed
  · rw [hsame]
    exact h
  · exact hsealed

/-- A lease that is out stays out until it is published or given up. -/
theorem held_or_sealed (h : Ahead name lease k s) (hc : LeavesName name c) :
    (s.next c).leases name = some lease ∨
      ∀ a, (s.next c).leases name = some a → a.isSealed = true :=
  (leases_next hc).imp_left fun hsame => hsame.trans h.held

/-- A published slot behind the lease stays there. -/
theorem committed_step {j : ℕ} (h : Ahead name lease k s) (ht : s.Tidy) (hj : j ≤ k)
    (hcommitted : s.world.region.state ((lease.index + j) % s.world.chan.config.capacity) =
      .committed) :
    (s.next c).world.region.state ((lease.index + j) % s.world.chan.config.capacity) =
      .committed ∧ (s.accepts c = true → ∀ n, c = .abort n → j < k) := by
  unfold accepts LeaseState.next
  -- A lease that a call may use has a WRITING slot, so its slot is another.
  have hnot : s.world.region.state ((lease.index + j) % s.world.chan.config.capacity) ≠
      .writing := by
    rw [hcommitted]
    exact fun hw => nomatch hw
  have hother {n : ℕ} {a : ShmWriteLease} (ha : s.leases n = some a) (hu : a.isSealed = false) :
      (lease.index + j) % s.world.chan.config.capacity ≠ a.index := (ht.index_ne ha hu hnot).symm
  cases c with
  | alloc host n size =>
      refine ⟨?_, fun _ _ he => nomatch he⟩
      rcases s.call_alloc with ⟨d, -, hfree, hcall⟩ | ⟨w, hstill, hcall⟩
      · rw [hcall]
        have hne : (lease.index + j) % s.world.chan.config.capacity ≠ s.world.chan.head := by
          intro he
          rw [← he, hcommitted] at hfree
          cases hfree
        exact (World.state_of_slots (World.slots_leased_of_ne hne)).trans hcommitted
      · rw [hcall]
        show w.region.state _ = .committed
        rw [hstill.region]
        exact hcommitted
  | write n offset bytes =>
      refine ⟨?_, fun _ _ he => nomatch he⟩
      rcases s.call_write with ⟨a, ha, hmay, hcall⟩ | hcall
      · rw [hcall]
        exact state_setPayload.trans hcommitted
      · rw [hcall]
        exact hcommitted
  | publish n =>
      refine ⟨?_, fun _ _ he => nomatch he⟩
      rcases s.call_publish with ⟨a, header, ha, hmay, hcall⟩ | hcall
      · rw [hcall]
        exact (World.state_of_slots
          (World.slots_published_of_ne (hother ha hmay.unsealed))).trans hcommitted
      · rw [hcall]
        exact hcommitted
  | abort n =>
      rcases s.call_abort with ⟨a, ha, hnewest, hcall⟩ | ⟨-, hcall⟩
      · rw [hcall]
        have hne := hother ha hnewest.1
        refine ⟨?_, fun _ _ _ => ?_⟩
        · exact (World.state_of_slots (World.slots_aborted_of_ne hne)).trans hcommitted
        · refine Nat.lt_of_le_of_ne hj fun he => hne ?_
          rw [h.newest_index hnewest, he]
      · rw [hcall]
        exact ⟨hcommitted, fun hf => nomatch hf⟩

/-- **It stays so.** -/
theorem Past.step (h : Past name lease s) (ht : s.Tidy) (hc : LeavesName name c) :
    Past name lease (s.next c) := by
  rcases h with h | ⟨k, j, hahead, h1, hk, hcommitted⟩
  · exact .inl (sealed_step h hc)
  rcases held_or_sealed hahead hc with hheld | hsealed
  · have hnext := hahead.step ht hc hheld
    obtain ⟨hstate, hlast⟩ := committed_step (c := c) hahead ht hk hcommitted
    refine .inr ⟨_, j, hnext, h1, ?_, ?_⟩
    · unfold reservedNext
      split
      · rename_i hacc
        cases c with
        | alloc host n size => exact Nat.le_succ_of_le hk
        | abort n => exact Nat.le_sub_one_of_lt (hlast hacc n rfl)
        | write n offset bytes => exact hk
        | publish n => exact hk
      · exact hk
    · rw [s.next_config c]
      exact hstate
  · exact .inl hsealed

/-! ## The run beside the one without the lease -/

omit [Checksum] in
/-- **One slot and one sequence further on**: the state of a run in which a
lease is out, with `k` slots leased behind it, and the state of the run
without it. -/
structure Beside (name : ℕ) (lease : ShmWriteLease) (k : ℕ) (left right : LeaseState) :
    Prop where
  ahead : Ahead name lease k left
  small : lease.payloadLen ≤ left.world.chan.config.slotSize
  seq : left.world.chan.nextSeq = lease.seq + UInt64.ofNat (k + 1)
  erased : right.world.erased = left.world.erased
  rightHead : right.world.chan.head = (lease.index + k) % left.world.chan.config.capacity
  rightSeq : right.world.chan.nextSeq = lease.seq + UInt64.ofNat k
  writing : ∀ j ≤ k, left.world.region.state
    ((lease.index + j) % left.world.chan.config.capacity) = .writing
  free : right.world.region.state
    ((lease.index + k) % left.world.chan.config.capacity) = .free
  outside : ∀ i, (∀ j ≤ k, i ≠ (lease.index + j) % left.world.chan.config.capacity) →
    right.world.region.slots i = left.world.region.slots i
  padding : ∀ i, (right.world.region.slots i).released left.world.region.frameCapacity =
    (left.world.region.slots i).released left.world.region.frameCapacity
  leases : ∀ n a, n ≠ name → left.leases n = some a →
    (right.leases n = some a ∧ (a.isSealed = false →
      ∀ j ≤ k, a.index ≠ (lease.index + j) % left.world.chan.config.capacity)) ∨
    ∃ j < k, a.isSealed = false ∧ a.payloadLen ≤ left.world.chan.config.slotSize ∧
      a.index = (lease.index + (j + 1)) % left.world.chan.config.capacity ∧
      a.seq = lease.seq + UInt64.ofNat (j + 1) ∧
      right.leases n = some { a with
        index := (lease.index + j) % left.world.chan.config.capacity
        seq := lease.seq + UInt64.ofNat j }

omit [Checksum] in
/-- **The lease is made.** -/
theorem beside_start {host : Host} {size d : ℕ} (ht : s.Tidy) (hmay : MayLease size s.world)
    (hfree : s.world.region.state s.world.chan.head = .free) :
    Beside name ⟨s.world.chan.head, s.world.chan.nextSeq, size, false⟩ 0
      (s.put name (some ⟨s.world.chan.head, s.world.chan.nextSeq, size, false⟩)
        ((s.world.refreshed d).leased host size)) s := by
  have hplace : (s.world.chan.head + 0) % s.world.chan.config.capacity = s.world.chan.head :=
    Nat.mod_eq_of_lt ht.ready.head
  have hstate : ((s.world.refreshed d).leased host size).region.state s.world.chan.head =
      .writing := World.state_leased
  have hnot : s.world.region.state s.world.chan.head ≠ .writing := by
    rw [hfree]
    exact fun hw => nomatch hw
  have hplaces : ∀ j ≤ 0, (s.world.chan.head + j) % s.world.chan.config.capacity =
      s.world.chan.head := by
    intro j hj
    rw [Nat.le_zero.1 hj]
    exact hplace
  refine ⟨⟨put_leases_self, rfl, ?_, rfl, fun j hj => ?_⟩, hmay.fits, rfl, rfl, hplace.symm,
    (UInt64.add_zero _).symm, fun j hj => ?_, ?_, fun i hi => ?_, fun i => ?_,
    fun n a hn ha => ?_⟩
  · exact Nat.lt_of_le_of_lt (Nat.zero_le _) ht.ready.head
  · show ((s.world.refreshed d).leased host size).region.state
      ((s.world.chan.head + j) % s.world.chan.config.capacity) ≠ .free
    rw [hplaces j hj, hstate]
    exact fun hf => nomatch hf
  · show ((s.world.refreshed d).leased host size).region.state
      ((s.world.chan.head + j) % s.world.chan.config.capacity) = .writing
    rw [hplaces j hj, hstate]
  · show s.world.region.state ((s.world.chan.head + 0) % s.world.chan.config.capacity) = .free
    rw [hplace, hfree]
  · have hne : i ≠ s.world.chan.head := fun he => hi 0 (Nat.le_refl _) (he.trans hplace.symm)
    exact (World.slots_leased_of_ne hne).symm
  · exact World.released_leased.symm
  · have hold : s.leases n = some a := (put_leases_of_ne hn).symm.trans ha
    refine .inl ⟨hold, fun hu j hj he => ?_⟩
    exact ht.index_ne hold hu hnot (he.trans (hplaces j hj))

section Step

variable {w : World} {leases : ℕ → Option ShmWriteLease}

omit [Checksum] in
/-- A call that is refused. -/
theorem Beside.still (h : Beside name lease k left right) (hw : Still left.world w)
    (hheld : leases name = some lease)
    (hl : ∀ n a, leases n = some a → left.leases n = some a) :
    Beside name lease k ⟨w, leases⟩ right := by
  have hconf := hw.config
  have hregion := hw.region
  have hcap : w.chan.config.capacity = left.world.chan.config.capacity := by rw [hconf]
  refine ⟨⟨hheld, h.ahead.unsealed, ?_, ?_, ?_⟩, ?_, hw.nextSeq.trans h.seq,
    h.erased.trans hw.erased.symm, ?_, h.rightSeq, ?_, ?_, ?_, ?_, fun n a hn ha => ?_⟩
  · exact hcap ▸ h.ahead.room
  · show w.chan.head = (lease.index + (k + 1)) % w.chan.config.capacity
    rw [hw.head, hcap]
    exact h.ahead.head
  · show ∀ j ≤ k, w.region.state ((lease.index + j) % w.chan.config.capacity) ≠ .free
    rw [hcap, hregion]
    exact h.ahead.taken
  · show lease.payloadLen ≤ w.chan.config.slotSize
    rw [hconf]
    exact h.small
  · show right.world.chan.head = (lease.index + k) % w.chan.config.capacity
    rw [hcap]
    exact h.rightHead
  · show ∀ j ≤ k, w.region.state ((lease.index + j) % w.chan.config.capacity) = .writing
    rw [hcap, hregion]
    exact h.writing
  · show right.world.region.state ((lease.index + k) % w.chan.config.capacity) = .free
    rw [hcap]
    exact h.free
  · show ∀ i, (∀ j ≤ k, i ≠ (lease.index + j) % w.chan.config.capacity) →
      right.world.region.slots i = w.region.slots i
    rw [hcap, hregion]
    exact h.outside
  · show ∀ i, (right.world.region.slots i).released w.region.frameCapacity =
      (w.region.slots i).released w.region.frameCapacity
    rw [hregion]
    exact h.padding
  · have hold := h.leases n a hn (hl n a ha)
    simp only [hconf]
    exact hold

omit [Checksum] in
theorem Beside.capacity (h : Beside name lease k left right) :
    right.world.chan.config.capacity = left.world.chan.config.capacity := by
  rw [World.erased_config h.erased]

omit [Checksum] in
/-- A slot is leased behind the lease. -/
theorem Beside.alloc {host : Host} {n size d d' : ℕ} {left' right' : LeaseState}
    (h : Beside name lease k left right) (ht : left.Tidy) (hn : n ≠ name)
    (hmay : MayLease size left.world)
    (hfree : left.world.region.state left.world.chan.head = .free)
    (hleft : left' = left.put n
      (some ⟨left.world.chan.head, left.world.chan.nextSeq, size, false⟩)
      ((left.world.refreshed d).leased host size))
    (hright : right' = right.put n
      (some ⟨right.world.chan.head, right.world.chan.nextSeq, size, false⟩)
      ((right.world.refreshed d').leased host size))
    (hahead : Ahead name lease (k + 1) left') : Beside name lease (k + 1) left' right' := by
  subst hleft hright
  have hroom : k + 1 < left.world.chan.config.capacity := hahead.room
  have hhead := h.ahead.head
  have hplace {i j : ℕ} (hi : i ≤ k + 1) (hj : j ≤ k + 1) (hne : i ≠ j) :
      (lease.index + i) % left.world.chan.config.capacity ≠
        (lease.index + j) % left.world.chan.config.capacity :=
    hahead.place_ne hi hj hne
  have hleftSlot (i : ℕ) (hi : i ≠ (lease.index + (k + 1)) % left.world.chan.config.capacity) :
      ((left.world.refreshed d).leased host size).region.slots i =
        left.world.region.slots i :=
    World.slots_leased_of_ne (hhead ▸ hi)
  have hrightSlot (i : ℕ) (hi : i ≠ (lease.index + k) % left.world.chan.config.capacity) :
      ((right.world.refreshed d').leased host size).region.slots i =
        right.world.region.slots i :=
    World.slots_leased_of_ne (h.rightHead ▸ hi)
  have hnot : left.world.region.state left.world.chan.head ≠ .writing := by
    rw [hfree]
    exact fun hw => nomatch hw
  refine ⟨hahead, h.small, ?_, h.erased, ?_, ?_, fun j hj => ?_, ?_, fun i hi => ?_, fun i => ?_,
    fun m a hm ha => ?_⟩
  · show left.world.chan.nextSeq + 1 = _
    rw [h.seq, UInt64.add_assoc, ← ofNat_succ]
  · show (right.world.chan.head + 1) % right.world.chan.config.capacity =
      (lease.index + (k + 1)) % left.world.chan.config.capacity
    rw [h.rightHead, h.capacity, Window.mod_succ_mod]
    rfl
  · show right.world.chan.nextSeq + 1 = _
    rw [h.rightSeq, UInt64.add_assoc, ← ofNat_succ]
  · -- The last place is the slot leased now; the others are as they were.
    rcases Nat.lt_or_ge k j with hlt | hle
    · obtain rfl : j = k + 1 := by omega
      exact hhead ▸ World.state_leased
    · have hslot := hleftSlot _ (hplace (by omega : j ≤ k + 1) (Nat.le_refl _) (by omega))
      exact (World.state_of_slots hslot).trans (h.writing j hle)
  · have hslot := hrightSlot _ (hplace (Nat.le_refl (k + 1)) (by omega : k ≤ k + 1) (by omega))
    have hold := h.outside _ fun j hj =>
      hplace (Nat.le_refl (k + 1)) (by omega : j ≤ k + 1) (by omega)
    exact (World.state_of_slots (hslot.trans hold)).trans (hhead ▸ hfree)
  · show ((right.world.refreshed d').leased host size).region.slots i =
      ((left.world.refreshed d).leased host size).region.slots i
    rw [hrightSlot i (hi k (by omega)), hleftSlot i (hi (k + 1) (Nat.le_refl _))]
    exact h.outside i fun j hj => hi j (by omega)
  · exact World.released_leased.trans ((h.padding i).trans World.released_leased.symm)
  · by_cases hmn : m = n
    · subst hmn
      rw [put_leases_self, Option.some.injEq] at ha
      subst ha
      refine .inr ⟨k, Nat.lt_succ_self k, rfl, hmay.fits, hhead, h.seq, ?_⟩
      rw [put_leases_self, h.rightHead, h.rightSeq]
      rfl
    · rw [put_leases_of_ne hmn] at ha
      rw [put_leases_of_ne hmn]
      rcases h.leases m a hm ha with ⟨hr, hout⟩ | ⟨j, hj, hnewer⟩
      · refine .inl ⟨hr, fun hu j hj he => ?_⟩
        rcases Nat.lt_or_ge k j with hlt | hle
        · obtain rfl : j = k + 1 := by omega
          exact ht.index_ne ha hu hnot (he.trans hhead.symm)
        · exact hout hu j hle he
      · exact .inr ⟨j, Nat.lt_succ_of_lt hj, hnewer⟩

omit [Checksum] in
/-- A write through the lease. -/
theorem Beside.writeOwn {offset : ℕ} {bytes : Bytes} (h : Beside name lease k left right)
    (ht : left.Tidy) (hmay : MayWrite lease offset bytes)
    (hahead : Ahead name lease k ⟨⟨left.world.chan, left.world.region.setPayload lease.index
      (FRAME_HEADER_LEN + offset) bytes⟩, left.leases⟩) :
    Beside name lease k ⟨⟨left.world.chan, left.world.region.setPayload lease.index
      (FRAME_HEADER_LEN + offset) bytes⟩, left.leases⟩ right := by
  have hzero := h.ahead.place_zero ht
  refine ⟨hahead, h.small, h.seq, h.erased, h.rightHead, h.rightSeq, fun j hj => ?_, h.free,
    fun i hi => ?_, fun i => ?_, h.leases⟩
  · exact state_setPayload.trans (h.writing j hj)
  · have hne : i ≠ lease.index := fun he => hi 0 (Nat.zero_le _) (he.trans hzero.symm)
    exact (h.outside i hi).trans (Region.setSlot_slots_of_ne hne).symm
  · exact (h.padding i).trans (released_setPayload (ht.write_fits h.small hmay)).symm

omit [Checksum] in
/-- **A slot that both runs hold**, outside the places of the lease, is
rewritten by both. -/
theorem Beside.rewriteShared {left' right' : LeaseState} (h : Beside name lease k left right)
    (index : ℕ) (slot : Slot)
    (hindex : ∀ j ≤ k, index ≠ (lease.index + j) % left.world.chan.config.capacity)
    (hahead : Ahead name lease k left')
    (hconf : left'.world.chan.config = left.world.chan.config)
    (hfit : left'.world.region.frameCapacity = left.world.region.frameCapacity)
    (hseq : left'.world.chan.nextSeq = left.world.chan.nextSeq)
    (hrightHead : right'.world.chan.head = right.world.chan.head)
    (hrightSeq : right'.world.chan.nextSeq = right.world.chan.nextSeq)
    (herased : right'.world.erased = left'.world.erased)
    (hleftSlots : left'.world.region.slots = (left.world.region.setSlot index slot).slots)
    (hrightSlots : right'.world.region.slots = (right.world.region.setSlot index slot).slots)
    (hleases : ∀ n a, n ≠ name → left'.leases n = some a →
      (left.leases n = some a ∧ right'.leases n = right.leases n) ∨
        (right'.leases n = some a ∧ a.isSealed = true)) :
    Beside name lease k left' right' := by
  have hcap : left'.world.chan.config.capacity = left.world.chan.config.capacity := by rw [hconf]
  have hstate (region region' : Region) (i : ℕ)
      (hslots : region'.slots = (region.setSlot index slot).slots) (hi : i ≠ index) :
      region'.state i = region.state i := by
    rw [Region.state, Region.header, hslots, Region.setSlot_slots_of_ne hi]
    rfl
  refine ⟨hahead, hconf ▸ h.small, hseq.trans h.seq, herased, ?_, hrightSeq.trans h.rightSeq,
    fun j hj => ?_, ?_, fun i hi => ?_, fun i => ?_, fun n a hn ha => ?_⟩
  · rw [hcap]
    exact hrightHead.trans h.rightHead
  · rw [hcap, hstate _ _ _ hleftSlots (Ne.symm (hindex j hj))]
    exact h.writing j hj
  · rw [hcap, hstate _ _ _ hrightSlots (Ne.symm (hindex k (Nat.le_refl _)))]
    exact h.free
  · rw [hcap] at hi
    rw [hleftSlots, hrightSlots]
    simp only [Region.setSlot]
    split
    · rfl
    · exact h.outside i hi
  · rw [hleftSlots, hrightSlots, hfit]
    simp only [Region.setSlot]
    split
    · rfl
    · exact h.padding i
  · rw [hcap, hconf]
    rcases hleases n a hn ha with ⟨hold, hright⟩ | ⟨hright, hsealed⟩
    · rw [hright]
      exact h.leases n a hn hold
    · exact .inl ⟨hright, fun hu => absurd (hu.symm.trans hsealed) Bool.false_ne_true⟩

omit [Checksum] in
/-- A write through a lease made behind the lease. -/
theorem Beside.writeNewer {j offset : ℕ} {bytes : Bytes} {a : ShmWriteLease}
    {left' right' : LeaseState} (h : Beside name lease k left right) (ht : left.Tidy) (hj : j < k)
    (hmay : MayWrite a offset bytes)
    (hsmall : a.payloadLen ≤ left.world.chan.config.slotSize)
    (hindex : a.index = (lease.index + (j + 1)) % left.world.chan.config.capacity)
    (hleft : left' = ⟨⟨left.world.chan, left.world.region.setPayload a.index
      (FRAME_HEADER_LEN + offset) bytes⟩, left.leases⟩)
    (hright : right' = ⟨⟨right.world.chan, right.world.region.setPayload
      ((lease.index + j) % left.world.chan.config.capacity) (FRAME_HEADER_LEN + offset) bytes⟩,
      right.leases⟩)
    (hahead : Ahead name lease k left') : Beside name lease k left' right' := by
  subst hleft hright
  refine ⟨hahead, h.small, h.seq, h.erased, h.rightHead, h.rightSeq,
    fun i hi => state_setPayload.trans (h.writing i hi), state_setPayload.trans h.free,
    fun i hi => ?_, fun i => ?_, h.leases⟩
  · have hne : i ≠ a.index := by
      rw [hindex]
      exact hi (j + 1) hj
    exact (Region.setSlot_slots_of_ne (hi j (Nat.le_of_lt hj))).trans
      ((h.outside i hi).trans (Region.setSlot_slots_of_ne hne).symm)
  · have hfit := ht.write_fits hsmall hmay
    exact (released_setPayload hfit).trans ((h.padding i).trans (released_setPayload hfit).symm)

omit [Checksum] in
/-- The newest of the leases made behind the lease is taken back. -/
theorem Beside.abortNewer {n j : ℕ} {a a' : ShmWriteLease} {left' right' : LeaseState}
    (h : Beside name lease (j + 1) left right) (ht : left.Tidy) (hr : right.Tidy)
    (hn : n ≠ name) (hl : left.leases n = some a) (hunsealed : a.isSealed = false)
    (hindex : a.index = (lease.index + (j + 1)) % left.world.chan.config.capacity)
    (hseq : a.seq = lease.seq + UInt64.ofNat (j + 1))
    (hindex' : a'.index = (lease.index + j) % left.world.chan.config.capacity)
    (hseq' : a'.seq = lease.seq + UInt64.ofNat j)
    (hleft : left' = left.put n none (left.world.aborted a))
    (hright : right' = right.put n none (right.world.aborted a'))
    (hahead : Ahead name lease j left') : Beside name lease j left' right' := by
  subst hleft hright
  have hleftSlot (i : ℕ) : (left.world.aborted a).region.slots i =
      if i = a.index then (left.world.region.slots i).released left.world.region.frameCapacity
      else left.world.region.slots i := by
    simp only [World.aborted, Region.forceRelease_eq, Region.setSlot]
    split
    · rename_i he
      rw [he]
    · rfl
  have hfit := World.erased_frameCapacity h.erased
  have hrightSlot (i : ℕ) : (right.world.aborted a').region.slots i =
      if i = a'.index then (right.world.region.slots i).released left.world.region.frameCapacity
      else right.world.region.slots i := by
    simp only [World.aborted, Region.forceRelease_eq, Region.setSlot, hfit]
    split
    · rename_i he
      rw [he]
    · rfl
  refine ⟨hahead, h.small, hseq, h.erased, hindex', hseq', fun i hi => ?_, ?_, fun i hi => ?_,
    fun i => ?_, fun m b hm hb => ?_⟩
  · show ((left.world.aborted a).region.slots
      ((lease.index + i) % left.world.chan.config.capacity)).header.state = .writing
    rw [hleftSlot, if_neg]
    · exact h.writing i (by omega)
    · rw [hindex]
      exact h.ahead.place_ne (by omega) (Nat.le_refl _) (by omega)
  · show ((right.world.aborted a').region.slots
      ((lease.index + j) % left.world.chan.config.capacity)).header.state = .free
    rw [hrightSlot, if_pos hindex'.symm]
    rfl
  · show (right.world.aborted a').region.slots i = (left.world.aborted a).region.slots i
    have hne : i ≠ a'.index := by
      rw [hindex']
      exact hi j (Nat.le_refl _)
    rw [hrightSlot, if_neg hne, hleftSlot]
    by_cases he : i = a.index
    · -- The slot is FREE in the run without the lease, and FREE slots are zeroed.
      rw [if_pos he]
      have hfree : right.world.region.state i = .free := by
        rw [he, hindex]
        exact h.free
      have hzeroed := hr.zeroed i hfree
      rw [hfit] at hzeroed
      rw [hzeroed]
      exact h.padding i
    · rw [if_neg he]
      refine h.outside i fun m hm => ?_
      rcases Nat.lt_or_ge j m with hlt | hle
      · obtain rfl : m = j + 1 := by omega
        rw [← hindex]
        exact he
      · exact hi m hle
  · show ((right.world.aborted a').region.slots i).released left.world.region.frameCapacity =
      ((left.world.aborted a).region.slots i).released left.world.region.frameCapacity
    have hkept (slot : Slot) (p : Prop) [Decidable p] :
        (if p then slot.released left.world.region.frameCapacity else slot).released
          left.world.region.frameCapacity =
        slot.released left.world.region.frameCapacity := by
      split
      · exact Slot.released_released
      · rfl
    rw [hrightSlot, hleftSlot, hkept, hkept]
    exact h.padding i
  · have hmn : m ≠ n := by
      rintro rfl
      rw [put_leases_self] at hb
      cases hb
    rw [put_leases_of_ne hmn] at hb
    rw [put_leases_of_ne hmn]
    rcases h.leases m b hm hb with ⟨hright, hout⟩ | ⟨i, hi, hu, hsmall, hidx, hnewer⟩
    · exact .inl ⟨hright, fun hu i hi => hout hu i (by omega)⟩
    · refine .inr ⟨i, Nat.lt_of_le_of_ne (Nat.lt_succ_iff.1 hi) ?_, hu, hsmall, hidx, hnewer⟩
      rintro rfl
      exact hmn (ht.distinct m n b a hb hl hu hunsealed (hidx.trans hindex.symm))

/-- The state of the run without the lease, one call on. -/
def beside (name : ℕ) (left right : LeaseState) (c : LeaseCall) : LeaseState :=
  if left.accepts c = true ∧ c.name ≠ name then right.next c else right

/-- An accepted `alloc`. -/
theorem Beside.stepAlloc {host : Host} {n size d : ℕ} (h : Beside name lease k left right)
    (ht : left.Tidy) (hn : n ≠ name) (hmay : MayLease size left.world)
    (hfree : left.world.region.state left.world.chan.head = .free)
    (hcall : left.call (.alloc host n size) = (true, left.put n
      (some ⟨left.world.chan.head, left.world.chan.nextSeq, size, false⟩)
      ((left.world.refreshed d).leased host size)))
    (hahead : Ahead name lease (left.reservedNext (.alloc host n size) k)
      (left.next (.alloc host n size))) :
    Beside name lease (k + 1) (left.next (.alloc host n size))
      (beside name left right (.alloc host n size)) := by
  have hacc : left.accepts (.alloc host n size) = true := by rw [accepts, hcall]
  have hmay' : MayLease size right.world := by
    rw [← mayLease_erased, h.erased, mayLease_erased]
    exact hmay
  have hfree' : right.world.region.state right.world.chan.head = .free := by
    rw [h.rightHead]
    exact h.free
  obtain ⟨d', hcall'⟩ := right.call_alloc_ok host n hmay' hfree'
  rw [reservedNext, if_pos hacc] at hahead
  rw [beside, if_pos ⟨hacc, hn⟩]
  exact h.alloc ht hn hmay hfree (by rw [LeaseState.next, hcall])
    (by rw [LeaseState.next, hcall']) hahead

/-- An accepted write. -/
theorem Beside.stepWrite {n offset : ℕ} {bytes : Bytes} {a : ShmWriteLease}
    (h : Beside name lease k left right) (ht : left.Tidy) (ha : left.leases n = some a)
    (hmay : MayWrite a offset bytes)
    (hahead : Ahead name lease k (left.next (.write n offset bytes))) :
    Beside name lease k (left.next (.write n offset bytes))
      (beside name left right (.write n offset bytes)) := by
  have hcall := call_write_ok ha hmay
  have hacc : left.accepts (.write n offset bytes) = true := by rw [accepts, hcall]
  have hnext : left.next (.write n offset bytes) = _ := congrArg Prod.snd hcall
  rw [hnext] at hahead ⊢
  -- The run without the lease writes through it at no place.
  by_cases hn : n = name
  · subst hn
    rw [beside, if_neg (fun hne => hne.2 rfl)]
    rw [h.ahead.held, Option.some.injEq] at ha
    subst ha
    exact h.writeOwn ht hmay hahead
  rw [beside, if_pos ⟨hacc, hn⟩]
  rcases h.leases n a hn ha with ⟨hright, hout⟩ | ⟨j, hj, -, hsmall, hidx, -, hright⟩
  · have hnext' : right.next (.write n offset bytes) = _ :=
      congrArg Prod.snd (call_write_ok hright hmay)
    have hslot := h.outside a.index (hout hmay.1)
    rw [hnext']
    refine h.rewriteShared a.index _ (hout hmay.1) hahead rfl rfl rfl rfl rfl h.erased rfl ?_
      fun m b _ hb => .inl ⟨hb, rfl⟩
    show (right.world.region.setSlot a.index _).slots = _
    rw [hslot]
  · have hnext' : right.next (.write n offset bytes) = _ :=
      congrArg Prod.snd (call_write_ok hright hmay)
    exact h.writeNewer ht hj hmay hsmall hidx rfl hnext' hahead

/-- An accepted `publish` of another lease. -/
theorem Beside.stepPublish {n : ℕ} {a : ShmWriteLease} {header : Bytes}
    (h : Beside name lease k left right) (ht : left.Tidy) (hr : right.Tidy) (hn : n ≠ name)
    (ha : left.leases n = some a) (hmay : MayPublish left.world a header)
    (hahead : Ahead name lease k (left.next (.publish n))) :
    Past name lease (left.next (.publish n)) ∨
      Beside name lease k (left.next (.publish n)) (beside name left right (.publish n)) := by
  have hcall := call_publish_ok ha hmay
  have hacc : left.accepts (.publish n) = true := by rw [accepts, hcall]
  have hnext : left.next (.publish n) = _ := congrArg Prod.snd hcall
  rw [hnext] at hahead ⊢
  rcases h.leases n a hn ha with ⟨hright, hout⟩ | ⟨j, hj, -, -, hidx, -, -⟩
  · have hslot := h.outside a.index (hout hmay.unsealed)
    -- A lease from before: both runs publish the same slot.
    have hmay' : MayPublish right.world a header := by
      refine ⟨?_, hmay.unsealed, ?_, ?_⟩
      · have hclosed := congrArg (fun v : World => v.chan.closed) h.erased
        exact Eq.trans hclosed hmay.opened
      · show (right.world.region.slots a.index).header.state = .writing
        rw [hslot]
        exact hmay.writing
      · rw [leasePayload, hslot]
        exact hmay.header
    have hnext' : right.next (.publish n) = _ := congrArg Prod.snd (call_publish_ok hright hmay')
    refine .inr ?_
    rw [beside, if_pos ⟨hacc, hn⟩, hnext']
    refine h.rewriteShared a.index (left.world.publishedSlot a header)
      (hout hmay.unsealed) hahead rfl rfl rfl rfl rfl
      (World.erased_published h.erased ht.ready hr.ready) rfl ?_ fun m b hm hb => ?_
    · show (right.world.region.setSlot a.index (right.world.publishedSlot a header)).slots = _
      simp only [World.publishedSlot, hslot]
    · by_cases hmn : m = n
      · subst hmn
        rw [put_leases_self, Option.some.injEq] at hb
        subst hb
        exact .inr ⟨put_leases_self, rfl⟩
      · exact .inl ⟨(put_leases_of_ne hmn).symm.trans hb, put_leases_of_ne hmn⟩
  -- A lease from behind: the lease cannot be taken back any more.
  · refine .inl (.inr ⟨k, j + 1, hahead, by omega, hj, ?_⟩)
    exact hidx ▸ World.state_published

/-- An accepted `abort` of another lease. -/
theorem Beside.stepAbort {n : ℕ} {a : ShmWriteLease} (h : Beside name lease k left right)
    (ht : left.Tidy) (hr : right.Tidy) (hn : n ≠ name) (ha : left.leases n = some a)
    (hnewest : Newest left.world a)
    (hahead : Ahead name lease (k - 1) (left.next (.abort n))) :
    Beside name lease (k - 1) (left.next (.abort n)) (beside name left right (.abort n)) := by
  have hcall := call_abort_ok ha hnewest
  have hacc : left.accepts (.abort n) = true := by rw [accepts, hcall]
  have hnext : left.next (.abort n) = _ := congrArg Prod.snd hcall
  have hlast := h.ahead.newest_index hnewest
  rw [hnext] at hahead ⊢
  rcases h.leases n a hn ha with ⟨-, hout⟩ | ⟨j, hj, hu, -, hidx, hseq, hright⟩
  · exact absurd hlast (hout hnewest.1 k (Nat.le_refl _))
  -- The newest lease is the last place behind the lease.
  obtain rfl : k = j + 1 := by
    refine Nat.le_antisymm (Nat.not_lt.1 fun hlt => ?_) hj
    exact h.ahead.place_ne hj (Nat.le_refl _) (Nat.ne_of_lt hlt) (hidx.symm.trans hlast)
  have hroom := h.ahead.room
  have hnewest' : Newest right.world { a with
      index := (lease.index + j) % left.world.chan.config.capacity
      seq := lease.seq + UInt64.ofNat j } := by
    refine ⟨hu, ?_⟩
    rw [h.capacity, h.rightHead]
    have hpred := Window.mod_pred_mod (n := left.world.chan.config.capacity)
      (c := lease.index + (j + 1)) (by omega) (by omega)
    rw [hpred]
    rfl
  have hnext' : right.next (.abort n) = _ := congrArg Prod.snd (call_abort_ok hright hnewest')
  rw [beside, if_pos ⟨hacc, hn⟩, Nat.add_sub_cancel]
  exact h.abortNewer ht hr hn ha hu hidx hseq rfl rfl rfl hnext' hahead

/-- **One call of the run beside the one without the lease.** -/
theorem Beside.step (h : Beside name lease k left right) (ht : left.Tidy) (hr : right.Tidy)
    (hc : LeavesName name c) :
    Past name lease (left.next c) ∨
      ∃ k', Beside name lease k' (left.next c) (beside name left right c) := by
  rcases held_or_sealed h.ahead hc with hheld | hsealed
  swap
  · exact .inl (.inl hsealed)
  have hahead := h.ahead.step ht hc hheld
  -- A refused call is not made in the run without the lease.
  have hrefused {w : World} {leases : ℕ → Option ShmWriteLease} (hw : Still left.world w)
      (hl : ∀ n a, leases n = some a → left.leases n = some a)
      (hcall : left.call c = (false, ⟨w, leases⟩)) :
      ∃ k', Beside name lease k' (left.next c) (beside name left right c) := by
    have hnext : left.next c = ⟨w, leases⟩ := congrArg Prod.snd hcall
    have hacc : left.accepts c = false := congrArg Prod.fst hcall
    rw [beside, if_neg (fun hyes => Bool.false_ne_true (hacc.symm.trans hyes.1)), hnext]
    exact ⟨k, h.still hw (by rw [hnext] at hheld; exact hheld) hl⟩
  cases c with
  | alloc host n size =>
      rcases left.call_alloc with ⟨d, hmay, hfree, hcall⟩ | ⟨w, hstill, hcall⟩
      · exact .inr ⟨_, h.stepAlloc ht hc hmay hfree hcall hahead⟩
      · exact .inr (hrefused hstill (fun _ _ ha => ha) hcall)
  | write n offset bytes =>
      rcases left.call_write with ⟨a, ha, hmay, hcall⟩ | hcall
      · have hk : left.reservedNext (.write n offset bytes) k = k :=
          if_pos (congrArg Prod.fst hcall)
        rw [hk] at hahead
        exact .inr ⟨k, h.stepWrite ht ha hmay hahead⟩
      · exact .inr (hrefused (.refl _) (fun _ _ ha => ha) hcall)
  | publish n =>
      rcases left.call_publish with ⟨a, header, ha, hmay, hcall⟩ | hcall
      · have hk : left.reservedNext (.publish n) k = k := if_pos (congrArg Prod.fst hcall)
        rw [hk] at hahead
        have hn : n ≠ name := by
          rintro rfl
          rw [LeaseState.next, hcall, put_leases_self, Option.some.injEq] at hheld
          exact Bool.false_ne_true (h.ahead.unsealed.symm.trans (hheld ▸ rfl))
        exact (h.stepPublish ht hr hn ha hmay hahead).imp_right fun hnext => ⟨k, hnext⟩
      · exact .inr (hrefused (.refl _) (fun _ _ ha => ha) hcall)
  | abort n =>
      have hn : n ≠ name := by
        rintro rfl
        rw [LeaseState.next] at hheld
        rcases left.call_abort with ⟨a, -, -, hcall⟩ | ⟨-, hcall⟩ <;>
          rw [hcall, put_leases_self] at hheld <;> cases hheld
      rcases left.call_abort with ⟨a, ha, hnewest, hcall⟩ | ⟨-, hcall⟩
      · have hk : left.reservedNext (.abort n) k = k - 1 := if_pos (congrArg Prod.fst hcall)
        rw [hk] at hahead
        exact .inr ⟨_, h.stepAbort ht hr hn ha hnewest hahead⟩
      · refine .inr (hrefused (.refl _) (fun m a ha => ?_) hcall)
        by_cases hm : m = n
        · subst hm
          rw [Function.update_self] at ha
          cases ha
        · exact (Function.update_of_ne hm ..).symm.trans ha

end Step

/-! ## Whole runs -/

/-- **The run beside the one without the lease.** -/
theorem run_beside {calls : List LeaseCall} (hcalls : ∀ c ∈ calls, LeavesName name c)
    (ht : left.Tidy) (hr : right.Tidy)
    (h : Past name lease left ∨ ∃ k, Beside name lease k left right) :
    (Run.exec next left calls).Tidy ∧ (Run.exec next right (kept name left calls)).Tidy ∧
      (Past name lease (Run.exec next left calls) ∨ ∃ k, Beside name lease k
        (Run.exec next left calls) (Run.exec next right (kept name left calls))) := by
  induction calls generalizing left right with
  | nil => exact ⟨ht, hr, h⟩
  | cons c calls ih =>
      have hc := hcalls c List.mem_cons_self
      have hrest : ∀ c ∈ calls, LeavesName name c := fun c hmem =>
        hcalls c (List.mem_cons_of_mem _ hmem)
      have hr' : (beside name left right c).Tidy := by
        unfold beside
        split
        · exact hr.next c
        · exact hr
      have hstep : Past name lease (left.next c) ∨
          ∃ k, Beside name lease k (left.next c) (beside name left right c) := by
        rcases h with h | ⟨k, h⟩
        · exact .inl (h.step ht hc)
        · exact h.step ht hr hc
      have hrun := ih hrest (ht.next c) hr' hstep
      have hkept : Run.exec next right (kept name left (c :: calls)) =
          Run.exec next (beside name left right c) (kept name (left.next c) calls) := by
        rw [kept, beside]
        split <;> rfl
      rw [hkept]
      exact hrun

omit [Checksum] in
/-- Nothing is left behind a lease that is taken back. -/
theorem Beside.newest_zero (h : Beside name lease k left right) (ht : left.Tidy)
    (hnewest : Newest left.world lease) : k = 0 := by
  by_contra hk
  refine h.ahead.place_ne (Nat.zero_le k) (Nat.le_refl k) (by omega) ?_
  rw [h.ahead.place_zero ht]
  exact h.ahead.newest_index hnewest

omit [Checksum] in
/-- **The lease is taken back**: the two runs meet. -/
theorem Beside.meet (h : Beside name lease 0 left right) (ht : left.Tidy) (hr : right.Tidy)
    (depth : ℕ) : (left.world.aborted lease).refreshed depth = right.world.refreshed depth := by
  have hplace := h.ahead.place_zero ht
  have herased : (left.world.aborted lease).erased = right.world.erased := h.erased.symm
  have hhead : (left.world.aborted lease).chan.head = right.world.chan.head :=
    hplace.symm.trans h.rightHead.symm
  have hseq : (left.world.aborted lease).chan.nextSeq = right.world.chan.nextSeq :=
    (UInt64.add_zero _).symm.trans h.rightSeq.symm
  refine World.refreshed_congr herased hhead hseq (funext fun i => ?_) depth
  simp only [World.aborted, Region.forceRelease_eq, Region.setSlot]
  split
  · rename_i he
    have hfree : right.world.region.state i = .free := by
      rw [he, ← hplace]
      exact h.free
    rw [hr.zeroed i hfree, World.erased_frameCapacity h.erased, ← he]
    exact (h.padding i).symm
  · rename_i hne
    refine (h.outside i fun j hj => ?_).symm
    rw [Nat.le_zero.1 hj, hplace]
    exact hne

/-- An abort that is taken undoes the reservation: whatever depth a refresh
then finds, the two handles are the same. -/
theorem Beside.undone (h : Beside name lease k left right) (ht : left.Tidy) (hr : right.Tidy)
    (hacc : left.accepts (.abort name) = true) (depth : ℕ) :
    (left.next (.abort name)).world.refreshed depth = right.world.refreshed depth := by
  rcases left.call_abort with ⟨a, ha, hnewest, hcall⟩ | ⟨-, hcall⟩
  · rw [h.ahead.held, Option.some.injEq] at ha
    subst ha
    obtain rfl := h.newest_zero ht hnewest
    have hundone : (left.next (.abort name)).world = _ :=
      congrArg (fun r => (Prod.snd r).world) hcall
    rw [hundone]
    exact h.meet ht hr depth
  · rw [accepts, hcall] at hacc
    cases hacc

/-- A lease that is published or given up stays so. -/
theorem sealed_run {calls : List LeaseCall} (hcalls : ∀ c ∈ calls, LeavesName name c)
    (h : ∀ a, s.leases name = some a → a.isSealed = true) :
    ∀ a, (Run.exec next s calls).leases name = some a → a.isSealed = true := by
  induction calls generalizing s with
  | nil => exact h
  | cons c calls ih =>
      exact ih (fun c hmem => hcalls c (List.mem_cons_of_mem _ hmem))
        (sealed_step h (hcalls c List.mem_cons_self))

/-- **The slots behind a lease**, as long as it is out. -/
theorem Ahead.run {calls : List LeaseCall} (h : Ahead name lease k s) (ht : s.Tidy)
    (hcalls : ∀ c ∈ calls, LeavesName name c) :
    Ahead name lease (reserved s calls k) (Run.exec next s calls) ∨
      ∀ a, (Run.exec next s calls).leases name = some a → a.isSealed = true := by
  induction calls generalizing s k with
  | nil => exact .inl h
  | cons c calls ih =>
      have hc := hcalls c List.mem_cons_self
      have hrest : ∀ c ∈ calls, LeavesName name c := fun c hmem =>
        hcalls c (List.mem_cons_of_mem _ hmem)
      rcases held_or_sealed h hc with hnext | hsealed
      · exact ih (h.step ht hc hnext) (ht.next c) hrest
      · exact .inr (sealed_run (s := s.next c) hrest hsealed)

/-- **`abort` undoes `alloc`**, in every reachable state of a single-producer
channel that drops nothing. Where the lease is taken back, the region, the
write index, the head cursor and the next sequence are what the same calls
leave without the lease, without its writes and without the calls that were
refused while it was out; so is the whole handle once it is refreshed. The
lease is taken back if it was not published or given up and no slot reserved
behind it is left. -/
theorem abort_undoes_alloc {creator host : Host} {config : SpscConfig} {w : World}
    {ops : List SpscOp} {size : ℕ} {calls : List LeaseCall} {out : LeaseState}
    (hw : create creator config = .ok w) (hmode : config.multiProducer = false)
    (hdrop : config.backpressure ≠ .dropOldest)
    (hops : Run.Meets SpscState.step SpscState.CrashFree (.start w) ops)
    (hs : s = (Run.exec SpscState.step (.start w) ops).leaseState)
    (halloc : s.call (.alloc host name size) = (true, out))
    (hcalls : ∀ c ∈ calls, LeavesName name c) :
    ((Run.exec next out calls).accepts (.abort name) = true →
      let undone := ((Run.exec next out calls).next (.abort name)).world
      let without := (Run.exec next s (kept name out calls)).world
      undone.region = without.region ∧ undone.chan.head = without.chan.head ∧
        undone.chan.headCursor = without.chan.headCursor ∧
          undone.chan.nextSeq = without.chan.nextSeq ∧
            ∀ depth, undone.refreshed depth = without.refreshed depth) ∧
    ((∃ a, (Run.exec next out calls).leases name = some a ∧ a.isSealed = false) →
      reserved out calls 0 = 0 → (Run.exec next out calls).accepts (.abort name) = true) := by
  have htidy : s.Tidy := hs ▸ (SpscState.tidy_reachable hw hmode hdrop hops).leases
  obtain ⟨lease, htout, hbeside⟩ : ∃ lease, out.Tidy ∧ Beside name lease 0 out s := by
    have htout := htidy.next (.alloc host name size)
    rw [LeaseState.next, halloc] at htout
    rcases s.call_alloc with ⟨d, hmay, hfree, hcall⟩ | ⟨v, -, hcall⟩
    · rw [halloc] at hcall
      cases hcall
      exact ⟨_, htout, beside_start htidy hmay hfree⟩
    · rw [halloc] at hcall
      cases hcall
  obtain ⟨htl, htr, hrun⟩ := run_beside hcalls htout htidy (.inr ⟨0, hbeside⟩)
  refine ⟨fun hacc => ?_, ?_⟩
  · rcases hrun with hpast | ⟨k, hk⟩
    · exact absurd (hpast.not_accepts.symm.trans hacc) Bool.false_ne_true
    intro undone without
    have hmeet : ∀ depth, undone.refreshed depth = without.refreshed depth :=
      hk.undone htl htr hacc
    have hregion : undone.region = without.region := by
      have hsame := congrArg World.region (hmeet 0)
      exact hsame
    have hhead : undone.chan.head = without.chan.head := by
      have hsame := congrArg (fun v : World => v.chan.head) (hmeet 0)
      exact hsame
    have hseq : undone.chan.nextSeq = without.chan.nextSeq := by
      have hsame := congrArg (fun v : World => v.chan.nextSeq) (hmeet 0)
      exact hsame
    have hmirror : undone.chan.headCursor = undone.region.head := (htl.next _).ready.mirror
    refine ⟨hregion, hhead, ?_, hseq, hmeet⟩
    rw [hmirror, hregion]
    exact htr.ready.mirror.symm
  · rintro ⟨a, ha, hu⟩ hnone
    rcases hbeside.ahead.run htout hcalls with hahead | hsealed
    · rw [hnone] at hahead
      rw [accepts, call_abort_ok hahead.held (hahead.newest htl)]
    · exact absurd (hu.symm.trans (hsealed a ha)) Bool.false_ne_true

end LeaseState

/-! ## Fixed inputs -/

/-- The first state of a ring of this capacity. -/
def sampleLeases (capacity : ℕ) : LeaseState :=
  (SpscState.start (sampleWorld (sampleConfig capacity 1))).leaseState

/-- A lease is written and taken back once another one behind it was. -/
theorem abort_undoes_alloc_two :
    let next := @LeaseState.next crc32Checksum
    let out := next (sampleLeases 2) (.alloc sampleHost 0 1)
    let calls : List LeaseCall := [.alloc sampleHost 1 1, .write 0 0 [7], .abort 1]
    let undone := (next (Run.exec next out calls) (.abort 0)).world
    let without := (Run.exec next (sampleLeases 2)
      (@LeaseState.kept crc32Checksum 0 out calls)).world
    undone.region = without.region ∧ undone.chan.head = without.chan.head ∧
      undone.chan.headCursor = without.chan.headCursor ∧
        undone.chan.nextSeq = without.chan.nextSeq ∧
          ∀ depth, undone.refreshed depth = without.refreshed depth :=
  (@LeaseState.abort_undoes_alloc crc32Checksum (sampleLeases 2) 0 sampleHost sampleHost
    (sampleConfig 2 1) (sampleWorld (sampleConfig 2 1)) [] 1
    [.alloc sampleHost 1 1, .write 0 0 [7], .abort 1]
    (@LeaseState.next crc32Checksum (sampleLeases 2) (.alloc sampleHost 0 1))
    rfl rfl (by decide) trivial rfl (Prod.ext (by decide +kernel) rfl)
    (by simp [LeaseState.LeavesName])).1 (by decide +kernel)

/-- **A call refused while the lease was out** is accepted without it: the
ring of one slot is full for the second `alloc`, and empty once the first is
taken back. -/
theorem abort_leaves_refused :
    let next := @LeaseState.next crc32Checksum
    let calls : List LeaseCall := [.alloc sampleHost 0 1, .alloc sampleHost 1 1]
    let out := Run.exec next (sampleLeases 1) calls
    let without := Run.exec next (sampleLeases 1) (calls.filter fun c => c.name ≠ 0)
    create sampleHost (sampleConfig 1 1) = .ok (sampleWorld (sampleConfig 1 1)) ∧
      @LeaseState.accepts crc32Checksum out (.abort 0) = true ∧
        (next out (.abort 0)).world.chan.nextSeq ≠ without.world.chan.nextSeq :=
  ⟨rfl, by decide +kernel, by decide +kernel⟩

end Dsline
