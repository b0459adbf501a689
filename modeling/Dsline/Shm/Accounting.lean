import Dsline.Library.Run
import Dsline.Shm.TryRecv
/-!
# What the reclaim counter counts

`recv_with_seq`, `try_recv` and `reclaim_stale` against the slots they
reclaim: a reservation or a run of dead slots at the tail, and, for the
cleanup, dead slots anywhere outside the window. In multi-producer mode the
cleanup adds to the counter what each reclaim at the tail has already added,
and it frees dead pins only behind its look at the tail.
-/

namespace Dsline

open PersistentShmChannel Effect

/-! ## Dead slots -/

namespace Region

variable {host : Host} {region : Region} {among among' : SlotState → Bool} {state : SlotState}
  {i index : ℕ} {indices : List ℕ}

/-- The slot is in one of these states, and its published identity is gone. -/
def dead (host : Host) (region : Region) (among : SlotState → Bool) (index : ℕ) : Bool :=
  among (region.state index) &&
    (region.header index).identity.any fun identity => host.liveness identity.process = .gone

/-- A WRITING slot. -/
def isWriting (state : SlotState) : Bool := state = .writing

/-- A PINNED slot. -/
def isPinned (state : SlotState) : Bool := state = .pinned

/-- Free the slot if it is dead. -/
def freeOne (host : Host) (among : SlotState → Bool) (index : ℕ) (region : Region) : Region :=
  if region.dead host among index then region.forceRelease index else region

/-- Free the dead slots of a list. -/
def freeDead (host : Host) (among : SlotState → Bool) (indices : List ℕ) (region : Region) :
    Region :=
  indices.foldl (fun region index => region.freeOne host among index) region

theorem dead_state (h : region.dead host among index = true) :
    among (region.state index) = true := by
  rw [dead, Bool.and_eq_true] at h
  exact h.1

/-- Whether a slot is dead is in its header. -/
theorem dead_congr {region' : Region} (h : region'.header i = region.header i) :
    region'.dead host among i = region.dead host among i := by
  unfold dead Region.state
  rw [h]

/-- `reclaim_dead_writing` and `reclaim_dead_pinned`. -/
theorem reclaimDead_eq (host : Host) (state : SlotState) (index : ℕ) (region : Region) :
    reclaimDead host state index region =
      .ok (region.dead host (fun s => s = state) index)
        (region.freeOne host (fun s => s = state) index) := by
  rw [reclaimDead, get_bind, freeOne, dead]
  by_cases hstate : region.state index = state
  · have hstate' : ¬ (region.header index).state ≠ state := not_not.2 hstate
    refine (congrFun (if_neg hstate') region).trans ?_
    cases hid : (region.header index).identity with
    | none => simp [hstate]
    | some identity =>
        by_cases hgone : host.liveness identity.process = .gone
        · simp [hstate, hgone]
        · simp [hstate, hgone]
  · have hstate' : (region.header index).state ≠ state := hstate
    refine (congrFun (if_pos hstate') region).trans ?_
    simp [hstate]

theorem header_freeOne_of_ne (h : i ≠ index) :
    (region.freeOne host among index).header i = region.header i := by
  unfold freeOne
  split
  · rw [forceRelease_eq, header, setSlot_slots_of_ne h, header]
  · rfl

/-- A slot that is not dead is left as it is. -/
theorem freeOne_of_alive (h : region.dead host among index = false) :
    region.freeOne host among index = region := by
  rw [freeOne, h, if_neg Bool.false_ne_true]

/-- Freed, a slot is no longer dead. -/
theorem dead_freeOne (hfree : among' .free = false)
    (hsame : ∀ s, among' s = true → among s = true) :
    (region.freeOne host among index).dead host among' index = false := by
  refine Bool.eq_false_of_not_eq_true fun h => ?_
  cases hdead : region.dead host among index with
  | false =>
      rw [freeOne_of_alive hdead] at h
      rw [dead, Bool.and_eq_true] at h
      rw [dead, hsame _ h.1, Bool.true_and, h.2] at hdead
      cases hdead
  | true =>
      rw [freeOne, hdead, if_pos rfl] at h
      have hstate := dead_state h
      rw [forceRelease_free (.inr rfl), hfree] at hstate
      cases hstate

/-- The words and the geometry of a region that is swept stay. -/
theorem freeDead_words (host : Host) (among : SlotState → Bool) (indices : List ℕ)
    (region : Region) :
    (region.freeDead host among indices).head = region.head ∧
      (region.freeDead host among indices).tail = region.tail ∧
      (region.freeDead host among indices).pinFloor = region.pinFloor ∧
      (region.freeDead host among indices).capacity = region.capacity := by
  induction indices generalizing region with
  | nil => exact ⟨rfl, rfl, rfl, rfl⟩
  | cons index indices ih =>
      have hone : (region.freeOne host among index).head = region.head ∧
          (region.freeOne host among index).tail = region.tail ∧
          (region.freeOne host among index).pinFloor = region.pinFloor ∧
          (region.freeOne host among index).capacity = region.capacity := by
        unfold freeOne
        split <;> exact ⟨rfl, rfl, rfl, rfl⟩
      obtain ⟨h1, h2, h3, h4⟩ := ih (region.freeOne host among index)
      exact ⟨h1.trans hone.1, h2.trans hone.2.1, h3.trans hone.2.2.1, h4.trans hone.2.2.2⟩

theorem header_freeDead_of_not_mem (h : i ∉ indices) :
    (region.freeDead host among indices).header i = region.header i := by
  induction indices generalizing region with
  | nil => rfl
  | cons index indices ih =>
      rw [List.mem_cons, not_or] at h
      exact (ih h.2).trans (header_freeOne_of_ne h.1)

/-- A slot in another state is left as it is. -/
theorem header_freeDead_of_alive (h : region.dead host among i = false) :
    (region.freeDead host among indices).header i = region.header i := by
  induction indices generalizing region with
  | nil => rfl
  | cons index indices ih =>
      have hone : (region.freeOne host among index).header i = region.header i := by
        by_cases hi : i = index
        · rw [← hi, freeOne_of_alive h]
        · exact header_freeOne_of_ne hi
      exact (ih (by rw [dead_congr hone, h])).trans hone

/-- **A swept slot is not dead.** -/
theorem dead_freeDead (hfree : among .free = false) (h : i ∈ indices) :
    (region.freeDead host among indices).dead host among i = false := by
  induction indices generalizing region with
  | nil => cases h
  | cons index indices ih =>
      by_cases hi : i ∈ indices
      · exact ih hi
      · rcases List.mem_cons.1 h with rfl | hi'
        · exact (dead_congr (header_freeDead_of_not_mem hi)).trans (dead_freeOne hfree fun _ h => h)
        · exact absurd hi' hi

/-- A sweep that finds nothing dead changes nothing. -/
theorem freeDead_of_alive (h : indices.countP (region.dead host among) = 0) :
    region.freeDead host among indices = region := by
  induction indices with
  | nil => rfl
  | cons index indices ih =>
      rw [List.countP_eq_zero] at h
      have hone : region.freeOne host among index = region :=
        freeOne_of_alive (Bool.eq_false_of_not_eq_true (h index List.mem_cons_self))
      have hrest := List.countP_eq_zero.2 fun i hi => h i (List.mem_cons_of_mem _ hi)
      exact (congrArg (fun r : Region => r.freeDead host among indices) hone).trans (ih hrest)

/-- **A sweep over distinct slots counts each dead one once.** -/
theorem sumOver_eq {call : ℕ → RegionM ℕ}
    (hcall : ∀ index region, call index region =
      .ok (if region.dead host among index then 1 else 0) (region.freeOne host among index))
    (hnodup : indices.Nodup) :
    sumOver call indices region =
      .ok (indices.countP (region.dead host among)) (region.freeDead host among indices) := by
  induction indices generalizing region with
  | nil => rfl
  | cons index indices ih =>
      obtain ⟨hnot, hnodup⟩ := List.nodup_cons.1 hnodup
      have hcount : indices.countP ((region.freeOne host among index).dead host among) =
          indices.countP (region.dead host among) := by
        refine List.countP_congr fun i hi => ?_
        have hne : i ≠ index := fun he => hnot (he ▸ hi)
        rw [dead_congr (header_freeOne_of_ne hne)]
      rw [sumOver, bind_ok (hcall index region), bind_ok (ih hnodup), hcount, List.countP_cons,
        Nat.add_comm]
      rfl

/-- A sweep that counts its slots. -/
theorem reclaimEach_eq_sumOver (reclaim : ℕ → RegionM Bool) (indices : List ℕ) :
    reclaimEach reclaim indices =
      sumOver (fun index => do return if ← reclaim index then 1 else 0) indices := by
  induction indices with
  | nil => rfl
  | cons index indices ih =>
      rw [reclaimEach, sumOver, ih, bind_assoc]
      rfl

/-- **The sweep over the dead slots in one state.** -/
theorem reclaimEach_eq (host : Host) (state : SlotState) (hnodup : indices.Nodup) :
    reclaimEach (reclaimDead host state) indices region =
      .ok (indices.countP (region.dead host fun s => s = state))
        (region.freeDead host (fun s => s = state) indices) := by
  rw [reclaimEach_eq_sumOver]
  exact sumOver_eq (fun index region => bind_ok (reclaimDead_eq host state index region)) hnodup

/-- A slot that is WRITING or PINNED. -/
def isStale (state : SlotState) : Bool := isWriting state || isPinned state

/-- A FREE slot is not stale, so it is not dead. -/
theorem dead_released (hfree : among .free = false) :
    (region.forceRelease index).dead host among index = false := by
  rw [dead, forceRelease_free (.inr rfl), hfree, Bool.false_and]

theorem dead_isStale : region.dead host isStale index =
    (region.dead host isWriting index || region.dead host isPinned index) := by
  rw [dead, dead, dead, isStale, Bool.and_or_distrib_right]

/-- **The sweep over dead slots** outside the window looks at each of them
twice, and frees it once. -/
theorem reclaimSlot_eq (index : ℕ) (region : Region) :
    reclaimSlot host index region =
      .ok (if region.dead host isStale index then 1 else 0)
        (region.freeOne host isStale index) := by
  have hcall : reclaimSlot host index region =
      .ok ((if region.dead host isWriting index then 1 else 0) +
          if (region.freeOne host isWriting index).dead host isPinned index then 1 else 0)
        ((region.freeOne host isWriting index).freeOne host isPinned index) :=
    (bind_ok (reclaimDead_eq host .writing index region)).trans
      (bind_ok (reclaimDead_eq host .pinned index _))
  have hstale : region.freeOne host isStale index =
      if region.dead host isWriting index || region.dead host isPinned index then
        region.forceRelease index
      else region := by
    rw [freeOne, dead_isStale]
  rw [hcall, hstale, dead_isStale]
  cases hwriting : region.dead host isWriting index with
  | true =>
      have hfreed : region.freeOne host isWriting index = region.forceRelease index := by
        rw [freeOne, hwriting, if_pos rfl]
      rw [hfreed, freeOne_of_alive (dead_released rfl), dead_released rfl]
      rfl
  | false =>
      rw [freeOne_of_alive hwriting, freeOne, Bool.false_or]
      cases region.dead host isPinned index <;> rfl

/-- Predicates that agree on a list take the same of it. -/
theorem takeWhile_congr {p q : ℕ → Bool} {ks : List ℕ} (h : ∀ k ∈ ks, p k = q k) :
    ks.takeWhile p = ks.takeWhile q := by
  induction ks with
  | nil => rfl
  | cons k ks ih =>
      rw [List.takeWhile_cons, List.takeWhile_cons, h k List.mem_cons_self,
        ih fun k' hk => h k' (List.mem_cons_of_mem _ hk)]

/-- **The run at the tail counts its dead slots**: later slots of the run
are others than the earlier ones. -/
theorem reclaimRun_eq {cap start : ℕ} (rounds : ℕ) : ∀ {offset : ℕ} {region : Region},
    region.capacity = cap → offset + rounds ≤ cap →
      ∃ region', reclaimRun host rounds ((start + offset) % cap) region =
        .ok ((List.range' offset rounds).takeWhile fun k =>
          region.dead host isWriting ((start + k) % cap)).length region' := by
  induction rounds with
  | zero => exact fun {_ region} _ _ => ⟨region, rfl⟩
  | succ rounds ih =>
      intro offset region hcap hle
      have hdead : reclaimDeadWriting host ((start + offset) % cap) region =
          .ok (region.dead host isWriting ((start + offset) % cap))
            (region.freeOne host isWriting ((start + offset) % cap)) :=
        reclaimDead_eq host .writing _ region
      rw [List.range'_succ, List.takeWhile_cons, reclaimRun, get_bind]
      cases h : region.dead host isWriting ((start + offset) % cap) with
      | false =>
          rw [h, freeOne_of_alive h] at hdead
          refine ⟨region, ?_⟩
          split
          · rfl
          · exact (bind_ok hdead).trans rfl
      | true =>
          have hstate : region.state ((start + offset) % cap) = .writing :=
            of_decide_eq_true (dead_state h)
          rw [h] at hdead
          rw [if_neg (not_not.2 hstate), bind_ok hdead, if_pos rfl]
          set region₁ := region.freeOne host isWriting ((start + offset) % cap) with hregion
          have hcap₁ : region₁.capacity = cap :=
            (freeDead_words host isWriting [(start + offset) % cap] region).2.2.2.trans hcap
          obtain ⟨region', hrun⟩ : ∃ region',
              reclaimRun host rounds ((start + (offset + 1)) % cap) region₁ = .ok _ region' :=
            ih hcap₁ (by omega)
          have hnext : ((start + offset) % cap + 1) % region.capacity =
              (start + (offset + 1)) % cap := by
            rw [hcap, Window.mod_succ_mod, Nat.add_assoc]
          have hlater : ((List.range' (offset + 1) rounds).takeWhile fun k =>
              region₁.dead host isWriting ((start + k) % cap)) =
              (List.range' (offset + 1) rounds).takeWhile fun k =>
                region.dead host isWriting ((start + k) % cap) := by
            refine takeWhile_congr fun k hk => dead_congr (header_freeOne_of_ne ?_)
            have := List.mem_range'_1.1 hk
            exact Window.mod_ne (t := start) (by omega) (by omega) (by omega) (by omega) (by omega)
          refine ⟨region', ?_⟩
          rw [hnext, bind_ok hrun, hlater, if_pos rfl, List.length_cons, Nat.add_comm]
          rfl

end Region

/-! ## What a call reclaims -/

namespace World

variable {host : Host} {w : World}

/-- The slots at the tail `try_reclaim_at_tail_spsc` frees: a run of dead
WRITING ones, where the cursors count nothing there. -/
def deadRun (host : Host) (w : World) : ℕ :=
  let fwd := wrappingSub w.chan.headCursor w.chan.tailCursor
  if fwd ≠ 0 ∧ fwd ≤ w.chan.config.capacity then 0
  else ((List.range w.chan.config.capacity).takeWhile fun k =>
    w.region.dead host Region.isWriting ((w.chan.tail + k) % w.chan.config.capacity)).length

/-- What a reclaim at the tail frees. -/
def atTail (host : Host) (w : World) : ℕ :=
  if w.chan.config.multiProducer then (reclaimExtent host w).getD 0 else w.deadRun host

/-- The reservations at the tail, one behind the other, that are dead. -/
def tailExtents (host : Host) : ℕ → World → ℕ
  | 0, _ => 0
  | rounds + 1, w =>
      match reclaimExtent host w with
      | none => 0
      | some extent => extent + tailExtents host rounds (w.extentFreed extent)

/-- The slots `reclaim_stale` sweeps in single-producer mode. -/
def uncovered (w : World) : List ℕ :=
  let covered := (List.range' w.region.tail (w.region.head - w.region.tail)).map
    (· % w.chan.config.capacity)
  (List.range w.chan.config.capacity).filter fun i => i ∉ covered

/-- What a cleanup frees. -/
def stale (host : Host) (w : World) : ℕ :=
  let cap := w.chan.config.capacity
  if w.chan.config.multiProducer then
    w.tailExtents host cap + (List.range cap).countP (w.region.dead host Region.isPinned)
  else w.uncovered.countP (w.region.dead host Region.isStale)

end World

/-- A call that may reclaim. -/
inductive ReclaimCall where
  | recv
  | tryRecv
  | reclaimStale
  deriving DecidableEq, Repr

namespace ReclaimCall

/-- **The slots a call reclaims**: none where the refresh fails or a receive
has no need to. -/
def reclaims (host : Host) (w : World) (call : ReclaimCall) : ℕ :=
  match cursorLen w.chan.config.capacity w.region.head w.region.tail with
  | none => 0
  | some d =>
      let w' := w.refreshed d
      match call with
      | recv =>
          if ClosedEmpty w' ∨ AtCommitted w' ∨ w.chan.closed = true then 0 else w'.atTail host
      | tryRecv => if ClosedEmpty w' ∨ AtCommitted w' then 0 else w'.atTail host
      | reclaimStale => w'.stale host

variable [Checksum]

/-- The world a call leaves. -/
def run (host : Host) (w : World) : ReclaimCall → World
  | recv => final (recvWithSeq host w)
  | tryRecv => final (PersistentShmChannel.tryRecv host w)
  | reclaimStale => final (PersistentShmChannel.reclaimStale host w)

/-- **A call counts exactly**: the counter grows by the slots it reclaims,
and a cleanup returns that number, so that another one behind it returns
none and changes nothing. -/
structure CountsExactly (host : Host) (w : World) (call : ReclaimCall) : Prop where
  counted : (call.run host w).chan.reclaimedSlots =
    w.chan.reclaimedSlots + call.reclaims host w
  returned : call = reclaimStale → ∀ n w', PersistentShmChannel.reclaimStale host w = .ok n w' →
    n = call.reclaims host w
  again : call = reclaimStale → ∀ n w', PersistentShmChannel.reclaimStale host w = .ok n w' →
    PersistentShmChannel.reclaimStale host w' = .ok 0 w'

/-- **The cleanup meets a dead reservation at its tail**, as it is or once
the dead pins in it are freed. -/
def MeetsReservation (host : Host) (w : World) (call : ReclaimCall) : Prop :=
  call = reclaimStale ∧ w.chan.config.multiProducer = true ∧ ∃ d extent,
    cursorLen w.chan.config.capacity w.region.head w.region.tail = some d ∧
      reclaimExtent host { w.refreshed d with
        region := w.region.freeDead host Region.isPinned (List.range w.chan.config.capacity) } =
          some extent

end ReclaimCall

namespace PersistentShmChannel

open World

variable {host : Host} {w w' : World} {d freed extent rounds : ℕ}

/-! ## Receives -/

/-- **What a reclaim at the tail frees**, in either mode. -/
theorem Reclaims.freed_eq (h : Reclaims host w freed w') (hw : w.Current)
    (hcap : w.region.capacity = w.chan.config.capacity) : freed = w.atTail host := by
  have hcall : tryReclaimAtTail host w =
      .ok freed (if freed = 0 then w else w') := h.call w.chan.resyncExpected
  rw [World.atTail]
  cases hmode : w.chan.config.multiProducer with
  | true =>
      rw [if_pos rfl]
      cases hext : reclaimExtent host w with
      | some extent =>
          rw [tryReclaimAtTail_extent hmode hw hext] at hcall
          exact (EStateM.Result.ok.inj hcall).1.symm
      | none =>
          rw [tryReclaimAtTail, get_bind, if_pos hmode, tryReclaimAtTailMpsc, get_bind,
            hext] at hcall
          exact (EStateM.Result.ok.inj hcall).1.symm
  | false =>
      rw [if_neg Bool.false_ne_true, World.deadRun]
      rw [tryReclaimAtTail, get_bind, hmode, if_neg Bool.false_ne_true, tryReclaimAtTailSpsc,
        get_bind] at hcall
      by_cases hcounted : wrappingSub w.chan.headCursor w.chan.tailCursor ≠ 0 ∧
          wrappingSub w.chan.headCursor w.chan.tailCursor ≤ w.chan.config.capacity
      · rw [if_pos hcounted] at hcall
        rw [if_pos hcounted]
        exact (EStateM.Result.ok.inj hcall).1.symm
      · rw [if_neg hcounted] at hcall
        rw [if_neg hcounted]
        have hstart : (w.chan.tail + 0) % w.chan.config.capacity = w.chan.tail := by
          rw [hw.index, Nat.add_zero, Nat.mod_mod]
        obtain ⟨region', hrun⟩ : ∃ region', reclaimRun host w.chan.config.capacity
            ((w.chan.tail + 0) % w.chan.config.capacity) w.region = .ok _ region' :=
          Region.reclaimRun_eq _ hcap (Nat.le_of_eq (Nat.zero_add _))
        rw [hstart, ← List.range_eq_range'] at hrun
        generalize ((List.range w.chan.config.capacity).takeWhile fun k =>
          w.region.dead host Region.isWriting
            ((w.chan.tail + k) % w.chan.config.capacity)).length = n at hrun ⊢
        have hon : onRegion (reclaimRun host w.chan.config.capacity w.chan.tail) w =
            .ok n { w with region := region' } := by
          rw [onRegion, hrun]
        have hcall' := (bind_ok hon).symm.trans hcall
        split at hcall'
        · rename_i hzero
          rw [hzero]
          exact (EStateM.Result.ok.inj hcall').1.symm
        · exact (EStateM.Result.ok.inj hcall').1.symm

variable [Checksum]

/-- **`recv_with_seq` counts what it reclaims.** -/
theorem recvWithSeq_counted (hcap : w.region.capacity = w.chan.config.capacity) :
    (final (recvWithSeq host w)).chan.reclaimedSlots =
      w.chan.reclaimedSlots + ReclaimCall.recv.reclaims host w := by
  have hfinal : (final (recvWithSeq host w)).chan.reclaimedSlots =
      (final (ensureTailReadable host w)).chan.reclaimedSlots := by
    rw [recvWithSeq_eq]
    cases hr : ensureTailReadable host w with
    | ok resync v =>
        rw [bind_ok hr]
        exact readMessage_reclaimed resync v
    | error err v => rw [bind_error hr]; rfl
  rw [hfinal, ReclaimCall.reclaims]
  cases hd : cursorLen w.chan.config.capacity w.region.head w.region.tail with
  | none =>
      have hgate : ensureTailReadable host w = .error inconsistentCursors _ :=
        bind_error (refreshCursors_none hd)
      rw [hgate]
      rfl
  | some d =>
      have hcurrent := current_refreshed hd
      obtain ⟨freed, w', hrec⟩ := exists_reclaims host hcurrent
      have hfreed : freed = (w.refreshed d).atTail host := hrec.freed_eq hcurrent hcap
      rw [ensureTailReadable_cases hd hrec]
      dsimp only
      split
      · rename_i hempty
        rw [if_pos (.inl hempty)]
        rfl
      rename_i hempty
      split
      · rename_i hstate
        rw [if_pos (.inr (.inl hstate))]
        rfl
      rename_i hstate
      split
      · rename_i hclosed
        rw [if_pos (.inr (.inr hclosed))]
        rfl
      rename_i hclosed
      have hreach : ¬ (ClosedEmpty (w.refreshed d) ∨ AtCommitted (w.refreshed d) ∨
          w.chan.closed = true) :=
        fun h => h.elim hempty fun h => h.elim hstate hclosed
      rw [if_neg hreach, ← hfreed]
      split
      · rename_i hzero
        rw [hzero]
        rfl
      · split <;> exact hrec.counted

/-- **`try_recv` counts what it reclaims.** -/
theorem tryRecv_counted (hcap : w.region.capacity = w.chan.config.capacity) :
    (final (tryRecv host w)).chan.reclaimedSlots =
      w.chan.reclaimedSlots + ReclaimCall.tryRecv.reclaims host w := by
  rw [ReclaimCall.reclaims]
  cases hd : cursorLen w.chan.config.capacity w.region.head w.region.tail with
  | none =>
      have htry : tryRecv host w = .error inconsistentCursors _ :=
        bind_error (refreshCursors_none hd)
      rw [htry]
      rfl
  | some d =>
      have hcurrent := current_refreshed hd
      obtain ⟨freed, w', hrec⟩ := exists_reclaims host hcurrent
      have hfreed : freed = (w.refreshed d).atTail host := hrec.freed_eq hcurrent hcap
      rw [tryRecv_cases hd hrec]
      dsimp only
      split
      · rename_i hempty
        rw [if_pos (.inl hempty)]
        rfl
      rename_i hempty
      split
      · rename_i hstate
        rw [if_pos (.inr hstate), final_someResult]
        exact recvWithSeq_reclaimed hcurrent hstate
      rename_i hstate
      have hreach : ¬ (ClosedEmpty (w.refreshed d) ∨ AtCommitted (w.refreshed d)) :=
        fun h => h.elim hempty hstate
      rw [if_neg hreach, ← hfreed]
      split
      · rename_i hzero
        rw [hzero]
        rfl
      · split
        · rename_i hafter
          rw [final_someResult, recvWithSeq_reclaimed hrec.current hafter]
          exact hrec.counted
        · exact hrec.counted

omit [Checksum] in
/-- What a reclaim looks at: the cursors and the headers. -/
theorem reclaimExtent_congr {v : World} (hconfig : v.chan.config = w.chan.config)
    (hhead : v.chan.headCursor = w.chan.headCursor) (htail : v.chan.tailCursor = w.chan.tailCursor)
    (hindex : v.chan.tail = w.chan.tail) (hheader : v.region.header = w.region.header) :
    reclaimExtent host v = reclaimExtent host w := by
  simp only [reclaimExtent, hconfig, hhead, htail, hindex, hheader]

/-! ## The cleanup -/

/-- The world once its floor is rebuilt. -/
def floorRebuilt (w : World) : World :=
  let floor := w.region.scanPinFloor w.region.tail
  let region :=
    if w.region.pinFloor ≠ floor then w.region.floorCas w.region.pinFloor floor else w.region
  { chan := { w.chan with floorCursor := region.pinFloor }, region }

/-- The world once a single-producer cleanup freed its slots. -/
def swept (host : Host) (w : World) (d : ℕ) : World :=
  let region := w.region.freeDead host Region.isStale w.uncovered
  let chan := { w.chan with
    reclaimedSlots := w.chan.reclaimedSlots + w.stale host
    resyncExpected := true
    recoveryBias := (occupiedSlotHeaders region w.chan.config.capacity).length - d }
  floorRebuilt (World.refreshed { chan, region } d)

omit [Checksum] in
theorem rebuildFloor_eq : rebuildFloor w = .ok () (floorRebuilt w) := rfl

omit [Checksum] in
theorem floorRebuilt_region : (floorRebuilt w).region.head = w.region.head ∧
    (floorRebuilt w).region.tail = w.region.tail ∧
    (floorRebuilt w).region.header = w.region.header ∧
    (floorRebuilt w).region.capacity = w.region.capacity := by
  simp only [floorRebuilt, Region.floorCas]
  split
  · split <;> exact ⟨rfl, rfl, rfl, rfl⟩
  · exact ⟨rfl, rfl, rfl, rfl⟩

omit [Checksum] in
theorem onRegion_ok {α : Type} {op : RegionM α} {a : α} {region : Region}
    (h : op w.region = .ok a region) : onRegion op w = .ok a { w with region } := by
  rw [onRegion, h]

omit [Checksum] in
theorem stale_spsc (hmode : w.chan.config.multiProducer = false) :
    w.stale host = w.uncovered.countP (w.region.dead host Region.isStale) := by
  rw [World.stale, hmode]
  rfl

omit [Checksum] in
/-- **What a single-producer cleanup does.** -/
theorem reclaimStale_spsc (host : Host) (hmode : w.chan.config.multiProducer = false)
    (hd : cursorLen w.chan.config.capacity w.region.head w.region.tail = some d) :
    reclaimStale host w =
      if 0 < w.stale host then .ok (w.stale host) (swept host w d)
      else .ok 0 (w.refreshed d) := by
  have hstale : w.stale host = w.uncovered.countP (w.region.dead host Region.isStale) :=
    stale_spsc hmode
  have hsweep : onRegion (sumOver (reclaimSlot host) w.uncovered) (w.refreshed d) =
      .ok (w.stale host) { w.refreshed d with
        region := w.region.freeDead host Region.isStale w.uncovered } := by
    rw [hstale]
    exact onRegion_ok (Region.sumOver_eq Region.reclaimSlot_eq (List.nodup_range.filter _))
  rw [reclaimStale, bind_ok (refreshCursors_ok hd), get_bind]
  dsimp only
  rw [if_neg (by rw [show (w.refreshed d).chan.config.multiProducer = false from hmode]; decide)]
  refine (bind_ok hsweep).trans ?_
  split
  · rename_i hpos
    obtain ⟨hhead, htail, -, -⟩ := Region.freeDead_words host Region.isStale w.uncovered w.region
    have hbias (v : World) (hconfig : v.chan.config = w.chan.config)
        (hregion : v.region = w.region.freeDead host Region.isStale w.uncovered) :
        recomputeSpscBias v =
          .ok ((occupiedSlotHeaders v.region w.chan.config.capacity).length - d) v := by
      rw [recomputeSpscBias, get_bind]
      simp only [hconfig, hregion, hhead, htail, hd]
      rfl
    set region := w.region.freeDead host Region.isStale w.uncovered with hregion
    have hcursors (v : World) (hconfig : v.chan.config = w.chan.config) (hv : v.region = region) :
        cursorLen v.chan.config.capacity v.region.head v.region.tail = some d := by
      rw [hconfig, hv, hhead, htail, hd]
    rw [modifyChan, modify_bind]
    refine (bind_ok (hbias _ ?_ ?_)).trans ?_
    · rfl
    · rfl
    refine (bind_ok (refreshCursors_ok (hcursors _ ?_ ?_))).trans ?_
    · rfl
    · rfl
    exact (bind_ok rebuildFloor_eq).trans rfl
  · rename_i hpos
    have hzero : w.stale host = 0 := Nat.eq_zero_of_not_pos hpos
    have halive : w.region.freeDead host Region.isStale w.uncovered = w.region :=
      Region.freeDead_of_alive (hstale.symm.trans hzero)
    rw [halive, hzero]
    rfl

/-! ## The cleanup in multi-producer mode -/

omit [Checksum] in
/-- The slots of a dead reservation are FREE or WRITING. -/
theorem reclaimExtent_crossable (h : reclaimExtent host w = some extent) {k : ℕ}
    (hk : k < extent) :
    w.region.state ((w.chan.tail + k) % w.chan.config.capacity) = .free ∨
      w.region.state ((w.chan.tail + k) % w.chan.config.capacity) = .writing := by
  unfold reclaimExtent at h
  simp only at h
  split at h
  · cases h
  split at h
  · cases h
  split at h
  · cases h
  rename_i identity _
  split at h
  · cases h
  split at h
  · cases h
  split at h
  · rename_i hall
    cases h
    have hcross := List.all_eq_true.1 hall k (List.mem_range.2 hk)
    unfold crossable at hcross
    split at hcross
    · exact .inl ‹_›
    · exact .inr ‹_›
    · cases hcross
  · cases h

omit [Checksum] in
/-- **A reservation that is freed holds no pin.** -/
theorem dead_extentFreed (hw : w.Current) (hcap : w.region.capacity = w.chan.config.capacity)
    (h : reclaimExtent host w = some extent) (i : ℕ) :
    (w.extentFreed extent).region.dead host Region.isPinned i =
      w.region.dead host Region.isPinned i := by
  have hindex : w.chan.tail = w.region.tail % w.region.capacity := hcap ▸ hw.index
  rcases releaseExtent_slots (n := extent) (c := w.region.tail) (j := i) w.region with
    hsame | ⟨⟨j, hj, hi⟩, hfree⟩
  · rw [← hindex] at hsame
    exact Region.dead_congr (congrArg Slot.header hsame)
  · rw [← hindex] at hfree
    have hplace : i = (w.chan.tail + j) % w.chan.config.capacity := by
      rw [hi, hindex, ← hcap, Nat.mod_add_mod]
    have hbefore : Region.isPinned (w.region.state i) = false := by
      rcases reclaimExtent_crossable h hj with hstate | hstate
      · rw [hplace, hstate]; rfl
      · rw [hplace, hstate]; rfl
    have hafter : Region.isPinned ((w.extentFreed extent).region.state i) = false :=
      (congrArg Region.isPinned hfree).trans rfl
    rw [Region.dead, hafter, Region.dead, hbefore, Bool.false_and, Bool.false_and]

omit [Checksum] in
theorem tailExtents_congr {v : World} (hconfig : v.chan.config = w.chan.config)
    (hhead : v.chan.headCursor = w.chan.headCursor) (htail : v.chan.tailCursor = w.chan.tailCursor)
    (hindex : v.chan.tail = w.chan.tail) (hregion : v.region = w.region) (rounds : ℕ) :
    v.tailExtents host rounds = w.tailExtents host rounds := by
  induction rounds generalizing v w with
  | zero => rfl
  | succ rounds ih =>
      rw [tailExtents, tailExtents,
        reclaimExtent_congr hconfig hhead htail hindex (by rw [hregion])]
      cases reclaimExtent host w with
      | none => rfl
      | some extent =>
          refine congrArg (extent + ·) (ih hconfig hhead ?_ ?_ ?_)
          · exact congrArg (· + extent) htail
          · simp only [extentFreed, htail, hconfig]
          · simp only [extentFreed, hindex, htail, hregion]

/-- **What the reclaims at the tail leave**, and what they count. -/
structure TailCleared (host : Host) (w : World) (n : ℕ) (v : World) : Prop where
  config : v.chan.config = w.chan.config
  capacity : v.region.capacity = w.region.capacity
  counted : v.chan.reclaimedSlots = w.chan.reclaimedSlots + n
  pins : ∀ i, v.region.dead host Region.isPinned i = w.region.dead host Region.isPinned i

omit [Checksum] in
/-- **The loop of the cleanup.** -/
theorem reclaimTailMpsc_ok (host : Host) (hmode : w.chan.config.multiProducer = true)
    (hw : w.Current)
    (hcap : w.region.capacity = w.chan.config.capacity) (rounds : ℕ) :
    ∃ v, reclaimTailMpsc host rounds w = .ok (w.tailExtents host rounds) v ∧
      TailCleared host w (w.tailExtents host rounds) v := by
  induction rounds generalizing w with
  | zero => exact ⟨w, rfl, rfl, rfl, rfl, fun _ => rfl⟩
  | succ rounds ih =>
      rw [tailExtents, reclaimTailMpsc]
      cases hext : reclaimExtent host w with
      | none =>
          have hcall : tryReclaimAtTailMpsc host w = .ok 0 w := by
            rw [tryReclaimAtTailMpsc, get_bind, hext]
            rfl
          rw [bind_ok hcall, if_pos rfl]
          exact ⟨w, rfl, rfl, rfl, rfl, fun _ => rfl⟩
      | some extent =>
          have hcall : tryReclaimAtTailMpsc host w = .ok extent (w.extentFreed extent) := by
            have hboth := tryReclaimAtTail_extent hmode hw hext
            rwa [tryReclaimAtTail, get_bind, if_pos hmode] at hboth
          have hpos := (reclaimExtent_window hext).1
          have hafter := (reclaims_extent hmode hw hext).current
          obtain ⟨d, hd⟩ := hafter.depth
          obtain ⟨v, hrest, hconfig, hcapacity, hcounted, hpins⟩ :=
            ih (w := (w.extentFreed extent).refreshed d) hmode (current_refreshed hd)
              ((releaseExtent_words _ _ _).capacity.trans hcap)
          have hsame : ((w.extentFreed extent).refreshed d).tailExtents host rounds =
              (w.extentFreed extent).tailExtents host rounds :=
            tailExtents_congr (v := (w.extentFreed extent).refreshed d)
              (w := w.extentFreed extent) rfl hafter.head.symm hafter.tail.symm hafter.index.symm
              rfl rounds
          rw [hsame] at hrest hcounted
          rw [bind_ok hcall, if_neg (by omega), bind_ok (refreshCursors_ok hd), bind_ok hrest]
          refine ⟨v, rfl, hconfig, ?_, ?_, fun i => ?_⟩
          · exact hcapacity.trans (releaseExtent_words _ _ _).capacity
          · rw [hcounted]
            exact Nat.add_assoc _ _ _
          · exact (hpins i).trans (dead_extentFreed hw hcap hext i)

/-- The world once a multi-producer cleanup freed the dead pins. -/
def pinsFreed (host : Host) (w : World) (total : ℕ) : World :=
  floorRebuilt
    { chan := { w.chan with reclaimedSlots := w.chan.reclaimedSlots + total }
      region := w.region.freeDead host Region.isPinned (List.range w.chan.config.capacity) }

/-- The dead pins of the ring. -/
def deadPins (host : Host) (w : World) : ℕ :=
  (List.range w.chan.config.capacity).countP (w.region.dead host Region.isPinned)

omit [Checksum] in
/-- **What a multi-producer cleanup does** behind its loop. -/
theorem reclaimStale_mpsc {n : ℕ} {v : World} (hmode : w.chan.config.multiProducer = true)
    (hd : cursorLen w.chan.config.capacity w.region.head w.region.tail = some d)
    (hloop : reclaimTailMpsc host w.chan.config.capacity (w.refreshed d) = .ok n v)
    (hconfig : v.chan.config = w.chan.config) :
    reclaimStale host w =
      if 0 < n + deadPins host v then
        .ok (n + deadPins host v) (pinsFreed host v (n + deadPins host v))
      else .ok 0 v := by
  have hsweep : onRegion (reclaimEach (Region.reclaimDeadPinned host)
      (List.range w.chan.config.capacity)) v =
      .ok (deadPins host v) { v with
        region := v.region.freeDead host Region.isPinned (List.range w.chan.config.capacity) } := by
    rw [deadPins, hconfig]
    exact onRegion_ok (Region.reclaimEach_eq host .pinned List.nodup_range)
  rw [reclaimStale, bind_ok (refreshCursors_ok hd), get_bind]
  have hmode' : (w.refreshed d).chan.config.multiProducer = true := hmode
  dsimp only
  rw [if_pos hmode']
  refine (bind_ok hloop).trans ((bind_ok hsweep).trans ?_)
  split
  · have hcapacity : v.chan.config.capacity = w.chan.config.capacity := by rw [hconfig]
    rw [modifyChan, modify_bind, pinsFreed, hcapacity]
    exact (bind_ok rebuildFloor_eq).trans rfl
  · rename_i hpos
    have halive : v.region.freeDead host Region.isPinned (List.range w.chan.config.capacity) =
        v.region := by
      refine Region.freeDead_of_alive ?_
      rw [← hconfig]
      exact Nat.eq_zero_of_not_pos fun h => hpos (Nat.add_pos_right n h)
    rw [halive, Nat.eq_zero_of_not_pos hpos]
    rfl

omit [Checksum] in
/-- A dead reservation stays one where its own headers stay. -/
theorem reclaimExtent_of_same {region : Region} (h : reclaimExtent host w = some extent)
    (hsame : ∀ i, w.region.state i = .free ∨ w.region.state i = .writing →
      region.header i = w.region.header i) (hw : w.Current) :
    reclaimExtent host { w with region } = some extent := by
  have hcross (k : ℕ) (hk : k < extent) :
      region.header ((w.chan.tail + k) % w.chan.config.capacity) =
        w.region.header ((w.chan.tail + k) % w.chan.config.capacity) :=
    hsame _ (reclaimExtent_crossable h hk)
  have htail : region.header w.chan.tail = w.region.header w.chan.tail := by
    have hfirst := hcross 0 (reclaimExtent_window h).1
    rwa [Nat.add_zero, hw.index, Nat.mod_mod, ← hw.index] at hfirst
  unfold reclaimExtent at h ⊢
  simp only [htail] at h ⊢
  split at h
  · cases h
  split at h
  · cases h
  split at h
  · cases h
  rename_i hwindow hstate _ identity hid
  split at h
  · cases h
  split at h
  · cases h
  split at h
  · rename_i hgone hextent hall
    cases h
    have hall' : ((List.range identity.reservedSlots.toNat).all fun k =>
        crossable identity (region.header ((w.chan.tail + k) % w.chan.config.capacity))) =
          true := by
      refine List.all_eq_true.2 fun k hk => ?_
      rw [hcross k (List.mem_range.1 hk)]
      exact List.all_eq_true.1 hall k hk
    rw [if_neg hwindow, if_neg hstate, if_neg hgone, if_neg hextent, if_pos hall']
  · cases h

omit [Checksum] in
theorem reclaimTailMpsc_none {n : ℕ} (h : reclaimExtent host w = none) :
    reclaimTailMpsc host n w = .ok 0 w := by
  cases n with
  | zero => rfl
  | succ n =>
      have hcall : tryReclaimAtTailMpsc host w = .ok 0 w := by
        rw [tryReclaimAtTailMpsc, get_bind, h]
        rfl
      rw [reclaimTailMpsc, bind_ok hcall, if_pos rfl]
      rfl

omit [Checksum] in
/-- A dead reservation at the tail is counted twice. -/
theorem reclaimStale_mpsc_some (hmode : w.chan.config.multiProducer = true)
    (hcap : w.region.capacity = w.chan.config.capacity)
    (hd : cursorLen w.chan.config.capacity w.region.head w.region.tail = some d)
    (hext : reclaimExtent host (w.refreshed d) = some extent) :
    ∃ n v, 0 < n ∧ n ≤ (w.refreshed d).stale host ∧
      reclaimStale host w = .ok ((w.refreshed d).stale host) v ∧
        v.chan.reclaimedSlots = w.chan.reclaimedSlots + n + (w.refreshed d).stale host := by
  obtain ⟨v, hloop, hconfig, -, hcounted, hpins⟩ := reclaimTailMpsc_ok (w := w.refreshed d)
    host hmode (current_refreshed hd) hcap w.chan.config.capacity
  have hfreed : 0 < (w.refreshed d).tailExtents host w.chan.config.capacity := by
    obtain ⟨hpos, hle, hwindow⟩ := reclaimExtent_window hext
    have hwindow' : wrappingSub (w.refreshed d).chan.headCursor (w.refreshed d).chan.tailCursor ≤
        w.chan.config.capacity := hwindow
    obtain ⟨rounds, hrounds⟩ : ∃ rounds, w.chan.config.capacity = rounds + 1 :=
      Nat.exists_eq_succ_of_ne_zero (by omega)
    rw [hrounds, tailExtents, hext]
    exact Nat.add_pos_left hpos _
  have hstale : (w.refreshed d).stale host =
      (w.refreshed d).tailExtents host w.chan.config.capacity + deadPins host v := by
    have hcount : (List.range w.chan.config.capacity).countP
        ((w.refreshed d).region.dead host Region.isPinned) = deadPins host v := by
      rw [deadPins, hconfig]
      exact List.countP_congr fun i _ => by rw [hpins i]
    exact (if_pos hmode).trans (congrArg _ hcount)
  have hcall := reclaimStale_mpsc hmode hd hloop hconfig
  rw [if_pos (Nat.add_pos_left hfreed _), ← hstale] at hcall
  refine ⟨_, _, hfreed, hstale ▸ Nat.le_add_right _ _, hcall, ?_⟩
  exact congrArg (· + (w.refreshed d).stale host) hcounted

omit [Checksum] in
/-- Where there is none, the cleanup frees the dead pins. -/
theorem reclaimStale_mpsc_none (hmode : w.chan.config.multiProducer = true)
    (hd : cursorLen w.chan.config.capacity w.region.head w.region.tail = some d)
    (hext : reclaimExtent host (w.refreshed d) = none) :
    (w.refreshed d).stale host = deadPins host (w.refreshed d) ∧
      reclaimStale host w =
        if 0 < deadPins host (w.refreshed d) then
          .ok (deadPins host (w.refreshed d))
            (pinsFreed host (w.refreshed d) (deadPins host (w.refreshed d)))
        else .ok 0 (w.refreshed d) := by
  constructor
  · have hzero : (w.refreshed d).tailExtents host w.chan.config.capacity = 0 := by
      cases w.chan.config.capacity with
      | zero => rfl
      | succ rounds => rw [tailExtents, hext]
    refine (if_pos hmode).trans ?_
    exact (congrArg (· + deadPins host (w.refreshed d)) hzero).trans (Nat.zero_add _)
  · rw [reclaimStale_mpsc hmode hd (reclaimTailMpsc_none hext) rfl, Nat.zero_add]

omit [Checksum] in
theorem floorRebuilt_refreshed (h : w.refreshed d = w) :
    (floorRebuilt w).refreshed d = floorRebuilt w := by
  rw [← h]
  simp only [floorRebuilt, Region.floorCas]
  split
  · split <;> rfl
  · rfl

/-! ## Exact accounting -/

omit [Checksum] in
/-- Freeing the dead pins leaves no dead pin. -/
theorem deadPins_freed {v : World}
    (hheader : v.region.header =
      (w.region.freeDead host Region.isPinned (List.range v.chan.config.capacity)).header) :
    deadPins host v = 0 := by
  refine List.countP_eq_zero.2 fun i hi => ?_
  rw [Region.dead_congr (congrFun hheader i), Region.dead_freeDead rfl hi]
  exact Bool.false_ne_true

omit [Checksum] in
/-- Pins that are freed are in no dead reservation. -/
theorem reclaimExtent_freeDead {indices : List ℕ} (hw : w.Current)
    (h : reclaimExtent host w = some extent) :
    reclaimExtent host { w with region := w.region.freeDead host Region.isPinned indices } =
      some extent := by
  refine reclaimExtent_of_same h (fun i hstate => ?_) hw
  refine Region.header_freeDead_of_alive ?_
  have hnot : Region.isPinned (w.region.state i) = false := by
    rcases hstate with hstate | hstate
    · exact (congrArg Region.isPinned hstate).trans rfl
    · exact (congrArg Region.isPinned hstate).trans rfl
  rw [Region.dead, hnot, Bool.false_and]

omit [Checksum] in
/-- **The next cleanup** finds nothing where there is neither a dead pin nor
a dead reservation at the tail. -/
theorem reclaimStale_mpsc_again (hmode : w.chan.config.multiProducer = true)
    (hcap : w.region.capacity = w.chan.config.capacity)
    (hd : cursorLen w.chan.config.capacity w.region.head w.region.tail = some d)
    (hsettled : w.refreshed d = w) (hpins : deadPins host w = 0) :
    reclaimStale host w = .ok 0 w ↔ reclaimExtent host w = none := by
  cases hext : reclaimExtent host w with
  | none =>
      refine iff_of_true ?_ rfl
      rw [← hsettled] at hext
      obtain ⟨-, hcall⟩ := reclaimStale_mpsc_none hmode hd hext
      rw [hsettled, hpins] at hcall
      exact hcall
  | some extent =>
      refine iff_of_false (fun hzero => ?_) fun h => nomatch h
      rw [← hsettled] at hext
      obtain ⟨n, v, hpos, hle, hcall, -⟩ := reclaimStale_mpsc_some hmode hcap hd hext
      have hnone := (EStateM.Result.ok.inj (hcall.symm.trans hzero)).1
      omega

omit [Checksum] in
/-- **A cleanup in multi-producer mode** that meets no dead reservation as
it starts counts exactly, and meets none as it ends or leaves it behind. -/
theorem reclaimStale_mpsc_counts (hmode : w.chan.config.multiProducer = true)
    (hcap : w.region.capacity = w.chan.config.capacity)
    (hd : cursorLen w.chan.config.capacity w.region.head w.region.tail = some d)
    (hext : reclaimExtent host (w.refreshed d) = none) :
    ∃ v, reclaimStale host w = .ok ((w.refreshed d).stale host) v ∧
      v.chan.reclaimedSlots = w.chan.reclaimedSlots + (w.refreshed d).stale host ∧
        (reclaimStale host v = .ok 0 v ↔ ¬ ReclaimCall.MeetsReservation host w .reclaimStale) := by
  obtain ⟨hstale, hcall⟩ := reclaimStale_mpsc_none hmode hd hext
  set region := w.region.freeDead host Region.isPinned (List.range w.chan.config.capacity)
    with hregion
  have hmeets : ¬ ReclaimCall.MeetsReservation host w .reclaimStale ↔
      reclaimExtent host { w.refreshed d with region } = none := by
    constructor
    · intro hnot
      cases hafter : reclaimExtent host { w.refreshed d with region } with
      | none => rfl
      | some extent => exact absurd ⟨rfl, hmode, d, extent, hd, hafter⟩ hnot
    · rintro hnone ⟨-, -, d', extent, hd', hsome⟩
      cases Option.some.inj (hd.symm.trans hd')
      rw [← hregion, hnone] at hsome
      cases hsome
  rw [hmeets]
  by_cases hpos : 0 < deadPins host (w.refreshed d)
  · rw [if_pos hpos, ← hstale] at hcall
    obtain ⟨hhead, htail, hfloor, hcapacity⟩ := Region.freeDead_words host Region.isPinned
      (List.range w.chan.config.capacity) w.region
    set v := pinsFreed host (w.refreshed d) ((w.refreshed d).stale host) with hv
    let u : World :=
      { chan := { (w.refreshed d).chan with
          reclaimedSlots := w.chan.reclaimedSlots + (w.refreshed d).stale host }
        region }
    obtain ⟨hhead', htail', hheader', hcapacity'⟩ := floorRebuilt_region (w := u)
    refine ⟨v, hcall, rfl, ?_⟩
    have hsettled : v.refreshed d = v := by
      refine floorRebuilt_refreshed (w := u) ?_
      simp only [u, hregion, refreshed, withCursors, hhead, htail, hfloor]
    have hext' : reclaimExtent host v = reclaimExtent host { w.refreshed d with region } :=
      reclaimExtent_congr rfl rfl rfl rfl hheader'
    rw [← hext']
    have hd' : cursorLen v.chan.config.capacity v.region.head v.region.tail = some d := by
      rw [show v.region.head = w.region.head from hhead'.trans hhead,
        show v.region.tail = w.region.tail from htail'.trans htail]
      exact hd
    exact reclaimStale_mpsc_again hmode (hcapacity'.trans (hcapacity.trans hcap)) hd' hsettled
      (deadPins_freed hheader')
  · rw [if_neg hpos] at hcall
    have hzero : deadPins host (w.refreshed d) = 0 := Nat.eq_zero_of_not_pos hpos
    have halive : region = w.region := Region.freeDead_of_alive hzero
    rw [hstale, hzero, halive]
    exact ⟨w.refreshed d, hcall, rfl, reclaimStale_mpsc_again hmode hcap hd rfl hzero⟩

omit [Checksum] in
/-- What a cleanup leaves is settled: its words are the region's, and a
refresh finds nothing new. -/
theorem swept_settled (host : Host) (w : World) (d : ℕ) :
    (swept host w d).region.head = w.region.head ∧
    (swept host w d).region.tail = w.region.tail ∧
    (swept host w d).region.header =
      (w.region.freeDead host Region.isStale w.uncovered).header ∧
    (swept host w d).refreshed d = swept host w d := by
  obtain ⟨hhead, htail, -, -⟩ := Region.freeDead_words host Region.isStale w.uncovered w.region
  refine ⟨?_, ?_, ?_, floorRebuilt_refreshed rfl⟩
  · exact floorRebuilt_region.1.trans hhead
  · exact floorRebuilt_region.2.1.trans htail
  · exact floorRebuilt_region.2.2.1

omit [Checksum] in
/-- **A cleanup in single-producer mode** counts exactly. -/
theorem reclaimStale_spsc_counts (host : Host) (hmode : w.chan.config.multiProducer = false)
    (hd : cursorLen w.chan.config.capacity w.region.head w.region.tail = some d) :
    ∃ v, reclaimStale host w = .ok (w.stale host) v ∧
      v.chan.reclaimedSlots = w.chan.reclaimedSlots + w.stale host ∧
        reclaimStale host v = .ok 0 v := by
  have hcall := reclaimStale_spsc host hmode hd
  by_cases hpos : 0 < w.stale host
  · rw [if_pos hpos] at hcall
    refine ⟨swept host w d, hcall, rfl, ?_⟩
    obtain ⟨hhead, htail, hheader, hsettled⟩ := swept_settled host w d
    have huncovered : (swept host w d).uncovered = w.uncovered := by
      rw [uncovered, hhead, htail]
      rfl
    have hd' : cursorLen (swept host w d).chan.config.capacity (swept host w d).region.head
        (swept host w d).region.tail = some d := by
      rw [hhead, htail]
      exact hd
    have hstale : (swept host w d).stale host = 0 := by
      rw [stale_spsc (w := swept host w d) hmode, huncovered]
      refine List.countP_eq_zero.2 fun i hi => ?_
      rw [Region.dead_congr (congrFun hheader i), Region.dead_freeDead rfl hi]
      exact Bool.false_ne_true
    have hagain := reclaimStale_spsc (w := swept host w d) host hmode hd'
    rw [hstale, if_neg (Nat.lt_irrefl 0), hsettled] at hagain
    exact hagain
  · have hzero : w.stale host = 0 := Nat.eq_zero_of_not_pos hpos
    rw [if_neg hpos] at hcall
    rw [hzero]
    refine ⟨w.refreshed d, hcall, rfl, ?_⟩
    have hagain := reclaimStale_spsc (w := w.refreshed d) host hmode hd
    have hstale : (w.refreshed d).stale host = w.stale host :=
      (stale_spsc (w := w.refreshed d) hmode).trans (stale_spsc hmode).symm
    rw [hstale, if_neg hpos] at hagain
    exact hagain

/-- **When a call counts exactly**: it is no cleanup that meets a dead
reservation. -/
theorem countsExactly_iff (hcap : w.region.capacity = w.chan.config.capacity) (call : ReclaimCall) :
    ReclaimCall.CountsExactly host w call ↔ ¬ ReclaimCall.MeetsReservation host w call := by
  cases call with
  | recv =>
      refine iff_of_true ⟨recvWithSeq_counted hcap, ?_, ?_⟩ fun h => nomatch h.1
      · exact fun h => nomatch h
      · exact fun h => nomatch h
  | tryRecv =>
      refine iff_of_true ⟨tryRecv_counted hcap, ?_, ?_⟩ fun h => nomatch h.1
      · exact fun h => nomatch h
      · exact fun h => nomatch h
  | reclaimStale =>
      cases hd : cursorLen w.chan.config.capacity w.region.head w.region.tail with
      | none =>
          have hcall : reclaimStale host w = .error inconsistentCursors _ :=
            bind_error (refreshCursors_none hd)
          refine iff_of_true ⟨?_, ?_, ?_⟩ ?_
          · rw [ReclaimCall.run, hcall, ReclaimCall.reclaims, hd]
            rfl
          · intro _ n v hok
            cases hcall.symm.trans hok
          · intro _ n v hok
            cases hcall.symm.trans hok
          · rintro ⟨-, -, d, -, hd', -⟩
            cases hd.symm.trans hd'
      | some d =>
          have hreclaims : ReclaimCall.reclaimStale.reclaims host w =
              (w.refreshed d).stale host := by
            rw [ReclaimCall.reclaims, hd]
          have hexact {n v} (hcall : reclaimStale host w = .ok n v)
              (hcounted : v.chan.reclaimedSlots =
                w.chan.reclaimedSlots + ReclaimCall.reclaimStale.reclaims host w)
              (hn : n = ReclaimCall.reclaimStale.reclaims host w) :
              ReclaimCall.CountsExactly host w .reclaimStale ↔ reclaimStale host v = .ok 0 v := by
            constructor
            · exact fun h => h.again rfl n v hcall
            · refine fun hagain => ⟨?_, fun _ m u hm => ?_, fun _ m u hm => ?_⟩
              · rw [ReclaimCall.run, hcall]
                exact hcounted
              · rw [← hn]
                exact ((EStateM.Result.ok.inj (hcall.symm.trans hm)).1).symm
              · rw [← (EStateM.Result.ok.inj (hcall.symm.trans hm)).2]
                exact hagain
          cases hmode : w.chan.config.multiProducer with
          | false =>
              obtain ⟨v, hcall, hcounted, hagain⟩ := reclaimStale_spsc_counts host hmode hd
              have hstale : w.stale host = (w.refreshed d).stale host :=
                (stale_spsc hmode).trans (stale_spsc (w := w.refreshed d) hmode).symm
              rw [hstale, ← hreclaims] at hcounted
              rw [hstale, ← hreclaims] at hcall
              refine iff_of_true ((hexact hcall hcounted rfl).2 hagain) ?_
              rintro ⟨-, hmulti, -⟩
              exact Bool.false_ne_true (hmode.symm.trans hmulti)
          | true =>
              cases hext : reclaimExtent host (w.refreshed d) with
              | none =>
                  obtain ⟨v, hcall, hcounted, hagain⟩ :=
                    reclaimStale_mpsc_counts hmode hcap hd hext
                  rw [← hreclaims] at hcounted hcall
                  exact (hexact hcall hcounted rfl).trans hagain
              | some extent =>
                  have hmeets : ReclaimCall.MeetsReservation host w .reclaimStale :=
                    ⟨rfl, hmode, d, extent, hd,
                      reclaimExtent_freeDead (current_refreshed hd) hext⟩
                  refine iff_of_false (fun h => ?_) (not_not.2 hmeets)
                  obtain ⟨n, v, hpos, -, hcall, hcounted⟩ :=
                    reclaimStale_mpsc_some hmode hcap hd hext
                  have hexactly := h.counted
                  rw [ReclaimCall.run, hcall, hreclaims] at hexactly
                  have hsum := hcounted.symm.trans hexactly
                  omega

/-! ## Over a run -/

/-- The sizes a handle and its region share. -/
def sizes (w : World) : ℕ × SpscConfig := (w.region.capacity, w.chan.config)

section Keeps

omit [Checksum]

variable {α : Type} {index : ℕ} {indices : List ℕ}

theorem keeps_sizes {op : RegionM α} (h : Keeps Region.capacity op) :
    Keeps sizes (onRegion op) := by
  intro w
  have hcap := h w.region
  unfold onRegion
  split <;> rename_i hop <;> rw [hop] at hcap
  · exact congrArg (·, w.chan.config) hcap
  · exact congrArg (·, w.chan.config) hcap

theorem capacity_reclaimDead {state : SlotState} :
    Keeps Region.capacity (Region.reclaimDead host state index) := by
  intro region
  rw [Region.reclaimDead_eq, Region.freeOne]
  split <;> rfl

theorem capacity_reclaimRun {rounds : ℕ} :
    Keeps Region.capacity (reclaimRun host rounds index) := by
  induction rounds generalizing index with
  | zero => exact keeps_pure 0
  | succ rounds ih =>
      refine keeps_get.bind fun region => ?_
      split
      · exact keeps_pure 0
      refine capacity_reclaimDead.bind fun freed => ?_
      split
      · exact ih.bind fun n => keeps_pure _
      · exact keeps_pure 0

theorem capacity_sumOver {call : ℕ → RegionM ℕ} (h : ∀ i, Keeps Region.capacity (call i)) :
    Keeps Region.capacity (sumOver call indices) := by
  induction indices with
  | nil => exact keeps_pure 0
  | cons i indices ih => exact (h i).bind fun n => ih.bind fun m => keeps_pure _

theorem capacity_peekCommitted : Keeps Region.capacity (Region.peekCommitted index) := by
  refine keeps_get.bind fun region => ?_
  split
  · exact keeps_throw _
  dsimp only
  split
  · exact keeps_throw _
  · exact keeps_pure _

theorem capacity_readCommitted : Keeps Region.capacity (Region.readCommitted index) := by
  refine capacity_peekCommitted.bind fun snapshot =>
    Keeps.bind (keeps_modify ?_) fun _ => keeps_pure _
  exact fun _ => rfl

theorem capacity_releasePinned : Keeps Region.capacity (Region.releasePinned index) := by
  intro region
  rw [Region.releasePinned, get_bind]
  split <;> rfl

theorem sizes_refreshCursors : Keeps sizes refreshCursors := by
  intro w
  cases hd : cursorLen w.chan.config.capacity w.region.head w.region.tail with
  | none => rw [refreshCursors_none hd]; rfl
  | some d => rw [refreshCursors_ok hd]; rfl

theorem sizes_rebuildFloor : Keeps sizes rebuildFloor := by
  intro w
  rw [rebuildFloor_eq]
  exact congrArg (·, w.chan.config) floorRebuilt_region.2.2.2

theorem sizes_reclaimMpsc : Keeps sizes (tryReclaimAtTailMpsc host) := by
  intro w
  rw [tryReclaimAtTailMpsc, get_bind]
  cases hext : reclaimExtent host w with
  | none => rfl
  | some extent =>
      have hcap := (releaseExtent_words extent w.chan.tail w.region).capacity
      simp only [modifyRegion, modifyChan, modify_bind, get_bind, Region.compareExchangeTail]
      split
      · exact congrArg (·, w.chan.config) hcap
      · exact congrArg (·, w.chan.config) hcap

theorem sizes_tryReclaimAtTail : Keeps sizes (tryReclaimAtTail host) := by
  refine keeps_get.bind fun w => ?_
  split
  · exact sizes_reclaimMpsc
  refine keeps_get.bind fun w => ?_
  dsimp only
  split
  · exact keeps_pure 0
  refine (keeps_sizes capacity_reclaimRun).bind fun freed => ?_
  split
  · exact keeps_pure 0
  refine Keeps.bind (keeps_modify ?_) fun _ => keeps_pure _
  exact fun _ => rfl

theorem sizes_pollTailCommitted : Keeps sizes pollTailCommitted := by
  intro w
  rw [pollTailCommitted, pollTailCommittedFor_succ]
  split
  · rfl
  · split <;> rfl

theorem sizes_readTail : Keeps sizes readTail :=
  keeps_get.bind fun _ => keeps_sizes capacity_readCommitted

theorem sizes_tailCommitted : Keeps sizes tailCommitted :=
  keeps_get.bind fun _ => keeps_pure _

/-- The receive steps keep the sizes. -/
theorem tailOps_sizes : TailHas (fun x => Keeps sizes x) tailOps where
  readNext := by
    refine sizes_pollTailCommitted.bind fun committed => ?_
    split
    · exact sizes_readTail
    · exact keeps_throw _
  releasePinned := keeps_get.bind fun _ => keeps_sizes capacity_releasePinned
  advance := by
    refine keeps_get.bind fun w => ?_
    rw [if_pos rfl]
    refine (keeps_sizes capacity_releasePinned).bind fun _ => Keeps.bind (keeps_modify ?_) ?_
    · exact fun _ => rfl
    · exact fun _ => keeps_modify fun _ => rfl
  bumpExpected := keeps_modify fun _ => rfl
  setLastReceived _ := keeps_modify fun _ => rfl

theorem sizes_ensureTailReadable : Keeps sizes (ensureTailReadable host) := by
  refine sizes_refreshCursors.bind fun _ => keeps_get.bind fun w => ?_
  dsimp only
  split
  · exact keeps_throw _
  refine Keeps.bind (keeps_modify ?_) fun _ => sizes_pollTailCommitted.bind fun committed => ?_
  · exact fun _ => rfl
  split
  · exact keeps_pure _
  refine sizes_tryReclaimAtTail.bind fun freed => ?_
  split
  · refine Keeps.bind (keeps_modify ?_) fun _ => keeps_throw _
    exact fun _ => rfl
  refine sizes_tailCommitted.bind fun committed => ?_
  split
  · exact keeps_pure _
  · exact keeps_throw _

theorem sizes_reclaimTailMpsc : Keeps sizes (reclaimTailMpsc host rounds) := by
  induction rounds with
  | zero => exact keeps_pure 0
  | succ rounds ih =>
      refine sizes_reclaimMpsc.bind fun freed => ?_
      split
      · exact keeps_pure 0
      · exact sizes_refreshCursors.bind fun _ => ih.bind fun n => keeps_pure _

theorem sizes_recomputeSpscBias : Keeps sizes recomputeSpscBias := by
  refine keeps_get.bind fun w => ?_
  dsimp only
  split
  · exact keeps_throw _
  · exact keeps_pure _

theorem sizes_reclaimStale : Keeps sizes (reclaimStale host) := by
  refine sizes_refreshCursors.bind fun _ => keeps_get.bind fun w => ?_
  dsimp only
  split
  · refine sizes_reclaimTailMpsc.bind fun freed => ?_
    rw [Region.reclaimEach_eq_sumOver]
    refine (keeps_sizes (capacity_sumOver fun i =>
      capacity_reclaimDead.bind fun _ => keeps_pure _)).bind fun unpinned => ?_
    split
    · refine Keeps.bind (keeps_modify ?_) fun _ => sizes_rebuildFloor.bind fun _ => keeps_pure _
      exact fun _ => rfl
    · exact keeps_pure _
  · refine (keeps_sizes (capacity_sumOver fun i => capacity_reclaimDead.bind fun _ =>
      capacity_reclaimDead.bind fun _ => keeps_pure _)).bind fun total => ?_
    split
    · refine Keeps.bind (keeps_modify ?_) fun _ => sizes_recomputeSpscBias.bind fun bias =>
        Keeps.bind (keeps_modify ?_) fun _ => sizes_refreshCursors.bind fun _ =>
          sizes_rebuildFloor.bind fun _ => keeps_pure _
      · exact fun _ => rfl
      · exact fun _ => rfl
    · exact keeps_pure _

end Keeps

theorem sizes_recvWithSeq : Keeps sizes (recvWithSeq host) := by
  refine sizes_ensureTailReadable.bind fun resync => sizes_readTail.bind fun snapshot =>
    Keeps.bind ?_ fun _ => tailOps_sizes.finishRecv (keeps_composes _)
      ⟨fun _ _ => trivial, fun _ => trivial⟩
  refine keeps_get.bind fun w => ?_
  split
  · exact keeps_modify fun _ => rfl
  split
  · exact keeps_throw _
  · exact keeps_pure _

theorem sizes_tryRecv : Keeps sizes (tryRecv host) := by
  have hsome : Keeps sizes (recvWithSeq host >>= fun message => pure (some message.payload)) :=
    sizes_recvWithSeq.bind fun _ => keeps_pure _
  refine sizes_refreshCursors.bind fun _ => keeps_get.bind fun w => ?_
  split
  · exact keeps_throw _
  refine sizes_tailCommitted.bind fun committed => ?_
  split
  · exact hsome
  refine sizes_tryReclaimAtTail.bind fun freed => ?_
  split
  · exact keeps_pure none
  refine sizes_tailCommitted.bind fun committed => ?_
  split
  · exact hsome
  · exact keeps_pure none

/-- **A call keeps the sizes.** -/
theorem sizes_run (host : Host) (w : World) (call : ReclaimCall) :
    sizes (call.run host w) = sizes w := by
  cases call with
  | recv => exact sizes_recvWithSeq w
  | tryRecv => exact sizes_tryRecv w
  | reclaimStale => exact sizes_reclaimStale w

end PersistentShmChannel

/-! ## The calls of a handle -/

section Calls

variable [Checksum]

/-- One call, with what the host answers during it. -/
abbrev step (w : World) (call : Host × ReclaimCall) : World := call.2.run call.1 w

end Calls

/-- A ring of two slots, both reserved by a process that is gone. -/
def abandoned (multiProducer : Bool) (head : ℕ) : World where
  chan := fresh sampleHost ⟨2, 8, .raise, none, multiProducer⟩
  region :=
    { capacity := 2
      frameCapacity := 58
      head
      tail := 0
      magic := regionMagic multiProducer
      format := REGION_FORMAT
      pinFloor := PIN_FLOOR_NONE
      slots := fun _ => ⟨encodeHeader .writing 0 0 (some ⟨9, 1, 1, 1, 1⟩) true, .zero⟩ }

/-- A host on which every other process is gone. -/
def widowed : Host := { sampleHost with liveness := fun _ => .gone }

end Dsline
