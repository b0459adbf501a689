import Mathlib.Data.Finset.Range
import Mathlib.Data.Finset.Card
import Dsline.Shm.DropInside
/-!
# Whether the space loop of a `DropOldest` send ends

`while capacity - guard_len() < needed { drop_oldest_message()? }` tests a
length that sees the pin floor, and works on one that does not. A drop that
succeeds frees a COMMITTED slot or finds nothing counted. Where nothing is
counted and the guard still refuses, the loop never ends: the floor a view
of another handle pins keeps the slots behind it from the guard, and no drop
moves it.
-/

namespace Dsline

open PersistentShmChannel Effect

namespace World

/-! ## What the loop comes to -/

/-- Each of the slots at the tail is released, and stepped over. -/
def freed : ℕ → World → World
  | 0, w => w
  | count + 1, w => freed count
      { chan :=
          { w.chan with
            tail := (w.chan.tail + 1) % w.chan.config.capacity
            tailCursor := wrappingAdd w.chan.tailCursor 1
            len := w.chan.len - 1 }
        region := w.region.forceRelease w.chan.tail }

/-- The world a multi-producer handle leaves that dropped a message of
`count` slots. -/
def discarded (w : World) (count : ℕ) : World :=
  let v := freed count { w with region := { w.region with tail := w.chan.tailCursor + count } }
  { v with chan := { v.chan with expectedRecvSeq := v.chan.expectedRecvSeq + 1 } }

/-- **One drop of a message**: the one at the tail or, in multi-producer
mode, the one behind the dead reservations there. -/
inductive DropsTo (host : Host) (w : World) : World → Prop
  | single {count : ℕ} : w.chan.config.multiProducer = false → w.chan.len ≠ 0 →
      w.region.announces w.chan.tail = some count → DropsTo host w (w.dropped count)
  | multi {v : World} {d count : ℕ} : w.chan.config.multiProducer = true → Clears host w v →
      v.Round d → v.region.announces (v.refreshed d).chan.tail = some count →
        DropsTo host w ((v.refreshed d).discarded count)

/-- The drops of a loop that wants this many slots. -/
inductive Drains (host : Host) (needed : ℕ) : World → World → Prop
  | refl (w : World) : Drains host needed w w
  | step {w u v : World} : ¬ w.chan.admits needed → DropsTo host w u →
      Drains host needed u v → Drains host needed w v

/-- **Nothing is counted, and the guard refuses.** In multi-producer mode
the drop first reclaims what is dead at the tail. -/
def Exhausted (host : Host) (needed : ℕ) (w : World) : Prop :=
  (w.chan.config.multiProducer = false ∧ w.chan.len = 0) ∨
    (w.chan.config.multiProducer = true ∧ ∃ v d, Clears host w v ∧
      cursorLen v.chan.config.capacity v.region.head v.region.tail = some d ∧
        (v.refreshed d).chan.len = 0 ∧ ¬ (v.refreshed d).chan.admits needed)

/-- **The loop stalls here**: the guard refuses, and a drop finds nothing
counted or (in multi-producer mode) a damaged slot. -/
structure Stalls (host : Host) (needed : ℕ) (w : World) : Prop where
  refused : ¬ w.chan.admits needed
  stuck : w.Exhausted host needed ∨
    (w.chan.config.multiProducer = true ∧ w.DropsDamaged host)

/-- The drops of the loop lead to where it stalls. -/
def DrainsDry (host : Host) (needed : ℕ) (w : World) : Prop :=
  ∃ v, Drains host needed w v ∧ v.Stalls host needed

/-- The messages of a single-producer queue, read one after the other from
its tail: the next one starts `s` slots on. -/
inductive ReadsTo (w : World) : ℕ → Prop
  | start : ReadsTo w 0
  | step {s count : ℕ} : ReadsTo w s → s < w.chan.len →
      w.region.announces ((w.region.tail + s) % w.chan.config.capacity) = some count →
        ReadsTo w (s + count)

/-- The slots the floor keeps leave the loop what it wants. -/
def Roomy (needed : ℕ) (w : World) : Prop :=
  needed ≤ w.chan.config.capacity - (w.region.head - w.region.pinFloor)

/-- **The loop ends**: some number of rounds is enough, for it and for the
drops it makes. -/
def LoopEnds (host : Host) (needed : ℕ) (w : World) : Prop :=
  ∃ fuel, outcome (dropUntilAdmitted { host with fuel } needed fuel w) ≠ .error .diverges

end World

namespace PersistentShmChannel

open World

variable {host : Host} {w u v : World} {d needed count fuel rounds waits : ℕ}

theorem dropSlotsMpsc_freed (count : ℕ) (w : World) :
    dropSlotsMpsc count w = .ok () (w.freed count) := by
  induction count generalizing w with
  | zero => rfl
  | succ count ih => exact ih _

/-- The discard of a handle that mirrors the tail. -/
theorem discard_discarded (hcursor : w.chan.tailCursor = w.region.tail) (count : ℕ) :
    dropOldestMessageMpsc.discard w.chan.tailCursor count w = .ok () (w.discarded count) := by
  rw [dropOldestMessageMpsc.discard, get_bind, Region.compareExchangeTail, hcursor, if_pos rfl]
  refine (bind_ok (dropSlotsMpsc_freed count _)).trans ?_
  rw [discarded, hcursor]
  rfl

/-! ## A drop frees a COMMITTED slot -/

/-- What is COMMITTED behind a release was before it, elsewhere. -/
theorem committed_of_forceRelease {region : Region} {index i : ℕ}
    (h : (region.forceRelease index).state i = .committed) :
    region.state i = .committed ∧ i ≠ index := by
  have hne : i ≠ index := by
    rintro rfl
    cases h.symm.trans (forceRelease_free (.inr rfl))
  rw [Region.forceRelease_eq] at h
  simp only [Region.state, Region.header, Region.setSlot_slots_of_ne hne] at h
  exact ⟨h, hne⟩

theorem committed_of_releaseExtent {i : ℕ} (n index : ℕ) (region : Region)
    (h : (releaseExtent n index region).state i = .committed) : region.state i = .committed := by
  induction n generalizing index region with
  | zero => exact h
  | succ n ih => exact (committed_of_forceRelease (ih _ _ h)).1

theorem committed_of_freed {i : ℕ} (count : ℕ) (w : World)
    (h : (w.freed count).region.state i = .committed) :
    w.region.state i = .committed ∧ (0 < count → i ≠ w.chan.tail) := by
  induction count generalizing w with
  | zero => exact ⟨h, nofun⟩
  | succ count ih =>
      obtain ⟨hstate, hne⟩ := committed_of_forceRelease (ih _ h).1
      exact ⟨hstate, fun _ => hne⟩

theorem freed_config (count : ℕ) (w : World) : (w.freed count).chan.config = w.chan.config := by
  induction count generalizing w with
  | zero => rfl
  | succ count ih => exact ih _

/-- Reclaims commit nothing. -/
theorem committed_of_clears {i : ℕ} (h : Clears host w v) (hi : v.region.state i = .committed) :
    w.region.state i = .committed := by
  induction h with
  | refl => exact hi
  | step _ _ _ _ _ ih => exact committed_of_releaseExtent _ _ _ (ih hi)

theorem clears_config (h : Clears host w v) : v.chan.config = w.chan.config := by
  induction h with
  | refl => rfl
  | step _ _ _ _ _ ih => exact ih

/-- The slots of the ring that are COMMITTED. -/
def committedSlots (w : World) : Finset ℕ :=
  (Finset.range w.chan.config.capacity).filter fun i => w.region.state i = .committed

/-- What the loop has left to drop. -/
def unread (w : World) : ℕ :=
  if w.chan.config.multiProducer then (committedSlots w).card else w.chan.len

/-- **Every drop leaves less.** -/
theorem dropsTo_unread (hpos : 0 < w.chan.config.capacity) (h : DropsTo host w u) :
    unread u < unread w ∧ u.chan.config = w.chan.config := by
  cases h with
  | @single count hmode hlen hannounces =>
      have hconfig : (w.dropped count).chan.config = w.chan.config := consumed_config
      refine ⟨?_, hconfig⟩
      have hcount := (announces_bounds hannounces).1
      have hless : (w.dropped count).chan.len = w.chan.len - count := consumed_len
      have hmode' : (w.dropped count).chan.config.multiProducer = false :=
        (congrArg SpscConfig.multiProducer hconfig).trans hmode
      rw [unread, unread, hmode, hmode', if_neg Bool.false_ne_true, if_neg Bool.false_ne_true,
        hless]
      omega
  | @multi v d count hmode hclears hround hannounces =>
      set u := (v.refreshed d).discarded count
      have hconfig : u.chan.config = w.chan.config :=
        (freed_config count _).trans (clears_config (v := v) hclears)
      refine ⟨?_, hconfig⟩
      have hcount := (announces_bounds hannounces).1
      have hstate := (announces_intact (w := v.refreshed d) hannounces).1
      have hindex : (v.refreshed d).chan.tail < w.chan.config.capacity := by
        rw [← clears_config hclears] at hpos ⊢
        exact Nat.mod_lt _ hpos
      rw [unread, unread, hconfig, hmode, if_pos rfl, if_pos rfl]
      refine Finset.card_lt_card ((Finset.ssubset_iff_of_subset fun i hi => ?_).2 ?_)
      · obtain ⟨hrange, hi⟩ := Finset.mem_filter.1 hi
        rw [hconfig] at hrange
        exact Finset.mem_filter.2
          ⟨hrange, committed_of_clears hclears (committed_of_freed count _ hi).1⟩
      · -- The slot at the tail was COMMITTED, and is not.
        refine ⟨_, Finset.mem_filter.2 ⟨Finset.mem_range.2 hindex,
          committed_of_clears hclears hstate⟩, fun hi => ?_⟩
        exact (committed_of_freed count _ (Finset.mem_filter.1 hi).2).2 hcount rfl

/-! ## How a multi-producer drop ends -/

/-- **How a drop can end** that comes to no damaged slot. -/
inductive Finds (host : Host) (w : World) : EStateM.Result Failure World Unit → Prop
  | message {v : World} {d count : ℕ} : Clears host w v → v.Round d →
      v.region.announces (v.refreshed d).chan.tail = some count →
        Finds host w (.ok () ((v.refreshed d).discarded count))
  | nothing {v : World} {d : ℕ} : Clears host w v →
      cursorLen v.chan.config.capacity v.region.head v.region.tail = some d →
        (v.refreshed d).chan.len = 0 → Finds host w (.ok () (v.refreshed d))
  | fails {err : Failure} {v : World} : err ≠ .diverges → Finds host w (.error err v)

/-- A drop with this many rounds or more ends so, whatever rounds its host
has for another loop. -/
def Settles (host : Host) (waits : ℕ) (w : World)
    (r : EStateM.Result Failure World Unit) : Prop :=
  ∃ rounds, ∀ fuel, ∀ rounds' ≥ rounds,
    dropOldestMessageMpsc { host with fuel } rounds' waits w = r

theorem settles_of_round {r : EStateM.Result Failure World Unit}
    (h : ∀ fuel (again : ℕ → ChannelM Unit),
      dropRound (dropOps { host with fuel }) again waits w = r) :
    Settles host waits w r := by
  refine ⟨1, fun fuel rounds hrounds => ?_⟩
  obtain ⟨rounds, rfl⟩ := Nat.exists_eq_succ_of_ne_zero (Nat.ne_of_gt hrounds)
  rw [drop_succ, h]

theorem settles_of_again {waits' : ℕ} {r : EStateM.Result Failure World Unit}
    (hround : ∀ fuel (again : ℕ → ChannelM Unit),
      dropRound (dropOps { host with fuel }) again waits w = again waits' v)
    (h : Settles host waits' v r) : Settles host waits w r := by
  obtain ⟨least, hleast⟩ := h
  refine ⟨least + 1, fun fuel rounds hrounds => ?_⟩
  obtain ⟨rounds, rfl⟩ : ∃ n, rounds = n + 1 := ⟨rounds - 1, by omega⟩
  rw [drop_succ, hround]
  exact hleast fuel rounds (Nat.le_of_succ_le_succ hrounds)

/-- What is found behind a reclaim is found. -/
theorem Finds.reclaimed {extent : ℕ} {r : EStateM.Result Failure World Unit}
    (hround : w.Round d) (hstate : ¬ AtCommitted (w.refreshed d)) (hopen : w.chan.closed = false)
    (hext : reclaimExtent host (w.refreshed d) = some extent)
    (h : Finds host ((w.refreshed d).extentFreed extent) r) : Finds host w r := by
  cases h with
  | message hclears hr hk => exact .message (.step hround hstate hopen hext hclears) hr hk
  | nothing hclears hd hlen => exact .nothing (.step hround hstate hopen hext hclears) hd hlen
  | fails hne => exact .fails hne

/-- What is found behind a refresh is found. -/
theorem Finds.refreshed {r : EStateM.Result Failure World Unit}
    (hround : w.Round d) (h : Finds host (w.refreshed d) r) : Finds host w r := by
  cases h with
  | fails hne => exact .fails hne
  | message hclears hr hk =>
      cases hclears with
      | refl =>
          obtain ⟨hd, hlen⟩ := hr
          exact .message (v := w) (.refl w) ⟨hd, hlen⟩ hk
      | step hr' hstate hopen hext hrest =>
          cases Option.some.inj (hround.cursors.symm.trans hr'.cursors)
          exact .message (.step hround hstate hopen hext hrest) hr hk
  | nothing hclears hd hlen =>
      cases hclears with
      | refl => exact .nothing (v := w) (.refl w) hd hlen
      | step hr' hstate hopen hext hrest =>
          cases Option.some.inj (hround.cursors.symm.trans hr'.cursors)
          exact .nothing (.step hround hstate hopen hext hrest) hd hlen

/-- At an intact slot it drops the message, or fails. -/
theorem committed_settles (hround : w.Round d) (hstate : AtCommitted (w.refreshed d))
    (hintact : ¬ Damaged (w.refreshed d)) : ∃ r, Finds host w r ∧ Settles host waits w r := by
  cases hk : w.region.announces (w.refreshed d).chan.tail with
  | none =>
      refine ⟨.error (.ofChannel .corruptedMessage) (w.refreshed d), .fails nofun,
        settles_of_round fun fuel again => ?_⟩
      rcases dropRound_reads { host with fuel } again waits hround hstate hintact with
        ⟨k, hk', -⟩ | ⟨-, hcall⟩
      · cases hk.symm.trans hk'
      · exact hcall
  | some count =>
      refine ⟨_, .message (.refl w) hround hk, settles_of_round fun fuel again => ?_⟩
      rcases dropRound_reads { host with fuel } again waits hround hstate hintact with
        ⟨k, hk', hcall⟩ | ⟨hnone, -⟩
      · cases Option.some.inj (hk.symm.trans hk')
        exact hcall.trans (discard_discarded rfl count)
      · cases hk.symm.trans hnone

/-- **A drop that comes to no damaged slot settles**, as `drop_returns` has
it. -/
theorem drop_settles (budget : ℕ) : ∀ {w : World} {waits : ℕ}, dropBudget w waits ≤ budget →
    w.chan.config.multiProducer = true → ¬ w.DropsDamaged host →
      ∃ r, Finds host w r ∧ Settles host waits w r := by
  induction budget using Nat.strong_induction_on with
  | _ budget ih =>
      intro w waits hbudget hmode h
      cases hd : cursorLen w.chan.config.capacity w.region.head w.region.tail with
      | none =>
          let v : World :=
            { w with chan := w.chan.withCursors w.region.head w.region.tail w.region.pinFloor }
          refine ⟨.error inconsistentCursors v, .fails (fun h => by cases h),
            settles_of_round fun fuel again => ?_⟩
          rw [dropRound.eq_def, bind_error (refreshCursors_none hd)]
      | some d =>
          by_cases hlen : (w.refreshed d).chan.len = 0
          · exact ⟨_, .nothing (.refl w) hd hlen,
              settles_of_round fun fuel again => dropRound_nothing hd hlen⟩
          have hround : w.Round d := ⟨hd, hlen⟩
          by_cases hstate : AtCommitted (w.refreshed d)
          · exact committed_settles hround hstate
              fun hdamaged => h ⟨w, d, .refl w, hround, hdamaged⟩
          cases hopen : w.chan.closed with
          | true =>
              exact ⟨.error (.ofChannel .closed) (w.refreshed d), .fails (fun h => by cases h),
                settles_of_round fun fuel again => dropRound_shut hround hstate hopen⟩
          | false =>
              cases hext : reclaimExtent host (w.refreshed d) with
              | some extent =>
                  have hless : dropBudget ((w.refreshed d).extentFreed extent) waits <
                      dropBudget w waits := dropBudget_reclaims hext
                  have hrest : ¬ ((w.refreshed d).extentFreed extent).DropsDamaged host := by
                    rintro ⟨v, d', hclears, hdamaged⟩
                    exact h ⟨v, d', .step hround hstate hopen hext hclears, hdamaged⟩
                  obtain ⟨r, hfinds, hsettles⟩ := ih _ (Nat.lt_of_lt_of_le hless hbudget)
                    (Nat.le_refl _) hmode hrest
                  exact ⟨r, hfinds.reclaimed hround hstate hopen hext, settles_of_again
                    (fun fuel again => dropRound_reclaims hmode hround hstate hopen hext) hsettles⟩
              | none =>
                  cases waits with
                  | zero =>
                      refine ⟨.error (.ofChannel .bufferFull) (w.refreshed d),
                        .fails (fun h => by cases h), settles_of_round fun fuel again => ?_⟩
                      exact dropRound_waits hmode hround hstate hopen hext
                  | succ waits =>
                      obtain ⟨r, hfinds, hsettles⟩ := ih (dropBudget w waits)
                        (Nat.lt_of_lt_of_le (Nat.lt_succ_self (dropBudget w waits)) hbudget)
                        (w := w.refreshed d) (Nat.le_refl _) hmode
                        fun hdamaged => h (comes_refreshed hround hdamaged)
                      exact ⟨r, hfinds.refreshed hround, settles_of_again
                        (fun fuel again => dropRound_waits hmode hround hstate hopen hext) hsettles⟩

/-- The drop of a handle with `fuel` rounds. -/
theorem drop_with (host : Host) (hmode : w.chan.config.multiProducer = true) (fuel : ℕ) :
    dropOldestMessage { host with fuel } w =
      dropOldestMessageMpsc { host with fuel } fuel host.polls w := by
  rw [dropOldestMessage, get_bind, if_pos hmode]

variable (fuel) in
/-- Reclaims do not depend on the rounds. -/
theorem clears_with (h : Clears host w v) : Clears { host with fuel } w v := by
  induction h with
  | refl w => exact .refl w
  | step hround hstate hopen hext _ ih => exact .step hround hstate hopen hext ih

/-! ## The loop -/

theorem loop_admits (h : w.chan.admits needed) :
    dropUntilAdmitted host needed (rounds + 1) w = .ok () w := by
  rw [dropUntilAdmitted, get_bind, if_pos h]
  rfl

theorem loop_drops (h : ¬ w.chan.admits needed) (hdrop : dropOldestMessage host w = .ok () u) :
    dropUntilAdmitted host needed (rounds + 1) w = dropUntilAdmitted host needed rounds u := by
  rw [dropUntilAdmitted, get_bind, if_neg h]
  exact bind_ok hdrop

theorem loop_fails {err : Failure} (h : ¬ w.chan.admits needed)
    (hdrop : dropOldestMessage host w = .error err u) :
    dropUntilAdmitted host needed (rounds + 1) w = .error err u := by
  rw [dropUntilAdmitted, get_bind, if_neg h]
  exact bind_error hdrop

/-- The call runs out of rounds. -/
def RunsOut (r : EStateM.Result Failure World Unit) : Prop := outcome r = .error .diverges

/-- A drop that runs out. -/
theorem loop_out (h : ¬ w.chan.admits needed) (hout : RunsOut (dropOldestMessage host w))
    (rounds : ℕ) : RunsOut (dropUntilAdmitted host needed rounds w) := by
  cases rounds with
  | zero => rfl
  | succ rounds =>
      cases hcall : dropOldestMessage host w with
      | ok _ v =>
          rw [hcall] at hout
          cases hout
      | error err v =>
          rw [hcall] at hout
          rw [loop_fails h hcall]
          exact hout

/-- A drop that leads to where the loop runs out. -/
theorem loop_leads (h : ¬ w.chan.admits needed)
    (hdrop : RunsOut (dropOldestMessage host w) ∨ dropOldestMessage host w = .ok () u)
    (hrest : ∀ rounds, RunsOut (dropUntilAdmitted host needed rounds u)) (rounds : ℕ) :
    RunsOut (dropUntilAdmitted host needed rounds w) := by
  rcases hdrop with hout | hok
  · exact loop_out h hout rounds
  cases rounds with
  | zero => rfl
  | succ rounds =>
      rw [loop_drops h hok]
      exact hrest rounds

/-- **A drop that changes nothing** is made again and again. -/
theorem loop_returns (h : ¬ w.chan.admits needed)
    (hdrop : RunsOut (dropOldestMessage host w) ∨ dropOldestMessage host w = .ok () w)
    (rounds : ℕ) : RunsOut (dropUntilAdmitted host needed rounds w) := by
  rcases hdrop with hout | hok
  · exact loop_out h hout rounds
  induction rounds with
  | zero => rfl
  | succ rounds ih =>
      rw [loop_drops h hok]
      exact ih

variable (waits) in
/-- Too few rounds for the reclaims, or some left behind them. -/
theorem drop_behind (hmode : w.chan.config.multiProducer = true) (h : Clears host w v) :
    ∀ fuel, RunsOut (dropOldestMessageMpsc host fuel waits w) ∨
      ∃ fuel', dropOldestMessageMpsc host fuel waits w =
        dropOldestMessageMpsc host fuel' waits v := by
  induction h with
  | refl w => exact fun fuel => .inr ⟨fuel, rfl⟩
  | step hround hstate hopen hext hrest ih =>
      intro fuel
      cases fuel with
      | zero => exact .inl rfl
      | succ fuel =>
          rw [drop_succ, dropRound_reclaims hmode hround hstate hopen hext]
          exact ih hmode fuel

/-- **The call a drop stands for**: with too few rounds it runs out. -/
theorem dropsTo_call (h : DropsTo host w u) :
    RunsOut (dropOldestMessage { host with fuel } w) ∨
      dropOldestMessage { host with fuel } w = .ok () u := by
  cases h with
  | @single count hmode hlen hannounces =>
      rw [spsc_call hmode]
      rcases dropSpsc_eq hlen with ⟨k, hk, hdrop⟩ | ⟨hnone, -⟩
      · cases Option.some.inj (hannounces.symm.trans hk)
        exact .inr hdrop
      · cases hannounces.symm.trans hnone
  | @multi v d count hmode hclears hround hannounces =>
      rw [drop_with host hmode]
      rcases drop_behind host.polls hmode (clears_with fuel hclears) fuel with
        hout | ⟨fuel', hcall⟩
      · exact .inl hout
      rw [hcall]
      cases fuel' with
      | zero => exact .inl rfl
      | succ fuel' =>
          obtain ⟨hstate, hintact⟩ := announces_intact (w := v.refreshed d) hannounces
          rw [drop_succ]
          rcases dropRound_reads { host with fuel } (dropOldestMessageMpsc { host with fuel } fuel')
            host.polls hround hstate hintact with ⟨k, hk, hround⟩ | ⟨hnone, -⟩
          · cases Option.some.inj (hannounces.symm.trans hk)
            exact .inr (hround.trans (discard_discarded rfl count))
          · cases hannounces.symm.trans hnone

/-- A drop that finds nothing behind the reclaims. -/
theorem nothing_call (hmode : w.chan.config.multiProducer = true) (hclears : Clears host w v)
    (hd : cursorLen v.chan.config.capacity v.region.head v.region.tail = some d)
    (hlen : (v.refreshed d).chan.len = 0) :
    RunsOut (dropOldestMessage { host with fuel } w) ∨
      dropOldestMessage { host with fuel } w = .ok () (v.refreshed d) := by
  rw [drop_with host hmode]
  rcases drop_behind host.polls hmode (clears_with fuel hclears) fuel with
    hout | ⟨fuel', hcall⟩
  · exact .inl hout
  rw [hcall]
  cases fuel' with
  | zero => exact .inl rfl
  | succ fuel' =>
      rw [drop_succ, dropRound_nothing hd hlen]
      exact .inr rfl

/-- **A loop that stalls never ends.** -/
theorem stalls_loop (h : w.Stalls host needed) (rounds : ℕ) :
    RunsOut (dropUntilAdmitted { host with fuel } needed rounds w) := by
  rcases h.stuck with (⟨hmode, hlen⟩ | ⟨hmode, v, d, hclears, hd, hlen, hrefused⟩) |
    ⟨hmode, v, d, hclears, hround, hdamaged⟩
  · refine loop_returns h.refused (.inr ?_) rounds
    rw [spsc_call hmode, dropOldestMessageSpsc, get_bind, if_pos hlen]
    rfl
  · -- The first drop refreshes, and every other one finds what it left.
    have hmode' : v.chan.config.multiProducer = true := by rw [clears_config hclears, hmode]
    refine loop_leads h.refused (nothing_call hmode hclears hd hlen) (fun rounds => ?_) rounds
    exact loop_returns hrefused
      (nothing_call (w := v.refreshed d) (v := v.refreshed d) hmode' (.refl _) hd hlen) rounds
  · refine loop_out h.refused ?_ rounds
    rw [drop_with host hmode]
    exact drop_diverges hmode (clears_with fuel hclears) hround hdamaged

/-- **Nor one whose drops lead to where it stalls.** -/
theorem drains_loop (h : Drains host needed w v) (hv : v.Stalls host needed) : ∀ rounds,
    RunsOut (dropUntilAdmitted { host with fuel } needed rounds w) := by
  induction h with
  | refl => exact stalls_loop hv
  | step hrefused hdrop _ ih => exact loop_leads hrefused (dropsTo_call hdrop) (ih hv)

/-- **How a drop ends** where the loop does not stall, given rounds enough:
it drops a message, it makes the guard admit, or it fails. -/
theorem drop_ends (hrefused : ¬ w.chan.admits needed) (h : ¬ w.Stalls host needed) :
    ∃ r, ((∃ u, DropsTo host w u ∧ r = .ok () u) ∨ (∃ u, u.chan.admits needed ∧ r = .ok () u) ∨
        ∃ err u, err ≠ .diverges ∧ r = .error err u) ∧
      ∃ least, ∀ fuel ≥ least, dropOldestMessage { host with fuel } w = r := by
  cases hmode : w.chan.config.multiProducer with
  | false =>
      have hlen : w.chan.len ≠ 0 := fun hlen => h ⟨hrefused, .inl (.inl ⟨hmode, hlen⟩)⟩
      refine ⟨dropOldestMessageSpsc w, ?_, 0, fun fuel _ => ?_⟩
      · rcases dropSpsc_eq hlen with ⟨k, hk, hdrop⟩ | ⟨-, err, hne, hdrop⟩
        · exact .inl ⟨_, .single hmode hlen hk, hdrop⟩
        · exact .inr (.inr ⟨err, w, hne, hdrop⟩)
      · rw [spsc_call hmode]
  | true =>
      have hdamaged : ¬ w.DropsDamaged host := fun hdamaged => h ⟨hrefused, .inr ⟨hmode, hdamaged⟩⟩
      obtain ⟨r, hfinds, least, hleast⟩ :=
        drop_settles (dropBudget w host.polls) (Nat.le_refl _) hmode hdamaged
      refine ⟨r, ?_, least, fun fuel hfuel => ?_⟩
      · cases hfinds with
        | message hclears hround hk => exact .inl ⟨_, .multi hmode hclears hround hk, rfl⟩
        | @nothing v d hclears hd hlen =>
            refine .inr (.inl ⟨v.refreshed d, not_not.1 fun hstill => ?_, rfl⟩)
            exact h ⟨hrefused, .inl (.inr ⟨hmode, v, d, hclears, hd, hlen, hstill⟩)⟩
        | @fails err v hne => exact .inr (.inr ⟨err, v, hne, rfl⟩)
      · rw [drop_with host hmode, hleast fuel fuel hfuel]

/-- **A loop whose drops lead to no place where it stalls ends**: every drop
leaves less to drop. -/
theorem loop_ends (n : ℕ) : ∀ {w : World}, unread w ≤ n → 0 < w.chan.config.capacity →
    ¬ w.DrainsDry host needed → ∃ least, ∀ fuel ≥ least, ∀ rounds ≥ least,
      ¬ RunsOut (dropUntilAdmitted { host with fuel } needed rounds w) := by
  induction n using Nat.strong_induction_on with
  | _ n ih =>
      intro w hn hpos h
      by_cases hadmits : w.chan.admits needed
      · refine ⟨1, fun fuel _ rounds hrounds => ?_⟩
        obtain ⟨rounds, rfl⟩ : ∃ k, rounds = k + 1 := ⟨rounds - 1, by omega⟩
        rw [loop_admits hadmits]
        exact nofun
      obtain ⟨r, hends, least, hleast⟩ := drop_ends hadmits fun hstalls => h ⟨w, .refl w, hstalls⟩
      rcases hends with ⟨u, hdrop, rfl⟩ | ⟨u, hu, rfl⟩ | ⟨err, u, hne, rfl⟩
      · obtain ⟨hless, hconfig⟩ := dropsTo_unread hpos hdrop
        obtain ⟨least', hrest⟩ := ih _ (Nat.lt_of_lt_of_le hless hn) (Nat.le_refl _)
          (hconfig ▸ hpos) fun ⟨v, hdrains, hstalls⟩ => h ⟨v, .step hadmits hdrop hdrains, hstalls⟩
        refine ⟨least + least' + 1, fun fuel hfuel rounds hrounds => ?_⟩
        obtain ⟨rounds, rfl⟩ : ∃ k, rounds = k + 1 := ⟨rounds - 1, by omega⟩
        rw [loop_drops hadmits (hleast fuel (by omega))]
        exact hrest fuel (by omega) rounds (by omega)
      · refine ⟨least + 2, fun fuel hfuel rounds hrounds => ?_⟩
        obtain ⟨rounds, rfl⟩ : ∃ k, rounds = k + 1 + 1 := ⟨rounds - 2, by omega⟩
        rw [loop_drops hadmits (hleast fuel (by omega)), loop_admits hu]
        exact nofun
      · refine ⟨least + 1, fun fuel hfuel rounds hrounds hout => ?_⟩
        obtain ⟨rounds, rfl⟩ : ∃ k, rounds = k + 1 := ⟨rounds - 1, by omega⟩
        rw [loop_fails hadmits (hleast fuel (by omega))] at hout
        exact hne (Except.error.inj hout)

/-! ## A single-producer queue -/

theorem consumed_consumed (a b : ℕ) : (w.consumed a).consumed b = w.consumed (a + b) := by
  induction b with
  | zero => rfl
  | succ b ih => exact congrArg World.consume ih

theorem counted_consumed (e : UInt64) (l : Option UInt64) (k : ℕ) :
    (w.counted e l).consumed k = (w.consumed k).counted e l := by
  induction k with
  | zero => rfl
  | succ k ih => exact congrArg World.consume ih

theorem dropped_counted (w : World) (s k : ℕ) (e : UInt64) (l : Option UInt64) :
    ∃ e' l', ((w.consumed s).counted e l).dropped k = (w.consumed (s + k)).counted e' l' := by
  rw [World.dropped, counted_consumed, consumed_consumed]
  exact ⟨_, _, rfl⟩

theorem consumed_floor (k : ℕ) : (w.consumed k).chan.floorCursor = w.chan.floorCursor ∧
    (w.consumed k).region.frameCapacity = w.region.frameCapacity := by
  induction k with
  | zero => exact ⟨rfl, rfl⟩
  | succ k ih => exact ⟨ih.1, ih.2⟩

/-- The words are two rings short of their wrap, and no message announces
more slots than a send can reserve. -/
structure Calm (w : World) : Prop where
  head : w.region.head + 2 * w.chan.config.capacity < wordCount
  tail : w.region.tail + 2 * w.chan.config.capacity < wordCount
  announced : ∀ i k, w.region.announces i = some k → k ≤ w.chan.config.capacity

/-- The cursors of such a handle. -/
theorem Calm.words (hcalm : Calm w) (hq : w.Queued d) :
    w.region.head = w.region.tail + d ∨ (d = 0 ∧ w.region.head < w.region.tail ∧
      w.region.tail ≤ w.region.head + w.chan.config.capacity) := by
  have hhead := hcalm.head
  have htail := hcalm.tail
  rcases hq.regimes with ⟨hd, -, hfwd⟩ | ⟨hd, hpos, hpassed, hback, -⟩
  · unfold wrappingSub at hfwd
    split at hfwd <;> omega
  · unfold wrappingSub at hback
    split at hback <;> omega

/-- **The bias behind any number of slots**: each one the cursors do not
count retires a credit. -/
theorem calm_bias (hcalm : Calm w) (hq : w.Queued d) {k : ℕ} (hk : k ≤ 2 * w.chan.config.capacity) :
    (w.consumed k).chan.recoveryBias = w.chan.recoveryBias - (k - d) := by
  have hhead := hcalm.head
  have htail := hcalm.tail
  have hsmall := hq.fits.small
  rw [hq.fits.capacity] at hsmall
  have hd : d ≤ w.chan.config.capacity := by
    rcases hq.regimes with ⟨hle, -⟩ | ⟨h0, -⟩ <;> omega
  refine consumed_bias_eq fun j hj => (orphan_consumed hq (by omega)).trans ?_
  unfold wrappingSub
  rcases hcalm.words hq with hwords | ⟨h0, hahead, hwords⟩
  · split <;> omega
  · split <;> omega

section Single

variable {s k : ℕ} {e : UInt64} {l : Option UInt64}

theorem readsTo_bound (hcalm : Calm w) (hq : w.Queued d) (h : w.ReadsTo s) :
    s ≤ 2 * w.chan.config.capacity := by
  have hlen := (queued_mirrors hq).2.2.2
  cases h with
  | start => exact Nat.zero_le _
  | step _ hs hk =>
      have := hcalm.announced _ _ hk
      omega

/-- The message `s` slots on is in its place. -/
theorem announces_consumed (hq : w.Queued d) (hs : s < w.chan.len) :
    (w.consumed s).region.announces (w.consumed s).chan.tail =
      w.region.announces ((w.region.tail + s) % w.chan.config.capacity) := by
  have hstep := consumed_stepped hq s
  have hlen := (queued_mirrors hq).2.2.2
  rw [hstep.index]
  refine Region.announces_congr (hstep.slots _ fun j hj => ?_) (consumed_floor s).2
  exact Window.mod_ne (t := w.region.tail) (by omega) (by omega) (by omega) (by omega) (by omega)

/-- **The guard behind any number of slots** counts what the floor keeps;
behind the whole queue, no more. -/
theorem calm_guard (hcalm : Calm w) (hq : w.Queued d) (hs : s ≤ 2 * w.chan.config.capacity) :
    min (w.region.head - w.region.pinFloor) w.chan.config.capacity ≤
        (w.consumed s).chan.guardLen ∧
      (w.chan.len ≤ s → (w.consumed s).chan.guardLen =
        min (w.region.head - w.region.pinFloor) w.chan.config.capacity) := by
  have hstep := consumed_stepped hq s
  have hhead := hcalm.head
  have htail := hcalm.tail
  have hlen := hq.len
  have hfloor : (w.consumed s).chan.floorCursor = w.region.pinFloor :=
    (consumed_floor s).1.trans (congrArg (fun w => w.chan.floorCursor) hq.refreshed).symm
  rw [guardLen, hfloor, hstep.headCursor, hstep.tailCursor, hstep.config, calm_bias hcalm hq hs,
    Nat.mod_eq_of_lt (show w.region.tail + s < wordCount by omega)]
  have hnone : PIN_FLOOR_NONE = wordCount - 1 := rfl
  rcases hcalm.words hq with hwords | ⟨h0, hahead, hwords⟩
  · split <;> omega
  · split <;> omega

/-- The guard refuses at every message, where the floor leaves no room. -/
theorem refuses_readsTo (hcalm : Calm w) (hq : w.Queued d) (hroom : ¬ w.Roomy needed)
    (h : w.ReadsTo s) : ¬ ((w.consumed s).counted e l).chan.admits needed := by
  intro hadmits
  have hguard := (calm_guard hcalm hq (readsTo_bound hcalm hq h)).1
  have hle : needed ≤ (w.consumed s).chan.config.capacity - (w.consumed s).chan.guardLen := hadmits
  rw [(consumed_stepped hq s).config] at hle
  unfold Roomy at hroom
  omega

/-- The messages of the queue are what the loop drops. -/
theorem readsTo_of_drains {x : World} (hmode : w.chan.config.multiProducer = false)
    (hq : w.Queued d) (h : Drains host needed x v) :
    (∃ s e l, w.ReadsTo s ∧ x = (w.consumed s).counted e l) →
      ∃ s e l, w.ReadsTo s ∧ v = (w.consumed s).counted e l := by
  induction h with
  | refl => exact id
  | step _ hdrop _ ih =>
      rintro ⟨s, e, l, hreads, rfl⟩
      apply ih
      have hconfig := (consumed_stepped hq s).config
      cases hdrop with
      | multi hmulti =>
          have hsame : w.chan.config.multiProducer = true := hconfig ▸ hmulti
          cases hmode.symm.trans hsame
      | @single count _ hlen hk =>
          have hs : s < w.chan.len := by
            have hcount : (w.consumed s).chan.len = w.chan.len - s := consumed_len
            have hne : (w.consumed s).chan.len ≠ 0 := hlen
            omega
          obtain ⟨e', l', hdropped⟩ := dropped_counted w s count e l
          exact ⟨s + count, e', l',
            hreads.step hs ((announces_consumed hq hs).symm.trans hk), hdropped⟩

theorem drains_snoc {x : World} (h : Drains host needed x v) (hrefused : ¬ v.chan.admits needed)
    (hdrop : DropsTo host v u) : Drains host needed x u := by
  induction h with
  | refl => exact .step hrefused hdrop (.refl u)
  | step hr hd _ ih => exact .step hr hd (ih hrefused hdrop)

variable (host) in
/-- And the loop drops all it can read, where the floor leaves no room. -/
theorem drains_of_readsTo (hmode : w.chan.config.multiProducer = false) (hcalm : Calm w)
    (hq : w.Queued d) (hroom : ¬ w.Roomy needed) (h : w.ReadsTo s) :
    ∃ e l, Drains host needed w ((w.consumed s).counted e l) := by
  induction h with
  | start => exact ⟨w.chan.expectedRecvSeq, w.chan.lastReceivedSeq, .refl w⟩
  | @step s count hreads hs hk ih =>
      obtain ⟨e, l, hdrains⟩ := ih
      have hdrop : DropsTo host ((w.consumed s).counted e l)
          (((w.consumed s).counted e l).dropped count) := by
        refine .single ?_ ?_ ((announces_consumed hq hs).trans hk)
        · exact (congrArg SpscConfig.multiProducer (consumed_stepped hq s).config).trans hmode
        · have hcount : (w.consumed s).chan.len = w.chan.len - s := consumed_len
          show (w.consumed s).chan.len ≠ 0
          omega
      obtain ⟨e', l', hdropped⟩ := dropped_counted w s count e l
      rw [hdropped] at hdrop
      exact ⟨e', l', drains_snoc hdrains (refuses_readsTo hcalm hq hroom hreads) hdrop⟩

/-- **The loop of a single-producer handle runs dry** exactly where the floor
leaves no room and every message of the queue can be dropped. -/
theorem drainsDry_iff (hmode : w.chan.config.multiProducer = false) (hcalm : Calm w)
    (hq : w.Queued d) :
    w.DrainsDry host needed ↔ ¬ w.Roomy needed ∧ ∃ s, w.chan.len ≤ s ∧ w.ReadsTo s := by
  constructor
  · rintro ⟨v, hdrains, hstalls⟩
    obtain ⟨s, e, l, hreads, rfl⟩ := readsTo_of_drains hmode hq hdrains
      ⟨0, w.chan.expectedRecvSeq, w.chan.lastReceivedSeq, .start, rfl⟩
    have hconfig := (consumed_stepped hq s).config
    have hcount : (w.consumed s).chan.len = w.chan.len - s := consumed_len
    have hdry : (w.consumed s).chan.len = 0 := by
      rcases hstalls.stuck with (⟨-, hlen⟩ | ⟨hmulti, -⟩) | ⟨hmulti, -⟩
      · exact hlen
      all_goals
        have hsame : w.chan.config.multiProducer = true := hconfig ▸ hmulti
        cases hmode.symm.trans hsame
    refine ⟨fun hroom => hstalls.refused ?_, s, by omega, hreads⟩
    have hguard := (calm_guard hcalm hq (readsTo_bound hcalm hq hreads)).2 (by omega)
    show needed ≤ (w.consumed s).chan.config.capacity - (w.consumed s).chan.guardLen
    rw [hconfig, hguard]
    unfold Roomy at hroom
    omega
  · rintro ⟨hroom, s, hs, hreads⟩
    obtain ⟨e, l, hdrains⟩ := drains_of_readsTo host hmode hcalm hq hroom hreads
    refine ⟨_, hdrains, refuses_readsTo hcalm hq hroom hreads, .inl (.inl ⟨?_, ?_⟩)⟩
    · exact (congrArg SpscConfig.multiProducer (consumed_stepped hq s).config).trans hmode
    · have hcount : (w.consumed s).chan.len = w.chan.len - s := consumed_len
      show (w.consumed s).chan.len = 0
      omega

end Single

variable (host needed) in
/-- **The space loop ends** exactly where no drops of it lead to where it
stalls. -/
theorem loopEnds_iff (hpos : 0 < w.chan.config.capacity) :
    w.LoopEnds host needed ↔ ¬ w.DrainsDry host needed := by
  constructor
  · rintro ⟨fuel, hfuel⟩ ⟨v, hdrains, hstalls⟩
    exact hfuel (drains_loop hdrains hstalls fuel)
  · intro h
    obtain ⟨least, hleast⟩ := loop_ends (unread w) (Nat.le_refl _) hpos h
    exact ⟨least, hleast least (Nat.le_refl _) least (Nat.le_refl _)⟩

/-- **A single-producer loop needs no more rounds than it has slots to drop**,
and one to find that it can go on. -/
theorem single_rounds (rounds : ℕ) : ∀ {w : World}, w.chan.config.multiProducer = false →
    w.chan.len < rounds → ¬ w.DrainsDry host needed →
      ¬ RunsOut (dropUntilAdmitted host needed rounds w) := by
  induction rounds with
  | zero => exact fun _ hless => absurd hless (Nat.not_lt_zero _)
  | succ rounds ih =>
      intro w hmode hless h
      by_cases hadmits : w.chan.admits needed
      · rw [loop_admits hadmits]
        exact nofun
      have hlen : w.chan.len ≠ 0 := fun hlen =>
        h ⟨w, .refl w, hadmits, .inl (.inl ⟨hmode, hlen⟩)⟩
      rcases dropSpsc_eq hlen with ⟨k, hk, hdrop⟩ | ⟨-, err, hne, hdrop⟩
      · rw [loop_drops hadmits ((spsc_call hmode).trans hdrop)]
        have hcount : (w.dropped k).chan.len = w.chan.len - k := consumed_len
        have hpos := (announces_bounds hk).1
        refine ih ?_ (by omega) fun ⟨v, hdrains, hstalls⟩ =>
          h ⟨v, .step hadmits (.single hmode hlen hk) hdrains, hstalls⟩
        exact (congrArg SpscConfig.multiProducer (consumed_config)).trans hmode
      · rw [loop_fails hadmits ((spsc_call hmode).trans hdrop)]
        exact fun hout => hne (Except.error.inj hout)

/-- What a call that only returns a value behind another one does. -/
theorem runsOut_return {x : ChannelM Unit} {a : Bool} :
    outcome ((x >>= fun _ => pure a) w) = .error .diverges ↔ RunsOut (x w) := by
  cases hcall : x w with
  | ok _ u =>
      rw [bind_ok hcall]
      exact iff_of_false nofun nofun
  | error err u =>
      rw [bind_error hcall]
      exact ⟨fun h => congrArg _ (Except.error.inj h), fun h => congrArg _ (Except.error.inj h)⟩

/-- **`prepare_send_slots` returns** where its loop ends. -/
theorem prepareSendSlots_ends_iff (hmode : w.chan.config.multiProducer = false)
    (hdrop : w.chan.config.backpressure = .dropOldest) (hlen : w.chan.len ≤ w.chan.config.capacity)
    (hneeded : needed ≤ w.chan.config.capacity) :
    outcome (prepareSendSlots host needed w) ≠ .error .diverges ↔ ¬ w.DrainsDry host needed := by
  by_cases hadmits : w.chan.admits needed
  · rw [prepareSendSlots_admitted hneeded hadmits]
    refine iff_of_true nofun fun ⟨v, hdrains, hstalls⟩ => ?_
    cases hdrains with
    | refl => exact hstalls.refused hadmits
    | step hrefused => exact hrefused hadmits
  rw [prepareSendSlots, bind_ok (checkSlots_ok hneeded), get_bind, if_neg hadmits, hdrop]
  dsimp only
  rw [Ne, runsOut_return]
  constructor
  · rintro hends ⟨v, hdrains, hstalls⟩
    exact hends (drains_loop (v := v) hdrains hstalls _)
  · exact single_rounds _ hmode (Nat.lt_succ_of_le hlen)

end PersistentShmChannel

/-- **When the space loop ends.** From any state: where no drops of it lead
to a place where nothing is counted and the guard refuses, nor (in
multi-producer mode) to a damaged slot; and so does the `prepare_send_slots`
of a single-producer handle. There that is where the slots the floor keeps
leave it room, or a message of the queue can not be dropped. -/
theorem drop_loop_ends_iff (host : Host) (needed : ℕ) (w : World) :
    (0 < w.chan.config.capacity → (w.LoopEnds host needed ↔ ¬ w.DrainsDry host needed)) ∧
    (w.chan.config.multiProducer = false → w.chan.config.backpressure = .dropOldest →
      w.chan.len ≤ w.chan.config.capacity → needed ≤ w.chan.config.capacity →
        (outcome (prepareSendSlots host needed w) ≠ .error .diverges ↔
          ¬ w.DrainsDry host needed)) ∧
    ∀ d, w.chan.config.multiProducer = false → w.Queued d → Calm w →
      (w.LoopEnds host needed ↔ w.Roomy needed ∨ ¬ ∃ s, w.chan.len ≤ s ∧ w.ReadsTo s) := by
  refine ⟨loopEnds_iff host needed, prepareSendSlots_ends_iff, fun d hmode hq hcalm => ?_⟩
  have hpos : 0 < w.chan.config.capacity := hq.fits.capacity ▸ hq.fits.pos
  rw [loopEnds_iff host needed hpos, drainsDry_iff hmode hcalm hq, not_and_or, not_not]

/-- One slot, and a handle that raises where the ring is full. -/
def oneSlot : SpscConfig := ⟨1, 8, .raise, none, false⟩

/-- Its ring, once the handle has sent a message and holds a view of it. -/
def oneViewed : World :=
  final (@recvView crc32Checksum sampleHost
    (final (@send crc32Checksum sampleHost [5] (sampleWorld oneSlot))))

/-- A handle that drops the oldest message, opened on that ring. -/
def secondHandle : World :=
  final («open» sampleHost { oneSlot with backpressure := .dropOldest } oneViewed.region)

theorem calm_three : Calm (chunkRing false 3) where
  head := by decide
  tail := by decide
  announced i k hk := by
    have hsame : (chunkRing false 3).region.announces i =
        (chunkRing false 3).region.announces 0 := Region.announces_congr rfl rfl
    cases Option.some.inj ((hsame.trans (announces_chunkRing false 3)).symm.trans hk)
    decide

/-- With nothing viewed the loop ends. -/
theorem drop_loop_ends_unviewed :
    (sampleWorld { oneSlot with backpressure := .dropOldest }).LoopEnds sampleHost 1 ∧
      outcome (prepareSendSlots sampleHost 1
        (sampleWorld { oneSlot with backpressure := .dropOldest })) ≠ .error .diverges ∧
      (chunkRing false 3).LoopEnds sampleHost 4 := by
  have hadmits : (sampleWorld { oneSlot with backpressure := .dropOldest }).chan.admits 1 := by
    decide
  have hnot : ¬ (sampleWorld { oneSlot with backpressure := .dropOldest }).DrainsDry
      sampleHost 1 := by
    rintro ⟨v, hdrains, hstalls⟩
    cases hdrains with
    | refl => exact hstalls.refused hadmits
    | step hrefused => exact hrefused hadmits
  obtain ⟨hloop, hprepare, -⟩ := drop_loop_ends_iff sampleHost 1
    (sampleWorld { oneSlot with backpressure := .dropOldest })
  refine ⟨(hloop (by decide)).2 hnot, (hprepare rfl rfl (by decide) (by decide)).2 hnot,
    ((drop_loop_ends_iff sampleHost 4 _).2.2 3 rfl (queued_three false) calm_three).2 (.inl ?_)⟩
  show 4 ≤ 4 - (3 - PIN_FLOOR_NONE)
  decide

/-- **Under a view of another handle it does not**: the queue is empty, and
the floor keeps the only slot from the guard. -/
theorem drop_loop_never_ends :
    ¬ ∀ (host : Host) (config : SpscConfig) (bytes : Bytes) (view : ShmRecvView)
        (w₀ w₁ w₂ u : World) (needed : ℕ),
      create host config = .ok w₀ → @send crc32Checksum host bytes w₀ = .ok () w₁ →
        @recvView crc32Checksum host w₁ = .ok view w₂ →
          «open» host { config with backpressure := .dropOldest } w₂.region = .ok () u →
            needed ≤ config.capacity → u.LoopEnds host needed := by
  intro hall
  have hcreate : create sampleHost oneSlot = .ok (sampleWorld oneSlot) := by rfl
  have hsend : outcome (@send crc32Checksum sampleHost [5] (sampleWorld oneSlot)) = .ok () := by
    decide +kernel
  have hview : ∃ view, outcome (@recvView crc32Checksum sampleHost
      (final (@send crc32Checksum sampleHost [5] (sampleWorld oneSlot)))) = .ok view :=
    ⟨_, rfl⟩
  have hopen : outcome («open» sampleHost { oneSlot with backpressure := .dropOldest }
      oneViewed.region) = .ok () := by
    decide +kernel
  obtain ⟨view, hview⟩ := hview
  have hends := hall sampleHost oneSlot [5] view _ _ _ secondHandle 1 hcreate
    (eq_ok_of_outcome hsend) (eq_ok_of_outcome hview) (eq_ok_of_outcome hopen) (Nat.le_refl _)
  have hmode : secondHandle.chan.config.multiProducer = false := by decide +kernel
  have hlen : secondHandle.chan.len = 0 := by decide +kernel
  have hrefused : ¬ secondHandle.chan.admits 1 := by decide +kernel
  obtain ⟨fuel, hfuel⟩ := hends
  exact hfuel (stalls_loop ⟨hrefused, .inl (.inl ⟨hmode, hlen⟩)⟩ fuel)

end Dsline
