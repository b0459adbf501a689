import Dsline.Library.Run
import Dsline.Sharded.Channel
/-!
# Broadcast

A broadcast send is a loop over the shards, and a shard that raises ends it
where it stands: the shards before it have the message. The streams stay
identical exactly where a shard that is full is the first.
-/

namespace Dsline

variable {α : Type}

/-- A broadcasting handle and its shards. -/
structure Broadcast (α : Type) where
  shards : List (Shard α)
  /-- The message of a send under way, and the next shard of its loop. -/
  sending : Option (α × ℕ)
  deriving DecidableEq, Repr

/-- A step of the handle, or of a consumer. -/
inductive BroadcastOp (α : Type) where
  /-- `send` is called. -/
  | start (message : α)
  /-- The next round of its loop. -/
  | next
  /-- The consumer of a shard receives. -/
  | recv (shard : ℕ)
  deriving DecidableEq, Repr

namespace Broadcast

/-- A handle over fresh shards. -/
def fresh (capacities : List ℕ) : Broadcast α := ⟨capacities.map .fresh, none⟩

/-- The next round of a send: the loop is over, or the shard takes the
message, or it raises and the send raises with it. -/
def stepNext (s : Broadcast α) : Broadcast α :=
  match s.sending with
  | none => s
  | some (message, k) =>
      match s.shards[k]? with
      | none => { s with sending := none }
      | some shard =>
          match shard.send message with
          | none => { s with sending := none }
          | some shard' => ⟨s.shards.set k shard', some (message, k + 1)⟩

/-- A consumer's receive. -/
def stepRecv (s : Broadcast α) (k : ℕ) : Broadcast α :=
  match s.shards[k]? with
  | none => s
  | some shard =>
      match shard.recv with
      | none => s
      | some (_, shard') => { s with shards := s.shards.set k shard' }

/-- One step. A handle sends one message at a time. -/
def step (s : Broadcast α) : BroadcastOp α → Broadcast α
  | .start message => if s.sending = none then { s with sending := some (message, 0) } else s
  | .next => s.stepNext
  | .recv k => s.stepRecv k

end Broadcast

namespace Broadcast

variable {s : Broadcast α} {op : BroadcastOp α} {ops : List (BroadcastOp α)} {message : α} {k : ℕ}

/-- **All shards accepted the same messages.** -/
def Same (s : Broadcast α) : Prop := ∃ messages, ∀ shard ∈ s.shards, shard.accepted = messages

/-- A shard that is about to be sent to has room, or is the first. -/
def Admits (s : Broadcast α) : BroadcastOp α → Prop
  | .next => ∀ message k shard, s.sending = some (message, k) → s.shards[k]? = some shard →
      k = 0 ∨ shard.HasRoom
  | .start _ | .recv _ => True

/-- **The invariant**: the shards the loop has passed have one message more. -/
def Inv (s : Broadcast α) : Prop :=
  match s.sending with
  | none => s.Same
  | some (message, k) => ∃ messages, ∀ j shard, s.shards[j]? = some shard →
      shard.accepted = if j < k then messages ++ [message] else messages

theorem fresh_inv (capacities : List ℕ) : Inv (fresh capacities : Broadcast α) := by
  refine ⟨[], fun shard hshard => ?_⟩
  obtain ⟨capacity, -, rfl⟩ := List.mem_map.1 hshard
  rfl

/-- A receive leaves what the shards accepted. -/
theorem getElem?_stepRecv {j : ℕ} {shard : Shard α} (h : (s.stepRecv k).shards[j]? = some shard) :
    ∃ shard₀, s.shards[j]? = some shard₀ ∧ shard.accepted = shard₀.accepted := by
  unfold stepRecv at h
  split at h
  · exact ⟨_, h, rfl⟩
  rename_i shard₀ hk
  split at h
  · exact ⟨_, h, rfl⟩
  rename_i message shard' hrecv
  obtain ⟨rfl, -⟩ := Shard.recv_eq_some hrecv
  by_cases hj : k = j
  · subst hj
    obtain ⟨hlt, -⟩ := List.getElem?_eq_some_iff.1 hk
    rw [List.getElem?_set_self hlt] at h
    cases h
    exact ⟨_, hk, rfl⟩
  · rw [List.getElem?_set_ne hj] at h
    exact ⟨_, h, rfl⟩

theorem sending_stepRecv : (s.stepRecv k).sending = s.sending := by
  unfold stepRecv
  split
  · rfl
  · split <;> rfl

theorem Inv.stepRecv (h : s.Inv) : (s.stepRecv k).Inv := by
  unfold Inv at h ⊢
  rw [sending_stepRecv]
  cases hsending : s.sending with
  | none =>
      rw [hsending] at h
      obtain ⟨messages, hall⟩ := h
      refine ⟨messages, fun shard hshard => ?_⟩
      obtain ⟨j, hj⟩ := List.getElem?_of_mem hshard
      obtain ⟨shard₀, hj₀, heq⟩ := getElem?_stepRecv hj
      exact heq.trans (hall shard₀ (List.mem_of_getElem? hj₀))
  | some sent =>
      rw [hsending] at h
      obtain ⟨messages, hall⟩ := h
      refine ⟨messages, fun j shard hj => ?_⟩
      obtain ⟨shard₀, hj₀, heq⟩ := getElem?_stepRecv hj
      exact heq.trans (hall j shard₀ hj₀)

/-- The loop passes a shard: it has one message more. -/
theorem passed {message : α} {messages : List α} {shard : Shard α}
    (hall : ∀ j shard, s.shards[j]? = some shard →
      shard.accepted = if j < k then messages ++ [message] else messages)
    (hk : s.shards[k]? = some shard) {shard' : Shard α} (hsend : shard.send message = some shard')
    {j : ℕ} {shard'' : Shard α} (hj : (s.shards.set k shard')[j]? = some shard'') :
    shard''.accepted = if j < k + 1 then messages ++ [message] else messages := by
  obtain rfl := Shard.send_eq_some hsend
  by_cases hkj : k = j
  · subst hkj
    obtain ⟨hlt, -⟩ := List.getElem?_eq_some_iff.1 hk
    rw [List.getElem?_set_self hlt] at hj
    cases hj
    have hacc := hall k shard hk
    rw [if_neg (Nat.lt_irrefl k)] at hacc
    rw [if_pos (Nat.lt_succ_self k)]
    exact congrArg (· ++ [message]) hacc
  · rw [List.getElem?_set_ne hkj] at hj
    rw [hall j shard'' hj]
    by_cases hlt : j < k
    · rw [if_pos hlt, if_pos (by omega)]
    · rw [if_neg hlt, if_neg (by omega)]

theorem Inv.stepNext (h : s.Inv) (hop : s.Admits .next) : s.stepNext.Inv := by
  unfold Broadcast.stepNext
  cases hsending : s.sending with
  | none => exact h
  | some sent =>
      obtain ⟨message, k⟩ := sent
      unfold Inv at h
      rw [hsending] at h
      obtain ⟨messages, hall⟩ := h
      simp only
      cases hk : s.shards[k]? with
      | none =>
          -- The loop is over: every shard is behind it.
          refine ⟨messages ++ [message], fun shard hshard => ?_⟩
          obtain ⟨j, hj⟩ := List.getElem?_of_mem hshard
          have hlt : j < s.shards.length := (List.getElem?_eq_some_iff.1 hj).1
          have hend := List.getElem?_eq_none_iff.1 hk
          rw [hall j shard hj, if_pos (by omega)]
      | some shard =>
          simp only
          cases hsend : shard.send message with
          | none =>
              -- The first shard raised: no shard has the message.
              obtain rfl := (hop message k shard hsending hk).resolve_right
                (Shard.send_eq_none.1 hsend)
              refine ⟨messages, fun shard' hshard => ?_⟩
              obtain ⟨j, hj⟩ := List.getElem?_of_mem hshard
              rw [hall j shard' hj, if_neg (Nat.not_lt_zero j)]
          | some shard' => exact ⟨messages, fun j shard'' hj => passed hall hk hsend hj⟩

/-- **A step that admits keeps the invariant.** -/
theorem Inv.step (h : s.Inv) (hop : s.Admits op) : (s.step op).Inv := by
  cases op with
  | start message =>
      show Inv (if _ then _ else _)
      split
      · rename_i hidle
        unfold Inv at h ⊢
        rw [hidle] at h
        obtain ⟨messages, hall⟩ := h
        refine ⟨messages, fun j shard hj => ?_⟩
        rw [if_neg (Nat.not_lt_zero j)]
        exact hall shard (List.mem_of_getElem? hj)
      · exact h
  | recv k => exact h.stepRecv
  | next => exact h.stepNext hop

/-- **A step that does not admit tears the streams apart**: the first shard
has the message, the one that raised has not. -/
theorem Inv.torn (h : s.Inv) (hop : ¬ s.Admits op) :
    (s.step op).sending = none ∧ ¬ (s.step op).Same := by
  cases op with
  | start message => exact absurd trivial hop
  | recv k => exact absurd trivial hop
  | next =>
      simp only [Admits, not_forall, not_or] at hop
      obtain ⟨message, k, shard, hsending, hk, hpos, hfull⟩ := hop
      unfold Inv at h
      rw [hsending] at h
      obtain ⟨messages, hall⟩ := h
      have hnext : s.step .next = { s with sending := none } := by
        show s.stepNext = _
        unfold Broadcast.stepNext
        rw [hsending]
        simp only [hk, Shard.send_eq_none.2 hfull]
      rw [hnext]
      refine ⟨rfl, fun ⟨same, hsame⟩ => ?_⟩
      have hlast : shard.accepted = messages := by
        rw [hall k shard hk, if_neg (Nat.lt_irrefl k)]
      obtain ⟨hlt, -⟩ := List.getElem?_eq_some_iff.1 hk
      have hzero : s.shards[0]? = some s.shards[0] := List.getElem?_eq_getElem (by omega)
      have hfirst := hall 0 _ hzero
      rw [if_pos (by omega), hsame _ (List.mem_of_getElem? hzero),
        ← hsame shard (List.mem_of_getElem? hk), hlast] at hfirst
      simp at hfirst

/-- The streams are the same whenever no send is under way, all along a run. -/
def AllSame (s : Broadcast α) (ops : List (BroadcastOp α)) : Prop :=
  ∀ n, (Run.exec step s (ops.take n)).sending = none → (Run.exec step s (ops.take n)).Same

theorem Inv.allSame_iff (h : s.Inv) : s.AllSame ops ↔ Run.Meets Broadcast.step Admits s ops := by
  induction ops generalizing s with
  | nil =>
      refine iff_of_true (fun n hidle => ?_) trivial
      rw [List.take_nil] at hidle ⊢
      unfold Inv at h
      rw [show s.sending = none from hidle] at h
      exact h
  | cons op ops ih =>
      constructor
      · intro hsame
        have hop : s.Admits op := by
          by_contra hop
          obtain ⟨hidle, hdiffer⟩ := h.torn hop
          exact hdiffer (hsame 1 hidle)
        exact ⟨hop, (ih (h.step hop)).1 fun n => hsame (n + 1)⟩
      · rintro ⟨hop, hrest⟩ n hidle
        cases n with
        | zero =>
            unfold Inv at h
            rw [show s.sending = none from hidle] at h
            exact h
        | succ n => exact (ih (h.step hop)).2 hrest n hidle

end Broadcast

open Broadcast

/-- **When broadcast keeps every shard's stream identical**: in every run of
sends, with consumers draining as they please, the shards have accepted the
same messages whenever no send is under way, if and only if no shard but the
first is ever full when its turn comes. -/
theorem broadcast_same (capacities : List ℕ) (ops : List (BroadcastOp α)) :
    (fresh capacities : Broadcast α).AllSame ops ↔
      Run.Meets Broadcast.step Admits (fresh capacities) ops :=
  (fresh_inv capacities).allSame_iff

/-- Two shards of one slot: a message to both, the first drained, another. -/
def tornSend : List (BroadcastOp ℕ) :=
  [.start 1, .next, .next, .next, .recv 0, .start 2, .next, .next]

/-- **Failing input**: the second send raises at the second shard, and the
first one has its message. -/
theorem broadcast_torn : ¬ (fresh [1, 1] : Broadcast ℕ).AllSame tornSend := by
  intro h
  obtain ⟨messages, hall⟩ := h 8 (by decide)
  have h0 := hall ⟨1, [1, 2], 1⟩ (by decide)
  have h1 := hall ⟨1, [1], 0⟩ (by decide)
  rw [← h0] at h1
  cases h1

end Dsline
