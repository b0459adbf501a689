import Dsline.Core.Error
import Mathlib.Data.List.Basic
/-!
# The sharded channel

The router of `ShardedChannel`: a fixed number of shards, each a channel of
its own, and the three ways a message is routed to them. A shard is taken
for what it promises, a bounded FIFO: a send queues its message or raises
and leaves the shard as it was, and a receive raises only where it is empty.
-/

namespace Dsline

/-- `STRATEGIES`. -/
inductive Strategy where
  | roundRobin
  | hash
  | broadcast
  deriving DecidableEq, Repr

/-- `_FNV_OFFSET`. -/
def FNV_OFFSET : ℕ := 0x811C9DC5

/-- `_FNV_PRIME`. -/
def FNV_PRIME : ℕ := 0x01000193

/-- `_fnv1a32`. -/
def fnv1a32 (data : Bytes) : ℕ :=
  data.foldl (fun value byte => ((value ^^^ byte.toNat) * FNV_PRIME) &&& 0xFFFFFFFF) FNV_OFFSET

/-- `shard_for`; the constructor refuses a count of zero. -/
def shardFor (key : Bytes) (shards : ℕ) : ℕ := fnv1a32 key % shards

/-! ## Shards -/

/-- **A shard**: all it accepted, oldest first, and how many of them were
received. -/
structure Shard (α : Type) where
  capacity : ℕ
  accepted : List α
  received : ℕ
  deriving DecidableEq, Repr

namespace Shard

variable {α : Type} {shard shard' : Shard α} {message : α}

/-- What is queued. -/
def queue (shard : Shard α) : List α := shard.accepted.drop shard.received

/-- There is room for one more. -/
def HasRoom (shard : Shard α) : Prop := shard.queue.length < shard.capacity

instance (shard : Shard α) : Decidable shard.HasRoom := inferInstanceAs (Decidable (_ < _))

/-- A shard nothing was sent to. -/
def fresh (capacity : ℕ) : Shard α := ⟨capacity, [], 0⟩

/-- A send: the shard with the message queued, or none where it raises. -/
def send (shard : Shard α) (message : α) : Option (Shard α) :=
  if shard.HasRoom then some { shard with accepted := shard.accepted ++ [message] } else none

/-- A receive: the oldest message, or none where it raises
`BufferEmptyError`. -/
def recv (shard : Shard α) : Option (α × Shard α) :=
  match shard.queue with
  | [] => none
  | message :: _ => some (message, { shard with received := shard.received + 1 })

theorem send_eq_some (h : shard.send message = some shard') :
    shard' = { shard with accepted := shard.accepted ++ [message] } := by
  unfold send at h
  split at h
  · exact (Option.some.inj h).symm
  · cases h

theorem send_eq_none : shard.send message = none ↔ ¬ shard.HasRoom := by
  unfold send
  split <;> simp [*]

/-- **A receive takes the oldest message.** -/
theorem recv_eq_some (h : shard.recv = some (message, shard')) :
    shard' = { shard with received := shard.received + 1 } ∧
      shard.accepted[shard.received]? = some message := by
  unfold recv at h
  split at h
  · cases h
  · rename_i m rest hqueue
    cases h
    refine ⟨rfl, ?_⟩
    have hfirst := congrArg (·[0]?) hqueue
    simpa [queue] using hfirst

theorem recv_eq_none : shard.recv = none ↔ shard.queue = [] := by
  unfold recv
  split <;> simp [*]

end Shard

end Dsline
