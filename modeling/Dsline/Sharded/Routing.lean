import Dsline.Library.Run
import Dsline.Library.Window
import Dsline.Sharded.Channel
import Mathlib.Data.List.Perm.Basic
/-!
# Routing

Any number of handles over the same shards send by counter or by hash,
receive from a shard of their choice, or poll all of them. Every handle
keeps two counters of its own. A send and a receive of one shard are single
steps, a `recv_any` takes one step for each shard it polls, and the steps of
the handles interleave as they please.
-/

namespace Dsline

/-- A message, and the key it was sent with. -/
structure Keyed where
  data : Bytes
  key : Option Bytes
  deriving DecidableEq, Repr

/-- `routing_key`. -/
def Keyed.routingKey (message : Keyed) : Bytes := message.key.getD message.data

/-- A `recv_any` under way: the shards it has yet to poll, and those it
polled, with whether each was empty when it was. -/
structure Poll where
  remaining : List ℕ
  polled : List (ℕ × Bool)
  deriving DecidableEq, Repr

/-- A handle: `_rr_counter`, `_recv_rr`, and its `recv_any` under way. -/
structure FanHandle where
  rrCounter : ℕ
  recvRr : ℕ
  polling : Option Poll
  deriving DecidableEq, Repr

/-- A `recv_any` that returned. -/
structure FanCall where
  handle : ℕ
  polled : List (ℕ × Bool)
  result : Option (ℕ × Keyed)
  deriving DecidableEq, Repr

/-- The shard a call polled first. -/
def FanCall.first (call : FanCall) : Option ℕ := call.polled.head?.map (·.1)

/-- The shards, the handles over them, and what happened: the sends that
returned, the messages received, and the `recv_any` calls that returned, in
their order, the first two with their shard. -/
structure Fan where
  shards : List (Shard Keyed)
  handles : ℕ → FanHandle
  returned : List (ℕ × Keyed)
  received : List (ℕ × Keyed)
  calls : List FanCall

inductive FanOp where
  | send (handle : ℕ) (message : Keyed)
  | recvAny (handle : ℕ)
  /-- The handle's `recv_any` polls its next shard, or returns `None`. -/
  | poll (handle : ℕ)
  /-- `shard(i).recv`. -/
  | recv (shard : ℕ)
  deriving DecidableEq, Repr

/-- `_poll_order`, for a counter at `base`. -/
def pollOrder (base shards : ℕ) : List ℕ :=
  (List.range shards).map fun i => (base % shards + i) % shards

namespace Fan

/-- Fresh shards, as the constructor makes them, and fresh handles. -/
def fresh (shards capacity : ℕ) : Fan where
  shards := List.replicate shards (.fresh capacity)
  handles := fun _ => ⟨0, 0, none⟩
  returned := []
  received := []
  calls := []

def setHandle (s : Fan) (h : ℕ) (handle : FanHandle) : Fan :=
  { s with handles := fun h' => if h' = h then handle else s.handles h' }

/-- A send to one shard: it returns, or raises and leaves the shard. -/
def sendTo (s : Fan) (index : ℕ) (message : Keyed) : Fan :=
  match s.shards[index]? with
  | none => s
  | some shard =>
      match shard.send message with
      | none => s
      | some shard' =>
          { s with
            shards := s.shards.set index shard'
            returned := s.returned ++ [(index, message)] }

/-- `send`. A broadcast is a loop of its own. -/
def stepSend (strategy : Strategy) (s : Fan) (h : ℕ) (message : Keyed) : Fan :=
  let handle := s.handles h
  match strategy with
  | .roundRobin =>
      let index := handle.rrCounter % s.shards.length
      (s.setHandle h { handle with rrCounter := handle.rrCounter + 1 }).sendTo index message
  | .hash => s.sendTo (shardFor message.routingKey s.shards.length) message
  | .broadcast => s

/-- The shard a send goes to. -/
def target (strategy : Strategy) (s : Fan) (h : ℕ) (message : Keyed) : ℕ :=
  match strategy with
  | .hash => shardFor message.routingKey s.shards.length
  | _ => (s.handles h).rrCounter % s.shards.length

/-- A receive of one shard: the message, where it returns one. -/
def recvFrom (s : Fan) (index : ℕ) : Option (Keyed × Fan) :=
  match s.shards[index]? with
  | none => none
  | some shard =>
      match shard.recv with
      | none => none
      | some (message, shard') =>
          some (message,
            { s with
              shards := s.shards.set index shard'
              received := s.received ++ [(index, message)] })

/-- `recv_any` is called: the order is taken, and the counter moves. -/
def stepRecvAny (s : Fan) (h : ℕ) : Fan :=
  let handle := s.handles h
  match handle.polling with
  | some _ => s
  | none =>
      s.setHandle h
        { handle with
          recvRr := handle.recvRr + 1
          polling := some ⟨pollOrder handle.recvRr s.shards.length, []⟩ }

/-- Whether a shard is empty now. -/
def isEmpty (s : Fan) (index : ℕ) : Bool :=
  match s.shards[index]? with
  | none => true
  | some shard => shard.queue.isEmpty

/-- `recv_any` returns. -/
def endCall (s : Fan) (h : ℕ) (polled : List (ℕ × Bool)) (result : Option (ℕ × Keyed)) : Fan :=
  { s.setHandle h { s.handles h with polling := none } with
    calls := s.calls ++ [⟨h, polled, result⟩] }

/-- The next round of the loop of `recv_any`. -/
def stepPoll (s : Fan) (h : ℕ) : Fan :=
  match (s.handles h).polling with
  | none => s
  | some poll =>
      match poll.remaining with
      | [] => s.endCall h poll.polled none
      | index :: remaining =>
          let polled := poll.polled ++ [(index, s.isEmpty index)]
          match s.recvFrom index with
          | some (message, s') => s'.endCall h polled (some (index, message))
          | none => s.setHandle h { s.handles h with polling := some ⟨remaining, polled⟩ }

/-- One step. -/
def step (strategy : Strategy) (s : Fan) : FanOp → Fan
  | .send h message => s.stepSend strategy h message
  | .recvAny h => s.stepRecvAny h
  | .poll h => s.stepPoll h
  | .recv i =>
      match s.recvFrom i with
      | some (_, s') => s'
      | none => s

/-- The calls of a handle that returned, in their order. -/
def callsOf (s : Fan) (h : ℕ) : List FanCall := s.calls.filter fun call => call.handle = h

/-- What is queued, shard by shard. -/
def queued (s : Fan) : List Keyed := s.shards.flatMap Shard.queue

/-! ## The invariant -/

/-- What happened to the shards. -/
structure Kept (strategy : Strategy) (n : ℕ) (s : Fan) : Prop where
  count : s.shards.length = n
  conserved : (s.returned.map (·.2)).Perm (s.received.map (·.2) ++ s.queued)
  accepted : ∀ i shard, s.shards[i]? = some shard →
    shard.accepted = (s.returned.filter fun e => e.1 = i).map (·.2)
  taken : ∀ i shard, s.shards[i]? = some shard →
    (s.received.filter fun e => e.1 = i).map (·.2) = shard.accepted.take shard.received ∧
      shard.received ≤ shard.accepted.length
  routed : strategy = .hash → ∀ e ∈ s.returned, e.1 = shardFor e.2.routingKey n
  routedBack : strategy = .hash → ∀ e ∈ s.received, e.1 = shardFor e.2.routingKey n
  inside : ∀ e ∈ s.received, e.1 < n

/-- **What a returned call did**, the handle's `j`-th: it polled in the order
of its counter, each shard but the last empty, and it returned what the last
one held, or `None` after all of them. -/
def Went (n j : ℕ) (call : FanCall) : Prop :=
  match call.result with
  | none => call.polled = (pollOrder j n).map fun i => (i, true)
  | some (index, _) => ∃ front rest, pollOrder j n = front ++ index :: rest ∧
      call.polled = front.map (fun i => (i, true)) ++ [(index, false)]

/-- A call under way, the handle's `j`-th. -/
def Going (n j : ℕ) (poll : Poll) : Prop :=
  ∃ front, pollOrder j n = front ++ poll.remaining ∧ poll.polled = front.map fun i => (i, true)

/-- What the handles did. -/
structure Turns (n : ℕ) (s : Fan) : Prop where
  counter : ∀ h, (s.handles h).recvRr =
    (s.callsOf h).length + if (s.handles h).polling.isSome then 1 else 0
  going : ∀ h poll, (s.handles h).polling = some poll → Going n (s.callsOf h).length poll
  went : ∀ h j call, (s.callsOf h)[j]? = some call → Went n j call

section Shards

variable {strategy : Strategy} {n h index : ℕ} {s s' : Fan} {message : Keyed}

/-- Changing what one shard holds changes what is queued by as much. -/
theorem flatMap_set_append {shards : List (Shard Keyed)} {shard shard' : Shard Keyed}
    (hi : shards[index]? = some shard) (hq : shard'.queue = shard.queue ++ [message]) :
    ((shards.set index shard').flatMap Shard.queue).Perm
      (shards.flatMap Shard.queue ++ [message]) := by
  obtain ⟨hlt, hget⟩ := List.getElem?_eq_some_iff.1 hi
  have hsplit : shards = shards.take index ++ shard :: shards.drop (index + 1) := by
    rw [← hget, List.getElem_cons_drop, List.take_append_drop]
  rw [List.set_eq_take_append_cons_drop, if_pos hlt]
  conv_rhs => rw [hsplit]
  simp only [List.flatMap_append, List.flatMap_cons, hq, List.append_assoc]
  refine List.Perm.append_left _ (List.Perm.append_left _ ?_)
  exact List.perm_append_comm

theorem flatMap_set_cons {shards : List (Shard Keyed)} {shard shard' : Shard Keyed}
    (hi : shards[index]? = some shard) (hq : shard.queue = message :: shard'.queue) :
    (shards.flatMap Shard.queue).Perm
      (message :: (shards.set index shard').flatMap Shard.queue) := by
  obtain ⟨hlt, hget⟩ := List.getElem?_eq_some_iff.1 hi
  have hsplit : shards = shards.take index ++ shard :: shards.drop (index + 1) := by
    rw [← hget, List.getElem_cons_drop, List.take_append_drop]
  rw [List.set_eq_take_append_cons_drop, if_pos hlt]
  conv_lhs => rw [hsplit]
  simp only [List.flatMap_append, List.flatMap_cons, hq, List.cons_append]
  exact List.perm_middle

/-- **A send keeps the account.** -/
theorem Kept.sendTo (hs : s.Kept strategy n)
    (hroute : strategy = .hash → index = shardFor message.routingKey n) :
    (s.sendTo index message).Kept strategy n := by
  unfold Fan.sendTo
  split
  · exact hs
  rename_i shard hi
  split
  · exact hs
  rename_i shard' hsend
  obtain rfl := Shard.send_eq_some hsend
  obtain ⟨hlt, -⟩ := List.getElem?_eq_some_iff.1 hi
  have hlen := (hs.taken index shard hi).2
  have hqueue : Shard.queue { shard with accepted := shard.accepted ++ [message] } =
      shard.queue ++ [message] := List.drop_append_of_le_length hlen
  refine ⟨by rw [List.length_set]; exact hs.count, ?_, fun i shard' hi' => ?_,
    fun i shard' hi' => ?_, fun hhash e he => ?_,
    hs.routedBack, hs.inside⟩
  · show ((s.returned ++ [(index, message)]).map (·.2)).Perm _
    rw [List.map_append]
    refine (hs.conserved.append_right _).trans ?_
    rw [List.append_assoc]
    exact List.Perm.append_left _ (flatMap_set_append hi hqueue).symm
  · show shard'.accepted = ((s.returned ++ [(index, message)]).filter _).map _
    rw [List.filter_append, List.map_append]
    by_cases hii : index = i
    · subst hii
      rw [List.getElem?_set_self hlt] at hi'
      cases hi'
      rw [← hs.accepted index shard hi]
      simp
    · rw [List.getElem?_set_ne hii] at hi'
      rw [← hs.accepted i shard' hi']
      simp [hii]
  · by_cases hii : index = i
    · subst hii
      rw [List.getElem?_set_self hlt] at hi'
      cases hi'
      obtain ⟨htaken, -⟩ := hs.taken index shard hi
      refine ⟨?_, by simp only [List.length_append]; omega⟩
      exact htaken.trans (List.take_append_of_le_length hlen).symm
    · rw [List.getElem?_set_ne hii] at hi'
      exact hs.taken i shard' hi'
  · rcases List.mem_append.1 he with he | he
    · exact hs.routed hhash e he
    · obtain rfl := List.mem_singleton.1 he
      exact hroute hhash

/-- **A receive keeps the account.** -/
theorem Kept.recvFrom (hs : s.Kept strategy n) (hrecv : s.recvFrom index = some (message, s')) :
    s'.Kept strategy n := by
  unfold Fan.recvFrom at hrecv
  split at hrecv
  · cases hrecv
  rename_i shard hi
  split at hrecv
  · cases hrecv
  rename_i m shard' hshard
  cases hrecv
  obtain ⟨rfl, hget⟩ := Shard.recv_eq_some hshard
  obtain ⟨hlt, -⟩ := List.getElem?_eq_some_iff.1 hi
  obtain ⟨hlt', hget'⟩ := List.getElem?_eq_some_iff.1 hget
  obtain ⟨htaken, hlen⟩ := hs.taken index shard hi
  have hqueue : shard.queue =
      message :: Shard.queue { shard with received := shard.received + 1 } := by
    rw [Shard.queue, List.drop_eq_getElem_cons hlt', hget']
    rfl
  -- The received message was accepted by this shard, under its index.
  have hmem : (index, message) ∈ s.returned := by
    have hin : message ∈ shard.accepted := hget' ▸ List.getElem_mem hlt'
    rw [hs.accepted index shard hi] at hin
    obtain ⟨⟨i, m⟩, he, rfl⟩ := List.mem_map.1 hin
    obtain ⟨hmem, hii⟩ := List.mem_filter.1 he
    obtain rfl : i = index := of_decide_eq_true hii
    exact hmem
  refine ⟨by rw [List.length_set]; exact hs.count, ?_, fun i shard' hi' => ?_,
    fun i shard' hi' => ?_, hs.routed, fun hhash e he => ?_,
    fun e he => ?_⟩
  · show (s.returned.map (·.2)).Perm ((s.received ++ [(index, message)]).map (·.2) ++ _)
    rw [List.map_append, List.append_assoc]
    exact hs.conserved.trans (List.Perm.append_left _ (flatMap_set_cons hi hqueue))
  · by_cases hii : index = i
    · subst hii
      rw [List.getElem?_set_self hlt] at hi'
      cases hi'
      exact hs.accepted index shard hi
    · rw [List.getElem?_set_ne hii] at hi'
      exact hs.accepted i shard' hi'
  · show ((s.received ++ [(index, message)]).filter _).map _ = _ ∧ _
    rw [List.filter_append, List.map_append]
    by_cases hii : index = i
    · subst hii
      rw [List.getElem?_set_self hlt] at hi'
      cases hi'
      refine ⟨?_, hlt'⟩
      rw [htaken]
      show _ = shard.accepted.take (shard.received + 1)
      rw [List.take_add_one, hget]
      simp
    · rw [List.getElem?_set_ne hii] at hi'
      obtain ⟨htaken', hlen'⟩ := hs.taken i shard' hi'
      refine ⟨?_, hlen'⟩
      rw [htaken']
      simp [hii]
  · rcases List.mem_append.1 he with he | he
    · exact hs.routedBack hhash e he
    · obtain rfl := List.mem_singleton.1 he
      exact hs.routed hhash _ hmem
  · rcases List.mem_append.1 he with he | he
    · exact hs.inside e he
    · obtain rfl := List.mem_singleton.1 he
      exact hs.count ▸ hlt

/-- The account is about the shards and the messages alone. -/
theorem Kept.congr (hs : s.Kept strategy n) (hshards : s'.shards = s.shards)
    (hreturned : s'.returned = s.returned) (hreceived : s'.received = s.received) :
    s'.Kept strategy n := by
  obtain ⟨h1, h2, h3, h4, h5, h6, h7⟩ := hs
  unfold Fan.queued at h2
  rw [← hshards] at h1 h2 h3 h4
  rw [← hreturned] at h2 h3 h5
  rw [← hreceived] at h2 h4 h6 h7
  exact ⟨h1, h2, h3, h4, h5, h6, h7⟩

theorem kept_fresh (shards capacity : ℕ) : (fresh shards capacity).Kept strategy shards where
  count := List.length_replicate
  conserved := by
    have hnil : (fresh shards capacity).queued = [] :=
      List.flatMap_eq_nil_iff.2 fun shard hshard => by
        rw [List.eq_of_mem_replicate hshard]
        rfl
    rw [hnil]
    exact List.Perm.refl _
  accepted i shard hi := by
    obtain rfl := List.eq_of_mem_replicate (List.mem_of_getElem? hi)
    rfl
  taken i shard hi := by
    obtain rfl := List.eq_of_mem_replicate (List.mem_of_getElem? hi)
    exact ⟨rfl, Nat.le_refl _⟩
  routed _ _ he := nomatch he
  routedBack _ _ he := nomatch he
  inside _ he := nomatch he

/-- **Every step keeps the account.** -/
theorem Kept.step (hs : s.Kept strategy n) (op : FanOp) : (s.step strategy op).Kept strategy n := by
  cases op with
  | send h message =>
      show (s.stepSend strategy h message).Kept strategy n
      cases strategy with
      | roundRobin =>
          refine Kept.sendTo (hs.congr rfl rfl rfl) fun hhash => ?_
          cases hhash
      | hash =>
          refine hs.sendTo fun _ => ?_
          rw [hs.count]
      | broadcast => exact hs
  | recvAny h =>
      show (s.stepRecvAny h).Kept strategy n
      unfold stepRecvAny
      simp only
      split
      · exact hs
      · exact hs.congr rfl rfl rfl
  | poll h =>
      show (s.stepPoll h).Kept strategy n
      unfold stepPoll
      split
      · exact hs
      split
      · exact hs.congr rfl rfl rfl
      simp only
      split
      · rename_i message s' hrecv
        exact (hs.recvFrom hrecv).congr rfl rfl rfl
      · exact hs.congr rfl rfl rfl
  | recv i =>
      show Kept strategy n (match s.recvFrom i with | some (_, s') => s' | none => s)
      split
      · rename_i message s' hrecv
        exact hs.recvFrom hrecv
      · exact hs

/-- **Messages of one key come in the order they were accepted.** -/
theorem Kept.key_order (hs : s.Kept .hash n) (key : Bytes) :
    ((s.received.map (·.2)).filter fun m => m.routingKey = key) <+:
      ((s.returned.map (·.2)).filter fun m => m.routingKey = key) := by
  -- All of them pass through the shard of the key.
  have hone : ∀ entries : List (ℕ × Keyed), (∀ e ∈ entries, e.1 = shardFor e.2.routingKey n) →
      (entries.map (·.2)).filter (fun m => m.routingKey = key) =
        ((entries.filter fun e => e.1 = shardFor key n).map (·.2)).filter
          fun m => m.routingKey = key := by
    intro entries hroute
    induction entries with
    | nil => rfl
    | cons e entries ih =>
        have hrest := ih fun e' he => hroute e' (List.mem_cons_of_mem e he)
        have hhead := hroute e List.mem_cons_self
        rw [List.map_cons, List.filter_cons, hrest, List.filter_cons]
        by_cases hkey : e.2.routingKey = key
        · rw [hkey] at hhead
          simp [hhead, hkey]
        · by_cases hsame : e.1 = shardFor key n
          · simp [hkey, hsame]
          · simp [hkey, hsame]
  rw [hone _ (hs.routed rfl), hone _ (hs.routedBack rfl)]
  cases hshard : s.shards[shardFor key n]? with
  | some shard =>
      rw [← hs.accepted _ shard hshard, (hs.taken _ shard hshard).1]
      exact (List.take_prefix _ _).filter _
  | none =>
      have hnone : (s.received.filter fun e => e.1 = shardFor key n) = [] := by
        refine List.filter_eq_nil_iff.2 fun e he hsame => ?_
        have hlt := hs.inside e he
        have hend := List.getElem?_eq_none_iff.1 hshard
        rw [of_decide_eq_true hsame] at hlt
        rw [hs.count] at hend
        omega
      rw [hnone]
      exact List.nil_prefix

end Shards

/-! ## Polling -/

section Polling

variable {strategy : Strategy} {n h h' index : ℕ} {s s' : Fan} {message : Keyed}

/-- The turns are about the handles and their calls alone. -/
theorem Turns.congr (hs : s.Turns n) (hhandles : s'.handles = s.handles)
    (hcalls : s'.calls = s.calls) : s'.Turns n := by
  obtain ⟨h1, h2, h3⟩ := hs
  unfold Fan.callsOf at h1 h2 h3
  rw [← hhandles] at h1 h2
  rw [← hcalls] at h1 h2 h3
  exact ⟨h1, h2, h3⟩

/-- A handle whose turn does not change. -/
theorem Turns.setHandle (hs : s.Turns n) {handle : FanHandle}
    (hcounter : handle.recvRr =
      (s.callsOf h).length + if handle.polling.isSome then 1 else 0)
    (hgoing : ∀ poll, handle.polling = some poll → Going n (s.callsOf h).length poll) :
    (s.setHandle h handle).Turns n := by
  refine ⟨fun h' => ?_, fun h' poll hpoll => ?_, hs.went⟩
  · show FanHandle.recvRr (if h' = h then handle else s.handles h') =
      (s.callsOf h').length + if (FanHandle.polling (if h' = h then handle else _)).isSome then 1
        else 0
    by_cases hh : h' = h
    · subst hh
      rw [if_pos rfl]
      exact hcounter
    · rw [if_neg hh]
      exact hs.counter h'
  · replace hpoll : FanHandle.polling (if h' = h then handle else s.handles h') = some poll := hpoll
    by_cases hh : h' = h
    · subst hh
      rw [if_pos rfl] at hpoll
      exact hgoing poll hpoll
    · rw [if_neg hh] at hpoll
      exact hs.going h' poll hpoll

/-- **A call returns.** -/
theorem Turns.endCall (hs : s.Turns n) {polled : List (ℕ × Bool)} {result : Option (ℕ × Keyed)}
    (hpolling : (s.handles h).polling.isSome)
    (hwent : Went n (s.callsOf h).length ⟨h, polled, result⟩) :
    (s.endCall h polled result).Turns n := by
  have hcalls : ∀ h', (s.endCall h polled result).callsOf h' =
      if h' = h then s.callsOf h ++ [⟨h, polled, result⟩] else s.callsOf h' := by
    intro h'
    show (s.calls ++ [_]).filter _ = _
    rw [List.filter_append]
    by_cases hh : h' = h
    · subst hh
      rw [if_pos rfl]
      simp [Fan.callsOf]
    · rw [if_neg hh]
      simp [Fan.callsOf, Ne.symm hh]
  refine ⟨fun h' => ?_, fun h' poll hpoll => ?_, fun h' j call hcall => ?_⟩
  · rw [hcalls]
    show FanHandle.recvRr (if h' = h then _ else s.handles h') =
      _ + if (FanHandle.polling (if h' = h then _ else s.handles h')).isSome then 1 else 0
    by_cases hh : h' = h
    · subst hh
      have hcounter := hs.counter h'
      rw [if_pos hpolling] at hcounter
      simp [hcounter]
    · rw [if_neg hh, if_neg hh]
      exact hs.counter h'
  · replace hpoll : FanHandle.polling (if h' = h then { s.handles h with polling := none }
        else s.handles h') = some poll := hpoll
    by_cases hh : h' = h
    · subst hh
      rw [if_pos rfl] at hpoll
      cases hpoll
    · rw [if_neg hh] at hpoll
      rw [hcalls, if_neg hh]
      exact hs.going h' poll hpoll
  · rw [hcalls] at hcall
    by_cases hh : h' = h
    · subst hh
      rw [if_pos rfl] at hcall
      by_cases hj : j < (s.callsOf h').length
      · rw [List.getElem?_append_left hj] at hcall
        exact hs.went h' j call hcall
      -- The call that returned now is the last one.
      · rw [List.getElem?_append_right (Nat.le_of_not_lt hj)] at hcall
        have hlast : j - (s.callsOf h').length = 0 := by
          by_contra hne
          rw [List.getElem?_eq_none (by rw [List.length_singleton]; omega)] at hcall
          cases hcall
        rw [hlast] at hcall
        obtain rfl := Option.some.inj hcall
        obtain rfl : j = (s.callsOf h').length := by omega
        exact hwent
    · rw [if_neg hh] at hcall
      exact hs.went h' j call hcall

theorem turns_fresh (shards capacity : ℕ) : (fresh shards capacity).Turns shards where
  counter _ := rfl
  going _ _ hpoll := by cases hpoll
  went _ _ _ hcall := by cases hcall

theorem handles_sendTo : (s.sendTo index message).handles = s.handles := by
  unfold sendTo
  split
  · rfl
  · split <;> rfl

theorem calls_sendTo : (s.sendTo index message).calls = s.calls := by
  unfold sendTo
  split
  · rfl
  · split <;> rfl

/-- A receive takes from a shard that is not empty, and moves no handle. -/
theorem recvFrom_some (hrecv : s.recvFrom index = some (message, s')) :
    s'.handles = s.handles ∧ s'.calls = s.calls ∧ s.isEmpty index = false := by
  unfold recvFrom at hrecv
  split at hrecv
  · cases hrecv
  rename_i shard hi
  split at hrecv
  · cases hrecv
  rename_i m shard' hshard
  cases hrecv
  refine ⟨rfl, rfl, ?_⟩
  simp only [isEmpty, hi]
  cases hq : shard.queue with
  | nil =>
      rw [Shard.recv_eq_none.2 hq] at hshard
      cases hshard
  | cons m rest => rfl

/-- **A poll passes over a shard only where it is empty.** -/
theorem recvFrom_none (hrecv : s.recvFrom index = none) : s.isEmpty index = true := by
  unfold recvFrom at hrecv
  unfold isEmpty
  cases hi : s.shards[index]? with
  | none => rfl
  | some shard =>
      rw [hi] at hrecv
      simp only at hrecv ⊢
      split at hrecv
      · rename_i hshard
        rw [Shard.recv_eq_none.1 hshard]
        rfl
      · cases hrecv

/-- **Every step keeps the turns.** -/
theorem Turns.step (hs : s.Turns n) (hk : s.Kept strategy n) (op : FanOp) :
    (s.step strategy op).Turns n := by
  cases op with
  | send h message =>
      show (s.stepSend strategy h message).Turns n
      cases strategy with
      | roundRobin =>
          refine Turns.congr (s := s.setHandle h
            { s.handles h with rrCounter := (s.handles h).rrCounter + 1 }) ?_ handles_sendTo
              calls_sendTo
          exact hs.setHandle (hs.counter h) (hs.going h)
      | hash => exact hs.congr handles_sendTo calls_sendTo
      | broadcast => exact hs
  | recvAny h =>
      show (s.stepRecvAny h).Turns n
      unfold stepRecvAny
      simp only
      split
      · exact hs
      · rename_i hidle
        have hcounter := hs.counter h
        rw [hidle] at hcounter
        refine hs.setHandle (by simpa using hcounter) fun poll hpoll => ?_
        obtain rfl := Option.some.inj hpoll
        refine ⟨[], ?_, rfl⟩
        rw [hk.count, hcounter]
        rfl
  | poll h =>
      show (s.stepPoll h).Turns n
      unfold stepPoll
      split
      · exact hs
      rename_i poll hpolling
      obtain ⟨front, horder, hpolled⟩ := hs.going h poll hpolling
      have hcounter := hs.counter h
      rw [hpolling] at hcounter
      split
      · rename_i hend
        rw [hend, List.append_nil] at horder
        refine hs.endCall (by rw [hpolling]; rfl) ?_
        show poll.polled = _
        rw [hpolled, horder]
      rename_i index remaining hnext
      rw [hnext] at horder
      simp only
      split
      · rename_i message s' hrecv
        obtain ⟨hhandles, hcalls, hfull⟩ := recvFrom_some hrecv
        have hs' : s'.Turns n := hs.congr hhandles hcalls
        refine hs'.endCall (by rw [hhandles, hpolling]; rfl) ⟨front, remaining, ?_, ?_⟩
        · unfold callsOf
          rw [hcalls]
          exact horder
        · rw [hpolled, hfull]
      · rename_i hrecv
        refine hs.setHandle hcounter fun poll' hpoll' => ?_
        obtain rfl := Option.some.inj hpoll'
        refine ⟨front ++ [index], by rw [horder, List.append_assoc]; rfl, ?_⟩
        rw [hpolled, recvFrom_none hrecv, List.map_append]
        rfl
  | recv i =>
      show Turns n (match s.recvFrom i with | some (_, s') => s' | none => s)
      split
      · rename_i message s' hrecv
        obtain ⟨hhandles, hcalls, -⟩ := recvFrom_some hrecv
        exact hs.congr hhandles hcalls
      · exact hs

/-- A counter's order begins with its own shard. -/
theorem head?_pollOrder {j : ℕ} (hn : 0 < n) : (pollOrder j n).head? = some (j % n) := by
  obtain ⟨m, rfl⟩ := Nat.exists_eq_succ_of_ne_zero (Nat.pos_iff_ne_zero.1 hn)
  rw [pollOrder, List.range_succ_eq_map, List.map_cons, List.head?_cons, Nat.add_zero, Nat.mod_mod]

/-- A counter's order is every shard. -/
theorem mem_pollOrder {i j : ℕ} (hi : i < n) : i ∈ pollOrder j n := by
  have hj : j % n < n := Nat.mod_lt _ (by omega)
  refine List.mem_map.2 ⟨(i + n - j % n) % n, List.mem_range.2 (Nat.mod_lt _ (by omega)), ?_⟩
  rw [Nat.add_mod_mod, show j % n + (i + n - j % n) = i + n by omega, Nat.add_mod_right,
    Nat.mod_eq_of_lt hi]

theorem Went.first {j : ℕ} {call : FanCall} (hn : 0 < n) (hw : Went n j call) :
    call.first = some (j % n) := by
  have hhead := head?_pollOrder (j := j) hn
  unfold Went at hw
  unfold FanCall.first
  split at hw
  · rw [hw, List.head?_map, hhead]
    rfl
  · obtain ⟨front, rest, horder, hpolled⟩ := hw
    rw [hpolled]
    cases front with
    | nil =>
        rw [horder] at hhead
        exact hhead
    | cons i front =>
        rw [horder] at hhead
        exact hhead

/-- A first shard that was not empty is received from. -/
theorem Went.received {j i : ℕ} {call : FanCall} (hw : Went n j call)
    (hfirst : call.polled.head? = some (i, false)) : ∃ m, call.result = some (i, m) := by
  unfold Went at hw
  split at hw
  · rw [hw, List.head?_map] at hfirst
    cases hhead : (pollOrder j n).head? with
    | none =>
        rw [hhead] at hfirst
        cases hfirst
    | some i' =>
        rw [hhead] at hfirst
        cases hfirst
  · rename_i index m hresult
    obtain ⟨front, rest, -, hpolled⟩ := hw
    rw [hpolled] at hfirst
    cases front with
    | nil =>
        cases hfirst
        exact ⟨m, hresult⟩
    | cons i' front => cases hfirst

/-- A call that returned `None` found each shard empty when it polled it. -/
theorem Turns.polled_empty {i : ℕ} {call : FanCall} (ht : Turns n s) (hcall : call ∈ s.calls)
    (hnone : call.result = none) (hi : i < n) : (i, true) ∈ call.polled := by
  have hmem : call ∈ s.callsOf call.handle := List.mem_filter.2 ⟨hcall, by simp⟩
  obtain ⟨j, hj⟩ := List.getElem?_of_mem hmem
  have hwent := ht.went _ j call hj
  unfold Went at hwent
  rw [hnone] at hwent
  rw [hwent]
  exact List.mem_map.2 ⟨i, mem_pollOrder hi, rfl⟩

/-- **Of `n` consecutive calls of a handle** exactly one polls shard `i`
first. -/
theorem Turns.window {h k i : ℕ} (ht : Turns n s) (hlen : k + n ≤ (s.callsOf h).length)
    (hi : i < n) :
    ∃ j call, (k ≤ j ∧ j < k + n) ∧ (s.callsOf h)[j]? = some call ∧ call.first = some i ∧
      (call.polled.head? = some (i, false) → ∃ m, call.result = some (i, m)) ∧
      ∀ j' call', k ≤ j' → j' < k + n → (s.callsOf h)[j']? = some call' →
        call'.first = some i → j' = j := by
  have hpos : 0 < n := by omega
  -- The one counter of the window that is `i` modulo the number of shards.
  obtain ⟨j, hkj, hjk, hji⟩ := Window.exists_cursor k hi
  obtain ⟨call, hcall⟩ : ∃ call, (s.callsOf h)[j]? = some call :=
    ⟨_, List.getElem?_eq_getElem (by omega)⟩
  have hwent := ht.went h j call hcall
  refine ⟨j, call, ⟨hkj, hjk⟩, hcall, by rw [hwent.first hpos, hji], hwent.received,
    fun j' call' hkj' hjk' hcall' hfirst => ?_⟩
  have hj' := (ht.went h j' call' hcall').first hpos
  rw [hfirst] at hj'
  have hmod : j' % n = j % n := by
    rw [hji]
    exact (Option.some.inj hj').symm
  exact Window.eq_of_mod_eq hkj' hjk' hkj hjk hmod

end Polling

/-! ## Calls return -/

section Returns

variable {strategy : Strategy} {n h index : ℕ} {s s' : Fan} {message : Keyed} {poll : Poll}

/-- **A poll ends the call, or leaves one shard less to poll.** -/
theorem stepPoll_advances (hpolling : (s.handles h).polling = some poll) :
    (∃ call, (s.stepPoll h).callsOf h = s.callsOf h ++ [call]) ∨
      (s.stepPoll h).callsOf h = s.callsOf h ∧ ∃ index rest polled,
        poll.remaining = index :: rest ∧
          ((s.stepPoll h).handles h).polling = some ⟨rest, polled⟩ := by
  have hend {s' : Fan} (hcalls : s'.calls = s.calls) (polled : List (ℕ × Bool))
      (result : Option (ℕ × Keyed)) :
      ∃ call, (s'.endCall h polled result).callsOf h = s.callsOf h ++ [call] := by
    refine ⟨⟨h, polled, result⟩, ?_⟩
    show (s'.calls ++ [_]).filter _ = _
    rw [hcalls, List.filter_append]
    simp [Fan.callsOf]
  rw [stepPoll, hpolling]
  simp only
  cases hnext : poll.remaining with
  | nil => exact .inl (hend rfl _ none)
  | cons index rest =>
      simp only
      cases hrecv : s.recvFrom index with
      | some e =>
          obtain ⟨message, s'⟩ := e
          exact .inl (hend (recvFrom_some hrecv).2.1 _ _)
      | none =>
          exact .inr ⟨rfl, index, rest, poll.polled ++ [(index, s.isEmpty index)], rfl, by
            simp [setHandle]⟩

/-- No other step ends the call, or moves it. -/
theorem step_keeps_call (hpolling : (s.handles h).polling = some poll) {op : FanOp}
    (hop : op ≠ .poll h) :
    ((s.step strategy op).handles h).polling = some poll ∧
      (s.step strategy op).callsOf h = s.callsOf h := by
  have hset {h' : ℕ} {handle : FanHandle} (hhandle : h' = h → handle.polling = some poll) :
      ((s.setHandle h' handle).handles h).polling = some poll := by
    show FanHandle.polling (if h = h' then handle else s.handles h) = some poll
    split_ifs with hh
    · exact hhandle hh.symm
    · exact hpolling
  cases op with
  | send h' message =>
      show ((s.stepSend strategy h' message).handles h).polling = some poll ∧
        (s.stepSend strategy h' message).calls.filter _ = _
      cases strategy with
      | roundRobin =>
          refine ⟨?_, congrArg (List.filter _) calls_sendTo⟩
          refine (congrArg (fun handles => (handles h).polling) handles_sendTo).trans (hset ?_)
          rintro rfl
          exact hpolling
      | hash =>
          refine ⟨?_, congrArg (List.filter _) calls_sendTo⟩
          exact (congrArg (fun handles => (handles h).polling) handles_sendTo).trans hpolling
      | broadcast => exact ⟨hpolling, rfl⟩
  | recvAny h' =>
      show ((s.stepRecvAny h').handles h).polling = some poll ∧
        (s.stepRecvAny h').calls.filter _ = _
      rw [stepRecvAny]
      cases hidle : (s.handles h').polling with
      | some _ => exact ⟨hpolling, rfl⟩
      | none =>
          refine ⟨hset ?_, rfl⟩
          rintro rfl
          rw [hpolling] at hidle
          cases hidle
  | poll h' =>
      have hne : h' ≠ h := fun hh => hop (congrArg FanOp.poll hh)
      have hend {s' : Fan} (hhandles : s'.handles = s.handles) (hcalls : s'.calls = s.calls)
          (polled : List (ℕ × Bool)) (result : Option (ℕ × Keyed)) :
          ((s'.endCall h' polled result).handles h).polling = some poll ∧
            (s'.endCall h' polled result).callsOf h = s.callsOf h := by
        constructor
        · show FanHandle.polling (if h = h' then _ else s'.handles h) = some poll
          rw [if_neg hne.symm, hhandles]
          exact hpolling
        · show (s'.calls ++ [_]).filter _ = _
          rw [hcalls, List.filter_append]
          simp [Fan.callsOf, hne]
      show ((s.stepPoll h').handles h).polling = some poll ∧ (s.stepPoll h').callsOf h = _
      rw [stepPoll]
      cases (s.handles h').polling with
      | none => exact ⟨hpolling, rfl⟩
      | some poll' =>
          simp only
          cases poll'.remaining with
          | nil => exact hend rfl rfl _ none
          | cons index rest =>
              simp only
              cases hrecv : s.recvFrom index with
              | some e =>
                  obtain ⟨message, s'⟩ := e
                  obtain ⟨hhandles, hcalls, -⟩ := recvFrom_some hrecv
                  exact hend hhandles hcalls _ _
              | none => exact ⟨hset fun hh => absurd hh hne, rfl⟩
  | recv i =>
      cases hrecv : s.recvFrom i with
      | some e =>
          obtain ⟨message, s'⟩ := e
          obtain ⟨hhandles, hcalls, -⟩ := recvFrom_some hrecv
          have hstep : s.step strategy (.recv i) = s' := by simp only [step, hrecv]
          rw [hstep, hhandles, callsOf, hcalls]
          exact ⟨hpolling, rfl⟩
      | none =>
          have hstep : s.step strategy (.recv i) = s := by simp only [step, hrecv]
          rw [hstep]
          exact ⟨hpolling, rfl⟩

/-- The calls that returned stay. -/
theorem calls_step (op : FanOp) : ∃ more, (s.step strategy op).calls = s.calls ++ more := by
  cases op with
  | send h' message =>
      refine ⟨[], Eq.trans ?_ (List.append_nil _).symm⟩
      cases strategy with
      | roundRobin | hash => exact calls_sendTo
      | broadcast => rfl
  | recvAny h' =>
      refine ⟨[], Eq.trans ?_ (List.append_nil _).symm⟩
      show (s.stepRecvAny h').calls = s.calls
      rw [stepRecvAny]
      cases (s.handles h').polling <;> rfl
  | poll h' =>
      show ∃ more, (s.stepPoll h').calls = s.calls ++ more
      rw [stepPoll]
      cases (s.handles h').polling with
      | none => exact ⟨[], (List.append_nil _).symm⟩
      | some poll =>
          simp only
          cases poll.remaining with
          | nil => exact ⟨_, rfl⟩
          | cons index rest =>
              simp only
              cases hrecv : s.recvFrom index with
              | some e =>
                  obtain ⟨message, s'⟩ := e
                  exact ⟨_, congrArg (· ++ _) (recvFrom_some hrecv).2.1⟩
              | none => exact ⟨[], (List.append_nil _).symm⟩
  | recv i =>
      refine ⟨[], Eq.trans ?_ (List.append_nil _).symm⟩
      cases hrecv : s.recvFrom i with
      | some e =>
          obtain ⟨message, s'⟩ := e
          simp only [step, hrecv]
          exact (recvFrom_some hrecv).2.1
      | none => simp only [step, hrecv]

theorem callsOf_exec_le (ops : List FanOp) :
    (s.callsOf h).length ≤ ((Run.exec (step strategy) s ops).callsOf h).length := by
  refine Run.invariant_exec
    (fun s' : Fan => (s.callsOf h).length ≤ (s'.callsOf h).length) (fun s' op hle => ?_) ops
    (Nat.le_refl _)
  obtain ⟨more, hmore⟩ : ∃ more, (s'.step strategy op).calls = s'.calls ++ more := calls_step op
  refine Nat.le_trans hle ?_
  show (s'.callsOf h).length ≤ ((s'.step strategy op).calls.filter _).length
  rw [hmore, List.filter_append, List.length_append]
  exact Nat.le_add_right _ _

/-- **A call that is polled often enough returns**, whatever the other
handles do meanwhile. -/
theorem call_returns (hpolling : (s.handles h).polling = some poll) {rest : List FanOp}
    (hpolls : poll.remaining.length < rest.countP fun op => op = .poll h) :
    (s.callsOf h).length < ((Run.exec (step strategy) s rest).callsOf h).length := by
  induction rest generalizing s poll with
  | nil => exact absurd hpolls (Nat.not_lt_zero _)
  | cons op rest ih =>
      rw [Run.exec_cons]
      by_cases hop : op = .poll h
      · subst hop
        rw [List.countP_cons_of_pos (by simp)] at hpolls
        rcases stepPoll_advances hpolling with
          ⟨call, hcalls⟩ | ⟨hcalls, index, left, polled, hnext, hleft⟩
        · have hmore : (s.callsOf h).length < ((s.stepPoll h).callsOf h).length := by
            rw [hcalls, List.length_append]
            exact Nat.lt_succ_self _
          exact Nat.lt_of_lt_of_le hmore (callsOf_exec_le rest)
        · rw [hnext, List.length_cons] at hpolls
          rw [← hcalls]
          exact ih hleft (Nat.lt_of_succ_lt_succ hpolls)
      · rw [List.countP_cons_of_neg (by simpa using hop)] at hpolls
        obtain ⟨hpolling', hcalls⟩ : ((s.step strategy op).handles h).polling = some poll ∧
            (s.step strategy op).callsOf h = s.callsOf h := step_keeps_call hpolling hop
        rw [← hcalls]
        exact ih hpolling' hpolls

theorem length_pollOrder (base : ℕ) : (pollOrder base n).length = n := by
  rw [pollOrder, List.length_map, List.length_range]

/-- **A `recv_any` returns** once each shard was polled and one poll more. -/
theorem recvAny_returns (hk : s.Kept strategy n) (ht : s.Turns n) {rest : List FanOp}
    (hpolls : n < rest.countP fun op => op = .poll h) :
    (s.callsOf h).length <
      ((Run.exec (step strategy) s (.recvAny h :: rest)).callsOf h).length := by
  obtain ⟨poll, hpolling, hleft, hcalls⟩ : ∃ poll,
      ((s.step strategy (.recvAny h)).handles h).polling = some poll ∧
        poll.remaining.length ≤ n ∧ (s.step strategy (.recvAny h)).callsOf h = s.callsOf h := by
    show ∃ poll, ((s.stepRecvAny h).handles h).polling = some poll ∧
      poll.remaining.length ≤ n ∧ (s.stepRecvAny h).callsOf h = s.callsOf h
    rw [stepRecvAny]
    cases hidle : (s.handles h).polling with
    | some poll =>
        obtain ⟨front, horder, -⟩ := ht.going h poll hidle
        have hlen := congrArg List.length horder
        rw [length_pollOrder, List.length_append] at hlen
        exact ⟨poll, hidle, by omega, rfl⟩
    | none =>
        refine ⟨⟨pollOrder (s.handles h).recvRr s.shards.length, []⟩, by simp [setHandle], ?_, rfl⟩
        rw [length_pollOrder, hk.count]
  rw [Run.exec_cons, ← hcalls]
  exact call_returns hpolling (Nat.lt_of_le_of_lt hleft hpolls)

/-- **A send to a shard with room returns.** -/
theorem send_returns {shard : Shard Keyed} (hstrategy : strategy ≠ .broadcast)
    (hshard : s.shards[s.target strategy h message]? = some shard) (hroom : shard.HasRoom) :
    (s.step strategy (.send h message)).returned =
      s.returned ++ [(s.target strategy h message, message)] := by
  have hsend : shard.send message =
      some { shard with accepted := shard.accepted ++ [message] } := if_pos hroom
  cases strategy with
  | roundRobin | hash =>
      simp only [target] at hshard
      simp only [step, stepSend, sendTo, setHandle, target, hshard, hsend]
  | broadcast => exact absurd rfl hstrategy

/-- **A receive of a shard that holds a message takes the oldest.** -/
theorem recv_returns {shard : Shard Keyed} {i : ℕ} {rest : List Keyed}
    (hshard : s.shards[i]? = some shard) (hqueue : shard.queue = message :: rest) :
    (s.step strategy (.recv i)).received = s.received ++ [(i, message)] := by
  have hrecv : shard.recv = some (message, { shard with received := shard.received + 1 }) := by
    rw [Shard.recv, hqueue]
  simp only [step, recvFrom, hshard, hrecv]

end Returns

end Fan

open Fan

/-- **Routing loses and duplicates nothing.** After every run of sends, polls
and receives: what was received and what is queued is what was accepted;
with hash routing the messages of a key are received in the order they were
accepted; a `recv_any` returned `None` only where each shard was empty when
it was polled; and of any `shards` consecutive calls of a handle exactly one
polls a given shard first, and receives from it where it is not empty. A
`recv_any` returns once it was polled for every shard and once more, whatever
else happens; a send to a shard with room returns, and so does a receive of a
shard that holds a message. -/
theorem routing_conserves (strategy : Strategy) (shards capacity : ℕ) (ops : List FanOp) :
    let s := Run.exec (Fan.step strategy) (fresh shards capacity) ops
    (s.returned.map (·.2)).Perm (s.received.map (·.2) ++ s.queued) ∧
      (strategy = .hash → ∀ key, ((s.received.map (·.2)).filter fun m => m.routingKey = key) <+:
        ((s.returned.map (·.2)).filter fun m => m.routingKey = key)) ∧
      (∀ call ∈ s.calls, call.result = none → ∀ i < shards, (i, true) ∈ call.polled) ∧
      (∀ h k, k + shards ≤ (s.callsOf h).length → ∀ i < shards,
        ∃ j call, (k ≤ j ∧ j < k + shards) ∧ (s.callsOf h)[j]? = some call ∧
          call.first = some i ∧
          (call.polled.head? = some (i, false) → ∃ m, call.result = some (i, m)) ∧
          ∀ j' call', k ≤ j' → j' < k + shards → (s.callsOf h)[j']? = some call' →
            call'.first = some i → j' = j) ∧
      (∀ h rest, shards < (rest.countP fun op => op = .poll h) → (s.callsOf h).length <
        ((Run.exec (Fan.step strategy) s (.recvAny h :: rest)).callsOf h).length) ∧
      (strategy ≠ .broadcast → ∀ h message shard,
        s.shards[s.target strategy h message]? = some shard → shard.HasRoom →
          (s.step strategy (.send h message)).returned =
            s.returned ++ [(s.target strategy h message, message)]) ∧
      ∀ (i : ℕ) (shard : Shard Keyed) message rest, s.shards[i]? = some shard →
        shard.queue = message :: rest →
          (s.step strategy (.recv i)).received = s.received ++ [(i, message)] := by
  intro s
  have hinv : s.Kept strategy shards ∧ s.Turns shards :=
    Run.invariant_exec (fun s : Fan => s.Kept strategy shards ∧ s.Turns shards)
      (fun s op hs => ⟨hs.1.step op, hs.2.step hs.1 op⟩) ops
      ⟨kept_fresh shards capacity, turns_fresh shards capacity⟩
  obtain ⟨hk, ht⟩ := hinv
  refine ⟨hk.conserved, fun hhash key => ?_, fun call hcall hnone i hi => ?_,
    fun h k hlen i hi => ?_, fun h rest hpolls => recvAny_returns hk ht hpolls,
    fun hstrategy h message shard hshard hroom => send_returns hstrategy hshard hroom,
    fun i shard message rest hshard hqueue => recv_returns hshard hqueue⟩
  · subst hhash
    exact hk.key_order key
  · exact ht.polled_empty hcall hnone hi
  · exact ht.window hlen hi

/-- Two shards and two handles: two sends, one of which a handle receives
while the other handle polls. -/
theorem routing_conserves_two :
    let a : Keyed := ⟨[1], none⟩
    let b : Keyed := ⟨[2], none⟩
    let ops : List FanOp := [.recvAny 1, .poll 1, .send 0 a, .send 0 b, .poll 1, .recvAny 0]
    let s := Run.exec (Fan.step .roundRobin) (fresh 2 1) ops
    s.returned = [(0, a), (1, b)] ∧ s.calls = [⟨1, [(0, true), (1, false)], some (1, b)⟩] ∧
      s.queued = [a] ∧ (s.returned.map (·.2)).Perm (s.received.map (·.2) ++ s.queued) ∧
      (s.callsOf 0).length < ((Run.exec (Fan.step .roundRobin) s
        (.recvAny 0 :: [.poll 0, .recv 0, .poll 1, .poll 0, .poll 0])).callsOf 0).length := by
  intro a b ops s
  obtain ⟨hconserved, -, -, -, hreturns, -⟩ := routing_conserves .roundRobin 2 1 ops
  refine ⟨rfl, rfl, rfl, hconserved, hreturns 0 _ ?_⟩
  decide

end Dsline
