import Dsline.Core.Error
import Dsline.Library.Feed
/-!
# The pipeline runtime

Streams, sinks and operators are closures with a state of their own, any call
of which may fail. `run` polls an item, sends what the operators make of it,
and polls the next. To the sink that is the same as running the operators over
the whole source first (`run_eq_staged`), and a pipeline behind a pipeline is
the second one run over what the first one collects (`pipe_collected`).
-/

namespace Dsline

open Feed

variable {T I O In Mid Out Next : Type}

/-- `Stream`: an implementation, with what it holds. -/
structure Stream (T : Type) where
  State : Type
  init : State
  pollNext : EStateM Failure State (Option T)

/-- `Sink`. -/
structure Sink (T : Type) where
  State : Type
  init : State
  pollSend : T → EStateM Failure State Unit
  close : EStateM Failure State Unit

/-- `Operator`: a closure, with what it captures. -/
structure Operator (I O : Type) where
  State : Type
  init : State
  call : I → EStateM Failure State (List O)

/-- `IterStream`, over an iterator that ends. -/
abbrev IterStream (items : List (Except Failure T)) : Stream T where
  State := List (Except Failure T)
  init := items
  pollNext := fun
    | [] => .ok none []
    | .ok item :: rest => .ok (some item) rest
    | .error e :: rest => .error e rest

/-- `CollectSink`. -/
abbrev CollectSink (T : Type) : Sink T where
  State := List T
  init := []
  pollSend item := modify (· ++ [item])
  close := pure ()

structure Pipeline (In Out : Type) where
  op : Operator In Out

namespace Pipeline

/-- `Pipeline::identity`. -/
def identity : Pipeline T T := ⟨⟨Unit, (), fun x => pure [x]⟩⟩

/-- `Pipeline::pipe`. -/
def pipe (self : Pipeline In Out) (next : Operator Out Next) : Pipeline In Next where
  op :=
    { State := self.op.State × next.State
      init := (self.op.init, next.init)
      call := Feed.chain self.op.call next.call }

/-- The loop of `run`, for so many polls: none if the source has not ended
by then. -/
def runLoop (self : Pipeline In Out) (source : Stream In) (sink : Sink Out) :
    ℕ → EStateM Failure (source.State × self.op.State × sink.State) (Option Unit)
  | 0 => pure none
  | polls + 1 => do
      match ← onFst source.pollNext with
      | none => pure (some ())
      | some item =>
          let outputs ← onSnd (onFst (self.op.call item))
          onSnd (onSnd (drain sink.pollSend outputs))
          runLoop self source sink polls

/-- `Pipeline::run`. -/
def run (self : Pipeline In Out) (source : Stream In) (sink : Sink Out) (polls : ℕ) :
    EStateM.Result Failure (source.State × self.op.State × sink.State) (Option Unit) :=
  (do
    match ← self.runLoop source sink polls with
    | none => pure none
    | some () =>
        onSnd (onSnd sink.close)
        pure (some ()) : EStateM Failure _ (Option Unit))
    (source.init, self.op.init, sink.init)

end Pipeline

/-- What a source yields until it ends or fails, if it does so within so many
polls. -/
def Stream.polled (source : Stream T) : ℕ → source.State → Option (List (Except Failure T))
  | 0, _ => none
  | polls + 1, s =>
      match source.pollNext s with
      | .error e _ => some [.error e]
      | .ok none _ => some []
      | .ok (some item) s' => (source.polled polls s').map (.ok item :: ·)

/-! ## Interleaved and staged -/

section

variable {source : Stream In}

/-- A call that came to its end, in the words of the loop. -/
def ended {σ : Type} (r : EStateM.Result Failure σ Unit) : EStateM.Result Failure σ (Option Unit) :=
  match r with
  | .ok () s => .ok (some ()) s
  | .error e s => .error e s

/-- Without the source the loop hands on what was polled. -/
theorem runLoop_seen (self : Pipeline In Out) (sink : Sink Out) {polls : ℕ} {r : source.State}
    {items : List (Except Failure In)}
    (h : source.polled polls r = some items) (st : self.op.State × sink.State) :
    seen (self.runLoop source sink polls (r, st))
      = ended (handOn self.op.call sink.pollSend items st) := by
  induction polls generalizing r items st with
  | zero => cases h
  | succ polls ih =>
      obtain ⟨s, t⟩ := st
      rw [Pipeline.runLoop]
      rw [Stream.polled] at h
      cases hpoll : source.pollNext r with
      | error e r' =>
          rw [hpoll] at h
          obtain rfl := Option.some.inj h
          rw [Effect.bind_error (onFst_error hpoll)]
          rfl
      | ok polled r' =>
          rw [hpoll] at h
          rw [Effect.bind_ok (onFst_ok hpoll)]
          cases polled with
          | none =>
              obtain rfl := Option.some.inj h
              rfl
          | some item =>
              obtain ⟨rest, hrest, rfl⟩ := Option.map_eq_some_iff.1 h
              dsimp only
              rw [handOn]
              cases hcall : self.op.call item s with
              | error e s' =>
                  rw [Effect.bind_error (onSnd_error (onFst_error hcall)),
                    Effect.bind_error (onFst_error hcall)]
                  rfl
              | ok outputs s' =>
                  rw [Effect.bind_ok (onSnd_ok (onFst_ok hcall)), Effect.bind_ok (onFst_ok hcall)]
                  cases hdrain : drain sink.pollSend outputs t with
                  | error e t' =>
                      rw [Effect.bind_error (onSnd_error (onSnd_error hdrain)),
                        Effect.bind_error (onSnd_error hdrain)]
                      rfl
                  | ok u t' =>
                      rw [Effect.bind_ok (onSnd_ok (onSnd_ok hdrain)),
                        Effect.bind_ok (onSnd_ok hdrain)]
                      exact ih hrest (s', t')

/-- A run, by what the operators make of the whole source. -/
theorem seen_run (self : Pipeline In Out) (source : Stream In) (sink : Sink Out) {polls : ℕ}
    {items : List (Except Failure In)} (h : source.polled polls source.init = some items) :
    seen (seen (self.run source sink polls))
      = (do
          settle sink.pollSend (feed self.op.call items self.op.init)
          sink.close
          pure (some ()) : EStateM Failure sink.State (Option Unit)) sink.init := by
  have hseen := runLoop_seen self sink h (self.op.init, sink.init)
  have hstaged := handOn_eq self.op.call sink.pollSend items self.op.init sink.init
  rw [Pipeline.run]
  cases hloop : self.runLoop source sink polls (source.init, self.op.init, sink.init) with
  | error e w =>
      rw [hloop] at hseen
      cases hhand : handOn self.op.call sink.pollSend items (self.op.init, sink.init) with
      | ok u st =>
          rw [hhand] at hseen
          cases hseen
      | error e' st =>
          rw [hhand] at hseen hstaged
          cases hseen
          rw [Effect.bind_error hloop, Effect.bind_error hstaged.symm]
          rfl
  | ok res w =>
      rw [hloop] at hseen
      cases hhand : handOn self.op.call sink.pollSend items (self.op.init, sink.init) with
      | error e' st =>
          rw [hhand] at hseen
          cases hseen
      | ok u st =>
          rw [hhand] at hseen hstaged
          cases hseen
          rw [Effect.bind_ok hloop, Effect.bind_ok hstaged.symm]
          obtain ⟨r, s, t⟩ := w
          dsimp only
          cases hclose : sink.close t with
          | error e t' =>
              rw [Effect.bind_error (onSnd_error (onSnd_error hclose)), Effect.bind_error hclose]
              rfl
          | ok u t' =>
              rw [Effect.bind_ok (onSnd_ok (onSnd_ok hclose)), Effect.bind_ok hclose]
              rfl

/-- **A run is the operators over the whole source, and then the sink.** Take
a source that ends or fails within the polls, and what the operators make of
it up to its first failure or theirs. The run succeeds exactly if there is
none, the sink takes every output, and it closes; a run that fails has sent
the outputs before the failure, all of them unless it is the sink that
failed, and has not closed the sink unless that is what failed. -/
theorem run_eq_staged (self : Pipeline In Out) (source : Stream In) (sink : Sink Out) {polls : ℕ}
    {items : List (Except Failure In)} (h : source.polled polls source.init = some items) :
    let fed := feed self.op.call items self.op.init
    let sent := drain sink.pollSend fed.outputs sink.init
    let outcome := seen (seen (self.run source sink polls))
    (∀ res t', outcome = .ok res t' ↔ res = some () ∧ fed.failure = none ∧
      ∃ t, sent = .ok () t ∧ sink.close t = .ok () t') ∧
    ∀ e t', outcome = .error e t' ↔
      sent = .error e t' ∨ (sent = .ok () t' ∧ fed.failure = some e) ∨
        (fed.failure = none ∧ ∃ t, sent = .ok () t ∧ sink.close t = .error e t') := by
  intro fed sent outcome
  have hrun : outcome = (do
      settle sink.pollSend fed
      sink.close
      pure (some ()) : EStateM Failure sink.State (Option Unit)) sink.init :=
    seen_run self source sink h
  cases hsent : sent with
  | error e t =>
      have hsettle : settle sink.pollSend fed sink.init = .error e t := Effect.bind_error hsent
      rw [Effect.bind_error hsettle] at hrun
      rw [hrun]
      simp
  | ok u t =>
      cases hfailure : fed.failure with
      | some e =>
          have hsettle : settle sink.pollSend fed sink.init = .error e t := by
            rw [settle, Effect.bind_ok hsent, hfailure]
            rfl
          rw [Effect.bind_error hsettle] at hrun
          rw [hrun]
          simp [and_comm]
      | none =>
          have hsettle : settle sink.pollSend fed sink.init = .ok () t := by
            rw [settle, Effect.bind_ok hsent, hfailure]
            rfl
          rw [Effect.bind_ok hsettle] at hrun
          cases hclose : sink.close t with
          | error e t' =>
              rw [Effect.bind_error hclose] at hrun
              rw [hrun]
              simp [hclose]
          | ok u t' =>
              rw [Effect.bind_ok hclose] at hrun
              rw [hrun]
              simp [hclose, eq_comm]

end

/-- A source that fails behind its first item. -/
theorem run_eq_staged_failing :
    seen (seen ((Pipeline.identity : Pipeline ℕ ℕ).run
      (IterStream [.ok 1, .error (.ofChannel .closed), .ok 2]) (CollectSink ℕ) 4))
      = .error (.ofChannel .closed) [1] :=
  ((run_eq_staged Pipeline.identity (IterStream [.ok 1, .error (.ofChannel .closed), .ok 2])
    (CollectSink ℕ) (show _ = some [.ok 1, .error (.ofChannel .closed)] from rfl)).2 _ _).2
      (.inr (.inl ⟨rfl, rfl⟩))

/-! ## Collecting -/

/-- A run over a list, into a list. -/
def Pipeline.collected (self : Pipeline In Out) (items : List (Except Failure In)) :
    Except Failure (List Out) :=
  match self.run (IterStream items) (CollectSink Out) (items.length + 1) with
  | .ok _ s => .ok s.2.2
  | .error e _ => .error e

/-- The items up to the first failed one, and that one. -/
def upToFailure : List (Except Failure T) → List (Except Failure T)
  | [] => []
  | .error e :: _ => [.error e]
  | .ok item :: items => .ok item :: upToFailure items

theorem polled_iterStream (items : List (Except Failure T)) :
    (IterStream items).polled (items.length + 1) items = some (upToFailure items) := by
  have hpolls : ∀ held : List (Except Failure T),
      (IterStream held).polled (items.length + 1) items = some (upToFailure items) := by
    intro held
    induction items with
    | nil => rfl
    | cons item items ih =>
        cases item with
        | error e => rfl
        | ok item => exact congrArg (Option.map (.ok item :: ·)) ih
  exact hpolls items

theorem feed_upToFailure {σ : Type} (call : In → EStateM Failure σ (List Out))
    (items : List (Except Failure In)) (s : σ) :
    feed call (upToFailure items) s = feed call items s := by
  induction items generalizing s with
  | nil => rfl
  | cons item items ih =>
      cases item with
      | error e => rfl
      | ok item =>
          rw [upToFailure]
          cases hcall : call item s with
          | error e s' => rw [feed_error hcall, feed_error hcall]
          | ok made s' => rw [feed_ok hcall, feed_ok hcall, ih]

theorem drain_collectSink (outputs : List T) (held : List T) :
    drain (CollectSink T).pollSend outputs held = .ok () (held ++ outputs) := by
  induction outputs generalizing held with
  | nil => rw [List.append_nil]; rfl
  | cons output outputs ih =>
      have hsend : (CollectSink T).pollSend output held = .ok () (held ++ [output]) := rfl
      rw [drain, Effect.bind_ok hsend, ih, List.append_assoc, List.singleton_append]

/-- **A collecting run is a feed.** -/
theorem collected_eq (self : Pipeline In Out) (items : List (Except Failure In)) :
    self.collected items = (feed self.op.call items self.op.init).toExcept := by
  have hrun := seen_run self (IterStream items) (CollectSink Out) (polled_iterStream items)
  rw [feed_upToFailure] at hrun
  have hsent := drain_collectSink (feed self.op.call items self.op.init).outputs []
  rw [Pipeline.collected, Fed.toExcept]
  cases hfailure : (feed self.op.call items self.op.init).failure with
  | some e =>
      have hsettle : settle (CollectSink Out).pollSend (feed self.op.call items self.op.init) []
          = .error e (feed self.op.call items self.op.init).outputs := by
        rw [settle, Effect.bind_ok hsent, hfailure]
        rfl
      rw [Effect.bind_error hsettle] at hrun
      cases hres : self.run (IterStream items) (CollectSink Out) (items.length + 1) with
      | ok res w =>
          rw [hres] at hrun
          cases hrun
      | error e' w =>
          rw [hres] at hrun
          obtain ⟨r, s, t⟩ := w
          cases hrun
          rfl
  | none =>
      have hsettle : settle (CollectSink Out).pollSend (feed self.op.call items self.op.init) []
          = .ok () (feed self.op.call items self.op.init).outputs := by
        rw [settle, Effect.bind_ok hsent, hfailure]
        rfl
      rw [Effect.bind_ok hsettle] at hrun
      cases hres : self.run (IterStream items) (CollectSink Out) (items.length + 1) with
      | ok res w =>
          rw [hres] at hrun
          obtain ⟨r, s, t⟩ := w
          cases hrun
          rfl
      | error e' w =>
          rw [hres] at hrun
          cases hrun

theorem pipe_collected_iff (first : Pipeline In Mid) (second : Pipeline Mid Out)
    (items : List (Except Failure In)) (outs : List Out) :
    (first.pipe second.op).collected items = .ok outs ↔
      ∃ mids, first.collected items = .ok mids ∧ second.collected (mids.map .ok) = .ok outs := by
  have hchain := feed_chain first.op.call second.op.call items first.op.init second.op.init
  simp only [collected_eq, Fed.toExcept_eq_ok]
  constructor
  · rintro ⟨hfailure, houtputs⟩
    obtain ⟨hfirst, hsecond⟩ := hchain.failure.1 hfailure
    exact ⟨_, ⟨hfirst, rfl⟩, hsecond, (hchain.outputs hfailure).symm.trans houtputs⟩
  · rintro ⟨mids, ⟨hfirst, rfl⟩, hsecond, houtputs⟩
    have hfailure := hchain.failure.2 ⟨hfirst, hsecond⟩
    exact ⟨hfailure, (hchain.outputs hfailure).trans houtputs⟩

/-- **A pipeline behind a pipeline** collects what the second collects from
what the first collects, and fails if either does. A further operator may be
put behind them one by one or as a pipeline of its own. Where a run fails,
what reached the sink before is a beginning of what the second pipeline makes
of what the first one got to. -/
theorem pipe_collected (first : Pipeline In Mid) (second : Pipeline Mid Out)
    (third : Operator Out Next) (items : List (Except Failure In)) :
    (∀ outs, (first.pipe second.op).collected items = .ok outs ↔
      ∃ mids, first.collected items = .ok mids ∧ second.collected (mids.map .ok) = .ok outs) ∧
    (∀ outs, ((first.pipe second.op).pipe third).collected items = .ok outs ↔
      (first.pipe (second.pipe third).op).collected items = .ok outs) ∧
    (feed (first.pipe second.op).op.call items (first.pipe second.op).op.init).outputs <+:
      (feed second.op.call ((feed first.op.call items first.op.init).outputs.map .ok)
        second.op.init).outputs := by
  refine ⟨pipe_collected_iff first second items, fun outs => ?_,
    (feed_chain first.op.call second.op.call items first.op.init second.op.init).isPrefix⟩
  rw [pipe_collected_iff (first.pipe second.op) ⟨third⟩,
    pipe_collected_iff first (second.pipe third)]
  simp only [pipe_collected_iff first second, pipe_collected_iff second ⟨third⟩]
  constructor
  · rintro ⟨outs', ⟨mids, hfirst, hsecond⟩, hthird⟩
    exact ⟨mids, hfirst, outs', hsecond, hthird⟩
  · rintro ⟨mids, hfirst, outs', hsecond, hthird⟩
    exact ⟨outs', ⟨mids, hfirst, hsecond⟩, hthird⟩

end Dsline
