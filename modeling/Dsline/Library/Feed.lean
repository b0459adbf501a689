import Dsline.Library.Effect
/-!
# Feeding stateful calls

A stateful call makes a list of outputs of an input, or fails. Fed a list of
inputs it emits what it makes of each until one fails, the source or the call.
A loop that hands the outputs of each input on before it takes the next input
leaves the receiver as one that hands all of them on at the end
(`handOn_eq`), and two calls in a row make of a list of inputs what the second
makes of what the first makes (`feed_compose`).
-/

namespace Feed

variable {ε σ τ ι μ ο α : Type}

/-! ## Calls on one half of a state -/

def onFst (x : EStateM ε σ α) : EStateM ε (σ × τ) α := fun s =>
  match x s.1 with
  | .ok a s' => .ok a (s', s.2)
  | .error e s' => .error e (s', s.2)

def onSnd (x : EStateM ε τ α) : EStateM ε (σ × τ) α := fun s =>
  match x s.2 with
  | .ok a s' => .ok a (s.1, s')
  | .error e s' => .error e (s.1, s')

theorem onFst_ok {x : EStateM ε σ α} {s s' : σ} {t : τ} {a : α} (h : x s = .ok a s') :
    onFst x (s, t) = .ok a (s', t) := by
  rw [onFst, h]

theorem onFst_error {x : EStateM ε σ α} {s s' : σ} {t : τ} {e : ε} (h : x s = .error e s') :
    onFst x (s, t) = .error e (s', t) := by
  rw [onFst, h]

theorem onSnd_ok {x : EStateM ε τ α} {s : σ} {t t' : τ} {a : α} (h : x t = .ok a t') :
    onSnd x (s, t) = .ok a (s, t') := by
  rw [onSnd, h]

theorem onSnd_error {x : EStateM ε τ α} {s : σ} {t t' : τ} {e : ε} (h : x t = .error e t') :
    onSnd x (s, t) = .error e (s, t') := by
  rw [onSnd, h]

/-! ## Feeding a call -/

/-- What was emitted, and the failure that ended it, if one did. -/
structure Fed (ε ο σ : Type) where
  outputs : List ο
  failure : Option ε
  state : σ

/-- All the outputs, or the failure. -/
def Fed.toExcept (fed : Fed ε ο σ) : Except ε (List ο) :=
  match fed.failure with
  | some e => .error e
  | none => .ok fed.outputs

theorem Fed.toExcept_eq_ok {fed : Fed ε ο σ} {outputs : List ο} :
    fed.toExcept = .ok outputs ↔ fed.failure = none ∧ fed.outputs = outputs := by
  rw [Fed.toExcept]
  cases fed.failure with
  | some e => exact iff_of_false (fun h => by cases h) fun h => by cases h.1
  | none => exact ⟨fun h => ⟨rfl, Except.ok.inj h⟩, fun h => congrArg Except.ok h.2⟩

/-- Feed a call the items of a source, failed ones among them. -/
def feed (call : ι → EStateM ε σ (List ο)) : List (Except ε ι) → σ → Fed ε ο σ
  | [], s => ⟨[], none, s⟩
  | .error e :: _, s => ⟨[], some e, s⟩
  | .ok item :: items, s =>
      match call item s with
      | .error e s' => ⟨[], some e, s'⟩
      | .ok made s' =>
          let rest := feed call items s'
          { rest with outputs := made ++ rest.outputs }

/-- Hand outputs to a receiver one by one. -/
def drain (send : ο → EStateM ε τ Unit) : List ο → EStateM ε τ Unit
  | [] => pure ()
  | output :: outputs => do
      send output
      drain send outputs

/-- The loop: the outputs of each item are handed on before the next item. -/
def handOn (call : ι → EStateM ε σ (List ο)) (send : ο → EStateM ε τ Unit) :
    List (Except ε ι) → EStateM ε (σ × τ) Unit
  | [] => pure ()
  | .error e :: _ => throw e
  | .ok item :: items => do
      let made ← onFst (call item)
      onSnd (drain send made)
      handOn call send items

/-- What a receiver sees of a call: its outcome, and the receiver's own
state. -/
def seen (r : EStateM.Result ε (σ × τ) α) : EStateM.Result ε τ α :=
  match r with
  | .ok a s => .ok a s.2
  | .error e s => .error e s.2

/-- All outputs at the end, then the failure. -/
def settle (send : ο → EStateM ε τ Unit) (fed : Fed ε ο σ) : EStateM ε τ Unit := do
  drain send fed.outputs
  match fed.failure with
  | some e => throw e
  | none => pure ()

variable {call : ι → EStateM ε σ (List ο)} {send : ο → EStateM ε τ Unit}

theorem feed_ok {item : ι} {items : List (Except ε ι)} {s s' : σ} {made : List ο}
    (h : call item s = .ok made s') :
    feed call (.ok item :: items) s
      = { feed call items s' with outputs := made ++ (feed call items s').outputs } := by
  rw [feed, h]

theorem feed_error {item : ι} {items : List (Except ε ι)} {s s' : σ} {e : ε}
    (h : call item s = .error e s') : feed call (.ok item :: items) s = ⟨[], some e, s'⟩ := by
  rw [feed, h]

theorem drain_append (send : ο → EStateM ε τ Unit) (xs ys : List ο) (t : τ) :
    drain send (xs ++ ys) t = (drain send xs >>= fun _ => drain send ys) t := by
  induction xs generalizing t with
  | nil => rfl
  | cons x xs ih =>
      rw [List.cons_append, drain, drain]
      cases hsend : send x t with
      | error e t' => rw [Effect.bind_error hsend, Effect.bind_error (Effect.bind_error hsend)]
      | ok u t' =>
          rw [Effect.bind_ok hsend, ih]
          cases hrest : drain send xs t' with
          | error e t'' =>
              rw [Effect.bind_error hrest,
                Effect.bind_error ((Effect.bind_ok hsend).trans hrest)]
          | ok u t'' =>
              rw [Effect.bind_ok hrest, Effect.bind_ok ((Effect.bind_ok hsend).trans hrest)]

/-- **Handing on as one goes is handing on at the end**, to the receiver. -/
theorem handOn_eq (call : ι → EStateM ε σ (List ο)) (send : ο → EStateM ε τ Unit)
    (items : List (Except ε ι)) (s : σ) (t : τ) :
    seen (handOn call send items (s, t)) = settle send (feed call items s) t := by
  induction items generalizing s t with
  | nil => rfl
  | cons item items ih =>
      cases item with
      | error e => rfl
      | ok item =>
          rw [handOn, settle]
          cases hcall : call item s with
          | error e s' =>
              rw [feed_error hcall, Effect.bind_error (onFst_error hcall)]
              rfl
          | ok made s' =>
              rw [feed_ok hcall, Effect.bind_ok (onFst_ok hcall)]
              cases hdrain : drain send made t with
              | error e t' =>
                  have hall :
                      drain send (made ++ (feed call items s').outputs) t = .error e t' := by
                    rw [drain_append, Effect.bind_error hdrain]
                  rw [Effect.bind_error (onSnd_error hdrain), Effect.bind_error hall]
                  rfl
              | ok u t' =>
                  rw [Effect.bind_ok (onSnd_ok hdrain), ih, settle]
                  have hall : drain send (made ++ (feed call items s').outputs) t
                      = drain send (feed call items s').outputs t' := by
                    rw [drain_append, Effect.bind_ok hdrain]
                  cases hrest : drain send (feed call items s').outputs t' with
                  | error e t'' =>
                      rw [Effect.bind_error hrest, Effect.bind_error (hall.trans hrest)]
                  | ok u t'' => rw [Effect.bind_ok hrest, Effect.bind_ok (hall.trans hrest)]

/-! ## Calls in a row -/

/-- What a call makes of each input, one list behind the other. -/
def extend (second : μ → EStateM ε τ (List ο)) : List μ → List ο → EStateM ε τ (List ο)
  | [], result => pure result
  | mid :: mids, result => do
      let made ← second mid
      extend second mids (result ++ made)

/-- Two calls in a row. -/
def chain (first : ι → EStateM ε σ (List μ)) (second : μ → EStateM ε τ (List ο)) (input : ι) :
    EStateM ε (σ × τ) (List ο) := do
  let mids ← onFst (first input)
  onSnd (extend second mids [])

/-- What feeding a call came to, as a call. -/
def Fed.result (result : List ο) (fed : Fed ε ο τ) : EStateM.Result ε τ (List ο) :=
  match fed.failure with
  | some e => .error e fed.state
  | none => .ok (result ++ fed.outputs) fed.state

theorem extend_eq (second : μ → EStateM ε τ (List ο)) (mids : List μ) (result : List ο) (t : τ) :
    extend second mids result t = (feed second (mids.map .ok) t).result result := by
  induction mids generalizing result t with
  | nil =>
      rw [extend, List.map_nil, feed, Fed.result, List.append_nil]
      rfl
  | cons mid mids ih =>
      rw [extend, List.map_cons]
      cases hcall : second mid t with
      | error e t' => rw [Effect.bind_error hcall, feed_error hcall, Fed.result]
      | ok made t' =>
          rw [Effect.bind_ok hcall, ih, feed_ok hcall, Fed.result, Fed.result]
          cases (feed second (mids.map .ok) t').failure with
          | some e => rfl
          | none => simp

/-- A source in two parts, the first of which does not fail. -/
theorem feed_append {xs : List (Except ε ι)} {s : σ} (ys : List (Except ε ι))
    (h : (feed call xs s).failure = none) :
    feed call (xs ++ ys) s
      = { feed call ys (feed call xs s).state with
          outputs :=
            (feed call xs s).outputs ++ (feed call ys (feed call xs s).state).outputs } := by
  induction xs generalizing s with
  | nil => rfl
  | cons x xs ih =>
      cases x with
      | error e => cases h
      | ok x =>
          cases hcall : call x s with
          | error e s' =>
              rw [feed_error hcall] at h
              cases h
          | ok made s' =>
              rw [feed_ok hcall] at h
              rw [List.cons_append, feed_ok hcall, feed_ok hcall, ih h]
              simp

/-- Where the first part fails, the second is not looked at. -/
theorem feed_append_failure {xs : List (Except ε ι)} {s : σ} (ys : List (Except ε ι)) {e : ε}
    (h : (feed call xs s).failure = some e) : feed call (xs ++ ys) s = feed call xs s := by
  induction xs generalizing s with
  | nil => cases h
  | cons x xs ih =>
      cases x with
      | error e => rfl
      | ok x =>
          cases hcall : call x s with
          | error e s' => rw [List.cons_append, feed_error hcall, feed_error hcall]
          | ok made s' =>
              rw [feed_ok hcall] at h
              rw [List.cons_append, feed_ok hcall, feed_ok hcall, ih h]

variable {first : ι → EStateM ε σ (List μ)} {second : μ → EStateM ε τ (List ο)}

theorem chain_error {input : ι} {s s' : σ} {e : ε} (h : first input s = .error e s') (t : τ) :
    chain first second input (s, t) = .error e (s', t) := by
  rw [chain, Effect.bind_error (onFst_error h)]

theorem chain_ok {input : ι} {s s' : σ} {mids : List μ} {t : τ} (h : first input s = .ok mids s')
    (hsecond : (feed second (mids.map .ok) t).failure = none) :
    chain first second input (s, t)
      = .ok (feed second (mids.map .ok) t).outputs (s', (feed second (mids.map .ok) t).state) := by
  rw [chain, Effect.bind_ok (onFst_ok h)]
  refine onSnd_ok ?_
  rw [extend_eq, Fed.result, hsecond]
  rfl

theorem chain_ok_error {input : ι} {s s' : σ} {mids : List μ} {t : τ} {e : ε}
    (h : first input s = .ok mids s') (hsecond : (feed second (mids.map .ok) t).failure = some e) :
    chain first second input (s, t) = .error e (s', (feed second (mids.map .ok) t).state) := by
  rw [chain, Effect.bind_ok (onFst_ok h)]
  refine onSnd_error ?_
  rw [extend_eq, Fed.result, hsecond]

/-- **One source through two calls**: together they fail unless neither does;
if neither does, they make what the second makes of what the first makes; and
what came out before a failure is a beginning of that. -/
structure Chained (firstFed : Fed ε μ σ) (secondFed : Fed ε ο τ) (both : Fed ε ο (σ × τ)) :
    Prop where
  failure : both.failure = none ↔ firstFed.failure = none ∧ secondFed.failure = none
  outputs : both.failure = none → both.outputs = secondFed.outputs
  state : both.failure = none → both.state = (firstFed.state, secondFed.state)
  isPrefix : both.outputs <+: secondFed.outputs

/-- A failure that leaves nothing behind. -/
theorem Chained.of_failure {firstFed : Fed ε μ σ} {secondFed : Fed ε ο τ} {e : ε} {st : σ × τ}
    (h : ¬ (firstFed.failure = none ∧ secondFed.failure = none)) :
    Chained firstFed secondFed ⟨[], some e, st⟩ where
  failure := iff_of_false (fun h => by cases h) h
  outputs h := by cases h
  state h := by cases h
  isPrefix := List.nil_prefix

theorem feed_chain (first : ι → EStateM ε σ (List μ)) (second : μ → EStateM ε τ (List ο))
    (items : List (Except ε ι)) (s : σ) (t : τ) :
    Chained (feed first items s) (feed second ((feed first items s).outputs.map .ok) t)
      (feed (chain first second) items (s, t)) := by
  induction items generalizing s t with
  | nil => exact ⟨⟨fun _ => ⟨rfl, rfl⟩, fun _ => rfl⟩, fun _ => rfl, fun _ => rfl, List.prefix_rfl⟩
  | cons item items ih =>
      cases item with
      | error e => exact .of_failure fun h => by cases h.1
      | ok item =>
          cases hfirst : first item s with
          | error e s' =>
              rw [feed_error hfirst, feed_error (chain_error hfirst t)]
              exact .of_failure fun h => by cases h.1
          | ok mids s' =>
              rw [feed_ok hfirst]
              dsimp only
              rw [List.map_append]
              cases hsecond : (feed second (mids.map .ok) t).failure with
              | some e =>
                  rw [feed_error (chain_ok_error hfirst hsecond), feed_append_failure _ hsecond]
                  refine .of_failure fun h => ?_
                  rw [hsecond] at h
                  cases h.2
              | none =>
                  have hrest := ih s' (feed second (mids.map .ok) t).state
                  rw [feed_ok (chain_ok hfirst hsecond), feed_append _ hsecond]
                  exact ⟨hrest.failure, fun h => congrArg (_ ++ ·) (hrest.outputs h), hrest.state,
                    List.prefix_append_right_inj _ |>.2 hrest.isPrefix⟩

end Feed
