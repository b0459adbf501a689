import Mathlib.Data.Nat.Notation
/-!
# Stateful calls that can fail

A call takes a state and returns a value or an error, with the state it
leaves. These are the rules by which a call is traced through its parts:
once a part's outcome is known, the rest runs on the state that part left.
-/

namespace Effect

variable {ε σ α β : Type} {s s' : σ} {a : α} {e : ε}

/-- **Sequencing after a success.** -/
theorem bind_ok {x : EStateM ε σ α} {f : α → EStateM ε σ β} (h : x s = .ok a s') :
    (x >>= f) s = f a s' := by
  show EStateM.bind x f s = f a s'
  rw [EStateM.bind, h]

/-- **Sequencing after a failure.** -/
theorem bind_error {x : EStateM ε σ α} {f : α → EStateM ε σ β} (h : x s = .error e s') :
    (x >>= f) s = .error e s' := by
  show EStateM.bind x f s = .error e s'
  rw [EStateM.bind, h]

/-- What a mapped call returns. -/
theorem map_ok {x : EStateM ε σ α} {f : α → β} (h : x s = .ok a s') :
    (f <$> x) s = .ok (f a) s' := by
  show EStateM.map f x s = .ok (f a) s'
  rw [EStateM.map, h]

theorem map_error {x : EStateM ε σ α} {f : α → β} (h : x s = .error e s') :
    (f <$> x) s = .error e s' := by
  show EStateM.map f x s = .error e s'
  rw [EStateM.map, h]

@[simp] theorem pure_apply : (pure a : EStateM ε σ α) s = .ok a s := rfl

@[simp] theorem throw_apply : (throw e : EStateM ε σ α) s = .error e s := rfl

@[simp] theorem get_apply : (get : EStateM ε σ σ) s = .ok s s := rfl

@[simp] theorem set_apply : (set s' : EStateM ε σ PUnit) s = .ok ⟨⟩ s' := rfl

@[simp] theorem modify_apply {f : σ → σ} :
    (modify f : EStateM ε σ PUnit) s = .ok ⟨⟩ (f s) := rfl

@[simp] theorem get_bind {f : σ → EStateM ε σ β} : (get >>= f) s = f s s := rfl

@[simp] theorem set_bind {f : PUnit → EStateM ε σ β} : (set s' >>= f) s = f ⟨⟩ s' := rfl

@[simp] theorem modify_bind {g : σ → σ} {f : PUnit → EStateM ε σ β} :
    (modify g >>= f) s = f ⟨⟩ (g s) := rfl

@[simp] theorem pure_bind' {f : α → EStateM ε σ β} : (pure a >>= f) s = f a s := rfl

@[simp] theorem throw_bind {f : α → EStateM ε σ β} :
    ((throw e : EStateM ε σ α) >>= f) s = .error e s := rfl

/-- The value a call returned, or the error it failed with. -/
def outcome : EStateM.Result ε σ α → Except ε α
  | .ok a _ => .ok a
  | .error e _ => .error e

/-- The state a call left, whichever way it ended. -/
def final : EStateM.Result ε σ α → σ
  | .ok _ s => s
  | .error _ s => s

@[simp] theorem outcome_ok : outcome (.ok a s : EStateM.Result ε σ α) = .ok a := rfl
@[simp] theorem outcome_error : outcome (.error e s : EStateM.Result ε σ α) = .error e := rfl
@[simp] theorem final_ok : final (.ok a s : EStateM.Result ε σ α) = s := rfl
@[simp] theorem final_error : final (.error e s : EStateM.Result ε σ α) = s := rfl

/-- A call that returns, by what it returns and what it leaves. -/
theorem eq_ok_of_outcome {r : EStateM.Result ε σ α} (h : outcome r = .ok a) :
    r = .ok a (final r) := by
  cases r with
  | ok b s => rw [Except.ok.inj h, final_ok]
  | error e s => cases h

/-! ## Fields a call keeps -/

section Keeps

variable {γ : Type} {field : σ → γ} {x : EStateM ε σ α} {f : α → EStateM ε σ β}

/-- The call leaves the field as it found it, whichever way it ends. -/
def Keeps (field : σ → γ) (x : EStateM ε σ α) : Prop := ∀ s, field (final (x s)) = field s

theorem keeps_pure (a : α) : Keeps field (pure a : EStateM ε σ α) := fun _ => rfl

theorem keeps_throw (e : ε) : Keeps field (throw e : EStateM ε σ α) := fun _ => rfl

theorem keeps_get : Keeps field (get : EStateM ε σ σ) := fun _ => rfl

theorem keeps_modify {g : σ → σ} (h : ∀ s, field (g s) = field s) :
    Keeps field (modify g : EStateM ε σ PUnit) := h

/-- **Calls that keep a field keep it in sequence.** -/
theorem Keeps.bind (hx : Keeps field x) (hf : ∀ a, Keeps field (f a)) :
    Keeps field (x >>= f) := by
  intro s
  have hfirst := hx s
  cases hr : x s with
  | ok a s' =>
      rw [hr] at hfirst
      rw [bind_ok hr, hf a s']
      exact hfirst
  | error e s' =>
      rw [hr] at hfirst
      rw [bind_error hr]
      exact hfirst

end Keeps

/-! ## Errors a call fails with -/

section FailsOnly

variable {P : ε → Prop} {x : EStateM ε σ α} {f : α → EStateM ε σ β}

/-- The call fails only with errors of this kind. -/
def FailsOnly (P : ε → Prop) (x : EStateM ε σ α) : Prop := ∀ s e s', x s = .error e s' → P e

theorem failsOnly_pure (a : α) : FailsOnly P (pure a : EStateM ε σ α) :=
  fun _ _ _ h => nomatch h

theorem failsOnly_throw (h : P e) : FailsOnly P (throw e : EStateM ε σ α) := by
  intro s e' s' he
  cases he
  exact h

theorem failsOnly_get : FailsOnly P (get : EStateM ε σ σ) := fun _ _ _ h => nomatch h

theorem failsOnly_modify {g : σ → σ} : FailsOnly P (modify g : EStateM ε σ PUnit) :=
  fun _ _ _ h => nomatch h

theorem FailsOnly.bind (hx : FailsOnly P x) (hf : ∀ a, FailsOnly P (f a)) :
    FailsOnly P (x >>= f) := by
  intro s e s' h
  cases hr : x s with
  | ok a t =>
      rw [bind_ok hr] at h
      exact hf a t e s' h
  | error e' t =>
      rw [bind_error hr] at h
      cases h
      exact hx s e s' hr

end FailsOnly

/-! ## Properties that compose -/

/-- **A property of calls that composes**: what returns at once has it, so
does failing with an error of the given kind, and sequencing keeps it. -/
structure Composes (Φ : ∀ {α : Type}, EStateM ε σ α → Prop) (P : ε → Prop) : Prop where
  pure : ∀ {α : Type} (a : α), Φ (pure a : EStateM ε σ α)
  throw : ∀ {α : Type} {e : ε}, P e → Φ (throw e : EStateM ε σ α)
  bind : ∀ {α β : Type} {x : EStateM ε σ α} {f : α → EStateM ε σ β},
    Φ x → (∀ a, Φ (f a)) → Φ (x >>= f)

theorem keeps_composes {γ : Type} (field : σ → γ) :
    Composes (fun {α} (x : EStateM ε σ α) => Keeps field x) (fun _ => True) where
  pure := keeps_pure
  throw _ := keeps_throw _
  bind := Keeps.bind

theorem failsOnly_composes (P : ε → Prop) :
    Composes (fun {α} (x : EStateM ε σ α) => FailsOnly P x) P where
  pure := failsOnly_pure
  throw := failsOnly_throw
  bind := FailsOnly.bind

/-! ## Relations a call stays within -/

section Within

variable {R : σ → σ → Prop} {x : EStateM ε σ α} {f : α → EStateM ε σ β}

/-- The call relates the state it is made in to the one it leaves, whichever
way it ends. -/
def Within (R : σ → σ → Prop) (x : EStateM ε σ α) : Prop := ∀ s, R s (final (x s))

/-- What a sequence leaves is what its last call left. -/
theorem final_bind {P : σ → Prop} (herr : ∀ e s', x s = .error e s' → P s')
    (hok : ∀ a s', x s = .ok a s' → P (final (f a s'))) : P (final ((x >>= f) s)) := by
  cases hr : x s with
  | ok a s' =>
      rw [bind_ok hr]
      exact hok a s' hr
  | error e s' =>
      rw [bind_error hr]
      exact herr e s' hr

/-- A first call in one state, and calls that stay within the relation in
every state. -/
theorem within_bind_at (htrans : ∀ {a b c : σ}, R a b → R b c → R a c)
    (hx : R s (final (x s))) (hf : ∀ a, Within R (f a)) : R s (final ((x >>= f) s)) := by
  refine final_bind (fun e s' hr => ?_) fun a s' hr => ?_
  · rw [hr] at hx
    exact hx
  · rw [hr] at hx
    exact htrans hx (hf a s')

/-- **A preorder composes.** -/
theorem within_composes (hrefl : ∀ s, R s s) (htrans : ∀ {a b c : σ}, R a b → R b c → R a c) :
    Composes (fun {α} (x : EStateM ε σ α) => Within R x) (fun _ => True) where
  pure _ := hrefl
  throw _ := hrefl
  bind hx hf s := within_bind_at htrans (hx s) hf

end Within

end Effect
