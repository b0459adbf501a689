import Dsline.Library.Effect
/-!
# Simulation of stateful calls

A call on an abstract state describes a call on a concrete one across a
relation: from related states, what the abstract call returns or fails with
the concrete one does too, and related states are left. An abstract call
may be stuck, failing with an error that describes nothing; then nothing is
said. Agreement composes along sequencing, so a program written against an
interface agrees at two implementations that agree operation by operation.
-/

namespace Simulation

variable {ε σ τ α β : Type} {R : σ → τ → Prop} {stuck : ε → Prop}

/-- The concrete result is what the abstract one says. -/
def ResultsAgree (R : σ → τ → Prop) (stuck : ε → Prop) (r : EStateM.Result ε σ α) :
    EStateM.Result ε τ α → Prop
  | .ok a t => ∃ s, r = .ok a s ∧ R s t
  | .error e t => stuck e ∨ ∃ s, r = .error e s ∧ R s t

/-- The abstract call `y` describes the concrete call `x`. -/
def Agree (R : σ → τ → Prop) (stuck : ε → Prop) (x : EStateM ε σ α) (y : EStateM ε τ α) : Prop :=
  ∀ s t, R s t → ResultsAgree R stuck (x s) (y t)

theorem agree_pure (a : α) :
    Agree R stuck (pure a : EStateM ε σ α) (pure a : EStateM ε τ α) :=
  fun s _ h => ⟨s, rfl, h⟩

theorem agree_throw (e : ε) :
    Agree R stuck (throw e : EStateM ε σ α) (throw e : EStateM ε τ α) :=
  fun s _ h => .inr ⟨s, rfl, h⟩

/-- **Agreement composes**, where the second calls agree on what the first
can return. -/
theorem agree_bind_of {x : EStateM ε σ α} {y : EStateM ε τ α}
    {f : α → EStateM ε σ β} {g : α → EStateM ε τ β} {P : α → Prop} (hxy : Agree R stuck x y)
    (hP : ∀ s t a t', R s t → y t = .ok a t' → P a)
    (hfg : ∀ a, P a → Agree R stuck (f a) (g a)) : Agree R stuck (x >>= f) (y >>= g) := by
  intro s t hst
  have hres := hxy s t hst
  cases hy : y t with
  | ok a t' =>
      rw [hy] at hres
      obtain ⟨s', hx, hR⟩ := hres
      rw [Effect.bind_ok hx, Effect.bind_ok hy]
      exact hfg a (hP s t a t' hst hy) s' t' hR
  | error e t' =>
      rw [hy] at hres
      rw [Effect.bind_error hy]
      rcases hres with hstuck | ⟨s', hx, hR⟩
      · exact .inl hstuck
      · rw [Effect.bind_error hx]
        exact .inr ⟨s', rfl, hR⟩

/-- **Agreement composes.** -/
theorem agree_bind {x : EStateM ε σ α} {y : EStateM ε τ α}
    {f : α → EStateM ε σ β} {g : α → EStateM ε τ β} (hxy : Agree R stuck x y)
    (hfg : ∀ a, Agree R stuck (f a) (g a)) : Agree R stuck (x >>= f) (y >>= g) :=
  agree_bind_of hxy (fun _ _ _ _ _ _ => trivial) fun a _ => hfg a

/-- A call may be described by another one that does the same in every
related state. -/
theorem Agree.congr {x : EStateM ε σ α} {y y' : EStateM ε τ α} (h : Agree R stuck x y')
    (heq : ∀ s t, R s t → y t = y' t) : Agree R stuck x y := by
  intro s t hst
  rw [heq s t hst]
  exact h s t hst

/-- Calls that decide alike agree where their branches do. -/
theorem agree_ite {c : Prop} [Decidable c] {x x' : EStateM ε σ α} {y y' : EStateM ε τ α}
    (hthen : c → Agree R stuck x y) (helse : ¬ c → Agree R stuck x' y') :
    Agree R stuck (if c then x else x') (if c then y else y') := by
  split
  · exact hthen ‹_›
  · exact helse ‹_›

/-- A call made for its outcome: a failure is returned as a value. -/
def attempt (x : EStateM ε σ α) : EStateM ε σ (Except ε α) := fun s =>
  match x s with
  | .ok a s => .ok (.ok a) s
  | .error e s => .ok (.error e) s

/-- Where the abstract call is never stuck, the outcomes agree. -/
theorem Agree.attempt {x : EStateM ε σ α} {y : EStateM ε τ α} (h : Agree R stuck x y)
    (hfree : ∀ e, ¬ stuck e) : Agree R stuck (attempt x) (attempt y) := by
  intro s t hst
  have hres := h s t hst
  unfold Simulation.attempt
  cases hy : y t with
  | ok a t' =>
      rw [hy] at hres
      obtain ⟨s', hx, hR⟩ := hres
      rw [hx]
      exact ⟨s', rfl, hR⟩
  | error e t' =>
      rw [hy] at hres
      obtain ⟨s', hx, hR⟩ := hres.resolve_left (hfree e)
      rw [hx]
      exact ⟨s', rfl, hR⟩

/-- **The run rule for agreement.** Calls that agree one by one agree in
every sequence of them. -/
theorem agree_mapM {ι : Type} {x : ι → EStateM ε σ α} {y : ι → EStateM ε τ α} {is : List ι}
    (h : ∀ i ∈ is, Agree R stuck (x i) (y i)) : Agree R stuck (is.mapM x) (is.mapM y) := by
  induction is with
  | nil => exact agree_pure []
  | cons i is ih =>
      rw [List.mapM_cons, List.mapM_cons]
      refine agree_bind (h i List.mem_cons_self) fun a => ?_
      refine agree_bind (ih fun j hj => h j (List.mem_cons_of_mem i hj)) fun as => ?_
      exact agree_pure (a :: as)

/-- What a call described by one that returns does. -/
theorem Agree.ok {x : EStateM ε σ α} {y : EStateM ε τ α} (h : Agree R stuck x y) {s : σ}
    {t t' : τ} {a : α} (hst : R s t) (hy : y t = .ok a t') :
    ∃ s', x s = .ok a s' ∧ R s' t' := by
  have hres := h s t hst
  rwa [hy] at hres

/-- What a call described by one that fails, and is not stuck, does. -/
theorem Agree.error {x : EStateM ε σ α} {y : EStateM ε τ α} (h : Agree R stuck x y) {s : σ}
    {t t' : τ} {e : ε} (hst : R s t) (hy : y t = .error e t') (he : ¬ stuck e) :
    ∃ s', x s = .error e s' ∧ R s' t' := by
  have hres := h s t hst
  rw [hy] at hres
  exact hres.resolve_left he

end Simulation
