import Mathlib.Data.Nat.Notation
/-!
# Runs of a deterministic system

A system steps a state by an input; a run is a list of inputs. `Meets`
says that every step of a run meets a condition on the state before it, and
`Meets.invariant` is the one induction every run argument goes through: a
property that holds at the start and survives each step that meets the
condition holds in every state the run reaches.
-/

namespace Run

variable {σ ι : Type} {step : σ → ι → σ} {cond cond' : σ → ι → Prop} {s : σ} {is js : List ι}

/-- The state a run ends in. -/
def exec (step : σ → ι → σ) (s : σ) (is : List ι) : σ := is.foldl step s

@[simp] theorem exec_nil : exec step s [] = s := rfl

@[simp] theorem exec_cons (i : ι) : exec step s (i :: is) = exec step (step s i) is := rfl

@[simp] theorem exec_append : exec step s (is ++ js) = exec step (exec step s is) js :=
  List.foldl_append

/-- Every step of the run meets the condition in the state it is taken in. -/
def Meets (step : σ → ι → σ) (cond : σ → ι → Prop) : σ → List ι → Prop
  | _, [] => True
  | s, i :: is => cond s i ∧ Meets step cond (step s i) is

@[simp] theorem meets_nil : Meets step cond s [] := trivial

@[simp] theorem meets_cons (i : ι) :
    Meets step cond s (i :: is) ↔ cond s i ∧ Meets step cond (step s i) is := Iff.rfl

theorem meets_append :
    Meets step cond s (is ++ js) ↔
      Meets step cond s is ∧ Meets step cond (exec step s is) js := by
  induction is generalizing s with
  | nil => simp
  | cons i is ih => simp [ih, and_assoc]

/-- A weaker condition is met where a stronger one is. -/
theorem Meets.mono (h : ∀ s i, cond s i → cond' s i) (hm : Meets step cond s is) :
    Meets step cond' s is := by
  induction is generalizing s with
  | nil => trivial
  | cons i is ih => exact ⟨h _ _ hm.1, ih hm.2⟩

/-- Two conditions that a run meets are met together. -/
theorem Meets.and (h : Meets step cond s is) (h' : Meets step cond' s is) :
    Meets step (fun s i => cond s i ∧ cond' s i) s is := by
  induction is generalizing s with
  | nil => trivial
  | cons i is ih => exact ⟨⟨h.1, h'.1⟩, ih h.2 h'.2⟩

/-- **The run rule.** What holds at the start and survives every step that
meets the condition holds where the run ends. -/
theorem Meets.invariant (Inv : σ → Prop)
    (hstep : ∀ s i, Inv s → cond s i → Inv (step s i))
    (hm : Meets step cond s is) (h0 : Inv s) : Inv (exec step s is) := by
  induction is generalizing s with
  | nil => exact h0
  | cons i is ih => exact ih hm.2 (hstep _ _ h0 hm.1)

/-- **The run rule without a condition.** -/
theorem invariant_exec (Inv : σ → Prop) (hstep : ∀ s i, Inv s → Inv (step s i)) (is : List ι)
    (h0 : Inv s) : Inv (exec step s is) := by
  induction is generalizing s with
  | nil => exact h0
  | cons i is ih => exact ih (hstep _ _ h0)

/-- **The run rule for steps.** Where an invariant makes every step that
meets the condition meet another, so does every step of the run. -/
theorem Meets.of_invariant (Inv : σ → Prop)
    (hstep : ∀ s i, Inv s → cond s i → Inv (step s i))
    (hmeets : ∀ s i, Inv s → cond s i → cond' s i)
    (hm : Meets step cond s is) (h0 : Inv s) : Meets step cond' s is := by
  induction is generalizing s with
  | nil => trivial
  | cons i is ih => exact ⟨hmeets _ _ h0 hm.1, ih hm.2 (hstep _ _ h0 hm.1)⟩

/-- **The run rule for two systems.** Where an invariant makes each step of
one the other's step on a translated input, so is each run. -/
theorem Meets.exec_eq {κ : Type} {step' : σ → κ → σ} {f : ι → κ} (Inv : σ → Prop)
    (hstep : ∀ s i, Inv s → cond s i → Inv (step s i))
    (hsame : ∀ s i, Inv s → cond s i → step s i = step' s (f i))
    (hm : Meets step cond s is) (h0 : Inv s) : exec step s is = exec step' s (is.map f) := by
  induction is generalizing s with
  | nil => rfl
  | cons i is ih =>
      rw [exec_cons, ih hm.2 (hstep _ _ h0 hm.1), hsame _ _ h0 hm.1]
      rfl

/-- The run rule with a condition on the inputs alone. -/
theorem invariant_of_forall {p : ι → Prop} (Inv : σ → Prop)
    (hstep : ∀ s i, Inv s → p i → Inv (step s i)) (hp : ∀ i ∈ is, p i) (h0 : Inv s) :
    Inv (exec step s is) := by
  induction is generalizing s with
  | nil => exact h0
  | cons i is ih =>
      exact ih (fun j hj => hp j (List.mem_cons_of_mem i hj))
        (hstep _ _ h0 (hp i List.mem_cons_self))

/-- **The rank rule.** A rank that the steps of one kind lower and no step
raises is lowered by as many as the run has of that kind. -/
theorem rank_exec_le (own : ι → Bool) (rank : σ → ℕ) {p : ι → Prop} (Inv : σ → Prop)
    (hstep : ∀ s i, Inv s → p i → Inv (step s i))
    (hrank : ∀ s i, Inv s → p i → rank (step s i) ≤ rank s - if own i then 1 else 0)
    (hp : ∀ i ∈ is, p i) (h0 : Inv s) : rank (exec step s is) ≤ rank s - is.countP own := by
  induction is generalizing s with
  | nil => exact Nat.le_refl _
  | cons i is ih =>
      have hi := hp i List.mem_cons_self
      have hrest := ih (fun j hj => hp j (List.mem_cons_of_mem i hj)) (hstep s i h0 hi)
      have hone := hrank s i h0 hi
      rw [exec_cons, List.countP_cons]
      omega

instance decidableMeets [∀ s i, Decidable (cond s i)] :
    (s : σ) → (is : List ι) → Decidable (Meets step cond s is)
  | _, [] => isTrue trivial
  | s, i :: is =>
      have := decidableMeets (step s i) is
      inferInstanceAs (Decidable (cond s i ∧ Meets step cond (step s i) is))

end Run
