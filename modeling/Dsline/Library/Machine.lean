import Mathlib.Data.Nat.Notation
/-!
# Machines with outputs

A machine answers every input and moves on. Two machines that answer alike
from related states, and stay related, answer every sequence of inputs
alike (`outputs_eq`); so a concrete machine is described by an abstract one
as soon as one relation between their states is kept by every step.
-/

namespace Machine

variable {σ τ ι ο : Type} {f : σ → ι → ο × σ} {g : τ → ι → ο × τ} {s : σ} {t : τ} {is js : List ι}

/-- The answers to a sequence of inputs. -/
def outputs (f : σ → ι → ο × σ) : σ → List ι → List ο
  | _, [] => []
  | s, i :: is => (f s i).1 :: outputs f (f s i).2 is

/-- The state a sequence of inputs ends in. -/
def after (f : σ → ι → ο × σ) (s : σ) (is : List ι) : σ := is.foldl (fun s i => (f s i).2) s

@[simp] theorem after_nil : after f s [] = s := rfl

@[simp] theorem after_cons (i : ι) : after f s (i :: is) = after f (f s i).2 is := rfl

/-- A relation that related steps answer alike across, and keep. -/
def Bisimilar (cond : σ → ι → Prop) (R : σ → τ → Prop) (f : σ → ι → ο × σ)
    (g : τ → ι → ο × τ) : Prop :=
  ∀ s t i, R s t → cond s i → (f s i).1 = (g t i).1 ∧ R (f s i).2 (g t i).2

/-- Every input meets the condition in the state it is taken in. -/
def Meets (cond : σ → ι → Prop) (f : σ → ι → ο × σ) : σ → List ι → Prop
  | _, [] => True
  | s, i :: is => cond s i ∧ Meets cond f (f s i).2 is

variable {cond : σ → ι → Prop} {R : σ → τ → Prop}

instance decidableMeets [∀ s i, Decidable (cond s i)] :
    (s : σ) → (is : List ι) → Decidable (Meets cond f s is)
  | _, [] => isTrue trivial
  | s, i :: is =>
      have := decidableMeets (f s i).2 is
      inferInstanceAs (Decidable (cond s i ∧ Meets cond f (f s i).2 is))

/-- A condition on the inputs alone is met where each of them meets it. -/
theorem meets_of_forall {p : ι → Prop} (h : ∀ i ∈ is, p i) : Meets (fun _ => p) f s is := by
  induction is generalizing s with
  | nil => trivial
  | cons i is ih =>
      exact ⟨h i List.mem_cons_self, ih fun j hj => h j (List.mem_cons_of_mem i hj)⟩

/-- Where the inputs meet the condition, so do the first of them. -/
theorem meets_append :
    Meets cond f s (is ++ js) ↔ Meets cond f s is ∧ Meets cond f (after f s is) js := by
  induction is generalizing s with
  | nil => simp [Meets]
  | cons i is ih => simp only [List.cons_append, Meets, ih, after_cons, and_assoc]

/-- **Related machines stay related.** -/
theorem Bisimilar.after (h : Bisimilar cond R f g) (hm : Meets cond f s is) (h0 : R s t) :
    R (after f s is) (after g t is) := by
  induction is generalizing s t with
  | nil => exact h0
  | cons i is ih => exact ih hm.2 (h s t i h0 hm.1).2

/-- **Related machines answer alike.** -/
theorem Bisimilar.outputs_eq (h : Bisimilar cond R f g) (hm : Meets cond f s is) (h0 : R s t) :
    outputs f s is = outputs g t is := by
  induction is generalizing s t with
  | nil => rfl
  | cons i is ih =>
      obtain ⟨hout, hR⟩ := h s t i h0 hm.1
      simp only [outputs, hout, ih hm.2 hR]

end Machine
