import Mathlib.Data.Option.Basic
/-!
# Outcomes in sequence

A computation that may fail, followed by one that takes its value: it
returns what the second returns, where the first one returned.
-/

namespace Outcome

universe u v

variable {ε : Type u} {α β : Type v}

@[simp] theorem ok_bind (a : α) (f : α → Except ε β) : (Except.ok a >>= f) = f a := rfl

@[simp] theorem error_bind (err : ε) (f : α → Except ε β) :
    (Except.error err >>= f) = .error err := rfl

theorem bind_eq_ok {x : Except ε α} {f : α → Except ε β} {b : β} :
    (x >>= f) = .ok b ↔ ∃ a, x = .ok a ∧ f a = .ok b := by
  cases x with
  | error err => simp
  | ok a => simp

/-- What a sequence returns, whatever the errors. -/
theorem toOption_bind (x : Except ε α) (f : α → Except ε β) :
    (x >>= f).toOption = x.toOption.bind fun a => (f a).toOption := by
  cases x <;> rfl

end Outcome
