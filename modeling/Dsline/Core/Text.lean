import Mathlib.Algebra.Group.Nat.Defs
import Mathlib.Tactic.SplitIfs
/-!
# Text

Strings are lists of characters. The decimal digits, the number they denote,
and the parser of a `u16`.
-/

namespace Dsline

/-- A string, by its characters. -/
abbrev Text := List Char

/-- The number a string of decimal digits denotes. -/
def digitsValue (digits : Text) : ℕ :=
  digits.foldl (fun value digit => 10 * value + (digit.toNat - '0'.toNat)) 0

/-- A non-empty string of decimal digits. -/
def IsDigits (text : Text) : Prop := text ≠ [] ∧ text.all Char.isDigit

instance (text : Text) : Decidable (IsDigits text) :=
  inferInstanceAs (Decidable (text ≠ [] ∧ text.all Char.isDigit))

/-- A number without its optional plus sign. -/
def withoutPlus : Text → Text
  | '+' :: digits => digits
  | digits => digits

/-- `u16::from_str`: an optional plus sign followed by digits only. -/
def parseU16 (text : Text) : Option UInt16 :=
  if IsDigits (withoutPlus text) ∧ digitsValue (withoutPlus text) < 2 ^ 16 then
    some (.ofNat (digitsValue (withoutPlus text)))
  else none

theorem not_isDigits_plus (text : Text) : ¬ IsDigits ('+' :: text) := by
  intro h
  have hall := h.2
  simp only [List.all_cons, Bool.and_eq_true] at hall
  exact absurd hall.1 (by decide)

@[simp] theorem withoutPlus_plus (text : Text) : withoutPlus ('+' :: text) = text := rfl

theorem withoutPlus_of_ne {text : Text} (h : text.head? ≠ some '+') : withoutPlus text = text := by
  unfold withoutPlus
  split
  · simp at h
  · rfl

theorem parseU16_isSome {text : Text} :
    (parseU16 text).isSome ↔
      IsDigits (withoutPlus text) ∧ digitsValue (withoutPlus text) < 2 ^ 16 := by
  unfold parseU16
  split_ifs with hd
  · exact iff_of_true rfl hd
  · exact iff_of_false (by decide) hd

end Dsline
