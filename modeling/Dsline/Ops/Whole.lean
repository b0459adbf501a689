import Dsline.Ops.Float
import Dsline.Ops.Spelling
import Mathlib.Tactic.Positivity
/-!
# Whole doubles

The doubles that are whole numbers, the infinities, and NaN: where every
value and every result is a whole number of at most 53 bits they behave as
`f64` does. Runs on fixed inputs use them.
-/

namespace Dsline

inductive WholeF64 where
  | finite (n : ℤ)
  | infinite (negative : Bool)
  | nan
  deriving DecidableEq, Repr

namespace WholeF64

/-- Two whole numbers, or NaN. -/
def lift (f : ℤ → ℤ → ℤ) : WholeF64 → WholeF64 → WholeF64
  | .finite m, .finite n => .finite (f m n)
  | _, _ => .nan

/-- A comparison of two whole numbers. -/
def compare (r : ℤ → ℤ → Bool) : WholeF64 → WholeF64 → Bool
  | .finite m, .finite n => r m n
  | _, _ => false

def negate : WholeF64 → WholeF64
  | .finite n => .finite (-n)
  | .infinite negative => .infinite (! negative)
  | .nan => .nan

def absolute : WholeF64 → WholeF64
  | .finite n => .finite n.natAbs
  | .infinite _ => .infinite false
  | .nan => .nan

def signNegative : WholeF64 → Bool
  | .finite n => n < 0
  | .infinite negative => negative
  | .nan => false

def print : WholeF64 → Text
  | .finite (.ofNat n) => Nat.toDigits 10 n
  | .finite (.negSucc n) => '-' :: Nat.toDigits 10 (n + 1)
  | .infinite false => infText
  | .infinite true => '-' :: infText
  | .nan => ['N', 'a', 'N']

end WholeF64

instance : F64 WholeF64 where
  zero := .finite 0
  one := .finite 1
  epsilon := .finite 1
  infinity := .infinite false
  nan := .nan
  add := WholeF64.lift (· + ·)
  sub := WholeF64.lift (· - ·)
  mul := WholeF64.lift (· * ·)
  div := WholeF64.lift (· / ·)
  neg := WholeF64.negate
  abs := WholeF64.absolute
  trunc v := v
  eq v w := v = w && v ≠ .nan
  lt := WholeF64.compare (· < ·)
  le := WholeF64.compare (· ≤ ·)
  isNaN v := v = .nan
  isFinite
    | .finite _ => true
    | _ => false
  isSignNegative := WholeF64.signNegative
  ofDecimal
    | digits, .ofNat power => .finite (digits * 10 ^ power)
    | digits, .negSucc power => .finite (digits / 10 ^ (power + 1))
  display := WholeF64.print
  displayWhole := WholeF64.print

theorem isDigits_toDigits (n : ℕ) : IsDigits (Nat.toDigits 10 n) :=
  ⟨Nat.toDigits_ne_nil, List.all_eq_true.2 fun _ hc =>
    Nat.isDigit_of_mem_toDigits (by decide) (by decide) hc⟩

theorem digitsValue_toDigits (n : ℕ) : digitsValue (Nat.toDigits 10 n) = n :=
  Nat.ofDigitChars_ten_toDigits

/-- Digits parse as the decimal they spell. -/
theorem parseF64_digits {F : Type} [F64 F] {text : Text} (h : IsDigits text) :
    parseF64 text = some (F64.ofDecimal (digitsValue text) 0 : F) := by
  have hdigit : ∀ c ∈ text, c.isDigit = true := List.all_eq_true.1 h.2
  have hnot : ∀ c : Char, c.isDigit = false → c ∉ text := by
    intro c hc hmem
    have := hdigit c hmem
    rw [hc] at this
    cases this
  have hmark : text.dropWhile (! isExponentMark ·) = [] := by
    refine List.dropWhile_eq_nil_iff.2 fun c hc => ?_
    have he : c ≠ 'e' := fun heq => hnot 'e' (by decide) (heq ▸ hc)
    have hE : c ≠ 'E' := fun heq => hnot 'E' (by decide) (heq ▸ hc)
    simp [isExponentMark, he, hE]
  have hmantissa : parseMantissa text = some (digitsValue text, 0) := by
    rw [parseMantissa, Split.splitOnce_single_none.2 (hnot '.' (by decide))]
    exact if_pos h
  have hlower : text.map Char.toLower = text :=
    lower_number fun c hc => by simp [isNumberChar, hdigit c hc]
  have hname : ∀ name ∈ [infText, infinityText, nanText], text ≠ name := by
    have hnames : ∀ name ∈ [infText, infinityText, nanText], ¬ IsDigits name := by decide
    exact fun name hname heq => hnames name hname (heq ▸ h)
  have hunsigned : parseUnsigned text = some (F64.ofDecimal (digitsValue text) 0 : F) := by
    have hinf : ¬ (text = infText ∨ text = infinityText) :=
      not_or.2 ⟨hname _ (by simp), hname _ (by simp)⟩
    unfold parseUnsigned
    dsimp only
    rw [hlower, if_neg hinf, if_neg (hname _ (by simp)), parseDecimal, hmark, hmantissa]
    rfl
  unfold parseF64
  split
  · exact absurd List.mem_cons_self (hnot '-' (by decide))
  · exact absurd List.mem_cons_self (hnot '+' (by decide))
  · exact hunsigned

theorem parse_print {v : WholeF64} (hnan : F64.isNaN v = false)
    (hneg : F64.isSignNegative v = false) : parseF64 v.print = some v := by
  cases v with
  | finite n =>
      cases n with
      | ofNat n =>
          refine (parseF64_digits (isDigits_toDigits n)).trans ?_
          rw [digitsValue_toDigits]
          exact congrArg (some ∘ WholeF64.finite) (by simp)
      | negSucc n => exact absurd hneg (by simp [F64.isSignNegative, WholeF64.signNegative])
  | infinite negative =>
      cases negative with
      | false => rfl
      | true => cases hneg
  | nan => cases hnan

theorem print_digits {v : WholeF64} (hfinite : F64.isFinite v = true)
    (hneg : F64.isSignNegative v = false) : v.print ≠ [] ∧ ∀ c ∈ v.print, c.isDigit := by
  cases v with
  | finite n =>
      cases n with
      | ofNat n =>
          obtain ⟨hne, hall⟩ := isDigits_toDigits n
          exact ⟨hne, fun c hc => List.all_eq_true.1 hall c hc⟩
      | negSucc n => exact absurd hneg (by simp [F64.isSignNegative, WholeF64.signNegative])
  | infinite negative => cases hfinite
  | nan => cases hfinite

instance : LawfulF64 WholeF64 where
  isNaN_ofDecimal digits power := by
    cases power <;> rfl
  isSignNegative_ofDecimal digits power := by
    cases power with
    | ofNat power =>
        have hpos : (0 : ℤ) ≤ digits * 10 ^ power := by positivity
        exact decide_eq_false (not_lt.2 hpos)
    | negSucc power =>
        have hpos : (0 : ℤ) ≤ digits / 10 ^ (power + 1) := by positivity
        exact decide_eq_false (not_lt.2 hpos)
  isNaN_nan := rfl
  isNaN_infinity := rfl
  isSignNegative_infinity := rfl
  parse_display _ hnan hneg := parse_print hnan hneg
  display_finite _ hfinite hneg := by
    obtain ⟨hne, hdigits⟩ := print_digits hfinite hneg
    exact ⟨hne, fun c hc => .inl (hdigits c hc)⟩
  display_infinite v hfinite hnan hneg := by
    cases v with
    | finite n => cases hfinite
    | infinite negative =>
        cases negative with
        | false => rfl
        | true => cases hneg
    | nan => cases hnan
  parse_displayWhole v hfinite _ hneg := by
    refine parse_print ?_ hneg
    cases v with
    | finite n => rfl
    | infinite negative => rfl
    | nan => cases hfinite
  displayWhole_digits _ hfinite hneg := print_digits hfinite hneg

end Dsline
