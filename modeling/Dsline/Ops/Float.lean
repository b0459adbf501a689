import Dsline.Core.Text
import Dsline.Library.Split
/-!
# Doubles

What the expression engine uses of `f64`. The arithmetic, the rounding of a
decimal to the nearest double and the digits a double prints as belong to the
language; which strings `f64::from_str` accepts is spelled out here.
-/

namespace Dsline

open Split

/-- The operations of `f64`, over any carrier. -/
class F64 (F : Type) where
  zero : F
  one : F
  epsilon : F
  infinity : F
  nan : F
  add : F → F → F
  sub : F → F → F
  mul : F → F → F
  div : F → F → F
  neg : F → F
  abs : F → F
  trunc : F → F
  /-- `==`. -/
  eq : F → F → Bool
  /-- `<`. -/
  lt : F → F → Bool
  /-- `<=`. -/
  le : F → F → Bool
  isNaN : F → Bool
  isFinite : F → Bool
  isSignNegative : F → Bool
  /-- The double nearest to a decimal: its digits, and a power of ten. -/
  ofDecimal : ℕ → ℤ → F
  /-- `{v}`. -/
  display : F → Text
  /-- `{v:.0}`. -/
  displayWhole : F → Text

variable {F : Type} [F64 F]

/-- The digits of a decimal and how many of them follow the dot. -/
def parseMantissa (text : Text) : Option (ℕ × ℕ) :=
  match splitOnce ['.'] text with
  | none => if IsDigits text then some (digitsValue text, 0) else none
  | some (whole, fraction) =>
      -- digits on one side of the dot are enough
      if IsDigits (whole ++ fraction) then some (digitsValue (whole ++ fraction), fraction.length)
      else none

/-- An exponent: an optional sign and digits. -/
def parseExponent : Text → Option ℤ
  | '-' :: digits => if IsDigits digits then some (-digitsValue digits) else none
  | digits =>
      if IsDigits (withoutPlus digits) then some (digitsValue (withoutPlus digits)) else none

/-- Whether a character starts an exponent. -/
def isExponentMark (c : Char) : Bool := c = 'e' ∨ c = 'E'

/-- A decimal with an optional exponent. -/
def parseDecimal (text : Text) : Option F :=
  match text.dropWhile (! isExponentMark ·) with
  | [] => (parseMantissa text).map fun mantissa => F64.ofDecimal mantissa.1 (-mantissa.2)
  | _ :: exponent =>
      (parseMantissa (text.takeWhile (! isExponentMark ·))).bind fun mantissa =>
        (parseExponent exponent).map fun power =>
          F64.ofDecimal mantissa.1 (power - mantissa.2)

def infText : Text := ['i', 'n', 'f']

def infinityText : Text := ['i', 'n', 'f', 'i', 'n', 'i', 't', 'y']

def nanText : Text := ['n', 'a', 'n']

/-- A number without its sign. The three names are read in any case. -/
def parseUnsigned (text : Text) : Option F :=
  let lower := text.map Char.toLower
  if lower = infText ∨ lower = infinityText then some F64.infinity
  else if lower = nanText then some F64.nan
  else parseDecimal text

/-- `f64::from_str`. -/
def parseF64 : Text → Option F
  | '-' :: text => (parseUnsigned text).map F64.neg
  | '+' :: text => parseUnsigned text
  | text => parseUnsigned text

/-- **What is documented of `f64`.** A decimal rounds to a double that is
neither negative nor not a number; a double that is neither prints as what
parses to it; a finite one prints in digits and at most a dot, without an
exponent, and the infinite one by its name; without decimals it prints in
digits alone, and an integral value as digits that parse to it. (Above
`2 ^ 53` they need not be those it prints otherwise.) -/
class LawfulF64 (F : Type) [F64 F] : Prop where
  isNaN_ofDecimal : ∀ (digits : ℕ) (power : ℤ), F64.isNaN (F64.ofDecimal digits power : F) = false
  isSignNegative_ofDecimal : ∀ (digits : ℕ) (power : ℤ),
    F64.isSignNegative (F64.ofDecimal digits power : F) = false
  isNaN_nan : F64.isNaN (F64.nan : F) = true
  isNaN_infinity : F64.isNaN (F64.infinity : F) = false
  isSignNegative_infinity : F64.isSignNegative (F64.infinity : F) = false
  parse_display : ∀ v : F, F64.isNaN v = false → F64.isSignNegative v = false →
    parseF64 (F64.display v) = some v
  display_finite : ∀ v : F, F64.isFinite v = true → F64.isSignNegative v = false →
    F64.display v ≠ [] ∧ ∀ c ∈ F64.display v, c.isDigit ∨ c = '.'
  display_infinite : ∀ v : F, F64.isFinite v = false → F64.isNaN v = false →
    F64.isSignNegative v = false → F64.display v = infText
  parse_displayWhole : ∀ v : F, F64.isFinite v = true → F64.eq v (F64.trunc v) = true →
    F64.isSignNegative v = false → parseF64 (F64.displayWhole v) = some v
  displayWhole_digits : ∀ v : F, F64.isFinite v = true → F64.isSignNegative v = false →
    F64.displayWhole v ≠ [] ∧ ∀ c ∈ F64.displayWhole v, c.isDigit

end Dsline
