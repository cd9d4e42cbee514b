/-!
# Decimal numerals

Numbers as they are written: a string of digits and a power of ten.

* `Decimal` — `digits · 10 ^ exponent`, with its nearest double `Decimal.toFloat`;
* `Decimal.ofDigits` — the value of a string of digits;
* `Decimal.ofLiteral?` — reads digits with at most one point and an optional exponent.
-/

namespace FrameOverlay

/-- The number `digits · 10 ^ exponent`. -/
structure Decimal where
  digits : Nat
  exponent : Int
  deriving DecidableEq, Repr

namespace Decimal

/-- The nearest double, ties to even; infinite if the number is too large for any. -/
def toFloat (d : Decimal) : Float :=
  Float.ofScientific d.digits (d.exponent < 0) d.exponent.natAbs

/-- Value of one digit. -/
def digitValue (c : Char) : Nat := c.toNat - '0'.toNat

/-- Value of a string of digits, most significant first. -/
def ofDigits (cs : List Char) : Nat :=
  cs.foldl (fun n c => 10 * n + digitValue c) 0

/-- Value of an exponent: digits behind an optional sign. -/
def ofSignedDigits : List Char → Int
  | '-' :: cs => -(ofDigits cs : Int)
  | '+' :: cs => ofDigits cs
  | cs => ofDigits cs

/-- A digit or the decimal point. -/
def isMantissa (c : Char) : Bool := c.isDigit || c == '.'

/-- Reads a numeral: digits with at most one point among them and at least one digit, then
perhaps a letter and an exponent. -/
def ofLiteral? (cs : List Char) : Option Decimal :=
  let mantissa := cs.takeWhile isMantissa
  let whole := mantissa.takeWhile Char.isDigit
  let fraction := (mantissa.dropWhile Char.isDigit).drop 1
  if fraction.all Char.isDigit && !(whole ++ fraction).isEmpty then
    some ⟨ofDigits (whole ++ fraction),
      ofSignedDigits ((cs.dropWhile isMantissa).drop 1) - fraction.length⟩
  else
    none

example : ofLiteral? "12.50".toList = some ⟨1250, -2⟩ := by decide
example : ofLiteral? ".5e-3".toList = some ⟨5, -4⟩ := by decide
example : ofLiteral? "1.2.3".toList = none := by decide
example : ofLiteral? ".".toList = none := by decide

end Decimal

end FrameOverlay
