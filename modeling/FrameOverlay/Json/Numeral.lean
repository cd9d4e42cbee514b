import FrameOverlay.Decimal.Basic
import FrameOverlay.Json.Fault

/-!
# JSON numerals

A numeral is cut out of the text part by part, whether or not every part has its digits; what is
wrong with it is judged afterwards.

* `Json.Numeral` — sign, whole digits, fraction, exponent;
* `Json.Numeral.scan` — the numeral at the front of a text, and what follows;
* `Json.Numeral.fault?` — why it cannot be read: digits are missing, or it is too large for a
  double;
* `Json.Numeral.int64?` — its value as a 64-bit integer.
-/

namespace FrameOverlay.Json

/-- The exponent of a numeral. -/
structure NumeralExponent where
  negative : Bool
  digits : List Char
  deriving DecidableEq, Repr

/-- A numeral by its parts. -/
structure Numeral where
  negative : Bool
  whole : List Char
  /-- The digits behind the point, if there is a point. -/
  fraction : Option (List Char)
  exponent : Option NumeralExponent
  /-- The text ends right behind the numeral. -/
  atEnd : Bool
  deriving DecidableEq, Repr

namespace Numeral

/-! ### Scanning -/

/-- The point and the digits behind it, if there is a point, and what follows. -/
def scanFraction : List Char → Option (List Char) × List Char
  | '.' :: cs => (some (cs.takeWhile Char.isDigit), cs.dropWhile Char.isDigit)
  | cs => (none, cs)

/-- The sign at the front, if there is one: whether it is negative, and what follows. -/
def scanSign : List Char → Bool × List Char
  | '-' :: cs => (true, cs)
  | '+' :: cs => (false, cs)
  | cs => (false, cs)

/-- The exponent, if there is a letter for it, and what follows. -/
def scanExponent : List Char → Option NumeralExponent × List Char
  | 'e' :: cs | 'E' :: cs =>
    let (negative, cs) := scanSign cs
    (some ⟨negative, cs.takeWhile Char.isDigit⟩, cs.dropWhile Char.isDigit)
  | cs => (none, cs)

/-- A numeral without its sign, and what follows. -/
def scanUnsigned (negative : Bool) (cs : List Char) : Numeral × List Char :=
  let (fraction, rest) := scanFraction (cs.dropWhile Char.isDigit)
  let (exponent, rest) := scanExponent rest
  (⟨negative, cs.takeWhile Char.isDigit, fraction, exponent, rest.isEmpty⟩, rest)

/-- The numeral at the front of a text that starts with a digit or a minus, and what follows. -/
def scan : List Char → Numeral × List Char
  | '-' :: cs => scanUnsigned true cs
  | cs => scanUnsigned false cs

theorem length_dropWhile_le (p : Char → Bool) (cs : List Char) :
    (cs.dropWhile p).length ≤ cs.length :=
  (List.dropWhile_suffix p).length_le

theorem length_scanFraction_le (cs : List Char) : (scanFraction cs).2.length ≤ cs.length := by
  unfold scanFraction
  split
  · next cs =>
    have := length_dropWhile_le Char.isDigit cs
    simp only [List.length_cons]
    omega
  · exact Nat.le_refl _

theorem length_scanSign_le (cs : List Char) : (scanSign cs).2.length ≤ cs.length := by
  unfold scanSign
  split <;> simp

theorem length_scanExponent_le (cs : List Char) : (scanExponent cs).2.length ≤ cs.length := by
  have digits (cs : List Char) : ((scanSign cs).2.dropWhile Char.isDigit).length ≤ cs.length :=
    Nat.le_trans (length_dropWhile_le Char.isDigit _) (length_scanSign_le cs)
  unfold scanExponent
  split
  · next cs => exact Nat.le_succ_of_le (digits cs)
  · next cs => exact Nat.le_succ_of_le (digits cs)
  · exact Nat.le_refl _

theorem length_scanUnsigned_le (negative : Bool) (cs : List Char) :
    (scanUnsigned negative cs).2.length ≤ (cs.dropWhile Char.isDigit).length :=
  Nat.le_trans (length_scanExponent_le _) (length_scanFraction_le _)

/-- A numeral has at least one character. -/
theorem length_scan_lt (c : Char) (cs : List Char) (h : c.isDigit ∨ c = '-') :
    (scan (c :: cs)).2.length < (c :: cs).length := by
  unfold scan
  split
  · next rest heq =>
    injection heq with _ tail
    have unsigned := length_scanUnsigned_le true rest
    have digits := length_dropWhile_le Char.isDigit rest
    simp only [tail, List.length_cons]
    omega
  · next noMinus =>
    have digit : c.isDigit = true := by
      rcases h with h | h
      · exact h
      · exact absurd (congrArg (· :: cs) h) (noMinus cs)
    have unsigned := length_scanUnsigned_le false (c :: cs)
    have digits := length_dropWhile_le Char.isDigit cs
    simp only [List.dropWhile_cons, digit, if_true] at unsigned
    simp only [List.length_cons]
    omega

/-! ### Faults -/

/-- A zero with further whole digits behind it. -/
def hasLeadingZero (n : Numeral) : Bool :=
  n.whole.head? == some '0' && n.whole.length > 1

/-- Every part that is there has its digits. -/
def isComplete (n : Numeral) : Bool :=
  !n.whole.isEmpty && !n.hasLeadingZero && n.fraction != some [] &&
    n.exponent.all fun e => !e.digits.isEmpty

/-- Takes digits into a significand of 64 bits as long as they fit.  Gives the significand and the
digits left out. -/
def gather (significand : Nat) : List Char → Nat × List Char
  | [] => (significand, [])
  | c :: cs =>
    let more := 10 * significand + Decimal.digitValue c
    if more < UInt64.size then gather more cs else (significand, c :: cs)

/-- Value of the exponent part. -/
def exponentValue (n : Numeral) : Int :=
  match n.exponent with
  | none => 0
  | some e => if e.negative then -(Decimal.ofDigits e.digits : Int) else Decimal.ofDigits e.digits

/-- The magnitude up to digits that do not fit into 64 bits. -/
def magnitude (n : Numeral) : Decimal :=
  let fraction := n.fraction.getD []
  let (whole, left) := gather 0 n.whole
  let (significand, fractionLeft) := gather whole fraction
  ⟨significand,
    n.exponentValue + left.length - ((fraction.length : Int) - fractionLeft.length)⟩

/-- The magnitude is too large for a double: its significand, rounded to a double, times a power
of ten.  A significand of 64 bits by itself never is. -/
def overflows (n : Numeral) : Bool :=
  let d := n.magnitude
  d.digits != 0 && (d.exponent > 308 || (d.exponent > 0 &&
    ((UInt64.ofNat d.digits).toFloat * Decimal.toFloat ⟨1, d.exponent⟩).isInf))

/-- The first fault of a numeral.  Digits that are missing where the text ends may have been cut
off; missing anywhere else they are a mistake, and so is a number without a double. -/
def fault? (n : Numeral) : Option Fault :=
  let missing (last : Bool) : Fault := if last && n.atEnd then .truncated else .malformed
  if n.whole.isEmpty then
    some (missing (n.fraction.isNone && n.exponent.isNone))
  else if n.hasLeadingZero then
    some .malformed
  else if n.fraction == some [] then
    some (missing n.exponent.isNone)
  else if n.exponent.any fun e => e.digits.isEmpty then
    some (missing true)
  else if n.overflows then
    some .malformed
  else
    none

/-! ### Values -/

/-- The value as a 64-bit integer.  A fraction or an exponent makes a numeral a real number,
whatever its value, and so does the sign of a negative zero. -/
def int64? (n : Numeral) : Option Int64 :=
  let magnitude : Int := Decimal.ofDigits n.whole
  let value := if n.negative then -magnitude else magnitude
  if n.fraction.isNone && n.exponent.isNone && !(n.negative && magnitude == 0) &&
      Int64.minValue.toInt ≤ value && value ≤ Int64.maxValue.toInt then
    some (Int64.ofInt value)
  else
    none

example : (scan "-12.5e+3,".toList).1 =
    ⟨true, ['1', '2'], some ['5'], some ⟨false, ['3']⟩, false⟩ := by decide
example : (scan "1.".toList).1.fault? = some .truncated := by decide
example : (scan "1.]".toList).1.fault? = some .malformed := by decide

end Numeral

end FrameOverlay.Json
