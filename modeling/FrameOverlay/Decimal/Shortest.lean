import FrameOverlay.Decimal.Basic

/-!
# The shortest decimal of a double

A double `m · 2 ^ q` stands for every real number that rounds to it.  Of the decimals among those
the one with the fewest digits is chosen, and of two such the nearer.

* `Binary` — a positive double taken apart;
* `Binary.shortest` — its shortest decimal, by exact integer arithmetic: grids of powers of ten
  are tried from coarse to fine, and on each the two points next to the double;
* `Decimal.floatText` — how a double is shown.
-/

namespace FrameOverlay

/-- The positive number `mantissa · 2 ^ exponent` as a double holds it. -/
structure Binary where
  mantissa : Nat
  exponent : Int
  /-- The next smaller double is only half a unit away. -/
  lowerHalved : Bool
  deriving DecidableEq, Repr

namespace Binary

/-- Takes the bits of a finite double apart; the sign is dropped. -/
def ofBits (bits : UInt64) : Binary :=
  let fraction := bits.toNat % (1 <<< 52)
  let biased := bits.toNat / (1 <<< 52) % (1 <<< 11)
  { mantissa := if biased = 0 then fraction else (1 <<< 52) + fraction
    exponent := (max 1 biased : Nat) - 1075
    lowerHalved := fraction = 0 && 1 < biased }

/-- The quarter units `quarters · 2 ^ (exponent - 2)` and the grid `10 ^ k` over one common
denominator: the two factors that turn either into an integer. -/
def scales (b : Binary) (k : Int) : Nat × Nat :=
  let e := b.exponent - 2
  (Nat.pow 10 (-k).toNat <<< e.toNat, Nat.pow 10 k.toNat <<< (-e).toNat)

/-- The grid point `c · 10 ^ k` rounds to the double.  The two ends of the interval do so if the
mantissa is even. -/
def covers (b : Binary) (k : Int) (c : Nat) : Bool :=
  let (unit, grid) := b.scales k
  let low := (4 * b.mantissa - if b.lowerHalved then 1 else 2) * unit
  let high := (4 * b.mantissa + 2) * unit
  if b.mantissa % 2 = 0 then
    low ≤ c * grid && c * grid ≤ high
  else
    low < c * grid && c * grid < high

/-- The point of the grid `10 ^ k` that rounds to the double, if there is one; the nearer of
two, the upper one at equal distance. -/
def onGrid? (b : Binary) (k : Int) : Option Nat :=
  let (unit, grid) := b.scales k
  let value := 4 * b.mantissa * unit
  let below := value / grid
  let above := below + 1
  match b.covers k below, b.covers k above with
  | true, true => some (if value - below * grid < above * grid - value then below else above)
  | true, false => some below
  | false, true => some above
  | false, false => none

/-- The first hit on the `grids` grids from `10 ^ k` downwards. -/
def search (b : Binary) : (grids : Nat) → (k : Int) → Option Decimal
  | 0, _ => none
  | n + 1, k =>
    match b.onGrid? k with
    | some c => some ⟨c, k⟩
    | none => search b n (k - 1)

/-- The decimal with the fewest digits that rounds to the double.  Seventeen digits always
suffice; the first grid is coarser than the double itself. -/
def shortest (b : Binary) : Decimal :=
  let bitLength : Int := b.exponent + b.mantissa.log2 + 1
  (b.search 20 (bitLength * 30103 / 100000 + 1)).getD ⟨0, 0⟩

end Binary

namespace Decimal

/-- Digits with a decimal point after the first `point` of them, and at least one digit on either
side of it. -/
def positional (digits : List Char) (point : Int) : List Char :=
  let zeros (n : Int) := List.replicate n.toNat '0'
  if point ≤ 0 then
    '0' :: '.' :: zeros (-point) ++ digits
  else if digits.length ≤ point then
    digits ++ zeros (point - digits.length) ++ ['.', '0']
  else
    digits.take point.toNat ++ '.' :: digits.drop point.toNat

/-- One digit, a point if more follow, and the power of ten of the first. -/
def exponential (digits : List Char) (power : Int) : List Char :=
  let rest := digits.drop 1
  digits.take 1 ++ (if rest.isEmpty then [] else '.' :: rest) ++ 'e' :: (toString power).toList

/-- Text of a positive decimal: positional from `1e-4` up to, but not including, `1e16`. -/
def text (d : Decimal) : List Char :=
  let digits := (toString d.digits).toList
  let point : Int := digits.length + d.exponent
  if -3 ≤ point && point ≤ 16 then
    positional digits point
  else
    exponential digits (point - 1)

/-- Text of a double: the shortest decimal that reads back, `NaN`, `inf`, with a minus sign where
the sign bit is set. -/
def floatText (x : Float) : String :=
  if x.isNaN then
    "NaN"
  else
    let sign := if x.toBits.toNat.testBit 63 then ['-'] else []
    let magnitude :=
      if x.isInf then
        ['i', 'n', 'f']
      else if x == 0 then
        ['0', '.', '0']
      else
        (Binary.ofBits x.toBits).shortest.text
    String.ofList (sign ++ magnitude)

end Decimal

end FrameOverlay
