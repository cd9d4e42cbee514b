import FrameOverlay.Expr.Basic

/-!
# Expressions over doubles

* `Expr.double` — the interpretation of expressions by double-precision arithmetic;
* `Expr.value` — the double an expression evaluates to.
-/

namespace FrameOverlay.Expr

/-- Not a number. -/
def nan : Float := 0.0 / 0.0

/-- One for true, zero for false. -/
def flag (b : Bool) : Float := if b then 1 else 0

/-- The smaller argument; a missing number gives way to the other. -/
def smaller (a b : Float) : Float :=
  if a.isNaN then b else if b.isNaN then a else if a < b then a else b

/-- The greater argument; a missing number gives way to the other. -/
def larger (a b : Float) : Float :=
  if a.isNaN then b else if b.isNaN then a else if b < a then a else b

/-- The integer part. -/
def truncated (a : Float) : Float := if a < 0 then a.ceil else a.floor

/-- The constants, each as the nearest double. -/
def Constant.double : Constant → Float
  | .pi => 3.141592653589793
  | .e => 2.718281828459045
  | .phi => 1.618033988749895

/-- The operators on doubles. -/
def BinaryOp.double : BinaryOp → Float → Float → Float
  | .add, a, b => a + b
  | .sub, a, b => a - b
  | .mul, a, b => a * b
  | .div, a, b => a / b
  | .pow, a, b => a.pow b

/-- The functions on doubles.  Rounding takes halves away from zero; an empty range to clip to
gives no number. -/
def Builtin.double? : Builtin → List Float → Option Float
  | .min, a :: b :: _ => some (smaller a b)
  | .max, a :: b :: _ => some (larger a b)
  | .abs, a :: _ => some a.abs
  | .floor, a :: _ => some a.floor
  | .ceil, a :: _ => some a.ceil
  | .trunc, a :: _ => some (truncated a)
  | .round, a :: _ => some a.round
  | .sqrt, a :: _ => some a.sqrt
  | .mod, a :: b :: _ => some (a - b * (a / b).floor)
  | .ifNonzero, a :: b :: rest => some (if a == 0 then rest.headD 0 else b)
  | .ifZero, a :: b :: rest => some (if a == 0 then b else rest.headD 0)
  | .less, a :: b :: _ => some (flag (a < b))
  | .lessEqual, a :: b :: _ => some (flag (a ≤ b))
  | .greater, a :: b :: _ => some (flag (b < a))
  | .greaterEqual, a :: b :: _ => some (flag (b ≤ a))
  | .equal, a :: b :: _ => some (flag (a == b))
  | .clip, a :: low :: high :: _ => some (if high < low then nan else smaller (larger a low) high)
  | _, _ => none

/-- Double-precision arithmetic. -/
def double : Arithmetic Float where
  numeral := Decimal.toFloat
  constant := Constant.double
  negate := fun a => -a
  binary := BinaryOp.double
  call? := Builtin.double?

/-- The double an expression evaluates to; no number where a call lacks an argument. -/
def value (e : Expr) (vars : Variables Float) : Float :=
  (e.eval? double vars).getD nan

/-- A function has a value as soon as it has its least number of arguments. -/
theorem Builtin.double?_isSome (f : Builtin) (args : List Float) (h : f.minArgs ≤ args.length) :
    (f.double? args).isSome := by
  rcases args with _ | ⟨a, _ | ⟨b, _ | ⟨c, rest⟩⟩⟩ <;> cases f <;>
    simp_all [minArgs, double?]

end FrameOverlay.Expr
