import FrameOverlay.Decimal.Basic

/-!
# Position expressions

Arithmetic over the variables of an overlay position.

* `Expr` — numbers, named constants, variables, signs, binary operators and calls;
* `Variables` — the values of the variables, over any type of numbers;
* `Arithmetic` — an interpretation of numerals, operators and functions;
* `Expr.eval?` — the value under an interpretation; a call that lacks an argument has none;
* `Expr.depth`, `Expr.mentions`, `Expr.CallsFit` — nesting, the variables referred to, and that
  every call has as many arguments as its function takes.
-/

namespace FrameOverlay

namespace Expr

/-- A variable of the position. -/
inductive Variable where
  | mainWidth
  | mainHeight
  | overlayWidth
  | overlayHeight
  /-- The position itself, as last evaluated. -/
  | x
  | y
  /-- Number of the event, from zero. -/
  | n
  /-- Time of the event in seconds. -/
  | t
  /-- Position of the main picture in its stream, in bytes. -/
  | pos
  deriving DecidableEq, Repr

namespace Variable

/-- Every spelling of every variable. -/
def spellings : List (String × Variable) :=
  [("main_w", mainWidth), ("W", mainWidth), ("main_h", mainHeight), ("H", mainHeight),
    ("overlay_w", overlayWidth), ("w", overlayWidth), ("overlay_h", overlayHeight),
    ("h", overlayHeight), ("x", x), ("y", y), ("n", n), ("t", t), ("pos", pos)]

/-- The variable of a name. -/
def ofName? (s : String) : Option Variable := spellings.lookup s

end Variable

/-- A named number. -/
inductive Constant where
  | pi
  | e
  /-- The golden ratio. -/
  | phi
  deriving DecidableEq, Repr

namespace Constant

/-- The constant of a name. -/
def ofName? (s : String) : Option Constant :=
  [("PI", pi), ("E", e), ("PHI", phi)].lookup s

end Constant

/-- An operator between two operands. -/
inductive BinaryOp where
  | add
  | sub
  | mul
  | div
  | pow
  deriving DecidableEq, Repr

/-- The character an operator is written as. -/
def BinaryOp.symbol : BinaryOp → Char
  | add => '+'
  | sub => '-'
  | mul => '*'
  | div => '/'
  | pow => '^'

/-- A function that may be called. -/
inductive Builtin where
  | min
  | max
  | abs
  | floor
  | ceil
  | trunc
  | round
  | sqrt
  /-- Remainder of the quotient rounded down. -/
  | mod
  /-- The second argument if the first is not zero, else the third, or zero if there is none. -/
  | ifNonzero
  /-- The second argument if the first is zero, else the third, or zero if there is none. -/
  | ifZero
  | less
  | lessEqual
  | greater
  | greaterEqual
  | equal
  /-- The first argument, moved into the range from the second to the third. -/
  | clip
  deriving DecidableEq, Repr

namespace Builtin

/-- The name of every function. -/
def spellings : List (String × Builtin) :=
  [("min", min), ("max", max), ("abs", abs), ("floor", floor), ("ceil", ceil), ("trunc", trunc),
    ("round", round), ("sqrt", sqrt), ("mod", mod), ("if", ifNonzero), ("ifnot", ifZero),
    ("lt", less), ("lte", lessEqual), ("gt", greater), ("gte", greaterEqual), ("eq", equal),
    ("clip", clip)]

/-- The function of a name. -/
def ofName? (s : String) : Option Builtin := spellings.lookup s

/-- Least number of arguments. -/
def minArgs : Builtin → Nat
  | abs | floor | ceil | trunc | round | sqrt => 1
  | min | max | mod | less | lessEqual | greater | greaterEqual | equal => 2
  | ifNonzero | ifZero => 2
  | clip => 3

/-- Greatest number of arguments. -/
def maxArgs : Builtin → Nat
  | ifNonzero | ifZero => 3
  | f => f.minArgs

end Builtin

end Expr

/-! ### Trees -/

/-- An expression.  Parentheses and unary plus leave no trace. -/
inductive Expr where
  | num (value : Decimal)
  | const (value : Expr.Constant)
  | var (name : Expr.Variable)
  | neg (operand : Expr)
  | binary (op : Expr.BinaryOp) (left right : Expr)
  | call (f : Expr.Builtin) (args : List Expr)
  deriving Repr

namespace Expr

mutual

/-- Number of operators and calls on the longest way down to a leaf. -/
def depth : Expr → Nat
  | num _ | const _ | var _ => 0
  | neg e => e.depth + 1
  | binary _ l r => max l.depth r.depth + 1
  | call _ args => depthAll args + 1

/-- The greatest depth in a list. -/
def depthAll : List Expr → Nat
  | [] => 0
  | e :: es => max e.depth (depthAll es)

end

mutual

/-- The expression refers to the variable. -/
def mentions (v : Variable) : Expr → Bool
  | num _ | const _ => false
  | var w => w == v
  | neg e => e.mentions v
  | binary _ l r => l.mentions v || r.mentions v
  | call _ args => mentionsAny v args

/-- Some expression of a list refers to the variable. -/
def mentionsAny (v : Variable) : List Expr → Bool
  | [] => false
  | e :: es => e.mentions v || mentionsAny v es

end

mutual

/-- Every call has as many arguments as its function takes. -/
def CallsFit : Expr → Prop
  | num _ | const _ | var _ => True
  | neg e => e.CallsFit
  | binary _ l r => l.CallsFit ∧ r.CallsFit
  | call f args => f.minArgs ≤ args.length ∧ args.length ≤ f.maxArgs ∧ CallsFitAll args

/-- `CallsFit` for every expression of a list. -/
def CallsFitAll : List Expr → Prop
  | [] => True
  | e :: es => e.CallsFit ∧ CallsFitAll es

end

/-! ### Evaluation -/

/-- A value for every variable. -/
structure Variables (ν : Type) where
  mainWidth : ν
  mainHeight : ν
  overlayWidth : ν
  overlayHeight : ν
  x : ν
  y : ν
  n : ν
  t : ν
  pos : ν
  deriving Repr

/-- The value of a variable. -/
def Variables.get {ν : Type} (vars : Variables ν) : Variable → ν
  | .mainWidth => vars.mainWidth
  | .mainHeight => vars.mainHeight
  | .overlayWidth => vars.overlayWidth
  | .overlayHeight => vars.overlayHeight
  | .x => vars.x
  | .y => vars.y
  | .n => vars.n
  | .t => vars.t
  | .pos => vars.pos

/-- What numerals, constants, operators and functions mean. -/
structure Arithmetic (ν : Type) where
  numeral : Decimal → ν
  constant : Constant → ν
  negate : ν → ν
  binary : BinaryOp → ν → ν → ν
  /-- The value of a call; none if an argument is missing. -/
  call? : Builtin → List ν → Option ν

mutual

/-- The value of an expression. -/
def eval? {ν : Type} (A : Arithmetic ν) (vars : Variables ν) : Expr → Option ν
  | num d => some (A.numeral d)
  | const c => some (A.constant c)
  | var v => some (vars.get v)
  | neg e => (e.eval? A vars).map A.negate
  | binary op l r => do
    let a ← l.eval? A vars
    let b ← r.eval? A vars
    return A.binary op a b
  | call f args => do
    let values ← evalAll? A vars args
    A.call? f values

/-- The values of a list of expressions. -/
def evalAll? {ν : Type} (A : Arithmetic ν) (vars : Variables ν) : List Expr → Option (List ν)
  | [] => some []
  | e :: es => do
    let a ← e.eval? A vars
    let rest ← evalAll? A vars es
    return a :: rest

end

end Expr

end FrameOverlay
