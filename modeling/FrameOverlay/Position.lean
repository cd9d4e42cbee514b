import FrameOverlay.Error
import FrameOverlay.Expr.Double
import FrameOverlay.Expr.Parser
import FrameOverlay.Offset

/-!
# The position of the overlay

Two expressions, one per axis, reduced to an offset.  Each may refer to the other axis, so an
evaluation takes three steps: `x` with the old `x` and `y`, then `y` with the new `x`, then `x`
again with the new `y`.

* `Axis` — the two axes;
* `PositionExpr` — an expression and the text it was read from;
* `Expr.Variables.settle` — the three steps, over any arithmetic;
* `Position` — both expressions, the variables, the last offset;
* `Position.refresh`, `Position.evaluate` — new values for the variables, a new offset;
* `Position.setExpression` — replaces one expression, unless its text cannot be read.
-/

namespace FrameOverlay

/-- An axis of the position. -/
inductive Axis where
  | x
  | y
  deriving DecidableEq, Repr

namespace Axis

/-- Name of the axis, which is also the name of its option. -/
def name : Axis → String
  | x => "x"
  | y => "y"

/-- The axis of a name. -/
def ofName? (s : String) : Option Axis :=
  if s = "x" then some x else if s = "y" then some y else none

end Axis

/-- An expression and its text. -/
structure PositionExpr where
  text : String
  tree : Expr
  deriving Repr

namespace PositionExpr

/-- Reads the expression of an axis. -/
def read (axis : Axis) (text : String) : Except OverlayError PositionExpr :=
  match Expr.parse text with
  | .ok tree => .ok ⟨text, tree⟩
  | .error e => .error (.expression axis.name text e.message)

end PositionExpr

/-- The three steps of an evaluation.  `missing` stands for a value that a call with too few
arguments does not have. -/
def Expr.Variables.settle {ν : Type} (A : Expr.Arithmetic ν) (missing : ν) (x y : Expr)
    (vars : Expr.Variables ν) : Expr.Variables ν :=
  let vars := { vars with x := (x.eval? A vars).getD missing }
  let vars := { vars with y := (y.eval? A vars).getD missing }
  { vars with x := (x.eval? A vars).getD missing }

/-- What the variables are set to before an evaluation for an event. -/
structure FrameVariables where
  mainWidth : UInt32
  mainHeight : UInt32
  overlayWidth : UInt32
  overlayHeight : UInt32
  /-- Number of the event. -/
  n : UInt64
  /-- Time in seconds. -/
  t : Option Float
  /-- Position in the stream in bytes. -/
  pos : Option Int64

/-- Both expressions, their variables, and the offset they last came to. -/
structure Position where
  x : PositionExpr
  y : PositionExpr
  vars : Expr.Variables Float
  offset : OverlayOffset

namespace Position

/-- Sizes and the event number start at zero; the rest has no value yet. -/
def initialVariables : Expr.Variables Float :=
  ⟨0, 0, 0, 0, Expr.nan, Expr.nan, 0, Expr.nan, Expr.nan⟩

/-- Reads both expressions.  The offset is the origin until the first evaluation. -/
def new (x y : String) : Except OverlayError Position := do
  let xExpr ← PositionExpr.read .x x
  let yExpr ← PositionExpr.read .y y
  return ⟨xExpr, yExpr, initialVariables, .origin⟩

/-- The expression of an axis. -/
def expression (p : Position) : Axis → PositionExpr
  | .x => p.x
  | .y => p.y

/-- Replaces the expression of an axis. -/
def setExpression (p : Position) (axis : Axis) (text : String) : Except OverlayError Position := do
  let e ← PositionExpr.read axis text
  return match axis with
    | .x => { p with x := e }
    | .y => { p with y := e }

/-- Sets the sizes of both pictures. -/
def setDimensions (p : Position) (mainWidth mainHeight overlayWidth overlayHeight : UInt32) :
    Position :=
  { p with vars := { p.vars with
      mainWidth := mainWidth.toUInt64.toFloat
      mainHeight := mainHeight.toUInt64.toFloat
      overlayWidth := overlayWidth.toUInt64.toFloat
      overlayHeight := overlayHeight.toUInt64.toFloat } }

/-- Sets every variable but the position itself. -/
def refresh (p : Position) (f : FrameVariables) : Position :=
  let p := p.setDimensions f.mainWidth f.mainHeight f.overlayWidth f.overlayHeight
  { p with vars := { p.vars with
      n := f.n.toFloat
      t := f.t.getD Expr.nan
      pos := (f.pos.map Int64.toFloat).getD Expr.nan } }

/-- Evaluates both expressions and reduces the result to an offset. -/
def evaluate (p : Position) : Position :=
  let vars := p.vars.settle Expr.double Expr.nan p.x.tree p.y.tree
  { p with vars, offset := ⟨.ofFloat vars.x, vars.y.toInt32⟩ }

end Position

end FrameOverlay
