import FrameOverlay.Expr.Double

/-!
# Functions that take arguments by position

The functions on doubles once more, each taking its arguments out of the list by position.  None of them asks
how many arguments there are, so one that is not there is taken all the same: the position is behind the end
of the list, and there is no value.

* `Expr.Builtin.positional?` — the functions;
* `Expr.positional` — double-precision arithmetic with these functions.
-/

namespace FrameOverlay.Expr

/-- The functions on doubles, by the positions of their arguments.  Only the third argument of a conditional
may be left out; which of the other two is taken hangs on the first. -/
def Builtin.positional? (f : Builtin) (args : List Float) : Option Float := do
  match f with
  | .min => return smaller (← args[0]?) (← args[1]?)
  | .max => return larger (← args[0]?) (← args[1]?)
  | .abs => return (← args[0]?).abs
  | .floor => return (← args[0]?).floor
  | .ceil => return (← args[0]?).ceil
  | .trunc => return truncated (← args[0]?)
  | .round => return (← args[0]?).round
  | .sqrt => return (← args[0]?).sqrt
  | .mod => return (← args[0]?) - (← args[1]?) * ((← args[0]?) / (← args[1]?)).floor
  | .ifNonzero => if (← args[0]?) == 0 then return args[2]?.getD 0 else args[1]?
  | .ifZero => if (← args[0]?) == 0 then args[1]? else return args[2]?.getD 0
  | .less => return flag ((← args[0]?) < (← args[1]?))
  | .lessEqual => return flag ((← args[0]?) ≤ (← args[1]?))
  | .greater => return flag ((← args[0]?) > (← args[1]?))
  | .greaterEqual => return flag ((← args[0]?) ≥ (← args[1]?))
  | .equal => return flag ((← args[0]?) == (← args[1]?))
  | .clip =>
    if (← args[1]?) > (← args[2]?) then
      return nan
    else
      return smaller (larger (← args[0]?) (← args[1]?)) (← args[2]?)

example (a b : Float) : Builtin.clip.positional? [a, b] = none := rfl

/-- Double-precision arithmetic whose functions take their arguments by position. -/
def positional : Arithmetic Float := { double with call? := Builtin.positional? }

/-! ### Enough arguments -/

/-- A list with two elements at least. -/
theorem exists_two {α : Type} {as : List α} (h : 2 ≤ as.length) : ∃ a b rest, as = a :: b :: rest := by
  obtain ⟨a, tail, rfl⟩ := List.exists_cons_of_length_pos (Nat.lt_of_lt_of_le Nat.two_pos h)
  obtain ⟨b, rest, rfl⟩ := List.exists_cons_of_length_pos (Nat.lt_of_succ_lt_succ h)
  exact ⟨a, b, rest, rfl⟩

/-- With its least number of arguments a function has the same value both ways. -/
theorem Builtin.positional?_eq_double? {f : Builtin} {args : List Float} (h : f.minArgs ≤ args.length) :
    f.positional? args = f.double? args := by
  cases f with
  | abs | floor | ceil | trunc | round | sqrt =>
    obtain ⟨a, rest, rfl⟩ := List.exists_cons_of_length_pos h
    rfl
  | min | max | mod | less | lessEqual | greater | greaterEqual | equal =>
    obtain ⟨a, b, rest, rfl⟩ := exists_two h
    rfl
  | ifNonzero | ifZero =>
    obtain ⟨a, b, rest, rfl⟩ := exists_two h
    have third : (a :: b :: rest)[2]?.getD 0 = rest.headD 0 := by cases rest <;> rfl
    show (if a == 0 then _ else _) = some (if a == 0 then _ else _)
    rw [← third]
    split
    · rfl
    · rfl
  | clip =>
    obtain ⟨a, tail, rfl⟩ := List.exists_cons_of_length_pos (Nat.lt_of_lt_of_le (by decide) h)
    obtain ⟨low, high, rest, rfl⟩ := exists_two (Nat.le_of_succ_le_succ h)
    show (if low > high then _ else _) = some (if high < low then _ else _)
    split
    · rfl
    · rfl

end FrameOverlay.Expr
