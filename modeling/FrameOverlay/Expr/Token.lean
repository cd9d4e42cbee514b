import FrameOverlay.Expr.Basic
import FrameOverlay.Text.Bytes

/-!
# Tokens of position expressions

A text is cut into tokens from left to right, each as long as it can be, with blanks between
them left out.  Every character belongs somewhere, so cutting never fails.

* `Expr.Token` — a numeral, a name, an operator, a mark, or any other single character;
* `Expr.Located` — a token and the byte it starts at;
* `Expr.numeralTail` — the rest of a numeral: digits and points, then an exponent if the letter
  is followed by digits;
* `Expr.scan` — the tokens of a text.
-/

namespace FrameOverlay.Expr

/-- A piece of an expression's text. -/
inductive Token where
  | numeral (text : List Char)
  | name (text : List Char)
  | operator (op : BinaryOp)
  /-- An opening parenthesis. -/
  | opening
  /-- A closing parenthesis. -/
  | closing
  | comma
  /-- A character that no expression holds. -/
  | stray (c : Char)
  deriving DecidableEq, Repr

/-- A token and the byte of the text it starts at. -/
structure Located where
  start : Nat
  token : Token
  deriving DecidableEq, Repr

/-! ### Character classes -/

/-- Blanks between tokens: space, tab, line feed, form feed, carriage return. -/
def isGap (c : Char) : Bool :=
  c == ' ' || c == '\t' || c == '\n' || c == '\x0c' || c == '\r'

/-- A numeral goes on with digits and points, however many. -/
def isNumeralChar (c : Char) : Bool := c.isDigit || c == '.'

/-- A name starts with an ASCII letter or an underscore. -/
def isNameStart (c : Char) : Bool := c.isAlpha || c == '_'

/-- A name goes on with ASCII letters, digits and underscores. -/
def isNameChar (c : Char) : Bool := c.isAlphanum || c == '_'

/-! ### Numerals -/

/-- The digits of an exponent at the front of `cs`, with the sign before them; empty unless there
is at least one digit. -/
def exponentDigits (cs : List Char) : List Char :=
  let sign := cs.take 1 |>.filter fun c => c == '+' || c == '-'
  let digits := (cs.drop sign.length).takeWhile Char.isDigit
  if digits.isEmpty then [] else sign ++ digits

/-- The exponent at the front of `cs`, letter and all, or nothing. -/
def exponentPart : List Char → List Char
  | [] => []
  | c :: cs =>
    let digits := exponentDigits cs
    if (c == 'e' || c == 'E') && !digits.isEmpty then c :: digits else []

/-- What belongs to a numeral of which the first character has been read. -/
def numeralTail (cs : List Char) : List Char :=
  cs.takeWhile isNumeralChar ++ exponentPart (cs.dropWhile isNumeralChar)

/-! ### Scanning -/

/-- Characters that are tokens on their own and have a meaning. -/
def marks : List (Char × Token) :=
  [('+', .operator .add), ('-', .operator .sub), ('*', .operator .mul), ('/', .operator .div),
    ('^', .operator .pow), ('(', .opening), (')', .closing), (',', .comma)]

/-- The token that starts with `c`, which is no blank. -/
def tokenAt (c : Char) (cs : List Char) : Token :=
  if isNumeralChar c then .numeral (c :: numeralTail cs)
  else if isNameStart c then .name (c :: cs.takeWhile isNameChar)
  else (marks.lookup c).getD (.stray c)

/-- The characters of a token. -/
def Token.text : Token → List Char
  | .numeral text | .name text => text
  | .operator op => [op.symbol]
  | .opening => ['(']
  | .closing => [')']
  | .comma => [',']
  | .stray c => [c]

/-- The tokens of `cs`, which starts at byte `start` of the text. -/
def scanFrom (start : Nat) : List Char → List Located
  | [] => []
  | c :: cs =>
    if isGap c then
      scanFrom (start + 1) cs
    else
      let token := tokenAt c cs
      ⟨start, token⟩ :: scanFrom (start + Text.byteSize token.text) (cs.drop (token.text.length - 1))
termination_by cs => cs.length
decreasing_by
  · simp only [List.length_cons]
    omega
  · simp only [List.length_cons, List.length_drop]
    omega

/-- The tokens of a text. -/
def scan (text : List Char) : List Located := scanFrom 0 text

example : scan "2e+1x (.5".toList =
    [⟨0, .numeral "2e+1".toList⟩, ⟨4, .name ['x']⟩, ⟨6, .opening⟩, ⟨7, .numeral ".5".toList⟩] := by
  decide +kernel

example : scan "1e 1.2.3".toList =
    [⟨0, .numeral ['1']⟩, ⟨1, .name ['e']⟩, ⟨3, .numeral "1.2.3".toList⟩] := by
  decide +kernel

end FrameOverlay.Expr
