import FrameOverlay.Expr.Parser
import FrameOverlay.Text.Places

/-!
# Reading position expressions byte by byte

The rules of `Expr.parseSum` and its siblings, followed by a cursor that goes through the bytes of the text.
A cursor can do what tokens cannot, and whatever it must not do is a `Crash` here.

* `Expr.Cursor`, `Expr.Reading` — a byte and the nesting depth, and computations on them;
* `Expr.Crash`, `Expr.Stop` — a computation stops with an error in the text or with a mistake of its own;
* `Expr.eat`, `Expr.skipWhile`, `Expr.sliceFrom` — what the cursor does on the text;
* `Expr.Rule`, `Expr.Rule.body` — the seven reading functions, which call each other;
* `Expr.Rule.read` — a reading function with so many calls inside each other at most;
* `Expr.compile` — reads a whole text.
-/

namespace FrameOverlay.Expr

/-! ### Cursors -/

/-- Where reading has come to. -/
structure Cursor where
  /-- The next byte. -/
  place : Nat
  /-- Levels of nesting that are charged. -/
  depth : Nat
  deriving DecidableEq, Repr

/-- What no reading function may do. -/
inductive Crash where
  /-- The cursor is put behind the end of the text. -/
  | pastEnd
  /-- A piece of the text is taken that starts or ends inside a character. -/
  | badSlice
  /-- More levels of nesting are given back than are charged. -/
  | underflow
  /-- More calls are inside each other than there is room for. -/
  | tooManyCalls
  /-- A loop takes more turns than the text has bytes. -/
  | endless
  deriving DecidableEq, Repr

/-- Why reading stops early. -/
inductive Stop where
  | error (e : ParseError)
  | crash (c : Crash)
  deriving DecidableEq, Repr

/-- A computation with the cursor.  Where it has stopped does not matter. -/
abbrev Reading := StateT Cursor (Except Stop)

namespace Reading

/-- A fault at the byte `offset`. -/
def failAt {α : Type} (offset : Nat) (fault : ParseFault) : Reading α := throw (.error ⟨offset, fault⟩)

/-- A fault where the cursor is. -/
def fail {α : Type} (fault : ParseFault) : Reading α := do failAt (← get).place fault

/-- Repeats `body` until it gives a result, with so many turns at most. -/
def loop {α β : Type} (body : α → Reading (α ⊕ β)) : Nat → α → Reading β
  | 0, _ => throw (.crash .endless)
  | turns + 1, a => do
    match ← body a with
    | .inl a' => loop body turns a'
    | .inr b => return b

/-- Charges one level of nesting. -/
def deeper : Reading Unit := do
  modify fun s => { s with depth := s.depth + 1 }
  if maxDepth < (← get).depth then
    fail .tooDeep

/-- Gives levels of nesting back. -/
def ascend (levels : Nat) : Reading Unit := do
  if levels ≤ (← get).depth then
    modify fun s => { s with depth := s.depth - levels }
  else
    throw (.crash .underflow)

/-! ### Bytes -/

section Text

variable (text : List Char)

/-- More turns than any loop over the text takes. -/
def turns : Nat := Text.byteSize text + 1

/-- The byte at `n` is there, and the character with its code satisfies `p`. -/
def byteIs (p : Char → Bool) (n : Nat) : Bool := (Text.bytes text)[n]?.any fun b => p (Text.byteChar b)

/-- The next byte is there, and the character with its code satisfies `p`. -/
def nextIs (p : Char → Bool) : Reading Bool := do return byteIs text p (← get).place

/-- Puts the cursor at byte `n`. -/
def moveTo (n : Nat) : Reading Unit := do
  if n ≤ Text.byteSize text then
    modify fun s => { s with place := n }
  else
    throw (.crash .pastEnd)

/-- Goes on by one byte. -/
def advance : Reading Unit := do moveTo text ((← get).place + 1)

/-- Goes on by one byte that satisfies `p`, unless there is none. -/
def skipOne (p : Char → Bool) : Unit → Reading (Unit ⊕ Unit) := fun _ => do
  if ← nextIs text p then
    advance text
    return .inl ()
  else
    return .inr ()

/-- Goes on as long as the bytes satisfy `p`. -/
def skipWhile (p : Char → Bool) : Reading Unit := loop (skipOne text p) (turns text) ()

/-- Skips blanks, and then the character `c` if it comes next. -/
def eat (c : Char) : Reading Bool := do
  skipWhile text isGap
  if ← nextIs text (· == c) then
    advance text
    return true
  else
    return false

/-- The characters from byte `start` to the cursor. -/
def sliceFrom (start : Nat) : Reading (List Char) := do
  match Text.between? text start (← get).place with
  | some piece => return piece
  | none => throw (.crash .badSlice)

end Text

end Reading

open Reading

/-! ### Rules -/

/-- The reading functions. -/
inductive Rule where
  | sum
  | product
  | signed
  | power
  | primary
  | numeral
  | name
  deriving DecidableEq, Repr

namespace Rule

section Body

variable (text : List Char)

/-- The operator that comes next, if it is one of two. -/
def operator (first second : BinaryOp) : Reading (Option BinaryOp) := do
  if ← eat text first.symbol then
    return some first
  else if ← eat text second.symbol then
    return some second
  else
    return none

/-- Goes on behind `left` in a chain that has taken `links` operators. -/
def link (operand : Reading Expr) (first second : BinaryOp) :
    Expr × Nat → Reading ((Expr × Nat) ⊕ Expr) := fun (left, links) => do
  match ← operator text first second with
  | some op =>
    deeper
    let right ← operand
    return .inl (.binary op left right, links + 1)
  | none =>
    ascend links
    return .inr left

/-- Operands with operators of one rank between them. -/
def chain (operand : Reading Expr) (first second : BinaryOp) : Reading Expr := do
  let left ← operand
  loop (link text operand first second) (turns text) (left, 0)

/-- An exponent, unless there is no digit where it should be. -/
def exponent : Reading Unit := do
  if ← nextIs text fun c => c == 'e' || c == 'E' then
    let behind := (← get).place + 1
    let digits := if byteIs text (fun c => c == '+' || c == '-') behind then behind + 1 else behind
    if byteIs text Char.isDigit digits then
      moveTo text digits
      skipWhile text Char.isDigit

/-- A numeral. -/
def numeralBody : Reading Expr := do
  let start := (← get).place
  skipWhile text isNumeralChar
  exponent text
  let literal ← sliceFrom text start
  match Decimal.ofLiteral? literal with
  | some d => return .num d
  | none => failAt start (.invalidNumeral literal)

variable (call : Rule → Reading Expr)

/-- One more argument behind a comma. -/
def argument (args : List Expr) : Reading (List Expr ⊕ List Expr) := do
  if ← eat text ',' then
    let arg ← call sum
    return .inl (args ++ [arg])
  else
    return .inr args

/-- The end of a call. -/
def closeCall (args : List Expr) : Reading (List Expr) := do
  if ← eat text ')' then
    return args
  else
    fail .unclosedCall

/-- The arguments of a call and its closing parenthesis. -/
def arguments : Reading (List Expr) := do
  let first ← call sum
  let args ← loop (argument text call) (turns text) [first]
  closeCall text args

/-- A call of the function `name`, which starts at byte `start`, behind its opening parenthesis. -/
def callBody (start : Nat) (name : List Char) : Reading Expr := do
  match Builtin.ofName? (String.ofList name) with
  | none => failAt start (.unknownFunction name)
  | some f =>
    deeper
    let args ← arguments text call
    ascend 1
    if f.minArgs ≤ args.length ∧ args.length ≤ f.maxArgs then
      return .call f args
    else
      failAt start (.argumentCount name f.minArgs f.maxArgs args.length)

/-- A name, with its arguments if it is called. -/
def nameBody : Reading Expr := do
  let start := (← get).place
  skipWhile text isNameChar
  let name ← sliceFrom text start
  if ← eat text '(' then
    callBody text call start name
  else
    match named? name with
    | some e => return e
    | none => failAt start (.unknownName name)

/-- The operand of a sign or of `^`, which stands one level deeper. -/
def operand : Reading Expr := do
  deeper
  let e ← call signed
  ascend 1
  return e

/-- An operand with any number of signs before it. -/
def signedBody : Reading Expr := do
  if ← eat text '-' then
    return .neg (← operand call)
  else if ← eat text '+' then
    operand call
  else
    call power

/-- An operand, perhaps raised to a power. -/
def powerBody : Reading Expr := do
  let base ← call primary
  if ← eat text '^' then
    return .binary .pow base (← operand call)
  else
    return base

/-- A sum behind an opening parenthesis, and the closing one. -/
def parentheses : Reading Expr := do
  deeper
  let e ← call sum
  if ← eat text ')' then
    ascend 1
    return e
  else
    fail .unclosedParenthesis

/-- A numeral, a name, a call, or a sum in parentheses. -/
def primaryBody : Reading Expr := do
  skipWhile text isGap
  match (Text.bytes text)[(← get).place]? with
  | none => fail .unexpectedEnd
  | some b =>
    if Text.byteChar b == '(' then
      advance text
      parentheses text call
    else if isNumeralChar (Text.byteChar b) then
      call numeral
    else if isNameStart (Text.byteChar b) then
      call name
    else
      fail (.unexpectedByte b.toNat)

/-- What a reading function does, given what the others do. -/
def body : Rule → Reading Expr
  | sum => chain text (call product) .add .sub
  | product => chain text (call signed) .mul .div
  | signed => signedBody text call
  | power => powerBody text call
  | primary => primaryBody text call
  | numeral => numeralBody text
  | name => nameBody text call

end Body

/-- A reading function, when at most `room` calls may be inside each other. -/
def read (text : List Char) : Nat → Rule → Reading Expr
  | 0, _ => throw (.crash .tooManyCalls)
  | room + 1, rule => rule.body text (read text room)

/-- How many calls may be inside each other at nesting `depth`, the rule's own call among them. -/
def calls (rule : Rule) (depth : Nat) : Nat :=
  6 * (maxDepth - depth) +
    match rule with
    | sum => 6
    | product => 5
    | signed => 4
    | power => 3
    | primary => 2
    | numeral | name => 1

end Rule

/-! ### Whole texts -/

/-- How many calls are ever inside each other. -/
def maxCalls : Nat := 6 * (maxDepth + 1)

/-- The cursor is at the end of the text. -/
def atEnd (text : List Char) : Reading Bool := do return (← get).place == Text.byteSize text

/-- Nothing but blanks comes behind an expression. -/
def readEnd (text : List Char) (e : Expr) : Reading Expr := do
  skipWhile text isGap
  if ← atEnd text then
    return e
  else
    fail .trailingInput

/-- One expression from the cursor to the end of the text. -/
def readText (text : List Char) : Reading Expr := do
  skipWhile text isGap
  if ← atEnd text then
    fail .empty
  else
    readEnd text (← Rule.sum.read text maxCalls)

/-- Reads a text as one expression, byte by byte. -/
def compile (text : String) : Except Stop Expr := Prod.fst <$> readText text.toList ⟨0, 0⟩

example : compile "1 + é" = .error (.error ⟨4, .unexpectedByte 0xC3⟩) := by rfl

end FrameOverlay.Expr
