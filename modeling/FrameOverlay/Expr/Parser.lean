import FrameOverlay.Expr.Basic
import FrameOverlay.Expr.Token

/-!
# Reading position expressions

Recursive descent over the tokens of a text:

    sum     := product (('+' | '-') product)*
    product := signed (('*' | '/') signed)*
    signed  := ('+' | '-') signed | power
    power   := primary ('^' signed)?
    primary := numeral | name | name '(' sum (',' sum)* ')' | '(' sum ')'

* `Expr.ParseFault`, `Expr.ParseError` — what is wrong, and at which byte;
* `Expr.maxDepth` — how deep an expression may be nested; one level is charged for an open
  parenthesis or call, for a sign or `^` whose operand is being read, and for every operator that
  a running chain of sums or products has already taken;
* `Expr.parseSum` and the four functions below it — each returns what it read and the tokens
  that follow, of which there are fewer than before;
* `Expr.parse` — reads a whole text.
-/

namespace FrameOverlay.Expr

/-! ### Errors -/

/-- What is wrong with a text. -/
inductive ParseFault where
  | empty
  | trailingInput
  | tooDeep
  | unexpectedEnd
  | unclosedParenthesis
  /-- The first byte of the character that cannot start an operand. -/
  | unexpectedByte (byte : Nat)
  | invalidNumeral (text : List Char)
  | unknownFunction (name : List Char)
  | unclosedCall
  | argumentCount (name : List Char) (least most given : Nat)
  | unknownName (name : List Char)
  deriving DecidableEq, Repr

/-- Wording of a fault.  A byte is shown as the character with its code. -/
def ParseFault.message : ParseFault → String
  | empty => "empty expression"
  | trailingInput => "unexpected trailing input"
  | tooDeep => "expression nested too deeply"
  | unexpectedEnd => "unexpected end of expression"
  | unclosedParenthesis => "expected ')'"
  | unexpectedByte byte => s!"unexpected character '{Char.ofNat byte}'"
  | invalidNumeral text => s!"invalid number '{String.ofList text}'"
  | unknownFunction name => s!"unknown function '{String.ofList name}'"
  | unclosedCall => "expected ')' or ','"
  | argumentCount name least most given =>
    s!"'{String.ofList name}' takes {least}..={most} arguments, got {given}"
  | unknownName name => s!"undefined constant or missing '(' in '{String.ofList name}'"

/-- A fault and the byte of the text it was found at. -/
structure ParseError where
  offset : Nat
  fault : ParseFault
  deriving DecidableEq, Repr

/-- Wording of an error, with its place. -/
def ParseError.message (e : ParseError) : String :=
  s!"{e.fault.message} at byte {e.offset}"

/-! ### Tokens ahead -/

/-- Nesting limit. -/
def maxDepth : Nat := 100

/-- Where the tokens `ts` start in a text of `size` bytes. -/
def offsetOf (size : Nat) : List Located → Nat
  | [] => size
  | t :: _ => t.start

/-- One more level of nesting on top of `depth`, charged at byte `offset`. -/
def descend (offset depth : Nat) : Except ParseError Nat :=
  if depth < maxDepth then .ok (depth + 1) else .error ⟨offset, .tooDeep⟩

/-- The error of a character that cannot start an operand. -/
def unexpected (start : Nat) (c : Char) : ParseError :=
  ⟨start, .unexpectedByte (Text.firstByte c)⟩

/-- Operators of a sum. -/
def sumOperator? : Token → Option BinaryOp
  | .operator .add => some .add
  | .operator .sub => some .sub
  | _ => none

/-- Operators of a product. -/
def productOperator? : Token → Option BinaryOp
  | .operator .mul => some .mul
  | .operator .div => some .div
  | _ => none

/-- A name that is not called: a variable or a constant. -/
def named? (name : List Char) : Option Expr :=
  match Variable.ofName? (String.ofList name) with
  | some v => some (.var v)
  | none => (Constant.ofName? (String.ofList name)).map .const

/-! ### Descent -/

/-- The outcome of reading a part of `ts`: its value and the tokens behind it. -/
abbrev Parsed (α : Type) (ts : List Located) : Type :=
  Except ParseError (α × { rest : List Located // rest.length < ts.length })

/-- The outcome of reading on from `ts`, perhaps by no token at all. -/
abbrev Extended (α : Type) (ts : List Located) : Type :=
  Except ParseError (α × { rest : List Located // rest.length ≤ ts.length })

mutual

/-- A sum at nesting `depth`, in a text of `size` bytes. -/
def parseSum (size depth : Nat) (ts : List Located) : Parsed Expr ts := do
  let (first, ⟨rest, _⟩) ← parseProduct size depth ts
  let (e, ⟨rest', _⟩) ← parseTerms size depth first rest
  return (e, ⟨rest', by omega⟩)
termination_by (ts.length, 5)

/-- The further terms of a sum that starts with `left`. -/
def parseTerms (size depth : Nat) (left : Expr) (ts : List Located) : Extended Expr ts :=
  match ts with
  | [] => .ok (left, ⟨[], by omega⟩)
  | t :: rest =>
    match sumOperator? t.token with
    | none => .ok (left, ⟨t :: rest, by omega⟩)
    | some op => do
      let depth ← descend (t.start + 1) depth
      let (right, ⟨rest', h⟩) ← parseProduct size depth rest
      let (e, ⟨rest'', h'⟩) ← parseTerms size depth (.binary op left right) rest'
      return (e, ⟨rest'', by simp only [List.length_cons]; omega⟩)
termination_by (ts.length, 0)

/-- A product. -/
def parseProduct (size depth : Nat) (ts : List Located) : Parsed Expr ts := do
  let (first, ⟨rest, _⟩) ← parseSigned size depth ts
  let (e, ⟨rest', _⟩) ← parseFactors size depth first rest
  return (e, ⟨rest', by omega⟩)
termination_by (ts.length, 4)

/-- The further factors of a product that starts with `left`. -/
def parseFactors (size depth : Nat) (left : Expr) (ts : List Located) : Extended Expr ts :=
  match ts with
  | [] => .ok (left, ⟨[], by omega⟩)
  | t :: rest =>
    match productOperator? t.token with
    | none => .ok (left, ⟨t :: rest, by omega⟩)
    | some op => do
      let depth ← descend (t.start + 1) depth
      let (right, ⟨rest', h⟩) ← parseSigned size depth rest
      let (e, ⟨rest'', h'⟩) ← parseFactors size depth (.binary op left right) rest'
      return (e, ⟨rest'', by simp only [List.length_cons]; omega⟩)
termination_by (ts.length, 0)

/-- An operand with any number of signs before it. -/
def parseSigned (size depth : Nat) (ts : List Located) : Parsed Expr ts :=
  match ts with
  | ⟨start, .operator .sub⟩ :: rest => do
    let depth ← descend (start + 1) depth
    let (e, ⟨rest', _⟩) ← parseSigned size depth rest
    return (.neg e, ⟨rest', by simp only [List.length_cons]; omega⟩)
  | ⟨start, .operator .add⟩ :: rest => do
    let depth ← descend (start + 1) depth
    let (e, ⟨rest', _⟩) ← parseSigned size depth rest
    return (e, ⟨rest', by simp only [List.length_cons]; omega⟩)
  | ts => parsePower size depth ts
termination_by (ts.length, 3)

/-- An operand, perhaps raised to a power. -/
def parsePower (size depth : Nat) (ts : List Located) : Parsed Expr ts := do
  let (base, ⟨rest, h⟩) ← parsePrimary size depth ts
  match rest, h with
  | ⟨start, .operator .pow⟩ :: rest', h => do
    let depth ← descend (start + 1) depth
    let (exponent, ⟨rest'', h'⟩) ← parseSigned size depth rest'
    return (.binary .pow base exponent,
      ⟨rest'', by simp only [List.length_cons] at h; omega⟩)
  | rest, h => return (base, ⟨rest, h⟩)
termination_by (ts.length, 2)
decreasing_by
  · omega
  · simp only [List.length_cons] at h
    omega

/-- A numeral, a name, a call, or a sum in parentheses. -/
def parsePrimary (size depth : Nat) (ts : List Located) : Parsed Expr ts :=
  match ts with
  | [] => .error ⟨size, .unexpectedEnd⟩
  | ⟨start, .numeral text⟩ :: rest =>
    match Decimal.ofLiteral? text with
    | some d => .ok (.num d, ⟨rest, by simp only [List.length_cons]; omega⟩)
    | none => .error ⟨start, .invalidNumeral text⟩
  | ⟨start, .name name⟩ :: ⟨bracket, .opening⟩ :: rest =>
    match Builtin.ofName? (String.ofList name) with
    | none => .error ⟨start, .unknownFunction name⟩
    | some f => do
      let depth ← descend (bracket + 1) depth
      let (args, ⟨rest', h⟩) ← parseArguments size depth rest
      if f.minArgs ≤ args.length ∧ args.length ≤ f.maxArgs then
        return (.call f args, ⟨rest', by simp only [List.length_cons]; omega⟩)
      else
        throw ⟨start, .argumentCount name f.minArgs f.maxArgs args.length⟩
  | ⟨start, .name name⟩ :: rest =>
    match named? name with
    | some e => .ok (e, ⟨rest, by simp only [List.length_cons]; omega⟩)
    | none => .error ⟨start, .unknownName name⟩
  | ⟨start, .opening⟩ :: rest => do
    let depth ← descend (start + 1) depth
    let (e, ⟨rest', h⟩) ← parseSum size depth rest
    match rest', h with
    | ⟨_, .closing⟩ :: rest'', h =>
      return (e, ⟨rest'', by simp only [List.length_cons] at h ⊢; omega⟩)
    | rest', _ => throw ⟨offsetOf size rest', .unclosedParenthesis⟩
  | ⟨start, .operator op⟩ :: _ => .error (unexpected start op.symbol)
  | ⟨start, .closing⟩ :: _ => .error (unexpected start ')')
  | ⟨start, .comma⟩ :: _ => .error (unexpected start ',')
  | ⟨start, .stray c⟩ :: _ => .error (unexpected start c)
termination_by (ts.length, 1)

/-- The arguments of a call, behind its opening parenthesis, and the closing one. -/
def parseArguments (size depth : Nat) (ts : List Located) : Parsed (List Expr) ts := do
  let (first, ⟨rest, h⟩) ← parseSum size depth ts
  match rest, h with
  | ⟨_, .comma⟩ :: rest', h => do
    let (others, ⟨rest'', h'⟩) ← parseArguments size depth rest'
    return (first :: others, ⟨rest'', by simp only [List.length_cons] at h; omega⟩)
  | ⟨_, .closing⟩ :: rest', h =>
    return ([first], ⟨rest', by simp only [List.length_cons] at h; omega⟩)
  | rest, _ => throw ⟨offsetOf size rest, .unclosedCall⟩
termination_by (ts.length, 6)
decreasing_by
  · omega
  · simp only [List.length_cons] at h
    omega

end

/-! ### Whole texts -/

/-- Reads a text as one expression. -/
def parse (text : String) : Except ParseError Expr := do
  let chars := text.toList
  let size := Text.byteSize chars
  match scan chars with
  | [] => throw ⟨size, .empty⟩
  | ts => do
    let (e, ⟨rest, _⟩) ← parseSum size 0 ts
    match rest with
    | [] => return e
    | t :: _ => throw ⟨t.start, .trailingInput⟩

end FrameOverlay.Expr
