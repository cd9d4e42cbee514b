import FrameOverlay.Expr.Parser

/-!
# The grammar of position expressions

What a text means, without saying how it is read.

* `Token.IsLexeme`, `Munch` — the pieces a text may hold, and how a text is cut into them: blanks are left
  out, and no piece could be longer than it is;
* `Phrase`, `Derives` — what can be read of a list of tokens, and with which value;
* `Denotes` — a text stands for an expression.

A chain of sums or products is derived from the left, so that operators of one rank associate to the left;
the operand of `^` and of a sign is derived on its own, so that `^` associates to the right and binds tighter
than a sign before it.  A derivation counts the levels of nesting that are open around each phrase: one for a
parenthesis, a call, a sign and a `^`, and one for each operator that a chain has taken before.
-/

namespace FrameOverlay.Expr

/-! ### Pieces of a text -/

/-- A sign or none. -/
def IsSign (sign : List Char) : Prop := sign = [] ∨ sign = ['+'] ∨ sign = ['-']

/-- The exponent of a numeral: a letter, a sign or none, and digits. -/
inductive IsExponent : List Char → Prop where
  | intro {letter : Char} {sign digits : List Char} (marked : letter = 'e' ∨ letter = 'E')
      (signed : IsSign sign) (some : digits ≠ [])
      (decimal : ∀ c ∈ digits, c.isDigit = true) : IsExponent (letter :: (sign ++ digits))

/-- The pieces that a text may hold. -/
inductive Token.IsLexeme : Token → Prop where
  /-- Digits and points, and perhaps an exponent. -/
  | numeral {body exponent : List Char} (some : body ≠ []) (run : ∀ c ∈ body, isNumeralChar c = true)
      (scaled : exponent = [] ∨ IsExponent exponent) : IsLexeme (.numeral (body ++ exponent))
  | name {first : Char} {rest : List Char} (start : isNameStart first = true)
      (run : ∀ c ∈ rest, isNameChar c = true) : IsLexeme (.name (first :: rest))
  | operator (op : BinaryOp) : IsLexeme (.operator op)
  | opening : IsLexeme .opening
  | closing : IsLexeme .closing
  | comma : IsLexeme .comma
  /-- A character that is no blank and starts no other piece. -/
  | stray {c : Char} (blank : isGap c = false) (numeral : isNumeralChar c = false)
      (name : isNameStart c = false) (mark : marks.lookup c = none) : IsLexeme (.stray c)

/-- A text is cut into the longest pieces from left to right, with blanks left out. -/
inductive Munch : List Char → List Token → Prop where
  | done : Munch [] []
  | gap {c : Char} {cs : List Char} {ts : List Token} (gap : isGap c = true) (rest : Munch cs ts) :
      Munch (c :: cs) ts
  | token {t : Token} {cs : List Char} {ts : List Token} (lexeme : t.IsLexeme)
      (longest : ∀ u : Token, u.IsLexeme → u.text <+: t.text ++ cs → u.text.length ≤ t.text.length)
      (rest : Munch cs ts) : Munch (t.text ++ cs) (t :: ts)

/-! ### Derivations -/

/-- What can be read, with its value. -/
inductive Phrase where
  /-- A sum that has taken so many operators. -/
  | sum (taken : Nat) (value : Expr)
  /-- A product that has taken so many operators. -/
  | product (taken : Nat) (value : Expr)
  /-- An operand with any number of signs before it. -/
  | signed (value : Expr)
  /-- An operand, perhaps raised to a power. -/
  | power (value : Expr)
  | primary (value : Expr)
  /-- The arguments of a call. -/
  | arguments (values : List Expr)

/-- Inside `depth` open levels, the tokens read as a phrase. -/
inductive Derives : (depth : Nat) → Phrase → List Token → Prop where
  /-- Rule `sum := product (('+' | '-') product)*`. -/
  | term {d k : Nat} {e : Expr} {ts : List Token} (first : Derives d (.product k e) ts) :
      Derives d (.sum 0 e) ts
  | terms {d j k : Nat} {op : BinaryOp} {l r : Expr} {ts us : List Token}
      (left : Derives d (.sum k l) ts) (sign : op = .add ∨ op = .sub) (room : d + k < maxDepth)
      (right : Derives (d + k + 1) (.product j r) us) :
      Derives d (.sum (k + 1) (.binary op l r)) (ts ++ .operator op :: us)
  /-- Rule `product := signed (('*' | '/') signed)*`. -/
  | factor {d : Nat} {e : Expr} {ts : List Token} (first : Derives d (.signed e) ts) :
      Derives d (.product 0 e) ts
  | factors {d k : Nat} {op : BinaryOp} {l r : Expr} {ts us : List Token}
      (left : Derives d (.product k l) ts) (sign : op = .mul ∨ op = .div) (room : d + k < maxDepth)
      (right : Derives (d + k + 1) (.signed r) us) :
      Derives d (.product (k + 1) (.binary op l r)) (ts ++ .operator op :: us)
  /-- Rule `signed := ('+' | '-') signed | power`. -/
  | minus {d : Nat} {e : Expr} {ts : List Token} (room : d < maxDepth)
      (operand : Derives (d + 1) (.signed e) ts) : Derives d (.signed (.neg e)) (.operator .sub :: ts)
  | plus {d : Nat} {e : Expr} {ts : List Token} (room : d < maxDepth)
      (operand : Derives (d + 1) (.signed e) ts) : Derives d (.signed e) (.operator .add :: ts)
  | unsigned {d : Nat} {e : Expr} {ts : List Token} (power : Derives d (.power e) ts) :
      Derives d (.signed e) ts
  /-- Rule `power := primary ('^' signed)?`. -/
  | plain {d : Nat} {e : Expr} {ts : List Token} (primary : Derives d (.primary e) ts) :
      Derives d (.power e) ts
  | raised {d : Nat} {base exponent : Expr} {ts us : List Token}
      (primary : Derives d (.primary base) ts) (room : d < maxDepth)
      (operand : Derives (d + 1) (.signed exponent) us) :
      Derives d (.power (.binary .pow base exponent)) (ts ++ .operator .pow :: us)
  /-- Rule `primary := numeral | name | name '(' sum (',' sum)* ')' | '(' sum ')'`. -/
  | numeral {d : Nat} {text : List Char} {value : Decimal} (valid : Decimal.ofLiteral? text = some value) :
      Derives d (.primary (.num value)) [.numeral text]
  | named {d : Nat} {name : List Char} {v : Variable}
      (known : Variable.ofName? (String.ofList name) = some v) :
      Derives d (.primary (.var v)) [.name name]
  | constant {d : Nat} {name : List Char} {c : Constant}
      (known : Constant.ofName? (String.ofList name) = some c) :
      Derives d (.primary (.const c)) [.name name]
  | call {d : Nat} {name : List Char} {f : Builtin} {args : List Expr} {ts : List Token}
      (known : Builtin.ofName? (String.ofList name) = some f) (room : d < maxDepth)
      (arguments : Derives (d + 1) (.arguments args) ts) (least : f.minArgs ≤ args.length)
      (most : args.length ≤ f.maxArgs) :
      Derives d (.primary (.call f args)) (.name name :: .opening :: (ts ++ [.closing]))
  | parentheses {d k : Nat} {e : Expr} {ts : List Token} (room : d < maxDepth)
      (inside : Derives (d + 1) (.sum k e) ts) :
      Derives d (.primary e) (.opening :: (ts ++ [.closing]))
  | argument {d k : Nat} {e : Expr} {ts : List Token} (last : Derives d (.sum k e) ts) :
      Derives d (.arguments [e]) ts
  | arguments {d k : Nat} {e : Expr} {es : List Expr} {ts us : List Token}
      (first : Derives d (.sum k e) ts) (others : Derives d (.arguments es) us) :
      Derives d (.arguments (e :: es)) (ts ++ .comma :: us)

/-- An operand by itself is a sum. -/
theorem Derives.alone {d : Nat} {e : Expr} {ts : List Token} (h : Derives d (.primary e) ts) :
    Derives d (.sum 0 e) ts := .term (.factor (.unsigned (.plain h)))

/-- A text stands for an expression: its pieces read as a sum with this value. -/
def Denotes (text : String) (e : Expr) : Prop :=
  ∃ ts, Munch text.toList ts ∧ ∃ taken, Derives 0 (.sum taken e) ts

end FrameOverlay.Expr
