import FrameOverlay.Json.Token

/-!
# The grammar of JSON

What a JSON text is, character by character, without saying how it is read.

* `Gap`, `Spaced` — the blanks that may stand between tokens, and a text with blanks around it;
* `IsString`, `Spells` — a string as it may be written, and what it stands for;
* `IsNumber` — a numeral as it may be written;
* `Bracket.enclosed` — parts in brackets, with commas between them;
* `IsValue`, `Member.WellFormed` — a value of any kind, with blanks wherever they may stand; a member with such a value.

A string may be written with escapes that stand for no character: half of a pair without the other half.  It is
a string then, but spells nothing.
-/

namespace FrameOverlay.Json

/-! ### Blanks -/

/-- Blanks between two tokens, or none. -/
abbrev Gap := { cs : List Char // ∀ c ∈ cs, isGap c = true }

/-- No blanks. -/
def Gap.none : Gap := ⟨[], fun _ h => absurd h List.not_mem_nil⟩

/-- A text and the blanks around it. -/
structure Spaced where
  before : Gap
  text : List Char
  behind : Gap

/-- The characters of a text and of the blanks around it. -/
def Spaced.chars (s : Spaced) : List Char := s.before.1 ++ s.text ++ s.behind.1

/-! ### Strings -/

/-- The letters that may stand behind a backslash for one character. -/
def shortEscapes : List (Char × Char) :=
  [('"', '"'), ('\\', '\\'), ('/', '/'), ('b', '\x08'), ('f', '\x0c'), ('n', '\n'), ('r', '\r'),
    ('t', '\t')]

/-- The ways to write a piece of a string. -/
inductive Piece.Written : Piece → List Char → Prop where
  /-- A character stands for itself, unless it is a quote, a backslash or a control character. -/
  | plain {c : Char} (quote : c ≠ '"') (backslash : c ≠ '\\') (printable : 0x20 ≤ c.toNat) :
      Written (.char c) [c]
  | short {letter c : Char} (listed : (letter, c) ∈ shortEscapes) :
      Written (.char c) ['\\', letter]
  /-- Four hexadecimal digits, most significant first. -/
  | unit {digits : List Char} {values : List Nat} (four : digits.length = 4)
      (read : digits.mapM hexValue? = some values) :
      Written (.unit (values.foldl (fun n v => 16 * n + v) 0)) ('\\' :: 'u' :: digits)

/-- Pieces as they are written behind an opening quote, and the closing quote. -/
inductive StringTail : List Piece → List Char → Prop where
  | closed : StringTail [] ['"']
  | piece {p : Piece} {ps : List Piece} {front cs : List Char} (first : p.Written front)
      (others : StringTail ps cs) : StringTail (p :: ps) (front ++ cs)

/-- The text is a string of the pieces `ps`. -/
def StringOf (ps : List Piece) (text : List Char) : Prop :=
  ∃ cs, text = '"' :: cs ∧ StringTail ps cs

/-- The text is a string. -/
def IsString (text : List Char) : Prop := ∃ ps, StringOf ps text

/-- The characters that pieces stand for.  A code unit is a character of its own, or a leading one
and a trailing one are a character together. -/
inductive Denotes : List Piece → List Char → Prop where
  | nil : Denotes [] []
  | char (c : Char) {ps : List Piece} {cs : List Char} (others : Denotes ps cs) :
      Denotes (.char c :: ps) (c :: cs)
  | unit {n : Nat} {ps : List Piece} {cs : List Char} (leading : StringBody.isLeading n = false)
      (trailing : StringBody.isTrailing n = false) (others : Denotes ps cs) :
      Denotes (.unit n :: ps) (Char.ofNat n :: cs)
  | pair {n m : Nat} {ps : List Piece} {cs : List Char} (leading : StringBody.isLeading n = true)
      (trailing : StringBody.isTrailing m = true) (others : Denotes ps cs) :
      Denotes (.unit n :: .unit m :: ps) (StringBody.combine n m :: cs)

/-- The text is a string that stands for `s`. -/
def Spells (text : List Char) (s : String) : Prop :=
  ∃ ps, StringOf ps text ∧ Denotes ps s.toList

/-! ### Numbers -/

/-- Digits, and at least one of them. -/
def IsDigits (cs : List Char) : Prop := cs ≠ [] ∧ ∀ c ∈ cs, c.isDigit = true

/-- The whole part of a number: no zero in front of other digits. -/
def IsWhole (cs : List Char) : Prop := IsDigits cs ∧ (cs.head? = some '0' → cs = ['0'])

/-- A fraction or none. -/
inductive IsFraction : List Char → Prop where
  | none : IsFraction []
  | some {digits : List Char} (decimal : IsDigits digits) : IsFraction ('.' :: digits)

/-- An exponent or none. -/
inductive IsExponent : List Char → Prop where
  | none : IsExponent []
  | some {letter : Char} {sign digits : List Char} (marked : letter = 'e' ∨ letter = 'E')
      (signed : sign = [] ∨ sign = ['+'] ∨ sign = ['-']) (decimal : IsDigits digits) :
      IsExponent (letter :: (sign ++ digits))

/-- The text is a number. -/
inductive IsNumber : List Char → Prop where
  | intro {sign whole fraction exponent : List Char} (signed : sign = [] ∨ sign = ['-'])
      (integral : IsWhole whole) (fractional : IsFraction fraction) (scaled : IsExponent exponent) :
      IsNumber (sign ++ (whole ++ (fraction ++ exponent)))

/-! ### Lists and objects -/

namespace Bracket

/-- The bracket that opens. -/
def opens : Bracket → Char
  | list => '['
  | object => '{'

/-- The bracket that closes. -/
def closes : Bracket → Char
  | list => ']'
  | object => '}'

/-- Parts in brackets with commas between them.  Where there are no parts there may be blanks. -/
def enclosed (b : Bracket) (gap : Gap) (parts : List (List Char)) : List Char :=
  b.opens :: ((if parts.isEmpty then gap.1 else [','].intercalate parts) ++ [b.closes])

end Bracket

/-- A member of an object. -/
structure Member where
  key : Spaced
  value : Spaced

/-- The characters of a member. -/
def Member.chars (m : Member) : List Char := m.key.chars ++ ':' :: m.value.chars

/-- An object of the given members, with `gap` inside if there are none. -/
def objectText (gap : Gap) (members : List Member) : List Char :=
  Bracket.object.enclosed gap (members.map Member.chars)

/-- The text is a value. -/
inductive IsValue : List Char → Prop where
  | word (w : Word) : IsValue w.letters
  | number {cs : List Char} (h : IsNumber cs) : IsValue cs
  | string {cs : List Char} (h : IsString cs) : IsValue cs
  | list (gap : Gap) (items : List Spaced) (values : ∀ i ∈ items, IsValue i.text) :
      IsValue (Bracket.list.enclosed gap (items.map Spaced.chars))
  | object (gap : Gap) (members : List Member) (keys : ∀ m ∈ members, IsString m.key.text)
      (values : ∀ m ∈ members, IsValue m.value.text) : IsValue (objectText gap members)

/-- The member has a string for a key, and a value of any kind. -/
structure Member.WellFormed (m : Member) : Prop where
  key : IsString m.key.text
  value : IsValue m.value.text

end FrameOverlay.Json
