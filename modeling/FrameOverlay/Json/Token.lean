import FrameOverlay.Json.Numeral
import FrameOverlay.Json.Text

/-!
# JSON tokens

A text is cut into tokens whether or not it is JSON.  A token that is not well formed carries its
fault, which counts only once a reader comes to the token.

* `Json.Token` — a bracket, comma or colon, a word, a numeral, a string, or a stray character;
* `Json.scan` — the tokens of a text, without the blanks between them.
-/

namespace FrameOverlay.Json

/-- The two kinds of brackets. -/
inductive Bracket where
  | list
  | object
  deriving DecidableEq, Repr

/-- The three words. -/
inductive Word where
  | null
  | true
  | false
  deriving DecidableEq, Repr

namespace Word

/-- The letters of a word. -/
def letters : Word → List Char
  | null => ['n', 'u', 'l', 'l']
  | true => ['t', 'r', 'u', 'e']
  | false => ['f', 'a', 'l', 's', 'e']

/-- The word that starts with a letter. -/
def startingWith? (c : Char) : Option Word :=
  [null, true, false].find? fun w => w.letters.head? == some c

end Word

/-- A piece of a JSON text. -/
inductive Token where
  | opening (bracket : Bracket)
  | closing (bracket : Bracket)
  | comma
  | colon
  /-- A word, or what is wrong with it. -/
  | word (w : Word) (fault : Option Fault)
  | number (n : Numeral)
  | string (body : StringBody)
  | stray (c : Char)
  deriving DecidableEq, Repr

/-- Blanks between tokens. -/
def isGap (c : Char) : Bool := c == ' ' || c == '\t' || c == '\n' || c == '\r'

/-- Compares a text with the letters a word goes on with. -/
def wordFault? : List Char → List Char → Option Fault
  | [], _ => none
  | _ :: _, [] => some .truncated
  | l :: letters, c :: cs => if l = c then wordFault? letters cs else some .malformed

/-- The token of a single character. -/
def mark? : Char → Option Token
  | '[' => some (.opening .list)
  | ']' => some (.closing .list)
  | '{' => some (.opening .object)
  | '}' => some (.closing .object)
  | ',' => some .comma
  | ':' => some .colon
  | _ => none

/-- The token that starts with `c`, and what follows it. -/
def tokenAt (c : Char) (cs : List Char) : Token × List Char :=
  match mark? c with
  | some t => (t, cs)
  | none =>
    if c == '"' then
      let (body, rest) := StringBody.scan cs
      (.string body, rest)
    else if c.isDigit || c == '-' then
      let (n, rest) := Numeral.scan (c :: cs)
      (.number n, rest)
    else
      match Word.startingWith? c with
      | some w =>
        let others := w.letters.drop 1
        (.word w (wordFault? others cs), cs.drop others.length)
      | none => (.stray c, cs)

theorem length_tokenAt_le (c : Char) (cs : List Char) :
    (tokenAt c cs).2.length ≤ cs.length := by
  unfold tokenAt
  split
  · exact Nat.le_refl _
  split
  · exact StringBody.length_scan_le cs
  split
  · next start =>
    have := Numeral.length_scan_lt c cs (by simpa using start)
    simp only [List.length_cons] at this
    exact Nat.le_of_lt_succ this
  split
  · simp
  · exact Nat.le_refl _

/-- The tokens of a text. -/
def scan : List Char → List Token
  | [] => []
  | c :: cs =>
    if isGap c then
      scan cs
    else
      let token := tokenAt c cs
      token.1 :: scan token.2
termination_by cs => cs.length
decreasing_by
  · simp only [List.length_cons]
    omega
  · have := length_tokenAt_le c cs
    simp only [List.length_cons]
    omega

example : scan "[1, null]".toList =
    [.opening .list, .number ⟨false, ['1'], none, none, false⟩, .comma, .word .null none,
      .closing .list] := by
  decide +kernel

end FrameOverlay.Json
