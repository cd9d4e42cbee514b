import FrameOverlay.Json.Fault
import FrameOverlay.Text.Bytes

/-!
# JSON strings

* `Json.quoted` — a string as it is written;
* `Json.Piece` — a character of a string, or half of one given as a code unit;
* `Json.StringBody.scan` — the pieces up to the closing quote, and what follows;
* `Json.StringBody.text` — the string the pieces stand for.

Characters outside the first 65536 can be given as two code units, a leading and a trailing one;
a code unit of these that stands alone is no character.
-/

namespace FrameOverlay.Json

/-! ### Writing -/

/-- Lowercase digits to base sixteen, four of them. -/
def fourDigits (n : Nat) : List Char :=
  [n / 0x1000 % 16, n / 0x100 % 16, n / 0x10 % 16, n % 16].map Nat.digitChar

/-- One character of a written string: quotes and backslashes take a backslash, control
characters a letter of their own or their code. -/
def escaped (c : Char) : List Char :=
  if c == '"' || c == '\\' then ['\\', c]
  else if c == '\x08' then ['\\', 'b']
  else if c == '\t' then ['\\', 't']
  else if c == '\n' then ['\\', 'n']
  else if c == '\x0c' then ['\\', 'f']
  else if c == '\r' then ['\\', 'r']
  else if c.toNat < 0x20 then ['\\', 'u'] ++ fourDigits c.toNat
  else [c]

/-- A string in quotes. -/
def quoted (s : String) : String :=
  String.ofList ('"' :: s.toList.flatMap escaped ++ ['"'])

/-! ### Scanning -/

/-- A part of a string as it was read. -/
inductive Piece where
  | char (c : Char)
  /-- A code unit given by four hexadecimal digits. -/
  | unit (value : Nat)
  deriving DecidableEq, Repr

/-- A string behind its opening quote. -/
structure StringBody where
  pieces : List Piece
  /-- What came instead of the closing quote. -/
  fault : Option Fault
  deriving DecidableEq, Repr

/-- Value of a hexadecimal digit of either case. -/
def hexValue? (c : Char) : Option Nat :=
  if c.isDigit then some (c.toNat - '0'.toNat)
  else if 'a' ≤ c ∧ c ≤ 'f' then some (c.toNat - 'a'.toNat + 10)
  else if 'A' ≤ c ∧ c ≤ 'F' then some (c.toNat - 'A'.toNat + 10)
  else none

/-- The code unit whose four digits stand at the front.  Fewer than four bytes before the end of
the text may have been cut off. -/
def codeUnit (cs : List Char) : Except Fault Nat :=
  let digits := cs.take 4
  if Text.byteSize digits < 4 then
    .error .truncated
  else
    match digits.mapM hexValue? with
    | some values => .ok (values.foldl (fun n v => 16 * n + v) 0)
    | none => .error .malformed

/-- What an escape stands for, and the number of characters behind the backslash it takes. -/
def escape : List Char → Except Fault (Piece × Nat)
  | [] => .error .truncated
  | 'u' :: cs => do return (.unit (← codeUnit cs), 5)
  | c :: _ =>
    match c with
    | '"' | '\\' | '/' => .ok (.char c, 1)
    | 'b' => .ok (.char '\x08', 1)
    | 'f' => .ok (.char '\x0c', 1)
    | 'n' => .ok (.char '\n', 1)
    | 'r' => .ok (.char '\r', 1)
    | 't' => .ok (.char '\t', 1)
    | _ => .error .malformed

namespace StringBody

/-- One more piece in front. -/
def add (piece : Piece) (b : StringBody) : StringBody :=
  { b with pieces := piece :: b.pieces }

/-- A string up to its closing quote, and what follows; nothing follows a string that is not
closed.  Control characters must be escaped. -/
def scan : List Char → StringBody × List Char
  | [] => (⟨[], some .truncated⟩, [])
  | '"' :: cs => (⟨[], none⟩, cs)
  | '\\' :: cs =>
    match escape cs with
    | .error f => (⟨[], some f⟩, [])
    | .ok (piece, used) =>
      let (body, rest) := scan (cs.drop used)
      (body.add piece, rest)
  | c :: cs =>
    if c.toNat < 0x20 then
      (⟨[], some .malformed⟩, [])
    else
      let (body, rest) := scan cs
      (body.add (.char c), rest)
termination_by cs => cs.length
decreasing_by
  · simp only [List.length_cons, List.length_drop]
    omega
  · simp only [List.length_cons]
    omega

theorem length_scan_le (cs : List Char) : (scan cs).2.length ≤ cs.length := by
  fun_induction scan cs with
  | case1 => exact Nat.le_refl _
  | case2 cs => exact Nat.le_succ _
  | case3 cs f h => exact Nat.zero_le _
  | case4 cs piece used h body rest scanned ih =>
    simp only [scanned, List.length_drop] at ih
    simp only [List.length_cons]
    omega
  | case5 c cs h₁ h₂ h₃ => exact Nat.zero_le _
  | case6 c cs h₁ h₂ h₃ body rest scanned ih =>
    simp only [scanned] at ih
    simp only [List.length_cons]
    omega

/-! ### Text -/

/-- The code unit is the first half of a character. -/
def isLeading (unit : Nat) : Bool := 0xD800 ≤ unit && unit < 0xDC00

/-- The code unit is the second half of a character. -/
def isTrailing (unit : Nat) : Bool := 0xDC00 ≤ unit && unit < 0xE000

/-- The character two code units stand for. -/
def combine (leading trailing : Nat) : Char :=
  Char.ofNat (0x10000 + (leading - 0xD800) * 0x400 + (trailing - 0xDC00))

/-- The characters that `pieces` stand for, with `fault` behind them in place of the closing
quote. -/
def characters (fault : Option Fault) : List Piece → Except Fault (List Char)
  | [] => match fault with
    | some f => .error f
    | none => .ok []
  | .char c :: pieces => return c :: (← characters fault pieces)
  | .unit n :: pieces =>
    if isTrailing n then
      .error .malformed
    else if isLeading n then
      match pieces with
      | [] => .error (fault.getD .malformed)
      | .char _ :: _ => .error .malformed
      | .unit m :: pieces =>
        if isTrailing m then
          return combine n m :: (← characters fault pieces)
        else
          .error .malformed
    else
      return Char.ofNat n :: (← characters fault pieces)

/-- The string that was read, or its first fault. -/
def text (b : StringBody) : Except Fault String :=
  return String.ofList (← characters b.fault b.pieces)

end StringBody

end FrameOverlay.Json
