/-!
# Text of records

How values are shown for inspection, on one line:

* `Text.record` — `Name { field: value, field: value }`;
* `Text.tuple`, `Text.list`, `Text.option`, `Text.variant` — the other shapes;
* `Text.quoted` — a string in double quotes;
* `Text.hexadecimal` — a device handle.
-/

namespace FrameOverlay.Text

/-- A name and its fields in braces. -/
def record (name : String) (fields : List (String × String)) : String :=
  let body := ", ".intercalate (fields.map fun (field, value) => field ++ ": " ++ value)
  name ++ " \x7b " ++ body ++ " \x7d"

/-- Values in parentheses. -/
def tuple (values : List String) : String :=
  "(" ++ ", ".intercalate values ++ ")"

/-- Values in brackets. -/
def list (values : List String) : String :=
  "[" ++ ", ".intercalate values ++ "]"

/-- A name applied to one value. -/
def variant (name value : String) : String :=
  name ++ tuple [value]

/-- A value that may be missing. -/
def option : Option String → String
  | none => "None"
  | some value => variant "Some" value

/-- A truth value. -/
def bool (b : Bool) : String :=
  if b then "true" else "false"

/-- Lowercase digits to base sixteen. -/
def hexDigits (n : Nat) : List Char := Nat.toDigits 16 n

/-- A handle, without padding. -/
def hexadecimal (n : Nat) : String :=
  String.ofList ('0' :: 'x' :: hexDigits n)

/-- One character of a quoted string.  Quotes and backslashes take a backslash, control
characters a name or their code. -/
def quotedChar (c : Char) : List Char :=
  if c == '"' || c == '\\' then ['\\', c]
  else if c == '\t' then ['\\', 't']
  else if c == '\n' then ['\\', 'n']
  else if c == '\r' then ['\\', 'r']
  else if c == '\x00' then ['\\', '0']
  else if c.toNat < 0x20 || c.toNat == 0x7F then
    ['\\', 'u', '\x7b'] ++ hexDigits c.toNat ++ ['\x7d']
  else [c]

/-- A string in double quotes. -/
def quoted (s : String) : String :=
  String.ofList ('"' :: s.toList.flatMap quotedChar ++ ['"'])

end FrameOverlay.Text
