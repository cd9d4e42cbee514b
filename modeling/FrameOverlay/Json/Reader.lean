import FrameOverlay.Json.Token

/-!
# Reading JSON values

Readers ask for a value of a certain kind and stop at the first fault, reading from left to right.

* `Json.Read` — what a reader makes of a list of tokens: a value, and the tokens that follow;
* `Json.mismatch` — the fault of a value of another kind than asked for;
* `Json.readText`, `Json.readBool`, `Json.readInt64`, `Json.readNull`, `Json.readName` — single
  values;
* `Json.readMembers` — an object, member by member;
* `Json.skip` — passes over a value of any kind.
-/

namespace FrameOverlay.Json

/-- Tokens left of `ts`. -/
abbrev Rest (ts : List Token) : Type := { rest : List Token // rest.length ≤ ts.length }

/-- What a reader makes of `ts`: a value and the tokens that follow. -/
abbrev Read (α : Type) (ts : List Token) : Type := Except Fault (α × Rest ts)

/-- What is left of `ts` is left of it behind one more token. -/
def Rest.behind {ts : List Token} (rest : Rest ts) (t : Token) : Rest (t :: ts) :=
  ⟨rest.1, Nat.le_succ_of_le rest.2⟩

/-- The first token has been read. -/
def taken {α : Type} (a : α) (t : Token) (ts : List Token) : Read α (t :: ts) :=
  .ok (a, ⟨ts, Nat.le_succ _⟩)

/-- The fault of a value of another kind than asked for.  A word, numeral or string is read to its
end first, which may turn up a fault of its own; of a list or an object the opening bracket is
enough. -/
def mismatch : List Token → Fault
  | [] => .truncated
  | .opening _ :: _ => .mismatched
  | .word _ fault :: _ => fault.getD .mismatched
  | .number n :: _ => n.fault?.getD .mismatched
  | .string body :: _ =>
    match body.text with
    | .ok _ => .mismatched
    | .error fault => fault
  | _ => .malformed

/-! ### Single values -/

/-- A string. -/
def readText : (ts : List Token) → Read String ts
  | .string body :: ts => do taken (← body.text) (.string body) ts
  | ts => .error (mismatch ts)

/-- A truth value. -/
def readBool : (ts : List Token) → Read Bool ts
  | .word .true none :: ts => taken true _ ts
  | .word .false none :: ts => taken false _ ts
  | ts => .error (mismatch ts)

/-- A 64-bit integer. -/
def readInt64 : (ts : List Token) → Read Int64 ts
  | .number n :: ts =>
    match n.fault?, n.int64? with
    | none, some value => taken value _ ts
    | fault, _ => .error (fault.getD .mismatched)
  | ts => .error (mismatch ts)

/-- The fault of tokens that do not go on as they must. -/
def unexpected : List Token → Fault
  | [] => .truncated
  | _ => .malformed

/-- A certain bracket, comma or colon. -/
def readMark (mark : Token) : (ts : List Token) → Read Unit ts
  | [] => .error .truncated
  | t :: ts => if t = mark then taken () t ts else .error .malformed

/-- The word for no value. -/
def readNull : (ts : List Token) → Read Unit ts
  | .word .null none :: ts => taken () _ ts
  | ts => .error (mismatch ts)

/-- One of several names: a string, or an object with the name as its only key and no value.  A
key must be a string, and whatever else stands in its place is not read. -/
def readName {α : Type} (ofName? : String → Option α) : (ts : List Token) → Read α ts
  | .string body :: ts => do
    match ofName? (← body.text) with
    | some a => taken a _ ts
    | none => .error .mismatched
  | .opening .object :: .string body :: ts => do
    match ofName? (← body.text) with
    | none => .error .mismatched
    | some a => do
      let ((), ⟨rest, _⟩) ← readMark .colon ts
      let ((), ⟨rest, _⟩) ← readNull rest
      let ((), ⟨rest, _⟩) ← readMark (.closing .object) rest
      return (a, ⟨rest, by simp only [List.length_cons]; omega⟩)
  | .opening .object :: ts => .error (unexpected ts)
  | ts => .error (unexpected ts)

/-! ### Objects -/

/-- What follows a member: a comma before another, or the closing brace.  Tells whether there is
another. -/
def readSeparator : (ts : List Token) → Read Bool ts
  | .comma :: ts => taken true _ ts
  | .closing .object :: ts => taken false _ ts
  | ts => .error (unexpected ts)

/-- Reads the members of an object from the first or next key to the closing brace.  `find` looks
a key up in what has been read so far, `value` reads the value of a key found. -/
def readMembers {σ κ : Type} (find : σ → String → Except Fault κ)
    (value : σ → κ → (ts : List Token) → Read σ ts) (s : σ) : (ts : List Token) → Read σ ts
  | .string body :: ts => do
    let key ← find s (← body.text)
    let ((), ⟨rest, _⟩) ← readMark .colon ts
    let (s, ⟨rest, _⟩) ← value s key rest
    let (more, ⟨rest, _⟩) ← readSeparator rest
    if more then
      let (s, ⟨rest, _⟩) ← readMembers find value s rest
      return (s, ⟨rest, by simp only [List.length_cons]; omega⟩)
    else
      return (s, ⟨rest, by simp only [List.length_cons]; omega⟩)
  | ts => .error (unexpected ts)
termination_by ts => ts.length
decreasing_by
  simp only [List.length_cons]
  omega

/-- Reads an object behind its opening brace. -/
def readObject {σ κ : Type} (find : σ → String → Except Fault κ)
    (value : σ → κ → (ts : List Token) → Read σ ts) (s : σ) : (ts : List Token) → Read σ ts
  | .closing .object :: ts => taken s _ ts
  | ts => readMembers find value s ts

/-! ### Values that are passed over -/

/-- What is to come inside a value that is passed over. -/
inductive Expecting where
  | value
  /-- The first value of a list, or its end. -/
  | valueOrEnd
  | key
  /-- The first key of an object, or its end. -/
  | keyOrEnd
  | colon
  /-- What follows a value inside brackets. -/
  | commaOrEnd
  deriving DecidableEq, Repr

/-- Takes in one token inside the brackets `open`, innermost first, and gives what is to come and
the brackets that are then open.  Strings may hold any code units, and numerals need no double. -/
def step (expecting : Expecting) (brackets : List Bracket) (t : Token) :
    Except Fault (Expecting × List Bracket) :=
  match expecting, brackets, t with
  | .value, _, .opening .list | .valueOrEnd, _, .opening .list =>
    .ok (.valueOrEnd, .list :: brackets)
  | .value, _, .opening .object | .valueOrEnd, _, .opening .object =>
    .ok (.keyOrEnd, .object :: brackets)
  | .value, _, .word _ fault | .valueOrEnd, _, .word _ fault =>
    match fault with
    | none => .ok (.commaOrEnd, brackets)
    | some f => .error f
  | .value, _, .number n | .valueOrEnd, _, .number n =>
    if n.isComplete then .ok (.commaOrEnd, brackets) else .error .malformed
  | .value, _, .string body | .valueOrEnd, _, .string body =>
    match body.fault with
    | none => .ok (.commaOrEnd, brackets)
    | some f => .error f
  | .valueOrEnd, .list :: outer, .closing .list => .ok (.commaOrEnd, outer)
  | .keyOrEnd, .object :: outer, .closing .object => .ok (.commaOrEnd, outer)
  | .key, _, .string body | .keyOrEnd, _, .string body =>
    match body.fault with
    | none => .ok (.colon, brackets)
    | some f => .error f
  | .colon, _, .colon => .ok (.value, brackets)
  | .commaOrEnd, .list :: _, .comma => .ok (.value, brackets)
  | .commaOrEnd, .object :: _, .comma => .ok (.key, brackets)
  | .commaOrEnd, b :: outer, .closing b' =>
    if b = b' then .ok (.commaOrEnd, outer) else .error .malformed
  | _, _, _ => .error .malformed

/-- Passes over the rest of a value, of which the brackets `brackets` are open. -/
def skipFrom (expecting : Expecting) (brackets : List Bracket) (ts : List Token) : Read Unit ts :=
  match expecting, brackets, ts with
  | .commaOrEnd, [], ts => .ok ((), ⟨ts, Nat.le_refl _⟩)
  | _, _, [] => .error .truncated
  | expecting, brackets, t :: ts => do
    let (expecting, brackets) ← step expecting brackets t
    let ((), rest) ← skipFrom expecting brackets ts
    .ok ((), rest.behind t)
termination_by ts.length

/-- Passes over a value of any kind. -/
def skip (ts : List Token) : Read Unit ts := skipFrom .value [] ts

end FrameOverlay.Json
