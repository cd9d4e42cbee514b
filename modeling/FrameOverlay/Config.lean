import FrameOverlay.Error
import FrameOverlay.Json.Reader
import FrameOverlay.Sync.Options
import FrameOverlay.Text.Blank

/-!
# Configuration of the stage

* `OverlayConfig` — the options, each with a default;
* `OverlayConfig.json` — the options as a JSON object without blanks;
* `OverlayConfig.read` — reads an object with any of the options in any order, or a list of their
  values in a fixed order of which the last ones may be missing;
* `OverlayConfig.validate` — expressions must not be blank, a time base must be valid;
* `OverlayConfig.ofText`, `OverlayConfig.ofFile` — a configuration that has been validated.
-/

namespace FrameOverlay

/-- When the position is evaluated. -/
inductive EvalMode where
  /-- Once, when the output is configured, and after every command. -/
  | init
  /-- Before every frame that is composited. -/
  | frame
  deriving DecidableEq, Repr

namespace EvalMode

/-- Every mode, in the order they are declared. -/
def all : List EvalMode := [init, frame]

/-- Name of a mode. -/
def name : EvalMode → String
  | init => "init"
  | frame => "frame"

/-- The mode of a name. -/
def ofName? (s : String) : Option EvalMode := all.find? fun m => m.name == s

theorem ofName?_name (m : EvalMode) : ofName? m.name = some m := by
  cases m <;> decide

end EvalMode

/-- The options of the stage. -/
structure OverlayConfig where
  /-- Expression for the column. -/
  x : String := "0"
  /-- Expression for the row. -/
  y : String := "0"
  eval : EvalMode := .frame
  eofAction : EofAction := .repeatLast
  shortest : Bool := false
  repeatLast : Bool := true
  /-- Time base of the events; found from the inputs if there is none. -/
  timeBase : Option TimeBase := none
  deriving DecidableEq, Repr

namespace OverlayConfig

/-- The end-of-stream policy. -/
def syncOptions (c : OverlayConfig) : SyncOptions :=
  ⟨c.eofAction, c.shortest, c.repeatLast⟩

/-! ### Fields -/

/-- A field of the configuration. -/
inductive Field where
  | x
  | y
  | eval
  | eofAction
  | shortest
  | repeatLast
  | timeBase
  deriving DecidableEq, Repr

namespace Field

/-- Every field, in the order they are declared and written. -/
def all : List Field := [x, y, eval, eofAction, shortest, repeatLast, timeBase]

/-- Key of a field. -/
def key : Field → String
  | x => "x"
  | y => "y"
  | eval => "eval"
  | eofAction => "eof_action"
  | shortest => "shortest"
  | repeatLast => "repeatlast"
  | timeBase => "time_base"

/-- The field of a key. -/
def ofKey? (s : String) : Option Field := all.find? fun f => f.key == s

theorem ofKey?_key (f : Field) : ofKey? f.key = some f := by
  cases f <;> decide

end Field

/-! ### Writing -/

/-- A truth value in JSON. -/
def jsonBool (b : Bool) : String := if b then "true" else "false"

/-- Members of an object, in order and without blanks. -/
def jsonObject (members : List (String × String)) : String :=
  "\x7b" ++ ",".intercalate (members.map fun (key, value) => Json.quoted key ++ ":" ++ value) ++
    "\x7d"

/-- A time base in JSON. -/
def jsonTimeBase : Option TimeBase → String
  | none => "null"
  | some b => jsonObject [("num", toString b.num.toInt), ("den", toString b.den.toInt)]

/-- The value of a field in JSON. -/
def jsonValue (c : OverlayConfig) : Field → String
  | .x => Json.quoted c.x
  | .y => Json.quoted c.y
  | .eval => Json.quoted c.eval.name
  | .eofAction => Json.quoted c.eofAction.name
  | .shortest => jsonBool c.shortest
  | .repeatLast => jsonBool c.repeatLast
  | .timeBase => jsonTimeBase c.timeBase

/-- The configuration as a JSON object with every field. -/
def json (c : OverlayConfig) : String :=
  jsonObject (Field.all.map fun f => (f.key, c.jsonValue f))

/-! ### Reading -/

/-- A term of a time base. -/
inductive Term where
  | num
  | den
  deriving DecidableEq, Repr

/-- The terms of a time base read so far. -/
structure Terms where
  num : Option Int64 := none
  den : Option Int64 := none

/-- Looks up the key of a term: each at most once, and other keys are of no interest. -/
def findTerm (terms : Terms) (key : String) : Except Json.Fault (Option Term) :=
  if key = "num" then
    if terms.num.isSome then .error .mismatched else .ok (some .num)
  else if key = "den" then
    if terms.den.isSome then .error .mismatched else .ok (some .den)
  else
    .ok none

/-- Reads the value of a term, or passes over a value of no interest. -/
def readTerm (terms : Terms) (term : Option Term) (ts : List Json.Token) : Json.Read Terms ts := do
  match term with
  | some .num =>
    let (value, rest) ← Json.readInt64 ts
    return ({ terms with num := some value }, rest)
  | some .den =>
    let (value, rest) ← Json.readInt64 ts
    return ({ terms with den := some value }, rest)
  | none =>
    let ((), rest) ← Json.skip ts
    return (terms, rest)

/-- One of the two terms in a list, which must not end before it. -/
def readListedTerm : (ts : List Json.Token) → Json.Read Int64 ts
  | .closing .list :: _ => .error .mismatched
  | ts => Json.readInt64 ts

/-- The end of a list. -/
def readListEnd (ts : List Json.Token) : Json.Read Unit ts := Json.readMark (.closing .list) ts

/-- Goes on to the next value of a list.  A list that ends instead is short of values. -/
def readListComma : (ts : List Json.Token) → Json.Read Unit ts
  | .closing .list :: _ => .error .mismatched
  | .comma :: .closing .list :: _ => .error .malformed
  | ts => Json.readMark .comma ts

/-- A time base or nothing: an object with both terms, or a list of the two. -/
def readTimeBase : (ts : List Json.Token) → Json.Read (Option TimeBase) ts
  | .word .null none :: ts => Json.taken none _ ts
  | .opening .object :: ts => do
    let (terms, rest) ← Json.readObject findTerm readTerm {} ts
    match terms.num, terms.den with
    | some num, some den => return (some ⟨num, den⟩, rest.behind _)
    | _, _ => throw .mismatched
  | .opening .list :: ts => do
    let (num, ⟨rest, _⟩) ← readListedTerm ts
    let ((), ⟨rest, _⟩) ← readListComma rest
    let (den, ⟨rest, _⟩) ← Json.readInt64 rest
    let ((), ⟨rest, _⟩) ← readListEnd rest
    return (some ⟨num, den⟩, ⟨rest, by simp only [List.length_cons]; omega⟩)
  | ts => .error (Json.mismatch ts)

/-- Reads the value of a field. -/
def readField (c : OverlayConfig) (field : Field) (ts : List Json.Token) :
    Json.Read OverlayConfig ts := do
  match field with
  | .x =>
    let (x, rest) ← Json.readText ts
    return ({ c with x }, rest)
  | .y =>
    let (y, rest) ← Json.readText ts
    return ({ c with y }, rest)
  | .eval =>
    let (eval, rest) ← Json.readName EvalMode.ofName? ts
    return ({ c with eval }, rest)
  | .eofAction =>
    let (eofAction, rest) ← Json.readName EofAction.ofName? ts
    return ({ c with eofAction }, rest)
  | .shortest =>
    let (shortest, rest) ← Json.readBool ts
    return ({ c with shortest }, rest)
  | .repeatLast =>
    let (repeatLast, rest) ← Json.readBool ts
    return ({ c with repeatLast }, rest)
  | .timeBase =>
    let (timeBase, rest) ← readTimeBase ts
    return ({ c with timeBase }, rest)

/-- The fields read so far and their values. -/
structure Progress where
  seen : List Field := []
  config : OverlayConfig := {}

/-- Looks up the key of a field: no other keys, and none twice. -/
def findField (p : Progress) (key : String) : Except Json.Fault Field :=
  match Field.ofKey? key with
  | some f => if p.seen.contains f then .error .mismatched else .ok f
  | none => .error .mismatched

/-- Reads the value of a field that has not been seen before. -/
def readNewField (p : Progress) (f : Field) (ts : List Json.Token) : Json.Read Progress ts := do
  let (config, rest) ← readField p.config f ts
  return (⟨f :: p.seen, config⟩, rest)

/-- Reads the values of `fields` from the second on, each behind a comma, and the end of the list,
which may come before any of them. -/
def readFurther (c : OverlayConfig) : List Field → (ts : List Json.Token) →
    Json.Read OverlayConfig ts
  | [], ts => do
    let ((), rest) ← readListEnd ts
    return (c, rest)
  | _ :: _, .closing .list :: ts => Json.taken c _ ts
  | _ :: _, .comma :: .closing .list :: _ => .error .malformed
  | f :: fields, ts => do
    let ((), ⟨rest, _⟩) ← Json.readMark .comma ts
    let (c, ⟨rest, _⟩) ← readField c f rest
    let (c, ⟨rest, _⟩) ← readFurther c fields rest
    return (c, ⟨rest, by omega⟩)

/-- Reads a list of values for `fields` behind its opening bracket. -/
def readListed (c : OverlayConfig) : List Field → (ts : List Json.Token) →
    Json.Read OverlayConfig ts
  | f :: fields, ts =>
    match ts with
    | .closing .list :: ts => Json.taken c _ ts
    | ts => do
      let (c, ⟨rest, _⟩) ← readField c f ts
      let (c, ⟨rest, _⟩) ← readFurther c fields rest
      return (c, ⟨rest, by omega⟩)
  | [], ts => readFurther c [] ts

/-- Reads the options from an object or a list. -/
def readValue : (ts : List Json.Token) → Json.Read OverlayConfig ts
  | .opening .object :: ts => do
    let (p, rest) ← Json.readObject findField readNewField {} ts
    return (p.config, rest.behind _)
  | .opening .list :: ts => do
    let (c, rest) ← readListed {} Field.all ts
    return (c, rest.behind _)
  | ts => .error (Json.mismatch ts)

/-- Reads a text that holds the options and nothing else. -/
def read (text : String) : Except Json.Fault OverlayConfig := do
  let (c, ⟨rest, _⟩) ← readValue (Json.scan text.toList)
  if rest.isEmpty then return c else throw .malformed

/-! ### Validation -/

/-- The first option with a value that is not allowed: a blank expression, or a time base with a
term that is not positive. -/
def fault? (c : OverlayConfig) : Option OverlayError :=
  if Text.isBlankText c.x then some (.config (.emptyExpression "x"))
  else if Text.isBlankText c.y then some (.config (.emptyExpression "y"))
  else
    match c.timeBase with
    | some b => if b.Valid then none else some (.invalidTimeBase b)
    | none => none

/-- Refuses a configuration with a fault. -/
def validate (c : OverlayConfig) : Except OverlayError Unit :=
  match c.fault? with
  | none => .ok ()
  | some e => .error e

/-- What is allowed: expressions that are not blank, and a valid time base if there is one. -/
theorem validate_iff {c : OverlayConfig} : c.validate = .ok () ↔
    Text.isBlankText c.x = false ∧ Text.isBlankText c.y = false ∧ ∀ b, c.timeBase = some b → b.Valid := by
  unfold validate fault?
  cases Text.isBlankText c.x <;> cases Text.isBlankText c.y <;> simp
  cases c.timeBase with
  | none => simp
  | some b => by_cases valid : b.Valid <;> simp [valid]

/-- Reads and validates a configuration. -/
def ofText (text : String) : Except OverlayError OverlayConfig := do
  match read text with
  | .error fault => throw (.configJson fault)
  | .ok c =>
    c.validate
    return c

/-- Reads a configuration from the bytes of a file, if there is one; they must be UTF-8. -/
def ofFile (bytes : Option ByteArray) : Except OverlayError OverlayConfig :=
  match bytes.bind String.fromUTF8? with
  | some text => ofText text
  | none => .error (.config .unreadable)

end OverlayConfig

end FrameOverlay
