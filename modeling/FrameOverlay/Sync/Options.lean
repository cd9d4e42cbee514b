/-!
# End-of-stream policy

* `EofAction` — what happens when the overlay ends;
* `SyncOptions` — the three options that decide it;
* `SyncOptions.normalized` — the same options with their overlaps resolved.
-/

namespace FrameOverlay

/-- What happens when the overlay input ends. -/
inductive EofAction where
  /-- The last overlay frame goes on being shown. -/
  | repeatLast
  /-- The output ends. -/
  | endAll
  /-- Main frames are passed on as they are. -/
  | pass
  deriving DecidableEq, Repr

namespace EofAction

/-- Every action, in the order they are declared. -/
def all : List EofAction := [repeatLast, endAll, pass]

/-- Name of an action. -/
def name : EofAction → String
  | repeatLast => "repeat"
  | endAll => "endall"
  | pass => "pass"

/-- The action of a name. -/
def ofName? (s : String) : Option EofAction := all.find? fun a => a.name == s

theorem ofName?_name (a : EofAction) : ofName? a.name = some a := by
  cases a <;> decide

end EofAction

/-- End-of-stream policy. -/
structure SyncOptions where
  eofAction : EofAction := .repeatLast
  /-- The output ends with the first input that ends. -/
  shortest : Bool := false
  /-- The last overlay frame goes on being shown. -/
  repeatLast : Bool := true
  deriving DecidableEq, Repr

namespace SyncOptions

/-- Not repeating and `pass` imply each other; then `shortest` and `endAll` imply each other, and
win over `pass`. -/
def normalized (o : SyncOptions) : SyncOptions :=
  let o := if !o.repeatLast || o.eofAction = .pass then
      { o with repeatLast := false, eofAction := .pass } else o
  if o.shortest || o.eofAction = .endAll then
    { o with shortest := true, eofAction := .endAll }
  else
    o

@[simp] theorem normalized_normalized (o : SyncOptions) : o.normalized.normalized = o.normalized := by
  rcases o with ⟨action, shortest, repeatLast⟩
  cases action <;> cases shortest <;> cases repeatLast <;> rfl

end SyncOptions

end FrameOverlay
