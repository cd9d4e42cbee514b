import FrameOverlay.Sync.Junction

/-!
# The course of an activation

The states a synchronizer passes through on its way: one after every look at an input and one after
every input's part in a move.  Like the journal, a course decides nothing.

* `SlotState.Step` — a slot stays as it is, gets its first frame, or runs out of frames;
* `Flow.course` — the states of the rounds of an activation;
* `Junction.course`, `Junction.courseOf` — the states of an activation, and of a schedule of actions;
* `Waypoint`, `Junction.way` — the states of an activation together with its journal;
* `Waypoint.behindEnd` — what an activation still does once the output has ended.
-/

namespace FrameOverlay

variable {α : Type}

/-- A slot stays as it is or goes one phase on. -/
inductive SlotState.Step : SlotState → SlotState → Prop where
  | stay (a : SlotState) : Step a a
  | start : Step .awaitingFirst .running
  | stop : Step .running .exhausted

namespace Flow

/-- The states a round passes through: after each look, and after each input's part in the move if there
is one. -/
def roundCourse (f : Flow α) : List (Synchronizer α) :=
  let g := f.fill.2
  let pts := g.sync.nextTime
  (f.look .main).2.sync :: g.sync ::
    if f.fill.1 then []
    else if pts = Timestamp.endless then [g.sync.finish]
    else [(g.shift .main pts false).2.sync, (g.move pts).2.sync]

/-- The states of `Flow.advance`. -/
def course (f : Flow α) : List (Synchronizer α) :=
  if f.sync.eof then
    []
  else
    f.roundCourse ++
      match _again : f.round with
      | .again g => g.course
      | _ => []
termination_by f.work
decreasing_by exact work_lt_of_again _again

end Flow

namespace Junction

/-- The states of an activation.  The last is the one in which the event has been given out, if there is
one. -/
def course (j : Junction α) : List (Synchronizer α) :=
  match j.sync.timeBase with
  | none => []
  | some _ => j.flow.course ++ [j.next.2.sync]

/-- The states of an action: none but those of an activation. -/
def courseBy (j : Junction α) : Action α → List (Synchronizer α)
  | .activate _ => j.course
  | _ => []

/-- The states of a schedule. -/
def courseOf : Junction α → List (Action α) → List (Synchronizer α)
  | _, [] => []
  | j, a :: rest => j.courseBy a ++ courseOf (j.perform a).2 rest

end Junction

/-! ### States and journal at once -/

/-- A step of an activation: what happens in it, and the state it leads to. -/
structure Waypoint (α : Type) where
  incidents : List (Incident α)
  state : Synchronizer α
  deriving DecidableEq, Repr

namespace Flow

/-- The steps of a round: the looks, and each input's part in the move if there is one. -/
def roundWay (f : Flow α) : List (Waypoint α) :=
  let g := f.fill.2
  let pts := g.sync.nextTime
  ⟨f.lookIncidents .main, (f.look .main).2.sync⟩ ::
  ⟨(f.look .main).2.lookIncidents .overlay, g.sync⟩ ::
    if f.fill.1 then []
    else if pts = Timestamp.endless then [⟨[], g.sync.finish⟩]
    else [⟨g.shiftIncidents .main pts, (g.shift .main pts false).2.sync⟩,
      ⟨g.shiftIncidents .overlay pts, (g.move pts).2.sync⟩]

/-- The steps of `Flow.advance`. -/
def way (f : Flow α) : List (Waypoint α) :=
  if f.sync.eof then
    []
  else
    f.roundWay ++
      match _again : f.round with
      | .again g => g.way
      | _ => []
termination_by f.work
decreasing_by exact work_lt_of_again _again

end Flow

/-- The steps of an activation, the last of which gives out the event if there is one. -/
def Junction.way (j : Junction α) : List (Waypoint α) :=
  match j.sync.timeBase with
  | none => []
  | some _ => j.flow.way ++ [⟨(j.next.1.event?.map Incident.offered).toList, j.next.2.sync⟩]

namespace Waypoint

/-- The steps from the one on that ends the output. -/
def fromEnd (way : List (Waypoint α)) : List (Waypoint α) :=
  way.dropWhile fun w => !w.state.eof

/-- What still happens once the output has ended. -/
def behindEnd (way : List (Waypoint α)) : List (Incident α) :=
  (fromEnd way).tail.flatMap incidents

end Waypoint

end FrameOverlay
