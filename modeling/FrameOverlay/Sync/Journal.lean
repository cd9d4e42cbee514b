import FrameOverlay.Sync.Synchronizer

/-!
# The journal of an activation

What happens on the way from one event to the next, in the order it happens.  A journal is read
off the flow as it goes through its rounds; it decides nothing.

* `Incident` — an input is polled, a slot takes part in a move, an event is offered;
* `Flow.incidents` — the journal of `Flow.advance`;
* `Synchronizer.incidents` — the journal of `Synchronizer.activate`;
* `Incident.pulled`, `Incident.promoted`, `Incident.offered` — what a journal says about one matter.
-/

namespace FrameOverlay

variable {α : Type}

/-- One thing that happens during an activation. -/
inductive Incident (α : Type) where
  /-- The link of an input was asked for a frame, and what it answered. -/
  | polled (input : InputRole) (poll : LinkPoll (Stamped α))
  /-- A slot moved on: a frame became current, or else the input is exhausted. -/
  | moved (input : InputRole) (frame : Option (Stamped α))
  /-- An event was given out. -/
  | offered (e : SyncEvent α)
  deriving DecidableEq, Repr

namespace Flow

/-- A look at an input polls its link if the slot wants to look ahead. -/
def lookIncidents (f : Flow α) (i : InputRole) : List (Incident α) :=
  if (f.sync.slot i).wants then [.polled i (f.queue i).consume.1] else []

/-- An input's part in a move to `pts`. -/
def shiftIncidents (f : Flow α) (i : InputRole) (pts : Timestamp) : List (Incident α) :=
  if (f.sync.slot i).moves pts then [.moved i (f.sync.slot i).promote.current?] else []

/-- Both looks. -/
def fillIncidents (f : Flow α) : List (Incident α) :=
  f.lookIncidents .main ++ (f.look .main).2.lookIncidents .overlay

/-- Both parts of a move. -/
def moveIncidents (f : Flow α) (pts : Timestamp) : List (Incident α) :=
  f.shiftIncidents .main pts ++ f.shiftIncidents .overlay pts

/-- A round: the looks, and the move if there is one. -/
def roundIncidents (f : Flow α) : List (Incident α) :=
  f.fillIncidents ++
    if f.fill.1 ∨ f.fill.2.sync.nextTime = Timestamp.endless then []
    else f.fill.2.moveIncidents f.fill.2.sync.nextTime

/-- The journal of `Flow.advance`. -/
def incidents (f : Flow α) : List (Incident α) :=
  if f.sync.eof then
    []
  else
    f.roundIncidents ++
      match _again : f.round with
      | .again g => g.incidents
      | _ => []
termination_by f.work
decreasing_by exact work_lt_of_again _again

end Flow

/-- The event that was given out, if any. -/
def Outcome.event? : Outcome α → Option (SyncEvent α)
  | .event e => some e
  | _ => none

theorem Outcome.event?_eq_some {o : Outcome α} {e : SyncEvent α} :
    o.event? = some e ↔ o = .event e := by
  cases o <;> simp [event?]

/-- The journal of `Synchronizer.activate`. -/
def Synchronizer.incidents (s : Synchronizer α) (main overlay : FrameQueue (Stamped α)) :
    List (Incident α) :=
  match s.timeBase with
  | none => []
  | some _ =>
    Flow.incidents ⟨s, main, overlay, []⟩ ++
      ((s.activate main overlay).1.event?.map Incident.offered).toList

namespace Incident

/-- The frames that the link of an input gave, in order. -/
def pulled (i : InputRole) (journal : List (Incident α)) : List (Stamped α) :=
  journal.filterMap fun
    | polled j (.frame f) => if j = i then some f else none
    | _ => none

/-- The frames of an input that became current, in order. -/
def promoted (i : InputRole) (journal : List (Incident α)) : List (Stamped α) :=
  journal.filterMap fun
    | moved j frame => if j = i then frame else none
    | _ => none

/-- The events that were given out, in order. -/
def events (journal : List (Incident α)) : List (SyncEvent α) :=
  journal.filterMap fun
    | offered e => some e
    | _ => none

@[simp] theorem pulled_append (i : InputRole) (J K : List (Incident α)) :
    pulled i (J ++ K) = pulled i J ++ pulled i K := List.filterMap_append

@[simp] theorem promoted_append (i : InputRole) (J K : List (Incident α)) :
    promoted i (J ++ K) = promoted i J ++ promoted i K := List.filterMap_append

@[simp] theorem events_append (J K : List (Incident α)) :
    events (J ++ K) = events J ++ events K := List.filterMap_append

end Incident

end FrameOverlay
