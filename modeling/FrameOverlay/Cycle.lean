import FrameOverlay.Studio
import FrameOverlay.Sync.Journal

/-!
# The cycles of a filter

What a run says about one filter: its activations, the frames they put out, and the frames its caller took
out.  This is read off the steps of a run; it decides nothing.

* `Cycle` — one activation, with the event it gave out, the frames it put out and its driver calls;
* `eventsOf`, `framesOf` — the events of cycles and the frames put out, `Frame.Answers` — how they match;
* `Studio.line?` — a line that has not been dropped;
* `Step.cycle?` — the activation of a filter that a step is;
* `Step.taken` — the frames that a step takes out;
* `Step.settled?` — the position that a step evaluates because of a configuration or a command;
* `cyclesOf` — the activations of a filter in a run.
-/

namespace FrameOverlay

/-- One activation of a filter, by the state it starts from. -/
structure Cycle where
  before : Pipeline

namespace Cycle

/-- What the caller is told. -/
def result (t : Cycle) : Except OverlayError Activation := (attempt Pipeline.activate t.before).1

/-- The state afterwards. -/
def after (t : Cycle) : Pipeline := (attempt Pipeline.activate t.before).2

/-- The filter has an output and a kernel. -/
def isReady (t : Cycle) : Bool :=
  t.before.filter.outputInfo.isSome && t.before.filter.stage.isSome

/-- The event that the synchronizer gave out, if any. -/
def event? (t : Cycle) : Option (SyncEvent Picture) :=
  if t.isReady then (t.before.filter.sync.activate t.before.main t.before.overlay).1.event? else none

/-- The activation ends with an error. -/
def isError (t : Cycle) : Bool :=
  match t.result with
  | .error _ => true
  | .ok _ => false

/-- There was an event, and it failed. -/
def failed (t : Cycle) : Bool := t.event?.isSome && t.isError

/-- The frames that were put out. -/
def put (t : Cycle) : List Frame :=
  t.after.filter.output.frames.drop t.before.filter.output.frames.length

/-- The driver calls. -/
def moments (t : Cycle) : List Moment :=
  t.after.device.history.drop t.before.device.history.length

/-- The event, unless it failed. -/
def delivered? (t : Cycle) : Option (SyncEvent Picture) :=
  if t.failed then none else t.event?

end Cycle

/-- The events of cycles. -/
def eventsOf (cycles : List Cycle) : List (SyncEvent Picture) := cycles.filterMap Cycle.event?

/-- The frames that cycles put out. -/
def framesOf (cycles : List Cycle) : List Frame := cycles.flatMap Cycle.put

/-- A frame is the main frame of an event, in whatever buffer, with the time of the event. -/
def Frame.Answers (e : SyncEvent Picture) (f : Frame) : Prop :=
  f.pts = Timestamp.toOption e.pts ∧ ∃ b, f = Frame.inBuffer e.main b

/-- Line `n`, unless it has been dropped. -/
def Studio.line? (w : Studio) (n : Nat) : Option Line :=
  w.lines[n]?.filter fun line => !line.dropped

namespace Step

/-- The activation of filter `n` that a step is. -/
def cycle? (n : Nat) (s : Step) : Option Cycle :=
  match s.order with
  | .filter m .activate =>
    if m = n then (s.before.line? n).map fun line => ⟨s.before.pipeline line⟩ else none
  | _ => none

/-- The frames that a step takes out of the output of filter `n`. -/
def taken (n : Nat) (s : Step) : List Frame :=
  match s.order with
  | .filter m .pop =>
    if m = n then ((s.before.line? n).bind fun line => line.filter.output.pop.1).toList else []
  | .filter m .drain =>
    if m = n then ((s.before.line? n).map fun line => line.filter.output.drain.1).getD [] else []
  | _ => []

/-- What is evaluated because filter `n` is configured, or gets a new expression by a command, as long as
that succeeds: its position with the sizes of the links, or with the new expression. -/
def settled? (n : Nat) (s : Step) : Option Position :=
  match s.result, s.order with
  | .ok _, .filter m (.configure main overlay _) =>
    if m = n then
      (s.before.line? n).map fun line => line.filter.position.setDimensions main.width main.height
        overlay.width overlay.height
    else none
  | .ok _, .filter m (.command name argument) =>
    if m = n then do
      let line ← s.before.line? n
      let axis ← Axis.ofName? name
      (line.filter.position.setExpression axis argument).toOption
    else none
  | _, _ => none

end Step

/-- The activations of filter `n` in a run. -/
def cyclesOf (n : Nat) (steps : List Step) : List Cycle := steps.filterMap (Step.cycle? n)

end FrameOverlay
