import FrameOverlay.Compositor
import FrameOverlay.Config
import FrameOverlay.Position
import FrameOverlay.Sync.Synchronizer

/-!
# The overlay filter

The state of the stage that blends an overlay stream into a main stream, and what of it changes
without the device.

* `LinkInfo` — what is known about a stream before its frames;
* `OverlayFilter` — configuration, synchronizer, position, device stage, output;
* `OverlayFilter.new` — validates the configuration and reads both expressions;
* `OverlayFilter.place`, `OverlayFilter.synchronize` — the parts of configuring the output that
  concern the position and the synchronizer;
* `OverlayFilter.command` — replaces an expression.
-/

namespace FrameOverlay

/-- What is known about a stream before its frames. -/
structure LinkInfo where
  timeBase : TimeBase
  width : UInt32
  height : UInt32
  context : Option FramesContext
  deriving DecidableEq, Repr

/-- What compositing needs of the device. -/
structure Stage where
  plan : PlanePlan
  session : Session
  deriving DecidableEq, Repr

/-- The state of the filter. -/
structure OverlayFilter where
  config : OverlayConfig
  sync : Synchronizer Picture
  position : Position
  /-- Present between configuring the output and teardown. -/
  stage : Option Stage
  output : FrameQueue Frame
  /-- Frames blended with an overlay. -/
  composited : Nat
  /-- Frames passed on without one. -/
  forwarded : Nat
  /-- The output stream, once configured. -/
  outputInfo : Option LinkInfo

namespace OverlayFilter

/-- A filter that has not seen its inputs. -/
def new (config : OverlayConfig) : Except OverlayError OverlayFilter := do
  config.validate
  let position ← Position.new config.x config.y
  return {
    config
    sync := .new
    position
    stage := none
    output := {}
    composited := 0
    forwarded := 0
    outputInfo := none }

/-- A filter as it is made from a valid configuration with expressions that can be read. -/
theorem new_eq {config : OverlayConfig} {x y : Expr} (valid : config.validate = .ok ())
    (readX : Expr.parse config.x = .ok x) (readY : Expr.parse config.y = .ok y) :
    new config = .ok {
      config
      sync := .new
      position := ⟨⟨config.x, x⟩, ⟨config.y, y⟩, Position.initialVariables, .origin⟩
      stage := none
      output := {}
      composited := 0
      forwarded := 0
      outputInfo := none } := by
  unfold new Position.new PositionExpr.read
  rw [valid, readX, readY]
  rfl

/-- The position is evaluated anew, unless that is done for every frame. -/
def settlePosition (f : OverlayFilter) : OverlayFilter :=
  match f.config.eval with
  | .init => { f with position := f.position.evaluate }
  | .frame => f

/-- Takes in the sizes of both streams. -/
def place (f : OverlayFilter) (main overlay : LinkInfo) : OverlayFilter :=
  settlePosition { f with
    position := f.position.setDimensions main.width main.height overlay.width overlay.height }

/-- Configures the synchronizer, and gives the time base of the output. -/
def synchronize (f : OverlayFilter) (main overlay : LinkInfo) :
    Except OverlayError (TimeBase × OverlayFilter) := do
  let (base, sync) ←
    f.sync.configure f.config.syncOptions main.timeBase overlay.timeBase f.config.timeBase
  return (base, { f with sync })

/-- Sets the text of an axis in the configuration. -/
def setText (f : OverlayFilter) (axis : Axis) (text : String) : OverlayFilter :=
  match axis with
  | .x => { f with config := { f.config with x := text } }
  | .y => { f with config := { f.config with y := text } }

/-- Replaces the expression of the axis that `command` names.  If its text cannot be read nothing
changes. -/
def command (f : OverlayFilter) (command argument : String) :
    Except OverlayError OverlayFilter := do
  match Axis.ofName? command with
  | none => throw (.unknownCommand command)
  | some axis =>
    let position ← f.position.setExpression axis argument
    return settlePosition ({ f with position }.setText axis argument)

/-- Evaluates the position for an event, unless that is done once only. -/
def positionFor (f : OverlayFilter) (e : SyncEvent Picture) (overlay : Picture) : OverlayFilter :=
  match f.config.eval with
  | .init => f
  | .frame =>
    let main := e.main.content
    { f with position := (f.position.refresh
        ⟨main.width, main.height, overlay.width, overlay.height, UInt64.ofNat e.index, e.seconds,
          main.pos⟩).evaluate }

/-- Puts a frame out that no overlay covers. -/
def putForwarded (f : OverlayFilter) (frame : Frame) : OverlayFilter :=
  { f with output := f.output.push frame, forwarded := f.forwarded + 1 }

/-- Puts a frame out that an overlay has been blended into. -/
def putComposited (f : OverlayFilter) (frame : Frame) : OverlayFilter :=
  { f with output := f.output.push frame, composited := f.composited + 1 }

end OverlayFilter

end FrameOverlay
