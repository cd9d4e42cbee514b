import FrameOverlay.Format
import FrameOverlay.Json.Fault
import FrameOverlay.TimeBase

/-!
# Errors of the overlay stage

Every way an operation of the stage can fail, by cause.

* `OverlayError` — the causes, grouped by what failed;
* `OverlayError.message` — the wording of each;
* `OverlayError.code` — a stable number per group, for reports without text;
* `OverlayError.isConfiguration` — the groups that concern how the stage was set up;
* `OverlayError.driverResult?` — the driver's own result code, where there is one.
-/

namespace FrameOverlay

/-! ### Causes within a group -/

/-- A driver call that reported a result other than success. -/
structure DriverFault where
  call : String
  result : Int32
  name : String
  description : String
  deriving DecidableEq, Repr

/-- Why the kernel module cannot be used. -/
inductive ModuleFault where
  | emptyImage
  | loadFailed (fault : DriverFault)
  | entryPointMissing (entryPoint : String) (fault : DriverFault)
  | other (reason : String)
  deriving DecidableEq, Repr

/-- Why a configuration is refused. -/
inductive ConfigFault where
  | emptyExpression (axis : String)
  | noTimeBase
  | alreadyConfigured
  | unreadable
  | other (reason : String)
  deriving DecidableEq, Repr

/-- Why two frames cannot be paired. -/
inductive PairingFault where
  /-- The formats are not those the launches were planned for. -/
  | unplanned (plannedMain plannedOverlay main overlay : PixelFormat)
  | noMainFrame (pts : Timestamp)
  | other (reason : String)
  deriving DecidableEq, Repr

/-- Why a pool has no buffer to offer. -/
inductive PoolFault where
  | zeroSized
  | noPool
  | missingPlane (index : Nat)
  | planeTooSmall (index : Nat) (pooled needed : PlaneExtent)
  | other (reason : String)
  deriving DecidableEq, Repr

/-- A condition the stage relies on that does not hold. -/
inductive InvariantFault where
  | sessionClosed
  | syncUnconfigured
  | missingPlane (owner : String) (format : PixelFormat) (index : Nat)
  | pitchTooLarge (pitch : Nat)
  | other (reason : String)
  deriving DecidableEq, Repr

/-- Why an operation of the overlay stage fails. -/
inductive OverlayError where
  | driver (fault : DriverFault)
  | driverUnavailable (reason : String)
  | missingFramesContext (input : InputRole)
  | unsupportedFormat (input : InputRole) (format : PixelFormat)
  | incompatibleFormats (main overlay : PixelFormat)
  | kernelModule (fault : ModuleFault)
  | invalidTimeBase (base : TimeBase)
  | config (fault : ConfigFault)
  | configJson (fault : Json.Fault)
  | notConfigured
  | expression (option text reason : String)
  | unknownCommand (command : String)
  | invalidPairing (fault : PairingFault)
  | pool (fault : PoolFault)
  | invariantViolation (fault : InvariantFault)
  deriving DecidableEq, Repr

/-! ### Wording -/

/-- The call, the driver's name and description of the result, and the result. -/
def DriverFault.message (f : DriverFault) : String :=
  s!"{f.call} failed -> {f.name}: {f.description} (CUresult {f.result.toInt})"

/-- Wording of a fault of the kernel module. -/
def ModuleFault.message : ModuleFault → String
  | .emptyImage => "empty kernel image"
  | .loadFailed fault => s!"failed to load overlay module: {fault.message}"
  | .entryPointMissing entryPoint fault => s!"failed to load {entryPoint}: {fault.message}"
  | .other reason => reason

/-- Wording of a fault of the configuration. -/
def ConfigFault.message : ConfigFault → String
  | .emptyExpression axis => s!"{axis} expression is empty"
  | .noTimeBase => "impossible to set time base"
  | .alreadyConfigured => "output is already configured"
  | .unreadable => "Failed to read"
  | .other reason => reason

/-- Wording of a fault of a frame pair. -/
def PairingFault.message : PairingFault → String
  | .unplanned plannedMain plannedOverlay main overlay =>
    s!"planned {plannedOverlay.name} over {plannedMain.name}, got {overlay.name} over {main.name}"
  | .noMainFrame pts => s!"no main frame for event at pts {pts.toInt}"
  | .other reason => reason

/-- Wording of a fault of a pool. -/
def PoolFault.message : PoolFault → String
  | .zeroSized => "pool has zero-sized frames"
  | .noPool => "shared main frame has no frames pool to copy into"
  | .missingPlane index => s!"pooled buffer is missing plane {index}"
  | .planeTooSmall index pooled needed =>
    s!"pooled plane {index} is {pooled.rowBytes}x{pooled.rows}, " ++
      s!"frame needs {needed.rowBytes}x{needed.rows}"
  | .other reason => reason

/-- Wording of a broken condition. -/
def InvariantFault.message : InvariantFault → String
  | .sessionClosed => "device session is closed"
  | .syncUnconfigured => "frame sync activated before configure()"
  | .missingPlane owner format index => s!"{owner} frame ({format.name}) has no plane {index}"
  | .pitchTooLarge pitch => s!"plane pitch {pitch} exceeds i32"
  | .other reason => reason

namespace OverlayError

/-- Wording of an error. -/
def message : OverlayError → String
  | driver fault => fault.message
  | driverUnavailable reason => s!"CUDA driver API unavailable: {reason}"
  | missingFramesContext input => s!"Missing hardware frames context on the {input.name} input"
  | unsupportedFormat input format => s!"Unsupported {input.name} input format {format.name}"
  | incompatibleFormats main overlay => s!"Can't overlay {overlay.name} on {main.name}"
  | kernelModule fault => s!"Kernel module error: {fault.message}"
  | invalidTimeBase base => s!"Invalid time base {base.text}"
  | config fault => s!"Invalid configuration: {fault.message}"
  | configJson _ => "Invalid configuration JSON"
  | notConfigured => "Output not configured: call configure_output() first"
  | expression option text reason =>
    s!"Error when evaluating the expression '{text}' for {option}: {reason}"
  | unknownCommand command => s!"Unknown command '{command}'"
  | invalidPairing fault => s!"Invalid frame pairing: {fault.message}"
  | pool fault => s!"Frame pool error: {fault.message}"
  | invariantViolation fault => s!"Invariant violation: {fault.message}"

/-! ### Groups -/

/-- Stable number of an error's group: hundreds for the driver, the configuration, expressions,
frames, and broken conditions. -/
def code : OverlayError → Nat
  | driver _ => 100
  | driverUnavailable _ => 101
  | missingFramesContext _ => 200
  | unsupportedFormat _ _ => 201
  | incompatibleFormats _ _ => 202
  | kernelModule _ => 203
  | invalidTimeBase _ => 204
  | config _ => 205
  | configJson _ => 206
  | notConfigured => 207
  | expression _ _ _ => 300
  | unknownCommand _ => 301
  | invalidPairing _ => 400
  | pool _ => 401
  | invariantViolation _ => 500

/-- The error concerns how the stage was set up. -/
def isConfiguration : OverlayError → Bool
  | missingFramesContext _ | unsupportedFormat _ _ | incompatibleFormats _ _ | kernelModule _
  | invalidTimeBase _ | config _ | configJson _ => true
  | _ => false

/-- The driver's result code. -/
def driverResult? : OverlayError → Option Int32
  | driver fault => some fault.result
  | _ => none

end OverlayError

end FrameOverlay
