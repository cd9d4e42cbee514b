import FrameOverlay.Decimal.Shortest
import FrameOverlay.Filter
import FrameOverlay.Text.Record

/-!
# Values shown for inspection

For each kind of value, its text on one line, in the shapes of `Text.record` and its siblings.
-/

namespace FrameOverlay

open Text Decimal

/-! ### Formats, time bases, offsets -/

/-- Text of a format. -/
def PixelFormat.describe : PixelFormat → String
  | .nv12 => "Nv12"
  | .yuv420p => "Yuv420p"
  | .yuva420p => "Yuva420p"
  | .p010 => "P010"
  | .yuv444p => "Yuv444p"
  | .bgra => "Bgra"

/-- Text of a time base. -/
def TimeBase.describe (b : TimeBase) : String :=
  record "Rational" [("num", toString b.num.toInt), ("den", toString b.den.toInt)]

/-- Text of a column. -/
def XPosition.describe : XPosition → String
  | .aligned column => variant "Aligned" (toString column.toInt)
  | .unset => "Unset"

/-- Text of an offset. -/
def OverlayOffset.describe (o : OverlayOffset) : String :=
  record "OverlayOffset" [("x", o.x.describe), ("y", toString o.y.toInt)]

/-- Text of a number that may be missing. -/
def describeOption (n : Option Int64) : String :=
  option (n.map fun n => toString n.toInt)

/-! ### Position -/

/-- Text of the variables. -/
def describeVariables (v : Expr.Variables Float) : String :=
  record "Variables" [("main_w", floatText v.mainWidth), ("main_h", floatText v.mainHeight),
    ("overlay_w", floatText v.overlayWidth), ("overlay_h", floatText v.overlayHeight),
    ("x", floatText v.x), ("y", floatText v.y), ("n", floatText v.n), ("t", floatText v.t),
    ("pos", floatText v.pos)]

/-- Text of a position. -/
def Position.describe (p : Position) : String :=
  record "PositionEvaluator" [("x", quoted p.x.text), ("y", quoted p.y.text),
    ("vars", describeVariables p.vars), ("offset", p.offset.describe)]

/-! ### Synchronizer -/

/-- Text of an action. -/
def EofAction.describe : EofAction → String
  | .repeatLast => "Repeat"
  | .endAll => "Endall"
  | .pass => "Pass"

/-- Text of a policy. -/
def SyncOptions.describe (o : SyncOptions) : String :=
  record "SyncOptions" [("eof_action", o.eofAction.describe), ("shortest", bool o.shortest),
    ("repeatlast", bool o.repeatLast)]

/-- The level as a 32-bit word, all bits set before the first configuration. -/
def Synchronizer.levelWord {α : Type} (s : Synchronizer α) : Nat := s.level.getD (UInt32.size - 1)

/-- Text of a synchronizer. -/
def Synchronizer.describe {α : Type} (s : Synchronizer α) : String :=
  record "DualInputSync" [("time_base", option (s.timeBase.map TimeBase.describe)),
    ("options", s.options.describe), ("pts", toString s.pts.toInt),
    ("sync_level", toString s.levelWord), ("eof", bool s.eof), ("events", toString s.events)]

/-! ### Device -/

/-- Text of a plane. -/
def DevicePlane.describe (p : DevicePlane) : String :=
  record "DevicePlane" [("ptr", toString p.address.toNat), ("pitch", toString p.pitch),
    ("row_bytes", toString p.rowBytes), ("rows", toString p.rows)]

/-- Text of a list of planes. -/
def describePlanes (planes : List DevicePlane) : String :=
  list (planes.map DevicePlane.describe)

/-- Text of a buffer. -/
def BufferStore.describe (s : BufferStore) (b : BufferId) : String :=
  record "DeviceBuffer" [("planes", describePlanes (s.planes b)), ("leased", bool (s.isLeased b))]

/-- Text of a frame. -/
def BufferStore.describeFrame (s : BufferStore) (f : Frame) : String :=
  record "GpuFrame" [("format", f.content.format.describe),
    ("width", toString f.content.width.toNat), ("height", toString f.content.height.toNat),
    ("pts", describeOption f.pts), ("pos", describeOption f.content.pos),
    ("planes", describePlanes (s.planes f.content.buffer))]

/-- Text of a device. -/
def DeviceContext.describe (d : DeviceContext) : String :=
  record "CudaDeviceContext" [("cu_ctx", hexadecimal d.context.toNat),
    ("stream", hexadecimal d.stream.toNat)]

/-- Text of a frames context. -/
def FramesContext.describe (c : FramesContext) : String :=
  record "DeviceFramesContext" [("device", c.device.describe), ("sw_format", c.format.describe),
    ("width", toString c.width.toNat), ("height", toString c.height.toNat),
    ("pooled", bool c.pool.isSome)]

/-- Text of a session. -/
def Session.describe (s : Session) : String :=
  record "DeviceSession" [("open", bool s.isOpen), ("module", hexadecimal s.module.toNat)]

/-- The name the driver goes by. -/
def Driver.describe : String := "CudaDriver"

/-! ### Plans -/

/-- Text of a reduction. -/
def Reduction.describe (r : Reduction) : String := tuple [toString r.x, toString r.y]

/-- Text of a launch. -/
def PlaneStep.describe (s : PlaneStep) : String :=
  record "PlaneStep" [("plane", toString s.plane), ("offset_shift", s.offsetReduction.describe),
    ("overlay_shift", s.overlayReduction.describe),
    ("alpha_plane", option (s.alphaPlane.map fun n => toString n)),
    ("alpha_align", tuple [toString s.alphaStep.x.toInt, toString s.alphaStep.y.toInt])]

/-- Text of a plan. -/
def PlanePlan.describe (p : PlanePlan) : String :=
  record "PlanePlan" [("main", p.main.describe), ("overlay", p.overlay.describe),
    ("steps", list (p.steps.map PlaneStep.describe))]

/-- Text of what composites by a plan. -/
def PlanePlan.describeCompositor (p : PlanePlan) : String :=
  record "PlaneCompositor" [("plan", p.describe)]

/-! ### Filter -/

/-- Text of a mode. -/
def EvalMode.describe : EvalMode → String
  | .init => "Init"
  | .frame => "Frame"

/-- Text of a configuration. -/
def OverlayConfig.describe (c : OverlayConfig) : String :=
  record "OverlayConfig" [("x", quoted c.x), ("y", quoted c.y), ("eval", c.eval.describe),
    ("eof_action", c.eofAction.describe), ("shortest", bool c.shortest),
    ("repeatlast", bool c.repeatLast),
    ("time_base", option (c.timeBase.map TimeBase.describe))]

/-- Text of a filter. -/
def OverlayFilter.describe (f : OverlayFilter) : String :=
  record "OverlayCudaFilter" [("config", f.config.describe), ("sync", f.sync.describe),
    ("configured", bool f.outputInfo.isSome)]

end FrameOverlay
