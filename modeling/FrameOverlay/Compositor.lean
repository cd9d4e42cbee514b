import FrameOverlay.Writable

/-!
# Blending

* `PlanePlan.launchFor` — the parameters of one launch;
* `visibleExtent` — how much of the overlay lies on the plane;
* `PlanePlan.blend` — the launches of a plan, in one context scope, up to the first failure;
* `PlanePlan.composite` — makes the main picture writable and blends the overlay into it.
-/

namespace FrameOverlay

/-- The part of `extent` samples placed at `origin` that does not reach past `limit`.  Distances
are 64-bit words. -/
def visibleExtent (extent origin : Int32) (limit : Nat) : Int32 :=
  let room : Int := ((limit : Int) - origin.toInt).bmod UInt64.size
  Int32.ofInt (max 0 (min extent.toInt room))

/-- A pitch as a kernel argument. -/
def strideOf (pitch : Nat) : Except OverlayError Int32 :=
  if pitch ≤ Int32.maxValue.toInt then
    .ok (Int32.ofNat pitch)
  else
    .error (.invariantViolation (.pitchTooLarge pitch))

/-- Plane `index` of a picture of which the planes are `planes`. -/
def planeAt (owner : String) (format : PixelFormat) (planes : List DevicePlane) (index : Nat) :
    Except OverlayError DevicePlane :=
  match planes[index]? with
  | some plane => .ok plane
  | none => .error (.invariantViolation (.missingPlane owner format index))

/-- A plane as a kernel argument. -/
def planeArgument (plane : DevicePlane) : Except OverlayError PlaneArgument := do
  return ⟨plane.address, ← strideOf plane.pitch⟩

/-- The overlay's alpha plane as a kernel argument, if a step reads one. -/
def alphaArgument (step : PlaneStep) (overlay : Picture) (overlayPlanes : List DevicePlane) :
    Except OverlayError PlaneArgument :=
  match step.alphaPlane with
  | none => .ok .none
  | some index => do
    planeArgument (← planeAt "overlay alpha" overlay.format overlayPlanes index)

namespace PlanePlan

/-- Parameters of the launch of `step` on `mainPlane`.  Planes are looked for before their pitches
are judged, alpha's own before the others'. -/
def launchFor (step : PlaneStep) (mainPlane : DevicePlane) (overlay : Picture)
    (overlayPlanes : List DevicePlane) (offset : OverlayOffset) :
    Except OverlayError OverlayLaunch := do
  let overlayPlane ← planeAt "overlay" overlay.format overlayPlanes step.plane
  let origin := step.offset offset
  let extent := step.overlayExtent overlay.width overlay.height
  let alpha ← alphaArgument step overlay overlayPlanes
  let mainArgument ← planeArgument mainPlane
  let overlayArgument ← planeArgument overlayPlane
  return {
    offset := origin
    main := mainArgument
    overlay := overlayArgument
    extent := ⟨visibleExtent extent.x origin.x mainPlane.rowBytes,
      visibleExtent extent.y origin.y mainPlane.rows⟩
    alpha := alpha
    alphaStep := step.alphaStep }

/-- The launch of one step as it is handed to the driver. -/
def recordFor (step : PlaneStep) (device : DeviceContext) (function : Handle)
    (main overlay : Picture) (mainPlanes overlayPlanes : List DevicePlane)
    (offset : OverlayOffset) : Except OverlayError LaunchRecord := do
  let mainPlane ← planeAt "main" main.format mainPlanes step.plane
  let launch ← launchFor step mainPlane overlay overlayPlanes offset
  return ⟨function, .covering mainPlane.extent, device.stream, launch.arguments⟩

/-- Issues one launch. -/
def launchStep (step : PlaneStep) (device : DeviceContext) (function : Handle)
    (main overlay : Picture) (offset : OverlayOffset) : DeviceM Unit := do
  let mainPlanes ← DeviceM.planes main.buffer
  let overlayPlanes ← DeviceM.planes overlay.buffer
  match recordFor step device function main overlay mainPlanes overlayPlanes offset with
  | .error e => throw e
  | .ok record => DeviceM.call "cuLaunchKernel" (.launch record)

/-- Issues launches in order, up to the first that fails. -/
def launchAll (device : DeviceContext) (function : Handle) (main overlay : Picture)
    (offset : OverlayOffset) : List PlaneStep → DeviceM Unit
  | [] => return ()
  | step :: rest => do
    launchStep step device function main overlay offset
    launchAll device function main overlay offset rest

/-- The launches of a plan, with the session's context current. -/
def blend (plan : PlanePlan) (session : Session) (main overlay : Picture)
    (offset : OverlayOffset) : DeviceM Nat := do
  let device ← session.device
  DeviceM.withContext device
    (launchAll device session.function main overlay offset plan.steps)
  return plan.launches

/-- The plan was made for the formats of the two pictures. -/
def fits (plan : PlanePlan) (main overlay : Picture) : Bool :=
  main.format == plan.main && overlay.format == plan.overlay

/-- Blends the overlay into the main picture, which becomes the sole holder of its buffer first.
Gives the number of launches, and the main picture afterwards also where it fails. -/
def composite (plan : PlanePlan) (session : Session) (main overlay : Picture)
    (offset : OverlayOffset) (s : DeviceState) :
    (Except OverlayError Nat × Picture) × DeviceState :=
  if plan.fits main overlay then
    match main.makeWritable session s with
    | .error e s => ((.error e, main), s)
    | .ok (_, main') s =>
      match plan.blend session main' overlay offset s with
      | .error e s => ((.error e, main'), s)
      | .ok n s => ((.ok n, main'), s)
  else
    ((.error (.invalidPairing
      (.unplanned plan.main plan.overlay main.format overlay.format)), main), s)

end PlanePlan

end FrameOverlay
