import FrameOverlay.Error
import FrameOverlay.Offset

/-!
# Plane plans

Which kernel launches blend an overlay of one format into a main picture of another:

    main      overlay     launches   chroma offset   alpha step
    nv12      nv12        2          (x, y/2)        none
    yuv420p   yuv420p     3          (x/2, y/2)      none
    yuv420p   yuva420p    3          (x/2, y/2)      (1,1) on luma, (2,2) on chroma

* `PlaneStep` — one launch: the plane, how offset and overlay size are reduced for it, and how
  the kernel walks the alpha plane;
* `PlaneStep.offset`, `PlaneStep.overlayExtent` — offset and size on the step's plane;
* `PlanePlan.ofFormats` — the plan of a pair of formats, or why it has none.
-/

namespace FrameOverlay

/-- A pair of signed numbers, across and down. -/
structure PlaneVector where
  x : Int32
  y : Int32
  deriving DecidableEq, Repr

/-- One launch of a blend. -/
structure PlaneStep where
  /-- Plane index, the same in main and overlay. -/
  plane : Nat
  /-- How far the luma offset is reduced. -/
  offsetReduction : Reduction
  /-- How far the overlay's size is reduced. -/
  overlayReduction : Reduction
  /-- The overlay's alpha plane, if the launch reads one. -/
  alphaPlane : Option Nat
  /-- Distance of neighbouring samples in the alpha plane. -/
  alphaStep : PlaneVector
  deriving DecidableEq, Repr

namespace PlaneStep

/-- A coordinate divided by `2 ^ shift`, toward zero. -/
def reduced (coordinate : Int32) (shift : Nat) : Int32 :=
  Int32.ofInt (coordinate.toInt.tdiv (1 <<< shift : Nat))

/-- The offset on the step's plane. -/
def offset (s : PlaneStep) (o : OverlayOffset) : PlaneVector :=
  ⟨reduced o.x.kernelColumn s.offsetReduction.x, reduced o.y s.offsetReduction.y⟩

/-- The size of a `width × height` overlay on the step's plane, rounded down.  Sizes are words:
from `2 ^ 31` on they turn negative. -/
def overlayExtent (s : PlaneStep) (width height : UInt32) : PlaneVector :=
  ⟨Int32.ofNat (width.toNat >>> s.overlayReduction.x),
    Int32.ofNat (height.toNat >>> s.overlayReduction.y)⟩

end PlaneStep

/-- The launches for one pair of formats, in the order they are issued. -/
structure PlanePlan where
  main : PixelFormat
  overlay : PixelFormat
  steps : List PlaneStep
  deriving DecidableEq, Repr

namespace PlanePlan

/-- Number of launches of one blend. -/
def launches (p : PlanePlan) : Nat := p.steps.length

/-- The launch on the luma plane. -/
def lumaStep (alpha : Option Nat) : PlaneStep :=
  ⟨0, ⟨0, 0⟩, ⟨0, 0⟩, alpha, ⟨1, 1⟩⟩

/-- The launch on an interleaved chroma plane: halved in height only, as a row keeps its bytes. -/
def packedChromaStep : PlaneStep :=
  ⟨1, ⟨0, 1⟩, ⟨0, 1⟩, none, ⟨0, 0⟩⟩

/-- The launch on a chroma plane of its own: halved both ways. -/
def planarChromaStep (alpha : Option Nat) (plane : Nat) : PlaneStep :=
  ⟨plane, ⟨1, 1⟩, ⟨1, 1⟩, alpha, ⟨2, 2⟩⟩

/-- The launches for an overlay of the given family. -/
def stepsOf (alpha : Option Nat) : PlaneFamily → List PlaneStep
  | .chromaPacked => [lumaStep alpha, packedChromaStep]
  | .planar => [lumaStep alpha, planarChromaStep alpha 1, planarChromaStep alpha 2]

/-- Formats the main picture may have. -/
def acceptsMain : PixelFormat → Bool
  | .nv12 | .yuv420p => true
  | _ => false

/-- The plan of a pair of formats.  The main format is judged first, then the overlay's, then
whether the two belong to one family. -/
def ofFormats (main overlay : PixelFormat) : Except OverlayError PlanePlan :=
  if acceptsMain main then
    match overlay.family with
    | none => .error (.unsupportedFormat .overlay overlay)
    | some family =>
      if main.family = some family then
        .ok ⟨main, overlay, stepsOf overlay.alphaPlane family⟩
      else
        .error (.incompatibleFormats main overlay)
  else
    .error (.unsupportedFormat .main main)

end PlanePlan

end FrameOverlay
