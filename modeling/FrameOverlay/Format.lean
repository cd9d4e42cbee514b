/-!
# Pixel formats and input roles

The software layouts a picture in device memory may have, and the two inputs of the overlay
stage.

* `PixelFormat` — the six layouts, with their short `name`;
* `PlaneFamily` — the two plane layouts the overlay kernel can blend;
* `PixelFormat.planeExtent` — bytes per row and rows of one plane of a picture; chroma sizes
  round up, so a picture of odd size keeps its last chroma column and row;
* `InputRole` — main or overlay.
-/

namespace FrameOverlay

/-! ### Inputs -/

/-- Which of the two inputs a value belongs to. -/
inductive InputRole where
  | main
  | overlay
  deriving DecidableEq, Repr

namespace InputRole

/-- Position of the input among the two: main comes first. -/
def index : InputRole → Nat
  | .main => 0
  | .overlay => 1

/-- Lowercase name. -/
def name : InputRole → String
  | .main => "main"
  | .overlay => "overlay"

end InputRole

/-! ### Formats -/

/-- Software layout of a picture in device memory. -/
inductive PixelFormat where
  /-- Luma plane and one interleaved chroma plane, halved in both directions. -/
  | nv12
  /-- Luma plane and two chroma planes, halved in both directions. -/
  | yuv420p
  /-- `yuv420p` with a full-size alpha plane as plane 3. -/
  | yuva420p
  /-- `nv12` with two bytes per sample. -/
  | p010
  /-- Three full-size planes. -/
  | yuv444p
  /-- One plane of four-byte pixels. -/
  | bgra
  deriving DecidableEq, Repr

/-- Plane layout of a format that can be blended. -/
inductive PlaneFamily where
  /-- Luma and interleaved chroma: two planes. -/
  | chromaPacked
  /-- Luma and two independent chroma planes, with or without alpha. -/
  | planar
  deriving DecidableEq, Repr

/-- Base-two logarithms of a horizontal and a vertical reduction. -/
structure Reduction where
  x : Nat
  y : Nat
  deriving DecidableEq, Repr

/-- Size of one plane in memory. -/
structure PlaneExtent where
  rowBytes : Nat
  rows : Nat
  deriving DecidableEq, Repr

namespace PixelFormat

/-- Every format, in the order they are declared. -/
def all : List PixelFormat := [.nv12, .yuv420p, .yuva420p, .p010, .yuv444p, .bgra]

/-- Short lowercase name. -/
def name : PixelFormat → String
  | .nv12 => "nv12"
  | .yuv420p => "yuv420p"
  | .yuva420p => "yuva420p"
  | .p010 => "p010"
  | .yuv444p => "yuv444p"
  | .bgra => "bgra"

/-- The format of a name; names are case sensitive. -/
def ofName? (s : String) : Option PixelFormat :=
  all.find? fun f => f.name == s

/-- Family of the formats the overlay kernel can blend. -/
def family : PixelFormat → Option PlaneFamily
  | .nv12 => some .chromaPacked
  | .yuv420p | .yuva420p => some .planar
  | .p010 | .yuv444p | .bgra => none

/-- Number of separately addressed planes. -/
def planeCount : PixelFormat → Nat
  | .nv12 | .p010 => 2
  | .yuv420p | .yuv444p => 3
  | .yuva420p => 4
  | .bgra => 1

/-- Whether alpha accompanies the colour samples, in a plane of its own or not. -/
def hasAlpha : PixelFormat → Bool
  | .yuva420p | .bgra => true
  | _ => false

/-- Index of the alpha plane, when alpha has a plane of its own. -/
def alphaPlane : PixelFormat → Option Nat
  | .yuva420p => some 3
  | _ => none

/-- Bytes of one sample; `bgra` counts its packed pixel. -/
def bytesPerSample : PixelFormat → Nat
  | .p010 => 2
  | .bgra => 4
  | _ => 1

/-- How far chroma is reduced against luma. -/
def chromaReduction : PixelFormat → Reduction
  | .nv12 | .p010 | .yuv420p | .yuva420p => ⟨1, 1⟩
  | .yuv444p | .bgra => ⟨0, 0⟩

/-- A size reduced by `2 ^ shift`, rounded up. -/
def subsampled (size shift : Nat) : Nat :=
  (size + (1 <<< shift) - 1) / (1 <<< shift)

/-- Size of plane `plane` of a `width × height` picture.  Indices past the last plane read as
one more chroma plane. -/
def planeExtent (f : PixelFormat) (plane : Nat) (width height : UInt32) : PlaneExtent :=
  let w := width.toNat
  let h := height.toNat
  let chroma := f.chromaReduction
  match f, plane with
  | .bgra, _ => ⟨w * f.bytesPerSample, h⟩
  | _, 0 => ⟨w * f.bytesPerSample, h⟩
  | .nv12, 1 | .p010, 1 =>
    ⟨subsampled w chroma.x * 2 * f.bytesPerSample, subsampled h chroma.y⟩
  | .yuva420p, 3 => ⟨w, h⟩
  | _, _ => ⟨subsampled w chroma.x * f.bytesPerSample, subsampled h chroma.y⟩

theorem ofName?_name (f : PixelFormat) : ofName? f.name = some f := by
  cases f <;> decide

end PixelFormat

end FrameOverlay
