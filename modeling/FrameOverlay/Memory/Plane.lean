import FrameOverlay.Format

/-!
# Planes in device memory

* `DevicePlane` — address, pitch and size of one plane;
* `DevicePlane.layout` — the planes of a picture one after the other from a base address, each
  pitch a multiple of an alignment.

Addresses and byte counts are 64-bit words: a layout that leaves the address space wraps around.
-/

namespace FrameOverlay

/-- One plane of a picture in device memory. -/
structure DevicePlane where
  /-- Address of the first byte. -/
  address : UInt64
  /-- Bytes from one row to the next. -/
  pitch : Nat
  rowBytes : Nat
  rows : Nat
  deriving DecidableEq, Repr

namespace DevicePlane

/-- Bytes from the first row to the end of the last. -/
def span (p : DevicePlane) : Nat := p.pitch * p.rows

/-- Width and height in bytes and rows. -/
def extent (p : DevicePlane) : PlaneExtent := ⟨p.rowBytes, p.rows⟩

/-- The least multiple of `align` that holds `bytes`. -/
def alignedPitch (bytes align : Nat) : Nat :=
  (bytes + align - 1) / align * align % UInt64.size

/-- The planes of `extents` from `address` on, each behind the one before. -/
def stack (align : Nat) (address : UInt64) : List PlaneExtent → List DevicePlane
  | [] => []
  | e :: es =>
    let plane : DevicePlane := ⟨address, alignedPitch e.rowBytes align, e.rowBytes, e.rows⟩
    plane :: stack align (address + UInt64.ofNat plane.span) es

/-- The planes of a `width × height` picture from `base` on.  An alignment of zero counts as
one. -/
def layout (base : UInt64) (format : PixelFormat) (width height : UInt32) (align : Nat) :
    List DevicePlane :=
  stack (max align 1) base
    ((List.range format.planeCount).map fun i => format.planeExtent i width height)

/-- Bytes from the first plane to the end of the last, for planes that follow each other. -/
def totalSpan (planes : List DevicePlane) : UInt64 :=
  planes.foldl (fun sum p => sum + UInt64.ofNat p.span) 0

theorem length_stack (align : Nat) (address : UInt64) (extents : List PlaneExtent) :
    (stack align address extents).length = extents.length := by
  induction extents generalizing address with
  | nil => rfl
  | cons e es ih => simp only [stack, List.length_cons, ih]

/-- A picture has as many planes as its format says. -/
@[simp] theorem length_layout (base : UInt64) (format : PixelFormat) (width height : UInt32)
    (align : Nat) : (layout base format width height align).length = format.planeCount := by
  simp only [layout, length_stack, List.length_map, List.length_range]

end DevicePlane

end FrameOverlay
