import FrameOverlay.Plan

/-!
# Launch parameters of the overlay kernel

* `KernelArgument` — a pointer or an integer;
* `OverlayLaunch` — the parameters of one launch by meaning;
* `OverlayLaunch.arguments`, `OverlayLaunch.ofArguments?` — the same in the kernel's order;
* `LaunchGrid.covering` — the blocks of threads for a plane, one thread per byte.
-/

namespace FrameOverlay

/-- An argument of a kernel. -/
inductive KernelArgument where
  | pointer (address : UInt64)
  | int (value : Int32)
  deriving DecidableEq, Repr

/-- Address and pitch of a plane as the kernel takes them; both zero for no plane. -/
structure PlaneArgument where
  address : UInt64
  stride : Int32
  deriving DecidableEq, Repr

namespace PlaneArgument

/-- No plane. -/
def none : PlaneArgument := ⟨0, 0⟩

end PlaneArgument

/-- Parameters of one launch. -/
structure OverlayLaunch where
  offset : PlaneVector
  main : PlaneArgument
  overlay : PlaneArgument
  /-- Size of the part of the overlay that is drawn. -/
  extent : PlaneVector
  alpha : PlaneArgument
  alphaStep : PlaneVector
  deriving DecidableEq, Repr

namespace OverlayLaunch

/-- The arguments in the order the kernel declares them. -/
def arguments (l : OverlayLaunch) : List KernelArgument :=
  [.int l.offset.x, .int l.offset.y, .pointer l.main.address, .int l.main.stride,
    .pointer l.overlay.address, .int l.overlay.stride, .int l.extent.x, .int l.extent.y,
    .pointer l.alpha.address, .int l.alpha.stride, .int l.alphaStep.x, .int l.alphaStep.y]

/-- The parameters a list of arguments stands for; none if number or kinds do not fit. -/
def ofArguments? : List KernelArgument → Option OverlayLaunch
  | [.int x, .int y, .pointer mainAddress, .int mainStride, .pointer overlayAddress,
      .int overlayStride, .int width, .int height, .pointer alphaAddress, .int alphaStride,
      .int alphaX, .int alphaY] =>
    some ⟨⟨x, y⟩, ⟨mainAddress, mainStride⟩, ⟨overlayAddress, overlayStride⟩, ⟨width, height⟩,
      ⟨alphaAddress, alphaStride⟩, ⟨alphaX, alphaY⟩⟩
  | _ => none

/-- The launch weighs the overlay by an alpha plane. -/
def hasAlpha (l : OverlayLaunch) : Bool :=
  l.alpha.address != 0 && l.alpha.stride != 0

@[simp] theorem ofArguments?_arguments (l : OverlayLaunch) :
    ofArguments? l.arguments = some l := rfl

end OverlayLaunch

/-- A count of blocks or threads in three directions. -/
structure GridSize where
  x : Nat
  y : Nat
  z : Nat
  deriving DecidableEq, Repr

/-- How a launch is spread over the device. -/
structure LaunchGrid where
  blocks : GridSize
  threads : GridSize
  sharedBytes : Nat
  deriving DecidableEq, Repr

namespace LaunchGrid

/-- Threads of one block. -/
def blockSize : GridSize := ⟨32, 16, 1⟩

/-- The number of blocks of `threads` threads that cover `size`, of which a word holds the low 32
bits. -/
def blocksFor (size threads : Nat) : Nat :=
  (size % UInt32.size + threads - 1) / threads

/-- One thread for every byte of a plane, in whole blocks. -/
def covering (extent : PlaneExtent) : LaunchGrid where
  blocks := ⟨blocksFor extent.rowBytes blockSize.x, blocksFor extent.rows blockSize.y, 1⟩
  threads := blockSize
  sharedBytes := 0

end LaunchGrid

end FrameOverlay
