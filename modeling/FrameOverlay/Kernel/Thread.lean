import FrameOverlay.Kernel.Launch

/-!
# Threads of a launch

What the kernel does with its parameters: a launch runs one thread for every place in its grid, and a
thread belongs to one byte of the main plane.  Coordinates are numbers without bound; those of a plane of
fewer than `2 ^ 31` rows are the kernel's own.

* `Sample` — a byte of a plane, by column and row; `PlaneExtent.Holds` — it lies on the plane;
* `Rectangle` — a size placed somewhere, `PlaneStep.rectangle` — the overlay as a step places it;
* `Thread`, `LaunchGrid.Runs` — the threads of a grid, `LaunchGrid.sample` — a thread's byte;
* `OverlayLaunch.Active` — **the kernel's guard**: the thread goes on and does not return at once;
* `OverlayLaunch.overlaySample`, `OverlayLaunch.alphaSample` — what an active thread reads.
-/

namespace FrameOverlay

/-- A byte of a plane, by column and row. -/
structure Sample where
  x : Int
  y : Int
  deriving DecidableEq, Repr

/-- The byte lies on the plane. -/
def PlaneExtent.Holds (e : PlaneExtent) (p : Sample) : Prop :=
  (0 ≤ p.x ∧ p.x < e.rowBytes) ∧ 0 ≤ p.y ∧ p.y < e.rows

instance (e : PlaneExtent) (p : Sample) : Decidable (e.Holds p) :=
  inferInstanceAs (Decidable (_ ∧ _))

/-- A size placed somewhere. -/
structure Rectangle where
  origin : PlaneVector
  size : PlaneVector
  deriving DecidableEq, Repr

namespace Rectangle

/-- The byte lies in the rectangle. -/
def Holds (r : Rectangle) (p : Sample) : Prop :=
  (r.origin.x.toInt ≤ p.x ∧ p.x < r.origin.x.toInt + r.size.x.toInt) ∧
    r.origin.y.toInt ≤ p.y ∧ p.y < r.origin.y.toInt + r.size.y.toInt

instance (r : Rectangle) (p : Sample) : Decidable (r.Holds p) :=
  inferInstanceAs (Decidable (_ ∧ _))

end Rectangle

/-- The overlay as a step places it on its plane. -/
def PlaneStep.rectangle (s : PlaneStep) (o : OverlayOffset) (width height : UInt32) : Rectangle :=
  ⟨s.offset o, s.overlayExtent width height⟩

/-- A thread: the number of its block, and its number in the block. -/
structure Thread where
  block : GridSize
  lane : GridSize
  deriving DecidableEq, Repr

namespace LaunchGrid

/-- The thread is one of the grid's. -/
def Runs (g : LaunchGrid) (t : Thread) : Prop :=
  (t.block.x < g.blocks.x ∧ t.block.y < g.blocks.y ∧ t.block.z < g.blocks.z) ∧
    t.lane.x < g.threads.x ∧ t.lane.y < g.threads.y ∧ t.lane.z < g.threads.z

instance (g : LaunchGrid) (t : Thread) : Decidable (g.Runs t) :=
  inferInstanceAs (Decidable (_ ∧ _))

/-- The byte of the main plane that belongs to a thread. -/
def sample (g : LaunchGrid) (t : Thread) : Sample :=
  ⟨((t.block.x * g.threads.x + t.lane.x : Nat) : Int), ((t.block.y * g.threads.y + t.lane.y : Nat) : Int)⟩

end LaunchGrid

namespace OverlayLaunch

/-- The overlay byte that goes with a byte of the main plane. -/
def overlaySample (l : OverlayLaunch) (p : Sample) : Sample :=
  ⟨p.x - l.offset.x.toInt, p.y - l.offset.y.toInt⟩

/-- The alpha byte that goes with it. -/
def alphaSample (l : OverlayLaunch) (p : Sample) : Sample :=
  ⟨l.alphaStep.x.toInt * (l.overlaySample p).x, l.alphaStep.y.toInt * (l.overlaySample p).y⟩

/-- The kernel's guard: the overlay byte lies in the part that is drawn. -/
def Active (l : OverlayLaunch) (p : Sample) : Prop :=
  (0 ≤ (l.overlaySample p).x ∧ (l.overlaySample p).x < l.extent.x.toInt) ∧
    0 ≤ (l.overlaySample p).y ∧ (l.overlaySample p).y < l.extent.y.toInt

instance (l : OverlayLaunch) (p : Sample) : Decidable (l.Active p) :=
  inferInstanceAs (Decidable (_ ∧ _))

end OverlayLaunch

end FrameOverlay
