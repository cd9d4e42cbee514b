import FrameOverlay.Error
import FrameOverlay.Memory.Plane

/-!
# Frame pools

A pool hands out buffers of one picture size, at ever higher addresses, and counts those that are
still in use.

* `FramePool.acquire` — the planes of a fresh buffer;
* `FramePool.giveBack` — a buffer is no longer in use.
-/

namespace FrameOverlay

/-- A source of buffers of one format and size. -/
structure FramePool where
  format : PixelFormat
  width : UInt32
  height : UInt32
  /-- Where the next buffer will start. -/
  nextBase : UInt64
  /-- Buffers handed out so far. -/
  acquired : Nat
  /-- Buffers handed out and not yet given back. -/
  outstanding : Nat
  deriving DecidableEq, Repr

namespace FramePool

/-- Address of a pool's first buffer. -/
def firstBase : UInt64 := 0x70000000

/-- Alignment of every pitch. -/
def pitchAlign : Nat := 256

/-- A pool that has handed out nothing yet. -/
def new (format : PixelFormat) (width height : UInt32) : FramePool :=
  ⟨format, width, height, firstBase, 0, 0⟩

/-- The planes of a buffer at `base`. -/
def planesAt (p : FramePool) (base : UInt64) : List DevicePlane :=
  DevicePlane.layout base p.format p.width p.height pitchAlign

/-- Hands out a fresh buffer behind the one before.  Pools of empty pictures have none. -/
def acquire (p : FramePool) : Except OverlayError (List DevicePlane × FramePool) :=
  if p.width = 0 ∨ p.height = 0 then
    .error (.pool .zeroSized)
  else
    .ok (p.planesAt p.nextBase,
      { p with
        nextBase := p.nextBase + DevicePlane.totalSpan (p.planesAt 0)
        acquired := p.acquired + 1
        outstanding := p.outstanding + 1 })

/-- A buffer is no longer in use. -/
def giveBack (p : FramePool) : FramePool :=
  { p with outstanding := p.outstanding - 1 }

end FramePool

end FrameOverlay
