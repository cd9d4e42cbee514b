import FrameOverlay.Device.State

/-!
# Pictures and frames

* `FramesContext` — what the pictures of one link have in common: device, format, size, pool;
* `Picture` — a picture in device memory, which refers to its buffer;
* `Frame` — a picture with a presentation timestamp.
-/

namespace FrameOverlay

/-- What the pictures of one link have in common. -/
structure FramesContext where
  device : DeviceContext
  format : PixelFormat
  width : UInt32
  height : UInt32
  /-- Where fresh buffers come from. -/
  pool : Option PoolId
  deriving DecidableEq, Repr

/-- A picture in device memory. -/
structure Picture where
  buffer : BufferId
  format : PixelFormat
  width : UInt32
  height : UInt32
  /-- Position in the stream, in bytes. -/
  pos : Option Int64
  context : Option FramesContext
  deriving DecidableEq, Repr

/-- A picture with a presentation timestamp. -/
abbrev Frame := Stamped Picture

namespace Picture

/-- The pool the picture's link draws buffers from. -/
def pool? (p : Picture) : Option PoolId := p.context.bind FramesContext.pool

end Picture

end FrameOverlay
