import FrameOverlay.Picture
import FrameOverlay.Session

/-!
# Copy on write

A picture may be written only while it is the sole holder of its buffer.

* `Picture.makeWritable` — gives a picture that shares its buffer a copy of its own;
* `copyPlanes` — copies plane by plane, checking that each target is large enough.
-/

namespace FrameOverlay

/-- Copies the planes `sources`, of which the first has index `index`, to those of `targets` with
the same index. -/
def copyPlanes (targets : List DevicePlane) : Nat → List DevicePlane → DeviceM Unit
  | _, [] => return ()
  | index, source :: rest =>
    match targets[index]? with
    | none => throw (.pool (.missingPlane index))
    | some target =>
      if target.rowBytes < source.rowBytes ∨ target.rows < source.rows then
        throw (.pool (.planeTooSmall index target.extent source.extent))
      else do
        DeviceM.call "cuMemcpy2DAsync" (.copy ⟨source.address, source.pitch, target.address,
          target.pitch, source.rowBytes, source.rows⟩)
        copyPlanes targets (index + 1) rest

namespace Picture

/-- A copy of the picture's buffer, made on the session's device, with the copy's number.  On a
failure the fresh buffer goes back to its pool. -/
def copyBuffer (p : Picture) (session : Session) (fresh : BufferId) : DeviceM Unit := do
  let sources ← DeviceM.planes p.buffer
  let targets ← DeviceM.planes fresh
  try
    let device ← session.device
    DeviceM.withContext device (copyPlanes targets 0 sources)
  catch e =>
    DeviceM.release fresh
    throw e

/-- Makes the picture the sole holder of its buffer.  A picture that is so already stays as it is;
another gets a fresh buffer of its pool with a copy of every plane.  The flag says whether a copy
was made. -/
def makeWritable (p : Picture) (session : Session) : DeviceM (Bool × Picture) := do
  if ← DeviceM.isExclusive p.buffer then
    return (false, p)
  match p.pool? with
  | none => throw (.pool .noPool)
  | some pool => do
    let fresh ← DeviceM.acquire pool
    p.copyBuffer session fresh
    DeviceM.release p.buffer
    return (true, { p with buffer := fresh })

end Picture

end FrameOverlay
