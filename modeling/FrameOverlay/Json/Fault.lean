/-!
# Faults of a JSON text

Why a JSON text is refused, as far as callers tell cases apart.
-/

namespace FrameOverlay.Json

/-- Kind of the first fault, reading from left to right. -/
inductive Fault where
  /-- The text is not JSON. -/
  | malformed
  /-- The text is JSON up to here, but holds another value than the reader asks for. -/
  | mismatched
  /-- The text ends too early. -/
  | truncated
  deriving DecidableEq, Repr

end FrameOverlay.Json
