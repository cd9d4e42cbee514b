/-!
# Frame queues

* `FrameQueue` — frames in the order they came, and whether more may follow;
* `FrameQueue.consume` — the next frame, nothing yet, or the end.
-/

namespace FrameOverlay

/-- What a queue has to offer. -/
inductive LinkPoll (α : Type) where
  | frame (f : α)
  /-- Nothing is queued, but more may follow. -/
  | empty
  /-- Nothing is queued and nothing follows. -/
  | ended
  deriving DecidableEq, Repr

/-- Frames waiting to be consumed, oldest first. -/
structure FrameQueue (α : Type) where
  frames : List α := []
  closed : Bool := false
  deriving DecidableEq, Repr

namespace FrameQueue

variable {α : Type}

/-- Number of frames waiting. -/
def size (q : FrameQueue α) : Nat := q.frames.length

/-- No frame is waiting. -/
def isEmpty (q : FrameQueue α) : Bool := q.frames.isEmpty

/-- Adds a frame.  A closed queue still delivers it before its end. -/
def push (q : FrameQueue α) (f : α) : FrameQueue α :=
  { q with frames := q.frames ++ [f] }

/-- No more frames are to follow. -/
def close (q : FrameQueue α) : FrameQueue α :=
  { q with closed := true }

/-- Takes the oldest frame out. -/
def pop (q : FrameQueue α) : Option α × FrameQueue α :=
  match q.frames with
  | [] => (none, q)
  | f :: rest => (some f, { q with frames := rest })

/-- Takes the oldest frame out, or says why there is none. -/
def consume (q : FrameQueue α) : LinkPoll α × FrameQueue α :=
  match q.frames with
  | f :: rest => (.frame f, { q with frames := rest })
  | [] => (if q.closed then .ended else .empty, q)

/-- Takes all frames out. -/
def drain (q : FrameQueue α) : List α × FrameQueue α :=
  (q.frames, { q with frames := [] })

@[simp] theorem size_push (q : FrameQueue α) (f : α) : (q.push f).size = q.size + 1 := by
  simp only [size, push, List.length_append, List.length_cons, List.length_nil]

end FrameQueue

end FrameOverlay
