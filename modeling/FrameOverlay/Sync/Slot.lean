import FrameOverlay.Queue
import FrameOverlay.TimeBase

/-!
# Synchronizer slots

The synchronizer keeps one slot per input: the current frame, and one frame or the end of the
stream ahead of it.

* `ExtMode` — what an input contributes outside the range its frames cover;
* `Lookahead` — what lies ahead: nothing known yet, a frame, or the end of the stream;
* `Slot.Phase` — before the first frame, running, or exhausted; a slot moves through these in
  this order, and only a running slot has a current frame;
* `Slot.promote` — what lies ahead becomes current;
* `Slot.work` — a measure of how much a slot still has to take in and promote.
-/

namespace FrameOverlay

/-- What an input contributes before its first or after its last frame. -/
inductive ExtMode where
  /-- Nothing comes out: the output waits, or ends. -/
  | stop
  /-- The input contributes no frame. -/
  | null
  /-- The first or last frame extends without bound. -/
  | infinity
  deriving DecidableEq, Repr

/-- Phase of a slot without its contents. -/
inductive SlotState where
  | awaitingFirst
  | running
  | exhausted
  deriving DecidableEq, Repr

/-! ### What lies ahead -/

/-- What lies ahead of the current frame. -/
inductive Lookahead (α : Type) where
  | unknown
  | frame (f : Stamped α)
  /-- The stream ends, which takes effect at `pts`. -/
  | ended (pts : Timestamp)
  deriving DecidableEq, Repr

namespace Lookahead

variable {α : Type}

/-- Something is known to lie ahead. -/
def isKnown : Lookahead α → Bool
  | unknown => false
  | _ => true

/-- When it takes effect; `Timestamp.unset` as long as nothing is known. -/
def pts : Lookahead α → Timestamp
  | unknown => Timestamp.unset
  | frame f => f.time
  | ended pts => pts

/-- Work left: a frame is promoted and then looked past, an end is promoted once. -/
def work : Lookahead α → Nat
  | unknown => 2
  | frame _ => 3
  | ended _ => 1

end Lookahead

/-! ### Slots -/

/-- How far a slot has come. -/
inductive Slot.Phase (α : Type) where
  | awaitingFirst (next : Lookahead α)
  /-- The current frame, unless it has been handed out, its timestamp, and what lies ahead. -/
  | running (current : Option (Stamped α)) (pts : Timestamp) (next : Lookahead α)
  | exhausted
  deriving DecidableEq, Repr

/-- One input of the synchronizer. -/
structure Slot (α : Type) where
  phase : Slot.Phase α
  before : ExtMode
  after : ExtMode
  /-- Only inputs at the highest level among those that go on trigger events; zero never does. -/
  level : Nat
  /-- Time base of the input. -/
  timeBase : TimeBase
  deriving DecidableEq, Repr

namespace Slot

variable {α : Type}

/-- A slot before its first frame. -/
def fresh (before after : ExtMode) (level : Nat) (timeBase : TimeBase) : Slot α :=
  ⟨.awaitingFirst .unknown, before, after, level, timeBase⟩

/-- Phase without its contents. -/
def state (s : Slot α) : SlotState :=
  match s.phase with
  | .awaitingFirst _ => .awaitingFirst
  | .running _ _ _ => .running
  | .exhausted => .exhausted

/-- The current frame. -/
def current? (s : Slot α) : Option (Stamped α) :=
  match s.phase with
  | .running current _ _ => current
  | _ => none

/-- What lies ahead. -/
def next (s : Slot α) : Lookahead α :=
  match s.phase with
  | .awaitingFirst next | .running _ _ next => next
  | .exhausted => .unknown

/-- The slot wants to look ahead: it goes on, and does not know how. -/
def wants (s : Slot α) : Bool :=
  s.state != .exhausted && !s.next.isKnown

/-- Sets what lies ahead of a slot that goes on. -/
def withNext (s : Slot α) (next : Lookahead α) : Slot α :=
  { s with phase := match s.phase with
      | .awaitingFirst _ => .awaitingFirst next
      | .running current pts _ => .running current pts next
      | .exhausted => .exhausted }

/-- The current frame is handed out and no longer held. -/
def takeCurrent (s : Slot α) : Slot α :=
  { s with phase := match s.phase with
      | .running _ pts next => .running none pts next
      | phase => phase }

/-- When the end of the stream takes effect, seen now: never if the last frame extends without
bound or there has been none, else right after the current frame. -/
def endTime (s : Slot α) : Timestamp :=
  match s.phase with
  | .running _ pts _ => if s.after = .infinity then Timestamp.endless else Timestamp.next pts
  | _ => Timestamp.endless

/-- A frame of the input comes to lie ahead, with its timestamp in time base `target`. -/
def lookAtFrame (s : Slot α) (target : TimeBase) (f : Stamped α) : Slot α :=
  s.withNext (.frame (f.rescaled s.timeBase target))

/-- The end of the stream comes to lie ahead; the slot triggers no more events. -/
def lookAtEnd (s : Slot α) : Slot α :=
  { s.withNext (.ended s.endTime) with level := 0 }

/-- What lies ahead becomes current: a frame, or else the slot is exhausted. -/
def promote (s : Slot α) : Slot α :=
  { s with phase := match s.next with
      | .frame f => .running (some f) f.time .unknown
      | _ => .exhausted }

/-- When what lies ahead takes effect; `Timestamp.endless` as long as nothing is known. -/
def nextTime (s : Slot α) : Timestamp :=
  if s.next.isKnown then s.next.pts else Timestamp.endless

/-- The level of a slot that goes on; an exhausted slot has none. -/
def activeLevel (s : Slot α) : Nat :=
  if s.state = .exhausted then 0 else s.level

/-- The slot holds the output back until it has a frame. -/
def holdsBack (s : Slot α) : Bool :=
  s.state == .awaitingFirst && s.before == .stop

/-- The end of this input ends the output. -/
def endsOutput (s : Slot α) : Bool :=
  s.state == .exhausted && s.after == .stop

/-- The slot takes part in a move to `pts`. -/
def moves (s : Slot α) (pts : Timestamp) : Bool :=
  s.next.pts == pts || (s.before == .infinity && s.state == .awaitingFirst)

/-- The slot after a move to `pts`. -/
def movedTo (s : Slot α) (pts : Timestamp) : Slot α :=
  if s.moves pts then s.promote else s

/-! ### Work left -/

/-- Work left in a slot. -/
def work (s : Slot α) : Nat :=
  if s.state = .exhausted then 0 else s.next.work

theorem work_lookAtFrame (s : Slot α) (target : TimeBase) (f : Stamped α) (h : s.wants) :
    (s.lookAtFrame target f).work = s.work + 1 := by
  rcases s with ⟨next | ⟨current, pts, next⟩ | _, before, after, level, timeBase⟩
  · cases next <;> simp_all [wants, state, Slot.next, Lookahead.isKnown, lookAtFrame, withNext,
      work, Lookahead.work]
  · cases next <;> simp_all [wants, state, Slot.next, Lookahead.isKnown, lookAtFrame, withNext,
      work, Lookahead.work]
  · simp_all [wants, state]

theorem work_lookAtEnd (s : Slot α) (h : s.wants) : s.lookAtEnd.work + 1 = s.work := by
  rcases s with ⟨next | ⟨current, pts, next⟩ | _, before, after, level, timeBase⟩
  · cases next <;> simp_all [wants, state, Slot.next, Lookahead.isKnown, lookAtEnd, withNext,
      work, Lookahead.work]
  · cases next <;> simp_all [wants, state, Slot.next, Lookahead.isKnown, lookAtEnd, withNext,
      work, Lookahead.work]
  · simp_all [wants, state]

theorem work_promote_le (s : Slot α) : s.promote.work ≤ s.work := by
  rcases s with ⟨next | ⟨current, pts, next⟩ | _, before, after, level, timeBase⟩
  · cases next <;> simp [promote, state, Slot.next, work, Lookahead.work]
  · cases next <;> simp [promote, state, Slot.next, work, Lookahead.work]
  · simp [promote, state, Slot.next, work]

theorem work_promote_lt (s : Slot α) (h : s.next.isKnown) : s.promote.work < s.work := by
  rcases s with ⟨next | ⟨current, pts, next⟩ | _, before, after, level, timeBase⟩
  · cases next <;> simp_all [promote, state, Slot.next, Lookahead.isKnown, work, Lookahead.work]
  · cases next <;> simp_all [promote, state, Slot.next, Lookahead.isKnown, work, Lookahead.work]
  · simp_all [Slot.next, Lookahead.isKnown]

theorem work_movedTo_le (s : Slot α) (pts : Timestamp) : (s.movedTo pts).work ≤ s.work := by
  unfold movedTo
  split
  · exact s.work_promote_le
  · exact Nat.le_refl _

theorem work_movedTo_lt (s : Slot α) {pts : Timestamp} (known : s.next.isKnown)
    (ahead : s.next.pts = pts) : (s.movedTo pts).work < s.work := by
  have moves : s.moves pts := by simp [Slot.moves, ahead]
  rw [movedTo, if_pos moves]
  exact s.work_promote_lt known

end Slot

end FrameOverlay
