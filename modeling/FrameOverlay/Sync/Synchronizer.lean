import FrameOverlay.Error
import FrameOverlay.Sync.Options
import FrameOverlay.Sync.Slot

/-!
# The frame synchronizer

Two inputs that come at their own pace are turned into a sequence of events, each a main frame and
the overlay frame that covers it.  An event happens at the smallest timestamp ahead, as soon as
the main input has a frame for it.

* `SyncEvent` — one pair of frames;
* `Synchronizer` — the two slots, the policy, the common time base, and where the output stands;
* `Synchronizer.configure` — applies a policy and fixes the time base;
* `Flow.round` — one step: look ahead on both inputs, move to the smallest timestamp;
* `Flow.advance` — rounds until an event is due, an input has nothing queued, or the output ends;
* `Synchronizer.activate` — advances, and gives out the event that is due.

The receiver of an event is not part of the synchronizer: nothing here depends on what becomes of
an event once it is given out.
-/

namespace FrameOverlay

/-- One pair of frames. -/
structure SyncEvent (α : Type) where
  /-- The main frame, stamped with the time of the event; without timestamp if that is unset. -/
  main : Stamped α
  /-- The overlay frame that covers the event. -/
  overlay : Option (Stamped α)
  pts : Timestamp
  timeBase : TimeBase
  /-- Number of the event, from zero. -/
  index : Nat
  /-- The synchronizer goes on holding the main frame, which it may need for a later event. -/
  mainKept : Bool
  deriving DecidableEq, Repr

/-- Time of an event in seconds. -/
def SyncEvent.seconds {α : Type} (e : SyncEvent α) : Option Float :=
  (Timestamp.toOption e.pts).map e.timeBase.seconds

/-- A synchronizer of two inputs. -/
structure Synchronizer (α : Type) where
  main : Slot α
  overlay : Slot α
  options : SyncOptions
  /-- Time base of the events; none before the first configuration. -/
  timeBase : Option TimeBase
  /-- Where the output stands. -/
  pts : Timestamp
  /-- The level at which inputs trigger events; none before the first configuration. -/
  level : Option Nat
  /-- The output has ended. -/
  eof : Bool
  /-- Events given out so far. -/
  events : Nat
  deriving DecidableEq, Repr

namespace Synchronizer

variable {α : Type}

/-! ### Configuration -/

/-- The main slot: nothing comes out before its first frame, and its last extends without
bound. -/
def mainSlot (timeBase : TimeBase) : Slot α := .fresh .stop .infinity 2 timeBase

/-- The overlay slot: it contributes nothing before its first frame, and its last extends without
bound. -/
def overlaySlot (timeBase : TimeBase) : Slot α := .fresh .null .infinity 1 timeBase

/-- A synchronizer that has not been configured. -/
def new : Synchronizer α where
  main := mainSlot .micros
  overlay := overlaySlot .micros
  options := {}
  timeBase := none
  pts := Timestamp.unset
  level := none
  eof := false
  events := 0

/-- The slot of an input. -/
def slot (s : Synchronizer α) : InputRole → Slot α
  | .main => s.main
  | .overlay => s.overlay

/-- Replaces the slot of an input. -/
def putSlot (s : Synchronizer α) : InputRole → Slot α → Synchronizer α
  | .main, slot => { s with main := slot }
  | .overlay, slot => { s with overlay := slot }

/-- The output ends. -/
def finish (s : Synchronizer α) : Synchronizer α := { s with eof := true }

/-- Sets the level to the highest of the inputs that go on; if that is zero nothing can trigger
an event any more, and the output ends. -/
def updateLevel (s : Synchronizer α) : Synchronizer α :=
  let level := max s.main.activeLevel s.overlay.activeLevel
  if level = 0 then s.finish else { s with level := some level }

/-- The slots under a policy: without repeating, the overlay contributes nothing after its end and
triggers no events; with `shortest`, either end ends the output. -/
def slotsFor (options : SyncOptions) (mainBase overlayBase : TimeBase) : Slot α × Slot α :=
  let main : Slot α := mainSlot mainBase
  let overlay : Slot α := overlaySlot overlayBase
  let overlay := if options.repeatLast then overlay else
    { overlay with after := .null, level := 0 }
  if options.shortest then
    ({ main with after := .stop }, { overlay with after := .stop })
  else
    (main, overlay)

/-- The first time base with a term that is not positive. -/
def firstInvalid? (bases : List TimeBase) : Option TimeBase :=
  bases.find? fun b => !decide b.Valid

/-- The common time base: the one asked for, or else that of the inputs that trigger events. -/
def commonBase (slots : Slot α × Slot α) : Option TimeBase → Except OverlayError TimeBase
  | some base => .ok base
  | none =>
    let pacing := [slots.1, slots.2].filter fun s => s.level > 0
    match TimeBase.merge (pacing.map Slot.timeBase) with
    | .ok base => .ok base
    | .error _ => .error (.config .noTimeBase)

/-- Applies a policy and fixes the time base of the events.  What the slots held is dropped.  A
time base with a term that is not positive is refused, and the synchronizer stays as it was. -/
def configure (s : Synchronizer α) (options : SyncOptions) (mainBase overlayBase : TimeBase)
    (explicit : Option TimeBase) : Except OverlayError (TimeBase × Synchronizer α) :=
  match firstInvalid? (mainBase :: overlayBase :: explicit.toList) with
  | some base => .error (.invalidTimeBase base)
  | none =>
    let options := options.normalized
    let slots := slotsFor options mainBase overlayBase
    match commonBase slots explicit with
    | .error e => .error e
    | .ok base =>
      .ok (base, updateLevel
        { s with
          main := slots.1
          overlay := slots.2
          options
          timeBase := some base
          pts := Timestamp.unset
          level := none
          eof := false
          events := 0 })

/-- The smallest timestamp ahead; `Timestamp.endless` if nothing is known. -/
def nextTime (s : Synchronizer α) : Timestamp :=
  Timestamp.earlier s.main.nextTime s.overlay.nextTime

/-- The frames the slots hold: current ones and those ahead. -/
def heldFrames (s : Synchronizer α) : List (Stamped α) :=
  let ofSlot (slot : Slot α) : List (Stamped α) :=
    slot.current?.toList ++ match slot.next with
      | .frame f => [f]
      | _ => []
  ofSlot s.main ++ ofSlot s.overlay

end Synchronizer

/-! ### Looking ahead -/

/-- A synchronizer between its two inputs, and the frames it let go of on the way. -/
structure Flow (α : Type) where
  sync : Synchronizer α
  main : FrameQueue (Stamped α)
  overlay : FrameQueue (Stamped α)
  dropped : List (Stamped α)
  deriving DecidableEq, Repr

namespace Flow

variable {α : Type}

/-- Time base of the events. -/
def timeBase (f : Flow α) : TimeBase := f.sync.timeBase.getD .micros

/-- The queue of an input. -/
def queue (f : Flow α) : InputRole → FrameQueue (Stamped α)
  | .main => f.main
  | .overlay => f.overlay

/-- Replaces the queue of an input. -/
def putQueue (f : Flow α) : InputRole → FrameQueue (Stamped α) → Flow α
  | .main, queue => { f with main := queue }
  | .overlay, queue => { f with overlay := queue }

/-- Replaces the slot of an input. -/
def putSlot (f : Flow α) (i : InputRole) (slot : Slot α) : Flow α :=
  { f with sync := f.sync.putSlot i slot }

/-- The output stands at `pts`. -/
def putPts (f : Flow α) (pts : Timestamp) : Flow α :=
  { f with sync := { f.sync with pts } }

/-- Sets the level of the synchronizer anew. -/
def updateLevel (f : Flow α) : Flow α :=
  { f with sync := f.sync.updateLevel }

/-- Looks ahead on an input if its slot wants to; the flag says that nothing is queued. -/
def look (f : Flow α) (i : InputRole) : Bool × Flow α :=
  let slot := f.sync.slot i
  if slot.wants then
    let (poll, queue) := (f.queue i).consume
    let f := f.putQueue i queue
    match poll with
    | .frame x => (false, f.putSlot i (slot.lookAtFrame f.timeBase x))
    | .ended => (false, (f.putSlot i slot.lookAtEnd).updateLevel)
    | .empty => (true, f)
  else
    (false, f)

/-- Looks ahead on both inputs; the flag says that one of them has nothing queued. -/
def fill (f : Flow α) : Bool × Flow α :=
  let (mainMissing, f) := f.look .main
  let (overlayMissing, f) := f.look .overlay
  (mainMissing || overlayMissing, f)

/-! ### Moving on -/

/-- What a slot that has just been promoted means for the output: whether an event is due, as a
frame became current in an input at the level of the synchronizer, and whether the output ends.
An event that was due before the end is not any more. -/
def settle (f : Flow α) (slot : Slot α) (due : Bool) : Bool × Flow α :=
  if slot.endsOutput then
    (false, { f with sync := f.sync.finish })
  else
    (due || (some slot.level == f.sync.level && slot.current?.isSome), f)

/-- An input's part in the move to `pts`.  The frame that was current is let go of. -/
def shift (f : Flow α) (i : InputRole) (pts : Timestamp) (due : Bool) : Bool × Flow α :=
  let slot := f.sync.slot i
  if slot.moves pts then
    let f := { f with dropped := f.dropped ++ slot.current?.toList }
    (f.putSlot i slot.promote).settle slot.promote due
  else
    (due, f)

/-- Moves every slot that has something at `pts`, and the output with it.  The flag says that an
event is due, which it is not as long as an input holds the output back. -/
def move (f : Flow α) (pts : Timestamp) : Bool × Flow α :=
  let (due, f) := f.shift .main pts false
  let (due, f) := f.shift .overlay pts due
  (due && !(f.sync.main.holdsBack || f.sync.overlay.holdsBack), f.putPts pts)

/-- How a round ends. -/
inductive Round (α : Type) where
  /-- An input has nothing queued. -/
  | waiting (f : Flow α)
  /-- An event is due, or the output has ended, or both at once. -/
  | settled (due : Bool) (f : Flow α)
  /-- Neither; there is more to look at. -/
  | again (f : Flow α)

/-- Looks ahead on both inputs, then moves to the smallest timestamp ahead. -/
def round (f : Flow α) : Round α :=
  let (missing, f) := f.fill
  if missing then
    .waiting f
  else if f.sync.nextTime = Timestamp.endless then
    .settled false { f with sync := f.sync.finish }
  else
    let (due, f) := f.move f.sync.nextTime
    if due || f.sync.eof then .settled due f else .again f

/-! ### What a step leaves alone -/

@[simp] theorem slot_putSlot_self (f : Flow α) (i : InputRole) (slot : Slot α) :
    (f.putSlot i slot).sync.slot i = slot := by
  cases i <;> rfl

theorem slot_putSlot_of_ne (f : Flow α) {i j : InputRole} (slot : Slot α) (h : j ≠ i) :
    (f.putSlot i slot).sync.slot j = f.sync.slot j := by
  cases i <;> cases j <;> first | rfl | exact absurd rfl h

@[simp] theorem slot_putQueue (f : Flow α) (i j : InputRole) (q : FrameQueue (Stamped α)) :
    (f.putQueue i q).sync.slot j = f.sync.slot j := by
  cases i <;> rfl

@[simp] theorem slot_updateLevel (f : Flow α) (j : InputRole) :
    f.updateLevel.sync.slot j = f.sync.slot j := by
  unfold updateLevel Synchronizer.updateLevel
  dsimp only
  split <;> cases j <;> rfl

@[simp] theorem queue_putQueue_self (f : Flow α) (i : InputRole) (q : FrameQueue (Stamped α)) :
    (f.putQueue i q).queue i = q := by
  cases i <;> rfl

theorem queue_putQueue_of_ne (f : Flow α) {i j : InputRole} (q : FrameQueue (Stamped α))
    (h : j ≠ i) : (f.putQueue i q).queue j = f.queue j := by
  cases i <;> cases j <;> first | rfl | exact absurd rfl h

@[simp] theorem queue_putSlot (f : Flow α) (i j : InputRole) (slot : Slot α) :
    (f.putSlot i slot).queue j = f.queue j := by
  cases j <;> rfl

@[simp] theorem queue_updateLevel (f : Flow α) (j : InputRole) :
    f.updateLevel.queue j = f.queue j := by
  cases j <;> rfl

@[simp] theorem slot_settle (f : Flow α) (slot : Slot α) (due : Bool) (j : InputRole) :
    (f.settle slot due).2.sync.slot j = f.sync.slot j := by
  unfold settle
  split <;> cases j <;> rfl

@[simp] theorem queue_settle (f : Flow α) (slot : Slot α) (due : Bool) (j : InputRole) :
    (f.settle slot due).2.queue j = f.queue j := by
  unfold settle
  split <;> cases j <;> rfl

/-- What can become of a look at an input. -/
inductive Looked (f : Flow α) (i : InputRole) : Bool × Flow α → Prop where
  | known (content : (f.sync.slot i).wants = false) : Looked f i (false, f)
  | frame {x : Stamped α} {rest : List (Stamped α)} (wants : (f.sync.slot i).wants = true)
      (queued : (f.queue i).frames = x :: rest) :
      Looked f i (false, (f.putQueue i { f.queue i with frames := rest }).putSlot i
        ((f.sync.slot i).lookAtFrame f.timeBase x))
  | ended (wants : (f.sync.slot i).wants = true) (queued : (f.queue i).frames = [])
      (closed : (f.queue i).closed = true) :
      Looked f i (false, (f.putSlot i (f.sync.slot i).lookAtEnd).updateLevel)
  | missing (wants : (f.sync.slot i).wants = true) (queued : (f.queue i).frames = [])
      (closed : (f.queue i).closed = false) : Looked f i (true, f)

theorem looked (f : Flow α) (i : InputRole) : Looked f i (f.look i) := by
  have putBack : f.putQueue i (f.queue i) = f := by cases i <;> rfl
  have timeBase (q : FrameQueue (Stamped α)) : (f.putQueue i q).timeBase = f.timeBase := by
    cases i <;> rfl
  by_cases wants : (f.sync.slot i).wants = true
  · rcases queued : (f.queue i).frames with _ | ⟨x, rest⟩
    · by_cases closed : (f.queue i).closed = true
      · have := Looked.ended wants queued closed
        simpa [look, wants, FrameQueue.consume, queued, closed, putBack] using this
      · have closed := Bool.eq_false_iff.2 closed
        have := Looked.missing wants queued closed
        simpa [look, wants, FrameQueue.consume, queued, closed, putBack] using this
    · have := Looked.frame wants queued
      simpa [look, wants, FrameQueue.consume, queued, timeBase] using this
  · have content := Bool.eq_false_iff.2 wants
    have := Looked.known content
    simpa [look, content] using this

/-- A look at one input leaves the slot and the queue of the other alone. -/
theorem look_of_ne (f : Flow α) {i j : InputRole} (h : j ≠ i) :
    (f.look i).2.sync.slot j = f.sync.slot j ∧ (f.look i).2.queue j = f.queue j := by
  have view := looked f i
  generalize f.look i = result at view ⊢
  cases view with
  | known => exact ⟨rfl, rfl⟩
  | frame => simp [slot_putSlot_of_ne _ _ h, queue_putQueue_of_ne _ _ h]
  | ended => simp [slot_putSlot_of_ne _ _ h]
  | missing => exact ⟨rfl, rfl⟩

theorem shift_of_moves (f : Flow α) {i : InputRole} {pts : Timestamp} (due : Bool)
    (moves : (f.sync.slot i).moves pts = true) :
    f.shift i pts due =
      ({ f with dropped := f.dropped ++ (f.sync.slot i).current?.toList }.putSlot i
        (f.sync.slot i).promote).settle (f.sync.slot i).promote due := by
  simp only [shift, moves, if_true]

theorem shift_of_stays (f : Flow α) {i : InputRole} {pts : Timestamp} (due : Bool)
    (stays : (f.sync.slot i).moves pts = false) : f.shift i pts due = (due, f) := by
  simp only [shift, stays, Bool.false_eq_true, if_false]

/-- The slot of an input after its part in a move. -/
theorem shift_slot_self (f : Flow α) (i : InputRole) (pts : Timestamp) (due : Bool) :
    (f.shift i pts due).2.sync.slot i = (f.sync.slot i).movedTo pts := by
  unfold Slot.movedTo
  split
  · next moves => rw [shift_of_moves f due moves, slot_settle, slot_putSlot_self]
  · next stays => rw [shift_of_stays f due (Bool.eq_false_iff.2 stays)]

/-- An input's part in a move leaves the slot of the other alone. -/
theorem shift_slot_of_ne (f : Flow α) {i j : InputRole} (pts : Timestamp) (due : Bool)
    (h : j ≠ i) : (f.shift i pts due).2.sync.slot j = f.sync.slot j := by
  rcases moves : (f.sync.slot i).moves pts
  · rw [shift_of_stays f due moves]
  · rw [shift_of_moves f due moves, slot_settle, slot_putSlot_of_ne _ _ h]

@[simp] theorem shift_queue (f : Flow α) (i j : InputRole) (pts : Timestamp) (due : Bool) :
    (f.shift i pts due).2.queue j = f.queue j := by
  rcases moves : (f.sync.slot i).moves pts
  · rw [shift_of_stays f due moves]
  · rw [shift_of_moves f due moves, queue_settle, queue_putSlot]
    cases j <;> rfl

/-- A slot after a move. -/
theorem move_slot (f : Flow α) (pts : Timestamp) (i : InputRole) :
    (f.move pts).2.sync.slot i = (f.sync.slot i).movedTo pts := by
  have slot_putPts (g : Flow α) : (g.putPts pts).sync.slot i = g.sync.slot i := by cases i <;> rfl
  simp only [move, slot_putPts]
  cases i with
  | main => rw [shift_slot_of_ne _ _ _ (by decide), shift_slot_self]
  | overlay => rw [shift_slot_self, shift_slot_of_ne _ _ _ (by decide)]

@[simp] theorem move_queue (f : Flow α) (pts : Timestamp) (j : InputRole) :
    (f.move pts).2.queue j = f.queue j := by
  have queue_putPts (g : Flow α) : (g.putPts pts).queue j = g.queue j := by cases j <;> rfl
  simp only [move, queue_putPts, shift_queue]

/-! ### Rounds come to an end -/

/-- Work left on an input: twice the frames queued, and what its slot has to promote. -/
def inputWork (f : Flow α) (i : InputRole) : Nat :=
  2 * (f.queue i).size + (f.sync.slot i).work

/-- Work left. -/
def work (f : Flow α) : Nat := f.inputWork .main + f.inputWork .overlay

theorem inputWork_look_le (f : Flow α) (i : InputRole) :
    (f.look i).2.inputWork i ≤ f.inputWork i := by
  have view := looked f i
  generalize f.look i = result at view ⊢
  cases view with
  | known => exact Nat.le_refl _
  | frame wants queued =>
    simp only [inputWork, queue_putSlot, queue_putQueue_self, slot_putSlot_self, FrameQueue.size,
      queued, List.length_cons, Slot.work_lookAtFrame _ _ _ wants]
    omega
  | ended wants =>
    have := Slot.work_lookAtEnd _ wants
    simp only [inputWork, queue_updateLevel, queue_putSlot, slot_updateLevel, slot_putSlot_self]
    omega
  | missing => exact Nat.le_refl _

theorem work_look_le (f : Flow α) (i : InputRole) : (f.look i).2.work ≤ f.work := by
  have other {j : InputRole} (h : j ≠ i) : (f.look i).2.inputWork j = f.inputWork j := by
    simp only [inputWork, (look_of_ne f h).1, (look_of_ne f h).2]
  have self := inputWork_look_le f i
  unfold work
  cases i with
  | main => rw [other (j := .overlay) (by decide)]; omega
  | overlay => rw [other (j := .main) (by decide)]; omega

theorem work_fill_le (f : Flow α) : f.fill.2.work ≤ f.work :=
  Nat.le_trans (work_look_le (f.look .main).2 .overlay) (work_look_le f .main)

/-- The smallest timestamp ahead lies ahead of one of the inputs. -/
theorem nextTime_known (s : Synchronizer α) (h : s.nextTime ≠ Timestamp.endless) :
    ∃ i, (s.slot i).next.isKnown ∧ (s.slot i).next.pts = s.nextTime := by
  have slotTime (slot : Slot α) (h : slot.nextTime ≠ Timestamp.endless) :
      slot.next.isKnown ∧ slot.next.pts = slot.nextTime := by
    unfold Slot.nextTime at h ⊢
    split <;> simp_all
  unfold Synchronizer.nextTime Timestamp.earlier at h ⊢
  split at h
  · next earlier =>
    rw [if_pos earlier]
    exact ⟨.overlay, slotTime _ h⟩
  · next later =>
    rw [if_neg later]
    exact ⟨.main, slotTime _ h⟩

/-- A move to what lies ahead of an input leaves less work. -/
theorem work_move_lt (f : Flow α) (h : f.sync.nextTime ≠ Timestamp.endless) :
    (f.move f.sync.nextTime).2.work < f.work := by
  have main := (f.sync.slot .main).work_movedTo_le f.sync.nextTime
  have overlay := (f.sync.slot .overlay).work_movedTo_le f.sync.nextTime
  obtain ⟨i, known, ahead⟩ := nextTime_known f.sync h
  have less := (f.sync.slot i).work_movedTo_lt known ahead
  simp only [work, inputWork, move_slot, move_queue]
  cases i <;> omega

/-- What can become of a round. -/
inductive Rounded (f : Flow α) : Round α → Prop where
  | waiting (missing : f.fill.1 = true) : Rounded f (.waiting f.fill.2)
  | endless (filled : f.fill.1 = false) (none : f.fill.2.sync.nextTime = Timestamp.endless) :
      Rounded f (.settled false { f.fill.2 with sync := f.fill.2.sync.finish })
  | settled (filled : f.fill.1 = false) (ahead : f.fill.2.sync.nextTime ≠ Timestamp.endless)
      (finished : ((f.fill.2.move f.fill.2.sync.nextTime).1 ||
        (f.fill.2.move f.fill.2.sync.nextTime).2.sync.eof) = true) :
      Rounded f (.settled (f.fill.2.move f.fill.2.sync.nextTime).1
        (f.fill.2.move f.fill.2.sync.nextTime).2)
  | again (filled : f.fill.1 = false) (ahead : f.fill.2.sync.nextTime ≠ Timestamp.endless)
      (quiet : (f.fill.2.move f.fill.2.sync.nextTime).1 = false)
      (on : (f.fill.2.move f.fill.2.sync.nextTime).2.sync.eof = false) :
      Rounded f (.again (f.fill.2.move f.fill.2.sync.nextTime).2)

theorem rounded (f : Flow α) : Rounded f f.round := by
  simp only [round]
  split
  · next missing => exact .waiting missing
  · next filled =>
    have filled := Bool.eq_false_iff.2 filled
    split
    · next none => exact .endless filled none
    · next ahead =>
      split
      · next finished => exact .settled filled ahead finished
      · next more =>
        obtain ⟨quiet, on⟩ := Bool.or_eq_false_iff.1 (Bool.eq_false_iff.2 more)
        exact .again filled ahead quiet on

/-- A round after which there is more to look at leaves less work. -/
theorem work_lt_of_again {f f' : Flow α} (h : f.round = .again f') : f'.work < f.work := by
  have view := rounded f
  generalize f.round = r at h view
  cases view with
  | waiting => exact nomatch h
  | endless => exact nomatch h
  | settled => exact nomatch h
  | again _ ahead _ _ =>
    injection h with h
    subst h
    exact Nat.lt_of_lt_of_le (work_move_lt f.fill.2 ahead) (work_fill_le f)

/-- Rounds until an event is due, an input has nothing queued, or the output has ended.  The flag
says whether an event is due. -/
def advance (f : Flow α) : Bool × Flow α :=
  if f.sync.eof then
    (false, f)
  else
    match _again : f.round with
    | .waiting f => (false, f)
    | .settled due f => (due, f)
    | .again f => advance f
termination_by f.work
decreasing_by exact work_lt_of_again _again

end Flow

/-! ### Activation -/

/-- What an activation comes to. -/
inductive Outcome (α : Type) where
  /-- The synchronizer has not been configured. -/
  | unconfigured
  /-- An event is due, but there is no main frame for it. -/
  | unpaired (pts : Timestamp)
  | event (e : SyncEvent α)
  /-- An input has nothing queued. -/
  | needInput
  /-- The output has ended. -/
  | ended
  deriving DecidableEq, Repr

namespace Synchronizer

variable {α : Type}

/-- The main frame may be needed for a later event: the overlay can still trigger one before the
next main frame. -/
def keepsMain (s : Synchronizer α) : Bool :=
  s.overlay.level != 0 && (!s.overlay.next.isKnown || s.overlay.next.pts < s.main.nextTime)

/-- Gives out the event that is due.  The main frame is handed over, or shared if it may be needed
again. -/
def fire (s : Synchronizer α) (base : TimeBase) : Outcome α × Synchronizer α :=
  let kept := s.keepsMain
  let after := if kept then s else { s with main := s.main.takeCurrent }
  match s.main.current? with
  | none => (.unpaired s.pts, after)
  | some frame =>
    (.event
      { main := { frame with pts := Timestamp.toOption s.pts }
        overlay := s.overlay.current?
        pts := s.pts
        timeBase := base
        index := s.events
        mainKept := kept },
      { after with events := s.events + 1 })

/-- Takes in what the inputs have queued and gives out at most one event. -/
def activate (s : Synchronizer α) (main overlay : FrameQueue (Stamped α)) :
    Outcome α × Flow α :=
  match s.timeBase with
  | none => (.unconfigured, ⟨s, main, overlay, []⟩)
  | some base =>
    let (due, f) := Flow.advance ⟨s, main, overlay, []⟩
    if f.sync.eof then
      (.ended, f)
    else if due then
      let (outcome, sync) := f.sync.fire base
      (outcome, { f with sync })
    else
      (.needInput, f)

end Synchronizer

/-! ### Delivery -/

/-- What an activation comes to for its caller, once the event has been received. -/
inductive Activation where
  | event
  | needInput
  | ended
  deriving DecidableEq, Repr

/-- Activates as long as events come, at most `limit` times.  Gives what the last activation came
to, and nothing if there was none. -/
def Activation.whileEvents {m : Type → Type} [Monad m] (activate : m Activation) :
    (limit : Nat) → m (Option Activation)
  | 0 => return none
  | limit + 1 => do
    match ← activate with
    | .event => return some ((← whileEvents activate limit).getD .event)
    | other => return some other

/-- Hands the event, if there is one, to its receiver.  A failure of the receiver is passed on. -/
def Outcome.deliver {α : Type} {m : Type → Type} [Monad m] [MonadExceptOf OverlayError m]
    (receive : SyncEvent α → m Unit) : Outcome α → m Activation
  | .unconfigured => throw (.invariantViolation .syncUnconfigured)
  | .unpaired pts => throw (.invalidPairing (.noMainFrame pts))
  | .event e => do
    receive e
    return .event
  | .needInput => return .needInput
  | .ended => return .ended

end FrameOverlay
