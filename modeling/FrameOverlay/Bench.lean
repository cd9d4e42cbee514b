import FrameOverlay.Compositor

/-!
# A device at hand

What a caller without a filter works with: a device, at most one session and one plan on it, and
frames and frames contexts under names.

* `Bench`, `BenchM` — the state, and computations on it that may fail; the state outlives a
  failure;
* `Bench.openSession`, `Bench.closeSession`, `Bench.dropSession` — the life of the session;
* `Bench.enterNested` — nested scopes of the session's context;
* `Bench.putFrame`, `Bench.cloneFrame`, `Bench.dropFrame` — frames under names; a name that is
  given anew lets go of the frame it stood for;
* `Bench.makeWritable`, `Bench.composite` — work on named frames.
-/

namespace FrameOverlay

/-- A device, at most one session and one plan, and named frames and frames contexts. -/
structure Bench where
  device : DeviceState := {}
  session : Option Session := none
  plan : Option PlanePlan := none
  contexts : List (String × FramesContext) := []
  frames : List (String × Frame) := []

/-- A computation on a bench. -/
abbrev BenchM := EStateM OverlayError Bench

namespace Bench

/-- Runs a computation on the device. -/
def onDevice {α : Type} (body : DeviceM α) : BenchM α := fun b =>
  match body b.device with
  | .ok a device => .ok a { b with device }
  | .error e device => .error e { b with device }

/-! ### Sessions -/

/-- Drops a session, which closes it; a failure goes unnoticed. -/
def discard (session : Session) : BenchM Unit := fun b =>
  match onDevice session.close b with
  | .ok () b | .error _ b => .ok () b

/-- Opens a session on a device.  It takes the place of an earlier one, which is dropped
afterwards; if opening fails the earlier one stays. -/
def openSession (device : DeviceContext) (image : KernelImage) : BenchM Unit := do
  let session ← onDevice (Session.start device image)
  let earlier := (← get).session
  modify fun b => { b with session := some session }
  match earlier with
  | some s => discard s
  | none => return ()

/-- Closes a session, and leaves it closed even if that fails. -/
def closeSession (session : Session) : BenchM Unit := do
  modify fun b => { b with session := some .closed }
  onDevice session.close

/-- Drops the session.  Tells whether there was one. -/
def dropSession : BenchM Bool := do
  match (← get).session with
  | none => return false
  | some s => do
    modify fun b => { b with session := none }
    discard s
    return true

/-- Leaves scopes of a context. -/
def leaveScopes (b : Bench) : (scopes : Nat) → Bench
  | 0 => b
  | scopes + 1 => leaveScopes { b with device := DeviceM.leave b.device } scopes

/-- Enters a session's context `times` times, one scope inside the other, and leaves every scope
entered in the end.  Gives the failure of each try, if it failed, and the depth after it. -/
def enterNested (session : Session) (times entered : Nat) (b : Bench) :
    List (Option OverlayError × Int) × Bench :=
  match times with
  | 0 => ([], leaveScopes b entered)
  | times + 1 =>
    match onDevice session.enter b with
    | .ok () b =>
      let (tries, b') := enterNested session times (entered + 1) b
      ((none, b.device.driver.depth) :: tries, b')
    | .error e b =>
      let (tries, b') := enterNested session times entered b
      ((some e, b.device.driver.depth) :: tries, b')

/-! ### Names -/

/-- What a name stands for. -/
def find? {α : Type} (name : String) (entries : List (String × α)) : Option α :=
  entries.lookup name

/-- Gives a name a new meaning. -/
def put {α : Type} (name : String) (a : α) (entries : List (String × α)) : List (String × α) :=
  (name, a) :: entries.filter fun (other, _) => other != name

/-- A name stands for nothing any more. -/
def erase {α : Type} (name : String) (entries : List (String × α)) : List (String × α) :=
  entries.filter fun (other, _) => other != name

/-- Names a frames context. -/
def putContext (name : String) (context : FramesContext) : BenchM Unit :=
  modify fun b => { b with contexts := put name context b.contexts }

/-- Names a frame.  The frame that had the name is let go of. -/
def putFrame (name : String) (frame : Frame) : BenchM Unit := do
  let earlier := find? name (← get).frames
  modify fun b => { b with frames := put name frame b.frames }
  match earlier with
  | some f => onDevice (DeviceM.release f.content.buffer)
  | none => return ()

/-- Gives a frame a second name; both share the buffer. -/
def cloneFrame (frame : Frame) (name : String) : BenchM Unit := do
  onDevice (DeviceM.share frame.content.buffer)
  putFrame name frame

/-- Lets go of a named frame.  Tells whether there was one. -/
def dropFrame (name : String) : BenchM Bool := do
  match find? name (← get).frames with
  | none => return false
  | some f => do
    modify fun b => { b with frames := erase name b.frames }
    onDevice (DeviceM.release f.content.buffer)
    return true

/-! ### Work on frames -/

/-- Replaces what a name stands for, by a frame that has taken over the buffer's holder. -/
def replaceFrame (name : String) (frame : Frame) : BenchM Unit :=
  modify fun b => { b with frames := put name frame b.frames }

/-- Makes a named frame the sole holder of its buffer.  Tells whether a copy was made. -/
def makeWritable (session : Session) (name : String) (frame : Frame) : BenchM Bool := do
  let (copied, picture) ← onDevice (frame.content.makeWritable session)
  replaceFrame name { frame with content := picture }
  return copied

/-- Blends a frame into a named frame.  Gives the number of launches. -/
def composite (session : Session) (plan : PlanePlan) (name : String) (main : Frame)
    (overlay : Frame) (offset : OverlayOffset) : BenchM Nat := fun b =>
  let ((result, picture), device) :=
    plan.composite session main.content overlay.content offset b.device
  let b := { b with
    device, frames := put name { main with content := picture } b.frames }
  match result with
  | .ok launches => .ok launches b
  | .error e => .error e b

end Bench

end FrameOverlay
