import FrameOverlay.Pipeline

/-!
# Everything at once

What a caller can have at hand on one device: frames of its own, sessions of its own, and filters with
their input queues.

* `Line` — a filter with its queues;
* `Studio` — the device, sessions, lines, and the caller's frames;
* `FrameOrder`, `SessionOrder`, `FilterOrder`, `Order` — all that a caller can do;
* `Studio.perform` — carries out one order;
* `Step`, `Studio.steps`, `Studio.finish` — a sequence of orders step by step, and where it ends.

Sessions and lines keep their numbers: what has been closed or dropped stays in its place.  An order
about something that is not there does nothing.
-/

namespace FrameOverlay

/-- A filter with its two queues. -/
structure Line where
  filter : OverlayFilter
  main : FrameQueue Frame := {}
  overlay : FrameQueue Frame := {}
  /-- The filter is gone; what waits in the queues is not. -/
  dropped : Bool := false

/-- All that a caller has at hand. -/
structure Studio where
  device : DeviceState := {}
  sessions : List Session := []
  lines : List Line := []
  /-- The frames in the caller's hands. -/
  frames : List Frame := []

/-! ### Orders -/

/-- What a caller does with frames and pools. -/
inductive FrameOrder where
  /-- A new frame like `frame` with a buffer of its own. -/
  | make (planes : List DevicePlane) (frame : Frame)
  /-- A new frame like `frame` with a buffer of a pool. -/
  | draw (pool : PoolId) (frame : Frame)
  /-- A second frame with the buffer of frame `i`. -/
  | clone (i : Nat)
  /-- All of frame `i` but its buffer becomes as in `frame`. -/
  | alter (i : Nat) (frame : Frame)
  | drop (i : Nat)
  | addPool (pool : FramePool)
  /-- A pool behaves as `pool` from now on. -/
  | setPool (p : PoolId) (pool : FramePool)

/-- What a caller does with a session of its own. -/
inductive SessionOrder where
  | enter
  | close
  | drop
  | makeWritable (i : Nat)
  /-- Blends frame `j` into frame `i`. -/
  | composite (plan : PlanePlan) (i j : Nat) (offset : OverlayOffset)

/-- What a caller does with a filter. -/
inductive FilterOrder where
  /-- A configuration, with what came of compiling the kernel. -/
  | configure (main overlay : LinkInfo) (image : Except OverlayError KernelImage)
  /-- Frame `i` is passed on to an input. -/
  | push (input : InputRole) (i : Nat)
  | close (input : InputRole)
  | activate
  | command (name argument : String)
  | pop
  | drain
  | teardown
  | drop

/-- What a caller does. -/
inductive Order where
  | frame (order : FrameOrder)
  | openSession (device : DeviceContext) (image : KernelImage)
  | session (k : Nat) (order : SessionOrder)
  /-- The scope entered last is left. -/
  | leave
  | newFilter (config : OverlayConfig)
  | filter (n : Nat) (order : FilterOrder)

/-- A frame like `f` in another buffer. -/
def Frame.inBuffer (f : Frame) (b : BufferId) : Frame :=
  { f with content := { f.content with buffer := b } }

/-- The computation a filter's order stands for. -/
def FilterOrder.body : FilterOrder → PipelineM Unit
  | configure main overlay image => do let _ ← Pipeline.configureWith main overlay image
  | push input i => Pipeline.handOver input i
  | close input => Pipeline.close input
  | activate => do let _ ← Pipeline.activate
  | command name argument => Pipeline.command name argument
  | pop => do Pipeline.keepAll (← Pipeline.pop).toList
  | drain => do Pipeline.keepAll (← Pipeline.drain)
  | teardown => Pipeline.teardown
  | drop => Pipeline.discard

/-- The order is the last one for its filter. -/
def FilterOrder.isLast : FilterOrder → Bool
  | drop => true
  | _ => false

namespace Studio

/-! ### Carrying out orders -/

/-- What an order comes to, and the studio afterwards. -/
abbrev Answer := Except OverlayError Unit × Studio

/-- Replaces the buffers and pools. -/
def withStore (w : Studio) (store : BufferStore) : Studio :=
  { w with device := { w.device with store } }

/-- Carries out an order about frames or pools. -/
def performFrame (w : Studio) : FrameOrder → Answer
  | .make planes frame =>
    let (b, store) := w.device.store.allocate planes none
    (.ok (), { w.withStore store with frames := w.frames ++ [frame.inBuffer b] })
  | .draw pool frame =>
    match w.device.store.acquire pool with
    | .error e => (.error e, w)
    | .ok (b, store) => (.ok (), { w.withStore store with frames := w.frames ++ [frame.inBuffer b] })
  | .clone i =>
    match w.frames[i]? with
    | none => (.ok (), w)
    | some frame => (.ok (), { w.withStore (w.device.store.share frame.content.buffer) with
        frames := w.frames ++ [frame] })
  | .alter i frame =>
    (.ok (), { w with frames := w.frames.modify i fun f => frame.inBuffer f.content.buffer })
  | .drop i =>
    match w.frames[i]? with
    | none => (.ok (), w)
    | some frame => (.ok (), { w.withStore (w.device.store.release frame.content.buffer) with
        frames := w.frames.eraseIdx i })
  | .addPool pool => (.ok (), w.withStore (w.device.store.addPool pool).2)
  | .setPool p pool =>
    let store := w.device.store
    (.ok (), w.withStore { store with pools := store.pools.set p pool })

/-- Carries out an order about session `k`. -/
def performSession (w : Studio) (k : Nat) (session : Session) : SessionOrder → Answer
  | .enter =>
    let (answer, device) := attempt session.enter w.device
    (answer, { w with device })
  | .close =>
    let (answer, device) := attempt session.close w.device
    (answer, { w with device, sessions := w.sessions.set k .closed })
  | .drop =>
    let (_, device) := attempt session.close w.device
    (.ok (), { w with device, sessions := w.sessions.set k .closed })
  | .makeWritable i =>
    match w.frames[i]? with
    | none => (.ok (), w)
    | some frame =>
      match attempt (frame.content.makeWritable session) w.device with
      | (.error e, device) => (.error e, { w with device })
      | (.ok (_, picture), device) =>
        (.ok (), { w with device, frames := w.frames.set i { frame with content := picture } })
  | .composite plan i j offset =>
    match w.frames[i]?, w.frames[j]? with
    | some main, some overlay =>
      if i = j then
        (.ok (), w)
      else
        let ((answer, picture), device) :=
          plan.composite session main.content overlay.content offset w.device
        (answer.map fun _ => (),
          { w with device, frames := w.frames.set i { main with content := picture } })
    | _, _ => (.ok (), w)

/-- A line with the device and the caller's frames. -/
def pipeline (w : Studio) (line : Line) : Pipeline :=
  ⟨line.filter, line.main, line.overlay, w.device, w.frames⟩

/-- Carries out an order about line `n`. -/
def performFilter (w : Studio) (n : Nat) (line : Line) (order : FilterOrder) : Answer :=
  let (answer, p) := attempt order.body (w.pipeline line)
  (answer, { w with
    device := p.device
    frames := p.kept
    lines := w.lines.set n ⟨p.filter, p.main, p.overlay, order.isLast⟩ })

/-- Carries out an order. -/
def perform (w : Studio) : Order → Answer
  | .frame order => w.performFrame order
  | .openSession device image =>
    match attempt (Session.start device image) w.device with
    | (.error e, device) => (.error e, { w with device })
    | (.ok session, device) => (.ok (), { w with device, sessions := w.sessions ++ [session] })
  | .session k order =>
    match w.sessions[k]? with
    | none => (.ok (), w)
    | some session => w.performSession k session order
  | .leave => (.ok (), { w with device := DeviceM.leave w.device })
  | .newFilter config =>
    match OverlayFilter.new config with
    | .error e => (.error e, w)
    | .ok filter => (.ok (), { w with lines := w.lines ++ [⟨filter, {}, {}, false⟩] })
  | .filter n order =>
    match w.lines[n]? with
    | none => (.ok (), w)
    | some line => if line.dropped then (.ok (), w) else w.performFilter n line order

end Studio

/-! ### Runs -/

/-- An order, what it came to, and the studio before and after it. -/
structure Step where
  before : Studio
  order : Order
  result : Except OverlayError Unit
  after : Studio

namespace Step

/-- The driver calls of a step. -/
def moments (s : Step) : List Moment :=
  s.after.device.history.drop s.before.device.history.length

end Step

namespace Studio

/-- The step that carries out an order. -/
def step (w : Studio) (order : Order) : Step :=
  ⟨w, order, (w.perform order).1, (w.perform order).2⟩

/-- The steps that carry out a list of orders. -/
def steps : Studio → List Order → List Step
  | _, [] => []
  | w, order :: rest => w.step order :: steps (w.perform order).2 rest

/-- Where a list of orders ends. -/
def finish : Studio → List Order → Studio
  | w, [] => w
  | w, order :: rest => finish (w.perform order).2 rest

/-- A driver with its faults, and nothing else. -/
def empty (faults : FaultPlan) : Studio := { device := { driver := { faults } } }

end Studio

end FrameOverlay
