import FrameOverlay.Filter

/-!
# The filter at work

A filter with its two input queues, its device, and the frames its caller holds on to.

* `Pipeline`, `PipelineM` — the state, and computations on it that may fail; the state outlives a
  failure;
* `Pipeline.configureWith` — from both links to an output link and a loaded kernel;
* `Pipeline.activate` — at most one event: a frame is blended or passed on, and put out;
* `Pipeline.command`, `Pipeline.teardown`, `Pipeline.discard` — commands while running, unloading the
  kernel, and the filter's end;
* `Pipeline.push`, `Pipeline.pop`, `Pipeline.drain` — frames in and out;
* `Pipeline.keep`, `Pipeline.handOver`, `Pipeline.letGo` — what becomes of a frame in the caller's
  hands.
-/

namespace FrameOverlay

/-- A filter, its inputs, its device, and the frames its caller holds on to. -/
structure Pipeline where
  filter : OverlayFilter
  main : FrameQueue Frame := {}
  overlay : FrameQueue Frame := {}
  device : DeviceState := {}
  kept : List Frame := []

/-- A computation on a pipeline. -/
abbrev PipelineM := EStateM OverlayError Pipeline

namespace Pipeline

/-! ### Parts of the state -/

/-- Runs a computation on the device. -/
def onDevice {α : Type} (body : DeviceM α) : PipelineM α := fun p =>
  match body p.device with
  | .ok a device => .ok a { p with device }
  | .error e device => .error e { p with device }

/-- The filter. -/
def getFilter : PipelineM OverlayFilter := fun p => .ok p.filter p

/-- Changes the filter. -/
def changeFilter (f : OverlayFilter → OverlayFilter) : PipelineM Unit := fun p =>
  .ok () { p with filter := f p.filter }

/-- Changes the filter unless the change fails. -/
def tryFilter {α : Type} (f : OverlayFilter → Except OverlayError (α × OverlayFilter)) :
    PipelineM α := fun p =>
  match f p.filter with
  | .ok (a, filter) => .ok a { p with filter }
  | .error e => .error e p

/-- A picture is no longer held. -/
def releasePicture (picture : Picture) : PipelineM Unit :=
  onDevice (DeviceM.release picture.buffer)

/-- Frames are no longer held. -/
def releaseFrames : List Frame → PipelineM Unit
  | [] => return ()
  | f :: frames => do
    releasePicture f.content
    releaseFrames frames

/-! ### Configuring -/

/-- The frames context of an input, which must have one. -/
def contextOf (input : InputRole) (link : LinkInfo) : PipelineM FramesContext :=
  match link.context with
  | some context => return context
  | none => throw (.missingFramesContext input)

/-- The plan of a pair of formats. -/
def planFor (main overlay : FramesContext) : PipelineM PlanePlan := fun p =>
  match PlanePlan.ofFormats main.format overlay.format with
  | .ok plan => .ok plan p
  | .error e => .error e p

/-- Configures the synchronizer, which drops the frames it held. -/
def synchronize (main overlay : LinkInfo) : PipelineM TimeBase := do
  let held := (← getFilter).sync.heldFrames
  let base ← tryFilter fun f => f.synchronize main overlay
  releaseFrames held
  return base

/-- Configures the output from both input links and loads the kernel that was compiled for it, or
fails as compiling did.  Only one configuration can succeed.  One that fails late leaves the sizes and
the synchronizer set. -/
def configureWith (main overlay : LinkInfo) (image : Except OverlayError KernelImage) :
    PipelineM LinkInfo := do
  if (← getFilter).outputInfo.isSome then
    throw (.config .alreadyConfigured)
  let mainContext ← contextOf .main main
  let overlayContext ← contextOf .overlay overlay
  let plan ← planFor mainContext overlayContext
  changeFilter fun f => f.place main overlay
  let timeBase ← synchronize main overlay
  let session ← onDevice (Session.startCompiled mainContext.device image)
  let info : LinkInfo := { main with timeBase, context := some mainContext }
  changeFilter fun f => { f with stage := some ⟨plan, session⟩, outputInfo := some info }
  return info

/-- Configures the output with a kernel at hand. -/
def configure (main overlay : LinkInfo) (image : KernelImage) : PipelineM LinkInfo :=
  configureWith main overlay (.ok image)

/-! ### Events -/

/-- Blends the overlay into the main frame of an event and puts it out.  A frame that cannot be
blended is dropped. -/
def composite (e : SyncEvent Picture) (overlay : Picture) (stage : Stage) : PipelineM Unit :=
  fun p =>
    let main := e.main.content
    let ((result, main), device) :=
      stage.plan.composite stage.session main overlay p.filter.position.offset p.device
    let p := { p with device }
    match result with
    | .ok _ => .ok () { p with filter := p.filter.putComposited { e.main with content := main } }
    | .error error =>
      match releasePicture main p with
      | .ok () p | .error _ p => .error error p

/-- Puts the main frame of an event out: without overlay it is passed on, otherwise the overlay is
positioned and blended in. -/
def putOut (e : SyncEvent Picture) : PipelineM Unit := do
  match e.overlay with
  | none => changeFilter fun f => f.putForwarded e.main
  | some overlay =>
    match (← getFilter).stage with
    | none => do
      releasePicture e.main.content
      throw .notConfigured
    | some stage => do
      changeFilter fun f => f.positionFor e overlay.content
      composite e overlay.content stage

/-- Receives an event.  A main frame that the synchronizer keeps is held once more. -/
def receive (e : SyncEvent Picture) : PipelineM Unit := do
  if e.mainKept then
    onDevice (DeviceM.share e.main.content.buffer)
  putOut e

/-- Lets the synchronizer take in what is queued, and drops the frames it is done with. -/
def advance : PipelineM (Outcome Picture) := fun p =>
  let (outcome, flow) := p.filter.sync.activate p.main p.overlay
  let p := { p with
    filter := { p.filter with sync := flow.sync }
    main := flow.main
    overlay := flow.overlay }
  match releaseFrames flow.dropped p with
  | .ok () p | .error _ p => .ok outcome p

/-- Takes in what is queued; at most one event comes of it. -/
def activate : PipelineM Activation := do
  let f ← getFilter
  if f.outputInfo.isNone || f.stage.isNone then
    throw .notConfigured
  (← advance).deliver receive

/-! ### Commands and teardown -/

/-- Replaces an expression. -/
def command (name argument : String) : PipelineM Unit :=
  tryFilter fun f => do return ((), ← f.command name argument)

/-- Unloads the kernel.  Without a loaded kernel nothing happens. -/
def teardown : PipelineM Unit := do
  match (← getFilter).stage with
  | none => return ()
  | some stage => do
    changeFilter fun f => { f with stage := none }
    onDevice stage.session.close

/-- The kernel is unloaded, and a failure goes unnoticed. -/
def shutDown (p : Pipeline) : Pipeline := (attempt teardown p).2

/-- The filter is dropped: the frames it held and those it put out are let go of, and the kernel is
unloaded in between. -/
def discard : PipelineM Unit := do
  let f ← getFilter
  changeFilter fun f => { f with sync := .new, output := {} }
  releaseFrames f.sync.heldFrames
  modify shutDown
  releaseFrames f.output.frames

/-! ### Frames in and out -/

/-- Queues a frame on an input. -/
def push (input : InputRole) (frame : Frame) : PipelineM Unit := fun p =>
  .ok () (match input with
    | .main => { p with main := p.main.push frame }
    | .overlay => { p with overlay := p.overlay.push frame })

/-- No more frames follow on an input. -/
def close (input : InputRole) : PipelineM Unit := fun p =>
  .ok () (match input with
    | .main => { p with main := p.main.close }
    | .overlay => { p with overlay := p.overlay.close })

/-- Takes the oldest frame put out. -/
def pop : PipelineM (Option Frame) := fun p =>
  let (frame, output) := p.filter.output.pop
  .ok frame { p with filter := { p.filter with output } }

/-- Takes all frames put out. -/
def drain : PipelineM (List Frame) := fun p =>
  let (frames, output) := p.filter.output.drain
  .ok frames { p with filter := { p.filter with output } }

/-- The caller passes a frame it holds on to an input. -/
def handOver (input : InputRole) (i : Nat) : PipelineM Unit := fun p =>
  match p.kept[i]? with
  | none => .ok () p
  | some frame => push input frame { p with kept := p.kept.eraseIdx i }

/-- The caller holds on to frames it has. -/
def keepAll (frames : List Frame) : PipelineM Unit := fun p =>
  .ok () { p with kept := p.kept ++ frames }

/-- The caller holds on to a frame it has. -/
def keep (frame : Frame) : PipelineM Unit := keepAll [frame]

/-- The caller holds on to a frame besides the one it passes on. -/
def keepClone (frame : Frame) : PipelineM Unit := do
  onDevice (DeviceM.share frame.content.buffer)
  keep frame

/-- The caller is done with a frame it has. -/
def letGo (frame : Frame) : PipelineM Unit := releasePicture frame.content

/-- The caller is done with every frame it held on to.  Gives their number. -/
def releaseKept : PipelineM Nat := fun p =>
  match releaseFrames p.kept { p with kept := [] } with
  | .ok () q | .error _ q => .ok p.kept.length q

end Pipeline

end FrameOverlay
