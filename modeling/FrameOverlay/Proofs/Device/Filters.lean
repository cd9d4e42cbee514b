import FrameOverlay.Proofs.Device.Moments
import FrameOverlay.Proofs.Sync.Conservation
import FrameOverlay.Studio

/-!
# What each order of a filter does

A filter's orders work on its pipeline: the filter, its queues, the device, and the caller's frames.  For
each order this module says what becomes of the driver calls, of the loaded kernel, and of the frames, so
that nothing after it unfolds an order.

* `Pipeline.holdings` — every frame of a pipeline;
* `Pipeline.attempt_releaseFrames`, `Pipeline.attempt_advance` — the parts of an order that make no driver
  call;
* `Pipeline.Received` — what can become of an event;
* `Pipeline.Acted` — **what can become of an order**.
-/

namespace FrameOverlay

open Stamped DeviceState Session

/-- The buffers of frames. -/
def buffersOf (frames : List Frame) : List BufferId := frames.map fun f => f.content.buffer

/-- Frames are no longer held. -/
def DeviceState.without (s : DeviceState) (frames : List Frame) : DeviceState :=
  { s with store := s.store.releaseAll (buffersOf frames) }

/-- The device when an event is received: its main frame is held once more if the synchronizer keeps
it. -/
def DeviceState.sharing (s : DeviceState) (e : SyncEvent Picture) : DeviceState :=
  if e.mainKept then { s with store := s.store.share e.main.content.buffer } else s

theorem DeviceState.history_sharing (s : DeviceState) (e : SyncEvent Picture) :
    (s.sharing e).history = s.history := by
  unfold sharing
  split <;> rfl

/-- The order unloads the filter's kernel. -/
def FilterOrder.closes : FilterOrder → Bool
  | teardown | drop => true
  | _ => false

/-- Two states of a filter that differ in neither frames nor kernel nor output stream. -/
structure OverlayFilter.Like (f f' : OverlayFilter) : Prop where
  sync : f'.sync = f.sync
  output : f'.output = f.output
  stage : f'.stage = f.stage
  outputInfo : f'.outputInfo = f.outputInfo

namespace OverlayFilter

/-- The session of a filter; a closed one while no kernel is loaded. -/
def session (f : OverlayFilter) : Session := (f.stage.map Stage.session).getD .closed

theorem session_of_loaded {f : OverlayFilter} {stage : Stage} (loaded : f.stage = some stage) :
    f.session = stage.session := by
  rw [session, loaded]
  rfl

theorem session_of_none {f : OverlayFilter} (none : f.stage = none) : f.session = .closed := by
  rw [session, none]
  rfl

theorem Like.refl (f : OverlayFilter) : f.Like f := ⟨rfl, rfl, rfl, rfl⟩

theorem like_settlePosition (f : OverlayFilter) : f.Like f.settlePosition := by
  unfold settlePosition
  split <;> exact ⟨rfl, rfl, rfl, rfl⟩

theorem like_place (f : OverlayFilter) (main overlay : LinkInfo) : f.Like (f.place main overlay) := by
  obtain ⟨sync, output, stage, info⟩ := like_settlePosition { f with
    position := f.position.setDimensions main.width main.height overlay.width overlay.height }
  exact ⟨sync, output, stage, info⟩

theorem like_command {f f' : OverlayFilter} {name argument : String}
    (h : f.command name argument = .ok f') : f.Like f' := by
  unfold command at h
  split at h
  · injection h
  next axis _ =>
  obtain ⟨position, -, h⟩ := ok_of_bind h
  obtain rfl := Except.ok.inj h
  obtain ⟨sync, output, stage, info⟩ := like_settlePosition ({ f with position }.setText axis argument)
  cases axis <;> exact ⟨sync, output, stage, info⟩

theorem like_positionFor (f : OverlayFilter) (e : SyncEvent Picture) (overlay : Picture) :
    f.Like (f.positionFor e overlay) := by
  unfold positionFor
  split <;> exact ⟨rfl, rfl, rfl, rfl⟩

/-- What comes of configuring the synchronizer for both links. -/
def syncWith (f : OverlayFilter) (main overlay : LinkInfo) :
    Except OverlayError (TimeBase × Synchronizer Picture) :=
  f.sync.configure f.config.syncOptions main.timeBase overlay.timeBase f.config.timeBase

end OverlayFilter

/-- What both links must have: frames contexts, and formats that go together. -/
def LinkInfo.planWith (main overlay : LinkInfo) : Except OverlayError PlanePlan :=
  match main.context, overlay.context with
  | none, _ => .error (.missingFramesContext .main)
  | some _, none => .error (.missingFramesContext .overlay)
  | some mainContext, some overlayContext =>
    PlanePlan.ofFormats mainContext.format overlayContext.format

open OverlayFilter

namespace Pipeline

/-- Every frame of a pipeline: those in the caller's hands, in the slots, in the queues, and put out. -/
def holdings (p : Pipeline) : List Frame :=
  p.kept ++ p.filter.sync.heldFrames ++ p.main.frames ++ p.overlay.frames ++ p.filter.output.frames

/-! ### Parts of orders -/

theorem attempt_onDevice {α : Type} (body : DeviceM α) (p : Pipeline) :
    attempt (onDevice body) p =
      ((attempt body p.device).1, { p with device := (attempt body p.device).2 }) := by
  simp only [attempt, onDevice]
  rcases body p.device with ⟨a, d⟩ | ⟨e, d⟩ <;> rfl

theorem attempt_releaseFrames (frames : List Frame) (p : Pipeline) :
    attempt (releaseFrames frames) p = (.ok (), { p with device := p.device.without frames }) := by
  induction frames generalizing p with
  | nil => rfl
  | cons f rest ih =>
    unfold releaseFrames
    rw [attempt_bind_ok (a := ()) rfl, ih]
    rfl

/-- The pipeline once the synchronizer has taken in what is queued. -/
def advanced (p : Pipeline) : Pipeline :=
  let run := p.filter.sync.activate p.main p.overlay
  { p with
    filter := { p.filter with sync := run.2.sync }
    main := run.2.main
    overlay := run.2.overlay
    device := p.device.without run.2.dropped }

theorem attempt_advance (p : Pipeline) : attempt advance p =
    (.ok (p.filter.sync.activate p.main p.overlay).1, p.advanced) := by
  let run := p.filter.sync.activate p.main p.overlay
  let p' : Pipeline := { p with
    filter := { p.filter with sync := run.2.sync }
    main := run.2.main
    overlay := run.2.overlay }
  have dropped := attempt_releaseFrames run.2.dropped p'
  have read : attempt advance p = (.ok run.1, (attempt (releaseFrames run.2.dropped) p').2) := by
    simp only [attempt, advance]
    rcases releaseFrames run.2.dropped p' with ⟨⟨⟩, q⟩ | ⟨e, q⟩ <;> rfl
  rw [read, dropped]
  rfl

/-! ### Events -/

/-- What can become of an event. -/
inductive Received (p : Pipeline) (e : SyncEvent Picture) :
    Except OverlayError Unit × Pipeline → Prop where
  | forwarded (bare : e.overlay = none) :
      Received p e (.ok (), { p with
        device := p.device.sharing e, filter := p.filter.putForwarded e.main })
  | blended {overlay : Frame} {stage : Stage} {f : OverlayFilter} {n : Nat} {main : Picture}
      {d : DeviceState} (covered : e.overlay = some overlay) (loaded : p.filter.stage = some stage)
      (like : p.filter.Like f) (composited : stage.plan.Composited stage.session e.main.content
        (p.device.sharing e) ((.ok n, main), d)) :
      Received p e (.ok (), { p with
        device := d, filter := f.putComposited { e.main with content := main } })
  | spoiled {overlay : Frame} {stage : Stage} {f : OverlayFilter} {error : OverlayError}
      {main : Picture} {d : DeviceState} (covered : e.overlay = some overlay)
      (loaded : p.filter.stage = some stage) (like : p.filter.Like f)
      (composited : stage.plan.Composited stage.session e.main.content
        (p.device.sharing e) ((.error error, main), d)) :
      Received p e (.error error,
        { p with device := d.without [{ e.main with content := main }], filter := f })

theorem attempt_composite (e : SyncEvent Picture) (overlay : Picture) (stage : Stage) (p : Pipeline) :
    attempt (composite e overlay stage) p =
      let run := stage.plan.composite stage.session e.main.content overlay p.filter.position.offset
        p.device
      match run.1.1 with
      | .ok _ => (.ok (), { p with
          device := run.2, filter := p.filter.putComposited { e.main with content := run.1.2 } })
      | .error error => (.error error, { p with
          device := run.2.without [{ e.main with content := run.1.2 }] }) := by
  simp only [attempt, composite]
  rcases stage.plan.composite stage.session e.main.content overlay p.filter.position.offset p.device
    with ⟨⟨error | n, main⟩, d⟩ <;> rfl

/-- An event without overlay is passed on. -/
theorem attempt_receive_bare {e : SyncEvent Picture} (bare : e.overlay = none) (p : Pipeline) :
    attempt (receive e) p = (.ok (), { p with
      device := p.device.sharing e, filter := p.filter.putForwarded e.main }) := by
  unfold receive putOut DeviceState.sharing
  rw [bare]
  cases e.mainKept <;> rfl

/-- An event with an overlay is placed and blended. -/
theorem attempt_receive_covered {e : SyncEvent Picture} {overlay : Frame} {stage : Stage}
    {p : Pipeline} (covered : e.overlay = some overlay) (loaded : p.filter.stage = some stage) :
    attempt (receive e) p = attempt (composite e overlay.content stage) { p with
      device := p.device.sharing e, filter := p.filter.positionFor e overlay.content } := by
  let p' : Pipeline := { p with device := p.device.sharing e }
  have shared : attempt (receive e) p = attempt (putOut e) p' := by
    simp only [p', DeviceState.sharing]
    unfold receive
    cases e.mainKept <;> rfl
  rw [shared]
  unfold putOut
  rw [covered]
  dsimp only
  rw [attempt_bind_ok (a := p.filter) (t := p') rfl, loaded]
  exact attempt_bind_ok (a := ()) rfl

theorem received {p : Pipeline} {e : SyncEvent Picture} (loaded : p.filter.stage.isSome = true) :
    Received p e (attempt (receive e) p) := by
  obtain ⟨stage, loaded⟩ := Option.isSome_iff_exists.1 loaded
  cases covered : e.overlay with
  | none =>
    rw [attempt_receive_bare covered]
    exact .forwarded covered
  | some overlay =>
    rw [attempt_receive_covered covered loaded, attempt_composite]
    have like := like_positionFor p.filter e overlay.content
    have view := stage.plan.composited stage.session e.main.content overlay.content
      (p.filter.positionFor e overlay.content).position.offset (p.device.sharing e)
    dsimp only
    generalize stage.plan.composite stage.session e.main.content overlay.content
      (p.filter.positionFor e overlay.content).position.offset (p.device.sharing e) = run at view ⊢
    rcases run with ⟨⟨error | n, main⟩, d⟩
    · exact .spoiled covered loaded like view
    · exact .blended covered loaded like view

/-- What can become of an activation. -/
inductive Activated (p : Pipeline) : Except OverlayError Activation × Pipeline → Prop where
  /-- The filter has no output or no kernel. -/
  | unready (unready : (p.filter.outputInfo.isSome && p.filter.stage.isSome) = false) :
      Activated p (.error .notConfigured, p)
  | silent {result : Except OverlayError Activation}
      (ready : (p.filter.outputInfo.isSome && p.filter.stage.isSome) = true)
      (none : (p.filter.sync.activate p.main p.overlay).1.event? = none) (other : result ≠ .ok .event) :
      Activated p (result, p.advanced)
  | event {e : SyncEvent Picture} {stage : Stage} (configured : p.filter.outputInfo.isSome = true)
      (loaded : p.filter.stage = some stage)
      (event : (p.filter.sync.activate p.main p.overlay).1 = .event e) :
      Activated p ((attempt (receive e) p.advanced).1.map fun _ => .event,
        (attempt (receive e) p.advanced).2)

theorem activated (p : Pipeline) : Activated p (attempt activate p) := by
  unfold activate
  rw [attempt_bind_ok (a := p.filter) (t := p) rfl]
  cases ready : p.filter.outputInfo.isSome && p.filter.stage.isSome with
  | false =>
    have failed : attempt (throw .notConfigured : PipelineM Unit) p = (.error .notConfigured, p) := rfl
    rw [if_pos, attempt_bind_error failed]
    · exact .unready ready
    · revert ready
      cases p.filter.outputInfo <;> cases p.filter.stage <;> simp
  | true =>
    obtain ⟨configured, loaded⟩ := Bool.and_eq_true_iff.1 ready
    obtain ⟨stage, loaded⟩ := Option.isSome_iff_exists.1 loaded
    have on : ¬ (p.filter.outputInfo.isNone || p.filter.stage.isNone) = true := by
      rw [loaded, Option.isNone_some, Bool.or_false, Option.isNone_iff_eq_none]
      exact Option.isSome_iff_ne_none.1 configured
    rw [if_neg on, attempt_bind_ok (attempt_advance p)]
    cases outcome : (p.filter.sync.activate p.main p.overlay).1 with
    | event e =>
      have view : Activated p _ := .event configured loaded outcome
      rcases run : attempt (receive e) p.advanced with ⟨error | ⟨⟩, p'⟩
      · rw [run] at view
        have failed : attempt (Outcome.deliver receive (.event e)) p.advanced = (.error error, p') :=
          attempt_bind_error run
        rw [failed]
        exact view
      · rw [run] at view
        have done : attempt (Outcome.deliver receive (.event e)) p.advanced = (.ok .event, p') :=
          attempt_bind_ok run
        rw [done]
        exact view
    | unconfigured => exact .silent ready (by rw [outcome]; rfl) (by simp)
    | unpaired pts => exact .silent ready (by rw [outcome]; rfl) (by simp)
    | needInput => exact .silent ready (by rw [outcome]; rfl) (by simp)
    | ended => exact .silent ready (by rw [outcome]; rfl) (by simp)

/-! ### Orders -/

/-- What can become of a filter's order. -/
inductive Acted (p : Pipeline) : FilterOrder → Except OverlayError Unit × Pipeline → Prop where
  /-- Frames at most change hands. -/
  | quiet {order : FilterOrder} {answer : Except OverlayError Unit} {p' : Pipeline}
      (unloaded : order.closes = true → p.filter.stage = none) (device : p'.device = p.device)
      (stage : p'.filter.stage = p.filter.stage)
      (outputInfo : p'.filter.outputInfo = p.filter.outputInfo)
      (frames : ∀ q, tally q p'.holdings = tally q p.holdings) : Acted p order (answer, p')
  /-- A configuration fails after the synchronizer let go of what it held. -/
  | unopened {main overlay : LinkInfo} {image : Except OverlayError KernelImage}
      {context : FramesContext} {f : OverlayFilter} {e : OverlayError} {d : DeviceState}
      (on : main.context = some context) (first : p.filter.outputInfo = none)
      (stage : f.stage = p.filter.stage) (outputInfo : f.outputInfo = none)
      (output : f.output = p.filter.output) (held : f.sync.heldFrames = [])
      (opened : Opened context.device (p.device.without p.filter.sync.heldFrames) (.error e, d)) :
      Acted p (.configure main overlay image) (.error e, { p with filter := f, device := d })
  | configured {main overlay : LinkInfo} {image : Except OverlayError KernelImage}
      {context : FramesContext} {f : OverlayFilter} {plan : PlanePlan} {session : Session}
      {d : DeviceState} (on : main.context = some context) (first : p.filter.outputInfo = none)
      (stage : f.stage = some ⟨plan, session⟩) (outputInfo : f.outputInfo.isSome = true)
      (output : f.output = p.filter.output) (held : f.sync.heldFrames = [])
      (opened : Opened context.device (p.device.without p.filter.sync.heldFrames) (.ok session, d)) :
      Acted p (.configure main overlay image) (.ok (), { p with filter := f, device := d })
  /-- An activation without an event. -/
  | advanced {answer : Except OverlayError Unit}
      (silent : (p.filter.sync.activate p.main p.overlay).1.handedOver = []) :
      Acted p .activate (answer, p.advanced)
  | received {e : SyncEvent Picture} {answer : Except OverlayError Unit} {p' : Pipeline}
      (event : (p.filter.sync.activate p.main p.overlay).1 = .event e)
      (received : Received p.advanced e (answer, p')) : Acted p .activate (answer, p')
  | tornDown {stage : Stage} {answer : Except OverlayError Unit} {d : DeviceState}
      (loaded : p.filter.stage = some stage) (closing : Closing stage.session p.device (answer, d)) :
      Acted p .teardown (answer, { p with filter := { p.filter with stage := none }, device := d })
  | discarded {answer answer' : Except OverlayError Unit} {d : DeviceState}
      (closing : Closing p.filter.session
        (p.device.without p.filter.sync.heldFrames) (answer, d)) :
      Acted p .drop (answer', { p with
        filter := { p.filter with sync := .new, output := {}, stage := none }
        device := d.without p.filter.output.frames })

/-- An order that leaves device, kernel and output stream alone, and is not to close anything. -/
theorem Acted.aside {p p' : Pipeline} {order : FilterOrder} {answer : Except OverlayError Unit}
    (opens : order.closes = false) (device : p'.device = p.device)
    (stage : p'.filter.stage = p.filter.stage) (outputInfo : p'.filter.outputInfo = p.filter.outputInfo)
    (frames : ∀ q, tally q p'.holdings = tally q p.holdings) : Acted p order (answer, p') :=
  .quiet (fun closes => absurd closes (Bool.eq_false_iff.1 opens)) device stage outputInfo frames

/-- Nothing happens. -/
theorem Acted.same {p : Pipeline} {order : FilterOrder} {answer : Except OverlayError Unit}
    (opens : order.closes = false) : Acted p order (answer, p) :=
  .aside opens rfl rfl rfl fun _ => rfl

theorem attempt_synchronize (main overlay : LinkInfo) (p : Pipeline) :
    attempt (synchronize main overlay) p = match p.filter.synchronize main overlay with
      | .error e => (.error e, p)
      | .ok (base, filter) => (.ok base, { p with
          filter, device := p.device.without p.filter.sync.heldFrames }) := by
  unfold synchronize
  rw [attempt_bind_ok (a := p.filter) (t := p) rfl]
  rcases set : p.filter.synchronize main overlay with e | ⟨base, filter⟩
  · have failed : attempt (tryFilter fun f => f.synchronize main overlay) p = (.error e, p) := by
      simp only [attempt, tryFilter, set]
    exact attempt_bind_error failed
  · have done : attempt (tryFilter fun f => f.synchronize main overlay) p =
        (.ok base, { p with filter }) := by
      simp only [attempt, tryFilter, set]
    rw [attempt_bind_ok done, attempt_bind_ok (attempt_releaseFrames _ _)]
    rfl

/-- A synchronizer that has just been configured holds nothing and counts from zero. -/
theorem syncWith_ok {f : OverlayFilter} {main overlay : LinkInfo} {base : TimeBase}
    {sync : Synchronizer Picture} (h : f.syncWith main overlay = .ok (base, sync)) :
    sync.heldFrames = [] ∧ sync.events = 0 := by
  obtain ⟨-, rfl⟩ := Synchronizer.configure_ok h
  refine ⟨?_, rfl⟩
  rcases f.config.syncOptions.normalized with ⟨action, shortest, repeatLast⟩
  cases shortest <;> cases repeatLast <;> rfl

/-- Taking in the sizes of both streams makes no difference to the synchronizer. -/
theorem syncWith_place (f : OverlayFilter) (main overlay : LinkInfo) :
    (f.place main overlay).syncWith main overlay = f.syncWith main overlay := by
  have config : (f.place main overlay).config = f.config := by
    unfold place settlePosition
    split <;> rfl
  rw [syncWith, config, (like_place f main overlay).sync]
  rfl

/-- What can become of a configuration. -/
inductive Configuring (p : Pipeline) (main overlay : LinkInfo) :
    Except OverlayError LinkInfo × Pipeline → Prop where
  | refused {e : OverlayError} (unfit : p.filter.outputInfo = none → main.planWith overlay = .error e) :
      Configuring p main overlay (.error e, p)
  | unsynchronized {plan : PlanePlan} {e : OverlayError} (first : p.filter.outputInfo = none)
      (planned : main.planWith overlay = .ok plan)
      (refused : p.filter.syncWith main overlay = .error e) :
      Configuring p main overlay (.error e, { p with filter := p.filter.place main overlay })
  | unopened {context : FramesContext} {plan : PlanePlan} {base : TimeBase} {sync : Synchronizer Picture}
      {e : OverlayError} {d : DeviceState} (on : main.context = some context)
      (first : p.filter.outputInfo = none) (planned : main.planWith overlay = .ok plan)
      (set : p.filter.syncWith main overlay = .ok (base, sync))
      (opened : Opened context.device (p.device.without p.filter.sync.heldFrames) (.error e, d)) :
      Configuring p main overlay (.error e, { p with
        filter := { p.filter.place main overlay with sync }, device := d })
  | configured {context : FramesContext} {plan : PlanePlan} {base : TimeBase}
      {sync : Synchronizer Picture} {session : Session} {info : LinkInfo} {d : DeviceState}
      (on : main.context = some context) (first : p.filter.outputInfo = none)
      (set : p.filter.syncWith main overlay = .ok (base, sync))
      (opened : Opened context.device (p.device.without p.filter.sync.heldFrames) (.ok session, d)) :
      Configuring p main overlay (.ok info, { p with
        filter := { p.filter.place main overlay with
          sync, stage := some ⟨plan, session⟩, outputInfo := some info }
        device := d })

/-- The filter is placed, then the synchronizer is configured. -/
theorem synchronize_place (f : OverlayFilter) (main overlay : LinkInfo) :
    (f.place main overlay).synchronize main overlay =
      (f.syncWith main overlay).map fun (base, sync) => (base, { f.place main overlay with sync }) := by
  rw [← syncWith_place f main overlay, OverlayFilter.synchronize, syncWith]
  rcases (f.place main overlay).sync.configure _ _ _ _ with e | ⟨base, sync⟩ <;> rfl

theorem configuring (main overlay : LinkInfo) (image : Except OverlayError KernelImage) (p : Pipeline) :
    Configuring p main overlay (attempt (configureWith main overlay image) p) := by
  unfold configureWith
  rw [attempt_bind_ok (a := p.filter) (t := p) rfl]
  cases first : p.filter.outputInfo with
  | some info =>
    have failed : attempt (throw (.config .alreadyConfigured) : PipelineM Unit) p =
        (.error (.config .alreadyConfigured), p) := rfl
    dsimp only
    rw [if_pos Option.isSome_some, attempt_bind_error failed]
    exact .refused fun none => nomatch first.symm.trans none
  | none =>
  rw [if_neg (by simp)]
  cases on : main.context with
  | none =>
    have failed : attempt (contextOf .main main) p = (.error (.missingFramesContext .main), p) := by
      simp only [contextOf, on, attempt_throw]
    rw [attempt_bind_error failed]
    exact .refused fun _ => by rw [LinkInfo.planWith, on]
  | some context =>
  have found : attempt (contextOf .main main) p = (.ok context, p) := by
    simp only [contextOf, on, attempt_pure]
  rw [attempt_bind_ok found]
  cases covered : overlay.context with
  | none =>
    have failed : attempt (contextOf .overlay overlay) p =
        (.error (.missingFramesContext .overlay), p) := by
      simp only [contextOf, covered, attempt_throw]
    rw [attempt_bind_error failed]
    exact .refused fun _ => by rw [LinkInfo.planWith, on, covered]
  | some overlayContext =>
  have found : attempt (contextOf .overlay overlay) p = (.ok overlayContext, p) := by
    simp only [contextOf, covered, attempt_pure]
  rw [attempt_bind_ok found]
  have fit : main.planWith overlay = PlanePlan.ofFormats context.format overlayContext.format := by
    rw [LinkInfo.planWith, on, covered]
  rcases planned : PlanePlan.ofFormats context.format overlayContext.format with e | plan
  · have failed : attempt (planFor context overlayContext) p = (.error e, p) := by
      simp only [attempt, planFor, planned]
    rw [attempt_bind_error failed]
    exact .refused fun _ => fit.trans planned
  have found : attempt (planFor context overlayContext) p = (.ok plan, p) := by
    simp only [attempt, planFor, planned]
  rw [attempt_bind_ok found]
  let placed : Pipeline := { p with filter := p.filter.place main overlay }
  rw [attempt_bind_ok (a := ()) (t := placed) rfl]
  have synchronized := attempt_synchronize main overlay placed
  rw [show placed.filter.synchronize main overlay = _ from synchronize_place p.filter main overlay]
    at synchronized
  rcases set : p.filter.syncWith main overlay with e | ⟨base, sync⟩
  · rw [set] at synchronized
    rw [attempt_bind_error synchronized]
    exact .unsynchronized first (fit.trans planned) set
  rw [set] at synchronized
  rw [attempt_bind_ok synchronized]
  let d := p.device.without p.filter.sync.heldFrames
  have device : placed.device.without placed.filter.sync.heldFrames = d := by
    simp only [placed, (like_place p.filter main overlay).sync, d]
  have view : Opened context.device d (attempt (startCompiled context.device image) d) := by
    cases image with
    | error e => exact .untried
    | ok image => exact opened context.device image d
  let synced : Pipeline := { placed with
    filter := { p.filter.place main overlay with sync }, device := d }
  have run := attempt_onDevice (startCompiled context.device image) synced
  rw [device]
  rcases answer : attempt (startCompiled context.device image) d with ⟨e | session, d'⟩
  · rw [answer] at view run
    rw [attempt_bind_error run]
    exact .unopened on first (fit.trans planned) set view
  · rw [answer] at view run
    rw [attempt_bind_ok run]
    exact .configured on first set view

theorem acted_configure (main overlay : LinkInfo) (image : Except OverlayError KernelImage)
    (p : Pipeline) : Acted p (.configure main overlay image)
      (attempt (FilterOrder.configure main overlay image).body p) := by
  show Acted p _ (attempt (do let _ ← configureWith main overlay image) p)
  rw [attempt_forget]
  have view := configuring main overlay image p
  have like := like_place p.filter main overlay
  generalize attempt (configureWith main overlay image) p = run at view ⊢
  cases view with
  | refused => exact .same rfl
  | unsynchronized first =>
    refine .aside rfl rfl like.stage like.outputInfo fun q => ?_
    simp only [holdings, like.sync, like.output]
  | unopened on first _ set opened =>
    exact .unopened on first like.stage (like.outputInfo.trans first) like.output (syncWith_ok set).1 opened
  | configured on first set opened =>
    exact .configured on first rfl rfl like.output (syncWith_ok set).1 opened

theorem acted_activate (p : Pipeline) : Acted p .activate (attempt FilterOrder.activate.body p) := by
  show Acted p _ (attempt (do let _ ← activate) p)
  rw [attempt_forget]
  have view := p.activated
  generalize attempt activate p = run at view ⊢
  cases view with
  | unready => exact .same rfl
  | silent _ none _ => exact .advanced (Outcome.handedOver_of_none none)
  | @event e _ _ loaded event =>
    have kept : p.advanced.filter.stage.isSome = true := Option.isSome_iff_exists.2 ⟨_, loaded⟩
    have view := received (e := e) kept
    rcases run : attempt (receive e) p.advanced with ⟨error | ⟨⟩, p'⟩ <;>
      rw [run] at view <;> exact .received event view

theorem acted_drop (p : Pipeline) : Acted p .drop (attempt FilterOrder.drop.body p) := by
  show Acted p _ (attempt discard p)
  unfold discard
  let emptied : Pipeline := { p with
    filter := { p.filter with sync := .new, output := {} }
    device := p.device.without p.filter.sync.heldFrames }
  rw [attempt_bind_ok (a := p.filter) (t := p) rfl, attempt_bind_ok (a := ()) rfl,
    attempt_bind_ok (attempt_releaseFrames _ _)]
  rw [attempt_bind_ok (a := ()) (t := emptied.shutDown) rfl, attempt_releaseFrames]
  have view := closing p.filter.session emptied.device
  have down : emptied.shutDown = { emptied with
      filter := { emptied.filter with stage := none }
      device := (attempt p.filter.session.close emptied.device).2 } := by
    unfold shutDown teardown
    rw [attempt_bind_ok (a := emptied.filter) (t := emptied) rfl]
    have stage : emptied.filter.stage = p.filter.stage := rfl
    rw [stage]
    cases loaded : p.filter.stage with
    | none =>
      have same : ({ p.filter with sync := .new, output := {}, stage := none } : OverlayFilter) =
          { p.filter with sync := .new, output := {} } := by rw [← loaded]
      simp only [emptied, same, session_of_none loaded]
      rfl
    | some stage =>
      rw [session_of_loaded loaded]
      dsimp only
      rw [attempt_bind_ok (a := ()) rfl, attempt_onDevice]
  rw [down]
  exact .discarded view

theorem acted (order : FilterOrder) (p : Pipeline) : Acted p order (attempt order.body p) := by
  cases order with
  | configure main overlay image => exact acted_configure main overlay image p
  | push input i =>
    show Acted p _ (attempt (handOver input i) p)
    simp only [attempt, handOver]
    cases found : p.kept[i]? with
    | none => exact .same rfl
    | some frame =>
      refine .aside rfl ?_ ?_ ?_ ?_ <;> cases input
      all_goals first | rfl | skip
      all_goals
        intro q
        have taken := tally_eraseIdx q found
        simp only [holdings, FrameQueue.push, tally_append]
        omega
  | close input =>
    show Acted p _ (attempt (close input) p)
    cases input <;> exact .aside rfl rfl rfl rfl fun _ => rfl
  | activate => exact acted_activate p
  | command name argument =>
    show Acted p _ (attempt (command name argument) p)
    simp only [attempt, command, tryFilter]
    rcases changed : p.filter.command name argument with e | f
    · simp only [bind, Except.bind]
      exact .same rfl
    · simp only [bind, Except.bind]
      have like := like_command changed
      refine .aside rfl rfl like.stage like.outputInfo fun q => ?_
      simp only [holdings, like.sync, like.output]
  | pop =>
    show Acted p _ (attempt (do keepAll (← pop).toList) p)
    rw [attempt_bind_ok (a := p.filter.output.pop.1) rfl]
    refine .aside rfl rfl rfl rfl fun q => ?_
    simp only [holdings, tally_append, FrameQueue.pop]
    rcases p.filter.output with ⟨_ | ⟨f, rest⟩, closed⟩
    · rfl
    · simp only [Option.toList_some, tally_cons q f rest]
      omega
  | drain =>
    show Acted p _ (attempt (do keepAll (← drain)) p)
    rw [attempt_bind_ok (a := p.filter.output.drain.1) rfl]
    refine .aside rfl rfl rfl rfl fun q => ?_
    simp only [holdings, tally_append, FrameQueue.drain, tally_nil]
    omega
  | teardown =>
    show Acted p _ (attempt teardown p)
    unfold teardown
    rw [attempt_bind_ok (a := p.filter) (t := p) rfl]
    cases loaded : p.filter.stage with
    | none => exact .quiet (fun _ => loaded) rfl rfl rfl fun _ => rfl
    | some stage =>
      dsimp only
      rw [attempt_bind_ok (a := ()) rfl, attempt_onDevice]
      exact .tornDown loaded (stage.session.closing p.device)
  | drop => exact acted_drop p

end Pipeline

end FrameOverlay
