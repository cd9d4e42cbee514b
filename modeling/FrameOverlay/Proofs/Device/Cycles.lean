import FrameOverlay.Cycle
import FrameOverlay.Proofs.Device.Filters
import FrameOverlay.Proofs.Device.Launches
import FrameOverlay.Proofs.Sync.Delivery

/-!
# What a cycle does

An activation of a filter without an event puts nothing out.  One with an event puts one frame out, unless
it fails.  An event without overlay is no matter for the device; one with an overlay issues the launches of
the plan, at the offset that the filter reports afterwards.

* `DeviceState.Untouched` — no driver call was made, and no pool was asked for a buffer;
* `Cycle.Course`, `Cycle.course` — what can become of a cycle;
* `Cycle.Regular` — **the account of a cycle**.
-/

namespace FrameOverlay

open DeviceState

/-! ### Without the device -/

/-- What each pool has handed out. -/
def BufferStore.drawn (s : BufferStore) : List (UInt64 × Nat) :=
  s.pools.map fun p => (p.nextBase, p.acquired)

namespace BufferStore

theorem drawn_release (s : BufferStore) (b : BufferId) : (s.release b).drawn = s.drawn := by
  unfold release drawn
  split
  · rfl
  split
  · refine List.ext_getElem? fun i => ?_
    rw [List.getElem?_map, List.getElem?_map, List.getElem?_modify]
    cases s.pools[i]? with
    | none => rfl
    | some pool =>
      simp only [Option.map_some]
      split <;> rfl
  · rfl

theorem drawn_releaseAll (s : BufferStore) (buffers : List BufferId) :
    (s.releaseAll buffers).drawn = s.drawn := by
  induction buffers generalizing s with
  | nil => rfl
  | cons b rest ih => exact (ih (s.release b)).trans (s.drawn_release b)

end BufferStore

/-- From one state to another no driver call was made, and no pool was asked for a buffer. -/
structure DeviceState.Untouched (s s' : DeviceState) : Prop where
  driver : s'.driver = s.driver
  history : s'.history = s.history
  drawn : s'.store.drawn = s.store.drawn

namespace DeviceState.Untouched

variable {s s' s'' : DeviceState}

theorem trans (h : s.Untouched s') (h' : s'.Untouched s'') : s.Untouched s'' :=
  ⟨h'.driver.trans h.driver, h'.history.trans h.history, h'.drawn.trans h.drawn⟩

/-- Letting go of frames is no matter for the device. -/
theorem without (s : DeviceState) (frames : List Frame) : s.Untouched (s.without frames) :=
  ⟨rfl, rfl, s.store.drawn_releaseAll (buffersOf frames)⟩

/-- Nor is holding on to the main frame of an event. -/
theorem sharing (s : DeviceState) (e : SyncEvent Picture) : s.Untouched (s.sharing e) := by
  unfold DeviceState.sharing
  split <;> exact ⟨rfl, rfl, rfl⟩

end DeviceState.Untouched

/-! ### Events -/

/-- The main frame of an event is stamped with the time of the event. -/
theorem Junction.next_stamped {α : Type} {j : Junction α} {e : SyncEvent α}
    (event : j.next.1 = .event e) : e.main.pts = Timestamp.toOption e.pts := by
  cases some : j.sync.timeBase with
  | none =>
    rw [next_of_unconfigured some] at event
    exact nomatch event
  | some base =>
    rw [next_eq some] at event
    generalize j.flow.advance = r at event
    cases on : r.2.sync.eof with
    | true =>
      rw [conclude_of_eof base on] at event
      exact nomatch event
    | false =>
      cases due : r.1 with
      | false =>
        rw [conclude_of_idle base on due] at event
        exact nomatch event
      | true =>
        rw [conclude_of_due base on due] at event
        cases current : r.2.sync.main.current? with
        | none =>
          unfold Synchronizer.fire at event
          rw [current] at event
          exact nomatch event
        | some frame =>
          rw [Synchronizer.fire_of_frame current] at event
          obtain rfl := Outcome.event.inj event
          rfl

namespace Pipeline

/-- The synchronizer of a pipeline between its queues. -/
def junction (p : Pipeline) : Junction Picture := ⟨p.filter.sync, p.main, p.overlay⟩

theorem outcome_eq (p : Pipeline) :
    (p.filter.sync.activate p.main p.overlay).1 = p.junction.next.1 := rfl

/-- Taking in what is queued counts the event, and does not touch the device. -/
theorem advanced_events (p : Pipeline) : p.advanced.filter.sync.events =
    p.filter.sync.events + (p.filter.sync.activate p.main p.overlay).1.event?.toList.length :=
  p.junction.next_counts.1

theorem untouched_advanced (p : Pipeline) : p.device.Untouched p.advanced.device :=
  .without _ _

/-- What the variables of the position are set to for an event. -/
def variablesFor (e : SyncEvent Picture) (overlay : Picture) : FrameVariables where
  mainWidth := e.main.content.width
  mainHeight := e.main.content.height
  overlayWidth := overlay.width
  overlayHeight := overlay.height
  n := UInt64.ofNat e.index
  t := e.seconds
  pos := e.main.content.pos

end Pipeline

/-- Placing the overlay changes the position of a filter only. -/
theorem OverlayFilter.positionFor_eq (f : OverlayFilter) (e : SyncEvent Picture) (overlay : Picture) :
    f.positionFor e overlay = { f with position := (f.positionFor e overlay).position } := by
  unfold positionFor
  split <;> rfl

/-- The moment is a launch of `step` at an offset, and it succeeded. -/
def Moment.Places (offset : OverlayOffset) (step : PlaneStep) (m : Moment) : Prop :=
  m.result = 0 ∧ ∃ record launch, m.call = .launch record ∧
    OverlayLaunch.ofArguments? record.arguments = some launch ∧ launch.offset = step.offset offset

theorem Moment.Issues.places {session : Session} {main overlay : Picture} {offset : OverlayOffset}
    {step : PlaneStep} {m : Moment} (h : m.Issues session main overlay offset step)
    (success : m.result = 0) : m.Places offset step := by
  obtain ⟨device, record, -, call, made⟩ := h
  obtain ⟨launch, _, _, d⟩ := PlanePlan.drawn made
  exact ⟨success, record, launch, call, d.decoded, d.origin⟩

/-! ### Cycles -/

namespace Cycle

open Pipeline

/-- The position of the filter once the overlay of an event has been placed. -/
def placedFor (t : Cycle) (e : SyncEvent Picture) (overlay : Picture) : Position :=
  (t.before.advanced.filter.positionFor e overlay).position

/-- What can become of a cycle. -/
inductive Course (t : Cycle) : Prop where
  | quiet (event : t.event? = none) (result : t.result ≠ .ok .event)
      (events : t.after.filter.sync.events = t.before.filter.sync.events)
      (filter : t.after.filter = { t.before.filter with sync := t.after.filter.sync })
  | bare {e : SyncEvent Picture} (event : t.event? = some e) (bare : e.overlay = none)
      (result : t.result = .ok .event) (device : t.before.device.Untouched t.after.device)
      (filter : t.after.filter = t.before.advanced.filter.putForwarded e.main)
  | blended {e : SyncEvent Picture} {overlay : Frame} {stage : Stage} {n : Nat} {main : Picture}
      (event : t.event? = some e) (covered : e.overlay = some overlay)
      (loaded : t.before.filter.stage = some stage)
      (run : stage.plan.composite stage.session e.main.content overlay.content
        (t.placedFor e overlay.content).offset (t.before.advanced.device.sharing e) =
          ((.ok n, main), t.after.device))
      (result : t.result = .ok .event)
      (filter : t.after.filter =
        { t.before.advanced.filter with position := t.placedFor e overlay.content }.putComposited
          { e.main with content := main })
  | spoiled {e : SyncEvent Picture} {overlay : Frame} {error : OverlayError}
      (event : t.event? = some e) (covered : e.overlay = some overlay) (result : t.result = .error error)
      (filter : t.after.filter =
        { t.before.advanced.filter with position := t.placedFor e overlay.content })

theorem course (t : Cycle) : t.Course := by
  have view := t.before.activated
  have result : t.result = (attempt activate t.before).1 := rfl
  have after : t.after = (attempt activate t.before).2 := rfl
  generalize attempt activate t.before = run at view result after
  cases view with
  | unready unready =>
    refine .quiet ?_ (by rw [result]; simp) ?_ ?_ <;> try rw [after]
    rw [event?, isReady, unready, if_neg Bool.false_ne_true]
  | silent ready none other =>
    refine .quiet ?_ (by rw [result]; exact other) ?_ ?_ <;> try rw [after]
    · rw [event?, isReady, ready, if_pos rfl, none]
    · rw [advanced_events, none]
      rfl
    · rfl
  | @event e stage configured loaded event =>
    have given : t.event? = some e := by
      rw [event?, isReady, configured, loaded, Option.isSome_some, Bool.and_self, if_pos rfl, event]
      rfl
    cases covered : e.overlay with
    | none =>
      rw [attempt_receive_bare covered] at result after
      refine .bare given covered result ?_ (by rw [after])
      rw [after]
      exact t.before.untouched_advanced.trans (.sharing _ e)
    | some overlay =>
      have kept : t.before.advanced.filter.stage = some stage := loaded
      rw [attempt_receive_covered covered kept, attempt_composite] at result after
      dsimp only at result after
      rw [OverlayFilter.positionFor_eq] at result after
      rcases run : stage.plan.composite stage.session e.main.content overlay.content
        (t.placedFor e overlay.content).offset (t.before.advanced.device.sharing e)
        with ⟨⟨error | n, main⟩, d⟩
      · rw [placedFor] at run
        rw [run] at result after
        exact .spoiled given covered result (by rw [after]; rfl)
      · have device : t.after.device = d := by
          rw [placedFor] at run
          rw [after, run]
        rw [← device] at run
        refine .blended given covered loaded run ?_ ?_ <;> rw [placedFor] at run <;>
          rw [run] at result after
        · exact result
        · rw [after]
          rfl

/-- What a cycle adds to what a filter has put out and counted. -/
structure Counts (t : Cycle) : Prop where
  output : t.after.filter.output.frames = t.before.filter.output.frames ++ t.put
  events : t.after.filter.sync.events = t.before.filter.sync.events + t.event?.toList.length
  numbered : ∀ e ∈ t.event?, e.index = t.before.filter.sync.events
  delivered : t.after.filter.composited + t.after.filter.forwarded =
    t.before.filter.composited + t.before.filter.forwarded + t.put.length
  outcome : t.event?.toList.length = t.put.length + if t.failed then 1 else 0

/-- The frames that were put out are those behind the ones that were there. -/
theorem put_of_output {t : Cycle} {frames : List Frame}
    (h : t.after.filter.output.frames = t.before.filter.output.frames ++ frames) : t.put = frames := by
  rw [put, h, List.drop_left]

theorem isError_of_event {t : Cycle} (h : t.result = .ok .event) : t.isError = false := by
  rw [isError, h]

/-- A cycle takes in what is queued if it gives an event out. -/
theorem event_of_some {t : Cycle} {e : SyncEvent Picture} (h : t.event? = some e) :
    (t.before.filter.sync.activate t.before.main t.before.overlay).1 = .event e := by
  unfold event? at h
  split at h
  · exact Outcome.event?_eq_some.1 h
  · exact nomatch h

/-- The event of a cycle carries the number of the events before it. -/
theorem index_of_event {t : Cycle} {e : SyncEvent Picture} (h : t.event? = some e) :
    e.index = t.before.filter.sync.events := by
  refine t.before.junction.next_counts.2 e ?_
  rw [Option.mem_def, ← outcome_eq, event_of_some h]
  rfl

/-- Whatever becomes of an event, it has been counted when the cycle ends. -/
theorem events_of_event {t : Cycle} {e : SyncEvent Picture} (h : t.event? = some e)
    (sync : t.after.filter.sync = t.before.advanced.filter.sync) :
    t.after.filter.sync.events = t.before.filter.sync.events + 1 := by
  rw [sync, advanced_events, event_of_some h]
  rfl

/-- The account of a cycle that puts a frame out. -/
theorem Counts.of_delivered {t : Cycle} {e : SyncEvent Picture} {frame : Frame}
    (event : t.event? = some e) (result : t.result = .ok .event)
    (sync : t.after.filter.sync = t.before.advanced.filter.sync)
    (output : t.after.filter.output.frames = t.before.filter.output.frames ++ [frame])
    (delivered : t.after.filter.composited + t.after.filter.forwarded =
      t.before.filter.composited + t.before.filter.forwarded + 1) : t.Counts := by
  have put : t.put = [frame] := put_of_output output
  exact
    { output := by rw [put, output]
      events := by rw [event]; exact events_of_event event sync
      numbered := fun _ => index_of_event
      delivered := by rw [put]; exact delivered
      outcome := by rw [failed, isError_of_event result, event, put]; rfl }

theorem counts (t : Cycle) : t.Counts := by
  cases t.course with
  | quiet event _ events filter =>
    have put : t.put = [] := put_of_output (by rw [filter, List.append_nil])
    exact
      { output := by rw [put, filter, List.append_nil]
        events := by rw [events, event]; rfl
        numbered := fun _ => index_of_event
        delivered := by rw [put, filter]; rfl
        outcome := by rw [failed, event, put]; rfl }
  | @bare e event _ result _ filter =>
    have output : t.after.filter.output.frames = t.before.filter.output.frames ++ [e.main] := by
      rw [filter]
      rfl
    refine .of_delivered event result ?_ output ?_ <;> rw [filter] <;> rfl
  | @blended e _ _ _ main event _ _ _ result filter =>
    have output : t.after.filter.output.frames =
        t.before.filter.output.frames ++ [{ e.main with content := main }] := by
      rw [filter]
      rfl
    refine .of_delivered event result ?_ output ?_ <;> rw [filter]
    · rfl
    · exact Nat.add_right_comm _ _ _
  | spoiled event _ result filter =>
    have put : t.put = [] := put_of_output (by rw [filter, List.append_nil]; rfl)
    exact
      { output := by rw [put, filter, List.append_nil]; rfl
        events := by rw [event]; exact events_of_event event (by rw [filter])
        numbered := fun _ => index_of_event
        delivered := by rw [put, filter]; rfl
        outcome := by rw [failed, isError, result, event, put]; rfl }

/-! ### The account of a cycle -/

/-- What a cycle comes to: for the caller, for the output, for the device, and for the position. -/
structure Regular (t : Cycle) : Prop where
  /-- The caller is told of every event that does not fail. -/
  told : t.event?.isSome = true ↔ t.result = .ok .event ∨ t.failed = true
  /-- Without an event, and if it fails, nothing is put out. -/
  nothing : t.result ≠ .ok .event → t.after.filter.output = t.before.filter.output
  /-- An event that does not fail puts its main frame out, stamped with the time of the event. -/
  one : ∀ e, t.event? = some e → t.result = .ok .event → ∃ b,
    t.after.filter.output.frames = t.before.filter.output.frames ++ [Frame.inBuffer e.main b] ∧
      (Frame.inBuffer e.main b).pts = Timestamp.toOption e.pts
  /-- Without overlay it does not fail, and the main frame is put out as it is. -/
  bare : ∀ e, t.event? = some e → e.overlay = none → t.result = .ok .event ∧
    t.after.filter.output.frames = t.before.filter.output.frames ++ [e.main] ∧
    t.before.device.Untouched t.after.device ∧ t.after.filter.position = t.before.filter.position
  /-- With an overlay the launches are those of the plan, each at its step's offset. -/
  launches : ∀ e overlay, t.event? = some e → e.overlay = some overlay → t.result = .ok .event →
    ∃ stage, t.before.filter.stage = some stage ∧
      List.Forall₂ (Moment.Places t.after.filter.position.offset) stage.plan.steps
        (t.moments.filter Moment.isLaunch)
  /-- In the mode in which the position is evaluated once, a cycle leaves it alone. -/
  kept : t.before.filter.config.eval = .init → t.after.filter.position = t.before.filter.position
  /-- Otherwise an event with an overlay evaluates it. -/
  placed : t.before.filter.config.eval = .frame → ∀ e overlay, t.event? = some e →
    e.overlay = some overlay → t.after.filter.position =
      (t.before.filter.position.refresh (variablesFor e overlay.content)).evaluate

theorem placedFor_init {t : Cycle} (init : t.before.filter.config.eval = .init) (e : SyncEvent Picture)
    (overlay : Picture) : t.placedFor e overlay = t.before.filter.position := by
  have mode : t.before.advanced.filter.config.eval = .init := init
  rw [placedFor, OverlayFilter.positionFor, mode]
  rfl

theorem placedFor_frame {t : Cycle} (frame : t.before.filter.config.eval = .frame) (e : SyncEvent Picture)
    (overlay : Picture) : t.placedFor e overlay =
      (t.before.filter.position.refresh (variablesFor e overlay)).evaluate := by
  have mode : t.before.advanced.filter.config.eval = .frame := frame
  rw [placedFor, OverlayFilter.positionFor, mode]
  rfl

/-- A blend that succeeds issues every launch of its plan, at its offset. -/
theorem places_of_composite {plan : PlanePlan} {session : Session} {main overlay main' : Picture}
    {offset : OverlayOffset} {s s' : DeviceState} {n : Nat}
    (run : plan.composite session main overlay offset s = ((.ok n, main'), s')) :
    ∃ b ms, main' = { main with buffer := b } ∧ s'.history = s.history ++ ms ∧
      List.Forall₂ (Moment.Places offset) plan.steps (ms.filter Moment.isLaunch) := by
  have view := plan.composite_issues session main overlay offset s
  rw [run] at view
  cases view with
  | @issued _ _ _ _ _ ms _ _ rewritten history _ launches whole =>
    obtain ⟨-, rfl, zero⟩ := whole n rfl
    have same : ∃ b, main' = { main with buffer := b } := by
      cases rewritten with
      | sole => exact ⟨_, rfl⟩
      | copied => exact ⟨_, rfl⟩
    obtain ⟨b, same⟩ := same
    refine ⟨b, ms, same, history, ?_⟩
    have success : ∀ m ∈ ms.filter Moment.isLaunch, m.result = 0 := fun m hm =>
      zero m (List.mem_filter.1 hm).1 (List.mem_filter.1 hm).2
    exact (((List.forall₂_and_left _ _).2 ⟨success, launches.launches.flip⟩).flip).imp
      fun _ _ h => Moment.Issues.places h.2 h.1

/-- A stamp is not changed by a change of buffer. -/
theorem pts_inBuffer {t : Cycle} {e : SyncEvent Picture} (h : t.event? = some e) (b : BufferId) :
    (Frame.inBuffer e.main b).pts = Timestamp.toOption e.pts :=
  t.before.junction.next_stamped (event_of_some h)

/-- A cycle gives one event out at most. -/
theorem event_unique {t : Cycle} {e e' : SyncEvent Picture} (h : t.event? = some e)
    (h' : t.event? = some e') : e' = e :=
  Option.some.inj (h'.symm.trans h)

/-- The event of a cycle is not at once with an overlay and without one. -/
theorem overlay_unique {t : Cycle} {e e' : SyncEvent Picture} {overlay : Option Frame}
    (h : t.event? = some e) (o : e.overlay = overlay) (h' : t.event? = some e') : e'.overlay = overlay := by
  rw [event_unique h h', o]

/-- The position that was placed for the overlay of an event is the one evaluated for it. -/
theorem placed_of_covered {t : Cycle} {e : SyncEvent Picture} {overlay : Frame}
    (event : t.event? = some e) (covered : e.overlay = some overlay)
    (position : t.after.filter.position = t.placedFor e overlay.content)
    (frame : t.before.filter.config.eval = .frame) (e' : SyncEvent Picture) (overlay' : Frame)
    (event' : t.event? = some e') (covered' : e'.overlay = some overlay') :
    t.after.filter.position =
      (t.before.filter.position.refresh (variablesFor e' overlay'.content)).evaluate := by
  obtain rfl := event_unique event event'
  obtain rfl := Option.some.inj (covered'.symm.trans covered)
  rw [position, placedFor_frame frame]

theorem regular (t : Cycle) : t.Regular := by
  cases t.course with
  | quiet event result events filter =>
    have none {e : SyncEvent Picture} (h : t.event? = some e) : False :=
      Option.some_ne_none e (h.symm.trans event)
    exact
      { told := by simp [event, result, failed]
        nothing := fun _ => by rw [filter]
        one := fun _ h => (none h).elim
        bare := fun _ h => (none h).elim
        launches := fun _ _ h => (none h).elim
        kept := fun _ => by rw [filter]
        placed := fun _ _ _ h => (none h).elim }
  | @bare e event bare result device filter =>
    have position : t.after.filter.position = t.before.filter.position := by
      rw [filter]
      rfl
    have output : t.after.filter.output.frames = t.before.filter.output.frames ++ [e.main] := by
      rw [filter]
      rfl
    have uncovered {e' : SyncEvent Picture} {overlay : Frame} (h : t.event? = some e')
        (covered : e'.overlay = some overlay) : False :=
      Option.some_ne_none overlay (covered.symm.trans (overlay_unique event bare h))
    exact
      { told := by simp [event, result]
        nothing := fun h => absurd result h
        one := fun e' h _ => by
          obtain rfl := event_unique event h
          exact ⟨e'.main.content.buffer, output, pts_inBuffer h _⟩
        bare := fun e' h _ => by
          obtain rfl := event_unique event h
          exact ⟨result, output, device, position⟩
        launches := fun _ _ h covered => (uncovered h covered).elim
        kept := fun _ => position
        placed := fun _ _ _ h covered => (uncovered h covered).elim }
  | @blended e overlay stage n main event covered loaded run result filter =>
    obtain ⟨b, ms, rfl, history, launches⟩ := places_of_composite run
    have position : t.after.filter.position = t.placedFor e overlay.content := by
      rw [filter]
      rfl
    have moments : t.moments = ms := by
      rw [Cycle.moments, history, (t.before.untouched_advanced.trans (.sharing _ e)).history,
        List.drop_left]
    exact
      { told := by simp [event, result]
        nothing := fun h => absurd result h
        one := fun e' h _ => by
          obtain rfl := event_unique event h
          exact ⟨b, by rw [filter]; rfl, pts_inBuffer h b⟩
        bare := fun _ h bare =>
          absurd ((overlay_unique event covered h).symm.trans bare) (Option.some_ne_none _)
        launches := fun _ _ _ _ _ => ⟨stage, loaded, by rw [moments, position]; exact launches⟩
        kept := fun init => by rw [position, placedFor_init init]
        placed := placed_of_covered event covered position }
  | @spoiled e overlay error event covered result filter =>
    have failed : t.result ≠ .ok .event := by rw [result]; simp
    have position : t.after.filter.position = t.placedFor e overlay.content := by rw [filter]
    exact
      { told := by simp [event, result, Cycle.failed, isError]
        nothing := fun _ => by rw [filter]; rfl
        one := fun _ _ h => absurd h failed
        bare := fun _ h bare =>
          absurd ((overlay_unique event covered h).symm.trans bare) (Option.some_ne_none _)
        launches := fun _ _ _ _ h => absurd h failed
        kept := fun init => by rw [position, placedFor_init init]
        placed := placed_of_covered event covered position }

end Cycle

end FrameOverlay
