import FrameOverlay.Proofs.Device.Cycles
import FrameOverlay.Proofs.Device.Orders

/-!
# The accounts of a filter

Whatever is done in a studio, what its filters have put out agrees with their events: every event was
blended, passed on, or failed, and what was put out was taken out or still waits, in the order of the
events.

* `OverlayFilter.Books`, `OverlayFilter.books` — what one step adds to the account of a filter;
* `OverlayFilter.Accounts` — the account of a filter after a run;
* `OutputLaw`, `Studio.output_lawful` — **what every run keeps to**.
-/

namespace FrameOverlay

open Pipeline

/-! ### One order -/

namespace Cycle

/-- A cycle changes neither the configuration of a filter nor its output stream. -/
theorem after_like (t : Cycle) : t.after.filter.config = t.before.filter.config ∧
    t.after.filter.outputInfo = t.before.filter.outputInfo := by
  cases t.course with
  | quiet _ _ _ filter => exact ⟨by rw [filter], by rw [filter]⟩
  | bare _ _ _ _ filter => rw [filter]; exact ⟨rfl, rfl⟩
  | blended _ _ _ _ _ filter => rw [filter]; exact ⟨rfl, rfl⟩
  | spoiled _ _ _ filter => rw [filter]; exact ⟨rfl, rfl⟩

/-- Without output stream there is no event. -/
theorem event_none {t : Cycle} (none : t.before.filter.outputInfo = none) : t.event? = .none := by
  rw [event?, isReady, none, Option.isSome_none, Bool.false_and, if_neg Bool.false_ne_true]

end Cycle

/-- The step says nothing about filter `n`. -/
structure Step.Mute (n : Nat) (s : Step) : Prop where
  cycle : s.cycle? n = none
  taken : s.taken n = []
  settled : s.settled? n = none

/-- The order may settle the position of a filter. -/
def FilterOrder.settles : FilterOrder → Bool
  | configure .. | command .. => true
  | _ => false

/-- The order neither takes part in the account of a filter nor settles its position. -/
def FilterOrder.isMute : FilterOrder → Bool
  | push .. | close .. | teardown | drop => true
  | _ => false

/-- What a step adds to the account of filter `n`, which is `f` before it and `f'` afterwards. -/
structure OverlayFilter.Books (n : Nat) (s : Step) (f f' : OverlayFilter) : Prop where
  mode : f'.config.eval = f.config.eval
  output : f.output.frames ++ framesOf (s.cycle? n).toList = s.taken n ++ f'.output.frames
  delivered : f'.composited + f'.forwarded =
    f.composited + f.forwarded + (framesOf (s.cycle? n).toList).length
  events : f'.sync.events = f.sync.events + (eventsOf (s.cycle? n).toList).length
  numbered : (eventsOf (s.cycle? n).toList).map SyncEvent.index =
    List.range' f.sync.events (eventsOf (s.cycle? n).toList).length
  settled : f.config.eval = .init → f'.outputInfo.isSome = true →
    s.settled? n = none ∧ f.outputInfo.isSome = true ∧ f'.position = f.position ∨
      ∃ q, s.settled? n = some q ∧ f'.position = q.evaluate
  /-- A filter without output stream counts no events. -/
  blank : f'.outputInfo = none → f'.sync.events = 0

namespace OverlayFilter.Books

variable {n : Nat} {s : Step} {f f' : OverlayFilter}

/-- A step that is no activation. -/
theorem of_still (still : s.cycle? n = none) (mode : f'.config.eval = f.config.eval)
    (output : f.output.frames = s.taken n ++ f'.output.frames)
    (composited : f'.composited = f.composited) (forwarded : f'.forwarded = f.forwarded)
    (events : f'.sync.events = f.sync.events)
    (settled : f.config.eval = .init → f'.outputInfo.isSome = true →
      s.settled? n = none ∧ f.outputInfo.isSome = true ∧ f'.position = f.position ∨
        ∃ q, s.settled? n = some q ∧ f'.position = q.evaluate)
    (blank : f'.outputInfo = none → f'.sync.events = 0) : Books n s f f' where
  mode
  output := by rw [still, ← output]; exact List.append_nil _
  delivered := by rw [still, composited, forwarded]; rfl
  events := by rw [still, events]; rfl
  numbered := by rw [still]; rfl
  settled
  blank

/-- A step that says nothing about a filter, and leaves what counts alone. -/
theorem of_mute (mute : s.Mute n)
    (config : f'.config = f.config) (output : f'.output.frames = f.output.frames)
    (composited : f'.composited = f.composited) (forwarded : f'.forwarded = f.forwarded)
    (events : f'.sync.events = f.sync.events) (outputInfo : f'.outputInfo = f.outputInfo)
    (position : f'.position = f.position) (blank : f.outputInfo = none → f.sync.events = 0) :
    Books n s f f' :=
  .of_still mute.cycle (by rw [config]) (by rw [mute.taken, output]; rfl) composited forwarded events
    (fun _ on => .inl ⟨mute.settled, by rw [← outputInfo]; exact on, position⟩)
    (fun none => by rw [events]; exact blank (by rw [← outputInfo]; exact none))

theorem of_cycle {t : Cycle} (cycle : s.cycle? n = some t) (untaken : s.taken n = [])
    (unsettled : s.settled? n = none)
    (blank : t.before.filter.outputInfo = none → t.before.filter.sync.events = 0) :
    Books n s t.before.filter t.after.filter := by
  have counts := t.counts
  obtain ⟨config, info⟩ := t.after_like
  have frames : framesOf (s.cycle? n).toList = t.put := by
    rw [cycle]
    exact List.append_nil _
  have events : eventsOf (s.cycle? n).toList = t.event?.toList := by
    rw [cycle, eventsOf, Option.toList_some, List.filterMap_cons]
    cases t.event? <;> rfl
  exact
    { mode := by rw [config]
      output := by rw [frames, untaken, counts.output]; rfl
      delivered := by rw [frames, counts.delivered]
      events := by rw [events, counts.events]
      numbered := by
        rw [events]
        cases event : t.event? with
        | none => rfl
        | some e =>
          show [e.index] = [t.before.filter.sync.events]
          rw [counts.numbered e event]
      settled := fun init on => .inl ⟨unsettled, by rw [← info]; exact on, t.regular.kept init⟩
      blank := fun none => by
        rw [info] at none
        rw [counts.events, Cycle.event_none none, blank none]
        rfl }

end OverlayFilter.Books

/-! ### Every order of a filter -/

namespace Studio

variable {w : Studio} {n : Nat} {line : Line}

theorem line?_eq_some : w.line? n = some line ↔ w.lines[n]? = some line ∧ line.dropped = false := by
  rw [line?, Option.filter_eq_some_iff, Bool.not_eq_true']

/-- What an order for a filter that is there comes to. -/
theorem perform_filter (live : w.line? n = some line) (order : FilterOrder) :
    w.perform (.filter n order) = w.performFilter n line order := by
  obtain ⟨found, on⟩ := line?_eq_some.1 live
  simp only [perform, found, on, if_neg Bool.false_ne_true]

/-- Without its filter, an order does nothing. -/
theorem perform_filter_none (gone : w.line? n = none) (order : FilterOrder) :
    w.perform (.filter n order) = (.ok (), w) := by
  rw [line?, Option.filter_eq_none_iff] at gone
  simp only [perform]
  split
  · rfl
  next line found =>
  rw [if_pos (by simpa using gone line found)]

end Studio

namespace Step

/-- Only a configuration or a command settles a position. -/
theorem settled?_of_other (w : Studio) (n m : Nat) {order : FilterOrder} (h : order.settles = false) :
    (w.step (.filter m order)).settled? n = none := by
  unfold Studio.step settled?
  dsimp only
  split
  next on =>
    obtain ⟨-, rfl⟩ := Order.filter.inj on
    exact nomatch h
  next on =>
    obtain ⟨-, rfl⟩ := Order.filter.inj on
    exact nomatch h
  rfl

/-- An order that fails settles nothing. -/
theorem settled?_of_error {s : Step} {e : OverlayError} (failed : s.result = .error e) (n : Nat) :
    s.settled? n = none := by
  unfold settled?
  rw [failed]

/-- A configuration that succeeds settles the position with the sizes of the links. -/
theorem settled?_configure {w : Studio} {n : Nat} {line : Line} {main overlay : LinkInfo}
    {image : Except OverlayError KernelImage} (live : w.line? n = some line)
    (done : (w.step (.filter n (.configure main overlay image))).result = .ok ()) :
    (w.step (.filter n (.configure main overlay image))).settled? n = some
      (line.filter.position.setDimensions main.width main.height overlay.width overlay.height) := by
  unfold settled?
  rw [done]
  show (if n = n then (w.line? n).map _ else none) = _
  rw [if_pos rfl, live]
  rfl

/-- A command that succeeds settles the position with the new expression. -/
theorem settled?_command {w : Studio} {n : Nat} {line : Line} {name argument : String} {axis : Axis}
    {q : Position} (live : w.line? n = some line)
    (done : (w.step (.filter n (.command name argument))).result = .ok ())
    (named : Axis.ofName? name = some axis)
    (read : line.filter.position.setExpression axis argument = .ok q) :
    (w.step (.filter n (.command name argument))).settled? n = some q := by
  unfold settled?
  rw [done]
  show (if n = n then (w.line? n).bind _ else none) = _
  rw [if_pos rfl, live, Option.bind_some, named]
  show (line.filter.position.setExpression axis argument).toOption = _
  rw [read]
  rfl

theorem mute_of_order (w : Studio) (n m : Nat) {order : FilterOrder} (h : order.isMute = true) :
    (w.step (.filter m order)).Mute n := by
  cases order with
  | push | close | teardown | drop => exact ⟨rfl, rfl, settled?_of_other w n m rfl⟩
  | _ => exact nomatch h

end Step

/-- What a configuration that succeeds leaves of the position. -/
theorem OverlayFilter.place_position {f : OverlayFilter} (init : f.config.eval = .init)
    (main overlay : LinkInfo) : (f.place main overlay).position =
      (f.position.setDimensions main.width main.height overlay.width overlay.height).evaluate := by
  rw [place, settlePosition, init]

theorem OverlayFilter.place_eq (f : OverlayFilter) (main overlay : LinkInfo) :
    f.place main overlay = { f with position := (f.place main overlay).position } := by
  unfold place settlePosition
  split <;> rfl

/-- What a command makes of a filter. -/
theorem OverlayFilter.command_ok {f f' : OverlayFilter} {name argument : String}
    (h : f.command name argument = .ok f') : ∃ axis q, Axis.ofName? name = some axis ∧
      f.position.setExpression axis argument = .ok q ∧
      f' = { f with
        position := if f.config.eval = .init then q.evaluate else q
        config := (f.setText axis argument).config } := by
  unfold command at h
  split at h
  · exact nomatch h
  next axis named =>
  obtain ⟨q, read, h⟩ := ok_of_bind h
  obtain rfl := Except.ok.inj h
  refine ⟨axis, q, named, read, ?_⟩
  rcases mode : f.config.eval <;> cases axis <;> simp [settlePosition, setText, mode]

/-- The frames of a queue are the one that is taken and those that stay. -/
theorem FrameQueue.frames_eq_pop {α : Type} (q : FrameQueue α) :
    q.frames = q.pop.1.toList ++ q.pop.2.frames := by
  rcases q with ⟨_ | ⟨f, rest⟩, closed⟩ <;> rfl

/-- A teardown leaves a filter without kernel. -/
theorem Pipeline.teardown_filter (p : Pipeline) :
    (attempt teardown p).2.filter = { p.filter with stage := none } := by
  unfold teardown
  rw [attempt_bind_ok (a := p.filter) (t := p) rfl]
  cases loaded : p.filter.stage with
  | none =>
    show p.filter = _
    rw [← loaded]
  | some stage =>
    dsimp only
    rw [attempt_bind_ok (a := ()) rfl, attempt_onDevice]

section Command

variable {p : Pipeline} {name argument : String}

theorem Pipeline.attempt_command_error {e : OverlayError}
    (failed : p.filter.command name argument = .error e) :
    attempt (Pipeline.command name argument) p = (.error e, p) := by
  simp only [attempt, Pipeline.command, tryFilter, failed, bind, Except.bind]

theorem Pipeline.attempt_command_ok {f : OverlayFilter}
    (changed : p.filter.command name argument = .ok f) :
    attempt (Pipeline.command name argument) p = (.ok (), { p with filter := f }) := by
  simp only [attempt, Pipeline.command, tryFilter, changed, bind, Except.bind, pure, Except.pure]

end Command

section Books

variable {w : Studio} {n : Nat} {line : Line}

/-- A step that is an order answers as its filter does. -/
theorem Studio.step_result (live : w.line? n = some line) (order : FilterOrder) :
    (w.step (.filter n order)).result = (attempt order.body (w.pipeline line)).1 := by
  show (w.perform (.filter n order)).1 = _
  rw [Studio.perform_filter live]
  rfl

namespace OverlayFilter

/-- A step that takes frames out of the output. -/
theorem Books.of_taken {s : Step} {f : OverlayFilter} {rest : FrameQueue Frame} (still : s.cycle? n = none)
    (unsettled : s.settled? n = none) (output : f.output.frames = s.taken n ++ rest.frames)
    (blank : f.outputInfo = none → f.sync.events = 0) : Books n s f { f with output := rest } :=
  .of_still still rfl output rfl rfl rfl (fun _ on => .inl ⟨unsettled, on, rfl⟩) blank

theorem books_configure (live : w.line? n = some line)
    (blank : line.filter.outputInfo = none → line.filter.sync.events = 0) (main overlay : LinkInfo)
    (image : Except OverlayError KernelImage) :
    Books n (w.step (.filter n (.configure main overlay image))) line.filter
      (attempt (FilterOrder.configure main overlay image).body (w.pipeline line)).2.filter := by
  have result := Studio.step_result live (.configure main overlay image)
  have view := configuring main overlay image (w.pipeline line)
  have run : attempt (FilterOrder.configure main overlay image).body (w.pipeline line) = _ :=
    attempt_forget (configureWith main overlay image) (w.pipeline line)
  rw [run] at result ⊢
  generalize attempt (configureWith main overlay image) (w.pipeline line) = run at view result ⊢
  cases view with
  | refused =>
    exact .of_mute ⟨rfl, rfl, Step.settled?_of_error result n⟩ rfl rfl rfl rfl rfl rfl rfl blank
  | unsynchronized first =>
    rw [place_eq]
    refine .of_still rfl rfl rfl rfl rfl rfl (fun _ on => ?_) blank
    exact absurd on (by rw [first]; exact Bool.false_ne_true)
  | unopened _ first _ set =>
    have uncounted := (syncWith_ok set).2
    rw [place_eq]
    refine .of_still rfl rfl rfl rfl rfl (uncounted.trans (blank first).symm) (fun _ on => ?_)
      fun _ => uncounted
    exact absurd on (by rw [first]; exact Bool.false_ne_true)
  | configured _ first set =>
    have uncounted := (syncWith_ok set).2
    rw [place_eq]
    refine .of_still rfl rfl rfl rfl rfl (uncounted.trans (blank first).symm)
      (fun init _ => .inr ⟨_, Step.settled?_configure live result, place_position init main overlay⟩)
      fun _ => uncounted

theorem books_push (blank : line.filter.outputInfo = none → line.filter.sync.events = 0) (input : InputRole)
    (i : Nat) : Books n (w.step (.filter n (.push input i))) line.filter
      (attempt (FilterOrder.push input i).body (w.pipeline line)).2.filter := by
  have same : (attempt (FilterOrder.push input i).body (w.pipeline line)).2.filter = line.filter := by
    show (attempt (handOver input i) (w.pipeline line)).2.filter = _
    simp only [attempt, handOver]
    cases (w.pipeline line).kept[i]? <;> cases input <;> rfl
  rw [same]
  exact .of_mute (Step.mute_of_order w n n rfl) rfl rfl rfl rfl rfl rfl rfl blank

theorem books_activate (live : w.line? n = some line)
    (blank : line.filter.outputInfo = none → line.filter.sync.events = 0) :
    Books n (w.step (.filter n .activate)) line.filter
      (attempt FilterOrder.activate.body (w.pipeline line)).2.filter := by
  let t : Cycle := ⟨w.pipeline line⟩
  have cycle : (w.step (.filter n .activate)).cycle? n = some t := by
    show (if n = n then (w.line? n).map fun line => (⟨w.pipeline line⟩ : Cycle) else none) = _
    rw [if_pos rfl, live]
    rfl
  have same : (attempt FilterOrder.activate.body (w.pipeline line)).2 = t.after := by
    show (attempt (do let _ ← activate) (w.pipeline line)).2 = _
    rw [attempt_forget]
    rfl
  rw [same]
  exact .of_cycle cycle rfl (Step.settled?_of_other w n n rfl) blank

theorem books_command (live : w.line? n = some line)
    (blank : line.filter.outputInfo = none → line.filter.sync.events = 0) (name argument : String) :
    Books n (w.step (.filter n (.command name argument))) line.filter
      (attempt (FilterOrder.command name argument).body (w.pipeline line)).2.filter := by
  have result := Studio.step_result live (.command name argument)
  cases changed : line.filter.command name argument with
  | error e =>
    have run : attempt (FilterOrder.command name argument).body (w.pipeline line) =
        (.error e, w.pipeline line) := attempt_command_error changed
    rw [run] at result ⊢
    exact .of_mute ⟨rfl, rfl, Step.settled?_of_error result n⟩ rfl rfl rfl rfl rfl rfl rfl blank
  | ok f =>
    have run : attempt (FilterOrder.command name argument).body (w.pipeline line) =
        (.ok (), { w.pipeline line with filter := f }) := attempt_command_ok changed
    rw [run] at result ⊢
    obtain ⟨axis, q, named, read, rfl⟩ := command_ok changed
    have settled := Step.settled?_command live result named read
    refine .of_still rfl ?_ rfl rfl rfl rfl (fun init _ => .inr ⟨q, settled, if_pos init⟩) blank
    cases axis <;> rfl

/-- **What every order adds to the account of its filter.** -/
theorem books (live : w.line? n = some line) (order : FilterOrder) (more : order.isLast = false)
    (blank : line.filter.outputInfo = none → line.filter.sync.events = 0) :
    Books n (w.step (.filter n order)) line.filter (attempt order.body (w.pipeline line)).2.filter := by
  cases order with
  | configure main overlay image => exact books_configure live blank main overlay image
  | push input i => exact books_push blank input i
  | close input =>
    cases input <;>
      exact .of_mute (Step.mute_of_order w n n rfl) rfl rfl rfl rfl rfl rfl rfl blank
  | activate => exact books_activate live blank
  | command name argument => exact books_command live blank name argument
  | pop =>
    have unsettled : (w.step (.filter n .pop)).settled? n = none := Step.settled?_of_other w n n rfl
    refine .of_taken rfl unsettled ?_ blank
    show _ = (if n = n then ((w.line? n).bind fun line => line.filter.output.pop.1).toList else []) ++ _
    rw [if_pos rfl, live]
    exact line.filter.output.frames_eq_pop
  | drain =>
    have unsettled : (w.step (.filter n .drain)).settled? n = none := Step.settled?_of_other w n n rfl
    refine .of_taken rfl unsettled ?_ blank
    show _ = (if n = n then ((w.line? n).map fun line => line.filter.output.drain.1).getD [] else []) ++ _
    rw [if_pos rfl, live]
    exact (List.append_nil _).symm
  | teardown =>
    have same : (attempt FilterOrder.teardown.body (w.pipeline line)).2.filter =
        { line.filter with stage := none } := (w.pipeline line).teardown_filter
    rw [same]
    exact .of_mute (Step.mute_of_order w n n rfl) rfl rfl rfl rfl rfl rfl rfl blank
  | drop => exact absurd more (Bool.false_ne_true ∘ Eq.symm)

end OverlayFilter

end Books

/-! ### Cycles in a row -/

theorem framesOf_cons (t : Cycle) (rest : List Cycle) : framesOf (t :: rest) = t.put ++ framesOf rest :=
  List.flatMap_cons

theorem framesOf_append (cycles cycles' : List Cycle) :
    framesOf (cycles ++ cycles') = framesOf cycles ++ framesOf cycles' :=
  List.flatMap_append

theorem eventsOf_append (cycles cycles' : List Cycle) :
    eventsOf (cycles ++ cycles') = eventsOf cycles ++ eventsOf cycles' :=
  List.filterMap_append

/-- What is picked from the last entry of a list comes last. -/
theorem filterMap_concat {α β : Type} (f : α → Option β) (l : List α) (x : α) :
    (l ++ [x]).filterMap f = l.filterMap f ++ (f x).toList := by
  rw [List.filterMap_append, List.filterMap_cons]
  cases f x <;> rfl

namespace Cycle

/-- A cycle puts out one frame for an event that does not fail, and nothing else. -/
theorem answers (t : Cycle) : List.Forall₂ Frame.Answers t.delivered?.toList t.put := by
  have outcome := t.counts.outcome
  cases event : t.event? with
  | none =>
    have put : t.put = [] := by
      rw [event] at outcome
      exact List.length_eq_zero_iff.1 (by simp only [Option.toList_none, List.length_nil] at outcome; omega)
    rw [put, delivered?, event, ite_self]
    exact .nil
  | some e =>
    rw [event] at outcome
    cases failed : t.failed with
    | true =>
      have put : t.put = [] := by
        rw [failed, if_pos rfl] at outcome
        exact List.length_eq_zero_iff.1 (Nat.succ.inj outcome.symm)
      rw [put, delivered?, failed, if_pos rfl]
      exact .nil
    | false =>
      have done : t.result = .ok .event := by
        have told := t.regular.told.1 (by rw [event]; rfl)
        rw [failed] at told
        exact told.resolve_right Bool.false_ne_true
      obtain ⟨b, output, stamp⟩ := t.regular.one e event done
      rw [put_of_output output, delivered?, failed, if_neg Bool.false_ne_true, event]
      exact .cons ⟨stamp, b, rfl⟩ .nil

theorem answers_all (cycles : List Cycle) :
    List.Forall₂ Frame.Answers (cycles.filterMap delivered?) (framesOf cycles) := by
  induction cycles with
  | nil => exact .nil
  | cons t rest ih =>
    have both := List.rel_append t.answers ih
    rw [framesOf_cons, List.filterMap_cons]
    cases delivered : t.delivered? <;> rw [delivered] at both <;> exact both

/-- Every event was put out or failed. -/
theorem outcome_all (cycles : List Cycle) :
    (eventsOf cycles).length = (framesOf cycles).length + cycles.countP failed := by
  induction cycles with
  | nil => rfl
  | cons t rest ih =>
    have outcome := t.counts.outcome
    have events : (eventsOf (t :: rest)).length = t.event?.toList.length + (eventsOf rest).length := by
      rw [eventsOf, List.filterMap_cons]
      cases t.event? with
      | none => exact (Nat.zero_add _).symm
      | some e => exact Nat.add_comm _ 1
    rw [events, ih, framesOf_cons, List.length_append, List.countP_cons, outcome]
    omega

end Cycle

/-! ### Runs -/

/-- What the steps of a run say about filter `n`, which is `f` afterwards. -/
structure OverlayFilter.Accounts (n : Nat) (steps : List Step) (f : OverlayFilter) : Prop where
  output : framesOf (cyclesOf n steps) = steps.flatMap (Step.taken n) ++ f.output.frames
  delivered : f.composited + f.forwarded = (framesOf (cyclesOf n steps)).length
  numbered : (eventsOf (cyclesOf n steps)).map SyncEvent.index = List.range f.sync.events
  settled : f.config.eval = .init → f.outputInfo.isSome = true →
    ∃ q, (steps.filterMap (Step.settled? n)).getLast? = some q ∧ f.position = q.evaluate
  blank : f.outputInfo = none → f.sync.events = 0

theorem OverlayFilter.Accounts.step {n : Nat} {steps : List Step} {s : Step} {f f' : OverlayFilter}
    (h : f.Accounts n steps) (b : Books n s f f') : f'.Accounts n (steps ++ [s]) := by
  have cycles : cyclesOf n (steps ++ [s]) = cyclesOf n steps ++ (s.cycle? n).toList := filterMap_concat _ _ _
  exact
    { output := by
        rw [cycles, framesOf_append, h.output, List.append_assoc, b.output, List.flatMap_append,
          List.flatMap_singleton, List.append_assoc]
      delivered := by
        rw [cycles, framesOf_append, List.length_append, b.delivered, h.delivered]
      numbered := by
        rw [cycles, eventsOf_append, List.map_append, h.numbered, b.numbered, b.events,
          List.range_eq_range', List.range_eq_range', ← List.range'_append_1, Nat.zero_add]
      settled := fun init on => by
        rw [filterMap_concat]
        have init' : f.config.eval = .init := b.mode ▸ init
        rcases b.settled init' on with ⟨unsettled, on', same⟩ | ⟨q, settled, position⟩
        · obtain ⟨q, last, position⟩ := h.settled init' on'
          rw [unsettled, same, Option.toList_none, List.append_nil]
          exact ⟨q, last, position⟩
        · rw [settled]
          exact ⟨q, List.getLast?_concat, position⟩
      blank := b.blank }

/-- A filter is made with clean accounts. -/
theorem OverlayFilter.new_accounts {n : Nat} {steps : List Step} {config : OverlayConfig}
    {f : OverlayFilter} (made : OverlayFilter.new config = .ok f) (mute : ∀ s ∈ steps, s.Mute n) :
    f.Accounts n steps := by
  have cycles : cyclesOf n steps = [] := List.filterMap_eq_nil_iff.2 fun s hs => (mute s hs).cycle
  have taken : steps.flatMap (Step.taken n) = [] :=
    List.flatMap_eq_nil_iff.2 fun s hs => (mute s hs).taken
  obtain ⟨-, -, made⟩ := ok_of_bind made
  obtain ⟨position, -, made⟩ := ok_of_bind made
  obtain rfl := Except.ok.inj made
  exact
    { output := by rw [cycles, taken]; rfl
      delivered := by rw [cycles]; rfl
      numbered := by rw [cycles]; rfl
      settled := fun _ on => nomatch on
      blank := fun _ => rfl }

namespace Step

variable {n : Nat} {s : Step}

/-- What a step asks of filter `n` comes to nothing if that filter is not there, or is another one. -/
theorem asked_of_aside (h : ∀ order, s.order = .filter n order → s.before.line? n = none) {m : Nat}
    {order : FilterOrder} (on : s.order = .filter m order) {α : Type} (ask : Option Line → α) :
    (if m = n then ask (s.before.line? n) else ask none) = ask none := by
  split
  next same => rw [h order (same ▸ on)]
  next => rfl

/-- A step that does nothing with filter `n` says nothing about it. -/
theorem mute_of_aside (h : ∀ order, s.order = .filter n order → s.before.line? n = none) : s.Mute n where
  cycle := by
    unfold cycle?
    split
    next on => exact asked_of_aside h on (Option.map _)
    next => rfl
  taken := by
    unfold taken
    split
    next on => exact asked_of_aside h on fun line => (line.bind _).toList
    next on => exact asked_of_aside h on fun line => (line.map _).getD []
    next => rfl
  settled := by
    unfold settled?
    split
    next on => exact asked_of_aside h on (Option.map _)
    next on => exact asked_of_aside h on (Option.bind · _)
    next => rfl

/-- The state that a cycle starts from. -/
theorem cycle?_eq_some {t : Cycle} (h : s.cycle? n = some t) :
    ∃ line, s.before.line? n = some line ∧ t = ⟨s.before.pipeline line⟩ := by
  unfold cycle? at h
  split at h
  · split at h
    · obtain ⟨line, live, same⟩ := Option.map_eq_some_iff.1 h
      exact ⟨line, live, same.symm⟩
    · exact nomatch h
  · exact nomatch h

end Step

/-- The order is about filters. -/
def Order.aboutFilters : Order → Bool
  | newFilter _ | filter .. => true
  | _ => false

namespace Studio

/-- The account of line `n` after the steps of a run: it is right as long as the line is there, and before
that nothing is said about it. -/
structure Reckoned (n : Nat) (steps : List Step) (w : Studio) : Prop where
  absent : w.lines.length ≤ n → ∀ s ∈ steps, s.Mute n
  live : ∀ line, w.line? n = some line → line.filter.Accounts n steps

variable {w : Studio} {n : Nat} {steps : List Step}

/-- A step that does nothing with a line leaves its account alone. -/
theorem Reckoned.aside {w' : Studio} {s : Step} (h : w.Reckoned n steps) (mute : s.Mute n)
    (more : w.lines.length ≤ w'.lines.length) (same : w'.line? n = w.line? n) :
    w'.Reckoned n (steps ++ [s]) where
  absent less s' hs' := by
    rcases List.mem_append.1 hs' with before | last
    · exact h.absent (Nat.le_trans more less) s' before
    · obtain rfl := List.mem_singleton.1 last
      exact mute
  live line live := by
    have before := h.live line (same ▸ live)
    exact before.step (.of_mute mute rfl rfl rfl rfl rfl rfl rfl before.blank)

/-- Only an order about filters changes the lines. -/
theorem lines_perform (w : Studio) {order : Order} (aside : order.aboutFilters = false) :
    (w.perform order).2.lines = w.lines := by
  have view := w.performed order
  generalize w.perform order = answer at view ⊢
  cases view with
  | framed order => exact (w.performFrame_aside order).2.2
  | created => exact nomatch aside
  | filtered => exact nomatch aside
  | _ => rfl

/-- A line that is replaced. -/
theorem line?_performFilter {line : Line} (found : w.lines[n]? = some line) (order : FilterOrder) :
    (w.performFilter n line order).2.line? n = if order.isLast then none else
      some ⟨(attempt order.body (w.pipeline line)).2.filter, (attempt order.body (w.pipeline line)).2.main,
        (attempt order.body (w.pipeline line)).2.overlay, false⟩ := by
  have inside := (List.getElem?_eq_some_iff.1 found).1
  unfold line? performFilter
  dsimp only
  rw [List.getElem?_set_self inside, Option.filter_some]
  cases order.isLast <;> rfl

/-- The other lines are as they were. -/
theorem line?_performFilter_of_ne {m : Nat} (other : m ≠ n) (line : Line) (order : FilterOrder) :
    (w.performFilter m line order).2.line? n = w.line? n := by
  unfold line? performFilter
  dsimp only
  rw [List.getElem?_set_ne other]

theorem Reckoned.filtered (h : w.Reckoned n steps) (m : Nat) (order : FilterOrder) :
    (w.perform (.filter m order)).2.Reckoned n (steps ++ [w.step (.filter m order)]) := by
  cases found : w.line? m with
  | none =>
    have mute : (w.step (.filter m order)).Mute n := Step.mute_of_aside fun _ on => by
      obtain ⟨rfl, -⟩ := Order.filter.inj on
      exact found
    rw [perform_filter_none found]
    exact h.aside mute (Nat.le_refl _) rfl
  | some line =>
  have present := (line?_eq_some.1 found).1
  rw [perform_filter found]
  by_cases same : m = n
  · subst same
    have more : m < (w.performFilter m line order).2.lines.length := by
      show m < (w.lines.set m _).length
      rw [List.length_set]
      exact (List.getElem?_eq_some_iff.1 present).1
    refine ⟨fun less => absurd less (Nat.not_le.2 more), fun line' live => ?_⟩
    rw [line?_performFilter present] at live
    cases last : order.isLast with
    | true =>
      rw [last, if_pos rfl] at live
      exact nomatch live
    | false =>
      rw [last, if_neg Bool.false_ne_true] at live
      obtain rfl := Option.some.inj live
      have before := h.live line found
      exact before.step (OverlayFilter.books found order last before.blank)
  · have mute : (w.step (.filter m order)).Mute n := Step.mute_of_aside fun _ on =>
      absurd (Order.filter.inj on).1 same
    refine h.aside mute (Nat.le_of_eq ?_) (line?_performFilter_of_ne same line order)
    exact List.length_set.symm

theorem Reckoned.created (h : w.Reckoned n steps) (config : OverlayConfig) :
    (w.perform (.newFilter config)).2.Reckoned n (steps ++ [w.step (.newFilter config)]) := by
  have mute : (w.step (.newFilter config)).Mute n := Step.mute_of_aside fun _ on => nomatch on
  rcases made : OverlayFilter.new config with e | f
  · have same : w.perform (.newFilter config) = (.error e, w) := by simp only [Studio.perform, made]
    rw [same]
    exact h.aside mute (Nat.le_refl _) rfl
  · have same : w.perform (.newFilter config) =
        (.ok (), { w with lines := w.lines ++ [⟨f, {}, {}, false⟩] }) := by
      simp only [Studio.perform, made]
    rw [same]
    have length : (w.lines ++ [(⟨f, {}, {}, false⟩ : Line)]).length = w.lines.length + 1 :=
      List.length_append
    rcases Nat.lt_trichotomy n w.lines.length with less | rfl | beyond
    · refine h.aside mute (by simp only [length]; omega) ?_
      rw [line?, line?, List.getElem?_append_left less]
    · refine ⟨fun less => absurd less (by simp only [length]; omega), fun line live => ?_⟩
      rw [line?, List.getElem?_concat_length] at live
      obtain rfl := Option.some.inj live
      refine OverlayFilter.new_accounts made fun s hs => ?_
      rcases List.mem_append.1 hs with before | last
      · exact h.absent (Nat.le_refl _) s before
      · obtain rfl := List.mem_singleton.1 last
        exact mute
    · refine h.aside mute (by simp only [length]; omega) ?_
      rw [line?, line?, List.getElem?_eq_none (by rw [length]; exact beyond),
        List.getElem?_eq_none (Nat.le_of_lt beyond)]

theorem Reckoned.elsewhere (h : w.Reckoned n steps) {order : Order} (aside : order.aboutFilters = false) :
    (w.perform order).2.Reckoned n (steps ++ [w.step order]) := by
  have lines := w.lines_perform aside
  have mute : (w.step order).Mute n := Step.mute_of_aside fun _ on => by
    obtain rfl : order = _ := on
    exact nomatch aside
  refine h.aside mute (Nat.le_of_eq (congrArg List.length lines.symm)) ?_
  rw [line?, line?, lines]

/-- **Every order keeps every account right.** -/
theorem Reckoned.perform (h : w.Reckoned n steps) (order : Order) :
    (w.perform order).2.Reckoned n (steps ++ [w.step order]) := by
  cases order with
  | filter m order => exact h.filtered m order
  | newFilter config => exact h.created config
  | frame | openSession | session | leave => exact h.elsewhere rfl

/-- Every run keeps every account right. -/
theorem Reckoned.finish (h : w.Reckoned n steps) (orders : List Order) :
    (w.finish orders).Reckoned n (steps ++ w.steps orders) := by
  induction orders generalizing w steps with
  | nil =>
    rw [Studio.steps, List.append_nil]
    exact h
  | cons order rest ih =>
    rw [finish_cons, steps_cons, ← List.singleton_append, ← List.append_assoc]
    exact ih (h.perform order)

theorem reckoned (faults : FaultPlan) (n : Nat) (orders : List Order) :
    ((empty faults).finish orders).Reckoned n ((empty faults).steps orders) :=
  have start : (empty faults).Reckoned n [] :=
    ⟨fun _ _ hs => absurd hs List.not_mem_nil, fun _ live => by simp [line?, empty] at live⟩
  start.finish orders

/-- A step of a run is the next one after some of its orders. -/
theorem steps_split {orders : List Order} {earlier later : List Step} {s : Step}
    (h : w.steps orders = earlier ++ s :: later) :
    ∃ before order, earlier = w.steps before ∧ s = (w.finish before).step order := by
  induction earlier generalizing w orders with
  | nil =>
    cases orders with
    | nil => exact nomatch h
    | cons order rest => exact ⟨[], order, rfl, (List.cons.inj h).1.symm⟩
  | cons first others ih =>
    cases orders with
    | nil => exact nomatch h
    | cons order rest =>
      obtain ⟨head, tail⟩ := List.cons.inj h
      obtain ⟨before, last, same, step⟩ := ih tail
      exact ⟨order :: before, last, by rw [steps_cons, ← same, ← head], step⟩

end Studio

/-- What a run comes to for filter `n`: for its caller, its counters, its output and the device. -/
structure OutputLaw (n : Nat) (steps : List Step) (w : Studio) : Prop where
  regular : ∀ t ∈ cyclesOf n steps, t.Regular
  /-- What is put out belongs to the events that do not fail, in their order. -/
  answered : List.Forall₂ Frame.Answers ((cyclesOf n steps).filterMap Cycle.delivered?)
    (framesOf (cyclesOf n steps))
  /-- It is taken out in this order, or still waits. -/
  queued : ∀ line, w.line? n = some line →
    framesOf (cyclesOf n steps) = steps.flatMap (Step.taken n) ++ line.filter.output.frames
  /-- The events are numbered through. -/
  numbered : ∀ line, w.line? n = some line →
    (eventsOf (cyclesOf n steps)).map SyncEvent.index = List.range line.filter.sync.events
  counted : ∀ line, w.line? n = some line →
    line.filter.composited + line.filter.forwarded = (framesOf (cyclesOf n steps)).length
  delivered : ∀ line, w.line? n = some line → line.filter.sync.events =
    line.filter.composited + line.filter.forwarded + (cyclesOf n steps).countP Cycle.failed
  /-- In the mode in which the position is evaluated once, an event is placed as the latest configuration
  or command settled it. -/
  settled : ∀ earlier s later t, steps = earlier ++ s :: later → s.cycle? n = some t →
    t.event?.isSome = true → t.before.filter.config.eval = .init →
      ∃ q, (earlier.filterMap (Step.settled? n)).getLast? = some q ∧
        t.after.filter.position = q.evaluate

namespace Studio

/-- **The output of a filter is accounted for.**  Take a driver and pools with any faults, and any orders.
For every filter, what it put out agrees with its events, its counters and the driver calls. -/
theorem output_lawful (faults : FaultPlan) (orders : List Order) (n : Nat) :
    OutputLaw n ((empty faults).steps orders) ((empty faults).finish orders) := by
  have live := (reckoned faults n orders).live
  exact
    { regular := fun t _ => t.regular
      answered := Cycle.answers_all _
      queued := fun line on => (live line on).output
      numbered := fun line on => (live line on).numbered
      counted := fun line on => (live line on).delivered
      delivered := fun line on => by
        have numbered := congrArg List.length (live line on).numbered
        rw [List.length_map, List.length_range] at numbered
        rw [← numbered, Cycle.outcome_all, (live line on).delivered]
      settled := fun earlier s later t split cycle event init => by
        obtain ⟨before, order, rfl, rfl⟩ := steps_split split
        obtain ⟨line, on, rfl⟩ := Step.cycle?_eq_some cycle
        have configured : line.filter.outputInfo.isSome = true := by
          rw [Option.isSome_iff_ne_none]
          intro none
          rw [Cycle.event_none none] at event
          exact Bool.false_ne_true event
        obtain ⟨q, last, position⟩ := ((reckoned faults n before).live line on).settled init configured
        exact ⟨q, last, (Cycle.regular _).kept init |>.trans position⟩ }

end Studio

end FrameOverlay
