import FrameOverlay.Proofs.Kernel.Region
import FrameOverlay.Proofs.Memory.Writable

/-!
# A blend issues its plan, and nothing else

Once the main picture is writable, a blend that succeeds has made one push, the launch of each step of its
plan in order, and one pop.  One that fails has launched the first steps of the plan, but not all, and
nothing after that.  Whatever planes the pictures have and whatever fails, the rest stays as it was.

* `PlaneStep.Asks` — what the launch of a step asks of the driver; `PlaneStep.Performs` — such a launch,
  which succeeds;
* `PlanePlan.Halted` — what is launched of a plan up to a failure;
* `Picture.Rewritten.bystander` — copy on write changes no buffer but that of its picture;
* `PlanePlan.BlendLaw`, `PlanePlan.blends_lawful` — **a blend issues its plan**.
-/

namespace FrameOverlay

open DeviceState DeviceM Session

/-! ### The launch of a step -/

/-- What the launch of `step` asks of the driver.  `launch` are its parameters, `mainPlane` and
`overlayPlane` the planes they stand for. -/
structure PlaneStep.Asks (step : PlaneStep) (overlay : Picture) (offset : OverlayOffset)
    (mainPlanes overlayPlanes : List DevicePlane) (record : LaunchRecord) (launch : OverlayLaunch)
    (mainPlane overlayPlane : DevicePlane) : Prop where
  main_at : mainPlanes[step.plane]? = some mainPlane
  overlay_at : overlayPlanes[step.plane]? = some overlayPlane
  grid : record.grid = .covering mainPlane.extent
  decoded : OverlayLaunch.ofArguments? record.arguments = some launch
  main_bound : launch.main.Binds mainPlane
  overlay_bound : launch.overlay.Binds overlayPlane
  origin : launch.offset = step.offset offset
  extent : launch.extent =
    ⟨visibleExtent (step.overlayExtent overlay.width overlay.height).x (step.offset offset).x
        mainPlane.rowBytes,
      visibleExtent (step.overlayExtent overlay.width overlay.height).y (step.offset offset).y
        mainPlane.rows⟩
  /-- That is the part of the overlay that does not reach past the plane. -/
  across : (mainPlane.rowBytes : Int) - (step.offset offset).x.toInt ≤ Int64.maxValue.toInt →
    launch.extent.x.toInt = max 0 (min (step.overlayExtent overlay.width overlay.height).x.toInt
      (mainPlane.rowBytes - (step.offset offset).x.toInt))
  down : (mainPlane.rows : Int) - (step.offset offset).y.toInt ≤ Int64.maxValue.toInt →
    launch.extent.y.toInt = max 0 (min (step.overlayExtent overlay.width overlay.height).y.toInt
      (mainPlane.rows - (step.offset offset).y.toInt))
  alpha : ∀ k, step.alphaPlane = some k → ∃ alphaPlane, overlayPlanes[k]? = some alphaPlane ∧
    launch.alpha.Binds alphaPlane
  /-- A null pointer and stride zero where the step reads no alpha. -/
  unweighed : step.alphaPlane = none → launch.alpha = ⟨0, 0⟩
  alphaStep : launch.alphaStep = step.alphaStep

/-- The moment is the launch of `step` with the session's function on its device's stream, and succeeds. -/
def PlaneStep.Performs (step : PlaneStep) (session : Session) (main overlay : Picture)
    (offset : OverlayOffset) (store : BufferStore) (m : Moment) : Prop :=
  m.result = 0 ∧ ∃ device record launch mainPlane overlayPlane,
    session.openDevice = some device ∧ m.call = .launch record ∧ record.function = session.function ∧
    record.stream = device.stream ∧
    step.Asks overlay offset (store.planes main.buffer) (store.planes overlay.buffer) record launch
      mainPlane overlayPlane

/-! ### Calls that fail -/

/-- The call fails, and not unnoticed as a pop does. -/
def Moment.Failed (m : Moment) : Prop := m.result ≠ 0 ∧ m.call ≠ .pop

/-- No launch comes after a call that failed. -/
def Moment.Stops (ms : List Moment) : Prop := ms.Pairwise fun m m' => m.Failed → m'.isLaunch = false

namespace Moment

theorem stops_of_silent {ms : List Moment} (silent : ∀ m ∈ ms, m.isLaunch = false) : Stops ms :=
  List.pairwise_of_forall_mem_list fun _ _ m' hm _ => silent m' hm

/-- Calls that do not fail come before others. -/
theorem Stops.after {fine ms : List Moment} (h : Stops ms) (none : ∀ m ∈ fine, ¬ m.Failed) :
    Stops (fine ++ ms) := by
  refine List.pairwise_append.2 ⟨?_, h, ?_⟩
  · exact List.pairwise_of_forall_mem_list fun m hm _ _ failed => absurd failed (none m hm)
  · exact fun m hm _ _ failed => absurd failed (none m hm)

end Moment

/-! ### Copy on write before a blend -/

namespace Picture

variable {p main : Picture} {session : Session} {s s' : DeviceState}

/-- Copy on write changes no buffer but that of its picture, of which it may give up one holder. -/
theorem Rewritten.bystander {answer : Except OverlayError (Bool × Picture)}
    (h : p.Rewritten session s (answer, s')) {b : BufferId} (inside : b < s.store.buffers.length)
    (other : b ≠ p.buffer) : s'.store.buffers[b]? = s.store.buffers[b]? := by
  cases h with
  | sole => rfl
  | barren => rfl
  | undone _ acquired _ _ released =>
    obtain ⟨rfl, pool, -, -, -, rfl⟩ := BufferStore.acquire_inv acquired
    rw [released, BufferStore.getElem?_release]
    simp [Nat.ne_of_lt inside, List.getElem?_append_left inside]
  | copied _ acquired _ _ released =>
    obtain ⟨rfl, pool, -, -, -, rfl⟩ := BufferStore.acquire_inv acquired
    rw [released, BufferStore.getElem?_release]
    simp [other, List.getElem?_append_left inside]

theorem Rewritten.retains {copied : Bool} (h : p.Rewritten session s (.ok (copied, main), s')) :
    main = { p with buffer := main.buffer } := by
  cases h with
  | sole => rfl
  | copied => rfl

end Picture

theorem mem_copyMoments {store : BufferStore} {sources targets : List DevicePlane} {m : Moment}
    (h : m ∈ copyMoments store sources targets) :
    ∃ source target, m = ⟨.copy (.between source target), 0, 0, store⟩ := by
  obtain ⟨i, inside, here⟩ := List.getElem_of_mem h
  simp only [copyMoments, List.getElem_zipWith] at here
  exact ⟨_, _, here.symm⟩

/-- Copy on write that succeeds has made no launch and no call that failed. -/
theorem Picture.quiet_of_ok {p main : Picture} {session : Session} {s s' : DeviceState} {copied : Bool}
    (h : attempt (p.makeWritable session) s = (.ok (copied, main), s')) :
    ∃ ms, s'.history = s.history ++ ms ∧ ∀ m ∈ ms, m.isLaunch = false ∧ ¬ m.Failed := by
  have view := p.written session (p.pool?.map .ofPool) s
  rw [← makeWritable_eq, h] at view
  cases view with
  | sole => exact ⟨[], (List.append_nil _).symm, fun _ hm => absurd hm List.not_mem_nil⟩
  | copied _ _ _ done =>
    obtain ⟨device, h, r, h', -, -, noted⟩ := copyBuffer_ok done
    refine ⟨_, noted.history, fun m hm => ?_⟩
    rcases List.mem_append.1 hm with first | pop
    · rcases List.mem_cons.1 first with rfl | within
      · exact ⟨rfl, fun failed => failed.1 rfl⟩
      · obtain ⟨source, target, rfl⟩ := mem_copyMoments within
        exact ⟨rfl, fun failed => failed.1 rfl⟩
    · rw [List.mem_singleton.1 pop]
      exact ⟨rfl, fun failed => failed.2 rfl⟩

/-! ### The launches of a plan -/

namespace PlanePlan

section Asks

variable {step : PlaneStep} {overlay : Picture} {offset : OverlayOffset}
  {mainPlanes overlayPlanes : List DevicePlane} {record : LaunchRecord} {launch : OverlayLaunch}
  {mainPlane overlayPlane : DevicePlane}
  (d : Drawn step overlay offset mainPlanes overlayPlanes record launch mainPlane overlayPlane)

include d

theorem Drawn.unweighed (none : step.alphaPlane = none) : launch.alpha = ⟨0, 0⟩ := by
  have made := d.alpha_argument
  rw [alphaArgument, none] at made
  exact (Except.ok.inj made).symm

/-- A launch that is drawn up asks for what its step says. -/
theorem Drawn.asks :
    step.Asks overlay offset mainPlanes overlayPlanes record launch mainPlane overlayPlane where
  main_at := d.main_at
  overlay_at := d.overlay_at
  grid := d.grid
  decoded := d.decoded
  main_bound := (planeArgument_ok d.main_argument).1
  overlay_bound := (planeArgument_ok d.overlay_argument).1
  origin := d.origin
  extent := d.extent
  across near := by
    rw [d.extent]
    exact toInt_visibleExtent _ _ near
  down near := by
    rw [d.extent]
    exact toInt_visibleExtent _ _ near
  alpha := d.alpha_bound.2
  unweighed := d.unweighed
  alphaStep := d.alphaStep

end Asks

theorem recordFor_target {step : PlaneStep} {device : DeviceContext} {function : Handle}
    {main overlay : Picture} {mainPlanes overlayPlanes : List DevicePlane} {offset : OverlayOffset}
    {record : LaunchRecord}
    (h : recordFor step device function main overlay mainPlanes overlayPlanes offset = .ok record) :
    record.function = function ∧ record.stream = device.stream := by
  obtain ⟨_, -, h⟩ := ok_of_bind h
  obtain ⟨_, -, h⟩ := ok_of_bind h
  obtain rfl := Except.ok.inj h
  exact ⟨rfl, rfl⟩

variable {session : Session} {main overlay : Picture} {offset : OverlayOffset} {store : BufferStore}

theorem performs_of_fulfils {step : PlaneStep} {m : Moment}
    (h : m.Fulfils session main overlay offset store step) :
    step.Performs session main overlay offset store m := by
  obtain ⟨device, record, opened, call, made⟩ := h.issues
  obtain ⟨launch, mainPlane, overlayPlane, d⟩ := drawn made
  obtain ⟨function, stream⟩ := recordFor_target made
  rw [h.during] at d
  exact ⟨h.success, device, record, launch, mainPlane, overlayPlane, opened, call, function, stream,
    d.asks⟩

/-! ### Up to a failure -/

/-- What is launched of a plan up to a failure: the steps `issued`, which are the first ones and not all.  Of
the steps after these at most one has reached the driver, which refused it. -/
structure Halted (plan : PlanePlan) (session : Session) (main overlay : Picture) (offset : OverlayOffset)
    (store : BufferStore) (issued : List PlaneStep) (ms : List Moment) : Prop where
  front : issued <+: plan.steps
  short : issued ≠ plan.steps
  launches : ∃ launched refused, ms.filter Moment.isLaunch = launched ++ refused ∧
    List.Forall₂ (fun step => step.Performs session main overlay offset store) issued launched ∧
    (refused = [] ∨ ∃ m step, refused = [m] ∧ m.result ≠ 0 ∧ issued ++ [step] <+: plan.steps ∧
      m.Issues session main overlay offset step)
  stops : Moment.Stops ms

/-- What has been launched when the launches of some steps fail. -/
theorem Advance.halted {steps : List PlaneStep} {e : OverlayError} {ms : List Moment}
    (h : Advance session main overlay offset store steps (.error e) ms) :
    ∃ issued launched refused, ms = launched ++ refused ∧ issued <+: steps ∧ issued ≠ steps ∧
      List.Forall₂ (Moment.Fulfils session main overlay offset store) issued launched ∧
      (refused = [] ∨ ∃ m step, refused = [m] ∧ m.result ≠ 0 ∧ issued ++ [step] <+: steps ∧
        m.Issues session main overlay offset step) := by
  have short (step : PlaneStep) (issued rest : List PlaneStep) : issued ≠ issued ++ step :: rest :=
    fun same => List.cons_ne_nil step rest (List.self_eq_append_right.1 same)
  cases h with
  | @unmade issued rest step _ _ _ upto before =>
    refine ⟨issued, ms, [], (List.append_nil ms).symm, ⟨step :: rest, upto.symm⟩, ?_, before, .inl rfl⟩
    exact upto ▸ short step issued rest
  | @refused issued rest step _ launched m upto before issues _ failed =>
    refine ⟨issued, launched, [m], rfl, ⟨step :: rest, upto.symm⟩, ?_, before, .inr ?_⟩
    · exact upto ▸ short step issued rest
    · refine ⟨m, step, rfl, failed, ⟨rest, ?_⟩, issues⟩
      rw [upto, List.append_assoc]
      rfl

/-! ### The whole blend -/

/-- What a blend does, whether it succeeds or not. -/
structure BlendLaw (plan : PlanePlan) (session : Session) (main overlay : Picture) (offset : OverlayOffset)
    (s : DeviceState) : Prop where
  /-- If it succeeds then after what copy on write does it has made one push, one launch for each step
  in order, and one pop. -/
  succeeded : ∀ n main' s', plan.composite session main overlay offset s = ((.ok n, main'), s') →
    n = plan.steps.length ∧ ∃ copied s₁ device h launched r h',
      attempt (main.makeWritable session) s = (.ok (copied, main'), s₁) ∧
      session.openDevice = some device ∧
      s'.history = s₁.history ++
        (⟨.push device.context, 0, h, s'.store⟩ :: launched ++ [⟨.pop, r, h', s'.store⟩]) ∧
      List.Forall₂ (fun step => step.Performs session main' overlay offset s'.store) plan.steps launched
  /-- If it fails it has launched the first steps and not all, and nothing after the failure. -/
  failed : ∀ e main' s', plan.composite session main overlay offset s = ((.error e, main'), s') →
    ∃ ms issued, s'.history = s.history ++ ms ∧ plan.Halted session main' overlay offset s'.store issued ms
  /-- The main picture may be in another buffer afterwards, and that is all: every buffer has its planes, and
  those of other pictures have their holders too. -/
  kept : ∀ answer main' s', plan.composite session main overlay offset s = ((answer, main'), s') →
    main' = { main with buffer := main'.buffer } ∧
    (∀ b, b < s.store.buffers.length → s'.store.planes b = s.store.planes b) ∧
    ∀ b, b < s.store.buffers.length → b ≠ main.buffer → s'.store.buffers[b]? = s.store.buffers[b]?
  /-- Of the frames that a caller has at hand, the main one may get another buffer and keeps all else. -/
  frames : ∀ (w : Studio) k i j (f g : Frame), i ≠ j → w.device = s → w.sessions[k]? = some session →
    w.frames[i]? = some f → w.frames[j]? = some g → f.content = main → g.content = overlay →
    ∀ answer main' s', plan.composite session main overlay offset s = ((answer, main'), s') →
      w.perform (.session k (.composite plan i j offset)) =
          (answer.map fun _ => (), { w with
            device := s'
            frames := w.frames.set i { f with content := { main with buffer := main'.buffer } } }) ∧
        (w.perform (.session k (.composite plan i j offset))).2.frames[j]? = some g

variable {f g : PixelFormat} {plan : PlanePlan} {session : Session} {main main' overlay : Picture}
  {offset : OverlayOffset} {s s' : DeviceState}

theorem steps_ne_nil (planned : ofFormats f g = .ok plan) : plan.steps ≠ [] := by
  obtain ⟨family, -, rfl⟩ := ofFormats_ok planned
  cases family <;> exact List.cons_ne_nil _ _

theorem succeeded {n : Nat} (run : plan.composite session main overlay offset s = ((.ok n, main'), s')) :
    n = plan.steps.length ∧ ∃ copied s₁ device h launched r h',
      attempt (main.makeWritable session) s = (.ok (copied, main'), s₁) ∧
      session.openDevice = some device ∧
      s'.history = s₁.history ++
        (⟨.push device.context, 0, h, s'.store⟩ :: launched ++ [⟨.pop, r, h', s'.store⟩]) ∧
      List.Forall₂ (fun step => step.Performs session main' overlay offset s'.store) plan.steps
        launched := by
  have view := plan.composing session main overlay offset s
  rw [run] at view
  cases view with
  | @writable copied _ s₁ _ _ _ written blended =>
  have view := plan.blending session main' overlay offset s₁
  rw [blended] at view
  generalize ran : (Except.ok n, s') = result at view
  cases view with
  | shut => exact nomatch ran
  | refused => exact nomatch ran
  | @entered device h h' r launched answer _ opened advance noted =>
  obtain ⟨same, rfl⟩ := Prod.mk.inj ran
  cases advance with
  | unmade => exact nomatch same
  | refused => exact nomatch same
  | through fulfilled =>
    refine ⟨Except.ok.inj same, copied, s₁, device, h, launched, r, h', written, opened, ?_, ?_⟩
    · rw [noted.store]
      exact noted.history
    · rw [noted.store]
      exact fulfilled.imp fun _ _ => performs_of_fulfils

/-- Without a launch a plan has not been carried out. -/
theorem halted_of_silent (planned : ofFormats f g = .ok plan) {ms : List Moment}
    (silent : ∀ m ∈ ms, m.isLaunch = false) : plan.Halted session main overlay offset store [] ms where
  front := List.nil_prefix
  short := (steps_ne_nil planned).symm
  launches := ⟨[], [], Moment.filter_isLaunch silent, .nil, .inl rfl⟩
  stops := Moment.stops_of_silent silent

/-- Launches that do not get through, between calls without a launch, of which those before do not fail. -/
theorem Advance.halts {e : OverlayError} {before ms after : List Moment}
    (h : Advance session main overlay offset store plan.steps (.error e) ms)
    (quiet : ∀ m ∈ before, m.isLaunch = false ∧ ¬ m.Failed)
    (silent : ∀ m ∈ after, m.isLaunch = false) :
    ∃ issued, plan.Halted session main overlay offset store issued (before ++ ms ++ after) := by
  obtain ⟨issued, launched, refused, rfl, front, short, fulfilled, refusal⟩ := h.halted
  have fine (m : Moment) (hm : m ∈ launched) : m.isLaunch = true ∧ ¬ m.Failed := by
    obtain ⟨step, -, fulfils⟩ := exists_of_forall₂ fulfilled hm
    obtain ⟨device, record, -, call, -⟩ := fulfils.issues
    exact ⟨Moment.isLaunch_of_launch call, fun failed => failed.1 fulfils.success⟩
  have tried (m : Moment) (hm : m ∈ refused) : m.isLaunch = true := by
    obtain rfl | ⟨m', step, rfl, -, -, device, record, -, call, -⟩ := refusal
    · exact absurd hm List.not_mem_nil
    · rw [List.mem_singleton.1 hm]
      exact Moment.isLaunch_of_launch call
  refine ⟨issued, front, short, ⟨launched, refused, ?_, ?_, refusal⟩, ?_⟩
  · rw [List.filter_append, List.filter_append, List.filter_append,
      Moment.filter_isLaunch fun m hm => (quiet m hm).1, Moment.filter_isLaunch silent,
      List.filter_eq_self.2 fun m hm => (fine m hm).1, List.filter_eq_self.2 tried, List.nil_append,
      List.append_nil]
  · exact fulfilled.imp fun _ _ => performs_of_fulfils
  -- What fails is the last launch, if it is a call at all.
  · have last : Moment.Stops (refused ++ after) := by
      refine List.pairwise_append.2 ⟨?_, Moment.stops_of_silent silent, fun _ _ m hm _ => silent m hm⟩
      obtain rfl | ⟨m, step, rfl, -⟩ := refusal
      · exact .nil
      · exact List.pairwise_singleton _ m
    rw [← List.append_assoc, List.append_assoc _ refused after]
    refine last.after fun m hm => ?_
    rcases List.mem_append.1 hm with first | within
    · exact (quiet m first).2
    · exact (fine m within).2

theorem failed (planned : ofFormats f g = .ok plan) {e : OverlayError}
    (run : plan.composite session main overlay offset s = ((.error e, main'), s')) :
    ∃ ms issued, s'.history = s.history ++ ms ∧
      plan.Halted session main' overlay offset s'.store issued ms := by
  have view := plan.composing session main overlay offset s
  rw [run] at view
  cases view with
  | unplanned =>
    exact ⟨[], [], (List.append_nil _).symm, halted_of_silent planned fun _ h => absurd h List.not_mem_nil⟩
  | unwritable _ shared =>
    have rewritten := main.rewritten session s
    rw [shared] at rewritten
    obtain ⟨ms, history, silent⟩ := rewritten.no_launch
    exact ⟨ms, [], history, halted_of_silent planned silent⟩
  | @writable copied _ s₁ _ _ _ written blended =>
  obtain ⟨ms, history, quiet⟩ := Picture.quiet_of_ok written
  have view := plan.blending session main' overlay offset s₁
  rw [blended] at view
  generalize ran : (Except.error e, s') = result at view
  cases view with
  | shut =>
    obtain ⟨-, rfl⟩ := Prod.mk.inj ran
    exact ⟨ms, [], history, halted_of_silent planned fun m hm => (quiet m hm).1⟩
  | @refused device r h fault _ _ noted =>
    obtain ⟨-, rfl⟩ := Prod.mk.inj ran
    refine ⟨_, [], by rw [noted.history, history, List.append_assoc], halted_of_silent planned ?_⟩
    intro m hm
    rcases List.mem_append.1 hm with copy | push
    · exact (quiet m copy).1
    · rw [List.mem_singleton.1 push]
      rfl
  | @entered device h h' r launched answer _ opened advance noted =>
    obtain ⟨same, rfl⟩ := Prod.mk.inj ran
    cases answer with
    | ok => exact nomatch same
    | error e' =>
    have quiet' (m : Moment) (hm : m ∈ ms ++ [⟨.push device.context, 0, h, s₁.store⟩]) :
        m.isLaunch = false ∧ ¬ m.Failed := by
      rcases List.mem_append.1 hm with copy | push
      · exact quiet m copy
      · rw [List.mem_singleton.1 push]
        exact ⟨rfl, fun failed => failed.1 rfl⟩
    have silent (m : Moment) (hm : m ∈ [⟨.pop, r, h', s₁.store⟩]) : m.isLaunch = false := by
      rw [List.mem_singleton.1 hm]
      rfl
    obtain ⟨issued, halted⟩ := advance.halts quiet' silent
    rw [noted.store]
    refine ⟨_, issued, ?_, halted⟩
    rw [noted.history, history]
    simp only [List.append_assoc, List.cons_append, List.nil_append]

theorem kept {answer : Except OverlayError Nat}
    (run : plan.composite session main overlay offset s = ((answer, main'), s')) :
    main' = { main with buffer := main'.buffer } ∧
    (∀ b, b < s.store.buffers.length → s'.store.planes b = s.store.planes b) ∧
    ∀ b, b < s.store.buffers.length → b ≠ main.buffer → s'.store.buffers[b]? = s.store.buffers[b]? := by
  have rewritten := main.rewritten session s
  have view := plan.composing session main overlay offset s
  rw [run] at view
  cases view with
  | unplanned => exact ⟨rfl, fun _ _ => rfl, fun _ _ _ => rfl⟩
  | unwritable _ shared =>
    rw [shared] at rewritten
    exact ⟨rfl, fun _ => rewritten.old, fun _ => rewritten.bystander⟩
  | @writable copied _ s₁ _ _ _ written blended =>
    rw [written] at rewritten
    obtain ⟨ms, issued, noted, -⟩ := plan.blend_issues session main' overlay offset s₁
    rw [blended] at noted
    rw [noted.store]
    exact ⟨rewritten.retains, fun _ => rewritten.old, fun _ => rewritten.bystander⟩

/-- **A blend issues its plan.**  Take any accepted pair of formats, any session, any two pictures with
whatever planes, any offset, and a device in any state with any faults.  The blend succeeds only with the
number of its steps, and then it has made, after copy on write, one push, one launch for each step in order
and one pop; each launch asks for what its step says.  If it fails it has launched the first steps, but not
all, and nothing after the failure.  Either way the main picture keeps all but its buffer, and every other
picture and frame keeps all. -/
theorem blends_lawful (planned : ofFormats f g = .ok plan) (session : Session) (main overlay : Picture)
    (offset : OverlayOffset) (s : DeviceState) : plan.BlendLaw session main overlay offset s where
  succeeded _ _ _ run := succeeded run
  failed _ _ _ run := failed planned run
  kept _ _ _ run := kept run
  frames w k i j f g apart device opened here there mine theirs answer main' s' run := by
    subst device mine theirs
    have performed : w.perform (.session k (.composite plan i j offset)) = (answer.map fun _ => (), { w with
        device := s'
        frames := w.frames.set i { f with content := { f.content with buffer := main'.buffer } } }) := by
      simp only [Studio.perform, opened, Studio.performSession, here, there, if_neg apart, run]
      rw [← (kept run).1]
    refine ⟨performed, ?_⟩
    rw [performed, List.getElem?_set_ne apart]
    exact there

/-- A main picture that is copied first, and of which the second launch fails; then the blend is tried again. -/
theorem blends_lawful_refused :
    let main : Picture := ⟨0, .yuv420p, 4, 4, none, some ⟨⟨1, 2⟩, .yuv420p, 4, 4, some 0⟩⟩
    let overlay : Picture := ⟨1, .yuva420p, 3, 5, none, none⟩
    let offset : OverlayOffset := ⟨.aligned (-2), 1⟩
    let session : Session := ⟨some ⟨1, 2⟩, 3, 4⟩
    let s : DeviceState :=
      { driver := { faults := { launch := Fault.only 1 719 } }
        store :=
          { buffers := [⟨DevicePlane.layout 0x1000 .yuv420p 4 4 16, none, 2⟩,
              ⟨DevicePlane.layout 0x9000 .yuva420p 3 5 16, none, 1⟩]
            pools := [.new .yuv420p 4 4] } }
    let plan : PlanePlan := ⟨.yuv420p, .yuva420p, stepsOf (some 3) .planar⟩
    let first := plan.composite session main overlay offset s
    let second := plan.composite session first.1.2 overlay offset first.2
    ofFormats .yuv420p .yuva420p = .ok plan ∧
      first.1.1.isOk = false ∧ first.1.2 = { main with buffer := 2 } ∧
      (first.2.history.map fun m => (m.call.tag, m.result)) = [("push", 0), ("copy", 0), ("copy", 0),
        ("copy", 0), ("pop", 0), ("push", 0), ("launch", 0), ("launch", 719), ("pop", 0)] ∧
      second.1.1 = .ok 3 ∧
      ((second.2.history.drop first.2.history.length).map fun m => m.call.tag) =
        ["push", "launch", "launch", "launch", "pop"] ∧
      plan.BlendLaw session main overlay offset s ∧
      plan.BlendLaw session first.1.2 overlay offset first.2 := by
  intro main overlay offset session s plan first second
  have planned : ofFormats .yuv420p .yuva420p = .ok plan := rfl
  exact ⟨planned, by decide +kernel, by decide +kernel, by decide +kernel, by decide +kernel,
    by decide +kernel, blends_lawful planned session main overlay offset s,
    blends_lawful planned session first.1.2 overlay offset first.2⟩

end PlanePlan

end FrameOverlay
