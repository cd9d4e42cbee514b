import FrameOverlay.Proofs.Device.Accounts
import FrameOverlay.Proofs.Device.Modules
import FrameOverlay.Proofs.Device.Scopes
import FrameOverlay.Proofs.Expr.Ink

/-!
# A configuration that fails

A configuration goes step by step: contexts and formats of the links, the position, the synchronizer, the
kernel.  What has been set by the step that fails stays set, and the rest is as it was: no output, no kernel,
nothing loaded, no context current.

* `OverlayFilter.halfway` — the filter that a failed configuration leaves;
* `Pipeline.Remains`, `Pipeline.remains_of_configure` — **what a failed configuration leaves of everything**;
* `Pipeline.time_base_remains` — a time base that is left behind.
-/

namespace FrameOverlay

open Session Moment

namespace OverlayFilter

/-- What a configuration that fails leaves of a filter: unless the links are unfit their sizes are taken in,
and unless a time base is refused the synchronizer is configured. -/
def halfway (f : OverlayFilter) (main overlay : LinkInfo) : OverlayFilter :=
  match main.planWith overlay, f.syncWith main overlay with
  | .error _, _ => f
  | .ok _, .error _ => f.place main overlay
  | .ok _, .ok (_, sync) => { f.place main overlay with sync }

section Halfway

variable {f : OverlayFilter} {main overlay : LinkInfo}

theorem halfway_unfit {e : OverlayError} (unfit : main.planWith overlay = .error e) :
    f.halfway main overlay = f := by
  rw [halfway, unfit]

theorem halfway_unsynchronized {plan : PlanePlan} {e : OverlayError}
    (planned : main.planWith overlay = .ok plan) (refused : f.syncWith main overlay = .error e) :
    f.halfway main overlay = f.place main overlay := by
  rw [halfway, planned, refused]

theorem halfway_unopened {plan : PlanePlan} {base : TimeBase} {sync : Synchronizer Picture}
    (planned : main.planWith overlay = .ok plan) (set : f.syncWith main overlay = .ok (base, sync)) :
    f.halfway main overlay = { f.place main overlay with sync } := by
  rw [halfway, planned, set]

/-- Only position and synchronizer may have changed halfway. -/
theorem halfway_eq (f : OverlayFilter) (main overlay : LinkInfo) : f.halfway main overlay =
    { f with
      position := (f.halfway main overlay).position
      sync := (f.halfway main overlay).sync } := by
  unfold halfway
  split
  · rfl
  · rw [(like_place f main overlay).sync]
    exact f.place_eq main overlay
  · rw [f.place_eq main overlay]

/-- The offset is the old one, unless it is evaluated once and for all, and the links are fit. -/
theorem halfway_offset (f : OverlayFilter) (main overlay : LinkInfo) :
    (f.halfway main overlay).position.offset = f.position.offset ∨
      f.config.eval = .init ∧ (∃ plan, main.planWith overlay = .ok plan) ∧
        (f.halfway main overlay).position = (f.position.setDimensions main.width main.height
          overlay.width overlay.height).evaluate := by
  cases planned : main.planWith overlay with
  | error e => exact .inl (by rw [halfway_unfit planned])
  | ok plan =>
  have placed : (f.halfway main overlay).position = (f.place main overlay).position := by
    rcases set : f.syncWith main overlay with e | ⟨base, sync⟩
    · rw [halfway_unsynchronized planned set]
    · rw [halfway_unopened planned set]
  cases mode : f.config.eval with
  | init => exact .inr ⟨rfl, ⟨plan, rfl⟩, placed.trans (place_position mode main overlay)⟩
  | frame =>
    refine .inl ?_
    rw [placed, place, settlePosition, mode]
    rfl

end Halfway

end OverlayFilter

/-- Opening a session that fails leaves no module loaded and no context current. -/
theorem Session.Opened.returned {device : DeviceContext} {s s' : DeviceState} {e : OverlayError}
    (h : Opened device s (.error e, s')) : ∃ ms, s'.history = s.history ++ ms ∧
      Scoped (some device.context) ms ∧ unloads ms = loads ms := by
  obtain ⟨ms, history, calls⟩ := h.within
  refine ⟨ms, history, calls, ?_⟩
  cases h with
  | untried =>
    obtain rfl : ms = [] := List.append_cancel_left (history.symm.trans (List.append_nil _).symm)
    rfl
  | refused _ noted =>
    obtain rfl := List.append_cancel_left (history.symm.trans noted.history)
    rfl
  | rejected failed noted =>
    obtain rfl := List.append_cancel_left (history.symm.trans noted.history)
    simp [loads, unloads, loaded?, unloaded?, List.filterMap_cons, failed]
  | unresolved _ noted =>
    obtain rfl := List.append_cancel_left (history.symm.trans noted.history)
    rfl

namespace Pipeline

/-- What a configuration that fails with `e` leaves of everything. -/
structure Remains (p p' : Pipeline) (main overlay : LinkInfo) (e : OverlayError) : Prop where
  config : p'.filter.config = p.filter.config
  outputInfo : p'.filter.outputInfo = none
  stage : p'.filter.stage = p.filter.stage
  composited : p'.filter.composited = p.filter.composited
  forwarded : p'.filter.forwarded = p.filter.forwarded
  output : p'.filter.output = p.filter.output
  queues : p'.main = p.main ∧ p'.overlay = p.overlay ∧ p'.kept = p.kept
  /-- Links that are unfit change nothing at all. -/
  unfit : ∀ fault, main.planWith overlay = .error fault → e = fault ∧ p' = p
  offset : p'.filter.position.offset = p.filter.position.offset ∨
    p.filter.config.eval = .init ∧ (∃ plan, main.planWith overlay = .ok plan) ∧
      p'.filter.position = (p.filter.position.setDimensions main.width main.height
        overlay.width overlay.height).evaluate
  /-- A time base that is refused leaves the synchronizer alone. -/
  unsynchronized : ∀ plan fault, main.planWith overlay = .ok plan →
    p.filter.syncWith main overlay = .error fault → e = fault ∧ p'.filter.sync = p.filter.sync ∧
      p'.device = p.device
  /-- Otherwise it stays as it has been configured. -/
  synchronized : ∀ plan base sync, main.planWith overlay = .ok plan →
    p.filter.syncWith main overlay = .ok (base, sync) → p'.filter.sync = sync
  /-- A context that was made current is left, and a module that was loaded is unloaded. -/
  calls : ∃ ms, p'.device.history = p.device.history ++ ms ∧
    Scoped (main.context.map fun c => c.device.context) ms ∧ unloads ms = loads ms
  /-- As long as the filter stays so, nothing is taken in. -/
  inactive : ∀ q : Pipeline, q.filter = p'.filter → attempt activate q = (.error .notConfigured, q)

/-- Without output there is no activation. -/
theorem attempt_activate_unready {q : Pipeline} (none : q.filter.outputInfo = none) :
    attempt activate q = (.error .notConfigured, q) := by
  unfold activate
  rw [attempt_bind_ok (a := q.filter) (t := q) rfl, none]
  rfl

/-- What follows for everything from what becomes of filter and device. -/
theorem Remains.of_halfway {p : Pipeline} {main overlay : LinkInfo} {e : OverlayError} {d : DeviceState}
    (first : p.filter.outputInfo = none)
    (unfit : ∀ fault, main.planWith overlay = .error fault → e = fault ∧ d = p.device)
    (unsynchronized : ∀ plan fault, main.planWith overlay = .ok plan →
      p.filter.syncWith main overlay = .error fault → e = fault ∧ d = p.device)
    (calls : ∃ ms, d.history = p.device.history ++ ms ∧
      Scoped (main.context.map fun c => c.device.context) ms ∧ unloads ms = loads ms) :
    Remains p { p with filter := p.filter.halfway main overlay, device := d } main overlay e := by
  have same := p.filter.halfway_eq main overlay
  exact
    { config := by rw [same]
      outputInfo := by rw [same]; exact first
      stage := by rw [same]
      composited := by rw [same]
      forwarded := by rw [same]
      output := by rw [same]
      queues := ⟨rfl, rfl, rfl⟩
      unfit := fun fault h => by
        obtain ⟨same, rfl⟩ := unfit fault h
        exact ⟨same, by rw [OverlayFilter.halfway_unfit h]⟩
      offset := p.filter.halfway_offset main overlay
      unsynchronized := fun plan fault planned refused => by
        obtain ⟨same, rfl⟩ := unsynchronized plan fault planned refused
        refine ⟨same, ?_, rfl⟩
        rw [OverlayFilter.halfway_unsynchronized planned refused]
        exact (OverlayFilter.like_place p.filter main overlay).sync
      synchronized := fun plan base sync planned set => by
        rw [OverlayFilter.halfway_unopened planned set]
      calls
      inactive := fun q like => attempt_activate_unready (by rw [like, same]; exact first) }

/-- **What a failed configuration leaves of everything.**  Take any state in which no output is configured,
any two links, any outcome of compiling the kernel, and a driver with any faults.  A configuration that fails
leaves no output, no module loaded and no context current; configuration, counters, kernel and queues are as
they were; only the position and the synchronizer keep what had been set before the step that failed. -/
theorem remains_of_configure {p p' : Pipeline} {main overlay : LinkInfo}
    {image : Except OverlayError KernelImage} {e : OverlayError} (first : p.filter.outputInfo = none)
    (failed : attempt (configureWith main overlay image) p = (.error e, p')) :
    Remains p p' main overlay e := by
  have view := configuring main overlay image p
  rw [failed] at view
  have silent : ∃ ms, p.device.history = p.device.history ++ ms ∧
      Scoped (main.context.map fun c => c.device.context) ms ∧ unloads ms = loads ms :=
    ⟨[], (List.append_nil _).symm, .nil, rfl⟩
  cases view with
  | refused unfit =>
    have unfit := unfit first
    have same := Remains.of_halfway (p := p) (d := p.device) (e := e) first
      (fun fault h => ⟨Except.error.inj (unfit.symm.trans h), rfl⟩)
      (fun plan fault planned _ => nomatch unfit.symm.trans planned) silent
    rwa [OverlayFilter.halfway_unfit unfit] at same
  | unsynchronized _ planned refused =>
    have same := Remains.of_halfway (p := p) (d := p.device) (e := e) first
      (fun fault h => nomatch planned.symm.trans h)
      (fun plan fault _ h => ⟨Except.error.inj (refused.symm.trans h), rfl⟩) silent
    rwa [OverlayFilter.halfway_unsynchronized planned refused] at same
  | @unopened context plan base sync _ d on _ planned set opened =>
    obtain ⟨ms, history, calls, returned⟩ := opened.returned
    have same := Remains.of_halfway (p := p) (d := d) (e := e) first
      (fun fault h => nomatch planned.symm.trans h) (fun plan fault _ h => nomatch set.symm.trans h)
      ⟨ms, history, by rw [on]; exact calls, returned⟩
    rwa [OverlayFilter.halfway_unopened planned set] at same

/-- A filter that keeps the overlay at column and row ten, as it is made. -/
def atTen : OverlayFilter where
  config := { x := "10", y := "10", eval := .init }
  sync := .new
  position := ⟨⟨"10", .num ⟨10, 0⟩⟩, ⟨"10", .num ⟨10, 0⟩⟩, Position.initialVariables, .origin⟩
  stage := none
  output := {}
  composited := 0
  forwarded := 0
  outputInfo := none

theorem new_atTen : OverlayFilter.new atTen.config = .ok atTen := by
  have parsed : Expr.parse "10" = .ok (.num ⟨10, 0⟩) := Expr.parse_numeral (by decide +kernel) (by decide)
  exact OverlayFilter.new_eq (by decide) parsed parsed

/-- A module that cannot be loaded. -/
theorem remains_of_refused_load :
    let link : LinkInfo := ⟨⟨1, 25⟩, 4, 4, some ⟨⟨16, 32⟩, .nv12, 4, 4, none⟩⟩
    let p : Pipeline := { filter := atTen, device := { driver := { faults := { load := Fault.always 200 } } } }
    p.filter.outputInfo = none ∧
      ∃ e p', attempt (configureWith link link (.ok ⟨[7, 0]⟩)) p = (.error e, p') ∧ e.code = 203 ∧
        Remains p p' link link e := by
  intro link p
  have failed : (attempt (configureWith link link (.ok ⟨[7, 0]⟩)) p).1 =
      .error (.kernelModule (.loadFailed ⟨"cuModuleLoadData", 200, "CUDA_ERROR_INVALID_IMAGE",
        "mock driver error 200"⟩)) := by decide +kernel
  exact ⟨rfl, _, _, Prod.ext failed rfl, rfl, remains_of_configure rfl (Prod.ext failed rfl)⟩

/-- The time base is among what remains: a filter that has no output may have one. -/
theorem time_base_remains :
    let link : LinkInfo := ⟨⟨1, 25⟩, 4, 4, some ⟨⟨16, 32⟩, .nv12, 4, 4, none⟩⟩
    let p : Pipeline := { filter := atTen, device := { driver := { faults := { load := Fault.always 200 } } } }
    let run := attempt (configureWith link link (.ok ⟨[7, 0]⟩)) p
    OverlayFilter.new atTen.config = .ok atTen ∧ run.1.isOk = false ∧
      (p.filter.outputInfo, p.filter.sync.timeBase) = (none, none) ∧
      (run.2.filter.outputInfo, run.2.filter.sync.timeBase) = (none, some ⟨1, 25⟩) := by
  intro link p run
  exact ⟨new_atTen, by decide +kernel, rfl, by decide +kernel⟩

end Pipeline

end FrameOverlay
