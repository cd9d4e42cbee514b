import FrameOverlay.Proofs.Device.Moments
import Mathlib.Data.List.Forall2

/-!
# The launches of a blend

A blend issues the launches of its plan in order, up to the first that fails.  This module says which
launches those are, and what stands in each.

* `Moment.Issues` — the launch of a step; `Moment.Fulfils` — one that succeeds;
* `PlanePlan.Drawn` — what stands in a launch: the planes it was made of, and its parameters;
* `PlanePlan.Advance` — how far the launches of some steps get;
* `PlanePlan.Blending`, `PlanePlan.blend_issues`, `PlanePlan.composite_issues` — **one launch for each
  step**, in order, and for every step if the blend succeeds.
-/

namespace FrameOverlay

open DeviceState DeviceM Session

section Pairwise

variable {α β : Type} {R : α → β → Prop} {as : List α} {bs : List β} {b : β}

/-- What stands in the second list goes with what stands at the same place in the first. -/
theorem getElem?_of_forall₂ (h : List.Forall₂ R as bs) {i : Nat} (here : bs[i]? = some b) :
    ∃ a, as[i]? = some a ∧ R a b := by
  induction h generalizing i with
  | nil => exact nomatch here
  | cons first _ ih =>
    cases i with
    | zero => exact ⟨_, rfl, Option.some.inj here ▸ first⟩
    | succ i => exact ih here

theorem exists_of_forall₂ (h : List.Forall₂ R as bs) (listed : b ∈ bs) : ∃ a ∈ as, R a b := by
  obtain ⟨i, here⟩ := List.getElem?_of_mem listed
  obtain ⟨a, there, related⟩ := getElem?_of_forall₂ h here
  exact ⟨a, List.mem_of_getElem? there, related⟩

end Pairwise

/-- The moment is a launch. -/
def Moment.isLaunch (m : Moment) : Bool :=
  match m.call with
  | .launch _ => true
  | _ => false

theorem Moment.filter_isLaunch {ms : List Moment} (h : ∀ m ∈ ms, m.isLaunch = false) :
    ms.filter isLaunch = [] :=
  List.filter_eq_nil_iff.2 fun m hm launch => Bool.noConfusion ((h m hm).symm.trans launch)

theorem Moment.isLaunch_of_launch {m : Moment} {record : LaunchRecord} (h : m.call = .launch record) :
    m.isLaunch = true := by
  rw [isLaunch, h]

/-- The moment is the launch of a step of a blend. -/
def Moment.Issues (session : Session) (main overlay : Picture) (offset : OverlayOffset)
    (step : PlaneStep) (m : Moment) : Prop :=
  ∃ device record, session.openDevice = some device ∧ m.call = .launch record ∧
    PlanePlan.recordFor step device session.function main overlay (m.store.planes main.buffer)
      (m.store.planes overlay.buffer) offset = .ok record

/-- The moment is the launch of a step, which succeeds while the buffers are `store`. -/
structure Moment.Fulfils (session : Session) (main overlay : Picture) (offset : OverlayOffset)
    (store : BufferStore) (step : PlaneStep) (m : Moment) : Prop where
  issues : m.Issues session main overlay offset step
  during : m.store = store
  success : m.result = 0

namespace PlanePlan

/-! ### One launch -/

/-- What stands in a launch of `step`: the planes it was made of, and its parameters. -/
structure Drawn (step : PlaneStep) (overlay : Picture) (offset : OverlayOffset)
    (mainPlanes overlayPlanes : List DevicePlane) (record : LaunchRecord) (launch : OverlayLaunch)
    (mainPlane overlayPlane : DevicePlane) : Prop where
  main_at : mainPlanes[step.plane]? = some mainPlane
  overlay_at : overlayPlanes[step.plane]? = some overlayPlane
  decoded : OverlayLaunch.ofArguments? record.arguments = some launch
  grid : record.grid = .covering mainPlane.extent
  main_argument : planeArgument mainPlane = .ok launch.main
  overlay_argument : planeArgument overlayPlane = .ok launch.overlay
  alpha_argument : alphaArgument step overlay overlayPlanes = .ok launch.alpha
  origin : launch.offset = step.offset offset
  extent : launch.extent =
    ⟨visibleExtent (step.overlayExtent overlay.width overlay.height).x (step.offset offset).x
        mainPlane.rowBytes,
      visibleExtent (step.overlayExtent overlay.width overlay.height).y (step.offset offset).y
        mainPlane.rows⟩
  alphaStep : launch.alphaStep = step.alphaStep

theorem planeAt_getElem? {owner : String} {format : PixelFormat} {planes : List DevicePlane}
    {index : Nat} {plane : DevicePlane} (h : planeAt owner format planes index = .ok plane) :
    planes[index]? = some plane := by
  unfold planeAt at h
  split at h
  · next found => rw [found, Except.ok.inj h]
  · injection h

theorem drawn {step : PlaneStep} {device : DeviceContext} {function : Handle} {main overlay : Picture}
    {mainPlanes overlayPlanes : List DevicePlane} {offset : OverlayOffset} {record : LaunchRecord}
    (h : recordFor step device function main overlay mainPlanes overlayPlanes offset = .ok record) :
    ∃ launch mainPlane overlayPlane,
      Drawn step overlay offset mainPlanes overlayPlanes record launch mainPlane overlayPlane := by
  obtain ⟨mainPlane, mainFound, h⟩ := ok_of_bind h
  obtain ⟨launch, made, h⟩ := ok_of_bind h
  obtain rfl := Except.ok.inj h
  obtain ⟨overlayPlane, overlayFound, made⟩ := ok_of_bind made
  obtain ⟨alpha, alphaMade, made⟩ := ok_of_bind made
  obtain ⟨mainArgument, mainMade, made⟩ := ok_of_bind made
  obtain ⟨overlayArgument, overlayMade, made⟩ := ok_of_bind made
  obtain rfl := Except.ok.inj made
  exact ⟨_, mainPlane, overlayPlane, planeAt_getElem? mainFound, planeAt_getElem? overlayFound,
    OverlayLaunch.ofArguments?_arguments _, rfl, mainMade, overlayMade, alphaMade, rfl, rfl, rfl⟩

/-! ### All launches -/

/-- The launches among some calls: one for each of the steps `issued`, in order, while the buffers were
`store`. -/
structure Issued (session : Session) (main overlay : Picture) (offset : OverlayOffset)
    (store : BufferStore) (issued : List PlaneStep) (ms : List Moment) : Prop where
  launches : List.Forall₂ (Moment.Issues session main overlay offset) issued
    (ms.filter Moment.isLaunch)
  stores : ∀ m ∈ ms, m.isLaunch = true → m.store = store

namespace Issued

variable {session : Session} {main overlay : Picture} {offset : OverlayOffset} {store : BufferStore}
  {issued : List PlaneStep} {step : PlaneStep} {m : Moment} {ms ms' : List Moment}

/-- Calls without a launch. -/
theorem none (h : ∀ m ∈ ms, m.isLaunch = false) :
    Issued session main overlay offset store [] ms where
  launches := by
    rw [Moment.filter_isLaunch h]
    exact .nil
  stores m hm launch := absurd (h m hm) (by simp [launch])

/-- A launch comes before others. -/
theorem cons (first : m.Issues session main overlay offset step) (same : m.store = store)
    (h : Issued session main overlay offset store issued ms) :
    Issued session main overlay offset store (step :: issued) (m :: ms) where
  launches := by
    obtain ⟨device, record, -, call, -⟩ := id first
    rw [List.filter_cons_of_pos (Moment.isLaunch_of_launch call)]
    exact .cons first h.launches
  stores m' hm launch := by
    rcases List.mem_cons.1 hm with rfl | later
    · exact same
    · exact h.stores m' later launch

/-- Calls without a launch after others. -/
theorem append (h : Issued session main overlay offset store issued ms)
    (others : ∀ m ∈ ms', m.isLaunch = false) :
    Issued session main overlay offset store issued (ms ++ ms') where
  launches := by
    rw [List.filter_append, Moment.filter_isLaunch others, List.append_nil]
    exact h.launches
  stores m' hm launch := by
    rcases List.mem_append.1 hm with first | last
    · exact h.stores m' first launch
    · exact absurd (others m' last) (by simp [launch])

/-- Calls without a launch before others. -/
theorem prepend (h : Issued session main overlay offset store issued ms)
    (others : ∀ m ∈ ms', m.isLaunch = false) :
    Issued session main overlay offset store issued (ms' ++ ms) where
  launches := by
    rw [List.filter_append, Moment.filter_isLaunch others, List.nil_append]
    exact h.launches
  stores m' hm launch := by
    rcases List.mem_append.1 hm with first | last
    · exact absurd (others m' first) (by simp [launch])
    · exact h.stores m' last launch

/-- Every launch is one of a step. -/
theorem of_mem (h : Issued session main overlay offset store issued ms) (hm : m ∈ ms)
    (launch : m.isLaunch = true) : ∃ step ∈ issued, m.Issues session main overlay offset step :=
  exists_of_forall₂ h.launches (List.mem_filter.2 ⟨hm, launch⟩)

end Issued

/-- How far the launches of some steps get: through all of them, or up to a step of which the launch cannot
be made, or fails. -/
inductive Advance (session : Session) (main overlay : Picture) (offset : OverlayOffset)
    (store : BufferStore) (steps : List PlaneStep) : Except OverlayError Unit → List Moment → Prop where
  | through {ms : List Moment}
      (fulfilled : List.Forall₂ (Moment.Fulfils session main overlay offset store) steps ms) :
      Advance session main overlay offset store steps (.ok ()) ms
  | unmade {fulfilled rest : List PlaneStep} {step : PlaneStep} {device : DeviceContext} {e : OverlayError}
      {ms : List Moment} (upto : steps = fulfilled ++ step :: rest)
      (before : List.Forall₂ (Moment.Fulfils session main overlay offset store) fulfilled ms)
      (failed : recordFor step device session.function main overlay (store.planes main.buffer)
        (store.planes overlay.buffer) offset = .error e) :
      Advance session main overlay offset store steps (.error e) ms
  | refused {fulfilled rest : List PlaneStep} {step : PlaneStep} {fault : DriverFault}
      {ms : List Moment} {m : Moment} (upto : steps = fulfilled ++ step :: rest)
      (before : List.Forall₂ (Moment.Fulfils session main overlay offset store) fulfilled ms)
      (issues : m.Issues session main overlay offset step) (during : m.store = store)
      (failed : m.result ≠ 0) :
      Advance session main overlay offset store steps (.error (.driver fault)) (ms ++ [m])

section Advance

variable {session : Session} {main overlay : Picture} {offset : OverlayOffset} {store : BufferStore}
  {steps : List PlaneStep} {answer : Except OverlayError Unit} {ms : List Moment}

/-- A launch that succeeds comes before others. -/
theorem Advance.cons {step : PlaneStep} {m : Moment}
    (first : m.Fulfils session main overlay offset store step)
    (h : Advance session main overlay offset store steps answer ms) :
    Advance session main overlay offset store (step :: steps) answer (m :: ms) := by
  cases h with
  | through fulfilled => exact .through (.cons first fulfilled)
  | unmade upto before failed => exact .unmade (by rw [upto]; rfl) (.cons first before) failed
  | refused upto before issues during failed =>
    exact .refused (by rw [upto]; rfl) (.cons first before) issues during failed

/-- Launches that succeed come before others. -/
theorem Issued.after {fulfilled issued : List PlaneStep} {ms' : List Moment}
    (before : List.Forall₂ (Moment.Fulfils session main overlay offset store) fulfilled ms)
    (h : Issued session main overlay offset store issued ms') :
    Issued session main overlay offset store (fulfilled ++ issued) (ms ++ ms') := by
  induction before with
  | nil => exact h
  | cons first _ ih => exact ih.cons first.issues first.during

/-- Which steps have been launched then, the one that failed included. -/
theorem Advance.issued (h : Advance session main overlay offset store steps answer ms) :
    ∃ issued, issued <+: steps ∧ Issued session main overlay offset store issued ms ∧
      (answer = .ok () → issued = steps ∧ ∀ m ∈ ms, m.result = 0) := by
  have nothing : Issued session main overlay offset store [] [] :=
    .none fun _ hm => absurd hm List.not_mem_nil
  cases h with
  | through fulfilled =>
    have issued := Issued.after fulfilled nothing
    rw [List.append_nil, List.append_nil] at issued
    refine ⟨steps, List.prefix_rfl, issued, fun _ => ⟨rfl, fun m hm => ?_⟩⟩
    obtain ⟨_, -, fulfils⟩ := exists_of_forall₂ fulfilled hm
    exact fulfils.success
  | @unmade fulfilled rest step _ _ _ upto before =>
    have issued := Issued.after before nothing
    rw [List.append_nil, List.append_nil] at issued
    exact ⟨fulfilled, ⟨step :: rest, upto.symm⟩, issued, fun ok => nomatch ok⟩
  | @refused fulfilled rest step _ _ _ upto before issues during =>
    refine ⟨fulfilled ++ [step], ⟨rest, ?_⟩, .after before (nothing.cons issues during),
      fun ok => nomatch ok⟩
    rw [upto, List.append_assoc]
    rfl

end Advance

/-- The launches of some steps, one after the other. -/
theorem launchAll_advance {session : Session} {device : DeviceContext}
    (opened : session.openDevice = some device) (main overlay : Picture) (offset : OverlayOffset)
    (steps : List PlaneStep) (s : DeviceState) :
    let run := attempt (launchAll device session.function main overlay offset steps) s
    ∃ ms, s.Noted ms run.2 ∧ Advance session main overlay offset s.store steps run.1 ms := by
  induction steps generalizing s with
  | nil => exact ⟨[], .refl s, .through .nil⟩
  | cons step rest ih =>
    dsimp only
    unfold launchAll
    obtain ⟨e, unmade, failed⟩ | ⟨record, made, run⟩ :=
      launchStep_cases step device session.function main overlay offset s
    · rw [attempt_bind_error failed]
      exact ⟨[], .refl s, .unmade (List.nil_append _).symm .nil unmade⟩
    · obtain ⟨after, answer⟩ := attempt_call "cuLaunchKernel" (.launch record) s
      rw [← run] at after answer
      let m : Moment := ⟨.launch record, (s.ask (.launch record)).1.1, (s.ask (.launch record)).1.2,
        s.store⟩
      have noted : s.Noted [m] (s.ask (.launch record)).2 := noted_ask s (.launch record)
      have issues : m.Issues session main overlay offset step := ⟨device, record, opened, rfl, made⟩
      obtain ⟨success, fine⟩ | ⟨refused, fault, wrong⟩ := answer
      · rw [attempt_bind_ok (Prod.ext fine after)]
        obtain ⟨ms, later, advance⟩ := ih (s.ask (.launch record)).2
        rw [noted.store] at advance
        exact ⟨m :: ms, noted.trans later, advance.cons ⟨issues, rfl, success⟩⟩
      · rw [attempt_bind_error (Prod.ext wrong after)]
        exact ⟨[m], noted, .refused (List.nil_append _).symm .nil issues rfl refused⟩

/-- What can become of the launches of a plan: the session is closed, its context does not become current,
or it does for as long as the launches go on. -/
inductive Blending (plan : PlanePlan) (session : Session) (main overlay : Picture)
    (offset : OverlayOffset) (s : DeviceState) : Except OverlayError Nat × DeviceState → Prop where
  | shut {e : OverlayError} (closed : session.openDevice = none) :
      Blending plan session main overlay offset s (.error e, s)
  | refused {device : DeviceContext} {r : DriverResult} {h : Handle} {fault : DriverFault}
      {s' : DeviceState} (failed : r ≠ 0) (noted : s.Noted [⟨.push device.context, r, h, s.store⟩] s') :
      Blending plan session main overlay offset s (.error (.driver fault), s')
  | entered {device : DeviceContext} {h h' : Handle} {r : DriverResult} {ms : List Moment}
      {answer : Except OverlayError Unit} {s' : DeviceState} (opened : session.openDevice = some device)
      (advance : Advance session main overlay offset s.store plan.steps answer ms)
      (noted : s.Noted (⟨.push device.context, 0, h, s.store⟩ :: ms ++ [⟨.pop, r, h', s.store⟩]) s') :
      Blending plan session main overlay offset s (answer.map fun _ => plan.launches, s')

theorem blending (plan : PlanePlan) (session : Session) (main overlay : Picture)
    (offset : OverlayOffset) (s : DeviceState) :
    Blending plan session main overlay offset s
      (attempt (plan.blend session main overlay offset) s) := by
  let body (device : DeviceContext) : DeviceM Unit :=
    launchAll device session.function main overlay offset plan.steps
  have view := hosted session body s
  rw [blend_eq]
  generalize attempt (do let device ← session.device; withContext device (body device)) s = result
    at view ⊢
  cases view with
  | shut closed => exact .shut closed
  | refused _ failed noted => exact .refused failed noted
  | @entered device h s' opened pushed =>
    obtain ⟨ms, noted, advance⟩ := launchAll_advance opened main overlay offset plan.steps s'
    rw [pushed.store] at advance
    obtain ⟨r, h', left⟩ := noted_leave (attempt (body device) s').2
    have whole := pushed.trans noted
    rw [whole.store] at left
    exact .entered opened advance (whole.trans left)

/-- A blend issues the launches of its plan in order, all of them if it succeeds. -/
theorem blend_issues (plan : PlanePlan) (session : Session) (main overlay : Picture)
    (offset : OverlayOffset) (s : DeviceState) :
    let run := attempt (plan.blend session main overlay offset) s
    ∃ ms issued, s.Noted ms run.2 ∧ issued <+: plan.steps ∧
      Issued session main overlay offset s.store issued ms ∧
      ∀ n, run.1 = .ok n → n = plan.launches ∧ issued = plan.steps ∧
        ∀ m ∈ ms, m.isLaunch = true → m.result = 0 := by
  have view := plan.blending session main overlay offset s
  generalize attempt (plan.blend session main overlay offset) s = result at view ⊢
  cases view with
  | shut =>
    exact ⟨[], [], .refl s, List.nil_prefix, .none fun _ h => absurd h List.not_mem_nil,
      fun n ok => nomatch ok⟩
  | refused _ noted =>
    refine ⟨_, [], noted, List.nil_prefix, .none fun m hm => ?_, fun n ok => nomatch ok⟩
    rw [List.mem_singleton.1 hm]
    rfl
  | @entered device h h' r ms answer s' _ advance noted =>
    obtain ⟨issued, front, all, whole⟩ := advance.issued
    have push (m : Moment) (hm : m ∈ [⟨.push device.context, 0, h, s.store⟩]) : m.isLaunch = false := by
      rw [List.mem_singleton.1 hm]
      rfl
    have pop (m : Moment) (hm : m ∈ [⟨.pop, r, h', s.store⟩]) : m.isLaunch = false := by
      rw [List.mem_singleton.1 hm]
      rfl
    refine ⟨_, issued, noted, front, (all.prepend push).append pop, fun n ok => ?_⟩
    cases answer with
    | error e => exact nomatch ok
    | ok =>
      obtain ⟨same, zero⟩ := whole rfl
      refine ⟨(Except.ok.inj ok).symm, same, fun m hm launch => ?_⟩
      rcases List.mem_append.1 hm with first | last
      · rcases List.mem_cons.1 first with rfl | within
        · exact Bool.noConfusion launch
        · exact zero m within
      · exact Bool.noConfusion ((pop m last).symm.trans launch)

end PlanePlan

/-! ### Copy on write before a blend -/

/-- A spell of copies has no launch. -/
theorem Session.Spell.no_launch {session : Session} {store : BufferStore} {p : Moment → Prop}
    {answer : Except OverlayError Unit} {ms : List Moment} (h : Spell session store p answer ms)
    (work : ∀ m, p m → m.isLaunch = false) : ∀ m ∈ ms, m.isLaunch = false := by
  intro m hm
  cases h with
  | shut => exact absurd hm List.not_mem_nil
  | refused =>
    rw [List.mem_singleton.1 hm]
    rfl
  | entered _ inside =>
    rcases List.mem_append.1 hm with first | last
    · rcases List.mem_cons.1 first with rfl | within
      · rfl
      · exact work m (inside m within)
    · rw [List.mem_singleton.1 last]
      rfl

theorem Moment.CopiesInto.not_launch {targets : List DevicePlane} {m : Moment}
    (h : m.CopiesInto targets) : m.isLaunch = false := by
  obtain ⟨copy, -, call, -⟩ := h
  rw [isLaunch, call]

namespace Picture.Rewritten

variable {p main : Picture} {session : Session} {s s' : DeviceState}

/-- Copy on write makes no launch. -/
theorem no_launch {answer : Except OverlayError (Bool × Picture)}
    (h : p.Rewritten session s (answer, s')) :
    ∃ ms, s'.history = s.history ++ ms ∧ ∀ m ∈ ms, m.isLaunch = false := by
  cases h with
  | sole => exact ⟨[], (List.append_nil _).symm, fun _ h => absurd h List.not_mem_nil⟩
  | barren => exact ⟨[], (List.append_nil _).symm, fun _ h => absurd h List.not_mem_nil⟩
  | undone _ _ spell history => exact ⟨_, history, spell.no_launch fun _ h => h.1.not_launch⟩
  | copied _ _ spell history => exact ⟨_, history, spell.no_launch fun _ h => h.1.not_launch⟩

/-- After copy on write, whether it succeeds or not, every buffer still has its planes. -/
theorem old {answer : Except OverlayError (Bool × Picture)} (h : p.Rewritten session s (answer, s'))
    {b : BufferId} (inside : b < s.store.buffers.length) : s'.store.planes b = s.store.planes b := by
  cases h with
  | sole => rfl
  | barren => rfl
  | undone _ acquired _ _ released =>
    rw [released, BufferStore.planes_release]
    exact (BufferStore.acquire_planes acquired).2 b inside
  | copied _ acquired _ _ released =>
    rw [released, BufferStore.planes_release]
    exact (BufferStore.acquire_planes acquired).2 b inside

/-- The picture is in its own buffer afterwards, or in a fresh one of a pool. -/
theorem planes {copied : Bool} (h : p.Rewritten session s (.ok (copied, main), s')) :
    main = p ∧ s'.store = s.store ∨
      ∃ pool : FramePool, s'.store.planes main.buffer = pool.planesAt pool.nextBase := by
  cases h with
  | sole => exact .inl ⟨rfl, rfl⟩
  | copied _ acquired _ _ released =>
    obtain ⟨⟨pool, -, drawn⟩, -⟩ := BufferStore.acquire_planes acquired
    rw [released, BufferStore.planes_release]
    exact .inr ⟨pool, drawn⟩

end Picture.Rewritten

namespace PlanePlan

/-- What can become of a blend as far as its launches go. -/
inductive Launched (plan : PlanePlan) (session : Session) (main overlay : Picture)
    (offset : OverlayOffset) (s : DeviceState) :
    (Except OverlayError Nat × Picture) × DeviceState → Prop where
  /-- The main picture does not become writable, or the plan is not for these pictures. -/
  | stuck {e : OverlayError} {s' : DeviceState} {ms : List Moment}
      (history : s'.history = s.history ++ ms) (silent : ∀ m ∈ ms, m.isLaunch = false) :
      Launched plan session main overlay offset s ((.error e, main), s')
  | issued {copied : Bool} {main' : Picture} {s₁ s' : DeviceState} {answer : Except OverlayError Nat}
      {ms : List Moment} {issued : List PlaneStep} (fits : plan.fits main overlay = true)
      (rewritten : main.Rewritten session s (.ok (copied, main'), s₁))
      (history : s'.history = s.history ++ ms) (front : issued <+: plan.steps)
      (launches : Issued session main' overlay offset s₁.store issued ms)
      (whole : ∀ n, answer = .ok n → n = plan.launches ∧ issued = plan.steps ∧
        ∀ m ∈ ms, m.isLaunch = true → m.result = 0) :
      Launched plan session main overlay offset s ((answer, main'), s')

/-- **A blend issues one launch for each step**, in the plan's order and up to the first that fails. -/
theorem composite_issues (plan : PlanePlan) (session : Session) (main overlay : Picture)
    (offset : OverlayOffset) (s : DeviceState) :
    Launched plan session main overlay offset s (plan.composite session main overlay offset s) := by
  have rewritten := main.rewritten session s
  have view := plan.composing session main overlay offset s
  generalize plan.composite session main overlay offset s = result at view ⊢
  cases view with
  | unplanned => exact .stuck (List.append_nil _).symm fun _ h => absurd h List.not_mem_nil
  | unwritable _ shared =>
    rw [shared] at rewritten
    obtain ⟨ms, history, silent⟩ := rewritten.no_launch
    exact .stuck history silent
  | @writable _ main' s₁ _ _ fits written blended =>
    rw [written] at rewritten
    obtain ⟨ms, before, silent⟩ := rewritten.no_launch
    obtain ⟨ms', issued, noted, front, launches, whole⟩ :=
      plan.blend_issues session main' overlay offset s₁
    rw [blended] at noted whole
    have history := noted.history
    rw [before, List.append_assoc] at history
    refine .issued fits rewritten history front (launches.prepend silent) fun n ok => ?_
    obtain ⟨number, all, zero⟩ := whole n ok
    refine ⟨number, all, fun m hm launch => ?_⟩
    rcases List.mem_append.1 hm with copy | within
    · exact Bool.noConfusion ((silent m copy).symm.trans launch)
    · exact zero m within launch

end PlanePlan

end FrameOverlay
