import FrameOverlay.Proofs.Device.Modules
import FrameOverlay.Proofs.Device.Scopes
import Mathlib.Data.List.Nodup

/-!
# Sessions that are over

A session that has been closed stays closed: no order about it reaches the driver any more, and what needs
the device fails.

* `Studio.IsOver`, `Step.Ends`, `Step.Silent` — a session that is over, the step that ends it, and a step
  that lets it rest;
* `Studio.IsConfigured`, `Step.Loads` — a filter that has been configured, and the step that loads its
  module;
* `Step.Refused` — a step that fails as on a closed session;
* `ModuleLaw`, `Studio.modules_lawful` — **every run unloads its modules once**, and lets closed sessions
  rest.
-/

namespace FrameOverlay

open DeviceState Session OverlayFilter Moment

/-! ### Filters -/

namespace Pipeline

/-- A filter whose output is configured stays so. -/
theorem Acted.outputInfo {p p' : Pipeline} {order : FilterOrder} {answer : Except OverlayError Unit}
    (h : Acted p order (answer, p')) (some : p.filter.outputInfo.isSome = true) :
    p'.filter.outputInfo.isSome = true := by
  cases h with
  | quiet _ _ _ info =>
    rw [info]
    exact some
  | unopened _ first =>
    rw [first] at some
    exact nomatch some
  | configured _ first =>
    rw [first] at some
    exact nomatch some
  | advanced => exact some
  | received _ received =>
    rw [received.aside.2.2]
    exact some
  | tornDown => exact some
  | discarded => exact some

/-- A filter whose kernel has been unloaded after its output was configured makes no driver call any
more. -/
theorem Acted.ended {p p' : Pipeline} {order : FilterOrder} {answer : Except OverlayError Unit}
    (h : Acted p order (answer, p')) (some : p.filter.outputInfo.isSome = true)
    (gone : p.filter.stage = none) :
    p'.device.history = p.device.history ∧ p'.filter.stage = none := by
  cases h with
  | quiet _ device stage => exact ⟨congrArg DeviceState.history device, stage.trans gone⟩
  | unopened _ first =>
    rw [first] at some
    exact nomatch some
  | configured _ first =>
    rw [first] at some
    exact nomatch some
  | advanced => exact ⟨rfl, gone⟩
  | received _ received =>
    cases received with
    | forwarded => exact ⟨history_sharing p.advanced.device _, gone⟩
    | blended _ loaded => exact nomatch gone.symm.trans loaded
    | spoiled _ loaded => exact nomatch gone.symm.trans loaded
  | tornDown loaded => exact nomatch gone.symm.trans loaded
  | discarded closing =>
    rw [session_of_none gone] at closing
    cases closing with
    | idle => exact ⟨rfl, rfl⟩
    | refused opened => exact nomatch opened
    | unloaded opened => exact nomatch opened

end Pipeline

/-! ### What is over -/

namespace Studio

/-- The session of an owner has been closed for good. -/
def IsOver (w : Studio) : Owner → Prop
  | .caller k => ∃ session, w.sessions[k]? = some session ∧ session.openDevice = none
  | .filter n => ∃ line, w.lines[n]? = some line ∧ (line.dropped = true ∨
      line.filter.stage = none ∧ line.filter.outputInfo.isSome = true)

/-- The output of a filter has been configured. -/
def IsConfigured (w : Studio) (n : Nat) : Prop :=
  ∃ line, w.lines[n]? = some line ∧ line.filter.outputInfo.isSome = true

end Studio

namespace Step

/-- The step closes the open session of an owner. -/
def Ends (s : Step) (o : Owner) : Prop :=
  s.order.closes = true ∧ s.order.owner? = some o ∧
    ∃ session, s.before.session? o = some session ∧ session.isOpen = true

/-- If the step works with the session of an owner, it makes no driver call. -/
def Silent (s : Step) (o : Owner) : Prop := s.order.owner? = some o → s.moments = []

/-- The step configures a filter, and leaves a module loaded. -/
def Loads (s : Step) (n : Nat) : Prop :=
  (∃ main overlay image, s.order = .filter n (.configure main overlay image)) ∧
    (unloads s.moments).length < (loads s.moments).length

end Step

/-- Without an open session there is no spell. -/
theorem Session.Spell.of_closed {session : Session} {store : BufferStore} {p : Moment → Prop}
    {answer : Except OverlayError Unit} {ms : List Moment} (shut : session.openDevice = none)
    (h : Spell session store p answer ms) :
    answer = .error (.invariantViolation .sessionClosed) ∧ ms = [] := by
  cases h with
  | shut => exact ⟨rfl, rfl⟩
  | refused opened => exact nomatch shut.symm.trans opened
  | entered opened => exact nomatch shut.symm.trans opened

/-- Without an open session copy on write makes no driver call. -/
theorem Picture.Rewritten.silent {p : Picture} {session : Session} {s s' : DeviceState}
    {answer : Except OverlayError (Bool × Picture)} (shut : session.openDevice = none)
    (h : p.Rewritten session s (answer, s')) : s'.history = s.history := by
  cases h with
  | sole => rfl
  | barren => rfl
  | undone _ _ spell history => rw [history, (spell.of_closed shut).2, List.append_nil]
  | copied _ _ spell history => rw [history, (spell.of_closed shut).2, List.append_nil]

/-- Without an open session a blend makes no driver call. -/
theorem PlanePlan.Composited.silent {plan : PlanePlan} {session : Session} {main main' : Picture}
    {s s' : DeviceState} {answer : Except OverlayError Nat} (shut : session.openDevice = none)
    (h : plan.Composited session main s ((answer, main'), s')) : s'.history = s.history := by
  cases h with
  | unplanned => rfl
  | unwritable rewritten => exact rewritten.silent shut
  | blended rewritten spell noted =>
    rw [noted.history, (spell.of_closed shut).2, List.append_nil, rewritten.silent shut]

namespace Studio

/-- A session that has been closed stays so, and orders about it make no driver call. -/
theorem caller_over {w : Studio} (order : Order) (k : Nat) (ended : w.IsOver (.caller k)) :
    (order.owner? = some (.caller k) → (w.perform order).2.device.history = w.device.history) ∧
      (w.perform order).2.IsOver (.caller k) := by
  obtain ⟨session, here, shut⟩ := ended
  have same {l : Nat} {s : Session} (found : w.sessions[l]? = some s)
      (owner : some (Owner.caller l) = some (.caller k)) : s.openDevice = none := by
    injection owner with owner
    injection owner with owner
    subst owner
    obtain rfl := Option.some.inj (here.symm.trans found)
    exact shut
  have view := w.performed order
  generalize w.perform order = run at view ⊢
  cases view with
  | framed order =>
    obtain ⟨history, sessions, -⟩ := w.performFrame_aside order
    exact ⟨nofun, session, by rw [sessions]; exact here, shut⟩
  | absent => exact ⟨fun _ => rfl, session, here, shut⟩
  | unopened => exact ⟨nofun, session, here, shut⟩
  | opened =>
    have inside := (List.getElem?_eq_some_iff.1 here).1
    exact ⟨nofun, session, (List.getElem?_append_left inside).trans here, shut⟩
  | entered found entering =>
    refine ⟨fun owner => ?_, session, here, shut⟩
    cases entering with
    | shut => rfl
    | pushed opened => exact nomatch (same found owner).symm.trans opened
  | left => exact ⟨nofun, session, here, shut⟩
  | @closed l s _ _ _ _ found _ closing =>
    refine ⟨fun owner => ?_, ?_⟩
    · cases closing with
      | idle => rfl
      | refused opened => exact nomatch (same found owner).symm.trans opened
      | unloaded opened => exact nomatch (same found owner).symm.trans opened
    · by_cases this : l = k
      · subst this
        exact ⟨.closed, List.getElem?_set_self (List.getElem?_eq_some_iff.1 here).1, rfl⟩
      · exact ⟨session, (List.getElem?_set_ne this).trans here, shut⟩
  | rewritten found _ rewritten =>
    exact ⟨fun owner => rewritten.silent (same found owner), session, here, shut⟩
  | unwritable found _ rewritten =>
    exact ⟨fun owner => rewritten.silent (same found owner), session, here, shut⟩
  | blended found _ _ composited =>
    exact ⟨fun owner => composited.silent (same found owner), session, here, shut⟩
  | uncreated => exact ⟨nofun, session, here, shut⟩
  | created => exact ⟨nofun, session, here, shut⟩
  | filtered => exact ⟨nofun, session, here, shut⟩

/-- A property of line `n` that the orders of its filter keep, every order keeps. -/
theorem line_kept {w : Studio} {P : Line → Prop} (order : Order) {n : Nat}
    (here : ∃ line, w.lines[n]? = some line ∧ P line)
    (keeps : ∀ line o answer p, P line → w.lines[n]? = some line → line.dropped = false →
      Pipeline.Acted (w.pipeline line) o (answer, p) → P ⟨p.filter, p.main, p.overlay, o.isLast⟩) :
    ∃ line, (w.perform order).2.lines[n]? = some line ∧ P line := by
  obtain ⟨line, found, holds⟩ := here
  have view := w.performed order
  generalize w.perform order = run at view ⊢
  cases view with
  | framed order =>
    rw [(w.performFrame_aside order).2.2]
    exact ⟨line, found, holds⟩
  | created =>
    have inside := (List.getElem?_eq_some_iff.1 found).1
    exact ⟨line, (List.getElem?_append_left inside).trans found, holds⟩
  | @filtered l line' o answer p found' live acted =>
    by_cases this : l = n
    · subst this
      obtain rfl := Option.some.inj (found.symm.trans found')
      exact ⟨_, List.getElem?_set_self (List.getElem?_eq_some_iff.1 found).1,
        keeps line o answer p holds found live acted⟩
    · exact ⟨line, (List.getElem?_set_ne this).trans found, holds⟩
  | absent => exact ⟨line, found, holds⟩
  | unopened => exact ⟨line, found, holds⟩
  | opened => exact ⟨line, found, holds⟩
  | entered => exact ⟨line, found, holds⟩
  | left => exact ⟨line, found, holds⟩
  | closed => exact ⟨line, found, holds⟩
  | rewritten => exact ⟨line, found, holds⟩
  | unwritable => exact ⟨line, found, holds⟩
  | blended => exact ⟨line, found, holds⟩
  | uncreated => exact ⟨line, found, holds⟩

/-- A filter that is over stays so, and orders about it make no driver call. -/
theorem filter_over {w : Studio} (order : Order) (n : Nat) (ended : w.IsOver (.filter n)) :
    (order.owner? = some (.filter n) → (w.perform order).2.device.history = w.device.history) ∧
      (w.perform order).2.IsOver (.filter n) := by
  have acted {line : Line} {o : FilterOrder} {answer : Except OverlayError Unit} {p : Pipeline}
      (gone : line.dropped = true ∨ line.filter.stage = none ∧ line.filter.outputInfo.isSome = true)
      (live : line.dropped = false) (acted : Pipeline.Acted (w.pipeline line) o (answer, p)) :
      p.device.history = w.device.history ∧ p.filter.stage = none ∧
        p.filter.outputInfo.isSome = true := by
    rcases gone with dropped | ⟨gone, some⟩
    · exact nomatch live.symm.trans dropped
    · obtain ⟨history, stage⟩ := acted.ended some gone
      exact ⟨history, stage, acted.outputInfo some⟩
  refine ⟨fun owner => ?_, line_kept order ended fun line o answer p gone _ live view => ?_⟩
  · obtain ⟨line, found, gone⟩ := ended
    cases order with
    | filter l order =>
      injection owner with owner
      injection owner with owner
      subst owner
      have view := w.performed (.filter l order)
      generalize w.perform (.filter l order) = run at view ⊢
      cases view with
      | absent => rfl
      | filtered found' live view =>
        obtain rfl := Option.some.inj (found.symm.trans found')
        exact (acted gone live view).1
    | session => exact nomatch owner
    | frame => exact nomatch owner
    | openSession => exact nomatch owner
    | leave => exact nomatch owner
    | newFilter => exact nomatch owner
  · exact .inr (acted gone live view).2

theorem isOver_perform {w : Studio} (order : Order) (o : Owner) (ended : w.IsOver o) :
    (w.step order).Silent o ∧ (w.perform order).2.IsOver o := by
  have both : (order.owner? = some o → (w.perform order).2.device.history = w.device.history) ∧
      (w.perform order).2.IsOver o := by
    cases o with
    | caller k => exact caller_over order k ended
    | filter n => exact filter_over order n ended
  refine ⟨fun owner => moments_of_history ?_, both.2⟩
  rw [both.1 owner, List.append_nil]

/-- Closing an open session is for good. -/
theorem isOver_of_ends {w : Studio} (sound : w.Sound) (order : Order) (o : Owner)
    (ends : (w.step order).Ends o) : (w.perform order).2.IsOver o := by
  obtain ⟨closes, owner, session, there, isOpen⟩ := ends
  change order.closes = true at closes
  change order.owner? = some o at owner
  change w.session? o = some session at there
  have view := w.performed order
  generalize w.perform order = run at view ⊢
  cases view with
  | absent nothing => exact absurd (there.symm.trans (nothing o owner closes)) (Option.some_ne_none _)
  | closed found =>
    obtain rfl := Option.some.inj owner
    exact ⟨.closed, List.getElem?_set_self (List.getElem?_eq_some_iff.1 found).1, rfl⟩
  | @filtered n line order answer p found live acted =>
    obtain rfl := Option.some.inj owner
    have same : line.filter.session = session := by simpa [session?, found, live] using there
    have loaded : line.filter.stage ≠ none := by
      intro gone
      rw [← same, session_of_none gone] at isOpen
      exact absurd isOpen Bool.false_ne_true
    refine ⟨_, List.getElem?_set_self (List.getElem?_eq_some_iff.1 found).1, ?_⟩
    cases acted with
    | quiet unloaded => exact absurd (unloaded closes) loaded
    | tornDown =>
      have set := (sound.filters line (List.mem_of_getElem? found)).configured
        (Option.isSome_iff_ne_none.2 loaded)
      exact .inr ⟨rfl, set⟩
    | discarded => exact .inl rfl
    | unopened => exact absurd closes Bool.false_ne_true
    | configured => exact absurd closes Bool.false_ne_true
    | advanced => exact absurd closes Bool.false_ne_true
    | received => exact absurd closes Bool.false_ne_true
  | framed => exact absurd closes Bool.false_ne_true
  | unopened => exact absurd closes Bool.false_ne_true
  | opened => exact absurd closes Bool.false_ne_true
  | entered => exact absurd closes Bool.false_ne_true
  | left => exact absurd closes Bool.false_ne_true
  | rewritten => exact absurd closes Bool.false_ne_true
  | unwritable => exact absurd closes Bool.false_ne_true
  | blended => exact absurd closes Bool.false_ne_true
  | uncreated => exact absurd closes Bool.false_ne_true
  | created => exact absurd closes Bool.false_ne_true

/-- A filter whose output has been configured is not configured again. -/
theorem isConfigured_perform {w : Studio} (order : Order) (n : Nat) (set : w.IsConfigured n) :
    ¬ (w.step order).Loads n ∧ (w.perform order).2.IsConfigured n := by
  refine ⟨?_, line_kept order set fun line o answer p set _ _ acted => acted.outputInfo set⟩
  rintro ⟨⟨main, overlay, image, same⟩, more⟩
  obtain rfl : order = .filter n (.configure main overlay image) := same
  have nothing : (w.step (.filter n (.configure main overlay image))).moments = [] := by
    obtain ⟨line, found, set⟩ := set
    apply moments_of_history
    have view := w.performed (.filter n (.configure main overlay image))
    generalize w.perform (.filter n (.configure main overlay image)) = run at view ⊢
    cases view with
    | absent => exact (List.append_nil _).symm
    | filtered found' _ acted =>
      obtain rfl := Option.some.inj (found.symm.trans found')
      cases acted with
      | quiet _ device => exact (congrArg DeviceState.history device).trans (List.append_nil _).symm
      | unopened _ first => exact nomatch (congrArg Option.isSome first).symm.trans set
      | configured _ first => exact nomatch (congrArg Option.isSome first).symm.trans set
  rw [nothing] at more
  exact absurd more (Nat.lt_irrefl 0)

theorem isConfigured_of_loads {w : Studio} (sound : w.Sound) (order : Order) (n : Nat)
    (h : (w.step order).Loads n) : (w.perform order).2.IsConfigured n := by
  obtain ⟨⟨main, overlay, image, same⟩, more⟩ := h
  obtain rfl : order = .filter n (.configure main overlay image) := same
  have history {ms : List Moment} (h : (w.perform (.filter n (.configure main overlay image))).2.device.history =
      w.device.history ++ ms) : (unloads ms).length < (loads ms).length := by
    rwa [moments_of_history h] at more
  have view := w.performed (.filter n (.configure main overlay image))
  generalize w.perform (.filter n (.configure main overlay image)) = run at view history ⊢
  cases view with
  | absent => exact absurd (history (List.append_nil _).symm) (Nat.lt_irrefl 0)
  | @filtered _ line _ _ p found _ acted =>
    obtain ⟨ms, added, -, -, set⟩ := acted.turn (sound.filters line (List.mem_of_getElem? found))
    exact ⟨_, List.getElem?_set_self (List.getElem?_eq_some_iff.1 found).1, (set (history added)).2⟩

end Studio

/-! ### Closed sessions -/

/-- How a session order fails on a closed session: as the session does, or as a pool or the formats do
before the session is asked. -/
def SessionOrder.FailsWith (order : SessionOrder) (e : OverlayError) : Prop :=
  e = .invariantViolation .sessionClosed ∨ match order with
    | makeWritable _ => ∃ fault, e = .pool fault
    | composite .. => (∃ fault, e = .pool fault) ∨ ∃ fault, e = .invalidPairing fault
    | _ => False

namespace Step

/-- If the step needs the device of the caller's session `k`, it fails as on a closed session. -/
def Refused (s : Step) (k : Nat) : Prop :=
  ∀ order, s.order = .session k order → order.Demands s.before →
    ∃ e, s.result = .error e ∧ order.FailsWith e

end Step

/-- Without an open session copy on write of a shared picture fails as the session or the pool does. -/
theorem Picture.Rewritten.refused {p : Picture} {session : Session} {s s' : DeviceState}
    {answer : Except OverlayError (Bool × Picture)} (shut : session.openDevice = none)
    (shared : s.store.isExclusive p.buffer = false) (h : p.Rewritten session s (answer, s')) :
    ∃ e, answer = .error e ∧ (e = .invariantViolation .sessionClosed ∨ ∃ fault, e = .pool fault) := by
  cases h with
  | sole exclusive => exact nomatch shared.symm.trans exclusive
  | barren => exact ⟨_, rfl, .inr ⟨_, rfl⟩⟩
  | undone _ _ spell => exact ⟨_, rfl, .inl (Except.error.inj (spell.of_closed shut).1)⟩
  | copied _ _ spell => exact nomatch (spell.of_closed shut).1

/-- Without an open session a blend fails as the session, the pool or the formats do. -/
theorem PlanePlan.Composited.refused {plan : PlanePlan} {session : Session} {main main' : Picture}
    {s s' : DeviceState} {answer : Except OverlayError Nat} (shut : session.openDevice = none)
    (h : plan.Composited session main s ((answer, main'), s')) :
    ∃ e, answer = .error e ∧ (e = .invariantViolation .sessionClosed ∨
      (∃ fault, e = .pool fault) ∨ ∃ fault, e = .invalidPairing fault) := by
  cases h with
  | unplanned => exact ⟨_, rfl, .inr (.inr ⟨_, rfl⟩)⟩
  | unwritable rewritten =>
    cases shared : s.store.isExclusive main.buffer with
    | false =>
      obtain ⟨e, same, fault⟩ := rewritten.refused shut shared
      obtain rfl := Except.error.inj same
      exact ⟨_, rfl, fault.imp id .inl⟩
    | true =>
      cases rewritten with
      | barren shared' => exact nomatch shared.symm.trans shared'
      | undone shared' => exact nomatch shared.symm.trans shared'
  | blended _ spell =>
    obtain ⟨rfl, -⟩ := spell.of_closed shut
    exact ⟨_, rfl, .inl rfl⟩

namespace Studio

theorem refused_of_over {w : Studio} (order : Order) (k : Nat) (ended : w.IsOver (.caller k)) :
    (w.step order).Refused k := by
  intro order' same demands
  obtain rfl : order = .session k order' := same
  have demands : order'.Demands w := demands
  obtain ⟨session, here, shut⟩ := ended
  show ∃ e, (w.perform (.session k order')).1 = .error e ∧ order'.FailsWith e
  have view := w.performed (.session k order')
  generalize w.perform (.session k order') = run at view ⊢
  cases view with
  | absent _ idle => exact absurd demands (idle k order' rfl session here)
  | entered found entering =>
    obtain rfl := Option.some.inj (here.symm.trans found)
    cases entering with
    | shut => exact ⟨_, rfl, .inl rfl⟩
    | pushed opened => exact nomatch shut.symm.trans opened
  | closed _ closes => cases order' <;> first | exact demands.elim | exact nomatch closes
  | rewritten found held rewritten =>
    obtain rfl := Option.some.inj (here.symm.trans found)
    obtain ⟨f, held', shared⟩ := demands
    obtain rfl := Option.some.inj (held.symm.trans held')
    obtain ⟨e, same, -⟩ := rewritten.refused shut shared
    exact nomatch same
  | unwritable found held rewritten =>
    obtain rfl := Option.some.inj (here.symm.trans found)
    obtain ⟨f, held', shared⟩ := demands
    obtain rfl := Option.some.inj (held.symm.trans held')
    obtain ⟨e, same, fault⟩ := rewritten.refused shut shared
    obtain rfl := Except.error.inj same
    exact ⟨_, rfl, fault⟩
  | blended found _ _ composited =>
    obtain rfl := Option.some.inj (here.symm.trans found)
    obtain ⟨e, rfl, fault⟩ := composited.refused shut
    exact ⟨e, rfl, fault⟩

end Studio

/-! ### The law -/

/-- What a run does to modules, with its `steps` and the studio `w` at its end. -/
structure ModuleLaw (steps : List Step) (w : Studio) : Prop where
  /-- Every load is made up for by an unload, an open session, or a close that was not let in. -/
  balance : ∀ h, (loads w.device.history).count h =
    (unloads w.device.history).count h + w.modules.count h + (steps.flatMap Step.leftBehind).count h
  /-- No module is unloaded more often than it was loaded. -/
  once : ∀ h, (unloads w.device.history).count h ≤ (loads w.device.history).count h
  /-- Modules with handles of their own are unloaded at most once. -/
  distinct : (loads w.device.history).Nodup → (unloads w.device.history).Nodup
  /-- A module without the kernel is unloaded by the order that loaded it. -/
  unresolved : ∀ s ∈ steps, s.moments.any isUnresolved = true →
    ∃ module, loads s.moments = [module] ∧ unloads s.moments = [module]
  /-- A close that is let into the context of an open session unloads its module, and no other. -/
  closed : ∀ s ∈ steps, s.closing.isOpen = true → s.entered = true →
    unloads s.moments = [s.closing.module]
  /-- At most one configuration of a filter leaves a module loaded. -/
  configured : steps.Pairwise fun s t => ∀ n, s.Loads n → ¬ t.Loads n
  /-- After the close of an open session, orders about it make no driver call. -/
  silent : steps.Pairwise fun s t => ∀ o, s.Ends o → t.Silent o
  /-- After the close of a caller's session, what needs the device fails as on a closed session. -/
  refused : steps.Pairwise fun s t => ∀ k, s.Ends (.caller k) → t.Refused k

namespace Studio

/-- The studio that an order leaves is sound, provided that a module that is loaded has a handle. -/
theorem sound_keep (w : Studio) (order : Order) (sound : w.Sound)
    (proper : 0 ∉ loads (w.step order).moments) :
    (w.step order).Orderly ∧ (w.perform order).2.Sound :=
  ⟨orderly sound order, sound_perform sound order proper⟩

/-- **Modules are unloaded once.**  Take a driver and pools with any faults, and any orders.  If no module
that is loaded has a null handle, the run obeys the law of modules. -/
theorem modules_lawful (faults : FaultPlan) (orders : List Order)
    (proper : 0 ∉ loads ((empty faults).finish orders).device.history) :
    ModuleLaw ((empty faults).steps orders) ((empty faults).finish orders) := by
  let w := empty faults
  have sound : w.Sound := sound_empty faults
  have history : (w.finish orders).device.history = (w.steps orders).flatMap Step.moments :=
    w.history_finish orders
  have fair : ∀ s ∈ w.steps orders, 0 ∉ loads s.moments := by
    intro s hs null
    apply proper
    rw [history]
    obtain ⟨m, hm, loaded⟩ := List.mem_filterMap.1 null
    exact List.mem_filterMap.2 ⟨m, List.mem_flatMap.2 ⟨s, hs, hm⟩, loaded⟩
  have balance (h : Handle) : (loads (w.finish orders).device.history).count h =
      (unloads (w.finish orders).device.history).count h + (w.finish orders).modules.count h +
        ((w.steps orders).flatMap Step.leftBehind).count h := by
    have total := modules_balance sound orders fair h
    have start : w.modules = [] := rfl
    rwa [← history, start, List.count_nil, Nat.zero_add] at total
  have once (h : Handle) : (unloads (w.finish orders).device.history).count h ≤
      (loads (w.finish orders).device.history).count h := by
    have total := balance h
    omega
  have steps : ∀ s ∈ w.steps orders, s.Orderly := (steps_keep sound_keep w sound orders fair).1
  have keep (w : Studio) (order : Order) (sound : w.Sound)
      (proper : 0 ∉ loads (w.step order).moments) : (w.perform order).2.Sound :=
    sound_perform sound order proper
  exact {
    balance
    once
    distinct := fun single => List.nodup_iff_count_le_one.2 fun h =>
      Nat.le_trans (once h) (List.nodup_iff_count_le_one.1 single h)
    unresolved := fun s hs => (steps s hs).unresolved
    closed := fun s hs => (steps s hs).closed
    configured := @steps_pairwise Nat Sound (0 ∉ loads ·.moments) IsConfigured (·.Loads ·)
      (¬ ·.Loads ·) keep (fun _ order sound _ n => isConfigured_of_loads sound order n)
      (fun _ order n _ => isConfigured_perform order n) w sound orders fair
    silent := @steps_pairwise Owner Sound (0 ∉ loads ·.moments) IsOver (·.Ends ·) (·.Silent ·) keep
      (fun _ order sound _ o => isOver_of_ends sound order o)
      (fun _ order o _ => isOver_perform order o) w sound orders fair
    refused := @steps_pairwise Nat Sound (0 ∉ loads ·.moments) (fun w k => w.IsOver (.caller k))
      (fun s k => s.Ends (.caller k)) (·.Refused ·) keep
      (fun _ order sound _ k => isOver_of_ends sound order (.caller k))
      (fun _ order k _ ended => ⟨refused_of_over order k ended, (isOver_perform order _ ended).2⟩)
      w sound orders fair }

/-- One session is closed twice and then entered, the close of a second is not let in, and a third finds a
module without the kernel. -/
theorem modules_lawful_refused :
    let image : KernelImage := ⟨[7, 0]⟩
    let w := Studio.empty { push := Fault.only 3 201, getFunction := Fault.only 2 500,
                            modules := fun n => .ofNat (n + 7) }
    let orders : List Order := [.openSession ⟨1, 2⟩ image, .session 0 .close, .session 0 .close,
      .session 0 .enter, .openSession ⟨1, 2⟩ image, .session 1 .drop, .openSession ⟨1, 2⟩ image]
    (w.steps orders).map (fun s => (loads s.moments, unloads s.moments, s.leftBehind)) =
        [([7], [], []), ([], [7], []), ([], [], []), ([], [], []), ([8], [], []), ([], [], [8]),
          ([9], [9], [])] ∧
      ModuleLaw (w.steps orders) (w.finish orders) := by
  intro image w orders
  exact ⟨by decide +kernel, modules_lawful _ orders (by decide +kernel)⟩

end Studio

end FrameOverlay
