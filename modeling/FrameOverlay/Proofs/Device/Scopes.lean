import FrameOverlay.Proofs.Device.Orders

/-!
# Scopes of a context

A context is made current for a while and then left again, whatever happens in between.

* `Scoped` — calls made in scopes of a context, one after the other and never one inside the other;
* `Order.context?` — the context of the device an order works on;
* `Opened.within`, `Closing.within`, `Composited.within` — the calls of each operation;
* `Acted.within`, `Studio.perform_scoped` — **the calls of every order come in scopes**, however it ends;
* `Studio.steps_scoped` — **the calls of a run do**.
-/

namespace FrameOverlay

/-- A call that needs a current context. -/
def DriverCall.IsWork : DriverCall → Prop
  | push _ | pop => False
  | _ => True

/-- Calls in scopes of a context: a push that fails is the last of them; after a push that succeeds comes
work, then one pop, and then the next scope.  Without a context there are none. -/
inductive Scoped : Option Handle → List Moment → Prop where
  | nil {context : Option Handle} : Scoped context []
  | refused {context : Handle} {r : DriverResult} {h : Handle} {store : BufferStore} (failed : r ≠ 0) :
      Scoped (some context) [⟨.push context, r, h, store⟩]
  | scope {context : Handle} {inside rest : List Moment} {r : DriverResult} {h h' : Handle}
      {store store' : BufferStore} (work : ∀ m ∈ inside, m.call.IsWork)
      (more : Scoped (some context) rest) :
      Scoped (some context)
        (⟨.push context, 0, h, store⟩ :: inside ++ ⟨.pop, r, h', store'⟩ :: rest)

/-- A scope by itself. -/
theorem Scoped.one {context : Handle} {r : DriverResult} {h h' : Handle} {store store' : BufferStore}
    (inside : List Moment) (work : ∀ m ∈ inside, m.call.IsWork) : Scoped (some context)
      (⟨.push context, 0, h, store⟩ :: inside ++ [⟨.pop, r, h', store'⟩]) :=
  .scope work .nil

/-- The context of an open session. -/
def Session.context? (session : Session) : Option Handle :=
  session.openDevice.map DeviceContext.context

/-- The context of the device that an order of a filter works on. -/
def FilterOrder.context? (f : OverlayFilter) : FilterOrder → Option Handle
  | configure main _ _ => main.context.map fun c => c.device.context
  | _ => f.session.context?

/-- The context of the device that an order works on. -/
def Order.context? (w : Studio) : Order → Option Handle
  | openSession device _ => some device.context
  | session k _ => w.sessions[k]?.bind Session.context?
  | filter n order => w.lines[n]?.bind fun line => order.context? line.filter
  | frame _ | leave | newFilter _ => none

/-- The order enters or leaves a scope that outlasts it. -/
def Order.holdsScope : Order → Bool
  | .session _ .enter | .leave => true
  | _ => false

/-- The calls from one state of the device to another come in scopes. -/
def DeviceState.ScopedTo (context : Option Handle) (s s' : DeviceState) : Prop :=
  ∃ ms, s'.history = s.history ++ ms ∧ Scoped context ms

open DeviceState

/-- No call was made. -/
theorem DeviceState.ScopedTo.of_same {context : Option Handle} {s s' : DeviceState}
    (same : s'.history = s.history) : ScopedTo context s s' :=
  ⟨[], by rw [same, List.append_nil], .nil⟩

/-! ### Operations -/

namespace Session

theorem Opened.within {device : DeviceContext} {s s' : DeviceState}
    {answer : Except OverlayError Session} (h : Opened device s (answer, s')) :
    ScopedTo (some device.context) s s' := by
  cases h with
  | untried => exact .of_same rfl
  | refused failed noted => exact ⟨_, noted.history, .refused failed⟩
  | rejected _ noted =>
    exact ⟨_, noted.history, .one [_] (List.forall_mem_singleton.2 trivial)⟩
  | unresolved _ noted =>
    refine ⟨_, noted.history, .one [_, _, _] ?_⟩
    exact List.forall_mem_cons.2
      ⟨trivial, List.forall_mem_cons.2 ⟨trivial, List.forall_mem_singleton.2 trivial⟩⟩
  | opened noted =>
    refine ⟨_, noted.history, .one [_, _] ?_⟩
    exact List.forall_mem_cons.2 ⟨trivial, List.forall_mem_singleton.2 trivial⟩

theorem Closing.within {session : Session} {s s' : DeviceState} {answer : Except OverlayError Unit}
    (h : Closing session s (answer, s')) : ScopedTo session.context? s s' := by
  cases h with
  | idle => exact .of_same rfl
  | refused opened failed noted =>
    rw [context?, opened]
    exact ⟨_, noted.history, .refused failed⟩
  | unloaded opened noted =>
    rw [context?, opened]
    exact ⟨_, noted.history, .one [_] (List.forall_mem_singleton.2 trivial)⟩

/-- Work in a session's context comes in one scope. -/
theorem Spell.within {session : Session} {store : BufferStore} {p : Moment → Prop}
    {answer : Except OverlayError Unit} {ms : List Moment} (work : ∀ m, p m → m.call.IsWork)
    (h : Spell session store p answer ms) : Scoped session.context? ms := by
  cases h with
  | shut => exact .nil
  | refused opened failed =>
    rw [context?, opened]
    exact .refused failed
  | entered opened inner =>
    rw [context?, opened]
    exact .scope (fun m hm => work m (inner m hm)) .nil

/-- A spell that ends well is over: another scope may follow. -/
theorem Spell.within_append {session : Session} {store : BufferStore} {p : Moment → Prop}
    {ms rest : List Moment} (work : ∀ m, p m → m.call.IsWork)
    (h : Spell session store p (.ok ()) ms) (more : Scoped session.context? rest) :
    Scoped session.context? (ms ++ rest) := by
  cases h with
  | @entered _ inside _ _ _ _ opened inner =>
    rw [context?, opened] at more ⊢
    rw [List.append_assoc]
    exact .scope (fun m hm => work m (inner m hm)) more

end Session

open Session OverlayFilter

theorem Moment.CopiesInto.isWork {targets : List DevicePlane} {m : Moment}
    (h : m.CopiesInto targets) : m.call.IsWork := by
  obtain ⟨copy, target, call, -⟩ := h
  rw [call]
  trivial

theorem Moment.Paints.isWork {b : BufferId} {m : Moment} (h : m.Paints b) : m.call.IsWork := by
  obtain ⟨record, launch, plane, call, -⟩ := h
  rw [call]
  trivial

namespace Picture

theorem Rewritten.within {p : Picture} {session : Session} {s s' : DeviceState}
    {answer : Except OverlayError (Bool × Picture)} (h : p.Rewritten session s (answer, s')) :
    ScopedTo session.context? s s' := by
  cases h with
  | sole => exact .of_same rfl
  | barren => exact .of_same rfl
  | undone _ _ spell history => exact ⟨_, history, spell.within fun m h => h.1.isWork⟩
  | copied _ _ spell history => exact ⟨_, history, spell.within fun m h => h.1.isWork⟩

/-- After copy on write that succeeded another scope may follow. -/
theorem Rewritten.within_append {p : Picture} {session : Session} {s s' : DeviceState}
    {result : Bool × Picture} {rest : List Moment} (h : p.Rewritten session s (.ok result, s'))
    (more : Scoped session.context? rest) :
    ∃ ms, s'.history = s.history ++ ms ∧ Scoped session.context? (ms ++ rest) := by
  cases h with
  | sole => exact ⟨[], (List.append_nil _).symm, more⟩
  | copied _ _ spell history =>
    exact ⟨_, history, spell.within_append (fun m h => h.1.isWork) more⟩

end Picture

theorem PlanePlan.Composited.within {plan : PlanePlan} {session : Session} {main main' : Picture}
    {s s' : DeviceState} {answer : Except OverlayError Nat}
    (h : plan.Composited session main s ((answer, main'), s')) :
    ScopedTo session.context? s s' := by
  cases h with
  | unplanned => exact .of_same rfl
  | unwritable rewritten => exact rewritten.within
  | @blended copied _ s₁ _ _ ms rewritten spell noted =>
    obtain ⟨ms', history, calls⟩ :=
      rewritten.within_append (spell.within fun m h => h.1.isWork)
    exact ⟨ms' ++ ms, by rw [noted.history, history, List.append_assoc], calls⟩

/-! ### Orders -/

namespace Pipeline

theorem Received.within {p p' : Pipeline} {e : SyncEvent Picture} {answer : Except OverlayError Unit}
    (h : Received p e (answer, p')) :
    ScopedTo p.filter.session.context? p.device p'.device := by
  cases h with
  | forwarded => exact .of_same (history_sharing p.device e)
  | blended _ loaded _ composited =>
    obtain ⟨ms, history, calls⟩ := composited.within
    rw [session_of_loaded loaded]
    exact ⟨ms, by rw [history, history_sharing], calls⟩
  | spoiled _ loaded _ composited =>
    obtain ⟨ms, history, calls⟩ := composited.within
    rw [session_of_loaded loaded]
    exact ⟨ms, history.trans (by rw [history_sharing]), calls⟩

theorem Acted.within {p p' : Pipeline} {order : FilterOrder} {answer : Except OverlayError Unit}
    (h : Acted p order (answer, p')) : ScopedTo (order.context? p.filter) p.device p'.device := by
  cases h with
  | quiet _ device => exact .of_same (congrArg DeviceState.history device)
  | unopened on _ _ _ _ _ opened =>
    rw [FilterOrder.context?, on]
    exact opened.within
  | configured on _ _ _ _ _ opened =>
    rw [FilterOrder.context?, on]
    exact opened.within
  | advanced => exact .of_same rfl
  | received _ received => exact received.within
  | tornDown loaded closing =>
    show ScopedTo p.filter.session.context? _ _
    rw [session_of_loaded loaded]
    exact closing.within
  | discarded closing => exact closing.within

end Pipeline

namespace Studio

/-- **The calls of every order come in scopes** of the context of the device it works on, unless it is the
order's very purpose to enter or leave a scope. -/
theorem perform_within (w : Studio) (order : Order) (bare : order.holdsScope = false) :
    ScopedTo (order.context? w) w.device (w.perform order).2.device := by
  have sessionContext {k : Nat} {session : Session} (found : w.sessions[k]? = some session) :
      w.sessions[k]?.bind Session.context? = session.context? := by
    rw [found]
    rfl
  have view := w.performed order
  generalize w.perform order = run at view ⊢
  cases view with
  | framed order => exact .of_same (w.performFrame_aside order).1
  | absent => exact .of_same rfl
  | unopened opened => exact opened.within
  | opened opened => exact opened.within
  | entered => exact absurd bare (by simp [Order.holdsScope])
  | left => exact absurd bare (by simp [Order.holdsScope])
  | closed found _ closing =>
    rw [Order.context?, sessionContext found]
    exact closing.within
  | rewritten found _ rewritten =>
    rw [Order.context?, sessionContext found]
    exact rewritten.within
  | unwritable found _ rewritten =>
    rw [Order.context?, sessionContext found]
    exact rewritten.within
  | blended found _ _ composited =>
    rw [Order.context?, sessionContext found]
    exact composited.within
  | uncreated => exact .of_same rfl
  | created => exact .of_same rfl
  | filtered found _ acted =>
    rw [Order.context?, found]
    exact acted.within

/-- Every order adds its calls to the record, also if it enters or leaves a scope. -/
theorem perform_extends (w : Studio) (order : Order) :
    ∃ ms, (w.perform order).2.device.history = w.device.history ++ ms := by
  cases bare : order.holdsScope with
  | false =>
    obtain ⟨ms, history, -⟩ := w.perform_within order bare
    exact ⟨ms, history⟩
  | true =>
    unfold Order.holdsScope at bare
    split at bare
    · next k =>
      simp only [perform]
      split
      · exact ⟨[], (List.append_nil _).symm⟩
      next session _ =>
      have view := session.entering w.device
      simp only [performSession]
      generalize attempt session.enter w.device = run at view ⊢
      cases view with
      | shut => exact ⟨[], (List.append_nil _).symm⟩
      | pushed _ noted => exact ⟨_, noted.history⟩
    · obtain ⟨r, h, noted⟩ := DeviceM.noted_leave w.device
      exact ⟨_, noted.history⟩
    · exact absurd bare Bool.false_ne_true

/-- The record of a run is what its steps add. -/
theorem history_finish (w : Studio) (orders : List Order) :
    (w.finish orders).device.history = w.device.history ++ (w.steps orders).flatMap Step.moments := by
  induction orders generalizing w with
  | nil => exact (List.append_nil _).symm
  | cons order rest ih =>
    obtain ⟨ms, history⟩ := w.perform_extends order
    rw [finish_cons, steps_cons, List.flatMap_cons, ih, history, moments_of_history history,
      List.append_assoc]

/-- **The calls of a run come in scopes.**  Take any studio and any orders but those to enter or leave a
scope, with any faults of the driver and of the pools.  Every step adds its calls to the record, and they
are in scopes of the context of the device the order works on. -/
theorem steps_scoped (w : Studio) (orders : List Order)
    (bare : ∀ order ∈ orders, order.holdsScope = false) :
    (w.finish orders).device.history = w.device.history ++ (w.steps orders).flatMap Step.moments ∧
      ∀ s ∈ w.steps orders, Scoped (s.order.context? s.before) s.moments := by
  refine ⟨w.history_finish orders, ?_⟩
  induction orders generalizing w with
  | nil => exact fun s hs => absurd hs List.not_mem_nil
  | cons order rest ih =>
    obtain ⟨ms, history, calls⟩ := w.perform_within order (bare order List.mem_cons_self)
    intro s hs
    rcases List.mem_cons.1 hs with rfl | later
    · rw [moments_of_history history]
      exact calls
    · exact ih _ (fun o ho => bare o (List.mem_cons_of_mem _ ho)) s later

/-- A session is opened, and the push of its close is refused. -/
theorem steps_scoped_refused :
    let w := Studio.empty { push := Fault.only 1 201 }
    let orders : List Order := [.openSession ⟨1, 2⟩ ⟨[7, 0]⟩, .session 0 .close]
    (w.steps orders).map (fun s => s.moments.map Moment.call) =
        [[.push 1, .load 2, .getFunction KernelImage.entryPoint, .pop], [.push 1]] ∧
      ∀ s ∈ w.steps orders, Scoped (s.order.context? s.before) s.moments := by
  intro w orders
  have bare : ∀ order ∈ orders, order.holdsScope = false := by simp [orders, Order.holdsScope]
  exact ⟨by decide +kernel, (steps_scoped w orders bare).2⟩

end Studio

end FrameOverlay
