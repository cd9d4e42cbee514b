import FrameOverlay.Proofs.Device.Orders

/-!
# The life of a module

A module is loaded when a session is opened and unloaded when it is closed, once, unless the driver refuses
to enter its context.

* `Moment.loads`, `Moment.unloads` — the modules that calls load and unload;
* `Session.owned`, `Studio.modules` — the modules of open sessions;
* `Turn` — **what an operation does to the module of one session**: nothing, or it loads it, unloads it, or
  leaves it behind;
* `Studio.Turned` — the same for an order;
* `Studio.modules_balance` — **every module loaded has been unloaded, or is owned, or was left behind**.
-/

namespace FrameOverlay

open DeviceState Session OverlayFilter

/-! ### Modules in the record -/

namespace Moment

/-- The module that a call loaded. -/
def loaded? (m : Moment) : Option Handle :=
  match m.call with
  | .load _ => if m.result = 0 then some m.handle else none
  | _ => none

/-- The module that a call was to unload. -/
def unloaded? (m : Moment) : Option Handle :=
  match m.call with
  | .unload module => some module
  | _ => none

/-- The call found a module without the kernel. -/
def isUnresolved (m : Moment) : Bool :=
  match m.call with
  | .getFunction _ => m.result != 0
  | _ => false

/-- The call made a context current. -/
def isEntry (m : Moment) : Bool :=
  match m.call with
  | .push _ => m.result == 0
  | _ => false

/-- The modules loaded, in order. -/
def loads (ms : List Moment) : List Handle := ms.filterMap loaded?

/-- The modules unloaded, in order. -/
def unloads (ms : List Moment) : List Handle := ms.filterMap unloaded?

@[simp] theorem loads_append (l k : List Moment) : loads (l ++ k) = loads l ++ loads k :=
  List.filterMap_append

@[simp] theorem unloads_append (l k : List Moment) : unloads (l ++ k) = unloads l ++ unloads k :=
  List.filterMap_append

/-- Calls that have nothing to do with modules. -/
structure Aside (ms : List Moment) : Prop where
  loads_eq : loads ms = []
  unloads_eq : unloads ms = []
  resolved : ms.any isUnresolved = false

theorem Aside.nil : Aside [] := ⟨rfl, rfl, rfl⟩

theorem Aside.append {l k : List Moment} (h : Aside l) (h' : Aside k) : Aside (l ++ k) where
  loads_eq := by rw [loads_append, h.loads_eq, h'.loads_eq, List.append_nil]
  unloads_eq := by rw [unloads_append, h.unloads_eq, h'.unloads_eq, List.append_nil]
  resolved := by rw [List.any_append, h.resolved, h'.resolved, Bool.or_false]

/-- Calls none of which has to do with modules. -/
theorem Aside.of_all {ms : List Moment} (h : ∀ m ∈ ms, Aside [m]) : Aside ms := by
  induction ms with
  | nil => exact .nil
  | cons m rest ih =>
    exact (h m List.mem_cons_self).append (ih fun m hm => h m (List.mem_cons_of_mem _ hm))

theorem aside_push (context : Handle) (r : DriverResult) (h : Handle) (store : BufferStore) :
    Aside [⟨.push context, r, h, store⟩] := ⟨rfl, rfl, rfl⟩

theorem aside_pop (r : DriverResult) (h : Handle) (store : BufferStore) :
    Aside [⟨.pop, r, h, store⟩] := ⟨rfl, rfl, rfl⟩

theorem CopiesInto.aside {targets : List DevicePlane} {m : Moment} (h : m.CopiesInto targets) :
    Aside [m] := by
  obtain ⟨copy, target, call, -⟩ := h
  constructor <;> simp [loads, unloads, loaded?, unloaded?, isUnresolved, call]

theorem Paints.aside {b : BufferId} {m : Moment} (h : m.Paints b) : Aside [m] := by
  obtain ⟨record, launch, plane, call, -⟩ := h
  constructor <;> simp [loads, unloads, loaded?, unloaded?, isUnresolved, call]

end Moment

open Moment

/-! ### Modules of sessions -/

/-- The module that a session is to unload. -/
def Session.owned (session : Session) : List Handle :=
  if session.isOpen then [session.module] else []

/-- An open session has a module. -/
def Session.Sound (session : Session) : Prop := session.isOpen = true → session.module ≠ 0

theorem Session.owned_closed : Session.closed.owned = [] := rfl

theorem Session.sound_closed : Session.closed.Sound := nofun

/-- What an operation does to the module of a session; an operation that closes the session does not leave
it open. -/
inductive Turn (closes : Bool) (ms : List Moment) (session session' : Session) : Prop where
  | still (aside : Aside ms) (same : session'.owned = session.owned)
      (shut : closes = true → session.owned = [])
  | loaded {module : Handle} (opens : closes = false) (loads : loads ms = [module])
      (unloads : unloads ms = []) (resolved : ms.any isUnresolved = false)
      (before : session.owned = []) (after : session'.owned = [module])
  | unresolved {module : Handle} (opens : closes = false) (loads : loads ms = [module])
      (unloads : unloads ms = [module]) (same : session'.owned = session.owned)
  | unloaded {module : Handle} (loads : loads ms = []) (unloads : unloads ms = [module])
      (resolved : ms.any isUnresolved = false) (entered : ms.any isEntry = true)
      (before : session.owned = [module]) (after : session'.owned = [])
  | leftBehind {module : Handle} (aside : Aside ms) (shut : closes = true)
      (outside : ms.any isEntry = false) (before : session.owned = [module])
      (after : session'.owned = [])

/-- An operation that loads more than it unloads gives a session its module. -/
theorem Turn.of_more_loads {closes : Bool} {ms : List Moment} {session session' : Session}
    (h : Turn closes ms session session') (more : (unloads ms).length < (loads ms).length) :
    closes = false ∧ session'.owned ≠ [] := by
  cases h with
  | still aside =>
    rw [aside.loads_eq, aside.unloads_eq] at more
    exact absurd more (Nat.lt_irrefl 0)
  | loaded opens _ _ _ _ after =>
    rw [after]
    exact ⟨opens, List.cons_ne_nil _ _⟩
  | unresolved _ loads unloads =>
    rw [loads, unloads] at more
    exact absurd more (Nat.lt_irrefl 1)
  | unloaded loads =>
    rw [loads] at more
    exact absurd more (Nat.not_lt_zero _)
  | leftBehind aside =>
    rw [aside.loads_eq, aside.unloads_eq] at more
    exact absurd more (Nat.lt_irrefl 0)

namespace Session

/-- Opening a session loads its module, or none that stays. -/
theorem Opened.turn {device : DeviceContext} {s s' : DeviceState} {answer : Except OverlayError Session}
    (h : Opened device s (answer, s')) : ∃ ms, s'.history = s.history ++ ms ∧
      Turn false ms .closed (match answer with
        | .ok session => session
        | .error _ => .closed) ∧
      ∀ session, answer = .ok session → loads ms = [session.module] := by
  cases h with
  | untried => exact ⟨[], (List.append_nil _).symm, .still .nil rfl nofun, nofun⟩
  | refused failed noted =>
    exact ⟨_, noted.history, .still ⟨rfl, rfl, rfl⟩ rfl nofun, nofun⟩
  | rejected failed noted =>
    refine ⟨_, noted.history, .still ⟨?_, rfl, rfl⟩ rfl nofun, nofun⟩
    simp [loads, loaded?, failed]
  | unresolved failed noted =>
    exact ⟨_, noted.history, .unresolved rfl rfl rfl rfl, nofun⟩
  | opened noted =>
    refine ⟨_, noted.history, .loaded rfl rfl rfl rfl rfl rfl, ?_⟩
    intro session same
    obtain rfl := Except.ok.inj same
    rfl

/-- Closing a session unloads its module, unless the driver refuses to enter its context. -/
theorem Closing.turn {session : Session} {s s' : DeviceState} {answer : Except OverlayError Unit}
    (sound : session.Sound) (h : Closing session s (answer, s')) :
    ∃ ms, s'.history = s.history ++ ms ∧ Turn true ms session .closed := by
  cases h with
  | idle nothing =>
    have none : session.openDevice = none := by
      rcases nothing with none | null
      · exact none
      · cases some : session.openDevice with
        | none => rfl
        | some device => exact absurd null (sound (by simp [isOpen, some]))
    have nothing : session.owned = [] := by simp [owned, isOpen, none]
    exact ⟨[], (List.append_nil _).symm, .still .nil nothing.symm fun _ => nothing⟩
  | refused opened failed noted =>
    have before : session.owned = [session.module] := by simp [owned, isOpen, opened]
    refine ⟨_, noted.history, .leftBehind ⟨rfl, rfl, rfl⟩ rfl ?_ before rfl⟩
    simp [isEntry, failed]
  | unloaded opened noted =>
    have before : session.owned = [session.module] := by simp [owned, isOpen, opened]
    exact ⟨_, noted.history, .unloaded rfl rfl rfl rfl before rfl⟩

/-- Work in a session's context has nothing to do with modules. -/
theorem Spell.aside {session : Session} {store : BufferStore} {p : Moment → Prop}
    {answer : Except OverlayError Unit} {ms : List Moment} (work : ∀ m, p m → Aside [m])
    (h : Spell session store p answer ms) : Aside ms := by
  cases h with
  | shut => exact .nil
  | refused => exact aside_push _ _ _ _
  | entered _ inner =>
    have inside := Aside.of_all fun m hm => work m (inner m hm)
    exact ((aside_push _ _ _ _).append inside).append (aside_pop _ _ _)

end Session

theorem Picture.Rewritten.aside {p : Picture} {session : Session} {s s' : DeviceState}
    {answer : Except OverlayError (Bool × Picture)} (h : p.Rewritten session s (answer, s')) :
    ∃ ms, s'.history = s.history ++ ms ∧ Aside ms := by
  cases h with
  | sole => exact ⟨[], (List.append_nil _).symm, .nil⟩
  | barren => exact ⟨[], (List.append_nil _).symm, .nil⟩
  | undone _ _ spell history => exact ⟨_, history, spell.aside fun m h => h.1.aside⟩
  | copied _ _ spell history => exact ⟨_, history, spell.aside fun m h => h.1.aside⟩

theorem PlanePlan.Composited.aside {plan : PlanePlan} {session : Session} {main main' : Picture}
    {s s' : DeviceState} {answer : Except OverlayError Nat}
    (h : plan.Composited session main s ((answer, main'), s')) :
    ∃ ms, s'.history = s.history ++ ms ∧ Aside ms := by
  cases h with
  | unplanned => exact ⟨[], (List.append_nil _).symm, .nil⟩
  | unwritable rewritten => exact rewritten.aside
  | blended rewritten spell noted =>
    obtain ⟨ms, history, aside⟩ := rewritten.aside
    refine ⟨ms ++ _, ?_, aside.append (spell.aside fun m h => h.1.aside)⟩
    rw [noted.history, history, List.append_assoc]

/-! ### Filters -/

/-- A filter's open session has a module, and a filter with a kernel has its output configured. -/
structure OverlayFilter.Sound (f : OverlayFilter) : Prop where
  session : f.session.Sound
  configured : f.stage.isSome = true → f.outputInfo.isSome = true

theorem OverlayFilter.session_congr {f f' : OverlayFilter} (stage : f'.stage = f.stage) :
    f'.session = f.session := by
  rw [OverlayFilter.session, stage]
  rfl

theorem OverlayFilter.Sound.congr {f f' : OverlayFilter} (h : f.Sound) (stage : f'.stage = f.stage)
    (outputInfo : f'.outputInfo = f.outputInfo) : f'.Sound where
  session := by
    rw [session_congr stage]
    exact h.session
  configured := by
    rw [stage, outputInfo]
    exact h.configured

/-- A filter without a kernel is sound. -/
theorem OverlayFilter.sound_of_none {f : OverlayFilter} (none : f.stage = none) : f.Sound where
  session := by
    rw [session_of_none none]
    exact sound_closed
  configured some := absurd some (by simp [none])

namespace Pipeline

/-- An event concerns neither the kernel nor the output stream, and no module. -/
theorem Received.aside {p p' : Pipeline} {e : SyncEvent Picture} {answer : Except OverlayError Unit}
    (h : Received p e (answer, p')) : (∃ ms, p'.device.history = p.device.history ++ ms ∧ Aside ms) ∧
      p'.filter.stage = p.filter.stage ∧ p'.filter.outputInfo = p.filter.outputInfo := by
  cases h with
  | forwarded => exact ⟨⟨[], (history_sharing p.device e).trans (List.append_nil _).symm, .nil⟩, rfl, rfl⟩
  | blended _ _ like composited =>
    obtain ⟨ms, history, aside⟩ := composited.aside
    exact ⟨⟨ms, by rw [history, history_sharing], aside⟩, like.stage, like.outputInfo⟩
  | spoiled _ _ like composited =>
    obtain ⟨ms, history, aside⟩ := composited.aside
    exact ⟨⟨ms, history.trans (by rw [history_sharing]), aside⟩, like.stage, like.outputInfo⟩

/-- **What a filter's order does to its module.**  The filter stays sound, provided that a module that is
loaded has a handle. -/
theorem Acted.turn {p p' : Pipeline} {order : FilterOrder} {answer : Except OverlayError Unit}
    (sound : p.filter.Sound) (h : Acted p order (answer, p')) :
    ∃ ms, p'.device.history = p.device.history ++ ms ∧
      Turn order.closes ms p.filter.session p'.filter.session ∧
      (0 ∉ loads ms → p'.filter.Sound) ∧
      ((unloads ms).length < (loads ms).length → p.filter.outputInfo = none ∧
        p'.filter.outputInfo.isSome = true) := by
  have balanced {ms : List Moment} {P : Prop} (aside : Aside ms) :
      (unloads ms).length < (loads ms).length → P := by
    rw [aside.loads_eq, aside.unloads_eq]
    exact fun less => absurd less (Nat.lt_irrefl 0)
  -- without an output stream there is no kernel yet
  have unset (first : p.filter.outputInfo = none) : p.filter.stage = none := by
    cases loaded : p.filter.stage with
    | none => rfl
    | some stage =>
      have some := sound.configured (by rw [loaded]; rfl)
      exact absurd some (by simp [first])
  cases h with
  | quiet unloaded device stage info =>
    refine ⟨[], by rw [device, List.append_nil], .still .nil ?_ ?_, ?_, balanced .nil⟩
    · rw [session_congr stage]
    · intro closes
      rw [session_of_none (unloaded closes)]
      rfl
    · exact fun _ => sound.congr stage info
  | unopened on first stage info _ _ opened =>
    obtain ⟨ms, history, turn, -⟩ := opened.turn
    have none := stage.trans (unset first)
    refine ⟨ms, history, ?_, fun _ => sound_of_none none, fun more => ?_⟩
    · rw [session_of_none (unset first), session_of_none none]
      exact turn
    · exact absurd rfl (turn.of_more_loads more).2
  | @configured _ _ _ _ f plan session _ on first stage info _ _ opened =>
    obtain ⟨ms, history, turn, loaded⟩ := opened.turn
    have same : f.session = session := session_of_loaded stage
    refine ⟨ms, history, ?_, fun proper => ⟨?_, fun _ => info⟩, fun _ => ⟨first, info⟩⟩
    · rw [session_of_none (unset first), same]
      exact turn
    · intro _ null
      rw [same] at null
      rw [loaded session rfl, null] at proper
      exact absurd proper (by simp)
  | advanced =>
    exact ⟨[], (List.append_nil _).symm, .still .nil rfl nofun, fun _ => sound.congr rfl rfl,
      balanced .nil⟩
  | received _ received =>
    obtain ⟨⟨ms, history, aside⟩, stage, info⟩ := received.aside
    refine ⟨ms, history, .still aside ?_ nofun, fun _ => sound.congr stage info, balanced aside⟩
    rw [session_congr stage]
    rfl
  | tornDown loaded closing =>
    obtain ⟨ms, history, turn⟩ := closing.turn (by
      rw [← session_of_loaded loaded]
      exact sound.session)
    refine ⟨ms, history, ?_, fun _ => sound_of_none rfl, fun more => ?_⟩
    · rw [session_of_loaded loaded]
      exact turn
    · exact absurd (turn.of_more_loads more).1 Bool.noConfusion
  | discarded closing =>
    obtain ⟨ms, history, turn⟩ := closing.turn sound.session
    refine ⟨ms, history, turn, fun _ => sound_of_none rfl, fun more => ?_⟩
    exact absurd (turn.of_more_loads more).1 Bool.noConfusion

end Pipeline

/-! ### Orders -/

namespace Studio

/-- The modules of all open sessions. -/
def modules (w : Studio) : List Handle :=
  w.sessions.flatMap Session.owned ++ w.lines.flatMap fun line => line.filter.session.owned

/-- Every open session has a module. -/
structure Sound (w : Studio) : Prop where
  sessions : ∀ s ∈ w.sessions, s.Sound
  filters : ∀ line ∈ w.lines, line.filter.Sound

theorem sound_empty (faults : FaultPlan) : (empty faults).Sound :=
  ⟨fun _ h => absurd h List.not_mem_nil, fun _ h => absurd h List.not_mem_nil⟩

end Studio

/-- The session that an order closes; a closed one if it closes none. -/
def Order.closing (w : Studio) (order : Order) : Session :=
  if order.closes then (order.owner?.bind w.session?).getD .closed else .closed

namespace Studio

/-- What an order does to the one module it works with, in a session that was `session` and becomes
`session'`. -/
structure Turned (w : Studio) (order : Order) (w' : Studio) (ms : List Moment)
    (session session' : Session) : Prop where
  history : w'.device.history = w.device.history ++ ms
  turn : Turn order.closes ms session session'
  modules : ∀ h, w'.modules.count h + session.owned.count h = w.modules.count h + session'.owned.count h
  closing : order.closes = true → order.closing w = session
  sound : 0 ∉ loads ms → w'.Sound

/-- An order that leaves sessions and filters alone. -/
theorem turned_aside {w w' : Studio} {order : Order} {ms : List Moment} (sound : w.Sound)
    (history : w'.device.history = w.device.history ++ ms) (aside : Aside ms)
    (sessions : w'.sessions = w.sessions) (lines : w'.lines = w.lines)
    (nothing : ∀ o, order.owner? = some o → order.closes = true → w.session? o = none) :
    Turned w order w' ms .closed .closed where
  history := history
  turn := .still aside rfl fun _ => rfl
  modules h := by simp only [Studio.modules, sessions, lines]
  closing closes := by
    rw [Order.closing, if_pos closes]
    cases owner : order.owner? with
    | none => rfl
    | some o =>
      rw [Option.bind_some, nothing o owner closes]
      rfl
  sound _ := ⟨by rw [sessions]; exact sound.sessions, by rw [lines]; exact sound.filters⟩

/-- An order that leaves sessions and filters alone and is not to close any. -/
theorem turned_open {w w' : Studio} {order : Order} {ms : List Moment} (sound : w.Sound)
    (opens : order.closes = false) (history : w'.device.history = w.device.history ++ ms)
    (aside : Aside ms) (sessions : w'.sessions = w.sessions) (lines : w'.lines = w.lines) :
    Turned w order w' ms .closed .closed :=
  turned_aside sound history aside sessions lines
    fun _ _ closes => absurd closes (Bool.eq_false_iff.1 opens)

theorem turned {w : Studio} (sound : w.Sound) (order : Order) :
    ∃ ms session session', Turned w order (w.perform order).2 ms session session' := by
  have unclosed {P : Prop} (opens : order.closes = false) (closes : order.closes = true) : P :=
    absurd closes (Bool.eq_false_iff.1 opens)
  have view := w.performed order
  generalize w.perform order = run at view ⊢
  cases view with
  | framed order =>
    obtain ⟨history, sessions, lines⟩ := w.performFrame_aside order
    exact ⟨[], _, _, turned_open sound rfl (history.trans (List.append_nil _).symm) .nil sessions lines⟩
  | absent nothing =>
    exact ⟨[], _, _, turned_aside sound (List.append_nil _).symm .nil rfl rfl nothing⟩
  | unopened opened =>
    obtain ⟨ms, history, turn, -⟩ := opened.turn
    exact ⟨ms, .closed, .closed, history, turn, fun _ => rfl, unclosed rfl,
      fun _ => ⟨sound.sessions, sound.filters⟩⟩
  | @opened _ _ session _ opened =>
    obtain ⟨ms, history, turn, loaded⟩ := opened.turn
    refine ⟨ms, .closed, session, history, turn, fun h => ?_, unclosed rfl, fun proper => ⟨?_, sound.filters⟩⟩
    · simp [Studio.modules, Session.owned_closed]
      omega
    · intro s hs
      rcases List.mem_append.1 hs with old | new
      · exact sound.sessions s old
      · obtain rfl := List.mem_singleton.1 new
        rw [loaded s rfl] at proper
        exact fun _ null => absurd proper (by simp [null])
  | entered found entering =>
    cases entering with
    | shut => exact ⟨[], _, _, turned_open sound rfl (List.append_nil _).symm .nil rfl rfl⟩
    | pushed _ noted =>
      exact ⟨_, _, _, turned_open sound rfl noted.history (aside_push _ _ _ _) rfl rfl⟩
  | left =>
    obtain ⟨r, h, noted⟩ := DeviceM.noted_leave w.device
    exact ⟨_, _, _, turned_open sound rfl noted.history (aside_pop _ _ _) rfl rfl⟩
  | @closed k session order _ _ _ found closes closing =>
    obtain ⟨ms, history, turn⟩ := closing.turn (sound.sessions session (List.mem_of_getElem? found))
    refine ⟨ms, session, .closed, history, ?_, fun h => ?_, ?_, fun _ => ⟨?_, sound.filters⟩⟩
    · rw [closes]
      exact turn
    · have before := countP_flatMap_of_getElem? Session.owned (· == h) found
      have after := countP_flatMap_set Session.owned (· == h) found .closed
      simp only [Studio.modules, List.count_append]
      simp only [← List.count_eq_countP] at before after
      omega
    · intro closes
      simp [Order.closing, closes, Order.owner?, session?, found]
    · intro s hs
      rcases List.mem_or_eq_of_mem_set hs with old | rfl
      · exact sound.sessions s old
      · exact Session.sound_closed
  | rewritten _ _ rewritten =>
    obtain ⟨ms, history, aside⟩ := rewritten.aside
    exact ⟨ms, _, _, turned_open sound rfl history aside rfl rfl⟩
  | unwritable _ _ rewritten =>
    obtain ⟨ms, history, aside⟩ := rewritten.aside
    exact ⟨ms, _, _, turned_open sound rfl history aside rfl rfl⟩
  | blended _ _ _ composited =>
    obtain ⟨ms, history, aside⟩ := composited.aside
    exact ⟨ms, _, _, turned_open sound rfl history aside rfl rfl⟩
  | uncreated =>
    exact ⟨[], _, _, turned_open sound rfl (List.append_nil _).symm .nil rfl rfl⟩
  | created stage =>
    refine ⟨[], .closed, .closed, (List.append_nil _).symm, .still .nil rfl (unclosed rfl), fun h => ?_, unclosed rfl,
      fun _ => ⟨sound.sessions, ?_⟩⟩
    · simp [Studio.modules, session_of_none stage, Session.owned_closed]
    · intro line hl
      rcases List.mem_append.1 hl with old | new
      · exact sound.filters line old
      · obtain rfl := List.mem_singleton.1 new
        exact sound_of_none stage
  | @filtered n line order _ p found live acted =>
    have soundLine := sound.filters line (List.mem_of_getElem? found)
    obtain ⟨ms, history, turn, stillSound, -⟩ := acted.turn soundLine
    refine ⟨ms, line.filter.session, p.filter.session, history, turn, fun h => ?_, ?_, fun proper =>
      ⟨sound.sessions, ?_⟩⟩
    · have before :=
        countP_flatMap_of_getElem? (fun line : Line => line.filter.session.owned) (· == h) found
      have after := countP_flatMap_set (fun line : Line => line.filter.session.owned) (· == h) found
        ⟨p.filter, p.main, p.overlay, order.isLast⟩
      simp only [Studio.modules, List.count_append]
      simp only [← List.count_eq_countP] at before after
      omega
    · intro closes
      simp [Order.closing, closes, Order.owner?, session?, found, live]
    · intro other ho
      rcases List.mem_or_eq_of_mem_set ho with old | rfl
      · exact sound.filters other old
      · exact stillSound proper

end Studio

/-! ### Steps -/

namespace Step

/-- The driver let the step enter a context. -/
def entered (s : Step) : Bool := s.moments.any isEntry

/-- The session that the step closes; a closed one if it closes none. -/
def closing (s : Step) : Session := s.order.closing s.before

/-- The module that a close leaves loaded, as the driver does not let it enter the context. -/
def leftBehind (s : Step) : List Handle := if s.entered then [] else s.closing.owned

/-- What a step does to modules. -/
structure Orderly (s : Step) : Prop where
  balance : ∀ h, s.before.modules.count h + (loads s.moments).count h =
    (unloads s.moments).count h + s.after.modules.count h + s.leftBehind.count h
  unresolved : s.moments.any isUnresolved = true →
    ∃ module, loads s.moments = [module] ∧ unloads s.moments = [module]
  closed : s.closing.isOpen = true → s.entered = true → unloads s.moments = [s.closing.module]

end Step

namespace Studio

theorem orderly {w : Studio} (sound : w.Sound) (order : Order) : (w.step order).Orderly := by
  obtain ⟨ms, session, session', turned⟩ := turned sound order
  have moments := moments_of_history turned.history
  have modules : ∀ h, (w.step order).after.modules.count h + session.owned.count h =
      (w.step order).before.modules.count h + session'.owned.count h := turned.modules
  have entered : (w.step order).entered = ms.any isEntry := by rw [Step.entered, moments]
  have closing (closes : order.closes = true) : (w.step order).closing = session := turned.closing closes
  have open' (closes : order.closes = false) : (w.step order).closing = .closed := by
    show order.closing w = _
    rw [Order.closing, closes]
    rfl
  have left (nothing : (w.step order).closing.owned = []) : (w.step order).leftBehind = [] := by
    rw [Step.leftBehind, nothing]
    split <;> rfl
  have shut (nothing : (w.step order).closing.owned = []) {P : Prop} :
      (w.step order).closing.isOpen = true → P := by
    intro isOpen
    simp [Session.owned, isOpen] at nothing
  cases turned.turn with
  | still aside same stays =>
    have nothing : (w.step order).closing.owned = [] := by
      cases closes : order.closes with
      | true => rw [closing closes, stays closes]
      | false => rw [open' closes, Session.owned_closed]
    refine ⟨fun h => ?_, ?_, shut nothing⟩
    · have modules := modules h
      rw [same] at modules
      rw [moments, aside.loads_eq, aside.unloads_eq, left nothing, List.count_nil]
      omega
    · rw [moments, aside.resolved]
      exact nofun
  | loaded opens loads unloads resolved before after =>
    have nothing : (w.step order).closing.owned = [] := by rw [open' opens, Session.owned_closed]
    refine ⟨fun h => ?_, ?_, shut nothing⟩
    · have modules := modules h
      rw [before, after] at modules
      rw [moments, loads, unloads, left nothing]
      simp only [List.count_nil] at modules ⊢
      omega
    · rw [moments, resolved]
      exact nofun
  | @unresolved module opens loads unloads same =>
    have nothing : (w.step order).closing.owned = [] := by rw [open' opens, Session.owned_closed]
    refine ⟨fun h => ?_, fun _ => ⟨module, by rw [moments, loads], by rw [moments, unloads]⟩, shut nothing⟩
    have modules := modules h
    rw [same] at modules
    rw [moments, loads, unloads, left nothing, List.count_nil]
    omega
  | @unloaded module loads unloads resolved inside before after =>
    have nothing : (w.step order).leftBehind = [] := by
      rw [Step.leftBehind, entered, inside]
      rfl
    refine ⟨fun h => ?_, ?_, fun isOpen _ => ?_⟩
    · have modules := modules h
      rw [before, after] at modules
      rw [moments, loads, unloads, nothing]
      simp only [List.count_nil] at modules ⊢
      omega
    · rw [moments, resolved]
      exact nofun
    · cases closes : order.closes with
      | false =>
        rw [open' closes] at isOpen
        exact nomatch isOpen
      | true =>
        rw [closing closes] at isOpen ⊢
        rw [Session.owned, if_pos isOpen] at before
        rw [moments, unloads, before]
  | leftBehind aside closes outside before after =>
    have behind : (w.step order).leftBehind = session.owned := by
      rw [Step.leftBehind, entered, outside, closing closes]
      rfl
    refine ⟨fun h => ?_, ?_, fun _ inside => ?_⟩
    · have modules := modules h
      rw [after] at modules
      rw [moments, aside.loads_eq, aside.unloads_eq, behind, List.count_nil]
      simp only [List.count_nil] at modules
      omega
    · rw [moments, aside.resolved]
      exact nofun
    · rw [entered, outside] at inside
      exact nomatch inside

theorem sound_perform {w : Studio} (sound : w.Sound) (order : Order)
    (proper : 0 ∉ loads (w.step order).moments) : (w.perform order).2.Sound := by
  obtain ⟨ms, session, session', turned⟩ := turned sound order
  rw [moments_of_history turned.history] at proper
  exact turned.sound proper

/-- **Every module loaded has been unloaded, or an open session owns it, or it was left behind** by a close
that could not enter the context: once each. -/
theorem modules_balance {w : Studio} (sound : w.Sound) (orders : List Order)
    (proper : ∀ s ∈ w.steps orders, 0 ∉ loads s.moments) (h : Handle) :
    w.modules.count h + (loads ((w.steps orders).flatMap Step.moments)).count h =
      (unloads ((w.steps orders).flatMap Step.moments)).count h + (w.finish orders).modules.count h +
        ((w.steps orders).flatMap Step.leftBehind).count h := by
  induction orders generalizing w with
  | nil => simp [steps, finish, loads, unloads]
  | cons order rest ih =>
    have first := (orderly sound order).balance h
    have next := sound_perform sound order (proper _ List.mem_cons_self)
    have later := ih next fun s hs => proper s (List.mem_cons_of_mem _ hs)
    simp only [steps_cons, finish_cons, List.flatMap_cons, loads_append, unloads_append,
      List.count_append]
    have after : (w.step order).after = (w.perform order).2 := rfl
    have before : (w.step order).before = w := rfl
    rw [after, before] at first
    omega

end Studio

end FrameOverlay
