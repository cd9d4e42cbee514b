import FrameOverlay.Proofs.Device.Orders
import FrameOverlay.Proofs.Expr.Ink

/-!
# Nobody's frame is written but one's own

A buffer has as many holders as there are frames that refer to it.  So copy on write can tell from the
holders whether a frame is alone with its buffer, and what it writes no other frame refers to.

* `references` — the frames of a list that refer to a buffer;
* `DeviceState.HeldBy` — one frame is worked on besides all others;
* `Moment.Spares` — **a call that writes a buffer to which no other frame refers**;
* `Picture.Rewritten.spares`, `PlanePlan.Composited.spares`, `Pipeline.Acted.spares` — the calls of copy on
  write, of a blend, and of a filter's order;
* `Studio.Accounted` — every holder is a frame;
* `Step.subject?`, `Step.overlay?`, `Step.bystanders` — the frame that a step works on, the one it blends in,
  and all frames but the first;
* `BufferStore.Apart` — buffers that are held have no memory in common;
* `Step.Isolated`, `Studio.steps_isolated` — **no step of any run writes a buffer of a bystander**.
-/

namespace FrameOverlay

open Stamped DeviceState Session BufferStore

/-! ### References -/

/-- The number of frames that refer to a buffer. -/
def references (b : BufferId) (frames : List Frame) : Nat := tally (fun p => p.buffer == b) frames

section References

variable (b : BufferId)

@[simp] theorem references_nil : references b [] = 0 := rfl

@[simp] theorem references_append (l k : List Frame) :
    references b (l ++ k) = references b l + references b k := tally_append _ l k

theorem references_singleton (f : Frame) :
    references b [f] = if b = f.content.buffer then 1 else 0 := by
  by_cases same : b = f.content.buffer
  · simp [references, tally, same]
  · simp [references, tally, same, Ne.symm same]

theorem references_inBuffer (f : Frame) (c : BufferId) :
    references b [f.inBuffer c] = if b = c then 1 else 0 :=
  references_singleton b (f.inBuffer c)

theorem references_pos {f : Frame} {frames : List Frame} (h : f ∈ frames) :
    0 < references f.content.buffer frames :=
  List.countP_pos_iff.2 ⟨f, h, beq_self_eq_true _⟩

theorem count_buffersOf (frames : List Frame) : (buffersOf frames).count b = references b frames := by
  rw [buffersOf, List.count_eq_countP, List.countP_map]
  rfl

/-- One frame of a list and the others. -/
theorem references_eraseIdx {frames : List Frame} {i : Nat} {f : Frame} (found : frames[i]? = some f) :
    references b frames = references b (frames.eraseIdx i) + if b = f.content.buffer then 1 else 0 := by
  rw [← references_singleton]
  exact tally_eraseIdx _ found

/-- The same once that frame has been replaced. -/
theorem references_set {frames : List Frame} {i : Nat} {f : Frame} (found : frames[i]? = some f)
    (g : Frame) : references b (frames.set i g) =
      references b (frames.eraseIdx i) + if b = g.content.buffer then 1 else 0 := by
  rw [← references_singleton]
  exact tally_set _ found g

theorem holders_without (s : DeviceState) (frames : List Frame) :
    (s.without frames).store.holders b = s.store.holders b - references b frames := by
  rw [← count_buffersOf]
  exact s.store.holders_releaseAll b (buffersOf frames)

/-- A frame that is altered stays in its buffer. -/
theorem references_alter (frames : List Frame) (i : Nat) (frame : Frame) :
    references b (frames.modify i fun f => frame.inBuffer f.content.buffer) = references b frames := by
  have same : buffersOf (frames.modify i fun f => frame.inBuffer f.content.buffer) =
      buffersOf frames := by
    apply List.ext_getElem?
    intro k
    simp only [buffersOf, List.getElem?_map, List.getElem?_modify]
    split
    · cases frames[k]? <;> rfl
    · simp
  rw [← count_buffersOf, ← count_buffersOf, same]

end References

/-! ### Calls that write -/

/-- The call writes to device memory. -/
def DriverCall.isWrite : DriverCall → Bool
  | launch _ | copy _ => true
  | _ => false

/-- Besides one frame in buffer `held`, `others b` frames hold buffer `b`. -/
def DeviceState.HeldBy (s : DeviceState) (others : BufferId → Nat) (held : BufferId) : Prop :=
  ∀ b, s.store.holders b = others b + if b = held then 1 else 0

/-- What a call writes no other frame refers to.  The frame that is worked on was in buffer `subject`,
`others b` further frames refer to buffer `b`, and the buffers from number `first` on are new. -/
structure Moment.Spares (others : BufferId → Nat) (subject first : BufferId) (m : Moment) : Prop where
  /-- A launch writes the buffer of the frame, which is the only one that refers to it. -/
  launched : ∀ record, m.call = .launch record → ∃ b, m.Paints b ∧ (b = subject ∨ first ≤ b) ∧
    others b = 0 ∧ ∀ c, m.store.holders c = others c + if c = b then 1 else 0
  /-- A copy writes a new buffer, to which no frame refers. -/
  copied : ∀ copy, m.call = .copy copy → ∃ b, m.CopiesInto (m.store.planes b) ∧ first ≤ b ∧
    b ≠ subject ∧ others b = 0 ∧
    ∀ c, m.store.holders c = others c + (if c = subject then 1 else 0) + if c = b then 1 else 0

namespace Moment

theorem Spares.of_call {others : BufferId → Nat} {subject first : BufferId} {m : Moment}
    (h : m.call.isWrite = false) : m.Spares others subject first where
  launched record call := by
    rw [call] at h
    exact nomatch h
  copied copy call := by
    rw [call] at h
    exact nomatch h

end Moment

namespace Session

/-- Opening a session writes nothing. -/
theorem Opened.writes_nothing {device : DeviceContext} {s s' : DeviceState}
    {answer : Except OverlayError Session} (h : Opened device s (answer, s')) :
    ∃ ms, s.Noted ms s' ∧ ∀ m ∈ ms, m.call.isWrite = false := by
  cases h with
  | untried => exact ⟨[], .refl s, fun m hm => absurd hm List.not_mem_nil⟩
  | refused _ noted => exact ⟨_, noted, by simp [DriverCall.isWrite]⟩
  | rejected _ noted => exact ⟨_, noted, by simp [DriverCall.isWrite]⟩
  | unresolved _ noted => exact ⟨_, noted, by simp [DriverCall.isWrite]⟩
  | opened noted => exact ⟨_, noted, by simp [DriverCall.isWrite]⟩

/-- Closing a session writes nothing. -/
theorem Closing.writes_nothing {session : Session} {s s' : DeviceState}
    {answer : Except OverlayError Unit} (h : Closing session s (answer, s')) :
    ∃ ms, s.Noted ms s' ∧ ∀ m ∈ ms, m.call.isWrite = false := by
  cases h with
  | idle => exact ⟨[], .refl s, fun m hm => absurd hm List.not_mem_nil⟩
  | refused _ _ noted => exact ⟨_, noted, by simp [DriverCall.isWrite]⟩
  | unloaded _ noted => exact ⟨_, noted, by simp [DriverCall.isWrite]⟩

/-- In a spell only the work can write. -/
theorem Spell.spares {session : Session} {store : BufferStore} {p : Moment → Prop}
    {answer : Except OverlayError Unit} {ms : List Moment} {others : BufferId → Nat}
    {subject first : BufferId} (work : ∀ m, p m → m.Spares others subject first)
    (h : Spell session store p answer ms) : ∀ m ∈ ms, m.Spares others subject first := by
  cases h with
  | shut => exact fun m hm => absurd hm List.not_mem_nil
  | refused =>
    intro m hm
    obtain rfl := List.mem_singleton.1 hm
    exact .of_call rfl
  | entered _ inner =>
    intro m hm
    rcases List.mem_append.1 hm with start | pop
    · rcases List.mem_cons.1 start with rfl | inside
      · exact .of_call rfl
      · exact work m (inner m inside)
    · obtain rfl := List.mem_singleton.1 pop
      exact .of_call rfl

end Session

/-! ### Copy on write -/

section Spares

variable {others : BufferId → Nat}

/-- A frame that is alone with its buffer. -/
theorem DeviceState.HeldBy.alone {s : DeviceState} {held : BufferId} (h : s.HeldBy others held)
    (exclusive : s.store.isExclusive held = true) : others held = 0 := by
  have one := (s.store.isExclusive_iff held).1 exclusive
  have count := h held
  rw [if_pos rfl] at count
  omega

/-- Nobody refers to a buffer that is yet to come. -/
theorem DeviceState.HeldBy.fresh {s : DeviceState} {held : BufferId} (h : s.HeldBy others held) :
    others s.store.buffers.length = 0 ∧ s.store.buffers.length ≠ held := by
  have none := holders_of_le (Nat.le_refl s.store.buffers.length)
  have count := h s.store.buffers.length
  rw [none] at count
  split at count
  · omega
  · next other => exact ⟨by omega, other⟩

/-- **Copy on write spares all other frames.**  It writes at most a new buffer, and a picture that has been
made writable is alone with its buffer. -/
theorem Picture.Rewritten.spares {p : Picture} {session : Session} {s s' : DeviceState}
    {answer : Except OverlayError (Bool × Picture)} (held : s.HeldBy others p.buffer)
    (h : p.Rewritten session s (answer, s')) :
    (∃ ms, s'.history = s.history ++ ms ∧
      ∀ m ∈ ms, m.Spares others p.buffer s.store.buffers.length) ∧
    match answer with
    | .error _ => s'.HeldBy others p.buffer
    | .ok (_, p') => s'.HeldBy others p'.buffer ∧ others p'.buffer = 0 ∧
        (p'.buffer = p.buffer ∨ s.store.buffers.length ≤ p'.buffer) := by
  -- the copies fill a buffer that nobody refers to
  have filled {pool : PoolId} {fresh : BufferId} {store : BufferStore}
      (acquired : s.store.acquire pool = .ok (fresh, store)) (m : Moment)
      (copies : m.CopiesInto (store.planes fresh) ∧ m.store = store) :
      m.Spares others p.buffer s.store.buffers.length := by
    obtain ⟨copies, rfl⟩ := copies
    obtain ⟨copy, _, call, -⟩ := id copies
    obtain ⟨rfl, -⟩ := acquire_ok acquired
    refine ⟨fun record launch => (nomatch call.symm.trans launch), fun _ _ =>
      ⟨_, copies, Nat.le_refl _, held.fresh.2, held.fresh.1, fun c => ?_⟩⟩
    rw [holders_acquire acquired, held]
  cases h with
  | sole exclusive => exact ⟨⟨[], (List.append_nil _).symm, fun m hm => absurd hm List.not_mem_nil⟩,
      held, held.alone exclusive, .inl rfl⟩
  | barren =>
    exact ⟨⟨[], (List.append_nil _).symm, fun m hm => absurd hm List.not_mem_nil⟩, held⟩
  | @undone _ fresh _ _ _ _ _ acquired spell history released =>
    refine ⟨⟨_, history, spell.spares (filled acquired)⟩, fun c => ?_⟩
    have count := held c
    rw [released, holders_release, holders_acquire acquired, count]
    omega
  | @copied _ fresh _ _ _ shared acquired spell history released =>
    refine ⟨⟨_, history, spell.spares (filled acquired)⟩, fun c => ?_, ?_, ?_⟩
    · have count := held c
      rw [released, holders_release, holders_acquire acquired, count]
      dsimp only
      omega
    · obtain ⟨rfl, -⟩ := acquire_ok acquired
      exact held.fresh.1
    · exact .inr (Nat.le_of_eq (acquire_ok acquired).1.symm)

/-- **A blend spares all other frames.** -/
theorem PlanePlan.Composited.spares {plan : PlanePlan} {session : Session} {main main' : Picture}
    {s s' : DeviceState} {answer : Except OverlayError Nat} (held : s.HeldBy others main.buffer)
    (h : plan.Composited session main s ((answer, main'), s')) :
    (∃ ms, s'.history = s.history ++ ms ∧
      ∀ m ∈ ms, m.Spares others main.buffer s.store.buffers.length) ∧
    s'.HeldBy others main'.buffer := by
  cases h with
  | unplanned =>
    exact ⟨⟨[], (List.append_nil _).symm, fun m hm => absurd hm List.not_mem_nil⟩, held⟩
  | unwritable rewritten => exact rewritten.spares held
  | @blended _ _ s₁ _ _ ms' rewritten spell noted =>
    obtain ⟨⟨ms, history, copies⟩, after, alone, whose⟩ := rewritten.spares held
    have launches (m : Moment) (paints : m.Paints main'.buffer ∧ m.store = s₁.store) :
        m.Spares others main.buffer s.store.buffers.length := by
      obtain ⟨paints, same⟩ := paints
      obtain ⟨record, _, _, call, -⟩ := id paints
      refine ⟨fun _ _ => ⟨_, paints, whose, alone, fun c => ?_⟩,
        fun copy other => (nomatch call.symm.trans other)⟩
      rw [same, after]
    refine ⟨⟨ms ++ ms', ?_, ?_⟩, ?_⟩
    · rw [noted.history, history, List.append_assoc]
    · intro m hm
      rcases List.mem_append.1 hm with copied | painted
      · exact copies m copied
      · exact spell.spares launches m painted
    · intro c
      rw [noted.store, after]

end Spares

/-! ### Filters -/

namespace Pipeline

/-- The frames that wait in the slots and in the queues. -/
def inputs (p : Pipeline) : List Frame :=
  p.filter.sync.heldFrames ++ p.main.frames ++ p.overlay.frames

/-- Besides the frames of the pipeline, `others b` frames hold buffer `b`. -/
def HeldBy (p : Pipeline) (others : BufferId → Nat) : Prop :=
  ∀ b, p.device.store.holders b = references b p.holdings + others b

variable {p p' : Pipeline} {others : BufferId → Nat}

theorem references_holdings (p : Pipeline) (b : BufferId) : references b p.holdings =
    references b p.kept + references b p.inputs + references b p.filter.output.frames := by
  simp only [holdings, inputs, references_append]
  omega

/-- Once the synchronizer has taken in what is queued, one more frame is at hand if an event takes it
out. -/
theorem HeldBy.advanced (held : p.HeldBy others) (b : BufferId) :
    p.advanced.device.store.holders b = references b p.advanced.holdings + others b +
      references b (p.filter.sync.activate p.main p.overlay).1.handedOver := by
  have stock := p.filter.sync.activate_stock (fun q => q.buffer == b) p.main p.overlay
  have before := held b
  simp only [Pipeline.advanced, holders_without, holdings, references_append] at before ⊢
  simp only [references] at before ⊢
  dsimp only at stock
  omega

/-- A main frame that the synchronizer keeps is held by the frame in its slot. -/
theorem HeldBy.alive (held : p.HeldBy others) {e : SyncEvent Picture}
    (event : (p.filter.sync.activate p.main p.overlay).1 = .event e) (kept : e.mainKept = true) :
    0 < p.advanced.device.store.holders e.main.content.buffer := by
  obtain ⟨f, inSlot, same⟩ := (Synchronizer.activate_kept event).1 kept
  have there : f ∈ p.advanced.holdings := by simp [holdings, Pipeline.advanced, inSlot]
  have some := references_pos there
  have count := held.advanced e.main.content.buffer
  rw [same] at some
  omega

/-- An event that is received holds its main frame. -/
theorem HeldBy.sharing (held : p.HeldBy others) {e : SyncEvent Picture}
    (event : (p.filter.sync.activate p.main p.overlay).1 = .event e) :
    (p.advanced.device.sharing e).HeldBy (fun b => references b p.advanced.holdings + others b)
      e.main.content.buffer := by
  intro b
  have count := held.advanced b
  rw [event] at count
  unfold DeviceState.sharing
  cases kept : e.mainKept with
  | false =>
    simp only [Outcome.handedOver, kept, Bool.false_eq_true, if_false] at count ⊢
    rw [count, references_singleton]
  | true =>
    simp only [Outcome.handedOver, kept, if_true, references_nil] at count ⊢
    rw [holders_share (held.alive event kept), count, Nat.add_zero]

/-- **An event spares all other frames.** -/
theorem Received.spares {e : SyncEvent Picture} {answer : Except OverlayError Unit}
    (held : (p.device.sharing e).HeldBy (fun b => references b p.holdings + others b)
      e.main.content.buffer)
    (h : Received p e (answer, p')) :
    (∃ ms, p'.device.history = p.device.history ++ ms ∧
      ∀ m ∈ ms, m.Spares (fun b => references b p.holdings + others b) e.main.content.buffer
        p.device.store.buffers.length) ∧
    p'.HeldBy others ∧ p'.inputs = p.inputs := by
  have length : (p.device.sharing e).store.buffers.length = p.device.store.buffers.length := by
    unfold DeviceState.sharing
    split <;> simp
  rw [← length]
  -- a frame put out is held besides all the others
  have put {f : OverlayFilter} {main : Frame} {d : DeviceState} (like : p.filter.Like f)
      (after : d.HeldBy (fun b => references b p.holdings + others b) main.content.buffer) :
      HeldBy { p with device := d, filter := { f with output := f.output.push main } } others := by
    intro b
    have count := after b
    simp only [references_holdings, inputs, like.sync, like.output, FrameQueue.push, references_append,
      references_singleton] at count ⊢
    omega
  cases h with
  | forwarded =>
    refine ⟨⟨[], ?_, fun m hm => absurd hm List.not_mem_nil⟩, put (.refl p.filter) held, rfl⟩
    rw [List.append_nil, history_sharing]
  | @blended _ _ f _ main _ _ _ like composited =>
    obtain ⟨⟨ms, history, spared⟩, after⟩ := composited.spares held
    refine ⟨⟨ms, by rw [history, history_sharing], spared⟩, ?_, ?_⟩
    · exact @put _ { e.main with content := main } _ like after
    · simp only [inputs, OverlayFilter.putComposited, like.sync]
  | spoiled _ _ like composited =>
    obtain ⟨⟨ms, history, spared⟩, after⟩ := composited.spares held
    refine ⟨⟨ms, history.trans (by rw [history_sharing]), spared⟩, fun b => ?_, ?_⟩
    · have count := after b
      simp only [references_holdings, inputs, like.sync, like.output, holders_without,
        references_singleton] at count ⊢
      omega
    · simp only [inputs, like.sync]

/-- **A filter's order spares all other frames.**  It writes at most while it receives an event, and then
the buffer of the event's main frame or a new one. -/
theorem Acted.spares {order : FilterOrder} {answer : Except OverlayError Unit} (held : p.HeldBy others)
    (h : Acted p order (answer, p')) :
    p'.HeldBy others ∧ ∃ ms, p'.device.history = p.device.history ++ ms ∧
      ((∀ m ∈ ms, m.call.isWrite = false) ∨
        ∃ e, order = .activate ∧ (p.filter.sync.activate p.main p.overlay).1 = .event e ∧
          (∀ f ∈ e.overlay, f ∈ p'.inputs) ∧
          ∀ m ∈ ms, m.Spares (fun b => references b p.kept + references b p'.inputs +
            references b p.filter.output.frames + others b) e.main.content.buffer
            p.device.store.buffers.length) := by
  -- the device after the frames that the synchronizer held were let go of
  have emptied (b : BufferId) : (p.device.without p.filter.sync.heldFrames).store.holders b =
      references b p.kept + references b p.main.frames + references b p.overlay.frames +
        references b p.filter.output.frames + others b := by
    have count := held b
    simp only [references_holdings, inputs, references_append] at count
    rw [holders_without, count]
    omega
  cases h with
  | quiet _ device _ _ frames =>
    refine ⟨fun b => ?_, [], by rw [device, List.append_nil], .inl fun m hm => absurd hm List.not_mem_nil⟩
    rw [device, held b]
    exact congrArg (· + others b) (frames _).symm
  | unopened _ _ _ _ output none opened =>
    obtain ⟨ms, noted, calls⟩ := opened.writes_nothing
    refine ⟨fun b => ?_, ms, noted.history, .inl calls⟩
    have count := emptied b
    simp only [references_holdings, inputs, references_append, output, none, references_nil, noted.store]
    omega
  | configured _ _ _ _ output none opened =>
    obtain ⟨ms, noted, calls⟩ := opened.writes_nothing
    refine ⟨fun b => ?_, ms, noted.history, .inl calls⟩
    have count := emptied b
    simp only [references_holdings, inputs, references_append, output, none, references_nil, noted.store]
    omega
  | advanced silent =>
    refine ⟨fun b => ?_, [], (List.append_nil _).symm, .inl fun m hm => absurd hm List.not_mem_nil⟩
    have count := held.advanced b
    rwa [silent] at count
  | @received e _ _ event received =>
    obtain ⟨⟨ms, history, spared⟩, after, waiting⟩ := received.spares (held.sharing event)
    have length : p.advanced.device.store.buffers.length = p.device.store.buffers.length :=
      p.device.store.length_releaseAll _
    refine ⟨after, ms, history, .inr ⟨e, rfl, event, fun f hf => ?_, ?_⟩⟩
    · have inSlot := (Synchronizer.activate_kept event).2 f hf
      rw [waiting, inputs, List.append_assoc]
      exact List.mem_append_left _ inSlot
    · simp only [references_holdings, length] at spared
      rw [waiting]
      exact spared
  | tornDown _ closing =>
    obtain ⟨ms, noted, calls⟩ := closing.writes_nothing
    refine ⟨fun b => ?_, ms, noted.history, .inl calls⟩
    rw [noted.store]
    exact held b
  | @discarded _ _ d closing =>
    obtain ⟨ms, noted, calls⟩ := closing.writes_nothing
    refine ⟨fun b => ?_, ms, noted.history, .inl calls⟩
    have nothing : (Synchronizer.new : Synchronizer Picture).heldFrames = [] := rfl
    show (d.without p.filter.output.frames).store.holders b = _
    rw [holders_without, noted.store, emptied]
    simp only [references_holdings, inputs, references_append, nothing, references_nil]
    omega

end Pipeline

/-! ### Studios -/

namespace Line

/-- The frames that wait in the slots and in the queues. -/
def inputs (line : Line) : List Frame :=
  line.filter.sync.heldFrames ++ line.main.frames ++ line.overlay.frames

/-- The frames put out. -/
def outputs (line : Line) : List Frame := line.filter.output.frames

end Line

namespace Studio

/-- Every frame there is. -/
def live (w : Studio) : List Frame :=
  w.frames ++ w.lines.flatMap Line.inputs ++ w.lines.flatMap Line.outputs

/-- Every holder of a buffer is a frame. -/
def Accounted (w : Studio) : Prop := ∀ b, w.device.store.holders b = references b w.live

end Studio

namespace Order

/-- The caller's frame that an order works on. -/
def target? : Order → Option Nat
  | session _ (.makeWritable i) | session _ (.composite _ i _ _) => some i
  | _ => none

end Order

namespace Step

/-- The frame that the step works on: the main frame of the event that the synchronizer gives out, or a
frame in the caller's hands. -/
def subject? (s : Step) : Option Frame :=
  match s.order with
  | .filter n .activate => s.before.lines[n]?.bind fun line =>
    match (line.filter.sync.activate line.main line.overlay).1 with
    | .event e => some e.main
    | _ => none
  | order => order.target?.bind fun i => s.before.frames[i]?

/-- The frame that the step blends in: the overlay frame of the event, or a frame in the caller's hands. -/
def overlay? (s : Step) : Option Frame :=
  match s.order with
  | .filter n .activate => s.before.lines[n]?.bind fun line =>
    match (line.filter.sync.activate line.main line.overlay).1 with
    | .event e => e.overlay
    | _ => none
  | .session _ (.composite _ _ j _) => s.before.frames[j]?
  | _ => none

/-- The frames besides the one that the step works on, while it works on that: those in the caller's hands,
those that still wait in slots and queues, and those put out before. -/
def bystanders (s : Step) : List Frame :=
  (match s.order.target? with
    | some i => s.before.frames.eraseIdx i
    | none => s.before.frames) ++
  s.after.lines.flatMap Line.inputs ++ s.before.lines.flatMap Line.outputs

end Step

/-! ### Isolation -/

/-- The byte at an address belongs to a plane. -/
def DevicePlane.Covers (p : DevicePlane) (address : UInt64) : Prop :=
  ∃ row < p.rows, ∃ column < p.rowBytes, address = p.address + UInt64.ofNat (row * p.pitch + column)

/-- Buffers that someone holds have no memory in common. -/
def BufferStore.Apart (s : BufferStore) : Prop :=
  ∀ b c, b ≠ c → 0 < s.holders b → 0 < s.holders c →
    ∀ p ∈ s.planes b, ∀ q ∈ s.planes c, ∀ address, p.Covers address → ¬ q.Covers address

namespace Step

/-- No bystander is in buffer `b`, nor has any memory in common with it if buffers are apart. -/
structure Misses (s : Step) (m : Moment) (b : BufferId) : Prop where
  unreferenced : ∀ f ∈ s.bystanders, f.content.buffer ≠ b
  apart : m.store.Apart → ∀ f ∈ s.bystanders, ∀ p ∈ m.store.planes b,
    ∀ q ∈ m.store.planes f.content.buffer, ∀ address, p.Covers address → ¬ q.Covers address

/-- No bystander's buffer is written.  What is written belongs to the frame that the step works on. -/
structure Isolated (s : Step) : Prop where
  /-- The buffer of which a plane is the main plane of a launch has one holder, the frame that is worked
  on; that is in its own buffer still, or in a new one. -/
  launched : ∀ m ∈ s.moments, ∀ record, m.call = .launch record → ∃ frame b, s.subject? = some frame ∧
    m.Paints b ∧ (b = frame.content.buffer ∨ s.before.device.store.buffers.length ≤ b) ∧
    m.store.holders b = 1 ∧ s.Misses m b ∧
    ∀ c, m.store.holders c = references c s.bystanders + if c = b then 1 else 0
  /-- The target of a copy is a new buffer, to which no frame refers. -/
  copied : ∀ m ∈ s.moments, ∀ copy, m.call = .copy copy → ∃ frame b, s.subject? = some frame ∧
    m.CopiesInto (m.store.planes b) ∧ s.before.device.store.buffers.length ≤ b ∧
    b ≠ frame.content.buffer ∧ s.Misses m b ∧
    ∀ c, m.store.holders c =
      references c s.bystanders + (if c = frame.content.buffer then 1 else 0) + if c = b then 1 else 0
  /-- The frame that is blended in is a bystander. -/
  covering : ∀ m ∈ s.moments, m.call.isWrite = true → ∀ f ∈ s.overlay?, f ∈ s.bystanders

/-- A held buffer to which no bystander refers. -/
theorem misses_of_references {s : Step} {m : Moment} {b : BufferId}
    (none : references b s.bystanders = 0) (held : 0 < m.store.holders b)
    (enough : ∀ c, references c s.bystanders ≤ m.store.holders c) : s.Misses m b := by
  have unreferenced (f : Frame) (hf : f ∈ s.bystanders) : f.content.buffer ≠ b := by
    intro same
    have some := references_pos hf
    rw [same, none] at some
    exact absurd some (Nat.lt_irrefl 0)
  refine ⟨unreferenced, fun apart f hf => apart b _ (unreferenced f hf).symm held ?_⟩
  exact Nat.lt_of_lt_of_le (references_pos hf) (enough _)

theorem Isolated.of_calls {s : Step} (nothing : ∀ m ∈ s.moments, m.call.isWrite = false) :
    s.Isolated where
  launched m hm record call := by
    have still := nothing m hm
    rw [call] at still
    exact nomatch still
  copied m hm copy call := by
    have still := nothing m hm
    rw [call] at still
    exact nomatch still
  covering m hm writes := nomatch (nothing m hm).symm.trans writes

theorem Isolated.of_spares {s : Step} {frame : Frame} (subject : s.subject? = some frame)
    (covering : ∀ f ∈ s.overlay?, f ∈ s.bystanders)
    (spared : ∀ m ∈ s.moments, m.Spares (fun b => references b s.bystanders) frame.content.buffer
      s.before.device.store.buffers.length) : s.Isolated where
  launched m hm record call := by
    obtain ⟨b, paints, whose, none, holders⟩ := (spared m hm).launched record call
    have one := holders b
    rw [if_pos rfl, none] at one
    refine ⟨frame, b, subject, paints, whose, one, misses_of_references none (by omega) fun c => ?_, holders⟩
    have count := holders c
    omega
  copied m hm copy call := by
    obtain ⟨b, copies, fresh, other, none, holders⟩ := (spared m hm).copied copy call
    have one := holders b
    rw [if_pos rfl, none] at one
    refine ⟨frame, b, subject, copies, fresh, other, misses_of_references none (by omega) fun c => ?_,
      holders⟩
    have count := holders c
    omega
  covering _ _ _ := covering

end Step

namespace Studio

theorem accounted_empty (faults : FaultPlan) : (empty faults).Accounted := fun _ => rfl

/-- An order that leaves buffers and frames alone. -/
theorem Accounted.congr {w w' : Studio} (h : w.Accounted) (store : w'.device.store = w.device.store)
    (frames : w'.frames = w.frames) (lines : w'.lines = w.lines) : w'.Accounted := by
  intro b
  rw [store, h b, live, live, frames, lines]

theorem references_live (w : Studio) (b : BufferId) : references b w.live = references b w.frames +
    references b (w.lines.flatMap Line.inputs) + references b (w.lines.flatMap Line.outputs) := by
  simp only [live, references_append]

/-- Orders about frames and pools keep account of the holders. -/
theorem accounted_performFrame {w : Studio} (accounted : w.Accounted) (order : FrameOrder) :
    (w.performFrame order).2.Accounted := by
  unfold performFrame
  cases order with
  | make planes frame =>
    intro b
    have count := accounted b
    have number : (w.device.store.allocate planes none).1 = w.device.store.buffers.length := rfl
    simp only [withStore, references_live, references_append, references_inBuffer, holders_allocate,
      number] at count ⊢
    omega
  | draw pool frame =>
    dsimp only
    split
    · exact accounted
    next fresh store acquired =>
    intro b
    have count := accounted b
    simp only [withStore, references_live, references_append, references_inBuffer,
      holders_acquire acquired] at count ⊢
    omega
  | clone i =>
    dsimp only
    split
    · exact accounted
    next frame found =>
    have alive : 0 < w.device.store.holders frame.content.buffer := by
      rw [accounted, references_live]
      have there := references_pos (List.mem_of_getElem? found)
      omega
    intro b
    have count := accounted b
    simp only [withStore, references_live, references_append, references_singleton,
      holders_share alive] at count ⊢
    omega
  | alter i frame =>
    intro b
    have count := accounted b
    simp only [references_live, references_alter] at count ⊢
    exact count
  | drop i =>
    dsimp only
    split
    · exact accounted
    next frame found =>
    intro b
    have count := accounted b
    simp only [withStore, references_live, holders_release, references_eraseIdx b found] at count ⊢
    omega
  | addPool pool => exact accounted
  | setPool p pool => exact accounted

/-- The frames besides frame `i` in the caller's hands. -/
def besides (w : Studio) (i : Nat) : List Frame :=
  w.frames.eraseIdx i ++ w.lines.flatMap Line.inputs ++ w.lines.flatMap Line.outputs

section Caller

variable {w : Studio} {i : Nat} {frame frame' : Frame}

/-- A frame in the caller's hands is held besides all others. -/
theorem Accounted.held (h : w.Accounted) (found : w.frames[i]? = some frame) :
    w.device.HeldBy (fun b => references b (w.besides i)) frame.content.buffer := by
  intro b
  simp only [h b, references_live, references_eraseIdx b found, besides, references_append]
  omega

/-- And so it is once it has been worked on. -/
theorem accounted_of_held {d : DeviceState} (found : w.frames[i]? = some frame)
    (after : d.HeldBy (fun b => references b (w.besides i)) frame'.content.buffer) :
    Accounted { w with device := d, frames := w.frames.set i frame' } := by
  intro b
  simp only [after b, references_live, references_set b found, besides, references_append]
  omega

/-- A step that works on a frame in the caller's hands. -/
theorem isolated_of_target {order : Order} {ms : List Moment} (target : order.target? = some i)
    (found : w.frames[i]? = some frame)
    (history : (w.perform order).2.device.history = w.device.history ++ ms)
    (lines : (w.perform order).2.lines = w.lines)
    (covering : ∀ f ∈ (w.step order).overlay?, f ∈ w.frames.eraseIdx i)
    (spared : ∀ m ∈ ms, m.Spares (fun b => references b (w.besides i)) frame.content.buffer
      w.device.store.buffers.length) : (w.step order).Isolated := by
  have bystanders : (w.step order).bystanders = w.besides i := by
    have before : (w.step order).order.target? = some i := target
    have after : (w.step order).after.lines = w.lines := lines
    rw [Step.bystanders, before, after]
    rfl
  have subject : (w.step order).subject? = some frame := by
    cases order with
    | session k order => exact (congrArg (Option.bind · fun i => w.frames[i]?) target).trans found
    | frame => exact nomatch target
    | openSession => exact nomatch target
    | leave => exact nomatch target
    | newFilter => exact nomatch target
    | filter => exact nomatch target
  apply Step.Isolated.of_spares subject
  · intro f hf
    rw [bystanders, besides]
    exact List.mem_append_left _ (List.mem_append_left _ (covering f hf))
  · rw [moments_of_history history, bystanders]
    exact spared

end Caller

section Filter

variable {w : Studio} {n : Nat} {line : Line}

/-- The frames of all filters but filter `n` that refer to a buffer. -/
def elsewhere (w : Studio) (n : Nat) (b : BufferId) : Nat :=
  references b ((w.lines.eraseIdx n).flatMap Line.inputs) +
    references b ((w.lines.eraseIdx n).flatMap Line.outputs)

theorem references_lines (found : w.lines[n]? = some line) (f : Line → List Frame) (b : BufferId) :
    references b (w.lines.flatMap f) =
      references b (f line) + references b ((w.lines.eraseIdx n).flatMap f) :=
  countP_flatMap_of_getElem? f _ found

theorem references_lines_set (found : w.lines[n]? = some line) (f : Line → List Frame) (line' : Line)
    (b : BufferId) : references b ((w.lines.set n line').flatMap f) =
      references b (f line') + references b ((w.lines.eraseIdx n).flatMap f) :=
  countP_flatMap_set f _ found line'

/-- The frames that a filter's order works on are held besides those of the other filters. -/
theorem Accounted.pipeline (h : w.Accounted) (found : w.lines[n]? = some line) :
    (w.pipeline line).HeldBy (w.elsewhere n) := by
  intro b
  have count := h b
  rw [references_live, references_lines found, references_lines found] at count
  rw [Pipeline.references_holdings, elsewhere]
  have device : (w.pipeline line).device = w.device := rfl
  have kept : (w.pipeline line).kept = w.frames := rfl
  have inputs : (w.pipeline line).inputs = line.inputs := rfl
  have outputs : (w.pipeline line).filter.output.frames = line.outputs := rfl
  rw [device, kept, inputs, outputs]
  omega

/-- And so they are once the order has been carried out. -/
theorem accounted_of_pipeline {p : Pipeline} (found : w.lines[n]? = some line) (dropped : Bool)
    (after : p.HeldBy (w.elsewhere n)) : Accounted { w with
      device := p.device
      frames := p.kept
      lines := w.lines.set n ⟨p.filter, p.main, p.overlay, dropped⟩ } := by
  intro b
  have count := after b
  rw [Pipeline.references_holdings, elsewhere] at count
  rw [references_live, references_lines_set found, references_lines_set found]
  have inputs : Line.inputs ⟨p.filter, p.main, p.overlay, dropped⟩ = p.inputs := rfl
  have outputs : Line.outputs ⟨p.filter, p.main, p.overlay, dropped⟩ = p.filter.output.frames := rfl
  rw [inputs, outputs]
  dsimp only
  omega

/-- A step that works on the main frame of an event. -/
theorem isolated_of_event {e : SyncEvent Picture} {ms : List Moment} {p : Pipeline} {dropped : Bool}
    (found : w.lines[n]? = some line)
    (event : (line.filter.sync.activate line.main line.overlay).1 = .event e)
    (after : (w.perform (.filter n .activate)).2.lines =
      w.lines.set n ⟨p.filter, p.main, p.overlay, dropped⟩)
    (covering : ∀ f ∈ e.overlay, f ∈ p.inputs)
    (history : (w.perform (.filter n .activate)).2.device.history = w.device.history ++ ms)
    (spared : ∀ m ∈ ms, m.Spares (fun b => references b w.frames + references b p.inputs +
      references b line.outputs + w.elsewhere n b) e.main.content.buffer
      w.device.store.buffers.length) : (w.step (.filter n .activate)).Isolated := by
  have subject : (w.step (.filter n .activate)).subject? = some e.main := by
    show (w.lines[n]?.bind fun line =>
      match (line.filter.sync.activate line.main line.overlay).1 with
      | .event e => some e.main
      | _ => none) = some e.main
    rw [found, Option.bind_some, event]
  have overlay : (w.step (.filter n .activate)).overlay? = e.overlay := by
    show (w.lines[n]?.bind fun line =>
      match (line.filter.sync.activate line.main line.overlay).1 with
      | .event e => e.overlay
      | _ => none) = e.overlay
    rw [found, Option.bind_some, event]
  have inputs : Line.inputs ⟨p.filter, p.main, p.overlay, dropped⟩ = p.inputs := rfl
  have lines : (w.step (.filter n .activate)).after.lines =
    w.lines.set n ⟨p.filter, p.main, p.overlay, dropped⟩ := after
  have bystanders : (w.step (.filter n .activate)).bystanders =
    w.frames ++ (w.step (.filter n .activate)).after.lines.flatMap Line.inputs ++
      w.lines.flatMap Line.outputs := rfl
  rw [lines] at bystanders
  have count (b : BufferId) : references b w.frames + references b p.inputs +
      references b line.outputs + w.elsewhere n b =
        references b (w.step (.filter n .activate)).bystanders := by
    rw [bystanders, references_append, references_append, references_lines_set found,
      references_lines found, inputs, elsewhere]
    omega
  apply Step.Isolated.of_spares subject
  · intro f hf
    rw [overlay] at hf
    have inside := (List.getElem?_eq_some_iff.1 found).1
    have here : f ∈ (w.lines.set n ⟨p.filter, p.main, p.overlay, dropped⟩).flatMap Line.inputs :=
      List.mem_flatMap.2 ⟨_, List.mem_set inside _, covering f hf⟩
    rw [bystanders]
    exact List.mem_append_left _ (List.mem_append_right _ here)
  · rw [moments_of_history history]
    simp only [count] at spared
    exact spared

end Filter

/-- **No order writes a bystander's buffer**, and holders stay accounted for. -/
theorem isolated_perform (w : Studio) (order : Order) (accounted : w.Accounted) :
    (w.step order).Isolated ∧ (w.perform order).2.Accounted := by
  have quiet {ms : List Moment} (history : (w.perform order).2.device.history = w.device.history ++ ms)
      (nothing : ∀ m ∈ ms, m.call.isWrite = false) : (w.step order).Isolated :=
    .of_calls (by rwa [moments_of_history history])
  have silent (history : (w.perform order).2.device.history = w.device.history) :
      (w.step order).Isolated :=
    quiet (history.trans (List.append_nil _).symm) fun m hm => absurd hm List.not_mem_nil
  have worked {i : Nat} {frame : Frame} {ms : List Moment} :=
    @isolated_of_target w i frame order ms
  have view := w.performed order
  generalize run : w.perform order = result at view quiet silent worked ⊢
  cases view with
  | framed order =>
    exact ⟨silent (w.performFrame_aside order).1, accounted_performFrame accounted order⟩
  | absent => exact ⟨silent rfl, accounted⟩
  | unopened opened =>
    obtain ⟨ms, noted, calls⟩ := opened.writes_nothing
    exact ⟨quiet noted.history calls, accounted.congr noted.store rfl rfl⟩
  | opened opened =>
    obtain ⟨ms, noted, calls⟩ := opened.writes_nothing
    exact ⟨quiet noted.history calls, accounted.congr noted.store rfl rfl⟩
  | entered _ entering =>
    cases entering with
    | shut => exact ⟨silent rfl, accounted⟩
    | pushed _ noted =>
      exact ⟨quiet noted.history (by simp [DriverCall.isWrite]), accounted.congr noted.store rfl rfl⟩
  | left =>
    obtain ⟨r, h, noted⟩ := DeviceM.noted_leave w.device
    exact ⟨quiet noted.history (by simp [DriverCall.isWrite]), accounted.congr noted.store rfl rfl⟩
  | closed _ _ closing =>
    obtain ⟨ms, noted, calls⟩ := closing.writes_nothing
    exact ⟨quiet noted.history calls, accounted.congr noted.store rfl rfl⟩
  | @rewritten k i _ _ _ _ _ _ held rewritten =>
    have none : ∀ f ∈ (w.step (.session k (.makeWritable i))).overlay?, f ∈ w.frames.eraseIdx i :=
      fun f hf => absurd hf (Option.not_mem_none f)
    obtain ⟨⟨ms, history, spared⟩, after, -⟩ := rewritten.spares (accounted.held held)
    exact ⟨worked rfl held history rfl none spared, accounted_of_held held after⟩
  | @unwritable k i _ _ _ _ _ held rewritten =>
    have none : ∀ f ∈ (w.step (.session k (.makeWritable i))).overlay?, f ∈ w.frames.eraseIdx i :=
      fun f hf => absurd hf (Option.not_mem_none f)
    obtain ⟨⟨ms, history, spared⟩, after⟩ := rewritten.spares (accounted.held held)
    refine ⟨worked rfl held history rfl none spared, fun b => ?_⟩
    have count := accounted b
    rw [accounted.held held b] at count
    exact (after b).trans count
  | @blended _ i j _ _ _ _ _ _ _ _ distinct held composited =>
    obtain ⟨⟨ms, history, spared⟩, after⟩ := composited.spares (accounted.held held)
    refine ⟨worked rfl held history rfl (fun f hf => ?_) spared, accounted_of_held held after⟩
    exact List.mem_eraseIdx_iff_getElem?.2 ⟨j, Ne.symm distinct, hf⟩
  | uncreated => exact ⟨silent rfl, accounted⟩
  | @created _ filter _ _ sync output =>
    refine ⟨silent rfl, fun b => ?_⟩
    have count := accounted b
    have inputs : Line.inputs ⟨filter, {}, {}, false⟩ = [] := by
      rw [Line.inputs, sync]
      rfl
    have outputs : Line.outputs ⟨filter, {}, {}, false⟩ = [] := by rw [Line.outputs, output]
    simp only [references_live, List.flatMap_append, List.flatMap_singleton, inputs, outputs,
      List.append_nil] at count ⊢
    exact count
  | @filtered n line order _ p found live acted =>
    obtain ⟨after, ms, history, calls⟩ := acted.spares (accounted.pipeline found)
    refine ⟨?_, accounted_of_pipeline found _ after⟩
    rcases calls with calls | ⟨e, rfl, event, covering, spared⟩
    · exact quiet history calls
    · exact isolated_of_event found event (congrArg (·.2.lines) run) covering
        ((congrArg (·.2.device.history) run).trans history) spared

/-- **No run writes a bystander's buffer.**  Take a driver and pools with any faults, and any orders.  At
every launch the frame that is worked on is the only one in its buffer, every copy goes to a new buffer, and
in the end every holder of a buffer is a frame. -/
theorem steps_isolated (faults : FaultPlan) (orders : List Order) :
    (∀ s ∈ (empty faults).steps orders, s.Isolated) ∧ ((empty faults).finish orders).Accounted :=
  @steps_keep Accounted (fun _ => True) Step.Isolated
    (fun w order accounted _ => isolated_perform w order accounted) (empty faults)
    (accounted_empty faults) orders fun _ _ => trivial

/-- A main frame goes to a filter while the caller holds a clone of it, and another clone goes to the overlay
input.  The synchronizer keeps the frame for both of its events, each of which copies it; and so does the
caller's session, when it blends what came out into the clone. -/
theorem steps_isolated_kept :
    let context : FramesContext := ⟨⟨1, 2⟩, .nv12, 4, 4, some 0⟩
    let link : LinkInfo := ⟨⟨1, 25⟩, 4, 4, some context⟩
    let frame (pts : Timestamp) : Frame := ⟨⟨0, .nv12, 4, 4, none, some context⟩, some pts⟩
    let planes (base : UInt64) := DevicePlane.layout base .nv12 4 4 256
    let orders : List Order := [.frame (.addPool (.new .nv12 4 4)), .frame (.make (planes 4096) (frame 0)),
        .frame (.clone 0), .frame (.clone 0), .frame (.make (planes 65536) (frame 1))] ++
      .newFilter { x := "10", y := "10", eval := .init } ::
      [.filter 0 (.configure link link (.ok ⟨[7, 0]⟩)), .filter 0 (.push .main 0),
        .filter 0 (.push .overlay 0), .filter 0 (.push .overlay 1), .filter 0 (.close .main),
        .filter 0 .activate, .filter 0 .activate, .filter 0 .pop, .openSession ⟨1, 2⟩ ⟨[7, 0]⟩,
        .session 0 (.composite ⟨.nv12, .nv12, PlanePlan.stepsOf none .chromaPacked⟩ 0 1 ⟨.aligned 0, 0⟩)]
    let steps := (Studio.empty {}).steps orders
    (steps.flatMap Step.moments).filterMap (fun m =>
      if m.call.isWrite then some (m.store.buffers.map SharedBuffer.holders) else none) =
        [[4, 1, 1], [4, 1, 1], [3, 1, 1], [3, 1, 1], [3, 1, 1, 1], [3, 1, 1, 1], [2, 1, 1, 1],
          [2, 1, 1, 1], [2, 1, 1, 1, 1], [2, 1, 1, 1, 1], [1, 1, 1, 1, 1], [1, 1, 1, 1, 1]] ∧
      (steps.flatMap fun s => s.after.lines.flatMap fun l => l.filter.sync.main.current?.toList).map
        (fun f => f.content.buffer) = [0, 0, 0, 0, 0] ∧
      ∀ s ∈ steps, s.Isolated := by
  intro context link frame planes orders steps
  have parsed : Expr.parse "10" = .ok (.num ⟨10, 0⟩) := Expr.parse_numeral (by decide +kernel) (by decide)
  have made : OverlayFilter.new { x := "10", y := "10", eval := .init } = .ok _ :=
    OverlayFilter.new_eq (by decide) parsed parsed
  have run : steps = _ := (steps_append (empty {}) _ _).trans (congrArg _ (steps_newFilter _ made _))
  refine ⟨?_, ?_, (steps_isolated {} orders).1⟩
  · rw [run]
    decide +kernel
  · rw [run]
    decide +kernel

end Studio

end FrameOverlay
