import FrameOverlay.Proofs.Sync.Round

/-!
# Queueing the rest of the input

What is still to come can be queued at once: nothing that has been done before depends on it.

* `Flow.Extends` — the same synchronizer with the rest of both inputs queued, and possibly closed;
* `Extends.look`, `Extends.fill`, `Extends.moved` — **what does not have to wait is the same with
  the rest queued**;
* `Extends.advance` — the same over the rounds of an activation, up to the one that has to wait;
* `look_comm` — **the two looks can be taken in either order**, unless they end the output;
* `Extends.advance_of_missing` — the round that had to wait, started anew with the rest queued,
  comes to the same as if nothing had been taken in before.
-/

namespace FrameOverlay

namespace Flow

variable {α : Type}

/-! ### Parts of a move -/

theorem shift_flag (f : Flow α) (i : InputRole) (pts : Timestamp) (due : Bool) :
    (f.shift i pts due).1 = if (f.sync.slot i).moves pts then
      if (f.sync.slot i).promote.endsOutput then false
      else due || (some (f.sync.slot i).level == f.sync.level &&
        (f.sync.slot i).promote.current?.isSome)
    else due := by
  cases moves : (f.sync.slot i).moves pts with
  | false =>
    rw [shift_of_stays f due moves]
    rfl
  | true =>
    rw [shift_of_moves f due moves, if_pos rfl]
    unfold settle
    split
    · rfl
    · cases i <;> rfl

/-- An input's part in a move looks at the synchronizer alone. -/
theorem shift_congr {f g : Flow α} (h : f.sync = g.sync) (i : InputRole) (pts : Timestamp)
    (due : Bool) : (f.shift i pts due).1 = (g.shift i pts due).1 ∧
      (f.shift i pts due).2.sync = (g.shift i pts due).2.sync := by
  refine ⟨?_, ?_⟩
  · rw [shift_flag, shift_flag, h]
  · rw [shift_sync, shift_sync]
    simp only [ends, h]

/-- A move looks at the synchronizer alone. -/
theorem move_congr {f g : Flow α} (h : f.sync = g.sync) (pts : Timestamp) :
    (f.move pts).1 = (g.move pts).1 ∧ (f.move pts).2.sync = (g.move pts).2.sync := by
  have sync : (f.move pts).2.sync = (g.move pts).2.sync := by
    rw [move_sync, move_sync]
    simp only [ends, h]
  obtain ⟨main, between⟩ := shift_congr h .main pts false
  have overlay := (shift_congr between .overlay pts (f.shift .main pts false).1).1
  refine ⟨?_, sync⟩
  show (((f.shift .main pts false).2.shift .overlay pts (f.shift .main pts false).1).1 &&
      !((f.move pts).2.sync.main.holdsBack || (f.move pts).2.sync.overlay.holdsBack)) =
    (((g.shift .main pts false).2.shift .overlay pts (g.shift .main pts false).1).1 &&
      !((g.move pts).2.sync.main.holdsBack || (g.move pts).2.sync.overlay.holdsBack))
  rw [overlay, main, sync]

/-! ### The order of the looks -/

theorem missing_of_look {f : Flow α} {i : InputRole} (h : (f.look i).1 = true) :
    (f.look i).2 = f ∧ (f.sync.slot i).wants = true ∧ (f.queue i).frames = [] ∧
      (f.queue i).closed = false := by
  have view := looked f i
  generalize f.look i = result at h view ⊢
  cases view with
  | known => exact nomatch h
  | frame => exact nomatch h
  | ended => exact nomatch h
  | missing wants queued closed => exact ⟨rfl, wants, queued, closed⟩

/-- A look sees the end of its input. -/
def seesEnd (f : Flow α) (i : InputRole) : Bool :=
  (f.sync.slot i).wants && (f.queue i).frames.isEmpty

/-- The slot after a look at an input that is closed. -/
def lookedSlot (f : Flow α) (i : InputRole) : Slot α :=
  if (f.sync.slot i).wants then
    match (f.queue i).frames with
    | [] => (f.sync.slot i).lookAtEnd
    | x :: _ => (f.sync.slot i).lookAtFrame f.timeBase x
  else
    f.sync.slot i

/-- The queue after a look. -/
def lookedQueue (f : Flow α) (i : InputRole) : FrameQueue (Stamped α) :=
  if (f.sync.slot i).wants then { f.queue i with frames := (f.queue i).frames.tail } else f.queue i

/-- A look at an input that is closed changes its slot and its queue, and the level if it sees the
end. -/
theorem look_closed {f : Flow α} {i : InputRole} (closed : (f.queue i).closed = true) :
    f.look i = (false, if f.seesEnd i then
      ((f.putQueue i (f.lookedQueue i)).putSlot i (f.lookedSlot i)).updateLevel
      else (f.putQueue i (f.lookedQueue i)).putSlot i (f.lookedSlot i)) := by
  unfold seesEnd lookedSlot lookedQueue
  cases wants : (f.sync.slot i).wants with
  | false =>
    rw [look_of_known wants]
    cases i <;> rfl
  | true =>
    cases queued : (f.queue i).frames with
    | nil =>
      have putBack : f.putQueue i { f.queue i with frames := [] } = f := by
        rw [← queued]
        cases i <;> rfl
      rw [look_of_ended wants queued closed]
      simp only [List.isEmpty_nil, Bool.and_self, if_true, List.tail_nil, putBack]
    | cons x rest =>
      rw [look_of_frame wants queued]
      rfl

/-- With both inputs closed, both looks find something. -/
theorem fill_of_closed {f : Flow α} (closed : ∀ i, (f.queue i).closed = true) :
    f.fill.1 = false := by
  have finds {g : Flow α} {i : InputRole} (closed : (g.queue i).closed = true) :
      (g.look i).1 = false := by
    rw [look_closed closed]
  have between : ((f.look .main).2.queue .overlay).closed = true := by
    rw [look_closes]
    exact closed .overlay
  rw [fill_flag, finds (closed .main), finds between]
  rfl

theorem looked_of_ne (f : Flow α) {i j : InputRole} (h : j ≠ i) :
    (f.look i).2.seesEnd j = f.seesEnd j ∧ (f.look i).2.lookedSlot j = f.lookedSlot j ∧
      (f.look i).2.lookedQueue j = f.lookedQueue j := by
  obtain ⟨slot, queue⟩ := look_of_ne f h
  unfold seesEnd lookedSlot lookedQueue timeBase
  rw [slot, queue, look_timeBase]
  exact ⟨rfl, rfl, rfl⟩

theorem activeLevel_lookedSlot (f : Flow α) (i : InputRole) : (f.lookedSlot i).activeLevel =
    if f.seesEnd i then 0 else (f.sync.slot i).activeLevel := by
  unfold lookedSlot seesEnd
  cases (f.sync.slot i).wants with
  | false => rfl
  | true => cases (f.queue i).frames <;> simp [Slot.activeLevel]

/-- The level is that of the inputs that go on. -/
theorem updateLevel_putSlot (s : Synchronizer α) (i : InputRole) {a : Slot α}
    (same : a.activeLevel = (s.slot i).activeLevel) :
    (s.putSlot i a).updateLevel = s.updateLevel.putSlot i a := by
  unfold Synchronizer.updateLevel
  cases i with
  | main =>
    rw [show (s.putSlot .main a).main.activeLevel = s.main.activeLevel from same]
    dsimp only [Synchronizer.putSlot]
    split <;> rfl
  | overlay =>
    rw [show (s.putSlot .overlay a).overlay.activeLevel = s.overlay.activeLevel from same]
    dsimp only [Synchronizer.putSlot]
    split <;> rfl

/-- Without an input that triggers events the output has ended. -/
theorem updateLevel_idle {s : Synchronizer α} (main : s.main.activeLevel = 0)
    (overlay : s.overlay.activeLevel = 0) : s.updateLevel.eof = true := by
  unfold Synchronizer.updateLevel
  rw [main, overlay]
  rfl

/-- The two looks can be taken in either order.  Only if both ends come into sight does the level
depend on the order, and then the output has ended. -/
theorem look_comm (f : Flow α) (closed : ∀ i, (f.queue i).closed = true) :
    ((f.look .main).2.look .overlay).2 = ((f.look .overlay).2.look .main).2 ∨
      (((f.look .main).2.look .overlay).2.sync.eof = true ∧
        ((f.look .overlay).2.look .main).2.sync.eof = true) := by
  have overlay := look_of_ne f (i := .main) (j := .overlay) (by decide)
  have main := look_of_ne f (i := .overlay) (j := .main) (by decide)
  obtain ⟨overlayEnd, overlaySlot, overlayQueue⟩ :=
    looked_of_ne f (i := .main) (j := .overlay) (by decide)
  obtain ⟨mainEnd, mainSlot, mainQueue⟩ := looked_of_ne f (i := .overlay) (j := .main) (by decide)
  have mainLevel := activeLevel_lookedSlot f .main
  have overlayLevel := activeLevel_lookedSlot f .overlay
  rw [look_closed (f := (f.look .main).2) (overlay.2 ▸ closed .overlay), overlayEnd, overlaySlot,
    overlayQueue, look_closed (f := (f.look .overlay).2) (main.2 ▸ closed .main), mainEnd,
    mainSlot, mainQueue, look_closed (closed .main), look_closed (closed .overlay)]
  generalize f.lookedSlot .main = A at mainLevel ⊢
  generalize f.lookedSlot .overlay = B at overlayLevel ⊢
  generalize f.lookedQueue .main = P
  generalize f.lookedQueue .overlay = Q
  rcases hm : f.seesEnd .main <;> rcases ho : f.seesEnd .overlay
  · exact .inl rfl
  · left
    rw [hm] at mainLevel
    have same := updateLevel_putSlot (f.sync.putSlot .overlay B) .main (a := A) mainLevel
    exact congrArg (Flow.mk · P Q f.dropped) same
  · left
    rw [ho] at overlayLevel
    have same := updateLevel_putSlot (f.sync.putSlot .main A) .overlay (a := B) overlayLevel
    exact congrArg (Flow.mk · P Q f.dropped) same.symm
  · right
    rw [hm] at mainLevel
    rw [ho] at overlayLevel
    refine ⟨updateLevel_idle ?_ overlayLevel, updateLevel_idle mainLevel ?_⟩
    · have slot := slot_updateLevel ((f.putQueue .main P).putSlot .main A) .main
      exact (congrArg Slot.activeLevel slot).trans mainLevel
    · have slot := slot_updateLevel ((f.putQueue .overlay Q).putSlot .overlay B) .overlay
      exact (congrArg Slot.activeLevel slot).trans overlayLevel

/-! ### Frames that were let go of

A flow also carries the frames it let go of.  No step looks at them, so what two flows come to is
alike if they have the same synchronizer and the same queues. -/

/-- The same flag, the same synchronizer and the same queues. -/
def Alike (r r' : Bool × Flow α) : Prop := r.1 = r'.1 ∧ r.2.junction = r'.2.junction

theorem look_alike {f g : Flow α} (h : f.junction = g.junction) (i : InputRole) :
    Alike (f.look i) (g.look i) := by
  rcases f with ⟨sync, main, overlay, dropped⟩
  rcases g with ⟨sync', main', overlay', dropped'⟩
  injection h with sync main overlay
  dsimp only at sync main overlay
  subst sync main overlay
  have queue : (Flow.mk sync main overlay dropped').queue i =
      (Flow.mk sync main overlay dropped).queue i := by
    cases i <;> rfl
  have view := looked ⟨sync, main, overlay, dropped⟩ i
  generalize look ⟨sync, main, overlay, dropped⟩ i = result at view ⊢
  cases view with
  | known content =>
    rw [look_of_known (f := ⟨sync, main, overlay, dropped'⟩) content]
    exact ⟨rfl, rfl⟩
  | frame wants queued =>
    rw [look_of_frame (f := ⟨sync, main, overlay, dropped'⟩) wants
      (queue ▸ queued), queue]
    cases i <;> exact ⟨rfl, rfl⟩
  | ended wants queued closed =>
    rw [look_of_ended (f := ⟨sync, main, overlay, dropped'⟩) wants
      (queue ▸ queued) (queue ▸ closed)]
    cases i <;> exact ⟨rfl, rfl⟩
  | missing wants queued closed =>
    rw [look_of_missing (f := ⟨sync, main, overlay, dropped'⟩) wants
      (queue ▸ queued) (queue ▸ closed)]
    exact ⟨rfl, rfl⟩

theorem fill_alike {f g : Flow α} (h : f.junction = g.junction) : Alike f.fill g.fill := by
  obtain ⟨main, between⟩ := look_alike h .main
  obtain ⟨overlay, after⟩ := look_alike between .overlay
  refine ⟨?_, after⟩
  rw [fill_flag, fill_flag, main, overlay]

theorem move_alike {f g : Flow α} (h : f.junction = g.junction) (pts : Timestamp) :
    Alike (f.move pts) (g.move pts) := by
  obtain ⟨flag, sync⟩ := move_congr (congrArg Junction.sync h) pts
  have main : (f.move pts).2.queue .main = (g.move pts).2.queue .main := by
    rw [move_queue, move_queue]
    exact congrArg Junction.main h
  have overlay : (f.move pts).2.queue .overlay = (g.move pts).2.queue .overlay := by
    rw [move_queue, move_queue]
    exact congrArg Junction.overlay h
  refine ⟨flag, ?_⟩
  show Junction.mk _ _ _ = Junction.mk _ _ _
  rw [sync]
  exact congr (congrArg _ main) overlay

/-- Once both looks have been taken, what an activation comes to depends on nothing before. -/
theorem advance_of_fill {f g : Flow α} (on : f.sync.eof = false) (on' : g.sync.eof = false)
    (h : Alike f.fill g.fill)
    (next : f.fill.1 = false → f.fill.2.sync.nextTime ≠ Timestamp.endless →
      (f.moved.1 || f.moved.2.sync.eof) = false → f.moved.2.junction = g.moved.2.junction →
      Alike f.moved.2.advance g.moved.2.advance) : Alike f.advance g.advance := by
  obtain ⟨flag, same⟩ := h
  have sync : f.fill.2.sync = g.fill.2.sync := congrArg Junction.sync same
  cases filled : f.fill.1 with
  | false =>
    have filled' : g.fill.1 = false := flag.symm.trans filled
    by_cases none : f.fill.2.sync.nextTime = Timestamp.endless
    · rw [advance_of_endless on filled none, advance_of_endless on' filled' (sync ▸ none)]
      exact ⟨rfl, congrArg (fun j => { j with sync := j.sync.finish }) same⟩
    · have moved : Alike f.moved g.moved := by
        rw [moved_eq, moved_eq, ← sync]
        exact move_alike same _
      have finished' : (f.moved.1 || f.moved.2.sync.eof) = (g.moved.1 || g.moved.2.sync.eof) :=
        congr (congrArg or moved.1) (congrArg (fun j => j.sync.eof) moved.2)
      cases finished : f.moved.1 || f.moved.2.sync.eof with
      | false =>
        rw [advance_of_quiet on filled none finished,
          advance_of_quiet on' filled' (sync ▸ none) (finished'.symm.trans finished)]
        exact next filled none finished moved.2
      | true =>
        rw [advance_of_over on filled none finished,
          advance_of_over on' filled' (sync ▸ none) (finished'.symm.trans finished)]
        exact moved
  | true =>
    rw [advance_of_missing on filled, advance_of_missing on' (flag.symm.trans filled)]
    exact ⟨rfl, same⟩

theorem advance_alike {f g : Flow α} (h : f.junction = g.junction) :
    Alike f.advance g.advance := by
  have eof : f.sync.eof = g.sync.eof := congrArg (fun j => j.sync.eof) h
  induction f using rounds_induct generalizing g with
  | ended f ended =>
    rw [advance_of_eof ended, advance_of_eof (eof.symm.trans ended)]
    exact ⟨rfl, h⟩
  | missing f on missing =>
    refine advance_of_fill on (eof.symm.trans on) (fill_alike h) ?_
    intro filled
    exact nomatch filled.symm.trans missing
  | endless f on filled none =>
    refine advance_of_fill on (eof.symm.trans on) (fill_alike h) ?_
    intro _ ahead
    exact absurd none ahead
  | move f on filled ahead ih =>
    refine advance_of_fill on (eof.symm.trans on) (fill_alike h) ?_
    intro _ _ quiet moved
    exact ih quiet moved (congrArg (fun j => j.sync.eof) moved)

/-! ### The rest of the input -/

/-- `g` is `f` with `rest` queued besides, and with both inputs closed.  Nothing is queued on an
input that `f` has closed. -/
structure Extends (rest : InputRole → List (Stamped α)) (f g : Flow α) : Prop where
  sync : g.sync = f.sync
  frames : ∀ i, (g.queue i).frames = (f.queue i).frames ++ rest i
  closed : ∀ i, (g.queue i).closed = true
  orderly : ∀ i, (f.queue i).closed = true → rest i = []

namespace Extends

variable {rest : InputRole → List (Stamped α)} {f g : Flow α}

theorem putSlot (h : Extends rest f g) (i : InputRole) (slot : Slot α) :
    Extends rest (f.putSlot i slot) (g.putSlot i slot) where
  sync := by
    show g.sync.putSlot i slot = f.sync.putSlot i slot
    rw [h.sync]
  frames j := by rw [queue_putSlot, queue_putSlot]; exact h.frames j
  closed j := by rw [queue_putSlot]; exact h.closed j
  orderly j := by rw [queue_putSlot]; exact h.orderly j

theorem updateLevel (h : Extends rest f g) : Extends rest f.updateLevel g.updateLevel where
  sync := congrArg Synchronizer.updateLevel h.sync
  frames j := by rw [queue_updateLevel, queue_updateLevel]; exact h.frames j
  closed j := by rw [queue_updateLevel]; exact h.closed j
  orderly j := by rw [queue_updateLevel]; exact h.orderly j

/-- Taking the oldest frame out of both. -/
theorem putQueue (h : Extends rest f g) (i : InputRole) (frames : List (Stamped α)) :
    Extends rest (f.putQueue i { f.queue i with frames })
      (g.putQueue i { g.queue i with frames := frames ++ rest i }) where
  sync := by
    rw [putQueue_sync, putQueue_sync]
    exact h.sync
  frames j := by
    by_cases same : j = i
    · subst same
      rw [queue_putQueue_self, queue_putQueue_self]
    · rw [queue_putQueue_of_ne _ _ same, queue_putQueue_of_ne _ _ same]
      exact h.frames j
  closed j := by
    by_cases same : j = i
    · subst same
      rw [queue_putQueue_self]
      exact h.closed j
    · rw [queue_putQueue_of_ne _ _ same]
      exact h.closed j
  orderly j := by
    by_cases same : j = i
    · subst same
      rw [queue_putQueue_self]
      exact h.orderly j
    · rw [queue_putQueue_of_ne _ _ same]
      exact h.orderly j

theorem timeBase (h : Extends rest f g) : g.timeBase = f.timeBase := by
  unfold Flow.timeBase
  rw [h.sync]

/-- Two flows that extend the same one have the same queues. -/
theorem junction_eq {g' : Flow α} (h : Extends rest f g) (h' : Extends rest f g') :
    g.junction = g'.junction := by
  have queue (i : InputRole) : g.queue i = g'.queue i := by
    have frames := (h.frames i).trans (h'.frames i).symm
    have closed := (h.closed i).trans (h'.closed i).symm
    rcases hq : g.queue i with ⟨a, b⟩
    rcases hq' : g'.queue i with ⟨a', b'⟩
    rw [hq, hq'] at frames closed
    exact congr (congrArg FrameQueue.mk frames) closed
  show Junction.mk _ _ _ = Junction.mk _ _ _
  rw [h.sync, h'.sync]
  exact congr (congrArg _ (queue .main)) (queue .overlay)

/-- A look that finds something finds the same with the rest queued. -/
theorem look (h : Extends rest f g) {i : InputRole} (found : (f.look i).1 = false) :
    Extends rest (f.look i).2 (g.look i).2 := by
  have slot : g.sync.slot i = f.sync.slot i := by rw [h.sync]
  have view := looked f i
  generalize f.look i = result at found view ⊢
  cases view with
  | known content =>
    rw [look_of_known (slot ▸ content)]
    exact h
  | frame wants queued =>
    have queued' := h.frames i
    rw [queued, List.cons_append] at queued'
    rw [look_of_frame (slot ▸ wants) queued', slot, h.timeBase]
    exact (h.putQueue i _).putSlot i _
  | ended wants queued closed =>
    have queued' := h.frames i
    rw [queued, h.orderly i closed] at queued'
    rw [look_of_ended (slot ▸ wants) queued' (h.closed i), slot]
    exact (h.putSlot i _).updateLevel
  | missing => exact nomatch found

/-- With the rest queued, every look finds something. -/
theorem filled (h : Extends rest f g) : g.fill.1 = false := fill_of_closed h.closed

theorem fill (h : Extends rest f g) (found : f.fill.1 = false) :
    Extends rest f.fill.2 g.fill.2 := by
  obtain ⟨main, overlay⟩ := Bool.or_eq_false_iff.1 (show ((f.look .main).1 || _) = false from found)
  exact (h.look main).look overlay

theorem move (h : Extends rest f g) (pts : Timestamp) :
    (g.move pts).1 = (f.move pts).1 ∧ Extends rest (f.move pts).2 (g.move pts).2 := by
  obtain ⟨flag, sync⟩ := move_congr h.sync pts
  exact ⟨flag,
    { sync
      frames := fun i => by rw [move_queue, move_queue]; exact h.frames i
      closed := fun i => by rw [move_queue]; exact h.closed i
      orderly := fun i => by rw [move_queue]; exact h.orderly i }⟩

theorem moved (h : Extends rest f g) (found : f.fill.1 = false) :
    g.moved.1 = f.moved.1 ∧ Extends rest f.moved.2 g.moved.2 := by
  have filled := h.fill found
  rw [moved_eq, moved_eq, filled.sync]
  exact filled.move _

/-- The rounds of an activation are the same with the rest queued, up to one that has to wait. -/
theorem advance (h : Extends rest f g) :
    (g.advance.1 = f.advance.1 ∧ Extends rest f.advance.2 g.advance.2 ∧
      (f.advance.1 || f.advance.2.sync.eof) = true) ∨
    ∃ f' g', f'.sync.eof = false ∧ f'.fill.1 = true ∧ Extends rest f' g' ∧
      f.advance = (false, f'.fill.2) ∧ g.advance = g'.advance := by
  induction f using rounds_induct generalizing g with
  | ended f ended =>
    rw [advance_of_eof ended, advance_of_eof (h.sync ▸ ended)]
    exact .inl ⟨rfl, h, ended⟩
  | missing f on missing =>
    rw [advance_of_missing on missing]
    exact .inr ⟨f, g, on, missing, h, rfl, rfl⟩
  | endless f on filled none =>
    have h' := h.fill filled
    rw [advance_of_endless on filled none,
      advance_of_endless (h.sync ▸ on) h.filled (h'.sync ▸ none)]
    exact .inl ⟨rfl, { h' with sync := congrArg Synchronizer.finish h'.sync }, rfl⟩
  | move f on filled ahead ih =>
    have h' := h.fill filled
    obtain ⟨flag, moved⟩ := h.moved filled
    have finished' : (g.moved.1 || g.moved.2.sync.eof) = (f.moved.1 || f.moved.2.sync.eof) := by
      rw [flag, moved.sync]
    cases finished : f.moved.1 || f.moved.2.sync.eof with
    | false =>
      rw [advance_of_quiet on filled ahead finished,
        advance_of_quiet (h.sync ▸ on) h.filled (h'.sync ▸ ahead) (finished'.trans finished)]
      exact ih finished moved
    | true =>
      rw [advance_of_over on filled ahead finished,
        advance_of_over (h.sync ▸ on) h.filled (h'.sync ▸ ahead) (finished'.trans finished)]
      exact .inl ⟨flag, moved, finished⟩

end Extends

/-! ### Rounds that wait -/

namespace Extends

variable {rest : InputRole → List (Stamped α)} {f g : Flow α}

/-- A round that has to wait has taken in what there was.  Started anew with the rest queued, it
finds what it would have found with the rest queued from the start, unless the output has ended. -/
theorem fill_of_missing (h : Extends rest f g) (missing : f.fill.1 = true) {g' : Flow α}
    (h' : Extends rest f.fill.2 g') : g.fill.2.junction = g'.fill.2.junction ∨
      (g.fill.2.sync.eof = true ∧ g'.fill.2.sync.eof = true) := by
  rcases main : (f.look .main).1
  · -- the main input had something: the main look of the second start finds nothing to do
    have overlay : ((f.look .main).2.look .overlay).1 = true := by
      have : ((f.look .main).1 || ((f.look .main).2.look .overlay).1) = true := missing
      rwa [main, Bool.false_or] at this
    have same : f.fill.2 = (f.look .main).2 := (missing_of_look overlay).1
    rw [same] at h'
    have content : (g'.sync.slot .main).wants = false := by
      rw [h'.sync]
      exact look_content main
    have fill' : g'.fill.2 = (g'.look .overlay).2 := by
      show ((g'.look .main).2.look .overlay).2 = _
      rw [look_of_known content]
    rw [fill']
    exact .inl (look_alike ((h.look main).junction_eq h') .overlay).2
  obtain ⟨idle, -, -, -⟩ := missing_of_look main
  have fill : f.fill.2 = (f.look .overlay).2 := by
    show ((f.look .main).2.look .overlay).2 = _
    rw [idle]
  rw [fill] at h'
  cases overlay : (f.look .overlay).1 with
  | false =>
    -- the overlay had something: it is looked at first, the main input second
    have content : (g'.sync.slot .overlay).wants = false := by
      rw [h'.sync]
      exact look_content overlay
    have fill' : g'.fill.2 = (g'.look .main).2 := by
      show ((g'.look .main).2.look .overlay).2 = _
      rw [look_of_known]
      rw [(look_of_ne g' (by decide)).1]
      exact content
    have same := (look_alike ((h.look overlay).junction_eq h') .main).2
    rw [fill']
    rcases look_comm g h.closed with comm | ⟨ended, ended'⟩
    · left
      rw [← same, ← comm]
      rfl
    · right
      refine ⟨ended, ?_⟩
      exact (congrArg (fun j => j.sync.eof) same).symm.trans ended'
  | true =>
    -- neither had anything
    rw [(missing_of_look overlay).1] at h'
    exact .inl (fill_alike (h.junction_eq h')).2

/-- An output that ends in the looks of a round has ended after it. -/
theorem advance_eof_of_fill (h : Extends rest f g) (ended : g.fill.2.sync.eof = true) :
    g.advance.2.sync.eof = true := by
  cases on : g.sync.eof with
  | false =>
    by_cases none : g.fill.2.sync.nextTime = Timestamp.endless
    · rw [advance_of_endless on h.filled none]
      rfl
    · have finished : g.moved.2.sync.eof = true := by
        rw [moved_eq, move_sync]
        simp only [ended, Bool.true_or]
      rw [advance_of_over on h.filled none (by rw [finished, Bool.or_true])]
      exact finished
  | true =>
    rw [advance_of_eof on]
    exact on

/-- The same for the activation that the round belongs to. -/
theorem advance_of_missing (h : Extends rest f g) (on : f.sync.eof = false)
    (missing : f.fill.1 = true) {g' : Flow α} (h' : Extends rest f.fill.2 g') :
    Alike g.advance g'.advance ∨ (g.advance.2.sync.eof = true ∧ g'.advance.2.sync.eof = true) := by
  rcases h.fill_of_missing missing h' with same | ⟨ended, ended'⟩
  · cases on' : g'.sync.eof with
    | false =>
      left
      refine advance_of_fill (h.sync ▸ on) on' ⟨h.filled.trans h'.filled.symm, same⟩ ?_
      intro _ _ _ moved
      exact advance_alike moved
    | true =>
      -- the looks of the first start have ended the output
      have ended' : g'.fill.2.sync.eof = true := look_eof .overlay (look_eof .main on')
      have ended : g.fill.2.sync.eof = true := (congrArg (fun j => j.sync.eof) same).trans ended'
      exact .inr ⟨h.advance_eof_of_fill ended, h'.advance_eof_of_fill ended'⟩
  · exact .inr ⟨h.advance_eof_of_fill ended, h'.advance_eof_of_fill ended'⟩

end Extends

end Flow

end FrameOverlay
